import NrfKit.Lib.Bytes
import NrfKit.Lib.Python

/- Records of a binary file as Python's `struct` reads them: fields of given widths, one
   after the other, each a little-endian number.

   A field is the number at its own offset (`unpack_field`), so what is proved of a record
   is said of the bytes of the file. -/
namespace Struct
open Bytes Python

/-- The widths of the fields, in order. -/
abbrev Format := List Nat

def Format.size (format : Format) : Nat := format.sum

/-- The number in `width` bytes from `offset` on. -/
def number (data : List UInt8) (offset width : Nat) : Nat :=
  littleEndian ((data.drop offset).take width)

def unpack : Format → List UInt8 → List Nat
  | [], _ => []
  | width :: rest, data => littleEndian (data.take width) :: unpack rest (data.drop width)

/-- `struct.unpack_from`. -/
def unpackFrom (format : Format) (data : List UInt8) (offset : Nat) : Except Raised (List Nat) :=
  if data.length < offset + format.size then
    .error ⟨"error", "unpack_from requires a buffer of at least " ++
      toString (offset + format.size) ++
      " bytes for unpacking " ++ toString format.size ++ " bytes at offset " ++ toString offset ++
      " (actual buffer size is " ++ toString data.length ++ ")"⟩
  else .ok (unpack format (data.drop offset))

/-- `fields[k]`. -/
def field (fields : List Nat) (k : Nat) : Nat := fields.getD k 0

/-- `struct.pack` of fields that fit. -/
def pack : Format → List Nat → List UInt8
  | width :: rest, value :: values =>
    (List.range width).map (fun i => UInt8.ofNat (value / 256 ^ i)) ++ pack rest values
  | _, _ => []

theorem unpackFrom_ok {format : Format} {data : List UInt8} {offset : Nat} {fields : List Nat} :
    unpackFrom format data offset = .ok fields ↔
      offset + format.size ≤ data.length ∧ unpack format (data.drop offset) = fields := by
  unfold unpackFrom
  split
  · simp
    omega
  · simp
    omega

/-- A field is the number that stands behind the fields before it. -/
theorem unpack_field {format : Format} {k width : Nat} (h : format[k]? = some width)
    (data : List UInt8) (offset : Nat) :
    field (unpack format (data.drop offset)) k =
      number data (offset + (format.take k).sum) width := by
  induction format generalizing k offset with
  | nil => simp at h
  | cons first rest ih =>
    cases k with
    | zero =>
      obtain rfl : first = width := by simpa using h
      simp [unpack, field, number]
    | succ k =>
      have hrest := ih (by simpa using h) (offset + first)
      rw [← List.drop_drop] at hrest
      simpa [unpack, field, Nat.add_assoc] using hrest

end Struct
