import Mathlib.Algebra.Order.Ring.Nat

/- Byte strings: little-endian and big-endian numbers, slices, and the hexadecimal text
   of a byte. -/
namespace Bytes

/-- `int.from_bytes(bytes, "little")`. -/
def littleEndian : List UInt8 → Nat
  | [] => 0
  | byte :: rest => byte.toNat + 256 * littleEndian rest

/-- `int.from_bytes(bytes, "big")`. -/
def bigEndian (bytes : List UInt8) : Nat := littleEndian bytes.reverse

/-- `int.from_bytes(bytes, "little", signed=True)`. -/
def signedLittle (bytes : List UInt8) : Int :=
  if 2 * littleEndian bytes < 256 ^ bytes.length then littleEndian bytes
  else (littleEndian bytes : Int) - (256 : Int) ^ bytes.length

/-- `bytes[start:stop]` for bounds that are not negative. -/
def slice {α : Type} (bytes : List α) (start stop : Nat) : List α := (bytes.take stop).drop start

@[simp] theorem littleEndian_nil : littleEndian [] = 0 := rfl

@[simp] theorem littleEndian_cons (byte : UInt8) (rest : List UInt8) :
    littleEndian (byte :: rest) = byte.toNat + 256 * littleEndian rest := rfl

/-- The slice after a known front is what follows it. -/
theorem slice_append {α : Type} (front middle back : List α) :
    slice (front ++ (middle ++ back)) front.length (front.length + middle.length) = middle := by
  rw [slice, ← List.append_assoc, ← List.length_append, List.take_left, List.drop_left]

theorem slice_drop {α : Type} (bytes : List α) (n start stop : Nat) :
    slice bytes (n + start) (n + stop) = slice (bytes.drop n) start stop := by
  rw [slice, slice, List.take_drop, List.drop_drop]

/-- Two bytes put together with shifts, as the C sources do it. -/
theorem toUInt16_toNat (low high : UInt8) :
    (low.toUInt16 ||| (high.toUInt16 <<< 8)).toNat = low.toNat + 256 * high.toNat := by
  have hlow := low.toNat_lt
  have hhigh := high.toNat_lt
  have hshift : (high.toUInt16 <<< 8).toNat = 256 * high.toNat := by
    rw [UInt16.toNat_shiftLeft, UInt8.toNat_toUInt16, Nat.shiftLeft_eq]
    show high.toNat * 2 ^ 8 % 2 ^ 16 = _
    omega
  rw [UInt16.toNat_or, UInt8.toNat_toUInt16, hshift, Nat.or_comm, Nat.mul_comm, Nat.add_comm,
    Nat.mul_comm]
  exact (Nat.two_pow_add_eq_or_of_lt (i := 8) (by omega) high.toNat).symm

end Bytes
