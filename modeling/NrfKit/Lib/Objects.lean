import Mathlib.Algebra.Order.Ring.Nat

/- Objects of a C program: a fixed number of cells, each of which holds a value or was
   never written. Reading a cell that was never written and touching a cell past the end
   are faults. `known values ++ cells` is an object whose first cells have been written
   one after another; the rules say what an access at that boundary does, so that a
   program which fills an object from its start is followed by rewriting. -/
namespace Objects

/-- An access the language leaves undefined. -/
inductive Fault where
  | read
  | write
  deriving DecidableEq, Repr

abbrev Object (α : Type) := List (Option α)

variable {α : Type}

def known (values : List α) : Object α := values.map some

namespace Object

def load (object : Object α) (index : Nat) : Except Fault α :=
  match object[index]? with
  | some (some value) => .ok value
  | _ => .error .read

def store (object : Object α) (index : Nat) (value : α) : Except Fault (Object α) :=
  if index < object.length then .ok (object.set index (some value)) else .error .write

/-- The cells from `start`, `size` of them. -/
def loads (object : Object α) (start : Nat) : Nat → Except Fault (List α)
  | 0 => .ok []
  | size + 1 => do
    let values ← loads object start size
    let value ← object.load (start + size)
    .ok (values ++ [value])

/-- Bytewise copy in ascending order, as `copy_bytes` and `memcpy` do it. -/
def copy (destination : Object α) (start : Nat) (source : Object α) : Nat → Except Fault (Object α)
  | 0 => .ok destination
  | size + 1 => do
    let written ← copy destination start source size
    let value ← source.load size
    written.store (start + size) value

end Object

@[simp] theorem known_length (values : List α) : (known values).length = values.length :=
  List.length_map ..

theorem known_append (front back : List α) : known (front ++ back) = known front ++ known back :=
  List.map_append

theorem load_known (front : List α) (value : α) (rest : Object α) :
    (known front ++ some value :: rest).load front.length = .ok value := by
  have hcell : (known front ++ some value :: rest)[front.length]? = some (some value) := by
    rw [List.getElem?_append_right (Nat.le_of_eq (known_length front)), known_length, Nat.sub_self]
    rfl
  rw [Object.load, hcell]

/-- A store right after the cells written so far. -/
theorem store_next (front : List α) (value : α) (cell : Option α) (rest : Object α) :
    (known front ++ cell :: rest).store front.length value =
      .ok (known (front ++ [value]) ++ rest) := by
  have hbound : front.length < (known front ++ cell :: rest).length := by
    simp only [List.length_append, known_length, List.length_cons]
    omega
  rw [Object.store, if_pos hbound, known_append, List.append_assoc]
  congr 1
  rw [List.set_append_right _ _ (Nat.le_of_eq (known_length front)), known_length, Nat.sub_self]
  rfl

theorem store_bind {β : Type} {front : List α} {value : α} {cell : Option α} {rest : Object α}
    {index : Nat} (h : index = front.length) (k : Object α → Except Fault β) :
    ((known front ++ cell :: rest).store index value >>= k) =
      k (known (front ++ [value]) ++ rest) := by
  rw [h, store_next]
  rfl

theorem loads_known (front values : List α) (rest : Object α) :
    ∀ size, size ≤ values.length →
      (known (front ++ values) ++ rest).loads front.length size = .ok (values.take size)
  | 0, _ => by rw [Object.loads, List.take_zero]
  | size + 1, hsize => by
    have hlt : size < values.length := by omega
    have hsplit : known (front ++ values) ++ rest =
        known (front ++ values.take size) ++
        some values[size] :: (known (values.drop (size + 1)) ++ rest) := by
      calc known (front ++ values) ++ rest
          = known (front ++ (values.take size ++ values.drop size)) ++ rest := by
            rw [List.take_append_drop]
        _ = _ := by
            rw [List.drop_eq_getElem_cons hlt, ← List.append_assoc, known_append _ (_ :: _),
              List.append_assoc]
            rfl
    have hat : front.length + size = (front ++ values.take size).length := by
      rw [List.length_append, List.length_take, Nat.min_eq_left (by omega)]
    rw [Object.loads, loads_known front values rest size (by omega), hat, hsplit, load_known,
      List.take_succ_eq_append_getElem hlt]
    rfl

/-- A copy right after the cells written so far. -/
theorem copy_next (front values : List α) (cells rest : Object α) :
    ∀ size, size ≤ values.length → size ≤ cells.length →
      (known front ++ cells).copy front.length (known values ++ rest) size =
        .ok (known (front ++ values.take size) ++ cells.drop size)
  | 0, _, _ => by rw [Object.copy, List.take_zero, List.append_nil, List.drop_zero]
  | size + 1, hvalues, hcells => by
    have hlt : size < values.length := by omega
    have hlt' : size < cells.length := by omega
    have hsource : known values ++ rest =
        known (values.take size) ++
        some values[size] :: (known (values.drop (size + 1)) ++ rest) := by
      calc known values ++ rest
          = known (values.take size ++ values.drop size) ++ rest := by rw [List.take_append_drop]
        _ = _ := by
            rw [List.drop_eq_getElem_cons hlt, known_append, List.append_assoc]
            rfl
    have hload : (known values ++ rest).load size = .ok values[size] := by
      have hat : (values.take size).length = size := by
        rw [List.length_take, Nat.min_eq_left (by omega)]
      rw [hsource]
      have h := load_known (values.take size) values[size] (known (values.drop (size + 1)) ++ rest)
      rw [hat] at h
      exact h
    have hat : front.length + size = (front ++ values.take size).length := by
      rw [List.length_append, List.length_take, Nat.min_eq_left (by omega)]
    rw [Object.copy, copy_next front values cells rest size (by omega) (by omega), hload, hat,
      List.drop_eq_getElem_cons hlt']
    show Object.store _ _ _ = _
    rw [store_next, List.append_assoc, List.take_succ_eq_append_getElem hlt]

end Objects
