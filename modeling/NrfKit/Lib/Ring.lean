import NrfKit.Lib.Objects

/- Circular buffers: `size` cells, of which the values `stored` so far went to the
   positions `0, 1, …` modulo `size` and the first `taken` have been taken out again. One
   cell always stays free, so equal indices mean an empty ring. -/
namespace Ring
open Objects

variable {α : Type} {size : Nat}

structure Holds (size : Nat) (cells : Object α) (stored : List α) (taken : Nat) : Prop where
  length : cells.length = size
  taken_le : taken ≤ stored.length
  room : stored.length - taken < size
  cell : ∀ i, taken ≤ i → i < stored.length → cells[i % size]? = stored[i]?.map some

theorem holds_empty {cells : Object α} (hlength : cells.length = size) (h : 0 < size) :
    Holds size cells [] 0 where
  length := hlength
  taken_le := Nat.le_refl 0
  room := h
  cell := fun _ _ hi => absurd hi (Nat.not_lt_zero _)

section
variable {cells : Object α} {stored : List α} {taken : Nat}

theorem Holds.size_pos (h : Holds size cells stored taken) : 0 < size := Nat.zero_lt_of_lt h.room

/-- Distinct positions less than `size` apart are distinct cells. -/
theorem cell_ne {i j : Nat} (hij : i < j) (hsize : j - i < size) : i % size ≠ j % size := by
  intro he
  have hzero : (j - i) % size = 0 := Nat.sub_mod_eq_zero_of_mod_eq he.symm
  rw [Nat.mod_eq_of_lt hsize] at hzero
  omega

/-- A value is stored. -/
theorem Holds.push (h : Holds size cells stored taken)
    (hroom : stored.length - taken + 1 < size) (value : α) :
    cells.store (stored.length % size) value = .ok (cells.set (stored.length % size) (some value)) ∧
      Holds size (cells.set (stored.length % size) (some value)) (stored ++ [value]) taken := by
  have htaken := h.taken_le
  have hin : stored.length % size < cells.length := by
    rw [h.length]
    exact Nat.mod_lt _ h.size_pos
  refine ⟨if_pos hin, ⟨?_, ?_, ?_, ?_⟩⟩
  · rw [List.length_set, h.length]
  · rw [List.length_append]
    exact Nat.le_trans htaken (Nat.le_add_right _ _)
  · rw [List.length_append, List.length_singleton]
    omega
  · intro i hi hlt
    rw [List.length_append, List.length_singleton] at hlt
    by_cases hlast : i = stored.length
    · subst hlast
      rw [List.getElem?_set_self hin, List.getElem?_concat_length]
      rfl
    · have hne : i % size ≠ stored.length % size := cell_ne (by omega) (by omega)
      rw [List.getElem?_set_ne hne.symm, List.getElem?_append_left (by omega)]
      exact h.cell i hi (by omega)

/-- A value not yet taken is read where it was stored. -/
theorem Holds.peek (h : Holds size cells stored taken) {i : Nat} (hi : taken ≤ i) {value : α}
    (hvalue : stored[i]? = some value) : cells.load (i % size) = .ok value := by
  have hlt : i < stored.length := (List.getElem?_eq_some_iff.mp hvalue).1
  rw [Object.load, h.cell i hi hlt, hvalue]
  rfl

/-- The oldest value is taken. -/
theorem Holds.pop (h : Holds size cells stored taken) (hlt : taken < stored.length) :
    Holds size cells stored (taken + 1) where
  length := h.length
  taken_le := hlt
  room := Nat.lt_of_le_of_lt (by omega) h.room
  cell := fun i hi hlt => h.cell i (by omega) hlt

/-- What the two indices say about the number of values held. -/
theorem Holds.count (h : Holds size cells stored taken) :
    (taken % size ≤ stored.length % size →
      stored.length % size - taken % size = stored.length - taken) ∧
    (stored.length % size < taken % size →
      size - taken % size + stored.length % size = stored.length - taken) := by
  have hpos := h.size_pos
  have hroom := h.room
  have htaken := h.taken_le
  have ht := Nat.mod_add_div taken size
  have hs := Nat.mod_add_div stored.length size
  have htl := Nat.mod_lt taken hpos
  have hsl := Nat.mod_lt stored.length hpos
  -- The quotients differ by at most one, by one exactly where the writer has wrapped.
  have hq : taken / size ≤ stored.length / size := Nat.div_le_div_right htaken
  have hq' : stored.length / size ≤ taken / size + 1 := by
    have := Nat.div_le_div_right (c := size) (show stored.length ≤ taken + size by omega)
    rwa [Nat.add_div_right _ hpos] at this
  rcases Nat.eq_or_lt_of_le hq with he | hlt
  · rw [he] at ht
    constructor <;> intro <;> omega
  · have he : stored.length / size = taken / size + 1 := by omega
    rw [he, Nat.mul_add] at hs
    constructor <;> intro <;> omega

end

end Ring
