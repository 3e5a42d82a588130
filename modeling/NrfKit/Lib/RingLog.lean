import Mathlib.Algebra.Order.Ring.Nat

/- A log in a ring of slots. A record carries its number, and goes to the slot its number has in
   the ring; no index stands beside the records, so a scan of the slots finds the newest one.
   Numbers wrap at `M`.

   Appending writes one slot, and the write may be cut: the slot then holds what it held, the
   new record, or neither. A slot with a number whose record was not completed is `pending`;
   no other number comes before it is (`Ok`). So wherever an append is cut the newest record
   stays or the next one takes its place (`Appended.newest_cases`), and a record gives way
   only to the one a whole turn of the ring behind it (`Appended.holds`). -/
namespace RingLog

inductive Slot where
  | empty
  | pending (number : Nat)
  | valid (number : Nat)
  deriving DecidableEq, Repr

/-- The number in a slot, of a whole record or not. -/
def Slot.number : Slot → Option Nat
  | .empty => none
  | .pending n | .valid n => some n

/-- One step of the scan. -/
def Slot.newer (best : Nat) : Slot → Nat
  | .valid n => if best < n then n else best
  | .empty | .pending _ => best

/-- The scan; 0 where it finds nothing. -/
def newest (size : Nat) (log : Nat → Slot) : Nat :=
  (List.range size).foldl (fun best i => (log i).newer best) 0

/-- The number after `n`. -/
def next (M n : Nat) : Nat := (n + 1) % M

variable {size M : Nat} {log log' : Nat → Slot}

/-! ## The scan -/

theorem le_newer (best : Nat) (slot : Slot) : best ≤ slot.newer best := by
  cases slot with
  | valid n =>
    show best ≤ if best < n then n else best
    split <;> omega
  | empty | pending => exact Nat.le_refl best

theorem le_scan (indices : List Nat) (best : Nat) :
    best ≤ indices.foldl (fun best i => (log i).newer best) best := by
  induction indices generalizing best with
  | nil => exact Nat.le_refl best
  | cons i indices ih => exact Nat.le_trans (le_newer best (log i)) (ih _)

theorem valid_le_scan {indices : List Nat} {i n : Nat} (hi : i ∈ indices) (hn : log i = .valid n)
    (best : Nat) :
    n ≤ indices.foldl (fun best i => (log i).newer best) best := by
  induction indices generalizing best with
  | nil => cases hi
  | cons j indices ih =>
    rcases List.mem_cons.mp hi with rfl | hi
    · have hnewer : n ≤ (log i).newer best := by
        rw [hn]
        show n ≤ if best < n then n else best
        split <;> omega
      exact Nat.le_trans hnewer (le_scan indices _)
    · exact ih hi _

theorem scan_found (log : Nat → Slot) (indices : List Nat) (best : Nat) :
    indices.foldl (fun best i => (log i).newer best) best = best ∨
      ∃ i ∈ indices, log i = .valid (indices.foldl (fun best i => (log i).newer best) best) := by
  induction indices generalizing best with
  | nil => exact .inl rfl
  | cons i indices ih =>
    rcases ih ((log i).newer best) with hsame | ⟨j, hj, hlater⟩
    · simp only [List.foldl_cons, hsame]
      cases hi : log i with
      | valid n =>
        show (if best < n then n else best) = best ∨ _
        by_cases hlt : best < n
        · refine .inr ⟨i, by simp, ?_⟩
          rw [hi]
          show Slot.valid n = .valid (if best < n then n else best)
          rw [if_pos hlt]
        · exact .inl (if_neg hlt)
      | empty | pending => exact .inl rfl
    · exact .inr ⟨j, by simp [hj], hlater⟩

theorem valid_le_newest {i n : Nat} (hi : i < size) (hn : log i = .valid n) : n ≤ newest size log :=
  valid_le_scan (List.mem_range.mpr hi) hn 0

/-- What the scan returns is in the log. -/
theorem newest_found (hpos : newest size log ≠ 0) :
    ∃ i < size, log i = .valid (newest size log) := by
  rcases scan_found log (List.range size) 0 with hzero | ⟨i, hi, hn⟩
  · exact absurd hzero hpos
  · exact ⟨i, List.mem_range.mp hi, hn⟩

/-- The scan returns the largest number of a whole record. -/
theorem newest_eq {n : Nat} (hmax : ∀ i < size, ∀ m, log i = .valid m → m ≤ n)
    (hfound : n = 0 ∨ ∃ i < size, log i = .valid n) : newest size log = n := by
  apply Nat.le_antisymm
  · by_cases hpos : newest size log = 0
    · omega
    · obtain ⟨i, hi, hn⟩ := newest_found hpos
      exact hmax i hi _ hn
  · rcases hfound with rfl | ⟨i, hi, hn⟩
    · exact Nat.zero_le _
    · exact valid_le_newest hi hn

/-! ## Appending -/

/-- Every number is in its slot, and only the next one can be there without a whole record. -/
structure Ok (size M : Nat) (log : Nat → Slot) : Prop where
  small : ∀ i < size, ∀ n, (log i).number = some n → n < M
  place : ∀ i < size, ∀ n, (log i).number = some n → n % size = i
  pending : ∀ i < size, ∀ n, log i = .pending n → n = next M (newest size log)

/-- The next record was written to its slot, wholly or not. -/
structure Appended (size M : Nat) (log log' : Nat → Slot) : Prop where
  elsewhere : ∀ i < size, i ≠ next M (newest size log) % size → log' i = log i
  slot : log' (next M (newest size log) % size) = log (next M (newest size log) % size) ∨
    log' (next M (newest size log) % size) = .empty ∨
    (log' (next M (newest size log) % size)).number = some (next M (newest size log))

/-- Record `n` is no newer than the newest one, and still there while less than a turn of
the ring has been appended after it. -/
def Holds (size n : Nat) (log : Nat → Slot) : Prop :=
  n ≤ newest size log ∧ (newest size log + 1 < n + size → log (n % size) = .valid n)

theorem turn_ne {a n : Nat} (hle : n ≤ a) (hlt : a + 1 < n + size) : (a + 1) % size ≠ n % size := by
  intro hmod
  have hzero := Nat.sub_mod_eq_zero_of_mod_eq hmod
  rw [Nat.mod_eq_of_lt (by omega)] at hzero
  omega

theorem next_mod (hturn : size ∣ M) (n : Nat) :
    next M n % size = (n + 1) % size := Nat.mod_mod_of_dvd _ hturn

theorem newest_lt (h : Ok size M log) (hM : 0 < M) : newest size log < M := by
  by_cases hpos : newest size log = 0
  · omega
  · obtain ⟨i, hi, hn⟩ := newest_found hpos
    exact h.small i hi _ (by rw [hn]; rfl)

/-- The newest record is not in the slot that is written. -/
theorem Appended.kept {n : Nat} (happ : Appended size M log log') (h : Ok size M log)
    (hturn : size ∣ M) (hle : n ≤ newest size log) (hlt : newest size log + 1 < n + size)
    (hn : ∃ i < size, log i = .valid n) : log' (n % size) = .valid n := by
  obtain ⟨i, hi, hvalid⟩ := hn
  have hplace : n % size = i := h.place i hi n (by rw [hvalid]; rfl)
  have hne : i ≠ next M (newest size log) % size := by
    rw [next_mod hturn, ← hplace]
    exact (turn_ne hle hlt).symm
  rw [hplace, happ.elsewhere i hi hne, hvalid]

/-- Where the slot that was written holds the whole record, its number is the newest one. -/
theorem Appended.whole (happ : Appended size M log log')
    (hsize : 0 < size) (hroom : newest size log + 1 < M)
    (hslot : log' ((newest size log + 1) % size) = .valid (newest size log + 1)) :
    newest size log' = newest size log + 1 := by
  have hnext : next M (newest size log) = newest size log + 1 := Nat.mod_eq_of_lt hroom
  refine newest_eq (fun i hi m hm => ?_) (.inr ⟨_, Nat.mod_lt _ hsize, hslot⟩)
  by_cases hi' : i = (newest size log + 1) % size
  · rw [hi', hslot] at hm
    cases hm
    exact Nat.le_refl _
  · rw [happ.elsewhere i hi (by rwa [hnext])] at hm
    have := valid_le_newest hi hm
    omega

/-- A record that was appended whole is there. -/
theorem Appended.fresh (happ : Appended size M log log')
    (hsize : 0 < size) (hroom : newest size log + 1 < M)
    (hslot : log' ((newest size log + 1) % size) = .valid (newest size log + 1)) :
    Holds size (newest size log + 1) log' :=
  ⟨Nat.le_of_eq (happ.whole hsize hroom hslot).symm, fun _ => hslot⟩

section
variable (hsize : 1 < size) (hM : 0 < M) (hturn : size ∣ M)
include hsize hM hturn

/-- **Wherever an append is cut**, the newest record stays or the next one takes its place. -/
theorem Appended.newest_cases (happ : Appended size M log log') (h : Ok size M log) :
    newest size log' = newest size log ∨
      (newest size log' = newest size log + 1 ∧
        log' ((newest size log + 1) % size) = .valid (newest size log + 1)) := by
  have hlt := newest_lt h hM
  by_cases hroom : newest size log + 1 < M ∧
      log' ((newest size log + 1) % size) = .valid (newest size log + 1)
  · exact .inr ⟨happ.whole (by omega) hroom.1 hroom.2, hroom.2⟩
  · refine .inl (newest_eq (fun i hi m hm => ?_) ?_)
    · by_cases hi' : i = next M (newest size log) % size
      · rw [hi'] at hm hi
        rcases happ.slot with hold | hempty | hnumber
        · exact valid_le_newest hi (hold.symm.trans hm)
        · exact absurd (hempty.symm.trans hm) nofun
        · -- A whole record of the next number is there only where the number has wrapped.
          rw [hm] at hnumber
          have hnext : m = next M (newest size log) := Option.some.inj hnumber
          by_cases hfits : newest size log + 1 < M
          · have heq : next M (newest size log) = newest size log + 1 := Nat.mod_eq_of_lt hfits
            rw [hnext, heq] at hm
            exact absurd ⟨hfits, hm⟩ hroom
          · have hzero : next M (newest size log) = 0 := by
              unfold next
              rw [show newest size log + 1 = M by omega, Nat.mod_self]
            omega
      · rw [happ.elsewhere i hi hi'] at hm
        exact valid_le_newest hi hm
    · by_cases hpos : newest size log = 0
      · exact .inl hpos
      · exact .inr ⟨_, Nat.mod_lt _ (by omega),
          happ.kept h hturn (Nat.le_refl _) (by omega) (newest_found hpos)⟩

/-- The log stays one. -/
theorem Appended.ok (happ : Appended size M log log') (h : Ok size M log) : Ok size M log' := by
  have hnumber : ∀ i < size, ∀ n, (log' i).number = some n →
      (log i).number = some n ∨
      (i = next M (newest size log) % size ∧ n = next M (newest size log)) := by
    intro i hi n hn
    by_cases hi' : i = next M (newest size log) % size
    · rw [hi'] at hn ⊢
      rcases happ.slot with hold | hempty | hnew
      · exact .inl (hold ▸ hn)
      · rw [hempty] at hn
        cases hn
      · exact .inr ⟨rfl, Option.some.inj (hn.symm.trans hnew)⟩
    · rw [happ.elsewhere i hi hi'] at hn
      exact .inl hn
  refine ⟨fun i hi n hn => ?_, fun i hi n hn => ?_, fun i hi n hn => ?_⟩
  · rcases hnumber i hi n hn with hold | ⟨_, rfl⟩
    · exact h.small i hi n hold
    · exact Nat.mod_lt _ hM
  · rcases hnumber i hi n hn with hold | ⟨rfl, rfl⟩
    · exact h.place i hi n hold
    · rfl
  · -- What is pending is the number that was appended, so its record is not there.
    have hslot : i = next M (newest size log) % size ∧ n = next M (newest size log) := by
      by_cases hi' : i = next M (newest size log) % size
      · rcases hnumber i hi n (by rw [hn]; rfl) with hold | hnew
        · rw [hi'] at hn
          rcases happ.slot with hsame | hempty | hnew
          · exact ⟨hi', h.pending i hi n (by rw [hi', ← hsame, hn])⟩
          · exact absurd (hempty.symm.trans hn) nofun
          · rw [hn] at hnew
            exact ⟨hi', Option.some.inj hnew⟩
        · exact hnew
      · rw [happ.elsewhere i hi hi'] at hn
        have hnext := h.pending i hi n hn
        exact ⟨(h.place i hi n (by rw [hn]; rfl)).symm.trans (by rw [hnext]), hnext⟩
    rcases happ.newest_cases hsize hM hturn h with hsame | ⟨_, hwhole⟩
    · rw [hsame]
      exact hslot.2
    · rw [← next_mod hturn, ← hslot.1, hn] at hwhole
      cases hwhole

theorem Appended.holds {n : Nat} (happ : Appended size M log log') (h : Ok size M log)
    (hn : Holds size n log) :
    Holds size n log' := by
  obtain ⟨hle, hthere⟩ := hn
  have hgrown : newest size log ≤ newest size log' := by
    rcases happ.newest_cases hsize hM hturn h with hsame | ⟨hone, _⟩ <;> omega
  refine ⟨Nat.le_trans hle hgrown, fun hlt => ?_⟩
  have hlt' : newest size log + 1 < n + size := by omega
  exact happ.kept h hturn hle hlt' ⟨_, Nat.mod_lt _ (by omega), hthere hlt'⟩

end

end RingLog
