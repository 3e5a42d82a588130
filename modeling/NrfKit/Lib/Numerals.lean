import Mathlib.Algebra.Order.Ring.Nat

/- Decimal numerals, a character for each digit: the number they write does not see the zeros
   before it, and nothing else is lost (`number_eq_iff`). -/
namespace Numerals

def number (digits : List Char) : Nat := Nat.ofDigitChars 10 digits 0

def Numeral (digits : List Char) : Prop := ∀ c ∈ digits, c.isDigit = true

def zeros (count : Nat) : List Char := List.replicate count '0'

theorem numeral_cons {c : Char} {digits : List Char} :
    Numeral (c :: digits) ↔ c.isDigit = true ∧ Numeral digits :=
  List.forall_mem_cons

theorem numeral_append {front back : List Char} :
    Numeral (front ++ back) ↔ Numeral front ∧ Numeral back :=
  List.forall_mem_append

theorem numeral_zeros (count : Nat) : Numeral (zeros count) := by
  intro c hc
  rw [List.eq_of_mem_replicate hc]
  rfl

/-- The value of a digit. -/
theorem digit_lt {c : Char} (h : c.isDigit = true) : c.toNat - '0'.toNat < 10 := by
  have hbounds : '0'.toNat ≤ c.toNat ∧ c.toNat ≤ '9'.toNat := by
    rw [Char.isDigit, Bool.and_eq_true, decide_eq_true_eq, decide_eq_true_eq] at h
    exact h
  have hzero : '0'.toNat = 48 := rfl
  have hnine : '9'.toNat = 57 := rfl
  omega

theorem digit_inj {c d : Char} (hc : c.isDigit = true) (hd : d.isDigit = true)
    (h : c.toNat - '0'.toNat = d.toNat - '0'.toNat) : c = d := by
  rw [Char.isDigit, Bool.and_eq_true, decide_eq_true_eq, decide_eq_true_eq] at hc hd
  have hlow : '0'.toNat ≤ c.toNat ∧ '0'.toNat ≤ d.toNat := ⟨hc.1, hd.1⟩
  exact Char.toNat_inj.mp (by omega)

theorem number_cons (c : Char) (digits : List Char) :
    number (c :: digits) = 10 ^ digits.length * (c.toNat - '0'.toNat) + number digits := by
  rw [number, Nat.ofDigitChars_cons, Nat.ofDigitChars_eq_ofDigitChars_zero, Nat.mul_zero,
    Nat.zero_add, number]

theorem number_lt {digits : List Char} (h : Numeral digits) :
    number digits < 10 ^ digits.length := by
  induction digits with
  | nil => decide
  | cons c digits ih =>
    obtain ⟨hc, hdigits⟩ := numeral_cons.mp h
    have hrest := ih hdigits
    have hfirst : 10 ^ digits.length * (c.toNat - '0'.toNat) ≤ 10 ^ digits.length * 9 :=
      Nat.mul_le_mul_left _ (Nat.le_of_lt_succ (digit_lt hc))
    rw [number_cons, List.length_cons, Nat.pow_succ]
    omega

/-- Zeros before a numeral write nothing. -/
theorem number_zeros (count : Nat) (digits : List Char) :
    number (zeros count ++ digits) = number digits := by
  rw [number, Nat.ofDigitChars_append, zeros, Nat.ofDigitChars_replicate_zero, Nat.mul_zero, number]

/-- Of one length the numerals are told apart. -/
theorem number_inj {digits other : List Char} (hdigits : Numeral digits) (hother : Numeral other)
    (hlength : digits.length = other.length)
    (h : number digits = number other) : digits = other := by
  induction digits generalizing other with
  | nil => exact (List.length_eq_zero_iff.mp hlength.symm).symm
  | cons c digits ih =>
    obtain ⟨d, other, rfl⟩ := List.exists_cons_of_length_eq_add_one hlength.symm
    obtain ⟨hc, hdigits⟩ := numeral_cons.mp hdigits
    obtain ⟨hd, hother⟩ := numeral_cons.mp hother
    have hlength : digits.length = other.length := Nat.succ.inj hlength
    rw [number_cons, number_cons, ← hlength] at h
    -- The first digit is what is left of the number over the power of the rest.
    have hpower : 0 < 10 ^ digits.length := Nat.pow_pos (by decide)
    have hquotient : ∀ {first rest : Nat}, rest < 10 ^ digits.length →
        (10 ^ digits.length * first + rest) / 10 ^ digits.length = first :=
      fun hrest => by rw [Nat.mul_add_div hpower, Nat.div_eq_of_lt hrest, Nat.add_zero]
    have hfirst : c.toNat - '0'.toNat = d.toNat - '0'.toNat := by
      have hequal := congrArg (· / 10 ^ digits.length) h
      simp only [hquotient (number_lt hdigits), hquotient (hlength ▸ number_lt hother)] at hequal
      exact hequal
    have hrest : number digits = number other := by
      rw [hfirst] at h
      exact Nat.add_left_cancel h
    rw [digit_inj hc hd hfirst, ih hdigits hother hlength hrest]

theorem number_eq_of_le {digits other : List Char} (hdigits : Numeral digits)
    (hother : Numeral other) (hlength : digits.length ≤ other.length)
    (h : number digits = number other) :
    other = zeros (other.length - digits.length) ++ digits := by
  refine number_inj hother (numeral_append.mpr ⟨numeral_zeros _, hdigits⟩) ?_ ?_
  · rw [List.length_append, zeros, List.length_replicate]
    omega
  · rw [number_zeros, h]

/-- Two numerals write one number just where zeros make the difference. -/
theorem number_eq_iff {digits other : List Char} (hdigits : Numeral digits)
    (hother : Numeral other) :
    number digits = number other ↔ ∃ m n back, digits = zeros m ++ back ∧
      other = zeros n ++ back := by
  constructor
  · intro h
    rcases Nat.le_total digits.length other.length with hlength | hlength
    · exact ⟨0, _, digits, rfl, number_eq_of_le hdigits hother hlength h⟩
    · exact ⟨_, 0, other, number_eq_of_le hother hdigits hlength h.symm, rfl⟩
  · rintro ⟨m, n, back, rfl, rfl⟩
    rw [number_zeros, number_zeros]

/-- Texts that end behind their last separator. -/
theorem behind_last {α : Type} {sep : α} {front front' back back' : List α} (hback : sep ∉ back)
    (hback' : sep ∉ back') (h : (front ++ [sep]) ++ back = (front' ++ [sep]) ++ back') : front =
      front' ∧ back = back' := by
  have hsame : ∀ {short long mid rest : List α}, long ++ [sep] = short ++ [sep] ++ mid →
      sep ∉ mid ++ rest → mid = [] := by
    intro short long mid rest hlong hmid
    rcases List.eq_nil_or_concat mid with hnil | ⟨mid', last, rfl⟩
    · exact hnil
    rw [List.concat_eq_append] at hlong hmid
    rw [← List.append_assoc] at hlong
    obtain ⟨_, hlast⟩ := List.append_inj' hlong rfl
    cases hlast
    exact absurd (List.mem_append_left _ (List.mem_append_right _ (List.mem_singleton_self _))) hmid
  rcases List.append_eq_append_iff.mp h with ⟨mid, hfront, hmid⟩ | ⟨mid, hfront, hmid⟩
  · obtain rfl := hsame hfront (hmid ▸ hback)
    rw [List.append_nil] at hfront
    exact ⟨(List.append_cancel_right hfront).symm, hmid⟩
  · obtain rfl := hsame hfront (hmid ▸ hback')
    rw [List.append_nil] at hfront
    exact ⟨List.append_cancel_right hfront, hmid.symm⟩

end Numerals
