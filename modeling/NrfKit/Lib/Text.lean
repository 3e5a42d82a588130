import NrfKit.Lib.Bytes

/- ASCII text as the Python library reads and writes it, a character as its code: the
   lines of a text, and the digits of a byte string. -/
namespace Text

abbrev Chars := List UInt8

/-- Reading in text mode: `"\r\n"` and `"\r"` come as `"\n"`. -/
def universalNewlines : Chars → Chars
  | [] => []
  | [c] => [if c = 0x0d then 0x0a else c]
  | c :: d :: rest =>
    if c = 0x0d then
      if d = 0x0a then 0x0a :: universalNewlines rest else 0x0a :: universalNewlines (d :: rest)
    else c :: universalNewlines (d :: rest)

/-- What ends a line for `str.splitlines`. -/
def isBreak (c : UInt8) : Bool := (0x0a ≤ c ∧ c ≤ 0x0d) ∨ (0x1c ≤ c ∧ c ≤ 0x1e)

/-- `str.splitlines` of a text without `"\r\n"`, behind the line begun. -/
def splitLines (line : Chars) : Chars → List Chars
  | [] => if line = [] then [] else [line]
  | c :: rest => if isBreak c then line :: splitLines [] rest else splitLines (line ++ [c]) rest

/-- The lines of a text file. -/
def lines (text : Chars) : List Chars := splitLines [] (universalNewlines text)

def isSpace (c : UInt8) : Bool := (0x09 ≤ c ∧ c ≤ 0x0d) ∨ c = 0x20

def digitValue (c : UInt8) : Option Nat :=
  if 0x30 ≤ c ∧ c ≤ 0x39 then some (c.toNat - 0x30)
  else if 0x41 ≤ c ∧ c ≤ 0x46 then some (c.toNat - 0x37)
  else if 0x61 ≤ c ∧ c ≤ 0x66 then some (c.toNat - 0x57)
  else none

/-- `bytes.fromhex`, which skips spaces between two bytes. -/
def fromHex : Chars → Option (List UInt8)
  | [] => some []
  | [c] => if isSpace c then some [] else none
  | c :: d :: rest =>
    if isSpace c then fromHex (d :: rest)
    else
      match digitValue c, digitValue d with
      | some high, some low => (fromHex rest).map (UInt8.ofNat (16 * high + low) :: ·)
      | _, _ => none

/-- The digit of a number below 16. -/
def hexDigit (value : Nat) : UInt8 :=
  UInt8.ofNat (if value < 10 then 0x30 + value else 0x37 + value)

/-- `bytes.hex().upper()`. -/
def hexUpper : List UInt8 → Chars
  | [] => []
  | byte :: rest => hexDigit (byte.toNat / 16) :: hexDigit (byte.toNat % 16) :: hexUpper rest

/-- Digits in pairs, and nothing else. -/
def HexDigits (text : Chars) : Prop := text.length % 2 = 0 ∧ ∀ c ∈ text, (digitValue c).isSome

theorem digit_not_space {c : UInt8} (h : (digitValue c).isSome) : isSpace c = false := by
  have hdigit : (0x30 ≤ c ∧ c ≤ 0x39) ∨ (0x41 ≤ c ∧ c ≤ 0x46) ∨ (0x61 ≤ c ∧ c ≤ 0x66) := by
    unfold digitValue at h
    split at h
    · exact Or.inl ‹_›
    split at h
    · exact Or.inr (Or.inl ‹_›)
    split at h
    · exact Or.inr (Or.inr ‹_›)
    · cases h
  simp only [isSpace, UInt8.le_iff_toNat_le, ← UInt8.toNat_inj, decide_eq_false_iff_not] at hdigit ⊢
  have h9 : (9 : UInt8).toNat = 9 := rfl
  have h13 : (13 : UInt8).toNat = 13 := rfl
  have h32 : (32 : UInt8).toNat = 32 := rfl
  have h48 : (48 : UInt8).toNat = 48 := rfl
  have h65 : (65 : UInt8).toNat = 65 := rfl
  have h97 : (97 : UInt8).toNat = 97 := rfl
  omega

/-- What is read is digits alone iff no space was skipped. -/
theorem fromHex_digits {text : Chars} {bytes : List UInt8} (h : fromHex text = some bytes) :
    HexDigits text ↔ ∀ c ∈ text, isSpace c = false := by
  refine ⟨fun hdigits c hc => digit_not_space (hdigits.2 c hc), fun hspaces => ?_⟩
  induction text using fromHex.induct generalizing bytes with
  | case1 => exact ⟨rfl, nofun⟩
  | case2 c hspace => cases hspace.symm.trans (hspaces c (List.mem_cons_self ..))
  | case3 c hspace => simp [fromHex, hspace] at h
  | case4 c d rest hspace => cases hspace.symm.trans (hspaces c (List.mem_cons_self ..))
  | case5 c d rest hspace high low hlow hhigh ih =>
    rw [fromHex, if_neg hspace, hhigh, hlow] at h
    obtain ⟨bytes', hrest, _⟩ := Option.map_eq_some_iff.mp h
    obtain ⟨hlength, hvalues⟩ :=
      ih hrest fun e he => hspaces e (List.mem_cons_of_mem _ (List.mem_cons_of_mem _ he))
    refine ⟨by rw [List.length_cons, List.length_cons]; omega, fun e he => ?_⟩
    rcases List.mem_cons.mp he with rfl | he
    · exact Option.isSome_of_eq_some hhigh
    rcases List.mem_cons.mp he with rfl | he
    · exact Option.isSome_of_eq_some hlow
    · exact hvalues e he
  | case6 c d rest hspace hnone =>
    rw [fromHex, if_neg hspace] at h
    split at h
    · rename_i hhigh hlow
      exact absurd hlow (hnone _ _ hhigh)
    · cases h

/-! ## What is written reads back -/

/-- An ASCII character that ends no line. -/
def Plain (c : UInt8) : Prop := isBreak c = false ∧ c < 0x80

theorem hexDigit_value : ∀ value < 16, digitValue (hexDigit value) = some value ∧
    isSpace (hexDigit value) = false ∧ isBreak (hexDigit value) = false ∧
    hexDigit value < 0x80 := by decide

theorem fromHex_hexUpper (bytes : List UInt8) : fromHex (hexUpper bytes) = some bytes := by
  induction bytes with
  | nil => rfl
  | cons byte rest ih =>
    have hbyte := byte.toNat_lt
    obtain ⟨hhigh, hspace, _⟩ := hexDigit_value (byte.toNat / 16) (by omega)
    obtain ⟨hlow, _, _⟩ := hexDigit_value (byte.toNat % 16) (by omega)
    have hwhole : 16 * (byte.toNat / 16) + byte.toNat % 16 = byte.toNat := by omega
    simp [hexUpper, fromHex, hspace, hhigh, hlow, ih, hwhole]

theorem hexUpper_plain (bytes : List UInt8) : ∀ c ∈ hexUpper bytes, Plain c := by
  induction bytes with
  | nil => nofun
  | cons byte rest ih =>
    have hbyte := byte.toNat_lt
    intro c hc
    rcases List.mem_cons.mp hc with rfl | hc
    · exact (hexDigit_value (byte.toNat / 16) (by omega)).2.2
    rcases List.mem_cons.mp hc with rfl | hc
    · exact (hexDigit_value (byte.toNat % 16) (by omega)).2.2
    · exact ih c hc

theorem universalNewlines_cons {c : UInt8} (hc : c ≠ 0x0d) (rest : Chars) :
    universalNewlines (c :: rest) = c :: universalNewlines rest := by
  cases rest with
  | nil => simp [universalNewlines, hc]
  | cons d rest => simp [universalNewlines, hc]

theorem Plain.not_return {c : UInt8} (h : Plain c) : c ≠ 0x0d := by
  rintro rfl
  have hbreak : isBreak 0x0d = true := by decide
  cases hbreak.symm.trans h.1

theorem universalNewlines_plain {line : Chars} (h : ∀ c ∈ line, Plain c) (rest : Chars) :
    universalNewlines (line ++ rest) = line ++ universalNewlines rest := by
  induction line with
  | nil => rfl
  | cons c line ih =>
    rw [List.cons_append, universalNewlines_cons (h c (List.mem_cons_self ..)).not_return,
      ih fun d hd => h d (List.mem_cons_of_mem _ hd), List.cons_append]

theorem splitLines_plain {line : Chars} (h : ∀ c ∈ line, Plain c) (front rest : Chars) :
    splitLines front (line ++ rest) = splitLines (front ++ line) rest := by
  induction line generalizing front with
  | nil => rw [List.nil_append, List.append_nil]
  | cons c line ih =>
    have hc : isBreak c = false := (h c (List.mem_cons_self ..)).1
    rw [List.cons_append, splitLines, hc, if_neg Bool.false_ne_true,
      ih fun d hd => h d (List.mem_cons_of_mem _ hd), List.append_assoc, List.singleton_append]

/-- Lines written with a line feed after each. -/
theorem lines_written {written : List Chars} (h : ∀ line ∈ written, ∀ c ∈ line, Plain c) :
    lines (written.flatMap fun line => line ++ [0x0a]) = written := by
  induction written with
  | nil => rfl
  | cons line written ih =>
    have hline := h line (List.mem_cons_self ..)
    have hrest := ih fun l hl => h l (List.mem_cons_of_mem _ hl)
    unfold lines at hrest ⊢
    rw [List.flatMap_cons, List.append_assoc, List.singleton_append, universalNewlines_plain hline,
      universalNewlines_cons (by decide), splitLines_plain hline, List.nil_append, splitLines,
      if_pos (by decide), hrest]

end Text
