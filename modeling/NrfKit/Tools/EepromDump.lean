import Mathlib.Data.List.Sort
import NrfKit.Lib.Pattern
import NrfKit.Tools.Eeprom

/- The dump of the EEPROM as the temporary firmware's shell prints it:
   `parse_eeprom_dump` of `tools/nrfkit_tools/ppk2_eeprom.py`.

   A search for the lines of the dump gives an address and a field of octets each; the
   octets become chunks by address, and the chunks in the order of their addresses must be
   what is expected. So just the lines of one image give an image (`parseEepromDump_ok`). -/
namespace NrfKit.Tools.Eeprom
open Python Patterns

/-- `[0-9a-fA-F]` and the digit's value. -/
def hexDigitValue (c : Char) : Option Nat :=
  if '0' ≤ c ∧ c ≤ '9' then some (c.toNat - 48)
  else if 'a' ≤ c ∧ c ≤ 'f' then some (c.toNat - 87)
  else if 'A' ≤ c ∧ c ≤ 'F' then some (c.toNat - 55)
  else none

def isHex (c : Char) : Bool := (hexDigitValue c).isSome

/-- `int(digits, 16)`. -/
def hexNumber (digits : List Char) : Nat :=
  digits.foldl (fun value c => value * 16 + (hexDigitValue c).getD 0) 0

/-- `^([0-9a-fA-F]{8}):\s+(.*?)\s+\|` and its two groups. -/
def linePattern : Pattern (List Char × List Char) :=
  followed lineStart fun _ =>
  followed (exactly isHex 8) fun address =>
  followed (one (· = ':')) fun _ =>
  followed (oneOrMore isSpace) fun _ =>
  followed (fewest (· ≠ '\n')) fun field =>
  followed (oneOrMore isSpace) fun _ =>
  followed (one (· = '|')) fun _ => succeed (address, field)

/-- `(?<![0-9a-fA-F])[0-9a-fA-F]{2}(?![0-9a-fA-F])`. -/
def octetPattern : Pattern (List Char) :=
  followed (notBehind isHex) fun _ =>
  followed (exactly isHex 2) fun octet =>
  followed (notAhead isHex) fun _ => succeed octet

/-- A dict from addresses to bytes, in the order of insertion. -/
abbrev Chunks := List (Nat × List UInt8)

/-- One match of the line pattern; `bytes.fromhex` of octets of two digits each. -/
def addChunk (chunks : Chunks) (groups : List Char × List Char) : Except Raised Chunks := do
  let address := hexNumber groups.1
  let octets := findAll octetPattern groups.2
  raiseIf (octets = [] ∨ address ∈ chunks.map Prod.fst)
    (ppk2Error "malformed or duplicate ppk2-eeprom dump line")
  pure (chunks ++ [(address, octets.map fun octet => UInt8.ofNat (hexNumber octet))])

def addChunks (chunks : Chunks) : List (List Char × List Char) → Except Raised Chunks
  | [] => .ok chunks
  | groups :: rest => do
    let chunks ← addChunk chunks groups
    addChunks chunks rest

/-- The loop over the addresses in order. -/
def joinChunks (expectedOffset : Int) (data : List UInt8) : Chunks → Except Raised (List UInt8)
  | [] => .ok data
  | (address, chunk) :: rest => do
    raiseIf ((address : Int) ≠ expectedOffset + data.length)
      (ppk2Error "ppk2-eeprom dump has a gap or unexpected address")
    joinChunks expectedOffset (data ++ chunk) rest

def AddressLe (a b : Nat × List UInt8) : Prop := a.1 ≤ b.1

instance : DecidableRel AddressLe := fun a b => inferInstanceAs (Decidable (a.1 ≤ b.1))

instance : Std.Total AddressLe := ⟨fun a b => Nat.le_total a.1 b.1⟩

instance : IsTrans (Nat × List UInt8) AddressLe := ⟨fun _ _ _ => Nat.le_trans⟩

/-- `sorted(chunks)` with what is found under each address. -/
def sortedChunks (chunks : Chunks) : Chunks := chunks.insertionSort AddressLe

def parseEepromDump (output : String)
    (expectedOffset expectedSize : Int) : Except Raised (List UInt8) := do
  let chunks ← addChunks [] (findAll linePattern output.toList)
  let data ← joinChunks expectedOffset [] (sortedChunks chunks)
  raiseIf ((data.length : Int) ≠ expectedSize)
    (ppk2Error ("ppk2-eeprom dump has " ++ toString data.length ++ " bytes, expected " ++
      toString expectedSize))
  pure data

/-! ## The lines of a dump -/

/-- One or more blanks. -/
def Gap (text : List Char) : Prop := text ≠ [] ∧ ∀ c ∈ text, c = ' '

/-- The two digits of a byte. -/
def IsOctet (high low : Char) (byte : UInt8) : Prop :=
  isHex high ∧ isHex low ∧ UInt8.ofNat (hexNumber [high, low]) = byte

/-- Octets with gaps between two. -/
inductive Octets : List Char → List UInt8 → Prop
  | last {high low byte} (h : IsOctet high low byte) : Octets [high, low] [byte]
  | more {high low byte gap text bytes} (h : IsOctet high low byte) (hgap : Gap gap)
    (hmore : Octets text bytes) :
      Octets (high :: low :: (gap ++ text)) (byte :: bytes)

/-- Eight digits. -/
def EightDigits (digits : List Char) : Prop := digits.length = 8 ∧ ∀ c ∈ digits, isHex c

/-- A line of the dump: an address, its octets, and behind a bar anything that stays in the line. -/
structure IsDumpLine (line : List Char) (address : Nat) (bytes : List UInt8) : Prop where
  parts : ∃ digits gap octets gap' column,
    line = digits ++ ':' :: (gap ++ (octets ++ (gap' ++ '|' :: column))) ∧
    EightDigits digits ∧ hexNumber digits = address ∧ Gap gap ∧ Octets octets bytes ∧
    Gap gap' ∧ '\n' ∉ column

/-- A line that does not start with eight digits and a colon. -/
structure IsOtherLine (line : List Char) : Prop where
  plain : '\n' ∉ line
  other : ∀ digits rest, line = digits ++ ':' :: rest → ¬ EightDigits digits

theorem hex_bounds {c : Char} (h : isHex c) : 48 ≤ c.toNat ∧ c.toNat ≤ 102 := by
  have hcases : ('0' ≤ c ∧ c ≤ '9') ∨ ('a' ≤ c ∧ c ≤ 'f') ∨ ('A' ≤ c ∧ c ≤ 'F') := by
    unfold isHex hexDigitValue at h
    split at h
    · exact .inl ‹_›
    · split at h
      · exact .inr (.inl ‹_›)
      · split at h
        · exact .inr (.inr ‹_›)
        · nomatch h
  simp [Char.le_def, UInt32.le_iff_toNat_le] at hcases
  omega

theorem hex_not_space {c : Char} (h : isHex c) : isSpace c = false := by
  have hbounds := hex_bounds h
  simp [isSpace, UInt32.le_iff_toNat_le, ← UInt32.toNat_inj]
  omega

theorem hex_ne {c d : Char} (h : isHex c) (hd : d.toNat < 48 ∨ 102 < d.toNat) : c ≠ d := by
  rintro rfl
  have hbounds := hex_bounds h
  omega

theorem blank_not_hex {text : List Char} (h : Gap text) : ∀ c ∈ text, isHex c = false := by
  intro c hc
  rw [h.2 c hc]
  rfl

theorem blank_space {text : List Char} (h : Gap text) : ∀ c ∈ text, isSpace c = true := by
  intro c hc
  rw [h.2 c hc]
  rfl

/-! ## The octets of a field -/

/-- No octet begins where there is no digit. -/
theorem octetPattern_other {before : Option Char} {c : Char} {rest : List Char}
    (h : isHex c = false) :
    octetPattern ⟨before, c :: rest⟩ = [] := by
  have hnone : ∀ next,
      (followed (exactly isHex 2) fun octet => followed (notAhead isHex) fun _ => succeed octet)
      ⟨next, c :: rest⟩ = [] := fun next => followed_nil (followed_nil (one_other h))
  unfold octetPattern followed notBehind
  split
  · rfl
  · rw [List.flatMap_singleton]
    exact hnone before

/-- Two digits between characters that are none. -/
theorem octetPattern_match {before : Option Char} {high low : Char} {rest : List Char}
    (hhigh : isHex high) (hlow : isHex low) (hbefore : before.any isHex = false)
    (hrest : rest.head?.any isHex = false) :
    octetPattern ⟨before, high :: low :: rest⟩ = [([high, low], ⟨some low, rest⟩)] := by
  have hpair : ∀ c ∈ [high, low], isHex c = true := by simp [hhigh, hlow]
  have hdigits : exactly isHex 2 ⟨before, high :: low :: rest⟩ =
      [([high, low], ⟨some low, rest⟩)] := exactly_of hpair
  have hstart : notBehind isHex ⟨before, high :: low :: rest⟩ =
      [((), ⟨before, high :: low :: rest⟩)] := by
    rw [notBehind, hbefore]
    rfl
  have hend : notAhead isHex ⟨some low, rest⟩ = [((), ⟨some low, rest⟩)] := by
    rw [notAhead, hrest]
    rfl
  rw [octetPattern, followed_only hstart, followed_only hdigits, followed_only hend]
  rfl

theorem findFrom_gap {gap : List Char} (h : ∀ c ∈ gap, isHex c = false) (before : Option Char)
    (rest : List Char) :
    findFrom octetPattern 0 before (gap ++ rest) = findFrom octetPattern 0
      (behind before gap) rest := by
  induction gap generalizing before with
  | nil => rfl
  | cons c gap ih =>
    rw [List.cons_append, findFrom_none (octetPattern_other (h c (List.mem_cons_self ..))),
      ih fun d hd => h d (List.mem_cons_of_mem _ hd), behind_cons]

theorem behind_gap {before : Option Char} {gap : List Char}
    (h : Gap gap) : behind before gap = some ' ' := by
  obtain ⟨hsome, hall⟩ := h
  rw [behind, List.getLast?_eq_getLast_of_ne_nil hsome, hall _ (List.getLast_mem hsome)]
  rfl

/-- The search finds the octets in their order. -/
theorem findAll_octets {text : List Char} {bytes : List UInt8} (h : Octets text bytes) :
    (findAll octetPattern text).map (fun octet => UInt8.ofNat (hexNumber octet)) = bytes := by
  have hrun : ∀ before : Option Char, before.any isHex = false →
      (findFrom octetPattern 0 before text).map (fun octet =>
        UInt8.ofNat (hexNumber octet)) = bytes := by
    induction h with
    | last h =>
      intro before hbefore
      have hmatch := @octetPattern_match before _ _ [] h.1 h.2.1 hbefore rfl
      have hfirst := @findFrom_match _ octetPattern before _ _ [_] [] _ (congrArg List.head? hmatch)
      rw [List.append_nil] at hfirst
      rw [hfirst, List.map_cons, h.2.2]
      rfl
    | @more high low byte gap text bytes h hgap _ ih =>
      intro before hbefore
      have hnext : (gap ++ text).head?.any isHex = false := by
        obtain ⟨c, gap, rfl⟩ := List.exists_cons_of_ne_nil hgap.1
        exact blank_not_hex hgap c (List.mem_cons_self ..)
      have hmatch := @octetPattern_match before _ _ _ h.1 h.2.1 hbefore hnext
      have hfirst := @findFrom_match _ octetPattern before _ high [low]
        (gap ++ text) _ (congrArg List.head? hmatch)
      rw [List.singleton_append] at hfirst
      rw [hfirst, List.map_cons, h.2.2, findFrom_gap (blank_not_hex hgap), behind_gap hgap,
        ih (some ' ') rfl]
  exact hrun none rfl

/-! ## The lines -/

theorem Octets.chars {text : List Char} {bytes : List UInt8} (h : Octets text bytes) : ∀ c ∈ text,
      isHex c ∨ c = ' ' := by
  induction h with
  | last h => simp [h.1, h.2.1]
  | more h hgap _ ih =>
    intro c hc
    simp only [List.mem_cons, List.mem_append] at hc
    rcases hc with rfl | rfl | hc | hc
    · exact .inl h.1
    · exact .inl h.2.1
    · exact .inr (hgap.2 c hc)
    · exact ih c hc

theorem Octets.head {text : List Char} {bytes : List UInt8}
    (h : Octets text bytes) : ∀ c ∈ text.head?, isHex c := by
  cases h with
  | last h => exact fun c hc => Option.some.inj hc ▸ h.1
  | more h _ _ => exact fun c hc => Option.some.inj hc ▸ h.1

theorem Octets.final {text : List Char} {bytes : List UInt8} (h : Octets text bytes) :
    ∃ front c, text = front ++ [c] ∧ isHex c := by
  induction h with
  | @last high low _ h => exact ⟨[high], low, rfl, h.2.1⟩
  | @more high low _ gap _ _ _ _ _ ih =>
    obtain ⟨front, c, rfl, hc⟩ := ih
    exact ⟨high :: low :: (gap ++ front), c, by simp, hc⟩

/-- The field does not end within the octets: a digit stands between any blank and the bar. -/
theorem fieldEnd_within {text front later : List Char} {bytes : List UInt8} (h : Octets text bytes)
    (hsome : later ≠ []) (hsplit : text = front ++ later) {α : Type} (a : α) {here : Cursor}
    {rest : List Char} (hrest : here.rest = later ++ rest) :
    followed (oneOrMore isSpace) (fun _ => followed (one (· = '|'))
      fun _ => succeed a) here = [] := by
  rw [followed, List.flatMap_eq_nil_iff]
  rintro ⟨spaces, before, beyond⟩ hfound
  obtain ⟨_, hspaces, hfront⟩ := oneOrMore_front hfound
  dsimp only at hspaces hfront
  -- What is left of the octets ends with a digit, and no blank reaches past it.
  have hdigit : ∃ c ∈ later, isHex c := by
    obtain ⟨init, c, htext, hc⟩ := h.final
    refine ⟨c, ?_, hc⟩
    have hlast : text.getLast? = some c := by rw [htext, List.getLast?_concat]
    rw [hsplit, List.getLast?_append_of_ne_nil _ hsome] at hlast
    exact List.mem_of_getLast? hlast
  obtain ⟨digit, hin, hhex⟩ := hdigit
  have hno : digit ∉ spaces := fun hmem => by
    have hspace := hspaces digit hmem
    rw [hex_not_space hhex] at hspace
    exact Bool.false_ne_true hspace
  cases beyond with
  | nil => rfl
  | cons c beyond =>
    by_cases hbar : c = '|'
    · subst hbar
      -- A bar behind the blanks would be one of the octets' characters.
      rcases List.append_eq_append_iff.mp (hrest.symm.trans hfront) with ⟨more, hspaces',
        _⟩ | ⟨more, hlater, hbar⟩
      · exact absurd (by rw [hspaces']; exact List.mem_append_left _ hin) hno
      · cases more with
        | nil =>
          rw [List.append_nil] at hlater
          exact absurd (hlater ▸ hin) hno
        | cons d more =>
          obtain ⟨rfl, _⟩ := List.cons.inj hbar
          have hmem : '|' ∈ text := by rw [hsplit, hlater]; simp
          rcases h.chars '|' hmem with hhex | hblank
          · exact absurd hhex (by decide)
          · exact absurd hblank (by decide)
    · exact followed_nil (one_other (decide_eq_false hbar))

/-- A line of the dump is found with its address and its octets. -/
theorem IsDumpLine.reads {line : List Char} {address : Nat} {bytes : List UInt8}
    (h : IsDumpLine line address bytes) :
    ∃ groups, Reads linePattern line (some groups) ∧ hexNumber groups.1 = address ∧
      (findAll octetPattern groups.2).map (fun octet => UInt8.ofNat (hexNumber octet)) = bytes := by
  obtain ⟨digits, gap, octets, gap', column, hline, ⟨hlength, hdigits⟩, haddress, hgap, hoctets,
    hgap', hcolumn⟩ := h.parts
  refine ⟨(digits, octets), ?_, haddress, findAll_octets hoctets⟩
  obtain ⟨first, digits', rfl⟩ : ∃ c cs, digits = c :: cs :=
    List.exists_cons_of_length_eq_add_one hlength
  refine .found first (digits' ++ ':' :: (gap ++ (octets ++ (gap' ++ ['|'])))) column
    (by simp [hline]) _ ?_
  intro before tail hstart _
  have hwhole : line ++ tail = (first :: digits') ++
      ':' :: (gap ++ (octets ++ (gap' ++ '|' :: (column ++ tail)))) := by
    simp [hline]
  have hfields : ∀ c ∈ octets, decide (c ≠ '\n') = true := by
    intro c hc
    rcases hoctets.chars c hc with hhex | rfl
    · exact decide_eq_true (hex_ne hhex (by decide))
    · rfl
  -- Each blank field ends where the next one begins.
  have hoctetsHead : ∀ c ∈ (octets ++ (gap' ++ '|' :: (column ++ tail))).head?,
      isSpace c = false := by
    intro c hc
    obtain ⟨init, d, hfinal, _⟩ := hoctets.final
    rw [List.head?_append_of_ne_nil _ (by rw [hfinal]; simp)] at hc
    exact hex_not_space (hoctets.head c hc)
  have hbarHead : ∀ c ∈ ('|' :: (column ++ tail)).head?, isSpace c = false := by
    intro c hc
    rw [← Option.some.inj hc]
    rfl
  have height := @exactly_of isHex (first :: digits')
    (':' :: (gap ++ (octets ++ (gap' ++ '|' :: (column ++ tail))))) before hdigits
  rw [hlength] at height
  obtain ⟨_, hgaps⟩ := @oneOrMore_all isSpace (some ':') gap _ hgap.1 (blank_space hgap) hoctetsHead
  obtain ⟨shorter, _, hfew, hshorter⟩ :=
    @fewestFrom_split (fun c => decide (c ≠ '\n')) (behind (some ':') gap) octets
    (gap' ++ '|' :: (column ++ tail)) hfields
  obtain ⟨_, hgaps'⟩ := @oneOrMore_all isSpace
    (behind (behind (some ':') gap) octets) gap' _ hgap'.1 (blank_space hgap') hbarHead
  refine ⟨some '|', ?_⟩
  rw [hwhole, linePattern, followed_only (lineStart_of hstart _), followed_only height,
    followed_only (one_of rfl)]
  refine followed_head hgaps ?_
  -- The shortest field that is followed by blanks and a bar is the whole field.
  refine followed_first hfew ?_ ?_
  · intro x hx
    obtain ⟨later, hsome, hsplit, hrest⟩ := hshorter x hx
    exact fieldEnd_within hoctets hsome hsplit _ hrest
  · refine followed_head hgaps' ?_
    rw [followed_only (one_of rfl)]
    rfl

theorem IsDumpLine.plain {line : List Char} {address : Nat} {bytes : List UInt8}
    (h : IsDumpLine line address bytes) :
    '\n' ∉ line := by
  obtain ⟨digits, gap, octets, gap', column, rfl, ⟨_, hdigits⟩, _, hgap, hoctets, hgap',
    hcolumn⟩ := h.parts
  have hhex : ¬ isHex '\n' := by decide
  have hblank : ∀ gap, Gap gap → '\n' ∉ gap := fun gap h hmem => absurd (h.2 _ hmem) (by decide)
  simp only [List.mem_append, List.mem_cons, not_or]
  refine ⟨fun hmem => hhex (hdigits _ hmem),
    by decide, hblank gap hgap, fun hmem => ?_, hblank gap' hgap', by decide, hcolumn⟩
  rcases hoctets.chars _ hmem with h | h
  · exact hhex h
  · exact absurd h (by decide)

/-- Another line is passed over. -/
theorem IsOtherLine.reads {line : List Char}
    (h : IsOtherLine line) : Reads linePattern line none := by
  refine .other ?_
  intro before tail hstart htail
  rw [linePattern, followed_only (lineStart_of hstart _), followed, List.flatMap_eq_nil_iff]
  rintro ⟨digits, next, rest⟩ hfound
  obtain ⟨hlength, hdigits, hfront⟩ := exactly_front hfound
  dsimp only at hlength hdigits hfront
  cases rest with
  | nil => rfl
  | cons c rest =>
    by_cases hcolon : c = ':'
    · -- the digits and the colon would stand in the line
      subst hcolon
      have hplain : '\n' ∉ digits ++ [':'] := by
        rw [List.mem_append, not_or]
        exact ⟨fun hmem => absurd (hdigits _ hmem) (by decide), by decide⟩
      rw [List.append_cons] at hfront
      rcases List.append_eq_append_iff.mp hfront with ⟨more, hdigits', htail'⟩ | ⟨more, hline, _⟩
      · cases more with
        | nil => exact absurd ⟨hlength,
          hdigits⟩ (h.other digits [] (by rw [hdigits', List.append_nil]))
        | cons d more =>
          obtain rfl : d = '\n' := htail d (by rw [htail']; rfl)
          exact absurd (by rw [hdigits']; simp) hplain
      · exact absurd ⟨hlength, hdigits⟩ (h.other digits more (by rw [hline]; simp))
    · exact followed_nil (one_other (decide_eq_false hcolon))

/-! ## The chunks -/

/-- The row of the dump that the groups of a match stand for. -/
def Denotes (groups : List Char × List Char) (row : Nat × List UInt8) : Prop :=
  hexNumber groups.1 = row.1 ∧
  (findAll octetPattern groups.2).map (fun octet => UInt8.ofNat (hexNumber octet)) = row.2

/-- The rows become chunks unless an address comes twice. -/
theorem addChunks_eq {found : List (List Char × List Char)} {rows chunks : Chunks}
    (h : List.Forall₂ Denotes found rows) (hsome : ∀ row ∈ rows, row.2 ≠ [])
    (hchunks : (chunks.map Prod.fst).Nodup) :
    addChunks chunks found = if ((chunks ++ rows).map Prod.fst).Nodup then .ok (chunks ++ rows)
      else .error (ppk2Error "malformed or duplicate ppk2-eeprom dump line") := by
  induction h generalizing chunks with
  | nil => rw [List.append_nil, if_pos hchunks]; rfl
  | @cons groups row found rows hrow _ ih =>
    obtain ⟨address, bytes⟩ := row
    obtain ⟨rfl, rfl⟩ := hrow
    have hoctets : findAll octetPattern groups.2 ≠ [] := fun hnone =>
      hsome _ (List.mem_cons_self ..) (by rw [hnone]; rfl)
    by_cases hnew : hexNumber groups.1 ∈ chunks.map Prod.fst
    · have hrepeated : ∀ bytes,
          ¬ ((chunks ++ (hexNumber groups.1, bytes) :: rows).map Prod.fst).Nodup := by
        intro bytes
        rw [List.map_append, List.map_cons, List.nodup_append]
        rintro ⟨_, _, hapart⟩
        exact hapart _ hnew _ (List.mem_cons_self ..) rfl
      rw [if_neg (hrepeated _), addChunks, addChunk, raiseIf, if_pos (.inr hnew)]
      rfl
    · have hnext : addChunk chunks groups = .ok (chunks ++ [(hexNumber groups.1,
          (findAll octetPattern groups.2).map fun octet => UInt8.ofNat (hexNumber octet))]) := by
        rw [addChunk, raiseIf, if_neg (not_or.mpr ⟨hoctets, hnew⟩)]
        rfl
      rw [addChunks, hnext]
      refine (ih (fun row hrow => hsome row (List.mem_cons_of_mem _ hrow)) ?_).trans ?_
      · rw [List.map_append, List.map_singleton, List.nodup_append]
        refine ⟨hchunks, List.nodup_singleton _, ?_⟩
        intro a ha b hb heq
        obtain rfl := List.mem_singleton.mp hb
        rw [heq] at ha
        exact hnew ha
      · rw [List.append_assoc, List.singleton_append]

/-- Each chunk begins where the one before ended. -/
def Contiguous (start : Int) : Chunks → Prop
  | [] => True
  | (address, chunk) :: rest => (address : Int) = start ∧ Contiguous (start + chunk.length) rest

theorem joinChunks_ok {expectedOffset : Int} {data result : List UInt8} {rows : Chunks} :
    joinChunks expectedOffset data rows = .ok result ↔
      Contiguous (expectedOffset + data.length) rows ∧ result = data ++ rows.flatMap Prod.snd := by
  induction rows generalizing data with
  | nil => simp [joinChunks, Contiguous, eq_comm]
  | cons row rows ih =>
    obtain ⟨address, chunk⟩ := row
    rw [joinChunks, bind_ok]
    simp only [raiseIf_ok, not_not, ih, Contiguous, List.length_append, Int.natCast_add,
      List.flatMap_cons, List.append_assoc, exists_and_left, exists_const,
      ← Int.add_assoc, and_assoc]

def IsPpk2Error (e : Raised) : Prop := ∃ text, e = ppk2Error text

theorem raises_ppk2Error {bad : Prop} [Decidable bad] {text : String} :
    Raises IsPpk2Error (raiseIf bad (ppk2Error text)) := raises_raiseIf ⟨text, rfl⟩

/-- What is raised is a `Ppk2Error`. -/
theorem raises_parseEepromDump (output : String) (expectedOffset expectedSize : Int) :
    Raises IsPpk2Error (parseEepromDump output expectedOffset expectedSize) := by
  have hchunks : ∀ found chunks, Raises IsPpk2Error (addChunks chunks found) := by
    intro found
    induction found with
    | nil => exact fun _ => raises_ok _
    | cons groups found ih =>
      intro chunks
      exact Raises.bind (raises_ppk2Error.bind fun _ _ => raises_pure _) fun chunks _ => ih chunks
  have hjoin : ∀ rows data, Raises IsPpk2Error (joinChunks expectedOffset data rows) := by
    intro rows
    induction rows with
    | nil => exact fun _ => raises_ok _
    | cons row rows ih => exact fun data => raises_ppk2Error.bind fun _ _ => ih _
  refine (hchunks _ _).bind fun chunks _ => (hjoin _ _).bind fun data _ => ?_
  exact raises_ppk2Error.bind fun _ _ => raises_pure data

/-! ## The rows of an image -/

/-- The rows of sixteen bytes, with their addresses. -/
def imageRows (offset : Nat) (image : List UInt8) : Chunks :=
  (List.range (image.length / 16)).map fun i => (offset + 16 * i, (image.drop (16 * i)).take 16)

theorem imageRows_append {offset : Nat} {row image : List UInt8} (h : row.length = 16) :
    imageRows offset (row ++ image) = (offset, row) :: imageRows (offset + 16) image := by
  have hcount : (row ++ image).length / 16 = image.length / 16 + 1 := by
    rw [List.length_append, h]
    omega
  rw [imageRows, hcount, List.range_succ_eq_map, List.map_cons, List.map_map, imageRows]
  congr 1
  · rw [Nat.mul_zero, List.drop_zero, ← h, List.take_left]
    rfl
  · apply List.map_congr_left
    intro i _
    have hdrop : (row ++ image).drop (16 * (i + 1)) = image.drop (16 * i) := by
      rw [Nat.mul_add, Nat.mul_one, Nat.add_comm, ← h, List.drop_length_add_append]
    simp only [Function.comp, Nat.succ_eq_add_one, hdrop]
    congr 1
    omega

/-- Rows of sixteen bytes that follow one another are those of the image they make up. -/
theorem contiguous_iff {offset : Nat} {rows : Chunks} (h : ∀ row ∈ rows, row.2.length = 16) :
    Contiguous offset rows ↔ rows = imageRows offset (rows.flatMap Prod.snd) := by
  induction rows generalizing offset with
  | nil => exact iff_of_true trivial rfl
  | cons row rows ih =>
    obtain ⟨address, chunk⟩ := row
    have hchunk : chunk.length = 16 := h _ (List.mem_cons_self ..)
    have hnext := @ih (offset + 16) fun row hrow => h row (List.mem_cons_of_mem _ hrow)
    rw [List.flatMap_cons, imageRows_append hchunk, List.cons.injEq, ← hnext, Contiguous, hchunk,
      Prod.mk.injEq, Int.natCast_inj]
    simp

theorem imageRows_length (offset : Nat) (image : List UInt8) :
    (imageRows offset image).length = image.length / 16 := by
  rw [imageRows, List.length_map, List.length_range]

/-- The addresses go up. -/
theorem imageRows_increasing (offset : Nat) (image : List UInt8) :
    (imageRows offset image).Pairwise fun a b => a.1 < b.1 := by
  rw [imageRows, List.pairwise_map]
  exact List.pairwise_lt_range.imp fun h => by omega

theorem imageRows_nodup (offset : Nat) (image : List UInt8) :
    ((imageRows offset image).map Prod.fst).Nodup := by
  rw [List.nodup_iff_pairwise_ne, List.pairwise_map]
  exact (imageRows_increasing offset image).imp fun h => Nat.ne_of_lt h

theorem imageRows_row {offset : Nat} {image : List UInt8} :
    ∀ row ∈ imageRows offset image, row.2.length = 16 := by
  intro row hrow
  obtain ⟨i, hi, rfl⟩ := List.mem_map.mp hrow
  have hbound := List.mem_range.mp hi
  rw [List.length_take, List.length_drop]
  omega

/-- The rows make up the image. -/
theorem imageRows_flatten {offset : Nat} {image : List UInt8} (h : image.length % 16 = 0) :
    (imageRows offset image).flatMap Prod.snd = image := by
  obtain ⟨n, hn⟩ : ∃ n, image.length = 16 * n := ⟨image.length / 16, by omega⟩
  clear h
  induction n generalizing offset image with
  | zero =>
    obtain rfl := List.length_eq_zero_iff.mp hn
    rfl
  | succ n ih =>
    have hfirst : (image.take 16).length = 16 := by
      rw [List.length_take]
      omega
    have hrest : (image.drop 16).length = 16 * n := by
      rw [List.length_drop]
      omega
    conv_lhs => rw [← List.take_append_drop 16 image]
    rw [imageRows_append hfirst, List.flatMap_cons, ih hrest, List.take_append_drop]

/-- The rows of an image in any order are sorted into their order. -/
theorem sortedChunks_imageRows {offset : Nat} {image : List UInt8} {rows : Chunks}
    (h : rows.Perm (imageRows offset image)) :
    sortedChunks rows = imageRows offset image := by
  have hperm : (sortedChunks rows).Perm (imageRows offset image) :=
    (List.perm_insertionSort AddressLe rows).trans h
  have hsorted : (sortedChunks rows).Pairwise AddressLe :=
    List.pairwise_insertionSort AddressLe rows
  have hrows : (imageRows offset image).Pairwise AddressLe :=
    (imageRows_increasing offset image).imp Nat.le_of_lt
  refine List.Perm.eq_of_pairwise ?_ hsorted hrows hperm
  intro a b ha hb hab hba
  exact List.inj_on_of_nodup_map (imageRows_nodup offset image) (hperm.mem_iff.mp ha) hb
    (Nat.le_antisymm hab hba)

/-! ## The dump of an image -/

/-- A line of the output: a row of sixteen octets of the dump, or another line. -/
inductive IsLine (line : List Char) : Option (Nat × List UInt8) → Prop
  | row {address bytes} (h : IsDumpLine line address bytes) (hlength : bytes.length = 16) :
    IsLine line (some (address, bytes))
  | other (h : IsOtherLine line) : IsLine line none

/-- The text of these lines. -/
def dumpText (lines : List (List Char)) : String := String.ofList (joined lines)

variable {lines : List (List Char)} {rows : List (Option (Nat × List UInt8))}

theorem anchored_linePattern : Anchored linePattern := anchored_lineStart _

/-- The search goes through the rows in the order of their lines. -/
theorem findAll_rows (h : List.Forall₂ IsLine lines rows) :
    List.Forall₂ Denotes (findAll linePattern (dumpText lines).toList) (rows.filterMap id) := by
  have hreads : ∃ results, List.Forall₂ (Reads linePattern) lines results ∧
      List.Forall₂ Denotes (results.filterMap id) (rows.filterMap id) ∧ ∀ line ∈ lines,
        '\n' ∉ line := by
    induction h with
    | nil => exact ⟨[], .nil, .nil, nofun⟩
    | cons hline _ ih =>
      obtain ⟨results, hreads, hdenotes, hplain⟩ := ih
      cases hline with
      | row hdump _ =>
        obtain ⟨groups, hgroups, haddress, hbytes⟩ := hdump.reads
        exact ⟨some groups :: results, .cons hgroups hreads, .cons ⟨haddress, hbytes⟩ hdenotes,
          List.forall_mem_cons.mpr ⟨hdump.plain, hplain⟩⟩
      | other hother =>
        exact ⟨none :: results, .cons hother.reads hreads, hdenotes,
          List.forall_mem_cons.mpr ⟨hother.plain, hplain⟩⟩
  obtain ⟨results, hresults, hdenotes, hplain⟩ := hreads
  rw [dumpText, String.toList_ofList, findAll_lines anchored_linePattern hresults hplain]
  exact hdenotes

theorem rows_length (h : List.Forall₂ IsLine lines rows) :
    ∀ row ∈ rows.filterMap id, row.2.length = 16 := by
  induction h with
  | nil => exact nofun
  | cons hline _ ih =>
    cases hline with
    | row _ hlength => exact List.forall_mem_cons.mpr ⟨hlength, ih⟩
    | other _ => exact ih

/-- An image comes back just where the rows are those of that image, in any order. -/
theorem parseEepromDump_ok (h : List.Forall₂ IsLine lines rows) {offset size : Nat}
    {image : List UInt8} :
    parseEepromDump (dumpText lines) offset size = .ok image ↔
      (rows.filterMap id).Perm (imageRows offset image) ∧ image.length = size ∧
      image.length % 16 = 0 := by
  have hlength := rows_length h
  have hsome : ∀ row ∈ rows.filterMap id, row.2 ≠ [] := fun row hrow hnil => by
    have hsixteen := hlength row hrow
    rw [hnil] at hsixteen
    nomatch hsixteen
  have hchunks := @addChunks_eq _ _ [] (findAll_rows h) hsome List.nodup_nil
  rw [List.nil_append] at hchunks
  rw [parseEepromDump, hchunks]
  constructor
  · intro hparse
    obtain ⟨chunks, hadded, hparse⟩ := bind_ok.mp hparse
    obtain ⟨data, hjoined, hparse⟩ := bind_ok.mp hparse
    obtain ⟨_, hsize, hparse⟩ := bind_ok.mp hparse
    obtain rfl := pure_ok.mp hparse
    have hadded' : chunks = rows.filterMap id := by
      split at hadded
      · exact (Except.ok.inj hadded).symm
      · nomatch hadded
    subst hadded'
    -- Sorted by address the rows are still the same.
    have hperm : (sortedChunks (rows.filterMap id)).Perm (rows.filterMap id) :=
      List.perm_insertionSort AddressLe _
    have hsorted : ∀ row ∈ sortedChunks (rows.filterMap id), row.2.length = 16 := fun row hrow =>
      hlength row (hperm.mem_iff.mp hrow)
    obtain ⟨hcontiguous, rfl⟩ := joinChunks_ok.mp hjoined
    rw [List.length_nil, Int.natCast_zero, Int.add_zero, contiguous_iff hsorted] at hcontiguous
    refine ⟨hperm.symm.trans (List.Perm.of_eq hcontiguous), ?_, ?_⟩
    · exact Int.natCast_inj.mp (not_not.mp (raiseIf_ok.mp hsize))
    · rw [List.nil_append, List.length_flatMap, List.map_congr_left hsorted, List.map_const',
        List.sum_replicate_nat]
      exact Nat.mul_mod_left _ _
  · rintro ⟨hperm, hsize, hwhole⟩
    -- No two rows of an image have one address.
    have hnodup : ((rows.filterMap id).map Prod.fst).Nodup :=
      (hperm.map Prod.fst).nodup_iff.mpr (imageRows_nodup offset image)
    rw [if_pos hnodup]
    refine bind_ok.mpr ⟨_, rfl, bind_ok.mpr ⟨image, ?_, bind_ok.mpr ⟨(), ?_, rfl⟩⟩⟩
    · rw [sortedChunks_imageRows hperm, joinChunks_ok, List.length_nil, Int.natCast_zero,
        Int.add_zero, contiguous_iff imageRows_row, imageRows_flatten hwhole]
      exact ⟨rfl, rfl⟩
    · exact raiseIf_ok.mpr (not_not_intro (by rw [hsize]))

/-- Other rows than those of an image of this size raise. -/
theorem parseEepromDump_error (h : List.Forall₂ IsLine lines rows) {offset size : Nat}
    (hother : ∀ image, image.length = size → ¬ (rows.filterMap id).Perm (imageRows offset image)) :
    ∃ text, parseEepromDump (dumpText lines) offset size = .error (ppk2Error text) := by
  cases hparse : parseEepromDump (dumpText lines) offset size with
  | ok image =>
    obtain ⟨hperm, hsize, _⟩ := (parseEepromDump_ok h).mp hparse
    exact absurd hperm (hother image hsize)
  | error e =>
    obtain ⟨text, rfl⟩ := raises_parseEepromDump _ _ _ e hparse
    exact ⟨text, rfl⟩

/-- One entry changed is not the same entries in another order. -/
theorem not_perm_set {entries : List Nat} {i a b : Nat} (h : entries[i]? = some a) (hne : b ≠ a) :
    ¬ (entries.set i b).Perm entries := by
  induction entries generalizing i with
  | nil => nomatch h
  | cons x entries ih =>
    cases i with
    | zero =>
      obtain rfl : x = a := Option.some.inj h
      intro hperm
      have hcount := hperm.count_eq b
      rw [List.set_cons_zero, List.count_cons_self, List.count_cons_of_ne hne.symm] at hcount
      omega
    | succ i =>
      rw [List.set_cons_succ, List.perm_cons]
      exact ih h

/-- **The dump.** The lines of a dump, in any order and between any other lines, give the image
back; with a row missing, an address twice or an address shifted they raise. -/
theorem eeprom_dump (h : List.Forall₂ IsLine lines rows) {offset : Nat} {image : List UInt8}
    (hwhole : image.length % 16 = 0) :
    ((rows.filterMap id).Perm (imageRows offset image) →
      parseEepromDump (dumpText lines) offset image.length = .ok image) ∧
    (∀ i < image.length / 16, (rows.filterMap id).Perm ((imageRows offset image).eraseIdx i) →
      ∃ text, parseEepromDump (dumpText lines) offset image.length = .error (ppk2Error text)) ∧
    (∀ row ∈ imageRows offset image, ∀ bytes,
      (rows.filterMap id).Perm ((row.1, bytes) :: imageRows offset image) →
      ∃ text, parseEepromDump (dumpText lines) offset image.length = .error (ppk2Error text)) ∧
    ∀ i row address, (imageRows offset image)[i]? = some row → address ≠ row.1 →
      (rows.filterMap id).Perm ((imageRows offset image).set i (address, row.2)) →
      ∃ text, parseEepromDump (dumpText lines) offset image.length = .error (ppk2Error text) := by
  refine ⟨fun hperm => (parseEepromDump_ok h).mpr ⟨hperm, rfl, hwhole⟩, ?_, ?_, ?_⟩
  · intro i hi hperm
    refine parseEepromDump_error h fun other hsize hother => ?_
    have hcount := (hperm.symm.trans hother).length_eq
    rw [List.length_eraseIdx_of_lt (by rw [imageRows_length]; exact hi), imageRows_length,
      imageRows_length, hsize] at hcount
    omega
  · intro row _ bytes hperm
    refine parseEepromDump_error h fun other hsize hother => ?_
    have hcount := (hperm.symm.trans hother).length_eq
    rw [List.length_cons, imageRows_length, imageRows_length, hsize] at hcount
    omega
  · intro i row address hrow hshifted hperm
    refine parseEepromDump_error h fun other hsize hother => ?_
    have haddresses :
        (imageRows offset other).map Prod.fst = (imageRows offset image).map Prod.fst := by
      simp only [imageRows, List.map_map, hsize]
      rfl
    have haddress : ((imageRows offset image).map Prod.fst)[i]? = some row.1 := by
      rw [List.getElem?_map, hrow]
      rfl
    have hsame := (hperm.symm.trans hother).map Prod.fst
    rw [haddresses, List.map_set] at hsame
    exact not_perm_set haddress hshifted hsame

/-! ## Printing a line -/

def hexDigitOf (value : Nat) : Char := "0123456789abcdef".toList.getD value '0'

/-- The last `width` digits. -/
def hexText : Nat → Nat → List Char
  | 0, _ => []
  | width + 1, value => hexText width (value / 16) ++ [hexDigitOf (value % 16)]

def octetTexts : List UInt8 → List Char
  | [] => []
  | [byte] => hexText 2 byte.toNat
  | byte :: next :: bytes => hexText 2 byte.toNat ++ ' ' :: octetTexts (next :: bytes)

/-- A line as the shell prints it. -/
def dumpLine (address : Nat) (bytes : List UInt8) (column : List Char) : List Char :=
  hexText 8 address ++ ':' :: ' ' :: (octetTexts bytes ++ ' ' :: '|' :: (column ++ ['|']))

theorem hexDigitOf_value : ∀ value < 16, hexDigitValue (hexDigitOf value) = some value := by decide

theorem hexText_hex (width value : Nat) :
    (hexText width value).length = width ∧ ∀ c ∈ hexText width value, isHex c := by
  induction width generalizing value with
  | zero => exact ⟨rfl, nofun⟩
  | succ width ih =>
    obtain ⟨hlength, hall⟩ := ih (value / 16)
    refine ⟨by rw [hexText, List.length_append, hlength]; rfl, fun c hc => ?_⟩
    rcases List.mem_append.mp hc with hc | hc
    · exact hall c hc
    · rw [List.mem_singleton.mp hc, isHex, hexDigitOf_value _ (Nat.mod_lt _ (by decide))]
      rfl

theorem hexNumber_hexText (width value : Nat) :
    hexNumber (hexText width value) = value % 16 ^ width := by
  induction width generalizing value with
  | zero => rw [Nat.pow_zero, Nat.mod_one]; rfl
  | succ width ih =>
    have hprefix : (hexText width (value / 16)).foldl (fun value c =>
        value * 16 + (hexDigitValue c).getD 0) 0 =
        value / 16 % 16 ^ width := ih (value / 16)
    rw [hexNumber, hexText, List.foldl_append, hprefix, List.foldl_cons, List.foldl_nil,
      hexDigitOf_value _ (Nat.mod_lt _ (by decide)), Option.getD_some, Nat.pow_succ,
        Nat.mul_comm (16 ^ width), Nat.mod_mul]
    omega

theorem octet_isOctet (byte : UInt8) :
    hexText 2 byte.toNat = [hexDigitOf (byte.toNat / 16 % 16), hexDigitOf (byte.toNat % 16)] ∧
      IsOctet (hexDigitOf (byte.toNat / 16 % 16)) (hexDigitOf (byte.toNat % 16)) byte := by
  have htext : hexText 2 byte.toNat = [hexDigitOf (byte.toNat / 16 % 16),
      hexDigitOf (byte.toNat % 16)] := rfl
  obtain ⟨_, hall⟩ := hexText_hex 2 byte.toNat
  have hvalue : hexNumber (hexText 2 byte.toNat) = byte.toNat :=
    (hexNumber_hexText 2 byte.toNat).trans (Nat.mod_eq_of_lt byte.toNat_lt)
  rw [htext] at hall hvalue
  refine ⟨htext, hall _ (by simp), hall _ (by simp), ?_⟩
  rw [hvalue, UInt8.ofNat_toNat]

theorem gap_blank : Gap [' '] := ⟨List.cons_ne_nil _ _, by simp⟩

theorem octetTexts_octets {bytes : List UInt8}
    (h : bytes ≠ []) : Octets (octetTexts bytes) bytes := by
  induction bytes with
  | nil => exact absurd rfl h
  | cons byte bytes ih =>
    obtain ⟨htext, hoctet⟩ := octet_isOctet byte
    cases bytes with
    | nil =>
      rw [octetTexts, htext]
      exact .last hoctet
    | cons next bytes =>
      rw [octetTexts, htext]
      exact @Octets.more _ _ byte [' '] _ _ hoctet gap_blank (ih (List.cons_ne_nil _ _))

theorem dumpLine_isDumpLine {address : Nat} {bytes : List UInt8} {column : List Char}
    (haddress : address < 2 ^ 32) (hbytes : bytes ≠ []) (hcolumn : '\n' ∉ column) :
    IsDumpLine (dumpLine address bytes column) address bytes := by
  refine ⟨hexText 8 address, [' '], octetTexts bytes, [' '], column ++ ['|'], rfl,
    hexText_hex 8 address, ?_, gap_blank, octetTexts_octets hbytes, gap_blank, ?_⟩
  · rw [hexNumber_hexText, Nat.mod_eq_of_lt (by omega)]
  · rw [List.mem_append, not_or]
    exact ⟨hcolumn, by decide⟩

/-- Two rows of 32 bytes at 0x20: a bar and digits in their text. -/
def lowRow : List Char := dumpLine 0x20 (List.replicate 16 0x7c) "||||".toList

def highRow : List Char := dumpLine 0x30 (List.replicate 16 0xff) "ab |cd".toList

/-- The second row, 16 bytes further on. -/
def shiftedRow : List Char := dumpLine 0x40 (List.replicate 16 0xff) "ab |cd".toList

def echoLine : List Char := "$ eeprom read".toList

/-- In the wrong order behind the echo of the command they give the image; without one of
them, with one of them twice or at another address they raise. -/
theorem eeprom_dump_two :
    parseEepromDump (dumpText [echoLine, highRow, lowRow, []]) 0x20 32 =
      .ok (List.replicate 16 0x7c ++ List.replicate 16 0xff) ∧
    (∃ text, parseEepromDump (dumpText [echoLine, lowRow, []]) 0x20 32 = .error (ppk2Error text)) ∧
    (∃ text, parseEepromDump (dumpText [lowRow, echoLine, lowRow, highRow]) 0x20 32 =
      .error (ppk2Error text)) ∧
    ∃ text, parseEepromDump (dumpText [echoLine, lowRow, shiftedRow]) 0x20 32 =
      .error (ppk2Error text) := by
  have hecho : IsLine echoLine none := by
    refine .other ⟨by decide, ?_⟩
    rintro digits rest hline ⟨hlength, hdigits⟩
    obtain ⟨c, digits, rfl⟩ := List.exists_cons_of_length_eq_add_one hlength
    obtain ⟨rfl, _⟩ := List.cons.inj hline
    exact absurd (hdigits '$' (List.mem_cons_self ..)) (by decide)
  have hempty : IsLine [] none :=
    .other ⟨by decide, fun digits rest hline => absurd hline (by simp)⟩
  have hlow : IsLine lowRow (some (0x20, List.replicate 16 0x7c)) :=
    .row (dumpLine_isDumpLine (by decide) (by decide) (by decide)) rfl
  have hhigh : IsLine highRow (some (0x30, List.replicate 16 0xff)) :=
    .row (dumpLine_isDumpLine (by decide) (by decide) (by decide)) rfl
  have hshifted : IsLine shiftedRow (some (0x40, List.replicate 16 0xff)) :=
    .row (dumpLine_isDumpLine (by decide) (by decide) (by decide)) rfl
  have hrows : imageRows 0x20 (List.replicate 16 0x7c ++ List.replicate 16 0xff) =
      [(0x20, List.replicate 16 0x7c), (0x30, List.replicate 16 0xff)] := by decide
  have hlength :
      (List.replicate 16 (0x7c : UInt8) ++ List.replicate 16 0xff).length = 32 := by decide
  have hdump := fun {lines rows} (h : List.Forall₂ IsLine lines rows) =>
    @eeprom_dump _ _ h 0x20 (List.replicate 16 0x7c ++ List.replicate 16 0xff) (by decide)
  rw [hrows, hlength] at hdump
  refine ⟨?_, ?_, ?_, ?_⟩
  · exact (hdump (.cons hecho (.cons hhigh (.cons hlow (.cons hempty .nil))))).1
      (List.Perm.swap _ _ _)
  · exact (hdump (.cons hecho (.cons hlow (.cons hempty .nil)))).2.1 1 (by decide) (.refl _)
  · exact (hdump (.cons hlow (.cons hecho (.cons hlow (.cons hhigh .nil))))).2.2.1
      _ (List.mem_cons_self ..) _ (.refl _)
  · exact (hdump (.cons hecho (.cons hlow (.cons hshifted .nil)))).2.2.2 1 _ 0x40 rfl
      (by decide) (.refl _)

end NrfKit.Tools.Eeprom
