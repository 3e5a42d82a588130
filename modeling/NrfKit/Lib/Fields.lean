import NrfKit.Lib.Numerals
import NrfKit.Lib.Pattern

/- Lines of named numbers, ` name=number` behind one another, and the search for one of them,
   `\bname=(\d+)\b`. In a line the search finds the number of the first field of that name
   (`search_items`); of a line that was cut it finds what is left of that number
   (`cut_items`). -/
namespace Fields
open Patterns Numerals

/-! ## Characters -/

/-- What Unicode says of the characters beyond ASCII. -/
structure Unicode where
  word : Char → Bool
  digit : Char → Bool
  value : Char → Nat

variable (u : Unicode)

/-- `\w`. -/
def Unicode.isWord (c : Char) : Bool := if c.toNat < 128 then c.isAlphanum || c == '_' else u.word c

/-- `\d`. -/
def Unicode.isDigit (c : Char) : Bool := if c.toNat < 128 then c.isDigit else u.digit c

/-- `int` of digits. -/
def Unicode.int (digits : List Char) : Nat :=
  digits.foldl (fun n c => 10 * n + if c.toNat < 128 then c.toNat - '0'.toNat else u.value c) 0

/-! ## Searching -/

/-- `\b`. -/
def wordBoundary (word : Char → Bool) : Pattern Unit := fun here =>
  if here.before.any word = here.rest.head?.any word then [] else [((), here)]

def literal : List Char → Pattern Unit
  | [] => succeed ()
  | c :: cs => followed (one (· == c)) fun _ => literal cs

/-- `\bname=(\d+)\b`; what is found is the group. -/
def field (name : List Char) : Pattern (List Char) :=
  followed (wordBoundary u.isWord) fun _ => followed (literal (name ++ ['='])) fun _ =>
    followed (oneOrMore u.isDigit) fun digits => followed (wordBoundary u.isWord) fun _ =>
      succeed digits

/-- Where the search stands behind nothing or behind a character. -/
def searchFrom {α : Type} (p : Pattern α) (before : Option Char) : List Char → Option α
  | [] => (p ⟨before, []⟩).head?.map Prod.fst
  | c :: rest =>
    match (p ⟨before, c :: rest⟩).head? with
    | some found => some found.1
    | none => searchFrom p (some c) rest

/-- `re.search`. -/
def search {α : Type} (p : Pattern α) (text : List Char) : Option α := searchFrom p none text

/-! ## Lines -/

/-- A name and the digits behind it. -/
abbrev Item := List Char × List Char

def Item.text (item : Item) : List Char := ' ' :: (item.1 ++ '=' :: item.2)

def itemsText (items : List Item) : List Char := items.flatMap Item.text

/-- A name and its number, as they are printed. -/
def printed (name : String) (value : Nat) : Item := (name.toList, Nat.toDigits 10 value)

def IsName (name : List Char) : Prop := name ≠ [] ∧ ∀ c ∈ name, c.isLower = true

instance (name : List Char) : Decidable (IsName name) := inferInstanceAs (Decidable (_ ∧ _))

/-- A name, and digits behind it. -/
structure Item.Proper (item : Item) : Prop where
  name : IsName item.1
  some : item.2 ≠ []
  digits : ∀ c ∈ item.2, c.isDigit = true

/-! ## The classes -/

section
variable {u}

theorem lower_bounds {c : Char} (h : c.isLower = true) : 97 ≤ c.toNat ∧ c.toNat ≤ 122 := by
  have hrange : (decide (c.val ≥ 'a'.val) && decide (c.val ≤ 'z'.val)) = true := h
  simp only [Bool.and_eq_true, decide_eq_true_eq] at hrange
  exact hrange

theorem digit_bounds {c : Char} (h : c.isDigit = true) : 48 ≤ c.toNat ∧ c.toNat ≤ 57 := by
  simp only [Char.isDigit, Bool.and_eq_true, decide_eq_true_eq] at h
  exact h

theorem isWord_lower {c : Char} (h : c.isLower = true) : u.isWord c = true := by
  have hbounds := lower_bounds h
  rw [Unicode.isWord, if_pos (by omega)]
  show (c.isUpper || c.isLower || c.isDigit || c == '_') = true
  simp [h]

theorem isWord_digit {c : Char} (h : c.isDigit = true) : u.isWord c = true := by
  have hbounds := digit_bounds h
  rw [Unicode.isWord, if_pos (by omega)]
  simp [Char.isAlphanum, h]

theorem isDigit_digit {c : Char} (h : c.isDigit = true) : u.isDigit c = true := by
  have hbounds := digit_bounds h
  rw [Unicode.isDigit, if_pos (by omega)]
  exact h

theorem isWord_space : u.isWord ' ' = false := by
  rw [Unicode.isWord, if_pos (by decide)]
  decide

theorem int_number {digits : List Char}
    (h : ∀ c ∈ digits, c.isDigit = true) : u.int digits = number digits := by
  have hfold : ∀ n, digits.foldl (fun n c => 10 * n + if c.toNat < 128 then c.toNat - '0'.toNat
      else u.value c) n =
      Nat.ofDigitChars 10 digits n := by
    induction digits with
    | nil => exact fun n => rfl
    | cons c digits ih =>
      obtain ⟨hc, hdigits⟩ := List.forall_mem_cons.mp h
      have hbounds := digit_bounds hc
      intro n
      rw [List.foldl_cons, Nat.ofDigitChars_cons, if_pos (by omega), ih hdigits]
  exact hfold 0

theorem int_printed (value : Nat) : u.int (Nat.toDigits 10 value) = value := by
  rw [int_number fun c hc => Nat.isDigit_of_mem_toDigits (by decide) (by decide) hc]
  exact Nat.ofDigitChars_ten_toDigits

/-! ## Where a field matches -/

theorem wordBoundary_front {word : Char → Bool} {here : Cursor} {found : Unit × Cursor}
    (h : found ∈ wordBoundary word here) :
    found.2 = here ∧ here.before.any word ≠ here.rest.head?.any word := by
  unfold wordBoundary at h
  split at h
  · cases h
  · rename_i hdiffer
    obtain rfl := List.mem_singleton.mp h
    exact ⟨rfl, hdiffer⟩

theorem literal_front {cs : List Char} {here : Cursor} {found : Unit × Cursor}
    (h : found ∈ literal cs here) :
    here.rest = cs ++ found.2.rest := by
  induction cs generalizing here with
  | nil =>
    obtain rfl := List.mem_singleton.mp h
    rfl
  | cons c cs ih =>
    obtain ⟨before, rest⟩ := here
    cases rest with
    | nil => cases h
    | cons d rest =>
      by_cases hd : d = c
      · subst hd
        rw [literal, followed_only (one_of (by simp))] at h
        exact congrArg (d :: ·) (ih h)
      · rw [literal, followed_nil (one_other (by simpa using hd))] at h
        cases h

theorem literal_of {cs rest : List Char} {before : Option Char} :
    literal cs ⟨before, cs ++ rest⟩ = [((), ⟨behind before cs, rest⟩)] := by
  induction cs generalizing before with
  | nil => rfl
  | cons c cs ih =>
    rw [literal, List.cons_append, followed_only (one_of (by simp)), ih, behind_cons]

/-- What a match of a field stands in front of. -/
theorem field_front {name : List Char} {here : Cursor} {found : List Char × Cursor}
    (h : found ∈ field u name here) :
    here.before.any u.isWord ≠ here.rest.head?.any u.isWord ∧ ∃ later, later ≠ [] ∧
      here.rest = name ++ '=' :: later := by
  obtain ⟨_, hboundary, h⟩ := List.mem_flatMap.mp h
  obtain ⟨hsame, hdiffer⟩ := wordBoundary_front hboundary
  obtain ⟨⟨_, next⟩, hliteral, h⟩ := List.mem_flatMap.mp h
  obtain ⟨digits, hdigits, _⟩ := List.mem_flatMap.mp h
  obtain ⟨hsome, -, hrest⟩ := oneOrMore_front hdigits
  rw [hsame] at hliteral
  refine ⟨hdiffer, next.rest, fun hnil => ?_, ?_⟩
  · have hboth : digits.1 ++ digits.2.rest = [] := hrest.symm.trans hnil
    exact hsome (List.append_eq_nil_iff.mp hboth).1
  · rw [literal_front hliteral, List.append_assoc]
    rfl

/-- No match begins behind a word character, nor where no letter follows. -/
theorem field_nil {name : List Char} (hname : IsName name) {before : Option Char} {rest : List Char}
    (h : before.any u.isWord = true ∨ ∀ c ∈ rest.head?, c.isLower = false) :
    field u name ⟨before, rest⟩ = [] := by
  refine List.eq_nil_iff_forall_not_mem.mpr fun found hfound => ?_
  obtain ⟨hdiffer, later, -, hrest⟩ := field_front hfound
  obtain ⟨c, cs, rfl⟩ := List.exists_cons_of_ne_nil hname.1
  have hc := hname.2 c (List.mem_cons_self ..)
  rcases h with hbefore | hhead
  · refine hdiffer ?_
    have hrest' : rest = c :: (cs ++ '=' :: later) := hrest
    rw [hrest', hbefore, List.head?_cons, Option.any_some, isWord_lower hc]
  · have hrest' : rest = c :: (cs ++ '=' :: later) := hrest
    rw [hrest'] at hhead
    have := hhead c rfl
    rw [hc] at this
    cases this

/-- A match: behind no word character, and in front of none. -/
theorem field_of {name digits rest : List Char} {before : Option Char}
    (hname : IsName name) (hsome : digits ≠ []) (hdigits : ∀ c ∈ digits, c.isDigit = true)
    (hbefore : before.any u.isWord = false) (hrest : rest.head?.any u.isWord = false)
    (hdigit : ∀ c ∈ rest.head?, u.isDigit c = false) :
    ∃ next, (field u name ⟨before, name ++ '=' :: (digits ++ rest)⟩).head? =
      some (digits, next) := by
  obtain ⟨c, cs, rfl⟩ := List.exists_cons_of_ne_nil hname.1
  have hc := hname.2 c (List.mem_cons_self ..)
  have hstart : wordBoundary u.isWord ⟨before, (c :: cs) ++ '=' :: (digits ++ rest)⟩ =
      [((), ⟨before, (c :: cs) ++ '=' :: (digits ++ rest)⟩)] := by
    rw [wordBoundary, if_neg]
    simp [hbefore, isWord_lower hc]
  have hliteral := @literal_of ((c :: cs) ++ ['=']) (digits ++ rest) before
  rw [List.append_assoc] at hliteral
  obtain ⟨others, hmost⟩ :=
    @oneOrMore_all u.isDigit (behind before ((c :: cs) ++ ['='])) digits rest hsome
    (fun d hd => isDigit_digit (hdigits d hd)) hdigit
  have hlast : (behind (behind before ((c :: cs) ++ ['='])) digits).any u.isWord = true := by
    obtain ⟨front, d, rfl⟩ := (List.eq_nil_or_concat digits).resolve_left hsome
    rw [List.concat_eq_append, behind_concat]
    exact isWord_digit (hdigits d (by simp))
  have hend : wordBoundary u.isWord ⟨behind (behind before ((c :: cs) ++ ['='])) digits, rest⟩ =
      [((), ⟨behind (behind before ((c :: cs) ++ ['='])) digits, rest⟩)] := by
    rw [wordBoundary, if_neg]
    rw [hlast, hrest]
    decide
  refine ⟨⟨behind (behind before ((c :: cs) ++ ['='])) digits, rest⟩, ?_⟩
  rw [field, followed_only hstart]
  refine (congrArg List.head? (followed_only hliteral)).trans ?_
  exact followed_head hmost (by rw [followed_only hend]; rfl)

/-! ## Through a line -/

/-- Where nothing matches the search goes on. -/
theorem searchFrom_none {α : Type} {p : Pattern α} {before : Option Char} {c : Char}
    {rest : List Char} (h : p ⟨before, c :: rest⟩ = []) :
    searchFrom p before (c :: rest) = searchFrom p (some c) rest := by
  rw [searchFrom, h]
  rfl

theorem searchFrom_match {α : Type} {p : Pattern α} {before : Option Char}
    {rest : List Char} {found : α × Cursor} (h : (p ⟨before, rest⟩).head? = some found) :
    searchFrom p before rest = some found.1 := by
  cases rest <;> simp [searchFrom, h]

theorem searchFrom_skip {α : Type} {p : Pattern α} {front : List Char}
    {before : Option Char} {rest : List Char} (h : ∀ done c left, front = done ++ c :: left →
      p ⟨behind before done, c :: (left ++ rest)⟩ = []) :
    searchFrom p before (front ++ rest) = searchFrom p (behind before front) rest := by
  induction front generalizing before with
  | nil => rfl
  | cons c front ih =>
    have hfirst : p ⟨before, c :: (front ++ rest)⟩ = [] := h [] c front rfl
    rw [List.cons_append, searchFrom_none hfirst, behind_cons]
    refine ih fun done d left hfront => ?_
    rw [← behind_cons]
    exact h (c :: done) d left (by rw [hfront, List.cons_append])

variable {name : List Char}

/-- Names have neither blanks nor signs. -/
theorem IsName.plain (h : IsName name) {c : Char} (hc : c = ' ' ∨ c = '=') : c ∉ name := by
  intro hmem
  have := h.2 c hmem
  rcases hc with rfl | rfl <;> exact absurd this (by decide)

/-- Nothing is found where nothing follows a sign. -/
theorem search_bare {text : List Char}
    (hbare : ∀ front later, text = front ++ '=' :: later → later = []) {before : Option Char} :
    searchFrom (field u name) before text = none := by
  have hnone : ∀ {before : Option Char} {front rest : List Char}, text = front ++ rest →
      field u name ⟨before, rest⟩ = [] := by
    intro before front rest htext
    refine List.eq_nil_iff_forall_not_mem.mpr fun found hfound => ?_
    obtain ⟨-, later, hsome, hlater⟩ := field_front hfound
    have hlater : rest = name ++ '=' :: later := hlater
    exact hsome (hbare (front ++ name) later (by rw [htext, hlater, List.append_assoc]))
  have hrun : ∀ (front rest : List Char) {before : Option Char}, text = front ++ rest →
      searchFrom (field u name) before rest = none := by
    intro front rest
    induction rest generalizing front with
    | nil =>
      intro before htext
      rw [searchFrom, hnone htext]
      rfl
    | cons c rest ih =>
      intro before htext
      rw [searchFrom_none (hnone htext)]
      exact ih (front ++ [c]) (by rw [htext]; simp)
  exact hrun [] text rfl

theorem search_plain {front : List Char} (hplain : '=' ∉ front) {before : Option Char} :
    searchFrom (field u name) before front = none :=
  search_bare fun done later hfront => absurd (by rw [hfront]; simp) hplain

/-- Text without a sign is passed, up to a blank. -/
theorem search_noise (h : IsName name) {front : List Char} (hplain : '=' ∉ front)
    {before : Option Char} {rest : List Char} :
    searchFrom (field u name) before (front ++ ' ' :: rest) = searchFrom (field u name)
      (behind before front) (' ' :: rest) := by
  refine searchFrom_skip fun done c left hfront =>
    List.eq_nil_iff_forall_not_mem.mpr fun found hfound => ?_
  obtain ⟨-, later, -, hlater⟩ := field_front hfound
  have hlater : (c :: left) ++ ' ' :: rest = name ++ '=' :: later := hlater
  have hleft : '=' ∉ c :: left :=
    fun hmem => hplain (by rw [hfront]; exact List.mem_append_right _ hmem)
  rcases List.append_eq_append_iff.mp hlater with ⟨mid, hname, hrest⟩ | ⟨mid, hfront, hrest⟩
  · cases mid with
    | nil => cases hrest
    | cons d mid =>
      obtain rfl := (List.cons.inj hrest).1
      exact h.plain (.inl rfl) (by rw [hname]; simp)
  · cases mid with
    | nil => cases hrest
    | cons d mid =>
      obtain rfl := (List.cons.inj hrest).1
      exact hleft (by rw [hfront]; simp)

/-- What may follow a number. -/
def Stops (u : Unicode) (rest : List Char) : Prop :=
  ∀ c ∈ rest.head?, u.isWord c = false ∧ u.isDigit c = false

theorem stops_items {items : List Item} {rest : List Char} (hsome : items ≠ []) :
    Stops u (itemsText items ++ rest) := by
  obtain ⟨item, items, rfl⟩ := List.exists_cons_of_ne_nil hsome
  intro c hc
  obtain rfl : ' ' = c := Option.some.inj hc
  refine ⟨isWord_space, ?_⟩
  rw [Unicode.isDigit, if_pos (by decide)]
  decide

theorem same_name {other later later' : List Char} (h : '=' ∉ name) (hother : '=' ∉ other)
    (heq : name ++ '=' :: later = other ++ '=' :: later') : name = other := by
  rcases List.append_eq_append_iff.mp heq with ⟨mid, hname, hrest⟩ | ⟨mid, hname, hrest⟩
  · cases mid with
    | nil => rw [hname, List.append_nil]
    | cons d mid =>
      obtain rfl := (List.cons.inj hrest).1
      exact absurd (by rw [hname]; simp) hother
  · cases mid with
    | nil => rw [hname, List.append_nil]
    | cons d mid =>
      obtain rfl := (List.cons.inj hrest).1
      exact absurd (by rw [hname]; simp) h

/-- In a field of another name nothing matches. -/
theorem other_nil (h : IsName name) {item : Item} (hitem : item.Proper) (hother : item.1 ≠ name)
    {rest done left : List Char} {c : Char} (hsplit : item.1 ++ '=' :: item.2 = done ++ c :: left) :
    field u name ⟨behind (some ' ') done, c :: (left ++ rest)⟩ = [] := by
  have hsign : '='.isLower = false := by decide
  rcases List.append_eq_append_iff.mp hsplit with ⟨mid, hdone, hlater⟩ | ⟨mid, hname, hlater⟩
  · -- Behind the name there is no letter.
    refine field_nil h (.inr fun d hd => ?_)
    obtain rfl : c = d := Option.some.inj hd
    have hmem : c ∈ '=' :: item.2 := by
      rw [hlater]
      simp
    rcases List.mem_cons.mp hmem with rfl | hdigit
    · exact hsign
    · have hbounds := digit_bounds (hitem.digits c hdigit)
      refine Bool.eq_false_iff.mpr fun hlower => ?_
      have := lower_bounds hlower
      omega
  · cases hd : done.getLast? with
    | none =>
      -- At the start of the name: it would be this one.
      obtain rfl := List.getLast?_eq_none_iff.mp hd
      refine List.eq_nil_iff_forall_not_mem.mpr fun found hfound => ?_
      obtain ⟨-, later, -, hfront⟩ := field_front hfound
      have hfront : c :: (left ++ rest) = name ++ '=' :: later := hfront
      have hwhole : name ++ '=' :: later = item.1 ++ '=' :: (item.2 ++ rest) := by
        rw [← hfront, ← List.cons_append, ← List.nil_append (c :: left), ← hsplit]
        simp
      exact hother (same_name (h.plain (.inr rfl)) (hitem.name.plain (.inr rfl)) hwhole).symm
    | some last =>
      -- Within the name the search stands behind a letter.
      have hlast : last ∈ item.1 := by
        rw [hname]
        exact List.mem_append_left _ (List.mem_of_getLast? hd)
      refine field_nil h (.inl ?_)
      rw [behind, hd]
      exact isWord_lower (hitem.name.2 last hlast)

/-- One field: the search finds its number, or passes it. -/
theorem search_item (h : IsName name) {item : Item} (hitem : item.Proper) {before : Option Char}
    {rest : List Char} (hstops : Stops u rest) :
    searchFrom (field u name) before (item.text ++ rest) =
      if item.1 = name then some item.2
        else searchFrom (field u name) (behind before item.text) rest := by
  have hblank : field u name ⟨before, ' ' :: (item.1 ++ '=' :: item.2 ++ rest)⟩ = [] := by
    refine field_nil h (.inr fun c hc => ?_)
    obtain rfl : ' ' = c := Option.some.inj hc
    decide
  rw [Item.text, List.cons_append, searchFrom_none hblank]
  split
  · rename_i hname
    have hword : rest.head?.any u.isWord = false := by
      cases hrest : rest.head? with
      | none => rfl
      | some c => exact (hstops c hrest).1
    obtain ⟨next, hmatch⟩ := @field_of u item.1 item.2 rest
      (some ' ') hitem.name hitem.some hitem.digits isWord_space hword
      fun c hc => (hstops c hc).2
    rw [hname] at hmatch ⊢
    rw [List.append_assoc, List.cons_append]
    exact searchFrom_match hmatch
  · rename_i hother
    rw [searchFrom_skip fun done c left hsplit => other_nil h hitem hother hsplit, behind_cons]

theorem itemsText_nil : itemsText [] = [] := rfl

theorem itemsText_cons (item : Item) (items : List Item) :
    itemsText (item :: items) = item.text ++ itemsText items := rfl

theorem printed_length (name : String) (value : Nat) :
    (printed name value).text.length = name.length + (Nat.toDigits 10 value).length + 2 := by
  simp only [printed, Item.text, List.length_cons, List.length_append, String.length_toList]
  omega

theorem printed_proper {name : String} (h : IsName name.toList)
    (value : Nat) : (printed name value).Proper :=
  ⟨h, Nat.toDigits_ne_nil, fun _ hc => Nat.isDigit_of_mem_toDigits (by decide) (by decide) hc⟩

/-! ## A line that was cut -/

/-- What is left of the fields of a line that was cut. -/
inductive CutOf : List Item → List Item → Prop
  | stop (fields : List Item) : CutOf [] fields
  | within (name : List Char) {digits left : List Char} (hsome : left ≠ [])
    (hleft : left <+: digits) (fields : List Item) :
    CutOf [(name, left)] ((name, digits) :: fields)
  | next (item : Item) {items fields : List Item} (h : CutOf items fields) :
    CutOf (item :: items) (item :: fields)

theorem prefix_append_cases {α : Type} {text front back : List α} (h : text <+: front ++ back) :
    text <+: front ∨ ∃ later, text = front ++ later ∧ later <+: back := by
  obtain ⟨rest, hrest⟩ := h
  rcases List.append_eq_append_iff.mp hrest with ⟨mid, hfront, -⟩ | ⟨mid, htext, hback⟩
  · exact .inl ⟨mid, hfront.symm⟩
  · exact .inr ⟨mid, htext, rest, hback.symm⟩

theorem Stops.leading {text rest : List Char} (h : Stops u rest)
    (htext : text <+: rest) : Stops u text := by
  intro c hc
  obtain ⟨later, rfl⟩ := htext
  refine h c ?_
  cases text with
  | nil => cases hc
  | cons d text => exact hc

/-- What is left of a field: nothing, or some of its digits. -/
theorem prefix_item {item : Item} {text : List Char} (h : text <+: item.text) :
    text <+: ' ' :: (item.1 ++ ['=']) ∨ ∃ left, left ≠ [] ∧ left <+: item.2 ∧
      text = Item.text (item.1, left) := by
  have hwhole : item.text = (' ' :: (item.1 ++ ['='])) ++ item.2 := by simp [Item.text]
  rw [hwhole] at h
  rcases prefix_append_cases h with hshort | ⟨left, htext, hleft⟩
  · exact .inl hshort
  · cases left with
    | nil =>
      rw [List.append_nil] at htext
      exact .inl ⟨[], by rw [htext, List.append_nil]⟩
    | cons c left =>
      exact .inr ⟨c :: left, List.cons_ne_nil _ _, hleft, by rw [htext]; simp [Item.text]⟩

theorem bare_name {item : Item} (hitem : item.Proper) {text : List Char}
    (h : text <+: ' ' :: (item.1 ++ ['='])) :
    ∀ front later, text = front ++ '=' :: later → later = [] := by
  intro front later htext
  obtain ⟨rest, hrest⟩ := h
  have hplain : '=' ∉ ' ' :: item.1 := by
    rintro (_ | ⟨_, hmem⟩)
    exact hitem.name.plain (.inr rfl) hmem
  have hall : (front ++ ['=']) ++ (later ++ rest) = (' ' :: item.1) ++ ['='] := by
    rw [htext] at hrest
    simpa using hrest
  rcases List.eq_nil_or_concat (later ++ rest) with hnil | ⟨mid, last, hmid⟩
  · exact (List.append_eq_nil_iff.mp hnil).1
  · rw [hmid, List.concat_eq_append, ← List.append_assoc] at hall
    obtain ⟨hfront, -⟩ := List.append_inj' hall rfl
    exact absurd (by rw [← hfront]; simp) hplain

/-- A field in front of what is searched. -/
theorem search_cons (hname : IsName name) {item : Item}
    (hitem : item.Proper) {items fields : List Item} {later : List Char} (hstops : Stops u later)
    (hmem : name ∈ (item :: fields).map Prod.fst) (hlater : name ∈ fields.map Prod.fst →
      ∀ before, searchFrom (field u name) before later = items.lookup name) (before : Option Char) :
    searchFrom (field u name) before (item.text ++ later) = (item :: items).lookup name := by
  rw [search_item hname hitem hstops, List.lookup_cons]
  by_cases hsame : item.1 = name
  · simp [hsame]
  · have hbeq : (name == item.1) = false := beq_false_of_ne fun heq => hsame heq.symm
    rw [if_neg hsame, hbeq]
    exact hlater ((List.mem_cons.mp hmem).resolve_left fun heq => hsame heq.symm) _

theorem stops_fields {fields : List Item} {tail : List Char} (hstops : Stops u tail) :
    Stops u (itemsText fields ++ tail) := by
  cases fields with
  | nil => exact hstops
  | cons => exact stops_items (List.cons_ne_nil _ _)

theorem search_fields {fields : List Item} (hfields : ∀ item ∈ fields, item.Proper)
    {tail : List Char} (hstops : Stops u tail) (hname : IsName name)
    (hmem : name ∈ fields.map Prod.fst) (before : Option Char) :
    searchFrom (field u name) before (itemsText fields ++ tail) = fields.lookup name := by
  induction fields generalizing before with
  | nil => cases hmem
  | cons item fields ih =>
    obtain ⟨hitem, hfields⟩ := List.forall_mem_cons.mp hfields
    rw [itemsText_cons, List.append_assoc]
    exact search_cons hname hitem (stops_fields hstops) hmem
      (fun hlater => ih hfields hlater) before

/-- Behind the noise of a line that was cut. -/
theorem cut_fields {fields : List Item} (hfields : ∀ item ∈ fields, item.Proper) {tail : List Char}
    (hstops : Stops u tail) {text : List Char} (htext : text <+: itemsText fields ++ tail) :
    ∃ items, CutOf items fields ∧ ∀ name, IsName name → name ∈ fields.map Prod.fst →
      ∀ before, searchFrom (field u name) before text = items.lookup name := by
  induction fields generalizing text with
  | nil => exact ⟨[], .stop [], fun name _ hmem => by cases hmem⟩
  | cons item fields ih =>
    obtain ⟨hitem, hfields⟩ := List.forall_mem_cons.mp hfields
    rw [itemsText_cons, List.append_assoc] at htext
    rcases prefix_append_cases htext with hshort | ⟨later, rfl, hlater⟩
    · rcases prefix_item hshort with hbare | ⟨left, hsome, hleft, rfl⟩
      · exact ⟨[], .stop _, fun name _ _ before => search_bare (bare_name hitem hbare)⟩
      · have hproper : Item.Proper (item.1, left) :=
          ⟨hitem.name, hsome, fun c hc => hitem.digits c (hleft.subset hc)⟩
        refine ⟨[(item.1, left)], .within item.1 hsome hleft fields, fun name hname _ before => ?_⟩
        by_cases hsame : name = item.1
        · have hlater : name ∈ ([] : List Item).map Prod.fst →
              ∀ before, searchFrom (field u name) before [] = ([] : List Item).lookup name :=
            fun hmem => by cases hmem
          have hsearch :=
            @search_cons u name hname _ hproper [] [] [] nofun (by simp [hsame]) hlater before
          rwa [List.append_nil] at hsearch
        · have hsearch := @search_item u name hname _ hproper before [] nofun
          rw [List.append_nil, if_neg fun heq => hsame heq.symm] at hsearch
          rw [hsearch, List.lookup_cons, beq_false_of_ne hsame]
          exact search_plain List.not_mem_nil
    · obtain ⟨items, hcut, hitems⟩ := ih hfields hlater
      refine ⟨item :: items, .next item hcut, fun name hname hmem before => ?_⟩
      exact search_cons hname hitem (Stops.leading (stops_fields hstops) hlater) hmem (fun hmem =>
        hitems name hname hmem) before

/-- **Searching a line that was cut.** Every field is found that is left, by its first digits
where the cut is in its number. -/
theorem cut_items {fields : List Item} (hfields : ∀ item ∈ fields, item.Proper)
    {noise tail : List Char} (hnoise : '=' ∉ noise) (hstops : Stops u tail) {text : List Char}
    (htext : text <+: noise ++ (itemsText fields ++ tail)) :
    ∃ items, CutOf items fields ∧ ∀ name, IsName name → name ∈ fields.map Prod.fst →
      search (field u name) text = items.lookup name := by
  rcases prefix_append_cases htext with hshort | ⟨later, rfl, hlater⟩
  · refine ⟨[], .stop fields, fun name _ _ => search_plain fun hmem => hnoise (hshort.subset hmem)⟩
  · obtain ⟨items, hcut, hitems⟩ := cut_fields hfields hstops hlater
    refine ⟨items, hcut, fun name hname hmem => ?_⟩
    rw [← hitems name hname hmem (behind none noise)]
    cases later with
    | nil =>
      rw [List.append_nil]
      exact (search_plain hnoise).trans (search_plain List.not_mem_nil).symm
    | cons c later =>
      cases fields with
      | nil => cases hmem
      | cons item fields =>
        obtain ⟨rest, hrest⟩ := hlater
        obtain rfl : c = ' ' := (List.cons.inj hrest).1
        exact search_noise hname hnoise

/-- A line that is whole. -/
theorem whole_items {fields : List Item} (hfields : ∀ item ∈ fields, item.Proper)
    {noise tail : List Char} (hnoise : '=' ∉ noise) (hstops : Stops u tail) (hname : IsName name)
    (hmem : name ∈ fields.map Prod.fst) :
    search (field u name) (noise ++ (itemsText fields ++ tail)) = fields.lookup name := by
  rw [← search_fields hfields hstops hname hmem (behind none noise)]
  cases fields with
  | nil => cases hmem
  | cons item fields =>
    have hline : itemsText (item :: fields) ++
        tail = ' ' :: (item.1 ++ '=' :: item.2 ++ (itemsText fields ++ tail)) := by
      simp [itemsText, Item.text]
    rw [hline]
    exact search_noise hname hnoise

/-- What is found in a line that was cut leads what was printed. -/
theorem CutOf.leading {items fields : List Item} {found : List Char} (h : CutOf items fields)
    (hfound : items.lookup name = some found) :
    ∃ digits, fields.lookup name = some digits ∧ found <+: digits := by
  induction h with
  | stop => cases hfound
  | within other hsome hleft =>
    rw [List.lookup_cons] at hfound ⊢
    split at hfound
    · obtain rfl := Option.some.inj hfound
      exact ⟨_, rfl, hleft⟩
    · cases hfound
  | next item h ih =>
    rw [List.lookup_cons] at hfound ⊢
    split at hfound
    · exact ⟨found, hfound, List.prefix_refl _⟩
    · exact ih hfound

/-- Where something of the last field is left all others are whole. -/
theorem CutOf.last {items front : List Item} {digits found : List Char}
    (hnew : ∀ item ∈ front, item.1 ≠ name) (h : CutOf items (front ++ [(name, digits)]))
    (hfound : items.lookup name = some found) :
    found <+: digits ∧ items = front ++ [(name, found)] := by
  induction front generalizing items with
  | nil =>
    cases h with
    | stop => cases hfound
    | within name hsome hleft =>
      rw [List.lookup_cons, beq_self_eq_true] at hfound
      obtain rfl := Option.some.inj hfound
      exact ⟨hleft, rfl⟩
    | next item h =>
      rw [List.lookup_cons, beq_self_eq_true] at hfound
      obtain rfl := Option.some.inj hfound
      cases h
      exact ⟨List.prefix_refl _, rfl⟩
  | cons item front ih =>
    obtain ⟨hitem, hnew⟩ := List.forall_mem_cons.mp hnew
    have hbeq : (name == item.1) = false := beq_false_of_ne fun heq => hitem heq.symm
    cases h with
    | stop => cases hfound
    | within name hsome hleft =>
      rw [List.lookup_cons, hbeq] at hfound
      cases hfound
    | next item h =>
      rw [List.lookup_cons, hbeq] at hfound
      obtain ⟨hleading, rfl⟩ := ih hnew h hfound
      exact ⟨hleading, rfl⟩

/-- The first digits of a number write no more than all. -/
theorem number_prefix {left digits : List Char}
    (h : left <+: digits) : number left ≤ number digits := by
  obtain ⟨rest, rfl⟩ := h
  have hall : number (left ++ rest) = 10 ^ rest.length * number left + number rest := by
    rw [number, Nat.ofDigitChars_append, Nat.ofDigitChars_eq_ofDigitChars_zero, number, number]
  have hpower : 1 * number left ≤ 10 ^ rest.length * number left :=
    Nat.mul_le_mul_right _ (Nat.pow_pos (by decide))
  omega

theorem int_leading {digits : List Char} {value : Nat}
    (h : digits <+: Nat.toDigits 10 value) : u.int digits ≤ value := by
  have hdigits : ∀ c ∈ digits, c.isDigit = true := fun c hc =>
    Nat.isDigit_of_mem_toDigits (by decide) (by decide) (h.subset hc)
  rw [int_number hdigits]
  calc number digits ≤ number (Nat.toDigits 10 value) := number_prefix h
    _ = value := Nat.ofDigitChars_ten_toDigits

end

end Fields
