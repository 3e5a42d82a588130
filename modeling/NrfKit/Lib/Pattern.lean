import Mathlib.Algebra.Order.Ring.Nat
import Mathlib.Data.List.Forall2

/- Patterns of Python's `re`: what a pattern can match where a search stands, best first, so
   that the first entry is the match a backtracking search finds. A search through a text
   goes on behind each match (`findAll`). Where a pattern begins with `^` and does not leave
   its line, the search is a search through the lines (`findAll_lines`). -/
namespace Patterns

/-- Where a search stands: the character before, and those to come. -/
structure Cursor where
  before : Option Char
  rest : List Char

abbrev Pattern (α : Type) := Cursor → List (α × Cursor)

section
variable {α β : Type}

def succeed (a : α) : Pattern α := fun here => [(a, here)]

/-- One pattern behind another. -/
def followed (p : Pattern α) (f : α → Pattern β) : Pattern β :=
  fun here => (p here).flatMap fun found => f found.1 found.2

end

/-- One character of a class. -/
def one (cls : Char → Bool) : Pattern Char
  | ⟨_, []⟩ => []
  | ⟨_, c :: rest⟩ => if cls c then [(c, ⟨some c, rest⟩)] else []

def exactly (cls : Char → Bool) : Nat → Pattern (List Char)
  | 0 => succeed []
  | n + 1 => followed (one cls) fun c => followed (exactly cls n) fun cs => succeed (c :: cs)

/-- Behind the character `c` of a repetition. -/
def prepend (c : Char) (found : List Char × Cursor) : List Char × Cursor := (c :: found.1, found.2)

def mostFrom (cls : Char → Bool) (before : Option Char) : List Char → List (List Char × Cursor)
  | [] => [([], ⟨before, []⟩)]
  | c :: rest =>
    if cls c then (mostFrom cls (some c) rest).map (prepend c) ++ [([], ⟨before, c :: rest⟩)]
    else [([], ⟨before, c :: rest⟩)]

/-- `*`: the most characters first. -/
def zeroOrMore (cls : Char → Bool) : Pattern (List Char) :=
  fun here => mostFrom cls here.before here.rest

/-- `+`. -/
def oneOrMore (cls : Char → Bool) : Pattern (List Char) :=
  followed (one cls) fun c => followed (zeroOrMore cls) fun cs => succeed (c :: cs)

def fewestFrom (cls : Char → Bool) (before : Option Char) : List Char → List (List Char × Cursor)
  | [] => [([], ⟨before, []⟩)]
  | c :: rest =>
    ([], ⟨before, c :: rest⟩) :: if cls c then
      (fewestFrom cls (some c) rest).map (prepend c) else []

/-- `*?`: the fewest characters first. -/
def fewest (cls : Char → Bool) : Pattern (List Char) :=
  fun here => fewestFrom cls here.before here.rest

/-- `^` with `re.MULTILINE`. -/
def lineStart : Pattern Unit := fun here => if here.before = none ∨ here.before = some '\n' then
      [((), here)] else []

/-- `(?<![...])`. -/
def notBehind (cls : Char → Bool) : Pattern Unit := fun here => if here.before.any cls then []
      else [((), here)]

/-- `(?![...])`. -/
def notAhead (cls : Char → Bool) : Pattern Unit := fun here => if here.rest.head?.any cls then []
      else [((), here)]

section
variable {α : Type}

/-- The search behind `skip` more characters; a match takes at least one. -/
def findFrom (p : Pattern α) (skip : Nat) (before : Option Char) : List Char → List α
  | [] => []
  | c :: rest =>
    match skip with
    | skip + 1 => findFrom p skip (some c) rest
    | 0 =>
      match (p ⟨before, c :: rest⟩).head? with
      | some found => found.1 :: findFrom p (rest.length - found.2.rest.length) (some c) rest
      | none => findFrom p 0 (some c) rest

/-- What `finditer` and `findall` go through. -/
def findAll (p : Pattern α) (text : List Char) : List α := findFrom p 0 none text

end

/-! ## Rules -/

section
variable {α β : Type} {p : Pattern α} {f : α → Pattern β} {cls : Char → Bool}

theorem followed_nil {here : Cursor} (h : p here = []) : followed p f here = [] := by
  rw [followed, h]
  rfl

/-- A part that matches in one way only. -/
theorem followed_only {here next : Cursor} {a : α}
    (h : p here = [(a, next)]) : followed p f here = f a next := by
  rw [followed, h, List.flatMap_singleton]

/-- The first way on which the rest matches is the match. -/
theorem followed_first {here next : Cursor} {a : α} {front others : List (α × Cursor)}
    {found : β × Cursor} (h : p here = front ++ (a, next) :: others)
    (hfront : ∀ x ∈ front, f x.1 x.2 = []) (hfound : (f a next).head? = some found) :
    (followed p f here).head? = some found := by
  have hnone : (front.flatMap fun x => f x.1 x.2) = [] := List.flatMap_eq_nil_iff.mpr hfront
  rw [followed, h, List.flatMap_append, hnone, List.nil_append, List.flatMap_cons,
    List.head?_append, hfound]
  rfl

theorem followed_head {here next : Cursor} {a : α} {others : List (α × Cursor)} {found : β × Cursor}
    (h : p here = (a, next) :: others) (hfound : (f a next).head? = some found) :
    (followed p f here).head? = some found :=
  @followed_first _ _ _ _ _ _ _ [] others found h nofun hfound

theorem one_of {c : Char} {before : Option Char} {rest : List Char} (h : cls c = true) :
    one cls ⟨before, c :: rest⟩ = [(c, ⟨some c, rest⟩)] := if_pos h

theorem one_other {c : Char} {before : Option Char} {rest : List Char} (h : cls c = false) :
    one cls ⟨before, c :: rest⟩ = [] := by
  rw [one, h]
  rfl

/-- The character before what is behind `front`. -/
def behind (before : Option Char) (front : List Char) : Option Char := front.getLast?.or before

theorem behind_cons (before : Option Char) (c : Char) (front : List Char) :
    behind before (c :: front) = behind (some c) front := by
  cases front with
  | nil => rfl
  | cons d front =>
    rw [behind, behind, List.getLast?_cons_cons]
    rw [List.getLast?_cons]
    rfl

theorem behind_concat (before : Option Char) (front : List Char) (c : Char) :
    behind before (front ++ [c]) = some c := by
  rw [behind, List.getLast?_concat]
  rfl

theorem exactly_of {cs rest : List Char} {before : Option Char} (h : ∀ c ∈ cs, cls c = true) :
    exactly cls cs.length ⟨before, cs ++ rest⟩ = [(cs, ⟨behind before cs, rest⟩)] := by
  induction cs generalizing before with
  | nil => rfl
  | cons c cs ih =>
    rw [List.length_cons, exactly, List.cons_append,
      followed_only (one_of (h c (List.mem_cons_self ..))),
      followed_only (ih fun d hd => h d (List.mem_cons_of_mem _ hd)), behind_cons]
    rfl

/-- What a repetition of fixed length matches stands at the front. -/
theorem exactly_front {n : Nat} {here : Cursor} {found : List Char × Cursor}
    (h : found ∈ exactly cls n here) :
    found.1.length = n ∧ (∀ c ∈ found.1, cls c = true) ∧ here.rest = found.1 ++ found.2.rest := by
  induction n generalizing here found with
  | zero =>
    obtain rfl := List.mem_singleton.mp h
    exact ⟨rfl, nofun, rfl⟩
  | succ n ih =>
    obtain ⟨before, rest⟩ := here
    cases rest with
    | nil => nomatch h
    | cons c rest =>
      cases hc : cls c with
      | false =>
        rw [exactly, followed_nil (one_other hc)] at h
        nomatch h
      | true =>
        rw [exactly, followed_only (one_of hc)] at h
        obtain ⟨later, hlater, hfound⟩ := List.mem_flatMap.mp h
        obtain rfl := List.mem_singleton.mp hfound
        obtain ⟨hlength, hall, hrest⟩ := ih hlater
        refine ⟨by rw [List.length_cons, hlength], ?_, by rw [List.cons_append, ← hrest]⟩
        intro d hd
        rcases List.mem_cons.mp hd with rfl | hd
        · exact hc
        · exact hall d hd

theorem mostFrom_front {before : Option Char} {text : List Char} {found : List Char × Cursor}
    (h : found ∈ mostFrom cls before text) :
    (∀ c ∈ found.1, cls c = true) ∧ text = found.1 ++ found.2.rest := by
  induction text generalizing before found with
  | nil =>
    obtain rfl := List.mem_singleton.mp h
    exact ⟨nofun, rfl⟩
  | cons c text ih =>
    rw [mostFrom] at h
    split at h
    · rename_i hc
      rcases List.mem_append.mp h with hmore | hstop
      · obtain ⟨later, hlater, rfl⟩ := List.mem_map.mp hmore
        obtain ⟨hall, htext⟩ := ih hlater
        refine ⟨fun d hd => ?_, by rw [prepend, List.cons_append, ← htext]⟩
        rcases List.mem_cons.mp hd with rfl | hd
        · exact hc
        · exact hall d hd
      · obtain rfl := List.mem_singleton.mp hstop
        exact ⟨nofun, rfl⟩
    · obtain rfl := List.mem_singleton.mp h
      exact ⟨nofun, rfl⟩

theorem oneOrMore_front {here : Cursor} {found : List Char × Cursor}
    (h : found ∈ oneOrMore cls here) :
    found.1 ≠ [] ∧ (∀ c ∈ found.1, cls c = true) ∧ here.rest = found.1 ++ found.2.rest := by
  obtain ⟨before, rest⟩ := here
  cases rest with
  | nil => nomatch h
  | cons c rest =>
    cases hc : cls c with
    | false =>
      rw [oneOrMore, followed_nil (one_other hc)] at h
      nomatch h
    | true =>
      rw [oneOrMore, followed_only (one_of hc)] at h
      obtain ⟨later, hlater, hfound⟩ := List.mem_flatMap.mp h
      obtain rfl := List.mem_singleton.mp hfound
      obtain ⟨hall, hrest⟩ := mostFrom_front hlater
      refine ⟨List.cons_ne_nil _ _, fun d hd => ?_, by rw [List.cons_append, ← hrest]⟩
      rcases List.mem_cons.mp hd with rfl | hd
      · exact hc
      · exact hall d hd

/-- A repetition first takes all there is. -/
theorem mostFrom_all {before : Option Char} {front rest : List Char} (h : ∀ c ∈ front, cls c = true)
    (hrest : ∀ c ∈ rest.head?, cls c = false) :
    ∃ others, mostFrom cls before (front ++ rest) =
      (front, ⟨behind before front, rest⟩) :: others := by
  induction front generalizing before with
  | nil =>
    cases rest with
    | nil => exact ⟨[], rfl⟩
    | cons c rest =>
      have hc : cls c = false := hrest c rfl
      refine ⟨[], ?_⟩
      rw [List.nil_append, mostFrom, hc]
      rfl
  | cons c front ih =>
    obtain ⟨others, hothers⟩ := @ih (some c) fun d hd => h d (List.mem_cons_of_mem _ hd)
    refine ⟨others.map (prepend c) ++ [([], ⟨before, c :: (front ++ rest)⟩)], ?_⟩
    rw [List.cons_append, mostFrom, if_pos (h c (List.mem_cons_self ..)), hothers, behind_cons]
    rfl

theorem oneOrMore_all {before : Option Char} {front rest : List Char} (hsome : front ≠ [])
    (h : ∀ c ∈ front, cls c = true) (hrest : ∀ c ∈ rest.head?, cls c = false) :
    ∃ others, oneOrMore cls ⟨before, front ++ rest⟩ =
      (front, ⟨behind before front, rest⟩) :: others := by
  obtain ⟨c, front, rfl⟩ := List.exists_cons_of_ne_nil hsome
  obtain ⟨others, hothers⟩ :=
    @mostFrom_all cls (some c) front rest (fun d hd => h d (List.mem_cons_of_mem _ hd)) hrest
  refine ⟨others.map fun found => (c :: found.1, found.2), ?_⟩
  rw [oneOrMore, List.cons_append, followed_only (one_of (h c (List.mem_cons_self ..))), followed,
    zeroOrMore, hothers, behind_cons]
  simp [succeed, ← List.map_eq_flatMap]

/-- A lazy repetition comes to `front` behind everything shorter. -/
theorem fewestFrom_split {before : Option Char} {front rest : List Char}
    (h : ∀ c ∈ front, cls c = true) :
    ∃ shorter others, fewestFrom cls before (front ++ rest) = shorter ++
      (front, ⟨behind before front, rest⟩) :: others ∧
      ∀ found ∈ shorter, ∃ later, later ≠ [] ∧ front = found.1 ++ later ∧
        found.2.rest = later ++ rest := by
  induction front generalizing before with
  | nil =>
    cases rest with
    | nil => exact ⟨[], [], rfl, nofun⟩
    | cons c rest => exact ⟨[], _, rfl, nofun⟩
  | cons c front ih =>
    obtain ⟨shorter, others, hfew, hshorter⟩ :=
      @ih (some c) fun d hd => h d (List.mem_cons_of_mem _ hd)
    refine ⟨([], ⟨before, c :: (front ++ rest)⟩) :: shorter.map (prepend c),
      others.map (prepend c), ?_, ?_⟩
    · rw [List.cons_append, fewestFrom, if_pos (h c (List.mem_cons_self ..)), hfew, List.map_append,
        List.map_cons, behind_cons]
      rfl
    · intro found hfound
      rcases List.mem_cons.mp hfound with rfl | hmore
      · exact ⟨c :: front, List.cons_ne_nil _ _, rfl, rfl⟩
      · obtain ⟨inner, hinner, rfl⟩ := List.mem_map.mp hmore
        obtain ⟨later, hsome, hfront, hrest⟩ := hshorter inner hinner
        exact ⟨later, hsome, by rw [hfront]; rfl, hrest⟩

end

/-! ## Through a text -/

section
variable {α : Type} {p : Pattern α}

theorem findFrom_skip (front : List Char) (before : Option Char) (back : List Char) :
    findFrom p front.length before (front ++ back) = findFrom p 0 (behind before front) back := by
  induction front generalizing before with
  | nil => rfl
  | cons c front ih => rw [List.length_cons, List.cons_append, findFrom, ih, behind_cons]

/-- No match begins here. -/
theorem findFrom_none {before : Option Char} {c : Char} {rest : List Char}
    (h : p ⟨before, c :: rest⟩ = []) :
    findFrom p 0 before (c :: rest) = findFrom p 0 (some c) rest := by
  rw [findFrom, h]
  rfl

/-- A match begins here, and the search goes on behind it. -/
theorem findFrom_match {before next : Option Char} {c : Char} {front back : List Char} {a : α}
    (h : (p ⟨before, c :: (front ++ back)⟩).head? = some (a, ⟨next, back⟩)) :
    findFrom p 0 before (c :: (front ++ back)) = a ::
      findFrom p 0 (behind (some c) front) back := by
  have hskip : (front ++ back).length - back.length = front.length := by
    rw [List.length_append]
    exact Nat.add_sub_cancel ..
  rw [findFrom, h]
  simp only [hskip, findFrom_skip]

/-- `^` can match behind this character. -/
def AtStart (before : Option Char) : Prop := before = none ∨ before = some '\n'

/-- The pattern begins with `^`. -/
def Anchored (p : Pattern α) : Prop := ∀ before rest, ¬ AtStart before → p ⟨before, rest⟩ = []

theorem anchored_lineStart {β : Type} (f : Unit → Pattern β) : Anchored (followed lineStart f) := by
  intro before rest hwithin
  exact followed_nil (if_neg hwithin)

theorem lineStart_of {before : Option Char} (h : AtStart before) (rest : List Char) :
    lineStart ⟨before, rest⟩ = [((), ⟨before, rest⟩)] := if_pos h

/-- What may follow a line: nothing, or a newline and the next line. -/
def Ends (tail : List Char) : Prop := ∀ c ∈ tail.head?, c = '\n'

/-- A line from its start, whatever follows it: no match, or one that stays in it. -/
inductive Reads (p : Pattern α) (line : List Char) : Option α → Prop
  | other (h : ∀ before tail, AtStart before → Ends tail → p ⟨before, line ++ tail⟩ = []) :
    Reads p line none
  | found (c : Char) (front back : List Char) (hline : line = c :: (front ++ back)) (a : α)
      (h : ∀ before tail, AtStart before → Ends tail →
        ∃ next, (p ⟨before, line ++ tail⟩).head? = some (a, ⟨next, back ++ tail⟩)) :
          Reads p line (some a)

theorem not_start_behind {c : Char} {front : List Char} (h : '\n' ∉ c :: front) :
    ¬ AtStart (behind (some c) front) := by
  rintro (hnone | hnewline)
  · unfold behind at hnone
    cases hlast : front.getLast? <;> rw [hlast] at hnone <;> nomatch hnone
  · unfold behind at hnewline
    cases hlast : front.getLast? with
    | none =>
      rw [hlast] at hnewline
      exact h (Option.some.inj hnewline ▸ List.mem_cons_self ..)
    | some d =>
      rw [hlast] at hnewline
      exact h (Option.some.inj hnewline ▸ List.mem_cons_of_mem _ (List.mem_of_getLast? hlast))

/-- The search goes on at the next line. -/
def nextLine (p : Pattern α) : List Char → List α
  | [] => []
  | _ :: rest => findFrom p 0 (some '\n') rest

/-- Within a line nothing begins. -/
theorem findFrom_within (h : Anchored p) {c : Char} {front line : List Char}
    (hplain : '\n' ∉ c :: (front ++ line)) {tail : List Char} (htail : Ends tail) :
    findFrom p 0 (behind (some c) front) (line ++ tail) = nextLine p tail := by
  induction line generalizing front with
  | nil =>
    rw [List.append_nil] at hplain
    cases tail with
    | nil => rfl
    | cons d rest =>
      obtain rfl : d = '\n' := htail d rfl
      rw [List.nil_append, findFrom_none (h _ _ (not_start_behind hplain))]
      rfl
  | cons d line ih =>
    have hfront : '\n' ∉ c :: front := fun hmem => hplain (by
      rw [← List.cons_append]
      exact List.mem_append_left _ hmem)
    rw [List.append_cons] at hplain
    rw [List.cons_append, findFrom_none (h _ _ (not_start_behind hfront)), ← ih hplain,
      behind_concat]

/-- One line, and what follows it. -/
theorem findFrom_line (h : Anchored p) {line : List Char} {result : Option α}
    (hreads : Reads p line result) (hplain : '\n' ∉ line) {before : Option Char}
    (hstart : AtStart before) {tail : List Char} (htail : Ends tail) :
    findFrom p 0 before (line ++ tail) = result.toList ++ nextLine p tail := by
  cases hreads with
  | other hnone =>
    have hfirst := hnone before tail hstart htail
    cases line with
    | nil =>
      cases tail with
      | nil => rfl
      | cons d rest =>
        obtain rfl : d = '\n' := htail d rfl
        exact findFrom_none hfirst
    | cons c line =>
      rw [List.cons_append] at hfirst ⊢
      rw [findFrom_none hfirst]
      exact @findFrom_within _ _ h c [] line hplain _ htail
  | found c front back hline a hmatch =>
    subst hline
    obtain ⟨next, hfirst⟩ := hmatch before tail hstart htail
    rw [List.cons_append, List.append_assoc] at hfirst ⊢
    rw [findFrom_match hfirst, findFrom_within h hplain htail]
    rfl

/-- The lines with a newline between two. -/
def joined : List (List Char) → List Char
  | [] => []
  | [line] => line
  | line :: next :: lines => line ++ '\n' :: joined (next :: lines)

/-- A search through the lines. -/
theorem findAll_lines (h : Anchored p) {lines : List (List Char)} {results : List (Option α)}
    (hreads : List.Forall₂ (Reads p) lines results) (hplain : ∀ line ∈ lines, '\n' ∉ line) :
    findAll p (joined lines) = results.filterMap id := by
  have hrun : ∀ before, AtStart before →
      findFrom p 0 before (joined lines) = results.filterMap id := by
    induction hreads with
    | nil => exact fun _ _ => rfl
    | @cons line result lines results hline hlines ih =>
      intro before hstart
      have hfirst := hplain line (List.mem_cons_self ..)
      have hlater := ih fun l hl => hplain l (List.mem_cons_of_mem _ hl)
      have hstep : ∀ tail, Ends tail → findFrom p 0 before (line ++ tail) = result.toList ++
          nextLine p tail :=
        fun _ htail => findFrom_line h hline hfirst hstart htail
      have hresults : (result :: results).filterMap id = result.toList ++ results.filterMap id := by
        cases result <;> rfl
      rw [hresults]
      cases hlines with
      | nil =>
        have := hstep [] nofun
        rwa [List.append_nil] at this
      | cons hnext hmore =>
        rw [joined, hstep _ (by intro c hc; exact (Option.some.inj hc).symm)]
        exact congrArg _ (hlater (some '\n') (.inr rfl))
  exact hrun none (.inl rfl)

end

end Patterns
