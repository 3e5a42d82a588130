import Mathlib.Algebra.Order.Ring.Nat
import Mathlib.Data.List.Dedup
import Mathlib.Data.List.Sort

/- Half-open spans of integers: the runs of a set of addresses, and the spans that touch
   put together. -/
namespace Spans

abbrev Span := Int × Int

def Span.Holds (s : Span) (a : Int) : Prop := s.1 ≤ a ∧ a < s.2

def Covers (spans : List Span) (a : Int) : Prop := ∃ s ∈ spans, Span.Holds s a

@[simp] theorem covers_nil (a : Int) : ¬ Covers [] a := fun ⟨_, hs, _⟩ => nomatch hs

@[simp] theorem covers_cons {s : Span} {spans : List Span} {a : Int} :
    Covers (s :: spans) a ↔ Span.Holds s a ∨ Covers spans a := by
  simp only [Covers, List.mem_cons, exists_eq_or_imp]

theorem covers_append {front back : List Span} {a : Int} :
    Covers (front ++ back) a ↔ Covers front a ∨ Covers back a := by
  induction front with
  | nil => simp
  | cons s front ih => simp [ih, or_assoc]

/-! ## Runs -/

/-- The addresses in order, each once. -/
def ordered (addresses : List Int) : List Int := addresses.dedup.insertionSort (· ≤ ·)

/-- The runs of the addresses that follow `previous`, where the run begun starts at `start`. -/
def runsFrom (start previous : Int) : List Int → List Span
  | [] => [(start, previous + 1)]
  | address :: rest =>
    if address ≠ previous + 1 then (start, previous + 1) :: runsFrom address address rest
    else runsFrom start address rest

def runs (addresses : List Int) : List Span :=
  match ordered addresses with
  | [] => []
  | first :: rest => runsFrom first first rest

theorem mem_ordered {addresses : List Int} {a : Int} : a ∈ ordered addresses ↔ a ∈ addresses := by
  rw [ordered, List.mem_insertionSort, List.mem_dedup]

theorem ordered_pairwise (addresses : List Int) : (ordered addresses).Pairwise (· < ·) := by
  have hle : (ordered addresses).Pairwise (· ≤ ·) := List.pairwise_insertionSort _ _
  have hne : (ordered addresses).Pairwise (· ≠ ·) :=
    ((List.perm_insertionSort _ _).nodup_iff.mpr (List.nodup_dedup addresses))
  exact (hle.and hne).imp fun h => lt_of_le_of_ne h.1 h.2

/-- Addresses already in order stay. -/
theorem ordered_of_pairwise {addresses : List Int}
    (h : addresses.Pairwise (· < ·)) : ordered addresses = addresses := by
  have hne : addresses.Nodup := h.imp fun hlt => ne_of_lt hlt
  rw [ordered, hne.dedup]
  exact (h.imp fun hlt => le_of_lt hlt).insertionSort_eq

/-- The runs hold what is in order behind the run begun, and nothing else. -/
theorem covers_runsFrom {start previous a : Int} {rest : List Int} (hstart : start ≤ previous)
    (horder : (previous :: rest).Pairwise (· < ·)) :
    Covers (runsFrom start previous rest) a ↔ (start ≤ a ∧ a ≤ previous) ∨ a ∈ rest := by
  induction rest generalizing start previous with
  | nil =>
    rw [runsFrom, covers_cons, Span.Holds]
    constructor
    · rintro (h | h)
      · exact Or.inl (by omega)
      · exact absurd h (covers_nil a)
    · rintro (h | h)
      · exact Or.inl (by omega)
      · exact absurd h List.not_mem_nil
  | cons address rest ih =>
    have hlt : previous < address :=
      (List.pairwise_cons.mp horder).1 address (List.mem_cons_self ..)
    have horder' : (address :: rest).Pairwise (· < ·) := (List.pairwise_cons.mp horder).2
    by_cases hgap : address ≠ previous + 1
    · rw [runsFrom, if_pos hgap, covers_cons, ih (le_refl _) horder', List.mem_cons]
      simp only [Span.Holds]
      constructor
      · rintro (h | h | h)
        · exact Or.inl (by omega)
        · exact Or.inr (Or.inl (by omega))
        · exact Or.inr (Or.inr h)
      · rintro (h | rfl | h)
        · exact Or.inl (by omega)
        · exact Or.inr (Or.inl (by omega))
        · exact Or.inr (Or.inr h)
    · rw [runsFrom, if_neg hgap, ih (by omega) horder', List.mem_cons]
      constructor
      · rintro (h | h)
        · by_cases hlast : a = address
          · exact Or.inr (Or.inl hlast)
          · exact Or.inl (by omega)
        · exact Or.inr (Or.inr h)
      · rintro (h | rfl | h)
        · exact Or.inl (by omega)
        · exact Or.inl (by omega)
        · exact Or.inr h

theorem covers_runs {addresses : List Int} {a : Int} :
    Covers (runs addresses) a ↔ a ∈ addresses := by
  rw [← mem_ordered]
  have horder := ordered_pairwise addresses
  unfold runs
  cases hordered : ordered addresses with
  | nil => simp
  | cons first rest =>
    rw [hordered] at horder
    rw [covers_runsFrom (le_refl _) horder, List.mem_cons]
    constructor
    · rintro (h | h)
      · exact Or.inl (by omega)
      · exact Or.inr h
    · rintro (rfl | h)
      · exact Or.inl ⟨le_refl _, le_refl _⟩
      · exact Or.inr h

theorem runsFrom_nonempty {start previous : Int} {rest : List Int} (hstart : start ≤ previous)
    (horder : (previous :: rest).Pairwise (· < ·)) :
    ∀ s ∈ runsFrom start previous rest, s.1 < s.2 := by
  induction rest generalizing start previous with
  | nil =>
    intro s hs
    obtain rfl := List.mem_singleton.mp hs
    exact Int.lt_add_one_iff.mpr hstart
  | cons address rest ih =>
    have hlt : previous < address :=
      (List.pairwise_cons.mp horder).1 address (List.mem_cons_self ..)
    have horder' : (address :: rest).Pairwise (· < ·) := (List.pairwise_cons.mp horder).2
    unfold runsFrom
    split
    · intro s hs
      rcases List.mem_cons.mp hs with rfl | hs
      · exact Int.lt_add_one_iff.mpr hstart
      · exact ih (le_refl _) horder' s hs
    · exact ih (by omega) horder'

/-- Neighbouring addresses are one run. -/
theorem runsFrom_contiguous (start previous : Int) (n : Nat) :
    runsFrom start previous ((List.range' 1 n).map fun i : Nat => previous + i) =
      [(start, previous + n + 1)] := by
  induction n generalizing previous with
  | zero => simp [runsFrom]
  | succ n ih =>
    have hshift : (List.range' 2 n).map (fun i : Nat => previous + i) =
        (List.range' 1 n).map fun i : Nat => previous + 1 + i := by
      rw [List.range'_eq_map_range, List.range'_eq_map_range, List.map_map, List.map_map]
      apply List.map_congr_left
      intro i _
      simp only [Function.comp]
      omega
    rw [List.range'_succ, List.map_cons, runsFrom, if_neg (by simp), hshift]
    have hnext := ih (previous + 1)
    simp only [Int.natCast_one, Int.natCast_add] at hnext ⊢
    rw [hnext]
    congr 2
    omega

theorem runs_contiguous (start : Int) (n : Nat) :
    runs ((List.range (n + 1)).map fun i : Nat => start + i) = [(start, start + n + 1)] := by
  have horder : ((List.range (n + 1)).map fun i : Nat => start + i).Pairwise (· < ·) := by
    rw [List.pairwise_map]
    exact List.pairwise_lt_range.imp fun h => by omega
  have hsplit : (List.range (n + 1)).map (fun i : Nat => start + i) =
      start :: (List.range' 1 n).map fun i : Nat => start + i := by
    rw [List.range_eq_range', List.range'_succ, List.map_cons]
    simp
  rw [runs, ordered_of_pairwise horder, hsplit]
  exact runsFrom_contiguous start start n

def Ordered (spans : List Span) : Prop := spans.Pairwise fun s t => s.1 ≤ t.1

/-- In order, none empty, a gap between any two. -/
def Separated (spans : List Span) : Prop :=
  (∀ s ∈ spans, s.1 < s.2) ∧ spans.Pairwise fun s t => s.2 < t.1

/-- A run ends where the next address is missing, so the next run starts behind a gap. -/
theorem runsFrom_pairwise {start previous : Int} {rest : List Int} (hstart : start ≤ previous)
    (horder : (previous :: rest).Pairwise (· < ·)) :
    (runsFrom start previous rest).Pairwise (fun s t => s.2 < t.1) ∧
    ∀ s ∈ runsFrom start previous rest, start ≤ s.1 := by
  induction rest generalizing start previous with
  | nil => simp [runsFrom]
  | cons address rest ih =>
    have hlt : previous < address :=
      (List.pairwise_cons.mp horder).1 address (List.mem_cons_self ..)
    have horder' : (address :: rest).Pairwise (· < ·) := (List.pairwise_cons.mp horder).2
    by_cases hgap : address ≠ previous + 1
    · obtain ⟨hpairs, hlater⟩ := ih (le_refl _) horder'
      rw [runsFrom, if_pos hgap]
      refine ⟨List.pairwise_cons.mpr ⟨fun t ht => ?_, hpairs⟩, fun s hs => ?_⟩
      · have := hlater t ht
        show previous + 1 < t.1
        omega
      · rcases List.mem_cons.mp hs with rfl | hs
        · exact le_refl _
        · have := hlater s hs
          omega
    · rw [runsFrom, if_neg hgap]
      exact ih (by omega) horder'

theorem separated_runs (addresses : List Int) : Separated (runs addresses) := by
  have horder := ordered_pairwise addresses
  unfold runs
  cases hordered : ordered addresses with
  | nil => exact ⟨nofun, List.Pairwise.nil⟩
  | cons first rest =>
    rw [hordered] at horder
    exact ⟨runsFrom_nonempty (le_refl _) horder, (runsFrom_pairwise (le_refl _) horder).1⟩

/-! ## Spans that touch -/

/-- The spans behind the one begun, in the order of their starts: one that begins within it
extends it. -/
def coalesceFrom (start stop : Int) : List Span → List Span
  | [] => [(start, stop)]
  | s :: rest =>
    if s.1 ≤ stop then coalesceFrom start (max stop s.2) rest
    else (start, stop) :: coalesceFrom s.1 s.2 rest

/-- Spans in the order of their starts, those that overlap or touch put together. -/
def coalesce : List Span → List Span
  | [] => []
  | s :: rest => coalesceFrom s.1 s.2 rest

theorem covers_coalesceFrom {start stop a : Int} {rest : List Span}
    (horder : ∀ s ∈ rest, start ≤ s.1) (hrest : Ordered rest) :
    Covers (coalesceFrom start stop rest) a ↔ (start ≤ a ∧ a < stop) ∨ Covers rest a := by
  induction rest generalizing start stop with
  | nil => simp [coalesceFrom, Span.Holds]
  | cons s rest ih =>
    have hfirst := horder s (List.mem_cons_self ..)
    have hlater : ∀ t ∈ rest, start ≤ t.1 := fun t ht => horder t (List.mem_cons_of_mem _ ht)
    have hnext : ∀ t ∈ rest, s.1 ≤ t.1 := (List.pairwise_cons.mp hrest).1
    have hrest' : Ordered rest := (List.pairwise_cons.mp hrest).2
    rw [coalesceFrom]
    by_cases htouch : s.1 ≤ stop
    · rw [if_pos htouch, ih hlater hrest', covers_cons, ← or_assoc]
      refine or_congr_left ?_
      simp only [Span.Holds]
      omega
    · rw [if_neg htouch, covers_cons, ih hnext hrest', covers_cons]
      rfl

theorem covers_coalesce {spans : List Span} {a : Int} (h : Ordered spans) :
    Covers (coalesce spans) a ↔ Covers spans a := by
  cases spans with
  | nil => exact Iff.rfl
  | cons s rest =>
    have hs := List.pairwise_cons.mp h
    rw [coalesce, covers_coalesceFrom hs.1 hs.2, covers_cons]
    rfl

theorem separated_coalesceFrom {start stop : Int} {rest : List Span} (hbegun : start < stop)
    (hsome : ∀ s ∈ rest, s.1 < s.2) (horder : ∀ s ∈ rest, start ≤ s.1) (hrest : Ordered rest) :
    Separated (coalesceFrom start stop rest) ∧ ∀ s ∈ coalesceFrom start stop rest, start ≤ s.1 := by
  induction rest generalizing start stop with
  | nil => simp [coalesceFrom, Separated, hbegun]
  | cons s rest ih =>
    have hsome' : ∀ t ∈ rest, t.1 < t.2 := fun t ht => hsome t (List.mem_cons_of_mem _ ht)
    have hnext := List.pairwise_cons.mp hrest
    rw [coalesceFrom]
    by_cases htouch : s.1 ≤ stop
    · rw [if_pos htouch]
      exact ih (by omega) hsome' (fun t ht => horder t (List.mem_cons_of_mem _ ht)) hnext.2
    · rw [if_neg htouch]
      have hfirst := horder s (List.mem_cons_self ..)
      obtain ⟨⟨hsome'', hgaps⟩, hlater⟩ :=
        ih (hsome s (List.mem_cons_self ..)) hsome' hnext.1 hnext.2
      refine ⟨⟨?_, List.pairwise_cons.mpr ⟨?_, hgaps⟩⟩, ?_⟩
      · intro t ht
        rcases List.mem_cons.mp ht with rfl | ht
        · exact hbegun
        · exact hsome'' t ht
      · intro t ht
        have hstart := hlater t ht
        show stop < t.1
        omega
      · intro t ht
        rcases List.mem_cons.mp ht with rfl | ht
        · exact le_refl _
        · exact le_trans hfirst (hlater t ht)

theorem separated_coalesce {spans : List Span} (hsome : ∀ s ∈ spans, s.1 < s.2)
    (h : Ordered spans) :
    Separated (coalesce spans) := by
  cases spans with
  | nil => exact ⟨nofun, List.Pairwise.nil⟩
  | cons s rest =>
    have hs := List.pairwise_cons.mp h
    exact (separated_coalesceFrom (hsome s (List.mem_cons_self ..))
      (fun t ht => hsome t (List.mem_cons_of_mem _ ht)) hs.1 hs.2).1

/-- The ends of what is put together are ends of the spans. -/
theorem coalesceFrom_ends {start stop : Int} {rest : List Span} :
    ∀ s ∈ coalesceFrom start stop rest, (s.1 = start ∨ ∃ t ∈ rest, t.1 = s.1) ∧
      (s.2 = stop ∨ ∃ t ∈ rest, t.2 = s.2) := by
  induction rest generalizing start stop with
  | nil =>
    intro s hs
    obtain rfl := List.mem_singleton.mp hs
    exact ⟨.inl rfl, .inl rfl⟩
  | cons first rest ih =>
    intro s hs
    rw [coalesceFrom] at hs
    by_cases htouch : first.1 ≤ stop
    · rw [if_pos htouch] at hs
      obtain ⟨hstart, hstop⟩ := ih s hs
      refine ⟨hstart.imp_right fun ⟨t, ht, heq⟩ => ⟨t, List.mem_cons_of_mem _ ht, heq⟩, ?_⟩
      rcases hstop with hmax | ⟨t, ht, heq⟩
      · have hchoice : max stop first.2 = stop ∨ max stop first.2 = first.2 := by omega
        rcases hchoice with hchoice | hchoice
        · exact .inl (hmax.trans hchoice)
        · exact .inr ⟨first, List.mem_cons_self .., (hmax.trans hchoice).symm⟩
      · exact .inr ⟨t, List.mem_cons_of_mem _ ht, heq⟩
    · rw [if_neg htouch] at hs
      rcases List.mem_cons.mp hs with rfl | hs
      · exact ⟨.inl rfl, .inl rfl⟩
      · obtain ⟨hstart, hstop⟩ := ih s hs
        constructor
        · rcases hstart with heq | ⟨t, ht, heq⟩
          · exact .inr ⟨first, List.mem_cons_self .., heq.symm⟩
          · exact .inr ⟨t, List.mem_cons_of_mem _ ht, heq⟩
        · rcases hstop with heq | ⟨t, ht, heq⟩
          · exact .inr ⟨first, List.mem_cons_self .., heq.symm⟩
          · exact .inr ⟨t, List.mem_cons_of_mem _ ht, heq⟩

theorem coalesce_ends {spans : List Span} {s : Span} (h : s ∈ coalesce spans) :
    (∃ t ∈ spans, t.1 = s.1) ∧ ∃ t ∈ spans, t.2 = s.2 := by
  cases spans with
  | nil => nomatch h
  | cons first rest =>
    obtain ⟨hstart, hstop⟩ := coalesceFrom_ends s h
    constructor
    · rcases hstart with heq | ⟨t, ht, heq⟩
      · exact ⟨first, List.mem_cons_self .., heq.symm⟩
      · exact ⟨t, List.mem_cons_of_mem _ ht, heq⟩
    · rcases hstop with heq | ⟨t, ht, heq⟩
      · exact ⟨first, List.mem_cons_self .., heq.symm⟩
      · exact ⟨t, List.mem_cons_of_mem _ ht, heq⟩

/-! ## Maximal runs -/

/-- A span of addresses with `p`, and none at its ends. -/
def IsRun (p : Int → Prop) (s : Span) : Prop :=
  s.1 < s.2 ∧ (∀ a, s.Holds a → p a) ∧ ¬ p (s.1 - 1) ∧ ¬ p s.2

theorem Separated.apart {spans : List Span} (h : Separated spans) :
    ∀ s ∈ spans, ∀ t ∈ spans, s = t ∨ s.2 < t.1 ∨ t.2 < s.1 := by
  intro s hs t ht
  have hpairs : spans.Pairwise fun s t => s = t ∨ s.2 < t.1 ∨ t.2 < s.1 :=
    h.2.imp fun hlt => Or.inr (Or.inl hlt)
  have hflip : spans.Pairwise (flip fun s t => s = t ∨ s.2 < t.1 ∨ t.2 < s.1) :=
    h.2.imp fun hlt => Or.inr (Or.inr hlt)
  have hsame : ∀ s ∈ spans, s = s ∨ s.2 < s.1 ∨ s.2 < s.1 := fun _ _ => Or.inl rfl
  exact List.Pairwise.forall_of_forall_of_flip hsame hpairs hflip hs ht

/-- Separated spans are the maximal runs of what they cover. -/
theorem isRun_covers {spans : List Span} (h : Separated spans) {s : Span} :
    IsRun (Covers spans) s ↔ s ∈ spans := by
  constructor
  · rintro ⟨hsome, hin, hbefore, hbehind⟩
    obtain ⟨t, ht, hfrom, hto⟩ := hin s.1 ⟨le_refl _, hsome⟩
    have hstart : t.1 = s.1 := by
      by_contra hne
      exact hbefore ⟨t, ht, by omega, by omega⟩
    have hstop : t.2 = s.2 := by
      rcases lt_trichotomy t.2 s.2 with hlt | heq | hgt
      · obtain ⟨u, hu, hfrom', hto'⟩ := hin t.2 ⟨by omega, hlt⟩
        rcases h.apart t ht u hu with rfl | hapart | hapart <;> omega
      · exact heq
      · exact absurd ⟨t, ht, by omega, hgt⟩ hbehind
    rwa [← Prod.ext hstart hstop]
  · intro hs
    refine ⟨h.1 s hs, fun a ha => ⟨s, hs, ha⟩, ?_, ?_⟩
    · rintro ⟨t, ht, hfrom, hto⟩
      rcases h.apart s hs t ht with rfl | hapart | hapart
      · omega
      · have := h.1 s hs
        omega
      · omega
    · rintro ⟨t, ht, hfrom, hto⟩
      rcases h.apart s hs t ht with rfl | hapart | hapart
      · omega
      · omega
      · have := h.1 s hs
        omega

/-- Separated spans are in order. -/
theorem Separated.increasing {spans : List Span} (h : Separated spans) :
    spans.Pairwise fun s t => s.1 < t.1 :=
  h.2.imp_of_mem fun hs _ hgap => lt_trans (h.1 _ hs) hgap

/-- What is covered settles the separated spans. -/
theorem Separated.ext {spans others : List Span} (h : Separated spans) (h' : Separated others)
    (hsame : ∀ a, Covers spans a ↔ Covers others a) : spans = others := by
  have hcovers : Covers spans = Covers others := funext fun a => propext (hsame a)
  have hmem : ∀ s, s ∈ spans ↔ s ∈ others := by
    intro s
    rw [← isRun_covers h, ← isRun_covers h', hcovers]
  have hirrefl : Std.Irrefl fun s t : Span => s.1 < t.1 := ⟨fun s => lt_irrefl s.1⟩
  have hantisymm : Std.Antisymm fun s t : Span => s.1 < t.1 :=
    ⟨fun _ _ hst hts => absurd hst (lt_asymm hts)⟩
  exact h.increasing.eq_of_mem_iff h'.increasing hmem

/-! ## Spans in order -/

/-- Python's order of pairs. -/
def Span.Le (s t : Span) : Prop := s.1 < t.1 ∨ (s.1 = t.1 ∧ s.2 ≤ t.2)

instance : DecidableRel Span.Le := fun _ _ => inferInstanceAs (Decidable (_ ∨ _))

instance : Std.Total Span.Le := ⟨fun s t => by unfold Span.Le; omega⟩

instance : IsTrans Span Span.Le := ⟨fun r s t => by unfold Span.Le; omega⟩

/-- `sorted(spans)`. -/
def sorted (spans : List Span) : List Span := spans.insertionSort Span.Le

theorem mem_sorted {s : Span} {spans : List Span} : s ∈ sorted spans ↔ s ∈ spans :=
  List.mem_insertionSort _

theorem sorted_eq_nil {spans : List Span} : sorted spans = [] ↔ spans = [] := by
  simp only [List.eq_nil_iff_forall_not_mem, mem_sorted]

theorem ordered_sorted (spans : List Span) : Ordered (sorted spans) := by
  have hpairs : (sorted spans).Pairwise Span.Le := List.pairwise_insertionSort _ _
  refine hpairs.imp fun h => ?_
  rcases h with h | h
  · exact le_of_lt h
  · exact le_of_eq h.1

theorem covers_sorted {spans : List Span} {a : Int} : Covers (sorted spans) a ↔ Covers spans a := by
  simp only [Covers, mem_sorted]

theorem covers_coalesce_sorted {spans : List Span} {a : Int} :
    Covers (coalesce (sorted spans)) a ↔ Covers spans a :=
  (covers_coalesce (ordered_sorted spans)).trans covers_sorted

theorem separated_coalesce_sorted {spans : List Span} (h : ∀ s ∈ spans, s.1 < s.2) :
    Separated (coalesce (sorted spans)) :=
  separated_coalesce (fun s hs => h s (mem_sorted.mp hs)) (ordered_sorted spans)

/-- Putting spans together is a normal form of the addresses they cover. -/
theorem coalesce_sorted_eq {spans others : List Span} (h : ∀ s ∈ spans, s.1 < s.2)
    (h' : ∀ s ∈ others, s.1 < s.2) :
    coalesce (sorted spans) = coalesce (sorted others) ↔ ∀ a, Covers spans a ↔ Covers others a := by
  constructor
  · intro heq a
    rw [← covers_coalesce_sorted, heq, covers_coalesce_sorted]
  · intro hsame
    apply Separated.ext (separated_coalesce_sorted h) (separated_coalesce_sorted h')
    intro a
    rw [covers_coalesce_sorted, covers_coalesce_sorted]
    exact hsame a

/-! ## Round by round -/

/-- One round: the last span is extended, or the next one begins. -/
def mergeRound (result : List Span) (s : Span) : List Span :=
  match result.getLast? with
  | some last => if s.1 ≤ last.2 then result.dropLast ++ [(last.1, max last.2 s.2)]
    else result ++ [s]
  | none => result ++ [s]

/-- The rounds behind the first, by induction on the spans to come: only the last one changes. -/
theorem foldl_mergeRound (front : List Span) (start stop : Int) (rest : List Span) :
    rest.foldl mergeRound (front ++ [(start, stop)]) = front ++ coalesceFrom start stop rest := by
  induction rest generalizing front start stop with
  | nil => rfl
  | cons s rest ih =>
    rw [List.foldl_cons, mergeRound, coalesceFrom, List.getLast?_concat, List.dropLast_concat]
    by_cases htouch : s.1 ≤ stop
    · simp only [htouch, if_true]
      exact ih front start (max stop s.2)
    · simp only [htouch, if_false]
      rw [ih (front ++ [(start, stop)]) s.1 s.2, List.append_assoc]
      rfl

theorem foldl_mergeRound_nil (spans : List Span) : spans.foldl mergeRound [] = coalesce spans := by
  cases spans with
  | nil => rfl
  | cons s rest => exact foldl_mergeRound [] s.1 s.2 rest

end Spans
