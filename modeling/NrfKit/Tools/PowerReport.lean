import Mathlib.Algebra.Order.Floor.Ring
import Mathlib.Data.Rat.Floor
import NrfKit.Tools.PowerCapture

/- The envelope of the power report: `tools/nrfkit_tools/power_report.py`. The rows of a
   capture are cut into blocks of one size, the last one possibly shorter, and each becomes
   a bucket of four numbers.

   `ceil` and `round` are those of Python; the theorem is about the rationals and any
   rounding (`envelope_partition`). -/
namespace NrfKit.Tools.PowerReport
open Python Number Trapezoid

section
variable {F : Type} [Add F] [Mul F] [Div F] [Number F]

/-- One entry of the envelope. -/
structure Bucket (F : Type) where
  middle : F
  low : F
  high : F
  mean : F

/-- The variables of the loop. -/
structure Envelope (F : Type) where
  buckets : List (Bucket F)
  count : Nat
  start : F
  stop : F
  total : F
  low : F
  high : F

def Envelope.empty : Envelope F :=
  { buckets := [], count := 0, start := ofRat 0, stop := ofRat 0, total := ofRat 0, low := ofRat 0,
    high := ofRat 0 }

def reportError (text : String) : Raised := ⟨"PowerReportError", text⟩

/-- The bucket of the rows since the last one, before rounding. -/
def Envelope.bucket (s : Envelope F) : Bucket F :=
  { middle := (s.start + s.stop) / ofRat 2
    low := s.low
    high := s.high
    mean := s.total / ofRat s.count }

def Bucket.rounded (round : F → Nat → F) (b : Bucket F) : Bucket F :=
  { middle := round b.middle 6, low := round b.low 3, high := round b.high 3,
    mean := round b.mean 3 }

/-- The first row of a block sets the start and the extremes. -/
def Envelope.begin (s : Envelope F) (time current : F) : Envelope F :=
  if s.count = 0 then { s with start := time, low := current, high := current } else s

/-- What a row adds to the variables. -/
def Envelope.add (s : Envelope F) (time current : F) : Envelope F :=
  let s := s.begin time current
  { s with
    stop := time
    low := lower (some s.low) current
    high := higher (some s.high) current
    total := s.total + current
    count := s.count + 1 }

variable (round : F → Nat → F)

/-- `buckets.append`. -/
def Envelope.append (s : Envelope F) : Envelope F :=
  { s with buckets := s.buckets ++ [s.bucket.rounded round] }

/-- A block of the full size is closed. -/
def Envelope.close (bucketSize : Int) (s : Envelope F) : Envelope F :=
  if s.count = bucketSize then { s.append round with count := 0, total := ofRat 0 } else s

/-- One row of the file. -/
def Envelope.row (bucketSize : Int) (s : Envelope F) (rowNumber : Nat) :
    Option F × Option F → Except Raised (Envelope F)
  | (some time, some current) =>
    let current := current * ofRat 1000000
    if !isFinite time || !isFinite current then
      .error (reportError ("capture row " ++ toString rowNumber ++ " is nonfinite"))
    else .ok ((s.add time current).close round bucketSize)
  | _ => .error (reportError ("capture row " ++ toString rowNumber ++ " is invalid"))

def Envelope.rows (bucketSize : Int) (s : Envelope F) (rowNumber : Nat) :
    List (Option F × Option F) → Except Raised (Envelope F)
  | [] => .ok s
  | row :: rest => do
    let s ← s.row round bucketSize rowNumber row
    s.rows bucketSize (rowNumber + 1) rest

/-- The rows behind the last full block. -/
def Envelope.finish (s : Envelope F) : List (Bucket F) :=
  if s.count ≠ 0 then (s.append round).buckets else s.buckets

variable (ceil : F → Int)

/-- `max(1, math.ceil(sample_count / bucket_limit))`. -/
def bucketSizeOf (sampleCount bucketLimit : Int) : Int :=
  max 1 (ceil (ofRat (sampleCount / bucketLimit)))

/-- `_envelope` of what opening the file gives. -/
def envelope (file : Except String (CsvFile F))
    (sampleCount bucketLimit : Int) : Except Raised (List (Bucket F)) := do
  raiseIf (sampleCount < 2 ∨ bucketLimit < 2)
    (reportError "capture and bucket limits must contain at least two samples")
  match file with
  | .error e => .error (reportError ("cannot open capture CSV: " ++ e))
  | .ok csv => do
    raiseIf (csv.header ≠ captureHeader) (reportError "capture CSV has an unexpected schema")
    let s ← Envelope.empty.rows round (bucketSizeOf ceil sampleCount bucketLimit) 2 csv.rows
    let buckets := s.finish round
    raiseIf (buckets.length < 2)
      (reportError "capture produced fewer than two visualization buckets")
    pure buckets

end

/-! ## Blocks of rows -/

/-- A row in microamperes. -/
def microamps (row : Rat × Rat) : Rat × Rat := (row.1, row.2 * 1000000)

/-- The currents of the rows in microamperes. -/
def currents (rows : List (Rat × Rat)) : Set Rat := { x | ∃ row ∈ rows, (microamps row).2 = x }

/-- The bucket says what its rows are. -/
structure Bucket.Of (b : Bucket Rat) (block : List (Rat × Rat)) : Prop where
  middle : ∃ first last, block.head? = some first ∧ block.getLast? = some last ∧
    b.middle = (first.1 + last.1) / 2
  low : IsLeast (currents block) b.low
  high : IsGreatest (currents block) b.high
  mean : b.mean = (block.map fun row => (microamps row).2).sum / block.length

/-- The variables are those of the rows of `block`, the ones since the last bucket. -/
structure Envelope.Open (s : Envelope Rat) (block : List (Rat × Rat)) : Prop where
  count : s.count = block.length
  total : s.total = (block.map fun row => (microamps row).2).sum
  ends : ∀ p rest, block.map microamps = p :: rest →
    s.start = p.1 ∧ s.stop = (final p rest).1 ∧ s.low = lowest p rest ∧ s.high = highest p rest

variable {s : Envelope Rat} {block : List (Rat × Rat)} {round : Rat → Nat → Rat}

theorem open_nil (hcount : s.count = 0) (htotal : s.total = 0) : s.Open [] where
  count := hcount
  total := htotal
  ends _ _ heq := nomatch heq

theorem Envelope.Open.add (h : s.Open block) (row : Rat × Rat) :
    (s.add row.1 (microamps row).2).Open (block ++ [row]) where
  count := by
    have hcount : (s.add row.1 (microamps row).2).count =
        (s.begin row.1 (microamps row).2).count + 1 := rfl
    rw [hcount, Envelope.begin]
    split <;> simp [h.count]
  total := by
    have htotal : (s.add row.1 (microamps row).2).total = (s.begin row.1 (microamps row).2).total +
        (microamps row).2 := rfl
    rw [htotal, Envelope.begin]
    split <;> simp [h.total]
  ends p rest heq := by
    rw [List.map_append, List.map_singleton] at heq
    cases hblock : block.map microamps with
    | nil =>
      -- the row begins the block
      rw [hblock] at heq
      obtain ⟨rfl, rfl⟩ := List.cons.inj heq
      have hcount : s.count = 0 := by rw [h.count, ← List.length_map (f := microamps), hblock]; rfl
      simp [Envelope.add, Envelope.begin, hcount, lower_rat, higher_rat, microamps, lowest, highest]
    | cons q front =>
      rw [hblock, List.cons_append] at heq
      obtain ⟨rfl, rfl⟩ := List.cons.inj heq
      obtain ⟨hstart, _, hlow, hhigh⟩ := h.ends q front hblock
      have hcount : s.count ≠ 0 := by
        rw [h.count, ← List.length_map (f := microamps), hblock]
        exact Nat.succ_ne_zero _
      rw [final_concat, lowest_concat, highest_concat, ← hlow, ← hhigh, ← hstart]
      simp [Envelope.add, Envelope.begin, hcount, lower_rat, higher_rat, microamps]

/-- The bucket of the rows since the last one. -/
theorem Envelope.Open.bucket (h : s.Open block) (hsome : block ≠ []) : s.bucket.Of block := by
  obtain ⟨row, rows, rfl⟩ := List.exists_cons_of_ne_nil hsome
  obtain ⟨hstart, hstop, hlow, hhigh⟩ := h.ends (microamps row) (rows.map microamps) rfl
  have hmem : ∀ knot, knot ∈ microamps row :: rows.map microamps ↔
      ∃ r ∈ row :: rows, microamps r = knot := by
    intro knot
    rw [← List.map_cons, List.mem_map]
  constructor
  · refine ⟨row, (row :: rows).getLast hsome, rfl, List.getLast?_eq_getLast_of_ne_nil hsome, ?_⟩
    have hlast : s.stop = ((row :: rows).getLast hsome).1 := by
      rw [hstop, final_eq_getLast]
      have hmap :=
        congrArg Prod.fst (@List.getLast_map _ _ microamps (row :: rows) (List.cons_ne_nil _ _))
      exact hmap
    show (s.start + s.stop) / 2 = _
    rw [hstart, hlast]
    rfl
  · show IsLeast _ s.low
    rw [hlow]
    constructor
    · obtain ⟨knot, hknot, heq⟩ := exists_lowest (microamps row) (rows.map microamps)
      obtain ⟨r, hr, rfl⟩ := (hmem knot).mp hknot
      exact ⟨r, hr, heq⟩
    · rintro x ⟨r, hr, rfl⟩
      exact lowest_le ((hmem _).mpr ⟨r, hr, rfl⟩)
  · show IsGreatest _ s.high
    rw [hhigh]
    constructor
    · obtain ⟨knot, hknot, heq⟩ := exists_highest (microamps row) (rows.map microamps)
      obtain ⟨r, hr, rfl⟩ := (hmem knot).mp hknot
      exact ⟨r, hr, heq⟩
    · rintro x ⟨r, hr, rfl⟩
      exact le_highest ((hmem _).mpr ⟨r, hr, rfl⟩)
  · show s.total / s.count = _
    rw [h.total, h.count]

/-- The blocks closed so far, their buckets, and the block that is open. -/
structure Envelope.Cut (round : Rat → Nat → Rat) (bucketSize : Nat) (s : Envelope Rat)
    (rows : List (Rat × Rat)) (blocks : List (List (Rat × Rat))) (buckets : List (Bucket Rat))
    (block : List (Rat × Rat)) : Prop where
  split : blocks.flatten ++ block = rows
  full : ∀ b ∈ blocks, b.length = bucketSize
  short : block.length < bucketSize
  appended : s.buckets = buckets.map (Bucket.rounded round)
  closed : List.Forall₂ Bucket.Of buckets blocks
  current : s.Open block

variable {bucketSize : Nat} {rows : List (Rat × Rat)} {blocks : List (List (Rat × Rat))}
    {buckets : List (Bucket Rat)}

/-- One row more: the block stays open, or it is full and its bucket is appended. -/
theorem Envelope.Cut.row (h : s.Cut round bucketSize rows blocks buckets block) (row : Rat × Rat)
    (rowNumber : Nat) :
    ∃ s' blocks' buckets' block',
      s.row round bucketSize rowNumber (some row.1, some row.2) = .ok s' ∧
      s'.Cut round bucketSize (rows ++ [row]) blocks' buckets' block' := by
  have hadd := h.current.add row
  have hrow : s.row round bucketSize rowNumber (some row.1, some row.2) =
      .ok ((s.add row.1 (microamps row).2).close round bucketSize) := rfl
  have hbuckets : (s.add row.1 (microamps row).2).buckets = s.buckets := by
    show (s.begin row.1 (microamps row).2).buckets = s.buckets
    rw [Envelope.begin]
    split <;> rfl
  rw [hrow]
  -- The row may fill the block; then the next one begins without rows.
  by_cases hfull : block.length + 1 = bucketSize
  · have hclose : ((s.add row.1 (microamps row).2).count : Int) = bucketSize := by
      rw [hadd.count, List.length_append, List.length_singleton, hfull]
    refine ⟨_, blocks ++ [block ++ [row]],
      buckets ++ [(s.add row.1 (microamps row).2).bucket], [], rfl, ?_⟩
    rw [Envelope.close, if_pos hclose]
    refine
      { split := by rw [← h.split]; simp
        full := ?_
        short := by rw [← hfull]; exact Nat.succ_pos _
        appended := ?_
        closed := ?_
        current := open_nil rfl rfl }
    · intro b hb
      rcases List.mem_append.mp hb with hold | hnew
      · exact h.full b hold
      · rw [List.mem_singleton.mp hnew, List.length_append, List.length_singleton, hfull]
    · show (s.add row.1 (microamps row).2).buckets ++ _ = _
      rw [hbuckets, h.appended, List.map_append, List.map_singleton]
    · exact List.rel_append h.closed
        (.cons (hadd.bucket (List.append_ne_nil_of_right_ne_nil _ (List.cons_ne_nil _ _))) .nil)
  · have hopen : ((s.add row.1 (microamps row).2).count : Int) ≠ bucketSize := by
      rw [hadd.count, List.length_append, List.length_singleton]
      exact_mod_cast hfull
    refine ⟨_, blocks, buckets, block ++ [row], rfl, ?_⟩
    rw [Envelope.close, if_neg hopen]
    have hshort := h.short
    exact
      { split := by rw [← h.split, List.append_assoc]
        full := h.full
        short := by rw [List.length_append, List.length_singleton]; omega
        appended := by rw [hbuckets, h.appended]
        closed := h.closed
        current := hadd }

/-- All rows, by induction on those to come. -/
theorem Envelope.Cut.run (h : s.Cut round bucketSize rows blocks buckets block)
    (later : List (Rat × Rat)) (rowNumber : Nat) :
    ∃ s' blocks' buckets' block', s.rows round bucketSize rowNumber (csvRows later) = .ok s' ∧
      s'.Cut round bucketSize (rows ++ later) blocks' buckets' block' := by
  induction later generalizing s rows blocks buckets block rowNumber with
  | nil => exact ⟨s, blocks, buckets, block, rfl, by rwa [List.append_nil]⟩
  | cons row later ih =>
    obtain ⟨next, _, _, _, hrow, hnext⟩ := h.row row rowNumber
    obtain ⟨s', blocks', buckets', block', hrows, hcut⟩ := ih hnext (rowNumber + 1)
    refine ⟨s', blocks', buckets', block', ?_, by rwa [List.append_assoc] at hcut⟩
    rw [csvRows, List.map_cons, Envelope.rows, hrow]
    exact hrows

/-- What the envelope is when the file ends: the open block is the last one. -/
theorem Envelope.Cut.finish (h : s.Cut round bucketSize rows blocks buckets block)
    (hsize : 0 < bucketSize) :
    ∃ blocks' buckets', s.finish round = buckets'.map (Bucket.rounded round) ∧
      blocks'.flatten = rows ∧ (∀ b ∈ blocks', b ≠ []) ∧ List.Forall₂ Bucket.Of buckets' blocks' ∧
      rows.length ≤ blocks'.length * bucketSize ∧
      blocks'.length * bucketSize < rows.length + bucketSize := by
  have hlength : rows.length = blocks.length * bucketSize + block.length := by
    rw [← h.split, List.length_append, List.length_flatten, List.map_congr_left h.full,
      List.map_const', List.sum_replicate]
    rfl
  have hnonempty : ∀ b ∈ blocks, b ≠ [] := by
    rintro b hb rfl
    have hfull : 0 = bucketSize := h.full [] hb
    omega
  have hshort := h.short
  unfold Envelope.finish
  -- A block that is open at the end is shorter than the others.
  by_cases hblock : block = []
  · have hcount : s.count = 0 := by rw [h.current.count, hblock]; rfl
    rw [if_neg (by omega)]
    rw [hblock, List.length_nil] at hlength
    refine ⟨blocks, buckets, h.appended, ?_, hnonempty, h.closed, ?_, ?_⟩
    · rw [← h.split, hblock, List.append_nil]
    · omega
    · omega
  · have hsome : 0 < block.length := List.length_pos_of_ne_nil hblock
    have hcount : s.count ≠ 0 := by rw [h.current.count]; omega
    rw [if_pos hcount]
    refine ⟨blocks ++ [block], buckets ++ [s.bucket], ?_, ?_, ?_, ?_, ?_, ?_⟩
    · show s.buckets ++ _ = _
      rw [h.appended, List.map_append, List.map_singleton]
    · rw [← h.split, List.flatten_append, List.flatten_singleton]
    · intro b hb
      rcases List.mem_append.mp hb with hold | hnew
      · exact hnonempty b hold
      · rwa [List.mem_singleton.mp hnew]
    · exact List.rel_append h.closed (.cons (h.current.bucket hblock) .nil)
    · rw [List.length_append, List.length_singleton, Nat.add_mul]
      omega
    · rw [List.length_append, List.length_singleton, Nat.add_mul]
      omega

/-! ## The envelope -/

/-- A block is not larger than the capture is cut for, and there is more than one. -/
theorem bucketSizeOf_bounds {sampleCount limit : Nat} (hcount : 2 ≤ sampleCount)
    (hlimit : 2 ≤ limit) :
    ∃ bucketSize : Nat, bucketSizeOf (F := Rat) Int.ceil sampleCount limit = bucketSize ∧
      0 < bucketSize ∧ sampleCount ≤ bucketSize * limit ∧ bucketSize < sampleCount := by
  have hpositive : (0 : Rat) < limit := by exact_mod_cast (by omega : 0 < limit)
  have hceil : (0 : Int) < ⌈(sampleCount : Rat) / limit⌉ :=
    Int.ceil_pos.mpr (div_pos (by exact_mod_cast (by omega : 0 < sampleCount)) hpositive)
  obtain ⟨bucketSize, hsize⟩ := Int.eq_ofNat_of_zero_le hceil.le
  refine ⟨bucketSize, ?_, by omega, ?_, ?_⟩
  · show max 1 ⌈((sampleCount : Int) : Rat) / ((limit : Int) : Rat)⌉ = _
    rw [Int.cast_natCast, Int.cast_natCast, hsize, max_eq_right]
    omega
  · have hle : (sampleCount : Rat) / limit ≤ bucketSize := by
      have := Int.le_ceil ((sampleCount : Rat) / limit)
      rwa [hsize, Int.cast_natCast] at this
    rw [div_le_iff₀ hpositive] at hle
    exact_mod_cast hle
  · -- half of the rows and one more are still fewer than all, but for two rows
    have hhalf : (sampleCount : Rat) / limit ≤ ((sampleCount - 1 : Int) : Rat) := by
      rw [div_le_iff₀ hpositive]
      have hproduct : (sampleCount : Int) ≤ (sampleCount - 1) * limit := by nlinarith
      exact_mod_cast hproduct
    have := Int.ceil_le.mpr hhalf
    omega

theorem forall₂_mem {α β : Type} {R : α → β → Prop} {as : List α} {bs : List β}
    (h : List.Forall₂ R as bs) {a : α} (ha : a ∈ as) : ∃ b ∈ bs, R a b := by
  induction h with
  | nil => nomatch ha
  | cons hfirst _ ih =>
    rcases List.mem_cons.mp ha with rfl | hlater
    · exact ⟨_, List.mem_cons_self .., hfirst⟩
    · obtain ⟨b, hb, hr⟩ := ih hlater
      exact ⟨b, List.mem_cons_of_mem _ hb, hr⟩

/-- The least of the least of the parts. -/
theorem isLeast_parts {K : Type} [LinearOrder K] {leasts : List K} {parts : List (Set K)}
    (h : List.Forall₂ (fun least part => IsLeast part least) leasts parts) {x : K} :
    IsLeast { y | y ∈ leasts } x ↔ IsLeast { y | ∃ part ∈ parts, y ∈ part } x := by
  have hmem : ∀ y ∈ leasts, ∃ part ∈ parts, y ∈ part := by
    intro y hy
    obtain ⟨part, hpart, hleast⟩ := forall₂_mem h hy
    exact ⟨part, hpart, hleast.1⟩
  have hbelow : ∀ y part, part ∈ parts → y ∈ part → ∃ least ∈ leasts, least ≤ y := by
    intro y part hpart hy
    obtain ⟨least, hin, hleast⟩ := forall₂_mem h.flip hpart
    exact ⟨least, hin, hleast.2 hy⟩
  constructor
  · rintro ⟨hx, hlower⟩
    refine ⟨hmem x hx, ?_⟩
    rintro y ⟨part, hpart, hy⟩
    obtain ⟨least, hin, hle⟩ := hbelow y part hpart hy
    exact le_trans (hlower hin) hle
  · rintro ⟨⟨part, hpart, hx⟩, hlower⟩
    obtain ⟨least, hin, hle⟩ := hbelow x part hpart hx
    have heq : least = x := le_antisymm hle (hlower (hmem least hin))
    exact ⟨heq ▸ hin, fun y hy => hlower (hmem y hy)⟩

theorem isGreatest_parts {K : Type} [LinearOrder K] {greatests : List K} {parts : List (Set K)}
    (h : List.Forall₂ (fun greatest part => IsGreatest part greatest) greatests parts) {x : K} :
    IsGreatest { y | y ∈ greatests } x ↔ IsGreatest { y | ∃ part ∈ parts, y ∈ part } x :=
  @isLeast_parts Kᵒᵈ _ greatests parts h x

/-- The currents of the parts are those of the whole. -/
theorem currents_flatten (blocks : List (List (Rat × Rat))) :
    { y | ∃ part ∈ blocks.map currents, y ∈ part } = currents blocks.flatten := by
  ext y
  simp only [currents, Set.mem_ofPred_eq, List.mem_map, List.mem_flatten]
  constructor
  · rintro ⟨_, ⟨block, hblock, rfl⟩, row, hrow, heq⟩
    exact ⟨row, ⟨block, hblock, hrow⟩, heq⟩
  · rintro ⟨row, ⟨block, hblock, hrow⟩, heq⟩
    exact ⟨_, ⟨block, hblock, rfl⟩, row, hrow, heq⟩

/-- The loop over the rows of an accepted capture raises nothing. -/
theorem envelope_ok {rows : List (Rat × Rat)} {limit bucketSize : Nat} {s : Envelope Rat}
    (hrows : 2 ≤ rows.length) (hlimit : 2 ≤ limit)
    (hsize : bucketSizeOf (F := Rat) Int.ceil rows.length limit = bucketSize)
    (hrun : Envelope.empty.rows round bucketSize 2 (csvRows rows) = .ok s)
    (hsome : 2 ≤ (s.finish round).length) :
    envelope round Int.ceil (csvOf rows) rows.length limit = .ok (s.finish round) := by
  have hbad : ¬ ((rows.length : Int) < 2 ∨ (limit : Int) < 2) := by omega
  have hfew : ¬ (s.finish round).length < 2 := by omega
  refine bind_ok.mpr ⟨(), raiseIf_ok.mpr hbad, ?_⟩
  refine bind_ok.mpr ⟨(), raiseIf_ok.mpr (not_not_intro rfl), ?_⟩
  refine bind_ok.mpr ⟨s, ?_, bind_ok.mpr ⟨(), raiseIf_ok.mpr hfew, rfl⟩⟩
  rw [hsize]
  exact hrun

/-- **The envelope.** A capture of as many rows as were counted is cut into two to `limit`
consecutive blocks, each bucket says what the rows of its block are, and the extremes of
the buckets are those of the capture. -/
theorem envelope_partition (round : Rat → Nat → Rat) {rows : List (Rat × Rat)} {limit : Int}
    (hrows : 2 ≤ rows.length) (hlimit : 2 ≤ limit) :
    ∃ blocks buckets, envelope round Int.ceil (csvOf rows) rows.length limit =
      .ok (buckets.map (Bucket.rounded round)) ∧
      blocks.flatten = rows ∧ (∀ block ∈ blocks, block ≠ []) ∧
      List.Forall₂ Bucket.Of buckets blocks ∧ 2 ≤ buckets.length ∧ buckets.length ≤ limit ∧
      (∀ x, IsLeast { low | low ∈ buckets.map Bucket.low } x ↔ IsLeast (currents rows) x) ∧
      ∀ x, IsGreatest { high | high ∈ buckets.map Bucket.high } x ↔
        IsGreatest (currents rows) x := by
  obtain ⟨limit, rfl⟩ := Int.eq_ofNat_of_zero_le (le_trans (by decide) hlimit)
  have hlimit' : 2 ≤ limit := by omega
  obtain ⟨bucketSize, hsize, hpositive, hlarge, hsmall⟩ := bucketSizeOf_bounds hrows hlimit'
  have hstart : (Envelope.empty : Envelope Rat).Cut round bucketSize [] [] [] [] :=
    ⟨rfl, List.forall_mem_nil _, hpositive, rfl, .nil, open_nil rfl rfl⟩
  obtain ⟨s, _, _, _, hrun, hcut⟩ := hstart.run rows 2
  rw [List.nil_append] at hcut
  obtain ⟨blocks, buckets, hfinish, hflatten, hnonempty, hof, henough, htight⟩ :=
    hcut.finish hpositive
  have hsame : buckets.length = blocks.length := hof.length_eq
  have htwo : 2 ≤ blocks.length := by
    by_contra hfew
    have : blocks.length * bucketSize ≤ 1 * bucketSize := Nat.mul_le_mul_right _ (by omega)
    omega
  have hmost : blocks.length ≤ limit := by
    by_contra hmany
    have : (limit + 1) * bucketSize ≤ blocks.length * bucketSize :=
      Nat.mul_le_mul_right _ (by omega)
    nlinarith
  have hlows : List.Forall₂ (fun low part => IsLeast part low) (buckets.map Bucket.low)
      (blocks.map currents) :=
    List.forall₂_map_left_iff.mpr (List.forall₂_map_right_iff.mpr (hof.imp fun _ _ h => h.low))
  have hhighs : List.Forall₂ (fun high part => IsGreatest part high) (buckets.map Bucket.high)
      (blocks.map currents) :=
    List.forall₂_map_left_iff.mpr (List.forall₂_map_right_iff.mpr (hof.imp fun _ _ h => h.high))
  refine ⟨blocks, buckets, ?_, hflatten, hnonempty, hof, by omega,
    by omega, fun x => ?_, fun x => ?_⟩
  · rw [← hfinish]
    refine envelope_ok hrows hlimit' hsize hrun ?_
    rw [hfinish, List.length_map]
    omega
  · rw [isLeast_parts hlows, currents_flatten, hflatten]
  · rw [isGreatest_parts hhighs, currents_flatten, hflatten]

/-- Five rows in two buckets, the second one of two rows. -/
theorem envelope_partition_five :
    ∃ buckets, envelope (fun x _ => x) Int.ceil
        (csvOf [(0, 1 / 1000000), (1 / 10, 4 / 1000000), (2 / 10, -2 / 1000000),
          (3 / 10, 3 / 1000000), (4 / 10, 1 / 1000000)])
        5 2 = .ok buckets ∧ buckets.length = 2 := by
  obtain ⟨_, buckets, hok, _, _, _, hleast, hmost, _⟩ := @envelope_partition (fun x _ => x)
    [(0, 1 / 1000000), (1 / 10, 4 / 1000000), (2 / 10, -2 / 1000000), (3 / 10, 3 / 1000000),
      (4 / 10, 1 / 1000000)] 2
    (by decide) (by decide)
  refine ⟨_, hok, ?_⟩
  rw [List.length_map]
  omega

end NrfKit.Tools.PowerReport
