import NrfKit.Lib.Trapezoid
import NrfKit.Tools.Capture

/- `summarize_capture` of `power.py`: a CSV file of times and currents, summed in one pass.

   Over the rationals an accepted file is a list of knots whose times increase, and its
   summary is read off that list (`summarizeCapture_ok`): the charge is the area below the
   knots. From this follow what a summary says of the current it was taken from
   (`capture_summary`) and that the meters' closed form gives the same numbers
   (`charge_integrators_agree`). -/
namespace NrfKit.Tools
open Python Trapezoid

section
variable {F : Type} [Add F] [Sub F] [Mul F] [Div F] [Number F]
open Number

/-- What `csv.DictReader` reads; a field that `float` does not take is `none`. -/
structure CsvFile (F : Type) where
  header : List String
  rows : List (Option F × Option F)

structure CaptureLimits (F : Type) where
  supplyVoltageV : F
  minimumDurationS : F
  maximumSampleGapS : F

/-- The variables of the loop; a minimum or peak of `none` is still infinite. -/
structure Scan (F : Type) where
  firstTime : Option F
  previousTime : Option F
  previousCurrent : Option F
  chargeC : F
  minimumCurrentA : Option F
  peakCurrentA : Option F
  negativeSamples : Nat
  maximumGapS : F
  sampleCount : Nat

def Scan.start : Scan F :=
  { firstTime := none
    previousTime := none
    previousCurrent := none
    chargeC := ofRat 0
    minimumCurrentA := none
    peakCurrentA := none
    negativeSamples := 0
    maximumGapS := ofRat 0
    sampleCount := 0 }

def captureError (text : String) : Raised := ⟨"PowerCaptureError", text⟩

/-- The gap to the row before, if there is one. -/
def Scan.gap (s : Scan F) (time current : F) : Except Raised (Scan F) :=
  match s.firstTime with
  | none => .ok { s with firstTime := some time }
  | some _ =>
    match s.previousTime, s.previousCurrent with
    | some previousTime, some previousCurrent =>
      let gap := time - previousTime
      if atMost gap (ofRat 0) then .error (captureError "capture timestamps must strictly increase")
      else
        .ok
          { s with
            maximumGapS := if less s.maximumGapS gap then gap else s.maximumGapS
            chargeC := s.chargeC + gap * (previousCurrent + current) / ofRat 2 }
    | _, _ => .ok s

/-- One row of the file. -/
def Scan.row (s : Scan F) (rowNumber : Nat) : Option F × Option F → Except Raised (Scan F)
  | (some time, some current) =>
    if !isFinite time || !isFinite current then
      .error (captureError ("capture row " ++ toString rowNumber ++ " has an invalid value"))
    else do
      let s ← s.gap time current
      .ok
        { s with
          previousTime := some time
          previousCurrent := some current
          minimumCurrentA := some (lower s.minimumCurrentA current)
          peakCurrentA := some (higher s.peakCurrentA current)
          negativeSamples := s.negativeSamples + negative current
          sampleCount := s.sampleCount + 1 }
  | _ => .error (captureError ("capture row " ++ toString rowNumber ++ " is not numeric"))

def Scan.rows (s : Scan F) (rowNumber : Nat) : List (Option F × Option F) → Except Raised (Scan F)
  | [] => .ok s
  | row :: rest => do
    let s ← s.row rowNumber row
    s.rows (rowNumber + 1) rest

structure Summary (F : Type) where
  sampleCount : Nat
  durationS : F
  maximumSampleGapS : F
  averageCurrentA : F
  minimumCurrentA : Option F
  peakCurrentA : Option F
  negativeSamples : Nat
  chargeC : F
  energyJ : F

def captureHeader : List String := ["time_s", "current_a"]

/-- The checks behind the loop, and the report. -/
def Scan.finish (s : Scan F) (limits : CaptureLimits F) : Except Raised (Summary F) :=
  match s.firstTime, s.previousTime with
  | some firstTime, some previousTime => do
    raiseIf (s.sampleCount < 2) (captureError "capture must contain at least two samples")
    let duration := previousTime - firstTime
    raiseIf (less duration limits.minimumDurationS)
      (captureError ("capture duration " ++ text duration ++ " is below " ++
        text limits.minimumDurationS ++ " seconds"))
    raiseIf (less limits.maximumSampleGapS s.maximumGapS)
      (captureError
        ("capture sample gap " ++ text s.maximumGapS ++ " exceeds " ++
          text limits.maximumSampleGapS ++ " seconds"))
    .ok
      { sampleCount := s.sampleCount
        durationS := duration
        maximumSampleGapS := s.maximumGapS
        averageCurrentA := s.chargeC / duration
        minimumCurrentA := s.minimumCurrentA
        peakCurrentA := s.peakCurrentA
        negativeSamples := s.negativeSamples
        chargeC := s.chargeC
        energyJ := s.chargeC * limits.supplyVoltageV }
  | _, _ => .error (captureError "capture must contain at least two samples")

/-- `summarize_capture` of what opening the file gives. -/
def summarizeCapture (file : Except String (CsvFile F))
    (limits : CaptureLimits F) : Except Raised (Summary F) := do
  raiseIf (!isFinite limits.supplyVoltageV || atMost limits.supplyVoltageV (ofRat 0))
    (captureError "supply voltage must be finite and positive")
  raiseIf (atMost limits.minimumDurationS (ofRat 0) || atMost limits.maximumSampleGapS (ofRat 0))
    (captureError "duration and sample-gap limits must be positive")
  match file with
  | .error e => .error (captureError ("cannot open capture: " ++ e))
  | .ok csv => do
    raiseIf (csv.header ≠ captureHeader)
      (captureError "capture must have exactly the time_s,current_a header")
    let s ← Scan.start.rows 2 csv.rows
    s.finish limits

end

/-! ## The knots of an accepted file -/

/-- The rows of these knots. -/
def csvRows (knots : List (Rat × Rat)) : List (Option Rat × Option Rat) :=
  knots.map fun knot => (some knot.1, some knot.2)

def csvOf (knots : List (Rat × Rat)) : Except String (CsvFile Rat) :=
  .ok { header := captureHeader, rows := csvRows knots }

/-- The variables behind the knots `p :: rest`. -/
def Scan.after (p : Rat × Rat) (rest : List (Rat × Rat)) : Scan Rat :=
  { firstTime := some p.1
    previousTime := some (final p rest).1
    previousCurrent := some (final p rest).2
    chargeC := area p rest
    minimumCurrentA := some (lowest p rest)
    peakCurrentA := some (highest p rest)
    negativeSamples := ((p :: rest).map fun knot => negative knot.2).sum
    maximumGapS := widest p rest
    sampleCount := rest.length + 1 }

theorem lower_rat (low current : Rat) : lower (some low) current = min low current := by
  simp only [lower, Number.less_rat, decide_eq_true_eq]
  split
  · exact (min_eq_right (le_of_lt ‹_›)).symm
  · exact (min_eq_left (not_lt.mp ‹_›)).symm

theorem higher_rat (peak current : Rat) : higher (some peak) current = max peak current := by
  simp only [higher, Number.less_rat, decide_eq_true_eq]
  split
  · exact (max_eq_right (le_of_lt ‹_›)).symm
  · exact (max_eq_left (not_lt.mp ‹_›)).symm

/-- One more row. -/
theorem Scan.row_after (p q : Rat × Rat) (rest : List (Rat × Rat)) (rowNumber : Nat) :
    (Scan.after p rest).row rowNumber (some q.1, some q.2) =
      if (final p rest).1 < q.1 then .ok (Scan.after p (rest ++ [q]))
      else .error (captureError "capture timestamps must strictly increase") := by
  have hgap : (if widest p rest < q.1 - (final p rest).1 then q.1 - (final p rest).1
      else widest p rest) =
      widest p (rest ++ [q]) := by
    rw [widest_concat, ← higher_rat]
    simp [higher]
  simp only [Scan.row, Scan.gap, Scan.after, Number.isFinite_rat, Number.atMost_rat,
    Number.less_rat, Number.ofRat_rat, Bool.not_true, Bool.or_self, Bool.false_eq_true, if_false,
    decide_eq_true_eq, sub_nonpos]
  by_cases h : (final p rest).1 < q.1
  · rw [if_neg (not_le.mpr h), if_pos h]
    simp only [bind, Except.bind, hgap, lower_rat, higher_rat, ← lowest_concat, ← highest_concat,
      ← area_concat]
    simp [final_concat, List.sum_append]
    omega
  · rw [if_pos (not_lt.mp h), if_neg h]
    rfl

theorem Scan.row_after_ok {p : Rat × Rat} {rest : List (Rat × Rat)} {rowNumber : Nat}
    {row : Option Rat × Option Rat} {s : Scan Rat} :
    (Scan.after p rest).row rowNumber row = .ok s ↔
      ∃ q, row = (some q.1, some q.2) ∧ (final p rest).1 < q.1 ∧
        s = Scan.after p (rest ++ [q]) := by
  constructor
  · intro h
    match row, h with
    | (some time, some current), h =>
      rw [Scan.row_after p (time, current)] at h
      split at h
      · exact ⟨(time, current), rfl, ‹_›, (Except.ok.inj h).symm⟩
      · nomatch h
    | (some _, none), h => nomatch h
    | (none, _), h => nomatch h
  · rintro ⟨q, rfl, hlater, rfl⟩
    rw [Scan.row_after, if_pos hlater]

/-- The rows behind the knots `p :: front` are accepted when the times go on increasing. -/
theorem Scan.rows_after {p : Rat × Rat} {front : List (Rat × Rat)} {rowNumber : Nat}
    {rows : List (Option Rat × Option Rat)} {s : Scan Rat} :
    (Scan.after p front).rows rowNumber rows = .ok s ↔
      ∃ back, rows = csvRows back ∧ Increasing (final p front :: back) ∧
        s = Scan.after p (front ++ back) := by
  induction rows generalizing front rowNumber with
  | nil =>
    constructor
    · intro h
      exact ⟨[], rfl, List.isChain_singleton _, by rw [List.append_nil, Except.ok.inj h]⟩
    · rintro ⟨back, hback, -, rfl⟩
      obtain rfl := List.map_eq_nil_iff.mp hback.symm
      rw [List.append_nil]
      rfl
  | cons row rest ih =>
    rw [Scan.rows, bind_ok]
    constructor
    · rintro ⟨next, hrow, hrest⟩
      obtain ⟨q, rfl, hlater, rfl⟩ := Scan.row_after_ok.mp hrow
      obtain ⟨back, rfl, hback, rfl⟩ := ih.mp hrest
      rw [final_concat] at hback
      refine ⟨q :: back, rfl, List.isChain_cons_cons.mpr ⟨hlater, hback⟩, ?_⟩
      rw [List.append_assoc, List.singleton_append]
    · rintro ⟨back, hback, hincreasing, rfl⟩
      obtain ⟨q, back, rfl, rfl, rfl⟩ := List.map_eq_cons_iff.mp hback.symm
      refine ⟨_, Scan.row_after_ok.mpr ⟨q, rfl, hincreasing.head, rfl⟩, ih.mpr ⟨back, rfl, ?_, ?_⟩⟩
      · rw [final_concat]
        exact hincreasing.tail
      · rw [List.append_assoc, List.singleton_append]

theorem Scan.row_start (time current : Rat) (rowNumber : Nat) :
    Scan.start.row rowNumber (some time, some current) = .ok (Scan.after (time, current) []) := by
  simp [Scan.row, Scan.gap, Scan.start, Scan.after, bind, Except.bind, lower, higher, lowest,
    highest, widest]

/-- What the whole loop accepts. -/
theorem Scan.rows_start {rowNumber : Nat} {rows : List (Option Rat × Option Rat)} {s : Scan Rat} :
    Scan.start.rows rowNumber rows = .ok s ↔
      (rows = [] ∧ s = Scan.start) ∨
        ∃ p rest, rows = csvRows (p :: rest) ∧ Increasing (p :: rest) ∧ s = Scan.after p rest := by
  cases rows with
  | nil =>
    simp only [Scan.rows, Except.ok.injEq, csvRows, List.map_cons, reduceCtorEq, false_and,
      exists_false, or_false, true_and]
    exact eq_comm
  | cons row rest =>
    rw [Scan.rows, bind_ok]
    constructor
    · rintro ⟨next, hrow, hrest⟩
      match row, hrow with
      | (some time, some current), hrow =>
        rw [Scan.row_start] at hrow
        obtain rfl := Except.ok.inj hrow
        obtain ⟨back, rfl, hback, rfl⟩ := Scan.rows_after.mp hrest
        exact .inr ⟨(time, current), back, rfl, hback, rfl⟩
      | (some _, none), hrow => nomatch hrow
      | (none, _), hrow => nomatch hrow
    · rintro (⟨hnil, -⟩ | ⟨p, back, hrows, hincreasing, rfl⟩)
      · nomatch hnil
      · obtain ⟨rfl, rfl⟩ := List.cons.inj hrows
        exact ⟨_, Scan.row_start p.1 p.2 _, Scan.rows_after.mpr ⟨back, rfl, hincreasing, rfl⟩⟩

/-- The summary of the knots `p :: rest`. -/
def Summary.ofKnots (supplyVoltageV : Rat) (p : Rat × Rat)
    (rest : List (Rat × Rat)) : Summary Rat :=
  let duration := (final p rest).1 - p.1
  { sampleCount := rest.length + 1
    durationS := duration
    maximumSampleGapS := widest p rest
    averageCurrentA := area p rest / duration
    minimumCurrentA := some (lowest p rest)
    peakCurrentA := some (highest p rest)
    negativeSamples := ((p :: rest).map fun knot => negative knot.2).sum
    chargeC := area p rest
    energyJ := area p rest * supplyVoltageV }

/-- The limits are positive, and the knots within them. -/
structure CaptureLimits.Admit (limits : CaptureLimits Rat) (p : Rat × Rat)
    (rest : List (Rat × Rat)) : Prop where
  supply : 0 < limits.supplyVoltageV
  duration : 0 < limits.minimumDurationS
  gap : 0 < limits.maximumSampleGapS
  long : limits.minimumDurationS ≤ (final p rest).1 - p.1
  dense : widest p rest ≤ limits.maximumSampleGapS

theorem Scan.finish_after {p : Rat × Rat} {rest : List (Rat × Rat)} {limits : CaptureLimits Rat}
    {summary : Summary Rat} :
    (Scan.after p rest).finish limits = .ok summary ↔
      rest ≠ [] ∧ limits.minimumDurationS ≤ (final p rest).1 - p.1 ∧
      widest p rest ≤ limits.maximumSampleGapS ∧
        summary = Summary.ofKnots limits.supplyVoltageV p rest := by
  have hcount : ¬ (rest.length + 1 < 2) ↔ rest ≠ [] := by
    rw [← List.length_pos_iff]
    omega
  rw [← hcount]
  simp [Scan.finish, Scan.after, bind_ok, raiseIf_ok, Summary.ofKnots, eq_comm (a := summary)]

/-- **What is accepted.** Over the rationals a capture is accepted when it is at least two
knots whose times increase and the limits admit them; the summary is that of the knots. -/
theorem summarizeCapture_ok {file : Except String (CsvFile Rat)} {limits : CaptureLimits Rat}
    {summary : Summary Rat} :
    summarizeCapture file limits = .ok summary ↔
      ∃ p rest, rest ≠ [] ∧ file = csvOf (p :: rest) ∧ Increasing (p :: rest) ∧
        limits.Admit p rest ∧ summary = Summary.ofKnots limits.supplyVoltageV p rest := by
  cases file with
  | error e =>
    simp [summarizeCapture, bind_ok, csvOf]
  | ok csv =>
    obtain ⟨header, rows⟩ := csv
    have hfile : ∀ knots, (Except.ok { header, rows } : Except String (CsvFile Rat)) = csvOf knots ↔
        header = captureHeader ∧ rows = csvRows knots := by
      intro knots
      simp [csvOf]
    have hchecks : summarizeCapture (.ok { header, rows }) limits = .ok summary ↔
        0 < limits.supplyVoltageV ∧ (0 < limits.minimumDurationS ∧ 0 < limits.maximumSampleGapS) ∧
        header = captureHeader ∧
          ∃ s, Scan.start.rows 2 rows = .ok s ∧ s.finish limits = .ok summary := by
      simp [summarizeCapture, bind_ok, raiseIf_ok]
    simp only [hchecks, hfile]
    constructor
    · rintro ⟨hsupply, ⟨hduration, hgap⟩, hheader, s, hrows, hfinish⟩
      obtain ⟨-, rfl⟩ | ⟨p, rest, rfl, hincreasing, rfl⟩ := Scan.rows_start.mp hrows
      · nomatch hfinish
      · obtain ⟨hmore, hlong, hdense, rfl⟩ := Scan.finish_after.mp hfinish
        exact ⟨p, rest, hmore, ⟨hheader, rfl⟩, hincreasing,
          { supply := hsupply, duration := hduration, gap := hgap, long := hlong,
            dense := hdense }, rfl⟩
    · rintro ⟨p, rest, hmore, ⟨hheader, rfl⟩, hincreasing, hlimits, rfl⟩
      exact ⟨hlimits.supply, ⟨hlimits.duration, hlimits.gap⟩, hheader,
        _, Scan.rows_start.mpr (.inr ⟨p, rest, rfl, hincreasing, rfl⟩),
        Scan.finish_after.mpr ⟨hmore, hlimits.long, hlimits.dense, rfl⟩⟩

theorem csvOf_injective {knots others : List (Rat × Rat)}
    (h : csvOf knots = csvOf others) : knots = others := by
  have hrows : csvRows knots = csvRows others := by simpa [csvOf] using h
  refine List.map_injective_iff.mpr ?_ hrows
  intro a b hab
  simpa [Prod.ext_iff] using hab

theorem summarizeCapture_knots {p : Rat × Rat} {rest : List (Rat × Rat)}
    {limits : CaptureLimits Rat} {summary : Summary Rat} :
    summarizeCapture (csvOf (p :: rest)) limits = .ok summary ↔
      rest ≠ [] ∧ Increasing (p :: rest) ∧ limits.Admit p rest ∧
      summary = Summary.ofKnots limits.supplyVoltageV p rest := by
  rw [summarizeCapture_ok]
  constructor
  · rintro ⟨first, others, hmore, hknots, hrest⟩
    obtain ⟨rfl, rfl⟩ := List.cons.inj (csvOf_injective hknots)
    exact ⟨hmore, hrest⟩
  · rintro ⟨hmore, hrest⟩
    exact ⟨p, rest, hmore, rfl, hrest⟩

/-! ## The current of a capture -/

/-- A knot over the reals. -/
def realKnot (knot : Rat × Rat) : ℝ × ℝ := (knot.1, knot.2)

/-- The current that runs straight between the rows. -/
noncomputable def currentOf (p : Rat × Rat) (rest : List (Rat × Rat)) : ℝ → ℝ :=
  interpolant (realKnot p) (rest.map realKnot)

theorem final_real (p : Rat × Rat) (rest : List (Rat × Rat)) :
    final (realKnot p) (rest.map realKnot) = realKnot (final p rest) := by
  induction rest generalizing p with
  | nil => rfl
  | cons q rest ih => exact ih q

theorem area_real (p : Rat × Rat) (rest : List (Rat × Rat)) :
    area (realKnot p) (rest.map realKnot) = ((area p rest : Rat) : ℝ) := by
  induction rest generalizing p with
  | nil => simp
  | cons q rest ih =>
    rw [List.map_cons, area_cons, ih, area_cons]
    push_cast
    rfl

theorem increasing_real {knots : List (Rat × Rat)}
    (h : Increasing knots) : Increasing (knots.map realKnot) := by
  refine (List.isChain_map realKnot).mpr (List.IsChain.imp (fun a b hab => ?_) h)
  simpa [realKnot] using hab

/-- The charge is the integral of the current. -/
theorem charge_integral {p : Rat × Rat} {rest : List (Rat × Rat)} (h : Increasing (p :: rest)) :
    IntervalIntegrable (currentOf p rest) MeasureTheory.volume p.1 (final p rest).1 ∧
      ∫ t in (p.1 : ℝ)..(final p rest).1, currentOf p rest t = ((area p rest : Rat) : ℝ) := by
  have hreal := integral_interpolant (realKnot p) (rest.map realKnot) (increasing_real h)
  rw [final_real, area_real] at hreal
  exact hreal

/-- The parts of a chain that share the knot `q`. -/
theorem isChain_parts {R : Rat × Rat → Rat × Rat → Prop} {p q : Rat × Rat}
    {front back : List (Rat × Rat)} (h : List.IsChain R (p :: (front ++ q :: back))) :
    List.IsChain R (p :: (front ++ [q])) ∧ List.IsChain R (q :: back) := by
  constructor
  · refine List.IsChain.infix h ⟨[], back, ?_⟩
    simp
  · refine List.IsChain.infix h ⟨p :: front, [], ?_⟩
    simp

/-- **The summary.** Of every accepted capture the times increase, the charge is the
integral of the current, the average lies between the extremes, no gap is above the limit,
and the parts on the two sides of a row add up. -/
theorem capture_summary {file : Except String (CsvFile Rat)} {limits : CaptureLimits Rat}
    {summary : Summary Rat} (h : summarizeCapture file limits = .ok summary) :
    ∃ p rest, file = csvOf (p :: rest) ∧ Increasing (p :: rest) ∧
      summary.durationS = (final p rest).1 - p.1 ∧ 0 < summary.durationS ∧
      IntervalIntegrable (currentOf p rest) MeasureTheory.volume p.1 (final p rest).1 ∧
      summary.chargeC = ∫ t in (p.1 : ℝ)..(final p rest).1, currentOf p rest t ∧
      (∃ low peak, summary.minimumCurrentA = some low ∧ summary.peakCurrentA = some peak ∧
        (∀ knot ∈ p :: rest, low ≤ knot.2 ∧ knot.2 ≤ peak) ∧ low ≤ summary.averageCurrentA ∧
        summary.averageCurrentA ≤ peak) ∧
      ((p :: rest).IsChain fun a b => b.1 - a.1 ≤ limits.maximumSampleGapS) ∧
      ∀ front q back, rest = front ++ q :: back → back ≠ [] →
        (∃ shorter s₁ s₂, summarizeCapture (csvOf (p :: (front ++ [q])))
          { limits with minimumDurationS := shorter } = .ok s₁ ∧
          summarizeCapture (csvOf (q :: back))
            { limits with minimumDurationS := shorter } = .ok s₂) ∧
        ∀ limits₁ limits₂ s₁ s₂, summarizeCapture (csvOf (p :: (front ++ [q]))) limits₁ = .ok s₁ →
          summarizeCapture (csvOf (q :: back)) limits₂ = .ok s₂ →
            s₁.chargeC + s₂.chargeC = summary.chargeC ∧
            s₁.durationS + s₂.durationS = summary.durationS := by
  obtain ⟨p, rest, hmore, hfile, hincreasing, hlimits, rfl⟩ := summarizeCapture_ok.mp h
  have hpositive : 0 < (final p rest).1 - p.1 := lt_of_lt_of_le hlimits.duration hlimits.long
  obtain ⟨hintegrable, hintegral⟩ := charge_integral hincreasing
  have hdense := widest_le.mp hlimits.dense
  have hlow : lowest p rest ≤ area p rest / ((final p rest).1 - p.1) :=
    (le_div_iff₀ hpositive).mpr (area_ge hincreasing fun q hq => lowest_le hq)
  have hpeak : area p rest / ((final p rest).1 - p.1) ≤ highest p rest :=
    (div_le_iff₀ hpositive).mpr (area_le hincreasing fun q hq => le_highest hq)
  refine ⟨p, rest, hfile, hincreasing, rfl, hpositive, hintegrable, hintegral.symm,
    ⟨_, _, rfl, rfl, fun knot hknot => ⟨lowest_le hknot, le_highest hknot⟩, hlow, hpeak⟩,
      hdense.2, ?_⟩
  -- The row at which the capture is cut belongs to both parts.
  intro front q back hsplit hback
  subst hsplit
  obtain ⟨hfront, hlater⟩ : Increasing _ ∧ Increasing _ := isChain_parts hincreasing
  obtain ⟨hfrontDense, hlaterDense⟩ := isChain_parts hdense.2
  constructor
  · have hfirst :=
      sub_pos.mpr (hfront.final_lt (List.append_ne_nil_of_right_ne_nil _ (List.cons_ne_nil _ _)))
    have hsecond := sub_pos.mpr (hlater.final_lt hback)
    have hshort := lt_min hfirst hsecond
    have hone : widest p (front ++ [q]) ≤ limits.maximumSampleGapS :=
      widest_le.mpr ⟨hdense.1, hfrontDense⟩
    have hother : widest q back ≤ limits.maximumSampleGapS := widest_le.mpr ⟨hdense.1, hlaterDense⟩
    refine ⟨min ((final p (front ++ [q])).1 - p.1) ((final q back).1 - q.1), _, _,
      summarizeCapture_knots.mpr ⟨by simp, hfront,
        { supply := hlimits.supply, duration := hshort, gap := hlimits.gap, long := min_le_left _ _,
          dense := hone }, rfl⟩,
      summarizeCapture_knots.mpr ⟨hback, hlater,
        { supply := hlimits.supply, duration := hshort, gap := hlimits.gap,
          long := min_le_right _ _, dense := hother }, rfl⟩⟩
  · intro limits₁ limits₂ s₁ s₂ hs₁ hs₂
    obtain ⟨-, -, -, rfl⟩ := summarizeCapture_knots.mp hs₁
    obtain ⟨-, -, -, rfl⟩ := summarizeCapture_knots.mp hs₂
    simp only [Summary.ofKnots]
    refine ⟨(area_append p q front back).symm, ?_⟩
    rw [final_concat, final_append]
    ring

/-- Four rows a microsecond apart. -/
theorem capture_summary_rows :
    ∃ summary, summarizeCapture (csvOf [(0, 1 / 1000), (1 / 1000000, 3 / 1000),
      (2 / 1000000, 3 / 1000), (3 / 1000000, 1 / 1000)])
        { supplyVoltageV := 9 / 5, minimumDurationS := 3 / 1000000,
          maximumSampleGapS := 11 / 10000000 } = .ok summary ∧
      summary.chargeC = 7 / 1000000000 ∧ 0 < summary.durationS := by
  have hlimits : CaptureLimits.Admit
      { supplyVoltageV := 9 / 5, minimumDurationS := 3 / 1000000,
        maximumSampleGapS := 11 / 10000000 }
      (0, 1 / 1000) [(1 / 1000000, 3 / 1000), (2 / 1000000, 3 / 1000),
        (3 / 1000000, 1 / 1000)] := by
    constructor <;> norm_num [widest]
  have hincreasing : Increasing
      [((0 : Rat), (1 : Rat) / 1000), (1 / 1000000, 3 / 1000), (2 / 1000000, 3 / 1000),
        (3 / 1000000, 1 / 1000)] := by
    norm_num [Increasing]
  have haccepted := summarizeCapture_knots.mpr ⟨by simp, hincreasing, hlimits, rfl⟩
  obtain ⟨p, rest, -, -, -, hduration, -⟩ := capture_summary haccepted
  refine ⟨_, haccepted, ?_, hduration⟩
  norm_num [Summary.ofKnots]

/-! ## The meters' closed form -/

/-- The variables of `decode_capture` behind these currents. -/
def tallyOf (currents : List Rat) : Tally Rat := currents.foldl Tally.add Tally.start

/-- The rows a meter writes: one current each hundred-thousandth of a second. -/
def clockRows (currents : List Rat) : List (Rat × Rat) := steps 0 (1 / 100000) currents

theorem tallyOf_cons (current : Rat) (rest : List Rat) :
    tallyOf (current :: rest) =
      { total := (current :: rest).sum
        peak := some (highest (0, current) (steps (0 + 1 / 100000) (1 / 100000) rest))
        low := some (lowest (0, current) (steps (0 + 1 / 100000) (1 / 100000) rest))
        first := current
        last := (current :: rest).getLast (List.cons_ne_nil _ _)
        index := rest.length + 1
        rows := clockRows (current :: rest) } := by
  induction rest using List.reverseRecOn with
  | nil => simp [tallyOf, Tally.add, Tally.start, highest, lowest, steps, clockRows, higher, lower]
  | append_singleton rest last ih =>
    have hone : tallyOf (current :: (rest ++ [last])) = (tallyOf (current :: rest)).add last := by
      simp [tallyOf, List.foldl_append]
    have hrows : clockRows (current :: (rest ++ [last])) =
        clockRows (current :: rest) ++ [(((rest.length + 1 : Nat) : Rat) / 100000, last)] := by
      rw [clockRows, ← List.cons_append, steps_concat, List.length_cons, zero_add,
        one_div_mul_eq_div]
      rfl
    rw [hone, ih]
    simp only [Tally.add, higher_rat, lower_rat, steps_concat, highest_concat, lowest_concat, hrows,
      Number.ofRat_rat]
    simp [add_assoc]

theorem clockRows_eq (currents : List Rat) :
    clockRows currents = currents.mapIdx fun i current => ((i : Rat) / 100000, current) := by
  rw [clockRows, steps_eq_mapIdx]
  congr 1
  funext i current
  rw [zero_add, one_div_mul_eq_div]

/-- What `summarize_capture` says of the rows is what a meter's report says, and it accepts
them when the limits allow the sample clock. -/
structure Agrees (m : Measured Rat) (negativeSamples : Nat) (rows : List (Rat × Rat)) : Prop where
  numbers : ∀ limits summary, summarizeCapture (csvOf rows) limits = .ok summary →
    summary.chargeC = m.chargeC ∧ summary.durationS = m.durationS ∧
    summary.averageCurrentA = m.averageCurrentA ∧
      summary.minimumCurrentA = m.minimumCurrentA ∧ summary.peakCurrentA = m.peakCurrentA ∧
      summary.negativeSamples = negativeSamples ∧ summary.sampleCount = m.sampleCount
  accepted : ∀ limits : CaptureLimits Rat, 0 < limits.supplyVoltageV → 0 < limits.minimumDurationS →
    limits.minimumDurationS ≤ m.durationS → 1 / 100000 ≤ limits.maximumSampleGapS →
      ∃ summary, summarizeCapture (csvOf rows) limits = .ok summary

theorem tallyOf_agrees {currents : List Rat} (h : 2 ≤ currents.length) :
    Agrees (tallyOf currents).measured (currents.map negative).sum (tallyOf currents).rows := by
  match currents, h with
  | current :: next :: rest, _ =>
    have hknots : clockRows (current :: next :: rest) = (0, current) :: steps (0 + 1 / 100000)
        (1 / 100000) (next :: rest) := rfl
    have hclock : (0 : Rat) < 1 / 100000 := by norm_num
    have hincreasing :
        Increasing ((0, current) :: steps (0 + 1 / 100000) (1 / 100000) (next :: rest)) :=
      steps_increasing hclock 0 (current :: next :: rest)
    have hcharge : (tallyOf (current :: next :: rest)).chargeC =
        area (0, current) (steps (0 + 1 / 100000) (1 / 100000) (next :: rest)) := by
      rw [area_steps, tallyOf_cons]
      simp only [Tally.chargeC, Number.ofRat_rat]
      ring
    have hduration : (tallyOf (current :: next :: rest)).durationS =
        (final (0, current) (steps (0 + 1 / 100000) (1 / 100000) (next :: rest))).1 - 0 := by
      rw [final_steps_time, tallyOf_cons]
      simp only [Tally.durationS, Number.ofRat_rat]
      push_cast
      ring
    have hnegative : (((0, current) :: steps (0 + 1 / 100000) (1 / 100000) (next :: rest)).map
        fun knot => negative knot.2).sum =
        ((current :: next :: rest).map negative).sum := by
      have hvalues := steps_values (0 : Rat) (1 / 100000) (current :: next :: rest)
      rw [← hvalues, List.map_map]
      rfl
    constructor
    · intro limits summary hsummary
      rw [tallyOf_cons] at hsummary
      obtain ⟨-, -, -, rfl⟩ := summarizeCapture_knots.mp hsummary
      simp only [Tally.measured, Summary.ofKnots]
      refine ⟨hcharge.symm, hduration.symm, ?_, ?_, ?_, hnegative, ?_⟩
      · rw [hcharge, hduration]
      · rw [tallyOf_cons]
      · rw [tallyOf_cons]
      · rw [tallyOf_cons, steps_length]
    · intro limits hsupply hminimum hlong hdense
      rw [tallyOf_cons]
      refine ⟨_, summarizeCapture_knots.mpr ⟨List.cons_ne_nil _ _, hincreasing, ?_, rfl⟩⟩
      exact
        { supply := hsupply
          duration := hminimum
          gap := lt_of_lt_of_le hclock hdense
          long := le_of_le_of_eq hlong hduration
          dense := le_trans (widest_steps hclock _ _ _) hdense }

/-- **The two integrators.** For every list of at least two currents, and for whatever a
meter's raw file decodes to, the closed form and the summary of the rows are the same numbers. -/
theorem charge_integrators_agree :
    (∀ currents : List Rat, 2 ≤ currents.length →
      (tallyOf currents).rows = (currents.mapIdx fun i current => ((i : Rat) / 100000, current)) ∧
        Agrees (tallyOf currents).measured (currents.map negative).sum (tallyOf currents).rows) ∧
    (∀ data (metadata : String → Option Rat) voltageMv report rows,
      Ppk2.decodeCapture data metadata voltageMv = .ok (report, rows) →
      Agrees report.measured report.negativeSamples rows) ∧
    ∀ data (metadata : String → Option Rat) voltageMv report rows,
      Blu939.decodeCapture data metadata voltageMv = .ok (report, rows) →
      Agrees report.measured report.negativeSamples rows := by
  refine ⟨?_, ?_, ?_⟩
  · intro currents hlength
    refine ⟨?_, tallyOf_agrees hlength⟩
    match currents, hlength with
    | current :: rest, _ => rw [← clockRows_eq, tallyOf_cons]
  · intro data metadata voltageMv report rows h
    obtain ⟨currents, hlength, hmeasured, rfl, hcount⟩ := Ppk2.decodeCapture_ok h
    rw [hmeasured, hcount]
    exact tallyOf_agrees hlength
  · intro data metadata voltageMv report rows h
    obtain ⟨currents, hlength, hmeasured, rfl, hcount⟩ := Blu939.decodeCapture_ok h
    rw [hmeasured, hcount]
    exact tallyOf_agrees hlength

/-- Two samples: the mean of both over one period. -/
theorem charge_integrators_agree_two :
    ∃ summary, summarizeCapture (csvOf (tallyOf [1 / 1000, 3 / 1000]).rows)
        { supplyVoltageV := 3, minimumDurationS := 1 / 100000,
          maximumSampleGapS := 1 / 100000 } = .ok summary ∧
      summary.chargeC = 1 / 50000000 := by
  obtain ⟨-, hagrees⟩ := charge_integrators_agree.1 [1 / 1000, 3 / 1000] (by decide)
  obtain ⟨summary, hsummary⟩ := hagrees.accepted
    { supplyVoltageV := 3, minimumDurationS := 1 / 100000, maximumSampleGapS := 1 / 100000 }
      (by norm_num) (by norm_num)
    (by norm_num [Tally.measured, Tally.durationS, tallyOf_cons]) (by norm_num)
  refine ⟨summary, hsummary, ?_⟩
  rw [(hagrees.numbers _ _ hsummary).1]
  norm_num [Tally.measured, Tally.chargeC, tallyOf_cons]

end NrfKit.Tools
