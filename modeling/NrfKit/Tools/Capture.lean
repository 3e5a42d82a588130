import Mathlib.Data.List.Chain
import NrfKit.Lib.Bytes
import NrfKit.Lib.Python

/- What the two current meters record, decoded: `ppk2.py` and `blu939.py`.

   A sample is a 32-bit word: fourteen bits of the converter, three of the range and, on the
   PPK2, six of a counter. One loop feeds the words to a `Decoder` and keeps the running sum,
   the extremes and the rows of the CSV file; a decoder that raises ends it.

   What is proved of the PPK2 is `gap_detection`: an unbroken stream is accepted and its
   statistics are those of its words, and a block cut out of it is noticed unless the counter
   comes round to the same value. It holds for any arithmetic. -/
namespace NrfKit.Tools
open Bytes Python

/-- `struct.iter_unpack("<I", data)`. -/
def iterUnpack : List UInt8 → List Nat
  | a :: b :: c :: d :: rest => littleEndian [a, b, c, d] :: iterUnpack rest
  | _ => []

/-- The words of a file read by chunks of 65536 bytes. -/
def captureWords (data : List UInt8) : List Nat :=
  if data = [] then [] else iterUnpack (data.take 65536) ++ captureWords (data.drop 65536)
termination_by data.length
decreasing_by
  have hlen : data.length ≠ 0 := by simpa using ‹¬ data = []›
  simp only [List.length_drop]
  omega

section
variable {F : Type} [Add F] [Sub F] [Mul F] [Div F] [Number F]
open Number

/-- The variables of the loop in `decode_capture`; a minimum or peak of `none` is still infinite. -/
structure Tally (F : Type) where
  total : F
  peak : Option F
  low : Option F
  first : F
  last : F
  index : Nat
  rows : List (F × F)

def Tally.start : Tally F :=
  { total := ofRat 0, peak := none, low := none, first := ofRat 0, last := ofRat 0,
    index := 0, rows := [] }

/-- `min(low, current)`. -/
def lower (low : Option F) (current : F) : F :=
  match low with
  | none => current
  | some low => if less current low then current else low

/-- `max(peak, current)`. -/
def higher (peak : Option F) (current : F) : F :=
  match peak with
  | none => current
  | some peak => if less peak current then current else peak

/-- One turn of the loop behind `decoder.sample`. -/
def Tally.add (t : Tally F) (current : F) : Tally F :=
  { total := t.total + current
    peak := some (higher t.peak current)
    low := some (lower t.low current)
    first := if t.index = 0 then current else t.first
    last := current
    index := t.index + 1
    rows := t.rows ++ [(ofRat (t.index / 100000), current)] }

/-- The loop over the words: what was raised, and the decoder and the variables it left. -/
def decodeWords {D : Type} (sample : D → Nat → Except Raised F × D) (decoder : D) (t : Tally F) :
    List Nat → Option Raised × D × Tally F
  | [] => (none, decoder, t)
  | word :: rest =>
    match sample decoder word with
    | (.error e, decoder) => (some e, decoder, t)
    | (.ok current, decoder) => decodeWords sample decoder (t.add current) rest

/-- The part of the report that both meters have. -/
structure Measured (F : Type) where
  sampleCount : Nat
  durationS : F
  averageCurrentA : F
  minimumCurrentA : Option F
  peakCurrentA : Option F
  chargeC : F

def Tally.durationS (t : Tally F) : F := ofRat (((t.index : Rat) - 1) / 100000)

/-- The sum with half of the first and the last sample taken off, over the rate. -/
def Tally.chargeC (t : Tally F) : F := (t.total - (t.first + t.last) / ofRat 2) / ofRat 100000

def Tally.measured (t : Tally F) : Measured F :=
  { sampleCount := t.index
    durationS := t.durationS
    averageCurrentA := t.chargeC / t.durationS
    minimumCurrentA := t.low
    peakCurrentA := t.peak
    chargeC := t.chargeC }

/-- `(word >> 14) & 7`. -/
def encodedRange (word : Nat) : Nat := word / 2 ^ 14 % 8

/-- `(word & 0x3fff) * 4`. -/
def adcCode (word : Nat) : F := ofRat ((word % 2 ^ 14 * 4 : Nat) : Rat)

/-- `self.range_counts[current_range] += 1`. -/
def countRange (counts : List Nat) (range : Nat) : List Nat := counts.modify range (· + 1)

/-- `int(previous is not None and previous != current)`. -/
def rangeChange (previous : Option Nat) (range : Nat) : Nat :=
  if previous.any (· ≠ range) then 1 else 0

/-- `int(current < 0)`. -/
def negative (current : F) : Nat := if less current (ofRat 0) then 1 else 0

namespace Ppk2

/-- The coefficients of a range. -/
inductive Key
  | r | gs | gi | o | s | i | ug
  deriving DecidableEq, Repr

def Key.all : List Key := [.r, .gs, .gi, .o, .s, .i, .ug]

def Key.text : Key → String
  | r => "r"
  | gs => "gs"
  | gi => "gi"
  | o => "o"
  | s => "s"
  | i => "i"
  | ug => "ug"

def coefficientName (key : Key) (index : Nat) : String := key.text ++ toString index

/-- The defaults of the ranges. -/
def defaults : Key → List Rat
  | .r => [1031.64, 101.65, 10.15, 0.94, 0.043]
  | .gs => [1, 1, 1, 1, 1]
  | .gi => [1, 1, 1, 1, 1]
  | .o => [0, 0, 0, 0, 0]
  | .s => [0, 0, 0, 0, 0]
  | .i => [0, 0, 0, 0, 0]
  | .ug => [1, 1, 1, 1, 1]

/-- A finite number under the coefficient's name; the metadata give `none` for what is no number. -/
def reported (metadata : String → Option F) (key : Key) (index : Nat) : Option F :=
  (metadata (coefficientName key index)).filter fun value => isFinite value

/-- The value in use. -/
def coefficient (metadata : String → Option F) (key : Key) (index : Nat) : F :=
  (reported metadata key index).getD (ofRat ((defaults key).getD index 0))

def defaultedOf (metadata : String → Option F) (key : Key) : List String :=
  ((List.range 5).filter fun index => (reported metadata key index).isNone).map
    (coefficientName key)

structure Decoder (F : Type) where
  coefficients : Key → Nat → F
  defaulted : List String
  voltageV : F
  previousCounter : Option Nat
  previousRange : Option Nat
  rangeTransitions : Nat
  rangeCounts : List Nat
  negativeSamples : Nat

/-- `Decoder(metadata, voltage_mv)`. -/
def Decoder.init (metadata : String → Option F) (voltageMv : Int) : Except Raised (Decoder F) :=
  if (List.range 5).any fun index => atMost (coefficient metadata .r index) (ofRat 0) then
    .error ⟨"Ppk2Error", "PPK2 calibration contains a nonpositive resistor"⟩
  else
    .ok
      { coefficients := coefficient metadata
        defaulted := Key.all.flatMap (defaultedOf metadata)
        voltageV := ofRat ((voltageMv : Rat) / 1000)
        previousCounter := none
        previousRange := none
        rangeTransitions := 0
        rangeCounts := List.replicate 5 0
        negativeSamples := 0 }

/-- `(word >> 18) & 63`. -/
def counter (word : Nat) : Nat := word / 2 ^ 18 % 64

/-- The current of a word by its range's coefficients. -/
def Decoder.current (d : Decoder F) (word : Nat) : F :=
  let c := fun key => d.coefficients key (encodedRange word)
  let raw := (adcCode word - c .o) * (ofRat 1.8 / ofRat 163840) / c .r
  c .ug * (raw * (c .gs * raw + c .gi) + c .s * d.voltageV + c .i)

def discontinuity : Raised :=
  ⟨"Ppk2Error", "PPK2 sample-counter discontinuity; capture is not gap-free"⟩

/-- `Decoder.sample`. -/
def Decoder.sample (d : Decoder F) (word : Nat) : Except Raised F × Decoder F :=
  if d.previousCounter.any fun previous => counter word ≠ (previous + 1) % 64 then
    (.error discontinuity, d)
  else
    let d := { d with previousCounter := some (counter word) }
    let range := encodedRange word
    if 5 ≤ range then (.error ⟨"Ppk2Error", "invalid PPK2 current range"⟩, d)
    else
      let d :=
        { d with
          rangeCounts := countRange d.rangeCounts range
          rangeTransitions := d.rangeTransitions + rangeChange d.previousRange range
          previousRange := some range }
      let current := d.current word
      if isFinite current then
        (.ok current, { d with negativeSamples := d.negativeSamples + negative current })
      else (.error ⟨"Ppk2Error", "PPK2 calibration produced a nonfinite current"⟩, d)

structure Report (F : Type) where
  measured : Measured F
  rangeTransitions : Nat
  rangeSampleCounts : List Nat
  negativeSamples : Nat
  estimatedEnergyJ : F
  defaultedCoefficients : List String
  calibrated : Bool

/-- `decode_capture` of the raw file's bytes: the report and the rows of the CSV file. -/
def decodeCapture (data : List UInt8) (metadata : String → Option F) (voltageMv : Int) :
    Except Raised (Report F × List (F × F)) := do
  let decoder ← Decoder.init metadata voltageMv
  raiseIf (data.length < 8 ∨ data.length % 4 ≠ 0)
    ⟨"Ppk2Error", "PPK2 capture must contain complete 32-bit samples"⟩
  match decodeWords Decoder.sample decoder Tally.start (captureWords data) with
  | (some e, _) => .error e
  | (none, decoder, t) =>
    .ok
      ({ measured := t.measured
         rangeTransitions := decoder.rangeTransitions
         rangeSampleCounts := decoder.rangeCounts
         negativeSamples := decoder.negativeSamples
         estimatedEnergyJ := t.chargeC * ofRat voltageMv / ofRat 1000
         defaultedCoefficients := decoder.defaulted
         calibrated := (metadata "calibrated").any fun value =>
           atMost value (ofRat 1) && atMost (ofRat 1) value },
       t.rows)

end Ppk2

namespace Blu939

structure Decoder (F : Type) where
  resistors : List F
  offsets : List F
  voltageV : F
  previousRange : Option Nat
  rangeTransitions : Nat
  rangeCounts : List Nat
  saturatedRangeSamples : Nat
  negativeSamples : Nat

/-- The resistor and the offset of a range where the metadata have both. -/
def calibration (metadata : String → Option F) (index : Nat) : Option (F × F) :=
  match metadata ("r" ++ toString index), metadata ("o" ++ toString index) with
  | some resistor, some offset =>
    if isFinite resistor && !atMost resistor (ofRat 0) && isFinite offset then
      some (resistor, offset) else none
  | _, _ => none

/-- `Decoder(metadata, voltage_mv)`. -/
def Decoder.init (metadata : String → Option F) (voltageMv : Int) : Except Raised (Decoder F) :=
  match (List.range 6).mapM (calibration metadata) with
  | none => .error ⟨"Blu939Error", "invalid BLU939 calibration metadata"⟩
  | some pairs =>
    .ok
      { resistors := pairs.map Prod.fst
        offsets := pairs.map Prod.snd
        voltageV := ofRat ((voltageMv : Rat) / 1000)
        previousRange := none
        rangeTransitions := 0
        rangeCounts := List.replicate 6 0
        saturatedRangeSamples := 0
        negativeSamples := 0 }

/-- `Decoder.sample`. -/
def Decoder.sample (d : Decoder F) (word : Nat) : Except Raised F × Decoder F :=
  let range := min (encodedRange word) 5
  let d :=
    { d with
      saturatedRangeSamples := d.saturatedRangeSamples + if 5 < encodedRange word then 1 else 0
      rangeCounts := countRange d.rangeCounts range
      rangeTransitions := d.rangeTransitions + rangeChange d.previousRange range
      previousRange := some range }
  let current :=
    (adcCode word - d.offsets.getD range (ofRat 0)) * (ofRat 1.8 / ofRat 163840) / d.resistors.getD
      range (ofRat 0)
  if isFinite current then
    (.ok current, { d with negativeSamples := d.negativeSamples + negative current })
  else (.error ⟨"Blu939Error", "BLU939 calibration produced a nonfinite current"⟩, d)

structure Report (F : Type) where
  measured : Measured F
  rangeTransitions : Nat
  rangeSampleCounts : List Nat
  saturatedRangeSamples : Nat
  negativeSamples : Nat
  estimatedEnergyJ : F

/-- `decode_capture` of the raw file's bytes: the report and the rows of the CSV file. -/
def decodeCapture (data : List UInt8) (metadata : String → Option F) (voltageMv : Int) :
    Except Raised (Report F × List (F × F)) := do
  let decoder ← Decoder.init metadata voltageMv
  raiseIf (data.length < 8 ∨ data.length % 4 ≠ 0)
    ⟨"Blu939Error", "BLU939 capture must contain complete 32-bit samples"⟩
  match decodeWords Decoder.sample decoder Tally.start (captureWords data) with
  | (some e, _) => .error e
  | (none, decoder, t) =>
    .ok
      ({ measured := t.measured
         rangeTransitions := decoder.rangeTransitions
         rangeSampleCounts := decoder.rangeCounts
         saturatedRangeSamples := decoder.saturatedRangeSamples
         negativeSamples := decoder.negativeSamples
         estimatedEnergyJ := t.chargeC * decoder.voltageV },
       t.rows)

end Blu939

end

/-! ## The loop -/

section
variable {F : Type} [Add F] [Number F]

@[simp] theorem Tally.add_index (t : Tally F) (current : F) :
    (t.add current).index = t.index + 1 := rfl

theorem foldl_add_index (t : Tally F) (currents : List F) :
    (currents.foldl Tally.add t).index = t.index + currents.length := by
  induction currents generalizing t with
  | nil => rfl
  | cons current rest ih =>
    rw [List.foldl_cons, ih, Tally.add_index, List.length_cons]
    omega

/-- Behind words it accepts, the loop goes on with what they left. -/
theorem decodeWords_append {D : Type} {sample : D → Nat → Except Raised F × D}
    {d d' : D} {t t' : Tally F} {front : List Nat} (back : List Nat)
    (h : decodeWords sample d t front = (none, d', t')) :
    decodeWords sample d t (front ++ back) = decodeWords sample d' t' back := by
  induction front generalizing d t with
  | nil =>
    obtain ⟨rfl, rfl⟩ : d = d' ∧ t = t' := by simpa [decodeWords] using h
    rfl
  | cons word rest ih =>
    rw [List.cons_append, decodeWords]
    rw [decodeWords] at h
    generalize sample d word = taken at h ⊢
    obtain ⟨answer, next⟩ := taken
    cases answer with
    | error e => simp at h
    | ok current => exact ih h

/-- What the loop accepts is the currents it took, and the decoder counts the negative ones. -/
theorem decodeWords_currents {D : Type} {sample : D → Nat → Except Raised F × D} {counted : D → Nat}
    (hcounted : ∀ d word current next, sample d word = (.ok current, next) →
      counted next = counted d + negative current) {d d' : D} {t t' : Tally F} {words : List Nat}
    (h : decodeWords sample d t words = (none, d', t')) :
    ∃ currents : List F, currents.length = words.length ∧ t' = currents.foldl Tally.add t ∧
      counted d' = counted d + (currents.map negative).sum := by
  induction words generalizing d t with
  | nil =>
    obtain ⟨rfl, rfl⟩ : d = d' ∧ t = t' := by simpa [decodeWords] using h
    exact ⟨[], rfl, rfl, rfl⟩
  | cons word rest ih =>
    rw [decodeWords] at h
    cases hsample : sample d word with
    | mk answer next =>
      rw [hsample] at h
      cases answer with
      | error e => simp at h
      | ok current =>
        obtain ⟨currents, hlength, htally, hcount⟩ := ih h
        refine ⟨current :: currents, congrArg Nat.succ hlength, htally, ?_⟩
        rw [hcount, hcounted d word current next hsample, List.map_cons, List.sum_cons,
          Nat.add_assoc]

theorem iterUnpack_append (front back : List UInt8) (h : 4 ∣ front.length) :
    iterUnpack (front ++ back) = iterUnpack front ++ iterUnpack back := by
  induction front using iterUnpack.induct with
  | case1 a b c d rest ih =>
    have hrest : 4 ∣ rest.length := by
      simp only [List.length_cons] at h
      omega
    simp only [List.cons_append, iterUnpack, ih hrest]
  | case2 front hshort =>
    match front, h, hshort with
    | [], _, _ => simp [iterUnpack]
    | [_], h, _ => simp at h
    | [_, _], h, _ => simp at h
    | [_, _, _], h, _ => simp at h
    | a :: b :: c :: d :: rest, _, hshort => exact absurd rfl (hshort a b c d rest)

/-- How the file is cut into chunks does not matter. -/
theorem captureWords_eq (data : List UInt8) (h : 4 ∣ data.length) :
    captureWords data = iterUnpack data := by
  induction data using captureWords.induct with
  | case1 => simp [captureWords, iterUnpack]
  | case2 data hdata ih =>
    have hrest : 4 ∣ (data.drop 65536).length := by
      rw [List.length_drop]
      omega
    rw [captureWords, if_neg hdata, ih hrest]
    by_cases hlen : data.length ≤ 65536
    · rw [List.take_of_length_le hlen, List.drop_eq_nil_of_le hlen]
      simp [iterUnpack]
    · have hfront : 4 ∣ (data.take 65536).length := by
        rw [List.length_take]
        omega
      rw [← iterUnpack_append _ _ hfront, List.take_append_drop]

theorem iterUnpack_length (data : List UInt8) (h : 4 ∣ data.length) :
    4 * (iterUnpack data).length = data.length := by
  induction data using iterUnpack.induct with
  | case1 a b c d rest ih =>
    simp only [List.length_cons] at h
    have hrest := ih (by omega)
    simp only [iterUnpack, List.length_cons]
    omega
  | case2 data hshort =>
    match data, h, hshort with
    | [], _, _ => rfl
    | [_], h, _ => simp at h
    | [_, _], h, _ => simp at h
    | [_, _, _], h, _ => simp at h
    | a :: b :: c :: d :: rest, _, hshort => exact absurd rfl (hshort a b c d rest)

/-- The loop over a whole file takes at least two currents. -/
theorem captureWords_currents {D : Type} {sample : D → Nat → Except Raised F × D}
    {counted : D → Nat} (hcounted : ∀ d word current next, sample d word = (.ok current, next) →
      counted next = counted d + negative current) {d d' : D} {t : Tally F} {data : List UInt8}
    (hfresh : counted d = 0) (hsize : ¬ (data.length < 8 ∨ data.length % 4 ≠ 0))
    (h : decodeWords sample d Tally.start (captureWords data) = (none, d', t)) :
    ∃ currents : List F, 2 ≤ currents.length ∧ t = currents.foldl Tally.add Tally.start ∧
      counted d' = (currents.map negative).sum := by
  have hwhole : 4 ∣ data.length := by omega
  rw [captureWords_eq data hwhole] at h
  obtain ⟨currents, hlength, htally, hcount⟩ := decodeWords_currents hcounted h
  have hwords := iterUnpack_length data hwhole
  refine ⟨currents, by omega, htally, ?_⟩
  rw [hcount, hfresh, Nat.zero_add]

theorem countRange_sum (counts : List Nat) {range : Nat} (h : range < counts.length) :
    (countRange counts range).sum = counts.sum + 1 := by
  unfold countRange
  induction counts generalizing range with
  | nil => simp at h
  | cons count rest ih =>
    cases range with
    | zero =>
      simp only [List.modify_zero_cons, List.sum_cons]
      omega
    | succ range =>
      simp only [List.modify_succ_cons, List.sum_cons, ih (Nat.lt_of_succ_lt_succ h)]
      omega

end

/-! ## What a report is of -/

section
variable {F : Type} [Add F] [Sub F] [Mul F] [Div F] [Number F]
open Number

theorem Ppk2.Decoder.sample_counted (d : Ppk2.Decoder F) (word : Nat) (current : F)
    (next : Ppk2.Decoder F) (h : d.sample word = (.ok current, next)) :
    next.negativeSamples = d.negativeSamples + negative current := by
  unfold Decoder.sample at h
  split at h
  · nomatch h
  · dsimp only at h
    split at h
    · nomatch h
    · split at h
      · obtain ⟨rfl, rfl⟩ : _ = current ∧ _ = next := by simpa using h
        rfl
      · nomatch h

omit [Add F] in
theorem Blu939.Decoder.sample_counted (d : Blu939.Decoder F) (word : Nat)
    (current : F) (next : Blu939.Decoder F) (h : d.sample word = (.ok current, next)) :
    next.negativeSamples = d.negativeSamples + negative current := by
  unfold Decoder.sample at h
  dsimp only at h
  split at h
  · obtain ⟨rfl, rfl⟩ : _ = current ∧ _ = next := by simpa using h
    rfl
  · nomatch h

theorem Ppk2.decodeCapture_ok {data : List UInt8} {metadata : String → Option F}
    {voltageMv : Int} {report : Ppk2.Report F} {rows : List (F × F)}
    (h : Ppk2.decodeCapture data metadata voltageMv = .ok (report, rows)) :
    ∃ currents : List F, 2 ≤ currents.length ∧
      report.measured = (currents.foldl Tally.add Tally.start).measured ∧
      rows = (currents.foldl Tally.add Tally.start).rows ∧
      report.negativeSamples = (currents.map negative).sum := by
  obtain ⟨d, hinit, h⟩ := bind_ok.mp h
  obtain ⟨_, hsize, h⟩ := bind_ok.mp h
  have hfresh : d.negativeSamples = 0 := by
    unfold Decoder.init at hinit
    split at hinit
    · nomatch hinit
    · obtain rfl := Except.ok.inj hinit
      rfl
  split at h
  · nomatch h
  · rename_i left t hloop
    obtain ⟨rfl, rfl⟩ : _ = report ∧ t.rows = rows := by simpa using h
    obtain ⟨currents, hlength, rfl, hcount⟩ :=
      captureWords_currents Decoder.sample_counted hfresh (raiseIf_ok.mp hsize) hloop
    exact ⟨currents, hlength, rfl, rfl, hcount⟩

theorem Blu939.decodeCapture_ok {data : List UInt8} {metadata : String → Option F}
    {voltageMv : Int} {report : Blu939.Report F} {rows : List (F × F)}
    (h : Blu939.decodeCapture data metadata voltageMv = .ok (report, rows)) :
    ∃ currents : List F, 2 ≤ currents.length ∧
      report.measured = (currents.foldl Tally.add Tally.start).measured ∧
      rows = (currents.foldl Tally.add Tally.start).rows ∧
      report.negativeSamples = (currents.map negative).sum := by
  obtain ⟨d, hinit, h⟩ := bind_ok.mp h
  obtain ⟨_, hsize, h⟩ := bind_ok.mp h
  have hfresh : d.negativeSamples = 0 := by
    unfold Decoder.init at hinit
    split at hinit
    · nomatch hinit
    · obtain rfl := Except.ok.inj hinit
      rfl
  split at h
  · nomatch h
  · rename_i left t hloop
    obtain ⟨rfl, rfl⟩ : _ = report ∧ t.rows = rows := by simpa using h
    obtain ⟨currents, hlength, rfl, hcount⟩ :=
      captureWords_currents Decoder.sample_counted hfresh (raiseIf_ok.mp hsize) hloop
    exact ⟨currents, hlength, rfl, rfl, hcount⟩

end

/-! ## Gaps -/

section
variable {F : Type} [Add F] [Sub F] [Mul F] [Div F] [Number F]
open Number

namespace Ppk2

/-- The decoder behind a word it accepts. -/
def Decoder.next (d : Decoder F) (word : Nat) : Decoder F :=
  { d with
    previousCounter := some (counter word)
    rangeCounts := countRange d.rangeCounts (encodedRange word)
    rangeTransitions := d.rangeTransitions + rangeChange d.previousRange (encodedRange word)
    previousRange := some (encodedRange word)
    negativeSamples := d.negativeSamples + negative (d.current word) }

@[simp] theorem Decoder.next_current (d : Decoder F) (word : Nat) :
    (d.next word).current = d.current := rfl

/-- The word's counter is the one after the decoder's. -/
def Decoder.Expects (d : Decoder F) (word : Nat) : Prop :=
  ∀ previous, d.previousCounter = some previous → counter word = (previous + 1) % 64

/-- Valid ranges, and finite currents under the decoder's calibration. -/
structure Decoder.Valid (d : Decoder F) (words : List Nat) : Prop where
  ranges : ∀ word ∈ words, encodedRange word < 5
  finite : ∀ word ∈ words, isFinite (d.current word) = true

/-- The counters are consecutive modulo 64. -/
def Unbroken (words : List Nat) : Prop := words.IsChain fun word next =>
      counter next = (counter word + 1) % 64

theorem Decoder.sample_next {d : Decoder F} {word : Nat} (hcounter : d.Expects word)
    (hrange : encodedRange word < 5) (hfinite : isFinite (d.current word) = true) :
    d.sample word = (.ok (d.current word), d.next word) := by
  have hagrees :
      ¬ (d.previousCounter.any fun previous => counter word ≠ (previous + 1) % 64) = true := by
    cases hprevious : d.previousCounter with
    | none => simp
    | some previous => simpa using hcounter previous hprevious
  unfold Decoder.sample
  rw [if_neg hagrees]
  dsimp only
  rw [if_neg (Nat.not_le.mpr hrange)]
  exact if_pos hfinite

/-- Only a counter out of step is a discontinuity, and then nothing changes. -/
theorem Decoder.sample_gap {d : Decoder F} {word previous : Nat}
    (hprevious : d.previousCounter = some previous) (h : counter word ≠ (previous + 1) % 64) :
    d.sample word = (.error discontinuity, d) := by
  unfold Decoder.sample
  rw [hprevious]
  exact if_pos (by simpa using h)

/-- An unbroken stream is accepted to its end. -/
theorem decodeWords_accepts {d : Decoder F} {words : List Nat} (t : Tally F)
    (hunbroken : Unbroken words) (hhead : ∀ word ∈ words.head?, d.Expects word)
    (hvalid : d.Valid words) :
    decodeWords Decoder.sample d t words =
      (none, words.foldl Decoder.next d, (words.map d.current).foldl Tally.add t) := by
  induction words generalizing d t with
  | nil => rfl
  | cons word rest ih =>
    have hsample := Decoder.sample_next (hhead word rfl) (hvalid.ranges word (by simp))
      (hvalid.finite word (by simp))
    have hnext : ∀ next ∈ rest.head?, (d.next word).Expects next := by
      intro next hmem previous hprevious
      obtain rfl : counter word = previous := by simpa [Decoder.next] using hprevious
      exact (List.isChain_cons.mp hunbroken).1 next hmem
    have hrest : (d.next word).Valid rest :=
      { ranges := fun w hw => hvalid.ranges w (List.mem_cons_of_mem _ hw)
        finite := fun w hw => hvalid.finite w (List.mem_cons_of_mem _ hw) }
    rw [decodeWords, hsample]
    exact ih _ (List.isChain_cons.mp hunbroken).2 hnext hrest

/-- How often the range changes, from the previous one on. -/
def transitions : Option Nat → List Nat → Nat
  | _, [] => 0
  | previous, word :: rest =>
    rangeChange previous (encodedRange word) + transitions (some (encodedRange word)) rest

/-- The number of adjacent words with different ranges. -/
def rangeChanges (words : List Nat) : Nat :=
  (words.zip words.tail).countP fun pair => encodedRange pair.1 ≠ encodedRange pair.2

theorem transitions_some (word : Nat) (rest : List Nat) :
    transitions (some (encodedRange word)) rest = rangeChanges (word :: rest) := by
  induction rest generalizing word with
  | nil => rfl
  | cons next rest ih =>
    rw [transitions, ih]
    simp only [rangeChanges, List.tail_cons, List.zip_cons_cons, List.countP_cons, rangeChange,
      Option.any_some]
    omega

theorem transitions_none (words : List Nat) : transitions none words = rangeChanges words := by
  cases words with
  | nil => rfl
  | cons word rest =>
    rw [transitions, transitions_some]
    simp [rangeChange]

theorem foldl_next_transitions (d : Decoder F) (words : List Nat) :
    (words.foldl Decoder.next d).rangeTransitions = d.rangeTransitions +
      transitions d.previousRange words := by
  induction words generalizing d with
  | nil => rfl
  | cons word rest ih =>
    rw [List.foldl_cons, ih, transitions]
    simp only [Decoder.next]
    omega

theorem foldl_next_counts (d : Decoder F) {words : List Nat} (hsize : d.rangeCounts.length = 5)
    (hranges : ∀ word ∈ words, encodedRange word < 5) :
    (words.foldl Decoder.next d).rangeCounts.sum = d.rangeCounts.sum + words.length := by
  induction words generalizing d with
  | nil => rfl
  | cons word rest ih =>
    have hword : encodedRange word < d.rangeCounts.length := by
      rw [hsize]
      exact hranges word (by simp)
    have hnext : (d.next word).rangeCounts.sum = d.rangeCounts.sum + 1 := countRange_sum _ hword
    have hkept : (d.next word).rangeCounts.length = 5 := by
      simpa [Decoder.next, countRange] using hsize
    rw [List.foldl_cons, ih _ hkept fun w hw => hranges w (List.mem_cons_of_mem _ hw), hnext,
      List.length_cons]
    omega

theorem foldl_next_counter (d : Decoder F) (front : List Nat) (word : Nat) :
    ((front ++ [word]).foldl Decoder.next d).previousCounter = some (counter word) := by
  simp [List.foldl_append, Decoder.next]

theorem counter_lt (word : Nat) : counter word < 64 := Nat.mod_lt _ (by decide)

/-- Behind a block of `k` words the counter has gone `k + 1` on. -/
theorem Unbroken.counter {word next : Nat} {block : List Nat}
    (h : Unbroken (word :: (block ++ [next]))) :
    counter next = (counter word + block.length + 1) % 64 := by
  induction block generalizing word with
  | nil => simpa [Unbroken] using h
  | cons first rest ih =>
    obtain ⟨hfirst, hrest⟩ := List.isChain_cons_cons.mp h
    rw [ih hrest, hfirst, List.length_cons]
    omega

/-- Without the block, the next counter is the expected one when the block is whole rounds. -/
theorem Unbroken.cut {word next : Nat} {block : List Nat}
    (h : Unbroken (word :: (block ++ [next]))) :
    Ppk2.counter next = (Ppk2.counter word + 1) % 64 ↔ 64 ∣ block.length := by
  have hword := counter_lt word
  rw [h.counter]
  omega

theorem Decoder.Valid.mono {d : Decoder F} {words fewer : List Nat} (h : d.Valid words)
    (hsub : fewer ⊆ words) : d.Valid fewer :=
  { ranges := fun word hword => h.ranges word (hsub hword)
    finite := fun word hword => h.finite word (hsub hword) }

/-- The loop of a fresh decoder over a stream with a block cut out. -/
theorem decodeWords_cut {d : Decoder F} (hfresh : d.previousCounter = none)
    (t : Tally F) {front block back : List Nat} (hunbroken : Unbroken (front ++ block ++ back))
    (hvalid : d.Valid (front ++ block ++ back)) (hfront : front ≠ []) (hback : back ≠ []) :
    decodeWords Decoder.sample d t (front ++ back) =
      if 64 ∣ block.length then
        (none, (front ++ back).foldl Decoder.next d,
          ((front ++ back).map d.current).foldl Tally.add t)
      else (some discontinuity, front.foldl Decoder.next d,
        (front.map d.current).foldl Tally.add t) := by
  have hexpects : ∀ word, d.Expects word := by
    intro word previous hprevious
    rw [hfresh] at hprevious
    nomatch hprevious
  obtain ⟨before, word, rfl⟩ : ∃ before word, front = before ++ [word] :=
    ⟨_, _, (List.dropLast_append_getLast hfront).symm⟩
  obtain ⟨next, rest, rfl⟩ := List.exists_cons_of_ne_nil hback
  -- the counters on the two sides of the cut
  have hparts := List.isChain_append.mp hunbroken
  have hkept : Unbroken (before ++ [word]) := (List.isChain_append.mp hparts.1).1
  have haround : Unbroken (word :: (block ++ [next])) := by
    refine List.IsChain.infix hunbroken ⟨before, rest, ?_⟩
    simp
  split
  · rename_i hrounds
    have hjoined : Unbroken ((before ++ [word]) ++ next :: rest) := by
      refine List.isChain_append.mpr ⟨hkept, hparts.2.1, ?_⟩
      simpa using haround.cut.mpr hrounds
    refine decodeWords_accepts t hjoined (fun word _ => hexpects word) (hvalid.mono ?_)
    intro w hw
    simp only [List.mem_append, List.mem_singleton] at hw ⊢
    tauto
  · rename_i hrounds
    have hgap : counter next ≠ (counter word + 1) % 64 := fun h => hrounds (haround.cut.mp h)
    have hreached :=
      decodeWords_accepts t hkept (fun word _ => hexpects word) (hvalid.mono fun w hw => by
      simp only [List.mem_append] at hw ⊢
      exact .inl (.inl hw))
    rw [decodeWords_append _ hreached, decodeWords,
      Decoder.sample_gap (foldl_next_counter d before word) hgap]

omit [Add F] [Sub F] [Mul F] [Div F] in
theorem Decoder.init_ok {metadata : String → Option F} {voltageMv : Int} {d : Decoder F}
    (h : Decoder.init metadata voltageMv = .ok d) :
    d.previousCounter = none ∧ d.previousRange = none ∧ d.rangeTransitions = 0 ∧
    d.rangeCounts = List.replicate 5 0 := by
  unfold Decoder.init at h
  split at h
  · nomatch h
  · obtain rfl := Except.ok.inj h
    exact ⟨rfl, rfl, rfl, rfl⟩

/-- A file of whole words is decoded by the loop over them. -/
theorem decodeCapture_words {metadata : String → Option F} {voltageMv : Int} {d : Decoder F}
    {data : List UInt8} (hinit : Decoder.init metadata voltageMv = .ok d) (hwhole : 4 ∣ data.length)
    (hsize : 2 ≤ (iterUnpack data).length) :
    decodeCapture data metadata voltageMv =
      match decodeWords Decoder.sample d Tally.start (iterUnpack data) with
      | (some e, _) => .error e
      | (none, left, t) =>
        .ok
          ({ measured := t.measured
             rangeTransitions := left.rangeTransitions
             rangeSampleCounts := left.rangeCounts
             negativeSamples := left.negativeSamples
             estimatedEnergyJ := t.chargeC * ofRat voltageMv / ofRat 1000
             defaultedCoefficients := left.defaulted
             calibrated := (metadata "calibrated").any fun value =>
               atMost value (ofRat 1) && atMost (ofRat 1) value },
           t.rows) := by
  have hlen := iterUnpack_length data hwhole
  have hcomplete : ¬ (data.length < 8 ∨ data.length % 4 ≠ 0) := by omega
  unfold decodeCapture
  rw [hinit, raiseIf, if_neg hcomplete, captureWords_eq data hwhole]
  rfl

/-- **Lost samples.** An unbroken stream of valid words is accepted, counted word by word and
change by change; with a block cut out of it the decoder raises at the cut unless the block
is whole rounds of the counter. -/
theorem gap_detection {metadata : String → Option F} {voltageMv : Int} {decoder : Decoder F}
    (hinit : Decoder.init metadata voltageMv = .ok decoder) {words : List Nat}
    (hunbroken : Unbroken words) (hvalid : decoder.Valid words) :
    (∃ left t, decodeWords Decoder.sample decoder Tally.start words = (none, left, t) ∧
      t.index = words.length ∧
      left.rangeCounts.sum = words.length ∧ left.rangeTransitions = rangeChanges words) ∧
    (∀ data, 4 ∣ data.length → iterUnpack data = words → 2 ≤ words.length →
      ∃ report rows, decodeCapture data metadata voltageMv = .ok (report, rows) ∧
        report.measured.sampleCount = words.length ∧ report.rangeSampleCounts.sum = words.length ∧
        report.rangeTransitions = rangeChanges words) ∧
    ∀ front block back, words = front ++ block ++ back → front ≠ [] → back ≠ [] →
      ((∃ left t, decodeWords Decoder.sample decoder Tally.start (front ++ back) =
        (some discontinuity, left, t) ∧
        t.index = front.length) ↔ ¬ 64 ∣ block.length) ∧
      ∀ data, 4 ∣ data.length → iterUnpack data = front ++ back →
        (decodeCapture data metadata voltageMv = .error discontinuity ↔ ¬ 64 ∣ block.length) := by
  obtain ⟨hcounter, hrange, htransitions, hcounts⟩ := Decoder.init_ok hinit
  -- A new decoder has no counter yet and expects any.
  have hexpects : ∀ word ∈ words.head?, decoder.Expects word := by
    intro word _ previous hprevious
    rw [hcounter] at hprevious
    nomatch hprevious
  have hrun := decodeWords_accepts Tally.start hunbroken hexpects hvalid
  have hindex : ∀ stream : List Nat,
      ((stream.map decoder.current).foldl Tally.add Tally.start).index = stream.length := by
    intro stream
    rw [foldl_add_index, List.length_map]
    exact Nat.zero_add _
  have hsum : (words.foldl Decoder.next decoder).rangeCounts.sum = words.length := by
    rw [foldl_next_counts decoder (by rw [hcounts]; rfl) hvalid.ranges, hcounts]
    exact Nat.zero_add _
  have hchanges : (words.foldl Decoder.next decoder).rangeTransitions = rangeChanges words := by
    rw [foldl_next_transitions, htransitions, hrange, transitions_none, Nat.zero_add]
  refine ⟨⟨_, _, hrun, hindex words, hsum, hchanges⟩, ?_, ?_⟩
  · intro data hwhole hwords hsize
    rw [decodeCapture_words hinit hwhole (by rwa [hwords]), hwords, hrun]
    exact ⟨_, _, rfl, hindex words, hsum, hchanges⟩
  · intro front block back hsplit hfront hback
    subst hsplit
    -- The decoder stops at the first word behind the cut, or does not notice.
    have hcut := decodeWords_cut hcounter Tally.start hunbroken hvalid hfront hback
    refine ⟨?_, ?_⟩
    · rw [hcut]
      split
      · rename_i hrounds
        simp [hrounds]
      · rename_i hrounds
        exact iff_of_true ⟨_, _, rfl, hindex front⟩ hrounds
    · intro data hwhole hwords
      have hsize : 2 ≤ (iterUnpack data).length := by
        have hone := List.length_pos_iff.mpr hfront
        have hother := List.length_pos_iff.mpr hback
        rw [hwords, List.length_append]
        omega
      rw [decodeCapture_words hinit hwhole hsize, hwords, hcut]
      by_cases hrounds : 64 ∣ block.length
      · simp [hrounds]
      · simp [hrounds]

/-- Three words by the published defaults, the one in the middle lost. -/
theorem gap_detection_lost :
    ∃ d : Decoder Rat, Decoder.init (fun _ => none) 1800 = .ok d ∧
      ∃ left t, decodeWords Decoder.sample d Tally.start [100, 100 + 2 * 2 ^ 18] =
        (some discontinuity, left, t) ∧
        t.index = 1 := by
  have hinit : ∃ d : Decoder Rat, Decoder.init (fun _ => none) 1800 = .ok d := by
    refine ⟨_, if_neg ?_⟩
    decide +kernel
  obtain ⟨d, hd⟩ := hinit
  have hvalid : d.Valid [100, 100 + 2 ^ 18, 100 + 2 * 2 ^ 18] :=
    { ranges := by decide, finite := fun _ _ => rfl }
  have hunbroken : Unbroken [100, 100 + 2 ^ 18, 100 + 2 * 2 ^ 18] := by simp [Unbroken, counter]
  have hlost := (gap_detection hd hunbroken hvalid).2.2
    [100] [100 + 2 ^ 18] [100 + 2 * 2 ^ 18] rfl (by simp) (by simp)
  exact ⟨d, hd, hlost.1.mpr (by decide)⟩

end Ppk2

end

end NrfKit.Tools
