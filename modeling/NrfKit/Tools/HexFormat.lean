import NrfKit.Tools.Image

/- The Intel HEX reader against the format.

   The memory of the reader has one value for an address and none from 2^32 on, and it meets
   an EOF record only in the last line. So what it accepts has exact ranges in canonical
   order, and a text with one of the defects it looks for has none (`parseIhex_exact`).

   The reader differs from the format in two ways: `bytes.fromhex` skips blanks between
   digits, and an offset does not wrap within a segment. An accepted file is read as the
   format has it iff it has neither (`parseIhex_conforms`). A line is one of the reader's own:
   `str.splitlines` also ends it at 0x0B, 0x0C and 0x1C to 0x1E. -/
namespace NrfKit.Tools
open Python Bytes Text IntelHex Spans

/-! ## The memory and the end of the reader -/

/-- One value for an address, and no address from 2^32 on. -/
structure OneValue (memory : List Cell) : Prop where
  single : ∀ a v w, (a, v) ∈ memory → (a, w) ∈ memory → v = w
  small : ∀ cell ∈ memory, cell.1 < 0x100000000

theorem setdefault_one {memory : List Cell} {address : Nat} {value : UInt8} (h : OneValue memory)
    (hset : (setdefault memory address value).1 = value) (hsmall : address < 0x100000000) :
    OneValue (setdefault memory address value).2 := by
  unfold setdefault at hset ⊢
  cases hlookup : memory.lookup address with
  | some previous => exact h
  | none =>
    have hfresh : ∀ w, (address, w) ∉ memory := by
      intro w hmem
      have hne := List.lookup_eq_none_iff.mp hlookup _ hmem
      simp at hne
    constructor
    · intro a v w hv hw
      simp only [List.mem_append, List.mem_singleton, Prod.mk.injEq] at hv hw
      rcases hv with hv | ⟨rfl, rfl⟩
      · rcases hw with hw | ⟨rfl, rfl⟩
        · exact h.single a v w hv hw
        · exact absurd hv (hfresh v)
      · rcases hw with hw | ⟨_, rfl⟩
        · exact absurd hw (hfresh w)
        · rfl
    · intro cell hcell
      rcases List.mem_append.mp hcell with hold | hnew
      · exact h.small cell hold
      · obtain rfl := List.mem_singleton.mp hnew
        exact hsmall

theorem storePayload_one {memory memory' : List Cell} {address : Nat} {payload : List UInt8}
    (h : OneValue memory) (hsmall : address + payload.length ≤ 0x100000000)
    (hstore : storePayload address payload memory = .ok memory') :
    OneValue memory' := by
  induction payload generalizing address memory with
  | nil =>
    obtain rfl : memory = memory' := by simpa [storePayload] using hstore
    exact h
  | cons byte rest ih =>
    rw [List.length_cons] at hsmall
    rw [storePayload] at hstore
    by_cases hconflict : (setdefault memory address byte).1 ≠ byte
    · rw [if_pos hconflict] at hstore
      cases hstore
    · rw [if_neg hconflict] at hstore
      exact ih (setdefault_one h (not_not.mp hconflict) (by omega)) (by omega) hstore

theorem Ihex.record_one {s s' : Ihex} (h : OneValue s.memory) {kind : UInt8} {offset : Nat}
    {payload : List UInt8} (hr : s.record kind offset payload = .ok s') : OneValue s'.memory := by
  unfold Ihex.record at hr
  split at hr
  · cases hr
  split at hr
  · split at hr
    · cases hr
    rename_i hsmall
    split at hr
    · cases hr
    · rename_i memory hstore
      cases hr
      exact storePayload_one h (by omega) hstore
  -- no other record stores
  all_goals
    repeat' split at hr
    all_goals cases hr
    all_goals exact h

/-- A record is read before the end only, and an EOF record comes to it. -/
theorem Ihex.record_eof {s s' : Ihex} {kind : UInt8} {offset : Nat} {payload : List UInt8}
    (hr : s.record kind offset payload = .ok s') : s.eof = false ∧ (s'.eof = true ↔ kind = 1) := by
  unfold Ihex.record at hr
  split at hr
  · cases hr
  rename_i heof
  have hopen : s.eof = false := by simpa using heof
  refine ⟨hopen, ?_⟩
  split at hr
  · rename_i hdata
    split at hr
    · cases hr
    split at hr
    · cases hr
    · cases hr
      simp [hopen, hdata]
  split at hr
  · rename_i hend
    split at hr
    · cases hr
    · cases hr
      simp [hend]
  rename_i hend
  all_goals
    repeat' split at hr
    all_goals cases hr
    all_goals simp [hopen, hend]

/-- What holds of a reader and is kept by a record holds at the end of the lines. -/
theorem Ihex.lines_keep {P : Ihex → Prop}
    (hkeep : ∀ {s s' : Ihex} (r : Record), P s → s.record r.kind r.offset r.payload = .ok s' → P s')
    {s s' : Ihex} {number : Nat} {found : List Chars} (h : P s)
    (hr : s.lines number found = .ok s') : P s' := by
  induction found generalizing s number with
  | nil =>
    obtain rfl : s = s' := by simpa [Ihex.lines] using hr
    exact h
  | cons text found ih =>
    rw [Ihex.lines] at hr
    cases hline : s.line number text with
    | error e =>
      rw [hline] at hr
      cases hr
    | ok s'' =>
      rw [hline] at hr
      obtain ⟨r, _, hstep⟩ := Ihex.line_ok hline
      exact ih (hkeep r h hstep) hr

/-- The lines end with the EOF record, which is the only one. -/
theorem Ihex.lines_end {s s' : Ihex} {number : Nat} {found : List Chars}
    (hr : s.lines number found = .ok s') (hopen : s.eof = false) (hend : s'.eof = true) :
    ∃ front text r, found = front ++ [text] ∧ lineRecord text = some r ∧ r.kind = 1 ∧
      ∀ line ∈ front, ∀ q, lineRecord line = some q → q.kind ≠ 1 := by
  induction found generalizing s number with
  | nil =>
    obtain rfl : s = s' := by simpa [Ihex.lines] using hr
    cases hopen.symm.trans hend
  | cons text found ih =>
    rw [Ihex.lines] at hr
    cases hline : s.line number text with
    | error e =>
      rw [hline] at hr
      cases hr
    | ok s'' =>
      rw [hline] at hr
      obtain ⟨r, hrecord, hstep⟩ := Ihex.line_ok hline
      obtain ⟨_, hkind⟩ := Ihex.record_eof hstep
      by_cases hlast : r.kind = 1
      · -- a reader at its end takes no further line
        have hclosed : s''.eof = true := hkind.mpr hlast
        cases found with
        | nil => exact ⟨[], text, r, rfl, hrecord, hlast, List.forall_mem_nil _⟩
        | cons next found =>
          dsimp only at hr
          rw [Ihex.lines] at hr
          cases hnext : s''.line (number + 1) next with
          | error e =>
            rw [hnext] at hr
            cases hr
          | ok s₃ =>
            obtain ⟨_, _, hstep'⟩ := Ihex.line_ok hnext
            cases (Ihex.record_eof hstep').1.symm.trans hclosed
      · have hstill : s''.eof = false := by simpa [hlast] using hkind
        obtain ⟨front, last, q, rfl, hq, hq1, hfront⟩ := ih hr hstill
        refine ⟨text :: front, last, q, rfl, hq, hq1, fun line hmem => ?_⟩
        rcases List.mem_cons.mp hmem with rfl | hmem
        · intro q' hq'
          cases hrecord.symm.trans hq'
          exact hlast
        · exact hfront line hmem

/-! ## Exact ranges -/

/-- The records of the lines that are records. -/
def foundRecords (data : List UInt8) : List Record := (Text.lines data).filterMap lineRecord

/-- The defects a text can have. -/
inductive Broken (data : List UInt8) : Prop where
  | afterEof {front back : List Chars} {text : Chars} {r : Record} : Text.lines data = front ++
    text :: back → back ≠ [] →
      lineRecord text = some r → r.kind = 1 → Broken data
  | noEof : (∀ r ∈ foundRecords data, r.kind ≠ 1) → Broken data
  | checksum {text : Chars} {raw : List UInt8} : text ∈ Text.lines data →
    lineBytes text = some raw → total raw % 256 ≠ 0 →
      Broken data
  | length {text : Chars} {raw : List UInt8} : text ∈ Text.lines data → lineBytes text = some raw →
    ¬ Sized raw → Broken data
  | conflict {address : Nat} {v w : UInt8} : (address, v) ∈ writes 0 (foundRecords data) →
      (address, w) ∈ writes 0 (foundRecords data) → v ≠ w → Broken data
  | noData : writes 0 (foundRecords data) = [] → Broken data

/-- The addresses of the bytes of data records, each its base, its offset and its index, where
the base is that of the last segment or linear address record before it. -/
def Addressed (records : List Record) (a : Int) : Prop :=
  ∃ before r index, DataByte records before r index ∧
    a = (baseAfter 0 before + r.offset + index : Nat)

structure Exact (records : List Record) (ranges : List Span) : Prop where
  values : ∀ a v w, (a, v) ∈ writes 0 records → (a, w) ∈ writes 0 records → v = w
  nonempty : ranges ≠ []
  separated : Separated ranges
  covered : ∀ a, Covers ranges a ↔ Addressed records a
  small : ∀ a, Covers ranges a → 0 ≤ a ∧ a < 0x100000000

section
variable {path : String} {data : List UInt8} {image : ParsedImage}

/-- What the reader accepts is records throughout, which its memory holds, and ends with the
one EOF record. -/
theorem parseIhex_records (h : parseIhex path (.ok data) = .ok image) :
    (∀ text ∈ Text.lines data, ∃ r, lineRecord text = some r) ∧
    Exact (foundRecords data) image.ranges ∧
      ∃ front text r, Text.lines data = front ++ [text] ∧ lineRecord text = some r ∧ r.kind = 1 ∧
        ∀ line ∈ front, ∀ q, lineRecord line = some q → q.kind ≠ 1 := by
  obtain ⟨data', s, hdata, hlines, hend, _, hranges, hne⟩ := parseIhex_run h
  cases hdata
  have hempty : Ihex.Holds {} [] := ⟨rfl, fun _ => Iff.rfl⟩
  obtain ⟨records, hrecords, hs⟩ := Ihex.lines_holds hempty hlines
  obtain ⟨hfound, hall⟩ := lineRecords_filterMap hrecords
  have hone : OneValue s.memory := by
    have hstart : OneValue (Ihex.memory {}) := ⟨nofun, nofun⟩
    exact Ihex.lines_keep (fun _ hkept hstep => Ihex.record_one hkept hstep) hstart hlines
  -- The memory the reader leaves is what the records write.
  have hcovers : ∀ a, Covers image.ranges a ↔ ∃ cell ∈ s.memory, (cell.1 : Int) = a := by
    intro a
    rw [hranges, covers_runs, Ihex.addresses, List.mem_map]
  have hwritten : ∀ cell, cell ∈ s.memory ↔ cell ∈ writes 0 (foundRecords data) := by
    intro cell
    rw [hs.memory, List.nil_append, foundRecords, hfound]
  refine ⟨hall, ⟨?_, hne, ?_, ?_, ?_⟩, Ihex.lines_end hlines rfl hend⟩
  · intro a v w hv hw
    exact hone.single a v w ((hwritten _).mpr hv) ((hwritten _).mpr hw)
  · rw [hranges]
    exact separated_runs _
  · intro a
    calc Covers image.ranges a
        ↔ ∃ cell ∈ s.memory, (cell.1 : Int) = a := hcovers a
      _ ↔ ∃ address : Nat, (∃ cell ∈ writes 0 (foundRecords data), cell.1 = address) ∧
        a = address := by
        constructor
        · rintro ⟨cell, hcell, rfl⟩
          exact ⟨cell.1, ⟨cell, (hwritten cell).mp hcell, rfl⟩, rfl⟩
        · rintro ⟨_, ⟨cell, hcell, rfl⟩, rfl⟩
          exact ⟨cell, (hwritten cell).mpr hcell, rfl⟩
      _ ↔ Addressed (foundRecords data) a := by
        constructor
        · rintro ⟨address, hcell, rfl⟩
          obtain ⟨before, r, index, hbyte, rfl⟩ := written_iff.mp hcell
          exact ⟨before, r, index, hbyte, rfl⟩
        · rintro ⟨before, r, index, hbyte, rfl⟩
          exact ⟨_, written_iff.mpr ⟨before, r, index, hbyte, rfl⟩, rfl⟩
  · intro a ha
    obtain ⟨cell, hcell, rfl⟩ := (hcovers a).mp ha
    have := hone.small cell hcell
    omega

theorem broken_rejected (h : parseIhex path (.ok data) = .ok image) : ¬ Broken data := by
  obtain ⟨hall, hexact, front, text, r, hsplit, htext, hkind, hfront⟩ := parseIhex_records h
  -- a line is a record, so its bytes decode
  have hdecoded : ∀ line ∈ Text.lines data, ∀ raw, lineBytes line = some raw →
      Sized raw ∧ total raw % 256 = 0 := by
    intro line hline raw hraw
    obtain ⟨q, hq⟩ := hall line hline
    obtain ⟨digits, raw', rfl, hhex, hdecode⟩ := lineRecord_some hq
    rw [lineBytes, if_pos rfl] at hraw
    cases hhex.symm.trans hraw
    exact decode_some hdecode
  intro hbroken
  cases hbroken with
  | afterEof hsplit' hback hline hone =>
    rename_i front' back' line q
    have hmem : line ∈ front := by
      have hdrop := congrArg List.dropLast (hsplit.symm.trans hsplit')
      rw [List.dropLast_concat, List.dropLast_append_of_ne_nil (List.cons_ne_nil _ _),
        List.dropLast_cons_of_ne_nil hback] at hdrop
      simp [hdrop]
    exact hfront line hmem q hline hone
  | noEof hnone =>
    refine hnone r (List.mem_filterMap.mpr ⟨text, ?_, htext⟩) hkind
    simp [hsplit]
  | checksum hline hraw hsum => exact hsum (hdecoded _ hline _ hraw).2
  | length hline hraw hsized => exact hsized (hdecoded _ hline _ hraw).1
  | conflict hv hw hne => exact hne (hexact.values _ _ _ hv hw)
  | noData hempty =>
    obtain ⟨range, hrange⟩ := List.exists_mem_of_ne_nil _ hexact.nonempty
    have hcover : Covers image.ranges range.1 :=
      ⟨range, hrange, le_refl _, hexact.separated.1 range hrange⟩
    obtain ⟨before, q, index, hbyte, _⟩ := (hexact.covered _).mp hcover
    obtain ⟨cell, hcell, _⟩ := (@written_iff 0 _ _).mpr ⟨before, q, index, hbyte, rfl⟩
    rw [hempty] at hcell
    cases hcell

end

/-- The ranges of an accepted text are those of its data records, in canonical order; a text
with a defect is not accepted. -/
theorem parseIhex_exact (path : String) (file : FileData) :
    (∀ image, parseIhex path file = .ok image → ∃ data, file = .ok data ∧
      (∀ text ∈ Text.lines data, ∃ r, lineRecord text = some r) ∧
      Exact (foundRecords data) image.ranges) ∧
    (∀ data, file = .ok data → Broken data → ∃ e, parseIhex path file = .error e) := by
  constructor
  · intro image h
    obtain ⟨data, _, rfl, _⟩ := parseIhex_run h
    obtain ⟨hall, hexact, _⟩ := parseIhex_records h
    exact ⟨data, rfl, hall, hexact⟩
  · rintro data rfl hbroken
    cases hparse : parseIhex path (.ok data) with
    | error e => exact ⟨e, rfl⟩
    | ok image => exact absurd hbroken (broken_rejected hparse)

theorem parseIhex_ranges {path : String} {file : FileData} {ranges : List Span}
    (h : (parseIhex path file).toOption.map ParsedImage.ranges = some ranges) :
    ∃ image, parseIhex path file = .ok image ∧ image.ranges = ranges := by
  obtain ⟨image, himage, hranges⟩ := Option.map_eq_some_iff.mp h
  cases hparse : parseIhex path file with
  | error e =>
    rw [hparse] at himage
    cases himage
  | ok image' =>
    rw [hparse] at himage
    cases himage
    exact ⟨image, rfl, hranges⟩

/-- Two data records behind a linear address record, one after the other, then the end. -/
def adjoiningText : Chars :=
  text [⟨4, 0, [0, 1], by decide, by decide⟩,
    ⟨0, 0x20, [0x61, 0x62, 0x63, 0x64], by decide, by decide⟩,
    ⟨0, 0x24, [0x65, 0x66], by decide, by decide⟩, ⟨1, 0, [], by decide, by decide⟩]

theorem parseIhex_exact_adjoining :
    (∃ image, parseIhex "app.hex" (.ok adjoiningText) = .ok image ∧
      image.ranges = [(0x10020, 0x10026)] ∧ Exact (foundRecords adjoiningText) image.ranges) ∧
    ∃ e, parseIhex "app.hex" (.ok (adjoiningText ++ adjoiningText)) = .error e := by
  constructor
  · have hread : (parseIhex "app.hex" (.ok adjoiningText)).toOption.map ParsedImage.ranges =
        some [(0x10020, 0x10026)] := by
      decide +kernel
    obtain ⟨image, himage, hranges⟩ := parseIhex_ranges hread
    obtain ⟨_, hdata, _, hexact⟩ := (parseIhex_exact "app.hex" (.ok adjoiningText)).1 image himage
    cases hdata
    exact ⟨image, himage, hranges, hexact⟩
  · refine (parseIhex_exact "app.hex" (.ok (adjoiningText ++ adjoiningText))).2 _ rfl ?_
    refine @Broken.afterEof _ ((Text.lines adjoiningText).take 3) (Text.lines adjoiningText) eofLine
      ⟨1, 0, [], by decide, by decide⟩ ?_ ?_ ?_ ?_
    · decide +kernel
    · decide +kernel
    · decide +kernel
    · decide

/-! ## The format -/

/-- A text and its ranges are as the format has them. -/
structure Conforms (data : List UInt8) (image : ParsedImage) : Prop where
  digits : ∀ line ∈ Text.lines data, ∃ digits, line = 0x3a :: digits ∧ HexDigits digits
  /-- The reader stores a byte where the format places it. -/
  address : ∀ front text back s r, Text.lines data = front ++ text :: back →
    Ihex.lines {} 1 front = .ok s →
    lineRecord text = some r → r.kind = 0 → ∀ index < r.payload.length,
      s.base + r.offset + index =
        (placingAfter (.linear 0) (front.filterMap lineRecord)).address r.offset index
  guarded : ∀ a, Covers image.ranges a ↔
    ∃ address : Nat, Programmed (foundRecords data) address ∧ a = address

/-- No blank in a line, and no data record that leaves its segment. -/
structure WithinFormat (data : List UInt8) : Prop where
  blanks : ∀ line ∈ Text.lines data, ∀ c ∈ line, isSpace c = false
  segments : ∀ front text back r start, Text.lines data = front ++ text :: back →
    lineRecord text = some r → r.kind = 0 →
    placingAfter (.linear 0) (front.filterMap lineRecord) = .segment start →
    r.offset + r.payload.length ≤ 65536

theorem Ihex.lines_front {s s' : Ihex} {number : Nat} {front back : List Chars}
    (hr : s.lines number (front ++ back) = .ok s') :
    ∃ s'', s.lines number front = .ok s'' := by
  induction front generalizing s number with
  | nil => exact ⟨s, rfl⟩
  | cons text front ih =>
    rw [List.cons_append, Ihex.lines] at hr
    rw [Ihex.lines]
    cases hline : s.line number text with
    | error e =>
      rw [hline] at hr
      cases hr
    | ok s'' =>
      rw [hline] at hr
      exact ih hr

/-- The base of the reader is the start of the base the format gives. -/
theorem Ihex.lines_base {front : List Chars} {s : Ihex} (hr : Ihex.lines {} 1 front = .ok s) :
    s.base = (placingAfter (.linear 0) (front.filterMap lineRecord)).start := by
  have hempty : Ihex.Holds {} [] := ⟨rfl, fun _ => Iff.rfl⟩
  obtain ⟨records, hrecords, hs⟩ := Ihex.lines_holds hempty hr
  rw [(lineRecords_filterMap hrecords).1, placingAfter_start, hs.base]
  rfl

/-- Within a segment an address is that of the format iff the offset does not wrap. -/
theorem Base.address_segment {start offset index : Nat} :
    start + offset + index = (Base.segment start).address offset index ↔
    offset + index < 65536 := by
  rw [Base.address]
  omega

section
variable {path : String} {data : List UInt8} {image : ParsedImage}

/-- A data byte of the records has a line, and the lines before it are those of the records
before it. -/
theorem dataByte_line {before : List Record} {r : Record} {index : Nat}
    (h : DataByte (foundRecords data) before r index) :
    ∃ front text back, Text.lines data = front ++ text :: back ∧
      front.filterMap lineRecord = before ∧ lineRecord text = some r := by
  obtain ⟨after, hsplit⟩ := h.split
  obtain ⟨front, back, hlines, rfl, hback⟩ := List.filterMap_eq_append_iff.mp hsplit
  obtain ⟨skipped, text, rest, rfl, hskipped, htext, _⟩ := List.filterMap_eq_cons_iff.mp hback
  refine ⟨front ++ skipped, text, rest, by rw [hlines, List.append_assoc], ?_, htext⟩
  rw [List.filterMap_append, List.filterMap_eq_nil_iff.mpr hskipped, List.append_nil]

/-- An accepted text is read as the format has it iff no blank is skipped and no offset wraps. -/
theorem parseIhex_conforms (h : parseIhex path (.ok data) = .ok image) :
    Conforms data image ↔ WithinFormat data := by
  obtain ⟨data', s, hdata, hlines, _⟩ := parseIhex_run h
  cases hdata
  obtain ⟨hall, hexact, _⟩ := parseIhex_records h
  have hread : ∀ front back, Text.lines data = front ++ back →
      ∃ s', Ihex.lines {} 1 front = .ok s' := by
    intro front back hsplit
    rw [hsplit] at hlines
    exact Ihex.lines_front hlines
  constructor
  · intro hconforms
    constructor
    · intro line hline c hc
      obtain ⟨digits, rfl, hdigits⟩ := hconforms.digits line hline
      rcases List.mem_cons.mp hc with rfl | hc
      · decide
      · exact digit_not_space (hdigits.2 c hc)
    · intro front text back r start hsplit htext hkind hplaced
      obtain ⟨s', hs'⟩ := hread front _ hsplit
      have hbase := Ihex.lines_base hs'
      have hoffset := r.offset_lt
      rcases Nat.eq_zero_or_pos r.payload.length with hempty | hpos
      · omega
      -- the last byte of the record stays in the segment
      · have haddress := hconforms.address front text back s' r hsplit hs' htext hkind
          (r.payload.length - 1) (by omega)
        rw [hbase, hplaced] at haddress
        have := Base.address_segment.mp haddress
        omega
  · intro hwithin
    have haddress : ∀ front text back s' r, Text.lines data = front ++ text :: back →
        Ihex.lines {} 1 front = .ok s' →
        lineRecord text = some r → r.kind = 0 → ∀ index < r.payload.length,
          s'.base + r.offset + index =
            (placingAfter (.linear 0) (front.filterMap lineRecord)).address r.offset index := by
      intro front text back s' r hsplit hs' htext hkind index hindex
      rw [Ihex.lines_base hs']
      cases hplaced : placingAfter (.linear 0) (front.filterMap lineRecord) with
      | linear start => rfl
      | segment start =>
        have hsmall := hwithin.segments front text back r start hsplit htext hkind hplaced
        exact Base.address_segment.mpr (by omega)
    refine ⟨?_, haddress, fun a => ?_⟩
    · intro line hline
      obtain ⟨r, hr⟩ := hall line hline
      obtain ⟨digits, raw, rfl, hhex, _⟩ := lineRecord_some hr
      exact ⟨digits, rfl, (fromHex_digits hhex).mpr fun c hc =>
        hwithin.blanks _ hline c (List.mem_cons_of_mem _ hc)⟩
    · have hplaces : ∀ before r index, DataByte (foundRecords data) before r index →
          baseAfter 0 before + r.offset + index =
            (placingAfter (.linear 0) before).address r.offset index := by
        intro before r index hbyte
        obtain ⟨front, text, back, hsplit, rfl, htext⟩ := dataByte_line hbyte
        obtain ⟨s', hs'⟩ := hread front _ hsplit
        rw [← haddress front text back s' r hsplit hs' htext hbyte.data index hbyte.index_lt,
          Ihex.lines_base hs', placingAfter_start, Base.start]
      rw [hexact.covered]
      constructor
      · rintro ⟨before, r, index, hbyte, rfl⟩
        exact ⟨_, ⟨before, r, index, hbyte, hplaces before r index hbyte⟩, rfl⟩
      · rintro ⟨_, ⟨before, r, index, hbyte, rfl⟩, rfl⟩
        exact ⟨before, r, index, hbyte, by rw [hplaces before r index hbyte]⟩

end

/-- A text without blanks is within the format where no data record passes 64 KiB. -/
theorem withinFormat_of_fits (hblanks : ∀ line ∈ Text.lines data, ∀ c ∈ line, isSpace c = false)
    (hfits : ∀ r ∈ foundRecords data, r.kind = 0 → r.offset + r.payload.length ≤ 65536) :
    WithinFormat data := by
  refine ⟨hblanks, fun front text back r _ hsplit htext hkind _ => hfits r ?_ hkind⟩
  refine List.mem_filterMap.mpr ⟨text, ?_, htext⟩
  rw [hsplit]
  exact List.mem_append_right _ (List.mem_cons_self ..)

/-- The last two bytes of the segment 0x1000, the first two behind a linear address record,
then the end. -/
def placedText : Chars :=
  text [⟨2, 0, [0x10, 0x00], by decide, by decide⟩, ⟨0, 0xfffe, [0xaa, 0xbb], by decide, by decide⟩,
    ⟨4, 0, [0, 2], by decide, by decide⟩, ⟨0, 0, [0xcc, 0xdd], by decide, by decide⟩,
    ⟨1, 0, [], by decide, by decide⟩]

theorem parseIhex_conforms_placed :
    ∃ image, parseIhex "app.hex" (.ok placedText) = .ok image ∧
      image.ranges = [(0x1fffe, 0x20002)] ∧ Conforms placedText image := by
  have hread : (parseIhex "app.hex" (.ok placedText)).toOption.map ParsedImage.ranges =
      some [(0x1fffe, 0x20002)] := by
    decide +kernel
  obtain ⟨image, himage, hranges⟩ := parseIhex_ranges hread
  exact ⟨image, himage, hranges,
    (parseIhex_conforms himage).mpr (withinFormat_of_fits (by decide +kernel) (by decide +kernel))⟩

/-- The segment 0x1000, two bytes at its last address, then the end. -/
def wrappingText : Chars :=
  text [⟨2, 0, [0x10, 0x00], by decide, by decide⟩, ⟨0, 0xffff, [0xaa, 0xbb], by decide, by decide⟩,
    ⟨1, 0, [], by decide, by decide⟩]

/-- `":02 0000 00 AABB 99"`, then the end. -/
def blankText : Chars :=
  joined [[0x3a, 0x30, 0x32, 0x20, 0x30, 0x30, 0x30, 0x30, 0x20, 0x30, 0x30, 0x20, 0x41, 0x41, 0x42,
    0x42, 0x20, 0x39, 0x39], eofLine]

/-- A byte the format places at the start of the segment is read behind its end, and blanks
are read as nothing. -/
theorem parseIhex_differs :
    (∃ image, parseIhex "wrap.hex" (.ok wrappingText) = .ok image ∧
      image.ranges = [(0x1ffff, 0x20001)] ∧
      Programmed (foundRecords wrappingText) 0x10000 ∧ ¬ Conforms wrappingText image) ∧
    ∃ image, parseIhex "blank.hex" (.ok blankText) = .ok image ∧ ¬ Conforms blankText image := by
  have hwrapping : (parseIhex "wrap.hex" (.ok wrappingText)).toOption.map ParsedImage.ranges =
      some [(0x1ffff, 0x20001)] := by
    decide +kernel
  have hblank : (parseIhex "blank.hex" (.ok blankText)).toOption.map ParsedImage.ranges =
      some [(0, 2)] := by decide +kernel
  constructor
  · obtain ⟨image, himage, hranges⟩ := parseIhex_ranges hwrapping
    have hprogrammed : Programmed (foundRecords wrappingText) 0x10000 := by
      refine ⟨[⟨2, 0, [0x10, 0x00], by decide, by decide⟩],
        ⟨0, 0xffff, [0xaa, 0xbb], by decide, by decide⟩, 1, ⟨?_, ?_, ?_⟩, ?_⟩
      · decide
      · decide
      · exact ⟨[⟨1, 0, [], by decide, by decide⟩], by decide +kernel⟩
      · decide
    refine ⟨image, himage, hranges, hprogrammed, fun hconforms => ?_⟩
    have hcovered := (hconforms.guarded 0x10000).mpr ⟨0x10000, hprogrammed, rfl⟩
    rw [hranges, covers_cons, Span.Holds] at hcovered
    rcases hcovered with hin | hnone
    · omega
    · exact covers_nil _ hnone
  · obtain ⟨image, himage, _⟩ := parseIhex_ranges hblank
    refine ⟨image, himage, fun hconforms => ?_⟩
    obtain ⟨digits, hline, hdigits⟩ := hconforms.digits
      [0x3a, 0x30, 0x32, 0x20, 0x30, 0x30, 0x30, 0x30, 0x20, 0x30, 0x30, 0x20, 0x41, 0x41, 0x42,
        0x42, 0x20, 0x39, 0x39]
      (by decide +kernel)
    cases hline
    have hspace := hdigits.2 0x20 (by decide)
    revert hspace
    decide

end NrfKit.Tools
