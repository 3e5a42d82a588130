import NrfKit.Lib.IntelHex
import NrfKit.Lib.Python
import NrfKit.Lib.Spans

/- Programming images: `tools/nrfkit_tools/image.py`, its Intel HEX reader and its range
   guard. A file is what reading it gives: its bytes, or the text of the `OSError`.

   What the reader accepts is what the records write: the ranges it returns hold an
   address iff some data record writes there (`parseIhex_ok`), and the guard leaves only
   addresses inside one allowlist entry and outside every forbidden range
   (`requireAllowed_ok`). -/
namespace NrfKit.Tools
open Python Bytes Text IntelHex Spans

abbrev FileData := Except String (List UInt8)

abbrev Files := String → FileData

def imageError (text : String) : Raised := ⟨"ImageContractError", text⟩

/-- `f"{n:08x}"`. -/
def hex08 (n : Int) : String :=
  let sign := if n < 0 then "-" else ""
  let digits := String.ofList (Nat.toDigits 16 n.natAbs)
  sign ++ String.ofList (List.replicate (8 - (sign.length + digits.length)) '0') ++ digits

def forbiddenRanges : List (Int × Int × String) := [
  (0x00FFD080, 0x00FFD084, "BOOTCONF"),
  (0x00FFD500, 0x00FFDA00, "OTP"),
  (0x00FFD000, 0x00FFE000, "UICR"),
  (0x00FFE000, 0x00FFF000, "SICR"),
  (0x50049000, 0x5004A000, "KMU"),
  (0x00FF8000, 0x00FFD000, "factory information"),
  (0x00FFF000, 0x01000000, "reserved configuration"),
  (0x0FF00000, 0x10000000, "configuration alias")]

structure ParsedImage where
  ranges : List Span
  entry : Option Int := none

/-- `_ranges`. -/
def addressRanges (addresses : List Int) : Except Raised (List Span) :=
  match runs addresses with
  | [] => .error (imageError "image contains no data")
  | found => .ok found

/-! ## Intel HEX -/

/-- The position of the first character that is not ASCII. -/
def nonAscii (position : Nat) : List UInt8 → Option (Nat × UInt8)
  | [] => none
  | byte :: rest => if byte < 0x80 then nonAscii (position + 1) rest else some (position, byte)

/-- `path.read_text(encoding="ascii").splitlines()`. -/
def readLines (file : FileData) : Except String (List Chars) :=
  match file with
  | .error text => .error text
  | .ok data =>
    match nonAscii 0 data with
    | some (position, byte) =>
      .error ("'ascii' codec can't decode byte 0x" ++ String.ofList (Nat.toDigits 16 byte.toNat) ++
        " in position " ++ toString position ++ ": ordinal not in range(128)")
    | none => .ok (lines data)

structure Ihex where
  memory : List Cell := []
  base : Nat := 0
  eof : Bool := false

/-- `memory.setdefault(address, value)`. -/
def setdefault (memory : List Cell) (address : Nat) (value : UInt8) : UInt8 × List Cell :=
  match memory.lookup address with
  | some previous => (previous, memory)
  | none => (value, memory ++ [(address, value)])

def storePayload (address : Nat) : List UInt8 → List Cell → Except Raised (List Cell)
  | [], memory => .ok memory
  | value :: rest, memory =>
    if (setdefault memory address value).1 ≠ value then
      .error (imageError ("conflicting Intel HEX data at 0x" ++ hex08 address))
    else storePayload (address + 1) rest (setdefault memory address value).2

def Ihex.record (s : Ihex) (kind : UInt8) (offset : Nat)
    (payload : List UInt8) : Except Raised Ihex :=
  if s.eof then .error (imageError "Intel HEX contains records after EOF")
  else if kind = 0 then
    if s.base + offset + payload.length > 0x100000000 then
      .error (imageError "Intel HEX data exceeds the 32-bit address space")
    else
      match storePayload (s.base + offset) payload s.memory with
      | .error e => .error e
      | .ok memory => .ok { s with memory }
  else if kind = 1 then
    if payload.length ≠ 0 ∨ offset ≠ 0 then .error (imageError "Intel HEX EOF record is malformed")
    else .ok { s with eof := true }
  else if kind = 2 then
    if payload.length ≠ 2 ∨ offset ≠ 0 then
      .error (imageError "Intel HEX segment address record is malformed")
    else .ok { s with base := bigEndian payload * 16 }
  else if kind = 4 then
    if payload.length ≠ 2 ∨ offset ≠ 0 then
      .error (imageError "Intel HEX linear address record is malformed")
    else .ok { s with base := bigEndian payload * 65536 }
  else if kind = 3 ∨ kind = 5 then
    if payload.length ≠ 4 then
      .error (imageError "Intel HEX start address record is malformed") else .ok s
  else .error (imageError ("unsupported Intel HEX record type " ++ toString kind.toNat))

def Ihex.line (s : Ihex) (number : Nat) (text : Chars) : Except Raised Ihex :=
  match text with
  | 0x3a :: digits =>
    match fromHex digits with
    | none => .error (imageError ("Intel HEX line " ++ toString number ++ " is not hexadecimal"))
    | some raw =>
      match raw with
      | length :: high :: low :: kind :: rest =>
        if rest.length ≠ length.toNat + 1 then
          .error (imageError ("Intel HEX line " ++ toString number ++ " has an invalid length"))
        else if total raw % 256 ≠ 0 then
          .error (imageError ("Intel HEX line " ++ toString number ++ " checksum is invalid"))
        else s.record kind (256 * high.toNat + low.toNat) (rest.take length.toNat)
      | _ => .error (imageError ("Intel HEX line " ++ toString number ++ " has an invalid length"))
  | _ => .error (imageError ("Intel HEX line " ++ toString number ++ " has no record marker"))

def Ihex.lines (s : Ihex) (number : Nat) : List Chars → Except Raised Ihex
  | [] => .ok s
  | text :: rest =>
    match s.line number text with
    | .error e => .error e
    | .ok s' => s'.lines (number + 1) rest

def Ihex.addresses (s : Ihex) : List Int := s.memory.map fun cell => (cell.1 : Int)

def parseIhex (path : String) (file : FileData) : Except Raised ParsedImage :=
  match readLines file with
  | .error text => .error (imageError ("cannot read Intel HEX " ++ path ++ ": " ++ text))
  | .ok found =>
    match Ihex.lines {} 1 found with
    | .error e => .error e
    | .ok s =>
      if ¬ s.eof then .error (imageError "Intel HEX has no EOF record")
      else
        match addressRanges s.addresses with
        | .error e => .error e
        | .ok ranges => .ok { ranges }

/-! ## The range guard -/

/-- `start >= allowed_start and end <= allowed_end` for an entry of two. -/
def insideEntry (range : Span) : List Value → Except Raised Bool
  | [allowedStart, allowedEnd] =>
    match allowedStart |>.atLeast range.1 with
    | .error e => .error e
    | .ok false => .ok false
    | .ok true => allowedEnd |>.atMost range.2
  | [] => .error ⟨"ValueError", "not enough values to unpack (expected 2, got 0)"⟩
  | [_] => .error ⟨"ValueError", "not enough values to unpack (expected 2, got 1)"⟩
  | _ => .error ⟨"ValueError", "too many values to unpack (expected 2)"⟩

/-- `any` over the entries, which stops at the first. -/
def insideAny (range : Span) : List (List Value) → Except Raised Bool
  | [] => .ok false
  | entry :: rest =>
    match insideEntry range entry with
    | .error e => .error e
    | .ok true => .ok true
    | .ok false => insideAny range rest

def rangeText (range : Span) : String :=
  "image range 0x" ++ hex08 range.1 ++ "..0x" ++ hex08 range.2

def requireForbidden (range : Span) : List (Int × Int × String) → Except Raised Unit
  | [] => .ok ()
  | (forbiddenStart, forbiddenEnd, label) :: rest =>
    if range.1 < forbiddenEnd ∧ range.2 > forbiddenStart then
      .error (imageError (rangeText range ++ " enters forbidden " ++ label ++ " region"))
    else requireForbidden range rest

def requireRange (allowlist : List (List Value)) (range : Span) : Except Raised Unit :=
  if range.1 < 0 ∨ range.2 ≤ range.1 ∨ range.2 > 0x100000000 then
    .error (imageError "image contains an invalid load range")
  else
    match requireForbidden range forbiddenRanges with
    | .error e => .error e
    | .ok _ =>
      match insideAny range allowlist with
      | .error e => .error e
      | .ok false => .error (imageError (rangeText range ++ " is outside the manifest allowlist"))
      | .ok true => .ok ()

def requireAllowed (ranges : List Span) (allowlist : List (List Value)) : Except Raised Unit :=
  match ranges with
  | [] => .ok ()
  | range :: rest =>
    match requireRange allowlist range with
    | .error e => .error e
    | .ok _ => requireAllowed rest allowlist

/-- An allowlist entry the tools make themselves. -/
def spanEntry (s : Span) : List Value := [.int s.1, .int s.2]

/-! ## What the guard leaves -/

/-- The byte at an address lies in an entry. -/
def EntryHolds (entry : List Value) (a : Int) : Prop :=
  ∃ low high, entry = [low, high] ∧ low.leInt a = some true ∧ high.geInt (a + 1) = some true

def Allowed (allowlist : List (List Value)) (a : Int) : Prop :=
  ∃ entry ∈ allowlist, EntryHolds entry a

def Forbidden (a : Int) : Prop := ∃ region ∈ forbiddenRanges, region.1 ≤ a ∧ a < region.2.1

/-- The range is not empty, lies in 32 bits and touches no forbidden region. -/
structure RangeSafe (range : Span) : Prop where
  nonneg : 0 ≤ range.1
  nonempty : range.1 < range.2
  small : range.2 ≤ 0x100000000
  apart : ∀ region ∈ forbiddenRanges, ¬ (range.1 < region.2.1 ∧ range.2 > region.1)

theorem requireForbidden_ok {range : Span} {regions : List (Int × Int × String)} :
    requireForbidden range regions = .ok () ↔
    ∀ region ∈ regions, ¬ (range.1 < region.2.1 ∧ range.2 > region.1) := by
  induction regions with
  | nil => simp [requireForbidden]
  | cons region rest ih =>
    obtain ⟨first, last, label⟩ := region
    rw [requireForbidden, List.forall_mem_cons]
    by_cases htouch : range.1 < last ∧ range.2 > first
    · rw [if_pos htouch]
      exact ⟨nofun, fun h => absurd htouch h.1⟩
    · rw [if_neg htouch, ih]
      exact ⟨fun h => ⟨htouch, h⟩, fun h => h.2⟩

theorem requireRange_ok {allowlist : List (List Value)} {range : Span} :
    requireRange allowlist range = .ok () ↔
    RangeSafe range ∧ insideAny range allowlist = .ok true := by
  unfold requireRange
  by_cases hinvalid : range.1 < 0 ∨ range.2 ≤ range.1 ∨ range.2 > 0x100000000
  · rw [if_pos hinvalid]
    refine ⟨nofun, fun h => ?_⟩
    have := h.1.nonneg
    have := h.1.nonempty
    have := h.1.small
    omega
  · rw [if_neg hinvalid]
    cases hforbidden : requireForbidden range forbiddenRanges with
    | error e =>
      refine ⟨nofun, fun h => ?_⟩
      cases hforbidden.symm.trans (requireForbidden_ok.mpr h.1.apart)
    | ok _ =>
      have hsafe : RangeSafe range :=
        ⟨by omega, by omega, by omega, requireForbidden_ok.mp hforbidden⟩
      cases hinside : insideAny range allowlist with
      | error e => exact ⟨nofun, fun h => nomatch h.2⟩
      | ok inside =>
        cases inside with
        | false => exact ⟨nofun, fun h => nomatch h.2⟩
        | true => exact ⟨fun _ => ⟨hsafe, rfl⟩, fun _ => rfl⟩

theorem requireAllowed_all {allowlist : List (List Value)} {ranges : List Span} :
    requireAllowed ranges allowlist = .ok () ↔
    ∀ range ∈ ranges, requireRange allowlist range = .ok () := by
  induction ranges with
  | nil => simp [requireAllowed]
  | cons range rest ih =>
    rw [requireAllowed, List.forall_mem_cons]
    cases hrange : requireRange allowlist range with
    | error e => exact ⟨nofun, fun h => nomatch h.1⟩
    | ok _ =>
      rw [ih]
      exact ⟨fun h => ⟨rfl, h⟩, fun h => h.2⟩

theorem insideEntry_ok {range : Span} {entry : List Value}
    (h : insideEntry range entry = .ok true) :
    ∃ low high, entry = [low, high] ∧ low.leInt range.1 = some true ∧
      high.geInt range.2 = some true := by
  unfold insideEntry at h
  split at h
  · rename_i low high
    split at h
    · cases h
    · cases h
    · rename_i hlow
      exact ⟨low, high, rfl, Value.atLeast_ok.mp hlow, Value.atMost_ok.mp h⟩
  · cases h
  · cases h
  · cases h

theorem insideAny_ok {range : Span} {allowlist : List (List Value)}
    (h : insideAny range allowlist = .ok true) :
    ∃ entry ∈ allowlist, insideEntry range entry = .ok true := by
  induction allowlist with
  | nil => cases h
  | cons entry rest ih =>
    rw [insideAny] at h
    split at h
    · cases h
    · rename_i hentry
      exact ⟨entry, List.mem_cons_self .., hentry⟩
    · obtain ⟨found, hfound, hinside⟩ := ih h
      exact ⟨found, List.mem_cons_of_mem _ hfound, hinside⟩

/-- What passes the guard lies in one entry, byte by byte, and in no forbidden region. -/
theorem requireAllowed_ok {allowlist : List (List Value)} {ranges : List Span}
    (h : requireAllowed ranges allowlist = .ok ()) {a : Int} (ha : Covers ranges a) :
    Allowed allowlist a ∧ ¬ Forbidden a := by
  obtain ⟨range, hrange, hfrom, hto⟩ := ha
  obtain ⟨hsafe, hinside⟩ := requireRange_ok.mp (requireAllowed_all.mp h range hrange)
  obtain ⟨entry, hentry, hin⟩ := insideAny_ok hinside
  obtain ⟨low, high, rfl, hlow, hhigh⟩ := insideEntry_ok hin
  refine ⟨⟨_, hentry, low, high, rfl, Value.leInt_mono hlow hfrom,
    Value.geInt_mono hhigh (by omega)⟩, ?_⟩
  rintro ⟨region, hregion, hstart, hend⟩
  exact hsafe.apart region hregion ⟨by omega, by omega⟩

/-! ## What the reader accepts -/

section
variable {address : Nat} {value : UInt8} {memory memory' : List Cell} {payload : List UInt8}

theorem lookup_mem (h : memory.lookup address = some value) : (address, value) ∈ memory := by
  obtain ⟨front, back, rfl, _⟩ := List.lookup_eq_some_iff.mp h
  simp

theorem setdefault_mem (h : (setdefault memory address value).1 = value) (cell : Cell) :
    cell ∈ (setdefault memory address value).2 ↔ cell ∈ memory ∨ cell = (address, value) := by
  unfold setdefault at h ⊢
  cases hlookup : memory.lookup address with
  | none => simp
  | some previous =>
    rw [hlookup] at h
    obtain rfl : previous = value := h
    have hmem := lookup_mem hlookup
    constructor
    · exact Or.inl
    · rintro (h | rfl)
      · exact h
      · exact hmem

/-- A payload that is stored adds its cells. -/
theorem storePayload_mem (h : storePayload address payload memory = .ok memory') (cell : Cell) :
    cell ∈ memory' ↔ cell ∈ memory ∨ cell ∈ cells address payload := by
  induction payload generalizing address memory with
  | nil =>
    obtain rfl : memory = memory' := by simpa [storePayload] using h
    simp [cells]
  | cons byte rest ih =>
    rw [storePayload] at h
    by_cases hconflict : (setdefault memory address byte).1 ≠ byte
    · rw [if_pos hconflict] at h
      cases h
    · rw [if_neg hconflict] at h
      rw [ih h, setdefault_mem (not_not.mp hconflict), cells, List.mem_cons, or_assoc]

/-- A payload on fresh addresses is stored. -/
theorem storePayload_fresh
    (h : ∀ a ∈ List.range' address payload.length, ∀ cell ∈ memory, cell.1 ≠ a) :
    storePayload address payload memory = .ok (memory ++ cells address payload) := by
  induction payload generalizing address memory with
  | nil => rw [storePayload, cells, List.append_nil]
  | cons byte rest ih =>
    have hlookup : memory.lookup address = none := by
      rw [List.lookup_eq_none_iff]
      intro cell hcell
      have hne := h address (by simp) cell hcell
      simpa using hne.symm
    have hset : setdefault memory address byte = (byte, memory ++ [(address, byte)]) := by
      rw [setdefault, hlookup]
    rw [storePayload, hset, if_neg (not_not.mpr rfl), ih, cells, List.append_assoc,
      List.singleton_append]
    intro a ha cell hcell
    rcases List.mem_append.mp hcell with hold | hnew
    · refine h a ?_ cell hold
      rw [List.length_cons, List.range'_succ]
      exact List.mem_cons_of_mem _ ha
    · obtain rfl := List.mem_singleton.mp hnew
      have := (List.mem_range'_1.mp ha).1
      show address ≠ a
      omega

end

/-- The state of the reader holds what the records so far write. -/
structure Ihex.Holds (s : Ihex) (records : List Record) : Prop where
  base : s.base = baseAfter 0 records
  memory : ∀ cell, cell ∈ s.memory ↔ cell ∈ writes 0 records

theorem Ihex.Holds.add {s : Ihex} {records : List Record} (h : s.Holds records) {r : Record}
    {memory : List Cell} {base : Nat} (eof : Bool) (hbase : base = r.base s.base)
    (hmemory : ∀ cell, cell ∈ memory ↔ cell ∈ s.memory ∨ cell ∈ r.writes s.base) :
    Ihex.Holds { memory, base, eof } (records ++ [r]) := by
  constructor
  · rw [baseAfter_append, ← h.base]
    exact hbase
  · intro cell
    rw [hmemory, h.memory, writes_append, List.mem_append, ← h.base, writes, writes,
      List.append_nil]

theorem Ihex.record_holds {s s' : Ihex} {records : List Record} (h : s.Holds records) {r : Record}
    (hr : s.record r.kind r.offset r.payload = .ok s') : s'.Holds (records ++ [r]) := by
  -- The records without data, and without a base, write nothing.
  have hsame : ∀ eof, r.kind ≠ 0 → r.kind ≠ 2 → r.kind ≠ 4 →
      Ihex.Holds { s with eof } (records ++ [r]) := by
    intro eof h0 h2 h4
    refine h.add eof ?_ fun cell => ?_
    · rw [Record.base, if_neg h2, if_neg h4]
    · rw [Record.writes, if_neg h0, List.mem_nil_iff, or_false]
  -- The base records write nothing either.
  have hmoved : ∀ base, r.kind ≠ 0 → base = r.base s.base →
      Ihex.Holds { s with base } (records ++ [r]) := by
    intro base h0 hbase
    refine h.add s.eof hbase fun cell => ?_
    rw [Record.writes, if_neg h0, List.mem_nil_iff, or_false]
  unfold Ihex.record at hr
  split at hr
  · cases hr
  split at hr
  · rename_i hdata
    split at hr
    · cases hr
    split at hr
    · cases hr
    · rename_i memory hstore
      cases hr
      refine h.add s.eof ?_ fun cell => ?_
      · rw [Record.base, if_neg (by rw [hdata]; decide), if_neg (by rw [hdata]; decide)]
      · rw [storePayload_mem hstore, Record.writes, if_pos hdata]
  rename_i hdata
  split at hr
  · rename_i heof
    split at hr
    · cases hr
    · cases hr
      exact hsame true hdata (by rw [heof]; decide) (by rw [heof]; decide)
  split at hr
  · rename_i hsegment
    split at hr
    · cases hr
    · cases hr
      exact hmoved _ hdata (by rw [Record.base, if_pos hsegment])
  rename_i hsegment
  split at hr
  · rename_i hlinear
    split at hr
    · cases hr
    · cases hr
      exact hmoved _ hdata (by rw [Record.base, if_neg hsegment, if_pos hlinear])
  rename_i hlinear
  split at hr
  · split at hr
    · cases hr
    · cases hr
      exact hsame s.eof hdata hsegment hlinear
  · cases hr

theorem Ihex.line_ok {s s' : Ihex} {number : Nat} {text : Chars}
    (hr : s.line number text = .ok s') :
    ∃ r, lineRecord text = some r ∧ s.record r.kind r.offset r.payload = .ok s' := by
  unfold Ihex.line at hr
  split at hr
  · rename_i digits
    split at hr
    · cases hr
    · rename_i raw hdigits
      split at hr
      · rename_i length high low kind rest
        split at hr
        · cases hr
        rename_i hlength
        split at hr
        · cases hr
        rename_i hsum
        have hvalid := And.intro (not_not.mp hlength) (not_not.mp hsum)
        have hoffset : 256 * high.toNat + low.toNat < 65536 := by
          have := high.toNat_lt
          have := low.toNat_lt
          omega
        have hpayload : (rest.take length.toNat).length < 256 := by
          have := length.toNat_lt
          rw [List.length_take]
          omega
        refine ⟨⟨kind, _, _, hoffset, hpayload⟩, ?_, hr⟩
        rw [lineRecord, if_pos rfl, hdigits, Option.bind_some, decode, dif_pos hvalid]
      · cases hr
  · cases hr

theorem Ihex.line_holds {s s' : Ihex} {records : List Record}
    (h : s.Holds records) {number : Nat} {text : Chars} (hr : s.line number text = .ok s') :
    ∃ r, lineRecord text = some r ∧ s'.Holds (records ++ [r]) := by
  obtain ⟨r, hrecord, hstep⟩ := Ihex.line_ok hr
  exact ⟨r, hrecord, Ihex.record_holds h hstep⟩

theorem Ihex.lines_holds {s s' : Ihex} {records : List Record}
    (h : s.Holds records) {number : Nat} {found : List Chars} (hr : s.lines number found = .ok s') :
    ∃ rest, lineRecords found = some rest ∧ s'.Holds (records ++ rest) := by
  induction found generalizing s records number with
  | nil =>
    obtain rfl : s = s' := by simpa [Ihex.lines] using hr
    exact ⟨[], rfl, by rwa [List.append_nil]⟩
  | cons text found ih =>
    rw [Ihex.lines] at hr
    cases hline : s.line number text with
    | error e =>
      rw [hline] at hr
      cases hr
    | ok s'' =>
      rw [hline] at hr
      obtain ⟨r, hrecord, h'⟩ := Ihex.line_holds h hline
      obtain ⟨rest, hrest, h''⟩ := ih h' hr
      refine ⟨r :: rest, ?_, ?_⟩
      · rw [lineRecords, hrecord, hrest]
      · rwa [List.append_assoc, List.singleton_append] at h''

/-- The records of a file write at this address. -/
def WrittenBy (data : List UInt8) (a : Int) : Prop :=
  ∃ records, fileRecords data = some records ∧ ∃ cell ∈ writes 0 records, (cell.1 : Int) = a

/-- What the reader accepts: it came to the end of the lines, and the ranges are the runs of
the addresses it has. -/
theorem parseIhex_run {path : String} {file : FileData} {image : ParsedImage}
    (h : parseIhex path file = .ok image) :
    ∃ data s, file = .ok data ∧ Ihex.lines {} 1 (Text.lines data) = .ok s ∧ s.eof = true ∧
      image.entry = none ∧ image.ranges = runs s.addresses ∧ image.ranges ≠ [] := by
  unfold parseIhex at h
  split at h
  · cases h
  rename_i found hfound
  split at h
  · cases h
  rename_i s hlines
  split at h
  · cases h
  rename_i heof
  split at h
  · cases h
  rename_i ranges hranges
  cases h
  unfold readLines at hfound
  split at hfound
  · cases hfound
  rename_i data
  split at hfound
  · cases hfound
  cases hfound
  unfold addressRanges at hranges
  split at hranges
  · cases hranges
  · rename_i found hne
    cases hranges
    exact ⟨data, s, rfl, hlines, not_not.mp heof, rfl, rfl, hne⟩

/-- The lines of an accepted file are those of its bytes. -/
theorem parseIhex_lines {path : String} {data : List UInt8} {image : ParsedImage}
    (h : parseIhex path (.ok data) = .ok image) :
    readLines (.ok data) = .ok (Text.lines data) := by
  unfold parseIhex at h
  cases hascii : nonAscii 0 data with
  | some found => simp [readLines, hascii] at h
  | none => rw [readLines, hascii]

/-- What the reader accepts has records, and its ranges are the addresses they write. -/
theorem parseIhex_ok {path : String} {file : FileData} {image : ParsedImage}
    (h : parseIhex path file = .ok image) :
    ∃ data, file = .ok data ∧ image.entry = none ∧ image.ranges ≠ [] ∧
      (∀ a, Covers image.ranges a ↔ WrittenBy data a) := by
  obtain ⟨data, s, rfl, hlines, _, hentry, hranges, hne⟩ := parseIhex_run h
  have hempty : Ihex.Holds {} [] := ⟨rfl, fun _ => Iff.rfl⟩
  obtain ⟨records, hrecords, hs⟩ := Ihex.lines_holds hempty hlines
  refine ⟨data, rfl, hentry, hne, fun a => ?_⟩
  rw [hranges, covers_runs, Ihex.addresses, List.mem_map]
  constructor
  · rintro ⟨cell, hcell, rfl⟩
    exact ⟨records, hrecords, cell, (hs.memory cell).mp hcell, rfl⟩
  · rintro ⟨records', hrecords', cell, hcell, rfl⟩
    cases hrecords.symm.trans hrecords'
    exact ⟨cell, (hs.memory cell).mpr hcell, rfl⟩

/-! ## What is rendered reads back -/

theorem Ihex.line_record (s : Ihex) (number : Nat) (r : Record) :
    s.line number r.line = s.record r.kind r.offset r.payload := by
  unfold Record.line recordLine Ihex.line
  have hoffset := r.offset_lt
  have hlength : (UInt8.ofNat r.payload.length).toNat = r.payload.length := by
    rw [UInt8.toNat_ofNat', Nat.mod_eq_of_lt r.length_lt]
  have hwhole : 256 * (UInt8.ofNat (r.offset / 256)).toNat + (UInt8.ofNat r.offset).toNat =
      r.offset := by
    rw [UInt8.toNat_ofNat', UInt8.toNat_ofNat']
    omega
  have hsum := encode_total r.kind r.offset r.payload
  simp only [fromHex_hexUpper, encode, body, List.cons_append] at hsum ⊢
  rw [if_neg (by rw [hlength, List.length_append, List.length_singleton]; simp),
    if_neg (by simpa using hsum), hwhole, hlength, List.take_left]

theorem Ihex.lines_append {s s' : Ihex} {number : Nat} {front back : List Chars}
    (h : s.lines number front = .ok s') :
    s.lines number (front ++ back) = s'.lines (number + front.length) back := by
  induction front generalizing s number with
  | nil =>
    obtain rfl : s = s' := by simpa [Ihex.lines] using h
    rfl
  | cons text front ih =>
    rw [Ihex.lines] at h
    rw [List.cons_append, Ihex.lines]
    cases hline : s.line number text with
    | error e =>
      rw [hline] at h
      cases h
    | ok s'' =>
      rw [hline] at h
      rw [List.length_cons, show number + (front.length + 1) = number + 1 + front.length by omega]
      exact ih h

/-- The reader has not come to the end, and every address it has is below `address`. -/
structure Ihex.Before (s : Ihex) (address : Nat) (upper : Option Nat) : Prop where
  eof : s.eof = false
  base : ∀ half, upper = some half → s.base = half * 65536
  memory : ∀ cell ∈ s.memory, cell.1 < address

/-- One row, behind its linear address record where it has one. -/
theorem Ihex.row_read {s : Ihex} {address : Nat} {upper : Option Nat} {data : List UInt8}
    (h : s.Before address upper) (hrow : data.length = 16) (haligned : address % 16 = 0)
    (hsmall : address + 16 ≤ 0x100000000) (number : Nat) :
    s.lines number ((if upper ≠ some (address / 65536) then
      [recordLine 4 0 [UInt8.ofNat (address / 65536 / 256), UInt8.ofNat (address / 65536)]]
        else []) ++
      [recordLine 0 (address % 65536) data]) =
      .ok { memory := s.memory ++
        cells address data, base := address / 65536 * 65536, eof := false } := by
  have hstored : ∀ s' : Ihex, ∀ number, s'.eof = false → s'.memory = s.memory →
      s'.base = address / 65536 * 65536 → s'.lines number [recordLine 0 (address % 65536) data] =
        .ok { memory := s.memory ++
          cells address data, base := address / 65536 * 65536, eof := false } := by
    intro s' number heof hmemory hbase
    have hstart : address / 65536 * 65536 + address % 65536 = address := by omega
    have hline := Ihex.line_record s' number ⟨0, address % 65536, data, by omega, by omega⟩
    rw [Record.line] at hline
    rw [Ihex.lines, hline]
    unfold Ihex.record
    dsimp only
    rw [if_neg (by simp [heof]), if_pos rfl, if_neg (by omega), hbase, hstart, hmemory,
      storePayload_fresh, heof]
    · rfl
    · intro a ha cell hcell
      have := h.memory cell hcell
      have := (List.mem_range'_1.mp ha).1
      omega
  by_cases hsame : upper = some (address / 65536)
  · rw [if_neg (not_not.mpr hsame), List.nil_append]
    exact hstored s number h.eof rfl (h.base _ hsame)
  · rw [if_pos hsame]
    have hhalf : bigEndian [UInt8.ofNat (address / 65536 / 256), UInt8.ofNat (address / 65536)] =
        address / 65536 := by
      show littleEndian [UInt8.ofNat (address / 65536), UInt8.ofNat (address / 65536 / 256)] = _
      rw [littleEndian_cons, littleEndian_cons, littleEndian_nil, UInt8.toNat_ofNat',
        UInt8.toNat_ofNat']
      omega
    have hline := Ihex.line_record s number
      ⟨4, 0, [UInt8.ofNat (address / 65536 / 256), UInt8.ofNat (address / 65536)],
        by decide, by simp⟩
    rw [Record.line] at hline
    rw [List.singleton_append, Ihex.lines, hline]
    unfold Ihex.record
    dsimp only
    rw [if_neg (by simp [h.eof]), if_neg (by decide), if_neg (by decide), if_neg (by decide),
      if_pos rfl, if_neg (by simp), hhalf]
    exact hstored _ _ h.eof rfl rfl

theorem Ihex.rows_read {s : Ihex} {address n : Nat} {upper : Option Nat} {data : List UInt8}
    (h : s.Before address upper) (hlength : data.length = 16 * n) (haligned : address % 16 = 0)
    (hsmall : address + 16 * n ≤ 0x100000000) :
    ∃ base, ∀ number, s.lines number (rows address upper data n) =
      .ok { memory := s.memory ++ cells address data, base, eof := false } := by
  induction n generalizing s address upper data with
  | zero =>
    obtain rfl := List.length_eq_zero_iff.mp hlength
    refine ⟨s.base, fun number => ?_⟩
    rw [rows, Ihex.lines, cells, List.append_nil, ← h.eof]
  | succ n ih =>
    have hrow : (data.take 16).length = 16 := by
      rw [List.length_take]
      omega
    have hfirst := Ihex.row_read h hrow haligned (by omega)
    have hafter : Ihex.Before
        { memory := s.memory ++ cells address (data.take 16), base := address / 65536 * 65536 }
        (address + 16) (some (address / 65536)) := by
      refine ⟨rfl, fun half hhalf => ?_, fun cell hcell => ?_⟩
      · cases hhalf
        rfl
      · rcases List.mem_append.mp hcell with hold | hnew
        · exact Nat.lt_of_lt_of_le (h.memory cell hold) (Nat.le_add_right _ _)
        · obtain ⟨i, hi, hvalue⟩ := mem_cells.mp hnew
          have := (List.getElem?_eq_some_iff.mp hvalue).1
          omega
    obtain ⟨base, hrest⟩ := @ih _ (address + 16) _ (data.drop 16) hafter
      (by rw [List.length_drop]; omega) (by omega) (by omega)
    refine ⟨base, fun number => ?_⟩
    rw [rows, List.append_cons, Ihex.lines_append (hfirst number), hrest, List.append_assoc]
    have hcells := cells_append address (data.take 16) (data.drop 16)
    rw [List.take_append_drop, hrow] at hcells
    rw [← hcells]

theorem nonAscii_none {data : List UInt8} (h : ∀ c ∈ data, c < 0x80)
    (position : Nat) : nonAscii position data = none := by
  induction data generalizing position with
  | nil => rfl
  | cons c rest ih =>
    rw [nonAscii, if_pos (h c (List.mem_cons_self ..)), ih fun d hd =>
      h d (List.mem_cons_of_mem _ hd)]

theorem readLines_joined {written : List Chars} (h : ∀ line ∈ written, ∀ c ∈ line, Plain c) :
    readLines (.ok (joined written)) = .ok written := by
  have hascii : ∀ c ∈ joined written, c < 0x80 := by
    intro c hc
    obtain ⟨line, hline, hc⟩ := List.mem_flatMap.mp hc
    rcases List.mem_append.mp hc with hold | hnew
    · exact (h line hline c hold).2
    · obtain rfl := List.mem_singleton.mp hnew
      decide
  rw [readLines, nonAscii_none hascii]
  exact congrArg Except.ok (lines_written h)

theorem cells_run (start n : Nat) {data : List UInt8} (h : data.length = n) :
    (cells start data).map (fun cell => (cell.1 : Int)) = (List.range n).map fun i : Nat =>
      (start : Int) + i := by
  have haddresses := congrArg (List.map fun a : Nat => (a : Int)) (cells_addresses start data)
  rw [List.map_map, h, List.range'_eq_map_range, List.map_map] at haddresses
  refine haddresses.trans (List.map_congr_left fun i _ => ?_)
  show ((start + i : Nat) : Int) = _
  omega

/-- The text of bytes in rows of 16. -/
def rowsText (start : Nat) (data : List UInt8) : Chars :=
  joined (rows start none data (data.length / 16) ++ [eofLine])

theorem rowsText_plain (start : Nat) (data : List UInt8) :
    ∀ line ∈ rows start none data (data.length / 16) ++ [eofLine], ∀ c ∈ line, Plain c := by
  intro line hline
  rcases List.mem_append.mp hline with hrow | heof
  · exact rows_plain _ _ _ _ line hrow
  · obtain rfl := List.mem_singleton.mp heof
    exact recordLine_plain _ _ _

theorem rowsText_lines (start : Nat) (data : List UInt8) :
    readLines (.ok (rowsText start data)) =
      .ok (rows start none data (data.length / 16) ++ [eofLine]) :=
  readLines_joined (rowsText_plain start data)

theorem rowsText_found (start : Nat) (data : List UInt8) :
    fileRecords (rowsText start data) = lineRecords (rows start none data (data.length / 16) ++
      [eofLine]) := by
  rw [fileRecords, rowsText, joined, lines_written (rowsText_plain start data)]

section
variable {start : Nat} {data : List UInt8} (hstart : start % 16 = 0)
    (hlength : data.length % 16 = 0)
    (hsmall : start + data.length ≤ 0x100000000)
include hstart hlength hsmall

/-- The reader comes to the end of the rows with their bytes. -/
theorem rowsText_read :
    ∃ base, Ihex.lines {} 1 (rows start none data (data.length / 16) ++ [eofLine]) =
    .ok { memory := cells start data, base, eof := true } := by
  have hempty : Ihex.Before {} start none := ⟨rfl, nofun, nofun⟩
  obtain ⟨base, hrows⟩ :=
    @Ihex.rows_read {} start (data.length / 16) none data hempty (by omega) hstart (by omega)
  refine ⟨base, ?_⟩
  have hline := Ihex.line_record { memory := cells start data, base }
    (1 + (rows start none data (data.length / 16)).length) ⟨1, 0, [], by decide, by decide⟩
  rw [Record.line] at hline
  rw [Ihex.lines_append (hrows 1), List.nil_append, eofLine, Ihex.lines, hline]
  rfl

/-- The records of the rows write their bytes. -/
theorem rowsText_records :
    ∃ records, lineRecords (rows start none data (data.length / 16) ++ [eofLine]) = some records ∧
    ∀ cell, cell ∈ writes 0 records ↔ cell ∈ cells start data := by
  obtain ⟨base, hread⟩ := rowsText_read hstart hlength hsmall
  have hempty : Ihex.Holds {} [] := ⟨rfl, fun _ => Iff.rfl⟩
  obtain ⟨records, hrecords, hholds⟩ := Ihex.lines_holds hempty hread
  exact ⟨records, hrecords, fun cell => (hholds.memory cell).symm⟩

theorem parseIhex_rows (path : String) (hdata : data ≠ []) :
    parseIhex path (.ok (rowsText start data)) =
      .ok { ranges := [((start : Int), (start : Int) + data.length)] } := by
  obtain ⟨base, hread⟩ := rowsText_read hstart hlength hsmall
  obtain ⟨n, hn⟩ : ∃ n, data.length = n + 1 := ⟨data.length - 1, by
    have := List.length_pos_iff.mpr hdata
    omega⟩
  have hranges : addressRanges (Ihex.addresses { memory := cells start data, base, eof := true }) =
      .ok [((start : Int), (start : Int) + data.length)] := by
    rw [addressRanges, Ihex.addresses, cells_run start (n + 1) hn, runs_contiguous, hn]
    rfl
  rw [parseIhex, rowsText_lines]
  simp [hread, hranges]

end

end NrfKit.Tools
