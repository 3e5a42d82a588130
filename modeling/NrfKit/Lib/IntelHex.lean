import NrfKit.Lib.Text

/- The Intel HEX format: records, the base address a record leaves, the bytes the records
   write, and their text. A `Record` keeps the bounds of its fields; `fileRecords` reads the
   lines of a file. -/
namespace IntelHex
open Bytes Text

structure Record where
  kind : UInt8
  offset : Nat
  payload : List UInt8
  offset_lt : offset < 65536
  length_lt : payload.length < 256
  deriving DecidableEq

/-- An address and the byte written there. -/
abbrev Cell := Nat × UInt8

/-- The cells from `start` on. -/
def cells (start : Nat) : List UInt8 → List Cell
  | [] => []
  | byte :: rest => (start, byte) :: cells (start + 1) rest

/-- The base address after a record: a segment or a linear address record sets it. -/
def Record.base (r : Record) (base : Nat) : Nat :=
  if r.kind = 2 then bigEndian r.payload * 16 else if r.kind = 4 then
    bigEndian r.payload * 65536 else base

def Record.writes (r : Record) (base : Nat) : List Cell :=
  if r.kind = 0 then cells (base + r.offset) r.payload else []

def baseAfter : Nat → List Record → Nat
  | base, [] => base
  | base, r :: rest => baseAfter (r.base base) rest

/-- What records write: for each data record the base, its offset and the index. -/
def writes : Nat → List Record → List Cell
  | _, [] => []
  | base, r :: rest => r.writes base ++ writes (r.base base) rest

/-- A base address as the format has it: the offset of a data record is added to a linear one
as it is, and wraps at 64 KiB within a segment. -/
inductive Base where
  | linear (start : Nat)
  | segment (start : Nat)
  deriving DecidableEq

def Base.start : Base → Nat
  | linear start => start
  | segment start => start

/-- The address of one byte of a data record. -/
def Base.address (base : Base) (offset index : Nat) : Nat :=
  match base with
  | linear start => start + offset + index
  | segment start => start + (offset + index) % 65536

def Record.placing (r : Record) (base : Base) : Base :=
  if r.kind = 2 then .segment (bigEndian r.payload * 16)
  else if r.kind = 4 then .linear (bigEndian r.payload * 65536)
  else base

/-- The base the format gives to what follows these records. -/
def placingAfter : Base → List Record → Base
  | base, [] => base
  | base, r :: rest => placingAfter (r.placing base) rest

/-- A byte of a data record: its record, the records before it, and its index. -/
structure DataByte (records before : List Record) (r : Record) (index : Nat) : Prop where
  data : r.kind = 0
  index_lt : index < r.payload.length
  split : ∃ after, records = before ++ r :: after

/-- A programmer that follows the format writes at this address. -/
def Programmed (records : List Record) (address : Nat) : Prop :=
  ∃ before r index, DataByte records before r index ∧
    address = (placingAfter (.linear 0) before).address r.offset index

/-! ## Bytes and lines -/

def total : List UInt8 → Nat
  | [] => 0
  | byte :: rest => byte.toNat + total rest

def body (kind : UInt8) (offset : Nat) (payload : List UInt8) : List UInt8 :=
  UInt8.ofNat payload.length :: UInt8.ofNat (offset / 256) :: UInt8.ofNat offset :: kind :: payload

/-- The byte that brings the sum to a multiple of 256. -/
def checksum (body : List UInt8) : UInt8 := UInt8.ofNat (256 - total body % 256)

def encode (kind : UInt8) (offset : Nat) (payload : List UInt8) : List UInt8 :=
  body kind offset payload ++ [checksum (body kind offset payload)]

def recordLine (kind : UInt8) (offset : Nat) (payload : List UInt8) : Chars :=
  0x3a :: hexUpper (encode kind offset payload)

def Record.line (r : Record) : Chars := recordLine r.kind r.offset r.payload

/-- `"\n".join(lines) + "\n"` for some lines. -/
def joined (written : List Chars) : Chars := written.flatMap fun line => line ++ [0x0a]

def text (records : List Record) : Chars := joined (records.map Record.line)

/-- The record of a byte string of the right length and sum. -/
def decode : List UInt8 → Option Record
  | length :: high :: low :: kind :: rest =>
    if h : rest.length = length.toNat + 1 ∧
      total (length :: high :: low :: kind :: rest) % 256 = 0 then
      some {
        kind
        offset := 256 * high.toNat + low.toNat
        payload := rest.take length.toNat
        offset_lt := by
          have := high.toNat_lt
          have := low.toNat_lt
          omega
        length_lt := by
          have := length.toNat_lt
          rw [List.length_take]
          omega }
    else none
  | _ => none

def lineRecord : Chars → Option Record
  | [] => none
  | c :: digits => if c = 0x3a then (fromHex digits).bind decode else none

def lineRecords : List Chars → Option (List Record)
  | [] => some []
  | line :: rest =>
    match lineRecord line, lineRecords rest with
    | some r, some records => some (r :: records)
    | _, _ => none

/-- The records of a file, each line one of them. -/
def fileRecords (data : List UInt8) : Option (List Record) := lineRecords (lines data)

/-! ## Lemmas -/

theorem mem_cells {start address : Nat} {value : UInt8} {bytes : List UInt8} :
    (address, value) ∈ cells start bytes ↔ ∃ i, address = start + i ∧ bytes[i]? = some value := by
  induction bytes generalizing start with
  | nil => simp [cells]
  | cons byte rest ih =>
    rw [cells, List.mem_cons, ih]
    constructor
    · rintro (heq | ⟨i, rfl, hi⟩)
      · cases heq
        exact ⟨0, rfl, rfl⟩
      · exact ⟨i + 1, by omega, by simpa using hi⟩
    · rintro ⟨i, rfl, hi⟩
      cases i with
      | zero => exact Or.inl (by simpa using hi.symm)
      | succ i => exact Or.inr ⟨i, by omega, by simpa using hi⟩

theorem cells_append (start : Nat) (front back : List UInt8) :
    cells start (front ++ back) = cells start front ++ cells (start + front.length) back := by
  induction front generalizing start with
  | nil => rfl
  | cons byte rest ih =>
    rw [List.cons_append, cells, cells, ih, List.cons_append, List.length_cons]
    congr 3
    omega

theorem cells_addresses (start : Nat) (bytes : List UInt8) :
    (cells start bytes).map Prod.fst = List.range' start bytes.length := by
  induction bytes generalizing start with
  | nil => rfl
  | cons byte rest ih => rw [cells, List.map_cons, ih, List.length_cons, List.range'_succ]

theorem writes_append (base : Nat) (front back : List Record) :
    writes base (front ++ back) = writes base front ++ writes (baseAfter base front) back := by
  induction front generalizing base with
  | nil => rfl
  | cons r rest ih => rw [List.cons_append, writes, writes, ih, List.append_assoc, baseAfter]

theorem baseAfter_append (base : Nat) (front back : List Record) :
    baseAfter base (front ++ back) = baseAfter (baseAfter base front) back := by
  induction front generalizing base with
  | nil => rfl
  | cons r rest ih => rw [List.cons_append, baseAfter, baseAfter, ih]

/-- The base address is the start of the base the format gives. -/
theorem placingAfter_start (base : Base) (records : List Record) :
    (placingAfter base records).start = baseAfter base.start records := by
  induction records generalizing base with
  | nil => rfl
  | cons r rest ih =>
    have hfirst : (r.placing base).start = r.base base.start := by
      unfold Record.placing Record.base
      by_cases hsegment : r.kind = 2
      · rw [if_pos hsegment, if_pos hsegment, Base.start]
      · rw [if_neg hsegment, if_neg hsegment]
        by_cases hlinear : r.kind = 4
        · rw [if_pos hlinear, if_pos hlinear, Base.start]
        · rw [if_neg hlinear, if_neg hlinear]
    rw [placingAfter, ih, hfirst, baseAfter]

/-- What is written: the bytes of the data records, each behind the base of the records
before it. -/
theorem mem_writes {base address : Nat} {value : UInt8} {records : List Record} :
    (address, value) ∈ writes base records ↔
      ∃ before r index, DataByte records before r index ∧ r.payload[index]? = some value ∧
        address = baseAfter base before + r.offset + index := by
  induction records generalizing base with
  | nil =>
    refine ⟨nofun, ?_⟩
    rintro ⟨before, r, index, ⟨_, _, after, hsplit⟩, _⟩
    cases before <;> cases hsplit
  | cons r rest ih =>
    rw [writes, List.mem_append, ih]
    constructor
    · rintro (hhere | ⟨before, s, index, ⟨hdata, hindex, after, rfl⟩, hvalue, rfl⟩)
      · unfold Record.writes at hhere
        split at hhere
        · rename_i hdata
          obtain ⟨index, rfl, hvalue⟩ := mem_cells.mp hhere
          exact ⟨[], r, index,
            ⟨hdata, (List.getElem?_eq_some_iff.mp hvalue).1, rest, rfl⟩, hvalue, rfl⟩
        · cases hhere
      · exact ⟨r :: before, s, index, ⟨hdata, hindex, after, rfl⟩, hvalue, rfl⟩
    · rintro ⟨before, s, index, ⟨hdata, hindex, after, hsplit⟩, hvalue, rfl⟩
      cases before with
      | nil =>
        cases hsplit
        refine Or.inl ?_
        rw [Record.writes, if_pos hdata]
        exact mem_cells.mpr ⟨index, rfl, hvalue⟩
      | cons first before =>
        cases hsplit
        exact Or.inr ⟨before, s, index, ⟨hdata, hindex, after, rfl⟩, hvalue, rfl⟩

/-- An address is written iff it is that of a byte. -/
theorem written_iff {base address : Nat} {records : List Record} :
    (∃ cell ∈ writes base records, cell.1 = address) ↔
      ∃ before r index, DataByte records before r index ∧
        address = baseAfter base before + r.offset + index := by
  constructor
  · rintro ⟨⟨_, value⟩, hcell, rfl⟩
    obtain ⟨before, r, index, hbyte, _, haddress⟩ := mem_writes.mp hcell
    exact ⟨before, r, index, hbyte, haddress⟩
  · rintro ⟨before, r, index, hbyte, haddress⟩
    have hvalue : r.payload[index]? = some (r.payload.get ⟨index, hbyte.index_lt⟩) :=
      List.getElem?_eq_some_iff.mpr ⟨hbyte.index_lt, rfl⟩
    exact ⟨(address, _), mem_writes.mpr ⟨before, r, index, hbyte, hvalue, haddress⟩, rfl⟩

theorem total_append (front back : List UInt8) :
    total (front ++ back) = total front + total back := by
  induction front with
  | nil => rw [List.nil_append, total, Nat.zero_add]
  | cons byte rest ih => rw [List.cons_append, total, total, ih, Nat.add_assoc]

theorem encode_total (kind : UInt8) (offset : Nat) (payload : List UInt8) :
    total (encode kind offset payload) % 256 = 0 := by
  rw [encode, total_append, checksum, total, total, UInt8.toNat_ofNat']
  omega

/-- A record has the length its first byte gives and a sum that is a multiple of 256. -/
def Sized (raw : List UInt8) : Prop :=
  5 ≤ raw.length ∧ ∀ length ∈ raw.head?, raw.length = length.toNat + 5

theorem decode_some {raw : List UInt8} {r : Record} (h : decode raw = some r) : Sized raw ∧
    total raw % 256 = 0 := by
  unfold decode at h
  split at h
  · rename_i length high low kind rest
    split at h
    · rename_i hvalid
      refine ⟨⟨by simp [hvalid.1], fun first hfirst => ?_⟩, hvalid.2⟩
      obtain rfl : length = first := by simpa using hfirst
      simp [hvalid.1]
    · cases h
  · cases h

/-- The bytes of a line behind its colon. -/
def lineBytes : Chars → Option (List UInt8)
  | [] => none
  | c :: digits => if c = 0x3a then fromHex digits else none

theorem lineRecord_some {line : Chars} {r : Record} (h : lineRecord line = some r) :
    ∃ digits raw, line = 0x3a :: digits ∧ fromHex digits = some raw ∧ decode raw = some r := by
  cases line with
  | nil => cases h
  | cons c digits =>
    rw [lineRecord] at h
    split at h
    · rename_i hcolon
      obtain ⟨raw, hraw, hdecode⟩ := Option.bind_eq_some_iff.mp h
      exact ⟨digits, raw, by rw [hcolon], hraw, hdecode⟩
    · cases h

theorem lineRecords_filterMap {found : List Chars} {records : List Record}
    (h : lineRecords found = some records) :
    found.filterMap lineRecord = records ∧ ∀ line ∈ found, ∃ r, lineRecord line = some r := by
  induction found generalizing records with
  | nil =>
    cases h
    exact ⟨rfl, nofun⟩
  | cons line found ih =>
    rw [lineRecords] at h
    split at h
    · rename_i r rest hline hrest
      cases h
      obtain ⟨hrecords, hall⟩ := ih hrest
      refine ⟨by rw [List.filterMap_cons_some hline, hrecords], fun other hother => ?_⟩
      rcases List.mem_cons.mp hother with rfl | hother
      · exact ⟨r, hline⟩
      · exact hall other hother
    · cases h

/-! ## Rows -/

/-- The records of bytes in rows of 16: a linear address record where the upper half of the
address changes, then the row. -/
def rows (address : Nat) (upper : Option Nat) (data : List UInt8) : Nat → List Chars
  | 0 => []
  | n + 1 =>
    (if upper ≠ some (address / 65536) then
      [recordLine 4 0 [UInt8.ofNat (address / 65536 / 256), UInt8.ofNat (address / 65536)]]
        else []) ++
    recordLine 0 (address % 65536) (data.take 16) :: rows (address + 16) (some (address / 65536))
      (data.drop 16) n

def eofLine : Chars := recordLine 1 0 []

theorem recordLine_plain (kind : UInt8) (offset : Nat) (payload : List UInt8) :
    ∀ c ∈ recordLine kind offset payload, Plain c := by
  intro c hc
  rcases List.mem_cons.mp hc with rfl | hc
  · exact ⟨by decide, by decide⟩
  · exact hexUpper_plain _ c hc

theorem rows_plain (address : Nat) (upper : Option Nat) (data : List UInt8) (n : Nat) :
    ∀ line ∈ rows address upper data n, ∀ c ∈ line, Plain c := by
  induction n generalizing address upper data with
  | zero => nofun
  | succ n ih =>
    intro line hline
    rw [rows, List.mem_append, List.mem_cons] at hline
    rcases hline with hlinear | rfl | hrest
    · split at hlinear
      · obtain rfl := List.mem_singleton.mp hlinear
        exact recordLine_plain _ _ _
      · cases hlinear
    · exact recordLine_plain _ _ _
    · exact ih _ _ _ line hrest

/-! ## What is stored -/

/-- The memory after the cells are written in order. -/
def store (memory : Nat → UInt8) (written : List Cell) : Nat → UInt8 :=
  written.foldl (fun memory cell a => if a = cell.1 then cell.2 else memory a) memory

theorem store_other {memory : Nat → UInt8} {written : List Cell} {a : Nat}
    (h : ∀ cell ∈ written, cell.1 ≠ a) :
    store memory written a = memory a := by
  induction written generalizing memory with
  | nil => rfl
  | cons cell rest ih =>
    obtain ⟨hfirst, hrest⟩ := List.forall_mem_cons.mp h
    rw [store, List.foldl_cons]
    exact (ih hrest).trans (if_neg fun heq => hfirst heq.symm)

/-- Where all cells agree with `value`, what is written is `value`. -/
theorem store_written {memory value : Nat → UInt8} {written : List Cell} {a : Nat}
    (hvalue : ∀ cell ∈ written, cell.2 = value cell.1)
    (h : (∃ cell ∈ written, cell.1 = a) ∨ memory a = value a) :
    store memory written a = value a := by
  induction written generalizing memory with
  | nil => exact h.elim (fun ⟨_, hcell, _⟩ => nomatch hcell) id
  | cons cell rest ih =>
    obtain ⟨hfirst, hrest⟩ := List.forall_mem_cons.mp hvalue
    rw [store, List.foldl_cons]
    refine ih hrest ?_
    by_cases heq : a = cell.1
    · exact Or.inr (by rw [if_pos heq, hfirst, heq])
    · rw [if_neg heq]
      rcases h with ⟨found, hfound, hat⟩ | hold
      · rcases List.mem_cons.mp hfound with rfl | hfound
        · exact absurd hat.symm heq
        · exact Or.inl ⟨found, hfound, hat⟩
      · exact Or.inr hold

end IntelHex
