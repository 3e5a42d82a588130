import NrfKit.Tools.HexFormat

/- The settings image of the mouse firmware: `tools/nrfkit_tools/bond.py`. The image is
   read twice, by the checking reader and by one that only collects the bytes; on an image
   the first accepts they see the same cells. -/
namespace NrfKit.Tools
open Python Bytes Text IntelHex Spans

def m6SettingsStart : Nat := 0x001E1800

def m6SettingsSize : Nat := 0x2000

def m6SettingsRange : Span := (0x001E1800, 0x001E3800)

def isM6BondManifest (oracle : Value) : Bool := oracle.eq (.str "nrf-bm-ble-hids-mouse-s115")

/-- The text that `write_erased_m6_settings` writes. -/
def erasedText : Chars :=
  joined (recordLine 4 0 [0x00, 0x1e] ::
    (List.range 512).map (fun i =>
      recordLine 0 ((m6SettingsStart + 16 * i) % 65536) (List.replicate 16 0xff)) ++
    [recordLine 1 0 []])

def requireExactM6SettingsImage (path : String) (file : FileData) : Except Raised Unit :=
  match parseIhex path file with
  | .error e => .error e
  | .ok image =>
    match requireAllowed image.ranges [spanEntry m6SettingsRange] with
    | .error e => .error e
    | .ok _ =>
      if image.ranges ≠ [m6SettingsRange] then
        .error (imageError "bond image must cover exactly the M6 settings region")
      else .ok ()

/-- One line of the collecting reader. The last byte stored at an address comes first. -/
def settingsLine (memory : List Cell) (base : Nat)
    (text : Chars) : Except Raised (List Cell × Nat) :=
  match fromHex text.tail with
  | none => .error ⟨"ValueError", "non-hexadecimal number found in fromhex() arg"⟩
  | some (length :: high :: low :: kind :: rest) =>
    let payload := rest.take length.toNat
    if kind = 0 then
      .ok ((cells (base + (256 * high.toNat + low.toNat)) payload).reverse ++ memory, base)
    else if kind = 2 then .ok (memory, bigEndian payload * 16)
    else if kind = 4 then .ok (memory, bigEndian payload * 65536)
    else .ok (memory, base)
  | some raw =>
    .error ⟨"ValueError", "not enough values to unpack (expected 4, got " ++
      toString raw.length ++ ")"⟩

def settingsLoop (memory : List Cell) (base : Nat) : List Chars → Except Raised (List Cell)
  | [] => .ok memory
  | text :: rest =>
    match settingsLine memory base text with
    | .error e => .error e
    | .ok (memory', base') => settingsLoop memory' base' rest

/-- `bytes(memory[address] for address in range(...))`. -/
def memoryBytes (memory : List Cell) (address : Nat) : Nat → Except Raised (List UInt8)
  | 0 => .ok []
  | n + 1 =>
    match memory.lookup address with
    | none => .error ⟨"KeyError", toString address⟩
    | some value =>
      match memoryBytes memory (address + 1) n with
      | .error e => .error e
      | .ok rest => .ok (value :: rest)

/-- The bytes of a settings image: the second part of `read_exact_m6_settings`. -/
def settingsBytes (data : List UInt8) : Except Raised (List UInt8) :=
  match readLines (.ok data) with
  | .error text => .error ⟨"UnicodeDecodeError", text⟩
  | .ok found =>
    match settingsLoop [] 0 found with
    | .error e => .error e
    | .ok memory => memoryBytes memory m6SettingsStart m6SettingsSize

def readExactM6Settings (path : String) (file : FileData) : Except Raised (List UInt8) :=
  match requireExactM6SettingsImage path file with
  | .error e => .error e
  | .ok _ =>
    match file with
    | .error text => .error ⟨"OSError", text⟩
    | .ok data => settingsBytes data

/-! ## Images of the settings region -/

theorem settingsLine_record {text : Chars} {r : Record} (h : lineRecord text = some r)
    (memory : List Cell) (base : Nat) :
    settingsLine memory base text = .ok ((r.writes base).reverse ++ memory, r.base base) := by
  cases text with
  | nil => cases h
  | cons c digits =>
    rw [lineRecord] at h
    split at h
    · cases hraw : fromHex digits with
      | none =>
        rw [hraw] at h
        cases h
      | some raw =>
        rw [hraw, Option.bind_some] at h
        unfold decode at h
        split at h
        · rename_i length high low kind rest
          split at h
          · cases h
            unfold settingsLine
            simp only [List.tail_cons, hraw]
            by_cases h0 : kind = 0
            · simp [h0, Record.writes, Record.base]
            · by_cases h2 : kind = 2
              · simp [h2, Record.writes, Record.base]
              · by_cases h4 : kind = 4
                · simp [h4, Record.writes, Record.base]
                · simp [h0, h2, h4, Record.writes, Record.base]
          · cases h
        · cases h
    · cases h

theorem settingsLoop_records {found : List Chars} {records : List Record}
    (h : lineRecords found = some records) (memory : List Cell) (base : Nat) :
    settingsLoop memory base found = .ok ((writes base records).reverse ++ memory) := by
  induction found generalizing records memory base with
  | nil =>
    cases h
    rfl
  | cons text found ih =>
    rw [lineRecords] at h
    cases hrecord : lineRecord text with
    | none =>
      rw [hrecord] at h
      cases h
    | some r =>
      cases hrest : lineRecords found with
      | none =>
        rw [hrecord, hrest] at h
        cases h
      | some rest =>
        rw [hrecord, hrest] at h
        cases h
        rw [settingsLoop, settingsLine_record hrecord]
        dsimp only
        rw [ih hrest, writes, List.reverse_append, List.append_assoc]

/-- The bytes in memory where every cell of the data is the only one at its address. -/
theorem memoryBytes_cells {memory : List Cell} {address : Nat} {data : List UInt8}
    (h : ∀ i (hi : i < data.length), memory.lookup (address + i) = some data[i]) :
    memoryBytes memory address data.length = .ok data := by
  induction data generalizing address with
  | nil => rfl
  | cons byte rest ih =>
    have hfirst := h 0 (Nat.zero_lt_succ _)
    have hrest : memoryBytes memory (address + 1) rest.length = .ok rest := by
      apply ih
      intro i hi
      have := h (i + 1) (Nat.succ_lt_succ hi)
      rwa [Nat.add_assoc, Nat.add_comm 1]
    rw [Nat.add_zero] at hfirst
    rw [List.length_cons, memoryBytes, hfirst]
    dsimp only
    rw [hrest]
    rfl

theorem lookup_cells {memory : List Cell} {start : Nat} {data : List UInt8}
    (h : ∀ cell, cell ∈ memory ↔ cell ∈ cells start data) {i : Nat} (hi : i < data.length) :
    memory.lookup (start + i) = some data[i] := by
  have hmem : (start + i, data[i]) ∈ memory :=
    (h _).mpr (mem_cells.mpr ⟨i, rfl, List.getElem?_eq_getElem hi⟩)
  cases hlookup : memory.lookup (start + i) with
  | none =>
    rw [List.lookup_eq_none_iff] at hlookup
    exact absurd (hlookup _ hmem) (by simp)
  | some value =>
    obtain ⟨j, hj, hvalue⟩ := mem_cells.mp ((h _).mp (lookup_mem hlookup))
    obtain rfl : i = j := by omega
    rw [List.getElem?_eq_getElem hi] at hvalue
    exact hvalue.symm

section
variable {data : List UInt8} (hdata : data.length = m6SettingsSize)
include hdata

theorem requireExact_rows (path : String) :
    requireExactM6SettingsImage path (.ok (rowsText m6SettingsStart data)) = .ok () := by
  have hsome : data ≠ [] := by
    intro hnone
    rw [hnone] at hdata
    cases hdata
  have hparse :=
    @parseIhex_rows m6SettingsStart data rfl (by rw [hdata]; rfl) (by rw [hdata]; decide) path hsome
  have hrange : ((m6SettingsStart : Int), (m6SettingsStart : Int) + data.length) =
      m6SettingsRange := by
    rw [hdata]
    rfl
  rw [requireExactM6SettingsImage, hparse, hrange]
  rfl

theorem settingsBytes_rows : settingsBytes (rowsText m6SettingsStart data) = .ok data := by
  obtain ⟨records, hrecords, hcells⟩ :=
    @rowsText_records m6SettingsStart data rfl (by rw [hdata]; rfl) (by rw [hdata]; decide)
  rw [settingsBytes, rowsText_lines]
  dsimp only
  rw [settingsLoop_records hrecords, List.append_nil]
  dsimp only
  rw [← hdata]
  apply memoryBytes_cells
  intro i hi
  exact lookup_cells (fun cell => by rw [List.mem_reverse, hcells]) hi

end

/-- Rows of one byte below one upper address. -/
theorem rows_replicate {address upper n : Nat} (byte : UInt8) (hlow : upper * 65536 ≤ address)
    (hhigh : address + 16 * n ≤ (upper + 1) * 65536) :
    rows address (some upper) (List.replicate (16 * n) byte) n =
      (List.range n).map fun i =>
        recordLine 0 ((address + 16 * i) % 65536) (List.replicate 16 byte) := by
  induction n generalizing address with
  | zero => rfl
  | succ n ih =>
    have hupper : address / 65536 = upper := by omega
    have htake : (List.replicate (16 * (n + 1)) byte).take 16 = List.replicate 16 byte := by
      rw [List.take_replicate, Nat.min_eq_left (by omega)]
    have hdrop : (List.replicate (16 * (n + 1)) byte).drop 16 = List.replicate (16 * n) byte := by
      rw [List.drop_replicate, Nat.mul_succ, Nat.add_sub_cancel]
    rw [rows, hupper, htake, hdrop, ih (by omega) (by omega), List.range_succ_eq_map,
      List.map_cons, List.map_map]
    simp only [ne_eq, not_true, if_false, List.nil_append]
    congr 1
    apply List.map_congr_left
    intro i _
    simp only [Function.comp_apply, Nat.succ_eq_add_one, Nat.mul_add, Nat.mul_one, Nat.add_assoc,
      Nat.add_comm 16]

theorem rows_first (address : Nat) (data : List UInt8) (n : Nat) :
    rows address none data (n + 1) =
      recordLine 4 0 [UInt8.ofNat (address / 65536 / 256), UInt8.ofNat (address / 65536)] ::
        rows address (some (address / 65536)) data (n + 1) := by
  simp [rows]

theorem erasedText_rows :
    erasedText = rowsText m6SettingsStart (List.replicate m6SettingsSize 0xff) := by
  have hrest : rows m6SettingsStart (some 0x1e) (List.replicate (16 * 512) 0xff) 512 = _ :=
    rows_replicate 0xff (by decide) (by decide)
  rw [rowsText, List.length_replicate]
  show erasedText =
    joined (rows m6SettingsStart none (List.replicate (16 * 512) 0xff) (511 + 1) ++ [eofLine])
  rw [rows_first]
  show erasedText = joined (recordLine 4 0 [0x00, 0x1e] ::
    rows m6SettingsStart (some 0x1e) (List.replicate (16 * 512) 0xff) 512 ++ [eofLine])
  rw [hrest]
  rfl

/-! ## The two readers -/

theorem requireExact_ok {path : String} {file : FileData}
    (h : requireExactM6SettingsImage path file = .ok ()) :
    ∃ image, parseIhex path file = .ok image ∧ image.ranges = [m6SettingsRange] := by
  unfold requireExactM6SettingsImage at h
  split at h
  · cases h
  rename_i image hparse
  split at h
  · cases h
  split at h
  · cases h
  rename_i hranges
  exact ⟨image, hparse, not_not.mp hranges⟩

theorem OneValue.lookup {memory : List Cell} (h : OneValue memory) {address : Nat} {value : UInt8}
    (hcell : (address, value) ∈ memory) : memory.lookup address = some value := by
  cases hlookup : memory.lookup address with
  | none =>
    have hnone := List.lookup_eq_none_iff.mp hlookup _ hcell
    simp at hnone
  | some other =>
    have hother := lookup_mem hlookup
    rw [h.single address other value hother hcell]

/-- The bytes in memory where every address has one. -/
theorem memoryBytes_total {memory : List Cell} {address n : Nat}
    (h : ∀ i < n, ∃ value, memory.lookup (address + i) = some value) :
    ∃ bytes, memoryBytes memory address n = .ok bytes ∧ bytes.length = n ∧
      ∀ i (hi : i < bytes.length), memory.lookup (address + i) = some bytes[i] := by
  induction n generalizing address with
  | zero => exact ⟨[], rfl, rfl, fun i hi => absurd hi (Nat.not_lt_zero i)⟩
  | succ n ih =>
    obtain ⟨value, hvalue⟩ := h 0 (Nat.zero_lt_succ n)
    rw [Nat.add_zero] at hvalue
    have hlater : ∀ i < n, ∃ value, memory.lookup (address + 1 + i) = some value := by
      intro i hi
      have := h (i + 1) (Nat.succ_lt_succ hi)
      rwa [Nat.add_comm i, ← Nat.add_assoc] at this
    obtain ⟨rest, hrest, hlength, hcells⟩ := ih hlater
    refine ⟨value :: rest, ?_, ?_, ?_⟩
    · rw [memoryBytes, hvalue]
      dsimp only
      rw [hrest]
    · rw [List.length_cons, hlength]
    · intro i hi
      cases i with
      | zero => simpa using hvalue
      | succ i =>
        have := hcells i (Nat.lt_of_succ_lt_succ hi)
        rwa [Nat.add_assoc, Nat.add_comm 1] at this

/-- What the checking reader accepts the collecting reader reads to its end, and every byte is
the value the checking reader has at its address. -/
theorem readExactM6Settings_agrees {path : String} {file : FileData}
    (h : requireExactM6SettingsImage path file = .ok ()) :
    ∃ found s bytes, readLines file = .ok found ∧ Ihex.lines {} 1 found = .ok s ∧
      readExactM6Settings path file = .ok bytes ∧ bytes.length = 8192 ∧
      ∀ k (hk : k < bytes.length), s.memory.lookup (m6SettingsStart + k) = some bytes[k] := by
  obtain ⟨image, hparse, hexact⟩ := requireExact_ok h
  obtain ⟨data, s, rfl, hread, _, _, hranges, _⟩ := parseIhex_run hparse
  have hfound : readLines (.ok data) = .ok (Text.lines data) := parseIhex_lines hparse
  have hempty : Ihex.Holds {} [] := ⟨rfl, fun _ => Iff.rfl⟩
  obtain ⟨records, hrecords, hholds⟩ := Ihex.lines_holds hempty hread
  have hnothing : OneValue [] := ⟨fun _ _ _ hv => (nomatch hv), fun _ hcell => (nomatch hcell)⟩
  have hone : OneValue s.memory :=
    Ihex.lines_keep (P := fun s => OneValue s.memory) (fun r h hr =>
      Ihex.record_one h hr) hnothing hread
  -- both readers have the cells the records write
  have hsame : ∀ cell, cell ∈ (writes 0 records).reverse ++ [] ↔ cell ∈ s.memory := by
    intro cell
    rw [List.append_nil, List.mem_reverse, hholds.memory, List.nil_append]
  have hcovered : ∀ k < m6SettingsSize, ∃ value, (m6SettingsStart + k, value) ∈ s.memory := by
    intro k hk
    have hspan : Covers image.ranges ((m6SettingsStart + k : Nat) : Int) := by
      rw [hexact]
      refine ⟨m6SettingsRange, List.mem_singleton_self _, ?_⟩
      simp only [m6SettingsStart, m6SettingsSize, m6SettingsRange, Span.Holds] at hk ⊢
      omega
    rw [hranges, covers_runs, Ihex.addresses, List.mem_map] at hspan
    obtain ⟨⟨address, value⟩, hcell, haddress⟩ := hspan
    obtain rfl : address = m6SettingsStart + k := Int.ofNat_inj.mp haddress
    exact ⟨value, hcell⟩
  obtain ⟨bytes, hbytes, hlength, hcells⟩ :=
    @memoryBytes_total ((writes 0 records).reverse ++ []) m6SettingsStart m6SettingsSize
    (by
      intro k hk
      obtain ⟨value, hcell⟩ := hcovered k hk
      cases hlookup : ((writes 0 records).reverse ++ []).lookup (m6SettingsStart + k) with
      | none =>
        have hnone := List.lookup_eq_none_iff.mp hlookup _ ((hsame _).mpr hcell)
        simp at hnone
      | some other => exact ⟨other, rfl⟩)
  refine ⟨Text.lines data, s, bytes, hfound, hread, ?_, hlength, ?_⟩
  · rw [readExactM6Settings, h]
    dsimp only
    rw [settingsBytes, hfound]
    dsimp only
    rw [settingsLoop_records hrecords]
    exact hbytes
  · intro k hk
    exact hone.lookup ((hsame _).mp (lookup_mem (hcells k hk)))

/-- What is written to clear the settings passes its own check. -/
theorem requireExact_erased (path : String) :
    requireExactM6SettingsImage path (.ok erasedText) = .ok () := by
  rw [erasedText_rows]
  exact requireExact_rows List.length_replicate path

theorem readExactM6Settings_erased :
    ∃ found s bytes, readLines (.ok erasedText) = .ok found ∧ Ihex.lines {} 1 found = .ok s ∧
      readExactM6Settings "/run/erased.hex" (.ok erasedText) = .ok bytes ∧ bytes.length = 8192 ∧
      ∀ k (hk : k < bytes.length), s.memory.lookup (m6SettingsStart + k) = some bytes[k] :=
  readExactM6Settings_agrees (requireExact_erased "/run/erased.hex")

end NrfKit.Tools
