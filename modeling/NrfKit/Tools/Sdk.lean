import Mathlib.Data.List.Infix
import NrfKit.Tools.Elf

/- The device manifest of an SDK target: `tools/nrfkit_tools/sdk.py`. The layout comes from
   the linker's own symbols, and the manifest allows what that layout has for RRAM and
   nothing else.

   The files are what reading them gives, and do not change while they are read; the
   digest, the JSON reader, the writer of the manifest and Python's `str.isalnum` come from
   outside. The theorems here say what an accepted layout is (`layoutFromSymbols_ok`) and what
   an accepted target passed (`createDeviceManifest_ok`). -/
namespace NrfKit.Tools.Sdk
open Python Struct Bytes Spans Text

structure Outside where
  files : Files
  /-- `path.is_file()`. -/
  isFile : String → Bool
  /-- `path.resolve()`. -/
  resolve : String → String
  /-- `hashlib.sha256(data).hexdigest()`. -/
  digest : List UInt8 → String
  /-- `json.loads`. -/
  loads : String → Except Raised Value
  /-- The text of a `UnicodeDecodeError`. -/
  undecodable : List UInt8 → String
  /-- `atomic_json`. -/
  write : String → Value → Except Raised Unit
  /-- `str.isalnum`. -/
  alnum : Char → Bool
  /-- `str` of a value. -/
  text : Value → String

def sdkError (text : String) : Raised := ⟨"SdkContractError", text⟩

def freestandingStackBytes : Nat := 0x4000

def lm20SafeRramEnd : Nat := 0x001FD000

def lm20Ram0Origin : Nat := 0x20000000

def lm20Ram0End : Nat := 0x20040000

/-- `_merged`. -/
def merged (ranges : List Span) : List Span := coalesce (sorted ranges)

def sha256 (o : Outside) (path : String) : Except Raised String :=
  match o.files path with
  | .error text => .error ⟨"OSError", text⟩
  | .ok data => .ok (o.digest data)

/-- `path.read_text(encoding="utf-8")`. -/
def readText (o : Outside) (path : String) : Except Raised String :=
  match o.files path with
  | .error text => .error ⟨"OSError", text⟩
  | .ok data =>
    match decodeUtf8 (universalNewlines data) with
    | none => .error ⟨"UnicodeDecodeError", o.undecodable data⟩
    | some text => .ok text

/-! ## The RAM budget -/

structure Budget where
  ramAllocated : Nat := 0
  ramInitialized : Nat := 0
  rramFile : Nat := 0

/-- The regions a budget counts in. -/
structure Memory where
  ramOrigin : Nat
  ramLength : Nat
  rramOrigin : Nat
  rramLength : Nat

def budgetRam (m : Memory) (virtual fileSize memorySize : Nat)
    (b : Budget) : Except Raised Budget :=
  if m.ramOrigin ≤ virtual ∧ virtual < m.ramOrigin + m.ramLength then
    if virtual + memorySize > m.ramOrigin + m.ramLength then
      .error (sdkError "SDC ELF LOAD segment exceeds RAM")
    else .ok { b with ramAllocated := b.ramAllocated + memorySize, ramInitialized :=
      b.ramInitialized + fileSize }
  else .ok b

def budgetRram (m : Memory) (physical fileSize : Nat) (b : Budget) : Except Raised Budget :=
  if m.rramOrigin ≤ physical ∧ physical < m.rramOrigin + m.rramLength then
    if physical + fileSize > m.rramOrigin + m.rramLength then
      .error (sdkError "SDC ELF LOAD segment exceeds RRAM")
    else .ok { b with rramFile := b.rramFile + fileSize }
  else .ok b

def budgetSegments (m : Memory) (data : List UInt8) (offset entrySize : Nat) (b : Budget) :
    List Nat → Except Raised Budget
  | [] => .ok b
  | index :: rest => do
    let values ← unpackFrom program32 data (offset + index * entrySize)
    if field values 0 ≠ 1 then budgetSegments m data offset entrySize b rest
    else do
      let b ← budgetRam m (field values 2) (field values 4) (field values 5) b
      let b ← budgetRram m (field values 3) (field values 4) b
      budgetSegments m data offset entrySize b rest

structure ElfBudget where
  ramAllocatedBytes : Nat
  ramInitializedBytes : Nat
  stackReservedBytes : Nat
  ramTotalReservedBytes : Nat
  ramHeadroomBytes : Int
  ramCapacityBytes : Nat
  rramFileBytes : Nat
  deriving DecidableEq

def elfLoadBudget (o : Outside) (elf : String) (m : Memory) : Except Raised ElfBudget :=
  match o.files elf with
  | .error text => .error ⟨"OSError", text⟩
  | .ok data => do
    raiseIf (data.length < 52 ∨ data.take 5 ≠ elfMagic ++ [1] ∨ data.getD 5 0 ≠ 1)
      (sdkError "SDC budget requires a little-endian ELF32 image")
    let fields ← unpackFrom header32 data 0
    let offset := field fields 5
    let entrySize := field fields 9
    let count := field fields 10
    raiseIf (entrySize ≠ program32.size ∨ offset + count * entrySize > data.length)
      (sdkError "SDC ELF program header table is invalid")
    let b ← budgetSegments m data offset entrySize {} (List.range count)
    let totalReserved := b.ramAllocated + freestandingStackBytes
    pure {
      ramAllocatedBytes := b.ramAllocated
      ramInitializedBytes := b.ramInitialized
      stackReservedBytes := freestandingStackBytes
      ramTotalReservedBytes := totalReserved
      ramHeadroomBytes := (m.ramLength : Int) - totalReserved
      ramCapacityBytes := m.ramLength
      rramFileBytes := b.rramFile }

def ElfBudget.value (b : ElfBudget) : Value :=
  .dict [("ram_allocated_bytes", .int b.ramAllocatedBytes),
    ("ram_initialized_bytes", .int b.ramInitializedBytes),
    ("stack_reserved_bytes", .int b.stackReservedBytes),
      ("ram_total_reserved_bytes", .int b.ramTotalReservedBytes),
    ("ram_headroom_bytes", .int b.ramHeadroomBytes),
      ("ram_capacity_bytes", .int b.ramCapacityBytes),
    ("rram_file_bytes", .int b.rramFileBytes)]

/-! ## The layout -/

def elfLayoutSymbols (o : Outside) (elf : String) : Except Raised Symbols :=
  parseElfAbsoluteSymbols elf (o.files elf)
    ["__nrfkit_rram_start", "__nrfkit_rram_end", "__nrfkit_ram_start", "__nrfkit_ram_end"]
    ["__nrfkit_settings_start", "__nrfkit_settings_end", "__nrfkit_rram_scratch_start",
      "__nrfkit_rram_scratch_end"]

structure Region where
  origin : Nat
  length : Nat
  deriving DecidableEq

abbrev Layout := List (String × Region)

def Region.stop (r : Region) : Nat := r.origin + r.length

def startName (name : String) : String := "__nrfkit_" ++ name ++ "_start"

def endName (name : String) : String := "__nrfkit_" ++ name ++ "_end"

/-- One pass of the loop over the names. -/
def layoutRegion (symbols : Symbols) (name : String) (low high : Nat) : Except Raised Layout :=
  let start := symbols.lookup (startName name)
  let stop := symbols.lookup (endName name)
  if (name = "settings" ∨ name = "rram_scratch") ∧ start = none ∧ stop = none then .ok []
  else
    match start, stop with
    | some start, some stop =>
      if ¬ (low ≤ start ∧ start < stop ∧ stop ≤ high) then
        .error (sdkError ("ELF layout " ++ name ++ " range is unsafe"))
      else .ok [(name, ⟨start, stop - start⟩)]
    | _, _ => .error (sdkError ("ELF layout " ++ name ++ " requires both boundary symbols"))

def requireApart (first : String × Region) : Layout → Except Raised Unit
  | [] => .ok ()
  | second :: rest =>
    if first.2.origin < second.2.stop ∧ second.2.origin < first.2.stop then
      .error (sdkError ("ELF layout regions overlap: " ++ first.1 ++ " and " ++ second.1))
    else requireApart first rest

/-- No two regions overlap. -/
def requireDisjoint : Layout → Except Raised Unit
  | [] => .ok ()
  | first :: rest => do
    requireApart first rest
    requireDisjoint rest

/-- `_layout_from_symbols`. -/
def layoutFromSymbols (symbols : Symbols) : Except Raised Layout := do
  let rram ← layoutRegion symbols "rram" 0 lm20SafeRramEnd
  let ram ← layoutRegion symbols "ram" lm20Ram0Origin lm20Ram0End
  let settings ← layoutRegion symbols "settings" 0 lm20SafeRramEnd
  let scratch ← layoutRegion symbols "rram_scratch" 0 lm20SafeRramEnd
  let layout := rram ++ ram ++ settings ++ scratch
  requireDisjoint (layout.filter (·.1 ≠ "ram"))
  pure layout

def readElfLayout (o : Outside) (elf : String) : Except Raised Layout := do
  let symbols ← elfLayoutSymbols o elf
  layoutFromSymbols symbols

/-- `layout[name]`. -/
def layoutItem (layout : Layout) (name : String) : Except Raised Region :=
  match layout.lookup name with
  | some region => .ok region
  | none => .error ⟨"KeyError", "'" ++ name ++ "'"⟩

/-- The one allowlist a layout gives. -/
def layoutAllowlist (rram : Region) : Value :=
  .list [.list [.int rram.origin, .int (rram.origin + rram.length)]]

/-! ## The evidence of an SDC build -/

/-- `sub in text`. -/
def hasText (sub text : String) : Bool := sub.toList <:+: text.toList

/-- The Controller variants an archive of which is in the link map. -/
def linkVariants (linkMap : String) : List String :=
  ["multirole", "peripheral", "central"].filter fun variant =>
    hasText ("libsoftdevice_controller_" ++ variant ++ ".a(") linkMap

/-- `\s*$` matches here, where `$` stands before every newline. -/
def endsLine : List Char → Bool
  | [] => true
  | c :: rest => c = '\n' ∨ (isSpace c ∧ endsLine rest)

/-- `\bnrfkit_timeslot_open\s*$` matches in what follows `previous`. -/
def timeslotOpened (alnum : Char → Bool) (previous : Option Char) : List Char → Bool
  | [] => false
  | c :: rest =>
    (¬ previous.any (fun c => alnum c ∨ c = '_') ∧ "nrfkit_timeslot_open".toList <+: c :: rest ∧
      endsLine ((c :: rest).drop "nrfkit_timeslot_open".length)) ∨
        timeslotOpened alnum (some c) rest

def resourceNames : List Value → Option (List String)
  | [] => some []
  | .str name :: rest => if name = "" then none else (resourceNames rest).map (name :: ·)
  | _ :: _ => none

/-- The entries of the groups, one after the other. -/
def ownedResources (resources : Value) : List String → Except Raised (List String)
  | [] => .ok []
  | group :: rest => do
    let entries ← resources.get group .none
    match entries with
    | .list (first :: others) =>
      match resourceNames (first :: others) with
      | some names => do
        let later ← ownedResources resources rest
        pure (names ++ later)
      | none => .error (sdkError "SDC provenance has an invalid resource contract")
    | _ => .error (sdkError "SDC provenance has an invalid resource contract")

/-- An error of reading the evidence: `OSError` and `JSONDecodeError` are caught. -/
def evidenceError (e : Raised) : Raised :=
  if isOSError e ∨ e.name = "JSONDecodeError" then
    sdkError ("invalid SDC build evidence: " ++ e.text) else e

def caught {α : Type} (error : Raised → Raised) : Except Raised α → Except Raised α
  | .error e => .error (error e)
  | .ok a => .ok a

def readJson (o : Outside) (path : String) : Except Raised Value := do
  let text ← readText o path
  o.loads text

def requireContract (contract : Value) : Except Raised Unit := do
  let invalid := sdkError "SDC provenance has an invalid binary contract"
  let schema ← contract.get "schema" .none
  raiseIf (¬ schema.eq (.str "nrfkit-m6-sdc-mpsl-contract/v1")) invalid
  let source ← contract.get "source" (.dict [])
  let securityDomain ← source.get "security_domain" .none
  raiseIf (¬ securityDomain.eq (.str "secure")) invalid
  let floatAbi ← source.get "float_abi" .none
  raiseIf (¬ floatAbi.eq (.str "hard-float")) invalid

/-- What the manifest of an HCI build has besides. -/
def buildEvidence (o : Outside) (project buildDir target elf : String) (layout : Layout) :
    Except Raised (List (String × Value)) := do
  let mapPath := buildDir ++ "/" ++ target ++ ".map"
  let contractPath := project ++ "/docs/provenance/m6-sdc-mpsl-contract.json"
  let linkMap ← caught evidenceError (readText o mapPath)
  let contract ← caught evidenceError (readJson o contractPath)
  raiseIf ((linkVariants linkMap).length ≠ 1)
    (sdkError "SDC link map must contain exactly one Controller variant")
  let variant := (linkVariants linkMap).headD ""
  let archives :=
    ["libmpsl.a", "libmpsl_fem_common.a", "libsoftdevice_controller_" ++ variant ++ ".a"]
  raiseIf (¬ archives.all fun name => hasText (name ++ "(") linkMap)
    (sdkError "SDC build evidence does not match the locked link contract")
  requireContract contract
  let resources ← contract.get "lm20_resources" (.dict [])
  let owned ← ownedResources resources
    ["mpsl_interrupt_peripherals", "mpsl_non_interrupt_peripherals", "sdc_owned_peripherals"]
  let contractDigest ← sha256 o contractPath
  let mapDigest ← sha256 o mapPath
  let ram ← layoutItem layout "ram"
  let rram ← layoutItem layout "rram"
  let budget ← elfLoadBudget o elf ⟨ram.origin, ram.length, rram.origin, rram.length⟩
  pure [
    ("hci_transport",
      .dict [("type", .str "H4"), ("baud", .int 1000000), ("hardware_flow_control", .bool true)]),
    ("build_evidence", .dict [
      ("status", .str "ok"), ("variant", .str variant),
      ("timeslot", .bool (timeslotOpened o.alnum none linkMap.toList)),
      ("security_domain", .str "secure"), ("float_abi", .str "hard-float"),
      ("archives", .list (archives.map .str)),
      ("resources", .list ((owned.insertionSort (· ≤ ·)).map .str)),
      ("resource_contract_sha256", .str contractDigest), ("map_sha256", .str mapDigest),
      ("elf_budget", budget.value)])]

/-- The evidence where it is asked for. -/
def requested (asked : Bool) (evidence : Except Raised (List (String × Value))) :
    Except Raised (List (String × Value)) :=
  if asked then evidence else .ok []

/-! ## The manifest -/

def rangesValue (ranges : List Span) : Value :=
  .list (ranges.map fun s => .list [.int s.1, .int s.2])

def symbolsValue (symbols : Symbols) : Value :=
  .dict (symbols.map fun symbol => (symbol.1, .int symbol.2))

/-- `safe_backend_contract`. -/
def safeBackendContract : Value :=
  .dict [("programmer", .str "nrfutil-device"),
    ("program_options",
      .dict [("chip_erase_mode", .str "ERASE_NONE"), ("verify", .str "VERIFY_READ"),
      ("reset", .str "RESET_NONE")]),
    ("resetter", .str "nrfutil-device-reset")]

/-- `[A-Za-z0-9_.-]`. -/
def basenameChar (c : Char) : Bool :=
  ('A' ≤ c ∧ c ≤ 'Z') ∨ ('a' ≤ c ∧ c ≤ 'z') ∨ ('0' ≤ c ∧ c ≤ '9') ∨ c = '_' ∨ c = '.' ∨ c = '-'

def requireFiles (o : Outside) : List String → Except Raised Unit
  | [] => .ok ()
  | path :: rest => do
    raiseIf (¬ o.isFile path) (sdkError ("SDK artifact is missing: " ++ path))
    requireFiles o rest

/-- The manifest of a target, where `evidence` is what an HCI build adds. -/
def createdManifest (target expectedToken elf ihex hexDigest lockDigest elfDigest : String)
    (symbols : Symbols) (rram : Region) (elfImage hexImage : ParsedImage)
    (evidence : List (String × Value)) : Value :=
  .dict ([
    ("schema", .str "nrfkit-image/v1"), ("oracle", .str ("sdk-" ++ target)),
    ("source_receipt_sha256", .str lockDigest), ("soc", .str "nrf54lm20a"),
      ("core", .str "Application"),
    ("board", .str "nrf54lm20dk/nrf54lm20a/cpuapp"), ("board_version", .str "PCA10184"),
    ("device_family", .str "NRF54L"), ("expected_token", .str expectedToken), ("vcom", .int 1),
    ("backend", safeBackendContract),
    ("image_layout",
      .dict [("source", .str "elf-symbols"), ("path", .str elf), ("sha256", .str elfDigest),
      ("symbols", symbolsValue symbols)]),
    ("debug_allowlist", layoutAllowlist rram),
    ("debug_elf", .dict [("path", .str elf), ("sha256", .str elfDigest),
      ("entry", elfImage.entry.elim .none .int), ("ranges", rangesValue elfImage.ranges)]),
    ("images", .list [.dict [("domain", .str target), ("order", .int 0), ("path", .str ihex),
      ("sha256", .str hexDigest), ("ranges", rangesValue hexImage.ranges),
        ("allowlist", layoutAllowlist rram)]])]
    ++ evidence)

def createDeviceManifest (o : Outside) (project buildDir target expectedToken : String)
    (hciH4Hwfc1m : Bool) : Except Raised (String × Value) := do
  raiseIf (target = "" ∨ ¬ target.toList.all basenameChar)
    (sdkError "SDK target is not a safe artifact basename")
  raiseIf (expectedToken = "" ∨ expectedToken.length > 256 ∨
    expectedToken.toList.any (fun c => c.val < 0x20 ∨ c.val > 0x7E))
    (sdkError "expected token must be 1-256 printable ASCII characters")
  let buildDir := o.resolve buildDir
  let elf := buildDir ++ "/" ++ target ++ ".elf"
  let ihex := buildDir ++ "/" ++ target ++ ".hex"
  requireFiles o [elf, ihex]
  let elfImage ← parseElf elf (o.files elf)
  let symbols ← elfLayoutSymbols o elf
  let layout ← layoutFromSymbols symbols
  let rram ← layoutItem layout "rram"
  let allowlist := [[Value.int rram.origin, .int (rram.origin + rram.length)]]
  let hexImage ← parseIhex ihex (o.files ihex)
  requireAllowed elfImage.ranges allowlist
  requireAllowed hexImage.ranges allowlist
  raiseIf (merged elfImage.ranges ≠ merged hexImage.ranges)
    (sdkError "SDK ELF and HEX load ranges do not match")
  raiseIf (¬ elfImage.entry.any fun entry => elfImage.ranges.any fun s => s.1 ≤ entry ∧ entry < s.2)
    (sdkError "SDK ELF entry is outside its load image")
  let hexDigest ← sha256 o ihex
  let lockDigest ← sha256 o (project ++ "/docs/provenance/sources.lock")
  let elfDigest ← sha256 o elf
  let evidence ← requested hciH4Hwfc1m (buildEvidence o project buildDir target elf layout)
  let manifest := createdManifest target expectedToken elf ihex hexDigest lockDigest elfDigest
    symbols rram elfImage
    hexImage evidence
  let output := buildDir ++ "/" ++ target ++ ".device-manifest.json"
  o.write output manifest
  pure (output, manifest)

/-! ## Lemmas -/

section
variable {symbols : Symbols} {layout : Layout}

/-- A region is left out with both its symbols, or lies within its bounds. -/
theorem layoutRegion_ok {name : String} {low high : Nat}
    (h : layoutRegion symbols name low high = .ok layout) :
    (symbols.lookup (startName name) = none ∧ symbols.lookup (endName name) = none ∧
      (name = "settings" ∨ name = "rram_scratch") ∧ layout = []) ∨
    ∃ start stop, symbols.lookup (startName name) = some start ∧
      symbols.lookup (endName name) = some stop ∧
      low ≤ start ∧ start < stop ∧ stop ≤ high ∧ layout = [(name, ⟨start, stop - start⟩)] := by
  unfold layoutRegion at h
  dsimp only at h
  split at h
  · rename_i hout
    exact Or.inl ⟨hout.2.1, hout.2.2, hout.1, (Except.ok.inj h).symm⟩
  · split at h
    · rename_i start stop hstart hstop
      split at h
      · cases h
      · rename_i hsafe
        have hsafe' := not_not.mp hsafe
        exact Or.inr ⟨start, stop, hstart, hstop, hsafe'.1, hsafe'.2.1, hsafe'.2.2,
          (Except.ok.inj h).symm⟩
    · cases h

theorem requireApart_ok {first : String × Region} (h : requireApart first layout = .ok ()) :
    ∀ second ∈ layout, ¬ (first.2.origin < second.2.stop ∧ second.2.origin < first.2.stop) := by
  induction layout with
  | nil => exact fun _ hsecond => nomatch hsecond
  | cons second rest ih =>
    rw [requireApart] at h
    split at h
    · cases h
    · rename_i hapart
      exact List.forall_mem_cons.mpr ⟨hapart, ih h⟩

theorem requireDisjoint_ok (h : requireDisjoint layout = .ok ()) :
    layout.Pairwise fun first second =>
      ¬ (first.2.origin < second.2.stop ∧ second.2.origin < first.2.stop) := by
  induction layout with
  | nil => exact List.Pairwise.nil
  | cons first rest ih =>
    obtain ⟨_, hfirst, hrest⟩ := bind_ok.mp h
    exact List.pairwise_cons.mpr ⟨requireApart_ok hfirst, ih hrest⟩

/-- The symbols bound a region that holds the address. -/
def InRegion (symbols : Symbols) (name : String) (a : Int) : Prop :=
  ∃ start stop : Nat, symbols.lookup (startName name) = some start ∧
    symbols.lookup (endName name) = some stop ∧ (start : Int) ≤ a ∧ a < stop

theorem InRegion.apart {name : String} {low high start stop : Nat}
    (h : layoutRegion symbols name low high = .ok layout)
    (hapart : ∀ second ∈ layout, ¬ (start < second.2.stop ∧ second.2.origin < stop)) {a : Int}
    (hstart : (start : Int) ≤ a) (hstop : a < stop) : ¬ InRegion symbols name a := by
  rintro ⟨first, last, hfirst, hlast, hfrom, hto⟩
  rcases layoutRegion_ok h with ⟨hnone, _⟩ | ⟨first', last', hfirst', hlast', _, hlt, _, rfl⟩
  · exact nomatch hnone.symm.trans hfirst
  · obtain rfl := Option.some.inj (hfirst.symm.trans hfirst')
    obtain rfl := Option.some.inj (hlast.symm.trans hlast')
    have := hapart _ (List.mem_singleton_self _)
    simp only [Region.stop] at this
    omega

theorem layoutRegion_name {name : String} {low high : Nat}
    (h : layoutRegion symbols name low high = .ok layout) :
    ∀ region ∈ layout, region.1 = name := by
  rcases layoutRegion_ok h with ⟨_, _, _, rfl⟩ | ⟨_, _, _, _, _, _, _, rfl⟩ <;> simp

/-- The RRAM region of an accepted layout: below the end of what is safe, and apart from the
settings and the scratch region where the symbols bound them. -/
theorem layoutFromSymbols_ok (h : layoutFromSymbols symbols = .ok layout) :
    ∃ start stop : Nat, symbols.lookup (startName "rram") = some start ∧
      symbols.lookup (endName "rram") = some stop ∧
      start < stop ∧ stop ≤ lm20SafeRramEnd ∧ layoutItem layout "rram" = .ok ⟨start, stop - start⟩ ∧
      ∀ name ∈ ["settings", "rram_scratch"], ∀ a : Int, (start : Int) ≤ a → a < stop →
        ¬ InRegion symbols name a := by
  obtain ⟨rram, hrram, h⟩ := bind_ok.mp h
  obtain ⟨ram, hram, h⟩ := bind_ok.mp h
  obtain ⟨settings, hsettings, h⟩ := bind_ok.mp h
  obtain ⟨scratch, hscratch, h⟩ := bind_ok.mp h
  obtain ⟨_, hdisjoint, h⟩ := bind_ok.mp h
  obtain rfl := pure_ok.mp h
  rcases layoutRegion_ok hrram with ⟨_, _, hname, _⟩ | ⟨start, stop, hstart, hstop, _,
    hlt, hsafe, rfl⟩
  · simp at hname
  have hpairs := requireDisjoint_ok hdisjoint
  rw [List.append_assoc, List.append_assoc, List.singleton_append,
    List.filter_cons_of_pos (by simp)] at hpairs
  have hapart : ∀ region, region ∈ settings ∨ region ∈ scratch →
      ¬ (start < region.2.stop ∧ region.2.origin < stop) := by
    intro region hregion
    have hother : region.1 ≠ "ram" := by
      rcases hregion with hregion | hregion
      · simp [layoutRegion_name hsettings region hregion]
      · simp [layoutRegion_name hscratch region hregion]
    have := (List.pairwise_cons.mp hpairs).1 region
      (List.mem_filter.mpr ⟨by simp [hregion], by simpa using hother⟩)
    rwa [show Region.stop ⟨start, stop - start⟩ = stop from Nat.add_sub_of_le
      (le_of_lt hlt)] at this
  refine ⟨start, stop, hstart, hstop, hlt, hsafe, rfl, fun name hname a hfrom hto => ?_⟩
  simp only [List.mem_cons, List.not_mem_nil, or_false] at hname
  rcases hname with rfl | rfl
  · exact InRegion.apart hsettings (fun region hregion => hapart region (Or.inl hregion)) hfrom hto
  · exact InRegion.apart hscratch (fun region hregion => hapart region (Or.inr hregion)) hfrom hto

end

/-- What an accepted target passed, and what its manifest is made of. -/
theorem createDeviceManifest_ok {o : Outside}
    {project buildDir target token output : String} {hci : Bool} {manifest : Value}
    (h : createDeviceManifest o project buildDir target token hci = .ok (output, manifest)) :
    let elf := o.resolve buildDir ++ "/" ++ target ++ ".elf"
    let ihex := o.resolve buildDir ++ "/" ++ target ++ ".hex"
    ∃ elfImage symbols layout rram hexImage hexDigest lockDigest elfDigest evidence,
      parseElf elf (o.files elf) = .ok elfImage ∧ elfLayoutSymbols o elf = .ok symbols ∧
      layoutFromSymbols symbols = .ok layout ∧ layoutItem layout "rram" = .ok rram ∧
      parseIhex ihex (o.files ihex) = .ok hexImage ∧
      (∀ ranges ∈ [elfImage.ranges, hexImage.ranges],
        requireAllowed ranges [[.int rram.origin, .int (rram.origin + rram.length)]] = .ok ()) ∧
      requested hci (buildEvidence o project (o.resolve buildDir) target elf layout) =
        .ok evidence ∧
      manifest = createdManifest target token elf ihex hexDigest lockDigest elfDigest symbols rram
        elfImage hexImage evidence := by
  obtain ⟨_, _, h⟩ := bind_ok.mp h
  obtain ⟨_, _, h⟩ := bind_ok.mp h
  obtain ⟨_, _, h⟩ := bind_ok.mp h
  obtain ⟨elfImage, helf, h⟩ := bind_ok.mp h
  obtain ⟨symbols, hsymbols, h⟩ := bind_ok.mp h
  obtain ⟨layout, hlayout, h⟩ := bind_ok.mp h
  obtain ⟨rram, hrram, h⟩ := bind_ok.mp h
  obtain ⟨hexImage, hhex, h⟩ := bind_ok.mp h
  obtain ⟨_, helfGuard, h⟩ := bind_ok.mp h
  obtain ⟨_, hhexGuard, h⟩ := bind_ok.mp h
  obtain ⟨_, _, h⟩ := bind_ok.mp h
  obtain ⟨_, _, h⟩ := bind_ok.mp h
  obtain ⟨hexDigest, _, h⟩ := bind_ok.mp h
  obtain ⟨lockDigest, _, h⟩ := bind_ok.mp h
  obtain ⟨elfDigest, _, h⟩ := bind_ok.mp h
  obtain ⟨evidence, hevidence, h⟩ := bind_ok.mp h
  obtain ⟨_, _, h⟩ := bind_ok.mp h
  obtain ⟨_, rfl⟩ := Prod.mk.inj (pure_ok.mp h)
  exact ⟨elfImage, symbols, layout, rram, hexImage, hexDigest,
    lockDigest, elfDigest, evidence, helf, hsymbols, hlayout, hrram, hhex,
    List.forall_mem_cons.mpr ⟨helfGuard, List.forall_mem_singleton.mpr hhexGuard⟩, hevidence, rfl⟩

end NrfKit.Tools.Sdk
