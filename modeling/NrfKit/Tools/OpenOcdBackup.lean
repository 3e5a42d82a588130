import NrfKit.Tools.Manifest
import NrfKit.Tools.OpenOcd

/- Backup and restore of the OpenOCD commands: `tools/nrfkit_tools/openocd_cli.py`.

   A backup takes what the images of a manifest can overwrite, in units of 16 bytes, and the
   settings where it is told to; what touches is put together. A restore guards each range
   it is given with one entry of the manifest's debug allowlist or the settings. So a backup
   comes back exactly where no range was put together over the end of an entry
   (`restore_round_trip`).

   OpenOCD is what it is documented to do where it succeeds (`Documented`): the commands in
   their order, and the identity of the target. -/
namespace NrfKit.Tools.OpenOcd
open Python Bytes Text IntelHex Spans
open Manifest (Accepted)

/-! ## The target -/

structure Identity where
  part : Nat
  variant : Nat
  rramKib : Nat
  deviceId : String
  deriving DecidableEq

/-- The value of a digit of `[0-9a-f]`. -/
def lowerDigit (c : Char) : Option Nat :=
  if '0' ≤ c ∧ c ≤ '9' then some (c.toNat - 48) else if 'a' ≤ c ∧ c ≤ 'f' then
    some (c.toNat - 87) else none

/-- The number of the digits behind those read. -/
def readDigits (base : Nat) (digit : Char → Option Nat) (value : Nat) : List Char → Option Nat
  | [] => some value
  | c :: rest => (digit c).bind fun d => readDigits base digit (value * base + d) rest

/-- `[0-9a-f]{8}` and what is behind it. -/
def hexWord (line : List Char) : Option (Nat × List Char) :=
  if line.length < 8 then none else (readDigits 16 lowerDigit 0 (line.take 8)).map fun value =>
    (value, line.drop 8)

/-- What is behind `front`. -/
def behind (front line : List Char) : Option (List Char) :=
  if line.take front.length = front then some (line.drop front.length) else none

/-- `\d+` to the end; the tool prints ASCII. -/
def decimal (line : List Char) : Option Nat :=
  if line = [] then none
    else readDigits 10 (fun c => if '0' ≤ c ∧ c ≤ '9' then some (c.toNat - 48) else none) 0 line

/-- `^NRFKIT_ID ([0-9a-f]{8}) ([0-9a-f]{8}) (\d+)$`. -/
def idLine (line : List Char) : Option (Nat × Nat × Nat) := do
  let line ← behind "NRFKIT_ID ".toList line
  let (part, line) ← hexWord line
  let line ← behind [' '] line
  let (variant, line) ← hexWord line
  let line ← behind [' '] line
  let size ← decimal line
  pure (part, variant, size)

/-- `^NRFKIT_DEVICEID ([0-9a-f]{8}) ([0-9a-f]{8})$`, its words together. -/
def deviceLine (line : List Char) : Option String := do
  let first ← behind "NRFKIT_DEVICEID ".toList line
  let (_, line) ← hexWord first
  let second ← behind [' '] line
  let (_, line) ← hexWord second
  if line = [] then pure (String.ofList (first.take 8 ++ second.take 8)) else none

/-- What stands between the newlines. -/
def outputLines (line : List Char) : List Char → List (List Char)
  | [] => [line]
  | c :: rest => if c = '\n' then line :: outputLines [] rest else outputLines (line ++ [c]) rest

def parseIdentity (output : String) : Except Raised Identity :=
  let found := outputLines [] output.toList
  match found.findSome? idLine, found.findSome? deviceLine with
  | some (part, variant, size), some deviceId =>
    if part ∉ [0x054BC20A, 0x054BC20B] ∨ size ≠ 2036 then
      .error (openOcdError "OpenOCD target identity mismatch")
    else .ok { part, variant, rramKib := size, deviceId }
  | _, _ => .error (openOcdError "OpenOCD did not report the target identity")

def Identity.value (i : Identity) : Value :=
  .dict [("part", .int i.part), ("variant", .int i.variant), ("rram_kib", .int i.rramKib),
    ("device_id", .str i.deviceId)]

/-- The target that is connected, its memory, and the files of the host. -/
structure World where
  identity : Identity
  memory : Nat → UInt8
  files : String → Option (List UInt8)

def World.write (w : World) (path : String) (data : List UInt8) : World :=
  { w with files := fun p => if p = path then some data else w.files p }

/-! ## OpenOCD -/

inductive Command
  | halt
  | dumpImage (path : String) (start length : Int)
  | flashWriteImage (path : String)
  | verifyImage (path : String)
  deriving DecidableEq

/-- The bytes of a span. -/
def dumped (memory : Nat → UInt8) (s : Span) : List UInt8 :=
  (List.range (s.2 - s.1).toNat).map fun i => memory (s.1.toNat + i)

/-- What a command does where it succeeds. -/
def Command.effect (w : World) : Command → World
  | halt => w
  | dumpImage path start length => w.write path (dumped w.memory (start, start + length))
  | flashWriteImage path =>
    match (w.files path).bind fileRecords with
    | some records => { w with memory := store w.memory (writes 0 records) }
    | none => w
  | verifyImage _ => w

/-- OpenOCD on a script: its output where it returns zero in time, and what it left. -/
abbrev Tool := List Command → World → Option String × World

/-- What OpenOCD is documented to do: where it succeeds it did the commands in their order and
printed the identity. -/
structure Documented (openocd : Tool) : Prop where
  effect : ∀ {commands w output w'}, openocd commands w = (some output, w') →
    w' = commands.foldl Command.effect w
  identity : ∀ {commands w output w'}, openocd commands w = (some output, w') →
    parseIdentity output = .ok w.identity

def runFailed (name : String) : Raised :=
  openOcdError ("OpenOCD " ++ name ++ " failed; see its run log")

/-- `backend.run`. -/
def run (openocd : Tool) (name : String) (commands : List Command)
    (w : World) : Except Raised (String × World) :=
  match openocd commands w with
  | (none, _) => .error (runFailed name)
  | (some output, w) =>
    match parseIdentity output with
    | .error e => .error e
    | .ok _ => .ok (output, w)

/-- What `tcl_word` refuses. -/
def tclUnsafe : List Char := ['\x7b', '\x7d', '\\', '\n', '\r', Char.ofNat 0]

def tclWord (path : String) : Except Raised String := do
  raiseIf (tclUnsafe.any fun c => c ∈ path.toList)
    (openOcdError "unsupported character in Tcl argument")
  pure path

/-- The directory of a run: its name is a time, an operation and letters of `mkdtemp`. -/
structure RunDir where
  root : String
  name : String
  plain : ∀ c ∈ name.toList, c ∉ tclUnsafe

def RunDir.file (dir : RunDir) (name : String) : String :=
  dir.root ++ "/" ++ dir.name ++ "/" ++ name

/-! ## What is backed up -/

/-- `start < b and a < end` for an entry of two. -/
def overlapsEntry (s : Span) (entry : Value) : Except Raised Bool := do
  let (a, b) ← entry.pair
  let above ← b.exceeds s.1
  if above then a.less s.2 else pure false

def overlapsAny (s : Span) : List Value → Except Raised Bool
  | [] => .ok false
  | entry :: rest => do
    let overlaps ← overlapsEntry s entry
    if overlaps then pure true else overlapsAny s rest

/-- `_settings_span`. -/
def settingsSpan (manifest : Value) : Except Raised Span := do
  let layout ← manifest.get "image_layout" (.dict [])
  let symbols ← layout.get "symbols" (.dict [])
  let first ← symbols.get "__nrfkit_settings_start" .none
  let last ← symbols.get "__nrfkit_settings_end" .none
  let source ← layout.get "source" .none
  let refused := openOcdError "settings backup requires an audited ELF with aligned settings bounds"
  raiseIf (¬ source.eq (.str "elf-symbols")) refused
  match first.integer, last.integer with
  | some start, some stop => do
    raiseIf (start % 16 ≠ 0 ∨ stop % 16 ≠ 0) refused
    requireAllowed [(start, stop)] [spanEntry (0, rramEnd)]
    let debugAllowlist ← manifest.item "debug_allowlist"
    let ranges ← debugAllowlist.iterate
    let overlaps ← overlapsAny (start, stop) ranges
    raiseIf (start ≥ stop ∨ overlaps)
      (openOcdError "settings must be a separate nonempty ordinary RRAM region")
    pure (start, stop)
  | _, _ => .error refused

/-- The settings where they are included. -/
def settingsSpans (includeSettings : Bool) (manifest : Value) : Except Raised (List Span) :=
  if includeSettings then (settingsSpan manifest).map fun span => [span] else .ok []

/-- `(start // 16 * 16, (end + 15) // 16 * 16)`. -/
def rounded (s : Span) : Span := (s.1 / 16 * 16, (s.2 + 15) / 16 * 16)

/-- A range of integers. OpenOCD takes no dump command with others. -/
def integerRange (range : Value) : Except Raised Span := do
  let (start, stop) ← range.pair
  match start.integer, stop.integer with
  | some start, some stop => .ok (start, stop)
  | _, _ => .error (runFailed "backup")

def backedRange (item range : Value) : Except Raised Span := do
  let span ← integerRange range
  let allowlist ← Cli.itemAllowlist item
  requireAllowed [rounded span] allowlist
  pure (rounded span)

def backedItem (item : Value) : Except Raised (List Span) := do
  let ranges ← item.item "ranges"
  let found ← ranges.iterate
  found.mapM (backedRange item)

def backedManifest (includeSettings : Bool) (manifest : Value) : Except Raised (List Span) := do
  let settings ← settingsSpans includeSettings manifest
  let items ← Cli.imageItems manifest
  let spans ← items.mapM backedItem
  pure (settings ++ spans.flatten)

/-- The ranges `_backup` gathers. -/
def backedRanges (includeSettings : Bool) (manifests : List Value) : Except Raised (List Span) := do
  let spans ← manifests.mapM (backedManifest includeSettings)
  pure spans.flatten

def dumpName (index : Nat) (suffix : String) : String := "backup-" ++ toString index ++ suffix

def dumpCommands (dir : RunDir) (index : Nat) : List Span → Except Raised (List Command)
  | [] => .ok []
  | s :: rest => do
    let first ← tclWord (dir.file (dumpName index "-1.bin"))
    let second ← tclWord (dir.file (dumpName index "-2.bin"))
    let later ← dumpCommands dir (index + 1) rest
    pure (.dumpImage first s.1 (s.2 - s.1) :: .dumpImage second s.1 (s.2 - s.1) :: later)

def readBytes (w : World) (path : String) : Except Raised (List UInt8) :=
  match w.files path with
  | some data => .ok data
  | none => .error ⟨"FileNotFoundError", "[Errno 2] No such file or directory: '" ++ path ++ "'"⟩

/-- One range of the report. -/
def receipt (path digest : String) (s : Span) : Value :=
  .dict [("path", .str path), ("sha256", .str digest), ("range", .list [.int s.1, .int s.2])]

section
variable (digest : List UInt8 → String)

def writeBackups (dir : RunDir) (index : Nat) :
    List Span → World → Except Raised (List Value × World)
  | [], w => .ok ([], w)
  | s :: rest, w => do
    let data ← readBytes w (dir.file (dumpName index "-1.bin"))
    let second ← readBytes w (dir.file (dumpName index "-2.bin"))
    raiseIf ((data.length : Int) ≠ s.2 - s.1 ∨ data ≠ second)
      (openOcdError "two independent backup reads differ")
    let text ← addressedHex s.1 data
    let path := dir.file (dumpName index ".hex")
    let (later, w) ← writeBackups dir (index + 1) rest (w.write path text)
    pure (receipt path (digest text) s :: later, w)

variable (openocd : Tool)

/-- `_backup_ranges`: the target and the receipts. -/
def backupRanges (dir : RunDir) (ranges : List Span) (w : World) :
    Except Raised ((Identity × List Value) × World) := do
  requireAllowed ranges [spanEntry (0, rramEnd)]
  raiseIf (ranges = [] ∨ ∃ s ∈ ranges, s.1 % 16 ≠ 0 ∨ s.2 % 16 ≠ 0 ∨ s.1 ≥ s.2)
    (openOcdError "backup ranges must contain aligned ordinary RRAM")
  let spans := coalesce (sorted ranges)
  let commands ← dumpCommands dir 0 spans
  let (output, w) ← run openocd "backup" (.halt :: commands) w
  let target ← parseIdentity output
  let (backups, w) ← writeBackups digest dir 0 spans w
  pure ((target, backups), w)

/-- The report of a backup that came to its end. -/
def backupReport (target : Identity) (backups : List Value) (includeSettings : Bool) : Value :=
  .dict [("operation", .str "openocd-backup"), ("status", .str "ok"), ("target", target.value),
    ("backups", .list backups),
    ("target_state", .str "halted"), ("includes_declared_settings", .bool includeSettings)]

/-- What is checked before the target is touched. -/
def requireManifest (includeSettings : Bool) (manifest : Value) : Except Raised Unit := do
  let soc ← manifest.item "soc"
  raiseIf (¬ soc.eq (.str "nrf54lm20a"))
    (openOcdError "OpenOCD workflow supports the LM20 application target only")
  let _ ← settingsSpans includeSettings manifest
  pure ()

/-- `openocd backup` of one manifest. -/
def backup (dir : RunDir) (manifest : Value) (includeSettings : Bool)
    (w : World) : Except Raised (Value × World) := do
  requireManifest includeSettings manifest
  let ranges ← backedRanges includeSettings [manifest]
  let ((target, backups), w) ← backupRanges digest openocd dir ranges w
  pure (backupReport target backups includeSettings, w)

/-! ## Restore -/

def restoreName (index : Nat) : String := "restore-" ++ toString index ++ ".hex"

/-- One item of the report: its snapshot is guarded before anything is written. -/
def snapshotItem (dir : RunDir) (allowlist : List (List Value)) (index : Nat)
    (item : Value) (w : World) : Except Raised (String × World) := do
  let source ← Cli.itemPath item
  let data ← readBytes w source
  let destination := dir.file (restoreName index)
  let expected ← item.item "sha256"
  raiseIf (¬ (Value.str (digest data)).eq expected) (openOcdError "backup artifact changed")
  let image ← parseIhex destination (.ok data)
  requireAllowed image.ranges allowlist
  requireAllowed image.ranges [spanEntry (0, rramEnd)]
  let range ← item.item "range"
  let bounds ← range.iterate
  raiseIf (¬ (Sdk.rangesValue image.ranges).eq (.list [.list bounds]))
    (openOcdError "backup range does not match its receipt")
  pure (destination, w.write destination data)

def snapshotItems (dir : RunDir) (allowlist : List (List Value)) (index : Nat) :
    List Value → World →
    Except Raised (List String × World)
  | [], w => .ok ([], w)
  | item :: rest, w => do
    let (snapshot, w) ← snapshotItem digest dir allowlist index item w
    let (later, w) ← snapshotItems dir allowlist (index + 1) rest w
    pure (snapshot :: later, w)

def writeCommands : List String → Except Raised (List Command)
  | [] => .ok []
  | snapshot :: rest => do
    let path ← tclWord snapshot
    let later ← writeCommands rest
    pure (.flashWriteImage path :: .verifyImage path :: later)

/-- The allowlist of a restore: the debug allowlist, and the settings where they are included. -/
def restoreAllowlist (manifest : Value) (includeSettings : Bool) :
    Except Raised (List (List Value)) := do
  let debugAllowlist ← manifest.item "debug_allowlist"
  let listed ← Cli.entries debugAllowlist
  let settings ← settingsSpans includeSettings manifest
  pure (listed ++ settings.map spanEntry)

/-- `_restore` with what the backup report holds. -/
def restoreBackup (dir : RunDir) (manifest report : Value) (includeSettings : Bool)
    (w : World) : Except Raised World := do
  let operation ← report.get "operation" .none
  let status ← report.get "status" .none
  let backups ← report.get "backups" .none
  let target ← report.get "target" .none
  raiseIf (¬ operation.eq (.str "openocd-backup") ∨ ¬ status.eq (.str "ok") ∨ ¬ backups.truthy ∨
    ¬ target.truthy)
    (openOcdError "a successful OpenOCD backup report is required")
  let allowlist ← restoreAllowlist manifest includeSettings
  let items ← backups.iterate
  let (snapshots, w) ← snapshotItems digest dir allowlist 0 items w
  let (output, w) ← run openocd "restore-identity" [] w
  let current ← parseIdentity output
  raiseIf (¬ current.value.eq target) (openOcdError "backup belongs to a different target")
  let commands ← writeCommands snapshots
  let (_, w) ← run openocd "restore" (.halt :: commands) w
  pure w

/-- `openocd restore`. -/
def restore (dir : RunDir) (manifest report : Value) (includeSettings : Bool)
    (w : World) : Except Raised World := do
  requireManifest includeSettings manifest
  restoreBackup digest openocd dir manifest report includeSettings w

end

/-! ## Names -/

theorem toString_injective {i j : Nat} (h : toString i = toString j) : i = j := by
  have hdigits : Nat.toDigits 10 i = Nat.toDigits 10 j := by simpa using congrArg String.toList h
  have hnumbers := congrArg (fun digits => Nat.ofDigitChars 10 digits 0) hdigits
  simpa only [Nat.ofDigitChars_ten_toDigits] using hnumbers

theorem RunDir.file_injective {dir : RunDir} {a b : String} (h : dir.file a = dir.file b) : a = b :=
  (String.append_right_inj _).mp h

theorem dumpName_injective {i j : Nat} {suffix : String}
    (h : dumpName i suffix = dumpName j suffix) : i = j :=
  toString_injective ((String.append_right_inj _).mp ((String.append_left_inj _).mp h))

theorem restoreName_injective {i j : Nat} (h : restoreName i = restoreName j) : i = j :=
  toString_injective ((String.append_right_inj _).mp ((String.append_left_inj _).mp h))

/-- The HEX file of a range is none of the two reads. -/
theorem dumpName_hex {i j : Nat} {suffix : String} (hsuffix : suffix ∈ ["-1.bin", "-2.bin"]) :
    dumpName i suffix ≠ dumpName j ".hex" := by
  intro h
  have hlast := congrArg (fun name : String => name.toList.getLast?) h
  simp only [dumpName, String.toList_append, List.getLast?_append] at hlast
  simp only [List.mem_cons, List.not_mem_nil, or_false] at hsuffix
  rcases hsuffix with rfl | rfl <;> simp at hlast

/-- The names of the reads tell the ranges apart. -/
theorem dumpName_range {i j : Nat} {first second : String} (hfirst : first ∈ ["-1.bin", "-2.bin"])
    (hsecond : second ∈ ["-1.bin", "-2.bin"])
    (h : dumpName i first = dumpName j second) : i = j := by
  have hlength : first.toList.length = second.toList.length := by
    simp only [List.mem_cons, List.not_mem_nil, or_false] at hfirst hsecond
    rcases hfirst with rfl | rfl <;> rcases hsecond with rfl | rfl <;> simp
  have hlists := congrArg String.toList h
  simp only [dumpName, String.toList_append] at hlists
  obtain ⟨hfront, hback⟩ := List.append_inj' hlists hlength
  obtain rfl : first = second := String.toList_inj.mp hback
  exact dumpName_injective h

/-! ## Numbered files -/

theorem forall_from {P : Nat → Prop} {index : Nat} :
    (∀ k, P (index + k)) ↔ P index ∧ ∀ k, P (index + 1 + k) := by
  constructor
  · intro h
    refine ⟨h 0, fun k => ?_⟩
    rw [Nat.add_assoc]
    exact h (1 + k)
  · rintro ⟨hfirst, hlater⟩ k
    cases k with
    | zero => exact hfirst
    | succ k =>
      have hnext := hlater k
      rwa [Nat.add_right_comm] at hnext

/-- What holds of every range and its number holds of the first and of those behind it. -/
theorem forall_numbered {P : Nat → Span → Prop} {s : Span} {rest : List Span} {index : Nat} :
    (∀ k t, (s :: rest)[k]? = some t → P (index + k) t) ↔ P index s ∧ ∀ k t, rest[k]? = some t →
      P (index + 1 + k) t := by
  constructor
  · intro h
    refine ⟨h 0 s rfl, fun k t ht => ?_⟩
    rw [Nat.add_right_comm]
    exact h (k + 1) t ht
  · rintro ⟨hfirst, hlater⟩ k t ht
    cases k with
    | zero =>
      obtain rfl : s = t := by simpa using ht
      exact hfirst
    | succ k =>
      have hnext := hlater k t ht
      rwa [Nat.add_right_comm] at hnext

/-! ## The reads -/

/-- The files a backup dumps to, with their ranges. -/
def dumps (dir : RunDir) (index : Nat) : List Span → List (String × Span)
  | [] => []
  | s :: rest =>
    (dir.file (dumpName index "-1.bin"), s) :: (dir.file (dumpName index "-2.bin"), s) ::
      dumps dir (index + 1) rest

def dumpOf (d : String × Span) : Command := .dumpImage d.1 d.2.1 (d.2.2 - d.2.1)

theorem tclWord_ok {path word : String} :
    tclWord path = .ok word ↔ (∀ c ∈ path.toList, c ∉ tclUnsafe) ∧ word = path := by
  constructor
  · intro h
    obtain ⟨_, hsafe, h⟩ := bind_ok.mp h
    have hnone : ∀ c ∈ tclUnsafe, c ∉ path.toList := by simpa using raiseIf_ok.mp hsafe
    exact ⟨fun c hc hunsafe => hnone c hunsafe hc, (pure_ok.mp h).symm⟩
  · rintro ⟨hsafe, rfl⟩
    have hnone : ¬ (tclUnsafe.any fun c => c ∈ word.toList) = true := by
      simpa using fun c hunsafe hc => hsafe c hc hunsafe
    exact bind_ok.mpr ⟨(), raiseIf_ok.mpr hnone, rfl⟩

theorem dumpCommands_ok {dir : RunDir} {index : Nat} {spans : List Span} {commands : List Command}
    (h : dumpCommands dir index spans = .ok commands) :
    commands = (dumps dir index spans).map dumpOf ∧
      ∀ d ∈ dumps dir index spans, ∀ c ∈ d.1.toList, c ∉ tclUnsafe := by
  induction spans generalizing index commands with
  | nil =>
    obtain rfl := Except.ok.inj h
    exact ⟨rfl, nofun⟩
  | cons s rest ih =>
    obtain ⟨first, hfirst, h⟩ := bind_ok.mp h
    obtain ⟨second, hsecond, h⟩ := bind_ok.mp h
    obtain ⟨later, hlater, h⟩ := bind_ok.mp h
    obtain rfl := pure_ok.mp h
    obtain ⟨hsafe, rfl⟩ := tclWord_ok.mp hfirst
    obtain ⟨hsafe', rfl⟩ := tclWord_ok.mp hsecond
    obtain ⟨rfl, hrest⟩ := ih hlater
    exact ⟨rfl, List.forall_mem_cons.mpr ⟨hsafe, List.forall_mem_cons.mpr ⟨hsafe', hrest⟩⟩⟩

theorem mem_dumps {dir : RunDir} {index : Nat} {spans : List Span} {d : String × Span} :
    d ∈ dumps dir index spans ↔
      ∃ k suffix, suffix ∈ ["-1.bin", "-2.bin"] ∧ spans[k]? = some d.2 ∧
        d.1 = dir.file (dumpName (index + k) suffix) := by
  induction spans generalizing index with
  | nil => simp [dumps]
  | cons s rest ih =>
    obtain ⟨path, range⟩ := d
    rw [dumps, List.mem_cons, List.mem_cons, ih]
    constructor
    · rintro (heq | heq | ⟨k, suffix, hsuffix, hrange, hpath⟩)
      · cases heq
        exact ⟨0, "-1.bin", by decide, rfl, rfl⟩
      · cases heq
        exact ⟨0, "-2.bin", by decide, rfl, rfl⟩
      · exact ⟨k + 1, suffix, hsuffix, hrange, by rw [hpath, Nat.add_right_comm, Nat.add_assoc]⟩
    · rintro ⟨k, suffix, hsuffix, hrange, hpath⟩
      cases k with
      | zero =>
        obtain rfl : s = range := by simpa using hrange
        obtain rfl : path = dir.file (dumpName index suffix) := hpath
        simp only [List.mem_cons, List.not_mem_nil, or_false] at hsuffix
        rcases hsuffix with rfl | rfl
        · exact .inl rfl
        · exact .inr (.inl rfl)
      | succ k =>
        exact .inr (.inr ⟨k, suffix, hsuffix, hrange,
          by rw [hpath, Nat.add_right_comm, Nat.add_assoc]⟩)

/-- A file has the bytes of its range when every dump to it is of that range. -/
theorem foldl_dumps {listed : List (String × Span)} {w : World} {path : String} {s : Span}
    (hagree : ∀ d ∈ listed, d.1 = path → d.2 = s)
    (h : (∃ d ∈ listed, d.1 = path) ∨ w.files path = some (dumped w.memory s)) :
    ((listed.map dumpOf).foldl Command.effect w).files path = some (dumped w.memory s) := by
  induction listed generalizing w with
  | nil => exact h.elim (fun ⟨_, hd, _⟩ => nomatch hd) id
  | cons d rest ih =>
    obtain ⟨hfirst, hrest⟩ := List.forall_mem_cons.mp hagree
    rw [List.map_cons, List.foldl_cons]
    refine ih (w := Command.effect w (dumpOf d)) hrest ?_
    by_cases hpath : path = d.1
    · refine .inr ?_
      have hrange : (d.2.1, d.2.1 + (d.2.2 - d.2.1)) = s := by
        rw [← hfirst hpath.symm]
        refine Prod.ext rfl ?_
        show d.2.1 + (d.2.2 - d.2.1) = d.2.2
        omega
      simp only [dumpOf, Command.effect, World.write, if_pos hpath, hrange]
    · rcases h with ⟨found, hfound, hat⟩ | hold
      · rcases List.mem_cons.mp hfound with rfl | hfound
        · exact absurd hat.symm hpath
        · exact .inl ⟨found, hfound, hat⟩
      · refine .inr ?_
        simp only [dumpOf, Command.effect, World.write, if_neg hpath, hold]

theorem foldl_dumps_memory (listed : List (String × Span)) (w : World) :
    ((listed.map dumpOf).foldl Command.effect w).memory = w.memory ∧
      ((listed.map dumpOf).foldl Command.effect w).identity = w.identity := by
  induction listed generalizing w with
  | nil => exact ⟨rfl, rfl⟩
  | cons d rest ih => exact ih (Command.effect w (dumpOf d))

/-- Both reads of every range hold its bytes. -/
theorem dumps_read (dir : RunDir) (spans : List Span) (w : World) {k : Nat} {s : Span}
    (hs : spans[k]? = some s) {suffix : String} (hsuffix : suffix ∈ ["-1.bin", "-2.bin"]) :
    (((dumps dir 0 spans).map dumpOf).foldl Command.effect w).files (dir.file (dumpName k suffix)) =
      some (dumped w.memory s) := by
  refine foldl_dumps ?_ (.inl ⟨(dir.file (dumpName k suffix), s), ?_, rfl⟩)
  · intro d hd hpath
    obtain ⟨j, other, hother, hrange, hname⟩ := mem_dumps.mp hd
    rw [hpath, Nat.zero_add] at hname
    obtain rfl := dumpName_range hsuffix hother (RunDir.file_injective hname)
    exact Option.some.inj (hrange.symm.trans hs)
  · exact mem_dumps.mpr ⟨k, suffix, hsuffix, hs, by rw [Nat.zero_add]⟩

/-! ## The files of a backup -/

/-- A range of whole units in ordinary RRAM. -/
structure Unit16 (s : Span) : Prop where
  low : 0 ≤ s.1
  nonempty : s.1 < s.2
  high : s.2 ≤ rramEnd
  start : s.1 % 16 = 0
  stop : s.2 % 16 = 0

/-- The HEX text of a range. -/
def hexText (memory : Nat → UInt8) (s : Span) : List UInt8 := rowsText s.1.toNat (dumped memory s)

def receipts (digest : List UInt8 → String) (dir : RunDir) (memory : Nat → UInt8) (index : Nat) :
    List Span → List Value
  | [] => []
  | s :: rest =>
    receipt (dir.file (dumpName index ".hex")) (digest (hexText memory s)) s ::
      receipts digest dir memory (index + 1) rest

/-- The HEX files hold what was read. -/
def Kept (dir : RunDir) (memory : Nat → UInt8) (files : String → Option (List UInt8)) (index : Nat)
    (spans : List Span) : Prop :=
  ∀ k s, spans[k]? = some s →
    files (dir.file (dumpName (index + k) ".hex")) = some (hexText memory s)

theorem kept_cons {dir : RunDir} {memory : Nat → UInt8} {files : String → Option (List UInt8)}
    {index : Nat} {s : Span} {rest : List Span} :
    Kept dir memory files index (s :: rest) ↔
      files (dir.file (dumpName index ".hex")) = some (hexText memory s) ∧
      Kept dir memory files (index + 1) rest :=
  forall_numbered (P := fun i t => files (dir.file (dumpName i ".hex")) = some (hexText memory t))

theorem dumped_length (memory : Nat → UInt8) (s : Span) :
    (dumped memory s).length = (s.2 - s.1).toNat := by
  simp [dumped]

theorem Unit16.hex {s : Span} (h : Unit16 s) (memory : Nat → UInt8) :
    addressedHex s.1 (dumped memory s) = .ok (hexText memory s) := by
  have hlow := h.low
  have hsome := h.nonempty
  have hhigh := h.high
  have hstart := h.start
  have hstop := h.stop
  have hlength := dumped_length memory s
  refine addressedHex_ok.mpr ⟨hlow, ?_, ?_, hstart, ?_, rfl⟩
  · rw [← List.length_pos_iff]
    omega
  · omega
  · omega

theorem Unit16.read {s : Span} (h : Unit16 s) (memory : Nat → UInt8) (path : String) :
    parseIhex path (.ok (hexText memory s)) = .ok { ranges := [s] } ∧
      ∃ records, fileRecords (hexText memory s) = some records ∧
        ∀ cell, cell ∈ writes 0 records ↔ cell ∈ cells s.1.toNat (dumped memory s) := by
  have hread := addressedHex_read (h.hex memory) path
  have hsome := h.nonempty
  have hspan : (s.1, s.1 + ((dumped memory s).length : Int)) = s := by
    refine Prod.ext rfl ?_
    show s.1 + ((dumped memory s).length : Int) = s.2
    rw [dumped_length]
    omega
  rwa [hspan] at hread

section
variable {digest : List UInt8 → String} {dir : RunDir}

/-- Where the reads hold the ranges' bytes, the HEX files do afterwards. -/
theorem writeBackups_ok {memory : Nat → UInt8} {index : Nat} {spans : List Span} {w w' : World}
    {items : List Value} (hunits : ∀ s ∈ spans, Unit16 s) (hread : ∀ k s, spans[k]? = some s →
      w.files (dir.file (dumpName (index + k) "-1.bin")) = some (dumped memory s))
    (h : writeBackups digest dir index spans w = .ok (items, w')) :
    items = receipts digest dir memory index spans ∧ Kept dir memory w'.files index spans ∧
    w'.identity = w.identity ∧
      w'.memory = w.memory ∧ ∀ path, (∀ k, path ≠ dir.file (dumpName (index + k) ".hex")) →
        w'.files path = w.files path := by
  induction spans generalizing index w items with
  | nil =>
    obtain ⟨rfl, rfl⟩ := Prod.mk.inj (Except.ok.inj h)
    exact ⟨rfl, nofun, rfl, rfl, fun _ _ => rfl⟩
  | cons s rest ih =>
    obtain ⟨hunit, hunits⟩ := List.forall_mem_cons.mp hunits
    obtain ⟨data, hdata, h⟩ := bind_ok.mp h
    obtain ⟨second, _, h⟩ := bind_ok.mp h
    obtain ⟨_, _, h⟩ := bind_ok.mp h
    obtain ⟨text, htext, h⟩ := bind_ok.mp h
    obtain ⟨⟨later, w''⟩, hlater, h⟩ := bind_ok.mp h
    obtain ⟨rfl, rfl⟩ := Prod.mk.inj (pure_ok.mp h)
    obtain ⟨hfirst, hlaterReads⟩ :=
      (forall_numbered (P := fun i t =>
        w.files (dir.file (dumpName i "-1.bin")) = some (dumped memory t))).mp hread
    rw [readBytes, hfirst] at hdata
    obtain rfl := Except.ok.inj hdata
    obtain rfl := Except.ok.inj ((hunit.hex memory).symm.trans htext)
    -- the reads of the later ranges are no HEX file
    have hothers : ∀ k s', rest[k]? = some s' →
        (w.write (dir.file (dumpName index ".hex")) (hexText memory s)).files
          (dir.file (dumpName (index + 1 + k) "-1.bin")) =
          some (dumped memory s') := by
      intro k s' hs'
      have hname : dir.file (dumpName (index + 1 + k) "-1.bin") ≠
          dir.file (dumpName index ".hex") :=
        fun heq => dumpName_hex (by decide) (RunDir.file_injective heq)
      simp only [World.write, if_neg hname, hlaterReads k s' hs']
    obtain ⟨rfl, hkept, hidentity, hmemory, hframe⟩ := ih hunits hothers hlater
    have hwritten : w''.files (dir.file (dumpName index ".hex")) = some (hexText memory s) := by
      rw [hframe]
      · simp [World.write]
      · intro k heq
        have := dumpName_injective (RunDir.file_injective heq)
        omega
    refine ⟨rfl, kept_cons.mpr ⟨hwritten, hkept⟩, hidentity, hmemory, fun path hpath => ?_⟩
    obtain ⟨hhere, hnext⟩ :=
      (forall_from (P := fun i => path ≠ dir.file (dumpName i ".hex"))).mp hpath
    rw [hframe path hnext]
    simp only [World.write, if_neg hhere]

variable {openocd : Tool}

theorem run_ok (hdocumented : Documented openocd) {name output : String} {commands : List Command}
    {w w' : World} (h : run openocd name commands w = .ok (output, w')) :
    w' = commands.foldl Command.effect w ∧ parseIdentity output = .ok w.identity := by
  unfold run at h
  split at h
  · nomatch h
  · rename_i found left hfound
    split at h
    · nomatch h
    · obtain ⟨rfl, rfl⟩ := Prod.mk.inj (Except.ok.inj h)
      exact ⟨hdocumented.effect hfound, hdocumented.identity hfound⟩

/-- A run ends with what is documented, or as one OpenOCD failed. -/
theorem run_cases (hdocumented : Documented openocd) (name : String)
    (commands : List Command) (w : World) :
    (∃ output, run openocd name commands w = .ok (output, commands.foldl Command.effect w) ∧
      parseIdentity output = .ok w.identity) ∨
      ((openocd commands w).1 = none ∧ run openocd name commands w = .error (runFailed name)) := by
  unfold run
  cases htool : openocd commands w with
  | mk answer left =>
    cases answer with
    | none => exact .inr ⟨rfl, rfl⟩
    | some output =>
      have hidentity := hdocumented.identity htool
      have heffect := hdocumented.effect htool
      refine .inl ⟨output, ?_, hidentity⟩
      simp only [hidentity, heffect]

/-- What a backup of these ranges leaves. -/
theorem backupRanges_ok (hdocumented : Documented openocd) {ranges : List Span}
    {w w' : World} {target : Identity} {items : List Value}
    (h : backupRanges digest openocd dir ranges w = .ok ((target, items), w')) :
    let spans := coalesce (sorted ranges)
    spans ≠ [] ∧ (∀ s ∈ spans, Unit16 s) ∧ Separated spans ∧
    (∀ c ∈ dir.root.toList, c ∉ tclUnsafe) ∧
      target = w.identity ∧ items = receipts digest dir w.memory 0 spans ∧
      Kept dir w.memory w'.files 0 spans ∧ w'.identity = w.identity ∧ w'.memory = w.memory := by
  obtain ⟨_, hordinary, h⟩ := bind_ok.mp h
  obtain ⟨_, haligned, h⟩ := bind_ok.mp h
  obtain ⟨commands, hcommands, h⟩ := bind_ok.mp h
  obtain ⟨⟨output, ran⟩, hrun, h⟩ := bind_ok.mp h
  obtain ⟨found, hfound, h⟩ := bind_ok.mp h
  obtain ⟨⟨later, written⟩, hwritten, h⟩ := bind_ok.mp h
  obtain ⟨heq, rfl⟩ := Prod.mk.inj (pure_ok.mp h)
  obtain ⟨rfl, rfl⟩ := Prod.mk.inj heq
  have hbounds := requireAllowed_ordinary.mp hordinary
  simp only [raiseIf_ok, not_or, not_exists, not_and, not_not] at haligned
  obtain ⟨hsome, haligned⟩ := haligned
  obtain ⟨rfl, hidentity⟩ := run_ok hdocumented hrun
  obtain rfl := Except.ok.inj (hidentity.symm.trans hfound)
  obtain ⟨rfl, hsafe⟩ := dumpCommands_ok hcommands
  have hmember : ∀ s ∈ sorted ranges, s ∈ ranges := fun s hs => mem_sorted.mp hs
  have hseparated : Separated (coalesce (sorted ranges)) :=
    separated_coalesce_sorted fun s hs => (hbounds s hs).2.1
  have hunits : ∀ s ∈ coalesce (sorted ranges), Unit16 s := by
    intro s hs
    obtain ⟨⟨first, hfirst, hstart⟩, last, hlast, hstop⟩ := coalesce_ends hs
    obtain ⟨hlow, _, _⟩ := hbounds first (hmember first hfirst)
    obtain ⟨_, _, hhigh⟩ := hbounds last (hmember last hlast)
    exact
      { low := by rwa [← hstart]
        nonempty := hseparated.1 s hs
        high := by rwa [← hstop]
        start := by rw [← hstart]; exact (haligned first (hmember first hfirst)).1
        stop := by rw [← hstop]; exact (haligned last (hmember last hlast)).2.1 }
  have hmany : coalesce (sorted ranges) ≠ [] := by
    intro hnil
    obtain ⟨s, hs⟩ := List.exists_mem_of_ne_nil _ hsome
    have hcovered : Covers (coalesce (sorted ranges)) s.1 :=
      covers_coalesce_sorted.mpr ⟨s, hs, le_refl _, (hbounds s hs).2.1⟩
    rw [hnil] at hcovered
    exact covers_nil _ hcovered
  have hread : ∀ k s, (coalesce (sorted ranges))[k]? = some s →
      ((.halt :: (dumps dir 0 (coalesce (sorted ranges))).map dumpOf).foldl Command.effect w).files
        (dir.file (dumpName (0 + k) "-1.bin")) = some (dumped w.memory s) := by
    intro k s hs
    rw [Nat.zero_add]
    exact dumps_read dir (coalesce (sorted ranges)) w hs (by decide)
  obtain ⟨hitems, hkept, hsame, hmemory, -⟩ := writeBackups_ok hunits hread hwritten
  have hleft := foldl_dumps_memory (dumps dir 0 (coalesce (sorted ranges))) w
  refine ⟨hmany, hunits, hseparated, ?_, rfl, hitems, hkept, hsame.trans hleft.2,
    hmemory.trans hleft.1⟩
  -- a file that was dumped to shows the directory free of what Tcl refuses
  obtain ⟨s, rest, hspans⟩ := List.exists_cons_of_ne_nil hmany
  rw [hspans] at hsafe
  have hfile := hsafe _ (List.mem_cons_self ..)
  intro c hc
  refine hfile c ?_
  simp only [RunDir.file, String.toList_append, List.mem_append]
  exact .inl (.inl (.inl (.inl hc)))

end

/-! ## The snapshots of a restore -/

/-- The failure of a run of OpenOCD itself. -/
def RunFailed (e : Raised) : Prop := ∃ name, e = runFailed name

section
variable {digest : List UInt8 → String} {allowlist : List (List Value)} {memory : Nat → UInt8}

theorem Unit16.safe {s : Span} (h : Unit16 s) : RangeSafe s := ordinary_safe h.low h.nonempty h.high

theorem Unit16.ordinary {s : Span} (h : Unit16 s) :
    requireRange [spanEntry (0, rramEnd)] s = .ok () := by
  have hall : requireAllowed [s] [spanEntry (0, rramEnd)] = .ok () := by
    refine requireAllowed_ordinary.mpr fun range hrange => ?_
    obtain rfl := List.mem_singleton.mp hrange
    exact ⟨h.low, h.nonempty, h.high⟩
  exact requireAllowed_all.mp hall s (List.mem_singleton_self _)

theorem Unit16.guarded {s : Span} (h : Unit16 s) :
    requireRange allowlist s = .ok () ↔ insideAny s allowlist = .ok true := by
  rw [requireRange_ok]
  exact ⟨fun hrange => hrange.2, fun hinside => ⟨h.safe, hinside⟩⟩

/-- An error that is none of OpenOCD's. -/
def Foreign (e : Raised) : Prop := e.name ≠ "OpenOcdError"

theorem foreign_type {text : String} : Foreign ⟨"TypeError", text⟩ := by simp [Foreign]

theorem foreign_value {text : String} : Foreign ⟨"ValueError", text⟩ := by simp [Foreign]

theorem foreign_image {text : String} : Foreign (imageError text) := by simp [Foreign, imageError]

theorem Foreign.not_failed {e : Raised} (h : Foreign e) : ¬ RunFailed e := by
  rintro ⟨name, rfl⟩
  exact h rfl

theorem raises_atLeast {v : Value} {n : Int} : Raises Foreign (v.atLeast n) := by
  unfold Value.atLeast
  split
  · exact raises_ok _
  · exact raises_error.mpr foreign_type

theorem raises_atMost {v : Value} {n : Int} : Raises Foreign (v.atMost n) := by
  unfold Value.atMost
  split
  · exact raises_ok _
  · exact raises_error.mpr foreign_type

/-- The guard raises no error of OpenOCD. -/
theorem raises_requireRange (range : Span) : Raises Foreign (requireRange allowlist range) := by
  have hentry : ∀ entry, Raises Foreign (insideEntry range entry) := by
    intro entry
    unfold insideEntry
    split
    · split
      · rename_i e he
        exact raises_error.mpr (raises_atLeast e he)
      · exact raises_ok _
      · exact raises_atMost
    · exact raises_error.mpr foreign_value
    · exact raises_error.mpr foreign_value
    · exact raises_error.mpr foreign_value
  have hany : Raises Foreign (insideAny range allowlist) := by
    induction allowlist with
    | nil => exact raises_ok _
    | cons entry rest ih =>
      rw [insideAny]
      split
      · rename_i e he
        exact raises_error.mpr (hentry entry e he)
      · exact raises_ok _
      · exact ih
  have hforbidden : ∀ regions, Raises Foreign (requireForbidden range regions) := by
    intro regions
    induction regions with
    | nil => exact raises_ok _
    | cons region rest ih =>
      obtain ⟨first, last, label⟩ := region
      rw [requireForbidden]
      split
      · exact raises_error.mpr foreign_image
      · exact ih
  unfold requireRange
  split
  · exact raises_error.mpr foreign_image
  · split
    · rename_i e he
      exact raises_error.mpr (hforbidden _ e he)
    · split
      · rename_i e he
        exact raises_error.mpr (hany e he)
      · exact raises_error.mpr foreign_image
      · exact raises_ok _

/-- An item that is a range's receipt is copied when the guard lets the range pass. -/
theorem snapshotItem_receipt {dir : RunDir} {s : Span} (hunit : Unit16 s) {path : String}
    (index : Nat) {w : World} (hfile : w.files path = some (hexText memory s)) :
    snapshotItem digest dir allowlist index (receipt path (digest (hexText memory s)) s) w =
      match requireRange allowlist s with
      | .error e => .error e
      | .ok _ => .ok (dir.file (restoreName index),
        w.write (dir.file (restoreName index)) (hexText memory s)) := by
  have hpath : Cli.itemPath (receipt path (digest (hexText memory s)) s) = .ok path := rfl
  have hdigest : (receipt path (digest (hexText memory s)) s).item "sha256" =
      .ok (.str (digest (hexText memory s))) := rfl
  have hrange : (receipt path (digest (hexText memory s)) s).item "range" =
      .ok (.list [.int s.1, .int s.2]) := rfl
  have hread : readBytes w path = .ok (hexText memory s) := by rw [readBytes, hfile]
  have hsame : (Value.str (digest (hexText memory s))).eq (.str (digest (hexText memory s))) =
      true := by simp [Value.eq]
  have hranges : (Sdk.rangesValue [s]).eq (.list [.list [.int s.1, .int s.2]]) = true := by
    simp [Sdk.rangesValue, Value.eq, Value.eqItems, Value.eqNumber, Value.integer]
  unfold snapshotItem
  rw [hpath, hdigest, hrange]
  simp only [bind, Except.bind, hread, hsame, raiseIf, not_true_eq_false, if_false,
    (hunit.read memory _).1, requireAllowed, Value.iterate, hranges]
  cases requireRange allowlist s with
  | error e => rfl
  | ok _ =>
    simp only [hunit.ordinary]
    rfl

end

/-- The snapshots of so many ranges. -/
def snapshotPaths (dir : RunDir) (index : Nat) : List Span → List String
  | [] => []
  | _ :: rest => dir.file (restoreName index) :: snapshotPaths dir (index + 1) rest

section
variable {digest : List UInt8 → String} {allowlist : List (List Value)} {memory : Nat → UInt8}
    {dir restoreDir : RunDir}

/-- The snapshots hold what was read. -/
def Copied (dir : RunDir) (memory : Nat → UInt8) (files : String → Option (List UInt8))
    (index : Nat) (spans : List Span) : Prop :=
  ∀ k s, spans[k]? = some s → files (dir.file (restoreName (index + k))) = some (hexText memory s)

theorem copied_cons {files : String → Option (List UInt8)} {index : Nat} {s : Span}
    {rest : List Span} :
    Copied dir memory files index (s :: rest) ↔
      files (dir.file (restoreName index)) = some (hexText memory s) ∧
      Copied dir memory files (index + 1) rest :=
  forall_numbered (P := fun i t => files (dir.file (restoreName i)) = some (hexText memory t))

/-- A frame of the world: all but these snapshots. -/
structure Beside (dir : RunDir) (index : Nat) (w w' : World) : Prop where
  identity : w'.identity = w.identity
  memory : w'.memory = w.memory
  files : ∀ path, (∀ k, path ≠ dir.file (restoreName (index + k))) → w'.files path = w.files path

/-- The snapshots are taken when every range passes the guard; else the guard ends the restore. -/
theorem snapshotItems_receipts {spans : List Span} {index : Nat} {w : World}
    (hunits : ∀ s ∈ spans, Unit16 s) (hkept : Kept dir memory w.files index spans)
    (hapart : ∀ i k s, spans[k]? = some s →
      dir.file (dumpName (index + k) ".hex") ≠ restoreDir.file (restoreName i)) :
    ((∃ s ∈ spans, insideAny s allowlist ≠ .ok true) ∧
      ∃ e, Foreign e ∧ snapshotItems digest restoreDir allowlist index
        (receipts digest dir memory index spans) w = .error e) ∨
    ((∀ s ∈ spans, insideAny s allowlist = .ok true) ∧
      ∃ w', snapshotItems digest restoreDir allowlist index
        (receipts digest dir memory index spans) w =
          .ok (snapshotPaths restoreDir index spans, w') ∧
        Copied restoreDir memory w'.files index spans ∧ Beside restoreDir index w w') := by
  induction spans generalizing index w with
  | nil => exact .inr ⟨nofun, w, rfl, nofun, ⟨rfl, rfl, fun _ _ => rfl⟩⟩
  | cons s rest ih =>
    obtain ⟨hunit, hunits⟩ := List.forall_mem_cons.mp hunits
    obtain ⟨hsource, hlaterKept⟩ := kept_cons.mp hkept
    have hlaterApart : ∀ i k s', rest[k]? = some s' →
        dir.file (dumpName (index + 1 + k) ".hex") ≠ restoreDir.file (restoreName i) :=
      fun i => ((forall_numbered (P := fun j _ =>
        dir.file (dumpName j ".hex") ≠ restoreDir.file (restoreName i))).mp (hapart i)).2
    rw [receipts, snapshotItems,
      @snapshotItem_receipt digest allowlist memory restoreDir s hunit _ index w hsource]
    cases hguard : requireRange allowlist s with
    | error e =>
      refine .inl ⟨⟨s, List.mem_cons_self .., fun hinside => ?_⟩, e,
        raises_requireRange s e hguard, rfl⟩
      rw [hunit.guarded.mpr hinside] at hguard
      nomatch hguard
    | ok _ =>
      have hinside : insideAny s allowlist = .ok true := hunit.guarded.mp hguard
      -- the first snapshot is none of the later HEX files
      have hkept' : Kept dir memory (w.write (restoreDir.file (restoreName index))
          (hexText memory s)).files (index + 1) rest := by
        intro k s' hs'
        simp only [World.write, if_neg (hlaterApart index k s' hs'), hlaterKept k s' hs']
      rcases ih hunits hkept' hlaterApart with ⟨⟨t, ht, hout⟩, e, hforeign, herror⟩ | ⟨hall, w',
        hok, hcopied, hbeside⟩
      · refine .inl ⟨⟨t, List.mem_cons_of_mem _ ht, hout⟩, e, hforeign, ?_⟩
        simp only [bind, Except.bind, herror]
      · have hwritten :
            w'.files (restoreDir.file (restoreName index)) = some (hexText memory s) := by
          rw [hbeside.files]
          · simp [World.write]
          · intro k heq
            have := restoreName_injective (RunDir.file_injective heq)
            omega
        refine .inr ⟨List.forall_mem_cons.mpr ⟨hinside, hall⟩, w', ?_,
          copied_cons.mpr ⟨hwritten, hcopied⟩, ?_⟩
        · simp only [bind, Except.bind, hok]
          rfl
        · refine ⟨hbeside.identity, hbeside.memory, fun path hpath => ?_⟩
          obtain ⟨hhere, hnext⟩ :=
            (forall_from (P := fun i => path ≠ restoreDir.file (restoreName i))).mp hpath
          rw [hbeside.files path hnext]
          simp only [World.write, if_neg hhere]

/-! ## The memory after a restore -/

/-- A range's HEX restores its bytes and nothing else. -/
theorem flash_effect {s : Span} (hunit : Unit16 s) {w : World} {path : String}
    (hfile : w.files path = some (hexText memory s)) :
    ∃ left, Command.effect w (.flashWriteImage path) = { w with memory := left } ∧
      (∀ a : Nat, s.Holds a → left a = memory a) ∧ ∀ a : Nat, ¬ s.Holds a →
        left a = w.memory a := by
  obtain ⟨-, records, hrecords, hcells⟩ := hunit.read memory path
  have hlow := hunit.low
  have hlength := dumped_length memory s
  have hcell : ∀ cell, cell ∈ writes 0 records ↔ s.Holds cell.1 ∧ cell.2 = memory cell.1 := by
    intro cell
    rw [hcells, mem_cells]
    simp only [dumped, List.getElem?_map, Span.Holds]
    constructor
    · rintro ⟨i, haddress, hvalue⟩
      obtain ⟨j, hj, hbyte⟩ := Option.map_eq_some_iff.mp hvalue
      obtain ⟨hlt, rfl⟩ : i < (s.2 - s.1).toNat ∧ i = j := by
        simpa [List.getElem?_eq_some_iff] using hj
      rw [haddress]
      exact ⟨⟨by omega, by omega⟩, hbyte.symm⟩
    · rintro ⟨⟨hfrom, hto⟩, hvalue⟩
      refine ⟨cell.1 - s.1.toNat, by omega, ?_⟩
      rw [List.getElem?_range (by omega), hvalue]
      simp only [Option.map_some, Option.some.injEq]
      congr 1
      omega
  refine ⟨store w.memory (writes 0 records), ?_, ?_, ?_⟩
  · simp only [Command.effect, hfile, Option.bind_some, hrecords]
  · intro a ha
    refine store_written (fun cell hc => ((hcell cell).mp hc).2)
      (.inl ⟨(a, memory a), (hcell _).mpr ⟨ha, rfl⟩, rfl⟩)
  · intro a ha
    refine store_other fun cell hc heq => ha ?_
    rw [← heq]
    exact ((hcell cell).mp hc).1

def flashCommands (paths : List String) : List Command :=
  paths.flatMap fun path => [.flashWriteImage path, .verifyImage path]

theorem writeCommands_safe {paths : List String}
    (h : ∀ path ∈ paths, ∀ c ∈ path.toList, c ∉ tclUnsafe) :
    writeCommands paths = .ok (flashCommands paths) := by
  induction paths with
  | nil => rfl
  | cons path rest ih =>
    obtain ⟨hfirst, hrest⟩ := List.forall_mem_cons.mp h
    rw [writeCommands, tclWord_ok.mpr ⟨hfirst, rfl⟩, ih hrest]
    rfl

/-- Flashing the snapshots restores what their ranges cover. -/
theorem flash_snapshots {spans : List Span} {index : Nat} {w : World}
    (hunits : ∀ s ∈ spans, Unit16 s) (hcopied : Copied restoreDir memory w.files index spans) :
    let left :=
  ((flashCommands (snapshotPaths restoreDir index spans)).foldl Command.effect w).memory
    (∀ a : Nat, Covers spans a → left a = memory a) ∧ ∀ a : Nat, ¬ Covers spans a →
      left a = w.memory a := by
  induction spans generalizing index w with
  | nil => exact ⟨fun a ha => absurd ha (covers_nil _), fun _ _ => rfl⟩
  | cons s rest ih =>
    obtain ⟨hunit, hunits⟩ := List.forall_mem_cons.mp hunits
    obtain ⟨hfile, hlater⟩ := copied_cons.mp hcopied
    obtain ⟨changed, heffect, hin, hout⟩ := flash_effect hunit hfile
    have hcopied' :
        Copied restoreDir memory { w with memory := changed }.files (index + 1) rest := hlater
    obtain ⟨hrestored, hleft⟩ := ih hunits hcopied'
    have hstep : (flashCommands (snapshotPaths restoreDir index (s :: rest))).foldl
        Command.effect w =
        (flashCommands (snapshotPaths restoreDir (index + 1) rest)).foldl Command.effect
          { w with memory := changed } := by
      rw [← heffect]
      rfl
    simp only [hstep]
    constructor
    · intro a ha
      by_cases hlater : Covers rest a
      · exact hrestored a hlater
      · rw [hleft a hlater]
        exact hin a ((covers_cons.mp ha).resolve_right hlater)
    · intro a ha
      rw [covers_cons, not_or] at ha
      rw [hleft a ha.2]
      exact hout a ha.1

/-- The paths of the snapshots are words of Tcl where the directory is. -/
theorem snapshotPaths_safe (hroot : ∀ c ∈ restoreDir.root.toList, c ∉ tclUnsafe) (index : Nat)
    (spans : List Span) :
    ∀ path ∈ snapshotPaths restoreDir index spans, ∀ c ∈ path.toList, c ∉ tclUnsafe := by
  induction spans generalizing index with
  | nil => nofun
  | cons s rest ih =>
    refine List.forall_mem_cons.mpr ⟨?_, ih (index + 1)⟩
    intro c hc hunsafe
    simp only [RunDir.file, restoreName, String.toList_append, List.mem_append] at hc
    have hfixed : (tclUnsafe.all fun c => c ∉ "/".toList ∧ c ∉ "restore-".toList ∧
        c ∉ ".hex".toList ∧ c.isDigit = false) = true := by
      decide
    obtain ⟨hslash, hname, hend, hdigit⟩ := of_decide_eq_true (List.all_eq_true.mp hfixed c hunsafe)
    rcases hc with ((((hc | hc) | hc) | hc) | ((hc | hc) | hc))
    · exact hroot c hc hunsafe
    · exact hslash hc
    · exact restoreDir.plain c hc hunsafe
    · exact hslash hc
    · exact hname hc
    · have hdigits : c ∈ Nat.toDigits 10 index := by simpa using hc
      rw [Nat.isDigit_of_mem_toDigits (by decide) (by decide) hdigits] at hdigit
      nomatch hdigit
    · exact hend hc

end

/-! ## The round trip -/

section
variable {digest : List UInt8 → String} {openocd : Tool}

/-- Where the guard lets every maximal run of the backed-up addresses pass. -/
def RunsAllowed (includeSettings : Bool) (manifest : Value) : Prop :=
  ∃ ranges allowlist, backedRanges includeSettings [manifest] = .ok ranges ∧
    restoreAllowlist manifest includeSettings = .ok allowlist ∧
      ∀ run, IsRun (Covers ranges) run → insideAny run allowlist = .ok true

/-- Connected to this target, OpenOCD comes to the end of every script. -/
def Responds (openocd : Tool) (target : Identity) : Prop :=
  ∀ commands w, w.identity = target → (openocd commands w).1.isSome

/-- A restore that no check of its own refuses; where it comes to its end the bytes of the backup
are back and no other was written. -/
structure Restores (openocd : Tool) (target : Identity) (ranges : List Span)
    (backedUp before : Nat → UInt8) (result : Except Raised World) : Prop where
  refusal : ∀ e, result = .error e → RunFailed e
  succeeds : Responds openocd target → ∃ left, result = .ok left
  restored : ∀ left, result = .ok left → ∀ a : Nat, Covers ranges a → left.memory a = backedUp a
  untouched : ∀ left, result = .ok left → ∀ a : Nat, ¬ Covers ranges a → left.memory a = before a

theorem accepted_entries {manifest : Value} (h : Accepted manifest) :
    ∃ debugAllowlist listed, manifest.item "debug_allowlist" = .ok debugAllowlist ∧
      Cli.entries debugAllowlist = .ok listed := by
  obtain ⟨o, path, hloaded⟩ := h
  have hartifacts := Manifest.loadManifest_artifacts hloaded
  have hsteps := hartifacts
  obtain ⟨debugElf, hdebugElf, hsteps⟩ := bind_ok.mp hsteps
  obtain ⟨debugAllowlist, hdebugAllowlist, hsteps⟩ := bind_ok.mp hsteps
  obtain ⟨images, himages, hsteps⟩ := bind_ok.mp hsteps
  obtain ⟨_, _, hsteps⟩ := bind_ok.mp hsteps
  obtain ⟨items, hitems, _⟩ := bind_ok.mp hsteps
  obtain ⟨hdebug, -⟩ :=
    Manifest.requireArtifacts_ok hartifacts hdebugElf hdebugAllowlist himages hitems
  obtain ⟨_, _, listed, _, _, _, hlisted, _⟩ := Manifest.requireArtifact_ok hdebug
  exact ⟨debugAllowlist, listed, hdebugAllowlist, hlisted⟩

theorem requireManifest_ok {includeSettings : Bool} {manifest : Value}
    (h : requireManifest includeSettings manifest = .ok ()) :
    ∃ settings, settingsSpans includeSettings manifest = .ok settings := by
  obtain ⟨_, _, h⟩ := bind_ok.mp h
  obtain ⟨_, _, h⟩ := bind_ok.mp h
  obtain ⟨settings, hsettings, _⟩ := bind_ok.mp h
  exact ⟨settings, hsettings⟩

/-- The guard of a restore can be read of an accepted manifest. -/
theorem accepted_allowlist {includeSettings : Bool} {manifest : Value} (h : Accepted manifest)
    (hrequired : requireManifest includeSettings manifest = .ok ()) :
    ∃ allowlist, restoreAllowlist manifest includeSettings = .ok allowlist := by
  obtain ⟨debugAllowlist, listed, hdebugAllowlist, hlisted⟩ := accepted_entries h
  obtain ⟨settings, hsettings⟩ := requireManifest_ok hrequired
  exact ⟨listed ++ settings.map spanEntry,
    bind_ok.mpr ⟨_, hdebugAllowlist, bind_ok.mpr ⟨_, hlisted, bind_ok.mpr ⟨_, hsettings, rfl⟩⟩⟩⟩

theorem identity_eq (i : Identity) : i.value.eq i.value = true := by
  simp [Identity.value, Value.eq, Value.eqFields, Value.lookup, Value.eqNumber, Value.integer]

/-- What a backup that came to its end leaves: its ranges, put together, and their HEX files. -/
theorem backup_ok (hdocumented : Documented openocd) {dir : RunDir}
    {manifest report : Value} {includeSettings : Bool} {w w' : World}
    (h : backup digest openocd dir manifest includeSettings w = .ok (report, w')) :
    ∃ ranges, requireManifest includeSettings manifest = .ok () ∧
      backedRanges includeSettings [manifest] = .ok ranges ∧
      coalesce (sorted ranges) ≠ [] ∧ (∀ s ∈ coalesce (sorted ranges), Unit16 s) ∧
      Separated (coalesce (sorted ranges)) ∧ (∀ c ∈ dir.root.toList, c ∉ tclUnsafe) ∧
      report = backupReport w.identity (receipts digest dir w.memory 0 (coalesce (sorted ranges)))
        includeSettings ∧
      Kept dir w.memory w'.files 0 (coalesce (sorted ranges)) ∧ w'.identity = w.identity ∧
      w'.memory = w.memory := by
  obtain ⟨_, hrequired, h⟩ := bind_ok.mp h
  obtain ⟨ranges, hranges, h⟩ := bind_ok.mp h
  obtain ⟨⟨⟨target, items⟩, left⟩, hbackup, h⟩ := bind_ok.mp h
  obtain ⟨rfl, rfl⟩ := Prod.mk.inj (pure_ok.mp h)
  obtain ⟨hmany, hunits, hseparated, hroot, rfl, rfl, hkept, hidentity, hmemory⟩ :=
    backupRanges_ok hdocumented hbackup
  exact ⟨ranges, hrequired, hranges, hmany, hunits, hseparated, hroot, rfl, hkept,
    hidentity, hmemory⟩

/-- A restore of a report behind the checks of what it holds. -/
theorem restoreBackup_report {dir : RunDir} {manifest : Value} {includeSettings : Bool}
    {target : Identity} {items : List Value} {allowlist : List (List Value)} (hsome : items ≠ [])
    (hallowlist : restoreAllowlist manifest includeSettings = .ok allowlist) (w : World) :
    restoreBackup digest openocd dir manifest
      (backupReport target items includeSettings) includeSettings w = (do
      let (snapshots, w) ← snapshotItems digest dir allowlist 0 items w
      let (output, w) ← run openocd "restore-identity" [] w
      let current ← parseIdentity output
      raiseIf (¬ current.value.eq target.value)
        (openOcdError "backup belongs to a different target")
      let commands ← writeCommands snapshots
      let (_, w) ← run openocd "restore" (.halt :: commands) w
      pure w) := by
  obtain ⟨item, rest, rfl⟩ := List.exists_cons_of_ne_nil hsome
  have hoperation : (backupReport target (item :: rest) includeSettings).get "operation" .none =
      .ok (.str "openocd-backup") := rfl
  have hstatus : (backupReport target (item :: rest) includeSettings).get "status" .none =
      .ok (.str "ok") := rfl
  have hbackups : (backupReport target (item :: rest) includeSettings).get "backups" .none =
      .ok (.list (item :: rest)) := rfl
  have htarget : (backupReport target (item :: rest) includeSettings).get "target" .none =
      .ok target.value := rfl
  have hchecked : raiseIf (¬ (Value.str "openocd-backup").eq (.str "openocd-backup") ∨
      ¬ (Value.str "ok").eq (.str "ok") ∨
      ¬ (Value.list (item :: rest)).truthy ∨ ¬ target.value.truthy)
      (openOcdError "a successful OpenOCD backup report is required") = .ok () := by
    rw [raiseIf_ok]
    simp [Value.eq, Value.truthy, Identity.value]
  unfold restoreBackup
  rw [hoperation, hstatus, hbackups, htarget, hallowlist]
  simp only [bind, Except.bind, hchecked, Value.iterate]

/-- A restore behind its check of the manifest. -/
theorem restore_required {dir : RunDir} {manifest report : Value} {includeSettings : Bool}
    {w : World} (h : requireManifest includeSettings manifest = .ok ()) :
    restore digest openocd dir manifest report includeSettings w =
      restoreBackup digest openocd dir manifest report includeSettings w := by
  rw [restore, h]
  rfl

/-- A run of OpenOCD that failed on the target is no refusal of the restore's own. -/
theorem Restores.failed {target : Identity} {ranges : List Span} {backedUp before : Nat → UInt8}
    {commands : List Command} {w : World} (name : String) (hsame : w.identity = target)
    (hnone : (openocd commands w).1 = none) :
    Restores openocd target ranges backedUp before (.error (runFailed name)) := by
  refine ⟨?_, ?_, (fun left hleft => by cases hleft), (fun left hleft => by cases hleft)⟩
  · intro e he
    obtain rfl := Except.error.inj he
    exact ⟨name, rfl⟩
  · intro hresponds
    have hanswer := hresponds commands w hsame
    rw [hnone] at hanswer
    cases hanswer

/-- A restore whose snapshots were taken ends with the bytes back, or as a run of OpenOCD failed. -/
theorem restores_snapshots (hdocumented : Documented openocd) {dir : RunDir} {manifest : Value}
    {includeSettings : Bool} {items : List Value} {allowlist : List (List Value)}
    {ranges : List Span} {memory : Nat → UInt8} {after copied : World}
    (hrequired : requireManifest includeSettings manifest = .ok ()) (hsome : items ≠ [])
    (hallowlist : restoreAllowlist manifest includeSettings = .ok allowlist)
    (hroot : ∀ c ∈ dir.root.toList, c ∉ tclUnsafe)
    (hunits : ∀ s ∈ coalesce (sorted ranges), Unit16 s)
    (hsnapshots : snapshotItems digest dir allowlist 0 items after =
      .ok (snapshotPaths dir 0 (coalesce (sorted ranges)), copied))
    (hcopied : Copied dir memory copied.files 0 (coalesce (sorted ranges)))
    (hbeside : Beside dir 0 after copied) :
    Restores openocd after.identity ranges memory after.memory
      (restore digest openocd dir manifest
        (backupReport after.identity items includeSettings) includeSettings after) := by
  have hcovers : ∀ a, Covers (coalesce (sorted ranges)) a ↔ Covers ranges a :=
    fun _ => covers_coalesce_sorted
  rw [restore_required hrequired, restoreBackup_report hsome hallowlist, hsnapshots]
  -- The two runs of OpenOCD may fail; the first decides whether the target is the same.
  rcases run_cases hdocumented "restore-identity" [] copied
    with ⟨output, hrun, hidentity⟩ | ⟨hnone, hrun⟩
  · rw [hbeside.identity] at hidentity
    have hsame : raiseIf (¬ after.identity.value.eq after.identity.value)
        (openOcdError "backup belongs to a different target") = .ok () :=
      raiseIf_ok.mpr (by simp [identity_eq])
    have hcommands := writeCommands_safe (snapshotPaths_safe hroot 0 (coalesce (sorted ranges)))
    rcases run_cases hdocumented "restore"
      (.halt :: flashCommands (snapshotPaths dir 0 (coalesce (sorted ranges)))) copied with
      ⟨last, hwritten, -⟩ | ⟨hnone, hwritten⟩
    · obtain ⟨hback, hout⟩ := flash_snapshots hunits hcopied
      simp only [bind, Except.bind, hrun, hidentity, List.foldl_nil, hsame, hcommands, hwritten]
      refine ⟨(fun e he => by cases he), fun _ => ⟨_, rfl⟩, ?_, ?_⟩
      · intro left hleft a ha
        obtain rfl := Except.ok.inj hleft
        exact hback a ((hcovers a).mpr ha)
      · intro left hleft a ha
        obtain rfl := Except.ok.inj hleft
        rw [← hbeside.memory]
        exact hout a fun hin => ha ((hcovers a).mp hin)
    · simp only [bind, Except.bind, hrun, hidentity, List.foldl_nil, hsame, hcommands, hwritten]
      exact Restores.failed "restore" hbeside.identity hnone
  · simp only [bind, Except.bind, hrun]
    exact Restores.failed "restore-identity" hbeside.identity hnone

/-- The maximal runs of the backed-up addresses are the ranges put together. -/
theorem runsAllowed_iff {includeSettings : Bool} {manifest : Value} {ranges : List Span}
    {allowlist : List (List Value)}
    (hranges : backedRanges includeSettings [manifest] = .ok ranges)
    (hallowlist : restoreAllowlist manifest includeSettings = .ok allowlist)
    (hseparated : Separated (coalesce (sorted ranges))) :
    RunsAllowed includeSettings manifest ↔
      ∀ s ∈ coalesce (sorted ranges), insideAny s allowlist = .ok true := by
  have hcovers : Covers ranges = Covers (coalesce (sorted ranges)) :=
    funext fun a => propext covers_coalesce_sorted.symm
  constructor
  · rintro ⟨others, allowed, hothers, hallowed, hinside⟩ s hs
    obtain rfl := Except.ok.inj (hranges.symm.trans hothers)
    obtain rfl := Except.ok.inj (hallowlist.symm.trans hallowed)
    refine hinside s ?_
    rw [hcovers]
    exact (isRun_covers hseparated).mpr hs
  · intro hinside
    refine ⟨ranges, _, hranges, hallowlist, fun s hs => hinside s ?_⟩
    rw [hcovers] at hs
    exact (isRun_covers hseparated).mp hs

/-- **The round trip.** Whatever the target held: a restore of an accepted manifest's backup,
on the same target and with the files of the backup as they were, brings the bytes back and
writes no other exactly when every maximal run of the backed-up addresses passes the guard of
the restore. The run's directory is a new one below the same root. -/
theorem restore_round_trip (hdocumented : Documented openocd) {manifest : Value}
    (haccepted : Accepted manifest) {includeSettings : Bool} {backupDir restoreDir : RunDir}
    (hroot : restoreDir.root = backupDir.root) {w kept after : World} {report : Value}
    (hbackup : backup digest openocd backupDir manifest includeSettings w = .ok (report, kept))
    (hsame : after.identity = w.identity) (hintact : ∀ i, after.files
      (backupDir.file (dumpName i ".hex")) = kept.files (backupDir.file (dumpName i ".hex")))
    (hfresh : ∀ name, after.files (restoreDir.file name) = none) :
    ∃ ranges, backedRanges includeSettings [manifest] = .ok ranges ∧
      (Restores openocd after.identity ranges w.memory after.memory
        (restore digest openocd restoreDir manifest report includeSettings after) ↔
        RunsAllowed includeSettings manifest) := by
  obtain ⟨ranges, hrequired, hranges, hmany, hunits, hseparated, hsafe, rfl, hkept, -, -⟩ :=
    backup_ok hdocumented hbackup
  obtain ⟨allowlist, hallowlist⟩ := accepted_allowlist haccepted hrequired
  have hsome : receipts digest backupDir w.memory 0 (coalesce (sorted ranges)) ≠ [] := by
    obtain ⟨s, rest, hspans⟩ := List.exists_cons_of_ne_nil hmany
    rw [hspans, receipts]
    exact List.cons_ne_nil _ _
  have hfiles : Kept backupDir w.memory after.files 0 (coalesce (sorted ranges)) := fun k s hs => by
    rw [hintact, hkept k s hs]
  -- a file of the backup is there, so it is none of the new directory
  have hapart : ∀ i k s, (coalesce (sorted ranges))[k]? = some s →
      backupDir.file (dumpName (0 + k) ".hex") ≠ restoreDir.file (restoreName i) := by
    intro i k s hs heq
    have hthere := hfiles k s hs
    rw [heq, hfresh] at hthere
    nomatch hthere
  refine ⟨ranges, hranges, ?_⟩
  rw [runsAllowed_iff hranges hallowlist hseparated, ← hsame]
  rcases @snapshotItems_receipts digest allowlist w.memory backupDir restoreDir
    (coalesce (sorted ranges)) 0 after hunits hfiles hapart with
    ⟨⟨s, hs, hout⟩, e, hforeign, herror⟩ | ⟨hall, copied, hsnapshots, hcopied, hbeside⟩
  · refine iff_of_false (fun hgood => ?_) fun hall => hout (hall s hs)
    refine hforeign.not_failed (hgood.refusal e ?_)
    rw [restore_required hrequired, restoreBackup_report hsome hallowlist, herror]
    rfl
  · refine iff_of_true ?_ hall
    rw [← hroot] at hsafe
    exact restores_snapshots hdocumented hrequired hsome hallowlist hsafe hunits hsnapshots
      hcopied hbeside

end

/-! ## A connected target -/

def benchIdentity : Identity :=
  { part := 0x054BC20A, variant := 0x41414230, rramKib := 2036, deviceId := "0123456789abcdef" }

def benchOutput : String := "NRFKIT_ID 054bc20a 41414230 2036\nNRFKIT_DEVICEID 01234567 89abcdef\n"

/-- OpenOCD connected to one target; with another it fails and does nothing. -/
def benchTool : Tool := fun commands w =>
  if w.identity = benchIdentity then (some benchOutput, commands.foldl Command.effect w)
    else (none, w)

theorem benchTool_documented : Documented benchTool := by
  have houtput : parseIdentity benchOutput = .ok benchIdentity := by rfl
  refine ⟨?_, ?_⟩
  · intro commands w output w' h
    by_cases hw : w.identity = benchIdentity
    · rw [benchTool, if_pos hw] at h
      exact (Prod.mk.inj h).2.symm
    · rw [benchTool, if_neg hw] at h
      nomatch (Prod.mk.inj h).1
  · intro commands w output w' h
    by_cases hw : w.identity = benchIdentity
    · rw [benchTool, if_pos hw] at h
      rw [← Option.some.inj (Prod.mk.inj h).1, hw, houtput]
    · rw [benchTool, if_neg hw] at h
      nomatch (Prod.mk.inj h).1

def benchWorld : World where
  identity := benchIdentity
  memory a := UInt8.ofNat a
  files _ := none

theorem plain_word {name : String} (h : tclWord name = .ok name) :
    ∀ c ∈ name.toList, c ∉ tclUnsafe := (tclWord_ok.mp h).1

def backupRun : RunDir :=
  ⟨"/state/runs", "20250101T000000Z-backup-ab12cd34", plain_word (by decide +kernel)⟩

def restoreRun : RunDir :=
  ⟨"/state/runs", "20250101T000100Z-restore-ef56ab78", plain_word (by decide +kernel)⟩

/-- A target erased behind a backup; of the host's files those of the run are left. -/
def erased (dir : RunDir) (w : World) : World where
  identity := w.identity
  memory _ := 0xFF
  files path := if (dir.file "").toList <+: path.toList then w.files path else none

theorem erased_file (dir : RunDir) (w : World) (name : String) :
    (erased dir w).files (dir.file name) = w.files (dir.file name) := by
  exact if_pos (by simp [RunDir.file])

theorem erased_other (w : World) (name : String) :
    (erased backupRun w).files (restoreRun.file name) = none := by
  refine if_neg fun hback => ?_
  have hrestore : (restoreRun.file "").toList <+: (restoreRun.file name).toList := by
    simp [RunDir.file]
  have hsame := List.prefix_of_prefix_length_le hback hrestore (by decide +kernel)
  revert hsame
  decide +kernel

/-- An image of 16 bytes. -/
def oneImage : Value := Manifest.smallManifest "nrf54lm20a" "nrf54lm20dk/nrf54lm20a/cpuapp"
      "PCA10184" [0] [Manifest.lowImage]

def oneImageDigest (_ : List UInt8) : String :=
  "8c15fd6026196f1b62b01a666aab86b05b6e5a031f9730760603be4ea3d40dd0"

theorem restore_round_trip_one :
    ∃ report kept,
      backup oneImageDigest benchTool backupRun oneImage false benchWorld = .ok (report, kept) ∧
      ∃ left, restore oneImageDigest benchTool restoreRun oneImage report false
        (erased backupRun kept) = .ok left ∧
        ∀ a, left.memory a = if a < 16 then benchWorld.memory a else 0xFF := by
  have haccepted : Accepted oneImage :=
    @Manifest.small_accepted (Manifest.smallText "nrf54lm20a" "nrf54lm20dk/nrf54lm20a/cpuapp"
      "PCA10184" [0] [Manifest.lowImageText]) _
      (by decide +kernel) (by decide +kernel)
  have hdone : (backup oneImageDigest benchTool backupRun oneImage false benchWorld).isOk =
      true := by decide +kernel
  obtain ⟨⟨report, kept⟩, hbackup⟩ := Manifest.isOk_ok hdone
  have hidentity : (erased backupRun kept).identity = benchWorld.identity := by
    obtain ⟨_, _, _, _, _, _, _, _, _, hkept, _⟩ := backup_ok benchTool_documented hbackup
    exact hkept
  obtain ⟨ranges, hranges, hrestores⟩ := restore_round_trip benchTool_documented haccepted
    (show restoreRun.root = backupRun.root from rfl) hbackup hidentity (fun i =>
      erased_file backupRun kept _) (erased_other kept)
  have hone : backedRanges false [oneImage] = .ok [(0, 16)] := by decide +kernel
  obtain rfl := Except.ok.inj (hranges.symm.trans hone)
  have hallowed : RunsAllowed false oneImage := by
    refine ⟨[(0, 16)], [[.int 0, .int 16]], hone, rfl, fun run hrun => ?_⟩
    have hmem : run ∈ [((0, 16) : Span)] := (isRun_covers (by simp [Separated])).mp hrun
    obtain rfl := List.mem_singleton.mp hmem
    rfl
  have hgood := hrestores.mpr hallowed
  obtain ⟨left, hleft⟩ := hgood.succeeds fun commands w hw => by
    have hbench : w.identity = benchIdentity := hw.trans hidentity
    rw [benchTool, if_pos hbench]
    rfl
  refine ⟨report, kept, hbackup, left, hleft, fun a => ?_⟩
  have hcovers : Covers [((0 : Int), (16 : Int))] a ↔ a < 16 := by
    simp only [covers_cons, covers_nil, or_false, Span.Holds]
    omega
  by_cases ha : a < 16
  · rw [if_pos ha]
    exact hgood.restored left hleft a (hcovers.mpr ha)
  · rw [if_neg ha]
    exact hgood.untouched left hleft a (mt hcovers.mp ha)

/-- Two images side by side, and an entry of the debug allowlist for each. -/
def sideBySide : Value :=
  Manifest.smallManifest "nrf54lm20a" "nrf54lm20dk/nrf54lm20a/cpuapp" "PCA10184" [0, 16]
    [Manifest.lowImage, Manifest.smallImage 1 "/build/next.hex" Manifest.nextHexDigest 16]

def sideBySideDigest (_ : List UInt8) : String :=
  "217c7167f82c25239aab735780310a0bbe33817d5a5b96e60097b0f35248a971"

def refusal {α : Type} : Except Raised α → Option Raised
  | .ok _ => none
  | .error e => some e

/-- The backup puts the two ranges together, and no entry holds both: the restore refuses what
was just backed up. -/
theorem restore_refuses_merged :
    Accepted sideBySide ∧ Documented benchTool ∧
      ∃ report kept, backup sideBySideDigest benchTool backupRun sideBySide false benchWorld =
        .ok (report, kept) ∧
        restore sideBySideDigest benchTool restoreRun sideBySide report false kept =
          .error (imageError
            "image range 0x00000000..0x00000020 is outside the manifest allowlist") := by
  have haccepted : Accepted sideBySide :=
    @Manifest.small_accepted
      (Manifest.smallText "nrf54lm20a" "nrf54lm20dk/nrf54lm20a/cpuapp" "PCA10184" [0, 16]
      [Manifest.lowImageText,
        Manifest.smallImageText 1 "/build/next.hex" Manifest.nextHexDigest 16]) _
        (by decide +kernel) (by decide +kernel)
  have hdone : (backup sideBySideDigest benchTool backupRun sideBySide false benchWorld).isOk =
      true := by decide +kernel
  have hboth : refusal (do
      let (report, kept) ← backup sideBySideDigest benchTool backupRun sideBySide false benchWorld
      restore sideBySideDigest benchTool restoreRun sideBySide report false kept) =
        some (imageError
          "image range 0x00000000..0x00000020 is outside the manifest allowlist") := by
          decide +kernel
  obtain ⟨⟨report, kept⟩, hbackup⟩ := Manifest.isOk_ok hdone
  refine ⟨haccepted, benchTool_documented, report, kept, hbackup, ?_⟩
  rw [hbackup] at hboth
  simp only [bind, Except.bind] at hboth
  cases hrestore : restore sideBySideDigest benchTool restoreRun sideBySide report false kept with
  | ok left =>
    rw [hrestore] at hboth
    nomatch hboth
  | error e =>
    rw [hrestore] at hboth
    rw [Option.some.inj hboth]

end NrfKit.Tools.OpenOcd
