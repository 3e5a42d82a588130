import NrfKit.Lib.Effects
import NrfKit.Tools.Bond

/- The two commands of `tools/nrfkit_tools/cli.py` that program a target: `command_flash` and
   `command_m6_bond_clear`. File names stand for paths below the run directory, but for the
   sources of the images.

   What files hold when they are read, what nrfutil returns and what raises come from
   outside; so does `text`, which is Python's `str`. -/
namespace NrfKit.Tools.Cli
open Effects Prog Python Spans Text

inductive Command where
  | deviceList
  | program (image serial family core : String)
  | read (output serial family core : String) (address size : Nat)
  | reset (serial family core kind : String)
  deriving DecidableEq, Repr

/-- The return code, and `parse_json_lines(stdout, "devices")`. -/
structure Output where
  returncode : Int
  devices : Except Raised Value

structure Cleanup where
  clearVerified : Bool
  restoreAttempted : Bool
  restoreVerified : Bool
  deriving DecidableEq

structure Report where
  status : String := "running"
  error : Option String := none
  stages : List String := []
  clearVerified : Bool := false
  restoreError : Option String := none
  cleanup : Option Cleanup := none

structure Args where
  manifest : String
  probeSerial : Option String := none
  resetKind : String := "RESET_PIN"
  authorizeBondClear : Bool := false

inductive Op where
  | newRun
  | loadManifest (path : String)
  | resolve (path : String)
  /-- `nrfutil --version`. -/
  | version
  | runLogged (command : Command) (log : String)
  | resolveAlias (selection : Option String) (board : Value)
  | lock (serial operation : String)
  | unlock
  | copyFile (source destination : String)
  | chmod (path : String)
  | sha256 (path : String)
  | readFile (path : String)
  | writeFile (path : String) (data : List UInt8)
  | atomicJson (report : Report)
  | print

abbrev Op.Ans : Op → Type
  | loadManifest _ => Value
  | runLogged _ _ => Output
  | resolveAlias _ _ => Option String
  | sha256 _ => String
  | readFile _ => List UInt8
  | newRun | resolve _ | version | lock _ _ | unlock | copyFile _ _ | chmod _ | writeFile
    _ _ | atomicJson _ | print => Unit

/-- The variables of `command_m6_bond_clear`; `command_flash` has only the report. -/
structure Locals where
  report : Report := {}
  clearVerified : Bool := false
  restoreAttempted : Bool := false
  restoreVerified : Bool := false
  manifest : Option Value := none
  device : Option Value := none
  original : Option (List UInt8) := none

abbrev Session (α : Type) := Prog Op Op.Ans Raised Locals α

def ask (op : Op) : Session op.Ans := perform op

def toolError (text : String) : Raised := ⟨"ToolError", text⟩

def lift {α : Type} : Except Raised α → Session α
  | .ok a => pure a
  | .error e => raise e

def updateReport (f : Report → Report) : Session Unit :=
  assign fun s => { s with report := f s.report }

def saveReport : Session Unit := do
  let report ← locals Locals.report
  ask (.atomicJson report)

def stage (name : String) : Session Unit := do
  updateReport fun r => { r with stages := r.stages ++ [name] }
  saveReport

/-- `with _probe_lock(serial, operation)`. -/
def withLock {α : Type} (serial operation : String) (body : Session α) : Session α := do
  ask (.lock serial operation)
  withFinally body (ask .unlock)

/-- `path.read_text` or `path.read_bytes` where an `OSError` is caught. -/
def readData (path : String) : Session FileData :=
  withExcept (do
    let data : List UInt8 ← ask (.readFile path)
    pure (.ok data))
    (fun e => if isOSError e then pure (.error e.text) else raise e)

/-! ## The device -/

def asText : Value → Except Raised String
  | .str s => .ok s
  | v => .error ⟨"AttributeError", "'" ++ v.typeName ++ "' object has no attribute 'lower'"⟩

/-- `device["serialNumber"]`, which the lock encodes. -/
def serialNumber (device : Value) : Except Raised String :=
  match device.item "serialNumber" with
  | .error e => .error e
  | .ok (.str s) => .ok s
  | .ok v => .error ⟨"AttributeError", "'" ++ v.typeName ++ "' object has no attribute 'encode'"⟩

/-- `manifest["device_family"]` and `manifest["core"]`. -/
def target (manifest : Value) : Except Raised (String × String) :=
  match manifest.item "device_family", manifest.item "core" with
  | .error e, _ => .error e
  | .ok _, .error e => .error e
  | .ok family, .ok core =>
    match asText core, asText family with
    | .ok core, .ok family => .ok (family, core)
    | .error e, _ => .error e
    | .ok _, .error e => .error e

def deviceMatches (board : Value) (serial : Option String) (device : Value) : Except Raised Bool :=
  match device.get "devkit" (.dict []) with
  | .error e => .error e
  | .ok devkit =>
    match devkit.get "boardVersion" .none with
    | .error e => .error e
    | .ok found =>
      if ¬ found.eq board then .ok false
      else
        match serial with
        | none => .ok true
        | some serial =>
          match device.get "serialNumber" .none with
          | .error e => .error e
          | .ok number => .ok (number.eq (.str serial))

def devicesMatching (board : Value) (serial : Option String) :
    List Value → Except Raised (List Value)
  | [] => .ok []
  | device :: rest =>
    match deviceMatches board serial device, devicesMatching board serial rest with
    | .error e, _ => .error e
    | .ok _, .error e => .error e
    | .ok found, .ok others => .ok (if found then device :: others else others)

/-- `select_device`. -/
def selectDevice (devices : List Value) (board : Value)
    (serial : Option String) : Except Raised Value :=
  match devicesMatching board serial devices with
  | .error e => .error e
  | .ok [device] => .ok device
  | .ok [] => .error ⟨"DeviceContractError", "no connected device matches the selection"⟩
  | .ok _ => .error ⟨"DeviceContractError",
    "multiple connected devices match; select a probe serial explicitly"⟩

def enumerate : Session (List Value) := do
  let result : Output ← ask (.runLogged .deviceList "device-list.log")
  when (result.returncode ≠ 0) (raise (toolError "nrfutil device enumeration failed"))
  let devices ← lift result.devices
  match devices with
  | .list items => pure items
  | _ => raise (toolError "nrfutil returned a non-list device inventory")

def select (manifest : Value) (args : Args) : Session Value := do
  let devices ← enumerate
  let board ← lift (manifest.item "board_version")
  let serial : Option String ← ask (.resolveAlias args.probeSerial board)
  lift (selectDevice devices board serial)

def initializeDeviceReport (args : Args) (manifest : Value) : Session Unit := do
  ask (.resolve args.manifest)
  let _ ← lift (manifest.item "oracle")
  let _ ← lift (manifest.item "source_receipt_sha256")
  ask .version
  updateReport fun r => { r with stages := r.stages ++ ["manifest-audit"] }
  saveReport

/-- `run_logged(program_argv(...))`, and its return code. -/
def programImage (image serial : String) (manifest : Value) (log : String) : Session Int := do
  let target ← lift (target manifest)
  let result : Output ← ask (.runLogged (.program image serial target.1 target.2) log)
  pure result.returncode

/-! ## Flash -/

section
variable (text : Value → String)

/-- `f"{order:02d}"`. -/
def orderText : Value → Except Raised String
  | .int n => .ok (if 0 ≤ n ∧ n < 10 then "0" ++ toString n else toString n)
  | .bool b => .ok (if b then "01" else "00")
  | .none => .error ⟨"TypeError", "unsupported format string passed to NoneType.__format__"⟩
  | .list _ => .error ⟨"TypeError", "unsupported format string passed to list.__format__"⟩
  | .dict _ => .error ⟨"TypeError", "unsupported format string passed to dict.__format__"⟩
  | v => .error ⟨"ValueError", "Unknown format code 'd' for object of type '" ++ v.typeName ++ "'"⟩

def snapshotName (item : Value) : Except Raised String :=
  match item.item "order" with
  | .error e => .error e
  | .ok order =>
    match orderText order, item.item "domain" with
    | .error e, _ => .error e
    | .ok _, .error e => .error e
    | .ok order, .ok domain => .ok (order ++ "-" ++ text domain ++ ".hex")

/-- `Path(item["path"])`. -/
def itemPath (item : Value) : Except Raised String :=
  match item.item "path" with
  | .error e => .error e
  | .ok (.str path) => .ok path
  | .ok v => .error ⟨"TypeError", "argument should be a str or an os.PathLike object, not '" ++
    v.typeName ++ "'"⟩

/-- `tuple(tuple(entry) for entry in value)`. -/
def entries (value : Value) : Except Raised (List (List Value)) :=
  match value.iterate with
  | .error e => .error e
  | .ok items => items.mapM Value.iterate

def itemAllowlist (item : Value) : Except Raised (List (List Value)) :=
  match item.item "allowlist" with
  | .error e => .error e
  | .ok allowlist => entries allowlist

/-- The part of the snapshot that keeps it from being programmed: it is read and guarded. -/
def requireSnapshot (snapshot : String) (item : Value) : Session Unit := do
  let file ← readData snapshot
  let parsed ← lift (parseIhex snapshot file)
  let allowlist ← lift (itemAllowlist item)
  lift (requireAllowed parsed.ranges allowlist)

def snapshotHex (item : Value) : Session String := do
  let source ← lift (itemPath item)
  let snapshot ← lift (snapshotName text item)
  ask (.copyFile source snapshot)
  ask (.chmod snapshot)
  let digest : String ← ask (.sha256 snapshot)
  let expected ← lift (item.item "sha256")
  when (¬ expected.eq (.str digest))
    (raise (toolError "image changed while creating the programming snapshot"))
  requireSnapshot snapshot item
  pure snapshot

def snapshotItems : List Value → Session (List String)
  | [] => pure []
  | item :: rest => do
    let snapshot ← snapshotHex text item
    let others ← snapshotItems rest
    pure (snapshot :: others)

def imageItems (manifest : Value) : Except Raised (List Value) :=
  match manifest.item "images" with
  | .error e => .error e
  | .ok images => images.iterate

def snapshotHexes (manifest : Value) : Session (List String) := do
  let items ← lift (imageItems manifest)
  snapshotItems text items

def hashAll : List String → Session Unit
  | [] => pure ()
  | path :: rest => do
    let _ ← ask (.sha256 path)
    hashAll rest

/-- `snapshot.stem`, of a name that ends in `.hex`. -/
def stem (snapshot : String) : String := String.ofList (snapshot.toList.take (snapshot.length - 4))

/-- `_program`. -/
def programSnapshot (manifest device : Value) (snapshot : String) : Session Unit := do
  let serial ← lift (serialNumber device)
  let returncode ← programImage snapshot serial manifest ("program-" ++ stem snapshot ++ ".log")
  when (returncode ≠ 0) (raise (toolError "safe program command failed"))

def programAll (manifest device : Value) : List String → Session Unit
  | [] => pure ()
  | snapshot :: rest => do
    programSnapshot manifest device snapshot
    let _ ← ask (.sha256 snapshot)
    stage "program"
    programAll manifest device rest

def flashBody (args : Args) : Session Unit := do
  let manifest : Value ← ask (.loadManifest args.manifest)
  initializeDeviceReport args manifest
  let device ← select manifest args
  stage "device-selection"
  let serial ← lift (serialNumber device)
  let snapshots ← withLock serial "flash" (do
    stage "probe-lock"
    let snapshots ← snapshotHexes text manifest
    hashAll snapshots
    stage "image-snapshot"
    programAll manifest device snapshots
    pure snapshots)
  hashAll snapshots
  updateReport fun r => { r with status := "ok" }

def commandFlash (args : Args) : Session Unit := do
  ask .newRun
  withExcept (flashBody text args) (fun e => do
    updateReport fun r => { r with status := "failed", error := some e.message }
    saveReport
    raise e)
  saveReport
  ask .print

end

/-! ## Bond clear -/

def requireExact (path : String) : Session Unit := do
  let file ← readData path
  lift (requireExactM6SettingsImage path file)

def readExactM6Settings (path : String) : Session (List UInt8) := do
  requireExact path
  let data : List UInt8 ← ask (.readFile path)
  lift (settingsBytes data)

def readM6Settings (manifest device : Value) (output log : String) : Session (List UInt8) := do
  let serial ← lift (serialNumber device)
  let target ← lift (target manifest)
  let result : Output ← ask
    (.runLogged (.read output serial target.1 target.2 m6SettingsStart m6SettingsSize) log)
  when (result.returncode ≠ 0) (raise (toolError "M6 settings read failed"))
  ask (.chmod output)
  readExactM6Settings output

/-- `start < M6_SETTINGS_RANGE[1] and end > M6_SETTINGS_RANGE[0]`. -/
def overlapsSettings (range : Value) : Except Raised Bool :=
  match range.pair with
  | .error e => .error e
  | .ok (start, stop) =>
    match start.less m6SettingsRange.2 with
    | .error e => .error e
    | .ok false => .ok false
    | .ok true => stop.greater m6SettingsRange.1

/-- `any`, which stops at the first. -/
def anyOf (test : Value → Except Raised Bool) : List Value → Except Raised Bool
  | [] => .ok false
  | value :: rest =>
    match test value with
    | .error e => .error e
    | .ok true => .ok true
    | .ok false => anyOf test rest

def imageOverlapsSettings (image : Value) : Except Raised Bool :=
  match image.item "ranges" with
  | .error e => .error e
  | .ok ranges =>
    match ranges.iterate with
    | .error e => .error e
    | .ok items => anyOf overlapsSettings items

def requireBondManifest (manifest : Value) : Except Raised Unit :=
  match manifest.item "soc", manifest.item "oracle" with
  | .error e, _ => .error e
  | .ok soc, oracle =>
    if ¬ soc.eq (.str "nrf54lm20a") then
      .error (toolError "bond clear requires an LM20 M6 or locked BLE oracle manifest")
    else
      match oracle with
      | .error e => .error e
      | .ok oracle =>
        if isM6BondManifest oracle then .ok ()
        else .error (toolError "bond clear requires an LM20 M6 or locked BLE oracle manifest")

def requireApart (manifest : Value) : Except Raised Unit :=
  match imageItems manifest with
  | .error e => .error e
  | .ok items =>
    match anyOf imageOverlapsSettings items with
    | .error e => .error e
    | .ok true => .error (toolError "firmware image unexpectedly overlaps the M6 settings region")
    | .ok false => .ok ()

def writeErasedM6Settings (path : String) : Session Unit := do
  ask (.writeFile path erasedText)
  requireExact path

/-- The part behind the lock: the backup, the erased image, its programming and readback. -/
def clearSettings (manifest device : Value) (args : Args) : Session Unit := do
  let serial ← lift (serialNumber device)
  stage "probe-lock"
  let original ← readM6Settings manifest device "settings-before.hex" "settings-read-before.log"
  assign fun s => { s with original := some original }
  let _ ← ask (.sha256 "settings-before.hex")
  stage "settings-backup"
  writeErasedM6Settings "settings-erased.hex"
  ask (.chmod "settings-erased.hex")
  requireExact "settings-erased.hex"
  let returncode ← programImage "settings-erased.hex" serial manifest "settings-clear.log"
  when (returncode ≠ 0) (raise (toolError "M6 bond clear program operation failed"))
  let cleared ← readM6Settings manifest device "settings-after.hex" "settings-read-after.log"
  when (cleared ≠ List.replicate m6SettingsSize 0xff)
    (raise (toolError "M6 settings did not read back as erased"))
  assign fun s => { s with clearVerified := true }
  stage "settings-clear"
  let target ← lift (target manifest)
  let result : Output ← ask
    (.runLogged (.reset serial target.1 target.2 args.resetKind) "reset.log")
  when (result.returncode ≠ 0) (raise (toolError "reset after M6 bond clear failed"))
  stage "reset"

def bondClearBody (args : Args) : Session Unit := do
  when (¬ args.authorizeBondClear) (raise (toolError "explicit --authorize-bond-clear is required"))
  let manifest : Value ← ask (.loadManifest args.manifest)
  assign fun s => { s with manifest := some manifest }
  lift (requireBondManifest manifest)
  lift (requireApart manifest)
  initializeDeviceReport args manifest
  let device ← select manifest args
  assign fun s => { s with device := some device }
  stage "device-selection"
  let serial ← lift (serialNumber device)
  withLock serial "m6-bond-clear" (clearSettings manifest device args)
  updateReport fun r => { r with status := "ok", clearVerified := true }

/-- The nested recovery: the backup is programmed and read back. -/
def restoreSettings (manifest device : Value) (original : List UInt8) : Session Unit := do
  let serial ← lift (serialNumber device)
  withLock serial "m6-bond-restore" (do
    requireExact "settings-before.hex"
    let returncode ← programImage "settings-before.hex" serial manifest "settings-restore.log"
    when (returncode ≠ 0) (raise (toolError "M6 settings restoration program failed"))
    let restored ← readM6Settings manifest device "settings-restored.hex"
      "settings-read-restored.log"
    assign fun s => { s with restoreVerified := restored = original }
    when (restored ≠ original) (raise (toolError "M6 settings restoration verification failed")))

/-- The recovery, where the settings were read and not verified as erased. -/
def restoreAfter (s : Locals) : Session Unit :=
  match s.clearVerified, s.original, s.device, s.manifest with
  | false, some original, some device, some manifest => do
    assign fun s => { s with restoreAttempted := true }
    withExcept (restoreSettings manifest device original) fun e =>
      updateReport fun r => { r with restoreError := some e.message }
  | _, _, _, _ => pure ()

def bondClearFailed (e : Raised) : Session Unit := do
  let s ← locals id
  restoreAfter s
  updateReport fun r => { r with status := "failed", error := some e.message }
  raise e

def bondClearCleanup : Session Unit := do
  assign fun s => { s with
    report :=
      { s.report with cleanup := some ⟨s.clearVerified, s.restoreAttempted, s.restoreVerified⟩ } }
  saveReport

def commandM6BondClear (args : Args) : Session Unit := do
  ask .newRun
  withFinally (withExcept (bondClearBody args) bondClearFailed) bondClearCleanup
  saveReport
  ask .print

end NrfKit.Tools.Cli
