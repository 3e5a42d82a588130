import NrfKit.Lib.Effects
import NrfKit.Lib.Python

/- The EEPROM audit of the PPK2: `tools/nrfkit_tools/ppk2_eeprom_cli.py` with the shell of
   `ppk2_eeprom.py`. The audit loads a temporary firmware; the recovery brings the
   official one back, from whichever of application, bootloader and temporary shell it
   finds.

   What a command of nrfutil returns, which ports there are, how often a loop goes round
   before its deadline and what raises come from outside; `quoted` is Python's `repr`, in
   the texts of errors. `recoveryFailed` is not in the
   source: it notes that a query or a command of the recovery raised. -/
namespace NrfKit.Tools.Eeprom
open Effects Prog Python

inductive Package where
  | temporary
  | restore
  deriving DecidableEq, Repr

inductive Command where
  | deviceList
  | deviceInfo
  /-- `mcu-state-set Programming`. -/
  | enterBootloader
  | program (package : Package)
  deriving DecidableEq, Repr

/-- The return code, and `parse_json_lines(stdout, "devices")`. -/
structure Output where
  returncode : Int
  devices : Except Raised Value

structure Device where
  port : String
  serial : Option String

structure Args where
  ppkSerial : Option String := none
  restorePackageSha256 : String
  /-- `none` is not finite. -/
  timeout : Option Rat := some 90

structure Cleanup where
  restorationRequired : Bool
  officialFirmwareRestored : Bool
  deriving DecidableEq

structure Report where
  status : String := "running"
  error : Option String := none
  stages : List String := []
  restorationError : Option String := none
  cleanup : Option Cleanup := none

abbrev Calibration := String → Option (List UInt8)

inductive Op where
  | isFile (package : Package)
  | sha256 (package : Package)
  | newRun
  | discover (serial : Option String)
  | lock (name : String)
  | unlock
  | runLogged (command : Command) (log : String)
  | openInstrument (port : String)
  | instrumentMetadata
  | closeInstrument
  /-- The ports with the temporary firmware's USB ID. -/
  | shellPorts
  | openShell (port : String)
  | calibrationRead
  | eepromRead
  | writeShell (data : List UInt8)
  | flushShell
  | readShell
  | portExists
  /-- `last`: behind the recovery. -/
  | closeShell (last : Bool)
  | writeFile (name : String)
  | hashFile (name : String)
  /-- How often a loop goes round before its deadline. -/
  | polls
  | sleep
  | atomicJson (report : Report)
  | print

abbrev Op.Ans : Op → Type
  | isFile _ | portExists => Bool
  | sha256 _ | hashFile _ => String
  | discover _ => List Device
  | runLogged _ _ => Output
  | shellPorts => List String
  | calibrationRead => Calibration
  | eepromRead => List UInt8
  | writeShell _ | polls => Nat
  | newRun | lock _ | unlock | openInstrument _ | instrumentMetadata | closeInstrument | openShell
    _ | flushShell |
    readShell | closeShell _ | writeFile _ | sleep | atomicJson _ | print => Unit

structure Locals where
  report : Report := {}
  operationError : Option Raised := none
  restorationError : Option Raised := none
  restorationRequired : Bool := false
  /-- `shell` is not None. -/
  shell : Bool := false
  serial : String := ""
  initialFirmware : String := ""
  preexistingShellPorts : List String := []
  /-- The probe lock is on the exit stack. -/
  locked : Bool := false
  recoveryFailed : Bool := false

abbrev Session (α : Type) := Prog Op Op.Ans Raised Locals α

def ask (op : Op) : Session op.Ans := perform op

def ppk2Error (text : String) : Raised := ⟨"Ppk2Error", text⟩

/-- `except (Ppk2Error, OSError)`. -/
def expected (e : Raised) : Bool := e.name = "Ppk2Error" ∨ isOSError e

def lift {α : Type} : Except Raised α → Session α
  | .ok a => pure a
  | .error e => raise e

def updateReport (f : Report → Report) : Session Unit :=
  assign fun s => { s with report := f s.report }

def saveReport : Session Unit := do
  let report ← locals Locals.report
  ask (.atomicJson report)

def stage (name : String) : Session Unit := do
  updateReport fun r => { r with stages := r.stages ++ [name] }
  saveReport

/-! ## nrfutil -/

def runNrfutil (command : Command) (log operation : String) : Session (Except Raised Value) := do
  let result : Output ← ask (.runLogged command log)
  when (result.returncode ≠ 0)
    (raise (ppk2Error ("nrfutil " ++ operation ++ " failed; see " ++ log)))
  pure result.devices

/-- `device.get("traits", {}).get("nordicDfu") is True`. -/
def nordicDfu (device : Value) : Except Raised Bool :=
  match device.get "traits" (.dict []) with
  | .error e => .error e
  | .ok traits =>
    match traits.get "nordicDfu" .none with
    | .error e => .error e
    | .ok (.bool true) => .ok true
    | .ok _ => .ok false

def matchesSerial (serial : String) (device : Value) : Except Raised Bool :=
  match device.get "serialNumber" .none with
  | .error e => .error e
  | .ok found => if found.eq (.str serial) then nordicDfu device else .ok false

def matching (serial : String) : List Value → Except Raised (List Value)
  | [] => .ok []
  | device :: rest =>
    match matchesSerial serial device, matching serial rest with
    | .error e, _ => .error e
    | .ok _, .error e => .error e
    | .ok found, .ok others => .ok (if found then device :: others else others)

/-- The devices of an output: `_nrfutil_devices` and the selection by serial number. -/
def selectDevice (serial : String) (devices : Except Raised Value) : Except Raised Value :=
  match devices with
  | .error e => .error e
  | .ok (.list items) =>
    match matching serial items with
    | .error e => .error e
    | .ok [device] => .ok device
    | .ok _ => .error (ppk2Error "selected PPK2 did not enumerate uniquely through Nordic DFU")
  | .ok _ => .error (ppk2Error "nrfutil returned an invalid PPK2 device inventory")

def selectedNrfutilDevice (serial log : String) : Session Value := do
  let devices ← runNrfutil .deviceList log "device list"
  lift (selectDevice serial devices)

def currentMcuState (device : Value) : Except Raised Value := device.get "currentMcuState" .none

/-- `f"wait-{state.lower()}-{attempt:02d}.log"`. -/
def waitLog (state : String) (attempt : Nat) : String :=
  "wait-" ++ state.toLower ++ "-" ++ (if attempt < 10 then "0" else "") ++
  toString attempt ++ ".log"

section
variable (quoted : Value → String)

/-- One round of the wait: `last_error` where the device is not in the state. -/
def waitRound (serial state : String) (attempt : Nat) : Session (Option String) :=
  withExcept (do
      let device ← selectedNrfutilDevice serial (waitLog state attempt)
      let current ← lift (currentMcuState device)
      pure (if current.eq (.str state) then none
        else some ("device is in " ++ quoted current ++ " state")))
    (fun e => if expected e then pure (some e.text) else raise e)

/-- The rounds from this attempt on, so many before the deadline. -/
def waitRounds (serial state : String) : Nat → Nat → String → Session Unit
  | _, 0, lastError => raise (ppk2Error ("PPK2 did not enter " ++ state ++ " state: " ++ lastError))
  | attempt, n + 1, _ => do
    let missed ← waitRound quoted serial state attempt
    match missed with
    | none => pure ()
    | some lastError => do
      ask .sleep
      waitRounds serial state (attempt + 1) n lastError

def waitNrfutilState (serial state : String) : Session Unit := do
  let n : Nat ← ask .polls
  waitRounds quoted serial state 1 n "device did not enumerate"

end

/-- The identity in the output of device-info. -/
def identityOf (devices : Except Raised Value) : Except Raised String :=
  match devices with
  | .error e => .error e
  | .ok (.list [device]) =>
    match device.get "deviceInfo" (.dict []) with
    | .error e => .error e
    | .ok info =>
      match info.get "dfuTriggerVersion" (.dict []) with
      | .error e => .error e
      | .ok version =>
        match version.get "semVer" .none with
        | .error e => .error e
        | .ok (.str identity) =>
          if blank identity then
            .error (ppk2Error "PPK2 firmware did not provide a restorable identity")
          else .ok identity
        | .ok _ => .error (ppk2Error "PPK2 firmware did not provide a restorable identity")
  | .ok _ => .error (ppk2Error "nrfutil returned ambiguous PPK2 device info")

def firmwareIdentity (log : String) : Session String := do
  let devices ← runNrfutil .deviceInfo log "device-info"
  lift (identityOf devices)

def switchToBootloader (quoted : Value → String) (serial : String) : Session Unit := do
  let result : Output ← ask (.runLogged .enterBootloader "enter-bootloader.log")
  withExcept (waitNrfutilState quoted serial "Programming") fun e =>
    if result.returncode ≠ 0 then
      raise (ppk2Error "nrfutil bootloader transition failed; see enter-bootloader.log")
    else raise e

def programDfu (package : Package) (log : String) : Session Unit := do
  let _ ← runNrfutil (.program package) log "secure DFU program"

/-! ## The temporary shell -/

def findNewShellPort (existing : List String) : Session (Option String) := do
  let ports : List String ← ask .shellPorts
  match ports.filter fun port => ¬ existing.contains port with
  | [] => pure none
  | [port] => pure (some port)
  | _ => raise (ppk2Error "multiple new ppk2-eeprom serial ports appeared")

def waitNewShellPort (existing : List String) : Session String := do
  let n : Nat ← ask .polls
  repeatUntil (raise (ppk2Error "temporary ppk2-eeprom serial shell did not enumerate")) (do
    let port ← findNewShellPort existing
    match port with
    | some port => pure (some port)
    | none => do
      ask .sleep
      pure none) n

def openShell (port : String) : Session Unit := do
  ask (.openShell port)
  assign fun s => { s with shell := true }

/-- The port is gone: reading raises an `OSError`, or the node does not exist. -/
def disconnected : Session Bool :=
  withExcept (do
    ask .readShell
    let found : Bool ← ask .portExists
    pure (¬ found))
    (fun e => if isOSError e then pure true else raise e)

def resetToBootloader : Session Unit := do
  let written : Nat ← ask (.writeShell "reset_bl\r\n".toUTF8.toList)
  when (written ≠ 10) (raise (ppk2Error "short ppk2-eeprom reset command write"))
  ask .flushShell
  let n : Nat ← ask .polls
  repeatUntil (raise (ppk2Error "ppk2-eeprom reset_bl did not disconnect the temporary shell")) (do
    let gone ← disconnected
    pure (if gone then some () else none)) n

def calibrationOffsets : List (String × Nat) :=
  (List.range 5).map (fun i => ("r" ++ toString i, i * 4)) ++
  (List.range 5).map (fun i => ("gs" ++ toString i, 20 + i * 4)) ++
  (List.range 5).map (fun i => ("o" ++ toString i, 40 + i * 4)) ++
  (List.range 5).map (fun i => ("s" ++ toString i, 60 + i * 4)) ++
  (List.range 5).map (fun i => ("i" ++ toString i, 80 + i * 4)) ++
  (List.range 5).map (fun i => ("gi" ++ toString i, 100 + i * 4)) ++
  (List.range 5).map (fun i => ("ug" ++ toString i, 128 + i * 4))

def verifyCalibrationBytes (calibration : Calibration) (eeprom : List UInt8) : Except Raised Unit :=
  if eeprom.length ≠ 0x100 then .error (ppk2Error "invalid PPK2 EEPROM image size")
  else
    match calibrationOffsets.find? fun field =>
      calibration field.1 ≠ some ((eeprom.drop field.2).take 4) with
    | some field =>
      .error (ppk2Error ("calibration field " ++ field.1 ++ " differs from the raw EEPROM read"))
    | none => .ok ()

/-! ## The command -/

/-- 64 lowercase hexadecimal digits. -/
def isSha256 (text : String) : Bool :=
  text.length = 64 ∧ text.toList.all fun c => ('0' ≤ c ∧ c ≤ '9') ∨ ('a' ≤ c ∧ c ≤ 'f')

def temporaryPackageSha256 : String :=
  "1eafcc943caa9859529ac5cb7c6588cf70e1caf79131116bf8cccf3820181eef"

def validateInputs (args : Args) : Session Unit := do
  let temporary : Bool ← ask (.isFile .temporary)
  when (¬ temporary) (raise (ppk2Error "temporary and restore DFU packages must be existing files"))
  let restore : Bool ← ask (.isFile .restore)
  when (¬ restore) (raise (ppk2Error "temporary and restore DFU packages must be existing files"))
  let digest : String ← ask (.sha256 .temporary)
  when (digest ≠ temporaryPackageSha256)
    (raise (ppk2Error "temporary package is not pinned ppk2-eeprom r0"))
  when (¬ isSha256 args.restorePackageSha256)
    (raise (ppk2Error "restore package SHA-256 must be 64 lowercase hexadecimal digits"))
  let digest : String ← ask (.sha256 .restore)
  when (digest ≠ args.restorePackageSha256) (raise (ppk2Error "restore package SHA-256 mismatch"))
  when (¬ args.timeout.any fun t => 10 ≤ t ∧ t ≤ 300)
    (raise (ppk2Error "EEPROM audit timeout must be 10..300 seconds"))

/-- `ppk2.select`. -/
def select (serial : Option String) : Session (String × String) := do
  let devices : List Device ← ask (.discover serial)
  match devices with
  | [⟨port, some serial⟩] =>
    if serial = "" then raise (ppk2Error "select exactly one identified PPK2 using --ppk-serial")
    else pure (port, serial)
  | _ => raise (ppk2Error "select exactly one identified PPK2 using --ppk-serial")

/-- Up to the transition: the device, its lock, its firmware, and sole access to it. -/
def prepare (args : Args) : Session Unit := do
  let (port, serial) ← select args.ppkSerial
  assign fun s => { s with serial }
  ask (.lock ("ppk2:" ++ serial))
  assign fun s => { s with locked := true }
  let firmware ← firmwareIdentity "firmware-before.log"
  assign fun s => { s with initialFirmware := firmware }
  stage "official-firmware-verified-before"
  ask (.openInstrument port)
  withFinally (ask .instrumentMetadata) (ask .closeInstrument)
  stage "exclusive-instrument-access"
  let ports : List String ← ask .shellPorts
  assign fun s => { s with preexistingShellPorts := ports }

/-- The temporary firmware, and the reads through it. -/
def examine (quoted : Value → String) : Session Unit := do
  let serial ← locals Locals.serial
  switchToBootloader quoted serial
  stage "bootloader-entered"
  programDfu .temporary "program-temporary.log"
  let existing ← locals Locals.preexistingShellPorts
  let port ← waitNewShellPort existing
  openShell port
  stage "temporary-shell-ready"
  let calibration : Calibration ← ask .calibrationRead
  ask (.writeFile "calibration-read.txt")
  let eeprom1 : List UInt8 ← ask .eepromRead
  let eeprom2 : List UInt8 ← ask .eepromRead
  ask (.writeFile "eeprom-read-1.txt")
  ask (.writeFile "eeprom-read-2.txt")
  ask (.writeFile "eeprom-1.bin")
  ask (.writeFile "eeprom-2.bin")
  when (eeprom1 ≠ eeprom2) (raise (ppk2Error "two complete EEPROM reads differ"))
  lift (verifyCalibrationBytes calibration eeprom1)
  let _ ← ask (.hashFile "eeprom-1.bin")
  stage "eeprom-read-and-cross-check"

def audit (quoted : Value → String) (args : Args) : Session Unit := do
  prepare args
  assign fun s => { s with restorationRequired := true }
  examine quoted

def auditFailed (e : Raised) : Session Unit := assign fun s => { s with
  operationError := some e
  report := { s.report with status := "failed", error := some e.message } }

/-- A query or a command of the recovery: that it raised is noted. -/
def tracked {α : Type} (m : Session α) : Session α :=
  withExcept m fun e => do
    assign fun s => { s with recoveryFailed := true }
    raise e

/-- The device as nrfutil sees it; `none` where it does not. -/
def currentDevice (serial : String) : Session (Option Value) :=
  withExcept (do
    let device ← selectedNrfutilDevice serial "restore-state.log"
    pure (some device))
    (fun e => if expected e then pure none else tracked (raise e))

/-- `current is not None and current.get("currentMcuState") == "Application"`. -/
def isApplication : Option Value → Except Raised Bool
  | none => .ok false
  | some device =>
    match currentMcuState device with
    | .error e => .error e
    | .ok state => .ok (state.eq (.str "Application"))

section
variable (quoted : Value → String)

/-- The application runs: whether it is the initial one. Another goes to its bootloader. -/
def inspectApplication (serial : String) : Session Bool := do
  let current ← tracked (firmwareIdentity "restore-current-firmware.log")
  let initial ← locals Locals.initialFirmware
  if current = initial then pure true else do
    tracked (switchToBootloader quoted serial)
    pure false

/-- No device and no shell: the temporary shell is looked for. -/
def reopenShell : Session Unit := do
  let existing ← locals Locals.preexistingShellPorts
  let port ← tracked (findNewShellPort existing)
  let port ← (match port with
    | some port => pure port
    | none => tracked (waitNewShellPort existing))
  tracked (openShell port)

def dropShell : Session Unit := do
  ask (.closeShell false)
  assign fun s => { s with shell := false }

/-- The reset through the shell; what it raises is kept for the wait behind it. -/
def leaveShell (serial : String) : Session Unit := do
  let resetError ← withExcept (do
      tracked resetToBootloader
      pure none) (fun e => pure (some e))
  tracked dropShell
  withExcept (tracked (waitNrfutilState quoted serial "Programming")) fun e =>
    match resetError with
    | some resetError => raise (ppk2Error ("temporary firmware reset failed: " ++ resetError.text))
    | none => raise e

def programRestore (serial : String) : Session Unit := do
  tracked (waitNrfutilState quoted serial "Programming")
  tracked (programDfu .restore "program-restore.log")
  tracked (waitNrfutilState quoted serial "Application")

/-- What is left of the recovery once the device's state is known. -/
def recoverFrom (serial : String) (current : Option Value) : Session Bool := do
  let application ← tracked (lift (isApplication current))
  if application then inspectApplication quoted serial else do
    let shell ← locals Locals.shell
    when (current.isNone ∧ ¬ shell) reopenShell
    pure false

/-- The body of the recovery. -/
def recover (serial : String) : Session Unit := do
  let current ← currentDevice serial
  let alreadyRestored ← recoverFrom quoted serial current
  let shell ← locals Locals.shell
  when shell (leaveShell quoted serial)
  when (¬ alreadyRestored) (programRestore quoted serial)
  let restored ← tracked (firmwareIdentity "firmware-after.log")
  let initial ← locals Locals.initialFirmware
  when (restored ≠ initial)
    (raise (ppk2Error ("restored firmware identity is " ++ quoted (.str restored) ++
    ", expected the initial identity " ++ quoted (.str initial))))
  stage "official-firmware-restored"

end

def recoveryRaised (e : Raised) : Session Unit := assign fun s => { s with
  restorationError := some e
  report := { s.report with restorationError := some e.message, status := "failed" } }

def recovery (quoted : Value → String) : Session Unit := do
  let s ← locals id
  when (s.restorationRequired ∧ s.serial ≠ "" ∧ s.initialFirmware ≠ "")
    (withExcept (recover quoted s.serial) recoveryRaised)

/-- `contexts.close()`. -/
def closeContexts : Session Unit := do
  let locked ← locals Locals.locked
  when locked (ask .unlock)

def closeLast : Session Unit := do
  let shell ← locals Locals.shell
  when shell (ask (.closeShell true))
  closeContexts

def Locals.final (s : Locals) : Report := { s.report with
  status := if s.operationError.isNone ∧ s.restorationError.isNone then "ok" else s.report.status
  cleanup := some ⟨s.restorationRequired, s.restorationRequired ∧ s.restorationError.isNone⟩ }

def finish (quoted : Value → String) : Session Unit := do
  recovery quoted
  closeLast
  assign fun s => { s with report := s.final }
  saveReport

/-- What the command raises in the end, from the two errors. -/
def outcome (operationError restorationError : Option Raised) : Option Raised :=
  match restorationError, operationError with
  | some restoration, some operation =>
    some (ppk2Error ("EEPROM audit failed (" ++ operation.text ++
    "); official firmware restoration also failed: " ++ restoration.text ++
    "; keep the PPK2 connected for recovery"))
  | some restoration, none => some restoration
  | none, some operation => some operation
  | none, none => none

def refuse : Option Raised → Session Unit
  | some e => raise e
  | none => pure ()

def command (quoted : Value → String) (args : Args) : Session Unit := do
  validateInputs args
  ask .newRun
  withFinally (withExcept (audit quoted args) auditFailed) (finish quoted)
  let s ← locals id
  refuse (outcome s.operationError s.restorationError)
  ask .print

/-! ## What the run records -/

abbrev Past := History Op Op.Ans Raised

abbrev Run := World Op Op.Ans Raised Locals

/-- What an event leaves in run.json. -/
def written : Event Op Op.Ans Raised → Option Report
  | ⟨.newRun, .ok _⟩ => some {}
  | ⟨.atomicJson report, .ok _⟩ => some report
  | _ => none

/-- run.json as it was last written. -/
def runJson (h : Past) : Option Report := latest written h

/-- The transition to the bootloader may have been issued. -/
def Issued (h : Past) : Prop := Happened (fun e => ∃ log, e.op = .runLogged .enterBootloader log) h

/-- A firmware identity read. -/
def ReadsIdentity (log identity : String) (e : Event Op Op.Ans Raised) : Prop :=
  ∃ out : Output, e = ⟨.runLogged .deviceInfo log, .ok out⟩ ∧ out.returncode = 0 ∧
    identityOf out.devices = .ok identity

def Op.programs (op : Op) : Prop := ∃ package log, op = .runLogged (.program package) log

/-- The identity read before the transition. -/
def Initial (identity : String) (h : Past) : Prop :=
  Happened (ReadsIdentity "firmware-before.log" identity) h

/-- An identity read after the last programming command gave this one. -/
def Verified (identity : String) (h : Past) : Prop :=
  Since (fun _ e => ∃ log, ReadsIdentity log identity e) Op.programs h

/-- The recovery read this identity. -/
def Confirmed (identity : String) (h : Past) : Prop :=
  Happened (fun e => ReadsIdentity "restore-current-firmware.log" identity e ∨
    ReadsIdentity "firmware-after.log" identity e) h

/-- The restore package was programmed. -/
def Restored (h : Past) : Prop :=
  Happened (fun e => ∃ log, ∃ out : Output, e = ⟨.runLogged (.program .restore) log, .ok out⟩ ∧
    out.returncode = 0) h

/-- A close behind the recovery raised. -/
def ClosingRaised (h : Past) : Prop :=
  Happened (fun e => (e.op = .closeShell true ∨ e.op = .unlock) ∧ ∃ raised,
    e.outcome = .error raised) h

def Report.restored (r : Report) : Bool :=
  match r.cleanup with
  | some cleanup => cleanup.officialFirmwareRestored
  | none => false

/-- run.json tells the truth about the firmware, and the recovery left it restored unless
some query or command failed. -/
structure Truthful (result : Except Raised Unit) (w : Run) : Prop where
  initial : Initial w.locals.initialFirmware w.history
  restored : ∀ r, runJson w.history = some r → r.restored = true →
    Verified w.locals.initialFirmware w.history
  otherwise : ∀ r, runJson w.history = some r → r.restored = false →
    r.restorationError ≠ none ∧ ∃ raised, result = .error raised
  ok : ∀ r, runJson w.history = some r → r.status = "ok" →
    "eeprom-read-and-cross-check" ∈ r.stages ∧ r.error = none ∧ r.restored = true
  recovered : w.locals.recoveryFailed = false →
    Confirmed w.locals.initialFirmware w.history ∨ Restored w.history

/-! ## What the operations add -/

theorem runJson_concat (h : Past) (e : Event Op Op.Ans Raised) :
    runJson (h ++ [e]) = (written e).or (runJson h) := latest_concat written

/-- Operations that neither write run.json nor close behind the recovery. -/
def Op.plain : Op → Bool
  | newRun | atomicJson _ | closeShell true | unlock => false
  | _ => true

theorem runJson_plain {op : Op} (hop : op.plain = true) (h : Past)
    (outcome : Except Raised op.Ans) :
    runJson (h ++ [⟨op, outcome⟩]) = runJson h := by
  rw [runJson_concat]
  cases op <;> cases outcome <;> first | rfl | cases hop

theorem closing_plain {op : Op} (hop : op.plain = true) {h : Past} (outcome : Except Raised op.Ans)
    (hold : ¬ ClosingRaised h) : ¬ ClosingRaised (h ++ [⟨op, outcome⟩]) := by
  intro hnew
  rcases happened_concat.mp hnew with hpast | ⟨hlast | hlast, _⟩
  · exact hold hpast
  · rw [show op = .closeShell true from hlast] at hop
    cases hop
  · rw [show op = .unlock from hlast] at hop
    cases hop

/-- run.json tells nothing about the restoration. -/
def Unrecorded (h : Past) : Prop :=
  ∃ r, runJson h = some r ∧ r.restorationError = none ∧ r.cleanup = none

theorem unrecorded_plain {op : Op} (hop : op.plain = true) {h : Past}
    (outcome : Except Raised op.Ans) (hold : Unrecorded h) :
    Unrecorded (h ++ [⟨op, outcome⟩]) := by
  obtain ⟨r, hr, hnone⟩ := hold
  exact ⟨r, by rw [runJson_plain hop, hr], hnone⟩

theorem unrecorded_json (h : Past) {r : Report}
    (hr : r.restorationError = none ∧ r.cleanup = none) :
    Unrecorded (h ++ [⟨.atomicJson r, .ok ()⟩]) := ⟨r, by rw [runJson_concat]; rfl, hr⟩

variable {env : Env Op Op.Ans Raised} {I : Run → Prop} {quoted : Value → String}

/-! ## Commands and queries -/

theorem keeps_lift {α : Type} (m : Except Raised α) : Keeps env I (lift m) := by
  cases m with
  | ok a => exact keeps_pure a
  | error e => exact keeps_raise e

theorem keeps_runNrfutil {command : Command} {log : String} (operation : String)
    (h : Keeps env I (ask (.runLogged command log))) :
    Keeps env I (runNrfutil command log operation) := by
  apply keeps_bind h
  intro result
  apply keeps_bind (keeps_when (keeps_raise _))
  exact fun _ => keeps_pure _

section
variable (hI : ∀ op : Op, op.plain = true → Keeps env I (ask op))
include hI

theorem keeps_selected (serial log : String) : Keeps env I (selectedNrfutilDevice serial log) :=
  keeps_bind (keeps_runNrfutil _ (hI _ rfl)) fun _ => keeps_lift _

theorem keeps_waitRound (serial state : String) (attempt : Nat) :
    Keeps env I (waitRound quoted serial state attempt) := by
  apply keeps_except
  · apply keeps_bind (keeps_selected hI _ _)
    intro device
    exact keeps_bind (keeps_lift _) fun _ => keeps_pure _
  · intro e
    exact keeps_ite (keeps_pure _) (keeps_raise _)

theorem keeps_waitRounds (serial state : String) (attempt n : Nat) (lastError : String) :
    Keeps env I (waitRounds quoted serial state attempt n lastError) := by
  induction n generalizing attempt lastError with
  | zero => exact keeps_raise _
  | succ n ih =>
    apply keeps_bind (keeps_waitRound hI serial state attempt)
    intro missed
    cases missed with
    | none => exact keeps_pure _
    | some lastError => exact keeps_bind (hI _ rfl) fun _ => ih _ lastError

theorem keeps_waitNrfutilState (serial state : String) :
    Keeps env I (waitNrfutilState quoted serial state) :=
  keeps_bind (hI _ rfl) fun n => keeps_waitRounds hI serial state 1 n _

theorem keeps_switchToBootloader (serial : String) :
    Keeps env I (switchToBootloader quoted serial) := by
  apply keeps_bind (hI _ rfl)
  intro result
  apply keeps_except (keeps_waitNrfutilState hI _ _)
  exact fun e => keeps_ite (keeps_raise _) (keeps_raise _)

theorem keeps_programDfu (package : Package) (log : String) :
    Keeps env I (programDfu package log) :=
  keeps_bind (keeps_runNrfutil _ (hI _ rfl)) fun _ => keeps_pure _

theorem keeps_findNewShellPort (existing : List String) :
    Keeps env I (findNewShellPort existing) := by
  apply keeps_bind (hI _ rfl)
  intro ports
  split
  · exact keeps_pure _
  · exact keeps_pure _
  · exact keeps_raise _

theorem keeps_waitNewShellPort (existing : List String) :
    Keeps env I (waitNewShellPort existing) := by
  apply keeps_bind (hI _ rfl)
  intro n
  apply keeps_repeatUntil (keeps_raise _)
  apply keeps_bind (keeps_findNewShellPort hI existing)
  intro port
  cases port with
  | some port => exact keeps_pure _
  | none => exact keeps_bind (hI _ rfl) fun _ => keeps_pure _

theorem keeps_resetToBootloader : Keeps env I resetToBootloader := by
  apply keeps_bind (hI _ rfl)
  intro count
  apply keeps_bind (keeps_when (keeps_raise _))
  intro _
  apply keeps_bind (hI _ rfl)
  intro _
  apply keeps_bind (hI _ rfl)
  intro n
  apply keeps_repeatUntil (keeps_raise _)
  apply keeps_bind
  · apply keeps_except
    · apply keeps_bind (hI _ rfl)
      intro _
      exact keeps_bind (hI _ rfl) fun _ => keeps_pure _
    · intro e
      exact keeps_ite (keeps_pure _) (keeps_raise _)
  · exact fun _ => keeps_pure _

theorem keeps_openShell (hshell : ∀ w, I w → I { w with locals := { w.locals with shell := true } })
    (port : String) :
    Keeps env I (openShell port) := keeps_bind (hI _ rfl) fun _ => keeps_assign hshell

end

/-- A device-info that gives an identity leaves its read in the history. -/
theorem firmwareIdentity_reads {log : String} {P : Run → Prop}
    {Q : String → Run → Prop} {E : Raised → Run → Prop} (hread : ∀ w identity out, P w →
      ReadsIdentity log identity ⟨.runLogged .deviceInfo log, .ok out⟩ →
      Q identity { w with history := w.history ++ [⟨.runLogged .deviceInfo log, .ok out⟩] })
    (hraised : ∀ w e outcome, P w →
      E e { w with history := w.history ++ [⟨.runLogged .deviceInfo log, outcome⟩] }) :
    Triple env P (firmwareIdentity log) Q E := by
  intro w hw
  unfold firmwareIdentity runNrfutil ask perform
  cases hanswer : env w.history (.runLogged .deviceInfo log) with
  | error e =>
    have := hraised w e (.error e) hw
    simpa [Bind.bind, Prog.bind, hanswer] using this
  | ok out =>
    by_cases hcode : out.returncode = 0
    · cases hidentity : identityOf out.devices with
      | error e =>
        have := hraised w e (.ok out) hw
        simpa [Bind.bind, Prog.bind, hanswer, hcode, hidentity, when, pure, lift, raise] using this
      | ok identity =>
        have := hread w identity out hw ⟨out, rfl, hcode, hidentity⟩
        simpa [Bind.bind, Prog.bind, hanswer, hcode, hidentity, when, pure, lift, raise] using this
    · have := hraised w (ppk2Error ("nrfutil device-info failed; see " ++ log)) (.ok out) hw
      simpa [Bind.bind, Prog.bind, hanswer, hcode, when, pure, lift, raise] using this

/-- An identity is not empty. -/
theorem identityOf_ne {devices : Except Raised Value} {identity : String}
    (h : identityOf devices = .ok identity) : identity ≠ "" := by
  have hread : blank identity = false := by
    unfold identityOf at h
    repeat' split at h
    all_goals first
      | cases h; done
      | cases h; exact Bool.eq_false_iff.mpr ‹_›
  rintro rfl
  cases hread

/-! ## Before the transition -/

/-- The transition has not been issued, and the restoration is not asked for. -/
structure Unissued (w : Run) : Prop where
  required : w.locals.restorationRequired = false
  issued : ¬ Issued w.history

/-- The run behind `_new_run`, up to the transition. -/
structure Preparing (w : Run) : Prop extends Unissued w where
  operation : w.locals.operationError = none
  restoration : w.locals.restorationError = none
  report : w.locals.report.restorationError = none ∧ w.locals.report.cleanup = none
  running : w.locals.report.error = none ∧ w.locals.report.status ≠ "ok"
  closing : ¬ ClosingRaised w.history
  json : Unrecorded w.history

/-- The device and its firmware are known. -/
structure Prepared (w : Run) : Prop extends Preparing w where
  serial : w.locals.serial ≠ ""
  firmware : w.locals.initialFirmware ≠ ""
  read : Initial w.locals.initialFirmware w.history

/-- Operations before the transition. -/
def Op.early (op : Op) : Bool :=
  match op with
  | .runLogged .enterBootloader _ => false
  | op => op.plain

theorem Op.early_plain {op : Op} (hop : op.early = true) : op.plain = true := by
  unfold Op.early at hop
  split at hop
  · cases hop
  · exact hop

theorem unissued_early {op : Op} (hop : op.early = true) {h : Past} (outcome : Except Raised op.Ans)
    (hold : ¬ Issued h) :
    ¬ Issued (h ++ [⟨op, outcome⟩]) := by
  intro hnew
  rcases happened_concat.mp hnew with hpast | ⟨log, hlast⟩
  · exact hold hpast
  · rw [show op = .runLogged .enterBootloader log from hlast] at hop
    cases hop

theorem Unissued.early {w : Run} (h : Unissued w) {op : Op} (hop : op.early = true)
    (outcome : Except Raised op.Ans) :
    Unissued { w with history := w.history ++ [⟨op, outcome⟩] } :=
  ⟨h.required, unissued_early hop outcome h.issued⟩

theorem Preparing.early {w : Run} (h : Preparing w) {op : Op} (hop : op.early = true)
    (outcome : Except Raised op.Ans) :
    Preparing { w with history := w.history ++ [⟨op, outcome⟩] } := { h with
  issued := unissued_early hop outcome h.issued
  closing := closing_plain (Op.early_plain hop) outcome h.closing
  json := unrecorded_plain (Op.early_plain hop) outcome h.json }

theorem Prepared.early {w : Run} (h : Prepared w) {op : Op} (hop : op.early = true)
    (outcome : Except Raised op.Ans) :
    Prepared { w with history := w.history ++ [⟨op, outcome⟩] } := { h with
  toPreparing := h.toPreparing.early hop outcome
  read := happened_mono h.read }

theorem keeps_ask {op : Op}
    (h : ∀ w outcome, I w → I { w with history := w.history ++ [⟨op, outcome⟩] }) :
    Keeps env I (ask op) := keeps_perform h

/-- A report without a restoration, written. -/
theorem Preparing.json_written {w : Run} (h : Preparing w) {r : Report}
    (hr : r.restorationError = none ∧ r.cleanup = none) :
    Preparing { w with history := w.history ++ [⟨.atomicJson r, .ok ()⟩] } := { h with
  issued := by
    intro hnew
    rcases happened_concat.mp hnew with hpast | ⟨log, hlast⟩
    · exact h.issued hpast
    · cases hlast
  closing := by
    intro hnew
    rcases happened_concat.mp hnew with hpast | ⟨_, raised, hlast⟩
    · exact h.closing hpast
    · cases hlast
  json := unrecorded_json _ hr }

variable (hwrites : ∀ h r, ∃ u, env h (.atomicJson r) = .ok u)

section
include hwrites

/-- A stage is added to the report and written. -/
theorem keeps_stage (name : String)
    (hreport : ∀ w, I w → I { w with locals := { w.locals with report :=
      { w.locals.report with stages := w.locals.report.stages ++ [name] } } })
    (hwritten : ∀ w, I w →
      I { w with history := w.history ++ [⟨.atomicJson w.locals.report, .ok ()⟩] }) :
    Keeps env I (stage name) := by
  apply keeps_bind
  · exact keeps_assign hreport
  · intro _ w hw
    obtain ⟨u, hu⟩ := hwrites w.history w.locals.report
    have := hwritten w hw
    unfold saveReport ask perform
    simpa [Bind.bind, Prog.bind, Prog.locals, hu] using this

theorem prepared_stage (name : String) : Keeps env Prepared (stage name) := by
  apply keeps_stage hwrites name (fun _ h => { h with })
  intro w h
  exact { h with toPreparing := h.toPreparing.json_written h.report, read := happened_mono h.read }

end

/-- `select` gives a serial number that is not empty. -/
theorem select_preparing (serial : Option String) :
    Triple env Preparing (select serial) (fun found w => Preparing w ∧ found.2 ≠ "")
      (fun _ => Unissued) := by
  refine triple_bind (fun _ => Preparing) ?_ ?_
  · exact triple_perform (fun _ _ h => h.early rfl _) fun _ _ h => (h.early rfl _).toUnissued
  intro devices
  split
  · exact triple_ite (fun _ => triple_raise fun _ h => h.toUnissued) fun hne =>
      triple_pure fun _ h => ⟨h, hne⟩
  · exact triple_raise fun _ h => h.toUnissued

section
include hwrites

theorem prepare_prepared (args : Args) :
    Triple env Preparing (prepare args) (fun _ => Prepared) (fun _ => Unissued) := by
  refine triple_bind _ (select_preparing args.ppkSerial) ?_
  intro (port, serial)
  refine triple_bind (fun _ w => Preparing w ∧ w.locals.serial ≠ "") ?_ ?_
  · exact triple_assign fun w h => ⟨{ h.1 with }, h.2⟩
  intro _
  refine triple_bind (fun _ w => Preparing w ∧ w.locals.serial ≠ "") ?_ ?_
  · exact triple_perform (fun _ _ h => ⟨h.1.early rfl _, h.2⟩) fun _ _ h =>
      (h.1.early rfl _).toUnissued
  intro _
  refine triple_bind (fun _ w => Preparing w ∧ w.locals.serial ≠ "") ?_ ?_
  · exact triple_assign fun w h => ⟨{ h.1 with }, h.2⟩
  intro _
  refine triple_bind (fun identity w => Preparing w ∧ w.locals.serial ≠ "" ∧ identity ≠ "" ∧
    Initial identity w.history) ?_ ?_
  · apply firmwareIdentity_reads
    · intro w identity out h hread
      have hne : identity ≠ "" := by
        obtain ⟨_, _, _, hidentity⟩ := hread
        exact identityOf_ne hidentity
      exact ⟨h.1.early rfl _, h.2, hne, happened_concat.mpr (Or.inr hread)⟩
    · exact fun w e outcome h => (h.1.early rfl _).toUnissued
  intro identity
  refine triple_bind (fun _ => Prepared) ?_ ?_
  · exact triple_assign fun w h => ⟨{ h.1 with }, h.2.1, h.2.2.1, h.2.2.2⟩
  intro _
  have hraised : ∀ (e : Raised) (w : Run), Prepared w → Unissued w := fun _ _ h => h.toUnissued
  refine keeps_then (prepared_stage hwrites _) hraised fun _ => ?_
  refine keeps_then (keeps_ask fun _ _ h => h.early rfl _) hraised fun _ => ?_
  refine keeps_then (keeps_finally (keeps_ask fun _ _ h => h.early rfl _) (keeps_ask fun _ _ h =>
    h.early rfl _)) hraised fun _ => ?_
  refine keeps_then (prepared_stage hwrites _) hraised fun _ => ?_
  refine keeps_then (keeps_ask fun _ _ h => h.early rfl _) hraised fun ports => ?_
  exact triple_assign fun w h => { h with }

end

/-! ## From the transition on -/

/-- The restoration is asked for; what it needs is known. -/
structure Required (w : Run) : Prop where
  required : w.locals.restorationRequired = true
  serial : w.locals.serial ≠ ""
  firmware : w.locals.initialFirmware ≠ ""
  read : Initial w.locals.initialFirmware w.history
  cleanup : w.locals.report.cleanup = none
  status : w.locals.report.status ≠ "ok"
  closing : ¬ ClosingRaised w.history
  json : Unrecorded w.history

/-- No restoration error so far. -/
structure Recovering (w : Run) : Prop extends Required w where
  restoration : w.locals.restorationError = none
  report : w.locals.report.restorationError = none

/-- The audit goes on. -/
structure Auditing (w : Run) : Prop extends Recovering w where
  operation : w.locals.operationError = none
  error : w.locals.report.error = none

/-- What the report says where the audit went through. -/
def Audited (w : Run) : Prop :=
  w.locals.operationError = none → "eeprom-read-and-cross-check" ∈ w.locals.report.stages ∧
  w.locals.report.error = none

theorem Required.plain {w : Run} (h : Required w) {op : Op} (hop : op.plain = true)
    (outcome : Except Raised op.Ans) :
    Required { w with history := w.history ++ [⟨op, outcome⟩] } := { h with
  read := happened_mono h.read
  closing := closing_plain hop outcome h.closing
  json := unrecorded_plain hop outcome h.json }

theorem Recovering.plain {w : Run} (h : Recovering w) {op : Op} (hop : op.plain = true)
    (outcome : Except Raised op.Ans) :
    Recovering { w with history := w.history ++ [⟨op, outcome⟩] } :=
  { h with toRequired := h.toRequired.plain hop outcome }

theorem Auditing.plain {w : Run} (h : Auditing w) {op : Op} (hop : op.plain = true)
    (outcome : Except Raised op.Ans) :
    Auditing { w with history := w.history ++ [⟨op, outcome⟩] } :=
  { h with toRecovering := h.toRecovering.plain hop outcome }

theorem Recovering.json_written {w : Run} (h : Recovering w) :
    Recovering { w with history := w.history ++ [⟨.atomicJson w.locals.report, .ok ()⟩] } :=
  { h with
  read := happened_mono h.read
  closing := by
    intro hnew
    rcases happened_concat.mp hnew with hpast | ⟨_, raised, hlast⟩
    · exact h.closing hpast
    · cases hlast
  json := unrecorded_json _ ⟨h.report, h.cleanup⟩ }

theorem auditing_ask {op : Op} (hop : op.plain = true) : Keeps env Auditing (ask op) :=
  keeps_ask fun _ _ h => h.plain hop _

section
include hwrites

theorem auditing_stage (name : String) : Keeps env Auditing (stage name) := by
  apply keeps_stage hwrites name (fun _ h => { h with })
  intro w h
  exact { h with toRecovering := h.toRecovering.json_written }

theorem examine_audited : Triple env Auditing (examine quoted) (fun _ w => Auditing w ∧ Audited w)
      (fun _ => Auditing) := by
  have hraised : ∀ (e : Raised) (w : Run), Auditing w → Auditing w := fun _ _ h => h
  have hask : ∀ op : Op, op.plain = true → Keeps env Auditing (ask op) :=
    fun op hop => auditing_ask hop
  refine keeps_then (keeps_locals _) hraised fun serial => ?_
  refine keeps_then (keeps_switchToBootloader hask serial) hraised fun _ => ?_
  refine keeps_then (auditing_stage hwrites _) hraised fun _ => ?_
  refine keeps_then (keeps_programDfu hask _ _) hraised fun _ => ?_
  refine keeps_then (keeps_locals _) hraised fun existing => ?_
  refine keeps_then (keeps_waitNewShellPort hask existing) hraised fun port => ?_
  refine keeps_then (keeps_openShell hask (fun _ h => { h with }) port) hraised fun _ => ?_
  refine keeps_then (auditing_stage hwrites _) hraised fun _ => ?_
  refine keeps_then (hask .calibrationRead rfl) hraised fun calibration => ?_
  refine keeps_then (hask _ rfl) hraised fun _ => ?_
  refine keeps_then (hask .eepromRead rfl) hraised fun eeprom1 => ?_
  refine keeps_then (hask .eepromRead rfl) hraised fun eeprom2 => ?_
  refine keeps_then (hask _ rfl) hraised fun _ => ?_
  refine keeps_then (hask _ rfl) hraised fun _ => ?_
  refine keeps_then (hask _ rfl) hraised fun _ => ?_
  refine keeps_then (hask _ rfl) hraised fun _ => ?_
  refine keeps_then (keeps_when (keeps_raise _)) hraised fun _ => ?_
  refine keeps_then (keeps_lift _) hraised fun _ => ?_
  refine keeps_then (hask (.hashFile "eeprom-1.bin") rfl) hraised fun _ => ?_
  -- the last stage is the one that says that the reads agree
  refine triple_bind (fun _ w => Auditing w ∧ Audited w) ?_ fun _ => ?_
  · exact triple_assign fun w h => ⟨{ h with }, fun _ => ⟨by simp, h.error⟩⟩
  · intro w h
    obtain ⟨u, hu⟩ := hwrites w.history w.locals.report
    have := h.1.toRecovering.json_written
    unfold saveReport ask perform
    simp only [Bind.bind, Prog.bind, Prog.locals, hu]
    exact ⟨{ h.1 with toRecovering := this }, h.2⟩

/-- The audit ends before the transition, or with the restoration asked for. -/
theorem audit_ends (args : Args) : Triple env Preparing (withExcept (audit quoted args) auditFailed)
    (fun _ w => Unissued w ∨ (Recovering w ∧ Audited w)) (fun _ _ => False) := by
  have hfailed : ∀ e, Triple env (fun w => Unissued w ∨ Auditing w) (auditFailed e)
      (fun _ w => Unissued w ∨ (Recovering w ∧ Audited w)) (fun _ _ => False) := by
    intro e
    apply triple_assign
    intro w h
    rcases h with h | h
    · exact Or.inl ⟨h.required, h.issued⟩
    · have hstatus : "failed" ≠ "ok" := by decide
      exact Or.inr ⟨{ h with status := hstatus }, nofun⟩
  refine triple_except (fun _ w => Unissued w ∨ Auditing w) ?_ hfailed
  refine triple_bind (fun _ => Prepared) ?_ ?_
  · exact triple_mono (prepare_prepared hwrites args) (fun _ h => h) (fun _ _ h => h) fun _ _ h =>
      Or.inl h
  intro _
  refine triple_bind (fun _ => Auditing) ?_ ?_
  · exact triple_assign fun w h => { h with
      required := rfl
      cleanup := h.report.2
      status := h.running.2
      report := h.report.1
      error := h.running.1 }
  intro _
  exact triple_mono (examine_audited hwrites) (fun _ h => h) (fun _ _ h =>
    Or.inr ⟨h.1.toRecovering, h.2⟩) fun _ _ h => Or.inr h

end

/-! ## The recovery -/

/-- The recovery goes on; `confirmed` says whether it has read the initial identity. -/
structure Attempt (confirmed : Bool) (w : Run) : Prop extends Recovering w where
  audited : Audited w
  confirmed : confirmed = true → Confirmed w.locals.initialFirmware w.history

/-- The recovery raised. -/
structure Failing (w : Run) : Prop extends Required w where
  audited : Audited w
  recovered : w.locals.recoveryFailed = false → Confirmed w.locals.initialFirmware w.history ∨
    Restored w.history

variable {b : Bool}

theorem Attempt.plain {w : Run} (h : Attempt b w) {op : Op} (hop : op.plain = true)
    (outcome : Except Raised op.Ans) :
    Attempt b { w with history := w.history ++ [⟨op, outcome⟩] } := { h with
  toRecovering := h.toRecovering.plain hop outcome
  confirmed := fun hb => happened_mono (h.confirmed hb) }

theorem attempt_ask {op : Op} (hop : op.plain = true) : Keeps env (Attempt b) (ask op) :=
  keeps_ask fun _ _ h => h.plain hop _

theorem Attempt.failing {w : Run} (h : Attempt b w)
    (hrecovered : Confirmed w.locals.initialFirmware w.history ∨ Restored w.history) : Failing w :=
  ⟨h.toRequired, h.audited, fun _ => hrecovered⟩

/-- What a tracked part raises is noted. -/
theorem tracked_triple {α : Type} {m : Session α} {Q : α → Run → Prop}
    (h : Triple env (Attempt b) m Q (fun _ => Attempt b)) :
    Triple env (Attempt b) (tracked m) Q (fun _ => Failing) := by
  apply triple_except (fun _ => Attempt b) h
  intro e
  refine triple_bind (fun _ => Failing) ?_ fun _ => triple_raise fun _ h => h
  exact triple_assign fun w h => ⟨{ h.toRequired with }, h.audited, nofun⟩

theorem currentDevice_attempt (serial : String) :
    Triple env (Attempt b) (currentDevice serial) (fun _ => Attempt b) (fun _ => Failing) := by
  apply triple_except (fun _ => Attempt b)
  · exact keeps_bind (keeps_selected (fun _ hop => attempt_ask hop) _ _) fun _ => keeps_pure _
  · intro e
    exact triple_ite (fun _ => triple_pure fun _ h => h) fun _ =>
      tracked_triple (triple_raise fun _ h => h)

/-- An application with the initial identity is confirmed. -/
theorem inspectApplication_attempt (serial : String) :
    Triple env (Attempt false) (inspectApplication quoted serial) (fun found => Attempt found)
      (fun _ => Failing) := by
  refine triple_bind (fun identity w => Attempt false w ∧ Confirmed identity w.history) ?_ ?_
  · apply tracked_triple
    apply firmwareIdentity_reads
    · exact fun w identity out h hread =>
        ⟨h.plain rfl _, happened_concat.mpr (Or.inr (Or.inl hread))⟩
    · exact fun w e outcome h => h.plain rfl _
  intro current
  refine triple_bind (fun initial w => Attempt false w ∧ Confirmed current w.history ∧
    initial = w.locals.initialFirmware) ?_ ?_
  · exact triple_locals fun w h => ⟨h.1, h.2, rfl⟩
  intro initial
  apply triple_ite
  · intro hsame
    apply triple_pure
    intro w h
    refine { h.1 with confirmed := fun _ => ?_ }
    rw [← h.2.2, ← hsame]
    exact h.2.1
  · intro _
    refine triple_bind (fun _ => Attempt false) ?_ fun _ => triple_pure fun _ h => h
    exact triple_mono
      (tracked_triple (keeps_switchToBootloader (fun _ hop => attempt_ask hop) serial))
      (fun _ h => h.1) (fun _ _ h => h) fun _ _ h => h

theorem reopenShell_attempt :
    Triple env (Attempt b) reopenShell (fun _ => Attempt b) (fun _ => Failing) := by
  have hask : ∀ op : Op, op.plain = true → Keeps env (Attempt b) (ask op) :=
    fun _ hop => attempt_ask hop
  refine triple_bind (fun _ => Attempt b) (triple_locals fun _ h => h) fun existing => ?_
  refine triple_bind (fun _ => Attempt b) (tracked_triple (keeps_findNewShellPort hask existing))
    fun port => ?_
  refine triple_bind (fun _ => Attempt b) ?_ fun port => ?_
  · cases port with
    | some port => exact triple_pure fun _ h => h
    | none => exact tracked_triple (keeps_waitNewShellPort hask existing)
  · exact tracked_triple (keeps_openShell hask (fun _ h => { h with }) port)

theorem recoverFrom_attempt (serial : String) (current : Option Value) :
    Triple env (Attempt false) (recoverFrom quoted serial current) (fun found => Attempt found)
      (fun _ => Failing) := by
  refine triple_bind (fun _ => Attempt false) (tracked_triple (keeps_lift _)) fun application => ?_
  apply triple_ite
  · exact fun _ => inspectApplication_attempt serial
  · intro _
    refine triple_bind (fun _ => Attempt false) (triple_locals fun _ h => h) fun shell => ?_
    refine triple_bind (fun _ => Attempt false) ?_ fun _ => triple_pure fun _ h => h
    exact triple_when (fun _ => reopenShell_attempt) fun _ _ h => h

theorem leaveShell_attempt (serial : String) :
    Triple env (Attempt b) (leaveShell quoted serial) (fun _ => Attempt b) (fun _ => Failing) := by
  have hask : ∀ op : Op, op.plain = true → Keeps env (Attempt b) (ask op) :=
    fun _ hop => attempt_ask hop
  -- the error of the reset is caught, so here `tracked` has to keep `Attempt`
  have hreset : Keeps env (Attempt b) (tracked resetToBootloader) := by
    apply keeps_except (keeps_resetToBootloader hask)
    exact fun e => keeps_bind (keeps_assign fun _ h => { h with }) fun _ => keeps_raise e
  refine triple_bind (fun _ => Attempt b) ?_ fun resetError => ?_
  · apply triple_except (fun _ => Attempt b)
    · exact keeps_bind hreset fun _ => keeps_pure _
    · exact fun e => triple_pure fun _ h => h
  refine triple_bind (fun _ => Attempt b) ?_ fun _ => ?_
  · exact tracked_triple (keeps_bind (hask _ rfl) fun _ => keeps_assign fun _ h => { h with })
  apply triple_except (fun _ => Failing)
  · exact tracked_triple (keeps_waitNrfutilState hask serial _)
  · intro e
    cases resetError with
    | some resetError => exact triple_raise fun _ h => h
    | none => exact triple_raise fun _ h => h

/-- A program command that returns has programmed the package. -/
theorem programDfu_restored (log : String) :
    Triple env (Attempt b) (programDfu .restore log) (fun _ w => Attempt b w ∧ Restored w.history)
      (fun _ => Attempt b) := by
  refine triple_bind (fun _ w => Attempt b w ∧ Restored w.history) ?_ fun _ =>
    triple_pure fun _ h => h
  refine triple_bind (fun result w => Attempt b w ∧ (result.returncode = 0 → Restored w.history)) ?_
    fun result => ?_
  · apply triple_perform
    · intro w out h
      exact ⟨h.plain rfl _, fun hcode => happened_concat.mpr (Or.inr ⟨log, out, rfl, hcode⟩)⟩
    · exact fun w e h => h.plain rfl _
  refine triple_bind (fun _ w => Attempt b w ∧ Restored w.history) ?_ fun _ =>
    triple_pure fun _ h => h
  apply triple_when
  · exact fun _ => triple_raise fun _ h => h.1
  · exact fun hcode w h => ⟨h.1, h.2 (by simpa using hcode)⟩

theorem programRestore_attempt (serial : String) :
    Triple env (Attempt b) (programRestore quoted serial) (fun _ w => Attempt b w ∧
      Restored w.history) (fun _ => Failing) := by
  have hask : ∀ op : Op, op.plain = true → Keeps env (Attempt b) (ask op) :=
    fun _ hop => attempt_ask hop
  refine triple_bind (fun _ => Attempt b)
    (tracked_triple (keeps_waitNrfutilState hask serial _)) fun _ => ?_
  refine triple_bind (fun _ w => Attempt b w ∧ Restored w.history)
    (tracked_triple (programDfu_restored _)) fun _ => ?_
  have hkeeps : Keeps env (fun w => Attempt b w ∧ Restored w.history)
      (waitNrfutilState quoted serial "Application") :=
    keeps_waitNrfutilState (fun _ hop => keeps_ask fun _ _ h =>
      ⟨h.1.plain hop _, happened_mono h.2⟩) serial _
  apply triple_except (fun _ w => Attempt b w ∧ Restored w.history) hkeeps
  intro e
  refine triple_bind (fun _ => Failing) ?_ fun _ => triple_raise fun _ h => h
  exact triple_assign fun w h => ⟨{ h.1.toRequired with }, h.1.audited, nofun⟩

/-- The recovery has read the initial identity or programmed the package. -/
structure Reached (w : Run) : Prop extends Recovering w where
  audited : Audited w
  recovered : Confirmed w.locals.initialFirmware w.history ∨ Restored w.history

theorem Reached.failing {w : Run} (h : Reached w) : Failing w :=
  ⟨h.toRequired, h.audited, fun _ => h.recovered⟩

theorem Reached.plain {w : Run} (h : Reached w) {op : Op} (hop : op.plain = true)
    (outcome : Except Raised op.Ans) :
    Reached { w with history := w.history ++ [⟨op, outcome⟩] } := { h with
  toRecovering := h.toRecovering.plain hop outcome
  recovered := h.recovered.imp happened_mono happened_mono }

theorem verified_json {identity : String} {h : Past} (hold : Verified identity h) (r : Report)
    (outcome : Except Raised Unit) :
    Verified identity (h ++ [⟨.atomicJson r, outcome⟩]) :=
  since_concat.mpr (Or.inr ⟨hold, nofun⟩)

section
include hwrites

theorem recover_verified (serial : String) : Triple env (Attempt false) (recover quoted serial)
    (fun _ w => Reached w ∧ Verified w.locals.initialFirmware w.history) (fun _ => Failing) := by
  refine triple_bind (fun _ => Attempt false) (currentDevice_attempt serial) fun current => ?_
  refine triple_bind (fun found => Attempt found) (recoverFrom_attempt serial current)
    fun found => ?_
  refine triple_bind (fun _ => Attempt found) (triple_locals fun _ h => h) fun shell => ?_
  refine triple_bind (fun _ => Attempt found) ?_ fun _ => ?_
  · exact triple_when (fun _ => leaveShell_attempt serial) fun _ _ h => h
  refine triple_bind (fun _ => Reached) ?_ fun _ => ?_
  · cases found with
    | true => exact triple_pure fun w h => { h with recovered := Or.inl (h.confirmed rfl) }
    | false =>
      exact triple_mono (programRestore_attempt serial) (fun _ h => h) (fun _ _ h =>
        { h.1 with recovered := Or.inr h.2 })
        fun _ _ h => h
  -- the read behind the last programming command
  refine triple_bind (fun identity w => Reached w ∧ Verified identity w.history) ?_
    fun restored => ?_
  · apply triple_except (fun _ => Reached)
    · apply firmwareIdentity_reads
      · exact fun w identity out h hread => ⟨h.plain rfl _, since_concat.mpr (Or.inl ⟨_, hread⟩)⟩
      · exact fun w e outcome h => h.plain rfl _
    · intro e
      refine triple_bind (fun _ => Failing) ?_ fun _ => triple_raise fun _ h => h
      exact triple_assign fun w h => ⟨{ h.toRequired with }, h.audited, nofun⟩
  refine triple_bind (fun initial w => Reached w ∧ Verified restored w.history ∧
    initial = w.locals.initialFirmware) ?_ fun initial => ?_
  · exact triple_locals fun w h => ⟨h.1, h.2, rfl⟩
  refine triple_bind (fun _ w => Reached w ∧
    Verified w.locals.initialFirmware w.history) ?_ fun _ => ?_
  · apply triple_when
    · exact fun _ => triple_raise fun _ h => h.1.failing
    · intro hsame w h
      have hequal : restored = initial := by simpa using hsame
      rw [← h.2.2, ← hequal]
      exact ⟨h.1, h.2.1⟩
  have hstage :=
    @keeps_stage env (fun w => Reached w ∧ Verified w.locals.initialFirmware w.history) hwrites
    "official-firmware-restored" (fun _ h => ⟨{ h.1 with audited := fun hnone =>
      ⟨by simp [h.1.audited hnone], (h.1.audited hnone).2⟩ }, h.2⟩)
    (fun w h => ⟨{ h.1 with
      toRecovering := h.1.toRecovering.json_written
      recovered := h.1.recovered.imp happened_mono happened_mono }, verified_json h.2 _ _⟩)
  exact triple_mono hstage (fun _ h => h) (fun _ _ h => h) fun _ _ h => h.1.failing

end

/-! ## Behind the recovery -/

/-- The recovery is over: the firmware is verified, or its error is in the report. -/
structure Settled (w : Run) : Prop extends Required w where
  audited : Audited w
  verdict : (w.locals.restorationError = none ∧ Verified w.locals.initialFirmware w.history) ∨
    (w.locals.restorationError ≠ none ∧ w.locals.report.restorationError ≠ none)
  recovered : w.locals.recoveryFailed = false → Confirmed w.locals.initialFirmware w.history ∨
    Restored w.history

/-- A close raised before the outcome was written. -/
def Broken (w : Run) : Prop := Unrecorded w.history ∧ ClosingRaised w.history

/-- The outcome is written. -/
structure Done (w : Run) : Prop where
  read : Initial w.locals.initialFirmware w.history
  closing : ¬ ClosingRaised w.history
  json : runJson w.history = some w.locals.report
  restored : w.locals.report.restored = w.locals.restorationError.isNone
  status : w.locals.report.status = "ok" → w.locals.operationError = none ∧
    w.locals.restorationError = none
  audited : Audited w
  verdict : (w.locals.restorationError = none ∧ Verified w.locals.initialFirmware w.history) ∨
    (w.locals.restorationError ≠ none ∧ w.locals.report.restorationError ≠ none)
  recovered : w.locals.recoveryFailed = false → Confirmed w.locals.initialFirmware w.history ∨
    Restored w.history

theorem recovery_settled (hwrites : ∀ h r, ∃ u, env h (.atomicJson r) = .ok u) :
    Triple env (fun w => Recovering w ∧ Audited w) (recovery quoted) (fun _ => Settled)
      (fun _ _ => False) := by
  refine triple_bind (fun s w => Recovering w ∧ Audited w ∧ s = w.locals) (triple_locals
    fun w h => ⟨h.1, h.2, rfl⟩) fun s => ?_
  apply triple_when
  · intro _
    apply triple_except (fun _ => Failing)
    · refine triple_mono (recover_verified hwrites s.serial) (fun w h =>
        { h.1 with audited := h.2.1, confirmed := nofun }) ?_ fun _ _ h => h
      intro _ w h
      exact { h.1 with verdict := Or.inl ⟨h.1.restoration, h.2⟩, recovered :=
        fun _ => h.1.recovered }
    · intro e
      apply triple_assign
      intro w h
      have hstatus : "failed" ≠ "ok" := by decide
      exact { h with status := hstatus, verdict := Or.inr ⟨nofun, nofun⟩ }
  · -- the recovery is not skipped
    intro hskip w h
    exfalso
    obtain ⟨hrecovering, _, rfl⟩ := h
    have := hrecovering.required
    have := hrecovering.serial
    have := hrecovering.firmware
    simp_all

/-- A close behind the recovery that returns. -/
theorem Settled.closed {w : Run} (h : Settled w) {op : Op}
    (hop : op = .closeShell true ∨ op = .unlock) (a : op.Ans) :
    Settled { w with history := w.history ++ [⟨op, .ok a⟩] } := by
  have hjson : runJson (w.history ++ [⟨op, .ok a⟩]) = runJson w.history := by
    rw [runJson_concat]
    rcases hop with rfl | rfl <;> rfl
  have hprograms : ¬ op.programs := by
    rintro ⟨package, log, hprogram⟩
    rcases hop with rfl | rfl <;> cases hprogram
  refine { h with
    read := happened_mono h.read, closing := ?_, json := ?_, verdict := ?_, recovered := ?_ }
  · intro hnew
    rcases happened_concat.mp hnew with hpast | ⟨_, raised, hlast⟩
    · exact h.closing hpast
    · cases hlast
  · show Unrecorded (w.history ++ [⟨op, .ok a⟩])
    unfold Unrecorded
    rw [hjson]
    exact h.json
  · exact h.verdict.imp_left fun hverified =>
      ⟨hverified.1, since_concat.mpr (Or.inr ⟨hverified.2, hprograms⟩)⟩
  · exact fun hnone => (h.recovered hnone).imp happened_mono happened_mono

theorem Settled.broken {w : Run} (h : Settled w) {op : Op}
    (hop : op = .closeShell true ∨ op = .unlock) (e : Raised) :
    Broken { w with history := w.history ++ [⟨op, .error e⟩] } := by
  refine ⟨?_, happened_concat.mpr (Or.inr ⟨hop, e, rfl⟩)⟩
  obtain ⟨r, hr, hnone⟩ := h.json
  refine ⟨r, ?_, hnone⟩
  rw [runJson_concat, ← hr]
  rcases hop with rfl | rfl <;> rfl

theorem close_settled {op : Op} (hop : op = .closeShell true ∨ op = .unlock) :
    Triple env Settled (ask op) (fun _ => Settled) (fun _ => Broken) :=
  triple_perform (fun _ a h => h.closed hop a) fun _ e h => h.broken hop e

theorem closeLast_settled : Triple env Settled closeLast (fun _ => Settled) (fun _ => Broken) := by
  refine triple_bind (fun _ => Settled) (triple_locals fun _ h => h) fun shell => ?_
  refine triple_bind (fun _ => Settled) ?_ fun _ => ?_
  · exact triple_when (fun _ => close_settled (Or.inl rfl)) fun _ _ h => h
  · refine triple_bind (fun _ => Settled) (triple_locals fun _ h => h) fun locked => ?_
    exact triple_when (fun _ => close_settled (Or.inr rfl)) fun _ _ h => h

/-- The final report, written. -/
theorem Settled.done {w : Run} (h : Settled w) : Done { w with
    locals := { w.locals with report := w.locals.final }
    history := w.history ++ [⟨.atomicJson w.locals.final, .ok ()⟩] } := by
  refine ⟨happened_mono h.read, ?_, by rw [runJson_concat]; rfl, ?_, ?_, h.audited, ?_, ?_⟩
  · intro hnew
    rcases happened_concat.mp hnew with hpast | ⟨_, raised, hlast⟩
    · exact h.closing hpast
    · cases hlast
  · cases herror : w.locals.restorationError with
    | none => simp [Report.restored, Locals.final, h.required, herror]
    | some e => simp [Report.restored, Locals.final, herror]
  · intro hstatus
    by_cases hnone : w.locals.operationError.isNone ∧ w.locals.restorationError.isNone
    · exact ⟨Option.isNone_iff_eq_none.mp hnone.1, Option.isNone_iff_eq_none.mp hnone.2⟩
    · simp only [Locals.final, if_neg hnone] at hstatus
      exact absurd hstatus h.status
  · exact h.verdict.imp_left fun hverified => ⟨hverified.1, verified_json hverified.2 _ _⟩
  · exact fun hnone => (h.recovered hnone).imp happened_mono happened_mono

section
include hwrites

theorem finish_done : Triple env (fun w => Recovering w ∧ Audited w) (finish quoted) (fun _ => Done)
      (fun _ => Broken) := by
  refine triple_bind (fun _ => Settled) ?_ fun _ => ?_
  · exact triple_mono (recovery_settled hwrites) (fun _ h => h) (fun _ _ h => h) fun _ _ h => h.elim
  refine triple_bind (fun _ => Settled) closeLast_settled fun _ => ?_
  intro w h
  obtain ⟨u, hu⟩ := hwrites w.history w.locals.final
  have := h.done
  simp only [Bind.bind, Prog.bind, assign, saveReport, Prog.locals, ask, perform, hu]
  exact this

end

/-- Where the transition was not issued, it is not issued behind the audit. -/
theorem finish_unissued : Ends env Unissued (finish quoted) (fun w => ¬ Issued w.history) := by
  have hquiet : ∀ op : Op, (∀ log, op ≠ .runLogged .enterBootloader log) →
      Keeps env Unissued (ask op) := by
    intro op hop
    apply keeps_ask
    intro w outcome h
    refine ⟨h.required, fun hnew => ?_⟩
    rcases happened_concat.mp hnew with hpast | ⟨log, hlast⟩
    · exact h.issued hpast
    · exact hop log hlast
  have hkeeps : Keeps env Unissued (finish quoted) := by
    apply keeps_bind
    · refine triple_bind (fun s w => Unissued w ∧ s.restorationRequired = false)
        (triple_locals fun w h => ⟨h, h.required⟩) fun s => ?_
      apply triple_when
      · intro hrun w h
        have := h.2
        simp_all
      · exact fun _ _ h => h.1
    intro _
    apply keeps_bind
    · refine keeps_bind (keeps_locals _) fun shell =>
        keeps_bind (keeps_when (hquiet _ nofun)) fun _ => ?_
      exact keeps_bind (keeps_locals _) fun locked => keeps_when (hquiet _ nofun)
    intro _
    refine keeps_bind (keeps_assign fun _ h => ⟨h.required, h.issued⟩) fun _ => ?_
    exact keeps_bind (keeps_locals _) fun r => hquiet _ nofun
  exact triple_mono hkeeps (fun _ h => h) (fun _ _ h => h.issued) fun _ _ h => h.issued

/-! ## The command -/

theorem Done.plain {w : Run} (h : Done w) {op : Op} (hop : op.plain = true)
    (hprograms : ¬ op.programs) (outcome : Except Raised op.Ans) : Done
      { w with history := w.history ++ [⟨op, outcome⟩] } := { h with
  read := happened_mono h.read
  closing := closing_plain hop outcome h.closing
  json := by
    show runJson (w.history ++ [⟨op, outcome⟩]) = _
    rw [runJson_plain hop, h.json]
  verdict := h.verdict.imp_left fun hverified =>
    ⟨hverified.1, since_concat.mpr (Or.inr ⟨hverified.2, hprograms⟩)⟩
  recovered := fun hnone => (h.recovered hnone).imp happened_mono happened_mono }

/-- The report tells the truth, provided the command raises a restoration error. -/
theorem Done.truthful {w : Run} (h : Done w) {result : Except Raised Unit}
    (hraises : w.locals.restorationError ≠ none → ∃ e, result = .error e) : Truthful result w := by
  refine ⟨h.read, fun r hr hrestored => ?_, fun r hr hrestored => ?_,
    fun r hr hstatus => ?_, h.recovered⟩
  all_goals
    cases h.json.symm.trans hr
  · rw [h.restored, Option.isNone_iff_eq_none] at hrestored
    rcases h.verdict with hverified | hfailed
    · exact hverified.2
    · exact absurd hrestored hfailed.1
  · have herror : w.locals.restorationError ≠ none := by
      intro hnone
      rw [h.restored, hnone] at hrestored
      cases hrestored
    rcases h.verdict with hverified | hfailed
    · exact absurd hverified.1 herror
    · exact ⟨hfailed.2, hraises herror⟩
  · have hnone := h.status hstatus
    have haudited := h.audited hnone.1
    exact ⟨haudited.1, haudited.2, by rw [h.restored, hnone.2]; rfl⟩

/-- Where a close raised behind the recovery, nothing is recorded. -/
theorem Broken.not_truthful {w : Run} (h : Broken w)
    (result : Except Raised Unit) : ¬ Truthful result w := by
  intro htruthful
  obtain ⟨r, hr, herror, hcleanup⟩ := h.1
  have hrestored : r.restored = false := by rw [Report.restored, hcleanup]
  exact (htruthful.otherwise r hr hrestored).1 herror

/-- Once the transition may have been issued, run.json tells the truth iff no close behind the
recovery raised. -/
def Recorded (result : Except Raised Unit) (w : Run) : Prop :=
  Issued w.history → (Truthful result w ↔ ¬ ClosingRaised w.history)

theorem recorded_unissued {w : Run} (h : ¬ Issued w.history)
    (result : Except Raised Unit) : Recorded result w :=
  fun hissued => absurd hissued h

theorem outcome_raises {operation restoration : Option Raised}
    (h : outcome operation restoration = none) : restoration = none := by
  cases restoration with
  | none => rfl
  | some e => cases operation <;> cases h

/-- From the written outcome to the end. -/
theorem end_recorded : Triple env (fun w => Done w ∨ ¬ Issued w.history)
    (do
      let s ← locals id
      refuse (outcome s.operationError s.restorationError)
      ask .print)
    (fun _ w => Recorded (.ok ()) w) (fun e w => Recorded (.error e) w) := by
  have hdone : ∀ {w : Run} {result : Except Raised Unit}, Done w →
      (w.locals.restorationError ≠ none → ∃ e, result = .error e) → Recorded result w :=
    fun h hraises _ => ⟨fun _ => h.closing, fun _ => h.truthful hraises⟩
  refine triple_bind (fun s w => (Done w ∨ ¬ Issued w.history) ∧ s = w.locals)
    (triple_locals fun w h => ⟨h, rfl⟩) fun s => ?_
  refine triple_bind (fun _ w => (Done w ∧ w.locals.restorationError = none) ∨
    ¬ Issued w.history) ?_ fun _ => ?_
  · cases houtcome : outcome s.operationError s.restorationError with
    | none =>
      apply triple_pure
      intro w h
      obtain ⟨h, rfl⟩ := h
      exact h.imp_left fun hd => ⟨hd, outcome_raises houtcome⟩
    | some e =>
      apply triple_raise
      intro w h
      rcases h.1 with hd | hnot
      · exact hdone hd fun _ => ⟨e, rfl⟩
      · exact recorded_unissued hnot _
  · have hprint : ∀ (w : Run) (outcome : Except Raised Unit) (result : Except Raised Unit),
        (Done w ∧ w.locals.restorationError = none) ∨ ¬ Issued w.history →
        Recorded result { w with history := w.history ++ [⟨.print, outcome⟩] } := by
      intro w outcome result h
      rcases h with ⟨hd, hnone⟩ | hnot
      · have hprograms : ¬ Op.print.programs := by
          intro ⟨_, _, hprogram⟩
          cases hprogram
        exact hdone (hd.plain rfl hprograms outcome) fun herror => absurd hnone herror
      · exact recorded_unissued (@unissued_early .print rfl w.history outcome hnot) _
    exact triple_perform (fun w _ h => hprint w _ _ h) fun w _ h => hprint w _ _ h

theorem validateInputs_early (args : Args)
    (hI : ∀ op : Op, op.early = true → Keeps env I (ask op)) :
    Keeps env I (validateInputs args) := by
  apply keeps_bind (hI (.isFile .temporary) rfl)
  intro temporary
  apply keeps_bind (keeps_when (keeps_raise _))
  intro _
  apply keeps_bind (hI (.isFile .restore) rfl)
  intro restore
  apply keeps_bind (keeps_when (keeps_raise _))
  intro _
  apply keeps_bind (hI (.sha256 .temporary) rfl)
  intro digest
  apply keeps_bind (keeps_when (keeps_raise _))
  intro _
  apply keeps_bind (keeps_when (keeps_raise _))
  intro _
  apply keeps_bind (hI (.sha256 .restore) rfl)
  intro digest
  apply keeps_bind (keeps_when (keeps_raise _))
  intro _
  exact keeps_when (keeps_raise _)

section
include hwrites

theorem command_recorded (args : Args) :
    Triple env (fun w => w = { locals := {} }) (command quoted args)
    (fun _ w => Recorded (.ok ()) w) (fun e w => Recorded (.error e) w) := by
  have hstart : ∀ op : Op, op.early = true → Keeps env
      (fun w : Run => w.locals = {} ∧ ¬ Issued w.history ∧ ¬ ClosingRaised w.history) (ask op) := by
    intro op hop
    apply keeps_ask
    exact fun w outcome h =>
      ⟨h.1, unissued_early hop outcome h.2.1, closing_plain (Op.early_plain hop) outcome h.2.2⟩
  refine triple_bind (fun _ w => w.locals = {} ∧ ¬ Issued w.history ∧
    ¬ ClosingRaised w.history) ?_ fun _ => ?_
  · refine triple_mono (validateInputs_early args hstart) ?_ (fun _ _ h => h) fun _ w h =>
      recorded_unissued h.2.1 _
    intro w h
    subst h
    exact ⟨rfl, happened_nil, happened_nil⟩
  refine triple_bind (fun _ => Preparing) ?_ fun _ => ?_
  · apply triple_perform
    · intro w a h
      have hissued : ¬ Issued (w.history ++ [⟨.newRun, .ok a⟩]) := by
        intro hnew
        rcases happened_concat.mp hnew with hpast | ⟨log, hlast⟩
        · exact h.2.1 hpast
        · cases hlast
      refine ⟨⟨by rw [h.1], hissued⟩, by rw [h.1], by rw [h.1], by rw [h.1]; exact ⟨rfl, rfl⟩,
        by rw [h.1]; exact ⟨rfl, by decide⟩, ?_, ?_⟩
      · intro hnew
        rcases happened_concat.mp hnew with hpast | ⟨hlast | hlast, _⟩
        · exact h.2.2 hpast
        · cases hlast
        · cases hlast
      · exact ⟨{}, by rw [runJson_concat]; rfl, rfl, rfl⟩
    · intro w e h
      refine recorded_unissued ?_ _
      intro hnew
      rcases happened_concat.mp hnew with hpast | ⟨log, hlast⟩
      · exact h.2.1 hpast
      · cases hlast
  refine triple_bind (fun _ w => Done w ∨ ¬ Issued w.history) ?_ fun _ => end_recorded
  apply triple_finally (fun _ w => Unissued w ∨ (Recovering w ∧ Audited w)) (fun _ _ => False)
    (audit_ends hwrites args)
  · intro _ w h
    rcases h with h | h
    · exact triple_mono finish_unissued (fun _ h => h) (fun _ _ h => Or.inr h)
        (fun _ _ h => recorded_unissued h _) w h
    · refine triple_mono (finish_done hwrites) (fun _ h => h) (fun _ _ h => Or.inl h)
        (fun e w h _ => ?_) w h
      exact ⟨fun ht => absurd ht (h.not_truthful _), fun hnot => absurd h.2 hnot⟩
  · exact fun e w h => h.elim

end

/-- **Firmware recovery.** Once the bootloader transition may have been issued, run.json tells
the truth about the firmware iff neither the close of a shell the recovery left open nor the
release of the probe lock raised before the outcome was written. -/
theorem restoration_recorded_iff (quoted : Value → String) (args : Args)
    (env : Env Op Op.Ans Raised) (hwrites : ∀ h r, ∃ u, env h (.atomicJson r) = .ok u)
    (hissued : Issued (command quoted args env ⟨{}, []⟩).2.history) :
    Truthful (command quoted args env ⟨{}, []⟩).1 (command quoted args env ⟨{}, []⟩).2 ↔
      ¬ ClosingRaised (command quoted args env ⟨{}, []⟩).2.history := by
  have hcommand := @command_recorded env quoted hwrites args ⟨{}, []⟩ rfl
  match hrun : command quoted args env ⟨{}, []⟩ with
  | (.ok (), w) =>
    rw [hrun] at hcommand hissued
    exact hcommand hissued
  | (.error e, w) =>
    rw [hrun] at hcommand hissued
    exact hcommand hissued

/-! ## A device -/

/-- The last of the operations that change what runs on the device. -/
def lastChange (h : Past) : Option Op :=
  h.reverse.findSome? fun e =>
    match e.op with
    | .runLogged .enterBootloader _ | .runLogged (.program _) _ | .writeShell _ => some e.op
    | _ => none

def listed (state : String) : Value :=
  .list [.dict [("serialNumber", .str "P1"), ("traits", .dict [("nordicDfu", .bool true)]),
    ("currentMcuState", .str state)]]

/-- What device list shows: the temporary shell is no Nordic DFU device. -/
def shown (h : Past) : Value :=
  match lastChange h with
  | some (.runLogged (.program .temporary) _) => .list []
  | some (.runLogged .enterBootloader _) | some (.writeShell _) => listed "Programming"
  | _ => listed "Application"

def version : Value :=
  .list [.dict [("deviceInfo", .dict [("dfuTriggerVersion", .dict [("semVer", .str "1.2.0")])])]]

/-- A PPK2 that does what it is asked. -/
def obliging (h : Past) : (op : Op) → op.Ans
  | .isFile _ => true
  | .portExists => false
  | .sha256 .temporary => temporaryPackageSha256
  | .sha256 .restore | .hashFile _ => String.ofList (List.replicate 64 '0')
  | .discover _ => [⟨"/dev/ttyACM0", some "P1"⟩]
  | .runLogged .deviceList _ => ⟨0, .ok (shown h)⟩
  | .runLogged .deviceInfo _ => ⟨0, .ok version⟩
  | .runLogged _ _ => ⟨0, .ok .none⟩
  | .shellPorts =>
    match lastChange h with
    | some (.runLogged (.program .temporary) _) => ["/dev/ttyACM1"]
    | _ => []
  | .calibrationRead => fun _ => some [0, 0, 0, 0]
  | .eepromRead => List.replicate 256 0
  | .writeShell data => data.length
  | .polls => (1 : Nat)
  | .newRun | .lock _ | .unlock | .openInstrument
    _ | .instrumentMetadata | .closeInstrument | .openShell _ | .flushShell |
    .readShell | .closeShell _ | .writeFile _ | .sleep | .atomicJson _ | .print => ()

def obligingEnv : Env Op Op.Ans Raised := fun h op => .ok (obliging h op)

/-- The port of the probe lock cannot be written when it is released. -/
def lockFileLost : Env Op Op.Ans Raised := fun h op =>
  match op with
  | .unlock => .error ⟨"OSError", "[Errno 5] Input/output error"⟩
  | op => .ok (obliging h op)

/-- Python's `repr` of a text without quotes and backslashes. -/
def quotedText : Value → String
  | .str text => "'" ++ text ++ "'"
  | _ => "None"

def auditArgs : Args := { restorePackageSha256 := String.ofList (List.replicate 64 '0') }

/-- Decides whether the transition was issued. -/
def issues (e : Event Op Op.Ans Raised) : Bool :=
  match e.op with
  | .runLogged .enterBootloader _ => true
  | _ => false

theorem issued_of_any {h : Past} (hany : h.any issues = true) : Issued h := by
  obtain ⟨e, hmem, he⟩ := List.any_eq_true.mp hany
  refine ⟨e, hmem, ?_⟩
  unfold issues at he
  split at he
  · exact ⟨_, by assumption⟩
  · cases he

/-- A whole audit: the bootloader, the temporary shell, the reads, and the way back. -/
theorem restoration_recorded_obliging :
    Truthful (command quotedText auditArgs obligingEnv ⟨{}, []⟩).1
      (command quotedText auditArgs obligingEnv ⟨{}, []⟩).2 ∧
      (runJson (command quotedText auditArgs obligingEnv ⟨{}, []⟩).2.history).map Report.status =
        some "ok" := by
  have hissued : Issued (command quotedText auditArgs obligingEnv ⟨{}, []⟩).2.history :=
    issued_of_any (by decide +kernel)
  have hquiet : ((command quotedText auditArgs obligingEnv ⟨{}, []⟩).2.history.all fun e =>
      e.outcome.isOk) = true := by decide +kernel
  refine ⟨(restoration_recorded_iff quotedText auditArgs obligingEnv (fun _ _ =>
    ⟨(), rfl⟩) hissued).mpr ?_, by decide +kernel⟩
  intro ⟨e, hmem, _, raised, herror⟩
  have := List.all_eq_true.mp hquiet e hmem
  rw [herror] at this
  cases this

theorem unlock_failure_leaves_outcome_unrecorded :
    (∀ h r, ∃ u, lockFileLost h (.atomicJson r) = .ok u) ∧
      Issued (command quotedText auditArgs lockFileLost ⟨{}, []⟩).2.history ∧
      ¬ Truthful (command quotedText auditArgs lockFileLost ⟨{}, []⟩).1
        (command quotedText auditArgs lockFileLost ⟨{}, []⟩).2 := by
  refine ⟨fun _ _ => ⟨(), rfl⟩, issued_of_any (by decide +kernel), fun htruthful => ?_⟩
  have hjson : (runJson (command quotedText auditArgs lockFileLost ⟨{}, []⟩).2.history).any
      (fun r => ¬ r.restored ∧ r.restorationError = none) = true := by decide +kernel
  obtain ⟨r, hr, hnone⟩ := (Option.any_eq_true _ _).mp hjson
  have hnone : ¬ r.restored ∧ r.restorationError = none := by simpa using hnone
  exact (htruthful.otherwise r hr (by simpa using hnone.1)).1 hnone.2

end NrfKit.Tools.Eeprom
