import NrfKit.Tools.Cli

/- The autonomous power suite: `tools/nrfkit_tools/power_suite_cli.py`. The instrument, the
   child commands of the tool, the peer process and the files are operations; an operation
   names the part of `command` its call stands in where the same call stands in several.
   File names stand for paths below the run directory, but for what is resolved.

   `float` is the conversion of a text, which may fail. -/
namespace NrfKit.Tools.PowerSuite
open Effects Prog Python Spans
open Cli (toolError)

/-- Where a call stands: before the profiles, at the start of one, around its capture, in the
first part of the cleanup, in the restoration. -/
inductive Phase where
  | setup
  | profile
  | capture
  | cleanup
  | restore
  deriving DecidableEq, Repr

/-- A command of the tool itself, run by `_child`. -/
inductive Child where
  | backup (manifests : List String)
  | flash (manifest : String)
  | observe (manifest : String) (symbols : List String)
  | restore (manifest backupReport : String)
  deriving DecidableEq, Repr

/-- A file outside the run directory, in it, or in the directory of a profile below it. -/
inductive File where
  | given (path : String)
  | run (name : String)
  | profile (directory name : String)
  deriving DecidableEq, Repr

structure ChildOutput where
  returncode : Int
  /-- `stdout.splitlines()`. -/
  lines : List String

structure Device where
  port : String
  serial : String

structure Cleanup where
  restoreRequired : Bool
  restoreVerified : Bool
  peerRestoreRequired : Bool
  peerRestoreVerified : Bool
  deriving DecidableEq

structure Report where
  status : String := "running"
  error : Option String := none
  backupReport : Option String := none
  peerBackup : Option (String × Span) := none
  profiles : List String := []
  outputOffError : Option String := none
  restoreVerified : Bool := false
  restoreError : Option String := none
  restoreOutputOffError : Option String := none
  peerRestoreVerified : Bool := false
  peerRestoreError : Option String := none
  cleanup : Option Cleanup := none
  visualizationError : Option String := none

/-- The command line. `--profile` is required. -/
structure Args where
  profile : List String
  required : profile ≠ []
  instrumentSerial : Option String := none
  voltageMv : Int
  duration : Extended := .finite 18
  profileDuration : List String := []
  settle : Extended := .finite 0
  requireM7Profiles : Bool := false
  openocd : String
  scripts : String
  timeout : Extended := .finite 90
  peer : List String := []
  peerProbe : Option String := none
  peerTimeout : Extended := .finite 30
  gdb : Option String := none

inductive Op where
  | newRun
  | resolve (path : String)
  | loadManifest (path : String)
  | sha256 (file : File)
  | chmod (path : String)
  | atomicJson (report : Report)
  | selectInstrument (serial : Option String)
  | lock (name operation : String)
  | unlock
  | openInstrument (port : String)
  | metadata
  | power (phase : Phase) (on : Bool)
  | configureVoltage (voltageMv : Int)
  | capture (path : String) (duration : Extended)
  | decodeCapture (path : String)
  | summarizeCapture (path : String)
  | closeInstrument (phase : Phase)
  | sleep (duration : Extended)
  | child (child : Child) (log : String)
  | readReport (child : Child) (path : String)
  | readTranscript (report : String)
  | resolveAlias (selection : Option String)
  | runLogged (command : Cli.Command) (log : String)
  | mkdir (path : String)
  | openLog (path : String)
  | closeStream (phase : Phase)
  | popen (manifest readyFile : String)
  /-- How often the loop goes round before its deadline. -/
  | rounds
  | isFile (path : String)
  | poll (phase : Phase)
  | killpg (signal : String)
  | wait (phase : Phase) (timeout : Option Extended)
  | readLog (path : String)
  | unlink (phase : Phase) (path : String)
  | comparison
  | generateReport
  | print

abbrev Op.Ans : Op → Type
  | resolve _ | sha256 _ => String
  | loadManifest _ | readReport _ _ => Value
  | selectInstrument _ => Device
  | child _ _ => ChildOutput
  | readTranscript _ | readLog _ => List String
  | resolveAlias _ => Option String
  | runLogged _ _ => Cli.Output
  | rounds => Nat
  | isFile _ => Bool
  | poll _ => Option Int
  | wait _ _ => Int
  | newRun | chmod _ | atomicJson _ | lock _ _ | unlock | openInstrument _ | metadata | power
    _ _ | configureVoltage _ |
    capture _ _ | decodeCapture _ | summarizeCapture _ | closeInstrument _ | sleep _ | mkdir
      _ | openLog _ | closeStream _ |
    popen _ _ | killpg _ | unlink _ _ | comparison | generateReport | print => Unit

/-- The variables of `command`; the instrument, the peer process and its stream by whether
they are not `None`. -/
structure Locals where
  report : Report := {}
  instrument : Bool := false
  backupReport : Option String := none
  operationError : Option Raised := none
  restoreError : Option Raised := none
  peerRestoreError : Option Raised := none
  outputOn : Bool := false
  peerProcess : Bool := false
  peerStream : Bool := false
  peerReady : Option String := none
  peerBackup : Option String := none
  peerBackupManifest : Option Value := none
  peerSerial : Option String := none
  peerSpan : Option Span := none

abbrev Session (α : Type) := Prog Op Op.Ans Raised Locals α

def ask (op : Op) : Session op.Ans := perform op

def lift {α : Type} : Except Raised α → Session α
  | .ok a => pure a
  | .error e => raise e

def runtimeError (text : String) : Raised := ⟨"RuntimeError", text⟩

def valueError (text : String) : Raised := ⟨"ValueError", text⟩

/-- The names of `ValueError` and what is derived from it. -/
def isValueError (e : Raised) : Bool :=
  ["ValueError", "UnicodeError", "UnicodeDecodeError", "UnicodeEncodeError",
    "JSONDecodeError"].contains e.name

/-- `except ValueError as error: raise ToolError(str(error)) from error`. -/
def asToolError {α : Type} (body : Session α) : Session α :=
  withExcept body fun e => if isValueError e then raise (toolError e.text) else raise e

def updateReport (f : Report → Report) : Session Unit :=
  assign fun s => { s with report := f s.report }

def saveReport : Session Unit := do
  let report ← locals Locals.report
  ask (.atomicJson report)

/-- `with _probe_lock(name, operation)`. -/
def withLock {α : Type} (name operation : String) (body : Session α) : Session α := do
  ask (.lock name operation)
  withFinally body (ask .unlock)

/-! ## The arguments -/

/-- A text argument that is there and not empty. -/
def given (argument : Option String) : Bool := argument.any (· ≠ "")

/-- `value.partition("=")`, where the separator is there. -/
def partition (value : String) : Option (String × String) :=
  match value.toList.span (· ≠ '=') with
  | (_, []) => none
  | (name, _ :: rest) => some (String.ofList name, String.ofList rest)

def profileName (name : String) : Bool :=
  name.toList.all fun c => "abcdefghijklmnopqrstuvwxyz0123456789-".toList.contains c

/-- One `NAME=MANIFEST`, behind the names before it. -/
def profileEntry (names : List String) (value : String) : Except Raised (String × String) :=
  match partition value with
  | none => .error (valueError "power profiles must use NAME=MANIFEST")
  | some (name, path) =>
    if name = "" ∨ path = "" then .error (valueError "power profiles must use NAME=MANIFEST")
    else if names.contains name then .error (valueError ("duplicate power profile: " ++ name))
    else if ¬ profileName name then .error (valueError ("invalid power profile name: " ++ name))
    else .ok (name, path)

def profilesFrom (names : List String) : List String → Session (List (String × String))
  | [] => pure []
  | value :: rest => do
    let entry ← lift (profileEntry names value)
    let path : String ← ask (.resolve entry.2)
    let others ← profilesFrom (entry.1 :: names) rest
    pure ((entry.1, path) :: others)

/-- `_profiles`. -/
def profiles (values : List String) : Session (List (String × String)) := profilesFrom [] values

def inRange (low high : Rat) : Extended → Bool
  | .finite x => low ≤ x ∧ x ≤ high
  | _ => false

def positive : Extended → Bool
  | .finite x => 0 < x
  | _ => false

section
variable (float : String → Option Extended)

/-- `_durations`, behind the profiles seen. -/
def durationsFrom (names seen : List String) :
    List String → Except Raised (List (String × Extended))
  | [] => .ok []
  | value :: rest =>
    match partition value with
    | none => .error (valueError "profile durations must uniquely use a selected NAME=SECONDS")
    | some (name, text) =>
      if ¬ names.contains name ∨ seen.contains name then
        .error (valueError "profile durations must uniquely use a selected NAME=SECONDS")
      else
        match float text with
        | none => .error (valueError ("invalid duration for profile " ++ name))
        | some duration =>
          if ¬ inRange 1 600 duration then
            .error (valueError ("invalid duration for profile " ++ name))
          else
            match durationsFrom names (name :: seen) rest with
            | .error e => .error e
            | .ok others => .ok ((name, duration) :: others)

end

def durationOf (durations : List (String × Extended)) (default : Extended)
    (name : String) : Extended :=
  (durations.lookup name).getD default

def requiredProfiles : List String :=
  ["idle", "direct-1m", "direct-2m", "direct-4m", "timeslot-retry-4m", "ble", "ble-timeslot-4m"]

/-- `sorted(set(front) - set(back))` as it is formatted. -/
def differenceText (front back : List String) : String :=
  let names := (front.filter fun name => ¬ back.contains name).mergeSort fun a b => a ≤ b
  "[" ++ String.intercalate ", " (names.map fun name => "'" ++ name ++ "'") ++ "]"

def sameNames (front back : List String) : Bool :=
  front.all back.contains && back.all front.contains

/-- `manifest.get(key) != text`. -/
def differs (manifest : Value) (key text : String) : Except Raised Bool :=
  match manifest.get key .none with
  | .error e => .error e
  | .ok found => .ok (¬ found.eq (.str text))

def notPeer (manifest : Value) : Except Raised Bool :=
  match differs manifest "soc" "nrf54l15" with
  | .error e => .error e
  | .ok true => .ok true
  | .ok false => differs manifest "board_version" "PCA10156"

def loadAll : List (String × String) → Session (List Value)
  | [] => pure []
  | entry :: rest => do
    let manifest : Value ← ask (.loadManifest entry.2)
    let others ← loadAll rest
    pure (manifest :: others)

def loadProfiles : List (String × String) → Session (List Value)
  | [] => pure []
  | entry :: rest => do
    let manifest : Value ← ask (.loadManifest entry.2)
    let wrong ← lift (differs manifest "soc" "nrf54lm20a")
    when wrong (raise (toolError ("profile " ++ entry.1 ++ " is not an LM20 application image")))
    let others ← loadProfiles rest
    pure (manifest :: others)

def hashAll : List (String × String) → Session Unit
  | [] => pure ()
  | entry :: rest => do
    let _ ← ask (.sha256 (.given entry.2))
    hashAll rest

/-- What the acquisition goes by. -/
structure Plan where
  profiles : List (String × String)
  manifests : List Value
  durations : List (String × Extended)
  peers : List (String × String)
  peerManifests : List Value

section
variable (float : String → Option Extended)

/-- The part of `command` before the first instrument. -/
def plan (args : Args) : Session Plan := do
  let profiles ← asToolError (profiles args.profile)
  let names := profiles.map Prod.fst
  when (args.requireM7Profiles ∧ ¬ sameNames names requiredProfiles)
    (raise (toolError ("M7 profile set differs from the contract; missing=" ++
      differenceText requiredProfiles names ++
      ", extra=" ++ differenceText names requiredProfiles)))
  when (args.requireM7Profiles ∧ ¬ given args.gdb)
    (raise (toolError "the M7 suite requires --gdb for post-capture workload checks"))
  when (¬ (500 ≤ args.voltageMv ∧ args.voltageMv ≤ 5000))
    (raise (toolError "BLU939 voltage must be 500..5000 mV"))
  when (¬ (inRange 1 600 args.duration ∧ inRange 0 60 args.settle ∧ positive args.timeout))
    (raise (toolError "invalid duration, settle, or timeout"))
  let durations ← asToolError (lift (durationsFrom float names [] args.profileDuration))
  let peers ← asToolError (PowerSuite.profiles args.peer)
  when (¬ (peers.all fun entry => names.contains entry.1))
    (raise (toolError "every peer must refer to a selected power profile"))
  when (peers ≠ [] ∧ ¬ given args.peerProbe)
    (raise (toolError "peer profiles require --peer-probe"))
  let peerManifests ← loadAll peers
  let wrong ← lift (Cli.anyOf notPeer peerManifests)
  when wrong (raise (toolError "power-suite peers must be nRF54L15 DK application images"))
  let manifests ← loadProfiles profiles
  hashAll profiles
  updateReport fun r => { r with status := "running", profiles := [] }
  saveReport
  pure ⟨profiles, manifests, durations, peers, peerManifests⟩

end

/-! ## Children and the peer -/

def reportLines (lines : List String) : List String := lines.filter fun line => ¬ blank line

/-- `data.get("status") == "ok"`. -/
def reportOk (data : Value) : Except Raised Bool :=
  match data.get "status" .none with
  | .error e => .error e
  | .ok status => .ok (status.eq (.str "ok"))

/-- `_child`. -/
def runChild (child : Child) (log : String) : Session String := do
  let result : ChildOutput ← ask (.child child log)
  when (result.returncode ≠ 0) (raise (runtimeError ("child command failed; see " ++ log)))
  match reportLines result.lines with
  | [line] => do
    let report : String ← ask (.resolve line)
    let data ← withExcept (ask (.readReport child report)) fun e =>
      if isOSError e ∨ e.name = "JSONDecodeError" then
        raise (runtimeError ("invalid child report from " ++ log)) else raise e
    let good ← lift (reportOk data)
    when (¬ good) (raise (runtimeError ("unsuccessful child report from " ++ log)))
    pure report
  | _ => raise (runtimeError ("child command did not return one report; see " ++ log))

/-- The paths of the options that every child of the suite is given. -/
def common (args : Args) : Session Unit := do
  let _ ← ask (.resolve args.openocd)
  let _ ← ask (.resolve args.scripts)

def readPeer (manifest : Value) (serial output log : String) (span : Span) : Session Unit := do
  let target ← lift (Cli.target manifest)
  let result : Cli.Output ← ask
    (.runLogged (.read output serial target.1 target.2 span.1.toNat (span.2 - span.1).toNat) log)
  when (result.returncode ≠ 0) (raise (runtimeError "peer application backup/readback failed"))

/-- `(item["device_family"], item["core"])`. -/
def familyCore (manifest : Value) : Except Raised (Value × Value) :=
  match manifest.item "device_family", manifest.item "core" with
  | .error e, _ => .error e
  | .ok _, .error e => .error e
  | .ok family, .ok core => .ok (family, core)

def otherTarget (first manifest : Value) : Except Raised Bool :=
  match familyCore manifest, familyCore first with
  | .error e, _ => .error e
  | .ok _, .error e => .error e
  | .ok found, .ok expected => .ok (¬ (found.1.eq expected.1 && found.2.eq expected.2))

/-- A range of integers. With others `min` or the command line of the read raises. -/
def spanOf (range : Value) : Except Raised Span :=
  match range.pair with
  | .error e => .error e
  | .ok (start, stop) =>
    match start.integer, stop.integer with
    | some start, some stop => .ok (start, stop)
    | _, _ => .error (valueError "Unknown format code 'x' for object of type 'float'")

def imageSpans (image : Value) : Except Raised (List Span) :=
  match image.item "ranges" with
  | .error e => .error e
  | .ok ranges =>
    match ranges.iterate with
    | .error e => .error e
    | .ok items => items.mapM spanOf

def manifestSpans (manifest : Value) : Except Raised (List Span) :=
  match Cli.imageItems manifest with
  | .error e => .error e
  | .ok images => (images.mapM imageSpans).map List.flatten

/-- `(min(start for start, _ in ranges), max(end for _, end in ranges))`. -/
def hull : List Span → Except Raised Span
  | [] => .error (valueError "min() iterable argument is empty")
  | first :: rest =>
    .ok ((rest.map Prod.fst).foldl min first.1, (rest.map Prod.snd).foldl max first.2)

def peerSpan (manifests : List Value) : Except Raised Span :=
  match manifests.mapM manifestSpans with
  | .error e => .error e
  | .ok spans => hull spans.flatten

/-- The backup of the peer, read twice. -/
def backUpPeer (args : Args) (first : Value) (manifests : List Value) : Session Unit := do
  let serial : Option String ← ask (.resolveAlias args.peerProbe)
  assign fun s => { s with peerSerial := serial }
  match serial with
  | none => raise (toolError "peer probe selection did not resolve")
  | some serial => do
    assign fun s => { s with peerBackupManifest := some first }
    let other ← lift (Cli.anyOf (otherTarget first) manifests)
    when other (raise (toolError "peer manifests disagree on device family or core"))
    let span ← lift (peerSpan manifests)
    assign fun s => { s with peerSpan := some span }
    withLock serial "blu939-suite-peer-backup" (do
      readPeer first serial "peer-backup.hex" "peer-backup.log" span
      readPeer first serial "peer-backup-repeat.hex" "peer-backup-repeat.log" span)
    let digest : String ← ask (.sha256 (.run "peer-backup.hex"))
    let digest' : String ← ask (.sha256 (.run "peer-backup-repeat.hex"))
    when (digest ≠ digest') (raise (runtimeError "two independent peer backup reads differ"))
    assign fun s => { s with peerBackup := some "peer-backup.hex" }
    ask (.chmod "peer-backup.hex")
    ask (.chmod "peer-backup-repeat.hex")
    let _ ← ask (.sha256 (.run "peer-backup.hex"))
    updateReport fun r => { r with peerBackup := some ("peer-backup.hex", span) }

def backUpPeers (args : Args) : List Value → Session Unit
  | [] => pure ()
  | first :: rest => backUpPeer args first (first :: rest)

/-! ## One profile -/

/-- The loop that waits for the file of the peer, `n` rounds before its deadline. -/
def waitReady (name readyFile : String) : Nat → Session Unit
  | 0 => do
    let ready : Bool ← ask (.isFile readyFile)
    when (¬ ready) (do
      let code : Option Int ← ask (.poll .capture)
      when code.isSome (raise (runtimeError ("peer for " ++ name ++ " exited before readiness")))
      raise (runtimeError ("peer for " ++ name ++ " did not become ready")))
  | n + 1 => do
    let ready : Bool ← ask (.isFile readyFile)
    if ready then pure ()
    else do
      let code : Option Int ← ask (.poll .capture)
      when code.isSome (raise (runtimeError ("peer for " ++ name ++ " exited before readiness")))
      ask (.sleep (.finite (1 / 20)))
      waitReady name readyFile n

def startPeer (name manifest directory : String) : Session Unit := do
  assign fun s => { s with peerReady := some (directory ++ "/peer-ready.json") }
  ask (.openLog (directory ++ "/peer.log"))
  assign fun s => { s with peerStream := true }
  ask (.popen manifest (directory ++ "/peer-ready.json"))
  assign fun s => { s with peerProcess := true }
  let n : Nat ← ask .rounds
  waitReady name (directory ++ "/peer-ready.json") n

/-- `if name in peers`. -/
def attendPeer (name directory : String) : Option String → Session Unit
  | some manifest => startPeer name manifest directory
  | none => pure ()

/-- `peer_ready.unlink(missing_ok=True)`. -/
def unlinkPeer : Option String → Session Unit
  | some path => ask (.unlink .capture path)
  | none => raise ⟨"AttributeError", "'NoneType' object has no attribute 'unlink'"⟩

def finishPeer (args : Args) (name directory : String) : Session Unit := do
  let code ← withExcept (ask (.wait .capture (some args.peerTimeout))) fun e =>
    if e.name = "TimeoutExpired" then
      raise (runtimeError ("peer for " ++ name ++ " did not finish")) else raise e
  ask (.closeStream .capture)
  assign fun s => { s with peerStream := false }
  when (code ≠ 0) (raise (runtimeError ("peer for " ++ name ++ " failed; see peer.log")))
  let lines : List String ← ask (.readLog (directory ++ "/peer.log"))
  match reportLines lines with
  | [line] => do
    let _ ← ask (.resolve line)
    assign fun s => { s with peerProcess := false }
    let ready ← locals Locals.peerReady
    unlinkPeer ready
    assign fun s => { s with peerReady := none }
  | _ => raise (runtimeError ("peer for " ++ name ++ " returned no unique report"))

def observationSymbols : String → List String
  | "idle" => ["nrfkit_power_stage"]
  | "direct-1m" | "direct-2m" | "direct-4m" =>
    ["nrfkit_power_stage", "nrfkit_power_packets", "nrfkit_power_batches"]
  | "timeslot-retry-4m" => ["accepted", "completed", "retries", "dropped", "grants"]
  | "ble" => ["nrfkit_power_stage", "nrfkit_power_ble_events"]
  | "ble-timeslot-4m" =>
    ["nrfkit_power_stage", "nrfkit_power_ble_events", "nrfkit_power_timeslot_grants",
      "nrfkit_power_timeslot_packets"]
  | _ => []

/-- `OBSERVE symbol=` and eight hexadecimal digits, as a whole line. -/
def observedLine (symbol line : String) : Option Nat :=
  let front := ("OBSERVE " ++ symbol ++ "=").toList
  let digits := line.toList.drop front.length
  if line.toList.take front.length = front ∧ digits.length = 8 then
    digits.foldl (fun value c => match value,
      Text.digitValue (UInt8.ofNat (if c.toNat < 128 then c.toNat else 0)) with
      | some value, some digit => some (16 * value + digit)
      | _, _ => none) (some 0)
  else none

def observe : List String → List String → Except Raised (List (String × Nat))
  | [], _ => .ok []
  | symbol :: rest, transcript =>
    match transcript.findSome? (observedLine symbol) with
    | none => .error (runtimeError ("missing post-capture observation " ++ symbol))
    | some value =>
      match observe rest transcript with
      | .error e => .error e
      | .ok others => .ok ((symbol, value) :: others)

/-- `_validate_observations`. -/
def validateObservations (profile : String) (values : List (String × Nat)) : Except Raised Unit :=
  let value := fun symbol => values.lookup symbol
  let counter := fun symbol => (values.lookup symbol).getD 0
  if profile = "idle" ∧ value "nrfkit_power_stage" ≠ some 1 then
    .error (runtimeError "idle firmware did not reach its measurement state")
  else if profile.startsWith "direct-" ∧
    (value "nrfkit_power_stage" ≠ some 2 ∨ value "nrfkit_power_packets" ≠ some 1000 ∨
      value "nrfkit_power_batches" ≠ some 1000) then
    .error (runtimeError (profile ++ " firmware did not complete 1000 scheduled packets"))
  else if profile = "timeslot-retry-4m" ∧
    (value "accepted" ≠ some 64 ∨ value "completed" ≠ some 64 ∨ value "dropped" ≠ some 0 ∨
      ¬ (8 ≤ counter "retries" ∧ counter "retries" ≤ 192) ∨ counter "grants" < 64) then
    .error (runtimeError "Timeslot retry counters are not conserved")
  else if profile = "ble" ∧ value "nrfkit_power_stage" ≠ some 1 then
    .error (runtimeError "BLE firmware did not enable advertising")
  else if profile = "ble-timeslot-4m" ∧
    (value "nrfkit_power_stage" ≠ some 2 ∨ value "nrfkit_power_timeslot_grants" ≠ some 8 ∨
      value "nrfkit_power_timeslot_packets" ≠ some 8) then
    .error (runtimeError "BLE Timeslot firmware did not complete its eight-grant burst")
  else .ok ()

def observeProfile (args : Args) (name path directory : String) : Session Unit :=
  let symbols := if given args.gdb then observationSymbols name else []
  when (symbols ≠ []) (do
    let report ← runChild (.observe path symbols) (directory ++ "/observe-child.log")
    let transcript : List String ← ask (.readTranscript report)
    let values ← lift (observe symbols transcript)
    lift (validateObservations name values))

/-- `f"{index:02d}-{name}"`. -/
def directoryName (index : Nat) (name : String) : String :=
  (if index < 10 then "0" ++ toString index else toString index) ++ "-" ++ name

/-- `manifest["debug_elf"]["sha256"]`. -/
def elfDigest (manifest : Value) : Except Raised Value :=
  match manifest.item "debug_elf" with
  | .error e => .error e
  | .ok artifact => artifact.item "sha256"

def turnOn (phase : Phase) : Session Unit := do
  ask (.power phase true)
  assign fun s => { s with outputOn := true }

def turnOff (phase : Phase) : Session Unit := do
  ask (.power phase false)
  assign fun s => { s with outputOn := false }

/-- The supply cycle that starts the image, and the capture. -/
def measure (args : Args) (duration : Extended) (directory : String) : Session Unit := do
  ask (.power .capture false)
  ask (.sleep (.finite (1 / 2)))
  turnOn .capture
  when (args.settle ≠ .finite 0) (ask (.sleep args.settle))
  ask (.capture (directory ++ "/samples.bin") duration)
  ask (.decodeCapture (directory ++ "/samples.bin"))
  ask (.summarizeCapture (directory ++ "/current.csv"))

def runProfile (args : Args) (plan : Plan) (index : Nat) (name path : String)
    (manifest : Value) : Session Unit := do
  let outputOn ← locals Locals.outputOn
  when (¬ outputOn) (turnOn .profile)
  let directory := directoryName index name
  let _ ← runChild (.flash path) (directory ++ "-flash.log")
  ask (.mkdir directory)
  attendPeer name directory (plan.peers.lookup name)
  measure args (durationOf plan.durations args.duration name) directory
  observeProfile args name path directory
  turnOff .capture
  let peerProcess ← locals Locals.peerProcess
  when peerProcess (finishPeer args name directory)
  let _ ← ask (.sha256 (.given path))
  let _ ← lift (elfDigest manifest)
  let _ ← ask (.sha256 (.profile directory "samples.bin"))
  let _ ← ask (.sha256 (.profile directory "current.csv"))
  updateReport fun r => { r with profiles := r.profiles ++ [name] }
  saveReport

def runProfiles (args : Args) (plan : Plan) (index : Nat) :
    List ((String × String) × Value) → Session Unit
  | [] => pure ()
  | ((name, path), manifest) :: rest => do
    runProfile args plan index name path manifest
    runProfiles args plan (index + 1) rest

/-! ## The command -/

/-- The part behind the lock of the instrument. -/
def acquire (args : Args) (plan : Plan) (device : Device) : Session Unit := do
  ask (.openInstrument device.port)
  assign fun s => { s with instrument := true }
  ask .metadata
  ask (.power .setup false)
  ask (.configureVoltage args.voltageMv)
  turnOn .setup
  let backup ← runChild (.backup (plan.profiles.map Prod.snd)) "backup.log"
  assign fun s =>
    { s with backupReport := some backup, report := { s.report with backupReport := some backup } }
  backUpPeers args plan.peerManifests
  saveReport
  runProfiles args plan 1 (plan.profiles.zip plan.manifests)
  when args.requireM7Profiles (ask .comparison)

section
variable (float : String → Option Extended)

def operation (args : Args) : Session Unit := do
  let plan ← plan float args
  common args
  let device : Device ← ask (.selectInstrument args.instrumentSerial)
  withLock ("blu939:" ++ device.serial) "blu939-suite" (acquire args plan device)
  updateReport fun r => { r with status := "captured" }

end

def operationFailed (e : Raised) : Session Unit := do
  assign fun s => { s with operationError := some e }
  updateReport fun r => { r with status := "failed", error := some e.message }

/-- `_terminate`. -/
def terminate : Session Unit := do
  let code : Option Int ← ask (.poll .cleanup)
  when (code = none) (do
    ask (.killpg "SIGTERM")
    withExcept
      (do
        let _ ← ask (.wait .cleanup (some (.finite 3)))
        pure ())
      (fun e =>
        if e.name = "TimeoutExpired" then do
          ask (.killpg "SIGKILL")
          let _ ← ask (.wait .cleanup none)
          pure ()
        else raise e))

/-- `peer_ready.unlink(missing_ok=True)`. -/
def unlinkReady : Option String → Session Unit
  | some path => ask (.unlink .cleanup path)
  | none => pure ()

/-- The first part of the cleanup. -/
def closeAcquisition : Session Unit := do
  let peerProcess ← locals Locals.peerProcess
  when peerProcess terminate
  let peerStream ← locals Locals.peerStream
  when peerStream (ask (.closeStream .cleanup))
  let peerReady ← locals Locals.peerReady
  unlinkReady peerReady
  let instrument ← locals Locals.instrument
  when instrument (do
    let outputOn ← locals Locals.outputOn
    when outputOn (withExcept (turnOff .cleanup) fun e => updateReport fun r =>
      { r with outputOffError := some e.message })
    ask (.closeInstrument .cleanup))

/-- The restoration of the target under the lock of the instrument. -/
def restoreTarget (args : Args) (backup : String) (device : Device) : Session Unit := do
  ask (.openInstrument device.port)
  assign fun s => { s with instrument := true }
  ask (.power .restore false)
  ask (.configureVoltage args.voltageMv)
  ask (.sleep (.finite (1 / 2)))
  turnOn .restore
  common args
  let found ← profiles args.profile
  match found with
  | [] => raise ⟨"IndexError", "list index out of range"⟩
  | (_, path) :: _ => do
    let _ ← runChild (.restore path backup) "restore.log"
    updateReport fun r => { r with restoreVerified := true }
    turnOff .restore

def restoreFailed (e : Raised) : Session Unit := do
  assign fun s => { s with restoreError := some e }
  updateReport fun r => { r with status := "failed", restoreError := some e.message }

def closeRestoration : Session Unit := do
  let instrument ← locals Locals.instrument
  when instrument (do
    let outputOn ← locals Locals.outputOn
    when outputOn (withExcept (ask (.power .restore false)) fun e =>
      updateReport fun r => { r with restoreOutputOffError := some e.message })
    ask (.closeInstrument .restore))

def restore (args : Args) : Option String → Session Unit
  | none => pure ()
  | some backup =>
    withFinally
      (withExcept
        (do
          let device : Device ← ask (.selectInstrument args.instrumentSerial)
          withLock ("blu939:" ++ device.serial) "blu939-suite-restore"
            (restoreTarget args backup device))
        restoreFailed)
      closeRestoration

/-- The restoration of the peer under its lock. -/
def restorePeerImage (backup : String) (manifest : Value) (serial : String)
    (span : Span) : Session Unit := do
  let target ← lift (Cli.target manifest)
  let restored :
      Cli.Output ← ask (.runLogged (.program backup serial target.1 target.2) "peer-restore.log")
  when (restored.returncode ≠ 0) (raise (runtimeError "peer restoration program failed"))
  readPeer manifest serial "peer-restored.hex" "peer-restore-readback.log" span
  let digest : String ← ask (.sha256 (.run "peer-restored.hex"))
  let expected : String ← ask (.sha256 (.run backup))
  when (digest ≠ expected) (raise (runtimeError "peer restoration readback differs from backup"))
  let reset : Cli.Output ← ask
    (.runLogged (.reset serial target.1 target.2 "RESET_PIN") "peer-restore-reset.log")
  when (reset.returncode ≠ 0) (raise (runtimeError "peer reset after restoration failed"))

def peerRestoreFailed (e : Raised) : Session Unit := do
  assign fun s => { s with peerRestoreError := some e }
  updateReport fun r => { r with status := "failed", peerRestoreError := some e.message }

def restorePeer (s : Locals) : Session Unit :=
  match s.peerBackup, s.peerBackupManifest, s.peerSerial, s.peerSpan with
  | some backup, some manifest, some serial, some span =>
    withExcept
      (do
        withLock serial "blu939-suite-peer-restore" (restorePeerImage backup manifest serial span)
        updateReport fun r => { r with peerRestoreVerified := true })
      peerRestoreFailed
  | _, _, _, _ => pure ()

/-- The last part of the cleanup. -/
def conclude : Session Unit := do
  assign fun s => { s with report := { s.report with
    status := if s.operationError.isNone ∧ s.restoreError.isNone then
      (if s.peerRestoreError.isNone then "ok" else "failed")
      else s.report.status
    cleanup := some {
      restoreRequired := s.backupReport.isSome
      restoreVerified := s.restoreError.isNone ∧ s.backupReport.isSome
      peerRestoreRequired := s.peerBackup.isSome
      peerRestoreVerified := s.peerBackup.isSome ∧ s.peerRestoreError.isNone } } }
  saveReport

/-- The `finally`. -/
def recover (args : Args) : Session Unit := do
  closeAcquisition
  let backup ← locals Locals.backupReport
  restore args backup
  let s ← locals id
  restorePeer s
  conclude

/-- `isinstance(error, (ToolError, Blu939Error, PowerCaptureError))`. -/
def isToolError (e : Raised) : Bool :=
  ["ToolError", "Blu939Error", "PowerCaptureError"].contains e.name

/-- What is raised behind the cleanup. -/
def finalError (s : Locals) : Option Raised :=
  match s.restoreError, s.peerRestoreError, s.operationError with
  | some error, _, some failed => some
    (toolError ("suite failed (" ++ failed.text ++ "); restoration also failed: " ++ error.text))
  | some error, _, none => some (toolError ("restoration failed: " ++ error.text))
  | none, some error, some failed =>
    some (toolError ("suite failed (" ++ failed.text ++
      "); peer restoration also failed: " ++ error.text))
  | none, some error, none => some (toolError ("peer restoration failed: " ++ error.text))
  | none, none, some failed => some (if isToolError failed then failed else toolError failed.text)
  | none, none, none => none

def visualize : Session Unit :=
  withExcept
    (do
      ask .generateReport
      saveReport)
    (fun e => do
      updateReport fun r => { r with visualizationError := some e.message }
      saveReport
      raise (toolError ("power report generation failed: " ++ e.text)))

def raiseFinal : Option Raised → Session Unit
  | some e => raise e
  | none => pure ()

section
variable (float : String → Option Extended)

def command (args : Args) : Session Unit := do
  ask .newRun
  withFinally (withExcept (operation float args) operationFailed) (recover args)
  let s ← locals id
  raiseFinal (finalError s)
  visualize
  ask .print

end

end NrfKit.Tools.PowerSuite
