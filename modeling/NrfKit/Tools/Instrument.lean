import NrfKit.Lib.Effects

/- The sessions of the two current meters: `tools/nrfkit_tools/blu939_cli.py` with
   `blu939.py`, and `ppk2_cli.py` with `ppk2.py`. The front ends are the same but for
   their bounds and texts and for the cleanup, where `blu939_cli` records the last answer
   to the metadata request before it turns the output off.

   What the instrument sends, how often a loop goes round before its deadline, what the
   samples and the metadata decode to and what an operation raises come from outside. -/
namespace NrfKit.Tools.Instrument
open Effects Prog

inductive Kind where
  | blu939
  | ppk2
  deriving DecidableEq, Repr

/-- A Python exception. -/
structure Raised where
  name : String
  text : String
  deriving DecidableEq, Repr

def Raised.message (e : Raised) : String := e.name ++ ": " ++ e.text

/-- A number with the text it is printed as, or a text. -/
inductive Value where
  | number (value : Rat) (printed : String)
  | text (value : String)
  deriving DecidableEq

/-- `metadata.get`. A value of the PPK2 that is not finite is `None`. -/
abbrev Metadata := String → Option Value

/-- `metadata.get(key) == setting`. -/
def Metadata.has (metadata : Metadata) (key : String) (setting : Int) : Bool :=
  match metadata key with
  | some (.number value _) => value = setting
  | _ => false

/-- `f"{metadata.get(key)}"`. -/
def Metadata.printed (metadata : Metadata) (key : String) : String :=
  match metadata key with
  | some (.number _ printed) => printed
  | some (.text value) => value
  | none => "None"

structure Device where
  port : String
  serial : Option String

/-- A time as the command line gives it; `none` is not finite. -/
abbrev Seconds := Option Rat

inductive Action where
  | info (listOnly : Bool)
  | power (on : Bool) (duration : Seconds)
  | capture (duration settle holdAfter : Seconds) (powerCycle : Bool)

structure Args where
  action : Action
  voltageMv : Option Int := none
  instrumentSerial : Option String := none
  manifest : Bool := false

structure Report where
  status : String := "running"
  error : Option String := none
  outputRequested : Option String := none
  phase : Option String := none
  metadataResponse : Option (Nat × String) := none
  cleanupOutputRequested : Option String := none

inductive Op where
  | newRun
  | loadManifest
  | hashManifest
  | discover (serial : Option String)
  | lock (name operation : String)
  | unlock
  | openSerial (port : String)
  | close
  | write (data : List UInt8)
  | flush
  | resetInput
  /-- How often a loop goes round before its deadline. -/
  | polls
  | read
  /-- Whether 0.1 s have passed since the last bytes. -/
  | quiet
  | parseMetadata (data : List UInt8)
  | sleep (duration : Seconds)
  | atomicJson (report : Report)
  | print
  | openCapture
  | storeCapture (chunk : List UInt8)
  | closeCapture
  | hashCapture
  | decodeCapture
  | hashCsv
  | writeResponse (response : List UInt8)
  | hashResponse

abbrev Op.Ans : Op → Type
  | write _ | polls => Nat
  | discover _ => List Device
  | read => List UInt8
  | quiet => Bool
  | parseMetadata _ => Metadata
  | hashManifest | hashCapture | hashCsv | hashResponse => String
  | newRun | loadManifest | lock _ _ | unlock | openSerial
    _ | close | flush | resetInput | sleep _ |
    atomicJson _ | print | openCapture | storeCapture _ | closeCapture | decodeCapture |
    writeResponse _ => Unit

/-- `instrument` is not None, and its `last_metadata_response`. -/
structure Locals where
  isOpen : Bool := false
  lastMetadataResponse : List UInt8 := []
  report : Report := {}

abbrev Session (α : Type) := Prog Op Op.Ans Raised Locals α

def ask (op : Op) : Session op.Ans := perform op

variable (kind : Kind)

def Kind.title : Kind → String
  | .blu939 => "BLU939"
  | .ppk2 => "PPK2"

def Kind.error (text : String) : Raised :=
  match kind with
  | .blu939 => ⟨"Blu939Error", text⟩
  | .ppk2 => ⟨"Ppk2Error", text⟩

def Kind.minimumMv : Kind → Int
  | .blu939 => 500
  | .ppk2 => 800

/-! ## The instrument -/

def command (data : List UInt8) : Session Unit := do
  let written : Nat ← ask (.write data)
  when (written ≠ data.length) (raise (kind.error ("short " ++ kind.title ++ " command write")))
  ask .flush

def power (enabled : Bool) : Session Unit := command kind [0x0c, if enabled then 1 else 0]

/-- `pattern in data`. -/
def contains (pattern : List UInt8) : List UInt8 → Bool
  | [] => pattern.isEmpty
  | byte :: rest => pattern.isPrefixOf (byte :: rest) || contains pattern rest

def metadataFailed : Session Metadata :=
  raise (kind.error (kind.title ++ " metadata timed out or exceeded its size limit"))

/-- `Blu939.metadata` after its request: at most `n` more reads. `quietDeadline` says that
some bytes have come. -/
def blu939Metadata : Nat → Bool → List UInt8 → Session Metadata
  | 0, _, data => do
    assign fun s => { s with lastMetadataResponse := data }
    metadataFailed .blu939
  | n + 1, quietDeadline, data =>
    if data.length < 16384 then do
      let chunk : List UInt8 ← ask .read
      if chunk ≠ [] then
        if contains "\nEND\n".toUTF8.toList (data ++ chunk) then do
          assign fun s => { s with lastMetadataResponse := data ++ chunk }
          ask (.parseMetadata (data ++ chunk))
        else blu939Metadata n true (data ++ chunk)
      else if quietDeadline then do
        let quiet : Bool ← ask .quiet
        if quiet then do
          assign fun s => { s with lastMetadataResponse := data }
          ask (.parseMetadata data)
        else blu939Metadata n quietDeadline data
      else blu939Metadata n quietDeadline data
    else do
      assign fun s => { s with lastMetadataResponse := data }
      metadataFailed .blu939

/-- `Ppk2.metadata` after its request. -/
def ppk2Metadata : Nat → List UInt8 → Session Metadata
  | 0, _ => metadataFailed .ppk2
  | n + 1, data =>
    if data.length < 16384 then do
      let chunk : List UInt8 ← ask .read
      if contains "END".toUTF8.toList (data ++ chunk) then ask (.parseMetadata (data ++ chunk))
      else ppk2Metadata n (data ++ chunk)
    else metadataFailed .ppk2

def metadata : Session Metadata :=
  match kind with
  | .blu939 => do
    ask .resetInput
    command .blu939 [0x19]
    let n : Nat ← ask .polls
    blu939Metadata n false []
  | .ppk2 => do
    command .ppk2 [0x19]
    let n : Nat ← ask .polls
    ppk2Metadata n []

/-- The metadata show the requested setting; a PPK2 is set as a source. -/
def configured (voltageMv : Int) (metadata : Metadata) : Bool :=
  metadata.has "vdd" voltageMv ∧ (kind = .ppk2 → metadata.has "mode" 2)

def Kind.readbackError (metadata : Metadata) : Raised :=
  kind.error (match kind with
    | .blu939 => "BLU939 voltage readback differs from the request: vdd=" ++ metadata.printed "vdd"
    | .ppk2 => "PPK2 mode/voltage readback differs from the request: mode=" ++
      metadata.printed "mode" ++
        ", vdd=" ++ metadata.printed "vdd")

/-- The loop of the readback, which goes round once and `n` times more before its deadline. -/
def readback (voltageMv : Int) (n : Nat) : Session Metadata := do
  ask (.sleep (some (1 / 10)))
  let metadata ← metadata kind
  if configured kind voltageMv metadata then pure metadata
  else
    match n with
    | 0 => raise (kind.readbackError metadata)
    | n + 1 => readback voltageMv n

/-- `configure_voltage`, and `configure(voltage_mv, "source")` of the PPK2. -/
def configure (voltageMv : Int) : Session Metadata := do
  when (¬ (kind.minimumMv ≤ voltageMv ∧ voltageMv ≤ 5000))
    (raise (kind.error (match kind with
      | .blu939 => "BLU939 voltage must be 500..5000 mV"
      | .ppk2 => "invalid PPK2 voltage or mode")))
  when (kind = .ppk2) (command kind [0x11, 2])
  command kind [0x0d, UInt8.ofNat (voltageMv.toNat / 256), UInt8.ofNat voltageMv.toNat]
  let n : Nat ← ask .polls
  readback kind voltageMv n

/-- The loop of `capture` over the samples: at most `n` reads before the acquisition
times out. -/
def acquire (wanted : Int) : Nat → Nat → Session Nat
  | n, received =>
    if (received : Int) < wanted then
      match n with
      | 0 => raise (kind.error (kind.title ++ " acquisition timed out"))
      | n + 1 => do
        let chunk : List UInt8 ← ask .read
        ask (.storeCapture chunk)
        acquire wanted n (received + chunk.length)
    else pure received

def drain : Nat → Session Unit
  | 0 => pure ()
  | n + 1 => do
    let _ ← ask .read
    drain n

def durationOk (least most : Rat) : Seconds → Bool
  | none => false
  | some duration => least ≤ duration ∧ duration ≤ most

def capture (duration : Seconds) : Session Unit := do
  when (¬ durationOk (1 / 100) 600 duration)
    (raise (kind.error "capture duration must be between 0.01 and 600 seconds"))
  ask .resetInput
  withFinally (do
    ask .openCapture
    withFinally (do
      command kind [0x06]
      let n : Nat ← ask .polls
      let _ ← acquire kind (((duration.getD 0 * 100000).ceil + 1) * 4) n 0) (ask .closeCapture))
    (do
      command kind [0x07]
      let n : Nat ← ask .polls
      drain n)

/-! ## The command -/

/-- The checks of `blu939_cli.command` before it looks for an instrument. -/
def blu939Check (args : Args) : Option Raised :=
  if args.voltageMv.any fun mv => ¬ (500 ≤ mv ∧ mv ≤ 5000) then
    some (Kind.blu939.error "BLU939 voltage must be 500..5000 mV")
  else
    match args.action with
    | .info _ => none
    | .power _ duration =>
      if durationOk 1 600 duration then none
      else some (Kind.blu939.error "power session duration must be 1..600 seconds")
    | .capture duration settle holdAfter powerCycle =>
      if ¬ (durationOk (1 / 100) 600 duration ∧ durationOk 0 60 settle ∧
        durationOk 0 60 holdAfter) then
        some (Kind.blu939.error "invalid duration, settle or hold-after interval")
      else if powerCycle ∧ args.voltageMv = none then
        some (Kind.blu939.error "power-cycle requires an explicit voltage")
      else if holdAfter ≠ some 0 ∧ ¬ powerCycle then
        some (Kind.blu939.error "hold-after requires power-cycle")
      else none

/-- The checks of `ppk2_cli.command`. -/
def ppk2Check (args : Args) : Option Raised :=
  if args.voltageMv.any fun mv => ¬ (800 ≤ mv ∧ mv ≤ 5000) then
    some (Kind.ppk2.error "PPK2 voltage must be 800..5000 mV; choose the DUT's allowed voltage")
  else
    match args.action with
    | .info _ => none
    | .power _ duration =>
      if durationOk 1 600 duration then none
      else some (Kind.ppk2.error "power session duration must be 1..600 seconds")
    | .capture duration settle holdAfter powerCycle =>
      if ¬ (durationOk (1 / 100) 600 duration ∧ durationOk 0 60 settle) then
        some (Kind.ppk2.error "invalid duration or settle interval")
      else if powerCycle ∧ args.voltageMv = none then
        some (Kind.ppk2.error "power-cycle requires an explicit voltage")
      else if ¬ durationOk 0 60 holdAfter ∨ (holdAfter ≠ some 0 ∧ ¬ powerCycle) then
        some (Kind.ppk2.error "hold-after requires power-cycle and must be 0..60 seconds")
      else none

def check (args : Args) : Option Raised :=
  match kind with
  | .blu939 => blu939Check args
  | .ppk2 => ppk2Check args

def Kind.selectError : Raised :=
  kind.error (match kind with
    | .blu939 => "select exactly one identified BLU939 using --instrument-serial"
    | .ppk2 => "select exactly one identified PPK2 using --ppk-serial")

def select (serial : Option String) : Session Device := do
  let devices : List Device ← ask (.discover serial)
  match devices with
  | [device] => if device.serial.all String.isEmpty then raise kind.selectError else pure device
  | _ => raise kind.selectError

def updateReport (f : Report → Report) : Session Unit :=
  assign fun s => { s with report := f s.report }

def saveReport : Session Unit := do
  let report ← locals Locals.report
  ask (.atomicJson report)

def powerSession (args : Args) (on : Bool) (duration : Seconds) : Session Unit := do
  when on (match args.voltageMv with
    | none => raise (kind.error "power on requires an explicit voltage")
    | some voltageMv => do
      power kind false
      let _ ← configure kind voltageMv)
  power kind on
  updateReport fun r => { r with outputRequested := some (if on then "on" else "off") }
  when on (do
    updateReport fun r => { r with phase := some "powered" }
    saveReport
    ask .print
    ask (.sleep duration))

/-- `isinstance(voltage, (int, float)) and minimum <= voltage <= 5000`. -/
def voltageOk (metadata : Metadata) : Bool :=
  match metadata "vdd" with
  | some (.number voltage _) => (kind.minimumMv : Rat) ≤ voltage ∧ voltage ≤ 5000
  | _ => false

def captureSession (args : Args) (before : Metadata) (duration settle holdAfter : Seconds)
    (powerCycle : Bool) : Session Unit := do
  let metadata ← (if powerCycle then do
      power kind false
      let metadata ← configure kind (args.voltageMv.getD 0)
      ask (.sleep (some (1 / 2)))
      power kind true
      pure metadata
    else do
      when (args.voltageMv.any fun mv => ¬ before.has "vdd" mv)
        (raise (kind.error (match kind with
          | .blu939 => "requested voltage differs from the BLU939 setting"
          | .ppk2 => "requested voltage differs from current PPK2 setting")))
      pure before)
  when (¬ voltageOk kind metadata)
    (raise (kind.error (kind.title ++ " did not report a valid configured voltage")))
  ask (.sleep settle)
  capture kind duration
  let _ ← ask .hashCapture
  ask .decodeCapture
  let _ ← ask .hashCsv
  when (holdAfter ≠ some 0) (do
    updateReport fun r => { r with phase := some "post-capture-powered" }
    saveReport
    ask .print
    ask (.sleep holdAfter))

/-- What the session holds the instrument for. -/
def act (args : Args) (metadata : Metadata) : Session Unit :=
  match args.action with
  | .info _ => pure ()
  | .power on duration => powerSession kind args on duration
  | .capture duration settle holdAfter powerCycle =>
    captureSession kind args metadata duration settle holdAfter powerCycle

/-- The inner `try`. -/
def session (args : Args) (device : Device) : Session Unit := do
  ask (.openSerial device.port)
  assign fun s => { s with isOpen := true }
  let metadata ← metadata kind
  saveReport
  act kind args metadata
  updateReport fun r => { r with status := "ok" }

/-- The output may have been turned on. -/
def Args.requestsOutput (args : Args) : Bool :=
  match args.action with
  | .info _ => false
  | .power on _ => on
  | .capture _ _ _ powerCycle => powerCycle

def outputOff (args : Args) : Session Unit :=
  when args.requestsOutput (do
    power kind false
    updateReport fun r => { r with cleanupOutputRequested := some "off" })

def closeInstrument : Session Unit := do
  ask .close
  assign fun s => { s with isOpen := false }

/-- Records the last answer to the metadata request. -/
def recordResponse : Session Unit := do
  let response ← locals Locals.lastMetadataResponse
  when (response ≠ []) (do
    ask (.writeResponse response)
    let digest : String ← ask .hashResponse
    updateReport fun r => { r with metadataResponse := some (response.length, digest) })

/-- The `finally` of `blu939_cli.command`. -/
def blu939Cleanup (args : Args) : Session Unit := do
  let isOpen ← locals Locals.isOpen
  when isOpen (withFinally (do
    recordResponse
    outputOff .blu939 args) closeInstrument)

/-- The `finally` of `ppk2_cli.command`. -/
def ppk2Cleanup (args : Args) : Session Unit := do
  let isOpen ← locals Locals.isOpen
  when isOpen (withFinally (outputOff .ppk2 args) closeInstrument)

def cleanup (args : Args) : Session Unit :=
  match kind with
  | .blu939 => blu939Cleanup args
  | .ppk2 => ppk2Cleanup args

def refuse : Option Raised → Session Unit
  | some e => raise e
  | none => pure ()

/-- What the names of its locks and operations begin with. -/
def Kind.label : Kind → String
  | .blu939 => "blu939"
  | .ppk2 => "ppk2"

def Action.label : Action → String
  | .info _ => "info"
  | .power _ _ => "power"
  | .capture _ _ _ _ => "capture"

/-- The body of the outer `try`. -/
def commandBody (args : Args) : Session Unit := do
  when args.manifest (do
    ask .loadManifest
    let _ ← ask .hashManifest)
  refuse (check kind args)
  let _ ← ask (.discover args.instrumentSerial)
  match args.action with
  | .info true => updateReport fun r => { r with status := "ok" }
  | _ => do
    let device ← select kind args.instrumentSerial
    ask (.lock (kind.label ++ ":" ++ device.serial.getD "")
      (kind.label ++ "-" ++ args.action.label))
    withFinally (withFinally (session kind args device) (cleanup kind args)) (ask .unlock)

/-- `command`. -/
def runCommand (args : Args) : Session Unit := do
  ask .newRun
  withFinally (withExcept (commandBody kind args) fun e => do
    updateReport fun r => { r with status := "failed", error := some e.message }
    raise e) saveReport
  ask .print

/-! ## The output -/

def isPowerOn (op : Op) : Prop := op = .write [0x0c, 1]
def isPowerOff (op : Op) : Prop := op = .write [0x0c, 0]
def isClose (op : Op) : Prop := op = .close

/-- Recording the metadata response, in the cleanup of the BLU939. -/
def isRecording : Op → Prop
  | .writeResponse _ | .hashResponse => True
  | _ => False

abbrev Events := History Op Op.Ans Raised

/-- A power-on has no power-off after it. -/
abbrev OutputOn : Events → Prop := Pending isPowerOn isPowerOff

abbrev OnIssued : Events → Prop := Happened fun e => isPowerOn e.op

abbrev RecordingRaised : Events → Prop :=
  Happened fun e => isRecording e.op ∧ ∃ raised, e.outcome = .error raised

/-- Every power-on is followed by a power-off, before the instrument is closed. -/
def OffBeforeClose (h : Events) : Prop := ¬ OutputOn h ∧ Guarded isClose (fun h => ¬ OutputOn h) h

/-- What the proofs follow of a history. -/
structure Line where
  on : Prop
  issued : Prop
  closedOff : Prop
  recordingRaised : Prop

def line (h : Events) : Line where
  on := OutputOn h
  issued := OnIssued h
  closedOff := Guarded isClose (fun h => ¬ OutputOn h) h
  recordingRaised := RecordingRaised h

/-- The operation has nothing to do with the output. -/
def Op.unrelated : Op → Bool
  | .write data => data != [0x0c, 1] && data != [0x0c, 0]
  | .close | .writeResponse _ | .hashResponse => false
  | _ => true

theorem line_concat (h : Events) (e : Event Op Op.Ans Raised) : line (h ++ [e]) =
    { on := isPowerOn e.op ∨ ((line h).on ∧ ¬ isPowerOff e.op)
      issued := (line h).issued ∨ isPowerOn e.op
      closedOff := (line h).closedOff ∧ (isClose e.op → ¬ (line h).on)
      recordingRaised :=
        (line h).recordingRaised ∨ (isRecording e.op ∧ ∃ raised, e.outcome = .error raised) } := by
  simp [line, pending_concat, happened_concat, guarded_concat]

theorem line_unrelated {h : Events} {e : Event Op Op.Ans Raised} (hop : e.op.unrelated = true) :
    line (h ++ [e]) = line h := by
  obtain ⟨op, outcome⟩ := e
  have hother : ¬ isPowerOn op ∧ ¬ isPowerOff op ∧ ¬ isClose op ∧ ¬ isRecording op := by
    cases op <;> simp_all [Op.unrelated, isPowerOn, isPowerOff, isClose, isRecording]
  obtain ⟨hon, hoff, hclose, hrecording⟩ := hother
  simp [line_concat, hon, hoff, hclose, hrecording]

/-- An assertion about the line and whether the instrument is open. -/
def On (A : Bool → Line → Prop) (w : World Op Op.Ans Raised Locals) : Prop :=
  A w.locals.isOpen (line w.history)

section
variable {env : Env Op Op.Ans Raised} {A : Bool → Line → Prop} {kind : Kind}

theorem keeps_ask {op : Op} (hop : op.unrelated = true) : Keeps env (On A) (ask op) := by
  apply keeps_perform
  intro w outcome hw
  show A w.locals.isOpen (line (w.history ++ [⟨op, outcome⟩]))
  rw [line_unrelated hop]
  exact hw

theorem keeps_set {f : Locals → Locals} (hopen : ∀ s, (f s).isOpen = s.isOpen) :
    Keeps env (On A) (assign f : Session Unit) := by
  apply keeps_assign
  intro w hw
  show A (f w.locals).isOpen (line w.history)
  rw [hopen]
  exact hw

theorem keeps_updateReport {f : Report → Report} :
    Keeps env (On A) (updateReport f) := keeps_set fun _ => rfl

theorem keeps_saveReport : Keeps env (On A) saveReport := by
  apply keeps_bind (keeps_locals _)
  intro report
  exact keeps_ask rfl

theorem keeps_command {data : List UInt8} (hop : (Op.write data).unrelated = true) :
    Keeps env (On A) (command kind data) := by
  apply keeps_bind (keeps_ask hop)
  intro written
  exact keeps_bind (keeps_when (keeps_raise _)) fun _ => keeps_ask rfl

theorem keeps_blu939Metadata : ∀ (n : Nat) (quietDeadline : Bool) (data : List UInt8),
    Keeps env (On A) (blu939Metadata n quietDeadline data) := by
  intro n
  induction n with
  | zero =>
    intro quietDeadline data
    exact keeps_bind (keeps_set fun _ => rfl) fun _ => keeps_raise _
  | succ n ih =>
    intro quietDeadline data
    apply keeps_ite
    · apply keeps_bind (keeps_ask rfl)
      intro chunk
      apply keeps_ite
      · apply keeps_ite
        · exact keeps_bind (keeps_set fun _ => rfl) fun _ => keeps_ask rfl
        · exact ih _ _
      · apply keeps_ite
        · apply keeps_bind (keeps_ask rfl)
          intro quiet
          apply keeps_ite
          · exact keeps_bind (keeps_set fun _ => rfl) fun _ => keeps_ask rfl
          · exact ih _ _
        · exact ih _ _
    · exact keeps_bind (keeps_set fun _ => rfl) fun _ => keeps_raise _

theorem keeps_ppk2Metadata :
    ∀ (n : Nat) (data : List UInt8), Keeps env (On A) (ppk2Metadata n data) := by
  intro n
  induction n with
  | zero =>
    intro data
    exact keeps_raise _
  | succ n ih =>
    intro data
    apply keeps_ite
    · apply keeps_bind (keeps_ask rfl)
      intro chunk
      exact keeps_ite (keeps_ask rfl) (ih _)
    · exact keeps_raise _

theorem keeps_metadata : Keeps env (On A) (metadata kind) := by
  cases kind with
  | blu939 =>
    apply keeps_bind (keeps_ask rfl)
    intro
    apply keeps_bind (keeps_command rfl)
    intro
    exact keeps_bind (keeps_ask rfl) fun n => keeps_blu939Metadata n false []
  | ppk2 =>
    apply keeps_bind (keeps_command rfl)
    intro
    exact keeps_bind (keeps_ask rfl) fun n => keeps_ppk2Metadata n []

theorem keeps_readback {voltageMv : Int} (n : Nat) :
    Keeps env (On A) (readback kind voltageMv n) := by
  induction n with
  | zero =>
    rw [readback]
    apply keeps_bind (keeps_ask rfl)
    intro
    exact keeps_bind keeps_metadata fun _ => keeps_ite (keeps_pure _) (keeps_raise _)
  | succ n ih =>
    rw [readback]
    apply keeps_bind (keeps_ask rfl)
    intro
    exact keeps_bind keeps_metadata fun _ => keeps_ite (keeps_pure _) ih

theorem keeps_configure {voltageMv : Int} : Keeps env (On A) (configure kind voltageMv) := by
  apply keeps_bind (keeps_when (keeps_raise _))
  intro
  apply keeps_bind (keeps_when (keeps_command rfl))
  intro
  apply keeps_bind (keeps_command rfl)
  intro
  apply keeps_bind (keeps_ask rfl)
  exact fun n => keeps_readback n

theorem keeps_acquire {wanted : Int} : ∀ n received :
    Nat, Keeps env (On A) (acquire kind wanted n received) := by
  intro n
  induction n with
  | zero =>
    intro received
    rw [acquire]
    exact keeps_ite (keeps_raise _) (keeps_pure _)
  | succ n ih =>
    intro received
    rw [acquire]
    apply keeps_ite
    · apply keeps_bind (keeps_ask rfl)
      intro chunk
      exact keeps_bind (keeps_ask rfl) fun _ => ih _
    · exact keeps_pure _

theorem keeps_drain (n : Nat) : Keeps env (On A) (drain n) := by
  induction n with
  | zero => exact keeps_pure _
  | succ n ih => exact keeps_bind (keeps_ask rfl) fun _ => ih

theorem keeps_capture {duration : Seconds} : Keeps env (On A) (capture kind duration) := by
  apply keeps_bind (keeps_when (keeps_raise _))
  intro
  apply keeps_bind (keeps_ask rfl)
  intro
  apply keeps_finally
  · apply keeps_bind (keeps_ask rfl)
    intro
    apply keeps_finally
    · apply keeps_bind (keeps_command rfl)
      intro
      apply keeps_bind (keeps_ask rfl)
      intro n
      exact keeps_bind (keeps_acquire n 0) fun _ => keeps_pure _
    · exact keeps_ask rfl
  · apply keeps_bind (keeps_command rfl)
    intro
    exact keeps_bind (keeps_ask rfl) fun n => keeps_drain n

theorem keeps_select {serial : Option String} : Keeps env (On A) (select kind serial) := by
  apply keeps_bind (keeps_ask rfl)
  intro devices
  match devices with
  | [] => exact keeps_raise _
  | [device] => exact keeps_ite (keeps_raise _) (keeps_pure _)
  | _ :: _ :: _ => exact keeps_raise _

end

/-! ## The power commands -/

/-- Any power-on in this session still stands, and nothing else has happened. -/
def InSession (args : Args) (l : Line) : Prop :=
  (l.on ↔ l.issued) ∧ l.closedOff ∧ ¬ l.recordingRaised ∧ (l.issued → args.requestsOutput = true)

/-- No power-on has been issued. -/
def Fresh (l : Line) : Prop := ¬ l.on ∧ ¬ l.issued ∧ l.closedOff ∧ ¬ l.recordingRaised

/-- The output is off, and was off wherever the instrument was closed. -/
def Off (l : Line) : Prop := ¬ l.on ∧ l.closedOff ∧ ¬ l.recordingRaised

/-- Recording the response raised, and the output was left as it was. -/
def Skipped (l : Line) : Prop := (l.on ↔ l.issued) ∧ l.closedOff ∧ l.recordingRaised

/-- The claim and its condition. -/
def Exact (kind : Kind) (l : Line) : Prop :=
  (¬ l.on ∧ l.closedOff) ↔ ¬ (kind = .blu939 ∧ l.issued ∧ l.recordingRaised)

section
variable {h : Events} {kind : Kind}

theorem line_powerOff {outcome : Except Raised Nat} :
    line (h ++ [⟨.write [0x0c, 0], outcome⟩]) = { line h with on := False } := by
  simp [line_concat, isPowerOn, isPowerOff, isClose, isRecording]

theorem line_powerOn {outcome : Except Raised Nat} :
    line (h ++ [⟨.write [0x0c, 1], outcome⟩]) = { line h with on := True, issued := True } := by
  simp [line_concat, isPowerOn, isClose, isRecording]

theorem line_close {outcome : Except Raised Unit} :
    line (h ++ [⟨.close, outcome⟩]) = { line h with closedOff := (line h).closedOff ∧
      ¬ (line h).on } := by
  simp [line_concat, isPowerOn, isPowerOff, isClose, isRecording]

theorem line_recording {op : Op} {outcome : Except Raised op.Ans} (hop : isRecording op) :
    line (h ++ [⟨op, outcome⟩]) =
      { line h with recordingRaised := (line h).recordingRaised ∨ ∃ raised,
        outcome = .error raised } := by
  cases op with
  | writeResponse response => simp [line_concat, isPowerOn, isPowerOff, isClose, isRecording]
  | hashResponse => simp [line_concat, isPowerOn, isPowerOff, isClose, isRecording]
  | _ => cases hop

theorem Fresh.inSession {l : Line} (h : Fresh l) (args : Args) : InSession args l :=
  ⟨⟨fun hon => absurd hon h.1, fun hissued => absurd hissued h.2.1⟩, h.2.2.1, h.2.2.2,
    fun hissued => absurd hissued h.2.1⟩

theorem Fresh.exact {l : Line} (h : Fresh l) : Exact kind l :=
  ⟨fun _ hc => h.2.1 hc.2.1, fun _ => ⟨h.1, h.2.2.1⟩⟩

def Ready (isOpen : Bool) (l : Line) : Prop := isOpen = true ∧ Fresh l

def Running (args : Args) (isOpen : Bool) (l : Line) : Prop := isOpen = true ∧ InSession args l

theorem Ready.running {isOpen : Bool} {l : Line} (h : Ready isOpen l)
    (args : Args) : Running args isOpen l :=
  ⟨h.1, h.2.inSession args⟩

variable {env : Env Op Op.Ans Raised} {args : Args}

/-- Whatever the write does, a power command has been attempted. -/
theorem power_ends {A B : Bool → Line → Prop} {enabled : Bool}
    (hwrite : ∀ (w : World Op Op.Ans Raised Locals) (outcome : Except Raised Nat), On A w →
      B w.locals.isOpen (line
        (w.history ++ [⟨.write [0x0c, if enabled then 1 else 0], outcome⟩]))) :
    Ends env (On A) (power kind enabled) (On B) := by
  refine triple_bind (fun _ => On B) ?_ fun written => ?_
  · exact triple_perform (fun w a hw => hwrite w (.ok a) hw) fun w e hw => hwrite w (.error e) hw
  · apply keeps_bind (keeps_when (keeps_raise _))
    intro
    exact keeps_ask rfl

theorem powerOff_ready : Keeps env (On Ready) (power kind false) := by
  apply power_ends
  intro w outcome hw
  show Ready w.locals.isOpen (line (w.history ++ [⟨.write [0x0c, 0], outcome⟩]))
  rw [line_powerOff]
  exact ⟨hw.1, id, hw.2.2⟩

theorem powerOn_running (hargs : args.requestsOutput = true) :
    Ends env (On Ready) (power kind true) (On (Running args)) := by
  apply power_ends
  intro w outcome hw
  obtain ⟨hopen, hfresh⟩ := hw
  show Running args w.locals.isOpen (line (w.history ++ [⟨.write [0x0c, 1], outcome⟩]))
  rw [line_powerOn]
  exact ⟨hopen, Iff.rfl, hfresh.2.2.1, hfresh.2.2.2, fun _ => hargs⟩

theorem powerSession_running {on : Bool} {duration : Seconds} (hargs : args.requestsOutput = on) :
    Ends env (On Ready) (powerSession kind args on duration) (On (Running args)) := by
  refine keeps_then (keeps_when ?_) (fun _ w hw => hw.running args) fun _ => ?_
  · cases args.voltageMv with
    | none => exact keeps_raise _
    | some voltageMv =>
      apply keeps_bind powerOff_ready
      intro
      exact keeps_bind keeps_configure fun _ => keeps_pure _
  · refine triple_bind (fun _ => On (Running args)) ?_ fun _ => ?_
    · cases on with
      | true => exact powerOn_running hargs
      | false =>
        exact triple_mono powerOff_ready (fun _ hw => hw) (fun _ w hw => hw.running args)
          fun _ w hw => hw.running args
    · apply keeps_bind keeps_updateReport
      intro
      apply keeps_when
      apply keeps_bind keeps_updateReport
      intro
      apply keeps_bind keeps_saveReport
      intro
      exact keeps_bind (keeps_ask rfl) fun _ => keeps_ask rfl

theorem captureSession_running {before : Metadata} {duration settle holdAfter : Seconds}
    {powerCycle : Bool} (hargs : args.requestsOutput = powerCycle) :
    Ends env (On Ready) (captureSession kind args before duration settle holdAfter powerCycle)
      (On (Running args)) := by
  refine triple_bind (fun _ => On (Running args)) ?_ fun metadata => ?_
  · refine triple_ite (fun hcycle => ?_) fun _ => ?_
    · refine keeps_then powerOff_ready (fun _ w hw => hw.running args) fun _ => ?_
      refine keeps_then keeps_configure (fun _ w hw => hw.running args) fun _ => ?_
      refine keeps_then (keeps_ask rfl) (fun _ w hw => hw.running args) fun _ => ?_
      exact triple_bind (fun _ => On (Running args)) (powerOn_running (hargs.trans hcycle)) fun _ =>
        keeps_pure _
    · refine keeps_then (keeps_when (keeps_raise _)) (fun _ w hw => hw.running args) fun _ => ?_
      exact triple_pure fun w hw => hw.running args
  · apply keeps_bind (keeps_when (keeps_raise _))
    intro
    apply keeps_bind (keeps_ask rfl)
    intro
    apply keeps_bind keeps_capture
    intro
    apply keeps_bind (keeps_ask rfl)
    intro
    apply keeps_bind (keeps_ask rfl)
    intro
    apply keeps_bind (keeps_ask rfl)
    intro
    apply keeps_when
    apply keeps_bind keeps_updateReport
    intro
    apply keeps_bind keeps_saveReport
    intro
    exact keeps_bind (keeps_ask rfl) fun _ => keeps_ask rfl

theorem act_running {metadata : Metadata} :
    Ends env (On Ready) (act kind args metadata) (On (Running args)) := by
  unfold act
  split
  · exact triple_pure fun w hw => hw.running args
  · rename_i on duration haction
    exact powerSession_running (by simp only [Args.requestsOutput, haction])
  · rename_i duration settle holdAfter powerCycle haction
    exact captureSession_running (by simp only [Args.requestsOutput, haction])

/-- Before the instrument is opened. -/
def Unopened (isOpen : Bool) (l : Line) : Prop := isOpen = false ∧ Fresh l

/-- Where the session ends; an instrument that was not opened was told nothing. -/
def SessionEnd (args : Args) (isOpen : Bool) (l : Line) : Prop :=
  InSession args l ∧ (isOpen = false → Fresh l)

theorem Running.ends {isOpen : Bool} {l : Line}
    (h : Running args isOpen l) : SessionEnd args isOpen l :=
  ⟨h.2, fun hclosed => absurd h.1 (by simp [hclosed])⟩

theorem session_ends {device : Device} :
    Ends env (On Unopened) (session kind args device) (On (SessionEnd args)) := by
  refine keeps_then (keeps_ask rfl) (fun _ w hw => ⟨hw.2.inSession args, fun _ => hw.2⟩) fun _ => ?_
  refine triple_bind (fun _ => On Ready) (triple_assign fun w hw => ⟨rfl, hw.2⟩) fun _ => ?_
  refine keeps_then keeps_metadata (fun _ w hw => (hw.running args).ends) fun metadata => ?_
  refine keeps_then keeps_saveReport (fun _ w hw => (hw.running args).ends) fun _ => ?_
  refine triple_bind (fun _ => On (Running args)) ?_ fun _ => ?_
  · exact triple_mono act_running (fun _ hw => hw) (fun _ _ hw => hw) fun _ w hw => hw.ends
  · exact triple_mono keeps_updateReport (fun _ hw => hw) (fun _ w hw => hw.ends)
      fun _ w hw => hw.ends

/-! ## The cleanup -/

theorem outputOff_off : Ends env (On (Running args)) (outputOff kind args) (On fun _ => Off) := by
  refine triple_when (fun _ => ?_) fun hnot w hw => ?_
  · refine triple_bind (fun _ => On fun _ => Off) (power_ends ?_) fun _ => keeps_updateReport
    intro w outcome hw
    show Off (line (w.history ++ [⟨.write [0x0c, 0], outcome⟩]))
    rw [line_powerOff]
    exact ⟨id, hw.2.2.1, hw.2.2.2.1⟩
  · obtain ⟨_, hon, hclosed, hraised, hrequest⟩ := hw
    refine ⟨fun h => ?_, hclosed, hraised⟩
    rw [hrequest (hon.mp h)] at hnot
    cases hnot

/-- The instrument is closed, whatever that does. -/
theorem closeInstrument_ends {A B : Line → Prop}
    (hclose : ∀ l, A l → B { l with closedOff := l.closedOff ∧ ¬ l.on }) :
    Ends env (On fun _ => A) closeInstrument (On fun _ => B) := by
  have hline : ∀ (w : World Op Op.Ans Raised Locals) (outcome : Except Raised Unit),
      On (fun _ => A) w → B (line (w.history ++ [⟨.close, outcome⟩])) := by
    intro w outcome hw
    rw [line_close]
    exact hclose _ hw
  refine triple_bind (fun _ => On fun _ => B) ?_ fun _ => triple_assign fun w hw => hw
  exact triple_perform (fun w a hw => hline w (.ok a) hw) fun w e hw => hline w (.error e) hw

theorem closeInstrument_off :
    Ends env (On fun _ => Off) closeInstrument (On fun _ => Exact kind) := by
  apply closeInstrument_ends
  intro l h
  exact ⟨fun _ hc => h.2.2 hc.2.2, fun _ => ⟨h.1, h.2.1, h.1⟩⟩

/-- Where the power-off was skipped, the claim fails exactly if a power-on was issued. -/
theorem closeInstrument_skipped :
    Ends env (On fun _ => Skipped) closeInstrument (On fun _ => Exact .blu939) := by
  apply closeInstrument_ends
  intro l h
  obtain ⟨hon, hclosed, hraised⟩ := h
  constructor
  · intro hoff hc
    exact hoff.1 (hon.mpr hc.2.1)
  · intro hc
    have hoff : ¬ l.on := fun h' => hc ⟨rfl, hon.mp h', hraised⟩
    exact ⟨hoff, hclosed, hoff⟩

/-- Either the response is recorded and the power-off follows, or something raised. -/
theorem recordResponse_triple :
    Triple env (On (Running args)) recordResponse (fun _ => On (Running args)) fun _ =>
      On fun _ => Skipped := by
  have hrecording : ∀ op : Op, isRecording op → Triple env (On (Running args)) (ask op)
      (fun _ => On (Running args)) fun _ => On fun _ => Skipped := by
    intro op hop
    refine triple_perform (fun w a hw => ?_) fun w e hw => ?_
    · obtain ⟨hopen, hon, hclosed, hraised, hrequest⟩ := hw
      show Running args w.locals.isOpen (line (w.history ++ [⟨op, .ok a⟩]))
      rw [line_recording hop]
      refine ⟨hopen, hon, hclosed, ?_, hrequest⟩
      rintro (h | ⟨_, h⟩)
      · exact hraised h
      · cases h
    · obtain ⟨hopen, hon, hclosed, hraised, hrequest⟩ := hw
      show Skipped (line (w.history ++ [⟨op, .error e⟩]))
      rw [line_recording hop]
      exact ⟨hon, hclosed, Or.inr ⟨e, rfl⟩⟩
  refine triple_bind (fun _ => On (Running args)) (triple_locals fun w hw => hw) fun response => ?_
  refine triple_when (fun _ => ?_) fun _ w hw => hw
  refine triple_bind (fun _ => On (Running args))
    (hrecording (.writeResponse response) trivial) fun _ => ?_
  refine triple_bind (fun _ => On (Running args)) (hrecording .hashResponse trivial)
    fun digest => ?_
  exact triple_assign fun w hw => hw

/-- An instrument that was not opened needs no cleanup. -/
theorem whenOpen_exact {m : Session Unit}
    (hm : Ends env (On (Running args)) m (On fun _ => Exact kind)) :
    Ends env (On (SessionEnd args)) (do when (← locals Locals.isOpen) m) (On
      fun _ => Exact kind) := by
  refine triple_bind (fun isOpen w => On (SessionEnd args) w ∧ w.locals.isOpen = isOpen)
    (triple_locals fun w hw => ⟨hw, rfl⟩) fun isOpen => ?_
  refine triple_when (fun htrue => ?_) fun hfalse w hw => ?_
  · exact triple_mono hm (fun w hw => ⟨hw.2.trans htrue, hw.1.1⟩) (fun _ _ h => h) fun _ _ h => h
  · exact Fresh.exact (hw.1.2 (hw.2.trans hfalse))

theorem cleanup_exact :
    Ends env (On (SessionEnd args)) (cleanup kind args) (On fun _ => Exact kind) := by
  cases kind with
  | ppk2 =>
    apply whenOpen_exact
    exact ends_finally (On fun _ => Off) outputOff_off closeInstrument_off
  | blu939 =>
    apply whenOpen_exact
    -- The power-off runs only if recording the response has not raised.
    refine triple_finally (fun _ => On fun _ => Off) (fun _ => On fun _ l => Off l ∨ Skipped l) ?_
      (fun _ => closeInstrument_off) fun _ w hw => ?_
    · refine triple_bind (fun _ => On (Running args)) ?_ fun _ => ?_
      · exact triple_mono recordResponse_triple (fun _ hw => hw) (fun _ _ hw => hw) fun _ _ hw =>
          Or.inr hw
      · exact triple_mono outputOff_off (fun _ hw => hw) (fun _ _ hw => hw) fun _ _ hw => Or.inl hw
    · rcases hw with hoff | hskipped
      · exact closeInstrument_off w hoff
      · exact closeInstrument_skipped w hskipped

/-! ## Every run -/

theorem keeps_refuse {A : Bool → Line → Prop}
    (e : Option Raised) : Keeps env (On A) (refuse e) := by
  cases e with
  | none => exact keeps_pure _
  | some e => exact keeps_raise _

theorem commandBody_exact :
    Ends env (On Unopened) (commandBody kind args) (On fun _ => Exact kind) := by
  have hraised : ∀ (e : Raised) (w : World Op Op.Ans Raised Locals), On Unopened w →
      On (fun _ => Exact kind) w :=
    fun _ w hw => hw.2.exact
  refine keeps_then (keeps_when ?_) hraised fun _ => ?_
  · exact keeps_bind (keeps_ask rfl) fun _ => keeps_bind (keeps_ask rfl) fun _ => keeps_pure _
  refine keeps_then (keeps_refuse _) hraised fun _ => ?_
  refine keeps_then (keeps_ask rfl) hraised fun _ => ?_
  split
  · exact triple_mono keeps_updateReport (fun _ hw => hw) (fun _ w hw => hw.2.exact) hraised
  · refine keeps_then keeps_select hraised fun device => ?_
    refine keeps_then (keeps_ask rfl) hraised fun _ => ?_
    apply ends_finally (On fun _ => Exact kind)
    · exact ends_finally (On (SessionEnd args)) session_ends cleanup_exact
    · exact keeps_ask rfl

theorem runCommand_exact :
    Ends env (On Unopened) (runCommand kind args) (On fun _ => Exact kind) := by
  refine keeps_then (keeps_ask rfl) (fun _ w hw => hw.2.exact) fun _ => ?_
  refine triple_bind (fun _ => On fun _ => Exact kind) ?_ fun _ => keeps_ask rfl
  apply ends_finally (On fun _ => Exact kind)
  · refine triple_except (fun _ => On fun _ => Exact kind) commandBody_exact fun e => ?_
    exact keeps_bind keeps_updateReport fun _ => keeps_raise _
  · exact keeps_saveReport

/-- **Power cleanup.** In every run of the two front ends, whatever raises, every power-on
is followed by a power-off before the instrument is closed, unless the BLU939 front end
issued a power-on and recording the metadata response raised. -/
theorem off_before_close_iff (kind : Kind) (args : Args) (env : Env Op Op.Ans Raised) :
    OffBeforeClose (runCommand kind args env ⟨{}, []⟩).2.history ↔
      ¬ (kind = .blu939 ∧ OnIssued (runCommand kind args env ⟨{}, []⟩).2.history ∧
        RecordingRaised (runCommand kind args env ⟨{}, []⟩).2.history) := by
  have hstart : On Unopened (⟨{}, []⟩ : World Op Op.Ans Raised Locals) :=
    ⟨rfl, pending_nil, happened_nil, guarded_nil, happened_nil⟩
  exact runCommand_exact.world hstart

end

/-- An instrument that does what it is asked. -/
def obliging : (op : Op) → op.Ans
  | .write data => data.length
  | .polls => (1 : Nat)
  | .discover _ => [⟨"/dev/ttyACM0", some "B1"⟩]
  | .read => "\nEND\n".toUTF8.toList
  | .quiet => true
  | .parseMetadata _ => fun key => if key = "vdd" then some (.number 3300 "3300.0") else none
  | .hashManifest | .hashCapture | .hashCsv | .hashResponse => ""
  | .newRun | .loadManifest | .lock _ _ | .unlock | .openSerial
    _ | .close | .flush | .resetInput | .sleep _ |
    .atomicJson _ | .print | .openCapture | .storeCapture _ | .closeCapture | .decodeCapture |
    .writeResponse _ => ()

/-- There is no room for the file of the metadata response. -/
def diskFull : Env Op Op.Ans Raised := fun _ op =>
  match op with
  | .writeResponse _ => .error ⟨"OSError", "[Errno 28] No space left on device"⟩
  | op => .ok (obliging op)

def powerOnForAMinute : Args := { action := .power true (some 60), voltageMv := some 3300 }

/-- The output is turned on. -/
def turnsOn : Event Op Op.Ans Raised → Bool
  | ⟨.write [0x0c, 1], _⟩ => true
  | _ => false

/-- An answer cannot be recorded. -/
def recordFails : Event Op Op.Ans Raised → Bool
  | ⟨.writeResponse _, .error _⟩ => true
  | _ => false

theorem recording_failure_leaves_output_on :
    powerOnForAMinute.requestsOutput = true ∧
      ¬ OffBeforeClose (runCommand .blu939 powerOnForAMinute diskFull ⟨{}, []⟩).2.history := by
  have hexact : Exact .blu939
      (line (runCommand .blu939 powerOnForAMinute diskFull ⟨{}, []⟩).2.history) :=
    runCommand_exact.world ⟨rfl, pending_nil, happened_nil, guarded_nil, happened_nil⟩
  have hwrite : (runCommand .blu939 powerOnForAMinute diskFull ⟨{}, []⟩).2.history.any turnsOn =
      true := by decide +kernel
  have hrecord : (runCommand .blu939 powerOnForAMinute diskFull ⟨{}, []⟩).2.history.any
      recordFails = true := by decide +kernel
  refine ⟨rfl, fun hoff => hexact.mp hoff ⟨rfl, ?_, ?_⟩⟩
  · obtain ⟨⟨op, outcome⟩, hmem, hop⟩ := List.any_eq_true.mp hwrite
    refine ⟨⟨op, outcome⟩, hmem, ?_⟩
    unfold turnsOn at hop
    split at hop
    · rename_i heq
      cases heq
      rfl
    · cases hop
  · obtain ⟨⟨op, outcome⟩, hmem, hop⟩ := List.any_eq_true.mp hrecord
    refine ⟨⟨op, outcome⟩, hmem, ?_⟩
    unfold recordFails at hop
    split at hop
    · rename_i heq
      cases heq
      exact ⟨trivial, _, rfl⟩
    · cases hop

end NrfKit.Tools.Instrument
