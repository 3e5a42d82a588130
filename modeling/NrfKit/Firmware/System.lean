import NrfKit.Firmware.Timeslot
import NrfKit.Firmware.Rram

/- The firmware as one system: who may call which function when. Programs pre-empt each
   other by level: `nrfkit_sdc_process` (0) runs MPSL's deferred callbacks (1), whose
   handlers may call the API (2); interrupts (3) come over all of these, and inside an
   interrupt's handler only RADIO ownership calls and the hardware move (4). -/
namespace NrfKit.Firmware
open Interleave

/-- What a finished program returned. -/
inductive Ret where
  | code (result : Int)
  | sized (result : Int) (value : Option Nat)
  | flag (result : Int) (value : Option Bool)
  | param (p : SignalReturn)
  | void
  deriving DecidableEq, Repr

/-- Entry points: API calls, signals from MPSL, interrupts and hardware. -/
inductive Entry where
  | timeslotOpen (handler : Option Handler) (context : Nat)
  | timeslotRequestEarliest (lengthUs timeoutUs cleanupMarginUs : UInt32)
  | timeslotClose
  | sdcRequiredMemory (config : Option SdcConfig) (requiredMemory : Bool)
  | sdcEnable (config : Option SdcConfig) (memory : Option Nat) (memorySize : Nat)
  | sdcDisable
  | sdcProcess
  | hfclk24mRequest
  | hfclk24mIsRunning (running : Bool)
  | hfclk24mRelease
  | rramSubmit (region : Option RramRegion) (address : UInt32) (data : Bool) (size : UInt32)
  | rramProcess
  | radioAcquire (owner : RadioOwner)
  | radioRelease (owner : RadioOwner)
  | timeslotSignal (id : Nat) (signal : MpslSignal)
  | rramSignal (id : Nat) (signal : MpslSignal)
  | mpslDropRequest
  | swi00
  | timer0Compare
  | radioRegisters (intEnabled shorts : UInt32)
  | radioState (disabledAt : Nat → Bool)
  | clocks (systemCoreClock : Nat) (grtcCounting : Bool) (grtcCounter : UInt32)
  | callerData (data : Nat → UInt8)

def mpslDeferred (signal : MpslSignal) : Bool := (translateSignal signal).deferred

def level : Query → Nat
  | .vendor .lowPriorityProcess | .within .lowPriorityProcess _ => 0
  | .handler _ cause _ => if mpslDeferred cause then 1 else 3
  | .vendor _ | .within _ _ | .statement _ => 2
  | .rramReady | .rramWait _ | .rramStored _ => 3

def Entry.rank : Entry → Nat
  | .sdcProcess => 0
  | .timeslotSignal _ signal | .rramSignal _ signal => if mpslDeferred signal then 1 else 3
  | .timeslotOpen _ _ | .timeslotRequestEarliest _ _ _ | .timeslotClose | .sdcRequiredMemory _ _
  | .sdcEnable _ _ _ | .sdcDisable | .hfclk24mRequest | .hfclk24mIsRunning _ | .hfclk24mRelease
  | .rramSubmit _ _ _ _ | .rramProcess => 2
  | .radioAcquire _ | .radioRelease _ | .mpslDropRequest | .swi00 | .timer0Compare
  | .radioRegisters _ _ | .radioState _ | .clocks _ _ _ | .callerData _ => 4

variable (V : Vendor)

def program : Entry → Machine → FTurn Ret
  | .timeslotOpen h ctx, m => (nrfkitTimeslotOpen V h ctx m).map .code
  | .timeslotRequestEarliest l t c, m => (nrfkitTimeslotRequestEarliest V l t c m).map .code
  | .timeslotClose, m => (nrfkitTimeslotClose V m).map .code
  | .sdcRequiredMemory c out, m =>
    (nrfkitSdcRequiredMemory V c out m).map fun r => .sized r.1 r.2
  | .sdcEnable c memory size, m => (nrfkitSdcEnable V c memory size m).map .code
  | .sdcDisable, m => (nrfkitSdcDisable V m).map .code
  | .sdcProcess, m => (nrfkitSdcProcess m).map fun _ => .void
  | .hfclk24mRequest, m => (nrfkitMpslHfclk24mRequest V m).map .code
  | .hfclk24mIsRunning out, m => (nrfkitMpslHfclk24mIsRunning V out m).map fun r => .flag r.1 r.2
  | .hfclk24mRelease, m => (nrfkitMpslHfclk24mRelease V m).map .code
  | .rramSubmit region address data size, m =>
    (nrfkitRramSubmit V region address data size m).map .code
  | .rramProcess, m => (nrfkitRramProcess V m).map fun _ => .void
  | .radioAcquire owner, m =>
    .done (nrfkitRadioAcquire owner m).2 (.code (nrfkitRadioAcquire owner m).1)
  | .radioRelease owner, m =>
    .done (nrfkitRadioRelease owner m).2 (.code (nrfkitRadioRelease owner m).1)
  | .timeslotSignal id signal, m => (deliverTimeslot V id signal m).map .param
  | .rramSignal id signal, m => (deliverRram V id signal m).map .param
  | .mpslDropRequest, m =>
    .done { m with mpsl := { m.mpsl with requests := m.mpsl.requests.tail } } .void
  | .swi00, m => .done (swi00IrqHandler m) .void
  | .timer0Compare, m => .done { m with timer0 := { m.timer0 with compareEvent := true } } .void
  | .radioRegisters intEnabled shorts, m =>
    .done { m with radio := { m.radio with intEnabled := intEnabled, shorts := shorts } } .void
  | .radioState disabledAt, m =>
    .done { m with radio := { m.radio with disabledAt := disabledAt } } .void
  | .clocks core counting counter, m =>
    .done { m with hw := { m.hw with
      systemCoreClock := core, grtcCounting := counting, grtcCounter := counter } } .void
  | .callerData data, m => .done { m with hw := { m.hw with callerData := data } } .void

/-- The firmware with everything its callers and MPSL might do at each level. -/
def firmware : System Machine Query Answer Entry Ret where
  prog := program V
  enters ctx e _ := above level e.rank ctx
  answers _ _ _ _ := true

/-! ## A start without incidents -/

/-- An environment in which vendor calls succeed (session identifiers are 1 for RADIO and
2 for storage), RRAMC is ready, a committed unit holds `held`, and handlers return
`action`. -/
def answering (action : Action) (held : Nat → UInt8) : (q : Query) → Answer q
  | .handler _ _ _ => action
  | .vendor .timeslotSessionOpen => { value := 1 }
  | .vendor .rramSessionOpen => { value := 2 }
  | .vendor _ => {}
  | .within _ _ | .statement _ => ()
  | .rramReady | .rramWait _ => true
  | .rramStored _ => held

/-- The same, but the vendor call `call` returns `result`. -/
def answeringWith (call : VendorCall) (result : Int) : (q : Query) → Answer q
  | .vendor c => if c = call then { result := result }
    else answering ⟨.actionNone, 0, 0⟩ (fun _ => 0) (.vendor c)
  | q => answering ⟨.actionNone, 0, 0⟩ (fun _ => 0) q

/-- The programs in order, each run to its end with `n` answers. -/
def calls (es : List (Entry × Nat × Action)) : List (Event Query Answer Entry) :=
  es.flatMap fun (e, n, action) =>
    .enter e :: List.replicate n (.resume (answering action fun _ => 0))

/-- A program run to its end with `n` answers, while `call` returns `result`. -/
def failing (e : Entry) (n : Nat) (call : VendorCall)
    (result : Int) : List (Event Query Answer Entry) :=
  .enter e :: List.replicate n (.resume (answeringWith call result))

def exampleConfig : SdcConfig := ⟨lfclkXtal, 50, 0, 0, 1000⟩

/-- The controller enabled: MPSL stays initialised. -/
def enabled : Entry × Nat × Action :=
  (.sdcEnable (some exampleConfig) (some 8) 0, 16, ⟨.actionNone, 0, 0⟩)

end NrfKit.Firmware
