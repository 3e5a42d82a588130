import NrfKit.Lib.Interleave

/- The firmware's memory. One `Machine` holds the static variables of
   `timeslot.c`, `ownership.c`, `platform.c` and `rram.c`, the peripheral
   registers they touch, and what MPSL itself keeps (which sessions are open,
   which requests it has accepted and which grant runs). The functions of the
   C files are programs over it (`Interleave.Turn`): they wait where they call
   the vendor libraries or the application's handler, and interrupts, deferred
   callbacks and re-entrant calls run there.

   Flags are `Bool` (0 or 1 in the source), `uint32_t` values are `UInt32`,
   the `uint8_t` reference counts are naturals with wrapping increments.
   `Ghost` only records what happened; no program reads it. -/
namespace NrfKit.Firmware
open Interleave

/-- Values of headers outside the repository: `nrf_errno.h`, `mpsl_timeslot.h`,
`mpsl_clock.h` and the register encodings of `nrf_rramc.h`. -/
structure Vendor where
  eperm : Int
  eio : Int
  enomem : Int
  einval : Int
  eagain : Int
  etimedout : Int
  einprogress : Int
  eperm_pos : 0 < eperm
  eio_pos : 0 < eio
  enomem_pos : 0 < enomem
  einval_pos : 0 < einval
  eagain_pos : 0 < eagain
  etimedout_pos : 0 < etimedout
  einprogress_pos : 0 < einprogress
  timeslotLengthMinUs : UInt32
  timeslotLengthMaxUs : UInt32
  timeslotExtensionTimeMinUs : UInt32
  timeslotExtensionMarginMinUs : UInt32
  timeslotDistanceMaxUs : UInt32
  timeslotEarliestTimeoutMaxUs : UInt32
  clockHfLatencyWorstCase : Nat
  rramcConfigWrite : UInt32
  rramcPowerConfig : UInt32
  rramcReadyNextTimeout : UInt32

/-- The values of the vendor release the SDK is built with. -/
def Vendor.nrfxlib : Vendor where
  eperm := 1
  eio := 5
  enomem := 12
  einval := 22
  eagain := 35
  etimedout := 60
  einprogress := 115
  eperm_pos := by decide
  eio_pos := by decide
  enomem_pos := by decide
  einval_pos := by decide
  eagain_pos := by decide
  etimedout_pos := by decide
  einprogress_pos := by decide
  timeslotLengthMinUs := 100
  timeslotLengthMaxUs := 100000
  timeslotExtensionTimeMinUs := 200
  timeslotExtensionMarginMinUs := 87
  timeslotDistanceMaxUs := 255999999
  timeslotEarliestTimeoutMaxUs := 255999999
  clockHfLatencyWorstCase := 2000
  rramcConfigWrite := 0x101
  rramcPowerConfig := 0x10100
  rramcReadyNextTimeout := 0x80000080

/-! ## MPSL Timeslot API -/

/-- `MPSL_TIMESLOT_SIGNAL_*`, and any other value of the `uint32_t`. -/
inductive MpslSignal where
  | start
  | timer0
  | radio
  | extendFailed
  | extendSucceeded
  | blocked
  | cancelled
  | sessionIdle
  | invalidReturn
  | sessionClosed
  | overstayed
  | other (value : Nat)
  deriving DecidableEq, Repr

/-- `MPSL_TIMESLOT_SIGNAL_ACTION_*`. -/
inductive CallbackAction where
  | actionNone
  | actionExtend
  | actionEnd
  | actionRequest
  deriving DecidableEq, Repr

inductive Hfclk where
  | xtalGuaranteed
  | noGuarantee
  deriving DecidableEq, Repr

inductive Priority where
  | high
  | normal
  deriving DecidableEq, Repr

/-- `mpsl_timeslot_request_t`; `unset` is static storage before the first request. -/
inductive Request where
  | unset
  | earliest (hfclk : Hfclk) (priority : Priority) (lengthUs timeoutUs : UInt32)
  | normal (hfclk : Hfclk) (priority : Priority) (distanceUs lengthUs : UInt32)
  deriving DecidableEq, Repr

/-- The length of the grant a request asks for. -/
def Request.lengthUs : Request → UInt32
  | .unset => 0
  | .earliest _ _ l _ => l
  | .normal _ _ _ l => l

/-- `mpsl_timeslot_signal_return_param_t`; `pNext` says that `request.p_next` points
at the session's own request. -/
structure SignalReturn where
  callbackAction : CallbackAction
  extendLengthUs : UInt32
  pNext : Bool
  deriving DecidableEq, Repr

/-! ## SDK types -/

/-- `enum nrfkit_timeslot_signal`. -/
inductive Signal where
  | start
  | timer
  | radio
  | extendSucceeded
  | extendFailed
  | blocked
  | cancelled
  | idle
  | invalidReturn
  | closed
  | overstayed
  deriving DecidableEq, Repr

/-- Signals delivered from `mpsl_low_priority_process`, in main context; the others come
in interrupt context. -/
def Signal.deferred : Signal → Bool
  | .blocked | .cancelled | .idle | .invalidReturn | .closed | .overstayed => true
  | _ => false

/-- `enum nrfkit_timeslot_action_kind`, and any other value of the enumeration. -/
inductive ActionKind where
  | actionNone
  | actionEnd
  | actionExtend
  | actionRequestNormal
  | other (value : Nat)
  deriving DecidableEq, Repr

/-- `struct nrfkit_timeslot_action`. -/
structure Action where
  kind : ActionKind
  lengthUs : UInt32 := 0
  distanceUs : UInt32 := 0
  deriving DecidableEq, Repr

/-- The address of an application handler. -/
abbrev Handler := Nat

/-- `enum nrfkit_radio_owner`, and any other value of the enumeration. -/
inductive RadioOwner where
  | ownerNone
  | proprietary
  | ble
  | timeslot
  | other (value : Nat)
  deriving DecidableEq, Repr

/-- `struct nrfkit_sdc_config`. -/
structure SdcConfig where
  lfclkSource : Nat
  lfclkAccuracyPpm : Nat
  rcCalibrationInterval250Ms : Nat
  rcTemperatureIntervalCount : Nat
  hfclkStartupTimeUs : Nat
  deriving DecidableEq, Repr

/-- `struct nrfkit_rram_region`. -/
structure RramRegion where
  origin : UInt32
  length : UInt32
  deriving DecidableEq, Repr

/-! ## Static variables -/

/-- The static variables of `timeslot.c`. -/
structure Timeslot where
  signalReturn : SignalReturn := ⟨.actionNone, 0, false⟩
  nextRequest : Request := .unset
  sessionId : Nat := 0
  applicationHandler : Option Handler := none
  applicationContext : Nat := 0
  grantLengthUs : UInt32 := 0
  cleanupMarginUs : UInt32 := 0
  pendingExtensionUs : UInt32 := 0
  sessionOpen : Bool := false
  sessionIdle : Bool := false
  sessionClosing : Bool := false
  grantActive : Bool := false

/-- The static variables of `platform.c` used by its lifetime functions. -/
structure Platform where
  lowPriorityPending : Bool := false
  hciPending : Bool := false
  enabled : Bool := false
  controllerInitialized : Bool := false
  mpslInitialized : Bool := false
  timeslotReferences : Nat := 0
  mpslClientReferences : Nat := 0
  hfclk24mReferences : Nat := 0
  grtcWasEnabled : Bool := false
  controllerMemorySize : Nat := 0
  lockedConfig : SdcConfig := ⟨0, 0, 0, 0, 0⟩

/-- The static variables of `rram.c`. -/
structure Rram where
  buffer : Nat → UInt8 := fun _ => 0
  destination : UInt32 := 0
  remaining : UInt32 := 0
  offset : UInt32 := 0
  started : UInt32 := 0
  result : Int := 0
  operationResult : Int := 0
  opened : Bool := false
  idle : Bool := false
  closing : Bool := false
  retry : Bool := false
  session : Nat := 0
  response : SignalReturn := ⟨.actionNone, 0, false⟩
  request : Request := .unset

/-! ## Hardware -/

/-- MPSL_TIMER0, as far as the backend uses it. -/
structure Timer0 where
  compareEvent : Bool := false
  compareInt : Bool := false
  cc : UInt32 := 0

/-- The RADIO: its interrupt and shortcut registers, and what successive reads of
STATE return (`true` for DISABLED). -/
structure Radio where
  intEnabled : UInt32 := 0
  shorts : UInt32 := 0
  disabledAt : Nat → Bool := fun _ => true
  reads : Nat := 0

/-- The registers, clocks and RRAM outside the RADIO and MPSL_TIMER0, and the buffer a
caller of `nrfkit_rram_submit` passes. -/
structure Hardware where
  systemCoreClock : Nat := 128000000
  grtcCounting : Bool := false
  grtcCounter : UInt32 := 0
  mpslInterrupts : Bool := false
  rramcConfig : UInt32 := 0
  rramcPowerConfig : UInt32 := 0
  rramcReadyNextTimeout : UInt32 := 0
  memory : Nat → UInt8 := fun _ => 0xff
  callerData : Nat → UInt8 := fun _ => 0

/-! ## What MPSL keeps -/

/-- A running grant: the length requested for it, the extensions granted so far, and
the extension the callback last asked for. -/
structure Grant where
  requested : UInt32
  extensions : List UInt32 := []
  offer : Option UInt32 := none

/-- The grant's length in microseconds, unbounded. -/
def Grant.total (g : Grant) : Nat := g.requested.toNat + (g.extensions.map UInt32.toNat).sum

/-- MPSL's own state for the two sessions: the identifiers it knows them by; for the
RADIO session the accepted requests that have not started and the running grants;
for the storage session whether a request waits to start and whether a close has been
accepted. -/
structure Mpsl where
  session : Option Nat := none
  requests : List UInt32 := []
  grants : List Grant := []
  rramSession : Option Nat := none
  rramRequested : Bool := false
  rramClosing : Bool := false

/-! ## Calls out of the firmware -/

/-- Calls into MPSL, the SoftDevice Controller and the entropy driver. The arguments
of `timeslotRequest` are the length asked for and the cleanup margin the caller
passed with it (which MPSL never sees). -/
inductive VendorCall where
  | timeslotSessionOpen
  | timeslotRequest (lengthUs marginUs : UInt32)
  | timeslotSessionClose
  | rramSessionOpen
  | rramRequest
  | rramSessionClose
  | mpslInit
  | timeslotSessionCountSet
  | hfclkLatencySet
  | sdcInit
  | cfgSet
  | mpslUninit
  | randSourceRegister
  | cracenInit
  | cracenUninit
  | sdcEnable
  | sdcDisable
  | hfclkSrcRequest
  | hfclkSrcRelease
  | hfclkSrcIsRunning
  | lowPriorityProcess
  deriving DecidableEq, Repr

/-- The result of a vendor call and the value it writes through its out-parameter. -/
structure VendorReply where
  result : Int := 0
  value : Nat := 0

/-- Where a program may wait: in the application's handler (called because of an MPSL
signal, `deadline` at the call made for the deadline's compare event), before a vendor
call is decided and before it returns, between two statements of `nrfkit_rram_process`
(having seen a reason to stop or not), and for RRAMC inside one unit write (`target` is
the address of the unit once its words are stored). -/
inductive Query where
  | handler (handler : Handler) (cause : MpslSignal) (deadline : Bool)
  | vendor (call : VendorCall)
  | within (call : VendorCall) (result : Int)
  | statement (stopping : Bool)
  | rramReady
  | rramWait (target : Option Nat)
  | rramStored (target : Nat)
  deriving DecidableEq, Repr

/-- What each wait is answered with: the handler's action, a vendor call's reply,
nothing (the wait only lets others run), whether RRAMC is ready, and what the
16 bytes of a committed unit hold. -/
abbrev Answer : Query → Type
  | .handler _ _ _ => Action
  | .vendor _ => VendorReply
  | .within _ _ => Unit
  | .statement _ => Unit
  | .rramReady => Bool
  | .rramWait _ => Bool
  | .rramStored _ => Nat → UInt8

/-! ## What happened -/

/-- The life of Timeslot sessions, numbered from 1: opened with a handler, a handler
invoked for it, MPSL released for it. -/
inductive SessionNote where
  | opened (serial : Nat) (handler : Handler)
  | invoked (serial : Nat) (handler : Handler) (signal : Signal)
  | released (serial : Nat)
  deriving DecidableEq, Repr

/-- A vendor call with its result, and the lifetime counters when it was made. -/
structure CallNote where
  call : VendorCall
  result : Int
  enabled : Bool
  references : Nat
  deriving DecidableEq, Repr

/-- What happens to an RRAM transaction: a START, 16 bytes written at an address, an
error recorded, the close requested. -/
inductive RramNote where
  | granted
  | wrote (address : Nat)
  | failed (code : Int)
  | closeRequested
  deriving DecidableEq, Repr

/-- A transaction of `nrfkit_rram_submit`: its arguments, the memory when it was
accepted, how many bytes have been written and read back, and what happened since. -/
structure Transaction where
  region : RramRegion := ⟨0, 0⟩
  address : Nat := 0
  size : Nat := 0
  data : Nat → UInt8 := fun _ => 0
  before : Nat → UInt8 := fun _ => 0
  written : Nat := 0
  notes : List RramNote := []

/-- The error a note records. -/
def RramNote.code : RramNote → Option Int
  | .failed code => some code
  | _ => none

/-- The record of a run. `serial` is the number of the session opened last and `closing` of
the one whose CLOSED signal came last; `submitted` are the arguments of the submission that
copied its data last, `transaction` is the submission accepted last. `errors` are those
recorded since data was copied last, and `closedErrors` those that were when the storage
session closed last. -/
structure Ghost where
  serial : Nat := 0
  closing : Nat := 0
  sessions : List SessionNote := []
  acceptedMarginUs : UInt32 := 0
  calls : List CallNote := []
  transactions : Nat := 0
  submitted : Transaction := {}
  transaction : Transaction := {}
  errors : List Int := []
  closedErrors : List Int := []

/-- Where a record with one more note splits: at the new note, or before it. -/
theorem record_split {N : Type} {notes earlier later : List N} {n x : N}
    (h : notes ++ [n] = earlier ++ x :: later) :
    (later = [] ∧ notes = earlier ∧ n = x) ∨
      ∃ later', later = later' ++ [n] ∧ notes = earlier ++ x :: later' := by
  rcases List.eq_nil_or_concat later with rfl | ⟨later', last, rfl⟩
  · obtain ⟨he, hlast⟩ := List.append_inj' h rfl
    exact Or.inl ⟨rfl, he, List.head_eq_of_cons_eq hlast⟩
  · rw [List.concat_eq_append, ← List.cons_append, ← List.append_assoc] at h
    obtain ⟨he, hlast⟩ := List.append_inj' h rfl
    rw [List.concat_eq_append, ← List.head_eq_of_cons_eq hlast]
    exact Or.inr ⟨later', rfl, he⟩

/-! ## The machine -/

structure Machine where
  ts : Timeslot := {}
  pf : Platform := {}
  rram : Rram := {}
  radioOwner : RadioOwner := .ownerNone
  timer0 : Timer0 := {}
  radio : Radio := {}
  hw : Hardware := {}
  mpsl : Mpsl := {}
  ghost : Ghost := {}

/-- The machine at reset: the static variables as the C files initialise them, the
hardware in any state, and an empty transaction on record. -/
def Machine.reset (hw : Hardware) (radio : Radio) (timer0 : Timer0) : Machine :=
  { hw := hw, radio := radio, timer0 := timer0,
    ghost := { transaction := { before := hw.memory } } }

/-- A program of the firmware returning `α`. -/
abbrev FTurn (α : Type) := Turn Machine Query Answer α

namespace Machine

/-- What MPSL does to its own state, and the call to the caller's variables, when
`call` is decided with `reply`. -/
def vendorEffect (m : Machine) (call : VendorCall) (reply : VendorReply) : Machine :=
  match call with
  | .timeslotSessionOpen =>
    { m with
      ts := { m.ts with sessionId := reply.value }
      mpsl := { m.mpsl with session := if reply.result = 0 then some reply.value
        else m.mpsl.session } }
  | .timeslotRequest lengthUs marginUs =>
    if reply.result = 0 then
      { m with
        mpsl := { m.mpsl with requests := m.mpsl.requests ++ [lengthUs] }
        ghost := { m.ghost with acceptedMarginUs := marginUs } }
    else m
  | .rramSessionOpen =>
    { m with
      rram := { m.rram with session := reply.value }
      mpsl := { m.mpsl with
        rramSession := if reply.result = 0 then some reply.value else m.mpsl.rramSession } }
  | .rramRequest =>
    if reply.result = 0 then { m with mpsl := { m.mpsl with rramRequested := true } } else m
  | .rramSessionClose =>
    if reply.result = 0 then { m with mpsl := { m.mpsl with rramClosing := true } } else m
  | _ => m

/-- The record of a vendor call. -/
def noteCall (m : Machine) (call : VendorCall) (result : Int) : Machine :=
  { m with ghost := { m.ghost with calls := m.ghost.calls ++
      [⟨call, result, m.pf.enabled, m.pf.mpslClientReferences⟩] } }

/-- A vendor function without a result. -/
def callVoid (m : Machine) (call : VendorCall) : Machine := m.noteCall call 0

def noteSession (m : Machine) (n : SessionNote) : Machine :=
  { m with ghost := { m.ghost with sessions := m.ghost.sessions ++ [n] } }

def noteRram (m : Machine) (n : RramNote) : Machine :=
  { m with ghost := { m.ghost with
      transaction := { m.ghost.transaction with notes := m.ghost.transaction.notes ++ [n] }
      errors := m.ghost.errors ++ n.code.toList } }

def noteWritten (m : Machine) (size : Nat) : Machine :=
  { m with ghost := { m.ghost with transaction :=
      { m.ghost.transaction with written := m.ghost.transaction.written + size } } }

end Machine

/-- A call into a vendor library: its result is decided, then interrupts may come
before it returns. -/
def vendorCall {α : Type} (call : VendorCall) (m : Machine)
    (k : VendorReply → Machine → FTurn α) : FTurn α :=
  .wait m (.vendor call) fun reply m =>
    .wait ((m.vendorEffect call reply).noteCall call reply.result) (.within call reply.result)
      fun _ m => k reply m

end NrfKit.Firmware
