import NrfKit.Firmware.Platform

/- `src/runtime/nrfx/rram.c`: one bounded RRAM transaction over the second MPSL session.
   `nrfkitRramProcess` runs in main context and may be interrupted between any two of
   its statements and of the reads inside one (`preempt`). RRAMC answers are waits: ready
   or not, ready before 450 us have passed (else the firmware resets), and what the 16
   bytes of a committed unit hold. -/
namespace NrfKit.Firmware
open Interleave

variable (V : Vendor)

def slotUs : UInt32 := 600
def timeoutUs : UInt32 := 2000000
def rramMaxWrite : UInt32 := 256
def rramLimit : UInt32 := 0x001FD000

/-! ## Words -/

/-- Four bytes, lowest address first. -/
abbrev Word := Nat → UInt8

def loadWord (memory : Nat → UInt8) (a : Nat) : Word := fun j => memory (a + j)

def storeWord (memory : Nat → UInt8) (a : Nat) (w : Word) : Nat → UInt8 :=
  fun x => if a ≤ x ∧ x < a + 4 then w (x - a) else memory x

def wordEq (v w : Word) : Bool := (List.range 4).all (fun j => v j == w j)

/-- `for (i = 0; i < 4; ++i) target[i] = buffer[offset / 4 + i];`. -/
def storeUnit (memory : Nat → UInt8) (target : Nat) (buffer : Nat → UInt8) (offset : Nat) :
    Nat → UInt8 :=
  (List.range 4).foldl
    (fun memory i =>
      storeWord memory (target + 4 * i) (loadWord buffer (4 * (offset / 4 + i)))) memory

/-- The read-back: every word of the unit equals its source. -/
def unitReadsBack (memory : Nat → UInt8) (target : Nat) (buffer : Nat → UInt8)
    (offset : Nat) : Bool :=
  (List.range 4).all
    (fun i => wordEq (loadWord memory (target + 4 * i)) (loadWord buffer (4 * (offset / 4 + i))))

/-- The RRAM once RRAMC has committed the unit: those 16 bytes hold what it stored. -/
def commitUnit (memory : Nat → UInt8) (target : Nat) (held : Nat → UInt8) : Nat → UInt8 :=
  fun x => if target ≤ x ∧ x < target + 16 then held (x - target) else memory x

/-! ## One unit -/

/-- Poll RRAMC; if it is not ready within 450 us the firmware resets. -/
def waitReady {α : Type} (target : Option Nat) (m : Machine) (k : Machine → FTurn α) : FTurn α :=
  .wait m (.rramWait target) fun ready m => if ready then k m else .halt m

/-- The address `destination + offset` of the next unit. -/
def unitTarget (r : Rram) : Nat := (r.destination + r.offset).toNat

def writeUnit (m : Machine) : FTurn Int :=
  .wait m .rramReady fun ready m =>
    if !ready then .done m (-V.eagain)
    else
      let savedConfig := m.hw.rramcConfig
      let savedPower := m.hw.rramcPowerConfig
      let savedTimeout := m.hw.rramcReadyNextTimeout
      let m := { m with hw := { m.hw with
        rramcPowerConfig := V.rramcPowerConfig
        rramcReadyNextTimeout := V.rramcReadyNextTimeout
        rramcConfig := V.rramcConfigWrite } }
      waitReady none m fun m =>
        let target := unitTarget m.rram
        let m := { m with hw := { m.hw with
          memory := storeUnit m.hw.memory target m.rram.buffer m.rram.offset.toNat } }
        .wait (m.noteRram (.wrote target)) (.rramStored target) fun held m =>
          let m := { m with hw := { m.hw with memory := commitUnit m.hw.memory target held } }
          waitReady (some target) m fun m =>
            let verified := unitReadsBack m.hw.memory target m.rram.buffer m.rram.offset.toNat
            .done { m with hw := { m.hw with
              rramcConfig := savedConfig
              rramcReadyNextTimeout := savedTimeout
              rramcPowerConfig := savedPower } } (if verified then 0 else -V.eio)

/-! ## The callback -/

/-- `operation_result = status`, recorded when it is an error. -/
def setOperationResult (status : Int) (m : Machine) : Machine :=
  let m := { m with rram := { m.rram with operationResult := status } }
  if status ≠ 0 then m.noteRram (.failed status) else m

/-- Return `&response` with the given action stored in it. -/
def respond (action : CallbackAction) (m : Machine) : FTurn SignalReturn :=
  let response : SignalReturn := { m.rram.response with callbackAction := action }
  .done { m with rram := { m.rram with response := response } } response

/-- The MPSL_TIMESLOT_SIGNAL_START branch. -/
def grantUnit (m : Machine) : FTurn SignalReturn :=
  let written : FTurn Unit :=
    if m.rram.operationResult = 0 ∧ m.rram.remaining ≠ 0 then
      (writeUnit V m).bind fun status m =>
        let m := setOperationResult status m
        if status = 0 then
          let m := { m with rram := { m.rram with
            offset := m.rram.offset + 16
            remaining := m.rram.remaining - 16
            retry := false } }
          .done (m.noteWritten 16) ()
        else .done m ()
    else .done m ()
  written.bind fun _ m => respond .actionEnd m

/-- The MPSL_TIMESLOT_SIGNAL_SESSION_CLOSED branch. -/
def closeRramSession (m : Machine) : FTurn SignalReturn :=
  let m := { m with rram := { m.rram with opened := false, closing := false } }
  let m := nrfkitMpslTimeslotRelease m
  respond .actionNone { m with
    rram := { m.rram with result := m.rram.operationResult }
    ghost := { m.ghost with closedErrors := m.ghost.errors } }

def rramCallback (id : Nat) (signal : MpslSignal) (m : Machine) : FTurn SignalReturn :=
  if id ≠ m.rram.session then respond .actionNone m
  else match signal with
    | .start => grantUnit V m
    | .blocked | .cancelled =>
      respond .actionNone { m with rram := { m.rram with retry := true, idle := true } }
    | .sessionIdle => respond .actionNone { m with rram := { m.rram with idle := true } }
    | .sessionClosed => closeRramSession m
    | _ => respond .actionNone (setOperationResult (-V.eio) m)

theorem rramCallback_closed {m : Machine} {id : Nat} (h : m.rram.session = id) :
    rramCallback V id .sessionClosed m = closeRramSession m := by
  unfold rramCallback
  rw [if_neg (by simp [h])]

/-! ## API -/

/-- The argument check of `nrfkit_rram_submit`; `data` says that the pointer is not NULL. -/
def submitInvalid (region : Option RramRegion) (address : UInt32) (data : Bool)
    (size : UInt32) : Bool :=
  match region with
  | none => true
  | some region =>
    !data || size == 0 || rramMaxWrite < size || address % 16 != 0 || size % 16 != 0 ||
      rramLimit ≤ region.origin || region.length == 0 ||
      rramLimit - region.origin < region.length ||
      address < region.origin || region.length < address - region.origin ||
      region.length - (address - region.origin) < size

def nrfkitRramSubmit (region : Option RramRegion) (address : UInt32) (data : Bool) (size : UInt32)
    (m : Machine) : FTurn Int :=
  if submitInvalid region address data size then .done m (-V.einval)
  else if m.rram.result = -V.einprogress ∨ m.rram.opened = true then .done m (-V.eagain)
  else if !nrfkitMpslIsInitialized m then .done m (-V.eperm)
  else
    let retained := nrfkitMpslTimeslotRetain V m
    if retained.1 ≠ 0 then .done retained.2 retained.1
    else
      let m := retained.2
      let copied := m.hw.callerData
      let m := { m with rram := { m.rram with
        buffer := fun i => if i < size.toNat then copied i else m.rram.buffer i
        destination := address
        remaining := size
        offset := 0
        operationResult := 0
        idle := true
        closing := false
        retry := false } }
      let m := { m with ghost := { m.ghost with
        submitted := {
          region := region.getD ⟨0, 0⟩
          address := address.toNat
          size := size.toNat
          data := copied }
        errors := [] } }
      vendorCall .rramSessionOpen m fun reply m =>
        if reply.result ≠ 0 then .done (nrfkitMpslTimeslotRelease m) reply.result
        else
          let m := { m with rram := { m.rram with
            started := m.hw.grtcCounter
            opened := true
            result := -V.einprogress } }
          .done { m with ghost := { m.ghost with
            transactions := m.ghost.transactions + 1
            transaction := { m.ghost.submitted with before := m.hw.memory } } } 0

/-- Interrupts may come here. -/
def preempt {α : Type} (stopping : Bool) (m : Machine) (k : Machine → FTurn α) : FTurn α :=
  .wait m (.statement stopping) fun _ m => k m

/-- The close branch of `nrfkit_rram_process`. -/
def requestClose (m : Machine) : FTurn Unit :=
  preempt true { m with rram := { m.rram with closing := true } } fun m =>
    vendorCall .rramSessionClose (m.noteRram .closeRequested) fun reply m =>
      if reply.result ≠ 0 then
        preempt true { m with rram := { m.rram with closing := false } } fun m =>
          .done (setOperationResult reply.result m) ()
      else .done m ()

/-- The request branch of `nrfkit_rram_process`. -/
def requestGrant (m : Machine) : FTurn Unit :=
  let priority : Priority := if m.rram.retry then .high else .normal
  preempt false { m with rram := { m.rram with
      request := .earliest .xtalGuaranteed priority slotUs 100000 } } fun m =>
    preempt false { m with rram := { m.rram with idle := false } } fun m =>
      vendorCall .rramRequest m fun reply m =>
        if reply.result ≠ 0 then
          preempt false (setOperationResult reply.result m) fun m =>
            .done { m with rram := { m.rram with idle := true } } ()
        else .done m ()

def nrfkitRramProcess (m : Machine) : FTurn Unit :=
  if !m.rram.opened then .done m ()
  else preempt false m fun m =>
    if m.rram.closing then .done m ()
    else preempt false m fun m =>
      let checked : FTurn Unit :=
        if timeoutUs ≤ m.hw.grtcCounter - m.rram.started then
          preempt false m fun m => .done (setOperationResult (-V.etimedout) m) ()
        else .done m ()
      checked.bind fun _ m => preempt false m fun m =>
        if m.rram.operationResult ≠ 0 then preempt true m requestClose
        else preempt false m fun m =>
          if m.rram.remaining = 0 then preempt true m requestClose
          else preempt false m fun m =>
            if m.rram.idle then preempt false m requestGrant else .done m ()

def nrfkitRramResult (m : Machine) : Int := m.rram.result

/-! ## MPSL's side of a signal -/

/-- START consumes the accepted request, and a closed session has none. -/
def mpslBeforeRramSignal (id : Nat) (signal : MpslSignal) (s : Mpsl) : Mpsl :=
  if s.rramSession ≠ some id then s
  else match signal with
    | .start => { s with rramRequested := false }
    | .sessionClosed => { s with rramSession := none, rramRequested := false, rramClosing := false }
    | _ => s

/-- MPSL signals the storage session; a START is recorded. -/
def raiseRramSignal (id : Nat) (signal : MpslSignal) (m : Machine) : Machine :=
  let m := { m with mpsl := mpslBeforeRramSignal id signal m.mpsl }
  if signal = .start then m.noteRram .granted else m

theorem raiseRramSignal_start {m : Machine} {id : Nat} (h : m.mpsl.rramSession = some id) :
    raiseRramSignal id .start m =
      { m with mpsl := { m.mpsl with rramRequested := false } }.noteRram .granted := by
  unfold raiseRramSignal mpslBeforeRramSignal
  rw [if_neg (not_not_intro h)]
  rfl

theorem raiseRramSignal_closed {m : Machine} {id : Nat} (h : m.mpsl.rramSession = some id) :
    raiseRramSignal id .sessionClosed m = { m with mpsl := { m.mpsl with
      rramSession := none, rramRequested := false, rramClosing := false } } := by
  unfold raiseRramSignal mpslBeforeRramSignal
  rw [if_neg (not_not_intro h)]
  rfl

theorem raiseRramSignal_other {m : Machine} {id : Nat} {signal : MpslSignal} (h1 : signal ≠ .start)
    (h2 : signal ≠ .sessionClosed) : raiseRramSignal id signal m = m := by
  unfold raiseRramSignal mpslBeforeRramSignal
  rw [if_neg h1]
  split
  · rfl
  · cases signal with
    | start => exact absurd rfl h1
    | sessionClosed => exact absurd rfl h2
    | _ => rfl

/-- A signal as MPSL delivers it to the storage session. -/
def deliverRram (id : Nat) (signal : MpslSignal) (m : Machine) : FTurn SignalReturn :=
  rramCallback V id signal (raiseRramSignal id signal m)

end NrfKit.Firmware
