import NrfKit.Firmware.Ownership
import NrfKit.Firmware.Platform

/- `src/wireless/timeslot/nrf54l/timeslot.c`: the Timeslot backend. `timeslotCallback`
   runs on every MPSL signal; it waits only while the application's handler runs.
   `deliverTimeslot` is MPSL's side of a signal: what MPSL changes of its own state
   before it calls back and what the returned action makes it do. -/
namespace NrfKit.Firmware
open Interleave

variable (V : Vendor)

def minimumCleanupMarginUs : UInt32 := 100

/-! ## Grants -/

/-- The poll loop of `cleanup_grant`: it reads STATE until DISABLED, `remaining` times at
most. -/
def pollDisabled : Nat → Radio → Radio
  | 0, r => r
  | remaining + 1, r => if r.isDisabled then r.stateRead else pollDisabled remaining r.stateRead

/-- The RADIO after `cleanup_grant` has asked it to stop. -/
def stopRadio (r : Radio) : Radio :=
  if r.isDisabled then r.stateRead else pollDisabled 1024 r.stateRead

def cleanupGrant (m : Machine) : Machine :=
  if !m.ts.grantActive then m
  else
    let m := { m with
      timer0 := { m.timer0 with compareInt := false, compareEvent := false }
      radio := stopRadio { m.radio with intEnabled := 0, shorts := 0 } }
    -- the result of the release is ignored
    let m := (nrfkitRadioRelease .timeslot m).2
    { m with ts := { m.ts with grantActive := false } }

/-- Ending a grant touches the grant's flag, the deadline's event and interrupt, and the
RADIO. -/
theorem cleanupGrant_eq (m : Machine) : ∃ t r o, t.cc = m.timer0.cc ∧
    cleanupGrant m = { m with
      ts := { m.ts with grantActive := false }, timer0 := t, radio := r, radioOwner := o } := by
  unfold cleanupGrant
  split
  · rename_i hg
    have hg : m.ts.grantActive = false := by simpa using hg
    refine ⟨m.timer0, m.radio, m.radioOwner, rfl, ?_⟩
    rw [← hg]
  · obtain ⟨o, r, hr⟩ := release_eq .timeslot { m with
      timer0 := { m.timer0 with compareInt := false, compareEvent := false }
      radio := stopRadio { m.radio with intEnabled := 0, shorts := 0 } }
    refine ⟨{ m.timer0 with compareInt := false, compareEvent := false }, r, o, rfl, ?_⟩
    dsimp only at hr ⊢
    rw [hr]

def translateSignal : MpslSignal → Signal
  | .start => .start
  | .timer0 => .timer
  | .radio => .radio
  | .extendSucceeded => .extendSucceeded
  | .extendFailed => .extendFailed
  | .blocked => .blocked
  | .cancelled => .cancelled
  | .sessionIdle => .idle
  | .invalidReturn => .invalidReturn
  | .sessionClosed => .closed
  | .overstayed | .other _ => .overstayed

def validLength (lengthUs : UInt32) : Bool :=
  V.timeslotLengthMinUs ≤ lengthUs && lengthUs ≤ V.timeslotLengthMaxUs

def armDeadline (m : Machine) : Machine :=
  { m with timer0 := {
      compareEvent := false
      cc := m.ts.grantLengthUs - m.ts.cleanupMarginUs
      compareInt := true } }

/-! ## Returning to MPSL -/

/-- Return `&signal_return` with the given action stored in it. -/
def returnAction (action : CallbackAction) (m : Machine) : FTurn SignalReturn :=
  let signalReturn : SignalReturn := { m.ts.signalReturn with callbackAction := action }
  .done { m with ts := { m.ts with signalReturn := signalReturn } } signalReturn

def returnNone (m : Machine) : FTurn SignalReturn := returnAction .actionNone m

def endGrant (m : Machine) : FTurn SignalReturn := returnAction .actionEnd (cleanupGrant m)

def handleAction (action : Action) (m : Machine) : FTurn SignalReturn :=
  if m.ts.sessionClosing || action.kind == .actionEnd then endGrant m
  else if action.kind == .actionNone then returnNone m
  else if action.kind == .actionExtend && V.timeslotExtensionTimeMinUs ≤ action.lengthUs then
    let signalReturn : SignalReturn :=
      { m.ts.signalReturn with callbackAction := .actionExtend, extendLengthUs := action.lengthUs }
    .done { m with ts := { m.ts with
      pendingExtensionUs := action.lengthUs
      signalReturn := signalReturn } } signalReturn
  else if action.kind == .actionRequestNormal && validLength V action.lengthUs &&
      action.distanceUs ≤ V.timeslotDistanceMaxUs && m.ts.cleanupMarginUs < action.lengthUs then
    let m := cleanupGrant m
    let signalReturn : SignalReturn :=
      { m.ts.signalReturn with callbackAction := .actionRequest, pNext := true }
    .done { m with ts := { m.ts with
      nextRequest := .normal .xtalGuaranteed .normal action.distanceUs action.lengthUs
      grantLengthUs := action.lengthUs
      signalReturn := signalReturn } } signalReturn
  else endGrant m

/-! ## The callback -/

/-- Call `application_handler(signal, application_context)`; a NULL handler faults. -/
def callHandler {α : Type} (cause : MpslSignal) (deadline : Bool) (m : Machine)
    (k : Action → Machine → FTurn α) : FTurn α :=
  match m.ts.applicationHandler with
  | none => .halt m
  | some h =>
    .wait (m.noteSession (.invoked m.ghost.serial h (translateSignal cause)))
      (.handler h cause deadline) k

/-- The MPSL_TIMESLOT_SIGNAL_SESSION_CLOSED branch. -/
def closeSession (m : Machine) : FTurn SignalReturn :=
  let m := cleanupGrant m
  let m := { m with ghost := { m.ghost with closing := m.ghost.serial } }
  let m := { m with ts := { m.ts with
    sessionOpen := false, sessionIdle := false, sessionClosing := false } }
  let notified : FTurn Unit :=
    if m.ts.applicationHandler.isSome then callHandler .sessionClosed false m fun _ m => .done m ()
    else .done m ()
  notified.bind fun _ m =>
    let m := { m with ts := { m.ts with applicationHandler := none, applicationContext := 0 } }
    let m := nrfkitMpslTimeslotRelease m
    returnNone (m.noteSession (.released m.ghost.closing))

/-- The end of the callback: notify the application and act on its answer. -/
def notifyApplication (signal : MpslSignal) (m : Machine) : FTurn SignalReturn :=
  callHandler signal false m fun action m =>
    if signal == .blocked || signal == .cancelled || signal == .sessionIdle ||
        signal == .overstayed || signal == .invalidReturn then returnNone m
    else if signal == .extendFailed then endGrant m
    else handleAction V action m

def timeslotCallback (callbackSessionId : Nat) (signal : MpslSignal) (m : Machine) :
    FTurn SignalReturn :=
  if callbackSessionId ≠ m.ts.sessionId then returnNone m
  else if signal = .sessionClosed then closeSession m
  else
    -- MPSL permits a new request after a blocked or cancelled one as well
    let m := if signal = .sessionIdle ∨ signal = .blocked ∨ signal = .cancelled then
        { m with ts := { m.ts with sessionIdle := true } }
      else m
    if signal = .start then
      let acquired := nrfkitRadioAcquire .timeslot m
      if acquired.1 ≠ radioOk then endGrant acquired.2
      else
        let m := acquired.2
        notifyApplication V signal (armDeadline { m with ts := { m.ts with grantActive := true } })
    else if signal = .timer0 ∧ m.timer0.compareEvent = true then
      let m := { m with timer0 := { m.timer0 with compareEvent := false } }
      callHandler .timer0 true m fun action m =>
        if action.kind == .actionNone then endGrant m else handleAction V action m
    else if signal = .extendSucceeded then
      notifyApplication V signal (armDeadline { m with ts := { m.ts with
        grantLengthUs := m.ts.grantLengthUs + m.ts.pendingExtensionUs
        pendingExtensionUs := 0 } })
    else if signal = .extendFailed ∨ signal = .overstayed ∨ signal = .invalidReturn then
      notifyApplication V signal (cleanupGrant m)
    else notifyApplication V signal m

/-! What the callback does on each signal of the open session. -/

section
variable {m : Machine} {id : Nat}

theorem timeslotCallback_closed (h : m.ts.sessionId = id) :
    timeslotCallback V id .sessionClosed m = closeSession m := by
  unfold timeslotCallback
  rw [if_neg (by simp [h]), if_pos rfl]

theorem timeslotCallback_idle {signal : MpslSignal}
    (hs : signal = .sessionIdle ∨ signal = .blocked ∨ signal = .cancelled)
    (h : m.ts.sessionId = id) :
    timeslotCallback V id signal m =
      notifyApplication V signal { m with ts := { m.ts with sessionIdle := true } } := by
  unfold timeslotCallback
  obtain rfl | rfl | rfl := hs <;> simp [h]

theorem timeslotCallback_start (h : m.ts.sessionId = id) :
    timeslotCallback V id .start m =
      if (nrfkitRadioAcquire .timeslot m).1 ≠ radioOk then
        endGrant (nrfkitRadioAcquire .timeslot m).2
      else notifyApplication V .start (armDeadline { (nrfkitRadioAcquire .timeslot m).2 with
        ts := { (nrfkitRadioAcquire .timeslot m).2.ts with grantActive := true } }) := by
  unfold timeslotCallback
  simp [h]

theorem timeslotCallback_timer0 (h : m.ts.sessionId = id) :
    timeslotCallback V id .timer0 m =
      if m.timer0.compareEvent = true then
        callHandler .timer0 true { m with timer0 := { m.timer0 with compareEvent := false } }
          fun action m => if action.kind == .actionNone then endGrant m else handleAction V action m
      else notifyApplication V .timer0 m := by
  unfold timeslotCallback
  simp [h]

theorem timeslotCallback_extendSucceeded (h : m.ts.sessionId = id) :
    timeslotCallback V id .extendSucceeded m =
      notifyApplication V .extendSucceeded (armDeadline { m with ts := { m.ts with
        grantLengthUs := m.ts.grantLengthUs + m.ts.pendingExtensionUs
        pendingExtensionUs := 0 } }) := by
  unfold timeslotCallback
  simp [h]

theorem timeslotCallback_ending {signal : MpslSignal}
    (hs : signal = .extendFailed ∨ signal = .overstayed ∨ signal = .invalidReturn)
    (h : m.ts.sessionId = id) :
    timeslotCallback V id signal m = notifyApplication V signal (cleanupGrant m) := by
  unfold timeslotCallback
  obtain rfl | rfl | rfl := hs <;> simp [h]

theorem timeslotCallback_radio (h : m.ts.sessionId = id) :
    timeslotCallback V id .radio m = notifyApplication V .radio m := by
  unfold timeslotCallback
  simp [h]

theorem timeslotCallback_other {n : Nat} (h : m.ts.sessionId = id) :
    timeslotCallback V id (.other n) m = notifyApplication V (.other n) m := by
  unfold timeslotCallback
  simp [h]

end

/-! ## API -/

def nrfkitTimeslotOpen (handler : Option Handler) (context : Nat) (m : Machine) : FTurn Int :=
  match handler with
  | none => .done m (-V.eperm)
  | some h =>
    if m.ts.sessionOpen || !nrfkitMpslIsInitialized m then .done m (-V.eperm)
    else
      let retained := nrfkitMpslTimeslotRetain V m
      if retained.1 ≠ 0 then .done retained.2 retained.1
      else vendorCall .timeslotSessionOpen retained.2 fun reply m =>
        if reply.result ≠ 0 then .done (nrfkitMpslTimeslotRelease m) reply.result
        else
          let m := { m with ts := { m.ts with
            applicationHandler := some h
            applicationContext := context
            sessionOpen := true
            sessionIdle := true } }
          let m := { m with ghost := { m.ghost with serial := m.ghost.serial + 1 } }
          .done (m.noteSession (.opened m.ghost.serial h)) 0

/-- The parameter check of `nrfkit_timeslot_request_earliest`. -/
def requestInvalid (lengthUs timeoutUs requestedCleanupMarginUs : UInt32) (m : Machine) : Bool :=
  !m.ts.sessionOpen || m.ts.sessionClosing || !validLength V lengthUs ||
    requestedCleanupMarginUs < minimumCleanupMarginUs ||
    requestedCleanupMarginUs < V.timeslotExtensionMarginMinUs ||
    lengthUs ≤ requestedCleanupMarginUs ||
    V.timeslotEarliestTimeoutMaxUs < timeoutUs

theorem request_valid {lengthUs timeoutUs requestedCleanupMarginUs : UInt32} {m : Machine}
    (h : requestInvalid V lengthUs timeoutUs requestedCleanupMarginUs m ≠ true) :
    m.ts.sessionOpen = true ∧ m.ts.sessionClosing = false ∧
      requestedCleanupMarginUs < lengthUs := by
  unfold requestInvalid at h
  simp only [ne_eq, Bool.not_eq_true, Bool.or_eq_false_iff, Bool.not_eq_false',
    decide_eq_false_iff_not, UInt32.not_le] at h
  exact ⟨h.1.1.1.1.1.1, h.1.1.1.1.1.2, h.1.2⟩

def nrfkitTimeslotRequestEarliest (lengthUs timeoutUs requestedCleanupMarginUs : UInt32)
    (m : Machine) : FTurn Int :=
  if requestInvalid V lengthUs timeoutUs requestedCleanupMarginUs m then .done m (-V.einval)
  else if !m.ts.sessionIdle then .done m (-V.eagain)
  else
    let previousLengthUs := m.ts.grantLengthUs
    let previousMarginUs := m.ts.cleanupMarginUs
    let previousRequest := m.ts.nextRequest
    -- START may interrupt the vendor call, so the parameters are published first
    let m := { m with ts := { m.ts with
      sessionIdle := false
      grantLengthUs := lengthUs
      cleanupMarginUs := requestedCleanupMarginUs
      nextRequest := .earliest .xtalGuaranteed .normal lengthUs timeoutUs } }
    vendorCall (.timeslotRequest lengthUs requestedCleanupMarginUs) m fun reply m =>
      if reply.result ≠ 0 then
        .done { m with ts := { m.ts with
          grantLengthUs := previousLengthUs
          cleanupMarginUs := previousMarginUs
          nextRequest := previousRequest
          sessionIdle := true } } reply.result
      else .done m reply.result

def nrfkitTimeslotClose (m : Machine) : FTurn Int :=
  if !m.ts.sessionOpen || m.ts.sessionClosing then .done m (-V.eagain)
  else vendorCall .timeslotSessionClose { m with ts := { m.ts with sessionClosing := true } }
    fun reply m =>
      if reply.result ≠ 0 then
        .done { m with ts := { m.ts with sessionClosing := false } } reply.result
      else .done m reply.result

def nrfkitTimeslotIsOpen (m : Machine) : Bool := m.ts.sessionOpen

def nrfkitTimeslotIsGranted (m : Machine) : Bool := m.ts.grantActive

def nrfkitTimeslotDeadlinePending (m : Machine) : Bool := m.ts.grantActive && m.timer0.compareEvent

/-! ## MPSL's side of a signal -/

/-- START takes the oldest accepted request, a granted extension is added to the running
grant (a refused one is forgotten), an overstayed or invalid return ends the grant, and
a closed session has nothing left. -/
def mpslSignalled (signal : MpslSignal) (s : Mpsl) : Mpsl :=
  match signal with
  | .start => match s.requests with
    | [] => s
    | length :: rest => { s with requests := rest, grants := { requested := length } :: s.grants }
  | .extendSucceeded => match s.grants with
    | ⟨requested, extensions, some x⟩ :: rest =>
      { s with grants := ⟨requested, x :: extensions, none⟩ :: rest }
    | _ => s
  | .extendFailed => { s with grants := match s.grants with
    | g :: rest => { g with offer := none } :: rest
    | [] => [] }
  | .overstayed | .invalidReturn => { s with grants := [] }
  | .sessionClosed => { s with session := none, requests := [], grants := [] }
  | _ => s

/-- MPSL's state as it signals session `id`. -/
def mpslBeforeSignal (id : Nat) (signal : MpslSignal) (s : Mpsl) : Mpsl :=
  if s.session ≠ some id then s else mpslSignalled signal s

theorem mpslBeforeSignal_open {id : Nat} {signal : MpslSignal} {s : Mpsl}
    (h : s.session = some id) :
    mpslBeforeSignal id signal s = mpslSignalled signal s := by
  unfold mpslBeforeSignal
  rw [if_neg (by simp [h])]

/-- What MPSL does with the action a callback returned: END ends the grant, REQUEST ends
it and accepts the next request, EXTEND is an extension to decide. -/
def mpslAfterReturn (p : SignalReturn) (next : Request) (s : Mpsl) : Mpsl :=
  match p.callbackAction with
  | .actionNone => s
  | .actionEnd => { s with grants := s.grants.tail }
  | .actionRequest => { s with grants := s.grants.tail, requests := s.requests ++ [next.lengthUs] }
  | .actionExtend => match s.grants with
    | g :: rest => { s with grants := { g with offer := some p.extendLengthUs } :: rest }
    | [] => s

/-- A signal as MPSL delivers it. -/
def deliverTimeslot (id : Nat) (signal : MpslSignal) (m : Machine) : FTurn SignalReturn :=
  (timeslotCallback V id signal { m with mpsl := mpslBeforeSignal id signal m.mpsl }).bind
    fun p m => .done { m with mpsl := mpslAfterReturn p m.ts.nextRequest m.mpsl } p

end NrfKit.Firmware
