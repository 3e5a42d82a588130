import NrfKit.Lib.Call
import NrfKit.Firmware.Frames

/- `nrfkit_timeslot_request_earliest` from its entry to its return. It publishes the
   parameters before MPSL has accepted them, since START may interrupt the vendor call,
   and takes them back if MPSL refuses. The state it is called in is arbitrary, and so is
   what runs over it: MPSL's signals for the storage session, interrupts, ownership calls
   and the hardware, and START and what follows it where the call succeeds. -/
namespace NrfKit.Firmware
open Interleave

variable (V : Vendor)

/-! ## The request -/

/-- The timeslot state of the backend and the armed deadline. -/
structure RequestState where
  sessionOpen : Bool
  sessionIdle : Bool
  sessionClosing : Bool
  grantActive : Bool
  grantLengthUs : UInt32
  cleanupMarginUs : UInt32
  pendingExtensionUs : UInt32
  nextRequest : Request
  deadlineUs : UInt32
  armed : Bool

def requestState (m : Machine) : RequestState where
  sessionOpen := m.ts.sessionOpen
  sessionIdle := m.ts.sessionIdle
  sessionClosing := m.ts.sessionClosing
  grantActive := m.ts.grantActive
  grantLengthUs := m.ts.grantLengthUs
  cleanupMarginUs := m.ts.cleanupMarginUs
  pendingExtensionUs := m.ts.pendingExtensionUs
  nextRequest := m.ts.nextRequest
  deadlineUs := m.timer0.cc
  armed := m.timer0.compareInt

/-- What may be requested, over the integers, and when. -/
structure Requestable (lengthUs timeoutUs marginUs : UInt32) (m : Machine) : Prop where
  session : m.ts.sessionOpen = true ∧ m.ts.sessionClosing = false ∧ m.ts.sessionIdle = true
  length : V.timeslotLengthMinUs.toNat ≤ lengthUs.toNat ∧
    lengthUs.toNat ≤ V.timeslotLengthMaxUs.toNat
  margin : 100 ≤ marginUs.toNat ∧ V.timeslotExtensionMarginMinUs.toNat ≤ marginUs.toNat ∧
    marginUs.toNat < lengthUs.toNat
  timeout : timeoutUs.toNat ≤ V.timeslotEarliestTimeoutMaxUs.toNat

/-- The variables as published for the vendor call. -/
def publish (lengthUs timeoutUs marginUs : UInt32) (ts : Timeslot) : Timeslot :=
  { ts with
    sessionIdle := false
    grantLengthUs := lengthUs
    cleanupMarginUs := marginUs
    nextRequest := .earliest .xtalGuaranteed .normal lengthUs timeoutUs }

/-- The variables of the backend and the deadline, which only the session's own signals move. -/
def backend (m : Machine) : Timeslot × UInt32 × Bool := (m.ts, m.timer0.cc, m.timer0.compareInt)

/-- What a call leaves alone of them. -/
def unpublished (b : Timeslot × UInt32 × Bool) : Bool × Bool × Bool × UInt32 × UInt32 × Bool :=
  (b.1.sessionOpen, b.1.sessionClosing, b.1.grantActive, b.1.pendingExtensionUs, b.2.1, b.2.2)

/-- The parameters and `session_idle` are as in `m`. -/
def RolledBack (m m' : Machine) : Prop :=
  m'.ts.sessionIdle = m.ts.sessionIdle ∧ m'.ts.grantLengthUs = m.ts.grantLengthUs ∧
    m'.ts.cleanupMarginUs = m.ts.cleanupMarginUs ∧ m'.ts.nextRequest = m.ts.nextRequest

section
variable {V} {lengthUs timeoutUs marginUs : UInt32} {m : Machine}

theorem requestable_iff : Requestable V lengthUs timeoutUs marginUs m ↔
    requestInvalid V lengthUs timeoutUs marginUs m = false ∧ m.ts.sessionIdle = true := by
  have hmargin : minimumCleanupMarginUs.toNat = 100 := rfl
  simp only [requestInvalid, validLength, Bool.or_eq_false_iff, Bool.not_eq_false',
    Bool.and_eq_true, decide_eq_true_eq, decide_eq_false_iff_not, UInt32.lt_iff_toNat_lt,
    UInt32.le_iff_toNat_le, Nat.not_lt, Nat.not_le, hmargin]
  constructor
  · rintro ⟨⟨hopen, hclosing, hidle⟩, hlength, ⟨hleast, hextension, hinside⟩, htimeout⟩
    exact ⟨⟨⟨⟨⟨⟨⟨hopen, hclosing⟩, hlength⟩, hleast⟩, hextension⟩, hinside⟩, htimeout⟩, hidle⟩
  · rintro ⟨⟨⟨⟨⟨⟨⟨hopen, hclosing⟩, hlength⟩, hleast⟩, hextension⟩, hinside⟩, htimeout⟩, hidle⟩
    exact ⟨⟨hopen, hclosing, hidle⟩, hlength, ⟨hleast, hextension, hinside⟩, htimeout⟩

/-- All the function can do: refuse with nothing changed, or call MPSL with the parameters
published and take them back if it refuses. -/
theorem requestEarliest_cases :
    (∃ r, r ≠ 0 ∧ nrfkitTimeslotRequestEarliest V lengthUs timeoutUs marginUs m = .done m r) ∨
    Requestable V lengthUs timeoutUs marginUs m ∧
    nrfkitTimeslotRequestEarliest V lengthUs timeoutUs marginUs m =
      vendorCall (.timeslotRequest lengthUs marginUs)
        { m with ts := publish lengthUs timeoutUs marginUs m.ts }
        fun reply m' => if reply.result ≠ 0 then
          .done { m' with ts := { m'.ts with
            grantLengthUs := m.ts.grantLengthUs
            cleanupMarginUs := m.ts.cleanupMarginUs
            nextRequest := m.ts.nextRequest
            sessionIdle := true } } reply.result
        else .done m' reply.result := by
  have heinval := V.einval_pos
  have heagain := V.eagain_pos
  unfold nrfkitTimeslotRequestEarliest
  split
  · exact .inl ⟨_, by omega, rfl⟩
  · rename_i hvalid
    split
    · exact .inl ⟨_, by omega, rfl⟩
    · rename_i hidle
      exact .inr ⟨requestable_iff.mpr ⟨Bool.eq_false_iff.mpr hvalid, by simpa using hidle⟩, rfl⟩

/-! ## While MPSL decides -/

/-- Only MPSL's own state and the record know of the decision. -/
theorem vendorEffect_request (m : Machine) (l c : UInt32) (reply : VendorReply) : ∃ mpsl ghost,
    (m.vendorEffect (.timeslotRequest l c) reply).noteCall (.timeslotRequest l c) reply.result =
      { m with mpsl := mpsl, ghost := ghost } := by
  unfold Machine.vendorEffect Machine.noteCall
  dsimp only
  split <;> exact ⟨_, _, rfl⟩

/-- A failed call takes the parameters back, and leaves alone what it does not publish (`X`) as
far as others do. -/
theorem requestEarliest_meets {β : Type} {X : Machine → β} {rely : Machine → Machine → Prop}
    (hrely : ∀ s s', rely s s' → X s' = X s)
    (hX : ∀ m idle length margin next, X { m with ts := { m.ts with
      sessionIdle := idle, grantLengthUs := length, cleanupMarginUs := margin, nextRequest :=
        next } } = X m)
    (hmpsl : ∀ m mpsl ghost, X { m with mpsl := mpsl, ghost := ghost } = X m) :
    ((firmware V).prog (.timeslotRequestEarliest lengthUs timeoutUs marginUs) m).Meets rely
      (fun _ _ => True)
      (fun ret m' => ∃ r, ret = .code r ∧ (r ≠ 0 → X m' = X m ∧ RolledBack m m')) := by
  refine meets_map.mpr ?_
  rcases requestEarliest_cases (V := V) with ⟨r, _, h⟩ | ⟨hr, h⟩
  · rw [h]
    exact ⟨r, rfl, fun _ => ⟨rfl, rfl, rfl, rfl, rfl⟩⟩
  · rw [h]
    refine meets_wait.mpr ⟨trivial, fun reply m1 h1 => meets_wait.mpr ⟨trivial, fun _ m2 h2 => ?_⟩⟩
    obtain ⟨mpsl, ghost, heffect⟩ := vendorEffect_request m1 lengthUs marginUs reply
    rw [heffect] at h2
    dsimp only
    split
    · refine ⟨_, rfl, fun _ => ⟨?_, hr.session.2.2.symm, rfl, rfl, rfl⟩⟩
      calc X _ = X m2 := hX m2 _ _ _ _
        _ = X _ := hrely _ _ h2
        _ = X m1 := hmpsl m1 _ _
        _ = X _ := hrely _ _ h1
        _ = X m := hX m _ _ _ _
    · rename_i hzero
      exact ⟨_, rfl, fun hne => absurd hne hzero⟩

/-- The parameters stay published until MPSL has decided. -/
theorem requestEarliest_published :
    ((firmware V).prog (.timeslotRequestEarliest lengthUs timeoutUs marginUs) m).Meets
      (fun s s' => backend s' = backend s)
      (fun _ s => Requestable V lengthUs timeoutUs marginUs m ∧
        s.ts = publish lengthUs timeoutUs marginUs m.ts)
      (fun _ _ => True) := by
  refine meets_map.mpr ?_
  rcases requestEarliest_cases (V := V) with ⟨r, _, h⟩ | ⟨hr, h⟩
  · rw [h]
    trivial
  · rw [h]
    refine meets_wait.mpr ⟨⟨hr, rfl⟩, fun reply m1 h1 =>
      meets_wait.mpr ⟨⟨hr, ?_⟩, fun _ m2 _ => ?_⟩⟩
    · obtain ⟨mpsl, ghost, heffect⟩ := vendorEffect_request m1 lengthUs marginUs reply
      rw [heffect]
      exact congrArg Prod.fst h1
    · dsimp only
      split <;> trivial

end

/-! ## Every call -/

/-- Whether the session is open, and closing. -/
def sessionFlags (m : Machine) : Bool × Bool := (m.ts.sessionOpen, m.ts.sessionClosing)

/-- Only programs that are no signals of the Timeslot session. -/
def QuietSession (_ : Machine) (e : Entry) : Prop := e.isTimeslotSignal = false

section
variable {V} {lengthUs timeoutUs marginUs : UInt32} {c d : Config Machine Query Answer Ret}

/-- A call over which no signal of the session comes. -/
theorem quiet_inCall {held : Query → Machine → Prop} {post : Ret → Machine → Prop}
    (hp : ((firmware V).prog (.timeslotRequestEarliest lengthUs timeoutUs marginUs) c.state).Meets
      (fun s s' => backend s' = backend s) held post)
    (h : Within (firmware V) QuietSession c
      (.timeslotRequestEarliest lengthUs timeoutUs marginUs) d) (hl : d.live = true) :
    InCall (firmware V) (fun s s' => backend s' = backend s) held post (fun q => level q = 2) c d :=
  within_inCall (fun _ => rfl) (fun _ _ _ h1 h2 => h2.trans h1)
    (fun _ _ _ hq hok he => over_call hq he (fun hs => absurd (hok.symm.trans hs) nofun) (fun _ =>
      rfl) (fun _ => rfl) (fun _ => rfl))
    hp (program_atLevel V (.timeslotRequestEarliest lengthUs timeoutUs marginUs) c.state) h hl

/-- START arms the deadline from the variables it finds. -/
theorem start_arms
    (h : step (firmware V) c (.enter (.timeslotSignal c.state.ts.sessionId .start)) = some d)
    (hl : d.live = true) (hfree : c.state.radioOwner = .ownerNone) :
    d.state.timer0.cc = c.state.ts.grantLengthUs - c.state.ts.cleanupMarginUs ∧
    d.state.timer0.compareInt = true ∧
      d.state.ts.grantActive = true := by
  simp only [step, Option.ite_none_right_eq_some, Option.some.injEq] at h
  obtain ⟨_, rfl⟩ := h
  have hcallback := @timeslotCallback_start V
    { c.state with mpsl := mpslBeforeSignal c.state.ts.sessionId .start c.state.mpsl }
      c.state.ts.sessionId rfl
  rw [acquire_spec rfl, if_pos hfree, if_neg (not_not_intro rfl)] at hcallback
  simp only [firmware, program, deliverTimeslot, hcallback] at hl ⊢
  unfold notifyApplication callHandler at hl ⊢
  cases hh : c.state.ts.applicationHandler with
  | none =>
    simp [armDeadline, hh, Turn.map, Turn.bind, Config.settle] at hl
  | some handler =>
    simp [armDeadline, Turn.map, Turn.bind, Config.settle, Machine.noteSession]

/-- The vendor call is entered only with what may be requested, and with it published. -/
theorem requestEarliest_enters
    (h : step (firmware V) c (.enter (.timeslotRequestEarliest lengthUs timeoutUs marginUs)) =
      some d) (hwaits : d.stack ≠ c.stack) :
    d.queries = .vendor (.timeslotRequest lengthUs marginUs) :: c.queries ∧
      Requestable V lengthUs timeoutUs marginUs c.state ∧
      d.state.ts = publish lengthUs timeoutUs marginUs c.state.ts := by
  simp only [step, Option.ite_none_right_eq_some, Option.some.injEq] at h
  obtain ⟨_, rfl⟩ := h
  have hprog : (firmware V).prog (.timeslotRequestEarliest lengthUs timeoutUs marginUs) c.state =
      (nrfkitTimeslotRequestEarliest V lengthUs timeoutUs marginUs c.state).map .code := rfl
  rw [hprog] at hwaits ⊢
  rcases @requestEarliest_cases V lengthUs timeoutUs marginUs c.state
    with ⟨r, _, hcase⟩ | ⟨hr, hcase⟩
  · rw [hcase] at hwaits
    exact absurd rfl hwaits
  · rw [hcase]
    exact ⟨rfl, hr, rfl⟩

/-- **A refused request changes nothing.** `nrfkit_timeslot_request_earliest` is called in any
state. If it fails and no signal of the session comes in between, the backend and the armed
deadline are as before; whatever comes in between, the parameters and `session_idle` are, and
the session is as open. It calls MPSL only with what may be requested, published; and while it
waits, a START arms the requested deadline. -/
theorem request_atomic (c d : Config Machine Query Answer Ret)
    (lengthUs timeoutUs marginUs : UInt32) :
    (Within (firmware V) QuietSession c (.timeslotRequestEarliest lengthUs timeoutUs marginUs) d →
      d.live = true → d.stack = c.stack → ∃ r, d.returned = some (.code r) ∧
        (r ≠ 0 → requestState d.state = requestState c.state)) ∧
    (Within (firmware V) (fun _ _ => True) c
      (.timeslotRequestEarliest lengthUs timeoutUs marginUs) d → d.live = true →
      d.stack = c.stack → ∃ r, d.returned = some (.code r) ∧ (r ≠ 0 →
        d.state.ts.sessionOpen = c.state.ts.sessionOpen ∧
        d.state.ts.sessionClosing = c.state.ts.sessionClosing ∧
        d.state.ts.sessionIdle = c.state.ts.sessionIdle ∧
        d.state.ts.grantLengthUs = c.state.ts.grantLengthUs ∧
        d.state.ts.cleanupMarginUs = c.state.ts.cleanupMarginUs ∧
        d.state.ts.nextRequest = c.state.ts.nextRequest)) ∧
    (step (firmware V) c (.enter (.timeslotRequestEarliest lengthUs timeoutUs marginUs)) = some d →
      d.stack ≠ c.stack → d.queries = .vendor (.timeslotRequest lengthUs marginUs) :: c.queries ∧
        Requestable V lengthUs timeoutUs marginUs c.state ∧
        d.state.ts = publish lengthUs timeoutUs marginUs c.state.ts) ∧
    ∀ d', Within (firmware V) QuietSession c
      (.timeslotRequestEarliest lengthUs timeoutUs marginUs) d →
      d.stack ≠ c.stack →
      step (firmware V) d (.enter (.timeslotSignal d.state.ts.sessionId .start)) = some d' →
      d'.live = true → d.state.radioOwner = .ownerNone →
      d'.state.timer0.cc.toNat = lengthUs.toNat - marginUs.toNat ∧ marginUs.toNat < lengthUs.toNat ∧
        d'.state.timer0.compareInt = true ∧ d'.state.ts.grantActive = true := by
  refine ⟨?_, ?_, requestEarliest_enters, ?_⟩
  · intro h hl hst
    -- Without signals of the session the backend is kept, but for what was published.
    have hmeets := @requestEarliest_meets V lengthUs timeoutUs marginUs c.state _
      (fun m => unpublished (backend m))
      (fun s s' => backend s' = backend s) (fun s s' h => congrArg unpublished h)
        (fun _ _ _ _ _ => rfl) (fun _ _ _ => rfl)
    obtain ⟨_, hret, r, rfl, hfailed⟩ := within_returned (quiet_inCall hmeets h hl) hst
    refine ⟨r, hret, fun hne => ?_⟩
    obtain ⟨hsame, hidle, hlength, hmargin, hnext⟩ := hfailed hne
    simp only [unpublished, backend, Prod.mk.injEq] at hsame
    obtain ⟨hopen, hclosing, hgrant, hpending, hdeadline, harmed⟩ := hsame
    simp only [requestState, hopen, hclosing, hgrant, hpending, hdeadline, harmed, hidle, hlength,
      hmargin, hnext]
  · intro h hl hst
    -- Whatever comes in between keeps the flags of the session.
    have hmeets := @requestEarliest_meets V lengthUs timeoutUs marginUs c.state _
      sessionFlags (fun s s' => sessionFlags s' = sessionFlags s) (fun _ _ h => h)
        (fun _ _ _ _ _ => rfl) (fun _ _ _ => rfl)
    have hcall : InCall (firmware V) (fun s s' => sessionFlags s' = sessionFlags s) _ _
        (fun q => level q = 2) c d :=
      within_inCall (fun _ => rfl) (fun _ _ _ h1 h2 => Eq.trans h2 h1) (fun _ _ _ hq _ he =>
        over_call hq he (fun _ _ => rfl) (fun _ => rfl) (fun _ => rfl) (fun _ => rfl)) hmeets
        (program_atLevel V (.timeslotRequestEarliest lengthUs timeoutUs marginUs) c.state) h hl
    obtain ⟨_, hret, r, rfl, hfailed⟩ := within_returned hcall hst
    refine ⟨r, hret, fun hne => ?_⟩
    obtain ⟨hsame, hback⟩ := hfailed hne
    obtain ⟨hopen, hclosing⟩ := Prod.mk.inj hsame
    exact ⟨hopen, hclosing, hback⟩
  · intro d' h hwaits hstart hl hfree
    -- While the call waits, the parameters a START reads are published.
    have hcall := quiet_inCall requestEarliest_published h (step_live hstart)
    cases hcall with
    | returned r hst => exact absurd hst hwaits
    | waiting above q k s hst habove hs hmeets hq hk =>
      obtain ⟨hr, hpublished⟩ := hmeets.1
      obtain ⟨hcc, harmed, hactive⟩ := start_arms hstart hl hfree
      have hts : d.state.ts = publish lengthUs timeoutUs marginUs c.state.ts :=
        (congrArg Prod.fst hs).trans hpublished
      have hmargin := hr.margin.2.2
      refine ⟨?_, hmargin, harmed, hactive⟩
      rw [hcc, hts]
      exact UInt32.toNat_sub_of_le _ _ (UInt32.le_iff_toNat_le.mpr (Nat.le_of_lt hmargin))

/-- An open session that has had a grant of 5000 us. -/
def idleSession : Config Machine Query Answer Ret where
  state := {
    ts := {
      sessionId := 1
      sessionOpen := true
      sessionIdle := true
      grantLengthUs := 5000
      applicationHandler := some 7 } }

/-- MPSL refuses a request of 1000 us, and the parameters of the grant are still there. START
comes while it decides on another: the deadline armed is the one requested, and when the
handler has ended that grant and MPSL refuses after all, the parameters are back. -/
theorem request_atomic_outcomes :
    (∃ d, Within (firmware .nrfxlib) QuietSession idleSession
      (.timeslotRequestEarliest 1000 100000 200) d ∧
      d.stack = idleSession.stack ∧ d.returned = some (.code (-12)) ∧
      requestState d.state = requestState idleSession.state) ∧
    ∃ d started e : Config Machine Query Answer Ret,
      Within (firmware .nrfxlib) QuietSession idleSession
        (.timeslotRequestEarliest 1000 100000 200) d ∧
      step (firmware .nrfxlib) d (.enter (.timeslotSignal d.state.ts.sessionId .start)) =
        some started ∧
      started.state.timer0.cc.toNat = 800 ∧ started.state.timer0.compareInt = true ∧
      started.state.ts.grantActive = true ∧
      Within (firmware .nrfxlib) (fun _ _ => True) idleSession
        (.timeslotRequestEarliest 1000 100000 200) e ∧
      e.stack = idleSession.stack ∧ e.returned = some (.code (-12)) ∧
      e.state.ts.grantLengthUs = 5000 := by
  let refused := answeringWith (.timeslotRequest 1000 200) (-12)
  let ended := answering ⟨.actionEnd, 0, 0⟩ fun _ => 0
  have hrefused : ∃ d : Config Machine Query Answer Ret, d.live = true ∧
      d.stack = idleSession.stack ∧ d.returned = some (.code (-12)) ∧
      Within (firmware .nrfxlib) QuietSession idleSession
        (.timeslotRequestEarliest 1000 100000 200) d := by
    refine ⟨_, ?_, ?_, ?_,
      .resume (a := refused) (.resume (a := refused) (.enter rfl) ?_ rfl) ?_ rfl⟩
    all_goals first | rfl | decide
  have hstarted : ∃ d started e : Config Machine Query Answer Ret,
      Within (firmware .nrfxlib) QuietSession idleSession
        (.timeslotRequestEarliest 1000 100000 200) d ∧
      d.stack ≠ idleSession.stack ∧
      step (firmware .nrfxlib) d (.enter (.timeslotSignal d.state.ts.sessionId .start)) =
        some started ∧
      started.live = true ∧ d.state.radioOwner = .ownerNone ∧ e.live = true ∧
      e.stack = idleSession.stack ∧ e.returned = some (.code (-12)) ∧
      Within (firmware .nrfxlib) (fun _ _ => True) idleSession
        (.timeslotRequestEarliest 1000 100000 200) e := by
    refine ⟨_, _, _, .enter rfl, ?_, rfl, ?_, ?_, ?_, ?_, ?_,
      .resume (a := refused) (.resume (a := refused) (.resume (a := ended)
        (.nested (.enter rfl) ?_ trivial
          (show step _ _ (.enter (.timeslotSignal 1 .start)) = some _ from rfl))
        ?_ rfl) ?_ rfl) ?_ rfl⟩
    all_goals first | rfl | decide | exact nofun
  obtain ⟨d, hl, hst, hret, h⟩ := hrefused
  obtain ⟨r, hr, hfailed⟩ := (request_atomic idleSession d 1000 100000 200).1 h hl hst
  have hcode : r = -12 := by simpa using hr.symm.trans hret
  refine ⟨⟨d, h, hst, hret, hfailed (by omega)⟩, ?_⟩
  obtain ⟨d, started, e, hd, hwaits, hstart, hlive, hfree, hl, hst, hret, he⟩ := hstarted
  obtain ⟨hcc, _, hint, hactive⟩ :=
    (request_atomic idleSession d 1000 100000 200).2.2.2 started hd hwaits hstart hlive hfree
  obtain ⟨r, hr, hfailed⟩ := (request_atomic idleSession e 1000 100000 200).2.1 he hl hst
  have hcode : r = -12 := by simpa using hr.symm.trans hret
  exact ⟨d, started, e, hd, hstart, hcc, hint, hactive, he, hst, hret, (hfailed (by omega)).2.2.2.1⟩

end

end NrfKit.Firmware
