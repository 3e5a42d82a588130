import NrfKit.Firmware.Frames

/- RADIO ownership of the Timeslot backend. `cleanup_grant` gives the RADIO back and
   clears `grant_active`, but it ignores whether the release succeeded: the release
   refuses a RADIO whose STATE does not read DISABLED. Where every grant ends with a
   RADIO that has stopped (`radioStopping`), the owner is TIMESLOT exactly while a
   grant is active, in every state of every run. A RADIO that stays busy keeps the
   owner after the grant, and no later START acquires it (`stuck_radio_keeps_owner`). -/
namespace NrfKit.Firmware
open Interleave

variable (V : Vendor)

/-- The owner is TIMESLOT exactly while a grant is active. -/
def OwnerMatchesGrant (m : Machine) : Prop :=
  m.radioOwner = .timeslot ↔ m.ts.grantActive = true

/-! ## When a grant ends with a stopped RADIO -/

/-- The reads of STATE `cleanup_grant` makes at most before the release. -/
def maximumStateReads : Nat := 1025

/-- What the read of STATE after those of `cleanup_grant` returns: they end at the first
DISABLED. -/
def stateAtRelease (disabledAt : Nat → Bool) (reads : Nat) : Bool :=
  match (List.range maximumStateReads).find? (fun k => disabledAt (reads + k)) with
  | some k => disabledAt (reads + (k + 1))
  | none => disabledAt (reads + maximumStateReads)

/-- `nrfkit_radio_release` finds the RADIO DISABLED at the end of a grant. -/
def radioStops (r : Radio) : Bool := stateAtRelease r.disabledAt r.reads

/-- The signals whose branch of the callback ends an active grant before or without
asking the application; START finds the RADIO taken. -/
def signalEndsGrant : MpslSignal → Bool
  | .start | .sessionClosed | .extendFailed | .overstayed | .invalidReturn => true
  | _ => false

/-- The actions on which `handle_action` leaves the grant running. -/
def keepsGrant (action : Action) (m : Machine) : Bool :=
  !m.ts.sessionClosing && (action.kind == .actionNone ||
    (action.kind == .actionExtend && V.timeslotExtensionTimeMinUs ≤ action.lengthUs))

/-- Whether the callback ends the grant on this answer of the handler. -/
def answerEndsGrant (cause : MpslSignal) (deadline : Bool) (action : Action) (m : Machine) : Bool :=
  match cause with
  | .blocked | .cancelled | .sessionIdle | .overstayed | .invalidReturn | .sessionClosed => false
  | .extendFailed => true
  | _ => (deadline && action.kind == .actionNone) || !keepsGrant V action m

/-- Other clients acquire and release under their own names. -/
def radioClients : System Machine Query Answer Entry Ret :=
  (firmware V).assuming
    (fun _ e _ => match e with
      | .radioAcquire owner | .radioRelease owner => owner != .timeslot
      | _ => true)
    (fun _ _ _ _ => true)

/-- Every step that ends an active grant finds a RADIO that stops. -/
def radioStopping : System Machine Query Answer Entry Ret :=
  (radioClients V).assuming
    (fun _ e m => match e with
      | .timeslotSignal id signal =>
        !(m.ts.grantActive && id == m.ts.sessionId && signalEndsGrant signal) || radioStops m.radio
      | _ => true)
    (fun _ q a m => match q, a with
      | .handler _ cause deadline, action =>
        !(m.ts.grantActive && answerEndsGrant V cause deadline action m) || radioStops m.radio
      | _, _ => true)

/-! ## Ending a grant -/

theorem pollDisabled_reads (n : Nat) (r : Radio) :
    pollDisabled n r = { r with reads := r.reads +
      ((List.range n).find? (fun k => r.disabledAt (r.reads + k))).elim n (fun k => k + 1) } := by
  induction n generalizing r with
  | zero => rfl
  | succ n ih =>
    rw [List.range_succ_eq_map, List.find?_cons]
    cases hd : r.disabledAt (r.reads + 0) with
    | true => simp [pollDisabled, Radio.isDisabled, Radio.stateRead,
      show r.disabledAt r.reads = true from hd]
    | false =>
      have hstep : pollDisabled (n + 1) r = pollDisabled n r.stateRead := by
        simp [pollDisabled, Radio.isDisabled, show r.disabledAt r.reads = false from hd]
      rw [hstep, ih, List.find?_map]
      have hfun : ((fun k => r.disabledAt (r.reads + k)) ∘ Nat.succ) =
          fun k => r.stateRead.disabledAt (r.stateRead.reads + k) := by
        funext k
        show r.disabledAt (r.reads + (k + 1)) = r.disabledAt (r.reads + 1 + k)
        rw [show r.reads + (k + 1) = r.reads + 1 + k by omega]
      rw [hfun]
      cases (List.range n).find? (fun k => r.stateRead.disabledAt (r.stateRead.reads + k)) with
      | none =>
        show ({ r with reads := r.reads + 1 + n } : Radio) = { r with reads := r.reads + (n + 1) }
        rw [show r.reads + 1 + n = r.reads + (n + 1) by omega]
      | some k =>
        show ({ r with reads := r.reads + 1 + (k + 1) } : Radio) =
          { r with reads := r.reads + (k + 1 + 1) }
        rw [show r.reads + 1 + (k + 1) = r.reads + (k + 1 + 1) by omega]

theorem stopRadio_eq (r : Radio) : stopRadio r = pollDisabled maximumStateReads r := rfl

/-- The polls leave a RADIO that reads DISABLED next exactly where it stops. -/
theorem stopRadio_isDisabled (r : Radio) : (stopRadio r).isDisabled = radioStops r := by
  rw [stopRadio_eq, pollDisabled_reads]
  unfold radioStops stateAtRelease Radio.isDisabled
  cases (List.range maximumStateReads).find? (fun k => r.disabledAt (r.reads + k)) <;> rfl

/-- Ending an active grant: the grant is over, and the RADIO is free if it stops and
still TIMESLOT's if it does not. -/
theorem cleanupGrant_active {m : Machine} (hg : m.ts.grantActive = true)
    (ho : m.radioOwner = .timeslot) :
    (cleanupGrant m).ts.grantActive = false ∧
      (cleanupGrant m).radioOwner = if radioStops m.radio then .ownerNone else .timeslot := by
  have hd : (stopRadio { m.radio with intEnabled := 0, shorts := 0 }).isDisabled =
      radioStops m.radio := stopRadio_isDisabled _
  unfold cleanupGrant
  rw [if_neg (by simp [hg])]
  refine ⟨rfl, ?_⟩
  dsimp only
  rw [release_spec rfl (by exact ho)]
  dsimp only
  rw [hd]
  split
  · rfl
  · exact ho

theorem cleanupGrant_inactive {m : Machine}
    (hg : m.ts.grantActive = false) : cleanupGrant m = m := by
  unfold cleanupGrant
  rw [if_pos (by simp [hg])]

/-- Ending a grant keeps the invariant where the RADIO stops. -/
theorem cleanupGrant_owner {m : Machine} (h : OwnerMatchesGrant m)
    (hs : m.ts.grantActive = true → radioStops m.radio = true) :
    OwnerMatchesGrant (cleanupGrant m) := by
  cases hg : m.ts.grantActive with
  | false => rwa [cleanupGrant_inactive hg]
  | true =>
    obtain ⟨ha, ho⟩ := cleanupGrant_active hg (h.mpr hg)
    rw [hs hg] at ho
    exact ⟨fun hc => absurd (ho.symm.trans hc) (by decide), fun hc =>
      absurd (ha.symm.trans hc) (by decide)⟩

/-! ## The steps -/

/-- What the invariant reads. -/
def ownerView (m : Machine) : RadioOwner × Bool := (m.radioOwner, m.ts.grantActive)

section
variable {α : Type} {J : List Query → Machine → Prop} {ctx : List Query} {m : Machine}

/-- A program with the invariant as its postcondition. -/
abbrev KeepsOwner (J : List Query → Machine → Prop) (ctx : List Query) (t : FTurn α) : Prop :=
  t.Sat (radioStopping V) J (fun _ m => OwnerMatchesGrant m) ctx (fun _ m => OwnerMatchesGrant m)

theorem ownerMatchesGrant_congr {m' : Machine} (hv : ownerView m' = ownerView m)
    (h : OwnerMatchesGrant m) : OwnerMatchesGrant m' := by
  obtain ⟨ho, hg⟩ := Prod.mk.inj hv
  unfold OwnerMatchesGrant at h ⊢
  rw [ho, hg]
  exact h

theorem keepsOwner_program (e : Entry) (h : OwnerMatchesGrant m)
    (hv : ∀ m, ownerView (e.view m) = ownerView m) :
    KeepsOwner V J ctx (program V e m) :=
  sat_framed (fun _ s s' hs =>
    ownerMatchesGrant_congr (((hv s').symm.trans (congrArg ownerView hs)).trans (hv s)))
    (fun _ _ _ _ => Iff.rfl) h (framed_program V e m)

/-- An answer that ends an active grant comes with a RADIO that stops. -/
theorem stops_of_answers {h : Handler} {cause : MpslSignal} {deadline : Bool} {action : Action}
    (ha : (radioStopping V).answers ctx (.handler h cause deadline) action m = true)
    (hends : answerEndsGrant V cause deadline action m = true) (hg : m.ts.grantActive = true) :
    radioStops m.radio = true := by
  have hguard : (!(m.ts.grantActive && answerEndsGrant V cause deadline action m) ||
      radioStops m.radio) = true := (assuming_answers.mp ha).2
  rw [hg, hends] at hguard
  simpa using hguard

theorem handleAction_owner {action : Action} (h : OwnerMatchesGrant m)
    (hs : keepsGrant V action m = false → m.ts.grantActive = true → radioStops m.radio = true) :
    KeepsOwner V J ctx (handleAction V action m) := by
  unfold handleAction
  split
  · rename_i hend
    refine cleanupGrant_owner h (hs ?_)
    unfold keepsGrant
    cases hc : m.ts.sessionClosing with
    | true => rfl
    | false =>
      rw [hc, Bool.false_or] at hend
      rw [eq_of_beq hend]
      rfl
  · rename_i hclosing
    split
    · exact h
    · rename_i hnone
      split
      · exact h
      · rename_i hextend
        have hk : keepsGrant V action m = false := by
          unfold keepsGrant
          rw [Bool.and_eq_false_iff]
          right
          rw [Bool.or_eq_false_iff]
          exact ⟨by simpa using hnone, by simpa using hextend⟩
        split
        · exact cleanupGrant_owner h (hs hk)
        · exact cleanupGrant_owner h (hs hk)

theorem notifyApplication_owner {signal : MpslSignal} (h : OwnerMatchesGrant m)
    (hsig : signal ≠ .sessionClosed) : KeepsOwner V J ctx (notifyApplication V signal m) := by
  unfold notifyApplication callHandler
  split
  · trivial
  · refine sat_wait.mpr ⟨h, fun action m' _ hm' ha => ?_⟩
    have hstop := stops_of_answers V ha
    split
    · exact hm'
    · rename_i hdeferred
      split
      · rename_i hfailed
        rw [eq_of_beq hfailed] at hstop
        exact cleanupGrant_owner hm' (hstop rfl)
      · rename_i hfailed
        refine handleAction_owner V hm' (fun hk => hstop ?_)
        -- what is left are the signals whose answer goes to `handle_action`
        cases signal with
        | start | timer0 | radio | extendSucceeded | other =>
          simp [answerEndsGrant, hk]
        | extendFailed => exact absurd rfl hfailed
        | sessionClosed => exact absurd rfl hsig
        | blocked | cancelled | sessionIdle | invalidReturn | overstayed =>
          exact absurd rfl hdeferred

theorem closeSession_owner (h : OwnerMatchesGrant m)
    (hs : m.ts.grantActive = true → radioStops m.radio = true) :
    KeepsOwner V J ctx (closeSession m) := by
  have hc := cleanupGrant_owner h hs
  refine sat_bind.mpr (sat_mono (fun _ m' hm' => ?_) (?_ : KeepsOwner V J ctx _))
  · show OwnerMatchesGrant _
    have hv : ownerView (nrfkitMpslTimeslotRelease { m' with ts := { m'.ts with
        applicationHandler := none, applicationContext := 0 } }) = ownerView m' := by
      unfold nrfkitMpslTimeslotRelease
      split <;> rfl
    exact ownerMatchesGrant_congr hv hm'
  · split
    · unfold callHandler
      split
      · trivial
      · exact sat_wait.mpr ⟨hc, fun _ _ _ hm' _ => hm'⟩
    · exact hc

theorem timeslotCallback_owner {id : Nat} {signal : MpslSignal} (h : OwnerMatchesGrant m)
    (hs : m.ts.grantActive = true → id = m.ts.sessionId → signalEndsGrant signal = true →
      radioStops m.radio = true) : KeepsOwner V J ctx (timeslotCallback V id signal m) := by
  unfold timeslotCallback
  split
  · exact h
  · rename_i hid
    have hid : id = m.ts.sessionId := by simpa using hid
    split
    · rename_i hclosed
      rw [hclosed] at hs
      exact closeSession_owner V h (fun hg => hs hg hid rfl)
    · rename_i hclosed
      generalize hm : (if signal = .sessionIdle ∨ signal = .blocked ∨ signal = .cancelled then
          { m with ts := { m.ts with sessionIdle := true } } else m) = m'
      -- Marking the session idle touches neither the owner nor the RADIO.
      have hv : ownerView m' = ownerView m ∧ m'.radio = m.radio := by
        rw [← hm]
        split <;> exact ⟨rfl, rfl⟩
      have ho : m'.radioOwner = m.radioOwner := (Prod.mk.inj hv.1).1
      have ha : m'.ts.grantActive = m.ts.grantActive := (Prod.mk.inj hv.1).2
      have h' : OwnerMatchesGrant m' := by
        unfold OwnerMatchesGrant
        rw [ho, ha]
        exact h
      have hs' : signalEndsGrant signal = true → m'.ts.grantActive = true →
          radioStops m'.radio = true := by
        intro he hg
        rw [hv.2]
        exact hs (ha ▸ hg) hid he
      dsimp only
      split
      · rename_i hstart
        rw [hstart] at hs'
        rw [acquire_spec rfl]
        split
        · -- the RADIO was taken: END is returned at once
          split
          · rename_i hok
            exact absurd rfl hok
          · exact notifyApplication_owner V ⟨fun _ => rfl, fun _ => rfl⟩ hclosed
        · split
          · exact cleanupGrant_owner h' (hs' rfl)
          · rename_i hok
            exact (hok (show radioErrBusy ≠ radioOk by decide)).elim
      · split
        · -- the deadline's compare event
          unfold callHandler
          split
          · trivial
          · refine sat_wait.mpr ⟨h', fun action m'' _ hm'' hans => ?_⟩
            have hstop := stops_of_answers V hans
            split
            · rename_i hnone
              refine cleanupGrant_owner hm'' (hstop ?_)
              simp [answerEndsGrant, hnone]
            · refine handleAction_owner V hm'' (fun hk => hstop ?_)
              simp [answerEndsGrant, hk]
        · split
          · exact notifyApplication_owner V h' hclosed
          · split
            · rename_i hends
              refine notifyApplication_owner V (cleanupGrant_owner h' (hs' ?_)) hclosed
              obtain rfl | rfl | rfl := hends <;> rfl
            · exact notifyApplication_owner V h' hclosed

end

/-! ## Every run -/

/-- The step lemma: where grants end with a stopped RADIO, every program keeps the
invariant. -/
theorem radioStopping_keeps : Keeps (radioStopping V) Any (fun _ m => OwnerMatchesGrant m) := by
  intro ctx e m _ h he
  have hguard := (assuming_enters.mp he).2
  have hclients := (assuming_enters.mp (assuming_enters.mp he).1).2
  have hother := @keepsOwner_program V Any ctx m e h
  cases e with
  | timeslotSignal id signal =>
    refine sat_map.mpr (sat_bind.mpr (timeslotCallback_owner V h (fun hg hid hsig => ?_)))
    have hguard : (!(m.ts.grantActive && id == m.ts.sessionId && signalEndsGrant signal) ||
        radioStops m.radio) = true := hguard
    have hb : (id == m.ts.sessionId) = true := beq_iff_eq.mpr hid
    rw [hg, hb, hsig] at hguard
    simpa using hguard
  | radioAcquire owner =>
    have hne : owner ≠ .timeslot := by simpa using hclients
    have hts : (nrfkitRadioAcquire owner m).2.ts = m.ts := by
      obtain ⟨o, ho⟩ := acquire_eq owner m
      rw [ho]
    show _ ↔ (nrfkitRadioAcquire owner m).2.ts.grantActive = true
    rw [acquire_other hne (by decide), hts]
    exact h
  | radioRelease owner =>
    have hne : owner ≠ .timeslot := by simpa using hclients
    have hts : (nrfkitRadioRelease owner m).2.ts = m.ts := by
      obtain ⟨o, r, ho⟩ := release_eq owner m
      rw [ho]
    show _ ↔ (nrfkitRadioRelease owner m).2.ts.grantActive = true
    rw [release_other hne (by decide), hts]
    exact h
  | _ => exact hother (fun _ => rfl)

/-- **Where every grant ends with a RADIO that stops, the RADIO is TIMESLOT's exactly
while a grant is active**, in every state of every run from reset. -/
theorem owner_iff_granted {hw : Hardware} {radio : Radio} {timer0 : Timer0}
    {c : Config Machine Query Answer Ret}
    (h : Reachable (radioStopping V) (Machine.reset hw radio timer0) c) (hl : c.live = true) :
    c.state.radioOwner = .timeslot ↔ c.state.ts.grantActive = true :=
  run_inv (radioStopping_keeps V) (I := fun _ m => OwnerMatchesGrant m)
    ⟨fun hr => (RadioOwner.noConfusion hr), fun hg => Bool.noConfusion hg⟩ h hl

/-- A session, its request and the START of the grant, with `n` answers `action` of the
handler. -/
def granted (n : Nat) (action : Action) : List (Event Query Answer Entry) :=
  calls [enabled, (.timeslotOpen (some 7) 0, 2, ⟨.actionNone, 0, 0⟩),
    (.timeslotRequestEarliest 1000 100000 200, 2, ⟨.actionNone, 0, 0⟩),
    (.timeslotSignal 1 .start, n, action)]

/-- A grant is running, and its handler ends it: the RADIO, busy for three reads of STATE,
stops, and the release gives it back. -/
theorem owner_iff_granted_at_start : ∃ c d,
    Reachable (radioStopping .nrfxlib) (Machine.reset {} { disabledAt := fun n => 3 ≤ n } {}) c ∧
      c.state.ts.grantActive = true ∧ c.state.radioOwner = .timeslot ∧
      step (radioStopping .nrfxlib) c (.resume (answering ⟨.actionEnd, 0, 0⟩ fun _ => 0)) = some d ∧
      d.state.radio.reads = 5 ∧ d.state.ts.grantActive = false ∧
      d.state.radioOwner ≠ .timeslot := by
  obtain ⟨c, h, hf⟩ := reachable_of_run (radioStopping .nrfxlib)
    (.reset {} { disabledAt := fun n => 3 ≤ n } {}) (granted 0 ⟨.actionNone, 0, 0⟩)
    (fun c => c.live && c.state.ts.grantActive &&
      (step (radioStopping .nrfxlib) c (.resume (answering ⟨.actionEnd, 0, 0⟩ fun _ => 0))).any
        fun d => d.live && d.state.radio.reads == 5 && !d.state.ts.grantActive) (by decide +kernel)
  simp only [Bool.and_eq_true, Option.any_eq_true, beq_iff_eq, Bool.not_eq_true'] at hf
  obtain ⟨⟨hl, hg⟩, d, hd, ⟨hld, hreads⟩, hended⟩ := hf
  have hrun : run (radioStopping .nrfxlib) c
      [.resume (answering ⟨.actionEnd, 0, 0⟩ fun _ => 0)] = some d := by
    rw [run, hd]
    rfl
  have howner := owner_iff_granted .nrfxlib (h.trans hrun) hld
  refine ⟨c, d, h, hg, (owner_iff_granted .nrfxlib h hl).mpr hg, hd, hreads, hended, fun ho => ?_⟩
  exact Bool.false_ne_true (hended.symm.trans (howner.mp ho))

/-- A RADIO that never reads DISABLED keeps TIMESLOT as its owner after the handler has
ended the grant. -/
theorem stuck_radio_keeps_owner :
    ¬ ∀ c, Reachable (radioClients .nrfxlib)
        (Machine.reset {} { disabledAt := fun _ => false } {}) c →
      c.live = true → c.stack = [] →
        (c.state.radioOwner = .timeslot ↔ c.state.ts.grantActive = true) := by
  intro hall
  obtain ⟨c, h, hf⟩ := reachable_of_run (radioClients .nrfxlib)
    (.reset {} { disabledAt := fun _ => false } {}) (granted 1 ⟨.actionEnd, 0, 0⟩)
    (fun c => c.live && c.stack.isEmpty && c.state.radioOwner == .timeslot &&
      !c.state.ts.grantActive) (by decide +kernel)
  simp only [Bool.and_eq_true, List.isEmpty_iff, beq_iff_eq, Bool.not_eq_true'] at hf
  obtain ⟨⟨⟨hl, hs⟩, ho⟩, hg⟩ := hf
  have hgrant := (hall c h hl hs).mp ho
  rw [hg] at hgrant
  cases hgrant

end NrfKit.Firmware
