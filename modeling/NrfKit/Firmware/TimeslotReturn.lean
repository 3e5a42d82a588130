import NrfKit.Lib.Call
import NrfKit.Firmware.TimeslotOwnership

/- What the callback of the Timeslot session returns to MPSL. A grant that is given up (END
   or REQUEST) leaves nothing armed: the deadline's interrupt and the RADIO's interrupts
   and shortcuts are off. A chained request and an extension are ones MPSL takes, and where
   the grant must not go on (its deadline, a closing session) the callback says so. The
   application's handler runs inside the callback; it answers anything, and it touches the
   RADIO only while a grant is active (`RadioRule`). -/
namespace NrfKit.Firmware
open Interleave

variable (V : Vendor)

/-! ## An active grant owns the RADIO -/

theorem cleanupGrant_ends (m : Machine) : (cleanupGrant m).ts.grantActive = false := by
  obtain ⟨t, r, o, _, h⟩ := cleanupGrant_eq m
  rw [h]

/-- The RADIO is TIMESLOT's while a grant is active. -/
def GrantOwned (m : Machine) : Prop := m.ts.grantActive = true → m.radioOwner = .timeslot

section
variable {α : Type} {ctx : List Query} {m m' : Machine}
    {sys : System Machine Query Answer Entry Ret}
    {J : List Query → Machine → Prop}

abbrev KeepsGrantOwned (sys : System Machine Query Answer Entry Ret)
    (J : List Query → Machine → Prop) (ctx : List Query) (t : FTurn α) : Prop :=
  t.Sat sys J (fun _ m => GrantOwned m) ctx (fun _ m => GrantOwned m)

theorem GrantOwned.ended (h : m.ts.grantActive = false) : GrantOwned m :=
  fun hg => absurd (h.symm.trans hg) nofun

theorem grantOwned_congr (hv : ownerView m' = ownerView m) (h : GrantOwned m) : GrantOwned m' := by
  obtain ⟨ho, hg⟩ := Prod.mk.inj hv
  unfold GrantOwned
  rw [ho, hg]
  exact h

theorem handleAction_grantOwned {action : Action} (h : GrantOwned m) :
    KeepsGrantOwned sys J ctx (handleAction V action m) := by
  unfold handleAction
  split
  · exact .ended (cleanupGrant_ends m)
  split
  · exact h
  split
  · exact h
  split <;> exact .ended (cleanupGrant_ends m)

/-- The handler is called, and what follows acts on its answer. -/
theorem callHandler_grantOwned {cause : MpslSignal} {deadline : Bool}
    {k : Action → Machine → FTurn α} (h : GrantOwned m)
    (hk : ∀ action m, GrantOwned m → KeepsGrantOwned sys J ctx (k action m)) :
    KeepsGrantOwned sys J ctx (callHandler cause deadline m k) := by
  unfold callHandler
  split
  · trivial
  · exact sat_wait.mpr ⟨h, fun action m' _ h' _ => hk action m' h'⟩

theorem notifyApplication_grantOwned {signal : MpslSignal} (h : GrantOwned m) :
    KeepsGrantOwned sys J ctx (notifyApplication V signal m) := by
  refine callHandler_grantOwned h fun action m h => ?_
  split
  · exact h
  split
  · exact .ended (cleanupGrant_ends m)
  · exact handleAction_grantOwned V h

theorem timeslotCallback_grantOwned {id : Nat} {signal : MpslSignal} (h : GrantOwned m) :
    KeepsGrantOwned sys J ctx (timeslotCallback V id signal m) := by
  by_cases hid : m.ts.sessionId = id
  · cases signal with
    | start =>
      rw [timeslotCallback_start V hid, acquire_spec rfl]
      split
      · split
        · exact .ended (cleanupGrant_ends _)
        · exact notifyApplication_grantOwned V fun _ => rfl
      · split
        · exact .ended (cleanupGrant_ends _)
        · rename_i hok
          exact (hok (show radioErrBusy ≠ radioOk by decide)).elim
    | timer0 =>
      rw [timeslotCallback_timer0 V hid]
      split
      · refine callHandler_grantOwned h fun action m h => ?_
        split
        · exact .ended (cleanupGrant_ends m)
        · exact handleAction_grantOwned V h
      · exact notifyApplication_grantOwned V h
    | radio =>
      rw [timeslotCallback_radio V hid]
      exact notifyApplication_grantOwned V h
    | other n =>
      rw [timeslotCallback_other V hid]
      exact notifyApplication_grantOwned V h
    | extendSucceeded =>
      rw [timeslotCallback_extendSucceeded V hid]
      exact notifyApplication_grantOwned V h
    | extendFailed | overstayed | invalidReturn =>
      rw [timeslotCallback_ending V (by simp) hid]
      exact notifyApplication_grantOwned V (.ended (cleanupGrant_ends m))
    | sessionIdle | blocked | cancelled =>
      rw [timeslotCallback_idle V (by simp) hid]
      exact notifyApplication_grantOwned V h
    | sessionClosed =>
      rw [timeslotCallback_closed V hid]
      refine sat_bind.mpr (sat_mono (T := fun _ m => GrantOwned m) (fun _ m h => ?_) ?_)
      · show GrantOwned _
        refine grantOwned_congr (m := m) ?_ h
        unfold nrfkitMpslTimeslotRelease
        split <;> rfl
      · dsimp only
        split
        · exact callHandler_grantOwned (.ended (cleanupGrant_ends m)) fun _ _ h => h
        · exact .ended (cleanupGrant_ends m)
  -- another session's signal is refused
  · unfold timeslotCallback
    rw [if_pos (fun heq => hid heq.symm)]
    exact h

end

/-- The step lemma: with the other clients acting under their own names, every program keeps an
active grant's RADIO. -/
theorem grantOwned_keeps : Keeps (radioClients V) Any (fun _ m => GrantOwned m) := by
  intro ctx e m _ h he
  have hclients := (assuming_enters.mp he).2
  have framed : (∀ m, ownerView (e.view m) = ownerView m) →
      KeepsGrantOwned (radioClients V) Any ctx (program V e m) := fun hv =>
    sat_program (I := fun _ (x : RadioOwner × Bool) => x.2 = true → x.1 = .timeslot) e ownerView hv
      (fun _ _ _ _ => Iff.rfl) h
  cases e with
  | timeslotSignal id signal => exact sat_map.mpr (sat_bind.mpr (timeslotCallback_grantOwned V h))
  | radioAcquire owner =>
    have hne : owner ≠ .timeslot := by simpa using hclients
    intro hg
    refine (acquire_other hne (by decide) m).mpr (h ?_)
    obtain ⟨o, ho⟩ := acquire_eq owner m
    rw [ho] at hg
    exact hg
  | radioRelease owner =>
    have hne : owner ≠ .timeslot := by simpa using hclients
    intro hg
    refine (release_other hne (by decide) m).mpr (h ?_)
    obtain ⟨o, r, ho⟩ := release_eq owner m
    rw [ho] at hg
    exact hg
  | _ => exact framed (fun _ => rfl)

/-! ## What is returned -/

/-- A grant is active when the signal comes, or its START takes the RADIO. -/
def Granted (signal : MpslSignal) (m : Machine) : Prop :=
  m.ts.grantActive = true ∨ signal = .start ∧ m.radioOwner = .ownerNone

/-- Nothing of a grant is left armed. -/
structure Disarmed (m : Machine) : Prop where
  deadline : m.timer0.compareInt = false
  interrupts : m.radio.intEnabled = 0
  shorts : m.radio.shorts = 0

/-- The grant must not go on: its deadline, or a closing session. -/
def MustEnd (signal : MpslSignal) (m : Machine) : Prop :=
  signal = .timer0 ∧ m.timer0.compareEvent = true ∨
    m.ts.sessionClosing = true ∧ (signal = .start ∨ signal = .timer0 ∨ signal = .extendSucceeded)

/-- A request MPSL takes, longer than the cleanup margin. -/
def Chained (m : Machine) : Prop :=
  ∃ distance length, m.ts.nextRequest = .normal .xtalGuaranteed .normal distance length ∧
    V.timeslotLengthMinUs.toNat ≤ length.toNat ∧ length.toNat ≤ V.timeslotLengthMaxUs.toNat ∧
    distance.toNat ≤ V.timeslotDistanceMaxUs.toNat ∧ m.ts.cleanupMarginUs.toNat < length.toNat

/-- What is promised of a return `p` in the state `m'`, the signal having come in `m`. -/
structure ReturnOk (signal : MpslSignal) (m : Machine) (p : SignalReturn)
    (m' : Machine) : Prop where
  ended : p.callbackAction = .actionEnd ∨ p.callbackAction = .actionRequest →
    m'.ts.grantActive = false ∧ (Granted signal m → Disarmed m')
  request : p.callbackAction = .actionRequest → p.pNext = true ∧ Chained V m'
  extended : p.callbackAction = .actionExtend →
    V.timeslotExtensionTimeMinUs.toNat ≤ p.extendLengthUs.toNat ∧ m'.ts.sessionClosing = false
  answered : p.callbackAction = .actionNone → ¬ MustEnd signal m
  others : signal = .start → m.ts.grantActive = false → m.radioOwner ≠ .ownerNone →
    m'.radio.intEnabled = m.radio.intEnabled ∧ m'.radio.shorts = m.radio.shorts

/-- While the handler runs, the RADIO is touched only in an active grant. -/
def RadioRule (m : Machine) : Entry → Prop
  | .radioRegisters _ _ => m.ts.grantActive = true
  | _ => True

/-- What the handler and the hardware may do to what the callback left. -/
def HandlerMoves (m m' : Machine) : Prop :=
  m'.ts = m.ts ∧ m'.timer0.compareInt = m.timer0.compareInt ∧
    (m.ts.grantActive = false → m'.radio.intEnabled = m.radio.intEnabled ∧
      m'.radio.shorts = m.radio.shorts)

/-- What the callback has left when it calls the handler. -/
structure Prepared (signal : MpslSignal) (m m' : Machine) : Prop where
  closing : m'.ts.sessionClosing = m.ts.sessionClosing
  active : m'.ts.grantActive = true → Granted signal m
  disarmed : Granted signal m → m'.ts.grantActive = false → Disarmed m'

section
variable {V} {signal : MpslSignal} {m m' m'' : Machine}

/-- Releasing the RADIO leaves its registers alone. -/
theorem release_registers (owner : RadioOwner) (m : Machine) :
    (nrfkitRadioRelease owner m).2.ts = m.ts ∧ (nrfkitRadioRelease owner m).2.timer0 = m.timer0 ∧
      (nrfkitRadioRelease owner m).2.radio.intEnabled = m.radio.intEnabled ∧
      (nrfkitRadioRelease owner m).2.radio.shorts = m.radio.shorts := by
  unfold nrfkitRadioRelease
  split
  · exact ⟨rfl, rfl, rfl, rfl⟩
  split
  · exact ⟨rfl, rfl, rfl, rfl⟩
  dsimp only
  split <;> exact ⟨rfl, rfl, rfl, rfl⟩

theorem cleanupGrant_disarms (hg : m.ts.grantActive = true) : Disarmed (cleanupGrant m) := by
  have hpoll : ∀ n (r : Radio), (pollDisabled n r).intEnabled = r.intEnabled ∧
      (pollDisabled n r).shorts = r.shorts := by
    intro n
    induction n with
    | zero => exact fun r => ⟨rfl, rfl⟩
    | succ n ih =>
      intro r
      unfold pollDisabled
      split
      · exact ⟨rfl, rfl⟩
      · exact ih r.stateRead
  unfold cleanupGrant
  rw [if_neg (by simp [hg])]
  dsimp only
  generalize hm : ({ m with
    timer0 := { m.timer0 with compareInt := false, compareEvent := false }
    radio := stopRadio { m.radio with intEnabled := 0, shorts := 0 } } : Machine) = s
  obtain ⟨_, htimer, hint, hshorts⟩ := release_registers .timeslot s
  refine ⟨?_, ?_, ?_⟩
  · rw [htimer, ← hm]
  · rw [hint, ← hm, stopRadio_eq]
    exact (hpoll _ _).1
  · rw [hshorts, ← hm, stopRadio_eq]
    exact (hpoll _ _).2

theorem Prepared.handled (h : Prepared signal m m')
    (hm : HandlerMoves m' m'') : Prepared signal m m'' := by
  obtain ⟨hts, hint, hradio⟩ := hm
  refine ⟨?_, ?_, fun hg hidle => ?_⟩
  · rw [hts]
    exact h.closing
  · rw [hts]
    exact h.active
  · rw [hts] at hidle
    obtain ⟨hi, hs⟩ := hradio hidle
    obtain ⟨h1, h2, h3⟩ := h.disarmed hg hidle
    exact ⟨hint.trans h1, hi.trans h2, hs.trans h3⟩

/-- Ending a grant leaves nothing of it, whether it was still active or not. -/
theorem Prepared.cleanup (h : Prepared signal m m')
    (hg : Granted signal m) : Disarmed (cleanupGrant m') := by
  cases ha : m'.ts.grantActive with
  | true => exact cleanupGrant_disarms ha
  | false =>
    rw [cleanupGrant_inactive ha]
    exact h.disarmed hg ha

/-- A part of the callback on a signal delivered in interrupt context. -/
abbrev Returns (V : Vendor) (signal : MpslSignal) (m : Machine) (t : FTurn SignalReturn) : Prop :=
  t.Meets HandlerMoves (fun _ s => s.ts.grantActive = true → Granted signal m)
    (fun p m' => ReturnOk V signal m p m' ∧ (m'.ts.grantActive = true → Granted signal m))

theorem endGrant_returns (h : Prepared signal m m')
    (ho : signal = .start → m.radioOwner = .ownerNone) :
    Returns V signal m (endGrant m') := by
  have hends := cleanupGrant_ends m'
  refine ⟨⟨fun _ => ⟨hends, fun hg => ?_⟩, nofun, nofun, nofun, fun hs _ hne => absurd (ho hs) hne⟩,
    fun ha => absurd (hends.symm.trans ha) nofun⟩
  obtain ⟨h1, h2, h3⟩ := h.cleanup hg
  exact ⟨h1, h2, h3⟩

theorem handleAction_returns {action : Action} (h : Prepared signal m m')
    (ho : signal = .start → m.radioOwner = .ownerNone)
    (hnone : action.kind = .actionNone → m.ts.sessionClosing = false → ¬ MustEnd signal m) :
    Returns V signal m (handleAction V action m') := by
  have hothers : signal = .start → m.ts.grantActive = false → m.radioOwner ≠ .ownerNone →
      m'.radio.intEnabled = m.radio.intEnabled ∧ m'.radio.shorts = m.radio.shorts :=
        fun hs _ hne => absurd (ho hs) hne
  unfold handleAction
  split
  · exact endGrant_returns h ho
  rename_i hgoes
  simp only [Bool.or_eq_true, not_or, Bool.not_eq_true] at hgoes
  have hopen : m.ts.sessionClosing = false := h.closing.symm.trans hgoes.1
  split
  · rename_i hkind
    exact ⟨⟨nofun, nofun, nofun, fun _ => hnone (eq_of_beq hkind) hopen, hothers⟩, h.active⟩
  split
  · rename_i hextend
    simp only [Bool.and_eq_true, decide_eq_true_eq] at hextend
    refine ⟨⟨nofun, nofun, fun _ => ⟨UInt32.le_iff_toNat_le.mp hextend.2, hgoes.1⟩, nofun, hothers⟩,
      h.active⟩
  split
  · rename_i hrequest
    simp only [validLength, Bool.and_eq_true, decide_eq_true_eq, UInt32.le_iff_toNat_le,
      UInt32.lt_iff_toNat_lt] at hrequest
    obtain ⟨⟨⟨_, hleast, hmost⟩, hdistance⟩, hmargin⟩ := hrequest
    have hends := cleanupGrant_ends m'
    have hcleaned : (cleanupGrant m').ts.cleanupMarginUs = m'.ts.cleanupMarginUs := by
      obtain ⟨t, r, o, _, heq⟩ := cleanupGrant_eq m'
      rw [heq]
    rw [← hcleaned] at hmargin
    refine ⟨⟨fun _ => ⟨hends, fun hg => ?_⟩, fun _ => ⟨rfl, _, _, rfl, hleast, hmost,
      hdistance, hmargin⟩, nofun, nofun, fun hs _ hne => absurd (ho hs) hne⟩, fun ha =>
      absurd (hends.symm.trans ha) nofun⟩
    obtain ⟨h1, h2, h3⟩ := h.cleanup hg
    exact ⟨h1, h2, h3⟩
  · exact endGrant_returns h ho

/-- The handler is called; it leaves what the callback prepared. -/
theorem callHandler_returns {cause : MpslSignal} {deadline : Bool}
    {k : Action → Machine → FTurn SignalReturn} (h : Prepared signal m m')
    (hk : ∀ action m', Prepared signal m m' → Returns V signal m (k action m')) :
    Returns V signal m (callHandler cause deadline m' k) := by
  unfold callHandler
  split
  · trivial
  · rename_i handler _
    have hnoted : Prepared signal m
        (m'.noteSession (.invoked m'.ghost.serial handler (translateSignal cause))) := by
      obtain ⟨h1, h2, h3⟩ := h
      refine ⟨h1, h2, fun hg hidle => ?_⟩
      obtain ⟨hdeadline, hinterrupts, hshorts⟩ := h3 hg hidle
      exact ⟨hdeadline, hinterrupts, hshorts⟩
    exact meets_wait.mpr ⟨h.active, fun action m'' hm => hk action m'' (hnoted.handled hm)⟩

theorem notifyApplication_returns (h : Prepared signal m m')
    (ho : signal = .start → m.radioOwner = .ownerNone)
    (hdeadline : ¬ (signal = .timer0 ∧ m.timer0.compareEvent = true)) :
    Returns V signal m (notifyApplication V signal m') := by
  refine callHandler_returns h fun action m' h => ?_
  split
  · rename_i hdeferred
    refine ⟨⟨nofun, nofun, nofun, fun _ hmust => ?_, fun hs _ hne => absurd (ho hs) hne⟩, h.active⟩
    rcases hmust with hmust | ⟨_, rfl | rfl | rfl⟩
    · exact hdeadline hmust
    · simp at hdeferred
    · simp at hdeferred
    · simp at hdeferred
  split
  · exact endGrant_returns h ho
  · refine handleAction_returns h ho fun _ hopen hmust => ?_
    rcases hmust with hmust | ⟨hclosing, _⟩
    · exact hdeadline hmust
    · rw [hopen] at hclosing
      cases hclosing

/-- The callback on every signal MPSL sends in interrupt context. -/
theorem timeslotCallback_returns (hs : mpslDeferred signal = false) :
    Returns V signal m (timeslotCallback V m.ts.sessionId signal m) := by
  -- but for START, a grant is active exactly if one was
  have hsame : signal ≠ .start → ∀ {m'}, m'.ts.sessionClosing = m.ts.sessionClosing →
      m'.ts.grantActive = m.ts.grantActive → Prepared signal m m' := by
    intro hne m' hclosing hactive
    refine ⟨hclosing, fun hg => Or.inl (hactive.symm.trans hg), fun hg hidle => ?_⟩
    rcases hg with hg | ⟨hstart, _⟩
    · exact absurd ((hactive.trans hg).symm.trans hidle) nofun
    · exact absurd hstart hne
  cases signal with
  | start =>
    rw [timeslotCallback_start V rfl, acquire_spec rfl]
    by_cases hfree : m.radioOwner = .ownerNone
    · rw [if_pos hfree, if_neg (not_not_intro rfl)]
      exact notifyApplication_returns ⟨rfl, fun _ => Or.inr ⟨rfl, hfree⟩, nofun⟩
        (fun _ => hfree) nofun
    · rw [if_neg hfree, if_pos (show radioErrBusy ≠ radioOk by decide)]
      have hends := cleanupGrant_ends m
      refine ⟨⟨fun _ => ⟨hends, fun hg => ?_⟩, nofun, nofun, nofun, fun _ hidle _ => ?_⟩,
        fun ha => absurd (hends.symm.trans ha) nofun⟩
      · rcases hg with hg | ⟨_, hnone⟩
        · obtain ⟨h1, h2, h3⟩ := cleanupGrant_disarms hg
          exact ⟨h1, h2, h3⟩
        · exact absurd hnone hfree
      · show (cleanupGrant m).radio.intEnabled = _ ∧ (cleanupGrant m).radio.shorts = _
        rw [cleanupGrant_inactive hidle]
        exact ⟨rfl, rfl⟩
  | timer0 =>
    rw [timeslotCallback_timer0 V rfl]
    split
    · refine callHandler_returns (hsame nofun rfl rfl) fun action m' h => ?_
      split
      · exact endGrant_returns h nofun
      · rename_i hkind
        exact handleAction_returns h nofun fun hnone => absurd (beq_iff_eq.mpr hnone) hkind
    · rename_i hevent
      exact notifyApplication_returns (hsame nofun rfl rfl) nofun fun h => hevent h.2
  | radio =>
    rw [timeslotCallback_radio V rfl]
    exact notifyApplication_returns (hsame nofun rfl rfl) nofun nofun
  | extendSucceeded =>
    rw [timeslotCallback_extendSucceeded V rfl]
    exact notifyApplication_returns (hsame nofun rfl rfl) nofun nofun
  | extendFailed =>
    rw [timeslotCallback_ending V (by simp) rfl]
    have hends := cleanupGrant_ends m
    have hclosing : (cleanupGrant m).ts.sessionClosing = m.ts.sessionClosing := by
      obtain ⟨t, r, o, _, heq⟩ := cleanupGrant_eq m
      rw [heq]
    refine notifyApplication_returns ⟨hclosing, fun ha => absurd (hends.symm.trans ha) nofun,
      fun hg _ => ?_⟩ nofun nofun
    rcases hg with hg | ⟨hstart, _⟩
    · exact cleanupGrant_disarms hg
    · cases hstart
  | _ => cases hs

/-- A deferred signal leaves the grant to MPSL: nothing is returned, whatever comes meanwhile. -/
theorem timeslotCallback_deferred (hs : mpslDeferred signal = true)
    (hknown : ∀ n, signal ≠ .other n) :
    (timeslotCallback V m.ts.sessionId signal m).Meets (fun _ _ => True) (fun _ _ => True)
      (fun p _ => p.callbackAction = .actionNone) := by
  have hnotify : ∀ m' : Machine,
      (signal == .blocked || signal == .cancelled || signal == .sessionIdle ||
      signal == .overstayed || signal == .invalidReturn) = true →
      (notifyApplication V signal m').Meets (fun _ _ => True) (fun _ _ => True) (fun p _ =>
        p.callbackAction = .actionNone) := by
    intro m' hnone
    unfold notifyApplication callHandler
    split
    · trivial
    · refine meets_wait.mpr ⟨trivial, fun action m'' _ => ?_⟩
      rw [if_pos hnone]
      rfl
  cases signal with
  | sessionIdle | blocked | cancelled =>
    rw [timeslotCallback_idle V (by simp) rfl]
    exact hnotify _ rfl
  | overstayed | invalidReturn =>
    rw [timeslotCallback_ending V (by simp) rfl]
    exact hnotify _ rfl
  | sessionClosed =>
    rw [timeslotCallback_closed V rfl]
    refine meets_bind.mpr (meets_mono (T := fun _ _ => True) (fun _ m _ => rfl) ?_)
    dsimp only
    split
    · unfold callHandler
      split
      · trivial
      · exact meets_wait.mpr ⟨trivial, fun _ _ _ => trivial⟩
    · trivial
  | other n => exact absurd rfl (hknown n)
  | _ => cases hs

/-! ## Every signal -/

/-- Over the handler only ownership calls and the hardware move. -/
theorem over_handler {ctx : List Query} {e : Entry} (hq : ∃ q ∈ ctx, level q = 3)
    (hok : RadioRule m e) (he : (radioClients V).enters ctx e m = true) :
    ((radioClients V).prog e m).Moves (radioClients V) Any HandlerMoves ctx
      (fun b _ s => HandlerMoves b s) m := by
  have hrank := rank_over hq (assuming_enters.mp he).1
  cases e with
  | radioAcquire owner =>
    obtain ⟨o, ho⟩ := acquire_eq owner m
    show HandlerMoves m (nrfkitRadioAcquire owner m).2
    rw [ho]
    exact ⟨rfl, rfl, fun _ => ⟨rfl, rfl⟩⟩
  | radioRelease owner =>
    obtain ⟨hts, htimer, hint, hshorts⟩ := release_registers owner m
    exact ⟨hts, congrArg Timer0.compareInt htimer, fun _ => ⟨hint, hshorts⟩⟩
  | radioRegisters intEnabled shorts =>
    exact ⟨rfl, rfl, fun hidle => absurd (hidle.symm.trans hok) nofun⟩
  | mpslDropRequest | swi00 | timer0Compare | radioState | clocks | callerData =>
    exact ⟨rfl, rfl, fun _ => ⟨rfl, rfl⟩⟩
  | timeslotSignal id signal | rramSignal id signal =>
    unfold Entry.rank at hrank
    dsimp only at hrank
    split at hrank <;> omega
  | _ => exact absurd hrank (by simp [Entry.rank])

theorem handlerMoves_refl (m : Machine) : HandlerMoves m m := ⟨rfl, rfl, fun _ => ⟨rfl, rfl⟩⟩

theorem handlerMoves_trans (m1 m2 m3 : Machine) (h : HandlerMoves m1 m2)
    (h' : HandlerMoves m2 m3) : HandlerMoves m1 m3 := by
  obtain ⟨hts, hint, hradio⟩ := h
  obtain ⟨hts', hint', hradio'⟩ := h'
  refine ⟨hts'.trans hts, hint'.trans hint, fun hidle => ?_⟩
  obtain ⟨hi, hs⟩ := hradio hidle
  obtain ⟨hi', hs'⟩ := hradio' (by rw [hts]; exact hidle)
  exact ⟨hi'.trans hi, hs'.trans hs⟩

/-- A call of the callback in interrupt context. -/
theorem interrupt_inCall {c d : Config Machine Query Answer Ret} (hs : mpslDeferred signal = false)
    (h : Within (radioClients V) RadioRule c (.timeslotSignal c.state.ts.sessionId signal) d)
    (hl : d.live = true) :
    InCall (radioClients V) HandlerMoves (fun _ s => s.ts.grantActive = true →
      Granted signal c.state)
      (fun r m' => ∃ p, r = .param p ∧ ReturnOk V signal c.state p m' ∧
        (m'.ts.grantActive = true → Granted signal c.state))
      (fun q => level q = 3) c d := by
  refine within_inCall handlerMoves_refl handlerMoves_trans (fun _ _ _ hq hok he =>
    over_handler hq hok he) ?_ ?_ h hl
  · refine meets_map.mpr (meets_bind.mpr (meets_mono (fun p m' hp => ?_)
      (@timeslotCallback_returns V signal
        { c.state with mpsl := mpslBeforeSignal c.state.ts.sessionId signal c.state.mpsl } hs)))
    obtain ⟨⟨hended, hrequest, hextended, hanswered, hothers⟩, hactive⟩ := hp
    refine ⟨p, rfl,
      ⟨fun h => ⟨(hended h).1, fun hg => ?_⟩, hrequest, hextended, hanswered, hothers⟩, hactive⟩
    obtain ⟨h1, h2, h3⟩ := (hended h).2 hg
    exact ⟨h1, h2, h3⟩
  · have hlevel := program_atLevel V (.timeslotSignal c.state.ts.sessionId signal) c.state
    have hrank : (Entry.timeslotSignal c.state.ts.sessionId signal).rank = 3 := by
      simp [Entry.rank, hs]
    rw [hrank] at hlevel
    exact hlevel

/-- A call of the callback in deferred context. -/
theorem deferred_inCall {c d : Config Machine Query Answer Ret} (hs : mpslDeferred signal = true)
    (hknown : ∀ n, signal ≠ .other n)
    (h : Within (radioClients V) RadioRule c (.timeslotSignal c.state.ts.sessionId signal) d)
    (hl : d.live = true) :
    InCall (radioClients V) (fun _ _ => True) (fun _ _ => True) (fun r _ => ∃ p, r = .param p ∧
      p.callbackAction = .actionNone)
      (fun q => level q = 1) c d := by
  refine within_inCall (fun _ => trivial) (fun _ _ _ _ _ => trivial)
    (fun _ _ _ _ _ _ => moves_true) ?_ ?_ h hl
  · exact meets_map.mpr (meets_bind.mpr (meets_mono (fun p m' hp => ⟨p, rfl, hp⟩)
      (@timeslotCallback_deferred V signal { c.state
        with mpsl := mpslBeforeSignal c.state.ts.sessionId signal c.state.mpsl } hs hknown)))
  · have hlevel := program_atLevel V (.timeslotSignal c.state.ts.sessionId signal) c.state
    have hrank : (Entry.timeslotSignal c.state.ts.sessionId signal).rank = 1 := by
      simp [Entry.rank, hs]
    rw [hrank] at hlevel
    exact hlevel

/-- **What the callback returns.** In every reachable state, for every signal MPSL has and whatever
the handler answers: END and REQUEST leave no grant, and nothing armed if one was active at any time
during the call; a START that finds the RADIO taken leaves its owner's registers alone; a chained
request and an extension are valid; and a grant that must end is never left running. -/
theorem callback_returns {hw : Hardware} {radio : Radio}
    {timer0 : Timer0} {c d : Config Machine Query Answer Ret}
    (h : Reachable (radioClients V) (Machine.reset hw radio timer0) c)
    (hknown : ∀ n, signal ≠ .other n)
    (hcall : Within (radioClients V) RadioRule c (.timeslotSignal c.state.ts.sessionId signal) d)
    (hl : d.live = true) (hst : d.stack = c.stack) :
    ∃ p, d.returned = some (.param p) ∧
      (p.callbackAction = .actionEnd ∨ p.callbackAction = .actionRequest →
        d.state.ts.grantActive = false ∧ ((c.state.ts.grantActive = true ∨ ∃ d',
          Within (radioClients V) RadioRule c (.timeslotSignal c.state.ts.sessionId signal) d' ∧
          d'.live = true ∧ d'.state.ts.grantActive = true) → Disarmed d.state)) ∧
      (signal = .start → c.state.radioOwner ≠ .ownerNone → c.state.radioOwner ≠ .timeslot →
        d.state.radio.intEnabled = c.state.radio.intEnabled ∧
        d.state.radio.shorts = c.state.radio.shorts) ∧
      (p.callbackAction = .actionRequest → p.pNext = true ∧ Chained V d.state) ∧
      (p.callbackAction = .actionExtend →
        V.timeslotExtensionTimeMinUs.toNat ≤ p.extendLengthUs.toNat ∧
        d.state.ts.sessionClosing = false) ∧
      (MustEnd signal c.state → p.callbackAction ≠ .actionNone) := by
  have howned : GrantOwned c.state := run_inv (grantOwned_keeps V) (I := fun _ m => GrantOwned m)
    (.ended rfl) h (within_live hcall)
  -- The signals that come at low priority leave the grant alone and answer NONE.
  cases hs : mpslDeferred signal with
  | true =>
    obtain ⟨r, hret, p, rfl, hnone⟩ := within_returned (deferred_inCall hs hknown hcall hl) hst
    refine ⟨p, hret, ?_, ?_, ?_, ?_, fun hmust => ?_⟩
    · rw [hnone]
      exact nofun
    · rintro rfl
      cases hs
    · rw [hnone]
      exact nofun
    · rw [hnone]
      exact nofun
    · rcases hmust with ⟨rfl, _⟩ | ⟨_, rfl | rfl | rfl⟩ <;> cases hs
  | false =>
    obtain ⟨r, hret, p, rfl, hok, _⟩ := within_returned (interrupt_inCall hs hcall hl) hst
    refine ⟨p, hret, fun hends => ⟨(hok.ended hends).1, fun hactive => (hok.ended hends).2 ?_⟩,
      fun hstart hne hother => ?_, hok.request, hok.extended, fun hmust hnone =>
      hok.answered hnone hmust⟩
    · rcases hactive with hactive | ⟨d', hcall', hl', hactive⟩
      · exact Or.inl hactive
      · -- wherever the call is, an active grant was granted for it
        cases interrupt_inCall hs hcall' hl' with
        | returned r _ _ hpost =>
          obtain ⟨_, _, _, hgranted⟩ := hpost
          exact hgranted hactive
        | waiting above q k s _ _ hmoves hmeets =>
          rw [hmoves.1] at hactive
          exact hmeets.1 hactive
    · refine hok.others hstart ?_ hne
      cases hg : c.state.ts.grantActive with
      | false => rfl
      | true => exact absurd (howned hg) hother

end

/-- The deadline of a grant: the handler wants to go on, but the grant ends and nothing is
left armed. -/
theorem callback_returns_deadline : ∃ c d : Config Machine Query Answer Ret,
    Within (radioClients .nrfxlib) RadioRule c (.timeslotSignal c.state.ts.sessionId .timer0) d ∧
      c.state.ts.grantActive = true ∧ c.state.timer0.compareInt = true ∧ Disarmed d.state := by
  have hrun : (run (radioClients .nrfxlib) { state := Machine.reset {} {} {} }
      (granted 1 ⟨.actionNone, 0, 0⟩ ++
        calls [(.timer0Compare, 0, ⟨.actionNone, 0, 0⟩)])).any (fun c =>
      c.state.ts.grantActive && c.state.timer0.compareInt && c.stack.isEmpty &&
        (call (radioClients .nrfxlib) c (.timeslotSignal c.state.ts.sessionId .timer0)
          [answering ⟨.actionNone, 0, 0⟩ fun _ => 0]).any (fun d =>
          d.live && d.stack.isEmpty &&
            d.returned == some (.param ⟨.actionEnd, 0, false⟩))) = true := by
    decide +kernel
  obtain ⟨c, hc, hf⟩ := (Option.any_eq_true _ _).mp hrun
  obtain ⟨⟨⟨hactive, harmed⟩, hempty⟩, hcall⟩ := by simpa only [Bool.and_eq_true] using hf
  obtain ⟨d, hd, hf⟩ := (Option.any_eq_true _ _).mp hcall
  simp only [Bool.and_eq_true, List.isEmpty_iff, beq_iff_eq] at hf hempty
  obtain ⟨⟨hl, hst⟩, hret⟩ := hf
  have hwithin := @within_of_call _ _ _ _ _ _ RadioRule _ _ _ _ hd
  have hknown : ∀ n, MpslSignal.timer0 ≠ .other n := fun _ => nofun
  obtain ⟨p, hp, hended, _⟩ := callback_returns ⟨_, hc⟩ hknown hwithin hl (hst.trans hempty.symm)
  have hend : p = ⟨.actionEnd, 0, false⟩ := by simpa using hp.symm.trans hret
  exact ⟨c, d, hwithin, hactive, harmed, (hended (Or.inl (by rw [hend]))).2 (Or.inl hactive)⟩

end NrfKit.Firmware
