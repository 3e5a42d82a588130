import NrfKit.Firmware.RramTransaction

/- The outcome of an RRAM transaction. `operation_result` is written by the callback, the
   timeout check, the request path and the close path of `rram.c`; `RramStep` lists what one
   step of the firmware can do to it and to the record of its errors. From it follows, for
   every run, that the reported result is the error recorded last (`result_last`), where it
   should be the one recorded first, or 0 if the data had all been written by then. So a run
   reports the outcome if it records an error only while there is none yet
   (`outcome_reported`). -/
namespace NrfKit.Firmware
open Interleave

variable (V : Vendor)

/-! ## Steps -/

/-- What the outcome of a transaction depends on. -/
structure OutcomeView where
  opened : Bool
  result : Int
  operationResult : Int
  remaining : UInt32
  errors : List Int
  closedErrors : List Int
  written : Nat
  size : Nat

def outcomeView (m : Machine) : OutcomeView where
  opened := m.rram.opened
  result := m.rram.result
  operationResult := m.rram.operationResult
  remaining := m.rram.remaining
  errors := m.ghost.errors
  closedErrors := m.ghost.closedErrors
  written := m.ghost.transaction.written
  size := m.ghost.transaction.size

/-- What one step can do. -/
inductive RramStep : OutcomeView → OutcomeView → Prop where
  | quiet (v : OutcomeView) : RramStep v v
  | record (v : OutcomeView) (e : Int) : e ≠ 0 →
    RramStep v { v with operationResult := e, errors := v.errors ++ [e] }
  | unit (v : OutcomeView) (remaining : UInt32) (written : Nat) : v.opened = true →
    v.operationResult = 0 →
      RramStep v { v with operationResult := 0, remaining, written }
  | copy (v : OutcomeView) (remaining : UInt32) : v.opened = false →
      RramStep v { v with operationResult := 0, errors := [], remaining }
  | accept (v : OutcomeView) (result : Int) (written size : Nat) : v.opened = false →
      RramStep v { v with opened := true, result, written, size }
  | close (v : OutcomeView) : v.opened = true →
      RramStep v { v with opened := false, result := v.operationResult, closedErrors := v.errors }

/-- Two states a step leads between. -/
def OutcomeStep (s s' : Machine) : Prop := RramStep (outcomeView s) (outcomeView s')

theorem OutcomeStep.same {s s' : Machine}
    (h : outcomeView s' = outcomeView s) : OutcomeStep s s' := by
  unfold OutcomeStep
  rw [h]
  exact .quiet _

/-- What is known of the storage session and its transaction in every run. -/
def TransactionKnown (ctx : List Query) (m : Machine) : Prop :=
  SessionsKnown ctx m ∧ TransactionOk V ctx (rramView m)

section
variable {V} {α : Type} {ctx : List Query} {m : Machine}

/-- A program whose turns are steps. -/
abbrev OutcomeMoves (V : Vendor) (ctx : List Query) (before : Machine) (t : FTurn α) : Prop :=
  t.Moves (rramContract V) (TransactionKnown V) OutcomeStep ctx
    (fun b _ s => OutcomeStep b s) before

theorem outcomeStep_setOperationResult {status : Int} (hs : status ≠ 0) (m : Machine) :
    OutcomeStep m (setOperationResult status m) := by
  unfold setOperationResult
  rw [if_pos hs]
  exact .record (outcomeView m) status hs

theorem outcomeView_release (m : Machine) :
    outcomeView (nrfkitMpslTimeslotRelease m) = outcomeView m := by
  obtain ⟨pf, h⟩ := releaseReference_eq m
  rw [h]
  rfl

/-- A note that is no error. -/
theorem outcomeView_noteRram {n : RramNote} (hn : n.code = none) (m : Machine) :
    outcomeView (m.noteRram n) = outcomeView m := by
  unfold Machine.noteRram outcomeView
  simp [hn]

theorem preempt_moves {stopping : Bool} {before : Machine} {k : Machine → FTurn α}
    (hb : OutcomeStep before m) (hk : ∀ m, OutcomeMoves V ctx m (k m)) :
    OutcomeMoves V ctx before (preempt stopping m k) :=
  moves_wait.mpr ⟨hb, fun _ m' _ _ => hk m'⟩

/-- A vendor call whose effect leaves the outcome alone. -/
theorem vendorCall_moves {call : VendorCall} {before : Machine}
    {k : VendorReply → Machine → FTurn α} (hb : OutcomeStep before m) (he : ∀ m reply,
      outcomeView ((m.vendorEffect call reply).noteCall call reply.result) = outcomeView m)
    (hk : ∀ reply m, OutcomeMoves V ctx m (k reply m)) :
    OutcomeMoves V ctx before (vendorCall call m k) :=
  moves_wait.mpr ⟨hb, fun reply m' _ _ =>
    moves_wait.mpr ⟨.same (he m' reply), fun _ m'' _ _ => hk reply m''⟩⟩

/-! ## The programs of `rram.c` -/

theorem requestClose_moves (m : Machine) : OutcomeMoves V ctx m (requestClose m) := by
  refine preempt_moves (.same rfl) fun m =>
    vendorCall_moves (.same ?_) (fun m reply => ?_) (fun reply m => ?_)
  · exact outcomeView_noteRram rfl _
  · unfold Machine.vendorEffect
    dsimp only
    split <;> rfl
  · split
    · rename_i hfailed
      exact preempt_moves (.same rfl) fun m => outcomeStep_setOperationResult hfailed m
    · exact .same rfl

theorem requestGrant_moves (m : Machine) : OutcomeMoves V ctx m (requestGrant m) := by
  refine preempt_moves (.same rfl) fun m => preempt_moves (.same rfl) fun m =>
    vendorCall_moves (.same rfl) (fun m reply => ?_) (fun reply m => ?_)
  · unfold Machine.vendorEffect
    dsimp only
    split <;> rfl
  · split
    · rename_i hfailed
      exact preempt_moves (outcomeStep_setOperationResult hfailed m) fun m => .same rfl
    · exact .same rfl

theorem rramProcess_moves (m : Machine) : OutcomeMoves V ctx m (nrfkitRramProcess V m) := by
  have htimeout : -V.etimedout ≠ 0 := by
    have := V.etimedout_pos
    omega
  unfold nrfkitRramProcess
  split
  · exact .same rfl
  refine preempt_moves (.same rfl) fun m => ?_
  split
  · exact .same rfl
  refine preempt_moves (.same rfl) fun m => moves_bind.mpr ?_
  -- the rest of the function, behind the timeout check
  have hrest : ∀ b m, OutcomeStep b m → OutcomeMoves V ctx b (preempt false m fun m =>
      if m.rram.operationResult ≠ 0 then preempt true m requestClose
      else preempt false m fun m =>
        if m.rram.remaining = 0 then preempt true m requestClose
        else preempt false m fun m => if m.rram.idle then preempt false m requestGrant
          else .done m ()) := by
    intro b m hb
    refine preempt_moves hb fun m => ?_
    split
    · exact preempt_moves (.same rfl) requestClose_moves
    refine preempt_moves (.same rfl) fun m => ?_
    split
    · exact preempt_moves (.same rfl) requestClose_moves
    refine preempt_moves (.same rfl) fun m => ?_
    split
    · exact preempt_moves (.same rfl) requestGrant_moves
    · exact .same rfl
  split
  · exact moves_wait.mpr ⟨.same rfl, fun _ m _ _ =>
      hrest m _ (outcomeStep_setOperationResult htimeout m)⟩
  · exact hrest m m (.same rfl)

/-- While a unit is written no error is on record, and when the write returns nothing is
recorded yet. -/
theorem writeUnit_moves {before : Machine} (hb : outcomeView m = outcomeView before) :
    (writeUnit V m).Moves (rramContract V) (TransactionKnown V) OutcomeStep ctx
      (fun b _ s => outcomeView s = outcomeView b ∧ s.rram.opened = true ∧
        s.rram.operationResult = 0) before := by
  refine moves_wait.mpr ⟨.same hb, fun ready m1 h1 _ => ?_⟩
  dsimp only
  split
  · obtain ⟨ho, hr, _⟩ := h1.2.frames _ List.mem_cons_self
    exact ⟨rfl, ho, hr⟩
  refine moves_wait.mpr ⟨.same rfl, fun ready m2 h2 _ => ?_⟩
  dsimp only
  split
  · refine moves_wait.mpr ⟨.same ?_, fun held m3 h3 _ =>
      moves_wait.mpr ⟨.same rfl, fun ready m4 h4 _ => ?_⟩⟩
    · exact outcomeView_noteRram rfl _
    · dsimp only
      split
      · obtain ⟨ho, hr, _⟩ := h4.2.frames _ List.mem_cons_self
        exact ⟨rfl, ho, hr⟩
      · trivial
  · trivial

theorem grantUnit_moves {before : Machine} (hb : outcomeView m = outcomeView before) :
    OutcomeMoves V ctx before (grantUnit V m) := by
  unfold grantUnit
  refine moves_bind.mpr ?_
  split
  · refine moves_bind.mpr (moves_mono (fun b status s hs => ?_) (writeUnit_moves hb))
    obtain ⟨hsame, ho, hr⟩ := hs
    dsimp only
    split
    · rename_i hstatus
      rw [hstatus]
      show RramStep (outcomeView b) _
      rw [← hsame]
      exact .unit (outcomeView s) (s.rram.remaining - 16) (s.ghost.transaction.written + 16) ho hr
    · rename_i hstatus
      show RramStep (outcomeView b) _
      rw [← hsame]
      exact outcomeStep_setOperationResult hstatus s
  · exact .same hb

/-- A signal of the storage session. -/
theorem deliverRram_moves {id : Nat} {signal : MpslSignal} (hk : TransactionKnown V ctx m)
    (hclose : signal = .sessionClosed → m.mpsl.rramClosing = true) :
    OutcomeMoves V ctx m (deliverRram V id signal m) := by
  have heio : -V.eio ≠ 0 := by
    have := V.eio_pos
    omega
  have hraised : outcomeView (raiseRramSignal id signal m) = outcomeView m := by
    unfold raiseRramSignal
    dsimp only
    split
    · exact outcomeView_noteRram rfl _
    · rfl
  have hopen : signal = .sessionClosed → m.rram.opened = true := by
    intro hs
    cases ho : m.rram.opened with
    | true => rfl
    | false => exact absurd ((hk.2.idle ho).2.symm.trans (hclose hs)) nofun
  unfold deliverRram rramCallback
  split
  · exact .same hraised
  cases signal with
  | start => exact grantUnit_moves hraised
  | sessionClosed =>
    unfold closeRramSession
    dsimp only
    generalize raiseRramSignal id .sessionClosed m = m' at hraised
    obtain ⟨pf, hpf⟩ :=
      releaseReference_eq { m' with rram := { m'.rram with opened := false, closing := false } }
    rw [hpf]
    show RramStep (outcomeView m) _
    have hopened : (outcomeView m').opened = true := hraised ▸ hopen rfl
    rw [← hraised]
    exact .close (outcomeView m') hopened
  | blocked | cancelled | sessionIdle => exact .same hraised
  | _ =>
    show RramStep (outcomeView m) _
    rw [← hraised]
    exact outcomeStep_setOperationResult heio _

theorem rramSubmit_moves {region : Option RramRegion} {address : UInt32} {data : Bool}
    {size : UInt32} :
    OutcomeMoves V ctx m (nrfkitRramSubmit V region address data size m) := by
  unfold nrfkitRramSubmit
  split
  · exact .same rfl
  split
  · exact .same rfl
  rename_i hbusy
  split
  · exact .same rfl
  obtain ⟨pf, hpf⟩ := retain_eq V m
  dsimp only
  rw [hpf]
  split
  · exact .same rfl
  have hclosed : m.rram.opened = false := Bool.eq_false_iff.mpr fun ho => hbusy (Or.inr ho)
  refine moves_wait.mpr ⟨.copy (outcomeView m) size hclosed, fun reply m1 _ _ =>
    moves_wait.mpr ⟨.same rfl, fun _ m2 h2 _ => ?_⟩⟩
  obtain ⟨hclosed2, _⟩ := h2.2.frames _ List.mem_cons_self
  dsimp only
  split
  · exact .same (outcomeView_release m2)
  · exact .accept (outcomeView m2) _ _ _ hclosed2

/-- A program that leaves the outcome alone. -/
theorem outcomeMoves_program (e : Entry) (hv : ∀ m, outcomeView (e.view m) = outcomeView m) :
    OutcomeMoves V ctx m (program V e m) := by
  refine moves_framed (fun s s' hs => .same ?_) (framed_program V e m)
  exact ((hv s').symm.trans (congrArg outcomeView hs)).trans (hv s)

end

/-- The step lemma: every turn of every program is such a step. -/
theorem outcome_steps : Steps (rramContract V) (TransactionKnown V) OutcomeStep := by
  intro ctx e m hk he
  obtain ⟨_, hcontract⟩ := assuming_enters.mp he
  have hother := @outcomeMoves_program V ctx m e
  cases e with
  | rramSubmit r a d size => exact moves_map.mpr rramSubmit_moves
  | rramProcess => exact moves_map.mpr (rramProcess_moves m)
  | rramSignal id signal =>
    refine moves_map.mpr (deliverRram_moves hk ?_)
    rintro rfl
    exact hcontract
  | _ => exact hother (fun _ => rfl)

/-! ## Runs -/

/-- What a closed session should report: 0 if its data had all been written, else the error
recorded first. -/
def OutcomeView.outcome (v : OutcomeView) : Int :=
  if v.written = v.size then 0 else v.closedErrors.head?.getD 0

/-- The operation result is the error recorded last, and a closed session reports it. -/
structure Recorded (v : OutcomeView) : Prop where
  errors : ∀ e ∈ v.errors, e ≠ 0
  current : v.operationResult = v.errors.getLast?.getD 0
  closedErrors : ∀ e ∈ v.closedErrors, e ≠ 0
  closed : v.opened = false → v.result = v.closedErrors.getLast?.getD 0

/-- At most one error is recorded, and only while data is left. -/
structure OneError (v : OutcomeView) : Prop where
  first : v.errors.length ≤ 1
  left : v.errors ≠ [] → v.remaining ≠ 0
  closed : v.opened = false → v.closedErrors.length ≤ 1 ∧ (v.closedErrors ≠ [] → v.written ≠ v.size)

section
variable {v v' : OutcomeView}

theorem last_zero {errors : List Int} (h : ∀ e ∈ errors, e ≠ 0) :
    errors.getLast?.getD 0 = 0 ↔ errors = [] := by
  rcases List.eq_nil_or_concat errors with rfl | ⟨earlier, e, rfl⟩
  · simp
  · simpa using h e (by simp)

/-- Nothing is recorded where the operation result is 0. -/
theorem Recorded.nothing (h : Recorded v) (hr : v.operationResult = 0) : v.errors = [] :=
  (last_zero h.errors).mp (h.current.symm.trans hr)

theorem Recorded.step (h : RramStep v v') (hv : Recorded v) : Recorded v' := by
  obtain ⟨herrors, hcurrent, hclosedErrors, hclosed⟩ := hv
  cases h with
  | quiet => exact ⟨herrors, hcurrent, hclosedErrors, hclosed⟩
  | record e he =>
    refine ⟨fun x hx => ?_, by simp, hclosedErrors, hclosed⟩
    rcases List.mem_append.mp hx with hx | hx
    · exact herrors x hx
    · exact List.mem_singleton.mp hx ▸ he
  | unit remaining written ho hr => exact ⟨herrors, hr.symm.trans hcurrent, hclosedErrors, hclosed⟩
  | copy remaining ho => exact ⟨nofun, rfl, hclosedErrors, hclosed⟩
  | accept result written size ho => exact ⟨herrors, hcurrent, hclosedErrors, nofun⟩
  | close ho => exact ⟨herrors, hcurrent, herrors, fun _ => hcurrent⟩

/-- The last error is the first one if there is only one. -/
theorem last_eq_head {errors : List Int}
    (h : errors.length ≤ 1) : errors.getLast? = errors.head? := by
  match errors with
  | [] | [_] => rfl
  | _ :: _ :: _ => simp at h

theorem OneError.step (h : RramStep v v') (hv : OneError v) (hr : Recorded v)
    (hloaded : v.opened = true → v.remaining ≠ 0 → v.written ≠ v.size)
    (hp : v.errors.length < v'.errors.length → v.operationResult = 0 ∧ v.remaining ≠ 0) :
    OneError v' := by
  obtain ⟨hfirst, hleft, hclosed⟩ := hv
  cases h with
  | quiet => exact ⟨hfirst, hleft, hclosed⟩
  | record e he =>
    obtain ⟨hzero, hremaining⟩ := hp (by simp)
    refine ⟨?_, fun _ => hremaining, hclosed⟩
    simp [hr.nothing hzero]
  | unit remaining written ho hzero =>
    refine ⟨hfirst, fun hne => absurd (hr.nothing hzero) hne, fun hc =>
      absurd (ho.symm.trans hc) nofun⟩
  | copy remaining ho => exact ⟨Nat.zero_le 1, fun hne => absurd rfl hne, hclosed⟩
  | accept result written size ho => exact ⟨hfirst, hleft, nofun⟩
  | close ho => exact ⟨hfirst, hleft, fun _ => ⟨hfirst, fun hne => hloaded ho (hleft hne)⟩⟩

/-- Bytes of an open transaction are written only where the operation result is 0. -/
theorem RramStep.written (h : RramStep v v') (ho : v.opened = true)
    (hmoved : v'.written ≠ v.written) :
    v.operationResult = 0 := by
  cases h with
  | unit remaining written _ hzero => exact hzero
  | accept result written size hclosed => exact absurd (ho.symm.trans hclosed) nofun
  | _ => exact absurd rfl hmoved

/-- Exactly when a closed session reports the outcome. -/
theorem Recorded.exact (h : Recorded v) (hc : v.opened = false) : v.result = v.outcome ↔
    if v.written = v.size then v.closedErrors = []
      else v.closedErrors.getLast? = v.closedErrors.head? := by
  rw [h.closed hc]
  unfold OutcomeView.outcome
  split
  · exact last_zero h.closedErrors
  · rcases List.eq_nil_or_concat v.closedErrors with h0 | ⟨earlier, e, he⟩
    · simp [h0]
    · cases hhead : v.closedErrors.head? with
      | none => simp [he] at hhead
      | some first => simp [he]

end

/-- If the step records an error, data was left and there was none before. -/
def Undecided (c c' : Config Machine Query Answer Ret) : Prop :=
  c.state.ghost.errors.length < c'.state.ghost.errors.length →
    c.state.rram.operationResult = 0 ∧ c.state.rram.remaining ≠ 0

instance (c c' : Config Machine Query Answer Ret) : Decidable (Undecided c c') :=
  inferInstanceAs (Decidable (_ → _))

section
variable {V} {hw : Hardware} {radio : Radio} {timer0 : Timer0} {c : Config Machine Query Answer Ret}

theorem transactionKnown_keeps : Keeps (rramContract V) Any (TransactionKnown V) :=
  (keeps_assuming (openSessions_known V)).and (transaction_keeps V)

theorem transactionKnown_reset : TransactionKnown V [] (Machine.reset hw radio timer0) :=
  ⟨sessionsKnown_reset hw radio timer0, transactionOk_reset V hw radio timer0⟩

theorem recorded_reset : Recorded (outcomeView (Machine.reset hw radio timer0)) :=
  ⟨nofun, rfl, nofun, fun _ => rfl⟩

/-- Every reachable state's record is what its variables say. -/
theorem recorded (h : Reachable (rramContract V) (Machine.reset hw radio timer0) c)
    (hl : c.live = true) :
    Recorded (outcomeView c.state) :=
  steps_inv transactionKnown_keeps (outcome_steps V) transactionKnown_reset
    (G := fun m => Recorded (outcomeView m)) (fun _ _ hstep hv => hv.step hstep) h hl recorded_reset

end

/-- **The outcome of RRAM transactions.** In every run that records an error only where there is
none yet and data is left, a closed session reports the outcome. What it does in any run is
known exactly: it reports the outcome if there is no error although all data was written, or if
the error recorded last is the first one. Nothing is written once an error is recorded. -/
theorem outcome_reported :
    (∀ (hw : Hardware) (radio : Radio) (timer0 : Timer0) (es : List (Event Query Answer Entry))
      (c : Config Machine Query Answer Ret),
      run (rramContract V) { state := Machine.reset hw radio timer0 } es = some c → c.live = true →
      Along (rramContract V) Undecided { state := Machine.reset hw radio timer0 } es →
      c.state.rram.opened = false → nrfkitRramResult c.state = (outcomeView c.state).outcome) ∧
    ∀ (hw : Hardware) (radio : Radio) (timer0 : Timer0) (c : Config Machine Query Answer Ret),
      Reachable (rramContract V) (Machine.reset hw radio timer0) c → c.live = true →
      (c.state.rram.opened = false → (nrfkitRramResult c.state = (outcomeView c.state).outcome ↔
        if c.state.ghost.transaction.written = c.state.ghost.transaction.size then
          c.state.ghost.closedErrors = []
        else c.state.ghost.closedErrors.getLast? = c.state.ghost.closedErrors.head?)) ∧
      ∀ (e : Event Query Answer Entry) (c' : Config Machine Query Answer Ret),
        step (rramContract V) c e = some c' → c'.live = true → c.state.rram.opened = true →
        c'.state.ghost.transaction.written ≠ c.state.ghost.transaction.written →
        c.state.ghost.errors = [] := by
  refine ⟨?_, ?_⟩
  · intro hw radio timer0 es c hrun hl halong hclosed
    have hboth : Recorded (outcomeView c.state) ∧ OneError (outcomeView c.state) := by
      refine along_inv transactionKnown_keeps (outcome_steps V) transactionKnown_reset
        (G := fun m => Recorded (outcomeView m) ∧ OneError (outcomeView m)) ?_ ⟨[],
          rfl⟩ halong hrun hl ?_
      · intro c c' _ _ hk hstep hp hg
        refine ⟨hg.1.step hstep, hg.2.step hstep hg.1 (fun ho hleft => ?_) hp⟩
        have hremaining : c.state.ghost.transaction.written + c.state.rram.remaining.toNat =
            c.state.ghost.transaction.size := (hk.2.loaded ho).remaining
        have hpos : c.state.rram.remaining.toNat ≠ 0 := fun h0 => hleft (UInt32.toNat_inj.mp h0)
        show c.state.ghost.transaction.written ≠ c.state.ghost.transaction.size
        omega
      · exact ⟨recorded_reset, Nat.zero_le 1, fun hne => absurd rfl hne, fun _ =>
          ⟨Nat.zero_le 1, fun hne => absurd rfl hne⟩⟩
    obtain ⟨hrecorded, hone⟩ := hboth
    refine (hrecorded.exact hclosed).mpr ?_
    obtain ⟨hfirst, hunfinished⟩ := hone.closed hclosed
    split
    · rename_i hall
      exact Decidable.byContradiction fun hne => hunfinished hne hall
    · exact last_eq_head hfirst
  · intro hw radio timer0 c h hl
    have hrecorded := recorded h hl
    refine ⟨hrecorded.exact, fun e c' hstep hl' ho hmoved => ?_⟩
    have hmoves : OutcomeStep c.state c'.state :=
      reachable_moves transactionKnown_keeps (outcome_steps V) transactionKnown_reset h hstep hl'
    exact hrecorded.nothing (RramStep.written hmoves ho hmoved)

/-- A unit is written and verified, then the transaction times out: the result is the timeout. -/
theorem outcome_lost :
    ∃ c, Reachable (rramContract .nrfxlib) (Machine.reset {} {} {}) c ∧ c.live = true ∧
    c.state.rram.opened = false ∧
    c.state.ghost.transaction.written = c.state.ghost.transaction.size ∧
    nrfkitRramResult c.state ≠ (outcomeView c.state).outcome := by
  obtain ⟨c, h, hf⟩ := reachable_of_run (rramContract .nrfxlib) (.reset {} {} {})
    (calls [enabled, (.rramSubmit (some ⟨0, 8192⟩) 4096 true 16, 2, ⟨.actionNone, 0, 0⟩),
      (.rramProcess, 10, ⟨.actionNone, 0, 0⟩), (.rramSignal 2 .start, 4, ⟨.actionNone, 0, 0⟩),
      (.clocks 128000000 true 2000000, 0, ⟨.actionNone, 0, 0⟩),
      (.rramProcess, 8, ⟨.actionNone, 0, 0⟩),
        (.rramSignal 2 .sessionClosed, 0, ⟨.actionNone, 0, 0⟩)])
    (fun c => c.live && !c.state.rram.opened &&
      c.state.ghost.transaction.written == c.state.ghost.transaction.size &&
      c.state.rram.result != (outcomeView c.state).outcome)
    (by decide +kernel)
  simp only [Bool.and_eq_true, Bool.not_eq_true', beq_iff_eq, bne_iff_ne] at hf
  obtain ⟨⟨⟨hl, hclosed⟩, hall⟩, hresult⟩ := hf
  exact ⟨c, h, hl, hclosed, hall, hresult⟩

/-- An unexpected signal before the only unit is the error reported. -/
theorem outcome_reported_signal :
    ∃ c, Reachable (rramContract .nrfxlib) (Machine.reset {} {} {}) c ∧
    nrfkitRramResult c.state = -5 := by
  have hrun : (run (rramContract .nrfxlib) { state := Machine.reset {} {} {} } (calls [enabled,
      (.rramSubmit (some ⟨0, 8192⟩) 4096 true 16, 2, ⟨.actionNone, 0, 0⟩),
        (.rramSignal 2 .radio, 0, ⟨.actionNone, 0, 0⟩),
      (.rramProcess, 7, ⟨.actionNone, 0, 0⟩),
        (.rramSignal 2 .sessionClosed, 0, ⟨.actionNone, 0, 0⟩)])).any
      (fun c => c.live && !c.state.rram.opened && (outcomeView c.state).outcome == -5) = true := by
    decide +kernel
  obtain ⟨c, hc, hf⟩ := (Option.any_eq_true _ _).mp hrun
  simp only [Bool.and_eq_true, Bool.not_eq_true', beq_iff_eq] at hf
  obtain ⟨⟨hl, hclosed⟩, houtcome⟩ := hf
  refine ⟨c, ⟨_, hc⟩, ?_⟩
  rw [← houtcome]
  exact (outcome_reported .nrfxlib).1 {} {} {} _ c hc hl (by decide +kernel) hclosed

end NrfKit.Firmware
