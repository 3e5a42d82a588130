import Mathlib.Algebra.Order.Ring.Nat

/- Programs with exceptions that act on the outside by named operations. `Env` is the
   outside: how an operation ends may depend on everything that happened before, so a
   statement about every `Env` is one about every point at which something may raise.

   `Triple P m Q E` is total: a program run where `P` holds ends, where it returns `Q`
   holds and where it raises `E` does. The rules below are the calculus; `Keeps I m` is
   the triple of an invariant, and `keeps_perform` leaves of an operation only what it
   adds to the history. -/
namespace Effects

/-- One operation, and how it ended. -/
structure Event (Op : Type) (Ans : Op → Type) (ε : Type) where
  op : Op
  outcome : Except ε (Ans op)

abbrev History (Op : Type) (Ans : Op → Type) (ε : Type) := List (Event Op Ans ε)

abbrev Env (Op : Type) (Ans : Op → Type) (ε : Type) :=
  History Op Ans ε → (op : Op) → Except ε (Ans op)

/-- The variables of the program, and what has happened. -/
structure World (Op : Type) (Ans : Op → Type) (ε σ : Type) where
  locals : σ
  history : History Op Ans ε := []

def Prog (Op : Type) (Ans : Op → Type) (ε σ α : Type) :=
  Env Op Ans ε → World Op Ans ε σ → Except ε α × World Op Ans ε σ

variable {Op : Type} {Ans : Op → Type} {ε σ α β : Type}

namespace Prog

def bind (m : Prog Op Ans ε σ α) (f : α → Prog Op Ans ε σ β) : Prog Op Ans ε σ β := fun env w =>
  match m env w with
  | (.ok a, w') => f a env w'
  | (.error e, w') => (.error e, w')

instance : Monad (Prog Op Ans ε σ) where
  pure a := fun _ w => (.ok a, w)
  bind := Prog.bind

def raise (e : ε) : Prog Op Ans ε σ α := fun _ w => (.error e, w)

def perform (op : Op) : Prog Op Ans ε σ (Ans op) := fun env w =>
  (env w.history op, { w with history := w.history ++ [⟨op, env w.history op⟩] })

/-- The value of an expression over the variables. -/
def locals (f : σ → α) : Prog Op Ans ε σ α := fun _ w => (.ok (f w.locals), w)

/-- An assignment. -/
def assign (f : σ → σ) : Prog Op Ans ε σ Unit :=
  fun _ w => (.ok (), { w with locals := f w.locals })

/-- `if condition: m`. -/
def when (condition : Bool) (m : Prog Op Ans ε σ Unit) : Prog Op Ans ε σ Unit :=
  if condition then m else pure ()

/-- `try: body finally: cleanup`. What `cleanup` raises takes the place of the rest. -/
def withFinally (body : Prog Op Ans ε σ α)
    (cleanup : Prog Op Ans ε σ Unit) : Prog Op Ans ε σ α := fun env w =>
  match cleanup env (body env w).2 with
  | (.ok _, w') => ((body env w).1, w')
  | (.error e, w') => (.error e, w')

/-- `try: body except: handler`. -/
def withExcept (body : Prog Op Ans ε σ α)
    (handler : ε → Prog Op Ans ε σ α) : Prog Op Ans ε σ α := fun env w =>
  match body env w with
  | (.ok a, w') => (.ok a, w')
  | (.error e, w') => handler e env w'

/-- The loop `while` a body says `none`, at most `n` times; `otherwise` after the last. -/
def repeatUntil (otherwise : Prog Op Ans ε σ α) (body : Prog Op Ans ε σ (Option α)) :
    Nat → Prog Op Ans ε σ α
  | 0 => otherwise
  | n + 1 => body >>= fun
    | some a => pure a
    | none => repeatUntil otherwise body n

end Prog

open Prog

/-! ## Triples -/

/-- Started where `P` holds, the program ends: where it returns `Q` holds, where it raises
`E` does. -/
def Triple (env : Env Op Ans ε) (P : World Op Ans ε σ → Prop) (m : Prog Op Ans ε σ α)
    (Q : α → World Op Ans ε σ → Prop) (E : ε → World Op Ans ε σ → Prop) : Prop :=
  ∀ w, P w → match m env w with
    | (.ok a, w') => Q a w'
    | (.error e, w') => E e w'

/-- However the program ends, `B` holds there. -/
abbrev Ends (env : Env Op Ans ε) (P : World Op Ans ε σ → Prop) (m : Prog Op Ans ε σ α)
    (B : World Op Ans ε σ → Prop) : Prop :=
  Triple env P m (fun _ => B) (fun _ => B)

/-- The program keeps `I`, however it ends. -/
abbrev Keeps (env : Env Op Ans ε) (I : World Op Ans ε σ → Prop) (m : Prog Op Ans ε σ α) : Prop :=
  Ends env I m I

section
variable {env : Env Op Ans ε} {P P' I B : World Op Ans ε σ → Prop}
    {Q Q' : α → World Op Ans ε σ → Prop}
    {E E' : ε → World Op Ans ε σ → Prop}

theorem Ends.world {m : Prog Op Ans ε σ α} (h : Ends env P m B) {w : World Op Ans ε σ} (hw : P w) :
    B (m env w).2 := by
  have := h w hw
  match hrun : m env w with
  | (.ok a, w') =>
    rw [hrun] at this
    exact this
  | (.error e, w') =>
    rw [hrun] at this
    exact this

theorem triple_mono {m : Prog Op Ans ε σ α} (h : Triple env P m Q E) (hP : ∀ w, P' w → P w)
    (hQ : ∀ a w, Q a w → Q' a w) (hE : ∀ e w, E e w → E' e w) : Triple env P' m Q' E' := by
  intro w hw
  have := h w (hP w hw)
  match hrun : m env w with
  | (.ok a, w') =>
    rw [hrun] at this
    exact hQ a w' this
  | (.error e, w') =>
    rw [hrun] at this
    exact hE e w' this

/-- A fact that does not depend on the run comes out of the assertion. -/
theorem triple_fact {φ : Prop} {m : Prog Op Ans ε σ α} (h : φ → Triple env P m Q E) :
    Triple env (fun w => P w ∧ φ) m Q E :=
  fun w hw => h hw.2 w hw.1

theorem triple_pure {a : α} (h : ∀ w, P w → Q a w) :
    Triple env P (pure a : Prog Op Ans ε σ α) Q E := h

theorem triple_raise {e : ε} (h : ∀ w, P w → E e w) :
    Triple env P (raise e : Prog Op Ans ε σ α) Q E := h

theorem triple_locals {f : σ → α} (h : ∀ w, P w → Q (f w.locals) w) :
    Triple env P (Prog.locals f : Prog Op Ans ε σ α) Q E := h

theorem triple_assign {f : σ → σ} {Q : Unit → World Op Ans ε σ → Prop}
    (h : ∀ w, P w → Q () { w with locals := f w.locals }) : Triple env P (assign f) Q E := h

/-- The outside answers as it does after this history. -/
theorem triple_answered {op : Op} {Q : Ans op → World Op Ans ε σ → Prop}
    (h : ∀ w a, env w.history op = .ok a → P w →
      Q a { w with history := w.history ++ [⟨op, .ok a⟩] })
    (h' : ∀ w e, env w.history op = .error e → P w →
      E e { w with history := w.history ++ [⟨op, .error e⟩] }) :
    Triple env P (perform op) Q E := by
  intro w hw
  unfold perform
  cases hanswer : env w.history op with
  | ok a => exact h w a hanswer hw
  | error e => exact h' w e hanswer hw

theorem triple_perform {op : Op} {Q : Ans op → World Op Ans ε σ → Prop}
    (h : ∀ w a, P w → Q a { w with history := w.history ++ [⟨op, .ok a⟩] })
    (h' : ∀ w e, P w → E e { w with history := w.history ++ [⟨op, .error e⟩] }) :
    Triple env P (perform op) Q E :=
  triple_answered (fun w a _ => h w a) fun w e _ => h' w e

/-- What a program raises goes past the rest. -/
theorem triple_bind {m : Prog Op Ans ε σ β} {f : β → Prog Op Ans ε σ α}
    (R : β → World Op Ans ε σ → Prop) (hm : Triple env P m R E)
    (hf : ∀ b, Triple env (R b) (f b) Q E) : Triple env P (m >>= f) Q E := by
  intro w hw
  have hstep := hm w hw
  show match Prog.bind m f env w with
    | (.ok a, w') => Q a w'
    | (.error e, w') => E e w'
  unfold Prog.bind
  match hrun : m env w with
  | (.ok b, w') =>
    rw [hrun] at hstep
    exact hf b w' hstep
  | (.error e, w') =>
    rw [hrun] at hstep
    exact hstep

theorem triple_ite {c : Prop} [Decidable c] {m m' : Prog Op Ans ε σ α} (h : c → Triple env P m Q E)
    (h' : ¬ c → Triple env P m' Q E) : Triple env P (if c then m else m') Q E := by
  by_cases hc : c
  · rw [if_pos hc]
    exact h hc
  · rw [if_neg hc]
    exact h' hc

theorem triple_when {condition : Bool} {m : Prog Op Ans ε σ Unit}
    {Q : Unit → World Op Ans ε σ → Prop} (h : condition = true → Triple env P m Q E)
    (h' : condition = false → ∀ w, P w → Q () w) :
    Triple env P (when condition m) Q E := by
  cases condition with
  | true => exact h rfl
  | false => exact h' rfl

/-- The cleanup runs where the body ended, and decides only whether its own exception
takes over. -/
theorem triple_finally {body : Prog Op Ans ε σ α} {cleanup : Prog Op Ans ε σ Unit}
    (R : α → World Op Ans ε σ → Prop) (F : ε → World Op Ans ε σ → Prop)
    (hbody : Triple env P body R F) (hreturned : ∀ a, Triple env (R a) cleanup (fun _ => Q a) E)
    (hraised : ∀ e, Triple env (F e) cleanup (fun _ => E e) E) :
    Triple env P (withFinally body cleanup) Q E := by
  intro w hw
  have hstep := hbody w hw
  unfold withFinally
  match hrun : body env w with
  | (.ok a, w') =>
    rw [hrun] at hstep
    have hlast := hreturned a w' hstep
    dsimp only
    match hrun' : cleanup env w' with
    | (.ok _, w'') =>
      rw [hrun'] at hlast
      exact hlast
    | (.error e, w'') =>
      rw [hrun'] at hlast
      exact hlast
  | (.error e, w') =>
    rw [hrun] at hstep
    have hlast := hraised e w' hstep
    dsimp only
    match hrun' : cleanup env w' with
    | (.ok _, w'') =>
      rw [hrun'] at hlast
      exact hlast
    | (.error e, w'') =>
      rw [hrun'] at hlast
      exact hlast

theorem triple_except {body : Prog Op Ans ε σ α} {handler : ε → Prog Op Ans ε σ α}
    (F : ε → World Op Ans ε σ → Prop) (hbody : Triple env P body Q F)
    (hhandler : ∀ e, Triple env (F e) (handler e) Q E) :
    Triple env P (withExcept body handler) Q E := by
  intro w hw
  have hstep := hbody w hw
  unfold withExcept
  match hrun : body env w with
  | (.ok a, w') =>
    rw [hrun] at hstep
    exact hstep
  | (.error e, w') =>
    rw [hrun] at hstep
    exact hhandler e w' hstep

/-- A body that may end anywhere in `R`, and a cleanup from there. -/
theorem ends_finally {body : Prog Op Ans ε σ α} {cleanup : Prog Op Ans ε σ Unit}
    (R : World Op Ans ε σ → Prop) (hbody : Ends env P body R) (hcleanup : Ends env R cleanup B) :
    Ends env P (withFinally body cleanup) B :=
  triple_finally (fun _ => R) (fun _ => R) hbody (fun _ => hcleanup) fun _ => hcleanup

/-! ## Invariants -/

theorem keeps_pure (a : α) : Keeps env I (pure a : Prog Op Ans ε σ α) := triple_pure fun _ hw => hw

theorem keeps_raise (e : ε) : Keeps env I (raise e : Prog Op Ans ε σ α) :=
  triple_raise fun _ hw => hw

theorem keeps_locals (f : σ → α) : Keeps env I (Prog.locals f : Prog Op Ans ε σ α) :=
  triple_locals fun _ hw => hw

theorem keeps_assign {f : σ → σ} (h : ∀ w, I w → I { w with locals := f w.locals }) :
    Keeps env I (assign f : Prog Op Ans ε σ Unit) := triple_assign h

theorem keeps_perform {op : Op}
    (h : ∀ w outcome, I w → I { w with history := w.history ++ [⟨op, outcome⟩] }) :
    Keeps env I (perform op : Prog Op Ans ε σ (Ans op)) :=
  triple_perform (fun w a hw => h w (.ok a) hw) fun w e hw => h w (.error e) hw

theorem keeps_answered {op : Op}
    (h : ∀ w, I w → I { w with history := w.history ++ [⟨op, env w.history op⟩] }) :
    Keeps env I (perform op : Prog Op Ans ε σ (Ans op)) :=
  triple_answered (fun w _ hanswer hw => hanswer ▸ h w hw) fun w _ hanswer hw => hanswer ▸ h w hw

theorem keeps_bind {m : Prog Op Ans ε σ β} {f : β → Prog Op Ans ε σ α} (hm : Keeps env I m)
    (hf : ∀ b, Keeps env I (f b)) : Keeps env I (m >>= f) := triple_bind (fun _ => I) hm hf

/-- A part that keeps what it finds, before the rest. -/
theorem keeps_then {m : Prog Op Ans ε σ β} {f : β → Prog Op Ans ε σ α} (hm : Keeps env I m)
    (hraised : ∀ e w, I w → E e w)
    (hf : ∀ b, Triple env I (f b) Q E) : Triple env I (m >>= f) Q E :=
  triple_bind (fun _ => I) (triple_mono hm (fun _ hw => hw) (fun _ _ hw => hw) hraised) hf

theorem keeps_ite {c : Prop} [Decidable c] {m m' : Prog Op Ans ε σ α} (h : Keeps env I m)
    (h' : Keeps env I m') : Keeps env I (if c then m else m') := triple_ite (fun _ => h) fun _ => h'

theorem keeps_when {condition : Bool} {m : Prog Op Ans ε σ Unit} (h : Keeps env I m) :
    Keeps env I (when condition m) := triple_when (fun _ => h) fun _ _ hw => hw

theorem keeps_finally {body : Prog Op Ans ε σ α} {cleanup : Prog Op Ans ε σ Unit}
    (hbody : Keeps env I body) (hcleanup : Keeps env I cleanup) :
    Keeps env I (withFinally body cleanup) := ends_finally I hbody hcleanup

theorem keeps_except {body : Prog Op Ans ε σ α} {handler : ε → Prog Op Ans ε σ α}
    (hbody : Keeps env I body) (hhandler : ∀ e, Keeps env I (handler e)) :
    Keeps env I (withExcept body handler) :=
  triple_except (fun _ => I) hbody hhandler

theorem keeps_repeatUntil {otherwise : Prog Op Ans ε σ α} {body : Prog Op Ans ε σ (Option α)}
    (hotherwise : Keeps env I otherwise) (hbody : Keeps env I body) (n : Nat) :
    Keeps env I (repeatUntil otherwise body n) := by
  induction n with
  | zero => exact hotherwise
  | succ n ih =>
    apply keeps_bind hbody
    intro result
    cases result with
    | some a => exact keeps_pure a
    | none => exact ih

end

/-! ## Histories -/

section
variable {p q stop : Op → Prop} {happening : Event Op Ans ε → Prop} {R : History Op Ans ε → Prop}
  {witnessed : History Op Ans ε → Event Op Ans ε → Prop} {h : History Op Ans ε} {e : Event Op Ans ε}

def Happened (happening : Event Op Ans ε → Prop) (h : History Op Ans ε) : Prop :=
  ∃ e ∈ h, happening e

/-- Something happened that no `q` came after. -/
def Since (happening : History Op Ans ε → Event Op Ans ε → Prop) (q : Op → Prop)
    (h : History Op Ans ε) : Prop :=
  ∃ before e after, h = before ++ e :: after ∧ happening before e ∧ ∀ x ∈ after, ¬ q x.op

/-- Some `p` has no `q` after it. -/
def Pending (p q : Op → Prop) (h : History Op Ans ε) : Prop :=
  ∃ before e after, h = before ++ e :: after ∧ p e.op ∧ ∀ x ∈ after, ¬ q x.op

/-- Where `stop` happened, `R` held of what was before. -/
def Guarded (stop : Op → Prop) (R : History Op Ans ε → Prop) (h : History Op Ans ε) : Prop :=
  ∀ before e after, h = before ++ e :: after → stop e.op → R before

/-- Every event ended as the outside answered it. -/
def Answered (env : Env Op Ans ε) (h : History Op Ans ε) : Prop :=
  ∀ before e after, h = before ++ e :: after → e.outcome = env before e.op

/-- What the last event that tells something tells. -/
def latest (f : Event Op Ans ε → Option α) (h : History Op Ans ε) : Option α :=
  h.reverse.findSome? f

theorem latest_concat (f : Event Op Ans ε → Option α) :
    latest f (h ++ [e]) = (f e).or (latest f h) := by
  rw [latest, List.reverse_append, List.reverse_singleton, List.singleton_append,
    List.findSome?_cons]
  cases f e <;> rfl

theorem happened_mono (hold : Happened happening h) : Happened happening (h ++ [e]) := by
  obtain ⟨x, hx, hp⟩ := hold
  exact ⟨x, List.mem_append_left _ hx, hp⟩

theorem happened_nil : ¬ Happened happening ([] : History Op Ans ε) := fun ⟨_, he, _⟩ => nomatch he

theorem happened_concat : Happened happening (h ++ [e]) ↔ Happened happening h ∨ happening e := by
  simp only [Happened, List.mem_append, List.mem_singleton]
  constructor
  · rintro ⟨x, hx | rfl, hp⟩
    · exact Or.inl ⟨x, hx, hp⟩
    · exact Or.inr hp
  · rintro (⟨x, hx, hp⟩ | hp)
    · exact ⟨x, Or.inl hx, hp⟩
    · exact ⟨e, Or.inr rfl, hp⟩

/-- The last event is the last of the history or lies behind a split of the rest. -/
theorem concat_split {before after : History Op Ans ε} {x : Event Op Ans ε} :
    h ++ [e] = before ++ x :: after ↔
      (before = h ∧ x = e ∧ after = []) ∨ ∃ after', after = after' ++ [e] ∧
        h = before ++ x :: after' := by
  constructor
  · intro heq
    rcases List.eq_nil_or_concat after with rfl | ⟨after', y, rfl⟩
    · obtain ⟨h1, h2⟩ := List.append_inj' heq rfl
      cases h2
      exact Or.inl ⟨h1.symm, rfl, rfl⟩
    · rw [List.concat_eq_append, ← List.cons_append, ← List.append_assoc] at heq
      obtain ⟨h1, h2⟩ := List.append_inj' heq rfl
      cases h2
      exact Or.inr ⟨after', List.concat_eq_append, h1⟩
  · rintro (⟨rfl, rfl, rfl⟩ | ⟨after', rfl, rfl⟩)
    · rfl
    · simp

theorem since_nil : ¬ Since witnessed q ([] : History Op Ans ε) := by
  rintro ⟨before, e, after, heq, _⟩
  cases before <;> cases heq

theorem since_concat :
    Since witnessed q (h ++ [e]) ↔ witnessed h e ∨ (Since witnessed q h ∧ ¬ q e.op) := by
  constructor
  · rintro ⟨before, x, after, heq, hp, hq⟩
    rcases concat_split.mp heq with ⟨rfl, rfl, _⟩ | ⟨after', rfl, rfl⟩
    · exact Or.inl hp
    · refine Or.inr ⟨⟨before, x, after', rfl, hp, fun y hy => hq y (List.mem_append_left _ hy)⟩, ?_⟩
      exact hq e (List.mem_append_right _ (List.mem_singleton_self e))
  · rintro (hp | ⟨⟨before, x, after, rfl, hp, hq⟩, hlast⟩)
    · exact ⟨h, e, [], rfl, hp, nofun⟩
    · refine ⟨before, x, after ++ [e], by simp, hp, ?_⟩
      intro y hy
      rcases List.mem_append.mp hy with hold | hnew
      · exact hq y hold
      · rw [List.mem_singleton.mp hnew]
        exact hlast

theorem pending_nil : ¬ Pending p q ([] : History Op Ans ε) :=
  @since_nil Op Ans ε q fun _ e => p e.op

theorem pending_concat : Pending p q (h ++ [e]) ↔ p e.op ∨ (Pending p q h ∧ ¬ q e.op) :=
  @since_concat Op Ans ε q (fun _ e => p e.op) h e

theorem answered_nil {env : Env Op Ans ε} : Answered env ([] : History Op Ans ε) := by
  intro before e after heq
  cases before <;> cases heq

theorem answered_concat {env : Env Op Ans ε} :
    Answered env (h ++ [e]) ↔ Answered env h ∧ e.outcome = env h e.op := by
  constructor
  · intro hall
    exact ⟨fun before x after heq => hall before x (after ++ [e]) (by rw [heq]; simp),
      hall h e [] rfl⟩
  · rintro ⟨hold, hnew⟩ before x after heq
    rcases concat_split.mp heq with ⟨rfl, rfl, _⟩ | ⟨after', rfl, rfl⟩
    · exact hnew
    · exact hold before x after' rfl

theorem guarded_nil : Guarded stop R ([] : History Op Ans ε) := by
  intro before e after heq
  cases before <;> cases heq

theorem guarded_concat : Guarded stop R (h ++ [e]) ↔ Guarded stop R h ∧ (stop e.op → R h) := by
  constructor
  · intro hall
    refine ⟨fun before x after heq hx => ?_, fun hx => hall h e [] rfl hx⟩
    exact hall before x (after ++ [e]) (by rw [heq]; simp) hx
  · rintro ⟨hold, hnew⟩ before x after heq hx
    rcases concat_split.mp heq with ⟨rfl, rfl, _⟩ | ⟨after', rfl, rfl⟩
    · exact hnew hx
    · exact hold before x after' rfl hx

end

/-! ## What is stored

`contents` is what is stored under each name after a history. All that is known of it is that
an operation leaves alone what it does not write. -/

section
variable {Name Data : Type} {writes : Op → Name → Prop}
    {contents : History Op Ans ε → Name → Data} {name : Name}
    {happening : History Op Ans ε → Event Op Ans ε → Prop} {h : History Op Ans ε}

def Untouched (writes : Op → Name → Prop) (contents : History Op Ans ε → Name → Data)
    (h : History Op Ans ε) : Prop :=
  ∀ before e after name, h = before ++ e :: after → ¬ writes e.op name →
    contents (before ++ [e]) name = contents before name

theorem untouched_front {before after : History Op Ans ε}
    (hu : Untouched writes contents (before ++ after)) :
    Untouched writes contents before :=
  fun front e back name heq => hu front e (back ++ after) name (by rw [heq]; simp)

/-- What no later operation writes is still there. -/
theorem untouched_append {before : History Op Ans ε} : ∀ {after : History Op Ans ε},
    Untouched writes contents (before ++ after) → (∀ x ∈ after, ¬ writes x.op name) →
      contents (before ++ after) name = contents before name
  | [], _, _ => by rw [List.append_nil]
  | x :: after, hu, hwrites => by
    obtain ⟨hx, hafter⟩ := List.forall_mem_cons.mp hwrites
    have hrest : contents (before ++ [x] ++ after) name = contents (before ++ [x]) name :=
      @untouched_append (before ++ [x]) after (by simpa using hu) hafter
    rw [show before ++ x :: after = before ++ [x] ++ after by simp, hrest]
    exact hu before x after name rfl hx

/-- What happened since the last write tells what is stored. -/
theorem since_stored (hu : Untouched writes contents h)
    (hs : Since happening (fun op => writes op name) h) :
    ∃ before e after, h = before ++ e :: after ∧ happening before e ∧
      contents h name = contents (before ++ [e]) name := by
  obtain ⟨before, e, after, rfl, hhappening, hwrites⟩ := hs
  refine ⟨before, e, after, rfl, hhappening, ?_⟩
  rw [show before ++ e :: after = before ++ [e] ++ after by simp] at hu ⊢
  exact untouched_append hu hwrites

end

end Effects
