import Mathlib.Algebra.Order.Ring.Nat

/-- Code over a state that may raise: what is returned or raised, and the state that is left. -/
def Attempt (σ ε α : Type) := σ → Except ε α × σ

/- What an attempt changed before it raised stays changed, so it says what state it leaves however
   it ends.

   `Within R m` is the frame of an attempt: whatever it comes to, the state it leaves is one `R`
   allows. Where only a result counts, `kept` drops the state of an attempt that raised. -/
namespace Attempt

variable {σ ε α β : Type}

instance : Monad (Attempt σ ε) where
  pure a := fun s => (.ok a, s)
  bind m f := fun s =>
    match m s with
    | (.ok a, s') => f a s'
    | (.error e, s') => (.error e, s')

/-- What does not change the state. -/
def given (x : Except ε α) : Attempt σ ε α := fun s => (x, s)

/-- What is read from the state. -/
def observe (f : σ → Except ε α) : Attempt σ ε α := fun s => (f s, s)

def change (f : σ → σ) : Attempt σ ε Unit := fun s => (.ok (), f s)

/-- The attempt for each item, and what was returned. -/
def each (m : α → Attempt σ ε β) : List α → Attempt σ ε (List β)
  | [] => pure []
  | a :: rest => do
    let b ← m a
    let later ← each m rest
    pure (b :: later)

section
variable {m : Attempt σ ε α} {f : α → Attempt σ ε β} {s s' : σ}

theorem bind_of_ok {a : α} {middle : σ} (h : m s = (.ok a, middle)) : (m >>= f) s = f a middle := by
  show (match m s with
    | (.ok a, s') => f a s'
    | (.error e, s') => (.error e, s')) = f a middle
  rw [h]

theorem bind_of_error {e : ε} {middle : σ} (h : m s = (.error e, middle)) :
    (m >>= f) s = (.error e, middle) := by
  show (match m s with
    | (.ok a, s') => f a s'
    | (.error e, s') => (.error e, s')) = (.error e, middle)
  rw [h]

theorem bind_ok {b : β} :
    (m >>= f) s = (.ok b, s') ↔ ∃ a middle, m s = (.ok a, middle) ∧ f a middle = (.ok b, s') := by
  rcases hrun : m s with ⟨e | a, middle⟩
  · simp [bind_of_error hrun]
  · simp [bind_of_ok hrun]

theorem pure_ok {a b : α} : (pure a : Attempt σ ε α) s = (.ok b, s') ↔
    a = b ∧ s = s' := by simp [pure]

theorem given_ok {x : Except ε α} {a : α} :
    (given x : Attempt σ ε α) s = (.ok a, s') ↔ x = .ok a ∧ s = s' := by
  simp [given]

theorem observe_ok {g : σ → Except ε α} {a : α} :
    observe g s = (.ok a, s') ↔ g s = .ok a ∧ s = s' := by
  simp [observe]

theorem change_ok {g : σ → σ} {u : Unit} :
    (change g : Attempt σ ε Unit) s = (.ok u, s') ↔ g s = s' := by
  simp [change]

end

/-! ## Frames -/

/-- Whatever the attempt comes to from `s`, what it leaves is allowed. -/
def Within (R : σ → σ → Prop) (m : Attempt σ ε α) (s : σ) : Prop := R s (m s).2

section
variable {R : σ → σ → Prop} {s : σ} {f : α → Attempt σ ε β}

theorem within_pure (a : α) (hrefl : R s s) : Within R (pure a : Attempt σ ε α) s := hrefl

theorem within_bind (htrans : ∀ s s' s'', R s s' → R s' s'' → R s s'') {m : Attempt σ ε α}
    (hm : Within R m s)
    (hf : ∀ a s', m s = (.ok a, s') → Within R (f a) s') : Within R (m >>= f) s := by
  unfold Within at hm ⊢
  rcases hrun : m s with ⟨e | a, s'⟩
  · rw [bind_of_error hrun]
    rwa [hrun] at hm
  · rw [bind_of_ok hrun]
    rw [hrun] at hm
    exact htrans _ _ _ hm (hf a s' hrun)

theorem within_given (x : Except ε α) (hrefl : R s s) (hf : ∀ a, x = .ok a → Within R (f a) s) :
    Within R (given x >>= f) s := by
  cases x with
  | error e => exact hrefl
  | ok a => exact hf a rfl

theorem within_observe (g : σ → Except ε α) (hrefl : R s s)
    (hf : ∀ a, g s = .ok a → Within R (f a) s) :
    Within R (observe g >>= f) s := within_given (g s) hrefl hf

theorem within_change (htrans : ∀ s s' s'', R s s' → R s' s'' → R s s'')
    {g : σ → σ} {f : Unit → Attempt σ ε β} (hg : R s (g s))
    (hf : Within R (f ()) (g s)) : Within R (change g >>= f) s := htrans _ _ _ hg hf

/-- What the attempt for an item keeps, the attempts for all the items keep. -/
theorem within_each (hrefl : ∀ s, R s s) (htrans : ∀ s s' s'', R s s' → R s' s'' → R s s'')
    {m : α → Attempt σ ε β} {items : List α} (hm : ∀ a ∈ items, ∀ s, Within R (m a) s)
    (s : σ) : Within R (each m items) s := by
  induction items generalizing s with
  | nil => exact hrefl s
  | cons a rest ih =>
    obtain ⟨hfirst, hrest⟩ := List.forall_mem_cons.mp hm
    refine within_bind htrans (hfirst s) fun b s' _ => ?_
    exact within_bind htrans (ih hrest s') fun later s'' _ => hrefl s''

end

/-! ## What an attempt comes to -/

/-- The result with its state; what an attempt leaves that raised is not looked at. -/
def kept : Except ε α × σ → Except ε (α × σ)
  | (.ok a, s) => .ok (a, s)
  | (.error e, _) => .error e

theorem kept_ok {r : Except ε α × σ} {a : α} {s : σ} : kept r = .ok (a, s) ↔ r = (.ok a, s) := by
  rcases r with ⟨_ | _, _⟩ <;> simp [kept]

theorem kept_bind (m : Attempt σ ε α) (f : α → Attempt σ ε β) (s : σ) :
    kept ((m >>= f) s) = kept (m s) >>= fun r => kept (f r.1 r.2) := by
  rcases hrun : m s with ⟨e | a, s'⟩
  · rw [bind_of_error hrun]
    rfl
  · rw [bind_of_ok hrun]
    rfl

theorem kept_pure (a : α) (s : σ) : kept ((pure a : Attempt σ ε α) s) = pure (a, s) := rfl

theorem kept_given (x : Except ε α) (s : σ) : kept (given x s) = x >>= fun a => pure (a, s) := by
  cases x <;> rfl

theorem kept_observe (g : σ → Except ε α) (s : σ) :
    kept (observe g s) = g s >>= fun a => pure (a, s) :=
  kept_given (g s) s

theorem kept_change (g : σ → σ) (s : σ) :
    kept ((change g : Attempt σ ε Unit) s) = pure ((), g s) := rfl

end Attempt
