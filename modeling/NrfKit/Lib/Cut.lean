import Mathlib.Algebra.Order.Ring.Nat

/- Programs that may be cut: by a crash, a lost connection or a step that fails. A program is a
   list of steps; a run that is cut has done some of them, and the next one in part.

   What holds wherever a run is cut follows from what one step keeps, whole and in part
   (`Steps.Stops.inv`); what separates a program's phases, from the step between them
   (`stops_append`). -/
namespace Cut

/-- What a step does where it comes to its end, and what it may leave where it does not. -/
structure Steps (σ ι : Type) where
  done : σ → ι → σ
  cut : σ → ι → σ → Prop

variable {σ ι : Type} {m : Steps σ ι} {is : List ι}

/-- All the steps. -/
def Steps.run (m : Steps σ ι) (is : List ι) (s : σ) : σ := is.foldl m.done s

/-- A run of the steps from `s` was cut and left `s'`. -/
inductive Steps.Stops (m : Steps σ ι) : List ι → σ → σ → Prop
  | here (is : List ι) (s : σ) : Stops m is s s
  | within {is : List ι} {i : ι} {s s' : σ} (h : m.cut s i s') : Stops m (i :: is) s s'
  | behind {is : List ι} {i : ι} {s s' : σ} (h : Stops m is (m.done s i) s') :
    Stops m (i :: is) s s'

@[simp] theorem run_nil {s : σ} : m.run [] s = s := rfl

@[simp] theorem run_cons {i : ι} {s : σ} : m.run (i :: is) s = m.run is (m.done s i) := rfl

/-- What one step keeps, whole and in part, holds where the run is cut. -/
theorem Steps.Stops.inv {s s' : σ} {I : σ → Prop} (hdone : ∀ i ∈ is, ∀ s, I s → I (m.done s i))
    (hcut : ∀ i ∈ is, ∀ s s', I s → m.cut s i s' → I s') (h : m.Stops is s s')
    (hs : I s) : I s' := by
  induction h with
  | here => exact hs
  | within h => exact hcut _ (List.mem_cons_self ..) _ _ hs h
  | behind _ ih =>
    exact ih (fun j hj => hdone j (List.mem_cons_of_mem _ hj)) (fun j hj =>
      hcut j (List.mem_cons_of_mem _ hj))
      (hdone _ (List.mem_cons_self ..) _ hs)

/-- The same for all the steps. -/
theorem run_inv {s : σ} {I : σ → Prop} (hdone : ∀ i ∈ is, ∀ s, I s → I (m.done s i))
    (hs : I s) : I (m.run is s) := by
  induction is generalizing s with
  | nil => exact hs
  | cons i is ih => exact ih (fun j hj =>
    hdone j (List.mem_cons_of_mem _ hj)) (hdone i (List.mem_cons_self ..) s hs)

/-- A run is cut in its first phase, or behind it in the second. -/
theorem stops_append {s s' : σ} :
    m.Stops (front ++ back) s s' ↔ m.Stops front s s' ∨ m.Stops back (m.run front s) s' := by
  induction front generalizing s with
  | nil =>
    refine ⟨.inr, fun h => h.elim (fun hfront => ?_) id⟩
    cases hfront
    exact .here back _
  | cons i front ih =>
    rw [List.cons_append]
    constructor
    · intro h
      cases h with
      | here => exact .inl (.here _ _)
      | within h => exact .inl (.within h)
      | behind h => exact (ih.mp h).imp .behind id
    · rintro (h | h)
      · cases h with
        | here => exact .here _ _
        | within h => exact .within h
        | behind h => exact .behind (ih.mpr (.inl h))
      · exact .behind (ih.mpr (.inr h))

end Cut
