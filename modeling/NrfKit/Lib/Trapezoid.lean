import Mathlib.Analysis.SpecialFunctions.Integrals.Basic

/- The trapezoidal rule on a list of knots at uneven times.

   A knot is a time and the value there. The area below the knots is additive where two
   lists share one (`area_append`), lies between the rectangles of the least and the greatest
   value (`area_ge`, `area_le`), has a closed form for equal steps (`area_steps`), and is the
   integral of the function that runs straight between the knots (`integral_interpolant`). -/
namespace Trapezoid

section
variable {K : Type}

/-- The last knot. -/
def final (p : K × K) : List (K × K) → K × K
  | [] => p
  | q :: rest => final q rest

@[simp] theorem final_nil (p : K × K) : final p [] = p := rfl

@[simp] theorem final_cons (p q : K × K) (rest : List (K × K)) :
    final p (q :: rest) = final q rest := rfl

theorem final_append (p q : K × K) (front back : List (K × K)) :
    final p (front ++ q :: back) = final q back := by
  induction front generalizing p with
  | nil => rfl
  | cons r front ih => rw [List.cons_append, final_cons, ih]

theorem final_eq_getLast (p : K × K) (rest : List (K × K)) :
    final p rest = (p :: rest).getLast (List.cons_ne_nil p rest) := by
  induction rest generalizing p with
  | nil => rfl
  | cons q rest ih => rw [final_cons, ih, List.getLast_cons_cons]

theorem final_concat (p q : K × K) (rest : List (K × K)) : final p (rest ++ [q]) = q :=
  final_append p q rest []

/-- The times increase from knot to knot. -/
def Increasing [LT K] (knots : List (K × K)) : Prop := knots.IsChain fun p q => p.1 < q.1

theorem Increasing.tail [LT K] {p : K × K} {rest : List (K × K)}
    (h : Increasing (p :: rest)) : Increasing rest :=
  List.IsChain.tail h

theorem Increasing.head [LT K] {p q : K × K} {rest : List (K × K)}
    (h : Increasing (p :: q :: rest)) : p.1 < q.1 :=
  (List.isChain_cons_cons.mp h).1

theorem Increasing.final_le [Preorder K] {p : K × K} {rest : List (K × K)}
    (h : Increasing (p :: rest)) : p.1 ≤ (final p rest).1 := by
  induction rest generalizing p with
  | nil => exact le_refl _
  | cons q rest ih => exact le_trans h.head.le (ih h.tail)

theorem Increasing.final_lt [Preorder K] {p : K × K} {rest : List (K × K)}
    (h : Increasing (p :: rest)) (hmore : rest ≠ []) :
    p.1 < (final p rest).1 := by
  obtain ⟨q, rest, rfl⟩ := List.exists_cons_of_ne_nil hmore
  exact lt_of_lt_of_le h.head h.tail.final_le

end

section
variable {K : Type} [Field K]

/-- The area from the knot `p` on. -/
def area (p : K × K) : List (K × K) → K
  | [] => 0
  | q :: rest => (q.1 - p.1) * (p.2 + q.2) / 2 + area q rest

@[simp] theorem area_nil (p : K × K) : area p [] = 0 := rfl

@[simp] theorem area_cons (p q : K × K) (rest : List (K × K)) :
    area p (q :: rest) = (q.1 - p.1) * (p.2 + q.2) / 2 + area q rest := rfl

/-- A knot splits the area. -/
theorem area_append (p q : K × K) (front back : List (K × K)) :
    area p (front ++ q :: back) = area p (front ++ [q]) + area q back := by
  induction front generalizing p with
  | nil => simp
  | cons r front ih =>
    rw [List.cons_append, List.cons_append, area_cons, area_cons, ih, add_assoc]

/-- One more knot adds one trapezoid. -/
theorem area_concat (p q : K × K) (rest : List (K × K)) :
    area p (rest ++ [q]) = area p rest +
      (q.1 - (final p rest).1) * ((final p rest).2 + q.2) / 2 := by
  induction rest generalizing p with
  | nil => simp
  | cons r rest ih => rw [List.cons_append, area_cons, area_cons, ih, final_cons, add_assoc]

/-! ## Equal steps -/

/-- The values at equal steps from the time `start`. -/
def steps (start h : K) : List K → List (K × K)
  | [] => []
  | value :: rest => (start, value) :: steps (start + h) h rest

theorem steps_concat (start h value : K) (values : List K) :
    steps start h (values ++ [value]) = steps start h values ++
      [(start + h * values.length, value)] := by
  induction values generalizing start with
  | nil => simp [steps]
  | cons first rest ih =>
    rw [List.cons_append, steps, ih, steps, List.cons_append, List.length_cons]
    congr 4
    push_cast
    ring

theorem steps_eq_mapIdx (start h : K) (values : List K) :
    steps start h values = values.mapIdx fun i value => (start + h * i, value) := by
  induction values using List.reverseRecOn with
  | nil => rfl
  | append_singleton values value ih => rw [steps_concat, ih, List.mapIdx_concat]

@[simp] theorem steps_values (start h : K) (values : List K) :
    (steps start h values).map Prod.snd = values := by
  induction values generalizing start with
  | nil => rfl
  | cons value rest ih => simp [steps, ih]

@[simp] theorem steps_length (start h : K) (values : List K) :
    (steps start h values).length = values.length := by
  induction values generalizing start with
  | nil => rfl
  | cons value rest ih => simp [steps, ih]

/-- The sum of all values, half of the first and the last taken off, times the step. -/
theorem area_steps [CharZero K] (start h value : K) (rest : List K) :
    area (start, value) (steps (start + h) h rest) =
      h * ((value :: rest).sum - (value + (value :: rest).getLast (List.cons_ne_nil _ _)) / 2) := by
  induction rest generalizing start value with
  | nil => simp [steps]
  | cons next rest ih =>
    rw [steps, area_cons, ih, List.getLast_cons (List.cons_ne_nil next rest)]
    simp only [List.sum_cons]
    ring

theorem final_steps_time (start h value : K) (rest : List K) :
    (final (start, value) (steps (start + h) h rest)).1 = start + h * rest.length := by
  induction rest generalizing start value with
  | nil => simp [steps]
  | cons next rest ih =>
    rw [steps, final_cons, ih, List.length_cons]
    push_cast
    ring

end

/-! ## Extremes -/

section
variable {K : Type} [LinearOrder K]

/-- The least value. -/
def lowest (p : K × K) (rest : List (K × K)) : K := rest.foldl (fun low q => min low q.2) p.2

/-- The greatest value. -/
def highest (p : K × K) (rest : List (K × K)) : K := rest.foldl (fun high q => max high q.2) p.2

theorem lowest_concat (p q : K × K) (rest : List (K × K)) :
    lowest p (rest ++ [q]) = min (lowest p rest) q.2 := by
  simp [lowest]

theorem highest_concat (p q : K × K) (rest : List (K × K)) :
    highest p (rest ++ [q]) = max (highest p rest) q.2 := by
  simp [highest]

theorem lowest_le {p q : K × K} {rest : List (K × K)}
    (h : q ∈ p :: rest) : lowest p rest ≤ q.2 := by
  induction rest using List.reverseRecOn with
  | nil =>
    obtain rfl := List.mem_singleton.mp h
    exact le_refl _
  | append_singleton rest r ih =>
    rw [lowest_concat]
    rw [← List.cons_append, List.mem_append, List.mem_singleton] at h
    obtain hmem | rfl := h
    · exact min_le_of_left_le (ih hmem)
    · exact min_le_right _ _

theorem le_highest {p q : K × K} {rest : List (K × K)}
    (h : q ∈ p :: rest) : q.2 ≤ highest p rest := by
  induction rest using List.reverseRecOn with
  | nil =>
    obtain rfl := List.mem_singleton.mp h
    exact le_refl _
  | append_singleton rest r ih =>
    rw [highest_concat]
    rw [← List.cons_append, List.mem_append, List.mem_singleton] at h
    obtain hmem | rfl := h
    · exact le_max_of_le_left (ih hmem)
    · exact le_max_right _ _

theorem exists_lowest (p : K × K) (rest : List (K × K)) : ∃ q ∈ p :: rest, q.2 = lowest p rest := by
  induction rest using List.reverseRecOn with
  | nil => exact ⟨p, List.mem_singleton_self p, rfl⟩
  | append_singleton rest r ih =>
    obtain ⟨q, hq, heq⟩ := ih
    rw [lowest_concat]
    rcases min_choice (lowest p rest) r.2 with hmin | hmin
    · exact ⟨q, List.mem_append_left [r] hq, heq.trans hmin.symm⟩
    · exact ⟨r, List.mem_cons_of_mem p (List.mem_append_right rest (List.mem_singleton_self r)),
        hmin.symm⟩

theorem exists_highest (p : K × K) (rest : List (K × K)) :
    ∃ q ∈ p :: rest, q.2 = highest p rest := by
  induction rest using List.reverseRecOn with
  | nil => exact ⟨p, List.mem_singleton_self p, rfl⟩
  | append_singleton rest r ih =>
    obtain ⟨q, hq, heq⟩ := ih
    rw [highest_concat]
    rcases max_choice (highest p rest) r.2 with hmax | hmax
    · exact ⟨q, List.mem_append_left [r] hq, heq.trans hmax.symm⟩
    · exact ⟨r, List.mem_cons_of_mem p (List.mem_append_right rest (List.mem_singleton_self r)),
        hmax.symm⟩

end

/-! ## Bounds -/

section
variable {K : Type} [Field K] [LinearOrder K]

/-- The widest gap between two times. -/
def widest (p : K × K) : List (K × K) → K
  | [] => 0
  | q :: rest => max (q.1 - p.1) (widest q rest)

theorem widest_concat (p q : K × K) (rest : List (K × K)) :
    widest p (rest ++ [q]) = max (widest p rest) (q.1 - (final p rest).1) := by
  induction rest generalizing p with
  | nil => simp [widest, max_comm]
  | cons r rest ih => rw [List.cons_append, widest, ih, widest, final_cons, max_assoc]

theorem widest_le {p : K × K} {rest : List (K × K)} {limit : K} :
    widest p rest ≤ limit ↔ 0 ≤ limit ∧ (p :: rest).IsChain fun a b => b.1 - a.1 ≤ limit := by
  induction rest generalizing p with
  | nil => simp [widest]
  | cons q rest ih =>
    rw [widest, max_le_iff, ih, List.isChain_cons_cons]
    tauto

theorem widest_steps {h : K} (hpositive : 0 < h) (start value : K) (rest : List K) :
    widest (start, value) (steps (start + h) h rest) ≤ h := by
  induction rest generalizing start value with
  | nil => exact hpositive.le
  | cons next rest ih => exact max_le (by simp) (ih (start + h) next)

end

section
variable {K : Type} [Field K] [LinearOrder K] [IsStrictOrderedRing K]

theorem steps_increasing {h : K} (hpositive : 0 < h) (start : K) (values : List K) :
    Increasing (steps start h values) := by
  induction values generalizing start with
  | nil => exact List.isChain_nil
  | cons value rest ih =>
    cases rest with
    | nil => exact List.isChain_singleton _
    | cons next rest =>
      exact List.isChain_cons_cons.mpr ⟨lt_add_of_pos_right start hpositive, ih (start + h)⟩

theorem area_ge {p : K × K} {rest : List (K × K)} {low : K} (h : Increasing (p :: rest))
    (hlow : ∀ q ∈ p :: rest, low ≤ q.2) :
    low * ((final p rest).1 - p.1) ≤ area p rest := by
  induction rest generalizing p with
  | nil => simp
  | cons q rest ih =>
    have hrest := ih h.tail fun r hr => hlow r (List.mem_cons_of_mem _ hr)
    have hp := hlow p (List.mem_cons_self ..)
    have hq := hlow q (by simp)
    have hstep : low * (q.1 - p.1) ≤ (q.1 - p.1) * (p.2 + q.2) / 2 := by
      have hgap : 0 ≤ q.1 - p.1 := sub_nonneg.mpr h.head.le
      calc low * (q.1 - p.1) = (q.1 - p.1) * (low + low) / 2 := by ring
        _ ≤ (q.1 - p.1) * (p.2 + q.2) / 2 := by gcongr
    calc low * ((final p (q :: rest)).1 - p.1)
        = low * (q.1 - p.1) + low * ((final q rest).1 - q.1) := by rw [final_cons]; ring
      _ ≤ (q.1 - p.1) * (p.2 + q.2) / 2 + area q rest := add_le_add hstep hrest

theorem area_le {p : K × K} {rest : List (K × K)} {high : K} (h : Increasing (p :: rest))
    (hhigh : ∀ q ∈ p :: rest, q.2 ≤ high) :
    area p rest ≤ high * ((final p rest).1 - p.1) := by
  induction rest generalizing p with
  | nil => simp
  | cons q rest ih =>
    have hrest := ih h.tail fun r hr => hhigh r (List.mem_cons_of_mem _ hr)
    have hp := hhigh p (List.mem_cons_self ..)
    have hq := hhigh q (by simp)
    have hstep : (q.1 - p.1) * (p.2 + q.2) / 2 ≤ high * (q.1 - p.1) := by
      have hgap : 0 ≤ q.1 - p.1 := sub_nonneg.mpr h.head.le
      calc (q.1 - p.1) * (p.2 + q.2) / 2 ≤ (q.1 - p.1) * (high + high) / 2 := by gcongr
        _ = high * (q.1 - p.1) := by ring
    calc (q.1 - p.1) * (p.2 + q.2) / 2 + area q rest
        ≤ high * (q.1 - p.1) + high * ((final q rest).1 - q.1) := add_le_add hstep hrest
      _ = high * ((final p (q :: rest)).1 - p.1) := by rw [final_cons]; ring

end

/-! ## The integral -/

/-- The function that runs straight from knot to knot. -/
noncomputable def interpolant (p : ℝ × ℝ) : List (ℝ × ℝ) → ℝ → ℝ
  | [], _ => p.2
  | q :: rest, x =>
    if x ≤ q.1 then p.2 + (q.2 - p.2) * (x - p.1) / (q.1 - p.1) else interpolant q rest x

theorem interpolant_start (p : ℝ × ℝ) {rest : List (ℝ × ℝ)}
    (h : Increasing (p :: rest)) : interpolant p rest p.1 = p.2 := by
  cases rest with
  | nil => rfl
  | cons q rest => simp [interpolant, h.head.le]

/-- Behind its second knot it is the interpolant from there on. -/
theorem interpolant_later {p q : ℝ × ℝ} {rest : List (ℝ × ℝ)} (h : Increasing (p :: q :: rest))
    {x : ℝ} (hx : q.1 ≤ x) :
    interpolant p (q :: rest) x = interpolant q rest x := by
  rw [interpolant]
  split
  · rename_i hle
    obtain rfl := le_antisymm hle hx
    have hgap : q.1 - p.1 ≠ 0 := sub_ne_zero.mpr h.head.ne'
    rw [interpolant_start q h.tail, mul_div_assoc, div_self hgap]
    ring
  · rfl

theorem integral_straight (p q : ℝ × ℝ) (h : p.1 < q.1) :
    ∫ x in p.1..q.1,
      (p.2 + (q.2 - p.2) * (x - p.1) / (q.1 - p.1)) = (q.1 - p.1) * (p.2 + q.2) / 2 := by
  have hgap : q.1 - p.1 ≠ 0 := sub_ne_zero.mpr h.ne'
  have hshape : ∀ x : ℝ, p.2 + (q.2 - p.2) * (x - p.1) / (q.1 - p.1) =
      (p.2 - (q.2 - p.2) / (q.1 - p.1) * p.1) + (q.2 - p.2) / (q.1 - p.1) * x := by
    intro x
    ring
  have hlinear :
      IntervalIntegrable (fun x => (q.2 - p.2) / (q.1 - p.1) * x) MeasureTheory.volume p.1 q.1 := by
    apply Continuous.intervalIntegrable
    fun_prop
  simp only [hshape]
  rw [intervalIntegral.integral_add (by simp) hlinear,
    intervalIntegral.integral_const, intervalIntegral.integral_const_mul, integral_id, smul_eq_mul]
  field_simp
  ring

theorem integral_interpolant (p : ℝ × ℝ) (rest : List (ℝ × ℝ)) (h : Increasing (p :: rest)) :
    IntervalIntegrable (interpolant p rest) MeasureTheory.volume p.1 (final p rest).1 ∧
      ∫ x in p.1..(final p rest).1, interpolant p rest x = area p rest := by
  induction rest generalizing p with
  | nil => simp
  | cons q rest ih =>
    obtain ⟨hrest, hvalue⟩ := ih q h.tail
    -- straight to the second knot, and as before from there on
    have hfirst : Set.EqOn (fun x => p.2 + (q.2 - p.2) * (x - p.1) / (q.1 - p.1))
        (interpolant p (q :: rest)) (Set.uIcc p.1 q.1) := by
      intro x hx
      rw [Set.uIcc_of_le h.head.le] at hx
      rw [interpolant, if_pos hx.2]
    have hlater : Set.EqOn (interpolant q rest) (interpolant p (q :: rest))
        (Set.uIcc q.1 (final q rest).1) := by
      intro x hx
      rw [Set.uIcc_of_le h.tail.final_le] at hx
      exact (interpolant_later h hx.1).symm
    have hstraight : IntervalIntegrable (fun x =>
        p.2 + (q.2 - p.2) * (x - p.1) / (q.1 - p.1)) MeasureTheory.volume p.1 q.1 := by
      apply Continuous.intervalIntegrable
      fun_prop
    have hfront := hstraight.congr (hfirst.mono Set.uIoc_subset_uIcc)
    have hback := hrest.congr (hlater.mono Set.uIoc_subset_uIcc)
    rw [final_cons]
    refine ⟨hfront.trans hback, ?_⟩
    rw [← intervalIntegral.integral_add_adjacent_intervals hfront hback,
      ← intervalIntegral.integral_congr hfirst, ← intervalIntegral.integral_congr hlater, hvalue,
      integral_straight p q h.head, area_cons]

end Trapezoid
