import NrfKit.Lib.Interleave

/- One call in a system of turns. `Within` are the configurations from where a program is
   entered until it returns: others are entered over it, and their own frames lie above its
   frame on the stack. `Turn.Meets` is its weakest precondition when all that is known of
   the others is a relation (`rely`) by which they move the state while it waits.

   The stack splits at the call's own frame, and what lies above moves by the relation, so
   every configuration of the call is one of its waits with some moves after it, or its
   return (`within_inCall`). Other than `run_inv` this says what a call returns, and in
   terms of the state it was entered in. -/
namespace Interleave

variable {S Q P R α β : Type} {A : Q → Type}

/-- The configurations of the call of `p` at `c`, while only what `ok` allows is entered over it. -/
inductive Within (sys : System S Q A P R) (ok : S → P → Prop) (c : Config S Q A R) (p : P) :
    Config S Q A R → Prop where
  | enter {d : Config S Q A R} : step sys c (.enter p) = some d → Within sys ok c p d
  | nested {d d' : Config S Q A R} {p' : P} : Within sys ok c p d →
    c.stack.length < d.stack.length → ok d.state p' →
      step sys d (.enter p') = some d' → Within sys ok c p d'
  | resume {d d' : Config S Q A R} {a : (q : Q) → A q} : Within sys ok c p d →
    c.stack.length < d.stack.length →
      step sys d (.resume a) = some d' → Within sys ok c p d'

/-- The call of `p` at `c` with nothing entered over it, its waits answered by `as`. -/
def call (sys : System S Q A P R) (c : Config S Q A R) (p : P)
    (as : List ((q : Q) → A q)) : Option (Config S Q A R) :=
  (step sys c (.enter p)).bind fun d =>
    if Along sys (fun a _ => c.stack.length < a.stack.length) d (as.map .resume) then
      run sys d (as.map .resume) else none

/-- `held` holds wherever the program waits and `post` where it is done, if others move by `rely`
while it waits. -/
def Turn.Meets (rely : S → S → Prop) (held : Q → S → Prop) (post : α → S → Prop) :
    Turn S Q A α → Prop
  | .done s a => post a s
  | .wait s q k => held q s ∧ ∀ a s', rely s s' → Turn.Meets rely held post (k a s')
  | .halt _ => True

section
variable {rely : S → S → Prop} {held : Q → S → Prop}

theorem meets_wait {post : α → S → Prop} {s : S} {q : Q} {k : A q → S → Turn S Q A α} :
    (Turn.wait s q k).Meets rely held post ↔ held q s ∧ ∀ a s', rely s s' →
      (k a s').Meets rely held post := Iff.rfl

theorem meets_mono {T T' : α → S → Prop} (h : ∀ a s, T a s → T' a s) :
    ∀ {t : Turn S Q A α}, t.Meets rely held T → t.Meets rely held T'
  | .done _ _, ht => h _ _ ht
  | .wait _ _ _, ht => ⟨ht.1, fun a s' hs => meets_mono h (ht.2 a s' hs)⟩
  | .halt _, _ => trivial

theorem meets_bind {post : β → S → Prop} {f : α → S → Turn S Q A β} :
    ∀ {t : Turn S Q A α}, (t.bind f).Meets rely held post ↔
      t.Meets rely held (fun a s => (f a s).Meets rely held post)
  | .done _ _ => Iff.rfl
  | .wait _ _ k =>
    and_congr Iff.rfl (forall_congr' fun a => forall_congr' fun s' => imp_congr_right
      fun _ => meets_bind (t := k a s'))
  | .halt _ => Iff.rfl

theorem meets_map {post : β → S → Prop} {f : α → β} {t : Turn S Q A α} :
    (t.map f).Meets rely held post ↔ t.Meets rely held (fun a s => post (f a) s) := meets_bind

/-- A program that follows a relation moves by it while others do. -/
theorem meets_follows {W : Q → Prop} {rel : S → S → Prop}
    (htrans : ∀ s t u, rel s t → rel t u → rel s u) (hrely : ∀ s t, rely s t → rel s t) {start : S}
    :
    ∀ {t : Turn S Q A α} {s : S}, rel start s → t.Follows W rel s →
      t.Meets rely (fun _ _ => True) (fun _ s' => rel start s')
  | .done _ _, _, h, ht => htrans _ _ _ h ht
  | .wait _ _ _, _, h, ht => ⟨trivial, fun a s' hs =>
      meets_follows htrans hrely (htrans _ _ _ (htrans _ _ _ h ht.2.1) (hrely _ _ hs))
        (ht.2.2 a s')⟩
  | .halt _, _, _, _ => trivial

end

/-- The frames above a call's move by `rely` when they go on. -/
def FramesOver (sys : System S Q A P R) (rely : S → S → Prop) (below : List Q) :
    List (Frame S Q A R) → Prop
  | [] => True
  | f :: above =>
    (∀ a s', sys.answers (above.map Frame.query ++ below) f.query a s' = true →
      (f.rest a s').Moves sys Any rely (above.map Frame.query ++ below)
        (fun b _ s => rely b s) s') ∧
    FramesOver sys rely below above

/-- The call has returned, or its frame waits with others above it. -/
inductive InCall (sys : System S Q A P R) (rely : S → S → Prop) (held : Q → S → Prop)
    (post : R → S → Prop) (W : Q → Prop) (c d : Config S Q A R) : Prop where
  | returned (r : R) : d.stack = c.stack → d.returned = some r → post r d.state →
    InCall sys rely held post W c d
  | waiting (above : List (Frame S Q A R)) (q : Q) (k : A q → S → Turn S Q A R) (s : S) :
      d.stack = above ++ ⟨q, k⟩ :: c.stack → FramesOver sys rely (q :: c.queries) above →
      rely s d.state →
      (Turn.wait s q k).Meets rely held post → W q → (∀ a s', (k a s').Framed W (fun _ => ()) ()) →
      InCall sys rely held post W c d

section
variable {sys : System S Q A P R} {ok : S → P → Prop} {rely : S → S → Prop} {held : Q → S → Prop}
    {post : R → S → Prop}
    {W : Q → Prop} {c d : Config S Q A R} {p : P}

theorem within_live (h : Within sys ok c p d) : c.live = true := by
  induction h with
  | enter h => exact step_live h
  | nested _ _ _ _ ih => exact ih
  | resume _ _ _ ih => exact ih

/-- The call could be entered. -/
theorem within_enters (h : Within sys ok c p d) : sys.enters c.queries p c.state = true := by
  induction h with
  | enter h =>
    simp only [step, Option.ite_none_right_eq_some, Bool.and_eq_true] at h
    exact h.1.2
  | nested _ _ _ _ ih => exact ih
  | resume _ _ _ ih => exact ih

/-- What a computed call shows is within it. -/
theorem within_of_call {as : List ((q : Q) → A q)}
    (h : call sys c p as = some d) : Within sys ok c p d := by
  obtain ⟨d1, hd, h⟩ := Option.bind_eq_some_iff.mp h
  have hrun : ∀ (as : List ((q : Q) → A q)) {d1 : Config S Q A R}, Within sys ok c p d1 →
      Along sys (fun a _ => c.stack.length < a.stack.length) d1 (as.map .resume) →
      run sys d1 (as.map .resume) = some d → Within sys ok c p d := by
    intro as
    induction as with
    | nil =>
      intro d1 hd _ hr
      cases hr
      exact hd
    | cons a as ih =>
      intro d1 hd hin hr
      obtain ⟨e, he, hr⟩ := Option.bind_eq_some_iff.mp hr
      obtain ⟨hlong, hin⟩ := hin e he
      exact ih (.resume hd hlong he) hin hr
  split at h
  · rename_i hin
    exact hrun as (.enter hd) hin h
  · cases h

/-- The call's own turn ends. -/
theorem settle_inCall (hrefl : ∀ s, rely s s) {t : Turn S Q A R} (ht : t.Meets rely held post)
    (hw : t.Framed W (fun _ => ()) ()) (hl : (Config.settle c.stack t).live = true) :
    InCall sys rely held post W c (.settle c.stack t) := by
  cases t with
  | done s r => exact .returned r rfl rfl ht
  | wait s q k => exact .waiting [] q k s rfl trivial (hrefl s) ht hw.1 hw.2.2
  | halt s => cases hl

/-- A turn of another program ends above the call's frame. -/
theorem settle_over (htrans : ∀ s t u, rely s t → rely t u → rely s u)
    {above : List (Frame S Q A R)} {q : Q} {k : A q → S → Turn S Q A R} {s s0 : S}
    {t : Turn S Q A R} (habove : FramesOver sys rely (q :: c.queries) above)
    (hs : rely s s0) (ht : (Turn.wait s q k).Meets rely held post)
    (hq : W q) (hk : ∀ a s', (k a s').Framed W (fun _ => ()) ())
    (hm : t.Moves sys Any rely (above.map Frame.query ++ q :: c.queries) (fun b _ s => rely b s) s0)
    (hl : (Config.settle (above ++ ⟨q, k⟩ :: c.stack) t).live = true) :
    InCall sys rely held post W c (.settle (above ++ ⟨q, k⟩ :: c.stack) t) := by
  cases t with
  | done s' r => exact .waiting above q k s rfl habove (htrans s s0 s' hs hm) ht hq hk
  | wait s' q' k' =>
    refine .waiting (⟨q', k'⟩ :: above) q k s rfl ⟨fun a s' ha => ?_, habove⟩
      (htrans s s0 s' hs hm.1) ht hq hk
    exact hm.2 a s' trivial ha
  | halt s' => cases hl

/-- **Every configuration of a call.** If the program meets its conditions when others move by
`rely`, and those that may be entered over its waits do, then the call returns what it should, or
it waits where it may. -/
theorem within_inCall (hrefl : ∀ s, rely s s) (htrans : ∀ s t u, rely s t → rely t u → rely s u)
    (hothers : ∀ ctx p s, (∃ q ∈ ctx, W q) → ok s p → sys.enters ctx p s = true →
      (sys.prog p s).Moves sys Any rely ctx (fun b _ s' => rely b s') s)
    (hp : (sys.prog p c.state).Meets rely held post)
    (hw : (sys.prog p c.state).Framed W (fun _ => ()) ()) (h : Within sys ok c p d)
    (hl : d.live = true) : InCall sys rely held post W c d := by
  induction h with
  | enter h =>
    simp only [step, Option.ite_none_right_eq_some, Option.some.injEq] at h
    obtain ⟨_, rfl⟩ := h
    exact settle_inCall hrefl hp hw hl
  | @nested d d' p' _ hin hok h ih =>
    cases ih (step_live h) with
    | returned r hst => exact absurd hin (by simp [hst])
    | waiting above q k s hst habove hs ht hq hk =>
      simp only [step, Option.ite_none_right_eq_some, Bool.and_eq_true, Option.some.injEq] at h
      obtain ⟨⟨_, he⟩, rfl⟩ := h
      have hctx : d.queries = above.map Frame.query ++ q :: c.queries := by
        simp [Config.queries, hst]
      rw [hctx] at he
      rw [hst] at hl ⊢
      exact settle_over htrans habove hs ht hq hk (hothers _ p' _ ⟨q, by simp, hq⟩ hok he) hl
  | @resume d d' a _ hin h ih =>
    cases ih (step_live h) with
    | returned r hst => exact absurd hin (by simp [hst])
    | waiting above q k s hst habove hs ht hq hk =>
      cases above with
      | nil =>
        simp only [step, hst, List.nil_append, Option.ite_none_right_eq_some,
          Option.some.injEq] at h
        obtain ⟨_, rfl⟩ := h
        exact settle_inCall hrefl (ht.2 _ _ hs) (hk _ _) hl
      | cons f above =>
        simp only [step, hst, List.cons_append, Option.ite_none_right_eq_some, Bool.and_eq_true,
          Option.some.injEq] at h
        obtain ⟨⟨_, ha⟩, rfl⟩ := h
        have hctx : (above ++ ⟨q, k⟩ :: c.stack).map Frame.query = above.map Frame.query ++
            q :: c.queries := by
          simp [Config.queries]
        rw [hctx] at ha
        exact settle_over htrans habove.2 hs ht hq hk (habove.1 _ _ ha) hl

/-- What a call returns. -/
theorem within_returned (h : InCall sys rely held post W c d) (hst : d.stack = c.stack) :
    ∃ r, d.returned = some r ∧ post r d.state := by
  cases h with
  | returned r _ hr hp => exact ⟨r, hr, hp⟩
  | waiting above q k s hs =>
    have hlength := congrArg List.length (hs.symm.trans hst)
    simp at hlength
    omega

end

end Interleave
