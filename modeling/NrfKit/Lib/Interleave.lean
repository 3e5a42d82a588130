import Mathlib.Algebra.Order.Ring.Nat

/- Programs that run in turns over one shared state. A program is a query tree
   `Turn`: it runs until it is done, never returns, or waits for the answer to
   a query. While it waits, other programs may be entered on top of it (an
   interrupt, a callback, a re-entrant call); they return before it goes on,
   as on one stack. `System` says which programs exist, who may be entered on
   top of which waiting queries, and which answers the environment may give;
   `run` executes a list of events.

   `Turn.Sat` is the weakest precondition of a program against an invariant
   `I` of the waiting queries and the shared state, given an invariant `J`
   already known: `I` holds at every wait, the program may assume nothing but
   `J` and `I` when it goes on, and its postcondition holds where it is done.
   If every program that may be entered keeps `I`, then `I` holds in every
   state of every run (`run_inv`), however the programs interleave. Invariants
   are proved one over the other (`Keeps.and`); the first one of a system whose
   programs pre-empt each other by level is `Layered` (`layered_keeps`). -/
namespace Interleave

/-- A program cut at the points where others may move. -/
inductive Turn (S Q : Type) (A : Q → Type) (α : Type) where
  | done (s : S) (a : α)
  | wait (s : S) (q : Q) (k : A q → S → Turn S Q A α)
  | halt (s : S)

variable {S Q P R : Type} {A : Q → Type} {α β : Type}

namespace Turn

def bind : Turn S Q A α → (α → S → Turn S Q A β) → Turn S Q A β
  | .done s a, f => f a s
  | .wait s q k, f => .wait s q (fun a s' => bind (k a s') f)
  | .halt s, _ => .halt s

def map (f : α → β) (t : Turn S Q A α) : Turn S Q A β := t.bind (fun a s => .done s (f a))

end Turn

/-- The programs, who may be entered on top of the waiting queries `ctx` (newest
first), and which answer a query with `ctx` below it may get. -/
structure System (S Q : Type) (A : Q → Type) (P R : Type) where
  prog : P → S → Turn S Q A R
  enters : List Q → P → S → Bool
  answers : List Q → (q : Q) → A q → S → Bool

/-- A waiting program. -/
structure Frame (S Q : Type) (A : Q → Type) (R : Type) where
  query : Q
  rest : A query → S → Turn S Q A R

/-- The shared state, the waiting programs (newest first), whether anything still
runs, and what the last program to finish returned. -/
structure Config (S Q : Type) (A : Q → Type) (R : Type) where
  state : S
  stack : List (Frame S Q A R) := []
  live : Bool := true
  returned : Option R := none

/-- A program is entered, or the newest waiting query is answered. -/
inductive Event (Q : Type) (A : Q → Type) (P : Type) where
  | enter (p : P)
  | resume (a : (q : Q) → A q)

namespace Config

def queries (c : Config S Q A R) : List Q := c.stack.map Frame.query

/-- The configuration after a turn that ran on top of `stack`. -/
def settle (stack : List (Frame S Q A R)) : Turn S Q A R → Config S Q A R
  | .done s r => { state := s, stack := stack, returned := some r }
  | .wait s q k => { state := s, stack := ⟨q, k⟩ :: stack }
  | .halt s => { state := s, live := false }

end Config

/-- One event, or `none` where the system does not allow it. -/
def step (sys : System S Q A P R) (c : Config S Q A R) : Event Q A P → Option (Config S Q A R)
  | .enter p =>
    if c.live && sys.enters c.queries p c.state then
      some (.settle c.stack (sys.prog p c.state))
    else none
  | .resume a =>
    match c.stack with
    | [] => none
    | f :: below =>
      if c.live && sys.answers (below.map Frame.query) f.query (a f.query) c.state then
        some (.settle below (f.rest (a f.query) c.state))
      else none

def run (sys : System S Q A P R) : Config S Q A R → List (Event Q A P) → Option (Config S Q A R)
  | c, [] => some c
  | c, e :: es => (step sys c e).bind (fun c' => run sys c' es)

/-- Some run leads from the state `s`, nothing waiting, to `c`. -/
def Reachable (sys : System S Q A P R) (s : S) (c : Config S Q A R) : Prop :=
  ∃ es, run sys { state := s } es = some c

theorem run_append (sys : System S Q A P R) : ∀ (es fs : List (Event Q A P)) (c : Config S Q A R),
    run sys c (es ++ fs) = (run sys c es).bind (fun c' => run sys c' fs)
  | [], _, _ => rfl
  | e :: es, fs, c => by
    simp only [List.cons_append, run]
    cases step sys c e with
    | none => rfl
    | some c' => exact run_append sys es fs c'

theorem Reachable.trans {sys : System S Q A P R} {s : S} {c c' : Config S Q A R}
    {es : List (Event Q A P)} (h : Reachable sys s c) (hr : run sys c es = some c') :
    Reachable sys s c' := by
  obtain ⟨fs, hf⟩ := h
  exact ⟨fs ++ es, by rw [run_append, hf]; exact hr⟩

/-- What a computed run shows is reached. -/
theorem reachable_of_run (sys : System S Q A P R) (s : S) (es : List (Event Q A P))
    (f : Config S Q A R → Bool) (h : (run sys { state := s } es).any f = true) :
    ∃ c, Reachable sys s c ∧ f c = true := by
  obtain ⟨c, hc, hf⟩ := (Option.any_eq_true _ _).mp h
  exact ⟨c, ⟨es, hc⟩, hf⟩

/-! ## Weakest preconditions -/

/-- `I` holds wherever the program waits, and `post` where it is done, if `J` and `I`
are all that may be assumed of the state when it goes on. -/
def Turn.Sat (sys : System S Q A P R) (J I : List Q → S → Prop) (ctx : List Q)
    (post : α → S → Prop) : Turn S Q A α → Prop
  | .done s a => post a s
  | .wait s q k => I (q :: ctx) s ∧ ∀ a s', J (q :: ctx) s' → I (q :: ctx) s' →
      sys.answers ctx q a s' = true → Turn.Sat sys J I ctx post (k a s')
  | .halt _ => True

section
variable {sys : System S Q A P R} {J I : List Q → S → Prop} {ctx : List Q}

@[simp] theorem sat_done {post : α → S → Prop} {s : S} {a : α} :
    (Turn.done s a : Turn S Q A α).Sat sys J I ctx post ↔ post a s := Iff.rfl

@[simp] theorem sat_halt {post : α → S → Prop} {s : S} :
    (Turn.halt s : Turn S Q A α).Sat sys J I ctx post ↔ True := Iff.rfl

theorem sat_wait {post : α → S → Prop} {s : S} {q : Q} {k : A q → S → Turn S Q A α} :
    (Turn.wait s q k).Sat sys J I ctx post ↔ I (q :: ctx) s ∧
      ∀ a s', J (q :: ctx) s' → I (q :: ctx) s' → sys.answers ctx q a s' = true →
        (k a s').Sat sys J I ctx post := Iff.rfl

theorem sat_mono {T T' : α → S → Prop} (h : ∀ a s, T a s → T' a s) :
    ∀ {t : Turn S Q A α}, t.Sat sys J I ctx T → t.Sat sys J I ctx T'
  | .done _ _, ht => h _ _ ht
  | .wait _ _ _, ht => ⟨ht.1, fun a s' hj hi ha => sat_mono h (ht.2 a s' hj hi ha)⟩
  | .halt _, _ => trivial

/-- More may be known. -/
theorem sat_known {K : List Q → S → Prop} {post : α → S → Prop} (h : ∀ ctx s, K ctx s → J ctx s) :
    ∀ {t : Turn S Q A α}, t.Sat sys J I ctx post → t.Sat sys K I ctx post
  | .done _ _, ht => ht
  | .wait _ _ _, ht => ⟨ht.1, fun a s' hk hi ha => sat_known h (ht.2 a s' (h _ _ hk) hi ha)⟩
  | .halt _, _ => trivial

theorem sat_bind {post : β → S → Prop} {f : α → S → Turn S Q A β} :
    ∀ {t : Turn S Q A α}, (t.bind f).Sat sys J I ctx post ↔
      t.Sat sys J I ctx (fun a s => (f a s).Sat sys J I ctx post)
  | .done _ _ => Iff.rfl
  | .wait _ _ k => and_congr Iff.rfl (forall_congr' fun a => forall_congr' fun s' =>
      imp_congr_right fun _ => imp_congr_right fun _ => imp_congr_right fun _ =>
        sat_bind (t := k a s'))
  | .halt _ => Iff.rfl

theorem sat_map {post : β → S → Prop} {f : α → β} {t : Turn S Q A α} :
    (t.map f).Sat sys J I ctx post ↔ t.Sat sys J I ctx (fun a s => post (f a) s) := sat_bind

/-- Two invariants of one program, the second proved over the first. -/
theorem sat_and {K : List Q → S → Prop} {post post' : α → S → Prop} :
    ∀ {t : Turn S Q A α}, t.Sat sys K J ctx post →
      t.Sat sys (fun ctx s => K ctx s ∧ J ctx s) I ctx post' →
      t.Sat sys K (fun ctx s => J ctx s ∧ I ctx s) ctx (fun a s => post a s ∧ post' a s)
  | .done _ _, hj, hi => ⟨hj, hi⟩
  | .wait _ _ _, hj, hi => ⟨⟨hj.1, hi.1⟩, fun a s' hk h ha =>
      sat_and (hj.2 a s' hk h.1 ha) (hi.2 a s' ⟨hk, h.1⟩ h.2 ha)⟩
  | .halt _, _, _ => trivial

end

/-! ## Invariants of every run -/

/-- Over `J`, every program that may be entered keeps `I` at each of its waits and
where it is done. -/
def Keeps (sys : System S Q A P R) (J I : List Q → S → Prop) : Prop :=
  ∀ ctx p s, J ctx s → I ctx s → sys.enters ctx p s = true →
    (sys.prog p s).Sat sys J I ctx (fun _ s' => I ctx s')

/-- The invariant that says nothing. -/
def Any : List Q → S → Prop := fun _ _ => True

theorem Keeps.and {sys : System S Q A P R} {J I : List Q → S → Prop} (hJ : Keeps sys Any J)
    (hI : Keeps sys J I) : Keeps sys Any (fun ctx s => J ctx s ∧ I ctx s) := by
  intro ctx p s _ h he
  have hi : (sys.prog p s).Sat sys (fun ctx s => Any ctx s ∧ J ctx s) I ctx
      (fun _ s' => I ctx s') := by
    simpa only [Any, true_and] using hI ctx p s h.1 h.2 he
  exact sat_and (hJ ctx p s trivial h.1 he) hi

theorem Keeps.known {sys : System S Q A P R} {J K I : List Q → S → Prop} (hI : Keeps sys J I)
    (h : ∀ ctx s, K ctx s → J ctx s) : Keeps sys K I := fun ctx p s hk hi he =>
  sat_known h (hI ctx p s (h ctx s hk) hi he)

/-- Each waiting program goes on correctly from any state in which it may. -/
def FramesOk (sys : System S Q A P R) (I : List Q → S → Prop) : List (Frame S Q A R) → Prop
  | [] => True
  | f :: below =>
    (∀ a s', I (f.query :: below.map Frame.query) s' →
      sys.answers (below.map Frame.query) f.query a s' = true →
      (f.rest a s').Sat sys Any I (below.map Frame.query)
        (fun _ s' => I (below.map Frame.query) s')) ∧
    FramesOk sys I below

/-- The invariant of a configuration. -/
def ConfigOk (sys : System S Q A P R) (I : List Q → S → Prop) (c : Config S Q A R) : Prop :=
  (c.live = true → I c.queries c.state) ∧ FramesOk sys I c.stack

theorem settle_ok {sys : System S Q A P R} {I : List Q → S → Prop} {stack : List (Frame S Q A R)}
    {t : Turn S Q A R} (hs : FramesOk sys I stack)
    (ht : t.Sat sys Any I (stack.map Frame.query) (fun _ s' => I (stack.map Frame.query) s')) :
    ConfigOk sys I (.settle stack t) := by
  cases t with
  | done s r => exact ⟨fun _ => ht, hs⟩
  | wait s q k => exact ⟨fun _ => ht.1, fun a s' hi ha => ht.2 a s' trivial hi ha, hs⟩
  | halt s => exact ⟨fun h => absurd h (by simp [Config.settle]), trivial⟩

/-- The step lemma: one event keeps the invariant of the configuration. -/
theorem step_ok {sys : System S Q A P R} {I : List Q → S → Prop} (hI : Keeps sys Any I)
    {c c' : Config S Q A R} {e : Event Q A P} (hc : ConfigOk sys I c) (h : step sys c e = some c') :
    ConfigOk sys I c' := by
  cases e with
  | enter p =>
    simp only [step, Option.ite_none_right_eq_some, Bool.and_eq_true, Option.some.injEq] at h
    obtain ⟨⟨hl, he⟩, rfl⟩ := h
    exact settle_ok hc.2 (hI _ _ _ trivial (hc.1 hl) he)
  | resume a =>
    cases hst : c.stack with
    | nil => simp [step, hst] at h
    | cons f below =>
      simp only [step, hst, Option.ite_none_right_eq_some, Bool.and_eq_true,
        Option.some.injEq] at h
      obtain ⟨⟨hl, ha⟩, rfl⟩ := h
      have hi : I (f.query :: below.map Frame.query) c.state := by
        have := hc.1 hl
        rwa [Config.queries, hst, List.map_cons] at this
      have hf : FramesOk sys I (f :: below) := hst ▸ hc.2
      exact settle_ok hf.2 (hf.1 _ _ hi ha)

/-- The run lemma, from any configuration in which the invariant holds. -/
theorem run_ok {sys : System S Q A P R} {I : List Q → S → Prop} (hI : Keeps sys Any I) :
    ∀ {es : List (Event Q A P)} {c c' : Config S Q A R}, ConfigOk sys I c →
      run sys c es = some c' → ConfigOk sys I c'
  | [], _, _, hc, h => by
    cases h
    exact hc
  | e :: es, c, c', hc, h => by
    obtain ⟨d, hd, hr⟩ := Option.bind_eq_some_iff.mp h
    exact run_ok hI (step_ok hI hc hd) hr

/-- **An invariant every program keeps holds in every state of every run.** -/
theorem run_inv {sys : System S Q A P R} {I : List Q → S → Prop} (hI : Keeps sys Any I) {s : S}
    (h0 : I [] s) {c : Config S Q A R} (h : Reachable sys s c) (hl : c.live = true) :
    I c.queries c.state := by
  obtain ⟨es, hes⟩ := h
  have hc : ConfigOk sys I ({ state := s } : Config S Q A R) := ⟨fun _ => h0, trivial⟩
  exact (run_ok hI hc hes).1 hl

/-! ## Fewer runs -/

/-- The system under assumptions about who is entered and what is answered. -/
def System.assuming (sys : System S Q A P R) (enters : List Q → P → S → Bool)
    (answers : List Q → (q : Q) → A q → S → Bool) : System S Q A P R where
  prog := sys.prog
  enters ctx p s := sys.enters ctx p s && enters ctx p s
  answers ctx q a s := sys.answers ctx q a s && answers ctx q a s

section
variable {sys : System S Q A P R} {enters : List Q → P → S → Bool}
  {answers : List Q → (q : Q) → A q → S → Bool}

theorem assuming_enters {ctx : List Q} {p : P} {s : S} :
    (sys.assuming enters answers).enters ctx p s = true ↔
      sys.enters ctx p s = true ∧ enters ctx p s = true := Bool.and_eq_true_iff

theorem assuming_answers {ctx : List Q} {q : Q} {a : A q} {s : S} :
    (sys.assuming enters answers).answers ctx q a s = true ↔
      sys.answers ctx q a s = true ∧ answers ctx q a s = true := Bool.and_eq_true_iff

/-- What the system gives a program when it goes on, it gives it under assumptions. -/
theorem sat_assuming {J I : List Q → S → Prop} {ctx : List Q} {post : α → S → Prop} :
    ∀ {t : Turn S Q A α}, t.Sat sys J I ctx post → t.Sat (sys.assuming enters answers) J I ctx post
  | .done _ _, h => h
  | .wait _ _ _, h => ⟨h.1, fun a s' hj hi ha =>
      sat_assuming (h.2 a s' hj hi (assuming_answers.mp ha).1)⟩
  | .halt _, _ => trivial

theorem keeps_assuming {J I : List Q → S → Prop} (h : Keeps sys J I) :
    Keeps (sys.assuming enters answers) J I := fun ctx p s hj hi he =>
  sat_assuming (h ctx p s hj hi (assuming_enters.mp he).1)

end

/-! ## Frames -/

/-- Between its waits the program leaves `f` as it finds it (`x` at its start), and it
waits only with queries in `W`. -/
def Turn.Framed {X : Type} (W : Q → Prop) (f : S → X) (x : X) : Turn S Q A α → Prop
  | .done s _ => f s = x
  | .wait s q k => W q ∧ f s = x ∧ ∀ a s', Turn.Framed W f (f s') (k a s')
  | .halt _ => True

section
variable {X Y : Type} {W : Q → Prop} {f : S → X} {x : X}

@[simp] theorem framed_done {s : S} {a : α} :
    (Turn.done s a : Turn S Q A α).Framed W f x ↔ f s = x := Iff.rfl

@[simp] theorem framed_halt {s : S} : (Turn.halt s : Turn S Q A α).Framed W f x ↔ True := Iff.rfl

@[simp] theorem framed_wait {s : S} {q : Q} {k : A q → S → Turn S Q A α} :
    (Turn.wait s q k).Framed W f x ↔
      W q ∧ f s = x ∧ ∀ a s', (k a s').Framed W f (f s') := Iff.rfl

theorem framed_bind {g : α → S → Turn S Q A β} (hg : ∀ a s, (g a s).Framed W f (f s)) :
    ∀ {t : Turn S Q A α} {x : X}, t.Framed W f x → (t.bind g).Framed W f x
  | .done s a, x, h => by
    have := hg a s
    rwa [show f s = x from h] at this
  | .wait _ _ _, _, h => ⟨h.1, h.2.1, fun a s' => framed_bind hg (h.2.2 a s')⟩
  | .halt _, _, _ => trivial

theorem framed_map {g : α → β} {t : Turn S Q A α} (h : t.Framed W f x) : (t.map g).Framed W f x :=
  framed_bind (fun _ _ => framed_done.mpr rfl) h

/-- A frame gives every frame that shows less, and every larger set of waits. -/
theorem Turn.Framed.mono {W' : Q → Prop} (hW : ∀ q, W q → W' q) (g : X → Y) :
    ∀ {t : Turn S Q A α} {x : X}, t.Framed W f x → t.Framed W' (fun s => g (f s)) (g x)
  | .done _ _, _, h => congrArg g h
  | .wait _ _ _, _, h =>
    ⟨hW _ h.1, congrArg g h.2.1, fun a s' => Turn.Framed.mono hW g (h.2.2 a s')⟩
  | .halt _, _, _ => trivial

theorem Turn.Framed.waits {W' : Q → Prop} {t : Turn S Q A α} (h : t.Framed W f x)
    (hW : ∀ q, W q → W' q) : t.Framed W' f x := h.mono hW (fun y => y)

/-- **The frame rule.** A program that leaves alone what an invariant reads, and waits
only with queries the invariant does not mention, keeps it. -/
theorem sat_framed {sys : System S Q A P R} {J I : List Q → S → Prop} {ctx : List Q}
    (hf : ∀ ctx s s', f s' = f s → I ctx s → I ctx s')
    (hW : ∀ q ctx s, W q → (I (q :: ctx) s ↔ I ctx s)) :
    ∀ {t : Turn S Q A α} {s : S}, I ctx s → t.Framed W f (f s) →
      t.Sat sys J I ctx (fun _ s' => I ctx s')
  | .done _ _, _, hi, h => hf _ _ _ h hi
  | .wait _ _ _, _, hi, h => ⟨(hW _ _ _ h.1).mpr (hf _ _ _ h.2.1 hi), fun a s' _ hi' _ =>
      sat_framed hf hW ((hW _ _ _ h.1).mp hi') (h.2.2 a s')⟩
  | .halt _, _, _, _ => trivial

end

/-! ## Frames that are relations

Where a program may change what an invariant reads, but only one way (a flag it clears and never
sets), a relation takes the place of the view. -/

/-- Between its waits the program moves by `rel` (from `before` at its start), and it waits
only with queries in `W`. -/
def Turn.Follows (W : Q → Prop) (rel : S → S → Prop) (before : S) : Turn S Q A α → Prop
  | .done s _ => rel before s
  | .wait s q k => W q ∧ rel before s ∧ ∀ a s', Turn.Follows W rel s' (k a s')
  | .halt _ => True

section
variable {W : Q → Prop} {rel : S → S → Prop}

theorem follows_mono {rel' : S → S → Prop} (h : ∀ s s', rel s s' → rel' s s') :
    ∀ {t : Turn S Q A α} {before : S}, t.Follows W rel before → t.Follows W rel' before
  | .done _ _, _, ht => h _ _ ht
  | .wait _ _ _, _, ht => ⟨ht.1, h _ _ ht.2.1, fun a s' => follows_mono h (ht.2.2 a s')⟩
  | .halt _, _, _ => trivial

/-- Only the first turn knows where the program started. -/
theorem follows_from (htrans : ∀ s t u, rel s t → rel t u → rel s u) {before s : S}
    (h : rel before s) :
    ∀ {t : Turn S Q A α}, t.Follows W rel s → t.Follows W rel before
  | .done _ _, ht => htrans _ _ _ h ht
  | .wait _ _ _, ht => ⟨ht.1, htrans _ _ _ h ht.2.1, ht.2.2⟩
  | .halt _, _ => trivial

theorem follows_bind (htrans : ∀ s t u, rel s t → rel t u → rel s u) {g : α → S → Turn S Q A β}
    (hg : ∀ a s, (g a s).Follows W rel s) :
    ∀ {t : Turn S Q A α} {before : S}, t.Follows W rel before → (t.bind g).Follows W rel before
  | .done _ _, _, h => follows_from htrans h (hg _ _)
  | .wait _ _ _, _, h => ⟨h.1, h.2.1, fun a s' => follows_bind htrans hg (h.2.2 a s')⟩
  | .halt _, _, _ => trivial

theorem follows_map (htrans : ∀ s t u, rel s t → rel t u → rel s u)
    (hrefl : ∀ s, rel s s) {f : α → β} {t : Turn S Q A α} {before : S}
    (h : t.Follows W rel before) : (t.map f).Follows W rel before :=
  follows_bind (g := fun a s => .done s (f a)) htrans (fun _ s => hrefl s) h

/-- A frame is a relation. -/
theorem Turn.Framed.follows {X : Type} {W' : Q → Prop} {f : S → X} (hW : ∀ q, W' q → W q)
    (hf : ∀ s s', f s' = f s → rel s s') :
    ∀ {t : Turn S Q A α} {s : S}, t.Framed W' f (f s) → t.Follows W rel s
  | .done _ _, _, h => hf _ _ h
  | .wait _ _ _, _, h =>
    ⟨hW _ h.1, hf _ _ h.2.1, fun a s' => Turn.Framed.follows hW hf (h.2.2 a s')⟩
  | .halt _, _, _ => trivial

/-- **The frame rule for relations.** A program keeps what its moves keep, if its waits do not
matter to it. -/
theorem sat_follows {sys : System S Q A P R} {J I : List Q → S → Prop} {ctx : List Q}
    (hrel : ∀ ctx s s', rel s s' → I ctx s → I ctx s')
    (hW : ∀ q ctx s, W q → (I (q :: ctx) s ↔ I ctx s)) :
    ∀ {t : Turn S Q A α} {s : S}, I ctx s → t.Follows W rel s →
      t.Sat sys J I ctx (fun _ s' => I ctx s')
  | .done _ _, _, hi, h => hrel _ _ _ h hi
  | .wait _ _ _, _, hi, h => ⟨(hW _ _ _ h.1).mpr (hrel _ _ _ h.2.1 hi), fun a s' _ hi' _ =>
      sat_follows hrel hW ((hW _ _ _ h.1).mp hi') (h.2.2 a s')⟩
  | .halt _, _, _, _ => trivial

end

/-! ## What one turn does

`Turn.Moves` relates the states of a program between its waits: what it finds when it goes on
and what it leaves when it waits again or is done. -/

/-- `R` relates the state the program finds (`before` at its start) to the state at its next
wait, and `post` that state and the result where it is done, if `J` holds when it goes on. -/
def Turn.Moves (sys : System S Q A P R) (J : List Q → S → Prop) (rel : S → S → Prop) (ctx : List Q)
    (post : S → α → S → Prop) (before : S) : Turn S Q A α → Prop
  | .done s a => post before a s
  | .wait s q k => rel before s ∧ ∀ a s', J (q :: ctx) s' → sys.answers ctx q a s' = true →
      Turn.Moves sys J rel ctx post s' (k a s')
  | .halt _ => True

section
variable {sys : System S Q A P R} {J : List Q → S → Prop} {rel : S → S → Prop}
    {ctx : List Q} {before : S}

theorem moves_wait {post : S → α → S → Prop} {s : S} {q : Q} {k : A q → S → Turn S Q A α} :
    (Turn.wait s q k).Moves sys J rel ctx post before ↔ rel before s ∧
      ∀ a s', J (q :: ctx) s' → sys.answers ctx q a s' = true →
        (k a s').Moves sys J rel ctx post s' := Iff.rfl

theorem moves_mono {post post' : S → α → S → Prop} (h : ∀ b a s, post b a s → post' b a s) :
    ∀ {t : Turn S Q A α} {before : S}, t.Moves sys J rel ctx post before →
      t.Moves sys J rel ctx post' before
  | .done _ _, _, ht => h _ _ _ ht
  | .wait _ _ _, _, ht => ⟨ht.1, fun a s' hj ha => moves_mono h (ht.2 a s' hj ha)⟩
  | .halt _, _, _ => trivial

theorem moves_bind {post : S → β → S → Prop} {f : α → S → Turn S Q A β} :
    ∀ {t : Turn S Q A α} {before : S}, (t.bind f).Moves sys J rel ctx post before ↔
      t.Moves sys J rel ctx (fun b a s => (f a s).Moves sys J rel ctx post b) before
  | .done _ _, _ => Iff.rfl
  | .wait _ _ k, _ => and_congr Iff.rfl (forall_congr' fun a => forall_congr' fun s' =>
      imp_congr_right fun _ => imp_congr_right fun _ => moves_bind (t := k a s'))
  | .halt _, _ => Iff.rfl

theorem moves_map {post : S → β → S → Prop} {f : α → β} {t : Turn S Q A α} :
    (t.map f).Moves sys J rel ctx post before ↔
    t.Moves sys J rel ctx (fun b a s => post b (f a) s) before := moves_bind

/-- Every program moves somehow. -/
theorem moves_true : ∀ {t : Turn S Q A α} {before : S},
    t.Moves sys J (fun _ _ => True) ctx (fun _ _ _ => True) before
  | .done _ _, _ => trivial
  | .wait _ _ _, _ => ⟨trivial, fun _ _ _ _ => moves_true⟩
  | .halt _, _ => trivial

/-- A program that follows a relation moves by it. -/
theorem moves_follows {W : Q → Prop} : ∀ {t : Turn S Q A α} {before : S}, t.Follows W rel before →
    t.Moves sys J rel ctx (fun b _ s => rel b s) before
  | .done _ _, _, h => h
  | .wait _ _ _, _, h => ⟨h.2.1, fun a s' _ _ => moves_follows (h.2.2 a s')⟩
  | .halt _, _, _ => trivial

/-- A program that leaves alone what a relation reads moves by it. -/
theorem moves_framed {X : Type} {W : Q → Prop} {f : S → X}
    (hf : ∀ s s', f s' = f s → rel s s') {t : Turn S Q A α} {s : S} (h : t.Framed W f (f s)) :
    t.Moves sys J rel ctx (fun b _ s' => rel b s') s :=
  moves_follows (h.follows (fun _ hq => hq) hf)

end

/-- Over `J`, every turn of every program moves by `rel`. -/
def Steps (sys : System S Q A P R) (J : List Q → S → Prop) (rel : S → S → Prop) : Prop :=
  ∀ ctx p s, J ctx s → sys.enters ctx p s = true →
    (sys.prog p s).Moves sys J rel ctx (fun b _ s' => rel b s') s

/-- Each waiting program moves by `rel` when it goes on. -/
def FramesMove (sys : System S Q A P R) (J : List Q → S → Prop) (rel : S → S → Prop) :
    List (Frame S Q A R) → Prop
  | [] => True
  | f :: below =>
    (∀ a s', J (f.query :: below.map Frame.query) s' →
      sys.answers (below.map Frame.query) f.query a s' = true →
      (f.rest a s').Moves sys J rel (below.map Frame.query) (fun b _ s => rel b s) s') ∧
    FramesMove sys J rel below

section
variable {sys : System S Q A P R} {J : List Q → S → Prop} {rel : S → S → Prop}

theorem settle_moves {stack : List (Frame S Q A R)} {t : Turn S Q A R} {before : S}
    (hs : FramesMove sys J rel stack)
    (ht : t.Moves sys J rel (stack.map Frame.query) (fun b _ s => rel b s) before) :
    ((Config.settle stack t).live = true → rel before (Config.settle stack t).state) ∧
      FramesMove sys J rel (Config.settle stack t).stack := by
  cases t with
  | done s r => exact ⟨fun _ => ht, hs⟩
  | wait s q k => exact ⟨fun _ => ht.1, ht.2, hs⟩
  | halt s => exact ⟨nofun, trivial⟩

theorem step_moves (hM : Steps sys J rel) {c c' : Config S Q A R} {e : Event Q A P}
    (hj : c.live = true → J c.queries c.state) (hc : FramesMove sys J rel c.stack)
    (h : step sys c e = some c') :
    (c'.live = true → rel c.state c'.state) ∧ FramesMove sys J rel c'.stack := by
  cases e with
  | enter p =>
    simp only [step, Option.ite_none_right_eq_some, Bool.and_eq_true, Option.some.injEq] at h
    obtain ⟨⟨hl, he⟩, rfl⟩ := h
    exact settle_moves hc (hM _ _ _ (hj hl) he)
  | resume a =>
    cases hst : c.stack with
    | nil => simp [step, hst] at h
    | cons f below =>
      simp only [step, hst, Option.ite_none_right_eq_some, Bool.and_eq_true, Option.some.injEq] at h
      obtain ⟨⟨hl, ha⟩, rfl⟩ := h
      have hi : J (f.query :: below.map Frame.query) c.state := by
        have := hj hl
        rwa [Config.queries, hst, List.map_cons] at this
      rw [hst] at hc
      exact settle_moves hc.2 (hc.1 _ _ hi ha)

theorem run_frames (hJ : Keeps sys Any J) (hM : Steps sys J rel) :
    ∀ {es : List (Event Q A P)} {c c' : Config S Q A R}, ConfigOk sys J c →
      FramesMove sys J rel c.stack →
      run sys c es = some c' → ConfigOk sys J c' ∧ FramesMove sys J rel c'.stack
  | [], _, _, hc, hf, h => by
    cases h
    exact ⟨hc, hf⟩
  | e :: es, c, c', hc, hf, h => by
    obtain ⟨d, hd, hr⟩ := Option.bind_eq_some_iff.mp h
    exact run_frames hJ hM (step_ok hJ hc hd) (step_moves hM hc.1 hf hd).2 hr

/-- **Every step of every run moves by what every turn does.** -/
theorem reachable_moves (hJ : Keeps sys Any J) (hM : Steps sys J rel) {s : S} (h0 : J [] s)
    {c c' : Config S Q A R} (h : Reachable sys s c) {e : Event Q A P} (he : step sys c e = some c')
    (hl : c'.live = true) :
    rel c.state c'.state := by
  obtain ⟨es, hes⟩ := h
  have hc : ConfigOk sys J ({ state := s } : Config S Q A R) := ⟨fun _ => h0, trivial⟩
  obtain ⟨hok, hframes⟩ := run_frames hJ hM hc trivial hes
  exact (step_moves hM hok.1 hframes he).1 hl

end

/-- What takes a step is alive. -/
theorem step_live {sys : System S Q A P R} {c c' : Config S Q A R} {e : Event Q A P}
    (h : step sys c e = some c') :
    c.live = true := by
  cases e with
  | enter p =>
    simp only [step, Option.ite_none_right_eq_some, Bool.and_eq_true] at h
    exact h.1.1
  | resume a =>
    cases hst : c.stack with
    | nil => simp [step, hst] at h
    | cons f below =>
      simp only [step, hst, Option.ite_none_right_eq_some, Bool.and_eq_true] at h
      exact h.1.1

/-- Every step of the run satisfies `p`. -/
def Along (sys : System S Q A P R) (p : Config S Q A R → Config S Q A R → Prop) :
    Config S Q A R → List (Event Q A P) → Prop
  | _, [] => True
  | c, e :: es => ∀ c', step sys c e = some c' → p c c' ∧ Along sys p c' es

instance decidableAlong (sys : System S Q A P R) (p : Config S Q A R → Config S Q A R → Prop)
    [hp : ∀ c c', Decidable (p c c')] : ∀ c es, Decidable (Along sys p c es)
  | _, [] => .isTrue trivial
  | c, e :: es =>
    match h : step sys c e with
    | none => .isTrue fun _ hc => absurd (h.symm.trans hc) nofun
    | some c' =>
      have := decidableAlong sys p c' es
      decidable_of_iff (p c c' ∧ Along sys p c' es)
        ⟨fun ha _ hd => Option.some.inj (h.symm.trans hd) ▸ ha, fun ha => ha c' h⟩

/-- **The run lemma for steps.** What a step of a run keeps, given the relation every step moves
by and the condition every step of this run meets, holds at its end. -/
theorem along_inv {sys : System S Q A P R} {J : List Q → S → Prop} {rel : S → S → Prop}
    (hJ : Keeps sys Any J) (hM : Steps sys J rel) {s : S} (h0 : J [] s)
    {p : Config S Q A R → Config S Q A R → Prop} {G : S → Prop} (hG : ∀ c c' : Config S Q A R,
      Reachable sys s c → c.live = true → J c.queries c.state → rel c.state c'.state → p c c' →
      G c.state → G c'.state) :
    ∀ {es : List (Event Q A P)} {c c' : Config S Q A R}, Reachable sys s c → Along sys p c es →
      run sys c es = some c' → c'.live = true → G c.state → G c'.state
  | [], _, _, _, _, h, _, hg => by
    cases h
    exact hg
  | e :: es, c, c', hc, ha, h, hl, hg => by
    obtain ⟨d, hd, hr⟩ := Option.bind_eq_some_iff.mp h
    obtain ⟨hp, hrest⟩ := ha d hd
    have hdl : d.live = true := by
      cases es with
      | nil =>
        cases hr
        exact hl
      | cons e' es =>
        obtain ⟨d', hd', _⟩ := Option.bind_eq_some_iff.mp hr
        exact step_live hd'
    have hstep : run sys c [e] = some d := by
      rw [run, hd]
      rfl
    have hmoved := reachable_moves hJ hM h0 hc hd hdl
    have hnow := hG c d hc (step_live hd) (run_inv hJ h0 hc (step_live hd)) hmoved hp hg
    exact along_inv hJ hM h0 hG (hc.trans hstep) hrest hr hl hnow

theorem along_true {sys : System S Q A P R} : ∀ {es : List (Event Q A P)} {c : Config S Q A R},
    Along sys (fun _ _ => True) c es
  | [], _ => trivial
  | _ :: _, _ => fun _ _ => ⟨trivial, along_true⟩

/-- What every step keeps holds in every state of every run. -/
theorem steps_inv {sys : System S Q A P R} {J : List Q → S → Prop} {rel : S → S → Prop}
    (hJ : Keeps sys Any J) (hM : Steps sys J rel) {s : S} (h0 : J [] s) {G : S → Prop}
    (hG : ∀ s s', rel s s' → G s → G s') {c : Config S Q A R} (h : Reachable sys s c)
    (hl : c.live = true) (hg : G s) : G c.state := by
  obtain ⟨es, hes⟩ := h
  have hstep : ∀ c c' : Config S Q A R, Reachable sys s c → c.live = true → J c.queries c.state →
      rel c.state c'.state → True → G c.state → G c'.state := fun _ _ _ _ _ hr _ hg => hG _ _ hr hg
  exact along_inv hJ hM h0 hstep ⟨[], rfl⟩ along_true hes hl hg

/-! ## Levels -/

/-- The waiting queries, newest first, have falling levels. -/
def Layered (level : Q → Nat) (ctx : List Q) : Prop :=
  ctx.Pairwise (fun newer older => level older < level newer)

/-- A program of level `n` may be entered over `ctx`. -/
def above (level : Q → Nat) (n : Nat) (ctx : List Q) : Bool := ctx.all (fun q => level q < n)

theorem above_iff {level : Q → Nat} {n : Nat} {ctx : List Q} :
    above level n ctx = true ↔ ∀ q ∈ ctx, level q < n := by
  simp [above]

/-- The program waits only with queries of level `n`. -/
def Turn.AtLevel (level : Q → Nat) (n : Nat) (t : Turn S Q A α) : Prop :=
  t.Framed (fun q => level q = n) (fun _ => ()) ()

theorem sat_layered {sys : System S Q A P R} {level : Q → Nat} {n : Nat} {ctx : List Q}
    (hctx : Layered level ctx) (habove : ∀ q ∈ ctx, level q < n) :
    ∀ {t : Turn S Q A α}, t.AtLevel level n →
      t.Sat sys Any (fun ctx _ => Layered level ctx) ctx (fun _ _ => Layered level ctx)
  | .done _ _, _ => hctx
  | .wait _ _ _, ht => ⟨List.pairwise_cons.mpr ⟨fun q hq => ht.1 ▸ habove q hq, hctx⟩,
      fun a s' _ _ _ => sat_layered hctx habove (ht.2.2 a s')⟩
  | .halt _, _ => trivial

/-- **Pre-emption by level.** If a program is entered only over waiting programs of
lower levels and waits at its own, the stack is always layered. -/
theorem layered_keeps {sys : System S Q A P R} {level : Q → Nat} {rank : P → Nat}
    (he : ∀ ctx p s, sys.enters ctx p s = true → above level (rank p) ctx = true)
    (hw : ∀ p s, (sys.prog p s).AtLevel level (rank p)) :
    Keeps sys Any (fun ctx _ => Layered level ctx) := fun ctx p s _ hctx hent =>
  sat_layered hctx (above_iff.mp (he ctx p s hent)) (hw p s)

/-- Below a waiting query of a layered stack only lower levels wait. -/
theorem Layered.below {level : Q → Nat} {q : Q} {ctx : List Q} (h : Layered level (q :: ctx)) :
    ∀ q' ∈ ctx, level q' < level q := fun q' hq' => (List.pairwise_cons.mp h).1 q' hq'

/-- A layered stack has at most one query of each level. -/
theorem Layered.unique {level : Q → Nat} {q q' : Q} :
    ∀ {ctx : List Q}, Layered level ctx → q ∈ ctx → q' ∈ ctx →
    level q = level q' → q = q'
  | _ :: _, h, hq, hq', he => by
    obtain ⟨hbelow, hrest⟩ := List.pairwise_cons.mp h
    rcases List.mem_cons.mp hq with rfl | htail <;> rcases List.mem_cons.mp hq' with rfl | htail'
    · rfl
    · have := hbelow q' htail'
      omega
    · have := hbelow q htail
      omega
    · exact Layered.unique hrest htail htail' he

end Interleave
