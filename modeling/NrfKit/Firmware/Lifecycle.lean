import NrfKit.Firmware.Lifetime

/- The life of Timeslot sessions. `History` is what a session should be: opened with a
   handler, that handler invoked any number of times, told CLOSED once, and released
   once, before the next session opens. The backend follows it in every run in which no
   session is opened while the CLOSED notification runs (`session_lifecycle`). It clears
   the handler after that notification, not before, so a session opened there is left
   open without a handler (`reopened_session_loses_handler`). -/
namespace NrfKit.Firmware
open Interleave

variable (V : Vendor)

/-! ## Histories -/

/-- Between sessions, in a session, or in its CLOSED notification; `n` sessions have been
opened. -/
inductive Phase where
  | idle (n : Nat)
  | active (n : Nat) (handler : Handler)
  | closing (n : Nat)

namespace Phase

/-- The sessions opened, told CLOSED and released so far. -/
def opened : Phase → Nat
  | .idle n | .active n _ | .closing n => n

def closed : Phase → Nat
  | .idle n | .closing n => n
  | .active n _ => n - 1

def released : Phase → Nat
  | .idle n => n
  | .active n _ | .closing n => n - 1

end Phase

/-- The records that sessions following one another leave. -/
inductive History : List SessionNote → Phase → Prop where
  | start : History [] (.idle 0)
  | opened {notes : List SessionNote} {n : Nat} (h : Handler) :
    History notes (.idle n) → History (notes ++ [.opened (n + 1) h]) (.active (n + 1) h)
  | invoked {notes : List SessionNote} {n : Nat} {h : Handler} (signal : Signal) :
    signal ≠ .closed → History notes (.active n h) →
    History (notes ++ [.invoked n h signal]) (.active n h)
  | closed {notes : List SessionNote} {n : Nat} {h : Handler} :
    History notes (.active n h) → History (notes ++ [.invoked n h .closed]) (.closing n)
  | released {notes : List SessionNote} {n : Nat} :
    History notes (.closing n) → History (notes ++ [.released n]) (.idle n)

def SessionNote.closes (serial : Nat) : SessionNote → Bool
  | .invoked s _ .closed => s == serial
  | _ => false

def SessionNote.releases (serial : Nat) : SessionNote → Bool
  | .released s => s == serial
  | _ => false

/-- How often the session was told CLOSED. -/
def closedNotices (notes : List SessionNote) (serial : Nat) : Nat :=
  notes.countP (SessionNote.closes serial)

/-- How often MPSL was released for the session. -/
def releases (notes : List SessionNote) (serial : Nat) : Nat :=
  notes.countP (SessionNote.releases serial)

namespace History

variable {notes : List SessionNote} {p : Phase}

/-- A session that is open or being closed has been opened. -/
theorem serial_pos (h : History notes p) : match p with
    | .idle _ => True
    | .active n _ | .closing n => 1 ≤ n := by
  induction h with
  | start => trivial
  | opened => exact Nat.succ_pos _
  | invoked _ _ _ ih => exact ih
  | closed _ ih => exact ih
  | released => trivial

theorem one_more {n s : Nat} (h : 1 ≤ n) :
    (if 1 ≤ s ∧ s ≤ n - 1 then 1 else 0) + (if n = s then 1 else 0) =
      if 1 ≤ s ∧ s ≤ n then 1 else 0 := by
  by_cases he : n = s
  · rw [if_neg (by omega), if_pos he, if_pos (by omega)]
  · have hiff : (1 ≤ s ∧ s ≤ n) ↔ (1 ≤ s ∧ s ≤ n - 1) := by omega
    simp only [if_neg he, hiff, Nat.add_zero]

/-- Sessions are told CLOSED in order, each once. -/
theorem closedNotices_eq (h : History notes p) (s : Nat) :
    closedNotices notes s = if 1 ≤ s ∧ s ≤ p.closed then 1 else 0 := by
  unfold closedNotices
  induction h with
  | start => rw [if_neg (by show ¬ (1 ≤ s ∧ s ≤ 0); omega)]; rfl
  | opened hd _ ih =>
    rw [List.countP_append, ih]
    rfl
  | invoked signal hs _ ih =>
    rw [List.countP_append, ih]
    cases signal with
    | closed => exact absurd rfl hs
    | _ => rfl
  | @closed notes n hd h ih =>
    have hpos : 1 ≤ n := h.serial_pos
    have hone : [SessionNote.invoked n hd .closed].countP (SessionNote.closes s) =
        if n = s then 1 else 0 := by
      rw [List.countP_singleton]
      simp only [SessionNote.closes, beq_iff_eq]
    rw [List.countP_append, ih, hone]
    exact one_more hpos
  | released _ ih =>
    rw [List.countP_append, ih]
    rfl

/-- MPSL is released in order, once for each session. -/
theorem releases_eq (h : History notes p) (s : Nat) :
    releases notes s = if 1 ≤ s ∧ s ≤ p.released then 1 else 0 := by
  unfold releases
  induction h with
  | start => rw [if_neg (by show ¬ (1 ≤ s ∧ s ≤ 0); omega)]; rfl
  | opened hd _ ih =>
    rw [List.countP_append, ih]
    rfl
  | invoked signal _ _ ih =>
    rw [List.countP_append, ih]
    rfl
  | closed _ ih =>
    rw [List.countP_append, ih]
    rfl
  | @released notes n h ih =>
    have hpos : 1 ≤ n := h.serial_pos
    have hone : [SessionNote.released n].countP (SessionNote.releases s) =
        if n = s then 1 else 0 := by
      rw [List.countP_singleton]
      simp only [SessionNote.releases, beq_iff_eq]
    rw [List.countP_append, ih, hone]
    exact one_more hpos

/-- Sessions are numbered from 1 as they are opened. -/
theorem opened_serial (h : History notes p) {s : Nat} {hd : Handler}
    (hm : .opened s hd ∈ notes) : 1 ≤ s ∧ s ≤ p.opened := by
  induction h with
  | start => cases hm
  | opened hd' _ ih =>
    rcases List.mem_append.mp hm with hm | hm
    · have := ih hm
      simp only [Phase.opened] at this ⊢
      omega
    · cases List.mem_singleton.mp hm
      exact ⟨Nat.succ_pos _, Nat.le_refl _⟩
  | invoked _ _ _ ih | closed _ ih | released _ ih =>
    rcases List.mem_append.mp hm with hm | hm
    · exact ih hm
    · cases List.mem_singleton.mp hm

/-- Of one session only one opening is recorded. -/
theorem opened_unique (h : History notes p) {s : Nat} {hd hd' : Handler}
    (hm : .opened s hd ∈ notes) (hm' : .opened s hd' ∈ notes) : hd = hd' := by
  induction h with
  | start => cases hm
  | @opened notes n hd'' h ih =>
    have hold : ∀ hd, .opened (n + 1) hd ∉ notes := by
      intro hd hm
      have : n + 1 ≤ n := (h.opened_serial hm).2
      omega
    rcases List.mem_append.mp hm with hl | hl <;> rcases List.mem_append.mp hm' with hl' | hl'
    · exact ih hl hl'
    · cases List.mem_singleton.mp hl'
      exact absurd hl (hold _)
    · cases List.mem_singleton.mp hl
      exact absurd hl' (hold _)
    · cases List.mem_singleton.mp hl
      cases List.mem_singleton.mp hl'
      rfl
  | invoked _ _ _ ih | closed _ ih | released _ ih =>
    refine ih ?_ ?_
    · rcases List.mem_append.mp hm with hm | hm
      · exact hm
      · cases List.mem_singleton.mp hm
    · rcases List.mem_append.mp hm' with hm' | hm'
      · exact hm'
      · cases List.mem_singleton.mp hm'

/-- An open session was opened with the handler it has. -/
theorem active_opened {n : Nat} {hd : Handler} (h : History notes (.active n hd)) :
    .opened n hd ∈ notes := by
  generalize hp : Phase.active n hd = p at h
  induction h with
  | start => cases hp
  | opened hd' =>
    cases hp
    exact List.mem_append_right _ List.mem_cons_self
  | invoked _ _ _ ih => exact List.mem_append_left _ (ih hp)
  | closed => cases hp
  | released => cases hp

/-- While a session is open it has not been told CLOSED. -/
theorem active_not_closed {n : Nat} {hd hd' : Handler} (h : History notes (.active n hd)) :
    .invoked n hd' .closed ∉ notes := by
  intro hm
  have hpos : 1 ≤ n := h.serial_pos
  have hcount := h.closedNotices_eq n
  rw [if_neg (by simp only [Phase.closed]; omega)] at hcount
  have hnone := List.countP_eq_zero.mp hcount _ hm
  simp [SessionNote.closes] at hnone

/-- CLOSED is a session's last invocation. -/
theorem last_invocation (h : History notes p) {earlier later : List SessionNote} {s : Nat}
    {hd hd' : Handler} {signal : Signal} (he : notes = earlier ++ .invoked s hd .closed :: later) :
    .invoked s hd' signal ∉ later := by
  -- a note that invokes no handler of the session leaves this to the notes before it
  have hstep : ∀ {notes : List SessionNote} {n : SessionNote} {later : List SessionNote},
      (∀ {later : List SessionNote}, notes = earlier ++ .invoked s hd .closed :: later →
        .invoked s hd' signal ∉ later) →
      (.invoked s hd .closed ∈ notes → n ≠ .invoked s hd' signal) →
      notes ++ [n] = earlier ++ .invoked s hd .closed :: later → .invoked s hd' signal ∉ later := by
    intro notes n later ih hn he hm
    rcases record_split he with ⟨rfl, _⟩ | ⟨later', rfl, hnotes⟩
    · cases hm
    · rcases List.mem_append.mp hm with hm | hm
      · exact ih hnotes hm
      · refine hn ?_ (List.mem_singleton.mp hm).symm
        rw [hnotes]
        exact List.mem_append_right _ List.mem_cons_self
  induction h generalizing later with
  | start => exact absurd he.symm (by simp)
  | opened | released => exact hstep (by assumption) (fun _ heq => by cases heq) he
  | @invoked notes n h' signal' _ h ih =>
    refine hstep ih (fun hm heq => ?_) he
    cases heq
    exact h.active_not_closed hm
  | @closed notes n h' h ih =>
    refine hstep ih (fun hm heq => ?_) he
    cases heq
    exact h.active_not_closed hm

end History

/-! ## The invariant -/

/-- What the life of the session shows in: the flag and handler of `timeslot.c`, and the
record. -/
structure LifecycleView where
  sessionOpen : Bool
  handler : Option Handler
  serial : Nat
  closing : Nat
  notes : List SessionNote

def lifecycle (m : Machine) : LifecycleView where
  sessionOpen := m.ts.sessionOpen
  handler := m.ts.applicationHandler
  serial := m.ghost.serial
  closing := m.ghost.closing
  notes := m.ghost.sessions

/-- The query waits for the application to handle CLOSED. -/
def Query.closedNotice : Query → Bool
  | .handler _ .sessionClosed _ => true
  | _ => false

/-- `timeslot.c` is where the history says. -/
def Follows (ctx : List Query) (d : LifecycleView) : Phase → Prop
  | .idle n => d.sessionOpen = false ∧ d.handler = none ∧ d.serial = n ∧
    ∀ q ∈ ctx, q.closedNotice = false
  | .active n h => d.sessionOpen = true ∧ d.handler = some h ∧ d.serial = n ∧
    ∀ q ∈ ctx, q.closedNotice = false
  | .closing n => d.sessionOpen = false ∧ d.serial = n ∧ d.closing = n ∧
    (∃ q ∈ ctx, q.closedNotice = true) ∧ .within .timeslotSessionOpen 0 ∉ ctx

/-- The refinement: some history explains the record and the state. -/
def LifecycleOk (ctx : List Query) (d : LifecycleView) : Prop :=
  ∃ p, History d.notes p ∧ Follows ctx d p

section
variable {ctx : List Query} {d : LifecycleView}

theorem lifecycleOk_cons {q : Query} (hq : q.closedNotice = false)
    (hw : q = .within .timeslotSessionOpen 0 → ∀ q' ∈ ctx, q'.closedNotice = false) :
    LifecycleOk (q :: ctx) d ↔ LifecycleOk ctx d := by
  have hall : (∀ q' ∈ q :: ctx, q'.closedNotice = false) ↔ ∀ q' ∈ ctx, q'.closedNotice = false := by
    rw [List.forall_mem_cons]
    exact and_iff_right hq
  have hex : (∃ q' ∈ q :: ctx, q'.closedNotice = true) ↔ ∃ q' ∈ ctx, q'.closedNotice = true := by
    constructor
    · rintro ⟨q', hm, hc⟩
      rcases List.mem_cons.mp hm with rfl | hm
      · exact absurd (hq.symm.trans hc) nofun
      · exact ⟨q', hm, hc⟩
    · rintro ⟨q', hm, hc⟩
      exact ⟨q', List.mem_cons_of_mem _ hm, hc⟩
  constructor
  · rintro ⟨p, hh, hf⟩
    refine ⟨p, hh, ?_⟩
    cases p with
    | idle => exact ⟨hf.1, hf.2.1, hf.2.2.1, hall.mp hf.2.2.2⟩
    | active => exact ⟨hf.1, hf.2.1, hf.2.2.1, hall.mp hf.2.2.2⟩
    | closing =>
      exact ⟨hf.1, hf.2.1, hf.2.2.1, hex.mp hf.2.2.2.1, fun hm =>
        hf.2.2.2.2 (List.mem_cons_of_mem _ hm)⟩
  · rintro ⟨p, hh, hf⟩
    refine ⟨p, hh, ?_⟩
    cases p with
    | idle => exact ⟨hf.1, hf.2.1, hf.2.2.1, hall.mpr hf.2.2.2⟩
    | active => exact ⟨hf.1, hf.2.1, hf.2.2.1, hall.mpr hf.2.2.2⟩
    | closing =>
      obtain ⟨h1, h2, h3, h4, h5⟩ := hf
      refine ⟨h1, h2, h3, hex.mpr h4, fun hm => ?_⟩
      rcases List.mem_cons.mp hm with he | hm
      · obtain ⟨q', hq', hc⟩ := h4
        exact absurd ((hw he.symm q' hq').symm.trans hc) nofun
      · exact h5 hm

theorem closedNotice_level {q : Query} (h : level q < 1) : q.closedNotice = false := by
  cases q with
  | handler hd cause deadline =>
    cases cause with
    | sessionClosed => exact absurd h (by show ¬ 1 < 1; omega)
    | _ => rfl
  | _ => rfl

end

/-! ## The programs -/

/-- No session is opened while the application handles CLOSED: MPSL refuses it. -/
def quietClose : System Machine Query Answer Entry Ret :=
  (openSessions V).assuming
    (fun _ _ _ => true)
    (fun ctx q a _ => match q, a with
      | .vendor .timeslotSessionOpen, reply => !ctx.any Query.closedNotice || reply.result != 0
      | _, _ => true)

section
variable {V} {α : Type} {ctx : List Query} {m : Machine}

/-- A program under the invariant. -/
abbrev KeepsLifecycle (V : Vendor) (ctx : List Query) (T : α → Machine → Prop)
    (t : FTurn α) : Prop :=
  t.Sat (quietClose V) SessionsKnown (fun ctx m => LifecycleOk ctx (lifecycle m)) ctx T

theorem lifecycle_release (m : Machine) :
    lifecycle (nrfkitMpslTimeslotRelease m) = lifecycle m := by
  obtain ⟨pf, h⟩ := releaseReference_eq m
  rw [h]
  rfl

theorem lifecycle_cleanupGrant (m : Machine) : lifecycle (cleanupGrant m) = lifecycle m := by
  obtain ⟨t, r, o, _, h⟩ := cleanupGrant_eq m
  rw [h]
  rfl

theorem timeslotOpen_lifecycle {handler : Option Handler} {context : Nat}
    (h : LifecycleOk ctx (lifecycle m)) :
    KeepsLifecycle V ctx (fun _ m => LifecycleOk ctx (lifecycle m))
      (nrfkitTimeslotOpen V handler context m) := by
  unfold nrfkitTimeslotOpen
  cases handler with
  | none => exact h
  | some hd =>
    obtain ⟨pf, hpf⟩ := retain_eq V m
    dsimp only
    split
    · exact h
    · rw [hpf]
      split
      · exact h
      · have hvendor : ∀ d, LifecycleOk (.vendor .timeslotSessionOpen :: ctx) d ↔
            LifecycleOk ctx d :=
          fun d => lifecycleOk_cons rfl (fun he => by cases he)
        refine sat_wait.mpr ⟨(hvendor _).mpr h, fun reply m1 _ h1 ha => ?_⟩
        -- MPSL opens no session while a CLOSED notification runs.
        have hquiet : reply.result = 0 → ∀ q ∈ ctx, q.closedNotice = false := by
          intro hr q hq
          have hg := (assuming_answers.mp ha).2
          simp only [hr, bne_self_eq_false, Bool.or_false, Bool.not_eq_true', List.any_eq_false,
            Bool.not_eq_true] at hg
          exact hg q hq
        have hw : Query.within .timeslotSessionOpen reply.result = .within .timeslotSessionOpen 0 →
            ∀ q ∈ ctx, q.closedNotice = false := by
          intro he
          injection he with _ he
          exact hquiet he
        refine sat_wait.mpr ⟨(lifecycleOk_cons rfl hw).mpr ((hvendor _).mp h1),
          fun _ m2 hk2 h2 _ => ?_⟩
        have h2 := (lifecycleOk_cons rfl hw).mp h2
        dsimp only
        split
        · show LifecycleOk ctx (lifecycle (nrfkitMpslTimeslotRelease m2))
          rw [lifecycle_release]
          exact h2
        · rename_i hr
          have hclosed : m2.ts.sessionOpen = false := (hk2.1.2.decided _ List.mem_cons_self).1
          have hno := hquiet (by simpa using hr)
          obtain ⟨p, hh, hf⟩ := h2
          -- Only an idle session is opened: the flag is clear, and no notification is under way.
          cases p with
          | idle n =>
            obtain ⟨_, _, hs, _⟩ := hf
            have hs : m2.ghost.serial = n := hs
            rw [← hs] at hh
            exact ⟨_, hh.opened hd, rfl, rfl, rfl, hno⟩
          | active n h' => exact absurd (hclosed.symm.trans hf.1) nofun
          | closing n =>
            obtain ⟨q, hq, hc⟩ := hf.2.2.2.1
            exact absurd ((hno q hq).symm.trans hc) nofun

/-- The session MPSL signals is open, unless no handler is known yet. -/
def Signalled (ctx : List Query) (d : LifecycleView) : Prop :=
  LifecycleOk ctx d ∧ (d.handler = none ∨
    ∃ n hd, History d.notes (.active n hd) ∧ Follows ctx d (.active n hd))

theorem signalled {id : Nat} (hk : SessionsKnown ctx m) (h : LifecycleOk ctx (lifecycle m))
    (hid : m.mpsl.session = some id) : Signalled ctx (lifecycle m) := by
  refine ⟨h, ?_⟩
  obtain ⟨p, hh, hf⟩ := h
  cases p with
  | idle n => exact Or.inl hf.2.1
  | active n hd => exact Or.inr ⟨n, hd, hh, hf⟩
  | closing n =>
    exfalso
    have hopen : m.ts.sessionOpen = false := hf.1
    have hsome : (timeslotClient.session m).isSome = true := by
      rw [show timeslotClient.session m = some id from hid]
      rfl
    by_cases hex : ∃ q ∈ ctx, Opening timeslotClient q
    · obtain ⟨q, hq, rfl | ⟨r, rfl⟩⟩ := hex
      · rw [(hk.1.2.undecided hq).2] at hsome
        cases hsome
      · have hdec := (hk.1.2.decided r hq).2
        rw [hsome] at hdec
        have hr : r = 0 := of_decide_eq_true hdec.symm
        rw [hr] at hq
        exact hf.2.2.2.2 hq
    · have hset : m.ts.sessionOpen = (timeslotClient.session m).isSome :=
        hk.1.2.settled fun q hq ho => hex ⟨q, hq, ho⟩
      rw [hopen, hsome] at hset
      cases hset

/-- Invoking the handler for a signal other than CLOSED. -/
theorem callHandler_lifecycle {cause : MpslSignal} (hs : cause ≠ .sessionClosed) {deadline : Bool}
    {k : Action → Machine → FTurn α} {T : α → Machine → Prop} (h : Signalled ctx (lifecycle m))
    (hk : ∀ action m, LifecycleOk ctx (lifecycle m) → KeepsLifecycle V ctx T (k action m)) :
    KeepsLifecycle V ctx T (callHandler cause deadline m k) := by
  have hsignal : translateSignal cause ≠ .closed := by
    cases cause with
    | sessionClosed => exact absurd rfl hs
    | _ => nofun
  have hnotice : ∀ hd, (Query.handler hd cause deadline).closedNotice = false := by
    intro hd
    cases cause with
    | sessionClosed => exact absurd rfl hs
    | _ => rfl
  unfold callHandler
  split
  · trivial
  · rename_i hd hhd
    have hcons : ∀ d, LifecycleOk (.handler hd cause deadline :: ctx) d ↔ LifecycleOk ctx d :=
      fun d => lifecycleOk_cons (hnotice hd) nofun
    rcases h.2 with hnone | ⟨n, hd', hh, hf⟩
    · exact absurd (hhd.symm.trans hnone) nofun
    · obtain ⟨ho, hh', hser, hno⟩ := hf
      have hd_eq : hd' = hd := Option.some.inj (hh'.symm.trans hhd)
      have hser : m.ghost.serial = n := hser
      rw [← hser, hd_eq] at hh
      exact sat_wait.mpr ⟨(hcons _).mpr ⟨_, hh.invoked _ hsignal, ho, hhd, rfl, hno⟩,
        fun action m' _ h' _ => hk action m' ((hcons _).mp h')⟩

theorem endGrant_lifecycle (h : LifecycleOk ctx (lifecycle m)) :
    KeepsLifecycle V ctx (fun _ m => LifecycleOk ctx (lifecycle m)) (endGrant m) := by
  show LifecycleOk ctx (lifecycle (cleanupGrant m))
  rw [lifecycle_cleanupGrant]
  exact h

theorem handleAction_lifecycle {action : Action} (h : LifecycleOk ctx (lifecycle m)) :
    KeepsLifecycle V ctx (fun _ m => LifecycleOk ctx (lifecycle m)) (handleAction V action m) := by
  unfold handleAction
  split
  · exact endGrant_lifecycle h
  · split
    · exact h
    · split
      · exact h
      · split
        · show LifecycleOk ctx (lifecycle (cleanupGrant m))
          rw [lifecycle_cleanupGrant]
          exact h
        · exact endGrant_lifecycle h

theorem notifyApplication_lifecycle {signal : MpslSignal} (hs : signal ≠ .sessionClosed)
    (h : Signalled ctx (lifecycle m)) :
    KeepsLifecycle V ctx (fun _ m => LifecycleOk ctx (lifecycle m))
      (notifyApplication V signal m) := by
  refine callHandler_lifecycle hs h (fun action m h => ?_)
  split
  · exact h
  · split
    · exact endGrant_lifecycle h
    · exact handleAction_lifecycle h

theorem timeslotCallback_lifecycle {id : Nat} {signal : MpslSignal} (hs : signal ≠ .sessionClosed)
    (h : Signalled ctx (lifecycle m)) :
    KeepsLifecycle V ctx (fun _ m => LifecycleOk ctx (lifecycle m))
      (timeslotCallback V id signal m) := by
  unfold timeslotCallback
  rw [if_neg hs]
  split
  · exact h.1
  · generalize hm : (if signal = .sessionIdle ∨ signal = .blocked ∨ signal = .cancelled then
        { m with ts := { m.ts with sessionIdle := true } } else m) = m'
    have hsame : lifecycle m' = lifecycle m := by
      rw [← hm]
      split <;> rfl
    rw [← hsame] at h
    dsimp only
    split
    · obtain ⟨o, ho⟩ := acquire_eq .timeslot m'
      rw [ho]
      split
      · exact endGrant_lifecycle h.1
      · exact notifyApplication_lifecycle hs h
    · split
      · refine callHandler_lifecycle (by exact nofun) h (fun action m h => ?_)
        split
        · exact endGrant_lifecycle h
        · exact handleAction_lifecycle h
      · split
        · exact notifyApplication_lifecycle hs h
        · split
          · refine notifyApplication_lifecycle hs ?_
            rw [lifecycle_cleanupGrant]
            exact h
          · exact notifyApplication_lifecycle hs h

/-- SESSION_CLOSED of the open session: its handler is told, then forgotten, then MPSL is
released. -/
theorem closeSession_lifecycle (hb : ∀ q ∈ ctx, level q < 1) (hopen : m.ts.sessionOpen = true)
    (h : LifecycleOk ctx (lifecycle m)) :
    KeepsLifecycle V ctx (fun _ m => LifecycleOk ctx (lifecycle m)) (closeSession m) := by
  have hno : ∀ q ∈ ctx, q.closedNotice = false := fun q hq => closedNotice_level (hb q hq)
  obtain ⟨p, hh, hf⟩ := h
  obtain ⟨n, hd, rfl⟩ : ∃ n hd, p = .active n hd := by
    cases p with
    | active n hd => exact ⟨n, hd, rfl⟩
    | idle | closing => exact absurd (hopen.symm.trans hf.1) nofun
  obtain ⟨_, hhd, hser, _⟩ := hf
  have hhd : m.ts.applicationHandler = some hd := hhd
  have hser : m.ghost.serial = n := hser
  obtain ⟨t, r, o, _, hc⟩ := cleanupGrant_eq m
  unfold closeSession
  rw [hc]
  dsimp only
  rw [if_pos (by rw [hhd]; rfl)]
  unfold callHandler
  dsimp only
  split
  · trivial
  · rename_i hd' hhd'
    have hsame : hd' = hd := Option.some.inj (hhd'.symm.trans hhd)
    rw [hsame]
    -- The handler is told CLOSED, and what it does meanwhile leaves the session closing.
    refine sat_wait.mpr ⟨⟨.closing n, ?_, rfl, hser, hser, ⟨_, List.mem_cons_self, rfl⟩, ?_⟩,
      fun _ m' _ h' _ => ?_⟩
    · have hnoted := hh.closed
      rw [← hser] at hnoted ⊢
      exact hnoted
    · intro hm
      rcases List.mem_cons.mp hm with he | hm
      · cases he
      · exact absurd (hb _ hm) (by show ¬ 2 < 1; omega)
    · obtain ⟨p', hh', hf'⟩ := h'
      cases p' with
      | idle => exact absurd (hf'.2.2.2 _ List.mem_cons_self) nofun
      | active => exact absurd (hf'.2.2.2 _ List.mem_cons_self) nofun
      | closing n' =>
        obtain ⟨ho', hs', hcl', _⟩ := hf'
        have hcl' : m'.ghost.closing = n' := hcl'
        subst hcl'
        obtain ⟨pf, hpf⟩ := releaseReference_eq
          { m' with ts := { m'.ts with applicationHandler := none, applicationContext := 0 } }
        show LifecycleOk ctx (lifecycle (Machine.noteSession (nrfkitMpslTimeslotRelease _) _))
        rw [hpf]
        exact ⟨.idle _, hh'.released, ho', rfl, hs', hno⟩

/-- A program that waits elsewhere and leaves the session alone. -/
theorem keepsLifecycle_program (e : Entry) (h : LifecycleOk ctx (lifecycle m))
    (hv : ∀ m, lifecycle (e.view m) = lifecycle m)
    (hp : e.part ≠ some .timeslotOpen ∧ e.part ≠ some .timeslotCallback) :
    KeepsLifecycle V ctx (fun _ m => LifecycleOk ctx (lifecycle m)) (program V e m) := by
  refine sat_program (I := LifecycleOk) e lifecycle hv (fun q ctx d hq => lifecycleOk_cons ?_ ?_) h
  · cases q with
    | handler => exact absurd hq.1 hp.2
    | _ => rfl
  · rintro rfl
    exact absurd hq.1 hp.1

end

/-! ## Every run -/

/-- The step lemma: every program follows the history. -/
theorem lifecycle_keeps :
    Keeps (quietClose V) SessionsKnown (fun ctx m => LifecycleOk ctx (lifecycle m)) := by
  intro ctx e m hk h he
  have hopen := (assuming_enters.mp he).1
  have habove := above_iff.mp (assuming_enters.mp hopen).1
  have hsession := (assuming_enters.mp hopen).2
  have hother := @keepsLifecycle_program V ctx m e h
  cases e with
  | timeslotOpen hd context => exact sat_map.mpr (timeslotOpen_lifecycle h)
  | timeslotSignal id signal =>
    have hid : m.mpsl.session = some id := eq_of_beq hsession
    refine sat_map.mpr (sat_bind.mpr (sat_mono (T := fun _ m => LifecycleOk ctx (lifecycle m))
      (fun _ _ h => h) ?_))
    by_cases hs : signal = .sessionClosed
    · rw [hs] at habove ⊢
      have hso : m.ts.sessionOpen = true := by
        have hsome := hk.1.2.settled (no_opening_below fun q hq => Nat.lt_succ_of_lt (habove q hq))
        rw [show timeslotClient.session m = some id from hid] at hsome
        exact hsome
      rw [timeslotCallback_closed V (by exact hk.1.2.stored id hid)]
      exact closeSession_lifecycle habove hso h
    · have hsig := signalled hk h hid
      exact timeslotCallback_lifecycle hs hsig
  | _ => exact hother (fun _ => rfl) ⟨nofun, nofun⟩

/-- **The session lifecycle.** In every state of every run in which MPSL opens no session
while CLOSED is handled: the handler of the open session is the one its `open` was
given, and MPSL has the session open; no handler is invoked for a session after its
CLOSED notification; and outside such a notification every session that was opened,
except an open one, has been told CLOSED once and MPSL released for it once. -/
theorem session_lifecycle {hw : Hardware} {radio : Radio} {timer0 : Timer0}
    {c : Config Machine Query Answer Ret}
    (h : Reachable (quietClose V) (Machine.reset hw radio timer0) c) (hl : c.live = true) :
    (c.state.ts.sessionOpen = true → c.state.mpsl.session ≠ none ∧
      ∃ hd, c.state.ts.applicationHandler = some hd ∧
        .opened c.state.ghost.serial hd ∈ c.state.ghost.sessions ∧
        ∀ hd', .opened c.state.ghost.serial hd' ∈ c.state.ghost.sessions → hd' = hd) ∧
    (∀ earlier later s hd, c.state.ghost.sessions = earlier ++ .invoked s hd .closed :: later →
      ∀ hd' signal, .invoked s hd' signal ∉ later) ∧
    ((∀ q ∈ c.queries, q.closedNotice = false) → ∀ s hd, .opened s hd ∈ c.state.ghost.sessions →
      if s = c.state.ghost.serial ∧ c.state.ts.sessionOpen = true then
        closedNotices c.state.ghost.sessions s = 0 ∧ releases c.state.ghost.sessions s = 0
      else closedNotices c.state.ghost.sessions s = 1 ∧ releases c.state.ghost.sessions s = 1) := by
  have hk0 := sessionsKnown_reset hw radio timer0
  have h0 : LifecycleOk [] (lifecycle (Machine.reset hw radio timer0)) :=
    ⟨.idle 0, .start, rfl, rfl, rfl, nofun⟩
  obtain ⟨hk, p, hh, hf⟩ :=
    run_inv ((keeps_assuming (openSessions_known V)).and (lifecycle_keeps V))
    (I := fun ctx m => SessionsKnown ctx m ∧ LifecycleOk ctx (lifecycle m)) ⟨hk0, h0⟩ h hl
  have hh : History c.state.ghost.sessions p := hh
  refine ⟨fun ho => ⟨?_, ?_⟩, fun _ _ _ _ he _ _ => hh.last_invocation he, fun hno s hd hm => ?_⟩
  -- MPSL may differ from the open flag only while the session is being opened, and then the flag is
  -- not set.
  · intro hnone
    by_cases hex : ∃ q ∈ c.queries, Opening timeslotClient q
    · obtain ⟨q, hq, rfl | ⟨r, rfl⟩⟩ := hex
      · exact absurd ((hk.1.2.undecided hq).1.symm.trans ho) nofun
      · exact absurd ((hk.1.2.decided r hq).1.symm.trans ho) nofun
    · have hset : c.state.ts.sessionOpen = c.state.mpsl.session.isSome :=
        hk.1.2.settled fun q hq hop => hex ⟨q, hq, hop⟩
      rw [ho, hnone] at hset
      cases hset
  · cases p with
    | idle | closing => exact absurd (ho.symm.trans hf.1) nofun
    | active n hd =>
      obtain ⟨_, hhd, hser, _⟩ := hf
      have hser : c.state.ghost.serial = n := hser
      rw [hser]
      exact ⟨hd, hhd, hh.active_opened, fun hd' hm => hh.opened_unique hm hh.active_opened⟩
  · have hser := hh.opened_serial hm
    rw [hh.closedNotices_eq, hh.releases_eq]
    cases p with
    | idle n =>
      have ho : c.state.ts.sessionOpen = false := hf.1
      rw [ho, if_neg (by simp)]
      exact ⟨if_pos hser, if_pos hser⟩
    | active n hd' =>
      have ho : c.state.ts.sessionOpen = true := hf.1
      have hn : c.state.ghost.serial = n := hf.2.2.1
      simp only [Phase.opened] at hser
      simp only [Phase.closed, Phase.released, ho, hn, and_true]
      split
      · exact ⟨if_neg (by omega), if_neg (by omega)⟩
      · exact ⟨if_pos (by omega), if_pos (by omega)⟩
    -- A closing session is one whose notification still runs.
    | closing n =>
      obtain ⟨q, hq, hc⟩ := hf.2.2.2.1
      exact absurd ((hno q hq).symm.trans hc) nofun

/-- Two sessions one after the other. -/
theorem session_lifecycle_twice : ∃ c,
    Reachable (quietClose .nrfxlib) (Machine.reset {} {} {}) c ∧
      c.state.ts.applicationHandler = some 9 ∧
      closedNotices c.state.ghost.sessions 1 = 1 ∧ releases c.state.ghost.sessions 1 = 1 := by
  obtain ⟨c, h, hf⟩ := reachable_of_run (quietClose .nrfxlib) (.reset {} {} {})
    (calls [enabled, (.timeslotOpen (some 7) 0, 2, ⟨.actionNone, 0, 0⟩),
      (.timeslotClose, 2, ⟨.actionNone, 0, 0⟩),
      (.timeslotSignal 1 .sessionClosed, 1, ⟨.actionNone, 0, 0⟩),
      (.timeslotOpen (some 9) 0, 2, ⟨.actionNone, 0, 0⟩)])
    (fun c => c.live && c.stack.isEmpty && c.state.ts.sessionOpen && c.state.ghost.serial == 2 &&
      c.state.ghost.sessions.contains (.opened 1 7) &&
        c.state.ghost.sessions.contains (.opened 2 9))
    (by decide +kernel)
  simp only [Bool.and_eq_true, beq_iff_eq, List.isEmpty_iff, List.contains_iff_mem] at hf
  obtain ⟨⟨⟨⟨⟨hl, hs⟩, ho⟩, hn⟩, h1⟩, h2⟩ := hf
  obtain ⟨hopen, _, hclosed⟩ := session_lifecycle .nrfxlib h hl
  obtain ⟨_, hd, hhd, _, hone⟩ := hopen ho
  have hquiet : ∀ q ∈ c.queries, q.closedNotice = false := by
    intro q hq
    rw [Config.queries, hs] at hq
    cases hq
  have hdone := hclosed hquiet 1 7 h1
  rw [hn, if_neg (by omega)] at hdone
  rw [hn] at hone
  exact ⟨c, h, by rw [hhd, hone 9 h2], hdone⟩

/-- A session opened by the handler of CLOSED stays open, and its handler is forgotten. -/
theorem reopened_session_loses_handler : ∃ c,
    Reachable (openSessions .nrfxlib) (Machine.reset {} {} {}) c ∧ c.live = true ∧ c.stack = [] ∧
      c.state.ts.sessionOpen = true ∧ .opened 2 9 ∈ c.state.ghost.sessions ∧
      c.state.ts.applicationHandler = none := by
  obtain ⟨c, h, hf⟩ := reachable_of_run (openSessions .nrfxlib) (.reset {} {} {})
    (calls [enabled, (.timeslotOpen (some 7) 0, 2, ⟨.actionNone, 0, 0⟩),
      (.timeslotClose, 2, ⟨.actionNone, 0, 0⟩), (.swi00, 0, ⟨.actionNone, 0, 0⟩),
      (.sdcProcess, 0, ⟨.actionNone, 0, 0⟩),
      (.timeslotSignal 1 .sessionClosed, 0, ⟨.actionNone, 0, 0⟩),
      -- the open returns, then the handler, then mpsl_low_priority_process
      (.timeslotOpen (some 9) 0, 5, ⟨.actionNone, 0, 0⟩)])
    (fun c => c.live && c.stack.isEmpty && c.state.ts.sessionOpen &&
      c.state.ghost.sessions.contains (.opened 2 9) && c.state.ts.applicationHandler == none)
    (by decide +kernel)
  simp only [Bool.and_eq_true, beq_iff_eq, List.isEmpty_iff, List.contains_iff_mem] at hf
  obtain ⟨⟨⟨⟨hl, hs⟩, ho⟩, h2⟩, hn⟩ := hf
  exact ⟨c, h, hl, hs, ho, h2, hn⟩

end NrfKit.Firmware
