import NrfKit.Firmware.Frames

/- The two MPSL sessions, of `timeslot.c` and of `rram.c`. MPSL signals a session's
   callback only while it has the session open (`openSessions`); then each C file's
   open flag says whether MPSL has its session open, and its identifier is MPSL's,
   except while `mpsl_timeslot_session_open` runs (`SessionOk`). -/
namespace NrfKit.Firmware
open Interleave

variable (V : Vendor)

/-- MPSL signals only sessions it has open. -/
def openSessions : System Machine Query Answer Entry Ret :=
  (firmware V).assuming
    (fun _ e m => match e with
      | .timeslotSignal id _ => m.mpsl.session == some id
      | .rramSignal id _ => m.mpsl.rramSession == some id
      | _ => true)
    (fun _ _ _ _ => true)

theorem openSessions_layered : Keeps (openSessions V) Any (fun ctx _ => Layered level ctx) :=
  keeps_assuming (firmware_layered V)

/-- A C file with a session: the call that opens it, the file's open flag and
identifier, and the session MPSL has open. -/
structure SessionClient where
  opening : VendorCall
  isOpen : Machine → Bool
  stored : Machine → Nat
  session : Machine → Option Nat
  waits : level (.vendor opening) = 2
  ignores : ∀ m pf, isOpen { m with pf := pf } = isOpen m ∧ stored { m with pf := pf } = stored m ∧
    session { m with pf := pf } = session m
  decides : ∀ m reply,
    stored ((m.vendorEffect opening reply).noteCall opening reply.result) = reply.value ∧
    session ((m.vendorEffect opening reply).noteCall opening reply.result) =
      (if reply.result = 0 then some reply.value else session m) ∧
    isOpen ((m.vendorEffect opening reply).noteCall opening reply.result) = isOpen m

def timeslotClient : SessionClient where
  opening := .timeslotSessionOpen
  isOpen m := m.ts.sessionOpen
  stored m := m.ts.sessionId
  session m := m.mpsl.session
  waits := rfl
  ignores _ _ := ⟨rfl, rfl, rfl⟩
  decides _ _ := ⟨rfl, rfl, rfl⟩

def rramClient : SessionClient where
  opening := .rramSessionOpen
  isOpen m := m.rram.opened
  stored m := m.rram.session
  session m := m.mpsl.rramSession
  waits := rfl
  ignores _ _ := ⟨rfl, rfl, rfl⟩
  decides _ _ := ⟨rfl, rfl, rfl⟩

/-- The query waits for the client's session to open. -/
def Opening (c : SessionClient) (q : Query) : Prop :=
  q = .vendor c.opening ∨ ∃ r, q = .within c.opening r

/-- MPSL and the client agree on the session; while it is being opened, the flag is still
clear. -/
structure SessionOk (c : SessionClient) (ctx : List Query) (m : Machine) : Prop where
  stored : ∀ id, c.session m = some id → c.stored m = id
  undecided : .vendor c.opening ∈ ctx → c.isOpen m = false ∧ c.session m = none
  decided : ∀ r, .within c.opening r ∈ ctx → c.isOpen m = false ∧
    (c.session m).isSome = decide (r = 0)
  settled : (∀ q ∈ ctx, ¬ Opening c q) → c.isOpen m = (c.session m).isSome

section
variable {c : SessionClient} {ctx : List Query} {m m' : Machine}

/-- What the invariant reads. -/
def sessionView (c : SessionClient) (m : Machine) : Bool × Nat × Option Nat :=
  (c.isOpen m, c.stored m, c.session m)

theorem sessionOk_congr (hv : sessionView c m' = sessionView c m) (h : SessionOk c ctx m) :
    SessionOk c ctx m' := by
  have hv1 : c.isOpen m' = c.isOpen m := congrArg Prod.fst hv
  have hv2 : c.stored m' = c.stored m := congrArg (fun v => v.2.1) hv
  have hv3 : c.session m' = c.session m := congrArg (fun v => v.2.2) hv
  obtain ⟨h1, h2, h3, h4⟩ := h
  refine ⟨?_, ?_, ?_, ?_⟩
  · rw [hv2, hv3]
    exact h1
  · rw [hv1, hv3]
    exact h2
  · rw [hv1, hv3]
    exact h3
  · rw [hv1, hv3]
    exact h4

/-- The reference counters are not among it. -/
theorem sessionView_pf (pf : Platform) : sessionView c { m with pf := pf } = sessionView c m := by
  obtain ⟨h1, h2, h3⟩ := c.ignores m pf
  unfold sessionView
  rw [h1, h2, h3]

theorem sessionView_release : sessionView c (nrfkitMpslTimeslotRelease m) = sessionView c m := by
  obtain ⟨pf, h⟩ := releaseReference_eq m
  rw [h, sessionView_pf]

theorem sessionView_retain : sessionView c (nrfkitMpslTimeslotRetain V m).2 = sessionView c m := by
  obtain ⟨pf, h⟩ := retain_eq V m
  rw [h, sessionView_pf]

/-- Queries that open no session do not matter. -/
theorem sessionOk_cons {q : Query} (hq : ¬ Opening c q) :
    SessionOk c (q :: ctx) m ↔ SessionOk c ctx m := by
  have hv : Query.vendor c.opening ∈ q :: ctx ↔ Query.vendor c.opening ∈ ctx := by
    rw [List.mem_cons]
    exact ⟨fun h => h.resolve_left fun he => hq (Or.inl he.symm), Or.inr⟩
  have hw : ∀ r, Query.within c.opening r ∈ q :: ctx ↔ Query.within c.opening r ∈ ctx := by
    intro r
    rw [List.mem_cons]
    exact ⟨fun h => h.resolve_left fun he => hq (Or.inr ⟨r, he.symm⟩), Or.inr⟩
  have ho : (∀ q' ∈ q :: ctx, ¬ Opening c q') ↔ ∀ q' ∈ ctx, ¬ Opening c q' := by
    rw [List.forall_mem_cons]
    exact ⟨fun h => h.2, fun h => ⟨hq, h⟩⟩
  constructor
  · rintro ⟨h1, h2, h3, h4⟩
    exact ⟨h1, fun h => h2 (hv.mpr h), fun r h => h3 r ((hw r).mpr h), fun h => h4 (ho.mpr h)⟩
  · rintro ⟨h1, h2, h3, h4⟩
    exact ⟨h1, fun h => h2 (hv.mp h), fun r h => h3 r ((hw r).mp h), fun h => h4 (ho.mp h)⟩

/-- Below a call of the same level no session is being opened. -/
theorem no_opening_below (hb : ∀ q ∈ ctx, level q < 2) : ∀ q ∈ ctx, ¬ Opening c q := by
  rintro q hq (rfl | ⟨r, rfl⟩)
  · have := hb _ hq
    rw [c.waits] at this
    omega
  · have := hb _ hq
    rw [level_within, c.waits] at this
    omega

variable {sys : System Machine Query Answer Entry Ret}

/-- A program that leaves the client's session alone. -/
theorem sessionOk_framed {α : Type} {W : Query → Prop} {view : Machine → Machine} {t : FTurn α}
    {J : List Query → Machine → Prop} (hv : ∀ m, sessionView c (view m) = sessionView c m)
    (hW : ∀ q, W q → ¬ Opening c q) (h : SessionOk c ctx m) (ht : t.Framed W view (view m)) :
    t.Sat sys J (SessionOk c) ctx (fun _ m => SessionOk c ctx m) :=
  sat_framed (I := SessionOk c) (fun _ s s' hs => sessionOk_congr
      (((hv s').symm.trans (congrArg (sessionView c) hs)).trans (hv s)))
    (fun _ _ _ hq => sessionOk_cons (hW _ hq)) h ht

/-- Opening the session: the reply decides whether MPSL has it, and the flag must follow. -/
theorem sessionOk_opening {α : Type} {k : VendorReply → Machine → FTurn α}
    {J : List Query → Machine → Prop} {post : α → Machine → Prop} (h : SessionOk c ctx m)
    (hb : ∀ q ∈ ctx, level q < 2) (hclosed : c.isOpen m = false)
    (hk : ∀ reply m, c.isOpen m = false → (c.session m).isSome = decide (reply.result = 0) →
      (∀ id, c.session m = some id → c.stored m = id) →
      (k reply m).Sat sys J (SessionOk c) ctx post) :
    (vendorCall c.opening m k).Sat sys J (SessionOk c) ctx post := by
  have hno := no_opening_below (c := c) hb
  have hnone : c.session m = none := by
    have := h.settled hno
    rw [hclosed] at this
    exact Option.isNone_iff_eq_none.mp (by simpa using this.symm)
  have hvendor : ∀ r, Query.vendor c.opening ∉ Query.within c.opening r :: ctx := by
    intro r hm
    rcases List.mem_cons.mp hm with he | hm
    · cases he
    · exact hno _ hm (Or.inl rfl)
  have hself : ∀ {q} {p : Prop}, Opening c q → (∀ q' ∈ q :: ctx, ¬ Opening c q') → p :=
    fun ho hall => absurd ho (hall _ List.mem_cons_self)
  -- In the call MPSL has not decided yet; behind it the flag waits for the caller.
  refine sat_wait.mpr ⟨⟨h.stored, fun _ => ⟨hclosed, hnone⟩, fun r hr => ?_, hself (Or.inl rfl)⟩,
    fun reply m1 _ h1 _ => sat_wait.mpr ⟨?_, fun _ m2 _ h2 _ => ?_⟩⟩
  · rcases List.mem_cons.mp hr with he | hr
    · cases he
    · exact absurd (Or.inr ⟨r, rfl⟩) (hno _ hr)
  · obtain ⟨ho1, hs1⟩ := h1.undecided List.mem_cons_self
    obtain ⟨hst, hse, hio⟩ := c.decides m1 reply
    rw [hs1] at hse
    refine ⟨fun id hid => ?_, fun hv => absurd hv (hvendor _), fun r hr => ?_,
      hself (Or.inr ⟨_, rfl⟩)⟩
    · rw [hst]
      rw [hse] at hid
      split at hid
      · exact Option.some.inj hid
      · cases hid
    · rcases List.mem_cons.mp hr with he | hr
      · cases he
        rw [hio, hse]
        refine ⟨ho1, ?_⟩
        split
        · rename_i hz
          simp [hz]
        · rename_i hz
          simp [hz]
      · exact absurd (Or.inr ⟨r, rfl⟩) (hno _ hr)
  · obtain ⟨ho2, hs2⟩ := h2.decided _ List.mem_cons_self
    exact hk reply m2 ho2 hs2 h2.stored

/-- The flag settles on what MPSL decided. -/
theorem sessionOk_opened (hb : ∀ q ∈ ctx, level q < 2)
    (hst : ∀ id, c.session m = some id → c.stored m = id)
    (ho : c.isOpen m = (c.session m).isSome) : SessionOk c ctx m := by
  have hno := no_opening_below (c := c) hb
  exact ⟨hst, fun hv => absurd (Or.inl rfl) (hno _ hv), fun r hr =>
    absurd (Or.inr ⟨r, rfl⟩) (hno _ hr), fun _ => ho⟩

theorem sessionOk_closed (hb : ∀ q ∈ ctx, level q < 2) (ho : c.isOpen m = false)
    (hs : c.session m = none) : SessionOk c ctx m := by
  refine sessionOk_opened hb (fun id hid => absurd (hs.symm.trans hid) nofun) ?_
  rw [ho, hs]
  rfl

end

/-! ## The programs -/

theorem mpslAfterReturn_session (p : SignalReturn) (next : Request) (s : Mpsl) :
    (mpslAfterReturn p next s).session = s.session := by
  unfold mpslAfterReturn
  repeat' split
  all_goals rfl

theorem not_opening_of_part {c : SessionClient} {q : Query}
    (hne : c.opening.part ≠ q.part) : ¬ Opening c q := by
  rintro (rfl | ⟨r, rfl⟩)
  · exact hne rfl
  · exact hne rfl

section
variable {ctx : List Query} {m : Machine} {J : List Query → Machine → Prop}
  {sys : System Machine Query Answer Entry Ret}

/-- A program with the invariant as its postcondition. -/
abbrev KeepsSession {α : Type} (sys : System Machine Query Answer Entry Ret)
    (J : List Query → Machine → Prop) (c : SessionClient) (ctx : List Query) (t : FTurn α) : Prop :=
  t.Sat sys J (SessionOk c) ctx (fun _ m => SessionOk c ctx m)

theorem timeslotOpen_session {handler : Option Handler} {context : Nat}
    (hb : ∀ q ∈ ctx, level q < 2) (h : SessionOk timeslotClient ctx m) :
    KeepsSession sys J timeslotClient ctx (nrfkitTimeslotOpen V handler context m) := by
  have hretain := sessionView_retain V (c := timeslotClient) (m := m)
  unfold nrfkitTimeslotOpen
  cases handler with
  | none => exact h
  | some hd =>
    dsimp only
    split
    · exact h
    · rename_i hopen
      have hclosed : m.ts.sessionOpen = false := by
        cases hso : m.ts.sessionOpen with
        | false => rfl
        | true => exact absurd (by rw [hso]; rfl) hopen
      split
      · exact sessionOk_congr hretain h
      · refine sessionOk_opening (c := timeslotClient) (sessionOk_congr hretain h) hb
          ((congrArg Prod.fst hretain).trans hclosed) (fun reply m hc hs hst => ?_)
        split
        · rename_i hr
          refine sessionOk_congr sessionView_release (sessionOk_opened hb hst ?_)
          rw [hc, hs, decide_eq_false hr]
        · rename_i hr
          refine sessionOk_opened hb hst ?_
          show true = (timeslotClient.session m).isSome
          rw [hs]
          simpa using hr

/-- Once MPSL has closed the session, the callback clears the flag before it notifies the
application. -/
theorem closeSession_session (hb : ∀ q ∈ ctx, level q < 2) (hnone : m.mpsl.session = none) :
    KeepsSession sys J timeslotClient ctx (closeSession m) := by
  have hmpsl : (cleanupGrant m).mpsl.session = none := by
    obtain ⟨t, r, o, _, hc⟩ := cleanupGrant_eq m
    rw [hc]
    exact hnone
  unfold closeSession
  refine sat_bind.mpr (sat_mono (T := fun _ m => SessionOk timeslotClient ctx m)
    (fun _ m' hm' => ?_) ?_)
  · refine sessionOk_congr (m := m') ?_ hm'
    exact (sessionView_release (c := timeslotClient)).trans rfl
  · split
    · unfold callHandler
      split
      · trivial
      · rename_i hd _
        have hno : ¬ Opening timeslotClient (.handler hd .sessionClosed false) := by
          rintro (h | ⟨_, h⟩) <;> cases h
        exact sat_wait.mpr ⟨(sessionOk_cons hno).mpr (sessionOk_closed hb rfl hmpsl),
          fun _ m' _ hm' _ => (sessionOk_cons hno).mp hm'⟩
    · exact sessionOk_closed hb rfl hmpsl

theorem closeRramSession_session (hb : ∀ q ∈ ctx, level q < 2) (hnone : m.mpsl.rramSession = none) :
    KeepsSession sys J rramClient ctx (closeRramSession m) := by
  refine sessionOk_congr (sessionView_release (c := rramClient)) ?_
  exact sessionOk_closed hb rfl hnone

theorem rramSubmit_session {region : Option RramRegion} {address : UInt32} {data : Bool}
    {size : UInt32} (hb : ∀ q ∈ ctx, level q < 2) (h : SessionOk rramClient ctx m) :
    KeepsSession sys J rramClient ctx (nrfkitRramSubmit V region address data size m) := by
  have hretain := sessionView_retain V (c := rramClient) (m := m)
  unfold nrfkitRramSubmit
  split
  · exact h
  · split
    · exact h
    · rename_i hbusy
      have hclosed : m.rram.opened = false := by
        cases ho : m.rram.opened with
        | false => rfl
        | true => exact absurd (Or.inr ho) hbusy
      split
      · exact h
      · dsimp only
        split
        · exact sessionOk_congr hretain h
        · refine sessionOk_opening (c := rramClient) (sessionOk_congr hretain h) hb
            ((congrArg Prod.fst hretain).trans hclosed) (fun reply m hc hs hst => ?_)
          split
          · rename_i hr
            refine sessionOk_congr sessionView_release (sessionOk_opened hb hst ?_)
            rw [hc, hs, decide_eq_false hr]
          · rename_i hr
            refine sessionOk_opened hb hst ?_
            show true = (rramClient.session m).isSome
            rw [hs]
            simpa using hr

end

/-! ## Every run -/

section
variable {c : SessionClient} {ctx : List Query} {m : Machine} {J : List Query → Machine → Prop}
  {sys : System Machine Query Answer Entry Ret}

/-- A program that waits elsewhere and leaves the client's session alone. -/
theorem keepsSession_program (e : Entry) (h : SessionOk c ctx m)
    (hne : e.part ≠ some c.opening.part) (hv : ∀ m, sessionView c (e.view m) = sessionView c m) :
    KeepsSession sys J c ctx (program V e m) := by
  exact sessionOk_framed hv (fun q hq => not_opening_of_part (hq.part_ne hne).symm) h
    (framed_program V e m)

end

/-- **The RADIO session's flag and identifier are MPSL's**, over any layered stack. -/
theorem timeslotSession_keeps :
    Keeps (openSessions V) (fun ctx _ => Layered level ctx) (SessionOk timeslotClient) := by
  intro ctx e m _ h he
  have habove := above_iff.mp (assuming_enters.mp he).1
  have hsession := (assuming_enters.mp he).2
  have hother := @keepsSession_program V timeslotClient ctx m (fun ctx _ => Layered level ctx)
    (openSessions V) e h
  cases e with
  | timeslotOpen hd context => exact sat_map.mpr (timeslotOpen_session V habove h)
  | timeslotSignal id signal =>
    by_cases hs : signal = .sessionClosed
    · have hid : m.mpsl.session = some id := eq_of_beq hsession
      rw [hs] at habove ⊢
      refine sat_map.mpr (sat_bind.mpr (sat_mono (T := fun _ m => SessionOk timeslotClient ctx m)
        (fun p m' hm' => sessionOk_congr ?_ hm') ?_))
      · show (_, _, (mpslAfterReturn p m'.ts.nextRequest m'.mpsl).session) = _
        rw [mpslAfterReturn_session]
        rfl
      · have hnone : (mpslBeforeSignal id .sessionClosed m.mpsl).session = none := by
          rw [mpslBeforeSignal_open hid]
          rfl
        rw [timeslotCallback_closed V
          (m := { m with mpsl := mpslBeforeSignal id .sessionClosed m.mpsl }) (h.stored id hid)]
        exact closeSession_session (fun q hq => Nat.lt_succ_of_lt (habove q hq)) hnone
    · have hv : ∀ m, sessionView timeslotClient (outsideCallback m) =
          sessionView timeslotClient m := fun _ => rfl
      refine sat_map.mpr (sessionOk_framed hv (fun q hq => not_opening_of_part ?_) h
        (framed_deliverSignal V id hs m))
      rw [hq.part.1]
      exact nofun
  | _ => exact hother nofun (fun _ => rfl)

/-- **The storage session's flag and identifier are MPSL's**, over any layered stack. -/
theorem rramSession_keeps :
    Keeps (openSessions V) (fun ctx _ => Layered level ctx) (SessionOk rramClient) := by
  intro ctx e m _ h he
  have habove := above_iff.mp (assuming_enters.mp he).1
  have hsession := (assuming_enters.mp he).2
  have hother :=
    @keepsSession_program V rramClient ctx m (fun ctx _ => Layered level ctx) (openSessions V) e h
  cases e with
  | rramSubmit r a d size => exact sat_map.mpr (rramSubmit_session V habove h)
  | rramSignal id signal =>
    by_cases hs : signal = .sessionClosed
    · have hid : m.mpsl.rramSession = some id := eq_of_beq hsession
      rw [hs] at habove ⊢
      have hnone : (mpslBeforeRramSignal id .sessionClosed m.mpsl).rramSession = none := by
        unfold mpslBeforeRramSignal
        rw [if_neg (not_not_intro hid)]
      refine sat_map.mpr ?_
      show KeepsSession _ _ _ _ (rramCallback V id _ (raiseRramSignal id .sessionClosed m))
      rw [rramCallback_closed V (m := raiseRramSignal id .sessionClosed m) (h.stored id hid)]
      exact closeRramSession_session (fun q hq => Nat.lt_succ_of_lt (habove q hq)) hnone
    · have hv : ∀ m, sessionView rramClient (outsideRramCallback m) = sessionView rramClient m :=
        fun _ => rfl
      refine sat_map.mpr (sessionOk_framed hv (fun q hq => not_opening_of_part ?_) h
        (framed_deliverRramSignal V id hs m))
      rw [hq.1]
      exact nofun
  | _ => exact hother nofun (fun _ => rfl)

end NrfKit.Firmware
