import NrfKit.Firmware.Sessions

/- The deadline of a grant. The backend publishes a request's length before MPSL has
   accepted it, rolls it back if MPSL refuses, replaces it by a chained request and adds
   extensions to it, while START may interrupt the caller; the deadline is armed from
   that length. Under MPSL's contract (`grantContract`) at most one request or grant is
   outstanding, and the compare value armed during a grant is the grant's length with
   its extensions, less the cleanup margin of the last accepted request
   (`armed_deadline`).

   The invariant is stated over `Outstanding`, the part of the machine it reads; each
   thing the backend does to that part is one lemma. -/
namespace NrfKit.Firmware
open Interleave

variable (V : Vendor)

/-! ## MPSL's contract -/

/-- When MPSL sends a signal: START for an accepted request, IDLE, BLOCKED and CANCELLED
when nothing is outstanding, EXTEND_SUCCEEDED for the extension last asked for and a
total length of 32 bits, TIMER0 and RADIO during a grant. -/
def mpslSends (signal : MpslSignal) (s : Mpsl) : Bool :=
  match signal with
  | .start => !s.requests.isEmpty
  | .sessionIdle | .blocked | .cancelled => s.requests.isEmpty && s.grants.isEmpty
  | .extendSucceeded => match s.grants with
    | ⟨requested, extensions, some x⟩ :: _ =>
      (Grant.mk requested (x :: extensions) none).total < 2 ^ 32
    | _ => false
  | .timer0 | .radio => !s.grants.isEmpty
  | .extendFailed | .invalidReturn | .overstayed | .sessionClosed => true
  | .other _ => false

def grantContract : System Machine Query Answer Entry Ret :=
  (openSessions V).assuming
    (fun _ e m => match e with
      | .timeslotSignal _ signal => mpslSends signal m.mpsl
      | _ => true)
    (fun _ _ _ _ => true)

/-! ## The outstanding request or grant -/

/-- What the deadline depends on. -/
structure Outstanding where
  isOpen : Bool
  idle : Bool
  active : Bool
  lengthUs : UInt32
  marginUs : UInt32
  pendingUs : UInt32
  armedUs : UInt32
  acceptedUs : UInt32
  session : Option Nat
  requests : List UInt32
  grants : List Grant

def outstanding (m : Machine) : Outstanding where
  isOpen := m.ts.sessionOpen
  idle := m.ts.sessionIdle
  active := m.ts.grantActive
  lengthUs := m.ts.grantLengthUs
  marginUs := m.ts.cleanupMarginUs
  pendingUs := m.ts.pendingExtensionUs
  armedUs := m.timer0.cc
  acceptedUs := m.ghost.acceptedMarginUs
  session := m.mpsl.session
  requests := m.mpsl.requests
  grants := m.mpsl.grants

/-- Nothing is outstanding. -/
def Outstanding.Quiet (d : Outstanding) : Prop := d.requests = [] ∧ d.grants = []

/-- The signals MPSL sends during a grant whose handler may extend it or chain a request. -/
def grantSignal : MpslSignal → Bool
  | .start | .timer0 | .radio | .extendSucceeded => true
  | _ => false

theorem grantSignal_level {cause : MpslSignal} (h : grantSignal cause = true) (hd : Handler)
    (deadline : Bool) : level (.handler hd cause deadline) = 3 := by
  cases cause with
  | start | timer0 | radio | extendSucceeded => rfl
  | _ => cases h

/-- What a waiting program relies on. -/
def FrameOk (d : Outstanding) : Query → Prop
  | .vendor (.timeslotRequest l c) =>
    d.Quiet ∧ d.isOpen = true ∧ d.idle = false ∧ d.lengthUs = l ∧ d.marginUs = c ∧ c < l
  | .within (.timeslotRequest _ _) r => r ≠ 0 → d.Quiet ∧ d.idle = false
  | .vendor .timeslotSessionOpen | .within .timeslotSessionOpen _ => d.Quiet
  | .handler _ cause _ => grantSignal cause = true → d.requests = [] ∧ ∃ g, d.grants = [g]
  | _ => True

structure DeadlineOk (ctx : List Query) (d : Outstanding) : Prop where
  single : d.requests.length + d.grants.length ≤ 1
  idle : d.idle = true → d.Quiet
  closed : d.session = none → d.Quiet
  requested : ∀ r, d.requests = [r] →
    d.lengthUs = r ∧ d.marginUs = d.acceptedUs ∧ d.acceptedUs < r
  granted : ∀ g, d.grants = [g] → d.lengthUs.toNat = g.total ∧ d.marginUs = d.acceptedUs ∧
    d.acceptedUs.toNat < g.total ∧ ∀ x, g.offer = some x → d.pendingUs = x
  active : d.active = true → ∃ g, d.grants = [g] ∧ d.armedUs = d.lengthUs - d.marginUs
  frames : ∀ q ∈ ctx, FrameOk d q

section
variable {ctx : List Query} {d : Outstanding}

theorem deadlineOk_cons {q : Query} : DeadlineOk (q :: ctx) d ↔ FrameOk d q ∧ DeadlineOk ctx d := by
  constructor
  · rintro ⟨h1, h2, h3, h4, h5, h6, h7⟩
    rw [List.forall_mem_cons] at h7
    exact ⟨h7.1, h1, h2, h3, h4, h5, h6, h7.2⟩
  · rintro ⟨hq, h1, h2, h3, h4, h5, h6, h7⟩
    exact ⟨h1, h2, h3, h4, h5, h6, List.forall_mem_cons.mpr ⟨hq, h7⟩⟩

theorem DeadlineOk.inactive_of_quiet (h : DeadlineOk ctx d) (hq : d.Quiet) : d.active = false := by
  cases ha : d.active with
  | false => rfl
  | true =>
    obtain ⟨g, hg, _⟩ := h.active ha
    rw [hq.2] at hg
    cases hg

theorem DeadlineOk.cases_requests (h : DeadlineOk ctx d) {r : UInt32} {rest : List UInt32}
    (hr : d.requests = r :: rest) : rest = [] ∧ d.grants = [] := by
  have hs := h.single
  rw [hr, List.length_cons] at hs
  exact ⟨List.eq_nil_of_length_eq_zero (by omega), List.eq_nil_of_length_eq_zero (by omega)⟩

theorem DeadlineOk.cases_grants (h : DeadlineOk ctx d) {g : Grant} {rest : List Grant}
    (hg : d.grants = g :: rest) : rest = [] ∧ d.requests = [] := by
  have hs := h.single
  rw [hg, List.length_cons] at hs
  exact ⟨List.eq_nil_of_length_eq_zero (by omega), List.eq_nil_of_length_eq_zero (by omega)⟩

/-- While something is outstanding, what waits below an interrupt relies on nothing. -/
theorem frames_of_busy (h : DeadlineOk ctx d) (hb : ∀ q ∈ ctx, level q < 3) (hbusy : ¬ d.Quiet)
    (d' : Outstanding) : ∀ q ∈ ctx, FrameOk d' q := by
  intro q hq
  have hf := h.frames q hq
  have hl := hb q hq
  cases q with
  | handler hd cause deadline =>
    intro hc
    rw [grantSignal_level hc] at hl
    omega
  | vendor call =>
    cases call with
    | timeslotRequest l c => exact absurd hf.1 hbusy
    | timeslotSessionOpen => exact absurd hf hbusy
    | _ => trivial
  | within call r =>
    cases call with
    | timeslotRequest l c => exact fun hr => absurd (hf hr).1 hbusy
    | timeslotSessionOpen => exact absurd hf hbusy
    | _ => trivial
  | _ => trivial

/-- What waits relies on the length only before MPSL has decided the request. -/
theorem frames_of_same {d' : Outstanding} (h : DeadlineOk ctx d) (hb : ∀ q ∈ ctx, level q < 3)
    (hq : d.Quiet → d'.Quiet) (ho : d'.isOpen = d.isOpen) (hi : d'.idle = d.idle)
    (hl : d'.lengthUs = d.lengthUs) (hm : d'.marginUs = d.marginUs) :
    ∀ q ∈ ctx, FrameOk d' q := by
  by_cases hquiet : d.Quiet
  · intro q hqm
    have hf := h.frames q hqm
    have hlevel := hb q hqm
    cases q with
    | handler hd cause deadline =>
      intro hc
      rw [grantSignal_level hc] at hlevel
      omega
    | vendor call =>
      cases call with
      | timeslotRequest l c =>
        obtain ⟨_, h2, h3, h4, h5, h6⟩ := hf
        exact ⟨hq hquiet, ho.trans h2, hi.trans h3, hl.trans h4, hm.trans h5, h6⟩
      | timeslotSessionOpen => exact hq hquiet
      | _ => trivial
    | within call r =>
      cases call with
      | timeslotRequest l c => exact fun hr => ⟨hq hquiet, hi.trans (hf hr).2⟩
      | timeslotSessionOpen => exact hq hquiet
      | _ => trivial
    | _ => trivial
  · exact frames_of_busy h hb hquiet d'

/-! ## What the backend does to it -/

/-- A grant ends, or END is returned with none. -/
def Outstanding.finish (d : Outstanding) : Outstanding :=
  { d with active := false, grants := d.grants.tail }

theorem DeadlineOk.finish (h : DeadlineOk ctx d) (hb : ∀ q ∈ ctx, level q < 3) :
    DeadlineOk ctx d.finish := by
  have hnil : d.finish.grants = [] := by
    show d.grants.tail = []
    cases hg : d.grants with
    | nil => rfl
    | cons g rest => exact (h.cases_grants hg).1
  have hquiet : d.Quiet → d.finish.Quiet := fun hq => ⟨hq.1, hnil⟩
  refine ⟨?_, fun hi => hquiet (h.idle hi), fun hs => hquiet (h.closed hs), h.requested, ?_, nofun,
    frames_of_same h hb hquiet rfl rfl rfl rfl⟩
  · have hs := h.single
    rw [hnil]
    show d.requests.length + 0 ≤ 1
    omega
  · intro g hg
    rw [hnil] at hg
    cases hg

/-- MPSL forgets its grants: an overstayed or invalid return. -/
theorem DeadlineOk.overstayed (h : DeadlineOk ctx d) (hb : ∀ q ∈ ctx, level q < 3) :
    DeadlineOk ctx { d with active := false, grants := [] } := by
  have hquiet : d.Quiet → Outstanding.Quiet { d with active := false, grants := [] } :=
    fun hq => ⟨hq.1, rfl⟩
  refine ⟨?_, fun hi => hquiet (h.idle hi), fun hs => hquiet (h.closed hs), h.requested, nofun,
    nofun, frames_of_same h hb hquiet rfl rfl rfl rfl⟩
  have hs := h.single
  show d.requests.length + 0 ≤ 1
  omega

/-- The callback asks for an extension of the running grant. -/
theorem DeadlineOk.extend (h : DeadlineOk ctx d) (hb : ∀ q ∈ ctx, level q < 3) {g : Grant}
    (hg : d.grants = [g]) (hr : d.requests = []) (x : UInt32) :
    DeadlineOk ctx { d with pendingUs := x, grants := [{ g with offer := some x }] } := by
  have hbusy : ¬ d.Quiet := fun hq => by
    rw [hq.2] at hg
    cases hg
  obtain ⟨h1, h2, h3, _⟩ := h.granted g hg
  refine ⟨?_, fun hi => absurd (h.idle hi) hbusy, fun hs => absurd (h.closed hs) hbusy,
    h.requested, ?_, ?_, frames_of_busy h hb hbusy _⟩
  · rw [hr]
    exact Nat.le_refl 1
  · intro g' hg'
    cases hg'
    exact ⟨h1, h2, h3, fun y hy => Option.some.inj hy⟩
  · intro ha
    obtain ⟨g', _, harm⟩ := h.active ha
    exact ⟨_, rfl, harm⟩

/-- The callback ends the grant and chains a request of length `l`. -/
theorem DeadlineOk.chain (h : DeadlineOk ctx d) (hb : ∀ q ∈ ctx, level q < 3) {g : Grant}
    (hg : d.grants = [g]) (hr : d.requests = []) {l : UInt32} (hl : d.marginUs < l) :
    DeadlineOk ctx { d with
      active := false, lengthUs := l, grants := d.grants.tail, requests := d.requests ++ [l] } := by
  have hbusy : ¬ d.Quiet := fun hq => by
    rw [hq.2] at hg
    cases hg
  obtain ⟨_, h2, _, _⟩ := h.granted g hg
  refine ⟨?_, fun hi => absurd (h.idle hi) hbusy, fun hs => absurd (h.closed hs) hbusy, ?_, ?_,
    nofun, frames_of_busy h hb hbusy _⟩
  · rw [hg, hr]
    exact Nat.le_refl 1
  · intro r hr'
    rw [hr] at hr'
    cases hr'
    exact ⟨rfl, h2, h2 ▸ hl⟩
  · intro g' hg'
    rw [hg] at hg'
    cases hg'

/-- START takes the accepted request and the deadline is armed. -/
theorem DeadlineOk.start (h : DeadlineOk ctx d) (hb : ∀ q ∈ ctx, level q < 3) {r : UInt32}
    {rest : List UInt32} (hr : d.requests = r :: rest) (active : Bool) (armedUs : UInt32)
    (harm : active = true → armedUs = d.lengthUs - d.marginUs) :
    DeadlineOk ctx { d with
      active := active, armedUs := armedUs, requests := rest, grants :=
  { requested := r } :: d.grants } := by
  obtain ⟨rfl, hg⟩ := h.cases_requests hr
  have hbusy : ¬ d.Quiet := fun hq => by
    rw [hq.1] at hr
    cases hr
  obtain ⟨h1, h2, h3⟩ := h.requested r hr
  refine ⟨?_, fun hi => absurd (h.idle hi) hbusy, fun hs => absurd (h.closed hs) hbusy, nofun, ?_,
    ?_, frames_of_busy h hb hbusy _⟩
  · rw [hg]
    exact Nat.le_refl 1
  · intro g hgr
    rw [hg] at hgr
    cases hgr
    refine ⟨?_, h2, ?_, nofun⟩
    · show d.lengthUs.toNat = r.toNat + 0
      rw [h1]
      rfl
    · show d.acceptedUs.toNat < r.toNat + 0
      exact UInt32.lt_iff_toNat_lt.mp h3
  · intro ha
    rw [hg]
    exact ⟨_, rfl, harm ha⟩

/-- A granted extension is added to the grant and to the length, and the deadline is armed
again. -/
theorem DeadlineOk.extended (h : DeadlineOk ctx d) (hb : ∀ q ∈ ctx, level q < 3)
    {requested : UInt32} {extensions : List UInt32} {x : UInt32} {rest : List Grant}
    (hg : d.grants = ⟨requested, extensions, some x⟩ :: rest)
    (hfit : (Grant.mk requested (x :: extensions) none).total < 2 ^ 32) :
    DeadlineOk ctx { d with
      lengthUs := d.lengthUs + d.pendingUs
      pendingUs := 0
      armedUs := d.lengthUs + d.pendingUs - d.marginUs
      grants := ⟨requested, x :: extensions, none⟩ :: rest } := by
  obtain ⟨rfl, hr⟩ := h.cases_grants hg
  have hbusy : ¬ d.Quiet := fun hq => by
    rw [hq.2] at hg
    cases hg
  obtain ⟨h1, h2, h3, h4⟩ := h.granted _ hg
  have hx : d.pendingUs = x := h4 x rfl
  have htotal : (Grant.mk requested (x :: extensions) none).total =
      (Grant.mk requested extensions (some x)).total + x.toNat := by
    show requested.toNat + (x.toNat + (extensions.map UInt32.toNat).sum) =
      requested.toNat + (extensions.map UInt32.toNat).sum + x.toNat
    omega
  refine ⟨?_, fun hi => absurd (h.idle hi) hbusy, fun hs => absurd (h.closed hs) hbusy, ?_, ?_, ?_,
    frames_of_busy h hb hbusy _⟩
  · rw [hr]
    exact Nat.le_refl 1
  · intro r hr'
    rw [hr] at hr'
    cases hr'
  · intro g hgr
    cases hgr
    refine ⟨?_, h2, ?_, nofun⟩
    · rw [hx, UInt32.toNat_add, h1, htotal]
      omega
    · show d.acceptedUs.toNat < _
      rw [htotal]
      omega
  · exact fun _ => ⟨_, rfl, rfl⟩

/-- MPSL accepts the request whose parameters have been published. -/
theorem DeadlineOk.accept (h : DeadlineOk ctx d) (hf : ∀ d', ∀ q ∈ ctx, FrameOk d' q)
    (hq : d.Quiet) (hi : d.idle = false) (hs : d.session ≠ none) {l c : UInt32}
    (hl : d.lengthUs = l) (hm : d.marginUs = c) (hlt : c < l) :
    DeadlineOk ctx { d with requests := d.requests ++ [l], acceptedUs := c } := by
  have hr : d.requests ++ [l] = [l] := by
    rw [hq.1]
    rfl
  rw [hr]
  refine ⟨?_, fun hi' => absurd (hi.symm.trans hi') nofun, fun hs' => absurd hs' hs, ?_, ?_,
    h.active, hf _⟩
  · show 1 + d.grants.length ≤ 1
    rw [hq.2]
    exact Nat.le_refl 1
  · intro r hr'
    cases hr'
    exact ⟨hl, hm, hlt⟩
  · intro g hg
    rw [show d.grants = [] from hq.2] at hg
    cases hg

/-- MPSL gives an accepted request up; BLOCKED or CANCELLED follows. -/
theorem DeadlineOk.dropped (h : DeadlineOk ctx d) :
    DeadlineOk ctx { d with requests := d.requests.tail } := by
  have hnil : d.requests.tail = [] := by
    cases hr : d.requests with
    | nil => rfl
    | cons r rest => exact (h.cases_requests hr).1
  rw [hnil]
  have hquiet : d.Quiet → Outstanding.Quiet { d with requests := [] } := fun hq => ⟨rfl, hq.2⟩
  refine ⟨?_, fun hi => hquiet (h.idle hi), fun hs => hquiet (h.closed hs), nofun, h.granted,
    h.active, fun q hq => ?_⟩
  · have hs := h.single
    show 0 + d.grants.length ≤ 1
    omega
  · have hf := h.frames q hq
    cases q with
    | handler hd cause deadline => exact fun hc => ⟨rfl, (hf hc).2⟩
    | vendor call =>
      cases call with
      | timeslotRequest l c =>
        obtain ⟨h1, h2⟩ := hf
        exact ⟨hquiet h1, h2⟩
      | timeslotSessionOpen => exact hquiet hf
      | _ => trivial
    | within call r =>
      cases call with
      | timeslotRequest l c => exact fun hr => ⟨hquiet (hf hr).1, (hf hr).2⟩
      | timeslotSessionOpen => exact hquiet hf
      | _ => trivial
    | _ => trivial

/-- A refused extension is forgotten. -/
theorem DeadlineOk.extendFailed (h : DeadlineOk ctx d) (hb : ∀ q ∈ ctx, level q < 3) :
    DeadlineOk ctx { d with
      active := false
      grants := match d.grants with
        | g :: rest => { g with offer := none } :: rest
        | [] => [] } := by
  cases hg : d.grants with
  | nil =>
    refine ⟨?_, fun hi => ⟨(h.idle hi).1, rfl⟩, fun hs => ⟨(h.closed hs).1, rfl⟩, h.requested,
      nofun, nofun, frames_of_same h hb (fun hq => ⟨hq.1, rfl⟩) rfl rfl rfl rfl⟩
    have hs := h.single
    rw [hg] at hs
    exact hs
  | cons g rest =>
    obtain ⟨rfl, hr⟩ := h.cases_grants hg
    have hbusy : ¬ d.Quiet := fun hq => by
      rw [hq.2] at hg
      cases hg
    obtain ⟨h1, h2, h3, _⟩ := h.granted g hg
    refine ⟨?_, fun hi => absurd (h.idle hi) hbusy, fun hs => absurd (h.closed hs) hbusy,
      h.requested, ?_, nofun, frames_of_busy h hb hbusy _⟩
    · rw [hr]
      exact Nat.le_refl 1
    · intro g' hg'
      cases hg'
      exact ⟨h1, h2, h3, nofun⟩

/-- Callbacks in main context and MPSL's own process rely on nothing. -/
theorem frames_of_low (hb : ∀ q ∈ ctx, level q < 2) (d' : Outstanding) : ∀ q ∈ ctx,
      FrameOk d' q := by
  intro q hq
  have hl := hb q hq
  cases q with
  | handler hd cause deadline =>
    intro hc
    rw [grantSignal_level hc] at hl
    omega
  | vendor call =>
    cases call with
    | timeslotRequest | timeslotSessionOpen => exact absurd hl (by show ¬ 2 < 2; omega)
    | _ => trivial
  | within call r =>
    cases call with
    | timeslotRequest | timeslotSessionOpen => exact absurd hl (by show ¬ 2 < 2; omega)
    | _ => trivial
  | _ => trivial

/-- With nothing outstanding the length and the flags are free. -/
theorem deadlineOk_quiet {d' : Outstanding} (hq : d'.Quiet) (ha : d'.active = false)
    (hf : ∀ q ∈ ctx, FrameOk d' q) : DeadlineOk ctx d' := by
  refine ⟨?_, fun _ => hq, fun _ => hq, ?_, ?_, ?_, hf⟩
  · rw [hq.1, hq.2]
    exact Nat.zero_le 1
  · intro r hr
    rw [hq.1] at hr
    cases hr
  · intro g hg
    rw [hq.2] at hg
    cases hg
  · intro h
    rw [ha] at h
    cases h

end

/-! ## The callback -/

/-- What is known when the deadline is proved. -/
def Known (ctx : List Query) (m : Machine) : Prop :=
  Layered level ctx ∧ SessionOk timeslotClient ctx m

/-- What the callback must leave: the invariant once MPSL has acted on the answer. -/
def Returned (ctx : List Query) (p : SignalReturn) (m : Machine) : Prop :=
  DeadlineOk ctx (outstanding { m with mpsl := mpslAfterReturn p m.ts.nextRequest m.mpsl })

section
variable {ctx : List Query} {m : Machine} {sys : System Machine Query Answer Entry Ret}

/-- A program under the invariant. -/
abbrev KeepsDeadline {α : Type} (sys : System Machine Query Answer Entry Ret) (ctx : List Query)
    (post : α → Machine → Prop) (t : FTurn α) : Prop :=
  t.Sat sys Known (fun ctx m => DeadlineOk ctx (outstanding m)) ctx post

theorem outstanding_cleanupGrant (m : Machine) :
    outstanding (cleanupGrant m) = { outstanding m with active := false } := by
  obtain ⟨t, r, o, ht, hc⟩ := cleanupGrant_eq m
  rw [hc]
  unfold outstanding
  rw [ht]

theorem returnNone_deadline (h : DeadlineOk ctx (outstanding m)) :
    KeepsDeadline sys ctx (Returned ctx) (returnNone m) := h

theorem endGrant_deadline (h : DeadlineOk ctx (outstanding m)) (hb : ∀ q ∈ ctx, level q < 3) :
    KeepsDeadline sys ctx (Returned ctx) (endGrant m) := by
  have hf := h.finish hb
  obtain ⟨t, r, o, ht, hc⟩ := cleanupGrant_eq m
  unfold endGrant
  rw [hc]
  show DeadlineOk ctx { outstanding m with
    active := false, armedUs := t.cc, grants := m.mpsl.grants.tail }
  rw [ht]
  exact hf

theorem handleAction_deadline {action : Action} (h : DeadlineOk ctx (outstanding m))
    (hb : ∀ q ∈ ctx, level q < 3) {g : Grant} (hg : m.mpsl.grants = [g])
    (hr : m.mpsl.requests = []) :
    KeepsDeadline sys ctx (Returned ctx) (handleAction V action m) := by
  unfold handleAction
  split
  · exact endGrant_deadline h hb
  · split
    · exact returnNone_deadline h
    · split
      · have he := h.extend hb hg hr action.lengthUs
        have hm : mpslAfterReturn
            { m.ts.signalReturn with callbackAction := .actionExtend, extendLengthUs :=
              action.lengthUs }
            m.ts.nextRequest m.mpsl =
            { m.mpsl with grants := [{ g with offer := some action.lengthUs }] } := by
          unfold mpslAfterReturn
          rw [hg]
        show DeadlineOk ctx (outstanding { m with
          ts := { m.ts with pendingExtensionUs := action.lengthUs, signalReturn := _ }
          mpsl := mpslAfterReturn _ m.ts.nextRequest m.mpsl })
        rw [hm]
        exact he
      · split
        · rename_i hrequest
          obtain ⟨t, r, o, ht, hc⟩ := cleanupGrant_eq m
          rw [hc]
          have hm : m.ts.cleanupMarginUs < action.lengthUs := by
            simp only [Bool.and_eq_true, decide_eq_true_eq] at hrequest
            exact hrequest.2
          have hchain := h.chain hb hg hr hm
          show DeadlineOk ctx { outstanding m with
            active := false, armedUs := t.cc, lengthUs := action.lengthUs,
            grants := m.mpsl.grants.tail, requests := m.mpsl.requests ++ [action.lengthUs] }
          rw [ht]
          exact hchain
        · exact endGrant_deadline h hb

/-- A call of the handler: what it relies on holds while it runs. -/
theorem callHandler_deadline {α : Type} {cause : MpslSignal} {deadline : Bool}
    {k : Action → Machine → FTurn α} {post : α → Machine → Prop}
    (h : DeadlineOk ctx (outstanding m))
    (hq : grantSignal cause = true → m.mpsl.requests = [] ∧ ∃ g, m.mpsl.grants = [g])
    (hk : ∀ hd action m, DeadlineOk ctx (outstanding m) →
      FrameOk (outstanding m) (.handler hd cause deadline) →
      Layered level (.handler hd cause deadline :: ctx) →
      (k action m).Sat sys Known (fun ctx m => DeadlineOk ctx (outstanding m)) ctx post) :
    KeepsDeadline sys ctx post (callHandler cause deadline m k) := by
  unfold callHandler
  split
  · trivial
  · refine sat_wait.mpr ⟨deadlineOk_cons.mpr ⟨hq, h⟩, fun action m' hj hi _ => ?_⟩
    obtain ⟨hf, hd⟩ := deadlineOk_cons.mp hi
    exact hk _ action m' hd hf hj.1

theorem below_handler {hd : Handler} {cause : MpslSignal} {deadline : Bool}
    (h : Layered level (.handler hd cause deadline :: ctx)) : ∀ q ∈ ctx, level q < 3 := by
  intro q hq
  have hl := h.below q hq
  have h3 : level (.handler hd cause deadline) ≤ 3 := by
    show (if mpslDeferred cause then 1 else 3) ≤ 3
    split <;> omega
  omega

theorem notifyApplication_deadline {signal : MpslSignal} (h : DeadlineOk ctx (outstanding m))
    (hq : grantSignal signal = true → m.mpsl.requests = [] ∧ ∃ g, m.mpsl.grants = [g])
    (hother : ∀ n, signal ≠ .other n) (hclosed : signal ≠ .sessionClosed) :
    KeepsDeadline sys ctx (Returned ctx) (notifyApplication V signal m) := by
  refine callHandler_deadline h hq (fun hd action m' hm' hf hl => ?_)
  have hb := below_handler hl
  split
  · exact returnNone_deadline hm'
  · rename_i hdeferred
    split
    · exact endGrant_deadline hm' hb
    · rename_i hfailed
      have hgrant : grantSignal signal = true := by
        cases signal with
        | start | timer0 | radio | extendSucceeded => rfl
        | extendFailed => exact absurd rfl hfailed
        | sessionClosed => exact absurd rfl hclosed
        | other n => exact absurd rfl (hother n)
        | blocked | cancelled | sessionIdle | invalidReturn | overstayed =>
          exact absurd rfl hdeferred
      obtain ⟨hr, g, hg⟩ := hf hgrant
      exact handleAction_deadline V hm' hb hg hr

theorem closeSession_deadline (hb : ∀ q ∈ ctx, level q < 2) (hq : (outstanding m).Quiet) :
    KeepsDeadline sys ctx (Returned ctx) (closeSession m) := by
  have hc : outstanding (cleanupGrant m) = _ := outstanding_cleanupGrant m
  have hd : DeadlineOk ctx { outstanding m with active := false, isOpen := false, idle := false } :=
    deadlineOk_quiet hq rfl (frames_of_low hb _)
  have hclear : outstanding { cleanupGrant m with ts := { (cleanupGrant m).ts with
      sessionOpen := false, sessionIdle := false, sessionClosing := false } } =
      { outstanding m with active := false, isOpen := false, idle := false } := by
    obtain ⟨t, r, o, ht, hc⟩ := cleanupGrant_eq m
    rw [hc]
    unfold outstanding
    rw [ht]
  rw [← hclear] at hd
  unfold closeSession
  refine sat_bind.mpr (sat_mono (T := fun _ m => DeadlineOk ctx (outstanding m))
    (fun _ m' hm' => ?_) ?_)
  · obtain ⟨pf, hpf⟩ := releaseReference_eq { m' with ts := { m'.ts with
      applicationHandler := none, applicationContext := 0 } }
    dsimp only
    rw [hpf]
    exact hm'
  · split
    · exact callHandler_deadline hd nofun (fun _ _ _ hm' _ _ => hm')
    · exact hd

/-! What the callback keeps on each signal. MPSL has changed its own state before. -/

variable {id : Nat}

/-- Over a callback stand only calls of lower levels. -/
theorem below_signal {signal : MpslSignal}
    (hb : ∀ q ∈ ctx, level q < (Entry.timeslotSignal id signal).rank) :
    ∀ q ∈ ctx, level q < 3 := by
  intro q hq
  have hlow := hb q hq
  have hrank : (Entry.timeslotSignal id signal).rank ≤ 3 := by
    show (if mpslDeferred signal then 1 else 3) ≤ 3
    split <;> omega
  omega

theorem below_deferred {signal : MpslSignal}
    (hb : ∀ q ∈ ctx, level q < (Entry.timeslotSignal id signal).rank)
    (hdeferred : mpslDeferred signal = true) : ∀ q ∈ ctx, level q < 2 := by
  intro q hq
  have hlow := hb q hq
  rw [Entry.rank, if_pos hdeferred] at hlow
  omega

/-- A grant that runs is the only one, and no request waits. -/
theorem DeadlineOk.during (hd : DeadlineOk ctx (outstanding m))
    (hs : (!m.mpsl.grants.isEmpty) = true) :
    m.mpsl.requests = [] ∧ ∃ g, m.mpsl.grants = [g] := by
  cases hg : m.mpsl.grants with
  | nil =>
    rw [hg] at hs
    cases hs
  | cons g rest =>
    obtain ⟨rfl, hr⟩ := hd.cases_grants hg
    exact ⟨hr, g, rfl⟩

theorem start_deadline (hd : DeadlineOk ctx (outstanding m)) (hstored : m.ts.sessionId = id)
    (hb : ∀ q ∈ ctx, level q < 3) (hs : mpslSends .start m.mpsl = true) :
    KeepsDeadline sys ctx (Returned ctx)
      (timeslotCallback V id .start { m with mpsl := mpslSignalled .start m.mpsl }) := by
  rw [timeslotCallback_start V (by exact hstored)]
  cases hr : m.mpsl.requests with
  | nil =>
    unfold mpslSends at hs
    rw [hr] at hs
    cases hs
  | cons r rest =>
    have hsig : mpslSignalled .start m.mpsl =
        { m.mpsl with requests := rest, grants := { requested := r } :: m.mpsl.grants } := by
      unfold mpslSignalled
      rw [hr]
    rw [hsig]
    obtain ⟨o, ho⟩ := acquire_eq .timeslot { m with
      mpsl := { m.mpsl with requests := rest, grants := { requested := r } :: m.mpsl.grants } }
    rw [ho]
    obtain ⟨hrest, hgrants⟩ := hd.cases_requests hr
    split
    · -- the RADIO is someone else's: the grant is given back at once
      exact endGrant_deadline (hd.start hb hr (outstanding m).active (outstanding m).armedUs
        (fun ha => (hd.active ha).choose_spec.2)) hb
    · refine notifyApplication_deadline V (hd.start hb hr true _ (fun _ => rfl))
        (fun _ => ?_) nofun nofun
      exact ⟨hrest, _, congrArg _ hgrants⟩

theorem timer0_deadline (hd : DeadlineOk ctx (outstanding m)) (hstored : m.ts.sessionId = id)
    (hs : mpslSends .timer0 m.mpsl = true) :
    KeepsDeadline sys ctx (Returned ctx)
      (timeslotCallback V id .timer0 { m with mpsl := mpslSignalled .timer0 m.mpsl }) := by
  have hgrant := hd.during hs
  rw [timeslotCallback_timer0 V (by exact hstored)]
  split
  · -- the deadline: without an answer the grant ends
    refine callHandler_deadline hd (fun _ => hgrant) (fun h' action m' hm' hf hl => ?_)
    have hb := below_handler hl
    split
    · exact endGrant_deadline hm' hb
    · obtain ⟨hr, g, hg⟩ := hf rfl
      exact handleAction_deadline V hm' hb hg hr
  · exact notifyApplication_deadline V hd (fun _ => hgrant) nofun nofun

theorem extendSucceeded_deadline (hd : DeadlineOk ctx (outstanding m))
    (hstored : m.ts.sessionId = id) (hb : ∀ q ∈ ctx, level q < 3)
    (hs : mpslSends .extendSucceeded m.mpsl = true) :
    KeepsDeadline sys ctx (Returned ctx)
      (timeslotCallback V id .extendSucceeded
        { m with mpsl := mpslSignalled .extendSucceeded m.mpsl }) := by
  rw [timeslotCallback_extendSucceeded V (by exact hstored)]
  unfold mpslSends at hs
  cases hg : m.mpsl.grants with
  | nil =>
    rw [hg] at hs
    cases hs
  | cons g rest =>
    obtain ⟨requested, extensions, offer⟩ := g
    rw [hg] at hs
    cases offer with
    | none => cases hs
    | some x =>
      have hsig : mpslSignalled .extendSucceeded m.mpsl =
          { m.mpsl with grants := ⟨requested, x :: extensions, none⟩ :: rest } := by
        unfold mpslSignalled
        rw [hg]
      obtain ⟨hrest, hr⟩ := hd.cases_grants hg
      rw [hsig]
      exact notifyApplication_deadline V (hd.extended hb hg (of_decide_eq_true hs))
        (fun _ => ⟨hr, _, congrArg _ hrest⟩) nofun nofun

/-- A signal behind which no grant is left. -/
theorem ending_deadline {signal : MpslSignal}
    (hend : signal = .extendFailed ∨ signal = .overstayed ∨ signal = .invalidReturn)
    (hd : DeadlineOk ctx { outstanding m with active := false }) (hstored : m.ts.sessionId = id) :
    KeepsDeadline sys ctx (Returned ctx) (timeslotCallback V id signal m) := by
  rw [timeslotCallback_ending V hend hstored]
  obtain rfl | rfl | rfl := hend
  all_goals
    refine notifyApplication_deadline V ?_ nofun nofun nofun
    rwa [outstanding_cleanupGrant]

/-- A signal behind which a new request may be made. -/
theorem idle_deadline {signal : MpslSignal}
    (hidle : signal = .sessionIdle ∨ signal = .blocked ∨ signal = .cancelled)
    (hd : DeadlineOk ctx (outstanding m)) (hstored : m.ts.sessionId = id)
    (hb : ∀ q ∈ ctx, level q < 2) (hs : (m.mpsl.requests.isEmpty && m.mpsl.grants.isEmpty) = true) :
    KeepsDeadline sys ctx (Returned ctx) (timeslotCallback V id signal m) := by
  have hquiet : (outstanding m).Quiet := by
    obtain ⟨hr, hg⟩ := Bool.and_eq_true_iff.mp hs
    exact ⟨List.isEmpty_iff.mp hr, List.isEmpty_iff.mp hg⟩
  have hready : DeadlineOk ctx { outstanding m with idle := true } :=
    deadlineOk_quiet hquiet (hd.inactive_of_quiet hquiet) (frames_of_low hb _)
  rw [timeslotCallback_idle V hidle hstored]
  obtain rfl | rfl | rfl := hidle
  all_goals exact notifyApplication_deadline V hready nofun nofun nofun

theorem timeslotCallback_deadline {signal : MpslSignal} (h : Known ctx m)
    (hd : DeadlineOk ctx (outstanding m)) (hid : m.mpsl.session = some id)
    (hb : ∀ q ∈ ctx, level q < (Entry.timeslotSignal id signal).rank)
    (hs : mpslSends signal m.mpsl = true) :
    KeepsDeadline sys ctx (Returned ctx) (timeslotCallback V id signal
      { m with mpsl := mpslBeforeSignal id signal m.mpsl }) := by
  have hstored : m.ts.sessionId = id := h.2.stored id hid
  have hb3 := below_signal hb
  rw [mpslBeforeSignal_open hid]
  cases signal with
  | sessionClosed =>
    rw [timeslotCallback_closed V (by exact hstored)]
    exact closeSession_deadline (below_deferred hb rfl) ⟨rfl, rfl⟩
  | other n => cases hs
  | start => exact start_deadline V hd hstored hb3 hs
  | timer0 => exact timer0_deadline V hd hstored hs
  | radio =>
    rw [timeslotCallback_radio V (by exact hstored)]
    exact notifyApplication_deadline V hd (fun _ => hd.during hs) nofun nofun
  | extendSucceeded => exact extendSucceeded_deadline V hd hstored hb3 hs
  | extendFailed => exact ending_deadline V (.inl rfl) (hd.extendFailed hb3) hstored
  | overstayed => exact ending_deadline V (.inr (.inl rfl)) (hd.overstayed hb3) hstored
  | invalidReturn => exact ending_deadline V (.inr (.inr rfl)) (hd.overstayed hb3) hstored
  | sessionIdle => exact idle_deadline V (.inl rfl) hd hstored (below_deferred hb rfl) hs
  | blocked => exact idle_deadline V (.inr (.inl rfl)) hd hstored (below_deferred hb rfl) hs
  | cancelled => exact idle_deadline V (.inr (.inr rfl)) hd hstored (below_deferred hb rfl) hs

end

/-! ## The API -/

section
variable {ctx : List Query} {m : Machine} {sys : System Machine Query Answer Entry Ret}

/-- A program with the invariant as its postcondition. -/
abbrev KeepsOutstanding {α : Type} (sys : System Machine Query Answer Entry Ret) (ctx : List Query)
    (t : FTurn α) : Prop :=
  KeepsDeadline sys ctx (fun _ m => DeadlineOk ctx (outstanding m)) t

/-- Without a session being opened, the session is open exactly if MPSL has it. -/
theorem Known.session (h : Known ctx m) (hb : ∀ q ∈ ctx, level q < 2) :
    m.ts.sessionOpen = m.mpsl.session.isSome := h.2.settled (no_opening_below hb)

theorem timeslotOpen_deadline {handler : Option Handler} {context : Nat} (h : Known ctx m)
    (hd : DeadlineOk ctx (outstanding m)) (hb : ∀ q ∈ ctx, level q < 2) :
    KeepsOutstanding sys ctx (nrfkitTimeslotOpen V handler context m) := by
  unfold nrfkitTimeslotOpen
  cases handler with
  | none => exact hd
  | some hh =>
    dsimp only
    split
    · exact hd
    · rename_i hopen
      have hnone : m.mpsl.session = none := by
        have hs := h.session hb
        cases hm : m.mpsl.session with
        | none => rfl
        | some id =>
          rw [hm] at hs
          exact absurd (by rw [hs]; rfl) hopen
      obtain ⟨pf, hpf⟩ := retain_eq V m
      rw [hpf]
      split
      · exact hd
      · refine sat_wait.mpr ⟨deadlineOk_cons.mpr ⟨hd.closed hnone, hd⟩, fun reply m1 _ h1 _ =>
          sat_wait.mpr ⟨?_, fun _ m2 _ h2 _ => ?_⟩⟩
        · obtain ⟨hq, hd1⟩ := deadlineOk_cons.mp h1
          have hq : (outstanding m1).Quiet := hq
          exact deadlineOk_cons.mpr ⟨hq, deadlineOk_quiet hq (hd1.inactive_of_quiet hq)
            (frames_of_low hb _)⟩
        · obtain ⟨hq, hd2⟩ := deadlineOk_cons.mp h2
          have hq : (outstanding m2).Quiet := hq
          dsimp only
          split
          · obtain ⟨pf, hpf⟩ := releaseReference_eq m2
            rw [hpf]
            exact hd2
          · exact deadlineOk_quiet hq (hd2.inactive_of_quiet hq) (frames_of_low hb _)

theorem requestEarliest_deadline {lengthUs timeoutUs marginUs : UInt32}
    (hd : DeadlineOk ctx (outstanding m)) (hb : ∀ q ∈ ctx, level q < 2) :
    KeepsOutstanding sys ctx (nrfkitTimeslotRequestEarliest V lengthUs timeoutUs marginUs m) := by
  unfold nrfkitTimeslotRequestEarliest
  split
  · exact hd
  · rename_i hvalid
    split
    · exact hd
    · rename_i hidle
      obtain ⟨hopen, _, hmargin⟩ := request_valid V hvalid
      have hidle : m.ts.sessionIdle = true := by simpa using hidle
      have hq : (outstanding m).Quiet := hd.idle hidle
      refine sat_wait.mpr ⟨deadlineOk_cons.mpr ⟨⟨hq, hopen, rfl, rfl, rfl, hmargin⟩,
        deadlineOk_quiet hq (hd.inactive_of_quiet hq) (frames_of_low hb _)⟩,
          fun reply m1 hk1 h1 _ =>
          sat_wait.mpr ⟨?_, fun _ m2 _ h2 _ => ?_⟩⟩
      · obtain ⟨⟨hq1, ho1, hi1, hl1, hm1, hlt⟩, hd1⟩ := deadlineOk_cons.mp h1
        have hno : ¬ Opening timeslotClient (.vendor (.timeslotRequest lengthUs marginUs)) := by
          rintro (h | ⟨_, h⟩) <;> cases h
        have hsome : m1.mpsl.session.isSome = true :=
          (((sessionOk_cons hno).mp hk1.2).settled (no_opening_below hb)).symm.trans ho1
        show DeadlineOk _ (outstanding (m1.vendorEffect (.timeslotRequest lengthUs marginUs) reply))
        unfold Machine.vendorEffect
        dsimp only
        split
        · rename_i hr
          exact deadlineOk_cons.mpr ⟨fun hne => absurd hr hne,
            hd1.accept (frames_of_low hb) hq1 hi1 (Option.isSome_iff_ne_none.mp hsome) hl1 hm1 hlt⟩
        · exact deadlineOk_cons.mpr ⟨fun _ => ⟨hq1, hi1⟩, hd1⟩
      · obtain ⟨hf2, hd2⟩ := deadlineOk_cons.mp h2
        dsimp only
        split
        · rename_i hr
          obtain ⟨hq2, _⟩ := hf2 hr
          exact deadlineOk_quiet hq2 (hd2.inactive_of_quiet hq2) (frames_of_low hb _)
        · exact hd2

/-- A query of another function asks nothing of the deadline. -/
theorem frameOk_other {q : Query} (d : Outstanding)
    (h : q.part ≠ .timeslotOpen ∧ q.part ≠ .timeslotRequest ∧ q.part ≠ .timeslotCallback) :
    FrameOk d q := by
  obtain ⟨hopen, hrequest, hcallback⟩ := h
  cases q with
  | vendor call | within call r =>
    cases call with
    | timeslotSessionOpen => exact absurd rfl hopen
    | timeslotRequest => exact absurd rfl hrequest
    | _ => trivial
  | handler => exact absurd rfl hcallback
  | _ => trivial

/-- A program that waits elsewhere and leaves the deadline alone. -/
theorem keepsOutstanding_program (e : Entry) (h : DeadlineOk ctx (outstanding m))
    (hv : ∀ m, outstanding (e.view m) = outstanding m) (hp : e.part ≠ some .timeslotOpen ∧
      e.part ≠ some .timeslotRequest ∧ e.part ≠ some .timeslotCallback) :
    KeepsOutstanding sys ctx (program V e m) := by
  refine sat_program (I := DeadlineOk) e outstanding hv (fun q ctx d hq => ?_) h
  have hframe : FrameOk d q :=
    frameOk_other d ⟨hq.part_ne hp.1, hq.part_ne hp.2.1, hq.part_ne hp.2.2⟩
  rw [deadlineOk_cons]
  exact and_iff_right hframe

end

/-! ## Every run -/

theorem grantContract_known : Keeps (grantContract V) Any Known :=
  keeps_assuming ((openSessions_layered V).and (timeslotSession_keeps V))

/-- The step lemma: under MPSL's contract every program keeps the deadline. -/
theorem grantContract_keeps :
    Keeps (grantContract V) Known (fun ctx m => DeadlineOk ctx (outstanding m)) := by
  intro ctx e m hk h he
  have habove := above_iff.mp (assuming_enters.mp (assuming_enters.mp he).1).1
  have hsession := (assuming_enters.mp (assuming_enters.mp he).1).2
  have hsends := (assuming_enters.mp he).2
  have hother := @keepsOutstanding_program V ctx m (grantContract V) e h
  cases e with
  | timeslotOpen hd context => exact sat_map.mpr (timeslotOpen_deadline V hk h habove)
  | timeslotRequestEarliest l t c => exact sat_map.mpr (requestEarliest_deadline V h habove)
  | timeslotSignal id signal =>
    exact sat_map.mpr (sat_bind.mpr
      (timeslotCallback_deadline V hk h (eq_of_beq hsession) habove hsends))
  | mpslDropRequest => exact h.dropped
  | swi00 | timer0Compare | radioRegisters | radioState | clocks | callerData => exact h
  | _ => exact hother (fun _ => rfl) ⟨nofun, nofun, nofun⟩

/-- **At most one request or grant is outstanding, and during a grant the deadline is
armed at the grant's length with its extensions, less the cleanup margin of the last
accepted request**: a positive value, computed without wrapping. -/
theorem armed_deadline {hw : Hardware} {radio : Radio} {timer0 : Timer0}
    {c : Config Machine Query Answer Ret}
    (h : Reachable (grantContract V) (Machine.reset hw radio timer0) c) (hl : c.live = true) :
    c.state.mpsl.requests.length + c.state.mpsl.grants.length ≤ 1 ∧
      (c.state.ts.grantActive = true → ∃ g, c.state.mpsl.grants = [g] ∧
        c.state.timer0.cc.toNat + c.state.ghost.acceptedMarginUs.toNat = g.total ∧
        0 < c.state.timer0.cc.toNat ∧ g.total < 2 ^ 32) := by
  have h0 : DeadlineOk [] (outstanding (Machine.reset hw radio timer0)) :=
    deadlineOk_quiet ⟨rfl, rfl⟩ rfl nofun
  have hk0 : Known [] (Machine.reset hw radio timer0) :=
    ⟨List.Pairwise.nil, sessionOk_closed nofun rfl rfl⟩
  have hinv := run_inv ((grantContract_known V).and (grantContract_keeps V))
    (I := fun ctx m => Known ctx m ∧ DeadlineOk ctx (outstanding m)) ⟨hk0, h0⟩ h hl
  obtain ⟨_, hd⟩ := hinv
  refine ⟨hd.single, fun ha => ?_⟩
  obtain ⟨g, hg, harm⟩ := hd.active ha
  obtain ⟨hlen, hmar, hlt, _⟩ := hd.granted g hg
  have hcc : c.state.timer0.cc.toNat =
      c.state.ts.grantLengthUs.toNat - c.state.ts.cleanupMarginUs.toNat := by
    have hle : c.state.ts.cleanupMarginUs ≤ c.state.ts.grantLengthUs := by
      rw [UInt32.le_iff_toNat_le]
      show (outstanding c.state).marginUs.toNat ≤ (outstanding c.state).lengthUs.toNat
      rw [hmar, hlen]
      omega
    rw [show c.state.timer0.cc = _ from harm]
    exact UInt32.toNat_sub_of_le _ _ hle
  have hlen : c.state.ts.grantLengthUs.toNat = g.total := hlen
  have hmar : c.state.ts.cleanupMarginUs = c.state.ghost.acceptedMarginUs := hmar
  have hlt : c.state.ghost.acceptedMarginUs.toNat < g.total := hlt
  rw [hlen, hmar] at hcc
  have hfit : c.state.ts.grantLengthUs.toNat < 2 ^ 32 := UInt32.toNat_lt _
  exact ⟨g, hg, by omega, by omega, by omega⟩

/-- A grant of 1000 us, extended by 500 us, with a margin of 200 us: the deadline is at
1300 us. -/
theorem armed_deadline_extended : ∃ c g,
    Reachable (grantContract .nrfxlib) (Machine.reset {} {} {}) c ∧
      c.state.mpsl.grants = [g] ∧ g.total = 1500 ∧ c.state.timer0.cc.toNat = 1300 := by
  obtain ⟨c, h, hf⟩ := reachable_of_run (grantContract .nrfxlib) (.reset {} {} {})
    (calls [enabled, (.timeslotOpen (some 7) 0, 2, ⟨.actionNone, 0, 0⟩),
      (.timeslotRequestEarliest 1000 100000 200, 2, ⟨.actionNone, 0, 0⟩),
      (.timeslotSignal 1 .start, 1, ⟨.actionExtend, 500, 0⟩),
      (.timeslotSignal 1 .extendSucceeded, 1, ⟨.actionNone, 0, 0⟩)])
    (fun c => c.live && c.state.ts.grantActive && c.state.ghost.acceptedMarginUs == 200 &&
      (c.state.mpsl.grants.map Grant.total == [1500]))
    (by decide +kernel)
  simp only [Bool.and_eq_true, beq_iff_eq] at hf
  obtain ⟨⟨⟨hl, ha⟩, hmar⟩, htot⟩ := hf
  obtain ⟨g, hg, hcc, _, _⟩ := (armed_deadline .nrfxlib h hl).2 ha
  rw [hg] at htot
  have htot : g.total = 1500 := by simpa using htot
  rw [htot, hmar] at hcc
  have h200 : (200 : UInt32).toNat = 200 := rfl
  exact ⟨c, g, h, hg, htot, by omega⟩

end NrfKit.Firmware
