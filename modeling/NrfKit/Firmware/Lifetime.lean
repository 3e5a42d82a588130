import NrfKit.Firmware.Sessions

/- The lifetime of MPSL. Three modules share one counter of MPSL's clients: the Timeslot
   session, the RRAM session and the 24 MHz clock each hold a reference while they are
   open, and `platform.c` uninitialises MPSL when the controller is disabled and no
   client is left. Each waiting call that has taken a reference and not yet said so in
   a flag counts as a holder too (`references`); with it the counters are exact in every
   state, and `mpsl_uninit` is only called with the controller disabled and no client
   (`references_exact`). -/
namespace NrfKit.Firmware
open Interleave

variable (V : Vendor)

/-! ## Holders -/

/-- What the lifetime of MPSL depends on: the counters and flags of `platform.c`, the two
open flags, and the record of the calls to `mpsl_uninit`. -/
structure Held where
  enabled : Bool
  initialized : Bool
  timeslot : Nat
  client : Nat
  clock : Nat
  timeslotOpen : Bool
  rramOpen : Bool
  uninits : List CallNote

def uninitCalls (calls : List CallNote) : List CallNote :=
  calls.filter (fun n => n.call == .mpslUninit)

def held (m : Machine) : Held where
  enabled := m.pf.enabled
  initialized := m.pf.mpslInitialized
  timeslot := m.pf.timeslotReferences
  client := m.pf.mpslClientReferences
  clock := m.pf.hfclk24mReferences
  timeslotOpen := m.ts.sessionOpen
  rramOpen := m.rram.opened
  uninits := uninitCalls m.ghost.calls

/-- The Timeslot references a waiting query holds: a session being opened, or being closed
until the application has been told. -/
def references : Query → Nat
  | .vendor .timeslotSessionOpen | .within .timeslotSessionOpen _ => 1
  | .vendor .rramSessionOpen | .within .rramSessionOpen _ => 1
  | .handler _ .sessionClosed _ => 1
  | _ => 0

/-- The clock references a waiting query holds. -/
def clockReferences : Query → Nat
  | .vendor .hfclkSrcRequest | .within .hfclkSrcRequest _ => 1
  | _ => 0

/-- What a waiting function of `platform.c` relies on. -/
def CallOk (d : Held) : VendorCall → Prop
  | .mpslInit => d.enabled = false ∧ d.client = 0 ∧ d.initialized = false
  | .timeslotSessionCountSet | .hfclkLatencySet | .sdcInit | .cfgSet =>
    d.enabled = false ∧ d.client = 0 ∧ d.initialized = true
  | .randSourceRegister | .cracenInit | .sdcEnable => d.enabled = false ∧ d.initialized = true
  | .sdcDisable => d.enabled = true
  | .hfclkSrcRequest => d.clock = 0 ∧ d.initialized = true
  | .hfclkSrcRelease => d.clock = 1
  | _ => True

def HolderOk (d : Held) : Query → Prop
  | .vendor c | .within c _ => CallOk d c
  | _ => True

structure LifetimeOk (ctx : List Query) (d : Held) : Prop where
  timeslot : d.timeslot = d.timeslotOpen.toNat + d.rramOpen.toNat + (ctx.map references).sum
  client : d.client = d.timeslot + d.clock + (ctx.map clockReferences).sum
  bounded : d.timeslot ≤ 2
  clock : d.clock ≤ 1
  initialized : d.enabled = true ∨ d.client ≠ 0 → d.initialized = true
  uninit : ∀ n ∈ d.uninits, n.enabled = false ∧ n.references = 0
  frames : ∀ q ∈ ctx, HolderOk d q

section
variable {ctx : List Query} {d : Held}

theorem lifetimeOk_cons_iff {q : Query} : LifetimeOk (q :: ctx) d ↔
    (d.timeslot = d.timeslotOpen.toNat + d.rramOpen.toNat +
      (references q + (ctx.map references).sum) ∧
      d.client = d.timeslot + d.clock + (clockReferences q + (ctx.map clockReferences).sum)) ∧
    (d.timeslot ≤ 2 ∧ d.clock ≤ 1 ∧ (d.enabled = true ∨ d.client ≠ 0 → d.initialized = true) ∧
      ∀ n ∈ d.uninits, n.enabled = false ∧ n.references = 0) ∧
    HolderOk d q ∧ ∀ q ∈ ctx, HolderOk d q := by
  constructor
  · rintro ⟨h1, h2, h3, h4, h5, h6, h7⟩
    rw [List.map_cons, List.sum_cons] at h1 h2
    exact ⟨⟨h1, h2⟩, ⟨h3, h4, h5, h6⟩, List.forall_mem_cons.mp h7⟩
  · rintro ⟨⟨h1, h2⟩, ⟨h3, h4, h5, h6⟩, h7⟩
    refine ⟨?_, ?_, h3, h4, h5, h6, List.forall_mem_cons.mpr h7⟩
    · rw [List.map_cons, List.sum_cons]
      exact h1
    · rw [List.map_cons, List.sum_cons]
      exact h2

/-- A waiting query that holds nothing. -/
theorem lifetimeOk_cons {q : Query} (hr : references q = 0) (hc : clockReferences q = 0) :
    LifetimeOk (q :: ctx) d ↔ HolderOk d q ∧ LifetimeOk ctx d := by
  rw [lifetimeOk_cons_iff, hr, hc, Nat.zero_add, Nat.zero_add]
  constructor
  · rintro ⟨⟨h1, h2⟩, ⟨h3, h4, h5, h6⟩, hq, h7⟩
    exact ⟨hq, h1, h2, h3, h4, h5, h6, h7⟩
  · rintro ⟨hq, h1, h2, h3, h4, h5, h6, h7⟩
    exact ⟨⟨h1, h2⟩, ⟨h3, h4, h5, h6⟩, hq, h7⟩

theorem references_low {q : Query} (h : level q < 2) :
    clockReferences q = 0 ∧ ∀ d, HolderOk d q := by
  have hcall : ∀ call : VendorCall, level (.vendor call) < 2 → call = .lowPriorityProcess := by
    intro call hl
    cases call <;> first | rfl | exact absurd hl (by show ¬ 2 < 2; omega)
  cases q with
  | vendor call =>
    rw [hcall call h]
    exact ⟨rfl, fun _ => trivial⟩
  | within call r =>
    rw [level_within] at h
    rw [hcall call h]
    exact ⟨rfl, fun _ => trivial⟩
  | _ => exact ⟨rfl, fun _ => trivial⟩

/-- Under an API call no clock is being requested and no call relies on anything. -/
theorem low_context (hb : ∀ q ∈ ctx, level q < 2) :
    (ctx.map clockReferences).sum = 0 ∧ ∀ d, ∀ q ∈ ctx, HolderOk d q := by
  refine ⟨?_, fun d q hq => (references_low (hb q hq)).2 d⟩
  apply List.sum_eq_zero_iff_forall_eq_nat.mpr
  intro x hx
  obtain ⟨q, hq, rfl⟩ := List.mem_map.mp hx
  exact (references_low (hb q hq)).1

theorem LifetimeOk.client_small (h : LifetimeOk ctx d)
    (hb : ∀ q ∈ ctx, level q < 2) : d.client ≤ 3 := by
  have h1 := h.client
  have h2 := h.bounded
  have h3 := h.clock
  rw [(low_context hb).1] at h1
  omega

end

/-! ## The record of `mpsl_uninit` -/

theorem uninitCalls_noteCall {call : VendorCall} (h : call ≠ .mpslUninit) (m : Machine)
    (result : Int) :
    held (m.noteCall call result) = held m := by
  unfold held Machine.noteCall uninitCalls
  rw [List.filter_append]
  simp [h]

theorem held_cracenUninit (m : Machine) : held (m.callVoid .cracenUninit) = held m :=
  uninitCalls_noteCall (by decide) m 0

theorem uninitCalls_platformCalls (calls : List CallNote) :
    uninitCalls (platformCalls calls) = uninitCalls calls := by
  unfold uninitCalls platformCalls
  rw [List.filter_filter]
  apply List.filter_congr
  intro n _
  cases hc : n.call <;> rfl

/-! ## `platform.c` -/

/-- What is known when the lifetime is proved. -/
def SessionsKnown (ctx : List Query) (m : Machine) : Prop :=
  (Layered level ctx ∧ SessionOk timeslotClient ctx m) ∧ SessionOk rramClient ctx m

section
variable {α : Type} {ctx : List Query} {m : Machine} {sys : System Machine Query Answer Entry Ret}

/-- A program under the invariant. -/
abbrev KeepsLifetime (sys : System Machine Query Answer Entry Ret) (ctx : List Query)
    (post : α → Machine → Prop) (t : FTurn α) : Prop :=
  t.Sat sys SessionsKnown (fun ctx m => LifetimeOk ctx (held m)) ctx post

/-- A call that holds no reference: what it relies on still holds when it returns. -/
theorem call_lifetime {call : VendorCall} {k : VendorReply → Machine → FTurn α}
    {post : α → Machine → Prop} (hc : clockReferences (.vendor call) = 0)
    (hp : call.part = .platform) (hu : call ≠ .mpslUninit) (h : LifetimeOk ctx (held m))
    (hf : CallOk (held m) call)
    (hk : ∀ reply m, LifetimeOk ctx (held m) → CallOk (held m) call →
      (k reply m).Sat sys SessionsKnown (fun ctx m => LifetimeOk ctx (held m)) ctx post) :
    KeepsLifetime sys ctx post (vendorCall call m k) := by
  have hr : references (.vendor call) = 0 := by
    cases call <;> first | rfl | cases hp
  have hw : ∀ r, references (.within call r) = 0 ∧ clockReferences (.within call r) = 0 := by
    intro r
    cases call <;> exact ⟨hr, hc⟩
  refine sat_wait.mpr ⟨(lifetimeOk_cons hr hc).mpr ⟨hf, h⟩, fun reply m1 _ h1 _ =>
    sat_wait.mpr ⟨?_, fun _ m2 _ h2 _ => ?_⟩⟩
  · rw [vendorEffect_platform hp, uninitCalls_noteCall hu]
    obtain ⟨hf1, hl1⟩ := (lifetimeOk_cons hr hc).mp h1
    exact (lifetimeOk_cons (hw _).1 (hw _).2).mpr ⟨hf1, hl1⟩
  · obtain ⟨hf2, hl2⟩ := (lifetimeOk_cons (hw _).1 (hw _).2).mp h2
    exact hk reply m2 hl2 hf2

/-- Uninitialising MPSL while nothing needs it. -/
theorem releaseMpsl_lifetime (h : LifetimeOk ctx (held m)) (he : m.pf.enabled = false)
    (hc : m.pf.mpslClientReferences = 0) (hb : ∀ q ∈ ctx, level q < 2) :
    LifetimeOk ctx (held (releaseMpsl m)) ∧ (releaseMpsl m).pf.enabled = false := by
  cases hi : m.pf.mpslInitialized with
  | false =>
    have hsame : releaseMpsl m = m := by
      unfold releaseMpsl
      rw [if_pos (by simp [hi])]
    rw [hsame]
    exact ⟨h, he⟩
  | true =>
    obtain ⟨hw, heq⟩ := releaseMpsl_eq hi
    rw [heq]
    refine ⟨⟨h.timeslot, h.client, h.bounded, h.clock, ?_, ?_, (low_context hb).2 _⟩, he⟩
    · rintro (hen | hcl)
      · exact absurd (he.symm.trans hen) nofun
      · exact absurd hc hcl
    · intro n hn
      have hn : n ∈ uninitCalls (m.ghost.calls ++
          [⟨.mpslUninit, 0, m.pf.enabled, m.pf.mpslClientReferences⟩]) := hn
      unfold uninitCalls at hn
      rw [List.filter_append, List.mem_append] at hn
      rcases hn with hn | hn
      · exact h.uninit n hn
      · have hn : n = ⟨.mpslUninit, 0, m.pf.enabled, m.pf.mpslClientReferences⟩ := by
          simpa using (List.mem_filter.mp hn).1
        rw [hn]
        exact ⟨he, hc⟩

theorem releaseIfUnused_lifetime (h : LifetimeOk ctx (held m)) (he : m.pf.enabled = false)
    (hb : ∀ q ∈ ctx, level q < 2) : LifetimeOk ctx (held (releaseIfUnused m)) := by
  unfold releaseIfUnused
  split
  · rename_i hc
    exact (releaseMpsl_lifetime h he hc hb).1
  · exact h

/-- What `initialize_libraries` leaves: the controller disabled, and MPSL initialised on
success. -/
def Initialized (ctx : List Query) (result : Int) (m : Machine) : Prop :=
  LifetimeOk ctx (held m) ∧ m.pf.enabled = false ∧ (result = 0 → m.pf.mpslInitialized = true)

/-- A failed step of the initialisation takes MPSL down again. -/
theorem initialize_failed (h : LifetimeOk ctx (held m)) (hf : CallOk (held m) .sdcInit)
    (hb : ∀ q ∈ ctx, level q < 2) {result : Int} (hr : result ≠ 0) :
    Initialized ctx result (releaseMpsl m) := by
  obtain ⟨hl, he⟩ := releaseMpsl_lifetime h hf.1 hf.2.1 hb
  exact ⟨hl, he, fun h0 => absurd h0 hr⟩

theorem initializeController_lifetime {config : SdcConfig} (h : LifetimeOk ctx (held m))
    (hf : CallOk (held m) .sdcInit) (hb : ∀ q ∈ ctx, level q < 2) :
    KeepsLifetime sys ctx (Initialized ctx) (initializeController config m) := by
  unfold initializeController
  split
  · refine call_lifetime rfl rfl nofun h hf (fun sdc m h hf => ?_)
    split
    · rename_i hr
      exact initialize_failed h hf hb hr
    · refine call_lifetime rfl rfl nofun h hf (fun cfg m h hf => ?_)
      split
      · rename_i hr
        exact initialize_failed h hf hb (by omega)
      · exact ⟨h, hf.1, fun _ => hf.2.2⟩
  · exact ⟨h, hf.1, fun _ => hf.2.2⟩

theorem initializeLibraries_lifetime {config : Option SdcConfig} (h : LifetimeOk ctx (held m))
    (he : m.pf.enabled = false) (hb : ∀ q ∈ ctx, level q < 2) :
    KeepsLifetime sys ctx (Initialized ctx) (initializeLibraries V config m) := by
  have hno : ∀ e : Int, 0 < e → ∀ m : Machine, LifetimeOk ctx (held m) → m.pf.enabled = false →
      Initialized ctx (-e) m := fun e hpos m h he => ⟨h, he, fun h0 => by omega⟩
  unfold initializeLibraries
  cases config with
  | none => exact hno _ V.einval_pos m h he
  | some config =>
    dsimp only
    split
    · exact hno _ V.einval_pos m h he
    · split
      · exact hno _ V.eperm_pos m h he
      · split
        · rename_i hinit
          exact ⟨h, he, fun _ => hinit⟩
        · rename_i hinit
          split
          · exact hno _ V.einval_pos m h he
          · split
            · exact hno _ V.eperm_pos m h he
            -- A client would have MPSL initialised.
            · have hclient : m.pf.mpslClientReferences = 0 := by
                cases hc : m.pf.mpslClientReferences with
                | zero => rfl
                | succ n => exact absurd (h.initialized
                  (Or.inr (by show m.pf.mpslClientReferences ≠ 0; omega))) hinit
              have hstart : held (initializeInterrupts (startGrtc m)) = held m := by
                unfold startGrtc
                dsimp only
                split <;> rfl
              refine call_lifetime rfl rfl nofun
                (by rw [hstart]; exact h) ?_ (fun init m h hf => ?_)
              · rw [hstart]
                have hinit : m.pf.mpslInitialized = false := by simpa using hinit
                exact ⟨he, hclient, hinit⟩
              · obtain ⟨he, hc, _⟩ := hf
                split
                · rename_i hr
                  obtain ⟨hw, hgrtc⟩ := stopGrtc_eq (disableInterrupts m)
                  rw [hgrtc]
                  exact ⟨h, he, fun h0 => absurd h0 hr⟩
                · have hup : LifetimeOk ctx
                      (held { m with pf := { m.pf with mpslInitialized := true } }) :=
                    ⟨h.timeslot, h.client, h.bounded, h.clock, fun _ => rfl, h.uninit,
                      (low_context hb).2 _⟩
                  refine call_lifetime rfl rfl nofun hup ⟨he, hc, rfl⟩ (fun count m h hf => ?_)
                  split
                  · rename_i hr
                    exact initialize_failed h hf hb hr
                  · refine call_lifetime rfl rfl nofun h hf (fun latency m h hf => ?_)
                    split
                    · rename_i hr
                      exact initialize_failed h hf hb hr
                    · exact initializeController_lifetime h hf hb

/-- The invariant as a postcondition. -/
abbrev KeepsHeld (sys : System Machine Query Answer Entry Ret) (ctx : List Query)
    (t : FTurn α) : Prop :=
  KeepsLifetime sys ctx (fun _ m => LifetimeOk ctx (held m)) t

theorem sdcRequiredMemory_lifetime {config : Option SdcConfig} {out : Bool}
    (h : LifetimeOk ctx (held m)) (hb : ∀ q ∈ ctx, level q < 2) :
    KeepsHeld sys ctx (nrfkitSdcRequiredMemory V config out m) := by
  unfold nrfkitSdcRequiredMemory
  split
  · exact h
  · rename_i hok
    have he : m.pf.enabled = false := by
      cases he : m.pf.enabled with
      | false => rfl
      | true => exact absurd (by rw [he, Bool.or_true]) hok
    refine sat_bind.mpr
      (sat_mono (fun result m' hm' => ?_) (initializeLibraries_lifetime V h he hb))
    obtain ⟨h', he', _⟩ := hm'
    split
    · exact h'
    · exact releaseIfUnused_lifetime h' he' hb

theorem sdcEnable_lifetime {config : Option SdcConfig} {memory : Option Nat} {size : Nat}
    (h : LifetimeOk ctx (held m)) (hb : ∀ q ∈ ctx, level q < 2) :
    KeepsHeld sys ctx (nrfkitSdcEnable V config memory size m) := by
  unfold nrfkitSdcEnable
  split
  · exact h
  · rename_i hok
    have he : m.pf.enabled = false := by
      cases he : m.pf.enabled with
      | false => rfl
      | true => exact absurd (by rw [he, Bool.true_or, Bool.true_or]) hok
    refine sat_bind.mpr
      (sat_mono (fun result m' hm' => ?_) (initializeLibraries_lifetime V h he hb))
    obtain ⟨h', he', hi'⟩ := hm'
    split
    · exact h'
    · rename_i hr
      have hi' := hi' (by simpa using hr)
      split
      · exact releaseIfUnused_lifetime h' he' hb
      · refine sat_bind.mpr (sat_mono (fun result m'' hm'' => ?_) (?_ : KeepsLifetime sys ctx
          (fun _ m => LifetimeOk ctx (held m) ∧ CallOk (held m) .sdcEnable) _))
        · obtain ⟨h'', he'', hi''⟩ := hm''
          split
          · refine releaseIfUnused_lifetime ?_ he'' hb
            rw [held_cracenUninit]
            exact h''
          · exact ⟨h''.timeslot, h''.client, h''.bounded, h''.clock, fun _ => hi'', h''.uninit,
              (low_context hb).2 _⟩
        · refine call_lifetime rfl rfl nofun h' ⟨he', hi'⟩ (fun rand m h hf => ?_)
          split
          · refine call_lifetime rfl rfl nofun h hf (fun cracen m h hf => ?_)
            split
            · exact call_lifetime rfl rfl nofun h hf (fun sdc m h hf => ⟨h, hf⟩)
            · exact ⟨h, hf⟩
          · exact ⟨h, hf⟩

theorem sdcProcess_lifetime (h : LifetimeOk ctx (held m)) (hb : ∀ q ∈ ctx, level q < 2) :
    KeepsHeld sys ctx (nrfkitSdcProcess m) := by
  unfold nrfkitSdcProcess
  refine sat_bind.mpr (sat_mono (T := fun _ m => LifetimeOk ctx (held m)) (fun _ m' hm' => ?_) ?_)
  · split
    · rename_i hunused
      simp only [Bool.and_eq_true, Bool.not_eq_true', beq_iff_eq] at hunused
      exact (releaseMpsl_lifetime hm' hunused.1.2 hunused.2 hb).1
    · exact hm'
  · split
    · exact call_lifetime rfl rfl nofun h trivial (fun _ m h _ => h)
    · exact h

theorem sdcDisable_lifetime (h : LifetimeOk ctx (held m)) (hb : ∀ q ∈ ctx, level q < 2) :
    KeepsHeld sys ctx (nrfkitSdcDisable V m) := by
  unfold nrfkitSdcDisable
  split
  · exact h
  · rename_i he
    have he : m.pf.enabled = true := by simpa using he
    refine call_lifetime rfl rfl nofun h he (fun sdc m h hf => ?_)
    split
    · exact h
    · dsimp only
      refine releaseIfUnused_lifetime ?_ ?_ hb
      · rw [held_cracenUninit]
        have hd : LifetimeOk ctx { held m with enabled := false } :=
          ⟨h.timeslot, h.client, h.bounded, h.clock, fun hor => h.initialized (Or.inl hf), h.uninit,
            (low_context hb).2 _⟩
        split <;> exact hd
      · split <;> rfl

theorem hfclk24mRequest_lifetime (h : LifetimeOk ctx (held m)) (hb : ∀ q ∈ ctx, level q < 2) :
    KeepsHeld sys ctx (nrfkitMpslHfclk24mRequest V m) := by
  have hsum := (low_context hb).1
  unfold nrfkitMpslHfclk24mRequest
  split
  · exact h
  · rename_i hok
    simp only [Bool.or_eq_true, Bool.not_eq_true', decide_eq_true_eq, not_or, beq_iff_eq,
      Bool.not_eq_false] at hok
    obtain ⟨⟨hinit, hclock⟩, _⟩ := hok
    have hclock : m.pf.hfclk24mReferences = 0 := by omega
    -- The counter of 8 bits does not wrap.
    have hinc : incU8 m.pf.mpslClientReferences = m.pf.mpslClientReferences + 1 := by
      have h3 : m.pf.mpslClientReferences ≤ 3 := h.client_small hb
      unfold incU8
      omega
    have hclient : m.pf.mpslClientReferences = m.pf.timeslotReferences + m.pf.hfclk24mReferences +
        (ctx.map clockReferences).sum := h.client
    refine sat_wait.mpr ⟨lifetimeOk_cons_iff.mpr ⟨⟨?_, ?_⟩,
      ⟨h.bounded, h.clock, fun _ => hinit, h.uninit⟩, ⟨hclock, hinit⟩, (low_context hb).2 _⟩,
      fun reply m1 _ h1 _ => sat_wait.mpr ⟨?_, fun _ m2 _ h2 _ => ?_⟩⟩
    · rw [show references (.vendor .hfclkSrcRequest) = 0 from rfl, Nat.zero_add]
      exact h.timeslot
    · show incU8 m.pf.mpslClientReferences = m.pf.timeslotReferences + m.pf.hfclk24mReferences +
        (1 + (ctx.map clockReferences).sum)
      omega
    · rw [vendorEffect_platform rfl, uninitCalls_noteCall (by decide)]
      have h1 := lifetimeOk_cons_iff.mp h1
      exact lifetimeOk_cons_iff.mpr h1
    -- Back from the call the reference it held is given back or becomes the clock's.
    · obtain ⟨⟨hr, hc⟩, ⟨hbound, _, _, hu⟩, ⟨hclock2, hinit2⟩, _⟩ := lifetimeOk_cons_iff.mp h2
      have hr : m2.pf.timeslotReferences = m2.ts.sessionOpen.toNat + m2.rram.opened.toNat +
        (0 + (ctx.map references).sum) := hr
      have hc : m2.pf.mpslClientReferences = m2.pf.timeslotReferences + m2.pf.hfclk24mReferences +
        (1 + (ctx.map clockReferences).sum) := hc
      have hbound : m2.pf.timeslotReferences ≤ 2 := hbound
      have hclock2 : m2.pf.hfclk24mReferences = 0 := hclock2
      rw [Nat.zero_add] at hr
      dsimp only
      split
      · have hdec : decU8 m2.pf.mpslClientReferences = m2.pf.mpslClientReferences - 1 := by
          unfold decU8
          omega
        refine ⟨hr, ?_, hbound, ?_, fun _ => hinit2, hu, (low_context hb).2 _⟩
        · show decU8 m2.pf.mpslClientReferences = m2.pf.timeslotReferences +
            m2.pf.hfclk24mReferences + (ctx.map clockReferences).sum
          omega
        · show m2.pf.hfclk24mReferences ≤ 1
          omega
      · refine ⟨hr, ?_, hbound, Nat.le_refl 1, fun _ => hinit2, hu, (low_context hb).2 _⟩
        show m2.pf.mpslClientReferences = m2.pf.timeslotReferences + 1 +
          (ctx.map clockReferences).sum
        omega

theorem hfclk24mIsRunning_lifetime {out : Bool} (h : LifetimeOk ctx (held m)) :
    KeepsHeld sys ctx (nrfkitMpslHfclk24mIsRunning V out m) := by
  unfold nrfkitMpslHfclk24mIsRunning
  split
  · exact h
  · exact call_lifetime rfl rfl nofun h trivial (fun _ m h _ => h)

theorem hfclk24mRelease_lifetime (h : LifetimeOk ctx (held m)) (hb : ∀ q ∈ ctx, level q < 2) :
    KeepsHeld sys ctx (nrfkitMpslHfclk24mRelease V m) := by
  have hsum := (low_context hb).1
  unfold nrfkitMpslHfclk24mRelease
  split
  · exact h
  · rename_i hok
    simp only [Bool.or_eq_true, Bool.not_eq_true', decide_eq_true_eq, not_or,
      Bool.not_eq_false] at hok
    have hone : m.pf.hfclk24mReferences = 1 := by
      have h1 : m.pf.hfclk24mReferences ≤ 1 := h.clock
      omega
    refine call_lifetime rfl rfl nofun h hone (fun src m h hf => ?_)
    split
    · have hc : m.pf.mpslClientReferences = m.pf.timeslotReferences + m.pf.hfclk24mReferences +
        (ctx.map clockReferences).sum := h.client
      have hone : m.pf.hfclk24mReferences = 1 := hf
      have h3 : m.pf.mpslClientReferences ≤ 3 := h.client_small hb
      have hdec : decU8 m.pf.mpslClientReferences = m.pf.mpslClientReferences - 1 := by
        unfold decU8
        omega
      refine ⟨h.timeslot, ?_, h.bounded, Nat.zero_le 1, fun _ => ?_, h.uninit, (low_context hb).2 _⟩
      · show decU8 m.pf.mpslClientReferences = m.pf.timeslotReferences + 0 +
          (ctx.map clockReferences).sum
        omega
      · refine h.initialized (Or.inr ?_)
        show m.pf.mpslClientReferences ≠ 0
        omega
    · exact h

end

/-! ## Sessions -/

section
variable {α : Type} {ctx : List Query} {m : Machine} {d : Held}
  {sys : System Machine Query Answer Entry Ret}

/-- A reference that a query held is given back. -/
theorem release_lifetime {q : Query} (hr : references q = 1) (hc : clockReferences q = 0)
    (hb : ∀ q ∈ ctx, level q < 2) (h : LifetimeOk (q :: ctx) (held m)) :
    LifetimeOk ctx (held (nrfkitMpslTimeslotRelease m)) := by
  obtain ⟨⟨h1, h2⟩, ⟨h3, h4, h5, h6⟩, _⟩ := lifetimeOk_cons_iff.mp h
  rw [hr] at h1
  rw [hc, Nat.zero_add] at h2
  have h1 : m.pf.timeslotReferences = m.ts.sessionOpen.toNat + m.rram.opened.toNat +
    (1 + (ctx.map references).sum) := h1
  have h2 : m.pf.mpslClientReferences = m.pf.timeslotReferences + m.pf.hfclk24mReferences +
    (ctx.map clockReferences).sum := h2
  have h3 : m.pf.timeslotReferences ≤ 2 := h3
  have h4 : m.pf.hfclk24mReferences ≤ 1 := h4
  have hsum := (low_context hb).1
  have hts : decU8 m.pf.timeslotReferences = m.pf.timeslotReferences - 1 := by
    unfold decU8
    omega
  have hcl : decU8 m.pf.mpslClientReferences = m.pf.mpslClientReferences - 1 := by
    unfold decU8
    omega
  unfold nrfkitMpslTimeslotRelease
  rw [if_pos (by omega)]
  refine ⟨?_, ?_, ?_, h4, fun hor => ?_, h6, (low_context hb).2 _⟩
  · show decU8 m.pf.timeslotReferences = m.ts.sessionOpen.toNat + m.rram.opened.toNat +
      (ctx.map references).sum
    omega
  · show decU8 m.pf.mpslClientReferences = decU8 m.pf.timeslotReferences +
      m.pf.hfclk24mReferences + (ctx.map clockReferences).sum
    omega
  · show decU8 m.pf.timeslotReferences ≤ 2
    omega
  · refine h5 (hor.imp_right fun _ => ?_)
    show m.pf.mpslClientReferences ≠ 0
    omega

/-- A session being opened holds the reference it took. -/
theorem opening_lifetime {call : VendorCall} {k : VendorReply → Machine → FTurn α}
    {post : α → Machine → Prop} {m' : Machine}
    (hcall : call = .timeslotSessionOpen ∨ call = .rramSessionOpen)
    (hb : ∀ q ∈ ctx, level q < 2) (h : LifetimeOk ctx (held m))
    (hinit : m.pf.mpslInitialized = true) (hlt : m.pf.timeslotReferences < 2)
    (hm' : held m' = { held m with
      timeslot := incU8 m.pf.timeslotReferences, client := incU8 m.pf.mpslClientReferences })
    (hk : ∀ reply m, SessionsKnown (.within call reply.result :: ctx) m →
      LifetimeOk (.within call reply.result :: ctx) (held m) →
      (k reply m).Sat sys SessionsKnown (fun ctx m => LifetimeOk ctx (held m)) ctx post) :
    KeepsLifetime sys ctx post (vendorCall call m' k) := by
  have hone : references (.vendor call) = 1 ∧ clockReferences (.vendor call) = 0 ∧
      (∀ r, references (.within call r) = 1 ∧ clockReferences (.within call r) = 0) ∧
      (∀ d, CallOk d call) ∧
      ∀ m reply, held ((m.vendorEffect call reply).noteCall call reply.result) = held m := by
    obtain rfl | rfl := hcall
    · refine ⟨rfl, rfl, fun _ => ⟨rfl, rfl⟩, fun _ => trivial, fun m reply => ?_⟩
      rw [uninitCalls_noteCall (by decide)]
      rfl
    · refine ⟨rfl, rfl, fun _ => ⟨rfl, rfl⟩, fun _ => trivial, fun m reply => ?_⟩
      rw [uninitCalls_noteCall (by decide)]
      rfl
  obtain ⟨hr, hc, hw, hok, heffect⟩ := hone
  -- At most the two sessions and the clock hold references, so the counters of 8 bits do not wrap.
  have hsmall : m.pf.mpslClientReferences ≤ 3 := h.client_small hb
  have hts : incU8 m.pf.timeslotReferences = m.pf.timeslotReferences + 1 := by
    unfold incU8
    omega
  have hcl : incU8 m.pf.mpslClientReferences = m.pf.mpslClientReferences + 1 := by
    unfold incU8
    omega
  have h1 : m.pf.timeslotReferences = m.ts.sessionOpen.toNat + m.rram.opened.toNat +
    (ctx.map references).sum := h.timeslot
  have h2 : m.pf.mpslClientReferences = m.pf.timeslotReferences + m.pf.hfclk24mReferences +
    (ctx.map clockReferences).sum := h.client
  -- While the call waits it holds the reference itself; when it has returned, its second query
  -- does.
  refine sat_wait.mpr ⟨?_, fun reply m1 _ h1 _ => sat_wait.mpr ⟨?_, fun _ m2 hk2 h2 _ => ?_⟩⟩
  · rw [hm']
    refine lifetimeOk_cons_iff.mpr ⟨⟨?_, ?_⟩, ⟨?_, h.clock, fun _ => hinit, h.uninit⟩, hok _,
      (low_context hb).2 _⟩
    · rw [hr]
      show incU8 m.pf.timeslotReferences = m.ts.sessionOpen.toNat + m.rram.opened.toNat +
        (1 + (ctx.map references).sum)
      omega
    · rw [hc]
      show incU8 m.pf.mpslClientReferences = incU8 m.pf.timeslotReferences +
        m.pf.hfclk24mReferences + (0 + (ctx.map clockReferences).sum)
      omega
    · show incU8 m.pf.timeslotReferences ≤ 2
      omega
  · rw [heffect]
    obtain ⟨⟨h1, h2⟩, hrest, _⟩ := lifetimeOk_cons_iff.mp h1
    rw [hr] at h1
    rw [hc] at h2
    refine lifetimeOk_cons_iff.mpr ⟨⟨?_, ?_⟩, hrest, hok _, (low_context hb).2 _⟩
    · rw [(hw _).1]
      exact h1
    · rw [(hw _).2]
      exact h2
  · exact hk reply m2 hk2 h2

theorem timeslotOpen_lifetime {handler : Option Handler} {context : Nat}
    (h : LifetimeOk ctx (held m)) (hb : ∀ q ∈ ctx, level q < 2) :
    KeepsHeld sys ctx (nrfkitTimeslotOpen V handler context m) := by
  unfold nrfkitTimeslotOpen
  cases handler with
  | none => exact h
  | some hd =>
    dsimp only
    split
    · exact h
    · rcases retain_cases V m with hret | ⟨hinit, hlt, hret⟩
      · rw [hret]
        rw [if_pos (by have := V.eperm_pos; omega)]
        exact h
      · rw [hret, if_neg (by simp)]
        refine opening_lifetime (Or.inl rfl) hb h hinit hlt rfl (fun reply m hk h => ?_)
        split
        · exact release_lifetime rfl rfl hb h
        · have hclosed : m.ts.sessionOpen = false := (hk.1.2.decided _ List.mem_cons_self).1
          obtain ⟨⟨h1, h2⟩, ⟨h3, h4, h5, h6⟩, _⟩ := lifetimeOk_cons_iff.mp h
          refine ⟨?_, h2.trans ?_, h3, h4, h5, h6, (low_context hb).2 _⟩
          · have h1 : m.pf.timeslotReferences = m.ts.sessionOpen.toNat + m.rram.opened.toNat +
              (1 + (ctx.map references).sum) := h1
            rw [hclosed] at h1
            show m.pf.timeslotReferences = 1 + m.rram.opened.toNat + (ctx.map references).sum
            have h0 : false.toNat = 0 := rfl
            omega
          · rw [show clockReferences (.within .timeslotSessionOpen reply.result) = 0 from rfl,
              Nat.zero_add]
            rfl

theorem rramSubmit_lifetime {region : Option RramRegion} {address : UInt32} {data : Bool}
    {size : UInt32} (h : LifetimeOk ctx (held m)) (hb : ∀ q ∈ ctx, level q < 2) :
    KeepsHeld sys ctx (nrfkitRramSubmit V region address data size m) := by
  unfold nrfkitRramSubmit
  split
  · exact h
  · split
    · exact h
    · split
      · exact h
      · rcases retain_cases V m with hret | ⟨hinit, hlt, hret⟩
        · rw [hret]
          dsimp only
          rw [if_pos (by have := V.eperm_pos; omega)]
          exact h
        · rw [hret]
          dsimp only
          rw [if_neg (by simp)]
          refine opening_lifetime (Or.inr rfl) hb h hinit hlt rfl (fun reply m hk h => ?_)
          split
          · exact release_lifetime rfl rfl hb h
          · have hclosed : m.rram.opened = false := (hk.2.decided _ List.mem_cons_self).1
            obtain ⟨⟨h1, h2⟩, ⟨h3, h4, h5, h6⟩, _⟩ := lifetimeOk_cons_iff.mp h
            refine ⟨?_, h2.trans ?_, h3, h4, h5, h6, (low_context hb).2 _⟩
            · have h1 : m.pf.timeslotReferences = m.ts.sessionOpen.toNat + m.rram.opened.toNat +
                (1 + (ctx.map references).sum) := h1
              rw [hclosed] at h1
              show m.pf.timeslotReferences = m.ts.sessionOpen.toNat + 1 + (ctx.map references).sum
              have h0 : false.toNat = 0 := rfl
              omega
            · rw [show clockReferences (.within .rramSessionOpen reply.result) = 0 from rfl,
                Nat.zero_add]
              rfl

/-- A closed session leaves its reference to the callback, which still has to give it
back. -/
theorem closing_lifetime {q : Query} (hr : references q = 1) (hc : clockReferences q = 0)
    (hq : ∀ d, HolderOk d q) (h : LifetimeOk ctx d) (hb : ∀ q ∈ ctx, level q < 2)
    {timeslotOpen rramOpen : Bool}
    (hone : timeslotOpen.toNat + rramOpen.toNat + 1 = d.timeslotOpen.toNat + d.rramOpen.toNat) :
    LifetimeOk (q :: ctx) { d with timeslotOpen := timeslotOpen, rramOpen := rramOpen } := by
  refine lifetimeOk_cons_iff.mpr ⟨⟨?_, ?_⟩, ⟨h.bounded, h.clock, h.initialized, h.uninit⟩, hq _,
    (low_context hb).2 _⟩
  · have h1 := h.timeslot
    rw [hr]
    show d.timeslot = timeslotOpen.toNat + rramOpen.toNat + (1 + (ctx.map references).sum)
    omega
  · rw [hc, Nat.zero_add]
    exact h.client

theorem closeSession_lifetime (h : LifetimeOk ctx (held m)) (hb : ∀ q ∈ ctx, level q < 2)
    (hopen : m.ts.sessionOpen = true) : KeepsHeld sys ctx (closeSession m) := by
  obtain ⟨t, r, o, _, hc⟩ := cleanupGrant_eq m
  have hclosing : ∀ hd : Handler, LifetimeOk (.handler hd .sessionClosed false :: ctx)
      { held m with timeslotOpen := false } := by
    intro hd
    refine closing_lifetime rfl rfl (fun _ => by trivial) h hb ?_
    show false.toNat + m.rram.opened.toNat + 1 = m.ts.sessionOpen.toNat + m.rram.opened.toNat
    rw [hopen]
    have h0 : false.toNat = 0 := rfl
    have h1 : true.toNat = 1 := rfl
    omega
  unfold closeSession
  rw [hc]
  -- the application's handler may be missing; the reference waits for it all the same
  refine sat_bind.mpr (sat_mono (T := fun _ m =>
    ∃ hd : Handler, LifetimeOk (.handler hd .sessionClosed false :: ctx) (held m))
    (fun _ m' hm' => ?_) ?_)
  · obtain ⟨hd, h'⟩ := hm'
    exact release_lifetime (m := { m' with ts := { m'.ts with
      applicationHandler := none, applicationContext := 0 } }) rfl rfl hb h'
  · split
    · unfold callHandler
      split
      · trivial
      · exact sat_wait.mpr ⟨hclosing _, fun _ m' _ hm' _ => ⟨_, hm'⟩⟩
    · exact ⟨0, hclosing 0⟩

theorem closeRramSession_lifetime (h : LifetimeOk ctx (held m)) (hb : ∀ q ∈ ctx, level q < 2)
    (hopen : m.rram.opened = true) : KeepsHeld sys ctx (closeRramSession m) := by
  have hclosing :
      LifetimeOk (.vendor .rramSessionOpen :: ctx) { held m with rramOpen := false } := by
    refine closing_lifetime rfl rfl (fun _ => by trivial) h hb ?_
    show m.ts.sessionOpen.toNat + false.toNat + 1 = m.ts.sessionOpen.toNat + m.rram.opened.toNat
    rw [hopen]
    have h0 : false.toNat = 0 := rfl
    have h1 : true.toNat = 1 := rfl
    omega
  have hrelease := release_lifetime (m := { m with rram := { m.rram with
    opened := false, closing := false } }) rfl rfl hb hclosing
  exact hrelease

/-- A query whose wait holds no reference. -/
def Query.Free (q : Query) : Prop := references q = 0 ∧ clockReferences q = 0 ∧ ∀ d, HolderOk d q

/-- Requests, closes and storage grants hold no reference. -/
theorem free_of_part {q : Query}
    (h : q.part ≠ .platform ∧ q.part ≠ .timeslotOpen ∧ q.part ≠ .timeslotCallback ∧
      q.part ≠ .rramSubmit) : q.Free := by
  obtain ⟨hplatform, hopen, hcallback, hsubmit⟩ := h
  cases q with
  | vendor call | within call r =>
    cases call with
    | timeslotRequest | timeslotSessionClose | rramRequest | rramSessionClose =>
      exact ⟨rfl, rfl, fun _ => trivial⟩
    | timeslotSessionOpen => exact absurd rfl hopen
    | rramSessionOpen => exact absurd rfl hsubmit
    | _ => exact absurd rfl hplatform
  | handler => exact absurd rfl hcallback
  | _ => exact ⟨rfl, rfl, fun _ => trivial⟩

theorem free_of_handling {signal : MpslSignal} (hs : signal ≠ .sessionClosed) {q : Query}
    (hq : Handling signal q) : q.Free := by
  obtain ⟨hd, deadline, rfl⟩ := hq
  refine ⟨?_, rfl, fun _ => trivial⟩
  cases signal with
  | sessionClosed => exact absurd rfl hs
  | _ => rfl

/-- A program that waits elsewhere and leaves the counters alone. -/
theorem keepsHeld_framed {view : Machine → Machine} {W : Query → Prop} {t : FTurn α}
    (h : LifetimeOk ctx (held m)) (ht : t.Framed W view (view m)) (hv : ∀ m, held (view m) = held m)
    (hW : ∀ q, W q → q.Free) : KeepsHeld sys ctx t := by
  refine sat_view (I := LifetimeOk) ht hv (fun q ctx d hq => ?_) h
  obtain ⟨hr, hc, hf⟩ := hW q hq
  rw [lifetimeOk_cons hr hc]
  exact and_iff_right (hf _)

theorem keepsHeld_program (e : Entry) (h : LifetimeOk ctx (held m))
    (hv : ∀ m, held (e.view m) = held m) (hp : e.part ≠ some .platform ∧
      e.part ≠ some .timeslotOpen ∧ e.part ≠ some .timeslotCallback ∧ e.part ≠ some .rramSubmit) :
    KeepsHeld sys ctx (program V e m) := by
  obtain ⟨hplatform, hopen, hcallback, hsubmit⟩ := hp
  exact keepsHeld_framed h (framed_program V e m) hv fun q hq =>
    free_of_part ⟨hq.part_ne hplatform, hq.part_ne hopen, hq.part_ne hcallback, hq.part_ne hsubmit⟩

end

theorem held_platformCalls (m : Machine) : held { m with ghost := { m.ghost with
    calls := platformCalls m.ghost.calls } } = held m := by
  unfold held
  rw [uninitCalls_platformCalls]

/-! ## Every run -/

theorem openSessions_known : Keeps (openSessions V) Any SessionsKnown :=
  ((openSessions_layered V).and (timeslotSession_keeps V)).and
    ((rramSession_keeps V).known fun _ _ h => h.1)

theorem sessionsKnown_reset (hw : Hardware) (radio : Radio) (timer0 : Timer0) :
    SessionsKnown [] (Machine.reset hw radio timer0) :=
  ⟨⟨List.Pairwise.nil, sessionOk_closed nofun rfl rfl⟩, sessionOk_closed nofun rfl rfl⟩

/-- The step lemma: every program keeps the counters exact. -/
theorem lifetime_keeps :
    Keeps (openSessions V) SessionsKnown (fun ctx m => LifetimeOk ctx (held m)) := by
  intro ctx e m hk h he
  have habove := above_iff.mp (assuming_enters.mp he).1
  have hsession := (assuming_enters.mp he).2
  have hother := @keepsHeld_program V ctx m (openSessions V) e h
  cases e with
  | timeslotOpen hd context => exact sat_map.mpr (timeslotOpen_lifetime V h habove)
  | timeslotRequestEarliest | timeslotClose | rramProcess =>
    exact hother held_platformCalls ⟨nofun, nofun, nofun, nofun⟩
  -- Of the signals only SESSION_CLOSED gives a reference back.
  | timeslotSignal id signal =>
    by_cases hs : signal = .sessionClosed
    · have hid : m.mpsl.session = some id := eq_of_beq hsession
      rw [hs] at habove ⊢
      have hlow : ∀ q ∈ ctx, level q < 2 := fun q hq => Nat.lt_succ_of_lt (habove q hq)
      have hopen : m.ts.sessionOpen = true := by
        have hsome := hk.1.2.settled (no_opening_below hlow)
        rw [show timeslotClient.session m = some id from hid] at hsome
        exact hsome
      refine sat_map.mpr (sat_bind.mpr (sat_mono (T := fun _ m => LifetimeOk ctx (held m))
        (fun _ _ h => h) ?_))
      rw [timeslotCallback_closed V (by exact hk.1.2.stored id hid)]
      exact closeSession_lifetime h hlow hopen
    · exact sat_map.mpr (keepsHeld_framed h (framed_deliverSignal V id hs m) (fun _ => rfl)
        fun q hq => free_of_handling hs hq)
  | sdcRequiredMemory c out => exact sat_map.mpr (sdcRequiredMemory_lifetime V h habove)
  | sdcEnable c memory size => exact sat_map.mpr (sdcEnable_lifetime V h habove)
  | sdcDisable => exact sat_map.mpr (sdcDisable_lifetime V h habove)
  | sdcProcess =>
    exact sat_map.mpr (sdcProcess_lifetime h fun q hq => Nat.lt_trans (habove q hq) (by decide))
  | hfclk24mRequest => exact sat_map.mpr (hfclk24mRequest_lifetime V h habove)
  | hfclk24mIsRunning out => exact sat_map.mpr (hfclk24mIsRunning_lifetime V h)
  | hfclk24mRelease => exact sat_map.mpr (hfclk24mRelease_lifetime V h habove)
  | rramSubmit r a d size => exact sat_map.mpr (rramSubmit_lifetime V h habove)
  | rramSignal id signal =>
    by_cases hs : signal = .sessionClosed
    · have hid : m.mpsl.rramSession = some id := eq_of_beq hsession
      rw [hs] at habove ⊢
      have hlow : ∀ q ∈ ctx, level q < 2 := fun q hq => Nat.lt_succ_of_lt (habove q hq)
      have hopen : m.rram.opened = true := by
        have hsome := hk.2.settled (no_opening_below hlow)
        rw [show rramClient.session m = some id from hid] at hsome
        exact hsome
      refine sat_map.mpr ?_
      show KeepsHeld _ _ (rramCallback V id _ (raiseRramSignal id .sessionClosed m))
      rw [rramCallback_closed V (by exact hk.2.stored id hid)]
      exact closeRramSession_lifetime h hlow hopen
    · refine sat_map.mpr (keepsHeld_framed h (framed_deliverRramSignal V id hs m) (fun _ => rfl)
        fun q hq => free_of_part ?_)
      rw [hq.1]
      exact ⟨nofun, nofun, nofun, nofun⟩
  | radioAcquire | radioRelease | mpslDropRequest | swi00 | timer0Compare | radioRegisters
  | radioState | clocks | callerData =>
    exact hother (fun _ => rfl) ⟨nofun, nofun, nofun, nofun⟩

/-- **Between calls every reference has exactly one holder**: the Timeslot references are
the two open sessions, MPSL's clients are these and the 24 MHz clock, and MPSL is
initialised while the controller is enabled or a client is left. `mpsl_uninit` is never
called otherwise. -/
theorem references_exact {hw : Hardware} {radio : Radio} {timer0 : Timer0}
    {c : Config Machine Query Answer Ret}
    (h : Reachable (openSessions V) (Machine.reset hw radio timer0) c) (hl : c.live = true) :
    (c.stack = [] →
      c.state.pf.timeslotReferences = c.state.ts.sessionOpen.toNat + c.state.rram.opened.toNat ∧
      c.state.pf.timeslotReferences ≤ 2 ∧
      c.state.pf.mpslClientReferences =
        c.state.pf.timeslotReferences + c.state.pf.hfclk24mReferences ∧
      (c.state.pf.enabled = true ∨ c.state.pf.mpslClientReferences ≠ 0 →
        c.state.pf.mpslInitialized = true)) ∧
    ∀ n ∈ c.state.ghost.calls, n.call = .mpslUninit → n.enabled = false ∧ n.references = 0 := by
  have hk0 := sessionsKnown_reset hw radio timer0
  have h0 : LifetimeOk [] (held (Machine.reset hw radio timer0)) := by
    refine ⟨rfl, rfl, Nat.zero_le 2, Nat.zero_le 1, ?_, nofun, nofun⟩
    rintro (he | hc)
    · cases he
    · exact absurd rfl hc
  obtain ⟨_, hd⟩ := run_inv ((openSessions_known V).and (lifetime_keeps V))
    (I := fun ctx m => SessionsKnown ctx m ∧ LifetimeOk ctx (held m)) ⟨hk0, h0⟩ h hl
  refine ⟨fun hs => ?_, fun n hn hu => ?_⟩
  · have hq : c.queries = [] := by
      unfold Config.queries
      rw [hs]
      rfl
    rw [hq] at hd
    exact ⟨hd.timeslot, hd.bounded, hd.client, hd.initialized⟩
  · refine hd.uninit n (List.mem_filter.mpr ⟨hn, ?_⟩)
    rw [hu]
    rfl

/-- Both sessions and the clock: three clients of MPSL. -/
theorem references_exact_three : ∃ c,
    Reachable (openSessions .nrfxlib) (Machine.reset {} {} {}) c ∧
      c.state.pf.timeslotReferences = 2 ∧ c.state.pf.mpslClientReferences = 3 := by
  obtain ⟨c, h, hf⟩ := reachable_of_run (openSessions .nrfxlib) (.reset {} {} {})
    (calls [enabled, (.timeslotOpen (some 7) 0, 2, ⟨.actionNone, 0, 0⟩),
      (.rramSubmit (some ⟨0, 4096⟩) 0 true 16, 2, ⟨.actionNone, 0, 0⟩),
      (.hfclk24mRequest, 2, ⟨.actionNone, 0, 0⟩)])
    (fun c => c.live && c.stack.isEmpty && c.state.ts.sessionOpen && c.state.rram.opened &&
      c.state.pf.hfclk24mReferences == 1)
    (by decide +kernel)
  simp only [Bool.and_eq_true, beq_iff_eq, List.isEmpty_iff] at hf
  obtain ⟨⟨⟨⟨hl, hs⟩, ht⟩, hr⟩, hc⟩ := hf
  obtain ⟨h1, _, h2, _⟩ := (references_exact .nrfxlib h hl).1 hs
  rw [ht, hr] at h1
  have hone : true.toNat = 1 := rfl
  exact ⟨c, h, by omega, by omega⟩

end NrfKit.Firmware
