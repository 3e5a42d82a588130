import NrfKit.Firmware.Controller

/- The balance of the entropy driver. `nrfkit_sdc_enable` initialises CRACEN after it has
   registered the entropy source, `nrfkit_sdc_disable` uninitialises it. Three failing steps
   share one failure branch, which uninitialises the driver whichever of them failed; where
   the source or the driver itself failed there is nothing to undo (`uninit_unmatched`). The
   driver is balanced exactly where these two have not failed (`driver_balanced`). -/
namespace NrfKit.Firmware
open Interleave

variable (V : Vendor)

/-! ## The record of the driver -/

/-- How often the driver is initialised; nothing after an `nrfx_cracen_uninit` that undoes
nothing. -/
def driverStep : Option Nat → CallNote → Option Nat
  | none, _ => none
  | some d, n =>
    if n.call = .cracenInit ∧ n.result = 0 then some (d + 1)
    else if n.call = .cracenUninit then if d = 0 then none else some (d - 1)
    else some d

def driver (calls : List CallNote) : Option Nat := calls.foldl driverStep (some 0)

/-- The entropy source and the driver have not failed. -/
def EntropyAccepted (calls : List CallNote) : Prop :=
  ∀ n ∈ calls, n.call = .randSourceRegister ∨ n.call = .cracenInit → n.result = 0

def VendorCall.entropy (call : VendorCall) : Bool :=
  call == .randSourceRegister || call == .cracenInit || call == .cracenUninit

def entropyCalls (calls : List CallNote) : List CallNote := calls.filter (fun n => n.call.entropy)

/-- What the driver's balance depends on. -/
structure Entropy where
  enabled : Bool
  calls : List CallNote

def entropy (m : Machine) : Entropy := ⟨m.pf.enabled, entropyCalls m.ghost.calls⟩

section
variable {calls : List CallNote} {n : CallNote}

@[simp] theorem driver_append : driver (calls ++ [n]) = driverStep (driver calls) n := by
  simp [driver]

@[simp] theorem entropyAccepted_append : EntropyAccepted (calls ++ [n]) ↔
    EntropyAccepted calls ∧
    (n.call = .randSourceRegister ∨ n.call = .cracenInit → n.result = 0) := by
  simp only [EntropyAccepted, List.forall_mem_append, List.forall_mem_singleton]

theorem driver_entropyCalls (calls : List CallNote) :
    driver (entropyCalls calls) = driver calls := by
  have hfold : ∀ (calls : List CallNote) (d : Option Nat),
      (entropyCalls calls).foldl driverStep d = calls.foldl driverStep d := by
    intro calls
    induction calls with
    | nil => exact fun _ => rfl
    | cons n calls ih =>
      intro d
      unfold entropyCalls at ih ⊢
      rw [List.filter_cons, List.foldl_cons]
      split
      · rw [List.foldl_cons, ih]
      · rename_i hother
        have hsame : driverStep d n = d := by
          unfold VendorCall.entropy at hother
          cases d with
          | none => rfl
          | some d => simp_all [driverStep]
        rw [hsame, ih]
  exact hfold calls (some 0)

theorem entropyAccepted_entropyCalls :
    EntropyAccepted (entropyCalls calls) ↔ EntropyAccepted calls := by
  constructor
  · intro h n hn hcall
    refine h n (List.mem_filter.mpr ⟨hn, ?_⟩) hcall
    rcases hcall with hcall | hcall <;> simp [VendorCall.entropy, hcall]
  · exact fun h n hn => h n (List.mem_filter.mp hn).1

end

/-! ## While it is started -/

/-- What a waiting call relies on: the controller is disabled while it is brought up, and enabled
while it is disabled. -/
def Query.expects : Query → Option Bool
  | .vendor c | .within c _ => match c with
    | .mpslInit | .timeslotSessionCountSet | .hfclkLatencySet | .sdcInit | .cfgSet
    | .randSourceRegister | .cracenInit | .sdcEnable => some false
    | .sdcDisable => some true
    | _ => none
  | _ => none

/-- The driver is initialised and the controller not yet enabled. -/
def Query.started : Query → Nat
  | .within .cracenInit _ | .vendor .sdcEnable | .within .sdcEnable _ => 1
  | _ => 0

/-- The source or the driver has failed, and the failure branch comes next. -/
def Query.failing : Query → Bool
  | .within .randSourceRegister r | .within .cracenInit r => r != 0
  | _ => false

structure EntropyOk (ctx : List Query) (d : Entropy) : Prop where
  balanced : EntropyAccepted d.calls →
    driver d.calls = some (d.enabled.toNat + (ctx.map Query.started).sum)
  lost : ¬ EntropyAccepted d.calls → driver d.calls = none ∨ ∃ q ∈ ctx, q.failing = true
  undone : ∀ q ∈ ctx, q.failing = true →
    ¬ EntropyAccepted d.calls ∧ (driver d.calls = some 0 ∨ driver d.calls = none)
  expected : ∀ q ∈ ctx, ∀ b, q.expects = some b → d.enabled = b

/-- Nothing of the driver waits. -/
def Unexpecting (q : Query) : Prop := q.expects = none

section
variable {q : Query} {ctx : List Query} {d : Entropy}

theorem Unexpecting.quiet (h : Unexpecting q) : q.started = 0 ∧ q.failing = false := by
  cases q with
  | vendor c | within c r => cases c <;> first | exact ⟨rfl, rfl⟩ | cases h
  | _ => exact ⟨rfl, rfl⟩

theorem unexpecting_other (h : level q ≠ 2) : Unexpecting q := by
  cases q with
  | vendor c | within c r => cases c <;> first | rfl | exact absurd rfl h
  | _ => rfl

theorem entropyOk_quiet (hq : Unexpecting q) : EntropyOk (q :: ctx) d ↔ EntropyOk ctx d := by
  obtain ⟨hstarted, hfailing⟩ := hq.quiet
  unfold Unexpecting at hq
  constructor
  · rintro ⟨h1, h2, h3, h4⟩
    simp only [List.map_cons, List.sum_cons, List.mem_cons, exists_eq_or_imp, forall_eq_or_imp,
      hstarted, hfailing, hq, Nat.zero_add, Bool.false_eq_true, false_or, false_imp_iff, true_and,
      reduceCtorEq, forall_const] at h1 h2 h3 h4
    exact ⟨h1, h2, h3, h4⟩
  · rintro ⟨h1, h2, h3, h4⟩
    refine ⟨?_, ?_, ?_, ?_⟩
    all_goals simp only [List.map_cons, List.sum_cons, List.mem_cons, exists_eq_or_imp,
      forall_eq_or_imp, hstarted, hfailing, hq,
      Nat.zero_add, Bool.false_eq_true, false_or, false_imp_iff, true_and,
        reduceCtorEq, forall_const]
    · exact h1
    · exact h2
    · exact h3
    · exact h4

/-- Where no API call waits, nothing is started, failing or expected. -/
theorem no_entropy (hb : ∀ q ∈ ctx, level q ≠ 2) : (ctx.map Query.started).sum = 0 ∧
    (∀ q ∈ ctx, q.failing = false) ∧ ∀ q ∈ ctx, q.expects = none := by
  refine ⟨List.sum_eq_zero_iff_forall_eq_nat.mpr fun x hx => ?_, fun q hq => ?_,
    fun q hq => unexpecting_other (hb q hq)⟩
  · obtain ⟨q, hq, rfl⟩ := List.mem_map.mp hx
    exact (unexpecting_other (hb q hq)).quiet.1
  · exact (unexpecting_other (hb q hq)).quiet.2

/-- Between the calls: balanced, or lost. -/
def Balanced (enabled : Bool) (calls : List CallNote) : Prop :=
  (EntropyAccepted calls → driver calls = some enabled.toNat) ∧
  (¬ EntropyAccepted calls → driver calls = none)

theorem entropyOk_between (hb : ∀ q ∈ ctx, level q ≠ 2) :
    EntropyOk ctx d ↔ Balanced d.enabled d.calls := by
  obtain ⟨hsum, hfailing, hexpects⟩ := no_entropy hb
  constructor
  · rintro ⟨h1, h2, _, _⟩
    rw [hsum] at h1
    refine ⟨h1, fun ha => (h2 ha).resolve_right ?_⟩
    rintro ⟨q, hq, h⟩
    exact absurd ((hfailing q hq).symm.trans h) nofun
  · rintro ⟨h1, h2⟩
    refine ⟨by rwa [hsum], fun ha => Or.inl (h2 ha), fun q hq h => ?_, fun q hq b h => ?_⟩
    · exact absurd ((hfailing q hq).symm.trans h) nofun
    · exact absurd ((hexpects q hq).symm.trans h) nofun

/-- While one of the two functions waits. -/
theorem entropyOk_cons {b : Bool} (hq : q.expects = some b) (hb : ∀ q ∈ ctx, level q ≠ 2) :
    EntropyOk (q :: ctx) d ↔
    d.enabled = b ∧ (EntropyAccepted d.calls → driver d.calls = some (b.toNat + q.started)) ∧
      (¬ EntropyAccepted d.calls → driver d.calls = none ∨ q.failing = true) ∧
      (q.failing = true → ¬ EntropyAccepted d.calls ∧
        (driver d.calls = some 0 ∨ driver d.calls = none)) := by
  obtain ⟨hsum, hfailing, hexpects⟩ := no_entropy hb
  constructor
  · rintro ⟨h1, h2, h3, h4⟩
    have he := h4 q List.mem_cons_self b hq
    rw [List.map_cons, List.sum_cons, hsum, he] at h1
    refine ⟨he, h1, fun ha => (h2 ha).imp_right ?_, h3 q List.mem_cons_self⟩
    rintro ⟨q', hq', h⟩
    rcases List.mem_cons.mp hq' with rfl | hq'
    · exact h
    · exact absurd ((hfailing q' hq').symm.trans h) nofun
  · rintro ⟨he, h1, h2, h3⟩
    refine ⟨?_, fun ha => (h2 ha).imp_right fun h => ⟨q, List.mem_cons_self, h⟩,
      List.forall_mem_cons.mpr ⟨h3, fun q' hq' h => ?_⟩,
        List.forall_mem_cons.mpr ⟨fun b' h => ?_, fun q' hq' b' h => ?_⟩⟩
    · rw [List.map_cons, List.sum_cons, hsum, he]
      exact h1
    · exact absurd ((hfailing q' hq').symm.trans h) nofun
    · exact he.trans (Option.some.inj (hq.symm.trans h))
    · exact absurd ((hexpects q' hq').symm.trans h) nofun

end

/-! ## Programs that leave the driver alone -/

section
variable {α : Type} {m m' : Machine}

theorem entropy_noteCall {call : VendorCall} (h : call.entropy = false) (m : Machine)
    (result : Int) :
    entropy (m.noteCall call result) = entropy m := by
  simp [entropy, entropyCalls, Machine.noteCall, h]

@[simp] theorem entropy_releaseMpsl : entropy (releaseMpsl m) = entropy m := by
  have hnote := entropy_noteCall (by exact (rfl : VendorCall.mpslUninit.entropy = false)) m 0
  unfold releaseMpsl stopGrtc
  split
  · rfl
  · dsimp only
    split <;> exact hnote

@[simp] theorem entropy_releaseIfUnused : entropy (releaseIfUnused m) = entropy m := by
  unfold releaseIfUnused
  split
  · exact entropy_releaseMpsl
  · rfl

/-- A program that leaves the driver alone. -/
abbrev EntropyFramed (m : Machine) (t : FTurn α) : Prop := t.Framed Unexpecting entropy (entropy m)

theorem entropy_call {call : VendorCall} {k : VendorReply → Machine → FTurn α}
    (hc : call.part = .platform) (hq : Unexpecting (.vendor call)) (hn : call.entropy = false)
    (hx : entropy m' = entropy m) (hk : ∀ reply m, EntropyFramed m (k reply m)) :
    EntropyFramed m (vendorCall call m' k) := by
  refine ⟨hq, hx, fun reply m1 => ⟨hq, ?_, fun _ m2 => hk reply m2⟩⟩
  rw [vendorEffect_platform hc]
  exact entropy_noteCall hn m1 reply.result

/-- The functions that bring the controller up and down. -/
def Entry.drives : Entry → Bool
  | .sdcRequiredMemory _ _ | .sdcEnable _ _ _ | .sdcDisable => true
  | _ => false

/-- **The others leave the driver alone.** -/
theorem entropy_program {e : Entry} (he : e.drives = false)
    (m : Machine) : EntropyFramed m (program V e m) := by
  -- What belongs to the sessions leaves the whole view of the platform alone, and the driver with
  -- it.
  have hclient : e.part ≠ some .platform → EntropyFramed m (program V e m) := by
    intro hp
    have hview : ∀ m : Machine,
        (⟨(clientView m).1.enabled, entropyCalls (clientView m).2⟩ : Entropy) = entropy m := by
      intro m
      unfold clientView entropy entropyCalls platformCalls
      rw [List.filter_filter]
      congr 1
      apply List.filter_congr
      intro n _
      cases hc : n.call <;> rfl
    have hwaits : ∀ q, e.Waits q → Unexpecting q := by
      intro q hq
      cases q with
      | vendor c | within c r =>
        cases c with
        | mpslInit | timeslotSessionCountSet | hfclkLatencySet | sdcInit | cfgSet
        | randSourceRegister | cracenInit | sdcEnable | sdcDisable => exact absurd hq.1 hp
        | _ => rfl
      | _ => rfl
    have h := (framed_client (V := V) hp m).mono hwaits fun x =>
      (⟨x.1.enabled, entropyCalls x.2⟩ : Entropy)
    simp only [hview] at h
    exact h
  cases e with
  | sdcRequiredMemory | sdcEnable | sdcDisable => cases he
  | sdcProcess =>
    refine framed_map (framed_bind (fun _ m => ?_) ?_)
    · split
      · exact entropy_releaseMpsl
      · rfl
    · split
      · exact entropy_call rfl rfl rfl rfl fun _ m => rfl
      · rfl
  | hfclk24mRequest =>
    refine framed_map ?_
    unfold nrfkitMpslHfclk24mRequest
    split
    · rfl
    · refine entropy_call rfl rfl rfl rfl fun src m => ?_
      split <;> rfl
  | hfclk24mIsRunning out =>
    refine framed_map ?_
    unfold nrfkitMpslHfclk24mIsRunning
    split
    · rfl
    · exact entropy_call rfl rfl rfl rfl fun _ m => rfl
  | hfclk24mRelease =>
    refine framed_map ?_
    unfold nrfkitMpslHfclk24mRelease
    split
    · rfl
    · refine entropy_call rfl rfl rfl rfl fun src m => ?_
      split <;> rfl
  | _ => exact hclient nofun

end

/-! ## The two functions -/

section
variable {α : Type} {ctx : List Query} {m : Machine} {sys : System Machine Query Answer Entry Ret}
  {J : List Query → Machine → Prop}

/-- A program under the invariant. -/
abbrev KeepsDriver (sys : System Machine Query Answer Entry Ret) (J : List Query → Machine → Prop)
    (ctx : List Query) (post : α → Machine → Prop) (t : FTurn α) : Prop :=
  t.Sat sys J (fun ctx m => EntropyOk ctx (entropy m)) ctx post

/-- The frame rule. -/
theorem keeps_framed {t : FTurn α} (h : EntropyOk ctx (entropy m)) (ht : EntropyFramed m t) :
    KeepsDriver sys J ctx (fun _ m => EntropyOk ctx (entropy m)) t := by
  refine sat_framed (I := fun ctx m => EntropyOk ctx (entropy m)) (fun ctx m m' hm h => ?_)
    (fun q ctx m hq => entropyOk_quiet hq) h ht
  rw [hm]
  exact h

/-- The record of one more call. -/
theorem entropy_noted {call : VendorCall} (hc : call.part = .platform)
    (he : call.entropy = true) (m : Machine) (reply : VendorReply) :
    entropy ((m.vendorEffect call reply).noteCall call reply.result) =
      ⟨(entropy m).enabled,
        (entropy m).calls ++ [⟨call, reply.result, m.pf.enabled, m.pf.mpslClientReferences⟩]⟩ := by
  rw [vendorEffect_platform hc]
  simp [entropy, entropyCalls, Machine.noteCall, he]

/-- Started `n` times, or lost. -/
def Started (n : Nat) (d : Entropy) : Prop :=
  d.enabled = false ∧ (EntropyAccepted d.calls → driver d.calls = some n) ∧
  (¬ EntropyAccepted d.calls → driver d.calls = none)

/-- The source or the driver has failed. -/
def Failed (d : Entropy) : Prop :=
  d.enabled = false ∧ ¬ EntropyAccepted d.calls ∧ (driver d.calls = some 0 ∨ driver d.calls = none)

/-- A query of `nrfkit_sdc_enable` that knows of no failure. -/
theorem entropyOk_started {q : Query} {d : Entropy} (hq : q.expects = some false)
    (hf : q.failing = false) (hb : ∀ q ∈ ctx, level q ≠ 2) :
    EntropyOk (q :: ctx) d ↔ Started q.started d := by
  rw [entropyOk_cons hq hb, hf]
  simp [Started]

/-- One that knows of one. -/
theorem entropyOk_failed {q : Query} {d : Entropy} (hq : q.expects = some false)
    (hf : q.failing = true) (hb : ∀ q ∈ ctx, level q ≠ 2) : EntropyOk (q :: ctx) d ↔ Failed d := by
  rw [entropyOk_cons hq hb]
  constructor
  · rintro ⟨he, _, _, h⟩
    exact ⟨he, h hf⟩
  · rintro ⟨he, hna, hd⟩
    exact ⟨he, fun ha => absurd ha hna, fun _ => Or.inr hf, fun _ => ⟨hna, hd⟩⟩

/-- The source or the driver answers: where it succeeds the count goes on, and a failure is on
record. -/
theorem started_noted {call : VendorCall} (hc : call = .randSourceRegister ∨ call = .cracenInit)
    {calls : List CallNote} {n : CallNote} (hn : n.call = call) (h : Started 0 ⟨false, calls⟩) :
    (n.result = 0 → Started (Query.started (.within call 0)) ⟨false, calls ++ [n]⟩) ∧
      (n.result ≠ 0 → Failed ⟨false, calls ++ [n]⟩) := by
  obtain ⟨_, hstarted, hlost⟩ := h
  have haccepted : EntropyAccepted (calls ++ [n]) ↔ EntropyAccepted calls ∧ n.result = 0 := by
    rw [entropyAccepted_append, hn]
    exact and_congr_right fun _ => ⟨fun h => h hc, fun h _ => h⟩
  unfold Started Failed
  dsimp only at hstarted hlost ⊢
  rw [haccepted, driver_append]
  refine ⟨fun hr => ⟨rfl, fun ha => ?_, fun hna => ?_⟩, fun hr => ⟨rfl, fun ha => hr ha.2, ?_⟩⟩
  · rw [hstarted ha.1]
    rcases hc with rfl | rfl <;> simp [driverStep, hn, hr, Query.started]
  · rw [hlost fun ha => hna ⟨ha, hr⟩]
    rfl
  · by_cases ha : EntropyAccepted calls
    · rw [hstarted ha]
      rcases hc with rfl | rfl <;> simp [driverStep, hn, hr]
    · rw [hlost ha]
      exact Or.inr rfl

/-- A step that may fail: the source is registered, or the driver initialised. -/
theorem call_driver {call : VendorCall} {k : VendorReply → Machine → FTurn α}
    {post : α → Machine → Prop} (hc : call = .randSourceRegister ∨ call = .cracenInit)
    (hb : ∀ q ∈ ctx, level q ≠ 2) (h : Started 0 (entropy m))
    (hok : ∀ reply m, reply.result = 0 → Started (Query.started (.within call 0)) (entropy m) →
      KeepsDriver sys J ctx post (k reply m))
    (hfail : ∀ reply m, reply.result ≠ 0 → Failed (entropy m) →
      KeepsDriver sys J ctx post (k reply m)) :
    KeepsDriver sys J ctx post (vendorCall call m k) := by
  have hvendor : (Query.vendor call).expects = some false ∧ (Query.vendor call).failing = false ∧
      (Query.vendor call).started = 0 ∧ call.part = .platform ∧ call.entropy = true := by
    rcases hc with rfl | rfl <;> exact ⟨rfl, rfl, rfl, rfl, rfl⟩
  have hwithin : ∀ r, (Query.within call r).expects = some false ∧
      (Query.within call r).failing = (r != 0) ∧
      Query.started (.within call r) = Query.started (.within call 0) := by
    intro r
    rcases hc with rfl | rfl <;> exact ⟨rfl, rfl, rfl⟩
  obtain ⟨hexp, hnofail, hnone, hpart, hentropy⟩ := hvendor
  refine sat_wait.mpr ⟨(entropyOk_started hexp hnofail hb).mpr (hnone ▸ h),
    fun reply m1 _ h1 _ => ?_⟩
  obtain ⟨hexp', hfailing, hcount⟩ := hwithin reply.result
  by_cases hr : reply.result = 0
  · have hno : (Query.within call reply.result).failing = false := by
      rw [hfailing]
      simp [hr]
    refine sat_wait.mpr ⟨(entropyOk_started hexp' hno hb).mpr ?_, fun _ m2 _ h2 _ => ?_⟩
    · have h1 := (entropyOk_started hexp hnofail hb).mp h1
      rw [entropy_noted hpart hentropy, h1.1, hcount]
      rw [hnone] at h1
      exact (started_noted hc rfl (h1.1 ▸ h1)).1 hr
    · exact hok reply m2 hr (hcount ▸ (entropyOk_started hexp' hno hb).mp h2)
  · have hyes : (Query.within call reply.result).failing = true := by
      rw [hfailing]
      simp [hr]
    refine sat_wait.mpr ⟨(entropyOk_failed hexp' hyes hb).mpr ?_, fun _ m2 _ h2 _ => ?_⟩
    · have h1 := (entropyOk_started hexp hnofail hb).mp h1
      rw [entropy_noted hpart hentropy, h1.1]
      rw [hnone] at h1
      exact (started_noted hc rfl (h1.1 ▸ h1)).2 hr
    · exact hfail reply m2 hr ((entropyOk_failed hexp' hyes hb).mp h2)

theorem startController_driver (hb : ∀ q ∈ ctx, level q ≠ 2) (h : Started 0 (entropy m)) :
    KeepsDriver sys J ctx (fun r m => Started 1 (entropy m) ∨ r ≠ 0 ∧ Failed (entropy m))
      (startController m) := by
  unfold startController
  refine call_driver (Or.inl rfl) hb h (fun rand m hr h => ?_) (fun rand m hr h => ?_)
  · rw [if_pos hr]
    refine call_driver (Or.inr rfl) hb h (fun cracen m hr h => ?_) (fun cracen m hr h => ?_)
    · rw [if_pos hr]
      refine sat_wait.mpr ⟨(entropyOk_started rfl rfl hb).mpr h, fun sdc m1 _ h1 _ =>
        sat_wait.mpr ⟨(entropyOk_started rfl rfl hb).mpr ?_, fun _ m2 _ h2 _ => ?_⟩⟩
      · rw [vendorEffect_platform rfl, entropy_noteCall rfl]
        exact (entropyOk_started (q := .vendor .sdcEnable) rfl rfl hb).mp h1
      · exact Or.inl ((entropyOk_started rfl rfl hb).mp h2)
    · rw [if_neg hr]
      exact Or.inr ⟨hr, h⟩
  · rw [if_neg hr]
    exact Or.inr ⟨hr, h⟩

/-- The shared failure branch undoes the driver, or one that was never initialised. -/
theorem uninit_driver (hb : ∀ q ∈ ctx, level q ≠ 2)
    (h : Started 1 (entropy m) ∨ Failed (entropy m)) :
    EntropyOk ctx (entropy (m.callVoid .cracenUninit)) := by
  have hnoted : entropy (m.callVoid .cracenUninit) =
      ⟨(entropy m).enabled,
        (entropy m).calls ++ [⟨.cracenUninit, 0, m.pf.enabled, m.pf.mpslClientReferences⟩]⟩ := by
    simp [entropy, entropyCalls, Machine.callVoid, Machine.noteCall, VendorCall.entropy]
  have haccepted : ∀ {calls : List CallNote} {e : Bool} {r : Nat},
      EntropyAccepted (calls ++ [⟨.cracenUninit, 0, e, r⟩]) ↔ EntropyAccepted calls := by simp
  refine (entropyOk_between hb).mpr ?_
  rw [hnoted]
  unfold Balanced
  rw [haccepted, driver_append]
  rcases h with ⟨he, hstarted, hlost⟩ | ⟨he, hna, hd⟩
  · rw [he]
    refine ⟨fun ha => ?_, fun hna => ?_⟩
    · rw [hstarted ha]
      rfl
    · rw [hlost hna]
      rfl
  · refine ⟨fun ha => absurd ha hna, fun _ => ?_⟩
    rcases hd with hd | hd <;> rw [hd] <;> rfl

theorem enableInitialized_driver {size : Nat} {result : Int} (hb : ∀ q ∈ ctx, level q ≠ 2)
    (h : Started 0 (entropy m)) :
    KeepsDriver sys J ctx (fun _ m => EntropyOk ctx (entropy m))
      (enableInitialized V size result m) := by
  have hok : EntropyOk ctx (entropy m) := by
    refine (entropyOk_between hb).mpr ?_
    rw [h.1]
    exact h.2
  unfold enableInitialized
  split
  · exact hok
  split
  · refine sat_done.mpr ?_
    rw [entropy_releaseIfUnused]
    exact hok
  refine sat_bind.mpr (sat_mono (fun result m hm => ?_) (startController_driver hb h))
  split
  · refine sat_done.mpr ?_
    rw [entropy_releaseIfUnused]
    exact uninit_driver hb (hm.imp_right And.right)
  · rename_i hr
    obtain ⟨_, hstarted, hlost⟩ := hm.resolve_right fun hf => hr hf.1
    exact (entropyOk_between hb).mpr ⟨hstarted, hlost⟩

/-- A step before the source is registered. -/
theorem call_started {call : VendorCall} {k : VendorReply → Machine → FTurn α}
    {post : α → Machine → Prop} (hc : call.part = .platform)
    (hn : call.entropy = false) (hq : (Query.vendor call).expects = some false)
    (hs : ∀ r, (Query.vendor call).started = 0 ∧ (Query.within call r).started = 0)
    (hf : ∀ r, (Query.vendor call).failing = false ∧ (Query.within call r).failing = false)
    (hb : ∀ q ∈ ctx, level q ≠ 2) (h : Started 0 (entropy m))
    (hk : ∀ reply m, Started 0 (entropy m) → KeepsDriver sys J ctx post (k reply m)) :
    KeepsDriver sys J ctx post (vendorCall call m k) := by
  have hvendor : ∀ d, EntropyOk (.vendor call :: ctx) d ↔ Started 0 d := by
    intro d
    rw [entropyOk_started hq (hf 0).1 hb, (hs 0).1]
  have hwithin : ∀ r d, EntropyOk (.within call r :: ctx) d ↔ Started 0 d := by
    intro r d
    rw [entropyOk_started (q := .within call r) hq (hf r).2 hb, (hs r).2]
  refine sat_wait.mpr ⟨(hvendor _).mpr h, fun reply m1 _ h1 _ =>
    sat_wait.mpr ⟨(hwithin _ _).mpr ?_, fun _ m2 _ h2 _ => ?_⟩⟩
  · rw [vendorEffect_platform hc, entropy_noteCall hn]
    exact (hvendor _).mp h1
  · exact hk reply m2 ((hwithin _ _).mp h2)

theorem initializeLibraries_driver {config : Option SdcConfig} (hb : ∀ q ∈ ctx, level q ≠ 2)
    (h : Started 0 (entropy m)) :
    KeepsDriver sys J ctx (fun _ m => Started 0 (entropy m)) (initializeLibraries V config m) := by
  have hstart : entropy (initializeInterrupts (startGrtc m)) = entropy m := by
    unfold startGrtc
    dsimp only
    split <;> rfl
  have hstop : ∀ m : Machine, entropy (stopGrtc (disableInterrupts m)) = entropy m := by
    intro m
    obtain ⟨hw, hstop⟩ := stopGrtc_eq (disableInterrupts m)
    rw [hstop]
    rfl
  have hrelease : ∀ {m : Machine} {r : Int}, Started 0 (entropy m) →
      KeepsDriver sys J ctx (fun _ m => Started 0 (entropy m)) (.done (releaseMpsl m) r) := by
    intro m r h
    refine sat_done.mpr ?_
    rw [entropy_releaseMpsl]
    exact h
  unfold initializeLibraries
  cases config with
  | none => exact h
  | some config =>
    dsimp only
    repeat' split
    all_goals try exact h
    refine call_started rfl rfl rfl (fun _ => ⟨rfl, rfl⟩) (fun _ => ⟨rfl, rfl⟩) hb (hstart ▸ h)
      fun init m h => ?_
    split
    · refine sat_done.mpr ?_
      rw [hstop]
      exact h
    refine call_started rfl rfl rfl (fun _ => ⟨rfl, rfl⟩) (fun _ => ⟨rfl, rfl⟩) hb h
      fun count m h => ?_
    split
    · exact hrelease h
    refine call_started rfl rfl rfl (fun _ => ⟨rfl, rfl⟩) (fun _ => ⟨rfl, rfl⟩) hb h
      fun latency m h => ?_
    split
    · exact hrelease h
    unfold initializeController
    split
    · refine call_started rfl rfl rfl (fun _ => ⟨rfl, rfl⟩) (fun _ => ⟨rfl, rfl⟩) hb h
        fun sdc m h => ?_
      split
      · exact hrelease h
      refine call_started rfl rfl rfl (fun _ => ⟨rfl, rfl⟩) (fun _ => ⟨rfl, rfl⟩) hb h
        fun cfg m h => ?_
      split
      · exact hrelease h
      · exact h
    · exact h

/-- The libraries are initialised only while the controller is disabled. -/
theorem started_disabled (hb : ∀ q ∈ ctx, level q ≠ 2) (he : m.pf.enabled = false)
    (h : EntropyOk ctx (entropy m)) :
    Started 0 (entropy m) := by
  have hbalanced := (entropyOk_between hb).mp h
  rw [show (entropy m).enabled = false from he] at hbalanced
  exact ⟨he, hbalanced⟩

theorem sdcRequiredMemory_driver {config : Option SdcConfig} {out : Bool}
    (hb : ∀ q ∈ ctx, level q ≠ 2) (h : EntropyOk ctx (entropy m)) :
    KeepsDriver sys J ctx (fun _ m => EntropyOk ctx (entropy m))
      (nrfkitSdcRequiredMemory V config out m) := by
  rw [sdcRequiredMemory_eq]
  split
  · exact h
  · rename_i hfree
    have he : m.pf.enabled = false := by
      cases he : m.pf.enabled with
      | false => rfl
      | true => simp [he] at hfree
    refine sat_bind.mpr
      (sat_mono (fun result m h => ?_) (initializeLibraries_driver V hb (started_disabled hb he h)))
    have hok : EntropyOk ctx (entropy m) := by
      refine (entropyOk_between hb).mpr ?_
      rw [h.1]
      exact h.2
    unfold requireInitialized
    split
    · exact hok
    · refine sat_done.mpr ?_
      rw [entropy_releaseIfUnused]
      exact hok

theorem sdcEnable_driver {config : Option SdcConfig} {memory : Option Nat} {size : Nat}
    (hb : ∀ q ∈ ctx, level q ≠ 2) (h : EntropyOk ctx (entropy m)) :
    KeepsDriver sys J ctx (fun _ m => EntropyOk ctx (entropy m))
      (nrfkitSdcEnable V config memory size m) := by
  rw [sdcEnable_eq]
  split
  · exact h
  · rename_i hfree
    have he : m.pf.enabled = false := by
      cases he : m.pf.enabled with
      | false => rfl
      | true => simp [he] at hfree
    exact sat_bind.mpr (sat_mono (fun result m h => enableInitialized_driver V hb h)
      (initializeLibraries_driver V hb (started_disabled hb he h)))

theorem sdcDisable_driver (hb : ∀ q ∈ ctx, level q ≠ 2) (h : EntropyOk ctx (entropy m)) :
    KeepsDriver sys J ctx (fun _ m => EntropyOk ctx (entropy m)) (nrfkitSdcDisable V m) := by
  have hwaits : ∀ {d : Entropy} {q : Query}, q.expects = some true → q.started = 0 →
      q.failing = false → (EntropyOk (q :: ctx) d ↔ d.enabled = true ∧ Balanced true d.calls) := by
    intro d q hq hs hf
    rw [entropyOk_cons hq hb, hs, hf]
    simp [Balanced]
  unfold nrfkitSdcDisable
  split
  · exact h
  rename_i hen
  have hen : m.pf.enabled = true := by simpa using hen
  have hbalanced := (entropyOk_between hb).mp h
  rw [show (entropy m).enabled = true from hen] at hbalanced
  refine sat_wait.mpr ⟨(hwaits rfl rfl rfl).mpr ⟨hen, hbalanced⟩, fun sdc m1 _ h1 _ =>
    sat_wait.mpr ⟨(hwaits rfl rfl rfl).mpr ?_, fun _ m2 _ h2 _ => ?_⟩⟩
  · rw [vendorEffect_platform rfl, entropy_noteCall rfl]
    exact (hwaits (q := .vendor .sdcDisable) rfl rfl rfl).mp h1
  obtain ⟨hen, hbalanced⟩ := (hwaits rfl rfl rfl).mp h2
  dsimp only
  split
  · refine (entropyOk_between hb).mpr ?_
    rw [hen]
    exact hbalanced
  · refine sat_done.mpr ?_
    rw [entropy_releaseIfUnused]
    refine uninit_driver hb (Or.inl ?_)
    split <;> exact ⟨rfl, hbalanced⟩

end

/-- The step lemma. -/
theorem driver_keeps : Keeps (firmware V) Any (fun ctx m => EntropyOk ctx (entropy m)) := by
  intro ctx e m _ h he
  have hlow := above_iff.mp he
  have hframed : e.drives = false →
      KeepsDriver (firmware V) Any ctx (fun _ m => EntropyOk ctx (entropy m)) (program V e m) :=
    fun hd => keeps_framed h (entropy_program V hd m)
  cases e with
  | sdcRequiredMemory config out =>
    exact sat_map.mpr (sdcRequiredMemory_driver V (fun q hq => Nat.ne_of_lt (hlow q hq)) h)
  | sdcEnable config memory size =>
    exact sat_map.mpr (sdcEnable_driver V (fun q hq => Nat.ne_of_lt (hlow q hq)) h)
  | sdcDisable => exact sat_map.mpr (sdcDisable_driver V (fun q hq => Nat.ne_of_lt (hlow q hq)) h)
  | _ => exact hframed rfl

/-! ## The balance -/

section
variable {V} {hw : Hardware} {radio : Radio} {timer0 : Timer0} {c : Config Machine Query Answer Ret}

/-- **The driver is balanced exactly while the source and the driver do not fail.** Then every
`nrfx_cracen_uninit` undoes an initialisation, and with no API call waiting the driver is
initialised exactly while the controller is enabled. Once one of them has failed and its call
has returned, an `nrfx_cracen_uninit` has undone nothing. -/
theorem driver_balanced (h : Reachable (firmware V) (Machine.reset hw radio timer0) c)
    (hl : c.live = true) :
    (EntropyAccepted c.state.ghost.calls → driver c.state.ghost.calls ≠ none) ∧
    ((∀ q ∈ c.queries, level q ≠ 2) →
      (driver c.state.ghost.calls = some c.state.pf.enabled.toNat ↔
        EntropyAccepted c.state.ghost.calls)) := by
  have h0 : EntropyOk [] (entropy (Machine.reset hw radio timer0)) :=
    ⟨fun _ => rfl, fun hna => absurd (fun n hn => nomatch hn) hna, nofun, nofun⟩
  have hok : EntropyOk c.queries (entropy c.state) :=
    run_inv (driver_keeps V) (I := fun ctx m => EntropyOk ctx (entropy m)) h0 h hl
  have hdriver : driver (entropy c.state).calls = driver c.state.ghost.calls :=
    driver_entropyCalls _
  have haccepted : EntropyAccepted (entropy c.state).calls ↔ EntropyAccepted c.state.ghost.calls :=
    entropyAccepted_entropyCalls
  refine ⟨fun ha => ?_, fun hquiet => ⟨fun hd => ?_, fun ha => ?_⟩⟩
  · rw [← hdriver, hok.balanced (haccepted.mpr ha)]
    exact nofun
  · by_cases ha : EntropyAccepted c.state.ghost.calls
    · exact ha
    · have hlost := ((entropyOk_between hquiet).mp hok).2 (mt haccepted.mp ha)
      rw [hdriver, hd] at hlost
      cases hlost
  · rw [← hdriver]
    exact ((entropyOk_between hquiet).mp hok).1 (haccepted.mpr ha)

end

/-- Between calls, with the source and the driver accepted so far. -/
def entropySettled (c : Config Machine Query Answer Ret) : Bool :=
  c.live && c.stack.isEmpty &&
    c.state.ghost.calls.all fun n => !(n.call == .randSourceRegister || n.call == .cracenInit) ||
      n.result == 0

/-- The controller is enabled and the driver initialised once; then it is disabled, and
the driver uninitialised. -/
theorem driver_balanced_enabled : ∃ c d, Reachable (firmware .nrfxlib) (Machine.reset {} {} {}) c ∧
    Reachable (firmware .nrfxlib) (Machine.reset {} {} {}) d ∧
    c.state.pf.enabled = true ∧ driver c.state.ghost.calls = some 1 ∧
    d.state.pf.enabled = false ∧ d.state.ghost.calls.any (fun n => n.call == .cracenUninit) = true ∧
    driver d.state.ghost.calls = some 0 := by
  have hfollows : ∀ c, Reachable (firmware .nrfxlib) (Machine.reset {} {} {}) c →
      entropySettled c = true → driver c.state.ghost.calls = some c.state.pf.enabled.toNat := by
    intro c h hf
    simp only [entropySettled, Bool.and_eq_true, List.isEmpty_iff, List.all_eq_true] at hf
    obtain ⟨⟨hl, hst⟩, haccepted⟩ := hf
    have hquiet : ∀ q ∈ c.queries, level q ≠ 2 := by simp [Config.queries, hst]
    refine ((driver_balanced h hl).2 hquiet).mpr ?_
    intro n hn hcall
    have := haccepted n hn
    rcases hcall with hcall | hcall <;> simpa [hcall] using this
  obtain ⟨c, hc, hf⟩ := reachable_of_run (firmware .nrfxlib) (.reset {} {} {}) (calls [enabled])
    (fun c => entropySettled c && c.state.pf.enabled) (by decide +kernel)
  obtain ⟨d, hd, hg⟩ := reachable_of_run (firmware .nrfxlib) (.reset {} {} {})
    (calls [enabled, (.sdcDisable, 2, ⟨.actionNone, 0, 0⟩)])
    (fun d => entropySettled d && !d.state.pf.enabled && d.state.ghost.calls.any
      fun n => n.call == .cracenUninit)
    (by decide +kernel)
  obtain ⟨hcAccepted, hon⟩ := Bool.and_eq_true_iff.mp hf
  rw [Bool.and_eq_true, Bool.and_eq_true, Bool.not_eq_true'] at hg
  obtain ⟨⟨hdAccepted, hoff⟩, huninit⟩ := hg
  refine ⟨c, d, hc, hd, hon, ?_, hoff, huninit, ?_⟩
  · rw [hfollows c hc hcAccepted, hon]
    rfl
  · rw [hfollows d hd hdAccepted, hoff]
    rfl

/-- The source cannot be registered, and the driver is uninitialised all the same. -/
theorem uninit_unmatched : ¬ ∀ c, Reachable (firmware .nrfxlib) (Machine.reset {} {} {}) c →
    c.live = true → driver c.state.ghost.calls ≠ none := by
  intro hall
  obtain ⟨c, h, hf⟩ := reachable_of_run (firmware .nrfxlib) (.reset {} {} {})
    (failing (.sdcEnable (some exampleConfig) (some 8) 0) 12 .randSourceRegister (-1))
    (fun c => c.live && driver c.state.ghost.calls == none)
    (by decide +kernel)
  simp only [Bool.and_eq_true, beq_iff_eq] at hf
  exact hall c h hf.1 hf.2

end NrfKit.Firmware
