import NrfKit.Lib.Call
import NrfKit.Firmware.Frames

/- The controller's initialisation. SDC has no uninitialize operation, so `sdc_init` may
   succeed only once, and the configuration of that call is locked. `initialize_libraries`
   is entered from two functions and fails at any of its steps. No other function sets
   anything up (`quiet_program`); what holds while it is under way is said of the query it
   waits with (`SetupOk`). A failing `sdc_cfg_set` leaves a controller that is initialised
   but not marked so, and the next call repeats `sdc_init` (`init_repeated`). -/
namespace NrfKit.Firmware
open Interleave

variable (V : Vendor)

/-! ## What is set up once -/

/-- The calls that set the controller up. -/
def setupCalls (calls : List CallNote) : List CallNote :=
  calls.filter (fun n => n.call == .sdcInit || n.call == .cfgSet)

structure Setup where
  initialized : Bool
  config : SdcConfig
  memorySize : Nat
  calls : List CallNote

def setup (m : Machine) : Setup where
  initialized := m.pf.controllerInitialized
  config := m.pf.lockedConfig
  memorySize := m.pf.controllerMemorySize
  calls := setupCalls m.ghost.calls

/-- `initialize_libraries` waits, with MPSL up and the controller perhaps not. -/
def Query.initializing : Query → Bool
  | .vendor c | .within c _ => c == .timeslotSessionCountSet || c == .hfclkLatencySet ||
    c == .sdcInit || c == .cfgSet
  | _ => false

/-- The controller is being set up: it is not marked so. -/
def Query.settingUp : Query → Bool
  | .vendor c | .within c _ => c == .sdcInit || c == .cfgSet
  | _ => false

/-- The controller is initialised, and it is about to be marked so. -/
def Query.configures : Query → Bool
  | .within .sdcInit r => r == 0
  | .vendor .cfgSet => true
  | .within .cfgSet r => 0 ≤ r
  | _ => false

/-- The queries with which no setup is under way. -/
def Quiet (q : Query) : Prop := q.initializing = false

/-- Nothing is set up, and MPSL is not brought up. -/
def Unsettled (m m' : Machine) : Prop :=
  setup m' = setup m ∧ (m'.pf.mpslInitialized = true → m.pf.mpslInitialized = true)

section
variable {α : Type} {m m' : Machine}

theorem Unsettled.refl (m : Machine) : Unsettled m m := ⟨rfl, fun h => h⟩

theorem Unsettled.trans (m m1 m2 : Machine) (h : Unsettled m m1)
    (h1 : Unsettled m1 m2) : Unsettled m m2 :=
  ⟨h1.1.trans h.1, fun hup => h.2 (h1.2 hup)⟩

theorem Quiet.settingUp {q : Query} (h : Quiet q) : q.settingUp = false := by
  unfold Quiet Query.initializing at h
  unfold Query.settingUp
  cases q <;> simp_all

theorem configures_false {q : Query} (h : q.settingUp = false) : q.configures = false := by
  unfold Query.settingUp at h
  unfold Query.configures
  split <;> simp_all

theorem Quiet.configures {q : Query} (h : Quiet q) : q.configures = false :=
  configures_false h.settingUp

theorem setup_noteCall {call : VendorCall} (h : (Query.vendor call).settingUp = false) (m : Machine)
    (result : Int) :
    setup (m.noteCall call result) = setup m := by
  unfold Query.settingUp at h
  simp only [Bool.or_eq_false_iff] at h
  simp [setup, Machine.noteCall, setupCalls, h]

@[simp] theorem setup_releaseMpsl : setup (releaseMpsl m) = setup m := by
  have hnote := setup_noteCall (by exact (rfl : (Query.vendor .mpslUninit).settingUp = false)) m 0
  unfold releaseMpsl stopGrtc
  split
  · rfl
  · dsimp only
    split <;> exact hnote

theorem unsettled_releaseMpsl (h : Unsettled m m') : Unsettled m (releaseMpsl m') := by
  refine ⟨setup_releaseMpsl.trans h.1, fun hup => ?_⟩
  cases hinit : m'.pf.mpslInitialized with
  | true => exact h.2 hinit
  | false =>
    unfold releaseMpsl at hup
    rw [if_pos (by simp [hinit])] at hup
    exact h.2 hup

theorem unsettled_releaseIfUnused (h : Unsettled m m') : Unsettled m (releaseIfUnused m') := by
  unfold releaseIfUnused
  split
  · exact unsettled_releaseMpsl h
  · exact h

/-! ## The other functions -/

/-- A program that sets nothing up. -/
abbrev SetsNothing (m : Machine) (t : FTurn α) : Prop := t.Follows Quiet Unsettled m

theorem follows_call {call : VendorCall} {k : VendorReply → Machine → FTurn α}
    (hc : call.part = .platform) (hq : Quiet (.vendor call)) (hm : Unsettled m m')
    (hk : ∀ reply m, SetsNothing m (k reply m)) :
    SetsNothing m (vendorCall call m' k) := by
  refine ⟨hq, hm, fun reply m1 => ⟨hq, ?_, fun _ m2 => hk reply m2⟩⟩
  rw [vendorEffect_platform hc]
  exact ⟨setup_noteCall hq.settingUp m1 reply.result, fun h => h⟩

theorem follows_sdcProcess : SetsNothing m (nrfkitSdcProcess m) := by
  refine follows_bind Unsettled.trans (fun _ m => ?_) ?_
  · split
    · exact unsettled_releaseMpsl (.refl m)
    · exact .refl m
  · split
    · exact follows_call rfl rfl ⟨rfl, fun h => h⟩ fun _ m => .refl m
    · exact .refl m

theorem follows_sdcDisable : SetsNothing m (nrfkitSdcDisable V m) := by
  unfold nrfkitSdcDisable
  split
  · exact .refl m
  · refine follows_call rfl rfl (.refl m) fun sdc m => ?_
    split
    · exact .refl m
    · refine unsettled_releaseIfUnused ?_
      have hnote := setup_noteCall (by exact (rfl : (Query.vendor .cracenUninit).settingUp = false))
      split
      · exact ⟨hnote _ 0, fun h => h⟩
      · exact ⟨hnote _ 0, fun h => h⟩

theorem follows_hfclkRequest : SetsNothing m (nrfkitMpslHfclk24mRequest V m) := by
  unfold nrfkitMpslHfclk24mRequest
  split
  · exact .refl m
  · refine follows_call rfl rfl ⟨rfl, fun h => h⟩ fun src m => ?_
    split <;> exact ⟨rfl, fun h => h⟩

theorem follows_hfclkIsRunning {out : Bool} :
    SetsNothing m (nrfkitMpslHfclk24mIsRunning V out m) := by
  unfold nrfkitMpslHfclk24mIsRunning
  split
  · exact .refl m
  · exact follows_call rfl rfl (.refl m) fun _ m => .refl m

theorem follows_hfclkRelease : SetsNothing m (nrfkitMpslHfclk24mRelease V m) := by
  unfold nrfkitMpslHfclk24mRelease
  split
  · exact .refl m
  · refine follows_call rfl rfl (.refl m) fun src m => ?_
    split <;> exact ⟨rfl, fun h => h⟩

/-- Only `platform.c` writes what is set up. -/
theorem unsettled_client (h : clientView m' = clientView m) : Unsettled m m' := by
  obtain ⟨hpf, hcalls⟩ := Prod.mk.inj h
  have hsame : setupCalls m'.ghost.calls = setupCalls m.ghost.calls := by
    have hplatform : ∀ calls, setupCalls (platformCalls calls) = setupCalls calls := by
      intro calls
      unfold setupCalls platformCalls
      rw [List.filter_filter]
      apply List.filter_congr
      intro n _
      cases hc : n.call <;> rfl
    rw [← hplatform, hcalls, hplatform]
  simp only [Platform.mk.injEq] at hpf
  exact ⟨by simp [setup, hpf, hsame], by simp [hpf]⟩

/-- The two functions that set the controller up. -/
def Entry.config : Entry → Option (Option SdcConfig)
  | .sdcRequiredMemory config _ | .sdcEnable config _ _ => some config
  | _ => none

/-- **Only the two set anything up.** -/
theorem quiet_program {e : Entry} (he : e.config = none)
    (m : Machine) : SetsNothing m (program V e m) := by
  have own : ∀ {α : Type} {t : FTurn α} {g : α → Ret}, SetsNothing m t → SetsNothing m (t.map g) :=
    fun ht => follows_map Unsettled.trans Unsettled.refl ht
  have hclient : e.part ≠ some .platform → SetsNothing m (program V e m) := by
    intro hp
    refine Turn.Framed.follows (f := clientView) (fun q hq => ?_) (fun _ _ h => unsettled_client h)
      (framed_client hp m)
    unfold Quiet
    cases q with
    | vendor c | within c r =>
      cases c with
      | timeslotSessionCountSet | hfclkLatencySet | sdcInit | cfgSet => exact absurd hq.1 hp
      | _ => rfl
    | _ => rfl
  cases e with
  | sdcRequiredMemory | sdcEnable => cases he
  | sdcProcess => exact own follows_sdcProcess
  | sdcDisable => exact own (follows_sdcDisable V)
  | hfclk24mRequest => exact own (follows_hfclkRequest V)
  | hfclk24mIsRunning => exact own (follows_hfclkIsRunning V)
  | hfclk24mRelease => exact own (follows_hfclkRelease V)
  | _ => exact hclient nofun

end

/-! ## While it is set up -/

/-- The record of a call of `sdc_init` that succeeded. -/
def Succeeded (calls : List CallNote) : Prop := ∃ n ∈ calls, n.call = .sdcInit ∧ n.result = 0

/-- `sdc_init` is not called after it has succeeded. -/
def InitOnce (calls : List CallNote) : Prop :=
  calls.Pairwise fun earlier later => earlier.call = .sdcInit → earlier.result = 0 →
    later.call ≠ .sdcInit

/-- `sdc_cfg_set` has not failed. -/
def CfgAccepted (calls : List CallNote) : Prop := ∀ n ∈ calls, n.call = .cfgSet → 0 ≤ n.result

structure SetupOk (ctx : List Query) (m : Machine) : Prop where
  up : m.pf.mpslInitialized = true → (setup m).initialized = true ∨ ∃ q ∈ ctx, q.initializing = true
  fresh : ∀ q ∈ ctx, q.settingUp = true → (setup m).initialized = false
  once : CfgAccepted (setup m).calls → InitOnce (setup m).calls
  marked : CfgAccepted (setup m).calls → Succeeded (setup m).calls →
    (setup m).initialized = true ∨ ∃ q ∈ ctx, q.configures = true

section
variable {α : Type} {ctx : List Query} {m m' : Machine} {q : Query}
    {sys : System Machine Query Answer Entry Ret}
    {J : List Query → Machine → Prop}

/-- Below an API call nothing is being set up. -/
theorem quiet_low (h : level q < 2) : Quiet q := by
  cases q with
  | vendor c | within c r => cases c <;> first | rfl | exact absurd h (Nat.lt_irrefl 2)
  | _ => rfl

theorem setupOk_quiet (hq : Quiet q) : SetupOk (q :: ctx) m ↔ SetupOk ctx m := by
  have hset := hq.settingUp
  have hconf := hq.configures
  unfold Quiet at hq
  constructor
  · rintro ⟨h1, h2, h3, h4⟩
    simp only [List.mem_cons, exists_eq_or_imp, forall_eq_or_imp, hq, hset, hconf,
      Bool.false_eq_true, false_or, false_imp_iff, true_and] at h1 h2 h4
    exact ⟨h1, h2, h3, h4⟩
  · rintro ⟨h1, h2, h3, h4⟩
    refine ⟨?_, ?_, h3, ?_⟩
    all_goals simp only [List.mem_cons, exists_eq_or_imp, forall_eq_or_imp, hq, hset, hconf,
      Bool.false_eq_true, false_or, false_imp_iff, true_and]
    · exact h1
    · exact h2
    · exact h4

theorem no_quiet {p : Query → Bool} (hp : ∀ q, Quiet q → p q = false)
    (hb : ∀ q ∈ ctx, level q < 2) :
    ¬ ∃ q ∈ ctx, p q = true := by
  rintro ⟨q, hq, h⟩
  exact absurd ((hp q (quiet_low (hb q hq))).symm.trans h) nofun

/-- Where nothing is set up. -/
theorem setupOk_low (hb : ∀ q ∈ ctx, level q < 2) : SetupOk ctx m ↔
    (m.pf.mpslInitialized = true → (setup m).initialized = true) ∧ (CfgAccepted (setup m).calls →
      InitOnce (setup m).calls ∧ (Succeeded (setup m).calls → (setup m).initialized = true)) := by
  have hinit := no_quiet (p := Query.initializing) (fun _ h => h) hb
  have hconf := no_quiet (fun _ => Quiet.configures) hb
  constructor
  · rintro ⟨h1, h2, h3, h4⟩
    exact ⟨fun h => (h1 h).resolve_right hinit, fun ha =>
      ⟨h3 ha, fun hs => (h4 ha hs).resolve_right hconf⟩⟩
  · rintro ⟨h1, h2⟩
    refine ⟨fun h => Or.inl (h1 h), fun q hq hset => ?_, fun ha => (h2 ha).1,
      fun ha hs => Or.inl ((h2 ha).2 hs)⟩
    exact absurd ((quiet_low (hb q hq)).settingUp.symm.trans hset) nofun

/-- While `initialize_libraries` waits. -/
theorem setupOk_cons (hq : q.initializing = true) (hb : ∀ q ∈ ctx, level q < 2) :
    SetupOk (q :: ctx) m ↔
    (q.settingUp = true → (setup m).initialized = false) ∧ (CfgAccepted (setup m).calls →
      InitOnce (setup m).calls ∧
      (Succeeded (setup m).calls → (setup m).initialized = true ∨ q.configures = true)) := by
  have hconf := no_quiet (fun _ => Quiet.configures) hb
  constructor
  · rintro ⟨_, h2, h3, h4⟩
    refine ⟨h2 q List.mem_cons_self, fun ha => ⟨h3 ha, fun hs => ?_⟩⟩
    rcases h4 ha hs with h | ⟨q', hq', h⟩
    · exact Or.inl h
    · rcases List.mem_cons.mp hq' with rfl | hq'
      · exact Or.inr h
      · exact absurd ⟨q', hq', h⟩ hconf
  · rintro ⟨h1, h2⟩
    refine ⟨fun _ => Or.inr ⟨q, List.mem_cons_self, hq⟩,
      List.forall_mem_cons.mpr ⟨h1, fun q' hq' hset => ?_⟩, fun ha => (h2 ha).1, fun ha hs =>
      ((h2 ha).2 hs).imp_right fun h => ⟨q, List.mem_cons_self, h⟩⟩
    exact absurd ((quiet_low (hb q' hq')).settingUp.symm.trans hset) nofun

/-! ## `initialize_libraries` -/

/-- A program under the invariant. -/
abbrev KeepsSetup (sys : System Machine Query Answer Entry Ret) (J : List Query → Machine → Prop)
    (ctx : List Query) (t : FTurn α) : Prop := t.Sat sys J SetupOk ctx (fun _ m => SetupOk ctx m)

theorem setupOk_unsettled (hm : Unsettled m m') (h : SetupOk ctx m) : SetupOk ctx m' := by
  obtain ⟨hsame, hup⟩ := hm
  obtain ⟨h1, h2, h3, h4⟩ := h
  rw [← hsame] at h1 h2 h3 h4
  exact ⟨fun hm => h1 (hup hm), h2, h3, h4⟩

/-- The frame rule. -/
theorem keeps_follows {t : FTurn α} (h : SetupOk ctx m)
    (ht : SetsNothing m t) : KeepsSetup sys J ctx t :=
  sat_follows (I := SetupOk) (fun _ _ _ => setupOk_unsettled) (fun _ _ _ => setupOk_quiet) h ht

/-- A call outside the setup. -/
theorem call_quiet {call : VendorCall} {k : VendorReply → Machine → FTurn α}
    (hc : call.part = .platform) (hq : Quiet (.vendor call)) (h : SetupOk ctx m)
    (hk : ∀ reply m, SetupOk ctx m → KeepsSetup sys J ctx (k reply m)) :
    KeepsSetup sys J ctx (vendorCall call m k) := by
  have hwithin : ∀ r, Quiet (.within call r) := fun _ => hq
  refine sat_wait.mpr ⟨(setupOk_quiet hq).mpr h, fun reply m1 _ h1 _ =>
    sat_wait.mpr ⟨?_, fun _ m2 _ h2 _ => ?_⟩⟩
  · rw [vendorEffect_platform hc]
    refine (setupOk_quiet (hwithin _)).mpr ?_
    exact setupOk_unsettled ⟨setup_noteCall hq.settingUp m1 reply.result, fun h => h⟩
      ((setupOk_quiet hq).mp h1)
  · exact hk reply m2 ((setupOk_quiet (hwithin _)).mp h2)

/-- What holds where MPSL may be up and the controller not. -/
def Marked (m : Machine) : Prop :=
  CfgAccepted (setup m).calls →
    InitOnce (setup m).calls ∧ (Succeeded (setup m).calls → (setup m).initialized = true)

theorem marked_congr (h : setup m' = setup m) (hm : Marked m) : Marked m' := by
  unfold Marked
  rw [h]
  exact hm

/-- A step of `initialize_libraries` before the controller. -/
theorem call_marked {call : VendorCall} {k : VendorReply → Machine → FTurn α}
    {post : α → Machine → Prop} (hc : call.part = .platform)
    (hi : (Query.vendor call).initializing = true) (hs : (Query.vendor call).settingUp = false)
    (hb : ∀ q ∈ ctx, level q < 2) (h : Marked m)
    (hk : ∀ reply m, Marked m → (k reply m).Sat sys J SetupOk ctx post) :
    (vendorCall call m k).Sat sys J SetupOk ctx post := by
  have hmarked : ∀ {q : Query} {m : Machine}, q.initializing = true → q.settingUp = false →
      (SetupOk (q :: ctx) m ↔ Marked m) := by
    intro q m hi hs
    rw [setupOk_cons hi hb, hs, configures_false hs]
    simp [Marked]
  refine sat_wait.mpr ⟨(hmarked hi hs).mpr h, fun reply m1 _ h1 _ =>
    sat_wait.mpr ⟨?_, fun _ m2 _ h2 _ => ?_⟩⟩
  · rw [vendorEffect_platform hc]
    refine (hmarked (q := .within call reply.result) hi hs).mpr ?_
    exact marked_congr (setup_noteCall hs m1 reply.result) ((hmarked hi hs).mp h1)
  · exact hk reply m2 ((hmarked (q := .within call reply.result) hi hs).mp h2)

/-- A failed step takes MPSL down again. -/
theorem released_setup (hb : ∀ q ∈ ctx, level q < 2)
    (h : Marked m) : SetupOk ctx (releaseMpsl m) := by
  have hdown : (releaseMpsl m).pf.mpslInitialized = false := by
    cases hinit : m.pf.mpslInitialized with
    | false =>
      unfold releaseMpsl
      rw [if_pos (by simp [hinit])]
      exact hinit
    | true =>
      obtain ⟨hw, heq⟩ := releaseMpsl_eq hinit
      rw [heq]
  refine (setupOk_low hb).mpr ⟨fun hup => absurd (hdown.symm.trans hup) nofun, ?_⟩
  exact marked_congr setup_releaseMpsl h

/-- A call that sets the controller up is put on record. -/
theorem setup_noteSetup {call : VendorCall} (hc : call.part = .platform)
    (hs : (Query.vendor call).settingUp = true) (m : Machine) (reply : VendorReply) :
    setup ((m.vendorEffect call reply).noteCall call reply.result) =
      { setup m with calls := (setup m).calls ++
        [⟨call, reply.result, m.pf.enabled, m.pf.mpslClientReferences⟩] } := by
  rw [vendorEffect_platform hc]
  have hkept : (call == .sdcInit || call == .cfgSet) = true := hs
  simp [setup, setupCalls, Machine.noteCall, hkept]

/-- A record with one more call. -/
theorem cfgAccepted_append {calls : List CallNote} {n : CallNote} :
    CfgAccepted (calls ++ [n]) ↔ CfgAccepted calls ∧ (n.call = .cfgSet → 0 ≤ n.result) := by
  simp [CfgAccepted, or_imp, forall_and]

theorem succeeded_append {calls : List CallNote} {n : CallNote} :
    Succeeded (calls ++ [n]) ↔ Succeeded calls ∨ n.call = .sdcInit ∧ n.result = 0 := by
  simp [Succeeded, or_and_right, exists_or]

theorem initOnce_append {calls : List CallNote} {n : CallNote} (h : InitOnce calls)
    (hn : n.call = .sdcInit → ¬ Succeeded calls) : InitOnce (calls ++ [n]) := by
  refine List.pairwise_append.mpr ⟨h, List.pairwise_singleton _ _,
    fun earlier hearlier later hlater hcall hresult hinit => ?_⟩
  rw [List.mem_singleton.mp hlater] at hinit
  exact hn hinit ⟨earlier, hearlier, hcall, hresult⟩

/-- The end of `initialize_libraries`. Each wait passes on whether `sdc_init` has succeeded: not yet
before it, by its result after it, and by the result of `sdc_cfg_set` after that. -/
theorem initializeController_setup {config : SdcConfig} (hb : ∀ q ∈ ctx, level q < 2)
    (h : Marked m) :
    KeepsSetup sys J ctx (initializeController config m) := by
  unfold initializeController
  split
  · rename_i hinit
    have hfresh : m.pf.controllerInitialized = false := by simpa using hinit
    refine sat_wait.mpr ⟨(setupOk_cons rfl hb).mpr ⟨fun _ => hfresh, fun ha => ?_⟩,
      fun reply m1 _ h1 _ => ?_⟩
    · exact ⟨(h ha).1, fun hs => Or.inl ((h ha).2 hs)⟩
    obtain ⟨hf1, h1⟩ := (setupOk_cons rfl hb).mp h1
    refine sat_wait.mpr ⟨(setupOk_cons rfl hb).mpr ?_, fun _ m2 _ h2 _ => ?_⟩
    · rw [setup_noteSetup rfl rfl]
      refine ⟨fun _ => hf1 rfl, fun ha => ?_⟩
      obtain ⟨honce, hmarked⟩ := h1 (cfgAccepted_append.mp ha).1
      -- The mark is not set, so `sdc_init` has not succeeded before.
      have hfirst : ¬ Succeeded (setup m1).calls := by
        intro hs
        rcases hmarked hs with h | h
        · exact absurd ((hf1 rfl).symm.trans h) nofun
        · cases h
      refine ⟨initOnce_append honce fun _ => hfirst, fun hs => Or.inr ?_⟩
      rcases succeeded_append.mp hs with hs | hs
      · exact absurd hs hfirst
      · simpa [Query.configures] using hs.2
    obtain ⟨hf2, h2⟩ := (setupOk_cons rfl hb).mp h2
    dsimp only
    split
    · rename_i hr
      refine released_setup hb fun ha => ⟨(h2 ha).1, fun hs => ((h2 ha).2 hs).resolve_right ?_⟩
      simpa [Query.configures] using hr
    refine sat_wait.mpr ⟨(setupOk_cons rfl hb).mpr ⟨hf2, fun ha =>
      ⟨(h2 ha).1, fun _ => Or.inr rfl⟩⟩, fun cfg m3 _ h3 _ => ?_⟩
    obtain ⟨hf3, h3⟩ := (setupOk_cons rfl hb).mp h3
    refine sat_wait.mpr ⟨(setupOk_cons rfl hb).mpr ?_, fun _ m4 _ h4 _ => ?_⟩
    · rw [setup_noteSetup rfl rfl]
      refine ⟨fun _ => hf3 rfl, fun ha => ?_⟩
      obtain ⟨ha, haccepted⟩ := cfgAccepted_append.mp ha
      exact ⟨initOnce_append (h3 ha).1 nofun, fun _ => Or.inr (decide_eq_true (haccepted rfl))⟩
    obtain ⟨_, h4⟩ := (setupOk_cons rfl hb).mp h4
    dsimp only
    split
    · rename_i hr
      refine released_setup hb fun ha => ⟨(h4 ha).1, fun hs => ((h4 ha).2 hs).resolve_right ?_⟩
      simpa [Query.configures] using hr
    · exact (setupOk_low hb).mpr ⟨fun _ => rfl, fun ha => ⟨(h4 ha).1, fun _ => rfl⟩⟩
  · rename_i hinit
    have hmarked : m.pf.controllerInitialized = true := by simpa using hinit
    exact (setupOk_low hb).mpr ⟨fun _ => hmarked, h⟩

theorem initializeLibraries_setup {config : Option SdcConfig} (hb : ∀ q ∈ ctx, level q < 2)
    (h : SetupOk ctx m) :
    KeepsSetup sys J ctx (initializeLibraries V config m) := by
  have hstart : Unsettled m (initializeInterrupts (startGrtc m)) := by
    unfold startGrtc
    dsimp only
    split <;> exact ⟨rfl, fun h => h⟩
  have hstop : ∀ m : Machine, SetupOk ctx m → SetupOk ctx (stopGrtc (disableInterrupts m)) := by
    intro m h
    obtain ⟨hw, hstop⟩ := stopGrtc_eq (disableInterrupts m)
    rw [hstop]
    exact setupOk_unsettled (m := m) ⟨rfl, fun h => h⟩ h
  unfold initializeLibraries
  cases config with
  | none => exact h
  | some config =>
    dsimp only
    repeat' split
    all_goals try exact h
    refine call_quiet rfl rfl (setupOk_unsettled hstart h) fun init m h => ?_
    split
    · exact hstop m h
    · refine call_marked rfl rfl rfl hb ((setupOk_low hb).mp h).2 fun count m h => ?_
      split
      · exact released_setup hb h
      · refine call_marked rfl rfl rfl hb h fun latency m h => ?_
        split
        · exact released_setup hb h
        · exact initializeController_setup hb h

/-! ## The two functions -/

/-- `nrfkit_sdc_required_memory` after `initialize_libraries`. -/
def requireInitialized (result : Int) (m : Machine) : FTurn (Int × Option Nat) :=
  if result ≠ 0 then .done m (result, none)
  else .done (releaseIfUnused m) (0, some (releaseIfUnused m).pf.controllerMemorySize)

theorem sdcRequiredMemory_eq (config : Option SdcConfig) (out : Bool) (m : Machine) :
    nrfkitSdcRequiredMemory V config out m = if !out || m.pf.enabled then .done m (-V.einval, none)
      else (initializeLibraries V config m).bind requireInitialized := rfl

/-- The steps of `nrfkit_sdc_enable` that share one failure branch. -/
def startController (m : Machine) : FTurn Int :=
  vendorCall .randSourceRegister m fun rand m =>
    if rand.result = 0 then
      vendorCall .cracenInit m fun cracen m =>
        if cracen.result = 0 then vendorCall .sdcEnable m fun sdc m => .done m sdc.result
        else .done m cracen.result
    else .done m rand.result

/-- `nrfkit_sdc_enable` after `initialize_libraries`. -/
def enableInitialized (memorySize : Nat) (result : Int) (m : Machine) : FTurn Int :=
  if result ≠ 0 then .done m result
  else if memorySize < m.pf.controllerMemorySize then .done (releaseIfUnused m) (-V.enomem)
  else (startController m).bind fun result m =>
    if result ≠ 0 then .done (releaseIfUnused (m.callVoid .cracenUninit)) result
    else .done { m with pf := { m.pf with enabled := true } } 0

theorem sdcEnable_eq (config : Option SdcConfig) (memory : Option Nat) (memorySize : Nat)
    (m : Machine) :
    nrfkitSdcEnable V config memory memorySize m =
      if m.pf.enabled || memory.isNone || (memory.getD 0) % 8 ≠ 0 then .done m (-V.einval)
      else (initializeLibraries V config m).bind (enableInitialized V memorySize) := rfl

theorem follows_requireInitialized (result : Int) (m : Machine) :
    SetsNothing m (requireInitialized result m) := by
  unfold requireInitialized
  split
  · exact .refl m
  · exact unsettled_releaseIfUnused (.refl m)

theorem follows_startController (m : Machine) : SetsNothing m (startController m) := by
  refine follows_call rfl rfl (.refl m) fun rand m => ?_
  split
  · refine follows_call rfl rfl (.refl m) fun cracen m => ?_
    split
    · exact follows_call rfl rfl (.refl m) fun sdc m => .refl m
    · exact .refl m
  · exact .refl m

theorem follows_enableInitialized (memorySize : Nat) (result : Int) (m : Machine) :
    SetsNothing m (enableInitialized V memorySize result m) := by
  unfold enableInitialized
  split
  · exact .refl m
  split
  · exact unsettled_releaseIfUnused (.refl m)
  · refine follows_bind Unsettled.trans (fun result m => ?_) (follows_startController m)
    split
    · exact unsettled_releaseIfUnused ⟨setup_noteCall rfl m 0, fun h => h⟩
    · exact ⟨rfl, fun h => h⟩

/-- The step lemma. -/
theorem setup_keeps : Keeps (firmware V) Any SetupOk := by
  intro ctx e m _ h he
  have hb := above_iff.mp he
  have hinit : ∀ {config : Option SdcConfig} {α : Type} {f : Int → Machine → FTurn α},
      (∀ q ∈ ctx, level q < 2) → (∀ r m, SetsNothing m (f r m)) →
      KeepsSetup (firmware V) Any ctx ((initializeLibraries V config m).bind f) :=
    fun hb hf => sat_bind.mpr
      (sat_mono (fun r m h => keeps_follows h (hf r m)) (initializeLibraries_setup V hb h))
  have hquiet : e.config = none → KeepsSetup (firmware V) Any ctx (program V e m) :=
    fun hc => keeps_follows h (quiet_program V hc m)
  cases e with
  | sdcRequiredMemory config out =>
    refine sat_map.mpr ?_
    rw [sdcRequiredMemory_eq]
    split
    · exact h
    · exact hinit hb follows_requireInitialized
  | sdcEnable config memory size =>
    refine sat_map.mpr ?_
    rw [sdcEnable_eq]
    split
    · exact h
    · exact hinit hb (follows_enableInitialized V size)
  | _ => exact hquiet rfl

end

/-! ## What is set up stays -/

/-- Once the controller is marked initialised, it stays so, with its configuration and size. -/
def Locked (m m' : Machine) : Prop :=
  m.pf.controllerInitialized = true →
    m'.pf.controllerInitialized = true ∧ m'.pf.lockedConfig = m.pf.lockedConfig ∧
      m'.pf.controllerMemorySize = m.pf.controllerMemorySize

section
variable {α : Type} {ctx : List Query} {m m' : Machine}
    {sys : System Machine Query Answer Entry Ret}

theorem locked_setup (h : setup m' = setup m) : Locked m m' := by
  obtain ⟨hi, hc, hs, _⟩ := Setup.mk.inj h
  exact fun hinit => ⟨hi.trans hinit, hc, hs⟩

/-- A program that only sets up what is not yet. -/
abbrev KeepsLocked (sys : System Machine Query Answer Entry Ret) (ctx : List Query) (m : Machine)
    (t : FTurn α) : Prop :=
  t.Moves sys SetupOk Locked ctx (fun b _ m => Locked b m) m

theorem call_locked {call : VendorCall} {k : VendorReply → Machine → FTurn α}
    (hc : call.part = .platform) (hm : setup m' = setup m) (hk : ∀ reply m,
      SetupOk (.within call reply.result :: ctx) m → KeepsLocked sys ctx m (k reply m)) :
    KeepsLocked sys ctx m (vendorCall call m' k) := by
  refine moves_wait.mpr ⟨locked_setup hm, fun reply m1 _ _ =>
    moves_wait.mpr ⟨?_, fun _ m2 h _ => hk reply m2 h⟩⟩
  rw [vendorEffect_platform hc]
  exact fun hinit => ⟨hinit, rfl, rfl⟩

theorem initializeController_locked {config : SdcConfig} :
    KeepsLocked sys ctx m (initializeController config m) := by
  unfold initializeController
  split
  · refine call_locked rfl rfl fun sdc m _ => ?_
    split
    · exact locked_setup setup_releaseMpsl
    · refine call_locked rfl rfl fun cfg m h => ?_
      split
      · exact locked_setup setup_releaseMpsl
      · -- the configuration is locked here, and the controller is not initialised yet
        have hfresh : m.pf.controllerInitialized = false := h.fresh _ List.mem_cons_self rfl
        exact fun hinit => absurd (hfresh.symm.trans hinit) nofun
  · exact locked_setup rfl

theorem initializeLibraries_locked {config : Option SdcConfig} :
    KeepsLocked sys ctx m (initializeLibraries V config m) := by
  have hstart : setup (initializeInterrupts (startGrtc m)) = setup m := by
    unfold startGrtc
    dsimp only
    split <;> rfl
  have hstop : ∀ m : Machine, setup (stopGrtc (disableInterrupts m)) = setup m := by
    intro m
    obtain ⟨hw, hstop⟩ := stopGrtc_eq (disableInterrupts m)
    rw [hstop]
    rfl
  unfold initializeLibraries
  cases config with
  | none => exact locked_setup rfl
  | some config =>
    dsimp only
    repeat' split
    all_goals try exact locked_setup rfl
    refine call_locked rfl hstart fun init m _ => ?_
    split
    · exact locked_setup (hstop m)
    · refine call_locked rfl rfl fun count m _ => ?_
      split
      · exact locked_setup setup_releaseMpsl
      · refine call_locked rfl rfl fun latency m _ => ?_
        split
        · exact locked_setup setup_releaseMpsl
        · exact initializeController_locked

end

/-- **Every turn of every program keeps what is locked.** -/
theorem locked_steps : Steps (firmware V) SetupOk Locked := by
  have htrans : ∀ m m1 m2, Locked m m1 → Locked m1 m2 → Locked m m2 := by
    intro m m1 m2 h h1 hinit
    obtain ⟨hi, hc, hs⟩ := h hinit
    obtain ⟨hi1, hc1, hs1⟩ := h1 hi
    exact ⟨hi1, hc1.trans hc, hs1.trans hs⟩
  intro ctx e m h he
  have hlocked : ∀ {α : Type} {m : Machine} {t : FTurn α}, SetsNothing m t →
      t.Follows Quiet Locked m :=
    fun ht => follows_mono (fun _ _ hm => locked_setup hm.1) ht
  have hinit : ∀ {config : Option SdcConfig} {α : Type} {f : Int → Machine → FTurn α},
      (∀ r m, SetsNothing m (f r m)) →
      KeepsLocked (firmware V) ctx m ((initializeLibraries V config m).bind f) := fun hf =>
    moves_bind.mpr
      (moves_mono (fun b r m hm => moves_follows (follows_from htrans hm (hlocked (hf r m))))
      (initializeLibraries_locked V))
  have hquiet : e.config = none → KeepsLocked (firmware V) ctx m (program V e m) :=
    fun hc => moves_follows (hlocked (quiet_program V hc m))
  cases e with
  | sdcRequiredMemory config out =>
    refine moves_map.mpr ?_
    rw [sdcRequiredMemory_eq]
    split
    · exact locked_setup rfl
    · exact hinit follows_requireInitialized
  | sdcEnable config memory size =>
    refine moves_map.mpr ?_
    rw [sdcEnable_eq]
    split
    · exact locked_setup rfl
    · exact hinit (follows_enableInitialized V size)
  | _ => exact hquiet rfl

/-! ## What a call that succeeds was given -/

/-- The configuration in force. -/
def lockedView (m : Machine) : Bool × SdcConfig := (m.pf.controllerInitialized, m.pf.lockedConfig)

/-- The configuration is the one in force. -/
def Given (config : Option SdcConfig) (m : Machine) : Prop :=
  m.pf.controllerInitialized = true ∧ config = some m.pf.lockedConfig

/-- A successful call was given the configuration in force. -/
def GivenLocked (config : Option SdcConfig) (result : Int) (m : Machine) : Prop :=
  result = 0 → Given config m

/-- While an API call waits, the configuration stays. -/
def SameLocked (m m' : Machine) : Prop := lockedView m' = lockedView m

theorem configEqual_eq {left right : SdcConfig}
    (h : configEqual left right = true) : left = right := by
  obtain ⟨source, accuracy, interval, count, startup⟩ := left
  obtain ⟨source', accuracy', interval', count', startup'⟩ := right
  simpa [configEqual, and_assoc] using h

section
variable {α : Type} {m m' : Machine} {config : SdcConfig}

theorem SameLocked.trans {m1 m2 : Machine} (h : SameLocked m m1)
    (h1 : SameLocked m1 m2) : SameLocked m m2 := Eq.trans h1 h

/-- A program while others leave the configuration alone. -/
abbrev MeetsLocked (post : α → Machine → Prop) (t : FTurn α) : Prop :=
  t.Meets SameLocked (fun _ _ => True) post

theorem call_meets {call : VendorCall} {k : VendorReply → Machine → FTurn α}
    {post : α → Machine → Prop} (hc : call.part = .platform) (hm : SameLocked m m')
    (hk : ∀ reply m1, SameLocked m m1 → MeetsLocked post (k reply m1)) :
    MeetsLocked post (vendorCall call m' k) := by
  refine meets_wait.mpr ⟨trivial, fun reply m1 h1 =>
    meets_wait.mpr ⟨trivial, fun _ m2 h2 => hk reply m2 ?_⟩⟩
  rw [vendorEffect_platform hc] at h2
  exact (hm.trans h1).trans h2

theorem initializeController_given
    (h : m.pf.controllerInitialized = true → config = m.pf.lockedConfig) :
    MeetsLocked (GivenLocked (some config)) (initializeController config m) := by
  unfold initializeController
  split
  · refine call_meets rfl rfl fun sdc m _ => ?_
    split
    · rename_i hr
      exact fun h0 => absurd h0 hr
    · refine call_meets rfl rfl fun cfg m _ => ?_
      split
      · rename_i hr
        exact fun h0 => by omega
      · exact fun _ => ⟨rfl, rfl⟩
  · rename_i hinit
    have hinit : m.pf.controllerInitialized = true := by simpa using hinit
    exact fun _ => ⟨hinit, congrArg some (h hinit)⟩

/-- Where MPSL is up, the controller must be initialised too: the configuration is compared
only with that of an initialised controller. -/
theorem initializeLibraries_given {config : Option SdcConfig}
    (hup : m.pf.mpslInitialized = true → m.pf.controllerInitialized = true) :
    MeetsLocked (GivenLocked config) (initializeLibraries V config m) := by
  have hstart : SameLocked m (initializeInterrupts (startGrtc m)) := by
    unfold startGrtc
    dsimp only
    split <;> rfl
  have hfail : ∀ {e : Int} {m : Machine}, 0 < e → GivenLocked config (-e) m := fun he h0 => by omega
  unfold initializeLibraries
  cases config with
  | none => exact hfail V.einval_pos
  | some config =>
    dsimp only
    split
    · exact hfail V.einval_pos
    split
    · exact hfail V.eperm_pos
    rename_i hsame
    have hequal : m.pf.controllerInitialized = true → config = m.pf.lockedConfig := by
      intro hinit
      exact configEqual_eq (by simpa [hinit] using hsame)
    have hkept : ∀ {m1 : Machine}, SameLocked m m1 → m1.pf.controllerInitialized = true →
        config = m1.pf.lockedConfig := by
      intro m1 hm hinit
      obtain ⟨hi, hc⟩ := Prod.mk.inj hm
      exact (hequal (hi.symm.trans hinit)).trans hc.symm
    split
    · rename_i hmpsl
      exact fun _ => ⟨hup hmpsl, congrArg some (hequal (hup hmpsl))⟩
    split
    · exact hfail V.einval_pos
    split
    · exact hfail V.eperm_pos
    refine call_meets rfl hstart fun init m1 h1 => ?_
    split
    · rename_i hr
      exact fun h0 => absurd h0 hr
    refine call_meets rfl rfl fun count m2 h2 => ?_
    split
    · rename_i hr
      exact fun h0 => absurd h0 hr
    refine call_meets rfl rfl fun latency m3 h3 => ?_
    split
    · rename_i hr
      exact fun h0 => absurd h0 hr
    exact initializeController_given (hkept ((h1.trans h2).trans h3))

/-- What follows the initialisation leaves the configuration alone. -/
theorem given_follows {config : Option SdcConfig} {t : FTurn α} (h : Given config m)
    (ht : SetsNothing m t) :
    MeetsLocked (fun _ m' => Given config m') t := by
  have hsame : ∀ m m', Unsettled m m' → SameLocked m m' := by
    rintro m m' ⟨hm, _⟩
    obtain ⟨hi, hc, _⟩ := Setup.mk.inj hm
    exact Prod.ext hi hc
  have htrans : ∀ m m1 m2, SameLocked m m1 → SameLocked m1 m2 → SameLocked m m2 :=
    fun _ _ _ => SameLocked.trans
  have hkept : MeetsLocked (fun _ m' => SameLocked m m') t :=
    meets_follows htrans (fun _ _ h => h) rfl (follows_mono hsame ht)
  refine meets_mono (fun _ m' hm => ?_) hkept
  obtain ⟨hi, hc⟩ := Prod.mk.inj hm
  exact ⟨hi.trans h.1, h.2.trans (congrArg some hc.symm)⟩

theorem sdcRequiredMemory_given {config : Option SdcConfig} {out : Bool}
    (hup : m.pf.mpslInitialized = true → m.pf.controllerInitialized = true) :
    MeetsLocked (fun r m => GivenLocked config r.1 m) (nrfkitSdcRequiredMemory V config out m) := by
  rw [sdcRequiredMemory_eq]
  split
  · have := V.einval_pos
    exact fun h0 => by omega
  · refine meets_bind.mpr (meets_mono (fun result m h => ?_) (initializeLibraries_given V hup))
    by_cases hr : result = 0
    · exact meets_mono (fun r m hg => (fun _ => hg : GivenLocked config r.1 m))
        (given_follows (h hr) (follows_requireInitialized result m))
    · unfold requireInitialized
      rw [if_pos hr]
      exact fun h0 => absurd h0 hr

theorem sdcEnable_given {config : Option SdcConfig} {memory : Option Nat} {size : Nat}
    (hup : m.pf.mpslInitialized = true → m.pf.controllerInitialized = true) :
    MeetsLocked (GivenLocked config) (nrfkitSdcEnable V config memory size m) := by
  rw [sdcEnable_eq]
  split
  · have := V.einval_pos
    exact fun h0 => by omega
  · refine meets_bind.mpr (meets_mono (fun result m h => ?_) (initializeLibraries_given V hup))
    by_cases hr : result = 0
    · exact meets_mono (fun r m hg => (fun _ => hg : GivenLocked config r m))
        (given_follows (h hr) (follows_enableInitialized V size result m))
    · unfold enableInitialized
      rw [if_pos hr]
      exact fun h0 => absurd h0 hr

end

/-- The code a call returned. -/
def Ret.result : Ret → Option Int
  | .code r | .sized r _ | .flag r _ => some r
  | .param _ | .void => none

theorem config_given {config : Option SdcConfig} {e : Entry} {m : Machine}
    (he : e.config = some config)
    (hup : m.pf.mpslInitialized = true → m.pf.controllerInitialized = true) :
    MeetsLocked (fun r m => r.result = some 0 → Given config m) (program V e m) := by
  cases e with
  | sdcRequiredMemory c out =>
    cases he
    exact meets_map.mpr
      (meets_mono (fun r m h h0 => h (Option.some.inj h0)) (sdcRequiredMemory_given V hup))
  | sdcEnable c memory size =>
    cases he
    exact meets_map.mpr
      (meets_mono (fun r m h h0 => h (Option.some.inj h0)) (sdcEnable_given V hup))
  | _ => cases he

/-! ## Once -/

/-- `sdc_init` is not called, nor being called, after it has succeeded. -/
def InitializedOnce (c : Config Machine Query Answer Ret) : Prop :=
  InitOnce c.state.ghost.calls ∧ (.vendor .sdcInit ∈ c.queries → ¬ Succeeded c.state.ghost.calls)

theorem succeeded_setupCalls {calls : List CallNote} :
    Succeeded (setupCalls calls) ↔ Succeeded calls := by
  constructor
  · rintro ⟨n, hn, h⟩
    exact ⟨n, (List.mem_filter.mp hn).1, h⟩
  · rintro ⟨n, hn, hcall, hresult⟩
    exact ⟨n, List.mem_filter.mpr ⟨hn, by simp [hcall]⟩, hcall, hresult⟩

theorem initOnce_setupCalls {calls : List CallNote}
    (h : InitOnce (setupCalls calls)) : InitOnce calls := by
  refine (List.pairwise_filter.mp h).imp fun hkept hcall hresult hinit => ?_
  exact hkept (by simp [hcall]) (by simp [hinit]) hcall hresult hinit

section
variable {V} {hw : Hardware} {radio : Radio} {timer0 : Timer0}
    {c d : Config Machine Query Answer Ret}

theorem setup_reset : SetupOk [] (Machine.reset hw radio timer0) :=
  ⟨nofun, nofun, fun _ => List.Pairwise.nil, fun _ hs => by obtain ⟨n, hn, _⟩ := hs; cases hn⟩

/-- What a level-2 query that configures is. -/
theorem level_configures {q : Query} (h : q.configures = true) : level q = 2 := by
  unfold Query.configures at h
  split at h
  · rfl
  · rfl
  · rfl
  · cases h

theorem initialized_once (h : Reachable (firmware V) (Machine.reset hw radio timer0) c)
    (hl : c.live = true) (ha : CfgAccepted c.state.ghost.calls) : InitializedOnce c := by
  have hok : SetupOk c.queries c.state := run_inv (setup_keeps V) setup_reset h hl
  have hlayered : Layered level c.queries :=
    run_inv (firmware_layered V) (I := fun ctx _ => Layered level ctx) List.Pairwise.nil h hl
  have ha' : CfgAccepted (setup c.state).calls := fun n hn => ha n (List.mem_filter.mp hn).1
  refine ⟨initOnce_setupCalls (hok.once ha'), fun hq hs => ?_⟩
  have hfresh := hok.fresh _ hq rfl
  rcases hok.marked ha' (succeeded_setupCalls.mpr hs) with hinit | ⟨q, hq', hconf⟩
  · exact absurd (hfresh.symm.trans hinit) nofun
  · -- only one call waits at its level
    have hsame : q = .vendor .sdcInit := hlayered.unique hq' hq (level_configures hconf)
    rw [hsame] at hconf
    cases hconf

/-- **The controller is initialised once, with one configuration.** While no `sdc_cfg_set` has
failed, `sdc_init` does not come again after it has succeeded. In every run the configuration
and the size are kept from when the controller is marked initialised, and every call that
returns 0 was given this configuration. -/
theorem controller_once (h : Reachable (firmware V) (Machine.reset hw radio timer0) c)
    (hl : c.live = true) :
    (CfgAccepted c.state.ghost.calls → InitializedOnce c) ∧
    (c.state.pf.controllerInitialized = true → ∀ e c', step (firmware V) c e = some c' →
      c'.live = true → c'.state.pf.controllerInitialized = true ∧
      c'.state.pf.lockedConfig = c.state.pf.lockedConfig ∧
        c'.state.pf.controllerMemorySize = c.state.pf.controllerMemorySize) ∧
    (∀ e config d, e.config = some config → Within (firmware V) (fun _ _ => True) c e d →
      d.live = true → d.stack = c.stack → d.returned.bind Ret.result = some 0 →
      d.state.pf.controllerInitialized = true ∧ config = some d.state.pf.lockedConfig) := by
  refine ⟨initialized_once h hl, fun hinit e c' he hl' => ?_,
    fun e config d he hcall hl' hst hret => ?_⟩
  · have hmoved : Locked c.state c'.state :=
      reachable_moves (setup_keeps V) (locked_steps V) setup_reset h he hl'
    exact hmoved hinit
  · have hrank : e.rank = 2 := by
      cases e with
      | sdcRequiredMemory | sdcEnable => rfl
      | _ => cases he
    have hb : ∀ q ∈ c.queries, level q < 2 := hrank ▸ above_iff.mp (within_enters hcall)
    have hok : SetupOk c.queries c.state := run_inv (setup_keeps V) setup_reset h hl
    have hin : InCall (firmware V) SameLocked _ _ (fun q => level q = 2) c d :=
      within_inCall (fun _ => rfl) (fun _ _ _ => SameLocked.trans)
        (fun _ _ _ hq _ he =>
          over_call hq he (fun _ _ => rfl) (fun _ => rfl) (fun _ => rfl) (fun _ => rfl))
        (config_given V he ((setupOk_low hb).mp hok).1)
          (hrank ▸ program_atLevel V e c.state) hcall hl'
    obtain ⟨r, hr, hgiven⟩ := within_returned hin hst
    rw [hr] at hret
    exact hgiven hret

end

/-- The controller is enabled, disabled and enabled again. -/
theorem controller_once_enabled : ∃ c, Reachable (firmware .nrfxlib) (Machine.reset {} {} {}) c ∧
    c.state.pf.lockedConfig = exampleConfig ∧ InitializedOnce c := by
  obtain ⟨c, h, hf⟩ := reachable_of_run (firmware .nrfxlib) (.reset {} {} {})
    (calls [enabled, (.sdcDisable, 2, ⟨.actionNone, 0, 0⟩), (enabled.1, 12, ⟨.actionNone, 0, 0⟩)])
    (fun c => c.live && c.state.pf.lockedConfig == exampleConfig &&
      c.state.ghost.calls.all (fun n => n.call != .cfgSet || 0 ≤ n.result))
    (by decide +kernel)
  simp only [Bool.and_eq_true, beq_iff_eq, List.all_eq_true, Bool.or_eq_true, bne_iff_ne, ne_eq,
    decide_eq_true_eq] at hf
  obtain ⟨⟨hl, hconfig⟩, haccepted⟩ := hf
  exact ⟨c, h, hconfig, (controller_once h hl).1 fun n hn hcall =>
    (haccepted n hn).resolve_left (not_not_intro hcall)⟩

/-- `sdc_cfg_set` fails, and the next `nrfkit_sdc_enable` calls `sdc_init` again. -/
theorem init_repeated : ¬ ∀ c, Reachable (firmware .nrfxlib) (Machine.reset {} {} {}) c →
    c.live = true → InitializedOnce c := by
  intro hall
  obtain ⟨c, h, hf⟩ := reachable_of_run (firmware .nrfxlib) (.reset {} {} {})
    (failing (.sdcEnable (some exampleConfig) (some 8) 0) 10 .cfgSet (-12) ++ calls [enabled])
    (fun c => c.live && setupCalls c.state.ghost.calls ==
      [⟨.sdcInit, 0, false, 0⟩, ⟨.cfgSet, -12, false, 0⟩, ⟨.sdcInit, 0, false, 0⟩,
        ⟨.cfgSet, 0, false, 0⟩])
    (by decide +kernel)
  simp only [Bool.and_eq_true, beq_iff_eq] at hf
  have honce : InitOnce (setupCalls c.state.ghost.calls) := List.Pairwise.filter _ (hall c h hf.1).1
  rw [hf.2] at honce
  have hrepeated := (List.pairwise_cons.mp honce).1 ⟨.sdcInit, 0, false, 0⟩ (by simp) rfl rfl
  exact hrepeated rfl

end NrfKit.Firmware
