/- The low-latency callbacks of `src/wireless/sdc/nrf54l/platform.c`. MPSL acquires and
   releases constant latency in nested critical sections; the outermost acquisition saves
   RRAMC LOWPOWERCONFIG and puts the RRAM in Standby, the last release restores it.

   Both callbacks run with interrupts disabled, so a call is one step. The depth is a
   `uint8_t`: it tells nesting from idleness while at most 255 acquisitions are
   outstanding, and not beyond (`nesting_wraps`). -/
namespace NrfKit.Firmware.LowLatency

inductive PowerTask where
  | constlat
  | lowpwr
  deriving DecidableEq, Repr

/-- The two static variables, RRAMC LOWPOWERCONFIG and the last task POWER was given. -/
structure Registers where
  lowLatencyDepth : UInt8 := 0
  savedRramLowPower : UInt32 := 0
  lowPowerConfig : UInt32
  powerTask : Option PowerTask := none
  deriving DecidableEq, Repr

-- `RRAMC_POWER_LOWPOWERCONFIG_MODE_Standby << RRAMC_POWER_LOWPOWERCONFIG_MODE_Pos`.
variable (standby : UInt32)

def mpslLowLatencyAcquireCallback (r : Registers) : Registers :=
  if r.lowLatencyDepth = 0 then
    { lowLatencyDepth := r.lowLatencyDepth + 1
      savedRramLowPower := r.lowPowerConfig
      powerTask := some .constlat
      lowPowerConfig := standby }
  else { r with lowLatencyDepth := r.lowLatencyDepth + 1 }

def mpslLowLatencyReleaseCallback (r : Registers) : Registers :=
  if r.lowLatencyDepth ≠ 0 then
    if r.lowLatencyDepth - 1 = 0 then
      { r with
        lowLatencyDepth := r.lowLatencyDepth - 1
        lowPowerConfig := r.savedRramLowPower
        powerTask := some .lowpwr }
    else { r with lowLatencyDepth := r.lowLatencyDepth - 1 }
  else r

/-! ## Runs -/

/-- A callback is called, or something else writes LOWPOWERCONFIG. -/
inductive Step where
  | acquire
  | release
  | write (value : UInt32)
  deriving DecidableEq, Repr

def Step.isCall : Step → Bool
  | acquire | release => true
  | write _ => false

/-- The registers, the acquisitions outstanding, and what LOWPOWERCONFIG held before the
outermost of the last group of them. -/
structure Trace where
  registers : Registers
  held : Nat := 0
  outermost : UInt32
  deriving DecidableEq, Repr

def Trace.step (t : Trace) : Step → Trace
  | .acquire =>
    { registers := mpslLowLatencyAcquireCallback standby t.registers
      held := t.held + 1
      outermost := if t.held = 0 then t.registers.lowPowerConfig else t.outermost }
  | .release =>
    { t with registers := mpslLowLatencyReleaseCallback t.registers, held := t.held - 1 }
  | .write value => { t with registers := { t.registers with lowPowerConfig := value } }

def Trace.run (t : Trace) : List Step → Trace
  | [] => t
  | s :: steps => Trace.run (t.step standby s) steps

/-- Releases never exceed acquisitions, and nothing else writes LOWPOWERCONFIG while
it is acquired. -/
def Step.Allowed (held : Nat) : Step → Prop
  | acquire => True
  | release => 0 < held
  | write _ => held = 0

/-- An acquisition finds fewer than 255 outstanding. -/
def Step.Shallow (held : Nat) : Step → Prop
  | acquire => held < 255
  | _ => True

instance (held : Nat) : DecidablePred (Step.Allowed held)
  | .acquire => inferInstanceAs (Decidable True)
  | .release => inferInstanceAs (Decidable (0 < held))
  | .write _ => inferInstanceAs (Decidable (held = 0))

/-- `P` holds of every step and the acquisitions outstanding before it. -/
def Trace.Every (P : Nat → Step → Prop) (t : Trace) : List Step → Prop
  | [] => True
  | s :: steps => P t.held s ∧ Trace.Every P (t.step standby s) steps

instance Trace.decidableEvery (P : Nat → Step → Prop) [∀ held, DecidablePred (P held)] :
    ∀ (steps : List Step) (t : Trace), Decidable (Trace.Every standby P t steps)
  | [], _ => inferInstanceAs (Decidable True)
  | s :: steps, t =>
    have := Trace.decidableEvery P steps (t.step standby s)
    inferInstanceAs (Decidable (P t.held s ∧ Trace.Every standby P (t.step standby s) steps))

/-- What the callbacks are for. -/
structure Trace.Nested (t : Trace) : Prop where
  acquired : 0 < t.held → t.registers.lowPowerConfig = standby ∧
    t.registers.powerTask = some .constlat
  balanced : t.held = 0 → t.registers.lowPowerConfig = t.outermost ∧
    t.registers.powerTask = some .lowpwr

/-! ## The invariant -/

/-- The depth counts the acquisitions, and while any is outstanding the saved value is
the one from before the outermost. -/
structure Trace.Counted (t : Trace) : Prop where
  bound : t.held ≤ 255
  depth : t.registers.lowLatencyDepth = UInt8.ofNat t.held
  saved : 0 < t.held → t.registers.savedRramLowPower = t.outermost
  acquired : 0 < t.held → t.registers.lowPowerConfig = standby ∧
    t.registers.powerTask = some .constlat

variable {standby}

theorem ofNat_eq_zero {n : Nat} (h : n ≤ 255) : UInt8.ofNat n = 0 ↔ n = 0 := by
  constructor
  · intro he
    have hn := congrArg UInt8.toNat he
    rw [UInt8.toNat_ofNat'] at hn
    have hz : (0 : UInt8).toNat = 0 := rfl
    omega
  · intro he
    rw [he]
    rfl

theorem ofNat_pred {n : Nat} (h : 0 < n) : UInt8.ofNat n - 1 = UInt8.ofNat (n - 1) := by
  obtain ⟨m, rfl⟩ := Nat.exists_eq_add_of_lt h
  rw [show 0 + m + 1 = m + 1 by omega, UInt8.ofNat_add]
  exact UInt8.add_sub_cancel _ _

theorem Trace.Counted.acquire {t : Trace} (h : t.Counted standby) (hshallow : t.held < 255) :
    (t.step standby .acquire).Counted standby ∧ (t.step standby .acquire).Nested standby := by
  have hnext : t.registers.lowLatencyDepth + 1 = UInt8.ofNat (t.held + 1) := by
    rw [h.depth, UInt8.ofNat_add]
    rfl
  have hzero := ofNat_eq_zero h.bound
  rw [← h.depth] at hzero
  unfold Trace.step mpslLowLatencyAcquireCallback
  by_cases hheld : t.held = 0
  · rw [if_pos (hzero.mpr hheld), if_pos hheld]
    exact ⟨⟨by dsimp only; omega, hnext, fun _ => rfl, fun _ => ⟨rfl, rfl⟩⟩,
      ⟨fun _ => ⟨rfl, rfl⟩, fun hb => absurd hb (Nat.succ_ne_zero _)⟩⟩
  · rw [if_neg (fun he => hheld (hzero.mp he)), if_neg hheld]
    have hpos : 0 < t.held := Nat.pos_of_ne_zero hheld
    exact ⟨⟨by dsimp only; omega, hnext, fun _ => h.saved hpos, fun _ => h.acquired hpos⟩,
      ⟨fun _ => h.acquired hpos, fun hb => absurd hb (Nat.succ_ne_zero _)⟩⟩

theorem Trace.Counted.release {t : Trace} (h : t.Counted standby) (hheld : 0 < t.held) :
    (t.step standby .release).Counted standby ∧ (t.step standby .release).Nested standby := by
  have hbound := h.bound
  have hdepth : t.registers.lowLatencyDepth ≠ 0 := by
    rw [h.depth]
    exact fun he => Nat.ne_of_gt hheld ((ofNat_eq_zero hbound).mp he)
  have hpred : t.registers.lowLatencyDepth - 1 = UInt8.ofNat (t.held - 1) := by
    rw [h.depth, ofNat_pred hheld]
  have hzero : t.registers.lowLatencyDepth - 1 = 0 ↔ t.held - 1 = 0 := by
    rw [hpred]
    exact ofNat_eq_zero (by omega)
  unfold Trace.step mpslLowLatencyReleaseCallback
  rw [if_pos hdepth]
  by_cases hlast : t.held - 1 = 0
  · rw [if_pos (hzero.mpr hlast)]
    exact ⟨⟨by dsimp only; omega, hpred, fun hp => absurd hlast (Nat.ne_of_gt hp),
      fun hp => absurd hlast (Nat.ne_of_gt hp)⟩,
      ⟨fun hp => absurd hlast (Nat.ne_of_gt hp), fun _ => ⟨h.saved hheld, rfl⟩⟩⟩
  · rw [if_neg (fun he => hlast (hzero.mp he))]
    exact ⟨⟨by dsimp only; omega, hpred, fun _ => h.saved hheld, fun _ => h.acquired hheld⟩,
      ⟨fun _ => h.acquired hheld, fun hb => absurd hb hlast⟩⟩

/-- One step: what is counted stays counted, and a call leaves the registers nested. -/
theorem Trace.Counted.step {t : Trace} (h : t.Counted standby) {s : Step}
    (hallowed : s.Allowed t.held) (hshallow : s.Shallow t.held) :
    (t.step standby s).Counted standby ∧ (s.isCall = true → (t.step standby s).Nested standby) := by
  cases s with
  | acquire => exact ⟨(h.acquire hshallow).1, fun _ => (h.acquire hshallow).2⟩
  | release => exact ⟨(h.release hallowed).1, fun _ => (h.release hallowed).2⟩
  | write value =>
    have hnone : ¬ 0 < t.held := by
      rw [show t.held = 0 from hallowed]
      exact Nat.lt_irrefl 0
    exact ⟨⟨h.bound, h.depth, fun hp => absurd hp hnone, fun hp => absurd hp hnone⟩, nofun⟩

theorem Trace.Counted.run : ∀ {steps : List Step} {t : Trace}, t.Counted standby →
    Trace.Every standby Step.Allowed t steps → Trace.Every standby Step.Shallow t steps →
      (t.run standby steps).Counted standby
  | [], _, h, _, _ => h
  | s :: steps, t, h, hallowed, hshallow => by
    rw [Trace.run]
    exact Trace.Counted.run (h.step hallowed.1 hshallow.1).1 hallowed.2 hshallow.2

theorem run_append (t : Trace) : ∀ before after : List Step,
    t.run standby (before ++ after) = (t.run standby before).run standby after
  | [], _ => rfl
  | s :: before, after => run_append (t.step standby s) before after

theorem every_append {P : Nat → Step → Prop} {after : List Step} :
    ∀ {before : List Step} {t : Trace},
    Trace.Every standby P t (before ++ after) →
      Trace.Every standby P t before ∧ Trace.Every standby P (t.run standby before) after
  | [], _, h => ⟨trivial, h⟩
  | _ :: _, _, h => ⟨⟨h.1, (every_append h.2).1⟩, (every_append h.2).2⟩

/-- **Nested constant latency.** In every run in which no acquisition is made while 255
are outstanding, after each call: with acquisitions outstanding the RRAM is in Standby
and POWER was last given CONSTLAT; with none, LOWPOWERCONFIG holds what it held before
the outermost acquisition and POWER was last given LOWPWR. -/
theorem nested_after_call (registers : Registers) (hidle : registers.lowLatencyDepth = 0)
    (outermost : UInt32) (steps : List Step) (call : Step) (hcall : call.isCall = true)
    (hallowed : Trace.Every standby Step.Allowed ⟨registers, 0, outermost⟩ (steps ++ [call]))
    (hshallow : Trace.Every standby Step.Shallow ⟨registers, 0, outermost⟩ (steps ++ [call])) :
    (Trace.run standby ⟨registers, 0, outermost⟩ (steps ++ [call])).Nested standby := by
  have hinitial : Trace.Counted standby ⟨registers, 0, outermost⟩ :=
    ⟨Nat.zero_le _, hidle, fun h => absurd h (Nat.lt_irrefl 0), fun h => absurd h (Nat.lt_irrefl 0)⟩
  obtain ⟨hbefore, hlast⟩ := every_append hallowed
  obtain ⟨hshallow', hlast'⟩ := every_append hshallow
  rw [run_append]
  exact ((hinitial.run hbefore hshallow').step hlast.1 hlast'.1).2 hcall

/-- A section within a section, between two other writes. -/
theorem nested_after_call_twice :
    (Trace.run 1 ⟨{ lowPowerConfig := 0 }, 0, 0⟩
      ([.write 2, .acquire, .acquire, .release] ++ [.release])).Nested 1 :=
  nested_after_call { lowPowerConfig := 0 } rfl 0 [.write 2, .acquire, .acquire,
    .release] .release rfl
    ⟨rfl, trivial, trivial, Nat.two_pos, Nat.one_pos, trivial⟩
    ⟨trivial, (by decide : 0 < 255), (by decide : 1 < 255), trivial, trivial, trivial⟩

/-- 256 acquisitions and as many releases leave the RRAM in Standby: the 256th wraps the
depth to zero, and every release is then taken for one too many. -/
theorem nesting_wraps :
    Trace.Every 1 Step.Allowed ⟨{ lowPowerConfig := 0 }, 0, 0⟩
        (List.replicate 256 .acquire ++ List.replicate 256 .release) ∧
      ¬ (Trace.run 1 ⟨{ lowPowerConfig := 0 }, 0, 0⟩
        (List.replicate 256 .acquire ++ List.replicate 256 .release)).Nested 1 := by
  have hend : (Trace.run 1 ⟨{ lowPowerConfig := 0 }, 0, 0⟩
      (List.replicate 256 .acquire ++ List.replicate 256 .release)).held = 0 ∧
      (Trace.run 1 ⟨{ lowPowerConfig := 0 }, 0, 0⟩
        (List.replicate 256 .acquire ++ List.replicate 256 .release)).registers.powerTask =
          some .constlat := by
    decide +kernel
  constructor
  · decide +kernel
  · intro hnested
    cases hend.2.symm.trans (hnested.balanced hend.1).2

end NrfKit.Firmware.LowLatency
