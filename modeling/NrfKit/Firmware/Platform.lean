import NrfKit.Firmware.State

/- `src/wireless/sdc/nrf54l/platform.c`: the lifetime of MPSL and the controller. Every
   vendor function is a wait answered by its result; interrupt enables and the GRTC are
   machine fields. `sdc_support_*` only select features of the linked archive and are
   part of the `cfgSet` call. -/
namespace NrfKit.Firmware
open Interleave

variable (V : Vendor)

/-! `uint8_t` counters. -/

def incU8 (x : Nat) : Nat := (x + 1) % 256
def decU8 (x : Nat) : Nat := (x + 255) % 256

/-! ## References -/

def nrfkitMpslIsInitialized (m : Machine) : Bool := m.pf.mpslInitialized

def nrfkitMpslTimeslotRetain (m : Machine) : Int × Machine :=
  if !m.pf.mpslInitialized || 2 ≤ m.pf.timeslotReferences || m.pf.mpslClientReferences == 255 then
    (-V.eperm, m)
  else
    (0, { m with pf := { m.pf with
      timeslotReferences := incU8 m.pf.timeslotReferences
      mpslClientReferences := incU8 m.pf.mpslClientReferences } })

def nrfkitMpslTimeslotRelease (m : Machine) : Machine :=
  if m.pf.timeslotReferences ≠ 0 then
    { m with pf := { m.pf with
      timeslotReferences := decU8 m.pf.timeslotReferences
      mpslClientReferences := decU8 m.pf.mpslClientReferences } }
  else m

/-- A reference is taken, or nothing happens. -/
theorem retain_cases (m : Machine) : nrfkitMpslTimeslotRetain V m = (-V.eperm, m) ∨
    m.pf.mpslInitialized = true ∧ m.pf.timeslotReferences < 2 ∧
    nrfkitMpslTimeslotRetain V m = (0, { m with pf := { m.pf with
      timeslotReferences := incU8 m.pf.timeslotReferences
      mpslClientReferences := incU8 m.pf.mpslClientReferences } }) := by
  unfold nrfkitMpslTimeslotRetain
  split
  · exact Or.inl rfl
  · rename_i h
    simp only [Bool.or_eq_true, Bool.not_eq_true', decide_eq_true_eq, not_or, Bool.not_eq_false,
      Nat.not_le] at h
    exact Or.inr ⟨h.1.1, h.1.2, rfl⟩

/-- The counters are all that taking and giving back a reference touch. -/
theorem retain_references (m : Machine) : ∃ t c, (nrfkitMpslTimeslotRetain V m).2 =
    { m with pf := { m.pf with timeslotReferences := t, mpslClientReferences := c } } := by
  unfold nrfkitMpslTimeslotRetain
  split
  · exact ⟨m.pf.timeslotReferences, m.pf.mpslClientReferences, rfl⟩
  · exact ⟨_, _, rfl⟩

theorem release_references (m : Machine) : ∃ t c, nrfkitMpslTimeslotRelease m =
    { m with pf := { m.pf with timeslotReferences := t, mpslClientReferences := c } } := by
  unfold nrfkitMpslTimeslotRelease
  split
  · exact ⟨_, _, rfl⟩
  · exact ⟨m.pf.timeslotReferences, m.pf.mpslClientReferences, rfl⟩

/-- Taking a reference touches only the counters. -/
theorem retain_eq (m : Machine) : ∃ pf, (nrfkitMpslTimeslotRetain V m).2 = { m with pf := pf } := by
  obtain ⟨t, c, h⟩ := retain_references V m
  exact ⟨_, h⟩

/-- Giving a reference back touches only the counters. -/
theorem releaseReference_eq (m : Machine) :
    ∃ pf, nrfkitMpslTimeslotRelease m = { m with pf := pf } := by
  obtain ⟨t, c, h⟩ := release_references m
  exact ⟨_, h⟩

/-! ## Initialisation -/

def disableInterrupts (m : Machine) : Machine :=
  { m with hw := { m.hw with mpslInterrupts := false } }

def initializeInterrupts (m : Machine) : Machine :=
  { m with hw := { m.hw with mpslInterrupts := true } }

/-- Start the counter unless it runs, and remember which. -/
def startGrtc (m : Machine) : Machine :=
  let m := { m with pf := { m.pf with grtcWasEnabled := m.hw.grtcCounting } }
  if !m.pf.grtcWasEnabled then { m with hw := { m.hw with grtcCounting := true } } else m

/-- `nrf_grtc_sys_counter_set(NRF_GRTC, false)` where it was started for MPSL. -/
def stopGrtc (m : Machine) : Machine :=
  if !m.pf.grtcWasEnabled then { m with hw := { m.hw with grtcCounting := false } } else m

def releaseMpsl (m : Machine) : Machine :=
  if !m.pf.mpslInitialized then m
  else
    let m := m.callVoid .mpslUninit
    let m := { m with pf := { m.pf with mpslInitialized := false } }
    let m := disableInterrupts m
    let m := { m with pf := { m.pf with lowPriorityPending := false } }
    stopGrtc m

/-- Stopping the counter touches only the GRTC. -/
theorem stopGrtc_eq (m : Machine) : ∃ hw, stopGrtc m = { m with hw := hw } := by
  unfold stopGrtc
  split
  · exact ⟨_, rfl⟩
  · exact ⟨m.hw, rfl⟩

theorem releaseMpsl_eq {m : Machine} (h : m.pf.mpslInitialized = true) : ∃ hw, releaseMpsl m =
    { m.callVoid .mpslUninit with
      pf := { m.pf with mpslInitialized := false, lowPriorityPending := false }
      hw := hw } := by
  unfold releaseMpsl
  rw [if_neg (by simp [h])]
  exact stopGrtc_eq _

/-- `if (mpsl_client_references == 0U) release_mpsl();`. -/
def releaseIfUnused (m : Machine) : Machine :=
  if m.pf.mpslClientReferences = 0 then releaseMpsl m else m

def configEqual (left right : SdcConfig) : Bool :=
  left.lfclkSource == right.lfclkSource &&
    left.lfclkAccuracyPpm == right.lfclkAccuracyPpm &&
    left.rcCalibrationInterval250Ms == right.rcCalibrationInterval250Ms &&
    left.rcTemperatureIntervalCount == right.rcTemperatureIntervalCount &&
    left.hfclkStartupTimeUs == right.hfclkStartupTimeUs

/-! `enum nrfkit_sdc_lfclk_source`. -/

def lfclkRc : Nat := 0
def lfclkXtal : Nat := 1
def lfclkSynth : Nat := 2

/-- The first check of `initialize_libraries`. -/
def configInvalid (config : SdcConfig) : Bool :=
  config.lfclkAccuracyPpm == 0 || 500 < config.lfclkAccuracyPpm ||
    config.hfclkStartupTimeUs == 0 || V.clockHfLatencyWorstCase < config.hfclkStartupTimeUs ||
    lfclkSynth < config.lfclkSource

/-- The checks of the RC calibration fields. -/
def calibrationInvalid (config : SdcConfig) : Bool :=
  (config.lfclkSource != lfclkRc &&
    (config.rcCalibrationInterval250Ms != 0 || config.rcTemperatureIntervalCount != 0)) ||
  (config.lfclkSource == lfclkRc && config.rcCalibrationInterval250Ms == 0)

/-- The end of `initialize_libraries`: the controller, once per boot. -/
def initializeController (config : SdcConfig) (m : Machine) : FTurn Int :=
  if !m.pf.controllerInitialized then
    vendorCall .sdcInit m fun sdc m =>
      if sdc.result ≠ 0 then .done (releaseMpsl m) sdc.result
      else vendorCall .cfgSet m fun cfg m =>
        if cfg.result < 0 then .done (releaseMpsl m) cfg.result
        else .done { m with pf := { m.pf with
          controllerMemorySize := cfg.result.toNat
          lockedConfig := config
          controllerInitialized := true } } 0
  else .done m 0

def initializeLibraries (config : Option SdcConfig) (m : Machine) : FTurn Int :=
  match config with
  | none => .done m (-V.einval)
  | some config =>
    if configInvalid V config then .done m (-V.einval)
    else if m.pf.controllerInitialized && !configEqual config m.pf.lockedConfig then
      .done m (-V.eperm)
    else if m.pf.mpslInitialized then .done m 0
    else if calibrationInvalid config then .done m (-V.einval)
    else if m.hw.systemCoreClock ≠ 128000000 then .done m (-V.eperm)
    else
      vendorCall .mpslInit (initializeInterrupts (startGrtc m)) fun init m =>
        if init.result ≠ 0 then .done (stopGrtc (disableInterrupts m)) init.result
        else
          let m := { m with pf := { m.pf with mpslInitialized := true } }
          vendorCall .timeslotSessionCountSet m fun count m =>
            if count.result ≠ 0 then .done (releaseMpsl m) count.result
            else vendorCall .hfclkLatencySet m fun latency m =>
              if latency.result ≠ 0 then .done (releaseMpsl m) latency.result
              else initializeController config m

/-! ## Lifetime API -/

/-- Returns the code and what is stored in `*required_memory`. -/
def nrfkitSdcRequiredMemory (config : Option SdcConfig) (requiredMemory : Bool) (m : Machine) :
    FTurn (Int × Option Nat) :=
  if !requiredMemory || m.pf.enabled then .done m (-V.einval, none)
  else (initializeLibraries V config m).bind fun result m =>
    if result ≠ 0 then .done m (result, none)
    else
      let m := releaseIfUnused m
      .done m (0, some m.pf.controllerMemorySize)

/-- `memory` is the caller's address, `none` for NULL. -/
def nrfkitSdcEnable (config : Option SdcConfig) (memory : Option Nat) (memorySize : Nat)
    (m : Machine) : FTurn Int :=
  if m.pf.enabled || memory.isNone || (memory.getD 0) % 8 ≠ 0 then .done m (-V.einval)
  else (initializeLibraries V config m).bind fun result m =>
    if result ≠ 0 then .done m result
    else if memorySize < m.pf.controllerMemorySize then .done (releaseIfUnused m) (-V.enomem)
    else
      let registered : FTurn Int :=
        vendorCall .randSourceRegister m fun rand m =>
          if rand.result = 0 then
            vendorCall .cracenInit m fun cracen m =>
              if cracen.result = 0 then
                vendorCall .sdcEnable m fun sdc m => .done m sdc.result
              else .done m cracen.result
          else .done m rand.result
      registered.bind fun result m =>
        if result ≠ 0 then .done (releaseIfUnused (m.callVoid .cracenUninit)) result
        else .done { m with pf := { m.pf with enabled := true } } 0

def nrfkitSdcProcess (m : Machine) : FTurn Unit :=
  let pumped : FTurn Unit :=
    if m.pf.mpslInitialized && m.pf.lowPriorityPending then
      vendorCall .lowPriorityProcess { m with pf := { m.pf with lowPriorityPending := false } }
        fun _ m => .done m ()
    else .done m ()
  pumped.bind fun _ m =>
    if m.pf.mpslInitialized && !m.pf.enabled && m.pf.mpslClientReferences == 0 then
      .done (releaseMpsl m) ()
    else .done m ()

def nrfkitSdcDisable (m : Machine) : FTurn Int :=
  if !m.pf.enabled then .done m (-V.eperm)
  else vendorCall .sdcDisable m fun sdc m =>
    if sdc.result ≠ 0 then .done m sdc.result
    else
      let m := { m with pf := { m.pf with enabled := false, hciPending := false } }
      let m := if m.pf.mpslClientReferences = 0 then
          { m with pf := { m.pf with lowPriorityPending := false } }
        else m
      let m := m.callVoid .cracenUninit
      .done (releaseIfUnused m) 0

def nrfkitMpslHfclk24mRequest (m : Machine) : FTurn Int :=
  if !m.pf.mpslInitialized || m.pf.hfclk24mReferences ≠ 0 || m.pf.mpslClientReferences == 255 then
    .done m (-V.eperm)
  else
    let m := { m with pf := { m.pf with mpslClientReferences := incU8 m.pf.mpslClientReferences } }
    vendorCall .hfclkSrcRequest m fun src m =>
      if src.result ≠ 0 then
        .done { m with pf := { m.pf with mpslClientReferences := decU8 m.pf.mpslClientReferences } }
          src.result
      else .done { m with pf := { m.pf with hfclk24mReferences := 1 } } src.result

/-- Returns the code and what is stored in `*running`. -/
def nrfkitMpslHfclk24mIsRunning (running : Bool) (m : Machine) : FTurn (Int × Option Bool) :=
  if !running || !m.pf.mpslInitialized then .done m (-V.eperm, none)
  else vendorCall .hfclkSrcIsRunning m fun src m =>
    .done m (src.result, if src.result = 0 then some (src.value != 0) else none)

def nrfkitMpslHfclk24mRelease (m : Machine) : FTurn Int :=
  if !m.pf.mpslInitialized || m.pf.hfclk24mReferences = 0 || m.pf.mpslClientReferences = 0 then
    .done m (-V.eperm)
  else vendorCall .hfclkSrcRelease m fun src m =>
    if src.result = 0 then
      .done { m with pf := { m.pf with
        hfclk24mReferences := 0
        mpslClientReferences := decU8 m.pf.mpslClientReferences } } src.result
    else .done m src.result

/-- `SWI00_IRQHandler`. -/
def swi00IrqHandler (m : Machine) : Machine :=
  { m with pf := { m.pf with lowPriorityPending := true } }

end NrfKit.Firmware
