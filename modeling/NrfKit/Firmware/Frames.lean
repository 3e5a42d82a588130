import NrfKit.Firmware.System

/- What each group of programs leaves alone, and the levels at which they wait. The
   frames let an invariant of one module skip the programs of the others
   (`sat_framed`); the levels make every stack layered (`firmware_layered`). -/
namespace NrfKit.Firmware
open Interleave

variable (V : Vendor)

/-- The functions a query comes from. -/
inductive Part where
  | platform
  | timeslotOpen
  | timeslotRequest
  | timeslotClose
  | timeslotCallback
  | rramSubmit
  | rramProcess
  | rramCallback
  deriving DecidableEq, Repr

def VendorCall.part : VendorCall → Part
  | .timeslotSessionOpen => .timeslotOpen
  | .timeslotRequest _ _ => .timeslotRequest
  | .timeslotSessionClose => .timeslotClose
  | .rramSessionOpen => .rramSubmit
  | .rramRequest | .rramSessionClose => .rramProcess
  | _ => .platform

def Query.part : Query → Part
  | .handler _ _ _ => .timeslotCallback
  | .vendor c | .within c _ => c.part
  | .statement _ => .rramProcess
  | .rramReady | .rramWait _ | .rramStored _ => .rramCallback

/-- A query of these functions at level `n`. -/
def OfPart (part : Part) (n : Nat) (q : Query) : Prop := q.part = part ∧ level q = n

/-- MPSL keeps nothing for the calls of `platform.c`. -/
theorem vendorEffect_platform {call : VendorCall} (h : call.part = .platform) (m : Machine)
    (reply : VendorReply) : m.vendorEffect call reply = m := by
  cases call with
  | timeslotSessionOpen | timeslotRequest | rramSessionOpen | rramRequest | rramSessionClose =>
    cases h
  | _ => rfl

/-- The calls of `platform.c` in a record. -/
def platformCalls (calls : List CallNote) : List CallNote :=
  calls.filter (fun n => n.call.part == .platform)

/-- Another module's call is not among them. -/
theorem platformCalls_noteCall {call : VendorCall} (h : call.part ≠ .platform) (m : Machine)
    (result : Int) :
    platformCalls (m.noteCall call result).ghost.calls = platformCalls m.ghost.calls := by
  unfold Machine.noteCall platformCalls
  rw [List.filter_append]
  simp [h]

/-! ## What is left alone

Each view blanks what a group of functions may write and shows the rest. -/

/-- All that `platform.c` does not touch. -/
def outsidePlatform (m : Machine) : Machine :=
  { m with
    pf := {}
    hw := { m.hw with grtcCounting := false, mpslInterrupts := false }
    ghost := { m.ghost with calls := [] } }

/-- All that `timeslot.c` does not touch. -/
def outsideTimeslot (m : Machine) : Machine :=
  { m with
    ts := {}, pf := {}, radioOwner := .ownerNone, timer0 := {}, radio := {}
    mpsl := { m.mpsl with session := none, requests := [], grants := [] }
    ghost := { m.ghost with
      serial := 0, closing := 0, sessions := [], acceptedMarginUs := 0, calls := [] } }

/-- All that a signal other than SESSION_CLOSED leaves alone. -/
def outsideCallback (m : Machine) : Machine :=
  { m with
    ts := { m.ts with
      signalReturn := ⟨.actionNone, 0, false⟩, nextRequest := .unset, grantLengthUs := 0
      pendingExtensionUs := 0, sessionIdle := false, grantActive := false }
    radioOwner := .ownerNone, timer0 := {}, radio := {}
    mpsl := { m.mpsl with requests := [], grants := [] }
    ghost := { m.ghost with sessions := [] } }

/-- All that `nrfkit_timeslot_open` does not touch. -/
def outsideOpen (m : Machine) : Machine :=
  { m with
    ts := { m.ts with
      sessionId := 0, applicationHandler := none, applicationContext := 0
      sessionOpen := false, sessionIdle := false }
    pf := {}
    mpsl := { m.mpsl with session := none }
    ghost := { m.ghost with serial := 0, sessions := [], calls := [] } }

/-- All that `nrfkit_timeslot_request_earliest` does not touch. -/
def outsideRequest (m : Machine) : Machine :=
  { m with
    ts := { m.ts with
      nextRequest := .unset, grantLengthUs := 0, cleanupMarginUs := 0, sessionIdle := false }
    mpsl := { m.mpsl with requests := [] }
    ghost := { m.ghost with acceptedMarginUs := 0, calls := platformCalls m.ghost.calls } }

/-- All that `nrfkit_timeslot_close` does not touch. -/
def outsideClose (m : Machine) : Machine :=
  { m with
    ts := { m.ts with sessionClosing := false }
    ghost := { m.ghost with calls := platformCalls m.ghost.calls } }

/-- All that `rram.c` does not touch. -/
def outsideRram (m : Machine) : Machine :=
  { m with
    rram := {}, pf := {}
    hw := { m.hw with
      memory := fun _ => 0, rramcConfig := 0, rramcPowerConfig := 0, rramcReadyNextTimeout := 0 }
    mpsl := { m.mpsl with rramSession := none, rramRequested := false, rramClosing := false }
    ghost := { m.ghost with
      calls := [], transactions := 0, submitted := {}, transaction := {}, errors :=
        [], closedErrors := [] } }

/-- All that a storage signal other than SESSION_CLOSED leaves alone. -/
def outsideRramCallback (m : Machine) : Machine :=
  { m with
    rram := { m.rram with
      remaining := 0, offset := 0, operationResult := 0, idle := false, retry := false
      response := ⟨.actionNone, 0, false⟩ }
    hw := { m.hw with
      memory := fun _ => 0, rramcConfig := 0, rramcPowerConfig := 0, rramcReadyNextTimeout := 0 }
    mpsl := { m.mpsl with rramRequested := false }
    ghost := { m.ghost with transaction := {}, errors := [] } }

/-- All that `nrfkit_rram_process` does not touch. -/
def outsideRramProcess (m : Machine) : Machine :=
  { m with
    rram := { m.rram with operationResult := 0, idle := false, closing := false, request := .unset }
    mpsl := { m.mpsl with rramRequested := false, rramClosing := false }
    ghost :=
      { m.ghost with calls := platformCalls m.ghost.calls, transaction := {}, errors := [] } }

/-- All that RADIO ownership calls leave alone. -/
def outsideOwnership (m : Machine) : Machine := { m with radioOwner := .ownerNone, radio := {} }

/-- All that the hardware leaves alone. -/
def outsideHardware (m : Machine) : Machine :=
  { m with
    pf := { m.pf with lowPriorityPending := false }
    timer0 := { m.timer0 with compareEvent := false }
    radio := {}
    hw := { m.hw with
      systemCoreClock := 0, grtcCounting := false, grtcCounter := 0, callerData := fun _ => 0 }
    mpsl := { m.mpsl with requests := [] } }

section
variable {X α : Type} {f : Machine → X} {m : Machine} {x : X}

theorem level_within (call : VendorCall) (result : Int) :
    level (.within call result) = level (.vendor call) := by
  cases call <;> rfl

/-- A vendor call is framed where its effect and what follows are. -/
theorem framed_vendorCall {part : Part} {n : Nat} {call : VendorCall}
    {k : VendorReply → Machine → FTurn α} (hW : OfPart part n (.vendor call)) (hx : f m = x)
    (he : ∀ m reply, f ((m.vendorEffect call reply).noteCall call reply.result) = f m)
    (hk : ∀ r m, (k r m).Framed (OfPart part n) f (f m)) :
    (vendorCall call m k).Framed (OfPart part n) f x :=
  ⟨hW, hx, fun reply m =>
    ⟨⟨hW.1, (level_within call reply.result).trans hW.2⟩, he m reply, fun _ m => hk reply m⟩⟩

end

/-! ## `platform.c` -/

section
variable {α : Type} {m : Machine}

/-- A program of `platform.c` that waits at level `n`. -/
abbrev PlatformFramed (n : Nat) (m : Machine) (t : FTurn α) : Prop :=
  t.Framed (OfPart .platform n) outsidePlatform (outsidePlatform m)

theorem platform_vendorCall {n : Nat} {call : VendorCall} {m' : Machine}
    {k : VendorReply → Machine → FTurn α} (hc : OfPart .platform n (.vendor call))
    (hx : outsidePlatform m' = outsidePlatform m) (hk : ∀ r m, PlatformFramed n m (k r m)) :
    PlatformFramed n m (vendorCall call m' k) := by
  refine framed_vendorCall hc hx (fun m reply => ?_) hk
  rw [vendorEffect_platform hc.1]
  rfl

@[simp] theorem outsidePlatform_stopGrtc : outsidePlatform (stopGrtc m) = outsidePlatform m := by
  unfold stopGrtc
  split <;> rfl

@[simp] theorem outsidePlatform_releaseMpsl :
    outsidePlatform (releaseMpsl m) = outsidePlatform m := by
  unfold releaseMpsl
  split
  · rfl
  · exact outsidePlatform_stopGrtc

@[simp] theorem outsidePlatform_releaseIfUnused :
    outsidePlatform (releaseIfUnused m) = outsidePlatform m := by
  unfold releaseIfUnused
  split
  · exact outsidePlatform_releaseMpsl
  · rfl

theorem framed_initializeController (config : SdcConfig) (m : Machine) :
    PlatformFramed 2 m (initializeController config m) := by
  unfold initializeController
  split
  · refine platform_vendorCall ⟨rfl, rfl⟩ rfl (fun sdc m => ?_)
    split
    · exact outsidePlatform_releaseMpsl
    · refine platform_vendorCall ⟨rfl, rfl⟩ rfl (fun cfg m => ?_)
      split
      · exact outsidePlatform_releaseMpsl
      · rfl
  · rfl

theorem framed_initializeLibraries (config : Option SdcConfig) (m : Machine) :
    PlatformFramed 2 m (initializeLibraries V config m) := by
  have hstart : outsidePlatform (initializeInterrupts (startGrtc m)) = outsidePlatform m := by
    unfold startGrtc
    dsimp only
    split <;> rfl
  unfold initializeLibraries
  cases config with
  | none => rfl
  | some config =>
    dsimp only
    repeat' split
    all_goals try rfl
    refine platform_vendorCall ⟨rfl, rfl⟩ hstart (fun init m => ?_)
    split
    · exact outsidePlatform_stopGrtc
    · refine platform_vendorCall ⟨rfl, rfl⟩ rfl (fun count m => ?_)
      split
      · exact outsidePlatform_releaseMpsl
      · refine platform_vendorCall ⟨rfl, rfl⟩ rfl (fun latency m => ?_)
        split
        · exact outsidePlatform_releaseMpsl
        · exact framed_initializeController config m

theorem framed_nrfkitSdcRequiredMemory (config : Option SdcConfig) (out : Bool) (m : Machine) :
    PlatformFramed 2 m (nrfkitSdcRequiredMemory V config out m) := by
  unfold nrfkitSdcRequiredMemory
  split
  · rfl
  · refine framed_bind (fun result m => ?_) (framed_initializeLibraries V config m)
    split
    · rfl
    · exact outsidePlatform_releaseIfUnused

theorem framed_nrfkitSdcEnable (config : Option SdcConfig) (memory : Option Nat) (size : Nat)
    (m : Machine) : PlatformFramed 2 m (nrfkitSdcEnable V config memory size m) := by
  unfold nrfkitSdcEnable
  split
  · rfl
  · refine framed_bind (fun result m => ?_) (framed_initializeLibraries V config m)
    split
    · rfl
    · split
      · exact outsidePlatform_releaseIfUnused
      · refine framed_bind (fun result m => ?_)
          (platform_vendorCall ⟨rfl, rfl⟩ rfl (fun rand m => ?_))
        · split
          · exact outsidePlatform_releaseIfUnused
          · rfl
        · split
          · refine platform_vendorCall ⟨rfl, rfl⟩ rfl (fun cracen m => ?_)
            split
            · exact platform_vendorCall ⟨rfl, rfl⟩ rfl (fun sdc m => rfl)
            · rfl
          · rfl

theorem framed_nrfkitSdcProcess (m : Machine) : PlatformFramed 0 m (nrfkitSdcProcess m) := by
  refine framed_bind (fun _ m => ?_) ?_
  · split
    · exact outsidePlatform_releaseMpsl
    · rfl
  · split
    · exact platform_vendorCall ⟨rfl, rfl⟩ rfl (fun _ m => rfl)
    · rfl

theorem framed_nrfkitSdcDisable (m : Machine) : PlatformFramed 2 m (nrfkitSdcDisable V m) := by
  unfold nrfkitSdcDisable
  split
  · rfl
  · refine platform_vendorCall ⟨rfl, rfl⟩ rfl (fun sdc m => ?_)
    split
    · rfl
    · refine outsidePlatform_releaseIfUnused.trans ?_
      split <;> rfl

theorem framed_nrfkitMpslHfclk24mRequest (m : Machine) :
    PlatformFramed 2 m (nrfkitMpslHfclk24mRequest V m) := by
  unfold nrfkitMpslHfclk24mRequest
  split
  · rfl
  · refine platform_vendorCall ⟨rfl, rfl⟩ rfl (fun src m => ?_)
    split <;> rfl

theorem framed_nrfkitMpslHfclk24mIsRunning (out : Bool) (m : Machine) :
    PlatformFramed 2 m (nrfkitMpslHfclk24mIsRunning V out m) := by
  unfold nrfkitMpslHfclk24mIsRunning
  split
  · rfl
  · exact platform_vendorCall ⟨rfl, rfl⟩ rfl (fun src m => rfl)

theorem framed_nrfkitMpslHfclk24mRelease (m : Machine) :
    PlatformFramed 2 m (nrfkitMpslHfclk24mRelease V m) := by
  unfold nrfkitMpslHfclk24mRelease
  split
  · rfl
  · refine platform_vendorCall ⟨rfl, rfl⟩ rfl (fun src m => ?_)
    split <;> rfl

end

/-! ## `timeslot.c` -/

/-- The level of the signal and of the handler it calls. -/
def signalLevel (signal : MpslSignal) : Nat := if mpslDeferred signal then 1 else 3

section
variable {α : Type} {m : Machine}

@[simp] theorem outsideTimeslot_release :
    outsideTimeslot (nrfkitMpslTimeslotRelease m) = outsideTimeslot m := by
  obtain ⟨pf, h⟩ := releaseReference_eq m
  rw [h]
  rfl

@[simp] theorem outsideCallback_radioAcquire (owner : RadioOwner) :
    outsideCallback (nrfkitRadioAcquire owner m).2 = outsideCallback m := by
  obtain ⟨o, h⟩ := acquire_eq owner m
  rw [h]
  rfl

@[simp] theorem outsideCallback_cleanupGrant :
    outsideCallback (cleanupGrant m) = outsideCallback m := by
  obtain ⟨t, r, o, _, h⟩ := cleanupGrant_eq m
  rw [h]
  rfl

/-- The query waits for the application to handle the signal. -/
def Handling (signal : MpslSignal) (q : Query) : Prop :=
  ∃ handler deadline, q = .handler handler signal deadline

theorem Handling.part {signal : MpslSignal} {q : Query} (h : Handling signal q) :
    OfPart .timeslotCallback (signalLevel signal) q := by
  obtain ⟨handler, deadline, rfl⟩ := h
  exact ⟨rfl, rfl⟩

/-- The callback on a signal other than SESSION_CLOSED. -/
abbrev CallbackFramed (signal : MpslSignal) (m : Machine) (t : FTurn α) : Prop :=
  t.Framed (Handling signal) outsideCallback (outsideCallback m)

theorem framed_endGrant (signal : MpslSignal) (m : Machine) :
    CallbackFramed signal m (endGrant m) :=
  outsideCallback_cleanupGrant

theorem framed_handleAction (signal : MpslSignal) (action : Action) (m : Machine) :
    CallbackFramed signal m (handleAction V action m) := by
  unfold handleAction
  repeat' split
  all_goals first | rfl | exact outsideCallback_cleanupGrant

theorem framed_callHandler {cause : MpslSignal} {deadline : Bool} {m' : Machine}
    {k : Action → Machine → FTurn α} (hx : outsideCallback m' = outsideCallback m)
    (hk : ∀ action m, CallbackFramed cause m (k action m)) :
    CallbackFramed cause m (callHandler cause deadline m' k) := by
  unfold callHandler
  split
  · trivial
  · exact ⟨⟨_, _, rfl⟩, hx, hk⟩

theorem framed_notifyApplication {signal : MpslSignal} {m' : Machine}
    (hx : outsideCallback m' = outsideCallback m) :
    CallbackFramed signal m (notifyApplication V signal m') := by
  refine framed_callHandler hx (fun action m => ?_)
  split
  · rfl
  · split
    · exact framed_endGrant _ m
    · exact framed_handleAction V _ action m

theorem framed_timeslotCallback (id : Nat) {signal : MpslSignal} (hs : signal ≠ .sessionClosed)
    (m : Machine) : CallbackFramed signal m (timeslotCallback V id signal m) := by
  unfold timeslotCallback
  rw [if_neg hs]
  split
  · rfl
  · generalize hm : (if signal = .sessionIdle ∨ signal = .blocked ∨ signal = .cancelled then
        { m with ts := { m.ts with sessionIdle := true } } else m) = m'
    have ho : outsideCallback m' = outsideCallback m := by
      rw [← hm]
      split <;> rfl
    dsimp only
    split
    · split
      · exact (outsideCallback_cleanupGrant.trans (outsideCallback_radioAcquire .timeslot)).trans ho
      · exact framed_notifyApplication V ((outsideCallback_radioAcquire .timeslot).trans ho)
    · split
      · rename_i ht
        rw [ht.1]
        refine framed_callHandler ho (fun action m => ?_)
        split
        · exact framed_endGrant _ m
        · exact framed_handleAction V _ action m
      · split
        · exact framed_notifyApplication V ho
        · split
          · exact framed_notifyApplication V (outsideCallback_cleanupGrant.trans ho)
          · exact framed_notifyApplication V ho

/-- A signal other than SESSION_CLOSED, with what MPSL does before and after it. -/
theorem framed_deliverSignal (id : Nat) {signal : MpslSignal} (hs : signal ≠ .sessionClosed)
    (m : Machine) : CallbackFramed signal m (deliverTimeslot V id signal m) := by
  have ho : outsideCallback { m with mpsl := mpslBeforeSignal id signal m.mpsl } =
      outsideCallback m := by
    unfold mpslBeforeSignal mpslSignalled
    split
    · rfl
    · cases signal with
      | sessionClosed => exact absurd rfl hs
      | _ =>
        dsimp only
        repeat' split
        all_goals rfl
  refine framed_bind (fun p m => ?_) (ho ▸ framed_timeslotCallback V id hs _)
  show outsideCallback _ = _
  unfold mpslAfterReturn
  repeat' split
  all_goals rfl

theorem framed_closeSession (m : Machine) :
    (closeSession m).Framed (OfPart .timeslotCallback (signalLevel .sessionClosed)) outsideTimeslot
      (outsideTimeslot m) := by
  have hc : outsideTimeslot (outsideCallback (cleanupGrant m)) =
      outsideTimeslot (outsideCallback m) := congrArg outsideTimeslot outsideCallback_cleanupGrant
  refine framed_bind (fun _ m => ?_) ?_
  · exact outsideTimeslot_release
  · split
    · unfold callHandler
      split
      · trivial
      · exact ⟨⟨rfl, rfl⟩, hc, fun _ _ => rfl⟩
    · exact hc

theorem framed_deliverTimeslot (id : Nat) (signal : MpslSignal) (m : Machine) :
    (deliverTimeslot V id signal m).Framed
      (OfPart .timeslotCallback (signalLevel signal)) outsideTimeslot
      (outsideTimeslot m) := by
  by_cases hs : signal = .sessionClosed
  · rw [hs]
    refine framed_bind (fun p m => ?_) ?_
    · show outsideTimeslot _ = _
      unfold mpslAfterReturn
      repeat' split
      all_goals rfl
    · have ho : outsideTimeslot { m with mpsl := mpslBeforeSignal id .sessionClosed m.mpsl } =
          outsideTimeslot m := by
        unfold mpslBeforeSignal
        split <;> rfl
      unfold timeslotCallback
      split
      · exact ho
      · rw [if_pos rfl]
        exact ho ▸ framed_closeSession _
  · exact (framed_deliverSignal V id hs m).mono (fun _ h => h.part) outsideTimeslot

theorem framed_nrfkitTimeslotOpen (handler : Option Handler) (context : Nat) (m : Machine) :
    (nrfkitTimeslotOpen V handler context m).Framed (OfPart .timeslotOpen 2) outsideOpen
      (outsideOpen m) := by
  have hretain : ∀ m, outsideOpen (nrfkitMpslTimeslotRetain V m).2 = outsideOpen m := by
    intro m
    obtain ⟨pf, h⟩ := retain_eq V m
    rw [h]
    rfl
  have hrelease : ∀ m, outsideOpen (nrfkitMpslTimeslotRelease m) = outsideOpen m := by
    intro m
    obtain ⟨pf, h⟩ := releaseReference_eq m
    rw [h]
    rfl
  unfold nrfkitTimeslotOpen
  cases handler with
  | none => rfl
  | some h =>
    dsimp only
    split
    · rfl
    · split
      · exact hretain m
      · refine framed_vendorCall ⟨rfl, rfl⟩ (hretain m) (fun m reply => rfl) (fun reply m => ?_)
        split
        · exact hrelease m
        · rfl

theorem framed_nrfkitTimeslotRequestEarliest (l t c : UInt32) (m : Machine) :
    (nrfkitTimeslotRequestEarliest V l t c m).Framed (OfPart .timeslotRequest 2) outsideRequest
      (outsideRequest m) := by
  unfold nrfkitTimeslotRequestEarliest
  split
  · rfl
  · split
    · rfl
    · refine framed_vendorCall ⟨rfl, rfl⟩ rfl (fun m reply => ?_) (fun reply m => ?_)
      · unfold outsideRequest
        rw [platformCalls_noteCall (by exact (nofun : Part.timeslotRequest ≠ .platform))]
        unfold Machine.vendorEffect
        dsimp only
        split <;> rfl
      · split <;> rfl

theorem framed_nrfkitTimeslotClose (m : Machine) :
    (nrfkitTimeslotClose V m).Framed (OfPart .timeslotClose 2) outsideClose (outsideClose m) := by
  unfold nrfkitTimeslotClose
  split
  · rfl
  · refine framed_vendorCall ⟨rfl, rfl⟩ rfl (fun m reply => ?_) (fun reply m => ?_)
    · unfold outsideClose
      rw [platformCalls_noteCall (by exact (nofun : Part.timeslotClose ≠ .platform))]
      rfl
    · split <;> rfl

end

/-! ## `rram.c` -/

section
variable {α : Type} {m : Machine}

@[simp] theorem outsideRram_release :
    outsideRram (nrfkitMpslTimeslotRelease m) = outsideRram m := by
  obtain ⟨pf, h⟩ := releaseReference_eq m
  rw [h]
  rfl

@[simp] theorem outsideRramCallback_setOperationResult (status : Int) :
    outsideRramCallback (setOperationResult status m) = outsideRramCallback m := by
  unfold setOperationResult
  dsimp only
  split <;> rfl

@[simp] theorem outsideRramProcess_setOperationResult (status : Int) :
    outsideRramProcess (setOperationResult status m) = outsideRramProcess m := by
  unfold setOperationResult
  dsimp only
  split <;> rfl

/-- A storage signal other than SESSION_CLOSED, waiting at level `n`. -/
abbrev RramCallbackFramed (n : Nat) (m : Machine) (t : FTurn α) : Prop :=
  t.Framed (OfPart .rramCallback n) outsideRramCallback (outsideRramCallback m)

theorem framed_waitReady {target : Option Nat} {m' : Machine} {k : Machine → FTurn α}
    (hx : outsideRramCallback m' = outsideRramCallback m) (hk : ∀ m, RramCallbackFramed 3 m (k m)) :
    RramCallbackFramed 3 m (waitReady target m' k) := by
  refine ⟨⟨rfl, rfl⟩, hx, fun ready m => ?_⟩
  dsimp only
  split
  · exact hk m
  · trivial

theorem framed_writeUnit (m : Machine) : RramCallbackFramed 3 m (writeUnit V m) := by
  refine ⟨⟨rfl, rfl⟩, rfl, fun ready m => ?_⟩
  dsimp only
  split
  · rfl
  · refine framed_waitReady rfl (fun m => ⟨⟨rfl, rfl⟩, rfl, fun held m => ?_⟩)
    exact framed_waitReady rfl (fun m => rfl)

theorem framed_grantUnit (m : Machine) : RramCallbackFramed 3 m (grantUnit V m) := by
  refine framed_bind (fun _ m => ?_) ?_
  · rfl
  · split
    · refine framed_bind (fun status m => ?_) (framed_writeUnit V m)
      dsimp only
      split
      · exact outsideRramCallback_setOperationResult status
      · exact outsideRramCallback_setOperationResult status
    · rfl

/-- A storage signal other than SESSION_CLOSED, with what MPSL does before it. -/
theorem framed_deliverRramSignal (id : Nat) {signal : MpslSignal} (hs : signal ≠ .sessionClosed)
    (m : Machine) : RramCallbackFramed (signalLevel signal) m (deliverRram V id signal m) := by
  have ho : outsideRramCallback (raiseRramSignal id signal m) = outsideRramCallback m := by
    unfold raiseRramSignal mpslBeforeRramSignal
    cases signal with
    | sessionClosed => exact absurd rfl hs
    | _ =>
      dsimp only
      repeat' split
      all_goals rfl
  unfold deliverRram RramCallbackFramed
  rw [← ho]
  generalize raiseRramSignal id signal m = m'
  unfold rramCallback
  split
  · rfl
  · cases signal with
    | start => exact framed_grantUnit V m'
    | sessionClosed => exact absurd rfl hs
    | blocked | cancelled | sessionIdle => rfl
    | _ => exact outsideRramCallback_setOperationResult _

theorem framed_deliverRram (id : Nat) (signal : MpslSignal) (m : Machine) :
    (deliverRram V id signal m).Framed (OfPart .rramCallback (signalLevel signal)) outsideRram
      (outsideRram m) := by
  by_cases hs : signal = .sessionClosed
  · rw [hs]
    have ho : outsideRram (raiseRramSignal id .sessionClosed m) = outsideRram m := by
      unfold raiseRramSignal mpslBeforeRramSignal
      split <;> rfl
    unfold deliverRram
    rw [← ho]
    generalize raiseRramSignal id .sessionClosed m = m'
    unfold rramCallback
    split
    · rfl
    · exact outsideRram_release
  · exact (framed_deliverRramSignal V id hs m).mono (fun _ h => h) outsideRram

theorem framed_nrfkitRramSubmit (region : Option RramRegion) (address : UInt32) (data : Bool)
    (size : UInt32) (m : Machine) :
    (nrfkitRramSubmit V region address data size m).Framed (OfPart .rramSubmit 2) outsideRram
      (outsideRram m) := by
  have hretain : outsideRram (nrfkitMpslTimeslotRetain V m).2 = outsideRram m := by
    obtain ⟨pf, h⟩ := retain_eq V m
    rw [h]
    rfl
  unfold nrfkitRramSubmit
  dsimp only
  split
  · rfl
  · split
    · rfl
    · split
      · rfl
      · split
        · exact hretain
        · refine framed_vendorCall ⟨rfl, rfl⟩ hretain (fun m reply => rfl) (fun reply m => ?_)
          split
          · exact outsideRram_release
          · rfl

/-- A part of `nrfkit_rram_process`. -/
abbrev ProcessFramed (m : Machine) (t : FTurn α) : Prop :=
  t.Framed (OfPart .rramProcess 2) outsideRramProcess (outsideRramProcess m)

theorem framed_preempt {stopping : Bool} {m' : Machine} {k : Machine → FTurn α}
    (hx : outsideRramProcess m' = outsideRramProcess m) (hk : ∀ m, ProcessFramed m (k m)) :
    ProcessFramed m (preempt stopping m' k) :=
  ⟨⟨rfl, rfl⟩, hx, fun _ m => hk m⟩

theorem framed_requestClose (m : Machine) : ProcessFramed m (requestClose m) := by
  refine framed_preempt rfl (fun m =>
    framed_vendorCall ⟨rfl, rfl⟩ rfl (fun m reply => ?_) (fun reply m => ?_))
  · unfold outsideRramProcess
    rw [platformCalls_noteCall (by exact (nofun : Part.rramProcess ≠ .platform))]
    unfold Machine.vendorEffect
    dsimp only
    split <;> rfl
  · split
    · exact framed_preempt rfl (fun m => outsideRramProcess_setOperationResult _)
    · rfl

theorem framed_requestGrant (m : Machine) : ProcessFramed m (requestGrant m) := by
  refine framed_preempt rfl (fun m => framed_preempt rfl (fun m =>
    framed_vendorCall ⟨rfl, rfl⟩ rfl (fun m reply => ?_) (fun reply m => ?_)))
  · unfold outsideRramProcess
    rw [platformCalls_noteCall (by exact (nofun : Part.rramProcess ≠ .platform))]
    unfold Machine.vendorEffect
    dsimp only
    split <;> rfl
  · split
    · exact framed_preempt (outsideRramProcess_setOperationResult _) (fun m => rfl)
    · rfl

theorem framed_nrfkitRramProcess (m : Machine) : ProcessFramed m (nrfkitRramProcess V m) := by
  unfold nrfkitRramProcess
  split
  · rfl
  · refine framed_preempt rfl (fun m => ?_)
    split
    · rfl
    · refine framed_preempt rfl (fun m => framed_bind (fun _ m => ?_) ?_)
      · refine framed_preempt rfl (fun m => ?_)
        split
        · exact framed_preempt rfl framed_requestClose
        · refine framed_preempt rfl (fun m => ?_)
          split
          · exact framed_preempt rfl framed_requestClose
          · refine framed_preempt rfl (fun m => ?_)
            split
            · exact framed_preempt rfl framed_requestGrant
            · rfl
      · split
        · exact framed_preempt rfl (fun m => outsideRramProcess_setOperationResult _)
        · rfl

end

/-! ## Every program -/

/-- The functions that wait while the program runs; RADIO ownership calls and the hardware never
wait. -/
def Entry.part : Entry → Option Part
  | .timeslotOpen _ _ => some .timeslotOpen
  | .timeslotRequestEarliest _ _ _ => some .timeslotRequest
  | .timeslotClose => some .timeslotClose
  | .timeslotSignal _ _ => some .timeslotCallback
  | .rramSubmit _ _ _ _ => some .rramSubmit
  | .rramProcess => some .rramProcess
  | .rramSignal _ _ => some .rramCallback
  | .sdcRequiredMemory _ _ | .sdcEnable _ _ _ | .sdcDisable | .sdcProcess | .hfclk24mRequest
  | .hfclk24mIsRunning _ | .hfclk24mRelease => some .platform
  | .radioAcquire _ | .radioRelease
    _ | .mpslDropRequest | .swi00 | .timer0Compare | .radioRegisters _ _
  | .radioState _ | .clocks _ _ _ | .callerData _ => none

/-- All that the program leaves alone. -/
def Entry.view : Entry → Machine → Machine
  | .timeslotOpen _ _ => outsideOpen
  | .timeslotRequestEarliest _ _ _ => outsideRequest
  | .timeslotClose => outsideClose
  | .timeslotSignal _ _ => outsideTimeslot
  | .rramSubmit _ _ _ _ | .rramSignal _ _ => outsideRram
  | .rramProcess => outsideRramProcess
  | .sdcRequiredMemory _ _ | .sdcEnable _ _ _ | .sdcDisable | .sdcProcess | .hfclk24mRequest
  | .hfclk24mIsRunning _ | .hfclk24mRelease => outsidePlatform
  | .radioAcquire _ | .radioRelease _ => outsideOwnership
  | .mpslDropRequest | .swi00 | .timer0Compare | .radioRegisters _ _
  | .radioState _ | .clocks _ _ _ | .callerData _ => outsideHardware

/-- The queries with which the program waits. -/
def Entry.Waits (e : Entry) (q : Query) : Prop := e.part = some q.part ∧ level q = e.rank

theorem Entry.Waits.part_ne {e : Entry} {q : Query} {part : Part} (hq : e.Waits q)
    (h : e.part ≠ some part) : q.part ≠ part :=
  fun heq => h (hq.1.trans (congrArg some heq))

/-- **What each program leaves alone, and where it waits.** -/
theorem framed_program (e : Entry) (m : Machine) :
    (program V e m).Framed e.Waits e.view (e.view m) := by
  have own : ∀ {part : Part} {α : Type} {t : FTurn α} {g : α → Ret} (_ : e.part = some part)
      (_ : t.Framed (OfPart part e.rank) e.view (e.view m)),
        (t.map g).Framed e.Waits e.view (e.view m) :=
    fun hpart ht => (framed_map ht).waits fun _ hq => ⟨hpart.trans (congrArg some hq.1.symm), hq.2⟩
  cases e with
  | timeslotOpen h c => exact own rfl (framed_nrfkitTimeslotOpen V h c m)
  | timeslotRequestEarliest l t c => exact own rfl (framed_nrfkitTimeslotRequestEarliest V l t c m)
  | timeslotClose => exact own rfl (framed_nrfkitTimeslotClose V m)
  | sdcRequiredMemory c out => exact own rfl (framed_nrfkitSdcRequiredMemory V c out m)
  | sdcEnable c memory size => exact own rfl (framed_nrfkitSdcEnable V c memory size m)
  | sdcDisable => exact own rfl (framed_nrfkitSdcDisable V m)
  | sdcProcess => exact own rfl (framed_nrfkitSdcProcess m)
  | hfclk24mRequest => exact own rfl (framed_nrfkitMpslHfclk24mRequest V m)
  | hfclk24mIsRunning out => exact own rfl (framed_nrfkitMpslHfclk24mIsRunning V out m)
  | hfclk24mRelease => exact own rfl (framed_nrfkitMpslHfclk24mRelease V m)
  | rramSubmit r a d size => exact own rfl (framed_nrfkitRramSubmit V r a d size m)
  | rramProcess => exact own rfl (framed_nrfkitRramProcess V m)
  | timeslotSignal id signal => exact own rfl (framed_deliverTimeslot V id signal m)
  | rramSignal id signal => exact own rfl (framed_deliverRram V id signal m)
  | radioAcquire owner =>
    obtain ⟨o, ho⟩ := acquire_eq owner m
    show outsideOwnership (nrfkitRadioAcquire owner m).2 = _
    rw [ho]
    rfl
  | radioRelease owner =>
    obtain ⟨o, r, ho⟩ := release_eq owner m
    show outsideOwnership (nrfkitRadioRelease owner m).2 = _
    rw [ho]
    rfl
  | mpslDropRequest | swi00 | timer0Compare | radioRegisters | radioState | clocks | callerData =>
    rfl

/-- Every program waits at the level it is entered at. -/
theorem program_atLevel (e : Entry) (m : Machine) : (program V e m).AtLevel level e.rank :=
  (framed_program V e m).mono (fun _ hq => hq.2) (fun _ => ())

/-- **The waiting programs of the firmware are layered in every run.** -/
theorem firmware_layered : Keeps (firmware V) Any (fun ctx _ => Layered level ctx) :=
  layered_keeps (fun _ _ _ h => h) (program_atLevel V)

section
variable {V} {X : Type} {f : Machine → X} {ctx : List Query} {e : Entry} {m : Machine}
  {sys : System Machine Query Answer Entry Ret} {J : List Query → Machine → Prop}

/-- A program moves nothing that its view shows. -/
theorem moves_program (e : Entry) (f : Machine → X) (hv : ∀ m, f (e.view m) = f m) :
    (program V e m).Moves sys J (fun s s' => f s' = f s) ctx (fun b _ s => f s = f b) m := by
  refine moves_framed (fun s s' hs => ?_) (framed_program V e m)
  exact ((hv s').symm.trans (congrArg f hs)).trans (hv s)

/-- What a view shows of a framed program keeps an invariant, if its waits do not matter to it. -/
theorem sat_view {α : Type} {I : List Query → X → Prop} {view : Machine → Machine}
    {W : Query → Prop} {t : FTurn α} (ht : t.Framed W view (view m)) (hv : ∀ m, f (view m) = f m)
    (hW : ∀ q ctx x, W q → (I (q :: ctx) x ↔ I ctx x)) (h : I ctx (f m)) :
    t.Sat sys J (fun ctx m => I ctx (f m)) ctx (fun _ m => I ctx (f m)) := by
  refine sat_framed (I := fun ctx m => I ctx (f m)) (fun ctx s s' hs h => ?_)
    (fun q ctx s hq => hW q ctx (f s) hq) h ht
  have hsame : f s' = f s := ((hv s').symm.trans (congrArg f hs)).trans (hv s)
  rw [hsame]
  exact h

/-- The same of a program and its view. -/
theorem sat_program {I : List Query → X → Prop} (e : Entry) (f : Machine → X)
    (hv : ∀ m, f (e.view m) = f m) (hW : ∀ q ctx x, e.Waits q → (I (q :: ctx) x ↔ I ctx x))
    (h : I ctx (f m)) :
    (program V e m).Sat sys J (fun ctx m => I ctx (f m)) ctx (fun _ m => I ctx (f m)) :=
  sat_view (framed_program V e m) hv hW h

end

/-! ## The clients of MPSL -/

/-- What the clients of MPSL leave alone of `platform.c`: all but the reference counters. -/
def clientView (m : Machine) : Platform × List CallNote :=
  ({ m.pf with timeslotReferences := 0, mpslClientReferences := 0, lowPriorityPending := false },
    platformCalls m.ghost.calls)

section
variable {V} {m : Machine}

@[simp] theorem clientView_retain : clientView (nrfkitMpslTimeslotRetain V m).2 = clientView m := by
  obtain ⟨t, c, h⟩ := retain_references V m
  rw [h]
  rfl

@[simp] theorem clientView_release : clientView (nrfkitMpslTimeslotRelease m) = clientView m := by
  obtain ⟨t, c, h⟩ := release_references m
  rw [h]
  rfl

/-- A call of another module. -/
theorem clientView_call {call : VendorCall} (h : call.part ≠ .platform) (m : Machine)
    (reply : VendorReply) :
    clientView ((m.vendorEffect call reply).noteCall call reply.result) = clientView m := by
  unfold clientView
  rw [platformCalls_noteCall h]
  unfold Machine.vendorEffect
  cases call with
  | timeslotRequest | rramRequest | rramSessionClose =>
    dsimp only
    split <;> rfl
  | _ => rfl

theorem client_closeSession (m : Machine) :
    (closeSession m).Framed (OfPart .timeslotCallback (signalLevel .sessionClosed)) clientView
      (clientView m) := by
  have hcleanup : clientView (cleanupGrant m) = clientView m := by
    obtain ⟨t, r, o, _, h⟩ := cleanupGrant_eq m
    rw [h]
    rfl
  refine framed_bind (fun _ m => ?_) ?_
  · exact clientView_release
  · dsimp only
    split
    · unfold callHandler
      split
      · trivial
      · exact ⟨⟨rfl, rfl⟩, hcleanup, fun _ _ => rfl⟩
    · exact hcleanup

theorem client_timeslotOpen (handler : Option Handler) (context : Nat) (m : Machine) :
    (nrfkitTimeslotOpen V handler context m).Framed (OfPart .timeslotOpen 2) clientView
      (clientView m) := by
  unfold nrfkitTimeslotOpen
  cases handler with
  | none => rfl
  | some h =>
    dsimp only
    split
    · rfl
    split
    · exact clientView_retain
    refine framed_vendorCall ⟨rfl, rfl⟩ clientView_retain (clientView_call nofun)
      (fun reply m => ?_)
    split
    · exact clientView_release
    · rfl

theorem client_rramSubmit (region : Option RramRegion) (address : UInt32) (data : Bool)
    (size : UInt32) (m : Machine) :
    (nrfkitRramSubmit V region address data size m).Framed (OfPart .rramSubmit 2) clientView
      (clientView m) := by
  unfold nrfkitRramSubmit
  dsimp only
  split
  · rfl
  split
  · rfl
  split
  · rfl
  split
  · exact clientView_retain
  refine framed_vendorCall ⟨rfl, rfl⟩ clientView_retain (clientView_call nofun) (fun reply m => ?_)
  split
  · exact clientView_release
  · rfl

theorem client_deliverClosed (id : Nat) (m : Machine) :
    (deliverTimeslot V id .sessionClosed m).Framed
      (OfPart .timeslotCallback (signalLevel .sessionClosed)) clientView
      (clientView m) := by
  refine framed_bind (fun p m => ?_) ?_
  · show clientView _ = _
    unfold mpslAfterReturn
    repeat' split
    all_goals rfl
  · unfold timeslotCallback
    split
    · rfl
    · rw [if_pos rfl]
      exact client_closeSession { m with mpsl := mpslBeforeSignal id .sessionClosed m.mpsl }

theorem client_deliverRramClosed (id : Nat) (m : Machine) :
    (deliverRram V id .sessionClosed m).Framed
      (OfPart .rramCallback (signalLevel .sessionClosed)) clientView
      (clientView m) := by
  unfold deliverRram rramCallback
  split
  · rfl
  · exact clientView_release

@[simp] theorem platformCalls_platformCalls (calls : List CallNote) :
    platformCalls (platformCalls calls) = platformCalls calls := by
  simp [platformCalls]

/-- **The clients and the hardware leave `platform.c` alone but for the counters.** -/
theorem framed_client {e : Entry} (he : e.part ≠ some .platform) (m : Machine) :
    (program V e m).Framed e.Waits clientView (clientView m) := by
  have own : ∀ {part : Part} {α : Type} {t : FTurn α} {g : α → Ret} (_ : e.part = some part)
      (_ : t.Framed (OfPart part e.rank) clientView (clientView m)),
        (t.map g).Framed e.Waits clientView (clientView m) :=
    fun hpart ht => (framed_map ht).waits fun _ hq => ⟨hpart.trans (congrArg some hq.1.symm), hq.2⟩
  have hview : (∀ m, clientView (e.view m) = clientView m) →
      (program V e m).Framed e.Waits clientView (clientView m) := by
    intro hv
    have h := (framed_program V e m).mono (fun _ hq => hq) clientView
    simp only [hv] at h
    exact h
  have hcalls : ∀ m : Machine, (({ m.pf
      with timeslotReferences := 0, mpslClientReferences := 0, lowPriorityPending := false },
      platformCalls (platformCalls m.ghost.calls)) : Platform × List CallNote) = clientView m := by
    intro m
    rw [platformCalls_platformCalls]
    rfl
  cases e with
  | timeslotOpen h c => exact own rfl (client_timeslotOpen h c m)
  | rramSubmit r a d size => exact own rfl (client_rramSubmit r a d size m)
  | timeslotSignal id signal =>
    by_cases hs : signal = .sessionClosed
    · rw [hs] at own ⊢
      exact own rfl (client_deliverClosed id m)
    · exact own rfl ((framed_deliverSignal V id hs m).mono (fun _ h => h.part) clientView)
  | rramSignal id signal =>
    by_cases hs : signal = .sessionClosed
    · rw [hs] at own ⊢
      exact own rfl (client_deliverRramClosed id m)
    · exact own rfl ((framed_deliverRramSignal V id hs m).mono (fun _ h => h) clientView)
  | timeslotRequestEarliest | timeslotClose | rramProcess => exact hview hcalls
  | radioAcquire | radioRelease | mpslDropRequest | swi00 | timer0Compare | radioRegisters
  | radioState | clocks | callerData => exact hview fun _ => rfl
  | _ => exact absurd rfl he

end

/-! ## Over a waiting call -/

/-- A signal of the Timeslot session. -/
def Entry.isTimeslotSignal : Entry → Bool
  | .timeslotSignal _ _ => true
  | _ => false

section
variable {V} {X : Type} {f : Machine → X} {ctx : List Query} {e : Entry} {m : Machine}

/-- Over a wait of level `n` only programs of higher levels are entered. -/
theorem rank_over {n : Nat} (hq : ∃ q ∈ ctx, level q = n)
    (he : (firmware V).enters ctx e m = true) : n < e.rank := by
  obtain ⟨q, hq, hn⟩ := hq
  have := above_iff.mp he q hq
  omega

/-- A program framed by a view leaves alone what the view shows. -/
theorem moves_view {view : Machine → Machine} {W : Query → Prop} {α β : Type} {t : FTurn α}
    {g : α → β} {sys : System Machine Query Answer Entry Ret} {J : List Query → Machine → Prop}
    (ht : t.Framed W view (view m)) (hv : ∀ m, f (view m) = f m) :
    (t.map g).Moves sys J (fun s s' => f s' = f s) ctx (fun b _ s => f s = f b) m := by
  refine moves_map.mpr (moves_framed (fun s s' hs => ?_) ht)
  exact ((hv s').symm.trans (congrArg f hs)).trans (hv s)

/-- **Over an API call.** Only interrupts are entered over one: signals to the two sessions other
than the deferred ones, and the hardware. -/
theorem over_call (hq : ∃ q ∈ ctx, level q = 2) (he : (firmware V).enters ctx e m = true)
    (htimeslot : e.isTimeslotSignal = true → ∀ m, f (outsideCallback m) = f m)
    (hrram : ∀ m, f (outsideRramCallback m) = f m) (hownership : ∀ m, f (outsideOwnership m) = f m)
    (hhardware : ∀ m, f (outsideHardware m) = f m) :
    ((firmware V).prog e m).Moves (firmware V) Any (fun s s' => f s' = f s) ctx
      (fun b _ s => f s = f b) m := by
  have hrank := rank_over hq he
  have hlow : ∀ {signal : MpslSignal}, 2 < signalLevel signal → signal ≠ .sessionClosed := by
    rintro signal h rfl
    exact absurd h (by decide)
  have hmoves : (∀ m, f (e.view m) = f m) →
      ((firmware V).prog e m).Moves (firmware V) Any (fun s s' => f s' = f s) ctx
      (fun b _ s => f s = f b) m := moves_program e f
  cases e with
  | timeslotSignal id signal =>
    exact moves_view (framed_deliverSignal V id (hlow hrank) m) (htimeslot rfl)
  | rramSignal id signal => exact moves_view (framed_deliverRramSignal V id (hlow hrank) m) hrram
  | radioAcquire | radioRelease => exact hmoves hownership
  | mpslDropRequest | swi00 | timer0Compare | radioRegisters | radioState | clocks | callerData =>
    exact hmoves hhardware
  | _ => exact absurd hrank (by simp [Entry.rank])

end

end NrfKit.Firmware
