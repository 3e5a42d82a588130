import NrfKit.Lib.Interleave

/- `src/usb/nrf54l/usb_glue_dwc2.c`: attaching the USB device when VBUS is there.
   `nrfkit_usbhs_connect` runs in main context, `VREGUSB_IRQHandler` may come between any
   two of its statements, and both test and set `connected` without masking the other.

   Between its test of VBUS and its write of `connected`, and from there to its report to
   the stack, `connect` must not be overtaken: `overtaken_connect_keeps_connected` is a
   run in which it is, `attach_consistent` what holds of every run in which it is not. -/
namespace NrfKit.Usb
open Interleave

inductive StackEvent where
  | connect
  | disconnect
  deriving DecidableEq, Repr

/-- Masks of the USBHS PHY registers. -/
structure Masks where
  id : UInt32
  vbusValid : UInt32
  suspendM0 : UInt32

/-- The static variables, the PHY override registers and what the stack was told, newest
last. -/
structure Port where
  initialized : Bool := true
  connected : Bool := false
  connectRequested : Bool := false
  vbusPresent : Bool
  inputOverride : UInt32
  overrideValues : UInt32
  result : Int := 0
  stage : Nat := 6
  events : List StackEvent := []
  deriving DecidableEq

/-- Where `connect` may be interrupted: after the statement named. `vbusRead` and
`vbusMissed` are its test of VBUS, by what it found. -/
inductive Point where
  | connectedRead
  | initializedRead
  | requestedSet
  | vbusRead
  | vbusMissed
  | inputOverridden
  | valuesOverridden
  | connectedSet
  | reported
  | resultSet
  | stageSet
  deriving DecidableEq, Repr

abbrev PortTurn := Turn Port Point (fun _ => Unit) Int

def okResult : Int := 0
def errState : Int := -4

variable (masks : Masks)

/-- Goes on after an interruption. -/
def interruptible (point : Point) (p : Port) (rest : Port → PortTurn) : PortTurn :=
  .wait p point fun _ p => rest p

def nrfkitUsbhsConnect (p : Port) : PortTurn :=
  if p.connected then .done p okResult
  else interruptible .connectedRead p fun p =>
    if !p.initialized then interruptible .initializedRead p fun p =>
      let p := { p with result := errState }
      interruptible .resultSet p fun p => .done p p.result
    else interruptible .initializedRead p fun p =>
      let p := { p with connectRequested := true }
      interruptible .requestedSet p fun p =>
        if !p.vbusPresent then interruptible .vbusMissed p fun p =>
          let p := { p with result := okResult }
          interruptible .resultSet p fun p => .done p p.result
        else interruptible .vbusRead p fun p =>
          let p := { p with inputOverride := masks.id }
          interruptible .inputOverridden p fun p =>
            let p := { p with overrideValues := masks.id }
            interruptible .valuesOverridden p fun p =>
              let p := { p with connected := true }
              interruptible .connectedSet p fun p =>
                let p := { p with events := p.events ++ [.connect] }
                interruptible .reported p fun p =>
                  let p := { p with result := okResult }
                  interruptible .resultSet p fun p =>
                    let p := { p with stage := 7 }
                    interruptible .stageSet p fun p => .done p p.result

/-- The body of the handler for EVENTS_VBUSREMOVED. -/
def vbusRemoved (p : Port) : Port :=
  let p := { p with
    inputOverride := p.inputOverride ||| masks.vbusValid
    overrideValues := p.overrideValues &&& ~~~ masks.vbusValid
    connected := false
    vbusPresent := false }
  if p.initialized then { p with events := p.events ++ [.disconnect] } else p

/-- The body of the handler for EVENTS_VBUSDETECTED. -/
def vbusDetected (p : Port) : Port :=
  let p := { p with vbusPresent := true }
  if p.initialized ∧ p.connectRequested ∧ !p.connected then
    { p with
      inputOverride := masks.id
      overrideValues := masks.id
      connected := true
      events := p.events ++ [.connect] }
  else p

/-- `VREGUSB_IRQHandler`, for the two event registers it finds. -/
def vregusbIrqHandler (removed detected : Bool) (p : Port) : Port :=
  let p := if removed then vbusRemoved masks p else p
  if detected then vbusDetected masks p else p

inductive Entry where
  | connect
  | vregusb (removed detected : Bool)
  deriving DecidableEq, Repr

/-- The main context calls `connect` while none is in progress; the interrupt comes at
any time. -/
def port : System Port Point (fun _ => Unit) Entry Int where
  prog
    | .connect, p => nrfkitUsbhsConnect masks p
    | .vregusb removed detected, p => .done (vregusbIrqHandler masks removed detected p) okResult
  enters ctx e _ := e != .connect || ctx.isEmpty
  answers _ _ _ _ := true

/-- The runs in which no interrupt overtakes `connect`: where it sets `connected`, VBUS
is still there and nothing else has connected; and no removal comes before it has told
the stack. -/
def undisturbed : System Port Point (fun _ => Unit) Entry Int :=
  (port masks).assuming
    (fun ctx e _ => match ctx, e with
      | .connectedSet :: _, .vregusb removed _ => !removed
      | _, _ => true)
    (fun _ point _ p => match point with
      | .valuesOverridden => p.vbusPresent && !p.connected
      | _ => true)

/-! ## What is kept -/

/-- Two connect events have a disconnect event between them. -/
def Alternating (events : List StackEvent) : Prop :=
  ¬ ∃ before after, events = before ++ .connect :: .connect :: after

/-- The stack was last told of a connection. -/
def told (events : List StackEvent) : Bool := events.getLast? == some .connect

/-- The port after `usb_dc_low_level_init`. -/
def Port.afterInit (vbusPresent : Bool) : Port where
  vbusPresent := vbusPresent
  inputOverride := (masks.id ||| masks.vbusValid ||| masks.suspendM0) &&& ~~~ masks.suspendM0
  overrideValues := masks.id

/-- Connected means VBUS, and the stack knows. -/
structure Attached (p : Port) : Prop where
  initialized : p.initialized = true
  vbus : p.connected = true → p.vbusPresent = true
  requested : p.connected = true → p.connectRequested = true
  told : told p.events = p.connected
  alternating : Alternating p.events

/-- What the interrupt and the stack do not see changes nothing. -/
theorem Attached.same {p p' : Port} (h : Attached p) (hinitialized : p'.initialized = p.initialized)
    (hconnected : p'.connected = p.connected) (hvbus : p'.vbusPresent = p.vbusPresent)
    (hrequested : p'.connectRequested = p.connectRequested) (hevents : p'.events = p.events) :
    Attached p' := by
  refine ⟨hinitialized ▸ h.initialized, ?_, ?_, ?_, hevents ▸ h.alternating⟩
  · rw [hconnected, hvbus]
    exact h.vbus
  · rw [hconnected, hrequested]
    exact h.requested
  · rw [hevents, hconnected]
    exact h.told

/-- What holds at each point of `connect`. -/
def PortOk : List Point → Port → Prop
  | [], p => Attached p ∧ (p.connectRequested = true → p.vbusPresent = true → p.connected = true)
  | point :: _, p =>
    match point with
    | .requestedSet | .vbusRead | .inputOverridden | .valuesOverridden =>
      Attached p ∧ p.connectRequested = true
    | .connectedSet =>
      Attached { p with connected := false } ∧ p.connected = true ∧ p.vbusPresent = true ∧
        p.connectRequested = true
    | _ => Attached p ∧ (p.connectRequested = true → p.vbusPresent = true → p.connected = true)

theorem alternating_concat {events : List StackEvent} (h : Alternating events) {event : StackEvent}
    (hlast : event = .connect → told events = false) : Alternating (events ++ [event]) := by
  rintro ⟨before, after, he⟩
  rcases List.eq_nil_or_concat after with rfl | ⟨init, last, rfl⟩
  · have h2 : before ++ [StackEvent.connect, StackEvent.connect] =
        (before ++ [StackEvent.connect]) ++ [StackEvent.connect] := by
      rw [List.append_assoc]
      rfl
    rw [h2] at he
    obtain ⟨hevents, hevent⟩ := List.append_inj' he rfl
    have hfree := hlast (List.cons.inj hevent).1
    rw [hevents, told, List.getLast?_concat] at hfree
    cases hfree
  · refine h ⟨before, init, ?_⟩
    have h2 : before ++ StackEvent.connect :: StackEvent.connect :: (init ++ [last]) =
        (before ++ StackEvent.connect :: StackEvent.connect :: init) ++ [last] := by
      rw [List.append_assoc]
      rfl
    rw [List.concat_eq_append, h2] at he
    exact (List.append_inj' he rfl).1

theorem told_concat (events : List StackEvent) (event : StackEvent) :
    told (events ++ [event]) = (event == .connect) := by
  rw [told, List.getLast?_concat]
  rfl

/-! ## The interrupt -/

section
variable {p : Port}

theorem removed_attached (h : p.initialized = true) (ha : Alternating p.events) :
    Attached (vbusRemoved masks p) ∧ (vbusRemoved masks p).vbusPresent = false ∧
      (vbusRemoved masks p).connectRequested = p.connectRequested := by
  unfold vbusRemoved
  dsimp only
  rw [if_pos h]
  exact ⟨⟨h, nofun, nofun, told_concat _ _, alternating_concat ha nofun⟩, rfl, rfl⟩

theorem detected_attached (h : Attached p) :
    Attached (vbusDetected masks p) ∧ (vbusDetected masks p).connectRequested = p.connectRequested ∧
      (p.connectRequested = true → (vbusDetected masks p).connected = true) := by
  unfold vbusDetected
  dsimp only
  by_cases hconnects : p.initialized ∧ p.connectRequested ∧ !p.connected
  · rw [if_pos hconnects]
    have hfree : told p.events = false := by
      rw [h.told]
      simpa using hconnects.2.2
    exact ⟨⟨h.initialized, fun _ => rfl, fun _ => hconnects.2.1, told_concat _ _,
      alternating_concat h.alternating fun _ => hfree⟩, rfl, fun _ => rfl⟩
  · rw [if_neg hconnects]
    refine ⟨⟨h.initialized, fun _ => rfl, h.requested, h.told, h.alternating⟩, rfl, fun hr => ?_⟩
    cases hc : p.connected with
    | true => rfl
    | false => exact absurd ⟨h.initialized, hr, by rw [hc]; rfl⟩ hconnects

/-- The interrupt keeps the port attached, and what was requested stays so. If a request
found VBUS connected before, it does after. -/
theorem vregusb_attached (h : Attached p) (removed detected : Bool) :
    Attached (vregusbIrqHandler masks removed detected p) ∧
      (vregusbIrqHandler masks removed detected p).connectRequested = p.connectRequested ∧
      ((p.connectRequested = true → p.vbusPresent = true → p.connected = true) →
        p.connectRequested = true →
        (vregusbIrqHandler masks removed detected p).vbusPresent = true →
          (vregusbIrqHandler masks removed detected p).connected = true) := by
  have hremoved : Attached (if removed then vbusRemoved masks p else p) ∧
      (if removed then vbusRemoved masks p else p).connectRequested = p.connectRequested ∧
      ((p.connectRequested = true → p.vbusPresent = true → p.connected = true) →
        p.connectRequested = true →
        (if removed then vbusRemoved masks p else p).vbusPresent = true →
          (if removed then vbusRemoved masks p else p).connected = true) := by
    cases removed with
    | true =>
      obtain ⟨ha, hv, hr⟩ := removed_attached masks h.initialized h.alternating
      exact ⟨ha, hr, fun _ _ hp => absurd (hv.symm.trans hp) nofun⟩
    | false => exact ⟨h, rfl, fun hi => hi⟩
  unfold vregusbIrqHandler
  dsimp only
  generalize (if removed then vbusRemoved masks p else p) = p' at hremoved ⊢
  obtain ⟨ha, hr, hi⟩ := hremoved
  cases detected with
  | true =>
    obtain ⟨ha', hr', hc'⟩ := detected_attached masks ha
    exact ⟨ha', hr'.trans hr, fun _ hreq _ => hc' (hr.trans hreq)⟩
  | false => exact ⟨ha, hr, hi⟩

/-- While `connect` has set `connected` and not yet told the stack, the interrupt finds
nothing to do but to note VBUS again. -/
theorem vregusb_pending (detected : Bool) (hc : p.connected = true) (hv : p.vbusPresent = true) :
    vregusbIrqHandler masks false detected p = p := by
  have hsame : { p with vbusPresent := true } = p := by rw [← hv]
  cases detected with
  | false => rfl
  | true =>
    show vbusDetected masks p = p
    unfold vbusDetected
    rw [hsame]
    exact if_neg (fun h => by rw [hc] at h; exact absurd h.2.2 nofun)

/-- An interrupt keeps what holds at the point it comes to. -/
theorem vregusb_ok {ctx : List Point} {removed detected : Bool} (h : PortOk ctx p)
    (hmay : (undisturbed masks).enters ctx (.vregusb removed detected) p = true) :
    PortOk ctx (vregusbIrqHandler masks removed detected p) := by
  have hwhole : Attached p ∧
      (p.connectRequested = true → p.vbusPresent = true → p.connected = true) →
      Attached (vregusbIrqHandler masks removed detected p) ∧
        ((vregusbIrqHandler masks removed detected p).connectRequested = true →
          (vregusbIrqHandler masks removed detected p).vbusPresent = true →
            (vregusbIrqHandler masks removed detected p).connected = true) := by
    intro hw
    obtain ⟨ha, hr, hi⟩ := vregusb_attached masks hw.1 removed detected
    exact ⟨ha, fun hreq => hi hw.2 (hr.symm.trans hreq)⟩
  have hpart : Attached p ∧ p.connectRequested = true →
      Attached (vregusbIrqHandler masks removed detected p) ∧
        (vregusbIrqHandler masks removed detected p).connectRequested = true := by
    intro hw
    obtain ⟨ha, hr, _⟩ := vregusb_attached masks hw.1 removed detected
    exact ⟨ha, hr.trans hw.2⟩
  match ctx with
  | [] => exact hwhole h
  | point :: _ =>
    cases point with
    | requestedSet => exact hpart h
    | vbusRead => exact hpart h
    | inputOverridden => exact hpart h
    | valuesOverridden => exact hpart h
    | connectedSet =>
      have hkept := (assuming_enters.mp hmay).2
      cases removed with
      | true => cases hkept
      | false =>
        rw [vregusb_pending masks detected h.2.1 h.2.2.1]
        exact h
    | connectedRead => exact hwhole h
    | initializedRead => exact hwhole h
    | vbusMissed => exact hwhole h
    | reported => exact hwhole h
    | resultSet => exact hwhole h
    | stageSet => exact hwhole h

/-! ## The call -/

/-- `connect`, step by step. -/
theorem connect_ok (h : PortOk [] p) :
    (nrfkitUsbhsConnect masks p).Sat (undisturbed masks) Any PortOk []
      (fun _ p => PortOk [] p) := by
  have hend : ∀ p : Port, PortOk [] p → PortOk [] { p with result := okResult } :=
    fun _ hp => ⟨hp.1.same rfl rfl rfl rfl rfl, hp.2⟩
  unfold nrfkitUsbhsConnect interruptible
  split
  · exact h
  refine ⟨h, fun _ p _ h _ => ?_⟩
  dsimp only
  split
  · rename_i hno
    rw [(show Attached p from h.1).initialized] at hno
    cases hno
  refine ⟨h, fun _ p _ h _ => ?_⟩
  have hrequest : PortOk [.requestedSet] { p with connectRequested := true } :=
    ⟨⟨h.1.initialized, h.1.vbus, fun _ => rfl, h.1.told, h.1.alternating⟩, rfl⟩
  refine ⟨hrequest, fun _ p _ h _ => ?_⟩
  dsimp only
  split
  · rename_i hno
    have habsent : p.vbusPresent = false := by simpa using hno
    refine ⟨⟨h.1, fun _ hv => absurd (habsent.symm.trans hv) nofun⟩, fun _ p _ h _ => ?_⟩
    exact ⟨hend p h, fun _ p _ h _ => h⟩
  refine ⟨h, fun _ p _ h _ => ?_⟩
  refine ⟨⟨h.1.same rfl rfl rfl rfl rfl, h.2⟩, fun _ p _ h _ => ?_⟩
  refine ⟨⟨h.1.same rfl rfl rfl rfl rfl, h.2⟩, fun _ p _ h ha => ?_⟩
  -- The one place the runs are restricted: no interrupt has come since the test of VBUS.
  have hkept := (assuming_answers.mp ha).2
  dsimp only at hkept
  rw [Bool.and_eq_true, Bool.not_eq_true'] at hkept
  refine ⟨⟨?_, rfl, hkept.1, h.2⟩, fun _ p _ h _ => ?_⟩
  · exact ⟨h.1.initialized, nofun, nofun, by rw [h.1.told, hkept.2], h.1.alternating⟩
  obtain ⟨hpending, hc, hv, hr⟩ := h
  have hreported : PortOk [] { p with events := p.events ++ [.connect] } :=
    ⟨⟨hpending.initialized, fun _ => hv, fun _ => hr, by rw [told_concat, hc]; rfl,
      alternating_concat hpending.alternating fun _ => hpending.told⟩, fun _ _ => hc⟩
  refine ⟨hreported, fun _ p _ h _ => ?_⟩
  refine ⟨hend p h, fun _ p _ h _ => ?_⟩
  exact ⟨⟨h.1.same rfl rfl rfl rfl rfl, h.2⟩, fun _ _ _ h _ => h⟩

theorem port_keeps : Keeps (undisturbed masks) Any PortOk := by
  intro ctx e p _ h he
  cases e with
  | connect =>
    have hidle : ctx = [] := by
      have henter := (assuming_enters.mp he).1
      simpa [port] using henter
    subst hidle
    exact connect_ok masks h
  | vregusb removed detected => exact vregusb_ok masks h he

end

/-- **The port is attached when VBUS is there.** In every state of every run in which no
interrupt overtakes `connect`: while no call is in progress, connected means VBUS and a
request with VBUS means connected; and the stack is never told of two connections
without a disconnection between them. -/
theorem attach_consistent (vbusPresent : Bool) {c : Config Port Point (fun _ => Unit) Int}
    (h : Reachable (undisturbed masks) (Port.afterInit masks vbusPresent) c) (hl : c.live = true) :
    (c.stack = [] → (c.state.connected = true → c.state.vbusPresent = true) ∧
      (c.state.connectRequested = true → c.state.vbusPresent = true → c.state.connected = true)) ∧
    Alternating c.state.events := by
  have hinitial : PortOk [] (Port.afterInit masks vbusPresent) := by
    refine ⟨⟨rfl, nofun, nofun, rfl, ?_⟩, nofun⟩
    rintro ⟨before, after, he⟩
    exact absurd (congrArg List.length he) (by
      simp only [Port.afterInit, List.length_append, List.length_cons, List.length_nil]
      omega)
  have hok := run_inv (port_keeps masks) hinitial h hl
  have hevents : Alternating c.state.events := by
    unfold Config.queries at hok
    cases hs : c.stack with
    | nil =>
      rw [hs] at hok
      exact hok.1.alternating
    | cons f below =>
      rw [hs, List.map_cons] at hok
      cases hq : f.query <;> rw [hq] at hok <;> exact hok.1.alternating
  refine ⟨fun hidle => ?_, hevents⟩
  rw [Config.queries, hidle] at hok
  exact ⟨hok.1.vbus, hok.2⟩

/-- The cable comes and goes while `connect` runs: off and on before the request, on
while `connected` is set and not yet reported, off before the result is written. The
cable that comes back after the call finds the request and connects. -/
theorem attach_consistent_later : ∃ c,
    Reachable (undisturbed ⟨1, 2, 4⟩) (Port.afterInit ⟨1, 2, 4⟩ true) c ∧
      c.state.events = [.disconnect, .connect, .disconnect, .connect] ∧
      c.state.connected = true ∧ c.state.vbusPresent = true ∧ Alternating c.state.events := by
  obtain ⟨c, h, hf⟩ := reachable_of_run (undisturbed ⟨1, 2, 4⟩) (Port.afterInit ⟨1, 2, 4⟩ true)
    ([.enter .connect, .resume fun _ => (), .enter (.vregusb true true)] ++
      List.replicate 5 (.resume fun _ => ()) ++
      [.enter (.vregusb false true), .resume fun _ => (), .enter (.vregusb true false)] ++
      List.replicate 3 (.resume fun _ => ()) ++ [.enter (.vregusb false true)])
    (fun c => c.live && c.stack.isEmpty && c.state.connected &&
      c.state.events == [.disconnect, .connect, .disconnect, .connect]) (by decide +kernel)
  simp only [Bool.and_eq_true, List.isEmpty_iff, beq_iff_eq] at hf
  obtain ⟨⟨⟨hl, hs⟩, hc⟩, he⟩ := hf
  obtain ⟨hport, hevents⟩ := attach_consistent ⟨1, 2, 4⟩ true h hl
  exact ⟨c, h, he, hc, (hport hs).1 hc, hevents⟩

/-- The cable leaves between the test of VBUS and the write of `connected`: the port is
connected without VBUS. -/
theorem overtaken_connect_keeps_connected :
    ¬ ∀ c, Reachable (port ⟨1, 2, 4⟩) (Port.afterInit ⟨1, 2, 4⟩ true) c → c.live = true →
      c.stack = [] → c.state.connected = true → c.state.vbusPresent = true := by
  intro hall
  obtain ⟨c, h, hf⟩ := reachable_of_run (port ⟨1, 2, 4⟩) (Port.afterInit ⟨1, 2, 4⟩ true)
    (.enter .connect :: List.replicate 3 (.resume fun _ => ()) ++ [.enter (.vregusb true false)] ++
      List.replicate 7 (.resume fun _ => ()))
    (fun c => c.live && c.stack.isEmpty && c.state.connected && !c.state.vbusPresent)
      (by decide +kernel)
  simp only [Bool.and_eq_true, List.isEmpty_iff, Bool.not_eq_true'] at hf
  obtain ⟨⟨⟨hl, hs⟩, hc⟩, hv⟩ := hf
  have hvbus := hall c h hl hs hc
  rw [hv] at hvbus
  cases hvbus

end NrfKit.Usb
