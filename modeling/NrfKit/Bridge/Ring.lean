import NrfKit.Bridge.Main
import NrfKit.Hci.RoundTrip

/- The receive ring under interrupts. `RingOk` says what the two indices and the cells mean
   in terms of the bytes stored and consumed; the interrupt keeps it and only adds bytes
   (`Later`), so what `main` has learned about the unread bytes stays true while it runs.

   `invariant between during` is the shape of an invariant of the bridge: `RingOk` at all
   times, `between` where `main` is between two passes, and `during phase` where it is
   interrupted in one, with `main` as that pass left it. -/
namespace NrfKit.Bridge
open Interleave Objects Ring Hci

structure RingOk (s : State) : Prop where
  holds : Holds rxRingSize s.uart.rxRing s.uart.stored s.main.consumed.length
  rxRead : s.main.rxRead = s.main.consumed.length % rxRingSize
  rxWrite : s.uart.rxWrite = s.uart.stored.length % rxRingSize
  consumed : s.main.consumed <+: s.uart.stored
  inBounds : s.uart.outOfBounds = false
  command : s.main.command.length = 258

/-- `s'` is `s` after interrupts. -/
structure Later (s s' : State) : Prop where
  main : s'.main = s.main
  stored : s.uart.stored <+: s'.uart.stored

def invariant (between : State → Prop) (during : Phase → State → Prop) (ctx : List Query)
    (s : State) : Prop :=
  RingOk s ∧
    match ctx with
    | [] => between s
    | q :: _ => Later q.seen s ∧ during q.phase s

/-- An interrupt finds room for its bytes. -/
def fits (e : Entry) (s : State) : Bool :=
  match e with
  | .rxDone bytes => s.unread + bytes.length < rxRingSize
  | _ => true

/-! ## The ring -/

variable {s s' : State}

theorem later_refl (s : State) : Later s s := ⟨rfl, List.prefix_refl _⟩

theorem Later.trans {s'' : State} (h : Later s s') (h' : Later s' s'') : Later s s'' :=
  ⟨h'.main.trans h.main, h.stored.trans h'.stored⟩

theorem Later.unread (h : Later s s') : s.unread ≤ s'.unread := by
  have := h.stored.length_le
  rw [State.unread, State.unread, h.main]
  omega

theorem RingOk.total (h : RingOk s) : s.main.consumed.length + s.unread = s.uart.stored.length := by
  have := h.holds.taken_le
  rw [State.unread]
  omega

/-- The indices tell how many bytes are unread. -/
theorem RingOk.count (h : RingOk s) :
    (s.main.rxRead ≤ s.uart.rxWrite → s.uart.rxWrite - s.main.rxRead = s.unread) ∧
    (s.uart.rxWrite < s.main.rxRead → rxRingSize - s.main.rxRead + s.uart.rxWrite = s.unread) := by
  rw [h.rxRead, h.rxWrite]
  exact h.holds.count

theorem RingOk.rxRead_lt (h : RingOk s) : s.main.rxRead < rxRingSize := by
  rw [h.rxRead]
  exact Nat.mod_lt _ h.holds.size_pos

theorem RingOk.rxWrite_lt (h : RingOk s) : s.uart.rxWrite < rxRingSize := by
  rw [h.rxWrite]
  exact Nat.mod_lt _ h.holds.size_pos

/-- What the ring says depends on nothing else of `main`. -/
theorem RingOk.of_main (h : RingOk s) (hread : s'.main.rxRead = s.main.rxRead)
    (hconsumed : s'.main.consumed = s.main.consumed)
    (hcommand : s'.main.command.length = s.main.command.length)
    (huart : s'.uart = s.uart) : RingOk s' := by
  obtain ⟨hholds, hrxRead, hrxWrite, hprefix, hin, hlength⟩ := h
  constructor
  · rw [huart, hconsumed]
    exact hholds
  · rw [hread, hconsumed]
    exact hrxRead
  · rw [huart]
    exact hrxWrite
  · rw [huart, hconsumed]
    exact hprefix
  · rw [huart]
    exact hin
  · rw [hcommand]
    exact hlength

/-- The bridge after the interrupt has stored a byte, which gave `ring`. -/
def put (s : State) (ring : Object UInt8) (byte : UInt8) : State := { s with uart := { s.uart with
  rxRing := ring
  rxWrite := (s.uart.rxWrite + 1) % rxRingSize
  stored := s.uart.stored ++ [byte] } }

/-- One byte of the interrupt. -/
theorem RingOk.push (h : RingOk s) (hroom : s.unread + 1 < rxRingSize) (byte : UInt8) :
    (s.uart.rxWrite + 1) % rxRingSize ≠ s.main.rxRead ∧
    ∃ ring, s.uart.rxRing.store s.uart.rxWrite byte = .ok ring ∧ RingOk (put s ring byte) := by
  have htotal := h.total
  have hnext : (s.uart.rxWrite + 1) % rxRingSize = (s.uart.stored.length + 1) % rxRingSize := by
    rw [h.rxWrite, Nat.mod_add_mod]
  obtain ⟨hstore, hholds⟩ := h.holds.push hroom byte
  refine ⟨?_, _, by rw [h.rxWrite]; exact hstore, hholds, h.rxRead, ?_, ?_, h.inBounds, h.command⟩
  · rw [hnext, h.rxRead]
    exact (cell_ne (by omega) (by omega)).symm
  · show (s.uart.rxWrite + 1) % rxRingSize = (s.uart.stored ++ [byte]).length % rxRingSize
    rw [List.length_append, List.length_singleton, hnext]
  · exact h.consumed.trans (List.prefix_append ..)

/-- An interrupt whose bytes fit stores all of them. -/
theorem RingOk.rxDone : ∀ {bytes : List UInt8} {s : State}, RingOk s →
    s.unread + bytes.length < rxRingSize →
    RingOk { s with uart := uartRxDone s.main.rxRead bytes s.uart } ∧
      (uartRxDone s.main.rxRead bytes s.uart).stored = s.uart.stored ++ bytes
  | [], _, h, _ => ⟨h, (List.append_nil _).symm⟩
  | byte :: bytes, s, h, hroom => by
    have htotal := h.total
    rw [List.length_cons] at hroom
    obtain ⟨hnext, ring, hstore, hpush⟩ := h.push (by omega) byte
    have hunread : (put s ring byte).unread = s.unread + 1 := by
      show (s.uart.stored ++ [byte]).length - s.main.consumed.length = s.unread + 1
      rw [List.length_append, List.length_singleton, State.unread]
      omega
    obtain ⟨hring, hstored⟩ := @RingOk.rxDone bytes _ hpush (by rw [hunread]; omega)
    rw [uartRxDone, if_neg hnext, hstore]
    refine ⟨hring, hstored.trans ?_⟩
    show s.uart.stored ++ [byte] ++ bytes = _
    rw [List.append_assoc, List.singleton_append]

/-- The byte `offset` bytes after the next one to be consumed. -/
theorem RingOk.peek (h : RingOk s) {offset : Nat} (hoffset : offset < s.unread) :
    ∃ value, s.uart.stored[s.main.consumed.length + offset]? = some value ∧
      s.uart.rxRing.load ((s.main.rxRead + offset) % rxRingSize) = .ok value := by
  have htotal := h.total
  have hlt : s.main.consumed.length + offset < s.uart.stored.length := by omega
  refine ⟨s.uart.stored[s.main.consumed.length + offset], List.getElem?_eq_getElem hlt, ?_⟩
  rw [h.rxRead, Nat.mod_add_mod]
  exact h.holds.peek (Nat.le_add_right _ _) (List.getElem?_eq_getElem hlt)

/-- `main` after `receive_byte` has taken `value`. -/
def taken (s : State) (value : UInt8) : State := { s with main := { s.main with
  rxRead := (s.main.rxRead + 1) % rxRingSize
  consumed := s.main.consumed ++ [value] } }

theorem prefix_next {α : Type} {front whole : List α} (h : front <+: whole) {value : α}
    (hvalue : whole[front.length]? = some value) : front ++ [value] <+: whole := by
  obtain ⟨rest, rfl⟩ := h
  rw [List.getElem?_append_right (Nat.le_refl _), Nat.sub_self] at hvalue
  cases rest with
  | nil => cases hvalue
  | cons first rest =>
    cases hvalue
    exact ⟨rest, by rw [List.append_assoc]; rfl⟩

theorem RingOk.pop (h : RingOk s) {value : UInt8}
    (hvalue : s.uart.stored[s.main.consumed.length]? = some value) : RingOk (taken s value) := by
  have hlt : s.main.consumed.length < s.uart.stored.length :=
    (List.getElem?_eq_some_iff.mp hvalue).1
  have hlength : (taken s value).main.consumed.length = s.main.consumed.length + 1 := by
    simp only [taken, List.length_append, List.length_singleton]
  constructor
  · rw [hlength]
    exact h.holds.pop hlt
  · show (s.main.rxRead + 1) % rxRingSize = _
    rw [hlength, h.rxRead, Nat.mod_add_mod]
  · exact h.rxWrite
  · exact prefix_next h.consumed hvalue
  · exact h.inBounds
  · exact h.command

/-! ## What `main` does with the ring -/

/-- `s'` is `s` after `main` has taken `values` out of the ring, and interrupts. -/
structure Took (s : State) (values : List UInt8) (s' : State) : Prop where
  consumed : s'.main.consumed = s.main.consumed ++ values
  stored : s.uart.stored <+: s'.uart.stored
  handed : s'.main.handed = s.main.handed
  replies : s'.main.replies = s.main.replies
  stage : s'.main.stage = s.main.stage

theorem took_nil (s : State) : Took s [] s :=
  ⟨(List.append_nil _).symm, List.prefix_refl _, rfl, rfl, rfl⟩

theorem Later.took (h : Later s s') : Took s [] s' := by
  obtain ⟨hmain, hstored⟩ := h
  refine ⟨?_, hstored, ?_, ?_, ?_⟩
  all_goals rw [hmain]
  rw [List.append_nil]

theorem took_taken (s : State) (value : UInt8) : Took s [value] (taken s value) :=
  ⟨rfl, List.prefix_refl _, rfl, rfl, rfl⟩

theorem Took.trans {s'' : State} {front back : List UInt8} (h : Took s front s')
    (h' : Took s' back s'') :
    Took s (front ++ back) s'' where
  consumed := by rw [h'.consumed, h.consumed, List.append_assoc]
  stored := h.stored.trans h'.stored
  handed := h'.handed.trans h.handed
  replies := h'.replies.trans h.replies
  stage := h'.stage.trans h.stage

theorem Took.unread {values : List UInt8} (h : Took s values s') (hs : RingOk s) :
    s.unread ≤ s'.unread + values.length := by
  have hstored := h.stored.length_le
  have htotal := hs.total
  simp only [State.unread, h.consumed, List.length_append] at htotal ⊢
  omega

section
variable {sys : System State Query Query.Answer Entry Unit} {between : State → Prop}
  {during : Phase → State → Prop} {post : Unit → State → Prop}

theorem wait_sat {phase : Phase} {k : phase.Answer → State → BridgeTurn} (h : RingOk s)
    (hphase : during phase s)
    (hk : ∀ a s', RingOk s' → Later s s' → during phase s' → sys.answers [] ⟨s, phase⟩ a s' = true →
      (k a s').Sat sys Any (invariant between during) [] post) :
    (Turn.wait s (⟨s, phase⟩ : Query) k : BridgeTurn).Sat sys Any
      (invariant between during) [] post :=
  ⟨⟨h, later_refl s, hphase⟩, fun a s' _ hi ha => hk a s' hi.1 hi.2.1 hi.2.2 ha⟩

theorem stop_sat {reason : Stop} (h : RingOk s) (hphase : during (.stopped reason) s) :
    (stop reason s).Sat sys Any (invariant between during) [] post :=
  wait_sat h hphase fun _ _ _ _ _ _ => sat_halt.mpr trivial

theorem readIndex_sat {k : Nat → State → BridgeTurn}
    (h : RingOk s) (hphase : during .indexAccessed s)
    (hk : ∀ s', RingOk s' → Later s s' → during .indexAccessed s' →
      (k s'.main.rxRead s').Sat sys Any (invariant between during) [] post) :
    (readIndex s k).Sat sys Any (invariant between during) [] post := by
  refine wait_sat h hphase fun _ s' hring hlater hphase' _ => ?_
  rw [← hlater.main]
  exact hk s' hring hlater hphase'

theorem ringByte_sat {k : UInt8 → State → BridgeTurn}
    (h : RingOk s) {offset : Nat} (hoffset : offset < s.unread)
    (hk : ∀ value, s.uart.stored[s.main.consumed.length + offset]? = some value →
      (k value s).Sat sys Any (invariant between during) [] post) :
    (ringByte ((s.main.rxRead + offset) % rxRingSize) s k).Sat sys Any
      (invariant between during) [] post := by
  obtain ⟨value, hvalue, hload⟩ := h.peek hoffset
  rw [ringByte, hload]
  exact hk value hvalue

/-- `ringByte` at the next byte itself. -/
theorem nextByte_sat {k : UInt8 → State → BridgeTurn} (h : RingOk s) (hunread : 0 < s.unread)
    (hk : ∀ value, s.uart.stored[s.main.consumed.length]? = some value →
      (k value s).Sat sys Any (invariant between during) [] post) :
    (ringByte s.main.rxRead s k).Sat sys Any (invariant between during) [] post := by
  have hsat := @ringByte_sat s sys between during post k h 0 hunread hk
  rwa [Nat.add_zero, Nat.mod_eq_of_lt h.rxRead_lt] at hsat

variable (hkept : ∀ s values s', Took s values s' → s'.uart = s.uart → during .indexAccessed s →
  during .indexAccessed s')
include hkept

theorem receiveByte_sat {k : UInt8 → State → BridgeTurn} (h : RingOk s) (hunread : 0 < s.unread)
    (hphase : during .indexAccessed s)
    (hk : ∀ value s', RingOk s' → Took s [value] s' → s'.main.command = s.main.command →
      during .indexAccessed s' → (k value s').Sat sys Any (invariant between during) [] post) :
    (receiveByte s k).Sat sys Any (invariant between during) [] post := by
  refine readIndex_sat h hphase fun s₁ h₁ l₁ p₁ => ?_
  refine nextByte_sat h₁ (Nat.lt_of_lt_of_le hunread l₁.unread) fun value hvalue => ?_
  refine readIndex_sat h₁ p₁ fun s₂ h₂ l₂ p₂ => ?_
  have hnext : s₂.uart.stored[s₂.main.consumed.length]? = some value := by
    obtain ⟨hlt, hget⟩ := List.getElem?_eq_some_iff.mp hvalue
    obtain ⟨more, hmore⟩ := l₂.stored
    rw [l₂.main, ← hmore, List.getElem?_append_left hlt]
    exact hvalue
  have htaken := took_taken s₂ value
  refine wait_sat (h₂.pop hnext) (hkept _ _ _ htaken rfl p₂) fun _ s₃ h₃ l₃ p₃ _ => ?_
  refine hk value s₃ h₃ ?_ ?_ p₃
  · exact l₁.took.trans (l₂.took.trans (htaken.trans l₃.took))
  · rw [l₃.main]
    show s₂.main.command = _
    rw [l₂.main, l₁.main]

theorem receiveCommand_sat {k : State → BridgeTurn} :
    ∀ {left : Nat} {s : State} {front : List UInt8}
    {rest : Object UInt8}, RingOk s → s.main.command = known front ++ rest → left ≤ rest.length →
    left ≤ s.unread → during .indexAccessed s →
    (∀ values s', RingOk s' → Took s values s' → values.length = left →
      s'.main.command = known (front ++ values) ++ rest.drop left → during .indexAccessed s' →
        (k s').Sat sys Any (invariant between during) [] post) →
    (receiveCommand left front.length s k).Sat sys Any (invariant between during) [] post
  | 0, s, front, rest, h, hcommand, _, _, hphase, hk => by
    refine hk [] s h (took_nil s) rfl ?_ hphase
    rw [List.append_nil, List.drop_zero]
    exact hcommand
  | left + 1, s, front, cell :: rest, h, hcommand, hrest, hunread, hphase, hk => by
    refine receiveByte_sat hkept h (by omega) hphase fun value s₁ h₁ t₁ c₁ p₁ => ?_
    have hstore : s₁.main.command.store front.length value =
        .ok (known (front ++ [value]) ++ rest) := by
      rw [c₁, hcommand]
      exact store_next front value cell rest
    rw [hstore]
    let s₂ : State :=
      { s₁ with main := { s₁.main with command := known (front ++ [value]) ++ rest } }
    have hlength : s₂.main.command.length = s₁.main.command.length := by
      rw [c₁, hcommand]
      simp only [s₂, known_append, List.length_append, known_length, List.length_cons,
        List.length_nil]
      omega
    have h₂ : RingOk s₂ := h₁.of_main rfl rfl hlength rfl
    have t₂ : Took s₁ [] s₂ := ⟨(List.append_nil _).symm, List.prefix_refl _, rfl, rfl, rfl⟩
    have hnext := t₁.unread h
    rw [List.length_singleton] at hnext
    have hat : front.length + 1 = (front ++ [value]).length := by
      rw [List.length_append, List.length_singleton]
    show (receiveCommand left (front.length + 1) s₂ k).Sat _ _ _ _ _
    rw [hat]
    refine receiveCommand_sat h₂ rfl (Nat.le_of_succ_le_succ hrest) ?_ (hkept _ _ _ t₂ rfl p₁) ?_
    · show left ≤ s₁.unread
      omega
    · intro values s₃ h₃ t₃ hvalues hcommand₃ p₃
      refine hk (value :: values) s₃ h₃ ?_ (by rw [List.length_cons, hvalues]) ?_ p₃
      · exact t₁.trans (t₂.trans t₃)
      · rw [hcommand₃, List.append_assoc]
        rfl

end

/-! ## The count of `received` -/

/-- An interrupt between the two reads of `rx_write` in `received` does not wrap it. -/
def steady (ctx : List Query) (e : Entry) (s : State) : Bool :=
  match e, ctx with
  | .rxDone bytes, ⟨_, .writeRead _⟩ :: _ | .rxDone bytes, ⟨_, .bothRead _⟩ :: _ =>
    decide (s.main.rxRead ≤ s.uart.rxWrite → s.uart.rxWrite + bytes.length < rxRingSize)
  | _, _ => true

def Counting : Phase → State → Prop
  | .writeRead write, s => s.main.rxRead ≤ write ↔ s.main.rxRead ≤ s.uart.rxWrite
  | .bothRead straight, s => straight = true ↔ s.main.rxRead ≤ s.uart.rxWrite
  | .counted count, s => count ≤ s.unread
  | _, _ => True

/-- The invariant of the ring: `received` counts no byte that is not there. -/
abbrev RingInv : List Query → State → Prop := invariant (fun _ => True) Counting

/-- Which of the two indices is ahead changes only where `rx_write` wraps. -/
theorem RingOk.ahead (h : RingOk s) {bytes : List UInt8}
    (hroom : s.unread + bytes.length < rxRingSize)
    (hsteady : s.main.rxRead ≤ s.uart.rxWrite → s.uart.rxWrite + bytes.length < rxRingSize) :
    s.main.rxRead ≤ (uartRxDone s.main.rxRead bytes s.uart).rxWrite ↔
    s.main.rxRead ≤ s.uart.rxWrite := by
  obtain ⟨hring, hstored⟩ := h.rxDone hroom
  have hwrite : (uartRxDone s.main.rxRead bytes s.uart).rxWrite =
      (s.uart.rxWrite + bytes.length) % rxRingSize := by
    have := hring.rxWrite
    dsimp only at this
    rw [this, hstored, List.length_append, h.rxWrite, Nat.mod_add_mod]
  have hread := h.rxRead_lt
  rcases Nat.lt_or_ge s.uart.rxWrite s.main.rxRead with hlt | hge
  · have hcount := h.count.2 hlt
    rw [hwrite, Nat.mod_eq_of_lt (by omega)]
    constructor
    · intro
      omega
    · intro
      omega
  · rw [hwrite, Nat.mod_eq_of_lt (hsteady hge)]
    constructor
    · intro
      exact hge
    · intro
      omega

theorem later_rxDone (h : RingOk s) {bytes : List UInt8}
    (hroom : s.unread + bytes.length < rxRingSize) :
    Later s { s with uart := uartRxDone s.main.rxRead bytes s.uart } :=
  ⟨rfl, (h.rxDone hroom).2 ▸ List.prefix_append ..⟩

/-- The interrupt keeps the invariant. -/
theorem rxDone_ring {ctx : List Query} {bytes : List UInt8} (h : RingInv ctx s)
    (hfits : fits (.rxDone bytes) s = true) (hsteady : steady ctx (.rxDone bytes) s = true) :
    RingInv ctx { s with uart := uartRxDone s.main.rxRead bytes s.uart } := by
  obtain ⟨hring, hctx⟩ := h
  have hroom : s.unread + bytes.length < rxRingSize := of_decide_eq_true hfits
  have hlater := later_rxDone hring hroom
  refine ⟨(hring.rxDone hroom).1, ?_⟩
  cases ctx with
  | nil => trivial
  | cons q rest =>
    obtain ⟨hseen, hphase⟩ := hctx
    refine ⟨hseen.trans hlater, ?_⟩
    obtain ⟨seen, phase⟩ := q
    cases phase with
    | writeRead write =>
      exact Iff.trans hphase (hring.ahead hroom (of_decide_eq_true hsteady)).symm
    | bothRead straight =>
      exact Iff.trans hphase (hring.ahead hroom (of_decide_eq_true hsteady)).symm
    | counted count => exact Nat.le_trans hphase hlater.unread
    | _ => trivial

/-- An error of the UART leaves the ring alone. -/
theorem uartError_ring {ctx : List Query} (h : RingInv ctx s) :
    RingInv ctx { s with uart := { s.uart with uartFault := true } } := by
  obtain ⟨hring, hctx⟩ := h
  refine ⟨⟨hring.holds, hring.rxRead, hring.rxWrite, hring.consumed, hring.inBounds,
    hring.command⟩, ?_⟩
  cases ctx with
  | nil => trivial
  | cons q rest =>
    obtain ⟨⟨hmain, hstored⟩, hphase⟩ := hctx
    refine ⟨⟨hmain, hstored⟩, ?_⟩
    obtain ⟨seen, phase⟩ := q
    cases phase <;> exact hphase

section
variable {sys : System State Query Query.Answer Entry Unit} {post : Unit → State → Prop}

theorem counted_ring {count : Nat} {k : Nat → State → BridgeTurn} (h : RingOk s)
    (hcount : count ≤ s.unread) (hk : ∀ s', RingOk s' → Took s [] s' → count ≤ s'.unread →
      (k count s').Sat sys Any RingInv [] post) :
    (counted count s k).Sat sys Any RingInv [] post := by
  have hring : RingOk { s with main := { s.main with counted := count } } :=
    h.of_main rfl rfl rfl rfl
  refine wait_sat hring hcount fun _ s' h' hlater hphase _ => hk s' h' ?_ hphase
  obtain ⟨hconsumed, hstored, hhanded, hreplies, hstage⟩ := hlater.took
  exact ⟨hconsumed, hstored, hhanded, hreplies, hstage⟩

theorem receivedVolatile_ring {k : Nat → State → BridgeTurn} (h : RingOk s)
    (hk : ∀ count s', RingOk s' → Took s [] s' → count ≤ s'.unread →
      (k count s').Sat sys Any RingInv [] post) :
    (receivedVolatile s k).Sat sys Any RingInv [] post := by
  refine wait_sat h Iff.rfl fun _ s₁ h₁ l₁ p₁ _ => ?_
  refine wait_sat h₁ (Iff.trans decide_eq_true_iff p₁) fun _ s₂ h₂ l₂ p₂ _ => ?_
  have hwrite := h₂.rxWrite_lt
  have hread := h₂.rxRead_lt
  -- In both branches the difference is taken of indices read before the interrupt that follows.
  split
  · rename_i hstraight
    have hcount := h₂.count.1 (p₂.mp hstraight)
    have hahead := p₂.mp hstraight
    refine wait_sat h₂ trivial fun _ s₃ h₃ l₃ _ _ => ?_
    have hunread := l₃.unread
    have hvalue : (((s₂.uart.rxWrite : Int) - s₃.main.rxRead) % 2 ^ 32).toNat = s₂.unread := by
      rw [l₃.main, ← hcount]
      have : (rxRingSize : Nat) = 512 := rfl
      omega
    refine counted_ring h₃ (by rw [hvalue]; exact hunread) fun s₄ h₄ t₄ hle => hk _ s₄ h₄ ?_ hle
    exact l₁.took.trans (l₂.took.trans (l₃.took.trans t₄))
  · rename_i hstraight
    have hbehind : s₂.uart.rxWrite < s₂.main.rxRead :=
      Nat.lt_of_not_le fun hle => hstraight (p₂.mpr hle)
    refine wait_sat h₂ trivial fun _ s₃ h₃ l₃ _ _ => ?_
    have hvalue : rxRingSize - s₂.main.rxRead + s₃.uart.rxWrite ≤ s₃.unread := by
      have hcount := h₂.count.2 hbehind
      have hcount' := h₃.count
      have hwrite' := h₃.rxWrite_lt
      have hunread := l₃.unread
      rw [l₃.main] at hcount'
      omega
    refine counted_ring h₃ hvalue fun s₄ h₄ t₄ hle => hk _ s₄ h₄ ?_ hle
    exact l₁.took.trans (l₂.took.trans (l₃.took.trans t₄))

theorem call_ring {c : Call} {k : c.Result → State → BridgeTurn} (h : RingOk s)
    (hk : ∀ a s', RingOk s' → (k a s').Sat sys Any RingInv [] post) :
    (call c s k).Sat sys Any RingInv [] post :=
  wait_sat h trivial fun a s' h' _ _ _ => hk a s' h'

theorem stop_ring {reason : Stop} (h : RingOk s) : (stop reason s).Sat sys Any RingInv [] post :=
  stop_sat h trivial

variable (hpost : ∀ s, RingOk s → post () s)
include hpost

theorem sendBytes_ring (h : RingOk s) : (sendBytes s).Sat sys Any RingInv [] post := by
  refine call_ring h fun (accepted : Bool) s' h' => ?_
  cases accepted with
  | true => exact hpost s' h'
  | false => exact stop_ring h'

theorem sendReply_ring {output : List UInt8} {eventSize : Nat} (h : RingOk s) :
    (sendReply output eventSize s).Sat sys Any RingInv [] post :=
  sendBytes_ring hpost (h.of_main rfl rfl rfl rfl)

theorem answerController_ring (image : Image) {packetSize : Nat} (h : RingOk s) :
    (answerController image packetSize s).Sat sys Any RingInv [] post := by
  refine call_ring h fun controller s' h' => ?_
  split
  · exact stop_ring h'
  · split
    · exact stop_ring h'
    · split
      · split
        · exact stop_ring h'
        · exact sendReply_ring hpost h'
      · exact stop_ring h'

theorem answerCommand_ring (image : Image) {packetSize : Nat} (h : RingOk s) :
    (answerCommand image packetSize s).Sat sys Any RingInv [] post := by
  have hreply : ∀ (output : List UInt8) (eventSize : Nat) {s : State}, RingOk s →
      (sendReply output eventSize s).Sat sys Any RingInv [] post :=
        fun _ _ _ h => sendReply_ring hpost h
  rw [answerCommand]
  split
  · refine iteInduction (fun _ => call_ring h fun _ s' h' => hreply _ _ h') fun _ => ?_
    refine iteInduction (fun _ => call_ring h fun _ s' h' => hreply _ _ h') fun _ => ?_
    refine iteInduction (fun _ => call_ring h fun _ s' h' => hreply _ _ h') fun _ => ?_
    refine iteInduction (fun _ => call_ring h fun _ s' h' => hreply _ _ h') fun _ => ?_
    refine iteInduction (fun _ => ?_) fun _ => ?_
    · refine call_ring h fun _ s₁ h₁ => call_ring h₁ fun (idle : Bool) s₂ h₂ => ?_
      cases idle with
      | false => exact hreply _ _ h₂
      | true =>
        refine call_ring h₂ fun (accepted : Bool) s₃ h₃ => ?_
        cases accepted with
        | false => exact stop_ring h₃
        | true => exact hreply _ _ h₃
    · exact iteInduction (fun _ => hreply _ _ h) fun _ => answerController_ring hpost image h
  · exact stop_ring h

theorem handPacket_ring (image : Image) {packetType : UInt8} {packetSize : Nat} (h : RingOk s) :
    (handPacket image packetType packetSize s).Sat sys Any RingInv [] post := by
  rw [handPacket]
  split
  · exact stop_ring h
  · refine iteInduction (fun _ => ?_) fun _ =>
      answerCommand_ring hpost image (h.of_main rfl rfl rfl rfl)
    refine call_ring (h.of_main rfl rfl rfl rfl) fun _ s' h' => ?_
    exact hpost _ (h'.of_main rfl rfl rfl rfl)

theorem leavePackets_ring (h : RingOk s) : (leavePackets s).Sat sys Any RingInv [] post :=
  hpost _ (h.of_main rfl rfl rfl rfl)

/-- Where `received` counted as many bytes as the packet has, they can be taken. -/
theorem takePacket_ring (image : Image) {packetType : UInt8} {packetSize : Nat} (h : RingOk s)
    (hsize : 0 < packetSize) :
    (takePacket image receivedVolatile packetType packetSize s).Sat sys Any RingInv [] post := by
  rw [takePacket]
  refine iteInduction (fun _ => stop_ring h) fun hfits => ?_
  refine receivedVolatile_ring h fun count s₁ h₁ _ hcount => ?_
  refine iteInduction (fun _ => leavePackets_ring hpost h₁) fun hwhole => ?_
  refine receiveByte_sat (fun _ _ _ _ _ _ => trivial) h₁
    (by omega) trivial fun value s₂ h₂ t₂ _ _ => ?_
  have hunread := t₂.unread h₁
  rw [List.length_singleton] at hunread
  refine @receiveCommand_sat sys _ _ post (fun _ _ _ _ _ _ => trivial) _ (packetSize - 1) s₂ []
    s₂.main.command h₂ rfl (by rw [h₂.command]; omega) (by omega) trivial ?_
  intro values s₃ h₃ _ _ _ _
  exact handPacket_ring hpost image h₃

theorem packetPass_ring (image : Image) (h : RingOk s) :
    (packetPass image receivedVolatile s).Sat sys Any RingInv [] post := by
  refine receivedVolatile_ring h fun count s₁ h₁ _ hcount => ?_
  refine iteInduction (fun _ => leavePackets_ring hpost h₁) fun hfour => ?_
  refine readIndex_sat h₁ trivial fun s₂ h₂ l₂ _ => ?_
  have hunread₂ := l₂.unread
  refine nextByte_sat h₂ (by omega) fun packetType _ => ?_
  refine iteInduction (fun _ => ?_) fun _ => iteInduction (fun _ => ?_) fun _ => ?_
  · refine receiveByte_sat (fun _ _ _ _ _ _ => trivial) h₂
      (by omega) trivial fun _ s₃ h₃ _ _ _ => ?_
    exact hpost s₃ h₃
  · refine readIndex_sat h₂ trivial fun s₃ h₃ l₃ _ => ?_
    have hunread₃ := l₃.unread
    exact ringByte_sat h₃ (by omega) fun length _ => takePacket_ring hpost image h₃ (by omega)
  · refine receivedVolatile_ring h₂ fun count s₃ h₃ _ hcount₃ => ?_
    refine iteInduction (fun _ => leavePackets_ring hpost h₃) fun hfive => ?_
    refine readIndex_sat h₃ trivial fun s₄ h₄ l₄ _ => ?_
    refine readIndex_sat h₄ trivial fun s₅ h₅ l₅ _ => ?_
    have hunread₄ := l₄.unread
    have hunread₅ := l₅.unread
    rw [← l₅.main]
    refine ringByte_sat h₅ (by omega) fun low _ => ringByte_sat h₅ (by omega) fun high _ => ?_
    exact takePacket_ring hpost image h₅ (by omega)

theorem topPass_ring (image : Image) (h : RingOk s) :
    (topPass image s).Sat sys Any RingInv [] post := by
  have hcheck : ∀ {s : State}, RingOk s → (if s.uart.uartFault then stop .uartFault s else
      .done { s with main := { s.main with stage := .packets } } () :
        BridgeTurn).Sat sys Any RingInv [] post :=
    fun h => iteInduction (fun _ => stop_ring h) fun _ => hpost _ (h.of_main rfl rfl rfl rfl)
  refine call_ring h fun _ s₁ h₁ => iteInduction (fun _ => ?_) fun _ => hcheck h₁
  refine call_ring h₁ fun _ s₂ h₂ => call_ring h₂ fun (pending : Bool) s₃ h₃ => ?_
  cases pending with
  | false => exact hcheck h₃
  | true =>
    refine call_ring h₃ fun (accepted : Bool) s₄ h₄ => ?_
    cases accepted with
    | false => exact stop_ring h₄
    | true => exact hcheck h₄

theorem eventPass_ring (h : RingOk s) : (eventPass s).Sat sys Any RingInv [] post := by
  refine call_ring h fun message s₁ h₁ => ?_
  split
  · exact hpost _ (h₁.of_main rfl rfl rfl rfl)
  · exact iteInduction (fun _ => stop_ring h₁) fun _ => sendBytes_ring hpost h₁

end

/-! ## Every run -/

/-- Runs in which the ring does not overflow. -/
def roomy (image : Image) (received : State → (Nat → State → BridgeTurn) → BridgeTurn) :
    System State Query Query.Answer Entry Unit :=
  (bridge image received).assuming (fun _ => fits) fun _ _ _ _ => true

/-- Runs in which no interrupt between the two reads of `rx_write` wraps it, either. -/
def undisturbed (image : Image) : System State Query Query.Answer Entry Unit :=
  (bridge image receivedVolatile).assuming (fun ctx e s => fits e s && steady ctx e s)
    fun _ _ _ _ => true

theorem ring_keeps (image : Image) : Keeps (undisturbed image) Any RingInv := by
  intro ctx e s _ hi he
  obtain ⟨henter, hassumed⟩ := assuming_enters.mp he
  have hpass : ctx.isEmpty = true → ctx = [] ∧ RingOk s :=
    fun hempty => ⟨List.isEmpty_iff.mp hempty, hi.1⟩
  have hpost : ∀ s, RingOk s → RingInv [] s := fun s h => ⟨h, trivial⟩
  cases e with
  | rxDone bytes =>
    obtain ⟨hfits, hsteady⟩ := Bool.and_eq_true_iff.mp hassumed
    exact rxDone_ring hi hfits hsteady
  | uartError => exact uartError_ring hi
  | top =>
    obtain ⟨rfl, h⟩ := hpass (Bool.and_eq_true_iff.mp henter).1
    exact topPass_ring hpost image h
  | packets =>
    obtain ⟨rfl, h⟩ := hpass (Bool.and_eq_true_iff.mp henter).1
    exact packetPass_ring hpost image h
  | events =>
    obtain ⟨rfl, h⟩ := hpass (Bool.and_eq_true_iff.mp henter).1
    exact eventPass_ring hpost h

/-- What `received` is just returning, if that is where `main` is. -/
def returning (c : Config State Query Query.Answer Unit) : Option Nat :=
  match c.queries with
  | ⟨_, .counted count⟩ :: _ => some count
  | _ => none

theorem ringOk_initial : RingOk {} where
  holds := holds_empty List.length_replicate (by decide)
  rxRead := rfl
  rxWrite := rfl
  consumed := List.prefix_refl _
  inBounds := rfl
  command := List.length_replicate

/-- **The ring under interrupts.** In every run in which the ring does not overflow and no
interrupt between the two reads of `rx_write` in `received` wraps it, `received` never
returns more than the number of unread bytes, and what `main` has consumed is the
beginning of what was stored. -/
theorem received_within_stored (image : Image) {c : Config State Query Query.Answer Unit}
    (h : Reachable (undisturbed image) {} c) (hlive : c.live = true) :
    c.state.main.consumed <+: c.state.uart.stored ∧
    ∀ count, returning c = some count → count ≤ c.state.unread := by
  obtain ⟨hring, hctx⟩ :=
    @run_inv _ _ _ _ _ _ RingInv (ring_keeps image) _ ⟨ringOk_initial, trivial⟩ _ h hlive
  refine ⟨hring.consumed, ?_⟩
  intro count hcount
  unfold returning at hcount
  split at hcount
  · rename_i seen value rest hq
    cases hcount
    rw [hq] at hctx
    exact hctx.2
  · cases hcount

/-! ## Runs -/

/-- Answers of a controller that has nothing to say. -/
def Call.quiet (controller : Controller) : (c : Call) → c.Result
  | .sdcProcess | .rramProcess => ()
  | .timeslotPending | .timeslotIdle => false
  | .timeslotRequest | .send => true
  | .hciAclPut | .rramSubmit | .rramResult => (0 : Int)
  | .diagnostics => ⟨0, 0, 0, false, true, 0, 0⟩
  | .counters => ⟨0, 0, 0, 0, 0, 0, 0, 0⟩
  | .hciCommand => controller
  | .hciGet => none

def Query.quiet (controller : Controller) : (q : Query) → q.Answer
  | ⟨_, .calling c⟩ => c.quiet controller
  | ⟨_, .indexAccessed⟩ | ⟨_, .writeRead _⟩ | ⟨_, .bothRead _⟩ | ⟨_, .counted _⟩ | ⟨_,
    .stopped _⟩ => ()

/-- `main` goes on `n` times. -/
def goOn (n : Nat) : List (Event Query Query.Answer Entry) :=
  List.replicate n (.resume (Query.quiet bluetoothController))

theorem received_within_stored_four : ∃ c, Reachable (undisturbed ⟨.multirole, false⟩) {} c ∧
    returning c = some 4 ∧ c.state.main.consumed <+: c.state.uart.stored ∧
    ∀ count, returning c = some count → count ≤ c.state.unread := by
  obtain ⟨c, hc, hf⟩ := reachable_of_run (undisturbed ⟨.multirole, false⟩) {}
    ([.enter (.rxDone [1, 3, 12]), .enter .top] ++ goOn 1 ++ [.enter .packets] ++ goOn 1 ++
      [.enter (.rxDone [0])] ++ goOn 2)
    (fun c => c.live && returning c == some 4) (by decide +kernel)
  obtain ⟨hlive, hreturning⟩ := Bool.and_eq_true_iff.mp hf
  exact ⟨c, hc, eq_of_beq hreturning, received_within_stored _ hc hlive⟩

/-- Zeros leave a ring of zeros as it is. -/
theorem uartRxDone_zeros : ∀ (n : Nat) (u : Uart), u.rxRing = List.replicate rxRingSize (some 0) →
    u.rxWrite + n < rxRingSize → uartRxDone 0 (List.replicate n 0) u =
      { u with rxWrite := u.rxWrite + n, stored := u.stored ++ List.replicate n 0 }
  | 0, u, _, _ => by
    rw [List.replicate_zero, uartRxDone, Nat.add_zero, List.append_nil]
  | n + 1, u, hring, hroom => by
    have hnext : (u.rxWrite + 1) % rxRingSize = u.rxWrite + 1 := Nat.mod_eq_of_lt (by omega)
    have hstore : u.rxRing.store u.rxWrite 0 = .ok u.rxRing := by
      rw [hring, Object.store, List.length_replicate, if_pos (by omega), List.set_replicate_self]
    rw [List.replicate_succ, uartRxDone, hnext, if_neg (by omega), hstore]
    have htail :=
      uartRxDone_zeros n { u with rxWrite := u.rxWrite + 1, stored := u.stored ++ [0] } hring
      (by dsimp only; omega)
    dsimp only at htail ⊢
    rw [htail, List.append_assoc, Nat.add_assoc, Nat.add_comm 1]
    rfl

/-- 511 bytes arrive, one is consumed, and one more arrives between the two reads of
`rx_write` at the end of the ring: there is room for it, and `received` returns 2 ^ 32 - 1. -/
theorem wrapped_count_exceeds_unread :
    ∃ c, Reachable (roomy ⟨.multirole, false⟩ receivedVolatile) {} c ∧
    returning c = some (2 ^ 32 - 1) ∧ c.state.unread = 511 := by
  have hfill : uartRxDone 0 (List.replicate 511 0) {} =
      { rxWrite := 511, stored := List.replicate 511 0 } :=
    uartRxDone_zeros 511 {} rfl (by decide)
  have hstart : step (roomy ⟨.multirole, false⟩ receivedVolatile) { state := {} }
      (.enter (.rxDone (List.replicate 511 0))) =
        some { state := { uart :=
          { rxWrite := 511, stored := List.replicate 511 0 } }, returned := some () } := by
    rw [step, if_pos (by decide +kernel)]
    exact congrArg (fun u => some (Config.settle [] (.done ({ uart := u } : State) ()))) hfill
  obtain ⟨c, hc, hf⟩ :=
    (Option.any_eq_true (fun c => returning c == some (2 ^ 32 - 1) && c.state.unread == 511)
    (run (roomy ⟨.multirole, false⟩ receivedVolatile)
      { state := { uart := { rxWrite := 511, stored := List.replicate 511 0 } },
        returned := some () }
      ([.enter .top] ++ goOn 1 ++ [.enter .packets] ++ goOn 8 ++
        [.enter .packets, .enter (.rxDone [0])] ++ goOn 3))).mp (by decide +kernel)
  obtain ⟨hreturning, hunread⟩ := Bool.and_eq_true_iff.mp hf
  exact ⟨c, ⟨.enter (.rxDone (List.replicate 511 0)) :: _,
    Option.bind_eq_some_iff.mpr ⟨_, hstart, hc⟩⟩, eq_of_beq hreturning, eq_of_beq hunread⟩

end NrfKit.Bridge
