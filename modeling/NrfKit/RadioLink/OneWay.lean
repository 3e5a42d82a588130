import Mathlib.Data.List.Induction
import Mathlib.Order.Interval.Finset.Nat

/- The one-way links: the transmitter and the receiver of `examples/m5-radio-link/main.c`, and the
   two receivers of `tests/hardware/m5-radio-peer/src/main.c`. The transmitter sends 1000 numbered
   packets once each; the receiver counts what it accepts, and as lost the numbers it skips.

   The RADIO may deliver anything: each `transfer` of the receiver fails, or leaves 17 bytes in
   `packet` with a CRC that is right or not. -/
namespace NrfKit.RadioLink

def packetCount : Nat := 1000
def packetLength : Nat := 16
def idleAttemptLimit : Nat := 4

abbrev Packet := List UInt8

/-! ## Transmitter -/

/-- What the loop of the transmitter leaves in `packet`. -/
def sentPacket (sequence : Nat) : Packet :=
  UInt8.ofNat packetLength :: UInt8.ofNat sequence :: UInt8.ofNat (sequence >>> 8) ::
    (List.range' 3 (packetLength - 2)).map (fun index => UInt8.ofNat (sequence + index))

/-- What is sent, in its order. -/
def transmitted : List Packet := (List.range packetCount).map sentPacket

/-! ## Receiver -/

/-- `packet` behind a `transfer` that succeeded, and the CRC status. -/
structure Reception where
  crcOk : Bool
  packet : Packet

/-- How `transfer(NRF_RADIO_TASK_RXEN)` ends; `none` where it returns 0. -/
abbrev Listen := Option Reception

/-- What the preprocessor selects of a receiver. -/
structure Role where
  attemptLimit : Nat
  idleBreak : Bool
  countsCrc : Bool
  lastSequence : Option Nat

/-- `NRFKIT_M5_LINK_RX`. -/
def linkRx : Role := ⟨packetCount * 4, true, true, none⟩

/-- `CONFIG_NRFKIT_M5_PEER_RX`. -/
def peerRx : Role := ⟨packetCount * 4, true, false, none⟩

/-- The same with `CONFIG_NRFKIT_M7_PEER_COEX_RX`. -/
def peerCoexRx : Role := ⟨100000, false, false, some 15⟩

/-- The local variables of a receiver; `left` is set by a `break`, and `accepted` records the
sequence numbers it has counted. -/
structure Receiver where
  received : Nat := 0
  crcErrors : Nat := 0
  lost : Nat := 0
  invalid : Nat := 0
  expected : Nat := 0
  attempts : Nat := 0
  idleAttempts : Nat := 0
  left : Bool := false
  accepted : List Nat := []

def sequenceOf (packet : Packet) : Nat :=
  (packet.getD 1 0).toNat ||| ((packet.getD 2 0).toNat <<< 8)

/-- The loop that checks the payload. -/
def payloadOk (packet : Packet) : Bool :=
  (List.range' 3 (packetLength - 2)).all fun index =>
    packet.getD index 0 == UInt8.ofNat (sequenceOf packet + index)

/-- The part of the loop behind the checks. -/
def Receiver.accept (k : Role) (r : Receiver) (sequence : Nat) : Receiver :=
  { r with
    lost := if r.received ≠ 0 ∧ r.expected < sequence then
      r.lost + (sequence - r.expected) else r.lost
    expected := sequence + 1
    received := r.received + 1
    left := k.lastSequence.any (· ≤ sequence)
    accepted := r.accepted ++ [sequence] }

def Receiver.hear (k : Role) (r : Receiver) (heard : Reception) : Receiver :=
  if heard.crcOk = false then
    { r with crcErrors := if k.countsCrc then r.crcErrors + 1 else r.crcErrors }
  else if heard.packet.getD 0 0 ≠ UInt8.ofNat packetLength then { r with invalid := r.invalid + 1 }
  else
    let sequence := sequenceOf heard.packet
    if payloadOk heard.packet = false ∨ (r.received ≠ 0 ∧ sequence < r.expected) then
      { r with invalid := r.invalid + 1 }
    else r.accept k sequence

/-- Whether the loop goes on. -/
def Receiver.going (k : Role) (r : Receiver) : Bool :=
  r.left = false ∧ r.received < packetCount ∧ r.attempts < k.attemptLimit

/-- The loop once, or nothing behind it. -/
def Receiver.step (k : Role) (r : Receiver) (listen : Listen) : Receiver :=
  if r.going k then
    let r := { r with attempts := r.attempts + 1 }
    match listen with
    | none =>
      if k.idleBreak ∧ r.received ≠ 0 then
        let idleAttempts := r.idleAttempts + 1
        { r with idleAttempts := idleAttempts, left := idleAttemptLimit ≤ idleAttempts }
      else r
    | some heard => { r with idleAttempts := 0 }.hear k heard
  else r

def Receiver.run (k : Role) (r : Receiver) (listens : List Listen) : Receiver :=
  listens.foldl (Receiver.step k) r

/-- What `linkRx` and `peerRx` call a pass. -/
def Receiver.passed (r : Receiver) : Bool := 10 ≤ r.received ∧ r.invalid = 0

/-- What `peerCoexRx` calls a pass. -/
def Receiver.coexPassed (r : Receiver) : Bool := 16 ≤ r.expected ∧ r.invalid = 0

/-! ## Between them -/

/-- The packets that were heard with a right CRC. -/
def intact (listens : List Listen) : List Packet :=
  listens.filterMap fun
    | some ⟨true, packet⟩ => some packet
    | _ => none

/-- How many were heard with a wrong one. -/
def damaged (listens : List Listen) : Nat :=
  listens.countP fun listen => listen.any fun heard => !heard.crcOk

@[simp] theorem run_nil {k : Role} {r : Receiver} : r.run k [] = r := rfl

@[simp] theorem run_snoc {k : Role} {r : Receiver} {listens : List Listen} {listen : Listen} :
    r.run k (listens ++ [listen]) = (r.run k listens).step k listen := by
  simp [Receiver.run]

@[simp] theorem intact_snoc_none {listens : List Listen} :
    intact (listens ++ [none]) = intact listens := by
  simp [intact]

@[simp] theorem intact_snoc_bad {listens : List Listen} {packet : Packet} :
    intact (listens ++ [some ⟨false, packet⟩]) = intact listens := by
  simp [intact]

@[simp] theorem intact_snoc_good {listens : List Listen} {packet : Packet} :
    intact (listens ++ [some ⟨true, packet⟩]) = intact listens ++ [packet] := by
  simp [intact]

/-! ## What is sent is accepted -/

theorem sequenceOf_lt (packet : Packet) : sequenceOf packet < 2 ^ 16 := by
  have hlow := (packet.getD 1 0).toNat_lt
  have hhigh := (packet.getD 2 0).toNat_lt
  unfold sequenceOf
  apply Nat.or_lt_two_pow
  · omega
  · rw [Nat.shiftLeft_eq]
    omega

theorem sequenceOf_sent {sequence : Nat} (h : sequence < 2 ^ 16) :
    sequenceOf (sentPacket sequence) = sequence := by
  have hlow : (UInt8.ofNat sequence).toNat = sequence % 2 ^ 8 := UInt8.toNat_ofNat'
  have hhigh : (UInt8.ofNat (sequence >>> 8)).toNat = sequence / 2 ^ 8 := by
    rw [UInt8.toNat_ofNat', Nat.shiftRight_eq_div_pow]
    omega
  show (UInt8.ofNat sequence).toNat ||| ((UInt8.ofNat (sequence >>> 8)).toNat <<< 8) = sequence
  rw [hlow, hhigh, Nat.or_comm, ← Nat.shiftLeft_add_eq_or_of_lt (by omega), Nat.shiftLeft_eq]
  omega

theorem payloadOk_sent {sequence : Nat} (h : sequence < 2 ^ 16) :
    payloadOk (sentPacket sequence) = true := by
  unfold payloadOk
  rw [List.all_eq_true, sequenceOf_sent h]
  intro index hindex
  obtain ⟨i, hi, rfl⟩ := List.mem_range'.mp hindex
  have hvalue : (sentPacket sequence).getD (3 + 1 * i) 0 =
      ((List.range' 3 (packetLength - 2)).map (fun index => UInt8.ofNat (sequence + index))).getD
        i 0 := by
    rw [Nat.one_mul, Nat.add_comm 3 i]
    rfl
  rw [hvalue]
  simp [List.getD, hi]

theorem mem_transmitted {packet : Packet} (h : packet ∈ transmitted) :
    packet.getD 0 0 = UInt8.ofNat packetLength ∧ payloadOk packet = true := by
  obtain ⟨sequence, hsequence, rfl⟩ := List.mem_map.mp h
  have hless : sequence < packetCount := List.mem_range.mp hsequence
  exact ⟨rfl, payloadOk_sent (Nat.lt_trans hless (by decide))⟩

theorem sequences_transmitted : transmitted.map sequenceOf = List.range packetCount := by
  rw [transmitted, List.map_map, List.map_congr_left (g := id), List.map_id]
  intro sequence hsequence
  exact sequenceOf_sent (Nat.lt_trans (List.mem_range.mp hsequence) (by decide))

/-! ## The account -/

/-- Numbers of a range that an increasing list leaves out. -/
theorem missing_card {numbers : List Nat} {first last : Nat}
    (hincreasing : numbers.Pairwise (· < ·)) (hrange : ∀ s ∈ numbers, first ≤ s ∧ s ≤ last) :
    (Finset.Icc first last \ numbers.toFinset).card + numbers.length = last + 1 - first := by
  have hnodup : numbers.Nodup := hincreasing.imp fun h => Nat.ne_of_lt h
  have hsubset : numbers.toFinset ⊆ Finset.Icc first last := by
    intro s hs
    exact Finset.mem_Icc.mpr (hrange s (List.mem_toFinset.mp hs))
  calc (Finset.Icc first last \ numbers.toFinset).card + numbers.length
      = (Finset.Icc first last \ numbers.toFinset).card + numbers.toFinset.card := by
        rw [List.toFinset_card_of_nodup hnodup]
    _ = (Finset.Icc first last).card := Finset.card_sdiff_add_card_eq_card hsubset
    _ = last + 1 - first := Nat.card_Icc first last

/-- What the counters say about the numbers that were accepted. -/
structure Accounted (r : Receiver) : Prop where
  received : r.received = r.accepted.length
  increasing : r.accepted.Pairwise (· < ·)
  below : ∀ s ∈ r.accepted, s < r.expected
  expected : r.expected ≤ 2 ^ 16
  /-- Nothing is lost before the first number, and `expected` is behind the last. -/
  unstarted : r.accepted = [] → r.expected = 0 ∧ r.lost = 0
  last : r.accepted ≠ [] → ∃ s ∈ r.accepted, r.expected = s + 1
  lost : ∀ first ∈ r.accepted.head?, r.lost + r.accepted.length + first = r.expected

section
variable {k : Role} {r : Receiver} {listens : List Listen}

/-- A step that accepts nothing. -/
theorem Accounted.same {r' : Receiver} (h : Accounted r)
    (hsame : (r'.received, r'.lost, r'.expected, r'.accepted) =
    (r.received, r.lost, r.expected, r.accepted)) : Accounted r' := by
  obtain ⟨received, crcErrors, lost, invalid, expected, attempts, idleAttempts, left,
    accepted⟩ := r'
  obtain ⟨rfl, rfl, rfl, rfl⟩ := by simpa using hsame
  exact ⟨h.received, h.increasing, h.below, h.expected, h.unstarted, h.last, h.lost⟩

theorem Accounted.accept {sequence : Nat} (h : Accounted r) (hsequence : sequence < 2 ^ 16)
    (hnew : ¬ (r.received ≠ 0 ∧ sequence < r.expected)) : Accounted (r.accept k sequence) := by
  have hempty : r.received = 0 ↔ r.accepted = [] := by rw [h.received, List.length_eq_zero_iff]
  have hbehind : ∀ s ∈ r.accepted, s < sequence := by
    intro s hs
    have hreceived : r.received ≠ 0 := fun hzero => by
      rw [hempty.mp hzero] at hs
      cases hs
    have hbelow := h.below s hs
    omega
  refine ⟨?_, ?_, ?_, hsequence, ?_, ?_, ?_⟩
  · simp [Receiver.accept, h.received]
  · refine List.pairwise_append.mpr ⟨h.increasing, List.pairwise_singleton .., fun s hs t ht => ?_⟩
    rw [List.mem_singleton.mp ht]
    exact hbehind s hs
  · intro s hs
    rcases List.mem_append.mp hs with hs | hs
    · exact Nat.lt_succ_of_lt (hbehind s hs)
    · rw [List.mem_singleton.mp hs]
      exact Nat.lt_succ_self _
  · intro hnil
    exact absurd hnil (List.append_ne_nil_of_right_ne_nil _ (List.cons_ne_nil _ _))
  · exact fun _ => ⟨sequence, List.mem_append_right _ (List.mem_singleton.mpr rfl), rfl⟩
  · intro first hfirst
    have haccepted : (r.accept k sequence).accepted = r.accepted ++ [sequence] := rfl
    rw [haccepted] at hfirst ⊢
    rw [List.length_append, List.length_singleton]
    show (if r.received ≠ 0 ∧ r.expected < sequence then r.lost + (sequence - r.expected)
      else r.lost) +
      (r.accepted.length + 1) + first = sequence + 1
    by_cases hzero : r.received = 0
    · have hnil := hempty.mp hzero
      obtain rfl : sequence = first := by simpa [hnil] using hfirst
      rw [if_neg (fun hskipped => hskipped.1 hzero), (h.unstarted hnil).2, hnil]
      simp
      omega
    · have hne : r.accepted ≠ [] := fun hnil => hzero (hempty.mpr hnil)
      have hlost := h.lost first (by rwa [List.head?_append_of_ne_nil _ hne] at hfirst)
      split <;> omega

theorem Accounted.hear {heard : Reception} (h : Accounted r) : Accounted (r.hear k heard) := by
  unfold Receiver.hear
  split
  · exact h.same rfl
  split
  · exact h.same rfl
  dsimp only
  split
  · exact h.same rfl
  · rename_i hchecks
    exact h.accept (sequenceOf_lt _) fun hold => hchecks (Or.inr hold)

theorem Accounted.step {listen : Listen} (h : Accounted r) : Accounted (r.step k listen) := by
  unfold Receiver.step
  split
  · cases listen with
    | none =>
      dsimp only
      split <;> exact h.same rfl
    | some heard =>
      apply Accounted.hear
      exact h.same rfl
  · exact h

theorem accounted_run (k : Role) (listens : List Listen) :
    Accounted (Receiver.run k {} listens) := by
  induction listens using List.reverseRecOn with
  | nil => exact ⟨rfl, .nil, nofun, Nat.zero_le _, fun _ => ⟨rfl, rfl⟩, fun hne =>
    absurd rfl hne, nofun⟩
  | append_singleton listens listen ih =>
    rw [run_snoc]
    exact ih.step

/-- What is lost is what was skipped between the first and the last number. -/
theorem Accounted.lost_missing (h : Accounted r) {first last : Nat}
    (hfirst : first ∈ r.accepted.head?) (hlast : r.expected = last + 1) :
    r.lost = (Finset.Icc first last \ r.accepted.toFinset).card := by
  have hrange : ∀ s ∈ r.accepted, first ≤ s ∧ s ≤ last := by
    intro s hs
    have hbelow := h.below s hs
    refine ⟨?_, by omega⟩
    obtain ⟨rest, hrest⟩ := List.head?_eq_some_iff.mp hfirst
    rw [hrest] at hs
    rcases List.mem_cons.mp hs with rfl | hs
    · exact Nat.le_refl _
    · exact Nat.le_of_lt ((List.pairwise_cons.mp (hrest ▸ h.increasing)).1 s hs)
  have hcard := missing_card h.increasing hrange
  have hlost := h.lost first hfirst
  omega

theorem Accounted.lost_lt (h : Accounted r) : r.lost < 2 ^ 16 := by
  have hexpected := h.expected
  cases haccepted : r.accepted with
  | nil =>
    have hlost := (h.unstarted haccepted).2
    omega
  | cons first rest =>
    have hlost := h.lost first (by rw [haccepted]; rfl)
    rw [haccepted, List.length_cons] at hlost
    omega

/-! ## Attempts -/

/-- Each reception takes an attempt. -/
structure Attempted (k : Role) (n : Nat) (r : Receiver) : Prop where
  counted : r.received + r.crcErrors + r.invalid ≤ r.attempts
  limit : r.attempts ≤ k.attemptLimit
  /-- While the loop goes on every listen is one. -/
  going : r.going k = true → r.attempts = n

theorem going_iff :
    r.going k = true ↔ r.left = false ∧ r.received < packetCount ∧ r.attempts < k.attemptLimit := by
  simp [Receiver.going]

theorem Attempted.step {n : Nat} {listen : Listen} (h : Attempted k n r) :
    Attempted k (n + 1) (r.step k listen) := by
  have hcounted := h.counted
  unfold Receiver.step
  split
  · rename_i hgoing
    have hn := h.going hgoing
    have hless := (going_iff.mp hgoing).2.2
    have hattempts : ∀ r' : Receiver, r'.attempts = r.attempts + 1 →
        r'.received + r'.crcErrors + r'.invalid ≤ r.attempts + 1 →
        Attempted k (n + 1) r' := by
      intro r' hone hmost
      exact ⟨by omega, by omega, fun _ => by omega⟩
    cases listen with
    | none =>
      dsimp only
      split
      · exact hattempts _ rfl (Nat.le_succ_of_le hcounted)
      · exact hattempts _ rfl (Nat.le_succ_of_le hcounted)
    | some heard =>
      dsimp only [Receiver.hear]
      split
      · refine hattempts _ rfl ?_
        dsimp only
        split <;> omega
      split
      · exact hattempts _ rfl (by dsimp only; omega)
      split
      · exact hattempts _ rfl (by dsimp only; omega)
      · exact hattempts _ rfl (by dsimp only [Receiver.accept]; omega)
  · rename_i hover
    exact ⟨hcounted, h.limit, fun hgoing => absurd hgoing hover⟩

theorem attempted_run (k : Role) (listens : List Listen) :
    Attempted k listens.length (Receiver.run k {} listens) := by
  induction listens using List.reverseRecOn with
  | nil => exact ⟨Nat.le_refl 0, Nat.zero_le _, fun _ => rfl⟩
  | append_singleton listens listen ih =>
    rw [run_snoc, List.length_append]
    exact ih.step

/-- A wrong CRC is counted for a packet that was heard with one. -/
structure Rejected (k : Role) (listens : List Listen) (r : Receiver) : Prop where
  le : r.crcErrors ≤ damaged listens
  /-- While the loop goes on a receiver that counts them has counted all. -/
  going : k.countsCrc = true → r.going k = true → r.crcErrors = damaged listens

theorem damaged_snoc (listens : List Listen) (listen : Listen) :
    damaged (listens ++ [listen]) = damaged listens + damaged [listen] := List.countP_append ..

theorem Rejected.step {listen : Listen} (h : Rejected k listens r) :
    Rejected k (listens ++ [listen]) (r.step k listen) := by
  have hle := h.le
  have hmore := damaged_snoc listens listen
  unfold Receiver.step
  split
  · rename_i hgoing
    have hall := fun hcounts => h.going hcounts hgoing
    have hquiet : ∀ r' : Receiver, r'.crcErrors = r.crcErrors → damaged [listen] = 0 →
        Rejected k (listens ++ [listen]) r' := by
      intro r' hsame hnone
      exact ⟨by omega, fun hcounts _ => by rw [hsame, hall hcounts]; omega⟩
    cases listen with
    | none =>
      dsimp only
      split <;> exact hquiet _ rfl rfl
    | some heard =>
      obtain ⟨crcOk, packet⟩ := heard
      cases crcOk with
      | true =>
        dsimp only [Receiver.hear]
        rw [if_neg (by decide)]
        split
        · exact hquiet _ rfl rfl
        split
        · exact hquiet _ rfl rfl
        · exact hquiet _ rfl rfl
      | false =>
        have hone : damaged [some ⟨false, packet⟩] = 1 := rfl
        dsimp only [Receiver.hear]
        rw [if_pos rfl]
        refine ⟨?_, fun hcounts _ => ?_⟩
        · dsimp only
          split <;> omega
        · dsimp only
          rw [if_pos hcounts, hall hcounts]
          omega
  · rename_i hover
    exact ⟨by omega, fun _ hgoing => absurd hgoing hover⟩

theorem rejected_run (k : Role) (listens : List Listen) :
    Rejected k listens (Receiver.run k {} listens) := by
  induction listens using List.reverseRecOn with
  | nil => exact ⟨Nat.le_refl 0, fun _ _ => rfl⟩
  | append_singleton listens listen ih =>
    rw [run_snoc]
    exact ih.step

/-! ## What is accepted was heard -/

theorem step_accepted (listen : Listen) : (r.step k listen).accepted = r.accepted ∨
    ∃ packet, listen = some ⟨true, packet⟩ ∧ (r.step k listen).accepted = r.accepted ++
      [sequenceOf packet] := by
  unfold Receiver.step
  split
  · cases listen with
    | none =>
      left
      dsimp only
      split <;> rfl
    | some heard =>
      obtain ⟨crcOk, packet⟩ := heard
      cases crcOk with
      | false => exact .inl rfl
      | true =>
        dsimp only [Receiver.hear]
        rw [if_neg (by decide)]
        split
        · exact .inl rfl
        split
        · exact .inl rfl
        · exact .inr ⟨packet, rfl, rfl⟩
  · exact .inl rfl

theorem intact_snoc (listens : List Listen) (listen : Listen) :
    intact listens <+: intact (listens ++ [listen]) := by
  rw [intact, intact, List.filterMap_append]
  exact List.prefix_append ..

theorem accepted_run (k : Role) (listens : List Listen) :
    (Receiver.run k {} listens).accepted.Sublist ((intact listens).map sequenceOf) := by
  induction listens using List.reverseRecOn with
  | nil => exact List.nil_sublist _
  | append_singleton listens listen ih =>
    rw [run_snoc]
    rcases step_accepted (k := k) (r := Receiver.run k {} listens) listen
      with hsame | ⟨packet, rfl, hmore⟩
    · rw [hsame]
      exact ih.trans ((intact_snoc listens listen).sublist.map _)
    · rw [hmore, intact_snoc_good, List.map_append]
      exact ih.append (List.Sublist.refl _)

/-! ## A transmitter that is heard -/

/-- Every packet of the transmitter that came through while the loop went on has been accepted. -/
structure Follows (k : Role) (listens : List Listen) (r : Receiver) : Prop where
  valid : r.invalid = 0
  leading : r.accepted <+: (intact listens).map sequenceOf
  going : r.going k = true → r.accepted = (intact listens).map sequenceOf

/-- A packet the transmitter sent behind those that were accepted is accepted. -/
theorem hear_sent {packet : Packet} (h : Accounted r)
    (hsent : (intact listens ++ [packet]).Sublist transmitted)
    (hall : r.accepted = (intact listens).map sequenceOf) :
    r.hear k ⟨true, packet⟩ = r.accept k (sequenceOf packet) := by
  obtain ⟨hlength, hpayload⟩ :=
    mem_transmitted (hsent.subset (List.mem_append_right _ (List.mem_singleton.mpr rfl)))
  have hincreasing : (r.accepted ++ [sequenceOf packet]).Pairwise (· < ·) := by
    have hmapped := hsent.map sequenceOf
    rw [sequences_transmitted, List.map_append, ← hall] at hmapped
    exact List.pairwise_lt_range.sublist hmapped
  have hnew : ¬ (r.received ≠ 0 ∧ sequenceOf packet < r.expected) := by
    intro ⟨hreceived, hless⟩
    have hne : r.accepted ≠ [] := fun hnil => hreceived (by rw [h.received, hnil]; rfl)
    obtain ⟨s, hs, hexpected⟩ := h.last hne
    have hbehind : s < sequenceOf packet :=
      (List.pairwise_append.mp hincreasing).2.2 s hs _ (List.mem_singleton.mpr rfl)
    omega
  unfold Receiver.hear
  rw [if_neg (by simp), if_neg (not_not_intro hlength)]
  exact if_neg fun hrefused => hrefused.elim (fun hbad => by rw [hpayload] at hbad; cases hbad) hnew

theorem Follows.step {listen : Listen} (h : Follows k listens r) (haccount : Accounted r)
    (hsent : (intact (listens ++ [listen])).Sublist transmitted) :
    Follows k (listens ++ [listen]) (r.step k listen) := by
  have hquiet : ∀ r' : Receiver, r'.invalid = r.invalid → r'.accepted = r.accepted →
      r.going k = true →
      intact (listens ++ [listen]) = intact listens → Follows k (listens ++ [listen]) r' := by
    intro r' hinvalid haccepted hgoing hsame
    have hall := h.going hgoing
    rw [← haccepted, ← hsame] at hall
    exact ⟨hinvalid.trans h.valid, by rw [hall], fun _ => hall⟩
  unfold Receiver.step
  split
  · rename_i hgoing
    cases listen with
    | none =>
      dsimp only
      split <;> exact hquiet _ rfl rfl hgoing intact_snoc_none
    | some heard =>
      obtain ⟨crcOk, packet⟩ := heard
      cases crcOk with
      | false => exact hquiet _ rfl rfl hgoing intact_snoc_bad
      | true =>
        have hall := h.going hgoing
        rw [intact_snoc_good] at hsent
        have hattempt : Accounted { r with attempts := r.attempts + 1, idleAttempts := 0 } :=
          haccount.same rfl
        dsimp only
        rw [hear_sent hattempt hsent hall]
        have haccepted : r.accepted ++
            [sequenceOf packet] = (intact (listens ++ [some ⟨true, packet⟩])).map sequenceOf := by
          rw [intact_snoc_good, List.map_append, hall]
          rfl
        exact ⟨h.valid, by rw [← haccepted]; exact List.prefix_rfl, fun _ => haccepted⟩
  · rename_i hover
    exact ⟨h.valid, h.leading.trans ((intact_snoc listens listen).map _),
      fun hgoing => absurd hgoing hover⟩

theorem follows_run (k : Role) (listens : List Listen)
    (hsent : (intact listens).Sublist transmitted) :
    Follows k listens (Receiver.run k {} listens) := by
  induction listens using List.reverseRecOn with
  | nil => exact ⟨rfl, List.prefix_rfl, fun _ => rfl⟩
  | append_singleton listens listen ih =>
    rw [run_snoc]
    exact (ih ((intact_snoc listens listen).sublist.trans hsent)).step
      (accounted_run k listens) hsent

end

/-- **The one-way links.** Whatever the RADIO delivers, the numbers a receiver accepts
increase and were heard, what it counts as lost are exactly the numbers between the first and
the last that it did not accept, it gives up within its attempts, and the wrong CRCs it counts
were heard. Where what came through is what the transmitter sent, nothing is invalid, and
every packet that came through is accepted for as long as the loop goes on. -/
theorem one_way_link (k : Role) (listens : List Listen) :
    let r := Receiver.run k {} listens
    (r.received = r.accepted.length ∧ r.accepted.Pairwise (· < ·) ∧
      r.accepted.Sublist ((intact listens).map sequenceOf)) ∧
    (∀ first ∈ r.accepted.head?, ∃ last ∈ r.accepted, r.expected = last + 1 ∧ last < 2 ^ 16 ∧
      r.lost = (Finset.Icc first last \ r.accepted.toFinset).card) ∧
    (r.received + r.crcErrors + r.invalid ≤ r.attempts ∧ r.attempts ≤ k.attemptLimit ∧
      (k.attemptLimit ≤ listens.length → r.going k = false)) ∧
    (r.crcErrors ≤ damaged listens ∧
      (k.countsCrc = true → r.going k = true → r.crcErrors = damaged listens)) ∧
    ((intact listens).Sublist transmitted → r.invalid = 0 ∧
      r.accepted <+: (intact listens).map sequenceOf ∧
      (r.going k = true → r.accepted = (intact listens).map sequenceOf)) := by
  intro r
  have haccount : Accounted r := accounted_run k listens
  have hattempts : Attempted k listens.length r := attempted_run k listens
  refine ⟨⟨haccount.received, haccount.increasing, accepted_run k listens⟩, fun first hfirst => ?_,
    ⟨hattempts.counted, hattempts.limit, fun hlong => ?_⟩,
      ⟨(rejected_run k listens).le, (rejected_run k listens).going⟩,
    fun hsent => ?_⟩
  · have hne : r.accepted ≠ [] := fun hnil => by
      rw [hnil] at hfirst
      cases hfirst
    obtain ⟨last, hlast, hexpected⟩ := haccount.last hne
    have hmost := haccount.expected
    exact ⟨last, hlast, hexpected, by omega, haccount.lost_missing hfirst hexpected⟩
  · rw [Bool.eq_false_iff]
    intro hgoing
    have hall := hattempts.going hgoing
    have hless := (going_iff.mp hgoing).2.2
    omega
  · have hfollows := follows_run k listens hsent
    exact ⟨hfollows.valid, hfollows.leading, hfollows.going⟩

/-- Sixteen packets, and one of them comes with a wrong CRC. -/
def oneDamaged : List Listen := (List.range 16).map fun sequence =>
      some ⟨sequence != 5, sentPacket sequence⟩

theorem one_way_link_damaged :
    (Receiver.run linkRx {} oneDamaged).invalid = 0 ∧ (Receiver.run linkRx {} oneDamaged).lost = 1 ∧
    (Receiver.run linkRx {} oneDamaged).accepted = (List.range 16).filter (· != 5) := by
  have hintact : intact oneDamaged = ((List.range 16).filter (· != 5)).map sentPacket := by
    decide +kernel
  have hsequences : (intact oneDamaged).map sequenceOf = (List.range 16).filter (· != 5) := by
    decide +kernel
  have hsent : (intact oneDamaged).Sublist transmitted := by
    rw [hintact]
    exact (List.filter_sublist.trans (List.range_sublist.mpr (by decide))).map _
  obtain ⟨-, hlost, -, -, hfollows⟩ := one_way_link linkRx oneDamaged
  obtain ⟨hinvalid, -, hall⟩ := hfollows hsent
  have haccepted := (hall (by decide +kernel)).trans hsequences
  obtain ⟨last, -, hexpected, -, hmissing⟩ := hlost 0 (by rw [haccepted]; rfl)
  have hlast : (Receiver.run linkRx {} oneDamaged).expected = 16 := by decide +kernel
  obtain rfl : last = 15 := by omega
  refine ⟨hinvalid, ?_, haccepted⟩
  rw [hmissing, haccepted]
  decide

end NrfKit.RadioLink
