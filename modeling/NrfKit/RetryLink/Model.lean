import NrfKit.Firmware.State

/- `examples/m7-timeslot-retry/main.c` and the retry server of
   `tests/hardware/m5-radio-peer/src/main.c`: a client sends 64 sequences from a circular
   queue, one request for each Timeslot grant, until each is acknowledged; the server
   drops the first request of every eighth sequence, suppresses one ACK, replays the
   ACK of the sequence it committed last, and switches channel with the client every
   16 sequences.

   A packet on the air is the list of its bytes. It is delivered intact or lost, and
   only between radios on one frequency; sending always completes (either end gives up
   otherwise). -/
namespace NrfKit.RetryLink
open NrfKit.Firmware

def totalPackets : Nat := 64
def queueCapacity : Nat := 8
def maxRetries : Nat := 3
def packetLength : Nat := 16
def grantLengthUs : UInt32 := 3000

abbrev Packet := List Nat

/-! ## Client -/

/-- The static variables of the client. -/
structure Client where
  queue : Nat → Nat := fun _ => 0
  queueHead : Nat := 0
  queueCount : Nat := 0
  nextSequence : Nat := 0
  currentAttempt : Nat := 0
  currentChannel : Nat := 16
  accepted : Nat := 0
  completed : Nat := 0
  retries : Nat := 0
  dropped : Nat := 0
  channelSwitches : Nat := 0
  grants : Nat := 0
  queuePeak : Nat := 0
  transferComplete : Bool := false
  sessionIdle : Bool := false
  sessionClosed : Bool := false

def action (kind : ActionKind) : Action :=
  { kind := kind, lengthUs := grantLengthUs, distanceUs := 5000 }

/-- The body of the loop of `fill_queue`. -/
def enqueue (c : Client) : Client :=
  let c := { c with
    queue := fun i =>
      if i = (c.queueHead + c.queueCount) % queueCapacity then c.nextSequence else c.queue i
    nextSequence := c.nextSequence + 1
    queueCount := c.queueCount + 1
    accepted := c.accepted + 1 }
  if c.queuePeak < c.queueCount then { c with queuePeak := c.queueCount } else c

def fillLoop : Nat → Client → Client
  | 0, c => c
  | n + 1, c =>
    if c.queueCount < queueCapacity ∧ c.nextSequence < totalPackets then
      fillLoop n (enqueue c) else c

/-- Each round adds an entry, so there are at most `QUEUE_CAPACITY`. -/
def fillQueue (c : Client) : Client := fillLoop queueCapacity c

/-- What the RADIO does in one grant: whether it could be configured, whether the request
was sent before the deadline, and the packet received then, if any. -/
structure Air where
  configured : Bool
  sent : Bool
  received : Option Packet

def requestPacket (c : Client) : Packet :=
  let sequence := c.queue c.queueHead
  packetLength :: sequence :: c.currentAttempt ::
    (List.range' 3 (packetLength - 2)).map (fun index => (sequence + index) % 256)

def isAck (sequence : Nat) (packet : Packet) : Bool :=
  packet.getD 0 0 == 2 && packet.getD 1 0 == sequence && packet.getD 2 0 == 0xAC

/-- The exchange failed. -/
def retry (c : Client) : Client × Action :=
  let c := { c with currentAttempt := c.currentAttempt + 1 }
  if maxRetries < c.currentAttempt then
    ({ c with dropped := c.dropped + 1, transferComplete := true }, action .actionEnd)
  else ({ c with retries := c.retries + 1 }, action .actionRequestNormal)

/-- The head of the queue is acknowledged. -/
def acknowledge (c : Client) : Client :=
  { c with
    currentAttempt := 0
    queueHead := (c.queueHead + 1) % queueCapacity
    queueCount := c.queueCount - 1
    completed := c.completed + 1 }

/-- The channel changes every 16 sequences. -/
def switchChannel (c : Client) : Client :=
  if c.completed % 16 = 0 then
    { c with
      currentChannel := if c.currentChannel = 16 then 40 else 16
      channelSwitches := c.channelSwitches + 1 }
  else c

/-- The exchange succeeded. -/
def advance (c : Client) : Client × Action :=
  let c := fillQueue (switchChannel (acknowledge c))
  if c.completed = totalPackets then ({ c with transferComplete := true }, action .actionEnd)
  else (c, action .actionRequestNormal)

def timeslotHandler (signal : Signal) (air : Air) (c : Client) : Client × Action :=
  match signal with
  | .start =>
    let c := { c with grants := c.grants + 1 }
    if c.queueCount = 0 ∨ air.configured = false then
      ({ c with transferComplete := true }, action .actionEnd)
    else
      let sequence := c.queue c.queueHead
      if air.sent = false then ({ c with transferComplete := true }, action .actionEnd)
      else if !air.received.any (isAck sequence) then retry c
      else advance c
  | .timer => ({ c with transferComplete := true }, action .actionEnd)
  | .idle => ({ c with sessionIdle := true }, action .actionNone)
  | .closed => ({ c with sessionClosed := true }, action .actionNone)
  | _ => (c, action .actionNone)

/-! ## Server -/

/-- The local variables of the server; `committed` records the sequences it has counted. -/
structure Server where
  droppedOnce : Nat → Bool := fun _ => false
  completed : Nat := 0
  intentionalDrops : Nat := 0
  suppressedAcks : Nat := 0
  duplicateAcks : Nat := 0
  channelSwitches : Nat := 0
  invalid : Nat := 0
  attempts : Nat := 0
  frequency : Nat := 2416
  committed : List Nat := []

/-- The loop condition. -/
def Server.running (s : Server) : Bool := s.completed < 64 && s.attempts < 100000

/-- The end of the loop body: the sequence is committed. -/
def commit (sequence : Nat) (s : Server) : Server :=
  let s := { s with completed := s.completed + 1, committed := s.committed ++ [sequence] }
  if s.completed % 16 = 0 then
    { s with
      frequency := if (s.completed / 16) % 2 ≠ 0 then 2440 else 2416
      channelSwitches := s.channelSwitches + 1 }
  else s

/-- The loop body once a packet with a valid CRC has come: the server and the ACK it
sends, if any. -/
def serve (packet : Packet) (s : Server) : Server × Option Packet :=
  if packet.getD 0 0 ≠ packetLength then ({ s with invalid := s.invalid + 1 }, none)
  else
    let sequence := packet.getD 1 0
    let duplicate : Bool := s.completed != 0 && sequence == (s.completed - 1) % 256
    if 64 ≤ sequence ∨ (sequence ≠ s.completed ∧ duplicate = false) then
      ({ s with invalid := s.invalid + 1 }, none)
    else if duplicate = false ∧ sequence % 8 = 0 ∧ s.droppedOnce sequence = false then
      ({ s with
        droppedOnce := fun i => if i = sequence then true else s.droppedOnce i
        intentionalDrops := s.intentionalDrops + 1 }, none)
    else
      let s := if duplicate then { s with duplicateAcks := s.duplicateAcks + 1 } else s
      let suppressAck : Bool := !duplicate && sequence == 1 && s.suppressedAcks == 0
      let s := if suppressAck then { s with suppressedAcks := s.suppressedAcks + 1 } else s
      let ack : Option Packet := if suppressAck then none else some [2, sequence, 0xAC]
      if duplicate then (s, ack) else (commit sequence s, ack)

/-- One round of the loop; `none` is a receive that timed out. -/
def serverRound (received : Option Packet) (s : Server) : Server × Option Packet :=
  if s.running then
    let s := { s with attempts := s.attempts + 1 }
    match received with
    | none => (s, none)
    | some packet => serve packet s
  else (s, none)

/-! ## The link -/

/-- What the air loses of one exchange. -/
inductive Loss where
  | nothing
  | request
  | ack
  deriving DecidableEq, Repr

structure Link where
  client : Client
  server : Server

/-- `main` of the client fills the queue; the server starts its loop. -/
def Link.initial : Link := ⟨fillQueue {}, {}⟩

/-- The two radios are on one frequency. -/
def Link.tuned (l : Link) : Bool := 2400 + l.client.currentChannel == l.server.frequency

/-- One grant of the client, until its transfer is complete. -/
def Link.grant (loss : Loss) (l : Link) : Link :=
  if l.client.transferComplete then l
  else
    let heard := l.client.queueCount ≠ 0 ∧ l.tuned = true ∧ loss ≠ .request
    let served := serverRound (if heard then some (requestPacket l.client) else none) l.server
    let received := if loss = .ack then none else served.2
    ⟨(timeslotHandler .start ⟨true, true, received⟩ l.client).1, served.1⟩

/-- A grant, or a receive of the server that times out between grants. -/
inductive Slot where
  | quiet
  | grant (loss : Loss)
  deriving DecidableEq, Repr

def Link.slot (l : Link) : Slot → Link
  | .quiet => { l with server := (serverRound none l.server).1 }
  | .grant loss => l.grant loss

def Link.run (l : Link) (slots : List Slot) : Link := slots.foldl Link.slot l

/-! ## What one round of the server does -/

section
variable {s : Server} {packet : Packet} {q : Nat}

theorem serverRound_stopped {received : Option Packet} (h : s.running = false) :
    serverRound received s = (s, none) := by
  unfold serverRound
  rw [if_neg (by simp [h])]

theorem serverRound_quiet (h : s.running = true) :
    serverRound none s = ({ s with attempts := s.attempts + 1 }, none) := by
  unfold serverRound
  rw [if_pos h]

theorem serverRound_heard (h : s.running = true) :
    serverRound (some packet) s = serve packet { s with attempts := s.attempts + 1 } := by
  unfold serverRound
  rw [if_pos h]

/-- The request is well formed and asks for `q`. -/
def Requests (q : Nat) (packet : Packet) : Prop :=
  packet.getD 0 0 = packetLength ∧ packet.getD 1 0 = q

/-- The server has committed the sequence already: the ACK is replayed. -/
theorem serve_duplicate (h : Requests q packet) (hq : q < 64) (hs : s.completed = q + 1) :
    serve packet s = ({ s with duplicateAcks := s.duplicateAcks + 1 }, some [2, q, 0xAC]) := by
  have hmod : q % 256 = q := Nat.mod_eq_of_lt (by omega)
  unfold serve
  rw [h.1, h.2, hs]
  simp [hmod, Nat.not_le.mpr hq]

/-- The first request of every eighth sequence is dropped. -/
theorem serve_dropped (h : Requests q packet) (hq : q < 64) (hs : s.completed = q) (h8 : q % 8 = 0)
    (hd : s.droppedOnce q = false) : serve packet s =
      ({ s with
        droppedOnce := fun i => if i = q then true else s.droppedOnce i
        intentionalDrops := s.intentionalDrops + 1 }, none) := by
  have hne : q ≠ 0 → q ≠ (q - 1) % 256 := by omega
  unfold serve
  rw [h.1, h.2, hs]
  by_cases h0 : q = 0
  · subst h0
    simp [hd]
  · simp [h0, hne h0, Nat.not_le.mpr hq, h8, hd]

/-- Any other request for the next sequence commits it; the first commit of sequence 1 is
not acknowledged. -/
theorem serve_commit (h : Requests q packet) (hq : q < 64) (hs : s.completed = q)
    (hd : q % 8 = 0 → s.droppedOnce q = true) : serve packet s =
      if q = 1 ∧ s.suppressedAcks = 0 then
        (commit q { s with suppressedAcks := s.suppressedAcks + 1 }, none)
      else (commit q s, some [2, q, 0xAC]) := by
  have hne : q ≠ 0 → q ≠ (q - 1) % 256 := by omega
  have hnodrop : ¬ (q % 8 = 0 ∧ s.droppedOnce q = false) := by
    rintro ⟨h8, hf⟩
    rw [hd h8] at hf
    cases hf
  unfold serve
  rw [h.1, h.2, hs]
  by_cases h0 : q = 0
  · subst h0
    simp [hd rfl]
  · by_cases h1 : q = 1 ∧ s.suppressedAcks = 0
    · obtain ⟨rfl, hsup⟩ := h1
      simp [hsup, hs]
    · simp [h0, hne h0, Nat.not_le.mpr hq, hnodrop, h1]

end

end NrfKit.RetryLink
