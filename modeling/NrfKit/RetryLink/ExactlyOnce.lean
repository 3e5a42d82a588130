import NrfKit.RetryLink.Model

/- The retry link delivers each sequence exactly once, whatever is lost. The client's
   queue always holds the next sequences in order (`ClientOk`), the server is at the
   client's sequence or one past it, and every intentional drop and suppressed ACK has
   cost the client a failed exchange (`LinkOk`). Both hold in every run (`run_ok`). -/
namespace NrfKit.RetryLink
open NrfKit.Firmware

/-! ## The queue -/

/-- The queue holds the consecutive sequences from the first that is not completed. -/
structure Queued (c : Client) : Prop where
  head : c.queueHead < queueCapacity
  count : c.queueCount ≤ queueCapacity
  next : c.nextSequence = c.completed + c.queueCount
  total : c.nextSequence ≤ totalPackets
  accepted : c.accepted = c.nextSequence
  entries : ∀ i, i < c.queueCount → c.queue ((c.queueHead + i) % queueCapacity) = c.completed + i

/-- Slots of the circular queue are different while it holds them. -/
theorem slot_ne {head i j : Nat} (hi : i < queueCapacity) (hj : j < queueCapacity) (h : i ≠ j) :
    (head + i) % queueCapacity ≠ (head + j) % queueCapacity := by
  unfold queueCapacity at *
  omega

theorem Queued.enqueue {c : Client} (h : Queued c) (hroom : c.queueCount < queueCapacity)
    (hleft : c.nextSequence < totalPackets) : Queued (enqueue c) := by
  have hentries : ∀ i, i < c.queueCount + 1 →
      (if (c.queueHead + i) % queueCapacity = (c.queueHead + c.queueCount) % queueCapacity
        then c.nextSequence
          else c.queue ((c.queueHead + i) % queueCapacity)) = c.completed + i := by
    intro i hi
    by_cases he : i = c.queueCount
    · rw [he, if_pos rfl]
      exact h.next
    · rw [if_neg (slot_ne (by omega) hroom he)]
      exact h.entries i (by omega)
  have hnext := h.next
  have hacc := h.accepted
  unfold RetryLink.enqueue
  dsimp only
  split
  all_goals
    refine ⟨h.head, hroom, ?_, hleft, ?_, hentries⟩
    · dsimp only
      omega
    · dsimp only
      omega

/-- Filling the queue touches nothing else. -/
theorem fillLoop_eq : ∀ (n : Nat) (c : Client), ∃ queue next count accepted peak,
    fillLoop n c = { c with
      queue := queue, nextSequence := next, queueCount := count, accepted :=
  accepted, queuePeak := peak }
  | 0, c => ⟨_, _, _, _, _, rfl⟩
  | n + 1, c => by
    unfold fillLoop
    split
    · obtain ⟨queue, next, count, accepted, peak, h⟩ := fillLoop_eq n (enqueue c)
      refine ⟨queue, next, count, accepted, peak, h.trans ?_⟩
      unfold enqueue
      dsimp only
      split <;> rfl
    · exact ⟨_, _, _, _, _, rfl⟩

theorem Queued.fillLoop : ∀ {n : Nat} {c : Client}, Queued c → Queued (fillLoop n c)
  | 0, _, h => h
  | n + 1, c, h => by
    unfold RetryLink.fillLoop
    split
    · rename_i hgo
      exact Queued.fillLoop (h.enqueue hgo.1 hgo.2)
    · exact h

/-- The loop ends with the queue full or every sequence in it. -/
theorem fillLoop_ends : ∀ {n : Nat} {c : Client}, queueCapacity ≤ c.queueCount + n →
    ¬ ((fillLoop n c).queueCount < queueCapacity ∧ (fillLoop n c).nextSequence < totalPackets)
  | 0, c, h => by
    unfold fillLoop
    omega
  | n + 1, c, h => by
    unfold fillLoop
    split
    · have hcount : (enqueue c).queueCount = c.queueCount + 1 := by
        unfold enqueue
        dsimp only
        split <;> rfl
      exact fillLoop_ends (by omega)
    · assumption

/-! ## The client -/

/-- The channel on which a sequence is exchanged, as an offset from 2400 MHz. -/
def channelOf (completed : Nat) : Nat := if completed / 16 % 2 = 0 then 16 else 40

structure ClientOk (c : Client) : Prop where
  queued : Queued c
  full : c.queueCount = queueCapacity ∨ c.nextSequence = totalPackets
  channel : c.currentChannel = channelOf c.completed

theorem ClientOk.completed_le {c : Client} (h : ClientOk c) : c.completed ≤ 64 := by
  have h1 := h.queued.next
  have h2 := h.queued.total
  unfold totalPackets at h2
  omega

/-- There is something to send until everything is completed. -/
theorem ClientOk.queueCount_pos {c : Client} (h : ClientOk c) (hleft : c.completed < 64) :
    c.queueCount ≠ 0 := by
  have h1 := h.queued.next
  rcases h.full with hf | hf
  · rw [hf]
    decide
  · unfold totalPackets at hf
    omega

/-- The request asks for the first sequence that is not completed. -/
theorem ClientOk.requests {c : Client} (h : ClientOk c) (hleft : c.completed < 64) :
    Requests c.completed (requestPacket c) := by
  refine ⟨rfl, ?_⟩
  have hentry := h.queued.entries 0 (Nat.pos_of_ne_zero (h.queueCount_pos hleft))
  rwa [Nat.add_zero, Nat.mod_eq_of_lt h.queued.head, Nat.add_zero] at hentry

/-- Fields the client's invariant does not read may change. -/
theorem ClientOk.congr {c c' : Client} (h : ClientOk c) (hq : c'.queue = c.queue)
    (hh : c'.queueHead = c.queueHead) (hc : c'.queueCount = c.queueCount)
    (hn : c'.nextSequence = c.nextSequence) (ha : c'.accepted = c.accepted)
    (hd : c'.completed = c.completed)
    (hch : c'.currentChannel = c.currentChannel) : ClientOk c' := by
  obtain ⟨⟨h1, h2, h3, h4, h5, h6⟩, h7, h8⟩ := h
  rw [← hh] at h1
  rw [← hc] at h2
  rw [← hn, ← hd, ← hc] at h3
  rw [← hn] at h4
  rw [← ha, ← hn] at h5
  rw [← hc, ← hq, ← hh, ← hd] at h6
  rw [← hc, ← hn] at h7
  rw [← hch, ← hd] at h8
  exact ⟨⟨h1, h2, h3, h4, h5, h6⟩, h7, h8⟩

theorem retry_ok {c : Client} (h : ClientOk c) : ClientOk (retry c).1 := by
  unfold retry
  dsimp only
  split <;> exact h.congr rfl rfl rfl rfl rfl rfl rfl

/-- A failed exchange is counted, and completes nothing. -/
theorem retry_counts (c : Client) : (retry c).1.completed = c.completed ∧
    (retry c).1.retries + (retry c).1.dropped = c.retries + c.dropped + 1 ∧
    (retry c).1.currentAttempt = c.currentAttempt + 1 ∧
    (retry c).1.currentChannel = c.currentChannel := by
  unfold retry
  dsimp only
  split
  · exact ⟨rfl, by dsimp only; omega, rfl, rfl⟩
  · exact ⟨rfl, by dsimp only; omega, rfl, rfl⟩

theorem Queued.acknowledge {c : Client} (h : Queued c) (hc : c.queueCount ≠ 0) :
    Queued (acknowledge c) := by
  have hcount := h.count
  have hnext := h.next
  refine ⟨Nat.mod_lt _ (by decide), ?_, ?_, h.total, h.accepted, fun i hi => ?_⟩
  · exact Nat.le_trans (Nat.sub_le _ _) hcount
  · show c.nextSequence = c.completed + 1 + (c.queueCount - 1)
    omega
  · have hi : i < c.queueCount - 1 := hi
    have hentry := h.entries (i + 1) (by omega)
    have hslot : ((c.queueHead + 1) % queueCapacity + i) % queueCapacity =
        (c.queueHead + (i + 1)) % queueCapacity := by
      unfold queueCapacity
      omega
    show c.queue (((c.queueHead + 1) % queueCapacity + i) % queueCapacity) = c.completed + 1 + i
    rw [hslot, hentry]
    omega

theorem Queued.switchChannel {c : Client} (h : Queued c) : Queued (switchChannel c) := by
  unfold RetryLink.switchChannel
  split
  · exact ⟨h.head, h.count, h.next, h.total, h.accepted, h.entries⟩
  · exact h

/-- The client's channel follows its count. -/
theorem switchChannel_channel {c : Client} (h : c.currentChannel = channelOf (c.completed - 1))
    (hpos : c.completed ≠ 0) : (switchChannel c).currentChannel = channelOf c.completed := by
  unfold switchChannel channelOf
  unfold channelOf at h
  split
  · dsimp only
    rw [h]
    by_cases heven : (c.completed - 1) / 16 % 2 = 0
    · rw [if_pos heven, if_pos rfl, if_neg (by omega)]
    · rw [if_neg heven, if_neg (by decide), if_pos (by omega)]
  · rw [h]
    have hsame : (c.completed - 1) / 16 = c.completed / 16 := by omega
    rw [hsame]

/-- What `advance` does besides filling the queue. -/
theorem advance_counts (c : Client) : (advance c).1.completed = c.completed + 1 ∧
    (advance c).1.retries = c.retries ∧ (advance c).1.dropped = c.dropped ∧
    (advance c).1.currentAttempt = 0 ∧
    (advance c).1.transferComplete =
      (decide (c.completed + 1 = totalPackets) || c.transferComplete) := by
  obtain ⟨_, _, _, _, _, hfill⟩ := fillLoop_eq queueCapacity (switchChannel (acknowledge c))
  have hswitch : (switchChannel (acknowledge c)).completed = c.completed + 1 ∧
      (switchChannel (acknowledge c)).retries = c.retries ∧
      (switchChannel (acknowledge c)).dropped = c.dropped ∧
      (switchChannel (acknowledge c)).currentAttempt = 0 ∧
      (switchChannel (acknowledge c)).transferComplete = c.transferComplete := by
    unfold switchChannel
    split <;> exact ⟨rfl, rfl, rfl, rfl, rfl⟩
  obtain ⟨h1, h2, h3, h4, h5⟩ := hswitch
  unfold advance fillQueue
  rw [hfill]
  dsimp only
  rw [h1]
  by_cases hend : c.completed + 1 = totalPackets
  · rw [if_pos hend, decide_eq_true hend]
    exact ⟨rfl, h2, h3, h4, rfl⟩
  · rw [if_neg hend, decide_eq_false hend]
    exact ⟨rfl, h2, h3, h4, h5⟩

theorem advance_ok {c : Client} (h : ClientOk c)
    (hleft : c.completed < 64) : ClientOk (advance c).1 := by
  have hqueued :=
    (h.queued.acknowledge (h.queueCount_pos hleft)).switchChannel.fillLoop (n := queueCapacity)
  have hchannel := switchChannel_channel (c := acknowledge c) h.channel (Nat.succ_ne_zero _)
  obtain ⟨_, _, _, _, _, hfill⟩ := fillLoop_eq queueCapacity (switchChannel (acknowledge c))
  have hfilled : ClientOk (fillQueue (switchChannel (acknowledge c))) := by
    refine ⟨hqueued, ?_, ?_⟩
    · have hends :=
        fillLoop_ends (n := queueCapacity) (c := switchChannel (acknowledge c)) (by omega)
      have hcount := hqueued.count
      have htotal := hqueued.total
      unfold fillQueue
      omega
    · unfold fillQueue
      rw [hfill]
      exact hchannel.trans (congrArg channelOf (by unfold switchChannel; split <;> rfl))
  unfold advance
  dsimp only
  split
  · exact hfilled.congr rfl rfl rfl rfl rfl rfl rfl
  · exact hfilled

theorem initial_ok : ClientOk Link.initial.client := by
  have hempty : Queued {} := ⟨by decide, by decide, rfl, by decide, rfl, nofun⟩
  refine ⟨hempty.fillLoop, Or.inl rfl, rfl⟩

/-! ## The server -/

/-- The server of a client that has completed `n` sequences. -/
structure ServerOk (n : Nat) (s : Server) : Prop where
  step : s.completed = n ∨ s.completed = n + 1 ∧ n < 64
  frequency : s.frequency = 2400 + channelOf s.completed
  committed : s.committed = List.range s.completed
  invalid : s.invalid = 0
  suppressed : s.suppressedAcks ≤ 1
  replayed : s.suppressedAcks ≤ s.duplicateAcks ∨ n = 1 ∧ s.completed = 2

theorem ServerOk.attempt {n a : Nat} {s : Server} (h : ServerOk n s) :
    ServerOk n { s with attempts := a } := by
  obtain ⟨h1, h2, h3, h4, h5, h6⟩ := h
  exact ⟨h1, h2, h3, h4, h5, h6⟩

/-- What a round of the server does for a request of sequence `n`. -/
structure Served (n : Nat) (s s' : Server) (reply : Option Packet) : Prop where
  ok : ServerOk n s'
  failures : s'.intentionalDrops + s'.suppressedAcks ≤
    s.intentionalDrops + s.suppressedAcks + if reply = none then 1 else 0
  acked : reply ≠ none → reply = some [2, n, 0xAC] ∧ s'.completed = n + 1 ∧
    s'.suppressedAcks ≤ s'.duplicateAcks

/-- Committing a sequence, and following the channel. -/
theorem commit_eq {n : Nat} {s : Server} (hf : s.frequency = 2400 + channelOf s.completed)
    (hn : s.completed = n) : ∃ switches, commit n s = { s with
      completed := n + 1
      committed := s.committed ++ [n]
      frequency := 2400 + channelOf (n + 1)
      channelSwitches := switches } := by
  unfold commit
  dsimp only
  rw [hn]
  by_cases h16 : (n + 1) % 16 = 0
  · rw [if_pos h16]
    refine ⟨s.channelSwitches + 1, ?_⟩
    unfold channelOf
    by_cases heven : (n + 1) / 16 % 2 = 0
    · rw [if_pos heven, if_neg (not_not_intro heven)]
    · rw [if_neg heven, if_pos heven]
  · rw [if_neg h16]
    refine ⟨s.channelSwitches, ?_⟩
    have hsame : channelOf (n + 1) = channelOf n := by
      unfold channelOf
      rw [show (n + 1) / 16 = n / 16 by omega]
    rw [hsame, ← hn, ← hf]

theorem serve_served {n : Nat} {s : Server} {packet : Packet} (h : ServerOk n s) (hn : n < 64)
    (hp : Requests n packet) : Served n s (serve packet s).1 (serve packet s).2 := by
  obtain ⟨hstep, hfreq, hcommitted, hinvalid, hsup, hreplayed⟩ := h
  by_cases hnew : s.completed = n
  · by_cases hdrop : n % 8 = 0 ∧ s.droppedOnce n = false
    · rw [serve_dropped hp hn hnew hdrop.1 hdrop.2]
      refine ⟨⟨hstep, hfreq, hcommitted, hinvalid, hsup, hreplayed⟩, ?_, fun h => absurd rfl h⟩
      rw [if_pos rfl]
      dsimp only
      omega
    · have honce : n % 8 = 0 → s.droppedOnce n = true := fun h8 => by
        cases hd : s.droppedOnce n with
        | true => rfl
        | false => exact absurd ⟨h8, hd⟩ hdrop
      have hrange : s.committed ++ [n] = List.range (n + 1) := by
        rw [hcommitted, hnew, List.range_succ]
      rw [serve_commit hp hn hnew honce]
      split
      · rename_i hfirst
        obtain ⟨switches, hc⟩ := commit_eq (n := n)
          (s := { s with suppressedAcks := s.suppressedAcks + 1 }) hfreq hnew
        rw [hc]
        refine ⟨⟨Or.inr ⟨rfl, hn⟩, rfl, hrange, hinvalid, ?_, Or.inr ⟨hfirst.1, ?_⟩⟩, ?_,
          fun h => absurd rfl h⟩
        · show s.suppressedAcks + 1 ≤ 1
          omega
        · show n + 1 = 2
          omega
        · rw [if_pos rfl]
          exact Nat.le_refl _
      · obtain ⟨switches, hc⟩ := commit_eq (n := n) (s := s) hfreq hnew
        rw [hc]
        have hle : s.suppressedAcks ≤ s.duplicateAcks := by omega
        exact ⟨⟨Or.inr ⟨rfl, hn⟩, rfl, hrange, hinvalid, hsup, Or.inl hle⟩, Nat.le_refl _,
          fun _ => ⟨rfl, rfl, hle⟩⟩
  · have hdup : s.completed = n + 1 := by omega
    rw [serve_duplicate hp hn hdup]
    have hle : s.suppressedAcks ≤ s.duplicateAcks + 1 := by omega
    exact ⟨⟨Or.inr ⟨hdup, hn⟩, hfreq, hcommitted, hinvalid, hsup, Or.inl hle⟩, Nat.le_refl _,
      fun _ => ⟨rfl, hdup, hle⟩⟩

/-- A round that hears nothing, or a request of sequence `n`. -/
theorem serverRound_served {n : Nat} {s : Server} {received : Option Packet} (h : ServerOk n s)
    (hn : n < 64) (hp : ∀ packet, received = some packet → Requests n packet) :
    Served n s (serverRound received s).1 (serverRound received s).2 := by
  have hquiet : ∀ s' : Server, s' = s ∨ s' = { s with attempts := s.attempts + 1 } →
      Served n s s' none := by
    rintro s' (rfl | rfl)
    · exact ⟨h, Nat.le_succ _, fun h => absurd rfl h⟩
    · exact ⟨h.attempt, Nat.le_succ _, fun h => absurd rfl h⟩
  cases hr : s.running with
  | false =>
    rw [serverRound_stopped hr]
    exact hquiet s (Or.inl rfl)
  | true =>
    cases received with
    | none =>
      rw [serverRound_quiet hr]
      exact hquiet _ (Or.inr rfl)
    | some packet =>
      rw [serverRound_heard hr]
      have hserved := serve_served (h.attempt (a := s.attempts + 1)) hn (hp packet rfl)
      exact ⟨hserved.ok, hserved.failures, hserved.acked⟩

/-! ## The link -/

structure LinkOk (l : Link) : Prop where
  client : ClientOk l.client
  server : ServerOk l.client.completed l.server
  failures : l.server.intentionalDrops + l.server.suppressedAcks ≤ l.client.retries +
    l.client.dropped
  busy : l.client.transferComplete = false → l.client.completed < 64

/-- The client's part of a grant in which the request is sent. -/
theorem start_eq {c : Client} (received : Option Packet) (h : c.queueCount ≠ 0) :
    timeslotHandler .start ⟨true, true, received⟩ c =
      if received.any (isAck (c.queue c.queueHead)) then advance { c with grants := c.grants + 1 }
      else retry { c with grants := c.grants + 1 } := by
  unfold timeslotHandler
  dsimp only
  rw [if_neg (by simp [h]), if_neg (by simp)]
  by_cases ha : received.any (isAck (c.queue c.queueHead)) = true
  · rw [ha]
    rfl
  · rw [if_pos (by simp [ha]), if_neg ha]

/-- A failed exchange. -/
theorem LinkOk.fail {l : Link} {s : Server} {reply : Option Packet} (h : LinkOk l)
    (hs : Served l.client.completed l.server s reply) (hleft : l.client.completed < 64) :
    LinkOk ⟨(retry { l.client with grants := l.client.grants + 1 }).1, s⟩ := by
  obtain ⟨h1, h2, _, _⟩ := retry_counts { l.client with grants := l.client.grants + 1 }
  have hfail := hs.failures
  have hsofar := h.failures
  refine ⟨retry_ok (h.client.congr rfl rfl rfl rfl rfl rfl rfl), ?_, ?_, fun _ => ?_⟩
  · rw [h1]
    exact hs.ok
  · rw [h2]
    dsimp only
    split at hfail <;> omega
  · rw [h1]
    exact hleft

/-- An acknowledged exchange. -/
theorem LinkOk.succeed {l : Link} {s : Server} {reply : Option Packet} (h : LinkOk l)
    (hs : Served l.client.completed l.server s reply) (hleft : l.client.completed < 64)
    (hreply : reply ≠ none) :
    LinkOk ⟨(advance { l.client with grants := l.client.grants + 1 }).1, s⟩ := by
  obtain ⟨_, hcompleted, hle⟩ := hs.acked hreply
  obtain ⟨h1, h2, h3, _, h5⟩ := advance_counts { l.client with grants := l.client.grants + 1 }
  have hfail := hs.failures
  rw [if_neg hreply] at hfail
  have hsofar := h.failures
  have hok := hs.ok
  refine ⟨advance_ok (h.client.congr rfl rfl rfl rfl rfl rfl rfl) hleft, ?_, ?_, fun hb => ?_⟩
  · rw [h1]
    exact ⟨Or.inl hcompleted, hok.frequency, hok.committed, hok.invalid, hok.suppressed, Or.inl hle⟩
  · rw [h2, h3]
    dsimp only
    omega
  · rw [h5] at hb
    rw [h1]
    have hne : l.client.completed + 1 ≠ 64 := by
      intro he
      rw [decide_eq_true (by exact he)] at hb
      cases hb
    dsimp only
    omega

/-- The step lemma for a grant. -/
theorem grant_ok {l : Link} (loss : Loss) (h : LinkOk l) : LinkOk (l.grant loss) := by
  unfold Link.grant
  split
  · exact h
  · rename_i hbusy
    have hleft := h.busy (by simpa using hbusy)
    have hcount := h.client.queueCount_pos hleft
    have hhead : l.client.queue l.client.queueHead = l.client.completed :=
      (h.client.requests hleft).2
    have hrequests : ∀ packet, (if l.client.queueCount ≠ 0 ∧ l.tuned = true ∧ loss ≠ .request then
        some (requestPacket l.client) else none) = some packet →
          Requests l.client.completed packet := by
      intro packet hp
      split at hp
      · rw [← Option.some.inj hp]
        exact h.client.requests hleft
      · cases hp
    have hserved := serverRound_served h.server hleft hrequests
    dsimp only
    generalize serverRound _ l.server = served at hserved ⊢
    generalize hreceived : (if loss = .ack then none else served.2) = received
    rw [start_eq _ hcount, hhead]
    by_cases hack : received.any (isAck l.client.completed) = true
    · rw [if_pos hack]
      refine h.succeed hserved hleft fun hnone => ?_
      rw [hnone, ite_self] at hreceived
      rw [← hreceived] at hack
      cases hack
    · rw [if_neg hack]
      exact h.fail hserved hleft

/-- A receive of the server that times out. -/
theorem quiet_ok {l : Link} (h : LinkOk l) : LinkOk (l.slot .quiet) := by
  show LinkOk { l with server := (serverRound none l.server).1 }
  cases hr : l.server.running with
  | false =>
    rw [serverRound_stopped hr]
    exact h
  | true =>
    rw [serverRound_quiet hr]
    exact ⟨h.client, h.server.attempt, h.failures, h.busy⟩

/-- The run lemma. -/
theorem run_ok : ∀ {slots : List Slot} {l : Link}, LinkOk l → LinkOk (l.run slots)
  | [], _, h => h
  | slot :: slots, l, h => by
    show LinkOk ((l.slot slot).run slots)
    cases slot with
    | quiet => exact run_ok (quiet_ok h)
    | grant loss => exact run_ok (grant_ok loss h)

theorem link_initial_ok : LinkOk Link.initial := by
  refine ⟨initial_ok, ⟨Or.inl rfl, rfl, rfl, rfl, Nat.zero_le 1, Or.inl (Nat.le_refl 0)⟩,
    ?_, fun _ => ?_⟩
  · exact Nat.le_refl 0
  · show 0 < 64
    omega

/-- **Exactly once.** After any schedule of losses: the client has accepted what it has
completed and what its queue holds, which are the next sequences in order; the server
has committed the sequences up to the client's, or one more, each once and in order,
and counted no packet as invalid; and if the transfer is complete and nothing was
dropped, every intentional drop and suppressed ACK was retried and every suppressed
ACK replayed. -/
theorem exactly_once (slots : List Slot) :
    let c := (Link.initial.run slots).client
    let s := (Link.initial.run slots).server
    c.accepted = c.completed + c.queueCount ∧ c.queueCount ≤ queueCapacity ∧
    (∀ i, i < c.queueCount → c.queue ((c.queueHead + i) % queueCapacity) = c.completed + i) ∧
    (s.completed = c.completed ∨ s.completed = c.completed + 1) ∧
    s.committed = List.range s.completed ∧ s.invalid = 0 ∧
    (c.completed = 64 → c.dropped = 0 →
      s.intentionalDrops + s.suppressedAcks ≤ c.retries ∧ s.suppressedAcks ≤ s.duplicateAcks) := by
  have h : LinkOk (Link.initial.run slots) := run_ok link_initial_ok
  generalize Link.initial.run slots = l at h
  obtain ⟨hc, hs, hfail, _⟩ := h
  have hstep := hs.step
  have hreplayed := hs.replayed
  refine ⟨hc.queued.accepted.trans hc.queued.next, hc.queued.count, hc.queued.entries, ?_,
    hs.committed, hs.invalid, fun hdone hdropped => ⟨?_, ?_⟩⟩
  · omega
  · omega
  · omega

end NrfKit.RetryLink
