import NrfKit.RetryLink.ExactlyOnce

/- When the retry link recovers. A loss schedule says what the air loses of each attempt
   at each sequence; the schedules considered let every sequence succeed within its
   retries, the server's own drops and the suppressed ACK included (`Bounded`). Then the
   two ends stay together and all 64 sequences are completed, unless the ACK of the
   first request the server hears of sequence 15, 31, 47 or 63 is lost: the server has
   then left for the next channel, or stopped, and never replays that ACK
   (`recovers_iff`). -/
namespace NrfKit.RetryLink
open NrfKit.Firmware

/-! ## Schedules -/

/-- What the air loses, by sequence and attempt. -/
abbrev Losses := Nat → Nat → Loss

/-- The next grant under a schedule. -/
def Link.exchange (losses : Losses) (l : Link) : Link :=
  l.grant (losses (l.client.queue l.client.queueHead) l.client.currentAttempt)

/-- The link after `n` grants. -/
def after (losses : Losses) : Nat → Link
  | 0 => Link.initial
  | n + 1 => (after losses n).exchange losses

/-- An attempt before the `k`th at sequence `q` has reached the server. -/
def Delivered (losses : Losses) (q k : Nat) : Prop := ∃ j, j < k ∧ losses q j ≠ .request

/-- The attempt does not count as failed: the air loses nothing of it, and it is neither
dropped by the server (the first request of every eighth sequence that reaches it) nor
left without the suppressed ACK (the first of sequence 1). -/
def Succeeds (losses : Losses) (q k : Nat) : Prop :=
  losses q k = .nothing ∧ (q % 8 = 0 ∨ q = 1 → Delivered losses q k)

/-- No sequence fails more often than it may be retried. -/
def Bounded (losses : Losses) : Prop := ∀ q, q < 64 → ∃ k, k ≤ maxRetries ∧ Succeeds losses q k

/-- Whenever the client transmits, both ends are on one channel and the server still
serves, and the client ends with everything accepted and completed and nothing dropped. -/
def Recovers (losses : Losses) : Prop :=
  (∀ n, (after losses n).client.transferComplete = false →
    (after losses n).tuned = true ∧ (after losses n).server.running = true) ∧
  ∃ n, (after losses n).client.transferComplete = true ∧ (after losses n).client.accepted = 64 ∧
    (after losses n).client.completed = 64 ∧ (after losses n).client.dropped = 0

/-- The ACK of the first request of the sequence that reaches the server is not lost. -/
def FirstAckArrives (losses : Losses) (q : Nat) : Prop :=
  ∀ k, ¬ Delivered losses q k → losses q k ≠ .ack

section
variable {losses : Losses} {q k : Nat}

theorem delivered_succ :
    Delivered losses q (k + 1) ↔ Delivered losses q k ∨ losses q k ≠ .request := by
  constructor
  · rintro ⟨j, hj, hl⟩
    by_cases he : j = k
    · exact Or.inr (he ▸ hl)
    · exact Or.inl ⟨j, by omega, hl⟩
  · rintro (⟨j, hj, hl⟩ | hl)
    · exact ⟨j, by omega, hl⟩
    · exact ⟨k, Nat.lt_succ_self k, hl⟩

theorem not_delivered_zero : ¬ Delivered losses q 0 := by
  rintro ⟨j, hj, _⟩
  exact absurd hj (Nat.not_lt_zero j)

end

/-! ## Together -/

/-- The server while the client is at attempt `k` of sequence `q`. -/
structure ServerSynced (losses : Losses) (q k : Nat) (s : Server) : Prop where
  heard : s.completed = q + 1 → (q + 1) % 16 ≠ 0 ∧ Delivered losses q k
  unheard : s.completed = q → Delivered losses q k → q % 8 = 0
  flags : ∀ i, q ≤ i → (s.droppedOnce i = true ↔ i = q ∧ q % 8 = 0 ∧ Delivered losses q k)
  suppressed : s.suppressedAcks = if 2 ≤ s.completed then 1 else 0
  attempts : s.attempts ≤ 4 * q + k

/-- Client and server together at an attempt of a sequence, all earlier ones completed. -/
structure Synced (losses : Losses) (l : Link) : Prop where
  ok : LinkOk l
  complete : l.client.transferComplete = decide (l.client.completed = 64)
  dropped : l.client.dropped = 0
  failed : ∀ j, j < l.client.currentAttempt → ¬ Succeeds losses l.client.completed j
  server : ServerSynced losses l.client.completed l.client.currentAttempt l.server

section
variable {losses : Losses} {q k : Nat} {s : Server} {l : Link}

/-- The request is lost. -/
theorem ServerSynced.lost (h : ServerSynced losses q k s) (hl : losses q k = .request) :
    ServerSynced losses q (k + 1) { s with attempts := s.attempts + 1 } := by
  have hd : Delivered losses q (k + 1) ↔ Delivered losses q k := by
    rw [delivered_succ, hl]
    simp
  obtain ⟨h1, h2, h3, h4, h5⟩ := h
  refine ⟨?_, ?_, ?_, h4, by dsimp only; omega⟩
  · rw [hd]
    exact h1
  · rw [hd]
    exact h2
  · rw [hd]
    exact h3

/-- The first request of the sequence is dropped by the server. -/
theorem ServerSynced.drop (h : ServerSynced losses q k s) (hl : losses q k ≠ .request)
    (h8 : q % 8 = 0) (hs : s.completed = q) : ServerSynced losses q (k + 1) { s with
      attempts := s.attempts + 1
      droppedOnce := fun i => if i = q then true else s.droppedOnce i
      intentionalDrops := s.intentionalDrops + 1 } := by
  have hd : Delivered losses q (k + 1) := delivered_succ.mpr (Or.inr hl)
  obtain ⟨h1, h2, h3, h4, h5⟩ := h
  refine ⟨fun he => ?_, fun _ _ => h8, fun i hi => ?_, h4, by dsimp only; omega⟩
  · exact absurd (hs.symm.trans he) (by omega)
  · dsimp only
    by_cases he : i = q
    · rw [if_pos he]
      exact iff_of_true rfl ⟨he, h8, hd⟩
    · rw [if_neg he, h3 i hi]
      exact iff_of_false (fun hf => he hf.1) (fun hf => he hf.1)

/-- The server has heard the sequence, but the client not its ACK. -/
theorem ServerSynced.unacked {s' : Server} (h : ServerSynced losses q k s)
    (hl : losses q k ≠ .request) (h16 : (q + 1) % 16 ≠ 0) (h8 : q % 8 = 0 → Delivered losses q k)
    (hs : s'.completed = q + 1) (hf : s'.droppedOnce = s.droppedOnce)
    (hsup : s'.suppressedAcks = if 2 ≤ q + 1 then 1 else 0) (ha : s'.attempts = s.attempts + 1) :
    ServerSynced losses q (k + 1) s' := by
  have hd : Delivered losses q (k + 1) := delivered_succ.mpr (Or.inr hl)
  refine ⟨fun _ => ⟨h16, hd⟩, fun he => ?_, fun i hi => ?_, ?_, ?_⟩
  · omega
  · rw [hf, h.flags i hi]
    constructor
    · rintro ⟨he, hm, _⟩
      exact ⟨he, hm, hd⟩
    · rintro ⟨he, hm, _⟩
      exact ⟨he, hm, h8 hm⟩
  · rw [hs]
    exact hsup
  · rw [ha]
    have := h.attempts
    omega

/-- The client has the ACK: both are at the next sequence. -/
theorem ServerSynced.next {s' : Server} (h : ServerSynced losses q k s) (hk : k ≤ 3)
    (hs : s'.completed = q + 1) (hf : s'.droppedOnce = s.droppedOnce)
    (hsup : s'.suppressedAcks = if 2 ≤ q + 1 then 1 else 0) (ha : s'.attempts = s.attempts + 1) :
    ServerSynced losses (q + 1) 0 s' := by
  refine ⟨fun he => ?_, fun _ hd => absurd hd not_delivered_zero, fun i hi => ?_, ?_, ?_⟩
  · omega
  · rw [hf, h.flags i (by omega)]
    exact iff_of_false (fun hf => by omega) (fun hf => not_delivered_zero hf.2.2)
  · rw [hs]
    exact hsup
  · rw [ha]
    have := h.attempts
    omega

/-- The client still has attempts left. -/
theorem Synced.attempt_le (hb : Bounded losses) (h : Synced losses l)
    (hleft : l.client.completed < 64) :
    l.client.currentAttempt ≤ 3 ∧
      (¬ Succeeds losses l.client.completed l.client.currentAttempt →
        l.client.currentAttempt < 3) := by
  obtain ⟨k, hk, hs⟩ := hb _ hleft
  have hk : k ≤ 3 := hk
  have hle : l.client.currentAttempt ≤ k := by
    by_cases hlt : k < l.client.currentAttempt
    · exact absurd hs (h.failed k hlt)
    · omega
  refine ⟨by omega, fun hns => ?_⟩
  have hne : l.client.currentAttempt ≠ k := fun he => hns (he ▸ hs)
  omega

/-- Both ends are on one channel, and the server serves. -/
theorem Synced.together (hb : Bounded losses) (h : Synced losses l)
    (hleft : l.client.completed < 64) :
    l.tuned = true ∧ l.server.running = true := by
  have hk := (h.attempt_le hb hleft).1
  have hattempts := h.server.attempts
  have hstep := h.ok.server.step
  have hheard := h.server.heard
  have hchannel : channelOf l.server.completed = channelOf l.client.completed := by
    unfold channelOf
    have hsame : l.server.completed / 16 = l.client.completed / 16 := by omega
    rw [hsame]
  constructor
  · unfold Link.tuned
    rw [h.ok.client.channel, h.ok.server.frequency, hchannel]
    exact beq_self_eq_true _
  · unfold Server.running
    simp only [Bool.and_eq_true, decide_eq_true_eq]
    omega

theorem retry_eq {c : Client} (h : c.currentAttempt < 3) : (retry c).1 = { c with
    currentAttempt := c.currentAttempt + 1
    retries := c.retries + 1 } := by
  unfold retry
  dsimp only
  rw [if_neg (by unfold maxRetries; omega)]

theorem Synced.fail {s' : Server} (hb : Bounded losses) (h : Synced losses l)
    (hleft : l.client.completed < 64)
    (hns : ¬ Succeeds losses l.client.completed l.client.currentAttempt)
    (hok : LinkOk ⟨(retry { l.client with grants := l.client.grants + 1 }).1, s'⟩)
    (hs : ServerSynced losses l.client.completed (l.client.currentAttempt + 1) s') :
    Synced losses ⟨(retry { l.client with grants := l.client.grants + 1 }).1, s'⟩ := by
  have hretry := retry_eq (c := { l.client with grants := l.client.grants + 1 })
    ((h.attempt_le hb hleft).2 hns)
  rw [hretry] at hok ⊢
  refine ⟨hok, h.complete, h.dropped, fun j hj => ?_, hs⟩
  by_cases he : j = l.client.currentAttempt
  · rw [he]
    exact hns
  · have hj : j < l.client.currentAttempt + 1 := hj
    exact h.failed j (by omega)

theorem Synced.pass {s' : Server} (h : Synced losses l) (hleft : l.client.completed < 64)
    (hok : LinkOk ⟨(advance { l.client with grants := l.client.grants + 1 }).1, s'⟩)
    (hs : ServerSynced losses (l.client.completed + 1) 0 s') :
    Synced losses ⟨(advance { l.client with grants := l.client.grants + 1 }).1, s'⟩ := by
  obtain ⟨h1, _, h3, h4, h5⟩ := advance_counts { l.client with grants := l.client.grants + 1 }
  have hbusy : l.client.transferComplete = false := by
    rw [h.complete]
    exact decide_eq_false (by omega)
  refine ⟨hok, ?_, ?_, fun j hj => ?_, ?_⟩
  · rw [h5, h1]
    show (_ || l.client.transferComplete) = _
    rw [hbusy, Bool.or_false]
    rfl
  · rw [h3]
    exact h.dropped
  · rw [h4] at hj
    exact absurd hj (Nat.not_lt_zero j)
  · rw [h1, h4]
    exact hs

/-! ## One grant -/

/-- A grant of a client that has something to send, to a server that hears it. -/
theorem grant_eq {loss : Loss} (hbusy : l.client.transferComplete = false)
    (hcount : l.client.queueCount ≠ 0) (htuned : l.tuned = true) (hrun : l.server.running = true) :
    l.grant loss = if loss = .request then
        ⟨(retry { l.client with grants := l.client.grants + 1 }).1,
          { l.server with attempts := l.server.attempts + 1 }⟩
      else
        let served :=
          serve (requestPacket l.client) { l.server with attempts := l.server.attempts + 1 }
        let received := if loss = .ack then none else served.2
        ⟨(if received.any (isAck (l.client.queue l.client.queueHead)) then
            advance { l.client with grants := l.client.grants + 1 }
          else retry { l.client with grants := l.client.grants + 1 }).1, served.1⟩ := by
  unfold Link.grant
  rw [if_neg (by simp [hbusy])]
  dsimp only
  by_cases hl : loss = .request
  · have hunheard : ¬ (l.client.queueCount ≠ 0 ∧ l.tuned = true ∧ loss ≠ .request) :=
      fun h => h.2.2 hl
    rw [if_pos hl, if_neg hunheard, serverRound_quiet hrun, start_eq _ hcount, ite_self,
      Option.any_none, if_neg Bool.false_ne_true]
  · have hheard : l.client.queueCount ≠ 0 ∧ l.tuned = true ∧ loss ≠ .request := ⟨hcount, htuned, hl⟩
    rw [if_neg hl, if_pos hheard, serverRound_heard hrun, start_eq _ hcount]

/-- Where the next grant leads. -/
def Moves (losses : Losses) (l l' : Link) : Prop :=
  (Succeeds losses l.client.completed l.client.currentAttempt ∧
    l'.client.completed = l.client.completed + 1 ∧ l'.client.currentAttempt = 0) ∨
  (¬ Succeeds losses l.client.completed l.client.currentAttempt ∧
    l'.client.completed = l.client.completed ∧
    l'.client.currentAttempt = l.client.currentAttempt + 1)

/-- What the next grant is, between ends that are together. -/
theorem Synced.exchange_eq (hb : Bounded losses) (h : Synced losses l)
    (hleft : l.client.completed < 64) :
    l.exchange losses = l.grant (losses l.client.completed l.client.currentAttempt) ∧
    LinkOk (l.grant (losses l.client.completed l.client.currentAttempt)) ∧
    l.grant (losses l.client.completed l.client.currentAttempt) =
      if losses l.client.completed l.client.currentAttempt = .request then
        ⟨(retry { l.client with grants := l.client.grants + 1 }).1,
          { l.server with attempts := l.server.attempts + 1 }⟩
      else
        let served :=
          serve (requestPacket l.client) { l.server with attempts := l.server.attempts + 1 }
        let received := if losses l.client.completed l.client.currentAttempt = .ack then
          none else served.2
        ⟨(if received.any (isAck l.client.completed) then
            advance { l.client with grants := l.client.grants + 1 }
          else retry { l.client with grants := l.client.grants + 1 }).1, served.1⟩ := by
  have hbusy : l.client.transferComplete = false := by
    rw [h.complete]
    exact decide_eq_false (by omega)
  have hhead : l.client.queue l.client.queueHead = l.client.completed :=
    (h.ok.client.requests hleft).2
  obtain ⟨htuned, hrun⟩ := h.together hb hleft
  refine ⟨?_, grant_ok _ h.ok, ?_⟩
  · unfold Link.exchange
    rw [hhead]
  · rw [grant_eq hbusy (h.ok.client.queueCount_pos hleft) htuned hrun, hhead]

theorem isAck_ack (q : Nat) : isAck q [2, q, 0xAC] = true := by
  simp [isAck]

section
variable {s' : Server}

/-- A failed attempt, whatever the server did. -/
theorem Synced.exchange_fails (hb : Bounded losses) (h : Synced losses l)
    (hleft : l.client.completed < 64)
    (hns : ¬ Succeeds losses l.client.completed l.client.currentAttempt)
    (he : l.grant (losses l.client.completed l.client.currentAttempt) =
      ⟨(retry { l.client with grants := l.client.grants + 1 }).1, s'⟩)
    (hs : ServerSynced losses l.client.completed (l.client.currentAttempt + 1) s') :
    Synced losses (l.exchange losses) ∧ Moves losses l (l.exchange losses) := by
  obtain ⟨heq, hok, _⟩ := h.exchange_eq hb hleft
  obtain ⟨h1, _, h3, _⟩ := retry_counts { l.client with grants := l.client.grants + 1 }
  rw [heq, he]
  rw [he] at hok
  exact ⟨h.fail hb hleft hns hok hs, Or.inr ⟨hns, h1, h3⟩⟩

/-- A successful attempt. -/
theorem Synced.exchange_passes (hb : Bounded losses) (h : Synced losses l)
    (hleft : l.client.completed < 64)
    (hsu : Succeeds losses l.client.completed l.client.currentAttempt)
    (he : l.grant (losses l.client.completed l.client.currentAttempt) =
      ⟨(advance { l.client with grants := l.client.grants + 1 }).1, s'⟩)
    (hs : ServerSynced losses (l.client.completed + 1) 0 s') :
    Synced losses (l.exchange losses) ∧ Moves losses l (l.exchange losses) := by
  obtain ⟨heq, hok, _⟩ := h.exchange_eq hb hleft
  obtain ⟨h1, _, _, h4, _⟩ := advance_counts { l.client with grants := l.client.grants + 1 }
  rw [heq, he]
  rw [he] at hok
  exact ⟨h.pass hleft hok hs, Or.inl ⟨hsu, h1, h4⟩⟩

/-- The server sends no ACK. -/
theorem Synced.exchange_silent (hb : Bounded losses) (h : Synced losses l)
    (hleft : l.client.completed < 64)
    (hl : losses l.client.completed l.client.currentAttempt ≠ .request)
    (hserve : serve (requestPacket l.client) { l.server with attempts := l.server.attempts + 1 } =
      (s', none))
    (hns : ¬ Succeeds losses l.client.completed l.client.currentAttempt)
    (hs : ServerSynced losses l.client.completed (l.client.currentAttempt + 1) s') :
    Synced losses (l.exchange losses) ∧ Moves losses l (l.exchange losses) := by
  obtain ⟨_, _, hgrant⟩ := h.exchange_eq hb hleft
  refine h.exchange_fails hb hleft hns ?_ hs
  rw [hgrant, if_neg hl, hserve]
  dsimp only
  rw [ite_self, Option.any_none, if_neg Bool.false_ne_true]

/-- The server sends the ACK: only its loss decides. -/
theorem Synced.exchange_answered (hb : Bounded losses) (h : Synced losses l)
    (hleft : l.client.completed < 64)
    (hswitch : (l.client.completed + 1) % 16 = 0 →
      losses l.client.completed l.client.currentAttempt ≠ .ack)
    (hl : losses l.client.completed l.client.currentAttempt ≠ .request)
    (hserve : serve (requestPacket l.client) { l.server with attempts := l.server.attempts + 1 } =
      (s', some [2, l.client.completed, 0xAC]))
    (hspecial : l.client.completed % 8 = 0 ∨ l.client.completed = 1 →
      Delivered losses l.client.completed l.client.currentAttempt)
    (hunacked : (l.client.completed + 1) % 16 ≠ 0 →
      ServerSynced losses l.client.completed (l.client.currentAttempt + 1) s')
    (hnext : ServerSynced losses (l.client.completed + 1) 0 s') :
    Synced losses (l.exchange losses) ∧ Moves losses l (l.exchange losses) := by
  obtain ⟨_, _, hgrant⟩ := h.exchange_eq hb hleft
  rw [if_neg hl, hserve] at hgrant
  dsimp only at hgrant
  by_cases hack : losses l.client.completed l.client.currentAttempt = .ack
  · refine h.exchange_fails hb hleft (fun hsu => ?_) ?_ (hunacked fun h16 => hswitch h16 hack)
    · rw [hsu.1] at hack
      cases hack
    · rw [hgrant, if_pos hack, Option.any_none, if_neg Bool.false_ne_true]
  · have hnothing : losses l.client.completed l.client.currentAttempt = .nothing := by
      cases hc : losses l.client.completed l.client.currentAttempt with
      | nothing => rfl
      | request => exact absurd hc hl
      | ack => exact absurd hc hack
    refine h.exchange_passes hb hleft ⟨hnothing, hspecial⟩ ?_ hnext
    rw [hgrant, if_neg hack, Option.any_some, isAck_ack, if_pos rfl]

/-- The server commits the sequence and answers. -/
theorem Synced.exchange_commits (hb : Bounded losses) (h : Synced losses l)
    (hleft : l.client.completed < 64)
    (hswitch : (l.client.completed + 1) % 16 = 0 →
      losses l.client.completed l.client.currentAttempt ≠ .ack)
    (hl : losses l.client.completed l.client.currentAttempt ≠ .request)
    (hnew : l.server.completed = l.client.completed) (hone : l.client.completed ≠ 1)
    (hd : l.client.completed % 8 = 0 →
      Delivered losses l.client.completed l.client.currentAttempt) :
    Synced losses (l.exchange losses) ∧ Moves losses l (l.exchange losses) := by
  have hk := (h.attempt_le hb hleft).1
  have hserver := h.server
  have hsup : l.server.suppressedAcks = if 2 ≤ l.client.completed + 1 then 1 else 0 := by
    have hiff : 2 ≤ l.client.completed ↔ 2 ≤ l.client.completed + 1 := by omega
    rw [hserver.suppressed, hnew]
    simp only [hiff]
  have honce : l.client.completed % 8 = 0 → l.server.droppedOnce l.client.completed = true :=
    fun h8 => (hserver.flags _ (Nat.le_refl _)).mpr ⟨rfl, h8, hd h8⟩
  have hserve := serve_commit (s := { l.server with attempts := l.server.attempts + 1 })
    (h.ok.client.requests hleft) hleft hnew honce
  rw [if_neg fun hf => hone hf.1] at hserve
  obtain ⟨switches, hcommit⟩ := commit_eq (n := l.client.completed)
    (s := { l.server with attempts := l.server.attempts + 1 }) h.ok.server.frequency hnew
  rw [hcommit] at hserve
  refine h.exchange_answered hb hleft hswitch hl hserve (fun hs => hd ?_) (fun h16 => ?_) ?_
  · exact hs.resolve_right hone
  · exact hserver.unacked hl h16 hd rfl rfl hsup rfl
  · exact hserver.next hk rfl rfl hsup rfl

end

/-- The step lemma: unless the ACK of a commit that switches the channel is lost, both ends
stay together, and the client moves on exactly if the attempt succeeds. -/
theorem Synced.exchange (hb : Bounded losses) (h : Synced losses l)
    (hleft : l.client.completed < 64) (hswitch : (l.client.completed + 1) % 16 = 0 →
      losses l.client.completed l.client.currentAttempt ≠ .ack) :
    Synced losses (l.exchange losses) ∧ Moves losses l (l.exchange losses) := by
  have hk := (h.attempt_le hb hleft).1
  have hserver := h.server
  have hsup := hserver.suppressed
  have hreq := h.ok.client.requests hleft
  have hgrant := (h.exchange_eq hb hleft).2.2
  -- A lost request changes nothing at the server.
  by_cases hl : losses l.client.completed l.client.currentAttempt = .request
  · rw [if_pos hl] at hgrant
    exact h.exchange_fails hb hleft (fun hsu => by
      rw [hsu.1] at hl; cases hl) hgrant (hserver.lost hl)
  -- Heard: the request is new to the server, or it is one already committed.
  · by_cases hnew : l.server.completed = l.client.completed
    · by_cases hd : Delivered losses l.client.completed l.client.currentAttempt
      · -- heard before and not committed: it was dropped, and is committed now
        have h8 := hserver.unheard hnew hd
        exact h.exchange_commits hb hleft hswitch hl hnew (by omega) fun _ => hd
      -- never heard before: the server drops it once, keeps back one ACK, or commits
      · by_cases h8 : l.client.completed % 8 = 0
        · have honce : l.server.droppedOnce l.client.completed = false :=
            Bool.eq_false_iff.mpr fun ht => hd ((hserver.flags _ (Nat.le_refl _)).mp ht).2.2
          have hserve := serve_dropped (s := { l.server with attempts := l.server.attempts + 1 })
            hreq hleft hnew h8 honce
          exact h.exchange_silent hb hleft hl hserve (fun hsu => hd (hsu.2 (Or.inl h8)))
            (hserver.drop hl h8 hnew)
        · by_cases hone : l.client.completed = 1
          · have hsup0 : l.server.suppressedAcks = 0 := by
              rw [hsup, hnew, hone]
              rfl
            have hserve := serve_commit (s := { l.server with attempts := l.server.attempts + 1 })
              hreq hleft hnew (fun h0 => absurd h0 h8)
            rw [if_pos ⟨hone, hsup0⟩] at hserve
            obtain ⟨switches, hcommit⟩ := commit_eq (n := l.client.completed)
              (s := { l.server with
                attempts := l.server.attempts + 1
                suppressedAcks := l.server.suppressedAcks + 1 }) h.ok.server.frequency hnew
            rw [hcommit] at hserve
            refine h.exchange_silent hb hleft hl hserve (fun hsu => hd (hsu.2 (Or.inr hone)))
              (hserver.unacked hl (by omega) (fun h0 => absurd h0 h8) rfl rfl ?_ rfl)
            rw [hone, hsup0]
            rfl
          · exact h.exchange_commits hb hleft hswitch hl hnew hone fun h0 => absurd h0 h8
    -- the server is one ahead and repeats the ACK
    · have hdup : l.server.completed = l.client.completed + 1 := by
        have := h.ok.server.step
        omega
      obtain ⟨_, hd⟩ := hserver.heard hdup
      have hserve := serve_duplicate (s := { l.server with attempts := l.server.attempts + 1 })
        hreq hleft hdup
      rw [hdup] at hsup
      refine h.exchange_answered hb hleft hswitch hl hserve (fun _ => hd) (fun h16 => ?_) ?_
      · exact hserver.unacked hl h16 (fun _ => hd) hdup rfl hsup rfl
      · exact hserver.next hk hdup rfl hsup rfl

/-- The ACK of a commit that switches the channel is lost: the client stays behind. -/
theorem Synced.left_behind (hb : Bounded losses) (h : Synced losses l)
    (hleft : l.client.completed < 64) (h16 : (l.client.completed + 1) % 16 = 0)
    (hack : losses l.client.completed l.client.currentAttempt = .ack) :
    (l.exchange losses).client.transferComplete = false ∧ (l.exchange losses).tuned = false := by
  obtain ⟨heq, _, hgrant⟩ := h.exchange_eq hb hleft
  have hbusy : l.client.transferComplete = false := by
    rw [h.complete]
    exact decide_eq_false (by omega)
  have hnew : l.server.completed = l.client.completed := by
    have hstep := h.ok.server.step
    have hheard := h.server.heard
    omega
  have hserve := serve_commit (s := { l.server with attempts := l.server.attempts + 1 })
    (h.ok.client.requests hleft) hleft hnew (fun h8 => by omega)
  rw [if_neg (by omega)] at hserve
  obtain ⟨switches, hcommit⟩ := commit_eq (n := l.client.completed)
    (s := { l.server with attempts := l.server.attempts + 1 }) h.ok.server.frequency hnew
  have hns : ¬ Succeeds losses l.client.completed l.client.currentAttempt := by
    rintro ⟨hsu, _⟩
    rw [hsu] at hack
    cases hack
  rw [hcommit] at hserve
  rw [hack, if_neg nofun, hserve] at hgrant
  dsimp only at hgrant
  rw [if_pos rfl, Option.any_none, if_neg Bool.false_ne_true,
    retry_eq (c := { l.client with grants := l.client.grants + 1 }) ((h.attempt_le hb hleft).2 hns)]
    at hgrant
  rw [heq, hack, hgrant]
  refine ⟨hbusy, ?_⟩
  unfold Link.tuned
  have hchannel : l.client.currentChannel ≠ channelOf (l.client.completed + 1) := by
    rw [h.ok.client.channel]
    unfold channelOf
    by_cases heven : l.client.completed / 16 % 2 = 0
    · rw [if_pos heven, if_neg (by omega)]
      decide
    · rw [if_neg heven, if_pos (by omega)]
      decide
  dsimp only
  rw [beq_eq_false_iff_ne]
  omega

end

/-! ## Every run -/

section
variable {losses : Losses}

theorem synced_initial : Synced losses Link.initial := by
  refine ⟨link_initial_ok, rfl, rfl, fun j hj => absurd hj (Nat.not_lt_zero j), ?_, ?_,
    fun i hi => ?_, rfl, ?_⟩
  · intro he
    cases he
  · intro _ hd
    exact absurd hd not_delivered_zero
  · exact iff_of_false nofun (fun hf => not_delivered_zero hf.2.2)
  · exact Nat.zero_le _

/-- The ACKs on which the server switches channel arrive while both ends are together. -/
def SwitchAcksArrive (losses : Losses) : Prop :=
  ∀ n, Synced losses (after losses n) → (after losses n).client.completed < 64 →
    ((after losses n).client.completed + 1) % 16 = 0 →
    losses (after losses n).client.completed (after losses n).client.currentAttempt ≠ .ack

/-- Then they always are. -/
theorem synced_after (hb : Bounded losses) (hs : SwitchAcksArrive losses) :
    ∀ n, Synced losses (after losses n)
  | 0 => synced_initial
  | n + 1 => by
    have h := synced_after hb hs n
    show Synced losses ((after losses n).exchange losses)
    by_cases hleft : (after losses n).client.completed < 64
    · exact (h.exchange hb hleft (hs n h hleft)).1
    · have hdone : (after losses n).client.completed = 64 := by
        have := h.ok.client.completed_le
        omega
      have hsame : (after losses n).exchange losses = after losses n := by
        unfold Link.exchange Link.grant
        rw [h.complete, decide_eq_true hdone, if_pos rfl]
      rw [hsame]
      exact h

theorem moves_after (hb : Bounded losses) (hs : SwitchAcksArrive losses) {n : Nat}
    (hleft : (after losses n).client.completed < 64) :
    Moves losses (after losses n) (after losses (n + 1)) := by
  have h := synced_after hb hs n
  exact (h.exchange hb hleft (hs n h hleft)).2

/-- While a sequence fails, its attempts follow one another. -/
theorem reaches_attempt (hb : Bounded losses)
    (hs : SwitchAcksArrive losses) {n q : Nat} (hq : q < 64)
    (h : (after losses n).client.completed = q ∧ (after losses n).client.currentAttempt = 0) :
    ∀ k, (∀ j, j < k → ¬ Succeeds losses q j) →
      (after losses (n + k)).client.completed = q ∧ (after losses (n + k)).client.currentAttempt = k
  | 0, _ => h
  | k + 1, hfail => by
    obtain ⟨h1, h2⟩ := reaches_attempt hb hs hq h k fun j hj => hfail j (by omega)
    rcases moves_after hb hs (n := n + k) (by omega) with ⟨hsu, _⟩ | ⟨_, h3, h4⟩
    · rw [h1, h2] at hsu
      exact absurd hsu (hfail k (Nat.lt_succ_self k))
    · exact ⟨h3.trans h1, h4.trans (by rw [h2])⟩

/-- The first attempt that succeeds. -/
theorem first_success (hb : Bounded losses) {q : Nat} (hq : q < 64) :
    ∃ k, Succeeds losses q k ∧ ∀ j, j < k → ¬ Succeeds losses q j := by
  obtain ⟨k, hle, hk⟩ := hb q hq
  clear hle
  induction k using Nat.strongRecOn with
  | ind k ih =>
    by_cases hearlier : ∃ j, j < k ∧ Succeeds losses q j
    · obtain ⟨j, hj, hsu⟩ := hearlier
      exact ih j hj hsu
    · exact ⟨k, hk, fun j hj hsu => hearlier ⟨j, hj, hsu⟩⟩

/-- The client comes to every sequence, and past the last. -/
theorem reaches_sequence (hb : Bounded losses) (hs : SwitchAcksArrive losses) :
    ∀ q, q ≤ 64 → ∃ n, (after losses n).client.completed = q ∧
      (after losses n).client.currentAttempt = 0
  | 0, _ => ⟨0, rfl, rfl⟩
  | q + 1, hq => by
    obtain ⟨n, h⟩ := reaches_sequence hb hs q (by omega)
    obtain ⟨k, hk, hfail⟩ := first_success hb (q := q) (by omega)
    obtain ⟨h1, h2⟩ := reaches_attempt hb hs (by omega) h k hfail
    refine ⟨n + k + 1, ?_⟩
    rcases moves_after hb hs (n := n + k) (by omega) with ⟨_, h3, h4⟩ | ⟨hns, _⟩
    · exact ⟨h3.trans (by rw [h1]), h4⟩
    · rw [h1, h2] at hns
      exact absurd hk hns

/-- Both ends together to the end: the link recovers. -/
theorem recovers_of_acks (hb : Bounded losses)
    (hs : SwitchAcksArrive losses) : Recovers losses := by
  constructor
  · intro n hbusy
    have h := synced_after hb hs n
    refine h.together hb ?_
    exact h.ok.busy hbusy
  · obtain ⟨n, hdone, _⟩ := reaches_sequence hb hs 64 (Nat.le_refl 64)
    have h := synced_after hb hs n
    have hnext := h.ok.client.queued.next
    have htotal := h.ok.client.queued.total
    have hacc := h.ok.client.queued.accepted
    unfold totalPackets at htotal
    refine ⟨n, ?_, by omega, hdone, h.dropped⟩
    rw [h.complete, decide_eq_true hdone]

/-- **When the retry link recovers.** Under every schedule in which no sequence fails more
often than it may be retried, the client and the server stay together and complete all 64
sequences if and only if the ACK of the first request the server hears of each of the
sequences 15, 31, 47 and 63 is not lost. -/
theorem recovers_iff (hb : Bounded losses) :
    Recovers losses ↔ ∀ q ∈ [15, 31, 47, 63], FirstAckArrives losses q := by
  have hmem : ∀ q, q ∈ [15, 31, 47, 63] ↔ q < 64 ∧ (q + 1) % 16 = 0 := by
    intro q
    simp only [List.mem_cons, List.not_mem_nil, or_false]
    omega
  constructor
  · intro hr q hq k hunheard hack
    obtain ⟨hlt, h16⟩ := (hmem q).mp hq
    have hs : SwitchAcksArrive losses := by
      intro n h hleft h16' hack'
      obtain ⟨hbusy, htuned⟩ := h.left_behind hb hleft h16' hack'
      exact absurd ((hr.1 (n + 1) hbusy).1.symm.trans htuned) nofun
    obtain ⟨n, h⟩ := reaches_sequence hb hs q (by omega)
    obtain ⟨h1, h2⟩ := reaches_attempt hb hs hlt h k fun j hj hsu =>
      hunheard ⟨j, hj, by rw [hsu.1]; nofun⟩
    refine hs (n + k) (synced_after hb hs _) (by omega) (by omega) ?_
    rw [h1, h2]
    exact hack
  · intro harrive
    refine recovers_of_acks hb fun n h hleft h16 => ?_
    refine harrive _ ((hmem _).mpr ⟨hleft, h16⟩) _ fun hd => ?_
    have hnew : (after losses n).server.completed = (after losses n).client.completed := by
      have hstep := h.ok.server.step
      have hheard := h.server.heard
      omega
    have h8 := h.server.unheard hnew hd
    omega

/-- Every sequence loses its first request, and all but the four the ACK of the second. -/
def lossyAir : Losses := fun q k =>
  if k = 0 then .request else if k = 1 ∧ (q + 1) % 16 ≠ 0 then .ack else .nothing

/-- Nothing is lost but what the server itself drops and suppresses; and what `lossyAir`
loses, which the third attempt makes good. -/
theorem recovers_iff_retried : Recovers (fun _ _ => .nothing) ∧ Recovers lossyAir := by
  constructor
  · have hb : Bounded fun _ _ => .nothing := fun q _ =>
      ⟨1, by decide, rfl, fun _ => ⟨0, Nat.zero_lt_one, nofun⟩⟩
    exact (recovers_iff hb).mpr fun q _ k _ => nofun
  · have hb : Bounded lossyAir := by
      refine fun q _ => ⟨2, by decide, rfl, fun _ => ⟨1, by decide, ?_⟩⟩
      unfold lossyAir
      rw [if_neg Nat.one_ne_zero]
      split <;> nofun
    refine (recovers_iff hb).mpr fun q hq k _ => ?_
    have hswitch : (q + 1) % 16 = 0 := by
      simp only [List.mem_cons, List.not_mem_nil, or_false] at hq
      omega
    unfold lossyAir
    rw [if_neg (fun h : k = 1 ∧ (q + 1) % 16 ≠ 0 => h.2 hswitch)]
    split <;> nofun

/-- Only the first ACK of sequence 15 is lost: the client is left on the old channel. -/
theorem lost_switch_ack_strands_client :
    Bounded (fun q k => if q = 15 ∧ k = 0 then .ack else .nothing) ∧
      ¬ Recovers (fun q k => if q = 15 ∧ k = 0 then .ack else .nothing) := by
  constructor
  · intro q hq
    refine ⟨1, by decide, if_neg (by omega), fun _ => ⟨0, Nat.zero_lt_one, ?_⟩⟩
    dsimp only
    split <;> nofun
  · intro hr
    have hstuck :
        (after (fun q k => if q = 15 ∧ k = 0 then .ack else .nothing) 19).client.transferComplete =
        false ∧ (after (fun q k => if q = 15 ∧ k = 0 then .ack else .nothing) 19).tuned =
          false := by
      decide +kernel
    exact absurd ((hr.1 19 hstuck.1).1.symm.trans hstuck.2) nofun

end

end NrfKit.RetryLink
