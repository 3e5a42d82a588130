import NrfKit.RetryLink.ExactlyOnce

/- What the counters of both ends come to, whatever is lost: the client never retries a sequence
   more than three times and has filled its queue once; the server drops each eighth sequence
   and suppresses one ACK (`counted_run`). A transfer that completes has the numbers both ends
   call a pass (`completed_counts`). -/
namespace NrfKit.RetryLink
open NrfKit.Firmware

structure ClientCounted (c : Client) : Prop where
  retries : c.retries ≤ 3 * c.completed + min c.currentAttempt 3
  attempt : c.transferComplete = false → c.currentAttempt ≤ 3 ∧ c.dropped = 0
  peak : c.queuePeak = queueCapacity
  switches : c.channelSwitches = c.completed / 16
  ended : c.completed < 64 ∨ c.dropped = 0 ∧ c.currentAttempt = 0

/-- How many of the eighth sequences have been dropped. -/
def droppedCount (droppedOnce : Nat → Bool) : Nat :=
  ((List.range 8).filter fun k => droppedOnce (8 * k)).length

structure ServerCounted (s : Server) : Prop where
  drops : s.intentionalDrops = droppedCount s.droppedOnce
  dropped : ∀ q, q < s.completed → q % 8 = 0 → s.droppedOnce q = true
  suppressed : s.suppressedAcks = if 2 ≤ s.completed then 1 else 0
  switches : s.channelSwitches = s.completed / 16
  duplicates : s.duplicateAcks ≤ s.attempts
  attempts : s.attempts ≤ 100000

structure Counted (l : Link) : Prop where
  link : LinkOk l
  client : ClientCounted l.client
  server : ServerCounted l.server

/-! ## The client -/

theorem fillLoop_peak {n : Nat} {c : Client} (h : c.queuePeak = queueCapacity) :
    (fillLoop n c).queuePeak = queueCapacity := by
  induction n generalizing c with
  | zero => exact h
  | succ n ih =>
    rw [fillLoop]
    split
    · rename_i hroom
      apply ih
      unfold enqueue
      dsimp only
      rw [if_neg (by omega)]
      exact h
    · exact h

theorem switchChannel_counts (c : Client) (h : c.channelSwitches = (c.completed - 1) / 16)
    (hpos : c.completed ≠ 0) :
    (switchChannel c).channelSwitches = c.completed / 16 ∧
    (switchChannel c).completed = c.completed ∧
      (switchChannel c).queuePeak = c.queuePeak := by
  unfold switchChannel
  split
  · refine ⟨?_, rfl, rfl⟩
    dsimp only
    omega
  · exact ⟨by omega, rfl, rfl⟩

theorem advance_switches {c : Client} (h : c.channelSwitches = c.completed / 16)
    (hpeak : c.queuePeak = queueCapacity) :
    (advance c).1.channelSwitches = (c.completed + 1) / 16 ∧
    (advance c).1.queuePeak = queueCapacity := by
  have hacknowledged : (acknowledge c).channelSwitches = ((acknowledge c).completed - 1) / 16 := h
  obtain ⟨hswitches, -, hsame⟩ :=
    switchChannel_counts (acknowledge c) hacknowledged (Nat.succ_ne_zero _)
  have hfilled : (fillLoop queueCapacity (switchChannel (acknowledge c))).queuePeak =
      queueCapacity := fillLoop_peak (hsame.trans hpeak)
  obtain ⟨_, _, _, _, _, hfill⟩ := fillLoop_eq queueCapacity (switchChannel (acknowledge c))
  have hcount : (fillLoop queueCapacity (switchChannel (acknowledge c))).channelSwitches =
      (c.completed + 1) / 16 := by
    rw [hfill]
    exact hswitches
  unfold advance fillQueue
  dsimp only
  split <;> exact ⟨hcount, hfilled⟩

theorem retry_counted {c : Client} (h : ClientCounted c) (hbusy : c.transferComplete = false)
    (hleft : c.completed < 64) :
    ClientCounted (retry c).1 := by
  obtain ⟨hretries, hattempt, hpeak, hswitches, -⟩ := h
  obtain ⟨hattempt, hdropped⟩ := hattempt hbusy
  unfold retry maxRetries
  dsimp only
  split
  · refine ⟨?_, nofun, hpeak, hswitches, .inl hleft⟩
    dsimp only
    omega
  · refine ⟨?_, fun _ => ⟨?_, hdropped⟩, hpeak, hswitches, .inl hleft⟩
    · dsimp only
      omega
    · dsimp only
      omega

theorem advance_counted {c : Client} (h : ClientCounted c)
    (hbusy : c.transferComplete = false) : ClientCounted (advance c).1 := by
  obtain ⟨hcompleted, hretries, hdropped, hattempt, -⟩ := advance_counts c
  obtain ⟨hswitches, hpeak⟩ := advance_switches h.switches h.peak
  have hzero := (h.attempt hbusy).2
  have hsofar := h.retries
  refine ⟨?_, fun _ => ⟨?_, hdropped.trans hzero⟩, hpeak, hswitches.trans (by rw [hcompleted]),
    .inr ⟨hdropped.trans hzero, hattempt⟩⟩
  · rw [hcompleted, hretries]
    omega
  · rw [hattempt]
    omega

/-! ## The server -/

theorem droppedCount_mark {droppedOnce : Nat → Bool} {n : Nat} (hn : n < 64) (h8 : n % 8 = 0)
    (hnew : droppedOnce n = false) :
    droppedCount (fun i => if i = n then true else droppedOnce i) =
      droppedCount droppedOnce + 1 := by
  have hmark : ∀ (k : Nat) (ks : List Nat), k ∉ ks →
      (ks.filter fun j => if 8 * j = 8 * k then true else droppedOnce (8 * j)) = ks.filter fun j =>
        droppedOnce (8 * j) := by
    intro k ks hk
    refine List.filter_congr fun j hj => if_neg fun heq => hk ?_
    rwa [← Nat.eq_of_mul_eq_mul_left (by decide) heq]
  obtain ⟨k, rfl⟩ : ∃ k, n = 8 * k := ⟨n / 8, by omega⟩
  obtain ⟨front, back, hrange⟩ := List.append_of_mem (List.mem_range.mpr (show k < 8 by omega))
  have hnodup : (front ++ k :: back).Nodup := by
    rw [← hrange]
    exact List.nodup_range
  obtain ⟨-, hback, hapart⟩ := List.nodup_append.mp hnodup
  have hfront : k ∉ front := fun hmem => hapart k hmem k (List.mem_cons_self ..) rfl
  have hlater : k ∉ back := (List.nodup_cons.mp hback).1
  rw [droppedCount, droppedCount, hrange]
  simp only [List.filter_append, List.filter_cons, hmark k front hfront, hmark k back hlater,
    if_true, hnew, List.length_append, List.length_cons, if_false, Bool.false_eq_true]
  omega

theorem commit_switches {n : Nat} {s : Server} (hf : s.frequency = 2400 + channelOf s.completed)
    (hn : s.completed = n) (h : s.channelSwitches = n / 16) :
    commit n s = { s with
      completed := n + 1
      committed := s.committed ++ [n]
      frequency := 2400 + channelOf (n + 1)
      channelSwitches := (n + 1) / 16 } := by
  obtain ⟨switches, heq⟩ := commit_eq hf hn
  have hcount : (commit n s).channelSwitches = (n + 1) / 16 := by
    unfold commit
    dsimp only
    split <;> dsimp only <;> omega
  rw [heq] at hcount ⊢
  dsimp only at hcount
  rw [hcount]

theorem ServerCounted.commit {n : Nat} {s : Server} (h : ServerCounted s)
    (hf : s.frequency = 2400 + channelOf s.completed) (hn : s.completed = n)
    (hdropped : n % 8 = 0 → s.droppedOnce n = true) {suppressed : Nat}
    (hsuppressed : suppressed = if 2 ≤ n + 1 then 1 else 0) :
    ServerCounted (commit n { s with suppressedAcks := suppressed }) := by
  have hcommit := @commit_switches n { s with suppressedAcks := suppressed } hf hn (hn ▸ h.switches)
  rw [hcommit]
  refine ⟨h.drops, fun q hq h8 => ?_, hsuppressed, rfl, h.duplicates, h.attempts⟩
  rcases Nat.lt_succ_iff_lt_or_eq.mp hq with hq | rfl
  · exact h.dropped q (hn ▸ hq) h8
  · exact hdropped h8

theorem serve_counted {n : Nat} {s : Server} {packet : Packet} (h : ServerCounted s)
    (hok : ServerOk n s) (hn : n < 64) (hp : Requests n packet)
    (hattempts : s.duplicateAcks < s.attempts) : ServerCounted (serve packet s).1 := by
  rcases hok.step with hnew | ⟨hdup, -⟩
  · by_cases hdrop : n % 8 = 0 ∧ s.droppedOnce n = false
    · rw [serve_dropped hp hn hnew hdrop.1 hdrop.2]
      refine ⟨?_, fun q hq h8 => ?_, h.suppressed, h.switches, h.duplicates, h.attempts⟩
      · rw [droppedCount_mark hn hdrop.1 hdrop.2, ← h.drops]
      · dsimp only
        split
        · rfl
        · exact h.dropped q hq h8
    · have honce : n % 8 = 0 → s.droppedOnce n = true := fun h8 => by
        cases hd : s.droppedOnce n with
        | true => rfl
        | false => exact absurd ⟨h8, hd⟩ hdrop
      have hsuppressed := h.suppressed
      rw [serve_commit hp hn hnew honce]
      split
      · rename_i hfirst
        refine h.commit hok.frequency hnew honce ?_
        rw [hfirst.1, hfirst.2]
        rfl
      · rename_i hlater
        refine h.commit hok.frequency hnew honce ?_
        have hne : n ≠ 1 := fun h1 => hlater ⟨h1, by rw [hsuppressed, hnew, h1]; rfl⟩
        rw [hsuppressed, hnew]
        split <;> split <;> omega
  · rw [serve_duplicate hp hn hdup]
    exact ⟨h.drops, h.dropped, h.suppressed, h.switches, hattempts, h.attempts⟩

theorem serverRound_counted {n : Nat} {s : Server} {received : Option Packet} (h : ServerCounted s)
    (hok : ServerOk n s) (hn : n < 64) (hp : ∀ packet, received = some packet → Requests n packet) :
    ServerCounted (serverRound received s).1 := by
  cases hr : s.running with
  | false =>
    rw [serverRound_stopped hr]
    exact h
  | true =>
    have hattempts : s.attempts < 100000 := by
      unfold Server.running at hr
      simp only [Bool.and_eq_true, decide_eq_true_eq] at hr
      exact hr.2
    have hduplicates := h.duplicates
    have hround : ServerCounted { s with attempts := s.attempts + 1 } :=
      ⟨h.drops, h.dropped, h.suppressed, h.switches, Nat.le_succ_of_le hduplicates, hattempts⟩
    cases received with
    | none =>
      rw [serverRound_quiet hr]
      exact hround
    | some packet =>
      rw [serverRound_heard hr]
      exact serve_counted hround hok.attempt hn (hp packet rfl) (Nat.lt_succ_of_le hduplicates)

/-! ## The link -/

/-- What becomes of both ends in a grant. -/
theorem grant_parts {l : Link} (loss : Loss) (h : LinkOk l)
    (hbusy : l.client.transferComplete = false) :
    ((l.grant loss).client = (retry { l.client with grants := l.client.grants + 1 }).1 ∨
      (l.grant loss).client = (advance { l.client with grants := l.client.grants + 1 }).1) ∧
    ∃ received, (∀ packet, received = some packet → Requests l.client.completed packet) ∧
      (l.grant loss).server = (serverRound received l.server).1 := by
  have hleft := h.busy hbusy
  have hcount := h.client.queueCount_pos hleft
  unfold Link.grant
  rw [if_neg (by simp [hbusy])]
  refine ⟨?_, _, fun packet hpacket => ?_, rfl⟩
  · dsimp only
    generalize (if loss = .ack then none else _) = reply
    rw [start_eq _ hcount]
    split
    · exact .inr rfl
    · exact .inl rfl
  · split at hpacket
    · rw [← Option.some.inj hpacket]
      exact h.client.requests hleft
    · cases hpacket

theorem grant_counted {l : Link} (loss : Loss) (h : Counted l) : Counted (l.grant loss) := by
  by_cases hdone : l.client.transferComplete = true
  · have hsame : l.grant loss = l := by
      unfold Link.grant
      rw [if_pos hdone]
    rwa [hsame]
  · have hbusy : l.client.transferComplete = false := by simpa using hdone
    have hleft := h.link.busy hbusy
    obtain ⟨hclient, received, hrequests, hserver⟩ := grant_parts loss h.link hbusy
    have hgranted : ClientCounted { l.client with grants := l.client.grants + 1 } :=
      ⟨h.client.retries, h.client.attempt, h.client.peak, h.client.switches, h.client.ended⟩
    refine ⟨grant_ok loss h.link, ?_, ?_⟩
    · rcases hclient with hclient | hclient
      · rw [hclient]
        exact retry_counted hgranted hbusy hleft
      · rw [hclient]
        exact advance_counted hgranted hbusy
    · rw [hserver]
      exact serverRound_counted h.server h.link.server hleft hrequests

theorem quiet_counted {l : Link} (h : Counted l) : Counted (l.slot .quiet) := by
  refine ⟨quiet_ok h.link, h.client, ?_⟩
  show ServerCounted (serverRound none l.server).1
  cases hr : l.server.running with
  | false =>
    rw [serverRound_stopped hr]
    exact h.server
  | true =>
    have hattempts : l.server.attempts < 100000 := by
      unfold Server.running at hr
      simp only [Bool.and_eq_true, decide_eq_true_eq] at hr
      exact hr.2
    rw [serverRound_quiet hr]
    exact ⟨h.server.drops, h.server.dropped, h.server.suppressed, h.server.switches,
      Nat.le_succ_of_le h.server.duplicates, hattempts⟩

theorem counted_initial : Counted Link.initial := by
  refine ⟨link_initial_ok, ⟨?_, fun _ => ?_, ?_, ?_, ?_⟩, ⟨?_, ?_, ?_, ?_, ?_, ?_⟩⟩
  all_goals decide

/-- The run lemma. -/
theorem counted_run {slots : List Slot} {l : Link} (h : Counted l) : Counted (l.run slots) := by
  induction slots generalizing l with
  | nil => exact h
  | cons slot slots ih =>
    show Counted ((l.slot slot).run slots)
    cases slot with
    | quiet => exact ih (quiet_counted h)
    | grant loss => exact ih (grant_counted loss h)

theorem droppedCount_all {droppedOnce : Nat → Bool}
    (h : ∀ q, q < 64 → q % 8 = 0 → droppedOnce q = true) :
    droppedCount droppedOnce = 8 := by
  rw [droppedCount, List.filter_eq_self.mpr, List.length_range]
  intro k hk
  have hk := List.mem_range.mp hk
  exact h (8 * k) (by omega) (by omega)

/-- The counters of a transfer that completed. -/
structure Completed (l : Link) : Prop where
  accepted : l.client.accepted = 64
  completed : l.client.completed = 64
  dropped : l.client.dropped = 0
  retries : l.server.intentionalDrops + l.server.suppressedAcks ≤ l.client.retries ∧
    l.client.retries ≤ 192
  peak : l.client.queuePeak = 8
  switches : l.client.channelSwitches = 4
  served : l.server.completed = 64
  drops : l.server.intentionalDrops = 8
  suppressed : l.server.suppressedAcks = 1
  duplicates : 1 ≤ l.server.duplicateAcks
  followed : l.server.channelSwitches = 4
  invalid : l.server.invalid = 0

theorem completed_counts {l : Link} (h : Counted l)
    (hdone : l.client.completed = 64) : Completed l := by
  obtain ⟨⟨hclient, hserver, hfailures, -⟩, hcounts, hserved⟩ := h
  have hstep : l.server.completed = 64 := by
    have := hserver.step
    omega
  have hdropped : l.client.dropped = 0 := by
    have := hcounts.ended
    omega
  have haccepted := hclient.queued.accepted
  have hnext := hclient.queued.next
  have htotal := hclient.queued.total
  have hretries := hcounts.retries
  have hended := hcounts.ended
  have hswitches := hcounts.switches
  have hfollowed := hserved.switches
  have hreplayed := hserver.replayed
  have hsuppressed : l.server.suppressedAcks = 1 := by
    rw [hserved.suppressed, if_pos (by omega)]
  have hdrops : l.server.intentionalDrops = 8 := by
    rw [hserved.drops]
    exact droppedCount_all fun q hq h8 => hserved.dropped q (by omega) h8
  unfold totalPackets at htotal
  exact {
    accepted := by omega
    completed := hdone
    dropped := hdropped
    retries := ⟨by omega, by omega⟩
    peak := hcounts.peak
    switches := by omega
    served := hstep
    drops := hdrops
    suppressed := hsuppressed
    duplicates := by omega
    followed := by omega
    invalid := hserver.invalid }

end NrfKit.RetryLink
