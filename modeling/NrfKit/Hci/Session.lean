import Mathlib.Data.List.Forall2
import NrfKit.Hci.Stream

/- `H4Session` of `tools/nrfkit_tools/hci.py`: calls that read events from one descriptor.

   Every call takes events from the front of what is upcoming, the pending ones and then
   those still to be decoded (`Call.run_takes`). `next_event` returns the one it takes. A
   command drops each one it takes before its own answer, although `wait_for_acl` keeps what
   it decodes. So every event of a run is accounted for iff each command is made when its
   answer comes first (`events_accounted`). -/
namespace NrfKit.Hci
open Bytes

/-- What the reads of the descriptor give in order, `none` where the deadline comes first and
an empty string at the end of the file; and how much each write takes. -/
structure Descriptor where
  arrivals : List (Option (List UInt8))
  room : List (Option Nat) := []
  written : List UInt8 := []
  deriving DecidableEq

structure H4Session where
  descriptor : Descriptor
  parser : H4EventParser := {}
  pending : List HciEvent := []
  transcript : List UInt8 := []
  deriving DecidableEq

namespace H4Session

/-- The loop of `_write`. -/
def writeLoop (data written : List UInt8) (room : List (Option Nat)) :
    Except HciContractError Unit × List UInt8 × List (Option Nat) :=
  if data = [] then (.ok (), written, room)
  else
    match room with
    | [] => (.error .writeTimeout, written, [])
    | none :: room => (.error .writeTimeout, written, room)
    | some size :: room => writeLoop (data.drop size) (written ++ data.take size) room

def write (data : List UInt8) (s : H4Session) : Except HciContractError Unit × H4Session :=
  let (result, written, room) := writeLoop data s.descriptor.written s.descriptor.room
  (result, { s with descriptor := { s.descriptor with written, room } })

/-- The loop of `next_event` and of `wait_for_acl`: what is read is recorded and decoded,
until there is what the call returns. -/
def readUntil {α : Type} (ready : H4Session → Option (α × H4Session)) (late : HciContractError)
    (s : H4Session) :
    List (Option (List UInt8)) → Except HciContractError α × H4Session
  | [] => (.error late, { s with descriptor.arrivals := [] })
  | none :: arrivals => (.error late, { s with descriptor.arrivals := arrivals })
  | some data :: arrivals =>
    if data = [] then (.error .endOfFile, { s with descriptor.arrivals := arrivals })
    else
      match s.parser.feed data with
      | (.error e, parser) =>
        (.error e,
          { s with descriptor.arrivals := arrivals, parser, transcript := s.transcript ++ data })
      | (.ok events, parser) =>
        let s' := { s with
          descriptor.arrivals := arrivals, parser, pending := s.pending ++ events, transcript :=
            s.transcript ++ data }
        match ready s' with
        | some (a, s'') => (.ok a, s'')
        | none => readUntil ready late s' arrivals

def waitUntil {α : Type} (ready : H4Session → Option (α × H4Session)) (late : HciContractError)
    (s : H4Session) : Except HciContractError α × H4Session :=
  match ready s with
  | some (a, s') => (.ok a, s')
  | none => readUntil ready late s s.descriptor.arrivals

/-- `self.pending.pop(0)`. -/
def popPending (s : H4Session) : Option (HciEvent × H4Session) :=
  match s.pending with
  | [] => none
  | event :: pending => some (event, { s with pending })

def lastAcl (s : H4Session) : Option (List UInt8 × H4Session) :=
  s.parser.aclPackets.getLast?.map fun packet => (packet, s)

def nextEvent (s : H4Session) : Except HciContractError HciEvent × H4Session :=
  s.waitUntil popPending .eventTimeout

def waitForAcl (s : H4Session) : Except HciContractError (List UInt8) × H4Session :=
  s.waitUntil lastAcl .aclTimeout

theorem readUntil_ok {α : Type} {ready : H4Session → Option (α × H4Session)}
    {late : HciContractError} {a : α} {s' : H4Session} (arrivals : List (Option (List UInt8)))
    (s : H4Session) (h : readUntil ready late s arrivals = (.ok a, s')) :
    ∃ s₁, ready s₁ = some (a, s') ∧ s₁.descriptor.arrivals.length < arrivals.length := by
  induction arrivals generalizing s with
  | nil => cases h
  | cons first arrivals ih =>
    cases first with
    | none => cases h
    | some data =>
      rw [readUntil] at h
      split at h
      · cases h
      split at h
      · cases h
      rename_i events parser hfeed
      dsimp only at h
      split at h
      · rename_i b s'' hready
        cases h
        exact ⟨_, hready, Nat.lt_succ_self _⟩
      · obtain ⟨s₁, hready, hless⟩ := ih _ h
        exact ⟨s₁, hready, Nat.lt_succ_of_lt hless⟩

theorem popPending_some {s s' : H4Session} {event : HciEvent}
    (h : s.popPending = some (event, s')) :
    s.pending = event :: s'.pending ∧ s' = { s with pending := s'.pending } := by
  unfold popPending at h
  split at h
  · cases h
  · rename_i hpending
    cases h
    exact ⟨hpending, rfl⟩

/-- An event that is returned was pending, or something was read for it. -/
theorem nextEvent_smaller {s s' : H4Session} {event : HciEvent}
    (h : s.nextEvent = (.ok event, s')) :
    Prod.Lex (· < ·) (· < ·) (s'.descriptor.arrivals.length, s'.pending.length)
      (s.descriptor.arrivals.length, s.pending.length) := by
  unfold nextEvent waitUntil at h
  split at h
  · rename_i hready
    cases h
    obtain ⟨hpending, hrest⟩ := popPending_some hready
    rw [hpending, hrest]
    exact Prod.Lex.right _ (Nat.lt_succ_self _)
  · obtain ⟨s₁, hready, hless⟩ := readUntil_ok _ _ h
    rw [(popPending_some hready).2]
    exact Prod.Lex.left _ _ hless

/-- The loop of `command` and of `command_status`: events are taken until one is the answer. -/
def awaitAnswer {α : Type} (answer : HciEvent → Except HciContractError (Option α))
    (s : H4Session) : Except HciContractError α × H4Session :=
  match _hnext : s.nextEvent with
  | (.error e, s') => (.error e, s')
  | (.ok event, s') =>
    match answer event with
    | .error e => (.error e, s')
    | .ok (some a) => (.ok a, s')
    | .ok none => awaitAnswer answer s'
termination_by (s.descriptor.arrivals.length, s.pending.length)
decreasing_by exact nextEvent_smaller _hnext

/-- `command_status` in the shape of `command_complete`. -/
def statusAnswer (opcode : Int) (event : HciEvent) : Except HciContractError (Option Unit) :=
  (commandStatus event opcode).map fun accepted => if accepted then some () else none

def request {α : Type} (opcode : Int) (parameters : List UInt8)
    (answer : HciEvent → Except HciContractError (Option α)) (s : H4Session) :
    Except HciContractError α × H4Session :=
  match commandPacket opcode parameters with
  | .error e => (.error e, s)
  | .ok packet =>
    match s.write packet with
    | (.error e, s) => (.error e, s)
    | (.ok _, s) => s.awaitAnswer answer

def command (opcode : Int) (parameters : List UInt8) (s : H4Session) :
    Except HciContractError (List UInt8) × H4Session :=
  s.request opcode parameters fun event => commandComplete event opcode

def commandStatus (opcode : Int) (parameters : List UInt8) (s : H4Session) :
    Except HciContractError Unit × H4Session :=
  s.request opcode parameters (statusAnswer opcode)

end H4Session

/-! ## Runs -/

inductive Call where
  | nextEvent
  | waitForAcl
  | command (opcode : Int) (parameters : List UInt8)
  | commandStatus (opcode : Int) (parameters : List UInt8)

inductive CallResult where
  | event (event : HciEvent)
  | acl (packet : List UInt8)
  | completed (parameters : List UInt8)
  | accepted
  deriving DecidableEq

def Call.run (s : H4Session) : Call → Except HciContractError CallResult × H4Session
  | nextEvent => (s.nextEvent.1.map .event, s.nextEvent.2)
  | waitForAcl => (s.waitForAcl.1.map .acl, s.waitForAcl.2)
  | command opcode parameters =>
    ((s.command opcode parameters).1.map .completed, (s.command opcode parameters).2)
  | commandStatus opcode parameters =>
    ((s.commandStatus opcode parameters).1.map fun _ => .accepted,
      (s.commandStatus opcode parameters).2)

/-- The calls in order, up to the first that raises. -/
def runCalls (s : H4Session) : List Call → Except HciContractError (List CallResult) × H4Session
  | [] => (.ok [], s)
  | call :: calls =>
    match call.run s with
    | (.error e, s') => (.error e, s')
    | (.ok result, s') => ((runCalls s' calls).1.map (result :: ·), (runCalls s' calls).2)

/-! ## What is upcoming -/

/-- What the descriptor still gives before a deadline. -/
def H4Session.incoming (s : H4Session) : List UInt8 := (s.descriptor.arrivals.filterMap id).flatten

def eventsOf : Except HciContractError (List HciEvent) → List HciEvent
  | .ok events => events
  | .error _ => []

/-- The events of everything that was read. -/
def H4Session.decoded (s : H4Session) : List HciEvent :=
  eventsOf (H4EventParser.feed {} s.transcript).1

/-- The events of everything that is still to be read. -/
def H4Session.coming (s : H4Session) : List HciEvent := eventsOf (s.parser.feed s.incoming).1

def H4Session.upcoming (s : H4Session) : List HciEvent := s.pending ++ s.coming

/-- A session in a stream of whole packets and a part of one more: it has read some of them and
a part of the next. -/
structure H4Session.Within (packets : List H4Packet) (tail : List UInt8) (s : H4Session)
    (before after : List H4Packet) (part : List UInt8) : Prop where
  split : packets = before ++ after
  incomplete : Incomplete part
  transcript : s.transcript = streamBytes before ++ part
  parser : s.parser = ⟨part, streamAcls before⟩
  incoming : part ++ s.incoming = streamBytes after ++ tail

def H4Session.In (packets : List H4Packet) (tail : List UInt8) (s : H4Session) : Prop :=
  ∃ before after part, s.Within packets tail before after part

theorem feed_stream {part data : List UInt8} {acls : List (List UInt8)}
    {packets : List H4Packet} {rest : List UInt8} (hrest : Incomplete rest)
    (hbytes : part ++ data = streamBytes packets ++ rest) :
    H4EventParser.feed ⟨part, acls⟩ data = (.ok (streamEvents packets),
      ⟨rest, acls ++ streamAcls packets⟩) := by
  rw [H4EventParser.feed, hbytes, feedLoop_packets, feedLoop_incomplete hrest, List.nil_append]

section
variable {packets before after : List H4Packet} {tail part : List UInt8} {s s' : H4Session}

theorem H4Session.Within.decoded (h : s.Within packets tail before after part) : s.decoded =
      streamEvents before := by
  rw [H4Session.decoded, h.transcript, feed_stream h.incomplete (List.nil_append _)]
  rfl

theorem H4Session.Within.coming (h : s.Within packets tail before after part)
    (htail : Incomplete tail) :
    s.coming = streamEvents after := by
  rw [H4Session.coming, h.parser, feed_stream htail h.incoming]
  rfl

/-- What was read and what is still to be read are the stream. -/
theorem H4Session.In.events (h : s.In packets tail) (htail : Incomplete tail) :
    s.decoded ++ s.coming = streamEvents packets := by
  obtain ⟨before, after, part, hin⟩ := h
  rw [hin.decoded, hin.coming htail, hin.split, streamEvents_append]

/-- Only the parser, the transcript and the arrivals say where a session is in the stream. -/
theorem H4Session.In.same (h : s.In packets tail)
    (hparser : s'.parser = s.parser) (htranscript : s'.transcript = s.transcript)
    (harrivals : s'.descriptor.arrivals = s.descriptor.arrivals) :
    s'.In packets tail ∧ s'.coming = s.coming := by
  have hincoming : s'.incoming = s.incoming := by
    rw [H4Session.incoming, harrivals, H4Session.incoming]
  obtain ⟨before, after, part, hin⟩ := h
  refine ⟨⟨before, after, part, hin.split, hin.incomplete, ?_, ?_, ?_⟩, ?_⟩
  · rw [htranscript, hin.transcript]
  · rw [hparser, hin.parser]
  · rw [hincoming, hin.incoming]
  · rw [H4Session.coming, hparser, hincoming, H4Session.coming]

/-- One read: its bytes are decoded, and what was upcoming still is. -/
theorem H4Session.In.read {data : List UInt8} {arrivals : List (Option (List UInt8))}
    (htail : Incomplete tail) (h : s.In packets tail)
    (harrivals : s.descriptor.arrivals = some data :: arrivals) :
    ∃ events parser, s.parser.feed data = (.ok events, parser) ∧ ∀ s' : H4Session,
      s'.parser = parser →
      s'.descriptor.arrivals = arrivals → s'.transcript = s.transcript ++ data →
      s'.pending = s.pending ++ events →
        s'.In packets tail ∧ s'.upcoming = s.upcoming := by
  obtain ⟨before, after, part, hin⟩ := h
  have hincoming : s.incoming = data ++ (arrivals.filterMap id).flatten := by
    rw [H4Session.incoming, harrivals]
    rfl
  have hbytes : streamBytes after ++ tail = (part ++ data) ++ (arrivals.filterMap id).flatten := by
    rw [List.append_assoc, ← hincoming, hin.incoming]
  obtain ⟨more, rest, part', hafter, hfront, hpart', hback⟩ := stream_cut htail hbytes
  refine ⟨_, _,
    by rw [hin.parser, feed_stream hpart' hfront], fun s' hparser hrest htranscript hpending => ?_⟩
  have hin' : s'.Within packets tail (before ++ more) rest part' := by
    refine ⟨by rw [hin.split, hafter, List.append_assoc], hpart', ?_, ?_, ?_⟩
    · calc s'.transcript
          = streamBytes before ++ (part ++ data) := by
            rw [htranscript, hin.transcript, List.append_assoc]
        _ = streamBytes before ++ (streamBytes more ++ part') := by rw [hfront]
        _ = streamBytes (before ++ more) ++ part' := by simp [streamBytes]
    · rw [hparser, streamAcls_append]
    · rw [H4Session.incoming, hrest, hback]
  refine ⟨⟨_, _, _, hin'⟩, ?_⟩
  calc s'.upcoming
      = s.pending ++ streamEvents more ++ streamEvents rest := by
        rw [H4Session.upcoming, hin'.coming htail, hpending]
    _ = s.pending ++ streamEvents after := by
      rw [List.append_assoc, ← streamEvents_append, ← hafter]
    _ = s.upcoming := by rw [H4Session.upcoming, hin.coming htail]

/-- A wait only reads: it returns from a session with the same events upcoming. -/
theorem H4Session.In.readUntil {α : Type} {ready : H4Session → Option (α × H4Session)}
    {late : HciContractError} {a : α} (htail : Incomplete tail)
    (arrivals : List (Option (List UInt8))) (s : H4Session)
    (h : s.In packets tail) (harrivals : s.descriptor.arrivals = arrivals)
    (hr : s.readUntil ready late arrivals = (.ok a, s')) :
    ∃ s₁, s₁.In packets tail ∧ s₁.upcoming = s.upcoming ∧ ready s₁ = some (a, s') := by
  induction arrivals generalizing s with
  | nil => cases hr
  | cons first arrivals ih =>
    cases first with
    | none => cases hr
    | some data =>
      obtain ⟨events, parser, hfeed, hread⟩ := h.read htail harrivals
      rw [H4Session.readUntil, hfeed] at hr
      split at hr
      · cases hr
      dsimp only at hr
      obtain ⟨hin', hupcoming⟩ := hread { s with
        descriptor.arrivals := arrivals, parser, pending := s.pending ++ events, transcript :=
          s.transcript ++ data }
        rfl rfl rfl rfl
      split at hr
      · rename_i b s'' hready
        cases hr
        exact ⟨_, hin', hupcoming, hready⟩
      · obtain ⟨s₁, hin₁, hsame, hready⟩ := ih _ hin' rfl hr
        exact ⟨s₁, hin₁, hsame.trans hupcoming, hready⟩

theorem H4Session.In.waitUntil {α : Type} {ready : H4Session → Option (α × H4Session)}
    {late : HciContractError} {a : α} (htail : Incomplete tail) (h : s.In packets tail)
    (hr : s.waitUntil ready late = (.ok a, s')) :
    ∃ s₁, s₁.In packets tail ∧ s₁.upcoming = s.upcoming ∧ ready s₁ = some (a, s') := by
  unfold H4Session.waitUntil at hr
  split at hr
  · rename_i hready
    cases hr
    exact ⟨s, h, rfl, hready⟩
  · exact h.readUntil htail _ s rfl hr

/-- `next_event` returns the first of the upcoming events. -/
theorem H4Session.In.nextEvent {event : HciEvent} (htail : Incomplete tail) (h : s.In packets tail)
    (hr : s.nextEvent = (.ok event, s')) :
    s'.In packets tail ∧ s.upcoming = event :: s'.upcoming := by
  obtain ⟨s₁, hin, hupcoming, hready⟩ := h.waitUntil htail hr
  obtain ⟨hpending, hrest⟩ := H4Session.popPending_some hready
  obtain ⟨hin', hcoming⟩ : s'.In packets tail ∧ s'.coming = s₁.coming := by
    refine hin.same ?_ ?_ ?_ <;> rw [hrest]
  refine ⟨hin', ?_⟩
  rw [← hupcoming, H4Session.upcoming, hpending, ← hcoming, List.cons_append, H4Session.upcoming]

theorem H4Session.In.waitForAcl {packet : List UInt8} (htail : Incomplete tail)
    (h : s.In packets tail) (hr : s.waitForAcl = (.ok packet, s')) :
    s'.In packets tail ∧ s.upcoming = s'.upcoming := by
  obtain ⟨s₁, hin, hupcoming, hready⟩ := h.waitUntil htail hr
  obtain ⟨_, _, hsame⟩ := Option.map_eq_some_iff.mp hready
  cases hsame
  exact ⟨hin, hupcoming.symm⟩

/-- The events a command takes: those that are no answer, which are dropped, and the answer. -/
theorem H4Session.In.awaitAnswer {α : Type} {answer : HciEvent → Except HciContractError (Option α)}
    {a : α} (htail : Incomplete tail) (s : H4Session) (h : s.In packets tail)
    (hr : s.awaitAnswer answer = (.ok a, s')) :
    s'.In packets tail ∧ ∃ dropped event, s.upcoming = dropped ++ event :: s'.upcoming ∧
      (∀ e ∈ dropped, answer e = .ok none) ∧ answer event = .ok (some a) := by
  induction s using H4Session.awaitAnswer.induct answer with
  | case1 s e s₁ hnext =>
    rw [H4Session.awaitAnswer, hnext] at hr
    cases hr
  | case2 s event s₁ hnext e hanswer =>
    rw [H4Session.awaitAnswer, hnext] at hr
    simp [hanswer] at hr
  | case3 s event s₁ hnext b hanswer =>
    rw [H4Session.awaitAnswer, hnext] at hr
    simp only [hanswer] at hr
    cases hr
    obtain ⟨hin, hupcoming⟩ := h.nextEvent htail hnext
    exact ⟨hin, [], event, hupcoming, nofun, hanswer⟩
  | case4 s event s₁ hnext hanswer ih =>
    rw [H4Session.awaitAnswer, hnext] at hr
    simp only [hanswer] at hr
    obtain ⟨hin, hupcoming⟩ := h.nextEvent htail hnext
    obtain ⟨hin', dropped, last, hrest, hdropped, hlast⟩ := ih hin hr
    refine ⟨hin', event :: dropped, last, ?_, ?_, hlast⟩
    · rw [hupcoming, hrest, List.cons_append]
    · intro e he
      rcases List.mem_cons.mp he with rfl | he
      · exact hanswer
      · exact hdropped e he

theorem H4Session.In.request {α : Type} {opcode : Int} {parameters : List UInt8}
    {answer : HciEvent → Except HciContractError (Option α)} {a : α} (htail : Incomplete tail)
    (h : s.In packets tail) (hr : s.request opcode parameters answer = (.ok a, s')) :
    s'.In packets tail ∧ ∃ dropped event, s.upcoming = dropped ++ event :: s'.upcoming ∧
      (∀ e ∈ dropped, answer e = .ok none) ∧ answer event = .ok (some a) := by
  unfold H4Session.request at hr
  split at hr
  · cases hr
  rename_i packet _
  split at hr
  · cases hr
  rename_i s₁ hwrite
  obtain ⟨_, rfl⟩ := Prod.mk.inj hwrite
  obtain ⟨hin, hcoming⟩ : (s.write packet).2.In packets tail ∧
    (s.write packet).2.coming = s.coming := h.same rfl rfl rfl
  obtain ⟨hin', dropped, event, hupcoming, hdropped, hanswer⟩ := hin.awaitAnswer htail _ hr
  refine ⟨hin', dropped, event, ?_, hdropped, hanswer⟩
  rw [← hupcoming, H4Session.upcoming, H4Session.upcoming, hcoming]
  rfl

end

/-! ## No event is lost -/

def Call.IsCommand : Call → Bool
  | command .. => true
  | commandStatus .. => true
  | _ => false

/-- The event is what a command waited for, and gives its result. -/
def Answers (called : Call × CallResult) (event : HciEvent) : Prop :=
  match called with
  | (.command opcode _, .completed parameters) =>
    commandComplete event opcode = .ok (some parameters)
  | (.commandStatus opcode _, .accepted) => commandStatus event opcode = .ok true
  | _ => False

def commandsOf (calls : List Call) (results : List CallResult) : List (Call × CallResult) :=
  (calls.zip results).filter fun called => called.1.IsCommand

def CallResult.event? : CallResult → Option HciEvent
  | .event e => some e
  | _ => none

/-- Every event decoded so far is the answer of one command, was returned by one call or is
still pending, and those that were returned or are pending stand in the order of the stream. -/
def Accounted (calls : List Call) (results : List CallResult) (s : H4Session) : Prop :=
  ∃ answers, List.Forall₂ Answers (commandsOf calls results) answers ∧
    (results.filterMap CallResult.event? ++ s.pending).Sublist s.decoded ∧
    s.decoded.Perm (results.filterMap CallResult.event? ++ s.pending ++ answers)

/-- A command is made when the first of the upcoming events is its answer. -/
def Call.Prompt (s : H4Session) : Call → Prop
  | command opcode _ => ∃ event later parameters, s.upcoming = event :: later ∧
    commandComplete event opcode = .ok (some parameters)
  | commandStatus opcode _ => ∃ event later, s.upcoming = event :: later ∧
    Hci.commandStatus event opcode = .ok true
  | _ => True

/-- Every command of a run is. -/
def Prompt (s : H4Session) : List Call → Prop
  | [] => True
  | call :: calls => call.Prompt s ∧ Prompt (call.run s).2 calls

theorem map_ok {α β : Type} {f : α → β} {x : Except HciContractError α} {b : β}
    (h : x.map f = .ok b) : ∃ a, x = .ok a ∧ f a = b := by
  cases x with
  | error e => cases h
  | ok a =>
    cases h
    exact ⟨a, rfl, rfl⟩

theorem statusAnswer_some {opcode : Int} {event : HciEvent} {u : Unit} :
    H4Session.statusAnswer opcode event = .ok (some u) ↔ commandStatus event opcode = .ok true := by
  unfold H4Session.statusAnswer
  cases commandStatus event opcode with
  | error e => simp [Except.map]
  | ok accepted => cases accepted <;> simp [Except.map]

section
variable {packets : List H4Packet} {tail : List UInt8} {s s' : H4Session}

/-- What one call takes from the upcoming events: those it drops, then the one it returns or
that answers it. It drops none iff its answer comes first. -/
theorem Call.run_takes {call : Call} {result : CallResult} (htail : Incomplete tail)
    (h : s.In packets tail) (hr : call.run s = (.ok result, s')) :
    s'.In packets tail ∧ ∃ dropped answers,
      List.Forall₂ Answers (commandsOf [call] [result]) answers ∧
      s.upcoming = dropped ++ (result.event?.toList ++ answers) ++ s'.upcoming ∧
      (dropped = [] ↔ call.Prompt s) := by
  -- a command that dropped nothing has its answer in front, and one that dropped some has not
  have hfirst : ∀ {α : Type} {answer : HciEvent → Except HciContractError (Option α)} {a : α}
      {dropped : List HciEvent}
      {event : HciEvent}, s.upcoming = dropped ++ event :: s'.upcoming →
      (∀ e ∈ dropped, answer e = .ok none) → answer event = .ok (some a) →
      (dropped = [] ↔ ∃ e later b, s.upcoming = e :: later ∧ answer e = .ok (some b)) := by
    intro α answer a dropped event hupcoming hdropped hanswer
    constructor
    · rintro rfl
      exact ⟨event, _, a, hupcoming, hanswer⟩
    · rintro ⟨e, later, b, hfront, he⟩
      cases dropped with
      | nil => rfl
      | cons first more =>
        rw [hupcoming] at hfront
        cases hfront
        cases he.symm.trans (hdropped e (List.mem_cons_self ..))
  cases call with
  | nextEvent =>
    obtain ⟨hresult, rfl⟩ := Prod.mk.inj hr
    obtain ⟨event, hevent, rfl⟩ := map_ok hresult
    obtain ⟨hin, hupcoming⟩ := h.nextEvent htail (Prod.ext hevent rfl)
    exact ⟨hin, [], [], List.Forall₂.nil, hupcoming, by simp [Call.Prompt]⟩
  | waitForAcl =>
    obtain ⟨hresult, rfl⟩ := Prod.mk.inj hr
    obtain ⟨packet, hpacket, rfl⟩ := map_ok hresult
    obtain ⟨hin, hupcoming⟩ := h.waitForAcl htail (Prod.ext hpacket rfl)
    exact ⟨hin, [], [], List.Forall₂.nil, hupcoming, by simp [Call.Prompt]⟩
  | command opcode parameters =>
    obtain ⟨hresult, rfl⟩ := Prod.mk.inj hr
    obtain ⟨returned, hreturned, rfl⟩ := map_ok hresult
    obtain ⟨hin, dropped, event, hupcoming, hdropped, hanswer⟩ :=
      h.request htail (Prod.ext hreturned rfl)
    refine ⟨hin, dropped, [event], List.Forall₂.cons hanswer List.Forall₂.nil, ?_,
      hfirst hupcoming hdropped hanswer⟩
    rw [List.append_assoc]
    exact hupcoming
  | commandStatus opcode parameters =>
    obtain ⟨hresult, rfl⟩ := Prod.mk.inj hr
    obtain ⟨returned, hreturned, rfl⟩ := map_ok hresult
    obtain ⟨hin, dropped, event, hupcoming, hdropped, hanswer⟩ :=
      h.request htail (Prod.ext hreturned rfl)
    refine ⟨hin, dropped, [event],
      List.Forall₂.cons (statusAnswer_some.mp hanswer) List.Forall₂.nil, ?_, ?_⟩
    · rw [List.append_assoc]
      exact hupcoming
    · rw [hfirst hupcoming hdropped hanswer]
      simp [Call.Prompt, statusAnswer_some]

/-- What a run takes from the upcoming events. -/
theorem runCalls_takes (htail : Incomplete tail) (calls : List Call) (results : List CallResult)
    (s : H4Session) (h : s.In packets tail) (hr : runCalls s calls = (.ok results, s')) :
    s'.In packets tail ∧ ∃ taken dropped answers, s.upcoming = taken ++ s'.upcoming ∧
      List.Forall₂ Answers (commandsOf calls results) answers ∧
      (results.filterMap CallResult.event?).Sublist taken ∧
      taken.Perm (results.filterMap CallResult.event? ++ answers ++ dropped) ∧
      (dropped = [] ↔ Prompt s calls) := by
  induction calls generalizing s results with
  | nil =>
    cases hr
    exact ⟨h, [], [], [], rfl, List.Forall₂.nil, List.Sublist.refl _, List.Perm.refl _,
      by simp [Prompt]⟩
  | cons call calls ih =>
    rw [runCalls] at hr
    split at hr
    · cases hr
    rename_i result s₁ hcall
    obtain ⟨hresults, rfl⟩ := Prod.mk.inj hr
    obtain ⟨later, hlater, rfl⟩ := map_ok hresults
    -- The first call takes a beginning of the events, the others go on behind it.
    obtain ⟨hin₁, dropped, answers, hanswers, hupcoming, hprompt⟩ := Call.run_takes htail h hcall
    obtain ⟨hin, taken', dropped', answers', hrest, hanswers', hsublist, hperm, hprompt'⟩ :=
      ih later s₁ hin₁ (Prod.ext hlater rfl)
    have hevents : (result :: later).filterMap CallResult.event? =
        result.event?.toList ++ later.filterMap CallResult.event? := by
      rw [List.filterMap_cons]
      cases result.event? <;> rfl
    have hcommands : commandsOf (call :: calls) (result :: later) = commandsOf [call] [result] ++
        commandsOf calls later := by
      show List.filter _ (_ :: _) = _
      rw [List.filter_cons]
      simp only [commandsOf, List.zip_cons_cons, List.zip_nil_right, List.filter_cons,
        List.filter_nil]
      split <;> rfl
    refine ⟨hin, dropped ++ (result.event?.toList ++ answers) ++ taken', dropped ++ dropped',
      answers ++ answers', ?_, ?_, ?_, ?_, ?_⟩
    · rw [hupcoming, hrest]
      simp only [List.append_assoc]
    · rw [hcommands]
      exact List.rel_append hanswers hanswers'
    · rw [hevents]
      refine List.Sublist.append ?_ hsublist
      exact (List.sublist_append_left _ _).trans (List.sublist_append_right _ _)
    · rw [hevents]
      refine List.perm_iff_count.mpr fun event => ?_
      have hcount := hperm.count_eq event
      simp only [List.count_append] at hcount ⊢
      omega
    · rw [List.append_eq_nil_iff, hprompt, hprompt', Prompt, hcall]

/-- **No event is lost iff no command drops one.** After any calls that return, on a valid
stream in any chunks, every event decoded is accounted for iff each command was made when its
answer was the first of the upcoming events. -/
theorem events_accounted (packets : List H4Packet) (tail : List UInt8)
    (htail : Incomplete tail) (descriptor : Descriptor)
    (hstream : (descriptor.arrivals.filterMap id).flatten = streamBytes packets ++ tail)
    (calls : List Call) (results : List CallResult) (s : H4Session)
    (hrun : runCalls { descriptor } calls = (.ok results, s)) :
    Accounted calls results s ↔ Prompt { descriptor } calls := by
  have hbegin : H4Session.Within packets tail { descriptor } [] packets [] :=
    ⟨rfl, incomplete_nil, rfl, rfl, hstream⟩
  have hstart : H4Session.In packets tail { descriptor } := ⟨_, _, _, hbegin⟩
  obtain ⟨hin, taken, dropped, answers, hupcoming, hanswers, hsublist, hperm, hprompt⟩ :=
    runCalls_takes htail calls results _ hstart hrun
  -- what was decoded is what was taken and what is pending
  have hdecoded : s.decoded = taken ++ s.pending := by
    have htotal : s.decoded ++ s.coming = taken ++ s.pending ++ s.coming := by
      calc s.decoded ++ s.coming
          = streamEvents packets := hin.events htail
        _ = H4Session.upcoming { descriptor } := (hbegin.coming htail).symm
        _ = taken ++ s.pending ++ s.coming := by
          rw [hupcoming, H4Session.upcoming, List.append_assoc]
    exact List.append_cancel_right htotal
  rw [← hprompt]
  constructor
  · rintro ⟨answers', hanswers', _, hperm'⟩
    have hsame : answers'.length = answers.length :=
      hanswers'.length_eq.symm.trans hanswers.length_eq
    have htaken := hperm.length_eq
    have hall := hperm'.length_eq
    rw [hdecoded] at hall
    simp only [List.length_append] at htaken hall
    exact List.length_eq_zero_iff.mp (by omega)
  · rintro rfl
    refine ⟨answers, hanswers, ?_, ?_⟩
    · rw [hdecoded]
      exact hsublist.append (List.Sublist.refl _)
    · rw [hdecoded]
      refine List.perm_iff_count.mpr fun event => ?_
      have hcount := hperm.count_eq event
      simp only [List.count_append, List.count_nil] at hcount ⊢
      omega

end

/-! A reset while a link goes down. -/

def disconnected : H4Packet := .event 0x05 [0x00, 0x40, 0x00, 0x13] (by decide)
def resetComplete : H4Packet := .event eventCommandCompleteCode [0x01, 0x03, 0x0c, 0x00] (by decide)

/-- One packet a read, and room for one command. -/
def resetPort (packets : List H4Packet) : Descriptor where
  arrivals := packets.map fun packet => some packet.bytes
  room := [some 4]

/-- The reset is written, and what was read is in the transcript. -/
def resetSent (unread read : List H4Packet) : H4Session where
  descriptor := { arrivals := unread.map fun packet => some packet.bytes, written :=
    [h4Command, 0x03, 0x0c, 0x00] }
  transcript := streamBytes read

theorem reset_packet : commandPacket 0x0c03 [] = .ok [h4Command, 0x03, 0x0c, 0x00] := by
  decide +kernel

theorem reset_completes : commandComplete ⟨eventCommandCompleteCode,
      [0x01, 0x03, 0x0c, 0x00]⟩ 0x0c03 = .ok (some []) := by
  decide +kernel

/-- The answer comes first: the other event is returned by the next call. -/
theorem reset_prompt : runCalls { descriptor := resetPort [resetComplete, disconnected] }
      [.command 0x0c03 [], .nextEvent] =
    (.ok [.completed [], .event ⟨0x05, [0x00, 0x40, 0x00, 0x13]⟩],
      resetSent [] [resetComplete, disconnected]) := by
  have hwrite : H4Session.write [h4Command, 0x03, 0x0c, 0x00]
      { descriptor := resetPort [resetComplete, disconnected] } =
      (.ok (), resetSent [resetComplete, disconnected] []) := by decide +kernel
  have hfirst : (resetSent [resetComplete, disconnected] []).nextEvent =
      (.ok ⟨eventCommandCompleteCode, [0x01, 0x03, 0x0c, 0x00]⟩,
        resetSent [disconnected] [resetComplete]) := by decide +kernel
  have hsecond : (resetSent [disconnected] [resetComplete]).nextEvent =
      (.ok ⟨0x05, [0x00, 0x40, 0x00, 0x13]⟩, resetSent [] [resetComplete, disconnected]) := by
        decide +kernel
  have hcommand :
      H4Session.command 0x0c03 [] { descriptor := resetPort [resetComplete, disconnected] } =
      (.ok [], resetSent [disconnected] [resetComplete]) := by
    rw [H4Session.command, H4Session.request, reset_packet]
    simp only [hwrite]
    rw [H4Session.awaitAnswer, hfirst]
    simp only [reset_completes]
  simp [runCalls, Call.run, hcommand, hsecond, Except.map]

theorem events_accounted_reset :
    Accounted [.command 0x0c03 [], .nextEvent] [.completed [],
      .event ⟨0x05, [0x00, 0x40, 0x00, 0x13]⟩]
      (resetSent [] [resetComplete, disconnected]) := by
  refine (events_accounted [resetComplete, disconnected] [] incomplete_nil
    (resetPort [resetComplete, disconnected]) rfl _ _ _
    reset_prompt).mpr ⟨?_, trivial, trivial⟩
  refine ⟨⟨eventCommandCompleteCode, [0x01, 0x03, 0x0c, 0x00]⟩, [⟨0x05, [0x00, 0x40, 0x00, 0x13]⟩],
    [], ?_, reset_completes⟩
  decide +kernel

/-- The other event comes first: the command drops it, and no call returns it. -/
theorem reset_drops : ∃ s,
      runCalls { descriptor := resetPort [disconnected, resetComplete] } [.command 0x0c03 []] =
    (.ok [.completed []], s) ∧ s.decoded = [⟨0x05, [0x00, 0x40, 0x00, 0x13]⟩,
      ⟨eventCommandCompleteCode, [0x01, 0x03, 0x0c, 0x00]⟩] ∧
      s.pending = [] ∧ ¬ Accounted [.command 0x0c03 []] [.completed []] s := by
  have hwrite : H4Session.write [h4Command, 0x03, 0x0c, 0x00]
      { descriptor := resetPort [disconnected, resetComplete] } =
      (.ok (), resetSent [disconnected, resetComplete] []) := by decide +kernel
  have hfirst : (resetSent [disconnected, resetComplete] []).nextEvent =
      (.ok ⟨0x05, [0x00, 0x40, 0x00, 0x13]⟩, resetSent [resetComplete] [disconnected]) := by
        decide +kernel
  have hsecond : (resetSent [resetComplete] [disconnected]).nextEvent =
      (.ok ⟨eventCommandCompleteCode, [0x01, 0x03, 0x0c, 0x00]⟩,
        resetSent [] [disconnected, resetComplete]) := by decide +kernel
  have hother : commandComplete ⟨0x05, [0x00, 0x40, 0x00, 0x13]⟩ 0x0c03 = .ok none := by
    decide +kernel
  have hcommand :
      H4Session.command 0x0c03 [] { descriptor := resetPort [disconnected, resetComplete] } =
      (.ok [], resetSent [] [disconnected, resetComplete]) := by
    rw [H4Session.command, H4Session.request, reset_packet]
    simp only [hwrite]
    rw [H4Session.awaitAnswer, hfirst]
    simp only [hother]
    rw [H4Session.awaitAnswer, hsecond]
    simp only [reset_completes]
  have hdecoded : (resetSent [] [disconnected, resetComplete]).decoded =
      [⟨0x05, [0x00, 0x40, 0x00, 0x13]⟩, ⟨eventCommandCompleteCode, [0x01, 0x03, 0x0c, 0x00]⟩] := by
        decide +kernel
  refine ⟨resetSent [] [disconnected, resetComplete], ?_, hdecoded, rfl, ?_⟩
  · simp [runCalls, Call.run, hcommand, Except.map]
  · rintro ⟨answers, hanswers, _, hperm⟩
    have hone : answers.length = 1 := hanswers.length_eq.symm
    have hall := hperm.length_eq
    rw [hdecoded, List.length_append, hone] at hall
    simp [resetSent] at hall
    exact absurd hall (by decide)

end NrfKit.Hci
