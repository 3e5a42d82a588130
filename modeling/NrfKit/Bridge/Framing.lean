import NrfKit.Bridge.Ring

/- What the bridge makes of the packets of the host. `main` takes a packet only where it
   counted all of its bytes, so between two passes it has consumed whole packets; what is
   left when it leaves the loop is the beginning of the next one (`Left`). A pass that is
   interrupted has handed on whole packets and owes at most one reply (`Handing`). -/
namespace NrfKit.Bridge
open Interleave Objects Ring Hci Bytes

/-! ## The packets of the host -/

/-- A packet as the host writes it. -/
inductive HostPacket where
  | command (opcode : Int) (parameters bytes : List UInt8)
      (built : commandPacket opcode parameters = .ok bytes)
  | acl (packet bytes : List UInt8) (built : aclPut packet = .ok bytes)
    (short : packet.length ≤ 258)

namespace HostPacket

def bytes : HostPacket → List UInt8
  | command _ _ bytes _ => bytes
  | acl _ bytes _ _ => bytes

def isCommand : HostPacket → Bool
  | command .. => true
  | acl .. => false

def type : HostPacket → UInt8
  | command .. => 0x01
  | acl .. => 0x02

/-- The packet as it is to be handed on. -/
def handed : HostPacket → Handed
  | command _ _ bytes _ => .command (bytes.drop 1)
  | acl _ bytes _ _ => .acl (bytes.drop 1)

end HostPacket

def hostBytes (packets : List HostPacket) : List UInt8 := packets.flatMap HostPacket.bytes

/-- The replies owed for these packets. -/
def commands (packets : List HostPacket) : Nat := packets.countP HostPacket.isCommand

/-- One H4 event, whose length byte matches. -/
def IsEvent (reply : List UInt8) : Prop :=
  ∃ code parameters, parameters.length ≤ 0xFF ∧
    reply = h4Event :: code :: UInt8.ofNat parameters.length :: parameters

/-- The reasons for which `main` may stand still on such a stream. -/
def Stop.Permitted : Stop → Prop
  | .outOfBounds | .packetSize | .reply => False
  | .uartFault | .timeslotRequest | .messageType | .send => True

namespace HostPacket

end HostPacket

theorem hostBytes_cons (packet : HostPacket) (packets : List HostPacket) :
    hostBytes (packet :: packets) = packet.bytes ++ hostBytes packets := List.flatMap_cons

theorem hostBytes_append (front back : List HostPacket) :
    hostBytes (front ++ back) = hostBytes front ++ hostBytes back := List.flatMap_append

/-- `main` is between two packets: `done` are behind it, `rest` ahead. -/
structure Boundary (packets done rest : List HostPacket) (s : State) : Prop where
  split : packets = done ++ rest
  arrived : s.uart.stored <+: hostBytes packets
  consumed : s.main.consumed = hostBytes done
  handed : s.main.handed = done.map HostPacket.handed
  replies : ∀ reply ∈ s.main.replies, IsEvent reply
  answered : s.main.replies.length = commands done

/-- What was there when `main` counted last is the beginning of the next packet, and not
all of it. -/
def Left (rest : List HostPacket) (s : State) : Prop :=
  s.main.counted ≤ s.unread ∧
    match rest with
    | [] => (s.uart.stored.drop s.main.consumed.length).take s.main.counted = []
    | packet :: _ =>
      (s.uart.stored.drop s.main.consumed.length).take s.main.counted <+: packet.bytes ∧
        ((s.uart.stored.drop s.main.consumed.length).take s.main.counted).length <
          packet.bytes.length

/-- In a pass: the packets handed on, and whether a reply is owed. -/
structure Handing (packets done : List HostPacket) (s : State) : Prop where
  started : done <+: packets
  arrived : s.uart.stored <+: hostBytes packets
  handed : s.main.handed = done.map HostPacket.handed
  replies : ∀ reply ∈ s.main.replies, IsEvent reply
  owed : s.main.replies.length ≤ commands done ∧ commands done ≤ s.main.replies.length + 1

variable (packets : List HostPacket)

def Between (s : State) : Prop :=
  ∃ done rest, Boundary packets done rest s ∧ (s.main.stage ≠ .packets → Left rest s)

def During (phase : Phase) (s : State) : Prop :=
  ∃ done, Handing packets done s ∧
    match phase with
    | .stopped reason => reason.Permitted ∧ s.main.replies.length = commands done
    | _ => True

section
variable {packets} {done rest : List HostPacket} {packet : HostPacket} {s s' : State}

theorem Boundary.handing (h : Boundary packets done rest s) : Handing packets done s where
  started := ⟨rest, h.split.symm⟩
  arrived := h.arrived
  handed := h.handed
  replies := h.replies
  owed := by
    rw [h.answered]
    omega

theorem Boundary.later (h : Boundary packets done rest s) (hlater : Later s s')
    (harrived : s'.uart.stored <+: hostBytes packets) : Boundary packets done rest s' := by
  obtain ⟨hsplit, _, hconsumed, hhanded, hreplies, hanswered⟩ := h
  rw [← hlater.main] at hconsumed hhanded hreplies hanswered
  exact ⟨hsplit, harrived, hconsumed, hhanded, hreplies, hanswered⟩

theorem During.arrived {phase : Phase} (h : During packets phase s) :
    s.uart.stored <+: hostBytes packets := by
  obtain ⟨done, hhanding, _⟩ := h
  exact hhanding.arrived

/-- What is in the ring, if `main` is between two packets. -/
theorem Boundary.ahead (h : Boundary packets done rest s) (hring : RingOk s) :
    s.uart.stored.drop s.main.consumed.length <+: hostBytes rest := by
  obtain ⟨more, hmore⟩ := hring.consumed
  have harrived := h.arrived
  rw [← hmore, h.consumed, h.split, hostBytes_append, List.prefix_append_right_inj] at harrived
  rwa [← hmore, List.drop_left]

theorem Boundary.nonempty (h : Boundary packets done rest s) (hring : RingOk s)
    (hunread : 0 < s.unread) :
    ∃ packet rest', rest = packet :: rest' := by
  have hahead := h.ahead hring
  cases rest with
  | nil =>
    have hlength := hahead.length_le
    rw [List.length_drop] at hlength
    have : s.unread = s.uart.stored.length - s.main.consumed.length := rfl
    have : (hostBytes []).length = 0 := rfl
    omega
  | cons packet rest => exact ⟨packet, rest, rfl⟩

/-- The bytes ahead are those of the next packet. -/
theorem Boundary.byte (h : Boundary packets done (packet :: rest) s)
    (hring : RingOk s) {offset : Nat} {value : UInt8}
    (hvalue : s.uart.stored[s.main.consumed.length + offset]? = some value)
    (hoffset : offset < packet.bytes.length) : packet.bytes[offset]? = some value := by
  have hahead := h.ahead hring
  rw [hostBytes_cons] at hahead
  have hdrop : (s.uart.stored.drop s.main.consumed.length)[offset]? = some value := by
    rw [List.getElem?_drop]
    exact hvalue
  obtain ⟨more, hmore⟩ := hahead
  have hget : (packet.bytes ++ hostBytes rest)[offset]? = some value := by
    rw [← hmore, List.getElem?_append_left (List.getElem?_eq_some_iff.mp hdrop).1]
    exact hdrop
  rwa [List.getElem?_append_left hoffset] at hget

/-- More bytes may have come since. -/
theorem Left.later (h : Left rest s) (hlater : Later s s') : Left rest s' := by
  obtain ⟨hcounted, htail⟩ := h
  obtain ⟨more, hmore⟩ := hlater.stored
  have hsame : (s'.uart.stored.drop s'.main.consumed.length).take s'.main.counted =
      (s.uart.stored.drop s.main.consumed.length).take s.main.counted := by
    have hle : s.main.counted ≤ (s.uart.stored.drop s.main.consumed.length).length := by
      rw [List.length_drop]
      exact hcounted
    rw [hlater.main, ← hmore]
    by_cases hin : s.main.consumed.length ≤ s.uart.stored.length
    · rw [List.drop_append_of_le_length hin, List.take_append_of_le_length hle]
    · have hzero : s.main.counted = 0 := by
        rw [List.length_drop] at hle
        omega
      rw [hzero, List.take_zero, List.take_zero]
  have hunread := hlater.unread
  refine ⟨by rw [hlater.main]; omega, ?_⟩
  rw [hsame]
  exact htail

/-- As many bytes as the next packet has are that packet. -/
theorem Boundary.whole (h : Boundary packets done (packet :: rest) s) {values : List UInt8}
    (htook : Took s values s') (hring : RingOk s') (harrived : s'.uart.stored <+: hostBytes packets)
    (hlength : values.length = packet.bytes.length) : values = packet.bytes := by
  have hprefix := hring.consumed.trans harrived
  rw [htook.consumed, h.consumed, h.split, hostBytes_append, List.prefix_append_right_inj,
    hostBytes_cons] at hprefix
  have hshort : values <+: packet.bytes :=
    List.prefix_of_prefix_length_le hprefix (List.prefix_append ..) (by omega)
  exact hshort.eq_of_length hlength

end

/-! ## Replies -/

/-- The packets `done` are handed on, and the reply to the last of them is owed. -/
structure Owing (done rest : List HostPacket) (s : State) : Prop where
  split : packets = done ++ rest
  arrived : s.uart.stored <+: hostBytes packets
  consumed : s.main.consumed = hostBytes done
  handed : s.main.handed = done.map HostPacket.handed
  replies : ∀ reply ∈ s.main.replies, IsEvent reply
  owed : s.main.replies.length + 1 = commands done
  stage : s.main.stage = .packets

section
variable {packets} {done rest : List HostPacket} {s s' : State} {image : Image}

theorem Owing.handing (h : Owing packets done rest s) : Handing packets done s where
  started := ⟨rest, h.split.symm⟩
  arrived := h.arrived
  handed := h.handed
  replies := h.replies
  owed := by
    have := h.owed
    omega

theorem Owing.later (h : Owing packets done rest s) (hlater : Later s s')
    (harrived : s'.uart.stored <+: hostBytes packets) : Owing packets done rest s' := by
  obtain ⟨hsplit, _, hconsumed, hhanded, hreplies, howed, hstage⟩ := h
  rw [← hlater.main] at hconsumed hhanded hreplies howed hstage
  exact ⟨hsplit, harrived, hconsumed, hhanded, hreplies, howed, hstage⟩

variable {low high : UInt8} {parameters : List UInt8} {cells : Object UInt8}

end

/-! ## Passes -/

section
variable {packets} {done rest : List HostPacket} {packet : HostPacket} {s s' : State}
    {image : Image}

theorem Between.later (h : Between packets s) (hlater : Later s s')
    (harrived : s'.uart.stored <+: hostBytes packets) : Between packets s' := by
  obtain ⟨done, rest, hboundary, hleft⟩ := h
  refine ⟨done, rest, hboundary.later hlater harrived, ?_⟩
  intro hne
  rw [hlater.main] at hne
  exact (hleft hne).later hlater

theorem Between.during (h : Between packets s) {phase : Phase}
    (hphase : ∀ reason, phase = .stopped reason → reason.Permitted) : During packets phase s := by
  obtain ⟨done, rest, hboundary, _⟩ := h
  refine ⟨done, hboundary.handing, ?_⟩
  cases phase with
  | stopped reason => exact ⟨hphase reason rfl, hboundary.answered⟩
  | _ => trivial

end

/-! ## Every run -/

/-- Why `main` stands still, if it does. -/
def stopped (c : Config State Query Query.Answer Unit) : Option Stop :=
  match c.queries with
  | ⟨_, .stopped reason⟩ :: _ => some reason
  | _ => none

/-- What the bridge has made of the packets `done`, with `rest` to come. -/
structure Framed (done rest : List HostPacket) (c : Config State Query Query.Answer Unit) :
    Prop where
  handed : c.state.main.handed = done.map HostPacket.handed
  replies : ∀ reply ∈ c.state.main.replies, IsEvent reply
  owed : c.state.main.replies.length ≤ commands done ∧
    commands done ≤ c.state.main.replies.length + 1
  inBounds : c.state.uart.outOfBounds = false
  stops : ∀ reason, stopped c = some reason →
    reason.Permitted ∧ c.state.main.replies.length = commands done
  answered : c.queries = [] → c.state.main.replies.length = commands done
  consumed : c.queries = [] → c.state.main.consumed = hostBytes done
  left : c.queries = [] → c.state.main.stage ≠ .packets → Left rest c.state

/-- When everything had arrived, everything has been handed on. -/
theorem Framed.complete {done rest : List HostPacket} {c : Config State Query Query.Answer Unit}
    (h : Framed done rest c) (hidle : c.queries = []) (hstage : c.state.main.stage ≠ .packets)
    (hall : c.state.main.counted = (hostBytes rest).length) : rest = [] := by
  obtain ⟨hcounted, hleft⟩ := h.left hidle hstage
  cases rest with
  | nil => rfl
  | cons packet rest =>
    obtain ⟨_, hshort⟩ := hleft
    rw [List.length_take, List.length_drop] at hshort
    rw [hostBytes_cons, List.length_append] at hall
    have hunread : c.state.unread = c.state.uart.stored.length - c.state.main.consumed.length := rfl
    omega

end NrfKit.Bridge
