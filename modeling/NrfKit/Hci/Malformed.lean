import NrfKit.Hci.Stream

/- A packet type the parser does not know, after some whole packets. Every call that meets
   it raises, and the buffer keeps it at the front, so no later call returns anything. The
   ACL packets before it are kept by the parser. The events are in the lists that the calls
   return, and the raising call returns none: it drops the events it has decoded itself.

   Which ones these are depends on the chunks (`malformed_delivered`). -/
namespace NrfKit.Hci
open Bytes

/-- Every call of `feed`, the raising ones included: a parser is as usable after them. -/
def feedEach (parser : H4EventParser) :
    List (List UInt8) → List (Except HciContractError (List HciEvent)) × H4EventParser
  | [] => ([], parser)
  | chunk :: chunks =>
    let (result, parser) := parser.feed chunk
    let (results, parser) := feedEach parser chunks
    (result :: results, parser)

/-- The events of one call. -/
def returnedBy : Except HciContractError (List HciEvent) → List HciEvent
  | .ok events => events
  | .error _ => []

/-- The events the calls have returned. -/
def returned (results : List (Except HciContractError (List HciEvent))) : List HciEvent :=
  results.flatMap returnedBy

/-- The calls have delivered the packets. -/
structure Delivered (packets : List H4Packet)
    (calls : List (Except HciContractError (List HciEvent)) × H4EventParser) : Prop where
  events : returned calls.1 = streamEvents packets
  acls : calls.2.aclPackets = streamAcls packets

/-- Where the chunk that has the byte at `position` begins. -/
def chunkStart : List (List UInt8) → Nat → Nat
  | [], _ => 0
  | chunk :: chunks, position =>
    if chunk.length ≤ position then
      chunk.length + chunkStart chunks (position - chunk.length) else 0

/-! ## Calls that raise -/

/-- A type that is neither ACL nor an event. -/
def Unexpected (type : UInt8) : Prop := type ≠ h4Acl ∧ type ≠ h4Event

section
variable {bad : UInt8} (hbad : Unexpected bad)
include hbad

theorem feedLoop_unexpected (rest : List UInt8) (acls : List (List UInt8))
    (events : List HciEvent) :
    feedLoop (bad :: rest) acls events = (.error (.unexpectedPacket bad), ⟨bad :: rest, acls⟩) := by
  rw [feedLoop.eq_def]
  dsimp only
  rw [if_neg hbad.1, if_pos hbad.2]

/-- Nothing gets past the byte. -/
theorem feedEach_unexpected (chunks : List (List UInt8)) (rest : List UInt8)
    (acls : List (List UInt8)) :
    returned (feedEach ⟨bad :: rest, acls⟩ chunks).1 = [] ∧
    (feedEach ⟨bad :: rest, acls⟩ chunks).2.aclPackets = acls := by
  induction chunks generalizing rest with
  | nil => exact ⟨rfl, rfl⟩
  | cons chunk chunks ih =>
    have hcall : H4EventParser.feed ⟨bad :: rest, acls⟩ chunk =
        (.error (.unexpectedPacket bad), ⟨bad :: (rest ++ chunk), acls⟩) :=
          feedLoop_unexpected hbad (rest ++ chunk) acls []
    rw [feedEach, hcall]
    dsimp only
    rw [returned, List.flatMap_cons]
    exact ih (rest ++ chunk)

end

/-! ## What is left of a packet -/

/-- The loop only takes from the front. -/
theorem feedLoop_length (buffer : List UInt8) (acls : List (List UInt8)) (events : List HciEvent) :
    (feedLoop buffer acls events).2.buffer.length ≤ buffer.length := by
  fun_induction feedLoop buffer acls events with
  | case1 => simp
  | case2 => simp
  | case3 acls events rest size hlong ih =>
    simp only [List.length_drop, List.length_cons] at ih ⊢
    omega
  | case4 => simp
  | case5 => simp
  | case6 acls events _ _ _ code size rest hlong ih =>
    simp only [List.length_drop, List.length_cons] at ih ⊢
    omega
  | case7 => simp

/-- A part of a packet is shorter than the packet that stands there. -/
theorem Incomplete.short {part back more : List UInt8} {packet : H4Packet} (h : Incomplete part)
    (heq : part ++ back = packet.bytes ++ more) : part.length < packet.bytes.length := by
  rcases List.append_eq_append_iff.mp heq with ⟨missing, hpacket, _⟩ | ⟨extra, hpart, _⟩
  · by_cases hnil : missing = []
    · -- a whole packet is not kept
      subst hnil
      rw [List.append_nil] at hpacket
      have hkept := feedLoop_incomplete h [] []
      have htaken := feedLoop_packet packet [] [] []
      rw [List.append_nil, hpacket, hkept, feedLoop] at htaken
      have hlength := congrArg (fun r => r.2.buffer.length) htaken
      have hsome : 0 < packet.bytes.length := by cases packet <;> exact Nat.succ_pos _
      rw [hpacket] at hsome
      simp only [List.length_nil] at hlength
      omega
    · have := List.length_pos_iff.mpr hnil
      rw [hpacket, List.length_append]
      omega
  · have hkept := feedLoop_incomplete h [] []
    rw [hpart, feedLoop_packet] at hkept
    have hless := feedLoop_length extra ([] ++ packet.acl?.toList) ([] ++ packet.event?.toList)
    rw [hkept] at hless
    have hsome : 0 < packet.bytes.length := by cases packet <;> exact Nat.succ_pos _
    simp only [List.length_append] at hless
    omega

/-! ## The calls before the byte -/

section
variable {bad : UInt8} (hbad : Unexpected bad)
include hbad

/-- A part of a packet does not reach the byte. -/
theorem Incomplete.before {part back rest : List UInt8} {packets : List H4Packet}
    (h : Incomplete part) (heq : part ++ back = streamBytes packets ++ bad :: rest) :
    part.length ≤ (streamBytes packets).length := by
  cases packets with
  | nil =>
    cases part with
    | nil => exact Nat.zero_le _
    | cons type more =>
      obtain ⟨rfl, _⟩ := List.cons.inj heq
      have hkept := feedLoop_incomplete h [] []
      rw [feedLoop_unexpected hbad] at hkept
      cases hkept
  | cons packet packets =>
    rw [streamBytes, List.flatMap_cons, List.append_assoc] at heq
    have hshort := h.short heq
    rw [streamBytes, List.flatMap_cons, List.length_append]
    omega

/-- The calls return the packets that are whole when the chunk with the byte begins; of the
next one there is a part. -/
theorem feedEach_malformed (rest : List UInt8) :
    ∀ (chunks : List (List UInt8)) (packets : List H4Packet) (part : List UInt8)
      (acls : List (List UInt8)),
      Incomplete part → part ++ chunks.flatten = streamBytes packets ++ bad :: rest →
        ∃ done late kept back, packets = done ++ late ∧ Incomplete kept ∧
          kept ++ back = streamBytes late ++ bad :: rest ∧
          (streamBytes done).length + kept.length =
            part.length + chunkStart chunks ((streamBytes packets).length - part.length) ∧
          returned (feedEach ⟨part, acls⟩ chunks).1 = streamEvents done ∧
          (feedEach ⟨part, acls⟩ chunks).2.aclPackets = acls ++ streamAcls packets
  | [], packets, part, acls, hpart, hbytes => by
    -- a part of a packet has no such byte
    rw [List.flatten_nil, List.append_nil] at hbytes
    have hkept := feedLoop_incomplete hpart [] []
    rw [hbytes, feedLoop_packets, feedLoop_unexpected hbad] at hkept
    cases hkept
  | chunk :: chunks, packets, part, acls, hpart, hbytes => by
    have hwithin := hpart.before hbad hbytes
    rw [List.flatten_cons, ← List.append_assoc] at hbytes
    have hcut : (∃ more, streamBytes packets = part ++ chunk ++ more ∧
        chunks.flatten = more ++ bad :: rest) ∨
        ∃ extra, part ++ chunk = streamBytes packets ++ bad :: extra := by
      rcases List.append_eq_append_iff.mp hbytes with ⟨more, hpackets, hrest⟩ | ⟨extra,
        hchunk, hrest⟩
      · exact Or.inl ⟨more, hpackets, hrest⟩
      · cases extra with
        | nil => exact Or.inl ⟨[], by simpa using hchunk.symm, by simpa using hrest.symm⟩
        | cons type extra =>
          obtain ⟨rfl, _⟩ := List.cons.inj hrest
          exact Or.inr ⟨extra, hchunk⟩
    rcases hcut with ⟨more, hpackets, hrest⟩ | ⟨extra, hchunk⟩
    · -- the chunk ends before the byte
      have hcut : streamBytes packets ++ [] = (part ++ chunk) ++ more := by
        rw [List.append_nil, hpackets]
      obtain ⟨before, after, part', rfl, hfront, hpart', hback⟩ := stream_cut incomplete_nil hcut
      rw [List.append_nil] at hback
      have hnext : part' ++ chunks.flatten = streamBytes after ++ bad :: rest := by
        rw [hrest, ← List.append_assoc, hback]
      obtain ⟨done, late, kept, back, rfl, hkept, hkeptBytes, hlength, hevents, hacls⟩ :=
        feedEach_malformed rest chunks after part' (acls ++ streamAcls before) hpart' hnext
      have hcall : H4EventParser.feed ⟨part, acls⟩ chunk =
          (.ok (streamEvents before), ⟨part', acls ++ streamAcls before⟩) := by
        rw [H4EventParser.feed, hfront, feedLoop_packets, feedLoop_incomplete hpart']
        rfl
      refine ⟨before ++ done, late, kept, back, (List.append_assoc ..).symm, hkept,
        hkeptBytes, ?_, ?_, ?_⟩
      · have hstream := congrArg List.length hpackets
        have hconsumed := congrArg List.length hfront
        have hlater := congrArg List.length hback
        simp only [streamBytes, List.flatMap_append, List.length_append]
          at hstream hconsumed hlater hlength hwithin ⊢
        rw [chunkStart, if_pos (by omega)]
        have hposition : ∀ n m, n = m → chunkStart chunks n = chunkStart chunks m :=
          fun _ _ h => h ▸ rfl
        have := hposition ((done.flatMap H4Packet.bytes).length +
          (late.flatMap H4Packet.bytes).length - part'.length)
          ((before.flatMap H4Packet.bytes).length +
            ((done.flatMap H4Packet.bytes).length + (late.flatMap H4Packet.bytes).length) -
            part.length - chunk.length) (by omega)
        omega
      · rw [feedEach, hcall]
        dsimp only
        rw [returned, List.flatMap_cons, streamEvents_append]
        exact congrArg (streamEvents before ++ ·) hevents
      · rw [feedEach, hcall]
        dsimp only
        rw [hacls, streamAcls_append before, List.append_assoc]
    · -- the call meets the byte and drops what it has decoded
      have hcall : H4EventParser.feed ⟨part, acls⟩ chunk =
          (.error (.unexpectedPacket bad), ⟨bad :: extra, acls ++ streamAcls packets⟩) := by
        rw [H4EventParser.feed, hchunk, feedLoop_packets, feedLoop_unexpected hbad]
      obtain ⟨hnothing, hkept⟩ := feedEach_unexpected hbad chunks extra (acls ++ streamAcls packets)
      have hlength := congrArg List.length hchunk
      simp only [List.length_append, List.length_cons] at hlength
      refine ⟨[], packets, part, chunk ++ chunks.flatten, rfl, hpart,
        by rw [← List.append_assoc, hbytes], ?_, ?_, ?_⟩
      · rw [chunkStart, if_neg (by omega), Nat.add_zero]
        exact Nat.zero_add _
      · rw [feedEach, hcall]
        dsimp only
        rw [returned, List.flatMap_cons]
        exact hnothing
      · rw [feedEach, hcall]
        exact hkept

end

theorem streamEvents_nil {packets : List H4Packet} :
    streamEvents packets = [] ↔ ∀ packet ∈ packets, packet.event? = none :=
  List.filterMap_eq_nil_iff

/-- Nothing before the byte is lost iff no event packet ends in the chunk the byte is in. -/
theorem malformed_delivered (packets : List H4Packet) (bad : UInt8)
    (rest : List UInt8) (chunks : List (List UInt8)) (hbad : Unexpected bad)
    (hchunks : chunks.flatten = streamBytes packets ++ bad :: rest) :
    Delivered packets (feedEach {} chunks) ↔
      ∀ before packet after, packets = before ++ packet :: after → packet.event?.isSome →
        (streamBytes before ++ packet.bytes).length ≤ chunkStart chunks
          (streamBytes packets).length := by
  obtain ⟨done, late, kept, back, rfl, hkept, hkeptBytes, hlength, hevents, hacls⟩ :=
    feedEach_malformed hbad rest chunks packets [] [] incomplete_nil hchunks
  simp only [List.length_nil, Nat.zero_add, Nat.sub_zero] at hlength
  have hdelivered : Delivered (done ++ late) (feedEach {} chunks) ↔ streamEvents late = [] := by
    constructor
    · intro hall
      have hboth := hall.events
      rw [hevents, streamEvents_append] at hboth
      exact List.self_eq_append_right.mp hboth
    · intro hnone
      exact ⟨by rw [hevents, streamEvents_append, hnone, List.append_nil], by simpa using hacls⟩
  rw [hdelivered, streamEvents_nil]
  constructor
  · intro hnone before packet after hsplit hevent
    rw [← hlength]
    rcases List.append_eq_append_iff.mp hsplit with ⟨middle, hbefore,
      hlate⟩ | ⟨middle, hdone, hrest⟩
    · -- a packet that came too late is no event
      have hmem : packet ∈ late := by
        rw [hlate]
        exact List.mem_append_right _ (List.mem_cons_self ..)
      rw [hnone packet hmem] at hevent
      cases hevent
    · cases middle with
      | nil =>
        have hmem : packet ∈ late := by
          rw [List.nil_append] at hrest
          rw [← hrest]
          exact List.mem_cons_self ..
        rw [hnone packet hmem] at hevent
        cases hevent
      | cons first middle =>
        obtain ⟨rfl, _⟩ := List.cons.inj hrest
        simp only [hdone, streamBytes, List.flatMap_append, List.flatMap_cons, List.length_append]
        omega
  · intro hall packet hpacket
    refine Classical.byContradiction fun hevent => ?_
    obtain ⟨front, after, rfl⟩ := List.append_of_mem hpacket
    have hend := hall (done ++ front) packet after
      (by rw [List.append_assoc]) (Option.isSome_iff_ne_none.mpr hevent)
    rw [← hlength] at hend
    -- the part that is kept is shorter than the first packet that is not returned
    cases front with
    | nil =>
      rw [List.nil_append, streamBytes, List.flatMap_cons, List.append_assoc] at hkeptBytes
      have hshort := hkept.short hkeptBytes
      simp only [List.append_nil, List.length_append] at hend
      omega
    | cons first front =>
      rw [List.cons_append, streamBytes, List.flatMap_cons, List.append_assoc] at hkeptBytes
      have hshort := hkept.short hkeptBytes
      simp only [streamBytes, List.flatMap_append, List.flatMap_cons, List.length_append] at hend
      omega

/-- A Command Complete that ends in one call, the byte in the next: the event is returned. -/
theorem malformed_delivered_apart :
    Delivered [.event 0x0e [0x01, 0x03, 0x0c, 0x00] (by decide)]
      (feedEach {} [[0x04, 0x0e, 0x04, 0x01, 0x03, 0x0c, 0x00], [0x03]]) := by
  refine (malformed_delivered _ 0x03 [] _ (by unfold Unexpected; decide) rfl).mpr
    fun before packet after hsplit _ => ?_
  cases before with
  | nil =>
    obtain ⟨rfl, rfl⟩ := List.cons.inj hsplit
    decide
  | cons first before =>
    have hlength := congrArg List.length hsplit
    simp only [List.cons_append, List.length_cons, List.length_append, List.length_nil] at hlength
    omega

/-- The event and the byte in one call: the event is gone. -/
theorem malformed_dropped :
    ¬ Delivered [.event 0x0e [0x01, 0x03, 0x0c, 0x00] (by decide)]
      (feedEach {} [[0x04, 0x0e, 0x04, 0x01, 0x03, 0x0c, 0x00, 0x03]]) := by
  intro h
  have hnone : returned (feedEach {} [[0x04, 0x0e, 0x04, 0x01, 0x03, 0x0c, 0x00, 0x03]]).1 =
      [] := by decide +kernel
  exact nomatch hnone.symm.trans h.events

end NrfKit.Hci
