import NrfKit.Hci.Host

/- Decoding an H4 stream that arrives in pieces. The parser consumes whole packets and
   keeps what is left; what it keeps is a proper prefix of a packet, so cutting the
   stream elsewhere only moves bytes between the buffer and the next call. -/
namespace NrfKit.Hci
open Bytes

/-! ## The stream -/

/-- A packet the controller may send. The lengths fit the length fields. -/
inductive H4Packet where
  | event (code : UInt8) (parameters : List UInt8) (fits : parameters.length ≤ 0xFF)
  | acl (low high : UInt8) (data : List UInt8) (fits : data.length ≤ 0xFFFF)

namespace H4Packet

/-- The packet after its H4 type byte. -/
def body : H4Packet → List UInt8
  | event code parameters _ => code :: UInt8.ofNat parameters.length :: parameters
  | acl low high data _ =>
    low :: high :: UInt8.ofNat data.length :: UInt8.ofNat (data.length / 256) :: data

def bytes : H4Packet → List UInt8
  | p@(event ..) => h4Event :: p.body
  | p@(acl ..) => h4Acl :: p.body

def event? : H4Packet → Option HciEvent
  | event code parameters _ => some ⟨code, parameters⟩
  | acl .. => none

def acl? : H4Packet → Option (List UInt8)
  | event .. => none
  | p@(acl ..) => some p.body

end H4Packet

def streamBytes (packets : List H4Packet) : List UInt8 := packets.flatMap H4Packet.bytes
def streamEvents (packets : List H4Packet) : List HciEvent := packets.filterMap H4Packet.event?
def streamAcls (packets : List H4Packet) : List (List UInt8) := packets.filterMap H4Packet.acl?

/-- The beginning of a packet that is not there whole. -/
def Incomplete (tail : List UInt8) : Prop :=
  ∃ (packet : H4Packet) (missing : List UInt8), missing ≠ [] ∧ packet.bytes = tail ++ missing

/-- One call of `feed` for each chunk: the lists the calls return, in order. -/
def feedAll (parser : H4EventParser) :
    List (List UInt8) → Except HciContractError (List (List HciEvent)) × H4EventParser
  | [] => (.ok [], parser)
  | chunk :: chunks =>
    match parser.feed chunk with
    | (.error error, parser) => (.error error, parser)
    | (.ok events, parser) =>
      let rest := feedAll parser chunks
      (rest.1.map (events :: ·), rest.2)

/-! ## One packet -/

theorem littleEndian_length (n : Nat) (h : n ≤ 0xFFFF) :
    littleEndian [UInt8.ofNat n, UInt8.ofNat (n / 256)] = n := by
  simp only [littleEndian_cons, littleEndian_nil, UInt8.toNat_ofNat']
  omega

/-- A whole packet at the front of the buffer is consumed. -/
theorem feedLoop_packet (packet : H4Packet) (rest : List UInt8) (acls : List (List UInt8))
    (events : List HciEvent) :
    feedLoop (packet.bytes ++ rest) acls events =
      feedLoop rest (acls ++ packet.acl?.toList) (events ++ packet.event?.toList) := by
  cases packet with
  | event code parameters fits =>
    have hsize : (UInt8.ofNat parameters.length).toNat = parameters.length := by
      rw [UInt8.toNat_ofNat']
      omega
    have hslice : slice (h4Event :: code :: UInt8.ofNat parameters.length :: (parameters ++ rest)) 3
        (parameters.length + 3) = parameters := by
      rw [Nat.add_comm]
      exact slice_append [h4Event, code, UInt8.ofNat parameters.length] parameters rest
    show feedLoop (h4Event :: code :: UInt8.ofNat parameters.length :: (parameters ++ rest))
      acls events = _
    rw [feedLoop, if_neg (by decide), if_neg (by decide), hsize,
      if_neg (by simp only [List.length_cons, List.length_append]; omega), hslice, List.drop_left]
    show _ = feedLoop rest (acls ++ []) (events ++ [_])
    rw [List.append_nil]
  | acl low high data fits =>
    have hsize : littleEndian (slice (h4Acl :: low :: high :: UInt8.ofNat data.length ::
        UInt8.ofNat (data.length / 256) :: (data ++ rest)) 3 5) = data.length :=
      littleEndian_length _ fits
    have hslice : slice (h4Acl :: low :: high :: UInt8.ofNat data.length ::
        UInt8.ofNat (data.length / 256) :: (data ++ rest)) 1 (data.length + 5) =
          low :: high :: UInt8.ofNat data.length :: UInt8.ofNat (data.length / 256) :: data := by
      rw [Nat.add_comm]
      have h := slice_append [h4Acl] (low :: high :: UInt8.ofNat data.length ::
        UInt8.ofNat (data.length / 256) :: data) rest
      rw [show ([h4Acl].length + _ = 5 + data.length) by
        simp only [List.length_cons, List.length_nil]; omega] at h
      exact h
    show feedLoop (h4Acl :: low :: high :: UInt8.ofNat data.length ::
      UInt8.ofNat (data.length / 256) :: (data ++ rest)) acls events = _
    rw [feedLoop, if_pos rfl]
    dsimp only
    rw [hsize, hslice, if_neg (by simp only [List.length_cons, List.length_append]; omega)]
    show feedLoop (List.drop data.length (data ++ rest)) _ _ = feedLoop rest (acls ++ [_])
      (events ++ [])
    rw [List.drop_left, List.append_nil]
    rfl

theorem feedLoop_packets (rest : List UInt8) :
    ∀ (packets : List H4Packet) (acls : List (List UInt8))
    (events : List HciEvent), feedLoop (streamBytes packets ++ rest) acls events =
      feedLoop rest (acls ++ streamAcls packets) (events ++ streamEvents packets)
  | [], acls, events => by
    show feedLoop rest acls events = feedLoop rest (acls ++ []) (events ++ [])
    rw [List.append_nil, List.append_nil]
  | packet :: packets, acls, events => by
    have hbytes : streamBytes (packet :: packets) ++ rest = packet.bytes ++
        (streamBytes packets ++ rest) := by
      rw [streamBytes, List.flatMap_cons, List.append_assoc]
      rfl
    have hacls : streamAcls (packet :: packets) = packet.acl?.toList ++ streamAcls packets := by
      cases packet <;> rfl
    have hevents : streamEvents (packet :: packets) = packet.event?.toList ++
        streamEvents packets := by
      cases packet <;> rfl
    rw [hbytes, feedLoop_packet, feedLoop_packets rest packets, hacls, hevents, List.append_assoc,
      List.append_assoc]

theorem four_of_length {α : Type} :
    ∀ {l : List α}, 4 ≤ l.length → ∃ a b c d more, l = a :: b :: c :: d :: more
  | a :: b :: c :: d :: more, _ => ⟨a, b, c, d, more, rfl⟩
  | [], h | [_], h | [_, _], h | [_, _, _], h =>
    absurd h (by simp only [List.length_cons, List.length_nil]; omega)

theorem incomplete_nil : Incomplete [] :=
  ⟨.event 0 [] (Nat.zero_le _), [h4Event, 0, 0], nofun, rfl⟩

/-- Too little of a packet is kept. -/
theorem feedLoop_incomplete {tail : List UInt8} (h : Incomplete tail) (acls : List (List UInt8))
    (events : List HciEvent) : feedLoop tail acls events = (.ok events, ⟨tail, acls⟩) := by
  obtain ⟨packet, missing, hmissing, hbytes⟩ := h
  have hpos : 0 < missing.length := List.length_pos_iff.mpr hmissing
  have hlength := congrArg List.length hbytes
  cases packet with
  | event code parameters fits =>
    simp only [H4Packet.bytes, H4Packet.body, List.length_append, List.length_cons] at hlength
    cases tail with
    | nil => rw [feedLoop]
    | cons type rest =>
      simp only [H4Packet.bytes, H4Packet.body, List.cons_append, List.cons.injEq] at hbytes
      obtain ⟨rfl, hbytes⟩ := hbytes
      -- Without its length field an event is too short in any case.
      have hshort : ∀ {front : List UInt8}, front.length < 2 →
          feedLoop (h4Event :: front) acls events = (.ok events, ⟨h4Event :: front, acls⟩) := by
        intro front hfront
        rw [feedLoop.eq_def]
        dsimp only
        rw [if_neg (by decide), if_neg (by decide)]
        split
        · simp only [List.length_cons] at hfront
          omega
        · rfl
      cases rest with
      | nil => exact hshort (by decide)
      | cons code' rest =>
        cases rest with
        | nil => exact hshort (Nat.lt_succ_self 1)
        | cons size more =>
          simp only [List.cons_append, List.cons.injEq] at hbytes
          obtain ⟨-, rfl, -⟩ := hbytes
          have hsize : (UInt8.ofNat parameters.length).toNat = parameters.length := by
            rw [UInt8.toNat_ofNat']
            omega
          simp only [List.length_cons] at hlength
          rw [feedLoop, if_neg (by decide), if_neg (by decide), hsize,
            if_pos (by simp only [List.length_cons]; omega)]
  | acl low high data fits =>
    simp only [H4Packet.bytes, H4Packet.body, List.length_append, List.length_cons] at hlength
    cases tail with
    | nil => rw [feedLoop]
    | cons type rest =>
      simp only [H4Packet.bytes, H4Packet.body, List.cons_append, List.cons.injEq] at hbytes
      obtain ⟨rfl, hbytes⟩ := hbytes
      rw [feedLoop.eq_def]
      dsimp only
      rw [if_pos rfl]
      -- The length of a data packet stands in its fourth and fifth byte.
      by_cases hshort : (h4Acl :: rest).length < 5
      · rw [if_pos (Or.inl hshort)]
      · have hfour : 4 ≤ rest.length := by
          simp only [List.length_cons] at hshort
          omega
        obtain ⟨l, h, s0, s1, more, rfl⟩ := four_of_length hfour
        simp only [List.cons_append, List.cons.injEq] at hbytes
        obtain ⟨-, -, rfl, rfl, -⟩ := hbytes
        have hsize : littleEndian (slice (h4Acl :: l :: h :: UInt8.ofNat data.length ::
            UInt8.ofNat (data.length / 256) :: more) 3 5) = data.length :=
          littleEndian_length _ fits
        simp only [List.length_cons] at hlength
        rw [if_pos (Or.inr (by rw [hsize]; simp only [List.length_cons]; omega))]

/-! ## The whole stream -/

/-- Where a stream is cut: after some of its packets and a part of the next. -/
theorem stream_cut {tail : List UInt8} (htail : Incomplete tail) :
    ∀ {packets : List H4Packet} {front back : List UInt8},
      streamBytes packets ++ tail = front ++ back →
      ∃ before after part, packets = before ++ after ∧ front = streamBytes before ++ part ∧
        Incomplete part ∧ part ++ back = streamBytes after ++ tail
  | [], front, back, hcut => by
    obtain ⟨packet, missing, hmissing, hbytes⟩ := htail
    have hcut : tail = front ++ back := hcut
    refine ⟨[], [], front, rfl, rfl, ⟨packet, back ++ missing, ?_, ?_⟩, hcut.symm⟩
    · intro hnil
      exact hmissing (List.append_eq_nil_iff.mp hnil).2
    · rw [hbytes, hcut, List.append_assoc]
  | packet :: packets, front, back, hcut => by
    have hcut' : packet.bytes ++ (streamBytes packets ++ tail) = front ++ back := by
      rw [← hcut, ← List.append_assoc]
      rfl
    rcases List.append_eq_append_iff.mp hcut' with ⟨more, hfront, hrest⟩ | ⟨missing, hpacket, hback⟩
    · obtain ⟨before, after, part, hpackets, hpart, hincomplete, hlast⟩ := stream_cut htail hrest
      refine ⟨packet :: before, after, part, by rw [hpackets]; rfl, ?_, hincomplete, hlast⟩
      rw [hfront, hpart, streamBytes, streamBytes, List.flatMap_cons, List.append_assoc]
    · by_cases hnil : missing = []
      · subst hnil
        rw [List.append_nil] at hpacket
        refine ⟨[packet], packets, [], rfl, ?_, incomplete_nil, hback⟩
        rw [streamBytes, List.flatMap_cons, List.flatMap_nil, List.append_nil,
          List.append_nil, hpacket]
      · exact ⟨[], packet :: packets, front, rfl, rfl, ⟨packet, missing, hnil, hpacket⟩, hcut.symm⟩

theorem streamEvents_append (before after : List H4Packet) :
    streamEvents (before ++ after) = streamEvents before ++ streamEvents after :=
  List.filterMap_append

theorem streamAcls_append (before after : List H4Packet) :
    streamAcls (before ++ after) = streamAcls before ++ streamAcls after := List.filterMap_append

/-- The calls from a parser that keeps `part`. What it keeps at the end is the tail. -/
theorem feedAll_stream {tail : List UInt8} (htail : Incomplete tail) :
    ∀ (chunks : List (List UInt8)) (packets : List H4Packet) (part : List UInt8)
      (acls : List (List UInt8)),
      Incomplete part → part ++ chunks.flatten = streamBytes packets ++ tail →
        ∃ lists, feedAll ⟨part, acls⟩ chunks = (.ok lists, ⟨tail, acls ++ streamAcls packets⟩) ∧
          lists.flatten = streamEvents packets
  | [], packets, part, acls, hpart, hbytes => by
    -- An incomplete packet is no stream of whole ones: both are what one loop leaves.
    have hkeep := feedLoop_incomplete hpart acls []
    have hloop := feedLoop_packets tail packets acls []
    rw [feedLoop_incomplete htail, ← hbytes, List.flatten_nil, List.append_nil, hkeep] at hloop
    simp only [Prod.mk.injEq, Except.ok.injEq, H4EventParser.mk.injEq, List.nil_append] at hloop
    obtain ⟨hevents, htail', hacls⟩ := hloop
    refine ⟨[], ?_, hevents⟩
    rw [feedAll, htail', ← hacls]
  | chunk :: chunks, packets, part, acls, hpart, hbytes => by
    rw [List.flatten_cons, ← List.append_assoc] at hbytes
    obtain ⟨before, after, part', rfl, hfront, hpart', hback⟩ := stream_cut htail hbytes.symm
    obtain ⟨lists, hfeed, hlists⟩ :=
      feedAll_stream htail chunks after part' (acls ++ streamAcls before) hpart' hback
    have hchunk : H4EventParser.feed ⟨part, acls⟩ chunk =
        (.ok (streamEvents before), ⟨part', acls ++ streamAcls before⟩) := by
      rw [H4EventParser.feed, hfront, feedLoop_packets, feedLoop_incomplete hpart']
      rfl
    refine ⟨streamEvents before :: lists, ?_, ?_⟩
    · rw [feedAll, hchunk]
      dsimp only
      rw [hfeed, streamAcls_append, List.append_assoc]
      rfl
    · rw [List.flatten_cons, hlists, streamEvents_append]

/-- **Decoding does not depend on the chunks.** However the bytes of whole packets and a
part of one more are split into calls, the calls return the events in order, collect the
ACL packets in order, and leave exactly that part in the buffer. -/
theorem decoding_independent (packets : List H4Packet) (tail : List UInt8) (htail : Incomplete tail)
    (chunks : List (List UInt8)) (hchunks : chunks.flatten = streamBytes packets ++ tail) :
    ∃ lists, feedAll {} chunks = (.ok lists, ⟨tail, streamAcls packets⟩) ∧
      lists.flatten = streamEvents packets :=
  feedAll_stream htail chunks packets [] [] incomplete_nil hchunks

/-- An ACL packet and half of a Command Complete, one byte at a time. -/
theorem decoding_independent_bytewise :
    ∃ lists, feedAll {} [[0x02], [0x01], [0x20], [0x01], [0x00], [0xAA], [0x04], [0x0e],
      [0x04], [0x01]] =
        (.ok lists, ⟨[0x04, 0x0e, 0x04, 0x01], [[0x01, 0x20, 0x01, 0x00, 0xAA]]⟩) ∧
      lists.flatten = [] := by
  have htail : Incomplete [0x04, 0x0e, 0x04, 0x01] :=
    ⟨.event 0x0e [0x01, 0x03, 0x0c, 0x00] (by decide), [0x03, 0x0c, 0x00], nofun, rfl⟩
  exact decoding_independent [.acl 0x01 0x20 [0xAA] (by decide)] _ htail _ rfl

end NrfKit.Hci
