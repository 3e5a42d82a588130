import NrfKit.Hci.Controller
import NrfKit.Hci.Host

/- A command packet built by the host, answered by the firmware and decoded by the host.

   `respond` says what a command means: it is the command offered by the variant whose
   opcode it has, and it is answered with the controller's status and, where it reads a
   structure, with that structure. `dispatch` computes it on the bytes of the packet
   (`dispatch_respond`), the two encoders lay it out, and the parser and the two decoders
   of the host take it apart again (`command_round_trip`). -/
namespace NrfKit.Hci
open Objects Bytes

/-! ## What a command is answered with -/

structure Response where
  status : UInt8
  returns : List UInt8
  /-- Answered by Command Status, not by Command Complete. -/
  byStatus : Bool

namespace Command

/-- The commands that read a structure from the controller. -/
def reads : Command → Bool
  | ipReadLocalVersionInformation | ipReadLocalSupportedFeatures | leReadLocalSupportedFeatures =>
    true
  | _ => false

/-- The commands whose effect comes later: they are only acknowledged. -/
def byStatus : Command → Bool
  | leCreateConn | lcDisconnect => true
  | _ => false

end Command

variable (c : Controller)

/-- The number of parameter bytes a command must have. -/
def Controller.expects (command : Command) : Nat :=
  if command = .cbReset ∨ command.reads then 0 else c.parameterSize command

def Controller.answer (command : Command) (parameters : List UInt8) : Response :=
  if parameters.length ≠ c.expects command then ⟨statusInvalidParameters, [], command.byStatus⟩
  else
    { status := c.status command parameters
      returns := if command.reads ∧ c.status command parameters = 0 then c.returned command else []
      byStatus := command.byStatus }

/-- The commands a variant offers. -/
def offered (variant : Variant) : List Command :=
  [.cbReset, .ipReadLocalVersionInformation, .ipReadLocalSupportedFeatures,
    .leReadLocalSupportedFeatures, .cbSetEventMask, .leSetEventMask, .leSetRandomAddress] ++
  (if advertises variant then [.leSetAdvParams, .leSetAdvData, .leSetAdvEnable] else []) ++
  (if scans variant then [.leSetScanParams, .leSetScanEnable, .leCreateConn] else []) ++
  [.lcDisconnect]

def respondAmong (opcode : UInt16) (parameters : List UInt8) : List Command → Response
  | [] => ⟨statusUnknownCommand, [], false⟩
  | command :: rest =>
    if opcode = c.opcode command then c.answer command parameters
    else respondAmong opcode parameters rest

def respond (variant : Variant) (opcode : UInt16) (parameters : List UInt8) : Response :=
  respondAmong c opcode parameters (offered variant)

/-- The response as `dispatch` hands it over, in its eight bytes of return parameters. -/
def Response.dispatched (r : Response) : Dispatched :=
  ⟨r.status, known r.returns ++ List.replicate (8 - r.returns.length) none, r.returns.length,
    if r.byStatus then 1 else 0⟩

/-! ## Dispatch -/

section
variable {c}
variable {opcode : UInt16} {low high size : UInt8} {parameters : List UInt8} {n : Nat}
    {rest : Object UInt8}

theorem answer_refused {command : Command} (h : parameters.length ≠ c.expects command) :
    c.answer command parameters = ⟨statusInvalidParameters, [], command.byStatus⟩ := if_pos h

theorem answer_accepted {command : Command} (h : parameters.length = c.expects command) :
    c.answer command parameters = ⟨c.status command parameters,
      if command.reads ∧ c.status command parameters = 0 then c.returned command else [],
      command.byStatus⟩ := if_neg (not_not_intro h)

theorem withParameters_answer {command : Command} (hn : n = parameters.length)
    (hplain : ¬ (command = .cbReset ∨ command.reads)) :
    withParameters c command (known (low :: high :: size :: parameters) ++ rest) n
      (List.replicate 8 none)
      (if command.byStatus then 1 else 0) = .ok (c.answer command parameters).dispatched := by
  have hexpects : c.expects command = c.parameterSize command := if_neg hplain
  have hreads : ¬ (command.reads = true ∧ c.status command parameters = 0) :=
    fun h => hplain (Or.inr h.1)
  by_cases hsize : n = c.parameterSize command
  · have hloads :
        (known (low :: high :: size :: parameters) ++ rest).loads 3 (c.parameterSize command) =
        .ok parameters := by
      have h := loads_known [low, high, size] parameters rest parameters.length (Nat.le_refl _)
      rw [List.take_length] at h
      rw [← hsize, hn]
      exact h
    rw [withParameters, if_pos hsize, hloads, answer_accepted (by rw [hexpects, ← hn, hsize]),
      if_neg hreads]
    rfl
  · rw [withParameters, if_neg hsize, answer_refused (by rw [hexpects, ← hn]; exact hsize)]
    rfl

theorem reading_answer {command : Command} (hn : n = parameters.length)
    (hreads : command.reads = true) (hsmall : c.returnSize command ≤ 8) :
    reading c command n (List.replicate 8 none) = .ok (c.answer command parameters).dispatched := by
  have hexpects : c.expects command = 0 := if_pos (Or.inr hreads)
  have hstatus : command.byStatus = false := by
    cases command <;> first | rfl | cases hreads
  by_cases hsize : n ≠ 0
  · rw [reading, if_pos hsize, answer_refused (by rw [hexpects, ← hn]; exact hsize), hstatus]
    rfl
  · have hnil : parameters = [] := List.eq_nil_of_length_eq_zero (by omega)
    rw [reading, if_neg hsize, hnil, answer_accepted (by rw [hexpects]; rfl), hstatus]
    dsimp only
    by_cases hzero : c.status command [] = 0
    · have hcopy : Object.copy (List.replicate 8 none) 0 (known (c.returned command))
          (c.returnSize command) =
          .ok (known (c.returned command) ++ List.replicate (8 - c.returnSize command) none) := by
        have h := copy_next [] (c.returned command) (List.replicate 8 none) []
          (c.returnSize command)
          (Nat.le_of_eq (c.returned_length command).symm)
            (by rw [List.length_replicate]; exact hsmall)
        have htake : (c.returned command).take (c.returnSize command) = c.returned command := by
          rw [← c.returned_length command, List.take_length]
        rw [List.append_nil, htake, List.drop_replicate] at h
        exact h
      rw [if_pos hzero, if_pos ⟨hreads, hzero⟩, Response.dispatched, c.returned_length, hcopy]
      rfl
    · rw [if_neg hzero, if_neg (fun h => hzero h.2)]
      rfl

theorem reset_answer (hn : n = parameters.length) :
    (.ok ⟨if n = 0 then c.status .cbReset [] else statusInvalidParameters,
      List.replicate 8 none, 0, 0⟩ :
      Except Fault Dispatched) = .ok (c.answer .cbReset parameters).dispatched := by
  by_cases hsize : n = 0
  · have hnil : parameters = [] := List.eq_nil_of_length_eq_zero (by omega)
    rw [if_pos hsize, hnil]
    rfl
  · rw [if_neg hsize, answer_refused (by rw [← hn]; exact hsize)]
    rfl

/-- One case of the switch against one command of the list. -/
theorem case_answer {command : Command} {rest : List Command}
    {chosen otherwise : Except Fault Dispatched}
    (hthis : chosen = .ok (c.answer command parameters).dispatched)
    (hrest : otherwise = .ok (respondAmong c opcode parameters rest).dispatched) :
    (if opcode = c.opcode command then chosen else otherwise) =
      .ok (respondAmong c opcode parameters (command :: rest)).dispatched := by
  rw [respondAmong]
  by_cases h : opcode = c.opcode command
  · rw [if_pos h, if_pos h, hthis]
  · rw [if_neg h, if_neg h, hrest]

/-- `dispatch` answers as the command of that opcode does. It touches no byte outside
the packet and none outside its eight bytes of return parameters. -/
theorem dispatch_respond {variant : Variant}
    (hreturns : ∀ command, command.reads → c.returnSize command ≤ 8) (hn : n = parameters.length) :
    dispatch c variant opcode (known (low :: high :: size :: parameters) ++ rest) n
      (List.replicate 8 none) =
      .ok (respond c variant opcode parameters).dispatched := by
  have hread : ∀ command, command.reads = true → reading c command n (List.replicate 8 none) =
      .ok (c.answer command parameters).dispatched :=
        fun command h => reading_answer hn h (hreturns command h)
  have htake : ∀ command, ¬ (command = .cbReset ∨ command.reads = true) →
      withParameters c command (known (low :: high :: size :: parameters) ++ rest) n
        (List.replicate 8 none)
        (if command.byStatus then 1 else 0) = .ok (c.answer command parameters).dispatched :=
    fun command h => withParameters_answer hn h
  cases variant
  all_goals
    simp only [dispatch, advertises, scans, true_and, Bool.false_eq_true, false_and, if_false]
    refine case_answer (reset_answer hn) ?_
    refine case_answer (hread _ rfl) ?_
    refine case_answer (hread _ rfl) ?_
    refine case_answer (hread _ rfl) ?_
    repeat refine case_answer (htake _ (by decide)) ?_
    rfl

/-- The response fits the eight bytes of return parameters, and only success returns any. -/
theorem answer_returns (hreturns : ∀ command, command.reads → c.returnSize command ≤ 8)
    (command : Command) :
    (c.answer command parameters).returns.length ≤ 8 := by
  by_cases hsize : parameters.length = c.expects command
  · rw [answer_accepted hsize]
    dsimp only
    split
    · rename_i h
      rw [c.returned_length]
      exact hreturns command h.1
    · exact Nat.zero_le 8
  · rw [answer_refused hsize]
    exact Nat.zero_le 8

theorem respond_returns {variant : Variant}
    (hreturns : ∀ command, command.reads → c.returnSize command ≤ 8) :
    (respond c variant opcode parameters).returns.length ≤ 8 := by
  rw [respond]
  induction offered variant with
  | nil => exact Nat.zero_le 8
  | cons command rest ih =>
    rw [respondAmong]
    split
    · exact answer_returns hreturns command
    · exact ih

end

/-! ## The encoded event -/

/-- The event of a response, byte for byte. -/
def Response.event (r : Response) (low high : UInt8) : List UInt8 :=
  if r.byStatus then [eventCommandStatus, 4, r.status, 1, low, high]
  else [eventCommandComplete, UInt8.ofNat (4 + r.returns.length), 1, low, high, r.status] ++
    r.returns

section
variable {r : Response} {low high : UInt8} {object : Object UInt8}

theorem encodeStatus_eq (hobject : 14 ≤ object.length) (status : UInt8) :
    encodeStatus object status low high =
      .ok (known [eventCommandStatus, 4, status, 1, low, high] ++ object.drop 6) := by
  match object, hobject with
  | c0 :: c1 :: c2 :: c3 :: c4 :: c5 :: cells, _ =>
    show encodeStatus (known [] ++ c0 :: c1 :: c2 :: c3 :: c4 :: c5 :: cells) status low high = _
    rw [encodeStatus, store_bind, store_bind, store_bind, store_bind, store_bind]
    · exact store_next [eventCommandStatus, 4, status, 1, low] high c5 cells
    all_goals rfl

theorem encodeComplete_eq (hobject : 14 ≤ object.length) (hreturns : r.returns.length ≤ 8) :
    encodeComplete object r.dispatched low high =
      .ok (known ([eventCommandComplete, UInt8.ofNat (4 + r.returns.length), 1, low, high,
        r.status] ++ r.returns) ++ object.drop (6 + r.returns.length)) := by
  match object, hobject with
  | c0 :: c1 :: c2 :: c3 :: c4 :: c5 :: cells, hobject =>
    have hcells : r.returns.length ≤ cells.length := by
      simp only [List.length_cons] at hobject
      omega
    have hcopy := copy_next [eventCommandComplete, UInt8.ofNat (4 + r.returns.length), 1, low,
      high, r.status]
      r.returns cells (List.replicate (8 - r.returns.length) none) r.returns.length
        (Nat.le_refl _) hcells
    rw [List.take_length] at hcopy
    show encodeComplete (known [] ++ c0 :: c1 :: c2 :: c3 :: c4 :: c5 :: cells)
      r.dispatched low high = _
    rw [encodeComplete, store_bind, store_bind, store_bind, store_bind, store_bind, store_bind,
      Nat.add_comm 6]
    · exact hcopy
    all_goals rfl

theorem event_length (hreturns : r.returns.length ≤ 8) :
    (r.event low high).length ≤ 14 ∧ (r.event low high)[1]?.map (fun size => size.toNat + 2) =
      some (r.event low high).length := by
  unfold Response.event
  split
  · exact ⟨by show 6 ≤ 14; omega, rfl⟩
  · have hsize : (UInt8.ofNat (4 + r.returns.length)).toNat = 4 + r.returns.length := by
      rw [UInt8.toNat_ofNat']
      omega
    constructor
    · simp only [List.length_append, List.length_cons, List.length_nil]
      omega
    · simp only [List.cons_append, List.nil_append, List.getElem?_cons_succ,
        List.getElem?_cons_zero, Option.map_some, List.length_cons, hsize]
      congr 1
      omega

variable {c}
variable {variant : Variant} {opcode : UInt16} {parameters : List UInt8} {capacity : Nat}
  {rest : Object UInt8}

/-- The firmware on a packet of the host: it touches no byte outside the packet, and of
the event object no cell after the event. -/
theorem command_event (hreturns : ∀ command, command.reads → c.returnSize command ≤ 8)
    (hopcode : low.toUInt16 ||| (high.toUInt16 <<< 8) = opcode)
    (hparameters : parameters.length ≤ 255) (hcapacity : 14 ≤ capacity)
    (hobject : capacity ≤ object.length) :
    nrfkitSdcHciCommand c variant
        (some (known (low :: high :: UInt8.ofNat parameters.length :: parameters) ++ rest))
          (parameters.length + 3)
        (some object) capacity true =
      .ok ⟨0, some (known ((respond c variant opcode parameters).event low high) ++
          object.drop ((respond c variant opcode parameters).event low high).length),
        some ((respond c variant opcode parameters).event low high).length⟩ := by
  have hsize : (UInt8.ofNat parameters.length).toNat = parameters.length := by
    rw [UInt8.toNat_ofNat']
    omega
  have hdispatch : dispatch c variant opcode
      (known (low :: high :: UInt8.ofNat parameters.length :: parameters) ++ rest)
      (UInt8.ofNat parameters.length).toNat (List.replicate 8 none) =
        .ok (respond c variant opcode parameters).dispatched := dispatch_respond hreturns hsize
  have hlength : (respond c variant opcode parameters).returns.length ≤ 8 :=
    respond_returns hreturns
  generalize hr : respond c variant opcode parameters = r at hdispatch hlength ⊢
  rw [nrfkitSdcHciCommand]
  dsimp only
  rw [if_neg (by omega)]
  show (if parameters.length + 3 ≠ (UInt8.ofNat parameters.length).toNat + 3 ∨
    capacity < 14 then _ else _) = _
  rw [if_neg (by rw [hsize]; omega)]
  show (dispatch c variant (low.toUInt16 ||| (high.toUInt16 <<< 8)) _ _ _ >>= _) = _
  rw [hopcode, hdispatch]
  unfold Response.event
  show (if r.dispatched.commandStatus ≠ 0 then _ else _) = _
  cases hstatus : r.byStatus with
  | true =>
    rw [if_pos (by rw [Response.dispatched, hstatus]; exact (by decide : (1 : UInt8) ≠ 0)),
      encodeStatus_eq (by omega)]
    rfl
  | false =>
    rw [if_neg (by rw [Response.dispatched, hstatus]; exact not_not_intro rfl),
      encodeComplete_eq (by omega) hlength]
    simp only [Bool.false_eq_true, if_false, List.length_append, List.length_cons, List.length_nil,
      Response.dispatched]
    rfl

end

/-! ## The host decodes it -/

/-- One whole event in an empty buffer. -/
theorem feed_event (parser : H4EventParser) (hempty : parser.buffer = []) (code size : UInt8)
    (parameters : List UInt8) (hsize : parameters.length = size.toNat) :
    parser.feed (h4Event :: code :: size :: parameters) = (.ok [⟨code, parameters⟩], parser) := by
  have hslice : slice (h4Event :: code :: size :: parameters) 3 (size.toNat + 3) = parameters := by
    have h := slice_append [h4Event, code, size] parameters []
    rw [List.append_nil, Nat.add_comm, hsize] at h
    exact h
  have hdrop : parameters.drop size.toNat = [] := List.drop_eq_nil_of_le (by omega)
  obtain ⟨buffer, aclPackets⟩ := parser
  subst hempty
  rw [H4EventParser.feed, List.nil_append, feedLoop, if_neg (by decide), if_neg (by decide)]
  dsimp only
  rw [if_neg (by simp only [List.length_cons]; omega), hslice, hdrop, feedLoop]
  rfl

theorem commandStatus_eq (status low high : UInt8) (opcode : Int) :
    commandStatus ⟨eventCommandStatus, [status, 1, low, high]⟩ opcode =
      if (littleEndian [low, high] : Int) ≠ opcode then .ok false
      else if status ≠ 0 then .error (.commandFailed opcode status) else .ok true := by
  rw [commandStatus, if_neg (by exact not_not_intro rfl), if_neg (by exact not_not_intro rfl)]
  rfl

theorem commandComplete_eq (status low high : UInt8) (returns : List UInt8) (opcode : Int) :
    commandComplete ⟨eventCommandComplete, [1, low, high, status] ++ returns⟩ opcode =
      if (littleEndian [low, high] : Int) ≠ opcode then .ok none
      else if status ≠ 0 then .error (.commandFailed opcode status) else .ok (some returns) := by
  rw [commandComplete, if_neg (by exact not_not_intro rfl), if_neg (by
    simp only [List.length_append, List.length_cons, List.length_nil]
    omega)]
  rfl

/-- What the host reads from an event that answers `opcode`. -/
def Response.DecodedFrom (r : Response) (opcode : Int) (event : HciEvent) : Prop :=
  if r.byStatus then
    commandStatus event opcode =
        (if r.status = 0 then .ok true else .error (.commandFailed opcode r.status)) ∧
      ∀ other, other ≠ opcode → commandStatus event other = .ok false
  else
    commandComplete event opcode =
        (if r.status = 0 then .ok (some r.returns) else .error (.commandFailed opcode r.status)) ∧
      ∀ other, other ≠ opcode → commandComplete event other = .ok none

theorem event_decoded (r : Response) {opcode : Nat} {low high : UInt8}
    (hopcode : littleEndian [low, high] = opcode) (hreturns : r.returns.length ≤ 8)
    {parser : H4EventParser} (hempty : parser.buffer = []) :
    ∃ event, parser.feed (h4Event :: r.event low high) = (.ok [event], parser) ∧
      r.DecodedFrom opcode event := by
  have hother : ∀ other : Int, other ≠ opcode → (littleEndian [low, high] : Int) ≠ other := by
    intro other hne he
    exact hne (by rw [← he, hopcode])
  have hsame : ¬ (littleEndian [low, high] : Int) ≠ opcode := not_not_intro (by rw [hopcode])
  unfold Response.event Response.DecodedFrom
  cases hstatus : r.byStatus with
  | true =>
    refine ⟨⟨eventCommandStatus, [r.status, 1, low, high]⟩,
      feed_event parser hempty _ _ _ rfl, ?_, ?_⟩
    · rw [commandStatus_eq, if_neg hsame, ite_not]
    · intro other hne
      rw [commandStatus_eq, if_pos (hother other hne)]
  | false =>
    have hsize : ([1, low, high, r.status] ++ r.returns).length =
        (UInt8.ofNat (4 + r.returns.length)).toNat := by
      rw [UInt8.toNat_ofNat']
      simp only [List.length_append, List.length_cons, List.length_nil]
      omega
    refine ⟨⟨eventCommandComplete, [1, low, high, r.status] ++ r.returns⟩,
      feed_event parser hempty _ _ _ hsize, ?_, ?_⟩
    · rw [commandComplete_eq, if_neg hsame, ite_not]
    · intro other hne
      rw [commandComplete_eq, if_pos (hother other hne)]

/-! ## The round trip -/

/-- **A command comes back.** Whatever the controller returns, the packet the host builds
for an opcode and its parameters is accepted by the firmware, which touches nothing
outside the packet and writes one event of at most 14 bytes; fed to the host's parser
after its H4 byte, that event is one event, from which the host reads the response to
that opcode and none to another. -/
theorem command_round_trip (c : Controller) (variant : Variant)
    (hreturns : ∀ command, command.reads → c.returnSize command ≤ 8)
    (opcode : UInt16) (parameters : List UInt8) (hparameters : parameters.length ≤ 255)
    (object : Object UInt8) (capacity : Nat) (hcapacity : 14 ≤ capacity)
    (hobject : capacity ≤ object.length) (parser : H4EventParser) (hempty : parser.buffer = []) :
    ∃ packet event decoded,
      commandPacket opcode.toNat parameters = .ok (h4Command :: packet) ∧
      nrfkitSdcHciCommand c variant (some (known packet)) packet.length
        (some object) capacity true =
        .ok ⟨0, some (known event ++ object.drop event.length), some event.length⟩ ∧
      event.length ≤ 14 ∧ event[1]?.map (fun size => size.toNat + 2) = some event.length ∧
      parser.feed (h4Event :: event) = (.ok [decoded], parser) ∧
      (respond c variant opcode parameters).DecodedFrom opcode.toNat decoded := by
  have hlt : opcode.toNat < 65536 := opcode.toNat_lt
  have hbytes : littleEndian [UInt8.ofNat opcode.toNat, UInt8.ofNat (opcode.toNat / 256)] =
      opcode.toNat := by
    simp only [littleEndian_cons, littleEndian_nil, UInt8.toNat_ofNat']
    omega
  have hword : (UInt8.ofNat opcode.toNat).toUInt16 |||
      ((UInt8.ofNat (opcode.toNat / 256)).toUInt16 <<< 8) =
      opcode := by
    apply UInt16.toNat_inj.mp
    rw [toUInt16_toNat]
    simpa only [littleEndian_cons, littleEndian_nil, Nat.mul_zero, Nat.add_zero] using hbytes
  have hsmall : (respond c variant opcode parameters).returns.length ≤ 8 := respond_returns hreturns
  obtain ⟨hlength, hsize⟩ := @event_length _ (UInt8.ofNat opcode.toNat)
    (UInt8.ofNat (opcode.toNat / 256)) hsmall
  obtain ⟨decoded, hfeed, hdecoded⟩ := event_decoded _ hbytes hsmall hempty
  have hevent := @command_event c (UInt8.ofNat opcode.toNat)
    (UInt8.ofNat (opcode.toNat / 256)) object variant opcode parameters capacity
      [] hreturns hword hparameters hcapacity hobject
  rw [List.append_nil] at hevent
  refine ⟨UInt8.ofNat opcode.toNat :: UInt8.ofNat (opcode.toNat / 256) ::
    UInt8.ofNat parameters.length :: parameters, _, decoded, ?_, hevent, hlength, hsize,
      hfeed, hdecoded⟩
  rw [commandPacket, if_neg (by omega), if_neg (by omega)]
  rfl

/-- A controller with the opcodes and sizes of the Bluetooth commands, which succeeds
and reads zeros. -/
def bluetoothController : Controller where
  opcode
    | .cbReset => 0x0c03
    | .ipReadLocalVersionInformation => 0x1001
    | .ipReadLocalSupportedFeatures => 0x1003
    | .leReadLocalSupportedFeatures => 0x2003
    | .cbSetEventMask => 0x0c01
    | .leSetEventMask => 0x2001
    | .leSetRandomAddress => 0x2005
    | .leSetAdvParams => 0x2006
    | .leSetAdvData => 0x2008
    | .leSetAdvEnable => 0x200a
    | .leSetScanParams => 0x200b
    | .leSetScanEnable => 0x200c
    | .leCreateConn => 0x200d
    | .lcDisconnect => 0x0406
  parameterSize
    | .cbSetEventMask | .leSetEventMask => 8
    | .leSetRandomAddress => 6
    | .leSetAdvParams => 15
    | .leSetAdvData => 32
    | .leSetAdvEnable => 1
    | .leSetScanParams => 7
    | .leSetScanEnable => 2
    | .leCreateConn => 25
    | .lcDisconnect => 3
    | _ => 0
  returnSize command := if command.reads then 8 else 0
  status _ _ := 0
  returned command := if command.reads then List.replicate 8 0 else []
  returned_length command := by
    split
    · rfl
    · rfl
  einval := 22

example :
    (respond bluetoothController .multirole 0x1001 []).returns = List.replicate 8 0 := by decide

theorem command_round_trip_version :
    ∃ packet event decoded,
      commandPacket (0x1001 : UInt16).toNat [] = .ok (h4Command :: packet) ∧
      nrfkitSdcHciCommand bluetoothController .multirole (some (known packet)) packet.length
          (some (List.replicate 14 none)) 14 true =
        .ok ⟨0, some (known event ++ (List.replicate 14 none).drop event.length),
          some event.length⟩ ∧
      event.length ≤ 14 ∧ event[1]?.map (fun size => size.toNat + 2) = some event.length ∧
      H4EventParser.feed {} (h4Event :: event) = (.ok [decoded], {}) ∧
      (respond bluetoothController .multirole 0x1001 []).DecodedFrom
        (0x1001 : UInt16).toNat decoded := by
  have hreturns : ∀ command, command.reads → bluetoothController.returnSize command ≤ 8 := by
    intro command hreads
    cases command <;> decide
  exact command_round_trip bluetoothController .multirole hreturns 0x1001 [] (by decide)
    (List.replicate 14 none) 14 (by decide) (by decide) {} rfl

end NrfKit.Hci
