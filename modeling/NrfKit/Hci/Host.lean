import NrfKit.Lib.Bytes

/- `tools/nrfkit_tools/hci.py`: the host side of the H4 transport. A Python exception is
   the error of `Except`; a parser keeps its buffer when `feed` raises. -/
namespace NrfKit.Hci
open Bytes

/-- `HciContractError`, by what was found; `message` is its text. -/
inductive HciContractError where
  | unexpectedPacket (type : UInt8)
  | opcodeRange
  | parametersTooLong
  | truncatedComplete
  | noStatus
  | commandFailed (opcode : Int) (status : UInt8)
  | malformedStatus
  | malformedAcl
  | writeTimeout
  | eventTimeout
  | aclTimeout
  | endOfFile
  deriving DecidableEq, Repr

/-- `f"{value:0{width}x}"`. -/
def formatHex (width : Nat) (value : Int) : String :=
  let digits := Nat.toDigits 16 value.natAbs
  if 0 ≤ value then String.ofList (digits.leftpad width '0')
  else String.ofList ('-' :: digits.leftpad (width - 1) '0')

example : formatHex 4 0xc03 = "0c03" := by decide +kernel

namespace HciContractError

def message : HciContractError → String
  | unexpectedPacket type => "unexpected H4 packet type 0x" ++ formatHex 2 type.toNat
  | opcodeRange => "HCI opcode is outside the 16-bit field"
  | parametersTooLong => "HCI command parameters exceed the 8-bit length field"
  | truncatedComplete => "truncated HCI Command Complete event"
  | noStatus => "HCI Command Complete has no status parameter"
  | commandFailed opcode status =>
    "HCI command 0x" ++ formatHex 4 opcode ++ " failed with status 0x" ++ formatHex 2 status.toNat
  | malformedStatus => "malformed HCI Command Status event"
  | malformedAcl => "malformed HCI ACL packet"
  | writeTimeout => "timed out writing an HCI command"
  | eventTimeout => "timed out waiting for an HCI event"
  | aclTimeout => "timed out waiting for an HCI ACL packet"
  | endOfFile => "HCI transport returned end of file"

end HciContractError

def h4Command : UInt8 := 0x01
def h4Acl : UInt8 := 0x02
def h4Event : UInt8 := 0x04
def eventCommandCompleteCode : UInt8 := 0x0E
def eventCommandStatusCode : UInt8 := 0x0F

structure HciEvent where
  eventCode : UInt8
  parameters : List UInt8
  deriving DecidableEq, Repr

structure H4EventParser where
  buffer : List UInt8 := []
  aclPackets : List (List UInt8) := []
  deriving DecidableEq, Repr

/-- The loop of `feed` over the parser's buffer. -/
def feedLoop (buffer : List UInt8) (aclPackets : List (List UInt8)) (events : List HciEvent) :
    Except HciContractError (List HciEvent) × H4EventParser :=
  match buffer with
  | [] => (.ok events, ⟨[], aclPackets⟩)
  | type :: rest =>
    if type = h4Acl then
      let size := littleEndian (slice (type :: rest) 3 5)
      if (type :: rest).length < 5 ∨ (type :: rest).length < size + 5 then
        (.ok events, ⟨type :: rest, aclPackets⟩)
      else
        feedLoop (rest.drop (size + 4)) (aclPackets ++ [slice (type :: rest) 1 (size + 5)]) events
    else if type ≠ h4Event then (.error (.unexpectedPacket type), ⟨type :: rest, aclPackets⟩)
    else
      match rest with
      | code :: size :: rest =>
        if (type :: code :: size :: rest).length < size.toNat + 3 then
          (.ok events, ⟨type :: code :: size :: rest, aclPackets⟩)
        else
          feedLoop (rest.drop size.toNat) aclPackets
            (events ++ [⟨code, slice (type :: code :: size :: rest) 3 (size.toNat + 3)⟩])
      | _ => (.ok events, ⟨type :: rest, aclPackets⟩)
termination_by buffer.length
decreasing_by
  · simp only [List.length_drop, List.length_cons]
    omega
  · simp only [List.length_drop, List.length_cons]
    omega

def H4EventParser.feed (parser : H4EventParser) (data : List UInt8) :
    Except HciContractError (List HciEvent) × H4EventParser :=
  feedLoop (parser.buffer ++ data) parser.aclPackets []

/-- `command_packet`: `struct.pack("<HB", …)` writes the opcode little-endian. -/
def commandPacket (opcode : Int) (parameters : List UInt8) : Except HciContractError (List UInt8) :=
  if ¬ (0 ≤ opcode ∧ opcode ≤ 0xFFFF) then .error .opcodeRange
  else if parameters.length > 0xFF then .error .parametersTooLong
  else .ok ([h4Command] ++ [UInt8.ofNat opcode.toNat, UInt8.ofNat (opcode.toNat / 256),
    UInt8.ofNat parameters.length] ++ parameters)

/-- What `acl_put` writes. -/
def aclPut (packet : List UInt8) : Except HciContractError (List UInt8) :=
  if packet.length < 4 ∨ packet.length ≠ littleEndian (slice packet 2 4) + 4 then
    .error .malformedAcl
  else .ok ([h4Acl] ++ packet)

/-- `command_complete`; `none` is no match. -/
def commandComplete (event : HciEvent) (opcode : Int) :
    Except HciContractError (Option (List UInt8)) :=
  if event.eventCode ≠ eventCommandCompleteCode then .ok none
  else if event.parameters.length < 4 then .error .truncatedComplete
  else
    let completedOpcode : Int := littleEndian (slice event.parameters 1 3)
    if completedOpcode ≠ opcode then .ok none
    else
      match event.parameters.drop 3 with
      | [] => .error .noStatus
      | status :: returnParameters =>
        if status ≠ 0 then .error (.commandFailed opcode status) else .ok (some returnParameters)

/-- `command_status`. -/
def commandStatus (event : HciEvent) (opcode : Int) : Except HciContractError Bool :=
  if event.eventCode ≠ eventCommandStatusCode then .ok false
  else if event.parameters.length ≠ 4 then .error .malformedStatus
  else
    let completedOpcode : Int := littleEndian (slice event.parameters 2 4)
    if completedOpcode ≠ opcode then .ok false
    else
      match event.parameters with
      | [] => .error .malformedStatus
      | status :: _ => if status ≠ 0 then .error (.commandFailed opcode status) else .ok true

end NrfKit.Hci
