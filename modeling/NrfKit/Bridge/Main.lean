import NrfKit.Lib.Interleave
import NrfKit.Lib.Ring
import NrfKit.Hci.Controller

/- `examples/m6-sdc-validation/main.c`: the H4 bridge between a UART and the controller.
   The UART interrupt stores received bytes in a ring, the main loop takes whole H4
   packets out of it, hands them to the controller and answers commands.

   The interrupt may run between any two accesses of the main loop to `rx_read` and
   `rx_write`, and during every call it makes. Each pass of a loop of `main` is a program
   of its own; `stage` says which loop comes next. `received` is a parameter: it is
   `receivedVolatile` as the source has it, or `receivedExact` where its count is taken
   to be the number of unread bytes. -/
namespace NrfKit.Bridge
open Interleave Objects Hci

def rxRingSize : Nat := 512

/-- What the interrupt owns. `stored` is every byte it has put into the ring. -/
structure Uart where
  rxWrite : Nat := 0
  rxRing : Object UInt8 := List.replicate rxRingSize (some 0)
  uartFault : Bool := false
  stored : List UInt8 := []
  outOfBounds : Bool := false

/-- The loop of `main` that comes next. -/
inductive Stage where
  | top
  | packets
  | events
  deriving DecidableEq, Repr

/-- A packet handed on, without its H4 type byte. -/
inductive Handed where
  | command (bytes : List UInt8)
  | acl (bytes : List UInt8)
  deriving DecidableEq, Repr

/-- What the main loop owns. `consumed` is every byte it has taken, `counted` what
`received` returned last, `replies` what it sent in answer to commands. -/
structure Main where
  rxRead : Nat := 0
  stage : Stage := .top
  command : Object UInt8 := List.replicate 258 none
  aclSubmissions : UInt8 := 0
  aclPutResult : Int := 0
  consumed : List UInt8 := []
  counted : Nat := 0
  handed : List Handed := []
  replies : List (List UInt8) := []

structure State where
  main : Main := {}
  uart : Uart := {}

/-- Bytes stored and not consumed. -/
def State.unread (s : State) : Nat := s.uart.stored.length - s.main.consumed.length

/-- Why `main` stands still. -/
inductive Stop where
  | outOfBounds
  | packetSize
  | reply
  | uartFault
  | timeslotRequest
  | messageType
  | send
  deriving DecidableEq, Repr

/-- The data behind the diagnostic command. -/
structure Diagnostics where
  requiredMemory : UInt32
  stackUsed : UInt32
  lifecycleEnables : UInt8
  faultMagic : Bool
  canaries : Bool
  faultSource : UInt32
  faultLine : UInt32

/-- The counters of the Timeslot handler. -/
structure Counters where
  grants : UInt32
  deadlines : UInt32
  blocked : UInt32
  cancelled : UInt32
  closed : UInt32
  extendSucceeded : UInt32
  extendFailed : UInt32
  privatePackets : UInt32

/-- What `main` calls or reads outside this file. -/
inductive Call where
  | sdcProcess
  | rramProcess
  | timeslotPending
  | timeslotRequest
  | timeslotIdle
  | hciAclPut
  | diagnostics
  | counters
  | rramSubmit
  | rramResult
  | hciCommand
  | hciGet
  | send
  deriving DecidableEq, Repr

abbrev Call.Result : Call → Type
  | sdcProcess | rramProcess => Unit
  | timeslotPending | timeslotRequest | timeslotIdle | send => Bool
  | hciAclPut | rramSubmit | rramResult => Int
  | diagnostics => Diagnostics
  | counters => Counters
  | hciCommand => Controller
  | hciGet => Option (UInt8 × List UInt8)

/-- What the main loop has just done where it is interrupted. -/
inductive Phase where
  | indexAccessed
  | writeRead (write : Nat)
  | bothRead (straight : Bool)
  | counted (count : Nat)
  | calling (call : Call)
  | stopped (reason : Stop)

abbrev Phase.Answer : Phase → Type
  | .calling call => call.Result
  | _ => Unit

/-- An interruption: the state `main` left, and where it is. -/
structure Query where
  seen : State
  phase : Phase

abbrev Query.Answer (q : Query) : Type := q.phase.Answer

abbrev BridgeTurn := Turn State Query Query.Answer Unit

def pause (s : State) (k : State → BridgeTurn) : BridgeTurn :=
  .wait s ⟨s, .indexAccessed⟩ fun _ s => k s

def call (c : Call) (s : State) (k : c.Result → State → BridgeTurn) : BridgeTurn :=
  .wait s ⟨s, .calling c⟩ k

/-- `nrfkit_assert_fail`, or an access out of bounds: `main` does not go on. -/
def stop (reason : Stop) (s : State) : BridgeTurn :=
  .wait s ⟨s, .stopped reason⟩ fun _ s => .halt s

/-! ## The interrupt -/

/-- `uart_handler` for NRFX_UARTE_EVT_RX_DONE. -/
def uartRxDone (rxRead : Nat) : List UInt8 → Uart → Uart
  | [], u => u
  | byte :: bytes, u =>
    let next := (u.rxWrite + 1) % rxRingSize
    if next = rxRead then { u with uartFault := true }
    else
      match u.rxRing.store u.rxWrite byte with
      | .error _ => { u with outOfBounds := true }
      | .ok ring => uartRxDone rxRead bytes
          { u with rxRing := ring, rxWrite := next, stored := u.stored ++ [byte] }

/-! ## Taking bytes out of the ring -/

/-- `received` returns `count`. -/
def counted (count : Nat) (s : State) (k : Nat → State → BridgeTurn) : BridgeTurn :=
  let s := { s with main := { s.main with counted := count } }
  .wait s ⟨s, .counted count⟩ fun _ s => k count s

/-- `received`. Each index is read where the expression names it; the differences are
`size_t`. -/
def receivedVolatile (s : State) (k : Nat → State → BridgeTurn) : BridgeTurn :=
  let write := s.uart.rxWrite
  .wait s ⟨s, .writeRead write⟩ fun _ s =>
    let straight := decide (s.main.rxRead ≤ write)
    .wait s ⟨s, .bothRead straight⟩ fun _ s =>
      if straight then
        let write := s.uart.rxWrite
        pause s fun s => counted (((write : Int) - s.main.rxRead) % 2 ^ 32).toNat s k
      else
        let read := s.main.rxRead
        pause s fun s => counted (rxRingSize - read + s.uart.rxWrite) s k

/-- The byte at an index of the ring. -/
def ringByte (index : Nat) (s : State) (k : UInt8 → State → BridgeTurn) : BridgeTurn :=
  match s.uart.rxRing.load index with
  | .error _ => stop .outOfBounds s
  | .ok value => k value s

/-- `rx_read + offset`, modulo the size of the ring where `offset` is not 0. -/
def readIndex (s : State) (k : Nat → State → BridgeTurn) : BridgeTurn :=
  let read := s.main.rxRead
  pause s fun s => k read s

def receiveByte (s : State) (k : UInt8 → State → BridgeTurn) : BridgeTurn :=
  readIndex s fun index s =>
  ringByte index s fun value s =>
  readIndex s fun read s =>
    let s := { s with main := { s.main with
      rxRead := (read + 1) % rxRingSize
      consumed := s.main.consumed ++ [value] } }
    pause s (k value)

/-- `command[index] = receive_byte()` for `left` bytes from `index` on. -/
def receiveCommand : Nat → Nat → State → (State → BridgeTurn) → BridgeTurn
  | 0, _, s, k => k s
  | left + 1, index, s, k =>
    receiveByte s fun value s =>
      match s.main.command.store index value with
      | .error _ => stop .outOfBounds s
      | .ok command =>
        receiveCommand left (index + 1) { s with main := { s.main with command := command } } k

/-! ## Answering a command -/

/-- The four bytes of a word, lowest first. -/
def word (value : UInt32) : List UInt8 :=
  [value.toUInt8, (value >>> 8).toUInt8, (value >>> 16).toUInt8, (value >>> 24).toUInt8]

def flag (b : Bool) : UInt8 := if b then 1 else 0

def wordOf (value : Int) : UInt32 := UInt32.ofNat (value % 2 ^ 32).toNat

/-- `send`, up to the completion of the transfer. -/
def sendBytes (s : State) : BridgeTurn :=
  call .send s fun accepted s => if accepted then .done s () else stop .send s

/-- Sends `output[0 .. eventSize]` in answer to a command. -/
def sendReply (output : List UInt8) (eventSize : Nat) (s : State) : BridgeTurn :=
  sendBytes { s with main := { s.main with
    replies := s.main.replies ++ [output.take (eventSize + 1)] } }

/-- The image is built for `variant`, and with `NRFKIT_M7_TIMESLOT` or not. -/
structure Image where
  variant : Variant
  timeslot : Bool

variable (image : Image)

/-- A command of the controller: `nrfkit_sdc_hci_command(command, packet_size - 1,
&output[1], sizeof(output) - 1, &event_size)`. -/
def answerController (packetSize : Nat) (s : State) : BridgeTurn :=
  call .hciCommand s fun controller s =>
    match nrfkitSdcHciCommand controller image.variant (some s.main.command) (packetSize - 1)
        (some (List.replicate 259 none)) 259 true with
    | .error _ => stop .outOfBounds s
    | .ok answer =>
      if answer.result ≠ 0 then stop .reply s
      else
        match answer.event, answer.eventSize with
        | some event, some eventSize =>
          match event.loads 0 eventSize with
          | .error _ => stop .outOfBounds s
          | .ok event => sendReply (0x04 :: event) eventSize s
        | _, _ => stop .reply s

/-- The branches for the vendor commands 0xFC00 to 0xFC05. -/
def answerCommand (packetSize : Nat) (s : State) : BridgeTurn :=
  match s.main.command.load 0, s.main.command.load 1, s.main.command.load 2 with
  | .ok c0, .ok c1, .ok c2 =>
    if c0 = 0x00 ∧ c1 = 0xFC ∧ c2 = 0 then
      call .diagnostics s fun d s =>
        sendReply ([0x04, 0x0E, 29, 1, c0, c1, 0] ++ word d.requiredMemory ++ word d.stackUsed ++
          [d.lifecycleEnables, flag d.faultMagic, flag s.uart.uartFault, s.main.aclSubmissions] ++
          word (wordOf s.main.aclPutResult) ++ [flag d.canaries] ++ word d.faultSource ++
          word d.faultLine) 31 s
    else if image.timeslot ∧ c0 = 0x04 ∧ c1 = 0xFC ∧ c2 = 0 then
      call .rramSubmit s fun status s =>
        sendReply [0x04, 0x0e, 4, 1, c0, c1, if status = 0 then 0 else 0x0c] 6 s
    else if image.timeslot ∧ c0 = 0x05 ∧ c1 = 0xFC ∧ c2 = 0 then
      call .rramResult s fun status s =>
        sendReply ([0x04, 0x0e, 8, 1, c0, c1, 0] ++ word (wordOf status)) 10 s
    else if image.timeslot ∧ c0 = 0x01 ∧ c1 = 0xFC ∧ c2 = 0 then
      call .counters s fun n s =>
        sendReply ([0x04, 0x0E, 36, 1, c0, c1, 0] ++ word n.grants ++ word n.deadlines ++
          word n.blocked ++
          word n.cancelled ++ word n.closed ++ word n.extendSucceeded ++ word n.extendFailed ++
          word n.privatePackets) 38 s
    else if image.timeslot ∧ c0 = 0x02 ∧ c1 = 0xFC ∧ c2 = 0 then
      call .timeslotIdle s fun idle s =>
        let output := [0x04, 0x0E, 4, 1, c0, c1, if idle then 0 else 0x0C]
        call .timeslotIdle s fun idle s =>
          if idle then
            call .timeslotRequest s fun accepted s =>
              if accepted then sendReply output 6 s else stop .timeslotRequest s
          else sendReply output 6 s
    else if c0 = 0x03 ∧ c1 = 0xFC ∧ c2 = 0 then
      sendReply [0x04, 0x0E, 4, 1, c0, c1, 0] 6 s
    else answerController image packetSize s
  | _, _, _ => stop .outOfBounds s

/-! ## The loops of `main` -/

/-- The packet is in `command[]`. -/
def handPacket (packetType : UInt8) (packetSize : Nat) (s : State) : BridgeTurn :=
  match s.main.command.loads 0 (packetSize - 1) with
  | .error _ => stop .outOfBounds s
  | .ok bytes =>
    if packetType = 0x02 then
      let s := { s with main := { s.main with handed := s.main.handed ++ [.acl bytes] } }
      call .hciAclPut s fun result s =>
        .done { s with main := { s.main with
          aclPutResult := result
          aclSubmissions :=
            if result = 0 then s.main.aclSubmissions + 1 else s.main.aclSubmissions } } ()
    else
      let s := { s with main := { s.main with handed := s.main.handed ++ [.command bytes] } }
      answerCommand image packetSize s

/-- The loop over the packets is left. -/
def leavePackets (s : State) : BridgeTurn :=
  .done { s with main := { s.main with stage := .events } } ()

section
variable (received : State → (Nat → State → BridgeTurn) → BridgeTurn)

/-- `packet_size` is known. -/
def takePacket (packetType : UInt8) (packetSize : Nat) (s : State) : BridgeTurn :=
  if packetSize - 1 > 258 then stop .packetSize s
  else received s fun count s =>
    if count < packetSize then leavePackets s
    else receiveByte s fun _ s =>
      receiveCommand (packetSize - 1) 0 s fun s => handPacket image packetType packetSize s

/-- One pass of the loop over the packets in the ring. -/
def packetPass (s : State) : BridgeTurn :=
  received s fun count s =>
    if count < 4 then leavePackets s
    else readIndex s fun index s =>
    ringByte index s fun packetType s =>
      if packetType ≠ 0x01 ∧ packetType ≠ 0x02 then receiveByte s fun _ s => .done s ()
      else if packetType = 0x01 then
        readIndex s fun read s =>
        ringByte ((read + 3) % rxRingSize) s fun length s =>
          takePacket image received packetType (length.toNat + 4) s
      else
        received s fun count s =>
          if count < 5 then leavePackets s
          else readIndex s fun low s =>
          readIndex s fun high s =>
          ringByte ((low + 3) % rxRingSize) s fun lengthLow s =>
          ringByte ((high + 4) % rxRingSize) s fun lengthHigh s =>
            takePacket image received packetType (lengthLow.toNat + lengthHigh.toNat * 256 + 5) s

/-- The outer loop up to the loop over the packets. -/
def topPass (s : State) : BridgeTurn :=
  let check (s : State) : BridgeTurn :=
    if s.uart.uartFault then stop .uartFault s
    else .done { s with main := { s.main with stage := .packets } } ()
  call .sdcProcess s fun _ s =>
    if image.timeslot then
      call .rramProcess s fun _ s =>
      call .timeslotPending s fun pending s =>
        if pending then
          call .timeslotRequest s fun accepted s =>
            if accepted then check s else stop .timeslotRequest s
        else check s
    else check s

/-- One pass of the loop over the controller's messages, and WFE after the last. -/
def eventPass (s : State) : BridgeTurn :=
  call .hciGet s fun message s =>
    match message with
    | none => .done { s with main := { s.main with stage := .top } } ()
    | some (type, _) =>
      if type ≠ 0x04 ∧ type ≠ 0x02 then stop .messageType s
      else sendBytes s

/-- A pass of a loop of `main`, or an event of the UART. -/
inductive Entry where
  | top
  | packets
  | events
  | rxDone (bytes : List UInt8)
  | uartError

def bridge : System State Query Query.Answer Entry Unit where
  prog
    | .top, s => topPass image s
    | .packets, s => packetPass image received s
    | .events, s => eventPass s
    | .rxDone bytes, s => .done { s with uart := uartRxDone s.main.rxRead bytes s.uart } ()
    | .uartError, s => .done { s with uart := { s.uart with uartFault := true } } ()
  enters ctx e s :=
    match e with
    | .top => ctx.isEmpty && s.main.stage == .top
    | .packets => ctx.isEmpty && s.main.stage == .packets
    | .events => ctx.isEmpty && s.main.stage == .events
    | .rxDone _ | .uartError => true
  answers _ q _ _ :=
    match q.phase with
    | .stopped _ => false
    | _ => true

end

end NrfKit.Bridge
