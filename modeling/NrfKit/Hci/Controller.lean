import NrfKit.Lib.Objects

/- `src/wireless/sdc/nrf54l/hci.c`: one raw HCI command packet dispatched to the
   SoftDevice Controller and answered by one encoded event.

   The opcodes, the sizes of the command structures and the functions
   `sdc_hci_cmd_*` come from outside the repository: they are the parameter
   `Controller`, and what a call of one returns is arbitrary. -/
namespace NrfKit.Hci
open Objects

/-- `NRFKIT_SDC_VARIANT_*`: every image is built for exactly one of them. -/
inductive Variant where
  | multirole
  | peripheral
  | central
  deriving DecidableEq, Repr

/-- The commands of the switch, by the name of their function. -/
inductive Command where
  | cbReset
  | ipReadLocalVersionInformation
  | ipReadLocalSupportedFeatures
  | leReadLocalSupportedFeatures
  | cbSetEventMask
  | leSetEventMask
  | leSetRandomAddress
  | leSetAdvParams
  | leSetAdvData
  | leSetAdvEnable
  | leSetScanParams
  | leSetScanEnable
  | leCreateConn
  | lcDisconnect
  deriving DecidableEq, Repr

/-- What is taken from the controller library. `parameterSize` and `returnSize` are the
sizes of a command's `_t` and `_return_t` structures, `status` what its function returns
for the bytes it is given, and `returned` the structure it fills. -/
structure Controller where
  opcode : Command → UInt16
  parameterSize : Command → Nat
  returnSize : Command → Nat
  status : Command → List UInt8 → UInt8
  returned : Command → List UInt8
  returned_length : ∀ command, (returned command).length = returnSize command
  /-- `NRF_EINVAL` of `nrf_errno.h`. -/
  einval : Int

def statusUnknownCommand : UInt8 := 0x01
def statusInvalidParameters : UInt8 := 0x12
def eventCommandComplete : UInt8 := 0x0e
def eventCommandStatus : UInt8 := 0x0f

/-- What `dispatch` returns and what it leaves in its output arguments. -/
structure Dispatched where
  status : UInt8
  returnParameters : Object UInt8
  returnSize : Nat
  commandStatus : UInt8

variable (c : Controller)

/-- A case of the switch that hands the parameters to the controller. They are read by
the controller, as a structure of the size it was checked against. -/
def withParameters (command : Command) (packet : Object UInt8) (parameterSize : Nat)
    (returnParameters : Object UInt8) (commandStatus : UInt8) : Except Fault Dispatched :=
  if parameterSize = c.parameterSize command then do
    let parameters ← packet.loads 3 (c.parameterSize command)
    .ok ⟨c.status command parameters, returnParameters, 0, commandStatus⟩
  else .ok ⟨statusInvalidParameters, returnParameters, 0, commandStatus⟩

/-- A case of the switch that reads a structure from the controller. -/
def reading (command : Command) (parameterSize : Nat) (returnParameters : Object UInt8) :
    Except Fault Dispatched :=
  if parameterSize ≠ 0 then .ok ⟨statusInvalidParameters, returnParameters, 0, 0⟩
  else
    let status := c.status command []
    if status = 0 then do
      let returnParameters ←
        returnParameters.copy 0 (known (c.returned command)) (c.returnSize command)
      .ok ⟨status, returnParameters, c.returnSize command, 0⟩
    else .ok ⟨status, returnParameters, 0, 0⟩

/-- The cases compiled for the variants that advertise. -/
def advertises : Variant → Bool
  | .multirole | .peripheral => true
  | .central => false

/-- The cases compiled for the variants that scan and connect. -/
def scans : Variant → Bool
  | .multirole | .central => true
  | .peripheral => false

/-- `dispatch`; the parameters are the bytes of the packet from the fourth on. -/
def dispatch (variant : Variant) (opcode : UInt16) (packet : Object UInt8) (parameterSize : Nat)
    (returnParameters : Object UInt8) : Except Fault Dispatched :=
  if opcode = c.opcode .cbReset then
    .ok ⟨if parameterSize = 0 then c.status .cbReset [] else statusInvalidParameters,
      returnParameters, 0, 0⟩
  else if opcode = c.opcode .ipReadLocalVersionInformation then
    reading c .ipReadLocalVersionInformation parameterSize returnParameters
  else if opcode = c.opcode .ipReadLocalSupportedFeatures then
    reading c .ipReadLocalSupportedFeatures parameterSize returnParameters
  else if opcode = c.opcode .leReadLocalSupportedFeatures then
    reading c .leReadLocalSupportedFeatures parameterSize returnParameters
  else if opcode = c.opcode .cbSetEventMask then
    withParameters c .cbSetEventMask packet parameterSize returnParameters 0
  else if opcode = c.opcode .leSetEventMask then
    withParameters c .leSetEventMask packet parameterSize returnParameters 0
  else if opcode = c.opcode .leSetRandomAddress then
    withParameters c .leSetRandomAddress packet parameterSize returnParameters 0
  else if advertises variant ∧ opcode = c.opcode .leSetAdvParams then
    withParameters c .leSetAdvParams packet parameterSize returnParameters 0
  else if advertises variant ∧ opcode = c.opcode .leSetAdvData then
    withParameters c .leSetAdvData packet parameterSize returnParameters 0
  else if advertises variant ∧ opcode = c.opcode .leSetAdvEnable then
    withParameters c .leSetAdvEnable packet parameterSize returnParameters 0
  else if scans variant ∧ opcode = c.opcode .leSetScanParams then
    withParameters c .leSetScanParams packet parameterSize returnParameters 0
  else if scans variant ∧ opcode = c.opcode .leSetScanEnable then
    withParameters c .leSetScanEnable packet parameterSize returnParameters 0
  else if scans variant ∧ opcode = c.opcode .leCreateConn then
    withParameters c .leCreateConn packet parameterSize returnParameters 1
  else if opcode = c.opcode .lcDisconnect then
    withParameters c .lcDisconnect packet parameterSize returnParameters 1
  else .ok ⟨statusUnknownCommand, returnParameters, 0, 0⟩

/-- The result of `nrfkit_sdc_hci_command`, the caller's event object after it, and
`*event_size` where it was written. -/
structure Answer where
  result : Int
  event : Option (Object UInt8)
  eventSize : Option Nat
  deriving DecidableEq

/-- The event of a command answered by Command Status. -/
def encodeStatus (event : Object UInt8)
    (status low high : UInt8) : Except Fault (Object UInt8) := do
  let event ← event.store 0 eventCommandStatus
  let event ← event.store 1 4
  let event ← event.store 2 status
  let event ← event.store 3 1
  let event ← event.store 4 low
  event.store 5 high

/-- The event of every other command. -/
def encodeComplete (event : Object UInt8) (dispatched : Dispatched) (low high : UInt8) :
    Except Fault (Object UInt8) := do
  let event ← event.store 0 eventCommandComplete
  let event ← event.store 1 (UInt8.ofNat (4 + dispatched.returnSize))
  let event ← event.store 2 1
  let event ← event.store 3 low
  let event ← event.store 4 high
  let event ← event.store 5 dispatched.status
  event.copy 6 dispatched.returnParameters dispatched.returnSize

/-- `nrfkit_sdc_hci_command`. A pointer is the object it leads to, or `none` if NULL;
`eventSize` says whether `event_size` is not NULL. -/
def nrfkitSdcHciCommand (variant : Variant) (command : Option (Object UInt8)) (commandSize : Nat)
    (event : Option (Object UInt8)) (eventCapacity : Nat)
    (eventSize : Bool) : Except Fault Answer :=
  match command, event, eventSize with
  | some packet, some object, true =>
    if commandSize < 3 then .ok ⟨-c.einval, event, none⟩
    else do
      let size ← packet.load 2
      if commandSize ≠ size.toNat + 3 ∨ eventCapacity < 14 then
        .ok ⟨-c.einval, event, none⟩
      else do
        let low ← packet.load 0
        let high ← packet.load 1
        let opcode := low.toUInt16 ||| (high.toUInt16 <<< 8)
        let dispatched ← dispatch c variant opcode packet size.toNat (List.replicate 8 none)
        if dispatched.commandStatus ≠ 0 then do
          let object ← encodeStatus object dispatched.status low high
          .ok ⟨0, some object, some 6⟩
        else do
          let object ← encodeComplete object dispatched low high
          .ok ⟨0, some object, some (6 + dispatched.returnSize)⟩
  | _, _, _ => .ok ⟨-c.einval, event, none⟩

end NrfKit.Hci
