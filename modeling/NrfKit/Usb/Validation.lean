import NrfKit.Lib.Effects
import NrfKit.Lib.Struct

/- The USB validation: the firmware of `examples/m4-usb-validation/main.c` sends back what
   it is sent and counts it, and `run_transfer_validation` of
   `tools/nrfkit_tools/usb_validation.py` compares the counters before and after with its
   own traffic.

   The counters have 32 bits and the host subtracts integers. So a count that is right is
   accepted just where no counter passes its end (`counters_exact`); a wrong one is
   refused.

   The USB stack, PyUSB and the clock are outside: how often the loop goes round before its
   deadline is an answer like any other, and so is what raises. -/
namespace NrfKit.Usb.Validation
open Effects Prog Python Struct Bytes

def bulkOutEp : UInt8 := 0x01

def bulkInEp : UInt8 := 0x81

def hidOutEp : UInt8 := 0x02

def hidInEp : UInt8 := 0x82

/-! ## The firmware -/

/-- The static variables, and what the stack was last given to send. -/
structure Firmware where
  configuredCount : UInt32 := 0
  suspendCount : UInt32 := 0
  resumeCount : UInt32 := 0
  bulkRxBytes : UInt32 := 0
  bulkTxBytes : UInt32 := 0
  hidRxCount : UInt32 := 0
  hidTxCount : UInt32 := 0
  remoteWakeupCount : UInt32 := 0
  /-- The four registers of the core that the status holds. -/
  ghwcfg3 : UInt32 := 0
  grxfsiz : UInt32 := 0
  doepctl1 : UInt32 := 0
  doeptsiz1 : UInt32 := 0
  wakeDctlBefore : UInt32 := 0
  wakeDctlAfter : UInt32 := 0
  wakeDstsBefore : UInt32 := 0
  wakeDstsAfter : UInt32 := 0
  wakePcgcctlBefore : UInt32 := 0
  wakePcgcctlAfter : UInt32 := 0
  remoteWakeupResult : Int32 := 0
  bulkArmResult : Int32 := 0
  hidArmResult : Int32 := 0
  bulkRxBuffer : List UInt8 := List.replicate 512 0
  bulkTxBuffer : List UInt8 := List.replicate 512 0
  hidRxBuffer : List UInt8 := List.replicate 64 0
  hidTxBuffer : List UInt8 := List.replicate 64 0
  bulkIn : List UInt8 := []
  hidIn : List UInt8 := []

/-- `memcpy` of `count` bytes to the front of a buffer. -/
def copied (destination source : List UInt8) (count : UInt32) : List UInt8 :=
  source.take count.toNat ++ destination.drop count.toNat

/-- `armed` is what the stack returns for the next read. -/
def bulkInComplete (armed : Int32) (count : UInt32) (f : Firmware) : Firmware :=
  { f with bulkTxBytes := f.bulkTxBytes + count, bulkArmResult := armed }

def bulkOutComplete (count : UInt32) (f : Firmware) : Firmware :=
  let count := if count > 512 then 512 else count
  let buffer := copied f.bulkTxBuffer f.bulkRxBuffer count
  { f with bulkRxBytes := f.bulkRxBytes + count, bulkTxBuffer := buffer, bulkIn :=
    buffer.take count.toNat }

def hidInComplete (armed : Int32) (_count : UInt32) (f : Firmware) : Firmware :=
  { f with hidTxCount := f.hidTxCount + 1, hidArmResult := armed }

def hidOutComplete (count : UInt32) (f : Firmware) : Firmware :=
  let count := if count > 64 then 64 else count
  let buffer := copied f.hidTxBuffer f.hidRxBuffer count
  let buffer := if count ≠ 0 then 1 :: buffer.drop 1 else buffer
  { f with hidRxCount := f.hidRxCount + 1, hidTxBuffer := buffer, hidIn := buffer.take count.toNat }

/-- A transfer the stack reports; what was received stands in the buffer. -/
inductive Completion where
  | bulkIn (armed : Int32) (count : UInt32)
  | bulkOut (data : List UInt8)
  | hidIn (armed : Int32) (count : UInt32)
  | hidOut (data : List UInt8)

def Firmware.complete (f : Firmware) : Completion → Firmware
  | .bulkIn armed count => bulkInComplete armed count f
  | .bulkOut data => bulkOutComplete (UInt32.ofNat data.length)
    { f with bulkRxBuffer := copied f.bulkRxBuffer data (UInt32.ofNat data.length) }
  | .hidIn armed count => hidInComplete armed count f
  | .hidOut data => hidOutComplete (UInt32.ofNat data.length)
    { f with hidRxBuffer := copied f.hidRxBuffer data (UInt32.ofNat data.length) }

def Firmware.run (f : Firmware) (calls : List Completion) : Firmware :=
  calls.foldl Firmware.complete f

def statusMagic : UInt32 := 0x4D345553

/-- `struct usb_validation_status`. -/
def Firmware.statusWords (f : Firmware) : List UInt32 :=
  [statusMagic, f.configuredCount, f.suspendCount, f.resumeCount, f.bulkRxBytes, f.bulkTxBytes,
    f.hidRxCount, f.hidTxCount,
    f.remoteWakeupCount, f.ghwcfg3, f.grxfsiz, f.doepctl1, f.doeptsiz1, f.wakeDctlBefore,
      f.wakeDctlAfter, f.wakeDstsBefore,
    f.wakeDstsAfter, f.wakePcgcctlBefore, f.wakePcgcctlAfter, f.remoteWakeupResult.toUInt32,
      f.bulkArmResult.toUInt32,
    f.hidArmResult.toUInt32]

/-- A word in memory. -/
def wordBytes (word : UInt32) : List UInt8 :=
  [word.toUInt8, (word >>> 8).toUInt8, (word >>> 16).toUInt8, (word >>> 24).toUInt8]

/-- The answer of `vendor_request` to the status request. -/
def Firmware.statusResponse (f : Firmware) : List UInt8 := f.statusWords.flatMap wordBytes

/-! ## The host -/

inductive Op where
  | find
  | speed
  | claim
  | monotonic
  /-- The control transfer of the status request. -/
  | status
  | write (endpoint : UInt8) (data : List UInt8)
  | read (endpoint : UInt8) (size : Nat)
  /-- How often the loop goes round before its deadline. -/
  | rounds
  | release

abbrev Op.Ans : Op → Type
  | find | claim | release => Unit
  | speed => Option Int
  | monotonic => Rat
  | status | read _ _ => List UInt8
  | write _ _ | rounds => Nat

abbrev Session (α : Type) := Prog Op Op.Ans Raised Unit α

def ask (op : Op) : Session op.Ans := perform op

def lift {α : Type} : Except Raised α → Session α
  | .ok a => pure a
  | .error e => raise e

def usbError (text : String) : Raised := ⟨"UsbValidationError", text⟩

abbrev Status := List (String × Int)

def statusKeys : List String :=
  ["magic", "configured_count", "suspend_count", "resume_count", "bulk_rx_bytes", "bulk_tx_bytes",
    "hid_rx_count",
    "hid_tx_count", "remote_wakeup_count", "ghwcfg3", "grxfsiz", "doepctl1", "doeptsiz1",
      "wake_dctl_before",
    "wake_dctl_after", "wake_dsts_before", "wake_dsts_after", "wake_pcgcctl_before",
      "wake_pcgcctl_after",
    "remote_wakeup_result", "bulk_arm_result", "hid_arm_result"]

/-- `"<19I3i"`. -/
def statusFormat : Format := List.replicate 22 4

/-- The last three fields are signed. -/
def signedWord (word : Nat) : Int := if word < 2 ^ 31 then word else (word : Int) - 2 ^ 32

def statusValues (words : List Nat) : List Int :=
  (words.take 19).map Int.ofNat ++ (words.drop 19).map signedWord

def readStatus (raw : List UInt8) : Except Raised Status := do
  raiseIf (raw.length ≠ statusFormat.size) (usbError "USB status response has an invalid length")
  let values := statusValues (unpack statusFormat raw)
  raiseIf (values.head? ≠ some (statusMagic.toNat : Int))
    (usbError "USB status response has an invalid magic")
  pure (statusKeys.zip values)

/-- `status[key]` for a key of `statusKeys`. -/
def Status.item (s : Status) (key : String) : Int := (s.lookup key).getD 0

/-- What the transfers leave for the checks. -/
structure Outcome where
  started : Rat
  initial : Status
  final : Status
  bulkBytes : Nat
  transfers : Nat

def hidOut : List UInt8 := 2 :: (List.range 63).map fun i => UInt8.ofNat (i + 1)

section
-- `hashlib.sha256(data).digest()`
variable (digest : List UInt8 → List UInt8)

/-- `(seed * 16)[:512]`. -/
def payloadOf (counter : Nat) : List UInt8 :=
  let seed := digest ((List.range 8).map fun i => UInt8.ofNat (counter / 256 ^ i))
  (List.replicate 16 seed).flatten.take 512

/-- One turn of the loop: the bytes that went each way. -/
def stressRound (counter : Nat) : Session Nat := do
  when (2 ^ 64 ≤ counter) (raise ⟨"OverflowError", "int too big to convert"⟩)
  let payload := payloadOf digest counter
  let written : Nat ← ask (.write bulkOutEp payload)
  when (written ≠ payload.length) (raise (usbError "bulk OUT transfer was short"))
  let received : List UInt8 ← ask (.read bulkInEp payload.length)
  when (received ≠ payload)
    (raise (usbError ("bulk loopback mismatch at transfer " ++ toString counter)))
  pure payload.length

def stress (counter bulkBytes : Nat) : Nat → Session Nat
  | 0 => pure bulkBytes
  | rounds + 1 => do
    let sent ← stressRound digest counter
    stress (counter + 1) (bulkBytes + sent) rounds

def hidLoopback : Session Unit := do
  let written : Nat ← ask (.write hidOutEp hidOut)
  when (written ≠ hidOut.length) (raise (usbError "HID OUT transfer was short"))
  let received : List UInt8 ← ask (.read hidInEp hidOut.length)
  when (received ≠ 1 :: hidOut.drop 1) (raise (usbError "HID interrupt loopback data mismatch"))

def fetchStatus : Session Status := do
  let raw : List UInt8 ← ask .status
  lift (readStatus raw)

/-- The transfers between two reads of the status. -/
def exchange (started : Rat) : Session Outcome := do
  let initial ← fetchStatus
  hidLoopback
  let rounds : Nat ← ask .rounds
  let bulkBytes ← stress digest 0 0 rounds
  let final ← fetchStatus
  pure { started, initial, final, bulkBytes, transfers := rounds }

/-- Everything before the checks. -/
def transferred : Session Outcome := do
  ask .find
  let speed : Option Int ← ask .speed
  when (speed ≠ some 3) (raise (usbError "M4 validation device did not enumerate at high speed"))
  ask .claim
  let started : Rat ← ask .monotonic
  withFinally (exchange digest started) (ask .release)

/-- One of the four checks. -/
def requireCounter (o : Outcome) (key name : String) (traffic : Nat) : Except Raised Unit :=
  raiseIf (o.final.item key - o.initial.item key ≠ traffic)
    (usbError ("device " ++ name ++ " does not match host traffic"))

def requireCounters (o : Outcome) : Except Raised Unit := do
  requireCounter o "bulk_rx_bytes" "bulk RX byte counter" o.bulkBytes
  requireCounter o "bulk_tx_bytes" "bulk TX byte counter" o.bulkBytes
  requireCounter o "hid_rx_count" "HID RX counter" 1
  requireCounter o "hid_tx_count" "HID TX counter" 1

structure Report where
  bulkBytesEachDirection : Nat
  bulkTransfers : Nat
  elapsedSeconds : Rat
  initialStatus : Status
  finalStatus : Status

def runTransferValidation : Session Report := do
  let o ← transferred digest
  lift (requireCounters o)
  let ended : Rat ← ask .monotonic
  pure
    { bulkBytesEachDirection := o.bulkBytes
      bulkTransfers := o.transfers
      elapsedSeconds := ended - o.started
      initialStatus := o.initial
      finalStatus := o.final }

end

/-! ## The counters -/

inductive Counter where
  | bulkRx
  | bulkTx
  | hidRx
  | hidTx

def Counter.value : Counter → Firmware → UInt32
  | bulkRx, f => f.bulkRxBytes
  | bulkTx, f => f.bulkTxBytes
  | hidRx, f => f.hidRxCount
  | hidTx, f => f.hidTxCount

def Counter.key : Counter → String
  | bulkRx => "bulk_rx_bytes"
  | bulkTx => "bulk_tx_bytes"
  | hidRx => "hid_rx_count"
  | hidTx => "hid_tx_count"

/-- What the host sent or received. -/
def Counter.traffic (o : Outcome) : Counter → Nat
  | bulkRx | bulkTx => o.bulkBytes
  | hidRx | hidTx => 1

/-- What a completion counts. -/
def Counter.counts : Counter → Completion → Nat
  | bulkRx, .bulkOut data => min (UInt32.ofNat data.length).toNat 512
  | bulkTx, .bulkIn _ count => count.toNat
  | hidRx, .hidOut _ | hidTx, .hidIn _ _ => 1
  | _, _ => 0

def Counter.counted (c : Counter) (calls : List Completion) : Nat := (calls.map c.counts).sum

theorem complete_value (c : Counter) (f : Firmware) (call : Completion) :
    (c.value (f.complete call)).toNat = ((c.value f).toNat + c.counts call) % 2 ^ 32 := by
  have hkept : ∀ word : UInt32, word.toNat = (word.toNat + 0) % 2 ^ 32 := fun word =>
    (Nat.mod_eq_of_lt word.toNat_lt).symm
  have hone : ∀ word : UInt32, (word + 1).toNat = (word.toNat + 1) % 2 ^ 32 :=
    fun word => UInt32.toNat_add word 1
  have hlimit : ∀ count : UInt32,
      (if count > 512 then 512 else count : UInt32).toNat = min count.toNat 512 := by
    intro count
    split
    · rename_i hmore
      exact (Nat.min_eq_right (Nat.le_of_lt hmore)).symm
    · rename_i hmore
      exact (Nat.min_eq_left (Nat.not_lt.mp hmore)).symm
  cases call with
  | bulkIn armed count =>
    cases c with
    | bulkTx => exact UInt32.toNat_add _ _
    | bulkRx | hidRx | hidTx => exact hkept _
  | bulkOut data =>
    cases c with
    | bulkRx => exact (UInt32.toNat_add _ _).trans (by rw [hlimit]; rfl)
    | bulkTx | hidRx | hidTx => exact hkept _
  | hidIn armed count =>
    cases c with
    | hidTx => exact hone _
    | bulkRx | bulkTx | hidRx => exact hkept _
  | hidOut data =>
    cases c with
    | hidRx => exact hone _
    | bulkRx | bulkTx | hidTx => exact hkept _

/-- A counter holds what was counted modulo 2^32. -/
theorem run_value (c : Counter) (f : Firmware) (calls : List Completion) :
    (c.value (f.run calls)).toNat = ((c.value f).toNat + c.counted calls) % 2 ^ 32 := by
  induction calls generalizing f with
  | nil => exact (Nat.mod_eq_of_lt (c.value f).toNat_lt).symm
  | cons call calls ih =>
    have hstep := ih (f.complete call)
    rw [complete_value, Nat.mod_add_mod, Nat.add_assoc] at hstep
    exact hstep

/-! ## The status -/

/-- The status the host makes of the firmware's answer. -/
def Firmware.status (f : Firmware) : Status :=
  statusKeys.zip (statusValues (f.statusWords.map UInt32.toNat))

theorem littleEndian_wordBytes (word : UInt32) : littleEndian (wordBytes word) = word.toNat := by
  have hword := word.toNat_lt
  simp [wordBytes, littleEndian, UInt32.toNat_shiftRight, Nat.shiftRight_eq_div_pow]
  omega

theorem unpack_words (words : List UInt32) :
    unpack (List.replicate words.length 4) (words.flatMap wordBytes) = words.map UInt32.toNat := by
  induction words with
  | nil => rfl
  | cons word words ih =>
    have hlength : (wordBytes word).length = 4 := rfl
    rw [List.length_cons, List.replicate_succ, List.flatMap_cons, unpack, ← hlength, List.take_left,
      List.drop_left, hlength, ih, littleEndian_wordBytes]
    rfl

/-- The host reads what the firmware answers. -/
theorem readStatus_response (f : Firmware) : readStatus f.statusResponse = .ok f.status := by
  have hunpack : unpack statusFormat f.statusResponse = f.statusWords.map UInt32.toNat :=
    unpack_words f.statusWords
  have hlength : f.statusResponse.length = statusFormat.size := rfl
  rw [readStatus, hunpack]
  -- The length and the magic are those of the structure.
  refine bind_ok.mpr ⟨(), raiseIf_ok.mpr (not_not_intro hlength), ?_⟩
  exact bind_ok.mpr ⟨(), raiseIf_ok.mpr (not_not_intro rfl), rfl⟩

theorem status_item (c : Counter) (f : Firmware) : f.status.item c.key = (c.value f).toNat := by
  cases c <;> rfl

/-! ## The checks -/

theorem requireCounters_ok {o : Outcome} :
    requireCounters o = .ok () ↔
    ∀ c : Counter, o.final.item c.key - o.initial.item c.key = c.traffic o := by
  simp only [requireCounters, requireCounter, bind_ok, raiseIf_ok, Decidable.not_not,
    exists_and_left, exists_const]
  constructor
  · rintro ⟨hbulkRx, hbulkTx, hhidRx, hhidTx⟩ c
    cases c
    · exact hbulkRx
    · exact hbulkTx
    · exact hhidRx
    · exact hhidTx
  · exact fun h => ⟨h .bulkRx, h .bulkTx, h .hidRx, h .hidTx⟩

section
variable {digest : List UInt8 → List UInt8} {env : Env Op Op.Ans Raised}
    {w w' : World Op Op.Ans Raised Unit} {f : Firmware}
    {calls : List Completion} {o : Outcome}

/-- The validation returns a report. -/
def Accepts (digest : List UInt8 → List UInt8) (env : Env Op Op.Ans Raised)
    (w : World Op Op.Ans Raised Unit) : Prop :=
  ∃ report, (runTransferValidation digest env w).1 = .ok report

/-- `time.monotonic` does not raise. -/
def Clock (env : Env Op Op.Ans Raised) : Prop := ∀ history, ∃ t, env history .monotonic = .ok t

/-- Behind the transfers the checks decide. -/
theorem accepts_iff (h : transferred digest env w = (.ok o, w')) (hclock : Clock env) :
    Accepts digest env w ↔ requireCounters o = .ok () := by
  have hrun : runTransferValidation digest env w = Prog.bind (lift (requireCounters o)) (fun _ => do
      let ended : Rat ← ask .monotonic
      pure
        { bulkBytesEachDirection := o.bulkBytes, bulkTransfers := o.transfers,
          elapsedSeconds := ended - o.started,
          initialStatus := o.initial, finalStatus := o.final }) env w' := by
    show Prog.bind (transferred digest) _ env w = _
    rw [Prog.bind, h]
    rfl
  rw [Accepts, hrun]
  cases hchecks : requireCounters o with
  | error e => exact iff_of_false (fun ⟨_, hok⟩ => nomatch hok) nofun
  | ok u =>
    obtain ⟨t, ht⟩ := hclock w'.history
    refine iff_of_true ⟨⟨o.bulkBytes, o.transfers, t - o.started, o.initial, o.final⟩, ?_⟩ rfl
    show (Prog.bind (ask .monotonic) _ env w').1 = _
    rw [Prog.bind, ask, perform, ht]
    rfl

/-- The firmware counted the host's traffic. -/
def Exact (calls : List Completion) (o : Outcome) : Prop :=
  ∀ c : Counter, c.counted calls = c.traffic o

/-- A counter differs from the host's traffic modulo 2^32. -/
def Differs (calls : List Completion) (o : Outcome) : Prop :=
  ∃ c : Counter, c.counted calls % 2 ^ 32 ≠ c.traffic o % 2 ^ 32

/-- No counter passes its end. -/
def NoWrap (f : Firmware) (o : Outcome) : Prop :=
  ∀ c : Counter, (c.value f).toNat + c.traffic o < 2 ^ 32

/-- The host subtracts what the counters hold. -/
theorem accepts_counted (hclock : Clock env) (h : transferred digest env w = (.ok o, w'))
    (hinitial : o.initial = f.status) (hfinal : o.final = (f.run calls).status) :
    Accepts digest env w ↔
      ∀ c : Counter, (((c.value f).toNat + c.counted calls) % 2 ^ 32 : Nat) - ((c.value f).toNat :
        Int) = c.traffic o := by
  rw [accepts_iff h hclock, requireCounters_ok, hinitial, hfinal]
  simp only [status_item, run_value]

theorem accepts_exact (hclock : Clock env) (h : transferred digest env w = (.ok o, w'))
    (hinitial : o.initial = f.status) (hfinal : o.final = (f.run calls).status)
    (hexact : Exact calls o) : Accepts digest env w ↔ NoWrap f o := by
  rw [accepts_counted hclock h hinitial hfinal]
  refine forall_congr' fun c => ?_
  -- The difference of the words is the count, or 2^32 less where the counter wrapped.
  have hword := (c.value f).toNat_lt
  rw [hexact c]
  omega

/-- **The counter checks.** Where the firmware `f` took the calls between the two reads of its
status, a count that differs is refused, and an exact one of less than 2^32 bytes is accepted
just where no counter wraps. -/
theorem counters_exact (hclock : Clock env) (h : transferred digest env w = (.ok o, w'))
    (hinitial : o.initial = f.status) (hfinal : o.final = (f.run calls).status) :
    ((Exact calls o → o.bulkBytes < 2 ^ 32 → Accepts digest env w) ∧
      (Differs calls o → ¬ Accepts digest env w)) ↔
      (Exact calls o → o.bulkBytes < 2 ^ 32 → NoWrap f o) := by
  have hdiffers : Differs calls o → ¬ Accepts digest env w := by
    rintro ⟨c, hc⟩ haccepts
    have heq := (accepts_counted hclock h hinitial hfinal).mp haccepts c
    omega
  constructor
  · rintro ⟨haccepts, _⟩ hexact hbytes
    exact (accepts_exact hclock h hinitial hfinal hexact).mp (haccepts hexact hbytes)
  · intro hnowrap
    exact ⟨fun hexact hbytes =>
      (accepts_exact hclock h hinitial hfinal hexact).mpr (hnowrap hexact hbytes), hdiffers⟩

end

/-! ## Over a link that loses nothing -/

/-- The completion an operation of the host leads to. -/
def completion (e : Event Op Op.Ans Raised) : Option Completion :=
  match e with
  | ⟨.write endpoint data, _⟩ => if endpoint = bulkOutEp then some (.bulkOut data)
    else some (.hidOut data)
  | ⟨.read endpoint _, .ok data⟩ =>
    if endpoint = bulkInEp then some (.bulkIn 0 (UInt32.ofNat data.length))
      else some (.hidIn 0 (UInt32.ofNat data.length))
  | _ => none

/-- The completions of a history. -/
def completions (history : History Op Op.Ans Raised) : List Completion :=
  history.filterMap completion

/-- The firmware `f` behind a link that loses nothing, and a deadline that leaves `rounds` turns. -/
def loopback (f : Firmware) (rounds : Nat) : Env Op Op.Ans Raised := fun history op =>
  match op with
  | .find | .claim | .release => .ok ()
  | .speed => .ok (some 3)
  | .monotonic => .ok 0
  | .status => .ok (f.run (completions history)).statusResponse
  | .write _ data => .ok data.length
  | .read endpoint _ =>
    .ok (if endpoint = bulkInEp then (f.run (completions history)).bulkIn
      else (f.run (completions history)).hidIn)
  | .rounds => .ok rounds

theorem clock_loopback (f : Firmware) (rounds : Nat) : Clock (loopback f rounds) :=
  fun _ => ⟨0, rfl⟩

section
variable {digest : List UInt8 → List UInt8} {f : Firmware} {rounds : Nat} {calls : List Completion}

/-- The completions so far. -/
abbrev Reported (calls : List Completion) (w : World Op Op.Ans Raised Unit) : Prop :=
  completions w.history = calls

/-- A program that ends without an exception. -/
abbrev Returns {α : Type} (f : Firmware) (rounds : Nat) (calls : List Completion) (m : Session α)
    (Q : α → World Op Op.Ans Raised Unit → Prop) : Prop :=
  Triple (loopback f rounds) (Reported calls) m Q fun _ _ => False

theorem returns_ask {op : Op} {Q : op.Ans → World Op Op.Ans Raised Unit → Prop}
    (h : ∀ w a, loopback f rounds w.history op = .ok a → Reported calls w →
      Q a { w with history := w.history ++ [⟨op, .ok a⟩] }) : Returns f rounds calls (ask op) Q :=
  triple_answered h fun w e herror _ => by cases op <;> nomatch herror

/-- An operation that the firmware does not notice. -/
theorem silent_then {α : Type} {op : Op} {answer : op.Ans} {rest : op.Ans → Session α}
    {Q : α → World Op Op.Ans Raised Unit → Prop} (h : ∀ outcome, completion ⟨op, outcome⟩ = none)
    (hanswer : ∀ history, completions history = calls → loopback f rounds history op = .ok answer)
    (hrest : Returns f rounds calls (rest answer) Q) :
    Returns f rounds calls (ask op >>= rest) Q := by
  refine triple_bind (fun a w => Reported calls w ∧ a = answer) (returns_ask
    fun w a ha hcalls => ⟨?_, ?_⟩) fun a =>
    triple_fact fun ha => ha ▸ hrest
  · show completions (w.history ++ _) = calls
    rw [completions, List.filterMap_append, List.filterMap_cons, h]
    exact (List.append_nil _).trans hcalls
  · exact Except.ok.inj (ha.symm.trans (hanswer w.history hcalls))

/-- One that it does. -/
theorem reported_then {α : Type} {op : Op} {answer : op.Ans} {call : Completion}
    {rest : op.Ans → Session α} {Q : α → World Op Op.Ans Raised Unit → Prop}
    (h : completion ⟨op, .ok answer⟩ = some call)
    (hanswer : ∀ history, completions history = calls → loopback f rounds history op = .ok answer)
    (hrest : Returns f rounds (calls ++ [call]) (rest answer) Q) :
    Returns f rounds calls (ask op >>= rest) Q := by
  refine triple_bind (fun a w => Reported (calls ++ [call]) w ∧ a = answer)
    (returns_ask fun w a ha hcalls => ?_) fun a =>
    triple_fact fun ha => ha ▸ hrest
  obtain rfl := Except.ok.inj (ha.symm.trans (hanswer w.history hcalls))
  refine ⟨?_, rfl⟩
  show completions (w.history ++ _) = _
  rw [completions, List.filterMap_append, List.filterMap_cons, h]
  exact congrArg (· ++ [call]) hcalls

theorem returns_when {condition : Bool} {m : Session Unit} (h : condition = false) :
    Returns f rounds calls (when condition m) fun _ => Reported calls := by
  subst h
  exact triple_pure fun _ hw => hw

/-- A check that passes. -/
theorem check_then {α : Type} {condition : Bool} {m : Session Unit} {rest : Unit → Session α}
    {Q : α → World Op Op.Ans Raised Unit → Prop} (h : condition = false)
    (hrest : Returns f rounds calls (rest ()) Q) :
    Returns f rounds calls (when condition m >>= rest) Q :=
  triple_bind _ (returns_when h) fun _ => hrest

/-! The firmware sends back what it received. -/

theorem run_concat (f : Firmware) (calls : List Completion) (call : Completion) :
    f.run (calls ++ [call]) = (f.run calls).complete call := by
  rw [Firmware.run, List.foldl_append]
  rfl

/-- What is copied to the front of a buffer is there. -/
theorem take_copied (buffer source : List UInt8) {count : UInt32}
    (h : count.toNat ≤ source.length) :
    (copied buffer source count).take count.toNat = source.take count.toNat := by
  have hlength : (source.take count.toNat).length = count.toNat := List.length_take_of_le h
  rw [copied, List.take_append_of_le_length (Nat.le_of_eq hlength.symm),
    List.take_take, Nat.min_self]

theorem take_copied_length (buffer source : List UInt8) {count : UInt32}
    (h : count.toNat = source.length) :
    (copied buffer source count).take count.toNat = source := by
  rw [take_copied buffer source (Nat.le_of_eq h), h, List.take_length]

theorem copied_length (buffer source : List UInt8) {count : UInt32}
    (h : count.toNat ≤ source.length) :
    count.toNat ≤ (copied buffer source count).length := by
  rw [copied, List.length_append, List.length_take_of_le h]
  exact Nat.le_add_right _ _

/-- What goes through both buffers comes out as it was. -/
theorem take_copied_twice (out buffer data : List UInt8) {count : UInt32}
    (h : count.toNat = data.length) :
    (copied out (copied buffer data count) count).take count.toNat = data := by
  rw [take_copied _ _ (copied_length buffer data (Nat.le_of_eq h)),
    take_copied_length buffer data h]

theorem bulkOut_loopback (f : Firmware) {data : List UInt8} (h : data.length ≤ 512) :
    (f.complete (.bulkOut data)).bulkIn = data := by
  have hcount : (UInt32.ofNat data.length).toNat = data.length :=
    UInt32.toNat_ofNat_of_lt' (Nat.lt_of_le_of_lt h (by decide))
  have hfits : ¬ UInt32.ofNat data.length > 512 := by
    show ¬ 512 < (UInt32.ofNat data.length).toNat
    omega
  simp only [Firmware.complete, bulkOutComplete, if_neg hfits]
  exact take_copied_twice f.bulkTxBuffer f.bulkRxBuffer data hcount

/-- The report comes back under another number. -/
theorem hidOut_loopback (f : Firmware) {data : List UInt8} (h : data.length ≤ 64)
    (hsome : 0 < data.length) :
    (f.complete (.hidOut data)).hidIn = 1 :: data.drop 1 := by
  have hcount : (UInt32.ofNat data.length).toNat = data.length :=
    UInt32.toNat_ofNat_of_lt' (Nat.lt_of_le_of_lt h (by decide))
  have hfits : ¬ UInt32.ofNat data.length > 64 := by
    show ¬ 64 < (UInt32.ofNat data.length).toNat
    omega
  have hpositive : UInt32.ofNat data.length ≠ 0 := by
    intro hzero
    have : (0 : UInt32).toNat = 0 := rfl
    rw [hzero] at hcount
    omega
  have hcopied := take_copied_twice f.hidTxBuffer f.hidRxBuffer data hcount
  obtain ⟨n, hn⟩ := Nat.exists_eq_succ_of_ne_zero (Nat.ne_of_gt hsome)
  simp only [Firmware.complete, hidOutComplete, if_neg hfits, if_pos hpositive]
  rw [hcount, hn] at hcopied ⊢
  rw [List.take_succ_cons, List.take_drop, Nat.add_comm, hcopied]

/-! The parts of the run. -/

theorem returns_fetchStatus :
    Returns f rounds calls fetchStatus fun s w => Reported calls w ∧ s = (f.run calls).status := by
  refine silent_then (fun _ => rfl) (fun history hcalls => by rw [loopback, hcalls]) ?_
  rw [readStatus_response]
  exact triple_pure fun _ hw => ⟨hw, rfl⟩

theorem returns_hidLoopback :
    Returns f rounds calls hidLoopback fun _ =>
      Reported (calls ++ [.hidOut hidOut] ++ [.hidIn 0 64]) := by
  have hback : (f.run (calls ++ [.hidOut hidOut])).hidIn = 1 :: hidOut.drop 1 := by
    rw [run_concat]
    exact hidOut_loopback _ (Nat.le_refl 64) (by decide)
  have hread : ∀ history, completions history = calls ++ [.hidOut hidOut] →
      loopback f rounds history (.read hidInEp hidOut.length) = .ok (1 :: hidOut.drop 1) := by
    intro history hcalls
    rw [← hcalls] at hback
    exact congrArg Except.ok hback
  refine reported_then rfl (fun _ _ => rfl) (check_then rfl ?_)
  exact reported_then rfl hread (returns_when rfl)

/-- What a turn of the loop has the firmware complete. -/
def turn (payload : List UInt8) : List Completion :=
  [.bulkOut payload, .bulkIn 0 (UInt32.ofNat payload.length)]

theorem payloadOf_length (digest : List UInt8 → List UInt8) (counter : Nat) :
    (payloadOf digest counter).length ≤ 512 :=
  List.length_take_le 512 _

theorem returns_stressRound {counter : Nat} (hcounter : counter < 2 ^ 64) :
    Returns f rounds calls (stressRound digest counter) fun sent w =>
      Reported (calls ++ turn (payloadOf digest counter)) w ∧
      sent = (payloadOf digest counter).length := by
  -- What was sent waits in the firmware to be read.
  have hback : (f.run (calls ++ [.bulkOut (payloadOf digest counter)])).bulkIn =
      payloadOf digest counter := by
    rw [run_concat]
    exact bulkOut_loopback _ (payloadOf_length digest counter)
  refine check_then (decide_eq_false (Nat.not_le.mpr hcounter)) ?_
  refine reported_then rfl (fun _ _ => rfl) (check_then (decide_eq_false (not_not_intro rfl)) ?_)
  refine reported_then rfl (fun history hcalls => ?_)
    (check_then (decide_eq_false (not_not_intro rfl)) ?_)
  · rw [← hcalls] at hback
    exact congrArg Except.ok hback
  · refine triple_pure fun w hw => ⟨?_, rfl⟩
    rwa [List.append_assoc] at hw

def turns (digest : List UInt8 → List UInt8) (counter : Nat) : Nat → List Completion
  | 0 => []
  | rounds + 1 => turn (payloadOf digest counter) ++ turns digest (counter + 1) rounds

theorem counted_append (c : Counter) (calls more : List Completion) :
    c.counted (calls ++ more) = c.counted calls + c.counted more := by
  rw [Counter.counted, List.map_append, List.sum_append]
  rfl

/-- The firmware counts a payload once for each way. -/
theorem counted_turn (c : Counter) {payload : List UInt8} (h : payload.length ≤ 512) :
    c.counted (turn payload) = match c
      with | .bulkRx | .bulkTx => payload.length | .hidRx | .hidTx => 0 := by
  have hcount : (UInt32.ofNat payload.length).toNat = payload.length :=
    UInt32.toNat_ofNat_of_lt' (Nat.lt_of_le_of_lt h (by decide))
  cases c with
  | bulkRx =>
    show min (UInt32.ofNat payload.length).toNat 512 + (0 + 0) = payload.length
    omega
  | bulkTx =>
    show 0 + ((UInt32.ofNat payload.length).toNat + 0) = payload.length
    omega
  | hidRx | hidTx => rfl

theorem counted_turns (c : Counter) (digest : List UInt8 → List UInt8) (counter turnCount : Nat) :
    c.counted (turns digest counter turnCount) =
      match c with
      | .bulkRx | .bulkTx => Counter.bulkRx.counted (turns digest counter turnCount)
      | .hidRx | .hidTx => 0 := by
  induction turnCount generalizing counter with
  | zero => cases c <;> rfl
  | succ turnCount ih =>
    have hturn := fun c : Counter => counted_turn c (payloadOf_length digest counter)
    simp only [turns, counted_append]
    rw [ih, hturn, hturn]
    cases c <;> rfl

theorem returns_stress {counter bulkBytes turnCount : Nat}
    (hcounter : counter + turnCount ≤ 2 ^ 64) :
    Returns f rounds calls (stress digest counter bulkBytes turnCount) fun total w =>
      Reported (calls ++ turns digest counter turnCount) w ∧
        total = bulkBytes + Counter.bulkRx.counted (turns digest counter turnCount) := by
  induction turnCount generalizing counter bulkBytes calls with
  | zero =>
    refine triple_pure fun w hw => ⟨?_, rfl⟩
    rwa [turns, List.append_nil]
  | succ turnCount ih =>
    refine triple_bind _ (returns_stressRound (by omega)) fun sent => triple_fact fun hsent => ?_
    refine triple_mono (ih (by omega)) (fun _ hw => hw) (fun total w => ?_) fun _ _ h => h
    rintro ⟨hcalls, htotal⟩
    refine ⟨by rwa [turns, ← List.append_assoc], ?_⟩
    rw [htotal, hsent, turns, counted_append,
      counted_turn .bulkRx (payloadOf_length digest counter), Nat.add_assoc]

/-- What the whole validation has the firmware complete. -/
def transfers (digest : List UInt8 → List UInt8) (rounds : Nat) : List Completion :=
  [.hidOut hidOut, .hidIn 0 64] ++ turns digest 0 rounds

theorem returns_exchange {started : Rat} (hrounds : rounds ≤ 2 ^ 64) :
    Returns f rounds [] (exchange digest started) fun o _ =>
      o.initial = f.status ∧ o.final = (f.run (transfers digest rounds)).status ∧
      Exact (transfers digest rounds) o := by
  refine triple_bind _ returns_fetchStatus fun initial => triple_fact fun hinitial => ?_
  refine triple_bind _ returns_hidLoopback fun _ => silent_then (fun _ => rfl) (fun _ _ => rfl) ?_
  refine triple_bind _ (returns_stress ((Nat.zero_add rounds).symm ▸ hrounds)) fun bulkBytes =>
    triple_fact fun hbytes => ?_
  refine triple_bind _ returns_fetchStatus fun final => triple_fact fun hfinal => ?_
  refine triple_pure fun _ _ => ⟨hinitial, hfinal, fun c => ?_⟩
  rw [transfers, counted_append, counted_turns]
  cases c with
  | bulkRx | bulkTx => exact hbytes.symm
  | hidRx | hidTx => rfl

theorem returns_transferred (hrounds : rounds ≤ 2 ^ 64) :
    Returns f rounds [] (transferred digest) fun o _ =>
      o.initial = f.status ∧ o.final = (f.run (transfers digest rounds)).status ∧
      Exact (transfers digest rounds) o := by
  refine silent_then (fun _ => rfl) (fun _ _ => rfl)
    (silent_then (fun _ => rfl) (fun _ _ => rfl) (check_then rfl ?_))
  refine silent_then (fun _ => rfl) (fun _ _ => rfl)
    (silent_then (fun _ => rfl) (fun _ _ => rfl) ?_)
  refine triple_finally _ (fun _ _ => False) (returns_exchange hrounds) (fun o => ?_)
    fun _ _ h => h.elim
  exact triple_answered (fun _ _ _ h => h) fun _ _ herror _ => nomatch herror

/-- The transfers of a whole run, and what they leave. -/
theorem transferred_loopback (digest : List UInt8 → List UInt8) (f : Firmware)
    (hrounds : rounds ≤ 2 ^ 64) :
    ∃ o w', transferred digest (loopback f rounds) ⟨(), []⟩ = (.ok o, w') ∧ o.initial = f.status ∧
      o.final = (f.run (transfers digest rounds)).status ∧ Exact (transfers digest rounds) o := by
  have hrun := @returns_transferred digest f rounds hrounds ⟨(), []⟩ rfl
  split at hrun
  · rename_i o w' htransferred
    exact ⟨o, w', htransferred, hrun⟩
  · exact hrun.elim

/-- Over such a link the validation passes just where the counters do not wrap. -/
theorem accepts_loopback (digest : List UInt8 → List UInt8) (f : Firmware)
    (hrounds : rounds ≤ 2 ^ 64) :
    Accepts digest (loopback f rounds) ⟨(), []⟩ ↔
      ∀ c : Counter, (c.value f).toNat + c.counted (transfers digest rounds) < 2 ^ 32 := by
  obtain ⟨o, w', h, hinitial, hfinal, hexact⟩ := transferred_loopback digest f hrounds
  rw [accepts_exact (clock_loopback f rounds) h hinitial hfinal hexact]
  exact forall_congr' fun c => by rw [hexact c]

end

/-- A digest for the runs below. -/
def zeroDigest (_ : List UInt8) : List UInt8 := List.replicate 32 0

theorem zeroDigest_bytes (c : Counter) : c.counted (transfers zeroDigest 1) =
    match c with | .bulkRx | .bulkTx => 512 | .hidRx | .hidTx => 1 := by
  have hlength : (payloadOf zeroDigest 0).length = 512 := by
    show ((List.replicate 16 (List.replicate 32 (0 : UInt8))).flatten.take 512).length = 512
    rw [List.flatten_replicate_replicate, List.length_take, List.length_replicate]
    decide
  rw [transfers, counted_append, turns, counted_append,
    counted_turn c (payloadOf_length zeroDigest 0), hlength]
  cases c <;> rfl

/-- 512 bytes more and the counter is full. -/
def nearlyFull : Firmware := { bulkRxBytes := 0xFFFFFDFF }

theorem counters_exact_full :
    ∃ o w', transferred zeroDigest (loopback nearlyFull 1) ⟨(), []⟩ = (.ok o, w') ∧
    Exact (transfers zeroDigest 1) o ∧ o.bulkBytes = 512 ∧
    Accepts zeroDigest (loopback nearlyFull 1) ⟨(), []⟩ := by
  obtain ⟨o, w', h, hinitial, hfinal, hexact⟩ :=
    @transferred_loopback 1 zeroDigest nearlyFull (by decide)
  have hbytes : o.bulkBytes = 512 := (hexact .bulkRx).symm.trans (zeroDigest_bytes .bulkRx)
  have hnowrap : NoWrap nearlyFull o := by
    intro c
    rw [← hexact c, zeroDigest_bytes]
    cases c <;> decide
  refine ⟨o, w', h, hexact, hbytes, ?_⟩
  exact ((counters_exact (clock_loopback nearlyFull 1) h hinitial hfinal).mpr
    fun _ _ => hnowrap).1 hexact (by omega)

/-- A right count of 512 bytes is refused where the counter wraps. -/
theorem counters_wrap : ¬ ∀ (digest : List UInt8 → List UInt8) (env : Env Op Op.Ans Raised)
      (w w' : World Op Op.Ans Raised Unit)
    (f : Firmware) (calls : List Completion) (o : Outcome), Clock env →
    transferred digest env w = (.ok o, w') →
    o.initial = f.status → o.final = (f.run calls).status → Exact calls o → o.bulkBytes < 2 ^ 32 →
    Accepts digest env w := by
  intro hall
  let f : Firmware := { bulkRxBytes := 0xFFFFFF00 }
  obtain ⟨o, w', h, hinitial, hfinal, hexact⟩ := @transferred_loopback 1 zeroDigest f (by decide)
  have hbytes : o.bulkBytes = 512 := (hexact .bulkRx).symm.trans (zeroDigest_bytes .bulkRx)
  have haccepts := hall _ _ _ _ _ _ _ (clock_loopback f 1) h hinitial hfinal hexact (by omega)
  have hfits := (accepts_loopback zeroDigest f (by decide)).mp haccepts .bulkRx
  rw [zeroDigest_bytes] at hfits
  exact absurd hfits (by decide)

end NrfKit.Usb.Validation
