import NrfKit.Firmware.RramOutcome
import NrfKit.Lib.Bytes
import NrfKit.Lib.RingLog

/- The scratch records of `examples/m6-sdc-validation/main.c`: command 0xFC04 scans the sixteen
   16-byte records of the scratch region for the newest sequence number and submits the next one
   to `nrfkit_rram_submit`, one unit at the slot of that number; command 0xFC05 returns the
   result.

   Each of the four words of a unit is stored or is not, and power may fail anywhere
   (`scratchContract`, `Boots`). The magic and the complement of the number then make the records a
   log in a ring: a unit cut between its words is the record that was there, the new one, or
   none (`slots_appended`). -/
namespace NrfKit.Firmware
open Interleave RingLog

variable (V : Vendor)

/-! ## The records -/

def scratchRegion : RramRegion := ⟨0x001FCF00, 256⟩

def recordMagic : UInt32 := 0x5252414d

/-- `struct nrfkit_rram_region const region` and `record[4]` of the command, as words. -/
def recordWords (sequence : UInt32) : List UInt32 := [recordMagic, sequence, ~~~sequence, 0]

/-- The bytes of `record`. -/
def recordData (sequence : UInt32) : Nat → UInt8 :=
  fun i => ((recordWords sequence).getD (i / 4) 0 >>> UInt32.ofNat (8 * (i % 4))).toUInt8

def wordValue (w : Word) : UInt32 := UInt32.ofNat (Bytes.littleEndian [w 0, w 1, w 2, w 3])

/-- `records[index]`. -/
def records (memory : Nat → UInt8) (index : Nat) : UInt32 :=
  wordValue (loadWord memory (scratchRegion.origin.toNat + 4 * index))

/-- The scan. -/
def newestSequence (memory : Nat → UInt8) : UInt32 :=
  (List.range 16).foldl (fun sequence i =>
    if records memory (i * 4) = recordMagic ∧
      records memory (i * 4 + 2) = ~~~records memory (i * 4 + 1) ∧
      sequence < records memory (i * 4 + 1) then records memory (i * 4 + 1) else sequence) 0

/-- `++sequence`. -/
def nextSequence (memory : Nat → UInt8) : UInt32 := newestSequence memory + 1

/-- `region.origin + (sequence % 16U) * 16U`. -/
def recordAddress (sequence : UInt32) : UInt32 := scratchRegion.origin + sequence % 16 * 16

/-! ## As a log -/

/-- What a scan sees in a record. -/
def slots (memory : Nat → UInt8) : Nat → Slot := fun i =>
  if records memory (i * 4 + 2) = ~~~records memory (i * 4 + 1) then
    if records memory (i * 4) = recordMagic then .valid (records memory (i * 4 + 1)).toNat
    else .pending (records memory (i * 4 + 1)).toNat
  else .empty

/-- How many sequence numbers there are. -/
def sequences : Nat := 2 ^ 32

def SameWord (v w : Word) : Prop := ∀ j < 4, v j = w j

theorem wordEq_iff {v w : Word} : wordEq v w = true ↔ SameWord v w := by
  simp [wordEq, SameWord]

theorem wordValue_congr {v w : Word} (h : SameWord v w) : wordValue v = wordValue w := by
  unfold wordValue
  rw [h 0 (by omega), h 1 (by omega), h 2 (by omega), h 3 (by omega)]

theorem wordValue_bytes (x : UInt32) :
    wordValue (fun j => (x >>> UInt32.ofNat (8 * j)).toUInt8) = x := by
  have hx := x.toNat_lt
  have hbyte : ∀ j < 4,
      (x >>> UInt32.ofNat (8 * j)).toUInt8.toNat = x.toNat / 2 ^ (8 * j) % 256 := by
    intro j hj
    rw [UInt32.toNat_toUInt8, UInt32.toNat_shiftRight,
      UInt32.toNat_ofNat_of_lt' (by show _ < 2 ^ 32; omega),
      Nat.mod_eq_of_lt (show 8 * j < 32 by omega), Nat.shiftRight_eq_div_pow]
  apply UInt32.toNat_inj.mp
  simp only [wordValue, Bytes.littleEndian_cons, Bytes.littleEndian_nil, hbyte 0 (by omega),
    hbyte 1 (by omega), hbyte 2 (by omega), hbyte 3 (by omega)]
  rw [UInt32.toNat_ofNat_of_lt' (by show _ < 2 ^ 32; omega)]
  omega

/-- The words of `record`. -/
theorem wordValue_record (sequence : UInt32) (k : Nat) :
    wordValue (loadWord (recordData sequence) (4 * k)) = (recordWords sequence).getD k 0 := by
  rw [← wordValue_bytes ((recordWords sequence).getD k 0)]
  apply wordValue_congr
  intro j hj
  show recordData sequence (4 * k + j) = _
  unfold recordData
  rw [show (4 * k + j) / 4 = k by omega, show (4 * k + j) % 4 = j by omega]

theorem newestSequence_toNat (memory : Nat → UInt8) :
    (newestSequence memory).toNat = newest 16 (slots memory) := by
  have hscan : ∀ (indices : List Nat) (best : UInt32),
      (indices.foldl (fun sequence i =>
        if records memory (i * 4) = recordMagic ∧
          records memory (i * 4 + 2) = ~~~records memory (i * 4 + 1) ∧
          sequence < records memory (i * 4 + 1) then records memory (i * 4 + 1)
            else sequence) best).toNat =
      indices.foldl (fun best i => (slots memory i).newer best) best.toNat := by
    intro indices
    induction indices with
    | nil => exact fun _ => rfl
    | cons i indices ih =>
      intro best
      simp only [List.foldl_cons, ih]
      apply congrArg (fun best => indices.foldl (fun best i => (slots memory i).newer best) best)
      by_cases hpair : records memory (i * 4 + 2) = ~~~records memory (i * 4 + 1)
      · by_cases hmagic : records memory (i * 4) = recordMagic
        · simp only [slots, hpair, hmagic, if_true, true_and, Slot.newer, UInt32.lt_iff_toNat_lt]
          split <;> rfl
        · simp [slots, hpair, hmagic, Slot.newer]
      · simp [slots, hpair, Slot.newer]
  exact hscan _ 0

theorem nextSequence_toNat (memory : Nat → UInt8) :
    (nextSequence memory).toNat = next sequences (newest 16 (slots memory)) := by
  unfold nextSequence next
  rw [UInt32.toNat_add, newestSequence_toNat]
  rfl

theorem recordAddress_toNat (sequence : UInt32) :
    (recordAddress sequence).toNat = scratchRegion.origin.toNat + 16 * (sequence.toNat % 16) := by
  have horigin : scratchRegion.origin.toNat = 2084608 := rfl
  have h16 : (16 : UInt32).toNat = 16 := rfl
  unfold recordAddress
  rw [UInt32.toNat_add, UInt32.toNat_mul, UInt32.toNat_mod, h16, horigin]
  omega

/-- The unit of the next record, each word as it was or as the record has it. -/
structure Torn (before memory : Nat → UInt8) : Prop where
  outside : ∀ x, x < (recordAddress (nextSequence before)).toNat ∨
    (recordAddress (nextSequence before)).toNat + 16 ≤ x →
    memory x = before x
  words : ∀ k < 4,
    SameWord (loadWord memory ((recordAddress (nextSequence before)).toNat + 4 * k))
      (loadWord before ((recordAddress (nextSequence before)).toNat + 4 * k)) ∨
    SameWord (loadWord memory ((recordAddress (nextSequence before)).toNat + 4 * k))
      (loadWord (recordData (nextSequence before)) (4 * k))

section
variable {before memory : Nat → UInt8}

theorem Torn.record (h : Torn before memory) {k : Nat} (hk : k < 4) :
    records memory ((nextSequence before).toNat % 16 * 4 + k) =
      records before ((nextSequence before).toNat % 16 * 4 + k) ∨
      records memory ((nextSequence before).toNat % 16 * 4 + k) =
        (recordWords (nextSequence before)).getD k 0 := by
  have haddress : scratchRegion.origin.toNat + 4 * ((nextSequence before).toNat % 16 * 4 + k) =
      (recordAddress (nextSequence before)).toNat + 4 * k := by
    rw [recordAddress_toNat]
    omega
  unfold records
  rw [haddress]
  refine (h.words k hk).imp wordValue_congr (fun hnew => ?_)
  rw [wordValue_congr hnew, wordValue_record]

/-- Words that are stored, or put back. -/
theorem Torn.write {memory' : Nat → UInt8} {address : Nat} (h : Torn before memory)
    (haddress : address = (recordAddress (nextSequence before)).toNat)
    (hout : ∀ x, x < address ∨ address + 16 ≤ x → memory' x = memory x)
    (hwords : ∀ k < 4,
      SameWord (loadWord memory' (address + 4 * k)) (loadWord before (address + 4 * k)) ∨
      SameWord (loadWord memory' (address + 4 * k))
        (loadWord (recordData (nextSequence before)) (4 * k)) ∨
      SameWord (loadWord memory' (address + 4 * k)) (loadWord memory (address + 4 * k))) :
      Torn before memory' := by
  subst haddress
  refine ⟨fun x hx => (hout x hx).trans (h.outside x hx), fun k hk => ?_⟩
  rcases hwords k hk with hold | hnew | hsame
  · exact .inl hold
  · exact .inr hnew
  · exact (h.words k hk).imp (fun hold j hj => (hsame j hj).trans (hold j hj)) fun hnew j hj =>
      (hsame j hj).trans (hnew j hj)

theorem Torn.elsewhere (h : Torn before memory) {i k : Nat}
    (hi : i ≠ (nextSequence before).toNat % 16) (hk : k < 4) :
    records memory (i * 4 + k) = records before (i * 4 + k) := by
  apply wordValue_congr
  intro j hj
  have haddress := recordAddress_toNat (nextSequence before)
  exact h.outside _ (by omega)

/-- **A record cut between its words** is the one that was there, the new one, or none. -/
theorem slots_appended (hok : Ok 16 sequences (slots before)) (h : Torn before memory) :
    Appended 16 sequences (slots before) (slots memory) := by
  refine ⟨fun i _ hi => ?_, ?_⟩
  · rw [← nextSequence_toNat] at hi
    have h0 := h.elsewhere hi (show 0 < 4 by omega)
    have h1 := h.elsewhere hi (show 1 < 4 by omega)
    have h2 := h.elsewhere hi (show 2 < 4 by omega)
    simp only [Nat.add_zero] at h0
    simp only [slots, h0, h1, h2]
  · rw [← nextSequence_toNat]
    have h0 := h.record (show 0 < 4 by omega)
    have h1 := h.record (show 1 < 4 by omega)
    have h2 := h.record (show 2 < 4 by omega)
    simp only [Nat.add_zero] at h0
    simp only [recordWords, List.getD_cons_zero, List.getD_cons_succ] at h0 h1 h2
    have hpending := hok.pending ((nextSequence before).toNat % 16) (Nat.mod_lt _ (by omega))
    rw [← nextSequence_toNat] at hpending
    generalize hs : nextSequence before = s at h0 h1 h2 hpending ⊢
    generalize hi : s.toNat % 16 = i at h0 h1 h2 hpending ⊢
    by_cases hpair : records memory (i * 4 + 2) = ~~~records memory (i * 4 + 1)
    · by_cases hnew : records memory (i * 4 + 1) = s
      · refine .inr (.inr ?_)
        simp only [slots, hpair, hnew, if_true]
        split <;> rfl
      · -- The number is the old one, so its complement is, and only the magic may be new.
        have hold := h1.resolve_right hnew
        have hcomplement : records memory (i * 4 + 2) = records before (i * 4 + 2) := by
          refine h2.resolve_right (fun hs2 => hnew ?_)
          rw [hpair] at hs2
          exact UInt32.not_inj.mp hs2
        rw [hold, hcomplement] at hpair
        rw [hold] at hnew
        by_cases hmagic : records before (i * 4) = recordMagic
        · have hsame : records memory (i * 4) = recordMagic :=
            h0.elim (fun h0 => h0.trans hmagic) id
          refine .inl ?_
          simp only [slots, hold, hcomplement, hsame, hmagic]
        · have hnumber :=
            hpending (records before (i * 4 + 1)).toNat (by simp [slots, hpair, hmagic])
          exact absurd (UInt32.toNat_inj.mp hnumber) hnew
    · refine .inr (.inl ?_)
      simp only [slots, hpair, if_false]

/-- A unit that holds the record is that record. -/
theorem slots_whole (hdata : ∀ j < 16, memory ((recordAddress (nextSequence before)).toNat + j) =
      recordData (nextSequence before) j) :
    slots memory ((nextSequence before).toNat % 16) = .valid (nextSequence before).toNat := by
  have hword : ∀ k < 4, records memory ((nextSequence before).toNat % 16 * 4 + k) =
      (recordWords (nextSequence before)).getD k 0 := by
    intro k hk
    rw [← wordValue_record]
    apply wordValue_congr
    intro j hj
    have haddress :
        scratchRegion.origin.toNat + 4 * ((nextSequence before).toNat % 16 * 4 + k) + j =
        (recordAddress (nextSequence before)).toNat + (4 * k + j) := by
      rw [recordAddress_toNat]
      omega
    show memory _ = recordData _ (4 * k + j)
    rw [haddress, hdata _ (by omega)]
  have h0 := hword 0 (by omega)
  have h1 := hword 1 (by omega)
  have h2 := hword 2 (by omega)
  simp only [Nat.add_zero] at h0
  simp only [recordWords, List.getD_cons_zero, List.getD_cons_succ] at h0 h1 h2
  simp only [slots, h0, h1, h2, if_true]

end

/-! ## The firmware -/

/-- The firmware whose only caller of `nrfkit_rram_submit` is the command, on a target that stores
each word of a unit or leaves it. The scan is the one made before the call: while no session is open
no unit is written, and a call that comes while one is open is refused whatever it asks. -/
def scratchContract : System Machine Query Answer Entry Ret :=
  (rramContract V).assuming
    (fun _ e m => match e with
      | .rramSubmit region address data size => m.rram.opened ||
          (region == some scratchRegion && address == recordAddress (nextSequence m.hw.memory) &&
            data && size == 16 &&
            (List.range 16).all fun i =>
              m.hw.callerData i == recordData (nextSequence m.hw.memory) i)
      | _ => true)
    (fun _ q a m => match q, a with
      | .rramStored target, held => (List.range 4).all fun k =>
          wordEq (loadWord held (4 * k)) (loadWord m.ghost.transaction.before (target + 4 * k)) ||
            wordEq (loadWord held (4 * k)) (loadWord m.hw.memory (target + 4 * k))
      | _, _ => true)

/-- The transaction appends to the log that `before` holds. -/
structure IsAppend (before : Nat → UInt8) (t : Transaction) : Prop where
  size : t.size = 16
  address : t.address = (recordAddress (nextSequence before)).toNat
  data : ∀ i < 16, t.data i = recordData (nextSequence before) i

def Query.opensRram : Query → Bool
  | .vendor .rramSessionOpen | .within .rramSessionOpen _ => true
  | _ => false

/-- While its session is being opened, a submission appends to the log. -/
def SubmitOk (ctx : List Query) (m : Machine) : Prop :=
  ∀ q ∈ ctx, q.opensRram = true → IsAppend m.hw.memory m.ghost.submitted

/-- What is known of every run. -/
def ScratchKnown (ctx : List Query) (m : Machine) : Prop :=
  TransactionKnown V ctx m ∧ SubmitOk ctx m

/-! ### The submission that is being opened -/

section
variable {V} {α : Type} {ctx : List Query} {m : Machine}

abbrev KeepsSubmit (V : Vendor) (ctx : List Query) (T : α → Machine → Prop) (t : FTurn α) : Prop :=
  t.Sat (scratchContract V) (TransactionKnown V) SubmitOk ctx T

theorem submitOk_cons {q : Query} (hq : q.opensRram = false) :
    SubmitOk (q :: ctx) m ↔ SubmitOk ctx m := by
  simp [SubmitOk, hq]

/-- Where none is being opened, nothing is asked. -/
theorem submitOk_none (hnone : ∀ q ∈ ctx, q.opensRram = false) : SubmitOk ctx m :=
  fun q hq hopens =>
  absurd (hopens.symm.trans (hnone q hq)) nofun

theorem opensRram_part {q : Query} (h : q.opensRram = true) :
    q.part = .rramSubmit ∧ level q = 2 := by
  cases q with
  | vendor call | within call r =>
    cases call with
    | rramSessionOpen => exact ⟨rfl, rfl⟩
    | _ => cases h
  | _ => cases h

theorem opensRram_other {q : Query} (h : q.part ≠ .rramSubmit) : q.opensRram = false :=
  Bool.eq_false_iff.mpr fun hopens => h (opensRram_part hopens).1

theorem opensRram_closed {q : Query} {d : RramView} (h : RramFrameOk d q)
    (hopens : q.opensRram = true) : d.opened = false := by
  cases q with
  | vendor call | within call r =>
    cases call with
    | rramSessionOpen => exact h.1
    | _ => cases hopens
  | _ => cases hopens

theorem keepsSubmit_none {X : Type} {W : Query → Prop} {f : Machine → X}
    (hW : ∀ q, W q → q.opensRram = false) (hnone : ∀ q ∈ ctx, q.opensRram = false) :
    ∀ {t : FTurn α} {x : X}, t.Framed W f x → KeepsSubmit V ctx (fun _ m => SubmitOk ctx m) t
  | .done _ _, _, _ => submitOk_none hnone
  | .wait _ q _, _, h => ⟨(submitOk_cons (hW q h.1)).mpr (submitOk_none hnone),
      fun a s' _ _ _ => keepsSubmit_none hW hnone (h.2.2 a s')⟩
  | .halt _, _, _ => trivial

/-- A program that leaves the memory and the submission alone. -/
theorem keepsSubmit_program (e : Entry) (h : SubmitOk ctx m)
    (hv : ∀ m, ((e.view m).hw.memory, (e.view m).ghost.submitted) =
      (m.hw.memory, m.ghost.submitted)) (hp : e.part ≠ some .rramSubmit) :
    KeepsSubmit V ctx (fun _ m => SubmitOk ctx m) (program V e m) := by
  refine sat_framed (fun ctx s s' hs h q hq hopens => ?_) (fun q ctx s hq => submitOk_cons ?_) h
    (framed_program V e m)
  · have hsame :=
      ((hv s').symm.trans (congrArg (fun m => (m.hw.memory, m.ghost.submitted)) hs)).trans (hv s)
    obtain ⟨hmemory, hsubmitted⟩ := Prod.mk.inj hsame
    rw [hmemory, hsubmitted]
    exact h q hq hopens
  · exact opensRram_other (hq.part_ne hp)

theorem rramSubmit_submit {region : Option RramRegion} {address : UInt32} {data : Bool}
    {size : UInt32} (hb : ∀ q ∈ ctx, level q < 2) (happend : m.rram.opened = false →
      IsAppend m.hw.memory { address := address.toNat, size := size.toNat, data :=
        m.hw.callerData }) :
    KeepsSubmit V ctx (fun _ m => SubmitOk ctx m)
      (nrfkitRramSubmit V region address data size m) := by
  have hnone : ∀ {m : Machine}, SubmitOk ctx m := by
    refine submitOk_none fun q hq => Bool.eq_false_iff.mpr fun hopens => ?_
    have := hb q hq
    have := (opensRram_part hopens).2
    omega
  unfold nrfkitRramSubmit
  split
  · exact hnone
  split
  · exact hnone
  rename_i hbusy
  split
  · exact hnone
  obtain ⟨pf, hpf⟩ := retain_eq V m
  dsimp only
  rw [hpf]
  split
  · exact hnone
  have hopening : IsAppend m.hw.memory
      { address := address.toNat, size := size.toNat, data := m.hw.callerData } :=
    happend (Bool.eq_false_iff.mpr fun ho => hbusy (Or.inr ho))
  refine sat_wait.mpr ⟨fun _ _ _ => ⟨hopening.size, hopening.address, hopening.data⟩,
    fun reply m1 _ h1 _ => sat_wait.mpr ⟨fun _ _ _ => ?_, fun _ m2 _ _ _ => ?_⟩⟩
  · exact h1 _ List.mem_cons_self rfl
  · dsimp only
    split
    · exact hnone
    · exact hnone

/-- A signal of the storage session. A unit is written only where a session is open. -/
theorem deliverRram_submit {id : Nat} {signal : MpslSignal} (hk : TransactionKnown V ctx m)
    (h : SubmitOk ctx m) (hstart : signal = .start → m.mpsl.rramRequested = true) :
    KeepsSubmit V ctx (fun _ m => SubmitOk ctx m) (deliverRram V id signal m) := by
  by_cases hs : signal = .start
  · have hparts := framed_deliverRram V id signal m
    refine keepsSubmit_none (fun q hq => ?_) (fun q hq =>
      Bool.eq_false_iff.mpr fun hopens => ?_) hparts
    · exact opensRram_other (by rw [hq.1]; nofun)
    · have hclosed := opensRram_closed (hk.2.frames q hq) hopens
      exact absurd ((hk.2.idle hclosed).1.symm.trans (hstart hs)) nofun
  · have hsame : ∀ m' : Machine, (m'.hw.memory, m'.ghost.submitted) =
        (m.hw.memory, m.ghost.submitted) → SubmitOk ctx m' := by
      intro m' heq q hq hopens
      obtain ⟨hmemory, hsubmitted⟩ := Prod.mk.inj heq
      rw [hmemory, hsubmitted]
      exact h q hq hopens
    have hraised : ∀ m : Machine,
        ((raiseRramSignal id signal m).hw.memory, (raiseRramSignal id signal m).ghost.submitted) =
        (m.hw.memory, m.ghost.submitted) := by
      intro m
      unfold raiseRramSignal
      rw [if_neg hs]
    unfold deliverRram rramCallback
    split
    · exact hsame _ (hraised m)
    · cases signal with
      | start => exact absurd rfl hs
      | sessionClosed =>
        unfold closeRramSession
        dsimp only
        obtain ⟨pf, hpf⟩ := releaseReference_eq { raiseRramSignal id .sessionClosed m with
          rram := { (raiseRramSignal id .sessionClosed m).rram
            with opened := false, closing := false } }
        rw [hpf]
        exact hsame _ (hraised m)
      | blocked | cancelled | sessionIdle => exact hsame _ (hraised m)
      | _ =>
        refine hsame _ (Eq.trans ?_ (hraised m))
        unfold setOperationResult
        dsimp only
        split <;> rfl

end

theorem submit_keeps : Keeps (scratchContract V) (TransactionKnown V) SubmitOk := by
  intro ctx e m hk h he
  obtain ⟨hopen, happends⟩ := assuming_enters.mp he
  obtain ⟨hsessions, hcontract⟩ := assuming_enters.mp hopen
  have habove := above_iff.mp (assuming_enters.mp hsessions).1
  have hother := @keepsSubmit_program V ctx m e h
  cases e with
  | rramSubmit region address data size =>
    refine sat_map.mpr (rramSubmit_submit habove fun hclosed => ?_)
    simp only [hclosed, Bool.false_or, Bool.and_eq_true, beq_iff_eq, List.all_eq_true,
      List.mem_range] at happends
    obtain ⟨⟨⟨⟨_, haddress⟩, _⟩, hsize⟩, hdata⟩ := happends
    exact ⟨congrArg UInt32.toNat hsize, congrArg UInt32.toNat haddress, hdata⟩
  | rramSignal id signal =>
    refine sat_map.mpr (deliverRram_submit hk h ?_)
    rintro rfl
    exact hcontract
  | _ => exact hother (fun _ => rfl) nofun

theorem scratchKnown_keeps : Keeps (scratchContract V) Any (ScratchKnown V) :=
  (keeps_assuming transactionKnown_keeps).and (submit_keeps V)

/-! ### Steps -/

/-- What the log depends on: the RRAM, and the transaction accepted last with the memory it
found. -/
structure LogView where
  opened : Bool
  memory : Nat → UInt8
  transactions : Nat
  size : Nat
  address : Nat
  data : Nat → UInt8
  before : Nat → UInt8

def logView (m : Machine) : LogView where
  opened := m.rram.opened
  memory := m.hw.memory
  transactions := m.ghost.transactions
  size := m.ghost.transaction.size
  address := m.ghost.transaction.address
  data := m.ghost.transaction.data
  before := m.ghost.transaction.before

/-- What one step can do. -/
inductive LogStep : LogView → LogView → Prop where
  | quiet (v : LogView) : LogStep v v
  | accept (v : LogView) (t : Transaction) : v.opened = false → IsAppend v.memory t →
    LogStep v { v with
      opened := true, transactions := v.transactions + 1
      size := t.size, address := t.address, data := t.data, before := v.memory }
  | words (v : LogView) (offset : Nat) (memory : Nat → UInt8) : v.opened = true →
    offset + 16 ≤ v.size →
      (∀ x, x < v.address + offset ∨ v.address + offset + 16 ≤ x → memory x = v.memory x) →
      (∀ k < 4, SameWord (loadWord memory (v.address + offset + 4 * k))
        (loadWord v.before (v.address + offset + 4 * k)) ∨
        SameWord (loadWord memory (v.address + offset + 4 * k)) (loadWord v.data (offset + 4 * k)) ∨
        SameWord (loadWord memory (v.address + offset + 4 * k))
          (loadWord v.memory (v.address + offset + 4 * k))) →
      LogStep v { v with memory := memory }
  | close (v : LogView) : v.opened = true → LogStep v { v with opened := false }

/-- Two states a step leads between. -/
def LogMoves (s s' : Machine) : Prop := LogStep (logView s) (logView s')

theorem LogMoves.same {s s' : Machine} (h : logView s' = logView s) : LogMoves s s' := by
  unfold LogMoves
  rw [h]
  exact .quiet _

theorem storeUnit_word {memory buffer : Nat → UInt8} {target offset k : Nat} (hk : k < 4)
    (h4 : offset % 4 = 0) :
    SameWord (loadWord (storeUnit memory target buffer offset) (target + 4 * k))
      (loadWord buffer (offset + 4 * k)) := by
  intro j hj
  have hrange : List.range 4 = [0, 1, 2, 3] := rfl
  show storeUnit memory target buffer offset (target + 4 * k + j) = buffer (offset + 4 * k + j)
  unfold storeUnit
  rw [hrange]
  simp only [List.foldl_cons, List.foldl_nil, storeWord, loadWord]
  -- the word that is read was stored last of those at its address
  split_ifs
  all_goals first
    | omega
    | (apply congrArg; omega)

theorem commitUnit_word {memory held : Nat → UInt8} {target k : Nat} (hk : k < 4) :
    SameWord (loadWord (commitUnit memory target held) (target + 4 * k))
      (loadWord held (4 * k)) := by
  intro j hj
  show commitUnit memory target held (target + 4 * k + j) = held (4 * k + j)
  unfold commitUnit
  rw [if_pos (by omega)]
  apply congrArg
  omega

section
variable {V} {α : Type} {ctx : List Query} {m : Machine}

abbrev MovesLog (V : Vendor) (ctx : List Query) (before : Machine) (t : FTurn α) : Prop :=
  t.Moves (scratchContract V) (ScratchKnown V) LogMoves ctx (fun b _ s => LogMoves b s) before

theorem logView_setOperationResult (status : Int) (m : Machine) :
    logView (setOperationResult status m) = logView m := by
  unfold setOperationResult
  dsimp only
  split <;> rfl

theorem logView_release (m : Machine) : logView (nrfkitMpslTimeslotRelease m) = logView m := by
  obtain ⟨pf, h⟩ := releaseReference_eq m
  rw [h]
  rfl

/-- The next unit is there whole. -/
theorem unit_room (h : TransactionOk V ctx (rramView m)) (ho : m.rram.opened = true)
    (hleft : m.rram.remaining ≠ 0) :
    m.ghost.transaction.written + 16 ≤ m.ghost.transaction.size := by
  have hpos : m.rram.remaining.toNat ≠ 0 := fun h0 => hleft (UInt32.toNat_inj.mp h0)
  have hsum : m.ghost.transaction.written + m.rram.remaining.toNat = m.ghost.transaction.size :=
    (h.loaded ho).remaining
  have haligned : m.ghost.transaction.written % 16 = 0 ∧ m.ghost.transaction.size % 16 = 0 :=
    h.written.aligned
  omega

/-- The words that are stored are those of the transaction. -/
theorem stored_word (h : TransactionOk V ctx (rramView m)) (ho : m.rram.opened = true)
    (hleft : m.rram.remaining ≠ 0) {k : Nat} (hk : k < 4) :
    SameWord (loadWord (storeUnit m.hw.memory
      (m.ghost.transaction.address + m.ghost.transaction.written) m.rram.buffer
        m.rram.offset.toNat) (m.ghost.transaction.address + m.ghost.transaction.written + 4 * k))
      (loadWord m.ghost.transaction.data (m.ghost.transaction.written + 4 * k)) := by
  have hoffset : m.rram.offset.toNat = m.ghost.transaction.written := (h.loaded ho).offset
  have haligned : m.ghost.transaction.written % 16 = 0 := h.written.aligned.1
  have hroom := unit_room h ho hleft
  intro j hj
  rw [storeUnit_word hk (by omega) j hj, hoffset]
  exact (h.loaded ho).buffer
    _ (show m.ghost.transaction.written + 4 * k + j < m.ghost.transaction.size by omega)

/-- While a unit is written, its words are those of the transaction or what was there before it. -/
theorem writeUnit_log {before : Machine} (hb : logView m = logView before) :
    (writeUnit V m).Moves (scratchContract V) (ScratchKnown V) LogMoves ctx
      (fun b _ s => logView s = logView b) before := by
  refine moves_wait.mpr ⟨.same hb, fun ready m1 h1 _ => ?_⟩
  dsimp only
  split
  · rfl
  refine moves_wait.mpr ⟨.same rfl, fun ready m2 h2 _ => ?_⟩
  dsimp only
  split
  · obtain ⟨ho, hr, hleft, _⟩ := h2.1.2.frames _ List.mem_cons_self
    have htarget := unitTarget_eq h2.1.2 ho
    rw [htarget]
    refine moves_wait.mpr
      ⟨.words _ _ _ ho (unit_room h2.1.2 ho hleft) (fun x hx => storeUnit_outside hx)
      (fun k hk => .inr (.inl (stored_word h2.1.2 ho hleft hk))), fun held m3 h3 hheld =>
        moves_wait.mpr ⟨?_, fun ready m4 h4 _ => ?_⟩⟩
    · obtain ⟨ho3, _, hleft3, htarget3, _⟩ := h3.1.2.frames _ List.mem_cons_self
      have hwords := (assuming_answers.mp hheld).2
      simp only [List.all_eq_true, List.mem_range, Bool.or_eq_true, wordEq_iff] at hwords
      have htarget3 : m2.ghost.transaction.address + m2.ghost.transaction.written =
          m3.ghost.transaction.address + m3.ghost.transaction.written := htarget3
      rw [htarget3] at hwords ⊢
      refine .words _ _ _ ho3 (unit_room h3.1.2 ho3 hleft3) (fun x hx => commitUnit_outside hx)
        (fun k hk => ?_)
      rcases hwords k hk with hold | hnew
      · exact .inl fun j hj => (commitUnit_word hk j hj).trans (hold j hj)
      · exact .inr (.inr fun j hj => (commitUnit_word hk j hj).trans (hnew j hj))
    · dsimp only
      split
      · rfl
      · trivial
  · trivial

theorem grantUnit_log {before : Machine} (hb : logView m = logView before) :
    MovesLog V ctx before (grantUnit V m) := by
  unfold grantUnit
  refine moves_bind.mpr ?_
  split
  · refine moves_bind.mpr (moves_mono (fun b status s hs => ?_) (writeUnit_log hb))
    have hsame := (logView_setOperationResult status s).trans hs
    dsimp only
    split
    · exact .same hsame
    · exact .same hsame
  · exact .same hb

/-- A signal of the storage session. -/
theorem deliverRram_log {id : Nat} {signal : MpslSignal} (hk : ScratchKnown V ctx m)
    (hclose : signal = .sessionClosed → m.mpsl.rramClosing = true) :
    MovesLog V ctx m (deliverRram V id signal m) := by
  have hraised : logView (raiseRramSignal id signal m) = logView m := by
    unfold raiseRramSignal
    dsimp only
    split <;> rfl
  have hopen : signal = .sessionClosed → m.rram.opened = true := by
    intro hs
    cases ho : m.rram.opened with
    | true => rfl
    | false => exact absurd ((hk.1.2.idle ho).2.symm.trans (hclose hs)) nofun
  unfold deliverRram rramCallback
  split
  · exact .same hraised
  cases signal with
  | start => exact grantUnit_log hraised
  | sessionClosed =>
    unfold closeRramSession
    dsimp only
    generalize raiseRramSignal id .sessionClosed m = m' at hraised
    obtain ⟨pf, hpf⟩ :=
      releaseReference_eq { m' with rram := { m'.rram with opened := false, closing := false } }
    rw [hpf]
    show LogStep (logView m) _
    have hopened : (logView m').opened = true := hraised ▸ hopen rfl
    rw [← hraised]
    exact .close (logView m') hopened
  | blocked | cancelled | sessionIdle => exact .same hraised
  | _ => exact .same ((logView_setOperationResult _ _).trans hraised)

theorem rramSubmit_log {region : Option RramRegion} {address : UInt32} {data : Bool}
    {size : UInt32} :
    MovesLog V ctx m (nrfkitRramSubmit V region address data size m) := by
  unfold nrfkitRramSubmit
  split
  · exact .same rfl
  split
  · exact .same rfl
  split
  · exact .same rfl
  obtain ⟨pf, hpf⟩ := retain_eq V m
  dsimp only
  rw [hpf]
  split
  · exact .same rfl
  refine moves_wait.mpr ⟨.same rfl, fun reply m1 _ _ =>
    moves_wait.mpr ⟨.same rfl, fun _ m2 h2 _ => ?_⟩⟩
  obtain ⟨hclosed, _⟩ := h2.1.2.frames _ List.mem_cons_self
  dsimp only
  split
  · exact .same (logView_release m2)
  · exact .accept (logView m2) m2.ghost.submitted hclosed (h2.2 _ List.mem_cons_self rfl)

/-! ### `nrfkit_rram_process` writes nothing -/

abbrev LeavesLog (m : Machine) (t : FTurn α) : Prop :=
  t.Framed (OfPart .rramProcess 2) logView (logView m)

theorem preempt_log {stopping : Bool} {m' : Machine} {k : Machine → FTurn α}
    (hx : logView m' = logView m) (hk : ∀ m, LeavesLog m (k m)) :
    LeavesLog m (preempt stopping m' k) := ⟨⟨rfl, rfl⟩, hx, fun _ m => hk m⟩

theorem requestClose_log (m : Machine) : LeavesLog m (requestClose m) := by
  refine preempt_log rfl fun m =>
    framed_vendorCall ⟨rfl, rfl⟩ rfl (fun m reply => ?_) (fun reply m => ?_)
  · unfold Machine.vendorEffect
    dsimp only
    split <;> rfl
  · split
    · exact preempt_log rfl fun m => logView_setOperationResult _ m
    · rfl

theorem requestGrant_log (m : Machine) : LeavesLog m (requestGrant m) := by
  refine preempt_log rfl fun m => preempt_log rfl fun m =>
    framed_vendorCall ⟨rfl, rfl⟩ rfl (fun m reply => ?_) (fun reply m => ?_)
  · unfold Machine.vendorEffect
    dsimp only
    split <;> rfl
  · split
    · exact preempt_log (logView_setOperationResult _ m) fun m => rfl
    · rfl

theorem rramProcess_log (m : Machine) : LeavesLog m (nrfkitRramProcess V m) := by
  unfold nrfkitRramProcess
  split
  · rfl
  refine preempt_log rfl fun m => ?_
  split
  · rfl
  refine preempt_log rfl fun m => framed_bind (fun _ m => ?_) ?_
  · refine preempt_log rfl fun m => ?_
    split
    · exact preempt_log rfl requestClose_log
    refine preempt_log rfl fun m => ?_
    split
    · exact preempt_log rfl requestClose_log
    refine preempt_log rfl fun m => ?_
    split
    · exact preempt_log rfl requestGrant_log
    · rfl
  · split
    · exact preempt_log rfl fun m => logView_setOperationResult _ m
    · rfl

end

/-- The step lemma: every turn of every program is such a step. -/
theorem log_steps : Steps (scratchContract V) (ScratchKnown V) LogMoves := by
  intro ctx e m hk he
  obtain ⟨hopen, _⟩ := assuming_enters.mp he
  obtain ⟨_, hcontract⟩ := assuming_enters.mp hopen
  have hother : (∀ m, logView (e.view m) = logView m) →
      MovesLog V ctx m (program V e m) := fun hv =>
    moves_framed (fun s s' hs => .same (((hv s').symm.trans (congrArg logView hs)).trans (hv s)))
      (framed_program V e m)
  cases e with
  | rramSubmit region address data size => exact moves_map.mpr rramSubmit_log
  | rramProcess => exact moves_map.mpr (moves_framed (fun _ _ => .same) (rramProcess_log m))
  | rramSignal id signal =>
    refine moves_map.mpr (deliverRram_log hk ?_)
    rintro rfl
    exact hcontract
  | _ => exact hother (fun _ => rfl)

/-! ## The log in every run -/

/-- What every append keeps, counted from some memory on. -/
def Advances (P : Nat → (Nat → Slot) → Prop) : Prop :=
  ∀ n log log', Ok 16 sequences log → Appended 16 sequences log log' → P n log → P (n + 1) log'

/-- The memory holds the log that the transaction accepted last found, with what it appended. -/
structure LogOk (P : Nat → (Nat → Slot) → Prop) (v : LogView) : Prop where
  closed : v.opened = false → Ok 16 sequences (slots v.memory) ∧ P v.transactions (slots v.memory)
  opened : v.opened = true → ∃ n, v.transactions = n + 1 ∧ P n (slots v.before)
  current : v.transactions ≠ 0 → Ok 16 sequences (slots v.before) ∧
    Torn v.before v.memory ∧ v.size = 16 ∧
    v.address = (recordAddress (nextSequence v.before)).toNat ∧ ∀ i < 16,
      v.data i = recordData (nextSequence v.before) i

section
variable {P : Nat → (Nat → Slot) → Prop} {v v' : LogView}

theorem torn_refl (memory : Nat → UInt8) : Torn memory memory :=
  ⟨fun _ _ => rfl, fun _ _ => .inl fun _ _ => rfl⟩

theorem ok_appended {log log' : Nat → Slot} (h : Ok 16 sequences log)
    (happ : Appended 16 sequences log log') :
    Ok 16 sequences log' :=
  happ.ok (by decide) (by decide) (by decide) h

/-- What holds of the log wherever power fails. -/
theorem LogOk.memory (h : LogOk P v) (hP : Advances P) :
    Ok 16 sequences (slots v.memory) ∧ P v.transactions (slots v.memory) := by
  cases ho : v.opened with
  | false => exact h.closed ho
  | true =>
    obtain ⟨n, hn, hbefore⟩ := h.opened ho
    obtain ⟨hok, htorn, _⟩ := h.current (by omega)
    have happ := slots_appended hok htorn
    rw [hn]
    exact ⟨ok_appended hok happ, hP n _ _ hok happ hbefore⟩

theorem LogOk.step (h : LogOk P v) (hP : Advances P) (hstep : LogStep v v') : LogOk P v' := by
  cases hstep with
  | quiet => exact h
  | accept t hclosed happend =>
    obtain ⟨hok, hnow⟩ := h.closed hclosed
    obtain ⟨hsize, haddress, hdata⟩ := happend
    exact ⟨nofun, fun _ => ⟨_, rfl, hnow⟩, fun _ => ⟨hok, torn_refl _, hsize, haddress, hdata⟩⟩
  | words offset memory ho hroom hout hwords =>
    obtain ⟨n, hn, hbefore⟩ := h.opened ho
    obtain ⟨hok, htorn, hsize, haddress, hdata⟩ := h.current (by omega)
    -- One unit is all of the transaction.
    have hfirst : offset = 0 := by omega
    subst hfirst
    rw [Nat.add_zero] at hout hwords
    have hwritten : Torn v.before memory := by
      refine htorn.write haddress hout fun k hk =>
        (hwords k hk).imp_right (.imp_left fun hnew j hj => (hnew j hj).trans ?_)
      show v.data (0 + 4 * k + j) = recordData (nextSequence v.before) (4 * k + j)
      rw [Nat.zero_add]
      exact hdata _ (by omega)
    exact ⟨fun hc => absurd (ho.symm.trans hc) nofun, fun _ => ⟨n, hn, hbefore⟩,
      fun _ => ⟨hok, hwritten, hsize, haddress, hdata⟩⟩
  | close ho =>
    obtain ⟨hok, hnow⟩ := h.memory hP
    exact ⟨fun _ => ⟨hok, hnow⟩, nofun, h.current⟩

end

/-- The memory after any number of boots, in each of which power fails somewhere. A boot that ends
in a reset of its own leaves the memory of the state before. -/
inductive Boots : (Nat → UInt8) → (Nat → UInt8) → Prop where
  | none (memory : Nat → UInt8) : Boots memory memory
  | boot {memory : Nat → UInt8} {hw : Hardware} {radio : Radio} {timer0 : Timer0}
    {c : Config Machine Query Answer Ret} :
      Boots memory hw.memory → Reachable (scratchContract V) (Machine.reset hw radio timer0) c →
      c.live = true → Boots memory c.state.hw.memory

section
variable {V} {P : Nat → (Nat → Slot) → Prop} {hw : Hardware} {radio : Radio} {timer0 : Timer0}
  {c c' : Config Machine Query Answer Ret}

theorem scratchKnown_reset : ScratchKnown V [] (Machine.reset hw radio timer0) :=
  ⟨transactionKnown_reset, nofun⟩

/-- The run lemma, from any state. -/
theorem log_run (hP : Advances P)
    (hc : Reachable (scratchContract V) (Machine.reset hw radio timer0) c)
    {es : List (Event Query Answer Entry)} (hrun : run (scratchContract V) c es = some c')
    (hl : c'.live = true) (h : LogOk P (logView c.state)) : LogOk P (logView c'.state) :=
  along_inv (scratchKnown_keeps V) (log_steps V) scratchKnown_reset (G :=
    fun m => LogOk P (logView m))
    (fun _ _ _ _ _ hstep _ hg => hg.step hP hstep) hc along_true hrun hl h

theorem log_reachable (hP : Advances P)
    (hok : Ok 16 sequences (slots hw.memory)) (h0 : P 0 (slots hw.memory))
    (hc : Reachable (scratchContract V) (Machine.reset hw radio timer0) c) (hl : c.live = true) :
    LogOk P (logView c.state) := by
  obtain ⟨es, hes⟩ := hc
  exact log_run hP ⟨[], rfl⟩ hes hl ⟨fun _ => ⟨hok, h0⟩, nofun, fun hn => absurd rfl hn⟩

/-- What every append keeps holds over boots. -/
theorem Boots.log {P : (Nat → Slot) → Prop} {memory later : Nat → UInt8}
    (hboots : Boots V memory later) (hP : Advances fun _ => P)
    (hok : Ok 16 sequences (slots memory)) (h : P (slots memory)) :
    Ok 16 sequences (slots later) ∧ P (slots later) := by
  induction hboots with
  | none => exact ⟨hok, h⟩
  | boot _ hc hl ih =>
    obtain ⟨hok', h'⟩ := ih
    exact (log_reachable hP hok' h' hc hl).memory hP

end

/-- The memory some time after `c`: its boot goes on, then others follow. -/
def Later (c : Config Machine Query Answer Ret) (later : Nat → UInt8) : Prop :=
  ∃ es c', run (scratchContract V) c es = some c' ∧ c'.live = true ∧
    Boots V c'.state.hw.memory later

theorem advances_holds (n : Nat) : Advances fun _ => Holds 16 n :=
  fun _ _ _ hok happ h => happ.holds (by decide) (by decide) (by decide) hok h

theorem advances_least (n : Nat) : Advances fun _ log => n ≤ newest 16 log := by
  intro _ log log' hok happ h
  rcases happ.newest_cases (by decide) (by decide) (by decide) hok with hsame | ⟨hone, _⟩ <;> omega

theorem advances_most (n : Nat) : Advances fun count log => newest 16 log ≤ n + count := by
  intro count log log' hok happ h
  rcases happ.newest_cases (by decide) (by decide) (by decide) hok with hsame | ⟨hone, _⟩ <;> omega

/-- An append whose data is all there is the newest record. -/
theorem LogOk.done {P : Nat → (Nat → Slot) → Prop} {v : LogView} (h : LogOk P v)
    (hcount : v.transactions ≠ 0) (hroom : nextSequence v.before ≠ 0)
    (hwritten : ∀ i < v.size, v.memory (v.address + i) = v.data i) :
    newest 16 (slots v.memory) = (nextSequence v.before).toNat ∧
      Holds 16 (nextSequence v.before).toNat (slots v.memory) := by
  obtain ⟨hok, htorn, hsize, haddress, hdata⟩ := h.current hcount
  have happ := slots_appended hok htorn
  have hpos : (nextSequence v.before).toNat ≠ 0 := fun h0 => hroom (UInt32.toNat_inj.mp h0)
  have hlt : newest 16 (slots v.before) < sequences := newest_lt hok (by decide)
  have hnext : (nextSequence v.before).toNat = newest 16 (slots v.before) + 1 ∧
      newest 16 (slots v.before) + 1 < sequences := by
    rw [nextSequence_toNat] at hpos ⊢
    unfold next at hpos ⊢
    by_cases hwraps : newest 16 (slots v.before) + 1 = sequences
    · rw [hwraps, Nat.mod_self] at hpos
      exact absurd rfl hpos
    · have hfits : newest 16 (slots v.before) + 1 < sequences := by omega
      exact ⟨Nat.mod_eq_of_lt hfits, hfits⟩
  have hslot : slots v.memory ((nextSequence v.before).toNat % 16) =
      .valid (nextSequence v.before).toNat := by
    refine slots_whole fun j hj => ?_
    rw [← haddress, hwritten j (by omega)]
    exact hdata j hj
  rw [hnext.1] at hslot ⊢
  exact ⟨happ.whole (by decide) hnext.2 hslot, happ.fresh (by decide) hnext.2 hslot⟩

/-- **The scratch log.** Power may fail in the middle of any append of any boot: the log stays one,
its newest number never goes back and advances by at most one for each accepted append. Once an
append is reported done the scan finds its number, no later append takes that number again, and its
record is there until fifteen more have been appended. -/
theorem scratch_log {memory : Nat → UInt8} {hw : Hardware} {radio : Radio} {timer0 : Timer0}
    {c : Config Machine Query Answer Ret}
    (hok : Ok 16 sequences (slots memory)) (hboots : Boots V memory hw.memory)
    (hc : Reachable (scratchContract V) (Machine.reset hw radio timer0) c) (hl : c.live = true) :
    Ok 16 sequences (slots c.state.hw.memory) ∧
    newestSequence memory ≤ newestSequence hw.memory ∧
    newestSequence hw.memory ≤ newestSequence c.state.hw.memory ∧
    (newestSequence c.state.hw.memory).toNat ≤ (newestSequence hw.memory).toNat +
      c.state.ghost.transactions ∧
    ∀ sequence, sequence = nextSequence c.state.ghost.transaction.before →
      c.state.ghost.transactions ≠ 0 →
      nrfkitRramResult c.state = 0 → sequence ≠ 0 → newestSequence c.state.hw.memory = sequence ∧
      ∀ later, Later V c later → sequence ≤ newestSequence later ∧
        ((newestSequence later).toNat < sequence.toNat + 15 →
          slots later (sequence.toNat % 16) = .valid sequence.toNat) := by
  obtain ⟨hstart, hleast⟩ :=
    hboots.log (advances_least (newest 16 (slots memory))) hok (Nat.le_refl _)
  have hall : Advances fun count log => newest 16 (slots hw.memory) ≤ newest 16 log ∧
      newest 16 log ≤ newest 16 (slots hw.memory) + count := fun n log log' hok happ h =>
    ⟨advances_least _ n log log' hok happ h.1, advances_most _ n log log' hok happ h.2⟩
  have hlog := log_reachable hall hstart ⟨Nat.le_refl _, Nat.le_refl _⟩ hc hl
  obtain ⟨hnow, hgrown, hbound⟩ := hlog.memory hall
  simp only [UInt32.le_iff_toNat_le, newestSequence_toNat]
  refine ⟨hnow, hleast, hgrown, hbound, ?_⟩
  intro sequence hsequence hcount hresult hroom
  subst hsequence
  have hdone := run_inv (scratchKnown_keeps V) scratchKnown_reset hc hl
  have hclosed : c.state.rram.opened = false := by
    refine Bool.eq_false_iff.mpr fun ho => ?_
    have hbusy : c.state.rram.result = -V.einprogress := hdone.1.2.progress ho
    have hresult : c.state.rram.result = 0 := hresult
    have := V.einprogress_pos
    omega
  have hwritten : c.state.ghost.transaction.written = c.state.ghost.transaction.size :=
    hdone.1.2.finished hclosed hresult
  obtain ⟨hnewest, hholds⟩ := hlog.done hcount hroom fun i hi =>
    hdone.1.2.written.front i (Nat.lt_of_lt_of_eq hi hwritten.symm)
  refine ⟨UInt32.toNat_inj.mp ((newestSequence_toNat _).trans hnewest), fun later hlater => ?_⟩
  obtain ⟨es, c', hrun, hl', hboots'⟩ := hlater
  have hkept : LogOk (fun _ => Holds 16 (nextSequence c.state.ghost.transaction.before).toNat)
      (logView c.state) :=
    ⟨fun _ => ⟨hnow, hholds⟩, fun ho => absurd (ho.symm.trans hclosed) nofun, hlog.current⟩
  obtain ⟨hnow', hholds'⟩ :=
    (log_run (advances_holds _) hc hrun hl' hkept).memory (advances_holds _)
  obtain ⟨_, hle, hthere⟩ := hboots'.log (advances_holds _) hnow' hholds'
  exact ⟨hle, fun hlt => hthere (by omega)⟩

/-- An erased region is an empty log. -/
theorem ok_erased : Ok 16 sequences (slots fun _ => 0xff) := by
  have hrecord : ∀ index, records (fun _ => 0xff) index = 0xffffffff := fun _ =>
    show wordValue (fun _ => 0xff) = 0xffffffff by decide
  have hempty : ∀ i, slots (fun _ => 0xff) i = .empty := fun i => by
    unfold slots
    rw [hrecord, hrecord, if_neg (by decide)]
  have hnone : ∀ i n, (slots (fun _ => 0xff) i).number ≠ some n := fun i n => by
    rw [hempty]
    nofun
  exact ⟨fun i _ n hn => absurd hn (hnone i n), fun i _ n hn => absurd hn (hnone i n),
    fun i _ n hn => absurd (by rw [hn]; rfl) (hnone i n)⟩

/-- The first append is cut behind its number, and the second one takes the same number. -/
theorem scratch_log_retried : ∃ c, Reachable (scratchContract .nrfxlib) (Machine.reset {} {} {}) c ∧
    c.state.ghost.transactions = 2 ∧ newestSequence c.state.hw.memory = 1 ∧
    ∀ later, Later .nrfxlib c later → (newestSequence later).toNat < 16 →
      slots later 1 = .valid 1 := by
  let torn : Nat → UInt8 := fun i => if i < 4 then 0xff else recordData 1 i
  let append (held : Nat → UInt8) (closing : Nat) : List (Event Query Answer Entry) :=
    calls [(.callerData (recordData 1), 0, ⟨.actionNone, 0, 0⟩),
      (.rramSubmit (some scratchRegion) (recordAddress 1) true 16, 2, ⟨.actionNone, 0, 0⟩),
      (.rramProcess, 10, ⟨.actionNone, 0, 0⟩)] ++
    .enter (.rramSignal 2 .start) :: List.replicate 4
      (.resume (answering ⟨.actionNone, 0, 0⟩ held)) ++
    calls [(.rramProcess, closing, ⟨.actionNone, 0, 0⟩),
      (.rramSignal 2 .sessionClosed, 0, ⟨.actionNone, 0, 0⟩)]
  obtain ⟨c, h, hf⟩ := reachable_of_run (scratchContract .nrfxlib) (.reset {} {} {})
    (calls [enabled] ++ append torn 7 ++ append (recordData 1) 8)
    (fun c => c.live && c.state.rram.result == 0 && c.state.ghost.transactions == 2 &&
      nextSequence c.state.ghost.transaction.before == 1)
    (by decide +kernel)
  simp only [Bool.and_eq_true, beq_iff_eq] at hf
  obtain ⟨⟨⟨hl, hr⟩, ht⟩, hs⟩ := hf
  obtain ⟨_, _, _, _, hall⟩ := scratch_log .nrfxlib ok_erased (.none _) h hl
  obtain ⟨hnewest, hlater⟩ := hall 1 hs.symm (by rw [ht]; decide) hr (by decide)
  exact ⟨c, h, ht, hnewest, fun later hb hlt => (hlater later hb).2 hlt⟩

end NrfKit.Firmware
