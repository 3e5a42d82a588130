import NrfKit.Firmware.Frames

/- The bounds of RRAM writes. The argument check of `nrfkit_rram_submit` is a chain of comparisons
   of 32-bit numbers; evaluated in its order no subtraction wraps (`checkEvaluated_eq`), so the
   check is the one over the integers (`submitInvalid_iff`), and the call is refused with
   `-NRF_EINVAL` exactly where that fails (`rramSubmit_einval`).

   What was submitted last, with its region, bounds every unit: the offset and what remains make
   its size (`Bounded`), whatever MPSL signals and however often. So a unit lies in the region it
   was submitted for and in the buffer (`submit_bounds`). -/
namespace NrfKit.Firmware
open Interleave

variable (V : Vendor)

/-! ## The argument check -/

/-- What may be submitted, over the integers. -/
structure Submittable (region : RramRegion) (address size : UInt32) : Prop where
  units : 0 < size.toNat ∧ size.toNat % 16 = 0 ∧ size.toNat ≤ 256
  aligned : address.toNat % 16 = 0
  some : 0 < region.length.toNat
  ordinary : region.origin.toNat + region.length.toNat ≤ 0x1FD000
  start : region.origin.toNat ≤ address.toNat
  stop : address.toNat + size.toNat ≤ region.origin.toNat + region.length.toNat

/-- `a - b` where it does not wrap. -/
def subtract (a b : UInt32) : Option UInt32 := if b ≤ a then some (a - b) else none

/-- A chain of `||`: the conditions are evaluated up to the first that holds. -/
def chain : List (Option Bool) → Option Bool
  | [] => some false
  | none :: _ => none
  | some true :: _ => some true
  | some false :: rest => chain rest

/-- The argument check in the order of its evaluation; `none` where a subtraction wraps that is
evaluated. -/
def checkEvaluated (region : Option RramRegion) (address : UInt32) (data : Bool) (size : UInt32) :
    Option Bool :=
  match region with
  | none => some true
  | some region =>
    chain [some (!data), some (size == 0), some (rramMaxWrite < size), some (address % 16 != 0),
      some (size % 16 != 0), some (rramLimit ≤ region.origin), some (region.length == 0),
      (subtract rramLimit region.origin).map fun room => decide (room < region.length),
      some (address < region.origin),
      (subtract address region.origin).map fun front => decide (region.length < front),
      (subtract address region.origin).bind fun front =>
        (subtract region.length front).map fun rest => decide (rest < size)]

theorem toNat_sub_add {a b : UInt32} (h : b ≤ a) : (a - b).toNat + b.toNat = a.toNat := by
  rw [UInt32.toNat_sub_of_le _ _ h]
  have := UInt32.le_iff_toNat_le.mp h
  omega

theorem subtract_of_le {a b : UInt32} (h : b ≤ a) : subtract a b = some (a - b) := if_pos h

/-- A condition only has to be defined where those before it do not hold. -/
theorem chain_cons {condition : Option Bool} {rest : List (Option Bool)} {holds others : Bool}
    (hcondition : condition = some holds) (hrest : holds = false → chain rest = some others) :
    chain (condition :: rest) = some (holds || others) := by
  subst hcondition
  cases holds with
  | true => rfl
  | false => exact hrest rfl

/-- No subtraction of the check wraps before it is guarded. -/
theorem checkEvaluated_eq (region : Option RramRegion) (address : UInt32) (data : Bool)
    (size : UInt32) :
    checkEvaluated region address data size = some (submitInvalid region address data size) := by
  cases region with
  | none => rfl
  | some region =>
    have hnot : ∀ {p : Prop} [Decidable p], decide p = false → ¬ p := of_decide_eq_false
    simp only [submitInvalid, Bool.or_assoc]
    refine chain_cons rfl fun _ => chain_cons rfl fun _ => chain_cons rfl fun _ =>
      chain_cons rfl fun _ => chain_cons rfl fun _ => chain_cons rfl fun horigin =>
      chain_cons rfl fun _ => chain_cons ?_ fun _ => chain_cons rfl fun hlow =>
      chain_cons ?_ fun hinside => ?_
    · rw [subtract_of_le (UInt32.le_of_lt (UInt32.not_le.mp (hnot horigin)))]
      rfl
    · rw [subtract_of_le (UInt32.not_lt.mp (hnot hlow))]
      rfl
    · rw [subtract_of_le (UInt32.not_lt.mp (hnot hlow)), Option.bind_some,
        subtract_of_le (UInt32.not_lt.mp (hnot hinside)), Option.map_some]
      exact (chain_cons rfl fun _ => rfl).trans (congrArg some (Bool.or_false _))

/-- The arguments pass the check. -/
def Passes (region : Option RramRegion) (address : UInt32) (data : Bool) (size : UInt32) : Prop :=
  data = true ∧ ∃ r, region = some r ∧ Submittable r address size

theorem submitInvalid_iff {region : Option RramRegion} {address size : UInt32} {data : Bool} :
    submitInvalid region address data size = false ↔ Passes region address data size := by
  cases region with
  | none => exact ⟨nofun, fun ⟨_, _, hsome, _⟩ => nomatch hsome⟩
  | some region =>
    have hlimit : rramLimit.toNat = 0x1FD000 := rfl
    have hmax : rramMaxWrite.toNat = 256 := rfl
    have h0 : (0 : UInt32).toNat = 0 := rfl
    have h16 : (16 : UInt32).toNat = 16 := rfl
    have hroom := @toNat_sub_add rramLimit region.origin
    have hstart := @toNat_sub_add address region.origin
    have hrest := @toNat_sub_add region.length (address - region.origin)
    simp only [Passes, submitInvalid, Bool.or_eq_false_iff, decide_eq_false_iff_not,
      Bool.not_eq_false', bne_eq_false_iff_eq, beq_eq_false_iff_ne, ne_eq, ← UInt32.toNat_inj,
      UInt32.toNat_mod, UInt32.lt_iff_toNat_lt, UInt32.le_iff_toNat_le, hlimit, hmax, h0, h16]
      at hroom hstart hrest ⊢
    constructor
    · rintro ⟨⟨⟨⟨⟨⟨⟨⟨⟨⟨hdata, hsome⟩, hmost⟩, haddress⟩, hsize⟩, horigin⟩, hlength⟩, hregion⟩,
        hlow⟩, hinside⟩, hfits⟩
      have := hroom (by omega)
      have := hstart (by omega)
      have := hrest (by omega)
      exact ⟨hdata, region, rfl, ⟨by omega, hsize, by omega⟩, haddress, by omega, by omega,
        by omega, by omega⟩
    · rintro ⟨hdata, r, heq, ⟨hsome, hsize, hmost⟩, haddress, hlength, hregion, hlow, hstop⟩
      obtain rfl := Option.some.inj heq
      have := hroom (by omega)
      have := hstart (by omega)
      have := hrest (by omega)
      exact ⟨⟨⟨⟨⟨⟨⟨⟨⟨⟨hdata, by omega⟩, by omega⟩, haddress⟩, hsize⟩, by omega⟩, by omega⟩,
        by omega⟩, by omega⟩, by omega⟩, by omega⟩

/-! ## The call -/

section
variable {V} {region : Option RramRegion} {address size : UInt32} {data : Bool} {m : Machine}

/-- A call that does not pass the check changes nothing. -/
theorem rramSubmit_refused (h : ¬ Passes region address data size) :
    nrfkitRramSubmit V region address data size m = .done m (-V.einval) := by
  rw [← submitInvalid_iff, Bool.not_eq_false] at h
  rw [nrfkitRramSubmit, if_pos h]

/-- What a call that passes the check does: it is refused for another reason and nothing is
recorded, or its arguments are, and the session is opened. -/
theorem rramSubmit_passes (h : Passes region address data size) :
    nrfkitRramSubmit V region address data size m = .done m (-V.eagain) ∨
    nrfkitRramSubmit V region address data size m = .done m (-V.eperm) ∨
    ∃ r m' k, region = some r ∧ Submittable r address size ∧
      nrfkitRramSubmit V region address data size m = .wait m' (.vendor .rramSessionOpen) k ∧
      m'.ghost.submitted =
        { region := r, address := address.toNat, size := size.toNat, data := m.hw.callerData } ∧
      m'.rram.destination = address ∧ m'.rram.offset = 0 ∧ m'.rram.remaining = size := by
  have hvalid : ¬ submitInvalid region address data size = true :=
    Bool.eq_false_iff.mp (submitInvalid_iff.mpr h)
  obtain ⟨-, r, rfl, hr⟩ := h
  unfold nrfkitRramSubmit
  rw [if_neg hvalid]
  split
  · exact .inl rfl
  split
  · exact .inr (.inl rfl)
  rcases retain_cases V m with hretain | ⟨-, -, hretain⟩
  · rw [hretain]
    dsimp only
    rw [if_pos (by have := V.eperm_pos; omega)]
    exact .inr (.inl rfl)
  · rw [hretain]
    exact .inr (.inr ⟨r, _, _, rfl, hr, rfl, rfl, rfl, rfl, rfl⟩)

/-- Where the errors differ, `-NRF_EINVAL` is the answer to exactly the arguments that do not
pass. -/
theorem rramSubmit_einval (hagain : V.einval ≠ V.eagain) (hperm : V.einval ≠ V.eperm) :
    nrfkitRramSubmit V region address data size m = .done m (-V.einval) ↔
      ¬ Passes region address data size := by
  refine ⟨fun hrefused hpasses => ?_, rramSubmit_refused⟩
  have hother : ∀ {status : Int},
      nrfkitRramSubmit V region address data size m = .done m (-status) →
      V.einval = status := by
    intro status h
    injection hrefused.symm.trans h with _ heq
    omega
  rcases rramSubmit_passes hpasses with h | h | ⟨_, _, _, _, _, h, _⟩
  · exact hagain (hother h)
  · exact hperm (hother h)
  · exact nomatch hrefused.symm.trans h

end

/-! ## Units -/

/-- What places the next unit, and the submission whose data was copied last. -/
structure Units where
  destination : UInt32
  offset : UInt32
  remaining : UInt32
  region : RramRegion
  address : Nat
  size : Nat

def units (m : Machine) : Units where
  destination := m.rram.destination
  offset := m.rram.offset
  remaining := m.rram.remaining
  region := m.ghost.submitted.region
  address := m.ghost.submitted.address
  size := m.ghost.submitted.size

/-- The offset and what remains make the submission. -/
structure Bounded (u : Units) : Prop where
  destination : u.destination.toNat = u.address
  whole : u.offset.toNat + u.remaining.toNat = u.size
  aligned : u.offset.toNat % 16 = 0 ∧ u.size % 16 = 0
  small : u.size ≤ 256
  /-- Nothing of it is outside its region. -/
  inside : u.size ≠ 0 → u.region.origin.toNat ≤ u.address ∧
    u.address + u.size ≤ u.region.origin.toNat + u.region.length.toNat ∧
    u.region.origin.toNat + u.region.length.toNat ≤ 0x1FD000

/-- A unit is being written. -/
def Query.inUnit : Query → Bool
  | .rramReady | .rramWait _ | .rramStored _ => true
  | _ => false

structure UnitsOk (ctx : List Query) (u : Units) : Prop where
  bounded : Bounded u
  left : ∀ q ∈ ctx, q.inUnit = true → u.remaining ≠ 0
  target : ∀ target, .rramStored target ∈ ctx → target = (u.destination + u.offset).toNat

theorem inUnit_level {q : Query} (h : q.inUnit = true) : level q = 3 := by
  cases q with
  | rramReady | rramWait | rramStored => rfl
  | _ => cases h

section
variable {ctx : List Query} {u u' : Units} {q : Query}

theorem Bounded.remaining_aligned (h : Bounded u) : u.remaining.toNat % 16 = 0 := by
  have := h.whole
  have := h.aligned
  omega

/-- A unit ahead of the offset is there whole. -/
theorem Bounded.unit (h : Bounded u) (hleft : u.remaining ≠ 0) : u.offset.toNat + 16 ≤ u.size := by
  have hpos : u.remaining.toNat ≠ 0 := fun h0 => hleft (UInt32.toNat_inj.mp h0)
  have := h.remaining_aligned
  have := h.whole
  omega

/-- The next unit. -/
theorem Bounded.advance (h : Bounded u) (hleft : u.remaining ≠ 0) :
    Bounded { u with offset := u.offset + 16, remaining := u.remaining - 16 } := by
  have hunit := h.unit hleft
  have hwhole := h.whole
  have haligned := h.aligned
  have hsmall := h.small
  have h16 : (16 : UInt32).toNat = 16 := rfl
  have hoffset : (u.offset + 16).toNat = u.offset.toNat + 16 := by
    rw [UInt32.toNat_add, h16]
    omega
  have hremaining : (u.remaining - 16).toNat = u.remaining.toNat - 16 := by
    rw [UInt32.toNat_sub_of_le _ _ (UInt32.le_iff_toNat_le.mpr (by omega)), h16]
  refine ⟨h.destination, ?_, ⟨?_, haligned.2⟩, hsmall, h.inside⟩
  · show (u.offset + 16).toNat + (u.remaining - 16).toNat = u.size
    omega
  · show (u.offset + 16).toNat % 16 = 0
    omega

theorem unitsOk_cons (hq : q.inUnit = false) : UnitsOk (q :: ctx) u ↔ UnitsOk ctx u := by
  constructor
  · rintro ⟨hbounded, hleft, htarget⟩
    exact ⟨hbounded, fun p hp => hleft p (List.mem_cons_of_mem _ hp), fun t ht =>
      htarget t (List.mem_cons_of_mem _ ht)⟩
  · rintro ⟨hbounded, hleft, htarget⟩
    refine ⟨hbounded, fun p hp hin => ?_, fun t ht => ?_⟩
    · rcases List.mem_cons.mp hp with rfl | hp
      · cases hq.symm.trans hin
      · exact hleft p hp hin
    · rcases List.mem_cons.mp ht with rfl | ht
      · cases hq
      · exact htarget t ht

/-- Under an interrupt no unit is being written, so a new one may begin. -/
theorem UnitsOk.low (h : Bounded u) (hb : ∀ q ∈ ctx, level q < 3) : UnitsOk ctx u := by
  refine ⟨h, fun p hp hin => ?_, fun t ht => ?_⟩
  · have := hb p hp
    rw [inUnit_level hin] at this
    omega
  · exact absurd (hb _ ht) (by show ¬ 3 < 3; omega)

theorem UnitsOk.waiting (h : Bounded u) (hb : ∀ q ∈ ctx, level q < 3) (hleft : u.remaining ≠ 0)
    (htarget : ∀ target, q = .rramStored target → target = (u.destination + u.offset).toNat) :
    UnitsOk (q :: ctx) u := by
  have hlow := UnitsOk.low h hb
  refine ⟨h, fun _ _ _ => hleft, fun t ht => ?_⟩
  rcases List.mem_cons.mp ht with heq | ht
  · exact htarget t heq.symm
  · exact hlow.target t ht

end

section
variable {V} {α : Type} {ctx : List Query} {m : Machine}
    {sys : System Machine Query Answer Entry Ret}
    {J : List Query → Machine → Prop}

/-- A program under the invariant. -/
abbrev KeepsUnits (sys : System Machine Query Answer Entry Ret) (J : List Query → Machine → Prop)
    (ctx : List Query) (T : α → Machine → Prop) (t : FTurn α) : Prop :=
  t.Sat sys J (fun ctx m => UnitsOk ctx (units m)) ctx T

/-- While a unit is written it stays the next one. -/
theorem writeUnit_units (h : Bounded (units m)) (hb : ∀ q ∈ ctx, level q < 3)
    (hleft : m.rram.remaining ≠ 0) :
    KeepsUnits sys J ctx (fun _ m => Bounded (units m) ∧ m.rram.remaining ≠ 0) (writeUnit V m) := by
  have hnext : ∀ {q : Query} {m : Machine}, UnitsOk (q :: ctx) (units m) → q.inUnit = true →
      Bounded (units m) ∧ m.rram.remaining ≠ 0 :=
    fun h hq => ⟨h.bounded, h.left _ List.mem_cons_self hq⟩
  refine sat_wait.mpr ⟨UnitsOk.waiting h hb hleft nofun, fun ready m1 _ h1 _ => ?_⟩
  obtain ⟨hb1, hl1⟩ := hnext h1 rfl
  dsimp only
  split
  · exact ⟨hb1, hl1⟩
  · refine sat_wait.mpr ⟨UnitsOk.waiting hb1 hb hl1 nofun, fun ready m2 _ h2 _ => ?_⟩
    obtain ⟨hb2, hl2⟩ := hnext h2 rfl
    dsimp only
    split
    · refine sat_wait.mpr ⟨UnitsOk.waiting hb2 hb hl2 ?_, fun held m3 _ h3 _ => ?_⟩
      · rintro target heq
        cases heq
        rfl
      · obtain ⟨hb3, hl3⟩ := hnext h3 rfl
        refine sat_wait.mpr ⟨UnitsOk.waiting hb3 hb hl3 nofun, fun ready m4 _ h4 _ => ?_⟩
        obtain ⟨hb4, hl4⟩ := hnext h4 rfl
        dsimp only
        split
        · exact ⟨hb4, hl4⟩
        · trivial
    · trivial

theorem setOperationResult_units (status : Int) (m : Machine) :
    units (setOperationResult status m) = units m := by
  unfold setOperationResult
  dsimp only
  split <;> rfl

theorem grantUnit_units (h : Bounded (units m)) (hb : ∀ q ∈ ctx, level q < 3) :
    KeepsUnits sys J ctx (fun _ m => UnitsOk ctx (units m)) (grantUnit V m) := by
  refine sat_bind.mpr
    (sat_mono (T := fun _ m => Bounded (units m)) (fun _ _ h => UnitsOk.low h hb) ?_)
  dsimp only
  split
  · rename_i hgo
    refine sat_bind.mpr (sat_mono (fun status m' hm' => ?_) (writeUnit_units h hb hgo.2))
    obtain ⟨hbounded, hleft⟩ := hm'
    have hsame := setOperationResult_units status m'
    generalize setOperationResult status m' = m'' at hsame
    split
    · have hadvanced := hbounded.advance hleft
      rw [← hsame] at hadvanced
      exact hadvanced
    · show Bounded (units m'')
      rw [hsame]
      exact hbounded
  · exact h

/-- Signals other than START move no unit. -/
theorem deliverRram_units {id : Nat} {signal : MpslSignal} (h : UnitsOk ctx (units m))
    (hb : ∀ q ∈ ctx, level q < signalLevel signal) :
    KeepsUnits sys J ctx (fun _ m => UnitsOk ctx (units m)) (deliverRram V id signal m) := by
  have hb3 : ∀ q ∈ ctx, level q < 3 := by
    intro q hq
    have := hb q hq
    unfold signalLevel at this
    split at this <;> omega
  have hraised : units (raiseRramSignal id signal m) = units m := by
    unfold raiseRramSignal mpslBeforeRramSignal
    cases signal <;> dsimp only <;> repeat' split
    all_goals rfl
  unfold deliverRram
  rw [← hraised] at h
  generalize raiseRramSignal id signal m = m' at h
  unfold rramCallback
  split
  · exact h
  cases signal with
  | start => exact grantUnit_units h.bounded hb3
  | sessionClosed =>
    unfold closeRramSession
    dsimp only
    obtain ⟨pf, hpf⟩ :=
      releaseReference_eq { m' with rram := { m'.rram with opened := false, closing := false } }
    rw [hpf]
    exact h
  | blocked | cancelled | sessionIdle => exact h
  | _ =>
    have hsame := setOperationResult_units (-V.eio) m'
    generalize setOperationResult (-V.eio) m' = m'' at hsame
    show UnitsOk ctx (units m'')
    rw [hsame]
    exact h

theorem rramSubmit_units {region : Option RramRegion} {address : UInt32} {data : Bool}
    {size : UInt32} (h : UnitsOk ctx (units m)) (hb : ∀ q ∈ ctx, level q < 2) :
    KeepsUnits sys J ctx (fun _ m => UnitsOk ctx (units m))
      (nrfkitRramSubmit V region address data size m) := by
  have hb3 : ∀ q ∈ ctx, level q < 3 := fun q hq => Nat.lt_succ_of_lt (hb q hq)
  unfold nrfkitRramSubmit
  split
  · exact h
  rename_i hvalid
  split
  · exact h
  split
  · exact h
  obtain ⟨pf, hpf⟩ := retain_eq V m
  dsimp only
  rw [hpf]
  split
  · exact h
  obtain ⟨-, r, rfl, hr⟩ := submitInvalid_iff.mp (Bool.eq_false_iff.mpr hvalid)
  have hfresh : Bounded ⟨address, 0, size, r, address.toNat, size.toNat⟩ :=
    ⟨rfl, Nat.zero_add _, ⟨rfl, hr.units.2.1⟩, hr.units.2.2, fun _ =>
      ⟨hr.start, hr.stop, hr.ordinary⟩⟩
  refine sat_wait.mpr ⟨(unitsOk_cons rfl).mpr (UnitsOk.low hfresh hb3), fun reply m1 _ h1 _ =>
    sat_wait.mpr ⟨(unitsOk_cons rfl).mpr ((unitsOk_cons rfl).mp h1), fun _ m2 _ h2 _ => ?_⟩⟩
  have h2 := (unitsOk_cons rfl).mp h2
  dsimp only
  split
  · obtain ⟨pf, hpf⟩ := releaseReference_eq m2
    rw [hpf]
    exact h2
  · exact h2

/-- A program that leaves the units alone and writes none. -/
theorem keepsUnits_program (e : Entry) (h : UnitsOk ctx (units m))
    (hv : ∀ m, units (e.view m) = units m) (hp : e.part ≠ some .rramCallback) :
    KeepsUnits sys J ctx (fun _ m => UnitsOk ctx (units m)) (program V e m) := by
  refine sat_program (I := UnitsOk) e units hv (fun q ctx u hq => unitsOk_cons ?_) h
  cases q with
  | rramReady | rramWait | rramStored => exact absurd hq.1 hp
  | _ => rfl

end

/-- The step lemma: every program keeps the units of the submission within it. -/
theorem units_keeps : Keeps (firmware V) Any (fun ctx m => UnitsOk ctx (units m)) := by
  intro ctx e m _ h he
  have habove := above_iff.mp he
  have hother := @keepsUnits_program V ctx m (firmware V) Any e h
  cases e with
  | rramSubmit r a d size => exact sat_map.mpr (rramSubmit_units h habove)
  | rramSignal id signal => exact sat_map.mpr (deliverRram_units h habove)
  | _ => exact hother (fun _ => rfl) nofun

/-- **The bounds of RRAM writes.** The call is refused with `-NRF_EINVAL`, and nothing changed, for
exactly the arguments that do not pass the check over the integers, and as it is evaluated no
subtraction of the check wraps. A call that goes on records its arguments and its region, and in
every run each unit lies in the region that was recorded last, and in the buffer. -/
theorem submit_bounds :
    (V.einval ≠ V.eagain → V.einval ≠ V.eperm →
      ∀ (region : Option RramRegion) (address : UInt32) (data : Bool) (size : UInt32) (m : Machine),
        nrfkitRramSubmit V region address data size m = .done m (-V.einval) ↔
          ¬ Passes region address data size) ∧
    (∀ (region : Option RramRegion) (address : UInt32) (data : Bool) (size : UInt32),
      checkEvaluated region address data size = some (submitInvalid region address data size)) ∧
    (∀ (region : Option RramRegion) (address : UInt32) (data : Bool) (size : UInt32) (m : Machine),
      Passes region address data size →
        nrfkitRramSubmit V region address data size m = .done m (-V.eagain) ∨
        nrfkitRramSubmit V region address data size m = .done m (-V.eperm) ∨
        ∃ r m' k, region = some r ∧ Submittable r address size ∧
          nrfkitRramSubmit V region address data size m = .wait m' (.vendor .rramSessionOpen) k ∧
          m'.ghost.submitted =
            { region := r, address := address.toNat, size := size.toNat, data := m.hw.callerData } ∧
          m'.rram.destination = address ∧ m'.rram.offset = 0 ∧ m'.rram.remaining = size) ∧
    ∀ (hw : Hardware) (radio : Radio) (timer0 : Timer0) (c : Config Machine Query Answer Ret),
      Reachable (firmware V) (Machine.reset hw radio timer0) c → c.live = true →
      ∀ q ∈ c.queries, q.inUnit = true →
        let region := c.state.ghost.submitted.region
        let target := c.state.rram.destination.toNat + c.state.rram.offset.toNat
        region.origin.toNat ≤ target ∧ target + 16 ≤ region.origin.toNat + region.length.toNat ∧
          c.state.rram.offset.toNat / 4 + 4 ≤ 64 ∧
          ∀ stored, q = .rramStored stored → stored = target := by
  refine ⟨fun hagain hperm _ _ _ _ _ => rramSubmit_einval hagain hperm, checkEvaluated_eq,
    fun _ _ _ _ _ => rramSubmit_passes, ?_⟩
  intro hw radio timer0 c h hl q hq hin region target
  have h0 : UnitsOk [] (units (Machine.reset hw radio timer0)) :=
    ⟨⟨rfl, rfl, ⟨rfl, rfl⟩, Nat.zero_le _, fun h => absurd rfl h⟩, nofun, nofun⟩
  have hok := run_inv (units_keeps V) h0 h hl
  have hunit : c.state.rram.offset.toNat + 16 ≤ c.state.ghost.submitted.size :=
    hok.bounded.unit (hok.left q hq hin)
  have hdestination : c.state.rram.destination.toNat = c.state.ghost.submitted.address :=
    hok.bounded.destination
  have hsmall : c.state.ghost.submitted.size ≤ 256 := hok.bounded.small
  have hsome : c.state.ghost.submitted.size ≠ 0 := by omega
  obtain ⟨hstart, hstop, hordinary⟩ : region.origin.toNat ≤ c.state.ghost.submitted.address ∧
      c.state.ghost.submitted.address + c.state.ghost.submitted.size ≤
        region.origin.toNat + region.length.toNat ∧
      region.origin.toNat + region.length.toNat ≤ 0x1FD000 := hok.bounded.inside hsome
  have htarget : target = c.state.rram.destination.toNat + c.state.rram.offset.toNat := rfl
  refine ⟨by omega, by omega, by omega, ?_⟩
  rintro stored rfl
  have hstored : stored = (c.state.rram.destination + c.state.rram.offset).toNat :=
    hok.target stored hq
  rw [hstored, UInt32.toNat_add]
  omega

/-- A submission past the end of its region is refused; the second unit of two is written at the end
of the region that was submitted. -/
theorem submit_bounds_second :
    nrfkitRramSubmit .nrfxlib (some ⟨4096, 32⟩) 4112 true 32 (.reset {} {} {}) =
      .done (.reset {} {} {}) (-22) ∧
    ∃ c, Reachable (firmware .nrfxlib) (Machine.reset {} {} {}) c ∧ c.live = true ∧
      c.queries = [.rramStored 4112] ∧ c.state.ghost.submitted.region = ⟨4096, 32⟩ ∧
      c.state.rram.destination.toNat + c.state.rram.offset.toNat + 16 ≤ 4096 + 32 := by
  obtain ⟨heinval, -, -, hunits⟩ := submit_bounds .nrfxlib
  have hrefused : ¬ Passes (some ⟨4096, 32⟩) 4112 true 32 := by
    rintro ⟨-, r, hr, h⟩
    obtain rfl := Option.some.inj hr
    exact absurd h.stop (by decide)
  refine ⟨(heinval (by decide) (by decide) _ _ _ _ _).mpr hrefused, ?_⟩
  obtain ⟨c, h, hf⟩ := reachable_of_run (firmware .nrfxlib) (.reset {} {} {})
    (calls [enabled, (.rramSubmit (some ⟨4096, 32⟩) 4096 true 32, 2, ⟨.actionNone, 0, 0⟩),
      (.rramProcess, 10, ⟨.actionNone, 0, 0⟩), (.rramSignal 2 .start, 4, ⟨.actionNone, 0, 0⟩),
      (.rramSignal 2 .sessionIdle, 0, ⟨.actionNone, 0, 0⟩), (.rramProcess, 10, ⟨.actionNone, 0, 0⟩),
      (.rramSignal 2 .start, 2, ⟨.actionNone, 0, 0⟩)])
    (fun c => c.live && c.queries == [.rramStored 4112] &&
      c.state.ghost.submitted.region == ⟨4096, 32⟩)
    (by decide +kernel)
  simp only [Bool.and_eq_true, beq_iff_eq] at hf
  obtain ⟨⟨hl, hq⟩, hregion⟩ := hf
  have hbounds :=
    (hunits {} {} {} c h hl (.rramStored 4112) (by rw [hq]; exact List.mem_cons_self) rfl).2.1
  rw [hregion] at hbounds
  exact ⟨c, h, hl, hq, hregion, hbounds⟩

end NrfKit.Firmware
