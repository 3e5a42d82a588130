import NrfKit.Firmware.Lifetime

/- RRAM transactions. The data of an accepted `nrfkit_rram_submit` is written in units of
   16 bytes, one for each grant, between which `nrfkit_rram_process` and the signals of
   MPSL run in any order. MPSL starts only a grant that was requested and closes the
   session only when asked to (`rramContract`). The memory then always is what the
   transaction left: the units written so far are a prefix of the data, at most one
   unit was tried after them, and nothing else has changed (`Written`); and a result of
   0 says that all of the data is there (`transaction_sound`). -/
namespace NrfKit.Firmware
open Interleave

variable (V : Vendor)

/-! ## Units in memory -/

theorem storeWord_outside {memory : Nat → UInt8} {a x : Nat} {w : Word} (h : x < a ∨ a + 4 ≤ x) :
    storeWord memory a w x = memory x := if_neg (by omega)

theorem storeUnit_outside {memory buffer : Nat → UInt8} {target offset x : Nat}
    (h : x < target ∨ target + 16 ≤ x) : storeUnit memory target buffer offset x = memory x := by
  have hfold : ∀ (l : List Nat) (memory : Nat → UInt8), (∀ i ∈ l, i < 4) →
      l.foldl (fun memory i => storeWord memory (target + 4 * i)
        (loadWord buffer (4 * (offset / 4 + i)))) memory x = memory x := by
    intro l
    induction l with
    | nil => intro memory _; rfl
    | cons i l ih =>
      intro memory hl
      have hi : i < 4 := hl i List.mem_cons_self
      rw [List.foldl_cons, ih _ fun j hj => hl j (List.mem_cons_of_mem _ hj)]
      exact storeWord_outside (by omega)
  exact hfold _ memory fun i hi => List.mem_range.mp hi

theorem commitUnit_outside {memory held : Nat → UInt8} {target x : Nat}
    (h : x < target ∨ target + 16 ≤ x) : commitUnit memory target held x = memory x :=
  if_neg (by omega)

/-- A unit that reads back holds its 16 bytes of the buffer. -/
theorem unitReadsBack_byte {memory buffer : Nat → UInt8} {target offset i : Nat}
    (h : unitReadsBack memory target buffer offset = true) (h4 : offset % 4 = 0) (hi : i < 16) :
    memory (target + i) = buffer (offset + i) := by
  have hword := List.all_eq_true.mp h (i / 4) (List.mem_range.mpr (by omega))
  have hbyte := List.all_eq_true.mp hword (i % 4) (List.mem_range.mpr (by omega))
  have heq : memory (target + 4 * (i / 4) + i % 4) = buffer (4 * (offset / 4 + i / 4) + i % 4) :=
    eq_of_beq hbyte
  have hl : target + 4 * (i / 4) + i % 4 = target + i := by omega
  have hr : 4 * (offset / 4 + i / 4) + i % 4 = offset + i := by omega
  rwa [hl, hr] at heq

/-! ## The record of a transaction -/

/-- An error is recorded, or the close requested. -/
def RramNote.stops : RramNote → Bool
  | .failed _ | .closeRequested => true
  | .granted | .wrote _ => false

def RramNote.unit : RramNote → Option Nat
  | .wrote address => some address
  | _ => none

/-- The addresses at which units have been written. -/
def Transaction.units (t : Transaction) : List Nat := t.notes.filterMap RramNote.unit

/-- A START after which nothing has been written yet. -/
def Armed (notes : List RramNote) : Prop :=
  ∃ earlier later, notes = earlier ++ .granted :: later ∧ ∀ n ∈ later, n.unit = none

/-- Each unit is written in a grant of its own, and none after a stop. -/
def WritesInGrants (notes : List RramNote) : Prop :=
  ∀ earlier later address, notes = earlier ++ .wrote address :: later →
    (∀ n ∈ earlier, n.stops = false) ∧ Armed earlier

theorem writesInGrants_snoc {notes : List RramNote} {n : RramNote} (h : WritesInGrants notes)
    (hn : ∀ address, n = .wrote address → (∀ n ∈ notes, n.stops = false) ∧ Armed notes) :
    WritesInGrants (notes ++ [n]) := by
  intro earlier later address he
  rcases record_split he with ⟨_, rfl, hlast⟩ | ⟨later', _, hnotes⟩
  · exact hn address hlast
  · exact h earlier later' address hnotes

theorem armed_granted (notes : List RramNote) : Armed (notes ++ [.granted]) :=
  ⟨notes, [], rfl, nofun⟩

/-- What a transaction has done to the memory. -/
structure Written (memory : Nat → UInt8) (t : Transaction) : Prop where
  aligned : t.written % 16 = 0 ∧ t.size % 16 = 0
  inside : t.address + t.size ≤ rramLimit.toNat
  outside : ∀ x, x < t.address ∨ t.address + t.size ≤ x → memory x = t.before x
  front : ∀ i, i < t.written → memory (t.address + i) = t.data i
  back : ∀ i, 16 * t.units.length ≤ i → i < t.size →
    memory (t.address + i) = t.before (t.address + i)
  units : t.units = (List.range t.units.length).map (fun k => t.address + 16 * k)
  tried : t.written ≤ 16 * t.units.length ∧ 16 * t.units.length ≤ t.written + 16 ∧
    16 * t.units.length ≤ t.size
  order : WritesInGrants t.notes

section
variable {memory memory' : Nat → UInt8} {t : Transaction}

theorem Written.size_le (h : Written memory t) : t.written ≤ t.size := by
  obtain ⟨h1, _, h3⟩ := h.tried
  omega

/-- A note that writes nothing. -/
theorem Written.note (h : Written memory t) {n : RramNote} (hn : n.unit = none) :
    Written memory { t with notes := t.notes ++ [n] } := by
  have hu : Transaction.units { t with notes := t.notes ++ [n] } = t.units := by
    unfold Transaction.units
    rw [List.filterMap_append]
    simp [hn]
  refine ⟨h.aligned, h.inside, h.outside, h.front, ?_, ?_, ?_, writesInGrants_snoc h.order ?_⟩
  · rw [hu]
    exact h.back
  · rw [hu]
    exact h.units
  · rw [hu]
    exact h.tried
  · rintro address rfl
    cases hn

/-- The words of the next unit are stored. -/
theorem Written.store (h : Written memory t) (hsettled : 16 * t.units.length = t.written)
    (hleft : t.written < t.size) (harmed : Armed t.notes) (hstop : ∀ n ∈ t.notes, n.stops = false)
    (hm : ∀ x, x < t.address + t.written ∨ t.address + t.written + 16 ≤ x → memory' x = memory x) :
    Written memory' { t with notes := t.notes ++ [.wrote (t.address + t.written)] } := by
  obtain ⟨ha1, ha2⟩ := h.aligned
  have hu : Transaction.units { t with notes := t.notes ++ [.wrote (t.address + t.written)] } =
      t.units ++ [t.address + t.written] := by
    unfold Transaction.units
    rw [List.filterMap_append]
    rfl
  refine ⟨h.aligned, h.inside, fun x hx => ?_, fun i hi => ?_, fun i hi hs => ?_, ?_, ?_,
    writesInGrants_snoc h.order ?_⟩
  · dsimp only at hx ⊢
    rw [hm x (by omega)]
    exact h.outside x hx
  · dsimp only at hi ⊢
    rw [hm _ (by omega)]
    exact h.front i hi
  · rw [hu, List.length_append, List.length_singleton] at hi
    dsimp only at hs ⊢
    rw [hm _ (by omega)]
    exact h.back i (by omega) hs
  · rw [hu, List.length_append, List.length_singleton, List.range_succ, List.map_append, ← h.units]
    rw [List.map_singleton, hsettled]
  · rw [hu, List.length_append, List.length_singleton]
    dsimp only
    omega
  · rintro _ _
    exact ⟨hstop, harmed⟩

/-- The unit being written may hold anything. -/
theorem Written.commit (h : Written memory t) (hstoring : 16 * t.units.length = t.written + 16)
    (hm : ∀ x, x < t.address + t.written ∨ t.address + t.written + 16 ≤ x → memory' x = memory x) :
    Written memory' t := by
  have htried := h.tried
  refine ⟨h.aligned, h.inside, fun x hx => ?_, fun i hi => ?_, fun i hi hs => ?_, h.units, h.tried,
    h.order⟩
  · rw [hm x (by omega)]
    exact h.outside x hx
  · rw [hm _ (by omega)]
    exact h.front i hi
  · rw [hm _ (by omega)]
    exact h.back i hi hs

/-- The unit reads back. -/
theorem Written.verify (h : Written memory t) (hstoring : 16 * t.units.length = t.written + 16)
    (hback : ∀ i, i < 16 → memory (t.address + (t.written + i)) = t.data (t.written + i)) :
    Written memory { t with written := t.written + 16 } := by
  have htried := h.tried
  have haligned := h.aligned
  have hu : Transaction.units { t with written := t.written + 16 } = t.units := rfl
  refine ⟨?_, h.inside, h.outside, fun i hi => ?_, h.back, h.units, ?_, h.order⟩
  · dsimp only
    omega
  · dsimp only at hi ⊢
    by_cases hlt : i < t.written
    · exact h.front i hlt
    · have := hback (i - t.written) (by omega)
      rwa [show t.written + (i - t.written) = i by omega] at this
  · rw [hu]
    dsimp only
    omega

end

/-! ## The invariant -/

/-- What the transaction depends on: the static variables of `rram.c`, the RRAM, what MPSL
keeps for the session, and the record. -/
structure RramView where
  opened : Bool
  buffer : Nat → UInt8
  destination : UInt32
  offset : UInt32
  remaining : UInt32
  result : Int
  operationResult : Int
  memory : Nat → UInt8
  requested : Bool
  closing : Bool
  submitted : Transaction
  current : Transaction

def rramView (m : Machine) : RramView where
  opened := m.rram.opened
  buffer := m.rram.buffer
  destination := m.rram.destination
  offset := m.rram.offset
  remaining := m.rram.remaining
  result := m.rram.result
  operationResult := m.rram.operationResult
  memory := m.hw.memory
  requested := m.mpsl.rramRequested
  closing := m.mpsl.rramClosing
  submitted := m.ghost.submitted
  current := m.ghost.transaction

/-- No unit will be written any more. -/
def Stopped (d : RramView) : Prop := d.operationResult ≠ 0 ∨ d.remaining = 0

/-- The static variables hold the transaction, of which `done` bytes have been written. -/
structure Loaded (d : RramView) (t : Transaction) (done : Nat) : Prop where
  buffer : ∀ i, i < t.size → d.buffer i = t.data i
  destination : d.destination.toNat = t.address
  offset : d.offset.toNat = done
  remaining : done + d.remaining.toNat = t.size

/-- A transaction of which nothing has been written. -/
structure Fresh (t : Transaction) : Prop where
  size : t.size % 16 = 0
  inside : t.address + t.size ≤ rramLimit.toNat
  written : t.written = 0
  notes : t.notes = []

/-- The unit at `target` is stored but not read back. -/
def Storing (d : RramView) (target : Nat) : Prop :=
  d.operationResult = 0 ∧ d.remaining ≠ 0 ∧ target = d.current.address + d.current.written ∧
    16 * d.current.units.length = d.current.written + 16

/-- What a waiting query relies on. -/
def RramFrameOk (d : RramView) : Query → Prop
  | .vendor .rramSessionOpen | .within .rramSessionOpen _ =>
    d.opened = false ∧ Fresh d.submitted ∧ Loaded d d.submitted 0
  | .vendor .rramRequest | .within .rramRequest _ => d.opened = true
  | .vendor .rramSessionClose | .within .rramSessionClose _ => d.opened = true ∧ Stopped d
  | .statement stopping => d.opened = true ∧ (stopping = true → Stopped d)
  | .rramReady | .rramWait none =>
    d.opened = true ∧ d.operationResult = 0 ∧ d.remaining ≠ 0 ∧ Armed d.current.notes
  | .rramWait (some target) | .rramStored target => d.opened = true ∧ Storing d target
  | _ => True

/-- A unit is being written. -/
def Query.storing : Query → Bool
  | .rramWait (some _) | .rramStored _ => true
  | _ => false

structure TransactionOk (ctx : List Query) (d : RramView) : Prop where
  written : Written d.memory d.current
  loaded : d.opened = true → Loaded d d.current d.current.written
  progress : d.opened = true → d.result = -V.einprogress
  finished : d.opened = false → d.result = 0 → d.current.written = d.current.size
  idle : d.opened = false → d.requested = false ∧ d.closing = false
  closing : d.closing = true → Stopped d
  stopped : d.opened = true → (∃ n ∈ d.current.notes, n.stops = true) → Stopped d
  settled : d.opened = true → d.operationResult = 0 → (∀ q ∈ ctx, q.storing = false) →
    16 * d.current.units.length = d.current.written
  frames : ∀ q ∈ ctx, RramFrameOk d q

section
variable {V} {ctx : List Query} {d : RramView}

theorem transactionOk_cons {q : Query} (hq : q.storing = false) :
    TransactionOk V (q :: ctx) d ↔ RramFrameOk d q ∧ TransactionOk V ctx d := by
  constructor
  · rintro ⟨h1, h2, h3, h4, h5, h6, h7, h8, h9⟩
    obtain ⟨hf, h9⟩ := List.forall_mem_cons.mp h9
    exact ⟨hf, h1, h2, h3, h4, h5, h6, h7,
      fun ho hr hs => h8 ho hr (List.forall_mem_cons.mpr ⟨hq, hs⟩), h9⟩
  · rintro ⟨hf, h1, h2, h3, h4, h5, h6, h7, h8, h9⟩
    exact ⟨h1, h2, h3, h4, h5, h6, h7,
      fun ho hr hs => h8 ho hr (List.forall_mem_cons.mp hs).2, List.forall_mem_cons.mpr ⟨hf, h9⟩⟩

/-- Under an API call nothing of `rram.c` waits. -/
theorem rramFrame_low {q : Query} (h : level q < 2) (d : RramView) : RramFrameOk d q := by
  have hcall : ∀ call : VendorCall, level (.vendor call) < 2 → call = .lowPriorityProcess := by
    intro call hl
    cases call <;> first | rfl | exact absurd hl (by show ¬ 2 < 2; omega)
  cases q with
  | vendor call =>
    rw [hcall call h]
    trivial
  | within call r =>
    rw [level_within] at h
    rw [hcall call h]
    trivial
  | handler => trivial
  | statement => exact absurd h (by show ¬ 2 < 2; omega)
  | rramReady | rramWait | rramStored => exact absurd h (by show ¬ 3 < 2; omega)

theorem storing_low {q : Query} (h : level q < 3) : q.storing = false := by
  cases q with
  | rramWait target => exact absurd h (by show ¬ 3 < 3; omega)
  | rramStored => exact absurd h (by show ¬ 3 < 3; omega)
  | _ => rfl

/-- Under an interrupt the waiting calls of `rram.c` only care that the session stays open
and a stop stays one, or for the submission being opened. -/
theorem rramFrame_lift {d' : RramView} {q : Query} (h : RramFrameOk d q) (hq : level q < 3)
    (ho : d'.opened = d.opened) (hs : Stopped d → Stopped d')
    (hl : d.opened = false → Fresh d.submitted → Loaded d d.submitted 0 →
      Fresh d'.submitted ∧ Loaded d' d'.submitted 0) : RramFrameOk d' q := by
  cases q with
  | vendor call | within call r =>
    cases call with
    | rramSessionOpen => exact ⟨ho.trans h.1, hl h.1 h.2.1 h.2.2⟩
    | rramRequest => exact ho.trans h
    | rramSessionClose => exact ⟨ho.trans h.1, hs h.2⟩
    | _ => trivial
  | handler => trivial
  | statement => exact ⟨ho.trans h.1, fun hb => hs (h.2 hb)⟩
  | rramReady | rramWait | rramStored => exact absurd hq (by show ¬ 3 < 3; omega)

/-- An error is recorded; a unit that was being written is given up. -/
theorem TransactionOk.fail {ctx' : List Query} (h : TransactionOk V ctx' d) (hsub : ctx ⊆ ctx')
    (hb : ∀ q ∈ ctx, level q < 3) {status : Int} (hs : status ≠ 0) : TransactionOk V ctx { d with
      operationResult := status
      current := { d.current with notes := d.current.notes ++ [.failed status] } } := by
  refine ⟨h.written.note rfl, fun ho => ?_, h.progress, h.finished, h.idle, fun _ => Or.inl hs,
    fun _ _ => Or.inl hs, fun _ hr => absurd hr hs, fun q hq => ?_⟩
  · obtain ⟨h1, h2, h3, h4⟩ := h.loaded ho
    exact ⟨h1, h2, h3, h4⟩
  · refine rramFrame_lift (h.frames q (hsub hq)) (hb q hq) rfl (fun _ => Or.inl hs)
      (fun _ hf hl => ⟨hf, ?_⟩)
    obtain ⟨h1, h2, h3, h4⟩ := hl
    exact ⟨h1, h2, h3, h4⟩

/-- A note that writes nothing. -/
theorem TransactionOk.note (h : TransactionOk V ctx d) (hb : ∀ q ∈ ctx, level q < 3) {n : RramNote}
    (hn : n.unit = none) (hs : n.stops = true → Stopped d) :
    TransactionOk V ctx
      { d with current := { d.current with notes := d.current.notes ++ [n] } } := by
  have hunits : Transaction.units { d.current with notes := d.current.notes ++ [n] } =
      d.current.units := by
    unfold Transaction.units
    rw [List.filterMap_append]
    simp [hn]
  refine ⟨h.written.note hn, fun ho => ?_, h.progress, h.finished, h.idle, h.closing,
    fun ho hstop => ?_, fun ho hr hq => ?_, fun q hq => ?_⟩
  · obtain ⟨h1, h2, h3, h4⟩ := h.loaded ho
    exact ⟨h1, h2, h3, h4⟩
  · obtain ⟨n', hn', hstop⟩ := hstop
    rcases List.mem_append.mp hn' with hn' | hn'
    · exact h.stopped ho ⟨n', hn', hstop⟩
    · rw [List.mem_singleton.mp hn'] at hstop
      exact hs hstop
  · rw [hunits]
    exact h.settled ho hr hq
  · refine rramFrame_lift (h.frames q hq) (hb q hq) rfl (fun hs => hs) (fun _ hf hl => ⟨hf, ?_⟩)
    exact ⟨hl.buffer, hl.destination, hl.offset, hl.remaining⟩

/-- MPSL takes or drops a request, or takes a close. -/
theorem TransactionOk.mpsl (h : TransactionOk V ctx d) (hb : ∀ q ∈ ctx, level q < 3)
    {requested closing : Bool} (ho : d.opened = true) (hs : closing = true → Stopped d) :
    TransactionOk V ctx { d with requested := requested, closing := closing } := by
  refine ⟨h.written, fun ho => ?_, h.progress, h.finished, fun hc =>
    absurd (ho.symm.trans hc) nofun, hs, h.stopped, h.settled, fun q hq => ?_⟩
  · obtain ⟨h1, h2, h3, h4⟩ := h.loaded ho
    exact ⟨h1, h2, h3, h4⟩
  · refine rramFrame_lift (h.frames q hq) (hb q hq) rfl (fun hs => hs) (fun _ hf hl => ⟨hf, ?_⟩)
    exact ⟨hl.buffer, hl.destination, hl.offset, hl.remaining⟩

/-- The data of a submission is copied while no session is open. -/
theorem TransactionOk.submit {d' : RramView} (h : TransactionOk V ctx d)
    (hb : ∀ q ∈ ctx, level q < 2) (hclosed : d.opened = false) (hfresh : Fresh d'.submitted)
    (hload : Loaded d' d'.submitted 0) (hsame : d'.opened = d.opened ∧ d'.result = d.result ∧
      d'.memory = d.memory ∧ d'.requested = d.requested ∧ d'.closing = d.closing ∧
      d'.current = d.current) :
    TransactionOk V (.vendor .rramSessionOpen :: ctx) d' := by
  obtain ⟨ho, hres, hmem, hreq, hclosing, hcur⟩ := hsame
  have hc : d'.opened = false := ho.trans hclosed
  have hno : ∀ {p : Prop}, d'.opened = true → p := fun h' => absurd (hc.symm.trans h') nofun
  obtain ⟨hr0, hc0⟩ := h.idle hclosed
  refine ⟨?_, hno, hno, fun _ hr => ?_, fun _ =>
    ⟨hreq.trans hr0, hclosing.trans hc0⟩, fun hcl => ?_, hno, hno,
    List.forall_mem_cons.mpr ⟨⟨hc, hfresh, hload⟩, fun q hq => rramFrame_low (hb q hq) d'⟩⟩
  · rw [hmem, hcur]
    exact h.written
  · rw [hcur]
    exact h.finished hclosed (hres.symm.trans hr)
  · exact absurd ((hclosing.trans hc0).symm.trans hcl) nofun

/-- The submission is accepted: its transaction is the current one. -/
theorem TransactionOk.accept (h : TransactionOk V ctx d) (hb : ∀ q ∈ ctx, level q < 2)
    (hfresh : Fresh d.submitted) (hload : Loaded d d.submitted 0) (hclosed : d.opened = false) :
    TransactionOk V ctx { d with
      opened := true
      result := -V.einprogress
      current := { d.submitted with before := d.memory } } := by
  obtain ⟨hsize, hinside, hwritten, hnotes⟩ := hfresh
  have hunits : Transaction.units { d.submitted with before := d.memory } = [] := by
    unfold Transaction.units
    dsimp only
    rw [hnotes]
    rfl
  refine ⟨⟨⟨?_, hsize⟩, hinside, fun _ _ => rfl, fun i hi => ?_, fun _ _ _ => rfl, ?_, ?_, ?_⟩,
    fun _ => ?_, fun _ => rfl, nofun, nofun, fun hcl => ?_, fun _ hs => ?_, fun _ _ _ => ?_,
    fun q hq => rramFrame_low (hb q hq) _⟩
  · dsimp only
    rw [hwritten]
  · dsimp only at hi
    rw [hwritten] at hi
    exact absurd hi (Nat.not_lt_zero i)
  · rw [hunits]
    rfl
  · rw [hunits]
    dsimp only
    rw [hwritten]
    exact ⟨Nat.le_refl 0, Nat.zero_le _, Nat.zero_le _⟩
  · intro earlier later address he
    dsimp only at he
    rw [hnotes] at he
    exact absurd he.symm (by simp)
  · show Loaded _ _ d.submitted.written
    rw [hwritten]
    exact ⟨hload.buffer, hload.destination, hload.offset, hload.remaining⟩
  · exact absurd ((h.idle hclosed).2.symm.trans hcl) nofun
  · obtain ⟨n, hn, _⟩ := hs
    dsimp only at hn
    rw [hnotes] at hn
    cases hn
  · rw [hunits]
    exact hwritten.symm

/-- MPSL closes the session it was asked to close: the result is final. -/
theorem TransactionOk.close (h : TransactionOk V ctx d) (hb : ∀ q ∈ ctx, level q < 2)
    (hclosing : d.closing = true) : TransactionOk V ctx { d with
      opened := false
      requested := false
      closing := false
      result := d.operationResult } := by
  have hopen : d.opened = true := by
    cases ho : d.opened with
    | true => rfl
    | false => exact absurd ((h.idle ho).2.symm.trans hclosing) nofun
  refine ⟨h.written, nofun, nofun, fun _ hr => ?_, fun _ => ⟨rfl, rfl⟩, nofun, nofun, nofun,
    fun q hq => rramFrame_low (hb q hq) _⟩
  have hremaining := (h.loaded hopen).remaining
  rcases h.closing hclosing with hne | hzero
  · exact absurd hr hne
  · rw [hzero] at hremaining
    have h0 : (0 : UInt32).toNat = 0 := rfl
    dsimp only
    omega

/-- The words of the next unit are stored. -/
theorem TransactionOk.store (h : TransactionOk V ctx d) (hb : ∀ q ∈ ctx, level q < 3)
    (ho : d.opened = true) (hr : d.operationResult = 0) (hleft : d.remaining ≠ 0)
    (harmed : Armed d.current.notes) {memory : Nat → UInt8}
    (hm : ∀ x, x < d.current.address + d.current.written ∨
      d.current.address + d.current.written + 16 ≤ x → memory x = d.memory x) :
    TransactionOk V (.rramStored (d.current.address + d.current.written) :: ctx) { d with
      memory := memory
      current := { d.current with
        notes := d.current.notes ++ [.wrote (d.current.address + d.current.written)] } } := by
  have hstoring : ∀ q ∈ ctx, q.storing = false := fun q hq => storing_low (hb q hq)
  have hload := h.loaded ho
  have hsettled := h.settled ho hr hstoring
  have hrunning : ¬ Stopped d := fun hs => hs.elim (fun hne => hne hr) hleft
  have hnostop : ∀ n ∈ d.current.notes, n.stops = false := by
    intro n hn
    cases hs : n.stops with
    | false => rfl
    | true => exact absurd (h.stopped ho ⟨n, hn, hs⟩) hrunning
  have hlt : d.current.written < d.current.size := by
    have hpos : d.remaining.toNat ≠ 0 := fun h0 => hleft (UInt32.toNat_inj.mp h0)
    have := hload.remaining
    omega
  have hunits : Transaction.units { d.current with
      notes := d.current.notes ++ [.wrote (d.current.address + d.current.written)] } =
      d.current.units ++ [d.current.address + d.current.written] := by
    unfold Transaction.units
    rw [List.filterMap_append]
    rfl
  refine ⟨h.written.store hsettled hlt harmed hnostop hm, fun _ => ?_,
    h.progress, h.finished, h.idle, h.closing, fun _ hs => ?_, fun _ _ hs => ?_,
    List.forall_mem_cons.mpr ⟨?_, fun q hq => ?_⟩⟩
  · exact ⟨hload.buffer, hload.destination, hload.offset, hload.remaining⟩
  · obtain ⟨n, hn, hs⟩ := hs
    rcases List.mem_append.mp hn with hn | hn
    · exact absurd (hnostop n hn) (by rw [hs]; nofun)
    · rw [List.mem_singleton.mp hn] at hs
      cases hs
  · exact absurd (hs _ List.mem_cons_self) nofun
  · refine ⟨ho, hr, hleft, rfl, ?_⟩
    rw [hunits, List.length_append, List.length_singleton]
    dsimp only
    omega
  · refine rramFrame_lift (h.frames q hq) (hb q hq) rfl (fun hs => hs) (fun _ hf hl => ⟨hf, ?_⟩)
    exact ⟨hl.buffer, hl.destination, hl.offset, hl.remaining⟩

/-- The unit being written may hold anything. -/
theorem TransactionOk.commit {target : Nat} (h : TransactionOk V (.rramStored target :: ctx) d)
    (hb : ∀ q ∈ ctx, level q < 3) {memory : Nat → UInt8}
    (hm : ∀ x, x < target ∨ target + 16 ≤ x → memory x = d.memory x) :
    TransactionOk V (.rramWait (some target) :: ctx) { d with memory := memory } := by
  obtain ⟨hf, hframes⟩ := List.forall_mem_cons.mp h.frames
  obtain ⟨ho, hr, hleft, ht, hunits⟩ := hf
  rw [ht] at hm
  refine ⟨h.written.commit hunits hm, fun _ => ?_, h.progress, h.finished, h.idle, h.closing,
    h.stopped, fun _ _ hs => absurd (hs _ List.mem_cons_self) nofun,
    List.forall_mem_cons.mpr ⟨⟨ho, hr, hleft, ht, hunits⟩, fun q hq => ?_⟩⟩
  · obtain ⟨h1, h2, h3, h4⟩ := h.loaded ho
    exact ⟨h1, h2, h3, h4⟩
  · refine rramFrame_lift (hframes q hq) (hb q hq) rfl (fun hs => hs) (fun _ hf hl => ⟨hf, ?_⟩)
    exact ⟨hl.buffer, hl.destination, hl.offset, hl.remaining⟩

/-- The unit that was stored reads back: the transaction moves on by 16 bytes. -/
theorem TransactionOk.advance {target : Nat}
    (h : TransactionOk V (.rramWait (some target) :: ctx) d) (hb : ∀ q ∈ ctx, level q < 3)
    (hback : unitReadsBack d.memory target d.buffer d.offset.toNat = true) :
    TransactionOk V ctx { d with
      operationResult := 0
      offset := d.offset + 16
      remaining := d.remaining - 16
      current := { d.current with written := d.current.written + 16 } } := by
  obtain ⟨⟨ho, hr, hleft, ht, hunits⟩, hframes⟩ := List.forall_mem_cons.mp h.frames
  obtain ⟨hbuffer, hdestination, hoffset, hremaining⟩ := h.loaded ho
  obtain ⟨hwa, hsa⟩ := h.written.aligned
  have hin := h.written.inside
  have htried := h.written.tried
  have hlimit : rramLimit.toNat = 2084864 := rfl
  have hsixteen : (16 : UInt32).toNat = 16 := rfl
  have hwritten : Written d.memory { d.current with written := d.current.written + 16 } := by
    refine h.written.verify hunits (fun i hi => ?_)
    have hbyte := unitReadsBack_byte hback (by omega) hi
    rw [ht, Nat.add_assoc] at hbyte
    rw [hbyte, hoffset]
    exact hbuffer _ (by omega)
  refine ⟨hwritten, fun _ => ⟨hbuffer, hdestination, ?_, ?_⟩, h.progress,
    fun hc => absurd (ho.symm.trans hc) nofun, h.idle, fun hc => ?_, fun _ hs => ?_,
    fun _ _ _ => hunits, fun q hq => ?_⟩
  · show (d.offset + 16).toNat = d.current.written + 16
    rw [UInt32.toNat_add, hoffset, hsixteen]
    omega
  · show d.current.written + 16 + (d.remaining - 16).toNat = d.current.size
    have hle : (16 : UInt32) ≤ d.remaining := by
      rw [UInt32.le_iff_toNat_le]
      omega
    rw [UInt32.toNat_sub_of_le _ _ hle]
    omega
  · exact absurd (h.closing hc) fun hs => hs.elim (fun hne => hne hr) hleft
  · exact absurd (h.stopped ho hs) fun hs => hs.elim (fun hne => hne hr) hleft
  · exact rramFrame_lift (hframes q hq) (hb q hq) rfl
      (fun hs => absurd hs fun hs => hs.elim (fun hne => hne hr) hleft)
      (fun hc => absurd (ho.symm.trans hc) nofun)

end

/-! ## One grant -/

/-- MPSL starts a grant of the storage session only when one was requested, and closes the
session only when asked to. -/
def rramContract : System Machine Query Answer Entry Ret :=
  (openSessions V).assuming
    (fun _ e m => match e with
      | .rramSignal _ .start => m.mpsl.rramRequested
      | .rramSignal _ .sessionClosed => m.mpsl.rramClosing
      | _ => true)
    (fun _ _ _ _ => true)

section
variable {V} {α : Type} {ctx : List Query} {m : Machine}
    {sys : System Machine Query Answer Entry Ret}

/-- A program under the invariant. -/
abbrev KeepsTransaction (V : Vendor) (sys : System Machine Query Answer Entry Ret)
    (ctx : List Query) (T : α → Machine → Prop) (t : FTurn α) : Prop :=
  t.Sat sys SessionsKnown (fun ctx m => TransactionOk V ctx (rramView m)) ctx T

theorem setOperationResult_fail {ctx' : List Query} {status : Int}
    (h : TransactionOk V ctx' (rramView m)) (hsub : ctx ⊆ ctx') (hb : ∀ q ∈ ctx, level q < 3)
    (hs : status ≠ 0) :
    TransactionOk V ctx (rramView (setOperationResult status m)) := by
  unfold setOperationResult
  rw [if_pos hs]
  exact h.fail hsub hb hs

/-- The next unit goes where the transaction is. -/
theorem unitTarget_eq (h : TransactionOk V ctx (rramView m)) (ho : m.rram.opened = true) :
    unitTarget m.rram = m.ghost.transaction.address + m.ghost.transaction.written := by
  obtain ⟨_, hdestination, hoffset, _⟩ := h.loaded ho
  have hin := h.written.inside
  have hle := h.written.size_le
  have hlimit : rramLimit.toNat = 2084864 := rfl
  show (m.rram.destination + m.rram.offset).toNat = _
  have hd : m.rram.destination.toNat = m.ghost.transaction.address := hdestination
  have hw : m.rram.offset.toNat = m.ghost.transaction.written := hoffset
  have hin : m.ghost.transaction.address + m.ghost.transaction.size ≤ rramLimit.toNat := hin
  have hle : m.ghost.transaction.written ≤ m.ghost.transaction.size := hle
  rw [UInt32.toNat_add, hd, hw]
  omega

/-- What the write of a unit leaves when it returns: the wait it made last, and on success
the unit read back. -/
def UnitDone (V : Vendor) (ctx : List Query) (status : Int) (m : Machine) : Prop :=
  (status ≠ 0 ∧ TransactionOk V ctx (rramView m)) ∨
  ∃ target, TransactionOk V (.rramWait (some target) :: ctx) (rramView m) ∧
    (status = 0 → unitReadsBack m.hw.memory target m.rram.buffer m.rram.offset.toNat = true)

theorem writeUnit_transaction (h : TransactionOk V ctx (rramView m)) (hb : ∀ q ∈ ctx, level q < 3)
    (ho : m.rram.opened = true) (hr : m.rram.operationResult = 0) (hleft : m.rram.remaining ≠ 0)
    (harmed : Armed m.ghost.transaction.notes) :
    KeepsTransaction V sys ctx (UnitDone V ctx) (writeUnit V m) := by
  have hagain := V.eagain_pos
  have heio := V.eio_pos
  refine sat_wait.mpr ⟨(transactionOk_cons rfl).mpr ⟨⟨ho, hr, hleft, harmed⟩, h⟩,
    fun ready m1 _ h1 _ => ?_⟩
  obtain ⟨hf1, h1⟩ := (transactionOk_cons rfl).mp h1
  dsimp only
  split
  · exact Or.inl ⟨by omega, h1⟩
  · refine sat_wait.mpr ⟨(transactionOk_cons rfl).mpr ⟨hf1, h1⟩, fun ready m2 _ h2 _ => ?_⟩
    obtain ⟨⟨ho2, hr2, hleft2, harmed2⟩, h2⟩ := (transactionOk_cons rfl).mp h2
    dsimp only
    split
    · have htarget := unitTarget_eq h2 ho2
      rw [htarget]
      refine sat_wait.mpr ⟨h2.store hb ho2 hr2 hleft2 harmed2 fun x hx => storeUnit_outside hx,
        fun held m3 _ h3 _ => ?_⟩
      refine sat_wait.mpr ⟨h3.commit hb fun x hx => commitUnit_outside hx,
        fun ready m4 _ h4 _ => ?_⟩
      dsimp only
      split
      · refine Or.inr ⟨_, h4, fun hs => ?_⟩
        split at hs
        · rename_i hv
          exact hv
        · omega
      · trivial
    · trivial

/-- One START of the open session, MPSL having consumed the request and the START being
recorded. -/
theorem grantUnit_transaction (h : TransactionOk V ctx (rramView m)) (hb : ∀ q ∈ ctx, level q < 3)
    (ho : m.rram.opened = true) (harmed : Armed m.ghost.transaction.notes) :
    KeepsTransaction V sys ctx (fun _ m => TransactionOk V ctx (rramView m)) (grantUnit V m) := by
  refine sat_bind.mpr
    (sat_mono (T := fun _ m => TransactionOk V ctx (rramView m)) (fun _ _ h => h) ?_)
  dsimp only
  split
  · rename_i hgo
    refine sat_bind.mpr (sat_mono (fun status m' hm' => ?_)
      (writeUnit_transaction h hb ho hgo.1 hgo.2 harmed))
    rcases hm' with ⟨hs, h'⟩ | ⟨target, h', hback⟩
    · rw [if_neg hs]
      exact setOperationResult_fail h' (List.Subset.refl ctx) hb hs
    · by_cases hs : status = 0
      · rw [if_pos hs]
        unfold setOperationResult
        rw [if_neg (not_not_intro hs), hs]
        exact h'.advance hb (hback hs)
      · rw [if_neg hs]
        exact setOperationResult_fail h' (List.subset_cons_self _ ctx) hb hs
  · exact h

/-! ## The programs -/

/-- A signal of the storage session, as MPSL may send it. -/
theorem deliverRram_transaction {id : Nat} {signal : MpslSignal} (hk : SessionsKnown ctx m)
    (h : TransactionOk V ctx (rramView m)) (hb : ∀ q ∈ ctx, level q < signalLevel signal)
    (hid : m.mpsl.rramSession = some id)
    (hstart : signal = .start → m.mpsl.rramRequested = true)
    (hclose : signal = .sessionClosed → m.mpsl.rramClosing = true) :
    KeepsTransaction V sys ctx (fun _ m => TransactionOk V ctx (rramView m))
      (deliverRram V id signal m) := by
  have heio := V.eio_pos
  have hstored : m.rram.session = id := hk.2.stored id hid
  have hb3 : ∀ q ∈ ctx, level q < 3 := by
    intro q hq
    have := hb q hq
    unfold signalLevel at this
    split at this <;> omega
  unfold deliverRram
  cases signal with
  | start =>
    -- MPSL starts only what was requested, and a closed session requests nothing.
    have hopen : m.rram.opened = true := by
      cases ho : m.rram.opened with
      | true => rfl
      | false => exact absurd ((h.idle ho).1.symm.trans (hstart rfl)) nofun
    rw [raiseRramSignal_start hid]
    unfold rramCallback
    rw [if_neg (not_not_intro (by exact hstored.symm))]
    have hrun : TransactionOk V ctx { rramView m with requested := false } :=
      h.mpsl hb3 hopen h.closing
    exact grantUnit_transaction (hrun.note hb3 rfl nofun) hb3 hopen (armed_granted _)
  | sessionClosed =>
    rw [raiseRramSignal_closed hid, rramCallback_closed V (by exact hstored)]
    have hb2 : ∀ q ∈ ctx, level q < 2 := fun q hq => Nat.lt_succ_of_lt (hb q hq)
    unfold closeRramSession
    dsimp only
    generalize hm : nrfkitMpslTimeslotRelease _ = m'
    obtain ⟨pf, hpf⟩ := releaseReference_eq _
    rw [← hm, hpf]
    exact h.close hb2 (hclose rfl)
  | blocked | cancelled | sessionIdle =>
    rw [raiseRramSignal_other (by exact nofun) (by exact nofun)]
    unfold rramCallback
    rw [if_neg (not_not_intro hstored.symm)]
    exact h
  | _ =>
    rw [raiseRramSignal_other (by exact nofun) (by exact nofun)]
    unfold rramCallback
    rw [if_neg (not_not_intro hstored.symm)]
    exact setOperationResult_fail h (List.Subset.refl ctx) hb3 (by omega)

/-- What the argument check lets through lies in the RRAM, in whole units. -/
theorem submit_valid {region : Option RramRegion} {address size : UInt32} {data : Bool}
    (h : submitInvalid region address data size = false) :
    size.toNat % 16 = 0 ∧ address.toNat + size.toNat ≤ rramLimit.toNat := by
  have hlimit : rramLimit.toNat = 2084864 := rfl
  cases region with
  | none => cases h
  | some region =>
    simp only [submitInvalid, Bool.or_eq_false_iff, decide_eq_false_iff_not, UInt32.not_le,
      UInt32.not_lt, bne_eq_false_iff_eq] at h
    obtain ⟨⟨⟨⟨⟨⟨⟨⟨⟨⟨_, _⟩, _⟩, _⟩, hsize⟩, horigin⟩, _⟩, hlength⟩, haddress⟩, hoffset⟩, hfits⟩ := h
    have hsize : size.toNat % 16 = 0 := congrArg UInt32.toNat hsize
    rw [UInt32.lt_iff_toNat_lt] at horigin
    rw [UInt32.le_iff_toNat_le,
      UInt32.toNat_sub_of_le _ _ (UInt32.le_iff_toNat_le.mpr (by omega))] at hlength
    have hsub := UInt32.toNat_sub_of_le _ _ haddress
    have hrest := UInt32.toNat_sub_of_le _ _ hoffset
    rw [UInt32.le_iff_toNat_le] at haddress hoffset hfits
    omega

theorem rramSubmit_transaction {region : Option RramRegion} {address : UInt32} {data : Bool}
    {size : UInt32} (h : TransactionOk V ctx (rramView m)) (hb : ∀ q ∈ ctx, level q < 2) :
    KeepsTransaction V sys ctx (fun _ m => TransactionOk V ctx (rramView m))
      (nrfkitRramSubmit V region address data size m) := by
  have hrelease : ∀ m, rramView (nrfkitMpslTimeslotRelease m) = rramView m := by
    intro m
    obtain ⟨pf, hpf⟩ := releaseReference_eq m
    rw [hpf]
    rfl
  unfold nrfkitRramSubmit
  split
  · exact h
  · rename_i hvalid
    obtain ⟨hsize, hinside⟩ := submit_valid (Bool.eq_false_iff.mpr hvalid)
    split
    · exact h
    · rename_i hbusy
      have hclosed : m.rram.opened = false := Bool.eq_false_iff.mpr fun ho => hbusy (Or.inr ho)
      split
      · exact h
      · obtain ⟨pf, hpf⟩ := retain_eq V m
        dsimp only
        rw [hpf]
        split
        · exact h
        · have hfresh : Fresh {
              region := region.getD ⟨0, 0⟩, address := address.toNat, size := size.toNat
              data := m.hw.callerData } := ⟨hsize, hinside, rfl, rfl⟩
          refine sat_wait.mpr ⟨h.submit hb hclosed hfresh ⟨fun i hi => if_pos hi, rfl, rfl, ?_⟩
            ⟨rfl, rfl, rfl, rfl, rfl, rfl⟩, fun reply m1 _ h1 _ =>
              sat_wait.mpr ⟨(transactionOk_cons rfl).mpr ?_, fun _ m2 _ h2 _ => ?_⟩⟩
          · exact Nat.zero_add _
          · obtain ⟨hf1, h1⟩ := (transactionOk_cons rfl).mp h1
            exact ⟨hf1, h1⟩
          · obtain ⟨⟨hclosed2, hfresh2, hload2⟩, h2⟩ := (transactionOk_cons rfl).mp h2
            dsimp only
            split
            · show TransactionOk V ctx (rramView (nrfkitMpslTimeslotRelease m2))
              rw [hrelease]
              exact h2
            · exact h2.accept hb hfresh2 hload2 hclosed2

/-- Others run between two statements. -/
theorem preempt_transaction {T : α → Machine → Prop} {stopping : Bool} {k : Machine → FTurn α}
    (h : TransactionOk V ctx (rramView m)) (ho : m.rram.opened = true)
    (hs : stopping = true → Stopped (rramView m))
    (hk : ∀ m, TransactionOk V ctx (rramView m) → m.rram.opened = true →
      (stopping = true → Stopped (rramView m)) → KeepsTransaction V sys ctx T (k m)) :
    KeepsTransaction V sys ctx T (preempt stopping m k) := by
  refine sat_wait.mpr ⟨(transactionOk_cons rfl).mpr ⟨⟨ho, hs⟩, h⟩, fun _ m' _ h' _ => ?_⟩
  obtain ⟨⟨ho', hs'⟩, h'⟩ := (transactionOk_cons rfl).mp h'
  exact hk m' h' ho' hs'

theorem requestClose_transaction (h : TransactionOk V ctx (rramView m))
    (hb : ∀ q ∈ ctx, level q < 2) (ho : m.rram.opened = true) (hs : Stopped (rramView m)) :
    KeepsTransaction V sys ctx (fun _ m => TransactionOk V ctx (rramView m)) (requestClose m) := by
  have hb3 : ∀ q ∈ ctx, level q < 3 := fun q hq => Nat.lt_succ_of_lt (hb q hq)
  refine preempt_transaction h ho (fun _ => hs) (fun m h ho hs => ?_)
  have hnoted := h.note hb3 (n := .closeRequested) rfl hs
  refine sat_wait.mpr ⟨(transactionOk_cons rfl).mpr ⟨⟨ho, hs rfl⟩, hnoted⟩, fun reply m1 _ h1 _ =>
    sat_wait.mpr ⟨(transactionOk_cons rfl).mpr ?_, fun _ m2 _ h2 _ => ?_⟩⟩
  · obtain ⟨⟨ho1, hs1⟩, h1⟩ := (transactionOk_cons rfl).mp h1
    unfold Machine.vendorEffect
    dsimp only
    split
    · exact ⟨⟨ho1, hs1⟩, h1.mpsl hb3 ho1 fun _ => hs1⟩
    · exact ⟨⟨ho1, hs1⟩, h1⟩
  · obtain ⟨⟨ho2, hs2⟩, h2⟩ := (transactionOk_cons rfl).mp h2
    dsimp only
    split
    · rename_i hr
      exact preempt_transaction h2 ho2 (fun _ => hs2) (fun m h _ _ =>
        setOperationResult_fail h (List.Subset.refl ctx) hb3 hr)
    · exact h2

theorem requestGrant_transaction (h : TransactionOk V ctx (rramView m))
    (hb : ∀ q ∈ ctx, level q < 2) (ho : m.rram.opened = true) :
    KeepsTransaction V sys ctx (fun _ m => TransactionOk V ctx (rramView m)) (requestGrant m) := by
  have hb3 : ∀ q ∈ ctx, level q < 3 := fun q hq => Nat.lt_succ_of_lt (hb q hq)
  refine preempt_transaction h ho nofun (fun m h ho _ => preempt_transaction h ho nofun
    (fun m h ho _ => ?_))
  refine sat_wait.mpr ⟨(transactionOk_cons rfl).mpr ⟨ho, h⟩, fun reply m1 _ h1 _ =>
    sat_wait.mpr ⟨(transactionOk_cons rfl).mpr ?_, fun _ m2 _ h2 _ => ?_⟩⟩
  · obtain ⟨ho1, h1⟩ := (transactionOk_cons rfl).mp h1
    unfold Machine.vendorEffect
    dsimp only
    split
    · exact ⟨ho1, h1.mpsl hb3 ho1 h1.closing⟩
    · exact ⟨ho1, h1⟩
  · obtain ⟨ho2, h2⟩ := (transactionOk_cons rfl).mp h2
    dsimp only
    split
    · rename_i hr
      have hopen : (setOperationResult reply.result m2).rram.opened = true := by
        unfold setOperationResult
        rw [if_pos hr]
        exact ho2
      exact preempt_transaction
        (setOperationResult_fail h2 (List.Subset.refl ctx) hb3 hr) hopen nofun
        (fun m h _ _ => h)
    · exact h2

theorem rramProcess_transaction (h : TransactionOk V ctx (rramView m))
    (hb : ∀ q ∈ ctx, level q < 2) :
    KeepsTransaction V sys ctx (fun _ m => TransactionOk V ctx (rramView m))
      (nrfkitRramProcess V m) := by
  have hb3 : ∀ q ∈ ctx, level q < 3 := fun q hq => Nat.lt_succ_of_lt (hb q hq)
  have htimeout := V.etimedout_pos
  unfold nrfkitRramProcess
  split
  · exact h
  · rename_i hopen
    have ho : m.rram.opened = true := by simpa using hopen
    refine preempt_transaction h ho nofun (fun m h ho _ => ?_)
    split
    · exact h
    · refine preempt_transaction h ho nofun (fun m h ho _ => sat_bind.mpr (sat_mono
        (T := fun _ m => TransactionOk V ctx (rramView m) ∧ m.rram.opened = true)
          (fun _ m' hm' => ?_) ?_))
      · refine preempt_transaction hm'.1 hm'.2 nofun (fun m h ho _ => ?_)
        split
        · rename_i hr
          exact preempt_transaction h ho (fun _ => Or.inl hr) fun m h ho hs =>
            requestClose_transaction h hb ho (hs rfl)
        · refine preempt_transaction h ho nofun (fun m h ho _ => ?_)
          split
          · rename_i hr
            exact preempt_transaction h ho (fun _ => Or.inr hr) fun m h ho hs =>
              requestClose_transaction h hb ho (hs rfl)
          · refine preempt_transaction h ho nofun (fun m h ho _ => ?_)
            split
            · exact preempt_transaction h ho nofun fun m h ho _ => requestGrant_transaction h hb ho
            · exact h
      · split
        · refine preempt_transaction h ho nofun (fun m h ho _ => ?_)
          refine ⟨setOperationResult_fail h (List.Subset.refl ctx) hb3 (by omega), ?_⟩
          unfold setOperationResult
          dsimp only
          split <;> exact ho
        · exact ⟨h, ho⟩

/-- A query of another module asks nothing of the transaction. -/
theorem rramFrameOk_other {q : Query} (d : RramView)
    (h : q.part ≠ .rramSubmit ∧ q.part ≠ .rramProcess ∧ q.part ≠ .rramCallback) :
    q.storing = false ∧ RramFrameOk d q := by
  obtain ⟨hsubmit, hprocess, hcallback⟩ := h
  cases q with
  | vendor call | within call r =>
    cases call with
    | rramSessionOpen => exact absurd rfl hsubmit
    | rramRequest | rramSessionClose => exact absurd rfl hprocess
    | _ => exact ⟨rfl, trivial⟩
  | handler => exact ⟨rfl, trivial⟩
  | statement => exact absurd rfl hprocess
  | rramReady | rramWait | rramStored => exact absurd rfl hcallback

/-- A program that waits elsewhere and leaves the transaction alone. -/
theorem keepsTransaction_program (e : Entry) (h : TransactionOk V ctx (rramView m))
    (hv : ∀ m, rramView (e.view m) = rramView m)
    (hp : e.part ≠ some .rramSubmit ∧ e.part ≠ some .rramProcess ∧ e.part ≠ some .rramCallback) :
    KeepsTransaction V sys ctx (fun _ m => TransactionOk V ctx (rramView m)) (program V e m) := by
  refine sat_program (I := TransactionOk V) e rramView hv (fun q ctx d hq => ?_) h
  obtain ⟨hstoring, hframe⟩ :=
    rramFrameOk_other d ⟨hq.part_ne hp.1, hq.part_ne hp.2.1, hq.part_ne hp.2.2⟩
  exact (transactionOk_cons hstoring).trans (and_iff_right hframe)

end

/-! ## Every run -/

/-- The step lemma: every program keeps what the transaction has done to the memory. -/
theorem transaction_keeps :
    Keeps (rramContract V) SessionsKnown (fun ctx m => TransactionOk V ctx (rramView m)) := by
  intro ctx e m hk h he
  obtain ⟨hopen, hcontract⟩ := assuming_enters.mp he
  have habove := above_iff.mp (assuming_enters.mp hopen).1
  have hsession := (assuming_enters.mp hopen).2
  have hother := @keepsTransaction_program V ctx m (rramContract V) e h
  cases e with
  | rramSubmit r a d size => exact sat_map.mpr (rramSubmit_transaction h habove)
  | rramProcess => exact sat_map.mpr (rramProcess_transaction h habove)
  | rramSignal id signal =>
    refine sat_map.mpr (deliverRram_transaction hk h habove (eq_of_beq hsession) ?_ ?_)
    · rintro rfl
      exact hcontract
    · rintro rfl
      exact hcontract
  | _ => exact hother (fun _ => rfl) ⟨nofun, nofun, nofun⟩

theorem transactionOk_reset (hw : Hardware) (radio : Radio) (timer0 : Timer0) :
    TransactionOk V [] (rramView (Machine.reset hw radio timer0)) := by
  refine ⟨⟨⟨rfl, rfl⟩, Nat.zero_le _, fun _ _ => rfl, nofun, nofun, rfl, ⟨?_, ?_, ?_⟩, ?_⟩, nofun,
    nofun, fun _ _ => rfl, fun _ => ⟨rfl, rfl⟩, nofun, nofun, nofun, nofun⟩
  · exact Nat.le_refl 0
  · exact Nat.zero_le _
  · exact Nat.le_refl 0
  · intro earlier later address he
    have he : [] = earlier ++ RramNote.wrote address :: later := he
    exact absurd he.symm (by simp)

/-- A START of the open session returns END, however the unit fares. -/
theorem start_returns_end {sys : System Machine Query Answer Entry Ret} {ctx : List Query}
    {m : Machine} {id : Nat} (hstored : m.rram.session = id) (hid : m.mpsl.rramSession = some id) :
    (deliverRram V id .start m).Sat sys Any Any ctx (fun p _ => p.callbackAction = .actionEnd) := by
  have hany : ∀ {β : Type} (t : FTurn β), t.Sat sys Any Any ctx (fun _ _ => True) := by
    intro β t
    induction t with
    | done => trivial
    | wait s q k ih => exact ⟨trivial, fun a s' _ _ _ => ih a s'⟩
    | halt => trivial
  unfold deliverRram
  rw [raiseRramSignal_start hid]
  unfold rramCallback
  rw [if_neg (not_not_intro (by exact hstored.symm))]
  exact sat_bind.mpr (sat_mono (fun _ _ _ => rfl) (hany _))

/-- **RRAM transactions.** In every state of every run, of the transaction accepted last:
nothing outside it has changed; units have been tried at consecutive addresses from its
start, each in a grant of its own and none after an error or the request to close; those
that read back hold its data, and at most one more was tried, after which the memory is
as it was. If the result is 0, all of the data is written. And a START returns END. -/
theorem transaction_sound {hw : Hardware} {radio : Radio} {timer0 : Timer0}
    {c : Config Machine Query Answer Ret}
    (h : Reachable (rramContract V) (Machine.reset hw radio timer0) c) (hl : c.live = true) :
    (∀ x, x < c.state.ghost.transaction.address ∨
        c.state.ghost.transaction.address + c.state.ghost.transaction.size ≤ x →
      c.state.hw.memory x = c.state.ghost.transaction.before x) ∧
    Written c.state.hw.memory c.state.ghost.transaction ∧
    (nrfkitRramResult c.state = 0 → ∀ i, i < c.state.ghost.transaction.size →
      c.state.hw.memory (c.state.ghost.transaction.address + i) =
        c.state.ghost.transaction.data i) ∧
    ∀ id, (rramContract V).enters c.queries (.rramSignal id .start) c.state = true →
      (deliverRram V id .start c.state).Sat (rramContract V) Any Any c.queries
        (fun p _ => p.callbackAction = .actionEnd) := by
  have hk0 := sessionsKnown_reset hw radio timer0
  have h0 := transactionOk_reset V hw radio timer0
  obtain ⟨hk, hd⟩ := run_inv ((keeps_assuming (openSessions_known V)).and (transaction_keeps V))
    (I := fun ctx m => SessionsKnown ctx m ∧ TransactionOk V ctx (rramView m)) ⟨hk0, h0⟩ h hl
  refine ⟨hd.written.outside, hd.written, fun hr i hi => ?_, fun id he => ?_⟩
  · have hclosed : c.state.rram.opened = false := by
      cases ho : c.state.rram.opened with
      | false => rfl
      | true =>
        have hp := V.einprogress_pos
        have hbusy : c.state.rram.result = -V.einprogress := hd.progress ho
        have hr : c.state.rram.result = 0 := hr
        omega
    have hall : c.state.ghost.transaction.written = c.state.ghost.transaction.size :=
      hd.finished hclosed hr
    exact hd.written.front i (Nat.lt_of_lt_of_eq hi hall.symm)
  · have hid := eq_of_beq (assuming_enters.mp (assuming_enters.mp he).1).2
    exact start_returns_end V (hk.2.stored id hid) hid

/-- Two units in two grants: the result is 0 and both are written. -/
theorem transaction_sound_two_units : ∃ c,
    Reachable (rramContract .nrfxlib) (Machine.reset {} {} {}) c ∧ nrfkitRramResult c.state = 0 ∧
      c.state.ghost.transaction.size = 32 ∧ c.state.hw.memory 0 = 0xff ∧
      ∀ i, i < 32 → c.state.hw.memory (4096 + i) = 0 := by
  obtain ⟨c, h, hf⟩ := reachable_of_run (rramContract .nrfxlib) (.reset {} {} {})
    (calls [enabled, (.rramSubmit (some ⟨0, 8192⟩) 4096 true 32, 2, ⟨.actionNone, 0, 0⟩),
      (.rramProcess, 10, ⟨.actionNone, 0, 0⟩), (.rramSignal 2 .start, 4, ⟨.actionNone, 0, 0⟩),
      (.rramSignal 2 .sessionIdle, 0, ⟨.actionNone, 0, 0⟩),
      (.rramProcess, 10, ⟨.actionNone, 0, 0⟩), (.rramSignal 2 .start, 4, ⟨.actionNone, 0, 0⟩),
      (.rramProcess, 8, ⟨.actionNone, 0, 0⟩),
        (.rramSignal 2 .sessionClosed, 0, ⟨.actionNone, 0, 0⟩)])
    (fun c => c.live && c.stack.isEmpty && c.state.rram.result == 0 &&
      c.state.ghost.transaction.address == 4096 && c.state.ghost.transaction.size == 32 &&
      c.state.ghost.transaction.before 0 == 0xff &&
      (List.range 32).all (fun i => c.state.ghost.transaction.data i == 0))
    (by decide +kernel)
  simp only [Bool.and_eq_true, beq_iff_eq, List.all_eq_true, List.mem_range] at hf
  obtain ⟨⟨⟨⟨⟨⟨hl, _⟩, hr⟩, ha⟩, hs⟩, hb⟩, hdata⟩ := hf
  obtain ⟨hout, _, hall, _⟩ := transaction_sound .nrfxlib h hl
  refine ⟨c, h, hr, hs, ?_, fun i hi => ?_⟩
  · rw [hout 0 (by omega), hb]
  · rw [← hdata i hi, ← ha]
    exact hall hr i (by omega)

end NrfKit.Firmware
