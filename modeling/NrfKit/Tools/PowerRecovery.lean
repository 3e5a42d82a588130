import Mathlib.Data.List.Induction
import NrfKit.Tools.PowerSuite

/- What a run of the power suite leaves behind, whatever raises: the restorations are
   attempted, the output is turned off, and run.json says ok of verified restorations only.
   `Fatal` lists what may not raise for that: the operations of the cleanup in front of a
   restoration, the power-on before its flag is set, and what comes behind the status. -/
namespace NrfKit.Tools.PowerSuite
open Effects Prog Python Spans

abbrev Past := History Op Op.Ans Raised

abbrev Run := World Op Op.Ans Raised Locals

/-- What an event leaves in run.json. -/
def written : Event Op Op.Ans Raised → Option Report
  | ⟨.newRun, .ok _⟩ => some {}
  | ⟨.atomicJson report, .ok _⟩ => some report
  | _ => none

/-- run.json as it was last written. -/
def runJson (h : Past) : Option Report := latest written h

def Op.powersOn (op : Op) : Prop := ∃ phase, op = .power phase true

def Op.powersOff (op : Op) : Prop := ∃ phase, op = .power phase false

def Op.flashes (op : Op) : Prop := ∃ manifest log, op = .child (.flash manifest) log

def Op.programs (op : Op) : Prop :=
  ∃ image serial family core log, op = .runLogged (.program image serial family core) log

/-- A power-on may have been issued that no power-off was attempted after. -/
def OutputOn (h : Past) : Prop := Pending Op.powersOn Op.powersOff h

/-- The report of the backup was read, and says ok. -/
def BackedUp (h : Past) : Prop :=
  Happened (fun e => ∃ manifests path data, e = ⟨.readReport (.backup manifests) path, .ok data⟩ ∧
    reportOk data = .ok true) h

def RestoreStarted (h : Past) : Prop :=
  Happened (fun e => ∃ manifest backup log, e.op = .child (.restore manifest backup) log) h

/-- After the last flash, the report of the restoration was read, and says ok. -/
def Restored (h : Past) : Prop :=
  Since (fun _ e => ∃ manifest backup path data,
    e = ⟨.readReport (.restore manifest backup) path, .ok data⟩ ∧
    reportOk data = .ok true) Op.flashes h

def digestOf (name : String) : Event Op Op.Ans Raised → Option String
  | ⟨.sha256 (.run file), .ok digest⟩ => if file = name then some digest else none
  | _ => none

/-- The two reads of the peer have one digest. -/
def PeerBackedUp (h : Past) : Prop :=
  Since (fun before e => ∃ digest, e = ⟨.sha256 (.run "peer-backup-repeat.hex"), .ok digest⟩ ∧
    latest (digestOf "peer-backup.hex") before = some digest) (fun _ => False) h

def PeerProgrammed (h : Past) : Prop := Happened (fun e => e.op.programs) h

def PeerRead (h : Past) : Prop :=
  Since (fun _ e => ∃ serial family core address size log, ∃ out : Cli.Output,
    e = ⟨.runLogged (.read "peer-restored.hex" serial family core address size) log, .ok out⟩ ∧
    out.returncode = 0) Op.programs h

def PeerDigest (digest : String) (h : Past) : Prop :=
  Since (fun before e => e = ⟨.sha256 (.run "peer-restored.hex"), .ok digest⟩ ∧
    PeerRead before) Op.programs h

/-- After the last programming command the peer was read back, with the digest of the backup. -/
def PeerRestored (h : Past) : Prop :=
  Since (fun before e => ∃ digest, e = ⟨.sha256 (.run "peer-backup.hex"), .ok digest⟩ ∧
    PeerDigest digest before) Op.programs h

/-- No operation raised. -/
def Clean (h : Past) : Prop := ∀ e ∈ h, ∃ a, e.outcome = .ok a

/-- What status ok stands for. -/
structure Verified (w : Run) : Prop where
  clean : Clean w.history
  operation : w.locals.operationError = none
  target : BackedUp w.history → Restored w.history
  peer : PeerBackedUp w.history → PeerRestored w.history

/-- A restoration is attempted where its command is started, or what kept it from that is in
the report. -/
structure Recovered (w : Run) : Prop where
  target : BackedUp w.history → RestoreStarted w.history ∨ w.locals.report.restoreError.isSome
  peer : PeerBackedUp w.history → PeerProgrammed w.history ∨ w.locals.report.peerRestoreError.isSome
  output : ¬ OutputOn w.history
  verified : ∀ r, runJson w.history = some r → r.status = "ok" → Verified w

/-! ## What may not raise -/

/-- The power-on of a profile, with the flag not set yet. -/
def OnRaised (h : Past) : Prop :=
  Happened (fun e => e.op = .power .profile true ∧ ∃ x, e.outcome = .error x) h

/-- The power-off of the cleanup, which leaves the flag set. -/
def OffRaised (h : Past) : Prop :=
  Happened (fun e => e.op = .power .cleanup false ∧ ∃ x, e.outcome = .error x) h

def Fatal (before : Past) (op : Op) (e : Raised) : Prop :=
  match op with
  | .power .setup true => True
  | .power .restore true => ¬ OffRaised before
  -- what comes before the power-off of the restoration, which then has to make up for it
  | .selectInstrument _ | .openInstrument _ => OnRaised before
  | .lock _ operation => operation = "blu939-suite-restore" ∧ OnRaised before
  | .poll .cleanup | .killpg _ | .closeStream .cleanup | .unlink .cleanup _ => True
  | .wait .cleanup timeout => timeout = none ∨ e.name ≠ "TimeoutExpired"
  | .closeInstrument .cleanup => BackedUp before
  | .closeInstrument .restore => PeerBackedUp before
  | .generateReport | .print => True
  | .atomicJson _ => ∃ r, runJson before = some r ∧ r.status = "ok"
  | _ => False

/-- Nothing fatal raised. -/
def Sound (h : Past) : Prop :=
  ∀ before op e after, h = before ++ ⟨op, .error e⟩ :: after → ¬ Fatal before op e

section
variable {h : Past} {op : Op} {outcome : Except Raised op.Ans}

theorem Sound.before (hsound : Sound (h ++ [⟨op, outcome⟩])) : Sound h := by
  intro before op' e after heq
  exact hsound before op' e (after ++ [⟨op, outcome⟩]) (by rw [heq]; simp)

theorem Sound.last {e : Raised} (hsound : Sound (h ++ [⟨op, .error e⟩])) : ¬ Fatal h op e :=
  hsound h op e [] rfl

theorem runJson_concat (h : Past) (e : Event Op Op.Ans Raised) :
    runJson (h ++ [e]) = (written e).or (runJson h) :=
  latest_concat written

theorem clean_concat {a : op.Ans} (hclean : Clean h) : Clean (h ++ [⟨op, .ok a⟩]) := by
  intro e he
  rcases List.mem_append.mp he with hold | hlast
  · exact hclean e hold
  · rw [List.mem_singleton.mp hlast]
    exact ⟨a, rfl⟩

theorem Clean.not_offRaised (hclean : Clean h) : ¬ OffRaised h := by
  intro ⟨e, he, _, x, hx⟩
  obtain ⟨a, ha⟩ := hclean e he
  rw [ha] at hx
  cases hx

/-- Operations that write run.json. -/
def Op.writes : Op → Bool
  | newRun | atomicJson _ => true
  | _ => false

/-- Operations that make a backup known. -/
def Op.backs : Op → Bool
  | readReport (.backup _) _ => true
  | sha256 file => file = .run "peer-backup-repeat.hex"
  | _ => false

def Op.switches : Op → Bool
  | power _ _ => true
  | _ => false

/-- Operations that change a target. -/
def Op.changes : Op → Bool
  | child (.flash _) _ | runLogged (.program _ _ _ _) _ => true
  | _ => false

/-- All others. -/
def Op.plain (op : Op) : Bool := ¬ op.writes ∧ ¬ op.backs ∧ ¬ op.switches ∧ ¬ op.changes

theorem plain_iff : op.plain = true ↔ op.writes = false ∧ op.backs = false ∧ op.switches = false ∧
    op.changes = false := by
  simp [Op.plain]

theorem not_flashes (hop : op.changes = false) : ¬ op.flashes := by
  intro ⟨manifest, log, heq⟩
  rw [heq] at hop
  cases hop

theorem not_programs (hop : op.changes = false) : ¬ op.programs := by
  intro ⟨image, serial, family, core, log, heq⟩
  rw [heq] at hop
  cases hop

theorem runJson_kept (hop : op.writes = false) : runJson (h ++ [⟨op, outcome⟩]) = runJson h := by
  rw [runJson_concat]
  cases op <;> cases outcome <;> first | rfl | cases hop

theorem outputOn_kept (hop : op.switches = false) :
    OutputOn (h ++ [⟨op, outcome⟩]) ↔ OutputOn h := by
  have hon : ¬ op.powersOn := by
    intro ⟨phase, heq⟩
    rw [heq] at hop
    cases hop
  have hoff : ¬ op.powersOff := by
    intro ⟨phase, heq⟩
    rw [heq] at hop
    cases hop
  simp [OutputOn, pending_concat, hon, hoff]

theorem outputOn_off {phase : Phase} {outcome : Except Raised Unit} :
    ¬ OutputOn (h ++ [⟨.power phase false, outcome⟩]) := by
  intro hpending
  rcases pending_concat.mp hpending with ⟨phase', heq⟩ | ⟨_, hoff⟩
  · cases heq
  · exact hoff ⟨phase, rfl⟩

theorem backedUp_kept (hop : op.backs = false) : BackedUp (h ++ [⟨op, outcome⟩]) ↔ BackedUp h := by
  refine ⟨fun hnew => ?_, happened_mono⟩
  rcases happened_concat.mp hnew with hold | ⟨manifests, path, data, heq, _⟩
  · exact hold
  · cases heq
    cases hop

theorem peerBackedUp_kept (hop : op.backs = false) :
    PeerBackedUp (h ++ [⟨op, outcome⟩]) ↔ PeerBackedUp h := by
  refine ⟨fun hnew => ?_, fun hold => since_concat.mpr (Or.inr ⟨hold, id⟩)⟩
  rcases since_concat.mp hnew with ⟨digest, heq, _⟩ | ⟨hold, _⟩
  · cases heq
    cases hop
  · exact hold

theorem offRaised_other (hop : op ≠ .power .cleanup false) :
    OffRaised (h ++ [⟨op, outcome⟩]) ↔ OffRaised h := by
  refine ⟨fun hnew => ?_, happened_mono⟩
  rcases happened_concat.mp hnew with hold | ⟨heq, _⟩
  · exact hold
  · exact absurd heq hop

theorem offRaised_kept (hop : op.switches = false) :
    OffRaised (h ++ [⟨op, outcome⟩]) ↔ OffRaised h := by
  apply offRaised_other
  intro heq
  rw [heq] at hop
  cases hop

end

/-! ## Steps of a run where nothing fatal raised -/

/-- `I`, where nothing fatal raised. -/
def Spared (I : Run → Prop) (w : Run) : Prop := Sound w.history → I w

/-- Started where `P` holds the program returns with `Q` or raises with `E`, but for what is
fatal. -/
abbrev Does {α : Type} (env : Env Op Op.Ans Raised) (P : Run → Prop) (m : Session α)
    (Q : α → Run → Prop) (E : Run → Prop) : Prop :=
  Triple env (Spared P) m (fun a => Spared (Q a)) fun _ => Spared E

section
variable {α β : Type} {env : Env Op Op.Ans Raised} {P P' I E E' : Run → Prop}
    {Q Q' : α → Run → Prop}

theorem does_mono {m : Session α} (h : Does env P m Q E) (hP : ∀ w, P' w → P w)
    (hQ : ∀ a w, Q a w → Q' a w) (hE : ∀ w, E w → E' w) : Does env P' m Q' E' :=
  triple_mono h (fun w hw hsound => hP w (hw hsound)) (fun a w hw hsound => hQ a w (hw hsound))
    fun _ w hw hsound => hE w (hw hsound)

theorem does_pure {a : α} (h : ∀ w, P w → Q a w) : Does env P (pure a : Session α) Q E :=
  triple_pure fun w hw hsound => h w (hw hsound)

theorem does_raise {e : Raised} (h : ∀ w, P w → E w) : Does env P (raise e : Session α) Q E :=
  triple_raise fun w hw hsound => h w (hw hsound)

/-- What a raise leaves out. -/
theorem does_raise_bind {e : Raised} {f : β → Session α} (h : ∀ w, P w → E w) :
    Does env P ((raise e : Session β) >>= f) Q E :=
  triple_bind (fun _ _ => False) (triple_raise fun w hw hsound => h w (hw hsound))
    fun _ _ hw => hw.elim

theorem does_lift_bind {b : β} {f : β → Session α} (h : Does env P (f b) Q E) :
    Does env P (lift (.ok b) >>= f) Q E := h

theorem does_locals {f : Locals → α} (h : ∀ w, P w → Q (f w.locals) w) :
    Does env P (Prog.locals f : Session α) Q E :=
  triple_locals fun w hw hsound => h w (hw hsound)

/-- An assignment does not raise. -/
theorem does_assign {f : Locals → Locals} {Q : Unit → Run → Prop} {F : Raised → Run → Prop}
    (h : ∀ w, P w → Q () { w with locals := f w.locals }) :
    Triple env (Spared P) (assign f) (fun a => Spared (Q a)) F :=
  triple_assign fun w hw hsound => h w (hw hsound)

theorem does_ask {op : Op} {Q : op.Ans → Run → Prop}
    (h : ∀ w a, P w → Q a { w with history := w.history ++ [⟨op, .ok a⟩] })
    (h' : ∀ w e, ¬ Fatal w.history op e → P w → E { w with
      history := w.history ++ [⟨op, .error e⟩] }) :
    Does env P (ask op) Q E :=
  triple_perform (fun w a hw hsound => h w a (hw hsound.before)) fun w e hw hsound =>
    h' w e hsound.last (hw hsound.before)

theorem does_lift {m : Except Raised α} (h : ∀ w, P w → E w)
    (hQ : ∀ a w, m = .ok a → P w → Q a w) : Does env P (lift m) Q E := by
  cases m with
  | ok a => exact does_pure fun w hw => hQ a w rfl hw
  | error e => exact does_raise h

/-- A handler that only raises something else. -/
theorem does_reraise {m : Session α} {handler : Raised → Session α}
    (h : Triple env P m Q fun _ => Spared E) (hhandler : ∀ e, ∃ e', handler e = raise e') :
    Triple env P (withExcept m handler) Q fun _ => Spared E := by
  apply triple_except (fun _ => Spared E) h
  intro e
  obtain ⟨e', he⟩ := hhandler e
  rw [he]
  exact triple_raise fun _ hw => hw

/-- `E` outlives the plain operations. -/
def Kept (E : Run → Prop) : Prop :=
  ∀ (w : Run) (op : Op) (outcome : Except Raised op.Ans), op.plain = true → E w → E { w with
    history := w.history ++ [⟨op, outcome⟩] }

/-- Plain operations keep `I` where they return, and leave `E` where they raise. -/
structure Steady (I E : Run → Prop) : Prop where
  ok : ∀ (w : Run) (op : Op) (a : op.Ans), op.plain = true → I w → I { w with
    history := w.history ++ [⟨op, .ok a⟩] }
  failing : ∀ w, I w → E w
  kept : Kept E

/-- Facts about the variables alone come along. -/
theorem Steady.also (hI : Steady I E) (C : Locals → Prop) : Steady (fun w => I w ∧ C w.locals) E :=
  ⟨fun w op a hop hw => ⟨hI.ok w op a hop hw.1, hw.2⟩, fun w hw => hI.failing w hw.1, hI.kept⟩

theorem steady_ask {op : Op} (hI : Steady I E) (hop : op.plain = true) :
    Does env I (ask op) (fun _ => I) E :=
  does_ask (fun w a hw => hI.ok w op a hop hw) fun w _ _ hw => hI.kept w op _ hop (hI.failing w hw)

theorem steady_lift {m : Except Raised α} (hI : Steady I E) : Does env I (lift m) (fun _ => I) E :=
  does_lift hI.failing fun _ _ _ hw => hw

/-- A check, before the rest. -/
theorem steady_check {condition : Bool} {e : Raised} {m : Session α} (hI : Steady I E)
    (hm : condition = false → Triple env (Spared I) m Q fun _ => Spared E) :
    Triple env (Spared I) (when condition (raise e) >>= fun _ => m) Q fun _ => Spared E := by
  cases condition with
  | true => exact triple_bind (fun _ _ => False) (triple_raise fun w hw hsound =>
    hI.failing w (hw hsound)) fun _ _ hw => hw.elim
  | false => exact hm rfl

theorem does_withLock {name operation : String} {body : Session α}
    (hlock : Does env P (ask (.lock name operation)) (fun _ => P) E)
    (hQ : ∀ a, Steady (Q a) E) (hE : Kept E) (hbody : Does env P body Q E) :
    Does env P (withLock name operation body) Q E := by
  refine triple_bind (fun _ => Spared P) hlock fun _ => ?_
  apply triple_finally (fun a => Spared (Q a)) (fun _ => Spared E) hbody
  · exact fun a => steady_ask (hQ a) rfl
  · exact fun e => does_ask (fun w _ hw => hE w _ _ rfl hw) fun w _ _ hw => hE w _ _ rfl hw

theorem runChild_does {child : Child} {log : String} {J : String → Run → Prop} (hI : Steady I E)
    (hchild : ∀ w a, P w → I { w with history := w.history ++ [⟨.child child log, .ok a⟩] })
    (hraised : ∀ w e, P w → E { w with history := w.history ++ [⟨.child child log, .error e⟩] })
    (hgood : ∀ w path data, reportOk data = .ok true → I w → J path { w with
      history := w.history ++ [⟨.readReport child path, .ok data⟩] })
    (hbad : ∀ w path data, reportOk data ≠ .ok true → I w → E { w with
      history := w.history ++ [⟨.readReport child path, .ok data⟩] })
    (hread : ∀ w path e, I w → E { w with
      history := w.history ++ [⟨.readReport child path, .error e⟩] }) :
    Does env P (runChild child log) J E := by
  refine triple_bind (fun _ => Spared I) (does_ask hchild fun w e _ hw => hraised w e hw)
    fun result => ?_
  refine steady_check hI fun _ => ?_
  cases reportLines result.lines with
  | nil => exact does_raise hI.failing
  | cons line rest =>
    cases rest with
    | cons _ _ => exact does_raise hI.failing
    | nil =>
      refine triple_bind (fun _ => Spared I) (steady_ask hI rfl) fun path => ?_
      refine triple_bind (fun data => Spared fun w => (reportOk data = .ok true → J path w) ∧
        (reportOk data ≠ .ok true → E w)) ?_ fun data => ?_
      · apply does_reraise
        · apply does_ask
          · exact fun w data hw =>
              ⟨fun hgood' => hgood w path data hgood' hw, fun hbad' => hbad w path data hbad' hw⟩
          · exact fun w e _ hw => hread w path e hw
        · intro e
          split
          · exact ⟨_, rfl⟩
          · exact ⟨_, rfl⟩
      · cases hdata : reportOk data with
        | error e => exact does_raise_bind fun w hw => hw.2 nofun
        | ok good =>
          cases good with
          | true => exact does_lift_bind (does_pure fun w hw => hw.1 rfl)
          | false => exact does_lift_bind (does_raise_bind fun w hw => hw.2 nofun)

/-- A child whose report is no backup. -/
theorem runChild_steady {child : Child} {log : String} (hI : Steady I E)
    (hread : ∀ path, (Op.readReport child path).plain = true)
    (hok : ∀ w a, I w → I { w with history := w.history ++ [⟨.child child log, .ok a⟩] })
    (hraised : ∀ w e, I w → E { w with history := w.history ++ [⟨.child child log, .error e⟩] }) :
    Does env I (runChild child log) (fun _ => I) E :=
  runChild_does hI hok hraised (fun w path _ _ hw => hI.ok w _ _ (hread path) hw)
    (fun w path _ _ hw => hI.kept w _ _ (hread path) (hI.failing w hw)) fun w path _ hw =>
      hI.kept w _ _ (hread path) (hI.failing w hw)

end

/-! ## The acquisition -/

/-- What the variables keep of the backups, and a report without ok. -/
structure Known (w : Run) : Prop where
  status : w.locals.report.status ≠ "ok"
  json : ∀ r, runJson w.history = some r → r.status ≠ "ok"
  backup : BackedUp w.history ↔ w.locals.backupReport.isSome
  peer : PeerBackedUp w.history → BackedUp w.history ∧ w.locals.peerBackup.isSome ∧
    w.locals.peerBackupManifest.isSome ∧ w.locals.peerSerial.isSome ∧ w.locals.peerSpan.isSome
  path : ∀ path, w.locals.peerBackup = some path → path = "peer-backup.hex"

/-- Nothing has raised. -/
structure Acquiring (w : Run) : Prop extends Known w where
  on : OutputOn w.history → w.locals.outputOn = true
  held : w.locals.outputOn = true → w.locals.instrument = true
  clean : Clean w.history
  operation : w.locals.operationError = none
  restored : w.locals.restoreError = none
  peerRestored : w.locals.peerRestoreError = none

/-- Something has raised. -/
structure Halted (w : Run) : Prop extends Known w where
  on : OutputOn w.history → w.locals.outputOn = true ∨
    (OnRaised w.history ∧ w.locals.backupReport.isSome)
  held : w.locals.outputOn = true → w.locals.instrument = true
  off : ¬ OffRaised w.history
  restored : w.locals.restoreError = none
  peerRestored : w.locals.peerRestoreError = none

theorem Known.concat {w : Run} {op : Op} {outcome : Except Raised op.Ans}
    (h : Known w) (hwrites : op.writes = false)
    (hbackup : BackedUp (w.history ++ [⟨op, outcome⟩]) ↔ BackedUp w.history)
    (hpeer : PeerBackedUp (w.history ++ [⟨op, outcome⟩]) → PeerBackedUp w.history) :
    Known { w with history := w.history ++ [⟨op, outcome⟩] } := by
  refine { h with json := ?_, backup := hbackup.trans h.backup, peer := ?_ }
  · intro r hr
    exact h.json r (by rwa [runJson_kept hwrites] at hr)
  · intro hnew
    obtain ⟨hold, hrest⟩ := h.peer (hpeer hnew)
    exact ⟨hbackup.mpr hold, hrest⟩

theorem Known.kept {w : Run} {op : Op} {outcome : Except Raised op.Ans}
    (h : Known w) (hwrites : op.writes = false)
    (hbacks : op.backs = false) : Known { w with history := w.history ++ [⟨op, outcome⟩] } :=
  h.concat hwrites (backedUp_kept hbacks) (peerBackedUp_kept hbacks).mp

theorem Halted.concat {w : Run} {op : Op} {outcome : Except Raised op.Ans}
    (h : Halted w) (hwrites : op.writes = false) (hswitches : op.switches = false)
    (hbackup : BackedUp (w.history ++ [⟨op, outcome⟩]) ↔ BackedUp w.history)
    (hpeer : PeerBackedUp (w.history ++ [⟨op, outcome⟩]) → PeerBackedUp w.history) :
    Halted { w with history := w.history ++ [⟨op, outcome⟩] } := by
  refine { h with toKnown := h.toKnown.concat hwrites hbackup hpeer, on := ?_, off := ?_ }
  · intro hon
    rcases h.on ((outputOn_kept hswitches).mp hon) with hflag | ⟨hraised, hbackup⟩
    · exact Or.inl hflag
    · exact Or.inr ⟨happened_mono hraised, hbackup⟩
  · exact fun hoff => h.off ((offRaised_kept hswitches).mp hoff)

theorem Halted.kept : Kept Halted := by
  intro w op outcome hop h
  obtain ⟨hwrites, hbacks, hswitches, _⟩ := plain_iff.mp hop
  exact h.concat hwrites hswitches (backedUp_kept hbacks) (peerBackedUp_kept hbacks).mp

theorem Acquiring.halted {w : Run} (h : Acquiring w) : Halted w :=
  { h with on := fun hon => Or.inl (h.on hon), off := h.clean.not_offRaised }

theorem acquiring_steady : Steady Acquiring Halted where
  ok _ _ _ hop h :=
    have hplain := plain_iff.mp hop
    { h with
      toKnown := h.toKnown.kept hplain.1 hplain.2.1
      on := fun hon => h.on ((outputOn_kept hplain.2.2.1).mp hon)
      clean := clean_concat h.clean }
  failing _ h := h.halted
  kept := Halted.kept

/-- Nothing has raised, and the variables are as `C` says. -/
def Under (C : Locals → Prop) (w : Run) : Prop := Acquiring w ∧ C w.locals

theorem under_steady (C : Locals → Prop) : Steady (Under C) Halted := acquiring_steady.also C

/-- Nothing is known of a backup of the peer yet. -/
structure Setting (w : Run) : Prop extends Acquiring w where
  fresh : ¬ PeerBackedUp w.history

theorem setting_steady : Steady Setting Halted where
  ok w op a hop h := { h with
    toAcquiring := acquiring_steady.ok w op a hop h.toAcquiring
    fresh := fun hnew => h.fresh ((peerBackedUp_kept (plain_iff.mp hop).2.1).mp hnew) }
  failing _ h := h.toAcquiring.halted
  kept := Halted.kept

/-- No peer is left running. -/
def Idle (s : Locals) : Prop := s.peerProcess = false ∧ s.peerStream = false ∧ s.peerReady = none

section
variable {α : Type} {env : Env Op Op.Ans Raised} {I E : Run → Prop} {C C' : Locals → Prop}

theorem asToolError_does {body : Session α} {P : Run → Prop} {Q : α → Run → Prop}
    (h : Triple env P body Q fun _ => Spared E) :
    Triple env P (asToolError body) Q fun _ => Spared E := by
  apply does_reraise h
  intro e
  split
  · exact ⟨_, rfl⟩
  · exact ⟨_, rfl⟩

theorem profiles_steady (hI : Steady I E) (names values : List String) :
    Triple env (Spared I) (profilesFrom names values) (fun found w => Spared I w ∧
      found.length = values.length) (fun _ => Spared E) := by
  induction values generalizing names with
  | nil => exact triple_pure fun _ hw => ⟨hw, rfl⟩
  | cons value rest ih =>
    refine triple_bind (fun _ => Spared I) (steady_lift hI) fun entry => ?_
    refine triple_bind (fun _ => Spared I) (steady_ask hI rfl) fun path => ?_
    refine triple_bind (fun found w => Spared I w ∧ found.length = rest.length) (ih _)
      fun others => ?_
    exact triple_pure fun _ hw => ⟨hw.1, congrArg Nat.succ hw.2⟩

theorem loadAll_steady (hI : Steady I E) (entries : List (String × String)) :
    Does env I (loadAll entries) (fun _ => I) E := by
  induction entries with
  | nil => exact does_pure fun _ hw => hw
  | cons entry rest ih =>
    refine triple_bind (fun _ => Spared I) (steady_ask hI rfl) fun manifest => ?_
    exact triple_bind (fun _ => Spared I) ih fun _ => does_pure fun _ hw => hw

theorem loadProfiles_steady (hI : Steady I E) (entries : List (String × String)) :
    Triple env (Spared I) (loadProfiles entries) (fun found w => Spared I w ∧
      found.length = entries.length) (fun _ => Spared E) := by
  induction entries with
  | nil => exact triple_pure fun _ hw => ⟨hw, rfl⟩
  | cons entry rest ih =>
    refine triple_bind (fun _ => Spared I) (steady_ask hI rfl) fun manifest => ?_
    refine triple_bind (fun _ => Spared I) (steady_lift hI) fun wrong => ?_
    refine steady_check hI fun _ => ?_
    refine triple_bind (fun found w => Spared I w ∧ found.length = rest.length) ih fun others => ?_
    exact triple_pure fun _ hw => ⟨hw.1, congrArg Nat.succ hw.2⟩

theorem hashAll_steady (hI : Steady I E) (entries : List (String × String)) :
    Does env I (hashAll entries) (fun _ => I) E := by
  induction entries with
  | nil => exact does_pure fun _ hw => hw
  | cons entry rest ih => exact triple_bind (fun _ => Spared I) (steady_ask hI rfl) fun _ => ih

theorem common_steady (hI : Steady I E) (args : Args) :
    Does env I (common args) (fun _ => I) E := by
  refine triple_bind (fun _ => Spared I) (steady_ask hI rfl) fun _ => ?_
  exact triple_bind (fun _ => Spared I) (steady_ask hI rfl) fun _ => does_pure fun _ hw => hw

end

/-! ## Writes and switches of the acquisition -/

theorem runJson_report {h : Past} {r r' : Report} {outcome : Except Raised Unit}
    (hr : runJson (h ++ [⟨.atomicJson r, outcome⟩]) = some r') : r' = r ∨ runJson h = some r' := by
  rw [runJson_concat] at hr
  cases outcome with
  | ok u =>
    cases hr
    exact Or.inl rfl
  | error e => exact Or.inr hr

theorem Known.written {w : Run} (h : Known w) (outcome : Except Raised Unit) :
    Known { w with history := w.history ++ [⟨.atomicJson w.locals.report, outcome⟩] } := by
  refine { h with json := ?_, backup := ?_, peer := ?_ }
  · intro r hr
    rcases runJson_report hr with rfl | hold
    · exact h.status
    · exact h.json r hold
  · exact (backedUp_kept rfl).trans h.backup
  · intro hpeer
    obtain ⟨hbackup, hrest⟩ := h.peer ((peerBackedUp_kept rfl).mp hpeer)
    exact ⟨(backedUp_kept rfl).mpr hbackup, hrest⟩

theorem Halted.written {w : Run} (h : Halted w) (outcome : Except Raised Unit) :
    Halted { w with history := w.history ++ [⟨.atomicJson w.locals.report, outcome⟩] } := by
  refine { h with toKnown := h.toKnown.written outcome, on := ?_, off := ?_ }
  · intro hon
    rcases h.on ((outputOn_kept rfl).mp hon) with hflag | ⟨hraised, hbackup⟩
    · exact Or.inl hflag
    · exact Or.inr ⟨happened_mono hraised, hbackup⟩
  · exact fun hoff => h.off ((offRaised_kept rfl).mp hoff)

theorem Acquiring.written {w : Run} (h : Acquiring w) :
    Acquiring { w with history := w.history ++ [⟨.atomicJson w.locals.report, .ok ()⟩] } :=
  { h with
    toKnown := h.toKnown.written (.ok ())
    on := fun hon => h.on ((outputOn_kept rfl).mp hon)
    clean := clean_concat h.clean }

section
variable {env : Env Op Op.Ans Raised} {P Q E : Run → Prop} {C C' : Locals → Prop}

theorem saveReport_does (hok : ∀ w, P w → Q { w with
      history := w.history ++ [⟨.atomicJson w.locals.report, .ok ()⟩] })
    (hraised : ∀ w e, ¬ Fatal w.history (.atomicJson w.locals.report) e → P w →
      E { w with history := w.history ++ [⟨.atomicJson w.locals.report, .error e⟩] }) :
    Does env P saveReport (fun _ => Q) E := by
  refine triple_bind (fun r => Spared fun w => P w ∧ r = w.locals.report) (does_locals
    fun w hw => ⟨hw, rfl⟩) fun r => ?_
  apply does_ask
  · intro w _ hw
    obtain ⟨hw, rfl⟩ := hw
    exact hok w hw
  · intro w e hfatal hw
    obtain ⟨hw, rfl⟩ := hw
    exact hraised w e hfatal hw

theorem under_save : Does env (Under C) saveReport (fun _ => Under C) Halted :=
  saveReport_does (fun _ hw => ⟨hw.1.written, hw.2⟩) fun _ _ _ hw => hw.1.halted.written _

theorem under_assign {f : Locals → Locals}
    (hf : ∀ w, Acquiring w → C w.locals → Acquiring { w with locals := f w.locals })
    (hC : ∀ s, C s → C' (f s)) : Does env (Under C) (assign f) (fun _ => Under C') Halted :=
  does_assign fun w hw => ⟨hf w hw.1 hw.2, hC w.locals hw.2⟩

/-- After a power-off that was attempted the output is off. -/
theorem halted_off {w : Run} (h : Halted w) {phase : Phase} (hphase : phase ≠ .cleanup)
    (outcome : Except Raised Unit) :
    Halted { w with history := w.history ++ [⟨.power phase false, outcome⟩] } :=
  { h with
    toKnown := h.toKnown.kept rfl rfl
    on := fun hon => absurd hon outputOn_off
    off := fun hoff => h.off ((offRaised_other (by simpa using hphase)).mp hoff) }

theorem under_off {phase : Phase} (hphase : phase ≠ .cleanup) :
    Does env (Under C) (ask (.power phase false)) (fun _ w => Under C w ∧
      ¬ OutputOn w.history) Halted := by
  apply does_ask
  · intro w _ hw
    refine ⟨⟨{ hw.1 with
      toKnown := hw.1.toKnown.kept rfl rfl, on := ?_, clean := clean_concat hw.1.clean },
      hw.2⟩, outputOn_off⟩
    exact fun hon => absurd hon outputOn_off
  · exact fun w e _ hw => halted_off hw.1.halted hphase _

theorem under_turnOff {phase : Phase} (hphase : phase ≠ .cleanup)
    (hC : ∀ s, C s → C' { s with outputOn := false }) :
    Does env (Under C) (turnOff phase) (fun _ => Under C') Halted := by
  refine triple_bind (fun _ => Spared fun w => Under C w ∧ ¬ OutputOn w.history)
    (under_off hphase) fun _ => ?_
  exact does_assign fun w hw =>
    ⟨{ hw.1.1 with on := fun hon => absurd hon hw.2, held := nofun }, hC _ hw.1.2⟩

theorem under_turnOn {phase : Phase} (hheld : ∀ s, C s → s.instrument = true)
    (hC : ∀ s, C s → C' { s with outputOn := true })
    (hraised : ∀ w e, ¬ Fatal w.history (.power phase true) e → Under C w →
      w.locals.outputOn = true ∨
      (OnRaised (w.history ++ [⟨.power phase true, .error e⟩]) ∧ w.locals.backupReport.isSome)) :
    Does env (Under C) (turnOn phase) (fun _ => Under C') Halted := by
  refine triple_bind (fun _ => Spared fun w => Acquiring { w with
    locals := { w.locals with outputOn := true } } ∧ C w.locals) ?_ fun _ => ?_
  · apply does_ask
    · intro w _ hw
      refine ⟨{ hw.1 with
        toKnown := ?_, on := fun _ => rfl, held := fun _ => hheld w.locals hw.2,
        clean := clean_concat hw.1.clean }, hw.2⟩
      exact { hw.1.toKnown.kept rfl rfl with }
    · intro w e hfatal hw
      refine { hw.1.halted with
        toKnown := hw.1.toKnown.kept rfl rfl, on := fun _ => hraised w e hfatal hw, off := ?_ }
      exact fun hoff => hw.1.halted.off ((offRaised_other (by nofun)).mp hoff)
  · exact does_assign fun w hw => ⟨hw.1, hC _ hw.2⟩

end

/-! ## The parts of the acquisition -/

section
variable {env : Env Op Op.Ans Raised} {C : Locals → Prop}

theorem plan_does (float : String → Option Extended) (args : Args) :
    Triple env (Spared fun w => Setting w ∧ Idle w.locals) (plan float args)
      (fun plan w => Spared (fun w => Setting w ∧ Idle w.locals) w ∧
        plan.profiles.zip plan.manifests ≠ []) fun _ => Spared Halted := by
  have hI : Steady (fun w => Setting w ∧ Idle w.locals) Halted := setting_steady.also Idle
  refine triple_bind _ (asToolError_does (profiles_steady hI [] args.profile)) fun found =>
    triple_fact fun hfound => ?_
  refine steady_check hI fun _ => ?_
  refine steady_check hI fun _ => ?_
  refine steady_check hI fun _ => ?_
  refine steady_check hI fun _ => ?_
  refine triple_bind (fun _ => Spared _) (asToolError_does (steady_lift hI)) fun durations => ?_
  refine triple_bind _ (asToolError_does (profiles_steady hI [] args.peer)) fun peers =>
    triple_fact fun _ => ?_
  refine steady_check hI fun _ => ?_
  refine steady_check hI fun _ => ?_
  refine triple_bind (fun _ => Spared _) (loadAll_steady hI peers) fun peerManifests => ?_
  refine triple_bind (fun _ => Spared _) (steady_lift hI) fun wrong => ?_
  refine steady_check hI fun _ => ?_
  refine triple_bind _ (loadProfiles_steady hI found) fun manifests =>
    triple_fact fun hmanifests => ?_
  refine triple_bind (fun _ => Spared _) (hashAll_steady hI found) fun _ => ?_
  refine triple_bind (fun _ => Spared fun w => Setting w ∧ Idle w.locals) ?_ fun _ => ?_
  · have hstatus : "running" ≠ "ok" := by decide
    exact does_assign fun _ hw => ⟨{ hw.1 with status := hstatus }, hw.2⟩
  refine triple_bind (fun _ => Spared fun w => Setting w ∧ Idle w.locals) ?_ fun _ => ?_
  · refine saveReport_does (fun w hw => ⟨?_, hw.2⟩) fun _ _ _ hw =>
      hw.1.toAcquiring.halted.written _
    exact { hw.1.toAcquiring.written with
      fresh := fun hnew => hw.1.fresh ((peerBackedUp_kept rfl).mp hnew) }
  · refine triple_pure fun _ hw => ⟨hw, fun hnone => args.required ?_⟩
    have hlength : (found.zip manifests).length = args.profile.length := by
      rw [List.length_zip, hmanifests, Nat.min_self, hfound]
    rw [hnone] at hlength
    exact List.length_eq_zero_iff.mp hlength.symm

/-- The instrument is open and the report of the backup is there. -/
def Working (s : Locals) : Prop := s.instrument = true ∧ s.backupReport.isSome = true

theorem backedUp_good {h : Past} {manifests : List String} {path : String} {data : Value}
    (hgood : reportOk data = .ok true) :
    BackedUp (h ++ [⟨.readReport (.backup manifests) path, .ok data⟩]) :=
  happened_concat.mpr (Or.inr ⟨manifests, path, data, rfl, hgood⟩)

theorem peerBackedUp_read {h : Past} {child : Child} {path : String} {outcome : Except Raised Value}
    (hnew : PeerBackedUp (h ++ [⟨.readReport child path, outcome⟩])) : PeerBackedUp h := by
  rcases since_concat.mp hnew with ⟨digest, heq, _⟩ | ⟨hold, _⟩
  · cases heq
  · exact hold

/-- A report that could not be read, or does not say ok, makes no backup known. -/
theorem Halted.unread {w : Run} (h : Halted w) {child : Child} {path : String}
    {outcome : Except Raised Value} (hbad : ∀ data, outcome = .ok data → reportOk data ≠ .ok true) :
    Halted { w with history := w.history ++ [⟨.readReport child path, outcome⟩] } := by
  refine h.concat rfl rfl ⟨fun hnew => ?_, happened_mono⟩ peerBackedUp_read
  rcases happened_concat.mp hnew with hold | ⟨manifests, path', data, heq, hgood⟩
  · exact hold
  · cases heq
    exact absurd hgood (hbad data rfl)

/-- The backup of the target, up to its variable. -/
theorem backup_does (manifests : List String) :
    Does env (fun w => Setting w ∧ Idle w.locals ∧ w.locals.instrument = true)
      (runChild (.backup manifests) "backup.log")
      (fun backup w => Setting { w with locals := { w.locals with
          backupReport := some backup, report := { w.locals.report with
            backupReport := some backup } } } ∧
        Idle w.locals ∧ w.locals.instrument = true) Halted := by
  have hI : Steady (fun w => Setting w ∧ Idle w.locals ∧ w.locals.instrument = true) Halted :=
    setting_steady.also fun s => Idle s ∧ s.instrument = true
  apply runChild_does hI
  · exact fun w a hw => hI.ok w _ _ rfl hw
  · exact fun w e hw => hI.kept w _ _ rfl (hI.failing w hw)
  · intro w path data hgood hw
    refine ⟨?_, hw.2⟩
    refine { hw.1 with
      json := ?_, backup := ?_, peer := ?_, on := ?_,
      clean := clean_concat hw.1.clean, fresh := ?_ }
    · intro r hr
      exact hw.1.json r (by rwa [runJson_kept rfl] at hr)
    · exact ⟨fun _ => rfl, fun _ => backedUp_good hgood⟩
    · exact fun hnew => absurd (peerBackedUp_read hnew) hw.1.fresh
    · exact fun hon => hw.1.on ((outputOn_kept rfl).mp hon)
    · exact fun hnew => hw.1.fresh (peerBackedUp_read hnew)
  · intro w path data hbad hw
    exact hw.1.toAcquiring.halted.unread fun data' hdata => by
      cases hdata
      exact hbad
  · exact fun w path e hw => hw.1.toAcquiring.halted.unread nofun

theorem readPeer_steady {I E : Run → Prop} (hI : Steady I E) (manifest : Value)
    (serial output log : String) (span : Span) :
    Does env I (readPeer manifest serial output log span) (fun _ => I) E := by
  refine triple_bind (fun _ => Spared I) (steady_lift hI) fun target => ?_
  refine triple_bind (fun _ => Spared I) (steady_ask hI rfl) fun result => ?_
  cases hcode : decide (result.returncode ≠ 0) with
  | true => exact does_raise hI.failing
  | false => exact does_pure fun _ hw => hw

/-- What a peer needs to be restored is known, but for its backup. -/
def PeerKnown (s : Locals) : Prop :=
  s.peerBackupManifest.isSome ∧ s.peerSerial.isSome ∧ s.peerSpan.isSome

/-- The peer is about to be read, twice. -/
def Backing (w : Run) : Prop := (Setting w ∧ Idle w.locals ∧ Working w.locals) ∧ PeerKnown w.locals

theorem backing_steady : Steady Backing Halted :=
  (setting_steady.also fun s => Idle s ∧ Working s).also PeerKnown

/-- The second digest, up to the variable of the backup. -/
theorem Backing.known {w : Run} (h : Backing w) {digest : String} :
    Acquiring { w with
      locals := { w.locals with peerBackup := some "peer-backup.hex" }
      history := w.history ++ [⟨.sha256 (.run "peer-backup-repeat.hex"), .ok digest⟩] } := by
  obtain ⟨⟨hset, _, hworking⟩, hknown⟩ := h
  have hbackup : BackedUp (w.history ++ [⟨.sha256 (.run "peer-backup-repeat.hex"), .ok digest⟩]) ↔
      BackedUp w.history := by
    refine ⟨fun hnew => ?_, happened_mono⟩
    rcases happened_concat.mp hnew with hold | ⟨_, _, _, heq, _⟩
    · exact hold
    · cases heq
  refine { hset with
    json := ?_, backup := hbackup.trans hset.backup, peer := ?_, path := ?_, on := ?_,
    clean := clean_concat hset.clean }
  · intro r hr
    exact hset.json r (by rwa [runJson_kept rfl] at hr)
  · exact fun _ => ⟨hbackup.mpr (hset.backup.mpr hworking.2), rfl, hknown⟩
  · intro path hpath
    cases hpath
    rfl
  · exact fun hon => hset.on ((outputOn_kept rfl).mp hon)

/-- Without the same digest there is none. -/
theorem Backing.unknown {w : Run} (h : Backing w) {outcome : Except Raised String}
    (hother : ∀ digest, outcome = .ok digest →
      latest (digestOf "peer-backup.hex") w.history ≠ some digest) :
    Halted
      { w with history := w.history ++ [⟨.sha256 (.run "peer-backup-repeat.hex"), outcome⟩] } := by
  refine h.1.1.toAcquiring.halted.concat rfl rfl ⟨fun hnew => ?_, happened_mono⟩ fun hnew => ?_
  · rcases happened_concat.mp hnew with hold | ⟨_, _, _, heq, _⟩
    · exact hold
    · cases heq
  · rcases since_concat.mp hnew with ⟨digest, heq, hlatest⟩ | ⟨hold, _⟩
    · cases heq
      exact absurd hlatest (hother digest rfl)
    · exact hold

theorem backUpPeer_does (args : Args) (first : Value) (manifests : List Value) :
    Does env (fun w => Setting w ∧ Idle w.locals ∧ Working w.locals)
      (backUpPeer args first manifests)
      (fun _ w => Acquiring w ∧ Idle w.locals ∧ Working w.locals) Halted := by
  have hI : Steady (fun w => Setting w ∧ Idle w.locals ∧ Working w.locals) Halted :=
    setting_steady.also fun s => Idle s ∧ Working s
  refine triple_bind (fun _ => Spared fun w => Setting w ∧ Idle w.locals ∧ Working w.locals)
    (steady_ask hI rfl) fun serial => ?_
  refine triple_bind (fun _ => Spared fun w => (Setting w ∧ Idle w.locals ∧ Working w.locals) ∧
    w.locals.peerSerial = serial) ?_ fun _ => ?_
  · exact does_assign fun w hw =>
      ⟨⟨{ hw.1 with peer := fun hpeer => absurd hpeer hw.1.fresh }, hw.2⟩, rfl⟩
  cases serial with
  | none => exact does_raise fun w hw => hw.1.1.toAcquiring.halted
  | some serial =>
    refine triple_bind (fun _ => Spared fun w => (Setting w ∧ Idle w.locals ∧ Working w.locals) ∧
      w.locals.peerSerial = some serial ∧ w.locals.peerBackupManifest.isSome) ?_ fun _ => ?_
    · exact does_assign fun w hw =>
        ⟨⟨{ hw.1.1 with peer := fun hpeer => absurd hpeer hw.1.1.fresh }, hw.1.2⟩, hw.2, rfl⟩
    have hJ := hI.also fun s => s.peerSerial = some serial ∧ s.peerBackupManifest.isSome
    refine triple_bind (fun _ => Spared _) (steady_lift hJ) fun other => ?_
    refine steady_check hJ fun _ => ?_
    refine triple_bind (fun _ => Spared _) (steady_lift hJ) fun span => ?_
    refine triple_bind (fun _ => Spared Backing) ?_ fun _ => ?_
    · refine does_assign fun w hw => ⟨⟨{ hw.1.1 with
        peer := fun hpeer => absurd hpeer hw.1.1.fresh }, hw.1.2⟩, hw.2.2, ?_, rfl⟩
      exact Option.isSome_iff_exists.mpr ⟨serial, hw.2.1⟩
    refine triple_bind (fun _ => Spared Backing) ?_ fun _ => ?_
    · apply does_withLock (steady_ask backing_steady rfl) (fun _ => backing_steady) Halted.kept
      exact triple_bind (fun _ => Spared Backing)
        (readPeer_steady backing_steady _ _ _ _ _) fun _ =>
        readPeer_steady backing_steady _ _ _ _ _
    -- from here on the digests decide
    refine triple_bind (fun digest => Spared fun w => Backing w ∧
      latest (digestOf "peer-backup.hex") w.history = some digest) ?_
      fun digest => ?_
    · apply does_ask
      · intro w digest hw
        refine ⟨backing_steady.ok w _ _ rfl hw, ?_⟩
        rw [latest_concat]
        rfl
      · exact fun w e _ hw => Halted.kept w _ _ rfl (backing_steady.failing w hw)
    refine triple_bind (fun digest' => Spared fun w => (digest ≠ digest' → Halted w) ∧
      (digest = digest' → Acquiring { w with
        locals := { w.locals with peerBackup := some "peer-backup.hex" } } ∧
        Idle w.locals ∧ Working w.locals)) ?_ fun digest' => ?_
    · apply does_ask
      · intro w digest' hw
        refine ⟨fun hother => ?_, fun hsame => ?_⟩
        · refine hw.1.unknown fun digest'' hdigest hlatest => hother ?_
          cases hdigest
          exact Option.some.inj (hw.2.symm.trans hlatest)
        · subst hsame
          exact ⟨hw.1.known, hw.1.1.2⟩
      · exact fun w e _ hw => hw.1.unknown nofun
    have hL : Steady (fun w => Acquiring w ∧ Idle w.locals ∧ Working w.locals) Halted :=
      acquiring_steady.also fun s => Idle s ∧ Working s
    refine triple_bind (fun _ => Spared fun w => Acquiring { w with
      locals := { w.locals with peerBackup := some "peer-backup.hex" } } ∧
        Idle w.locals ∧ Working w.locals) ?_ fun _ => ?_
    · apply triple_when
      · exact fun hother => does_raise fun w hw => hw.1 (by simpa using hother)
      · exact fun hsame w hw hsound => (hw hsound).2 (by simpa using hsame)
    refine triple_bind (fun _ => Spared fun w => Acquiring w ∧ Idle w.locals ∧ Working w.locals)
      (does_assign fun _ hw => hw) fun _ => ?_
    refine triple_bind (fun _ => Spared _) (steady_ask hL rfl) fun _ => ?_
    refine triple_bind (fun _ => Spared _) (steady_ask hL rfl) fun _ => ?_
    refine triple_bind (fun _ => Spared _) (steady_ask hL rfl) fun _ => ?_
    exact does_assign fun _ hw => ⟨{ hw.1 with }, hw.2⟩

/-- Between the profiles. -/
def Ready (s : Locals) : Prop := Idle s ∧ Working s

theorem backUpPeers_does (args : Args) (manifests : List Value) :
    Does env (fun w => Setting w ∧ Idle w.locals ∧ Working w.locals) (backUpPeers args manifests)
      (fun _ => Under Ready) Halted := by
  cases manifests with
  | nil => exact does_pure fun _ hw => ⟨hw.1.toAcquiring, hw.2⟩
  | cons first rest => exact backUpPeer_does args first (first :: rest)

/-! ## One profile -/

/-- The output is on. -/
def Powered (s : Locals) : Prop := Working s ∧ s.outputOn = true

/-- A peer that is started is waited for before the profile ends. -/
def Attended (s : Locals) : Prop := Powered s ∧ (s.peerProcess = true ∨ Idle s)

/-- The output is off again. -/
def Measured (s : Locals) : Prop := Working s ∧ s.outputOn = false

theorem waitReady_steady {I E : Run → Prop} (hI : Steady I E) (name readyFile : String) (n : Nat) :
    Does env I (waitReady name readyFile n) (fun _ => I) E := by
  induction n with
  | zero =>
    refine triple_bind (fun _ => Spared I) (steady_ask hI rfl) fun ready => ?_
    cases ready with
    | true => exact does_pure fun _ hw => hw
    | false =>
      refine triple_bind (fun _ => Spared I) (steady_ask hI rfl) fun code => ?_
      exact steady_check hI fun _ => does_raise hI.failing
  | succ n ih =>
    refine triple_bind (fun _ => Spared I) (steady_ask hI rfl) fun ready => ?_
    cases ready with
    | true => exact does_pure fun _ hw => hw
    | false =>
      refine triple_bind (fun _ => Spared I) (steady_ask hI rfl) fun code => ?_
      refine steady_check hI fun _ => ?_
      exact triple_bind (fun _ => Spared I) (steady_ask hI rfl) fun _ => ih

theorem startPeer_does (name manifest directory : String) :
    Does env (Under Powered) (startPeer name manifest directory)
      (fun _ => Under Attended) Halted := by
  have hI : Steady (Under Powered) Halted := under_steady Powered
  have hJ : Steady (Under Attended) Halted := under_steady Attended
  refine triple_bind (fun _ => Spared (Under Powered))
    (under_assign (fun _ h _ => { h with }) fun _ hs => hs) fun _ => ?_
  refine triple_bind (fun _ => Spared (Under Powered)) (steady_ask hI rfl) fun _ => ?_
  refine triple_bind (fun _ => Spared (Under Powered))
    (under_assign (fun _ h _ => { h with }) fun _ hs => hs) fun _ => ?_
  refine triple_bind (fun _ => Spared (Under Powered)) (steady_ask hI rfl) fun _ => ?_
  refine triple_bind (fun _ => Spared (Under Attended))
    (under_assign (fun _ h _ => { h with }) fun _ hs => ⟨hs, Or.inl rfl⟩) fun _ => ?_
  exact triple_bind (fun _ => Spared (Under Attended)) (steady_ask hJ rfl) fun n =>
    waitReady_steady hJ _ _ n

theorem finishPeer_does (args : Args) (name directory : String) :
    Does env (Under Measured) (finishPeer args name directory) (fun _ => Under fun s => Measured s ∧
      Idle s) Halted := by
  have hI : Steady (Under Measured) Halted := under_steady Measured
  refine triple_bind (fun _ => Spared (Under Measured)) ?_ fun code => ?_
  · apply does_reraise (steady_ask hI rfl)
    intro e
    split
    · exact ⟨_, rfl⟩
    · exact ⟨_, rfl⟩
  refine triple_bind (fun _ => Spared (Under Measured)) (steady_ask hI rfl) fun _ => ?_
  have hJ : Steady (Under fun s => Measured s ∧ s.peerStream = false) Halted := under_steady _
  refine triple_bind (fun _ => Spared (Under fun s => Measured s ∧ s.peerStream = false))
    (under_assign (fun _ h _ => { h with }) fun _ hs => ⟨hs, rfl⟩) fun _ => ?_
  refine steady_check hJ fun _ => ?_
  refine triple_bind (fun _ => Spared (Under fun s => Measured s ∧ s.peerStream = false))
    (steady_ask hJ rfl) fun lines => ?_
  cases reportLines lines with
  | nil => exact does_raise hJ.failing
  | cons line rest =>
    cases rest with
    | cons _ _ => exact does_raise hJ.failing
    | nil =>
      refine triple_bind (fun _ => Spared (Under fun s => Measured s ∧ s.peerStream = false))
        (steady_ask hJ rfl) fun _ => ?_
      have hK : Steady (Under fun s => Measured s ∧ s.peerProcess = false ∧
          s.peerStream = false) Halted := under_steady _
      refine triple_bind (fun _ =>
        Spared (Under fun s => Measured s ∧ s.peerProcess = false ∧ s.peerStream = false))
        (under_assign (fun _ h _ => { h with }) fun _ hs => ⟨hs.1, rfl, hs.2⟩) fun _ => ?_
      refine triple_bind (fun _ =>
        Spared (Under fun s => Measured s ∧ s.peerProcess = false ∧ s.peerStream = false))
        (does_locals fun _ hw => hw) fun ready => ?_
      refine triple_bind (fun _ => Spared (Under fun s => Measured s ∧ s.peerProcess = false ∧
        s.peerStream = false)) ?_ fun _ => ?_
      · cases ready with
        | none => exact does_raise hK.failing
        | some path => exact steady_ask hK rfl
      exact under_assign (fun _ h _ => { h with }) fun _ hs => ⟨hs.1, hs.2.1, hs.2.2, rfl⟩

theorem observeProfile_steady {I E : Run → Prop} (hI : Steady I E) (args : Args)
    (name path directory : String) :
    Does env I (observeProfile args name path directory) (fun _ => I) E := by
  apply triple_when
  · intro _
    refine triple_bind (fun _ => Spared I) ?_ fun report => ?_
    · exact runChild_steady hI (fun _ => rfl) (fun w _ hw => hI.ok w _ _ rfl hw) fun w _ hw =>
        hI.kept w _ _ rfl (hI.failing w hw)
    refine triple_bind (fun _ => Spared I) (steady_ask hI rfl) fun transcript => ?_
    exact triple_bind (fun _ => Spared I) (steady_lift hI) fun values => steady_lift hI
  · exact fun _ _ hw => hw

theorem measure_does (args : Args) (duration : Extended) (directory : String) :
    Does env (Under Attended) (measure args duration directory)
      (fun _ => Under Attended) Halted := by
  have hI : Steady (Under Attended) Halted := under_steady Attended
  refine triple_bind (fun _ => Spared (Under Attended)) ?_ fun _ => ?_
  · exact does_mono (under_off nofun) (fun _ hw => hw) (fun _ _ hw => hw.1) fun _ hw => hw
  refine triple_bind (fun _ => Spared (Under Attended)) (steady_ask hI rfl) fun _ => ?_
  refine triple_bind (fun _ => Spared (Under Attended)) ?_ fun _ => ?_
  · apply under_turnOn (fun _ hs => hs.1.1.1) (fun _ hs => ⟨⟨hs.1.1, rfl⟩, hs.2⟩)
    exact fun w e _ hw => Or.inl hw.2.1.2
  refine triple_bind (fun _ => Spared (Under Attended))
    (triple_when (fun _ => steady_ask hI rfl) fun _ _ hw => hw) fun _ => ?_
  refine triple_bind (fun _ => Spared (Under Attended)) (steady_ask hI rfl) fun _ => ?_
  exact triple_bind (fun _ => Spared (Under Attended)) (steady_ask hI rfl) fun _ =>
    steady_ask hI rfl

/-- A flash is a plain operation to what the acquisition knows. -/
theorem flash_does (manifest log : String) :
    Does env (Under C) (runChild (.flash manifest) log) (fun _ => Under C) Halted := by
  apply runChild_steady (under_steady C) fun _ => rfl
  · intro w _ hw
    refine ⟨{ hw.1 with
      toKnown := hw.1.toKnown.kept rfl rfl, on := ?_, clean := clean_concat hw.1.clean }, hw.2⟩
    exact fun hon => hw.1.on ((outputOn_kept rfl).mp hon)
  · exact fun w e hw => hw.1.halted.concat rfl rfl (backedUp_kept rfl) (peerBackedUp_kept rfl).mp

theorem runProfile_does (args : Args) (plan : Plan) (index : Nat) (name path : String)
    (manifest : Value) :
    Does env (Under Ready) (runProfile args plan index name path manifest) (fun _ => Under fun s =>
      Ready s ∧ s.outputOn = false) Halted := by
  refine triple_bind (fun on => Spared (Under fun s => Ready s ∧ on = s.outputOn))
    (does_locals fun _ hw => ⟨hw.1, hw.2, rfl⟩) fun on => ?_
  refine triple_bind (fun _ => Spared (Under fun s => Powered s ∧ Idle s)) ?_ fun _ => ?_
  · apply triple_when
    · intro _
      refine under_turnOn (fun _ hs => hs.1.2.1) (fun _ hs => ⟨⟨hs.1.2, rfl⟩, hs.1.1⟩)
        fun w e _ hw => Or.inr ⟨?_, hw.2.1.2.2⟩
      -- a profile turns the output on with the flag not set yet
      exact happened_concat.mpr (Or.inr ⟨rfl, e, rfl⟩)
    · intro hon w hw hsound
      obtain ⟨hacquiring, hready, heq⟩ := hw hsound
      exact ⟨hacquiring, ⟨hready.2, by rw [← heq]; simpa using hon⟩, hready.1⟩
  have hI : Steady (Under fun s => Powered s ∧ Idle s) Halted := under_steady _
  refine triple_bind (fun _ => Spared (Under fun s => Powered s ∧ Idle s))
    (flash_does path _) fun _ => ?_
  refine triple_bind (fun _ => Spared (Under fun s => Powered s ∧ Idle s))
    (steady_ask hI rfl) fun _ => ?_
  refine triple_bind (fun _ => Spared (Under Attended)) ?_ fun _ => ?_
  · cases plan.peers.lookup name with
    | none => exact does_pure fun _ hw => ⟨hw.1, hw.2.1, Or.inr hw.2.2⟩
    | some peer =>
      exact does_mono (startPeer_does name peer _) (fun _ hw => ⟨hw.1, hw.2.1⟩) (fun _ _ hw => hw)
        fun _ hw => hw
  refine triple_bind (fun _ => Spared (Under Attended)) (measure_does args _ _) fun _ => ?_
  refine triple_bind (fun _ => Spared (Under Attended))
    (observeProfile_steady (under_steady Attended) args name path _) fun _ => ?_
  refine triple_bind (fun _ => Spared (Under fun s => Measured s ∧ (s.peerProcess = true ∨ Idle s)))
    (under_turnOff nofun fun _ hs => ⟨⟨hs.1.1, rfl⟩, hs.2⟩) fun _ => ?_
  refine triple_bind (fun process =>
    Spared (Under fun s => Measured s ∧ (process = false → Idle s))) ?_ fun process => ?_
  · refine does_locals fun w hw => ⟨hw.1, hw.2.1, fun hprocess => ?_⟩
    rcases hw.2.2 with htrue | hidle
    · exact absurd (hprocess.symm.trans htrue) (by decide)
    · exact hidle
  have hJ : Steady (Under fun s => Ready s ∧ s.outputOn = false) Halted := under_steady _
  refine triple_bind (fun _ => Spared (Under fun s => Ready s ∧ s.outputOn = false)) ?_ fun _ => ?_
  · apply triple_when
    · intro _
      refine does_mono (finishPeer_does args name _) (fun _ hw => ⟨hw.1, hw.2.1⟩) ?_ fun _ hw => hw
      exact fun _ _ hw => ⟨hw.1, ⟨hw.2.2, hw.2.1.1⟩, hw.2.1.2⟩
    · exact fun hprocess w hw hsound =>
        ⟨(hw hsound).1, ⟨(hw hsound).2.2 hprocess, (hw hsound).2.1.1⟩, (hw hsound).2.1.2⟩
  refine triple_bind (fun _ => Spared (Under fun s => Ready s ∧ s.outputOn = false))
    (steady_ask hJ rfl) fun _ => ?_
  refine triple_bind (fun _ => Spared (Under fun s => Ready s ∧ s.outputOn = false))
    (steady_lift hJ) fun _ => ?_
  refine triple_bind (fun _ => Spared (Under fun s => Ready s ∧ s.outputOn = false))
    (steady_ask hJ rfl) fun _ => ?_
  refine triple_bind (fun _ => Spared (Under fun s => Ready s ∧ s.outputOn = false))
    (steady_ask hJ rfl) fun _ => ?_
  exact triple_bind (fun _ => Spared (Under fun s => Ready s ∧ s.outputOn = false))
    (under_assign (fun _ h _ => { h with }) fun _ hs => hs) fun _ => under_save

theorem runProfiles_does (args : Args) (plan : Plan) (index : Nat)
    (entries : List ((String × String) × Value)) (hsome : entries ≠ []) :
    Does env (Under Ready) (runProfiles args plan index entries) (fun _ => Under fun s => Ready s ∧
      s.outputOn = false) Halted := by
  induction entries generalizing index with
  | nil => exact absurd rfl hsome
  | cons entry rest ih =>
    refine triple_bind (fun _ => Spared (Under fun s => Ready s ∧ s.outputOn = false))
      (runProfile_does args plan index entry.1.1 entry.1.2 entry.2) fun _ => ?_
    cases rest with
    | nil => exact does_pure fun _ hw => hw
    | cons entry' rest' =>
      exact does_mono (ih (index + 1) nofun) (fun _ hw => ⟨hw.1, hw.2.1⟩) (fun _ _ hw => hw)
        fun _ hw => hw

end

/-! ## The acquisition as a whole -/

section
variable {env : Env Op Op.Ans Raised}

/-- Behind the profiles. -/
def Over (s : Locals) : Prop := Idle s ∧ s.outputOn = false

theorem acquire_does (args : Args) (plan : Plan) (device : Device)
    (hsome : plan.profiles.zip plan.manifests ≠ []) :
    Does env (fun w => Setting w ∧ Idle w.locals) (acquire args plan device)
      (fun _ => Under Over) Halted := by
  have hI : Steady (fun w => Setting w ∧ Idle w.locals) Halted := setting_steady.also Idle
  have hJ : Steady (fun w => Setting w ∧ Idle w.locals ∧ w.locals.instrument = true) Halted :=
    setting_steady.also fun s => Idle s ∧ s.instrument = true
  refine triple_bind (fun _ => Spared fun w => Setting w ∧ Idle w.locals)
    (steady_ask hI rfl) fun _ => ?_
  refine triple_bind (fun _ => Spared fun w => Setting w ∧ Idle w.locals ∧
    w.locals.instrument = true) ?_ fun _ => ?_
  · exact does_assign fun _ hw => ⟨{ hw.1 with held := fun _ => rfl }, hw.2, rfl⟩
  refine triple_bind (fun _ => Spared fun w => Setting w ∧ Idle w.locals ∧
    w.locals.instrument = true) (steady_ask hJ rfl) fun _ => ?_
  refine triple_bind (fun _ => Spared fun w => Setting w ∧ Idle w.locals ∧
    w.locals.instrument = true) ?_ fun _ => ?_
  · apply does_ask
    · intro w _ hw
      refine ⟨{ hw.1 with
        toKnown := hw.1.toKnown.kept rfl rfl, on := ?_, clean := clean_concat hw.1.clean,
        fresh := ?_ }, hw.2⟩
      · exact fun hon => absurd hon outputOn_off
      · exact fun hnew => hw.1.fresh ((peerBackedUp_kept rfl).mp hnew)
    · exact fun w e _ hw => halted_off hw.1.toAcquiring.halted (by nofun) _
  refine triple_bind (fun _ => Spared fun w => Setting w ∧ Idle w.locals ∧
    w.locals.instrument = true) (steady_ask hJ rfl) fun _ => ?_
  refine triple_bind (fun _ => Spared fun w => Setting w ∧ Idle w.locals ∧
    w.locals.instrument = true) ?_ fun _ => ?_
  · refine triple_bind (fun _ => Spared fun w => Setting { w with
      locals := { w.locals with outputOn := true } } ∧ Idle w.locals ∧
      w.locals.instrument = true) ?_ fun _ => does_assign fun _ hw => hw
    apply does_ask
    · intro w _ hw
      refine ⟨{ hw.1 with
        toKnown := ?_, on := fun _ => rfl, held := fun _ => hw.2.2,
        clean := clean_concat hw.1.clean, fresh := ?_ }, hw.2⟩
      · exact { hw.1.toKnown.kept rfl rfl with }
      · exact fun hnew => hw.1.fresh ((peerBackedUp_kept rfl).mp hnew)
    · exact fun w e hfatal hw => absurd trivial hfatal
  refine triple_bind _ (backup_does _) fun backup => ?_
  refine triple_bind (fun _ => Spared fun w => Setting w ∧ Idle w.locals ∧
    Working w.locals) ?_ fun _ => ?_
  · exact does_assign fun _ hw => ⟨hw.1, hw.2.1, hw.2.2, rfl⟩
  refine triple_bind (fun _ => Spared (Under Ready)) (backUpPeers_does args _) fun _ => ?_
  refine triple_bind (fun _ => Spared (Under Ready)) under_save fun _ => ?_
  refine triple_bind (fun _ => Spared (Under Over)) ?_ fun _ => ?_
  · exact does_mono (runProfiles_does args plan 1 _ hsome) (fun _ hw => hw) (fun _ _ hw =>
      ⟨hw.1, hw.2.1.1, hw.2.2⟩) fun _ hw => hw
  · exact triple_when (fun _ => steady_ask (under_steady Over) rfl) fun _ _ hw => hw

theorem operation_does (float : String → Option Extended) (args : Args) :
    Does env (fun w => Setting w ∧ Idle w.locals) (operation float args)
      (fun _ => Under Over) Halted := by
  have hI : Steady (fun w => Setting w ∧ Idle w.locals) Halted := setting_steady.also Idle
  refine triple_bind _ (plan_does float args) fun plan => triple_fact fun hsome => ?_
  refine triple_bind _ (common_steady hI args) fun _ => ?_
  refine triple_bind _ (steady_ask hI rfl) fun device => ?_
  refine triple_bind (fun _ => Spared (Under Over)) ?_ fun _ => ?_
  · exact does_withLock (steady_ask hI rfl) (fun _ => under_steady Over) Halted.kept
      (acquire_does args plan device hsome)
  · have hstatus : "captured" ≠ "ok" := by decide
    exact under_assign (fun _ h _ => { h with status := hstatus }) fun _ hs => hs

/-- Behind the acquisition, however it ended. -/
structure Stopped (w : Run) : Prop extends Halted w where
  error : w.locals.operationError = none → Clean w.history ∧ Over w.locals

theorem acquisition_stopped (float : String → Option Extended) (args : Args) :
    Triple env (Spared fun w => Setting w ∧ Idle w.locals)
      (withExcept (operation float args) operationFailed) (fun _ => Spared Stopped)
      fun _ _ => False := by
  apply triple_except (fun _ => Spared Halted)
  · exact does_mono (operation_does float args) (fun _ hw => hw) (fun _ _ hw => { hw.1.halted with
      error := fun _ => ⟨hw.1.clean, hw.2⟩ })
      fun _ hw => hw
  · intro e
    refine triple_bind (fun _ => Spared fun w => Halted w ∧ w.locals.operationError = some e)
      (does_assign fun _ hw => ⟨{ hw with }, rfl⟩)
      fun _ => ?_
    have hstatus : "failed" ≠ "ok" := by decide
    exact does_assign fun _ hw => { hw.1 with
      status := hstatus, error := fun hnone => nomatch hw.2.symm.trans hnone }

end

/-! ## The first part of the cleanup -/

/-- Behind the first part of the cleanup: an output that may be on is up to the restoration. -/
structure Closed (w : Run) : Prop extends Known w where
  on : OutputOn w.history → OnRaised w.history ∧ w.locals.backupReport.isSome
  flag : w.locals.outputOn = true ↔ OffRaised w.history
  held : w.locals.outputOn = true → w.locals.instrument = true
  clean : w.locals.operationError = none → Clean w.history
  restored : w.locals.restoreError = none

/-- A report that does not say ok leaves only the restorations and the output to be accounted
for. -/
theorem Known.recovered {w : Run} (h : Known w)
    (htarget : BackedUp w.history → RestoreStarted w.history ∨ w.locals.report.restoreError.isSome)
    (hpeer : PeerBackedUp w.history → PeerProgrammed w.history ∨
      w.locals.report.peerRestoreError.isSome) (hout : ¬ OutputOn w.history) : Recovered w :=
  ⟨htarget, hpeer, hout, fun r hr hok => absurd hok (h.json r hr)⟩

/-- Something raised before the cleanup. -/
def Troubled (w : Run) : Prop := Halted w ∧ w.locals.operationError ≠ none

theorem Troubled.stopped {w : Run} (h : Troubled w) : Stopped w := { h.1 with
      error := fun hnone => absurd hnone h.2 }

theorem Stopped.troubled {w : Run} (h : Stopped w) (hover : ¬ Over w.locals) : Troubled w :=
  ⟨h.toHalted, fun hnone => hover (h.error hnone).2⟩

section
variable {env : Env Op Op.Ans Raised}

/-- An operation of the cleanup whose raise would be fatal. -/
theorem troubled_ask {op : Op} (hop : op.plain = true) (hfatal : ∀ h e, Fatal h op e) :
    Does env Troubled (ask op) (fun _ => Troubled) fun _ => False :=
  does_ask (fun w _ hw => ⟨Halted.kept w _ _ hop hw.1, hw.2⟩) fun w e hraised _ =>
    hraised (hfatal w.history e)

theorem terminate_does : Does env Troubled terminate (fun _ => Troubled) fun _ => False := by
  refine triple_bind (fun _ => Spared Troubled) (troubled_ask rfl fun _ _ => trivial) fun code => ?_
  apply triple_when
  · intro _
    refine triple_bind (fun _ => Spared Troubled) (troubled_ask rfl fun _ _ => trivial) fun _ => ?_
    apply triple_except (fun e => Spared fun w => Troubled w ∧ e.name = "TimeoutExpired")
    · refine triple_bind (fun _ => Spared Troubled) ?_ fun _ => triple_pure fun _ hw => hw
      apply triple_perform
      · exact fun w a hw hsound =>
          ⟨Halted.kept w _ _ rfl (hw hsound.before).1, (hw hsound.before).2⟩
      · intro w e hw hsound
        refine ⟨⟨Halted.kept w _ _ rfl (hw hsound.before).1, (hw hsound.before).2⟩, ?_⟩
        by_contra hname
        exact hsound.last (Or.inr hname)
    · intro e
      by_cases hname : e.name = "TimeoutExpired"
      · rw [if_pos hname]
        refine triple_bind (fun _ => Spared Troubled) ?_ fun _ => ?_
        · exact does_mono (troubled_ask rfl fun _ _ => trivial) (fun _ hw => hw.1)
            (fun _ _ hw => hw) fun _ hw => hw
        refine triple_bind (fun _ => Spared Troubled) (troubled_ask rfl fun _ _ => Or.inl rfl)
          fun _ => does_pure fun _ hw => hw
      · rw [if_neg hname]
        exact does_raise fun w hw => hname hw.2
  · exact fun _ _ hw => hw

/-- The power-off of the cleanup: attempted, and its flag tells whether it raised. -/
theorem cleanupOff_does : Does env (fun w => Troubled w ∧ w.locals.outputOn = true)
    (withExcept (turnOff .cleanup) fun e => updateReport fun r => { r with
      outputOffError := some e.message }) (fun _ => Closed)
    fun _ => False := by
  apply triple_except (fun _ => Spared Closed)
  · refine triple_bind (fun _ => Spared fun w => Troubled w ∧ ¬ OutputOn w.history) ?_ fun _ => ?_
    · apply does_ask
      · intro w _ hw
        obtain ⟨⟨hhalted, herror⟩, hon⟩ := hw
        refine ⟨⟨{ hhalted with
          toKnown := hhalted.toKnown.kept rfl rfl, on := fun hon => absurd hon outputOn_off,
          off := ?_ }, herror⟩, outputOn_off⟩
        intro hoff
        rcases happened_concat.mp hoff with hold | ⟨_, x, hx⟩
        · exact hhalted.off hold
        · cases hx
      · intro w e _ hw
        obtain ⟨⟨hhalted, herror⟩, hon⟩ := hw
        refine { hhalted with
          toKnown := hhalted.toKnown.kept rfl rfl, on := fun hon => absurd hon outputOn_off,
          flag := ?_, clean := ?_ }
        · exact iff_of_true hon (happened_concat.mpr (Or.inr ⟨rfl, e, rfl⟩))
        · exact fun hnone => absurd hnone herror
    · refine does_assign fun w hw => ?_
      obtain ⟨⟨hhalted, herror⟩, hout⟩ := hw
      refine { hhalted with
        on := fun hon => absurd hon hout, held := nofun,
        flag := iff_of_false nofun hhalted.off, clean := ?_ }
      exact fun hnone => absurd hnone herror
  · exact fun e => does_assign fun _ hw => { hw with }

theorem closeAcquisition_does : Does env Stopped closeAcquisition (fun _ => Closed) Recovered := by
  have hnever : ∀ w : Run, False → Recovered w := fun _ => False.elim
  refine triple_bind (fun process => Spared fun w => Stopped w ∧ process = w.locals.peerProcess)
    (does_locals fun _ hw => ⟨hw, rfl⟩) fun process => ?_
  refine triple_bind (fun _ => Spared Stopped) ?_ fun _ => ?_
  · apply triple_when
    · intro hprocess
      refine does_mono terminate_does (fun w hw => hw.1.troubled fun hover => ?_)
        (fun _ _ hw => hw.stopped) hnever
      exact absurd (hover.1.1.symm.trans (hw.2.symm.trans hprocess)) (by decide)
    · exact fun _ _ hw hsound => (hw hsound).1
  refine triple_bind (fun stream => Spared fun w => Stopped w ∧ stream = w.locals.peerStream)
    (does_locals fun _ hw => ⟨hw, rfl⟩) fun stream => ?_
  refine triple_bind (fun _ => Spared Stopped) ?_ fun _ => ?_
  · apply triple_when
    · intro hstream
      refine does_mono (troubled_ask rfl fun _ _ => trivial) (fun w hw => hw.1.troubled fun hover =>
        ?_) (fun _ _ hw => hw.stopped) hnever
      exact absurd (hover.1.2.1.symm.trans (hw.2.symm.trans hstream)) (by decide)
    · exact fun _ _ hw hsound => (hw hsound).1
  refine triple_bind (fun ready => Spared fun w => Stopped w ∧ ready = w.locals.peerReady)
    (does_locals fun _ hw => ⟨hw, rfl⟩) fun ready => ?_
  refine triple_bind (fun _ => Spared Stopped) ?_ fun _ => ?_
  · cases ready with
    | none => exact does_pure fun _ hw => hw.1
    | some path =>
      refine does_mono (troubled_ask rfl fun _ _ => trivial) (fun w hw => hw.1.troubled fun hover =>
        ?_) (fun _ _ hw => hw.stopped) hnever
      exact absurd (hw.2.trans hover.1.2.2) nofun
  refine triple_bind (fun instrument => Spared fun w => Stopped w ∧
    instrument = w.locals.instrument) (does_locals fun _ hw => ⟨hw, rfl⟩)
    fun instrument => ?_
  -- with the flag not set there is nothing to turn off here
  have hclosed : ∀ w : Run, Stopped w → w.locals.outputOn = false → Closed w := by
    intro w h hflag
    refine { h with
      on := fun hon => ?_, flag := iff_of_false (by simp [hflag]) h.off, clean := fun hnone =>
        (h.error hnone).1 }
    rcases h.on hon with htrue | hlost
    · exact absurd (hflag.symm.trans htrue) (by decide)
    · exact hlost
  apply triple_when
  · intro _
    refine triple_bind (fun on => Spared fun w => Stopped w ∧ on = w.locals.outputOn)
      (does_locals fun _ hw => ⟨hw.1, rfl⟩) fun on => ?_
    refine triple_bind (fun _ => Spared Closed) ?_ fun _ => ?_
    · apply triple_when
      · intro hon
        refine does_mono cleanupOff_does (fun w hw =>
          ⟨hw.1.troubled fun hover => ?_, hw.2.symm.trans hon⟩) (fun _ _ hw => hw) hnever
        exact absurd (hover.2.symm.trans (hw.2.symm.trans hon)) (by decide)
      · exact fun hon w hw hsound => hclosed w (hw hsound).1 ((hw hsound).2.symm.trans hon)
    · apply does_ask
      · intro w _ hw
        refine { hw with
          toKnown := hw.toKnown.kept rfl rfl, on := ?_, flag := ?_, clean := fun hnone =>
            clean_concat (hw.clean hnone) }
        · exact fun hon => ⟨happened_mono (hw.on ((outputOn_kept rfl).mp hon)).1,
            (hw.on ((outputOn_kept rfl).mp hon)).2⟩
        · exact hw.flag.trans (offRaised_kept rfl).symm
      · intro w e hfatal hw
        have hunbacked : ¬ BackedUp w.history := hfatal
        have hknown := @Known.kept w (.closeInstrument .cleanup) (.error e) hw.toKnown rfl rfl
        refine hknown.recovered (fun hback => ?_) (fun hpeer => ?_) fun hon => ?_
        · exact absurd ((backedUp_kept rfl).mp hback) hunbacked
        · exact absurd ((backedUp_kept rfl).mp (hknown.peer hpeer).1) hunbacked
        · exact hunbacked (hw.backup.mpr (hw.on ((outputOn_kept rfl).mp hon)).2)
  · intro hinstrument w hw hsound
    refine hclosed w (hw hsound).1 ?_
    cases hflag : w.locals.outputOn with
    | false => rfl
    | true => exact absurd (hinstrument.symm.trans
      ((hw hsound).2.trans ((hw hsound).1.held hflag))) (by decide)

end

/-! ## The restoration of the target -/

/-- The restoration has raised, or may yet. -/
structure Failing (w : Run) : Prop extends Known w where
  on : OutputOn w.history → w.locals.outputOn = true ∧ w.locals.instrument = true

theorem Failing.kept : Kept Failing := by
  intro w op outcome hop h
  obtain ⟨hwrites, hbacks, hswitches, _⟩ := plain_iff.mp hop
  exact { h with
    toKnown := h.toKnown.kept hwrites hbacks, on := fun hon =>
      h.on ((outputOn_kept hswitches).mp hon) }

/-- The restoration goes on, and the variables are as `C` says. -/
structure Restoring (C : Locals → Prop) (w : Run) : Prop extends Known w where
  clean : w.locals.operationError = none → Clean w.history
  restored : w.locals.restoreError = none
  also : C w.locals

theorem Restoring.ok {C : Locals → Prop} {w : Run}
    (h : Restoring C w) {op : Op} {a : op.Ans} (hwrites : op.writes = false)
    (hbacks : op.backs = false) : Restoring C { w with history := w.history ++ [⟨op, .ok a⟩] } :=
  { h with
    toKnown := h.toKnown.kept hwrites hbacks, clean := fun hnone => clean_concat (h.clean hnone) }

/-- The output is off. -/
def Unpowered (w : Run) : Prop :=
  ¬ OutputOn w.history ∧ (w.locals.outputOn = true ↔ OffRaised w.history)

def Open (s : Locals) : Prop := s.instrument = true

/-- The output is on, with its flag. -/
def Lit (s : Locals) : Prop := s.instrument = true ∧ s.outputOn = true

theorem unpowered_steady : Steady (fun w => Restoring Open w ∧ Unpowered w) Failing where
  ok w op a hop h := by
    obtain ⟨hwrites, hbacks, hswitches, _⟩ := plain_iff.mp hop
    refine ⟨h.1.ok hwrites hbacks, fun hon => h.2.1 ((outputOn_kept hswitches).mp hon), ?_⟩
    exact h.2.2.trans (offRaised_kept hswitches).symm
  failing w h := { h.1 with on := fun hon => absurd hon h.2.1 }
  kept := Failing.kept

theorem lit_steady : Steady (Restoring Lit) Failing where
  ok _ _ _ hop h := h.ok (plain_iff.mp hop).1 (plain_iff.mp hop).2.1
  failing _ h := { h with on := fun _ => ⟨h.also.2, h.also.1⟩ }
  kept := Failing.kept

/-- The restoration is verified. -/
def Proven (h : Past) : Prop := RestoreStarted h ∧ Restored h

theorem Proven.kept {h : Past} {op : Op} {outcome : Except Raised op.Ans} (hproven : Proven h)
    (hop : op.changes = false) : Proven (h ++ [⟨op, outcome⟩]) :=
  ⟨happened_mono hproven.1, since_concat.mpr (Or.inr ⟨hproven.2, not_flashes hop⟩)⟩

section
variable {env : Env Op Op.Ans Raised}

theorem restoreChild_does (manifest backup log : String) :
    Does env (Restoring Lit) (runChild (.restore manifest backup) log) (fun _ w => Restoring Lit w ∧
      Proven w.history) Failing := by
  have hI : Steady (fun w => Restoring Lit w ∧ RestoreStarted w.history) Failing :=
    ⟨fun w op a hop h => ⟨lit_steady.ok w op a hop h.1, happened_mono h.2⟩, fun w h =>
      lit_steady.failing w h.1, Failing.kept⟩
  apply runChild_does hI
  · exact fun w a hw =>
      ⟨lit_steady.ok w _ _ rfl hw, happened_concat.mpr (Or.inr ⟨manifest, backup, log, rfl⟩)⟩
  · exact fun w e hw => Failing.kept w _ _ rfl (lit_steady.failing w hw)
  · intro w path data hgood hw
    refine ⟨lit_steady.ok w _ _ rfl hw.1, happened_mono hw.2, since_concat.mpr (Or.inl ?_)⟩
    exact ⟨manifest, backup, path, data, rfl, hgood⟩
  · exact fun w path data _ hw => Failing.kept w _ _ rfl (lit_steady.failing w hw.1)
  · exact fun w path e hw => Failing.kept w _ _ rfl (lit_steady.failing w hw.1)

/-- The end of a restoration that went through. -/
structure Done (w : Run) : Prop extends Restoring (fun _ => True) w where
  output : ¬ OutputOn w.history
  flag : w.locals.outputOn = false
  proven : Proven w.history

theorem done_steady : Steady Done Failing where
  ok w op a hop h := by
    obtain ⟨hwrites, hbacks, hswitches, hchanges⟩ := plain_iff.mp hop
    exact { h.toRestoring.ok hwrites hbacks with
      output := fun hon => h.output ((outputOn_kept hswitches).mp hon)
      flag := h.flag
      proven := h.proven.kept hchanges }
  failing w h := { h with on := fun hon => absurd hon h.output }
  kept := Failing.kept

/-- An output that was lost in the acquisition has its power-off still to come. -/
def Losing (w : Run) : Prop :=
  (OutputOn w.history → OnRaised w.history) ∧ (w.locals.outputOn = true ↔ OffRaised w.history)

/-- What raises in front of that power-off is fatal then. -/
theorem losing_ask {C : Locals → Prop} {op : Op} (hop : op.plain = true)
    (hfatal : ∀ h e, OnRaised h → Fatal h op e) :
    Does env (fun w => Restoring C w ∧ Losing w) (ask op) (fun _ w => Restoring C w ∧
      Losing w) Failing := by
  obtain ⟨hwrites, hbacks, hswitches, _⟩ := plain_iff.mp hop
  apply does_ask
  · intro w a hw
    refine ⟨hw.1.ok hwrites hbacks, fun hon =>
      happened_mono (hw.2.1 ((outputOn_kept hswitches).mp hon)), ?_⟩
    exact hw.2.2.trans (offRaised_kept hswitches).symm
  · intro w e hraised hw
    refine { hw.1.toKnown.kept hwrites hbacks with on := fun hon => ?_ }
    exact absurd (hfatal _ e (hw.2.1 ((outputOn_kept hswitches).mp hon))) hraised

/-- The power-off of the restoration makes up for a lost one. -/
theorem restoreOff_does :
    Does env (fun w => Restoring Open w ∧ Losing w) (ask (.power .restore false))
    (fun _ w => Restoring Open w ∧ Unpowered w) Failing := by
  apply does_ask
  · exact fun w _ hw =>
      ⟨hw.1.ok rfl rfl, outputOn_off, hw.2.2.trans (offRaised_other (by nofun)).symm⟩
  · exact fun w e _ hw => { hw.1.toKnown.kept rfl rfl with
      on := fun hon => absurd hon outputOn_off }

theorem restoreOn_does : Does env (fun w => Restoring Open w ∧ Unpowered w) (turnOn .restore)
      (fun _ => Restoring Lit) Failing := by
  refine triple_bind (fun _ => Spared (Restoring Open)) ?_ fun _ => ?_
  · apply does_ask
    · exact fun w _ hw => hw.1.ok rfl rfl
    · intro w e hfatal hw
      have hoff : OffRaised w.history := by
        by_contra hnot
        exact hfatal hnot
      exact { hw.1.toKnown.kept rfl rfl with on := fun _ => ⟨hw.2.2.mpr hoff, hw.1.also⟩ }
  · exact does_assign fun w hw => { hw with also := ⟨hw.also, rfl⟩ }

theorem restoreLast_does : Does env (fun w => Restoring Lit w ∧ Proven w.history) (turnOff .restore)
      (fun _ => Done) Failing := by
  refine triple_bind (fun _ => Spared fun w => Restoring Lit w ∧ ¬ OutputOn w.history ∧
    Proven w.history) ?_ fun _ => ?_
  · apply does_ask
    · exact fun w _ hw => ⟨hw.1.ok rfl rfl, outputOn_off, hw.2.kept rfl⟩
    · exact fun w e _ hw => { hw.1.toKnown.kept rfl rfl with
        on := fun hon => absurd hon outputOn_off }
  · exact does_assign fun w hw => { hw.1 with
      also := trivial, output := hw.2.1, flag := rfl, proven := hw.2.2 }

theorem restoreTarget_does (args : Args) (backup : String) (device : Device) :
    Does env (fun w => Restoring (fun _ => True) w ∧ Losing w) (restoreTarget args backup device)
      (fun _ => Done) Failing := by
  refine triple_bind _ (losing_ask rfl fun _ _ h => h) fun _ => ?_
  refine triple_bind (fun _ => Spared fun w => Restoring Open w ∧ Losing w) ?_ fun _ => ?_
  · exact does_assign fun w hw => ⟨{ hw.1 with also := rfl }, hw.2⟩
  refine triple_bind _ restoreOff_does fun _ => ?_
  refine triple_bind _ (steady_ask unpowered_steady rfl) fun _ => ?_
  refine triple_bind _ (steady_ask unpowered_steady rfl) fun _ => ?_
  refine triple_bind _ restoreOn_does fun _ => ?_
  refine triple_bind _ (common_steady lit_steady args) fun _ => ?_
  refine triple_bind _ (profiles_steady lit_steady [] args.profile) fun found =>
    triple_fact fun _ => ?_
  cases found with
  | nil => exact does_raise lit_steady.failing
  | cons entry rest =>
    refine triple_bind _ (restoreChild_does entry.2 backup _) fun _ => ?_
    refine triple_bind (fun _ => Spared fun w => Restoring Lit w ∧ Proven w.history) ?_ fun _ =>
      restoreLast_does
    exact does_assign fun w hw => ⟨{ hw.1 with }, hw.2⟩

/-- Behind the attempt. -/
structure Tried (w : Run) : Prop extends Failing w where
  target : RestoreStarted w.history ∨ w.locals.report.restoreError.isSome
  verified : w.locals.restoreError = none → Restored w.history ∧ w.locals.outputOn = false
  clean : w.locals.operationError = none → w.locals.restoreError = none → Clean w.history

theorem restoreAttempt_does (args : Args) (backup : String) :
    Triple env (Spared fun w => Closed w ∧ w.locals.backupReport.isSome)
      (withExcept
        (do
          let device : Device ← ask (.selectInstrument args.instrumentSerial)
          withLock ("blu939:" ++ device.serial) "blu939-suite-restore"
            (restoreTarget args backup device))
        restoreFailed) (fun _ => Spared Tried) fun _ _ => False := by
  apply triple_except (fun _ => Spared Failing)
  · refine triple_bind (fun _ => Spared fun w => Restoring (fun _ => True) w ∧ Losing w) ?_
      fun device => ?_
    · refine does_mono (losing_ask rfl fun _ _ h => h) (fun w hw =>
        ⟨?_, fun hon => (hw.1.on hon).1, hw.1.flag⟩) (fun _ _ hw => hw) fun _ hw => hw
      exact { hw.1 with also := trivial }
    · have hlock : Does env (fun w => Restoring (fun _ => True) w ∧ Losing w)
          (withLock ("blu939:" ++ device.serial) "blu939-suite-restore"
            (restoreTarget args backup device)) (fun _ => Done) Failing :=
        does_withLock (losing_ask rfl fun _ _ h => ⟨rfl, h⟩) (fun _ => done_steady) Failing.kept
          (restoreTarget_does args backup device)
      refine does_mono hlock (fun _ hw => hw) (fun _ w hw => ?_) fun _ hw => hw
      exact { hw with
        on := fun hon => absurd hon hw.output
        target := Or.inl hw.proven.1
        verified := fun _ => ⟨hw.proven.2, hw.flag⟩
        clean := fun hnone _ => hw.clean hnone }
  · intro e
    refine triple_bind (fun _ => Spared fun w => Failing w ∧ w.locals.restoreError = some e)
      (does_assign fun _ hw => ⟨{ hw with }, rfl⟩)
      fun _ => ?_
    have hstatus : "failed" ≠ "ok" := by decide
    exact does_assign fun w hw => { hw.1 with
      status := hstatus
      target := Or.inr rfl
      verified := fun hnone => nomatch hw.2.symm.trans hnone
      clean := fun _ hnone => nomatch hw.2.symm.trans hnone }

/-- What the target is left with, whatever becomes of the peer. -/
structure Left (w : Run) : Prop extends Known w where
  output : ¬ OutputOn w.history
  target : BackedUp w.history → RestoreStarted w.history ∨ w.locals.report.restoreError.isSome
  verified : w.locals.restoreError = none → BackedUp w.history → Restored w.history

/-- Behind the restoration of the target, or where none was due. -/
structure Settled (w : Run) : Prop extends Left w where
  clean : w.locals.operationError = none → w.locals.restoreError = none → Clean w.history

theorem Left.concat {w : Run} (h : Left w) {op : Op} {outcome : Except Raised op.Ans}
    (hwrites : op.writes = false) (hbacks : op.backs = false) (hswitches : op.switches = false)
    (hflashes : ¬ op.flashes) :
    Left { w with history := w.history ++ [⟨op, outcome⟩] } := by
  refine { h.toKnown.kept hwrites hbacks with output := ?_, target := ?_, verified := ?_ }
  · exact fun hon => h.output ((outputOn_kept hswitches).mp hon)
  · exact fun hback => (h.target ((backedUp_kept hbacks).mp hback)).imp_left happened_mono
  · exact fun hnone hback =>
      since_concat.mpr (Or.inr ⟨h.verified hnone ((backedUp_kept hbacks).mp hback), hflashes⟩)

theorem Left.kept : Kept Left := by
  intro w op outcome hop h
  obtain ⟨hwrites, hbacks, hswitches, hchanges⟩ := plain_iff.mp hop
  exact h.concat hwrites hbacks hswitches (not_flashes hchanges)

theorem settled_steady : Steady Settled Left where
  ok w op a hop h := { Left.kept w op (.ok a) hop h.toLeft with
    clean := fun hnone hnone' => clean_concat (h.clean hnone hnone') }
  failing _ h := h.toLeft
  kept := Left.kept

theorem closeRestoration_does : Does env Tried closeRestoration (fun _ => Settled) Recovered := by
  have hsettled : ∀ w : Run, Tried w → ¬ OutputOn w.history → Settled w := fun w h hout =>
    { h with
      output := hout, target := fun _ => h.target, verified := fun hnone _ => (h.verified hnone).1 }
  -- an output that is still on is one where the restoration raised
  have hlast : ∀ (w : Run) (outcome : Except Raised Unit), Tried w → w.locals.outputOn = true →
      Settled { w with history := w.history ++ [⟨.power .restore false, outcome⟩] } := by
    intro w outcome h hflag
    have herror : w.locals.restoreError ≠ none :=
      fun hnone => absurd ((h.verified hnone).2.symm.trans hflag) (by decide)
    exact { h.toKnown.kept rfl rfl with
      output := outputOn_off
      target := fun _ => h.target.imp_left happened_mono
      verified := fun hnone => absurd hnone herror
      clean := fun _ hnone => absurd hnone herror }
  refine triple_bind (fun instrument => Spared fun w => Tried w ∧ instrument = w.locals.instrument)
    (does_locals fun _ hw => ⟨hw, rfl⟩)
    fun instrument => ?_
  apply triple_when
  · intro _
    refine triple_bind (fun on => Spared fun w => Tried w ∧ on = w.locals.outputOn)
      (does_locals fun _ hw => ⟨hw.1, rfl⟩) fun on => ?_
    refine triple_bind (fun _ => Spared Settled) ?_ fun _ => ?_
    · apply triple_when
      · intro hon
        apply triple_except (fun _ => Spared Settled)
        · apply does_ask
          · exact fun w _ hw => hlast w _ hw.1 (hw.2.symm.trans hon)
          · exact fun w e _ hw => hlast w _ hw.1 (hw.2.symm.trans hon)
        · exact fun e => does_assign fun _ hw => { hw with }
      · intro hon w hw hsound
        obtain ⟨h, hflag⟩ := hw hsound
        exact hsettled w h fun hout =>
          absurd ((hflag.trans (h.on hout).1).symm.trans hon) (by decide)
    · apply does_ask
      · exact fun w a hw => settled_steady.ok w _ a rfl hw
      · intro w e hfatal hw
        have hunbacked : ¬ PeerBackedUp w.history := hfatal
        have hknown := @Known.kept w (.closeInstrument .restore) (.error e) hw.toKnown rfl rfl
        refine hknown.recovered (fun hback => ?_) (fun hpeer => ?_) fun hon => ?_
        · exact (hw.target ((backedUp_kept rfl).mp hback)).imp_left happened_mono
        · exact absurd ((peerBackedUp_kept rfl).mp hpeer) hunbacked
        · exact hw.output ((outputOn_kept rfl).mp hon)
  · intro hinstrument w hw hsound
    obtain ⟨h, hflag⟩ := hw hsound
    exact hsettled w h fun hout =>
      absurd ((hflag.trans (h.on hout).2).symm.trans hinstrument) (by decide)

theorem restore_does (args : Args) (backup : Option String) :
    Does env (fun w => Closed w ∧ backup = w.locals.backupReport) (restore args backup)
      (fun _ => Settled) Recovered := by
  cases backup with
  | none =>
    refine does_pure fun w hw => ?_
    obtain ⟨h, hnone⟩ := hw
    have hunbacked : ¬ BackedUp w.history := fun hback => by
      have hsome := h.backup.mp hback
      rw [← hnone] at hsome
      cases hsome
    exact { h with
      output := fun hon => hunbacked (h.backup.mpr (h.on hon).2)
      target := fun hback => absurd hback hunbacked
      verified := fun _ hback => absurd hback hunbacked
      clean := fun hnone _ => h.clean hnone }
  | some backup =>
    apply triple_finally (fun _ => Spared Tried) (fun _ _ => False)
    · refine triple_mono (restoreAttempt_does args backup) (fun w hw hsound => ⟨(hw hsound).1, ?_⟩)
        (fun _ _ hw => hw) fun _ _ hw => hw
      exact Option.isSome_iff_exists.mpr ⟨backup, (hw hsound).2.symm⟩
    · exact fun _ => closeRestoration_does
    · exact fun _ w hw => hw.elim

end

/-! ## The restoration of the peer -/

theorem peerRestored_kept {h : Past} {op : Op} {outcome : Except Raised op.Ans}
    (hop : ¬ op.programs) (hrestored : PeerRestored h) :
    PeerRestored (h ++ [⟨op, outcome⟩]) := since_concat.mpr (Or.inr ⟨hrestored, hop⟩)

/-- The peer is programmed with its backup, and `R` holds of its readback. -/
def Reading (backup : String) (R : Past → Prop) (w : Run) : Prop :=
  (Settled w ∧ backup = "peer-backup.hex") ∧ PeerProgrammed w.history ∧ R w.history

theorem reading_steady {backup : String} {R : Past → Prop}
    (hR : ∀ h (op : Op) (outcome : Except Raised op.Ans), op.changes = false → R h →
      R (h ++ [⟨op, outcome⟩])) :
    Steady (Reading backup R) Left where
  ok w op a hop h := ⟨⟨settled_steady.ok w op a hop h.1.1, h.1.2⟩, happened_mono h.2.1,
    hR _ _ _ (plain_iff.mp hop).2.2.2 h.2.2⟩
  failing _ h := h.1.1.toLeft
  kept := Left.kept

section
variable {env : Env Op Op.Ans Raised}

theorem readRestored_does (backup : String) (manifest : Value) (serial log : String) (span : Span) :
    Does env (Reading backup fun _ => True) (readPeer manifest serial "peer-restored.hex" log span)
      (fun _ => Reading backup PeerRead) Left := by
  have hI : Steady (Reading backup fun _ => True) Left := reading_steady fun _ _ _ _ _ => trivial
  refine triple_bind _ (steady_lift hI) fun target => ?_
  refine triple_bind (fun result => Spared fun w => Reading backup (fun _ => True) w ∧
    (result.returncode = 0 → PeerRead w.history)) ?_
    fun result => ?_
  · apply does_ask
    · intro w out hw
      refine ⟨hI.ok w _ _ rfl hw, fun hcode => since_concat.mpr (Or.inl ?_)⟩
      exact ⟨serial, target.1, target.2, _, _, log, out, rfl, hcode⟩
    · exact fun w e _ hw => Left.kept w _ _ rfl hw.1.1.toLeft
  · apply triple_when
    · exact fun _ => does_raise fun w hw => hw.1.1.1.toLeft
    · exact fun hcode w hw hsound =>
        ⟨(hw hsound).1.1, (hw hsound).1.2.1, (hw hsound).2 (by simpa using hcode)⟩

theorem restorePeerImage_does (backup : String) (manifest : Value) (serial : String) (span : Span) :
    Does env (fun w => Settled w ∧ backup = "peer-backup.hex")
      (restorePeerImage backup manifest serial span)
      (fun _ => Reading backup PeerRestored) Left := by
  have hsettled : Steady (fun w => Settled w ∧ backup = "peer-backup.hex") Left :=
    settled_steady.also fun _ => backup = "peer-backup.hex"
  have hrestored : Steady (Reading backup PeerRestored) Left :=
    reading_steady fun _ _ _ hop => peerRestored_kept (not_programs hop)
  refine triple_bind _ (steady_lift hsettled) fun target => ?_
  refine triple_bind (fun _ => Spared (Reading backup fun _ => True)) ?_ fun restored => ?_
  · apply does_ask
    · intro w a hw
      refine ⟨⟨{ hw.1.toLeft.concat rfl rfl rfl (by nofun) with
        clean := fun h h' => clean_concat (hw.1.clean h h') }, hw.2⟩, ?_, trivial⟩
      exact happened_concat.mpr (Or.inr ⟨_, _, _, _, _, rfl⟩)
    · exact fun w e _ hw => hw.1.toLeft.concat rfl rfl rfl (by nofun)
  refine steady_check (reading_steady fun _ _ _ _ _ => trivial) fun _ => ?_
  refine triple_bind _ (readRestored_does backup manifest serial _ span) fun _ => ?_
  refine triple_bind (fun digest => Spared (Reading backup (PeerDigest digest))) ?_ fun digest => ?_
  · apply does_ask
    · intro w digest hw
      exact ⟨hsettled.ok w _ _ rfl hw.1, happened_mono hw.2.1,
        since_concat.mpr (Or.inl ⟨rfl, hw.2.2⟩)⟩
    · exact fun w e _ hw => Left.kept w _ _ rfl hw.1.1.toLeft
  refine triple_bind (fun expected =>
    Spared (Reading backup fun h => digest = expected → PeerRestored h)) ?_ fun expected => ?_
  · apply does_ask
    · intro w expected hw
      obtain ⟨⟨hset, rfl⟩, hprogrammed, hdigest⟩ := hw
      refine ⟨hsettled.ok w _ _ rfl ⟨hset, rfl⟩, happened_mono hprogrammed, fun hsame =>
        since_concat.mpr (Or.inl ⟨expected, rfl, ?_⟩)⟩
      rwa [← hsame]
    · intro w e _ hw
      obtain ⟨⟨hset, rfl⟩, _⟩ := hw
      exact Left.kept w _ _ rfl hset.toLeft
  refine triple_bind (fun _ => Spared (Reading backup PeerRestored)) ?_ fun _ => ?_
  · apply triple_when
    · exact fun _ => does_raise fun w hw => hw.1.1.toLeft
    · exact fun hsame w hw hsound =>
        ⟨(hw hsound).1, (hw hsound).2.1, (hw hsound).2.2 (by simpa using hsame)⟩
  refine triple_bind _ (steady_ask hrestored rfl) fun reset => ?_
  apply triple_when
  · exact fun _ => does_raise hrestored.failing
  · exact fun _ _ hw => hw

/-- Behind both restorations. -/
structure Finished (w : Run) : Prop extends Left w where
  peerTarget : PeerBackedUp w.history → PeerProgrammed w.history ∨
    w.locals.report.peerRestoreError.isSome
  peerVerified : w.locals.peerRestoreError = none → PeerBackedUp w.history → PeerRestored w.history
  clean : w.locals.operationError = none → w.locals.restoreError = none →
    w.locals.peerRestoreError = none → Clean w.history

theorem restorePeer_does (s : Locals) :
    Triple env (Spared fun w => Settled w ∧ s = w.locals) (restorePeer s) (fun _ => Spared Finished)
    fun _ _ => False := by
  unfold restorePeer
  split
  · rename_i backup manifest serial span hbackup _ _ _
    have hrestored : Steady (Reading backup PeerRestored) Left :=
      reading_steady fun _ _ _ hop => peerRestored_kept (not_programs hop)
    have hsettled : Steady (fun w => Settled w ∧ backup = "peer-backup.hex") Left :=
      settled_steady.also fun _ => backup = "peer-backup.hex"
    apply triple_except (fun _ => Spared Left)
    · refine triple_bind (fun _ => Spared (Reading backup PeerRestored)) ?_ fun _ => ?_
      · refine does_mono (does_withLock (steady_ask hsettled rfl) (fun _ => hrestored) Left.kept
          (restorePeerImage_does backup manifest serial span)) (fun w hw => ?_) (fun _ _ hw =>
            hw) fun _ hw => hw
        exact ⟨hw.1, hw.1.path backup (by rw [← hw.2, hbackup])⟩
      · exact does_assign fun _ hw => { hw.1.1 with
          peerTarget := fun _ => Or.inl hw.2.1
          peerVerified := fun _ _ => hw.2.2
          clean := fun hnone hnone' _ => hw.1.1.clean hnone hnone' }
    · intro e
      refine triple_bind (fun _ => Spared fun w => Left w ∧ w.locals.peerRestoreError = some e)
        (does_assign fun _ hw => ⟨{ hw with }, rfl⟩)
        fun _ => ?_
      have hstatus : "failed" ≠ "ok" := by decide
      exact does_assign fun _ hw => { hw.1 with
        status := hstatus
        peerTarget := fun _ => Or.inr rfl
        peerVerified := fun hnone => nomatch hw.2.symm.trans hnone
        clean := fun _ _ hnone => nomatch hw.2.symm.trans hnone }
  · rename_i hcases
    refine triple_pure fun w hw hsound => ?_
    obtain ⟨h, rfl⟩ := hw hsound
    have hunbacked : ¬ PeerBackedUp w.history := by
      intro hpeer
      obtain ⟨_, hbackup, hmanifest, hserial, hspan⟩ := h.peer hpeer
      obtain ⟨backup, hbackup⟩ := Option.isSome_iff_exists.mp hbackup
      obtain ⟨manifest, hmanifest⟩ := Option.isSome_iff_exists.mp hmanifest
      obtain ⟨serial, hserial⟩ := Option.isSome_iff_exists.mp hserial
      obtain ⟨span, hspan⟩ := Option.isSome_iff_exists.mp hspan
      exact hcases backup manifest serial span hbackup hmanifest hserial hspan
    exact { h with
      peerTarget := fun hpeer => absurd hpeer hunbacked
      peerVerified := fun _ hpeer => absurd hpeer hunbacked
      clean := fun hnone hnone' _ => h.clean hnone hnone' }

end

/-! ## The command -/

theorem Verified.ok {w : Run} (h : Verified w) {op : Op} {a : op.Ans} (hbacks : op.backs = false)
    (hchanges : op.changes = false) :
    Verified { w with history := w.history ++ [⟨op, .ok a⟩] } where
  clean := clean_concat h.clean
  operation := h.operation
  target hback :=
    since_concat.mpr (Or.inr ⟨h.target ((backedUp_kept hbacks).mp hback), not_flashes hchanges⟩)
  peer hpeer :=
    peerRestored_kept (not_programs hchanges) (h.peer ((peerBackedUp_kept hbacks).mp hpeer))

/-- The report agrees with what happened. -/
structure Settling (w : Run) : Prop where
  target : BackedUp w.history → RestoreStarted w.history ∨ w.locals.report.restoreError.isSome
  peer : PeerBackedUp w.history → PeerProgrammed w.history ∨ w.locals.report.peerRestoreError.isSome
  output : ¬ OutputOn w.history
  json : ∀ r, runJson w.history = some r → r.status = "ok" → Verified w
  status : w.locals.report.status = "ok" → Verified w

/-- Behind the cleanup, with run.json as the report says. -/
structure Concluded (w : Run) : Prop extends Settling w where
  final : finalError w.locals = none → ∃ r, runJson w.history = some r ∧ r.status = "ok"

theorem Settling.recovered {w : Run} (h : Settling w) : Recovered w :=
  ⟨h.target, h.peer, h.output, h.json⟩

theorem Settling.ok {w : Run} (h : Settling w) {op : Op} {a : op.Ans} (hop : op.plain = true) :
    Settling { w with history := w.history ++ [⟨op, .ok a⟩] } := by
  obtain ⟨hwrites, hbacks, hswitches, hchanges⟩ := plain_iff.mp hop
  refine ⟨fun hback => ?_, fun hpeer => ?_, fun hon => ?_, fun r hr hok => ?_, fun hok =>
    (h.status hok).ok hbacks hchanges⟩
  · exact (h.target ((backedUp_kept hbacks).mp hback)).imp_left happened_mono
  · exact (h.peer ((peerBackedUp_kept hbacks).mp hpeer)).imp_left happened_mono
  · exact h.output ((outputOn_kept hswitches).mp hon)
  · exact (h.json r (by rwa [runJson_kept hwrites] at hr) hok).ok hbacks hchanges

theorem Settling.written {w : Run} (h : Settling w) :
    Settling { w with history := w.history ++ [⟨.atomicJson w.locals.report, .ok ()⟩] } := by
  refine ⟨fun hback => ?_, fun hpeer => ?_, fun hon => ?_, fun r hr hok => ?_,
    fun hok => (h.status hok).ok rfl rfl⟩
  · exact (h.target ((backedUp_kept rfl).mp hback)).imp_left happened_mono
  · exact (h.peer ((peerBackedUp_kept rfl).mp hpeer)).imp_left happened_mono
  · exact h.output ((outputOn_kept rfl).mp hon)
  · rcases runJson_report hr with rfl | hold
    · exact (h.status hok).ok rfl rfl
    · exact (h.json r hold hok).ok rfl rfl

theorem finalError_none {s : Locals} (h : finalError s = none) :
    s.restoreError = none ∧ s.peerRestoreError = none ∧ s.operationError = none := by
  cases hrestore : s.restoreError with
  | some error => cases hoperation :
    s.operationError <;> simp [finalError, hrestore, hoperation] at h
  | none =>
    cases hpeer : s.peerRestoreError with
    | some error => cases hoperation :
      s.operationError <;> simp [finalError, hrestore, hpeer, hoperation] at h
    | none =>
      cases hoperation : s.operationError with
      | some failed => simp [finalError, hrestore, hpeer, hoperation] at h
      | none => exact ⟨rfl, rfl, rfl⟩

section
variable {env : Env Op Op.Ans Raised}

theorem conclude_does : Does env Finished conclude (fun _ => Concluded) Recovered := by
  refine triple_bind (fun _ => Spared fun w => Settling w ∧
    (∀ r, runJson w.history = some r → r.status ≠ "ok") ∧
    (finalError w.locals = none → w.locals.report.status = "ok")) ?_ fun _ => ?_
  · refine does_assign fun w hw => ?_
    -- status ok is where none of the three errors is there
    have hstatus : ∀ status,
        status = (if w.locals.operationError.isNone ∧ w.locals.restoreError.isNone then
        (if w.locals.peerRestoreError.isNone then "ok" else "failed") else w.locals.report.status) →
          status = "ok" →
        w.locals.operationError = none ∧ w.locals.restoreError = none ∧
        w.locals.peerRestoreError = none := by
      intro status heq hok
      subst heq
      split at hok
      · rename_i hnone
        split at hok
        · rename_i hnone'
          exact ⟨by simpa using hnone.1, by simpa using hnone.2, by simpa using hnone'⟩
        · exact absurd hok (by decide)
      · exact absurd hok hw.status
    refine ⟨⟨hw.target, hw.peerTarget, hw.output, fun r hr hok => absurd hok (hw.json r hr),
      fun hok => ?_⟩, hw.json, fun hfinal => ?_⟩
    · obtain ⟨hoperation, hrestore, hpeer⟩ := hstatus _ rfl hok
      exact ⟨hw.clean hoperation hrestore hpeer, hoperation, hw.verified hrestore,
        hw.peerVerified hpeer⟩
    · have hnone : w.locals.restoreError = none ∧ w.locals.peerRestoreError = none ∧
          w.locals.operationError = none :=
        finalError_none hfinal
      simp [hnone.1, hnone.2.1, hnone.2.2]
  · apply saveReport_does
    · exact fun w hw => { hw.1.written with
        final := fun hfinal => ⟨w.locals.report, by rw [runJson_concat]; rfl, hw.2.2 hfinal⟩ }
    · intro w e _ hw
      refine ⟨fun hback => ?_, fun hpeer => ?_, fun hon => ?_,
        fun r hr hok => absurd hok (hw.2.1 r ?_)⟩
      · exact (hw.1.target ((backedUp_kept rfl).mp hback)).imp_left happened_mono
      · exact (hw.1.peer ((peerBackedUp_kept rfl).mp hpeer)).imp_left happened_mono
      · exact hw.1.output ((outputOn_kept rfl).mp hon)
      · rw [runJson_concat] at hr
        exact hr

theorem recover_does (args : Args) :
    Does env Stopped (recover args) (fun _ => Concluded) Recovered := by
  refine triple_bind _ closeAcquisition_does fun _ => ?_
  refine triple_bind (fun backup => Spared fun w => Closed w ∧ backup = w.locals.backupReport)
    (does_locals fun _ hw => ⟨hw, rfl⟩) fun backup => ?_
  refine triple_bind _ (restore_does args backup) fun _ => ?_
  refine triple_bind (fun s => Spared fun w => Settled w ∧ s = w.locals) (does_locals
    fun _ hw => ⟨hw, rfl⟩) fun s => ?_
  refine triple_bind (fun _ => Spared Finished) ?_ fun _ => conclude_does
  exact triple_mono (restorePeer_does s) (fun _ hw => hw) (fun _ _ hw => hw) fun _ _ hw => hw.elim

/-- What still raises behind the status is fatal. -/
theorem visualize_does :
    Does env (fun w => Settling w ∧ ∃ r, runJson w.history = some r ∧ r.status = "ok") visualize
    (fun _ => Settling) fun _ => False := by
  apply triple_except (fun _ => Spared fun _ => False)
  · refine triple_bind (fun _ => Spared fun w => Settling w ∧ ∃ r, runJson w.history = some r ∧
      r.status = "ok") ?_ fun _ => ?_
    · apply does_ask
      · intro w a hw
        refine ⟨hw.1.ok rfl, ?_⟩
        obtain ⟨r, hr, hok⟩ := hw.2
        exact ⟨r, (runJson_kept rfl).trans hr, hok⟩
      · exact fun w e hfatal _ => hfatal trivial
    · exact saveReport_does (fun w hw => hw.1.written) fun w e hfatal hw => hfatal hw.2
  · intro e
    refine triple_bind (fun _ => Spared fun _ => False) (does_assign fun _ hw => hw) fun _ => ?_
    refine triple_bind (fun _ => Spared fun _ => False)
      (saveReport_does (fun _ hw => hw.elim) fun _ _ _ hw => hw.elim) fun _ => ?_
    exact does_raise fun _ hw => hw

/-- The run directory is all there is. -/
theorem newRun_only (outcome : Except Raised Unit) :
    ¬ BackedUp [⟨.newRun, outcome⟩] ∧ ¬ PeerBackedUp [⟨.newRun, outcome⟩] ∧
    ¬ OutputOn [⟨.newRun, outcome⟩] :=
  ⟨fun hback => happened_nil ((backedUp_kept (h := []) rfl).mp hback),
    fun hpeer => since_nil ((peerBackedUp_kept (h := []) rfl).mp hpeer),
    fun hon => pending_nil ((outputOn_kept (h := []) rfl).mp hon)⟩

theorem setting_newRun (u : Unit) : Setting ⟨{}, [⟨.newRun, .ok u⟩]⟩ := by
  obtain ⟨hunbacked, hunpeered, hoff⟩ := newRun_only (.ok u)
  have hstatus : "running" ≠ "ok" := by decide
  have hknown : Known ⟨{}, [⟨.newRun, .ok u⟩]⟩ := by
    refine ⟨hstatus, fun r hr => ?_, by
      simpa using hunbacked, fun hpeer => absurd hpeer hunpeered, fun path hpath => by cases hpath⟩
    cases hr
    exact hstatus
  have hclean : Clean [⟨.newRun, .ok u⟩] := by
    intro e he
    rw [List.mem_singleton.mp he]
    exact ⟨u, rfl⟩
  exact { hknown with
    on := fun hon => absurd hon hoff
    held := fun hflag => by cases hflag
    clean := hclean
    operation := rfl
    restored := rfl
    peerRestored := rfl
    fresh := hunpeered }

theorem command_does (float : String → Option Extended) (args : Args) :
    Does env (fun w => w = ⟨{}, []⟩) (command float args) (fun _ => Recovered) Recovered := by
  refine triple_bind (fun _ => Spared fun w => Setting w ∧ Idle w.locals) ?_ fun _ => ?_
  · apply does_ask
    · intro w u hw
      subst hw
      exact ⟨setting_newRun u, rfl, rfl, rfl⟩
    · intro w e _ hw
      subst hw
      obtain ⟨hunbacked, hunpeered, hoff⟩ := newRun_only (.error e)
      exact ⟨fun hback => absurd hback hunbacked, fun hpeer => absurd hpeer hunpeered, hoff,
        fun r hr => by cases hr⟩
  refine triple_bind (fun _ => Spared Concluded) ?_ fun _ => ?_
  · exact triple_finally (fun _ => Spared Stopped) (fun _ _ => False)
      (acquisition_stopped float args) (fun _ => recover_does args)
      fun _ _ hw => hw.elim
  refine triple_bind (fun s => Spared fun w => Concluded w ∧ s = w.locals) (does_locals
    fun _ hw => ⟨hw, rfl⟩) fun s => ?_
  refine triple_bind (fun _ => Spared fun w => Settling w ∧ ∃ r, runJson w.history = some r ∧
    r.status = "ok") ?_ fun _ => ?_
  · cases hfinal : finalError s with
    | some e => exact does_raise fun w hw => hw.1.recovered
    | none =>
      refine does_pure fun w hw => ⟨hw.1.toSettling, hw.1.final ?_⟩
      rw [← hw.2, hfinal]
  refine triple_bind (fun _ => Spared Settling) ?_ fun _ => ?_
  · exact does_mono visualize_does (fun _ hw => hw) (fun _ _ hw => hw) fun _ hw => hw.elim
  · exact does_ask (fun w a hw => (hw.ok rfl).recovered) fun w e hfatal _ => absurd trivial hfatal

end

/-- **The power suite recovers.** In every run in which nothing fatal raised, the restorations
are attempted once there is something to restore, no power-on is left without a power-off
behind it, and run.json says ok only with everything verified. -/
theorem power_suite_recovered (float : String → Option Extended) (args : Args)
    (env : Env Op Op.Ans Raised) (hsound : Sound (command float args env ⟨{}, []⟩).2.history) :
    Recovered (command float args env ⟨{}, []⟩).2 :=
  Ends.world (command_does float args) (fun _ => rfl) hsound

theorem Clean.sound {h : Past} (hclean : Clean h) : Sound h := by
  intro before op e after heq
  obtain ⟨a, ha⟩ := hclean ⟨op, .error e⟩ (by rw [heq]; simp)
  cases ha

theorem clean_of_all {h : Past} (hall : (h.all fun e => e.outcome.isOk) = true) : Clean h := by
  intro e he
  have hok := List.all_eq_true.mp hall e he
  cases houtcome : e.outcome with
  | ok a => exact ⟨a, rfl⟩
  | error x =>
    rw [houtcome] at hok
    cases hok

/-- What an event makes of the output. -/
def switched : Event Op Op.Ans Raised → Option Bool
  | ⟨.power _ on, _⟩ => some on
  | _ => none

theorem outputOn_of_switched {h : Past} (hlast : latest switched h = some true) : OutputOn h := by
  induction h using List.reverseRecOn with
  | nil => cases hlast
  | append_singleton h e ih =>
    obtain ⟨op, outcome⟩ := e
    rw [latest_concat] at hlast
    cases hop : op.switches with
    | false =>
      apply (outputOn_kept hop).mpr
      apply ih
      rw [← hlast]
      cases op <;> first | rfl | cases hop
    | true =>
      cases op with
      | power phase on =>
        cases hlast
        exact pending_concat.mpr (Or.inl ⟨phase, rfl⟩)
      | _ => cases hop

/-! ## A bench -/

def idleManifest : Value :=
  .dict [("soc", .str "nrf54lm20a"), ("debug_elf", .dict [("sha256", .str "")])]

/-- One profile, without a peer. -/
def idleArgs : Args where
  profile := ["idle=idle.json"]
  required := by simp
  voltageMv := 3000
  openocd := "openocd"
  scripts := "scripts"

/-- Everything answers, but for the power-ons that are refused. -/
def bench (refused : Phase → Bool) : Env Op Op.Ans Raised := fun _ op =>
  match op with
  | .resolve path => .ok path
  | .loadManifest _ => .ok idleManifest
  | .sha256 _ => .ok ""
  | .selectInstrument _ => .ok ⟨"/dev/ttyACM0", "BLU939"⟩
  | .child _ _ => .ok ⟨0, ["report.json"]⟩
  | .readReport _ _ => .ok (.dict [("status", .str "ok")])
  | .readTranscript _ | .readLog _ => .ok []
  | .resolveAlias selection => .ok selection
  | .runLogged _ _ => .ok ⟨0, .ok (.list [])⟩
  | .rounds => .ok 0
  | .isFile _ => .ok true
  | .poll _ => .ok none
  | .wait _ _ => .ok 0
  | .power phase true => if refused phase then
    .error ⟨"Blu939Error", "short BLU939 command write"⟩ else .ok ()
  | .newRun | .chmod _ | .atomicJson _ | .lock _ _ | .unlock | .openInstrument
    _ | .metadata | .power _ false | .configureVoltage _ |
    .capture _ _ | .decodeCapture _ | .summarizeCapture _ | .closeInstrument _ | .sleep _ | .mkdir
      _ | .openLog _ | .closeStream _ |
    .popen _ _ | .killpg _ | .unlink _ _ | .comparison | .generateReport | .print => .ok ()

/-- A raise that the cleanup takes: of the capture, or of the wait for a peer that does not
terminate. -/
def harmless : Event Op Op.Ans Raised → Bool
  | ⟨_, .ok _⟩ => true
  | ⟨.capture _ _, .error _⟩ => true
  | ⟨.wait .cleanup (some _), .error e⟩ => e.name = "TimeoutExpired"
  | _ => false

theorem sound_of_harmless {h : Past} (hall : h.all harmless = true) : Sound h := by
  intro before op e after heq hfatal
  have hlast : harmless ⟨op, .error e⟩ = true := List.all_eq_true.mp hall _ (by rw [heq]; simp)
  unfold harmless at hlast
  split at hlast
  · rename_i heq
    cases heq
  · rename_i heq
    cases heq
    exact hfatal
  · rename_i heq
    cases heq
    rcases hfatal with hnone | hother
    · cases hnone
    · exact hother (by simpa using hlast)
  · cases hlast

def attendedManifest : Value :=
  .dict [("soc", .str "nrf54l15"), ("board_version", .str "PCA10156"),
    ("device_family", .str "NRF54L_FAMILY"), ("core", .str "Application"),
      ("images", .list [.dict [("ranges", .list [.list [.int 0, .int 16]])]])]

/-- The profile with a peer. -/
def attendedArgs : Args := { idleArgs with peer := ["idle=peer.json"], peerProbe := some "peer" }

/-- The capture raises while the peer runs, and the peer outlives its SIGTERM. -/
def attendedBench : Env Op Op.Ans Raised := fun h op =>
  match op with
  | .loadManifest path => .ok (if path = "peer.json" then attendedManifest else idleManifest)
  | .capture _ _ => .error ⟨"Blu939Error", "BLU939 acquisition timed out"⟩
  | .wait .cleanup (some _) => .error ⟨"TimeoutExpired", "timed out after 3 seconds"⟩
  | op => bench (fun _ => false) h op

/-- A run in which nothing raises; and one in which the capture does, with the target and the
peer backed up: both are restored. -/
theorem power_suite_recovered_bench :
    Recovered (command (fun _ => none) idleArgs (bench fun _ => false) ⟨{}, []⟩).2 ∧
    Recovered (command (fun _ => none) attendedArgs attendedBench ⟨{}, []⟩).2 ∧
    ∃ report, (command (fun _ => none) attendedArgs attendedBench ⟨{}, []⟩).2.locals.report =
      report ∧ report.status = "failed" ∧
      report.error = some "Blu939Error: BLU939 acquisition timed out" ∧ report.backupReport.isSome ∧
      report.peerBackup.isSome ∧
      report.restoreVerified = true ∧ report.peerRestoreVerified = true :=
  ⟨power_suite_recovered (fun _ => none) idleArgs (bench fun _ => false)
    (clean_of_all (by decide +kernel)).sound, power_suite_recovered (fun _ => none) attendedArgs
    attendedBench (sound_of_harmless (by decide +kernel)), _, rfl, by decide +kernel⟩

/-- A power-on that raises is not followed by a power-off: its flag is set behind it. -/
theorem refused_power_on_left :
    ¬ Recovered (command (fun _ => none) idleArgs (bench fun phase => phase = .setup) ⟨{}, []⟩).2 :=
  fun h => h.output (outputOn_of_switched (by decide +kernel))

end NrfKit.Tools.PowerSuite
