import NrfKit.Tools.Cli

/- Bond clear ends cleared, restored or with its restoration error on record, whatever
   raises and whatever a failed programming command leaves in the settings region. What can
   still go wrong is the last write of run.json, where the restoration failed as well. -/
namespace NrfKit.Tools.Cli
open Effects Prog Python

abbrev Past := History Op Op.Ans Raised

abbrev Run := World Op Op.Ans Raised Locals

/-- What an event leaves in run.json. -/
def written : Event Op Op.Ans Raised → Option Report
  | ⟨.newRun, .ok _⟩ => some {}
  | ⟨.atomicJson report, .ok _⟩ => some report
  | _ => none

/-- run.json as it was last written. -/
def runJson (h : Past) : Option Report := latest written h

def Op.programs (op : Op) : Prop :=
  ∃ image serial family core log, op = .runLogged (.program image serial family core) log

def Programmed (h : Past) : Prop := Happened (fun e => e.op.programs) h

/-- A successful read of the settings region into a file. -/
def ReadsOut (path : String) (e : Event Op Op.Ans Raised) : Prop :=
  ∃ serial family core log, ∃ out : Output,
    e = ⟨.runLogged (.read path serial family core m6SettingsStart m6SettingsSize) log, .ok out⟩ ∧
    out.returncode = 0

/-- The settings region was read out after the last programming command. -/
def Fresh (path : String) (h : Past) : Prop := Since (fun _ e => ReadsOut path e) Op.programs h

/-- The settings were read back, after the last programming command, as these bytes. -/
def ReadBack (path : String) (bytes : List UInt8) (h : Past) : Prop :=
  Since (fun before e => Fresh path before ∧ ∃ data : List UInt8, e = ⟨.readFile path, .ok data⟩ ∧
    settingsBytes data = .ok bytes)
    Op.programs h

def Erased (h : Past) : Prop := ReadBack "settings-after.hex" (List.replicate m6SettingsSize 0xff) h

def ResetDone (h : Past) : Prop :=
  Happened (fun e => ∃ serial family core kind log, ∃ out : Output,
    e = ⟨.runLogged (.reset serial family core kind) log, .ok out⟩ ∧ out.returncode = 0) h

/-- The report has the attempt of a restoration and its error. -/
def Report.recordsAttempt (r : Report) : Prop :=
  r.restoreError ≠ none ∧ ∃ cleanup, r.cleanup = some cleanup ∧ cleanup.restoreAttempted = true

/-- The four ends of the claim. -/
inductive Recovered (w : Run) : Prop where
  | untouched (h : ¬ Programmed w.history)
  | cleared (hflag : w.locals.clearVerified = true) (h : Erased w.history)
  | restored (original : List UInt8) (hflag : w.locals.restoreVerified = true)
    (hbytes : w.locals.original = some original)
      (h : ReadBack "settings-restored.hex" original w.history)
  | recorded (r : Report) (hjson : runJson w.history = some r) (h : r.recordsAttempt)

/-- The last write of run.json failed, with the attempt and its error in the report. -/
def Unwritten (h : Past) : Prop :=
  ∃ before r e, h = before ++ [⟨.atomicJson r, .error e⟩] ∧ r.recordsAttempt

/-- Status ok is on record only with the settings erased and the target reset. -/
def OkVerified (w : Run) : Prop :=
  ∀ r, runJson w.history = some r → r.status = "ok" → r.clearVerified = true ∧ Erased w.history ∧
    ResetDone w.history

/-! ## What the operations add -/

/-- Operations that neither write run.json nor program. -/
def Op.plain : Op → Bool
  | newRun | atomicJson _ | runLogged (.program _ _ _ _) _ => false
  | _ => true

theorem not_programs {op : Op} (hop : op.plain = true) : ¬ op.programs := by
  intro ⟨_, _, _, _, _, heq⟩
  rw [heq] at hop
  cases hop

section
variable {op : Op} {outcome : Except Raised op.Ans} {h : Past}

theorem runJson_concat (h : Past) (e : Event Op Op.Ans Raised) :
    runJson (h ++ [e]) = (written e).or (runJson h) :=
  latest_concat written

theorem runJson_plain (hop : op.plain = true) : runJson (h ++ [⟨op, outcome⟩]) = runJson h := by
  rw [runJson_concat]
  cases op <;> cases outcome <;> first | rfl | cases hop

theorem programmed_concat : Programmed (h ++ [⟨op, outcome⟩]) ↔ Programmed h ∨ op.programs :=
  happened_concat

theorem fresh_concat {path : String} (hop : ¬ op.programs) (hold : Fresh path h) :
    Fresh path (h ++ [⟨op, outcome⟩]) :=
  since_concat.mpr (Or.inr ⟨hold, hop⟩)

theorem readBack_concat {path : String} {bytes : List UInt8} (hop : ¬ op.programs)
    (hold : ReadBack path bytes h) :
    ReadBack path bytes (h ++ [⟨op, outcome⟩]) := since_concat.mpr (Or.inr ⟨hold, hop⟩)

end

theorem atomicJson_programs (r : Report) : ¬ (Op.atomicJson r).programs := by
  intro ⟨_, _, _, _, _, heq⟩
  cases heq

variable {env : Env Op Op.Ans Raised} {I : Run → Prop}

/-- `I` outlives every operation that neither writes run.json nor programs. -/
def Stable (I : Run → Prop) : Prop :=
  ∀ (w : Run) (op : Op) (outcome : Except Raised op.Ans), op.plain = true → I w →
    I { w with history := w.history ++ [⟨op, outcome⟩] }

theorem keeps_ask {op : Op} (hI : Stable I) (hop : op.plain = true) : Keeps env I (ask op) :=
  keeps_perform fun w outcome h => hI w op outcome hop h

theorem keeps_lift {α : Type} (m : Except Raised α) : Keeps env I (lift m) := by
  cases m with
  | ok a => exact keeps_pure a
  | error e => exact keeps_raise e

theorem stable_fresh (hI : Stable I) (path : String) : Stable fun w => I w ∧ Fresh path w.history :=
  fun w op outcome hop h => ⟨hI w op outcome hop h.1, fresh_concat (not_programs hop) h.2⟩

theorem keeps_withLock {α : Type} {P : Run → Prop} {Q : α → Run → Prop} {E : Raised → Run → Prop}
    {serial operation : String} {body : Session α} (hP : Stable P) (hQ : ∀ a, Stable (Q a))
    (hE : ∀ e, Stable (E e)) (hraised : ∀ e w, P w → E e w) (hlast : ∀ a e w, Q a w → E e w)
    (hE' : ∀ e e' w, E e w → E e' w) (hbody : Triple env P body Q E) :
    Triple env P (withLock serial operation body) Q E := by
  refine keeps_then (keeps_ask hP rfl) hraised fun _ => ?_
  apply triple_finally Q E hbody
  · intro a
    exact triple_perform (fun w _ h => hQ a w _ _ rfl h) fun w e h => hE e _ _ _ rfl (hlast a e w h)
  · intro e
    exact triple_perform (fun w _ h => hE e w _ _ rfl h) fun w e' h =>
      hE e' _ _ _ rfl (hE' e e' w h)

section
variable (hI : Stable I)
include hI

theorem keeps_readData (path : String) : Keeps env I (readData path) := by
  apply keeps_except
  · exact keeps_bind (keeps_ask hI rfl) fun _ => keeps_pure _
  · exact fun e => keeps_ite (keeps_pure _) (keeps_raise e)

theorem keeps_requireExact (path : String) : Keeps env I (requireExact path) :=
  keeps_bind (keeps_readData hI path) fun _ => keeps_lift _

/-- The settings that are read out are what a fresh read of the region left in the file. -/
theorem readM6Settings_readBack (manifest device : Value) (output log : String) :
    Triple env I (readM6Settings manifest device output log) (fun bytes w => I w ∧
      ReadBack output bytes w.history) (fun _ => I) := by
  have hraised : ∀ (e : Raised) (w : Run), I w → I w := fun _ _ h => h
  have hfresh : ∀ (e : Raised) (w : Run), I w ∧ Fresh output w.history → I w := fun _ _ h => h.1
  refine keeps_then (keeps_lift _) hraised fun serial => ?_
  refine keeps_then (keeps_lift _) hraised fun target => ?_
  refine triple_bind (fun result w => I w ∧ (result.returncode = 0 → Fresh output w.history)) ?_
    fun result => ?_
  · apply triple_perform
    · intro w out h
      refine ⟨hI w _ _ rfl h, fun hcode => since_concat.mpr (Or.inl ?_)⟩
      exact ⟨serial, target.1, target.2, log, out, rfl, hcode⟩
    · exact fun w e h => hI w _ _ rfl h
  refine triple_bind (fun _ w => I w ∧ Fresh output w.history) ?_ fun _ => ?_
  · apply triple_when
    · exact fun _ => triple_raise fun _ h => h.1
    · exact fun hcode w h => ⟨h.1, h.2 (by simpa using hcode)⟩
  refine keeps_then (keeps_ask (stable_fresh hI output) rfl) hfresh fun _ => ?_
  refine keeps_then (keeps_requireExact (stable_fresh hI output) output) hfresh fun _ => ?_
  refine triple_bind (fun data w => I w ∧ ∀ bytes, settingsBytes data = .ok bytes →
    ReadBack output bytes w.history) ?_ fun data => ?_
  · apply triple_perform
    · intro w data h
      exact ⟨hI w _ _ rfl h.1, fun bytes hbytes =>
        since_concat.mpr (Or.inl ⟨h.2, data, rfl, hbytes⟩)⟩
    · exact fun w e h => hI w _ _ rfl h.1
  · cases hbytes : settingsBytes data with
    | ok bytes => exact triple_pure fun w h => ⟨h.1, h.2 bytes rfl⟩
    | error e => exact triple_raise fun w h => h.1

end

/-! ## Until the settings are verified -/

/-- Nothing says ok. -/
structure Silent (w : Run) : Prop where
  status : w.locals.report.status ≠ "ok"
  json : ∀ r, runJson w.history = some r → r.status ≠ "ok"

/-- The settings are not verified as erased. Where a programming command was issued, what the
recovery needs is known. -/
structure Open (w : Run) : Prop extends Silent w where
  flag : w.locals.clearVerified = false
  known : Programmed w.history → w.locals.manifest.isSome ∧ w.locals.device.isSome ∧
    w.locals.original.isSome

/-- The settings read back as erased. -/
structure Cleared (w : Run) : Prop extends Silent w where
  flag : w.locals.clearVerified = true
  erased : Erased w.history

theorem Silent.plain : Stable Silent := by
  intro w op outcome hop h
  refine ⟨h.status, fun r hr => h.json r ?_⟩
  rw [← hr]
  exact (runJson_plain hop).symm

theorem Open.plain : Stable Open := by
  intro w op outcome hop h
  refine { Silent.plain w op outcome hop h.toSilent with flag := h.flag, known := fun hnew => ?_ }
  rcases programmed_concat.mp hnew with hold | hlast
  · exact h.known hold
  · exact absurd hlast (not_programs hop)

theorem Cleared.plain : Stable Cleared := fun w op outcome hop h =>
  { Silent.plain w op outcome hop h.toSilent
    with flag := h.flag, erased := readBack_concat (not_programs hop) h.erased }

theorem runJson_report {h : Past} {r r' : Report} {outcome : Except Raised Unit}
    (hr : runJson (h ++ [⟨.atomicJson r, outcome⟩]) = some r') : r' = r ∨ runJson h = some r' := by
  rw [runJson_concat] at hr
  cases outcome with
  | ok u =>
    cases hr
    exact Or.inl rfl
  | error e => exact Or.inr hr

/-- The report is written, or not. -/
theorem Silent.written {w : Run} (h : Silent w) (outcome : Except Raised Unit) :
    Silent { w with history := w.history ++ [⟨.atomicJson w.locals.report, outcome⟩] } := by
  refine ⟨h.status, fun r hr => ?_⟩
  rcases runJson_report hr with rfl | hold
  · exact h.status
  · exact h.json r hold

theorem Open.written {w : Run} (h : Open w) (outcome : Except Raised Unit) :
    Open { w with history := w.history ++ [⟨.atomicJson w.locals.report, outcome⟩] } := by
  refine { h.toSilent.written outcome with flag := h.flag, known := fun hnew => ?_ }
  rcases programmed_concat.mp hnew with hold | hlast
  · exact h.known hold
  · exact absurd hlast (atomicJson_programs _)

theorem Cleared.written {w : Run} (h : Cleared w) (outcome : Except Raised Unit) :
    Cleared { w with history := w.history ++ [⟨.atomicJson w.locals.report, outcome⟩] } :=
  { h.toSilent.written outcome
    with flag := h.flag, erased := readBack_concat (atomicJson_programs _) h.erased }

theorem keeps_stage (name : String)
    (hreport : ∀ w, I w → I { w with locals := { w.locals with report :=
      { w.locals.report with stages := w.locals.report.stages ++ [name] } } })
    (hwritten : ∀ w outcome, I w →
      I { w with history := w.history ++ [⟨.atomicJson w.locals.report, outcome⟩] }) :
    Keeps env I (stage name) := by
  apply keeps_bind (keeps_assign hreport)
  intro _ w hw
  have hany := hwritten w (env w.history (.atomicJson w.locals.report)) hw
  unfold saveReport ask perform
  cases hanswer : env w.history (.atomicJson w.locals.report) with
  | ok u =>
    rw [hanswer] at hany
    simpa [Bind.bind, Prog.bind, Prog.locals, hanswer] using hany
  | error e =>
    rw [hanswer] at hany
    simpa [Bind.bind, Prog.bind, Prog.locals, hanswer] using hany

theorem cleared_stage (name : String) : Keeps env Cleared (stage name) :=
  keeps_stage name (fun _ h => { h with }) fun _ outcome h => h.written outcome

/-- The manifest is loaded. -/
structure Loaded (w : Run) : Prop extends Open w where
  manifest : w.locals.manifest.isSome

/-- The device is selected as well. -/
structure Selected (w : Run) : Prop extends Loaded w where
  device : w.locals.device.isSome

/-- The backup is read as well. -/
structure Backed (w : Run) : Prop extends Selected w where
  original : w.locals.original.isSome

theorem Loaded.plain : Stable Loaded :=
  fun w op outcome hop h => { h with toOpen := Open.plain w op outcome hop h.toOpen }

theorem Selected.plain : Stable Selected := fun w op outcome hop h =>
  { h with toLoaded := Loaded.plain w op outcome hop h.toLoaded }

theorem Backed.plain : Stable Backed := fun w op outcome hop h =>
  { h with toSelected := Selected.plain w op outcome hop h.toSelected }

theorem loaded_stage (name : String) : Keeps env Loaded (stage name) :=
  keeps_stage name (fun _ h => { h with }) fun _ outcome h =>
    { h with toOpen := h.toOpen.written outcome }

theorem selected_stage (name : String) : Keeps env Selected (stage name) :=
  keeps_stage name (fun _ h => { h with }) fun _ outcome h =>
    { h with toOpen := h.toOpen.written outcome }

theorem backed_stage (name : String) : Keeps env Backed (stage name) :=
  keeps_stage name (fun _ h => { h with }) fun _ outcome h =>
    { h with toOpen := h.toOpen.written outcome }

/-- A programming command with the backup read. -/
theorem programImage_backed (image serial : String) (manifest : Value) (log : String) :
    Keeps env Backed (programImage image serial manifest log) := by
  apply keeps_bind (keeps_lift _)
  intro target
  apply keeps_bind
  · apply keeps_perform
    intro w outcome h
    refine { h with status := h.status, json := fun r hr => h.json r ?_, known := fun _ =>
      ⟨h.manifest, h.device, h.original⟩ }
    rw [← hr]
    show runJson w.history = runJson (w.history ++ _)
    rw [runJson_concat]
    cases outcome <;> rfl
  · exact fun result => keeps_pure _

/-- Before the body is through: not verified, or read back as erased. -/
def Begun (w : Run) : Prop := Open w ∨ Cleared w

theorem clearSettings_cleared (manifest device : Value) (args : Args) :
    Triple env Selected (clearSettings manifest device args)
    (fun _ w => Cleared w ∧ ResetDone w.history) (fun _ => Begun) := by
  have hselected : ∀ (e : Raised) (w : Run), Selected w → Begun w := fun _ _ h => Or.inl h.toOpen
  have hbacked : ∀ (e : Raised) (w : Run), Backed w → Begun w := fun _ _ h => Or.inl h.toOpen
  have hcleared : ∀ (e : Raised) (w : Run), Cleared w → Begun w := fun _ _ h => Or.inr h
  refine keeps_then (keeps_lift _) hselected fun serial => ?_
  refine keeps_then (selected_stage _) hselected fun _ => ?_
  -- From here on the original is known, and programming may begin.
  refine triple_bind (fun _ => Selected) ?_ fun original => ?_
  · exact triple_mono (readM6Settings_readBack Selected.plain manifest device _ _) (fun _ h => h)
      (fun _ _ h => h.1) hselected
  refine triple_bind (fun _ => Backed) ?_ fun _ => ?_
  · exact triple_assign fun w h =>
      { h with known := fun hp => ⟨h.manifest, h.device, rfl⟩, original := rfl }
  refine keeps_then (@keeps_ask env _ (.sha256 "settings-before.hex") Backed.plain rfl)
    hbacked fun _ => ?_
  refine keeps_then (backed_stage _) hbacked fun _ => ?_
  refine keeps_then (keeps_bind (keeps_ask Backed.plain rfl) fun _ =>
    keeps_requireExact Backed.plain _) hbacked fun _ => ?_
  refine keeps_then (keeps_ask Backed.plain rfl) hbacked fun _ => ?_
  refine keeps_then (keeps_requireExact Backed.plain _) hbacked fun _ => ?_
  refine keeps_then (programImage_backed _ _ _ _) hbacked fun returncode => ?_
  refine keeps_then (keeps_when (keeps_raise _)) hbacked fun _ => ?_
  -- What was erased is read back and compared before the flag is set.
  refine triple_bind (fun bytes w => Backed w ∧ ReadBack "settings-after.hex" bytes w.history) ?_
    fun cleared => ?_
  · exact triple_mono (readM6Settings_readBack Backed.plain manifest device _ _) (fun _ h => h)
      (fun _ _ h => h) hbacked
  refine triple_bind (fun _ w => Backed w ∧ Erased w.history) ?_ fun _ => ?_
  · apply triple_when
    · exact fun _ => triple_raise fun w h => hbacked (toolError "") w h.1
    · intro hsame w h
      have hequal : cleared = List.replicate m6SettingsSize 0xff := by simpa using hsame
      rw [hequal] at h
      exact h
  refine triple_bind (fun _ => Cleared) ?_ fun _ => ?_
  · exact triple_assign fun w h => { h.1 with flag := rfl, erased := h.2 }
  refine keeps_then (cleared_stage _) hcleared fun _ => ?_
  refine keeps_then (keeps_lift _) hcleared fun target => ?_
  refine triple_bind (fun result w => Cleared w ∧ (result.returncode = 0 → ResetDone w.history)) ?_
    fun result => ?_
  · apply triple_perform
    · intro w out h
      refine ⟨Cleared.plain w _ _ rfl h, fun hcode => happened_concat.mpr (Or.inr ?_)⟩
      exact ⟨serial, target.1, target.2, args.resetKind, "reset.log", out, rfl, hcode⟩
    · exact fun w e h => Or.inr (Cleared.plain w _ _ rfl h)
  refine triple_bind (fun _ w => Cleared w ∧ ResetDone w.history) ?_ fun _ => ?_
  · apply triple_when
    · exact fun _ => triple_raise fun w h => Or.inr h.1
    · exact fun hcode w h => ⟨h.1, h.2 (by simpa using hcode)⟩
  have hstage : Keeps env (fun w => Cleared w ∧ ResetDone w.history) (stage "reset") :=
    keeps_stage "reset" (fun _ h => ⟨{ h.1 with }, h.2⟩) fun _ outcome h =>
      ⟨h.1.written outcome, happened_mono h.2⟩
  exact triple_mono hstage (fun _ h => h) (fun _ _ h => h) fun _ _ h => Or.inr h.1

/-! ## The body -/

/-- The body went through: only now may the report say ok. -/
structure Succeeded (w : Run) : Prop where
  flag : w.locals.clearVerified = true
  erased : Erased w.history
  reset : ResetDone w.history
  report : w.locals.report.clearVerified = true
  json : ∀ r, runJson w.history = some r → r.status ≠ "ok"

theorem keeps_enumerate (hI : Stable I) : Keeps env I enumerate := by
  apply keeps_bind (keeps_ask hI rfl)
  intro result
  apply keeps_bind (keeps_when (keeps_raise _))
  intro _
  apply keeps_bind (keeps_lift _)
  intro devices
  split
  · exact keeps_pure _
  · exact keeps_raise _

theorem keeps_select (hI : Stable I) (manifest : Value) (args : Args) :
    Keeps env I (select manifest args) := by
  apply keeps_bind (keeps_enumerate hI)
  intro devices
  apply keeps_bind (keeps_lift _)
  intro board
  exact keeps_bind (keeps_ask hI rfl) fun serial => keeps_lift _

theorem keeps_initializeDeviceReport (hI : Stable I) (hstage : Keeps env I (stage "manifest-audit"))
    (args : Args) (manifest : Value) :
    Keeps env I (initializeDeviceReport args manifest) := by
  apply keeps_bind (keeps_ask hI rfl)
  intro _
  apply keeps_bind (keeps_lift _)
  intro _
  apply keeps_bind (keeps_lift _)
  intro _
  exact keeps_bind (keeps_ask hI rfl) fun _ => hstage

theorem stable_or {J : Run → Prop} (hI : Stable I) (hJ : Stable J) : Stable fun w => I w ∨ J w :=
  fun w op outcome hop h => h.imp (hI w op outcome hop) (hJ w op outcome hop)

theorem bondClearBody_ends (args : Args) :
    Triple env Open (bondClearBody args) (fun _ => Succeeded) (fun _ => Begun) := by
  have hopen : ∀ (e : Raised) (w : Run), Open w → Begun w := fun _ _ h => Or.inl h
  have hloaded : ∀ (e : Raised) (w : Run), Loaded w → Begun w := fun _ _ h => Or.inl h.toOpen
  have hselected : ∀ (e : Raised) (w : Run), Selected w → Begun w := fun _ _ h => Or.inl h.toOpen
  refine keeps_then (keeps_when (keeps_raise _)) hopen fun _ => ?_
  refine keeps_then (@keeps_ask env _ (.loadManifest args.manifest) Open.plain rfl) hopen
    fun manifest => ?_
  refine triple_bind (fun _ => Loaded) ?_ fun _ => ?_
  · exact triple_assign fun w h =>
      { h with known := fun hp => ⟨rfl, (h.known hp).2⟩, manifest := rfl }
  refine keeps_then (keeps_lift _) hloaded fun _ => ?_
  refine keeps_then (keeps_lift _) hloaded fun _ => ?_
  refine keeps_then (keeps_initializeDeviceReport Loaded.plain (loaded_stage _) args manifest)
    hloaded fun _ => ?_
  refine keeps_then (keeps_select Loaded.plain manifest args) hloaded fun device => ?_
  refine triple_bind (fun _ => Selected) ?_ fun _ => ?_
  · exact triple_assign fun w h =>
      { h with known := fun hp => ⟨h.manifest, rfl, (h.known hp).2.2⟩, device := rfl }
  refine keeps_then (selected_stage _) hselected fun _ => ?_
  refine keeps_then (keeps_lift _) hselected fun serial => ?_
  refine triple_bind (fun _ w => Cleared w ∧ ResetDone w.history) ?_ fun _ => ?_
  · have hstable : Stable fun w => Cleared w ∧ ResetDone w.history :=
      fun w op outcome hop h => ⟨Cleared.plain w op outcome hop h.1, happened_mono h.2⟩
    exact keeps_withLock Selected.plain (fun _ => hstable) (fun _ =>
      stable_or Open.plain Cleared.plain) hselected
      (fun _ _ _ h => Or.inr h.1) (fun _ _ _ h => h) (clearSettings_cleared manifest device args)
  · exact triple_assign fun w h => ⟨h.1.flag, h.1.erased, h.2, rfl, h.1.json⟩

/-! ## The recovery -/

/-- The recovery goes on. -/
structure Restoring (original : List UInt8) (w : Run) : Prop extends Silent w where
  bytes : w.locals.original = some original
  attempted : w.locals.restoreAttempted = true

/-- How the recovery, or the lack of one, leaves the settings. -/
inductive Decided (w : Run) : Prop where
  | untouched (h : ¬ Programmed w.history)
  | cleared (hflag : w.locals.clearVerified = true) (h : Erased w.history)
  | restored (original : List UInt8) (hflag : w.locals.restoreVerified = true)
    (hbytes : w.locals.original = some original)
      (h : ReadBack "settings-restored.hex" original w.history)
  | attempted (hflag : w.locals.restoreAttempted = true) (h : w.locals.report.restoreError ≠ none)

theorem Restoring.plain (original : List UInt8) : Stable (Restoring original) :=
  fun w op outcome hop h =>
  { Silent.plain w op outcome hop h.toSilent with bytes := h.bytes, attempted := h.attempted }

theorem programImage_restoring (original : List UInt8) (image serial : String) (manifest : Value)
    (log : String) :
    Keeps env (Restoring original) (programImage image serial manifest log) := by
  apply keeps_bind (keeps_lift _)
  intro target
  apply keeps_bind
  · apply keeps_perform
    intro w outcome h
    refine { h with status := h.status, json := fun r hr => h.json r ?_ }
    rw [← hr]
    show runJson w.history = runJson (w.history ++ _)
    rw [runJson_concat]
    cases outcome <;> rfl
  · exact fun result => keeps_pure _

theorem restoreSettings_verified (manifest device : Value) (original : List UInt8) :
    Triple env (Restoring original) (restoreSettings manifest device original)
      (fun _ w => Restoring original w ∧ w.locals.restoreVerified = true ∧
        ReadBack "settings-restored.hex" original w.history)
      (fun _ => Restoring original) := by
  have hraised : ∀ (e : Raised) (w : Run), Restoring original w → Restoring original w :=
    fun _ _ h => h
  have hI : Stable (Restoring original) := Restoring.plain original
  have hQ : Stable fun w => Restoring original w ∧ w.locals.restoreVerified = true ∧
      ReadBack "settings-restored.hex" original w.history :=
    fun w op outcome hop h =>
      ⟨hI w op outcome hop h.1, h.2.1, readBack_concat (not_programs hop) h.2.2⟩
  refine keeps_then (keeps_lift _) hraised fun serial => ?_
  apply keeps_withLock hI (fun _ => hQ) (fun _ => hI) hraised (fun _ _ _ h => h.1) fun _ _ _ h => h
  refine keeps_then (keeps_requireExact hI _) hraised fun _ => ?_
  refine keeps_then (programImage_restoring original _ _ _ _) hraised fun returncode => ?_
  refine keeps_then (keeps_when (keeps_raise _)) hraised fun _ => ?_
  refine triple_bind (fun bytes w => Restoring original w ∧
    ReadBack "settings-restored.hex" bytes w.history)
    (readM6Settings_readBack hI manifest device _ _) fun restored => ?_
  refine triple_bind (fun _ w => Restoring original w ∧
    (restored = original → w.locals.restoreVerified = true) ∧
    ReadBack "settings-restored.hex" restored w.history) ?_ fun _ => ?_
  · exact triple_assign fun w h => ⟨{ h.1 with }, fun hsame => by simp [hsame], h.2⟩
  · apply triple_when
    · exact fun _ => triple_raise fun w h => h.1
    · intro hsame w h
      have hequal : restored = original := by simpa using hsame
      rw [hequal] at h
      exact ⟨h.1, h.2.1 rfl, h.2.2⟩

theorem restoreAfter_decided (s : Locals) :
    Triple env (fun w => Begun w ∧ s = w.locals) (restoreAfter s)
    (fun _ w => Silent w ∧ Decided w) (fun _ _ => False) := by
  -- Nothing is restored only where nothing was programmed, or the clear was verified.
  have hskip : ∀ w, Begun w ∧ s = w.locals →
      (s.clearVerified = false → s.original = none ∨ s.device = none ∨ s.manifest = none) →
      Silent w ∧ Decided w := by
    intro w h hnone
    obtain ⟨hbegun, rfl⟩ := h
    rcases hbegun with hopen | hcleared
    · refine ⟨hopen.toSilent, .untouched fun hprogrammed => ?_⟩
      obtain ⟨hmanifest, hdevice, horiginal⟩ := hopen.known hprogrammed
      rcases hnone hopen.flag with h | h | h
      · rw [h] at horiginal
        cases horiginal
      · rw [h] at hdevice
        cases hdevice
      · rw [h] at hmanifest
        cases hmanifest
    · exact ⟨hcleared.toSilent, .cleared hcleared.flag hcleared.erased⟩
  unfold restoreAfter
  split
  · rename_i original device manifest hflag horiginal hdevice hmanifest
    refine triple_bind (fun _ => Restoring original) ?_ fun _ => ?_
    · apply triple_assign
      intro w h
      obtain ⟨hbegun, rfl⟩ := h
      have hsilent : Silent w := hbegun.elim Open.toSilent Cleared.toSilent
      exact { hsilent with bytes := horiginal, attempted := rfl }
    · refine triple_except (fun _ => Restoring original) ?_ fun e => ?_
      · refine triple_mono (restoreSettings_verified manifest device original) (fun _ h => h) ?_
          fun _ _ h => h
        exact fun _ w h => ⟨h.1.toSilent, .restored original h.2.1 h.1.bytes h.2.2⟩
      · exact triple_assign fun w h => ⟨{ h.toSilent with }, .attempted h.attempted nofun⟩
  · rename_i hcases
    apply triple_pure
    intro w h
    apply hskip w h
    intro hflag
    cases horiginal : s.original with
    | none => exact Or.inl rfl
    | some original =>
      cases hdevice : s.device with
      | none => exact Or.inr (Or.inl rfl)
      | some device =>
        cases hmanifest : s.manifest with
        | none => exact Or.inr (Or.inr rfl)
        | some manifest =>
          exact absurd hmanifest
            (by simpa using hcases original device manifest hflag horiginal hdevice)

/-! ## The command -/

/-- One of the four ends, or the last write of run.json failed; and ok is only on record with
the settings verified as erased and the target reset. -/
def Accounted (w : Run) : Prop := (Recovered w ∨ Unwritten w.history) ∧ OkVerified w

theorem bondClearFailed_decided (e : Raised) :
    Triple env Begun (bondClearFailed e) (fun _ _ => False) (fun _ w => Silent w ∧ Decided w) := by
  refine triple_bind (fun s w => Begun w ∧ s = w.locals) (triple_locals
    fun w h => ⟨h, rfl⟩) fun s => ?_
  refine triple_bind (fun _ w => Silent w ∧ Decided w) ?_ fun _ => ?_
  · exact triple_mono (restoreAfter_decided s) (fun _ h => h) (fun _ _ h => h) fun _ _ h => h.elim
  refine triple_bind (fun _ w => Silent w ∧ Decided w) ?_ fun _ => triple_raise fun _ h => h
  apply triple_assign
  intro w h
  have hstatus : "failed" ≠ "ok" := by decide
  refine ⟨⟨hstatus, h.1.json⟩, ?_⟩
  cases h.2 with
  | untouched h => exact .untouched h
  | cleared hflag h => exact .cleared hflag h
  | restored original hflag hbytes h => exact .restored original hflag hbytes h
  | attempted hflag h => exact .attempted hflag h

theorem programmed_json {h : Past} {r : Report} {outcome : Except Raised Unit}
    (hold : ¬ Programmed h) :
    ¬ Programmed (h ++ [⟨.atomicJson r, outcome⟩]) := by
  intro hnew
  rcases programmed_concat.mp hnew with hpast | hlast
  · exact hold hpast
  · exact atomicJson_programs r hlast

/-- The cleanup behind a failure. -/
theorem bondClearCleanup_failed : Triple env (fun w => Silent w ∧ Decided w) bondClearCleanup
    (fun _ => Accounted) (fun _ => Accounted) := by
  have hwrite : ∀ (w : Run) (outcome : Except Raised Unit), Silent w → Decided w →
      (∃ cleanup, w.locals.report.cleanup = some cleanup ∧
        cleanup.restoreAttempted = w.locals.restoreAttempted) →
      Accounted { w with history := w.history ++ [⟨.atomicJson w.locals.report, outcome⟩] } := by
    intro w outcome hsilent hdecided hcleanup
    refine ⟨?_, fun r hr hok => absurd hok ((hsilent.written outcome).json r hr)⟩
    cases hdecided with
    | untouched h => exact Or.inl (.untouched (programmed_json h))
    | cleared hflag h => exact Or.inl (.cleared hflag (readBack_concat (atomicJson_programs _) h))
    | restored original hflag hbytes h =>
      exact Or.inl (.restored original hflag hbytes (readBack_concat (atomicJson_programs _) h))
    | attempted hflag h =>
      obtain ⟨cleanup, hsome, hsame⟩ := hcleanup
      have hrecords : w.locals.report.recordsAttempt := ⟨h, cleanup, hsome, by rw [hsame, hflag]⟩
      cases outcome with
      | ok u => exact Or.inl (.recorded w.locals.report (by rw [runJson_concat]; rfl) hrecords)
      | error e => exact Or.inr ⟨w.history, w.locals.report, e, rfl, hrecords⟩
  refine triple_bind (fun _ w => Silent w ∧ Decided w ∧
    ∃ cleanup, w.locals.report.cleanup = some cleanup ∧
      cleanup.restoreAttempted = w.locals.restoreAttempted) ?_ fun _ => ?_
  · apply triple_assign
    intro w h
    refine ⟨{ h.1 with }, ?_, _, rfl, rfl⟩
    cases h.2 with
    | untouched h => exact .untouched h
    | cleared hflag h => exact .cleared hflag h
    | restored original hflag hbytes h => exact .restored original hflag hbytes h
    | attempted hflag h => exact .attempted hflag h
  refine triple_bind (fun r w =>
    (Silent w ∧ Decided w ∧ ∃ cleanup, w.locals.report.cleanup = some cleanup ∧
    cleanup.restoreAttempted = w.locals.restoreAttempted) ∧
      r = w.locals.report) (triple_locals fun w h => ⟨h, rfl⟩) fun r => ?_
  apply triple_perform
  · intro w u h
    obtain ⟨h, rfl⟩ := h
    exact hwrite w (.ok u) h.1 h.2.1 h.2.2
  · intro w e h
    obtain ⟨h, rfl⟩ := h
    exact hwrite w (.error e) h.1 h.2.1 h.2.2

/-- Behind a body that went through. -/
structure Ended (w : Run) : Prop where
  flag : w.locals.clearVerified = true
  erased : Erased w.history
  reset : ResetDone w.history
  report : w.locals.report.clearVerified = true
  json : ∀ r, runJson w.history = some r → r.status = "ok" → r.clearVerified = true

theorem Ended.accounted {w : Run} (h : Ended w) : Accounted w :=
  ⟨Or.inl (.cleared h.flag h.erased), fun r hr hok => ⟨h.json r hr hok, h.erased, h.reset⟩⟩

theorem ended_saveReport : Keeps env Ended saveReport := by
  have hwrite : ∀ (w : Run) (outcome : Except Raised Unit), Ended w →
      Ended { w with history := w.history ++ [⟨.atomicJson w.locals.report, outcome⟩] } := by
    intro w outcome h
    refine ⟨h.flag, readBack_concat (atomicJson_programs _) h.erased, happened_mono h.reset,
      h.report, fun r hr hok => ?_⟩
    rcases runJson_report hr with rfl | hold
    · exact h.report
    · exact h.json r hold hok
  refine triple_bind (fun r w => Ended w ∧ r = w.locals.report) (triple_locals
    fun w h => ⟨h, rfl⟩) fun r => ?_
  apply triple_perform
  · intro w u h
    obtain ⟨h, rfl⟩ := h
    exact hwrite w (.ok u) h
  · intro w e h
    obtain ⟨h, rfl⟩ := h
    exact hwrite w (.error e) h

theorem commandM6BondClear_accounted (args : Args) :
    Ends env (fun w : Run => w = ⟨{}, []⟩) (commandM6BondClear args) Accounted := by
  refine triple_bind (fun _ => Open) ?_ fun _ => ?_
  · have hunprogrammed : ∀ outcome, ¬ Programmed ([⟨.newRun, outcome⟩] : Past) := by
      intro outcome hnew
      obtain ⟨e, he, _, _, _, _, _, hop⟩ := hnew
      obtain rfl := List.mem_singleton.mp he
      cases hop
    apply triple_perform
    · intro w u h
      subst h
      have hstatus : "running" ≠ "ok" := by decide
      refine ⟨⟨hstatus, fun r hr => ?_⟩, rfl, fun hp => absurd hp (hunprogrammed _)⟩
      cases hr
      exact hstatus
    · intro w e h
      subst h
      exact ⟨Or.inl (.untouched (hunprogrammed _)), fun r hr => nomatch hr⟩
  refine triple_bind (fun _ => Ended) ?_ fun _ => ?_
  · apply triple_finally (fun _ => Succeeded) (fun _ w => Silent w ∧ Decided w)
    · refine triple_except (fun _ => Begun) (bondClearBody_ends args) fun e => ?_
      exact triple_mono (bondClearFailed_decided e) (fun _ h => h) (fun _ _ h => h.elim)
        fun _ _ h => h
    · intro _
      refine triple_bind (fun _ => Ended) ?_ fun _ => ?_
      · exact triple_assign fun w h =>
          ⟨h.flag, h.erased, h.reset, h.report, fun r hr hok => absurd hok (h.json r hr)⟩
      · exact triple_mono ended_saveReport (fun _ h => h) (fun _ _ h => h) fun _ _ h => h.accounted
    · exact fun e => bondClearCleanup_failed
  refine keeps_then ended_saveReport (fun _ _ h => h.accounted) fun _ => ?_
  have hprint : ∀ (w : Run) (outcome : Except Raised Unit), Ended w →
      Accounted { w with history := w.history ++ [⟨.print, outcome⟩] } := by
    intro w outcome h
    have hended : Ended { w with history := w.history ++ [⟨.print, outcome⟩] } :=
      ⟨h.flag, readBack_concat (not_programs rfl) h.erased, happened_mono h.reset, h.report,
        fun r hr => h.json r (by
        rw [← hr]
        exact (@runJson_plain .print outcome w.history rfl).symm)⟩
    exact hended.accounted
  exact triple_perform (fun w u h => hprint w _ h) fun w e h => hprint w _ h

/-- **Bond clear is all-or-recovered.** Every run ends without a programming command, with the
settings read back as erased, with them read back as the backup, or with the attempt and its
error in run.json, unless writing that failed; status ok is on record only with the
settings erased and the target reset. -/
theorem bond_clear_accounted (args : Args) (env : Env Op Op.Ans Raised) :
    (Recovered (commandM6BondClear args env ⟨{}, []⟩).2 ∨
      Unwritten (commandM6BondClear args env ⟨{}, []⟩).2.history) ∧
      OkVerified (commandM6BondClear args env ⟨{}, []⟩).2 :=
  (commandM6BondClear_accounted args).world rfl

/-! ## A full disk -/

def mouseManifest : Value :=
  .dict [("soc", .str "nrf54lm20a"), ("oracle", .str "nrf-bm-ble-hids-mouse-s115"),
    ("source_receipt_sha256", .none),
    ("board_version", .str "PCA10184"), ("device_family", .str "nrf54l"),
      ("core", .str "Application"), ("images", .list [])]

def mouseDevice : Value :=
  .dict [("serialNumber", .str "1057"), ("devkit", .dict [("boardVersion", .str "PCA10184")])]

/-- Programming fails both times, and there is no room for run.json with the cleanup. -/
def fullDisk (erased settings : List UInt8) : Env Op Op.Ans Raised := fun _ op =>
  match op with
  | .loadManifest _ => .ok mouseManifest
  | .resolveAlias selection _ => .ok selection
  | .runLogged .deviceList _ => .ok ⟨0, .ok (.list [mouseDevice])⟩
  | .runLogged (.program _ _ _ _) _ => .ok ⟨1, .ok (.list [])⟩
  | .runLogged _ _ => .ok ⟨0, .ok (.list [])⟩
  | .sha256 path => .ok path
  | .readFile path => .ok (if path = "settings-erased.hex" then erased else settings)
  | .atomicJson report => if report.cleanup.isSome then
    .error ⟨"OSError", "[Errno 28] No space left on device"⟩ else .ok ()
  | .newRun | .resolve _ | .version | .lock _ _ | .unlock | .copyFile _ _ | .chmod _ | .writeFile
    _ _ | .print => .ok ()

/-- The files stay variables here: the run is evaluated, their contents are not. -/
theorem fullDisk_run {erased settings data : List UInt8}
    (herased : requireExactM6SettingsImage "settings-erased.hex" (.ok erased) = .ok ())
    (hbefore : requireExactM6SettingsImage "settings-before.hex" (.ok settings) = .ok ())
    (hbytes : settingsBytes settings = .ok data) :
    ¬ Recovered (commandM6BondClear { manifest := "manifest.json", authorizeBondClear := true }
      (fullDisk erased settings) ⟨{}, []⟩).2 := by
  have hbond : requireBondManifest mouseManifest = .ok () := rfl
  have hapart : requireApart mouseManifest = .ok () := rfl
  have horacle : mouseManifest.item "oracle" = .ok (.str "nrf-bm-ble-hids-mouse-s115") := rfl
  have hreceipt : mouseManifest.item "source_receipt_sha256" = .ok .none := rfl
  have hboard : mouseManifest.item "board_version" = .ok (.str "PCA10184") := rfl
  have hdevice : selectDevice [mouseDevice] (.str "PCA10184") none = .ok mouseDevice := rfl
  have hserial : serialNumber mouseDevice = .ok "1057" := rfl
  have htarget : target mouseManifest = .ok ("nrf54l", "Application") := rfl
  obtain ⟨w, hw, hflag, hrestored, hprogrammed, hjson⟩ : ∃ w : Run,
      (commandM6BondClear { manifest := "manifest.json", authorizeBondClear := true }
        (fullDisk erased settings) ⟨{}, []⟩).2 = w ∧
        w.locals.clearVerified = false ∧ w.locals.restoreVerified = false ∧ Programmed w.history ∧
        ∀ r, runJson w.history = some r → r.cleanup = none := by
    refine ⟨_, rfl, ?_⟩
    simp [commandM6BondClear, bondClearBody, bondClearFailed, bondClearCleanup, restoreAfter,
      restoreSettings, clearSettings,
      readM6Settings, readExactM6Settings, requireExact, writeErasedM6Settings, programImage,
        initializeDeviceReport, select,
      enumerate, stage, saveReport, updateReport, readData, withLock, ask, lift, Bind.bind,
        Pure.pure, Prog.bind, perform,
      Prog.locals, assign, when, withFinally, withExcept, raise, fullDisk, herased, hbefore, hbytes,
        hbond, hapart, horacle,
      hreceipt, hboard, hdevice, hserial, htarget, Programmed, Happened, Op.programs]
    intro r hr
    cases hr
    rfl
  rw [hw]
  intro hrecovered
  cases hrecovered with
  | untouched h => exact h hprogrammed
  | cleared h => exact absurd (hflag.symm.trans h) (by decide)
  | restored original h => exact absurd (hrestored.symm.trans h) (by decide)
  | recorded r hr h =>
    obtain ⟨_, cleanup, hsome, _⟩ := h
    exact absurd ((hjson r hr).symm.trans hsome) (by simp)

/-- Where the last write fails there is no recovery and no record of the attempt. -/
theorem bond_clear_unrecorded :
    ¬ Recovered (commandM6BondClear { manifest := "manifest.json", authorizeBondClear := true }
    (fullDisk erasedText (rowsText m6SettingsStart (List.replicate m6SettingsSize 0)))
      ⟨{}, []⟩).2 :=
  fullDisk_run (requireExact_erased _) (requireExact_rows List.length_replicate _)
    (settingsBytes_rows List.length_replicate)

end NrfKit.Tools.Cli
