import NrfKit.Tools.OpenOcdRecovery

/- `openocd clear-rram` of `tools/nrfkit_tools/openocd_cli.py`: all of the ordinary RRAM is written
   with 0xFF, behind a backup that is published before the first write.

   The target may be exchanged between the backup and the write. The script of the write compares
   the target with the one that was backed up before it does anything (`reached`), so another
   target is left as it is. On the one that was backed up, the backup brings everything back
   wherever the write was cut (`clear_undone`). -/
namespace NrfKit.Tools.OpenOcd
open Python Bytes Text IntelHex Spans Attempt
open Manifest (Accepted loadManifest)
open Sdk (Outside rangesValue)

/-! ## Scripts that compare the target -/

/-- A line of a script: a command, or the comparison with the target that was backed up. -/
inductive Line
  | guard (target : Identity)
  | command (c : Command)
  deriving DecidableEq

/-- The comparison does not see the size: it is the same of all targets that are accepted. -/
def Identity.Matches (i target : Identity) : Prop :=
  i.part = target.part ∧ i.variant = target.variant ∧ i.deviceId = target.deviceId

instance (i target : Identity) : Decidable (i.Matches target) := by
  unfold Identity.Matches
  infer_instance

/-- The commands a script comes to on a target: a comparison that fails ends it. -/
def reached (i : Identity) : List Line → List Command
  | [] => []
  | .guard target :: rest => if i.Matches target then reached i rest else []
  | .command c :: rest => c :: reached i rest

/-- Every comparison of the script holds. -/
def Passes (i : Identity) (lines : List Line) : Prop :=
  ∀ target, .guard target ∈ lines → i.Matches target

abbrev Console := List Line → World → Option String × World

/-- An OpenOCD that ends a script at a comparison that fails, and is else as it is documented. -/
structure Guarding (openocd : Console) : Prop where
  effect : ∀ {lines w output w'}, openocd lines w = (some output, w') →
    Passes w.identity lines ∧ w' = (reached w.identity lines).foldl Command.effect w
  identity : ∀ {lines w output w'}, openocd lines w = (some output, w') →
    parseIdentity output = .ok w.identity
  stops : ∀ {lines w w'}, openocd lines w = (none, w') →
    script.Stops (reached w.identity lines) w w'

/-- OpenOCD on a script without comparisons. -/
def Console.plain (openocd : Console) : Tool := fun commands => openocd (commands.map .command)

theorem reached_commands (i : Identity) (commands : List Command) :
    reached i (commands.map .command) = commands := by
  induction commands with
  | nil => rfl
  | cons c rest ih => rw [List.map_cons, reached, ih]

theorem Guarding.dependable {openocd : Console} (h : Guarding openocd) :
    Dependable openocd.plain where
  effect {commands w output w'} hran := by
    have hleft := (h.effect hran).2
    rwa [reached_commands] at hleft
  identity hran := h.identity hran
  stops {commands w w'} hran := by
    have hleft := h.stops hran
    rwa [reached_commands] at hleft

/-! ## The command -/

section
variable (digest : List UInt8 → String) (openocd : Console) (dir : RunDir)
    (render : Value → List UInt8)

/-- One range of a backup: its two reads are compared, and written as HEX. -/
def backupFile (numbered : Span × Nat) : Attempt World Raised Value := do
  let data ← observe fun w => readBytes w (dir.file (dumpName numbered.2 "-1.bin"))
  let second ← observe fun w => readBytes w (dir.file (dumpName numbered.2 "-2.bin"))
  given (raiseIf ((data.length : Int) ≠ numbered.1.2 - numbered.1.1 ∨ data ≠ second)
    (openOcdError "two independent backup reads differ"))
  let text ← given (addressedHex numbered.1.1 data)
  let path := dir.file (dumpName numbered.2 ".hex")
  change fun w => w.write path text
  pure (receipt path (digest text) numbered.1)

/-- `_backup_ranges`, and the world it leaves where it raises. -/
def backupRaising (tool : Tool) (ranges : List Span) :
    Attempt World Raised (Identity × List Value) := do
  given (requireAllowed ranges [spanEntry (0, rramEnd)])
  given (raiseIf (ranges = [] ∨ ∃ s ∈ ranges, s.1 % 16 ≠ 0 ∨ s.2 % 16 ≠ 0 ∨ s.1 ≥ s.2)
    (openOcdError "backup ranges must contain aligned ordinary RRAM"))
  let spans := coalesce (sorted ranges)
  let commands ← given (dumpCommands dir 0 spans)
  let output ← runScript tool "backup" (.halt :: commands)
  let target ← given (parseIdentity output)
  let backups ← each (backupFile digest dir) spans.zipIdx
  pure (target, backups)

/-- `bytes([0xff]) * RRAM_END`. -/
def cleared : List UInt8 := List.replicate 0x001FD000 0xFF

def clearImage : String := dir.file "clear-rram.hex"

def clearReadback : String := dir.file "clear-readback.bin"

def backupJson : String := dir.file "backup.json"

/-- What `backup.json` holds. -/
def clearBackupReport (target : Identity) (backups : List Value) : Value :=
  .dict [("operation", .str "openocd-backup"), ("status", .str "ok"), ("target", target.value),
    ("backups", .list backups),
    ("target_state", .str "halted"), ("range", .list [.int 0, .int rramEnd])]

/-- `_clear_rram` with these bytes up to its first write: the report is published. -/
def clearBackup (bytes : List UInt8) : Attempt World Raised (Identity × List Value) := do
  let text ← given (addressedHex 0 bytes)
  change fun w => w.write (clearImage dir) text
  let data ← observe fun w => readBytes w (clearImage dir)
  let image ← given (parseIhex (clearImage dir) (.ok data))
  given (requireAllowed image.ranges [spanEntry (0, rramEnd)])
  given (raiseIf (image.ranges ≠ [(0, rramEnd)])
    (openOcdError "clear snapshot does not cover exactly ordinary RRAM"))
  let (target, backups) ← backupRaising digest dir openocd.plain [(0, rramEnd)]
  change fun w => w.write (backupJson dir) (render (clearBackupReport target backups))
  pure (target, backups)

/-- `backend.run` of a script with comparisons. -/
def runLines (name : String) (lines : List Line) : Attempt World Raised String := fun w =>
  match openocd lines w with
  | (none, w) => (.error (runFailed name), w)
  | (some output, w) => ((parseIdentity output).map fun _ => output, w)

/-- The rest of `_clear_rram`. -/
def clearTarget (bytes : List UInt8) (target : Identity) : Attempt World Raised Unit := do
  let snapshot ← given (tclWord (clearImage dir))
  let readback ← given (tclWord (clearReadback dir))
  let _ ← runLines openocd "clear" [.guard target, .command .halt,
    .command (.flashWriteImage snapshot),
    .command (.verifyImage snapshot), .command (.dumpImage readback 0 rramEnd)]
  let data ← observe fun w => readBytes w (clearReadback dir)
  given (raiseIf (data ≠ bytes) (openOcdError "ordinary RRAM clear readback mismatch"))

/-- `_clear_rram` with these bytes. -/
def clearWith (bytes : List UInt8) : Attempt World Raised Unit := do
  let (target, _) ← clearBackup digest openocd dir render bytes
  clearTarget openocd dir bytes target

/-- `_clear_rram`. -/
def clearRram : Attempt World Raised Unit := clearWith digest openocd dir render cleared

end

/-! ## The snapshot -/

def ordinary : Span := (0, rramEnd)

theorem ordinary_unit : Unit16 ordinary := ⟨by decide, by decide, by decide, by decide, by decide⟩

theorem ordinary_coalesce : coalesce (sorted [(0, rramEnd)]) = [ordinary] := by
  simp [sorted, coalesce, coalesceFrom, ordinary]

theorem cleared_dumped : cleared = dumped (fun _ => 0xFF) ordinary := by
  have hsize : (ordinary.2 - ordinary.1).toNat = 0x001FD000 := by decide
  rw [cleared, dumped, hsize, List.map_const', List.length_range]

theorem cleared_hex : addressedHex 0 cleared = .ok (hexText (fun _ => 0xFF) ordinary) := by
  rw [cleared_dumped]
  exact ordinary_unit.hex _

theorem covers_ordinary {a : Nat} : Covers [ordinary] a ↔ a < 0x001FD000 := by
  rw [covers_cons]
  simp only [covers_nil, or_false, Span.Holds, ordinary, rramEnd]
  omega

/-! ## The backup -/

section
variable {digest : List UInt8 → String} {openocd : Console} {dir : RunDir}
    {render : Value → List UInt8} {w w' : World}

theorem backupFiles_kept (spans : List Span) (index : Nat) (w : World) :
    kept (each (backupFile digest dir) (spans.zipIdx index) w) =
      writeBackups digest dir index spans w := by
  induction spans generalizing index w with
  | nil => rfl
  | cons s rest ih =>
    rw [List.zipIdx_cons, each, writeBackups]
    simp only [kept_bind, backupFile, kept_given, kept_observe, kept_change, kept_pure, ih,
      bind_assoc, pure_bind]

/-- What a backup comes to is what it comes to with the world it leaves. -/
theorem backupRaising_kept (tool : Tool) (ranges : List Span) (w : World) :
    kept (backupRaising digest dir tool ranges w) = backupRanges digest tool dir ranges w := by
  simp only [backupRaising, backupRanges, kept_bind, kept_given, kept_pure, backupFiles_kept,
    runScript_kept, bind_assoc, pure_bind]

/-- What is kept by writing a file of the backup. -/
structure BackupFrame (dir : RunDir) (R : World → World → Prop) : Prop where
  refl : ∀ w, R w w
  trans : ∀ w w' w'', R w w' → R w' w'' → R w w''
  write : ∀ w k suffix data, suffix ∈ ["-1.bin", "-2.bin", ".hex"] →
    R w (w.write (dir.file (dumpName k suffix)) data)

theorem BackupFrame.disturbs (dir : RunDir) : BackupFrame dir (Disturbs dir fun _ => False) :=
  ⟨fun _ => .refl, fun _ _ _ => .trans, fun _ _ _ _ _ => disturbs_write _ _⟩

/-- A file that is none of the backup's stays as it is. -/
theorem BackupFrame.file {path : String}
    (h : ∀ k suffix, suffix ∈ ["-1.bin", "-2.bin", ".hex"] → path ≠ dir.file (dumpName k suffix)) :
    BackupFrame dir fun w w' => w'.files path = w.files path :=
  ⟨fun _ => rfl, fun _ _ _ h h' => h'.trans h,
    fun _ k suffix _ hsuffix => if_neg (h k suffix hsuffix)⟩

variable {R : World → World → Prop} {tool : Tool}

/-- However the reads end, they change no more than their files. -/
theorem runScript_dumps (hframe : BackupFrame dir R) (hdependable : Dependable tool)
    (spans : List Span) (name : String) :
    R w (runScript tool name (.halt :: (dumps dir 0 spans).map dumpOf) w).2 := by
  have hcommand : ∀ c ∈ .halt :: (dumps dir 0 spans).map dumpOf, c = .halt ∨
      ∃ k suffix start length, suffix ∈ ["-1.bin", "-2.bin", ".hex"] ∧
        c = .dumpImage (dir.file (dumpName k suffix)) start length := by
    intro c hc
    rcases List.mem_cons.mp hc with rfl | hc
    · exact .inl rfl
    · obtain ⟨d, hd, rfl⟩ := List.mem_map.mp hc
      obtain ⟨k, suffix, hsuffix, -, hpath⟩ := mem_dumps.mp hd
      refine .inr ⟨0 + k, suffix, d.2.1, d.2.2 - d.2.1, ?_, by rw [dumpOf, hpath]⟩
      simp only [List.mem_cons, List.not_mem_nil, or_false] at hsuffix ⊢
      exact hsuffix.imp id .inl
  have hdone : ∀ c ∈ .halt :: (dumps dir 0 spans).map dumpOf, ∀ s, R w s →
      R w (script.done s c) := by
    intro c hc s hs
    rcases hcommand c hc with rfl | ⟨k, suffix, start, length, hsuffix, rfl⟩
    · exact hs
    · exact hframe.trans _ _ _ hs (hframe.write _ _ _ _ hsuffix)
  have hcut : ∀ c ∈ .halt :: (dumps dir 0 spans).map dumpOf, ∀ s s', R w s →
      script.cut s c s' → R w s' := by
    intro c hc s s' hs hcut
    rcases hcommand c hc with rfl | ⟨k, suffix, start, length, hsuffix, rfl⟩
    · cases hcut
      exact hs
    · cases hcut with
      | unchanged => exact hs
      | dump path start length data => exact hframe.trans _ _ _ hs (hframe.write _ _ _ _ hsuffix)
  unfold runScript
  rcases htool : tool (.halt :: (dumps dir 0 spans).map dumpOf) w with ⟨_ | output, left⟩
  · exact (hdependable.stops htool).inv hdone hcut (hframe.refl w)
  · obtain rfl := hdependable.effect htool
    exact Cut.run_inv (m := script) hdone (hframe.refl w)

theorem backupRaising_within (hframe : BackupFrame dir R) (hdependable : Dependable tool)
    (ranges : List Span) (w : World) :
    Within R (backupRaising digest dir tool ranges) w := by
  refine within_given _ (hframe.refl w) fun _ _ => within_given _ (hframe.refl w) fun _ _ => ?_
  refine within_given _ (hframe.refl w) fun commands hcommands => ?_
  obtain ⟨rfl, -⟩ := dumpCommands_ok hcommands
  refine within_bind hframe.trans (runScript_dumps hframe hdependable _ "backup")
    fun output s _ => ?_
  refine within_given _ (hframe.refl s) fun target _ => ?_
  refine within_bind hframe.trans (within_each hframe.refl hframe.trans (fun numbered _ s => ?_) s)
    fun _ s _ => hframe.refl s
  refine within_observe _ (hframe.refl s) fun data _ =>
    within_observe _ (hframe.refl s) fun second _ => ?_
  refine within_given _ (hframe.refl s) fun _ _ => within_given _ (hframe.refl s) fun text _ => ?_
  exact within_change hframe.trans (hframe.write s numbered.2 ".hex" text (by simp)) (hframe.refl _)

/-! ## Up to the first write -/

theorem clearImage_apart (k : Nat) (suffix : String) :
    clearImage dir ≠ dir.file (dumpName k suffix) := by
  intro heq
  have hname := congrArg (fun name : String => name.toList.head?) (RunDir.file_injective heq)
  simp [dumpName] at hname

theorem backupJson_apart (k : Nat) : backupJson dir ≠ dir.file (dumpName k ".hex") := by
  intro heq
  have hname := congrArg (fun name : String => name.toList.getLast?) (RunDir.file_injective heq)
  simp only [dumpName, String.toList_append, List.getLast?_append] at hname
  simp at hname

/-- Before its first write a clear changes no memory, however it ends. -/
theorem clearBackup_within (hguarding : Guarding openocd) (bytes : List UInt8) (w : World) :
    Within (Disturbs dir fun _ => False) (clearBackup digest openocd dir render bytes) w := by
  have hframe := BackupFrame.disturbs dir
  refine within_given _ .refl fun text _ =>
    within_change hframe.trans (disturbs_write "clear-rram.hex" text) ?_
  refine within_observe _ .refl fun data _ => within_given _ .refl fun image _ =>
    within_given _ .refl fun _ _ => ?_
  refine within_given _ .refl fun _ _ => ?_
  refine within_bind hframe.trans (backupRaising_within hframe hguarding.dependable _ _)
    fun made s _ => ?_
  exact within_change hframe.trans (disturbs_write "backup.json" _) .refl

/-- What is there when the first write begins. -/
structure Published (digest : List UInt8 → String) (dir : RunDir) (render : Value → List UInt8)
    (w kept : World) : Prop where
  identity : kept.identity = w.identity
  memory : kept.memory = w.memory
  root : ∀ c ∈ dir.root.toList, c ∉ tclUnsafe
  report : kept.files (backupJson dir) =
    some (render (clearBackupReport w.identity (receipts digest dir w.memory 0 [ordinary])))
  files : Kept dir w.memory kept.files 0 [ordinary]
  image : kept.files (clearImage dir) = some (hexText (fun _ => 0xFF) ordinary)

theorem clearBackup_ok (hguarding : Guarding openocd) {bytes : List UInt8}
    (hbytes : addressedHex 0 bytes = .ok (hexText (fun _ => 0xFF) ordinary))
    {target : Identity} {backups : List Value} {kept : World}
    (h : clearBackup digest openocd dir render bytes w = (.ok (target, backups), kept)) :
    target = w.identity ∧ backups = receipts digest dir w.memory 0 [ordinary] ∧
    Published digest dir render w kept := by
  simp only [clearBackup, Attempt.bind_ok, given_ok, observe_ok, change_ok, Attempt.pure_ok] at h
  obtain ⟨text, _, ⟨hhex, rfl⟩, _, _, rfl, data, _, ⟨-, rfl⟩, image, _, ⟨-, rfl⟩, _, _, ⟨-, rfl⟩, _,
    _, ⟨-, rfl⟩, made, left, hmade, _, _, rfl, heq, rfl⟩ := h
  obtain rfl := Except.ok.inj (hbytes.symm.trans hhex)
  obtain ⟨found, items⟩ := made
  obtain ⟨rfl, rfl⟩ := Prod.mk.inj heq
  have himage : left.files (clearImage dir) =
      (w.write (clearImage dir) (hexText (fun _ => 0xFF) ordinary)).files (clearImage dir) := by
    have hframe := @backupRaising_within digest dir _ openocd.plain
      (BackupFrame.file fun k suffix _ => clearImage_apart k suffix)
      hguarding.dependable [(0, rramEnd)]
        (w.write (clearImage dir) (hexText (fun _ => 0xFF) ordinary))
    rwa [Within, hmade] at hframe
  have hkept := kept_ok.mpr hmade
  rw [backupRaising_kept] at hkept
  obtain ⟨-, -, -, hroot, rfl, rfl, hfiles, hidentity, hmemory⟩ :=
    backupRanges_ok hguarding.dependable.toDocumented hkept
  rw [ordinary_coalesce] at hfiles ⊢
  refine ⟨rfl, rfl, hidentity, hmemory, hroot, if_pos rfl, fun k s hs => ?_, ?_⟩
  · exact (if_neg (backupJson_apart (0 + k)).symm).trans (hfiles k s hs)
  · have hother : clearImage dir ≠ backupJson dir :=
      fun heq => absurd (RunDir.file_injective heq) (by decide)
    exact (if_neg hother).trans (himage.trans (if_pos rfl))

end

/-! ## The write -/

section
variable {openocd : Console} {dir : RunDir} {w left : World} {target : Identity}
    {bytes : List UInt8}

def clearLines (dir : RunDir) (target : Identity) : List Line :=
  [.guard target, .command .halt, .command (.flashWriteImage (clearImage dir)),
    .command (.verifyImage (clearImage dir)), .command (.dumpImage (clearReadback dir) 0 rramEnd)]

def clearCommands (dir : RunDir) : List Command :=
  [.halt, .flashWriteImage (clearImage dir), .verifyImage (clearImage dir),
    .dumpImage (clearReadback dir) 0 rramEnd]

theorem clear_reached (h : w.identity.Matches target) :
    reached w.identity (clearLines dir target) = clearCommands dir := by
  rw [clearLines, reached, if_pos h]
  rfl

theorem file_safe (hroot : ∀ c ∈ dir.root.toList, c ∉ tclUnsafe) {name : String}
    (hname : ∀ c ∈ name.toList, c ∉ tclUnsafe) :
    ∀ c ∈ (dir.file name).toList, c ∉ tclUnsafe := by
  have hslash : ∀ c ∈ "/".toList, c ∉ tclUnsafe := plain_word (by decide +kernel)
  intro c hc
  simp only [RunDir.file, String.toList_append, List.mem_append] at hc
  rcases hc with (((hc | hc) | hc) | hc) | hc
  · exact hroot c hc
  · exact hslash c hc
  · exact dir.plain c hc
  · exact hslash c hc
  · exact hname c hc

/-- The rest of a clear once its words are there. -/
theorem clearTarget_words (hroot : ∀ c ∈ dir.root.toList, c ∉ tclUnsafe) :
    clearTarget openocd dir bytes target = (do
      let _ ← runLines openocd "clear" (clearLines dir target)
      let data ← observe fun w => readBytes w (clearReadback dir)
      given (raiseIf (data ≠ bytes) (openOcdError "ordinary RRAM clear readback mismatch"))) := by
  have himage : tclWord (clearImage dir) = .ok (clearImage dir) :=
    tclWord_ok.mpr ⟨file_safe hroot (plain_word (by decide +kernel)), rfl⟩
  have hreadback : tclWord (clearReadback dir) = .ok (clearReadback dir) :=
    tclWord_ok.mpr ⟨file_safe hroot (plain_word (by decide +kernel)), rfl⟩
  rw [clearTarget, himage, hreadback]
  rfl

/-- A script that passes its comparisons does its commands or is cut in them; another does
nothing. -/
theorem runLines_cases (hguarding : Guarding openocd) (name : String)
    (lines : List Line) (w : World) :
    (∃ output, runLines openocd name lines w =
      (.ok output, (reached w.identity lines).foldl Command.effect w) ∧
      Passes w.identity lines) ∨
    ∃ w', runLines openocd name lines w = (.error (runFailed name), w') ∧
      (openocd lines w).1 = none ∧ script.Stops (reached w.identity lines) w w' := by
  unfold runLines
  rcases hran : openocd lines w with ⟨_ | output, w'⟩
  · exact .inr ⟨w', rfl, rfl, hguarding.stops hran⟩
  · obtain ⟨hpasses, rfl⟩ := hguarding.effect hran
    refine .inl ⟨output, ?_, hpasses⟩
    simp only [hguarding.identity hran, Except.map]

/-- A target that was exchanged behind its backup is left as it is. -/
theorem clearTarget_exchanged (hguarding : Guarding openocd)
    (hroot : ∀ c ∈ dir.root.toList, c ∉ tclUnsafe) (hother : ¬ w.identity.Matches target) :
    clearTarget openocd dir bytes target w = (.error (runFailed "clear"), w) := by
  rw [clearTarget_words hroot]
  refine bind_of_error ?_
  rcases runLines_cases hguarding "clear" (clearLines dir target) w with ⟨output, -, hpasses⟩ | ⟨w',
    hran, -, hstops⟩
  · exact absurd (hpasses target (List.mem_cons_self ..)) hother
  · rw [clearLines, reached, if_neg hother] at hstops
    cases hstops
    exact hran

/-- What changed is memory in the ordinary RRAM and the file that is read back. -/
structure Blanks (dir : RunDir) (w w' : World) : Prop where
  identity : w'.identity = w.identity
  files : ∀ path, path ≠ clearReadback dir → w'.files path = w.files path
  memory : ∀ a, ¬ a < 0x001FD000 → w'.memory a = w.memory a

theorem Blanks.refl : Blanks dir w w := ⟨rfl, fun _ _ => rfl, fun _ _ => rfl⟩

theorem Blanks.write (h : Blanks dir w left) (data : List UInt8) :
    Blanks dir w (left.write (clearReadback dir) data) where
  identity := h.identity
  files path hpath := (if_neg hpath).trans (h.files path hpath)
  memory := h.memory

theorem Programs.blanks (h : Programs (fun a => a < 0x001FD000) w left) : Blanks dir w left :=
  ⟨h.identity, fun path _ => congrFun h.files path, h.memory⟩

/-- However the script of the write ends, it changes no more than the ordinary RRAM. -/
theorem clearCommands_blanks
    (himage : w.files (clearImage dir) = some (hexText (fun _ => 0xFF) ordinary)) :
    Blanks dir w ((clearCommands dir).foldl Command.effect w) ∧ ∀ w',
      script.Stops (clearCommands dir) w w' → Blanks dir w w' := by
  have hconfined : Confined (fun a => a < 0x001FD000) (hexText (fun _ => 0xFF) ordinary) := by
    refine confined_ranges (ordinary_unit.read _ (clearImage dir)).1 fun s hs a ha => ?_
    obtain rfl := List.mem_singleton.mp hs
    rw [ordinary_unit.rounded] at ha
    exact covers_ordinary.mp ⟨ordinary, List.mem_singleton_self _, ha⟩
  have hready : Ready (fun a => a < 0x001FD000) w [clearImage dir] := by
    intro path hpath
    obtain rfl := List.mem_singleton.mp hpath
    exact ⟨_, himage, hconfined⟩
  have hsplit : clearCommands dir = (.halt :: flashCommands [clearImage dir]) ++
      [.dumpImage (clearReadback dir) 0 rramEnd] := rfl
  have hdone : ∀ c ∈ .halt :: flashCommands [clearImage dir], ∀ s,
      Programs (fun a => a < 0x001FD000) w s →
      Programs (fun a => a < 0x001FD000) w (script.done s c) :=
        fun c hc s hs => effect_programs hready hc hs
  have hstart : Programs (fun a => a < 0x001FD000) w w := ⟨rfl, rfl, fun _ _ => rfl⟩
  have hfront := Cut.run_inv (m := script) hdone hstart
  constructor
  · rw [hsplit, List.foldl_append]
    exact hfront.blanks.write _
  · intro w' hstops
    rw [hsplit, Cut.stops_append] at hstops
    rcases hstops with hstops | hstops
    · exact (hstops.inv hdone (fun c hc s s' hs hcut =>
        interrupted_programs hready hc hs hcut) hstart).blanks
    · cases hstops with
      | here => exact hfront.blanks
      | within hcut =>
        cases hcut with
        | unchanged => exact hfront.blanks
        | dump path start length data => exact hfront.blanks.write data
      | behind hstops =>
        cases hstops
        exact hfront.blanks.write _

/-- However the write ends, it changes no more than the ordinary RRAM. -/
theorem clearTarget_blanks (hguarding : Guarding openocd)
    (hroot : ∀ c ∈ dir.root.toList, c ∉ tclUnsafe)
    (himage : w.files (clearImage dir) = some (hexText (fun _ => 0xFF) ordinary)) :
    Within (Blanks dir) (clearTarget openocd dir bytes target) w := by
  by_cases hmatches : w.identity.Matches target
  · rw [clearTarget_words hroot]
    have hran : Blanks dir w (runLines openocd "clear" (clearLines dir target) w).2 := by
      rcases runLines_cases hguarding "clear" (clearLines dir target) w
        with ⟨output, hran, -⟩ | ⟨w', hran, -, hstops⟩
      · rw [hran, clear_reached hmatches]
        exact (clearCommands_blanks himage).1
      · rw [hran]
        rw [clear_reached hmatches] at hstops
        exact (clearCommands_blanks himage).2 w' hstops
    unfold Within
    rcases hresult : runLines openocd "clear" (clearLines dir target) w with ⟨e | output, w'⟩
    · rw [bind_of_error hresult]
      rwa [hresult] at hran
    · rw [bind_of_ok hresult]
      rw [hresult] at hran
      exact within_observe (R := fun _ s => Blanks dir w s) _ hran fun _ _ => hran
  · rw [Within, clearTarget_exchanged hguarding hroot hmatches]
    exact .refl

/-- What the script of the write does where it comes to its end. -/
theorem clearCommands_effect
    (himage : w.files (clearImage dir) = some (hexText (fun _ => 0xFF) ordinary)) :
    let after := (clearCommands dir).foldl Command.effect w
    (∀ a, after.memory a = if a < 0x001FD000 then 0xFF else w.memory a) ∧
      after.files (clearReadback dir) = some (dumped (fun _ => 0xFF) ordinary) := by
  obtain ⟨left, heffect, hin, hout⟩ := flash_effect ordinary_unit himage
  have hafter : (clearCommands dir).foldl Command.effect w =
      Command.effect { w with memory := left } (.dumpImage (clearReadback dir) 0 rramEnd) := by
    rw [← heffect]
    rfl
  have hmemory : ∀ a, left a = if a < 0x001FD000 then 0xFF else w.memory a := by
    intro a
    have hholds : ordinary.Holds a ↔ a < 0x001FD000 := by
      rw [← covers_ordinary, covers_cons]
      simp
    by_cases ha : a < 0x001FD000
    · rw [if_pos ha, hin a (hholds.mpr ha)]
    · rw [if_neg ha, hout a fun hin => ha (hholds.mp hin)]
  rw [hafter]
  refine ⟨hmemory, (if_pos rfl).trans (congrArg some ?_)⟩
  have hspan : ((0 : Int), 0 + rramEnd) = ordinary := by decide
  rw [hspan, dumped, dumped]
  refine List.map_congr_left fun i hi => ?_
  have hsize : (ordinary.2 - ordinary.1).toNat = 0x001FD000 := by decide
  have hlow : ordinary.1.toNat = 0 := by decide
  rw [List.mem_range, hsize] at hi
  rw [hlow]
  exact (hmemory (0 + i)).trans (if_pos (by omega))

/-! ## A target that answers -/

/-- Connected to this target, OpenOCD comes to the end of every script whose comparisons hold. -/
def Answers (openocd : Console) (i : Identity) : Prop :=
  ∀ lines w, w.identity = i → Passes i lines → (openocd lines w).1.isSome

theorem Answers.responds {i : Identity} (h : Answers openocd i) : Responds openocd.plain i := by
  intro commands w hw
  refine h _ w hw fun target htarget => ?_
  obtain ⟨c, -, heq⟩ := List.mem_map.mp htarget
  cases heq

theorem clearTarget_succeeds (hguarding : Guarding openocd)
    (hroot : ∀ c ∈ dir.root.toList, c ∉ tclUnsafe)
    (himage : w.files (clearImage dir) = some (hexText (fun _ => 0xFF) ordinary))
    (hbytes : bytes = dumped (fun _ => 0xFF) ordinary) (hanswers : Answers openocd w.identity)
    (hmatches : w.identity.Matches target) :
    clearTarget openocd dir bytes target w =
      (.ok (), (clearCommands dir).foldl Command.effect w) := by
  have hpasses : Passes w.identity (clearLines dir target) := by
    intro other hother
    simp only [clearLines, List.mem_cons, List.not_mem_nil, or_false, reduceCtorEq,
      Line.guard.injEq] at hother
    rwa [hother]
  rw [clearTarget_words hroot]
  rcases runLines_cases hguarding "clear" (clearLines dir target) w
    with ⟨output, hran, -⟩ | ⟨w', -, hnone, -⟩
  · rw [bind_of_ok hran, clear_reached hmatches]
    have hread : readBytes ((clearCommands dir).foldl Command.effect w) (clearReadback dir) =
        .ok bytes := by
      rw [readBytes, (clearCommands_effect himage).2, hbytes]
    have hobserved : observe (fun s => readBytes s (clearReadback dir))
        ((clearCommands dir).foldl Command.effect w) =
        (.ok bytes, (clearCommands dir).foldl Command.effect w) := by
      rw [observe, hread]
    refine (bind_of_ok hobserved).trans ?_
    rw [given, raiseIf, if_neg (by simp)]
  · have hsome := hanswers _ w rfl hpasses
    rw [hnone] at hsome
    cases hsome

/-- A clear that returns wrote all of the ordinary RRAM, and no other byte. -/
theorem clearTarget_ok (hguarding : Guarding openocd) (hroot : ∀ c ∈ dir.root.toList, c ∉ tclUnsafe)
    (himage : w.files (clearImage dir) = some (hexText (fun _ => 0xFF) ordinary))
    (h : clearTarget openocd dir bytes target w = (.ok (), left)) :
    w.identity.Matches target ∧ ∀ a, left.memory a = if a < 0x001FD000 then 0xFF
      else w.memory a := by
  by_cases hmatches : w.identity.Matches target
  · rw [clearTarget_words hroot] at h
    obtain ⟨output, ran, hran, h⟩ := Attempt.bind_ok.mp h
    obtain ⟨data, read, hread, h⟩ := Attempt.bind_ok.mp h
    obtain ⟨-, rfl⟩ := observe_ok.mp hread
    obtain ⟨-, rfl⟩ := given_ok.mp h
    rcases runLines_cases hguarding "clear" (clearLines dir target) w with ⟨_, hdone, -⟩ | ⟨w',
      hfailed, -, -⟩
    · rw [hdone, clear_reached hmatches] at hran
      obtain rfl := (Prod.mk.inj hran).2
      exact ⟨hmatches, (clearCommands_effect himage).1⟩
    · rw [hfailed] at hran
      cases (Prod.mk.inj hran).1
  · rw [clearTarget_exchanged hguarding hroot hmatches] at h
    cases (Prod.mk.inj h).1

variable {digest : List UInt8 → String} {render : Value → List UInt8}

theorem backupRaising_succeeds (hguarding : Guarding openocd)
    (hroot : ∀ c ∈ dir.root.toList, c ∉ tclUnsafe) (hresponds : Responds openocd.plain w.identity) :
    ∃ made left, backupRaising digest dir openocd.plain [(0, rramEnd)] w = (.ok made, left) := by
  have hword : ∀ suffix ∈ ["-1.bin", "-2.bin"],
      tclWord (dir.file (dumpName 0 suffix)) = .ok (dir.file (dumpName 0 suffix)) := by
    intro suffix hsuffix
    refine tclWord_ok.mpr ⟨file_safe hroot ?_, rfl⟩
    simp only [List.mem_cons, List.not_mem_nil, or_false] at hsuffix
    rcases hsuffix with rfl | rfl <;> exact plain_word (by decide +kernel)
  have hguard : requireAllowed [(0, rramEnd)] [spanEntry (0, rramEnd)] = .ok () := by
    refine requireAllowed_ordinary.mpr fun range hrange => ?_
    obtain rfl := List.mem_singleton.mp hrange
    decide
  have haligned : raiseIf ([((0 : Int), rramEnd)] = [] ∨ ∃ s ∈ [((0 : Int), rramEnd)],
      s.1 % 16 ≠ 0 ∨ s.2 % 16 ≠ 0 ∨ s.1 ≥ s.2)
      (openOcdError "backup ranges must contain aligned ordinary RRAM") = .ok () :=
    raiseIf_ok.mpr (by decide)
  have hcommands : dumpCommands dir 0 [ordinary] = .ok ((dumps dir 0 [ordinary]).map dumpOf) := by
    rw [dumpCommands, hword _ (by decide), hword _ (by decide)]
    rfl
  rcases run_cases hguarding.dependable.toDocumented "backup"
    (.halt :: (dumps dir 0 [ordinary]).map dumpOf) w with
    ⟨output, hrun, hidentity⟩ | ⟨hnone, -⟩
  · obtain ⟨data, hdata⟩ : ∃ data, data = dumped w.memory ordinary := ⟨_, rfl⟩
    have hread : ∀ suffix ∈ ["-1.bin", "-2.bin"],
        readBytes ((.halt :: (dumps dir 0 [ordinary]).map dumpOf).foldl Command.effect w)
          (dir.file (dumpName 0 suffix)) = .ok data := by
      intro suffix hsuffix
      have hfile : ((.halt :: (dumps dir 0 [ordinary]).map dumpOf).foldl Command.effect w).files
          (dir.file (dumpName 0 suffix)) = some (dumped w.memory ordinary) :=
        dumps_read dir [ordinary] w (k := 0) rfl hsuffix
      rw [readBytes, hfile, hdata]
    have hlength : (data.length : Int) = ordinary.2 - ordinary.1 := by
      rw [hdata, dumped_length]
      decide
    have hhex : addressedHex ordinary.1 data = .ok (hexText w.memory ordinary) := by
      rw [hdata, ordinary_unit.hex w.memory]
    have hmade : ∃ made, backupRanges digest openocd.plain dir [(0, rramEnd)] w = .ok made := by
      rw [backupRanges, hguard, haligned, ordinary_coalesce]
      simp only [bind, Except.bind, hcommands, hrun, hidentity, writeBackups,
        hread "-1.bin" (by decide), hread "-2.bin" (by decide), raiseIf, hlength, ne_eq,
        not_true_eq_false, or_self, if_false, hhex]
      exact ⟨_, rfl⟩
    obtain ⟨⟨made, left⟩, hmade⟩ := hmade
    rw [← backupRaising_kept] at hmade
    exact ⟨made, left, kept_ok.mp hmade⟩
  · have hsome := hresponds (.halt :: (dumps dir 0 [ordinary]).map dumpOf) w rfl
    rw [hnone] at hsome
    cases hsome

theorem clearBackup_succeeds (hguarding : Guarding openocd)
    (hroot : ∀ c ∈ dir.root.toList, c ∉ tclUnsafe)
    (hbytes : addressedHex 0 bytes = .ok (hexText (fun _ => 0xFF) ordinary))
    (hresponds : Responds openocd.plain w.identity) :
    ∃ made left, clearBackup digest openocd dir render bytes w = (.ok made, left) := by
  obtain ⟨⟨target, backups⟩, left, hmade⟩ : ∃ made left,
      backupRaising digest dir openocd.plain [(0, rramEnd)]
        (w.write (clearImage dir) (hexText (fun _ => 0xFF) ordinary)) = (.ok made, left) :=
    backupRaising_succeeds hguarding hroot hresponds
  have hread : readBytes (w.write (clearImage dir) (hexText (fun _ => 0xFF) ordinary))
      (clearImage dir) = .ok (hexText (fun _ => 0xFF) ordinary) := by
    rw [readBytes]
    simp only [World.write, if_true]
  have hparse := (ordinary_unit.read (fun _ => 0xFF) (clearImage dir)).1
  have hguard : requireAllowed [ordinary] [spanEntry (0, rramEnd)] = .ok () := by
    refine requireAllowed_ordinary.mpr fun range hrange => ?_
    obtain rfl := List.mem_singleton.mp hrange
    decide
  have hexact : raiseIf ([ordinary] ≠ [(0, rramEnd)])
      (openOcdError "clear snapshot does not cover exactly ordinary RRAM") = .ok () :=
    raiseIf_ok.mpr (by decide)
  refine ⟨(target, backups),
    left.write (backupJson dir) (render (clearBackupReport target backups)), ?_⟩
  simp only [clearBackup, Attempt.bind_ok, given_ok, observe_ok, change_ok, Attempt.pure_ok]
  exact ⟨_, _, ⟨hbytes, rfl⟩, (), _, rfl, _, _, ⟨hread, rfl⟩, _, _, ⟨hparse, rfl⟩, (), _,
    ⟨hguard, rfl⟩, (), _, ⟨hexact, rfl⟩, _, _, hmade, (), _, rfl, rfl, rfl⟩

/-! ## Undoing a clear -/

theorem readback_apart (k : Nat) : clearReadback dir ≠ dir.file (dumpName k ".hex") := by
  intro heq
  have hname := congrArg (fun name : String => name.toList.head?) (RunDir.file_injective heq)
  simp [dumpName] at hname

/-- What the rest of a clear may do from the world it begins in, when this was backed up. -/
structure Clears (digest : List UInt8 → String) (openocd : Console) (dir : RunDir)
    (bytes : List UInt8) (backedUp between : World) : Prop where
  /-- Another target is left as it is. -/
  exchanged : ¬ between.identity.Matches backedUp.identity →
    clearTarget openocd dir bytes backedUp.identity between = (.error (runFailed "clear"), between)
  /-- Where it returns all of the ordinary RRAM is blank, and nothing else was written. -/
  blank : ∀ left, clearTarget openocd dir bytes backedUp.identity between = (.ok (), left) →
    ∀ a, left.memory a = if a < 0x001FD000 then 0xFF else between.memory a
  returns : Answers openocd between.identity → between.identity.Matches backedUp.identity →
    ∃ left, clearTarget openocd dir bytes backedUp.identity between = (.ok (), left)
  /-- However it ends on the target that was backed up, the published backup brings the memory
  back. -/
  undone : between.identity = backedUp.identity → between.memory = backedUp.memory →
    ∀ restoreDir manifest allowlist, restoreDir.root = dir.root →
      requireManifest false manifest = .ok () → restoreAllowlist manifest false = .ok allowlist →
      let after := (clearTarget openocd dir bytes backedUp.identity between).2
      let report :=
        clearBackupReport backedUp.identity (receipts digest dir backedUp.memory 0 [ordinary])
      (∀ name, after.files (restoreDir.file name) = none) →
      (∀ left, restoreRaising digest openocd.plain restoreDir manifest report false after =
        (.ok (), left) → left.memory = backedUp.memory) ∧
      (insideAny ordinary allowlist = .ok true →
        (∀ e left, restoreRaising digest openocd.plain restoreDir manifest report false after =
          (.error e, left) → RunFailed e) ∧
        (Responds openocd.plain backedUp.identity →
          ∃ left, restoreRaising digest openocd.plain restoreDir manifest report false after =
            (.ok (), left)))

theorem Published.clears (hguarding : Guarding openocd) {kept between : World}
    (h : Published digest dir render w kept) (hfiles : between.files = kept.files)
    (hbytes : bytes = dumped (fun _ => 0xFF) ordinary) :
    Clears digest openocd dir bytes w between := by
  have himage : between.files (clearImage dir) = some (hexText (fun _ => 0xFF) ordinary) := by
    rw [hfiles, h.image]
  refine ⟨clearTarget_exchanged hguarding h.root, fun left hleft =>
    (clearTarget_ok hguarding h.root himage hleft).2, fun hanswers hmatches =>
    ⟨_, clearTarget_succeeds hguarding h.root himage hbytes hanswers hmatches⟩, ?_⟩
  intro hidentity hmemory restoreDir manifest allowlist hroot hrequired hallowlist
    after report hfresh
  have hframe : Blanks dir between after := clearTarget_blanks hguarding h.root himage
  have hsafe : ∀ c ∈ restoreDir.root.toList, c ∉ tclUnsafe := by
    rw [hroot]
    exact h.root
  have hspans := ordinary_coalesce
  have hkept : Kept dir w.memory after.files 0 (coalesce (sorted [(0, rramEnd)])) := by
    rw [hspans]
    intro k s hs
    rw [hframe.files _ (readback_apart (0 + k)).symm, hfiles]
    exact h.files k s hs
  have htaken := @restore_taken digest openocd.plain w.memory dir manifest hguarding.dependable
    false allowlist [(0, rramEnd)] after
    restoreDir hrequired hallowlist (by rw [hspans]; simp)
      (by rw [hspans]; simpa using ordinary_unit) hsafe hkept hfresh
    fun a ha => (hframe.memory a fun hlow => ha (covers_ordinary.mpr hlow)).trans
      (congrFun hmemory a)
  rw [hspans, hframe.identity, hidentity] at htaken
  exact ⟨fun left hleft => (htaken.1 left hleft).2.1, fun hinside =>
    htaken.2 (by simpa using hinside)⟩

/-- A target that answers is written as a whole. -/
theorem clearWith_succeeds (hguarding : Guarding openocd)
    (hroot : ∀ c ∈ dir.root.toList, c ∉ tclUnsafe)
    (hhex : addressedHex 0 bytes = .ok (hexText (fun _ => 0xFF) ordinary))
    (hbytes : bytes = dumped (fun _ => 0xFF) ordinary) (hanswers : Answers openocd w.identity) :
    ∃ left, clearWith digest openocd dir render bytes w = (.ok (), left) ∧
      ∀ a, left.memory a = if a < 0x001FD000 then 0xFF else w.memory a := by
  obtain ⟨⟨target, backups⟩, kept, hbackup⟩ : ∃ made kept,
    clearBackup digest openocd dir render bytes w = (.ok made, kept) :=
    clearBackup_succeeds hguarding hroot hhex hanswers.responds
  obtain ⟨rfl, -, hpublished⟩ := clearBackup_ok hguarding hhex hbackup
  have hclears := hpublished.clears hguarding rfl hbytes
  have hmatches : kept.identity.Matches w.identity := by
    rw [hpublished.identity]
    exact ⟨rfl, rfl, rfl⟩
  obtain ⟨left, hleft⟩ := hclears.returns (by rwa [hpublished.identity]) hmatches
  refine ⟨left, (bind_of_ok hbackup).trans hleft, fun a => ?_⟩
  rw [hclears.blank left hleft a, hpublished.memory]

/-- **Undoing a clear.** The backup is published before the first write. Behind it a target
that was exchanged is left as it is, the one that was backed up is blank where the clear
returns, and wherever the write was cut the backup brings all of its memory back. A target
that answers is cleared. -/
theorem clear_undone (hguarding : Guarding openocd) (digest : List UInt8 → String) (dir : RunDir)
    (render : Value → List UInt8) (w : World) :
    (clearBackup digest openocd dir render cleared w).2.memory = w.memory ∧
    (∀ target backups kept,
      clearBackup digest openocd dir render cleared w = (.ok (target, backups), kept) →
      target = w.identity ∧ Published digest dir render w kept ∧
        ∀ between, between.files = kept.files → Clears digest openocd dir cleared w between) ∧
    ((∀ c ∈ dir.root.toList, c ∉ tclUnsafe) → Answers openocd w.identity →
      ∃ left, clearRram digest openocd dir render w = (.ok (), left) ∧
        ∀ a, left.memory a = if a < 0x001FD000 then 0xFF else w.memory a) := by
  refine ⟨funext fun a => (clearBackup_within hguarding cleared w).memory a id,
    fun target backups kept hbackup => ?_, fun hroot hanswers =>
    clearWith_succeeds hguarding hroot cleared_hex cleared_dumped hanswers⟩
  obtain ⟨htarget, -, hpublished⟩ := clearBackup_ok hguarding cleared_hex hbackup
  exact ⟨htarget, hpublished, fun between hfiles =>
    hpublished.clears hguarding hfiles cleared_dumped⟩

end

/-! ## A target that is cleared -/

/-- Whether a script goes on behind the line. -/
def Line.holds (i : Identity) : Line → Bool
  | guard target => i.Matches target
  | command _ => true

theorem passes_all {i : Identity} {lines : List Line} :
    lines.all (Line.holds i) = true ↔ Passes i lines := by
  rw [List.all_eq_true]
  constructor
  · intro h target htarget
    simpa [Line.holds] using h _ htarget
  · intro h line hline
    cases line with
    | guard target => simpa [Line.holds] using h target hline
    | command c => rfl

instance (i : Identity) (lines : List Line) : Decidable (Passes i lines) :=
  decidable_of_iff _ passes_all

/-- OpenOCD connected to one target; with another, or where a comparison fails, it does nothing. -/
def benchConsole : Console := fun lines w =>
  if w.identity = benchIdentity ∧ Passes w.identity lines then
    (some benchOutput, (reached w.identity lines).foldl Command.effect w)
  else (none, w)

theorem benchConsole_guarding : Guarding benchConsole where
  effect {lines w output w'} h := by
    unfold benchConsole at h
    split at h
    · rename_i hpasses
      exact ⟨hpasses.2, (Prod.mk.inj h).2.symm⟩
    · cases h
  identity {lines w output w'} h := by
    unfold benchConsole at h
    split at h
    · rename_i hpasses
      obtain rfl := Option.some.inj (Prod.mk.inj h).1
      rw [hpasses.1]
      rfl
    · cases h
  stops {lines w w'} h := by
    unfold benchConsole at h
    split at h
    · cases h
    · obtain rfl := (Prod.mk.inj h).2
      exact .here _ _

theorem ordinary_touches {a : Nat} (ha : a < 0x001FD000) :
    Touches (hexText (fun _ => 0xFF) ordinary) a := by
  obtain ⟨data, hdata, -, -, hwritten⟩ := parseIhex_ok (ordinary_unit.read (fun _ => 0xFF) "").1
  obtain rfl := Except.ok.inj hdata
  obtain ⟨records, hrecords, cell, hcell, haddress⟩ := (hwritten a).mp (covers_ordinary.mpr ha)
  exact ⟨records, hrecords, cell, hcell, by omega⟩

/-- A target whose first unit was being written. -/
def tornWorld (w : World) : World :=
  { w with memory := fun a => if a < 16 then 0xAA else w.memory a }

/-- The same OpenOCD, which loses the target while it clears it. -/
def tornConsole : Console := fun lines w =>
  if lines = clearLines backupRun benchIdentity ∧ w.identity = benchIdentity ∧
      w.files (clearImage backupRun) = some (hexText (fun _ => 0xFF) ordinary) then
        (none, tornWorld w)
  else benchConsole lines w

theorem tornConsole_guarding : Guarding tornConsole where
  effect {lines w output w'} h := by
    unfold tornConsole at h
    split at h
    · cases h
    · exact benchConsole_guarding.effect h
  identity {lines w output w'} h := by
    unfold tornConsole at h
    split at h
    · cases h
    · exact benchConsole_guarding.identity h
  stops {lines w w'} h := by
    unfold tornConsole at h
    split at h
    · rename_i hlost
      obtain ⟨rfl, hidentity, hfile⟩ := hlost
      obtain rfl := (Prod.mk.inj h).2
      rw [clear_reached (by rw [hidentity]; exact ⟨rfl, rfl, rfl⟩)]
      refine .behind (.within (.flash hfile fun a ha => if_neg fun hlow => ?_))
      exact ha (ordinary_touches (by omega))
    · exact benchConsole_guarding.stops h

/-- It answers to every script without comparisons. -/
theorem tornConsole_responds : Responds tornConsole.plain benchIdentity := by
  intro commands w hw
  have hplain : commands.map .command ≠ clearLines backupRun benchIdentity := by
    intro heq
    cases commands with
    | nil => cases heq
    | cons c rest => cases heq
  have hpasses : Passes w.identity (commands.map .command) := by
    intro target htarget
    obtain ⟨c, -, heq⟩ := List.mem_map.mp htarget
    cases heq
  rw [Console.plain, tornConsole, if_neg (fun h => hplain h.1), benchConsole, if_pos ⟨hw, hpasses⟩]
  rfl

/-- What a restore reads of a manifest that allows all of the ordinary RRAM. -/
def wholeManifest : Value :=
  .dict [("soc", .str "nrf54lm20a"), ("debug_allowlist", .list [.list [.int 0, .int rramEnd]])]

theorem restoreRun_apart (name other : String) : restoreRun.file name ≠ backupRun.file other := by
  intro heq
  have hback : (backupRun.file "").toList <+: (restoreRun.file name).toList := by
    rw [heq]
    simp [RunDir.file]
  have hrestore : (restoreRun.file "").toList <+: (restoreRun.file name).toList := by
    simp [RunDir.file]
  have hsame := List.prefix_of_prefix_length_le hback hrestore (by decide +kernel)
  revert hsame
  decide +kernel

/-- A target that answers is cleared. Another is lost while it is written; the backup, which
was published before, brings its memory back. -/
theorem clear_undone_bench :
    (∃ left, clearRram oneImageDigest benchConsole backupRun (fun _ => []) benchWorld =
      (.ok (), left) ∧
      ∀ a, left.memory a = if a < 0x001FD000 then 0xFF else benchWorld.memory a) ∧
    ∃ kept left,
      (∃ made, clearBackup oneImageDigest tornConsole backupRun (fun _ => []) cleared
        benchWorld = (.ok made, kept)) ∧
      clearTarget tornConsole backupRun cleared benchIdentity kept =
        (.error (runFailed "clear"), tornWorld kept) ∧
      (tornWorld kept).memory 1 = 0xAA ∧ benchWorld.memory 1 = 1 ∧
      restoreRaising oneImageDigest tornConsole.plain restoreRun wholeManifest
        (clearBackupReport benchIdentity
          (receipts oneImageDigest backupRun benchWorld.memory 0 [ordinary])) false
        (tornWorld kept) = (.ok (), left) ∧
      left.memory = benchWorld.memory := by
  have hroot : ∀ c ∈ backupRun.root.toList, c ∉ tclUnsafe := plain_word (by decide +kernel)
  constructor
  · have hanswers : Answers benchConsole benchIdentity := by
      intro lines w hw hpasses
      rw [benchConsole, if_pos ⟨hw, by rwa [hw]⟩]
      rfl
    exact (clear_undone benchConsole_guarding oneImageDigest backupRun (fun _ => []) benchWorld).2.2
      hroot hanswers
  · obtain ⟨⟨target, backups⟩, kept, hbackup⟩ : ∃ made kept,
        clearBackup oneImageDigest tornConsole backupRun (fun _ => []) cleared benchWorld =
          (.ok made, kept) :=
      clearBackup_succeeds tornConsole_guarding hroot cleared_hex tornConsole_responds
    obtain ⟨rfl, hpublished, hclears⟩ :=
      (clear_undone tornConsole_guarding oneImageDigest backupRun (fun _ => []) benchWorld).2.1
        target backups kept hbackup
    have hlost : clearTarget tornConsole backupRun cleared benchIdentity kept =
        (.error (runFailed "clear"), tornWorld kept) := by
      rw [clearTarget_words hroot]
      refine bind_of_error ?_
      rw [runLines, tornConsole, if_pos ⟨rfl, hpublished.identity, hpublished.image⟩]
    have hbetween := hclears kept rfl
    have hfresh : ∀ name, (tornWorld kept).files (restoreRun.file name) = none := by
      intro name
      have hframe : Disturbs backupRun (fun _ => False) benchWorld kept := by
        have hwithin := @clearBackup_within oneImageDigest tornConsole backupRun (fun _ => [])
          tornConsole_guarding cleared benchWorld
        rwa [Within, hbackup] at hwithin
      exact hframe.files _ fun other => restoreRun_apart name other
    have hundone := hbetween.undone hpublished.identity hpublished.memory restoreRun wholeManifest
      [[.int 0, .int rramEnd]] rfl rfl rfl
    simp only [show benchWorld.identity = benchIdentity from rfl, hlost] at hundone
    obtain ⟨hback, hreturns⟩ := hundone hfresh
    obtain ⟨left, hleft⟩ := (hreturns rfl).2 tornConsole_responds
    exact ⟨kept, left, ⟨_, hbackup⟩, hlost, rfl, rfl, hleft, hback left hleft⟩

end NrfKit.Tools.OpenOcd
