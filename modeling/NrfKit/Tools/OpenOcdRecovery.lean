import NrfKit.Tools.OpenOcdFlash

/- Restores of the OpenOCD commands that fail: `_restore` of `tools/nrfkit_tools/openocd_cli.py`,
   with the world it leaves where it raises.

   A restore writes only the ranges of the receipts, whatever the files became: it takes a
   snapshot only of what reads as the range of its receipt (`restore_within`). So whatever was
   tried behind a backup, a restore of it that returns leaves all of the memory as it was when the
   backup was taken (`restore_undoes`). -/
namespace NrfKit.Tools.OpenOcd
open Python Bytes Text IntelHex Spans Attempt
open Manifest (Accepted loadManifest)
open Sdk (Outside rangesValue)

section
variable (digest : List UInt8 → String) (openocd : Tool) (dir : RunDir)

/-- What a restore does for an item of the report: the snapshot is taken, then guarded. -/
def restoreItem (allowlist : List (List Value))
    (numbered : Value × Nat) : Attempt World Raised String := do
  let source ← given (Cli.itemPath numbered.1)
  let data ← observe fun w => readBytes w source
  let destination := dir.file (restoreName numbered.2)
  change fun w => w.write destination data
  let expected ← given (numbered.1.item "sha256")
  given (raiseIf (¬ (Value.str (digest data)).eq expected) (openOcdError "backup artifact changed"))
  let image ← given (parseIhex destination (.ok data))
  given (requireAllowed image.ranges allowlist)
  given (requireAllowed image.ranges [spanEntry (0, rramEnd)])
  let range ← given (numbered.1.item "range")
  let bounds ← given range.iterate
  given (raiseIf (¬ (rangesValue image.ranges).eq (.list [.list bounds]))
    (openOcdError "backup range does not match its receipt"))
  pure destination

/-- `_restore` with what the backup report holds. -/
def restoreReport (manifest report : Value)
    (includeSettings : Bool) : Attempt World Raised Unit := do
  let operation ← given (report.get "operation" .none)
  let status ← given (report.get "status" .none)
  let backups ← given (report.get "backups" .none)
  let target ← given (report.get "target" .none)
  given (raiseIf (¬ operation.eq (.str "openocd-backup") ∨ ¬ status.eq (.str "ok") ∨
    ¬ backups.truthy ∨ ¬ target.truthy)
    (openOcdError "a successful OpenOCD backup report is required"))
  let allowlist ← given (restoreAllowlist manifest includeSettings)
  let items ← given backups.iterate
  let snapshots ← each (restoreItem digest dir allowlist) items.zipIdx
  let output ← runScript openocd "restore-identity" []
  let current ← given (parseIdentity output)
  given (raiseIf (¬ current.value.eq target) (openOcdError "backup belongs to a different target"))
  let commands ← given (writeCommands snapshots)
  let _ ← runScript openocd "restore" (.halt :: commands)
  pure ()

/-- `openocd restore`, and the world it leaves where it raises. -/
def restoreRaising (manifest report : Value)
    (includeSettings : Bool) : Attempt World Raised Unit := do
  given (requireManifest includeSettings manifest)
  restoreReport digest openocd dir manifest report includeSettings

end

/-! ## The results -/

section
variable {digest : List UInt8 → String} {openocd : Tool} {dir : RunDir}

theorem restoreItem_kept (allowlist : List (List Value)) (item : Value) (index : Nat) (w : World) :
    kept (restoreItem digest dir allowlist (item, index) w) =
      snapshotItem digest dir allowlist index item w := by
  simp only [restoreItem, snapshotItem, kept_bind, kept_given, kept_observe, kept_change, kept_pure,
    bind_assoc, pure_bind]

theorem restoreItems_kept (allowlist : List (List Value)) (items : List Value)
    (index : Nat) (w : World) :
    kept (each (restoreItem digest dir allowlist) (items.zipIdx index) w) =
      snapshotItems digest dir allowlist index items w := by
  induction items generalizing index w with
  | nil => rfl
  | cons item rest ih =>
    rw [List.zipIdx_cons, each, snapshotItems, kept_bind, restoreItem_kept]
    refine bind_congr fun r => ?_
    rw [kept_bind, ih]
    rfl

/-- What a restore comes to is what it comes to with the world it leaves. -/
theorem restoreRaising_kept (manifest report : Value) (includeSettings : Bool) (w : World) :
    kept (restoreRaising digest openocd dir manifest report includeSettings w) =
      restore digest openocd dir manifest report includeSettings w >>= fun left =>
        pure ((), left) := by
  simp only [restoreRaising, restoreReport, restore, restoreBackup, kept_bind, kept_given,
    kept_pure, restoreItems_kept, runScript_kept, bind_assoc, pure_bind]
end

/-! ## Receipts -/

section
variable {digest : List UInt8 → String} {dir : RunDir} {U : Nat → Prop}

/-- Ranges equal to the one of a receipt. -/
theorem rangesValue_one {ranges : List Span} {s : Span}
    (h : (rangesValue ranges).eq (.list [.list [.int s.1, .int s.2]]) = true) : ranges = [s] := by
  obtain ⟨p, q, hlist, hp, hq⟩ := Value.eq_pairs h
  match ranges, hlist with
  | [t], hlist =>
    obtain ⟨rfl, rfl⟩ : .int t.1 = p ∧ .int t.2 = q := by simpa [rangesValue] using hlist
    have hfirst := Value.int_eq hp rfl
    have hsecond := Value.int_eq hq rfl
    rw [show t = s from Prod.ext hfirst.symm hsecond.symm]

theorem Unit16.rounded {s : Span} (h : Unit16 s) : rounded s = s := by
  have hstart := h.start
  have hstop := h.stop
  refine Prod.ext ?_ ?_
  · show s.1 / 16 * 16 = s.1
    omega
  · show (s.2 + 15) / 16 * 16 = s.2
    omega

/-- An item that is a range's receipt is taken only with that range. -/
theorem restoreItem_takes {allowlist : List (List Value)} {path found : String} {s : Span}
    (hunit : Unit16 s) (hin : ∀ a : Nat, s.Holds a → U a) (index : Nat) :
    Takes dir U (restoreItem digest dir allowlist (receipt path found s, index)) where
  within w := by
    refine within_given _ .refl fun source _ => within_observe _ .refl fun data _ => ?_
    refine within_change (fun _ _ _ => .trans) (disturbs_write (restoreName index) data) ?_
    refine within_given _ .refl fun _ _ => within_given _ .refl fun _ _ =>
      within_given _ .refl fun _ _ => ?_
    refine within_given _ .refl fun _ _ => within_given _ .refl fun _ _ =>
      within_given _ .refl fun _ _ => ?_
    exact within_given _ .refl fun _ _ => within_given _ .refl fun _ _ => within_pure _ .refl
  taken {w path w'} h := by
    simp only [restoreItem, Attempt.bind_ok, given_ok, observe_ok, change_ok, Attempt.pure_ok] at h
    obtain ⟨source, _, ⟨-, rfl⟩, data, _, ⟨-, rfl⟩, _, _, rfl, _, _, ⟨-, rfl⟩, _, _, ⟨-, rfl⟩,
      image, _, ⟨hparse, rfl⟩, _, _, ⟨-, rfl⟩, _, _, ⟨-, rfl⟩, range, _, ⟨hrange, rfl⟩, bounds, _,
      ⟨hbounds, rfl⟩, _, _, ⟨hsame, rfl⟩, rfl, rfl⟩ := h
    refine ⟨data, rfl, confined_ranges hparse fun t ht a ha => ?_⟩
    obtain rfl : .list [.int s.1, .int s.2] = range := Except.ok.inj hrange
    obtain rfl : [.int s.1, .int s.2] = bounds := Except.ok.inj hbounds
    have hranges := rangesValue_one (s := s) (by simpa using raiseIf_ok.mp hsame)
    rw [hranges] at ht
    obtain rfl := List.mem_singleton.mp ht
    rw [hunit.rounded] at ha
    exact hin a ha

end

/-! ## Restores -/

section
variable {digest : List UInt8 → String} {openocd : Tool} {dir : RunDir} {memory : Nat → UInt8}

theorem mem_receipts {index : Nat} {spans : List Span} {item : Value}
    (h : item ∈ receipts digest dir memory index spans) :
    ∃ path found s, s ∈ spans ∧ item = receipt path found s := by
  induction spans generalizing index with
  | nil => cases h
  | cons s rest ih =>
    rcases List.mem_cons.mp h with rfl | h
    · exact ⟨_, _, s, List.mem_cons_self .., rfl⟩
    · obtain ⟨path, found, t, ht, heq⟩ := ih h
      exact ⟨path, found, t, List.mem_cons_of_mem _ ht, heq⟩

/-- A restore of a backup's report, however it ends, changes no memory but the ranges of the
backup. -/
theorem restore_within (hdependable : Dependable openocd) {spans : List Span}
    (hunits : ∀ s ∈ spans, Unit16 s) {target : Identity} {includeSettings withSettings : Bool}
    (manifest : Value) (restoreDir : RunDir) (w : World) :
    Within (Disturbs restoreDir fun a : Nat => Covers spans a)
      (restoreRaising digest openocd restoreDir manifest
        (backupReport target (receipts digest dir memory 0 spans) includeSettings)
        withSettings) w := by
  have htrans : ∀ s s' s'', Disturbs restoreDir (fun a : Nat => Covers spans a) s s' →
      Disturbs restoreDir (fun a : Nat => Covers spans a) s' s'' →
      Disturbs restoreDir (fun a : Nat => Covers spans a) s s'' :=
    fun _ _ _ => .trans
  refine within_given _ .refl fun _ _ => within_given _ .refl fun _ _ =>
    within_given _ .refl fun _ _ => ?_
  refine within_given _ .refl fun backups hbackups => within_given _ .refl fun _ _ =>
    within_given _ .refl fun _ _ => ?_
  refine within_given _ .refl fun allowlist _ => within_given _ .refl fun items hitems => ?_
  obtain rfl : .list (receipts digest dir memory 0 spans) = backups := Except.ok.inj hbackups
  obtain rfl : receipts digest dir memory 0 spans = items := Except.ok.inj hitems
  have htakes : ∀ numbered ∈ (receipts digest dir memory 0 spans).zipIdx,
      Takes restoreDir (fun a : Nat => Covers spans a)
        (restoreItem digest restoreDir allowlist numbered) := by
    rintro ⟨item, index⟩ hnumbered
    obtain ⟨path, found, s, hs, rfl⟩ := mem_receipts (List.fst_mem_of_mem_zipIdx hnumbered)
    exact restoreItem_takes (hunits s hs) (fun a ha => ⟨s, hs, ha⟩) index
  refine within_bind htrans (within_each (fun _ => .refl) htrans (fun item hitem =>
    (htakes item hitem).within) w) fun paths s' htaken => ?_
  have hnone : Ready (fun a : Nat => Covers spans a) w [] := fun _ hnone => by cases hnone
  have hready : Ready (fun a : Nat => Covers spans a) s' paths := each_ready htakes hnone htaken
  refine within_bind htrans (runScript_programs hdependable hready "restore-identity" fun _ hc => by
    cases hc).disturbs
    fun output s'' hidentity => ?_
  have hsame : Programs (fun a : Nat => Covers spans a) s'
      (runScript openocd "restore-identity" [] s').2 :=
    runScript_programs hdependable hready "restore-identity" fun _ hc => by cases hc
  rw [hidentity] at hsame
  have hready' : Ready (fun a : Nat => Covers spans a) s'' paths := by
    intro path hpath
    rw [hsame.files]
    exact hready path hpath
  refine within_given _ .refl fun _ _ => within_given _ .refl fun _ _ =>
    within_given _ .refl fun commands hcommands => ?_
  obtain rfl := writeCommands_ok hcommands
  exact within_bind htrans (runScript_programs hdependable hready' "restore" fun _ hc =>
    hc).disturbs fun _ _ _ => .refl

/-! ## What was tried behind a backup -/

variable {o : Outside} {text : Value → String} {backupDir : RunDir} {manifest report : Value}

/-- What may happen behind a backup: files change, but for those of the backup, and the
manifest is flashed and backups are restored in new directories; each run may end anywhere. -/
inductive Tried (o : Outside) (openocd : Tool) (text : Value → String) (backupDir : RunDir)
    (manifest report : Value) :
    World → World → Prop
  | nothing (w : World) : Tried o openocd text backupDir manifest report w w
  | files {w w' : World} (h : Tried o openocd text backupDir manifest report w w') (files : String →
    Option (List UInt8))
    (hkept : ∀ i, files (backupDir.file (dumpName i ".hex")) =
      w'.files (backupDir.file (dumpName i ".hex"))) :
    Tried o openocd text backupDir manifest report w { w' with files }
  | flash {w w' : World} (h : Tried o openocd text backupDir manifest report w w') (dir : RunDir)
    (hfresh : ∀ name, w'.files (dir.file name) = none) :
    Tried o openocd text backupDir manifest report w (flash o.digest openocd text dir manifest w').2
  | restore {w w' : World} (h : Tried o openocd text backupDir manifest report w w') (dir : RunDir)
    (other : Value)
    (includeSettings : Bool) (hfresh : ∀ name, w'.files (dir.file name) = none) :
    Tried o openocd text backupDir manifest report w
      (restoreRaising o.digest openocd dir other report includeSettings w').2

/-- The files of a backup are not in a directory that is new. -/
theorem Kept.disturbed {spans : List Span} {dir : RunDir} {U : Nat → Prop} {w w' : World}
    (h : Kept backupDir memory w.files 0 spans) (hfresh : ∀ name, w.files (dir.file name) = none)
    (hdisturbs : Disturbs dir U w w') : Kept backupDir memory w'.files 0 spans := by
  intro k s hs
  rw [hdisturbs.files]
  · exact h k s hs
  · intro name heq
    have hthere := h k s hs
    rw [heq, hfresh] at hthere
    cases hthere

/-- Whatever is tried behind a backup leaves its files, the target, and all memory that it did
not take. -/
theorem tried_kept (hdependable : Dependable openocd) {path : String}
    (hloaded : loadManifest o path true = .ok manifest)
    (hunforged : Unforged o manifest) {includeSettings : Bool} {ranges : List Span}
    (hranges : backedRanges includeSettings [manifest] = .ok ranges)
    (hunits : ∀ s ∈ coalesce (sorted ranges), Unit16 s) {target : Identity} {w w' : World}
    (hw : Kept backupDir memory w.files 0 (coalesce (sorted ranges)))
    (h : Tried o openocd text backupDir manifest
      (backupReport target (receipts o.digest backupDir memory 0 (coalesce (sorted ranges)))
        includeSettings) w w') :
    Kept backupDir memory w'.files 0 (coalesce (sorted ranges)) ∧ w'.identity = w.identity ∧
      ∀ a : Nat, ¬ Covers ranges a → w'.memory a = w.memory a := by
  induction h with
  | nothing => exact ⟨hw, rfl, fun _ _ => rfl⟩
  | files _ files hkept ih =>
    obtain ⟨hfiles, hidentity, hmemory⟩ := ih
    exact ⟨fun k s hs => (hkept _).trans (hfiles k s hs), hidentity, hmemory⟩
  | @flash middle _ dir hfresh ih =>
    obtain ⟨hfiles, hidentity, hmemory⟩ := ih
    have hleft : Disturbs dir (fun a : Nat => Covers ranges a) middle
        (flash o.digest openocd text dir manifest middle).2 :=
      flash_within hdependable hloaded hunforged hranges middle
    exact ⟨hfiles.disturbed hfresh hleft, hleft.identity.trans hidentity,
      fun a ha => (hleft.memory a ha).trans (hmemory a ha)⟩
  | @restore middle _ dir other withSettings hfresh ih =>
    obtain ⟨hfiles, hidentity, hmemory⟩ := ih
    have hleft := @restore_within o.digest openocd backupDir memory hdependable _ hunits target
      includeSettings withSettings other dir middle
    exact ⟨hfiles.disturbed hfresh hleft, hleft.identity.trans hidentity,
      fun a ha => (hleft.memory a fun hcovered => ha (covers_coalesce_sorted.mp hcovered)).trans
        (hmemory a ha)⟩

theorem restoreRaising_ok {includeSettings : Bool} {w left : World} :
    restoreRaising digest openocd dir manifest report includeSettings w = (.ok (), left) ↔
      restore digest openocd dir manifest report includeSettings w = .ok left := by
  rw [← kept_ok, restoreRaising_kept]
  cases restore digest openocd dir manifest report includeSettings w <;>
    simp [bind, Except.bind, pure, Except.pure]

theorem restoreRaising_error {includeSettings : Bool} {w left : World} {e : Raised}
    (h : restoreRaising digest openocd dir manifest report includeSettings w = (.error e, left)) :
    restore digest openocd dir manifest report includeSettings w = .error e := by
  have hkept := @restoreRaising_kept digest openocd dir manifest report includeSettings w
  rw [h] at hkept
  cases hresult : restore digest openocd dir manifest report includeSettings w with
  | error e' =>
    rw [hresult] at hkept
    rw [show e = e' from Except.error.inj hkept]
  | ok left' =>
    rw [hresult] at hkept
    cases hkept

/-- A restore of a backup whose files are there, onto a target that changed only where the
backup took its bytes. -/
theorem restore_taken (hdependable : Dependable openocd) {includeSettings : Bool}
    {allowlist : List (List Value)} {ranges : List Span} {after : World} {restoreDir : RunDir}
    (hrequired : requireManifest includeSettings manifest = .ok ())
    (hallowlist : restoreAllowlist manifest includeSettings = .ok allowlist)
    (hmany : coalesce (sorted ranges) ≠ []) (hunits : ∀ s ∈ coalesce (sorted ranges), Unit16 s)
    (hsafe : ∀ c ∈ restoreDir.root.toList, c ∉ tclUnsafe)
    (hfiles : Kept backupDir memory after.files 0 (coalesce (sorted ranges)))
    (hfresh : ∀ name, after.files (restoreDir.file name) = none)
    (houtside : ∀ a : Nat, ¬ Covers ranges a → after.memory a = memory a) :
    let report := backupReport after.identity
      (receipts digest backupDir memory 0 (coalesce (sorted ranges))) includeSettings
    (∀ left, restoreRaising digest openocd restoreDir manifest report includeSettings after =
      (.ok (), left) →
        (∀ s ∈ coalesce (sorted ranges), insideAny s allowlist = .ok true) ∧
        left.memory = memory ∧ left.identity = after.identity) ∧
    ((∀ s ∈ coalesce (sorted ranges), insideAny s allowlist = .ok true) →
      (∀ e left, restoreRaising digest openocd restoreDir manifest report includeSettings after =
        (.error e, left) → RunFailed e) ∧
      (Responds openocd after.identity →
        ∃ left, restoreRaising digest openocd restoreDir manifest report includeSettings after =
          (.ok (), left))) := by
  have hsome : receipts digest backupDir memory 0 (coalesce (sorted ranges)) ≠ [] := by
    obtain ⟨s, rest, hspans⟩ := List.exists_cons_of_ne_nil hmany
    rw [hspans]
    exact List.cons_ne_nil _ _
  -- a file of the backup is there, so it is none of the new directory
  have hapart : ∀ i k s, (coalesce (sorted ranges))[k]? = some s →
      backupDir.file (dumpName (0 + k) ".hex") ≠ restoreDir.file (restoreName i) := by
    intro i k s hs heq
    have hthere := hfiles k s hs
    rw [heq, hfresh] at hthere
    cases hthere
  simp only [restoreRaising_ok]
  rcases @snapshotItems_receipts digest allowlist memory backupDir restoreDir
    (coalesce (sorted ranges)) 0 after hunits hfiles hapart with
    ⟨⟨s, hs, hout⟩, e, -, herror⟩ | ⟨hall, copied, hsnapshots, hcopied, hbeside⟩
  · have hrefused : restore digest openocd restoreDir manifest (backupReport after.identity
        (receipts digest backupDir memory 0 (coalesce (sorted ranges))) includeSettings)
          includeSettings after = .error e := by
      rw [restore_required hrequired, restoreBackup_report hsome hallowlist, herror]
      rfl
    rw [hrefused]
    exact ⟨(fun left hleft => by cases hleft), fun hall => absurd (hall s hs) hout⟩
  · have hrestores := restores_snapshots hdependable.toDocumented hrequired hsome hallowlist hsafe
      hunits hsnapshots hcopied hbeside
    refine ⟨fun left hleft => ⟨hall, funext fun a => ?_, ?_⟩, fun _ =>
      ⟨fun e left hleft => ?_, hrestores.succeeds⟩⟩
    · by_cases hin : Covers ranges a
      · exact hrestores.restored left hleft a hin
      · rw [hrestores.untouched left hleft a hin, houtside a hin]
    · have hframe := @restore_within digest openocd backupDir memory hdependable _ hunits
        after.identity includeSettings includeSettings manifest restoreDir after
      have hleft' := restoreRaising_ok.mpr hleft
      rw [Within, hleft'] at hframe
      exact hframe.identity
    · exact hrestores.refusal e (restoreRaising_error hleft)

/-- **Undoing a flash.** Whatever was tried behind a backup of a loaded manifest, and wherever
OpenOCD failed: a restore of that backup that returns leaves the whole memory as it was when
the backup was taken. Where every maximal run of the backed-up addresses passes the guard,
nothing but a run of OpenOCD that fails keeps it from that. -/
theorem restore_undoes (hdependable : Dependable openocd) {path : String}
    (hloaded : loadManifest o path true = .ok manifest)
    (hunforged : Unforged o manifest) {includeSettings : Bool} {w kept after : World}
    (hbackup : backup o.digest openocd backupDir manifest includeSettings w = .ok (report, kept))
    (htried : Tried o openocd text backupDir manifest report kept after) {restoreDir : RunDir}
    (hroot : restoreDir.root = backupDir.root)
    (hfresh : ∀ name, after.files (restoreDir.file name) = none) :
    (∀ left, restoreRaising o.digest openocd restoreDir manifest report includeSettings after =
      (.ok (), left) →
      left.memory = w.memory ∧ left.identity = w.identity) ∧
    (RunsAllowed includeSettings manifest →
      (∀ e left, restoreRaising o.digest openocd restoreDir manifest report includeSettings after =
        (.error e, left) → RunFailed e) ∧
      (Responds openocd w.identity →
        ∃ left, restoreRaising o.digest openocd restoreDir manifest report includeSettings after =
          (.ok (), left))) := by
  obtain ⟨ranges, hrequired, hranges, hmany, hunits, hseparated, hsafe, rfl, hkept, hidentity,
    hmemory⟩ := backup_ok hdependable.toDocumented hbackup
  obtain ⟨hfiles, hsame, houtside⟩ :=
    tried_kept hdependable hloaded hunforged hranges hunits hkept htried
  obtain ⟨allowlist, hallowlist⟩ := accepted_allowlist ⟨o, path, hloaded⟩ hrequired
  rw [← hroot] at hsafe
  have hidentities : w.identity = after.identity := (hsame.trans hidentity).symm
  have htaken := @restore_taken o.digest openocd w.memory backupDir manifest hdependable
    includeSettings _ ranges after restoreDir hrequired hallowlist hmany hunits hsafe hfiles
    hfresh fun a ha => by rw [houtside a ha, hmemory]
  rw [hidentities]
  exact ⟨fun left hleft => (htaken.1 left hleft).2, fun hruns =>
    htaken.2 ((runsAllowed_iff hranges hallowlist hseparated).mp hruns)⟩

end

/-! ## A target that is lost -/

def tornImage : String := flashRun.file "00-empty.hex"

/-- OpenOCD that loses the target while it writes the image of a flash. -/
def tornTool : Tool := fun commands w =>
  if commands = [.halt, .flashWriteImage tornImage, .verifyImage tornImage] ∧
    w.files tornImage = some Manifest.benchHex then
    (none, { w with memory := fun a => if a < 16 then 0xAA else w.memory a })
  else benchTool commands w

theorem benchHex_touches {a : Nat} (ha : a < 16) : Touches Manifest.benchHex a := by
  have hsome : ((fileRecords Manifest.benchHex).map fun records =>
      (writes 0 records).any fun cell => cell.1 = 0) = some true := by
    decide +kernel
  obtain ⟨records, hrecords, hany⟩ := Option.map_eq_some_iff.mp hsome
  obtain ⟨cell, hcell, hzero⟩ := List.any_eq_true.mp hany
  refine ⟨records, hrecords, cell, hcell, ?_⟩
  have := of_decide_eq_true hzero
  omega

theorem tornTool_dependable : Dependable tornTool where
  effect {commands w output w'} h := by
    unfold tornTool at h
    split at h
    · cases h
    · exact benchTool_documented.effect h
  identity {commands w output w'} h := by
    unfold tornTool at h
    split at h
    · cases h
    · exact benchTool_documented.identity h
  stops {commands w w'} h := by
    unfold tornTool at h
    split at h
    · rename_i hlost
      obtain ⟨rfl, hfile⟩ := hlost
      obtain rfl := (Prod.mk.inj h).2
      refine .behind (.within (.flash hfile fun a ha => if_neg fun hlow => ?_))
      exact ha (benchHex_touches hlow)
    · exact benchTool_dependable.stops h

/-- What the flash left, with the files of the backup. -/
def lost (kept : World) : World :=
  let torn := (flash Manifest.bench.digest tornTool Manifest.bench.text flashRun
    Manifest.benchManifest (staged kept)).2
  { torn with files := (erased backupRun kept).files }

/-- The target is lost while it is flashed; a restore brings its memory back. -/
theorem restore_undoes_torn :
    ∃ report kept left, backup Manifest.bench.digest tornTool backupRun Manifest.benchManifest false
      benchWorld = .ok (report, kept) ∧
      benchWorld.memory 0 = 0 ∧ (lost kept).memory 0 = 0xAA ∧
      restoreRaising Manifest.bench.digest tornTool restoreRun Manifest.benchManifest report false
        (lost kept) = (.ok (), left) ∧
      left.memory = benchWorld.memory := by
  have hdone : (backup Manifest.bench.digest tornTool backupRun Manifest.benchManifest false
      benchWorld).isOk = true := by decide +kernel
  obtain ⟨⟨report, kept⟩, hbackup⟩ := Manifest.isOk_ok hdone
  have hrun : ((backup Manifest.bench.digest tornTool backupRun Manifest.benchManifest false
      benchWorld).map fun made =>
      ((lost made.2).memory 0, (restoreRaising Manifest.bench.digest tornTool restoreRun
        Manifest.benchManifest made.1 false
        (lost made.2)).1.isOk)) = .ok (0xAA, true) := by decide +kernel
  rw [hbackup] at hrun
  obtain ⟨htorn, hok⟩ := Prod.mk.inj (Except.ok.inj hrun)
  have hranges : (backedRanges false [Manifest.benchManifest]) = .ok [(0, 16)] := by decide +kernel
  have hframe : Disturbs flashRun (fun a : Nat => Covers [(0, 16)] a) (staged kept)
      (flash Manifest.bench.digest tornTool Manifest.bench.text flashRun Manifest.benchManifest
        (staged kept)).2 :=
    flash_within tornTool_dependable bench_loaded bench_unforged hranges (staged kept)
  have htried : Tried Manifest.bench tornTool Manifest.bench.text backupRun Manifest.benchManifest
      report kept (lost kept) := by
    refine .files (.flash (.files (.nothing kept) (staged kept).files fun i =>
      staged_kept kept _) flashRun (staged_fresh kept)) _ fun i => ?_
    refine (erased_file backupRun kept _).trans
      ((hframe.files _ ?_).trans (staged_kept kept _)).symm
    intro name heq
    refine backup_apart name ?_
    rw [← heq]
    simp [RunDir.file]
  rcases hresult : restoreRaising Manifest.bench.digest tornTool restoreRun Manifest.benchManifest
    report false (lost kept) with
    ⟨e | ⟨⟩, left⟩
  · rw [hresult] at hok
    cases hok
  · have hroot : restoreRun.root = backupRun.root := rfl
    have hundone := (restore_undoes tornTool_dependable bench_loaded bench_unforged hbackup htried
      hroot (erased_other kept)).1 left
      hresult
    exact ⟨report, kept, left, hbackup, rfl, htorn, hresult, hundone.1⟩

end NrfKit.Tools.OpenOcd
