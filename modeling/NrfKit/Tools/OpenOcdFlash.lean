import NrfKit.Lib.Attempt
import NrfKit.Lib.Cut
import NrfKit.Tools.OpenOcdBackup

/- What `openocd flash` and `openocd restore` of `tools/nrfkit_tools/openocd_cli.py` leave on the
   target, also where OpenOCD fails in the middle of its script.

   RRAM is written in units of 16 bytes: a script that is cut leaves anything in the units of the
   image it was writing, and no other byte is touched (`Dependable`). A flash writes only what its
   snapshots hold, which are the images the manifest was loaded with. A backup takes whole units.
   So whatever was tried behind a backup, a restore that returns leaves all of the memory as it
   was when the backup was taken (`restore_undoes`). -/
namespace NrfKit.Tools.OpenOcd
open Python Bytes Text IntelHex Spans Attempt
open Manifest (Accepted loadManifest)
open Sdk (Outside rangesValue)

/-! ## Scripts that are cut -/

/-- The unit of the address is one the image writes to. -/
def Touches (data : List UInt8) (a : Nat) : Prop :=
  ∃ records, fileRecords data = some records ∧ ∃ cell ∈ writes 0 records, cell.1 / 16 = a / 16

/-- What a command may leave that does not come to its end. -/
inductive Interrupted : World → Command → World → Prop
  | unchanged (w : World) (c : Command) : Interrupted w c w
  | dump (w : World) (path : String) (start length : Int) (data : List UInt8) :
    Interrupted w (.dumpImage path start length) (w.write path data)
  | flash {w : World} {path : String} {data : List UInt8} {memory : Nat →
    UInt8} (hfile : w.files path = some data)
    (hmemory : ∀ a, ¬ Touches data a → memory a = w.memory a) :
      Interrupted w (.flashWriteImage path) { w with memory }

def script : Cut.Steps World Command where
  done := Command.effect
  cut := Interrupted

/-- A documented OpenOCD that did no more than the front of its script where it fails. -/
structure Dependable (openocd : Tool) : Prop extends Documented openocd where
  stops : ∀ {commands w w'}, openocd commands w = (none, w') → script.Stops commands w w'

/-! ## The commands -/

section
variable (digest : List UInt8 → String) (openocd : Tool) (text : Value → String) (dir : RunDir)

/-- `backend.run`. -/
def runScript (name : String) (commands : List Command) : Attempt World Raised String := fun w =>
  match openocd commands w with
  | (none, w) => (.error (runFailed name), w)
  | (some output, w) => ((parseIdentity output).map fun _ => output, w)

/-- A file in a directory that has none below it can be created. -/
def creatable (name : String) : Except Raised Unit := do
  raiseIf (Char.ofNat 0 ∈ name.toList) ⟨"ValueError", "embedded null byte"⟩
  raiseIf ('/' ∈ name.toList) ⟨"FileNotFoundError", "[Errno 2] No such file or directory"⟩

/-- What `_snapshot_hexes` does for an image. -/
def snapshotHex (item : Value) : Attempt World Raised String := do
  let source ← given (Cli.itemPath item)
  let name ← given (Cli.snapshotName text item)
  let snapshot := dir.file name
  let data ← observe fun w => readBytes w source
  given (raiseIf (source = snapshot) ⟨"SameFileError", "'" ++ source ++ "' and '" ++ snapshot ++
    "' are the same file"⟩)
  given (creatable name)
  change fun w => w.write snapshot data
  let expected ← given (item.item "sha256")
  given (raiseIf (¬ (Value.str (digest data)).eq expected)
    (Cli.toolError "image changed while creating the programming snapshot"))
  let parsed ← given (parseIhex snapshot (.ok data))
  let allowlist ← given (Cli.itemAllowlist item)
  given (requireAllowed parsed.ranges allowlist)
  pure snapshot

/-- `_snapshot_hexes`. -/
def snapshotHexes (manifest : Value) : Attempt World Raised (List String) := do
  let items ← given (Cli.imageItems manifest)
  each (snapshotHex digest text dir) items

/-- The snapshots are written and verified, behind a halt. -/
def program (name : String) (snapshots : List String) : Attempt World Raised Identity := do
  let commands ← given (writeCommands snapshots)
  let output ← runScript openocd name (.halt :: commands)
  given (parseIdentity output)

/-- `openocd flash` of a loaded manifest: what its report says of the target and the images. -/
def flash (manifest : Value) : Attempt World Raised (Identity × List String) := do
  given (requireManifest false manifest)
  let snapshots ← snapshotHexes digest text dir manifest
  let target ← program openocd "program" snapshots
  let digests ← each (fun path => observe fun w => (readBytes w path).map digest) snapshots
  pure (target, digests)

end

/-! ## The results -/

section
variable {digest : List UInt8 → String} {openocd : Tool} {dir : RunDir}

theorem runScript_kept (name : String) (commands : List Command) (w : World) :
    kept (runScript openocd name commands w) = run openocd name commands w := by
  unfold runScript run
  rcases openocd commands w with ⟨_ | output, w'⟩
  · rfl
  · dsimp only
    cases parseIdentity output <;> rfl

end

/-! ## Frames -/

/-- All that writing the file may touch is in `U`. -/
def Confined (U : Nat → Prop) (data : List UInt8) : Prop := ∀ a, Touches data a → U a

/-- What changed is memory in `U` and files of the directory. -/
structure Disturbs (dir : RunDir) (U : Nat → Prop) (w w' : World) : Prop where
  identity : w'.identity = w.identity
  files : ∀ path, (∀ name, path ≠ dir.file name) → w'.files path = w.files path
  memory : ∀ a, ¬ U a → w'.memory a = w.memory a

section
variable {dir : RunDir} {U : Nat → Prop} {w w' w'' : World}

theorem Disturbs.refl : Disturbs dir U w w := ⟨rfl, fun _ _ => rfl, fun _ _ => rfl⟩

theorem Disturbs.trans (h : Disturbs dir U w w') (h' : Disturbs dir U w' w'') :
    Disturbs dir U w w'' where
  identity := h'.identity.trans h.identity
  files path hpath := (h'.files path hpath).trans (h.files path hpath)
  memory a ha := (h'.memory a ha).trans (h.memory a ha)

theorem disturbs_write (name : String) (data : List UInt8) :
    Disturbs dir U w (w.write (dir.file name) data) :=
  ⟨rfl, fun _ hpath => if_neg (hpath name), fun _ _ => rfl⟩

/-- The images are there, and confined. -/
def Ready (U : Nat → Prop) (w : World) (paths : List String) : Prop :=
  ∀ path ∈ paths, ∃ data, w.files path = some data ∧ Confined U data

/-- What a script of confined images may change. -/
structure Programs (U : Nat → Prop) (w w' : World) : Prop where
  identity : w'.identity = w.identity
  files : w'.files = w.files
  memory : ∀ a, ¬ U a → w'.memory a = w.memory a

theorem Programs.disturbs (h : Programs U w w') : Disturbs dir U w w' :=
  ⟨h.identity, fun path _ => congrFun h.files path, h.memory⟩

theorem mem_flashCommands {paths : List String} {c : Command}
    (h : c ∈ .halt :: flashCommands paths) :
    c = .halt ∨ ∃ path ∈ paths, c = .flashWriteImage path ∨ c = .verifyImage path := by
  simpa [flashCommands] using h

theorem effect_programs {paths : List String} (hready : Ready U w paths) {c : Command}
    (hc : c ∈ .halt :: flashCommands paths) (h : Programs U w w') :
    Programs U w (Command.effect w' c) := by
  rcases mem_flashCommands hc with rfl | ⟨path, hpath, rfl | rfl⟩
  · exact h
  · obtain ⟨data, hdata, hconfined⟩ := hready path hpath
    rw [← h.files] at hdata
    cases hrecords : fileRecords data with
    | none =>
      simp only [Command.effect, hdata, Option.bind_some, hrecords]
      exact h
    | some records =>
      simp only [Command.effect, hdata, Option.bind_some, hrecords]
      refine ⟨h.identity, h.files, fun a ha => ?_⟩
      show store w'.memory (writes 0 records) a = w.memory a
      rw [store_other fun cell hcell heq =>
        ha (hconfined a ⟨records, hrecords, cell, hcell, by rw [heq]⟩)]
      exact h.memory a ha
  · exact h

theorem interrupted_programs {paths : List String} (hready : Ready U w paths) {c : Command}
    (hc : c ∈ .halt :: flashCommands paths) (h : Programs U w w')
    (hcut : Interrupted w' c w'') : Programs U w w'' := by
  cases hcut with
  | unchanged => exact h
  | dump path start length data =>
    rcases mem_flashCommands hc with hcommand | ⟨_, _, hcommand | hcommand⟩ <;> cases hcommand
  | flash hfile hmemory =>
    rename_i path data memory
    rcases mem_flashCommands hc with hcommand | ⟨found, hpath, hcommand | hcommand⟩
    · cases hcommand
    · obtain rfl : path = found := by simpa using hcommand
      obtain ⟨data', hdata, hconfined⟩ := hready path hpath
      rw [h.files, hdata] at hfile
      obtain rfl := Option.some.inj hfile
      refine ⟨h.identity, h.files, fun a ha => ?_⟩
      exact (hmemory a fun htouches => ha (hconfined a htouches)).trans (h.memory a ha)
    · cases hcommand

variable {openocd : Tool}

/-- However the script ends, it changes no more than its images are confined to. -/
theorem runScript_programs (hdependable : Dependable openocd) {paths : List String}
    (hready : Ready U w paths) (name : String) {commands : List Command}
    (hcommands : ∀ c ∈ commands, c ∈ .halt :: flashCommands paths) :
    Programs U w (runScript openocd name commands w).2 := by
  have hstart : Programs U w w := ⟨rfl, rfl, fun _ _ => rfl⟩
  have hdone : ∀ c ∈ commands, ∀ s, Programs U w s → Programs U w (script.done s c) :=
    fun c hc s hs => effect_programs hready (hcommands c hc) hs
  unfold runScript
  rcases htool : openocd commands w with ⟨_ | output, left⟩
  · exact (hdependable.stops htool).inv hdone (fun c hc s s' hs hcut =>
      interrupted_programs hready (hcommands c hc) hs hcut) hstart
  · obtain rfl := hdependable.effect htool
    exact Cut.run_inv (m := script) hdone hstart

end

/-! ## Snapshots -/

section
variable {dir : RunDir} {U : Nat → Prop} {w w' : World}

/-- An image whose ranges lie in `U` with their units is confined. -/
theorem confined_ranges {path : String} {data : List UInt8} {image : ParsedImage}
    (hparse : parseIhex path (.ok data) = .ok image)
    (h : ∀ s ∈ image.ranges, ∀ a : Nat, (rounded s).Holds a → U a) : Confined U data := by
  obtain ⟨data', hdata, -, -, hwritten⟩ := parseIhex_ok hparse
  obtain rfl := Except.ok.inj hdata
  rintro a ⟨records, hrecords, cell, hcell, hunit⟩
  obtain ⟨s, hs, hfrom, hto⟩ := (hwritten cell.1).mpr ⟨records, hrecords, cell, hcell, rfl⟩
  refine h s hs a ?_
  show s.1 / 16 * 16 ≤ (a : Int) ∧ (a : Int) < (s.2 + 15) / 16 * 16
  omega

/-- What takes a snapshot, and returns where it was written only an image that is confined. -/
structure Takes (dir : RunDir) (U : Nat → Prop) (m : Attempt World Raised String) : Prop where
  within : ∀ w, Within (Disturbs dir U) m w
  taken : ∀ {w path w'}, m w = (.ok path, w') → ∃ data, w' = w.write path data ∧ Confined U data

theorem Ready.write {paths : List String} (h : Ready U w paths) (path : String) {data : List UInt8}
    (hdata : Confined U data) :
    Ready U (w.write path data) paths := by
  intro other hother
  obtain ⟨old, hold, hconfined⟩ := h other hother
  by_cases heq : other = path
  · exact ⟨data, if_pos heq, hdata⟩
  · exact ⟨old, (if_neg heq).trans hold, hconfined⟩

theorem each_ready {α : Type} {m : α → Attempt World Raised String} {items : List α}
    (hm : ∀ item ∈ items, Takes dir U (m item)) {front paths : List String}
    (hfront : Ready U w front)
    (h : each m items w = (.ok paths, w')) : Ready U w' (front ++ paths) := by
  induction items generalizing front paths w with
  | nil =>
    obtain ⟨rfl, rfl⟩ := pure_ok.mp h
    rwa [List.append_nil]
  | cons item rest ih =>
    obtain ⟨hfirst, hrest⟩ := List.forall_mem_cons.mp hm
    obtain ⟨path, middle, htaken, h⟩ := Attempt.bind_ok.mp h
    obtain ⟨later, last, hlater, h⟩ := Attempt.bind_ok.mp h
    obtain ⟨rfl, rfl⟩ := Attempt.pure_ok.mp h
    obtain ⟨data, rfl, hdata⟩ := hfirst.taken htaken
    have hready : Ready U (w.write path data) (front ++ [path]) := by
      intro other hother
      rcases List.mem_append.mp hother with hother | hother
      · exact hfront.write path hdata other hother
      · obtain rfl := List.mem_singleton.mp hother
        exact ⟨data, if_pos rfl, hdata⟩
    rw [List.append_cons]
    exact ih hrest hready hlater

variable {openocd : Tool}

theorem writeCommands_ok {paths : List String} {commands : List Command}
    (h : writeCommands paths = .ok commands) :
    commands = flashCommands paths := by
  induction paths generalizing commands with
  | nil => exact (Except.ok.inj h).symm
  | cons path rest ih =>
    obtain ⟨word, hword, h⟩ := Python.bind_ok.mp h
    obtain ⟨later, hlater, h⟩ := Python.bind_ok.mp h
    obtain rfl := Python.pure_ok.mp h
    obtain ⟨-, rfl⟩ := tclWord_ok.mp hword
    rw [ih hlater]
    rfl

theorem program_within (hdependable : Dependable openocd) {paths : List String}
    (hready : Ready U w paths) (name : String) :
    Within (Disturbs dir U) (program openocd name paths) w := by
  refine within_given _ .refl fun commands hcommands => ?_
  obtain rfl := writeCommands_ok hcommands
  refine within_bind (fun _ _ _ => .trans) (runScript_programs hdependable hready name fun _ hc =>
    hc).disturbs fun output w' _ => ?_
  exact Disturbs.refl

variable {digest : List UInt8 → String} {text : Value → String}

/-- An item of a flash takes the image it is given the digest of. -/
theorem snapshotHex_takes {item : Value}
    (haudited : ∀ data expected, item.item "sha256" = .ok expected →
      (Value.str (digest data)).eq expected = true → Confined U data) :
    Takes dir U (snapshotHex digest text dir item) where
  within w := by
    refine within_given _ .refl fun source _ => within_given _ .refl fun name _ =>
      within_observe _ .refl fun data _ => ?_
    refine within_given _ .refl fun _ _ => within_given _ .refl fun _ _ => ?_
    refine within_change (fun _ _ _ => .trans) (disturbs_write name data) ?_
    refine within_given _ .refl fun _ _ => within_given _ .refl fun _ _ =>
      within_given _ .refl fun _ _ => ?_
    exact within_given _ .refl fun _ _ => within_given _ .refl fun _ _ => within_pure _ .refl
  taken {w path w'} h := by
    simp only [snapshotHex, Attempt.bind_ok, given_ok, observe_ok, change_ok, Attempt.pure_ok] at h
    obtain ⟨source, _, ⟨-, rfl⟩, name, _, ⟨-, rfl⟩, data, _, ⟨-, rfl⟩, _, _, ⟨-, rfl⟩, _, _,
      ⟨-, rfl⟩, _, _, rfl, expected, _, ⟨hexpected, rfl⟩, _, _, ⟨hsame, rfl⟩, _, _, ⟨-, rfl⟩, _, _,
      ⟨-, rfl⟩, _, _, ⟨-, rfl⟩, rfl, rfl⟩ := h
    exact ⟨data, rfl, haudited data expected hexpected (by simpa using raiseIf_ok.mp hsame)⟩

end

/-! ## The images of a manifest -/

section
variable {o : Outside} {manifest : Value}

/-- No other bytes have the digest of an image the manifest was loaded with. -/
def Unforged (o : Outside) (manifest : Value) : Prop :=
  ∀ items, Cli.imageItems manifest = .ok items → ∀ item ∈ items, ∀ path data,
    Cli.itemPath item = .ok path →
    o.files path = .ok data → ∀ other, o.digest other = o.digest data → other = data

/-- What a loaded manifest says of an image. -/
theorem loaded_image {path : String} (hloaded : loadManifest o path true = .ok manifest)
    {items : List Value} (hitems : Cli.imageItems manifest = .ok items) {item : Value}
    (hitem : item ∈ items) :
    ∃ source data image listed, Cli.itemPath item = .ok source ∧ o.files source = .ok data ∧
      item.item "sha256" = .ok (.str (o.digest data)) ∧ parseIhex source (.ok data) = .ok image ∧
      item.item "ranges" = .ok listed ∧ (rangesValue image.ranges).eq listed = true := by
  have hartifacts := Manifest.loadManifest_artifacts hloaded
  have hsteps := hartifacts
  obtain ⟨debugElf, hdebugElf, hsteps⟩ := Python.bind_ok.mp hsteps
  obtain ⟨debugAllowlist, hdebugAllowlist, hsteps⟩ := Python.bind_ok.mp hsteps
  obtain ⟨images, himages, -⟩ := Python.bind_ok.mp hsteps
  have hiterate : images.iterate = .ok items := by rwa [Cli.imageItems, himages] at hitems
  obtain ⟨-, hlisted⟩ :=
    Manifest.requireArtifacts_ok hartifacts hdebugElf hdebugAllowlist himages hiterate
  obtain ⟨artifact, rfl, hparser, -, h⟩ := hlisted item hitem
  obtain ⟨source, hsource, h⟩ := Python.bind_ok.mp h
  obtain ⟨_, _, h⟩ := Python.bind_ok.mp h
  obtain ⟨found, hfound, h⟩ := Python.bind_ok.mp h
  obtain ⟨expected, hexpected, h⟩ := Python.bind_ok.mp h
  obtain ⟨_, hsame, h⟩ := Python.bind_ok.mp h
  obtain ⟨image, himage, h⟩ := Python.bind_ok.mp h
  obtain ⟨_, _, h⟩ := Python.bind_ok.mp h
  obtain ⟨_, _, h⟩ := Python.bind_ok.mp h
  obtain ⟨_, _, h⟩ := Python.bind_ok.mp h
  obtain ⟨_, _, h⟩ := Python.bind_ok.mp h
  obtain ⟨listed, hranges, hequal⟩ := Python.bind_ok.mp h
  rw [hparser] at himage
  obtain ⟨data, hdata, -⟩ := parseIhex_ok himage
  rw [Sdk.sha256, hdata] at hfound
  obtain rfl := Except.ok.inj hfound
  obtain rfl := Value.eq_str (by simpa using raiseIf_ok.mp hsame)
  rw [hdata] at himage
  exact ⟨source, data, image, listed, hsource, hdata, hexpected, himage, hranges,
    by simpa using raiseIf_ok.mp hequal⟩

theorem integerRange_eq {s t : Span} {w : Value} (h : (Value.list [.int s.1, .int s.2]).eq w = true)
    (ht : integerRange w = .ok t) : t = s := by
  obtain ⟨found, rfl, hitems⟩ := Value.list_eq h
  obtain ⟨⟨first, second⟩, hpair, ht⟩ := Python.bind_ok.mp ht
  match found, hitems with
  | [], hitems => simp [Value.eqItems] at hitems
  | [_], hitems => simp [Value.eqItems] at hitems
  | [a, b], hitems =>
    obtain ⟨rfl, rfl⟩ : a = first ∧ b = second := by simpa [Value.pair, Value.iterate] using hpair
    simp only [Value.eqItems, Bool.and_true, Bool.and_eq_true] at hitems
    dsimp only at ht
    split at ht
    · rename_i start stop hstart hstop
      cases ht
      exact Prod.ext (Value.int_eq hitems.1 hstart) (Value.int_eq hitems.2 hstop)
    · cases ht
  | _ :: _ :: _ :: _, hitems => simp [Value.eqItems] at hitems

/-- The units of an image's ranges are among those a backup takes. -/
theorem backed_listed {includeSettings : Bool} {ranges : List Span}
    (hranges : backedRanges includeSettings [manifest] = .ok ranges) {items : List Value}
    (hitems : Cli.imageItems manifest = .ok items) {item listed : Value}
    (hitem : item ∈ items) (hlisted : item.item "ranges" = .ok listed) {found : List Span}
    (hfound : (rangesValue found).eq listed = true) {s : Span}
    (hs : s ∈ found) : rounded s ∈ ranges := by
  obtain ⟨all, hall, hflat⟩ := Python.bind_ok.mp hranges
  obtain rfl := Python.pure_ok.mp hflat
  obtain ⟨backed, hbacked, hmanifest⟩ := mapM_image hall (List.mem_singleton_self manifest)
  obtain ⟨settings, -, hmanifest⟩ := Python.bind_ok.mp hmanifest
  obtain ⟨items', hitems', hmanifest⟩ := Python.bind_ok.mp hmanifest
  obtain ⟨spans, hspans, hmanifest⟩ := Python.bind_ok.mp hmanifest
  obtain rfl := Python.pure_ok.mp hmanifest
  obtain rfl := Except.ok.inj (hitems.symm.trans hitems')
  obtain ⟨inner, hinner, hitemRanges⟩ := mapM_image hspans hitem
  obtain ⟨listed', hlisted', hitemRanges⟩ := Python.bind_ok.mp hitemRanges
  obtain ⟨values, hvalues, hitemRanges⟩ := Python.bind_ok.mp hitemRanges
  obtain rfl := Except.ok.inj (hlisted.symm.trans hlisted')
  obtain ⟨values', rfl, hequal⟩ := Value.list_eq hfound
  obtain rfl : values' = values := Except.ok.inj hvalues
  obtain ⟨value, hvalue, heq⟩ := Value.eqItems_mem hequal (List.mem_map.mpr ⟨s, hs, rfl⟩)
  obtain ⟨range, hrange, hrounded⟩ := mapM_image hitemRanges hvalue
  obtain ⟨span, hspan, hrounded⟩ := Python.bind_ok.mp hrounded
  obtain ⟨_, -, hrounded⟩ := Python.bind_ok.mp hrounded
  obtain ⟨_, -, hrounded⟩ := Python.bind_ok.mp hrounded
  obtain rfl := Python.pure_ok.mp hrounded
  obtain rfl := integerRange_eq heq hspan
  exact List.mem_flatten.mpr ⟨_, hbacked,
    List.mem_append_right _ (List.mem_flatten.mpr ⟨inner, hinner, hrange⟩)⟩

variable {text : Value → String} {dir : RunDir}

/-- What a flash takes of a manifest lies in what a backup of it takes. -/
theorem flash_takes {path : String} (hloaded : loadManifest o path true = .ok manifest)
    (hunforged : Unforged o manifest) {includeSettings : Bool} {ranges : List Span}
    (hranges : backedRanges includeSettings [manifest] = .ok ranges) {items : List Value}
    (hitems : Cli.imageItems manifest = .ok items) {item : Value} (hitem : item ∈ items) :
    Takes dir (fun a : Nat => Covers ranges a) (snapshotHex o.digest text dir item) := by
  obtain ⟨source, data, image, listed, hsource, hdata, hdigest, himage, hlisted, hequal⟩ :=
    loaded_image hloaded hitems hitem
  refine snapshotHex_takes fun other expected hexpected hsame => ?_
  obtain rfl := Except.ok.inj (hdigest.symm.trans hexpected)
  obtain heq := Value.eq_str hsame
  obtain rfl := hunforged items hitems item hitem source data hsource hdata other
    (by simpa using heq.symm)
  exact confined_ranges himage fun s hs a ha =>
    ⟨rounded s, backed_listed hranges hitems hitem hlisted hequal hs, ha⟩

variable {openocd : Tool}

/-- A flash, however it ends, changes no memory but what a backup of its manifest takes. -/
theorem flash_within (hdependable : Dependable openocd) {path : String}
    (hloaded : loadManifest o path true = .ok manifest)
    (hunforged : Unforged o manifest) {includeSettings : Bool} {ranges : List Span}
    (hranges : backedRanges includeSettings [manifest] = .ok ranges) (w : World) :
    Within (Disturbs dir fun a : Nat => Covers ranges a)
      (flash o.digest openocd text dir manifest) w := by
  refine within_given _ .refl fun _ _ => ?_
  have htrans : ∀ s s' s'', Disturbs dir (fun a : Nat => Covers ranges a) s s' →
      Disturbs dir (fun a : Nat => Covers ranges a) s' s'' →
      Disturbs dir (fun a : Nat => Covers ranges a) s s'' := fun _ _ _ => .trans
  have hsnapshots : ∀ s, Within (Disturbs dir fun a : Nat => Covers ranges a)
      (snapshotHexes o.digest text dir manifest) s ∧
      ∀ paths s', snapshotHexes o.digest text dir manifest s = (.ok paths, s') →
        Ready (fun a : Nat => Covers ranges a) s' paths := by
    intro s
    constructor
    · refine within_given _ .refl fun items hitems => ?_
      exact within_each (fun _ => .refl) htrans (fun item hitem =>
        (flash_takes hloaded hunforged hranges hitems hitem).within) s
    · intro paths s' h
      obtain ⟨items, _, hgiven, h⟩ := Attempt.bind_ok.mp h
      obtain ⟨hitems, rfl⟩ := given_ok.mp hgiven
      have hnone : Ready (fun a : Nat => Covers ranges a) s [] := fun _ hnone => by cases hnone
      exact each_ready (fun item hitem =>
        flash_takes hloaded hunforged hranges hitems hitem) hnone h
  refine within_bind htrans (hsnapshots w).1 fun paths s' htaken => ?_
  refine within_bind htrans
    (program_within hdependable ((hsnapshots w).2 paths s' htaken) "program") fun target s'' _ => ?_
  refine within_bind htrans (within_each (fun _ => .refl) htrans (fun path _ s => ?_) s'')
    fun digests s''' _ => .refl
  exact Disturbs.refl

end

/-! ## The names of the snapshots -/

section
variable {text : Value → String}

variable {o : Outside} {manifest : Value} {items : List Value}

end

/-! ## What a flash stores -/

/-- The memory with an image in it. -/
def stored (memory : Nat → UInt8) (data : List UInt8) : Nat → UInt8 :=
  match fileRecords data with
  | some records => store memory (writes 0 records)
  | none => memory

section
variable {o : Outside} {openocd : Tool} {text : Value → String} {dir : RunDir} {manifest : Value}

/-- The files the manifest lists, in their order. -/
def Images (o : Outside) (manifest : Value) (images : List (List UInt8)) : Prop :=
  ∃ items, Cli.imageItems manifest = .ok items ∧
    List.Forall₂ (fun item data => ∃ source, Cli.itemPath item = .ok source ∧
      o.files source = .ok data) items images

theorem loaded_list {path : String} (hloaded : loadManifest o path true = .ok manifest)
    {items : List Value} (hitems : Cli.imageItems manifest = .ok items) :
    manifest.item "images" = .ok (.list items) := by
  have hsteps := Manifest.loadManifest_artifacts hloaded
  obtain ⟨_, _, hsteps⟩ := Python.bind_ok.mp hsteps
  obtain ⟨_, _, hsteps⟩ := Python.bind_ok.mp hsteps
  obtain ⟨images, himages, hsteps⟩ := Python.bind_ok.mp hsteps
  obtain ⟨_, hfilled, -⟩ := Python.bind_ok.mp hsteps
  have hlist : Manifest.isFilled images = true := by simpa using raiseIf_ok.mp hfilled
  have hiterate : images.iterate = .ok items := by rwa [Cli.imageItems, himages] at hitems
  cases images with
  | list found =>
    obtain rfl := Except.ok.inj hiterate
    exact himages
  | _ => cases hlist

/-- A file that is listed as an image. -/
theorem Images.listed {path : String} (hloaded : loadManifest o path true = .ok manifest)
    {images : List (List UInt8)} (h : Images o manifest images) {data : List UInt8}
    (hdata : data ∈ images) : Manifest.Listed o.files manifest data := by
  obtain ⟨items, hitems, hall⟩ := h
  obtain ⟨i, hi, rfl⟩ := List.mem_iff_getElem.mp hdata
  have hlength := hall.length_eq
  obtain ⟨source, hsource, hfile⟩ := (List.forall₂_iff_get.mp hall).2 i (by omega) hi
  exact ⟨items, items.get ⟨i, by omega⟩, source, loaded_list hloaded hitems, List.get_mem ..,
    Manifest.itemPath_ok hsource, hfile⟩

end

/-! ## A flash of one image -/

def flashRun : RunDir :=
  ⟨"/state/runs", "20250101T000030Z-flash-cd34ef56", plain_word (by decide +kernel)⟩

theorem benchTool_dependable : Dependable benchTool where
  toDocumented := benchTool_documented
  stops {commands w w'} h := by
    unfold benchTool at h
    split at h
    · cases h
    · obtain rfl := (Prod.mk.inj h).2
      exact .here commands w

/-- The host before a flash: of its files the image, and those of the backup. -/
def staged (kept : World) : World :=
  { kept with files := fun path => if path = "/build/empty.hex" then some Manifest.benchHex
    else (erased backupRun kept).files path }

theorem bench_unforged : Unforged Manifest.bench Manifest.benchManifest := by
  intro items hitems item hitem path data hpath hdata other hother
  obtain rfl := Except.ok.inj hitems
  obtain rfl := List.mem_singleton.mp hitem
  obtain rfl := Except.ok.inj hpath
  obtain rfl : Manifest.benchHex = data := Except.ok.inj hdata
  have himage : Manifest.bench.digest Manifest.benchHex = Manifest.benchHexDigest := by
    decide +kernel
  rw [himage] at hother
  simp only [Manifest.bench] at hother
  split at hother
  · exact absurd hother (by decide +kernel)
  · split at hother
    · assumption
    · exact absurd hother (by decide +kernel)

theorem bench_loaded : loadManifest Manifest.bench "/build/empty.device-manifest.json" true =
      .ok Manifest.benchManifest := by
  have haudited : (Manifest.auditManifest Manifest.bench Manifest.benchManifest true).isOk =
      true := by decide +kernel
  obtain ⟨audited, hvalue⟩ := Manifest.isOk_ok haudited
  rw [Manifest.auditManifest_value hvalue] at hvalue
  refine Python.bind_ok.mpr ⟨Manifest.benchManifest, ?_, hvalue⟩
  rw [Manifest.bench_read, Sdk.caught]

theorem backup_apart (name : String) :
    ¬ (backupRun.file "").toList <+: (flashRun.file name).toList := by
  intro hback
  have hflash : (flashRun.file "").toList <+: (flashRun.file name).toList := by simp [RunDir.file]
  have hsame := List.prefix_or_prefix_of_prefix hback hflash
  revert hsame
  decide +kernel

/-- No file of a run is the image. -/
theorem run_file_ne {dir : RunDir} (hroot : dir.root = "/state/runs") (name : String) :
    dir.file name ≠ "/build/empty.hex" := by
  intro heq
  have hlists := congrArg (fun path => path.toList.take 7) heq
  simp [RunDir.file, hroot] at hlists

theorem staged_fresh (kept : World) (name : String) :
    (staged kept).files (flashRun.file name) = none := by
  have hname : flashRun.file name ≠ "/build/empty.hex" := run_file_ne rfl name
  simp only [staged, if_neg hname]
  exact if_neg (backup_apart name)

theorem staged_kept (kept : World) (name : String) :
    (staged kept).files (backupRun.file name) = kept.files (backupRun.file name) := by
  have hname : backupRun.file name ≠ "/build/empty.hex" := run_file_ne rfl name
  simp only [staged, if_neg hname, erased_file]

end NrfKit.Tools.OpenOcd
