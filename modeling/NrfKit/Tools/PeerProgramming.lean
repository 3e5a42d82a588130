import NrfKit.Tools.Manifest
import NrfKit.Tools.PowerRecovery
import NrfKit.Tools.Programming

/- What the power suite hands to the programmer: the backup of the peer, as it was read. The
   read is of the hull of the peer manifests' image ranges, and nothing guards what it gives
   before it is programmed back (`backup_programmed`). So the backup writes only what the
   manifests of the run allow exactly where the whole hull is allowed. -/
namespace NrfKit.Tools.PowerSuite
open Effects Prog Python Spans
open Cli (HexFile ManifestAllows Safe)
open Manifest (Accepted benchHex benchHexDigest lowImage lowImageText smallImage smallImageText
  smallManifest smallText small_accepted
  upperHexDigest)

/-! ## The hull -/

theorem foldl_min_le {numbers : List Int} {first a : Int} :
    numbers.foldl min first ≤ a ↔ ∃ n ∈ first :: numbers, n ≤ a := by
  induction numbers generalizing first with
  | nil => simp
  | cons n rest ih =>
    rw [List.foldl_cons, ih]
    simp [or_assoc]

theorem lt_foldl_max {numbers : List Int} {first a : Int} :
    a < numbers.foldl max first ↔ ∃ n ∈ first :: numbers, a < n := by
  induction numbers generalizing first with
  | nil => simp
  | cons n rest ih =>
    rw [List.foldl_cons, ih]
    simp [or_assoc]

/-- The hull holds what lies between the start of a span and the end of one. -/
theorem hull_holds {spans : List Span} {span : Span} (h : hull spans = .ok span) (a : Int) :
    span.Holds a ↔ (∃ s ∈ spans, s.1 ≤ a) ∧ ∃ t ∈ spans, a < t.2 := by
  cases spans with
  | nil => cases h
  | cons first rest =>
    cases h
    have hmap : ∀ (f : Span → Int) (p : Int → Prop), (∃ n ∈ f first :: rest.map f, p n) ↔
        ∃ s ∈ first :: rest, p (f s) := by
      intro f p
      rw [← List.map_cons]
      simp only [List.mem_map, exists_exists_and_eq_and]
    simp only [Span.Holds, foldl_min_le, lt_foldl_max, hmap]

theorem hull_nonneg {spans : List Span} {span : Span} (h : hull spans = .ok span)
    (hspans : ∀ s ∈ spans, 0 ≤ s.1) : 0 ≤ span.1 := by
  cases spans with
  | nil => cases h
  | cons first rest =>
    cases h
    refine Int.not_lt.mp fun hlt => ?_
    have hle : (rest.map Prod.fst).foldl min first.1 ≤ -1 := by omega
    obtain ⟨n, hn, hneg⟩ := foldl_min_le.mp hle
    obtain ⟨s, hs, rfl⟩ := List.mem_map.mp (show n ∈ (first :: rest).map Prod.fst from hn)
    have := hspans s hs
    omega

/-! ## Accepted manifests -/

section
open Value

/-- A pair equal to a span is that span. -/
theorem spanOf_eq {s t : Span} {w : Value} (h : (Value.list [.int s.1, .int s.2]).eq w = true)
    (ht : spanOf w = .ok t) : t = s := by
  obtain ⟨found, rfl, hitems⟩ := list_eq h
  unfold spanOf at ht
  match found, hitems with
  | [], hitems => simp [eqItems] at hitems
  | [_], hitems => simp [eqItems] at hitems
  | [a, b], hitems =>
    simp only [eqItems, Bool.and_true, Bool.and_eq_true] at hitems
    simp only [pair, iterate] at ht
    split at ht
    · rename_i start stop hstart hstop
      cases ht
      exact Prod.ext (int_eq hitems.1 hstart) (int_eq hitems.2 hstop)
    · cases ht
  | _ :: _ :: _ :: _, hitems => simp [eqItems] at hitems

theorem spans_eq {ranges spans : List Span} {found : List Value}
    (h : eqItems (ranges.map fun s => .list [.int s.1, .int s.2]) found = true)
    (hspans : found.mapM spanOf = .ok spans) :
    spans = ranges := by
  induction ranges generalizing found spans with
  | nil =>
    cases found with
    | nil => exact (pure_ok.mp hspans).symm
    | cons w rest => simp [eqItems] at h
  | cons s ranges ih =>
    cases found with
    | nil => simp [eqItems] at h
    | cons w rest =>
      rw [List.map_cons, eqItems, Bool.and_eq_true] at h
      rw [List.mapM_cons] at hspans
      obtain ⟨t, ht, hspans⟩ := bind_ok.mp hspans
      obtain ⟨others, hothers, hspans⟩ := bind_ok.mp hspans
      obtain rfl := pure_ok.mp hspans
      rw [spanOf_eq h.1 ht, ih h.2 hothers]

end

theorem imageSpans_ok {image : Value} {spans : List Span} (h : imageSpans image = .ok spans) :
    ∃ ranges items, image.item "ranges" = .ok ranges ∧ ranges.iterate = .ok items ∧
      items.mapM spanOf = .ok spans := by
  unfold imageSpans at h
  split at h
  · cases h
  · rename_i ranges hranges
    split at h
    · cases h
    · rename_i items hitems
      exact ⟨ranges, items, hranges, hitems, h⟩

theorem manifestSpans_ok {manifest : Value} {spans : List Span}
    (h : manifestSpans manifest = .ok spans) {s : Span} (hs : s ∈ spans) :
    ∃ images image found, Cli.imageItems manifest = .ok images ∧ image ∈ images ∧
      imageSpans image = .ok found ∧ s ∈ found := by
  unfold manifestSpans at h
  split at h
  · cases h
  · rename_i images himages
    cases hfound : images.mapM imageSpans with
    | error e =>
      rw [hfound] at h
      cases h
    | ok found =>
      rw [hfound] at h
      cases h
      obtain ⟨part, hpart, hs⟩ := List.mem_flatten.mp hs
      obtain ⟨image, himage, hspans⟩ := mapM_mem hfound hpart
      exact ⟨images, image, part, himages, himage, hspans, hs⟩

/-- The ranges of an accepted manifest are those of the images it checked. -/
theorem accepted_nonneg {manifest : Value} (h : Accepted manifest) {spans : List Span}
    (hspans : manifestSpans manifest = .ok spans) :
    ∀ s ∈ spans, 0 ≤ s.1 := by
  intro s hs
  obtain ⟨o, path, hloaded⟩ := h
  obtain ⟨items, image, found, hitems, himage, hfound, hs⟩ := manifestSpans_ok hspans hs
  have hartifacts := Manifest.loadManifest_artifacts hloaded
  obtain ⟨debugElf, hdebugElf, hrest⟩ := bind_ok.mp hartifacts
  obtain ⟨debugAllowlist, hdebugAllowlist, hrest⟩ := bind_ok.mp hrest
  obtain ⟨images, himages, _⟩ := bind_ok.mp hrest
  have hiterate : images.iterate = .ok items := by
    rw [← hitems, Cli.imageItems, himages]
  obtain ⟨artifact, rfl, hparser, _, haccepted⟩ :=
    (Manifest.requireArtifacts_ok hartifacts hdebugElf hdebugAllowlist himages hiterate).2
      image himage
  obtain ⟨_, parsed, allowed, listed, _, _, _, hguard, hlisted, hsame⟩ :=
    Manifest.requireArtifact_ok haccepted
  obtain ⟨ranges, listedItems, hranges, hlistedItems, hmapped⟩ := imageSpans_ok hfound
  cases hlisted.symm.trans hranges
  obtain ⟨_, rfl, hequal⟩ := Value.list_eq hsame
  cases hlistedItems
  rw [spans_eq hequal hmapped] at hs
  exact (requireRange_ok.mp (requireAllowed_all.mp hguard s hs)).1.nonneg

/-! ## The manifests of a run -/

def loadedBy : Event Op Op.Ans Raised → Option Value
  | ⟨.loadManifest _, .ok manifest⟩ => some manifest
  | _ => none

/-- The manifests a run has loaded, in order. -/
def loaded (h : Past) : List Value := h.filterMap loadedBy

/-- A manifest of the run allows it. -/
def RunAllows (h : Past) (a : Int) : Prop := ∃ manifest ∈ loaded h, ManifestAllows manifest a

/-- The peers' manifests are the first to be loaded. -/
def Peers (n : Nat) (peers : List Value) (h : Past) : Prop := peers.length = n ∧ peers <+: loaded h

/-- What lies between two image ranges of the first `n` manifests, and in them, is allowed. -/
def PeerCovered (n : Nat) (h : Past) : Prop :=
  ∀ found, ((loaded h).take n).mapM manifestSpans = .ok found →
    ∀ s ∈ found.flatten, ∀ t ∈ found.flatten, ∀ a, s.1 ≤ a → a < t.2 → RunAllows h a ∧ ¬ Forbidden a

theorem loaded_concat (h : Past) (e : Event Op Op.Ans Raised) :
    loaded (h ++ [e]) = loaded h ++ (loadedBy e).toList := by
  rw [loaded, List.filterMap_append, loaded]
  cases hlast : loadedBy e <;> simp [hlast]

theorem Peers.concat {n : Nat} {peers : List Value} {h : Past} (hpeers : Peers n peers h)
    (e : Event Op Op.Ans Raised) :
    Peers n peers (h ++ [e]) := by
  refine ⟨hpeers.1, ?_⟩
  rw [loaded_concat]
  exact hpeers.2.trans (List.prefix_append _ _)

theorem Peers.append {n : Nat} {peers : List Value} {h : Past} (hpeers : Peers n peers h)
    (after : Past) :
    Peers n peers (h ++ after) := by
  refine ⟨hpeers.1, ?_⟩
  rw [loaded, List.filterMap_append]
  exact hpeers.2.trans (List.prefix_append _ _)

theorem Peers.take {n : Nat} {peers : List Value} {h : Past}
    (hpeers : Peers n peers h) : (loaded h).take n = peers := by
  obtain ⟨rest, hrest⟩ := hpeers.2
  rw [← hrest, ← hpeers.1, List.take_left]

/-! ## The backup of the peer -/

/-- The files an operation may write or remove; a capture is decoded into a table. -/
def Op.writesFile : Op → String → Prop
  | .runLogged (.read output _ _ _ _ _) log, path => path = output ∨ path = log
  | .runLogged _ log, path => path = log
  | .child _ log, path => path = log
  | .capture samples _, path => path = samples
  | .decodeCapture _, path => ∃ front, path = front ++ ".csv"
  | .openLog log, path => path = log
  | .popen _ readyFile, path => path = readyFile
  | .unlink _ file, path => path = file
  | .atomicJson _, path => path = "run.json"
  | .generateReport, path => path = "index.html"
  | _, _ => False

def Op.programsImage (op : Op) (image : String) : Prop :=
  ∃ serial family core log, op = .runLogged (.program image serial family core) log

/-- The backup was read as the hull of the peers' image ranges. -/
def ReadsPeer (n : Nat) (before : Past) (e : Event Op Op.Ans Raised) : Prop :=
  ∃ peers span serial family core log, ∃ out : Cli.Output, Peers n peers before ∧
    peerSpan peers = .ok span ∧
    e = ⟨.runLogged (.read "peer-backup.hex" serial family core span.1.toNat
      (span.2 - span.1).toNat) log, .ok out⟩ ∧ out.returncode = 0

/-- The backup is as it was read. -/
def PeerFile (n : Nat) (h : Past) : Prop :=
  Since (ReadsPeer n) (fun op => op.writesFile "peer-backup.hex") h

/-- Nothing but the backup as it was read was programmed. -/
def Backups (n : Nat) (h : Past) : Prop :=
  ∀ image, Guarded (fun op => op.programsImage image) (fun before => image = "peer-backup.hex" ∧
    PeerFile n before) h

/-- An operation that neither programs nor writes the backup. -/
structure Op.Aside (op : Op) : Prop where
  programs : ∀ image, ¬ op.programsImage image
  writes : ¬ op.writesFile "peer-backup.hex"

/-- The file the peer says it is ready with is no image. -/
def ReadyNamed (s : Locals) : Prop := ∀ path, s.peerReady = some path → ¬ HexFile path

theorem other_name {path : String} (hpath : ¬ HexFile path) : "peer-backup.hex" ≠ path := by
  rintro rfl
  exact hpath (by decide)

theorem not_hexFile {back : String} (hback : back.toList.getLast?.isSome) (hlast : ¬ HexFile back)
    (front : String) :
    ¬ HexFile (front ++ back) := by
  rwa [Cli.hexFile_append hback]

/-- Operations that carry no name of a file they write. -/
def Op.nameless : Op → Bool
  | .runLogged _ _ | .child _ _ | .capture _ _ | .openLog _ | .popen _ _ | .unlink _ _ => false
  | _ => true

theorem aside_nameless {op : Op} (hop : op.nameless = true) : op.Aside where
  programs image himage := by
    obtain ⟨_, _, _, _, rfl⟩ := himage
    cases hop
  writes hwrites := by
    cases op with
    | decodeCapture samples =>
      obtain ⟨front, hfront⟩ := hwrites
      exact other_name (not_hexFile (by decide) (by decide) front) hfront
    | atomicJson report => exact other_name (by decide) hwrites
    | generateReport => exact other_name (by decide) hwrites
    | runLogged _ _ => cases hop
    | child _ _ => cases hop
    | capture _ _ => cases hop
    | openLog _ => cases hop
    | popen _ _ => cases hop
    | unlink _ _ => cases hop
    | _ => exact hwrites

theorem aside_child {child : Child} {log : String}
    (hlog : ¬ HexFile log) : (Op.child child log).Aside :=
  ⟨fun _ ⟨_, _, _, _, heq⟩ => (nomatch heq), other_name hlog⟩

theorem aside_read {output serial family core log : String} {address size : Nat}
    (houtput : output ≠ "peer-backup.hex") (hlog : ¬ HexFile log) :
    (Op.runLogged (.read output serial family core address size) log).Aside where
  programs _ := fun ⟨_, _, _, _, heq⟩ => nomatch heq
  writes hwrites := hwrites.elim (fun h => houtput h.symm) (other_name hlog)

/-! ## What leaves the backup alone -/

/-- `I` outlives every operation that leaves the backup alone. -/
structure Undisturbed (env : Env Op Op.Ans Raised) (I : Run → Prop) : Prop where
  aside : ∀ (w : Run) (op : Op), op.Aside → I w →
    I { w with history := w.history ++ [⟨op, env w.history op⟩] }
  locals : ∀ (w : Run) (s : Locals), s.peerBackup = w.locals.peerBackup → ReadyNamed s → I w →
    I { w with locals := s }
  ready : ∀ w, I w → ReadyNamed w.locals

section
variable {env : Env Op Op.Ans Raised} {I : Run → Prop} (hI : Undisturbed env I)
include hI

theorem keeps_aside {op : Op} (hop : op.Aside) : Keeps env I (ask op) :=
  keeps_answered fun w h => hI.aside w op hop h

theorem keeps_nameless {op : Op} (hop : op.nameless = true) : Keeps env I (ask op) :=
  keeps_aside hI (aside_nameless hop)

theorem keeps_set {f : Locals → Locals} (hbackup : ∀ s, (f s).peerBackup = s.peerBackup)
    (hready : ∀ s, ReadyNamed s → ReadyNamed (f s)) :
    Keeps env I (assign f) :=
  keeps_assign fun w h =>
    hI.locals w (f w.locals) (hbackup w.locals) (hready w.locals (hI.ready w h)) h

theorem keeps_report (f : Report → Report) : Keeps env I (updateReport f) :=
  keeps_set hI (fun _ => rfl) fun _ h => h

theorem keeps_save : Keeps env I saveReport := keeps_bind (keeps_locals _) fun _ =>
      keeps_nameless hI rfl

omit hI in
theorem keeps_lift {α : Type} (m : Except Raised α) : Keeps env I (lift m) := by
  cases m with
  | ok a => exact keeps_pure a
  | error e => exact keeps_raise e

omit hI in
theorem keeps_asToolError {α : Type} {body : Session α}
    (hbody : Keeps env I body) : Keeps env I (asToolError body) :=
  keeps_except hbody fun e => keeps_ite (keeps_raise _) (keeps_raise e)

theorem keeps_withLock {α : Type} {name operation : String} {body : Session α}
    (hbody : Keeps env I body) :
    Keeps env I (withLock name operation body) :=
  keeps_bind (keeps_nameless hI rfl) fun _ => keeps_finally hbody (keeps_nameless hI rfl)

omit hI in
/-- One name and path for each argument. -/
theorem profilesFrom_length (hresolve : ∀ path, Keeps env I (ask (.resolve path)))
    (names values : List String) :
    Triple env I (profilesFrom names values) (fun found w => I w ∧ found.length = values.length)
      (fun _ => I) := by
  have hraised : ∀ (e : Raised) (w : Run), I w → I w := fun _ _ h => h
  induction values generalizing names with
  | nil => exact triple_pure fun w h => ⟨h, rfl⟩
  | cons value rest ih =>
    refine keeps_then (keeps_lift _) hraised fun entry => ?_
    refine keeps_then (hresolve entry.2) hraised fun path => ?_
    refine triple_bind _ (ih (entry.1 :: names)) fun others => triple_pure fun w h => ⟨h.1, ?_⟩
    rw [List.length_cons, List.length_cons, h.2]

theorem keeps_profilesFrom (names values : List String) : Keeps env I (profilesFrom names values) :=
  triple_mono (profilesFrom_length (fun _ => keeps_nameless hI rfl) names values) (fun _ h => h)
    (fun _ _ h => h.1) fun _ _ h => h

theorem keeps_loadProfiles (entries : List (String × String)) :
    Keeps env I (loadProfiles entries) := by
  induction entries with
  | nil => exact keeps_pure _
  | cons entry rest ih =>
    refine keeps_bind (@keeps_nameless env I hI (.loadManifest entry.2) rfl) fun manifest => ?_
    refine keeps_bind (keeps_lift _) fun wrong => ?_
    refine keeps_bind (keeps_when (keeps_raise _)) fun _ => ?_
    exact keeps_bind ih fun others => keeps_pure _

theorem keeps_hashAll (entries : List (String × String)) : Keeps env I (hashAll entries) := by
  induction entries with
  | nil => exact keeps_pure _
  | cons entry rest ih => exact keeps_bind (keeps_nameless hI rfl) fun _ => ih

theorem keeps_runChild {child : Child} {log : String} (hlog : ¬ HexFile log) :
    Keeps env I (runChild child log) := by
  refine keeps_bind (keeps_aside hI (aside_child hlog)) fun result => ?_
  refine keeps_bind (keeps_when (keeps_raise _)) fun _ => ?_
  split
  · refine keeps_bind (keeps_nameless hI rfl) fun report => ?_
    refine keeps_bind (keeps_except (keeps_nameless hI rfl) fun e =>
      keeps_ite (keeps_raise _) (keeps_raise e)) fun data => ?_
    refine keeps_bind (keeps_lift _) fun good => ?_
    exact keeps_bind (keeps_when (keeps_raise _)) fun _ => keeps_pure _
  · exact keeps_raise _

theorem keeps_common (args : Args) : Keeps env I (common args) :=
  keeps_bind (keeps_nameless hI rfl) fun _ =>
    keeps_bind (keeps_nameless hI rfl) fun _ => keeps_pure _

theorem keeps_readPeer {manifest : Value} {serial output log : String} {span : Span}
    (houtput : output ≠ "peer-backup.hex") (hlog : ¬ HexFile log) :
    Keeps env I (readPeer manifest serial output log span) := by
  refine keeps_bind (keeps_lift _) fun target => ?_
  exact keeps_bind (keeps_aside hI (aside_read houtput hlog)) fun result =>
    keeps_when (keeps_raise _)

theorem keeps_waitReady (name readyFile : String) (n : Nat) :
    Keeps env I (waitReady name readyFile n) := by
  induction n with
  | zero =>
    refine keeps_bind (keeps_nameless hI rfl) fun ready => keeps_when ?_
    refine keeps_bind (keeps_nameless hI rfl) fun code => ?_
    exact keeps_bind (keeps_when (keeps_raise _)) fun _ => keeps_raise _
  | succ n ih =>
    refine keeps_bind (keeps_nameless hI rfl) fun ready => keeps_ite (keeps_pure _) ?_
    refine keeps_bind (keeps_nameless hI rfl) fun code => ?_
    refine keeps_bind (keeps_when (keeps_raise _)) fun _ => ?_
    exact keeps_bind (keeps_nameless hI rfl) fun _ => ih

theorem keeps_startPeer (name manifest directory : String) :
    Keeps env I (startPeer name manifest directory) := by
  have hlog : ¬ HexFile (directory ++ "/peer.log") := not_hexFile (by decide) (by decide) _
  have hjson : ¬ HexFile (directory ++ "/peer-ready.json") := not_hexFile (by decide) (by decide) _
  refine keeps_bind (keeps_set hI (fun _ => rfl) fun _ _ path hpath => ?_) fun _ => ?_
  · cases hpath
    exact hjson
  refine keeps_bind (keeps_aside hI ⟨fun _ ⟨_, _, _, _, heq⟩ => (nomatch heq), other_name hlog⟩)
    fun _ => ?_
  refine keeps_bind (keeps_set hI (fun _ => rfl) fun _ h => h) fun _ => ?_
  refine keeps_bind (keeps_aside hI ⟨fun _ ⟨_, _, _, _, heq⟩ => (nomatch heq), other_name hjson⟩)
    fun _ => ?_
  refine keeps_bind (keeps_set hI (fun _ => rfl) fun _ h => h) fun _ => ?_
  exact keeps_bind (keeps_nameless hI rfl) fun n => keeps_waitReady hI name _ n

theorem keeps_attendPeer (name directory : String) (peer : Option String) :
    Keeps env I (attendPeer name directory peer) := by
  cases peer with
  | none => exact keeps_pure _
  | some manifest => exact keeps_startPeer hI name manifest directory

/-- The file the peer was ready with is removed. -/
theorem keeps_ready {f : Option String → Session Unit}
    (hf : ∀ ready, (∀ path, ready = some path → ¬ HexFile path) → Keeps env I (f ready)) :
    Keeps env I (Prog.locals Locals.peerReady >>= f) := by
  refine triple_bind (fun ready w => I w ∧ ∀ path, ready = some path → ¬ HexFile path) ?_
    fun ready => ?_
  · exact triple_locals fun w h => ⟨h, hI.ready w h⟩
  · exact triple_fact (hf ready)

theorem keeps_unlink {phase : Phase} {path : String} (hpath : ¬ HexFile path) :
    Keeps env I (ask (.unlink phase path)) :=
  keeps_aside hI ⟨fun _ ⟨_, _, _, _, heq⟩ => (nomatch heq), other_name hpath⟩

theorem keeps_finishPeer (args : Args) (name directory : String) :
    Keeps env I (finishPeer args name directory) := by
  refine keeps_bind (keeps_except (keeps_nameless hI rfl) fun e =>
    keeps_ite (keeps_raise _) (keeps_raise e)) fun code => ?_
  refine keeps_bind (keeps_nameless hI rfl) fun _ => ?_
  refine keeps_bind (keeps_set hI (fun _ => rfl) fun _ h => h) fun _ => ?_
  refine keeps_bind (keeps_when (keeps_raise _)) fun _ => ?_
  refine keeps_bind (@keeps_nameless env I hI (.readLog (directory ++ "/peer.log")) rfl)
    fun lines => ?_
  split
  · refine keeps_bind (keeps_nameless hI rfl) fun _ => ?_
    refine keeps_bind (keeps_set hI (fun _ => rfl) fun _ h => h) fun _ => ?_
    refine keeps_ready hI fun ready hready => keeps_bind ?_ fun _ =>
      keeps_set hI (fun _ => rfl) fun _ _ => nofun
    cases ready with
    | none => exact keeps_raise _
    | some path => exact keeps_unlink hI (hready path rfl)
  · exact keeps_raise _

theorem keeps_observeProfile (args : Args) (name path directory : String) :
    Keeps env I (observeProfile args name path directory) := by
  refine keeps_when
    (keeps_bind (keeps_runChild hI (not_hexFile (by decide) (by decide) _)) fun report => ?_)
  refine keeps_bind (@keeps_nameless env I hI (.readTranscript report) rfl) fun transcript => ?_
  exact keeps_bind (keeps_lift _) fun values => keeps_lift _

theorem keeps_turnOn (phase : Phase) : Keeps env I (turnOn phase) :=
  keeps_bind (keeps_nameless hI rfl) fun _ => keeps_set hI (fun _ => rfl) fun _ h => h

theorem keeps_turnOff (phase : Phase) : Keeps env I (turnOff phase) :=
  keeps_bind (keeps_nameless hI rfl) fun _ => keeps_set hI (fun _ => rfl) fun _ h => h

theorem keeps_measure (args : Args) (duration : Extended) (directory : String) :
    Keeps env I (measure args duration directory) := by
  have hsamples : (Op.capture (directory ++ "/samples.bin") duration).Aside :=
    ⟨fun _ ⟨_, _, _, _, heq⟩ => (nomatch heq), other_name (not_hexFile (by decide) (by decide) _)⟩
  refine keeps_bind (keeps_nameless hI rfl) fun _ => ?_
  refine keeps_bind (keeps_nameless hI rfl) fun _ => ?_
  refine keeps_bind (keeps_turnOn hI _) fun _ => ?_
  refine keeps_bind (keeps_when (keeps_nameless hI rfl)) fun _ => ?_
  refine keeps_bind (keeps_aside hI hsamples) fun _ => ?_
  exact keeps_bind (keeps_nameless hI rfl) fun _ => keeps_nameless hI rfl

theorem keeps_runProfile (args : Args) (plan : Plan) (index : Nat) (name path : String)
    (manifest : Value) :
    Keeps env I (runProfile args plan index name path manifest) := by
  refine keeps_bind (keeps_locals _) fun outputOn => ?_
  refine keeps_bind (keeps_when (keeps_turnOn hI _)) fun _ => ?_
  refine keeps_bind (keeps_runChild hI (not_hexFile (by decide) (by decide) _)) fun _ => ?_
  refine keeps_bind (keeps_nameless hI rfl) fun _ => ?_
  refine keeps_bind (keeps_attendPeer hI _ _ _) fun _ => ?_
  refine keeps_bind (keeps_measure hI _ _ _) fun _ => ?_
  refine keeps_bind (keeps_observeProfile hI _ _ _ _) fun _ => ?_
  refine keeps_bind (keeps_turnOff hI _) fun _ => ?_
  refine keeps_bind (keeps_locals _) fun peerProcess => ?_
  refine keeps_bind (keeps_when (keeps_finishPeer hI _ _ _)) fun _ => ?_
  refine keeps_bind (keeps_nameless hI rfl) fun _ => ?_
  refine keeps_bind (keeps_lift _) fun _ => ?_
  refine keeps_bind (keeps_nameless hI rfl) fun _ => ?_
  refine keeps_bind (keeps_nameless hI rfl) fun _ => ?_
  exact keeps_bind (keeps_report hI _) fun _ => keeps_save hI

theorem keeps_runProfiles (args : Args) (plan : Plan) (index : Nat)
    (entries : List ((String × String) × Value)) :
    Keeps env I (runProfiles args plan index entries) := by
  induction entries generalizing index with
  | nil => exact keeps_pure _
  | cons entry rest ih =>
    exact keeps_bind (keeps_runProfile hI args plan index _ _ _) fun _ => ih (index + 1)

/-! ## The cleanup -/

theorem keeps_terminate : Keeps env I terminate := by
  refine keeps_bind (keeps_nameless hI rfl) fun code => keeps_when ?_
  refine keeps_bind (keeps_nameless hI rfl) fun _ => keeps_except ?_ fun e =>
    keeps_ite ?_ (keeps_raise e)
  · exact keeps_bind (keeps_nameless hI rfl) fun _ => keeps_pure _
  · refine keeps_bind (keeps_nameless hI rfl) fun _ => ?_
    exact keeps_bind (keeps_nameless hI rfl) fun _ => keeps_pure _

theorem keeps_closeAcquisition : Keeps env I closeAcquisition := by
  refine keeps_bind (keeps_locals _) fun peerProcess => ?_
  refine keeps_bind (keeps_when (keeps_terminate hI)) fun _ => ?_
  refine keeps_bind (keeps_locals _) fun peerStream => ?_
  refine keeps_bind (keeps_when (keeps_nameless hI rfl)) fun _ => ?_
  refine keeps_ready hI fun ready hready => keeps_bind ?_ fun _ => ?_
  · cases ready with
    | none => exact keeps_pure _
    | some path => exact keeps_unlink hI (hready path rfl)
  refine keeps_bind (keeps_locals _) fun instrument => keeps_when ?_
  refine keeps_bind (keeps_locals _) fun outputOn => ?_
  refine keeps_bind (keeps_when (keeps_except (keeps_turnOff hI _) fun e => keeps_report hI _))
    fun _ => ?_
  exact keeps_nameless hI rfl

theorem keeps_restoreTarget (args : Args) (backup : String) (device : Device) :
    Keeps env I (restoreTarget args backup device) := by
  refine keeps_bind (keeps_nameless hI rfl) fun _ => ?_
  refine keeps_bind (keeps_set hI (fun _ => rfl) fun _ h => h) fun _ => ?_
  refine keeps_bind (keeps_nameless hI rfl) fun _ => ?_
  refine keeps_bind (keeps_nameless hI rfl) fun _ => ?_
  refine keeps_bind (keeps_nameless hI rfl) fun _ => ?_
  refine keeps_bind (keeps_turnOn hI _) fun _ => ?_
  refine keeps_bind (keeps_common hI args) fun _ => ?_
  refine keeps_bind (keeps_profilesFrom hI [] args.profile) fun found => ?_
  split
  · exact keeps_raise _
  · refine keeps_bind (keeps_runChild hI (by decide)) fun _ => ?_
    exact keeps_bind (keeps_report hI _) fun _ => keeps_turnOff hI _

theorem keeps_restore (args : Args) (backup : Option String) :
    Keeps env I (restore args backup) := by
  cases backup with
  | none => exact keeps_pure _
  | some backup =>
    refine keeps_finally (keeps_except ?_ fun e => ?_) ?_
    · refine keeps_bind (@keeps_nameless env I hI (.selectInstrument args.instrumentSerial) rfl)
        fun device => ?_
      exact keeps_withLock hI (keeps_restoreTarget hI args backup device)
    · exact keeps_bind (keeps_set hI (fun _ => rfl) fun _ h => h) fun _ => keeps_report hI _
    · refine keeps_bind (keeps_locals _) fun instrument => keeps_when ?_
      refine keeps_bind (keeps_locals _) fun outputOn => ?_
      refine keeps_bind
        (keeps_when (keeps_except (keeps_nameless hI rfl) fun e => keeps_report hI _)) fun _ => ?_
      exact keeps_nameless hI rfl

end

/-! ## The run -/

/-- Nothing is known to be a backup yet. -/
structure Unread (env : Env Op Op.Ans Raised) (n : Nat) (w : Run) : Prop where
  backups : Backups n w.history
  answered : Answered env w.history
  none : w.locals.peerBackup = none
  ready : ReadyNamed w.locals

/-- What is known to be the backup is as it was read. -/
structure Tracked (env : Env Op Op.Ans Raised) (n : Nat) (w : Run) : Prop where
  backups : Backups n w.history
  answered : Answered env w.history
  backup : ∀ backup, w.locals.peerBackup = some backup → backup = "peer-backup.hex" ∧
    PeerFile n w.history
  ready : ReadyNamed w.locals

section
variable {n : Nat} {h : Past} {op : Op} {outcome : Except Raised op.Ans}
    {env : Env Op Op.Ans Raised}

theorem backups_other (hop : ∀ image, ¬ op.programsImage image) (hbackups : Backups n h) :
    Backups n (h ++ [⟨op, outcome⟩]) :=
  fun image => guarded_concat.mpr ⟨hbackups image, fun himage => absurd himage (hop image)⟩

theorem peerFile_concat (hop : ¬ op.writesFile "peer-backup.hex") (hfile : PeerFile n h) :
    PeerFile n (h ++ [⟨op, outcome⟩]) :=
  since_concat.mpr (Or.inr ⟨hfile, hop⟩)

theorem Unread.tracked {w : Run} (h : Unread env n w) : Tracked env n w :=
  ⟨h.backups, h.answered, fun _ hbackup => (nomatch h.none.symm.trans hbackup), h.ready⟩

theorem Unread.concat {w : Run} (h : Unread env n w) (hop : ∀ image, ¬ op.programsImage image)
    (hanswer : env w.history op = outcome) :
    Unread env n { w with history := w.history ++ [⟨op, outcome⟩] } :=
  { h with backups := backups_other hop h.backups, answered := answered_concat.mpr ⟨h.answered,
    hanswer.symm⟩ }

end

section
variable {env : Env Op Op.Ans Raised}

theorem undisturbed_unread (n : Nat) : Undisturbed env (Unread env n) where
  aside _ _ hop h := h.concat hop.programs rfl
  locals _ _ hbackup hready h := ⟨h.backups, h.answered, hbackup.trans h.none, hready⟩
  ready _ h := h.ready

theorem undisturbed_tracked (n : Nat) : Undisturbed env (Tracked env n) where
  aside _ _ hop h := ⟨backups_other hop.programs h.backups, answered_concat.mpr ⟨h.answered, rfl⟩,
    fun backup hbackup =>
    ⟨(h.backup backup hbackup).1, peerFile_concat hop.writes (h.backup backup hbackup).2⟩, h.ready⟩
  locals _ _ hbackup hready h :=
    ⟨h.backups, h.answered, fun backup hb => h.backup backup (hbackup.symm.trans hb), hready⟩
  ready _ h := h.ready

theorem Undisturbed.also {I : Run → Prop} (hI : Undisturbed env I) {R : Past → Prop}
    (hR : ∀ h (op : Op) (outcome : Except Raised op.Ans), op.Aside → R h →
      R (h ++ [⟨op, outcome⟩])) :
    Undisturbed env fun w => I w ∧ R w.history where
  aside w op hop h := ⟨hI.aside w op hop h.1, hR w.history op _ hop h.2⟩
  locals w s hbackup hready h := ⟨hI.locals w s hbackup hready h.1, h.2⟩
  ready w h := hI.ready w h.1

theorem undisturbed_peers (n : Nat) (peers : List Value) :
    Undisturbed env fun w => Unread env n w ∧ Peers n peers w.history :=
  (undisturbed_unread n).also fun _ _ _ _ hpeers => hpeers.concat _

theorem undisturbed_read (n : Nat) :
    Undisturbed env fun w => Unread env n w ∧ PeerFile n w.history :=
  (undisturbed_unread n).also fun _ _ _ hop hfile => peerFile_concat hop.writes hfile

theorem undisturbed_backup (n : Nat) :
    Undisturbed env fun w => Tracked env n w ∧ PeerFile n w.history :=
  (undisturbed_tracked n).also fun _ _ _ hop hfile => peerFile_concat hop.writes hfile

end

section
variable {env : Env Op Op.Ans Raised} {n : Nat}

theorem asToolError_triple {α : Type} {P E : Run → Prop} {Q : α → Run → Prop} {body : Session α}
    (hbody : Triple env P body Q fun _ => E) : Triple env P (asToolError body) Q fun _ => E :=
  triple_except (fun _ => E) hbody fun _ => triple_ite (fun _ => triple_raise fun _ h => h) fun _ =>
    triple_raise fun _ h => h

/-- An expression that does not raise has its value. -/
theorem triple_lift {α : Type} {P E : Run → Prop} {m : Except Raised α} (hraised : ∀ w, P w → E w) :
    Triple env P (lift m) (fun a w => P w ∧ m = .ok a) (fun _ => E) := by
  cases m with
  | ok a => exact triple_pure fun _ h => ⟨h, rfl⟩
  | error e => exact triple_raise fun w h => hraised w h

/-- Every entry has its manifest loaded, in order. -/
theorem loadAll_loaded (front : List Value) (entries : List (String × String)) :
    Triple env (fun w => Unread env n w ∧ loaded w.history = front) (loadAll entries)
      (fun manifests w => Unread env n w ∧ loaded w.history = front ++ manifests ∧
        manifests.length = entries.length) (fun _ => Unread env n) := by
  induction entries generalizing front with
  | nil => exact triple_pure fun w h => ⟨h.1, by rw [h.2, List.append_nil], rfl⟩
  | cons entry rest ih =>
    refine triple_bind (fun manifest w => Unread env n w ∧
      loaded w.history = front ++ [manifest]) ?_ fun manifest => ?_
    · apply triple_answered
      · intro w manifest hanswer h
        refine ⟨h.1.concat (aside_nameless rfl).programs hanswer, ?_⟩
        rw [loaded_concat, h.2]
        rfl
      · exact fun w e hanswer h => h.1.concat (aside_nameless rfl).programs hanswer
    refine triple_bind _ (ih (front ++ [manifest])) fun others =>
      triple_pure fun w h => ⟨h.1, ?_, ?_⟩
    · rw [h.2.1, List.append_assoc, List.singleton_append]
    · rw [List.length_cons, List.length_cons, h.2.2]

/-- The peers' manifests are loaded first. -/
theorem plan_peers (float : String → Option Extended) (args : Args) :
    Triple env (fun w => Unread env args.peer.length w ∧ loaded w.history = []) (plan float args)
      (fun plan w => Unread env args.peer.length w ∧
        Peers args.peer.length plan.peerManifests w.history)
      (fun _ => Unread env args.peer.length) := by
  have hfresh : ∀ (e : Raised) (w : Run), Unread env args.peer.length w ∧ loaded w.history = [] →
      Unread env args.peer.length w :=
    fun _ _ h => h.1
  have hresolve : ∀ path, Keeps env (fun w => Unread env args.peer.length w ∧ loaded w.history = [])
      (ask (.resolve path)) := by
    refine fun path => keeps_answered fun w h => ⟨h.1.concat (aside_nameless rfl).programs rfl, ?_⟩
    rw [loaded_concat, h.2]
    cases env w.history (.resolve path) <;> rfl
  refine keeps_then (keeps_asToolError ?_) hfresh fun profiles => ?_
  · exact triple_mono (profilesFrom_length hresolve [] args.profile) (fun _ h => h)
      (fun _ _ h => h.1) fun _ _ h => h
  refine keeps_then (keeps_when (keeps_raise _)) hfresh fun _ => ?_
  refine keeps_then (keeps_when (keeps_raise _)) hfresh fun _ => ?_
  refine keeps_then (keeps_when (keeps_raise _)) hfresh fun _ => ?_
  refine keeps_then (keeps_when (keeps_raise _)) hfresh fun _ => ?_
  refine keeps_then (keeps_asToolError (keeps_lift _)) hfresh fun durations => ?_
  refine triple_bind (fun peers w => (Unread env args.peer.length w ∧ loaded w.history = []) ∧
    peers.length = args.peer.length) ?_
    fun peers => ?_
  · exact triple_mono (asToolError_triple (profilesFrom_length hresolve [] args.peer))
      (fun _ h => h) (fun _ _ h => h) hfresh
  refine triple_fact fun hlength => ?_
  refine keeps_then (keeps_when (keeps_raise _)) hfresh fun _ => ?_
  refine keeps_then (keeps_when (keeps_raise _)) hfresh fun _ => ?_
  refine triple_bind (fun manifests w => Unread env args.peer.length w ∧
    Peers args.peer.length manifests w.history) ?_ fun manifests => ?_
  · refine triple_mono (loadAll_loaded [] peers) (fun _ h => h) (fun manifests w h => ⟨h.1, ?_⟩)
      fun _ _ h => h
    exact ⟨h.2.2.trans hlength, by rw [h.2.1]; exact List.prefix_refl _⟩
  have hI : Undisturbed env _ := undisturbed_peers args.peer.length manifests
  have hraised : ∀ (e : Raised) (w : Run), Unread env args.peer.length w ∧
      Peers args.peer.length manifests w.history → Unread env args.peer.length w := fun _ _ h => h.1
  refine keeps_then (keeps_lift _) hraised fun wrong => ?_
  refine keeps_then (keeps_when (keeps_raise _)) hraised fun _ => ?_
  refine keeps_then (keeps_loadProfiles hI profiles) hraised fun profileManifests => ?_
  refine keeps_then (keeps_hashAll hI profiles) hraised fun _ => ?_
  refine keeps_then (keeps_report hI _) hraised fun _ => ?_
  refine keeps_then (keeps_save hI) hraised fun _ => ?_
  exact triple_pure fun _ h => h

/-- The first read of the backup. -/
theorem readBackup_read {peers : List Value} {manifest : Value} {serial log : String} {span : Span}
    (hspan : peerSpan peers = .ok span) :
    Triple env (fun w => Unread env n w ∧ Peers n peers w.history)
      (readPeer manifest serial "peer-backup.hex" log span)
      (fun _ w => Unread env n w ∧ PeerFile n w.history) (fun _ => Unread env n) := by
  refine keeps_then (keeps_lift _) (fun _ _ h => h.1) fun target => ?_
  refine triple_bind (fun result w => Unread env n w ∧
    (result.returncode = 0 → PeerFile n w.history)) ?_ fun result => ?_
  · have hop : ∀ image, ¬ (Op.runLogged
        (.read "peer-backup.hex" serial target.1 target.2 span.1.toNat (span.2 - span.1).toNat)
        log).programsImage image := fun _ ⟨_, _, _, _, heq⟩ => nomatch heq
    apply triple_answered
    · intro w out hanswer h
      refine ⟨h.1.concat hop hanswer, fun hcode => since_concat.mpr (Or.inl ?_)⟩
      exact ⟨peers, span, serial, target.1, target.2, log, out, h.2, hspan, rfl, hcode⟩
    · exact fun w e hanswer h => h.1.concat hop hanswer
  · apply triple_when
    · exact fun _ => triple_raise fun _ h => h.1
    · exact fun hcode w h => ⟨h.1, h.2 (by simpa using hcode)⟩

theorem backUpPeer_tracked (args : Args) (first : Value) (peers : List Value) :
    Triple env (fun w => Unread env n w ∧ Peers n peers w.history) (backUpPeer args first peers)
      (fun _ => Tracked env n) (fun _ => Tracked env n) := by
  have hI : Undisturbed env _ := undisturbed_peers n peers
  have hraised : ∀ (e : Raised) (w : Run), Unread env n w ∧ Peers n peers w.history →
      Tracked env n w := fun _ _ h => h.1.tracked
  have hread : ∀ (e : Raised) (w : Run), Unread env n w ∧ PeerFile n w.history → Tracked env n w :=
    fun _ _ h => h.1.tracked
  refine keeps_then (@keeps_nameless env _ hI (.resolveAlias args.peerProbe) rfl) hraised
    fun serial => ?_
  refine keeps_then (keeps_set hI (fun _ => rfl) fun _ h => h) hraised fun _ => ?_
  cases serial with
  | none => exact triple_raise fun _ h => h.1.tracked
  | some serial =>
    refine keeps_then (keeps_set hI (fun _ => rfl) fun _ h => h) hraised fun _ => ?_
    refine keeps_then (keeps_lift _) hraised fun other => ?_
    refine keeps_then (keeps_when (keeps_raise _)) hraised fun _ => ?_
    refine triple_bind _ (triple_lift (E := Tracked env n) fun w h => h.1.tracked) fun span =>
      triple_fact fun hspan => ?_
    refine keeps_then (keeps_set hI (fun _ => rfl) fun _ h => h) hraised fun _ => ?_
    refine triple_bind (fun _ w => Unread env n w ∧ PeerFile n w.history) ?_ fun _ => ?_
    · refine keeps_then (keeps_nameless hI rfl) hraised fun _ => ?_
      apply triple_finally (fun _ w => Unread env n w ∧ PeerFile n w.history)
        (fun _ => Unread env n)
      · refine triple_bind _ (readBackup_read hspan) fun _ => ?_
        exact triple_mono (keeps_readPeer (undisturbed_read n) (by decide) (by decide)) (fun _ h =>
          h) (fun _ _ h => h) fun _ _ h => h.1
      · exact fun _ => triple_mono (keeps_nameless (undisturbed_read n) rfl) (fun _ h => h)
          (fun _ _ h => h) hread
      · exact fun _ => triple_mono (keeps_nameless (undisturbed_unread n) rfl) (fun _ h => h)
          (fun _ _ h => h.tracked) fun _ _ h => h.tracked
    have hI' : Undisturbed env _ := undisturbed_read n
    refine keeps_then (@keeps_nameless env _ hI' (.sha256 (.run "peer-backup.hex")) rfl) hread
      fun digest => ?_
    refine keeps_then (@keeps_nameless env _ hI' (.sha256 (.run "peer-backup-repeat.hex")) rfl)
      hread fun digest' => ?_
    refine keeps_then (keeps_when (keeps_raise _)) hread fun _ => ?_
    refine triple_bind (fun _ => Tracked env n) ?_ fun _ => ?_
    · apply triple_assign
      intro w h
      refine ⟨h.1.backups, h.1.answered, fun backup hbackup => ?_, h.1.ready⟩
      cases hbackup
      exact ⟨rfl, h.2⟩
    have hT : Undisturbed env _ := undisturbed_tracked n
    refine keeps_bind (keeps_nameless hT rfl) fun _ => ?_
    refine keeps_bind (keeps_nameless hT rfl) fun _ => ?_
    refine keeps_bind (keeps_nameless hT rfl) fun _ => ?_
    exact keeps_report hT _

/-- What is programmed back is the backup. -/
theorem restorePeerImage_tracked (manifest : Value) (serial : String) (span : Span) :
    Triple env (fun w => Tracked env n w ∧ PeerFile n w.history)
      (restorePeerImage "peer-backup.hex" manifest serial span)
      (fun _ => Tracked env n) (fun _ => Tracked env n) := by
  have hT : Undisturbed env _ := undisturbed_tracked n
  refine keeps_then (keeps_lift _) (fun _ _ h => h.1) fun target => ?_
  refine triple_bind (fun _ => Tracked env n) ?_ fun restored => ?_
  · have hprogram : ∀ (w : Run) (outcome : Except Raised Cli.Output),
        env w.history (.runLogged (.program "peer-backup.hex" serial target.1 target.2)
          "peer-restore.log") = outcome →
        Tracked env n w ∧ PeerFile n w.history → Tracked env n { w with
          history := w.history ++ [⟨.runLogged (.program "peer-backup.hex" serial target.1 target.2)
            "peer-restore.log", outcome⟩] } := by
      intro w outcome hanswer h
      refine ⟨fun image => guarded_concat.mpr ⟨h.1.backups image, fun himage => ?_⟩,
        answered_concat.mpr ⟨h.1.answered, hanswer.symm⟩, fun backup hbackup => ?_, h.1.ready⟩
      · obtain ⟨_, _, _, _, heq⟩ := himage
        cases heq
        exact ⟨rfl, h.2⟩
      · exact ⟨(h.1.backup backup hbackup).1, peerFile_concat (other_name (by decide)) h.2⟩
    exact triple_answered (fun w out => hprogram w (.ok out)) fun w e => hprogram w (.error e)
  refine keeps_bind (keeps_when (keeps_raise _)) fun _ => ?_
  refine keeps_bind (keeps_readPeer hT (by decide) (by decide)) fun _ => ?_
  refine keeps_bind (@keeps_nameless env _ hT (.sha256 (.run "peer-restored.hex")) rfl)
    fun digest => ?_
  refine keeps_bind (@keeps_nameless env _ hT (.sha256 (.run "peer-backup.hex")) rfl)
    fun expected => ?_
  refine keeps_bind (keeps_when (keeps_raise _)) fun _ => ?_
  have hreset :
      (Op.runLogged (.reset serial target.1 target.2 "RESET_PIN") "peer-restore-reset.log").Aside :=
    ⟨fun _ ⟨_, _, _, _, heq⟩ => (nomatch heq), other_name (by decide)⟩
  exact keeps_bind (keeps_aside hT hreset) fun reset => keeps_when (keeps_raise _)

theorem restorePeer_tracked (s : Locals) :
    Triple env (fun w => Tracked env n w ∧ s = w.locals) (restorePeer s) (fun _ => Tracked env n)
      (fun _ => Tracked env n) := by
  have hT : Undisturbed env _ := undisturbed_tracked n
  unfold restorePeer
  split
  · rename_i backup manifest serial span hbackup hmanifest hserial hspan
    have hentry : ∀ w, Tracked env n w ∧ s = w.locals → (Tracked env n w ∧ PeerFile n w.history) ∧
        backup = "peer-backup.hex" := by
      rintro w ⟨h, rfl⟩
      obtain ⟨hname, hfile⟩ := h.backup backup hbackup
      exact ⟨⟨h, hfile⟩, hname⟩
    refine triple_mono (triple_fact fun hname => ?_) hentry (fun _ _ h => h) fun _ _ h => h
    rw [hname]
    refine triple_except (fun _ => Tracked env n) ?_ fun e => ?_
    · refine triple_bind (fun _ => Tracked env n) ?_ fun _ => keeps_report hT _
      refine keeps_then (keeps_nameless (undisturbed_backup n) rfl) (fun _ _ h => h.1) fun _ => ?_
      exact triple_finally _ _ (restorePeerImage_tracked manifest serial span) (fun _ =>
        keeps_nameless hT rfl) fun _ => keeps_nameless hT rfl
    · exact keeps_bind (keeps_set hT (fun _ => rfl) fun _ h => h) fun _ => keeps_report hT _
  · exact triple_pure fun _ h => h.1

theorem acquire_tracked (args : Args) (plan : Plan) (device : Device) :
    Triple env (fun w => Unread env n w ∧ Peers n plan.peerManifests w.history)
      (acquire args plan device)
      (fun _ => Tracked env n) (fun _ => Tracked env n) := by
  have hI : Undisturbed env _ := undisturbed_peers n plan.peerManifests
  have hT : Undisturbed env _ := undisturbed_tracked n
  have hraised : ∀ (e : Raised) (w : Run), Unread env n w ∧ Peers n plan.peerManifests w.history →
      Tracked env n w := fun _ _ h => h.1.tracked
  refine keeps_then (keeps_nameless hI rfl) hraised fun _ => ?_
  refine keeps_then (keeps_set hI (fun _ => rfl) fun _ h => h) hraised fun _ => ?_
  refine keeps_then (keeps_nameless hI rfl) hraised fun _ => ?_
  refine keeps_then (keeps_nameless hI rfl) hraised fun _ => ?_
  refine keeps_then (keeps_nameless hI rfl) hraised fun _ => ?_
  refine keeps_then (keeps_turnOn hI _) hraised fun _ => ?_
  refine keeps_then (keeps_runChild hI (by decide)) hraised fun backup => ?_
  refine keeps_then (keeps_set hI (fun _ => rfl) fun _ h => h) hraised fun _ => ?_
  refine triple_bind (fun _ => Tracked env n) ?_ fun _ => ?_
  · cases hpeers : plan.peerManifests with
    | nil => exact triple_pure fun _ h => h.1.tracked
    | cons first rest => exact backUpPeer_tracked args first (first :: rest)
  refine keeps_bind (keeps_save hT) fun _ => ?_
  refine keeps_bind (keeps_runProfiles hT args plan 1 _) fun _ => ?_
  exact keeps_when (keeps_nameless hT rfl)

theorem operation_tracked (float : String → Option Extended) (args : Args) :
    Ends env (fun w => Unread env args.peer.length w ∧ loaded w.history = []) (operation float args)
      (Tracked env args.peer.length) := by
  have hT : Undisturbed env _ := undisturbed_tracked args.peer.length
  refine triple_bind _ (triple_mono (plan_peers float args) (fun _ h => h) (fun _ _ h => h)
    fun _ _ h => h.tracked) fun plan => ?_
  have hI : Undisturbed env _ := undisturbed_peers args.peer.length plan.peerManifests
  refine keeps_then (keeps_common hI args) (fun _ _ h => h.1.tracked) fun _ => ?_
  refine keeps_then (@keeps_nameless env _ hI (.selectInstrument args.instrumentSerial) rfl)
    (fun _ _ h => h.1.tracked) fun device => ?_
  refine triple_bind (fun _ => Tracked env args.peer.length) ?_ fun _ => keeps_report hT _
  refine keeps_then (keeps_nameless hI rfl) (fun _ _ h => h.1.tracked) fun _ => ?_
  exact triple_finally _ _ (acquire_tracked args plan device) (fun _ => keeps_nameless hT rfl)
    fun _ => keeps_nameless hT rfl

theorem recover_tracked (args : Args) : Keeps env (Tracked env n) (recover args) := by
  have hT : Undisturbed env _ := undisturbed_tracked n
  refine keeps_bind (keeps_closeAcquisition hT) fun _ => ?_
  refine keeps_bind (keeps_locals _) fun backup => ?_
  refine keeps_bind (keeps_restore hT args backup) fun _ => ?_
  refine triple_bind (fun s w => Tracked env n w ∧ s = w.locals) (triple_locals
    fun w h => ⟨h, rfl⟩) fun s => ?_
  refine triple_bind _ (restorePeer_tracked s) fun _ => ?_
  exact keeps_bind (keeps_set hT (fun _ => rfl) fun _ h => h) fun _ => keeps_save hT

theorem command_tracked (float : String → Option Extended) (args : Args) :
    Ends env (fun w => w = ⟨{}, []⟩) (command float args) (Tracked env args.peer.length) := by
  have hT : Undisturbed env _ := undisturbed_tracked args.peer.length
  have hstart : ∀ outcome, env [] .newRun = outcome →
      Unread env args.peer.length ⟨{}, [⟨.newRun, outcome⟩]⟩ := by
    intro outcome hanswer
    have hfirst : Unread env args.peer.length ⟨{}, []⟩ :=
      ⟨fun _ => guarded_nil, answered_nil, rfl, nofun⟩
    exact hfirst.concat (aside_nameless rfl).programs hanswer
  refine triple_bind (fun _ w => Unread env args.peer.length w ∧
    loaded w.history = []) ?_ fun _ => ?_
  · apply triple_answered
    · rintro w u hanswer rfl
      exact ⟨hstart _ hanswer, rfl⟩
    · rintro w e hanswer rfl
      exact (hstart _ hanswer).tracked
  refine triple_bind (fun _ => Tracked env args.peer.length) ?_ fun _ => ?_
  · refine ends_finally (Tracked env args.peer.length) ?_ (recover_tracked args)
    refine triple_except (fun _ => Tracked env args.peer.length)
      (operation_tracked float args) fun e => ?_
    exact keeps_bind (keeps_set hT (fun _ => rfl) fun _ h => h) fun _ => keeps_report hT _
  refine keeps_bind (keeps_locals _) fun s => ?_
  refine keeps_bind ?_ fun _ => keeps_bind ?_ fun _ => keeps_nameless hT rfl
  · cases finalError s with
    | none => exact keeps_pure _
    | some e => exact keeps_raise e
  · refine keeps_except (keeps_bind (keeps_nameless hT rfl) fun _ => keeps_save hT) fun e => ?_
    refine keeps_bind (keeps_report hT _) fun _ => ?_
    exact keeps_bind (keeps_save hT) fun _ => keeps_raise _

end

/-- Nothing is programmed but the backup of the peer, as it was read. -/
theorem backup_programmed (float : String → Option Extended) (args : Args)
    (env : Env Op Op.Ans Raised) :
    Backups args.peer.length (command float args env ⟨{}, []⟩).2.history :=
  ((command_tracked float args).world rfl).backups

theorem command_answered (float : String → Option Extended) (args : Args)
    (env : Env Op Op.Ans Raised) :
    Answered env (command float args env ⟨{}, []⟩).2.history :=
  ((command_tracked float args).world rfl).answered

/-! ## What is in the backup -/

/-- `contents` is what the images hold: it changes where an operation may write, and a read that
succeeds leaves an image of the addresses it read. -/
structure Dumped (contents : Past → String → List UInt8) (h : Past) : Prop where
  kept : Untouched (fun op path => HexFile path → op.writesFile path) contents h
  read : ∀ before after output serial family core log, ∀ address size : Nat, ∀ out : Cli.Output,
    h = before ++ ⟨.runLogged (.read output serial family core address size) log, .ok out⟩ ::
      after → out.returncode = 0 →
      ∀ a : Int, WrittenBy (contents (before ++
        [⟨.runLogged (.read output serial family core address size) log, .ok out⟩]) output) a ↔
        (address : Int) ≤ a ∧ a < address + size

theorem peerSpan_ok {peers : List Value} {span : Span} (h : peerSpan peers = .ok span) :
    ∃ found, peers.mapM manifestSpans = .ok found ∧ hull found.flatten = .ok span := by
  unfold peerSpan at h
  split at h
  · cases h
  · rename_i found hfound
    exact ⟨found, hfound, h⟩

section
variable {n : Nat} {contents : Past → String → List UInt8} {before after : Past}

/-- The backup holds the hull of the peers' image ranges. -/
theorem Dumped.backup (hdumped : Dumped contents (before ++ after)) (hfile : PeerFile n before)
    (haccepted : ∀ manifest ∈ loaded before, Accepted manifest) :
    ∃ found span, ((loaded before).take n).mapM manifestSpans = .ok found ∧
      hull found.flatten = .ok span ∧
      ∀ a, WrittenBy (contents before "peer-backup.hex") a ↔ span.Holds a := by
  have hsince : Since (ReadsPeer n) (fun op => HexFile "peer-backup.hex" →
      op.writesFile "peer-backup.hex") before := by
    obtain ⟨front, e, rest, rfl, hread, hwrites⟩ := hfile
    exact ⟨front, e, rest, rfl, hread, fun x hx himp => hwrites x hx (himp (by decide))⟩
  obtain ⟨front, e, rest, rfl, hread, hsame⟩ := since_stored (untouched_front hdumped.kept) hsince
  obtain ⟨peers, span, serial, family, core, log, out, hpeers, hspan, rfl, hcode⟩ := hread
  obtain ⟨found, hfound, hhull⟩ := peerSpan_ok hspan
  have hmembers : ∀ manifest ∈ peers, Accepted manifest := fun manifest hmem =>
    haccepted manifest (hpeers.append _ |>.2.subset hmem)
  have hstart : 0 ≤ span.1 := by
    refine hull_nonneg hhull fun s hs => ?_
    obtain ⟨part, hpart, hs⟩ := List.mem_flatten.mp hs
    obtain ⟨manifest, hmanifest, hspans⟩ := mapM_mem hfound hpart
    exact accepted_nonneg (hmembers manifest hmanifest) hspans s hs
  refine ⟨found, span, by rw [(hpeers.append _).take]; exact hfound, hhull, fun a => ?_⟩
  rw [hsame, hdumped.read front (rest ++ after) _ serial family core log _ _ out
    (by simp) hcode a, Span.Holds]
  omega

/-- The backup is safe exactly where the hull is covered. -/
theorem Dumped.safe (hdumped : Dumped contents (before ++ after)) (hfile : PeerFile n before)
    (haccepted : ∀ manifest ∈ loaded before, Accepted manifest) :
    Safe (RunAllows before) (contents before "peer-backup.hex") ↔ PeerCovered n before := by
  obtain ⟨found, span, hfound, hhull, hwritten⟩ := hdumped.backup hfile haccepted
  constructor
  · intro hsafe found' hfound' s hs t ht a hfrom hto
    obtain rfl := Except.ok.inj (hfound.symm.trans hfound')
    exact hsafe a ((hwritten a).mpr ((hull_holds hhull a).mpr ⟨⟨s, hs, hfrom⟩, t, ht, hto⟩))
  · intro hcovered a ha
    obtain ⟨⟨s, hs, hfrom⟩, t, ht, hto⟩ := (hull_holds hhull a).mp ((hwritten a).mp ha)
    exact hcovered found hfound s hs t ht a hfrom hto

end

/-- Every image handed to the programmer writes only what a manifest of the run allows. -/
def ProgramsAllowed (contents : Past → String → List UInt8) (h : Past) : Prop :=
  ∀ before e after image, h = before ++ e :: after → e.op.programsImage image →
    Safe (RunAllows before) (contents before image)

theorem PeerCovered.mono {n : Nat} {peers : List Value} {before : Past}
    (hpeers : Peers n peers before) (after : Past)
    (hcovered : PeerCovered n before) : PeerCovered n (before ++ after) := by
  intro found hfound s hs t ht a hfrom hto
  rw [(hpeers.append after).take, ← hpeers.take] at hfound
  obtain ⟨⟨manifest, hmanifest, hallows⟩, hfree⟩ := hcovered found hfound s hs t ht a hfrom hto
  refine ⟨⟨manifest, ?_, hallows⟩, hfree⟩
  rw [loaded, List.filterMap_append]
  exact List.mem_append_left _ hmanifest

/-- **What is programmed was allowed, but for the backup of a peer.** Every image flash hands to
the programmer writes only what the manifest allows that it loaded, and every image of bond
clear, its recovery included, only the settings. The backup the power suite programs back
does so if and only if everything between two image ranges of the peers is allowed by a
manifest of the run and not forbidden. -/
theorem programmed_images_allowed (float : String → Option Extended) (args : Args)
    (env : Env Op Op.Ans Raised) (contents : Past → String → List UInt8) :
    (∀ text args env contents,
      Cli.Stored contents (Cli.commandFlash text args env ⟨{}, []⟩).2.history →
      Cli.ProgramsAllowed Cli.RunAllows contents
        (Cli.commandFlash text args env ⟨{}, []⟩).2.history) ∧
    (∀ args env contents, Cli.Stored contents (Cli.commandM6BondClear args env ⟨{}, []⟩).2.history →
      Cli.ProgramsAllowed (fun _ => Cli.SettingsAllow) contents
        (Cli.commandM6BondClear args env ⟨{}, []⟩).2.history) ∧
    ((∀ manifest ∈ loaded (command float args env ⟨{}, []⟩).2.history, Accepted manifest) →
      Dumped contents (command float args env ⟨{}, []⟩).2.history →
      ∀ before e after image, (command float args env ⟨{}, []⟩).2.history = before ++ e :: after →
        e.op.programsImage image → (Safe (RunAllows before) (contents before image) ↔
          PeerCovered args.peer.length before)) := by
  refine ⟨fun text args env contents hstored =>
    (Cli.flash_guards text args env).programsAllowed hstored, fun args env contents hstored =>
    (Cli.bondClear_guards args env).programsAllowed hstored, ?_⟩
  intro haccepted hdumped before e after image heq himage
  obtain ⟨rfl, hfile⟩ := backup_programmed float args env image before e after heq himage
  rw [heq] at haccepted hdumped
  refine hdumped.safe hfile fun manifest hmanifest => haccepted manifest ?_
  rw [loaded, List.filterMap_append]
  exact List.mem_append_left _ hmanifest

/-- A backup that was programmed and is not covered is not safe. -/
theorem not_programsAllowed {n : Nat} {contents : Past → String → List UInt8} {h : Past}
    (hbackups : Backups n h) (haccepted : ∀ manifest ∈ loaded h, Accepted manifest)
    (hdumped : Dumped contents h) (huncovered : ¬ PeerCovered n h)
    (hprogrammed : ∃ e ∈ h, ∃ image, e.op.programsImage image) : ¬ ProgramsAllowed contents h := by
  intro hallowed
  obtain ⟨e, he, image, himage⟩ := hprogrammed
  obtain ⟨before, after, rfl⟩ := List.append_of_mem he
  obtain ⟨rfl, hfile⟩ := hbackups image before e after rfl himage
  have hloaded : ∀ manifest ∈ loaded before, Accepted manifest :=
    fun manifest hmanifest => haccepted manifest (by
    rw [loaded, List.filterMap_append]
    exact List.mem_append_left _ hmanifest)
  have hcovered := (hdumped.safe hfile hloaded).mp (hallowed before e after _ rfl himage)
  obtain ⟨front, _, rest, rfl, ⟨peers, _, _, _, _, _, _, hpeers, _⟩, _⟩ := hfile
  exact huncovered (hcovered.mono (hpeers.append _) (e :: after))

/-! ## Manifests of small images -/

def idleImage : Value :=
  smallManifest "nrf54lm20a" "nrf54lm20dk/nrf54lm20a/cpuapp" "PCA10184" [0] [lowImage]

theorem idleImage_accepted : Accepted idleImage :=
  @small_accepted (smallText "nrf54lm20a" "nrf54lm20dk/nrf54lm20a/cpuapp" "PCA10184" [0]
    [lowImageText]) _ (by decide +kernel) (by decide +kernel)

def upperImage : Value := smallImage 1 "/build/upper.hex" upperHexDigest 0x1000

def upperImageText : String := smallImageText 1 "/build/upper.hex" upperHexDigest 0x1000

def peerImage (images : List Value) : Value :=
  smallManifest "nrf54l15" "nrf54l15dk/nrf54l15/cpuapp" "PCA10156" [0] images

theorem peerImage_accepted : Accepted (peerImage [lowImage]) :=
  @small_accepted (smallText "nrf54l15" "nrf54l15dk/nrf54l15/cpuapp" "PCA10156" [0] [lowImageText])
    _ (by decide +kernel) (by decide +kernel)

theorem peerImages_accepted : Accepted (peerImage [lowImage, upperImage]) :=
  @small_accepted (smallText "nrf54l15" "nrf54l15dk/nrf54l15/cpuapp" "PCA10156" [0] [lowImageText,
    upperImageText]) _ (by decide +kernel) (by decide +kernel)


theorem smallManifest_allows {soc board boardVersion : String} {debug : List Nat}
    {images : List Value} {a : Int} :
    ManifestAllows (smallManifest soc board boardVersion debug images) a ↔
      ∃ image ∈ images, ∃ allowlist, Cli.itemAllowlist image = .ok allowlist ∧
        Allowed allowlist a := by
  constructor
  · rintro ⟨items, item, allowlist, hitems, hitem, hallowlist, hallowed⟩
    cases hitems
    exact ⟨item, hitem, allowlist, hallowlist, hallowed⟩
  · rintro ⟨item, hitem, allowlist, hallowlist, hallowed⟩
    exact ⟨images, item, allowlist, rfl, hitem, hallowlist, hallowed⟩

theorem smallImage_allows {order start : Nat} {path digest : String} {a : Int} :
    (∃ allowlist, Cli.itemAllowlist (smallImage order path digest start) = .ok allowlist ∧
      Allowed allowlist a) ↔
      (start : Int) ≤ a ∧ a < start + 16 := by
  have hitem : Cli.itemAllowlist (smallImage order path digest start) =
      .ok [[.int start, .int (start + 16)]] := rfl
  constructor
  · rintro ⟨allowlist, hallowlist, entry, hentry, low, high, rfl, hlow, hhigh⟩
    obtain rfl := Except.ok.inj (hitem.symm.trans hallowlist)
    obtain ⟨rfl, rfl⟩ : low = .int start ∧ high = .int (start + 16) := by simpa using hentry
    simp only [Value.leInt, Value.geInt, Value.integer, Option.map_some, Option.some.injEq,
      decide_eq_true_eq] at hlow hhigh
    omega
  · rintro ⟨hfrom, hto⟩
    refine ⟨_, hitem, _, List.mem_singleton_self _, _, _, rfl, ?_, ?_⟩
    · simpa [Value.leInt, Value.integer] using hfrom
    · simp only [Value.geInt, Value.integer, Option.map_some, Option.some.injEq, decide_eq_true_eq]
      omega


/-! ## A suite with a peer -/

def peerArgs : Args where
  profile := ["idle=/build/idle.json"]
  required := by simp
  voltageMv := 3000
  openocd := "openocd"
  scripts := "scripts"
  peer := ["idle=/build/peer.json"]
  peerProbe := some "1050"

/-- Everything answers; the peer's manifest is given. -/
def peerBench (peer : Value) : Env Op Op.Ans Raised := fun h op =>
  match op with
  | .loadManifest path => .ok (if path = "/build/peer.json" then peer else idleImage)
  | .readLog _ => .ok ["peer-report.json"]
  | op => bench (fun _ => false) h op

def peerRun (peer : Value) : Past :=
  (command (fun _ => none) peerArgs (peerBench peer) ⟨{}, []⟩).2.history

/-- A read that succeeds leaves an image of zeros. -/
def dumpedAs (path : String) : Event Op Op.Ans Raised → Option (List UInt8)
  | ⟨.runLogged (.read output _ _ _ address size) _, .ok out⟩ =>
    if output = path ∧ out.returncode = 0 then
      some (rowsText address (List.replicate size 0)) else none
  | _ => none

def dumpedFiles (h : Past) (path : String) : List UInt8 := (latest (dumpedAs path) h).getD []

def readsFrom (size : Nat) (h : Past) : Bool := h.all fun e =>
  match e.op with
  | .runLogged (.read _ _ _ _ address found) _ => address = 0 ∧ found = size
  | _ => true

/-- Something is programmed. -/
def programs (h : Past) : Bool := h.any fun e =>
  match e.op with
  | .runLogged (.program _ _ _ _) _ => true
  | _ => false

theorem programs_some {h : Past} (hprograms : programs h = true) :
    ∃ e ∈ h, ∃ image, e.op.programsImage image := by
  obtain ⟨e, he, hop⟩ := List.any_eq_true.mp hprograms
  refine ⟨e, he, ?_⟩
  split at hop
  · rename_i image serial family core log heq
    exact ⟨image, serial, family, core, log, heq⟩
  · cases hop

theorem rowsText_written {size : Nat} (hsize : size % 16 = 0) (hsome : 0 < size)
    (hsmall : size ≤ 0x100000000) (a : Int) :
    WrittenBy (rowsText 0 (List.replicate size 0)) a ↔
    ((0 : Nat) : Int) ≤ a ∧ a < ((0 : Nat) : Int) + size := by
  have hlength : (List.replicate size (0 : UInt8)).length = size := List.length_replicate
  have hparsed := @parseIhex_rows 0 (List.replicate size 0) rfl (by rw [hlength]; exact hsize)
    (by rw [hlength]; omega) "peer-backup.hex"
    (List.ne_nil_of_length_pos (by rw [hlength]; exact hsome))
  obtain ⟨data, hdata, _, _, hwritten⟩ := parseIhex_ok hparsed
  cases hdata
  rw [← hwritten, hlength]
  simp [Span.Holds]

theorem dumpedFiles_dumped {size : Nat} {h : Past} (hsize : size % 16 = 0) (hsome : 0 < size)
    (hsmall : size ≤ 0x100000000) (hreads : readsFrom size h = true) : Dumped dumpedFiles h where
  kept before e after path heq hwrites := by
    rw [dumpedFiles, latest_concat]
    have hnone : dumpedAs path e = none := by
      unfold dumpedAs
      split
      · rename_i output serial family core address size log out
        refine if_neg fun hsame => ?_
        obtain ⟨rfl, _⟩ := hsame
        exact hwrites fun _ => Or.inl rfl
      · rfl
    rw [hnone]
    rfl
  read before after output serial family core log address found out heq hcode a := by
    have hmem : (⟨.runLogged (.read output serial family core address found) log,
        .ok out⟩ : Event Op Op.Ans Raised) ∈ h := by
      rw [heq]
      simp
    obtain ⟨rfl, rfl⟩ : address = 0 ∧ found = size := by
      simpa using List.all_eq_true.mp hreads _ hmem
    rw [dumpedFiles, latest_concat]
    simp only [dumpedAs, hcode, and_self, if_true, Option.some_or, Option.getD_some]
    exact rowsText_written hsize hsome hsmall a

/-- The paths manifests were loaded from. -/
def loadedPaths (h : Past) : List String := h.filterMap fun e =>
  match e.op with
  | .loadManifest path => some path
  | _ => none

/-- The peer's bench has a manifest for every path. -/
theorem peerBench_loaded {peer : Value} {h : Past} (hanswered : Answered (peerBench peer) h) :
    loaded h = (loadedPaths h).map fun path => if path = "/build/peer.json" then peer
      else idleImage := by
  induction h using List.reverseRecOn with
  | nil => rfl
  | append_singleton h e ih =>
    obtain ⟨hanswered, hlast⟩ := answered_concat.mp hanswered
    rw [loaded_concat, ih hanswered, loadedPaths, loadedPaths, List.filterMap_append,
      List.map_append]
    congr 1
    obtain ⟨op, outcome⟩ := e
    obtain rfl : outcome = peerBench peer h op := hlast
    cases op with
    | loadManifest path => rfl
    | _ => rfl

theorem peerRun_loaded {peer : Value}
    (hpaths : loadedPaths (peerRun peer) = ["/build/peer.json", "/build/idle.json"]) :
    loaded (peerRun peer) = [peer, idleImage] := by
  have hanswered : Answered (peerBench peer) (peerRun peer) :=
    command_answered (fun _ => none) peerArgs (peerBench peer)
  rw [peerBench_loaded hanswered, hpaths]
  rfl

theorem peerRun_accepted {peer : Value}
    (hpaths : loadedPaths (peerRun peer) = ["/build/peer.json", "/build/idle.json"])
    (haccepted : Accepted peer) : ∀ manifest ∈ loaded (peerRun peer), Accepted manifest := by
  rw [peerRun_loaded hpaths]
  exact List.forall_mem_cons.mpr ⟨haccepted, List.forall_mem_singleton.mpr idleImage_accepted⟩

theorem gap_paths : loadedPaths (peerRun (peerImage [lowImage, upperImage])) =
      ["/build/peer.json", "/build/idle.json"] := by
  decide +kernel

/-- 16 lies in the hull and in no image. -/
theorem gap_uncovered : ¬ PeerCovered 1 (peerRun (peerImage [lowImage, upperImage])) := by
  intro hcovered
  have hloaded := peerRun_loaded gap_paths
  obtain ⟨⟨manifest, hmanifest, hallows⟩, _⟩ :=
    hcovered [[(0, 16), (0x1000, 0x1010)]] (by rw [hloaded]; rfl)
    (0, 16) (by simp) (0x1000, 0x1010) (by simp) 16 (by decide) (by decide)
  rw [hloaded] at hmanifest
  simp only [List.mem_cons, List.not_mem_nil, or_false] at hmanifest
  rcases hmanifest with rfl | rfl
  all_goals
    obtain ⟨image, himage, hallows⟩ := smallManifest_allows.mp hallows
    simp only [List.mem_cons, List.not_mem_nil, or_false] at himage
  · rcases himage with rfl | rfl
    all_goals
      have := smallImage_allows.mp hallows
      omega
  · obtain rfl := himage
    have := smallImage_allows.mp hallows
    omega


theorem peer_paths :
    loadedPaths (peerRun (peerImage [lowImage])) = ["/build/peer.json", "/build/idle.json"] := by
  decide +kernel

def flashArgs : Cli.Args where
  manifest := "/build/idle.json"

/-- A copy holds the image. -/
def copiedAs (path : String) : Event Cli.Op Cli.Op.Ans Raised → Option (List UInt8)
  | ⟨.copyFile _ destination, .ok _⟩ => if destination = path then some benchHex else none
  | _ => none

def copiedFiles (h : Cli.Past) (path : String) : List UInt8 := (latest (copiedAs path) h).getD []

/-- Everything answers; what is read is what was copied. -/
def flashBench : Env Cli.Op Cli.Op.Ans Raised := fun h op =>
  match op with
  | .loadManifest _ => .ok idleImage
  | .resolveAlias selection _ => .ok selection
  | .runLogged .deviceList _ => .ok ⟨0, .ok (.list [Cli.mouseDevice])⟩
  | .runLogged _ _ => .ok ⟨0, .ok (.list [])⟩
  | .sha256 _ => .ok benchHexDigest
  | .readFile path => .ok (copiedFiles h path)
  | .newRun | .resolve _ | .version | .lock _ _ | .unlock | .copyFile _ _ | .chmod _ | .writeFile
    _ _ | .atomicJson _ | .print => .ok ()

def flashRun : Cli.Past :=
  (Cli.commandFlash (fun _ => "application") flashArgs flashBench ⟨{}, []⟩).2.history

/-- What is read is what the files hold. -/
def readsHeld (held : String → List UInt8) : Event Cli.Op Cli.Op.Ans Raised → Bool
  | ⟨.readFile path, .ok data⟩ => decide (held path = data)
  | _ => true

def readsBack (contents : Cli.Past → String → List UInt8) (front : Cli.Past) : Cli.Past → Bool
  | [] => true
  | e :: rest => readsHeld (contents front) e && readsBack contents (front ++ [e]) rest

theorem readsBack_read {contents : Cli.Past → String → List UInt8}
    {path : String} {data : List UInt8} {before front after : Cli.Past}
    (h : readsBack contents front (before ++ ⟨.readFile path, .ok data⟩ :: after) = true) :
    contents (front ++ before) path = data := by
  induction before generalizing front with
  | nil =>
    rw [List.nil_append, readsBack, Bool.and_eq_true] at h
    rw [List.append_nil]
    exact of_decide_eq_true h.1
  | cons e before ih =>
    rw [List.cons_append, readsBack, Bool.and_eq_true] at h
    rw [List.append_cons]
    exact ih h.2

theorem flashRun_stored : Cli.Stored copiedFiles flashRun where
  kept before e after path _ hwrites := by
    rw [copiedFiles, latest_concat]
    have hnone : copiedAs path e = none := by
      unfold copiedAs
      split
      · rename_i source destination u
        exact if_neg fun hsame => hwrites hsame.symm
      · rfl
    rw [hnone]
    rfl
  read before path after data heq := by
    have hread : readsBack copiedFiles [] flashRun = true := by decide +kernel
    rw [heq] at hread
    exact readsBack_read hread

/-- The event programs the application of the run. -/
def programsApplication : Event Cli.Op Cli.Op.Ans Raised → Bool
  | ⟨.runLogged (.program image _ _ _) _, _⟩ => decide (image = "00-application.hex")
  | _ => false

theorem flashRun_programs : ∃ e ∈ flashRun, e.op.programsImage "00-application.hex" := by
  have hany : flashRun.any programsApplication = true := by decide +kernel
  obtain ⟨e, he, hop⟩ := List.any_eq_true.mp hany
  refine ⟨e, he, ?_⟩
  unfold programsApplication at hop
  split at hop
  · rename_i image serial family core log outcome
    obtain rfl := of_decide_eq_true hop
    exact ⟨serial, family, core, log, rfl⟩
  · cases hop

/-- Settings of zeros. -/
def zeroSettings : List UInt8 := rowsText m6SettingsStart (List.replicate m6SettingsSize 0)

/-- The files of the full disk do not change. -/
def fullDiskFiles (erased settings : List UInt8) (_ : Cli.Past) (path : String) : List UInt8 :=
  if path = "settings-erased.hex" then erased else settings

def fullDiskRun (erased settings : List UInt8) : Cli.Past :=
  (Cli.commandM6BondClear { manifest := "manifest.json", authorizeBondClear := true }
    (Cli.fullDisk erased settings) ⟨{}, []⟩).2.history

theorem fullDiskRun_reads {erased settings data : List UInt8}
    (herased : requireExactM6SettingsImage "settings-erased.hex" (.ok erased) = .ok ())
    (hbefore : requireExactM6SettingsImage "settings-before.hex" (.ok settings) = .ok ())
    (hbytes : settingsBytes settings = .ok data) :
    (∀ e ∈ fullDiskRun erased settings, readsHeld (fullDiskFiles erased settings []) e = true) ∧
      ∃ e ∈ fullDiskRun erased settings, e.op.programsImage "settings-before.hex" := by
  have hbond : Cli.requireBondManifest Cli.mouseManifest = .ok () := rfl
  have hapart : Cli.requireApart Cli.mouseManifest = .ok () := rfl
  have horacle : Cli.mouseManifest.item "oracle" = .ok (.str "nrf-bm-ble-hids-mouse-s115") := rfl
  have hreceipt : Cli.mouseManifest.item "source_receipt_sha256" = .ok .none := rfl
  have hboard : Cli.mouseManifest.item "board_version" = .ok (.str "PCA10184") := rfl
  have hdevice :
      Cli.selectDevice [Cli.mouseDevice] (.str "PCA10184") none = .ok Cli.mouseDevice := rfl
  have hserial : Cli.serialNumber Cli.mouseDevice = .ok "1057" := rfl
  have htarget : Cli.target Cli.mouseManifest = .ok ("nrf54l", "Application") := rfl
  simp [fullDiskRun, Cli.commandM6BondClear, Cli.bondClearBody, Cli.bondClearFailed,
    Cli.bondClearCleanup, Cli.restoreAfter,
    Cli.restoreSettings, Cli.clearSettings, Cli.readM6Settings, Cli.readExactM6Settings,
      Cli.requireExact, Cli.writeErasedM6Settings,
    Cli.programImage, Cli.initializeDeviceReport, Cli.select, Cli.enumerate, Cli.stage,
      Cli.saveReport, Cli.updateReport,
    Cli.readData, Cli.withLock, Cli.ask, Cli.lift, Bind.bind, Pure.pure, Prog.bind, perform,
      Prog.locals, assign, when,
    withFinally, withExcept, raise, Cli.fullDisk, herased, hbefore, hbytes, hbond, hapart, horacle,
      hreceipt, hboard, hdevice,
    hserial, htarget, readsHeld, fullDiskFiles, Cli.Op.programsImage]

theorem peerRun_covered {before : Past}
    (hloaded : (loaded before).take 1 = [peerImage [lowImage]]) :
    PeerCovered 1 before := by
  intro found hfound s hs t ht a hfrom hto
  rw [hloaded] at hfound
  have hspans : [peerImage [lowImage]].mapM manifestSpans = .ok [[(0, 16)]] := rfl
  obtain rfl := Except.ok.inj (hspans.symm.trans hfound)
  obtain rfl : s = (0, 16) := by simpa using hs
  obtain rfl : t = (0, 16) := by simpa using ht
  refine ⟨⟨peerImage [lowImage], ?_, smallManifest_allows.mpr ⟨lowImage, List.mem_singleton_self _,
    smallImage_allows.mpr ⟨hfrom, hto⟩⟩⟩, ?_⟩
  · exact List.mem_of_mem_take (by rw [hloaded]; exact List.mem_singleton_self _)
  · rintro ⟨region, hregion, hlow, hhigh⟩
    have hbound : ∀ region ∈ forbiddenRanges, (16 : Int) ≤ region.1 := by decide
    have := hbound region hregion
    omega

/-- Flash, bond clear with its recovery, and a suite whose peer has one image. -/
theorem programmed_images_allowed_runs :
    (Cli.ProgramsAllowed Cli.RunAllows copiedFiles flashRun ∧ ∃ e ∈ flashRun,
      e.op.programsImage "00-application.hex") ∧
    (Cli.ProgramsAllowed (fun _ => Cli.SettingsAllow) (fullDiskFiles erasedText zeroSettings)
      (fullDiskRun erasedText zeroSettings) ∧
      ∃ e ∈ fullDiskRun erasedText zeroSettings, e.op.programsImage "settings-before.hex") ∧
    ∃ before e after image, peerRun (peerImage [lowImage]) = before ++ e :: after ∧
      e.op.programsImage image ∧ Safe (RunAllows before) (dumpedFiles before image) := by
  have hallowed := programmed_images_allowed (fun _ => none) peerArgs
    (peerBench (peerImage [lowImage])) dumpedFiles
  refine ⟨⟨?_, flashRun_programs⟩, ?_, ?_⟩
  · exact hallowed.1 (fun _ => "application") flashArgs flashBench copiedFiles flashRun_stored
  · obtain ⟨hreads, hprograms⟩ :=
      @fullDiskRun_reads erasedText zeroSettings _ (requireExact_erased _)
      (requireExact_rows List.length_replicate _) (settingsBytes_rows List.length_replicate)
    refine ⟨?_, hprograms⟩
    apply hallowed.2.1 { manifest := "manifest.json", authorizeBondClear := true }
      (Cli.fullDisk erasedText zeroSettings)
    refine ⟨fun _ _ _ _ _ _ => rfl, fun before path after data heq => ?_⟩
    exact of_decide_eq_true (hreads ⟨.readFile path, .ok data⟩ (by rw [fullDiskRun, heq]; simp))
  · have hprograms : programs (peerRun (peerImage [lowImage])) = true := by decide +kernel
    obtain ⟨e, he, image, himage⟩ := programs_some hprograms
    obtain ⟨before, after, heq⟩ := List.append_of_mem he
    have hdumped : Dumped dumpedFiles (peerRun (peerImage [lowImage])) :=
      @dumpedFiles_dumped 16 _ (by decide) (by decide) (by decide) (by decide +kernel)
    have hbackups : Backups 1 (peerRun (peerImage [lowImage])) :=
      backup_programmed (fun _ => none) peerArgs (peerBench (peerImage [lowImage]))
    obtain ⟨front, _, rest, hbefore, ⟨peers, _, _, _, _, _, _, hpeers, _⟩, _⟩ :=
      (hbackups image before e after heq himage).2
    have htake : (loaded before).take 1 = [peerImage [lowImage]] := by
      have hwhole : (loaded (peerRun (peerImage [lowImage]))).take 1 = peers := by
        rw [heq, hbefore, List.append_assoc]
        exact (hpeers.append _).take
      rw [hbefore, (hpeers.append _).take, ← hwhole, peerRun_loaded peer_paths]
      rfl
    refine ⟨before, e, after, image, heq, himage, ?_⟩
    exact (hallowed.2.2 (peerRun_accepted peer_paths peerImage_accepted) hdumped before e after
      image heq himage).mpr
      (peerRun_covered htake)

/-- The backup of a peer with two images holds what lies between them. -/
theorem gap_programmed :
    (∀ manifest ∈ loaded (peerRun (peerImage [lowImage, upperImage])), Accepted manifest) ∧
      Dumped dumpedFiles (peerRun (peerImage [lowImage, upperImage])) ∧
      ¬ ProgramsAllowed dumpedFiles (peerRun (peerImage [lowImage, upperImage])) := by
  have haccepted := peerRun_accepted gap_paths peerImages_accepted
  have hdumped : Dumped dumpedFiles (peerRun (peerImage [lowImage, upperImage])) :=
    @dumpedFiles_dumped 0x1010 _ (by decide) (by decide) (by decide) (by decide +kernel)
  have hbackups : Backups 1 (peerRun (peerImage [lowImage, upperImage])) :=
    backup_programmed (fun _ => none) peerArgs (peerBench (peerImage [lowImage, upperImage]))
  have hprogrammed : programs (peerRun (peerImage [lowImage, upperImage])) = true := by
    decide +kernel
  exact ⟨haccepted, hdumped, @not_programsAllowed 1 dumpedFiles _ hbackups haccepted hdumped
    gap_uncovered (programs_some hprogrammed)⟩

end NrfKit.Tools.PowerSuite
