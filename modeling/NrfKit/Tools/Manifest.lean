import NrfKit.Tools.Cli
import NrfKit.Tools.Sdk

/- Image manifests: `load_manifest` of `tools/nrfkit_tools/cli.py`, and what the addresses of
   an accepted manifest's images are.

   `Contained` says of the files themselves that every address a listed image writes or the
   debug ELF loads lies in the RRAM the ELF declares, and in nothing that must be kept. A
   manifest the SDK creates is contained, and so is one that is loaded with its artifacts
   where its layout comes from the ELF's symbols (`manifest_contained`). -/
namespace NrfKit.Tools.Manifest
open Python Spans IntelHex Sdk Cli

def requiredNames : List String := [
  "schema", "oracle", "source_receipt_sha256", "soc", "core", "board", "board_version",
    "device_family",
  "expected_token", "vcom", "debug_allowlist", "debug_elf", "images", "backend"]

def optionalNames : List String := ["build_evidence", "hci_transport", "image_layout"]

def fieldNames : Value → List String
  | .dict fields => fields.map Prod.fst
  | _ => []

def subset (names others : List String) : Bool := names.all (· ∈ others)

/-- `set(value) == set(names)` of a dictionary. -/
def hasFields (value : Value) (names : List String) : Bool :=
  subset (fieldNames value) names ∧ subset names (fieldNames value)

def isDict : Value → Bool
  | .dict _ => true
  | _ => false

/-- `isinstance(value, list) and value`. -/
def isFilled : Value → Bool
  | .list (_ :: _) => true
  | _ => false

def absolute (path : String) : Bool := path.toList.head? = some '/'

def readError (path : String) (e : Raised) : Raised :=
  if isOSError e ∨ e.name = "JSONDecodeError" then
    toolError ("cannot read image manifest " ++ path ++ ": " ++ e.text)
  else e

/-! ## The layout -/

def requireAllowlists (allowlist : Value) : List Value → Except Raised Unit
  | [] => .ok ()
  | item :: rest => do
    let found ← item.get "allowlist" .none
    raiseIf (¬ found.eq allowlist)
      (toolError "image manifest allowlist differs from the ELF layout")
    requireAllowlists allowlist rest

/-- What is checked where the layout names its source. -/
def requireElfLayout (o : Outside) (value layout : Value)
    (layoutPath : String) : Except Raised Unit := do
  let invalid := toolError "image manifest ELF layout evidence is invalid or stale"
  let source ← layout.item "source"
  raiseIf (¬ source.eq (.str "elf-symbols")) invalid
  let path ← layout.item "path"
  let debugElf ← value.item "debug_elf"
  let debugPath ← debugElf.item "path"
  raiseIf (¬ path.eq debugPath) invalid
  let digest ← layout.item "sha256"
  let debugDigest ← debugElf.item "sha256"
  raiseIf (¬ digest.eq debugDigest) invalid
  let symbols ← layout.item "symbols"
  let found ← elfLayoutSymbols o layoutPath
  raiseIf (¬ symbols.eq (symbolsValue found)) invalid
  let elfLayout ← readElfLayout o layoutPath
  let rram ← layoutItem elfLayout "rram"
  let allowlist := layoutAllowlist rram
  let debugAllowlist ← value.item "debug_allowlist"
  raiseIf (¬ debugAllowlist.eq allowlist)
    (toolError "image manifest allowlist differs from the ELF layout")
  let images ← value.item "images"
  let items ← images.iterate
  requireAllowlists allowlist items

def requireLayout (o : Outside) (value : Value) : Except Raised Unit := do
  let layout ← value.item "image_layout"
  raiseIf (¬ isDict layout ∨
      ¬ (hasFields layout ["path", "sha256"] ∨
        hasFields layout ["source", "path", "sha256", "symbols"]))
    (toolError "image manifest layout evidence is invalid")
  let layoutPath ← itemPath layout
  let stale := toolError "image manifest layout receipt is missing or stale"
  raiseIf (¬ absolute layoutPath ∨ ¬ o.isFile layoutPath) stale
  let digest ← sha256 o layoutPath
  let expected ← layout.item "sha256"
  raiseIf (¬ (Value.str digest).eq expected) stale
  onlyIf ("source" ∈ fieldNames layout) (requireElfLayout o value layout layoutPath)

/-! ## The artifacts -/

/-- `(name, artifact, parser, allowlist)`. -/
structure Artifact where
  name : String
  fields : Value
  parser : String → FileData → Except Raised ParsedImage
  allowlist : Value

def imageArtifact (o : Outside) (item : Value) : Except Raised Artifact := do
  let domain ← item.get "domain" (.str "unknown")
  let allowlist ← item.get "allowlist" .none
  pure ⟨o.text domain ++ " HEX", item, parseIhex, allowlist⟩

def imageArtifacts (o : Outside) : List Value → Except Raised (List Artifact)
  | [] => .ok []
  | item :: rest => do
    let artifact ← imageArtifact o item
    let artifacts ← imageArtifacts o rest
    pure (artifact :: artifacts)

def itemOrders : List Value → Except Raised (List Value)
  | [] => .ok []
  | item :: rest => do
    let order ← item.get "order" .none
    let orders ← itemOrders rest
    pure (order :: orders)

/-- An entry the parser found is the one the manifest has. -/
def requireEntry (artifact : Artifact) : Option Int → Except Raised Unit
  | none => .ok ()
  | some entry => do
    let expected ← artifact.fields.get "entry" .none
    raiseIf (¬ expected.eq (.int entry))
      (toolError ("manifest " ++ artifact.name ++ " entry is stale"))

def requireArtifact (o : Outside) (artifact : Artifact) : Except Raised Unit := do
  let path ← itemPath artifact.fields
  let stale := toolError ("manifest " ++ artifact.name ++ " artifact is missing or stale")
  raiseIf (¬ absolute path) stale
  let digest ← sha256 o path
  let expected ← artifact.fields.item "sha256"
  raiseIf (¬ (Value.str digest).eq expected) stale
  let parsed ← artifact.parser path (o.files path)
  raiseIf (¬ isFilled artifact.allowlist)
    (toolError ("manifest " ++ artifact.name ++ " allowlist is invalid"))
  let ranges ← entries artifact.allowlist
  requireAllowed parsed.ranges ranges
  requireEntry artifact parsed.entry
  let listed ← artifact.fields.item "ranges"
  raiseIf (¬ (rangesValue parsed.ranges).eq listed)
    (toolError ("manifest " ++ artifact.name ++ " ranges are stale"))

def requireEach (o : Outside) : List Artifact → Except Raised Unit
  | [] => .ok ()
  | artifact :: rest => do
    requireArtifact o artifact
    requireEach o rest

def requireArtifacts (o : Outside) (value : Value) : Except Raised Unit := do
  let debugElf ← value.item "debug_elf"
  let debugAllowlist ← value.item "debug_allowlist"
  let images ← value.item "images"
  raiseIf (¬ isFilled images) (toolError "image manifest has no ordered programming images")
  let items ← images.iterate
  let orders ← itemOrders items
  raiseIf (¬ (Value.list orders).eq (.list ((List.range items.length).map fun n : Nat => .int n)))
    (toolError "image manifest programming order is invalid")
  let listed ← imageArtifacts o items
  requireEach o (⟨"debug ELF", debugElf, parseElf, debugAllowlist⟩ :: listed)

/-- What `load_manifest` checks of the value it read. -/
def auditManifest (o : Outside) (value : Value) (artifacts : Bool) : Except Raised Value := do
  let schema ← value.get "schema" .none
  raiseIf (¬ schema.eq (.str "nrfkit-image/v1") ∨ ¬ subset requiredNames (fieldNames value) ∨
      ¬ subset (fieldNames value) (requiredNames ++ optionalNames))
    (toolError "image manifest schema or fields are invalid")
  let backend ← value.item "backend"
  raiseIf (¬ backend.eq safeBackendContract)
    (toolError "image manifest backend contract is invalid")
  onlyIf ("image_layout" ∈ fieldNames value) (requireLayout o value)
  let debugAllowlist ← value.item "debug_allowlist"
  raiseIf (¬ isFilled debugAllowlist) (toolError "image manifest debug allowlist is invalid")
  onlyIf artifacts (requireArtifacts o value)
  pure value

def loadManifest (o : Outside) (path : String) (artifacts : Bool) : Except Raised Value := do
  let value ← caught (readError path) (readJson o path)
  auditManifest o value artifacts

/-- The manifest is one that is loaded with its artifacts. -/
def Accepted (manifest : Value) : Prop := ∃ o path, loadManifest o path true = .ok manifest

/-! ## Containment -/

/-- The file the manifest has as its debug ELF. -/
def DebugElf (files : Files) (manifest : Value) (data : List UInt8) : Prop :=
  ∃ artifact path, manifest.item "debug_elf" = .ok artifact ∧
    artifact.item "path" = .ok (.str path) ∧ files path = .ok data

/-- A file the manifest lists to be programmed. -/
def Listed (files : Files) (manifest : Value) (data : List UInt8) : Prop :=
  ∃ items item path, manifest.item "images" = .ok (.list items) ∧ item ∈ items ∧
    item.item "path" = .ok (.str path) ∧ files path = .ok data

/-- The region between two symbols the ELF declares holds the address. -/
def DeclaredRegion (elf : List UInt8) (name : String) (a : Int) : Prop :=
  ∃ start stop, Declares elf (startName name) start ∧ Declares elf (endName name) stop ∧
    (start : Int) ≤ a ∧ a < stop

/-- The ELF declares the one value for the symbol. -/
def DeclaresOne (elf : List UInt8) (name : String) (value : Nat) : Prop :=
  ∀ v, Declares elf name v ↔ v = value

/-- An address that may be programmed with an ELF whose RRAM is from `start` to `stop`. -/
structure Programmable (elf : List UInt8) (start stop : Nat) (a : Int) : Prop where
  above : (start : Int) ≤ a
  below : a < stop
  free : ¬ Forbidden a
  settings : ¬ DeclaredRegion elf "settings" a
  scratch : ¬ DeclaredRegion elf "rram_scratch" a

/-- All that is programmed with the manifest, and all its debug ELF loads, lies in the RRAM the
ELF declares. -/
def Contained (files : Files) (manifest : Value) : Prop :=
  ∃ elf start stop, DebugElf files manifest elf ∧ DeclaresOne elf "__nrfkit_rram_start" start ∧
    DeclaresOne elf "__nrfkit_rram_end" stop ∧ start < stop ∧ stop ≤ 0x1FD000 ∧
    (∀ a, LoadedBy elf a → Programmable elf start stop a) ∧
    ∀ image, Listed files manifest image → ∀ a, WrittenBy image a → Programmable elf start stop a

/-- The layout of the manifest has the ELF's symbols as its source. -/
def FromSymbols (manifest : Value) : Prop :=
  ∃ layout, manifest.item "image_layout" = .ok layout ∧
    layout.item "source" = .ok (.str "elf-symbols")

/-! ## The layout's bounds -/

/-- The names the layout is read from. -/
def layoutNames : List String :=
  ["__nrfkit_rram_start", "__nrfkit_rram_end", "__nrfkit_ram_start", "__nrfkit_ram_end",
  "__nrfkit_settings_start", "__nrfkit_settings_end", "__nrfkit_rram_scratch_start",
    "__nrfkit_rram_scratch_end"]

theorem lookup_mem_iff {found : Symbols} (h : (found.map Prod.fst).Nodup) (name : String)
    (value : Nat) :
    found.lookup name = some value ↔ (name, value) ∈ found := by
  induction found with
  | nil => simp
  | cons symbol rest ih =>
    obtain ⟨first, number⟩ := symbol
    rw [List.map_cons, List.nodup_cons] at h
    by_cases hname : name = first
    · subst hname
      have hnone : (name, value) ∉ rest := fun hmem => h.1 (List.mem_map.mpr ⟨_, hmem, rfl⟩)
      simp [hnone, eq_comm]
    · rw [List.lookup_cons, beq_false_of_ne hname]
      simp [ih h.2, hname]

section
variable {o : Outside} {path : String} {symbols : Symbols}

/-- The symbols of the layout are those the ELF declares. -/
theorem elfLayoutSymbols_ok (h : elfLayoutSymbols o path = .ok symbols) :
    ∃ elf, o.files path = .ok elf ∧ ∀ name ∈ layoutNames, ∀ value,
      symbols.lookup name = some value ↔ Declares elf name value := by
  obtain ⟨elf, hfile, honce, _, hdeclared⟩ := parseElfAbsoluteSymbols_ok h
  refine ⟨elf, hfile, fun name hname value => ?_⟩
  rw [lookup_mem_iff honce, hdeclared]
  exact and_iff_right hname

theorem lookup_declaresOne {elf : List UInt8}
    (hdeclares : ∀ name ∈ layoutNames, ∀ value, symbols.lookup name = some value ↔
      Declares elf name value) {name : String} (hname : name ∈ layoutNames) {value : Nat}
    (hvalue : symbols.lookup name = some value) : DeclaresOne elf name value := by
  intro v
  rw [← hdeclares name hname v, hvalue, Option.some.injEq, eq_comm]

/-- The RRAM region of the layout is the one the ELF declares, and what is free in it may be
programmed. -/
structure Bounds (elf : List UInt8) (start stop : Nat) (rram : Region) : Prop where
  origin : DeclaresOne elf "__nrfkit_rram_start" start
  limit : DeclaresOne elf "__nrfkit_rram_end" stop
  nonempty : start < stop
  safe : stop ≤ 0x1FD000
  region : rram = ⟨start, stop - start⟩
  programmable : ∀ a : Int, (start : Int) ≤ a → a < stop → ¬ Forbidden a →
    Programmable elf start stop a

theorem layout_bounds {layout : Layout} {rram : Region}
    (hsymbols : elfLayoutSymbols o path = .ok symbols)
    (hlayout : layoutFromSymbols symbols = .ok layout)
    (hrram : layoutItem layout "rram" = .ok rram) :
    ∃ elf start stop, o.files path = .ok elf ∧ Bounds elf start stop rram := by
  obtain ⟨elf, hfile, hdeclares⟩ := elfLayoutSymbols_ok hsymbols
  obtain ⟨start, stop, hstart, hstop, hlt, hsafe, hitem, hapart⟩ := layoutFromSymbols_ok hlayout
  have hregion : ∀ name ∈ ["settings", "rram_scratch"], ∀ a : Int, (start : Int) ≤ a → a < stop →
      ¬ DeclaredRegion elf name a := by
    rintro name hname a hfrom hto ⟨low, high, hlow, hhigh, hlowa, hahigh⟩
    have hnames : startName name ∈ layoutNames ∧ endName name ∈ layoutNames := by
      simp only [List.mem_cons, List.not_mem_nil, or_false] at hname
      rcases hname with rfl | rfl <;> decide
    exact hapart name hname a hfrom hto ⟨low, high, (hdeclares _ hnames.1 low).mpr hlow,
      (hdeclares _ hnames.2 high).mpr hhigh, hlowa, hahigh⟩
  exact ⟨elf, start, stop, hfile, {
    origin := lookup_declaresOne hdeclares (by decide) hstart
    limit := lookup_declaresOne hdeclares (by decide) hstop
    nonempty := hlt
    safe := hsafe
    region := Except.ok.inj (hrram.symm.trans hitem)
    programmable := fun a hfrom hto hfree =>
      ⟨hfrom, hto, hfree, hregion _ (by simp) a hfrom hto, hregion _ (by simp) a hfrom hto⟩ }⟩

end

/-- What passes the guard with an allowlist equal to the layout's may be programmed. -/
theorem Bounds.guarded {elf : List UInt8} {start stop : Nat} {rram : Region}
    (h : Bounds elf start stop rram) {allowlist : Value}
    (hequal : allowlist.eq (layoutAllowlist rram) = true) {allowed : List (List Value)}
    (hentries : entries allowlist = .ok allowed) {ranges : List Span}
    (hguard : requireAllowed ranges allowed = .ok ()) {a : Int}
    (ha : Covers ranges a) : Programmable elf start stop a := by
  obtain ⟨low, high, rfl, hlow, hhigh⟩ := Value.eq_pairs hequal
  obtain rfl : [[low, high]] = allowed := Except.ok.inj hentries
  obtain ⟨⟨entry, hentry, p, q, hpq, hp, hq⟩, hfree⟩ := requireAllowed_ok hguard ha
  obtain rfl := List.mem_singleton.mp hentry
  obtain ⟨rfl, rfl⟩ : low = p ∧ high = q := by simpa using hpq
  rw [(Value.eq_int hlow a).1] at hp
  rw [(Value.eq_int hhigh (a + 1)).2] at hq
  have hregion := h.region
  have hnonempty := h.nonempty
  subst hregion
  simp only [Option.some.injEq, decide_eq_true_eq] at hp hq
  exact h.programmable a hp (by omega) hfree

/-! ## What the SDK creates -/

section
variable {o : Outside}

/-- The files of a created manifest. -/
theorem created_files (target token elf ihex hexDigest lockDigest elfDigest : String)
    (symbols : Symbols) (rram : Region) (elfImage hexImage : ParsedImage)
    (evidence : List (String × Value)) :
    let manifest := createdManifest target token elf ihex hexDigest lockDigest elfDigest symbols
      rram elfImage hexImage evidence
    (∃ artifact, manifest.item "debug_elf" = .ok artifact ∧ artifact.item "path" = .ok (.str elf)) ∧
      ∃ item, manifest.item "images" = .ok (.list [item]) ∧ item.item "path" = .ok (.str ihex) :=
  ⟨⟨_, rfl, rfl⟩, ⟨_, rfl, rfl⟩⟩

theorem layoutAllowlist_eq (rram : Region) :
    (layoutAllowlist rram).eq (layoutAllowlist rram) = true := by
  simp [layoutAllowlist, Value.eq, Value.eqItems, Value.eqNumber, Value.integer]

theorem created_contained {project buildDir target token output : String} {hci : Bool}
    {manifest : Value}
    (h : createDeviceManifest o project buildDir target token hci = .ok (output, manifest)) :
    Contained o.files manifest := by
  obtain ⟨elfImage, symbols, layout, rram, hexImage, hexDigest, lockDigest, elfDigest, evidence,
    helf, hsymbols, hlayout, hrram, hhex, hguards, _, rfl⟩ := createDeviceManifest_ok h
  obtain ⟨helfGuard, hguards⟩ := List.forall_mem_cons.mp hguards
  have hhexGuard := List.forall_mem_singleton.mp hguards
  obtain ⟨data, hdata, _, hloaded⟩ := parseElf_ok helf
  obtain ⟨hexData, hhexData, _, _, hwritten⟩ := parseIhex_ok hhex
  obtain ⟨elf, start, stop, hfile, hbounds⟩ := layout_bounds hsymbols hlayout hrram
  obtain rfl := Except.ok.inj (hdata.symm.trans hfile)
  obtain ⟨⟨artifact, hartifact, hpath⟩, item, hitem, hitemPath⟩ :=
    created_files target token _ _ hexDigest lockDigest
    elfDigest symbols rram elfImage hexImage evidence
  refine ⟨data, start, stop, ⟨artifact, _, hartifact, hpath, hfile⟩, hbounds.origin, hbounds.limit,
    hbounds.nonempty, hbounds.safe, fun a ha => ?_, ?_⟩
  · exact hbounds.guarded (layoutAllowlist_eq rram) rfl helfGuard ((hloaded a).mpr ha)
  · rintro image ⟨items, listed, path, hitems, hlisted, hlistedPath, himage⟩ a ha
    obtain rfl : [item] = items := by
      cases hitem.symm.trans hitems
      rfl
    obtain rfl := List.mem_singleton.mp hlisted
    cases hitemPath.symm.trans hlistedPath
    obtain rfl := Except.ok.inj (hhexData.symm.trans himage)
    exact hbounds.guarded (layoutAllowlist_eq rram) rfl hhexGuard ((hwritten a).mpr ha)

end

/-! ## What is loaded -/

section
variable {o : Outside} {value : Value}

theorem item_field {key : String} {found : Value}
    (h : value.item key = .ok found) : key ∈ fieldNames value := by
  cases value with
  | dict fields =>
    rw [Value.item] at h
    cases hlookup : Value.lookup key fields with
    | none => simp [hlookup] at h
    | some v =>
      clear h
      induction fields with
      | nil => simp [Value.lookup] at hlookup
      | cons field rest ih =>
        obtain ⟨first, w⟩ := field
        rw [Value.lookup] at hlookup
        by_cases hkey : first = key
        · simp [fieldNames, hkey]
        · rw [if_neg hkey] at hlookup
          have := ih hlookup
          simp only [fieldNames, List.map_cons, List.mem_cons] at this ⊢
          exact Or.inr this
  | _ => simp [Value.item] at h

theorem itemPath_ok {path : String} (h : itemPath value = .ok path) :
    value.item "path" = .ok (.str path) := by
  unfold itemPath at h
  split at h
  · cases h
  · rename_i found hfound
    obtain rfl := Except.ok.inj h
    exact hfound
  · cases h

theorem isOk_ok {α : Type} {x : Except Raised α} (h : x.isOk = true) : ∃ a, x = .ok a := by
  cases x with
  | error e => cases h
  | ok a => exact ⟨a, rfl⟩

theorem auditManifest_value {artifacts : Bool} {audited : Value}
    (h : auditManifest o value artifacts = .ok audited) :
    audited = value := by
  obtain ⟨_, _, h⟩ := bind_ok.mp h
  obtain ⟨_, _, h⟩ := bind_ok.mp h
  obtain ⟨_, _, h⟩ := bind_ok.mp h
  obtain ⟨_, _, h⟩ := bind_ok.mp h
  obtain ⟨_, _, h⟩ := bind_ok.mp h
  obtain ⟨_, _, h⟩ := bind_ok.mp h
  obtain ⟨_, _, h⟩ := bind_ok.mp h
  obtain ⟨_, _, h⟩ := bind_ok.mp h
  exact (pure_ok.mp h).symm

theorem requireAllowlists_ok {allowlist : Value} {items : List Value}
    (h : requireAllowlists allowlist items = .ok ()) :
    ∀ item ∈ items, ∃ found, item.get "allowlist" .none = .ok found ∧
      found.eq allowlist = true := by
  induction items with
  | nil => exact fun _ hitem => nomatch hitem
  | cons item rest ih =>
    obtain ⟨found, hfound, h⟩ := bind_ok.mp h
    obtain ⟨_, hequal, h⟩ := bind_ok.mp h
    exact List.forall_mem_cons.mpr ⟨⟨found, hfound, by simpa using raiseIf_ok.mp hequal⟩, ih h⟩

theorem requireEach_ok {artifacts : List Artifact} (h : requireEach o artifacts = .ok ()) :
    ∀ artifact ∈ artifacts, requireArtifact o artifact = .ok () := by
  induction artifacts with
  | nil => exact fun _ hmem => nomatch hmem
  | cons artifact rest ih =>
    obtain ⟨_, hfirst, h⟩ := bind_ok.mp h
    exact List.forall_mem_cons.mpr ⟨hfirst, ih h⟩

/-- Every image is an artifact that is read as Intel HEX and guarded by its allowlist. -/
theorem imageArtifacts_ok {items : List Value} {artifacts : List Artifact}
    (h : imageArtifacts o items = .ok artifacts) :
    ∀ item ∈ items, ∃ artifact ∈ artifacts, artifact.fields = item ∧ artifact.parser = parseIhex ∧
      item.get "allowlist" .none = .ok artifact.allowlist := by
  induction items generalizing artifacts with
  | nil => exact fun _ hitem => nomatch hitem
  | cons item rest ih =>
    obtain ⟨artifact, hartifact, h⟩ := bind_ok.mp h
    obtain ⟨others, hothers, h⟩ := bind_ok.mp h
    obtain rfl := pure_ok.mp h
    obtain ⟨_, _, hartifact⟩ := bind_ok.mp hartifact
    obtain ⟨allowlist, hallowlist, hartifact⟩ := bind_ok.mp hartifact
    obtain rfl := pure_ok.mp hartifact
    refine List.forall_mem_cons.mpr ⟨⟨_, List.mem_cons_self .., rfl, rfl, hallowlist⟩,
      fun later hlater => ?_⟩
    obtain ⟨found, hfound, hrest⟩ := ih hothers later hlater
    exact ⟨found, List.mem_cons_of_mem _ hfound, hrest⟩

/-- What an artifact that is accepted passed. -/
theorem requireArtifact_ok {artifact : Artifact} (h : requireArtifact o artifact = .ok ()) :
    ∃ path parsed allowed listed, artifact.fields.item "path" = .ok (.str path) ∧
      artifact.parser path (o.files path) = .ok parsed ∧ entries artifact.allowlist = .ok allowed ∧
      requireAllowed parsed.ranges allowed = .ok () ∧ artifact.fields.item "ranges" = .ok listed ∧
      (rangesValue parsed.ranges).eq listed = true := by
  obtain ⟨path, hpath, h⟩ := bind_ok.mp h
  obtain ⟨_, _, h⟩ := bind_ok.mp h
  obtain ⟨_, _, h⟩ := bind_ok.mp h
  obtain ⟨_, _, h⟩ := bind_ok.mp h
  obtain ⟨_, _, h⟩ := bind_ok.mp h
  obtain ⟨parsed, hparsed, h⟩ := bind_ok.mp h
  obtain ⟨_, _, h⟩ := bind_ok.mp h
  obtain ⟨allowed, hallowed, h⟩ := bind_ok.mp h
  obtain ⟨_, hguard, h⟩ := bind_ok.mp h
  obtain ⟨_, _, h⟩ := bind_ok.mp h
  obtain ⟨listed, hlisted, h⟩ := bind_ok.mp h
  exact ⟨path, parsed, allowed, listed, itemPath_ok hpath, hparsed, hallowed, hguard, hlisted,
    by simpa using raiseIf_ok.mp h⟩

/-- What a layout read from the symbols of an ELF passed. -/
theorem requireElfLayout_ok {layout : Value} {layoutPath : String}
    (hpath : layout.item "path" = .ok (.str layoutPath))
    (h : requireElfLayout o value layout layoutPath = .ok ()) :
    ∃ elf start stop rram debugElf debugAllowlist images items, o.files layoutPath = .ok elf ∧
      Bounds elf start stop rram ∧
      value.item "debug_elf" = .ok debugElf ∧ debugElf.item "path" = .ok (.str layoutPath) ∧
      value.item "debug_allowlist" = .ok debugAllowlist ∧
      debugAllowlist.eq (layoutAllowlist rram) = true ∧
      value.item "images" = .ok images ∧ images.iterate = .ok items ∧
      ∀ item ∈ items, ∃ found, item.get "allowlist" .none = .ok found ∧
        found.eq (layoutAllowlist rram) = true := by
  obtain ⟨_, _, h⟩ := bind_ok.mp h
  obtain ⟨_, _, h⟩ := bind_ok.mp h
  obtain ⟨path, hpath', h⟩ := bind_ok.mp h
  obtain ⟨debugElf, hdebugElf, h⟩ := bind_ok.mp h
  obtain ⟨debugPath, hdebugPath, h⟩ := bind_ok.mp h
  obtain ⟨_, hsame, h⟩ := bind_ok.mp h
  obtain ⟨_, _, h⟩ := bind_ok.mp h
  obtain ⟨_, _, h⟩ := bind_ok.mp h
  obtain ⟨_, _, h⟩ := bind_ok.mp h
  obtain ⟨_, _, h⟩ := bind_ok.mp h
  obtain ⟨_, _, h⟩ := bind_ok.mp h
  obtain ⟨_, _, h⟩ := bind_ok.mp h
  obtain ⟨layoutFound, hlayout, h⟩ := bind_ok.mp h
  obtain ⟨rram, hrram, h⟩ := bind_ok.mp h
  obtain ⟨debugAllowlist, hdebugAllowlist, h⟩ := bind_ok.mp h
  obtain ⟨_, hequal, h⟩ := bind_ok.mp h
  obtain ⟨images, himages, h⟩ := bind_ok.mp h
  obtain ⟨items, hitems, hallowlists⟩ := bind_ok.mp h
  obtain ⟨symbols, hsymbols, hlayout⟩ := bind_ok.mp hlayout
  obtain ⟨elf, start, stop, hfile, hbounds⟩ := layout_bounds hsymbols hlayout hrram
  obtain rfl := Except.ok.inj (hpath.symm.trans hpath')
  obtain rfl := Value.eq_str (by simpa using raiseIf_ok.mp hsame)
  exact ⟨elf, start, stop, rram, debugElf, debugAllowlist, images,
    items, hfile, hbounds, hdebugElf, hdebugPath, hdebugAllowlist,
    by simpa using raiseIf_ok.mp hequal, himages, hitems, requireAllowlists_ok hallowlists⟩

theorem requireArtifacts_ok (h : requireArtifacts o value = .ok ())
    {debugElf debugAllowlist images : Value} {items : List Value}
    (hdebugElf : value.item "debug_elf" = .ok debugElf)
    (hdebugAllowlist : value.item "debug_allowlist" = .ok debugAllowlist)
    (himages : value.item "images" = .ok images) (hitems : images.iterate = .ok items) :
    requireArtifact o ⟨"debug ELF", debugElf, parseElf, debugAllowlist⟩ = .ok () ∧
      ∀ item ∈ items, ∃ artifact, artifact.fields = item ∧ artifact.parser = parseIhex ∧
        item.get "allowlist" .none = .ok artifact.allowlist ∧
        requireArtifact o artifact = .ok () := by
  obtain ⟨debugElf', hdebugElf', h⟩ := bind_ok.mp h
  obtain ⟨debugAllowlist', hdebugAllowlist', h⟩ := bind_ok.mp h
  obtain ⟨images', himages', h⟩ := bind_ok.mp h
  obtain ⟨_, _, h⟩ := bind_ok.mp h
  obtain ⟨items', hitems', h⟩ := bind_ok.mp h
  obtain ⟨_, _, h⟩ := bind_ok.mp h
  obtain ⟨_, _, h⟩ := bind_ok.mp h
  obtain ⟨listed, hlisted, hlast⟩ := bind_ok.mp h
  obtain rfl := Except.ok.inj (hdebugElf.symm.trans hdebugElf')
  obtain rfl := Except.ok.inj (hdebugAllowlist.symm.trans hdebugAllowlist')
  obtain rfl := Except.ok.inj (himages.symm.trans himages')
  obtain rfl := Except.ok.inj (hitems.symm.trans hitems')
  have heach := requireEach_ok hlast
  refine ⟨heach _ (List.mem_cons_self ..), fun item hitem => ?_⟩
  obtain ⟨artifact, hartifact, hfields, hparser, hallowlist⟩ := imageArtifacts_ok hlisted item hitem
  exact ⟨artifact, hfields, hparser, hallowlist, heach artifact (List.mem_cons_of_mem _ hartifact)⟩

/-- What is loaded with its artifacts has them checked. -/
theorem loadManifest_artifacts {path : String} {manifest : Value}
    (h : loadManifest o path true = .ok manifest) :
    requireArtifacts o manifest = .ok () := by
  obtain ⟨read, _, h⟩ := bind_ok.mp h
  obtain rfl := auditManifest_value h
  obtain ⟨_, _, h⟩ := bind_ok.mp h
  obtain ⟨_, _, h⟩ := bind_ok.mp h
  obtain ⟨_, _, h⟩ := bind_ok.mp h
  obtain ⟨_, _, h⟩ := bind_ok.mp h
  obtain ⟨_, _, h⟩ := bind_ok.mp h
  obtain ⟨_, _, h⟩ := bind_ok.mp h
  obtain ⟨_, _, h⟩ := bind_ok.mp h
  obtain ⟨_, hartifacts, _⟩ := bind_ok.mp h
  exact onlyIf_ok hartifacts rfl

theorem loaded_contained {path : String} {manifest : Value}
    (h : loadManifest o path true = .ok manifest)
    (hsource : FromSymbols manifest) : Contained o.files manifest := by
  obtain ⟨layout, hlayout, hsource⟩ := hsource
  obtain ⟨read, _, h⟩ := bind_ok.mp h
  obtain ⟨_, _, h⟩ := bind_ok.mp h
  obtain ⟨_, _, h⟩ := bind_ok.mp h
  obtain ⟨_, _, h⟩ := bind_ok.mp h
  obtain ⟨_, _, h⟩ := bind_ok.mp h
  obtain ⟨_, hlayoutChecked, h⟩ := bind_ok.mp h
  obtain ⟨_, _, h⟩ := bind_ok.mp h
  obtain ⟨_, _, h⟩ := bind_ok.mp h
  obtain ⟨_, hartifacts, h⟩ := bind_ok.mp h
  obtain rfl := pure_ok.mp h
  -- the layout names the ELF's symbols, so it passed their check
  obtain ⟨layout', hlayout', hchecked⟩ := bind_ok.mp (onlyIf_ok hlayoutChecked (item_field hlayout))
  obtain rfl := Except.ok.inj (hlayout.symm.trans hlayout')
  obtain ⟨_, _, hchecked⟩ := bind_ok.mp hchecked
  obtain ⟨layoutPath, hpath, hchecked⟩ := bind_ok.mp hchecked
  obtain ⟨_, _, hchecked⟩ := bind_ok.mp hchecked
  obtain ⟨_, _, hchecked⟩ := bind_ok.mp hchecked
  obtain ⟨_, _, hchecked⟩ := bind_ok.mp hchecked
  obtain ⟨_, _, hchecked⟩ := bind_ok.mp hchecked
  obtain ⟨elf, start, stop, rram, debugElf, debugAllowlist, images, items, hfile, hbounds,
    hdebugElf, hdebugPath, hdebugAllowlist, hequal, himages, hitems, hallowlists⟩ :=
    requireElfLayout_ok (itemPath_ok hpath) (onlyIf_ok hchecked (item_field hsource))
  obtain ⟨hdebug, hlisted⟩ :=
    requireArtifacts_ok (onlyIf_ok hartifacts rfl) hdebugElf hdebugAllowlist himages hitems
  refine ⟨elf, start, stop, ⟨debugElf, layoutPath, hdebugElf, hdebugPath, hfile⟩, hbounds.origin,
    hbounds.limit, hbounds.nonempty, hbounds.safe, fun a ha => ?_, ?_⟩
  · obtain ⟨path, parsed, allowed, _, helfPath, hparsed, hallowed, hguard, _⟩ :=
      requireArtifact_ok hdebug
    cases hdebugPath.symm.trans helfPath
    obtain ⟨data, hdata, _, hloaded⟩ := parseElf_ok hparsed
    obtain rfl := Except.ok.inj (hfile.symm.trans hdata)
    exact hbounds.guarded hequal hallowed hguard ((hloaded a).mpr ha)
  · rintro image ⟨items', item, path, hitems', hitem, hitemPath, himage⟩ a ha
    cases himages.symm.trans hitems'
    obtain rfl := Except.ok.inj hitems
    obtain ⟨artifact, rfl, hparser, hallowlist, haccepted⟩ := hlisted item hitem
    obtain ⟨found, hfound, hequal⟩ := hallowlists artifact.fields hitem
    obtain rfl := Except.ok.inj (hallowlist.symm.trans hfound)
    obtain ⟨path', parsed, allowed, _, hpath', hparsed, hallowed, hguard, _⟩ :=
      requireArtifact_ok haccepted
    cases hitemPath.symm.trans hpath'
    rw [hparser] at hparsed
    obtain ⟨data, hdata, _, _, hwritten⟩ := parseIhex_ok hparsed
    obtain rfl := Except.ok.inj (himage.symm.trans hdata)
    exact hbounds.guarded hequal hallowed hguard ((hwritten a).mpr ha)

end

/-- Whatever the files hold: a manifest the SDK creates is contained, and so is one that is
loaded with its artifacts where its layout comes from the ELF's symbols. -/
theorem manifest_contained (o : Outside) (manifest : Value) :
    (∀ project buildDir target token hci output,
      createDeviceManifest o project buildDir target token hci = .ok (output, manifest) →
      Contained o.files manifest) ∧
    ∀ path, loadManifest o path true = .ok manifest → FromSymbols manifest →
      Contained o.files manifest :=
  ⟨fun _ _ _ _ _ _ h => created_contained h, fun _ h hsource => loaded_contained h hsource⟩

/-! ## A small target -/

def benchNames : List String :=
  ["", "__nrfkit_rram_start", "__nrfkit_rram_end", "__nrfkit_ram_start", "__nrfkit_ram_end"]

/-- 16 bytes at address 0, four symbols in one table. -/
def benchElf : List UInt8 :=
  elfMagic ++ [1, 1, 1] ++ List.replicate 9 0 ++
  Struct.pack header32.tail [2, 40, 1, 1, 52, 84, 0, 52, 32, 1, 40, 3, 2] ++
  Struct.pack program32 [1, 359, 0, 0, 16, 16, 5, 4] ++
  Struct.pack sectionFormat [0, 0, 0, 0, 0, 0, 0, 0, 0, 0] ++
  Struct.pack sectionFormat [0, 2, 0, 0, 204, 80, 2, 1, 4, 16] ++
  Struct.pack sectionFormat [0, 3, 0, 0, 284, 75, 0, 0, 1, 0] ++
  Struct.pack symbolFormat [0, 0, 0, 0, 0, 0] ++
  Struct.pack symbolFormat [1, 0, 0, 0x10, 0, 0xFFF1] ++
  Struct.pack symbolFormat [21, 0x1FCF00, 0, 0x10, 0, 0xFFF1] ++
  Struct.pack symbolFormat [39, 0x20000000, 0, 0x10, 0, 0xFFF1] ++
  Struct.pack symbolFormat [58, 0x20040000, 0, 0x10, 0, 0xFFF1] ++
  benchNames.flatMap (fun name => nameBytes name ++ [0]) ++
  [0, 1, 2, 3, 4, 5, 6, 7, 8, 9, 10, 11, 12, 13, 14, 15]

def benchHex : List UInt8 := nameBytes ":10000000000102030405060708090A0B0C0D0E0F78\n:00000001FF\n"

def benchElfDigest : String := "ab24318f1812c263a62baf2722c7920529597f77fad40b4d55e087c6433688c7"

def benchHexDigest : String := "a61f6b0be7f02d3bef0798ba918f5bf36c6fd5402da471c27282c315cf49090e"

def benchLockDigest : String := "ca3d163bab055381827226140568f3bef7eaac187cebd76878e0b63e9e442356"

def benchManifest : Value :=
  createdManifest "empty" "READY" "/build/empty.elf" "/build/empty.hex" benchHexDigest
    benchLockDigest benchElfDigest
    [("__nrfkit_rram_start", 0), ("__nrfkit_rram_end", 0x1FCF00),
      ("__nrfkit_ram_start", 0x20000000), ("__nrfkit_ram_end", 0x20040000)]
    ⟨0, 0x1FCF00⟩ { ranges := [(0, 16)], entry := some 1 } { ranges := [(0, 16)] } []

/-- The text of the manifest. -/
def benchText : String :=
  "\x7b\"schema\":\"nrfkit-image/v1\",\"oracle\":\"sdk-empty\",\"source_receipt_sha256\":\"" ++
  benchLockDigest ++
  "\",\"soc\":\"nrf54lm20a\",\"core\":\"Application\",\"board\":\"nrf54lm20dk/nrf54lm20a/cpuapp\"," ++
  "\"board_version\":\"PCA10184\",\"device_family\":\"NRF54L\"," ++
  "\"expected_token\":\"READY\",\"vcom\":1," ++
  "\"backend\":\x7b\"programmer\":\"nrfutil-device\"," ++
  "\"program_options\":\x7b\"chip_erase_mode\":\"ERASE_NONE\"," ++
  "\"verify\":\"VERIFY_READ\",\"reset\":\"RESET_NONE\"\x7d," ++
  "\"resetter\":\"nrfutil-device-reset\"\x7d," ++
  "\"image_layout\":\x7b\"source\":\"elf-symbols\",\"path\":\"/build/empty.elf\",\"sha256\":\"" ++
  benchElfDigest ++ "\",\"symbols\":\x7b\"__nrfkit_rram_start\":0,\"__nrfkit_rram_end\":2084608," ++
  "\"__nrfkit_ram_start\":536870912,\"__nrfkit_ram_end\":537133056\x7d\x7d," ++
  "\"debug_allowlist\":[[0,2084608]]," ++
  "\"debug_elf\":\x7b\"path\":\"/build/empty.elf\",\"sha256\":\"" ++ benchElfDigest ++
  "\",\"entry\":1," ++ "\"ranges\":[[0,16]]\x7d," ++
  "\"images\":[\x7b\"domain\":\"empty\",\"order\":0,\"path\":\"/build/empty.hex\"," ++
  "\"sha256\":\"" ++ benchHexDigest ++
  "\",\"ranges\":[[0,16]],\"allowlist\":[[0,2084608]]\x7d]\x7d\n"

def benchFiles : Files
  | "/build/empty.elf" => .ok benchElf
  | "/build/empty.hex" => .ok benchHex
  | "/build/empty.device-manifest.json" => .ok (nameBytes benchText)
  | "/nrfkit/docs/provenance/sources.lock" => .ok (nameBytes "\x7b\x7d\n")
  | _ => .error "No such file or directory"

def bench : Outside where
  files := benchFiles
  isFile path := (benchFiles path).isOk
  resolve path := path
  digest data := if data = benchElf then benchElfDigest else if data = benchHex then benchHexDigest
    else benchLockDigest
  loads text := if text = benchText then .ok benchManifest
    else .error ⟨"JSONDecodeError", "Expecting value"⟩
  undecodable _ := "invalid start byte"
  write _ _ := .ok ()
  alnum c := c.isAlphanum
  text _ := "empty"

theorem readText_bytes {o : Outside} {path text : String} (h : o.files path = .ok (nameBytes text))
    (hnewlines : Text.universalNewlines (nameBytes text) = nameBytes text) : readText o path =
      .ok text := by
  rw [readText, h]
  simp only [hnewlines, decodeUtf8_nameBytes]

theorem bench_read : readJson bench "/build/empty.device-manifest.json" = .ok benchManifest := by
  have hnewlines : Text.universalNewlines (nameBytes benchText) = nameBytes benchText := by
    decide +kernel
  have htext : readText bench "/build/empty.device-manifest.json" = .ok benchText :=
    readText_bytes rfl hnewlines
  have hloads : bench.loads benchText = .ok benchManifest := by simp only [bench, if_true]
  exact bind_ok.mpr ⟨benchText, htext, hloads⟩

theorem manifest_contained_bench :
    (∃ output manifest,
      createDeviceManifest bench "/nrfkit" "/build" "empty" "READY" false = .ok (output, manifest) ∧
      Contained benchFiles manifest) ∧
    loadManifest bench "/build/empty.device-manifest.json" true = .ok benchManifest ∧
    Contained benchFiles benchManifest := by
  have hcreated : (createDeviceManifest bench "/nrfkit" "/build" "empty" "READY" false).isOk =
      true := by decide +kernel
  have haudited : (auditManifest bench benchManifest true).isOk = true := by decide +kernel
  obtain ⟨⟨output, manifest⟩, hmanifest⟩ := isOk_ok hcreated
  obtain ⟨audited, hvalue⟩ := isOk_ok haudited
  have hloaded :
      loadManifest bench "/build/empty.device-manifest.json" true = .ok benchManifest := by
    rw [auditManifest_value hvalue] at hvalue
    have hread : caught (readError "/build/empty.device-manifest.json")
        (readJson bench "/build/empty.device-manifest.json") = .ok benchManifest := by
      rw [bench_read, caught]
    exact bind_ok.mpr ⟨benchManifest, hread, hvalue⟩
  exact ⟨⟨output, manifest, hmanifest, (manifest_contained bench manifest).1 _ _ _ _ _ _ hmanifest⟩,
    hloaded, (manifest_contained bench benchManifest).2 _ hloaded ⟨_, rfl, rfl⟩⟩

/-! ## Small images -/

def upperHex : List UInt8 := nameBytes ":10100000000102030405060708090A0B0C0D0E0F68\n:00000001FF\n"

def nextHex : List UInt8 := nameBytes ":10001000000102030405060708090A0B0C0D0E0F68\n:00000001FF\n"

def upperHexDigest : String := "eec21ef09c8e191c85ba56745b6741f97a2a675275a77681021cce757a502106"

def nextHexDigest : String := "14220d30ff1d879686192c32fd2826a2aa7253a8e809dd0a30a0b7c822682920"

/-- 16 bytes from an address on. -/
def smallRange (start : Nat) : Value := .list [.int start, .int (start + 16)]

def smallRangeText (start : Nat) : String :=
  "[" ++ toString start ++ "," ++ toString (start + 16) ++ "]"

/-- 16 bytes of an image, allowed to the byte. -/
def smallImage (order : Nat) (path digest : String) (start : Nat) : Value :=
  .dict [("domain", .str "application"), ("order", .int order), ("path", .str path),
    ("sha256", .str digest),
    ("ranges", .list [smallRange start]), ("allowlist", .list [smallRange start])]

def smallImageText (order : Nat) (path digest : String) (start : Nat) : String :=
  "\x7b\"domain\":\"application\",\"order\":" ++ toString order ++ ",\"path\":\"" ++ path ++
  "\",\"sha256\":\"" ++ digest ++
    "\",\"ranges\":[" ++ smallRangeText start ++ "],\"allowlist\":[" ++
    smallRangeText start ++ "]\x7d"

/-- A manifest without a layout, whose debug ELF may load into `debug`. -/
def smallManifest (soc board boardVersion : String) (debug : List Nat)
    (images : List Value) : Value :=
  .dict [("schema", .str "nrfkit-image/v1"), ("oracle", .str "sdk-empty"),
    ("source_receipt_sha256", .none), ("soc", .str soc),
    ("core", .str "Application"), ("board", .str board), ("board_version", .str boardVersion),
      ("device_family", .str "NRF54L"),
    ("expected_token", .str "READY"), ("vcom", .int 1), ("backend", safeBackendContract),
    ("debug_allowlist", .list (debug.map smallRange)),
    ("debug_elf", .dict [("path", .str "/build/empty.elf"), ("sha256", .str benchElfDigest),
      ("entry", .int 1), ("ranges", .list [smallRange 0])]),
    ("images", .list images)]

def smallText (soc board boardVersion : String) (debug : List Nat)
    (images : List String) : String :=
  "\x7b\"schema\":\"nrfkit-image/v1\",\"oracle\":\"sdk-empty\",\"source_receipt_sha256\":null," ++
  "\"soc\":\"" ++ soc ++
  "\",\"core\":\"Application\",\"board\":\"" ++ board ++ "\",\"board_version\":\"" ++
  boardVersion ++ "\",\"device_family\":\"NRF54L\",\"expected_token\":\"READY\",\"vcom\":1," ++
  "\"backend\":\x7b\"programmer\":\"nrfutil-device\"," ++
  "\"program_options\":\x7b\"chip_erase_mode\":\"ERASE_NONE\"," ++
  "\"verify\":\"VERIFY_READ\",\"reset\":\"RESET_NONE\"\x7d," ++
  "\"resetter\":\"nrfutil-device-reset\"\x7d," ++
  "\"debug_allowlist\":[" ++ String.intercalate "," (debug.map smallRangeText) ++
  "],\"debug_elf\":\x7b\"path\":\"/build/empty.elf\",\"sha256\":\"" ++ benchElfDigest ++
  "\",\"entry\":1,\"ranges\":[[0,16]]\x7d,\"images\":[" ++
  String.intercalate "," images ++ "]\x7d\n"

/-- The artifacts, and a manifest with its text. -/
def small (text : String) (manifest : Value) : Outside where
  files
    | "/build/empty.elf" => .ok benchElf
    | "/build/empty.hex" => .ok benchHex
    | "/build/next.hex" => .ok nextHex
    | "/build/upper.hex" => .ok upperHex
    | "/build/manifest.json" => .ok (nameBytes text)
    | _ => .error "No such file or directory"
  isFile path := path ∈ ["/build/empty.elf", "/build/empty.hex", "/build/next.hex",
    "/build/upper.hex", "/build/manifest.json"]
  resolve path := path
  digest data := if data = benchElf then benchElfDigest else if data = upperHex then upperHexDigest
    else if data = nextHex then nextHexDigest else benchHexDigest
  loads found := if found = text then .ok manifest
    else .error ⟨"JSONDecodeError", "Expecting value"⟩
  undecodable _ := "invalid start byte"
  write _ _ := .ok ()
  alnum c := c.isAlphanum
  text _ := "application"

theorem small_accepted {text : String} {manifest : Value}
    (hnewlines : Text.universalNewlines (nameBytes text) = nameBytes text)
    (haudited : (auditManifest (small text manifest) manifest true).isOk = true) :
    Accepted manifest := by
  obtain ⟨audited, hvalue⟩ := isOk_ok haudited
  have htext : readText (small text manifest) "/build/manifest.json" = .ok text :=
    readText_bytes rfl hnewlines
  have hloads : (small text manifest).loads text = .ok manifest := by simp only [small, if_true]
  have hread : readJson (small text manifest) "/build/manifest.json" = .ok manifest :=
    bind_ok.mpr ⟨text, htext, hloads⟩
  rw [auditManifest_value hvalue] at hvalue
  refine ⟨small text manifest, "/build/manifest.json", bind_ok.mpr ⟨manifest, ?_, hvalue⟩⟩
  rw [hread, caught]

def lowImage : Value := smallImage 0 "/build/empty.hex" benchHexDigest 0

def lowImageText : String := smallImageText 0 "/build/empty.hex" benchHexDigest 0

end NrfKit.Tools.Manifest
