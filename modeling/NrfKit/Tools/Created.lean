import NrfKit.Tools.Manifest

/- The manifest the SDK creates, `create_device_manifest` of `tools/nrfkit_tools/sdk.py`, is
   one that `load_manifest` of `tools/nrfkit_tools/cli.py` takes.

   The two check the same artifacts at different times. As long as the ELF and the HEX are as they
   were the manifest is loaded as it was written; where it is loaded, both have the digests they
   had (`created_loads`). -/
namespace NrfKit.Tools.Manifest
open Python Spans IntelHex Sdk Cli

/-! ## Equal values -/

theorem text_same (s : String) : (Value.str s).eq (.str s) = true := by simp [Value.eq]

theorem number_same (n : Int) : (Value.int n).eq (.int n) = true := by
  simp [Value.eq, Value.eqNumber, Value.integer]

theorem ranges_same (ranges : List Span) : (rangesValue ranges).eq (rangesValue ranges) = true := by
  rw [rangesValue, Value.eq]
  induction ranges with
  | nil => rfl
  | cons s rest ih =>
    rw [List.map_cons, Value.eqItems, ih]
    simp [Value.eq, Value.eqItems, Value.eqNumber, Value.integer]

theorem lookup_symbol {symbols : Symbols} (h : (symbols.map Prod.fst).Nodup) {symbol : String × Nat}
    (hsymbol : symbol ∈ symbols) :
    Value.lookup symbol.1 (symbols.map fun symbol => (symbol.1, Value.int symbol.2)) =
      some (.int symbol.2) := by
  induction symbols with
  | nil => cases hsymbol
  | cons first rest ih =>
    rw [List.map_cons, List.nodup_cons] at h
    rw [List.map_cons, Value.lookup]
    rcases List.mem_cons.mp hsymbol with rfl | hrest
    · exact if_pos rfl
    · have hother : first.1 ≠ symbol.1 := by
        intro heq
        refine h.1 ?_
        rw [heq]
        exact List.mem_map.mpr ⟨symbol, hrest, rfl⟩
      rw [if_neg hother]
      exact ih h.2 hrest

theorem symbols_same {symbols : Symbols} (h : (symbols.map Prod.fst).Nodup) :
    (symbolsValue symbols).eq (symbolsValue symbols) = true := by
  have hfields : ∀ others : Symbols, (∀ symbol ∈ others, symbol ∈ symbols) →
      Value.eqFields (others.map fun symbol => (symbol.1, Value.int symbol.2))
        (symbols.map fun symbol => (symbol.1, Value.int symbol.2)) = true := by
    intro others hothers
    induction others with
    | nil => rfl
    | cons first rest ih =>
      obtain ⟨hfirst, hrest⟩ := List.forall_mem_cons.mp hothers
      rw [List.map_cons, Value.eqFields, lookup_symbol h hfirst, ih hrest]
      simp [number_same]
  simp [symbolsValue, Value.eq, hfields symbols fun _ hsymbol => hsymbol]

theorem backend_same : safeBackendContract.eq safeBackendContract = true := by decide +kernel

/-! ## What a creation found -/

/-- The artifacts of a manifest that was created, as they were then. -/
structure Built (o : Outside) (target token elf ihex : String) (manifest : Value) : Prop where
  isFile : o.isFile elf = true
  made : ∃ elfImage symbols layout rram hexImage elfData hexData lockDigest evidence,
    parseElf elf (o.files elf) = .ok elfImage ∧ elfLayoutSymbols o elf = .ok symbols ∧
    layoutFromSymbols symbols = .ok layout ∧
      layoutItem layout "rram" = .ok rram ∧ parseIhex ihex (o.files ihex) = .ok hexImage ∧
      requireAllowed elfImage.ranges
        [[.int rram.origin, .int (rram.origin + rram.length)]] = .ok () ∧
      requireAllowed hexImage.ranges
        [[.int rram.origin, .int (rram.origin + rram.length)]] = .ok () ∧
      o.files elf = .ok elfData ∧ o.files ihex = .ok hexData ∧
      (∀ name ∈ evidence.map Prod.fst, name ∈ optionalNames) ∧
      manifest = createdManifest target token elf ihex (o.digest hexData) lockDigest
        (o.digest elfData) symbols rram elfImage hexImage
        evidence

section
variable {o o' : Outside} {project buildDir target token output : String} {hci : Bool}
    {manifest : Value}

theorem requested_names {layout : Layout} {elf : String} {evidence : List (String × Value)}
    (h : requested hci (buildEvidence o project buildDir target elf layout) = .ok evidence) :
    ∀ name ∈ evidence.map Prod.fst, name ∈ ["hci_transport", "build_evidence"] := by
  cases hci with
  | false =>
    obtain rfl := Except.ok.inj h
    simp
  | true =>
    obtain ⟨_, _, h⟩ := bind_ok.mp h
    obtain ⟨_, _, h⟩ := bind_ok.mp h
    obtain ⟨_, _, h⟩ := bind_ok.mp h
    obtain ⟨_, _, h⟩ := bind_ok.mp h
    obtain ⟨_, _, h⟩ := bind_ok.mp h
    obtain ⟨_, _, h⟩ := bind_ok.mp h
    obtain ⟨_, _, h⟩ := bind_ok.mp h
    obtain ⟨_, _, h⟩ := bind_ok.mp h
    obtain ⟨_, _, h⟩ := bind_ok.mp h
    obtain ⟨_, _, h⟩ := bind_ok.mp h
    obtain ⟨_, _, h⟩ := bind_ok.mp h
    obtain ⟨_, _, h⟩ := bind_ok.mp h
    obtain rfl := pure_ok.mp h
    simp

theorem sha256_ok {path digest : String} (h : sha256 o path = .ok digest) :
    ∃ data, o.files path = .ok data ∧ digest = o.digest data := by
  unfold sha256 at h
  split at h
  · cases h
  · rename_i data hdata
    exact ⟨data, hdata, (Except.ok.inj h).symm⟩

theorem created_built
    (h : createDeviceManifest o project buildDir target token hci = .ok (output, manifest)) :
    Built o target token (o.resolve buildDir ++ "/" ++ target ++ ".elf")
      (o.resolve buildDir ++ "/" ++ target ++ ".hex") manifest := by
  obtain ⟨_, _, h⟩ := bind_ok.mp h
  obtain ⟨_, _, h⟩ := bind_ok.mp h
  obtain ⟨_, hfiles, h⟩ := bind_ok.mp h
  obtain ⟨elfImage, helf, h⟩ := bind_ok.mp h
  obtain ⟨symbols, hsymbols, h⟩ := bind_ok.mp h
  obtain ⟨layout, hlayout, h⟩ := bind_ok.mp h
  obtain ⟨rram, hrram, h⟩ := bind_ok.mp h
  obtain ⟨hexImage, hhex, h⟩ := bind_ok.mp h
  obtain ⟨_, helfGuard, h⟩ := bind_ok.mp h
  obtain ⟨_, hhexGuard, h⟩ := bind_ok.mp h
  obtain ⟨_, _, h⟩ := bind_ok.mp h
  obtain ⟨_, _, h⟩ := bind_ok.mp h
  obtain ⟨hexDigest, hhexDigest, h⟩ := bind_ok.mp h
  obtain ⟨lockDigest, _, h⟩ := bind_ok.mp h
  obtain ⟨elfDigest, helfDigest, h⟩ := bind_ok.mp h
  obtain ⟨evidence, hevidence, h⟩ := bind_ok.mp h
  obtain ⟨_, _, h⟩ := bind_ok.mp h
  obtain ⟨_, rfl⟩ := Prod.mk.inj (pure_ok.mp h)
  obtain ⟨_, hisFile, _⟩ := bind_ok.mp hfiles
  obtain ⟨elfData, helfData, rfl⟩ := sha256_ok helfDigest
  obtain ⟨hexData, hhexData, rfl⟩ := sha256_ok hhexDigest
  refine ⟨by simpa using raiseIf_ok.mp hisFile, elfImage, symbols, layout, rram, hexImage, elfData,
    hexData, lockDigest, evidence, helf, hsymbols, hlayout, hrram, hhex, helfGuard, hhexGuard,
    helfData, hhexData, fun name hname => ?_, rfl⟩
  have hnames := requested_names hevidence name hname
  simp only [List.mem_cons, List.not_mem_nil, or_false] at hnames
  rcases hnames with rfl | rfl <;> decide

/-! ## Loading it again -/

/-- The fields a created manifest always has. -/
def createdNames : List String := [
  "schema", "oracle", "source_receipt_sha256", "soc", "core", "board", "board_version",
    "device_family", "expected_token", "vcom",
  "backend", "image_layout", "debug_allowlist", "debug_elf", "images"]

section
variable {elf ihex hexDigest lockDigest elfDigest : String} {symbols : Symbols} {layout : Layout}
    {rram : Region}
    {elfImage hexImage : ParsedImage} {evidence : List (String × Value)}

theorem created_names : fieldNames (createdManifest target token elf ihex hexDigest lockDigest
      elfDigest symbols rram elfImage hexImage
    evidence) = createdNames ++ evidence.map Prod.fst := rfl

theorem created_required : subset requiredNames (createdNames ++ evidence.map Prod.fst) = true := by
  refine List.all_eq_true.mpr fun name hname => decide_eq_true (List.mem_append_left _ ?_)
  revert name
  decide

theorem created_known (hevidence : ∀ name ∈ evidence.map Prod.fst, name ∈ optionalNames) :
    subset (createdNames ++ evidence.map Prod.fst) (requiredNames ++ optionalNames) = true := by
  have hfixed : ∀ name ∈ createdNames, name ∈ requiredNames ++ optionalNames := by decide
  refine List.all_eq_true.mpr fun name hname => decide_eq_true ?_
  rcases List.mem_append.mp hname with hname | hname
  · exact hfixed name hname
  · exact List.mem_append_right _ (hevidence name hname)

theorem onlyIf_of {condition : Prop} [Decidable condition] {act : Except Raised Unit}
    (h : act = .ok ()) :
    onlyIf condition act = .ok () := by
  unfold onlyIf
  split
  · exact h
  · rfl

theorem entry_same {entry : Option Int} {artifact : Artifact}
    (h : artifact.fields.get "entry" .none = .ok (entry.elim .none .int)) :
    requireEntry artifact entry = .ok () := by
  cases entry with
  | none => rfl
  | some entry => exact bind_ok.mpr ⟨_, h, raiseIf_ok.mpr (by simp [number_same])⟩

/-- An artifact that is as it was is accepted. -/
theorem artifact_same {artifact : Artifact} {path : String} {data : List UInt8}
    {parsed : ParsedImage} {region : Region} (hpath : itemPath artifact.fields = .ok path)
    (habsolute : absolute path = true) (hfile : o'.files path = .ok data)
    (hdigest : artifact.fields.item "sha256" = .ok (.str (o'.digest data)))
    (hparsed : artifact.parser path (o'.files path) = .ok parsed)
    (hallowlist : artifact.allowlist = layoutAllowlist region) (hguard : requireAllowed
      parsed.ranges [[.int region.origin, .int (region.origin + region.length)]] = .ok ())
    (hentry : requireEntry artifact parsed.entry = .ok ())
    (hranges : artifact.fields.item "ranges" = .ok (rangesValue parsed.ranges)) :
    requireArtifact o' artifact = .ok () := by
  have hsha : sha256 o' path = .ok (o'.digest data) := by rw [sha256, hfile]
  have hentries : entries artifact.allowlist =
      .ok [[.int region.origin, .int (region.origin + region.length)]] := by
    rw [hallowlist]
    rfl
  have hfilled : isFilled artifact.allowlist = true := by
    rw [hallowlist]
    rfl
  refine bind_ok.mpr ⟨_, hpath, bind_ok.mpr ⟨(), raiseIf_ok.mpr (by simp [habsolute]), ?_⟩⟩
  refine bind_ok.mpr ⟨_, hsha,
    bind_ok.mpr ⟨_, hdigest, bind_ok.mpr ⟨(), raiseIf_ok.mpr (by simp [text_same]), ?_⟩⟩⟩
  refine bind_ok.mpr ⟨_, hparsed, bind_ok.mpr ⟨(), raiseIf_ok.mpr (by simp [hfilled]), ?_⟩⟩
  refine bind_ok.mpr ⟨_, hentries, bind_ok.mpr ⟨(), hguard, bind_ok.mpr ⟨(), hentry, ?_⟩⟩⟩
  exact bind_ok.mpr ⟨_, hranges, raiseIf_ok.mpr (by simp [ranges_same])⟩

/-- The ELF a layout names is the one it was read from. -/
theorem elf_layout_same (hsymbols : elfLayoutSymbols o' elf = .ok symbols)
    (hlayout : layoutFromSymbols symbols = .ok layout)
    (hrram : layoutItem layout "rram" = .ok rram) :
    requireElfLayout o' (createdManifest target token elf ihex hexDigest lockDigest elfDigest
      symbols rram elfImage hexImage evidence)
      (.dict [("source", .str "elf-symbols"), ("path", .str elf), ("sha256", .str elfDigest),
        ("symbols", symbolsValue symbols)])
      elf = .ok () := by
  obtain ⟨_, -, honce, -⟩ := parseElfAbsoluteSymbols_ok hsymbols
  have hread : readElfLayout o' elf = .ok layout := bind_ok.mpr ⟨symbols, hsymbols, hlayout⟩
  refine bind_ok.mpr ⟨_, rfl, bind_ok.mpr ⟨(), raiseIf_ok.mpr (by simp [text_same]), ?_⟩⟩
  refine bind_ok.mpr ⟨_, rfl, bind_ok.mpr ⟨_, rfl,
    bind_ok.mpr ⟨_, rfl, bind_ok.mpr ⟨(), raiseIf_ok.mpr (by simp [text_same]), ?_⟩⟩⟩⟩
  refine bind_ok.mpr ⟨_, rfl,
    bind_ok.mpr ⟨_, rfl, bind_ok.mpr ⟨(), raiseIf_ok.mpr (by simp [text_same]), ?_⟩⟩⟩
  refine bind_ok.mpr ⟨_, rfl,
    bind_ok.mpr ⟨_, hsymbols, bind_ok.mpr ⟨(), raiseIf_ok.mpr (by simp [symbols_same honce]), ?_⟩⟩⟩
  refine bind_ok.mpr ⟨_, hread,
    bind_ok.mpr ⟨_, hrram, bind_ok.mpr ⟨_, rfl, bind_ok.mpr ⟨(), ?_, ?_⟩⟩⟩⟩
  · exact raiseIf_ok.mpr (by simp [layoutAllowlist_eq])
  refine bind_ok.mpr ⟨_, rfl, bind_ok.mpr ⟨_, rfl, bind_ok.mpr ⟨_, rfl, bind_ok.mpr ⟨(), ?_, rfl⟩⟩⟩⟩
  exact raiseIf_ok.mpr (not_not_intro (layoutAllowlist_eq rram))

theorem layout_same {elfData : List UInt8} (habsolute : absolute elf = true)
    (hisFile : o'.isFile elf = true) (hfile : o'.files elf = .ok elfData)
    (hsymbols : elfLayoutSymbols o' elf = .ok symbols)
    (hlayout : layoutFromSymbols symbols = .ok layout)
    (hrram : layoutItem layout "rram" = .ok rram) :
    requireLayout o' (createdManifest target token elf ihex hexDigest lockDigest
      (o'.digest elfData) symbols rram elfImage hexImage
      evidence) = .ok () := by
  have hsha : sha256 o' elf = .ok (o'.digest elfData) := by rw [sha256, hfile]
  refine bind_ok.mpr ⟨_, rfl,
    bind_ok.mpr ⟨(), raiseIf_ok.mpr (by simp [isDict, hasFields, subset, fieldNames]), ?_⟩⟩
  refine bind_ok.mpr ⟨elf, rfl, bind_ok.mpr ⟨(), raiseIf_ok.mpr (by simp [habsolute, hisFile]), ?_⟩⟩
  refine bind_ok.mpr ⟨_, hsha,
    bind_ok.mpr ⟨_, rfl, bind_ok.mpr ⟨(), raiseIf_ok.mpr (by simp [text_same]), ?_⟩⟩⟩
  exact elf_layout_same hsymbols hlayout hrram

theorem artifacts_same {elfData hexData : List UInt8} (helfAbsolute : absolute elf = true)
    (hhexAbsolute : absolute ihex = true) (helfFile : o'.files elf = .ok elfData)
    (hhexFile : o'.files ihex = .ok hexData) (helf : parseElf elf (o'.files elf) = .ok elfImage)
    (hhex : parseIhex ihex (o'.files ihex) = .ok hexImage) (helfGuard : requireAllowed
      elfImage.ranges [[.int rram.origin, .int (rram.origin + rram.length)]] = .ok ())
    (hhexGuard : requireAllowed hexImage.ranges
      [[.int rram.origin, .int (rram.origin + rram.length)]] = .ok ()) :
    requireArtifacts o' (createdManifest target token elf ihex (o'.digest hexData) lockDigest
      (o'.digest elfData) symbols rram elfImage
      hexImage evidence) = .ok () := by
  obtain ⟨_, -, hentry, -⟩ := parseIhex_ok hhex
  refine bind_ok.mpr ⟨_, rfl, bind_ok.mpr ⟨_, rfl,
    bind_ok.mpr ⟨_, rfl, bind_ok.mpr ⟨(), raiseIf_ok.mpr (by simp [isFilled]), ?_⟩⟩⟩⟩
  refine bind_ok.mpr ⟨_, rfl,
    bind_ok.mpr ⟨_, rfl, bind_ok.mpr ⟨(), raiseIf_ok.mpr (not_not_intro ?_), ?_⟩⟩⟩
  · exact (by decide : (Value.list [.int 0]).eq (.list [.int 0]) = true)
  refine bind_ok.mpr ⟨_, rfl, bind_ok.mpr ⟨(), ?_, bind_ok.mpr ⟨(), ?_, rfl⟩⟩⟩
  · exact artifact_same rfl helfAbsolute helfFile rfl helf rfl helfGuard (entry_same rfl) rfl
  · refine artifact_same rfl hhexAbsolute hhexFile rfl hhex rfl hhexGuard ?_ rfl
    rw [hentry]
    rfl

end

/-- The artifacts a loaded manifest names have the digests it gives. -/
theorem artifact_digest {artifact : Artifact} {path expected : String}
    (h : requireArtifact o artifact = .ok ()) (hpath : itemPath artifact.fields = .ok path)
    (hexpected : artifact.fields.item "sha256" = .ok (.str expected)) :
    ∃ data, o.files path = .ok data ∧ o.digest data = expected := by
  obtain ⟨_, hfound, h⟩ := bind_ok.mp h
  obtain rfl := Except.ok.inj (hpath.symm.trans hfound)
  obtain ⟨_, _, h⟩ := bind_ok.mp h
  obtain ⟨digest, hdigest, h⟩ := bind_ok.mp h
  obtain ⟨value, hvalue, h⟩ := bind_ok.mp h
  obtain rfl := Except.ok.inj (hexpected.symm.trans hvalue)
  obtain ⟨_, hequal, _⟩ := bind_ok.mp h
  obtain ⟨data, hdata, rfl⟩ := sha256_ok hdigest
  refine ⟨data, hdata, ?_⟩
  simpa [Value.eq] using raiseIf_ok.mp hequal

theorem absolute_behind {path : String} (h : absolute path = true) (suffix : String) :
    absolute (path ++ suffix) = true := by
  simp only [absolute, decide_eq_true_eq, String.toList_append] at h ⊢
  rw [List.head?_append, h]
  rfl

/-- **What is created is what is loaded.** As long as the ELF and the HEX are as they were,
what was created is loaded with all its artifacts; and wherever it is loaded both have the
digests they had. -/
theorem created_loads (hresolve : absolute (o.resolve buildDir) = true)
    (h : createDeviceManifest o project buildDir target token hci = .ok (output, manifest))
    (hdigest : o'.digest = o.digest) (path : String) :
    let elf := o.resolve buildDir ++ "/" ++ target ++ ".elf"
    let ihex := o.resolve buildDir ++ "/" ++ target ++ ".hex"
    (o'.files elf = o.files elf → o'.files ihex = o.files ihex → o'.isFile elf = true →
      readJson o' path = .ok manifest → loadManifest o' path true = .ok manifest) ∧
    (loadManifest o' path true = .ok manifest →
      ∀ name ∈ [elf, ihex], ∃ now before, o'.files name = .ok now ∧ o.files name = .ok before ∧
        o.digest now = o.digest before) := by
  intro elf ihex
  obtain ⟨hisFile, elfImage, symbols, layout, rram, hexImage, elfData, hexData, lockDigest,
    evidence, helf, hsymbols, hlayout, hrram, hhex, helfGuard, hhexGuard, helfData, hhexData,
    hevidence, hmanifest⟩ := created_built h
  have habsolute : ∀ suffix, absolute (o.resolve buildDir ++ "/" ++ target ++ suffix) = true := by
    intro suffix
    exact absolute_behind (absolute_behind (absolute_behind hresolve _) _) _
  rw [← hdigest] at hmanifest
  refine ⟨fun helfSame hhexSame hstill hread => ?_, fun hloaded => ?_⟩
  · have helfFile := helfSame.trans helfData
    have hhexFile := hhexSame.trans hhexData
    have hsymbols' : elfLayoutSymbols o' elf = .ok symbols := by rwa [elfLayoutSymbols, helfSame]
    have hcaught : caught (readError path) (readJson o' path) = .ok manifest := by
      rw [hread, caught]
    have helf' : parseElf elf (o'.files elf) = .ok elfImage := by rwa [helfSame]
    have hhex' : parseIhex ihex (o'.files ihex) = .ok hexImage := by rwa [hhexSame]
    refine bind_ok.mpr ⟨manifest, hcaught, ?_⟩
    subst hmanifest
    have hschema : (Value.str "nrfkit-image/v1").eq (.str "nrfkit-image/v1") = true := text_same _
    refine bind_ok.mpr ⟨_, rfl, bind_ok.mpr ⟨(), raiseIf_ok.mpr ?_, ?_⟩⟩
    · rw [created_names, created_required, created_known hevidence]
      exact not_or.mpr ⟨not_not_intro hschema, by simp⟩
    refine bind_ok.mpr ⟨_, rfl, bind_ok.mpr ⟨(), raiseIf_ok.mpr (not_not_intro backend_same), ?_⟩⟩
    refine bind_ok.mpr ⟨(), ?_, bind_ok.mpr ⟨_, rfl,
      bind_ok.mpr ⟨(), raiseIf_ok.mpr (by simp [isFilled, layoutAllowlist]), ?_⟩⟩⟩
    · exact onlyIf_of (layout_same (habsolute ".elf") hstill helfFile hsymbols' hlayout hrram)
    · refine bind_ok.mpr ⟨(), onlyIf_of ?_, rfl⟩
      exact artifacts_same (habsolute ".elf")
        (habsolute ".hex") helfFile hhexFile helf' hhex' helfGuard hhexGuard
  · have hartifacts := loadManifest_artifacts hloaded
    subst hmanifest
    obtain ⟨helfAudit, hitems⟩ := requireArtifacts_ok hartifacts rfl rfl rfl rfl
    obtain ⟨artifact, hfields, -, -, hhexAudit⟩ := hitems _ (List.mem_singleton.mpr rfl)
    obtain ⟨elfNow, helfNow, helfDigest⟩ := artifact_digest helfAudit rfl rfl
    obtain ⟨hexNow, hhexNow, hhexDigest⟩ :=
      artifact_digest hhexAudit (by rw [hfields]; rfl) (by rw [hfields]; rfl)
    rw [hdigest] at helfDigest hhexDigest
    intro name hname
    simp only [List.mem_cons, List.not_mem_nil, or_false] at hname
    rcases hname with rfl | rfl
    · exact ⟨elfNow, elfData, helfNow, helfData, helfDigest⟩
    · exact ⟨hexNow, hexData, hhexNow, hhexData, hhexDigest⟩

end

/-- The bench, where the JSON of a manifest is read. -/
def reading (manifest : Value) : Outside := { bench with loads := fun _ => .ok manifest }

theorem created_loads_bench :
    ∃ output manifest,
      createDeviceManifest bench "/nrfkit" "/build" "empty" "READY" false = .ok (output, manifest) ∧
      loadManifest (reading manifest) "/build/empty.device-manifest.json" true = .ok manifest ∧
      ∃ now, (reading manifest).files "/build/empty.hex" = .ok now ∧
        bench.digest now = benchHexDigest := by
  have hcreated : (createDeviceManifest bench "/nrfkit" "/build" "empty" "READY" false).isOk =
      true := by decide +kernel
  obtain ⟨⟨output, manifest⟩, hmanifest⟩ := isOk_ok hcreated
  have hnewlines : Text.universalNewlines (nameBytes benchText) = nameBytes benchText := by
    decide +kernel
  have htext : readText (reading manifest) "/build/empty.device-manifest.json" = .ok benchText :=
    readText_bytes rfl hnewlines
  have hread : readJson (reading manifest) "/build/empty.device-manifest.json" = .ok manifest :=
    bind_ok.mpr ⟨benchText, htext, rfl⟩
  have hdigest : (reading manifest).digest = bench.digest := rfl
  obtain ⟨hloads, hkept⟩ :=
    created_loads (by decide) hmanifest hdigest "/build/empty.device-manifest.json"
  have hloaded := hloads rfl rfl rfl hread
  obtain ⟨now, before, hnow, hbefore, hsame⟩ := hkept hloaded "/build/empty.hex" (by simp [bench])
  obtain rfl :=
    Except.ok.inj (hbefore.symm.trans (rfl : bench.files "/build/empty.hex" = .ok benchHex))
  exact ⟨output, manifest, hmanifest, hloaded, now, hnow, hsame.trans (by decide +kernel)⟩

end NrfKit.Tools.Manifest
