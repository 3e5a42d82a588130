import NrfKit.Tools.BondClear

/- What flash and bond clear hand to the programmer. A programming command is given a file
   name; what the file holds is known from the last time it was read, if nothing has
   written it since. Flash snapshots every image and guards the snapshot with the
   allowlist of its manifest item; bond clear checks that an image covers exactly the
   settings. So everything they program was audited (`flash_guards`, `bondClear_guards`). -/
namespace NrfKit.Tools.Cli
open Effects Prog Python Spans

/-! ## Audited files -/

/-- The files an operation writes. -/
def Op.writesFile : Op → String → Prop
  | .copyFile _ destination, path => path = destination
  | .writeFile destination _, path => path = destination
  | .runLogged (.read output _ _ _ _ _) log, path => path = output ∨ path = log
  | .runLogged _ log, path => path = log
  | .atomicJson _, path => path = "run.json"
  | _, _ => False

def Op.programsImage (op : Op) (image : String) : Prop :=
  ∃ serial family core log, op = .runLogged (.program image serial family core) log

/-- The file was read as `data`, and not written since. -/
def ReadAs (path : String) (data : List UInt8) (h : Past) : Prop :=
  Since (fun _ e => e = ⟨.readFile path, .ok data⟩) (fun op => op.writesFile path) h

/-- The image writes only what is allowed, and nothing forbidden. -/
def Safe (allow : Int → Prop) (data : List UInt8) : Prop :=
  ∀ a, WrittenBy data a → allow a ∧ ¬ Forbidden a

/-- The file was read as a safe image, and not written since. -/
def Audited (allow : Int → Prop) (path : String) (h : Past) : Prop :=
  ∃ data, ReadAs path data h ∧ Safe allow data

/-- Whatever was programmed was audited before. -/
def Guarding (allow : Past → Int → Prop) (h : Past) : Prop :=
  ∀ image, Guarded (fun op => op.programsImage image) (fun before =>
    Audited (allow before) image before) h

/-- The images of the manifest may be programmed there. -/
def ManifestAllows (manifest : Value) (a : Int) : Prop :=
  ∃ items item allowlist, imageItems manifest = .ok items ∧ item ∈ items ∧
    itemAllowlist item = .ok allowlist ∧ Allowed allowlist a

/-- A manifest of the run allows it. -/
def RunAllows (h : Past) (a : Int) : Prop :=
  ∃ path, ∃ manifest : Value, (⟨.loadManifest path, .ok manifest⟩ : Event Op Op.Ans Raised) ∈ h ∧
    ManifestAllows manifest a

/-- The settings region allows it. -/
def SettingsAllow (a : Int) : Prop := Allowed [spanEntry m6SettingsRange] a

section
variable {op : Op} {outcome : Except Raised op.Ans} {h : Past} {path : String} {data : List UInt8}
    {allow allow' : Int → Prop}

theorem readAs_concat (hop : ¬ op.writesFile path) (hold : ReadAs path data h) :
    ReadAs path data (h ++ [⟨op, outcome⟩]) :=
  since_concat.mpr (Or.inr ⟨hold, hop⟩)

theorem audited_concat (hop : ¬ op.writesFile path) (hold : Audited allow path h) :
    Audited allow path (h ++ [⟨op, outcome⟩]) := by
  obtain ⟨data, hread, hsafe⟩ := hold
  exact ⟨data, readAs_concat hop hread, hsafe⟩

theorem Audited.mono (hallow : ∀ a, allow a → allow' a)
    (hold : Audited allow path h) : Audited allow' path h := by
  obtain ⟨data, hread, hsafe⟩ := hold
  exact ⟨data, hread, fun a ha => ⟨hallow a (hsafe a ha).1, (hsafe a ha).2⟩⟩

theorem guarding_nil (allow : Past → Int → Prop) : Guarding allow [] := fun _ => guarded_nil

theorem guarding_concat {allow : Past → Int → Prop} : Guarding allow (h ++ [⟨op, outcome⟩]) ↔
    Guarding allow h ∧ ∀ image, op.programsImage image → Audited (allow h) image h := by
  simp only [Guarding, guarded_concat, forall_and]

/-- What is not a programming command keeps the guard. -/
theorem guarding_other {allow : Past → Int → Prop} (hop : ∀ image, ¬ op.programsImage image)
    (hold : Guarding allow h) :
    Guarding allow (h ++ [⟨op, outcome⟩]) :=
  guarding_concat.mpr ⟨hold, fun image himage => absurd himage (hop image)⟩

end

/-! ## Names -/

/-- The name of an image. -/
def HexFile (path : String) : Prop := path.toList.getLast? = some 'x'

instance (path : String) : Decidable (HexFile path) :=
  inferInstanceAs (Decidable (path.toList.getLast? = some 'x'))

/-- The last letter tells. -/
theorem hexFile_append {back : String} (hback : back.toList.getLast?.isSome) (front : String) :
    HexFile (front ++ back) ↔ HexFile back := by
  obtain ⟨c, hc⟩ := Option.isSome_iff_exists.mp hback
  simp only [HexFile, String.toList_append, List.getLast?_append, hc, Option.some_or]

theorem not_hexFile_log (front : String) : ¬ HexFile (front ++ ".log") := by
  rw [hexFile_append (by decide)]
  decide

/-- An operation that neither programs nor writes an image. -/
structure Op.Aside (op : Op) : Prop where
  programs : ∀ image, ¬ op.programsImage image
  writes : ∀ path, HexFile path → ¬ op.writesFile path

theorem not_programsImage {op : Op} (hop : op.plain = true)
    (image : String) : ¬ op.programsImage image := by
  rintro ⟨serial, family, core, log, rfl⟩
  cases hop

theorem aside_nothing {op : Op} (hop : op.plain = true)
    (hwrites : ∀ path, ¬ op.writesFile path) : op.Aside :=
  ⟨not_programsImage hop, fun path _ => hwrites path⟩

theorem aside_json (report : Report) : (Op.atomicJson report).Aside where
  programs _ := by rintro ⟨_, _, _, _, heq⟩; cases heq
  writes path hpath := by
    rintro rfl
    exact absurd hpath (by decide)

/-! ## Steps of the two commands -/

section
variable {env : Env Op Op.Ans Raised} {P I : Run → Prop} {allow : Past → Int → Prop}

/-- An expression that does not raise has its value. -/
theorem triple_lift {α : Type} {Q : α → Run → Prop} {E : Raised → Run → Prop} {m : Except Raised α}
    (hraised : ∀ e w, P w → E e w)
    (h : ∀ a w, m = .ok a → P w → Q a w) : Triple env P (lift m) Q E := by
  cases m with
  | ok a => exact triple_pure fun w hw => h a w rfl hw
  | error e => exact triple_raise fun w hw => hraised e w hw

/-- The guard holds of the run. -/
def GuardedRun (allow : Past → Int → Prop) (w : Run) : Prop := Guarding allow w.history

theorem guardedRun_plain : Stable (GuardedRun allow) :=
  fun _ _ _ hop h => guarding_other (not_programsImage hop) h

theorem guardedRun_json {w : Run} {report : Report} (outcome : Except Raised Unit)
    (h : GuardedRun allow w) :
    GuardedRun allow { w with history := w.history ++ [⟨.atomicJson report, outcome⟩] } :=
  guarding_other (aside_json report).programs h

theorem guardedRun_stage (name : String) : Keeps env (GuardedRun allow) (stage name) :=
  keeps_stage name (fun _ h => h) fun _ outcome h => guardedRun_json outcome h

theorem guardedRun_save : Keeps env (GuardedRun allow) saveReport :=
  keeps_bind (keeps_locals _) fun _ => keeps_perform fun _ outcome h => guardedRun_json outcome h

/-- What is read is what the file was read as. -/
theorem readData_readAs {path : String}
    (hI : ∀ w outcome, I w → I { w with history := w.history ++ [⟨.readFile path, outcome⟩] }) :
    Triple env I (readData path) (fun file w => I w ∧ ∀ data, file = .ok data →
      ReadAs path data w.history) (fun _ => I) := by
  apply triple_except fun _ => I
  · refine triple_bind (fun data w => I w ∧ ReadAs path data w.history) ?_ fun data => ?_
    · apply triple_perform
      · exact fun w data h => ⟨hI w (.ok data) h, since_concat.mpr (Or.inl rfl)⟩
      · exact fun w e h => hI w (.error e) h
    · apply triple_pure
      intro w h
      refine ⟨h.1, fun found heq => ?_⟩
      cases heq
      exact h.2
  · intro e
    apply triple_ite
    · exact fun _ => triple_pure fun w h => ⟨h, nofun⟩
    · exact fun _ => triple_raise fun w h => h

/-- Where a programming command may be issued. -/
theorem programImage_does {image serial log : String} {manifest : Value} (hraised : ∀ w, P w → I w)
    (hprogram : ∀ w family core outcome, P w →
      I { w with history := w.history ++
        [⟨.runLogged (.program image serial family core) log, outcome⟩] }) :
    Triple env P (programImage image serial manifest log) (fun _ => I) (fun _ => I) := by
  refine keeps_then (keeps_lift _) (fun _ w h => hraised w h) fun target => ?_
  refine triple_bind (fun _ => I) ?_ fun result => triple_pure fun _ h => h
  exact triple_perform (fun w out h => hprogram w target.1 target.2 (.ok out) h)
    fun w e h => hprogram w target.1 target.2 (.error e) h

end

/-! ## Flash -/

/-- The manifest is loaded, nothing was programmed unaudited, and the snapshots are audited. -/
structure Flashing (manifest : Value) (snapshots : List String) (w : Run) : Prop where
  loaded : ∃ path, (⟨.loadManifest path, .ok manifest⟩ : Event Op Op.Ans Raised) ∈ w.history
  guarding : GuardedRun RunAllows w
  audited : ∀ snapshot ∈ snapshots, HexFile snapshot ∧
    Audited (ManifestAllows manifest) snapshot w.history

section
variable {env : Env Op Op.Ans Raised} {manifest : Value} {snapshots : List String} {w : Run}

theorem Flashing.concat {op : Op} {outcome : Except Raised op.Ans}
    (h : Flashing manifest snapshots w)
    (hguarding : GuardedRun RunAllows { w with history := w.history ++ [⟨op, outcome⟩] })
    (hop : ∀ snapshot ∈ snapshots, ¬ op.writesFile snapshot) :
    Flashing manifest snapshots { w with history := w.history ++ [⟨op, outcome⟩] } where
  loaded := h.loaded.imp fun _ hmem => List.mem_append_left _ hmem
  guarding := hguarding
  audited snapshot hmem :=
    ⟨(h.audited snapshot hmem).1, audited_concat (hop snapshot hmem) (h.audited snapshot hmem).2⟩

theorem Flashing.aside {op : Op} {outcome : Except Raised op.Ans}
    (h : Flashing manifest snapshots w) (hop : op.Aside) :
    Flashing manifest snapshots { w with history := w.history ++ [⟨op, outcome⟩] } :=
  h.concat (guarding_other hop.programs h.guarding) fun snapshot hmem =>
    hop.writes snapshot (h.audited snapshot hmem).1

theorem Flashing.subset {others : List String} (h : Flashing manifest snapshots w)
    (hsub : ∀ s ∈ others, s ∈ snapshots) :
    Flashing manifest others w := { h with audited := fun s hs => h.audited s (hsub s hs) }

/-- A snapshot that was audited may be programmed. -/
theorem Flashing.allowed (h : Flashing manifest snapshots w) {snapshot : String}
    (hmem : snapshot ∈ snapshots) :
    Audited (RunAllows w.history) snapshot w.history := by
  obtain ⟨path, hloaded⟩ := h.loaded
  exact (h.audited snapshot hmem).2.mono fun a ha => ⟨path, manifest, hloaded, ha⟩

theorem flashing_plain : Stable (Flashing manifest []) := fun w op outcome hop h =>
  h.concat (guardedRun_plain w op outcome hop h.guarding) nofun

theorem keeps_aside {op : Op} (hop : op.Aside) : Keeps env (Flashing manifest snapshots) (ask op) :=
  keeps_perform fun _ _ h => h.aside hop

theorem flashing_stage (name : String) : Keeps env (Flashing manifest snapshots) (stage name) :=
  keeps_stage name (fun _ h => { h with }) fun _ _ h => h.aside (aside_json _)

theorem flashing_hashAll (paths : List String) :
    Keeps env (Flashing manifest snapshots) (hashAll paths) := by
  induction paths with
  | nil => exact keeps_pure _
  | cons path rest ih => exact keeps_bind (keeps_aside (aside_nothing rfl fun _ => id)) fun _ => ih

/-- The guard of a snapshot leaves it audited. -/
theorem requireSnapshot_audited {snapshot : String} {items : List Value} {item : Value}
    (hitems : imageItems manifest = .ok items) (hitem : item ∈ items) (hname : HexFile snapshot) :
    Triple env (Flashing manifest snapshots) (requireSnapshot snapshot item)
      (fun _ => Flashing manifest (snapshot :: snapshots)) (fun _ =>
        Flashing manifest snapshots) := by
  refine triple_bind _ (readData_readAs fun w outcome h => h.aside (aside_nothing rfl fun _ => id))
    fun file => ?_
  refine triple_bind (fun parsed w =>
    (Flashing manifest snapshots w ∧ ∀ data, file = .ok data → ReadAs snapshot data w.history) ∧
    parseIhex snapshot file = .ok parsed) ?_ fun parsed => ?_
  · exact triple_lift (fun _ _ h => h.1) fun _ _ hparsed h => ⟨h, hparsed⟩
  refine triple_fact fun hparsed => ?_
  refine triple_bind (fun allowlist w =>
    (Flashing manifest snapshots w ∧ ∀ data, file = .ok data → ReadAs snapshot data w.history) ∧
    itemAllowlist item = .ok allowlist) ?_ fun allowlist => ?_
  · exact triple_lift (fun _ _ h => h.1) fun _ _ hallowlist h => ⟨h, hallowlist⟩
  refine triple_fact fun hallowlist => ?_
  refine triple_lift (fun _ _ h => h.1) fun _ w hguard h => ?_
  obtain ⟨data, hdata, _, _, hwritten⟩ := parseIhex_ok hparsed
  refine { h.1 with audited :=
    List.forall_mem_cons.mpr ⟨⟨hname, data, h.2 data hdata, fun a ha => ?_⟩, h.1.audited⟩ }
  obtain ⟨hin, hfree⟩ := requireAllowed_ok hguard ((hwritten a).mpr ha)
  exact ⟨⟨items, item, allowlist, hitems, hitem, hallowlist, hin⟩, hfree⟩

variable (text : Value → String)

theorem snapshotName_hexFile {item : Value} {snapshot : String}
    (h : snapshotName text item = .ok snapshot) : HexFile snapshot := by
  unfold snapshotName at h
  split at h
  · cases h
  split at h
  · cases h
  · cases h
  · cases h
    exact (hexFile_append (by decide) _).mpr (by decide)

/-- A snapshot takes the place of an older one of its name. -/
theorem snapshotHex_audited {items : List Value} {item : Value}
    (hitems : imageItems manifest = .ok items) (hitem : item ∈ items) :
    Triple env (Flashing manifest snapshots) (snapshotHex text item) (fun snapshot =>
      Flashing manifest (snapshot :: snapshots))
      (fun _ => GuardedRun RunAllows) := by
  have hraised : ∀ {others : List String} (e : Raised) (w : Run), Flashing manifest others w →
      GuardedRun RunAllows w :=
    fun _ _ h => h.guarding
  refine keeps_then (keeps_lift _) hraised fun source => ?_
  refine triple_bind (fun snapshot w => Flashing manifest snapshots w ∧ HexFile snapshot) ?_
    fun snapshot => ?_
  · exact triple_lift hraised fun _ _ hname h => ⟨h, snapshotName_hexFile text hname⟩
  refine triple_fact fun hname => ?_
  -- the copy writes only the snapshot, so the others are still audited
  refine triple_bind (fun _ => Flashing manifest (snapshots.filter (· ≠ snapshot))) ?_ fun _ => ?_
  · refine triple_mono (@keeps_perform Op Op.Ans Raised Locals env
      (Flashing manifest (snapshots.filter (· ≠ snapshot)))
      (.copyFile source snapshot) fun w outcome h => ?_) (fun w h => h.subset fun s hs =>
        List.mem_of_mem_filter hs) (fun _ _ h => h) hraised
    refine h.concat (guardedRun_plain w _ outcome rfl h.guarding) fun s hs hwrites => ?_
    obtain rfl : s = snapshot := hwrites
    simp at hs
  refine keeps_then (keeps_aside (aside_nothing rfl fun _ => id)) hraised fun _ => ?_
  refine keeps_then (keeps_aside (aside_nothing rfl fun _ => id)) hraised fun digest => ?_
  refine keeps_then (keeps_lift _) hraised fun expected => ?_
  refine keeps_then (keeps_when (keeps_raise _)) hraised fun _ => ?_
  refine triple_bind _ (triple_mono (requireSnapshot_audited hitems hitem hname) (fun _ h => h)
    (fun _ _ h => h) hraised) fun _ => ?_
  refine triple_pure fun w h => h.subset fun s hs => ?_
  rcases List.mem_cons.mp hs with rfl | hs
  · exact List.mem_cons_self ..
  by_cases hsame : s = snapshot
  · rw [hsame]
    exact List.mem_cons_self ..
  · exact List.mem_cons_of_mem _ (List.mem_filter.mpr ⟨hs, by simpa using hsame⟩)

theorem snapshotItems_audited {items : List Value} (hitems : imageItems manifest = .ok items)
    {rest : List Value} (hrest : ∀ item ∈ rest, item ∈ items) :
    Triple env (Flashing manifest snapshots) (snapshotItems text rest) (fun others =>
      Flashing manifest (others ++ snapshots))
      (fun _ => GuardedRun RunAllows) := by
  induction rest generalizing snapshots with
  | nil => exact triple_pure fun _ h => h
  | cons item rest ih =>
    obtain ⟨hitem, hrest⟩ := List.forall_mem_cons.mp hrest
    refine triple_bind _ (snapshotHex_audited text hitems hitem) fun snapshot => ?_
    refine triple_bind _ (ih hrest) fun others => triple_pure fun w h => h.subset fun s hs => ?_
    simp only [List.cons_append, List.mem_cons, List.mem_append] at hs ⊢
    rcases hs with hs | hs | hs
    · exact Or.inr (Or.inl hs)
    · exact Or.inl hs
    · exact Or.inr (Or.inr hs)

/-- Audited snapshots are programmed. -/
theorem programAll_guarded {device : Value} {rest : List String}
    (hrest : ∀ s ∈ rest, s ∈ snapshots) :
    Keeps env (Flashing manifest snapshots) (programAll manifest device rest) := by
  induction rest with
  | nil => exact keeps_pure _
  | cons snapshot rest ih =>
    obtain ⟨hmem, hrest⟩ := List.forall_mem_cons.mp hrest
    refine keeps_bind ?_ fun _ => ?_
    · refine keeps_bind (keeps_lift _) fun serial => keeps_bind ?_ fun _ =>
        keeps_when (keeps_raise _)
      refine programImage_does (fun _ h => h) fun w family core outcome h => ?_
      refine h.concat (guarding_concat.mpr ⟨h.guarding, fun image himage => ?_⟩)
        fun s hs hwrites => ?_
      · obtain ⟨_, _, _, _, heq⟩ := himage
        cases heq
        exact h.allowed hmem
      · obtain rfl : s = _ := hwrites
        exact not_hexFile_log _ (h.audited _ hs).1
    · exact keeps_bind (keeps_aside (aside_nothing rfl fun _ => id)) fun _ =>
        keeps_bind (flashing_stage _) fun _ => ih hrest

theorem flashBody_guarded (args : Args) :
    Keeps env (GuardedRun RunAllows) (flashBody text args) := by
  have hraised : ∀ {others : List String} {manifest : Value} (e : Raised) (w : Run),
      Flashing manifest others w → GuardedRun RunAllows w := fun _ _ h => h.guarding
  refine triple_bind (fun manifest => Flashing manifest []) ?_ fun manifest => ?_
  · apply triple_perform
    · intro w manifest h
      refine ⟨⟨args.manifest, ?_⟩, guardedRun_plain w _ _ rfl h, nofun⟩
      exact List.mem_append_right _ (List.mem_singleton_self _)
    · exact fun w e h => guardedRun_plain w _ _ rfl h
  refine keeps_then (keeps_initializeDeviceReport flashing_plain (flashing_stage _) args manifest)
    hraised fun _ => ?_
  refine keeps_then (keeps_select flashing_plain manifest args) hraised fun device => ?_
  refine keeps_then (flashing_stage _) hraised fun _ => ?_
  refine keeps_then (keeps_lift _) hraised fun serial => ?_
  refine triple_bind (fun _ => GuardedRun RunAllows) ?_ fun snapshots => ?_
  · apply keeps_withLock flashing_plain (fun _ => guardedRun_plain) (fun _ =>
      guardedRun_plain) hraised (fun _ _ _ h => h)
      fun _ _ _ h => h
    refine keeps_then (flashing_stage _) hraised fun _ => ?_
    refine triple_bind (fun snapshots => Flashing manifest (snapshots ++ [])) ?_ fun snapshots => ?_
    · refine triple_bind (fun items w => Flashing manifest [] w ∧
        imageItems manifest = .ok items) ?_ fun items => ?_
      · exact triple_lift hraised fun _ _ hitems h => ⟨h, hitems⟩
      · exact triple_fact fun hitems => snapshotItems_audited text hitems fun _ hitem => hitem
    refine keeps_then (flashing_hashAll _) hraised fun _ => ?_
    refine keeps_then (flashing_stage _) hraised fun _ => ?_
    refine keeps_then (programAll_guarded fun s hs => List.mem_append_left _ hs) hraised fun _ => ?_
    exact triple_pure fun _ h => h.guarding
  · refine keeps_bind ?_ fun _ => keeps_assign fun _ h => h
    induction snapshots with
    | nil => exact keeps_pure _
    | cons path rest ih => exact keeps_bind (keeps_ask guardedRun_plain rfl) fun _ => ih

end

theorem guardedRun_newRun {env : Env Op Op.Ans Raised} {allow : Past → Int → Prop} :
    Keeps env (GuardedRun allow) (ask .newRun) :=
  keeps_perform fun _ _ h =>
    guarding_other (fun _ himage => by obtain ⟨_, _, _, _, heq⟩ := himage; cases heq) h

/-- Whatever flash programs was audited by the manifest it loaded. -/
theorem flash_guards (text : Value → String) (args : Args) (env : Env Op Op.Ans Raised) :
    Guarding RunAllows (commandFlash text args env ⟨{}, []⟩).2.history := by
  have hkeeps : Keeps env (GuardedRun RunAllows) (commandFlash text args) := by
    apply keeps_bind guardedRun_newRun
    intro _
    apply keeps_bind
    · apply keeps_except (flashBody_guarded text args)
      intro e
      apply keeps_bind (keeps_assign fun _ h => h)
      intro _
      exact keeps_bind guardedRun_save fun _ => keeps_raise e
    · intro _
      exact keeps_bind guardedRun_save fun _ => keeps_ask guardedRun_plain rfl
  exact hkeeps.world (guarding_nil _)

/-! ## Bond clear -/

/-- An image of exactly the settings is safe. -/
theorem requireExact_safe {path : String} {file : FileData}
    (h : requireExactM6SettingsImage path file = .ok ()) :
    ∃ data, file = .ok data ∧ Safe SettingsAllow data := by
  unfold requireExactM6SettingsImage at h
  split at h
  · cases h
  rename_i image hparsed
  split at h
  · cases h
  rename_i hguard
  obtain ⟨data, hdata, _, _, hwritten⟩ := parseIhex_ok hparsed
  exact ⟨data, hdata, fun a ha => requireAllowed_ok hguard ((hwritten a).mpr ha)⟩

section
variable {env : Env Op Op.Ans Raised}

/-- The guard of bond clear. -/
abbrev SettingsGuarded : Run → Prop := GuardedRun fun _ => SettingsAllow

/-- The image may be programmed. -/
def Ready (image : String) (w : Run) : Prop :=
  SettingsGuarded w ∧ Audited SettingsAllow image w.history

theorem requireExact_audited (path : String) :
    Triple env SettingsGuarded (requireExact path) (fun _ => Ready path)
      (fun _ => SettingsGuarded) := by
  refine triple_bind _ (readData_readAs fun w outcome h => guardedRun_plain w _ outcome rfl h)
    fun file => ?_
  refine triple_lift (fun _ _ h => h.1) fun _ w hexact h => ?_
  obtain ⟨data, hdata, hsafe⟩ := requireExact_safe hexact
  exact ⟨h.1, data, h.2 data hdata, hsafe⟩

theorem programImage_ready (image serial : String) (manifest : Value) (log : String) :
    Triple env (Ready image) (programImage image serial manifest log) (fun _ => SettingsGuarded)
      (fun _ => SettingsGuarded) := by
  apply programImage_does fun _ h => h.1
  intro w family core outcome h
  refine guarding_concat.mpr ⟨h.1, fun found hfound => ?_⟩
  obtain ⟨_, _, _, _, heq⟩ := hfound
  cases heq
  exact h.2

theorem readM6Settings_guarded (manifest device : Value) (output log : String) :
    Keeps env SettingsGuarded (readM6Settings manifest device output log) :=
  triple_mono (readM6Settings_readBack guardedRun_plain manifest device output log) (fun _ h => h)
    (fun _ _ h => h.1) fun _ _ h => h

theorem clearSettings_guarded (manifest device : Value) (args : Args) :
    Keeps env SettingsGuarded (clearSettings manifest device args) := by
  have hraised : ∀ (e : Raised) (w : Run), SettingsGuarded w → SettingsGuarded w := fun _ _ h => h
  refine keeps_bind (keeps_lift _) fun serial => ?_
  refine keeps_bind (guardedRun_stage _) fun _ => ?_
  refine keeps_bind (readM6Settings_guarded manifest device _ _) fun original => ?_
  refine keeps_bind (keeps_assign fun _ h => h) fun _ => ?_
  refine keeps_bind (keeps_ask guardedRun_plain rfl) fun _ => ?_
  refine keeps_bind (guardedRun_stage _) fun _ => ?_
  refine keeps_bind (keeps_bind (keeps_ask guardedRun_plain rfl) fun _ =>
    keeps_requireExact guardedRun_plain _) fun _ => ?_
  refine keeps_bind (keeps_ask guardedRun_plain rfl) fun _ => ?_
  -- the check right before the programming command is the one that counts
  refine triple_bind _ (requireExact_audited "settings-erased.hex") fun _ => ?_
  refine triple_bind _ (programImage_ready _ _ _ _) fun returncode => ?_
  refine keeps_bind (keeps_when (keeps_raise _)) fun _ => ?_
  refine keeps_bind (readM6Settings_guarded manifest device _ _) fun cleared => ?_
  refine keeps_bind (keeps_when (keeps_raise _)) fun _ => ?_
  refine keeps_bind (keeps_assign fun _ h => h) fun _ => ?_
  refine keeps_bind (guardedRun_stage _) fun _ => ?_
  refine keeps_bind (keeps_lift _) fun target => ?_
  refine keeps_bind (keeps_ask guardedRun_plain rfl) fun result => ?_
  exact keeps_bind (keeps_when (keeps_raise _)) fun _ => guardedRun_stage _

theorem keeps_withLock_same {α : Type} {I : Run → Prop} (hI : Stable I) {serial operation : String}
    {body : Session α} (hbody : Keeps env I body) : Keeps env I (withLock serial operation body) :=
  keeps_bind (keeps_ask hI rfl) fun _ => keeps_finally hbody (keeps_ask hI rfl)

theorem bondClearBody_guarded (args : Args) : Keeps env SettingsGuarded (bondClearBody args) := by
  refine keeps_bind (keeps_when (keeps_raise _)) fun _ => ?_
  refine keeps_bind (@keeps_ask env _ (.loadManifest args.manifest) guardedRun_plain rfl)
    fun manifest => ?_
  refine keeps_bind (keeps_assign fun _ h => h) fun _ => ?_
  refine keeps_bind (keeps_lift _) fun _ => ?_
  refine keeps_bind (keeps_lift _) fun _ => ?_
  refine keeps_bind
    (keeps_initializeDeviceReport guardedRun_plain (guardedRun_stage _) args manifest) fun _ => ?_
  refine keeps_bind (keeps_select guardedRun_plain manifest args) fun device => ?_
  refine keeps_bind (keeps_assign fun _ h => h) fun _ => ?_
  refine keeps_bind (guardedRun_stage _) fun _ => ?_
  refine keeps_bind (keeps_lift _) fun serial => ?_
  refine keeps_bind
    (keeps_withLock_same guardedRun_plain (clearSettings_guarded manifest device args)) fun _ => ?_
  exact keeps_assign fun _ h => h

theorem restoreSettings_guarded (manifest device : Value) (original : List UInt8) :
    Keeps env SettingsGuarded (restoreSettings manifest device original) := by
  refine keeps_bind (keeps_lift _) fun serial => keeps_withLock_same guardedRun_plain ?_
  refine triple_bind _ (requireExact_audited "settings-before.hex") fun _ => ?_
  refine triple_bind _ (programImage_ready _ _ _ _) fun returncode => ?_
  refine keeps_bind (keeps_when (keeps_raise _)) fun _ => ?_
  refine keeps_bind (readM6Settings_guarded manifest device _ _) fun restored => ?_
  exact keeps_bind (keeps_assign fun _ h => h) fun _ => keeps_when (keeps_raise _)

theorem restoreAfter_guarded (s : Locals) : Keeps env SettingsGuarded (restoreAfter s) := by
  unfold restoreAfter
  split
  · refine keeps_bind (keeps_assign fun _ h => h) fun _ => ?_
    exact keeps_except (restoreSettings_guarded _ _ _) fun _ => keeps_assign fun _ h => h
  · exact keeps_pure _

end

/-- Whatever bond clear programs, its recovery included, was audited as an image of the
settings. -/
theorem bondClear_guards (args : Args) (env : Env Op Op.Ans Raised) :
    Guarding (fun _ => SettingsAllow) (commandM6BondClear args env ⟨{}, []⟩).2.history := by
  have hkeeps : Keeps env SettingsGuarded (commandM6BondClear args) := by
    apply keeps_bind guardedRun_newRun
    intro _
    apply keeps_bind
    · apply keeps_finally
      · apply keeps_except (bondClearBody_guarded args)
        intro e
        apply keeps_bind (keeps_locals _)
        intro s
        apply keeps_bind (restoreAfter_guarded s)
        intro _
        exact keeps_bind (keeps_assign fun _ h => h) fun _ => keeps_raise e
      · exact keeps_bind (keeps_assign fun _ h => h) fun _ => guardedRun_save
    · intro _
      exact keeps_bind guardedRun_save fun _ => keeps_ask guardedRun_plain rfl
  exact hkeeps.world (guarding_nil _)

/-! ## What is in the files -/

/-- `contents` is what the files hold: it changes where an operation writes, and is what is
read. -/
structure Stored (contents : Past → String → List UInt8) (h : Past) : Prop where
  kept : Untouched Op.writesFile contents h
  read : ∀ before path after, ∀ data : List UInt8,
    h = before ++ ⟨.readFile path, .ok data⟩ :: after → contents before path = data

/-- An audited file holds a safe image. -/
theorem Stored.safe {contents : Past → String → List UInt8} {before after : Past}
    (h : Stored contents (before ++ after)) {allow : Int → Prop} {path : String}
    (haudited : Audited allow path before) : Safe allow (contents before path) := by
  obtain ⟨data, hread, hsafe⟩ := haudited
  have hkept : Untouched Op.writesFile contents before := untouched_front h.kept
  obtain ⟨first, e, rest, rfl, rfl, hsame⟩ := since_stored hkept hread
  have hdata : contents first path = data := h.read first path (rest ++ after) data (by simp)
  have hstill : contents (first ++ [⟨.readFile path, .ok data⟩]) path = contents first path :=
    hkept first _ rest path rfl id
  rw [hsame, hstill, hdata]
  exact hsafe

/-- Every image handed to the programmer writes only what is allowed there. -/
def ProgramsAllowed (allow : Past → Int → Prop) (contents : Past → String → List UInt8)
    (h : Past) : Prop :=
  ∀ before e after image, h = before ++ e :: after → e.op.programsImage image →
    Safe (allow before) (contents before image)

theorem Guarding.programsAllowed {allow : Past → Int → Prop} {contents : Past → String → List UInt8}
    {h : Past} (hguarding : Guarding allow h) (hstored : Stored contents h) :
    ProgramsAllowed allow contents h := by
  rintro before e after image rfl himage
  exact hstored.safe (hguarding image before e after rfl himage)

end NrfKit.Tools.Cli
