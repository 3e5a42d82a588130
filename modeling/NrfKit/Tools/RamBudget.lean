import NrfKit.Tools.Manifest

/- The RAM budget an HCI build records: `_elf_load_budget` and the manifest that keeps it.

   Each LOAD entry of RAM is checked against the end of the region, and the sizes of all of
   them are added up with the stack behind the last check. The budget balances, so its
   headroom is negative iff the entries and the stack together need more than the region has,
   which no check of the tool sees (`ram_budget`). -/
namespace NrfKit.Tools.Manifest
open Python Struct Bytes Spans Sdk

/-- A field of the budget a manifest records. -/
def recorded (manifest : Value) (key : String) : Except Raised Value := do
  let evidence ← manifest.item "build_evidence"
  let budget ← evidence.item "elf_budget"
  budget.item key

/-- The recorded parts make up the capacity, and none of it is overcommitted. -/
structure Committed (manifest : Value) (allocated stack headroom capacity : Int) : Prop where
  allocatedBytes : recorded manifest "ram_allocated_bytes" = .ok (.int allocated)
  stackBytes : recorded manifest "stack_reserved_bytes" = .ok (.int stack)
  headroomBytes : recorded manifest "ram_headroom_bytes" = .ok (.int headroom)
  capacityBytes : recorded manifest "ram_capacity_bytes" = .ok (.int capacity)
  sum : allocated + stack + headroom = capacity
  nonneg : 0 ≤ headroom

/-- The size in memory of an entry that is loaded into RAM from `start` to `stop`. -/
def ramSize (data : List UInt8) (start stop index : Nat) : Option Nat :=
  let entry := number data 28 4 + 32 * index
  let virtual := number data (entry + 8) 4
  if number data entry 4 = 1 ∧ start ≤ virtual ∧ virtual < stop then
    some (number data (entry + 20) 4) else none

/-- What the LOAD entries of RAM take, each counted in full. -/
def ramNeeded (data : List UInt8) (start stop : Nat) : Nat :=
  ((List.range (number data 44 2)).filterMap (ramSize data start stop)).sum

/-! ## The sum of the entries -/

theorem program_field (data : List UInt8) (entry : Nat) {k : Nat} (hk : k < 8) :
    field (unpack program32 (data.drop entry)) k = number data (entry + 4 * k) 4 := by
  have hwidth : ∀ k < 8, program32[k]? = some 4 := by decide
  have hplace : ∀ k < 8, (program32.take k).sum = 4 * k := by decide
  rw [unpack_field (hwidth k hk), hplace k hk]

section
variable {m : Memory} {b b' : Budget}

theorem budgetRam_ok {virtual fileSize memorySize : Nat}
    (h : budgetRam m virtual fileSize memorySize b = .ok b') :
    b'.ramAllocated = b.ramAllocated +
      if m.ramOrigin ≤ virtual ∧ virtual < m.ramOrigin + m.ramLength then memorySize else 0 := by
  unfold budgetRam at h
  split at h
  · rename_i hram
    split at h
    · cases h
    · obtain rfl := Except.ok.inj h
      rw [if_pos hram]
  · rename_i hram
    obtain rfl := Except.ok.inj h
    rw [if_neg hram, Nat.add_zero]

theorem budgetRram_ok {physical fileSize : Nat} (h : budgetRram m physical fileSize b = .ok b') :
    b'.ramAllocated = b.ramAllocated := by
  unfold budgetRram at h
  split at h
  · split at h
    · cases h
    · obtain rfl := Except.ok.inj h
      rfl
  · obtain rfl := Except.ok.inj h
    rfl

theorem budgetSegments_ok {data : List UInt8} {indices : List Nat}
    (h : budgetSegments m data (number data 28 4) program32.size b indices = .ok b') :
    b'.ramAllocated = b.ramAllocated +
      (indices.filterMap (ramSize data m.ramOrigin (m.ramOrigin + m.ramLength))).sum := by
  induction indices generalizing b with
  | nil =>
    obtain rfl := Except.ok.inj h
    simp
  | cons index rest ih =>
    rw [budgetSegments] at h
    obtain ⟨values, hvalues, h⟩ := bind_ok.mp h
    obtain ⟨_, rfl⟩ := unpackFrom_ok.mp hvalues
    have hentry : number data 28 4 + index * program32.size = number data 28 4 + 32 * index := by
      rw [Nat.mul_comm]
      rfl
    rw [hentry] at h
    simp only [program_field _ _ (show 0 < 8 by decide), program_field _ _ (show 2 < 8 by decide),
      program_field _ _ (show 3 < 8 by decide), program_field _ _ (show 4 < 8 by decide),
      program_field _ _ (show 5 < 8 by decide), Nat.mul_zero, Nat.add_zero] at h
    rw [List.filterMap_cons]
    by_cases hload : number data (number data 28 4 + 32 * index) 4 = 1
    · rw [if_neg (by simpa using hload)] at h
      obtain ⟨b₁, hram, h⟩ := bind_ok.mp h
      obtain ⟨b₂, hrram, h⟩ := bind_ok.mp h
      rw [ih h, budgetRram_ok hrram, budgetRam_ok hram]
      by_cases hvirtual : m.ramOrigin ≤ number data (number data 28 4 + 32 * index + 8) 4 ∧
          number data (number data 28 4 + 32 * index + 8) 4 < m.ramOrigin + m.ramLength
      · have hsize : ramSize data m.ramOrigin (m.ramOrigin + m.ramLength) index =
            some (number data (number data 28 4 + 32 * index + 20) 4) := if_pos ⟨hload, hvirtual⟩
        rw [hsize]
        rw [if_pos hvirtual, Nat.add_assoc]
        rfl
      · have hsize : ramSize data m.ramOrigin (m.ramOrigin + m.ramLength) index = none :=
          if_neg fun hboth => hvirtual hboth.2
        rw [hsize, if_neg hvirtual, Nat.add_zero]
    · have hsize : ramSize data m.ramOrigin (m.ramOrigin + m.ramLength) index = none :=
        if_neg fun hboth => hload hboth.1
      rw [if_pos (by simpa using hload)] at h
      rw [ih h, hsize]

theorem elfLoadBudget_ok {o : Outside} {elf : String} {budget : ElfBudget}
    (h : elfLoadBudget o elf m = .ok budget) :
    ∃ data, o.files elf = .ok data ∧
      budget.ramAllocatedBytes = ramNeeded data m.ramOrigin (m.ramOrigin + m.ramLength) ∧
      budget.stackReservedBytes = freestandingStackBytes ∧ budget.ramCapacityBytes = m.ramLength ∧
      budget.ramHeadroomBytes =
        (m.ramLength : Int) - (budget.ramAllocatedBytes + freestandingStackBytes : Nat) := by
  unfold elfLoadBudget at h
  split at h
  · cases h
  rename_i data hfile
  obtain ⟨_, _, h⟩ := bind_ok.mp h
  obtain ⟨fields, hfields, h⟩ := bind_ok.mp h
  obtain ⟨_, htable, h⟩ := bind_ok.mp h
  obtain ⟨b, hsegments, h⟩ := bind_ok.mp h
  obtain rfl := pure_ok.mp h
  obtain ⟨_, rfl⟩ := unpackFrom_ok.mp hfields
  have hsize := not_not.mp (not_or.mp (raiseIf_ok.mp htable)).1
  rw [hsize, unpack_field (k := 5) rfl, unpack_field (k := 10) rfl] at hsegments
  refine ⟨data, hfile, ?_, rfl, rfl, rfl⟩
  rw [budgetSegments_ok hsegments]
  exact Nat.zero_add _

end

/-! ## The recorded budget -/

/-- The RAM region of an accepted layout, in RAM 0. -/
theorem layoutFromSymbols_ram {symbols : Symbols} {layout : Layout}
    (h : layoutFromSymbols symbols = .ok layout) :
    ∃ start stop : Nat, symbols.lookup (startName "ram") = some start ∧
      symbols.lookup (endName "ram") = some stop ∧
      start < stop ∧ layoutItem layout "ram" = .ok ⟨start, stop - start⟩ := by
  obtain ⟨rram, hrram, h⟩ := bind_ok.mp h
  obtain ⟨ram, hram, h⟩ := bind_ok.mp h
  obtain ⟨settings, _, h⟩ := bind_ok.mp h
  obtain ⟨scratch, _, h⟩ := bind_ok.mp h
  obtain ⟨_, _, h⟩ := bind_ok.mp h
  obtain rfl := pure_ok.mp h
  rcases layoutRegion_ok hrram with ⟨_, _, hname, _⟩ | ⟨_, _, _, _, _, _, _, rfl⟩
  · simp at hname
  rcases layoutRegion_ok hram with ⟨_, _, hname, _⟩ | ⟨start, stop, hstart, hstop, _, hlt, _, rfl⟩
  · simp at hname
  exact ⟨start, stop, hstart, hstop, hlt, rfl⟩

/-- The evidence of a build ends with the budget of its ELF. -/
theorem buildEvidence_ok {o : Outside} {project buildDir target elf : String}
    {layout : Layout} {evidence : List (String × Value)}
    (h : buildEvidence o project buildDir target elf layout = .ok evidence) :
    ∃ (ram rram : Region) (budget : ElfBudget) (transport : Value) (fields : List (String × Value)),
      layoutItem layout "ram" = .ok ram ∧
      elfLoadBudget o elf ⟨ram.origin, ram.length, rram.origin, rram.length⟩ = .ok budget ∧
      evidence = [("hci_transport", transport), ("build_evidence", .dict fields)] ∧
      Value.lookup "elf_budget" fields = some budget.value := by
  obtain ⟨_, _, h⟩ := bind_ok.mp h
  obtain ⟨_, _, h⟩ := bind_ok.mp h
  obtain ⟨_, _, h⟩ := bind_ok.mp h
  obtain ⟨_, _, h⟩ := bind_ok.mp h
  obtain ⟨_, _, h⟩ := bind_ok.mp h
  obtain ⟨_, _, h⟩ := bind_ok.mp h
  obtain ⟨_, _, h⟩ := bind_ok.mp h
  obtain ⟨_, _, h⟩ := bind_ok.mp h
  obtain ⟨_, _, h⟩ := bind_ok.mp h
  obtain ⟨ram, hram, h⟩ := bind_ok.mp h
  obtain ⟨rram, _, h⟩ := bind_ok.mp h
  obtain ⟨budget, hbudget, h⟩ := bind_ok.mp h
  exact ⟨ram, rram, budget, _, _, hram, hbudget, (pure_ok.mp h).symm, rfl⟩

/-- What a manifest records of an ELF whose RAM is from `start` to `stop`. -/
structure Budgeted (manifest : Value) (data : List UInt8) (start stop : Nat) : Prop where
  bounded : start < stop
  allocated : recorded manifest "ram_allocated_bytes" = .ok (.int (ramNeeded data start stop))
  stack : recorded manifest "stack_reserved_bytes" = .ok (.int 0x4000)
  headroom : recorded manifest "ram_headroom_bytes" =
    .ok (.int (((stop - start : Nat) : Int) - (ramNeeded data start stop + 0x4000 : Nat)))
  capacity : recorded manifest "ram_capacity_bytes" = .ok (.int (stop - start : Nat))

theorem created_budgeted {o : Outside}
    {project buildDir target token output : String} {manifest : Value}
    (h : createDeviceManifest o project buildDir target token true = .ok (output, manifest)) :
    ∃ data start stop, o.files (o.resolve buildDir ++ "/" ++ target ++ ".elf") = .ok data ∧
      DeclaresOne data "__nrfkit_ram_start" start ∧ DeclaresOne data "__nrfkit_ram_end" stop ∧
      Budgeted manifest data start stop := by
  obtain ⟨elfImage, symbols, layout, rram, hexImage, hexDigest, lockDigest, elfDigest, evidence, _,
    hsymbols, hlayout, _, _, _, hevidence, rfl⟩ := createDeviceManifest_ok h
  rw [requested, if_pos rfl] at hevidence
  obtain ⟨ram, rram', budget, transport, fields, hram, hbudget, rfl, hfields⟩ :=
    buildEvidence_ok hevidence
  obtain ⟨start, stop, hstart, hstop, hlt, hregion⟩ := layoutFromSymbols_ram hlayout
  obtain rfl := Except.ok.inj (hram.symm.trans hregion)
  obtain ⟨data, hfile, hallocated, hstack, hcapacity, hheadroom⟩ := elfLoadBudget_ok hbudget
  obtain ⟨elf, hfile', hdeclares⟩ := elfLayoutSymbols_ok hsymbols
  obtain rfl := Except.ok.inj (hfile.symm.trans hfile')
  have hlimit : start + (stop - start) = stop := Nat.add_sub_of_le (Nat.le_of_lt hlt)
  dsimp only at hallocated hcapacity hheadroom
  rw [hlimit] at hallocated
  -- the fields of the budget are found under their keys
  have hrecorded : ∀ key,
      recorded (createdManifest target token (o.resolve buildDir ++ "/" ++ target ++ ".elf")
      (o.resolve buildDir ++ "/" ++ target ++ ".hex") hexDigest lockDigest elfDigest symbols rram
        elfImage hexImage
      [("hci_transport", transport), ("build_evidence", .dict fields)]) key =
        budget.value.item key := by
    intro key
    have hitem : (Value.dict fields).item "elf_budget" = .ok budget.value := by
      rw [Value.item, hfields]
    exact (congrArg (· >>= fun budget => budget.item key) hitem)
  refine ⟨data, start, stop, hfile, lookup_declaresOne hdeclares (by decide) hstart,
    lookup_declaresOne hdeclares (by decide) hstop, hlt, ?_, ?_, ?_, ?_⟩
  · rw [hrecorded, ← hallocated]
    rfl
  · rw [hrecorded]
    show Except.ok (Value.int budget.stackReservedBytes) = _
    rw [hstack]
    rfl
  · rw [hrecorded]
    show Except.ok (Value.int budget.ramHeadroomBytes) = _
    rw [hheadroom, hallocated]
    rfl
  · rw [hrecorded]
    show Except.ok (Value.int budget.ramCapacityBytes) = _
    rw [hcapacity]

theorem int_inj {x : Except Raised Value} {a b : Int} (ha : x = .ok (.int a))
    (hb : x = .ok (.int b)) : a = b :=
  Value.int.inj (Except.ok.inj (ha.symm.trans hb))

theorem Budgeted.committed_iff {manifest : Value} {data : List UInt8} {start stop : Nat}
    (h : Budgeted manifest data start stop) :
    (∃ allocated stack headroom capacity, Committed manifest allocated stack headroom capacity) ↔
      ramNeeded data start stop + 0x4000 ≤ stop - start := by
  constructor
  · rintro ⟨allocated, stack, headroom, capacity, hcommitted⟩
    have hheadroom := int_inj h.headroom hcommitted.headroomBytes
    have hnonneg := hcommitted.nonneg
    omega
  · intro hfits
    refine ⟨_, _, _, _, h.allocated, h.stack, h.headroom, h.capacity, ?_, ?_⟩
    · omega
    · omega

/-- The budget recorded for an accepted HCI build commits no more than the RAM has iff the LOAD
entries of RAM and the stack together fit between the symbols that bound it. -/
theorem ram_budget {o : Outside} {project buildDir target token output : String} {manifest : Value}
    (h : createDeviceManifest o project buildDir target token true = .ok (output, manifest)) :
    ∃ data start stop, o.files (o.resolve buildDir ++ "/" ++ target ++ ".elf") = .ok data ∧
      DeclaresOne data "__nrfkit_ram_start" start ∧ DeclaresOne data "__nrfkit_ram_end" stop ∧
      ((∃ allocated stack headroom capacity, Committed manifest allocated stack headroom capacity) ↔
        ramNeeded data start stop + 0x4000 ≤ stop - start) := by
  obtain ⟨data, start, stop, hfile, hstart, hstop, hbudgeted⟩ := created_budgeted h
  exact ⟨data, start, stop, hfile, hstart, hstop, hbudgeted.committed_iff⟩

/-! ## Two builds -/

/-- The build of the bench with a second entry, which takes `size` bytes of RAM. -/
def sdcElf (size : Nat) : List UInt8 :=
  elfMagic ++ [1, 1, 1] ++ List.replicate 9 0 ++
  Struct.pack header32.tail [2, 40, 1, 1, 52, 116, 0, 52, 32, 2, 40, 3, 2] ++
  Struct.pack program32 [1, 391, 0, 0, 16, 16, 5, 4] ++
  Struct.pack program32 [1, 0, 0x20000000, 0x20000000, 0, size, 6, 4] ++
  Struct.pack sectionFormat [0, 0, 0, 0, 0, 0, 0, 0, 0, 0] ++
  Struct.pack sectionFormat [0, 2, 0, 0, 236, 80, 2, 1, 4, 16] ++
  Struct.pack sectionFormat [0, 3, 0, 0, 316, 75, 0, 0, 1, 0] ++
  Struct.pack symbolFormat [0, 0, 0, 0, 0, 0] ++
  Struct.pack symbolFormat [1, 0, 0, 0x10, 0, 0xFFF1] ++
  Struct.pack symbolFormat [21, 0x1FCF00, 0, 0x10, 0, 0xFFF1] ++
  Struct.pack symbolFormat [39, 0x20000000, 0, 0x10, 0, 0xFFF1] ++
  Struct.pack symbolFormat [58, 0x20040000, 0, 0x10, 0, 0xFFF1] ++
  benchNames.flatMap (fun name => nameBytes name ++ [0]) ++
  [0, 1, 2, 3, 4, 5, 6, 7, 8, 9, 10, 11, 12, 13, 14, 15]

def sdcMap : String :=
  "libmpsl.a(mpsl.o)\nlibmpsl_fem_common.a(fem.o)\nlibsoftdevice_controller_multirole.a(sdc.o)\n"

def sdcContract : Value :=
  .dict [("schema", .str "nrfkit-m6-sdc-mpsl-contract/v1"),
    ("source", .dict [("security_domain", .str "secure"), ("float_abi", .str "hard-float")]),
    ("lm20_resources", .dict [("mpsl_interrupt_peripherals", .list [.str "RADIO"]),
      ("mpsl_non_interrupt_peripherals", .list [.str "PPIB11"]),
        ("sdc_owned_peripherals", .list [.str "AAR00"])])]

def sdcContractText : String :=
  "\x7b\"schema\":\"nrfkit-m6-sdc-mpsl-contract/v1\",\"source\":\x7b" ++
  "\"security_domain\":\"secure\",\"float_abi\":\"hard-float\"\x7d," ++
  "\"lm20_resources\":\x7b\"mpsl_interrupt_peripherals\":[\"RADIO\"]," ++
  "\"mpsl_non_interrupt_peripherals\":[\"PPIB11\"]," ++
  "\"sdc_owned_peripherals\":[\"AAR00\"]\x7d\x7d\n"

/-- The files of a build whose second entry takes `size` bytes of RAM. -/
def sdcBench (size : Nat) (elfDigest : String) : Outside where
  files
    | "/build/sdc.elf" => .ok (sdcElf size)
    | "/build/sdc.hex" => .ok benchHex
    | "/build/sdc.map" => .ok (nameBytes sdcMap)
    | "/nrfkit/docs/provenance/m6-sdc-mpsl-contract.json" => .ok (nameBytes sdcContractText)
    | "/nrfkit/docs/provenance/sources.lock" => .ok (nameBytes "\x7b\x7d\n")
    | _ => .error "No such file or directory"
  isFile path := path ∈ ["/build/sdc.elf", "/build/sdc.hex", "/build/sdc.map"]
  resolve path := path
  digest data :=
    if data = sdcElf size then elfDigest else if data = benchHex then benchHexDigest
    else if data = nameBytes sdcMap then
      "f433d7214c3ca5db120ed93d2dd2e977a2c8d3153eb514fb89ee3540a982005b"
    else if data = nameBytes sdcContractText then
      "53e2a1a2f0cf0ab33dd7c158631c8e6efd846f8d83cadb5ea3e901abcc012853"
    else benchLockDigest
  loads text := if text = sdcContractText then .ok sdcContract
    else .error ⟨"JSONDecodeError", "Expecting value"⟩
  undecodable _ := "invalid start byte"
  write _ _ := .ok ()
  alnum c := c.isAlphanum
  text _ := "sdc"

/-- 4 KiB of RAM and the stack. -/
def fittingBench : Outside :=
  sdcBench 0x1000 "22c0591eee4faccae3af6b6f9010541c89ceb9247ec3932da85e14a083952096"

/-- 244 KiB of the 256 KiB, which leave no room for the stack. -/
def crowdedBench : Outside :=
  sdcBench 0x3D000 "d470dd0df68f6977204681ad9b09204c6d5370688b67e466fd15754c94358ae6"

/-- The 4 KiB and the stack fit, and the budget recorded commits no more than there is. -/
theorem ram_budget_fitting :
    ∃ output manifest, createDeviceManifest fittingBench "/nrfkit" "/build" "sdc" "READY" true =
      .ok (output, manifest) ∧
      ∃ allocated stack headroom capacity,
        Committed manifest allocated stack headroom capacity := by
  have hcreated : (createDeviceManifest fittingBench "/nrfkit" "/build" "sdc" "READY" true).isOk =
      true := by decide +kernel
  obtain ⟨⟨output, manifest⟩, hmanifest⟩ := isOk_ok hcreated
  obtain ⟨data, start, stop, hfile, hstart, hstop, hcommitted⟩ := ram_budget hmanifest
  obtain rfl : sdcElf 0x1000 = data := Except.ok.inj hfile
  -- RAM is the 256 KiB of the two symbols
  have hsymbols : (elfLayoutSymbols fittingBench "/build/sdc.elf").toOption.map
      (fun symbols => (symbols.lookup "__nrfkit_ram_start", symbols.lookup "__nrfkit_ram_end")) =
        some (some 0x20000000, some 0x20040000) := by decide +kernel
  obtain ⟨symbols, hread, hvalues⟩ := Option.map_eq_some_iff.mp hsymbols
  obtain ⟨hfirst, hlast⟩ := Prod.mk.inj hvalues
  cases hlayout : elfLayoutSymbols fittingBench "/build/sdc.elf" with
  | error e =>
    rw [hlayout] at hread
    cases hread
  | ok symbols' =>
    rw [hlayout] at hread
    obtain rfl := Option.some.inj hread
    obtain ⟨elf, helf, hdeclares⟩ := elfLayoutSymbols_ok hlayout
    obtain rfl : sdcElf 0x1000 = elf := Except.ok.inj helf
    have hdeclared := hdeclares "__nrfkit_ram_start" (by decide) 0x20000000
    obtain rfl := (hstart _).mp (hdeclared.mp hfirst)
    have hdeclared := hdeclares "__nrfkit_ram_end" (by decide) 0x20040000
    obtain rfl := (hstop _).mp (hdeclared.mp hlast)
    have hneeded : ramNeeded (sdcElf 0x1000) 0x20000000 0x20040000 = 0x1000 := by decide +kernel
    exact ⟨output, manifest, hmanifest, hcommitted.mpr (by rw [hneeded]; decide)⟩

def recordedHeadroom : Except Raised (String × Value) → Option Int
  | .ok (_, manifest) =>
    match recorded manifest "ram_headroom_bytes" with
    | .ok (.int headroom) => some headroom
    | _ => none
  | .error _ => none

theorem recordedHeadroom_some {created : Except Raised (String × Value)} {headroom : Int}
    (h : recordedHeadroom created = some headroom) :
    ∃ output manifest, created = .ok (output, manifest) ∧
      recorded manifest "ram_headroom_bytes" = .ok (.int headroom) := by
  unfold recordedHeadroom at h
  split at h
  · rename_i output manifest
    split at h
    · rename_i hrecorded
      obtain rfl := Option.some.inj h
      exact ⟨output, manifest, rfl, hrecorded⟩
    · cases h
  · cases h

/-- Every entry passes its check, and 4 KiB more are committed than there are. -/
theorem ram_budget_crowded :
    ∃ output manifest, createDeviceManifest crowdedBench "/nrfkit" "/build" "sdc" "READY" true =
      .ok (output, manifest) ∧
      recorded manifest "ram_headroom_bytes" = .ok (.int (-4096)) ∧
      ¬ ∃ allocated stack headroom capacity,
        Committed manifest allocated stack headroom capacity := by
  have hheadroom : recordedHeadroom
      (createDeviceManifest crowdedBench "/nrfkit" "/build" "sdc" "READY" true) = some (-4096) := by
    decide +kernel
  obtain ⟨output, manifest, hcreated, hrecorded⟩ := recordedHeadroom_some hheadroom
  refine ⟨output, manifest, hcreated, hrecorded, ?_⟩
  rintro ⟨allocated, stack, headroom, capacity, hcommitted⟩
  have hnegative := int_inj hrecorded hcommitted.headroomBytes
  have hnonneg := hcommitted.nonneg
  omega

end NrfKit.Tools.Manifest
