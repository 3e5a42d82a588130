import NrfKit.Tools.Elf

/- The ELF readers on files nobody has checked.

   Every read lies behind a check of its own, so the symbol reader raises nothing but its own
   error, whatever the tables say (`parseElfAbsoluteSymbols_total`). The load reader checks
   the shorter of its two headers only: an ELF64 file cut off between the two lengths passes
   the check, and unpacking its header fails. Every other file is read as the format has it
   (`parseElf_total`). -/
namespace NrfKit.Tools
open Python Struct Bytes Spans

/-- The error the readers announce. -/
def Contract (e : Raised) : Prop := e.name = "ImageContractError"

@[simp] theorem contract_imageError (text : String) : Contract (imageError text) := rfl

theorem raises_unpackFrom {kind : Raised → Prop} {format : Format}
    {data : List UInt8} {offset : Nat} (h : offset + format.size ≤ data.length) :
    Raises kind (unpackFrom format data offset) := by
  rw [unpackFrom, if_neg (Nat.not_lt.mpr h)]
  exact raises_ok _

/-! ## Symbols -/

section
variable {wanted : List String} {data strings : List UInt8} {sections : List (List Nat)}

theorem addSymbol_raises (found : Symbols) (fields : List Nat) (name : String) :
    Raises Contract (addSymbol wanted found fields name) := by
  unfold addSymbol
  split
  · exact raises_ok _
  · refine (raises_raiseIf (contract_imageError _)).bind fun _ _ => ?_
    exact (raises_raiseIf (contract_imageError _)).bind fun _ _ => raises_pure _

theorem symbolEntry_raises (found : Symbols) (fields : List Nat) :
    Raises Contract (symbolEntry wanted strings found fields) := by
  refine (raises_raiseIf (contract_imageError _)).bind fun _ _ => ?_
  refine (raises_raiseIf (contract_imageError _)).bind fun _ _ => ?_
  split
  · exact raises_error.mpr (contract_imageError _)
  · exact addSymbol_raises _ _ _

/-- Entries that lie in the file are unpacked. -/
theorem symbolEntries_raises {symbolOffset : Nat} {indices : List Nat} (found : Symbols)
    (h : ∀ index ∈ indices,
      symbolOffset + index * symbolFormat.size + symbolFormat.size ≤ data.length) :
    Raises Contract (symbolEntries wanted data strings symbolOffset found indices) := by
  induction indices generalizing found with
  | nil => exact raises_ok _
  | cons index rest ih =>
    refine (raises_unpackFrom (h index (List.mem_cons_self ..))).bind fun fields _ => ?_
    refine (symbolEntry_raises found fields).bind fun found' _ => ?_
    exact ih found' fun later hlater => h later (List.mem_cons_of_mem _ hlater)

theorem symbolTable_raises (found : Symbols) (sectionHeader : List Nat) :
    Raises Contract (symbolTable wanted data sections found sectionHeader) := by
  unfold symbolTable
  split
  · exact raises_ok _
  refine (raises_raiseIf (contract_imageError _)).bind fun _ hvalid => ?_
  have htable := raiseIf_ok.mp hvalid
  simp only [not_or, not_le, ge_iff_le, not_not] at htable
  obtain ⟨hstrings, _, hwhole, _, hend⟩ := htable
  refine (raises_nth hstrings).bind fun stringHeader _ => ?_
  refine (raises_raiseIf (contract_imageError _)).bind fun _ _ => ?_
  apply symbolEntries_raises
  intro index hindex
  have hlast := List.mem_range.mp hindex
  simp only [show symbolFormat.size = 16 from rfl] at hwhole hlast ⊢
  omega

theorem symbolTables_raises (found : Symbols) (headers : List (List Nat)) :
    Raises Contract (symbolTables wanted data sections found headers) := by
  induction headers generalizing found with
  | nil => exact raises_ok _
  | cons sectionHeader rest ih =>
    exact (symbolTable_raises found sectionHeader).bind fun found' _ => ih found'

theorem sectionHeaders_raises {offset entrySize : Nat} {indices : List Nat}
    (h : ∀ index ∈ indices, offset + index * entrySize + sectionFormat.size ≤ data.length) :
    Raises Contract (sectionHeaders data offset entrySize indices) := by
  induction indices with
  | nil => exact raises_ok _
  | cons index rest ih =>
    refine (raises_unpackFrom (h index (List.mem_cons_self ..))).bind fun _ _ => ?_
    refine (ih fun later hlater => h later (List.mem_cons_of_mem _ hlater)).bind fun _ _ => ?_
    exact raises_pure _

end

/-- An entry of a table that ends in the file ends there. -/
theorem entry_inside {offset entrySize count length index : Nat}
    (h : offset + count * entrySize ≤ length) (hindex : index < count) :
    offset + index * entrySize + entrySize ≤ length := by
  have hnext : (index + 1) * entrySize ≤ count * entrySize := Nat.mul_le_mul_right _ hindex
  rw [Nat.add_mul, Nat.one_mul] at hnext
  omega

theorem parseElfAbsoluteSymbols_raises (path : String) (file : FileData)
    (required optional : List String) :
    Raises Contract (parseElfAbsoluteSymbols path file required optional) := by
  cases file with
  | error text => exact raises_error.mpr (contract_imageError _)
  | ok data =>
    refine (raises_raiseIf (contract_imageError _)).bind fun _ hheader => ?_
    have hlength := Nat.not_lt.mp (not_or.mp (raiseIf_ok.mp hheader)).1
    refine (raises_unpackFrom (by rwa [Nat.zero_add])).bind fun fields _ => ?_
    refine (raises_raiseIf (contract_imageError _)).bind fun _ _ => ?_
    refine (raises_raiseIf (contract_imageError _)).bind fun _ htable => ?_
    have hchecked := raiseIf_ok.mp htable
    simp only [not_or, not_not, Nat.not_lt] at hchecked
    obtain ⟨_, hsize, _, _, hend⟩ := hchecked
    refine (sectionHeaders_raises fun index hindex => ?_).bind fun sections _ => ?_
    · rw [← hsize]
      exact entry_inside hend (List.mem_range.mp hindex)
    · refine (symbolTables_raises [] sections).bind fun found _ => ?_
      exact (raises_raiseIf (contract_imageError _)).bind fun _ _ => raises_pure _

section
variable {data : List UInt8} {wanted : List String} {found found' : Symbols}

/-- Where a symbol table of the file and its strings lie. -/
structure TableInside (data : List UInt8) (table : Nat) : Prop where
  entries : sectionAt data table 4 + sectionAt data table 5 ≤ data.length
  linked : sectionAt data table 6 < number data 48 2
  strings : sectionAt data (sectionAt data table 6) 4 + sectionAt data
    (sectionAt data table 6) 5 ≤ data.length

theorem symbolTable_inside {table : Nat} (hkind : sectionAt data table 1 = 2)
    (h : symbolTable wanted data ((List.range (number data 48 2)).map (sectionFields data)) found
      (sectionFields data table) = .ok found') : TableInside data table := by
  unfold symbolTable at h
  rw [section_field data table (by decide), if_neg (not_not.mpr hkind)] at h
  obtain ⟨_, hvalid, h⟩ := bind_ok.mp h
  obtain ⟨stringHeader, hheader, h⟩ := bind_ok.mp h
  obtain ⟨_, hstrings, _⟩ := bind_ok.mp h
  simp only [section_field data table (show 4 < 10 by decide), section_field data table
    (show 5 < 10 by decide), section_field data table (show 6 < 10 by decide)] at hvalid hheader
  have hentries := raiseIf_ok.mp hvalid
  simp only [List.length_map, List.length_range, not_or, not_le, ge_iff_le, not_lt] at hentries
  have hlinked : stringHeader = sectionFields data (sectionAt data table 6) := by
    have hfound := nth_ok.mp hheader
    rw [List.getElem?_map, List.getElem?_range hentries.1] at hfound
    exact (Option.some.inj hfound).symm
  rw [hlinked, section_field _ _ (by decide), section_field _ _ (by decide),
    section_field _ _ (by decide)] at hstrings
  have hinside := raiseIf_ok.mp hstrings
  simp only [not_or, not_lt] at hinside
  exact ⟨hentries.2.2.2.2, hentries.1, hinside.2.2.2⟩

theorem symbolTables_inside {tables : List Nat}
    (h : symbolTables wanted data ((List.range (number data 48 2)).map (sectionFields data)) found
      (tables.map (sectionFields data)) = .ok found') :
    ∀ table ∈ tables, sectionAt data table 1 = 2 → TableInside data table := by
  induction tables generalizing found with
  | nil => nofun
  | cons first rest ih =>
    rw [List.map_cons, symbolTables] at h
    obtain ⟨next, hnext, h⟩ := bind_ok.mp h
    intro table htable hkind
    rcases List.mem_cons.mp htable with rfl | hlater
    · exact symbolTable_inside hkind hnext
    · exact ih h table hlater hkind

end

/-- What the symbol reader returns for a file: its tables lie in the file, each name returned
stands at one place, as a global absolute symbol of that value, and no required name and no
optional name that occurs is left out. -/
structure Extracted (data : List UInt8) (required optional : List String)
    (found : Symbols) : Prop where
  header : 52 ≤ data.length
  sections : number data 32 4 + 40 * number data 48 2 ≤ data.length
  tables : ∀ table < number data 48 2, sectionAt data table 1 = 2 → TableInside data table
  names : (found.map Prod.fst).Nodup
  occurs : ∀ name value, (name, value) ∈ found → name ∈ required ++ optional ∧
    ∃ table index, SymbolAt data table index name value ∧ AbsoluteAt data table index ∧
      ∀ table' index' value', SymbolAt data table' index' name value' →
        table' = table ∧ index' = index
  required : ∀ name ∈ required, ∃ value, (name, value) ∈ found
  optional : ∀ name ∈ optional, ∀ table index value, SymbolAt data table index name value →
    (name, value) ∈ found

theorem parseElfAbsoluteSymbols_extracted {path : String}
    {file : FileData} {required optional : List String} {found : Symbols}
    (h : parseElfAbsoluteSymbols path file required optional = .ok found) :
    ∃ data, file = .ok data ∧ Extracted data required optional found := by
  obtain ⟨data, rfl, hheader, hsections, hmissing, htables⟩ := parseElfAbsoluteSymbols_run h
  have hadds := symbolTables_adds htables
  have hinside : ∀ table < number data 48 2, sectionAt data table 1 = 2 → TableInside data table :=
    fun table htable => symbolTables_inside htables table (List.mem_range.mpr htable)
  refine ⟨data, rfl, hheader, hsections, hinside, hadds.once List.nodup_nil, ?_,
    missing_none hmissing, ?_⟩
  · intro name value hmem
    obtain ⟨hwanted, ⟨table, index⟩, hat⟩ :=
      ((hadds.symbols name value).mp hmem).resolve_left List.not_mem_nil
    refine ⟨hwanted, table, index, hat, hadds.absolute _ _ _ hwanted hat,
      fun table' index' value' hother => ?_⟩
    have hplace : (table', index') = (table, index) := hadds.place hwanted hother hat
    exact Prod.mk.inj hplace
  · intro name hname table index value hat
    exact (hadds.symbols name value).mpr
      (Or.inr ⟨List.mem_append_right _ hname, (table, index), hat⟩)

/-- Whatever the file, the symbol reader raises its own error or returns the symbols of the
tables; a read outside the file would raise another one. -/
theorem parseElfAbsoluteSymbols_total (path : String) (file : FileData)
    (required optional : List String) :
    match parseElfAbsoluteSymbols path file required optional with
    | .error e => e.name = "ImageContractError"
    | .ok found => ∃ data, file = .ok data ∧ Extracted data required optional found := by
  cases hread : parseElfAbsoluteSymbols path file required optional with
  | error e => exact parseElfAbsoluteSymbols_raises path file required optional e hread
  | ok found => exact parseElfAbsoluteSymbols_extracted hread

/-! ## Load ranges -/

/-- Where the bytes of a program header stand in the file. -/
def programOffset (data : List UInt8) (index : Nat) : Nat :=
  if data.getD 4 0 = 1 then number data (number data 28 4 + 32 * index + 4) 4
  else number data (number data 32 8 + 56 * index + 8) 8

/-- The physical range of a file-backed LOAD entry. -/
def Program.range (p : Program) : Option Span :=
  if p.kind = 1 ∧ p.fileSize ≠ 0 then
    some ((p.physical : Int), (p.physical : Int) + p.fileSize) else none

/-- The physical ranges of the file-backed LOAD entries, in the order of the table. -/
def loadSpans (data : List UInt8) : List Span :=
  (List.range (programCount data)).filterMap fun index => (programAt data index).range

/-- The ranges of an image are those of the file-backed LOAD entries: sorted, none of them
empty, in the 32-bit space and backed by bytes of the file. -/
structure Loads (data : List UInt8) (image : ParsedImage) : Prop where
  exact : image.ranges.Perm (loadSpans data)
  sorted : image.ranges.Pairwise Span.Le
  some : image.ranges ≠ []
  nonempty : ∀ range ∈ image.ranges, range.1 < range.2
  small : ∀ range ∈ image.ranges, 0 ≤ range.1 ∧ range.2 ≤ 0x100000000
  backed : ∀ index < programCount data, (programAt data index).range.isSome →
    programOffset data index + (programAt data index).fileSize ≤ data.length

/-- A little-endian ELF64 file that ends behind the length of the shorter header and within
its own. -/
structure HeaderCut (data : List UInt8) : Prop where
  magic : data.take 4 = elfMagic
  wide : data.getD 4 0 = 2
  little : data.getD 5 0 = 1
  longer : 52 ≤ data.length
  shorter : data.length < 64

theorem Program.range_some {p : Program} {range : Span} (h : p.range = some range) :
    p.fileSize ≠ 0 ∧ range = ((p.physical : Int), (p.physical : Int) + p.fileSize) := by
  unfold Program.range at h
  split at h
  · rename_i hboth
    exact ⟨hboth.2, (Option.some.inj h).symm⟩
  · cases h

section
variable {elfClass : UInt8} {data : List UInt8}

/-- The entry of a table as the format has it. -/
def fieldsProgram (elfClass : UInt8) (values : List Nat) : Program :=
  ⟨field values 0, (segment elfClass values).physical, (segment elfClass values).fileSize⟩

/-- What an entry adds, and the checks it passed. -/
theorem loadRange_exact {values : List Nat} {ranges : List Span}
    (h : loadRange elfClass data values = .ok ranges) :
    ranges = (fieldsProgram elfClass values).range.toList ∧
    ((fieldsProgram elfClass values).range.isSome →
      (segment elfClass values).fileOffset + (segment elfClass values).fileSize ≤ data.length ∧
        (segment elfClass values).physical + (segment elfClass values).fileSize ≤ 0x100000000) := by
  unfold loadRange at h
  dsimp only at h
  unfold Program.range fieldsProgram
  by_cases hkind : field values 0 ≠ 1
  · rw [if_pos hkind] at h
    rw [if_neg fun hboth => hkind hboth.1]
    exact ⟨(Except.ok.inj h).symm, nofun⟩
  rw [if_neg hkind] at h
  by_cases hempty : (segment elfClass values).fileSize = 0
  · rw [if_pos hempty] at h
    rw [if_neg fun hboth => hboth.2 hempty]
    exact ⟨(Except.ok.inj h).symm, nofun⟩
  rw [if_neg hempty] at h
  rw [if_pos ⟨not_not.mp hkind, hempty⟩]
  split at h
  · cases h
  · rename_i hinside
    exact ⟨(Except.ok.inj h).symm, fun _ => by omega⟩

theorem loadRanges_exact {offset entrySize : Nat} {indices : List Nat} {ranges : List Span}
    (h : loadRanges elfClass data offset entrySize indices = .ok ranges) :
    ranges = indices.filterMap (fun index =>
      (fieldsProgram elfClass
        (unpack (programFormat elfClass) (data.drop (offset + index * entrySize)))).range) ∧
    ∀ index ∈ indices, loadRange elfClass data
      (unpack (programFormat elfClass) (data.drop (offset + index * entrySize))) =
      .ok (fieldsProgram elfClass (unpack (programFormat elfClass)
        (data.drop (offset + index * entrySize)))).range.toList := by
  induction indices generalizing ranges with
  | nil => exact ⟨(Except.ok.inj h).symm, nofun⟩
  | cons index rest ih =>
    rw [loadRanges] at h
    obtain ⟨values, hvalues, h⟩ := bind_ok.mp h
    obtain ⟨range, hrange, h⟩ := bind_ok.mp h
    obtain ⟨later, hlater, h⟩ := bind_ok.mp h
    obtain rfl := pure_ok.mp h
    obtain ⟨_, rfl⟩ := unpackFrom_ok.mp hvalues
    obtain ⟨rfl, hentries⟩ := ih hlater
    obtain ⟨rfl, _⟩ := loadRange_exact hrange
    refine ⟨?_, List.forall_mem_cons.mpr ⟨hrange, hentries⟩⟩
    rw [List.filterMap_cons]
    cases (fieldsProgram elfClass _).range <;> rfl

theorem loadRange_raises (values : List Nat) :
    Raises Contract (loadRange elfClass data values) := by
  unfold loadRange
  dsimp only
  split
  · exact raises_ok _
  split
  · exact raises_ok _
  split
  · exact raises_error.mpr (contract_imageError _)
  · exact raises_ok _

theorem loadRanges_raises {offset entrySize : Nat} {indices : List Nat}
    (h : ∀ index ∈ indices,
      offset + index * entrySize + (programFormat elfClass).size ≤ data.length) :
    Raises Contract (loadRanges elfClass data offset entrySize indices) := by
  induction indices with
  | nil => exact raises_ok _
  | cons index rest ih =>
    refine (raises_unpackFrom (h index (List.mem_cons_self ..))).bind fun values _ => ?_
    refine (loadRange_raises values).bind fun range _ => ?_
    refine (ih fun later hlater => h later (List.mem_cons_of_mem _ hlater)).bind fun ranges _ => ?_
    exact raises_pure _

end

/-- The bytes of an entry stand where the segment that is read from it says. -/
theorem program_offset (data : List UInt8) (index : Nat) :
    programOffset data index = (segment (data.getD 4 0) (unpack (programFormat (data.getD 4 0))
      (data.drop (field (unpack (headerFormat (data.getD 4 0)) data) 5 +
        index * (programFormat (data.getD 4 0)).size)))).fileOffset := by
  unfold programOffset headerFormat programFormat segment
  split
  · have hoffset : field (unpack header32 data) 5 = number data 28 4 :=
      unpack_field (k := 5) rfl data 0
    have hentry : number data 28 4 + index * program32.size = number data 28 4 + 32 * index := by
      rw [Nat.mul_comm]
      rfl
    rw [hoffset, hentry, unpack_field (k := 1) rfl]
    rfl
  · have hoffset : field (unpack header64 data) 5 = number data 32 8 :=
      unpack_field (k := 5) rfl data 0
    have hentry : number data 32 8 + index * program64.size = number data 32 8 + 56 * index := by
      rw [Nat.mul_comm]
      rfl
    rw [hoffset, hentry, unpack_field (k := 2) rfl]
    rfl

/-- The loop reads the program headers of the file. -/
theorem loadRanges_programs {data : List UInt8} {ranges : List Span}
    (h : loadRanges (data.getD 4 0) data (field (unpack (headerFormat (data.getD 4 0)) data) 5)
      (programFormat (data.getD 4 0)).size
      (List.range (programCount data)) = .ok ranges) :
    ranges = loadSpans data ∧ ∀ index < programCount data, (programAt data index).range.isSome →
      programOffset data index + (programAt data index).fileSize ≤ data.length ∧
        (programAt data index).physical + (programAt data index).fileSize ≤ 0x100000000 := by
  obtain ⟨hspans, hentries⟩ := loadRanges_exact h
  have hprogram : ∀ index,
      programAt data index = fieldsProgram (data.getD 4 0) (unpack (programFormat (data.getD 4 0))
      (data.drop (field (unpack (headerFormat (data.getD 4 0)) data) 5 +
        index * (programFormat (data.getD 4 0)).size))) :=
    fun index => program_fields data index rfl
  constructor
  · rw [hspans, loadSpans]
    exact List.filterMap_congr fun index _ => by rw [hprogram]
  · intro index hindex hbacked
    rw [hprogram] at hbacked ⊢
    rw [program_offset]
    exact (loadRange_exact (hentries index (List.mem_range.mpr hindex))).2 hbacked

theorem parseElf_loads {path : String} {file : FileData} {image : ParsedImage}
    (h : parseElf path file = .ok image) :
    ∃ data, file = .ok data ∧ Loads data image := by
  cases file with
  | error text => cases h
  | ok data =>
    refine ⟨data, rfl, ?_⟩
    rw [parseElf] at h
    obtain ⟨_, _, h⟩ := bind_ok.mp h
    obtain ⟨elfClass, hclass, h⟩ := bind_ok.mp h
    obtain ⟨_, _, h⟩ := bind_ok.mp h
    obtain ⟨_, _, h⟩ := bind_ok.mp h
    obtain ⟨fields, hfields, h⟩ := bind_ok.mp h
    obtain ⟨_, _, h⟩ := bind_ok.mp h
    obtain ⟨_, htable, h⟩ := bind_ok.mp h
    obtain ⟨ranges, hranges, h⟩ := bind_ok.mp h
    obtain ⟨_, hsome, h⟩ := bind_ok.mp h
    obtain rfl := pure_ok.mp h
    obtain ⟨_, rfl⟩ := unpackFrom_ok.mp hfields
    obtain rfl := nth_getD 0 hclass
    rw [List.drop_zero] at htable hranges
    have hsize := not_not.mp (not_or.mp (raiseIf_ok.mp htable)).1
    rw [hsize, program_count] at hranges
    obtain ⟨hexact, hchecked⟩ := loadRanges_programs hranges
    -- a range of the image is that of one entry
    have hone : ∀ range ∈ sorted ranges, ∃ index < programCount data,
        (programAt data index).range = some range := by
      intro range hrange
      rw [mem_sorted, hexact, loadSpans, List.mem_filterMap] at hrange
      obtain ⟨index, hindex, hspan⟩ := hrange
      exact ⟨index, List.mem_range.mp hindex, hspan⟩
    constructor
    · exact (List.perm_insertionSort _ _).trans (List.Perm.of_eq hexact)
    · exact List.pairwise_insertionSort _ _
    · exact fun hnil => raiseIf_ok.mp hsome (sorted_eq_nil.mp hnil)
    · intro range hmem
      obtain ⟨index, _, hindex⟩ := hone range hmem
      obtain ⟨hsize, rfl⟩ := Program.range_some hindex
      dsimp only
      omega
    · intro range hmem
      obtain ⟨index, hlisted, hindex⟩ := hone range hmem
      have hsmall := (hchecked index hlisted (by rw [hindex]; rfl)).2
      obtain ⟨_, rfl⟩ := Program.range_some hindex
      dsimp only
      omega
    · exact fun index hindex hbacked => (hchecked index hindex hbacked).1

/-- Behind the header the reader checks every place before it reads there. -/
theorem parseElf_raises (path : String) {data : List UInt8} (h : ¬ HeaderCut data) :
    Raises Contract (parseElf path (.ok data)) := by
  refine (raises_raiseIf (contract_imageError _)).bind fun _ hmagic => ?_
  have hstart := not_or.mp (raiseIf_ok.mp hmagic)
  rw [Nat.not_lt, not_not] at hstart
  refine (raises_nth (by omega)).bind fun elfClass hclass => ?_
  refine (raises_nth (by omega)).bind fun encoding hencoding => ?_
  refine (raises_raiseIf (contract_imageError _)).bind fun _ hkind => ?_
  have hkinds := not_or.mp (raiseIf_ok.mp hkind)
  have hheader : (headerFormat elfClass).size ≤ data.length := by
    by_cases hnarrow : elfClass = 1
    · rw [headerFormat, if_pos hnarrow]
      exact hstart.1
    · rw [headerFormat, if_neg hnarrow]
      have hwide : elfClass = 2 := by
        by_contra hother
        exact hkinds.2 ⟨hnarrow, hother⟩
      refine Nat.not_lt.mp fun hshort => h ⟨hstart.2, ?_, ?_, hstart.1, hshort⟩
      · rw [← nth_getD 0 hclass, hwide]
      · rw [← nth_getD 0 hencoding]
        exact not_not.mp hkinds.1
  refine (raises_unpackFrom (by rwa [Nat.zero_add])).bind fun fields _ => ?_
  refine (raises_raiseIf (contract_imageError _)).bind fun _ _ => ?_
  refine (raises_raiseIf (contract_imageError _)).bind fun _ htable => ?_
  have hchecked := raiseIf_ok.mp htable
  simp only [not_or, not_not, Nat.not_lt] at hchecked
  refine (loadRanges_raises fun index hindex => ?_).bind fun ranges _ => ?_
  · rw [← hchecked.1]
    exact entry_inside hchecked.2 (List.mem_range.mp hindex)
  · exact (raises_raiseIf (contract_imageError _)).bind fun _ _ => raises_pure _

/-- Unpacking a header that is cut off raises what `struct` raises. -/
theorem parseElf_cut (path : String) {data : List UInt8} (h : HeaderCut data) :
    ∃ e, parseElf path (.ok data) = .error e ∧ ¬ Contract e := by
  have hclass : nth data 4 = .ok 2 := by
    rw [nth_ok, List.getElem?_eq_getElem (by have := h.longer; omega), ← h.wide,
      List.getD_eq_getElem?_getD, List.getElem?_eq_getElem, Option.getD_some]
  have hencoding : nth data 5 = .ok 1 := by
    rw [nth_ok, List.getElem?_eq_getElem (by have := h.longer; omega), ← h.little,
      List.getD_eq_getElem?_getD, List.getElem?_eq_getElem, Option.getD_some]
  have hmagic : ¬ (data.length < 52 ∨ data.take 4 ≠ elfMagic) :=
    not_or.mpr ⟨Nat.not_lt.mpr h.longer, not_not.mpr h.magic⟩
  have hshort : data.length < 0 + (headerFormat 2).size := by
    rw [Nat.zero_add]
    exact h.shorter
  rw [parseElf, raiseIf, if_neg hmagic, hclass, hencoding]
  simp only [Bind.bind, Except.bind]
  rw [raiseIf, if_neg (by decide), unpackFrom, if_pos hshort]
  exact ⟨_, rfl, fun hname => absurd (show "error" = "ImageContractError" from hname) (by decide)⟩

/-- The load reader raises its own error or returns the ranges of the file-backed LOAD
entries, but for an ELF64 file that is cut off in its header. -/
theorem parseElf_total (path : String) (file : FileData) :
    (match parseElf path file with
      | .error e => e.name = "ImageContractError"
      | .ok image => ∃ data, file = .ok data ∧ Loads data image) ↔
    ¬ ∃ data, file = .ok data ∧ HeaderCut data := by
  constructor
  · rintro hread ⟨data, rfl, hcut⟩
    obtain ⟨e, herror, hother⟩ := parseElf_cut path hcut
    rw [herror] at hread
    exact hother hread
  · intro hwhole
    cases hread : parseElf path file with
    | error e =>
      cases file with
      | error text =>
        cases hread
        rfl
      | ok data => exact parseElf_raises path (fun hcut => hwhole ⟨data, rfl, hcut⟩) e hread
    | ok image =>
      exact parseElf_loads hread

/-- A file of 52 bytes that begins as an ELF64 file does. -/
theorem parseElf_cut_header :
    ∃ e, parseElf "/build/cut.elf" (.ok (elfMagic ++ [2, 1] ++ List.replicate 46 0)) = .error e ∧
      e.name ≠ "ImageContractError" := by
  refine ⟨_, rfl, ?_⟩
  decide

end NrfKit.Tools
