import NrfKit.Lib.Struct
import NrfKit.Tools.Image

/- The ELF readers of `tools/nrfkit_tools/image.py`: the load ranges of a program image, and
   the absolute symbols the linker leaves.

   What a reader returns is said of the bytes of the file, at the offsets the ELF format
   gives its fields: the ranges hold what the file-backed LOAD entries load
   (`parseElf_ok`), and the symbols are those the tables of the file declare, no more and
   none of them twice (`parseElfAbsoluteSymbols_ok`). -/
namespace NrfKit.Tools
open Python Struct Bytes Spans

/-- `"\x7fELF"`. -/
def elfMagic : List UInt8 := [0x7f, 0x45, 0x4c, 0x46]

def header32 : Format := [16, 2, 2, 4, 4, 4, 4, 4, 2, 2, 2, 2, 2, 2]

def header64 : Format := [16, 2, 2, 4, 8, 8, 8, 4, 2, 2, 2, 2, 2, 2]

def program32 : Format := [4, 4, 4, 4, 4, 4, 4, 4]

def program64 : Format := [4, 4, 8, 8, 8, 8, 8, 8]

def sectionFormat : Format := [4, 4, 4, 4, 4, 4, 4, 4, 4, 4]

def symbolFormat : Format := [4, 4, 4, 1, 1, 2]

/-! ## Load ranges -/

/-- The header of an ELF class, 32 or 64 bits wide. -/
def headerFormat (elfClass : UInt8) : Format := if elfClass = 1 then header32 else header64

def programFormat (elfClass : UInt8) : Format := if elfClass = 1 then program32 else program64

structure Segment where
  fileOffset : Nat
  physical : Nat
  fileSize : Nat

/-- The fields of a program header the class of the file puts elsewhere. -/
def segment (elfClass : UInt8) (values : List Nat) : Segment :=
  if elfClass = 1 then ⟨field values 1, field values 3, field values 4⟩
  else ⟨field values 2, field values 4, field values 5⟩

/-- One entry of the program header table: its range, where it is file-backed. -/
def loadRange (elfClass : UInt8) (data : List UInt8)
    (values : List Nat) : Except Raised (List Span) :=
  let s := segment elfClass values
  if field values 0 ≠ 1 then .ok []
  else if s.fileSize = 0 then .ok []
  else if s.fileOffset + s.fileSize > data.length ∨ s.physical + s.fileSize > 0x100000000 then
    .error (imageError "ELF LOAD range is invalid")
  else .ok [((s.physical : Int), (s.physical : Int) + s.fileSize)]

def loadRanges (elfClass : UInt8) (data : List UInt8) (offset entrySize : Nat) :
    List Nat → Except Raised (List Span)
  | [] => .ok []
  | index :: rest => do
    let values ← unpackFrom (programFormat elfClass) data (offset + index * entrySize)
    let range ← loadRange elfClass data values
    let ranges ← loadRanges elfClass data offset entrySize rest
    pure (range ++ ranges)

def parseElf (path : String) (file : FileData) : Except Raised ParsedImage :=
  match file with
  | .error text => .error (imageError ("cannot read ELF " ++ path ++ ": " ++ text))
  | .ok data => do
    raiseIf (data.length < 52 ∨ data.take 4 ≠ elfMagic) (imageError "input is not an ELF image")
    let elfClass ← nth data 4
    let encoding ← nth data 5
    raiseIf (encoding ≠ 1 ∨ (elfClass ≠ 1 ∧ elfClass ≠ 2))
      (imageError "ELF must be little-endian ELF32 or ELF64")
    let fields ← unpackFrom (headerFormat elfClass) data 0
    raiseIf (field fields 2 ≠ 40) (imageError "ELF machine is not ARM")
    let entry := field fields 4
    let offset := field fields 5
    let entrySize := field fields 9
    let count := field fields 10
    raiseIf (entrySize ≠ (programFormat elfClass).size ∨ offset + count * entrySize > data.length)
      (imageError "ELF program header table is invalid")
    let ranges ← loadRanges elfClass data offset entrySize (List.range count)
    raiseIf (ranges = []) (imageError "ELF has no file-backed LOAD segments")
    pure { ranges := sorted ranges, entry := some entry }

/-! ## Symbols -/

/-- Names with their values, in the order they were found. -/
abbrev Symbols := List (String × Nat)

/-- A symbol whose name is decoded. -/
def addSymbol (wanted : List String) (found : Symbols) (fields : List Nat)
    (name : String) : Except Raised Symbols :=
  if name ∉ wanted then .ok found
  else do
    raiseIf (field fields 5 ≠ 0xFFF1 ∨ field fields 3 / 16 ≠ 1)
      (imageError ("ELF symbol " ++ name ++ " must be global and absolute"))
    raiseIf (name ∈ found.map Prod.fst) (imageError ("ELF symbol " ++ name ++ " is duplicated"))
    pure (found ++ [(name, field fields 1)])

/-- One entry of a symbol table. -/
def symbolEntry (wanted : List String) (strings : List UInt8) (found : Symbols)
    (fields : List Nat) : Except Raised Symbols := do
  let nameOffset := field fields 0
  raiseIf (nameOffset ≥ strings.length) (imageError "ELF symbol name offset is invalid")
  raiseIf (0 ∉ strings.drop nameOffset) (imageError "ELF symbol name is unterminated")
  match decodeUtf8 ((strings.drop nameOffset).takeWhile (· ≠ 0)) with
  | none => .error (imageError "ELF symbol name is not UTF-8")
  | some name => addSymbol wanted found fields name

/-- The entries of a table by their indices. -/
def symbolEntries (wanted : List String) (data strings : List UInt8) (symbolOffset : Nat)
    (found : Symbols) :
    List Nat → Except Raised Symbols
  | [] => .ok found
  | index :: rest => do
    let fields ← unpackFrom symbolFormat data (symbolOffset + index * symbolFormat.size)
    let found ← symbolEntry wanted strings found fields
    symbolEntries wanted data strings symbolOffset found rest

/-- One section, which is a symbol table or is passed over. -/
def symbolTable (wanted : List String) (data : List UInt8) (sections : List (List Nat))
    (found : Symbols) (sectionHeader : List Nat) : Except Raised Symbols :=
  if field sectionHeader 1 ≠ 2 then .ok found
  else do
    let symbolOffset := field sectionHeader 4
    let symbolSize := field sectionHeader 5
    let stringTable := field sectionHeader 6
    raiseIf (stringTable ≥ sections.length ∨ field sectionHeader 9 ≠ symbolFormat.size ∨
        symbolSize % symbolFormat.size ≠ 0 ∨ symbolOffset < header32.size ∨
        symbolOffset + symbolSize > data.length)
      (imageError "ELF symbol table is invalid")
    let stringHeader ← nth sections stringTable
    let stringOffset := field stringHeader 4
    let stringSize := field stringHeader 5
    raiseIf (field stringHeader 1 ≠ 3 ∨ stringSize = 0 ∨ stringOffset < header32.size ∨
        stringOffset + stringSize > data.length)
      (imageError "ELF symbol string table is invalid")
    let strings := (data.drop stringOffset).take stringSize
    symbolEntries wanted data strings symbolOffset found
      (List.range (symbolSize / symbolFormat.size))

def symbolTables (wanted : List String) (data : List UInt8) (sections : List (List Nat))
    (found : Symbols) :
    List (List Nat) → Except Raised Symbols
  | [] => .ok found
  | sectionHeader :: rest => do
    let found ← symbolTable wanted data sections found sectionHeader
    symbolTables wanted data sections found rest

def sectionHeaders (data : List UInt8) (offset entrySize : Nat) :
    List Nat → Except Raised (List (List Nat))
  | [] => .ok []
  | index :: rest => do
    let sectionHeader ← unpackFrom sectionFormat data (offset + index * entrySize)
    let headers ← sectionHeaders data offset entrySize rest
    pure (sectionHeader :: headers)

/-- `sorted(required - found.keys())`. -/
def missingSymbols (required : List String) (found : Symbols) : List String :=
  (required.dedup.filter (· ∉ found.map Prod.fst)).insertionSort (· ≤ ·)

def parseElfAbsoluteSymbols (path : String) (file : FileData) (required optional : List String) :
    Except Raised Symbols :=
  match file with
  | .error text => .error (imageError ("cannot read ELF " ++ path ++ ": " ++ text))
  | .ok data => do
    raiseIf (data.length < header32.size ∨ data.take 7 ≠ elfMagic ++ [1, 1, 1])
      (imageError "layout requires a little-endian ELF32 image")
    let fields ← unpackFrom header32 data 0
    raiseIf (field fields 1 ≠ 2 ∨ field fields 2 ≠ 40 ∨ field fields 3 ≠ 1)
      (imageError "layout requires an ARM executable ELF")
    let offset := field fields 6
    let entrySize := field fields 11
    let count := field fields 12
    raiseIf (field fields 8 ≠ header32.size ∨ entrySize ≠ sectionFormat.size ∨ count = 0 ∨
        offset < header32.size ∨ offset + count * entrySize > data.length)
      (imageError "ELF section header table is invalid")
    let sections ← sectionHeaders data offset entrySize (List.range count)
    let found ← symbolTables (required ++ optional) data sections [] sections
    let missing := missingSymbols required found
    raiseIf (missing ≠ [])
      (imageError ("ELF is missing absolute symbols: " ++ ", ".intercalate missing))
    pure found

/-! ## What an image loads -/

/-- A program header of the table. -/
structure Program where
  kind : Nat
  physical : Nat
  fileSize : Nat

/-- The fields of a program header, where the class of the file has them. -/
def programAt (data : List UInt8) (index : Nat) : Program :=
  if data.getD 4 0 = 1 then
    let entry := number data 28 4 + 32 * index
    ⟨number data entry 4, number data (entry + 12) 4, number data (entry + 16) 4⟩
  else
    let entry := number data 32 8 + 56 * index
    ⟨number data entry 4, number data (entry + 24) 8, number data (entry + 32) 8⟩

def programCount (data : List UInt8) : Nat := if data.getD 4 0 = 1 then number data 44 2
      else number data 56 2

/-- A file-backed LOAD entry of the file loads the address. -/
def LoadedBy (data : List UInt8) (a : Int) : Prop :=
  ∃ index < programCount data, (programAt data index).kind = 1 ∧
    ((programAt data index).physical : Int) ≤ a ∧
    a < (programAt data index).physical + (programAt data index).fileSize

/-! ## What a file declares -/

/-- A field of a section header, by its number. -/
def sectionAt (data : List UInt8) (index k : Nat) : Nat :=
  number data (number data 32 4 + 40 * index + 4 * k) 4

/-- The contents of a section. -/
def sectionData (data : List UInt8) (index : Nat) : List UInt8 :=
  (data.drop (sectionAt data index 4)).take (sectionAt data index 5)

/-- The bytes of a name. -/
def nameBytes (name : String) : List UInt8 := name.toByteArray.data.toList

/-- The name stands at the offset of the string table and ends with the first zero byte. -/
def NamedAt (strings : List UInt8) (offset : Nat) (name : String) : Prop :=
  0 ∉ nameBytes name ∧ ∃ tail, strings.drop offset = nameBytes name ++ 0 :: tail

/-- The entry of the symbol table has the name and the value. -/
structure SymbolAt (data : List UInt8) (table index : Nat) (name : String)
    (value : Nat) : Prop where
  listed : table < number data 48 2
  symbols : sectionAt data table 1 = 2
  inside : 16 * index + 16 ≤ sectionAt data table 5
  named : NamedAt (sectionData data (sectionAt data table 6))
    (number data (sectionAt data table 4 + 16 * index) 4) name
  valued : number data (sectionAt data table 4 + 16 * index + 4) 4 = value

def Declares (data : List UInt8) (name : String) (value : Nat) : Prop :=
  ∃ table index, SymbolAt data table index name value

/-- The entry is global and absolute: `STB_GLOBAL` in `SHN_ABS`. -/
structure AbsoluteAt (data : List UInt8) (table index : Nat) : Prop where
  global : number data (sectionAt data table 4 + 16 * index + 12) 1 / 16 = 1
  absolute : number data (sectionAt data table 4 + 16 * index + 14) 2 = 0xFFF1

/-! ## Lemmas -/

section
variable {elfClass : UInt8} {data : List UInt8}

/-- An entry read at a place of the file loads the address. -/
def SegmentLoads (elfClass : UInt8) (values : List Nat) (a : Int) : Prop :=
  field values 0 = 1 ∧ ((segment elfClass values).physical : Int) ≤ a ∧
    a < (segment elfClass values).physical + (segment elfClass values).fileSize

theorem loadRange_ok {values : List Nat} {ranges : List Span}
    (h : loadRange elfClass data values = .ok ranges) (a : Int) :
    Covers ranges a ↔ SegmentLoads elfClass values a := by
  unfold loadRange at h
  unfold SegmentLoads
  dsimp only at h
  by_cases hkind : field values 0 ≠ 1
  · rw [if_pos hkind] at h
    obtain rfl : [] = ranges := by simpa using h
    simp [hkind]
  · rw [if_neg hkind] at h
    have hkind' : field values 0 = 1 := not_not.mp hkind
    split at h
    · -- an entry that has no bytes in the file loads nothing
      obtain rfl : [] = ranges := by simpa using h
      simp
      omega
    · split at h
      · cases h
      · obtain rfl := Except.ok.inj h
        simp [Span.Holds, hkind']

/-- What the loop returns is what its entries load. -/
theorem loadRanges_ok {offset entrySize : Nat} {indices : List Nat} {ranges : List Span}
    (h : loadRanges elfClass data offset entrySize indices = .ok ranges) (a : Int) :
    Covers ranges a ↔ ∃ index ∈ indices,
      SegmentLoads elfClass
        (unpack (programFormat elfClass) (data.drop (offset + index * entrySize))) a := by
  induction indices generalizing ranges with
  | nil =>
    obtain rfl : [] = ranges := by simpa [loadRanges] using h
    simp
  | cons index rest ih =>
    rw [loadRanges] at h
    obtain ⟨values, hvalues, h⟩ := bind_ok.mp h
    obtain ⟨range, hrange, h⟩ := bind_ok.mp h
    obtain ⟨later, hlater, h⟩ := bind_ok.mp h
    obtain rfl := pure_ok.mp h
    obtain ⟨_, rfl⟩ := unpackFrom_ok.mp hvalues
    rw [covers_append, ih hlater, loadRange_ok hrange]
    simp

end

section
variable (data : List UInt8)

theorem program_count :
    field (unpack (headerFormat (data.getD 4 0)) data) 10 = programCount data := by
  unfold headerFormat programCount
  split
  · exact @unpack_field header32 10 _ rfl data 0
  · exact @unpack_field header64 10 _ rfl data 0

/-- The fields the loop reads are those of the program header. -/
theorem program_fields (index : Nat) {values : List Nat}
    (h : values = unpack (programFormat (data.getD 4 0))
      (data.drop (field (unpack (headerFormat (data.getD 4 0)) data) 5 +
        index * (programFormat (data.getD 4 0)).size))) :
    programAt data index =
      ⟨field values 0, (segment (data.getD 4 0) values).physical,
        (segment (data.getD 4 0) values).fileSize⟩ := by
  subst h
  unfold programAt headerFormat programFormat segment
  split
  · have hoffset : field (unpack header32 data) 5 = number data 28 4 :=
      unpack_field (k := 5) rfl data 0
    have hentry : number data 28 4 + index * program32.size = number data 28 4 + 32 * index := by
      rw [Nat.mul_comm]
      rfl
    rw [hoffset, hentry, unpack_field (k := 0) rfl, unpack_field (k := 3) rfl,
      unpack_field (k := 4) rfl]
    rfl
  · have hoffset : field (unpack header64 data) 5 = number data 32 8 :=
      unpack_field (k := 5) rfl data 0
    have hentry : number data 32 8 + index * program64.size = number data 32 8 + 56 * index := by
      rw [Nat.mul_comm]
      rfl
    rw [hoffset, hentry, unpack_field (k := 0) rfl, unpack_field (k := 4) rfl,
      unpack_field (k := 5) rfl]
    rfl

end

/-- The ranges of an accepted image hold what its file-backed LOAD entries load. -/
theorem parseElf_ok {path : String} {file : FileData} {image : ParsedImage}
    (h : parseElf path file = .ok image) :
    ∃ data, file = .ok data ∧ image.ranges ≠ [] ∧ ∀ a, Covers image.ranges a ↔ LoadedBy data a := by
  cases file with
  | error text => cases h
  | ok data =>
    refine ⟨data, rfl, ?_⟩
    rw [parseElf] at h
    obtain ⟨_, _, h⟩ := bind_ok.mp h
    obtain ⟨elfClass, hclass, h⟩ := bind_ok.mp h
    obtain ⟨_, _, h⟩ := bind_ok.mp h
    obtain ⟨_, _, h⟩ := bind_ok.mp h
    obtain ⟨fields, hfields, h⟩ := bind_ok.mp h
    obtain ⟨_, _, h⟩ := bind_ok.mp h
    obtain ⟨_, htable, h⟩ := bind_ok.mp h
    obtain ⟨ranges, hranges, h⟩ := bind_ok.mp h
    obtain ⟨_, hsome, h⟩ := bind_ok.mp h
    obtain rfl := pure_ok.mp h
    obtain ⟨_, rfl⟩ := unpackFrom_ok.mp hfields
    obtain rfl := nth_getD 0 hclass
    rw [List.drop_zero] at htable hranges
    have hsize := not_not.mp (not_or.mp (raiseIf_ok.mp htable)).1
    rw [hsize, program_count] at hranges
    refine ⟨fun hnil => raiseIf_ok.mp hsome (sorted_eq_nil.mp hnil), fun a => ?_⟩
    · rw [covers_sorted, loadRanges_ok hranges, LoadedBy]
      simp only [List.mem_range]
      refine exists_congr fun index => and_congr_right fun _ => ?_
      rw [program_fields data index rfl]
      rfl

/-! ## Symbols -/

theorem decodeUtf8_some {bytes : List UInt8} {name : String}
    (h : decodeUtf8 bytes = some name) : nameBytes name = bytes := by
  unfold decodeUtf8 String.fromUTF8? at h
  split at h
  · obtain rfl := Option.some.inj h
    rfl
  · cases h

theorem decodeUtf8_nameBytes (name : String) : decodeUtf8 (nameBytes name) = some name := by
  have hbytes : (⟨(nameBytes name).toArray⟩ : ByteArray) = name.toByteArray :=
    ByteArray.ext (Array.toArray_toList ..)
  rw [decodeUtf8, hbytes, String.fromUTF8?, dif_pos name.isValidUTF8]
  rfl

theorem nameBytes_injective {name other : String}
    (h : nameBytes name = nameBytes other) : name = other := by
  apply String.toByteArray_inj.mp
  exact ByteArray.ext (Array.toList_inj.mp h)

/-- What stands before the first zero of a list. -/
theorem split_zero {front tail front' tail' : List UInt8} (h : 0 ∉ front) (h' : 0 ∉ front')
    (heq : front ++ 0 :: tail = front' ++ 0 :: tail') : front = front' := by
  induction front generalizing front' with
  | nil =>
    cases front' with
    | nil => rfl
    | cons byte rest => simp_all
  | cons byte rest ih =>
    cases front' with
    | nil => simp_all
    | cons byte' rest' =>
      simp only [List.cons_append, List.cons.injEq, List.mem_cons, not_or] at h h' heq
      rw [heq.1, ih h.2 h'.2 heq.2]

theorem NamedAt.unique {strings : List UInt8} {offset : Nat} {name other : String}
    (h : NamedAt strings offset name) (h' : NamedAt strings offset other) : name = other := by
  obtain ⟨hzero, tail, htail⟩ := h
  obtain ⟨hzero', tail', htail'⟩ := h'
  exact nameBytes_injective (split_zero hzero hzero' (htail.symm.trans htail'))

/-- What is taken up to the first zero ends there. -/
theorem takeWhile_zero {bytes : List UInt8} (h : 0 ∈ bytes) :
    0 ∉ bytes.takeWhile (· ≠ 0) ∧ ∃ tail, bytes = bytes.takeWhile (· ≠ 0) ++ 0 :: tail := by
  induction bytes with
  | nil => cases h
  | cons byte rest ih =>
    by_cases hzero : byte = 0
    · subst hzero
      exact ⟨by simp, rest, by simp⟩
    · have hrest : 0 ∈ rest := (List.mem_cons.mp h).resolve_left (Ne.symm hzero)
      obtain ⟨hnone, tail, htail⟩ := ih hrest
      rw [List.takeWhile_cons_of_pos (by simpa using hzero)]
      refine ⟨?_, tail, ?_⟩
      · rw [List.mem_cons, not_or]
        exact ⟨Ne.symm hzero, hnone⟩
      · rw [List.cons_append, ← htail]

/-- The name that is decoded stands there. -/
theorem named_decoded {strings : List UInt8} {offset : Nat} {name : String}
    (hend : 0 ∈ strings.drop offset)
    (h : decodeUtf8 ((strings.drop offset).takeWhile (· ≠ 0)) = some name) :
    NamedAt strings offset name := by
  rw [NamedAt, decodeUtf8_some h]
  exact takeWhile_zero hend

/-- A table and the index of an entry in it. -/
abbrev Place := Nat × Nat

/-- What a part of the search adds: the wanted symbols of the places it goes through, none
whose name is there already, and each of them global and absolute. -/
structure Adds (wanted : List String) (data : List UInt8) (found found' : Symbols)
    (At : Place → String → Nat → Prop) : Prop where
  once : (found.map Prod.fst).Nodup → (found'.map Prod.fst).Nodup
  taken : ∃ taken : List (Place × String × Nat), found' = found ++ taken.map Prod.snd ∧
    ∀ place name value, (place, name, value) ∈ taken ↔ name ∈ wanted ∧ At place name value
  absolute : ∀ place name value, name ∈ wanted → At place name value →
    AbsoluteAt data place.1 place.2

section
variable {wanted : List String} {data strings : List UInt8} {found found' later : Symbols}
    {At Next : Place → String → Nat → Prop}

theorem Adds.nothing (h : ∀ name ∈ wanted, ∀ place value, ¬ At place name value) :
    Adds wanted data found found At := by
  refine ⟨id, ⟨[], by simp, fun place name value => ?_⟩, fun place name value hwanted hat =>
    absurd hat (h name hwanted place value)⟩
  simpa using fun hwanted => h name hwanted place value

theorem Adds.then (h : Adds wanted data found found' At)
    (hnext : Adds wanted data found' later Next) :
    Adds wanted data found later fun place name value => At place name value ∨
      Next place name value := by
  obtain ⟨first, rfl, hfirst⟩ := h.taken
  obtain ⟨second, rfl, hsecond⟩ := hnext.taken
  refine ⟨hnext.once ∘ h.once, ⟨first ++ second, by simp, fun place name value => ?_⟩,
    fun place name value hwanted hat => ?_⟩
  · rw [List.mem_append, hfirst, hsecond, and_or_left]
  · exact hat.elim (h.absolute place name value hwanted) (hnext.absolute place name value hwanted)

theorem Adds.congr (h : Adds wanted data found found' At)
    (heq : ∀ place name value, At place name value ↔ Next place name value) :
    Adds wanted data found found' Next := by
  have hsame : At = Next := by
    funext place name value
    exact propext (heq place name value)
  exact hsame ▸ h

/-- The symbols there are after the part. -/
theorem Adds.symbols (h : Adds wanted data found found' At) (name : String) (value : Nat) :
    (name, value) ∈ found' ↔
    (name, value) ∈ found ∨ (name ∈ wanted ∧ ∃ place, At place name value) := by
  obtain ⟨taken, rfl, htaken⟩ := h.taken
  rw [List.mem_append, List.mem_map]
  refine or_congr_right ⟨?_, ?_⟩
  · rintro ⟨⟨place, symbol⟩, hmem, heq⟩
    obtain rfl : symbol = (name, value) := heq
    obtain ⟨hwanted, hat⟩ := (htaken place name value).mp hmem
    exact ⟨hwanted, place, hat⟩
  · rintro ⟨hwanted, place, hat⟩
    exact ⟨(place, name, value), (htaken place name value).mpr ⟨hwanted, hat⟩, rfl⟩

/-- A wanted name stands at one place only. -/
theorem Adds.place (h : Adds wanted data [] found At) {name : String}
    (hwanted : name ∈ wanted) {place other : Place} {value value' : Nat} (hat : At place name value)
    (hother : At other name value') : place = other := by
  obtain ⟨taken, rfl, htaken⟩ := h.taken
  have honce : (taken.map fun t => t.2.1).Nodup := by
    simpa [Function.comp_def] using h.once List.nodup_nil
  have hmem := (htaken place name value).mpr ⟨hwanted, hat⟩
  have hmem' := (htaken other name value').mpr ⟨hwanted, hother⟩
  exact congrArg Prod.fst (List.inj_on_of_nodup_map honce hmem hmem' rfl)

theorem addSymbol_ok {fields : List Nat} {name : String} (place : Place)
    (hfit : field fields 3 / 16 = 1 → field fields 5 = 0xFFF1 → AbsoluteAt data place.1 place.2)
    (h : addSymbol wanted found fields name = .ok found') :
    Adds wanted data found found' fun p other value => p = place ∧ other = name ∧
      value = field fields 1 := by
  unfold addSymbol at h
  split at h
  · rename_i hunwanted
    obtain rfl := Except.ok.inj h
    exact Adds.nothing fun other hother p value hat => hunwanted (hat.2.1 ▸ hother)
  · rename_i hwanted
    obtain ⟨_, habsolute, h⟩ := bind_ok.mp h
    obtain ⟨_, hnew, h⟩ := bind_ok.mp h
    obtain rfl := pure_ok.mp h
    refine ⟨fun hnodup => ?_, ⟨[(place, name, field fields 1)], rfl, fun p other value => ?_⟩, ?_⟩
    · rw [List.map_append, List.nodup_append_comm]
      simpa using ⟨by simpa using raiseIf_ok.mp hnew, hnodup⟩
    · simp only [List.mem_singleton, Prod.mk.injEq]
      exact ⟨fun h => ⟨h.2.1 ▸ not_not.mp hwanted, h⟩, fun h => h.2⟩
    · rintro p other value _ ⟨rfl, _⟩
      have hfields := not_or.mp (raiseIf_ok.mp habsolute)
      exact hfit (not_not.mp hfields.2) (not_not.mp hfields.1)

theorem symbolEntry_ok {fields : List Nat} (place : Place)
    (hfit : field fields 3 / 16 = 1 → field fields 5 = 0xFFF1 → AbsoluteAt data place.1 place.2)
    (h : symbolEntry wanted strings found fields = .ok found') :
    Adds wanted data found found' fun p name value =>
      p = place ∧ NamedAt strings (field fields 0) name ∧ value = field fields 1 := by
  obtain ⟨_, _, h⟩ := bind_ok.mp h
  obtain ⟨_, hend, h⟩ := bind_ok.mp h
  split at h
  · cases h
  · rename_i name hname
    have hnamed := named_decoded (not_not.mp (raiseIf_ok.mp hend)) hname
    refine (addSymbol_ok place hfit h).congr fun p other value => and_congr_right fun _ =>
      and_congr_left fun _ => ?_
    constructor
    · rintro rfl
      exact hnamed
    · exact fun hother => hother.unique hnamed

/-- The symbols of a table's entries, by their indices. -/
theorem symbolEntries_ok {table : Nat} {indices : List Nat}
    (h : symbolEntries wanted data strings (sectionAt data table 4) found indices = .ok found') :
    Adds wanted data found found' fun place name value => place.1 = table ∧ place.2 ∈ indices ∧
      NamedAt strings (number data (sectionAt data table 4 + 16 * place.2) 4) name ∧
        number data (sectionAt data table 4 + 16 * place.2 + 4) 4 = value := by
  induction indices generalizing found with
  | nil =>
    obtain rfl := Except.ok.inj h
    exact Adds.nothing (by simp)
  | cons index rest ih =>
    rw [symbolEntries] at h
    obtain ⟨fields, hfields, h⟩ := bind_ok.mp h
    obtain ⟨next, hnext, hrest⟩ := bind_ok.mp h
    obtain ⟨_, rfl⟩ := unpackFrom_ok.mp hfields
    have hplace : sectionAt data table 4 + index * symbolFormat.size = sectionAt data table 4 +
        16 * index := by
      rw [Nat.mul_comm]
      rfl
    rw [hplace] at hnext
    have hfit :
        field (unpack symbolFormat (data.drop (sectionAt data table 4 + 16 * index))) 3 / 16 = 1 →
        field (unpack symbolFormat (data.drop (sectionAt data table 4 + 16 * index))) 5 = 0xFFF1 →
        AbsoluteAt data table index := by
      rw [unpack_field (k := 3) rfl, unpack_field (k := 5) rfl]
      exact AbsoluteAt.mk
    have hentry := symbolEntry_ok (table, index) hfit hnext
    rw [unpack_field (k := 0) rfl, unpack_field (k := 1) rfl] at hentry
    refine (hentry.then (ih hrest)).congr fun place name value => ?_
    obtain ⟨table', index'⟩ := place
    simp only [Prod.mk.injEq, List.mem_cons]
    constructor
    · rintro (⟨⟨rfl, rfl⟩, hnamed, rfl⟩ | ⟨rfl, hindex, hlater⟩)
      · exact ⟨rfl, Or.inl rfl, hnamed, rfl⟩
      · exact ⟨rfl, Or.inr hindex, hlater⟩
    · rintro ⟨rfl, rfl | hindex, hnamed, rfl⟩
      · exact Or.inl ⟨⟨rfl, rfl⟩, hnamed, rfl⟩
      · exact Or.inr ⟨rfl, hindex, hnamed, rfl⟩

end

/-- The headers are those the file has at their places. -/
theorem sectionHeaders_ok {data : List UInt8} {offset entrySize : Nat} {indices : List Nat}
    {headers : List (List Nat)} (h : sectionHeaders data offset entrySize indices = .ok headers) :
    headers = indices.map fun index =>
      unpack sectionFormat (data.drop (offset + index * entrySize)) := by
  induction indices generalizing headers with
  | nil => simpa [sectionHeaders, eq_comm] using h
  | cons index rest ih =>
    rw [sectionHeaders] at h
    obtain ⟨first, hfirst, h⟩ := bind_ok.mp h
    obtain ⟨later, hlater, h⟩ := bind_ok.mp h
    obtain rfl := pure_ok.mp h
    obtain ⟨_, rfl⟩ := unpackFrom_ok.mp hfirst
    rw [ih hlater, List.map_cons]

/-- The header the reader has of a section. -/
def sectionFields (data : List UInt8) (index : Nat) : List Nat :=
  unpack sectionFormat (data.drop (number data 32 4 + 40 * index))

theorem section_field (data : List UInt8) (index : Nat) {k : Nat} (hk : k < 10) :
    field (sectionFields data index) k = sectionAt data index k := by
  have hwidth : ∀ k < 10, sectionFormat[k]? = some 4 := by decide
  have hplace : ∀ k < 10, (sectionFormat.take k).sum = 4 * k := by decide
  rw [sectionFields, unpack_field (hwidth k hk), hplace k hk, sectionAt]

section
variable {wanted : List String} {data : List UInt8} {found found' : Symbols} {count : Nat}

/-- A symbol table adds its entries. -/
theorem symbolTable_ok {table : Nat} (htable : table < number data 48 2)
    (h : symbolTable wanted data ((List.range (number data 48 2)).map (sectionFields data)) found
      (sectionFields data table) = .ok found') :
    Adds wanted data found found' fun place name value => place.1 = table ∧
      SymbolAt data place.1 place.2 name value := by
  unfold symbolTable at h
  rw [section_field data table (by decide)] at h
  split at h
  · rename_i hother
    obtain rfl := Except.ok.inj h
    refine Adds.nothing ?_
    rintro name _ place value ⟨rfl, hat⟩
    exact hother hat.symbols
  · rename_i hkind
    obtain ⟨_, hvalid, h⟩ := bind_ok.mp h
    obtain ⟨stringHeader, hheader, h⟩ := bind_ok.mp h
    obtain ⟨_, _, h⟩ := bind_ok.mp h
    simp only [section_field data table (show 4 < 10 by decide),
      section_field data table (show 5 < 10 by decide), section_field data table (show 6 < 10 by
      decide), section_field data table (show 9 < 10 by decide)] at hvalid hheader h
    have hvalid' := raiseIf_ok.mp hvalid
    simp only [List.length_map, List.length_range, not_or, not_le, ge_iff_le] at hvalid'
    have hstrings : stringHeader = sectionFields data (sectionAt data table 6) := by
      have hfound := nth_ok.mp hheader
      rw [List.getElem?_map, List.getElem?_range hvalid'.1] at hfound
      exact (Option.some.inj hfound).symm
    rw [hstrings, section_field _ _ (by decide), section_field _ _ (by decide)] at h
    have hwhole : sectionAt data table 5 % 16 = 0 := not_not.mp hvalid'.2.2.1
    refine (symbolEntries_ok h).congr fun place name value => ?_
    rw [List.mem_range]
    have hinside : place.2 < sectionAt data table 5 / symbolFormat.size ↔
        16 * place.2 + 16 ≤ sectionAt data table 5 := by
      show place.2 < sectionAt data table 5 / 16 ↔ _
      omega
    rw [hinside]
    refine and_congr_right fun hplace => ?_
    rw [hplace]
    exact ⟨fun ⟨hin, hname, hvalue⟩ => ⟨htable, not_not.mp hkind, hin, hname, hvalue⟩,
      fun hat => ⟨hat.inside, hat.named, hat.valued⟩⟩

theorem symbolTables_ok {tables : List Nat} (htables : ∀ table ∈ tables, table < number data 48 2)
    (h : symbolTables wanted data ((List.range (number data 48 2)).map (sectionFields data)) found
      (tables.map (sectionFields data)) = .ok found') :
    Adds wanted data found found' fun place name value => place.1 ∈ tables ∧
      SymbolAt data place.1 place.2 name value := by
  induction tables generalizing found with
  | nil =>
    obtain rfl := Except.ok.inj h
    exact Adds.nothing (by simp)
  | cons table rest ih =>
    rw [List.map_cons, symbolTables] at h
    obtain ⟨next, hnext, h⟩ := bind_ok.mp h
    have hfirst := symbolTable_ok (htables table (List.mem_cons_self ..)) hnext
    refine (hfirst.then (ih (fun t ht => htables t (List.mem_cons_of_mem _ ht)) h)).congr
      fun place name value => ?_
    rw [List.mem_cons, or_and_right]

end

theorem missing_none {required : List String} {found : Symbols}
    (h : missingSymbols required found = []) :
    ∀ name ∈ required, ∃ value, (name, value) ∈ found := by
  intro name hname
  by_contra hnone
  have hmissing : name ∈ missingSymbols required found := by
    rw [missingSymbols, List.mem_insertionSort, List.mem_filter, List.mem_dedup]
    exact ⟨hname, by simpa using hnone⟩
  rw [h] at hmissing
  cases hmissing

/-- What the reader accepts: it went through the sections of the table, which lies in the file,
and missed no required name. -/
theorem parseElfAbsoluteSymbols_run {path : String} {file : FileData}
    {required optional : List String} {found : Symbols}
    (h : parseElfAbsoluteSymbols path file required optional = .ok found) :
    ∃ data, file = .ok data ∧ 52 ≤ data.length ∧
      number data 32 4 + 40 * number data 48 2 ≤ data.length ∧
      missingSymbols required found = [] ∧
      symbolTables (required ++ optional) data
        ((List.range (number data 48 2)).map (sectionFields data)) []
        ((List.range (number data 48 2)).map (sectionFields data)) = .ok found := by
  cases file with
  | error text => cases h
  | ok data =>
    refine ⟨data, rfl, ?_⟩
    obtain ⟨_, hheader, h⟩ := bind_ok.mp h
    obtain ⟨fields, hfields, h⟩ := bind_ok.mp h
    obtain ⟨_, _, h⟩ := bind_ok.mp h
    obtain ⟨_, htable, h⟩ := bind_ok.mp h
    obtain ⟨sections, hsections, h⟩ := bind_ok.mp h
    obtain ⟨symbols, hsymbols, h⟩ := bind_ok.mp h
    obtain ⟨_, hmissing, h⟩ := bind_ok.mp h
    obtain rfl := pure_ok.mp h
    obtain ⟨_, rfl⟩ := unpackFrom_ok.mp hfields
    have hlength : 52 ≤ data.length := Nat.not_lt.mp (not_or.mp (raiseIf_ok.mp hheader)).1
    have hchecked := raiseIf_ok.mp htable
    simp only [not_or, not_not, Nat.not_lt] at hchecked
    obtain ⟨_, hsize, _, _, hend⟩ := hchecked
    rw [hsize, unpack_field (k := 6) rfl, unpack_field (k := 12) rfl] at hsections hend
    have hheaders : sections = (List.range (number data 48 2)).map (sectionFields data) := by
      rw [sectionHeaders_ok hsections]
      refine List.map_congr_left fun index _ => ?_
      rw [Nat.mul_comm]
      rfl
    rw [hheaders] at hsymbols
    rw [Nat.mul_comm] at hend
    exact ⟨hlength, hend, not_not.mp (raiseIf_ok.mp hmissing), hsymbols⟩

theorem symbolTables_adds {data : List UInt8} {wanted : List String} {found : Symbols}
    (h : symbolTables wanted data ((List.range (number data 48 2)).map (sectionFields data)) []
      ((List.range (number data 48 2)).map (sectionFields data)) = .ok found) :
    Adds wanted data [] found fun place name value => SymbolAt data place.1 place.2 name value := by
  refine (symbolTables_ok (fun table ht => List.mem_range.mp ht) h).congr fun place name value => ?_
  rw [List.mem_range]
  exact ⟨fun h => h.2, fun hat => ⟨hat.listed, hat⟩⟩

/-- The symbols returned are those the tables of the file declare among the wanted names, each
once and every required one. -/
theorem parseElfAbsoluteSymbols_ok {path : String} {file : FileData}
    {required optional : List String} {found : Symbols}
    (h : parseElfAbsoluteSymbols path file required optional = .ok found) :
    ∃ data, file = .ok data ∧ (found.map Prod.fst).Nodup ∧
      (∀ name ∈ required, ∃ value, (name, value) ∈ found) ∧
      ∀ name value, (name, value) ∈ found ↔
        name ∈ required ++ optional ∧ Declares data name value := by
  obtain ⟨data, hfile, _, _, hmissing, htables⟩ := parseElfAbsoluteSymbols_run h
  have hadds := symbolTables_adds htables
  refine ⟨data, hfile, hadds.once List.nodup_nil, missing_none hmissing, fun name value => ?_⟩
  rw [hadds.symbols]
  simp only [List.not_mem_nil, false_or, Declares, Prod.exists]

end NrfKit.Tools
