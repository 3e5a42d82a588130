import Mathlib.Data.List.Nodup
import Mathlib.Data.List.Pairwise
import NrfKit.Lib.Numerals
import NrfKit.Lib.Python

/- The resources an executable claims with `nrfkit_claim_resources` of
   `cmake/modules/NrfKitNrfx.cmake`.

   Who owns a resource is a property named by its spelling; the masks of the DPPI and the
   GPIOTE instances come from its number. `[0-9]+` accepts zeros before the number, so a
   resource has more than one spelling, and the claims are exclusive just where no two of them
   differ in such zeros (`claims_exclusive`). The masks are right in any case.

   A property that is not set is an empty one here: `if()` takes both for false. -/
namespace NrfKit.Build.Resources
open Python Numerals

abbrev Word := List Char

/-! ## The spellings -/

/-- The resources that have a number. -/
inductive Family where
  | dppiChannel
  | dppiGroup
  | ppibChannel
  | gpioteChannel
  | grtcChannel
  deriving DecidableEq

def Family.word : Family → String
  | dppiChannel | dppiGroup => "dppi"
  | ppibChannel => "ppib"
  | gpioteChannel => "gpiote"
  | grtcChannel => "grtc"

/-- The alternatives of the first group. There is one GRTC, and no group for it. -/
def Family.instances : Family → List String
  | dppiChannel | dppiGroup => ["00", "10", "20", "30"]
  | ppibChannel => ["00", "10", "11", "20", "21"]
  | gpioteChannel => ["20", "30"]
  | grtcChannel => [""]

def Family.kind : Family → String
  | dppiGroup => ".group"
  | dppiChannel | ppibChannel | gpioteChannel | grtcChannel => ".channel"

def Family.limit (family : Family) (inst : String) : Nat :=
  match family with
  | dppiChannel => if inst = "10" then 24 else if inst = "30" then 4 else 16
  | dppiGroup => if inst = "10" ∨ inst = "20" then 6 else 2
  | gpioteChannel => if inst = "20" then 8 else 4
  | ppibChannel | grtcChannel => 16

/-- What stands before the number. -/
def Family.front (family : Family) (inst : String) : Word :=
  (family.word ++ inst ++ family.kind).toList ++ ['.']

/-- The number behind `front`, as `([0-9]+)$` finds it. -/
def numberBehind (front resource : Word) : Option Word :=
  let digits := resource.drop front.length
  if resource.take front.length = front ∧ digits ≠ [] ∧ digits.all Char.isDigit then
    some digits else none

/-- The expression of a family: the instance and the number it captures. -/
def Family.find (family : Family) (resource : Word) : Option (String × Word) :=
  family.instances.findSome? fun inst =>
    (numberBehind (family.front inst) resource).map fun digits => (inst, digits)

/-- The first of some expressions the resource matches. -/
def firstMatch (families : List Family) (resource : Word) : Option (Family × String × Word) :=
  families.findSome? fun family => (family.find resource).map fun found => (family, found)

/-- The resources without a number. -/
def peripherals : List Word :=
  ["timer00", "timer10", "timer20", "timer21", "timer22", "timer23", "timer24", "ecb00", "radio0",
    "clock", "temp", "ccm00", "aar00", "rramc"].map String.toList

/-- The long expression. -/
def valid (resource : Word) : Bool :=
  (firstMatch [.dppiChannel, .dppiGroup, .ppibChannel, .gpioteChannel,
    .grtcChannel] resource).isSome || resource ∈ peripherals

/-- The chain of `elseif`. -/
def outOfRange (resource : Word) : Bool :=
  match firstMatch [.dppiChannel, .dppiGroup, .gpioteChannel, .ppibChannel,
    .grtcChannel] resource with
  | some (family, inst, digits) => family.limit inst ≤ number digits
  | none => false

/-- `string(MAKE_C_IDENTIFIER)`. -/
def makeCIdentifier (text : Word) : Word :=
  (if text.head?.any Char.isDigit then ['_'] else []) ++ text.map fun c =>
    if c.isAlphanum then c else '_'

/-! ## The masks -/

/-- The masks, by the family and the instance in the name of their variable. -/
abbrev Masks := Family → String → Nat

def maskFamilies : List Family := [.dppiChannel, .dppiGroup, .gpioteChannel]

/-- One turn of the second loop. -/
def addMask (masks : Masks) (resource : Word) : Masks :=
  match firstMatch maskFamilies resource with
  | some (family, inst, digits) => fun family' inst' =>
    if family' = family ∧ inst' = inst then masks family' inst' ||| 1 <<< number digits
      else masks family' inst'
  | none => masks

def masksOf (resources : List Word) : Masks := resources.foldl addMask fun _ _ => 0

/-- The masks with a property, in the order it is set. -/
def reservedMasks : List (Family × String) :=
  (["00", "10", "20", "30"].flatMap fun inst => [(.dppiChannel, inst), (.dppiGroup, inst)]) ++
    ["20", "30"].map fun inst => (.gpioteChannel, inst)

def maskKey (mask : Family × String) : String :=
  match mask with
  | (.dppiGroup, inst) => "NRFKIT_APP_DPPI" ++ inst ++ "_GROUPS_RESERVED"
  | (.gpioteChannel, inst) => "NRFKIT_APP_GPIOTE" ++ inst ++ "_CHANNELS_RESERVED"
  | (_, inst) => "NRFKIT_APP_DPPI" ++ inst ++ "_CHANNELS_RESERVED"

/-! ## The claims -/

/-- A target and its properties. -/
structure Target where
  type : String
  /-- `NRFKIT_RESOURCE_KEYS`. -/
  resourceKeys : List Word := []
  /-- `NRFKIT_RESOURCE_` and an identifier, the last set first. -/
  owners : List (Word × Word) := []
  reserved : List (String × Nat) := []
  /-- `NRFKIT_RESOURCE_MASKS_REGISTERED`. -/
  masksRegistered : Bool := false
  compileDefinitions : List String := []

/-- The constants `if()` takes for false. -/
def isOff (value : Word) : Bool :=
  (["", "0", "N", "NO", "OFF", "FALSE", "IGNORE"].map String.toList).contains
    (value.map Char.toUpper) ||
    value = "NOTFOUND".toList || "-NOTFOUND".toList.isSuffixOf value

/-- A list as it stands in a variable. -/
def joined (items : List Word) : Word := [';'].intercalate items

/-- What `cmake_parse_arguments` makes of a call. -/
structure Arguments where
  unparsed : List Word := []
  owner : Word := []
  resources : List Word := []

def fatal (text : String) : Raised := ⟨"FATAL_ERROR", text⟩

def invalidResource (resource : Word) : Raised :=
  fatal ("nrfkit_claim_resources: invalid resource '" ++ String.ofList resource ++ "'")

def rangeError (resource : Word) : Raised :=
  fatal ("nrfkit_claim_resources: '" ++ String.ofList resource ++ "' is out of range")

def ownedError (resource owner : Word) : Raised :=
  fatal ("nrfkit_claim_resources: '" ++ String.ofList resource ++ "' is already owned by '" ++
    String.ofList owner ++ "'")

/-- The owner of a resource; nobody where the property is unset. -/
def Target.owner (t : Target) (resource : Word) : Word :=
  (t.owners.lookup (makeCIdentifier resource)).getD []

/-- One turn of the first loop, with the keys in the variable `resource_keys`. -/
def claimResource (owner : Word) (state : Target × List Word) (resource : Word) :
    Except Raised (Target × List Word) := do
  let (t, resourceKeys) := state
  raiseIf (¬ valid resource) (invalidResource resource)
  raiseIf (outOfRange resource) (rangeError resource)
  let existingOwner := t.owner resource
  raiseIf (¬ isOff existingOwner) (ownedError resource existingOwner)
  pure ({ t with owners := (makeCIdentifier resource, owner) :: t.owners },
    resourceKeys ++ [resource])

/-- `$<TARGET_PROPERTY:...>` is evaluated after the last call. -/
def compileDefinition (target key : String) : String :=
  key ++ "=$<TARGET_PROPERTY:" ++ target ++ "," ++ key ++ ">U"

/-- What the call does with the keys. -/
def setMasks (target : String) (t : Target) (resourceKeys : List Word) : Target :=
  let masks := masksOf resourceKeys
  let keys := reservedMasks.map maskKey
  { t with
    resourceKeys
    reserved := reservedMasks.map fun mask => (maskKey mask, masks mask.1 mask.2)
    masksRegistered := true
    compileDefinitions := if t.masksRegistered then t.compileDefinitions
      else t.compileDefinitions ++ keys.map (compileDefinition target) }

/-- `target` names `found`, or nothing. -/
def nrfkitClaimResources (target : String) (found : Option Target)
    (args : Arguments) : Except Raised Target := do
  let some t := found | throw (fatal ("nrfkit_claim_resources: unknown target '" ++ target ++ "'"))
  raiseIf (t.type ≠ "EXECUTABLE") (fatal "nrfkit_claim_resources requires an executable target")
  raiseIf (¬ isOff (joined args.unparsed) ∨ isOff args.owner ∨ isOff (joined args.resources))
    (fatal "nrfkit_claim_resources requires OWNER <name> RESOURCES <resource>...")
  let resourceKeys := if isOff (joined t.resourceKeys) then [] else t.resourceKeys
  let (t, resourceKeys) ← args.resources.foldlM (claimResource args.owner) (t, resourceKeys)
  pure (setMasks target t resourceKeys.eraseDups)

/-- Calls on one target. -/
def claimAll (target : String) (t : Target) (calls : List Arguments) : Except Raised Target :=
  calls.foldlM (fun t args => nrfkitClaimResources target (some t) args) t

/-! ## What a spelling names -/

/-- A part of the chip that is claimed. -/
inductive Physical where
  | numbered (family : Family) (inst : String) (index : Nat)
  | peripheral (name : Word)

/-- The spelling of a family, an instance and a number. -/
structure Spelled (family : Family) (inst : String) (digits resource : Word) : Prop where
  known : inst ∈ family.instances
  spelling : resource = family.front inst ++ digits
  nonempty : digits ≠ []
  numeral : Numeral digits

inductive Names : Word → Physical → Prop where
  | numbered {family : Family} {inst : String} {digits resource : Word}
    (h : Spelled family inst digits resource) :
      Names resource (.numbered family inst (number digits))
  | peripheral {resource : Word} (h : resource ∈ peripherals) :
    Names resource (.peripheral resource)

section
variable {family family' : Family} {inst inst' : String}
    {digits digits' resource resource' front : Word}

theorem numeral_no_dot (h : Numeral digits) : '.' ∉ digits := fun hdot => nomatch h '.' hdot

/-- The text before the number tells the family and the instance. -/
theorem front_inj : ∀ inst ∈ family.instances, ∀ inst' ∈ family'.instances,
    (family.word ++ inst ++ family.kind).toList = (family'.word ++ inst' ++ family'.kind).toList →
    family = family' ∧ inst = inst' := by
  cases family <;> cases family' <;> decide

theorem Spelled.unique (h : Spelled family inst digits resource)
    (h' : Spelled family' inst' digits' resource) :
    family = family' ∧ inst = inst' ∧ digits = digits' := by
  obtain ⟨hfront, hdigits⟩ :=
    behind_last (numeral_no_dot h.numeral) (numeral_no_dot h'.numeral)
      (h.spelling.symm.trans h'.spelling)
  obtain ⟨hfamily, hinst⟩ := front_inj inst h.known inst' h'.known hfront
  exact ⟨hfamily, hinst, hdigits⟩

theorem numberBehind_eq_some :
    numberBehind front resource = some digits ↔ resource = front ++ digits ∧ digits ≠ [] ∧
    Numeral digits := by
  simp only [numberBehind, Option.ite_none_right_eq_some, List.all_eq_true, Option.some.injEq]
  constructor
  · rintro ⟨⟨hfront, hsome, hnumeral⟩, rfl⟩
    refine ⟨?_, hsome, hnumeral⟩
    conv => lhs; rw [← List.take_append_drop front.length resource, hfront]
  · rintro ⟨rfl, hsome, hnumeral⟩
    rw [List.take_left, List.drop_left]
    exact ⟨⟨rfl, hsome, hnumeral⟩, rfl⟩

/-- A search for what stands with one entry only. -/
theorem findSome?_only {α β : Type} {f : α → Option β} {l : List α} {a : α} {b : β}
    (honly : ∀ a ∈ l, ∀ a' ∈ l, (f a).isSome → (f a').isSome → a = a') :
    l.findSome? (fun a => (f a).map fun b => (a, b)) = some (a, b) ↔ a ∈ l ∧ f a = some b := by
  constructor
  · intro hfound
    obtain ⟨a', ha', hmap⟩ := List.exists_of_findSome?_eq_some hfound
    obtain ⟨b', hb', heq⟩ := Option.map_eq_some_iff.mp hmap
    cases heq
    exact ⟨ha', hb'⟩
  · rintro ⟨ha, hb⟩
    have hsome : (l.findSome? fun a => (f a).map fun b => (a, b)).isSome := by
      rw [List.findSome?_isSome_iff]
      exact ⟨a, ha, by rw [hb, Option.map_some, Option.isSome_some]⟩
    obtain ⟨found, hfound⟩ := Option.isSome_iff_exists.mp hsome
    obtain ⟨a', ha', hmap⟩ := List.exists_of_findSome?_eq_some hfound
    obtain ⟨b', hb', rfl⟩ := Option.map_eq_some_iff.mp hmap
    obtain rfl := honly a ha a' ha' (Option.isSome_of_eq_some hb) (Option.isSome_of_eq_some hb')
    cases hb.symm.trans hb'
    exact hfound

theorem find_eq_some : family.find resource = some (inst, digits) ↔
    Spelled family inst digits resource := by
  have hspelled : ∀ inst ∈ family.instances, (numberBehind (family.front inst) resource).isSome →
      ∃ digits, Spelled family inst digits resource := by
    intro inst hinst hsome
    obtain ⟨digits, hbehind⟩ := Option.isSome_iff_exists.mp hsome
    obtain ⟨hspelling, hnonempty, hnumeral⟩ := numberBehind_eq_some.mp hbehind
    exact ⟨digits, hinst, hspelling, hnonempty, hnumeral⟩
  rw [Family.find, findSome?_only, numberBehind_eq_some]
  · exact ⟨fun ⟨hinst, hspelling, hnonempty, hnumeral⟩ => ⟨hinst, hspelling, hnonempty, hnumeral⟩,
      fun h => ⟨h.known, h.spelling, h.nonempty, h.numeral⟩⟩
  · intro inst hinst inst' hinst' hsome hsome'
    obtain ⟨_, h⟩ := hspelled inst hinst hsome
    obtain ⟨_, h'⟩ := hspelled inst' hinst' hsome'
    exact (h.unique h').2.1

theorem firstMatch_eq_some {families : List Family} :
    firstMatch families resource = some (family, inst, digits) ↔
    family ∈ families ∧ Spelled family inst digits resource := by
  rw [firstMatch, findSome?_only, find_eq_some]
  intro family _ family' _ hsome hsome'
  obtain ⟨⟨_, _⟩, hfound⟩ := Option.isSome_iff_exists.mp hsome
  obtain ⟨⟨_, _⟩, hfound'⟩ := Option.isSome_iff_exists.mp hsome'
  exact ((find_eq_some.mp hfound).unique (find_eq_some.mp hfound')).1

/-- What is accepted names something. -/
theorem valid_iff : valid resource = true ↔ ∃ p, Names resource p := by
  rw [valid, Bool.or_eq_true, decide_eq_true_eq, Option.isSome_iff_exists]
  constructor
  · rintro (⟨⟨family, inst, digits⟩, hmatch⟩ | hperipheral)
    · exact ⟨_, .numbered (firstMatch_eq_some.mp hmatch).2⟩
    · exact ⟨_, .peripheral hperipheral⟩
  · rintro ⟨p, hnames⟩
    cases hnames with
    | @numbered family inst digits _ h =>
      refine Or.inl ⟨(family, inst, digits), firstMatch_eq_some.mpr ⟨?_, h⟩⟩
      cases family <;> decide
    | peripheral h => exact Or.inr h

/-! ## Two spellings -/

/-- Two spellings that differ at most in the zeros before their number. -/
def OnlyZeros (resource resource' : Word) : Prop :=
  ∃ front m n back, Numeral back ∧ resource = front ++ ['.'] ++ (zeros m ++ back) ∧
    resource' = front ++ ['.'] ++ (zeros n ++ back)

theorem peripherals_no_dot : ∀ name ∈ peripherals, '.' ∉ name := by decide

theorem OnlyZeros.dot (h : OnlyZeros resource resource') : '.' ∈ resource ∧ '.' ∈ resource' := by
  obtain ⟨front, m, n, back, _, rfl, rfl⟩ := h
  have hdot : ∀ digits : Word, '.' ∈ front ++ ['.'] ++ digits := fun digits =>
    List.mem_append_left _ (List.mem_append_right _ (List.mem_singleton_self _))
  exact ⟨hdot _, hdot _⟩

/-- The zeros make no difference to what is named. -/
theorem OnlyZeros.names {p p' : Physical} (h : OnlyZeros resource resource')
    (hnames : Names resource p) (hnames' : Names resource' p') : p = p' := by
  cases hnames with
  | peripheral hperipheral => exact absurd h.dot.1 (peripherals_no_dot _ hperipheral)
  | @numbered family inst digits _ hspelled =>
    cases hnames' with
    | peripheral hperipheral => exact absurd h.dot.2 (peripherals_no_dot _ hperipheral)
    | @numbered family' inst' digits' _ hspelled' =>
      obtain ⟨front, m, n, back, hback, hresource, hresource'⟩ := h
      -- The last dot of both spellings is the one before their number.
      have hzeros : ∀ count, '.' ∉ zeros count ++ back := fun count =>
        numeral_no_dot (numeral_append.mpr ⟨numeral_zeros count, hback⟩)
      obtain ⟨hfront, hdigits⟩ :=
        behind_last (numeral_no_dot hspelled.numeral) (hzeros m)
          (hspelled.spelling.symm.trans hresource)
      obtain ⟨hfront', hdigits'⟩ :=
        behind_last (numeral_no_dot hspelled'.numeral) (hzeros n)
          (hspelled'.spelling.symm.trans hresource')
      obtain ⟨rfl, rfl⟩ :=
        front_inj inst hspelled.known inst' hspelled'.known (hfront.trans hfront'.symm)
      rw [hdigits, hdigits', number_zeros, number_zeros]

/-- Only the zeros can differ where one thing is named twice. -/
theorem names_onlyZeros {p : Physical} (hnames : Names resource p) (hnames' : Names resource' p) :
    resource = resource' ∨ OnlyZeros resource resource' := by
  cases hnames with
  | peripheral =>
    cases hnames'
    exact Or.inl rfl
  | @numbered family inst digits _ hspelled =>
    generalize hnumber : number digits = index at hnames'
    cases hnames' with
    | @numbered _ _ digits' _ hspelled' =>
      obtain ⟨m, n, back, rfl, rfl⟩ := (number_eq_iff hspelled.numeral hspelled'.numeral).mp hnumber
      have hback : Numeral back := (numeral_append.mp hspelled.numeral).2
      exact Or.inr ⟨_, m, n, back, hback, hspelled.spelling, hspelled'.spelling⟩

end

/-! ## The identifiers -/

section
variable {resource resource' : Word}

/-- The characters of the spellings. -/
def plain (c : Char) : Bool := c.isLower || c.isDigit || c == '.'

/-- Those they begin with. -/
def initials : List Char := ['a', 'c', 'd', 'e', 'g', 'p', 'r', 't']

def wellSpelled (text : Word) : Bool := text.all plain && text.head?.any initials.contains

theorem wellSpelled_iff {text : Word} :
    wellSpelled text = true ↔ (∀ c ∈ text, plain c = true) ∧ ∃ c ∈ initials,
      text.head? = some c := by
  rw [wellSpelled, Bool.and_eq_true, List.all_eq_true, Option.any_eq_true]
  refine and_congr_right' ⟨?_, ?_⟩
  · rintro ⟨c, hfirst, hc⟩
    exact ⟨c, List.contains_iff_mem.mp hc, hfirst⟩
  · rintro ⟨c, hc, hfirst⟩
    exact ⟨c, hfirst, List.contains_iff_mem.mpr hc⟩

theorem front_wellSpelled (family : Family) :
    ∀ inst ∈ family.instances, wellSpelled (family.front inst) = true := by
  cases family <;> decide

theorem peripherals_wellSpelled : ∀ name ∈ peripherals, wellSpelled name = true := by decide

theorem valid_plain (h : valid resource = true) :
    (∀ c ∈ resource, plain c = true) ∧ ∃ c ∈ initials, resource.head? = some c := by
  obtain ⟨p, hnames⟩ := valid_iff.mp h
  cases hnames with
  | peripheral hperipheral => exact wellSpelled_iff.mp (peripherals_wellSpelled _ hperipheral)
  | @numbered family inst digits _ hspelled =>
    obtain ⟨hplain, c, hc, hfirst⟩ :=
      wellSpelled_iff.mp (front_wellSpelled family inst hspelled.known)
    have hdigits : ∀ c ∈ digits, plain c = true := fun c hc => by
      rw [plain, hspelled.numeral c hc, Bool.or_true, Bool.true_or]
    rw [hspelled.spelling]
    exact ⟨List.forall_mem_append.mpr ⟨hplain, hdigits⟩, c, hc,
      by rw [List.head?_append, hfirst, Option.some_or]⟩

theorem initials_not_digit : (initials.all fun c => !c.isDigit) = true := by decide

/-- The dot of an underscore. -/
def unescape (c : Char) : Char := if c = '_' then '.' else c

theorem unescape_plain {c : Char} (h : plain c = true) :
    unescape (if c.isAlphanum then c else '_') = c := by
  have hunderscore : '_'.isLower = false ∧ '_'.isDigit = false := by decide
  simp only [plain, Bool.or_eq_true, beq_iff_eq] at h
  rcases h with (hlower | hdigit) | rfl
  · have halphanum : c.isAlphanum = true := by
      show (c.isUpper || c.isLower || c.isDigit) = true
      rw [hlower, Bool.or_true, Bool.true_or]
    rw [if_pos halphanum]
    refine if_neg fun hc => ?_
    rw [hc, hunderscore.1] at hlower
    exact Bool.false_ne_true hlower
  · have halphanum : c.isAlphanum = true := by
      show (c.isUpper || c.isLower || c.isDigit) = true
      rw [hdigit, Bool.or_true]
    rw [if_pos halphanum]
    refine if_neg fun hc => ?_
    rw [hc, hunderscore.2] at hdigit
    exact Bool.false_ne_true hdigit
  · rfl

/-- Only the dots are replaced. -/
theorem makeCIdentifier_unescape (h : valid resource = true) :
    (makeCIdentifier resource).map unescape = resource := by
  obtain ⟨hplain, c, hc, hfirst⟩ := valid_plain h
  have hletter : c.isDigit = false :=
    Bool.not_eq_true' _ ▸ List.all_eq_true.mp initials_not_digit c hc
  rw [makeCIdentifier, hfirst, Option.any_some, hletter, if_neg Bool.false_ne_true,
    List.nil_append, List.map_map]
  exact (List.map_congr_left fun c hc => unescape_plain (hplain c hc)).trans (List.map_id _)

theorem makeCIdentifier_inj (h : valid resource = true) (h' : valid resource' = true)
    (hidentifier : makeCIdentifier resource = makeCIdentifier resource') : resource =
      resource' := by
  rw [← makeCIdentifier_unescape h, hidentifier, makeCIdentifier_unescape h']

theorem mem_joined {c : Char} {items : List Word} (h : c ∈ joined items) :
    c = ';' ∨ ∃ item ∈ items, c ∈ item := by
  induction items with
  | nil => nomatch h
  | cons item items ih =>
    cases items with
    | nil => exact Or.inr ⟨item, List.mem_singleton_self _,
      by rwa [joined, List.intercalate_singleton] at h⟩
    | cons next items =>
      rw [joined, List.intercalate_cons_cons, List.mem_append, List.mem_append,
        List.mem_singleton] at h
      rcases h with (hitem | hsep) | hrest
      · exact Or.inr ⟨item, List.mem_cons_self, hitem⟩
      · exact Or.inl hsep
      · exact (ih hrest).imp_right fun ⟨other, hother, hc⟩ =>
          ⟨other, List.mem_cons_of_mem _ hother, hc⟩

/-- What is false for `if()` begins with another letter, or has capitals. -/
theorem initials_not_off {c : Char} {rest : Word} (hc : c ∈ initials)
    (hcapital : 'D' ∉ c :: rest) : isOff (c :: rest) = false := by
  have hconstants : (initials.all fun c =>
      (["", "0", "N", "NO", "OFF", "FALSE", "IGNORE"].map String.toList).all fun value =>
      value.head? != some c.toUpper) = true := by decide
  simp only [isOff, Bool.or_eq_false_iff, decide_eq_false_iff_not]
  refine ⟨⟨?_, ?_⟩, ?_⟩
  · rw [← Bool.not_eq_true, List.contains_iff_mem]
    intro hvalue
    have hother := List.all_eq_true.mp (List.all_eq_true.mp hconstants c hc) _ hvalue
    exact bne_iff_ne.mp hother rfl
  · intro hvalue
    exact hcapital (hvalue ▸ by decide)
  · rw [← Bool.not_eq_true, List.isSuffixOf_iff_suffix]
    exact fun hsuffix => hcapital (hsuffix.subset (by decide))

/-- The list of the keys is false only where there are none. -/
theorem joined_off {keys : List Word} (hvalid : ∀ key ∈ keys, valid key = true) :
    isOff (joined keys) = true ↔ keys = [] := by
  constructor
  · intro hoff
    cases keys with
    | nil => rfl
    | cons key keys =>
      -- The list begins with the first letter of a key and holds no capitals.
      obtain ⟨_, c, hc, hfirst⟩ := valid_plain (hvalid key List.mem_cons_self)
      obtain ⟨rest, rfl⟩ := List.head?_eq_some_iff.mp hfirst
      have hcapital : 'D' ∉ joined ((c :: rest) :: keys) := by
        intro hD
        rcases mem_joined hD with hsep | ⟨item, hitem, hD⟩
        · exact absurd hsep (by decide)
        · exact absurd ((valid_plain (hvalid item hitem)).1 'D' hD) (by decide)
      rw [joined, List.intercalate_cons_cons_left] at hoff hcapital
      exact nomatch hoff.symm.trans (initials_not_off hc hcapital)
  · rintro rfl
    decide

end

/-! ## The bits -/

section
variable {family : Family} {inst : String} {index : Nat} {resource : Word}

theorem names_numbered : Names resource (.numbered family inst index) ↔
    ∃ digits, Spelled family inst digits resource ∧ number digits = index := by
  constructor
  · generalize hp : Physical.numbered family inst index = p
    intro hnames
    cases hnames with
    | numbered h =>
      cases hp
      exact ⟨_, h, rfl⟩
    | peripheral => nomatch hp
  · rintro ⟨digits, hspelled, rfl⟩
    exact .numbered hspelled

/-- One turn sets the bit of what is named, and no other. -/
theorem addMask_testBit {masks : Masks} (hfamily : family ∈ maskFamilies) :
    (addMask masks resource family inst).testBit index = true ↔
      (masks family inst).testBit index = true ∨ Names resource (.numbered family inst index) := by
  rw [names_numbered, addMask]
  cases hmatch : firstMatch maskFamilies resource with
  | some captured =>
    obtain ⟨family', inst', digits'⟩ := captured
    have hspelled' := (firstMatch_eq_some.mp hmatch).2
    dsimp only
    split
    · rename_i hsame
      obtain ⟨rfl, rfl⟩ := hsame
      rw [Nat.testBit_or, Nat.one_shiftLeft, Nat.testBit_two_pow, Bool.or_eq_true,
        decide_eq_true_eq]
      refine or_congr_right ⟨fun hindex => ⟨digits', hspelled', hindex⟩, ?_⟩
      rintro ⟨digits, hspelled, rfl⟩
      rw [(hspelled.unique hspelled').2.2]
    · rename_i hother
      refine (or_iff_left ?_).symm
      rintro ⟨digits, hspelled, _⟩
      obtain ⟨hfamily', hinst', _⟩ := hspelled.unique hspelled'
      exact hother ⟨hfamily', hinst'⟩
  | none =>
    refine (or_iff_left ?_).symm
    rintro ⟨digits, hspelled, _⟩
    nomatch hmatch.symm.trans (firstMatch_eq_some.mpr ⟨hfamily, hspelled⟩)

theorem foldl_addMask_testBit {resources : List Word} {masks : Masks}
    (hfamily : family ∈ maskFamilies) :
    (resources.foldl addMask masks family inst).testBit index = true ↔
      (masks family inst).testBit index = true ∨ ∃ resource ∈ resources,
        Names resource (.numbered family inst index) := by
  induction resources generalizing masks with
  | nil => simp
  | cons resource resources ih =>
    rw [List.foldl_cons, ih, addMask_testBit hfamily]
    simp only [List.mem_cons, exists_eq_or_imp, or_assoc]

/-- The bits of a mask are the numbers claimed. -/
theorem masksOf_testBit {resources : List Word} (hfamily : family ∈ maskFamilies) :
    (masksOf resources family inst).testBit index = true ↔
      ∃ resource ∈ resources, Names resource (.numbered family inst index) := by
  rw [masksOf, foldl_addMask_testBit hfamily, Nat.zero_testBit]
  exact or_iff_right Bool.false_ne_true

theorem lookup_map {α β : Type} {key : α → String} {value : α → β} {l : List α} {a : α}
    (hkeys : (l.map key).Nodup) (ha : a ∈ l) :
    (l.map fun x => (key x, value x)).lookup (key a) = some (value a) := by
  induction l with
  | nil => nomatch ha
  | cons first rest ih =>
    obtain ⟨hfirst, hrest⟩ := List.nodup_cons.mp hkeys
    rw [List.map_cons, List.lookup_cons]
    rcases List.mem_cons.mp ha with rfl | ha
    · rw [beq_self_eq_true]
    · have hother : key a ≠ key first := fun heq => hfirst (heq ▸ List.mem_map_of_mem ha)
      rw [beq_eq_false_iff_ne.mpr hother]
      exact ih hrest ha

theorem maskKey_nodup : (reservedMasks.map maskKey).Nodup := by decide

theorem reservedMasks_families : ∀ mask ∈ reservedMasks, mask.1 ∈ maskFamilies := by decide

end

/-! ## A run of claims -/

section
variable {t t' : Target} {keys keys' claimed : List Word} {owner resource : Word}
    {state state' : Target × List Word}
    {target : String} {args : Arguments} {calls : List Arguments}

theorem claimResource_ok : claimResource owner (t, keys) resource = .ok state' ↔
    valid resource = true ∧ outOfRange resource = false ∧ isOff (t.owner resource) = true ∧
      state' = ({ t with owners := (makeCIdentifier resource, owner) :: t.owners },
        keys ++ [resource]) := by
  simp only [claimResource, bind_ok, raiseIf_ok, pure_ok, exists_const, Bool.not_eq_true,
    Bool.not_eq_false, eq_comm (b := state')]

/-- Behind the claims of `claimed`: the keys are those, each once, and just they have an owner. -/
structure Claims (state : Target × List Word) (claimed : List Word) : Prop where
  keys : ∀ resource, resource ∈ state.2 ↔ resource ∈ claimed
  nodup : claimed.Nodup
  valid : ∀ resource ∈ claimed, valid resource = true
  owned : ∀ resource, Resources.valid resource = true →
    (isOff (state.1.owner resource) = false ↔ resource ∈ claimed)

theorem owner_cons (resource' : Word) (t : Target) :
    Target.owner { t with owners := (makeCIdentifier resource', owner) :: t.owners } resource =
      if makeCIdentifier resource = makeCIdentifier resource' then owner else t.owner resource := by
  rw [Target.owner, List.lookup_cons]
  by_cases hsame : makeCIdentifier resource = makeCIdentifier resource'
  · rw [if_pos hsame, beq_iff_eq.mpr hsame]
    rfl
  · rw [if_neg hsame, beq_eq_false_iff_ne.mpr hsame]
    rfl

theorem Claims.claimResource (h : Claims state claimed) (howner : isOff owner = false)
    (hstep : claimResource owner state resource = .ok state') :
    Claims state' (claimed ++ [resource]) := by
  obtain ⟨t, keys⟩ := state
  obtain ⟨hvalid, _, hfree, rfl⟩ := claimResource_ok.mp hstep
  -- A claimed resource has an owner, and the step found none.
  have hnew : resource ∉ claimed := by
    intro hclaimed
    exact nomatch hfree.symm.trans ((h.owned resource hvalid).mpr hclaimed)
  constructor
  · intro r
    rw [List.mem_append, List.mem_append, h.keys]
  · exact List.nodup_append.mpr ⟨h.nodup, List.nodup_singleton _, fun r hr r' hr' heq =>
      hnew (List.mem_singleton.mp hr' ▸ heq ▸ hr)⟩
  · exact List.forall_mem_append.mpr ⟨h.valid, List.forall_mem_singleton.mpr hvalid⟩
  · intro r hr
    rw [owner_cons, List.mem_append, List.mem_singleton]
    by_cases hsame : makeCIdentifier r = makeCIdentifier resource
    · rw [if_pos hsame]
      exact iff_of_true howner (Or.inr (makeCIdentifier_inj hr hvalid hsame))
    · rw [if_neg hsame, h.owned r hr]
      exact (or_iff_left fun heq => hsame (congrArg makeCIdentifier heq)).symm

theorem Claims.loop {resources : List Word}
    (h : Claims state claimed) (howner : isOff owner = false)
    (hloop : resources.foldlM (Resources.claimResource owner) state = .ok state') :
    Claims state' (claimed ++ resources) := by
  induction resources generalizing state claimed with
  | nil =>
    obtain rfl := pure_ok.mp hloop
    rwa [List.append_nil]
  | cons resource resources ih =>
    rw [List.foldlM_cons] at hloop
    obtain ⟨next, hstep, hrest⟩ := bind_ok.mp hloop
    rw [List.append_cons]
    exact ih (h.claimResource howner hstep) hrest

/-- One call. -/
theorem nrfkitClaimResources_ok (h : nrfkitClaimResources target (some t) args = .ok t') :
    ∃ after resourceKeys,
    isOff args.owner = false ∧
      args.resources.foldlM (claimResource args.owner) (t, if isOff (joined t.resourceKeys) then []
        else t.resourceKeys) =
        .ok (after, resourceKeys) ∧
      t' = setMasks target after resourceKeys.eraseDups := by
  obtain ⟨_, _, hrest⟩ := bind_ok.mp h
  obtain ⟨_, hrequired, hrest⟩ := bind_ok.mp hrest
  obtain ⟨⟨after, resourceKeys⟩, hloop, hend⟩ := bind_ok.mp hrest
  refine ⟨after, resourceKeys, ?_, hloop, (pure_ok.mp hend).symm⟩
  rw [← Bool.not_eq_true]
  exact fun hoff => raiseIf_ok.mp hrequired (Or.inr (Or.inl hoff))

/-- Each mask has the bits of what was claimed. -/
def Reserved (t : Target) (claimed : List Word) : Prop :=
  ∀ mask ∈ reservedMasks, ∃ bits, t.reserved.lookup (maskKey mask) = some bits ∧
    ∀ index, bits.testBit index = true ↔
      ∃ resource ∈ claimed, Names resource (.numbered mask.1 mask.2 index)

theorem setMasks_reserved (h : ∀ resource, resource ∈ keys ↔ resource ∈ claimed) :
    Reserved (setMasks target t keys) claimed := by
  intro mask hmask
  refine ⟨_, lookup_map maskKey_nodup hmask, fun index => ?_⟩
  rw [masksOf_testBit (reservedMasks_families mask hmask)]
  exact exists_congr fun resource => and_congr_left' (h resource)

theorem Claims.call (h : Claims (t, t.resourceKeys) claimed)
    (hcall : nrfkitClaimResources target (some t) args = .ok t') :
    Claims (t', t'.resourceKeys) (claimed ++ args.resources) ∧
    Reserved t' (claimed ++ args.resources) := by
  obtain ⟨after, resourceKeys, howner, hloop, rfl⟩ := nrfkitClaimResources_ok hcall
  -- Only an empty list of keys counts as unset.
  have hkeys : (if isOff (joined t.resourceKeys) then [] else t.resourceKeys) = t.resourceKeys := by
    split
    · rename_i hoff
      exact ((joined_off fun key hkey => h.valid key ((h.keys key).mp hkey)).mp hoff).symm
    · rfl
  rw [hkeys] at hloop
  have hafter := h.loop howner hloop
  have hall : ∀ resource, resource ∈ resourceKeys.eraseDups ↔
      resource ∈ claimed ++ args.resources := fun resource =>
    List.mem_eraseDups.trans (hafter.keys resource)
  exact ⟨⟨hall, hafter.nodup, hafter.valid, hafter.owned⟩, setMasks_reserved hall⟩

/-- What some calls claim. -/
def claimedBy (calls : List Arguments) : List Word := calls.flatMap Arguments.resources

theorem Claims.run (h : Claims (t, t.resourceKeys) claimed)
    (hrun : claimAll target t calls = .ok t') :
    Claims (t', t'.resourceKeys) (claimed ++ claimedBy calls) ∧
    (calls ≠ [] → Reserved t' (claimed ++ claimedBy calls)) := by
  induction calls generalizing t claimed with
  | nil =>
    obtain rfl := pure_ok.mp hrun
    rw [claimedBy, List.flatMap_nil, List.append_nil]
    exact ⟨h, fun hnil => absurd rfl hnil⟩
  | cons args calls ih =>
    rw [claimAll, List.foldlM_cons] at hrun
    obtain ⟨next, hcall, hrest⟩ := bind_ok.mp hrun
    obtain ⟨hnext, hreserved⟩ := h.call hcall
    rw [claimedBy, List.flatMap_cons, ← List.append_assoc]
    refine ⟨(ih hnext hrest).1, fun _ => ?_⟩
    cases calls with
    | nil =>
      obtain rfl := pure_ok.mp hrest
      rwa [List.flatMap_nil, List.append_nil]
    | cons => exact (ih hnext hrest).2 (List.cons_ne_nil _ _)

/-! ## Exclusive claims -/

/-- Nothing is claimed twice. -/
def Exclusive (claimed : List Word) : Prop :=
  claimed.Pairwise fun resource resource' => ∀ p, Names resource p → ¬ Names resource' p

/-- No two claims differ only in the zeros before their number. -/
def Canonical (claimed : List Word) : Prop :=
  ∀ resource ∈ claimed, ∀ resource' ∈ claimed, OnlyZeros resource resource' → resource = resource'

theorem exclusive_iff (hnodup : claimed.Nodup)
    (hvalid : ∀ resource ∈ claimed, valid resource = true) :
    Exclusive claimed ↔ Canonical claimed := by
  constructor
  · intro hexclusive resource hresource resource' hresource' hzeros
    obtain ⟨p, hnames⟩ := valid_iff.mp (hvalid resource hresource)
    obtain ⟨p', hnames'⟩ := valid_iff.mp (hvalid resource' hresource')
    obtain rfl := hzeros.names hnames hnames'
    refine Decidable.byContradiction fun hne => ?_
    have : Std.Symm fun resource resource' => ∀ p, Names resource p → ¬ Names resource' p :=
      ⟨fun _ _ hdisjoint p hnames hnames' => hdisjoint p hnames' hnames⟩
    exact hexclusive.forall hresource hresource' hne p hnames hnames'
  · intro hcanonical
    refine hnodup.pairwise_of_forall_ne
      fun resource hresource resource' hresource' hne p hnames hnames' => hne ?_
    exact (names_onlyZeros hnames hnames').elim id
      (hcanonical resource hresource resource' hresource')

/-- A target nothing was claimed for. -/
def Unclaimed (t : Target) : Prop := t.resourceKeys = [] ∧ t.owners = []

theorem Unclaimed.claims (h : Unclaimed t) : Claims (t, t.resourceKeys) [] := by
  obtain ⟨hkeys, howners⟩ := h
  refine ⟨fun resource => by
    rw [hkeys], List.nodup_nil, List.forall_mem_nil _, fun resource _ => ?_⟩
  rw [Target.owner, howners]
  exact iff_of_false (fun hoff => nomatch hoff) List.not_mem_nil

/-- After each of the calls the claims are exclusive, and the masks those of the claims. -/
def Kept (target : String) (t : Target) (calls : List Arguments) : Prop :=
  ∀ n < calls.length, ∃ after, claimAll target t (calls.take (n + 1)) = .ok after ∧
    Exclusive (claimedBy (calls.take (n + 1))) ∧ Reserved after (claimedBy (calls.take (n + 1)))

theorem claimAll_take (hrun : claimAll target t calls = .ok t') (n : Nat) :
    ∃ after, claimAll target t (calls.take n) = .ok after := by
  rw [claimAll, ← List.take_append_drop n calls, List.foldlM_append] at hrun
  obtain ⟨after, hfront, _⟩ := bind_ok.mp hrun
  exact ⟨after, hfront⟩

/-- **Exclusive claims.** Where all calls succeed, they claim nothing twice just where no two
claims differ only in zeros. -/
theorem claims_exclusive (hfresh : Unclaimed t) (hrun : claimAll target t calls = .ok t') :
    Kept target t calls ↔ Canonical (claimedBy calls) := by
  constructor
  · intro hkept
    cases hcalls : calls.length with
    | zero =>
      rw [List.length_eq_zero_iff.mp hcalls]
      exact List.forall_mem_nil _
    | succ n =>
      obtain ⟨after, hafter, hexclusive, _⟩ := hkept n (hcalls ▸ Nat.lt_succ_self n)
      rw [← hcalls, List.take_length] at hafter hexclusive
      have hclaims := (hfresh.claims.run hafter).1
      exact (exclusive_iff hclaims.nodup hclaims.valid).mp hexclusive
  · intro hcanonical n hn
    obtain ⟨after, hafter⟩ := claimAll_take hrun (n + 1)
    obtain ⟨hclaims, hreserved⟩ := hfresh.claims.run hafter
    -- What the first calls claim is among what all of them do.
    have hsub : ∀ resource ∈ claimedBy (calls.take (n + 1)), resource ∈ claimedBy calls :=
      fun resource hresource => by
      obtain ⟨args, hargs, hresource⟩ := List.mem_flatMap.mp hresource
      exact List.mem_flatMap.mpr ⟨args, List.mem_of_mem_take hargs, hresource⟩
    refine ⟨after, hafter, (exclusive_iff hclaims.nodup hclaims.valid).mpr ?_, hreserved ?_⟩
    · exact fun r hr r' hr' => hcanonical r (hsub r hr) r' (hsub r' hr')
    · exact List.ne_nil_of_length_pos (by rw [List.length_take]; omega)

end

/-- Of one length two spellings do not differ in zeros. -/
theorem OnlyZeros.eq_of_length {resource resource' : Word} (h : OnlyZeros resource resource')
    (hlength : resource.length = resource'.length) : resource = resource' := by
  obtain ⟨front, m, n, back, _, rfl, rfl⟩ := h
  simp only [List.length_append, zeros, List.length_replicate] at hlength
  obtain rfl : m = n := by omega
  rfl

def executable : Target := { type := "EXECUTABLE" }

/-- Two owners, the second with two channels. -/
def twoOwners : List Arguments :=
  [{ owner := "radio".toList, resources := ["dppi10.channel.3".toList] },
    { owner := "usb".toList, resources := ["dppi10.channel.4".toList, "dppi20.channel.3".toList] }]

theorem claims_exclusive_two :
    (claimAll "app" executable twoOwners).isOk = true ∧ Kept "app" executable twoOwners := by
  have hlengths : ∀ resource ∈ claimedBy twoOwners, resource.length = 16 := by decide
  have hcanonical : Canonical (claimedBy twoOwners) :=
    fun resource hresource resource' hresource' hzeros =>
    hzeros.eq_of_length ((hlengths resource hresource).trans (hlengths resource' hresource').symm)
  exact ⟨rfl, (claims_exclusive ⟨rfl, rfl⟩ rfl).mpr hcanonical⟩

/-- A second owner gets the channel under another spelling. -/
def twoSpellings : List Arguments :=
  [{ owner := "first".toList, resources := ["dppi10.channel.1".toList] },
    { owner := "second".toList, resources := ["dppi10.channel.01".toList] }]

theorem claimed_twice :
    ¬ ∀ (target : String) (t t' : Target) (calls : List Arguments), Unclaimed t →
    claimAll target t calls = .ok t' → Kept target t calls := by
  intro hall
  obtain ⟨_, _, hexclusive, _⟩ := hall "app" executable _ twoSpellings ⟨rfl, rfl⟩ rfl 1 (by decide)
  -- Both are channel 1 of the instance.
  have hone : Names "dppi10.channel.1".toList (.numbered .dppiChannel "10" 1) :=
    names_numbered.mpr ⟨['1'], find_eq_some.mp rfl, rfl⟩
  have hother : Names "dppi10.channel.01".toList (.numbered .dppiChannel "10" 1) :=
    names_numbered.mpr ⟨['0', '1'], find_eq_some.mp rfl, rfl⟩
  exact (List.pairwise_cons.mp hexclusive).1 _ (List.mem_singleton_self _) _ hone hother

end NrfKit.Build.Resources
