import Mathlib.Algebra.Order.Ring.Nat

/- The values `json.loads` gives, with Python's equality, order and access; what raises
   there carries Python's exception and text. Integers and floats are exact. -/
namespace Python

structure Raised where
  name : String
  text : String
  deriving DecidableEq, Repr

def Raised.message (e : Raised) : String := e.name ++ ": " ++ e.text

/-- The names of `OSError` and what is derived from it. -/
def osErrors : List String := ["OSError", "BlockingIOError", "ChildProcessError", "ConnectionError",
  "BrokenPipeError", "ConnectionAbortedError", "ConnectionRefusedError", "ConnectionResetError",
  "FileExistsError", "FileNotFoundError", "InterruptedError", "IsADirectoryError",
  "NotADirectoryError", "PermissionError", "ProcessLookupError", "TimeoutError", "SerialException"]

def isOSError (e : Raised) : Bool := osErrors.contains e.name

/-- `if bad: raise e`. -/
def raiseIf (bad : Prop) [Decidable bad] (e : Raised) : Except Raised Unit :=
  if bad then .error e else .ok ()

theorem raiseIf_ok {bad : Prop} [Decidable bad] {e : Raised}
    {u : Unit} : raiseIf bad e = .ok u ↔ ¬ bad := by
  unfold raiseIf
  split <;> simp [*]

/-- `if condition: act`. -/
def onlyIf (condition : Prop) [Decidable condition]
    (act : Except Raised Unit) : Except Raised Unit :=
  if condition then act else .ok ()

theorem onlyIf_ok {condition : Prop} [Decidable condition] {act : Except Raised Unit}
    (h : onlyIf condition act = .ok ()) (hcondition : condition) : act = .ok () := by
  rwa [onlyIf, if_pos hcondition] at h

theorem bind_ok {α β : Type} {x : Except Raised α} {f : α → Except Raised β} {b : β} :
    x >>= f = .ok b ↔ ∃ a, x = .ok a ∧ f a = .ok b := by
  cases x <;> simp [bind, Except.bind]

theorem pure_ok {α : Type} {a b : α} : (pure a : Except Raised α) = .ok b ↔ a = b := by
  simp [pure, Except.pure]

theorem mapM_mem {α β : Type} {f : α → Except Raised β} {inputs : List α} {outputs : List β}
    (h : inputs.mapM f = .ok outputs) {b : β} (hb : b ∈ outputs) : ∃ a ∈ inputs, f a = .ok b := by
  induction inputs generalizing outputs with
  | nil =>
    obtain rfl := pure_ok.mp h
    cases hb
  | cons a rest ih =>
    rw [List.mapM_cons] at h
    obtain ⟨b', hb', h⟩ := bind_ok.mp h
    obtain ⟨others, hothers, h⟩ := bind_ok.mp h
    obtain rfl := pure_ok.mp h
    rcases List.mem_cons.mp hb with rfl | hb
    · exact ⟨a, List.mem_cons_self .., hb'⟩
    · obtain ⟨x, hx, hfx⟩ := ih hothers hb
      exact ⟨x, List.mem_cons_of_mem _ hx, hfx⟩

theorem mapM_image {α β : Type} {f : α → Except Raised β} {inputs : List α} {outputs : List β}
    (h : inputs.mapM f = .ok outputs) {a : α} (ha : a ∈ inputs) : ∃ b ∈ outputs, f a = .ok b := by
  induction inputs generalizing outputs with
  | nil => cases ha
  | cons first rest ih =>
    rw [List.mapM_cons] at h
    obtain ⟨b, hb, h⟩ := bind_ok.mp h
    obtain ⟨others, hothers, h⟩ := bind_ok.mp h
    obtain rfl := pure_ok.mp h
    rcases List.mem_cons.mp ha with rfl | ha
    · exact ⟨b, List.mem_cons_self .., hb⟩
    · obtain ⟨x, hx, hfx⟩ := ih hothers ha
      exact ⟨x, List.mem_cons_of_mem _ hx, hfx⟩

/-- `items[k]`. -/
def nth {α : Type} (items : List α) (k : Nat) : Except Raised α :=
  match items[k]? with
  | some a => .ok a
  | none => .error ⟨"IndexError", "index out of range"⟩

theorem nth_ok {α : Type} {items : List α} {k : Nat} {a : α} :
    nth items k = .ok a ↔ items[k]? = some a := by
  unfold nth
  cases items[k]? <;> simp

theorem nth_getD {α : Type} {items : List α} {k : Nat} {a : α} (default : α)
    (h : nth items k = .ok a) :
    a = items.getD k default := by
  rw [List.getD_eq_getElem?_getD, nth_ok.mp h, Option.getD_some]

theorem nth_middle {α : Type} (front : List α) (a : α) (back : List α) {k : Nat}
    (h : front.length = k) :
    nth (front ++ a :: back) k = .ok a := by
  rw [nth_ok, ← h, List.getElem?_append_right (Nat.le_refl _), Nat.sub_self,
    List.getElem?_cons_zero]

theorem nth_drop {α : Type} (items : List α) (n k : Nat) :
    nth items (n + k) = nth (items.drop n) k := by
  rw [nth, nth, List.getElem?_drop]

/-- An item by what is left of the list a little before it. -/
theorem nth_behind {α : Type} {items front back : List α} {a : α} {n k : Nat}
    (h : items.drop n = front ++ a :: back)
    (hk : front.length = k) : nth items (n + k) = .ok a := by
  rw [nth_drop, h]
  exact nth_middle front a back hk

theorem nth_front {α : Type} {items back : List α} {a : α} {n : Nat}
    (h : items.drop n = a :: back) : nth items n = .ok a :=
  @nth_behind α items [] back a n 0 h rfl

/-- `bytes.decode("utf-8")`. -/
def decodeUtf8 (bytes : List UInt8) : Option String := String.fromUTF8? ⟨bytes.toArray⟩

/-! ## What is raised -/

/-- Nothing but exceptions of this kind is raised. -/
def Raises {α : Type} (kind : Raised → Prop) (x : Except Raised α) : Prop :=
  ∀ e, x = .error e → kind e

section
variable {α β : Type} {kind : Raised → Prop}

@[simp] theorem raises_ok (a : α) : Raises kind (.ok a) := nofun

@[simp] theorem raises_pure (a : α) : Raises kind (pure a) := nofun

@[simp] theorem raises_error {e : Raised} : Raises (α := α) kind (.error e) ↔
    kind e := by simp [Raises]

theorem Raises.bind {x : Except Raised α} {f : α → Except Raised β} (hx : Raises kind x)
    (hf : ∀ a, x = .ok a → Raises kind (f a)) : Raises kind (x >>= f) := by
  cases x with
  | error e =>
    intro e' h
    exact hx e' (by simpa [Bind.bind, Except.bind] using h)
  | ok a => exact hf a rfl

theorem raises_raiseIf {bad : Prop} [Decidable bad] {e : Raised}
    (h : kind e) : Raises kind (raiseIf bad e) := by
  unfold raiseIf
  split
  · exact raises_error.mpr h
  · exact raises_ok ()

theorem raises_nth {items : List α} {k : Nat}
    (h : k < items.length) : Raises kind (nth items k) := by
  rw [nth, List.getElem?_eq_getElem h]
  exact raises_ok _

end

/-- What `str.strip` takes off. -/
def isSpace (c : Char) : Bool :=
  (0x09 ≤ c.val ∧ c.val ≤ 0x0d) ∨ (0x1c ≤ c.val ∧ c.val ≤ 0x20) ∨ c.val = 0x85 ∨ c.val = 0xa0 ∨
  c.val = 0x1680 ∨
    (0x2000 ≤ c.val ∧ c.val ≤ 0x200a) ∨ c.val = 0x2028 ∨ c.val = 0x2029 ∨ c.val = 0x202f ∨
    c.val = 0x205f ∨ c.val = 0x3000

/-- `not text.strip()`. -/
def blank (text : String) : Bool := text.toList.all isSpace

/-- What the code computes with as floats. A literal, an integer and a quotient of integers
are rounded once, and an order with a NaN is false; the rationals are the exact instance. -/
class Number (F : Type) where
  ofRat : Rat → F
  less : F → F → Bool
  atMost : F → F → Bool
  isFinite : F → Bool
  text : F → String

instance : Number Rat where
  ofRat x := x
  less x y := x < y
  atMost x y := x ≤ y
  isFinite _ := true
  text := toString

namespace Number

@[simp] theorem ofRat_rat (x : Rat) : (ofRat x : Rat) = x := rfl

@[simp] theorem less_rat (x y : Rat) : less x y = decide (x < y) := rfl

@[simp] theorem atMost_rat (x y : Rat) : atMost x y = decide (x ≤ y) := rfl

@[simp] theorem isFinite_rat (x : Rat) : isFinite x = true := rfl

end Number

/-- A float by its exact value. -/
inductive Extended where
  | finite (value : Rat)
  | infinity (negative : Bool)
  | nan
  deriving DecidableEq

inductive Value where
  | none
  | bool (value : Bool)
  | int (value : Int)
  | float (value : Extended)
  | str (value : String)
  | list (items : List Value)
  | dict (fields : List (String × Value))

namespace Value

def typeName : Value → String
  | none => "NoneType"
  | bool _ => "bool"
  | int _ => "int"
  | float _ => "float"
  | str _ => "str"
  | list _ => "list"
  | dict _ => "dict"

def lookup (key : String) : List (String × Value) → Option Value
  | [] => .none
  | (k, v) :: rest => if k = key then some v else lookup key rest

/-- The integer a value counts as; `True` is 1. -/
def integer : Value → Option Int
  | bool b => some (if b then 1 else 0)
  | int n => some n
  | _ => .none

def numeric : Value → Option Extended
  | float x => some x
  | v => v.integer.map fun n => .finite n

/-- `==` of two numbers. -/
def eqNumber (v w : Value) : Bool :=
  match v.integer, w.integer with
  | some n, some m => n = m
  | _, _ =>
    match v.numeric, w.numeric with
    | some x, some y => x ≠ .nan ∧ x = y
    | _, _ => false

mutual

/-- `==`. -/
def eq : Value → Value → Bool
  | none, none => true
  | str s, str t => s = t
  | list xs, list ys => eqItems xs ys
  | dict xs, dict ys => xs.length = ys.length ∧ eqFields xs ys
  | v, w => eqNumber v w
  termination_by structural v => v

def eqItems : List Value → List Value → Bool
  | [], [] => true
  | x :: xs, y :: ys => eq x y && eqItems xs ys
  | _, _ => false
  termination_by structural xs => xs

def eqFields : List (String × Value) → List (String × Value) → Bool
  | [], _ => true
  | (key, v) :: xs, ys =>
    (match lookup key ys with
      | some w => eq v w
      | .none => false) && eqFields xs ys
  termination_by structural xs => xs

end

/-- The truth value. -/
def truthy : Value → Bool
  | none => false
  | bool b => b
  | int n => n ≠ 0
  | float x => x ≠ .finite 0
  | str s => s ≠ ""
  | list items => ¬ items.isEmpty
  | dict fields => ¬ fields.isEmpty

/-- `value[key]`. -/
def item (v : Value) (key : String) : Except Raised Value :=
  match v with
  | dict fields =>
    match lookup key fields with
    | some v => .ok v
    | .none => .error ⟨"KeyError", "'" ++ key ++ "'"⟩
  | list _ => .error ⟨"TypeError", "list indices must be integers or slices, not str"⟩
  | str _ => .error ⟨"TypeError", "string indices must be integers, not 'str'"⟩
  | v => .error ⟨"TypeError", "'" ++ v.typeName ++ "' object is not subscriptable"⟩

/-- `value.get(key, default)`. -/
def get (v : Value) (key : String) (default : Value) : Except Raised Value :=
  match v with
  | dict fields => .ok ((lookup key fields).getD default)
  | v => .error ⟨"AttributeError", "'" ++ v.typeName ++ "' object has no attribute 'get'"⟩

/-- What a `for` goes through. -/
def iterate : Value → Except Raised (List Value)
  | list items => .ok items
  | dict fields => .ok (fields.map fun field => str field.1)
  | str s => .ok (s.toList.map fun c => str c.toString)
  | v => .error ⟨"TypeError", "'" ++ v.typeName ++ "' object is not iterable"⟩

/-- `n <= value`. -/
def geInt (n : Int) : Value → Option Bool
  | float (.finite x) => some ((n : Rat) ≤ x)
  | float (.infinity negative) => some (¬ negative)
  | float .nan => some false
  | v => v.integer.map (n ≤ ·)

/-- `value <= n`. -/
def leInt (n : Int) : Value → Option Bool
  | float (.finite x) => some (x ≤ (n : Rat))
  | float (.infinity negative) => some negative
  | float .nan => some false
  | v => v.integer.map (· ≤ n)

/-- `value < n`. -/
def ltInt (n : Int) : Value → Option Bool
  | float (.finite x) => some (x < (n : Rat))
  | float (.infinity negative) => some negative
  | float .nan => some false
  | v => v.integer.map (· < n)

/-- `value > n`. -/
def gtInt (n : Int) : Value → Option Bool
  | float (.finite x) => some ((n : Rat) < x)
  | float (.infinity negative) => some (¬ negative)
  | float .nan => some false
  | v => v.integer.map (n < ·)

/-- `n >= value` where the value may be no number. -/
def atLeast (n : Int) (v : Value) : Except Raised Bool :=
  match v.leInt n with
  | some answer => .ok answer
  | .none => .error ⟨"TypeError", "'>=' not supported between instances of 'int' and '" ++
    v.typeName ++ "'"⟩

/-- `n <= value`. -/
def atMost (n : Int) (v : Value) : Except Raised Bool :=
  match v.geInt n with
  | some answer => .ok answer
  | .none => .error ⟨"TypeError", "'<=' not supported between instances of 'int' and '" ++
    v.typeName ++ "'"⟩

/-- `value < n` where the value may be no number. -/
def less (n : Int) (v : Value) : Except Raised Bool :=
  match v.ltInt n with
  | some answer => .ok answer
  | .none => .error ⟨"TypeError", "'<' not supported between instances of '" ++ v.typeName ++
    "' and 'int'"⟩

/-- `value > n`. -/
def greater (n : Int) (v : Value) : Except Raised Bool :=
  match v.gtInt n with
  | some answer => .ok answer
  | .none => .error ⟨"TypeError", "'>' not supported between instances of '" ++ v.typeName ++
    "' and 'int'"⟩

/-- `n < value` where the value may be no number. -/
def exceeds (n : Int) (v : Value) : Except Raised Bool :=
  match v.gtInt n with
  | some answer => .ok answer
  | .none => .error ⟨"TypeError", "'<' not supported between instances of 'int' and '" ++
    v.typeName ++ "'"⟩

/-- `a, b = value`. -/
def pair (v : Value) : Except Raised (Value × Value) :=
  match v.iterate with
  | .error _ => .error ⟨"TypeError", "cannot unpack non-iterable " ++ v.typeName ++ " object"⟩
  | .ok [a, b] => .ok (a, b)
  | .ok items =>
    if items.length < 2 then
      .error ⟨"ValueError", "not enough values to unpack (expected 2, got " ++
        toString items.length ++ ")"⟩
    else .error ⟨"ValueError", "too many values to unpack (expected 2)"⟩

/-! ## Lemmas -/

theorem leInt_mono {v : Value} {n m : Int} (h : v.leInt n = some true)
    (hnm : n ≤ m) : v.leInt m = some true := by
  cases v with
  | float x =>
    cases x with
    | finite x =>
      have hx : x ≤ (n : Rat) := by simpa [leInt] using h
      have hcast : (n : Rat) ≤ (m : Rat) := Rat.intCast_le_intCast.mpr hnm
      simpa [leInt] using Rat.le_trans hx hcast
    | infinity negative => exact h
    | nan => exact h
  | bool b =>
    simp only [leInt, integer, Option.map_some, Option.some.injEq, decide_eq_true_eq] at h ⊢
    omega
  | int k =>
    simp only [leInt, integer, Option.map_some, Option.some.injEq, decide_eq_true_eq] at h ⊢
    omega
  | none => exact h
  | str s => exact h
  | list items => exact h
  | dict fields => exact h

theorem geInt_mono {v : Value} {n m : Int} (h : v.geInt m = some true)
    (hnm : n ≤ m) : v.geInt n = some true := by
  cases v with
  | float x =>
    cases x with
    | finite x =>
      have hx : (m : Rat) ≤ x := by simpa [geInt] using h
      have hcast : (n : Rat) ≤ (m : Rat) := Rat.intCast_le_intCast.mpr hnm
      simpa [geInt] using Rat.le_trans hcast hx
    | infinity negative => exact h
    | nan => exact h
  | bool b =>
    simp only [geInt, integer, Option.map_some, Option.some.injEq, decide_eq_true_eq] at h ⊢
    omega
  | int k =>
    simp only [geInt, integer, Option.map_some, Option.some.injEq, decide_eq_true_eq] at h ⊢
    omega
  | none => exact h
  | str s => exact h
  | list items => exact h
  | dict fields => exact h

theorem eq_str {w : Value} {s : String} (h : (str s).eq w = true) : w = str s := by
  cases w <;> simp_all [eq, eqNumber, integer, numeric]

theorem eq_list {v : Value} {ws : List Value} (h : v.eq (list ws) = true) :
    ∃ items, v = list items ∧ eqItems items ws = true := by
  cases v <;> simp_all [eq, eqNumber, integer, numeric]

theorem list_eq {items : List Value} {w : Value} (h : (list items).eq w = true) :
    ∃ found, w = list found ∧ eqItems items found = true := by
  cases w <;> simp_all [eq, eqNumber, integer, numeric]

theorem int_eq {n m : Int} {w : Value} (h : (int n).eq w = true)
    (hw : w.integer = some m) : m = n := by
  cases w <;> simp_all [eq, eqNumber, integer, numeric]

theorem eqItems_cons {vs ws : List Value} {w : Value} (h : eqItems vs (w :: ws) = true) :
    ∃ v rest, vs = v :: rest ∧ v.eq w = true ∧ eqItems rest ws = true := by
  cases vs with
  | nil => simp [eqItems] at h
  | cons v rest =>
    rw [eqItems, Bool.and_eq_true] at h
    exact ⟨v, rest, rfl, h.1, h.2⟩

theorem eqItems_nil {vs : List Value} (h : eqItems vs [] = true) : vs = [] := by
  cases vs with
  | nil => rfl
  | cons v rest => simp [eqItems] at h

theorem eqItems_mem {vs ws : List Value} (h : eqItems vs ws = true) {v : Value}
    (hv : v ∈ vs) : ∃ w ∈ ws, v.eq w = true := by
  induction vs generalizing ws with
  | nil => cases hv
  | cons first rest ih =>
    cases ws with
    | nil => simp [eqItems] at h
    | cons w ws =>
      rw [eqItems, Bool.and_eq_true] at h
      rcases List.mem_cons.mp hv with rfl | hv
      · exact ⟨w, List.mem_cons_self .., h.1⟩
      · obtain ⟨x, hx, heq⟩ := ih h.2 hv
        exact ⟨x, List.mem_cons_of_mem _ hx, heq⟩

/-- A list equal to a pair of integers in a list. -/
theorem eq_pairs {v : Value} {m n : Int} (h : v.eq (list [list [int m, int n]]) = true) :
    ∃ p q, v = list [list [p, q]] ∧ p.eq (int m) = true ∧ q.eq (int n) = true := by
  obtain ⟨items, rfl, hitems⟩ := eq_list h
  obtain ⟨x, rest, rfl, hx, hrest⟩ := eqItems_cons hitems
  obtain rfl := eqItems_nil hrest
  obtain ⟨fields, rfl, hfields⟩ := eq_list hx
  obtain ⟨p, rest, rfl, hp, hrest⟩ := eqItems_cons hfields
  obtain ⟨q, rest, rfl, hq, hrest⟩ := eqItems_cons hrest
  obtain rfl := eqItems_nil hrest
  exact ⟨p, q, rfl, hp, hq⟩

/-- A value equal to an integer is in the order where the integer is. -/
theorem eq_int {v : Value} {n : Int} (h : v.eq (int n) = true) (a : Int) :
    v.leInt a = some (decide (n ≤ a)) ∧ v.geInt a = some (decide (a ≤ n)) := by
  cases v with
  | float x =>
    cases x with
    | finite x =>
      obtain rfl : x = (n : Rat) := by simpa [eq, eqNumber, integer, numeric] using h
      exact ⟨congrArg some (decide_eq_decide.mpr Rat.intCast_le_intCast),
        congrArg some (decide_eq_decide.mpr Rat.intCast_le_intCast)⟩
    | infinity negative => simp [eq, eqNumber, integer, numeric] at h
    | nan => simp [eq, eqNumber, integer, numeric] at h
  | bool b =>
    obtain rfl : (if b then 1 else 0) = n := by simpa [eq, eqNumber, integer, numeric] using h
    simp [leInt, geInt, integer]
  | int k =>
    obtain rfl : k = n := by simpa [eq, eqNumber, integer, numeric] using h
    simp [leInt, geInt, integer]
  | none => simp [eq, eqNumber, integer, numeric] at h
  | str s => simp [eq, eqNumber, integer, numeric] at h
  | list items => simp [eq, eqNumber, integer, numeric] at h
  | dict fields => simp [eq, eqNumber, integer, numeric] at h

theorem atLeast_ok {v : Value} {n : Int} {answer : Bool} :
    v.atLeast n = .ok answer ↔ v.leInt n = some answer := by
  unfold atLeast
  cases v.leInt n <;> simp

theorem atMost_ok {v : Value} {n : Int} {answer : Bool} :
    v.atMost n = .ok answer ↔ v.geInt n = some answer := by
  unfold atMost
  cases v.geInt n <;> simp

end Value

end Python
