import OvcReplay.Python.Text
import OvcReplay.Python.Dict

/-! # Python values

The dynamically typed values the repository's functions receive as `Any` and `Mapping[str, Any]`:
the literals of the language, `decimal.Decimal`, lists, tuples, sets and dictionaries, and one
constructor for every object of another class. `=` is structural; it is `==` where one side is a
text. -/

namespace OvcReplay.Python

/-- An IEEE double: `± mantissa · 2 ^ exponent`, an infinity or not a number. -/
inductive PyFloat where
  | finite (negative : Bool) (mantissa : Nat) (exponent : Int)
  | infinite (negative : Bool)
  | nan
  deriving DecidableEq, Repr

/-- A `decimal.Decimal`: `± coefficient · 10 ^ exponent`, an infinity or not a number. -/
inductive PyDecimal where
  | finite (negative : Bool) (coefficient : Nat) (exponent : Int)
  | infinite (negative : Bool)
  | nan (negative signaling : Bool) (diagnostic : Nat)
  deriving DecidableEq, Repr

/-- An object of any other class; of it only its identity and whether it can be hashed matter. -/
structure PyObject where
  /-- Distinguishes objects. -/
  token : Nat
  /-- `hash(o)` returns. -/
  hashable : Bool
  deriving DecidableEq, Repr

/-- A dictionary key. -/
inductive PyKey where
  | str (s : PyStr)
  | none
  | bool (b : Bool)
  | int (z : Int)
  /-- A float, a Decimal, a tuple or another hashable object, with its `str()`. -/
  | other (text : PyStr)
  deriving DecidableEq, Repr

/-- A Python value. -/
inductive PyVal where
  | none
  | bool (b : Bool)
  | int (z : Int)
  | float (x : PyFloat)
  | decimal (d : PyDecimal)
  | str (s : PyStr)
  | list (xs : List PyVal)
  | tuple (xs : List PyVal)
  /-- The members in iteration order. -/
  | set (xs : List PyVal)
  | dict (items : List (PyKey × PyVal))
  | other (o : PyObject)
  deriving Repr

/-- A dictionary whose keys are texts: the `dict[str, Any]` of the repository's records. -/
abbrev Record : Type := Dict PyStr PyVal

namespace PyVal

/-- Induction over values: the members of a container come with their hypotheses. -/
@[elab_as_elim, induction_eliminator]
theorem induct {motive : PyVal → Prop} (none : motive .none) (bool : ∀ b, motive (.bool b))
    (int : ∀ z, motive (.int z)) (float : ∀ x, motive (.float x))
    (decimal : ∀ d, motive (.decimal d)) (str : ∀ s, motive (.str s))
    (list : ∀ xs, (∀ x ∈ xs, motive x) → motive (.list xs))
    (tuple : ∀ xs, (∀ x ∈ xs, motive x) → motive (.tuple xs))
    (set : ∀ xs, (∀ x ∈ xs, motive x) → motive (.set xs))
    (dict : ∀ items, (∀ p ∈ items, motive p.2) → motive (.dict items))
    (other : ∀ o, motive (.other o)) (v : PyVal) : motive v := by
  refine PyVal.rec (motive_1 := motive) (motive_2 := fun xs => ∀ x ∈ xs, motive x)
    (motive_3 := fun items => ∀ p ∈ items, motive p.2) (motive_4 := fun p => motive p.2)
    none bool int float decimal str list tuple set dict other ?_ ?_ ?_ ?_ ?_ v
  · simp
  · intro x xs hx hxs
    simpa using ⟨hx, hxs⟩
  · simp
  · intro p items hp hitems q hq
    rcases List.mem_cons.mp hq with rfl | hq
    · exact hp
    · exact hitems q hq
  · intro k v hv
    exact hv

/-! ## Structural equality -/

mutual

/-- Structural equality, as a Boolean. -/
def beq : PyVal → PyVal → Bool
  | .none, .none => true
  | .bool a, .bool b => a == b
  | .int a, .int b => a == b
  | .float a, .float b => a == b
  | .decimal a, .decimal b => a == b
  | .str a, .str b => a == b
  | .list xs, .list ys => beqList xs ys
  | .tuple xs, .tuple ys => beqList xs ys
  | .set xs, .set ys => beqList xs ys
  | .dict xs, .dict ys => beqItems xs ys
  | .other a, .other b => a == b
  | _, _ => false

/-- Structural equality of lists of values. -/
def beqList : List PyVal → List PyVal → Bool
  | [], [] => true
  | x :: xs, y :: ys => beq x y && beqList xs ys
  | _, _ => false

/-- Structural equality of lists of items. -/
def beqItems : List (PyKey × PyVal) → List (PyKey × PyVal) → Bool
  | [], [] => true
  | (k, x) :: xs, (l, y) :: ys => k == l && beq x y && beqItems xs ys
  | _, _ => false

end

theorem beqList_iff {xs : List PyVal} (ih : ∀ x ∈ xs, ∀ y, beq x y = true ↔ x = y) :
    ∀ ys, beqList xs ys = true ↔ xs = ys := by
  induction xs with
  | nil => intro ys; cases ys <;> simp [beqList]
  | cons x xs ihx =>
    intro ys
    cases ys with
    | nil => simp [beqList]
    | cons y ys =>
      simp [beqList, ih x (by simp), ihx (fun z hz => ih z (List.mem_cons_of_mem _ hz))]

theorem beqItems_iff {xs : List (PyKey × PyVal)} (ih : ∀ p ∈ xs, ∀ y, beq p.2 y = true ↔ p.2 = y) :
    ∀ ys, beqItems xs ys = true ↔ xs = ys := by
  induction xs with
  | nil => intro ys; cases ys <;> simp [beqItems]
  | cons p xs ihx =>
    intro ys
    obtain ⟨k, x⟩ := p
    cases ys with
    | nil => simp [beqItems]
    | cons q ys =>
      obtain ⟨l, y⟩ := q
      simp [beqItems, ih (k, x) (by simp),
        ihx (fun z hz => ih z (List.mem_cons_of_mem _ hz))]

/-- The Boolean equality decides equality. -/
theorem beq_iff (v w : PyVal) : beq v w = true ↔ v = w := by
  induction v generalizing w with
  | list xs ih | tuple xs ih | set xs ih => cases w <;> simp [beq, beqList_iff ih]
  | dict items ih => cases w <;> simp [beq, beqItems_iff ih]
  | _ => cases w <;> simp [beq]

instance : DecidableEq PyVal := fun v w => decidable_of_iff _ (beq_iff v w)

/-! ## Reading -/

/-- `hash(v)` returns, so `v` can be looked up in a set. -/
def hashable : PyVal → Bool
  | .list _ => false
  | .set _ => false
  | .dict _ => false
  | .tuple xs => hashableList xs
  | .other o => o.hashable
  | _ => true
where
  /-- A tuple is hashable when its members are. -/
  hashableList : List PyVal → Bool
    | [] => true
    | x :: xs => hashable x && hashableList xs

/-- `bool(v)`; of an object of another class it is true. -/
def truthy : PyVal → Bool
  | .none => false
  | .bool b => b
  | .int z => z != 0
  | .float (.finite _ mantissa _) => mantissa != 0
  | .decimal (.finite _ coefficient _) => coefficient != 0
  | .str s => !s.isEmpty
  | .list xs => !xs.isEmpty
  | .tuple xs => !xs.isEmpty
  | .set xs => !xs.isEmpty
  | .dict items => !items.isEmpty
  | _ => true

/-- `isinstance(v, Mapping)`. -/
def isMapping : PyVal → Bool
  | .dict _ => true
  | _ => false

/-- `v.get(k)` for a mapping; `none` when the key is absent. -/
def get? : PyVal → PyStr → Option PyVal
  | .dict items, k => Dict.get? items (.str k)
  | _, _ => .none

/-- `s in v`, with `none` where the operator is not defined. -/
def contains? : PyVal → PyStr → Option Bool
  | .list xs, s => some (decide (.str s ∈ xs))
  | .tuple xs, s => some (decide (.str s ∈ xs))
  | .set xs, s => some (decide (.str s ∈ xs))
  | .dict items, s => some (decide (.str s ∈ Dict.keys items))
  | .str t, s => some (decide (s <:+: t))
  | _, _ => .none

/-- The dictionary with the items of a record. -/
def ofRecord (r : Record) : PyVal := .dict (r.map fun p => (.str p.1, p.2))

variable (xs : List PyStr)

/-- The list of texts `xs`. -/
def ofStrs : PyVal := .list (xs.map .str)

@[simp] theorem ofStrs_ne_none : ofStrs xs ≠ .none := nofun

@[simp] theorem ofStrs_ne_str (s : PyStr) : ofStrs xs ≠ .str s := nofun

@[simp] theorem ofStrs_inj {xs ys : List PyStr} : ofStrs xs = ofStrs ys ↔ xs = ys := by
  rw [ofStrs, ofStrs, PyVal.list.injEq]
  exact (List.map_injective_iff.mpr fun _ _ h => PyVal.str.inj h).eq_iff

@[simp] theorem contains?_ofStrs (s : PyStr) :
    (ofStrs xs).contains? s = some (decide (s ∈ xs)) := by
  simp [ofStrs, contains?]

/-- `None` or a text. -/
def ofStr? : Option PyStr → PyVal
  | .none => .none
  | some s => .str s

theorem get?_map_str (r : Record) (k : PyStr) :
    Dict.get? (r.map fun p => (PyKey.str p.1, p.2)) (.str k) = Dict.get? r k := by
  induction r with
  | nil => rfl
  | cons p r ih =>
    obtain ⟨q, v⟩ := p
    by_cases h : q = k <;> simp [h, ih]

@[simp] theorem get?_ofRecord (r : Record) (k : PyStr) : (ofRecord r).get? k = Dict.get? r k :=
  get?_map_str r k

end PyVal

end OvcReplay.Python
