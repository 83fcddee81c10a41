import OvcReplay.Json.Tree
import OvcReplay.Python.Platform
import OvcReplay.Python.Fallible
import OvcReplay.Python.Sorted

/-! # `json.dumps`

`json.dumps(v, sort_keys=True)` up to the text: the tree it writes. The keys of a dictionary are
sorted as they are, before they are turned into texts, so texts and numbers do not mix; values are
visited in the order of the sorted keys. With `allow_nan=False` a float that is not finite raises. -/

namespace OvcReplay

open List Python

namespace Json

variable (P : Platform) {β : Type}

/-- The key, when it is a text. -/
def keyStr? : PyKey → Option PyStr
  | .str s => some s
  | _ => none

/-- The key, when it is a number. -/
def keyInt? : PyKey → Option Int
  | .int z => some z
  | .bool b => some (if b then 1 else 0)
  | _ => none

/-- `sorted(d.items())`: keys that cannot be compared raise, unless there is nothing to compare. -/
def sortItems (items : List (PyKey × β)) : Except PyError (List (PyKey × β)) :=
  if items.all fun p => (keyStr? p.1).isSome then
    .ok (sortedBy (fun p => (keyStr? p.1).getD []) items)
  else if items.all fun p => (keyInt? p.1).isSome then
    .ok (sortedBy (fun p => (keyInt? p.1).getD 0) items)
  else if items.length ≤ 1 then .ok items
  else .error .typeError

/-- The text of a key of a JSON object. -/
def keyText : PyKey → Except PyError PyStr
  | .str s => .ok s
  | .none => .ok (py "null")
  | .bool true => .ok (py "true")
  | .bool false => .ok (py "false")
  | .int z => strInt z
  | .other _ => .error .typeError

/-- The members of an object, key before value. -/
def members : List (PyKey × Except PyError Json) → Except PyError (List (PyStr × Json))
  | [] => .ok []
  | (k, r) :: items => do
    let t ← keyText k
    let j ← r
    return (t, j) :: (← members items)

/-- `allow_nan=False`. -/
def refuseNonFinite : PyFloat → Except PyError Json := fun _ => .error .valueError

/-- `allow_nan=True`. -/
def nameNonFinite : PyFloat → Except PyError Json
  | .infinite false => .ok (.float (py "Infinity"))
  | .infinite true => .ok (.float (py "-Infinity"))
  | _ => .ok (.float (py "NaN"))

section

variable (nonFinite : PyFloat → Except PyError Json)

mutual

/-- **The tree `json.dumps` writes**, with the tree of a float that is not finite. -/
def dumpsWith : PyVal → Except PyError Json
  | .none => .ok .null
  | .bool b => .ok (.bool b)
  | .int z => (strInt z).map fun _ => .int z
  | .float (.finite n m e) => (P.reprText (.float (.finite n m e))).map fun t => .float t.1
  | .float x => nonFinite x
  | .decimal _ => .error .typeError
  | .str s => .ok (.str s)
  | .list xs => (dumpsList xs).map .arr
  | .tuple xs => (dumpsList xs).map .arr
  | .set _ => .error .typeError
  | .dict items => do
    let sorted ← sortItems (dumpsItems items)
    return .obj (← members sorted)
  | .other _ => .error .typeError

/-- The elements of an array. -/
def dumpsList : List PyVal → Except PyError (List Json)
  | [] => .ok []
  | x :: xs => do
    let j ← dumpsWith x
    return j :: (← dumpsList xs)

/-- The items of a dictionary with the trees of their values. -/
def dumpsItems : List (PyKey × PyVal) → List (PyKey × Except PyError Json)
  | [] => []
  | (k, v) :: items => (k, dumpsWith v) :: dumpsItems items

end

end

/-- The tree `json.dumps(v, sort_keys=True, allow_nan=False)` writes. -/
def dumps (v : PyVal) : Except PyError Json := dumpsWith P refuseNonFinite v

/-- The tree `json.dumps(v, sort_keys=True)` writes. -/
def dumpsNan (v : PyVal) : Except PyError Json := dumpsWith P nameNonFinite v

variable {nonFinite : PyFloat → Except PyError Json}

theorem dumpsItems_eq (items : List (PyKey × PyVal)) :
    dumpsItems P nonFinite items = items.map fun p => (p.1, dumpsWith P nonFinite p.2) := by
  induction items with
  | nil => simp [dumpsItems]
  | cons p items ih => simp [dumpsItems, ih]

theorem dumpsList_eq (xs : List PyVal) :
    dumpsList P nonFinite xs = xs.mapM (dumpsWith P nonFinite) := by
  induction xs with
  | nil => simp [dumpsList]; rfl
  | cons x xs ih => simp [dumpsList, ih, mapM_cons]

/-! ## Records -/

/-- Items whose keys are texts are sorted by these texts. -/
theorem sortItems_map_str (items : List (PyStr × β)) :
    sortItems (items.map fun p => (.str p.1, p.2)) =
      .ok ((sortedBy Prod.fst items).map fun p => (.str p.1, p.2)) := by
  have hall : (items.map fun p => (.str p.1, p.2)).all fun p => (keyStr? p.1).isSome := by
    simp [keyStr?]
  rw [sortItems, if_pos hall, sortedBy_map]
  rfl

theorem members_map_str (items : List (PyStr × Except PyError Json)) :
    members (items.map fun p => (.str p.1, p.2)) =
      items.mapM fun p => p.2.map fun j => (p.1, j) := by
  induction items with
  | nil => rfl
  | cons p items ih =>
    rw [map_cons, members, mapM_cons, ih]
    obtain ⟨k, r⟩ := p
    cases r <;> rfl

/-- **A record is written as the object of its members, sorted by their names.** -/
theorem dumpsWith_ofRecord (r : Record) : dumpsWith P nonFinite (PyVal.ofRecord r) =
      ((sortedBy Prod.fst r).mapM fun p =>
        (dumpsWith P nonFinite p.2).map fun j => (p.1, j)).map .obj := by
  have hitems : dumpsItems P nonFinite (r.map fun p => (PyKey.str p.1, p.2)) =
      (r.map fun p => (p.1, dumpsWith P nonFinite p.2)).map fun p => (PyKey.str p.1, p.2) := by
    rw [dumpsItems_eq, map_map, map_map]
    rfl
  rw [PyVal.ofRecord, dumpsWith, hitems, sortItems_map_str, sortedBy_map]
  simp only [bind, Except.bind]
  rw [members_map_str, mapM_map]
  rfl

theorem dumps_ofRecord (r : Record) : dumps P (.ofRecord r) =
      ((sortedBy Prod.fst r).mapM fun p => (dumps P p.2).map fun j => (p.1, j)).map .obj :=
  dumpsWith_ofRecord P r

theorem dumps_list (xs : List PyVal) : dumps P (.list xs) = (xs.mapM (dumps P)).map .arr := by
  rw [dumps, dumpsWith, dumpsList_eq]
  rfl

@[simp] theorem dumpsWith_str (s : PyStr) : dumpsWith P nonFinite (.str s) = .ok (.str s) := by
  simp [dumpsWith]

@[simp] theorem dumps_str (s : PyStr) : dumps P (.str s) = .ok (.str s) := dumpsWith_str P s

end Json

end OvcReplay
