import OvcReplay.Json.Loads

/-! # The values of decoded trees

What `json.loads` makes of a tree, and what is left of a record that was dumped and loaded: every
field is the value of the tree of what it was. Tuples become lists. -/

namespace OvcReplay

open List Python

namespace Json

/-- `float(text)` of the text of a number. -/
abbrev FloatOfText : Type := PyStr → PyFloat

variable (floatOf : FloatOfText)

mutual

/-- **The value `json.loads` builds.** -/
def value : Json → PyVal
  | .null => .none
  | .bool b => .bool b
  | .int z => .int z
  | .float t => .float (floatOf t)
  | .str s => .str s
  | .arr xs => .list (values xs)
  | .obj members => .dict (Dict.ofItems (items members))

/-- The values of an array. -/
def values : List Json → List PyVal
  | [] => []
  | x :: xs => value x :: values xs

/-- The items of an object. -/
def items : List (PyStr × Json) → List (PyKey × PyVal)
  | [] => []
  | (k, j) :: members => (.str k, value j) :: items members

end

theorem values_eq (xs : List Json) : values floatOf xs = xs.map (value floatOf) := by
  induction xs with
  | nil => rw [values, map_nil]
  | cons x xs ih => rw [values, map_cons, ih]

theorem items_eq (members : List (PyStr × Json)) :
    items floatOf members = members.map fun m => (PyKey.str m.1, value floatOf m.2) := by
  induction members with
  | nil => rw [items, map_nil]
  | cons m members ih => rw [items, map_cons, ih]

/-- `json.loads(json.dumps(v, sort_keys=True))`. -/
def roundTrip (P : Platform) (v : PyVal) : Except PyError PyVal := do
  let tree ← dumpsNan P v
  match parse tree.render with
  | .ok tree => .ok (tree.value floatOf)
  | .error _ => .error .valueError

variable {floatOf} {P : Platform}

/-- **What was dumped without floats is loaded from its tree.** -/
theorem roundTrip_ok {v w : PyVal} (hv : v.FloatFree) :
    roundTrip floatOf P v = .ok w ↔ ∃ j, dumpsNan P v = .ok j ∧ j.value floatOf = w := by
  rw [roundTrip, bind_ok]
  constructor
  · rintro ⟨j, hj, h⟩
    rw [(plain_of_dumpsWith hv hj).parse_render, Except.ok.injEq] at h
    exact ⟨j, hj, h⟩
  · rintro ⟨j, hj, rfl⟩
    refine ⟨j, hj, ?_⟩
    rw [(plain_of_dumpsWith hv hj).parse_render]

variable {nonFinite : PyFloat → Except PyError Json}

variable {j : Json}

theorem exists_members_of_dumpsWith {r : Record} (h : dumpsWith P nonFinite (.ofRecord r) = .ok j) :
    ∃ members, j = .obj members := by
  rw [dumpsWith_ofRecord, map_ok] at h
  obtain ⟨members, -, rfl⟩ := h
  exact ⟨members, rfl⟩

/-- **A field of a loaded record is the value of the tree of the field.** -/
theorem get?_value_of_dumpsWith (floatOf : FloatOfText) {r : Record} (hr : r.keys.Nodup)
    (h : dumpsWith P nonFinite (.ofRecord r) = .ok j) {k : PyStr} {v : PyVal}
    (hv : r.get? k = some v) :
    ∃ w, dumpsWith P nonFinite v = .ok w ∧ (j.value floatOf).get? k = some (w.value floatOf) := by
  obtain ⟨members, rfl⟩ := exists_members_of_dumpsWith h
  obtain ⟨w, hw, hmem⟩ := mem_of_dumpsWith_ofRecord h hv
  refine ⟨w, hw, ?_⟩
  have hkeys : (members.map Prod.fst).Nodup := by
    rw [keys_of_dumpsWith_ofRecord h]
    exact ((sortedBy_perm Prod.fst r).map Prod.fst).nodup_iff.mpr hr
  rw [value, PyVal.get?, items_eq]
  refine Dict.get?_ofItems_of_mem ?_ (mem_map.mpr ⟨(k, w), hmem, rfl⟩)
  rw [map_map]
  have hinj : Function.Injective PyKey.str := fun _ _ heq => PyKey.str.inj heq
  have hmapped := hkeys.map hinj
  rwa [map_map] at hmapped

/-- The keys of a loaded record are its fields. -/
theorem mem_keys_value_of_dumpsWith {r : Record} (h : dumpsWith P nonFinite (.ofRecord r) = .ok j)
    {loaded : List (PyKey × PyVal)} (hj : j.value floatOf = .dict loaded) {key : PyKey}
    (hkey : key ∈ Dict.keys loaded) :
    ∃ k ∈ Dict.keys r, key = .str k := by
  obtain ⟨members, rfl⟩ := exists_members_of_dumpsWith h
  rw [value, PyVal.dict.injEq, items_eq] at hj
  subst hj
  obtain ⟨v, hv⟩ := Option.isSome_iff_exists.mp (Dict.isSome_get?_iff.mpr hkey)
  obtain ⟨m, hm, heq⟩ := mem_map.mp (Dict.mem_of_get?_ofItems hv)
  have hfst : m.1 ∈ members.map Prod.fst := mem_map_of_mem hm
  rw [keys_of_dumpsWith_ofRecord h] at hfst
  refine ⟨m.1, ((sortedBy_perm Prod.fst r).map Prod.fst).mem_iff.mp hfst, ?_⟩
  exact (congrArg Prod.fst heq).symm

theorem value_of_dumpsWith_str {s : PyStr} (h : dumpsWith P nonFinite (.str s) = .ok j) :
    j.value floatOf = .str s := by
  rw [dumpsWith_str, Except.ok.injEq] at h
  rw [← h, value]

theorem value_of_dumpsWith_int {z : Int} (h : dumpsWith P nonFinite (.int z) = .ok j) :
    j.value floatOf = .int z := by
  rw [dumpsWith, map_ok] at h
  obtain ⟨-, -, rfl⟩ := h
  rw [value]

/-- A tuple is loaded as the list of what its members are loaded as. -/
theorem value_of_dumpsWith_tuple (floatOf : FloatOfText) {xs : List PyVal}
    (h : dumpsWith P nonFinite (.tuple xs) = .ok j) :
    ∃ js, xs.mapM (dumpsWith P nonFinite) = .ok js ∧
      j.value floatOf = .list (js.map (value floatOf)) := by
  rw [dumpsWith, dumpsList_eq, map_ok] at h
  obtain ⟨js, hjs, rfl⟩ := h
  exact ⟨js, hjs, by rw [value, values_eq]⟩

end Json

end OvcReplay
