import OvcReplay.Json.Values

/-! # Values that JSON keeps

Texts, truth values, integers that can be written, lists of them and records with sorted fields: what
`json.loads` reads of them is what `json.dumps` was given. A record whose fields are not sorted is
read with its fields sorted. -/

namespace OvcReplay

open List Python

namespace Python.Dict

universe u v

variable {κ : Type u} {β : Type v} [DecidableEq κ]

/-- A comprehension over distinct keys keeps its items in their order. -/
theorem ofItems_eq_self {items : List (κ × β)} (h : (items.map Prod.fst).Nodup) :
    ofItems items = items := by
  induction items using reverseRecOn with
  | nil => rfl
  | append_singleton items p ih =>
    rw [map_append, nodup_append] at h
    have hnew : p.1 ∉ Dict.keys items := fun hmem =>
      h.2.2 p.1 hmem p.1 (mem_singleton.mpr rfl) rfl
    have hrest : items.foldl (fun d q => set d q.1 q.2) [] = items := ih h.1
    rw [ofItems, foldl_append, hrest]
    exact set_eq_append p.2 hnew

/-- Dictionaries with the same items read the same. -/
theorem get?_of_perm {d e : Dict κ β} (hd : (keys d).Nodup) (h : Perm d e) (q : κ) :
    get? d q = get? e q := by
  have he : (keys e).Nodup := (h.map Prod.fst).nodup_iff.mp hd
  apply Option.ext
  intro v
  rw [get?_eq_some_iff hd, get?_eq_some_iff he, h.mem_iff]

end Python.Dict

namespace Json

/-- **A value that JSON keeps.** -/
inductive Stable : PyVal → Prop
  | none : Stable .none
  | bool (b : Bool) : Stable (.bool b)
  | int {z : Int} (h : z.natAbs < 10 ^ maxStrDigits) : Stable (.int z)
  | str (s : PyStr) : Stable (.str s)
  | list {xs : List PyVal} (h : ∀ x ∈ xs, Stable x) : Stable (.list xs)
  | record {r : Record} (hkeys : r.keys.Nodup)
      (hsorted : r.Pairwise fun p q => p.1 ≤ q.1) (h : ∀ p ∈ r, Stable p.2) :
      Stable (.ofRecord r)

theorem Stable.ofStr? (s : Option PyStr) : Stable (.ofStr? s) := by
  cases s with
  | none => exact .none
  | some s => exact .str s

theorem Stable.ofStrs (xs : List PyStr) : Stable (.ofStrs xs) := by
  refine .list fun x hx => ?_
  obtain ⟨s, -, rfl⟩ := mem_map.mp hx
  exact .str s

theorem Stable.floatFree {v : PyVal} (h : Stable v) : v.FloatFree := by
  induction h with
  | none => exact .none
  | bool b => exact .bool b
  | @int z _ => exact .int z
  | str s => exact .str s
  | list _ ih => exact .list ih
  | record _ _ _ ih => exact floatFree_ofRecord.mpr ih

variable {P : Platform} {nonFinite : PyFloat → Except PyError Json} {floatOf : FloatOfText}

/-- Trees of values one by one are read as the values. -/
theorem exists_trees {xs : List PyVal}
    (h : ∀ x ∈ xs, ∃ j, dumpsWith P nonFinite x = .ok j ∧ j.value floatOf = x) :
    ∃ js, xs.mapM (dumpsWith P nonFinite) = .ok js ∧ js.map (value floatOf) = xs := by
  induction xs with
  | nil => exact ⟨[], rfl, rfl⟩
  | cons x xs ih =>
    obtain ⟨j, hj, hval⟩ := h x (by simp)
    obtain ⟨js, hjs, hvals⟩ := ih fun y hy => h y (mem_cons_of_mem _ hy)
    refine ⟨j :: js, mapM_cons_ok.mpr ⟨j, js, hj, hjs, rfl⟩, ?_⟩
    rw [map_cons, hval, hvals]

variable {r : Record}

/-- Trees of fields one by one are read as the fields. -/
theorem exists_members
    (h : ∀ p ∈ r, ∃ j, dumpsWith P nonFinite p.2 = .ok j ∧ j.value floatOf = p.2) :
    ∃ members, r.mapM (fun p => (dumpsWith P nonFinite p.2).map fun j => (p.1, j)) = .ok members ∧
      items floatOf members = r.map fun p => (.str p.1, p.2) := by
  induction r with
  | nil => exact ⟨[], rfl, rfl⟩
  | cons p r ih =>
    obtain ⟨j, hj, hval⟩ := h p (by simp)
    obtain ⟨members, hmems, hitems⟩ := ih fun q hq => h q (mem_cons_of_mem _ hq)
    refine ⟨(p.1, j) :: members,
      mapM_cons_ok.mpr ⟨(p.1, j), members, map_ok.mpr ⟨j, hj, rfl⟩, hmems, rfl⟩, ?_⟩
    rw [items, hitems, hval, map_cons]

theorem nodup_strKeys (h : r.keys.Nodup) :
    ((r.map fun p => (PyKey.str p.1, p.2)).map Prod.fst).Nodup := by
  have hinj : Function.Injective PyKey.str := fun _ _ heq => PyKey.str.inj heq
  have hmapped := Nodup.map hinj h
  rw [Dict.keys, map_map] at hmapped
  rw [map_map]
  exact hmapped

/-- A record of values that are kept is read with its fields sorted. -/
theorem exists_tree_ofRecord (hkeys : r.keys.Nodup)
    (h : ∀ p ∈ r, ∃ j, dumpsWith P nonFinite p.2 = .ok j ∧ j.value floatOf = p.2) :
    ∃ j, dumpsWith P nonFinite (.ofRecord r) = .ok j ∧
      j.value floatOf = .ofRecord (sortedBy Prod.fst r) := by
  obtain ⟨members, hmems, hitems⟩ :=
    exists_members fun p (hp : p ∈ sortedBy Prod.fst r) => h p (mem_sortedBy.mp hp)
  refine ⟨.obj members, ?_, ?_⟩
  · rw [dumpsWith_ofRecord, hmems]
    rfl
  · have hsort : (Dict.keys (sortedBy Prod.fst r)).Nodup :=
      (((sortedBy_perm Prod.fst r).map Prod.fst).nodup_iff).mpr hkeys
    rw [value, hitems, Dict.ofItems_eq_self (nodup_strKeys hsort), PyVal.ofRecord]

/-- **A value that JSON keeps has a tree, which is read as the value.** -/
theorem Stable.exists_tree {v : PyVal} (h : Stable v) :
    ∃ j, dumpsWith P nonFinite v = .ok j ∧ j.value floatOf = v := by
  induction h with
  | none => exact ⟨.null, by rw [dumpsWith], by rw [value]⟩
  | bool b => exact ⟨.bool b, by rw [dumpsWith], by rw [value]⟩
  | @int z h =>
    refine ⟨.int z, ?_, by rw [value]⟩
    rw [dumpsWith, map_ok]
    exact ⟨intText z, strInt_ok.mpr ⟨h, rfl⟩, rfl⟩
  | str s => exact ⟨.str s, dumpsWith_str P s, by rw [value]⟩
  | list _ ih =>
    obtain ⟨js, hjs, hvals⟩ := exists_trees ih
    refine ⟨.arr js, ?_, by rw [value, values_eq, hvals]⟩
    rw [dumpsWith, dumpsList_eq, hjs]
    rfl
  | record hkeys hsort _ ih =>
    obtain ⟨j, hj, hval⟩ := exists_tree_ofRecord hkeys ih
    exact ⟨j, hj, by rw [hval, sortedBy_eq_self hsort]⟩

/-- **Through JSON a record of values that are kept is the record with its fields sorted.** -/
theorem roundTrip_ofRecord (hkeys : r.keys.Nodup) (h : ∀ p ∈ r, Stable p.2) :
    roundTrip floatOf P (.ofRecord r) = .ok (.ofRecord (sortedBy Prod.fst r)) :=
  (roundTrip_ok (floatFree_ofRecord.mpr fun p hp => (h p hp).floatFree)).mpr
    (exists_tree_ofRecord hkeys fun p hp => (h p hp).exists_tree)

end Json

end OvcReplay
