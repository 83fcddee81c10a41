import OvcReplay.Json.Dumps
import OvcReplay.Json.Parse

/-! # Reading back what was dumped

`json.loads` builds Python values from the tree it decodes: an object becomes a dictionary in which
the last member of a name wins. What `json.dumps` writes for a value without floats is plain, so its
text determines its tree; what it writes for any value is legible where floats print as numbers. -/

namespace OvcReplay

open List Python

/-- A value that holds no float outside what `json.dumps` refuses. -/
inductive Python.PyVal.FloatFree : PyVal → Prop
  | none : FloatFree .none
  | bool (b : Bool) : FloatFree (.bool b)
  | int (z : Int) : FloatFree (.int z)
  | decimal (d : PyDecimal) : FloatFree (.decimal d)
  | str (s : PyStr) : FloatFree (.str s)
  | list {xs : List PyVal} (h : ∀ x ∈ xs, FloatFree x) : FloatFree (.list xs)
  | tuple {xs : List PyVal} (h : ∀ x ∈ xs, FloatFree x) : FloatFree (.tuple xs)
  | set (xs : List PyVal) : FloatFree (.set xs)
  | dict {items : List (PyKey × PyVal)} (h : ∀ p ∈ items, FloatFree p.2) : FloatFree (.dict items)
  | other (o : PyObject) : FloatFree (.other o)

namespace Json

variable {P : Platform}

theorem sortItems_perm {β : Type} {items sorted : List (PyKey × β)}
    (h : sortItems items = .ok sorted) : sorted.Perm items := by
  unfold sortItems at h
  split_ifs at h
  · exact Except.ok.inj h ▸ sortedBy_perm _ _
  · exact Except.ok.inj h ▸ sortedBy_perm _ _
  · exact Except.ok.inj h ▸ Perm.refl _

/-- The value of a member is the tree of an item. -/
theorem exists_mem_of_members {items : List (PyKey × Except PyError Json)}
    {ms : List (PyStr × Json)} (h : members items = .ok ms) {m : PyStr × Json} (hm : m ∈ ms) :
    ∃ p ∈ items, p.2 = .ok m.2 := by
  induction items generalizing ms with
  | nil =>
    cases h
    simp at hm
  | cons p items ih =>
    obtain ⟨k, r⟩ := p
    rw [members] at h
    simp only [bind_ok] at h
    obtain ⟨t, -, j, hj, ms', hms', h⟩ := h
    cases h
    rcases mem_cons.mp hm with rfl | hm
    · exact ⟨(k, r), by simp, hj⟩
    · obtain ⟨p, hp, hpm⟩ := ih hms' hm
      exact ⟨p, mem_cons_of_mem _ hp, hpm⟩

variable {nonFinite : PyFloat → Except PyError Json}

variable {v : PyVal} {j : Json}

/-- **A value without floats is dumped as a plain tree.** -/
theorem plain_of_dumpsWith (hv : v.FloatFree) (h : dumpsWith P nonFinite v = .ok j) : Plain j := by
  have hlist : ∀ {xs : List PyVal} {js : List Json},
      (∀ x ∈ xs, ∀ j, dumpsWith P nonFinite x = .ok j → Plain j) →
      dumpsList P nonFinite xs = .ok js → ∀ j ∈ js, Plain j := by
    intro xs js hxs hjs j hj
    rw [dumpsList_eq] at hjs
    obtain ⟨x, hx, hxj⟩ := mem_of_mapM_right hjs hj
    exact hxs x hx j hxj
  induction hv generalizing j with
  | none =>
    cases h
    exact .null
  | bool b =>
    cases h
    exact .bool b
  | int z =>
    rw [dumpsWith, map_ok] at h
    obtain ⟨t, ht, rfl⟩ := h
    exact .int (strInt_ok.mp ht).1
  | str s =>
    cases h
    exact .str s
  | list _ ih | tuple _ ih =>
    rw [dumpsWith] at h
    obtain ⟨js, hjs, rfl⟩ := map_ok.mp h
    exact .arr (hlist (fun x hx j => ih x hx) hjs)
  | dict _ ih =>
    rw [dumpsWith, bind_ok] at h
    obtain ⟨sorted, hsort, h⟩ := h
    rw [bind_ok] at h
    obtain ⟨ms, hms, h⟩ := h
    cases h
    refine .obj fun m hm => ?_
    obtain ⟨p, hp, hpm⟩ := exists_mem_of_members hms hm
    rw [(sortItems_perm hsort).mem_iff, dumpsItems_eq] at hp
    obtain ⟨q, hq, rfl⟩ := mem_map.mp hp
    exact ih q hq hpm
  | decimal | set | other => cases h

theorem plain_of_dumps (hv : v.FloatFree) (h : dumps P v = .ok j) : Plain j :=
  plain_of_dumpsWith hv h

/-- `float.__repr__` writes finite floats as numbers. -/
def PrintsFloats (P : Platform) : Prop :=
  ∀ negative mantissa exponent t,
    P.reprText (.float (.finite negative mantissa exponent)) = .ok t → FloatText t.1

/-- **With `allow_nan=False` every value is dumped as a legible tree.** -/
theorem legible_of_dumps (hP : PrintsFloats P) (h : dumps P v = .ok j) : Legible j := by
  have hlist : ∀ {xs : List PyVal} {js : List Json},
      (∀ x ∈ xs, ∀ j, dumps P x = .ok j → Legible j) →
      dumpsList P refuseNonFinite xs = .ok js → ∀ j ∈ js, Legible j := by
    intro xs js hxs hjs j hj
    rw [dumpsList_eq] at hjs
    obtain ⟨x, hx, hxj⟩ := mem_of_mapM_right hjs hj
    exact hxs x hx j hxj
  rw [dumps] at h
  induction v generalizing j with
  | none =>
    cases h
    exact .null
  | bool b =>
    cases h
    exact .bool b
  | int z =>
    rw [dumpsWith, map_ok] at h
    obtain ⟨t, ht, rfl⟩ := h
    exact .int (strInt_ok.mp ht).1
  | float x =>
    cases x with
    | finite negative mantissa exponent =>
      rw [dumpsWith, map_ok] at h
      obtain ⟨t, ht, rfl⟩ := h
      exact .float (hP negative mantissa exponent t ht)
    | infinite | nan => cases h
  | str s =>
    cases h
    exact .str s
  | list xs ih | tuple xs ih =>
    rw [dumpsWith] at h
    obtain ⟨js, hjs, rfl⟩ := map_ok.mp h
    exact .arr (hlist (fun x hx j => ih x hx) hjs)
  | dict items ih =>
    rw [dumpsWith, bind_ok] at h
    obtain ⟨sorted, hsort, h⟩ := h
    rw [bind_ok] at h
    obtain ⟨ms, hms, h⟩ := h
    cases h
    refine .obj fun m hm => ?_
    obtain ⟨p, hp, hpm⟩ := exists_mem_of_members hms hm
    rw [(sortItems_perm hsort).mem_iff, dumpsItems_eq] at hp
    obtain ⟨q, hq, rfl⟩ := mem_map.mp hp
    exact ih q hq hpm
  | decimal | set | other => cases h

/-! ## Records -/

variable {r : Record}

@[simp] theorem floatFree_ofRecord : (PyVal.ofRecord r).FloatFree ↔ ∀ p ∈ r, p.2.FloatFree := by
  constructor
  · intro h p hp
    cases h with
    | dict h => exact h (.str p.1, p.2) (mem_map_of_mem hp)
  · intro h
    refine .dict fun q hq => ?_
    obtain ⟨p, hp, rfl⟩ := mem_map.mp hq
    exact h p hp

@[simp] theorem floatFree_str (s : PyStr) : (PyVal.str s).FloatFree := .str s

@[simp] theorem floatFree_int (z : Int) : (PyVal.int z).FloatFree := .int z

variable {members : List (PyStr × Json)}

variable {k : PyStr}

/-- The tree of a field is a member of the tree of its record. -/
theorem mem_of_dumpsWith_ofRecord (h : dumpsWith P nonFinite (.ofRecord r) = .ok (.obj members))
    (hv : r.get? k = some v) : ∃ j, dumpsWith P nonFinite v = .ok j ∧ (k, j) ∈ members := by
  rw [dumpsWith_ofRecord, map_ok] at h
  obtain ⟨ms, hms, hobj⟩ := h
  obtain rfl : ms = members := by simpa using hobj
  obtain ⟨m, hm, hkm⟩ := mem_of_mapM_left hms (mem_sortedBy.mpr (Dict.mem_of_get? hv))
  obtain ⟨j, hj, rfl⟩ := map_ok.mp hkm
  exact ⟨j, hj, hm⟩

theorem keys_of_dumpsWith_ofRecord (h : dumpsWith P nonFinite (.ofRecord r) = .ok (.obj members)) :
    members.map Prod.fst = Dict.keys (sortedBy Prod.fst r) := by
  rw [dumpsWith_ofRecord, map_ok] at h
  obtain ⟨ms, hms, hobj⟩ := h
  obtain rfl : ms = members := by simpa using hobj
  rw [mapM_ok_iff] at hms
  clear hobj
  generalize sortedBy Prod.fst r = items at hms
  induction hms with
  | nil => rfl
  | cons hp _ ih =>
    obtain ⟨j, -, rfl⟩ := map_ok.mp hp
    simp [ih]

/-- **Records with one tree agree on every field they have.** -/
theorem dumpsWith_field_eq {r' : Record} (hr : r.keys.Nodup)
    (h : dumpsWith P nonFinite (.ofRecord r) = .ok j)
    (h' : dumpsWith P nonFinite (.ofRecord r') = .ok j) {v v' : PyVal}
    (hv : r.get? k = some v) (hv' : r'.get? k = some v') :
    dumpsWith P nonFinite v = dumpsWith P nonFinite v' := by
  obtain ⟨members, rfl⟩ : ∃ members, j = .obj members := by
    rw [dumpsWith_ofRecord, map_ok] at h
    obtain ⟨ms, -, rfl⟩ := h
    exact ⟨ms, rfl⟩
  obtain ⟨w, hw, hmem⟩ := mem_of_dumpsWith_ofRecord h hv
  obtain ⟨w', hw', hmem'⟩ := mem_of_dumpsWith_ofRecord h' hv'
  have hnd : (members.map Prod.fst).Nodup := by
    rw [keys_of_dumpsWith_ofRecord h]
    exact ((sortedBy_perm Prod.fst r).map Prod.fst).nodup_iff.mpr hr
  obtain rfl : w = w' :=
    (Prod.mk.inj (inj_on_of_nodup_map hnd hmem hmem' rfl)).2
  rw [hw, hw']

/-- Records without floats whose texts are equal agree on every field they have. -/
theorem dumpsWith_field_eq_of_render {r' : Record} (hr : r.keys.Nodup)
    (hfree : (PyVal.ofRecord r).FloatFree) (hfree' : (PyVal.ofRecord r').FloatFree) {j j' : Json}
    (h : dumpsWith P nonFinite (.ofRecord r) = .ok j)
    (h' : dumpsWith P nonFinite (.ofRecord r') = .ok j') (hrender : j.render = j'.render)
    {v v' : PyVal} (hv : r.get? k = some v) (hv' : r'.get? k = some v') :
    dumpsWith P nonFinite v = dumpsWith P nonFinite v' := by
  obtain rfl := Plain.render_inj (plain_of_dumpsWith hfree h) (plain_of_dumpsWith hfree' h') hrender
  exact dumpsWith_field_eq hr h h' hv hv'

end Json

end OvcReplay
