import OvcReplay.Json.Loads

/-! # Canonical serialization of C2E v0.2

`serialization.py`: the canonical bytes of a value, and the digests taken of them. Floats and
Decimals have no canonical bytes; what cannot be written or encoded is refused with one marker. -/

namespace OvcReplay.C2e

open List Python Json

/-- The exceptions of the C2E v0.2 modules, with their markers. -/
inductive Error where
  | python (e : PyError)
  | serialization (marker : PyStr)
  | model (marker : PyStr)
  | stream (marker : PyStr)
  | topology (marker : PyStr)
  | lifecycle (marker : PyStr)
  | persistence (marker : PyStr)
  | checkpoint (marker : PyStr)
  | sourceReplay (marker : PyStr)
  deriving DecidableEq, Repr

variable (P : Platform)

/-- The elements in the order of their keys. -/
def inKeyOrder (items : List (PyStr × Except Error PyVal)) :
    Except Error (List (PyStr × PyVal)) :=
  (sortedBy Prod.fst items).mapM fun p => p.2.map fun v => (p.1, v)

/-- `{k: v for k, v in items}`. -/
def dictOf (items : List (PyStr × PyVal)) : Record :=
  items.foldl (fun d p => d.set p.1 p.2) []

mutual

/-- `_canonicalize`. -/
def canonicalize : PyVal → Except Error PyVal
  | .dict items => do
    let keyed ← canonicalizeItems items
    return .ofRecord (dictOf (← inKeyOrder keyed))
  | .list xs => (canonicalizeList xs).map .list
  | .tuple xs => (canonicalizeList xs).map .list
  | .set xs => do
    let keyed ← canonicalizeMembers xs
    return .list ((← inKeyOrder keyed).map Prod.snd)
  | .decimal _ => .error (.serialization (py "DECIMAL_REQUIRES_FIELD_PRECISION_CONTRACT"))
  | .float _ => .error (.serialization (py "RUNTIME_FLOAT_IDENTITY_DENIED"))
  | v => .ok v

/-- The canonical elements of a list. -/
def canonicalizeList : List PyVal → Except Error (List PyVal)
  | [] => .ok []
  | x :: xs => do
    let y ← canonicalize x
    return y :: (← canonicalizeList xs)

/-- The items of a dictionary with the texts of their keys. -/
def canonicalizeItems : List (PyKey × PyVal) → Except Error (List (PyStr × Except Error PyVal))
  | [] => .ok []
  | (k, v) :: items => do
    let t ← (k.strOf).mapError .python
    return (t, canonicalize v) :: (← canonicalizeItems items)

/-- The members of a set with the texts they are sorted by. -/
def canonicalizeMembers : List PyVal → Except Error (List (PyStr × Except Error PyVal))
  | [] => .ok []
  | x :: xs => do
    let t ← (P.dumpsDefault x).mapError .python
    return (t, canonicalize x) :: (← canonicalizeMembers xs)

end

/-- The tree that is written for a value. -/
def canonicalTree (v : PyVal) : Except Error Json := do
  let c ← canonicalize P v
  (dumps P c).mapError .python

/-- What `canonical_bytes` raises for `e`: its own exceptions pass, type and value errors do not. -/
def nonCanonical : Error → Error
  | .python e =>
    if e.isTypeOrValueError then .serialization (py "NON_CANONICAL_JSON_VALUE") else .python e
  | e => e

/-- `canonical_bytes`. -/
def canonicalBytes (v : PyVal) : Except Error PyStr :=
  Except.mapError nonCanonical do
    let j ← canonicalTree P v
    (encodeUtf8 j.render).mapError .python

/-- `sha256_hex`. -/
def sha256Hex (v : PyVal) : Except Error PyStr :=
  (canonicalBytes P v).map fun s => (P.sha256 s).text

/-- `digest`: `length` hexadecimal digits behind a prefix. -/
def digest (pre : PyStr) (v : PyVal) (length : Nat) : Except Error PyStr :=
  (sha256Hex P v).map fun h => pre ++ py "." ++ h.take length

/-- `logical_record_hash`: every field but the hash itself. -/
def logicalRecordHash (record : Record) : Except Error PyStr :=
  sha256Hex P (.ofRecord (record.filter fun p => p.1 ≠ py "logical_hash"))

/-- `logical_stream_hash`: the concatenated lines, hashed at once. -/
def logicalStreamHash (records : List Record) : Except Error PyStr := do
  let lines ← records.mapM fun r => canonicalBytes P (.ofRecord r)
  return (P.sha256 (lines.flatMap fun line => line ++ py "\n")).text

/-! ## What has canonical bytes -/

/-- The value has canonical bytes. -/
def Canonical (v : PyVal) : Prop := Returns (canonicalBytes P v)

instance (v : PyVal) : Decidable (Canonical P v) := inferInstanceAs (Decidable (Returns _))

variable {v : PyVal} {s : PyStr}

theorem canonicalBytes_ok :
    canonicalBytes P v = .ok s ↔ ∃ j, canonicalTree P v = .ok j ∧ j.render = s ∧ Encodable s := by
  rw [canonicalBytes, mapError_ok, bind_ok]
  refine exists_congr fun j => and_congr_right fun _ => ?_
  rw [mapError_ok, encodeUtf8_ok]
  constructor
  · rintro ⟨h, rfl⟩
    exact ⟨rfl, h⟩
  · rintro ⟨rfl, h⟩
    exact ⟨h, rfl⟩

theorem canonical_iff : Canonical P v ↔ ∃ j, canonicalTree P v = .ok j ∧ Encodable j.render := by
  constructor
  · rintro ⟨s, hs⟩
    obtain ⟨j, hj, rfl, henc⟩ := (canonicalBytes_ok P).mp hs
    exact ⟨j, hj, henc⟩
  · rintro ⟨j, hj, henc⟩
    exact ⟨j.render, (canonicalBytes_ok P).mpr ⟨j, hj, rfl, henc⟩⟩

@[simp] theorem canonicalTree_str (s : PyStr) : canonicalTree P (.str s) = .ok (.str s) := by
  simp [canonicalTree, canonicalize, bind, Except.bind, Except.mapError]

/-- **A text has canonical bytes iff it can be encoded.** -/
@[simp] theorem canonical_str (s : PyStr) : Canonical P (.str s) ↔ Encodable s := by
  simp [canonical_iff]

theorem canonicalizeList_eq (xs : List PyVal) : canonicalizeList P xs = xs.mapM (canonicalize P) := by
  induction xs with
  | nil => simp [canonicalizeList]; rfl
  | cons x xs ih => simp [canonicalizeList, ih, mapM_cons]

variable {j : Json}

/-- The tree of a list is the array of the trees of its elements. -/
theorem canonicalTree_list {xs : List PyVal} :
    canonicalTree P (.list xs) = .ok j ↔ ∃ js, j = .arr js ∧ xs.mapM (canonicalTree P) = .ok js := by
  have hdumps : ∀ (ys : List PyVal) (js : List Json), ys.mapM (dumps P) = .ok js ↔
      (ys.mapM fun y => (dumps P y).mapError Error.python) = .ok js := by
    intro ys js
    simp only [mapM_ok_iff, mapError_ok]
  rw [canonicalTree, bind_ok, canonicalize, canonicalizeList_eq]
  unfold canonicalTree
  simp only [← mapM_mapM_ok]
  constructor
  · rintro ⟨v, hv, hj⟩
    obtain ⟨ys, hys, rfl⟩ := map_ok.mp hv
    rw [mapError_ok, dumps_list] at hj
    obtain ⟨js, hjs, rfl⟩ := map_ok.mp hj
    exact ⟨js, rfl, ys, hys, (hdumps ys js).mp hjs⟩
  · rintro ⟨js, rfl, ys, hys, hjs⟩
    refine ⟨.list ys, map_ok.mpr ⟨ys, hys, rfl⟩, ?_⟩
    rw [mapError_ok, dumps_list]
    exact map_ok.mpr ⟨js, (hdumps ys js).mpr hjs, rfl⟩

/-- **A list has canonical bytes iff its elements have them.** -/
theorem canonical_list (xs : List PyVal) : Canonical P (.list xs) ↔ ∀ x ∈ xs, Canonical P x := by
  simp only [canonical_iff, canonicalTree_list]
  constructor
  · rintro ⟨_, ⟨js, rfl, hjs⟩, henc⟩ x hx
    obtain ⟨j, hj, hxj⟩ := mem_of_mapM_left hjs hx
    exact ⟨j, hxj, (encodable_render_arr js).mp henc j hj⟩
  · intro h
    have hret : Returns (xs.mapM (canonicalTree P)) := by
      rw [returns_mapM]
      intro x hx
      obtain ⟨j, hj, -⟩ := h x hx
      exact ⟨j, hj⟩
    obtain ⟨js, hjs⟩ := hret
    refine ⟨.arr js, ⟨js, rfl, hjs⟩, (encodable_render_arr js).mpr fun j hj => ?_⟩
    obtain ⟨x, hx, hxj⟩ := mem_of_mapM_right hjs hj
    obtain ⟨j', hj', henc⟩ := h x hx
    exact Except.ok.inj (hxj ▸ hj') ▸ henc

/-- A list of texts has canonical bytes iff every text can be encoded. -/
@[simp] theorem canonical_ofStrs (xs : List PyStr) :
    Canonical P (PyVal.ofStrs xs) ↔ ∀ x ∈ xs, Encodable x := by
  simp [PyVal.ofStrs, canonical_list]

/-! ## Records -/

theorem canonicalizeItems_map_str (r : Record) :
    canonicalizeItems P (r.map fun p => (.str p.1, p.2)) =
      .ok (r.map fun p => (p.1, canonicalize P p.2)) := by
  induction r with
  | nil => simp [canonicalizeItems]
  | cons p r ih =>
    rw [map_cons, canonicalizeItems, ih]
    rfl

variable {r : Record}

theorem dictOf_eq_self (hr : r.keys.Nodup) : dictOf r = r := by
  have h : ∀ d : Record, (Dict.keys (d ++ r)).Nodup →
      r.foldl (fun d p => d.set p.1 p.2) d = d ++ r := by
    clear hr
    induction r with
    | nil => simp
    | cons p r ih =>
      intro d hd
      have hfresh : p.1 ∉ d.keys := by
        intro hmem
        rw [Dict.keys, map_append, nodup_append] at hd
        exact hd.2.2 p.1 hmem p.1 (by simp) rfl
      rw [foldl_cons, Dict.set_eq_append _ hfresh, ih _ (by simpa using hd)]
      simp
  simpa [dictOf] using h [] (by simpa using hr)

theorem keys_eq_of_mapM {α : Type} {f : PyVal → Except Error α} {r' : Dict PyStr α}
    (h : (r.mapM fun p => (f p.2).map fun v => (p.1, v)) = .ok r') :
    r'.keys = r.keys := by
  rw [mapM_ok_iff] at h
  induction h with
  | nil => rfl
  | cons hp _ ih =>
    obtain ⟨v, -, rfl⟩ := map_ok.mp hp
    simp [ih]

theorem nodup_keys_sortedBy (hr : r.keys.Nodup) : (Dict.keys (sortedBy Prod.fst r)).Nodup :=
  ((sortedBy_perm Prod.fst r).map Prod.fst).nodup_iff.mpr hr

theorem canonicalize_ofRecord (r : Record) : canonicalize P (PyVal.ofRecord r) =
      ((sortedBy Prod.fst r).mapM fun p => (canonicalize P p.2).map fun v => (p.1, v)).map
        fun items => PyVal.ofRecord (dictOf items) := by
  rw [PyVal.ofRecord, canonicalize, canonicalizeItems_map_str]
  have horder : inKeyOrder (r.map fun p => (p.1, canonicalize P p.2)) =
      (sortedBy Prod.fst r).mapM fun p => (canonicalize P p.2).map fun v => (p.1, v) := by
    rw [inKeyOrder, sortedBy_map, mapM_map]
    rfl
  simp only [bind, Except.bind, horder]
  cases ((sortedBy Prod.fst r).mapM fun p => (canonicalize P p.2).map fun v => (p.1, v)) <;> rfl

/-- **The tree of a record**: the trees of its fields, sorted by their names. -/
theorem canonicalTree_ofRecord (hr : r.keys.Nodup) :
    canonicalTree P (.ofRecord r) = .ok j ↔ ∃ ms, j = .obj ms ∧
        ((sortedBy Prod.fst r).mapM fun p => (canonicalTree P p.2).map fun t => (p.1, t)) =
          .ok ms := by
  -- the items `canonicalize` returns are already sorted, so `dumps` visits them in their order
  have hitems : ∀ items : Record,
      ((sortedBy Prod.fst r).mapM fun p => (canonicalize P p.2).map fun v => (p.1, v)) = .ok items →
      dumps P (.ofRecord (dictOf items)) =
        (items.mapM fun p => (dumps P p.2).map fun t => (p.1, t)).map .obj := by
    intro items h
    have hkeys := keys_eq_of_mapM h
    have hsort : items.Pairwise fun a b => a.1 ≤ b.1 := by
      have hp := (sortedBy_pairwise Prod.fst r).map (S := (· ≤ ·)) Prod.fst fun _ _ hab => hab
      rw [← Dict.keys, ← hkeys, Dict.keys, pairwise_map] at hp
      exact hp
    rw [dictOf_eq_self (hkeys ▸ nodup_keys_sortedBy hr), dumps_ofRecord, sortedBy_eq_self hsort]
  have hcomp : ∀ p : PyStr × PyVal,
      ((canonicalTree P p.2).map fun t => (p.1, t)) =
        ((canonicalize P p.2).map fun v => (p.1, v)) >>= fun q : PyStr × PyVal =>
          ((dumps P q.2).mapError Error.python).map fun t => (q.1, t) := by
    intro p
    rw [canonicalTree]
    cases canonicalize P p.2 <;> rfl
  have hdumps : ∀ (items : Record) (ms : List (PyStr × Json)),
      (items.mapM fun p => (dumps P p.2).map fun t => (p.1, t)) = .ok ms ↔
        (items.mapM fun p => ((dumps P p.2).mapError Error.python).map fun t => (p.1, t)) =
          .ok ms := by
    intro items ms
    simp only [mapM_ok_iff, map_ok, mapError_ok]
  simp only [hcomp, ← mapM_mapM_ok]
  rw [canonicalTree, bind_ok, canonicalize_ofRecord]
  constructor
  · rintro ⟨v, hv, hj⟩
    obtain ⟨items, h, rfl⟩ := map_ok.mp hv
    rw [mapError_ok, hitems items h] at hj
    obtain ⟨ms, hms, rfl⟩ := map_ok.mp hj
    exact ⟨ms, rfl, items, h, (hdumps items ms).mp hms⟩
  · rintro ⟨ms, rfl, items, h, hms⟩
    refine ⟨_, map_ok.mpr ⟨items, h, rfl⟩, ?_⟩
    rw [mapError_ok, hitems items h]
    exact map_ok.mpr ⟨ms, (hdumps items ms).mpr hms, rfl⟩

/-- **A record has canonical bytes iff its field names can be encoded and its values have them.** -/
theorem canonical_ofRecord (hr : r.keys.Nodup) :
    Canonical P (.ofRecord r) ↔ ∀ p ∈ r, Encodable p.1 ∧ Canonical P p.2 := by
  have hmem : ∀ p, p ∈ sortedBy Prod.fst r ↔ p ∈ r := fun p => mem_sortedBy
  simp only [canonical_iff, canonicalTree_ofRecord P hr]
  constructor
  · rintro ⟨_, ⟨ms, rfl, hms⟩, henc⟩ p hp
    rw [encodable_render_obj] at henc
    obtain ⟨m, hm, hpm⟩ := mem_of_mapM_left hms ((hmem p).mpr hp)
    obtain ⟨t, ht, rfl⟩ := map_ok.mp hpm
    exact ⟨(henc _ hm).1, t, ht, (henc _ hm).2⟩
  · intro h
    have hret : Returns ((sortedBy Prod.fst r).mapM fun p =>
        (canonicalTree P p.2).map fun t => (p.1, t)) := by
      rw [returns_mapM]
      intro p hp
      obtain ⟨-, t, ht, -⟩ := h p ((hmem p).mp hp)
      rw [ht]
      exact returns_ok _
    obtain ⟨ms, hms⟩ := hret
    refine ⟨.obj ms, ⟨ms, rfl, hms⟩, (encodable_render_obj ms).mpr fun m hm => ?_⟩
    obtain ⟨p, hp, hpm⟩ := mem_of_mapM_right hms hm
    obtain ⟨t, ht, rfl⟩ := map_ok.mp hpm
    obtain ⟨hk, t', ht', henc⟩ := h p ((hmem p).mp hp)
    exact ⟨hk, Except.ok.inj (ht ▸ ht') ▸ henc⟩

/-! ## The text determines the tree -/

variable {P}

theorem exists_mem_of_dictOf {items : List (PyStr × PyVal)} {p : PyStr × PyVal}
    (hp : p ∈ dictOf items) : ∃ q ∈ items, q.2 = p.2 := by
  have hfold : ∀ d : Record, p ∈ items.foldl (fun d p => d.set p.1 p.2) d →
      p ∈ d ∨ ∃ q ∈ items, q.2 = p.2 := by
    clear hp
    induction items with
    | nil => exact fun d h => .inl h
    | cons q items ih =>
      intro d h
      rcases ih _ h with h | ⟨r, hr, hrp⟩
      · exact (Dict.mem_set h).symm.imp_right fun h => ⟨q, by simp [h]⟩
      · exact .inr ⟨r, mem_cons_of_mem _ hr, hrp⟩
  exact (hfold [] hp).resolve_left (by simp)

variable {keyed : List (PyStr × Except Error PyVal)}

theorem exists_mem_of_inKeyOrder {items : List (PyStr × PyVal)} (h : inKeyOrder keyed = .ok items)
    {p : PyStr × PyVal} (hp : p ∈ items) : ∃ q ∈ keyed, q.2 = .ok p.2 := by
  obtain ⟨q, hq, hqp⟩ := mem_of_mapM_right h hp
  obtain ⟨v, hv, rfl⟩ := map_ok.mp hqp
  exact ⟨q, mem_sortedBy.mp hq, hv⟩

variable {q : PyStr × Except Error PyVal}

theorem exists_mem_of_canonicalizeItems {items : List (PyKey × PyVal)}
    (h : canonicalizeItems P items = .ok keyed) (hq : q ∈ keyed) :
    ∃ p ∈ items, q.2 = canonicalize P p.2 := by
  induction items generalizing keyed with
  | nil =>
    cases h
    simp at hq
  | cons p items ih =>
    obtain ⟨k, v⟩ := p
    simp only [canonicalizeItems, bind_ok] at h
    obtain ⟨t, -, keyed', hkeyed, h⟩ := h
    cases h
    rcases mem_cons.mp hq with rfl | hq
    · exact ⟨(k, v), by simp, rfl⟩
    · obtain ⟨p, hp, hqp⟩ := ih hkeyed hq
      exact ⟨p, mem_cons_of_mem _ hp, hqp⟩

theorem exists_mem_of_canonicalizeMembers {xs : List PyVal}
    (h : canonicalizeMembers P xs = .ok keyed) (hq : q ∈ keyed) :
    ∃ x ∈ xs, q.2 = canonicalize P x := by
  induction xs generalizing keyed with
  | nil =>
    cases h
    simp at hq
  | cons x xs ih =>
    simp only [canonicalizeMembers, bind_ok] at h
    obtain ⟨t, -, keyed', hkeyed, h⟩ := h
    cases h
    rcases mem_cons.mp hq with rfl | hq
    · exact ⟨x, by simp, rfl⟩
    · obtain ⟨y, hy, hqy⟩ := ih hkeyed hq
      exact ⟨y, mem_cons_of_mem _ hy, hqy⟩

/-- Canonical values hold no floats. -/
theorem floatFree_of_canonicalize {c : PyVal} (h : canonicalize P v = .ok c) : c.FloatFree := by
  induction v generalizing c with
  | none => exact Except.ok.inj h ▸ .none
  | bool b => exact Except.ok.inj h ▸ .bool b
  | int z => exact Except.ok.inj h ▸ .int z
  | str s => exact Except.ok.inj h ▸ .str s
  | other o => exact Except.ok.inj h ▸ .other o
  | float x => cases h
  | decimal d => cases h
  | list xs ih | tuple xs ih =>
    rw [canonicalize, canonicalizeList_eq] at h
    obtain ⟨ys, hys, rfl⟩ := map_ok.mp h
    refine .list fun y hy => ?_
    obtain ⟨x, hx, hxy⟩ := mem_of_mapM_right hys hy
    exact ih x hx hxy
  | set xs ih =>
    rw [canonicalize, bind_ok] at h
    obtain ⟨keyed, hkeyed, h⟩ := h
    rw [bind_ok] at h
    obtain ⟨items, hitems, h⟩ := h
    cases h
    refine .list fun y hy => ?_
    obtain ⟨p, hp, rfl⟩ := mem_map.mp hy
    obtain ⟨q, hq, hqp⟩ := exists_mem_of_inKeyOrder hitems hp
    obtain ⟨x, hx, hqx⟩ := exists_mem_of_canonicalizeMembers hkeyed hq
    exact ih x hx (hqx.symm.trans hqp)
  | dict items ih =>
    rw [canonicalize, bind_ok] at h
    obtain ⟨keyed, hkeyed, h⟩ := h
    rw [bind_ok] at h
    obtain ⟨items', hitems, h⟩ := h
    cases h
    refine .dict fun p hp => ?_
    obtain ⟨r, hr, rfl⟩ := mem_map.mp hp
    obtain ⟨s, hs, hsr⟩ := exists_mem_of_dictOf hr
    obtain ⟨q, hq, hqs⟩ := exists_mem_of_inKeyOrder hitems hs
    obtain ⟨p, hp, hqp⟩ := exists_mem_of_canonicalizeItems hkeyed hq
    exact ih p hp (hqp.symm.trans (hqs.trans (congrArg Except.ok hsr)))

theorem plain_of_canonicalTree (h : canonicalTree P v = .ok j) : Plain j := by
  rw [canonicalTree, bind_ok] at h
  obtain ⟨c, hc, h⟩ := h
  exact plain_of_dumps (floatFree_of_canonicalize hc) (mapError_ok.mp h)

/-- **Values with the same canonical bytes have the same tree.** -/
theorem canonicalTree_eq_of_bytes {w : PyVal} (hv : canonicalBytes P v = .ok s)
    (hw : canonicalBytes P w = .ok s) : canonicalTree P v = canonicalTree P w := by
  obtain ⟨j, hj, hjs, -⟩ := (canonicalBytes_ok P).mp hv
  obtain ⟨k, hk, hks, -⟩ := (canonicalBytes_ok P).mp hw
  rw [hj, hk, (plain_of_canonicalTree hj).render_inj (plain_of_canonicalTree hk)
    (hjs.trans hks.symm)]

/-- **Records with one canonical tree agree on every field they have.** -/
theorem canonicalTree_field_eq {r r' : Record} (hr : r.keys.Nodup)
    (hr' : r'.keys.Nodup) (h : canonicalTree P (.ofRecord r) = .ok j)
    (h' : canonicalTree P (.ofRecord r') = .ok j) {k : PyStr} {v' : PyVal}
    (hv : r.get? k = some v) (hv' : r'.get? k = some v') :
    canonicalTree P v = canonicalTree P v' := by
  obtain ⟨ms, rfl, hms⟩ := (canonicalTree_ofRecord P hr).mp h
  obtain ⟨ms', heq, hms'⟩ := (canonicalTree_ofRecord P hr').mp h'
  obtain rfl : ms = ms' := Json.obj.inj heq
  obtain ⟨m, hm, hvm⟩ := mem_of_mapM_left hms (mem_sortedBy.mpr (Dict.mem_of_get? hv))
  obtain ⟨m', hm', hvm'⟩ := mem_of_mapM_left hms' (mem_sortedBy.mpr (Dict.mem_of_get? hv'))
  obtain ⟨t, ht, rfl⟩ := map_ok.mp hvm
  obtain ⟨t', ht', rfl⟩ := map_ok.mp hvm'
  have hnd : (ms.map Prod.fst).Nodup := by
    rw [← Dict.keys, keys_eq_of_mapM hms]
    exact nodup_keys_sortedBy hr
  obtain rfl : t = t' := (Prod.mk.inj (inj_on_of_nodup_map hnd hm hm' rfl)).2
  rw [ht, ht']

theorem canonicalTree_ofStrs (xs : List PyStr) :
    canonicalTree P (.ofStrs xs) = .ok (.arr (xs.map .str)) := by
  refine (canonicalTree_list P).mpr ⟨_, rfl, ?_⟩
  rw [mapM_map, mapM_ok_iff]
  induction xs with
  | nil => exact .nil
  | cons x xs ih => exact .cons (canonicalTree_str P x) ih

/-- Lists of texts with the same canonical bytes are equal. -/
theorem ofStrs_eq_of_bytes {xs ys : List PyStr}
    (hx : canonicalBytes P (.ofStrs xs) = .ok s) (hy : canonicalBytes P (.ofStrs ys) = .ok s) :
    xs = ys := by
  have htree := canonicalTree_eq_of_bytes hx hy
  rw [canonicalTree_ofStrs, canonicalTree_ofStrs, Except.ok.injEq, Json.arr.injEq] at htree
  exact map_injective_iff.mpr (fun _ _ h => Json.str.inj h) htree

end OvcReplay.C2e
