import OvcReplay.Esl.Canonical

/-! # The two encoders agree

What one encoder returns the other returns, for every value: they put the elements of an array in
the same order, at each place of the value. -/

namespace OvcReplay.Esl

open List Python Json SharedSystems

/-! ## Results that agree -/

section Agrees

variable {ε ε' : Type} {α β γ : Type}

/-- The same values are returned. -/
def Agrees (r : Except ε α) (r' : Except ε' α) : Prop := ∀ a, r = .ok a ↔ r' = .ok a

theorem Agrees.refl (r : Except ε α) : Agrees r r := fun _ => Iff.rfl

theorem Agrees.trans {ε'' : Type} {r : Except ε α} {r' : Except ε' α} {r'' : Except ε'' α}
    (h : Agrees r r') (h' : Agrees r' r'') : Agrees r r'' := fun a => (h a).trans (h' a)

theorem agrees_error (e : ε) (e' : ε') : Agrees (.error e : Except ε α) (.error e') :=
  fun _ => iff_of_false nofun nofun

theorem agrees_ok (a : α) : Agrees (.ok a : Except ε α) (.ok a : Except ε' α) := fun _ => by
  rw [Except.ok.injEq, Except.ok.injEq]

theorem agrees_bind {r : Except ε α} {r' : Except ε' α} {f : α → Except ε β} {f' : α → Except ε' β}
    (h : Agrees r r') (hf : ∀ a, r = .ok a → Agrees (f a) (f' a)) : Agrees (r >>= f) (r' >>= f') := by
  intro b
  rw [bind_ok, bind_ok]
  constructor
  · rintro ⟨a, ha, hb⟩
    exact ⟨a, (h a).mp ha, (hf a ha b).mp hb⟩
  · rintro ⟨a, ha, hb⟩
    exact ⟨a, (h a).mpr ha, (hf a ((h a).mpr ha) b).mpr hb⟩

theorem agrees_mapError {δ : Type} (r : Except δ α) (f : δ → ε) (f' : δ → ε') :
    Agrees (r.mapError f) (r.mapError f') := by
  intro a
  rw [mapError_ok, mapError_ok]

theorem agrees_check {p : Prop} [Decidable p] (e : ε) (e' : ε') :
    Agrees (check p e) (check p e') := by
  intro u
  rw [check_ok, check_ok]

theorem agrees_mapM {f : α → Except ε β} {f' : α → Except ε' β} {xs : List α}
    (h : ∀ x ∈ xs, Agrees (f x) (f' x)) : Agrees (xs.mapM f) (xs.mapM f') := by
  induction xs with
  | nil => exact agrees_ok []
  | cons x xs ih =>
    rw [mapM_cons, mapM_cons]
    refine agrees_bind (h x mem_cons_self) fun y _ => ?_
    refine agrees_bind (ih fun z hz => h z (mem_cons_of_mem _ hz)) fun ys _ => ?_
    exact agrees_ok _

end Agrees

/-! ## The order of arrays -/

variable {L : Language}

/-- The dimensions have the same ranks. -/
theorem get?_fixedDimensionOrder (name : PyStr) :
    Dict.get? fixedDimensionOrder name = dimensions.idxOf? name := by
  simp only [fixedDimensionOrder, dimensions, Dict.get?_cons, Dict.get?_nil, idxOf?,
    findIdx?_cons, findIdx?_nil, beq_iff_eq]
  by_cases h₁ : py "LOCATION" = name
  · rw [if_pos h₁, if_pos h₁]
  rw [if_neg h₁, if_neg h₁]
  by_cases h₂ : py "MOTION" = name
  · rw [if_pos h₂, if_pos h₂]
    rfl
  rw [if_neg h₂, if_neg h₂]
  by_cases h₃ : py "ORGANISATION" = name
  · rw [if_pos h₃, if_pos h₃]
    rfl
  rw [if_neg h₃, if_neg h₃]
  by_cases h₄ : py "INTERACTION" = name
  · rw [if_pos h₄, if_pos h₄]
    rfl
  · rw [if_neg h₄, if_neg h₄]
    rfl

variable (path : List PyStr)

/-- The path of a place and the field that it is in: the elements of an array are in no field. -/
def PlaceOf (field : PyStr) : Prop :=
  path.getLast?.getD [] = field ∨ (path.getLast?.getD [] = py "[]" ∧ field = [])

theorem placeOf_root : PlaceOf [] [] := .inl rfl

theorem placeOf_key (key : PyStr) : PlaceOf (path ++ [key]) key := by
  refine .inl ?_
  rw [getLast?_concat]
  rfl

theorem placeOf_element : PlaceOf (path ++ [py "[]"]) [] := by
  refine .inr ⟨?_, rfl⟩
  rw [getLast?_concat]
  rfl

section Order

variable {α : Type} {value : α → PyVal} {items : List α}

theorem agrees_sortedOn {κ : Type} [LinearOrder κ] (key : α → Option κ) (default : κ)
    (e e' : CanonicalizationError) :
    Agrees (sortedOn key default e items) (sortedOn key default e' items) :=
  agrees_bind (agrees_check e e') fun _ _ => agrees_ok _

theorem agrees_sortedByRefId (e e' : CanonicalizationError) :
    Agrees (sortedByRefId L value e items) (sortedByRefId L value e' items) := by
  refine agrees_bind (agrees_check e e') fun _ _ => ?_
  by_cases h : ((items.map fun item => (refId? (value item)).getD .none).all
    fun id => (str? id).isSome) = true
  · simp only [h, if_true]
    exact agrees_ok _
  · simp only [h, Bool.false_eq_true, if_false]
    exact agrees_bind (agrees_mapError _ _ _) fun _ _ => agrees_ok _

/-- **Both encoders put the elements of an array in one order.** -/
theorem agrees_orderedArray {path : List PyStr} {field : PyStr} (h : PlaceOf path field) :
    Agrees (orderedArray L value items path) (arrayOrder L value items field) := by
  rcases h with rfl | ⟨hpath, rfl⟩
  · rw [orderedArray, arrayOrder]
    by_cases hfacets : path.getLast?.getD [] = py "facets"
    · rw [if_pos hfacets, if_pos hfacets]
      simp only [get?_fixedDimensionOrder]
      exact agrees_sortedOn _ _ _ _
    rw [if_neg hfacets, if_neg hfacets]
    by_cases hset : path.getLast?.getD [] ∈ setArrays
    · rw [if_pos hset, if_pos (show _ ∈ lexicalArrayFields from hset)]
      exact agrees_sortedOn _ _ _ _
    rw [if_neg hset, if_neg (show _ ∉ lexicalArrayFields from hset)]
    by_cases hrefs : path.getLast?.getD [] = py "dependency_refs"
    · rw [if_pos hrefs, if_pos hrefs]
      exact agrees_sortedByRefId _ _
    · rw [if_neg hrefs, if_neg hrefs]
      exact agrees_ok _
  · -- no array is sorted that is itself an element
    have hleft : orderedArray L value items path = .ok items := by
      rw [orderedArray, hpath, if_neg (by decide +kernel), if_neg (by decide +kernel),
        if_neg (by decide +kernel)]
    have hright : arrayOrder L value items [] = .ok items := by
      rw [arrayOrder, if_neg (by decide +kernel), if_neg (by decide +kernel),
        if_neg (by decide +kernel)]
    rw [hleft, hright]
    exact agrees_ok _

end Order

/-! ## The elements and their trees -/

section Natural

variable {α β : Type} {value : β → PyVal} (f : α → β)

theorem sortedOn_map {κ : Type} [LinearOrder κ] (key : β → Option κ) (default : κ)
    (e : CanonicalizationError) (items : List α) : sortedOn key default e (items.map f) =
      (sortedOn (fun item => key (f item)) default e items).map (List.map f) := by
  rw [sortedOn, sortedOn, all_map, sortedBy_map]
  by_cases h : (items.all fun item => (key (f item)).isSome) = true
  · simp [check, h, Function.comp_def]
    rfl
  · simp [check, h, Function.comp_def]
    rfl

theorem filterMap_getElem?_map (order : List Nat) (items : List α) :
    (order.filterMap fun i => (items.map f)[i]?) = (order.filterMap fun i => items[i]?).map f := by
  rw [map_filterMap]
  refine filterMap_congr fun i _ => ?_
  rw [getElem?_map]

theorem sortedByRefId_map (e : CanonicalizationError) (items : List α) :
    sortedByRefId L value e (items.map f) =
      (sortedByRefId L (fun item => value (f item)) e items).map (List.map f) := by
  rw [sortedByRefId, sortedByRefId, all_map]
  simp only [map_map, sortedBy_map, filterMap_getElem?_map, Function.comp_def]
  by_cases h : (items.all fun item => (refId? (value (f item))).isSome) = true
  · simp only [check, h, if_true]
    by_cases hids : ((items.map fun item => (refId? (value (f item))).getD .none).all
      fun id => (str? id).isSome) = true
    · simp only [hids, if_true]
      rfl
    · simp only [hids]
      show (Except.mapError _ _ >>= _) = Except.map _ (Except.mapError _ _ >>= _)
      cases L.sortOrder (items.map fun item => (refId? (value (f item))).getD .none) <;> rfl
  · simp only [check, h]
    rfl

/-- **The order depends on the values alone**, not on what goes with them. -/
theorem arrayOrder_map (items : List α) (field : PyStr) : arrayOrder L value (items.map f) field =
      (arrayOrder L (fun item => value (f item)) items field).map (List.map f) := by
  rw [arrayOrder, arrayOrder, sortedOn_map, sortedOn_map, sortedByRefId_map]
  by_cases hfacets : field = py "facets"
  · rw [if_pos hfacets, if_pos hfacets]
  rw [if_neg hfacets, if_neg hfacets]
  by_cases hset : field ∈ setArrays
  · rw [if_pos hset, if_pos hset]
  rw [if_neg hset, if_neg hset]
  by_cases hrefs : field = py "dependency_refs"
  · rw [if_pos hrefs, if_pos hrefs]
  · rw [if_neg hrefs, if_neg hrefs]
    rfl

end Natural

/-- All positions, one after the other. -/
theorem filterMap_range {α : Type} (xs : List α) :
    ((List.range xs.length).filterMap fun i => xs[i]?) = xs := by
  induction xs with
  | nil => rfl
  | cons x xs ih =>
    rw [length_cons, range_succ_eq_map, filterMap_cons, filterMap_map]
    exact congrArg (x :: ·) ih

/-- **Sorting an array keeps its elements.** -/
theorem perm_of_arrayOrder {xs ys : List PyVal} {field : PyStr}
    (h : arrayOrder L id xs field = .ok ys) : ys.Perm xs := by
  have hsort : ∀ {κ : Type} [LinearOrder κ] {key : PyVal → Option κ} {default : κ}
      {e : CanonicalizationError}, sortedOn key default e xs = .ok ys → ys.Perm xs := by
    intro κ _ key default e h
    obtain ⟨_, -, h⟩ := bind_ok.mp h
    cases h
    exact sortedBy_perm _ xs
  rw [arrayOrder] at h
  by_cases hfacets : field = py "facets"
  · rw [if_pos hfacets] at h
    exact hsort h
  rw [if_neg hfacets] at h
  by_cases hset : field ∈ setArrays
  · rw [if_pos hset] at h
    exact hsort h
  rw [if_neg hset] at h
  by_cases hrefs : field = py "dependency_refs"
  · rw [if_pos hrefs] at h
    obtain ⟨_, -, h⟩ := bind_ok.mp h
    by_cases hids : ((xs.map fun item => (refId? (id item)).getD .none).all
      fun id => (str? id).isSome) = true
    · simp only [hids, if_true] at h
      cases h
      exact sortedBy_perm _ xs
    · simp only [hids] at h
      obtain ⟨order, horder, h⟩ := bind_ok.mp h
      cases h
      have hperm := L.sortOrder_perm (mapError_ok.mp horder)
      rw [length_map] at hperm
      have hall := hperm.filterMap fun i => xs[i]?
      rw [filterMap_range] at hall
      exact hall
  · rw [if_neg hrefs] at h
    cases h
    exact Perm.refl _

/-! ## The encoders -/

/-- The text of a key. -/
def keyOf (k : PyKey) : PyStr := (keyStr? k).getD []

theorem emitList_eq (path : List PyStr) (xs : List PyVal) :
    emitList L path xs = xs.map fun x => (x, emit L (path ++ [py "[]"]) x) := by
  induction xs with
  | nil => rw [emitList, map_nil]
  | cons x xs ih => rw [emitList, ih, map_cons]

theorem emitItems_eq (path : List PyStr) (items : List (PyKey × PyVal)) : emitItems L path items =
      items.map fun p => (keyOf p.1, emit L (path ++ [keyOf p.1]) p.2) := by
  induction items with
  | nil => rw [emitItems, map_nil]
  | cons p items ih =>
    obtain ⟨k, v⟩ := p
    rw [emitItems, ih, map_cons]
    rfl

theorem walkList_eq (xs : List PyVal) : walkList L xs = xs.map fun x => (x, walk L [] x) := by
  induction xs with
  | nil => rw [walkList, map_nil]
  | cons x xs ih => rw [walkList, ih, map_cons]

theorem walkItems_eq (items : List (PyKey × PyVal)) :
    walkItems L items = items.map fun p => (keyOf p.1, walk L (keyOf p.1) p.2) := by
  induction items with
  | nil => rw [walkItems, map_nil]
  | cons p items ih =>
    obtain ⟨k, v⟩ := p
    rw [walkItems, ih, map_cons]
    rfl

theorem agrees_number (d : FiniteDecimal) : Agrees (numberTextOf d) (decimalToken d) := by
  refine agrees_bind (agrees_check _ _) fun _ _ => ?_
  by_cases h : d.coefficient = 0
  · rw [if_pos h, if_pos h]
    exact agrees_ok _
  · rw [if_neg h, if_neg h]
    refine agrees_bind (Agrees.refl _) fun _ _ => ?_
    exact agrees_bind (agrees_check _ _) fun _ _ => agrees_ok _

theorem agrees_string (s : PyStr) : Agrees (stringText s) (quoteCheck s) :=
  agrees_bind (agrees_mapError _ _ _) fun _ _ => agrees_ok _

/-- The elements of an array, in order. -/
theorem agrees_array {xs : List PyVal} {path : List PyStr} {field : PyStr} (h : PlaceOf path field)
    (ih : ∀ x ∈ xs, Agrees (emit L (path ++ [py "[]"]) x) (walk L [] x)) :
    Agrees (orderedArray L Prod.fst (emitList L path xs) path >>= fun ordered =>
        ordered.mapM Prod.snd >>= fun items => .ok (Json.arr items))
      (arrayOrder L Prod.fst (walkList L xs) field >>= fun ordered =>
        ordered.mapM Prod.snd >>= fun items => .ok (Json.arr items)) := by
  have hitems (tree : PyVal → Except CanonicalizationError Json) :
      arrayOrder L Prod.fst (xs.map fun x => (x, tree x)) field =
        (arrayOrder L id xs field).map (List.map fun x => (x, tree x)) :=
    arrayOrder_map (fun x => (x, tree x)) xs field
  rw [emitList_eq, walkList_eq]
  refine (agrees_bind (agrees_orderedArray h) fun _ _ => Agrees.refl _).trans ?_
  rw [hitems, hitems]
  cases hord : arrayOrder L id xs field with
  | error e => exact agrees_error _ _
  | ok ys =>
    show Agrees ((ys.map fun x => (x, emit L (path ++ [py "[]"]) x)).mapM Prod.snd >>= _)
      ((ys.map fun x => (x, walk L [] x)).mapM Prod.snd >>= _)
    rw [mapM_map, mapM_map]
    refine agrees_bind (agrees_mapM fun y hy => ?_) fun _ _ => Agrees.refl _
    exact ih y ((perm_of_arrayOrder hord).mem_iff.mp hy)

/-- **What one encoder makes of a value the other makes of it.** -/
theorem agrees_emit {v : PyVal} {path : List PyStr} {field : PyStr} (h : PlaceOf path field) :
    Agrees (emit L path v) (walk L field v) := by
  induction v generalizing path field with
  | none =>
    rw [emit, walk]
    exact agrees_ok _
  | bool b =>
    rw [emit, walk]
    exact agrees_ok _
  | int z =>
    rw [emit, walk]
    exact Agrees.refl _
  | float x =>
    cases x with
    | finite negative mantissa exponent =>
      rw [emit, walk]
      by_cases hzero : mantissa = 0 ∧ negative = true
      · rw [if_pos hzero, if_pos hzero]
        exact agrees_error _ _
      · rw [if_neg hzero, if_neg hzero]
        exact agrees_number _
    | _ =>
      rw [emit, walk] <;> first | exact agrees_error _ _ | simp
  | decimal x =>
    cases x with
    | finite negative coefficient exponent =>
      rw [emit, walk]
      exact agrees_number _
    | _ =>
      rw [emit, walk] <;> first | exact agrees_error _ _ | simp
  | str s =>
    rw [emit, walk]
    exact agrees_bind (agrees_string s) fun _ _ => agrees_ok _
  | list xs ih | tuple xs ih =>
    rw [emit, walk]
    exact agrees_array h fun x hx => ih x hx (placeOf_element path)
  | set xs | other xs =>
    rw [emit, walk]
    exact agrees_error _ _
  | dict items ih =>
    rw [emit, walk, emitItems_eq, walkItems_eq]
    refine agrees_bind (agrees_check _ _) fun _ _ => ?_
    rw [sortedBy_map, sortedBy_map, mapM_map, mapM_map]
    refine agrees_bind (agrees_mapM fun p hp => ?_) fun _ _ => agrees_ok _
    refine agrees_bind (agrees_string _) fun _ _ => ?_
    refine agrees_bind (ih p (mem_sortedBy.mp hp) (placeOf_key path _)) fun _ _ => ?_
    exact agrees_ok _

end OvcReplay.Esl
