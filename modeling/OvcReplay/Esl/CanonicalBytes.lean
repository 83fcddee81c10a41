import OvcReplay.Esl.Separation

/-! # Equal bytes

The main result: which values have equal bytes, by induction on the value. The elements of an array
that stands for a set are sorted by a key that values which are the same share. -/

namespace OvcReplay.Esl

open Python Json SharedSystems OvcReplay.Lists

variable {L : Language}

/-! ## The keys of values that are the same -/

/-- The text at a key of a dictionary. -/
def textAt (key : PyStr) : PyVal → Option PyStr
  | .dict items => (Dict.get? items (.str key)).bind str?
  | _ => none

variable {v : PyVal}

variable {s : PyStr} {w : PyVal} {xs ys : List PyVal}

theorem str?_eq_some : str? v = some s ↔ v = .str s := by
  cases v <;> simp [str?]

theorem refText_eq (v : PyVal) : refText v = textAt (py "ref_id") v := by
  cases v <;> rfl

theorem dimension?_eq (v : PyVal) : dimension? v = textAt (py "dimension") v := by
  cases v with
  | dict items =>
    rw [dimension?, textAt]
    cases h : Dict.get? items (.str (py "dimension")) with
    | none => rfl
    | some w => cases w <;> rfl
  | _ => rfl

theorem same_str_left {field : PyStr} (h : Same L field (.str s) w) : w = .str s := by
  cases h with
  | str => rfl
  | number _ hv => cases hv
  | sequence _ hv => cases hv
  | set _ hv => cases hv

theorem same_str_right {field : PyStr} (h : Same L field v (.str s)) : v = .str s := by
  cases h with
  | str => rfl
  | number _ _ hw => cases hw
  | sequence _ _ hw => cases hw
  | set _ _ hw => cases hw

/-- Dictionaries that are the same have the same texts. -/
theorem mem_text_iff {items items' zs : List (PyKey × PyVal)} (hperm : items.Perm zs)
    (h : List.Forall₂ (SameItem L) zs items') {k : PyKey} :
    (k, .str s) ∈ items ↔ (k, .str s) ∈ items' := by
  rw [hperm.mem_iff]
  constructor
  · intro hmem
    obtain ⟨p, hp, hsame⟩ := mem_of_forall₂_left h hmem
    cases hsame with
    | item hsame =>
      obtain rfl := same_str_left hsame
      exact hp
  · intro hmem
    obtain ⟨p, hp, hsame⟩ := mem_of_forall₂_right h hmem
    cases hsame with
    | item hsame =>
      obtain rfl := same_str_right hsame
      exact hp

theorem textAt_eq_none {key : PyStr} (h : ∀ items, v ≠ .dict items) : textAt key v = none := by
  cases v with
  | dict items => exact absurd rfl (h items)
  | _ => rfl

theorem not_dict_of_number {d : FiniteDecimal} (h : number? L.floatDecimal v = some d)
    (items : List (PyKey × PyVal)) : v ≠ .dict items := by
  rintro rfl
  cases h

theorem not_dict_of_elements (h : elements? v = some xs)
    (items : List (PyKey × PyVal)) : v ≠ .dict items := by
  rintro rfl
  cases h

/-- **Values that are the same have the same text at each key.** -/
theorem textAt_eq_of_same {field field' field'' key : PyStr} {v : PyVal}
    (hv : WellKeyed field' v) (hw : WellKeyed field'' w) (h : Same L field v w) :
    textAt key v = textAt key w := by
  cases h with
  | none => rfl
  | bool => rfl
  | str => rfl
  | number _ hn hn' =>
    rw [textAt_eq_none (not_dict_of_number hn), textAt_eq_none (not_dict_of_number hn')]
  | sequence _ he he' | set _ he he' =>
    rw [textAt_eq_none (not_dict_of_elements he), textAt_eq_none (not_dict_of_elements he')]
  | @dict _ items items' zs hperm hall =>
    have htext : ∀ {items : List (PyKey × PyVal)} {s : PyStr}, (items.map Prod.fst).Nodup →
        (textAt key (.dict items) = some s ↔ (.str key, .str s) ∈ items) := by
      intro items s hnd
      rw [textAt, Option.bind_eq_some_iff, ← Dict.get?_eq_some_iff hnd]
      constructor
      · rintro ⟨value, hval, hs⟩
        obtain rfl := str?_eq_some.mp hs
        exact hval
      · intro hval
        exact ⟨_, hval, rfl⟩
    refine Option.ext fun s => ?_
    show textAt key (.dict items) = some s ↔ textAt key (.dict items') = some s
    rw [htext hv.items.1, htext hw.items.1]
    exact mem_text_iff hperm hall

/-! ## The order of the elements -/

variable {field : PyStr}

/-- How the elements of an array are sorted. -/
theorem arrayOrder_ok (hkeyed : Keyed field xs) (h : arrayOrder L id xs field = .ok ys) :
    (¬ SetLike field ∧ ys = xs) ∨ (field = py "facets" ∧ (∀ x ∈ xs, (facetRank x).isSome = true) ∧
      ys = sortedBy (fun x => (facetRank x).getD 0) xs) ∨
    (field ≠ py "facets" ∧ field ∈ setArrays ∧ (∀ x ∈ xs, (str? x).isSome = true) ∧
      ys = sortedBy (fun x => (str? x).getD []) xs) ∨
    (field ≠ py "facets" ∧ field ∉ setArrays ∧ field = py "dependency_refs" ∧
      ys = sortedBy (fun x => (refText x).getD []) xs) := by
  rw [arrayOrder] at h
  by_cases hfacets : field = py "facets"
  · rw [if_pos hfacets] at h
    obtain ⟨_, hall, h⟩ := bind_ok.mp h
    cases h
    exact .inr (.inl ⟨hfacets, List.all_eq_true.mp (check_ok.mp hall), rfl⟩)
  rw [if_neg hfacets] at h
  by_cases hset : field ∈ setArrays
  · rw [if_pos hset] at h
    obtain ⟨_, hall, h⟩ := bind_ok.mp h
    cases h
    exact .inr (.inr (.inl ⟨hfacets, hset, List.all_eq_true.mp (check_ok.mp hall), rfl⟩))
  rw [if_neg hset] at h
  by_cases hrefs : field = py "dependency_refs"
  · rw [if_pos hrefs] at h
    obtain ⟨_, -, h⟩ := bind_ok.mp h
    have htexts : ((xs.map fun item => (refId? (id item)).getD .none).all
        fun id => (str? id).isSome) = true := by
      rw [List.all_map, List.all_eq_true]
      intro x hx
      obtain ⟨s, hs⟩ := Option.isSome_iff_exists.mp ((hkeyed.2 hrefs).1 x hx)
      obtain ⟨ref, href, hs⟩ := Option.bind_eq_some_iff.mp hs
      show (str? ((refId? x).getD .none)).isSome = true
      rw [href, Option.getD_some, hs]
      rfl
    rw [if_pos htexts] at h
    cases h
    exact .inr (.inr (.inr ⟨hfacets, hset, hrefs, rfl⟩))
  · rw [if_neg hrefs] at h
    cases h
    refine .inl ⟨?_, rfl⟩
    rintro (h | h | h)
    · exact hfacets h
    · exact hset h
    · exact hrefs h

/-! ## Arrays and dictionaries -/

/-- What is known of a value. -/
def Separated (L : Language) (field : PyStr) (v : PyVal) : Prop :=
  ∀ w j j', WellKeyed field w → AllFit L w → Writes L field v j → Writes L field w j' →
    (j = j' ↔ Same L field v w)

variable {js js' : List Json}

variable {xs' : List PyVal} {j : Json}

/-- Arrays that are sorted by a key that all elements have. -/
theorem sorted_eq_iff {κ : Type} [LinearOrder κ] {key : PyVal → Option κ} {default : κ}
    (hsome : ∀ x ∈ xs, (key x).isSome = true) (hinj : ∀ a ∈ xs, ∀ b ∈ xs, key a = key b → a = b)
    (hkey : ∀ a ∈ xs, ∀ b ∈ xs', Same L [] a b → key a = key b)
    (hW : ∀ a ∈ xs, ∀ b ∈ xs', ∀ j j', Writes L [] a j → Writes L [] b j' → (j = j' ↔ Same L [] a b))
    (hx : List.Forall₂ (Writes L []) (sortedBy (fun x => (key x).getD default) xs) js)
    (hy : List.Forall₂ (Writes L []) (sortedBy (fun x => (key x).getD default) xs') js') :
    js = js' ↔ ∃ zs, xs.Perm zs ∧ List.Forall₂ (Same L []) zs xs' := by
  refine sorted_written_eq_iff (fun a ha b hb heq => hinj a ha b hb ?_) (fun a ha b hb hsame => ?_)
    hW hx hy
  · obtain ⟨k, hk⟩ := Option.isSome_iff_exists.mp (hsome a ha)
    obtain ⟨l, hl⟩ := Option.isSome_iff_exists.mp (hsome b hb)
    rw [hk, hl, Option.getD_some, Option.getD_some] at heq
    rw [hk, hl, heq]
  · show (key a).getD default = (key b).getD default
    rw [hkey a ha b hb hsame]

/-- **Arrays are written alike exactly when their elements are the same**, up to the order where the
array stands for a set. -/
theorem array_eq_iff {ys' : List PyVal} (hkeyed : Keyed field xs)
    (hkeyed' : Keyed field xs') (hxs : ∀ x ∈ xs, WellKeyed [] x) (hxs' : ∀ x ∈ xs', WellKeyed [] x)
    (hfit : ∀ x ∈ xs', AllFit L x) (ih : ∀ x ∈ xs, Separated L [] x)
    (h : arrayOrder L id xs field = .ok ys) (h' : arrayOrder L id xs' field = .ok ys')
    (hx : List.Forall₂ (Writes L []) ys js) (hy : List.Forall₂ (Writes L []) ys' js') :
    js = js' ↔ (¬ SetLike field ∧ List.Forall₂ (Same L []) xs xs') ∨
      (SetLike field ∧ ∃ zs, xs.Perm zs ∧ List.Forall₂ (Same L []) zs xs') := by
  have hW : ∀ a ∈ xs, ∀ b ∈ xs', ∀ j j', Writes L [] a j → Writes L [] b j' →
      (j = j' ↔ Same L [] a b) :=
    fun a ha b hb j j' => ih a ha b j j' (hxs' b hb) (hfit b hb)
  have htext : ∀ key, ∀ a ∈ xs, ∀ b ∈ xs', Same L [] a b → textAt key a = textAt key b :=
    fun key a ha b hb hsame => textAt_eq_of_same (hxs a ha) (hxs' b hb) hsame
  rcases arrayOrder_ok hkeyed h with ⟨hnot, rfl⟩ | ⟨hfacets, hsome, rfl⟩ |
    ⟨hfacets, hset, hsome, rfl⟩ | ⟨hfacets, hset, hrefs, rfl⟩
  · rcases arrayOrder_ok hkeyed' h' with ⟨-, rfl⟩ | ⟨hf, -⟩ | ⟨-, hs, -⟩ | ⟨-, -, hr, -⟩
    · rw [written_eq_iff hW hx hy, and_iff_right hnot, or_iff_left fun h => hnot h.1]
    · exact absurd (.inl hf) hnot
    · exact absurd (.inr (.inl hs)) hnot
    · exact absurd (.inr (.inr hr)) hnot
  · have hlike : SetLike field := .inl hfacets
    rcases arrayOrder_ok hkeyed' h' with ⟨hnot, -⟩ | ⟨-, -, rfl⟩ | ⟨hf, -⟩ | ⟨hf, -⟩
    · exact absurd hlike hnot
    · rw [sorted_eq_iff hsome (hkeyed.1 hfacets) (fun a ha b hb hsame => ?_) hW hx hy,
        and_iff_right hlike, or_iff_right fun h => h.1 hlike]
      rw [facetRank, facetRank, dimension?_eq, dimension?_eq, htext _ a ha b hb hsame]
    · exact absurd hfacets hf
    · exact absurd hfacets hf
  · have hlike : SetLike field := .inr (.inl hset)
    rcases arrayOrder_ok hkeyed' h' with ⟨hnot, -⟩ | ⟨hf, -⟩ | ⟨-, -, -, rfl⟩ | ⟨-, hs, -⟩
    · exact absurd hlike hnot
    · exact absurd hf hfacets
    · rw [sorted_eq_iff hsome (fun a ha b hb heq => ?_) (fun a ha b hb hsame => ?_) hW hx hy,
        and_iff_right hlike, or_iff_right fun h => h.1 hlike]
      · obtain ⟨s, hs⟩ := Option.isSome_iff_exists.mp (hsome a ha)
        rw [str?_eq_some.mp hs, str?_eq_some.mp (heq.symm.trans hs)]
      · obtain ⟨s, hs⟩ := Option.isSome_iff_exists.mp (hsome a ha)
        obtain rfl := str?_eq_some.mp hs
        rw [same_str_left hsame]
    · exact absurd hset hs
  · have hlike : SetLike field := .inr (.inr hrefs)
    rcases arrayOrder_ok hkeyed' h' with ⟨hnot, -⟩ | ⟨hf, -⟩ | ⟨-, hs, -⟩ | ⟨-, -, -, rfl⟩
    · exact absurd hlike hnot
    · exact absurd hf hfacets
    · exact absurd hs hset
    · rw [sorted_eq_iff (hkeyed.2 hrefs).1 (hkeyed.2 hrefs).2 (fun a ha b hb hsame => ?_) hW hx hy,
        and_iff_right hlike, or_iff_right fun h => h.1 hlike]
      rw [refText_eq, refText_eq, htext _ a ha b hb hsame]

theorem SameItem.fst_eq {p q : PyKey × PyVal} (h : SameItem L p q) : p.1 = q.1 := by
  cases h with
  | item => rfl

/-- **Dictionaries are written alike exactly when their items are the same**, up to their order. -/
theorem dict_eq_iff {items items' : List (PyKey × PyVal)} {ms ms' : List (PyStr × Json)}
    (hkeys : (items.map Prod.fst).Nodup) (htext : ∀ p ∈ items, ∃ s, p.1 = .str s)
    (hitems' : ∀ p ∈ items', WellKeyed (keyOf p.1) p.2) (hfit : ∀ p ∈ items', AllFit L p.2)
    (ih : ∀ p ∈ items, Separated L (keyOf p.1) p.2)
    (hx : List.Forall₂ (WritesMember L) (sortedBy (fun p => keyOf p.1) items) ms)
    (hy : List.Forall₂ (WritesMember L) (sortedBy (fun p => keyOf p.1) items') ms') :
    ms = ms' ↔ ∃ zs, items.Perm zs ∧ List.Forall₂ (SameItem L) zs items' := by
  refine sorted_written_eq_iff (fun p hp q hq heq => ?_) (fun p _ q _ hsame => ?_)
    (fun p hp q hq m m' hm hm' => ?_) hx hy
  · obtain ⟨s, hs⟩ := htext p hp
    obtain ⟨t, ht⟩ := htext q hq
    rw [hs, ht] at heq
    refine List.inj_on_of_nodup_map hkeys hp hq ?_
    rw [hs, ht]
    exact congrArg PyKey.str heq
  · show keyOf p.1 = keyOf q.1
    rw [hsame.fst_eq]
  · obtain ⟨k, v⟩ := p
    obtain ⟨l, w⟩ := q
    obtain ⟨hk, hv⟩ := hm
    obtain ⟨hl, hw⟩ := hm'
    constructor
    · rintro rfl
      obtain rfl : k = l := hk.trans hl.symm
      exact .item ((ih _ hp w m.2 m.2 (hitems' _ hq) (hfit _ hq) hv hw).mp rfl)
    · intro hsame
      cases hsame with
      | item hsame =>
        have hval := (ih _ hp w m.2 m'.2 (hitems' _ hq) (hfit _ hq) hv hw).mpr hsame
        exact Prod.ext (PyKey.str.inj (hk.symm.trans hl)) hval

/-! ## Values -/

/-- What is known of the parts of a value. -/
structure Parts (L : Language) (field : PyStr) (v : PyVal) : Prop where
  elements : ∀ xs, elements? v = some xs →
    (Keyed field xs ∧ ∀ x ∈ xs, WellKeyed [] x) ∧ ∀ x ∈ xs, Separated L [] x
  items : ∀ items, v = .dict items →
    (items.map Prod.fst).Nodup ∧ ∀ p ∈ items, Separated L (keyOf p.1) p.2

/-- What two arrays are written as. -/
theorem arrays_eq_iff {v : PyVal} {ys' : List PyVal} (hparts : Parts L field v)
    (hkeyed : WellKeyed field w) (hfit : AllFit L w) (hv : elements? v = some xs)
    (hw : elements? w = some xs') (h : arrayOrder L id xs field = .ok ys)
    (h' : arrayOrder L id xs' field = .ok ys') (hx : List.Forall₂ (Writes L []) ys js)
    (hy : List.Forall₂ (Writes L []) ys' js') :
    js = js' ↔ (¬ SetLike field ∧ List.Forall₂ (Same L []) xs xs') ∨
      (SetLike field ∧ ∃ zs, xs.Perm zs ∧ List.Forall₂ (Same L []) zs xs') := by
  obtain ⟨⟨hxs, hwell⟩, ih⟩ := hparts.elements xs hv
  obtain ⟨hxs', hwell'⟩ := hkeyed.elements hw
  exact array_eq_iff hxs hxs' hwell hwell' (hfit.elements hw) ih h h' hx hy

/-- The text of a number determines it. -/
theorem numberText_inj_iff {a b : FiniteDecimal} (ha : ¬ a.NegativeZero) (hb : ¬ b.NegativeZero) :
    numberText a = numberText b ↔ a.value = b.value := by
  rw [numberText_eq_iff]
  exact and_iff_left (iff_of_false ha hb)

theorem number_of_walk {d : FiniteDecimal} (hfit : AllFit L v)
    (hv : number? L.floatDecimal v = some d) (h : walk L field v = .ok j) :
    ∃ d' : FiniteDecimal, j = .float (numberText d') ∧ ¬ d'.NegativeZero ∧ d'.value = d.value := by
  cases shape_of_walk hfit h with
  | number hv' hzero hval =>
    cases hv.symm.trans hv'
    exact ⟨_, rfl, hzero, hval⟩
  | array he =>
    cases v with
    | list => cases hv
    | tuple => cases hv
    | _ => cases he
  | _ => cases hv

/-- **Values that are the same are written alike.** -/
theorem tree_eq_of_same {v : PyVal} {j' : Json} (hparts : Parts L field v) (hv : AllFit L v)
    (hkeyed : WellKeyed field w) (hw : AllFit L w) (h : walk L field v = .ok j)
    (h' : walk L field w = .ok j') (hsame : Same L field v w) : j = j' := by
  cases hsame with
  | none | bool | str => exact Except.ok.inj (h.symm.trans h')
  | number _ ha hb hval =>
    obtain ⟨a', rfl, hazero, ha'⟩ := number_of_walk hv ha h
    obtain ⟨b', rfl, hbzero, hb'⟩ := number_of_walk hw hb h'
    rw [(numberText_inj_iff hazero hbzero).mpr (ha'.trans (hval.trans hb'.symm))]
  | sequence hfield he he' hall =>
    obtain ⟨ys, js, hys, hjs, rfl⟩ := array_of_walk he h
    obtain ⟨ys', js', hys', hjs', rfl⟩ := array_of_walk he' h'
    rw [(arrays_eq_iff hparts hkeyed hw he he' hys hys' hjs hjs').mpr (.inl ⟨hfield, hall⟩)]
  | set hfield he he' hperm hall =>
    obtain ⟨ys, js, hys, hjs, rfl⟩ := array_of_walk he h
    obtain ⟨ys', js', hys', hjs', rfl⟩ := array_of_walk he' h'
    rw [(arrays_eq_iff hparts hkeyed hw he he' hys hys' hjs hjs').mpr
      (.inr ⟨hfield, _, hperm, hall⟩)]
  | dict _ hperm hall =>
    obtain ⟨htext, ms, hms, rfl⟩ := object_of_walk h
    obtain ⟨-, ms', hms', rfl⟩ := object_of_walk h'
    obtain ⟨hnd, ih⟩ := hparts.items _ rfl
    rw [(dict_eq_iff hnd htext hkeyed.items.2 hw.items ih hms hms').mpr ⟨_, hperm, hall⟩]

/-- **Values that are written alike are the same.** -/
theorem same_of_tree_eq {v : PyVal} {j' : Json} (hparts : Parts L field v) (hv : AllFit L v)
    (hkeyed : WellKeyed field w) (hw : AllFit L w) (h : walk L field v = .ok j)
    (h' : walk L field w = .ok j') (heq : j = j') : Same L field v w := by
  have hshape := shape_of_walk hv h
  have hshape' := shape_of_walk hw h'
  cases hshape with
  | none =>
    cases hshape' with
    | none => exact .none field
    | _ => cases heq
  | bool b =>
    cases hshape' with
    | bool b' =>
      obtain rfl := Json.bool.inj heq
      exact .bool field b
    | _ => cases heq
  | str s =>
    cases hshape' with
    | str s' =>
      obtain rfl := Json.str.inj heq
      exact .str field s
    | _ => cases heq
  | number ha hazero ha' =>
    cases hshape' with
    | number hb hbzero hb' =>
      have hval := (numberText_inj_iff hazero hbzero).mp (Json.float.inj heq)
      exact .number field ha hb (ha'.symm.trans (hval.trans hb'))
    | _ => cases heq
  | array he hys hjs =>
    cases hshape' with
    | array he' hys' hjs' =>
      rcases (arrays_eq_iff hparts hkeyed hw he he' hys hys' hjs hjs').mp (Json.arr.inj heq)
        with ⟨hfield, hall⟩ | ⟨hfield, zs, hperm, hall⟩
      · exact .sequence hfield he he' hall
      · exact .set hfield he he' hperm hall
    | _ => cases heq
  | dict htext hms =>
    cases hshape' with
    | dict _ hms' =>
      obtain ⟨hnd, ih⟩ := hparts.items _ rfl
      obtain ⟨zs, hperm, hall⟩ :=
        (dict_eq_iff hnd htext hkeyed.items.2 hw.items ih hms hms').mp (Json.obj.inj heq)
      exact .dict field hperm hall
    | _ => cases heq

theorem separated_of_parts (hfit : AllFit L v) (hparts : Parts L field v) :
    Separated L field v := fun _ _ _ hkeyed hw h h' =>
  ⟨same_of_tree_eq hparts hfit hkeyed hw h h', tree_eq_of_same hparts hfit hkeyed hw h h'⟩

/-- **Trees are equal exactly when the values are the same.** -/
theorem separated (hkeyed : WellKeyed field v) (hfit : AllFit L v) : Separated L field v := by
  induction v generalizing field with
  | list xs ih | tuple xs ih =>
    refine separated_of_parts hfit ⟨fun ys hys => ?_, nofun⟩
    cases hys
    have hparts := hkeyed.elements rfl
    exact ⟨hparts, fun x hx => ih x hx (hparts.2 x hx) (hfit.elements rfl x hx)⟩
  | dict items ih =>
    refine separated_of_parts hfit ⟨nofun, fun items' heq => ?_⟩
    obtain rfl := PyVal.dict.inj heq
    exact ⟨hkeyed.items.1, fun p hp => ih p hp (hkeyed.items.2 p hp) (hfit.items p hp)⟩
  | _ => exact separated_of_parts hfit ⟨nofun, nofun⟩

/-! ## Bytes -/

theorem agrees_bytes (v : PyVal) :
    Agrees (canonicalJsonV1Bytes L v) (referenceCanonicalJsonV1Bytes L v) :=
  agrees_bind (agrees_emit placeOf_root) fun _ _ => Agrees.refl _

theorem reference_ok {bytes : PyStr} (h : referenceCanonicalJsonV1Bytes L v = .ok bytes) :
    ∃ j, walk L [] v = .ok j ∧ bytes = j.render := by
  obtain ⟨j, hj, h⟩ := bind_ok.mp h
  exact ⟨j, hj, (encodeUtf8_ok.mp (mapError_ok.mp h)).2.symm⟩

theorem allExact_iff (h : walk L [] v = .ok j) : AllExact L v ↔ AllFit L v := by
  refine forall_congr' fun d => forall_congr' fun hd => ?_
  obtain ⟨j', hj'⟩ := returns_of_occurs hd h
  exact exact_iff hj'

/-- Where the numbers fit, bytes are equal exactly when the values are the same. -/
theorem bytes_eq_iff {v : PyVal} {bytes bytes' : PyStr} (hkv : WellKeyed [] v)
    (hkw : WellKeyed [] w) (hfv : AllFit L v) (hfw : AllFit L w)
    (h : referenceCanonicalJsonV1Bytes L v = .ok bytes)
    (h' : referenceCanonicalJsonV1Bytes L w = .ok bytes') : bytes = bytes' ↔ Same L [] v w := by
  obtain ⟨j, hj, rfl⟩ := reference_ok h
  obtain ⟨j', hj', rfl⟩ := reference_ok h'
  rw [← separated hkv hfv w j j' hkw hfw hj hj']
  exact ⟨(spelled_of_walk hfv hj).render_inj (spelled_of_walk hfw hj'), congrArg render⟩

namespace Reference

/-- A sort that always raises has no order to answer for. -/
theorem perm_of_error {keys : List PyVal} {order : List Nat} {e : PyError}
    (h : (Except.error e : Except PyError (List Nat)) = .ok order) :
    order.Perm (List.range keys.length) := by
  cases h

/-- A language in which no float occurs and ids that are not texts have no order. -/
def language : Language where
  floatDecimal _ := ⟨false, 0, 0⟩
  sortOrder _ := .error .typeError
  sortOrder_perm := perm_of_error

/-- A number with a digit more than the context holds. -/
def long : PyVal := .decimal (.finite false (10 ^ 28 + 1) 0)

/-- The number that it is rounded to. -/
def round : PyVal := .decimal (.finite false 1 28)

theorem bytes_long : canonicalJsonV1Bytes language long =
    .ok (py "10000000000000000000000000000") := by
  decide +kernel

theorem bytes_round : canonicalJsonV1Bytes language round =
    .ok (py "10000000000000000000000000000") := by
  decide +kernel

theorem bytes_one : canonicalJsonV1Bytes language (.int 1) = .ok (py "1") := by
  decide +kernel

theorem bytes_decimal : canonicalJsonV1Bytes language (.decimal (.finite false 10 (-1))) =
    .ok (py "1") := by
  decide +kernel

theorem allFit_one : AllFit language (.int 1) := by
  intro d hd
  cases hd with
  | here h => cases h
  | element hv => cases hv

theorem allFit_decimal : AllFit language (.decimal (.finite false 10 (-1))) := by
  intro d hd
  cases hd with
  | here h =>
    cases h
    decide +kernel
  | element hv => cases hv

theorem not_same : ¬ Same language [] long round := by
  intro h
  cases h with
  | number _ ha hb hval =>
    cases ha
    cases hb
    norm_num [FiniteDecimal.value, FiniteDecimal.size] at hval
  | sequence _ hv => cases hv
  | set _ hv => cases hv

end Reference

/-- References with one id stay in the order in which they came. -/
example : canonicalJsonV1Bytes Reference.language (.dict [(.str (py "dependency_refs"),
      .list [.dict [(.str (py "ref_id"), .str (py "a")), (.str (py "x"), .int 1)],
        .dict [(.str (py "ref_id"), .str (py "a")), (.str (py "x"), .int 2)]])]) ≠
    canonicalJsonV1Bytes Reference.language (.dict [(.str (py "dependency_refs"),
      .list [.dict [(.str (py "ref_id"), .str (py "a")), (.str (py "x"), .int 2)],
        .dict [(.str (py "ref_id"), .str (py "a")), (.str (py "x"), .int 1)]])]) := by
  decide +kernel

end OvcReplay.Esl
