import OvcReplay.SharedSystems.Identity
import OvcReplay.Json.Spelled
import OvcReplay.Lists.Arranged

/-! # Canonical bytes tell values apart

Two values have the same canonical bytes exactly when they are the same up to the order of keys, the
order of arrays that are sets, the spelling of numbers, and, where numbers are written as texts, a
number and the text that it is written as. -/

namespace OvcReplay.SharedSystems

open List Python Json

variable {P : Platform} {reprDecimal : PyFloat → FiniteDecimal} {profile : SerializationProfile}

/-! ## When values are the same -/

/-- The elements of an array. -/
def elements? : PyVal → Option (List PyVal)
  | .list xs => some xs
  | .tuple xs => some xs
  | _ => none

/-- Numbers that are the same: by their value and, where it is kept, the sign of a zero; or by their
fixed-point spelling. -/
def SameNumber (profile : SerializationProfile) (a b : FiniteDecimal) : Prop :=
  if profile.numericPolicy = .precisionPreservingDecimalString then
    (settled profile a).format = (settled profile b).format
  else a.value = b.value ∧
    (profile.negativeZeroPolicy = .preserve → (a.NegativeZero ↔ b.NegativeZero))

/-- **Values that are the same under a profile.** -/
inductive Same (reprDecimal : PyFloat → FiniteDecimal) (profile : SerializationProfile) :
    PyVal → PyVal → Prop
  | none : Same reprDecimal profile .none .none
  | bool (b : Bool) : Same reprDecimal profile (.bool b) (.bool b)
  | str (s : PyStr) : Same reprDecimal profile (.str s) (.str s)
  | number {v w : PyVal} {a b : FiniteDecimal} (hv : number? reprDecimal v = some a)
      (hw : number? reprDecimal w = some b) (h : SameNumber profile a b) :
      Same reprDecimal profile v w
  | spelled {v : PyVal} {a : FiniteDecimal} (hpolicy : profile.numericPolicy ≠ .jsonNumber)
      (hv : number? reprDecimal v = some a) : Same reprDecimal profile v (.str (spelling profile a))
  | spells {v : PyVal} {a : FiniteDecimal} (hpolicy : profile.numericPolicy ≠ .jsonNumber)
      (hv : number? reprDecimal v = some a) : Same reprDecimal profile (.str (spelling profile a)) v
  | sequence {v w : PyVal} {xs ys : List PyVal} (hpolicy : profile.collectionPolicy ≠ .semanticSet)
      (hv : elements? v = some xs) (hw : elements? w = some ys)
      (h : Forall₂ (Same reprDecimal profile) xs ys) : Same reprDecimal profile v w
  | set {v w : PyVal} {xs ys zs : List PyVal} (hpolicy : profile.collectionPolicy = .semanticSet)
      (hv : elements? v = some xs) (hw : elements? w = some ys) (hperm : xs.Perm zs)
      (h : Forall₂ (Same reprDecimal profile) zs ys) : Same reprDecimal profile v w
  | dict {items items' zs : List (PyKey × PyVal)} (hperm : items.Perm zs)
      (hkeys : zs.map Prod.fst = items'.map Prod.fst)
      (h : Forall₂ (Same reprDecimal profile) (zs.map Prod.snd) (items'.map Prod.snd)) :
      Same reprDecimal profile (.dict items) (.dict items')

/-- A value whose dictionaries have each key once. -/
inductive DistinctKeys : PyVal → Prop
  | none : DistinctKeys .none
  | bool (b : Bool) : DistinctKeys (.bool b)
  | int (z : Int) : DistinctKeys (.int z)
  | float (x : PyFloat) : DistinctKeys (.float x)
  | decimal (d : PyDecimal) : DistinctKeys (.decimal d)
  | str (s : PyStr) : DistinctKeys (.str s)
  | list {xs : List PyVal} (h : ∀ x ∈ xs, DistinctKeys x) : DistinctKeys (.list xs)
  | tuple {xs : List PyVal} (h : ∀ x ∈ xs, DistinctKeys x) : DistinctKeys (.tuple xs)
  | set (xs : List PyVal) : DistinctKeys (.set xs)
  | dict {items : List (PyKey × PyVal)} (hkeys : (items.map Prod.fst).Nodup)
      (h : ∀ p ∈ items, DistinctKeys p.2) : DistinctKeys (.dict items)
  | other (o : PyObject) : DistinctKeys (.other o)

/-! ## The trees -/

theorem canonicalTree_of_number {v : PyVal} {d : FiniteDecimal}
    (h : number? reprDecimal v = some d) :
    canonicalTree P reprDecimal profile v = numberTree P profile d := by
  cases v with
  | int z => rw [canonicalTree, Option.some.inj h]
  | float x | decimal x => cases x <;> simp_all [number?, canonicalTree]
  | _ => cases h

theorem canonicalList_eq (xs : List PyVal) :
    canonicalList P reprDecimal profile xs = xs.mapM (canonicalTree P reprDecimal profile) := by
  induction xs with
  | nil => rw [canonicalList]; rfl
  | cons x xs ih => rw [canonicalList, ih, mapM_cons]

theorem canonicalTree_of_elements {v : PyVal} {xs : List PyVal} (h : elements? v = some xs) :
    canonicalTree P reprDecimal profile v =
      (xs.mapM (canonicalTree P reprDecimal profile)).bind (collect profile) := by
  cases v with
  | list ys | tuple ys =>
    cases h
    rw [canonicalTree, canonicalList_eq]
    rfl
  | _ => cases h

/-- What an array is written as. -/
theorem collect_ok {items : List Json} {j : Json} (h : collect profile items = .ok j) :
    (profile.collectionPolicy ≠ .semanticSet ∧ j = .arr items) ∨
      (profile.collectionPolicy = .semanticSet ∧ j = .arr (sortedBy render items)) := by
  rw [collect] at h
  by_cases hpol : profile.collectionPolicy = .semanticSet
  · rw [if_pos hpol] at h
    obtain ⟨_, -, h⟩ := bind_ok.mp h
    obtain ⟨_, -, h⟩ := bind_ok.mp h
    exact .inr ⟨hpol, (Except.ok.inj h).symm⟩
  · rw [if_neg hpol] at h
    exact .inl ⟨hpol, (Except.ok.inj h).symm⟩

/-- **What a number is written as.** -/
theorem numberTree_ok {d : FiniteDecimal} {j : Json} (h : numberTree P profile d = .ok j) :
    (d.NegativeZero → profile.negativeZeroPolicy ≠ .reject) ∧
      ((profile.numericPolicy = .jsonNumber ∧ j = .float (spelling profile d)) ∨
        (profile.numericPolicy ≠ .jsonNumber ∧ j = .str (spelling profile d))) := by
  obtain ⟨_, hzero, h⟩ := bind_ok.mp h
  refine ⟨check_ok.mp hzero, ?_⟩
  by_cases hpol : profile.numericPolicy = .jsonNumber
  · rw [if_pos hpol] at h
    exact .inl ⟨hpol, (Except.ok.inj h).symm⟩
  · rw [if_neg hpol] at h
    obtain ⟨_, -, h⟩ := bind_ok.mp h
    exact .inr ⟨hpol, (Except.ok.inj h).symm⟩

/-- The members of an object. -/
theorem canonicalItems_ok {items : List (PyKey × PyVal)} {members : List (PyStr × Json)}
    (hkeys : ∀ p ∈ items, (keyStr? p.1).isSome = true)
    (h : canonicalItems P reprDecimal profile items = .ok members) :
    Forall₂ (fun p m => p.1 = .str m.1 ∧
      canonicalTree P reprDecimal profile p.2 = .ok m.2) items members := by
  induction items generalizing members with
  | nil =>
    rw [canonicalItems] at h
    cases h
    exact .nil
  | cons p items ih =>
    obtain ⟨k, v⟩ := p
    rw [canonicalItems] at h
    obtain ⟨_, -, h⟩ := bind_ok.mp h
    obtain ⟨item, hitem, h⟩ := bind_ok.mp h
    obtain ⟨rest, hrest, h⟩ := bind_ok.mp h
    cases h
    refine .cons ⟨?_, hitem⟩ (ih (fun q hq => hkeys q (mem_cons_of_mem _ hq)) hrest)
    have hkey := hkeys (k, v) mem_cons_self
    cases k <;> simp_all [keyStr?]

/-- **What a value is written as**, by its kind. -/
inductive Shape (P : Platform) (reprDecimal : PyFloat → FiniteDecimal)
    (profile : SerializationProfile) : PyVal → Json → Prop
  | none : Shape P reprDecimal profile .none .null
  | bool (b : Bool) : Shape P reprDecimal profile (.bool b) (.bool b)
  | str (s : PyStr) : Shape P reprDecimal profile (.str s) (.str s)
  | number {v : PyVal} {d : FiniteDecimal} {j : Json} (hv : number? reprDecimal v = some d)
      (hj : numberTree P profile d = .ok j) : Shape P reprDecimal profile v j
  | array {v : PyVal} {xs : List PyVal} {items : List Json} {j : Json}
      (hv : elements? v = some xs)
      (hitems : Forall₂ (fun x y => canonicalTree P reprDecimal profile x = .ok y) xs items)
      (hj : collect profile items = .ok j) : Shape P reprDecimal profile v j
  | dict {items : List (PyKey × PyVal)} {members : List (PyStr × Json)}
      (h : Forall₂ (fun p m => p.1 = .str m.1 ∧
        canonicalTree P reprDecimal profile p.2 = .ok m.2) items members) :
      Shape P reprDecimal profile (.dict items) (.obj (sortedBy Prod.fst members))

theorem shape_of_elements {v : PyVal} {xs : List PyVal} {j : Json} (hv : elements? v = some xs)
    (h : canonicalTree P reprDecimal profile v = .ok j) : Shape P reprDecimal profile v j := by
  rw [canonicalTree_of_elements hv] at h
  obtain ⟨items, hitems, hj⟩ := bind_ok.mp h
  exact .array hv (mapM_ok_iff.mp hitems) hj

theorem shape_of_number {v : PyVal} {d : FiniteDecimal} {j : Json}
    (hv : number? reprDecimal v = some d)
    (h : canonicalTree P reprDecimal profile v = .ok j) : Shape P reprDecimal profile v j :=
  .number hv (canonicalTree_of_number hv ▸ h)

theorem shape_of_tree {v : PyVal} {j : Json}
    (h : canonicalTree P reprDecimal profile v = .ok j) : Shape P reprDecimal profile v j := by
  cases v with
  | none =>
    rw [canonicalTree] at h
    obtain ⟨_, -, h⟩ := bind_ok.mp h
    cases h
    exact .none
  | bool b =>
    rw [canonicalTree] at h
    cases h
    exact .bool b
  | str s =>
    rw [canonicalTree] at h
    obtain ⟨_, -, h⟩ := bind_ok.mp h
    cases h
    exact .str s
  | int z => exact shape_of_number rfl h
  | float x =>
    cases x with
    | finite negative mantissa exponent => exact shape_of_number rfl h
    | _ => rw [canonicalTree] at h <;> simp_all
  | decimal x =>
    cases x with
    | finite negative coefficient exponent => exact shape_of_number rfl h
    | _ => rw [canonicalTree] at h <;> simp_all
  | list xs | tuple xs => exact shape_of_elements rfl h
  | set xs | other xs =>
    rw [canonicalTree] at h
    cases h
  | dict items =>
    rw [canonicalTree] at h
    obtain ⟨_, hkeys, h⟩ := bind_ok.mp h
    obtain ⟨members, hmems, h⟩ := bind_ok.mp h
    cases h
    exact .dict (canonicalItems_ok (check_ok.mp hkeys) hmems)

/-! ## Numbers -/

theorem py_zero : py "0" = [zeroDigit] := by decide +kernel

theorem py_minus_zero : py "-0" = [minus, zeroDigit] := by decide +kernel

theorem reading_zero : reading [zeroDigit] = 0 := by
  rw [reading_digits (by simp [isDigit_zeroDigit])]
  simp [digitsValue, zeroDigit]

variable (d : FiniteDecimal)

/-- **The number of the text of a number.** -/
theorem reading_numberText : reading (numberText d) = d.size := by
  rw [numberText]
  by_cases h : d.coefficient = 0
  · have hsize : d.size = 0 := by
      rw [FiniteDecimal.size, h, Nat.cast_zero, zero_mul]
    rw [if_pos h, hsize, py_zero, py_minus_zero]
    cases d.negative with
    | true => exact (reading_minus _).trans reading_zero
    | false => exact reading_zero
  · rw [if_neg h, FiniteDecimal.reading_plain_format]

theorem value_eq_zero_iff {d : FiniteDecimal} : d.value = 0 ↔ d.coefficient = 0 := by
  constructor
  · intro h
    by_contra hne
    have hpos := FiniteDecimal.size_pos hne
    rw [FiniteDecimal.value] at h
    cases hsign : d.negative <;> simp [hsign] at h <;> linarith
  · intro h
    simp [FiniteDecimal.value, FiniteDecimal.size, h]

/-- **Texts of numbers are equal exactly when the numbers are**, with the sign of a zero. -/
theorem numberText_eq_iff {a b : FiniteDecimal} :
    numberText a = numberText b ↔ a.value = b.value ∧ (a.NegativeZero ↔ b.NegativeZero) := by
  have hsize : ∀ {d : FiniteDecimal}, d.size = 0 ↔ d.coefficient = 0 := by
    intro d
    refine ⟨fun h => ?_, fun h => by rw [FiniteDecimal.size, h, Nat.cast_zero, zero_mul]⟩
    by_contra hne
    exact (FiniteDecimal.size_pos hne).ne' h
  by_cases ha : a.coefficient = 0
  · by_cases hb : b.coefficient = 0
    · rw [value_eq_zero_iff.mpr ha, value_eq_zero_iff.mpr hb, numberText, numberText, if_pos ha,
        if_pos hb, py_zero, py_minus_zero, FiniteDecimal.NegativeZero, FiniteDecimal.NegativeZero]
      cases a.negative <;> cases b.negative <;> simp [ha, hb]
    · refine iff_of_false (fun heq => hb ?_) (fun h => hb ?_)
      · rw [← hsize, ← reading_numberText, ← heq, reading_numberText, hsize]
        exact ha
      · rw [← value_eq_zero_iff, ← h.1, value_eq_zero_iff]
        exact ha
  · by_cases hb : b.coefficient = 0
    · refine iff_of_false (fun heq => ha ?_) (fun h => ha ?_)
      · rw [← hsize, ← reading_numberText, heq, reading_numberText, hsize]
        exact hb
      · rw [← value_eq_zero_iff, h.1, value_eq_zero_iff]
        exact hb
    · rw [numberText, numberText, if_neg ha, if_neg hb, FiniteDecimal.plain_format_eq_iff ha hb]
      have hsigns : a.NegativeZero ↔ b.NegativeZero :=
        iff_of_false (fun h => ha h.1) (fun h => hb h.1)
      exact (and_iff_left hsigns).symm

theorem numberText_ne_nil : numberText d ≠ [] := by
  intro hnil
  by_cases h : d.coefficient = 0
  · rw [numberText, if_pos h, py_zero, py_minus_zero] at hnil
    cases hsign : d.negative <;> simp [hsign] at hnil
  · have hreading := reading_numberText d
    rw [hnil] at hreading
    have hpos := FiniteDecimal.size_pos h
    rw [← hreading] at hpos
    simp [reading, digitsValue] at hpos

theorem isNumeral_numberText : ∀ c ∈ numberText d, IsNumeral c = true := by
  intro c hc
  rw [numberText] at hc
  by_cases h : d.coefficient = 0
  · rw [if_pos h, py_zero, py_minus_zero] at hc
    cases hsign : d.negative with
    | true =>
      simp only [hsign, if_true, mem_cons, not_mem_nil, or_false] at hc
      rcases hc with rfl | rfl <;> decide
    | false =>
      simp only [hsign, Bool.false_eq_true, if_false, mem_singleton] at hc
      subst hc
      decide
  · rw [if_neg h, FiniteDecimal.plain_format, mem_append] at hc
    rcases hc with hsign | hbody
    · cases hneg : d.negative with
      | true =>
        simp only [hneg, if_true, mem_singleton] at hsign
        subst hsign
        decide
      | false => simp [hneg] at hsign
    · rcases FiniteDecimal.numeral_of_mem_body (mem_of_mem_plain hbody) with hdigit | rfl
      · rw [IsNumeral, hdigit, Bool.true_or, Bool.true_or]
      · decide

theorem value_settled (profile : SerializationProfile) (d : FiniteDecimal) :
    (settled profile d).value = d.value := by
  rw [settled]
  by_cases h : d.NegativeZero ∧ profile.negativeZeroPolicy = .normalizeToZero
  · rw [if_pos h]
    simp [FiniteDecimal.value, FiniteDecimal.size, h.1.1]
  · rw [if_neg h]

/-- The sign of a zero is left where it is kept. -/
theorem negativeZero_settled {d : FiniteDecimal}
    (h : d.NegativeZero → profile.negativeZeroPolicy ≠ .reject) :
    (settled profile d).NegativeZero ↔ d.NegativeZero ∧ profile.negativeZeroPolicy = .preserve := by
  rw [settled]
  by_cases hnorm : d.NegativeZero ∧ profile.negativeZeroPolicy = .normalizeToZero
  · rw [if_pos hnorm]
    refine iff_of_false (fun hzero => absurd hzero.2 (by decide)) ?_
    rintro ⟨-, hkept⟩
    rw [hnorm.2] at hkept
    cases hkept
  · rw [if_neg hnorm]
    refine ⟨fun hzero => ⟨hzero, ?_⟩, And.left⟩
    cases hpol : profile.negativeZeroPolicy with
    | reject => exact absurd hpol (h hzero)
    | normalizeToZero => exact absurd ⟨hzero, hpol⟩ hnorm
    | preserve => rfl

/-- **Numbers are spelled alike exactly when they are the same.** -/
theorem spelling_eq_iff {a b : FiniteDecimal}
    (ha : a.NegativeZero → profile.negativeZeroPolicy ≠ .reject)
    (hb : b.NegativeZero → profile.negativeZeroPolicy ≠ .reject) :
    spelling profile a = spelling profile b ↔ SameNumber profile a b := by
  rw [spelling, spelling, SameNumber]
  by_cases hpol : profile.numericPolicy = .precisionPreservingDecimalString
  · rw [if_pos hpol, if_pos hpol, if_pos hpol]
  · rw [if_neg hpol, if_neg hpol, if_neg hpol, numberText_eq_iff, value_settled,
      value_settled, negativeZero_settled ha, negativeZero_settled hb]
    refine and_congr_right fun _ => ?_
    by_cases hkept : profile.negativeZeroPolicy = .preserve
    · simp [hkept]
    · simp [hkept]

/-- The trees of numbers are equal exactly when the numbers are the same. -/
theorem numberTree_eq_iff {a b : FiniteDecimal} {j j' : Json}
    (h : numberTree P profile a = .ok j) (h' : numberTree P profile b = .ok j') :
    j = j' ↔ SameNumber profile a b := by
  obtain ⟨ha, ⟨hpol, rfl⟩ | ⟨hpol, rfl⟩⟩ := numberTree_ok h
  · obtain ⟨hb, ⟨-, rfl⟩ | ⟨hnot, -⟩⟩ := numberTree_ok h'
    · rw [Json.float.injEq, spelling_eq_iff ha hb]
    · exact absurd hpol hnot
  · obtain ⟨hb, ⟨hnot, -⟩ | ⟨-, rfl⟩⟩ := numberTree_ok h'
    · exact absurd hnot hpol
    · rw [Json.str.injEq, spelling_eq_iff ha hb]

/-! ## Trees are spelled -/

theorem spelled_numberTree {d : FiniteDecimal} {j : Json} (h : numberTree P profile d = .ok j) :
    Spelled j := by
  obtain ⟨-, ⟨hpol, rfl⟩ | ⟨-, rfl⟩⟩ := numberTree_ok h
  · have hspelling : spelling profile d = numberText (settled profile d) := by
      rw [spelling, if_neg (by rw [hpol]; decide)]
    rw [hspelling]
    exact .number (numberText_ne_nil _) (isNumeral_numberText _)
  · exact .str _

theorem spelled_collect {items : List Json} {j : Json} (hitems : ∀ x ∈ items, Spelled x)
    (h : collect profile items = .ok j) : Spelled j := by
  rcases collect_ok h with ⟨-, rfl⟩ | ⟨-, rfl⟩
  · exact .arr hitems
  · exact .arr fun x hx => hitems x (mem_sortedBy.mp hx)

theorem spelled_of_shape {v : PyVal} {j : Json} (h : Shape P reprDecimal profile v j)
    (helems : ∀ xs, elements? v = some xs → ∀ x ∈ xs, ∀ y,
      canonicalTree P reprDecimal profile x = .ok y → Spelled y)
    (hitems : ∀ items, v = .dict items → ∀ p ∈ items, ∀ y,
      canonicalTree P reprDecimal profile p.2 = .ok y → Spelled y) : Spelled j := by
  cases h with
  | none => exact .null
  | bool b => exact .bool b
  | str s => exact .str s
  | number _ hj => exact spelled_numberTree hj
  | array hv hall hj =>
    refine spelled_collect (fun y hy => ?_) hj
    obtain ⟨x, hx, hone⟩ := mem_of_forall₂_right hall hy
    exact helems _ hv x hx y hone
  | dict hall =>
    refine .obj fun m hm => ?_
    obtain ⟨p, hp, -, hone⟩ := mem_of_forall₂_right hall (mem_sortedBy.mp hm)
    exact hitems _ rfl p hp m.2 hone

/-- **The tree of a value is determined by its text.** -/
theorem spelled_of_tree {v : PyVal} {j : Json}
    (h : canonicalTree P reprDecimal profile v = .ok j) : Spelled j := by
  induction v generalizing j with
  | list xs ih | tuple xs ih =>
    refine spelled_of_shape (shape_of_tree h) (fun ys hys x hx y hy => ?_) nofun
    cases hys
    exact ih x hx hy
  | dict items ih =>
    refine spelled_of_shape (shape_of_tree h) nofun (fun items' heq p hp y hy => ?_)
    obtain rfl := PyVal.dict.inj heq
    exact ih p hp hy
  | _ => exact spelled_of_shape (shape_of_tree h) nofun nofun

/-! ## Arrays and objects -/

/-- What is known of the elements of an array. -/
def Separated (P : Platform) (reprDecimal : PyFloat → FiniteDecimal)
    (profile : SerializationProfile) (v : PyVal) : Prop :=
  ∀ w j j', DistinctKeys w → canonicalTree P reprDecimal profile v = .ok j →
    canonicalTree P reprDecimal profile w = .ok j' → (j = j' ↔ Same reprDecimal profile v w)

/-- The element is written as the tree. -/
def Writes (P : Platform) (reprDecimal : PyFloat → FiniteDecimal) (profile : SerializationProfile)
    (v : PyVal) (j : Json) : Prop :=
  canonicalTree P reprDecimal profile v = .ok j

theorem sequence_eq_iff {xs ys : List PyVal} {js js' : List Json}
    (ih : ∀ x ∈ xs, Separated P reprDecimal profile x) (hys : ∀ y ∈ ys, DistinctKeys y)
    (hx : Forall₂ (Writes P reprDecimal profile) xs js)
    (hy : Forall₂ (Writes P reprDecimal profile) ys js') :
    js = js' ↔ Forall₂ (Same reprDecimal profile) xs ys :=
  Lists.written_eq_iff (fun x hmem y hmem' j j' => ih x hmem y j j' (hys y hmem')) hx hy

/-- Sorted lists are equal exactly when the lists are permutations, where the key separates. -/
theorem sortedBy_eq_iff {α κ : Type} [LinearOrder κ] {key : α → κ} {xs ys : List α}
    (hinj : ∀ a ∈ xs, ∀ b ∈ xs, key a = key b → a = b) :
    sortedBy key xs = sortedBy key ys ↔ xs.Perm ys := by
  constructor
  · intro heq
    exact (sortedBy_perm key xs).symm.trans (heq ▸ sortedBy_perm key ys)
  · exact sortedBy_eq_of_perm hinj

theorem set_eq_iff {xs ys : List PyVal} {js js' : List Json}
    (ih : ∀ x ∈ xs, Separated P reprDecimal profile x) (hys : ∀ y ∈ ys, DistinctKeys y)
    (hx : Forall₂ (Writes P reprDecimal profile) xs js)
    (hy : Forall₂ (Writes P reprDecimal profile) ys js') :
    sortedBy render js = sortedBy render js' ↔
      ∃ zs, xs.Perm zs ∧ Forall₂ (Same reprDecimal profile) zs ys := by
  have hspelled : ∀ j ∈ js, Spelled j := by
    intro j hj
    obtain ⟨x, -, hone⟩ := mem_of_forall₂_right hx hj
    exact spelled_of_tree hone
  rw [sortedBy_eq_iff fun a ha b hb => (hspelled a ha).render_inj (hspelled b hb)]
  constructor
  · intro hperm
    obtain ⟨zs, hzs, hz⟩ := Lists.exists_perm_left hx hperm
    refine ⟨zs, hzs, (sequence_eq_iff ?_ hys hz hy).mp rfl⟩
    exact fun z hmem => ih z (hzs.mem_iff.mpr hmem)
  · rintro ⟨zs, hzs, hsame⟩
    obtain ⟨js'', hperm, hz⟩ := Lists.exists_perm_right hx hzs
    obtain rfl := (sequence_eq_iff (fun z hmem => ih z (hzs.mem_iff.mpr hmem)) hys hz hy).mpr hsame
    exact hperm

/-- The member is written as the member of the tree. -/
def WritesMember (P : Platform) (reprDecimal : PyFloat → FiniteDecimal)
    (profile : SerializationProfile) (p : PyKey × PyVal) (m : PyStr × Json) : Prop :=
  p.1 = .str m.1 ∧ canonicalTree P reprDecimal profile p.2 = .ok m.2

theorem members_eq_iff {items items' : List (PyKey × PyVal)} {ms ms' : List (PyStr × Json)}
    (ih : ∀ p ∈ items, Separated P reprDecimal profile p.2)
    (hitems' : ∀ p ∈ items', DistinctKeys p.2)
    (hx : Forall₂ (WritesMember P reprDecimal profile) items ms)
    (hy : Forall₂ (WritesMember P reprDecimal profile) items' ms') :
    ms = ms' ↔ items.map Prod.fst = items'.map Prod.fst ∧
      Forall₂ (Same reprDecimal profile) (items.map Prod.snd) (items'.map Prod.snd) := by
  induction hx generalizing items' ms' with
  | nil =>
    cases hy with
    | nil => exact iff_of_true rfl ⟨rfl, .nil⟩
    | cons _ _ => exact iff_of_false nofun fun h => by cases h.1
  | @cons p m items ms hone _ ihrest =>
    cases hy with
    | nil => exact iff_of_false nofun fun h => by cases h.1
    | @cons q m' items' ms' hone' hrest' =>
      have hval := ih p mem_cons_self q.2 m.2 m'.2 (hitems' q mem_cons_self) hone.2
        hone'.2
      have hkey : m.1 = m'.1 ↔ p.1 = q.1 := by
        rw [hone.1, hone'.1, PyKey.str.injEq]
      rw [List.cons.injEq, Prod.ext_iff, hkey, hval,
        ihrest (fun z hz => ih z (mem_cons_of_mem _ hz))
          (fun z hz => hitems' z (mem_cons_of_mem _ hz)) hrest',
        map_cons, map_cons, map_cons, map_cons, List.cons.injEq,
        forall₂_cons]
      tauto

theorem keys_of_writes {items : List (PyKey × PyVal)} {ms : List (PyStr × Json)}
    (h : Forall₂ (WritesMember P reprDecimal profile) items ms) :
    items.map Prod.fst = (ms.map Prod.fst).map .str := by
  induction h with
  | nil => rfl
  | cons hone _ ih => rw [map_cons, map_cons, map_cons, hone.1, ih]

theorem dict_eq_iff {items items' : List (PyKey × PyVal)} {ms ms' : List (PyStr × Json)}
    (ih : ∀ p ∈ items, Separated P reprDecimal profile p.2)
    (hkeys : (items.map Prod.fst).Nodup) (hitems' : ∀ p ∈ items', DistinctKeys p.2)
    (hx : Forall₂ (WritesMember P reprDecimal profile) items ms)
    (hy : Forall₂ (WritesMember P reprDecimal profile) items' ms') :
    sortedBy Prod.fst ms = sortedBy Prod.fst ms' ↔
      ∃ zs, items.Perm zs ∧ zs.map Prod.fst = items'.map Prod.fst ∧
        Forall₂ (Same reprDecimal profile) (zs.map Prod.snd) (items'.map Prod.snd) := by
  have hnd : (ms.map Prod.fst).Nodup := by
    rw [keys_of_writes hx] at hkeys
    exact hkeys.of_map
  rw [sortedBy_eq_iff fun a ha b hb heq => inj_on_of_nodup_map hnd ha hb heq]
  constructor
  · intro hperm
    obtain ⟨zs, hzs, hz⟩ := Lists.exists_perm_left hx hperm
    refine ⟨zs, hzs, (members_eq_iff ?_ hitems' hz hy).mp rfl⟩
    exact fun z hmem => ih z (hzs.mem_iff.mpr hmem)
  · rintro ⟨zs, hzs, hsame⟩
    obtain ⟨ms'', hperm, hz⟩ := Lists.exists_perm_right hx hzs
    obtain rfl :=
      (members_eq_iff (fun z hmem => ih z (hzs.mem_iff.mpr hmem)) hitems' hz hy).mpr hsame
    exact hperm

/-! ## Values -/

/-- What is known of the parts of a value. -/
structure Parts (P : Platform) (reprDecimal : PyFloat → FiniteDecimal)
    (profile : SerializationProfile) (v : PyVal) : Prop where
  elements : ∀ xs, elements? v = some xs → ∀ x ∈ xs, Separated P reprDecimal profile x
  items : ∀ items, v = .dict items →
    (items.map Prod.fst).Nodup ∧ ∀ p ∈ items, Separated P reprDecimal profile p.2

theorem DistinctKeys.elements {v : PyVal} (h : DistinctKeys v) {xs : List PyVal}
    (hv : elements? v = some xs) : ∀ x ∈ xs, DistinctKeys x := by
  cases h with
  | list h =>
    cases hv
    exact h
  | tuple h =>
    cases hv
    exact h
  | _ => cases hv

theorem DistinctKeys.items {items : List (PyKey × PyVal)} (h : DistinctKeys (.dict items)) :
    (items.map Prod.fst).Nodup ∧ ∀ p ∈ items, DistinctKeys p.2 := by
  cases h with
  | dict hkeys h => exact ⟨hkeys, h⟩

/-- What an array is written as, given how its elements are written. -/
theorem array_of_tree {v : PyVal} {xs : List PyVal} {j : Json} (hv : elements? v = some xs)
    (h : canonicalTree P reprDecimal profile v = .ok j) :
    ∃ items, Forall₂ (Writes P reprDecimal profile) xs items ∧
      collect profile items = .ok j := by
  rw [canonicalTree_of_elements hv] at h
  obtain ⟨items, hitems, hj⟩ := bind_ok.mp h
  exact ⟨items, mapM_ok_iff.mp hitems, hj⟩

theorem object_of_tree {items : List (PyKey × PyVal)} {j : Json}
    (h : canonicalTree P reprDecimal profile (.dict items) = .ok j) :
    ∃ ms, Forall₂ (WritesMember P reprDecimal profile) items ms ∧
      j = .obj (sortedBy Prod.fst ms) := by
  cases shape_of_tree h with
  | number hv => cases hv
  | array hv => cases hv
  | dict hmems => exact ⟨_, hmems, rfl⟩

theorem text_of_tree {s : PyStr} {j : Json}
    (h : canonicalTree P reprDecimal profile (.str s) = .ok j) : j = .str s := by
  cases shape_of_tree h with
  | str => rfl
  | number hv => cases hv
  | array hv => cases hv

/-- A number that is written as a text. -/
theorem spelled_of_number {v : PyVal} {a : FiniteDecimal} {j : Json}
    (hpol : profile.numericPolicy ≠ .jsonNumber) (hv : number? reprDecimal v = some a)
    (h : canonicalTree P reprDecimal profile v = .ok j) : j = .str (spelling profile a) := by
  rw [canonicalTree_of_number hv] at h
  obtain ⟨-, ⟨hnot, -⟩ | ⟨-, hj⟩⟩ := numberTree_ok h
  · exact absurd hnot hpol
  · exact hj

/-- **Values that are the same are written alike.** -/
theorem tree_eq_of_same {v w : PyVal} {j j' : Json} (hparts : Parts P reprDecimal profile v)
    (hw : DistinctKeys w) (h : canonicalTree P reprDecimal profile v = .ok j)
    (h' : canonicalTree P reprDecimal profile w = .ok j')
    (hsame : Same reprDecimal profile v w) : j = j' := by
  cases hsame with
  | none => exact Except.ok.inj (h.symm.trans h')
  | bool b | str b => exact Except.ok.inj (h.symm.trans h')
  | number hv hw' hnumber =>
    rw [canonicalTree_of_number hv] at h
    rw [canonicalTree_of_number hw'] at h'
    exact (numberTree_eq_iff h h').mpr hnumber
  | spelled hpol hv => rw [spelled_of_number hpol hv h, text_of_tree h']
  | spells hpol hv => rw [spelled_of_number hpol hv h', text_of_tree h]
  | sequence hpol hv hw' hall =>
    obtain ⟨items, hitems, hj⟩ := array_of_tree hv h
    obtain ⟨items', hitems', hj'⟩ := array_of_tree hw' h'
    rcases collect_ok hj with ⟨-, rfl⟩ | ⟨hset, -⟩
    · rcases collect_ok hj' with ⟨-, rfl⟩ | ⟨hset, -⟩
      · rw [(sequence_eq_iff (hparts.elements _ hv) (hw.elements hw') hitems hitems').mpr hall]
      · exact absurd hset hpol
    · exact absurd hset hpol
  | set hpol hv hw' hperm hall =>
    obtain ⟨items, hitems, hj⟩ := array_of_tree hv h
    obtain ⟨items', hitems', hj'⟩ := array_of_tree hw' h'
    rcases collect_ok hj with ⟨hnot, -⟩ | ⟨-, rfl⟩
    · exact absurd hpol hnot
    · rcases collect_ok hj' with ⟨hnot, -⟩ | ⟨-, rfl⟩
      · exact absurd hpol hnot
      · rw [(set_eq_iff (hparts.elements _ hv) (hw.elements hw') hitems hitems').mpr
          ⟨_, hperm, hall⟩]
  | dict hperm hkeys hall =>
    obtain ⟨ms, hms, rfl⟩ := object_of_tree h
    obtain ⟨ms', hms', rfl⟩ := object_of_tree h'
    obtain ⟨hnd, hseparated⟩ := hparts.items _ rfl
    rw [(dict_eq_iff hseparated hnd hw.items.2 hms hms').mpr ⟨_, hperm, hkeys, hall⟩]

theorem collect_ne {items : List Json} {j : Json} (h : collect profile items = .ok j) :
    ∃ xs, j = .arr xs := by
  rcases collect_ok h with ⟨-, rfl⟩ | ⟨-, rfl⟩
  · exact ⟨_, rfl⟩
  · exact ⟨_, rfl⟩

theorem numberTree_ne {d : FiniteDecimal} {j : Json} (h : numberTree P profile d = .ok j) :
    ∃ t, j = .float t ∨ j = .str t := by
  obtain ⟨-, ⟨-, rfl⟩ | ⟨-, rfl⟩⟩ := numberTree_ok h
  · exact ⟨_, .inl rfl⟩
  · exact ⟨_, .inr rfl⟩

/-- **Values that are written alike are the same.** -/
theorem same_of_tree_eq {v w : PyVal} {j j' : Json} (hparts : Parts P reprDecimal profile v)
    (hw : DistinctKeys w) (h : canonicalTree P reprDecimal profile v = .ok j)
    (h' : canonicalTree P reprDecimal profile w = .ok j') (heq : j = j') :
    Same reprDecimal profile v w := by
  have hshape := shape_of_tree h
  have hshape' := shape_of_tree h'
  cases hshape with
  | none =>
    cases hshape' with
    | none => exact .none
    | number _ hj =>
      obtain ⟨t, rfl | rfl⟩ := numberTree_ne hj
      all_goals cases heq
    | array _ _ hj =>
      obtain ⟨xs, rfl⟩ := collect_ne hj
      cases heq
    | _ => cases heq
  | bool b =>
    cases hshape' with
    | bool b' =>
      obtain rfl := Json.bool.inj heq
      exact .bool b
    | number _ hj =>
      obtain ⟨t, rfl | rfl⟩ := numberTree_ne hj
      all_goals cases heq
    | array _ _ hj =>
      obtain ⟨xs, rfl⟩ := collect_ne hj
      cases heq
    | _ => cases heq
  | str s =>
    cases hshape' with
    | str s' =>
      obtain rfl := Json.str.inj heq
      exact .str s
    | number hv hj =>
      obtain ⟨-, ⟨-, rfl⟩ | ⟨hpol, rfl⟩⟩ := numberTree_ok hj
      · cases heq
      · obtain rfl := Json.str.inj heq
        exact .spells hpol hv
    | array _ _ hj =>
      obtain ⟨xs, rfl⟩ := collect_ne hj
      cases heq
    | _ => cases heq
  | number hv hj =>
    cases hshape' with
    | str s =>
      obtain ⟨-, ⟨-, rfl⟩ | ⟨hpol, rfl⟩⟩ := numberTree_ok hj
      · cases heq
      · obtain rfl := Json.str.inj heq
        exact .spelled hpol hv
    | number hw' hj' => exact .number hv hw' ((numberTree_eq_iff hj hj').mp heq)
    | array _ _ hj' =>
      obtain ⟨xs, rfl⟩ := collect_ne hj'
      obtain ⟨t, rfl | rfl⟩ := numberTree_ne hj
      all_goals cases heq
    | _ =>
      obtain ⟨t, rfl | rfl⟩ := numberTree_ne hj
      all_goals cases heq
  | array hv hitems hj =>
    cases hshape' with
    | array hw' hitems' hj' =>
      rcases collect_ok hj with ⟨hpol, rfl⟩ | ⟨hpol, rfl⟩
      · rcases collect_ok hj' with ⟨-, rfl⟩ | ⟨hset, -⟩
        · refine .sequence hpol hv hw' ?_
          exact (sequence_eq_iff (hparts.elements _ hv) (hw.elements hw') hitems hitems').mp
            (Json.arr.inj heq)
        · exact absurd hset hpol
      · rcases collect_ok hj' with ⟨hnot, -⟩ | ⟨-, rfl⟩
        · exact absurd hpol hnot
        · obtain ⟨zs, hperm, hall⟩ :=
            (set_eq_iff (hparts.elements _ hv) (hw.elements hw') hitems hitems').mp
              (Json.arr.inj heq)
          exact .set hpol hv hw' hperm hall
    | number _ hj' =>
      obtain ⟨xs, rfl⟩ := collect_ne hj
      obtain ⟨t, rfl | rfl⟩ := numberTree_ne hj'
      all_goals cases heq
    | _ =>
      obtain ⟨xs, rfl⟩ := collect_ne hj
      cases heq
  | dict hmems =>
    cases hshape' with
    | dict hmems' =>
      obtain ⟨hnd, hseparated⟩ := hparts.items _ rfl
      obtain ⟨zs, hperm, hkeys, hall⟩ :=
        (dict_eq_iff hseparated hnd hw.items.2 hmems hmems').mp (Json.obj.inj heq)
      exact .dict hperm hkeys hall
    | number _ hj =>
      obtain ⟨t, rfl | rfl⟩ := numberTree_ne hj
      all_goals cases heq
    | array _ _ hj =>
      obtain ⟨xs, rfl⟩ := collect_ne hj
      cases heq
    | _ => cases heq

theorem separated_of_parts {v : PyVal} (hparts : Parts P reprDecimal profile v) :
    Separated P reprDecimal profile v := fun _ _ _ hw h h' =>
  ⟨same_of_tree_eq hparts hw h h', tree_eq_of_same hparts hw h h'⟩

/-- **Trees are equal exactly when the values are the same.** -/
theorem separated {v : PyVal} (hv : DistinctKeys v) : Separated P reprDecimal profile v := by
  induction v with
  | list xs ih | tuple xs ih =>
    refine separated_of_parts ⟨fun ys hys x hx => ?_, nofun⟩
    cases hys
    exact ih x hx (hv.elements rfl x hx)
  | dict items ih =>
    refine separated_of_parts ⟨nofun, fun items' heq => ?_⟩
    obtain rfl := PyVal.dict.inj heq
    exact ⟨hv.items.1, fun p hp => ih p hp (hv.items.2 p hp)⟩
  | _ => exact separated_of_parts ⟨nofun, nofun⟩

theorem canonicalize_ok {v : PyVal} {bytes : PyStr}
    (h : canonicalize P reprDecimal profile v = .ok bytes) :
    ∃ j, canonicalTree P reprDecimal profile v = .ok j ∧ bytes = j.render := by
  obtain ⟨j, hj, h⟩ := bind_ok.mp h
  exact ⟨j, hj, (encodeUtf8_ok.mp (mapError_ok.mp h)).2.symm⟩

/-- **Canonical bytes are equal exactly when the values are the same** under the profile; where
numbers are JSON numbers, no number shares its bytes with a text. -/
theorem canonical_bytes_eq_iff {v w : PyVal} {bytes bytes' : PyStr} (hv : DistinctKeys v)
    (hw : DistinctKeys w) (h : canonicalize P reprDecimal profile v = .ok bytes)
    (h' : canonicalize P reprDecimal profile w = .ok bytes') :
    (bytes = bytes' ↔ Same reprDecimal profile v w) ∧
      (profile.numericPolicy = .jsonNumber → ∀ a s, number? reprDecimal v = some a → w = .str s →
        bytes ≠ bytes') := by
  obtain ⟨j, hj, rfl⟩ := canonicalize_ok h
  obtain ⟨j', hj', rfl⟩ := canonicalize_ok h'
  have hiff : render j = render j' ↔ Same reprDecimal profile v w := by
    rw [← separated hv w j j' hw hj hj']
    exact ⟨(spelled_of_tree hj).render_inj (spelled_of_tree hj'), congrArg render⟩
  refine ⟨hiff, ?_⟩
  rintro hpol a s ha rfl heq
  cases hiff.mp heq with
  | str s => cases ha
  | number _ hs _ => cases hs
  | spelled hnot _ => exact hnot hpol
  | spells hnot _ => exact hnot hpol
  | sequence _ _ hs _ => cases hs
  | set _ _ hs _ _ => cases hs

namespace Reference

/-- Numbers as texts. -/
def decimalStrings : SerializationProfile :=
  ⟨.preserve, .canonicalDecimalString, .reject, .orderedSequence, .explicitAllow⟩

/-- No float occurs. -/
def noFloat : PyFloat → FiniteDecimal := fun _ => ⟨false, 0, 0⟩

theorem canonicalize_number :
    canonicalize .reference noFloat decimalStrings (.int 1) = .ok (py "\"1\"") := by
  decide +kernel

theorem canonicalize_text :
    canonicalize .reference noFloat decimalStrings (.str (py "1")) = .ok (py "\"1\"") := by
  decide +kernel

end Reference

/-- The number and its text have the same bytes. -/
theorem canonical_bytes_eq_iff_of_one :
    Same Reference.noFloat Reference.decimalStrings (.int 1) (.str (py "1")) :=
  (canonical_bytes_eq_iff (.int 1) (.str (py "1")) Reference.canonicalize_number
    Reference.canonicalize_text).1.mp rfl

/-- **A number and a text may share their bytes** where numbers are written as texts. -/
theorem number_shares_bytes : ¬ ∀ (P : Platform) (reprDecimal : PyFloat → FiniteDecimal)
    (profile : SerializationProfile) (z : Int) (s bytes bytes' : PyStr),
      canonicalize P reprDecimal profile (.int z) = .ok bytes →
        canonicalize P reprDecimal profile (.str s) = .ok bytes' → bytes ≠ bytes' := by
  intro h
  exact h _ _ _ _ _ _ _ Reference.canonicalize_number Reference.canonicalize_text rfl

end OvcReplay.SharedSystems
