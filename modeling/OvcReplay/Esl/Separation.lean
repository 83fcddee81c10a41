import OvcReplay.Esl.Agreement
import OvcReplay.Esl.Tokens
import OvcReplay.Lists.Arranged

/-! # Canonical bytes tell values apart

Two values whose numbers fit the context have the same bytes exactly when they are the same up to
the order of keys, the spelling of numbers and the order of the arrays that stand for sets. -/

namespace OvcReplay.Esl

open Python Json SharedSystems OvcReplay.Lists

variable {L : Language}

/-! ## When values are the same -/

/-- The fields whose arrays stand for sets. -/
def SetLike (field : PyStr) : Prop :=
  field = py "facets" ∨ field ∈ setArrays ∨ field = py "dependency_refs"

mutual

/-- **Values that are the same** in a field. -/
inductive Same (L : Language) : PyStr → PyVal → PyVal → Prop
  | none (field : PyStr) : Same L field .none .none
  | bool (field : PyStr) (b : Bool) : Same L field (.bool b) (.bool b)
  | str (field : PyStr) (s : PyStr) : Same L field (.str s) (.str s)
  | number (field : PyStr) {v w : PyVal} {a b : FiniteDecimal}
      (hv : number? L.floatDecimal v = some a) (hw : number? L.floatDecimal w = some b)
      (h : a.value = b.value) : Same L field v w
  | sequence {field : PyStr} {v w : PyVal} {xs ys : List PyVal} (hfield : ¬ SetLike field)
      (hv : elements? v = some xs) (hw : elements? w = some ys)
      (h : List.Forall₂ (Same L []) xs ys) : Same L field v w
  | set {field : PyStr} {v w : PyVal} {xs ys zs : List PyVal} (hfield : SetLike field)
      (hv : elements? v = some xs) (hw : elements? w = some ys) (hperm : xs.Perm zs)
      (h : List.Forall₂ (Same L []) zs ys) : Same L field v w
  | dict (field : PyStr) {items items' zs : List (PyKey × PyVal)} (hperm : items.Perm zs)
      (h : List.Forall₂ (SameItem L) zs items') : Same L field (.dict items) (.dict items')

/-- Items that are the same. -/
inductive SameItem (L : Language) : PyKey × PyVal → PyKey × PyVal → Prop
  | item {k : PyKey} {v w : PyVal} (h : Same L (keyOf k) v w) : SameItem L (k, v) (k, w)

end

/-! ## The keys of arrays that stand for sets -/

/-- The rank of a facet. -/
def facetRank (v : PyVal) : Option Nat := (dimension? v).bind fun name => dimensions.idxOf? name

/-- The text of the id of a reference. -/
def refText (v : PyVal) : Option PyStr := (refId? v).bind str?

/-- The elements of an array that stands for a set are told apart by what they are sorted by. -/
def Keyed (field : PyStr) (xs : List PyVal) : Prop :=
  (field = py "facets" → ∀ a ∈ xs, ∀ b ∈ xs, facetRank a = facetRank b → a = b) ∧
    (field = py "dependency_refs" →
      (∀ a ∈ xs, (refText a).isSome = true) ∧ ∀ a ∈ xs, ∀ b ∈ xs, refText a = refText b → a = b)

/-- A value whose dictionaries have each key once and whose sets have each key once. -/
inductive WellKeyed : PyStr → PyVal → Prop
  | atom (field : PyStr) {v : PyVal} (helements : elements? v = none)
      (hitems : ∀ items, v ≠ .dict items) : WellKeyed field v
  | array {field : PyStr} {v : PyVal} {xs : List PyVal} (hv : elements? v = some xs)
      (hkeyed : Keyed field xs) (h : ∀ x ∈ xs, WellKeyed [] x) : WellKeyed field v
  | dict (field : PyStr) {items : List (PyKey × PyVal)} (hkeys : (items.map Prod.fst).Nodup)
      (h : ∀ p ∈ items, WellKeyed (keyOf p.1) p.2) : WellKeyed field (.dict items)

variable {field : PyStr} {v : PyVal} {xs : List PyVal} {j : Json} {d : FiniteDecimal}

theorem WellKeyed.elements (h : WellKeyed field v)
    (hv : elements? v = some xs) : Keyed field xs ∧ ∀ x ∈ xs, WellKeyed [] x := by
  cases h with
  | atom _ hnone _ => exact absurd (hv.symm.trans hnone) nofun
  | array hv' hkeyed h =>
    cases hv.symm.trans hv'
    exact ⟨hkeyed, h⟩
  | dict => cases hv

theorem WellKeyed.items {field : PyStr} {items : List (PyKey × PyVal)}
    (h : WellKeyed field (.dict items)) :
    (items.map Prod.fst).Nodup ∧ ∀ p ∈ items, WellKeyed (keyOf p.1) p.2 := by
  cases h with
  | atom _ _ hitems => exact absurd rfl (hitems items)
  | array hv => cases hv
  | dict _ hkeys h => exact ⟨hkeys, h⟩

/-! ## Numbers in a value -/

/-- The decimal that a float or a decimal is written from. -/
def decimal? (L : Language) : PyVal → Option FiniteDecimal
  | .float (.finite negative mantissa exponent) =>
    some (L.floatDecimal (.finite negative mantissa exponent))
  | .decimal (.finite negative coefficient exponent) => some ⟨negative, coefficient, exponent⟩
  | _ => none

/-- A number occurs in a value. -/
inductive Occurs (L : Language) (d : FiniteDecimal) : PyVal → Prop
  | here {v : PyVal} (h : decimal? L v = some d) : Occurs L d v
  | element {v x : PyVal} {xs : List PyVal} (hv : elements? v = some xs) (hx : x ∈ xs)
      (h : Occurs L d x) : Occurs L d v
  | item {p : PyKey × PyVal} {items : List (PyKey × PyVal)} (hp : p ∈ items)
      (h : Occurs L d p.2) : Occurs L d (.dict items)

/-- Every number of a value fits the context. -/
def AllFit (L : Language) (v : PyVal) : Prop := ∀ d, Occurs L d v → Fits d

/-- Every number of a value is written exactly. -/
def AllExact (L : Language) (v : PyVal) : Prop := ∀ d, Occurs L d v → Exact d

theorem AllFit.elements (h : AllFit L v) (hv : elements? v = some xs) : ∀ x ∈ xs, AllFit L x :=
  fun _ hx d hd => h d (.element hv hx hd)

theorem AllFit.items {items : List (PyKey × PyVal)} (h : AllFit L (.dict items)) :
    ∀ p ∈ items, AllFit L p.2 :=
  fun _ hp d hd => h d (.item hp hd)

/-! ## What is written -/

/-- The element is written as the tree. -/
def Writes (L : Language) (field : PyStr) (v : PyVal) (j : Json) : Prop := walk L field v = .ok j

/-- The item is written as the member. -/
def WritesMember (L : Language) (p : PyKey × PyVal) (m : PyStr × Json) : Prop :=
  p.1 = .str m.1 ∧ walk L (keyOf p.1) p.2 = .ok m.2

/-- What an array is written as. -/
theorem array_of_walk (hv : elements? v = some xs) (h : walk L field v = .ok j) :
    ∃ ys js, arrayOrder L id xs field = .ok ys ∧ List.Forall₂ (Writes L []) ys js ∧
      j = .arr js := by
  have harray : (arrayOrder L Prod.fst (walkList L xs) field >>= fun ordered =>
      ordered.mapM Prod.snd >>= fun items => .ok (Json.arr items)) = .ok j := by
    cases v with
    | list ys | tuple ys =>
      cases hv
      rw [walk] at h
      exact h
    | _ => cases hv
  rw [walkList_eq, arrayOrder_map (fun x => (x, walk L [] x))] at harray
  obtain ⟨ordered, hord, h⟩ := bind_ok.mp harray
  obtain ⟨ys, hys, rfl⟩ := map_ok.mp hord
  obtain ⟨js, hjs, h⟩ := bind_ok.mp h
  cases h
  rw [List.mapM_map] at hjs
  exact ⟨ys, js, hys, mapM_ok_iff.mp hjs, rfl⟩

/-- What a dictionary is written as: its items in the order of their keys. -/
theorem object_of_walk {items : List (PyKey × PyVal)} (h : walk L field (.dict items) = .ok j) :
    (∀ p ∈ items, ∃ s, p.1 = .str s) ∧
    ∃ ms, List.Forall₂ (WritesMember L) (sortedBy (fun p => keyOf p.1) items) ms ∧ j = .obj ms := by
  rw [walk] at h
  obtain ⟨_, hkeys, h⟩ := bind_ok.mp h
  obtain ⟨ms, hms, h⟩ := bind_ok.mp h
  cases h
  have htext : ∀ p ∈ items, ∃ s, p.1 = .str s := by
    intro p hp
    have hsome := check_ok.mp hkeys p hp
    cases hkey : p.1 with
    | str s => exact ⟨s, rfl⟩
    | _ =>
      rw [hkey] at hsome
      cases hsome
  refine ⟨htext, ms, ?_, rfl⟩
  rw [walkItems_eq, sortedBy_map, List.mapM_map] at hms
  refine forall₂_of_mem (mapM_ok_iff.mp hms) fun p hp m hm => ?_
  obtain ⟨s, hs⟩ := htext p (mem_sortedBy.mp hp)
  obtain ⟨_, -, hm⟩ := bind_ok.mp hm
  obtain ⟨j, hj, hm⟩ := bind_ok.mp hm
  cases hm
  refine ⟨?_, hj⟩
  show p.1 = .str (keyOf p.1)
  rw [hs]
  rfl

/-- **What a value is written as**, by its kind. -/
inductive Shape (L : Language) (field : PyStr) : PyVal → Json → Prop
  | none : Shape L field .none .null
  | bool (b : Bool) : Shape L field (.bool b) (.bool b)
  | str (s : PyStr) : Shape L field (.str s) (.str s)
  | number {v : PyVal} {d d' : FiniteDecimal} (hv : number? L.floatDecimal v = some d)
      (hzero : ¬ d'.NegativeZero) (hvalue : d'.value = d.value) :
      Shape L field v (.float (numberText d'))
  | array {v : PyVal} {xs ys : List PyVal} {js : List Json} (hv : elements? v = some xs)
      (hys : arrayOrder L id xs field = .ok ys) (hjs : List.Forall₂ (Writes L []) ys js) :
      Shape L field v (.arr js)
  | dict {items : List (PyKey × PyVal)} {ms : List (PyStr × Json)}
      (htext : ∀ p ∈ items, ∃ s, p.1 = .str s)
      (hms : List.Forall₂ (WritesMember L) (sortedBy (fun p => keyOf p.1) items) ms) :
      Shape L field (.dict items) (.obj ms)

theorem shape_of_elements
    (hv : elements? v = some xs) (h : walk L field v = .ok j) : Shape L field v j := by
  obtain ⟨ys, js, hys, hjs, rfl⟩ := array_of_walk hv h
  exact .array hv hys hjs

/-- What a float or a decimal is written as. -/
theorem token_of_walk
    (hv : decimal? L v = some d) (h : walk L field v = .ok j) : decimalToken d = .ok j := by
  cases v with
  | float x =>
    cases x with
    | finite negative mantissa exponent =>
      cases hv
      rw [walk] at h
      by_cases hzero : mantissa = 0 ∧ negative = true
      · rw [if_pos hzero] at h
        cases h
      · rw [if_neg hzero] at h
        exact h
    | _ => cases hv
  | decimal x =>
    cases x with
    | finite negative coefficient exponent =>
      cases hv
      rw [walk] at h
      exact h
    | _ => cases hv
  | _ => cases hv

theorem shape_of_decimal (hv : decimal? L v = some d) (hnumber : number? L.floatDecimal v = some d)
    (hfit : AllFit L v) (h : walk L field v = .ok j) : Shape L field v j := by
  obtain ⟨d', rfl, hzero, hval⟩ :=
    decimalToken_of_fits (hfit d (.here hv)) (token_of_walk hv h)
  exact .number hnumber hzero hval

theorem shape_of_walk (hfit : AllFit L v) (h : walk L field v = .ok j) : Shape L field v j := by
  cases v with
  | none =>
    rw [walk] at h
    cases h
    exact .none
  | bool b =>
    rw [walk] at h
    cases h
    exact .bool b
  | str s =>
    rw [walk] at h
    obtain ⟨_, -, h⟩ := bind_ok.mp h
    cases h
    exact .str s
  | int z =>
    rw [walk] at h
    obtain ⟨text, htext, rfl⟩ := map_ok.mp h
    obtain ⟨-, rfl⟩ := strInt_ok.mp (mapError_ok.mp htext)
    rw [intText_eq]
    refine .number rfl ?_ rfl
    -- zero has no sign
    rintro ⟨hzero, hsign⟩
    have hz : z = 0 := Int.natAbs_eq_zero.mp hzero
    subst hz
    cases hsign
  | float x =>
    cases x with
    | finite negative mantissa exponent => exact shape_of_decimal rfl rfl hfit h
    | _ => rw [walk] at h <;> simp_all
  | decimal x =>
    cases x with
    | finite negative coefficient exponent => exact shape_of_decimal rfl rfl hfit h
    | _ => rw [walk] at h <;> simp_all
  | list xs | tuple xs => exact shape_of_elements rfl h
  | set xs | other xs =>
    rw [walk] at h
    cases h
  | dict items =>
    obtain ⟨htext, ms, hms, rfl⟩ := object_of_walk h
    exact .dict htext hms

/-- **Every number of a value that is accepted is accepted.** -/
theorem returns_of_occurs (hd : Occurs L d v)
    (h : walk L field v = .ok j) : ∃ j', decimalToken d = .ok j' := by
  induction hd generalizing field j with
  | here hv => exact ⟨j, token_of_walk hv h⟩
  | element hv hx _ ih =>
    obtain ⟨ys, js, hys, hjs, -⟩ := array_of_walk hv h
    obtain ⟨y, -, hy⟩ := mem_of_forall₂_left hjs ((perm_of_arrayOrder hys).mem_iff.mpr hx)
    exact ih hy
  | item hp _ ih =>
    obtain ⟨-, ms, hms, -⟩ := object_of_walk h
    obtain ⟨m, -, hm⟩ := mem_of_forall₂_left hms (mem_sortedBy.mpr hp)
    exact ih hm.2

/-! ## Trees are spelled -/

theorem spelled_of_shape (h : Shape L field v j)
    (helems : ∀ xs, elements? v = some xs → ∀ x ∈ xs, ∀ y, walk L [] x = .ok y → Spelled y)
    (hitems : ∀ items, v = .dict items → ∀ p ∈ items, ∀ y,
      walk L (keyOf p.1) p.2 = .ok y → Spelled y) : Spelled j := by
  cases h with
  | none => exact .null
  | bool b => exact .bool b
  | str s => exact .str s
  | number => exact .number (numberText_ne_nil _) (isNumeral_numberText _)
  | array hv hys hjs =>
    refine .arr fun y hy => ?_
    obtain ⟨x, hx, hone⟩ := mem_of_forall₂_right hjs hy
    exact helems _ hv x ((perm_of_arrayOrder hys).mem_iff.mp hx) y hone
  | dict _ hms =>
    refine .obj fun m hm => ?_
    obtain ⟨p, hp, hone⟩ := mem_of_forall₂_right hms hm
    exact hitems _ rfl p (mem_sortedBy.mp hp) m.2 hone.2

/-- **The tree of a value is determined by its text.** -/
theorem spelled_of_walk {field : PyStr} {v : PyVal} {j : Json} (hfit : AllFit L v)
    (h : walk L field v = .ok j) : Spelled j := by
  induction v generalizing field j with
  | list xs ih | tuple xs ih =>
    refine spelled_of_shape (shape_of_walk hfit h) (fun ys hys x hx y hy => ?_) nofun
    cases hys
    exact ih x hx (hfit.elements rfl x hx) hy
  | dict items ih =>
    refine spelled_of_shape (shape_of_walk hfit h) nofun (fun items' heq p hp y hy => ?_)
    obtain rfl := PyVal.dict.inj heq
    exact ih p hp (hfit.items p hp) hy
  | _ => exact spelled_of_shape (shape_of_walk hfit h) nofun nofun

end OvcReplay.Esl
