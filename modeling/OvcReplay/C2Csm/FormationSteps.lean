import OvcReplay.C2Csm.RoleSteps
import Mathlib.Data.List.Forall2

/-! # Steps of the formation of the CSM reference engine

What a bar does to the objects: those that are there keep their kind and price, an event appends one,
and it retires only objects of its kind at a less extreme price. On a bar with both events the low is
below the high. -/

namespace OvcReplay.C2Csm

open List

variable {α : Type} [LinearOrder α]

/-! ## Objects -/

/-- The lists of the objects are of one length. -/
structure R1State.Aligned (r1 : R1State α) : Prop where
  kind : r1.lifeKind.length = r1.lifePrice.length
  state : r1.lifeState.length = r1.lifePrice.length
  first : r1.lifeFirstValidBar.length = r1.lifePrice.length

/-- An object of the kind is at the index, with the price. -/
def R1State.Object (r1 : R1State α) (kind : Kind) (x : Nat × α) : Prop :=
  r1.lifeKind[x.1]? = some kind ∧ r1.lifePrice[x.1]? = some x.2

/-- Every object is older than the bar. -/
def R1State.Aged (r1 : R1State α) (barIndex : Int) : Prop :=
  ∀ first ∈ r1.lifeFirstValidBar, first < barIndex

/-- The objects of the bar are active. -/
def R1State.FreshActive (r1 : R1State α) (barIndex : Int) : Prop :=
  ∀ index : Nat, r1.lifeFirstValidBar[index]? = some barIndex → r1.lifeState[index]? = some .active

omit [LinearOrder α] in
theorem freshActive_of_aged {r1 : R1State α} {barIndex : Int} (h : r1.Aged barIndex) :
    r1.FreshActive barIndex := by
  intro index hindex
  exact absurd (h barIndex (mem_of_getElem? hindex)) (lt_irrefl barIndex)

omit [LinearOrder α] in
theorem object_append {r1 : R1State α} {kind : Kind} {x : Nat × α} (h : r1.Object kind x)
    {r1' : R1State α} {kinds : List Kind} {prices : List α}
    (hkind : r1'.lifeKind = r1.lifeKind ++ kinds) (hprice : r1'.lifePrice = r1.lifePrice ++ prices) :
    r1'.Object kind x := by
  have hk := (List.getElem?_eq_some_iff.mp h.1).1
  have hp := (List.getElem?_eq_some_iff.mp h.2).1
  constructor
  · rw [hkind, List.getElem?_append_left hk, h.1]
  · rw [hprice, List.getElem?_append_left hp, h.2]

/-! ## Dormancy -/

/-- Only an active object becomes dormant. -/
theorem active_of_becomesDormant {r1 : R1State α} {barIndex : Int} {close : α} {index : Nat}
    (h : r1.becomesDormant barIndex close index = true) : r1.lifeState[index]? = some .active := by
  unfold R1State.becomesDormant at h
  split at h
  · assumption
  · cases h

/-- What rests on a bar keeps its lists but for the states. -/
theorem rested_lists (r1 : R1State α) (bar : ReferenceBar α) :
    (r1.rested bar).lifeKind = r1.lifeKind ∧ (r1.rested bar).lifePrice = r1.lifePrice ∧
      (r1.rested bar).lifeFirstValidBar = r1.lifeFirstValidBar ∧
      (r1.rested bar).lifeState.length = r1.lifeState.length := by
  unfold R1State.rested
  cases bar.sourceClose with
  | none => exact ⟨rfl, rfl, rfl, rfl⟩
  | some close =>
    by_cases h : (bar.enabled && bar.logicEnabled && bar.inLabWindow && !bar.chartGap) = true
    · simp only [h, if_true]
      exact ⟨rfl, rfl, rfl, length_mapIdx⟩
    · simp only [h]
      exact ⟨rfl, rfl, rfl, rfl⟩

/-- **No object is retired by a close.** -/
theorem retired_rested (r1 : R1State α) (bar : ReferenceBar α) (index : Nat) :
    Retired (r1.rested bar).lifeState index ↔ Retired r1.lifeState index := by
  unfold R1State.rested
  cases bar.sourceClose with
  | none => rfl
  | some close =>
    by_cases h : (bar.enabled && bar.logicEnabled && bar.inLabWindow && !bar.chartGap) = true
    · simp only [h, if_true]
      unfold Retired R1State.withDormant
      rw [getElem?_mapIdx]
      by_cases hdorm : r1.becomesDormant bar.barIndex close index = true
      · rw [active_of_becomesDormant hdorm]
        simp only [hdorm, if_true, Option.map_some, Option.some.injEq, reduceCtorEq]
      · simp only [hdorm, Bool.false_eq_true, if_false, Option.map_id']
    · simp only [h]
      rfl

/-! ## Events -/

variable (r1 : R1State α) (kind : Kind) (price : α) (barIndex : Int)

@[simp] theorem lifeKind_form :
    (r1.form kind price barIndex).lifeKind = r1.lifeKind ++ [kind] := rfl

@[simp] theorem lifePrice_form :
    (r1.form kind price barIndex).lifePrice = r1.lifePrice ++ [price] := rfl

@[simp] theorem lifeFirstValidBar_form :
    (r1.form kind price barIndex).lifeFirstValidBar = r1.lifeFirstValidBar ++ [barIndex] := rfl

theorem lifeState_form :
    (r1.form kind price barIndex).lifeState = (r1.lifeState.mapIdx fun index state =>
      if r1.isRetiredBy kind price index then .retired else state) ++ [.active] := rfl

variable {r1 kind price barIndex}

theorem aligned_form (h : r1.Aligned) : (r1.form kind price barIndex).Aligned := by
  refine ⟨?_, ?_, ?_⟩
  · simp only [lifeKind_form, lifePrice_form, length_append, h.kind]
    rfl
  · simp only [lifeState_form, lifePrice_form, length_append, length_mapIdx, h.state]
    rfl
  · simp only [lifeFirstValidBar_form, lifePrice_form, length_append, h.first]
    rfl

/-- What is retired by an event is a dormant object of its kind. -/
theorem of_isRetiredBy {index : Nat} (h : r1.isRetiredBy kind price index = true) :
    r1.lifeState[index]? = some .dormant ∧ r1.lifeKind[index]? = some kind ∧
      ∃ old, r1.lifePrice[index]? = some old ∧ kind.Beyond price old := by
  unfold R1State.isRetiredBy at h
  split at h
  · next old oldPrice hst hkind hprice =>
      obtain ⟨rfl, hbeyond⟩ := of_decide_eq_true h
      exact ⟨hst, hkind, oldPrice, hprice, hbeyond⟩
  · cases h

/-- The states of the objects that were there. -/
theorem getElem_lifeState_form {index : Nat} (h : index < r1.lifeState.length) :
    (r1.form kind price barIndex).lifeState[index]? =
      if r1.isRetiredBy kind price index then some .retired else r1.lifeState[index]? := by
  rw [lifeState_form, getElem?_append_left (by rw [length_mapIdx]; exact h),
    getElem?_mapIdx]
  by_cases hret : r1.isRetiredBy kind price index = true
  · simp only [hret, if_true, getElem?_eq_getElem h, Option.map_some]
  · simp only [hret, Bool.false_eq_true, if_false, Option.map_id']

/-- The state of the new object. -/
theorem getElem_lifeState_form_new (h : r1.Aligned) :
    (r1.form kind price barIndex).lifeState[r1.lifePrice.length]? = some .active := by
  rw [lifeState_form, getElem?_append_right (by rw [length_mapIdx, h.state])]
  simp only [length_mapIdx, h.state, Nat.sub_self, getElem?_cons_zero]

/-- **An event retires** what it goes beyond, and nothing else. -/
theorem retired_form (index : Nat) : Retired (r1.form kind price barIndex).lifeState index ↔
      Retired r1.lifeState index ∨ r1.isRetiredBy kind price index = true := by
  unfold Retired
  by_cases hindex : index < r1.lifeState.length
  · rw [getElem_lifeState_form hindex]
    by_cases hret : r1.isRetiredBy kind price index = true
    · simp only [hret, if_true, or_true]
    · simp only [hret, Bool.false_eq_true, if_false, or_false]
  · have hnot : r1.isRetiredBy kind price index ≠ true := by
      intro hret
      exact hindex (List.getElem?_eq_some_iff.mp (of_isRetiredBy hret).1).1
    have hnone : r1.lifeState[index]? = none := List.getElem?_eq_none (by omega)
    rw [hnone]
    simp only [reduceCtorEq, false_or, hnot, iff_false]
    intro hsome
    rw [lifeState_form, List.getElem?_append_right (by rw [length_mapIdx]; omega)] at hsome
    have hmem := mem_of_getElem? hsome
    rw [mem_singleton] at hmem
    cases hmem

/-- The new object of an event. -/
theorem object_form_new (haligned : r1.Aligned) (kind : Kind) (price : α) (barIndex : Int) :
    (r1.form kind price barIndex).Object kind (r1.lifePrice.length, price) := by
  constructor
  · rw [lifeKind_form]
    show (r1.lifeKind ++ [kind])[r1.lifePrice.length]? = some kind
    rw [← haligned.kind, getElem?_concat_length]
  · exact getElem?_concat_length

theorem freshActive_form (haligned : r1.Aligned) (h : r1.FreshActive barIndex) :
    (r1.form kind price barIndex).FreshActive barIndex := by
  intro index hindex
  rw [lifeFirstValidBar_form] at hindex
  by_cases hlt : index < r1.lifeFirstValidBar.length
  · rw [List.getElem?_append_left hlt] at hindex
    have hact := h index hindex
    rw [getElem_lifeState_form (by rw [haligned.state, ← haligned.first]; exact hlt)]
    rw [if_neg, hact]
    intro hret
    have hdorm := (of_isRetiredBy hret).1
    rw [hact] at hdorm
    cases hdorm
  · have hlen := (List.getElem?_eq_some_iff.mp hindex).1
    rw [length_append, length_singleton] at hlen
    have heq : index = r1.lifePrice.length := by
      have hfst := haligned.first
      omega
    rw [heq]
    exact getElem_lifeState_form_new haligned

/-! ## New objects -/

omit [LinearOrder α] in
/-- Without an object of the bar, none is new. -/
theorem newObjects_of_aged {r1 : R1State α} {bar : ReferenceBar α} (h : r1.Aged bar.barIndex)
    (kind : Kind) : r1.newObjects bar kind = [] := by
  unfold R1State.newObjects
  split
  · rw [filterMap_eq_nil_iff]
    intro index _
    rw [if_neg]
    intro hnew
    exact absurd (h _ (mem_of_getElem? hnew.1)) (lt_irrefl _)
  · rfl

/-- **The object of an event is new.** -/
theorem newObjects_form {bar : ReferenceBar α} (haligned : r1.Aligned)
    (hfresh : r1.FreshActive bar.barIndex)
    (hopen : (bar.enabled && bar.inLabWindow && !bar.chartGap) = true) (side : Kind) :
    (r1.form kind price bar.barIndex).newObjects bar side =
      r1.newObjects bar side ++ if kind = side then [(r1.lifePrice.length, price)] else [] := by
  unfold R1State.newObjects
  rw [if_pos hopen, if_pos hopen, lifeFirstValidBar_form, length_append, length_singleton,
    range_succ, filterMap_append]
  congr 1
  · apply filterMap_congr
    intro index hindex
    have hlt := mem_range.mp hindex
    have hltPrice : index < r1.lifePrice.length := by rw [← haligned.first]; exact hlt
    rw [getElem?_append_left hlt, lifeKind_form, lifePrice_form,
      getElem?_append_left (by rw [haligned.kind]; exact hltPrice),
      getElem?_append_left hltPrice]
    by_cases hnew : r1.lifeFirstValidBar[index]? = some bar.barIndex
    · have hact := hfresh index hnew
      have hact' : (r1.form kind price bar.barIndex).lifeState[index]? = some .active := by
        apply freshActive_form haligned hfresh
        rw [lifeFirstValidBar_form, getElem?_append_left hlt]
        exact hnew
      rw [hact, hact']
    · rw [if_neg fun h => hnew h.1, if_neg fun h => hnew h.1]
  · have hst : (r1.form kind price bar.barIndex).lifeState[r1.lifePrice.length]? =
        some .active := getElem_lifeState_form_new haligned
    rw [haligned.first]
    have hfst : (r1.lifeFirstValidBar ++ [bar.barIndex])[r1.lifePrice.length]? =
        some bar.barIndex := by
      rw [← haligned.first, getElem?_concat_length]
    have hkind : (r1.lifeKind ++ [kind])[r1.lifePrice.length]? = some kind := by
      rw [← haligned.kind, getElem?_concat_length]
    simp only [filterMap_cons, filterMap_nil, hfst, hst, lifeKind_form, hkind,
      lifePrice_form, getElem?_concat_length, Option.map_some, Option.some.injEq, true_and,
      ne_eq, reduceCtorEq, not_false_eq_true]
    by_cases hside : kind = side
    · simp only [hside, if_true]
    · simp only [hside, if_false]

end OvcReplay.C2Csm
