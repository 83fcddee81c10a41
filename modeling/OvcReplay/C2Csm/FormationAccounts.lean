import OvcReplay.Lists.Counts
import OvcReplay.C2Csm.Events

/-! # The accounts of the objects of the CSM reference engine

The counters of the first layer are the numbers of the objects that they count, an object that was
dormant says so, and an object that is retired names a later one of its kind at a more extreme price. -/

namespace OvcReplay.C2Csm

open List OvcReplay.Lists

variable {α : Type} [LinearOrder α]

/-- How far an object moved. -/
def Life.rank : Life → Nat
  | .active => 0
  | .dormant => 1
  | .retired => 2

/-- **The accounts of the objects.** -/
structure R1State.Accounted (r1 : R1State α) : Prop where
  aligned : r1.Aligned
  ids : r1.lifeId = List.range' 1 r1.lifePrice.length
  nextId : r1.lifeNextId = r1.lifePrice.length
  dormantBar : r1.lifeDormantBar.length = r1.lifePrice.length
  retiredBar : r1.lifeRetiredBar.length = r1.lifePrice.length
  retiredById : r1.lifeRetiredById.length = r1.lifePrice.length
  formed : r1.lifeFormedCount = r1.lifePrice.length
  dormancy : r1.lifeDormancyCount = r1.lifeDormantBar.countP Option.isSome
  everDormant : ∀ (index : Nat) state bar, r1.lifeState[index]? = some state →
    r1.lifeDormantBar[index]? = some bar → (bar.isSome = true ↔ state ≠ .active)
  retired : r1.lifeRetiredCount = r1.countOf .retired
  retiredBy : ∀ index : Nat, r1.lifeState[index]? = some .retired →
    ∃ later kind old new, index < later ∧ r1.lifeRetiredById[index]? = some (some (later + 1)) ∧
      r1.Object kind (index, old) ∧ r1.Object kind (later, new) ∧ kind.Beyond new old

theorem accounted_empty : ({} : R1State α).Accounted where
  aligned := ⟨rfl, rfl, rfl⟩
  ids := rfl
  nextId := rfl
  dormantBar := rfl
  retiredBar := rfl
  retiredById := rfl
  formed := rfl
  dormancy := rfl
  everDormant _ _ _ h := (Option.some_ne_none _ h.symm).elim
  retired := rfl
  retiredBy _ h := (Option.some_ne_none _ h.symm).elim

variable {r1 : R1State α}

/-! ## Dormancy -/

/-- A close keeps the accounts. -/
theorem accounted_withDormant (h : r1.Accounted) (barIndex : Int) (close : α) :
    (r1.withDormant barIndex close).Accounted where
  aligned := ⟨h.aligned.kind, length_mapIdx.trans h.aligned.state, h.aligned.first⟩
  ids := h.ids
  nextId := h.nextId
  dormantBar := length_mapIdx.trans h.dormantBar
  retiredBar := h.retiredBar
  retiredById := h.retiredById
  formed := h.formed
  dormancy := by
    show r1.lifeDormancyCount + _ = (r1.lifeDormantBar.mapIdx _).countP Option.isSome
    rw [h.dormancy, ← h.dormantBar]
    refine (countP_mapIdx ?_).symm
    intro index bar hbar
    by_cases hbecomes : r1.becomesDormant barIndex close index = true
    · have hact := active_of_becomesDormant hbecomes
      have hnone : bar.isSome = false := by
        rw [← Bool.not_eq_true]
        intro hsome
        exact (h.everDormant index _ _ hact hbar).mp hsome rfl
      simp only [hbecomes, if_true, hnone]
      rfl
    · rw [Bool.not_eq_true] at hbecomes
      simp only [hbecomes, Bool.false_eq_true, if_false]
      rfl
  everDormant index state bar hst hbar := by
    change (r1.lifeState.mapIdx _)[index]? = some state at hst
    change (r1.lifeDormantBar.mapIdx _)[index]? = some bar at hbar
    rw [getElem?_mapIdx] at hst hbar
    obtain ⟨oldState, holdState, hst⟩ := Option.map_eq_some_iff.mp hst
    obtain ⟨oldBar, holdBar, hbar⟩ := Option.map_eq_some_iff.mp hbar
    by_cases hbecomes : r1.becomesDormant barIndex close index = true
    · simp only [hbecomes, if_true] at hst hbar
      rw [← hst, ← hbar]
      exact iff_of_true rfl (by decide)
    · simp only [hbecomes, Bool.false_eq_true, if_false] at hst hbar
      rw [← hst, ← hbar]
      exact h.everDormant index _ _ holdState holdBar
  retired := by
    show r1.lifeRetiredCount = (r1.lifeState.mapIdx _).countP _
    rw [h.retired]
    refine (countP_mapIdx_eq ?_).symm
    intro index state hst
    by_cases hbecomes : r1.becomesDormant barIndex close index = true
    · have hact := active_of_becomesDormant hbecomes
      rw [hst] at hact
      rw [Option.some.inj hact]
      simp only [hbecomes, if_true]
      rfl
    · simp only [hbecomes, Bool.false_eq_true, if_false]
  retiredBy index hret := by
    change (r1.lifeState.mapIdx _)[index]? = some Life.retired at hret
    rw [getElem?_mapIdx] at hret
    obtain ⟨oldState, holdState, hst⟩ := Option.map_eq_some_iff.mp hret
    by_cases hbecomes : r1.becomesDormant barIndex close index = true
    · simp only [hbecomes, if_true] at hst
      cases hst
    · simp only [hbecomes, Bool.false_eq_true, if_false] at hst
      rw [hst] at holdState
      exact h.retiredBy index holdState

theorem accounted_rested (h : r1.Accounted) (bar : ReferenceBar α) : (r1.rested bar).Accounted := by
  unfold R1State.rested
  cases bar.sourceClose with
  | none => exact h
  | some close =>
    by_cases hopen : (bar.enabled && bar.logicEnabled && bar.inLabWindow && !bar.chartGap) = true
    · simp only [hopen, if_true]
      exact accounted_withDormant h _ _
    · simp only [hopen]
      exact h

/-! ## Events -/

/-- An event keeps the accounts. -/
theorem accounted_form (h : r1.Accounted) (kind : Kind) (price : α) (barIndex : Int) :
    (r1.form kind price barIndex).Accounted where
  aligned := aligned_form h.aligned
  ids := by
    show r1.lifeId ++ [r1.lifeNextId + 1] = List.range' 1 (r1.lifePrice ++ [price]).length
    rw [h.ids, h.nextId, length_append, length_singleton, range'_1_concat,
      Nat.add_comm]
  nextId := by
    show r1.lifeNextId + 1 = (r1.lifePrice ++ [price]).length
    rw [h.nextId, length_append, length_singleton]
  dormantBar := by
    show (r1.lifeDormantBar ++ [none]).length = (r1.lifePrice ++ [price]).length
    rw [length_append, length_append, h.dormantBar]
    rfl
  retiredBar := by
    show ((r1.lifeRetiredBar.mapIdx _) ++ [none]).length = (r1.lifePrice ++ [price]).length
    rw [length_append, length_append, length_mapIdx, h.retiredBar]
    rfl
  retiredById := by
    show ((r1.lifeRetiredById.mapIdx _) ++ [none]).length = (r1.lifePrice ++ [price]).length
    rw [length_append, length_append, length_mapIdx, h.retiredById]
    rfl
  formed := by
    show r1.lifeFormedCount + 1 = (r1.lifePrice ++ [price]).length
    rw [h.formed, length_append, length_singleton]
  dormancy := by
    show r1.lifeDormancyCount = (r1.lifeDormantBar ++ [none]).countP Option.isSome
    rw [h.dormancy, countP_append]
    rfl
  everDormant index state bar hst hbar := by
    change (r1.lifeDormantBar ++ [none])[index]? = some bar at hbar
    by_cases hlt : index < r1.lifeDormantBar.length
    · have hltState : index < r1.lifeState.length := by
        rw [h.aligned.state, ← h.dormantBar]
        exact hlt
      rw [List.getElem?_append_left hlt] at hbar
      rw [getElem_lifeState_form hltState] at hst
      by_cases hret : r1.isRetiredBy kind price index = true
      · rw [if_pos hret] at hst
        rw [h.everDormant index _ _ (of_isRetiredBy hret).1 hbar, ← Option.some.inj hst]
        exact iff_of_true (by decide) (by decide)
      · rw [if_neg hret] at hst
        exact h.everDormant index _ _ hst hbar
    · have hlen := (List.getElem?_eq_some_iff.mp hbar).1
      rw [length_append, length_singleton] at hlen
      have hix : index = r1.lifeDormantBar.length := by omega
      rw [hix, List.getElem?_concat_length] at hbar
      rw [hix, h.dormantBar, getElem_lifeState_form_new h.aligned] at hst
      rw [← Option.some.inj hbar, ← Option.some.inj hst]
      exact iff_of_false (by decide) (by decide)
  retired := by
    show r1.lifeRetiredCount + (List.range r1.lifePrice.length).countP (r1.isRetiredBy kind price) =
      ((r1.lifeState.mapIdx fun index state =>
        if r1.isRetiredBy kind price index then Life.retired else state) ++ [Life.active]).countP
        (· = Life.retired)
    rw [h.retired, ← h.aligned.state, countP_append]
    refine (countP_mapIdx ?_).symm
    intro index state hst
    by_cases hret : r1.isRetiredBy kind price index = true
    · have hdorm := (of_isRetiredBy hret).1
      rw [hst] at hdorm
      rw [Option.some.inj hdorm]
      simp only [hret, if_true]
      rfl
    · rw [Bool.not_eq_true] at hret
      simp only [hret, Bool.false_eq_true, if_false]
      rfl
  retiredBy index hret := by
    have hlen : index < r1.lifePrice.length := by
      have hix := (List.getElem?_eq_some_iff.mp hret).1
      rw [(aligned_form h.aligned).state, lifePrice_form, length_append,
        length_singleton] at hix
      by_contra hnot
      have heq : index = r1.lifePrice.length := by omega
      rw [heq, getElem_lifeState_form_new h.aligned] at hret
      cases hret
    have hgetId : (r1.form kind price barIndex).lifeRetiredById[index]? =
        r1.lifeRetiredById[index]?.map fun id =>
          if r1.isRetiredBy kind price index then some (r1.lifeNextId + 1) else id := by
      show ((r1.lifeRetiredById.mapIdx _) ++ [none])[index]? = _
      rw [List.getElem?_append_left (by rw [length_mapIdx, h.retiredById]; exact hlen),
        List.getElem?_mapIdx]
      rfl
    rw [getElem_lifeState_form (by rw [h.aligned.state]; exact hlen)] at hret
    by_cases hnew : r1.isRetiredBy kind price index = true
    · obtain ⟨_, hkind, old, hold, hbeyond⟩ := of_isRetiredBy hnew
      have hobj : r1.Object kind (index, old) := ⟨hkind, hold⟩
      refine ⟨r1.lifePrice.length, kind, old, price, hlen, ?_,
        object_append hobj (lifeKind_form _ _ _ _) (lifePrice_form _ _ _ _),
        object_form_new h.aligned kind price barIndex, hbeyond⟩
      rw [hgetId, List.getElem?_eq_getElem (by rw [h.retiredById]; exact hlen), Option.map_some,
        if_pos hnew, h.nextId]
    · rw [if_neg hnew] at hret
      obtain ⟨later, other, old, new, hlt, hid, hold, hlater, hbeyond⟩ := h.retiredBy index hret
      refine ⟨later, other, old, new, hlt, ?_,
        object_append hold (lifeKind_form _ _ _ _) (lifePrice_form _ _ _ _),
        object_append hlater (lifeKind_form _ _ _ _) (lifePrice_form _ _ _ _), hbeyond⟩
      rw [hgetId, hid, Option.map_some, if_neg hnew]

/-- The event of a bar, if there is one, keeps the accounts. -/
theorem accounted_formed (h : r1.Accounted) (kind : Kind) (event : Bool) (value : Option α)
    (barIndex : Int) : (r1.formed kind event value barIndex).Accounted := by
  unfold R1State.formed
  cases value with
  | none => exact h
  | some price =>
    cases event with
    | false => exact h
    | true => exact accounted_form h kind price barIndex

/-- The counts of the layer keep the accounts. -/
theorem accounted_counted (h : r1.Accounted) (enabled : Bool) : (r1.counted enabled).Accounted where
  aligned := ⟨h.aligned.kind, h.aligned.state, h.aligned.first⟩
  ids := h.ids
  nextId := h.nextId
  dormantBar := h.dormantBar
  retiredBar := h.retiredBar
  retiredById := h.retiredById
  formed := h.formed
  dormancy := h.dormancy
  everDormant := h.everDormant
  retired := h.retired
  retiredBy := h.retiredBy

/-- The histories keep the accounts. -/
theorem accounted_pushed (h : r1.Accounted) (bar : ReferenceBar α) : (r1.pushed bar).Accounted where
  aligned := ⟨h.aligned.kind, h.aligned.state, h.aligned.first⟩
  ids := h.ids
  nextId := h.nextId
  dormantBar := h.dormantBar
  retiredBar := h.retiredBar
  retiredById := h.retiredById
  formed := h.formed
  dormancy := h.dormancy
  everDormant := h.everDormant
  retired := h.retired
  retiredBy := h.retiredBy

/-- **A bar keeps the accounts of the objects.** -/
theorem accounted_stepR1 (h : r1.Accounted) (bar : ReferenceBar α) : (stepR1 r1 bar).Accounted :=
  accounted_counted (accounted_formed (accounted_formed (accounted_rested (accounted_pushed h bar)
    bar) _ _ _ _) _ _ _ _) _

/-! ## Moves -/

/-- **What a bar does to the objects that are there**: ids, kinds and prices stay, and a state only
moves on. -/
structure R1State.Moves (before after : R1State α) : Prop where
  ids : before.lifeId <+: after.lifeId
  kinds : before.lifeKind <+: after.lifeKind
  prices : before.lifePrice <+: after.lifePrice
  states : ∀ (index : Nat) old, before.lifeState[index]? = some old →
    ∃ new, after.lifeState[index]? = some new ∧ old.rank ≤ new.rank

variable (r1 : R1State α)

omit [LinearOrder α] in
theorem R1State.Moves.refl : r1.Moves r1 :=
  ⟨prefix_rfl, prefix_rfl, prefix_rfl, fun _ old h => ⟨old, h, le_rfl⟩⟩

omit [LinearOrder α] in
theorem R1State.Moves.trans {a b c : R1State α} (h : a.Moves b) (h' : b.Moves c) : a.Moves c := by
  refine ⟨h.ids.trans h'.ids, h.kinds.trans h'.kinds, h.prices.trans h'.prices, ?_⟩
  intro index old hold
  obtain ⟨middle, hmiddle, hle⟩ := h.states index old hold
  obtain ⟨new, hnew, hle'⟩ := h'.states index middle hmiddle
  exact ⟨new, hnew, hle.trans hle'⟩

theorem moves_rested (bar : ReferenceBar α) : r1.Moves (r1.rested bar) := by
  unfold R1State.rested
  cases bar.sourceClose with
  | none => exact R1State.Moves.refl r1
  | some close =>
    by_cases hopen : (bar.enabled && bar.logicEnabled && bar.inLabWindow && !bar.chartGap) = true
    · simp only [hopen, if_true]
      refine ⟨prefix_rfl, prefix_rfl, prefix_rfl, ?_⟩
      intro index old hold
      refine ⟨_, by
        show (r1.lifeState.mapIdx _)[index]? = _
        rw [getElem?_mapIdx, hold]
        rfl, ?_⟩
      by_cases hbecomes : r1.becomesDormant bar.barIndex close index = true
      · have hact := active_of_becomesDormant hbecomes
        rw [hold] at hact
        rw [Option.some.inj hact]
        exact Nat.zero_le _
      · simp only [hbecomes, Bool.false_eq_true, if_false]
        exact le_rfl
    · simp only [hopen]
      exact R1State.Moves.refl r1

theorem moves_form (kind : Kind) (price : α) (barIndex : Int) :
    r1.Moves (r1.form kind price barIndex) := by
  refine ⟨⟨_, rfl⟩, ⟨_, rfl⟩, ⟨_, rfl⟩, ?_⟩
  intro index old hold
  rw [getElem_lifeState_form (List.getElem?_eq_some_iff.mp hold).1]
  by_cases hret : r1.isRetiredBy kind price index = true
  · rw [if_pos hret]
    refine ⟨.retired, rfl, ?_⟩
    cases old <;> decide
  · rw [if_neg hret]
    exact ⟨old, hold, le_rfl⟩

theorem moves_formed (kind : Kind) (event : Bool) (value : Option α)
    (barIndex : Int) : r1.Moves (r1.formed kind event value barIndex) := by
  unfold R1State.formed
  cases value with
  | none => exact R1State.Moves.refl r1
  | some price =>
    cases event with
    | false => exact R1State.Moves.refl r1
    | true => exact moves_form r1 kind price barIndex

omit [LinearOrder α] in
theorem moves_pushed (bar : ReferenceBar α) : r1.Moves (r1.pushed bar) :=
  ⟨prefix_rfl, prefix_rfl, prefix_rfl, fun _ old h => ⟨old, h, le_rfl⟩⟩

omit [LinearOrder α] in
theorem moves_counted (enabled : Bool) : r1.Moves (r1.counted enabled) :=
  ⟨prefix_rfl, prefix_rfl, prefix_rfl, fun _ old h => ⟨old, h, le_rfl⟩⟩

/-- **A bar moves the objects on.** -/
theorem moves_stepR1 (bar : ReferenceBar α) : r1.Moves (stepR1 r1 bar) :=
  (moves_pushed r1 bar).trans ((moves_rested _ bar).trans ((moves_formed _ _ _ _ _).trans
    ((moves_formed _ _ _ _ _).trans (moves_counted _ _))))

end OvcReplay.C2Csm
