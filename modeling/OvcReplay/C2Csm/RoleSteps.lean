import OvcReplay.C2Csm.Boundaries

/-! # The roles of the CSM reference engine, as boundaries

What each step of the roles does to the boundary of a side and to what is pending before it: the
counters aside, the roles of an enabled bar are settled boundaries. -/

namespace OvcReplay.C2Csm

variable {α : Type}

/-! ## Sides -/

variable (side : Side α)

/-- The boundary of a side. -/
def Side.boundary : Boundary α := ⟨side.slot?, side.pending?⟩

theorem slot_eq_boundary : side.slot? = side.boundary.slot := rfl

theorem pending_eq_boundary : side.pending? = side.boundary.pending := rfl

/-- The index and the price of a boundary are set together. -/
structure Side.Paired (side : Side α) : Prop where
  slot : side.slotIndex.isSome = side.slotPrice.isSome
  pending : side.pendingIndex.isSome = side.pendingPrice.isSome

theorem paired_empty : ({} : Side α).Paired := ⟨rfl, rfl⟩

variable {side : Side α}

/-- The price of a boundary that is paired is the price of its slot. -/
theorem map_slot_of_paired (h : side.Paired) : side.slot?.map Prod.snd = side.slotPrice := by
  have hslot := h.slot
  unfold Side.slot?
  cases hindex : side.slotIndex with
  | none =>
    rw [hindex] at hslot
    exact (Option.not_isSome_iff_eq_none.mp (by rw [← hslot]; exact Bool.false_ne_true)).symm
  | some index =>
    cases hprice : side.slotPrice with
    | none =>
      rw [hindex, hprice] at hslot
      cases hslot
    | some price => rfl

/-- A paired boundary is occupied when its price is there. -/
theorem slot_eq_some (h : side.Paired) {index : Nat} (hindex : side.slotIndex = some index) :
    ∃ price, side.slotPrice = some price ∧ side.slot? = some (index, price) := by
  have hslot := h.slot
  rw [hindex] at hslot
  obtain ⟨price, hprice⟩ := Option.isSome_iff_exists.mp hslot.symm
  refine ⟨price, hprice, ?_⟩
  unfold Side.slot?
  rw [hindex, hprice]

theorem slot_eq_some_of_price (h : side.Paired) {price : α} (hprice : side.slotPrice = some price) :
    ∃ index, side.slot? = some (index, price) := by
  have hslot := h.slot
  rw [hprice] at hslot
  obtain ⟨index, hindex⟩ := Option.isSome_iff_exists.mp hslot
  refine ⟨index, ?_⟩
  unfold Side.slot?
  rw [hindex, hprice]

theorem pending_eq_some_of_price (h : side.Paired) {price : α}
    (hprice : side.pendingPrice = some price) :
    ∃ index, side.pending? = some (index, price) := by
  have hpend := h.pending
  rw [hprice] at hpend
  obtain ⟨index, hindex⟩ := Option.isSome_iff_exists.mp hpend
  refine ⟨index, ?_⟩
  unfold Side.pending?
  rw [hindex, hprice]

theorem slotPrice_of_slot {x : Nat × α} (h : side.slot? = some x) : side.slotPrice = some x.2 := by
  unfold Side.slot? at h
  split at h
  · next index price _ hprice =>
      rw [hprice, ← Option.some.inj h]
  · cases h

/-! ## Steps of a side -/

theorem paired_counted (h : side.Paired) (news : List (Nat × α)) : (side.counted news).Paired := by
  unfold Side.counted
  by_cases hlen : 1 < news.length
  · rw [if_pos hlen]
    exact ⟨h.slot, h.pending⟩
  · rw [if_neg hlen]
    exact h

/-- The object at the index is retired. -/
def Retired (states : List Life) (index : Nat) : Prop := states[index]? = some .retired

instance (states : List Life) : DecidablePred (Retired states) := fun index =>
  inferInstanceAs (Decidable (states[index]? = some .retired))

/-- What is pending before a side, when it is not retired. -/
theorem boundary_pendingChecked {states : List Life}
    (h : ∀ x, side.pending? = some x → ¬ Retired states x.1) :
    (side.pendingChecked states).boundary = side.boundary := by
  unfold Side.pendingChecked
  by_cases hretired : isRetired states side.pendingIndex = true
  · rw [if_pos hretired]
    show Boundary.mk side.slot? none = ⟨side.slot?, side.pending?⟩
    unfold isRetired at hretired
    cases hindex : side.pendingIndex with
    | none =>
      rw [hindex] at hretired
      cases hretired
    | some index =>
      rw [hindex] at hretired
      cases hprice : side.pendingPrice with
      | none =>
        unfold Side.pending?
        rw [hindex, hprice]
      | some price =>
        have hpend : side.pending? = some (index, price) := by
          unfold Side.pending?
          rw [hindex, hprice]
        exact absurd (of_decide_eq_true hretired) (h _ hpend)
  · rw [if_neg hretired]

/-- A side that only gave up what was pending keeps its boundary. -/
theorem slot_pendingChecked (states : List Life) :
    (side.pendingChecked states).slot? = side.slot? := by
  unfold Side.pendingChecked
  by_cases h : isRetired states side.pendingIndex = true
  · rw [if_pos h]
    rfl
  · rw [if_neg h]

theorem paired_pendingChecked (h : side.Paired) (states : List Life) :
    (side.pendingChecked states).Paired := by
  unfold Side.pendingChecked
  by_cases hretired : isRetired states side.pendingIndex = true
  · rw [if_pos hretired]
    exact ⟨h.slot, rfl⟩
  · rw [if_neg hretired]
    exact h

/-- Without a new object nothing enters. -/
@[simp] theorem entered_nil (bar : ReferenceBar α) : side.entered [] bar = side :=
  rfl

/-- **The only new object of an enabled bar is pending**, before the boundary of the side. -/
theorem boundary_entered {bar : ReferenceBar α} (x : Nat × α) (h : bar.enabled = true) :
    (side.entered [x] bar).boundary = ⟨side.slot?, some x⟩ := by
  simp only [Side.entered, h, if_true]
  rfl

theorem paired_entered (h : side.Paired) (news : List (Nat × α)) (bar : ReferenceBar α) :
    (side.entered news bar).Paired := by
  unfold Side.entered
  split
  · by_cases henab : bar.enabled = true
    · rw [if_pos henab]
      exact ⟨h.slot, rfl⟩
    · rw [if_neg henab]
      exact h
  · exact h

section

variable [LinearOrder α]

theorem paired_committed {side : Side α} (h : side.Paired) (kind : Kind) (states : List Life)
    (barIndex : Int) : (side.committed kind states barIndex).Paired :=
  ⟨h.pending, rfl⟩

omit [LinearOrder α] in
theorem boundary_slotChecked (states : List Life) :
    (side.slotChecked states).boundary = side.boundary.checked (Retired states) := by
  unfold Side.slotChecked Boundary.checked
  rw [← slot_eq_boundary]
  unfold isRetired
  cases hindex : side.slotIndex with
  | none =>
    have hslot : side.slot? = none := by
      unfold Side.slot?
      rw [hindex]
    rw [hslot, if_neg Bool.false_ne_true]
  | some index =>
    cases hprice : side.slotPrice with
    | none =>
      have hslot : side.slot? = none := by
        unfold Side.slot?
        rw [hindex, hprice]
      by_cases hretired : states[index]? = some .retired
      · rw [hslot, if_pos (decide_eq_true hretired)]
        show Boundary.mk none side.pending? = ⟨side.slot?, side.pending?⟩
        rw [hslot]
      · rw [hslot, if_neg fun h => hretired (of_decide_eq_true h)]
    | some price =>
      have hslot : side.slot? = some (index, price) := by
        unfold Side.slot?
        rw [hindex, hprice]
      by_cases hretired : states[index]? = some .retired
      · rw [hslot, if_pos (decide_eq_true hretired)]
        exact (if_pos hretired).symm
      · rw [hslot, if_neg fun h => hretired (of_decide_eq_true h)]
        exact (if_neg hretired).symm

omit [LinearOrder α] in
theorem paired_slotChecked {side : Side α} (h : side.Paired) (states : List Life) :
    (side.slotChecked states).Paired := by
  unfold Side.slotChecked
  by_cases hretired : isRetired states side.slotIndex = true
  · rw [if_pos hretired]
    exact ⟨rfl, h.pending⟩
  · rw [if_neg hretired]
    exact h

theorem unblocked_boundary (kind : Kind) (other : Option (Nat × α)) :
    side.unblocked kind (other.map Prod.snd) = side.boundary.unblocked kind other := by
  unfold Side.unblocked Boundary.unblocked
  rw [pending_eq_boundary]
  cases side.boundary.pending with
  | none => rfl
  | some x =>
    cases other with
    | none => rfl
    | some y => rfl

theorem pairCoherent_boundary (upper lower : Side α) :
    pairCoherent upper lower = pairOrdered upper.boundary lower.boundary := by
  unfold pairCoherent pairOrdered
  rw [pending_eq_boundary, pending_eq_boundary]
  cases upper.boundary.pending with
  | none => rfl
  | some x =>
    cases lower.boundary.pending with
    | none => rfl
    | some y => rfl

/-- A commit that is made or not. -/
theorem boundary_ite_committed (c : Bool) (kind : Kind) (states : List Life) (barIndex : Int) :
    (if c then side.committed kind states barIndex else side).boundary =
      if c then side.boundary.commit else side.boundary := by
  cases c with
  | false => rfl
  | true => rfl

theorem paired_ite_committed {side : Side α} (h : side.Paired) (c : Bool) (kind : Kind)
    (states : List Life) (barIndex : Int) :
    (if c then side.committed kind states barIndex else side).Paired := by
  cases c with
  | false => exact h
  | true => exact paired_committed h kind states barIndex

/-! ## Both sides -/

/-- The sides with the new objects of the bar. -/
def Side.taken (r1 : R1State α) (bar : ReferenceBar α) (kind : Kind) : Side α :=
  ((side.counted (r1.newObjects bar kind)).pendingChecked r1.lifeState).entered
    (r1.newObjects bar kind) bar

omit [LinearOrder α] in
theorem entered_eq_taken (r1 : R1State α) (bar : ReferenceBar α) (kind : Kind) :
    ((side.counted (r1.newObjects bar kind)).pendingChecked r1.lifeState).entered
      (r1.newObjects bar kind) bar = side.taken r1 bar kind := rfl

omit [LinearOrder α] in
omit [LinearOrder α] in
theorem paired_taken {side : Side α} (h : side.Paired) (r1 : R1State α) (bar : ReferenceBar α)
    (kind : Kind) : (side.taken r1 bar kind).Paired :=
  paired_entered (paired_pendingChecked (paired_counted h _) _) _ _

variable (r1 : R1State α) (bar : ReferenceBar α) {upper lower : Side α}

theorem paired_stepSides (hupper : upper.Paired) (hlower : lower.Paired) :
    (stepSides r1 bar upper lower).1.Paired ∧ (stepSides r1 bar upper lower).2.Paired := by
  have hu := paired_taken hupper r1 bar .high
  have hl := paired_taken hlower r1 bar .low
  exact ⟨paired_slotChecked (paired_ite_committed (paired_ite_committed hu _ _ _ _) _ _ _ _) _,
    paired_slotChecked (paired_ite_committed (paired_ite_committed hl _ _ _ _) _ _ _ _) _⟩

/-- **The roles of an enabled bar** are the settled boundaries of the sides with the new objects. -/
theorem boundary_stepSides (henab : bar.enabled = true) (hupper : upper.Paired)
    (hlower : lower.Paired) :
    ((stepSides r1 bar upper lower).1.boundary, (stepSides r1 bar upper lower).2.boundary) =
      settled (Retired r1.lifeState) (upper.taken r1 bar .high).boundary
        (lower.taken r1 bar .low).boundary := by
  have hu := paired_taken hupper r1 bar .high
  have hl := paired_taken hlower r1 bar .low
  show (_, _) = _
  unfold settled settle
  simp only [stepSides, entered_eq_taken, henab, Bool.true_and, boundary_slotChecked,
    boundary_ite_committed]
  rw [← map_slot_of_paired (paired_ite_committed hl _ _ _ _),
    ← map_slot_of_paired (paired_ite_committed (paired_ite_committed hu _ _ _ _) _ _ _ _)]
  simp only [unblocked_boundary, pairCoherent_boundary, slot_eq_boundary, boundary_ite_committed]

/-- **The roles of a bar that is not enabled** are the sides without what was retired. -/
theorem boundary_stepSides_of_disabled (hdisabled : bar.enabled = false) :
    (stepSides r1 bar upper lower).1.boundary =
        (upper.taken r1 bar .high).boundary.checked (Retired r1.lifeState) ∧
      (stepSides r1 bar upper lower).2.boundary =
        (lower.taken r1 bar .low).boundary.checked (Retired r1.lifeState) := by
  simp only [stepSides, entered_eq_taken, hdisabled, Bool.false_and, Bool.false_eq_true, if_false,
    boundary_slotChecked, and_self]

end

end OvcReplay.C2Csm
