import OvcReplay.C2Csm.Roles

/-! # Two boundaries and what is pending before them

The roles without their counters: a side has an occupied boundary and a pending one, a pending
boundary is committed when the other side does not block it, and both are committed when they are
coherent with each other. Settled sides are ordered, and what is pending is blocked. -/

namespace OvcReplay.C2Csm

variable {α : Type} [LinearOrder α]

/-- A side: its boundary and its pending boundary, each an index with a price. -/
structure Boundary (α : Type) where
  slot : Option (Nat × α)
  pending : Option (Nat × α)

/-- The pending boundary is not blocked by the other side. -/
def Boundary.unblocked (b : Boundary α) (kind : Kind) (other : Option (Nat × α)) : Bool :=
  match b.pending, other with
  | some x, some y => decide (kind.Beyond x.2 y.2)
  | some _, none => true
  | none, _ => false

/-- The pending boundary is committed. -/
def Boundary.commit (b : Boundary α) : Boundary α := ⟨b.pending, none⟩

/-- The pending boundaries are coherent with each other. -/
def pairOrdered (upper lower : Boundary α) : Bool :=
  match upper.pending, lower.pending with
  | some x, some y => decide (y.2 < x.2)
  | _, _ => false

/-- The two commits and the second tries. -/
def settle (upper lower : Boundary α) : Boundary α × Boundary α :=
  let coherent := pairOrdered upper lower
  let upper₂ := if coherent || upper.unblocked .high lower.slot then upper.commit else upper
  let lower₂ := if coherent || lower.unblocked .low upper.slot then lower.commit else lower
  let upper₃ := if upper₂.unblocked .high lower₂.slot then upper₂.commit else upper₂
  let lower₃ := if lower₂.unblocked .low upper₃.slot then lower₂.commit else lower₂
  (upper₃, lower₃)

variable {upper lower : Boundary α}

/-! ## Blocked boundaries -/

/-- What is pending above is at or below the lower boundary. -/
def UpperBlocked (upper lower : Boundary α) : Prop :=
  ∀ x, upper.pending = some x → ∃ y, lower.slot = some y ∧ x.2 ≤ y.2

/-- What is pending below is at or above the upper boundary. -/
def LowerBlocked (upper lower : Boundary α) : Prop :=
  ∀ x, lower.pending = some x → ∃ y, upper.slot = some y ∧ y.2 ≤ x.2

/-- The upper boundary is above the lower one. -/
def Ordered (upper lower : Boundary α) : Prop :=
  ∀ x y, upper.slot = some x → lower.slot = some y → y.2 < x.2

theorem unblocked_eq_false_iff {b : Boundary α} {kind : Kind} {other : Option (Nat × α)} :
    b.unblocked kind other = false ↔
      ∀ x, b.pending = some x → ∃ y, other = some y ∧ ¬ kind.Beyond x.2 y.2 := by
  unfold Boundary.unblocked
  cases b.pending with
  | none => simp
  | some x => cases other <;> simp

theorem beyond_of_unblocked {b : Boundary α} {kind : Kind} {x y : Nat × α}
    (h : b.unblocked kind (some y) = true) (hx : b.pending = some x) : kind.Beyond x.2 y.2 := by
  unfold Boundary.unblocked at h
  rw [hx] at h
  exact of_decide_eq_true h

theorem upperBlocked_iff : UpperBlocked upper lower ↔ upper.unblocked .high lower.slot = false := by
  simp only [unblocked_eq_false_iff, UpperBlocked, Kind.Beyond, not_lt]

theorem lowerBlocked_iff : LowerBlocked upper lower ↔ lower.unblocked .low upper.slot = false := by
  simp only [unblocked_eq_false_iff, LowerBlocked, Kind.Beyond, not_lt]

theorem pairOrdered_eq_true_iff : pairOrdered upper lower = true ↔
    ∃ x y, upper.pending = some x ∧ lower.pending = some y ∧ y.2 < x.2 := by
  unfold pairOrdered
  cases upper.pending <;> cases lower.pending <;> simp

theorem unblocked_of_pending_none {b : Boundary α} (h : b.pending = none) (kind : Kind)
    (other : Option (Nat × α)) : b.unblocked kind other = false := by
  unfold Boundary.unblocked
  rw [h]

omit [LinearOrder α] in
/-- Nothing is said of what is not there. -/
theorem of_none_eq_some {x : Nat × α} {p : Prop} (h : none = some x) : p :=
  (Option.some_ne_none x h.symm).elim

omit [LinearOrder α] in
@[simp] theorem pending_commit (b : Boundary α) : b.commit.pending = none := rfl

omit [LinearOrder α] in
@[simp] theorem slot_commit (b : Boundary α) : b.commit.slot = b.pending := rfl

@[simp] theorem unblocked_commit (b : Boundary α) (kind : Kind) (other : Option (Nat × α)) :
    b.commit.unblocked kind other = false :=
  unblocked_of_pending_none rfl kind other

/-- Blocked boundaries before ordered ones are not coherent with each other. -/
theorem pairOrdered_eq_false (hord : Ordered upper lower) (hupper : UpperBlocked upper lower)
    (hlower : LowerBlocked upper lower) : pairOrdered upper lower = false := by
  refine Bool.eq_false_iff.mpr fun h => ?_
  obtain ⟨x, y, hx, hy, hlt⟩ := pairOrdered_eq_true_iff.mp h
  obtain ⟨l, hl, hxl⟩ := hupper x hx
  obtain ⟨u, hu, huy⟩ := hlower y hy
  exact absurd hlt (not_lt.mpr (hxl.trans ((hord u l hu hl).le.trans huy)))

/-! ## Settling -/

/-- **Nothing is committed while everything pending is blocked.** -/
theorem settle_of_blocked (hord : Ordered upper lower) (hupper : UpperBlocked upper lower)
    (hlower : LowerBlocked upper lower) : settle upper lower = (upper, lower) := by
  simp only [settle, pairOrdered_eq_false hord hupper hlower,
    upperBlocked_iff.mp hupper, lowerBlocked_iff.mp hlower,
    Bool.or_self, Bool.false_eq_true, if_false]

/-- **Coherent boundaries are committed together.** -/
theorem settle_of_coherent (h : pairOrdered upper lower = true) :
    settle upper lower = (upper.commit, lower.commit) := by
  simp only [settle, h, Bool.true_or, if_true, unblocked_commit, Bool.false_eq_true, if_false]

/-- **An unblocked upper boundary is committed alone.** -/
theorem settle_of_upper (hcoh : pairOrdered upper lower = false)
    (hupper : upper.unblocked .high lower.slot = true) (hlower : LowerBlocked upper lower)
    (hstays : lower.unblocked .low upper.pending = false) :
    settle upper lower = (upper.commit, lower) := by
  simp only [settle, hcoh, hupper, lowerBlocked_iff.mp hlower, Bool.false_or,
    if_true, Bool.false_eq_true, if_false, unblocked_commit, slot_commit, hstays]

/-- **An unblocked lower boundary is committed alone.** -/
theorem settle_of_lower (hcoh : pairOrdered upper lower = false)
    (hlower : lower.unblocked .low upper.slot = true) (hupper : UpperBlocked upper lower)
    (hstays : upper.unblocked .high lower.pending = false) :
    settle upper lower = (upper, lower.commit) := by
  simp only [settle, hcoh, hlower, upperBlocked_iff.mp hupper, Bool.false_or,
    if_true, Bool.false_eq_true, if_false, unblocked_commit, slot_commit, hstays]

/-! ## Coherent sides -/

/-- **Coherent sides**: the boundaries are ordered, what is pending is blocked, and nothing refers to
an object that is retired. -/
structure Coherent (retired : Nat → Prop) (upper lower : Boundary α) : Prop where
  ordered : Ordered upper lower
  upperBlocked : UpperBlocked upper lower
  lowerBlocked : LowerBlocked upper lower
  upperSlot : ∀ x, upper.slot = some x → ¬ retired x.1
  lowerSlot : ∀ x, lower.slot = some x → ¬ retired x.1
  upperPending : ∀ x, upper.pending = some x → ¬ retired x.1
  lowerPending : ∀ x, lower.pending = some x → ¬ retired x.1

/-- A boundary that refers to a retired object is dropped. -/
def Boundary.checked (b : Boundary α) (retired : Nat → Prop) [DecidablePred retired] :
    Boundary α :=
  match b.slot with
  | some x => if retired x.1 then { b with slot := none } else b
  | none => b

omit [LinearOrder α] in
theorem checked_of_slot {b : Boundary α} {retired : Nat → Prop} [DecidablePred retired]
    (h : ∀ x, b.slot = some x → ¬ retired x.1) : b.checked retired = b := by
  unfold Boundary.checked
  cases hslot : b.slot with
  | none => rfl
  | some x => exact if_neg (h x hslot)

variable {retired : Nat → Prop} [DecidablePred retired]

/-- Coherent sides, settled and checked, are what they were. -/
theorem checked_settle_of_coherent (h : Coherent retired upper lower) :
    ((settle upper lower).1.checked retired, (settle upper lower).2.checked retired) =
      (upper, lower) := by
  rw [settle_of_blocked h.ordered h.upperBlocked h.lowerBlocked, checked_of_slot h.upperSlot,
    checked_of_slot h.lowerSlot]

/-- What becomes of the sides: settled, then checked. -/
def settled (retired : Nat → Prop) [DecidablePred retired] (upper lower : Boundary α) :
    Boundary α × Boundary α :=
  ((settle upper lower).1.checked retired, (settle upper lower).2.checked retired)

/-- Everything that a side refers to. -/
structure Boundary.All (b : Boundary α) (P : Nat × α → Prop) : Prop where
  slot : ∀ x, b.slot = some x → P x
  pending : ∀ x, b.pending = some x → P x

section

omit [LinearOrder α]

theorem all_ite_commit {b : Boundary α} {P : Nat × α → Prop} (h : b.All P) (c : Bool) :
    (if c then b.commit else b).All P := by
  cases c with
  | false => exact h
  | true => exact ⟨h.pending, fun _ h => of_none_eq_some h⟩

theorem all_checked {b : Boundary α} {P : Nat × α → Prop} (h : b.All P) (retired : Nat → Prop)
    [DecidablePred retired] : (b.checked retired).All P := by
  unfold Boundary.checked
  split
  · next x hslot =>
      by_cases hret : retired x.1
      · rw [if_pos hret]
        exact ⟨fun _ h => of_none_eq_some h, h.pending⟩
      · rw [if_neg hret]
        exact h
  · exact h

end

/-- **Settled sides refer to what the sides referred to.** -/
theorem all_settled {P Q : Nat × α → Prop} (retired : Nat → Prop) [DecidablePred retired]
    (hupper : upper.All P) (hlower : lower.All Q) :
    (settled retired upper lower).1.All P ∧ (settled retired upper lower).2.All Q :=
  ⟨all_checked (all_ite_commit (all_ite_commit hupper _) _) retired,
    all_checked (all_ite_commit (all_ite_commit hlower _) _) retired⟩

/-- Coherent sides stay coherent when nothing more is retired. -/
theorem Coherent.mono {retired retired' : Nat → Prop} (h : Coherent retired upper lower)
    (hret : ∀ index, retired' index → retired index) : Coherent retired' upper lower where
  ordered := h.ordered
  upperBlocked := h.upperBlocked
  lowerBlocked := h.lowerBlocked
  upperSlot x hx hr := h.upperSlot x hx (hret _ hr)
  lowerSlot x hx hr := h.lowerSlot x hx (hret _ hr)
  upperPending x hx hr := h.upperPending x hx (hret _ hr)
  lowerPending x hx hr := h.lowerPending x hx (hret _ hr)

omit [LinearOrder α] in
/-- A committed boundary is the one that was pending. -/
theorem slot_commit_eq {b : Boundary α} {x : Nat × α} (h : b.pending = some x) :
    ∀ z, b.commit.slot = some z → z = x := by
  intro z hz
  rw [slot_commit, h] at hz
  exact (Option.some.inj hz).symm

/-- Two new boundaries, the upper one above the lower one. -/
theorem coherent_of_both {x y : Nat × α} (hupper : upper.pending = some x)
    (hlower : lower.pending = some y) (hlt : y.2 < x.2) (hx : ¬ retired x.1) (hy : ¬ retired y.1) :
    Coherent retired (settled retired upper lower).1 (settled retired upper lower).2 := by
  have hcoh : pairOrdered upper lower = true :=
    pairOrdered_eq_true_iff.mpr ⟨x, y, hupper, hlower, hlt⟩
  have hslotU := slot_commit_eq hupper
  have hslotL := slot_commit_eq hlower
  have hliveU : ∀ z, upper.commit.slot = some z → ¬ retired z.1 := fun z hz => hslotU z hz ▸ hx
  have hliveL : ∀ z, lower.commit.slot = some z → ¬ retired z.1 := fun z hz => hslotL z hz ▸ hy
  rw [settled, settle_of_coherent hcoh]
  show Coherent retired (upper.commit.checked retired) (lower.commit.checked retired)
  rw [checked_of_slot hliveU, checked_of_slot hliveL]
  refine ⟨?_, fun _ h => of_none_eq_some h, fun _ h => of_none_eq_some h, hliveU, hliveL,
    fun _ h => of_none_eq_some h, fun _ h => of_none_eq_some h⟩
  intro z w hz hw
  rw [hslotU z hz, hslotL w hw]
  exact hlt

/-- **A new upper object** leaves coherent sides coherent. The old upper boundary may be retired, if
it is below the new object. -/
theorem coherent_of_upper {x : Nat × α} (hord : Ordered upper lower)
    (hlower : LowerBlocked upper lower) (hpend : upper.pending = some x) (hx : ¬ retired x.1)
    (hslot : ∀ z, upper.slot = some z → retired z.1 → z.2 < x.2)
    (hlowSlot : ∀ z, lower.slot = some z → ¬ retired z.1)
    (hlowPend : ∀ z, lower.pending = some z → ¬ retired z.1) :
    Coherent retired (settled retired upper lower).1 (settled retired upper lower).2 := by
  by_cases hcoh : pairOrdered upper lower = true
  · obtain ⟨_, y, hx', hy, hlt⟩ := pairOrdered_eq_true_iff.mp hcoh
    cases hpend.symm.trans hx'
    exact coherent_of_both hpend hy hlt hx (hlowPend y hy)
  -- what is pending below is at or above the new object
  have habove : ∀ y, lower.pending = some y → x.2 ≤ y.2 := fun y hy =>
    not_lt.mp fun hlt => hcoh (pairOrdered_eq_true_iff.mpr ⟨x, y, hpend, hy, hlt⟩)
  have hcoh : pairOrdered upper lower = false := Bool.eq_false_iff.mpr hcoh
  by_cases hunblocked : upper.unblocked .high lower.slot = true
  · have hstays : lower.unblocked .low upper.pending = false :=
      unblocked_eq_false_iff.mpr fun y hy => ⟨x, hpend, not_lt.mpr (habove y hy)⟩
    have hslotU := slot_commit_eq hpend
    have hliveU : ∀ z, upper.commit.slot = some z → ¬ retired z.1 := fun z hz => hslotU z hz ▸ hx
    rw [settled, settle_of_upper hcoh hunblocked hlower hstays]
    show Coherent retired (upper.commit.checked retired) (lower.checked retired)
    rw [checked_of_slot hliveU, checked_of_slot hlowSlot]
    refine ⟨?_, fun _ h => of_none_eq_some h, ?_, hliveU, hlowSlot,
      fun _ h => of_none_eq_some h, hlowPend⟩
    · intro z w hz hw
      rw [hslotU z hz]
      exact beyond_of_unblocked (hw ▸ hunblocked) hpend
    · intro y hy
      exact ⟨x, by rw [slot_commit, hpend], habove y hy⟩
  · -- the lower boundary blocks the new object, so the upper boundary is above it and lives
    have hblocked : UpperBlocked upper lower :=
      upperBlocked_iff.mpr (Bool.eq_false_iff.mpr hunblocked)
    have hlive : ∀ z, upper.slot = some z → ¬ retired z.1 := by
      intro z hz hret
      obtain ⟨y, hy, hle⟩ := hblocked x hpend
      exact absurd (hslot z hz hret) (not_lt.mpr (hle.trans (hord z y hz hy).le))
    have hsides : Coherent retired upper lower :=
      ⟨hord, hblocked, hlower, hlive, hlowSlot, fun z hz => by
        cases hpend.symm.trans hz
        exact hx, hlowPend⟩
    rw [settled, checked_settle_of_coherent hsides]
    exact hsides

/-- **A new lower object** leaves coherent sides coherent. -/
theorem coherent_of_lower {x : Nat × α} (hord : Ordered upper lower)
    (hupper : UpperBlocked upper lower) (hpend : lower.pending = some x) (hx : ¬ retired x.1)
    (hslot : ∀ z, lower.slot = some z → retired z.1 → x.2 < z.2)
    (hupSlot : ∀ z, upper.slot = some z → ¬ retired z.1)
    (hupPend : ∀ z, upper.pending = some z → ¬ retired z.1) :
    Coherent retired (settled retired upper lower).1 (settled retired upper lower).2 := by
  by_cases hcoh : pairOrdered upper lower = true
  · obtain ⟨y, _, hy, hx', hlt⟩ := pairOrdered_eq_true_iff.mp hcoh
    cases hpend.symm.trans hx'
    exact coherent_of_both hy hpend hlt (hupPend y hy) hx
  -- what is pending above is at or below the new object
  have hbelow : ∀ y, upper.pending = some y → y.2 ≤ x.2 := fun y hy =>
    not_lt.mp fun hlt => hcoh (pairOrdered_eq_true_iff.mpr ⟨y, x, hy, hpend, hlt⟩)
  have hcoh : pairOrdered upper lower = false := Bool.eq_false_iff.mpr hcoh
  by_cases hunblocked : lower.unblocked .low upper.slot = true
  · have hstays : upper.unblocked .high lower.pending = false :=
      unblocked_eq_false_iff.mpr fun y hy => ⟨x, hpend, not_lt.mpr (hbelow y hy)⟩
    have hslotL := slot_commit_eq hpend
    have hliveL : ∀ z, lower.commit.slot = some z → ¬ retired z.1 := fun z hz => hslotL z hz ▸ hx
    rw [settled, settle_of_lower hcoh hunblocked hupper hstays]
    show Coherent retired (upper.checked retired) (lower.commit.checked retired)
    rw [checked_of_slot hliveL, checked_of_slot hupSlot]
    refine ⟨?_, ?_, fun _ h => of_none_eq_some h, hupSlot, hliveL, hupPend,
      fun _ h => of_none_eq_some h⟩
    · intro z w hz hw
      rw [hslotL w hw]
      exact beyond_of_unblocked (hz ▸ hunblocked) hpend
    · intro y hy
      exact ⟨x, by rw [slot_commit, hpend], hbelow y hy⟩
  · -- the upper boundary blocks the new object, so the lower boundary is below it and lives
    have hblocked : LowerBlocked upper lower :=
      lowerBlocked_iff.mpr (Bool.eq_false_iff.mpr hunblocked)
    have hlive : ∀ z, lower.slot = some z → ¬ retired z.1 := by
      intro z hz hret
      obtain ⟨y, hy, hle⟩ := hblocked x hpend
      exact absurd (hslot z hz hret) (not_lt.mpr ((hord y z hy hz).le.trans hle))
    have hsides : Coherent retired upper lower :=
      ⟨hord, hupper, hblocked, hupSlot, hlive, hupPend, fun z hz => by
        cases hpend.symm.trans hz
        exact hx⟩
    rw [settled, checked_settle_of_coherent hsides]
    exact hsides

end OvcReplay.C2Csm
