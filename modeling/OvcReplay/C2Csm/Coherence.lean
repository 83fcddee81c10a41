import OvcReplay.C2Csm.Events
import OvcReplay.C2Csm.Transitions

/-! # The boundaries of the CSM reference engine are coherent

In every run over bars in order, the boundaries refer to objects that live, the upper one is above
the lower one, and what is pending is blocked by the other side. -/

namespace OvcReplay.C2Csm

open List Python

variable {α : Type} [LinearOrder α]

/-! ## Sound sides -/

/-- **Sound sides**: paired, coherent for the objects of the layer below, and of the kind and price of
the objects that they refer to. -/
structure Sound (r1 : R1State α) (upper lower : Side α) : Prop where
  aligned : r1.Aligned
  upperPaired : upper.Paired
  lowerPaired : lower.Paired
  coherent : Coherent (Retired r1.lifeState) upper.boundary lower.boundary
  upperObject : upper.boundary.All (r1.Object .high)
  lowerObject : lower.boundary.All (r1.Object .low)

variable {r1 : R1State α} {bar : ReferenceBar α} {upper lower : Side α}

/-! ## New objects -/

variable {kind : Kind} {side : Side α}

omit [LinearOrder α] in
/-- Without a new object, and without a retired one pending, a side is what it was. -/
theorem boundary_taken_of_nil (hnews : r1.newObjects bar kind = [])
    (h : ∀ x, side.boundary.pending = some x → ¬ Retired r1.lifeState x.1) :
    (side.taken r1 bar kind).boundary = side.boundary := by
  unfold Side.taken
  rw [hnews, entered_nil]
  exact boundary_pendingChecked h

variable {x : Nat × α}

omit [LinearOrder α] in
/-- The only new object of an enabled bar is pending. -/
theorem boundary_taken_of_one (hnews : r1.newObjects bar kind = [x])
    (henabled : bar.enabled = true) :
    (side.taken r1 bar kind).boundary = ⟨side.boundary.slot, some x⟩ := by
  unfold Side.taken
  rw [hnews, boundary_entered x henabled, slot_pendingChecked]
  rfl

/-! ## Bars -/

omit [LinearOrder α] in
theorem enabled_of_isOpen (h : bar.isOpen = true) : bar.enabled = true := by
  unfold ReferenceBar.isOpen at h
  rw [Bool.and_eq_true, Bool.and_eq_true] at h
  exact h.1.1

/-- **A bar without an event** keeps sound sides. -/
theorem sound_of_quiet (h : Sound r1 upper lower) (haged : r1.Aged bar.barIndex) :
    Sound r1 (stepSides r1 bar upper lower).1 (stepSides r1 bar upper lower).2 := by
  have hpaired := paired_stepSides r1 bar h.upperPaired h.lowerPaired
  have hu := boundary_taken_of_nil (newObjects_of_aged haged .high) h.coherent.upperPending
  have hl := boundary_taken_of_nil (newObjects_of_aged haged .low) h.coherent.lowerPending
  have hsame : (stepSides r1 bar upper lower).1.boundary = upper.boundary ∧
      (stepSides r1 bar upper lower).2.boundary = lower.boundary := by
    by_cases henabled : bar.enabled = true
    · have hsettled := boundary_stepSides r1 bar henabled h.upperPaired h.lowerPaired
      rw [hu, hl] at hsettled
      exact Prod.mk.inj (hsettled.trans (checked_settle_of_coherent h.coherent))
    · rw [Bool.not_eq_true] at henabled
      rw [(boundary_stepSides_of_disabled r1 bar henabled).1,
        (boundary_stepSides_of_disabled r1 bar henabled).2, hu, hl,
        checked_of_slot h.coherent.upperSlot, checked_of_slot h.coherent.lowerSlot]
      exact ⟨rfl, rfl⟩
  refine ⟨h.aligned, hpaired.1, hpaired.2, ?_, ?_, ?_⟩
  · rw [hsame.1, hsame.2]
    exact h.coherent
  · rw [hsame.1]
    exact h.upperObject
  · rw [hsame.2]
    exact h.lowerObject

/-- Sides of an enabled bar that settle coherently are sound. -/
theorem sound_of_settled (haligned : r1.Aligned) (hupper : upper.Paired) (hlower : lower.Paired)
    (henabled : bar.enabled = true) {u l : Boundary α}
    (hu : (upper.taken r1 bar .high).boundary = u) (hl : (lower.taken r1 bar .low).boundary = l)
    (hcoh : Coherent (Retired r1.lifeState) (settled (Retired r1.lifeState) u l).1
      (settled (Retired r1.lifeState) u l).2)
    (hupperObject : u.All (r1.Object .high)) (hlowerObject : l.All (r1.Object .low)) :
    Sound r1 (stepSides r1 bar upper lower).1 (stepSides r1 bar upper lower).2 := by
  have hpaired := paired_stepSides r1 bar hupper hlower
  have hsettled := boundary_stepSides r1 bar henabled hupper hlower
  rw [hu, hl] at hsettled
  have hobjs := all_settled (Retired r1.lifeState) hupperObject hlowerObject
  rw [← hsettled] at hcoh hobjs
  exact ⟨haligned, hpaired.1, hpaired.2, hcoh, hobjs.1, hobjs.2⟩

/-! ## Events -/

theorem not_retired_form_new (haligned : r1.Aligned) (kind : Kind) (price : α) (barIndex : Int) :
    ¬ Retired (r1.form kind price barIndex).lifeState r1.lifePrice.length := by
  unfold Retired
  rw [getElem_lifeState_form_new haligned]
  intro h
  cases h

variable {barIndex : Int}

/-- An object of the other kind is not retired by an event. -/
theorem not_retired_form_of_ne {kind other : Kind} {price : α} (hobject : r1.Object other x)
    (hne : kind ≠ other) (hlive : ¬ Retired r1.lifeState x.1) :
    ¬ Retired (r1.form kind price barIndex).lifeState x.1 := by
  rw [retired_form]
  rintro (hretired | hretired)
  · exact hlive hretired
  · have hkind := (of_isRetiredBy hretired).2.1
    rw [hobject.1] at hkind
    exact hne (Option.some.inj hkind).symm

/-- An object that an event retires is beyond the new one. -/
theorem beyond_of_retired_form {price : α} (hobject : r1.Object kind x)
    (hlive : ¬ Retired r1.lifeState x.1) (h : Retired (r1.form kind price barIndex).lifeState x.1) :
    kind.Beyond price x.2 := by
  rw [retired_form] at h
  rcases h with hretired | hretired
  · exact absurd hretired hlive
  · obtain ⟨_, _, old, hold, hbeyond⟩ := of_isRetiredBy hretired
    rw [hobject.2] at hold
    rw [Option.some.inj hold]
    exact hbeyond

/-- What sides refer to stays an object of its kind. -/
theorem all_object_form {b : Boundary α} {side kind : Kind} (h : b.All (r1.Object side)) (price : α)
    (barIndex : Int) : b.All ((r1.form kind price barIndex).Object side) :=
  ⟨fun x hx => object_append (h.slot x hx) (lifeKind_form _ _ _ _) (lifePrice_form _ _ _ _),
    fun x hx => object_append (h.pending x hx) (lifeKind_form _ _ _ _) (lifePrice_form _ _ _ _)⟩

omit [LinearOrder α] in
/-- A side before which an object became pending. -/
theorem all_pending {b : Boundary α} {P : Nat × α → Prop} (h : b.All P) (hx : P x) :
    (⟨b.slot, some x⟩ : Boundary α).All P :=
  ⟨h.slot, fun y hy => by rw [← Option.some.inj hy]; exact hx⟩

/-- The new objects after one event. -/
theorem newObjects_form_of_aged (haligned : r1.Aligned) (haged : r1.Aged bar.barIndex)
    (hopen : bar.isOpen = true) (kind : Kind) (price : α) (side : Kind) :
    (r1.form kind price bar.barIndex).newObjects bar side =
      if kind = side then [(r1.lifePrice.length, price)] else [] := by
  rw [newObjects_form haligned (freshActive_of_aged haged) hopen, newObjects_of_aged haged,
    nil_append]

/-- **A bar with a high** keeps sound sides. -/
theorem sound_of_high (h : Sound r1 upper lower) (haged : r1.Aged bar.barIndex)
    (hopen : bar.isOpen = true) (price : α) :
    let formed := r1.form .high price bar.barIndex
    Sound formed (stepSides formed bar upper lower).1 (stepSides formed bar upper lower).2 := by
  intro formed
  have henabled := enabled_of_isOpen hopen
  have hlowPend : ∀ x, lower.boundary.pending = some x → ¬ Retired formed.lifeState x.1 :=
    fun x hx => not_retired_form_of_ne (h.lowerObject.pending x hx) (by decide)
      (h.coherent.lowerPending x hx)
  have hlowSlot : ∀ x, lower.boundary.slot = some x → ¬ Retired formed.lifeState x.1 :=
    fun x hx => not_retired_form_of_ne (h.lowerObject.slot x hx) (by decide)
      (h.coherent.lowerSlot x hx)
  have hu : (upper.taken formed bar .high).boundary =
      ⟨upper.boundary.slot, some (r1.lifePrice.length, price)⟩ :=
    boundary_taken_of_one (newObjects_form_of_aged h.aligned haged hopen .high price .high) henabled
  have hl : (lower.taken formed bar .low).boundary = lower.boundary :=
    boundary_taken_of_nil (newObjects_form_of_aged h.aligned haged hopen .high price .low)
      hlowPend
  refine sound_of_settled (aligned_form h.aligned) h.upperPaired h.lowerPaired henabled hu hl ?_
    (all_pending (all_object_form h.upperObject price _) (object_form_new h.aligned _ _ _))
    (all_object_form h.lowerObject price _)
  refine coherent_of_upper h.coherent.ordered h.coherent.lowerBlocked rfl
    (not_retired_form_new h.aligned _ _ _) ?_ hlowSlot hlowPend
  intro z hz hretired
  exact beyond_of_retired_form (h.upperObject.slot z hz) (h.coherent.upperSlot z hz) hretired

/-- **A bar with a low** keeps sound sides. -/
theorem sound_of_low (h : Sound r1 upper lower) (haged : r1.Aged bar.barIndex)
    (hopen : bar.isOpen = true) (price : α) :
    let formed := r1.form .low price bar.barIndex
    Sound formed (stepSides formed bar upper lower).1 (stepSides formed bar upper lower).2 := by
  intro formed
  have henabled := enabled_of_isOpen hopen
  have hupPend : ∀ x, upper.boundary.pending = some x → ¬ Retired formed.lifeState x.1 :=
    fun x hx => not_retired_form_of_ne (h.upperObject.pending x hx) (by decide)
      (h.coherent.upperPending x hx)
  have hupSlot : ∀ x, upper.boundary.slot = some x → ¬ Retired formed.lifeState x.1 :=
    fun x hx => not_retired_form_of_ne (h.upperObject.slot x hx) (by decide)
      (h.coherent.upperSlot x hx)
  have hl : (lower.taken formed bar .low).boundary =
      ⟨lower.boundary.slot, some (r1.lifePrice.length, price)⟩ :=
    boundary_taken_of_one (newObjects_form_of_aged h.aligned haged hopen .low price .low) henabled
  have hu : (upper.taken formed bar .high).boundary = upper.boundary :=
    boundary_taken_of_nil (newObjects_form_of_aged h.aligned haged hopen .low price .high)
      hupPend
  refine sound_of_settled (aligned_form h.aligned) h.upperPaired h.lowerPaired henabled hu hl ?_
    (all_object_form h.upperObject price _)
    (all_pending (all_object_form h.lowerObject price _) (object_form_new h.aligned _ _ _))
  refine coherent_of_lower h.coherent.ordered h.coherent.upperBlocked rfl
    (not_retired_form_new h.aligned _ _ _) ?_ hupSlot hupPend
  intro z hz hretired
  exact beyond_of_retired_form (h.lowerObject.slot z hz) (h.coherent.lowerSlot z hz) hretired

/-- **A bar with both** keeps sound sides. -/
theorem sound_of_both (h : Sound r1 upper lower) (haged : r1.Aged bar.barIndex)
    (hopen : bar.isOpen = true) {high low : α} (hlt : low < high) :
    let formed := (r1.form .high high bar.barIndex).form .low low bar.barIndex
    Sound formed (stepSides formed bar upper lower).1 (stepSides formed bar upper lower).2 := by
  intro formed
  have henabled := enabled_of_isOpen hopen
  have haligned : (r1.form .high high bar.barIndex).Aligned := aligned_form h.aligned
  have hfresh : (r1.form .high high bar.barIndex).FreshActive bar.barIndex :=
    freshActive_form h.aligned (freshActive_of_aged haged)
  have hnews : ∀ side, formed.newObjects bar side =
      (if Kind.high = side then [(r1.lifePrice.length, high)] else []) ++
        if Kind.low = side then [((r1.form .high high bar.barIndex).lifePrice.length, low)] else [] :=
    fun side => by
      rw [newObjects_form haligned hfresh hopen,
        newObjects_form_of_aged h.aligned haged hopen]
  have hu : (upper.taken formed bar .high).boundary =
      ⟨upper.boundary.slot, some (r1.lifePrice.length, high)⟩ :=
    boundary_taken_of_one (hnews .high) henabled
  have hl : (lower.taken formed bar .low).boundary =
      ⟨lower.boundary.slot, some ((r1.form .high high bar.barIndex).lifePrice.length, low)⟩ :=
    boundary_taken_of_one (hnews .low) henabled
  have hnew := object_form_new h.aligned .high high bar.barIndex
  refine sound_of_settled (aligned_form haligned) h.upperPaired h.lowerPaired henabled hu hl ?_
    (all_pending (all_object_form (all_object_form h.upperObject high _) low _)
      (object_append hnew (lifeKind_form _ _ _ _) (lifePrice_form _ _ _ _)))
    (all_pending (all_object_form (all_object_form h.lowerObject high _) low _)
      (object_form_new haligned _ _ _))
  exact coherent_of_both rfl rfl hlt
    (not_retired_form_of_ne hnew (by decide) (not_retired_form_new h.aligned _ _ _))
    (not_retired_form_new haligned _ _ _)

/-! ## The first layer of a bar -/

/-- The objects that rest on a bar. -/
theorem sound_rested (h : Sound r1 upper lower) (bar : ReferenceBar α) :
    Sound ((r1.pushed bar).rested bar) upper lower := by
  obtain ⟨hkind, hprice, hfirst, hst⟩ := rested_lists (r1.pushed bar) bar
  have hobject : ∀ {kind : Kind} {x : Nat × α}, r1.Object kind x →
      ((r1.pushed bar).rested bar).Object kind x := by
    intro kind x hx
    constructor
    · rw [hkind]
      exact hx.1
    · rw [hprice]
      exact hx.2
  refine ⟨⟨?_, ?_, ?_⟩, h.upperPaired, h.lowerPaired, ?_, ?_, ?_⟩
  · rw [hkind, hprice]
    exact h.aligned.kind
  · rw [hst, hprice]
    exact h.aligned.state
  · rw [hfirst, hprice]
    exact h.aligned.first
  · exact h.coherent.mono fun index hretired => (retired_rested (r1.pushed bar) bar index).mp
      hretired
  · exact ⟨fun x hx => hobject (h.upperObject.slot x hx),
      fun x hx => hobject (h.upperObject.pending x hx)⟩
  · exact ⟨fun x hx => hobject (h.lowerObject.slot x hx),
      fun x hx => hobject (h.lowerObject.pending x hx)⟩

/-- The counts of a layer are read by no role. -/
theorem sound_counted (h : Sound r1 upper lower) (enabled : Bool) :
    Sound (r1.counted enabled) upper lower where
  aligned := ⟨h.aligned.kind, h.aligned.state, h.aligned.first⟩
  upperPaired := h.upperPaired
  lowerPaired := h.lowerPaired
  coherent := h.coherent
  upperObject := h.upperObject
  lowerObject := h.lowerObject

theorem stepSides_counted (r1 : R1State α) (enabled : Bool) (bar : ReferenceBar α)
    (upper lower : Side α) :
    stepSides (r1.counted enabled) bar upper lower = stepSides r1 bar upper lower := rfl

/-- What is asked of a bar: its low is at or below its high, and a chart gap restarts its segment. -/
structure ReferenceBar.Regular (bar : ReferenceBar α) : Prop where
  spread : ∀ high ∈ bar.sourceHigh, ∀ low ∈ bar.sourceLow, low ≤ high
  gap : bar.chartGap = true → bar.segmentObs < 7

/-- **A bar keeps sound sides.** -/
theorem sound_stepR1 (h : Sound r1 upper lower)
    (hspread : Spread r1.sourceHighHistory r1.sourceLowHistory) (haged : r1.Aged bar.barIndex)
    (hreg : bar.Regular) :
    Sound (stepR1 r1 bar) (stepSides (stepR1 r1 bar) bar upper lower).1
      (stepSides (stepR1 r1 bar) bar upper lower).2 := by
  have hrested := sound_rested h bar
  have hagedRested : ((r1.pushed bar).rested bar).Aged bar.barIndex := by
    unfold R1State.Aged
    rw [(rested_lists (r1.pushed bar) bar).2.2.1]
    exact haged
  rcases stepR1_cases (spread_pushHistory hspread hreg.spread) hreg.gap with
    hstep | ⟨hopen, kind, price, hstep⟩ | ⟨hopen, high, low, hlt, hstep⟩
  · rw [hstep, stepSides_counted]
    exact sound_counted (sound_of_quiet hrested hagedRested) _
  · rw [hstep, stepSides_counted]
    cases kind with
    | high => exact sound_counted (sound_of_high hrested hagedRested hopen price) _
    | low => exact sound_counted (sound_of_low hrested hagedRested hopen price) _
  · rw [hstep, stepSides_counted]
    exact sound_counted (sound_of_both hrested hagedRested hopen hlt) _

/-- The objects of a bar are those that were there and those of the bar. -/
theorem mem_lifeFirstValidBar_stepR1
    (hspread : Spread r1.sourceHighHistory r1.sourceLowHistory) (hreg : bar.Regular)
    {first : Int} (h : first ∈ (stepR1 r1 bar).lifeFirstValidBar) :
    first ∈ r1.lifeFirstValidBar ∨ first = bar.barIndex := by
  have hlists : ((r1.pushed bar).rested bar).lifeFirstValidBar = r1.lifeFirstValidBar :=
    (rested_lists (r1.pushed bar) bar).2.2.1
  rcases stepR1_cases (spread_pushHistory hspread hreg.spread) hreg.gap with
    hstep | ⟨_, kind, price, hstep⟩ | ⟨_, high, low, _, hstep⟩
  · rw [hstep] at h
    exact Or.inl (hlists ▸ h)
  · rw [hstep] at h
    change first ∈ ((r1.pushed bar).rested bar).lifeFirstValidBar ++ [bar.barIndex] at h
    rw [hlists] at h
    simpa only [mem_append, mem_singleton] using h
  · rw [hstep] at h
    change first ∈ (((r1.pushed bar).rested bar).lifeFirstValidBar ++ [bar.barIndex]) ++
      [bar.barIndex] at h
    rw [hlists] at h
    simpa only [mem_append, mem_singleton, or_assoc, or_self] using h

/-- The histories of a bar. -/
theorem spread_stepR1 (hspread : Spread r1.sourceHighHistory r1.sourceLowHistory)
    (hreg : bar.Regular) :
    Spread (stepR1 r1 bar).sourceHighHistory (stepR1 r1 bar).sourceLowHistory := by
  have hpushed := spread_pushHistory hspread hreg.spread
  have hrested : Spread ((r1.pushed bar).rested bar).sourceHighHistory
      ((r1.pushed bar).rested bar).sourceLowHistory := by
    unfold R1State.rested
    cases bar.sourceClose with
    | none => exact hpushed
    | some close =>
      by_cases h : (bar.enabled && bar.logicEnabled && bar.inLabWindow && !bar.chartGap) = true
      · simp only [h, if_true]
        exact hpushed
      · simp only [h]
        exact hpushed
  rcases stepR1_cases hpushed hreg.gap with
    hstep | ⟨_, kind, price, hstep⟩ | ⟨_, high, low, _, hstep⟩
  · rw [hstep]
    exact hrested
  · rw [hstep]
    exact hrested
  · rw [hstep]
    exact hrested

/-! ## Runs -/

/-- What every bar of a run leaves. -/
structure R2State.Steady (r2 : R2State α) : Prop where
  sound : Sound r2.r1 r2.upper r2.lower
  spread : Spread r2.r1.sourceHighHistory r2.r1.sourceLowHistory

theorem steady_empty : ({} : R2State α).Steady where
  sound :=
    { aligned := ⟨rfl, rfl, rfl⟩
      upperPaired := paired_empty
      lowerPaired := paired_empty
      coherent := ⟨fun _ _ h => of_none_eq_some h, fun _ h => of_none_eq_some h,
        fun _ h => of_none_eq_some h, fun _ h => of_none_eq_some h, fun _ h => of_none_eq_some h,
        fun _ h => of_none_eq_some h, fun _ h => of_none_eq_some h⟩
      upperObject := ⟨fun _ h => of_none_eq_some h, fun _ h => of_none_eq_some h⟩
      lowerObject := ⟨fun _ h => of_none_eq_some h, fun _ h => of_none_eq_some h⟩ }
  spread := List.Forall₂.nil

theorem steady_resetFor {s : EngineState α} (h : s.r2.Steady) (bar : ReferenceBar α) :
    (s.resetFor bar).r2.Steady := by
  unfold EngineState.resetFor
  by_cases hfirst : (bar.enabled && bar.firstLabBar) = true
  · rw [if_pos hfirst]
    exact steady_empty
  · rw [if_neg hfirst]
    exact h

omit [LinearOrder α] in
theorem aged_resetFor {s : EngineState α} (h : s.r2.r1.Aged barIndex) (bar : ReferenceBar α) :
    (s.resetFor bar).r2.r1.Aged barIndex := by
  unfold EngineState.resetFor
  by_cases hfirst : (bar.enabled && bar.firstLabBar) = true
  · rw [if_pos hfirst]
    intro first hmem
    cases hmem
  · rw [if_neg hfirst]
    exact h

variable (O : PriceOps α)

variable {s s' : EngineState α}

/-- The first two layers of a bar that is accepted. -/
theorem r2_of_step (h : s.step O bar = .ok s') : s'.r2 = { (s.resetFor bar).r2 with
      r1 := stepR1 (s.resetFor bar).r2.r1 bar }.stepR2 O bar := by
  obtain ⟨_, _, h⟩ := bind_ok.mp h
  rw [← Except.ok.inj h]

/-- **A bar keeps a steady state.** -/
theorem steady_step (h : s.r2.Steady) (haged : s.r2.r1.Aged bar.barIndex) (hreg : bar.Regular)
    (hstep : s.step O bar = .ok s') : s'.r2.Steady := by
  rw [r2_of_step O hstep]
  have hreset := steady_resetFor h bar
  exact ⟨sound_stepR1 hreset.sound hreset.spread (aged_resetFor haged bar) hreg,
    spread_stepR1 hreset.spread hreg⟩

/-- The objects of a bar are older than what follows it. -/
theorem aged_step (h : s.r2.Steady) (haged : s.r2.r1.Aged barIndex) (hlt : bar.barIndex < barIndex)
    (hreg : bar.Regular) (hstep : s.step O bar = .ok s') : s'.r2.r1.Aged barIndex := by
  rw [r2_of_step O hstep]
  intro first hmem
  rcases mem_lifeFirstValidBar_stepR1 (steady_resetFor h bar).spread hreg hmem with
    hold | hnew
  · exact aged_resetFor haged bar first hold
  · rw [hnew]
    exact hlt

/-- **A run over bars in order keeps a steady state.** -/
theorem steady_run {bars : List (ReferenceBar α)} (h : s.r2.Steady)
    (haged : ∀ bar ∈ bars, s.r2.r1.Aged bar.barIndex)
    (horder : bars.Pairwise fun earlier later => earlier.barIndex < later.barIndex)
    (hreg : ∀ bar ∈ bars, bar.Regular) (hrun : s.run O bars = .ok s') : s'.r2.Steady := by
  induction bars generalizing s with
  | nil =>
    cases hrun
    exact h
  | cons bar rest ih =>
    obtain ⟨next, hstep, hrest⟩ := bind_ok.mp hrun
    have hbar := hreg bar mem_cons_self
    have horder := pairwise_cons.mp horder
    refine ih (steady_step O h (haged bar mem_cons_self) hbar hstep) ?_ horder.2
      (fun later hlater => hreg later (mem_cons_of_mem _ hlater)) hrest
    intro later hlater
    exact aged_step O h (haged later (mem_cons_of_mem _ hlater)) (horder.1 later hlater) hbar
      hstep

/-! ## Envelopes -/

/-- **Coherent envelopes**: boundaries live, the upper one is above the lower one, and what is pending
is blocked by the other side. -/
structure R2State.EnvelopeCoherent (r2 : R2State α) : Prop where
  upperLive : ∀ index, r2.upper.slotIndex = some index →
    ∃ state, r2.r1.lifeState[index]? = some state ∧ state ≠ .retired
  lowerLive : ∀ index, r2.lower.slotIndex = some index →
    ∃ state, r2.r1.lifeState[index]? = some state ∧ state ≠ .retired
  upperPaired : r2.upper.slotIndex.isSome = r2.upper.slotPrice.isSome ∧
    r2.upper.pendingIndex.isSome = r2.upper.pendingPrice.isSome
  lowerPaired : r2.lower.slotIndex.isSome = r2.lower.slotPrice.isSome ∧
    r2.lower.pendingIndex.isSome = r2.lower.pendingPrice.isSome
  ordered : ∀ upper lower, r2.upper.slotPrice = some upper → r2.lower.slotPrice = some lower →
    lower < upper
  upperBlocked : ∀ price, r2.upper.pendingPrice = some price →
    ∃ lower, r2.lower.slotPrice = some lower ∧ price ≤ lower
  lowerBlocked : ∀ price, r2.lower.pendingPrice = some price →
    ∃ upper, r2.upper.slotPrice = some upper ∧ upper ≤ price

omit [LinearOrder α] in
/-- The boundary of a paired side lives. -/
theorem live_of_slot (haligned : r1.Aligned) (hpaired : side.Paired)
    (hobject : side.boundary.All (r1.Object kind))
    (hlive : ∀ x, side.boundary.slot = some x → ¬ Retired r1.lifeState x.1) {index : Nat}
    (h : side.slotIndex = some index) :
    ∃ state, r1.lifeState[index]? = some state ∧ state ≠ .retired := by
  obtain ⟨price, _, hslot⟩ := slot_eq_some hpaired h
  have hlength : index < r1.lifeState.length := by
    rw [haligned.state, ← haligned.kind]
    exact (List.getElem?_eq_some_iff.mp (hobject.slot _ hslot).1).1
  refine ⟨r1.lifeState[index], List.getElem?_eq_getElem hlength, ?_⟩
  intro hretired
  exact hlive _ hslot ((List.getElem?_eq_getElem hlength).trans (congrArg some hretired))

theorem R2State.Steady.envelopeCoherent {r2 : R2State α} (h : r2.Steady) :
    r2.EnvelopeCoherent where
  upperLive _ hix := live_of_slot h.sound.aligned h.sound.upperPaired h.sound.upperObject
    h.sound.coherent.upperSlot hix
  lowerLive _ hix := live_of_slot h.sound.aligned h.sound.lowerPaired h.sound.lowerObject
    h.sound.coherent.lowerSlot hix
  upperPaired := ⟨h.sound.upperPaired.slot, h.sound.upperPaired.pending⟩
  lowerPaired := ⟨h.sound.lowerPaired.slot, h.sound.lowerPaired.pending⟩
  ordered upper lower hupper hlower := by
    obtain ⟨i, hi⟩ := slot_eq_some_of_price h.sound.upperPaired hupper
    obtain ⟨j, hj⟩ := slot_eq_some_of_price h.sound.lowerPaired hlower
    exact h.sound.coherent.ordered (i, upper) (j, lower) hi hj
  upperBlocked price hprice := by
    obtain ⟨i, hi⟩ := pending_eq_some_of_price h.sound.upperPaired hprice
    obtain ⟨y, hy, hle⟩ := h.sound.coherent.upperBlocked (i, price) hi
    exact ⟨y.2, slotPrice_of_slot hy, hle⟩
  lowerBlocked price hprice := by
    obtain ⟨i, hi⟩ := pending_eq_some_of_price h.sound.lowerPaired hprice
    obtain ⟨y, hy, hle⟩ := h.sound.coherent.lowerBlocked (i, price) hi
    exact ⟨y.2, slotPrice_of_slot hy, hle⟩

/-- **The envelope is coherent after every bar** of a run over bars in order whose lows are at or
below their highs and whose chart gaps restart their segments. -/
theorem envelope_coherent {bars : List (ReferenceBar α)} {s : EngineState α}
    (hrun : ({} : EngineState α).run O bars = .ok s)
    (horder : bars.Pairwise fun earlier later => earlier.barIndex < later.barIndex)
    (hregular : ∀ bar ∈ bars, bar.Regular) : s.r2.EnvelopeCoherent := by
  refine (steady_run O steady_empty ?_ horder hregular hrun).envelopeCoherent
  intro bar _ first hmem
  cases hmem

/-- Prices in whole ticks. -/
def ticks : PriceOps Int where
  sub x y := x - y
  mid x y := (x + y) / 2
  positive x := decide (0 < x)
  signature x _ := intText x

/-- A bar of a window that opens with the first one. -/
def windowBar {β : Type} (index : Nat) (high low : β) : ReferenceBar β where
  enabled := true
  logicEnabled := true
  inLabWindow := true
  firstLabBar := decide (index = 0)
  chartGap := false
  segmentObs := index + 1
  barIndex := index
  sourceHigh := some high
  sourceLow := some low
  sourceClose := some low
  sequence := index
  cutoffMs := none
  mintick := none
  windowComplete := false
  checkpointEvery := 0
  recordRelationOnly := false
  recordInteractionOnly := false

/-- Seven bars, of which the fourth is the highest and the lowest. -/
def peakBars : List (ReferenceBar Int) :=
  [windowBar 0 10 5, windowBar 1 11 5, windowBar 2 12 4, windowBar 3 20 1, windowBar 4 12 4,
    windowBar 5 11 5, windowBar 6 10 5]

/-- The seven bars are accepted, and bound an envelope. -/
theorem run_peakBars : ∃ s, ({} : EngineState Int).run ticks peakBars = .ok s ∧
    s.r2.upper.slotPrice = some 20 ∧ s.r2.lower.slotPrice = some 1 := by
  have hslots : ((({} : EngineState Int).run ticks peakBars).toOption.map fun s =>
      (s.r2.upper.slotPrice, s.r2.lower.slotPrice)) = some (some 20, some 1) := by decide +kernel
  obtain ⟨s, hs, hprices⟩ := Option.map_eq_some_iff.mp hslots
  exact ⟨s, eq_ok_of_toOption hs, (Prod.mk.inj hprices).1, (Prod.mk.inj hprices).2⟩

/-- The run over the seven bars bounds an envelope, which is coherent. -/
theorem envelope_coherent_peak :
    ∃ s, ({} : EngineState Int).run ticks peakBars = .ok s ∧ s.r2.upper.slotPrice = some 20 ∧
      s.r2.lower.slotPrice = some 1 ∧ s.r2.EnvelopeCoherent := by
  obtain ⟨s, hrun, hupper, hlower⟩ := run_peakBars
  refine ⟨s, hrun, hupper, hlower, envelope_coherent ticks hrun ?_ ?_⟩
  · decide
  · intro bar hbar
    have hreg : ∀ bar ∈ peakBars, (∀ high ∈ bar.sourceHigh, ∀ low ∈ bar.sourceLow,
        low ≤ high) ∧ (bar.chartGap = true → bar.segmentObs < 7) := by decide
    exact ⟨(hreg bar hbar).1, (hreg bar hbar).2⟩

end OvcReplay.C2Csm
