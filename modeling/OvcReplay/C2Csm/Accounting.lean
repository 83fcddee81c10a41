import OvcReplay.C2Csm.FormationAccounts
import OvcReplay.C2Csm.Coherence

/-! # The accounting of the CSM reference engine never fails

After every enabled bar the ten reconciliations of a snapshot hold, whatever the bars and their order;
the objects keep their accounts and only move on. -/

namespace OvcReplay.C2Csm

open List OvcReplay.Lists Python

variable {α : Type} [LinearOrder α]

/-! ## Interactions -/

/-- The lists of the interactions are as long as those of the objects. -/
structure Interactions.Tracks (i : Interactions) (n : Nat) : Prop where
  lastRelation : i.lastRelation.length = n
  contactCount : i.contactCount.length = n
  relationChangeCount : i.relationChangeCount.length = n
  firstContactBar : i.firstContactBar.length = n
  lastContactBar : i.lastContactBar.length = n
  lastRelationChangeBar : i.lastRelationChangeBar.length = n
  dormantRevisitCount : i.dormantRevisitCount.length = n

theorem tracks_empty : ({} : Interactions).Tracks 0 := ⟨rfl, rfl, rfl, rfl, rfl, rfl, rfl⟩

variable {n : Nat}

omit [LinearOrder α] in
/-- A list that is extended for new objects. -/
theorem length_extended {β : Type} {list : List β} {prices : List α} {f : α → β}
    (h : list.length = n) (hle : n ≤ prices.length) :
    (list ++ (prices.drop n).map f).length = prices.length := by
  rw [length_append, length_map, length_drop, h]
  omega

variable {i : Interactions}

theorem tracks_extended (h : i.Tracks n) {prices : List α} (hle : n ≤ prices.length)
    (close : Option α) : (i.extended prices close).Tracks prices.length := by
  unfold Interactions.extended
  rw [h.lastRelation]
  exact ⟨length_extended h.lastRelation hle, length_extended h.contactCount hle,
    length_extended h.relationChangeCount hle, length_extended h.firstContactBar hle,
    length_extended h.lastContactBar hle, length_extended h.lastRelationChangeBar hle,
    length_extended h.dormantRevisitCount hle⟩

theorem tracks_gapped (h : i.Tracks n) (states : List Life) : (i.gapped states).Tracks n :=
  ⟨length_mapIdx.trans h.lastRelation, h.contactCount, h.relationChangeCount,
    h.firstContactBar, h.lastContactBar, h.lastRelationChangeBar, h.dormantRevisitCount⟩

theorem tracks_touched (h : i.Tracks n) (r1 : R1State α) (bar : ReferenceBar α) (high low close : α) :
    (i.touched r1 bar high low close).Tracks n :=
  ⟨length_mapIdx.trans h.lastRelation, length_mapIdx.trans h.contactCount,
    length_mapIdx.trans h.relationChangeCount, length_mapIdx.trans h.firstContactBar,
    length_mapIdx.trans h.lastContactBar, length_mapIdx.trans h.lastRelationChangeBar,
    length_mapIdx.trans h.dormantRevisitCount⟩

theorem tracks_refreshed (h : i.Tracks n) (states : List Life) (enabled : Bool) :
    (i.refreshed states enabled).Tracks n :=
  ⟨h.lastRelation, h.contactCount, h.relationChangeCount, h.firstContactBar, h.lastContactBar,
    h.lastRelationChangeBar, h.dormantRevisitCount⟩

variable {bar : ReferenceBar α} {r1 : R1State α}

/-- **The interactions of a bar** track the objects, when a bar that is not enabled has no new ones. -/
theorem tracks_stepped (h : i.Tracks n) (hle : n ≤ r1.lifePrice.length)
    (hdisabled : bar.enabled = false → n = r1.lifePrice.length) :
    (i.stepped r1 bar).Tracks r1.lifePrice.length := by
  unfold Interactions.stepped
  apply tracks_refreshed
  have hextended : (if bar.enabled then i.extended r1.lifePrice bar.sourceClose else i).Tracks
      r1.lifePrice.length := by
    cases henab : bar.enabled with
    | false => exact hdisabled henab ▸ h
    | true => exact tracks_extended h hle _
  have hgapped : ∀ c : Bool, ∀ j : Interactions, j.Tracks r1.lifePrice.length →
      (if c then j.gapped r1.lifeState else j).Tracks r1.lifePrice.length := by
    intro c j hj
    cases c with
    | false => exact hj
    | true => exact tracks_gapped hj _
  have hready := hgapped (bar.enabled && bar.chartGap) _ hextended
  split
  · next high low close _ _ _ =>
      by_cases hopen : (bar.enabled && bar.logicEnabled && bar.inLabWindow && !bar.chartGap) = true
      · rw [if_pos hopen]
        exact tracks_touched hready _ _ _ _ _
      · rw [if_neg hopen]
        exact hready
  · exact hready

/-! ## Live objects -/

/-- **A partition of the live objects.** -/
theorem sum_liveCount (states : List Life) (ps : List (Nat → Bool)) {p : Nat → Bool}
    (h : ∀ index, isLive states index = true →
      (ps.map fun q => (q index).toNat).sum = (p index).toNat) :
    (ps.map fun q => liveCount states q).sum = liveCount states p := by
  have hpartition : ∀ index ∈ List.range states.length,
      ((ps.map fun q index => isLive states index && q index).map fun q => (q index).toNat).sum =
        (isLive states index && p index).toNat := by
    intro index _
    rw [map_map]
    cases hlive : isLive states index with
    | false =>
      rw [Bool.false_and]
      apply sum_eq_zero
      intro n hn
      obtain ⟨q, _, rfl⟩ := mem_map.mp hn
      show (isLive states index && q index).toNat = 0
      rw [hlive]
      rfl
    | true =>
      rw [Bool.true_and, ← h index hlive]
      congr 1
      apply map_congr_left
      intro q _
      show (isLive states index && q index).toNat = (q index).toNat
      rw [hlive, Bool.true_and]
  have hsum := sum_countP _ hpartition
  rw [map_map] at hsum
  exact hsum

omit [LinearOrder α] in
/-- The live objects are the active and the dormant ones. -/
theorem liveCount_true (r1 : R1State α) :
    liveCount r1.lifeState (fun _ => true) = r1.countOf .active + r1.countOf .dormant := by
  have hpartition := sum_countP (l := List.range r1.lifeState.length)
    [fun index => (r1.lifeState[index]?.map fun state => decide (state = .active)).getD false,
      fun index => (r1.lifeState[index]?.map fun state => decide (state = .dormant)).getD false]
    (p := fun index => isLive r1.lifeState index && true) (by
      intro index _
      unfold isLive
      simp only [map_cons, map_nil]
      generalize r1.lifeState[index]? = found
      cases found with
      | none => rfl
      | some state => cases state <;> rfl)
  unfold liveCount R1State.countOf
  rw [← hpartition, ← countP_range_getElem r1.lifeState fun state => decide (state = .active),
    ← countP_range_getElem r1.lifeState fun state => decide (state = .dormant)]
  rfl

omit [LinearOrder α] in
/-- The objects in the three states are all objects. -/
theorem countOf_add (r1 : R1State α) :
    r1.countOf .active + r1.countOf .dormant + r1.countOf .retired = r1.lifeState.length := by
  have hpartition := sum_countP (l := r1.lifeState)
    [fun state => decide (state = Life.active), fun state => decide (state = Life.dormant),
      fun state => decide (state = Life.retired)] (p := fun _ => true) (by
      intro state _
      cases state <;> rfl)
  rw [countP_true] at hpartition
  simp only [map_cons, map_nil, sum_cons, sum_nil] at hpartition
  unfold R1State.countOf
  omega

/-! ## Envelopes -/

/-- An object beside valid boundaries has a place. -/
theorem placeOf_isSome (upperIndex lowerIndex : Option Nat) (upper lower : α) (index : Nat)
    (price : α) : (placeOf upperIndex lowerIndex upper lower index price).isSome = true := by
  unfold placeOf
  split
  · rfl
  split
  · rfl
  next hnot =>
    rw [not_or] at hnot
    split
    · rfl
    next hins =>
      split
      · rfl
      next habove =>
        have hlt : price < upper := lt_of_le_of_ne (not_lt.mp habove) hnot.1
        have hbelow : price < lower :=
          lt_of_le_of_ne (not_lt.mp fun h => hins ⟨h, hlt⟩) hnot.2
        rw [if_pos hbelow]
        rfl

/-- What the accounting of an envelope reads. -/
def Envelope.population (e : Envelope α) : Bool × Nat × Nat :=
  (e.geometryValid, e.boundaryMemberCount + e.coLocatedBoundaryContextCount + e.internalCount +
    e.outsideAboveCount + e.outsideBelowCount, e.liveObjectCount)

variable (O : PriceOps α)

theorem population_measured (e : Envelope α) (bar : ReferenceBar α) :
    (e.measured O bar).population = e.population := by
  unfold Envelope.measured
  split <;> rfl

omit [LinearOrder α] in
theorem population_generated (e : Envelope α) (bar : ReferenceBar α) :
    (e.generated O bar).population = e.population := by
  unfold Envelope.generated
  split
  · rfl
  · split <;> rfl

/-- A valid geometry has both prices. -/
theorem prices_of_bounded {e : Envelope α} {upper lower : Side α}
    (h : (e.bounded r1 upper lower).geometryValid = true) :
    ∃ u l, (e.bounded r1 upper lower).upperPrice = some u ∧
      (e.bounded r1 upper lower).lowerPrice = some l := by
  change (_ && isGeometry (e.bounded r1 upper lower).upperPrice
    (e.bounded r1 upper lower).lowerPrice) = true at h
  have hgeom := ((Bool.and_eq_true _ _).mp h).2
  unfold isGeometry at hgeom
  split at hgeom
  · next u l hu hl => exact ⟨u, l, hu, hl⟩
  · cases hgeom

/-- **The objects around an envelope are the live objects.** -/
theorem population_populated {e : Envelope α} {enabled : Bool} {upper lower : Side α}
    (haligned : r1.Aligned)
    (hact : e.activeObjectCount = if enabled then r1.countOf .active else 0)
    (hdorm : e.dormantObjectCount = if enabled then r1.countOf .dormant else 0)
    (hprices : e.geometryValid = true → ∃ u l, e.upperPrice = some u ∧ e.lowerPrice = some l)
    (hgeom : e.geometryValid = true) :
    (e.populated r1 enabled upper lower).population.2.1 =
      (e.populated r1 enabled upper lower).population.2.2 := by
  obtain ⟨u, l, hu, hl⟩ := hprices hgeom
  cases enabled with
  | false =>
    show 0 + 0 + 0 + 0 + 0 = e.activeObjectCount + e.dormantObjectCount
    rw [hact, hdorm]
    rfl
  | true =>
    rw [if_pos rfl] at hact hdorm
    have hplaced : ∀ index, isLive r1.lifeState index = true →
        ∃ place, e.placeAt r1 upper lower index = some place := by
      intro index hlive
      have hix : index < r1.lifePrice.length := by
        rw [← haligned.state]
        by_contra hnot
        unfold isLive at hlive
        rw [getElem?_eq_none (not_lt.mp hnot)] at hlive
        cases hlive
      unfold Envelope.placeAt
      rw [hu, hl, getElem?_eq_getElem hix]
      exact Option.isSome_iff_exists.mp (placeOf_isSome _ _ u l index r1.lifePrice[index])
    have hpartition := sum_liveCount r1.lifeState
      [fun index => decide (e.placeAt r1 upper lower index = some .member),
        fun index => decide (e.placeAt r1 upper lower index = some .coLocated),
        fun index => decide (e.placeAt r1 upper lower index = some .internal),
        fun index => decide (e.placeAt r1 upper lower index = some .outsideAbove),
        fun index => decide (e.placeAt r1 upper lower index = some .outsideBelow)]
      (p := fun _ => true) (by
        intro index hlive
        obtain ⟨place, hplace⟩ := hplaced index hlive
        simp only [map_cons, map_nil, hplace]
        cases place <;> rfl)
    rw [liveCount_true] at hpartition
    simp only [map_cons, map_nil, sum_cons, sum_nil] at hpartition
    simp only [Envelope.population, Envelope.populated, hgeom, hact, hdorm,
      Bool.and_self, if_true]
    omega

/-- **The accounting of an envelope passes.** -/
theorem objectAccountingPass_stepped (e : Envelope α) (haligned : r1.Aligned) (bar : ReferenceBar α)
    (upper lower : Side α) :
    (e.stepped O r1 bar upper lower).objectAccountingPass = true := by
  let bounded := (e.objectsCounted r1 bar).bounded r1 upper lower
  let populated := bounded.populated r1 bar.enabled upper lower
  have hpop : (((populated.measured O bar).generated O bar).population) =
      populated.population := by
    rw [population_generated, population_measured]
  show (!((populated.measured O bar).generated O bar).population.1 ||
    decide (((populated.measured O bar).generated O bar).population.2.1 =
      ((populated.measured O bar).generated O bar).population.2.2)) = true
  rw [hpop]
  by_cases hgeom : bounded.geometryValid = true
  · rw [decide_eq_true (population_populated haligned rfl rfl prices_of_bounded hgeom)]
    exact Bool.or_true _
  · have hnot : populated.population.1 = false := Bool.not_eq_true _ ▸ hgeom
    rw [hnot]
    rfl

/-! ## Transitions -/

theorem total_increment_atomic (c : AtomicCounts) (cls : AtomicClass) :
    (c.increment cls).total = c.total + 1 := by
  cases cls <;> simp only [AtomicCounts.increment, AtomicCounts.total] <;> omega

theorem total_increment_compound (c : CompoundCounts) (cls : CompoundClass) :
    (c.increment cls).total = c.total + 1 := by
  cases cls <;> simp only [CompoundCounts.increment, CompoundCounts.total] <;> omega

/-- The accounts of the compounds. -/
structure Compound.Accounted (c : Compound α) : Prop where
  counts : c.counts.total = c.resolutionCount
  ledger : c.ledger.length = c.resolutionCount

/-- The accounts of the transitions. -/
structure R3State.Accounted (r3 : R3State α) : Prop where
  counts : r3.counts.total = r3.transitionCount
  ledger : r3.ledger.length = r3.transitionCount
  compound : r3.compound.Accounted

omit [LinearOrder α] in
theorem accounted_empty_transitions : ({} : R3State α).Accounted := ⟨rfl, rfl, rfl, rfl⟩

theorem accounted_resolved {c : Compound α} (h : c.Accounted) (anchored final : α × α)
    (generation : Nat) (barIndex : Int) :
    (c.resolved O anchored final generation barIndex).Accounted where
  counts := by
    show (c.counts.increment _).total = c.resolutionCount + 1
    rw [total_increment_compound, h.counts]
  ledger := by
    show (c.ledger ++ [_]).length = c.resolutionCount + 1
    rw [length_append, h.ledger]
    rfl

theorem accounted_advanced {c : Compound α} (h : c.Accounted) (old new : Option (α × α))
    (generation : Nat) (barIndex : Int) : (c.advanced O old new generation barIndex).Accounted := by
  unfold Compound.advanced
  split
  · exact ⟨h.counts, h.ledger⟩
  · exact ⟨h.counts, h.ledger⟩
  · exact h
  · split
    · exact ⟨h.counts, h.ledger⟩
    · dsimp only
      split
      · split
        · apply accounted_resolved
          exact ⟨h.counts, h.ledger⟩
        · exact ⟨h.counts, h.ledger⟩
      · exact ⟨h.counts, h.ledger⟩

variable {r3 : R3State α}

theorem accounted_transitioned (h : r3.Accounted) (e : Envelope α) (bar : ReferenceBar α) :
    (r3.transitioned O e bar).Accounted where
  counts := by
    show (r3.counts.increment _).total = r3.transitionCount + 1
    rw [total_increment_atomic, h.counts]
  ledger := by
    show (r3.ledger ++ [_]).length = r3.transitionCount + 1
    rw [length_append, h.ledger]
    rfl
  compound := accounted_advanced O h.compound _ _ _ _

omit [LinearOrder α] in
theorem accounted_baselined (h : r3.Accounted) (e : Envelope α) (bar : ReferenceBar α) :
    (r3.baselined e bar).Accounted := by
  refine ⟨h.counts, h.ledger, ?_⟩
  unfold R3State.baselined
  dsimp only
  split
  · exact ⟨h.compound.counts, h.compound.ledger⟩
  · exact h.compound

omit [LinearOrder α] in
theorem accounted_lifecycleCounted (h : r3.Accounted) (e : Envelope α) (bar : ReferenceBar α) :
    (r3.lifecycleCounted e bar).Accounted := by
  unfold R3State.lifecycleCounted
  split
  · exact ⟨h.counts, h.ledger, h.compound⟩
  · exact h

theorem accounted_changed (h : r3.Accounted) (e : Envelope α) (bar : ReferenceBar α) :
    (r3.changed O e bar).Accounted := by
  unfold R3State.changed
  split
  · split
    · exact accounted_transitioned O h e bar
    · exact accounted_baselined h e bar
  · exact h

/-- **The transitions of a bar** keep their accounts, and the reconciliations pass. -/
theorem accounted_stepR3 (h : r3.Accounted) (e : Envelope α) (bar : ReferenceBar α) :
    (r3.stepR3 O e bar).Accounted ∧ (r3.stepR3 O e bar).accountingPass = true ∧
      (r3.stepR3 O e bar).ledgerAlignmentPass = true ∧
      (r3.stepR3 O e bar).compoundAccountingPass = true ∧
      (r3.stepR3 O e bar).compoundLedgerAlignmentPass = true := by
  have hchg := accounted_changed O (accounted_lifecycleCounted h e bar) e bar
  exact ⟨⟨hchg.counts, hchg.ledger, hchg.compound.counts, hchg.compound.ledger⟩,
    decide_eq_true hchg.counts, decide_eq_true hchg.ledger,
    decide_eq_true hchg.compound.counts, decide_eq_true hchg.compound.ledger⟩

/-! ## Interactions of an enabled bar -/

/-- The history counts partition the live objects. -/
theorem histories_refreshed (i : Interactions) (states : List Life) (enabled : Bool) :
    (i.refreshed states enabled).historyNone + (i.refreshed states enabled).historyContactOnly +
      (i.refreshed states enabled).historyRelationOnly + (i.refreshed states enabled).historyBoth =
        (i.refreshed states enabled).liveObjects := by
  cases enabled with
  | false => rfl
  | true =>
    have hpartition := sum_liveCount states
      [fun index => decide (i.contactCount[index]?.getD 0 = 0) &&
          decide (i.relationChangeCount[index]?.getD 0 = 0),
        fun index => decide (0 < i.contactCount[index]?.getD 0) &&
          decide (i.relationChangeCount[index]?.getD 0 = 0),
        fun index => decide (i.contactCount[index]?.getD 0 = 0) &&
          decide (0 < i.relationChangeCount[index]?.getD 0),
        fun index => decide (0 < i.contactCount[index]?.getD 0) &&
          decide (0 < i.relationChangeCount[index]?.getD 0)] (p := fun _ => true) (by
        intro index _
        simp only [map_cons, map_nil]
        generalize i.contactCount[index]?.getD 0 = contacts
        generalize i.relationChangeCount[index]?.getD 0 = changes
        cases contacts <;> cases changes <;> simp)
    simp only [map_cons, map_nil, sum_cons, sum_nil] at hpartition
    simp only [Interactions.refreshed, if_true]
    omega

/-- The relation counts partition the live objects. -/
theorem relations_refreshed (i : Interactions) (states : List Life) (enabled : Bool) :
    (i.refreshed states enabled).currentAbove + (i.refreshed states enabled).currentBelow +
      (i.refreshed states enabled).currentEqual + (i.refreshed states enabled).currentUnknown =
        (i.refreshed states enabled).liveObjects := by
  cases enabled with
  | false => rfl
  | true =>
    have hpartition := sum_liveCount states
      [fun index => decide (i.lastRelation[index]?.getD .unknown = .above),
        fun index => decide (i.lastRelation[index]?.getD .unknown = .below),
        fun index => decide (i.lastRelation[index]?.getD .unknown = .equal),
        fun index => decide (i.lastRelation[index]?.getD .unknown = .unknown)]
      (p := fun _ => true) (by
        intro index _
        simp only [map_cons, map_nil]
        generalize i.lastRelation[index]?.getD .unknown = last
        cases last <;> rfl)
    simp only [map_cons, map_nil, sum_cons, sum_nil] at hpartition
    simp only [Interactions.refreshed, if_true]
    omega

/-! ## The engine -/

/-- **The accounts of the engine.** -/
structure EngineState.Accounted (s : EngineState α) : Prop where
  objects : s.r2.r1.Accounted
  interactions : s.r2.interactions.Tracks s.r2.r1.lifePrice.length
  transitions : s.r3.Accounted

theorem accounted_empty_engine : ({} : EngineState α).Accounted :=
  ⟨accounted_empty, tracks_empty, accounted_empty_transitions⟩

theorem accounted_resetFor {s : EngineState α} (h : s.Accounted) (bar : ReferenceBar α) :
    (s.resetFor bar).Accounted := by
  unfold EngineState.resetFor
  split
  · exact accounted_empty_engine
  · exact h

/-- Without an enabled bar no object is formed. -/
theorem length_stepR1 (r1 : R1State α) (bar : ReferenceBar α) :
    r1.lifePrice.length ≤ (stepR1 r1 bar).lifePrice.length ∧
      (bar.enabled = false → r1.lifePrice.length = (stepR1 r1 bar).lifePrice.length) := by
  refine ⟨(moves_stepR1 r1 bar).prices.length_le, ?_⟩
  intro hdisabled
  have hquiet : stepR1 r1 bar = ((r1.pushed bar).rested bar).counted bar.enabled := by
    unfold stepR1
    dsimp only
    rw [formed_of_quiet _ (by rw [hdisabled]; exact Bool.false_ne_true),
      formed_of_quiet _ (by rw [hdisabled]; exact Bool.false_ne_true)]
  rw [hquiet]
  exact congrArg List.length (rested_lists (r1.pushed bar) bar).2.1.symm

/-- The counts of an enabled bar are those of its objects. -/
theorem now_stepR1 (henab : bar.enabled = true) :
    (stepR1 r1 bar).lifeActiveNow = (stepR1 r1 bar).countOf .active ∧
      (stepR1 r1 bar).lifeDormantNow = (stepR1 r1 bar).countOf .dormant ∧
      (stepR1 r1 bar).lifeRetiredNow = (stepR1 r1 bar).countOf .retired := by
  unfold stepR1
  dsimp only
  rw [henab]
  exact ⟨rfl, rfl, rfl⟩

/-- The live objects that the interactions of an enabled bar count. -/
theorem liveObjects_stepped (i : Interactions) (r1 : R1State α) (henab : bar.enabled = true) :
    (i.stepped r1 bar).liveObjects = r1.countOf .active + r1.countOf .dormant := by
  rw [← liveCount_true]
  unfold Interactions.stepped
  dsimp only
  rw [henab]
  rfl

/-- **The integrity of a snapshot** of an enabled bar. -/
theorem snapIntegrity_step {r2 : R2State α} (henab : bar.enabled = true)
    (hobjs : (stepR1 r2.r1 bar).Accounted)
    (htracks : (r2.interactions.stepped (stepR1 r2.r1 bar) bar).Tracks
      (stepR1 r2.r1 bar).lifePrice.length)
    (hr3 : r3.Accounted) :
    let stepped := { r2 with r1 := stepR1 r2.r1 bar }.stepR2 O bar
    snapIntegrity stepped (r3.stepR3 O stepped.envelope bar) = true := by
  intro stepped
  obtain ⟨_, haccounting, halignment, hcmpd, hcmpdAlign⟩ :=
    accounted_stepR3 O hr3 stepped.envelope bar
  obtain ⟨hact, hdorm, hret⟩ :
      (stepR1 r2.r1 bar).lifeActiveNow = _ ∧ (stepR1 r2.r1 bar).lifeDormantNow = _ ∧
        (stepR1 r2.r1 bar).lifeRetiredNow = _ := now_stepR1 henab
  have hlife : (stepR1 r2.r1 bar).lifeActiveNow + (stepR1 r2.r1 bar).lifeDormantNow +
      (stepR1 r2.r1 bar).lifeRetiredNow = (stepR1 r2.r1 bar).lifeFormedCount := by
    rw [hact, hdorm, hret, countOf_add, hobjs.formed, hobjs.aligned.state]
  have hlive : (r2.interactions.stepped (stepR1 r2.r1 bar) bar).liveObjects =
      (stepR1 r2.r1 bar).lifeActiveNow + (stepR1 r2.r1 bar).lifeDormantNow := by
    rw [hact, hdorm, liveObjects_stepped _ _ henab]
  have hids : (r2.interactions.stepped (stepR1 r2.r1 bar) bar).lastRelation.length =
      (stepR1 r2.r1 bar).lifeId.length := by
    rw [htracks.lastRelation, hobjs.ids, length_range']
  simp only [snapIntegrity, Bool.and_eq_true, decide_eq_true_eq]
  exact ⟨⟨⟨⟨⟨⟨⟨⟨⟨hlife, histories_refreshed _ _ _⟩, relations_refreshed _ _ _⟩, hlive⟩, hids⟩,
    objectAccountingPass_stepped O _ hobjs.aligned bar _ _⟩, haccounting⟩, halignment⟩,
    hcmpd⟩, hcmpdAlign⟩

variable {s s' : EngineState α}

/-- **A bar keeps the accounts**, and an enabled one passes the integrity of its snapshot. -/
theorem accounted_step (h : s.Accounted) (hstep : s.step O bar = .ok s') :
    s'.Accounted ∧ (bar.enabled = true → s'.snapIntegrityPass = true) := by
  obtain ⟨_, _, hstep⟩ := bind_ok.mp hstep
  have hreset := accounted_resetFor h bar
  have hobjs := accounted_stepR1 hreset.objects bar
  obtain ⟨hle, hdisabled⟩ := length_stepR1 (s.resetFor bar).r2.r1 bar
  have htracks : ((s.resetFor bar).r2.interactions.stepped (stepR1 (s.resetFor bar).r2.r1 bar)
      bar).Tracks (stepR1 (s.resetFor bar).r2.r1 bar).lifePrice.length :=
    tracks_stepped hreset.interactions hle hdisabled
  have htransitions := (accounted_stepR3 O hreset.transitions
    ({ (s.resetFor bar).r2 with r1 := stepR1 (s.resetFor bar).r2.r1 bar }.stepR2 O bar).envelope
    bar).1
  cases hstep
  exact ⟨⟨hobjs, htracks, htransitions⟩,
    fun henab => snapIntegrity_step O henab hobjs htracks hreset.transitions⟩

/-- **A run keeps the accounts.** -/
theorem accounted_run {bars : List (ReferenceBar α)} (h : s.Accounted)
    (hrun : s.run O bars = .ok s') : s'.Accounted := by
  induction bars generalizing s with
  | nil =>
    cases hrun
    exact h
  | cons bar rest ih =>
    obtain ⟨next, hstep, hrest⟩ := bind_ok.mp hrun
    exact ih (accounted_step O h hstep).1 hrest

/-- A bar that does not reset the engine moves its objects on. -/
theorem moves_step (hreset : (bar.enabled && bar.firstLabBar) = false)
    (hstep : s.step O bar = .ok s') :
    s.r2.r1.Moves s'.r2.r1 := by
  obtain ⟨_, _, hstep⟩ := bind_ok.mp hstep
  have hfresh : s.resetFor bar = s := by
    unfold EngineState.resetFor
    rw [hreset]
    rfl
  cases hstep
  show s.r2.r1.Moves (stepR1 (s.resetFor bar).r2.r1 bar)
  rw [hfresh]
  exact moves_stepR1 s.r2.r1 bar

/-- **The accounting never fails**: in every run, whatever its bars, the accounts hold, every enabled
bar passes the integrity of its snapshot, and every bar that does not reset the engine moves the
objects on. -/
theorem accounting_never_fails {bars : List (ReferenceBar α)} {s : EngineState α}
    (hrun : ({} : EngineState α).run O bars = .ok s) :
    s.Accounted ∧ ∀ bar s', s.step O bar = .ok s' →
      (bar.enabled = true → s'.snapIntegrityPass = true) ∧
        ((bar.enabled && bar.firstLabBar) = false → s.r2.r1.Moves s'.r2.r1) := by
  have haccounted := accounted_run O accounted_empty_engine hrun
  refine ⟨haccounted, ?_⟩
  intro bar s' hstep
  exact ⟨(accounted_step O haccounted hstep).2, fun hreset => moves_step O hreset hstep⟩

/-- The accounts of the run over the seven bars, and the integrity of every enabled bar after it. -/
theorem accounting_never_fails_peak :
    ∃ s, ({} : EngineState Int).run ticks peakBars = .ok s ∧ s.Accounted ∧
      ∀ bar s', s.step ticks bar = .ok s' → bar.enabled = true → s'.snapIntegrityPass = true := by
  obtain ⟨s, hrun, _, _⟩ := run_peakBars
  obtain ⟨haccounted, hsteps⟩ := accounting_never_fails ticks hrun
  exact ⟨s, hrun, haccounted, fun bar s' hstep => (hsteps bar s' hstep).1⟩

end OvcReplay.C2Csm
