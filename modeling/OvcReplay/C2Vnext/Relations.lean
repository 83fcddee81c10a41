import OvcReplay.Python.Fallible
import OvcReplay.Python.Text

/-! # Raw relations of C2 vNext

`relations_vnext.py`: how a point or a span lies to a level or a container. Values are equal when they
are equal at the source precision; how they are rounded is a parameter. The order of two finite
floats is the sign of their difference. -/

namespace OvcReplay.C2Vnext.Relations

open Python

/-- `RelationContractError`, with its marker. -/
inductive RelationError where
  | contract (marker : PyStr)
  deriving DecidableEq, Repr

/-- `_require`. -/
def require (condition : Prop) [Decidable condition] (marker : String) :
    Except RelationError Unit :=
  check condition (.contract (py marker))

/-- **How values are rounded** to a number of places: a larger value is not rounded to a smaller
one. -/
structure Rounding where
  round : Nat → Rat → Rat
  monotone : ∀ places, Monotone (round places)

variable (R : Rounding)

/-- `_equal_at_precision`. -/
def equalAtPrecision (left right : Rat) (precision : Int) : Except RelationError Bool := do
  require (0 ≤ precision) "PRECISION"
  return decide (R.round precision.toNat left = R.round precision.toNat right)

/-- Which objects a probe may be related to. -/
inductive Mode where
  | causalAsOf
  | retrospectiveAudit
  deriving DecidableEq, Repr

/-- A point probe: its value and the instant it is first valid. -/
structure PointProbe where
  value : Rat
  firstValidTime : Int

/-- The types of span probes. -/
inductive SpanType where
  | bodySpan
  | barSpan
  deriving DecidableEq, Repr

/-- A span probe. -/
structure SpanProbe where
  type : SpanType
  low : Rat
  high : Rat
  firstValidTime : Int

/-- A level. -/
structure Level where
  value : Rat
  firstValidTime : Int

/-- A container. -/
structure Container where
  lowerValue : Rat
  upperValue : Rat
  firstValidTime : Int

/-! ## Levels -/

/-- `POINT_LEVEL_TOPOLOGY`. -/
inductive PointLevel where
  | below
  | equal
  | above
  deriving DecidableEq, Repr

/-- `SPAN_LEVEL_TOPOLOGY`. -/
inductive SpanLevel where
  | entirelyBelow
  | touches
  | straddles
  | entirelyAbove
  deriving DecidableEq, Repr

variable (probe : PointProbe)

/-- The topology of `relate_point_to_level`. -/
def relatePointToLevel (level : Level) (precision : Int) (mode : Mode) :
    Except RelationError PointLevel := do
  require (mode = .causalAsOf → level.firstValidTime ≤ probe.firstValidTime)
    "LEVEL_NOT_FIRST_VALID_AS_OF"
  let signed := probe.value - level.value
  let equal ← equalAtPrecision R probe.value level.value precision
  return if equal = true then .equal else if signed < 0 then .below else .above

/-- The topology of `relate_span_to_level`. -/
def relateSpanToLevel (span : SpanProbe) (level : Level) (precision : Int) (mode : Mode) :
    Except RelationError SpanLevel := do
  require (mode = .causalAsOf → level.firstValidTime ≤ span.firstValidTime)
    "LEVEL_NOT_FIRST_VALID_AS_OF"
  let lowEqual ← equalAtPrecision R span.low level.value precision
  let highEqual ← equalAtPrecision R span.high level.value precision
  return if span.high < level.value ∧ highEqual = false then .entirelyBelow
    else if level.value < span.low ∧ lowEqual = false then .entirelyAbove
    else if lowEqual = true ∨ highEqual = true ∨ (span.low = span.high ∧ lowEqual = true) then
      .touches
    else .straddles

/-! ## Containers -/

/-- `POINT_CONTAINER_TOPOLOGY`. -/
inductive PointContainer where
  | below
  | onLowerBoundary
  | inside
  | onUpperBoundary
  | above
  deriving DecidableEq, Repr

/-- `SPAN_CONTAINER_TOPOLOGY`. -/
inductive SpanContainer where
  | entirelyBelow
  | touchesLower
  | crossesLower
  | inside
  | touchesUpper
  | crossesUpper
  | coversContainer
  | entirelyAbove
  deriving DecidableEq, Repr

variable (container : Container)

/-- The topology of `relate_point_to_container`. -/
def relatePointToContainer (precision : Int)
    (mode : Mode) : Except RelationError PointContainer := do
  require (mode = .causalAsOf → container.firstValidTime ≤ probe.firstValidTime)
    "CONTAINER_NOT_FIRST_VALID_AS_OF"
  require (container.lowerValue < container.upperValue) "CONTAINER_POSITIVE_WIDTH"
  if ← equalAtPrecision R probe.value container.lowerValue precision then
    return .onLowerBoundary
  else if ← equalAtPrecision R probe.value container.upperValue precision then
    return .onUpperBoundary
  else if probe.value < container.lowerValue then return .below
  else if container.upperValue < probe.value then return .above
  else return .inside

/-- `a or b` of two comparisons at precision. -/
def either (a b : Except RelationError Bool) : Except RelationError Bool := do
  if ← a then return true else b

/-- The topology of a span, from whether it touches the boundaries at precision. -/
def spanTopology (low high lower upper : Rat) (lowerTouch upperTouch : Bool) : SpanContainer :=
  if high < lower ∧ lowerTouch = false then .entirelyBelow
  else if upper < low ∧ upperTouch = false then .entirelyAbove
  else if low ≤ lower ∧ upper ≤ high then .coversContainer
  else if lower < low ∧ high < upper then .inside
  else if lowerTouch = true ∧ high ≤ lower then .touchesLower
  else if upperTouch = true ∧ upper ≤ low then .touchesUpper
  else if low < lower ∧ lower < high ∧ high < upper then .crossesLower
  else if lower < low ∧ low < upper ∧ upper < high then .crossesUpper
  else if lowerTouch = true then .touchesLower
  else if upperTouch = true then .touchesUpper
  else .inside

/-- The topology of `relate_span_to_container`. -/
def relateSpanToContainer (span : SpanProbe) (container : Container) (precision : Int)
    (mode : Mode) : Except RelationError SpanContainer := do
  require (mode = .causalAsOf → container.firstValidTime ≤ span.firstValidTime)
    "CONTAINER_NOT_FIRST_VALID_AS_OF"
  let lowerTouch ← either (equalAtPrecision R span.low container.lowerValue precision)
    (equalAtPrecision R span.high container.lowerValue precision)
  let upperTouch ← either (equalAtPrecision R span.low container.upperValue precision)
    (equalAtPrecision R span.high container.upperValue precision)
  return spanTopology span.low span.high container.lowerValue container.upperValue lowerTouch
    upperTouch

/-! ## Zero-width spans -/

/-- The span from a value to itself. -/
def PointProbe.span (type : SpanType) : SpanProbe :=
  ⟨type, probe.value, probe.value, probe.firstValidTime⟩

/-- The name of a cell of the level for spans. -/
def PointLevel.spanName : PointLevel → SpanLevel
  | .below => .entirelyBelow
  | .equal => .touches
  | .above => .entirelyAbove

/-- The name of a cell of the container for spans. -/
def PointContainer.spanName : PointContainer → SpanContainer
  | .below => .entirelyBelow
  | .onLowerBoundary => .touchesLower
  | .inside => .inside
  | .onUpperBoundary => .touchesUpper
  | .above => .entirelyAbove

/-- **A value that is rounded onto a boundary from outside**, or not rounded onto one. -/
def RoundsInward (value : Rat) (precision : Nat) : Prop :=
  (R.round precision value = R.round precision container.lowerValue →
    value ≤ container.lowerValue) ∧
  (R.round precision value = R.round precision container.upperValue →
    value ≤ container.lowerValue ∨ container.upperValue ≤ value)

/-- **The container treats points and zero-width spans alike**: it is not valid yet, or it has a
positive width and the value is not rounded onto a boundary from inside. -/
def TreatsAlike (probe : PointProbe) (precision : Int) (mode : Mode) : Prop :=
  ¬ (mode = .causalAsOf → container.firstValidTime ≤ probe.firstValidTime) ∨
    (container.lowerValue < container.upperValue ∧
      (0 ≤ precision → RoundsInward R container probe.value precision.toNat))

variable {R}

theorem equalAtPrecision_of_nonneg {precision : Int} (h : 0 ≤ precision) (left right : Rat) :
    equalAtPrecision R left right precision =
      .ok (decide (R.round precision.toNat left = R.round precision.toNat right)) := by
  unfold equalAtPrecision require check
  rw [if_pos h]
  rfl

theorem equalAtPrecision_of_neg {precision : Int} (h : ¬ 0 ≤ precision) (left right : Rat) :
    equalAtPrecision R left right precision = .error (.contract (py "PRECISION")) := by
  unfold equalAtPrecision require check
  rw [if_neg h]
  rfl

/-- **Points and zero-width spans lie alike to a level.** -/
theorem relateSpanToLevel_span (type : SpanType) (level : Level) (precision : Int) (mode : Mode) :
    relateSpanToLevel R (probe.span type) level precision mode =
      (relatePointToLevel R probe level precision mode).map PointLevel.spanName := by
  unfold relateSpanToLevel relatePointToLevel PointProbe.span
  dsimp only
  by_cases hvalid : mode = .causalAsOf → level.firstValidTime ≤ probe.firstValidTime
  · by_cases hprecision : 0 ≤ precision
    · rw [equalAtPrecision_of_nonneg hprecision]
      unfold require check
      rw [if_pos hvalid]
      by_cases hequal : R.round precision.toNat probe.value = R.round precision.toNat level.value
      · simp [hequal, Except.map, bind, Except.bind, pure, Except.pure, PointLevel.spanName]
      · have hne : probe.value ≠ level.value := fun h => hequal (by rw [h])
        rcases lt_or_gt_of_ne hne with hlt | hlt
        · simp [hequal, Except.map, bind, Except.bind, pure, Except.pure, PointLevel.spanName, hlt,
            sub_neg.mpr hlt]
        · simp [hequal, Except.map, bind, Except.bind, pure, Except.pure, PointLevel.spanName, hlt,
            sub_neg, not_lt.mpr hlt.le]
    · rw [equalAtPrecision_of_neg hprecision]
      unfold require check
      rw [if_pos hvalid]
      rfl
  · unfold require check
    rw [if_neg hvalid]
    rfl

/-- The cell of a point, from whether it touches the boundaries at precision. -/
def pointTopology (value lower upper : Rat) (onLower onUpper : Bool) : PointContainer :=
  if onLower = true then .onLowerBoundary
  else if onUpper = true then .onUpperBoundary
  else if value < lower then .below
  else if upper < value then .above
  else .inside

/-- **One cell for a point and its span**, when the boundaries at precision are those of a monotone
rounding. -/
theorem spanTopology_eq_iff {value lower upper : Rat} {onLower onUpper : Bool}
    (hwidth : lower < upper) (hlower : value = lower → onLower = true)
    (hupper : value = upper → onUpper = true)
    (habove : onLower = true → upper ≤ value → onUpper = true)
    (hbelow : onUpper = true → value ≤ lower → onLower = true) :
    spanTopology value value lower upper onLower onUpper =
        (pointTopology value lower upper onLower onUpper).spanName ↔
      (onLower = true → value ≤ lower) ∧ (onUpper = true → value ≤ lower ∨ upper ≤ value) := by
  unfold spanTopology pointTopology
  rcases lt_trichotomy value lower with hlt | heq | hgt
  · -- below the container
    have hltUpper : value < upper := hlt.trans hwidth
    cases onLower <;> cases onUpper <;>
      simp_all [PointContainer.spanName, not_lt.mpr hlt.le, not_lt.mpr hltUpper.le,
        not_le.mpr hltUpper, hlt.le]
  · subst heq
    cases onLower <;> cases onUpper <;>
      simp_all [PointContainer.spanName, not_lt.mpr hwidth.le, not_le.mpr hwidth]
  · rcases lt_trichotomy value upper with hlt | heq | hgt'
    · -- inside the container
      cases onLower <;> cases onUpper <;>
        simp_all [PointContainer.spanName, not_lt.mpr hgt.le, not_lt.mpr hlt.le, not_le.mpr hgt,
          not_le.mpr hlt]
    · subst heq
      cases onLower <;> cases onUpper <;>
        simp_all [PointContainer.spanName, not_lt.mpr hgt.le, not_le.mpr hgt]
    · -- above the container
      cases onLower <;> cases onUpper <;>
        simp_all [PointContainer.spanName, not_lt.mpr hgt.le, not_le.mpr hgt, not_lt.mpr hgt'.le,
          hgt'.le]

theorem either_self (a : Except RelationError Bool) : either a a = a := by
  cases a with
  | error e => rfl
  | ok b => cases b <;> rfl

section Containers

variable {probe : PointProbe} {container : Container} {precision : Int} {mode : Mode}
  (hvalid : mode = .causalAsOf → container.firstValidTime ≤ probe.firstValidTime)

/-- Whether a value is on a boundary at precision. -/
def onBoundary (R : Rounding) (precision : Int) (value boundary : Rat) : Bool :=
  decide (R.round precision.toNat value = R.round precision.toNat boundary)

include hvalid in
theorem relatePointToContainer_of_valid (hwidth : container.lowerValue < container.upperValue)
    (hprecision : 0 ≤ precision) :
    relatePointToContainer R probe container precision mode =
      .ok (pointTopology probe.value container.lowerValue container.upperValue
        (onBoundary R precision probe.value container.lowerValue)
        (onBoundary R precision probe.value container.upperValue)) := by
  unfold relatePointToContainer require check pointTopology onBoundary
  rw [if_pos hvalid, if_pos hwidth, equalAtPrecision_of_nonneg hprecision,
    equalAtPrecision_of_nonneg hprecision]
  by_cases hlower : R.round precision.toNat probe.value =
      R.round precision.toNat container.lowerValue
  · simp [hlower, bind, Except.bind, pure, Except.pure]
  · by_cases hupper : R.round precision.toNat probe.value =
        R.round precision.toNat container.upperValue
    · rw [decide_eq_false hlower, decide_eq_true hupper]
      rfl
    · simp only [hlower, hupper, decide_false, Bool.false_eq_true, if_false, bind, Except.bind,
        pure, Except.pure]
      split_ifs <;> rfl

include hvalid in
theorem relateSpanToContainer_of_valid (type : SpanType) (hprecision : 0 ≤ precision) :
    relateSpanToContainer R (probe.span type) container precision mode =
      .ok (spanTopology probe.value probe.value container.lowerValue container.upperValue
        (onBoundary R precision probe.value container.lowerValue)
        (onBoundary R precision probe.value container.upperValue)) := by
  unfold relateSpanToContainer require check PointProbe.span onBoundary
  dsimp only
  rw [if_pos hvalid, either_self, either_self, equalAtPrecision_of_nonneg hprecision,
    equalAtPrecision_of_nonneg hprecision]
  rfl

include hvalid in
/-- Where the boundaries can be read, the cells agree iff the value is rounded inward. -/
theorem agree_iff_of_valid (type : SpanType) (hprecision : 0 ≤ precision) :
    relateSpanToContainer R (probe.span type) container precision mode =
        (relatePointToContainer R probe container precision mode).map PointContainer.spanName ↔
      container.lowerValue < container.upperValue ∧
        RoundsInward R container probe.value precision.toNat := by
  rw [relateSpanToContainer_of_valid hvalid type hprecision]
  by_cases hwidth : container.lowerValue < container.upperValue
  · have hmono := R.monotone precision.toNat
    have hcells := @spanTopology_eq_iff probe.value container.lowerValue container.upperValue
      (onBoundary R precision probe.value container.lowerValue)
      (onBoundary R precision probe.value container.upperValue) hwidth
      (fun h => by rw [h]; exact decide_eq_true rfl) (fun h => by rw [h]; exact decide_eq_true rfl)
      (fun hlower hle => decide_eq_true (le_antisymm
        ((of_decide_eq_true hlower).le.trans (hmono hwidth.le)) (hmono hle)))
      (fun hupper hle => decide_eq_true (le_antisymm (hmono hle)
        ((hmono hwidth.le).trans (of_decide_eq_true hupper).ge)))
    rw [relatePointToContainer_of_valid hvalid hwidth hprecision]
    show Except.ok _ = Except.ok _ ↔ _
    rw [Except.ok.injEq, hcells]
    simp only [hwidth, true_and, RoundsInward, onBoundary, decide_eq_true_eq]
  · have herror : relatePointToContainer R probe container precision mode =
        .error (.contract (py "CONTAINER_POSITIVE_WIDTH")) := by
      unfold relatePointToContainer require check
      rw [if_pos hvalid, if_neg hwidth]
      rfl
    rw [herror]
    exact iff_of_false nofun fun h => hwidth h.1

end Containers

/-- **Points and zero-width spans lie alike** to every level, and to a container iff it treats them
alike. -/
theorem zeroWidth_agree_iff (R : Rounding) (probe : PointProbe) (type : SpanType) (precision : Int)
    (mode : Mode) :
    (∀ level, relateSpanToLevel R (probe.span type) level precision mode =
      (relatePointToLevel R probe level precision mode).map PointLevel.spanName) ∧
    ∀ container, relateSpanToContainer R (probe.span type) container precision mode =
        (relatePointToContainer R probe container precision mode).map PointContainer.spanName ↔
      TreatsAlike R container probe precision mode := by
  refine ⟨fun level => relateSpanToLevel_span probe type level precision mode, fun container => ?_⟩
  unfold TreatsAlike
  by_cases hvalid : mode = .causalAsOf → container.firstValidTime ≤ probe.firstValidTime
  · rw [or_iff_right (not_not_intro hvalid)]
    by_cases hprecision : 0 ≤ precision
    · rw [agree_iff_of_valid hvalid type hprecision]
      simp only [hprecision, forall_const]
    · -- the precision is refused, unless the width was refused before
      unfold relateSpanToContainer relatePointToContainer PointProbe.span require check
      rw [either_self, either_self, equalAtPrecision_of_neg hprecision,
        equalAtPrecision_of_neg hprecision, if_pos hvalid]
      by_cases hwidth : container.lowerValue < container.upperValue
      · rw [if_pos hwidth]
        exact iff_of_true rfl ⟨hwidth, fun h => absurd h hprecision⟩
      · rw [if_neg hwidth]
        refine iff_of_false (fun h => ?_) fun h => hwidth h.1
        exact absurd (Except.error.inj h) (by decide)
  · unfold relateSpanToContainer relatePointToContainer PointProbe.span require check
    rw [if_neg hvalid]
    exact iff_of_true rfl (.inl hvalid)

/-! ## A value that is rounded onto a boundary -/

/-- Rounding halves up. -/
def Rounding.halfUp : Rounding where
  round places x := (⌊x * 10 ^ places + 1 / 2⌋ : Rat) / 10 ^ places
  monotone places x y h := by
    have hscaled : x * 10 ^ places + 1 / 2 ≤ y * 10 ^ places + 1 / 2 := by gcongr
    have hfloor : (⌊x * 10 ^ places + 1 / 2⌋ : Rat) ≤ ⌊y * 10 ^ places + 1 / 2⌋ :=
      Int.cast_le.mpr (Int.floor_le_floor hscaled)
    dsimp only
    gcongr

/-- **A point on the boundary whose span is inside**: with no places, `0.4` is rounded to `0`. -/
theorem zeroWidth_disagree :
    ¬ ∀ (R : Rounding) (probe : PointProbe) (type : SpanType) (container : Container)
      (precision : Int) (mode : Mode), relateSpanToContainer R (probe.span type) container precision
        mode = (relatePointToContainer R probe container precision mode).map
          PointContainer.spanName := by
  intro h
  have hboundary := h .halfUp ⟨2 / 5, 0⟩ .barSpan ⟨0, 1, 0⟩ 0 .causalAsOf
  revert hboundary
  decide +kernel

end OvcReplay.C2Vnext.Relations
