import OvcReplay.Python.Text
import OvcReplay.Python.Fallible

/-! # Formation and lifecycle of the CSM reference engine

`c2_csm_reference/models.py` and the first layer of `engine.py`: a bar whose high (low) is beyond the
six around it forms an object, a close beyond an object makes it dormant, and a new object of its
kind at a more extreme price retires it. Prices are the finite floats, of which this layer only takes
the order; what is not finite is refused with the bar. -/

namespace OvcReplay.C2Csm

open Python

/-! ## Bars -/

/-- `ReferenceBar`. -/
structure ReferenceBar (α : Type) where
  enabled : Bool
  logicEnabled : Bool
  inLabWindow : Bool
  firstLabBar : Bool
  chartGap : Bool
  segmentObs : Int
  barIndex : Int
  sourceHigh : Option α
  sourceLow : Option α
  sourceClose : Option α
  sequence : Int
  cutoffMs : Option Int
  mintick : Option α
  windowComplete : Bool
  checkpointEvery : Int
  recordRelationOnly : Bool
  recordInteractionOnly : Bool

/-- What the engine computes with floats, beside their order. -/
structure PriceOps (α : Type) where
  /-- `x - y`. -/
  sub : α → α → α
  /-- `(x + y) / 2.0`. -/
  mid : α → α → α
  /-- `0 < x`. -/
  positive : α → Bool
  /-- `_price_signature` of a price. -/
  signature : α → Option α → PyStr

/-- `ReferenceEngineError`, with its message. -/
structure ReferenceEngineError where
  message : PyStr
  deriving DecidableEq

/-- `_validate_bar`; the prices that are represented are finite. -/
def validateBar {α : Type} (O : PriceOps α) (bar : ReferenceBar α) :
    Except ReferenceEngineError Unit := do
  check (0 ≤ bar.segmentObs) ⟨py "segment_obs must be non-negative"⟩
  check (0 ≤ bar.checkpointEvery) ⟨py "checkpoint_every must be non-negative"⟩
  check (∀ tick ∈ bar.mintick, O.positive tick = true) ⟨py "mintick must be positive and finite"⟩
  check (bar.logicEnabled = true → bar.sourceHigh.isSome = true ∧ bar.sourceLow.isSome = true ∧
    bar.sourceClose.isSome = true) ⟨py "logic_enabled requires finite HIGH/LOW/CLOSE"⟩

/-! ## State -/

/-- `life_kind`: `1` or `-1`. -/
inductive Kind where
  | high
  | low
  deriving DecidableEq, Repr

/-- `LIFE_ACTIVE`, `LIFE_DORMANT` and `LIFE_RETIRED`. -/
inductive Life where
  | active
  | dormant
  | retired
  deriving DecidableEq, Repr

/-- `R1State`. -/
structure R1State (α : Type) where
  lifeNextId : Nat := 0
  lifeId : List Nat := []
  lifePrice : List α := []
  lifeKind : List Kind := []
  lifeState : List Life := []
  lifeFirstValidBar : List Int := []
  lifeDormantBar : List (Option Int) := []
  lifeRetiredBar : List (Option Int) := []
  lifeRetiredById : List (Option Nat) := []
  lifeFormedCount : Nat := 0
  lifeDormancyCount : Nat := 0
  lifeRetiredCount : Nat := 0
  lifeActiveNow : Nat := 0
  lifeDormantNow : Nat := 0
  lifeRetiredNow : Nat := 0
  lifeMaxActiveCount : Nat := 0
  lifeMaxVisibleCount : Nat := 0
  sourceHighHistory : List (Option α) := []
  sourceLowHistory : List (Option α) := []

/-- `FormationLifecycleStep`. -/
structure FormationLifecycleStep (α : Type) where
  p3Ready : Bool
  highEvent : Bool
  lowEvent : Bool
  highCandidate : Option α
  lowCandidate : Option α
  formedThisBar : Nat
  dormantThisBar : Nat
  retiredThisBar : Nat
  highNewId : Nat
  lowNewId : Nat

section

variable {α : Type} [LinearOrder α]

/-- `x` is beyond `y` in the direction of the kind. -/
def Kind.Beyond (kind : Kind) (x y : α) : Prop :=
  match kind with
  | .high => y < x
  | .low => x < y

instance (kind : Kind) (x y : α) : Decidable (kind.Beyond x y) := by
  unfold Kind.Beyond
  cases kind <;> infer_instance

/-- `del history[:-7]` after `history.append(value)`. -/
def pushHistory {β : Type} (history : List β) (value : β) : List β :=
  (history ++ [value]).drop ((history ++ [value]).length - 7)

/-- The candidate is beyond all other values of the history, all of which are present. -/
def isExtreme (kind : Kind) (history : List (Option α)) (candidate : α) : Bool :=
  (history.eraseIdx 3).all fun value =>
    match value with
    | some v => decide (kind.Beyond candidate v)
    | none => false

/-- `p3_ready`, for the histories with the bar. -/
def p3Ready (bar : ReferenceBar α) (highs lows : List (Option α)) : Bool :=
  bar.logicEnabled && bar.inLabWindow && decide (7 ≤ bar.segmentObs) &&
    decide (highs.length = 7) && decide (lows.length = 7)

/-- The candidate `history[-4]` of a full history. -/
def candidate (ready : Bool) (history : List (Option α)) : Option α :=
  if ready then history[3]?.join else none

/-- `high_event` and `low_event`. -/
def isEvent (kind : Kind) (history : List (Option α)) (candidate : Option α) : Bool :=
  match candidate with
  | some c => isExtreme kind history c
  | none => false

/-! ## Objects -/

variable (r1 : R1State α)

/-- The object becomes dormant on the bar. -/
def R1State.becomesDormant (barIndex : Int) (close : α) (index : Nat) : Bool :=
  match r1.lifeState[index]?, r1.lifeFirstValidBar[index]?, r1.lifeKind[index]?,
      r1.lifePrice[index]? with
  | some .active, some first, some kind, some level =>
    decide (first < barIndex ∧ kind.Beyond close level)
  | _, _, _, _ => false

/-- The loop over the objects that a close goes beyond. -/
def R1State.withDormant (barIndex : Int) (close : α) : R1State α :=
  { r1 with
    lifeState := r1.lifeState.mapIdx fun index state =>
      if r1.becomesDormant barIndex close index then .dormant else state
    lifeDormantBar := r1.lifeDormantBar.mapIdx fun index bar =>
      if r1.becomesDormant barIndex close index then some barIndex else bar
    lifeDormancyCount := r1.lifeDormancyCount +
      (List.range r1.lifePrice.length).countP (r1.becomesDormant barIndex close) }

variable (kind : Kind)

variable (price : α)

/-- The object is retired by a new one of a kind. -/
def R1State.isRetiredBy (index : Nat) : Bool :=
  match r1.lifeState[index]?, r1.lifeKind[index]?, r1.lifePrice[index]? with
  | some .dormant, some old, some oldPrice => decide (old = kind ∧ kind.Beyond price oldPrice)
  | _, _, _ => false

/-- `_append_life_object`. -/
def R1State.append (barIndex : Int) : R1State α :=
  { r1 with
    lifeId := r1.lifeId ++ [r1.lifeNextId]
    lifePrice := r1.lifePrice ++ [price]
    lifeKind := r1.lifeKind ++ [kind]
    lifeState := r1.lifeState ++ [.active]
    lifeFirstValidBar := r1.lifeFirstValidBar ++ [barIndex]
    lifeDormantBar := r1.lifeDormantBar ++ [none]
    lifeRetiredBar := r1.lifeRetiredBar ++ [none]
    lifeRetiredById := r1.lifeRetiredById ++ [none] }

/-- The objects that a new one retires. -/
def R1State.withRetired (barIndex : Int) : R1State α :=
  { r1 with
    lifeState := r1.lifeState.mapIdx fun index state =>
      if r1.isRetiredBy kind price index then .retired else state
    lifeRetiredBar := r1.lifeRetiredBar.mapIdx fun index bar =>
      if r1.isRetiredBy kind price index then some barIndex else bar
    lifeRetiredById := r1.lifeRetiredById.mapIdx fun index id =>
      if r1.isRetiredBy kind price index then some r1.lifeNextId else id
    lifeRetiredCount := r1.lifeRetiredCount +
      (List.range r1.lifePrice.length).countP (r1.isRetiredBy kind price) }

/-- What an event of a kind does: an id is taken, objects are retired, the new one is appended. -/
def R1State.form (barIndex : Int) : R1State α :=
  let named := { r1 with lifeNextId := r1.lifeNextId + 1 }
  let formed := (named.withRetired kind price barIndex).append kind price barIndex
  { formed with lifeFormedCount := formed.lifeFormedCount + 1 }

/-- An event of a kind, if there is one on an enabled bar. -/
def R1State.formed (event : Bool) (candidate : Option α) (barIndex : Int) : R1State α :=
  match candidate with
  | some price => if event then r1.form kind price barIndex else r1
  | none => r1

/-- The objects in a state. -/
def R1State.countOf (state : Life) : Nat := r1.lifeState.countP (· = state)

/-- The counts at the end of the layer. -/
def R1State.counted (enabled : Bool) : R1State α :=
  let active := if enabled then r1.countOf .active else 0
  let dormant := if enabled then r1.countOf .dormant else 0
  { r1 with
    lifeActiveNow := active
    lifeDormantNow := dormant
    lifeRetiredNow := if enabled then r1.countOf .retired else 0
    lifeMaxActiveCount := max r1.lifeMaxActiveCount active
    lifeMaxVisibleCount := max r1.lifeMaxVisibleCount (active + dormant) }

variable (bar : ReferenceBar α)

/-- The histories with the bar. -/
def R1State.pushed : R1State α :=
  { r1 with
    sourceHighHistory := pushHistory r1.sourceHighHistory bar.sourceHigh
    sourceLowHistory := pushHistory r1.sourceLowHistory bar.sourceLow }

/-- The dormancy of a bar. -/
def R1State.rested : R1State α :=
  match bar.sourceClose with
  | some close =>
    if bar.enabled && bar.logicEnabled && bar.inLabWindow && !bar.chartGap then
      r1.withDormant bar.barIndex close
    else r1
  | none => r1

/-- `_step_r1`: the state. -/
def stepR1 : R1State α :=
  let pushed := r1.pushed bar
  let ready := p3Ready bar pushed.sourceHighHistory pushed.sourceLowHistory
  let high := candidate ready pushed.sourceHighHistory
  let low := candidate ready pushed.sourceLowHistory
  let highEvent := bar.enabled && isEvent .high pushed.sourceHighHistory high
  let lowEvent := bar.enabled && isEvent .low pushed.sourceLowHistory low
  (((pushed.rested bar).formed .high highEvent high bar.barIndex).formed .low lowEvent low
    bar.barIndex).counted bar.enabled

/-- `_step_r1`: the result, for the states before and after. -/
def formationStep (before after : R1State α) (bar : ReferenceBar α) :
    FormationLifecycleStep α :=
  let ready := p3Ready bar after.sourceHighHistory after.sourceLowHistory
  let high := candidate ready after.sourceHighHistory
  let low := candidate ready after.sourceLowHistory
  let highEvent := isEvent .high after.sourceHighHistory high
  let lowEvent := isEvent .low after.sourceLowHistory low
  { p3Ready := ready, highEvent, lowEvent, highCandidate := high, lowCandidate := low
    formedThisBar := after.lifeFormedCount - before.lifeFormedCount
    dormantThisBar := after.lifeDormancyCount - before.lifeDormancyCount
    retiredThisBar := after.lifeRetiredCount - before.lifeRetiredCount
    highNewId := if bar.enabled && highEvent then before.lifeNextId + 1 else 0
    lowNewId := if bar.enabled && lowEvent then after.lifeNextId else 0 }

end

end OvcReplay.C2Csm
