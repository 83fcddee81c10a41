import OvcReplay.C2Csm.Envelope

/-! # Transitions of the CSM reference engine

The third layer of `engine.py`: each change of the envelope's signature is an atomic transition of a
class, and the transitions since an anchor are a compound that is resolved once both boundaries moved.
The ledgers that the source keeps beside each other are one list of entries each. Of the fourth layer
only the integrity of a bar is here. -/

namespace OvcReplay.C2Csm

open Python

/-! ## State -/

/-- `ETR_NONE` to `ETR_OTHER`. -/
inductive AtomicClass where
  | none
  | baseline
  | upperExpansion
  | lowerExpansion
  | upperContraction
  | lowerContraction
  | bothExpansion
  | bothContraction
  | upShift
  | downShift
  | identityChangeSameGeometry
  | evaluabilityGained
  | evaluabilityLost
  | other
  deriving DecidableEq, Repr

/-- `ETRC_NONE` to `ETRC_RETURN_OR_MIXED`. -/
inductive CompoundClass where
  | none
  | seqUpShift
  | seqDownShift
  | expansion
  | contraction
  | returnOrMixed
  deriving DecidableEq, Repr

/-- `ETRC_OPEN_NO_ANCHOR` to `ETRC_OPEN_WAIT_UPPER`. -/
inductive OpenState where
  | noAnchor
  | waitFirstMove
  | waitLower
  | waitUpper
  deriving DecidableEq, Repr

/-- The counters of the atomic classes. -/
structure AtomicCounts where
  upperExpansion : Nat := 0
  lowerExpansion : Nat := 0
  upperContraction : Nat := 0
  lowerContraction : Nat := 0
  bothExpansion : Nat := 0
  bothContraction : Nat := 0
  upShift : Nat := 0
  downShift : Nat := 0
  identitySameGeometry : Nat := 0
  evaluabilityGained : Nat := 0
  evaluabilityLost : Nat := 0
  other : Nat := 0

/-- The counters of the compound classes. -/
structure CompoundCounts where
  seqUpShift : Nat := 0
  seqDownShift : Nat := 0
  expansion : Nat := 0
  contraction : Nat := 0
  returnMixed : Nat := 0

/-- An entry of the atomic ledgers. -/
structure AtomicEntry (α : Type) where
  generation : Nat
  bar : Int
  cls : AtomicClass
  oldUpper : Option α
  oldLower : Option α
  newUpper : Option α
  newLower : Option α
  widthDelta : Option α
  midDelta : Option α

/-- An entry of the compound ledgers. -/
structure CompoundEntry (α : Type) where
  anchorGeneration : Nat
  resolutionGeneration : Nat
  resolutionBar : Int
  cls : CompoundClass
  anchorUpper : α
  anchorLower : α
  finalUpper : α
  finalLower : α
  widthDelta : α
  midDelta : α
  upperLegCount : Nat
  lowerLegCount : Nat

/-- The fields `etr_compound_…` of the anchor and of what moved since. -/
structure Anchor (α : Type) where
  initialised : Bool := false
  generation : Nat := 0
  bar : Option Int := none
  upper : Option α := none
  lower : Option α := none
  upperMoved : Bool := false
  lowerMoved : Bool := false
  upperLegCount : Nat := 0
  lowerLegCount : Nat := 0

/-- The other fields `etr_compound_…`, and the latest resolution. -/
structure Compound (α : Type) where
  anchor : Anchor α := {}
  resolutionCount : Nat := 0
  counts : CompoundCounts := {}
  resetOnEvaluabilityLossCount : Nat := 0
  latestClass : CompoundClass := .none
  latestAnchorGeneration : Nat := 0
  latestResolutionGeneration : Nat := 0
  latestWidthDelta : Option α := none
  latestMidDelta : Option α := none
  latestUpperLegs : Nat := 0
  latestLowerLegs : Nat := 0
  ledger : List (CompoundEntry α) := []
  openState : OpenState := .noAnchor

/-- `R3State`, without the layer below. -/
structure R3State (α : Type) where
  prevInitialised : Bool := false
  /-- `etr_prev_status` is `ENV_UNIQUE`; otherwise it is `ENV_NOT_EVALUABLE`. -/
  prevUnique : Bool := false
  prevUpper : Option α := none
  prevLower : Option α := none
  prevUpperTieCount : Nat := 0
  prevLowerTieCount : Nat := 0
  prevUpperId : Option Nat := none
  prevLowerId : Option Nat := none
  prevLifecycle : EnvelopeLife := .active
  ledger : List (AtomicEntry α) := []
  transitionCount : Nat := 0
  counts : AtomicCounts := {}
  dormantBoundaryEnteredCount : Nat := 0
  dormantBoundaryClearedCount : Nat := 0
  latestClass : AtomicClass := .none
  latestGeneration : Nat := 0
  latestWidthDelta : Option α := none
  latestMidDelta : Option α := none
  compound : Compound α := {}
  accountingPass : Bool := true
  ledgerAlignmentPass : Bool := true
  compoundAccountingPass : Bool := true
  compoundLedgerAlignmentPass : Bool := true

/-! ## Classes -/

/-- `_increment_atomic_class`. -/
def AtomicCounts.increment (c : AtomicCounts) (cls : AtomicClass) : AtomicCounts :=
  match cls with
  | .upperExpansion => { c with upperExpansion := c.upperExpansion + 1 }
  | .lowerExpansion => { c with lowerExpansion := c.lowerExpansion + 1 }
  | .upperContraction => { c with upperContraction := c.upperContraction + 1 }
  | .lowerContraction => { c with lowerContraction := c.lowerContraction + 1 }
  | .bothExpansion => { c with bothExpansion := c.bothExpansion + 1 }
  | .bothContraction => { c with bothContraction := c.bothContraction + 1 }
  | .upShift => { c with upShift := c.upShift + 1 }
  | .downShift => { c with downShift := c.downShift + 1 }
  | .identityChangeSameGeometry => { c with identitySameGeometry := c.identitySameGeometry + 1 }
  | .evaluabilityGained => { c with evaluabilityGained := c.evaluabilityGained + 1 }
  | .evaluabilityLost => { c with evaluabilityLost := c.evaluabilityLost + 1 }
  | _ => { c with other := c.other + 1 }

/-- `atomic_accounted`. -/
def AtomicCounts.total (c : AtomicCounts) : Nat :=
  c.upperExpansion + c.lowerExpansion + c.upperContraction + c.lowerContraction +
    c.bothExpansion + c.bothContraction + c.upShift + c.downShift + c.identitySameGeometry +
    c.evaluabilityGained + c.evaluabilityLost + c.other

/-- The counter of a resolution. -/
def CompoundCounts.increment (c : CompoundCounts) (cls : CompoundClass) : CompoundCounts :=
  match cls with
  | .seqUpShift => { c with seqUpShift := c.seqUpShift + 1 }
  | .seqDownShift => { c with seqDownShift := c.seqDownShift + 1 }
  | .expansion => { c with expansion := c.expansion + 1 }
  | .contraction => { c with contraction := c.contraction + 1 }
  | _ => { c with returnMixed := c.returnMixed + 1 }

/-- `compound_accounted`. -/
def CompoundCounts.total (c : CompoundCounts) : Nat :=
  c.seqUpShift + c.seqDownShift + c.expansion + c.contraction + c.returnMixed

/-- `_set_compound_anchor`. -/
def Anchor.set {α : Type} (upper lower : Option α) (generation : Nat) (barIndex : Int) : Anchor α :=
  { initialised := true, generation, bar := some barIndex, upper, lower }

section

variable {α : Type} [LinearOrder α]

/-- `_classify_atomic`, when both are evaluable. -/
def classifyMove (oldUpper oldLower newUpper newLower : α) : AtomicClass :=
  if newUpper = oldUpper ∧ newLower = oldLower then .identityChangeSameGeometry
  else if oldUpper < newUpper ∧ newLower = oldLower then .upperExpansion
  else if newUpper = oldUpper ∧ newLower < oldLower then .lowerExpansion
  else if newUpper < oldUpper ∧ newLower = oldLower then .upperContraction
  else if newUpper = oldUpper ∧ oldLower < newLower then .lowerContraction
  else if oldUpper < newUpper ∧ newLower < oldLower then .bothExpansion
  else if newUpper < oldUpper ∧ oldLower < newLower then .bothContraction
  else if oldUpper < newUpper ∧ oldLower < newLower then .upShift
  else if newUpper < oldUpper ∧ newLower < oldLower then .downShift
  else .other

/-- The geometry, both prices of it. -/
def geometry (upper lower : Option α) : Option (α × α) :=
  match upper, lower with
  | some u, some l => some (u, l)
  | _, _ => none

/-- `_classify_atomic`. -/
def classifyAtomic (old new : Option (α × α)) : AtomicClass :=
  match old, new with
  | none, some _ => .evaluabilityGained
  | some _, none => .evaluabilityLost
  | none, none => .other
  | some old, some new => classifyMove old.1 old.2 new.1 new.2

/-- The class of a resolution. -/
def classifyCompound (anchorUpper anchorLower upper lower : α) : CompoundClass :=
  if anchorUpper < upper ∧ anchorLower < lower then .seqUpShift
  else if upper < anchorUpper ∧ lower < anchorLower then .seqDownShift
  else if anchorUpper < upper ∧ lower < anchorLower then .expansion
  else if upper < anchorUpper ∧ anchorLower < lower then .contraction
  else .returnOrMixed

/-! ## Compounds -/

variable (O : PriceOps α)

/-- The width of a geometry. -/
def PriceOps.width (g : α × α) : α := O.sub g.1 g.2

/-- The middle of a geometry. -/
def PriceOps.middle (g : α × α) : α := O.mid g.1 g.2

/-- The anchor once the boundaries moved. -/
def Anchor.moved (a : Anchor α) (old new : α × α) : Anchor α :=
  { a with
    upperMoved := a.upperMoved || decide (new.1 ≠ old.1)
    upperLegCount := a.upperLegCount + if new.1 ≠ old.1 then 1 else 0
    lowerMoved := a.lowerMoved || decide (new.2 ≠ old.2)
    lowerLegCount := a.lowerLegCount + if new.2 ≠ old.2 then 1 else 0 }

/-- A resolution from an anchor at a geometry to a final one. -/
def Compound.resolved (c : Compound α) (from_ final : α × α) (generation : Nat) (barIndex : Int) :
    Compound α :=
  let cls := classifyCompound from_.1 from_.2 final.1 final.2
  let widthDelta := O.sub (O.width final) (O.width from_)
  let midDelta := O.sub (O.middle final) (O.middle from_)
  { c with
    ledger := c.ledger ++
      [{ anchorGeneration := c.anchor.generation, resolutionGeneration := generation
         resolutionBar := barIndex, cls
         anchorUpper := from_.1, anchorLower := from_.2
         finalUpper := final.1, finalLower := final.2
         widthDelta, midDelta
         upperLegCount := c.anchor.upperLegCount, lowerLegCount := c.anchor.lowerLegCount }]
    resolutionCount := c.resolutionCount + 1
    counts := c.counts.increment cls
    latestClass := cls
    latestAnchorGeneration := c.anchor.generation
    latestResolutionGeneration := generation
    latestWidthDelta := some widthDelta
    latestMidDelta := some midDelta
    latestUpperLegs := c.anchor.upperLegCount
    latestLowerLegs := c.anchor.lowerLegCount
    anchor := Anchor.set (some final.1) (some final.2) generation barIndex }

/-- `_advance_compound`. -/
def Compound.advanced (c : Compound α) (old new : Option (α × α)) (generation : Nat)
    (barIndex : Int) : Compound α :=
  match old, new with
  | some _, none =>
    { c with
      resetOnEvaluabilityLossCount := c.resetOnEvaluabilityLossCount +
        if c.anchor.initialised && (c.anchor.upperMoved || c.anchor.lowerMoved) then 1 else 0
      anchor := {} }
  | none, some new =>
    { c with anchor := Anchor.set (some new.1) (some new.2) generation barIndex }
  | none, none => c
  | some old, some new =>
    if !c.anchor.initialised then
      { c with anchor := Anchor.set (some new.1) (some new.2) generation barIndex }
    else
      let moved := { c with anchor := c.anchor.moved old new }
      if moved.anchor.upperMoved && moved.anchor.lowerMoved then
        match geometry moved.anchor.upper moved.anchor.lower with
        | some anchored => moved.resolved O anchored new generation barIndex
        | none => moved
      else moved

/-! ## Transitions -/

/-- The geometry of the envelope, when it is evaluable. -/
def Envelope.evaluable (e : Envelope α) : Option (α × α) :=
  if e.statusUnique && e.geometryValid then geometry e.upperPrice e.lowerPrice else none

variable (r3 : R3State α)

/-- The geometry of the previous envelope, when it was evaluable. -/
def R3State.prevEvaluable : Option (α × α) :=
  if r3.prevUnique then geometry r3.prevUpper r3.prevLower else none

variable (e : Envelope α)

variable (bar : ReferenceBar α)

/-- The counters of dormant boundaries. -/
def R3State.lifecycleCounted : R3State α :=
  if bar.enabled && r3.prevInitialised then
    { r3 with
      dormantBoundaryEnteredCount := r3.dormantBoundaryEnteredCount +
        if r3.prevLifecycle = .active ∧ e.lifecycle = .dormantBoundary then 1 else 0
      dormantBoundaryClearedCount := r3.dormantBoundaryClearedCount +
        if r3.prevLifecycle = .dormantBoundary ∧ e.lifecycle = .active then 1 else 0 }
  else r3

/-- The envelope is the previous one from now on. -/
def R3State.remembered : R3State α :=
  { r3 with
    prevInitialised := true
    prevUnique := e.statusUnique
    prevUpper := e.evaluable.map Prod.fst
    prevLower := e.evaluable.map Prod.snd
    prevUpperTieCount := if e.upperRoleValid then 1 else 0
    prevLowerTieCount := if e.lowerRoleValid then 1 else 0
    prevUpperId := e.upperUniqueId
    prevLowerId := e.lowerUniqueId
    prevLifecycle := e.lifecycle }

/-- The first envelope. -/
def R3State.baselined : R3State α :=
  let anchored :=
    match e.evaluable with
    | some g => { r3.compound with
        anchor := Anchor.set (some g.1) (some g.2) e.generation bar.barIndex }
    | none => r3.compound
  { r3.remembered e with
    latestClass := .baseline, latestGeneration := e.generation, compound := anchored }

/-- The change of a measure of the geometry, when both are evaluable. -/
def deltaOf (sub : α → α → α) (measure : α × α → α) (old new : Option (α × α)) : Option α :=
  match old, new with
  | some old, some new => some (sub (measure new) (measure old))
  | _, _ => none

/-- A change of the envelope. -/
def R3State.transitioned : R3State α :=
  let old := r3.prevEvaluable
  let new := e.evaluable
  let cls := classifyAtomic old new
  let widthDelta := deltaOf O.sub O.width old new
  let midDelta := deltaOf O.sub O.middle old new
  { r3.remembered e with
    ledger := r3.ledger ++
      [{ generation := e.generation, bar := bar.barIndex, cls
         oldUpper := r3.prevUpper, oldLower := r3.prevLower
         newUpper := new.map Prod.fst, newLower := new.map Prod.snd
         widthDelta, midDelta }]
    transitionCount := r3.transitionCount + 1
    counts := r3.counts.increment cls
    latestClass := cls
    latestGeneration := e.generation
    latestWidthDelta := widthDelta
    latestMidDelta := midDelta
    compound := r3.compound.advanced O old new e.generation bar.barIndex }

/-- `etr_compound_open_state`. -/
def Anchor.openState (a : Anchor α) : OpenState :=
  if !a.initialised then .noAnchor
  else
    match a.upperMoved, a.lowerMoved with
    | false, false => .waitFirstMove
    | true, false => .waitLower
    | false, true => .waitUpper
    | true, true => .waitFirstMove

/-- The open state and the reconciliations at the end of the layer. -/
def R3State.reconciled : R3State α :=
  { r3 with
    prevLifecycle := if bar.enabled && r3.prevInitialised then e.lifecycle else r3.prevLifecycle
    compound := { r3.compound with openState := r3.compound.anchor.openState }
    accountingPass := decide (r3.counts.total = r3.transitionCount)
    ledgerAlignmentPass := decide (r3.ledger.length = r3.transitionCount)
    compoundAccountingPass := decide (r3.compound.counts.total = r3.compound.resolutionCount)
    compoundLedgerAlignmentPass :=
      decide (r3.compound.ledger.length = r3.compound.resolutionCount) }

/-- What a bar with a changed signature does. -/
def R3State.changed : R3State α :=
  if bar.enabled && e.signatureChanged then
    if r3.prevInitialised then r3.transitioned O e bar else r3.baselined e bar
  else r3

/-- `_step_r3`. -/
def R3State.stepR3 : R3State α :=
  (((r3.lifecycleCounted e bar).changed O e bar).reconciled e bar)

/-! ## The engine -/

/-- The state of the engine, without the snapshots and the succession log of `R4State`. -/
structure EngineState (α : Type) where
  r2 : R2State α := {}
  r3 : R3State α := {}
  snapIntegrityPass : Bool := true

/-- `snap_integrity_pass`. -/
def snapIntegrity (r2 : R2State α) (r3 : R3State α) : Bool :=
  let i := r2.interactions
  let r1 := r2.r1
  decide (r1.lifeActiveNow + r1.lifeDormantNow + r1.lifeRetiredNow = r1.lifeFormedCount) &&
  decide (i.historyNone + i.historyContactOnly + i.historyRelationOnly + i.historyBoth =
    i.liveObjects) &&
  decide (i.currentAbove + i.currentBelow + i.currentEqual + i.currentUnknown = i.liveObjects) &&
  decide (i.liveObjects = r1.lifeActiveNow + r1.lifeDormantNow) &&
  decide (i.lastRelation.length = r1.lifeId.length) &&
  r2.envelope.objectAccountingPass &&
  r3.accountingPass && r3.ledgerAlignmentPass &&
  r3.compoundAccountingPass && r3.compoundLedgerAlignmentPass

variable (s : EngineState α)

/-- The first bar of a window resets the engine. -/
def EngineState.resetFor (bar : ReferenceBar α) : EngineState α :=
  if bar.enabled && bar.firstLabBar then {} else s

/-- `step`. -/
def EngineState.step (bar : ReferenceBar α) :
    Except ReferenceEngineError (EngineState α) := do
  validateBar O bar
  let fresh := s.resetFor bar
  let r2 := { fresh.r2 with r1 := stepR1 fresh.r2.r1 bar }.stepR2 O bar
  let r3 := fresh.r3.stepR3 O r2.envelope bar
  pure { r2, r3, snapIntegrityPass := snapIntegrity r2 r3 }

/-- The bars of a run, in order. -/
def EngineState.run (bars : List (ReferenceBar α)) : Except ReferenceEngineError (EngineState α) :=
  bars.foldlM (EngineState.step O) s

end

end OvcReplay.C2Csm
