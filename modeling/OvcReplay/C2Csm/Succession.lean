import OvcReplay.C2Csm.Transitions

/-! # The succession log of the CSM reference engine

The fourth layer of `engine.py`: the snapshot of a bar, and the log to which a bar of the window
appends a record when one of eleven flags is raised. What the source keeps in parallel lists is one
list of records, and what it remembers of the last bar of the window is one record of values. -/

namespace OvcReplay.C2Csm

open Python

/-! ## State -/

/-- `SNAP_OFF` to `SNAP_INTEGRITY_OPEN`. -/
inductive SnapStatus where
  | off
  | inProgress
  | partialWindow
  | complete
  | integrityOpen
  deriving DecidableEq, Repr

/-- The fields `snap_…` of `R4State`, but for the integrity. -/
structure Snapshot (α : Type) where
  status : SnapStatus := .off
  sequence : Int := 0
  cutoffMs : Option Int := none
  measurementsComplete : Bool := false
  liveObjectCount : Nat := 0
  activeCount : Nat := 0
  dormantCount : Nat := 0
  retiredCount : Nat := 0
  latestCompoundClass : CompoundClass := .none
  compoundOpenState : OpenState := .noAnchor
  compoundAnchorGeneration : Nat := 0
  compoundAnchorUpper : Option α := none
  compoundAnchorLower : Option α := none
  compoundUpperLegs : Nat := 0
  compoundLowerLegs : Nat := 0

/-- A record of the succession log. -/
structure SuccessionRecord (α : Type) where
  recordId : Nat
  sequence : Int
  cutoffMs : Option Int
  trigger : PyStr
  triggerMask : Nat
  formed : Nat
  active : Nat
  dormant : Nat
  retired : Nat
  envGeneration : Nat
  upperId : Option Nat
  lowerId : Option Nat
  upperPrice : Option α
  lowerPrice : Option α
  width : Option α
  envRelation : EnvelopeRelation
  envLifecycle : EnvelopeLife
  internalCount : Nat
  outsideCount : Nat
  atomicClass : AtomicClass
  compoundClass : CompoundClass
  compoundAnchorGeneration : Nat
  compoundOpenState : OpenState
  compoundUpperLegs : Nat
  compoundLowerLegs : Nat
  contactTotal : Nat
  relationChangeTotal : Nat
  dormantRevisitTotal : Nat
  snapshotStatus : SnapStatus
  integrityPass : Bool

/-- The values `slog_prev_…` that are compared. -/
structure Remembered where
  formed : Nat := 0
  active : Nat := 0
  dormant : Nat := 0
  retired : Nat := 0
  envGeneration : Nat := 0
  envLifecycle : EnvelopeLife := .unknown
  envRelation : EnvelopeRelation := .unknown
  compoundResolutionCount : Nat := 0
  compoundOpenState : OpenState := .noAnchor
  compoundUpperLegs : Nat := 0
  compoundLowerLegs : Nat := 0
  contactTotal : Nat := 0
  relationChangeTotal : Nat := 0
  dormantRevisitTotal : Nat := 0
  intAbove : Nat := 0
  intBelow : Nat := 0
  intEqual : Nat := 0
  intUnknown : Nat := 0

/-- The flags of `_succession_flags`, in the order of `trigger_spec`. -/
inductive Flag where
  | baseline
  | form
  | life
  | role
  | boundaryLife
  | compound
  | openChanged
  | relation
  | interaction
  | checkpoint
  | final
  deriving DecidableEq, Repr

/-- `trigger_spec`. -/
def Flag.all : List Flag :=
  [.baseline, .form, .life, .role, .boundaryLife, .compound, .openChanged, .relation, .interaction,
    .checkpoint, .final]

/-- The code of a flag in the trigger text. -/
def Flag.code : Flag → PyStr
  | .baseline => py "BASE"
  | .form => py "FORM"
  | .life => py "LIFE"
  | .role => py "ROLE"
  | .boundaryLife => py "B-LIFE"
  | .compound => py "CMP"
  | .openChanged => py "OPEN"
  | .relation => py "REL"
  | .interaction => py "INT"
  | .checkpoint => py "CHK"
  | .final => py "FINAL"

/-- The position of a flag's bit: `SLOG_TRIG_BASE` is `1`, `SLOG_TRIG_FINAL` is `1024`. -/
def Flag.bit : Flag → Nat
  | .baseline => 0
  | .form => 1
  | .life => 2
  | .role => 3
  | .boundaryLife => 4
  | .compound => 5
  | .openChanged => 6
  | .relation => 7
  | .interaction => 8
  | .checkpoint => 9
  | .final => 10

/-- `R4State`, over the layers below. -/
structure R4State (α : Type) where
  engine : EngineState α := {}
  snapshot : Snapshot α := {}
  records : List (SuccessionRecord α) := []
  prevInitialised : Bool := false
  prev : Remembered := {}
  finalRecorded : Bool := false
  /-- `slog_baseline_record_count` and the counters of the other triggers. -/
  triggerCount : Flag → Nat := fun _ => 0

section

variable {α : Type} [LinearOrder α]

/-! ## Snapshots -/

variable (s : EngineState α)

/-- The snapshot of a bar. -/
def snapshotOf (bar : ReferenceBar α) : Snapshot α :=
  let anchor := s.r3.compound.anchor
  let complete := bar.inLabWindow && decide (4 ≤ bar.segmentObs) && decide (8 ≤ bar.segmentObs) &&
    decide (16 ≤ bar.segmentObs)
  { status :=
      if bar.enabled && bar.inLabWindow then
        if !s.snapIntegrityPass then .integrityOpen
        else if !bar.windowComplete then .inProgress
        else if complete then .complete
        else .partialWindow
      else .off
    sequence := if bar.inLabWindow then bar.sequence else 0
    cutoffMs := if bar.inLabWindow then bar.cutoffMs else none
    measurementsComplete := complete
    liveObjectCount := s.r2.r1.lifeActiveNow + s.r2.r1.lifeDormantNow
    activeCount := s.r2.r1.lifeActiveNow
    dormantCount := s.r2.r1.lifeDormantNow
    retiredCount := s.r2.r1.lifeRetiredNow
    latestCompoundClass := s.r3.compound.latestClass
    compoundOpenState := s.r3.compound.openState
    compoundAnchorGeneration := if anchor.initialised then anchor.generation else 0
    compoundAnchorUpper := if anchor.initialised then anchor.upper else none
    compoundAnchorLower := if anchor.initialised then anchor.lower else none
    compoundUpperLegs := anchor.upperLegCount
    compoundLowerLegs := anchor.lowerLegCount }

/-! ## Flags -/

/-- The values of a bar that the next one of the window is compared with. -/
def rememberedOf : Remembered where
  formed := s.r2.r1.lifeFormedCount
  active := s.r2.r1.lifeActiveNow
  dormant := s.r2.r1.lifeDormantNow
  retired := s.r2.r1.lifeRetiredNow
  envGeneration := s.r2.envelope.generation
  envLifecycle := s.r2.envelope.lifecycle
  envRelation := s.r2.envelope.currentRelation
  compoundResolutionCount := s.r3.compound.resolutionCount
  compoundOpenState := s.r3.compound.openState
  compoundUpperLegs := s.r3.compound.anchor.upperLegCount
  compoundLowerLegs := s.r3.compound.anchor.lowerLegCount
  contactTotal := s.r2.interactions.contactEventTotal
  relationChangeTotal := s.r2.interactions.relationChangeEventTotal
  dormantRevisitTotal := s.r2.interactions.dormantRevisitEventTotal
  intAbove := s.r2.interactions.currentAbove
  intBelow := s.r2.interactions.currentBelow
  intEqual := s.r2.interactions.currentEqual
  intUnknown := s.r2.interactions.currentUnknown

/-- What a flag compares with the last bar of the window. -/
def changedSince (prev now : Remembered) : Flag → Bool
  | .form => decide (now.formed ≠ prev.formed)
  | .life => decide (now.active ≠ prev.active ∨ now.dormant ≠ prev.dormant ∨
      now.retired ≠ prev.retired)
  | .role => decide (now.envGeneration ≠ prev.envGeneration)
  | .boundaryLife => decide (now.envLifecycle ≠ prev.envLifecycle)
  | .compound => decide (now.compoundResolutionCount ≠ prev.compoundResolutionCount)
  | .openChanged => decide (now.compoundOpenState ≠ prev.compoundOpenState ∨
      now.compoundUpperLegs ≠ prev.compoundUpperLegs ∨
      now.compoundLowerLegs ≠ prev.compoundLowerLegs)
  | .relation => decide (now.envRelation ≠ prev.envRelation)
  | .interaction => decide (now.contactTotal ≠ prev.contactTotal ∨
      now.relationChangeTotal ≠ prev.relationChangeTotal ∨
      now.dormantRevisitTotal ≠ prev.dormantRevisitTotal ∨ now.intAbove ≠ prev.intAbove ∨
      now.intBelow ≠ prev.intBelow ∨ now.intEqual ≠ prev.intEqual ∨
      now.intUnknown ≠ prev.intUnknown)
  | _ => false

/-- The bar is one of the window. -/
def ReferenceBar.isWindowBar (bar : ReferenceBar α) : Bool := bar.enabled && bar.inLabWindow

variable (r4 : R4State α)

variable (now : EngineState α)

/-- `_succession_flags`. -/
def R4State.flags (bar : ReferenceBar α) (flag : Flag) : Bool :=
  let initialised := bar.isWindowBar && r4.prevInitialised
  let changed := initialised && changedSince r4.prev (rememberedOf now) flag
  match flag with
  | .baseline => bar.isWindowBar && !r4.prevInitialised &&
      (decide (0 < now.r2.r1.lifeFormedCount) || decide (0 < now.r2.envelope.generation))
  | .relation => bar.recordRelationOnly && changed
  | .interaction => bar.recordInteractionOnly && changed
  | .checkpoint => initialised && decide (0 < bar.checkpointEvery) && decide (0 < bar.sequence) &&
      decide (bar.sequence % bar.checkpointEvery = 0)
  | .final => initialised && bar.windowComplete && !r4.finalRecorded
  | _ => changed

/-! ## Records -/

/-- `"+".join`. -/
def joinPlus : List PyStr → PyStr
  | [] => []
  | [text] => text
  | text :: rest => text ++ py "+" ++ joinPlus rest

/-- `_append_succession_record`. -/
def recordOf (snapshot : Snapshot α) (bar : ReferenceBar α) (recordId : Nat)
    (raised : List Flag) : SuccessionRecord α :=
  let e := s.r2.envelope
  let anchor := s.r3.compound.anchor
  { recordId
    sequence := bar.sequence
    cutoffMs := bar.cutoffMs
    trigger := joinPlus (raised.map Flag.code)
    triggerMask := (raised.map fun flag => 2 ^ flag.bit).sum
    formed := s.r2.r1.lifeFormedCount
    active := s.r2.r1.lifeActiveNow
    dormant := s.r2.r1.lifeDormantNow
    retired := s.r2.r1.lifeRetiredNow
    envGeneration := e.generation
    upperId := if e.hasHighBoundary then e.upperUniqueId else none
    lowerId := if e.hasLowBoundary then e.lowerUniqueId else none
    upperPrice := if e.geometryValid then e.upperPrice else none
    lowerPrice := if e.geometryValid then e.lowerPrice else none
    width := if e.geometryValid then e.width else none
    envRelation := e.currentRelation
    envLifecycle := e.lifecycle
    internalCount := e.internalCount
    outsideCount := e.outsideAboveCount + e.outsideBelowCount
    atomicClass := s.r3.latestClass
    compoundClass := s.r3.compound.latestClass
    compoundAnchorGeneration := if anchor.initialised then anchor.generation else 0
    compoundOpenState := s.r3.compound.openState
    compoundUpperLegs := anchor.upperLegCount
    compoundLowerLegs := anchor.lowerLegCount
    contactTotal := s.r2.interactions.contactEventTotal
    relationChangeTotal := s.r2.interactions.relationChangeEventTotal
    dormantRevisitTotal := s.r2.interactions.dormantRevisitEventTotal
    snapshotStatus := snapshot.status
    integrityPass := s.snapIntegrityPass }

/-- The log with the record of a bar, if a flag is raised. -/
def R4State.logged (bar : ReferenceBar α) : R4State α :=
  let raised := Flag.all.filter (r4.flags now bar)
  if bar.isWindowBar && !raised.isEmpty then
    { r4 with
      records := r4.records ++
        [recordOf now (snapshotOf now bar) bar (r4.records.length + 1) raised]
      triggerCount := fun flag => r4.triggerCount flag + if flag ∈ raised then 1 else 0
      finalRecorded := r4.finalRecorded || r4.flags now bar .final }
  else r4

/-- What the next bar of the window is compared with. -/
def R4State.remembering (bar : ReferenceBar α) : R4State α :=
  if bar.isWindowBar then { r4 with prevInitialised := true, prev := rememberedOf now } else r4

/-- `_step_r4`, for the layers of the bar. -/
def R4State.stepR4 (bar : ReferenceBar α) : R4State α :=
  { (r4.logged now bar).remembering now bar with
    engine := now
    snapshot := snapshotOf now bar }

variable (O : PriceOps α)

/-- The first bar of a window resets the engine. -/
def R4State.resetFor (r4 : R4State α) (bar : ReferenceBar α) : R4State α :=
  if bar.enabled && bar.firstLabBar then {} else r4

/-- `step`, with the log. -/
def R4State.step (r4 : R4State α) (bar : ReferenceBar α) :
    Except ReferenceEngineError (R4State α) := do
  let now ← r4.engine.step O bar
  pure ((r4.resetFor bar).stepR4 now bar)

/-- The bars of a run with the log, in order. -/
def R4State.run (r4 : R4State α) (bars : List (ReferenceBar α)) :
    Except ReferenceEngineError (R4State α) :=
  bars.foldlM (R4State.step O) r4

end

end OvcReplay.C2Csm
