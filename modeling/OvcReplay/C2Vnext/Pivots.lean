import OvcReplay.C2Vnext.Levels
import OvcReplay.Python.Order

/-! # Pivot candidates of C2 vNext

`levels.py`: every observation of a sequence is an anchor, which is confirmed, ambiguous, rejected or
censored by the window around it. -/

namespace OvcReplay.C2Vnext

open Python

namespace Level

/-- `PivotPolicy`, an inactive experiment. -/
structure PivotPolicy where
  policyId : PyStr
  leftCount : Nat
  rightCount : Nat
  clockId : PyStr
  structuralDepth : PyStr
  generationMethod : PyStr
  leftCount_pos : 0 < leftCount
  rightCount_pos : 0 < rightCount
  structuralDepth_mem : structuralDepth ∈ [py "S0", py "S1", py "S2"]
  generationMethod_mem : generationMethod ∈ [py "RAW_OBSERVATION_PIVOT", py "PIVOT_OF_PIVOTS"]

/-- `"HIGH"` or `"LOW"`. -/
inductive Polarity where
  | high
  | low
  deriving DecidableEq, Repr

/-- The text of a polarity. -/
def Polarity.text : Polarity → PyStr
  | high => py "HIGH"
  | low => py "LOW"

/-- `CANDIDATE_STATUSES`. -/
inductive CandidateStatus where
  | uniqueConfirmed
  | ambiguousPlateau
  | rejectedNotExtreme
  | censoredConfirmation
  deriving DecidableEq, Repr

/-- The reasons of the candidates. -/
inductive CandidateReason where
  | leftWarmUpInsufficient
  | rightConfirmationUnavailable
  | ineligibleOrCensoredMember
  | discontinuityOrReset
  | anchorNotWindowExtreme
  | compoundAnchorRuleNotApproved
  | registeredLeftRightRulePassed
  deriving DecidableEq, Repr

/-- An observation as the detection reads it; an absent field has its default or is `none`. -/
structure PivotObservation where
  observationId : PyStr
  firstValidTime : PyStr
  intervalEnd : Option PyStr
  high : Option PyVal
  low : Option PyVal
  eligible : Bool
  segmentId : Option PyStr
  instrument : PyVal
  side : PyVal
  releaseId : PyVal

/-- A candidate. -/
structure Candidate where
  candidateId : PyStr
  policyId : PyStr
  polarity : Polarity
  anchorObservationId : PyStr
  anchorTime : PyStr
  anchorPrice : PyFloat
  clockId : PyStr
  structuralDepth : PyStr
  generationMethod : PyStr
  instrument : PyVal
  side : PyVal
  sourceReleaseId : PyVal
  firstValidTime : Option PyStr
  status : CandidateStatus
  reason : CandidateReason
  memberObservationIds : List PyStr
  tieObservationIds : List PyStr

variable (P : Platform)

variable (polarity : Polarity)

/-- `_price`. -/
def price (item : PivotObservation) : Except Error PyFloat :=
  let (name, value) := match polarity with
    | .high => (py "high", item.high)
    | .low => (py "low", item.low)
  match value with
  | none => .error (.level (py "PRICE_FIELD_REQUIRED:" ++ name))
  | some (.int z) => (P.floatOfInt z).mapError .python
  | some (.float x) => .ok x
  | some _ => .error (.level (py "PRICE_VALUE"))

/-- The observations in the order of their first valid times, then of their ids. -/
def pivotItems (observations : List PivotObservation) : Except Error (List PivotObservation) := do
  let times ← observations.mapM fun o => parse P o.firstValidTime
  let items := (sortedBy (fun p : Instant × PivotObservation => toLex (p.1, p.2.observationId))
    (times.zip observations)).map Prod.snd
  require (items.map (·.observationId)).Nodup (py "DUPLICATE_OBSERVATION_ID")
  return items

/-- The window has one segment id, which is no `None`. -/
def OneSegment (window : List PivotObservation) : Prop :=
  (window.map (·.segmentId)).dedup.length = 1 ∧ none ∉ window.map (·.segmentId)

instance (window : List PivotObservation) : Decidable (OneSegment window) :=
  inferInstanceAs (Decidable (_ ∧ _))

/-- `max(prices)` or `min(prices)`. -/
def extremeOf : List PyFloat → Except Error PyFloat
  | [] => .error (.python .valueError)
  | x :: xs => .ok (PyFloat.best (PyFloat.better (polarity = .low)) x xs)

variable (policy : PivotPolicy)

/-- The candidate of an anchor before its window is looked at. -/
def candidateBody (polarity : Polarity) (anchor : PivotObservation) :
    Except Error Candidate := do
  let candidateId ← digest P "C2.LEVEL.CANDIDATE" (.ofRecord
    [(py "policy_id", .str policy.policyId),
      (py "anchor_observation_id", .str anchor.observationId),
      (py "polarity", .str polarity.text), (py "clock_id", .str policy.clockId),
      (py "side", anchor.side), (py "release_id", anchor.releaseId)])
  let anchorPrice ← price P polarity anchor
  return {
      candidateId, policyId := policy.policyId, polarity
      anchorObservationId := anchor.observationId
      anchorTime := anchor.intervalEnd.getD anchor.firstValidTime, anchorPrice
      clockId := policy.clockId, structuralDepth := policy.structuralDepth
      generationMethod := policy.generationMethod, instrument := anchor.instrument
      side := anchor.side, sourceReleaseId := anchor.releaseId, firstValidTime := none
      status := .censoredConfirmation, reason := .leftWarmUpInsufficient
      memberObservationIds := [], tieObservationIds := [] }

/-- The candidate with the verdict of its window. -/
def judge (window : List PivotObservation) (body : Candidate) : Except Error Candidate :=
  let body := { body with memberObservationIds := window.map PivotObservation.observationId }
  if ¬ window.all (·.eligible) then
    .ok { body with reason := .ineligibleOrCensoredMember }
  else if ¬ OneSegment window then .ok { body with reason := .discontinuityOrReset }
  else do
    let body := { body with firstValidTime := window.getLast?.map PivotObservation.firstValidTime }
    let prices ← window.mapM (price P polarity)
    let extreme ← extremeOf polarity prices
    let ties := ((window.zip prices).filter fun p => p.2.eq extreme).map (·.1.observationId)
    let body := { body with tieObservationIds := ties }
    if !body.anchorPrice.eq extreme then
      return { body with
        status := .rejectedNotExtreme, reason := .anchorNotWindowExtreme }
    else if 1 < ties.length then
      return { body with
        status := .ambiguousPlateau, reason := .compoundAnchorRuleNotApproved }
    else
      return { body with
        status := .uniqueConfirmed, reason := .registeredLeftRightRulePassed }

/-- The window of a position. -/
def windowAt (items : List PivotObservation) (index : Nat) : List PivotObservation :=
  (items.drop (index - policy.leftCount)).take (policy.leftCount + policy.rightCount + 1)

/-- The candidate of the anchor at a position. -/
def candidateAt (polarity : Polarity) (items : List PivotObservation)
    (index : Nat) (anchor : PivotObservation) : Except Error Candidate := do
  let body ← candidateBody P policy polarity anchor
  if index < policy.leftCount then return body
  else if items.length ≤ index + policy.rightCount then
    return { body with reason := .rightConfirmationUnavailable }
  else judge P polarity (windowAt policy items index) body

/-- `detect_pivot_candidates`. -/
def detectPivotCandidates (polarity : Polarity)
    (observations : List PivotObservation) : Except Error (List Candidate) := do
  let items ← pivotItems P observations
  items.zipIdx.mapM fun p => candidateAt P policy polarity items p.2 p.1

/-! ## Levels of confirmed candidates -/

/-- A level with everything it was defined by. -/
structure Definition extends Level where
  value : PyFloat
  anchorTime : PyStr
  instrument : PyStr
  side : PyStr
  clockId : PyStr
  structuralDepth : PyStr
  origin : PyStr
  sourceIds : List PyStr
  sourceReleaseId : PyVal
  lineageId : PyStr
  parentLevelIds : List PyStr
  contentSha256 : PyStr

/-- The payload the content hash is taken of. -/
def Definition.payload (d : Definition) : Record :=
  [(py "schema", .str (py "c2_reference_level/vnext-r1")), (py "level_id", .str d.levelId),
    (py "family", .str d.family), (py "level_type", .str d.levelType), (py "value", .float d.value),
    (py "first_valid_time", .str d.firstValidTime), (py "anchor_time", .str d.anchorTime),
    (py "instrument", .str d.instrument), (py "side", .str d.side), (py "clock_id", .str d.clockId),
    (py "structural_depth", .str d.structuralDepth), (py "origin", .str d.origin),
    (py "source_ids", .ofStrs d.sourceIds), (py "source_release_id", d.sourceReleaseId),
    (py "lineage_id", .str d.lineageId), (py "parent_level_ids", .ofStrs d.parentLevelIds),
    (py "immutable", .bool true), (py "maturity", .str (py "SHADOW_EXPERIMENT")),
    (py "authority", .ofRecord (["active_selector", "parameter_activation", "release"].map
      fun name => (py name, .str (py "NONE"))))]

/-- `_definition_base`; the definition comes with its times as they were given. -/
def definitionBase (d : Definition) : Except Error Definition := do
  require (d.family ∈ families) (py "LEVEL_FAMILY")
  require (d.levelType ∈ types) (py "LEVEL_TYPE")
  require (d.structuralDepth ∈ [py "S0", py "S1", py "S2", py "NA"]) (py "STRUCTURAL_DEPTH")
  let levelId ← digest P "C2.REFERENCE_LEVEL" (.ofRecord
    [(py "family", .str d.family), (py "level_type", .str d.levelType),
      (py "value", .float d.value), (py "first_valid_time", .str d.firstValidTime),
      (py "instrument", .str d.instrument), (py "side", .str d.side),
      (py "clock_id", .str d.clockId), (py "structural_depth", .str d.structuralDepth),
      (py "origin", .str d.origin), (py "source_ids", .ofStrs d.sourceIds),
      (py "parent_level_ids", .ofStrs d.parentLevelIds),
      (py "source_release_id", d.sourceReleaseId)])
  let firstValid ← parse P d.firstValidTime
  let anchor ← parse P d.anchorTime
  let d := { d with
    levelId, firstValidTime := iso P firstValid, anchorTime := iso P anchor }
  let hash ← contentHash P (.ofRecord d.payload)
  return { d with contentSha256 := hash }

/-- `build_confirmed_pivot_level`. -/
def buildConfirmedPivotLevel (candidate : Candidate) : Except Error Definition := do
  require (candidate.status = .uniqueConfirmed) (py "CANDIDATE_NOT_CONFIRMED")
  match candidate.firstValidTime with
  | none => .error (.level (py "CANDIDATE_FIRST_VALID_REQUIRED"))
  | some firstValidTime =>
    let lineageId ← digest P "C2.SWING.LINEAGE" (.ofRecord
      [(py "anchor_observation_id", .str candidate.anchorObservationId),
        (py "policy_id", .str candidate.policyId),
        (py "polarity", .str candidate.polarity.text)])
    let instrument ← (candidate.instrument.strOf P).mapError .python
    let side ← (candidate.side.strOf P).mapError .python
    definitionBase P
      { levelId := [], family := py "CONFIRMED_PIVOT"
        levelType := match candidate.polarity with
          | .high => py "CONFIRMED_SWING_HIGH"
          | .low => py "CONFIRMED_SWING_LOW"
        value := candidate.anchorPrice, firstValidTime, anchorTime := candidate.anchorTime
        instrument, side, clockId := candidate.clockId
        structuralDepth := candidate.structuralDepth
        origin := py "ENDOGENOUS_PRICE_STRUCTURE"
        sourceIds := candidate.candidateId :: candidate.memberObservationIds
        sourceReleaseId := candidate.sourceReleaseId, lineageId, parentLevelIds := []
        contentSha256 := [] }

end Level

end OvcReplay.C2Vnext
