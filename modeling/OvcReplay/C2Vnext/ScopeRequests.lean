import OvcReplay.C2Vnext.Clock
import OvcReplay.Python.Order

/-! # Scope requests of the C2 vNext replay

`full_replay.py`: for every target bar and every length, the window of bars that ends there. -/

namespace OvcReplay.C2Vnext

open Python

/-- A bar; an absent price is `none`. -/
structure Bar where
  startUtc : PyStr
  endUtc : PyStr
  clock : PyStr
  side : PyStr
  qualityState : PyStr
  opening : Option PyVal
  high : Option PyVal
  low : Option PyVal
  close : Option PyVal

namespace Bar

variable (P : Platform)

variable (bar : Bar)

/-- The bar is `COMPLETE`. -/
def Complete : Prop := bar.qualityState = py "COMPLETE"

instance : DecidablePred Complete := fun _ => inferInstanceAs (Decidable (_ = _))

/-- The bar has its four prices. -/
def Priced : Prop :=
  bar.opening ≠ none ∧ bar.high ≠ none ∧ bar.low ≠ none ∧ bar.close ≠ none

instance : DecidablePred Priced := fun _ => inferInstanceAs (Decidable (_ ∧ _))

/-! ## Decimals -/

/-- `decimal`; the value that the marker ends with is left out. -/
def decimal (value : PyVal) : Except Error PyDecimal :=
  let refused : Error := .replay (py "NON_NUMERIC_MARKET_VALUE")
  match value.strOf P with
  | .error _ => .error refused
  | .ok text =>
    match P.decimalOf text with
    | some d => .ok d
    | none => .error refused

/-- `decimal(getattr(bar, field))` of a price, `Decimal("None")` being refused. -/
def decimalOf (price : Option PyVal) : Except Error PyDecimal := decimal P (price.getD .none)

/-- `relation` of two decimals. -/
def relationOf (a b : PyDecimal) : Except Error PyStr := do
  if ← (b.lt a).mapError .python then return py "ABOVE"
  else if ← (a.lt b).mapError .python then return py "BELOW"
  else return py "EQUAL"

/-- `relation` of two prices. -/
def relation (left right : Option PyVal) : Except Error PyStr := do
  let a ← decimalOf P left
  let b ← decimalOf P right
  relationOf a b

/-- `decimal(bar.high) - decimal(bar.low)`. -/
def range : Except Error PyDecimal := do
  let high ← decimalOf P bar.high
  let low ← decimalOf P bar.low
  (P.decimalSub high low).mapError .python

/-! ## Tokens -/

/-- The token of a position. -/
structure Token where
  position : Nat
  availability : PyStr
  closeVsOpen : PyStr
  closeVsPreviousClose : PyStr
  highVsPreviousHigh : PyStr
  lowVsPreviousLow : PyStr
  rangeVsPreviousRange : PyStr
  qualityState : PyStr
  deriving DecidableEq

/-- `placeholder`. -/
def placeholder (position : Nat) (quality : PyStr) : Token :=
  { position, availability := py "WARMUP_UNAVAILABLE", closeVsOpen := py "NOT_COMPUTABLE"
    closeVsPreviousClose := py "NOT_COMPUTABLE", highVsPreviousHigh := py "NOT_COMPUTABLE"
    lowVsPreviousLow := py "NOT_COMPUTABLE", rangeVsPreviousRange := py "NOT_COMPUTABLE"
    qualityState := quality }

/-- `bar_token`. -/
def barToken (previous : Option Bar) (position : Nat) : Except Error Token :=
  if ¬ (bar.Complete ∧ bar.Priced) then
    .ok { placeholder position bar.qualityState with availability := py "CENSORED" }
  else do
    let closeVsOpen ← relation P bar.close bar.opening
    let token := fun (close high low range : PyStr) =>
      { position, availability := py "AVAILABLE", closeVsOpen, closeVsPreviousClose := close
        highVsPreviousHigh := high, lowVsPreviousLow := low, rangeVsPreviousRange := range
        qualityState := bar.qualityState : Token }
    let notApplicable := py "NOT_APPLICABLE"
    match previous with
    | none => return token notApplicable notApplicable notApplicable notApplicable
    | some previous =>
      if ¬ previous.Complete then
        return token notApplicable notApplicable notApplicable notApplicable
      else do
        let close ← relation P bar.close previous.close
        let high ← relation P bar.high previous.high
        let low ← relation P bar.low previous.low
        let here ← range P bar
        let before ← range P previous
        return token close high low (← relationOf here before)

/-- The tokens of the bars of a window from a position on. -/
def barTokens (previous : Option Bar) (position : Nat) : List Bar → Except Error (List Token)
  | [] => .ok []
  | bar :: bars => do
    let token ← barToken P bar previous position
    let rest ← barTokens (some bar) (position + 1) bars
    return token :: rest

/-! ## Segments -/

/-- The variables of the segment scan. -/
structure SegmentState where
  segment : Int
  previousEnd : Option PyStr
  offset : Int

/-- The id of a segment. -/
def segmentText (segment : Int) : PyStr :=
  py "SEGMENT." ++ bar.clock ++ py "." ++ bar.side ++ py "." ++ Reference.padded 4 segment.toNat

/-- One bar of the scan: what is stored for it and the next variables. -/
def SegmentState.visit (s : SegmentState) (bar : Bar) : (PyStr × Int) × SegmentState :=
  if ¬ bar.Complete then ((py "NONE", -1), { s with previousEnd := none })
  else if s.previousEnd = some bar.startUtc then
    ((segmentText bar s.segment, s.offset + 1),
      { s with offset := s.offset + 1, previousEnd := some bar.endUtc })
  else
    ((segmentText bar (s.segment + 1), 0), ⟨s.segment + 1, some bar.endUtc, 0⟩)

/-- What the scan stores, in order. -/
def scanSegments (s : SegmentState) : List Bar → List (PyStr × (PyStr × Int))
  | [] => []
  | bar :: bars => (bar.startUtc, (s.visit bar).1) :: scanSegments (s.visit bar).2 bars

/-- The bars by their starts. -/
def inOrder (bars : List Bar) : List Bar := sortedBy (·.startUtc) bars

/-- `segment_map`. -/
def segmentMap (bars : List Bar) : Dict PyStr (PyStr × Int) :=
  Dict.ofItems (scanSegments ⟨-1, none, 0⟩ (inOrder bars))

/-! ## Requests -/

/-- A request: what varies from one to another. -/
structure Request where
  sourceUnitId : PyStr
  clock : PyStr
  side : PyStr
  firstValidTime : PyStr
  sequenceLength : Int
  startCloseVsOpen : PyStr
  continuitySegmentAvailable : Bool
  orderedDevelopment : List Token
  endCloseVsStartClose : PyStr
  endCloseVsSequenceHigh : PyStr
  endCloseVsSequenceLow : PyStr
  continuityState : PyStr
  availableObservationCount : Nat
  segmentOffset : Int
  rawSpan : Option PyStr
  rawNetCloseDelta : Option PyStr
  missingPrefixCount : Nat
  reasonCodes : List PyStr
  linkedC1 : List PyStr
  bindingSha256 : PyStr
  firstValidChronology : Bool
  computabilityStatus : PyStr
  numeratorMember : Bool
  overlapClusterIds : List PyStr

/-- `str(item.get(field, item.get(other, "")))`. -/
def fieldOr (item : Record) (name other : String) : Except Error PyStr :=
  let v := (item.get? (py name)).getD ((item.get? (py other)).getD (.str []))
  (v.strOf P).mapError .python

/-- The ids of the C1 records by the time they are valid from. -/
def c1Ids (c1Records : List Record) : Except Error (Dict PyStr PyStr) := do
  let items ← c1Records.mapM fun item => do
    let time ← fieldOr P item "first_valid_time" "close_time"
    let id ← fieldOr P item "c1_record_id" "record_id"
    return (time, id)
  return Dict.ofItems items

/-- The window of a position: at most `length` bars that end there. -/
def windowOf (ordered : List Bar) (index : Nat) (length : Int) : List Bar :=
  (ordered.take (index + 1)).drop (max 0 (index - length + 1)).toNat

/-- The segment stored for a bar; every bar of the scan has one. -/
def segmentAt (segments : Dict PyStr (PyStr × Int)) (bar : Bar) : PyStr × Int :=
  (segments.get? bar.startUtc).getD ([], 0)

/-- The window is full and in one segment. -/
def sameSegment (segments : Dict PyStr (PyStr × Int)) (current : Bar) (window : List Bar)
    (length : Int) : Prop :=
  current.Complete ∧ (window.length : Int) = length ∧
    (segmentAt segments current).1 ≠ py "NONE" ∧
    ∀ item ∈ window, (segmentAt segments item).1 = (segmentAt segments current).1

instance (segments : Dict PyStr (PyStr × Int)) (current : Bar) (window : List Bar)
    (length : Int) : Decidable (sameSegment segments current window length) :=
  inferInstanceAs (Decidable (_ ∧ _))

/-- `max(…)`, or with `smaller` `min(…)`, of the prices of bars; of none of them without a value. -/
def extremeOf (smaller : Bool) (prices : List (Option PyVal)) : Except Error (Option PyDecimal) := do
  match ← prices.mapM (decimalOf P) with
  | [] => return none
  | d :: ds => return some (← (PyDecimal.extreme smaller d ds).mapError .python)

/-- `relation(a, b) if a is not None and b is not None else "NOT_COMPUTABLE"`. -/
def relationOr (a b : Option PyDecimal) : Except Error PyStr :=
  match a, b with
  | some a, some b => relationOf a b
  | _, _ => .ok (py "NOT_COMPUTABLE")

/-- `str(a - b) if a is not None and b is not None else None`. -/
def differenceOr (a b : Option PyDecimal) : Except Error (Option PyStr) :=
  match a, b with
  | some a, some b => do
    let d ← (P.decimalSub a b).mapError .python
    let text ← (PyVal.strOf P (.decimal d)).mapError .python
    return some text
  | _, _ => .ok none

/-- `decimal(numeric[0].close) if numeric else None`. -/
def firstCloseOf (numeric : List Bar) : Except Error (Option PyDecimal) :=
  match numeric with
  | [] => .ok none
  | bar :: _ => (decimalOf P bar.close).map some

/-- `decimal(price) if price is not None else None`. -/
def decimalOr (price : Option PyVal) : Except Error (Option PyDecimal) :=
  match price with
  | none => .ok none
  | some v => (decimal P v).map some

/-- `tokens[0]`. -/
def firstToken : List Token → Except Error Token
  | [] => .error (.python .indexError)
  | token :: _ => .ok token

/-- What the requests of a call share. -/
structure Scope where
  clock : PyStr
  side : PyStr
  bindingSha256 : PyStr
  c1Ids : Dict PyStr PyStr

/-- The reasons of a request, sorted. -/
def reasonsOf (current : Bar) (window : List Bar) (length : Int) (same : Bool) : List PyStr :=
  sortedSet ((if current.Complete then [] else [py "CURRENT_BAR_INCOMPLETE"]) ++
    (if (window.length : Int) < length then [py "SEQUENCE_WARMUP"] else []) ++
    (if current.Complete ∧ (window.length : Int) = length ∧ same = false then
      [py "SEQUENCE_CROSSES_CONTINUITY_BOUNDARY"] else []))

/-- The request of a window that ends with the current bar, which has this segment and offset. -/
def requestOf (scope : Scope) (segmentId : PyStr) (segmentOffset : Int) (current : Bar)
    (window : List Bar) (same : Bool) (length : Int) : Except Error Request := do
  let missing := (length - window.length).toNat
  let bars ← barTokens P none missing window
  let tokens := (List.range missing).map (fun i => placeholder i (py "NOT_AVAILABLE")) ++ bars
  let numeric := window.filter fun bar => bar.Complete ∧ bar.Priced
  let firstClose ← firstCloseOf P numeric
  let currentClose ← decimalOr P current.close
  let high ← extremeOf P false (numeric.map (·.high))
  let low ← extremeOf P true (numeric.map (·.low))
  let status := if same then py "COMPUTABLE" else
    if ¬ current.Complete then py "CENSORED" else py "NOT_COMPUTABLE"
  let linkedC1 := window.filterMap fun bar => scope.c1Ids.get? bar.endUtc
  let lengthText ← (strInt length).mapError .python
  let first ← firstToken tokens
  let endVsStart ← relationOr currentClose firstClose
  let endVsHigh ← relationOr currentClose high
  let endVsLow ← relationOr currentClose low
  let rawSpan ← differenceOr P high low
  let rawNetCloseDelta ← differenceOr P currentClose firstClose
  return {
      sourceUnitId := py "C2VNEXT.JUNE." ++ scope.clock ++ py "." ++ scope.side ++ py "." ++
        current.startUtc ++ py ".N" ++ lengthText
      clock := scope.clock, side := scope.side, firstValidTime := current.endUtc
      sequenceLength := length, startCloseVsOpen := first.closeVsOpen
      continuitySegmentAvailable := decide (segmentId ≠ py "NONE")
      orderedDevelopment := tokens, endCloseVsStartClose := endVsStart
      endCloseVsSequenceHigh := endVsHigh, endCloseVsSequenceLow := endVsLow
      continuityState := if same then py "CONTIGUOUS" else py "NOT_CONTIGUOUS"
      availableObservationCount := window.length, segmentOffset, rawSpan, rawNetCloseDelta
      missingPrefixCount := missing, reasonCodes := reasonsOf current window length same
      linkedC1, bindingSha256 := scope.bindingSha256
      firstValidChronology := decide (∀ bar ∈ window, bar.endUtc ≤ current.endUtc)
      computabilityStatus := status, numeratorMember := same
      overlapClusterIds := if same then
          [py "OVERLAP." ++ scope.clock ++ py "." ++ scope.side ++ py "." ++ segmentId ++
            py "." ++ current.startUtc]
        else [] }

/-- The bar starts in the target range. -/
def Target (targetStart targetEnd : PyStr) (bar : Bar) : Prop :=
  targetStart ≤ bar.startUtc ∧ bar.startUtc < targetEnd

instance (targetStart targetEnd : PyStr) : DecidablePred (Target targetStart targetEnd) := fun _ =>
  inferInstanceAs (Decidable (_ ∧ _))

/-- The requests of a bar at a position, one of each length. -/
def requestsAt (scope : Scope) (segments : Dict PyStr (PyStr × Int)) (ordered : List Bar)
    (lengths : List Int) (targetStart targetEnd : PyStr) (index : Nat) (current : Bar) :
    Except Error (List Request) :=
  if ¬ Target targetStart targetEnd current then .ok []
  else (sortedBy id lengths).mapM fun length =>
    let window := windowOf ordered index length
    requestOf P scope (segmentAt segments current).1 (segmentAt segments current).2 current window
      (decide (sameSegment segments current window length)) length

/-- `build_scope_requests`. -/
def buildScopeRequests (bars : List Bar) (c1Records : List Record) (clock side targetStart
    targetEnd : PyStr) (lengths : List Int) (bindingSha256 : PyStr) :
    Except Error (List Request) := do
  let ordered := inOrder bars
  let ids ← c1Ids P c1Records
  let requests ← ordered.zipIdx.mapM fun p =>
    requestsAt P ⟨clock, side, bindingSha256, ids⟩ (segmentMap ordered) ordered lengths targetStart
      targetEnd p.2 p.1
  return sortedBy (fun r => toLex (r.firstValidTime, r.sourceUnitId)) requests.flatten

end Bar

end OvcReplay.C2Vnext
