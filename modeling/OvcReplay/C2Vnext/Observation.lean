import OvcReplay.C2Vnext.Clock

/-! # Observations of C2 vNext

`observation.py`: the slots of a window, the evidence bound to them, and the continuity segments of
each stream of observations. -/

namespace OvcReplay.C2Vnext

open Python

namespace Observation

/-- `_require`. -/
def require (condition : Prop) [Decidable condition] (marker : PyStr) : Except Error Unit :=
  check condition (.observation marker)

variable (P : Platform)

/-- `parse_time`. -/
def parse (s : PyStr) : Except Error Instant := parseTime P (.observation (py "TIMEZONE_REQUIRED")) s

/-- `parse_time` of an argument. -/
def parseArg (t : TimeArg) : Except Error Instant :=
  parseTimeArg P (.observation (py "TIMEZONE_REQUIRED")) t

/-- Microseconds of a minute. -/
def minute : Int := 60000000

/-! ## The calendar -/

/-- A closure; its interval is not empty. -/
structure ClosureInterval where
  start : Instant
  stop : Instant
  closureId : PyStr
  classification : PyStr
  sourceRef : PyStr
  start_lt_stop : start < stop
  classification_mem : classification ∈ [py "EXCEPTIONAL_CLOSURE", py "SCHEDULED_CLOSURE"]

/-- `ClosureInterval.overlaps`. -/
def ClosureInterval.overlaps (c : ClosureInterval) (start stop : Instant) : Prop :=
  start < c.stop ∧ c.start < stop

instance (c : ClosureInterval) (start stop : Instant) : Decidable (c.overlaps start stop) :=
  inferInstanceAs (Decidable (_ ∧ _))

/-- The calendar of an instrument. -/
structure InstrumentCalendar where
  calendarId : PyStr
  instrument : PyStr
  timezoneName : PyStr
  effectiveStart : Instant
  effectiveEnd : Instant
  weeklyCloseWeekday : Nat
  weeklyCloseHour : Nat
  weeklyOpenWeekday : Nat
  weeklyOpenHour : Nat
  exceptionalClosures : List ClosureInterval
  sourceRefs : List PyStr
  effectiveStart_lt : effectiveStart < effectiveEnd
  sourceRefs_ne_nil : sourceRefs ≠ []

/-- What a calendar expects of an interval. -/
structure Expectation where
  status : PyStr
  calendarId : PyStr
  closureId : Option PyStr
  sourceRefs : List PyStr

/-- The dictionary of an expectation. -/
def Expectation.toVal (e : Expectation) : PyVal :=
  .ofRecord [(py "status", .str e.status), (py "calendar_id", .str e.calendarId),
    (py "closure_id", .ofStr? e.closureId), (py "source_refs", .ofStrs e.sourceRefs)]

/-- The clock is at or after the full hour. -/
def LocalClock.atOrAfter (clock : LocalClock) (hour : Nat) : Bool := decide (hour ≤ clock.hour)

/-- `_weekly_closed`. -/
def InstrumentCalendar.weeklyClosed (calendar : InstrumentCalendar) (instant : Instant) :
    Except Error Bool := do
  let clock ← (P.localClock calendar.timezoneName instant).mapError .python
  return (clock.weekday == calendar.weeklyCloseWeekday &&
      LocalClock.atOrAfter clock calendar.weeklyCloseHour) ||
    decide (calendar.weeklyCloseWeekday < clock.weekday ∧
      clock.weekday < calendar.weeklyOpenWeekday) ||
    (clock.weekday == calendar.weeklyOpenWeekday &&
      !LocalClock.atOrAfter clock calendar.weeklyOpenHour)

/-- `InstrumentCalendar.classify`. -/
def InstrumentCalendar.classify (calendar : InstrumentCalendar) (start stop : Instant) :
    Except Error Expectation := do
  require (start < stop) (py "CALENDAR_INTERVAL")
  if start < calendar.effectiveStart ∨ calendar.effectiveEnd < stop then
    return ⟨py "OUTSIDE_EFFECTIVE_RANGE", calendar.calendarId, none, calendar.sourceRefs⟩
  else
    match calendar.exceptionalClosures.filter fun c => c.overlaps start stop with
    | [] =>
      let startClosed ← calendar.weeklyClosed P start
      let endClosed ← calendar.weeklyClosed P (stop - 1)
      require (startClosed = endClosed) (py "SLOT_STRADDLES_CALENDAR_BOUNDARY")
      return ⟨py (if startClosed then "SCHEDULED_CLOSURE" else "EXPECTED_EVIDENCE"),
        calendar.calendarId, if startClosed then some (py "WEEKLY.FX.NY_1700") else none,
        calendar.sourceRefs⟩
    | [c] =>
      return ⟨c.classification, calendar.calendarId, some c.closureId,
        c.sourceRef :: calendar.sourceRefs⟩
    | _ => .error (.observation (py "OVERLAPPING_CALENDAR_CLOSURES"))

/-! ## Lattices -/

/-- A lattice of buckets. -/
structure LatticeProfile where
  latticeId : PyStr
  intervalMinutes : Int
  anchorMinuteUtc : Int
  maturity : PyStr
  intervalMinutes_pos : 0 < intervalMinutes

/-- `LatticeProfile.membership`. -/
def LatticeProfile.membership (profile : LatticeProfile) (observationId : PyStr)
    (start stop : Instant) : Except Error PyVal := do
  let shifted := start / minute - profile.anchorMinuteUtc
  let bucketNumber := shifted / profile.intervalMinutes
  let bucketStart := (bucketNumber * profile.intervalMinutes + profile.anchorMinuteUtc) * minute
  let bucketEnd := bucketStart + profile.intervalMinutes * minute
  require (bucketStart ≤ start ∧ start < stop ∧ stop ≤ bucketEnd)
    (py "OBSERVATION_CROSSES_LATTICE_BUCKET")
  let identity : Record :=
    [(py "lattice_id", .str profile.latticeId), (py "observation_id", .str observationId),
      (py "bucket_start", .str (iso P bucketStart)), (py "bucket_end", .str (iso P bucketEnd))]
  let membershipId ← digest P "C2.LATTICE.MEMBERSHIP" (.ofRecord identity)
  return .ofRecord ((py "membership_id", .str membershipId) :: identity ++
    [(py "maturity", .str profile.maturity), (py "authority", .str (py "REFERENCE_ONLY"))])

/-! ## Slots -/

/-- A slot of a window. -/
structure Slot where
  slotId : PyStr
  instrument : PyStr
  side : PyStr
  intervalStart : PyStr
  intervalEnd : PyStr
  partitionId : PyStr
  expectation : Expectation

namespace Slot

/-- The payload the id of a slot is the hash of. -/
def identity (s : Slot) : Record :=
  [(py "instrument", .str s.instrument), (py "side", .str s.side),
    (py "interval_start", .str s.intervalStart), (py "interval_end", .str s.intervalEnd),
    (py "partition_id", .str s.partitionId)]

/-- The key evidence is bound by. -/
def key (s : Slot) : PyStr × PyStr × PyStr := (s.intervalStart, s.intervalEnd, s.side)

end Slot

/-- `SIDES`. -/
def sidesAll : List PyStr := [py "BID", py "ASK"]

/-- `_aligned`; an interval of no minutes divides by zero. -/
def aligned (t : Instant) (minutes : Int) : Except Error Bool :=
  if t % minute ≠ 0 then .ok false
  else if minutes = 0 then .error (.python .arithmeticError)
  else .ok (decide (t / minute % 60 % minutes = 0))

/-- The slots of one interval, side by side. -/
def slotsAt (instrument partitionId : PyStr) (expectation : Expectation) (start stop : Instant)
    (sides : List PyStr) : Except Error (List Slot) :=
  sides.mapM fun side => do
    let slot : Slot :=
      { slotId := [], instrument, side, intervalStart := iso P start, intervalEnd := iso P stop
        partitionId, expectation }
    let slotId ← digest P "C2.SLOT" (.ofRecord slot.identity)
    return { slot with slotId }

/-- The loop over the intervals, `fuel` of which are left at most. -/
def slotsFrom (calendar : InstrumentCalendar) (instrument partitionId : PyStr)
    (sides : List PyStr) (step stop : Int) : (fuel : Nat) → (cursor : Instant) →
    Except Error (List Slot)
  | 0, _ => .ok []
  | fuel + 1, cursor =>
    if stop ≤ cursor then .ok []
    else do
      let slotEnd := cursor + step
      require (slotEnd ≤ stop) (py "PARTIAL_SLOT")
      let expectation ← calendar.classify P cursor slotEnd
      let slots ← slotsAt P instrument partitionId expectation cursor slotEnd sides
      let rest ← slotsFrom calendar instrument partitionId sides step stop fuel slotEnd
      return slots ++ rest

/-- `enumerate_slots`, for a positive interval: a window of `n` microseconds has at most `n` slots. -/
def enumerateSlots (start stop : TimeArg) (instrument : PyStr) (calendar : InstrumentCalendar)
    (sides : List PyStr) (intervalMinutes : Int) (partitionId : PyStr) :
    Except Error (List Slot) := do
  let startDt ← parseArg P start
  let endDt ← parseArg P stop
  require (calendar.instrument = instrument) (py "CALENDAR_INSTRUMENT")
  require (startDt < endDt) (py "ENUMERATION_RANGE")
  let startAligned ← aligned startDt intervalMinutes
  let endAligned ← if startAligned then aligned endDt intervalMinutes else .ok false
  require (endAligned = true) (py "SLOT_ALIGNMENT")
  require (sides.Nodup ∧ ∀ side ∈ sides, side ∈ sidesAll) (py "SIDE_SET")
  let step := intervalMinutes * minute
  let slots ← slotsFrom P calendar instrument partitionId sides step endDt
    ((endDt - startDt) / step).toNat.succ startDt
  require (slots.map (·.slotId)).Nodup (py "DUPLICATE_SLOT_ID")
  return slots

/-! ## Evidence -/

/-- `PROHIBITED_CAUSAL_KEYS`. -/
def prohibitedCausalKeys : List String :=
  ["parent_id", "parent_state", "future", "future_value", "outcome", "forward_outcome",
    "next_state"]

/-- `parse_time(row[field])` of a text. -/
def rowTime (row : Record) (name : String) : Except Error Instant := do
  match ← field row name with
  | .str s => parse P s
  | _ => .error (.python .attributeError)

/-- The key of an evidence row. -/
def evidenceKey (row : Record) : Except Error (PyStr × PyStr × PyStr) := do
  check (∀ key ∈ prohibitedCausalKeys, py key ∉ row.keys)
    (.observation (py "PROHIBITED_CAUSAL_KEY:" ++
      py ((prohibitedCausalKeys.find? fun key => py key ∈ row.keys).getD "")))
  let side ← match row.get? (py "side") with
    | some (.str side) => .ok side
    | _ => .error (.observation (py "EVIDENCE_SIDE"))
  require (side ∈ sidesAll) (py "EVIDENCE_SIDE")
  let start ← rowTime P row "interval_start"
  let stop ← rowTime P row "interval_end"
  let start' ← parse P (iso P start)
  let stop' ← parse P (iso P stop)
  require (start' < stop') (py "EVIDENCE_INTERVAL")
  return (iso P start, iso P stop, side)

/-- `_evidence_index`. -/
def evidenceIndex (rows : List Record) :
    Except Error (Dict (PyStr × PyStr × PyStr) Record) :=
  rows.foldlM (fun index row => do
    let key ← evidenceKey P row
    require (key ∉ index.keys) (py "DUPLICATE_EVIDENCE")
    return index ++ [(key, Dict.set (row.set (py "interval_start") (.str key.1))
      (py "interval_end") (.str key.2.1))]) []

end Observation

/-- An observation: the fields the continuity scan reads or writes, and the others. -/
structure Observation where
  observationId : PyStr
  instrument : PyStr
  side : PyStr
  intervalStart : PyStr
  intervalEnd : PyStr
  slotId : PyStr
  expectationStatus : PyStr
  evidenceStatus : PyStr
  evidenceReason : Option PyStr
  sourceRecordId : PyVal
  eligible : Bool
  eligibilityReason : Option PyStr
  continuityStatus : Option PyStr
  segmentId : Option PyStr
  /-- `schema`, `first_valid_time`, `partition_id`, `calendar`, `lineage`, `lattice_memberships`,
  `maturity` and `authority`. -/
  details : Record
  contentSha256 : Option PyStr

namespace Observation

variable (P : Platform)

/-- The payload the content hash is taken of. -/
def payload (o : Observation) : Record :=
  [(py "observation_id", .str o.observationId), (py "instrument", .str o.instrument),
    (py "side", .str o.side), (py "interval_start", .str o.intervalStart),
    (py "interval_end", .str o.intervalEnd), (py "slot_id", .str o.slotId),
    (py "expectation", .ofRecord [(py "status", .str o.expectationStatus)]),
    (py "evidence", .ofRecord [(py "status", .str o.evidenceStatus),
      (py "reason", .ofStr? o.evidenceReason), (py "source_record_id", o.sourceRecordId)]),
    (py "projection_eligibility", .ofRecord [(py "eligible", .bool o.eligible),
      (py "reason", .ofStr? o.eligibilityReason)]),
    (py "continuity", .ofRecord [(py "status", .ofStr? o.continuityStatus),
      (py "segment_id", .ofStr? o.segmentId)])] ++ o.details

/-- The evidence of a slot: its status and its reason. -/
def evidenceOf (absenceClasses : Dict PyStr PyStr) (slot : Slot) (row : Option Record) :
    Except Error (PyStr × Option PyStr) :=
  let reasonOr (row : Record) (default : String) : Except Error (Option PyStr) :=
    match row.get? (py "reason") with
    | some v => if v.truthy then ((v.strOf P).mapError .python).map some else .ok (py default)
    | none => .ok (py default)
  let openSlot := slot.expectation.status ∉
    [py "SCHEDULED_CLOSURE", py "EXCEPTIONAL_CLOSURE", py "OUTSIDE_EFFECTIVE_RANGE"]
  match row with
  | none =>
    if ¬ openSlot then .ok (py "NOT_EXPECTED", none)
    else
      let absenceClass := (absenceClasses.get? slot.slotId).getD (py "PROVIDER_ABSENCE")
      if absenceClass = py "UNKNOWN" then
        .ok (py "UNKNOWN_ABSENCE", some (py "UNKNOWN_ABSENCE"))
      else do
        require (absenceClass ∈ [py "PROVIDER_ABSENCE", py "SOURCE_GAP"]) (py "ABSENCE_CLASS")
        return (py "ABSENT", some absenceClass)
  | some row =>
    if ¬ openSlot then .ok (py "CORRUPT", some (py "EVIDENCE_DURING_NON_OPEN_INTERVAL"))
    else if ((row.get? (py "corrupt")).getD (.bool false)).truthy then
      (reasonOr row "SOURCE_CORRUPTION").map fun reason => (py "CORRUPT", reason)
    else if !((row.get? (py "complete")).getD (.bool true)).truthy then
      (reasonOr row "INCOMPLETE_SOURCE_EVIDENCE").map fun reason =>
        (py "PRESENT_INCOMPLETE", reason)
    else .ok (py "PRESENT_COMPLETE", none)

/-- `row.get(field) if row else None`. -/
def rowField (row : Option Record) (name : String) : PyVal :=
  match row with
  | some row => (row.get? (py name)).getD .none
  | none => .none

/-- The observation of a slot. -/
def observe (lattices : List LatticeProfile) (absenceClasses : Dict PyStr PyStr)
    (index : Dict (PyStr × PyStr × PyStr) Record) (slot : Slot) : Except Error Observation := do
  let row := index.get? slot.key
  let (evidenceStatus, evidenceReason) ← evidenceOf P absenceClasses slot row
  let expectationStatus := slot.expectation.status
  let eligible := decide (expectationStatus = py "EXPECTED_EVIDENCE" ∧
    evidenceStatus = py "PRESENT_COMPLETE")
  let identity : Record :=
    [(py "schema", .str (py "c2_observation/vnext-r1")), (py "instrument", .str slot.instrument),
      (py "side", .str slot.side), (py "interval_start", .str slot.intervalStart),
      (py "interval_end", .str slot.intervalEnd), (py "slot_id", .str slot.slotId),
      (py "calendar_id", .str slot.expectation.calendarId),
      (py "partition_id", .str slot.partitionId)]
  let observationId ← digest P "C2.OBSERVATION" (.ofRecord identity)
  let memberships ← lattices.mapM fun profile => do
    let start ← parse P slot.intervalStart
    let stop ← parse P slot.intervalEnd
    profile.membership P observationId start stop
  let lineage : Record :=
    ["opt_a_release_id", "opt_a_record_id", "c1_release_id", "c1_record_id"].map fun name =>
      (py name, rowField row name)
  let observation : Observation :=
    { observationId, instrument := slot.instrument, side := slot.side
      intervalStart := slot.intervalStart, intervalEnd := slot.intervalEnd, slotId := slot.slotId
      expectationStatus, evidenceStatus, evidenceReason
      sourceRecordId := rowField row "source_record_id", eligible
      eligibilityReason :=
        if eligible then none else some (expectationStatus ++ py ":" ++ evidenceStatus)
      continuityStatus := none, segmentId := none
      details := [(py "schema", .str (py "c2_observation/vnext-r1")),
        (py "first_valid_time", .str slot.intervalEnd),
        (py "partition_id", .str slot.partitionId), (py "calendar", slot.expectation.toVal),
        (py "lineage", .ofRecord lineage), (py "lattice_memberships", .list memberships),
        (py "maturity", .str (py "SHADOW_EXPERIMENT")),
        (py "authority", .ofRecord (["active_selector", "release", "publication", "semantic"].map
          fun name => (py name, .str (py "NONE"))))]
      contentSha256 := none }
  let hash ← contentHash P (.ofRecord observation.payload)
  return { observation with contentSha256 := some hash }

/-- `bind_evidence`, with the lattices and absence classes it was given or its defaults. -/
def bindEvidence (slots : List Slot) (evidenceRows : List Record)
    (lattices : List LatticeProfile) (absenceClasses : Dict PyStr PyStr) :
    Except Error (List Observation) := do
  let index ← evidenceIndex P evidenceRows
  require (∀ key ∈ index.keys, key ∈ slots.map (·.key)) (py "UNEXPECTED_EVIDENCE_INTERVAL")
  let observations ← slots.mapM (observe P lattices absenceClasses index)
  require (observations.length = slots.length) (py "SLOT_OBSERVATION_CARDINALITY")
  require ((observations.map (·.slotId)).dedup.length = slots.length)
    (py "SLOT_ACCOUNTED_MORE_THAN_ONCE")
  return observations

/-! ## Continuity -/

/-- The variables of the scan of a stream. -/
structure Scan where
  activeSegment : Option PyStr
  previousEnd : Option PyStr
  previousEligible : Bool
  segmentOrdinal : Nat

/-- The payload the id of a segment is the hash of. -/
def segmentIdentity (instrument side start : PyStr) (ordinal : Nat) : PyVal :=
  .ofRecord [(py "instrument", .str instrument), (py "side", .str side),
    (py "start", .str start), (py "ordinal", .int ordinal)]

/-- The status of an observation that breaks continuity. -/
def breakStatus (boundaries : List PyStr) (o : Observation) : Option PyStr :=
  if o.intervalStart ∈ boundaries then some (py "PARTITION_BOUNDARY")
  else if o.expectationStatus ∈ [py "SCHEDULED_CLOSURE", py "EXCEPTIONAL_CLOSURE"] then
    some (py "CLOSURE_BOUNDARY")
  else if o.evidenceStatus = py "UNKNOWN_ABSENCE" then some (py "UNKNOWN_BREAK")
  else if !o.eligible then some (py "GAP_RESET")
  else none

/-- The status and the active segment of an observation, and the number of segments so far. -/
def Scan.visit (instrument side : PyStr) (boundaries : List PyStr) (scan : Scan)
    (o : Observation) : Except Error (PyStr × Option PyStr × Nat) :=
  match breakStatus boundaries o with
  | some status => .ok (status, none, scan.segmentOrdinal)
  | none =>
    if scan.previousEligible = true ∧ scan.previousEnd = some o.intervalStart ∧
        scan.activeSegment.isSome = true then
      .ok (py "CONTIGUOUS", scan.activeSegment, scan.segmentOrdinal)
    else do
      let segment ← digest P "C2.CONTINUITY.SEGMENT"
        (segmentIdentity instrument side o.intervalStart (scan.segmentOrdinal + 1))
      return (py "SEGMENT_START", some segment, scan.segmentOrdinal + 1)

/-- The observations of a stream with their continuity. -/
def scanStream (instrument side : PyStr) (boundaries : List PyStr) :
    List Observation → Scan → Except Error (List Observation)
  | [], _ => .ok []
  | o :: os, scan => do
    let (status, active, ordinal) ← scan.visit P instrument side boundaries o
    let o' := { o with
      continuityStatus := some status, segmentId := if o.eligible then active else none }
    let hash ← contentHash P (.ofRecord o'.payload)
    let rest ← scanStream instrument side boundaries os
      ⟨active, some o.intervalEnd, o.eligible, ordinal⟩
    return { o' with contentSha256 := some hash } :: rest

/-- The stream an observation belongs to. -/
def stream (o : Observation) : PyStr ×ₗ PyStr := toLex (o.instrument, o.side)

/-- The observations of a stream in the order they are scanned. -/
def streamOf (observations : List Observation) (key : PyStr ×ₗ PyStr) : List Observation :=
  sortedBy (fun o => toLex (o.intervalStart, o.observationId))
    (observations.filter fun o => o.stream = key)

/-- `assign_continuity`. -/
def assignContinuity (observations : List Observation) (partitionBoundaryStarts : List TimeArg) :
    Except Error (List Observation) := do
  let boundaries ← partitionBoundaryStarts.mapM fun t => (parseArg P t).map (iso P)
  let streams ← (sortedSet (observations.map stream)).mapM fun key =>
    scanStream P (ofLex key).1 (ofLex key).2 boundaries (streamOf observations key)
      ⟨none, none, false, 0⟩
  return sortedBy (fun o => toLex (o.intervalStart, toLex (o.side, o.observationId))) streams.flatten

end Observation

end OvcReplay.C2Vnext
