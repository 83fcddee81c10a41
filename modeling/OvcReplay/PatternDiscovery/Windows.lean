import OvcReplay.PatternDiscovery.Snapshot
import OvcReplay.Python.Raising

/-! # Candidate windows

`windows.py`: the manager of candidate windows. A trigger opens a window, is merged into an open one
or is suppressed by a cap; snapshots accumulate in an open window until it is closed, invalidated or
stopped. A merged trigger writes its ids before it reads the quality of its snapshot, which may
raise; every other call raises before it writes. -/

namespace OvcReplay.PatternDiscovery

open Python

/-! ## Records -/

/-- The status of a window. -/
inductive Status where
  /-- `OPEN`. -/
  | opened
  | openPendingInput
  | accumulating
  | readyForReview
  | reviewed
  | dismissed
  | invalid
  | suppressedDuplicate
  | suppressedQueueCap
  deriving DecidableEq, Repr

/-- `_OPEN_STATUSES`. -/
def openStatuses : List Status := [.opened, .openPendingInput, .accumulating]

/-- `_TERMINAL_STATUSES`. -/
def terminalStatuses : List Status :=
  [.readyForReview, .reviewed, .dismissed, .invalid, .suppressedDuplicate, .suppressedQueueCap]

/-- `_CONTROL_CLASSES`. -/
def controlClasses : List PyStr := [py "NONE", py "MATCHED_CONTROL", py "POPULATION_CONTROL"]

/-- The public record of a window. -/
structure PublicRecord where
  windowId : PyStr
  status : Status
  operationMode : PyVal
  instrument : PyStr
  priceSide : PyStr
  clock : PyStr
  scopeId : PyStr
  windowStartUtc : PyStr
  triggerFirstValidAt : PyVal
  windowEndUtc : Option PyStr
  closureReason : Option PyStr
  triggerEventIds : List PyStr
  triggerSnapshotHash : PyStr
  completedFingerprintHash : Option PyStr
  sourceReleaseId : PyStr
  sourceManifestId : PyStr
  sourceC2RecordIds : List PyStr
  closureProfileId : PyVal
  candidateDedupKey : PyStr
  controlClass : PyStr
  qualityState : PyStr
  suppressionReason : Option PyStr
  deriving DecidableEq

/-- `_RuntimeWindow`. -/
structure RuntimeWindow where
  publicRecord : PublicRecord
  triggerFamily : PyStr
  closureProfileId : PyStr
  lastSnapshot : C2Snapshot
  parentContainerId : PyStr
  deriving DecidableEq

/-- `CandidateWindowManager`. -/
structure Manager where
  maxOpenPerFamilyScope : Nat
  maxOpenPerInstrument : Nat
  windows : Dict PyStr RuntimeWindow
  sourceBindingActive : Bool

/-- The constructor. -/
def Manager.create (maxOpenPerFamilyScope maxOpenPerInstrument : Nat) :
    Except WindowError Manager := do
  check (¬ (maxOpenPerFamilyScope < 1 ∨ maxOpenPerInstrument < 1)) (.python .valueError)
  return { maxOpenPerFamilyScope, maxOpenPerInstrument, windows := [], sourceBindingActive := true }

variable (w : RuntimeWindow)

/-- The window is open. -/
def RuntimeWindow.IsOpen : Prop := w.publicRecord.status ∈ openStatuses

instance (w : RuntimeWindow) : Decidable w.IsOpen := by
  unfold RuntimeWindow.IsOpen
  infer_instance

/-- The status of the window is a terminal one. -/
def RuntimeWindow.IsTerminal : Prop :=
  w.publicRecord.status ∈ terminalStatuses

variable (s : Manager)

/-- `_open_windows`. -/
def Manager.openWindows : List RuntimeWindow :=
  (s.windows.map Prod.snd).filter fun w => w.IsOpen

/-- `self._windows[window_id] = runtime`. -/
def Manager.write (windowId : PyStr) (runtime : RuntimeWindow) : Manager :=
  { s with windows := s.windows.set windowId runtime }

/-! ## Triggers -/

/-- `candidate_dedup_key`. -/
def candidateDedupKey (snapshot : C2Snapshot) (triggerFamily openWindowEpoch : PyStr) : PyStr :=
  (py "|").intercalate [py "GBPUSD", snapshot.side, snapshot.clock, snapshot.evaluationScopeId,
    triggerFamily, snapshot.parentContainerId, snapshot.boundaryOrRelationId, openWindowEpoch]

/-- What the checks of `open_from_trigger` read from its arguments. -/
structure Trigger where
  snapshot : C2Snapshot
  event : Record
  family : PyStr
  controlClass : PyStr
  time : PyStr
  closureProfile : PyStr
  eventId : PyStr
  baseDedupKey : PyStr

section

variable (P : Platform)

/-- The checks of `open_from_trigger`. -/
def readTrigger (snapshotRecord : SnapshotRecord) (event : Record) (family : PyStr)
    (openWindowEpoch : Option PyStr) (controlClass : PyStr) : Except WindowError Trigger := do
  let snapshot ← snapshotRecord.read P
  check (controlClass ∈ controlClasses)
    (.discovery (py "unsupported control class: " ++ controlClass))
  let time ← textOf P ((event.get? (py "first_valid_at")).getD .none)
  let _ ← parseUtc P time
  check (time = snapshot.firstValidTime)
    (.chronology (py "candidate trigger must bind the exact first-valid C2 snapshot"))
  let closureProfile ← textOf P (orElse (event.get? (py "closure_profile_id")) (.str []))
  check (closureProfile ≠ []) (.discovery (py "TriggerEvent requires closure_profile_id"))
  let eventId ← textOf P (orElse (event.get? (py "trigger_event_id")) (.str []))
  check (eventId ≠ []) (.discovery (py "TriggerEvent requires trigger_event_id"))
  let epoch := if openWindowEpoch.getD [] ≠ [] then openWindowEpoch.getD [] else time
  let _ ← parseUtc P epoch
  return { snapshot, event, family, controlClass, time, closureProfile, eventId,
           baseDedupKey := candidateDedupKey snapshot family epoch }

/-- `_trigger_snapshot_hash`. -/
def triggerSnapshotHash (snapshot : C2Snapshot) (event : Record) (family : PyStr) :
    Except WindowError PyStr :=
  canonicalSha256 P (.ofRecord
    [(py "c2_state_id", .str snapshot.c2StateId), (py "release_id", .str snapshot.c2ReleaseId),
      (py "manifest_id", .str snapshot.c2ManifestId),
      (py "first_valid_time", .str snapshot.firstValidTime), (py "clock", .str snapshot.clock),
      (py "side", .str snapshot.side), (py "scope_id", .str snapshot.evaluationScopeId),
      (py "parameter_pack_id", .str snapshot.parameterPackId),
      (py "selector_id", .str snapshot.selectorId), (py "axes", .ofRecord snapshot.axes),
      (py "relation_set_id", .str snapshot.relationSetId),
      (py "level_ids", .tuple (snapshot.levelIds.map .str)),
      (py "container_ids", .tuple (snapshot.containerIds.map .str)),
      (py "parent_container_id", .str snapshot.parentContainerId),
      (py "boundary_or_relation_id", .str snapshot.boundaryOrRelationId),
      (py "trigger_event", .ofRecord event), (py "trigger_family", .str family)])

variable (t : Trigger)

/-- `trigger_event[key]`. -/
def Trigger.field (key : PyStr) : Except WindowError PyVal :=
  match t.event.get? key with
  | some v => .ok v
  | none => .error (.python .keyError)

/-- `PDW-` with the first 32 digits of the hash of an identity. -/
def windowId (identity : Record) : Except WindowError PyStr := do
  let hash ← canonicalSha256 P (.ofRecord identity)
  return py "PDW-" ++ hash.take 32

/-- The id of the window that a trigger opens under a key. -/
def openedId (dedupKey : PyStr) : Except WindowError PyStr := do
  let hash ← triggerSnapshotHash P t.snapshot t.event t.family
  windowId P [(py "candidate_dedup_key", .str dedupKey), (py "trigger_event_id", .str t.eventId),
    (py "closure_profile_id", .str t.closureProfile), (py "trigger_snapshot_hash", .str hash)]

/-- The id of the record that is kept of a suppressed trigger. -/
def suppressedId (dedupKey suppressionReason : PyStr) : Except WindowError PyStr := do
  let closureProfileId ← t.field (py "closure_profile_id")
  windowId P [(py "dedup_key", .str dedupKey), (py "trigger_event_id", .str t.eventId),
    (py "closure_profile_id", closureProfileId), (py "suppression_reason", .str suppressionReason)]

/-- `_suppressed_window`, up to the store. -/
def suppressedWindow (dedupKey suppressionReason : PyStr) :
    Except WindowError RuntimeWindow := do
  let windowId ← suppressedId P t dedupKey suppressionReason
  let operationMode ← t.field (py "operation_mode")
  let triggerFirstValidAt ← t.field (py "first_valid_at")
  let triggerSnapshotHash ← triggerSnapshotHash P t.snapshot t.event t.family
  let closureProfileId ← t.field (py "closure_profile_id")
  let qualityState ← t.snapshot.qualityState P
  return {
    publicRecord := {
      windowId, status := .suppressedQueueCap, operationMode, instrument := py "GBPUSD",
      priceSide := t.snapshot.side, clock := t.snapshot.clock,
      scopeId := t.snapshot.evaluationScopeId, windowStartUtc := t.snapshot.firstValidTime,
      triggerFirstValidAt, windowEndUtc := some t.snapshot.firstValidTime, closureReason := none,
      triggerEventIds := [t.eventId], triggerSnapshotHash, completedFingerprintHash := none,
      sourceReleaseId := t.snapshot.c2ReleaseId, sourceManifestId := t.snapshot.c2ManifestId,
      sourceC2RecordIds := [t.snapshot.c2StateId], closureProfileId, candidateDedupKey := dedupKey,
      controlClass := t.controlClass, qualityState, suppressionReason := some suppressionReason }
    triggerFamily := t.family, closureProfileId := t.closureProfile, lastSnapshot := t.snapshot,
    parentContainerId := t.snapshot.parentContainerId }

/-- The window that a trigger opens, up to the store. -/
def openedWindow (dedupKey : PyStr) : Except WindowError RuntimeWindow := do
  let triggerSnapshotHash ← triggerSnapshotHash P t.snapshot t.event t.family
  let windowId ← openedId P t dedupKey
  let operationMode ← t.field (py "operation_mode")
  let qualityState ← t.snapshot.qualityState P
  return {
    publicRecord := {
      windowId, status := .opened, operationMode, instrument := py "GBPUSD",
      priceSide := t.snapshot.side, clock := t.snapshot.clock,
      scopeId := t.snapshot.evaluationScopeId, windowStartUtc := t.snapshot.firstValidTime,
      triggerFirstValidAt := .str t.time, windowEndUtc := none, closureReason := none,
      triggerEventIds := [t.eventId], triggerSnapshotHash, completedFingerprintHash := none,
      sourceReleaseId := t.snapshot.c2ReleaseId, sourceManifestId := t.snapshot.c2ManifestId,
      sourceC2RecordIds := [t.snapshot.c2StateId], closureProfileId := .str t.closureProfile,
      candidateDedupKey := dedupKey, controlClass := t.controlClass, qualityState,
      suppressionReason := none }
    triggerFamily := t.family, closureProfileId := t.closureProfile, lastSnapshot := t.snapshot,
    parentContainerId := t.snapshot.parentContainerId }

/-! ## Where a trigger goes -/

/-- The window is open under this key and closure profile. -/
def RuntimeWindow.Takes (key closureProfile : PyStr) : Prop :=
  w.IsOpen ∧ w.publicRecord.candidateDedupKey = key ∧ w.closureProfileId = closureProfile

instance (w : RuntimeWindow) (key closureProfile : PyStr) :
    Decidable (w.Takes key closureProfile) := by
  unfold RuntimeWindow.Takes
  infer_instance

/-- The loop of `open_from_trigger`: the first open window of the key and the closure profile. -/
def Manager.matching : Option (PyStr × RuntimeWindow) :=
  s.windows.find? fun p => p.2.Takes t.baseDedupKey t.closureProfile

/-- The key a window is opened under: with the closure profile, when an open window of another
profile has the base key. -/
def Manager.dedupKey : PyStr :=
  if s.openWindows.any fun w =>
      w.publicRecord.candidateDedupKey = t.baseDedupKey ∧
        w.closureProfileId ≠ t.closureProfile then
    t.baseDedupKey ++ py "|" ++ t.closureProfile
  else t.baseDedupKey

/-- The window is one of this family, clock, side and scope. -/
def RuntimeWindow.InFamilyScope (family clock side scope : PyStr) : Prop :=
  w.triggerFamily = family ∧ w.publicRecord.instrument = py "GBPUSD" ∧
    w.publicRecord.clock = clock ∧ w.publicRecord.priceSide = side ∧
    w.publicRecord.scopeId = scope

instance (w : RuntimeWindow) (family clock side scope : PyStr) :
    Decidable (w.InFamilyScope family clock side scope) := by
  unfold RuntimeWindow.InFamilyScope
  infer_instance

/-- The open windows of a family, clock, side and scope. -/
def Manager.familyScopeCount (family clock side scope : PyStr) : Nat :=
  s.openWindows.countP fun w => w.InFamilyScope family clock side scope

/-- The open windows of the instrument. -/
def Manager.instrumentCount : Nat :=
  s.openWindows.countP fun w => w.publicRecord.instrument = py "GBPUSD"

/-- The window that is stored for a trigger that is not merged. -/
def Manager.admitted (s : Manager) (t : Trigger) : Except WindowError RuntimeWindow :=
  if s.familyScopeCount t.family t.snapshot.clock t.snapshot.side t.snapshot.evaluationScopeId ≥
      s.maxOpenPerFamilyScope then
    suppressedWindow P t (s.dedupKey t) (py "PER_FAMILY_SCOPE_OPEN_CAP")
  else if s.instrumentCount ≥ s.maxOpenPerInstrument then
    suppressedWindow P t (s.dedupKey t) (py "INSTRUMENT_OPEN_WINDOW_CAP")
  else openedWindow P t (s.dedupKey t)

/-! ## Calls -/

/-- What a merged trigger writes before it reads the quality. -/
def RuntimeWindow.merged : RuntimeWindow :=
  { w with publicRecord := { w.publicRecord with
      triggerEventIds := sortedSet (w.publicRecord.triggerEventIds ++ [t.eventId])
      sourceC2RecordIds := sortedSet (w.publicRecord.sourceC2RecordIds ++ [t.snapshot.c2StateId])
      status := .accumulating } }

/-- `runtime.public["quality_state"] = quality_state`. -/
def RuntimeWindow.withQuality (quality : PyStr) : RuntimeWindow :=
  { w with publicRecord := { w.publicRecord with qualityState := quality } }

/-- `runtime.public["status"] = status`. -/
def RuntimeWindow.withStatus (status : Status) : RuntimeWindow :=
  { w with publicRecord := { w.publicRecord with status } }

/-- A window that is ended. -/
def RuntimeWindow.ended (status : Status) (endUtc reason : PyStr) : RuntimeWindow :=
  { w with publicRecord := { w.publicRecord with
      status, windowEndUtc := some endUtc, closureReason := some reason } }

/-- A window to which a snapshot is added. -/
def RuntimeWindow.extended (snapshot : C2Snapshot) (quality : PyStr) : RuntimeWindow :=
  { w with
    publicRecord := { w.publicRecord with
      sourceC2RecordIds := sortedSet (w.publicRecord.sourceC2RecordIds ++ [snapshot.c2StateId])
      status := .accumulating
      qualityState := quality }
    lastSnapshot := snapshot }

/-- A method of the manager. -/
abbrev Method (α : Type) : Type := Raising WindowError Manager α

open Raising

variable (windowId : PyStr)

/-- `self._windows[window_id] = runtime`, and the copy of its record. -/
def put (runtime : RuntimeWindow) : Method PublicRecord := do
  modify fun s => s.write windowId runtime
  return runtime.publicRecord

/-- `open_from_trigger`. -/
def openFromTrigger (snapshotRecord : SnapshotRecord) (event : Record) (family : PyStr)
    (openWindowEpoch : Option PyStr) (controlClass : PyStr) : Method PublicRecord := do
  let s ← get
  require (s.sourceBindingActive = true) (.sourceBinding
    (py "Pattern Discovery source binding is stopped and requires a new operator rebind"))
  let t ← lift (readTrigger P snapshotRecord event family openWindowEpoch controlClass)
  match s.matching t with
  | some (windowId, runtime) => do
    let _ ← put windowId (runtime.merged t)
    let quality ← lift (t.snapshot.qualityState P)
    put windowId ((runtime.merged t).withQuality quality)
  | none => do
    let runtime ← lift (s.admitted P t)
    put runtime.publicRecord.windowId runtime

/-- `_require`. -/
def Manager.require : Except WindowError RuntimeWindow :=
  match s.windows.get? windowId with
  | some runtime => .ok runtime
  | none => .error (.discovery (py "unknown candidate window: " ++ windowId))

/-- `close`. -/
def close (windowId endUtc closureReason : PyStr) : Method PublicRecord := do
  let s ← get
  let runtime ← lift (s.require windowId)
  require runtime.IsOpen (.discovery (py "only open candidates may close"))
  let end' ← lift (parseUtc P endUtc)
  let start ← lift (parseUtc P runtime.publicRecord.windowStartUtc)
  require (start ≤ end') (.chronology (py "candidate end cannot predate start"))
  put windowId (runtime.ended .readyForReview endUtc closureReason)

/-- `invalidate`. -/
def invalidate (windowId endUtc reason : PyStr) : Method PublicRecord := do
  let s ← get
  let runtime ← lift (s.require windowId)
  require (runtime.publicRecord.status ∉ terminalStatuses)
    (.discovery (py "terminal candidate cannot be rewritten"))
  let _ ← lift (parseUtc P endUtc)
  put windowId (runtime.ended .invalid endUtc reason)

/-- `accumulate`. -/
def accumulate (snapshotRecord : SnapshotRecord) : Method PublicRecord := do
  let s ← get
  let runtime ← lift (s.require windowId)
  require runtime.IsOpen (.discovery (py "candidate " ++ windowId ++ py " is not open"))
  let snapshot ← lift (snapshotRecord.read P)
  require (snapshot.bindingKey = runtime.lastSnapshot.bindingKey)
    (.sourceBinding (py "candidate accumulation cannot cross source binding"))
  let time ← lift (parseUtc P snapshot.firstValidTime)
  let last ← lift (parseUtc P runtime.lastSnapshot.firstValidTime)
  require (last < time) (.chronology (py "candidate accumulation must be strictly chronological"))
  if snapshot.gapBefore = true then
    close P windowId snapshot.firstValidTime (py "CENSORED_GAP")
  else if snapshot.authorityState = py "QUARANTINED" then
    invalidate P windowId snapshot.firstValidTime (py "INVALID_SOURCE_QUARANTINED")
  else do
    let quality ← lift (snapshot.qualityState P)
    if quality = py "QUARANTINED" then
      invalidate P windowId snapshot.firstValidTime (py "INVALID_SOURCE_QUARANTINED")
    else if snapshot.parentContainerId ≠ runtime.parentContainerId then
      close P windowId snapshot.firstValidTime (py "CENSORED_CONTEXT_CHANGE")
    else put windowId (runtime.extended snapshot quality)

/-- `mark_pending_input`. -/
def markPendingInput : Method PublicRecord := do
  let s ← get
  let runtime ← lift (s.require windowId)
  require (runtime.publicRecord.status = .opened ∨ runtime.publicRecord.status = .accumulating)
    (.discovery (py "only open candidates may wait for input"))
  put windowId (runtime.withStatus .openPendingInput)

/-- `resume_after_validated_input`. -/
def resumeAfterValidatedInput : Method PublicRecord := do
  let s ← get
  let runtime ← lift (s.require windowId)
  require (runtime.publicRecord.status = .openPendingInput)
    (.discovery (py "candidate is not pending input"))
  put windowId (runtime.withStatus .accumulating)

/-- A window that the change of the selector stops. -/
def RuntimeWindow.stopped (endUtc : PyStr) (w : RuntimeWindow) : RuntimeWindow :=
  if w.IsOpen then w.ended .invalid endUtc (py "SOURCE_SELECTOR_CHANGED") else w

/-- `stop_for_selector_change`. -/
def stopForSelectorChange (endUtc : PyStr) : Method (List PublicRecord) := do
  let _ ← lift (parseUtc P endUtc)
  let s ← get
  modify fun s => { s with
    sourceBindingActive := false
    windows := s.windows.map fun p => (p.1, p.2.stopped endUtc) }
  return sortedBy PublicRecord.windowId (s.openWindows.map fun w => (w.stopped endUtc).publicRecord)

/-- A call of the manager. -/
inductive Call where
  | openFromTrigger (snapshotRecord : SnapshotRecord) (event : Record) (family : PyStr)
      (openWindowEpoch : Option PyStr) (controlClass : PyStr)
  | accumulate (windowId : PyStr) (snapshotRecord : SnapshotRecord)
  | markPendingInput (windowId : PyStr)
  | resumeAfterValidatedInput (windowId : PyStr)
  | close (windowId endUtc closureReason : PyStr)
  | invalidate (windowId endUtc reason : PyStr)
  | stopForSelectorChange (endUtc : PyStr)

/-- What a call returns: the records it shows. -/
def step : Call → Method (List PublicRecord)
  | .openFromTrigger snapshotRecord event family openWindowEpoch controlClass => do
    return [← openFromTrigger P snapshotRecord event family openWindowEpoch controlClass]
  | .accumulate windowId snapshotRecord => do
    return [← accumulate P windowId snapshotRecord]
  | .markPendingInput windowId => do
    return [← markPendingInput windowId]
  | .resumeAfterValidatedInput windowId => do
    return [← resumeAfterValidatedInput windowId]
  | .close windowId endUtc closureReason => do
    return [← close P windowId endUtc closureReason]
  | .invalidate windowId endUtc reason => do
    return [← invalidate P windowId endUtc reason]
  | .stopForSelectorChange endUtc => stopForSelectorChange P endUtc

end

end OvcReplay.PatternDiscovery
