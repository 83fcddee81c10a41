import OvcReplay.Json.Dumps

/-! # The episode ledger

`episode_ledger.py`: the records of one scope, in the order of their times, are scanned into
episodes. An episode grows record by record and is closed by a completion, a reset, a change of the
parent, a record that cannot be evaluated or the end of the input. -/

namespace OvcReplay.MarketGrammar

open Python Json

/-- `ValueError` with its text, or another exception of the language. -/
inductive LedgerError where
  | value (message : PyStr)
  | python (e : PyError)
  deriving DecidableEq, Repr

/-! ## Words -/

/-- `ComputabilityStatus`. -/
inductive ComputabilityStatus where
  | evaluable
  | notEvaluated
  | notEvaluable
  | stale
  | censored
  | conflict
  | quarantined
  deriving DecidableEq, Repr

/-- `ComputabilityStatus.value`. -/
def ComputabilityStatus.value : ComputabilityStatus → PyStr
  | .evaluable => py "EVALUABLE"
  | .notEvaluated => py "NOT_EVALUATED"
  | .notEvaluable => py "NOT_EVALUABLE"
  | .stale => py "STALE"
  | .censored => py "CENSORED"
  | .conflict => py "CONFLICT"
  | .quarantined => py "QUARANTINED"

/-- `ComputabilityStatus(value)`. -/
def ComputabilityStatus.ofValue (v : PyVal) : Except LedgerError ComputabilityStatus :=
  match [ComputabilityStatus.evaluable, .notEvaluated, .notEvaluable, .stale, .censored, .conflict,
    .quarantined].find? fun status => v = .str status.value with
  | some status => .ok status
  | none => .error (.python .valueError)

/-- `EpisodeStatus`. -/
inductive EpisodeStatus where
  | completed
  | interrupted
  | censored
  | openAtCutoff
  deriving DecidableEq, Repr

def EpisodeStatus.value : EpisodeStatus → PyStr
  | .completed => py "COMPLETED"
  | .interrupted => py "INTERRUPTED"
  | .censored => py "CENSORED"
  | .openAtCutoff => py "OPEN_AT_CUTOFF"

/-- `BoundaryCause`, without the cause that nothing uses. -/
inductive BoundaryCause where
  | parentChange
  | reset
  | completion
  | computabilityBreak
  | endOfInput
  deriving DecidableEq, Repr

def BoundaryCause.value : BoundaryCause → PyStr
  | .parentChange => py "PARENT_CHANGE"
  | .reset => py "RESET"
  | .completion => py "COMPLETION"
  | .computabilityBreak => py "COMPUTABILITY_BREAK"
  | .endOfInput => py "END_OF_INPUT"

/-- `PhaseKind`. -/
inductive PhaseKind where
  | start
  | state
  | transition
  | interruption
  | parentChange
  | completion
  deriving DecidableEq, Repr

def PhaseKind.value : PhaseKind → PyStr
  | .start => py "START"
  | .state => py "STATE"
  | .transition => py "TRANSITION"
  | .interruption => py "INTERRUPTION"
  | .parentChange => py "PARENT_CHANGE"
  | .completion => py "COMPLETION"

def policyId : PyStr := py "MG-C2E-BOUNDARY-v0.1"

/-- `ALLOWED`. -/
def allowed : List PyStr :=
  [py "record_id", py "source_release_id", py "instrument_id", py "side", py "scope_id",
    py "clock_id", py "first_valid_time", py "state_key", py "transition_kind",
    py "parent_record_id", py "computability_status", py "not_evaluable_reason",
    py "reset_reason", py "source_sha256"]

/-- `FORBIDDEN`. -/
def forbidden : List PyStr :=
  [py "family_id", py "cluster_id", py "medoid_id", py "variant_id", py "sensitivity_pack_id",
    py "distance", py "outcome", py "outcome_id", py "return", py "returns", py "mfe", py "mae",
    py "future_price", py "future_path", py "probability", py "risk", py "exposure",
    py "execution", py "trade_label", py "semantic_label", py "grammar_id", py "parse_id"]

/-- `COMPLETION`. -/
def completions : List PyStr := [py "COMPLETION", py "STRUCTURAL_COMPLETION", py "TERMINATION"]

/-- `INTERRUPTION`. -/
def interruptions : List PyStr := [py "INTERRUPTION", py "STRUCTURAL_INTERRUPTION"]

/-! ## Texts, times and ids -/

variable (P : Platform) (upper : PyStr → PyStr)

/-- `_text`, with the case as it is. -/
def text (v : PyVal) (field : PyStr) : Except LedgerError PyStr := do
  let s ← (v.strOf P).mapError .python
  check (strip s ≠ []) (.value (field ++ py " must be non-empty"))
  return strip s

/-- A final `Z` becomes an offset. -/
def withOffset (s : PyStr) : PyStr :=
  if s.getLast? = some (CodePoint.ofChar 'Z') then s.dropLast ++ py "+00:00" else s

/-- `_time`, always of the field of the times. -/
def time (v : PyVal) : Except LedgerError Int := do
  let s ← text P v (py "first_valid_time")
  match P.fromIsoFormat (withOffset s) with
  | none => .error (.value (py "first_valid_time must be ISO-8601"))
  | some d => do
    check (d.utcOffset.isSome = true) (.value (py "first_valid_time must be timezone-aware"))
    return d.instant

/-- `_ctime`. -/
def ctime (v : PyVal) : Except LedgerError PyStr := do
  let t ← time P v
  return P.isoText t ++ py "Z"

/-- `_id`. -/
def identify (leading : PyStr) (v : PyVal) : Except LedgerError PyStr := do
  let encoded ← ((dumpsNan P v).bind fun tree => encodeUtf8 tree.render).mapError .python
  return leading ++ (P.sha256 encoded).text

/-! ## Records -/

/-- `C2LedgerInput`. -/
structure C2LedgerInput where
  recordId : PyStr
  sourceReleaseId : PyStr
  instrumentId : PyStr
  side : PyStr
  scopeId : PyStr
  clockId : PyStr
  firstValidTime : PyStr
  stateKey : PyStr
  transitionKind : PyStr
  parentRecordId : Option PyStr
  computabilityStatus : ComputabilityStatus
  notEvaluableReason : Option PyStr
  resetReason : Option PyStr
  sourceSha256 : PyStr
  deriving DecidableEq

variable (value : Record)

/-- An argument that has no default. -/
def required (field : PyStr) : Except LedgerError PyVal :=
  ((value.get? field).map Except.ok).getD (.error (.python .typeError))

/-- An argument with its default. -/
def optional (field : PyStr) (default : PyVal) : PyVal :=
  (value.get? field).getD default

/-- A field that may be `None`. -/
def text? (field : PyStr) : Except LedgerError (Option PyStr) :=
  match optional value field .none with
  | .none => .ok none
  | v => (text P v field).map some

/-- A digit of `HEX64`. -/
def isHexDigit (c : CodePoint) : Bool :=
  (Nat.ble 48 c.val && Nat.ble c.val 57) || (Nat.ble 97 c.val && Nat.ble c.val 102)

/-- `C2LedgerInput.__post_init__`, of the arguments in `value`. Lowering a digest to ASCII is enough:
no other letter has a hexadecimal digit as its lower case. -/
def C2LedgerInput.postInit : Except LedgerError C2LedgerInput := do
  let required := fun field => do
    let v ← required value field
    text P v field
  let recordId ← required (py "record_id")
  let sourceReleaseId ← required (py "source_release_id")
  let instrumentId ← required (py "instrument_id")
  let scopeId ← required (py "scope_id")
  let clockId ← required (py "clock_id")
  let stateKey ← required (py "state_key")
  let side ← required (py "side")
  let when ← MarketGrammar.required value (py "first_valid_time")
  let firstValidTime ← ctime P when
  let transitionKind ←
    text P (optional value (py "transition_kind") (.str (py "NONE"))) (py "transition_kind")
  let computabilityStatus ← ComputabilityStatus.ofValue
    (optional value (py "computability_status") (.str (py "EVALUABLE")))
  let parentRecordId ← text? P value (py "parent_record_id")
  let notEvaluableReason ← text? P value (py "not_evaluable_reason")
  let resetReason ← text? P value (py "reset_reason")
  let digest ← text P (optional value (py "source_sha256") (.str [])) (py "source_sha256")
  let sourceSha256 := digest.map CodePoint.lowerAscii
  check (sourceSha256.length = 64 ∧ sourceSha256.all isHexDigit = true)
    (.value (py "source_sha256 must be a lowercase SHA-256 hex digest"))
  check (computabilityStatus = .evaluable ∨ notEvaluableReason ≠ none)
    (.value (py "non-evaluable inputs require an explicit not_evaluable_reason"))
  check (computabilityStatus = .evaluable → notEvaluableReason = none)
    (.value (py "EVALUABLE inputs cannot carry a not_evaluable_reason"))
  return { recordId, sourceReleaseId, instrumentId, side := upper side, scopeId, clockId,
           firstValidTime, stateKey, transitionKind := upper transitionKind, parentRecordId,
           computabilityStatus, notEvaluableReason, resetReason, sourceSha256 }

/-- `C2LedgerInput.from_mapping`. -/
def C2LedgerInput.fromMapping : Except LedgerError C2LedgerInput := do
  let named := sortedSet (value.keys.filter fun key => key ∈ forbidden)
  let unknown := sortedSet (value.keys.filter fun key => key ∉ allowed)
  check (named = []) (.value (py "downstream/future/outcome fields are forbidden: " ++
    List.intercalate (py ", ") named))
  check (unknown = []) (.value (py "unsupported C2 input fields: " ++
    List.intercalate (py ", ") unknown))
  C2LedgerInput.postInit P upper value

/-- `C2LedgerInput | Mapping[str, object]`. -/
inductive Submission where
  | record (x : C2LedgerInput)
  | mapping (value : Record)

/-- A record of the list. -/
def Submission.read : Submission → Except LedgerError C2LedgerInput
  | .record x => .ok x
  | .mapping value => C2LedgerInput.fromMapping P upper value

/-! ## Episodes -/

/-- `PhaseRecord`. -/
structure PhaseRecord where
  phaseId : PyStr
  episodeId : PyStr
  phaseIndex : Nat
  phaseKind : PhaseKind
  firstValidTime : PyStr
  sourceRecordId : PyStr
  stateKey : PyStr
  transitionKind : PyStr
  parentRecordId : Option PyStr
  deriving DecidableEq

/-- `EpisodeRecord`. -/
structure EpisodeRecord where
  episodeId : PyStr
  sourceReleaseId : PyStr
  instrumentId : PyStr
  side : PyStr
  scopeId : PyStr
  clockId : PyStr
  startFirstValidTime : PyStr
  endFirstValidTime : PyStr
  memberRecordIds : List PyStr
  memberSourceSha256 : List PyStr
  parentRecordIds : List PyStr
  phases : List PhaseRecord
  status : EpisodeStatus
  boundaryCause : BoundaryCause
  boundaryRecordId : Option PyStr
  censoringReason : Option PyStr
  deriving DecidableEq

/-- `NotEvaluableRecord`. -/
structure NotEvaluableRecord where
  sourceRecordId : PyStr
  firstValidTime : PyStr
  computabilityStatus : ComputabilityStatus
  reason : PyStr
  sourceSha256 : PyStr
  deriving DecidableEq

/-- `NotEvaluableRecord.to_dict`. -/
def NotEvaluableRecord.toDict (x : NotEvaluableRecord) : PyVal :=
  .ofRecord [
    (py "source_record_id", .str x.sourceRecordId),
    (py "first_valid_time", .str x.firstValidTime),
    (py "computability_status", .str x.computabilityStatus.value),
    (py "reason", .str x.reason),
    (py "source_sha256", .str x.sourceSha256)]

/-- `_phase`. -/
def phaseKind (record : C2LedgerInput) (first changed : Bool) : PhaseKind :=
  if changed then .parentChange
  else if first then .start
  else if record.transitionKind ∈ interruptions then .interruption
  else if record.transitionKind ∈ completions then .completion
  else if record.transitionKind ≠ py "NONE" then .transition
  else .state

/-- The phase of a member. -/
def phaseOf (episodeId : PyStr) (index : Nat) (record : C2LedgerInput) (kind : PhaseKind) :
    Except LedgerError PhaseRecord := do
  let phaseId ← identify P (py "C2E.PH.") (.ofRecord [
    (py "episode_id", .str episodeId),
    (py "phase_index", .int index),
    (py "phase_kind", .str kind.value),
    (py "first_valid_time", .str record.firstValidTime),
    (py "source_record_id", .str record.recordId),
    (py "state_key", .str record.stateKey),
    (py "transition_kind", .str record.transitionKind),
    (py "parent_record_id", .ofStr? record.parentRecordId)])
  return { phaseId, episodeId, phaseIndex := index, phaseKind := kind,
           firstValidTime := record.firstValidTime, sourceRecordId := record.recordId,
           stateKey := record.stateKey, transitionKind := record.transitionKind,
           parentRecordId := record.parentRecordId }

/-- `_finalise`, of a first member and the others. -/
def finalise (first : C2LedgerInput) (others : List C2LedgerInput) (kinds : List PhaseKind)
    (status : EpisodeStatus) (cause : BoundaryCause) (boundary reason : Option PyStr) :
    Except LedgerError EpisodeRecord := do
  let members := first :: others
  let last := others.getLastD first
  let episodeId ← identify P (py "C2E.EP.") (.ofRecord [
    (py "policy_id", .str policyId),
    (py "source_release_id", .str first.sourceReleaseId),
    (py "instrument_id", .str first.instrumentId),
    (py "side", .str first.side),
    (py "scope_id", .str first.scopeId),
    (py "clock_id", .str first.clockId),
    (py "start_first_valid_time", .str first.firstValidTime),
    (py "end_first_valid_time", .str last.firstValidTime),
    (py "member_record_ids", .ofStrs (members.map C2LedgerInput.recordId)),
    (py "member_source_sha256", .ofStrs (members.map C2LedgerInput.sourceSha256)),
    (py "status", .str status.value),
    (py "boundary_cause", .str cause.value),
    (py "boundary_record_id", .ofStr? boundary),
    (py "censoring_reason", .ofStr? reason)])
  let phases ← (members.zip kinds).zipIdx.mapM fun p => phaseOf P episodeId p.2 p.1.1 p.1.2
  return { episodeId, sourceReleaseId := first.sourceReleaseId, instrumentId := first.instrumentId,
           side := first.side, scopeId := first.scopeId, clockId := first.clockId,
           startFirstValidTime := first.firstValidTime, endFirstValidTime := last.firstValidTime,
           memberRecordIds := members.map C2LedgerInput.recordId,
           memberSourceSha256 := members.map C2LedgerInput.sourceSha256,
           parentRecordIds := sortedSet (members.filterMap C2LedgerInput.parentRecordId),
           phases, status, boundaryCause := cause, boundaryRecordId := boundary,
           censoringReason := reason }

/-! ## The scan -/

/-- The variables of the scan. -/
structure Scan where
  episodes : List EpisodeRecord
  excluded : List NotEvaluableRecord
  active : List C2LedgerInput
  kinds : List PhaseKind
  activeParent : Option PyStr

/-- The scan before the first record. -/
def Scan.empty : Scan := ⟨[], [], [], [], none⟩

variable (s : Scan)

/-- `close`. -/
def Scan.close (status : EpisodeStatus) (cause : BoundaryCause)
    (boundary reason : Option PyStr) : Except LedgerError Scan :=
  match s.active with
  | [] => .ok { s with active := [], kinds := [], activeParent := none }
  | first :: others => do
    let episode ← finalise P first others s.kinds status cause boundary reason
    return { s with episodes := s.episodes ++ [episode], active := [], kinds := [],
                    activeParent := none }

/-- `close` under a condition. -/
def Scan.closeIf (condition : Prop) [Decidable condition] (status : EpisodeStatus)
    (cause : BoundaryCause) (boundary reason : Option PyStr) : Except LedgerError Scan :=
  if condition then s.close P status cause boundary reason else .ok s

variable (record : C2LedgerInput)

/-- The record becomes a member. -/
def Scan.append (changed : Bool) : Scan where
  episodes := s.episodes
  excluded := s.excluded
  active := s.active ++ [record]
  kinds := s.kinds ++ [phaseKind record s.active.isEmpty changed]
  activeParent := if s.active.isEmpty then record.parentRecordId else s.activeParent

/-- The parent of the episode is not that of the record. -/
def Scan.Changed : Prop :=
  s.active.isEmpty = false ∧ record.parentRecordId ≠ s.activeParent

instance (s : Scan) (record : C2LedgerInput) : Decidable (s.Changed record) :=
  inferInstanceAs (Decidable (_ ∧ _))

/-- A record that cannot be evaluated. -/
def Scan.exclude : Except LedgerError Scan := do
  let s ← s.close P .censored .computabilityBreak (some record.recordId) record.notEvaluableReason
  return { s with excluded := s.excluded ++ [{
    sourceRecordId := record.recordId, firstValidTime := record.firstValidTime,
    computabilityStatus := record.computabilityStatus,
    reason := record.notEvaluableReason.getD (py "UNSPECIFIED"),
    sourceSha256 := record.sourceSha256 }] }

/-- A record that can be evaluated. -/
def Scan.include : Except LedgerError Scan := do
  let s ← s.closeIf P (record.resetReason ≠ none) .censored .reset (some record.recordId)
    record.resetReason
  let closed ← s.closeIf P (s.Changed record) .interrupted .parentChange (some record.recordId)
    (some (py "PARENT_RECORD_CHANGED"))
  let s := closed.append record (decide (s.Changed record))
  s.closeIf P (record.transitionKind ∈ completions) .completed .completion (some record.recordId)
    none

/-- The body of the loop. -/
def Scan.visit : Except LedgerError Scan :=
  if record.computabilityStatus = .evaluable then s.include P record else s.exclude P record

/-! ## The ledger -/

/-- `EpisodeLedger`. -/
structure EpisodeLedger where
  ledgerId : PyStr
  sourceReleaseId : PyStr
  instrumentId : PyStr
  side : PyStr
  scopeId : PyStr
  clockId : PyStr
  buildCutoff : PyStr
  inputRecordIds : List PyStr
  inputSourceSha256 : List PyStr
  episodes : List EpisodeRecord
  notEvaluable : List NotEvaluableRecord

variable (x : C2LedgerInput)

/-- The parts of the scope of a record. -/
def C2LedgerInput.scope : List PyStr :=
  [x.sourceReleaseId, x.instrumentId, x.side, x.scopeId, x.clockId]

/-- The instant of a record. -/
def C2LedgerInput.instant : Except LedgerError Int :=
  time P (.str x.firstValidTime)

/-- The key that the records are sorted by: the instant, then the id. -/
def timeKey (p : Int × C2LedgerInput) : Lex (Int × PyStr) := toLex (p.1, p.2.recordId)

/-- A record with its instant. -/
def timed : Except LedgerError (Int × C2LedgerInput) :=
  (x.instant P).map fun t => (t, x)

/-- The records in the order of their times, with these. -/
def inTimeOrder (values : List C2LedgerInput) : Except LedgerError (List (Int × C2LedgerInput)) :=
  (values.mapM (timed P)).map (sortedBy timeKey)

/-- The checks of the records of one ledger. -/
def admitRecords (ordered : List (Int × C2LedgerInput)) (cutoff : PyStr) :
    Except LedgerError Unit := do
  let values := ordered.map Prod.snd
  check (values.map C2LedgerInput.recordId).Nodup (.value (py "duplicate record_id"))
  check (values.map C2LedgerInput.firstValidTime).Nodup
    (.value (py "duplicate first_valid_time within exact scope"))
  let limit ← time P (.str cutoff)
  check (∀ p ∈ ordered, p.1 ≤ limit) (.value (py "future C2 record exceeds build_cutoff"))
  check (∀ x ∈ values, ∀ y ∈ values, x.scope = y.scope)
    (.value (py "ledger inputs must share release, instrument, side, scope and clock"))

/-- The ledger of records that were admitted, the first of them given. -/
def ledgerOf (first : C2LedgerInput) (values : List C2LedgerInput) (cutoff : PyStr) :
    Except LedgerError EpisodeLedger := do
  let scanned ← values.foldlM (Scan.visit P) Scan.empty
  let s ← scanned.close P .openAtCutoff .endOfInput none none
  let ledgerId ← identify P (py "C2E.LD.") (.ofRecord [
    (py "policy_id", .str policyId),
    (py "source_release_id", .str first.sourceReleaseId),
    (py "instrument_id", .str first.instrumentId),
    (py "side", .str first.side),
    (py "scope_id", .str first.scopeId),
    (py "clock_id", .str first.clockId),
    (py "build_cutoff", .str cutoff),
    (py "input_record_ids", .ofStrs (values.map C2LedgerInput.recordId)),
    (py "input_source_sha256", .ofStrs (values.map C2LedgerInput.sourceSha256)),
    (py "episode_ids", .ofStrs (s.episodes.map EpisodeRecord.episodeId)),
    (py "not_evaluable", .list (s.excluded.map NotEvaluableRecord.toDict))])
  return { ledgerId, sourceReleaseId := first.sourceReleaseId, instrumentId := first.instrumentId,
           side := first.side, scopeId := first.scopeId, clockId := first.clockId,
           buildCutoff := cutoff, inputRecordIds := values.map C2LedgerInput.recordId,
           inputSourceSha256 := values.map C2LedgerInput.sourceSha256,
           episodes := s.episodes, notEvaluable := s.excluded }

/-- `build_episode_ledger`. -/
def buildEpisodeLedger (records : List Submission) (buildCutoff : PyVal) :
    Except LedgerError EpisodeLedger := do
  let cutoff ← ctime P buildCutoff
  let values ← records.mapM (Submission.read P upper)
  check (values ≠ []) (.value (py "at least one C2 record is required"))
  let ordered ← inTimeOrder P values
  admitRecords P ordered cutoff
  match ordered.map Prod.snd with
  | [] => .error (.value (py "at least one C2 record is required"))
  | first :: others => ledgerOf P first (first :: others) cutoff

end OvcReplay.MarketGrammar
