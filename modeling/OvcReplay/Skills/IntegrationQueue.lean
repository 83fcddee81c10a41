import OvcReplay.Python.Fallible
import OvcReplay.Python.Platform
import OvcReplay.Python.Sorted

/-! # The serialized integration queue

`siq_core.py`: candidates that wait for the one final-integration lease, in the order of their
sequence numbers. A candidate is admitted when it is built into a queue or enqueued; the lease goes to
the first one that is `READY`, and its holder is released, requeued, parked or integrated. -/

namespace OvcReplay.Skills

open Python

namespace IntegrationQueue

/-! ## Texts -/

def ready : PyStr := py "READY"

def wait : PyStr := py "WAIT"

def blocked : PyStr := py "BLOCKED"

def quarantined : PyStr := py "QUARANTINED"

def operatorRequired : PyStr := py "OPERATOR_REQUIRED"

def requeue : PyStr := py "REQUEUE"

def integrated : PyStr := py "INTEGRATED"

def baseSensitive : PyStr := py "BASE_SENSITIVE"

def leaseWarningSeconds : Int := 600

def leaseReleaseRequeueSeconds : Int := 900

/-- `OPERATOR_GATE_CLASSES`. -/
def operatorGateClasses : List PyStr :=
  [py "OPERATOR_REQUIRED", py "OPERATOR_GATE", py "RESERVED"]

/-- What an operation of the queue raises. -/
inductive QueueError where
  | permission (text : PyStr)
  | value (text : PyStr)
  | python (e : PyError)
  deriving DecidableEq, Repr

/-! ## Data -/

/-- A mapping, with its items in their order. -/
abbrev Mapping : Type := List (PyKey × PyVal)

/-- `QueueCandidate`. -/
structure QueueCandidate where
  packetId : PyStr
  planId : PyStr
  candidateHeadSha : PyStr
  baselineMainSha : PyStr
  readySequence : Int
  queueState : PyStr
  implementationComplete : Bool
  qaStatus : PyStr
  authorityDelta : PyStr
  gateClass : PyStr
  operatorAuthoritySatisfied : Bool
  mergeAuthorityResolved : Bool
  preliminaryAssurancePass : Bool
  rollbackDefined : Bool
  dependencyFootprintPinned : Bool
  blockingReviews : List PyStr
  blockingIssues : List PyStr
  blockingWarnings : List PyStr
  reasonCodes : List PyStr
  vitPipId : PyStr
  vitGenerationId : PyStr
  vitPlacementId : PyStr
  vitLineageRef : PyStr
  vitLineageRecord : Option Mapping
  deriving DecidableEq, Repr

/-- `QueueState`. -/
structure QueueState where
  queueId : PyStr
  candidates : List QueueCandidate
  leaseHolderPacketId : Option PyStr
  leaseAcquiredAt : Option PyStr
  generation : Int
  deriving DecidableEq, Repr

/-- The fields of `ValidatedVitLineage` that admission reads. -/
structure ValidatedVitLineage where
  routeClass : PyStr
  packetId : PyStr
  pipId : PyStr
  generationId : Option PyStr
  placementId : Option PyStr
  deriving DecidableEq, Repr

/-- A capital letter of ASCII or the underscore. -/
def isCapital (c : CodePoint) : Bool := (Nat.ble 65 c.val && Nat.ble c.val 90) || c.val == 95

/-- What the queue takes from the standard library and from the validation of a lineage. -/
structure Surroundings where
  /-- `str(v)` of a value that is no text. -/
  reprText : PyVal → Except PyError PyStr
  /-- `int(v)` of a value that is no integer. -/
  intOf : PyVal → Except PyError Int
  /-- `[str(x) for x in o]` of an object of another class. -/
  memberTexts : PyObject → Except PyError (List PyStr)
  /-- `json.dumps` of a key that is no text, truth value, number without a point or `None`. -/
  otherKey : PyStr → Except PyError PyStr
  /-- `s.upper()`. -/
  upper : PyStr → PyStr
  upper_upper : ∀ s, upper (upper s) = upper s
  upper_of_capitals : ∀ s, s.all isCapital = true → upper s = s
  /-- `s.lower()`. -/
  lower : PyStr → PyStr
  /-- `int(s, 16)` returns. -/
  isHexadecimal : PyStr → Bool
  /-- `validate_vit_lineage_record(record, lineage_ref=ref)`; its `VitContractError` is a
  `ValueError`. -/
  validateVitLineageRecord : Mapping → PyStr → Except PyError ValidatedVitLineage

variable (S : Surroundings)

/-! ## Reading a candidate -/

/-- `str(v)`. -/
def Surroundings.str : PyVal → Except PyError PyStr
  | .str s => .ok s
  | v => S.reprText v

/-- `int(v)`. -/
def Surroundings.int : PyVal → Except PyError Int
  | .int z => .ok z
  | v => S.intOf v

/-- `str(k)` of a key. -/
def Surroundings.keyText : PyKey → Except PyError PyStr
  | .str s => .ok s
  | .none => S.reprText .none
  | .bool b => S.reprText (.bool b)
  | .int z => S.reprText (.int z)
  | .other text => .ok text

/-- `list(map(str, v))`. -/
def Surroundings.strs : PyVal → Except PyError (List PyStr)
  | .list xs => xs.mapM S.str
  | .tuple xs => xs.mapM S.str
  | .set xs => xs.mapM S.str
  | .dict items => (items.map Prod.fst).mapM S.keyText
  | .str s => .ok (s.map fun c => [c])
  | .other o => S.memberTexts o
  | _ => .error .typeError

variable (value : Record)

/-- `str(value.get(key, default))`. -/
def text (key : String) (default : PyStr) : Except PyError PyStr :=
  S.str ((value.get? (py key)).getD (.str default))

/-- `bool(value.get(key, False))`. -/
def flag (key : String) : Bool :=
  ((value.get? (py key)).getD (.bool false)).truthy

/-- `tuple(sorted(map(str, value.get(key, ()))))`. -/
def sortedTexts (key : String) : Except PyError (List PyStr) := do
  let texts ← S.strs ((value.get? (py key)).getD (.tuple []))
  return sortedBy id texts

/-- `dict(raw) if isinstance(raw, Mapping) else None`. -/
def mapping? : Option PyVal → Option Mapping
  | some (.dict items) => some items
  | _ => none

/-- `QueueCandidate.from_mapping`. -/
def QueueCandidate.fromMapping : Except PyError QueueCandidate := do
  let lineage := mapping? (value.get? (py "vit_lineage_record"))
  let packetId ← text S value "packet_id" []
  let planId ← text S value "plan_id" []
  let candidateHeadSha ← text S value "candidate_head_sha" []
  let baselineMainSha ← text S value "baseline_main_sha" []
  let readySequence ← S.int ((value.get? (py "ready_sequence")).getD (.int 0))
  let queueState ← text S value "queue_state" (py "BUILD")
  let qaStatus ← text S value "qa_status" (py "PENDING")
  let authorityDelta ← text S value "authority_delta" (py "NONE")
  let gateClass ← text S value "gate_class" (py "AUTO_EXECUTABLE")
  let blockingReviews ← sortedTexts S value "blocking_reviews"
  let blockingIssues ← sortedTexts S value "blocking_issues"
  let blockingWarnings ← sortedTexts S value "blocking_warnings"
  let reasonCodes ← sortedTexts S value "reason_codes"
  let vitPipId ← text S value "vit_pip_id" []
  let vitGenerationId ← text S value "vit_generation_id" []
  let vitPlacementId ← text S value "vit_placement_id" []
  let vitLineageRef ← text S value "vit_lineage_ref" []
  return {
    packetId := strip packetId
    planId := strip planId
    candidateHeadSha := strip candidateHeadSha
    baselineMainSha := strip baselineMainSha
    readySequence
    queueState := S.upper queueState
    implementationComplete := flag value "implementation_complete"
    qaStatus := S.upper qaStatus
    authorityDelta := S.upper authorityDelta
    gateClass := S.upper gateClass
    operatorAuthoritySatisfied := flag value "operator_authority_satisfied"
    mergeAuthorityResolved := flag value "merge_authority_resolved"
    preliminaryAssurancePass := flag value "preliminary_assurance_pass"
    rollbackDefined := flag value "rollback_defined"
    dependencyFootprintPinned := flag value "dependency_footprint_pinned"
    blockingReviews
    blockingIssues
    blockingWarnings
    reasonCodes
    vitPipId := strip vitPipId
    vitGenerationId := strip vitGenerationId
    vitPlacementId := strip vitPlacementId
    vitLineageRef := strip vitLineageRef
    vitLineageRecord := lineage }

/-- What is admitted: a candidate, or the mapping it is read from. -/
inductive Submission where
  | candidate (c : QueueCandidate)
  | mapping (value : Record)
  deriving Repr

/-- `value if isinstance(value, QueueCandidate) else QueueCandidate.from_mapping(value)`. -/
def Submission.read : Submission → Except PyError QueueCandidate
  | candidate c => .ok c
  | mapping value => QueueCandidate.fromMapping S value

/-! ## Admission -/

/-- `_is_sha256`. -/
def isSha256 (value : PyStr) : Bool :=
  decide (value.length = 64) && S.isHexadecimal value && decide (S.lower value = value)

/-- What the validated lineage of a candidate is blocked for. -/
def mismatches (candidate : QueueCandidate) (validated : ValidatedVitLineage) : List PyStr :=
  if validated.routeClass ≠ py "VIT_MANDATORY" then [py "VIT_LINEAGE_ROUTE_NOT_MANDATORY"]
  else if validated.packetId ≠ candidate.packetId then [py "VIT_LINEAGE_PACKET_MISMATCH"]
  else if validated.pipId ≠ candidate.vitPipId ∨
      validated.generationId ≠ some candidate.vitGenerationId ∨
      validated.placementId ≠ some candidate.vitPlacementId then [py "VIT_LINEAGE_ID_MISMATCH"]
  else []

/-- `_lineage_blockers`. -/
def lineageBlockers (candidate : QueueCandidate) : Except PyError (List PyStr) :=
  match candidate.vitLineageRecord with
  | none => .ok [py "VIT_LINEAGE_REQUIRED"]
  | some record =>
    if isSha256 S candidate.vitPipId ∧ isSha256 S candidate.vitGenerationId ∧
        isSha256 S candidate.vitPlacementId ∧ candidate.vitLineageRef ≠ [] then
      match S.validateVitLineageRecord record candidate.vitLineageRef with
      | .ok validated => .ok (mismatches candidate validated)
      | .error e => if e.isTypeOrValueError then .ok [py "VIT_LINEAGE_INVALID"] else .error e
    else .ok [py "VIT_LINEAGE_REQUIRED"]

/-- A code for a field that fails its check. -/
def blocker (failed : Bool) (code : String) : List PyStr := if failed then [py code] else []

/-- The codes of the fields that fail their checks, in the order of the checks. -/
def fieldBlockers (candidate : QueueCandidate) : List PyStr :=
  blocker candidate.packetId.isEmpty "PACKET_ID_MISSING" ++
  blocker candidate.planId.isEmpty "PLAN_ID_MISSING" ++
  blocker (candidate.candidateHeadSha.length != 40) "CANDIDATE_HEAD_SHA_INVALID" ++
  blocker (candidate.baselineMainSha.length != 40) "BASELINE_MAIN_SHA_INVALID" ++
  blocker (decide (candidate.readySequence ≤ 0)) "READY_SEQUENCE_INVALID" ++
  blocker (!candidate.implementationComplete) "IMPLEMENTATION_INCOMPLETE" ++
  blocker (candidate.qaStatus != py "PASS") "QA_NOT_PASS" ++
  blocker (!candidate.blockingReviews.isEmpty) "BLOCKING_REVIEW_PRESENT" ++
  blocker (!candidate.blockingIssues.isEmpty) "BLOCKING_ISSUE_PRESENT" ++
  blocker (!candidate.blockingWarnings.isEmpty) "BLOCKING_WARNING_PRESENT" ++
  blocker (!candidate.preliminaryAssurancePass) "PRELIMINARY_ASSURANCE_NOT_PASS" ++
  blocker (!candidate.rollbackDefined) "ROLLBACK_NOT_DEFINED" ++
  blocker (!candidate.dependencyFootprintPinned) "DEPENDENCY_FOOTPRINT_NOT_PINNED"

/-- `code.startswith("VIT_LINEAGE_")`. -/
def isLineageCode (code : PyStr) : Bool := (py "VIT_LINEAGE_").isPrefixOf code

/-- The candidate needs an operator who has not consented. -/
def awaitsOperator (candidate : QueueCandidate) : Bool :=
  (decide (candidate.gateClass ∈ operatorGateClasses) || candidate.authorityDelta != py "NONE") &&
    !(candidate.operatorAuthoritySatisfied && candidate.mergeAuthorityResolved)

/-- The state and the codes of a candidate with these blockers. -/
def decideState (candidate : QueueCandidate) (blockers : List PyStr) : PyStr × List PyStr :=
  if blockers.any isLineageCode then (wait, blockers)
  else if awaitsOperator candidate then
    (operatorRequired, blockers ++ [py "OPERATOR_AUTHORITY_REQUIRED"])
  else if blockers ≠ [] then (wait, blockers)
  else (ready, blockers)

/-- `replace(candidate, queue_state=state, reason_codes=tuple(sorted(set(codes))))`. -/
def QueueCandidate.withState (candidate : QueueCandidate) (state : PyStr) (codes : List PyStr) :
    QueueCandidate :=
  { candidate with queueState := state, reasonCodes := sortedSet codes }

/-- `evaluate_ready_admission` of a candidate. -/
def evaluateReadyAdmission (candidate : QueueCandidate) : Except PyError QueueCandidate :=
  if candidate.queueState = quarantined then
    .ok (candidate.withState quarantined (candidate.reasonCodes ++ [py "CANDIDATE_QUARANTINED"]))
  else if candidate.queueState = blocked then
    .ok (candidate.withState blocked (candidate.reasonCodes ++ [py "CANDIDATE_BLOCKED"]))
  else do
    let lineage ← lineageBlockers S candidate
    let decided :=
      decideState candidate (candidate.reasonCodes ++ fieldBlockers candidate ++ lineage)
    return candidate.withState decided.1 decided.2

/-- `evaluate_ready_admission`. -/
def Submission.evaluate (value : Submission) : Except PyError QueueCandidate := do
  let candidate ← value.read S
  evaluateReadyAdmission S candidate

/-! ## The queue -/

/-- What candidates are sorted by. -/
def QueueCandidate.key (row : QueueCandidate) : Int ×ₗ PyStr ×ₗ PyStr :=
  toLex (row.readySequence, toLex (row.packetId, row.candidateHeadSha))

/-- `build_queue_state`. -/
def buildQueueState (candidates : List Submission) (queueId : PyStr) (generation : Int) :
    Except PyError QueueState := do
  let admitted ← candidates.mapM (Submission.evaluate S)
  return ⟨queueId, sortedBy QueueCandidate.key admitted, none, none, generation⟩

/-- `max((row.ready_sequence for row in candidates), default=0) + 1`. -/
def nextSequence (candidates : List QueueCandidate) : Int :=
  ((candidates.map QueueCandidate.readySequence).max?.getD 0) + 1

/-- The candidate with a sequence number. -/
def sequenced (candidates : List QueueCandidate) (candidate : QueueCandidate) : QueueCandidate :=
  if candidate.readySequence ≤ 0 then { candidate with readySequence := nextSequence candidates }
  else candidate

variable (state : QueueState)

/-- `enqueue_candidate`. -/
def enqueueCandidate (value : Submission) : Except QueueError QueueState := do
  let candidate ← (value.read S).mapError .python
  check (¬ ∃ row ∈ state.candidates, row.packetId = candidate.packetId)
    (QueueError.value (py "packet already materialized in SIQ: " ++ candidate.packetId))
  let admitted ←
    (evaluateReadyAdmission S (sequenced state.candidates candidate)).mapError .python
  return { state with
    candidates := sortedBy QueueCandidate.key (state.candidates ++ [admitted])
    generation := state.generation + 1 }

/-- `queue_head`. -/
def queueHead : Option QueueCandidate :=
  state.candidates.find? fun row => row.queueState = ready

/-- `acquired_at or now`. -/
def timestamp (acquiredAt : Option PyStr) (now : PyStr) : PyStr :=
  match acquiredAt with
  | some text => if text = [] then now else text
  | none => now

/-- `acquire_final_integration_lease` at the time `now`. -/
def acquireFinalIntegrationLease (packetId assuranceClass : PyStr)
    (acquiredAt : Option PyStr) (now : PyStr) : Except QueueError QueueState := do
  check (assuranceClass = baseSensitive) (QueueError.permission
    (py "BASE_INDEPENDENT work must not hold the SIQ final-integration lease"))
  check ((queueHead state).map QueueCandidate.packetId = some packetId) (QueueError.permission
    (py "only the deterministic READY queue head may acquire the lease"))
  check (state.leaseHolderPacketId = none ∨ state.leaseHolderPacketId = some packetId)
    (QueueError.permission (py "the SIQ final-integration lease already has a holder"))
  return { state with
    leaseHolderPacketId := some packetId
    leaseAcquiredAt := some (timestamp acquiredAt now)
    generation := state.generation + 1 }

variable (packetId : PyStr)

/-- The check that the lease is held under this packet id. -/
def requireHolder (text : String) : Except QueueError Unit :=
  check (state.leaseHolderPacketId = some packetId) (QueueError.permission (py text))

/-- The queue without a lease. -/
def QueueState.freed : QueueState :=
  { state with
    leaseHolderPacketId := none
    leaseAcquiredAt := none
    generation := state.generation + 1 }

/-- A row of this packet put into a state, with a code more. -/
def QueueCandidate.settled (row : QueueCandidate) (packetId queueState code : PyStr) :
    QueueCandidate :=
  if row.packetId = packetId then row.withState queueState (row.reasonCodes ++ [code]) else row

/-- The queue without a lease, its former holder put into a state. -/
def QueueState.settling (packetId queueState code : PyStr) : QueueState :=
  { state.freed with
    candidates := state.candidates.map fun row => row.settled packetId queueState code }

/-- `release_final_integration_lease`. -/
def releaseFinalIntegrationLease :
    Except QueueError QueueState := do
  requireHolder state packetId "only the current SIQ lease holder may release the lease"
  return state.freed

/-- The queue after a lease has been held for a time, and the disposition. -/
def afterElapsed (elapsedSeconds : Int)
    (admittedBaseSensitiveCheckActive : Bool) : QueueState × PyStr :=
  if elapsedSeconds > leaseReleaseRequeueSeconds ∧ !admittedBaseSensitiveCheckActive then
    (state.settling packetId ready (py "LEASE_TIMEOUT_REQUEUED"), py "RELEASE_AND_REQUEUE")
  else if elapsedSeconds > leaseWarningSeconds then
    (state, if admittedBaseSensitiveCheckActive then py "WARNING_ACTIVE_CHECK" else py "WARNING")
  else (state, py "WITHIN_BUDGET")

/-- `handle_lease_elapsed`, with the disposition it reports. -/
def handleLeaseElapsed (elapsedSeconds : Int)
    (admittedBaseSensitiveCheckActive : Bool) : Except QueueError (QueueState × PyStr) := do
  requireHolder state packetId "elapsed lease handling requires the current holder"
  check (0 ≤ elapsedSeconds) (QueueError.value (py "elapsed_seconds must be non-negative"))
  return afterElapsed state packetId elapsedSeconds admittedBaseSensitiveCheckActive

/-- `terminate_lease`. -/
def terminateLease (packetId disposition reasonCode : PyStr) :
    Except QueueError QueueState := do
  let target := S.upper disposition
  check (target ∈ [requeue, blocked, quarantined, operatorRequired])
    (QueueError.value (py "lease termination disposition must fail closed"))
  requireHolder state packetId "lease termination requires the current holder"
  return state.settling packetId (if target = requeue then ready else target) reasonCode

/-- `mark_integrated`. -/
def markIntegrated (packetId mergeSha : PyStr) :
    Except QueueError QueueState := do
  requireHolder state packetId "integration completion requires the current SIQ lease holder"
  check (mergeSha.length = 40) (QueueError.value (py "merge_sha must be a 40-character git SHA"))
  return state.settling packetId integrated (py "MERGE_SHA:" ++ mergeSha)

/-- A call of an operation of the queue, with its arguments as texts. -/
inductive Call where
  | enqueue (value : Submission)
  | acquire (packetId assuranceClass : PyStr) (acquiredAt : Option PyStr) (now : PyStr)
  | release (packetId : PyStr)
  | elapsed (packetId : PyStr) (elapsedSeconds : Int) (admittedBaseSensitiveCheckActive : Bool)
  | terminate (packetId disposition reasonCode : PyStr)
  | markIntegrated (packetId mergeSha : PyStr)
  deriving Repr

/-- The queue that a call returns. -/
def call : Call → Except QueueError QueueState
  | .enqueue value => enqueueCandidate S state value
  | .acquire packetId assuranceClass acquiredAt now =>
    acquireFinalIntegrationLease state packetId assuranceClass acquiredAt now
  | .release packetId => releaseFinalIntegrationLease state packetId
  | .elapsed packetId elapsedSeconds active =>
    (handleLeaseElapsed state packetId elapsedSeconds active).map Prod.fst
  | .terminate packetId disposition reasonCode =>
    terminateLease S state packetId disposition reasonCode
  | .markIntegrated packetId mergeSha => markIntegrated state packetId mergeSha

/-! ## A candidate that is admitted -/

namespace Reference

variable (c : CodePoint)

/-- The capital of a small letter. -/
def capital : CodePoint :=
  if Nat.ble 97 c.val && Nat.ble c.val 122 then CodePoint.ofByte (c.val - 32).toUInt8 else c

/-- The small letter of a capital. -/
def small : CodePoint :=
  if Nat.ble 65 c.val && Nat.ble c.val 90 then CodePoint.ofByte (c.val + 32).toUInt8 else c

theorem capital_of_isCapital {c : CodePoint} (h : isCapital c = true) : capital c = c := by
  simp only [isCapital, Bool.or_eq_true, Bool.and_eq_true, Nat.ble_eq, beq_iff_eq] at h
  rw [capital, if_neg]
  simp only [Bool.and_eq_true, Nat.ble_eq]
  omega

theorem capital_capital : capital (capital c) = capital c := by
  by_cases h : (Nat.ble 97 c.val && Nat.ble c.val 122) = true
  · refine capital_of_isCapital ?_
    rw [capital, if_pos h]
    simp only [Bool.and_eq_true, Nat.ble_eq] at h
    have hval : (CodePoint.ofByte (c.val - 32).toUInt8).val = c.val - 32 := by
      simp only [CodePoint.ofByte, Nat.toUInt8, UInt8.toNat_ofNat']
      omega
    simp only [isCapital, hval, Bool.or_eq_true, Bool.and_eq_true, Nat.ble_eq]
    omega
  · have hsame : capital c = c := by rw [capital, if_neg h]
    rw [hsame, hsame]

/-- `s.upper()` of a text in ASCII. -/
def capitals (s : PyStr) : PyStr := s.map capital

theorem capitals_capitals (s : PyStr) : capitals (capitals s) = capitals s := by
  rw [capitals, capitals, List.map_map]
  exact List.map_congr_left fun c _ => capital_capital c

theorem capitals_of_isCapital {s : PyStr} (h : s.all isCapital = true) : capitals s = s := by
  rw [List.all_eq_true] at h
  exact (List.map_congr_left fun c hc => capital_of_isCapital (h c hc)).trans (List.map_id s)

/-- Digits and the letters from `a` to `f`. -/
def isHexDigit : Bool :=
  (Nat.ble 48 c.val && Nat.ble c.val 57) || (Nat.ble 97 c.val && Nat.ble c.val 102)

/-- A text in a mapping. -/
def entry (key value : String) : PyKey × PyVal := (.str (py key), .str (py value))

/-- A mapping in a mapping. -/
def part (key : String) (items : Mapping) : PyKey × PyVal := (.str (py key), .dict items)

def authorityId : String := "aaaaaaaaaaaaaaaaaaaaaaaaaaaaaaaaaaaaaaaaaaaaaaaaaaaaaaaaaaaaaaaa"

def frontierId : String := "bbbbbbbbbbbbbbbbbbbbbbbbbbbbbbbbbbbbbbbbbbbbbbbbbbbbbbbbbbbbbbbb"

def predecessorSha : String := "cccccccccccccccccccccccccccccccccccccccc"

def resultSha : String := "dddddddddddddddddddddddddddddddddddddddd"

def pipId : String := "ec28e0a2a54cfca7bb0e680df00d5ccd9645966c197238f7143e730feb28c5e4"

def generationId : String := "b774416c3c35f8c0732972ada7298d3a54110fc3037b3cf29d3904bc7d73adc5"

def placementId : String := "d91a5bf070185cd1e4163271757abbd3dff7f500e92b1e57a411a18686ac708c"

/-- A tree of a lineage. -/
def tree (sha : String) : Mapping := [entry "tree_sha" sha, entry "profile" "git-tree-v1"]

/-- A lineage record of the packet `A` whose ids are the hashes of its parts. -/
def lineageRecord : Mapping :=
  [entry "schema" "ovc-vit-routing-lineage/v1", entry "status" "ADMITTED",
    entry "programme_id" "P", entry "packet_id" "A", entry "route_class" "VIT_MANDATORY",
    part "pip" [entry "programme_id" "P", entry "packet_id" "A",
      entry "authority_manifest_id" authorityId, entry "dependency_frontier_id" frontierId],
    entry "pip_id" pipId,
    part "generation" [entry "payload_id" pipId, entry "authority_manifest_id" authorityId,
      entry "dependency_frontier_id" frontierId, part "predecessor_tree" (tree predecessorSha),
      part "result_tree" (tree resultSha), entry "train_generation_id" "T",
      (.str (py "ordinal"), .int 0)],
    entry "generation_id" generationId,
    part "placement" [entry "payload_id" pipId, entry "predecessor_tree" predecessorSha,
      entry "result_tree" resultSha, entry "dependency_frontier_id" frontierId,
      entry "authority_manifest_id" authorityId, (.str (py "ordinal"), .int 0),
      entry "apply_profile" "F"],
    entry "placement_id" placementId,
    part "routing" [entry "controller" "DSAI_VIT_PHYSICAL_CONTROLLER",
      entry "physical_gateway" "DSAI_SIQ_EXISTING_SERIALIZED_GATEWAY",
      entry "route_class" "VIT_MANDATORY"]]

/-- The validation of that record; other records are refused. -/
def validate (record : Mapping) (_ : PyStr) : Except PyError ValidatedVitLineage :=
  if record = lineageRecord then
    .ok ⟨py "VIT_MANDATORY", py "A", py pipId, some (py generationId), some (py placementId)⟩
  else .error .valueError

/-- Surroundings for texts in ASCII. -/
def surroundings : Surroundings where
  reprText v := (Platform.reference.reprText v).map Subtype.val
  intOf _ := .error .valueError
  memberTexts _ := .error .typeError
  otherKey _ := .error .typeError
  upper := capitals
  upper_upper := capitals_capitals
  upper_of_capitals _ := capitals_of_isCapital
  lower s := s.map small
  isHexadecimal s := s.all isHexDigit
  validateVitLineageRecord := validate

/-- A candidate for the packet `A` that nothing blocks. -/
def candidate : QueueCandidate where
  packetId := py "A"
  planId := py "PLAN"
  candidateHeadSha := py predecessorSha
  baselineMainSha := py resultSha
  readySequence := 1
  queueState := py "BUILD"
  implementationComplete := true
  qaStatus := py "PASS"
  authorityDelta := py "NONE"
  gateClass := py "AUTO_EXECUTABLE"
  operatorAuthoritySatisfied := false
  mergeAuthorityResolved := false
  preliminaryAssurancePass := true
  rollbackDefined := true
  dependencyFootprintPinned := true
  blockingReviews := []
  blockingIssues := []
  blockingWarnings := []
  reasonCodes := []
  vitPipId := py pipId
  vitGenerationId := py generationId
  vitPlacementId := py placementId
  vitLineageRef := py "lineage.json"
  vitLineageRecord := some lineageRecord

/-- The queue of that candidate. -/
def queue : QueueState :=
  ⟨py "OVC.SIQ.v0.1", [candidate.withState ready []], none, none, 0⟩

theorem queue_built :
    buildQueueState surroundings [.candidate candidate] (py "OVC.SIQ.v0.1") 0 = .ok queue := by
  decide +kernel

end Reference

end IntegrationQueue

end OvcReplay.Skills
