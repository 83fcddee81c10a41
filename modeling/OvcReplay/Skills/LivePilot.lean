import OvcReplay.Skills.Identity
import OvcReplay.Python.Raising

/-! # The live pilot

`cers/live.py`: a coordinator that consumes an authority and a freeze, takes leases with growing
fencing generations and starts the one work item of its pilot. A session is the coordinator that is
live and the checkpoints that were taken; a restart replaces the coordinator by one that is restored
from a checkpoint. -/

namespace OvcReplay.Skills.LivePilot

open Python Json Raising

/-- `LivePilotViolation`, or an exception of the language. -/
inductive PilotError where
  | violation (code : PyStr)
  | python (e : PyError)
  deriving DecidableEq, Repr

/-- What the pilot takes from the language beside the platform. -/
structure Conversions where
  /-- `int(v)`. -/
  intOf : PyVal → Except PyError Int
  /-- `s.upper()`. -/
  upper : PyStr → PyStr
  /-- `s.lower()`. -/
  lower : PyStr → PyStr

/-! ## Constants -/

/-- `PROGRAMME_ID`. -/
def programmeId : PyStr := py "OVC-DSAI3V-CERS-CONFORMANCE-v0.1"

/-- `PACKET_ID`. -/
def packetId : PyStr := py "CERS-WP6"

/-- `PACKET_CLASS`. -/
def packetClass : PyStr := py "LOW_RISK_IMPLEMENTATION"

/-- `SEMANTIC_OWNER`. -/
def semanticOwner : PyStr := py "CERS"

/-- `EXECUTOR_ID`. -/
def executorId : PyStr :=
  py "OVC-SKILL-030@0.1.0+sha256:62809d0f5f1d4298fa916766912d4bec7b5a8bf7712f7382d448137f6f12f130" ++
    py "|PACKET_EXECUTION|windows-local-python311"

/-- `LIVE_ACTIONS`. -/
def liveActions : List PyStr := [py "WRITE_FILE", py "GIT_COMMIT", py "PUSH_BRANCH"]

/-- `LIVE_WRITE_PATHS`. -/
def liveWritePaths : List PyStr :=
  [py "registries/development/skills/cers/CERS_ACTION_SIDE_EFFECT_REGISTRY_v0_2.json",
    py "src/ovc/development/skills/cers/live.py",
    py "tests/development_skills/cers/test_cers_wp6_live_pilot.py",
    py "docs/releases/development-skills-v0-3/cers-conformance/wp6/CERS_WP6_LIVE_PILOT_RUN_v0_1.json"]

/-- `FORBIDDEN_ACTIONS`. -/
def forbiddenActions : List PyStr :=
  [py "MERGE", py "FORCE_PUSH", py "HISTORY_REWRITE", py "DIRECT_MAIN_WRITE", py "VALIDATION_READ",
    py "SCIENTIFIC_PROMOTION", py "CANONICAL_PUBLICATION", py "R2_PUBLICATION", py "PROBABILITY",
    py "RISK", py "EXPOSURE", py "TRADING", py "EXECUTION"]

/-- `LIVE_WORK_MANIFEST`. -/
def liveWorkManifest : Record :=
  [(py "programme_id", .str programmeId), (py "packet_id", .str packetId),
    (py "packet_class", .str packetClass), (py "semantic_owner", .str semanticOwner),
    (py "action", .str (py "WRITE_FILE")), (py "write_paths", .ofStrs liveWritePaths)]

section

variable (P : Platform)

/-- `canonical_id`. -/
def canonicalId (value : Record) : Except PyError PyStr := do
  let tree ← dumps P (.ofRecord value)
  let payload ← encodeUtf8 tree.render
  return (P.sha256 payload).text

/-- `EXPECTED_WORK_ID`. -/
def expectedWorkId : Except PyError PyStr := canonicalId P liveWorkManifest

/-! ## Records -/

/-- `SupervisorLease`. -/
structure SupervisorLease where
  scope : PyStr
  holderIdentity : PyStr
  fencingGeneration : Int
  active : Bool
  deriving DecidableEq

/-- `lease_id`. -/
def SupervisorLease.leaseId (lease : SupervisorLease) : Except PyError PyStr :=
  canonicalId P [(py "scope", .str lease.scope), (py "holder_identity", .str lease.holderIdentity),
    (py "fencing_generation", .int lease.fencingGeneration), (py "active", .bool lease.active)]

/-- `DispatchIdentity`. -/
structure DispatchIdentity where
  programmeId : PyStr
  packetId : PyStr
  action : PyStr
  workId : PyStr
  executorId : PyStr
  fencingGeneration : Int
  deriving DecidableEq

/-- `asdict(identity)`. -/
def DispatchIdentity.asdict (identity : DispatchIdentity) : Record :=
  [(py "programme_id", .str identity.programmeId), (py "packet_id", .str identity.packetId),
    (py "action", .str identity.action), (py "work_id", .str identity.workId),
    (py "executor_id", .str identity.executorId),
    (py "fencing_generation", .int identity.fencingGeneration)]

/-- `dispatch_id`. -/
def DispatchIdentity.dispatchId (identity : DispatchIdentity) : Except PyError PyStr :=
  canonicalId P identity.asdict

/-- The phases of `TRANSACTION_PHASES` that the coordinator uses. -/
inductive Phase where
  | intentPersisted
  | dispatchUnknown
  | startAcknowledged
  | completed
  | failed
  deriving DecidableEq, Repr

/-- `{"COMPLETED", "FAILED", "CANCELLED"}`. -/
def Phase.terminal : List Phase := [.completed, .failed]

/-- `DispatchTransaction`. -/
structure DispatchTransaction where
  dispatchId : PyStr
  phase : Phase
  fencingGeneration : Int
  workerRunId : Option PyStr := none
  reason : Option PyStr := none
  deriving DecidableEq

/-- `WorkerOwnership`. -/
structure WorkerOwnership where
  dispatchId : PyStr
  workerRunId : PyStr
  executorId : PyStr
  fencingGeneration : Int
  heartbeatSequence : Int
  authoritative : Bool
  deriving DecidableEq

/-- `QuiescenceControl`. -/
structure QuiescenceControl where
  mode : PyStr
  source : PyStr

/-- `blocks_new_dispatch`. -/
def QuiescenceControl.blocksNewDispatch (q : QuiescenceControl) : Prop :=
  q.mode ∈ [py "HOLD", py "DISABLE_NEW_DISPATCH"]

instance (q : QuiescenceControl) : Decidable q.blocksNewDispatch := by
  unfold QuiescenceControl.blocksNewDispatch
  infer_instance

/-- `LivePilotCheckpoint`. -/
structure LivePilotCheckpoint where
  fencingGeneration : Int
  openDispatchIds : List PyStr
  lastReconciliationId : Option PyStr
  eventWatermarks : Dict PyStr Int
  chatDependencyCount : Int
  quiescenceMode : PyStr
  quiescenceSource : PyStr

/-- `LivePilotCoordinator`. -/
structure Coordinator where
  authority : Record
  freeze : Record
  currentGeneration : Int
  currentLease : Option SupervisorLease
  quiescence : QuiescenceControl
  transactions : Dict PyStr DispatchTransaction
  workers : Dict PyStr WorkerOwnership
  quarantineReason : Option PyStr
  lastReconciliationId : Option PyStr

/-! ## Paths -/

/-- `normalize_relative_path`; `IdentityError` is a `ValueError`. -/
def normalizeRelativePath (raw : PyStr) : Except PyError PyStr := do
  check (raw ≠ [] ∧ raw.contains (.ofChar '\x00') = false) .valueError
  let candidate := raw.map fun c => if c = .ofChar '\\' then .ofChar '/' else c
  check (¬ (candidate.head? = some (.ofChar '/') ∨
    (candidate.takeWhile fun c => c ≠ .ofChar '/').contains (.ofChar ':') = true)) .valueError
  -- `PurePosixPath` drops empty segments and single points
  let parts := (candidate.splitOn (.ofChar '/')).filter fun part => part ≠ [] ∧ part ≠ py "."
  check (py ".." ∉ parts) .valueError
  let normalized := if parts = [] then py "." else (py "/").intercalate parts
  check (¬ (py ".git/" <+: normalized ∨ normalized = py ".git")) .valueError
  return normalized

/-- The normalized `exact_write_paths` of a freeze. -/
def exactWritePaths (freeze : Record) : Except PilotError (List PyStr) := do
  let paths ← (((freeze.get? (py "exact_write_paths")).getD (.tuple [])).eachText P).mapError
    .python
  (paths.mapM normalizeRelativePath).mapError .python

/-! ## The binding -/

variable (C : Conversions)

/-- `str(v.get(key))`, for a value that has to be a mapping. -/
def textAt (v : PyVal) (key : PyStr) : Except PilotError PyStr := do
  let w ← (v.getOr key .none).mapError .python
  (w.strOf P).mapError .python

/-- `if list(v.get(key, ())) != expected: raise`. -/
def requireList (v : PyVal) (key : PyStr) (expected : List PyStr) (code : PyStr) :
    Except PilotError Unit := do
  let w ← (v.getOr key (.tuple [])).mapError .python
  let same ← (w.listIs expected).mapError .python
  check (same = true) (.violation code)

/-- `if int(v.get(key, 0)) != 1: raise`. -/
def requireOne (v : PyVal) (key code : PyStr) : Except PilotError Unit := do
  let w ← (v.getOr key (.int 0)).mapError .python
  let n ← (C.intOf w).mapError .python
  check (n = 1) (.violation code)

/-- `_validate_binding`. -/
def validateBinding (authority freeze : Record) : Except PilotError Unit := do
  let a := .ofRecord authority
  let f := .ofRecord freeze
  check (a.get? (py "approved") = some (.bool true) ∧ a.get? (py "effective") = some (.bool true))
    (.violation (py "LIVE_DISPATCH_AUTHORITY_INACTIVE"))
  let programme ← textAt P a (py "programme_id")
  check (programme = programmeId) (.violation (py "PROGRAMME_NOT_AUTHORISED"))
  let scope := (a.get? (py "scope")).getD (.dict [])
  requireList scope (py "programme_allowlist") [programmeId] (py "PROGRAMME_ALLOWLIST_DRIFT")
  requireList scope (py "packet_allowlist") [packetId] (py "PACKET_ALLOWLIST_DRIFT")
  requireList scope (py "packet_class_allowlist") [packetClass] (py "PACKET_CLASS_ALLOWLIST_DRIFT")
  requireOne C scope (py "worker_concurrency") (py "LIVE_PILOT_CAP_DRIFT")
  requireOne C scope (py "max_speculative_depth") (py "LIVE_PILOT_CAP_DRIFT")
  let executor ← textAt P ((a.get? (py "executor")).getD (.dict [])) (py "executor_identity")
  check (executor = executorId) (.violation (py "EXECUTOR_IDENTITY_MISMATCH"))
  check (f.get? (py "status") = some (.str (py "FROZEN_PRE_EXECUTION")))
    (.violation (py "PILOT_BOUNDS_NOT_FROZEN"))
  let frozenProgramme ← textAt P f (py "programme_id")
  check (frozenProgramme = programmeId) (.violation (py "FREEZE_SCOPE_MISMATCH"))
  let frozenPacket ← textAt P f (py "packet_id")
  check (frozenPacket = packetId) (.violation (py "FREEZE_SCOPE_MISMATCH"))
  let frozenExecutor ← textAt P ((f.get? (py "executor")).getD (.dict [])) (py "executor_identity")
  check (frozenExecutor = executorId) (.violation (py "FREEZE_EXECUTOR_MISMATCH"))
  requireList f (py "action_classes") liveActions (py "FREEZE_ACTION_CLASS_DRIFT")
  check (f.get? (py "direct_main_mutation") = some (.bool false) ∧
    f.get? (py "parallel_physical_merge") = some (.bool false))
    (.violation (py "PHYSICAL_MAIN_BOUNDARY_DRIFT"))
  check (f.get? (py "force_push") = some (.bool false) ∧
    f.get? (py "history_rewrite") = some (.bool false))
    (.violation (py "HISTORY_SAFETY_BOUNDARY_DRIFT"))
  let frozenPaths ← exactWritePaths P freeze
  check (∀ path ∈ liveWritePaths, path ∈ frozenPaths) (.violation (py "LIVE_WORK_PATH_NOT_FROZEN"))

/-- The constructor. -/
def Coordinator.create (authority freeze : Record) : Except PilotError Coordinator := do
  validateBinding P C authority freeze
  return { authority, freeze, currentGeneration := 0, currentLease := none,
           quiescence := ⟨py "RUN", py "CERS_WP6_PILOT"⟩, transactions := [], workers := [],
           quarantineReason := none, lastReconciliationId := none }

variable (c : Coordinator)

/-- `branch`. -/
def Coordinator.branch : Except PilotError PyStr :=
  match c.freeze.get? (py "branch") with
  | some v => (v.strOf P).mapError .python
  | none => .error (.python .keyError)

/-! ## Checks -/

/-- `validate_lease`. -/
def Coordinator.validateLease (lease : SupervisorLease) : Except PilotError Unit :=
  match c.currentLease with
  | none => .error (.violation (py "STALE_FENCE"))
  | some current => do
    check (current.active = true) (.violation (py "STALE_FENCE"))
    let given ← (lease.leaseId P).mapError .python
    let expected ← (current.leaseId P).mapError .python
    check (given = expected) (.violation (py "STALE_FENCE"))
    check (lease.fencingGeneration = c.currentGeneration) (.violation (py "STALE_FENCE"))

/-- The part of `authorize_action` that is about the path: its reasons and the normalized path. -/
def Coordinator.pathReasons (action : PyStr) (path : Option PyStr) :
    Except PilotError (List PyStr × Option PyStr) :=
  if action = py "WRITE_FILE" then
    match path with
    | none => .ok ([py "WRITE_PATH_REQUIRED"], none)
    | some path =>
      match normalizeRelativePath path with
      | .error _ => .ok ([py "UNSAFE_WRITE_PATH"], none)
      | .ok normalized => do
        let frozen ← exactWritePaths P c.freeze
        return (if normalized ∈ frozen then [] else [py "WRITE_PATH_OUT_OF_FROZEN_SCOPE"],
          some normalized)
  else .ok (if path = none then [] else [py "NON_FILE_ACTION_PATH_MUST_BE_ABSENT"], none)

/-- `authorize_action`, up to the id of its decision. -/
def Coordinator.authorizeAction (action branch owner : PyStr)
    (path : Option PyStr) : Except PilotError HexDigest := do
  let action := C.upper action
  let own ← c.branch P
  let (pathReasons, normalized) ← c.pathReasons P action path
  let reasons :=
    (if action ∈ forbiddenActions ∨ action ∉ liveActions then [py "ACTION_NOT_AUTHORISED"]
      else []) ++
    (if branch ≠ own ∨ branch = py "main" then [py "BRANCH_SCOPE_DENIED"] else []) ++
    (if owner ≠ semanticOwner then [py "SEMANTIC_OWNERSHIP_DENIED"] else []) ++ pathReasons
  let decisionId ← (canonicalSha256 P (.ofRecord
    [(py "programme_id", .str programmeId), (py "packet_id", .str packetId),
      (py "action", .str action), (py "branch", .str branch), (py "semantic_owner", .str owner),
      (py "normalized_path", .ofStr? normalized),
      (py "decision", .str (if reasons ≠ [] then py "DENY" else py "ALLOW")),
      (py "reason_codes", .ofStrs (sortedSet reasons))])
    (py "CERS_LIVE_ACTION_DECISION")).mapError .python
  check (reasons = []) (.violation ((py ";").intercalate (sortedSet reasons)))
  return decisionId

/-- A workflow of a witness that is running. -/
def runningWorkflow (row : PyVal) : Except PilotError PyVal := do
  let name ← (row.getOr (py "name") (.str [])).mapError .python
  let nameText ← (name.strOf P).mapError .python
  let runId ← (row.getOr (py "run_id") (.int 0)).mapError .python
  let runIdInt ← (C.intOf runId).mapError .python
  let runNumber ← (row.getOr (py "run_number") (.int 0)).mapError .python
  let runNumberInt ← (C.intOf runNumber).mapError .python
  return .ofRecord [(py "name", .str nameText), (py "run_id", .int runIdInt),
    (py "run_number", .int runNumberInt), (py "status", .str (py "in_progress"))]

/-- `str(row.get("status", "")).lower() == "in_progress"`. -/
def isRunning (row : PyVal) : Except PilotError Bool := do
  let status ← (row.getOr (py "status") (.str [])).mapError .python
  let text ← (status.strOf P).mapError .python
  return decide (C.lower text = py "in_progress")

/-- `validate_background_assurance_witness`, up to the id of the witness. -/
def validateBackgroundAssuranceWitness (witness : Record) : Except PilotError HexDigest := do
  let workflows ← (((witness.get? (py "workflows")).getD (.tuple [])).eachMapping).mapError
    .python
  let flags ← workflows.mapM (isRunning P C)
  let running := ((workflows.zip flags).filter Prod.snd).map Prod.fst
  check (running ≠ []) (.violation (py "BACKGROUND_ASSURANCE_NOT_RUNNING"))
  check (witness.get? (py "caller_absent") = some (.bool true))
    (.violation (py "CALLER_ABSENCE_NOT_OBSERVED"))
  let repository ← (((witness.get? (py "repository")).getD (.str [])).strOf P).mapError .python
  let head ← (((witness.get? (py "observed_head")).getD (.str [])).strOf P).mapError .python
  let rows ← running.mapM (runningWorkflow P C)
  (canonicalSha256 P (.ofRecord
    [(py "repository", .str repository), (py "observed_head", .str head),
      (py "running_workflows", .list rows), (py "caller_absent", .bool true)])
    (py "CERS_BACKGROUND_ASSURANCE_WITNESS")).mapError .python

/-! ## Methods -/

/-- A coordinator that is live, and the checkpoints that were taken. -/
structure Session where
  coordinator : Coordinator
  checkpoints : List LivePilotCheckpoint

/-- A method of the coordinator. -/
abbrev Method (α : Type) : Type := Raising PilotError Coordinator α

/-- `acquire_lease`. -/
def acquireLease (holderIdentity : PyStr) : Method SupervisorLease := do
  let c ← get
  require (c.quarantineReason.getD [] = []) (.violation (py "PILOT_QUARANTINED"))
  modify fun c => { c with currentGeneration := c.currentGeneration + 1 }
  require (1 ≤ c.currentGeneration + 1) (.python .valueError)
  let lease : SupervisorLease := {
    scope := programmeId ++ py ":" ++ packetId, holderIdentity,
    fencingGeneration := c.currentGeneration + 1, active := true }
  modify fun c => { c with currentLease := some lease }
  return lease

/-- The arguments of `start`. -/
structure StartArguments where
  identity : DispatchIdentity
  lease : SupervisorLease
  packetClass : PyStr
  firstWritePath : PyStr
  backgroundAssurance : Record

variable (args : StartArguments)

/-- The checks of `start` up to the id of the dispatch. -/
def Coordinator.admitStart :
    Except PilotError PyStr := do
  c.validateLease P args.lease
  check (¬ c.quiescence.blocksNewDispatch) (.violation (py "QUIESCENCE_BLOCKS_NEW_DISPATCH"))
  check (c.quarantineReason.getD [] = []) (.violation (py "PILOT_QUARANTINED"))
  check (args.identity.programmeId = programmeId ∧ args.identity.packetId = packetId)
    (.violation (py "DISPATCH_SCOPE_MISMATCH"))
  check (args.packetClass = packetClass) (.violation (py "PACKET_CLASS_NOT_AUTHORISED"))
  check (args.identity.executorId = executorId) (.violation (py "EXECUTOR_IDENTITY_MISMATCH"))
  check (args.identity.action = py "WRITE_FILE") (.violation (py "DISPATCH_ACTION_MISMATCH"))
  let expected ← (expectedWorkId P).mapError .python
  check (args.identity.workId = expected) (.violation (py "WORK_IDENTITY_MISMATCH"))
  check (args.identity.fencingGeneration = args.lease.fencingGeneration)
    (.violation (py "STALE_FENCE"))
  (args.identity.dispatchId P).mapError .python

/-- The checks of `start` behind the check for a duplicate. -/
def Coordinator.authorizeStart :
    Except PilotError Unit := do
  let branch ← c.branch P
  let _ ← c.authorizeAction P C args.identity.action branch semanticOwner (some args.firstWritePath)
  let _ ← validateBackgroundAssuranceWitness P C args.backgroundAssurance

variable (dispatchId : PyStr)

/-- The worker of a start. -/
def startedWorker (generation : Int) : WorkerOwnership where
  dispatchId
  workerRunId := py "cers-live-" ++ dispatchId.take 20
  executorId := executorId
  fencingGeneration := generation
  heartbeatSequence := 1
  authoritative := true

/-- `start`. -/
def start : Method DispatchTransaction := do
  let c ← get
  let dispatchId ← lift (c.admitStart P args)
  if dispatchId ∈ c.workers.keys then do
    modify fun c => { c with quarantineReason := some (py "DUPLICATE_AUTHORITATIVE_START") }
    raise (.violation (py "DUPLICATE_AUTHORITATIVE_START"))
  else do
    lift (c.authorizeStart P C args)
    let generation := args.lease.fencingGeneration
    let worker := startedWorker dispatchId generation
    let started : DispatchTransaction :=
      { dispatchId, phase := .startAcknowledged, fencingGeneration := generation,
        workerRunId := some worker.workerRunId }
    modify fun c => { c with
      transactions := Dict.set (c.transactions.set dispatchId
        { dispatchId, phase := .intentPersisted, fencingGeneration := generation })
        dispatchId started
      workers := c.workers.set dispatchId worker }
    return started

variable (lease : SupervisorLease)

/-- `self.workers[dispatch_id]`, of a worker that holds the fence. -/
def Coordinator.ownWorker
    (code : PyStr) : Except PilotError WorkerOwnership := do
  c.validateLease P lease
  match c.workers.get? dispatchId with
  | none => .error (.python .keyError)
  | some worker => do
    check (worker.fencingGeneration = lease.fencingGeneration ∧ worker.authoritative = true)
      (.violation code)
    return worker

/-- `heartbeat`. -/
def heartbeat : Method WorkerOwnership := do
  let c ← get
  let worker ← lift (c.ownWorker P dispatchId lease (py "STALE_WORKER_HEARTBEAT"))
  let beaten := { worker with heartbeatSequence := worker.heartbeatSequence + 1 }
  modify fun c => { c with workers := c.workers.set dispatchId beaten }
  return beaten

/-- `mark_unknown_start`. -/
def markUnknownStart (identity : DispatchIdentity) (lease : SupervisorLease) :
    Method DispatchTransaction := do
  let c ← get
  lift (c.validateLease P lease)
  let dispatchId ← lift ((identity.dispatchId P).mapError .python)
  let unknown : DispatchTransaction :=
    { dispatchId, phase := .dispatchUnknown, fencingGeneration := lease.fencingGeneration,
      reason := some (py "UNKNOWN_START_STATE") }
  modify fun c => { c with transactions := c.transactions.set dispatchId unknown }
  return unknown

/-- `reconcile_unknown`. -/
def reconcileUnknown (observedWorker : Option WorkerOwnership) :
    Method DispatchTransaction := do
  let c ← get
  match c.transactions.get? dispatchId with
  | none => raise (.python .keyError)
  | some current =>
    if current.phase ≠ .dispatchUnknown then pure current
    else do
      let reconciliationId ← lift ((canonicalSha256 P (.ofRecord
        [(py "dispatch_id", .str dispatchId),
          (py "observed_worker_run_id", .ofStr? (observedWorker.map (·.workerRunId))),
          (py "observed_fencing_generation",
            (observedWorker.map fun w => .int w.fencingGeneration).getD .none)])
        (py "CERS_UNKNOWN_START_RECONCILIATION")).mapError .python)
      modify fun c => { c with lastReconciliationId := some reconciliationId.text }
      match observedWorker with
      | none => pure current
      | some worker => do
        require (worker.fencingGeneration = c.currentGeneration ∧ worker.authoritative = true)
          (.violation (py "STALE_WORKER_OBSERVED_DURING_RECONCILIATION"))
        let resolved : DispatchTransaction :=
          { dispatchId, phase := .startAcknowledged,
            fencingGeneration := worker.fencingGeneration,
            workerRunId := some worker.workerRunId,
            reason := some (py "RECOVERED_EXISTING_START_NO_REDISPATCH") }
        modify fun c => { c with
          workers := c.workers.set dispatchId worker
          transactions := c.transactions.set dispatchId resolved }
        return resolved

/-- `complete`. -/
def complete (success : Bool) :
    Method DispatchTransaction := do
  let c ← get
  let worker ← lift (c.ownWorker P dispatchId lease (py "STALE_WORKER_AUTHORITATIVE_COMPLETION"))
  let result : DispatchTransaction :=
    { dispatchId, phase := if success then .completed else .failed,
      fencingGeneration := lease.fencingGeneration, workerRunId := some worker.workerRunId }
  modify fun c => { c with transactions := c.transactions.set dispatchId result }
  return result

/-- `disable_new_dispatch`. -/
def disableNewDispatch : Method Unit :=
  modify fun c => { c with quiescence :=
    ⟨py "DISABLE_NEW_DISPATCH", py "CERS_WP6_ROLLBACK_OR_POST_PILOT_QUIESCENCE"⟩ }

/-- `checkpoint`. -/
def Coordinator.checkpoint : LivePilotCheckpoint where
  fencingGeneration := c.currentGeneration
  openDispatchIds := sortedBy id
    (Dict.keys (c.transactions.filter fun p => p.2.phase ∉ Phase.terminal))
  lastReconciliationId := c.lastReconciliationId
  eventWatermarks := []
  chatDependencyCount := 0
  quiescenceMode := c.quiescence.mode
  quiescenceSource := c.quiescence.source

/-- `restore`. -/
def restore (authority freeze : Record) (checkpoint : LivePilotCheckpoint) :
    Except PilotError Coordinator := do
  check (checkpoint.chatDependencyCount = 0) (.violation (py "CHAT_DEPENDENT_RESTART"))
  let restored ← Coordinator.create P C authority freeze
  check (checkpoint.quiescenceMode ∈ [py "RUN", py "DRAIN", py "HOLD", py "DISABLE_NEW_DISPATCH"])
    (.python .valueError)
  return { restored with
    currentGeneration := checkpoint.fencingGeneration
    lastReconciliationId := checkpoint.lastReconciliationId
    quiescence := ⟨checkpoint.quiescenceMode, checkpoint.quiescenceSource⟩ }

/-! ## Sessions -/

/-- A call of a session. -/
inductive Call where
  | acquireLease (holderIdentity : PyStr)
  | start (args : StartArguments)
  | heartbeat (dispatchId : PyStr) (lease : SupervisorLease)
  | markUnknownStart (identity : DispatchIdentity) (lease : SupervisorLease)
  | reconcileUnknown (dispatchId : PyStr) (observedWorker : Option WorkerOwnership)
  | complete (dispatchId : PyStr) (lease : SupervisorLease) (success : Bool)
  | disableNewDispatch
  | checkpoint
  /-- A restart from the checkpoint that was taken as number `n`. -/
  | restore (authority freeze : Record) (n : Nat)

/-- A method of the live coordinator. -/
def live {α : Type} (m : Method α) : Raising PilotError Session Unit := do
  let _ ← zoom Session.coordinator (fun s c => { s with coordinator := c }) m

/-- The restart of a session. -/
def restart (authority freeze : Record) (n : Nat) : Raising PilotError Session Unit := do
  let s ← get
  match s.checkpoints[n]? with
  | none => raise (.python .indexError)
  | some checkpoint => do
    let restored ← lift (restore P C authority freeze checkpoint)
    modify fun s => { s with coordinator := restored }

/-- A call. -/
def step : Call → Raising PilotError Session Unit
  | .acquireLease holderIdentity => live (acquireLease holderIdentity)
  | .start args => live (start P C args)
  | .heartbeat dispatchId lease => live (heartbeat P dispatchId lease)
  | .markUnknownStart identity lease => live (markUnknownStart P identity lease)
  | .reconcileUnknown dispatchId observedWorker =>
    live (reconcileUnknown P dispatchId observedWorker)
  | .complete dispatchId lease success => live (complete P dispatchId lease success)
  | .disableNewDispatch => live disableNewDispatch
  | .checkpoint =>
    modify fun s => { s with checkpoints := s.checkpoints ++ [s.coordinator.checkpoint] }
  | .restore authority freeze n => restart P C authority freeze n

end

end OvcReplay.Skills.LivePilot
