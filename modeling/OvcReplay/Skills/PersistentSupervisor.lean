import OvcReplay.Json.Dumps

/-! # The persistent supervisor

`cers/persistent_service.py`: the durable state of the supervisor of dispatches and the calls of the
service. Who holds the lease, what phase a dispatch is in, and which worker owns it are kept in
separate maps. -/

namespace OvcReplay.Skills

open Python Json

namespace Supervisor

/-! ## Data -/

/-- `SERVICE_MODES`. -/
inductive ServiceMode where
  | run
  | drain
  | hold
  | disableNewDispatch
  deriving DecidableEq, Repr

/-- The text of a mode. -/
def ServiceMode.text : ServiceMode → PyStr
  | run => py "RUN"
  | drain => py "DRAIN"
  | hold => py "HOLD"
  | disableNewDispatch => py "DISABLE_NEW_DISPATCH"

/-- The mode with this text. -/
def ServiceMode.ofText? (text : PyStr) : Option ServiceMode :=
  [run, drain, hold, disableNewDispatch].find? fun mode => mode.text = text

/-- `KNOWN_PHASES`. -/
inductive Phase where
  | intentPersisted
  | dispatchUnknown
  | startAcknowledged
  | running
  | completed
  | failed
  | cancelled
  deriving DecidableEq, Repr

/-- The text of a phase. -/
def Phase.text : Phase → PyStr
  | intentPersisted => py "INTENT_PERSISTED"
  | dispatchUnknown => py "DISPATCH_UNKNOWN"
  | startAcknowledged => py "START_ACKNOWLEDGED"
  | running => py "RUNNING"
  | completed => py "COMPLETED"
  | failed => py "FAILED"
  | cancelled => py "CANCELLED"

/-- The phase with this text. -/
def Phase.ofText? (text : PyStr) : Option Phase :=
  [intentPersisted, dispatchUnknown, startAcknowledged, running, completed, failed, cancelled].find?
    fun phase => phase.text = text

/-- `TERMINAL_PHASES`. -/
def Phase.Terminal (phase : Phase) : Prop :=
  phase = .completed ∨ phase = .failed ∨ phase = .cancelled

instance (phase : Phase) : Decidable phase.Terminal := inferInstanceAs (Decidable (_ ∨ _))

/-- The phases in which a worker has started. -/
def Phase.Active (phase : Phase) : Prop := phase = .startAcknowledged ∨ phase = .running

instance (phase : Phase) : Decidable phase.Active := inferInstanceAs (Decidable (_ ∨ _))

/-- The record of a dispatch. -/
structure Transaction where
  dispatchId : PyStr
  phase : Phase
  fencingGeneration : Int
  workerRunId : Option PyStr
  reason : Option PyStr
  deriving DecidableEq, Repr

/-- The record of the worker of a dispatch. -/
structure Ownership where
  dispatchId : PyStr
  workerRunId : PyStr
  fencingGeneration : Int
  heartbeatSequence : Int
  authoritative : Bool
  deriving DecidableEq, Repr

/-- `DurableSupervisorState`. -/
structure DurableSupervisorState where
  supervisorScope : PyStr
  fencingGeneration : Nat
  leaseHolder : Option PyStr
  leaseActive : Bool
  quiescenceMode : ServiceMode
  eventWatermarks : Dict PyStr Int
  eventIdentities : Dict PyStr PyStr
  sweepIdentities : List PyStr
  transactions : Dict PyStr Transaction
  ownership : Dict PyStr Ownership
  lastReconciliationId : Option PyStr
  providerAttempts : Dict PyStr Int
  deriving DecidableEq, Repr

/-- A state in which nothing has happened. -/
def DurableSupervisorState.empty (scope : PyStr) (mode : ServiceMode) : DurableSupervisorState :=
  ⟨scope, 0, none, false, mode, [], [], [], [], [], none, []⟩

/-- `SupervisorLease`. -/
@[ext]
structure SupervisorLease where
  scope : PyStr
  holderIdentity : PyStr
  fencingGeneration : Int
  active : Bool
  one_le : 1 ≤ fencingGeneration
  deriving DecidableEq, Repr

/-- `PersistentDispatchProposal`. -/
structure PersistentDispatchProposal where
  programmeId : PyStr
  packetId : PyStr
  requestId : PyStr
  authorityViewId : PyStr
  executorIdentity : PyStr
  action : PyStr
  writeDomain : Option PyStr
  semanticOwner : Option PyStr
  fencingGeneration : Int
  deriving DecidableEq, Repr

/-- What backoff reads of a `PersistentTimingPolicy`; a frozen one has a schedule. -/
structure PersistentTimingPolicy where
  activationReady : Bool
  providerBackoffSeconds : List Int
  schedule_ne_nil : activationReady = true → providerBackoffSeconds ≠ []

/-- What the service raises. -/
inductive SupervisorError where
  | runtime (text : PyStr)
  | value (text : PyStr)
  | permission (text : PyStr)
  | key (text : PyStr)
  | python (e : PyError)
  deriving DecidableEq, Repr

variable (P : Platform)

/-! ## Identities -/

/-- `_content_id`. -/
def contentId (v : PyVal) : Except PyError PyStr := do
  let tree ← dumps P v
  let bytes ← encodeUtf8 tree.render
  return (P.sha256 bytes).text

/-- `PersistentDispatchProposal.dispatch_id`. -/
def PersistentDispatchProposal.dispatchId (p : PersistentDispatchProposal) :
    Except PyError PyStr :=
  contentId P (.ofRecord [(py "programme_id", .str p.programmeId),
    (py "packet_id", .str p.packetId), (py "request_id", .str p.requestId),
    (py "authority_view_id", .str p.authorityViewId),
    (py "executor_identity", .str p.executorIdentity), (py "action", .str p.action),
    (py "write_domain", .ofStr? p.writeDomain), (py "semantic_owner", .ofStr? p.semanticOwner),
    (py "fencing_generation", .int p.fencingGeneration)])

/-- The key of an event: `f"{source}:{source_sequence}"`. -/
def eventKey (source : PyStr) (sourceSequence : Int) : Except PyError PyStr :=
  (strInt sourceSequence).map fun digits => source ++ py ":" ++ digits

/-- The identity of an event. -/
def eventIdentity (source : PyStr) (sourceSequence : Int) (event : List (PyKey × PyVal)) :
    Except PyError PyStr :=
  contentId P (.ofRecord [(py "source", .str source),
    (py "source_sequence", .int sourceSequence), (py "event", .dict event)])

/-! ## Leases -/

variable (s : DurableSupervisorState)

/-- `acquire_lease`. -/
def acquireLease (holderIdentity : PyStr) :
    Except SupervisorError (SupervisorLease × DurableSupervisorState) := do
  check (s.leaseActive = false) (.runtime (py "SUPERVISOR_LEASE_ALREADY_HELD"))
  return (⟨s.supervisorScope, holderIdentity, s.fencingGeneration + 1, true, by omega⟩,
    { s with
      fencingGeneration := s.fencingGeneration + 1
      leaseHolder := some holderIdentity
      leaseActive := true })

/-- The state without a lease. -/
def DurableSupervisorState.unleased : DurableSupervisorState :=
  { s with leaseActive := false, leaseHolder := none }

/-- `reclaim_lease`. -/
def reclaimLease (holderIdentity : PyStr) (livenessExpired : Bool) :
    Except SupervisorError (SupervisorLease × DurableSupervisorState) := do
  check (¬ (s.leaseActive = true ∧ livenessExpired = false))
    (.runtime (py "RECLAIM_REQUIRES_QUALIFIED_LIVENESS_EXPIRY"))
  acquireLease s.unleased holderIdentity

/-- `validate_lease`. -/
def Validates (lease : SupervisorLease) : Prop :=
  s.leaseActive = true ∧ lease.active = true ∧ lease.scope = s.supervisorScope ∧
    some lease.holderIdentity = s.leaseHolder ∧ lease.fencingGeneration = s.fencingGeneration

instance (s : DurableSupervisorState) (lease : SupervisorLease) : Decidable (Validates s lease) :=
  inferInstanceAs (Decidable (_ ∧ _))

/-- `_require_lease`. -/
def requireLease (lease : SupervisorLease) : Except SupervisorError Unit :=
  check (Validates s lease) (.permission (py "STALE_FENCE"))

/-- `release_lease`. -/
def releaseLease (lease : SupervisorLease) :
    Except SupervisorError DurableSupervisorState := do
  requireLease s lease
  return s.unleased

/-- `set_quiescence`. -/
def setQuiescence (mode : PyStr) : Except SupervisorError DurableSupervisorState :=
  match ServiceMode.ofText? mode with
  | some mode => .ok { s with quiescenceMode := mode }
  | none => .error (.value (py "UNKNOWN_QUIESCENCE_MODE"))

/-! ## Events -/

/-- What an event that was not seen before does. -/
def recordEvent (source : PyStr) (sourceSequence : Int)
    (key identity : PyStr) : Except SupervisorError (Bool × DurableSupervisorState) := do
  let watermark := (s.eventWatermarks.get? source).getD (-1)
  check (watermark ≤ sourceSequence)
    (.value (py "EVENT_SEQUENCE_BEHIND_DURABLE_WATERMARK"))
  return (true, { s with
    eventIdentities := s.eventIdentities.set key identity
    eventWatermarks := s.eventWatermarks.set source (max watermark sourceSequence) })

/-- `ingest_event`, with whether the event is new. -/
def ingestEvent (source : PyStr) (sourceSequence : Int)
    (event : List (PyKey × PyVal)) : Except SupervisorError (Bool × DurableSupervisorState) := do
  check (0 ≤ sourceSequence) (.value (py "EVENT_SEQUENCE_MUST_BE_NONNEGATIVE"))
  let key ← (eventKey source sourceSequence).mapError .python
  let identity ← (eventIdentity P source sourceSequence event).mapError .python
  match s.eventIdentities.get? key with
  | some existing => do
    check (existing = identity) (.value (py "EVENT_IDENTITY_CONFLICT"))
    return (false, s)
  | none => recordEvent s source sourceSequence key identity

/-- `reference_sweep`. -/
def referenceSweep (reconciliationId : PyStr)
    (lease : SupervisorLease) : Except SupervisorError (Bool × DurableSupervisorState) := do
  requireLease s lease
  return if reconciliationId ∈ s.sweepIdentities then (false, s)
    else (true, { s with
      sweepIdentities := s.sweepIdentities ++ [reconciliationId]
      lastReconciliationId := some reconciliationId })

/-! ## Dispatches -/

variable (dispatchId : PyStr)

/-- `_transaction`. -/
def transaction : Except SupervisorError Transaction :=
  match s.transactions.get? dispatchId with
  | some t => .ok t
  | none => .error (.key (py "DISPATCH_INTENT_NOT_PERSISTED"))

/-- The owner of a dispatch, when it is authoritative. -/
def authoritativeOwner? : Option Ownership :=
  (s.ownership.get? dispatchId).filter Ownership.authoritative

/-- `_authoritative_owner`. -/
def authoritativeOwner : Except SupervisorError Ownership :=
  match authoritativeOwner? s dispatchId with
  | some owner => .ok owner
  | none => .error (.permission (py "NO_AUTHORITATIVE_WORKER_OWNERSHIP"))

/-- The state with the record of a dispatch. -/
def withTransaction (t : Transaction) : DurableSupervisorState :=
  { s with transactions := s.transactions.set dispatchId t }

/-- The state with the owner of a dispatch. -/
def withOwner (owner : Ownership) : DurableSupervisorState :=
  { s with ownership := s.ownership.set dispatchId owner }

/-- The record and the state with it. -/
def updated (t : Transaction) : Transaction × DurableSupervisorState :=
  (t, withTransaction s dispatchId t)

/-- A dispatch that was not persisted before is persisted; the record of another is returned. -/
def persisted (lease : SupervisorLease) :
    Except SupervisorError (Transaction × DurableSupervisorState) :=
  match s.transactions.get? dispatchId with
  | some existing =>
    if existing.phase = .dispatchUnknown then
      .error (.runtime (py "UNKNOWN_START_MUST_RECONCILE_BEFORE_REDISPATCH"))
    else .ok (existing, s)
  | none =>
    .ok (updated s dispatchId ⟨dispatchId, .intentPersisted, lease.fencingGeneration, none, none⟩)

/-- `persist_dispatch_intent`. -/
def persistDispatchIntent (proposal : PersistentDispatchProposal)
    (lease : SupervisorLease) : Except SupervisorError (Transaction × DurableSupervisorState) := do
  requireLease s lease
  check (s.quiescenceMode = .run) (.permission
    (py "QUIESCENCE_" ++ s.quiescenceMode.text ++ py "_BLOCKS_NEW_DISPATCH"))
  check (proposal.fencingGeneration = lease.fencingGeneration)
    (.permission (py "STALE_FENCE"))
  let dispatchId ← (proposal.dispatchId P).mapError .python
  persisted s dispatchId lease

/-- `mark_unknown_start`. -/
def markUnknownStart (lease : SupervisorLease)
    (reason : PyStr) : Except SupervisorError (Transaction × DurableSupervisorState) := do
  requireLease s lease
  let current ← transaction s dispatchId
  return if current.phase.Terminal then (current, s)
    else updated s dispatchId
      { current with phase := .dispatchUnknown, reason := some reason }

/-- The start of a worker on a dispatch that has no authoritative owner. -/
def started (dispatchId workerRunId : PyStr) (lease : SupervisorLease)
    (current : Transaction) : Transaction × DurableSupervisorState :=
  updated (withOwner s dispatchId ⟨dispatchId, workerRunId, lease.fencingGeneration, 0, true⟩)
    dispatchId { current with
      phase := .startAcknowledged, workerRunId := some workerRunId, reason := none }

/-- `acknowledge_start`. -/
def acknowledgeStart (dispatchId workerRunId : PyStr)
    (lease : SupervisorLease) : Except SupervisorError (Transaction × DurableSupervisorState) := do
  requireLease s lease
  let current ← transaction s dispatchId
  check (current.fencingGeneration = lease.fencingGeneration)
    (.permission (py "STALE_FENCE"))
  match authoritativeOwner? s dispatchId with
  | some owner => do
    check (owner.workerRunId = workerRunId)
      (.runtime (py "DUPLICATE_AUTHORITATIVE_START"))
    return (current, s)
  | none => return started s dispatchId workerRunId lease current

/-- `mark_running`. -/
def markRunning (lease : SupervisorLease) :
    Except SupervisorError (Transaction × DurableSupervisorState) := do
  requireLease s lease
  let current ← transaction s dispatchId
  check (current.phase = .running ∨ current.phase = .startAcknowledged)
    (.runtime (py "RUNNING_REQUIRES_START_ACKNOWLEDGED"))
  return if current.phase = .running then (current, s)
    else updated s dispatchId { current with phase := .running }

/-- `heartbeat`. -/
def heartbeat (dispatchId workerRunId : PyStr)
    (lease : SupervisorLease) : Except SupervisorError (Ownership × DurableSupervisorState) := do
  requireLease s lease
  let owner ← authoritativeOwner s dispatchId
  check (owner.workerRunId = workerRunId ∧ owner.fencingGeneration = lease.fencingGeneration)
    (.permission (py "STALE_OR_NONAUTHORITATIVE_HEARTBEAT"))
  let owner := { owner with heartbeatSequence := owner.heartbeatSequence + 1 }
  return (owner, withOwner s dispatchId owner)

/-- `mark_worker_lost`. -/
def markWorkerLost (dispatchId workerRunId : PyStr)
    (lease : SupervisorLease) : Except SupervisorError (Transaction × DurableSupervisorState) := do
  requireLease s lease
  let owner ← authoritativeOwner s dispatchId
  check (owner.workerRunId = workerRunId)
    (.permission (py "WORKER_OWNERSHIP_MISMATCH"))
  let s := withOwner s dispatchId { owner with authoritative := false }
  let current ← transaction s dispatchId
  return updated s dispatchId { current with
    phase := .dispatchUnknown, reason := some (py "WORKER_LOST_RECONCILE_REQUIRED") }

/-- `value or default` of a text. -/
def orElse (value default : Option PyStr) : Option PyStr :=
  match value with
  | some text => if text = [] then default else some text
  | none => default

/-- The record of a dispatch after its start was reconciled. -/
def Transaction.reconciled (current : Transaction) (phase : Phase) (workerRunId : Option PyStr) :
    Transaction :=
  { current with
    phase := phase
    workerRunId := orElse workerRunId current.workerRunId
    reason := some (py "UNKNOWN_START_RECONCILED") }

/-- A start that was observed: the worker becomes the owner, unless another one is. -/
def observedStart (dispatchId workerRunId : PyStr)
    (lease : SupervisorLease) : Except SupervisorError DurableSupervisorState := do
  check (∀ owner ∈ authoritativeOwner? s dispatchId, owner.workerRunId = workerRunId)
    (.runtime (py "DUPLICATE_AUTHORITATIVE_START"))
  let heartbeats := ((s.ownership.get? dispatchId).map Ownership.heartbeatSequence).getD 0
  return withOwner s dispatchId
    ⟨dispatchId, workerRunId, lease.fencingGeneration, heartbeats, true⟩

/-- A dispatch whose start is unknown, after its phase was observed. -/
def observed (lease : SupervisorLease)
    (current : Transaction) (observedWorkerRunId : Option PyStr) (phase : Phase) :
    Except SupervisorError (Transaction × DurableSupervisorState) := do
  if phase.Active then
    match orElse observedWorkerRunId none with
    | none => .error (.value (py "OBSERVED_ACTIVE_START_REQUIRES_WORKER_ID"))
    | some workerRunId => do
      let s ← observedStart s dispatchId workerRunId lease
      return updated s dispatchId (current.reconciled phase observedWorkerRunId)
  else return updated s dispatchId (current.reconciled phase observedWorkerRunId)

/-- A dispatch whose start did not happen. -/
def Transaction.notStarted (current : Transaction) : Transaction :=
  { current with
    phase := .intentPersisted
    workerRunId := none
    reason := some (py "RECONCILED_NO_AUTHORITATIVE_START") }

/-- What is observed of a dispatch whose start is unknown. -/
def reconciled (lease : SupervisorLease)
    (current : Transaction) (observedPhase : PyStr) (observedWorkerRunId : Option PyStr) :
    Except SupervisorError (Transaction × DurableSupervisorState) :=
  if observedPhase = py "NO_START" then .ok (updated s dispatchId current.notStarted)
  else
    match Phase.ofText? observedPhase with
    | some phase =>
      if phase = .intentPersisted ∨ phase = .dispatchUnknown then
        .error (.value (py "UNKNOWN_OBSERVED_PHASE"))
      else observed s dispatchId lease current observedWorkerRunId phase
    | none => .error (.value (py "UNKNOWN_OBSERVED_PHASE"))

/-- `reconcile_unknown`. -/
def reconcileUnknown (lease : SupervisorLease)
    (observedPhase : PyStr) (observedWorkerRunId : Option PyStr) :
    Except SupervisorError (Transaction × DurableSupervisorState) := do
  requireLease s lease
  let current ← transaction s dispatchId
  if current.phase = .dispatchUnknown then
    reconciled s dispatchId lease current observedPhase observedWorkerRunId
  else return (current, s)

/-- `complete`. -/
def complete (dispatchId workerRunId : PyStr) (lease : SupervisorLease) (success : Bool) :
    Except SupervisorError (Transaction × DurableSupervisorState) := do
  requireLease s lease
  let owner ← authoritativeOwner s dispatchId
  check (owner.workerRunId = workerRunId ∧ owner.fencingGeneration = lease.fencingGeneration)
    (.permission (py "STALE_WORKER_COMPLETION"))
  let current ← transaction s dispatchId
  return updated s dispatchId { current with
    phase := if success then .completed else .failed
    workerRunId := some workerRunId
    reason := none }

/-- `backoff_for_attempt`. -/
def backoffForAttempt (policy : PersistentTimingPolicy) (s : DurableSupervisorState)
    (provider : PyStr) (attempt : Int) : Except SupervisorError (Int × DurableSupervisorState) := do
  check (policy.activationReady = true) (.runtime (py "TIMING_POLICY_NOT_FROZEN"))
  check (0 ≤ attempt) (.value (py "BACKOFF_ATTEMPT_MUST_BE_NONNEGATIVE"))
  let schedule := policy.providerBackoffSeconds
  let index := min attempt.toNat (schedule.length - 1)
  return ((schedule[index]?).getD 0,
    { s with providerAttempts := s.providerAttempts.set provider attempt })

/-! ## Calls -/

/-- A call of the service, with its arguments. -/
inductive Call where
  | acquireLease (holderIdentity : PyStr)
  | reclaimLease (holderIdentity : PyStr) (livenessExpired : Bool)
  | releaseLease (lease : SupervisorLease)
  | setQuiescence (mode : PyStr)
  | ingestEvent (source : PyStr) (sourceSequence : Int) (event : List (PyKey × PyVal))
  | referenceSweep (reconciliationId : PyStr) (lease : SupervisorLease)
  | persistDispatchIntent (proposal : PersistentDispatchProposal) (lease : SupervisorLease)
  | markUnknownStart (dispatchId : PyStr) (lease : SupervisorLease) (reason : PyStr)
  | acknowledgeStart (dispatchId workerRunId : PyStr) (lease : SupervisorLease)
  | markRunning (dispatchId : PyStr) (lease : SupervisorLease)
  | heartbeat (dispatchId workerRunId : PyStr) (lease : SupervisorLease)
  | markWorkerLost (dispatchId workerRunId : PyStr) (lease : SupervisorLease)
  | reconcileUnknown (dispatchId : PyStr) (lease : SupervisorLease) (observedPhase : PyStr)
      (observedWorkerRunId : Option PyStr)
  | complete (dispatchId workerRunId : PyStr) (lease : SupervisorLease) (success : Bool)
  | backoffForAttempt (provider : PyStr) (attempt : Int)

/-- The state that a call leaves. -/
def call (policy : PersistentTimingPolicy) (s : DurableSupervisorState) :
    Call → Except SupervisorError DurableSupervisorState
  | .acquireLease holderIdentity => (acquireLease s holderIdentity).map Prod.snd
  | .reclaimLease holderIdentity livenessExpired =>
    (reclaimLease s holderIdentity livenessExpired).map Prod.snd
  | .releaseLease lease => releaseLease s lease
  | .setQuiescence mode => setQuiescence s mode
  | .ingestEvent source sourceSequence event =>
    (ingestEvent P s source sourceSequence event).map Prod.snd
  | .referenceSweep reconciliationId lease =>
    (referenceSweep s reconciliationId lease).map Prod.snd
  | .persistDispatchIntent proposal lease =>
    (persistDispatchIntent P s proposal lease).map Prod.snd
  | .markUnknownStart dispatchId lease reason =>
    (markUnknownStart s dispatchId lease reason).map Prod.snd
  | .acknowledgeStart dispatchId workerRunId lease =>
    (acknowledgeStart s dispatchId workerRunId lease).map Prod.snd
  | .markRunning dispatchId lease => (markRunning s dispatchId lease).map Prod.snd
  | .heartbeat dispatchId workerRunId lease =>
    (heartbeat s dispatchId workerRunId lease).map Prod.snd
  | .markWorkerLost dispatchId workerRunId lease =>
    (markWorkerLost s dispatchId workerRunId lease).map Prod.snd
  | .reconcileUnknown dispatchId lease observedPhase observedWorkerRunId =>
    (reconcileUnknown s dispatchId lease observedPhase observedWorkerRunId).map Prod.snd
  | .complete dispatchId workerRunId lease success =>
    (complete s dispatchId workerRunId lease success).map Prod.snd
  | .backoffForAttempt provider attempt => (backoffForAttempt policy s provider attempt).map Prod.snd

/-- The lease that a call is given, when it needs one. -/
def Call.lease? : Call → Option SupervisorLease
  | .releaseLease lease => some lease
  | .referenceSweep _ lease => some lease
  | .persistDispatchIntent _ lease => some lease
  | .markUnknownStart _ lease _ => some lease
  | .acknowledgeStart _ _ lease => some lease
  | .markRunning _ lease => some lease
  | .heartbeat _ _ lease => some lease
  | .markWorkerLost _ _ lease => some lease
  | .reconcileUnknown _ lease _ _ => some lease
  | .complete _ _ lease _ => some lease
  | _ => none

/-! ## A proposal -/

namespace Reference

theorem one_le_one : (1 : Int) ≤ 1 := le_refl 1

theorem schedule_of_unfrozen : false = true → ([] : List Int) ≠ [] := nofun

/-- A scope of a supervisor. -/
def scope : PyStr := py "CERS_PERSISTENT_SUPERVISOR"

/-- The first lease of that scope. -/
def lease : SupervisorLease := ⟨scope, py "SUPERVISOR", 1, true, one_le_one⟩

/-- A proposal under that lease. -/
def proposal : PersistentDispatchProposal :=
  ⟨py "P", py "A", py "R", py "V", py "E", py "WRITE_FILE", none, none, 1⟩

/-- A policy that is not frozen. -/
def unfrozen : PersistentTimingPolicy := ⟨false, [], schedule_of_unfrozen⟩

/-- The dispatch of the proposal. -/
def dispatch : PyStr := ((proposal.dispatchId .reference).toOption).getD []

end Reference

end Supervisor

end OvcReplay.Skills
