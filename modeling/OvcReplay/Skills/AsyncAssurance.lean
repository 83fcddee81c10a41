import OvcReplay.Skills.Identity

/-! # Assurance futures

`async_assurance.py`: the result of a check that is awaited, the signals that complete it and the
frontier changes that make it stale. -/

namespace OvcReplay.Skills

open Python Json

/-- What a call raises: a `ValueError` with its message, or what the hash of an identity raises. -/
inductive AssuranceError where
  | refused (message : PyStr)
  | identity (e : PyError)
  deriving DecidableEq

/-! ## Classes -/

/-- `ASSURANCE_CLASSES`. -/
inductive AssuranceClass where
  | backgroundReusable
  | prospectiveTreeBound
  | materialisationEdge
  | postWriteEquivalence
  deriving DecidableEq, Repr

namespace AssuranceClass

/-- The text of a class. -/
def text : AssuranceClass → PyStr
  | backgroundReusable => py "AA0_BACKGROUND_REUSABLE"
  | prospectiveTreeBound => py "AA1_PROSPECTIVE_TREE_BOUND"
  | materialisationEdge => py "AA2_MATERIALISATION_EDGE"
  | postWriteEquivalence => py "AA3_POST_WRITE_EQUIVALENCE"

/-- The class of a text. -/
def ofText? (s : PyStr) : Option AssuranceClass :=
  [backgroundReusable, prospectiveTreeBound, materialisationEdge, postWriteEquivalence].find?
    fun k => k.text = s

@[simp] theorem ofText?_text (k : AssuranceClass) : ofText? k.text = some k := by
  cases k <;> decide +kernel

end AssuranceClass

/-- The reuse classes. -/
inductive ReuseClass where
  | ifDependenciesUnchanged
  | noReuse
  deriving DecidableEq, Repr

namespace ReuseClass

/-- The text of a reuse class. -/
def text : ReuseClass → PyStr
  | ifDependenciesUnchanged => py "REUSE_IF_DEPENDENCIES_UNCHANGED"
  | noReuse => py "NO_REUSE"

/-- The reuse class of a text. -/
def ofText? (s : PyStr) : Option ReuseClass :=
  [ifDependenciesUnchanged, noReuse].find? fun k => k.text = s

@[simp] theorem ofText?_text (k : ReuseClass) : ofText? k.text = some k := by
  cases k <;> decide +kernel

end ReuseClass

/-- The reuse class that an assurance class admits: the two edge classes are never reused. -/
def AssuranceClass.admitted (k : AssuranceClass) (reuse : ReuseClass) : ReuseClass :=
  if k = .materialisationEdge ∨ k = .postWriteEquivalence then .noReuse else reuse

/-- `normalize_assurance_class`. -/
def normalizeAssuranceClass (assuranceClass reuseClass : PyStr) : AssuranceClass × ReuseClass :=
  let k := (AssuranceClass.ofText? assuranceClass).getD .materialisationEdge
  (k, k.admitted ((ReuseClass.ofText? reuseClass).getD .noReuse))

theorem AssuranceClass.admitted_admitted (k : AssuranceClass) (reuse : ReuseClass) :
    k.admitted (k.admitted reuse) = k.admitted reuse := by
  rw [admitted, admitted]
  split <;> rfl

/-! ## States -/

/-- `FUTURE_STATES`. -/
inductive FutureState where
  | created
  | running
  | pass
  | failCorrectable
  | failBlocking
  | stale
  | cancelled
  | superseded
  | notEvaluable
  deriving DecidableEq, Repr

namespace FutureState

/-- The text of a state. -/
def text : FutureState → PyStr
  | created => py "CREATED"
  | running => py "RUNNING"
  | pass => py "PASS"
  | failCorrectable => py "FAIL_CORRECTABLE"
  | failBlocking => py "FAIL_BLOCKING"
  | stale => py "STALE"
  | cancelled => py "CANCELLED"
  | superseded => py "SUPERSEDED"
  | notEvaluable => py "NOT_EVALUABLE"

/-- All states. -/
def all : List FutureState :=
  [created, running, pass, failCorrectable, failBlocking, stale, cancelled, superseded,
    notEvaluable]

/-- The state of a text. -/
def ofText? (s : PyStr) : Option FutureState := all.find? fun state => state.text = s

@[simp] theorem ofText?_text (state : FutureState) : ofText? state.text = some state := by
  cases state <;> decide +kernel

/-- The states in which `apply_completion_signal` compares the conclusions. -/
def Terminal : FutureState → Prop
  | pass => True
  | cancelled => True
  | failCorrectable => True
  | failBlocking => True
  | notEvaluable => True
  | _ => False

instance : DecidablePred Terminal := fun state => by
  cases state <;> unfold Terminal <;> infer_instance

end FutureState

open FutureState

/-! ## Futures -/

/-- The fields of a future that have to be given. -/
structure FutureIdentity where
  programmeId : PyStr
  packetId : PyStr
  payloadId : PyStr
  assuranceProfileId : PyStr
  candidateCommit : PyStr
  providerAdapterId : PyStr
  workflowName : PyStr
  runId : PyStr
  checkName : PyStr

/-- The fields, in the order in which they are checked. -/
def FutureIdentity.fields (identity : FutureIdentity) : List PyStr :=
  [identity.programmeId, identity.packetId, identity.payloadId, identity.assuranceProfileId,
    identity.candidateCommit, identity.providerAdapterId, identity.workflowName, identity.runId,
    identity.checkName]

/-- The arguments of `AssuranceFuture`. -/
structure FutureArguments extends FutureIdentity where
  assuranceClass : PyStr := AssuranceClass.materialisationEdge.text
  reuseClass : PyStr := ReuseClass.noReuse.text
  dependencyScope : List PyStr := []
  vitGenerationId : Option PyStr := none
  treeId : Option PyStr := none
  state : PyStr := created.text
  conclusion : Option PyStr := none
  evidenceRefs : List PyStr := []
  supersededBy : Option PyStr := none

/-- `AssuranceFuture`, as `__post_init__` leaves it. -/
structure AssuranceFuture extends FutureIdentity where
  assuranceClass : AssuranceClass
  reuseClass : ReuseClass
  dependencyScope : List PyStr
  vitGenerationId : Option PyStr
  treeId : Option PyStr
  state : FutureState
  conclusion : Option PyStr
  evidenceRefs : List PyStr
  supersededBy : Option PyStr
  fields_ne_nil : ∀ field ∈ toFutureIdentity.fields, field ≠ []
  admitted_reuseClass : assuranceClass.admitted reuseClass = reuseClass
  sorted_dependencyScope : sortedSet dependencyScope = dependencyScope

namespace AssuranceFuture

/-- The future with its classes normalised, given its state. -/
def normalised (args : FutureArguments) (state : FutureState)
    (h : ∀ field ∈ args.fields, field ≠ []) : AssuranceFuture where
  toFutureIdentity := args.toFutureIdentity
  assuranceClass := (normalizeAssuranceClass args.assuranceClass args.reuseClass).1
  reuseClass := (normalizeAssuranceClass args.assuranceClass args.reuseClass).2
  dependencyScope := sortedSet args.dependencyScope
  vitGenerationId := args.vitGenerationId
  treeId := args.treeId
  state := state
  conclusion := args.conclusion
  evidenceRefs := args.evidenceRefs
  supersededBy := args.supersededBy
  fields_ne_nil := h
  admitted_reuseClass := AssuranceClass.admitted_admitted _ _
  sorted_dependencyScope := by
    rw [sortedSet_of_nodup (sortedSet_nodup _)]
    exact sortedBy_eq_self (sortedBy_pairwise id _)

/-- `AssuranceFuture(...)`. -/
def create (args : FutureArguments) : Except AssuranceError AssuranceFuture :=
  match FutureState.ofText? args.state with
  | none => .error (.refused (py "unknown AssuranceFuture state"))
  | some state =>
    if h : ∀ field ∈ args.fields, field ≠ [] then .ok (normalised args state h)
    else .error (.refused (py "AssuranceFuture identity fields are required"))

/-- The fields of a future. -/
def arguments (f : AssuranceFuture) : FutureArguments where
  toFutureIdentity := f.toFutureIdentity
  assuranceClass := f.assuranceClass.text
  reuseClass := f.reuseClass.text
  dependencyScope := f.dependencyScope
  vitGenerationId := f.vitGenerationId
  treeId := f.treeId
  state := f.state.text
  conclusion := f.conclusion
  evidenceRefs := f.evidenceRefs
  supersededBy := f.supersededBy

variable (P : Platform)

/-- The logical content of the identity of a future. -/
def logical (f : AssuranceFuture) : PyVal :=
  .ofRecord [(py "programme_id", .str f.programmeId), (py "packet_id", .str f.packetId),
    (py "payload_id", .str f.payloadId), (py "vit_generation_id", .ofStr? f.vitGenerationId),
    (py "assurance_profile_id", .str f.assuranceProfileId),
    (py "assurance_class", .str f.assuranceClass.text),
    (py "reuse_class", .str f.reuseClass.text),
    (py "dependency_scope", .tuple (f.dependencyScope.map .str)),
    (py "candidate_commit", .str f.candidateCommit), (py "tree_id", .ofStr? f.treeId),
    (py "provider_adapter_id", .str f.providerAdapterId),
    (py "workflow_name", .str f.workflowName), (py "run_id", .str f.runId),
    (py "check_name", .str f.checkName)]

/-- `future_id`. -/
def futureId (f : AssuranceFuture) : Except PyError HexDigest :=
  canonicalSha256 P f.logical (py "OVC_DSAI3V_ASSURANCE_FUTURE")

end AssuranceFuture

/-! ## Signals -/

/-- `AssuranceCompletionSignal`. -/
structure AssuranceCompletionSignal where
  futureId : PyStr
  providerAdapterId : PyStr
  repository : PyStr
  candidateCommit : PyStr
  workflowName : PyStr
  runId : PyStr
  checkName : PyStr
  conclusion : PyStr
  observedAt : PyStr
  deriving DecidableEq

variable (P : Platform)

namespace AssuranceCompletionSignal

variable (s : AssuranceCompletionSignal)

/-- `asdict(self)`. -/
def asdict : PyVal :=
  .ofRecord [(py "future_id", .str s.futureId),
    (py "provider_adapter_id", .str s.providerAdapterId), (py "repository", .str s.repository),
    (py "candidate_commit", .str s.candidateCommit), (py "workflow_name", .str s.workflowName),
    (py "run_id", .str s.runId), (py "check_name", .str s.checkName),
    (py "conclusion", .str s.conclusion), (py "observed_at", .str s.observedAt)]

/-- `signal_id`. -/
def signalId : Except PyError HexDigest :=
  canonicalSha256 P s.asdict (py "OVC_DSAI3V_ASSURANCE_COMPLETION_SIGNAL")

/-- The signal names the provider, the commit, the workflow, the run and the check of a future. -/
def Binds (f : AssuranceFuture) : Prop :=
  s.providerAdapterId = f.providerAdapterId ∧ s.candidateCommit = f.candidateCommit ∧
    s.workflowName = f.workflowName ∧ s.runId = f.runId ∧ s.checkName = f.checkName

instance (s : AssuranceCompletionSignal) (f : AssuranceFuture) : Decidable (s.Binds f) :=
  inferInstanceAs (Decidable (_ ∧ _))

end AssuranceCompletionSignal

/-- `_signal_state`; `upper` is `str.upper`. -/
def signalState (upper : PyStr → PyStr) (conclusion : PyStr) : FutureState :=
  let value := upper conclusion
  if value = py "SUCCESS" then pass
  else if value ∈ [py "CANCELLED", py "SKIPPED"] then cancelled
  else if value ∈ [py "FAILURE", py "TIMED_OUT", py "ACTION_REQUIRED"] then failCorrectable
  else notEvaluable

variable (upper : PyStr → PyStr)

namespace AssuranceFuture

variable (f : AssuranceFuture)

/-- The future that a signal completed. -/
def concluded (s : AssuranceCompletionSignal) (signalId : HexDigest) : AssuranceFuture :=
  { f with
    state := signalState upper s.conclusion
    conclusion := some s.conclusion
    evidenceRefs := sortedSet (f.evidenceRefs ++ [signalId.text]) }

/-- `apply_completion_signal`. -/
def applyCompletionSignal (s : AssuranceCompletionSignal) :
    Except AssuranceError AssuranceFuture := do
  let futureId ← (f.futureId P).mapError .identity
  check (s.futureId = futureId.text) (.refused (py "signal/future identity mismatch"))
  check (s.Binds f) (.refused (py "signal exact binding mismatch"))
  let signalId ← (s.signalId P).mapError .identity
  if signalId.text ∈ f.evidenceRefs then return f
  check (¬ (f.state.Terminal ∧ f.conclusion ≠ some s.conclusion))
    (.refused (py "conflicting terminal assurance signal"))
  return f.concluded upper s signalId

/-! ## Frontier changes -/

/-- The frontier change leaves the result usable. -/
def Reusable (changed : List PyStr) : Prop :=
  f.assuranceClass = .backgroundReusable ∧ f.reuseClass = .ifDependenciesUnchanged ∧
    ∀ dependency ∈ f.dependencyScope, dependency ∉ changed

instance (f : AssuranceFuture) (changed : List PyStr) : Decidable (f.Reusable changed) :=
  inferInstanceAs (Decidable (_ ∧ _))

/-- `reuse_after_frontier_change`. -/
def reuseAfterFrontierChange (changed : List PyStr) : AssuranceFuture :=
  if f.state ≠ pass then f
  else if f.Reusable changed then f
  else { f with state := stale }

end AssuranceFuture

/-! ## Required sets -/

/-- `RequiredAssuranceSet`, as `__post_init__` leaves it. -/
structure RequiredAssuranceSet where
  programmeId : PyStr
  packetId : PyStr
  version : PyStr
  requiredFutureIds : List PyStr
  allowedTerminalStates : List PyStr
  sorted_requiredFutureIds : sortedSet requiredFutureIds = requiredFutureIds
  sorted_allowedTerminalStates : sortedSet allowedTerminalStates = allowedTerminalStates
  requiredFutureIds_ne_nil : requiredFutureIds ≠ []

/-- The default of `allowed_terminal_states`. -/
def defaultTerminalStates : List PyStr := [pass.text]

/-- One required future of `required_assurance_satisfied`. -/
def assured (allowed : List PyStr) : Option AssuranceFuture → Bool
  | none => false
  | some f =>
    f.state.text ∈ allowed ∧ f.state ≠ stale ∧ f.state ≠ superseded ∧
      f.supersededBy.getD [] = []

/-- `required_assurance_satisfied`. -/
def requiredAssuranceSatisfied (set : RequiredAssuranceSet)
    (futures : Dict PyStr AssuranceFuture) : Bool :=
  set.requiredFutureIds.all fun futureId =>
    assured set.allowedTerminalStates (Dict.get? futures futureId)

end OvcReplay.Skills
