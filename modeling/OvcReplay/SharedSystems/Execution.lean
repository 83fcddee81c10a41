import OvcReplay.Json.Dumps

/-! # The execution kernel

`execution.py`: a run computes a transform of every record of a population and commits the results
in the order of the population. It may stop before or after a commit, at a checkpoint that carries
what was committed, and a later call goes on from the checkpoint. The results are computed in any
physical order. -/

namespace OvcReplay.SharedSystems

open Python Json

/-- `SharedExecutionError` with its code, or an exception of the language. -/
inductive ExecutionError where
  | shared (code : PyStr)
  | python (e : PyError)
  deriving DecidableEq, Repr

variable (P : Platform)

/-! ## Hashes and references -/

/-- `_hash`. -/
def hash (v : PyVal) : Except ExecutionError PyStr := do
  let text ← ((dumps P v).bind fun tree => encodeUtf8 tree.render).mapError fun e =>
    if e.isTypeOrValueError then .shared (py "NON_CANONICAL_EXECUTION_VALUE") else .python e
  return (P.sha256 text).text

/-- `_exact`, with the name of the field in capitals. The texts are lowered as far as the letters of
ASCII go: no other letter has a lower case among the letters that are looked for. -/
def exact (value field : PyStr) : Except ExecutionError Unit :=
  check (value ≠ [] ∧ ¬ py "latest" <:+: value.map CodePoint.lowerAscii)
    (.shared (field ++ py "_EXACT_REF_REQUIRED"))

/-! ## The specification of a run -/

/-- A tuple of texts. -/
def strTuple (xs : List PyStr) : PyVal := .tuple (xs.map .str)

/-- `RunSpecification`. -/
structure RunSpecification where
  semanticGenerationRef : PyStr
  populationIds : List PyStr
  scopeRef : PyStr
  evaluationCutoff : PyStr
  parameters : PyVal
  outputContractRef : PyStr
  logicalBarriers : List PyStr

/-- `RunSpecification.__post_init__`. -/
def RunSpecification.postInit (spec : RunSpecification) : Except ExecutionError Unit := do
  exact spec.semanticGenerationRef (py "SEMANTIC_GENERATION_REF")
  exact spec.scopeRef (py "SCOPE_REF")
  exact spec.outputContractRef (py "OUTPUT_CONTRACT_REF")
  check (spec.populationIds ≠ [] ∧ spec.populationIds.Nodup) (.shared (py "POPULATION_INVALID"))
  check (sortedBy id spec.populationIds = spec.populationIds)
    (.shared (py "POPULATION_CANONICAL_ORDER_REQUIRED"))
  check (∀ barrier ∈ spec.logicalBarriers, py "SOURCE:" <+: barrier)
    (.shared (py "WALL_CLOCK_BARRIER_FORBIDDEN"))

/-- `RunSpecification.logical_id`. -/
def RunSpecification.logicalId (spec : RunSpecification) : Except ExecutionError PyStr :=
  hash P (.ofRecord [
    (py "semantic", .str spec.semanticGenerationRef),
    (py "population", strTuple spec.populationIds),
    (py "scope", .str spec.scopeRef),
    (py "cutoff", .str spec.evaluationCutoff),
    (py "parameters", spec.parameters),
    (py "output", .str spec.outputContractRef),
    (py "barriers", strTuple spec.logicalBarriers)])

/-! ## Receipts -/

/-- A result that was committed, under the id of its record. -/
abbrev Result : Type := PyStr × PyVal

/-- A tuple of results. -/
def resultTuple (results : List Result) : PyVal :=
  .tuple (results.map fun p => .tuple [.str p.1, p.2])

/-- `LogicalResultIdentity`. -/
structure LogicalResultIdentity where
  runSpecificationId : PyStr
  orderedResultHashes : List PyStr

/-- `LogicalResultIdentity.logical_id`. -/
def LogicalResultIdentity.logicalId (identity : LogicalResultIdentity) :
    Except ExecutionError PyStr :=
  hash P (.ofRecord [
    (py "run_specification_id", .str identity.runSpecificationId),
    (py "ordered_result_hashes", strTuple identity.orderedResultHashes)])

/-- `CheckpointReceipt`. -/
structure CheckpointReceipt where
  runSpecificationId : PyStr
  nextIndex : Int
  committedResults : List Result
  prefixHash : PyStr

/-- `CheckpointReceipt.validate`. -/
def CheckpointReceipt.validate (cp : CheckpointReceipt) : Except ExecutionError Unit := do
  check (cp.nextIndex = cp.committedResults.length) (.shared (py "CHECKPOINT_INDEX_MISMATCH"))
  let committed ← hash P (resultTuple cp.committedResults)
  check (committed = cp.prefixHash) (.shared (py "CHECKPOINT_HASH_MISMATCH"))

/-- The receipt of a checkpoint of what was committed. -/
def checkpointOf (runSpecificationId : PyStr) (committed : List Result) :
    Except ExecutionError CheckpointReceipt := do
  let prefixHash ← hash P (resultTuple committed)
  return { runSpecificationId, nextIndex := committed.length, committedResults := committed,
           prefixHash }

/-- The statuses of a result. -/
inductive Status where
  | capacityExceeded
  | checkpointedBeforeCommit
  | checkpointedAfterCommit
  | complete
  deriving DecidableEq, Repr

/-- `CapacityReceipt`, with the flags that never change left out. -/
structure CapacityReceipt where
  runSpecificationId : PyStr
  exceeded : Bool
  requiredUnits : Int
  availableUnits : Int

/-- `ReplayResultManifest`. -/
structure ReplayResultManifest where
  runSpecificationId : PyStr
  logicalResultIdentity : Option PyStr
  status : Status
  orderedResults : List Result
  checkpoint : Option CheckpointReceipt
  capacityReceipt : CapacityReceipt

/-! ## The run -/

/-- How one call is made: the run that its manifest names, the units that it has, where it stops
and the physical order of its computations. -/
structure Call where
  manifestSpecificationId : PyStr
  availableUnits : Option Int
  stopBefore : Option Int
  stopAfter : Option Int
  physicalOrder : Option (List PyStr)

/-- `mapping[key]`. -/
def lookup {α : Type} (d : Dict PyStr α) (key : PyStr) : Except ExecutionError α :=
  ((d.get? key).map .ok).getD (.error (.python .keyError))

variable {α : Type} (records : Dict PyStr α) (transform : α → Except ExecutionError PyVal)

/-- The result of one record. -/
def computeOne (recordId : PyStr) : Except ExecutionError Result := do
  let record ← lookup records recordId
  let value ← transform record
  return (recordId, value)

/-- `computed`: the results in the physical order. -/
def compute (order : List PyStr) : Except ExecutionError (Dict PyStr PyVal) := do
  let results ← order.mapM (computeOne records transform)
  return Dict.ofItems results

/-- The order of the computations: one that is empty counts as none. -/
def Call.order (call : Call) (remaining : List PyStr) : List PyStr :=
  match call.physicalOrder with
  | none => remaining
  | some [] => remaining
  | some order => order

/-- The loop of commits, from an index on. -/
def commitFrom (call : Call) (computed : Dict PyStr PyVal) :
    Nat → List PyStr → List Result → Except ExecutionError (Status × List Result)
  | _, [], committed => .ok (.complete, committed)
  | index, recordId :: rest, committed =>
    if call.stopBefore = some (index : Int) then .ok (.checkpointedBeforeCommit, committed)
    else do
      let value ← lookup computed recordId
      if call.stopAfter = some (index : Int) then
        .ok (.checkpointedAfterCommit, committed ++ [(recordId, value)])
      else commitFrom call computed (index + 1) rest (committed ++ [(recordId, value)])

/-- The hash of one result. -/
def resultHash (result : Result) : Except ExecutionError PyStr :=
  hash P (.ofRecord [(py "record_id", .str result.1), (py "result", result.2)])

variable (runSpecificationId : PyStr)

/-- The identity of all results. -/
def identityOf (results : List Result) :
    Except ExecutionError PyStr := do
  let hashes ← results.mapM (resultHash P)
  LogicalResultIdentity.logicalId P
    { runSpecificationId, orderedResultHashes := hashes }

/-- The manifest that a run ends with, after its last commit. -/
def finish (capacity : CapacityReceipt) (status : Status)
    (committed : List Result) : Except ExecutionError ReplayResultManifest :=
  if status = .complete then do
    let identity ← identityOf P runSpecificationId committed
    return { runSpecificationId, logicalResultIdentity := some identity, status,
             orderedResults := committed, checkpoint := none, capacityReceipt := capacity }
  else do
    let cp ← checkpointOf P runSpecificationId committed
    return { runSpecificationId, logicalResultIdentity := none, status,
             orderedResults := committed, checkpoint := some cp, capacityReceipt := capacity }

/-- The results that a checkpoint carries, once it is accepted. -/
def resumed : Option CheckpointReceipt → Except ExecutionError (List Result)
  | none => .ok []
  | some cp => do
    cp.validate P
    check (cp.runSpecificationId = runSpecificationId) (.shared (py "CHECKPOINT_SPEC_MISMATCH"))
    return cp.committedResults

variable (spec : RunSpecification)

/-- The part of a run that follows the check of its capacity. -/
def execute (runSpecificationId : PyStr) (capacity : CapacityReceipt)
    (call : Call) (checkpoint : Option CheckpointReceipt) :
    Except ExecutionError ReplayResultManifest := do
  let committed ← resumed P runSpecificationId checkpoint
  let remaining := spec.populationIds.drop committed.length
  let order := call.order remaining
  check ((order ⊆ remaining ∧ remaining ⊆ order) ∧ order.length = remaining.length)
    (.shared (py "PHYSICAL_ORDER_POPULATION_MISMATCH"))
  let computed ← compute records transform order
  let (status, results) ← commitFrom call computed committed.length remaining committed
  finish P runSpecificationId capacity status results

/-- The receipt of the capacity of a call. -/
def capacityOf (call : Call) : CapacityReceipt where
  runSpecificationId := runSpecificationId
  exceeded := decide (¬ (records.length : Int) ≤ call.availableUnits.getD records.length)
  requiredUnits := records.length
  availableUnits := call.availableUnits.getD records.length

/-- `run_reference`. -/
def runReference (call : Call)
    (checkpoint : Option CheckpointReceipt) : Except ExecutionError ReplayResultManifest := do
  let runSpecificationId ← spec.logicalId P
  check (call.manifestSpecificationId = runSpecificationId)
    (.shared (py "RUN_SPECIFICATION_MISMATCH"))
  check (records.keys ⊆ spec.populationIds ∧ spec.populationIds ⊆ records.keys)
    (.shared (py "SEMANTIC_POPULATION_MISMATCH"))
  let capacity := capacityOf records runSpecificationId call
  if capacity.exceeded then
    return { runSpecificationId, logicalResultIdentity := none, status := .capacityExceeded,
             orderedResults := [], checkpoint := none, capacityReceipt := capacity }
  else
    execute P records transform spec runSpecificationId capacity call checkpoint

/-! ## Chains of calls -/

/-- A call that goes on from the checkpoint that was returned last. -/
def resume (checkpoint : Option CheckpointReceipt) (call : Call) :
    Except ExecutionError (Option CheckpointReceipt) := do
  let result ← runReference P records transform spec call checkpoint
  return result.checkpoint.or checkpoint

end OvcReplay.SharedSystems
