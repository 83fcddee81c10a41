import OvcReplay.Srfd.ExecutionResilience

/-! # Resumable units

`RunCheckpointStore` and `execute_resumable_units` of `wp10_execution_resilience.py`, and
`RunArtifactStore` and `execute_durable_resumable_units` of `wp10_durable_execution.py`: the units
that a checkpoint does not hold are worked one by one, each followed by a checkpoint. The run counts
as complete when as many units are held as were requested. -/

namespace OvcReplay.Srfd.Resilience

open List Python Json Raising

/-! ## Checkpoints -/

/-- `WorkUnitReceipt`. -/
structure WorkUnitReceipt where
  unitId : PyStr
  outputLogicalHash : PyStr
  artifactSha256 : Option PyStr := none
  deriving DecidableEq

/-- `WorkUnitReceipt.to_dict`; an empty hash of an artifact is none. -/
def WorkUnitReceipt.toDict (r : WorkUnitReceipt) : Except ResilienceError Record := do
  let outputHash ← hex64 r.outputLogicalHash (py "output_logical_hash")
  let artifact ← match r.artifactSha256 with
    | none | some [] => pure .none
    | some sha => (hex64 sha (py "artifact_sha256")).map .str
  return [(py "unit_id", .str r.unitId), (py "output_logical_hash", .str outputHash),
    (py "artifact_sha256", artifact)]

/-- `RunCheckpointReceipt`. -/
structure RunCheckpointReceipt where
  checkpointId : PyStr
  runId : PyStr
  tokenId : PyStr
  runBindingSha256 : PyStr
  sequence : Nat
  completedUnits : List PyStr
  unitReceipts : List WorkUnitReceipt
  stateLogicalHash : PyStr
  state : PyStr := py "COMMITTED"
  deriving DecidableEq

/-- The checkpoints of a run by the names of their files. A file is kept as the receipt that it was
written from. -/
abbrev Directory : Type := Dict PyStr RunCheckpointReceipt

/-- `f"{sequence:08d}.json"`. -/
def sequenceName (sequence : Nat) : PyStr :=
  let digits := natText sequence
  List.replicate (8 - digits.length) (.ofChar '0') ++ digits ++ py ".json"

variable (P : Platform)

/-- The state that a checkpoint hashes. -/
def statePayload (runId hash : PyStr) (unitIds : List PyStr) (receipts : List WorkUnitReceipt) :
    Except ResilienceError Record := do
  let dicts ← receipts.mapM WorkUnitReceipt.toDict
  return [(py "run_id", .str runId), (py "run_binding_sha256", .str hash),
    (py "completed_units", .ofStrs unitIds), (py "unit_receipts", .list (dicts.map .ofRecord))]

/-- The hash of a state and the id of its checkpoint. -/
def identityOf (state : Record) (sequence : Nat) : Except ResilienceError (PyStr × PyStr) := do
  let stateHash ← (logicalSha256 P (.ofRecord state)).mapError .other
  let checkpointId ← (stableId P "SRFD.RUN.CHECKPOINT." (state ++
    [(py "sequence", .int sequence), (py "state_logical_hash", .str stateHash)])).mapError .other
  return (stateHash, checkpointId)

/-- `_load_path`: a checkpoint against its own ids. -/
def loadPath (r : RunCheckpointReceipt) : Except ResilienceError RunCheckpointReceipt := do
  let state ← statePayload r.runId r.runBindingSha256 r.completedUnits r.unitReceipts
  let (expectedHash, expectedId) ← identityOf P state r.sequence
  check (r.state = py "COMMITTED" ∧ r.stateLogicalHash = expectedHash ∧
    r.checkpointId = expectedId)
    (refused "CHECKPOINT_CORRUPT" "checkpoint hash or identity mismatch")
  check (r.completedUnits.length = r.unitReceipts.length)
    (refused "CHECKPOINT_CORRUPT" "unit receipt cardinality mismatch")
  check (r.unitReceipts.map WorkUnitReceipt.unitId = r.completedUnits)
    (refused "CHECKPOINT_CORRUPT" "unit receipt order mismatch")
  return r

/-- The checks of `latest` on the checkpoints from `expected` on, behind `previous`. -/
def checkHistory (start : RunStartReceipt) (hash : PyStr) :
    Nat → Option RunCheckpointReceipt → List RunCheckpointReceipt → Except ResilienceError Unit
  | _, _, [] => .ok ()
  | expected, previous, r :: rs => do
    check (r.sequence = expected)
      (refused "CHECKPOINT_SEQUENCE_GAP" "checkpoint sequence must be contiguous")
    check (r.runId = start.runId ∧ r.tokenId = start.tokenId ∧ r.runBindingSha256 = hash)
      (refused "RESUME_BINDING_MISMATCH" "checkpoint belongs to another run or authority")
    check (∀ p ∈ previous, p.completedUnits.isPrefixOf r.completedUnits = true)
      (refused "CHECKPOINT_HISTORY_REWRITE" "later checkpoint rewrites prior committed units")
    checkHistory start hash (expected + 1) (some r) rs

/-- **`RunCheckpointStore.latest`**, which may be missing. -/
def latest (start : RunStartReceipt) (binding : RunBinding) (directory : Directory) :
    Except ResilienceError (Option RunCheckpointReceipt) := do
  let hash ← binding.logicalHash P
  check (start.runBindingSha256 = hash)
    (refused "RESUME_BINDING_MISMATCH" "run start and binding differ")
  let receipts ← (sortedBy Prod.fst directory).mapM fun p => loadPath P p.2
  checkHistory start hash 1 none receipts
  return receipts.getLast?

/-- **`RunCheckpointStore.commit`.** -/
def commit (start : RunStartReceipt) (binding : RunBinding) (receipts : List WorkUnitReceipt) :
    Raising ResilienceError Directory RunCheckpointReceipt := do
  let hash ← lift (binding.logicalHash P)
  require (start.runBindingSha256 = hash)
    (refused "RESUME_BINDING_MISMATCH" "run start and binding differ")
  let unitIds := receipts.map WorkUnitReceipt.unitId
  require unitIds.Nodup (refused "CHECKPOINT_DUPLICATE_UNIT" "completed unit IDs must be unique")
  let directory ← get
  let prior ← lift (latest P start binding directory)
  let sequence := (prior.map RunCheckpointReceipt.sequence).getD 0 + 1
  require (∀ p ∈ prior, p.completedUnits.isPrefixOf unitIds = true)
    (refused "CHECKPOINT_HISTORY_REWRITE" "checkpoint cannot rewrite or reorder completed units")
  let state ← lift (statePayload start.runId hash unitIds receipts)
  let (stateHash, checkpointId) ← lift (identityOf P state sequence)
  let receipt : RunCheckpointReceipt :=
    { checkpointId, runId := start.runId, tokenId := start.tokenId, runBindingSha256 := hash,
      sequence, completedUnits := unitIds, unitReceipts := receipts, stateLogicalHash := stateHash }
  require (directory.get? (sequenceName sequence) = none)
    (refused "CHECKPOINT_IDENTITY_REUSE" "checkpoint sequence already exists")
  modify fun directory => directory.set (sequenceName sequence) receipt
  let loaded ← lift (loadPath P receipt)
  require (loaded = receipt)
    (refused "CHECKPOINT_COMMIT_FAILURE" "checkpoint did not round-trip")
  return receipt

/-! ## Units -/

/-- Where a run stands: the receipts of the last checkpoint, the ids that count as completed, the
last checkpoint, and how many units are new. -/
structure Progress where
  committed : List WorkUnitReceipt
  completed : List PyStr
  checkpoint : Option RunCheckpointReceipt
  newCount : Nat

/-- A run that resumes at a checkpoint. -/
def Progress.resume (checkpoint : Option RunCheckpointReceipt) : Progress :=
  let committed := (checkpoint.map RunCheckpointReceipt.unitReceipts).getD []
  ⟨committed, (committed.map WorkUnitReceipt.unitId).dedup, checkpoint, 0⟩

/-- `stop_after_new_units is not None and new_count >= stop_after_new_units`. -/
def Stops (stopAfterNewUnits : Option Int) (newCount : Nat) : Prop :=
  ∃ n ∈ stopAfterNewUnits, n ≤ newCount

instance (stopAfterNewUnits : Option Int) (newCount : Nat) :
    Decidable (Stops stopAfterNewUnits newCount) :=
  inferInstanceAs (Decidable (∃ n ∈ stopAfterNewUnits, n ≤ (newCount : Int)))

/-- The loop over the requested units: `work` makes the receipt of a unit, and `save` the checkpoint
of the receipts. -/
def workUnits {σ : Type} (work : PyStr → Raising ResilienceError σ WorkUnitReceipt)
    (save : List WorkUnitReceipt → Raising ResilienceError σ RunCheckpointReceipt)
    (stopAfterNewUnits : Option Int) (p : Progress) :
    List PyStr → Raising ResilienceError σ Progress
  | [] => pure p
  | unitId :: rest =>
    if unitId ∈ p.completed then workUnits work save stopAfterNewUnits p rest
    else do
      let receipt ← work unitId
      let checkpoint ← save (p.committed ++ [receipt])
      let next : Progress := ⟨p.committed ++ [receipt], p.completed ++ [unitId],
        some checkpoint, p.newCount + 1⟩
      if Stops stopAfterNewUnits next.newCount then pure next
      else workUnits work save stopAfterNewUnits next rest

/-- The result of a run of units. -/
structure Outcome where
  payload : Record
  complete : Bool
  resultLogicalHash : PyStr
  checkpoint : Option RunCheckpointReceipt

/-- `{item.unit_id: f(item) for item in committed}`. -/
def byUnit (committed : List WorkUnitReceipt) (f : WorkUnitReceipt → PyVal) : PyVal :=
  .dict (Dict.ofItems (committed.map fun item => (.str item.unitId, f item)))

/-- The result of the units `ordered`; `artifacts` are the fields that only the durable run has. -/
def outcomeOf (start : RunStartReceipt) (hash : PyStr) (ordered : List PyStr) (p : Progress)
    (artifacts : Record) (authorityEffect : String) : Except ResilienceError Outcome := do
  let complete := decide (p.completed.length = ordered.length)
  let payload : Record :=
    [(py "run_id", .str start.runId), (py "run_binding_sha256", .str hash),
      (py "ordered_unit_count", .int ordered.length),
      (py "completed_unit_count", .int p.completed.length),
      (py "completed_units", .ofStrs (p.committed.map WorkUnitReceipt.unitId)),
      (py "unit_output_hashes", byUnit p.committed fun item => .str item.outputLogicalHash)] ++
    artifacts ++
    [(py "last_checkpoint_id", .ofStr? (p.checkpoint.map RunCheckpointReceipt.checkpointId)),
      (py "complete", .bool complete), (py "authority_effect", .str (py authorityEffect))]
  let resultHash ← (logicalSha256 P (.ofRecord payload)).mapError .other
  return ⟨payload, complete, resultHash, p.checkpoint⟩

/-- What the caller's worker returns for a unit, or raises. -/
abbrev Worker : Type := PyStr → Except ResilienceError PyVal

/-- The output of a unit, which is a mapping. -/
def outputOf (worker : Worker) (unitId : PyStr) : Except ResilienceError PyVal := do
  let output ← worker unitId
  check (output.isMapping = true)
    (.execution (py "WORK_UNIT_INVALID_OUTPUT") (unitId ++ py " did not return a mapping"))
  return output

/-- The receipt of the output of a unit. -/
def unitReceipt (worker : Worker) (unitId : PyStr) : Except ResilienceError WorkUnitReceipt := do
  let output ← outputOf worker unitId
  let outputHash ← (logicalSha256 P output).mapError .other
  return { unitId, outputLogicalHash := outputHash }

/-- **`execute_resumable_units`.** -/
def executeResumableUnits (start : RunStartReceipt) (binding : RunBinding) (unitIds : List PyStr)
    (worker : Worker) (stopAfterNewUnits : Option Int) :
    Raising ResilienceError Directory Outcome := do
  require unitIds.Nodup (refused "WORK_UNIT_DUPLICATE" "work unit IDs must be unique")
  let directory ← get
  let checkpoint ← lift (latest P start binding directory)
  let p ← workUnits (fun unitId => lift (unitReceipt P worker unitId)) (commit P start binding)
    stopAfterNewUnits (.resume checkpoint) unitIds
  let hash ← lift (binding.logicalHash P)
  lift (outcomeOf P start hash unitIds p [] "NONE")

/-! ## Durable units -/

/-- The artifacts of a run: its files by their names, and `_size_cache`. -/
structure Artifacts where
  files : Dict PyStr PyStr
  sizeCache : Option Nat

/-- What the durable run takes from the machine and from its configuration. -/
structure DurableHost extends Host where
  maxExternalBytes : Option Int
  /-- What `account_unit` raises for the time and the memory that a unit took, if there is a store
  of the capacity. -/
  accountUnit : PyStr → Except ResilienceError Unit

variable (H : DurableHost) (floatOf : FloatOfText)

/-- `_artifact_name`. -/
def artifactName (unitId : PyStr) : Except ResilienceError PyStr := do
  let encoded ← (encodeUtf8 unitId).mapError fun e => .other (.python e)
  return (P.sha256 encoded).text ++ py ".json"

/-- `total_bytes`. -/
def totalBytes : Raising ResilienceError Artifacts Nat := do
  let s ← get
  let total := s.sizeCache.getD ((s.files.map fun p => Sha256.utf8Length p.2).sum)
  set { s with sizeCache := some total }
  return total

variable (start : RunStartReceipt)

variable (binding : RunBinding)

/-- `start.run_binding_sha256 != binding.logical_hash` raises. -/
def boundHash :
    Except ResilienceError PyStr := do
  let hash ← binding.logicalHash P
  check (start.runBindingSha256 = hash)
    (refused "RESUME_BINDING_MISMATCH" "artifact run start and binding differ")
  return hash

/-- The fields by which an artifact is bound to its unit. -/
def envelopeTexts (hash unitId : PyStr) : List (PyStr × PyStr) :=
  [(py "schema", py "ovc-srfd-run-work-unit-artifact/v1"), (py "run_id", start.runId),
    (py "token_id", start.tokenId), (py "run_binding_sha256", hash), (py "unit_id", unitId)]

/-- `load_output`. -/
def loadOutput (unitId : PyStr)
    (files : Dict PyStr PyStr) : Except ResilienceError PyVal := do
  let hash ← boundHash P start binding
  let name ← artifactName P unitId
  match files.get? name with
  | none =>
    .error (.execution (py "ARTIFACT_MISSING") (py "no durable artifact for unit:" ++ unitId))
  | some raw =>
    match parse raw with
    | .error _ => .error (.execution (py "ARTIFACT_CORRUPT") (H.jsonErrorText raw))
    | .ok tree => do
      let envelope := tree.value floatOf
      check (envelope.isMapping = true) (.other (.python .attributeError))
      check (∀ p ∈ envelopeTexts start hash unitId, envelope.get? p.1 = some (.str p.2))
        (.execution (py "ARTIFACT_BINDING_MISMATCH")
          (py "artifact envelope mismatch:" ++ unitId))
      let output := (envelope.get? (py "output")).getD .none
      check (output.isMapping = true)
        (.execution (py "ARTIFACT_CORRUPT")
          (py "artifact output is not a mapping:" ++ unitId))
      let outputHash ← (logicalSha256 P output).mapError .other
      check (envelope.get? (py "output_logical_hash") = some (.str outputHash))
        (.execution (py "ARTIFACT_CORRUPT") (py "artifact logical hash mismatch:" ++ unitId))
      return output

/-- `verify_receipt`. -/
def verifyReceipt (receipt : WorkUnitReceipt)
    (files : Dict PyStr PyStr) : Except ResilienceError Unit := do
  match receipt.artifactSha256 with
  | none => .error (.execution (py "CHECKPOINT_ARTIFACT_HASH_MISSING") receipt.unitId)
  | some artifactSha => do
    let name ← artifactName P receipt.unitId
    match files.get? name with
    | none => .error (.execution (py "ARTIFACT_MISSING") receipt.unitId)
    | some raw => do
      check ((P.sha256 raw).text = artifactSha)
        (.execution (py "ARTIFACT_CORRUPT") (py "file sha mismatch:" ++ receipt.unitId))
      let output ← loadOutput P H floatOf start binding receipt.unitId files
      let outputHash ← (logicalSha256 P output).mapError .other
      check (outputHash = receipt.outputLogicalHash)
        (.execution (py "ARTIFACT_CORRUPT")
          (py "receipt logical hash mismatch:" ++ receipt.unitId))

/-- The bytes of an artifact, by their text. -/
def artifactData (hash unitId outputHash : PyStr) (output : PyVal) :
    Except ResilienceError PyStr := do
  let envelope : Record := Srfd.Distance.textRecord (envelopeTexts start hash unitId ++
    [(py "output_logical_hash", outputHash)]) ++ [(py "output", output)]
  let data ← (canonicalJsonBytes P (.ofRecord envelope)).mapError fun e => .other (.python e)
  return data ++ py "\n"

/-- The file of an artifact: it is as it was, or it is new and there is room for it. -/
def writeArtifact (unit name data : PyStr) : Raising ResilienceError Artifacts Unit := do
  let s ← get
  match s.files.get? name with
  | some existing =>
    require (existing = data) (.execution (py "ARTIFACT_HISTORY_REWRITE")
      (py "existing artifact differs for committed unit candidate:" ++ unit))
  | none => do
    let total ← totalBytes
    let projected := total + Sha256.utf8Length data
    require (∀ limit ∈ H.maxExternalBytes, (projected : Int) ≤ limit)
      (.execution (py "CAPACITY_EXTERNAL_BYTES_EXCEEDED")
        (py "projected=" ++ natText projected ++ py " limit=" ++
          intText (H.maxExternalBytes.getD 0)))
    require (H.takes name = true) .system
    modify fun s => ⟨s.files.set name data, some projected⟩

/-- **`RunArtifactStore.commit_output`**: the id of the receipt has no white space at its ends. -/
def commitOutput (unitId : PyStr)
    (output : PyVal) : Raising ResilienceError Artifacts WorkUnitReceipt := do
  let hash ← lift (boundHash P start binding)
  let unit := strip unitId
  require (unit ≠ []) (refused "WORK_UNIT_INVALID_OUTPUT" "unit_id required")
  let outputHash ← lift ((logicalSha256 P output).mapError .other)
  let data ← lift (artifactData P start hash unit outputHash output)
  let name ← lift (artifactName P unit)
  writeArtifact H unit name data
  let receipt : WorkUnitReceipt := ⟨unit, outputHash, some (P.sha256 data).text⟩
  let s ← get
  lift (verifyReceipt P H floatOf start binding receipt s.files)
  return receipt

/-- The stores of a durable run. -/
structure DurableStores where
  directory : Directory
  artifacts : Artifacts

/-- The receipt of the output of a unit, behind its artifact. -/
def durableReceipt (worker : Worker)
    (unitId : PyStr) : Raising ResilienceError DurableStores WorkUnitReceipt := do
  let output ← lift (outputOf worker unitId)
  lift (H.accountUnit unitId)
  zoom DurableStores.artifacts (fun s artifacts => { s with artifacts })
    (commitOutput P H floatOf start binding unitId output)

/-- A checkpoint of a durable run. -/
def durableCommit (receipts : List WorkUnitReceipt) :
    Raising ResilienceError DurableStores RunCheckpointReceipt :=
  zoom DurableStores.directory (fun s directory => { s with directory })
    (commit P start binding receipts)

/-- **`execute_durable_resumable_units`.** -/
def executeDurableResumableUnits
    (unitIds : List PyStr) (worker : Worker) (stopAfterNewUnits : Option Int) :
    Raising ResilienceError DurableStores Outcome := do
  require unitIds.Nodup (refused "WORK_UNIT_DUPLICATE" "work unit IDs must be unique")
  let s ← get
  let checkpoint ← lift (latest P start binding s.directory)
  let resumed := Progress.resume checkpoint
  let _ ← lift (resumed.committed.mapM fun receipt =>
    verifyReceipt P H floatOf start binding receipt s.artifacts.files)
  let p ← workUnits (durableReceipt P H floatOf start binding worker)
    (durableCommit P start binding) stopAfterNewUnits resumed unitIds
  let hash ← lift (binding.logicalHash P)
  lift (outcomeOf P start hash unitIds p
    [(py "unit_artifact_sha256", byUnit p.committed fun item => .ofStr? item.artifactSha256)]
    "NONE_EXECUTION_ROUTE_ONLY")

/-! ## Completion -/

/-- The unit has a receipt in the last checkpoint. -/
def Outcome.HasReceipt (o : Outcome) (unitId : PyStr) : Prop :=
  ∃ c ∈ o.checkpoint, ∃ item ∈ c.unitReceipts, item.unitId = unitId

/-- **The outcome reports completion exactly.** -/
def Outcome.Exact (o : Outcome) (unitIds : List PyStr) : Prop :=
  o.complete = true ↔ ∀ unitId ∈ unitIds, o.HasReceipt unitId

/-- The units of the last checkpoint before a run. -/
def priorUnits (directory : Directory) : List PyStr :=
  match latest P start binding directory with
  | .ok (some c) => (c.unitReceipts.map WorkUnitReceipt.unitId).dedup
  | _ => []

/-- How many of the units that are not held are left when the run stops: a run that stops works one
unit at least. -/
def leftOver (prior unitIds : List PyStr) (stopAfterNewUnits : Option Int) : Nat :=
  let new := (unitIds.filter fun unitId => unitId ∉ prior).length
  match stopAfterNewUnits with
  | none => 0
  | some n => new - max n.toNat 1

/-- How many of the units that are held were not requested. -/
def extraUnits (prior unitIds : List PyStr) : Nat :=
  (prior.filter fun unitId => unitId ∉ unitIds).length

/-- **The counts tell completion**: where units are left over, not as many are held that were not
requested; and where none is left over, none is held that was not requested, unless the receipt of a
unit has another `name` than the unit. -/
def CountsAgree (name : PyStr → PyStr) (prior unitIds : List PyStr)
    (stopAfterNewUnits : Option Int) : Prop :=
  if leftOver prior unitIds stopAfterNewUnits = 0 then
    (extraUnits prior unitIds = 0 ↔ ∀ unitId ∈ unitIds, unitId ∈ prior ∨ name unitId = unitId)
  else extraUnits prior unitIds ≠ leftOver prior unitIds stopAfterNewUnits

/-! ## Counting -/

/-- The units that a run works of the units `new` that are not held. -/
def worked (stopAfterNewUnits : Option Int) (newCount : Nat) (new : List PyStr) : List PyStr :=
  match stopAfterNewUnits with
  | none => new
  | some n => new.take (max (n - newCount).toNat 1)

section

variable {name : PyStr → PyStr} {prior unitIds new : List PyStr} {stopAfterNewUnits : Option Int}
  {newCount : Nat}

theorem worked_nil : worked stopAfterNewUnits newCount [] = [] := by
  cases stopAfterNewUnits <;> simp [worked]

theorem worked_initial : worked stopAfterNewUnits newCount new <+: new := by
  cases stopAfterNewUnits with
  | none => exact prefix_rfl
  | some n => exact take_prefix _ _

theorem worked_cons_of_stops {unitId : PyStr} (h : Stops stopAfterNewUnits (newCount + 1)) :
    worked stopAfterNewUnits newCount (unitId :: new) = [unitId] := by
  obtain ⟨n, hn, hle⟩ := h
  obtain rfl := Option.mem_def.mp hn
  have hone : max (n - newCount).toNat 1 = 1 := by omega
  rw [worked, hone]
  rfl

theorem worked_cons {unitId : PyStr} (h : ¬ Stops stopAfterNewUnits (newCount + 1)) :
    worked stopAfterNewUnits newCount (unitId :: new) =
      unitId :: worked stopAfterNewUnits (newCount + 1) new := by
  cases stopAfterNewUnits with
  | none => rfl
  | some n =>
    have hlt : ¬ n ≤ ((newCount + 1 : Nat) : Int) := fun hle => h ⟨n, rfl, hle⟩
    have hmore : max (n - newCount).toNat 1 = max (n - (newCount + 1 : Nat)).toNat 1 + 1 := by
      omega
    rw [worked, worked, hmore, take_succ_cons]

/-- Worked units and units left over are all that are not held. -/
theorem length_worked_add_leftOver :
    (worked stopAfterNewUnits 0 (unitIds.filter fun unitId => unitId ∉ prior)).length +
      leftOver prior unitIds stopAfterNewUnits =
        (unitIds.filter fun unitId => unitId ∉ prior).length := by
  cases stopAfterNewUnits with
  | none => simp [worked, leftOver]
  | some n =>
    simp only [worked, leftOver, length_take, Nat.cast_zero, Int.sub_zero]
    omega

/-- The units that are held and requested are counted on either side. -/
theorem length_add_new (hprior : prior.Nodup) (hunits : unitIds.Nodup) :
    prior.length + (unitIds.filter fun unitId => unitId ∉ prior).length =
      unitIds.length + extraUnits prior unitIds := by
  have hshared : (prior.filter fun unitId => unitId ∈ unitIds).length =
      (unitIds.filter fun unitId => unitId ∈ prior).length := by
    refine List.Perm.length_eq ((perm_ext_iff_of_nodup (hprior.filter _)
      (hunits.filter _)).mpr fun unitId => ?_)
    simp [and_comm]
  have hsplit : ∀ xs ys : List PyStr, (xs.filter fun x => x ∈ ys).length +
      (xs.filter fun x => x ∉ ys).length = xs.length := by
    intro xs ys
    have h := length_eq_length_filter_add (l := xs) fun x => decide (x ∈ ys)
    simp only [decide_not] at h ⊢
    exact h.symm
  have hleft := hsplit prior unitIds
  have hright := hsplit unitIds prior
  rw [extraUnits]
  omega

/-- **The counts tell completion iff they agree.** -/
theorem counts_iff (hname : ∀ unitId, name (name unitId) = name unitId) (hprior : prior.Nodup)
    (hunits : unitIds.Nodup) :
    (prior.length + (worked stopAfterNewUnits 0
        (unitIds.filter fun unitId => unitId ∉ prior)).length = unitIds.length ↔
      ∀ unitId ∈ unitIds, unitId ∈ prior ∨ unitId ∈ (worked stopAfterNewUnits 0
        (unitIds.filter fun unitId => unitId ∉ prior)).map name) ↔
      CountsAgree name prior unitIds stopAfterNewUnits := by
  have hworked := @length_worked_add_leftOver prior unitIds stopAfterNewUnits
  have hcount := length_add_new hprior hunits
  have hinit : worked stopAfterNewUnits 0 (unitIds.filter fun unitId => unitId ∉ prior) <+:
      unitIds.filter fun unitId => unitId ∉ prior := worked_initial
  set new := unitIds.filter fun unitId => unitId ∉ prior with hnew
  set taken := worked stopAfterNewUnits 0 new with htaken
  have hcompl : prior.length + taken.length = unitIds.length ↔
      extraUnits prior unitIds = leftOver prior unitIds stopAfterNewUnits := by omega
  rw [hcompl, CountsAgree]
  split_ifs with hleft
  · -- every new unit was worked
    have hall : taken = new := hinit.eq_of_length (by omega)
    rw [hleft, hall]
    refine iff_congr Iff.rfl (forall₂_congr fun unitId hunit => or_congr_right' fun hnot => ?_)
    constructor
    · intro hmem
      obtain ⟨other, -, rfl⟩ := mem_map.mp hmem
      exact hname other
    · intro hsame
      exact mem_map.mpr ⟨unitId, mem_filter.mpr ⟨hunit, by simpa using hnot⟩, hsame⟩
  · -- there are more new units than receipts for them
    have hsome : ¬ ∀ unitId ∈ unitIds, unitId ∈ prior ∨ unitId ∈ taken.map name := by
      intro hcovered
      have hsubset : new ⊆ taken.map name := by
        intro unitId hmem
        obtain ⟨hunit, hnot⟩ := mem_filter.mp hmem
        exact (hcovered unitId hunit).resolve_left (by simpa using hnot)
      have hle : new.length ≤ (taken.map name).length :=
        ((hunits.filter _).subperm hsubset).length_le
      rw [length_map] at hle
      omega
    exact iff_false_right hsome

end

/-! ## The loop -/

section

variable {σ : Type} {name : PyStr → PyStr}
  {work : PyStr → Raising ResilienceError σ WorkUnitReceipt}
  {save : List WorkUnitReceipt → Raising ResilienceError σ RunCheckpointReceipt}
  {stopAfterNewUnits : Option Int}

/-- The receipts of a progress are those of its checkpoint. -/
def Progress.Saved (p : Progress) : Prop :=
  p.committed = (p.checkpoint.map RunCheckpointReceipt.unitReceipts).getD []

/-- What a run from `p` has done when it stands at `q`, of which the units `taken` are new. -/
structure Advanced (name : PyStr → PyStr) (p q : Progress) (taken : List PyStr) : Prop where
  completed : q.completed = p.completed ++ taken
  committed : q.committed.map WorkUnitReceipt.unitId =
    p.committed.map WorkUnitReceipt.unitId ++ taken.map name
  saved : q.Saved

/-- **The loop works the units that are not held**, up to the limit. -/
theorem workUnits_ends
    (hwork : ∀ unitId s, ends (work unitId) (fun r _ => r.unitId = name unitId) (fun _ _ => True) s)
    (hsave : ∀ receipts s, ends (save receipts) (fun c _ => c.unitReceipts = receipts)
      (fun _ _ => True) s)
    {rest : List PyStr} (hrest : rest.Nodup) (p : Progress) (hp : p.Saved) (s : σ) :
    ends (workUnits work save stopAfterNewUnits p rest)
      (fun q _ => Advanced name p q (worked stopAfterNewUnits p.newCount
        (rest.filter fun unitId => unitId ∉ p.completed))) (fun _ _ => True) s := by
  induction rest generalizing p s with
  | nil =>
    rw [workUnits, ends_pure, filter_nil, worked_nil]
    exact ⟨by simp, by simp, hp⟩
  | cons unitId rest ih =>
    obtain ⟨hunit, hnd⟩ := nodup_cons.mp hrest
    rw [workUnits, filter_cons]
    by_cases hheld : unitId ∈ p.completed
    · rw [if_pos hheld, if_neg (by simpa using hheld)]
      exact ih hnd p hp s
    · rw [if_neg hheld, if_pos (by simpa using hheld), ends_bind]
      refine ends_mono (fun receipt s' hrcpt => ?_) (fun _ _ _ => trivial) (hwork unitId s)
      rw [ends_bind]
      refine ends_mono (fun checkpoint s'' hckpt => ?_) (fun _ _ _ => trivial)
        (hsave (p.committed ++ [receipt]) s')
      dsimp only
      set next : Progress := ⟨p.committed ++ [receipt], p.completed ++ [unitId],
        some checkpoint, p.newCount + 1⟩ with hnext
      have hsaved : next.Saved := by simp [Progress.Saved, hnext, hckpt]
      have hone : Advanced name p next [unitId] :=
        ⟨rfl, by simp [hnext, hrcpt], hsaved⟩
      by_cases hstops : Stops stopAfterNewUnits (p.newCount + 1)
      · rw [if_pos hstops, ends_pure, worked_cons_of_stops hstops]
        exact hone
      · rw [if_neg hstops, worked_cons hstops]
        refine ends_mono (fun q _ hq => ?_) (fun _ _ _ => trivial)
          (ih hnd next hsaved s'')
        -- the unit is not requested again, so what is new behind it is as before
        have hfilt : rest.filter (fun other => other ∉ next.completed) =
            rest.filter fun other => other ∉ p.completed := by
          refine filter_congr fun other hother => ?_
          have hne : other ≠ unitId := fun heq => hunit (heq ▸ hother)
          simp [hnext, hne]
        rw [hfilt] at hq
        refine ⟨?_, ?_, hq.saved⟩
        · rw [hq.completed, hone.completed, append_assoc]
          rfl
        · rw [hq.committed, hone.committed, append_assoc]
          rfl

end

/-! ## Both runs -/

section

variable {P} {H : DurableHost} {floatOf : FloatOfText} {start : RunStartReceipt}
  {binding : RunBinding} {worker : Worker}

/-- A checkpoint has the receipts that it was made of. -/
theorem commit_ends (receipts : List WorkUnitReceipt) (directory : Directory) :
    ends (commit P start binding receipts) (fun c _ => c.unitReceipts = receipts)
      (fun _ _ => True) directory := by
  simp only [commit, ends_bind, ends_lift, ends_require, ends_get, ends_modify, ends_pure,
    implies_true, and_true]

theorem unitReceipt_unitId {unitId : PyStr} {r : WorkUnitReceipt}
    (h : unitReceipt P worker unitId = .ok r) : r.unitId = unitId := by
  obtain ⟨output, -, h⟩ := bind_ok.mp h
  obtain ⟨outputHash, -, h⟩ := bind_ok.mp h
  cases h
  rfl

/-- The receipt of an artifact has the id without the white space at its ends. -/
theorem commitOutput_ends (unitId : PyStr) (output : PyVal) (s : Artifacts) :
    ends (commitOutput P H floatOf start binding unitId output)
      (fun r _ => r.unitId = strip unitId) (fun _ _ => True) s := by
  have hany : ∀ {α : Type} (m : Raising ResilienceError Artifacts α) (s : Artifacts),
      ends m (fun _ _ => True) (fun _ _ => True) s := by
    intro α m s
    unfold ends
    cases m s <;> trivial
  simp only [commitOutput, ends_bind, ends_lift, ends_require, ends_get, ends_pure,
    implies_true, and_true]
  intro hash _ _ outputHash _ data _ fileName _
  exact hany _ s

variable {checkpoint : Option RunCheckpointReceipt}

/-- The units of the last checkpoint, as a run that resumes there counts them. -/
theorem completed_resume {directory : Directory}
    (h : latest P start binding directory = .ok checkpoint) :
    (Progress.resume checkpoint).completed = priorUnits P start binding directory := by
  rw [priorUnits, h]
  cases checkpoint <;> rfl

/-- **A run that has worked its units reports completion exactly iff the counts agree.** -/
theorem outcomeOf_exact_iff {name : PyStr → PyStr}
    (hname : ∀ unitId, name (name unitId) = name unitId) {directory : Directory}
    (hlatest : latest P start binding directory = .ok checkpoint) {unitIds : List PyStr}
    (hunits : unitIds.Nodup) {stopAfterNewUnits : Option Int} {q : Progress}
    (hq : Advanced name (.resume checkpoint) q (worked stopAfterNewUnits 0
      (unitIds.filter fun unitId => unitId ∉ (Progress.resume checkpoint).completed)))
    {hash : PyStr} {artifacts : Record} {effect : String} {o : Outcome}
    (ho : outcomeOf P start hash unitIds q artifacts effect = .ok o) :
    o.Exact unitIds ↔
      CountsAgree name (priorUnits P start binding directory) unitIds stopAfterNewUnits := by
  obtain ⟨resultHash, -, ho⟩ := bind_ok.mp ho
  cases ho
  rw [← completed_resume hlatest]
  set p := Progress.resume checkpoint with hp
  have hcompleted : p.completed = (p.committed.map WorkUnitReceipt.unitId).dedup := rfl
  rw [← counts_iff hname (hcompleted ▸ nodup_dedup _) hunits]
  have hrcpt : ∀ unitId, (∃ c ∈ q.checkpoint, ∃ item ∈ c.unitReceipts, item.unitId = unitId) ↔
      unitId ∈ q.committed.map WorkUnitReceipt.unitId := by
    intro unitId
    rw [hq.saved]
    cases q.checkpoint <;> simp
  refine iff_congr ?_ (forall₂_congr fun unitId _ => ?_)
  · rw [decide_eq_true_eq, hq.completed, length_append]
  · rw [Outcome.HasReceipt, hrcpt, hq.committed, mem_append, hcompleted, mem_dedup]

end

/-- **Both runs report completion exactly iff the counts agree**: the receipts of the one have the
ids that were requested, and those of the durable one the ids without the white space at their
ends. -/
theorem resumedExecution_complete_iff (H : DurableHost) (floatOf : FloatOfText)
    (start : RunStartReceipt) (binding : RunBinding) (unitIds : List PyStr) (worker : Worker)
    (stopAfterNewUnits : Option Int) (stores : DurableStores) :
    ends (executeResumableUnits P start binding unitIds worker stopAfterNewUnits)
      (fun o _ => o.Exact unitIds ↔ CountsAgree id
        (priorUnits P start binding stores.directory) unitIds stopAfterNewUnits)
      (fun _ _ => True) stores.directory ∧
    ends (executeDurableResumableUnits P H floatOf start binding unitIds worker stopAfterNewUnits)
      (fun o _ => o.Exact unitIds ↔ CountsAgree strip
        (priorUnits P start binding stores.directory) unitIds stopAfterNewUnits)
      (fun _ _ => True) stores := by
  constructor
  · simp only [executeResumableUnits, ends_bind, ends_require, ends_get, ends_lift, implies_true,
      and_true]
    intro hunits checkpoint hlatest
    have hloop := @workUnits_ends Directory id (fun unitId => lift (unitReceipt P worker unitId))
      (commit P start binding) stopAfterNewUnits
      (fun unitId s => ends_lift.mpr ⟨fun r hr => unitReceipt_unitId hr, fun _ _ => trivial⟩)
      commit_ends unitIds hunits (.resume checkpoint) rfl stores.directory
    refine ends_mono (fun q s hq => ?_) (fun _ _ _ => trivial) hloop
    intro hash _ o ho
    exact outcomeOf_exact_iff (fun _ => rfl) hlatest hunits hq ho
  · simp only [executeDurableResumableUnits, ends_bind, ends_require, ends_get, ends_lift,
      implies_true, and_true]
    intro hunits checkpoint hlatest _ _
    have hloop := @workUnits_ends DurableStores strip
      (durableReceipt P H floatOf start binding worker) (durableCommit P start binding)
      stopAfterNewUnits
      (fun unitId s => by
        simp only [durableReceipt, ends_bind, ends_lift, ends_zoom, implies_true, and_true]
        intro output _ _ _
        exact commitOutput_ends unitId output s.artifacts)
      (fun receipts s => ends_zoom.mpr (commit_ends receipts s.directory))
      unitIds hunits (.resume checkpoint) rfl stores
    refine ends_mono (fun q s hq => ?_) (fun _ _ _ => trivial) hloop
    intro hash _ o ho
    exact outcomeOf_exact_iff strip_strip hlatest hunits hq ho

/-! ## A unit that was not requested -/

section

/-- The start of a run with the binding of zeros. -/
def zeroStart : RunStartReceipt :=
  ⟨py "run", py "token", ((zeroBinding.logicalHash .reference).toOption.getD []), py "c",
    py "CONSUMED_FOR_RUN"⟩

/-- Every unit has an empty output. -/
def emptyOutput : Worker := fun _ => .ok (.ofRecord [])

/-- The checkpoints of a run of one unit. -/
def afterOne : Directory :=
  left (executeResumableUnits .reference zeroStart zeroBinding [py "one"] emptyOutput none
    [])

/-- Whether a run reports completion, and the units of its last checkpoint. -/
def report : EStateM.Result ResilienceError Directory Outcome → Option (Bool × List PyStr)
  | .ok o _ => some (o.complete,
      ((o.checkpoint.map RunCheckpointReceipt.unitReceipts).getD []).map WorkUnitReceipt.unitId)
  | .error _ _ => none

/-- A run that reports no completion and holds what was requested does not report exactly. -/
theorem not_exact_of_report {m : Raising ResilienceError Directory Outcome} {directory : Directory}
    {requested held : List PyStr} (hrun : report (m directory) = some (false, held))
    (hheld : ∀ unitId ∈ requested, unitId ∈ held) :
    ¬ ends m (fun o _ => o.Exact requested) (fun _ _ => True) directory := by
  unfold ends
  cases hres : m directory with
  | error e s => simp [hres, report] at hrun
  | ok o s =>
    rw [hres] at hrun
    obtain ⟨hcompl, rfl⟩ := Prod.mk.inj (Option.some.inj hrun)
    intro hexact
    have htrue : o.complete = true := hexact.mpr fun unitId hmem => by
      have hunit := hheld unitId hmem
      cases hckpt : o.checkpoint with
      | none => simp [hckpt] at hunit
      | some c =>
        rw [hckpt] at hunit
        obtain ⟨item, hitem, hid⟩ := mem_map.mp hunit
        exact ⟨c, hckpt, item, hitem, hid⟩
    rw [htrue] at hcompl
    exact absurd hcompl (by decide)

/-- **Behind the checkpoint of one unit, a run of another does not report completion** when it has
its receipt. -/
theorem otherUnit_incomplete : ¬ ∀ directory, ends
      (executeResumableUnits .reference zeroStart zeroBinding [py "two"] emptyOutput none)
      (fun o _ => o.Exact [py "two"]) (fun _ _ => True) directory := by
  have hrun : report (executeResumableUnits .reference zeroStart zeroBinding [py "two"]
      emptyOutput none afterOne) = some (false, [py "one", py "two"]) := by
    decide +kernel
  exact not_forall.mpr ⟨afterOne, not_exact_of_report hrun (by simp)⟩

end

end OvcReplay.Srfd.Resilience
