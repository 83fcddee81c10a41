import OvcReplay.Json.Stable
import OvcReplay.Lists.TopologicalOrder
import OvcReplay.Python.Context
import OvcReplay.Python.Order
import OvcReplay.Srfd.Serialization

/-! # The capacity plan

`scheduler.py`: resource contracts are checked and put into the order of their dependencies, each is
classified by the budgets that it fits, and a node is blocked by the dependencies that cannot run.
Only the dependencies that it names itself block a node. -/

namespace OvcReplay.Srfd.Capacity

open List Python

/-- What the scheduler raises. -/
inductive CapacityError where
  /-- `CapacityScheduleError(reason_code, detail)`. -/
  | schedule (reasonCode detail : PyStr)
  | other (e : Error)
  deriving DecidableEq

/-- A Python exception. -/
abbrev python (e : PyError) : CapacityError := .other (.python e)

/-- What the scheduler takes from the language. -/
structure Language where
  /-- `s.upper()`. -/
  upper : PyStr → PyStr
  /-- `int(v)` of a value that is no integer. -/
  intOf : PyVal → Except PyError Int

/-- `CapacityBudget`, as `from_values` makes it. -/
structure CapacityBudget where
  tierId : PyStr
  maxWallSeconds : PyDecimal
  maxRssBytes : Int
  maxExternalBytes : Int

/-- `CapacityBudget.to_dict`. -/
def CapacityBudget.toDict (b : CapacityBudget) : Record :=
  [(py "tier_id", .str b.tierId), (py "max_wall_seconds", .str b.maxWallSeconds.formatF),
    (py "max_rss_bytes", .int b.maxRssBytes), (py "max_external_bytes", .int b.maxExternalBytes)]

/-- `ResourceContract`. -/
structure ResourceContract where
  nodeId : PyStr
  nodeType : PyStr
  methodId : Option PyStr
  configurationId : Option PyStr
  dependencyIds : List PyStr
  wallSeconds : Option PyDecimal
  peakRssBytes : Option Int
  externalBytes : Option Int
  measurementClass : PyStr
  reusable : Bool := false
  required : Bool := true

/-- An integer or `None`. -/
def ofInt? : Option Int → PyVal
  | none => .none
  | some z => .int z

/-- `ResourceContract.to_dict`. -/
def ResourceContract.toDict (c : ResourceContract) : Record :=
  [(py "node_id", .str c.nodeId), (py "node_type", .str c.nodeType),
    (py "method_id", .ofStr? c.methodId), (py "configuration_id", .ofStr? c.configurationId),
    (py "dependency_ids", .ofStrs c.dependencyIds),
    (py "wall_seconds", .ofStr? (c.wallSeconds.map PyDecimal.formatF)),
    (py "peak_rss_bytes", ofInt? c.peakRssBytes), (py "external_bytes", ofInt? c.externalBytes),
    (py "measurement_class", .str c.measurementClass), (py "reusable", .bool c.reusable),
    (py "required", .bool c.required)]

/-! ## Reading contracts -/

variable (P : Platform) (L : Language)

/-- `MEASUREMENT_CLASSES`. -/
def measurementClasses : List PyStr :=
  [py "MEASURED", py "INTERPOLATED", py "EXTRAPOLATED", py "THEORETICAL_BOUND", py "UNRESOLVED"]

/-- `str(value.get(key, default)).strip()`. -/
def stripped (value : Record) (key : String) (default : PyStr) : Except CapacityError PyStr :=
  ((PyVal.strOf P ((value.get? (py key)).getD (.str default))).mapError python).map strip

/-- `str(value[key]).strip()`, when this is not `None`. -/
def strippedOrNone (value : Record) (key : String) : Except CapacityError (Option PyStr) :=
  match (value.get? (py key)).getD .none with
  | .none => .ok none
  | v => ((PyVal.strOf P v).mapError python).map fun s => some (strip s)

/-- An error of the contract of a node. -/
def invalid (detail : String) (nodeId : PyStr) : CapacityError :=
  .schedule (py "CAP_INVALID_RESOURCE_CONTRACT") (py detail ++ nodeId)

/-- `decimal_or_none`. -/
def decimalOrNone (nodeId : PyStr) (raw : PyVal) : Except CapacityError (Option PyDecimal) :=
  match raw with
  | .none => .ok none
  | raw => do
    let text ← (PyVal.strOf P raw).mapError python
    match P.decimalOf text with
    | none => .error (python .arithmeticError)
    | some number => do
      let negative ← (number.lt (.finite false 0 0)).mapError python
      check (negative = false) (invalid "negative resource value for " nodeId)
      return some number

/-- `int(v)`. -/
def intOf (v : PyVal) : Except CapacityError Int :=
  match v with
  | .int z => .ok z
  | .bool b => .ok (if b then 1 else 0)
  | v => (L.intOf v).mapError python

/-- `int_or_none`. -/
def intOrNone (nodeId : PyStr) (raw : PyVal) : Except CapacityError (Option Int) :=
  match raw with
  | .none => .ok none
  | raw => do
    let number ← intOf L raw
    check (0 ≤ number) (invalid "negative resource value for " nodeId)
    return some number

/-- `bool(value.get(key, default))`. -/
def flag (value : Record) (key : String) (default : Bool) : Bool :=
  ((value.get? (py key)).getD (.bool default)).truthy

/-- `ResourceContract.from_mapping`. -/
def ResourceContract.fromMapping (value : Record) : Except CapacityError ResourceContract := do
  let nodeId ← stripped P value "node_id" []
  let nodeType := L.upper (← stripped P value "node_type" [])
  check (nodeId ≠ [] ∧ nodeType ≠ [])
    (.schedule (py "CAP_INVALID_RESOURCE_CONTRACT") (py "node identity required"))
  let measurementClass := L.upper (← stripped P value "measurement_class" (py "UNRESOLVED"))
  check (measurementClass ∈ measurementClasses)
    (invalid "invalid measurement class " measurementClass)
  let items ← (((value.get? (py "dependency_ids")).getD (.tuple [])).eachText P).mapError
    python
  let dependencyIds := items.map strip
  check ([] ∉ dependencyIds ∧ dependencyIds.Nodup) (invalid "invalid dependencies for " nodeId)
  let methodId ← strippedOrNone P value "method_id"
  let configurationId ← strippedOrNone P value "configuration_id"
  let raw := fun key : String => (value.get? (py key)).getD .none
  let wallSeconds ← decimalOrNone P nodeId (raw "wall_seconds")
  let peakRssBytes ← intOrNone L nodeId (raw "peak_rss_bytes")
  let externalBytes ← intOrNone L nodeId (raw "external_bytes")
  return { nodeId, nodeType, methodId, configurationId, dependencyIds, wallSeconds, peakRssBytes,
           externalBytes, measurementClass, reusable := flag value "reusable" false,
           required := flag value "required" true }

/-! ## Classification -/

/-- `CAPACITY_STATUSES`. -/
inductive StatusName where
  | supportedT0
  | supportedT1
  | methodCapacityUnsupportedAtT0
  | requiresSeparateCapacityTier
  | capacityUnresolved
  | capacityExceededAtMeasurement
  deriving DecidableEq

/-- The text of a status. -/
def StatusName.text : StatusName → PyStr
  | supportedT0 => py "SUPPORTED_T0"
  | supportedT1 => py "SUPPORTED_T1"
  | methodCapacityUnsupportedAtT0 => py "METHOD_CAPACITY_UNSUPPORTED_AT_T0"
  | requiresSeparateCapacityTier => py "REQUIRES_SEPARATE_CAPACITY_TIER"
  | capacityUnresolved => py "CAPACITY_UNRESOLVED"
  | capacityExceededAtMeasurement => py "CAPACITY_EXCEEDED_AT_MEASUREMENT"

/-- A node of the status cannot run. -/
def StatusName.CannotRun (s : StatusName) : Prop :=
  s = requiresSeparateCapacityTier ∨ s = capacityUnresolved ∨ s = capacityExceededAtMeasurement

instance : DecidablePred StatusName.CannotRun := fun _ => inferInstanceAs (Decidable (_ ∨ _))

/-- `CapacityStatus`. -/
structure CapacityStatus where
  nodeId : PyStr
  status : StatusName
  reason : PyStr
  measurementClass : PyStr
  tierId : Option PyStr
  deriving DecidableEq

/-- `CapacityStatus.to_dict`. -/
def CapacityStatus.toDict (s : CapacityStatus) : Record :=
  [(py "node_id", .str s.nodeId), (py "status", .str s.status.text), (py "reason", .str s.reason),
    (py "measurement_class", .str s.measurementClass), (py "tier_id", .ofStr? s.tierId),
    (py "scientific_effect", .str (py "NONE"))]

/-- `_fits`: not known where a resource is not known. -/
def fits (c : ResourceContract) (b : CapacityBudget) : Except PyError (Option Bool) :=
  match c.wallSeconds, c.peakRssBytes, c.externalBytes with
  | some wall, some rss, some external => do
    let exceeds ← b.maxWallSeconds.lt wall
    return some (!exceeds && decide (rss ≤ b.maxRssBytes) &&
      decide (external ≤ b.maxExternalBytes))
  | _, _, _ => .ok none

/-- **`classify_capacity_status`.** -/
def classifyCapacityStatus (c : ResourceContract) (t0 t1 : CapacityBudget)
    (measuredExceeded : Bool) : Except PyError CapacityStatus :=
  let status := fun (status : StatusName) (reason : String) tierId =>
    (⟨c.nodeId, status, py reason, c.measurementClass, tierId⟩ : CapacityStatus)
  if measuredExceeded = true then
    .ok (status .capacityExceededAtMeasurement "MEASURED_RUN_CROSSED_DECLARED_RESOURCE_BOUND" none)
  else do
    let fitT0 ← fits c t0
    let fitT1 ← fits c t1
    if fitT0 = none then
      return status .capacityUnresolved "RESOURCE_EVIDENCE_INCOMPLETE" none
    else if fitT0 = some true then
      return status .supportedT0 "WITHIN_T0_RESOURCE_CONTRACT" (some t0.tierId)
    else if fitT1 = some true then
      return status
        (if c.nodeType = py "FAMILY_METHOD" then .methodCapacityUnsupportedAtT0 else .supportedT1)
        "OUTSIDE_T0_WITHIN_T1_RESOURCE_CONTRACT" (some t1.tierId)
    else
      return status .requiresSeparateCapacityTier "OUTSIDE_T0_AND_T1_RESOURCE_CONTRACT" none

/-! ## The order -/

/-- The contracts by their nodes. -/
abbrev Contracts : Type := Dict PyStr ResourceContract

/-- The dependencies of a node. -/
def Contracts.deps (contracts : Contracts) (nodeId : PyStr) : List PyStr :=
  ((contracts.get? nodeId).map ResourceContract.dependencyIds).getD []

/-- `",".join(xs)`. -/
def commaJoin (xs : List PyStr) : PyStr := intercalate (py ",") xs

/-- The contracts name no dependency that is missing. -/
def checkMissing (contracts : Contracts) : Except CapacityError Unit :=
  (contracts.map Prod.snd).forM fun c =>
    let missing := sortedSet (c.dependencyIds.filter fun d => d ∉ contracts.keys)
    check (missing = []) (.schedule (py "CAP_DEPENDENCY_MISSING")
      (c.nodeId ++ py ":" ++ commaJoin missing))

/-- What the nodes still wait for, and the nodes that are ready. -/
structure Waiting where
  incoming : Dict PyStr (List PyStr)
  ready : List PyStr

/-- The node `nodeId`, the last of `output`, is taken from what a candidate waits for. -/
def visit (nodeId : PyStr) (output : List PyStr) (w : Waiting) (candidate : PyStr) : Waiting :=
  let waitsFor := (w.incoming.get? candidate).getD []
  if nodeId ∈ waitsFor then
    let rest := waitsFor.filter fun d => d ≠ nodeId
    ⟨w.incoming.set candidate rest,
      if rest = [] ∧ candidate ∉ output ∧ candidate ∉ w.ready then
        sortedBy id (w.ready ++ [candidate])
      else w.ready⟩
  else w

/-- The loop over the nodes that are ready; every step takes another node, so as many steps are
enough as there are nodes. -/
def orderLoop : Nat → Waiting → List PyStr → List PyStr
  | 0, _, output => output
  | n + 1, w, output =>
    match w.ready with
    | [] => output
    | nodeId :: ready =>
      let output := output ++ [nodeId]
      orderLoop n ((sortedBy id w.incoming.keys).foldl (visit nodeId output)
        ⟨w.incoming, ready⟩) output

/-- What the nodes wait for in the beginning. -/
def initial (contracts : Contracts) : Waiting :=
  let incoming := contracts.map fun p => (p.1, p.2.dependencyIds)
  ⟨incoming, sortedBy id (Dict.keys (incoming.filter fun p => decide (p.2 = [])))⟩

/-- **`_topological_order`**, behind the check for missing dependencies. -/
def topologicalOrder (contracts : Contracts) : Except CapacityError (List PyStr) := do
  let output := orderLoop contracts.length (initial contracts) []
  check (output.length = contracts.length) (.schedule (py "CAP_DEPENDENCY_CYCLE")
    (commaJoin (sortedSet (contracts.keys.filter fun nodeId => nodeId ∉ output))))
  return output

/-! ## The plan -/

/-- A contract, or the mapping of one. -/
inductive Item where
  | mapping (value : Record)
  | contract (c : ResourceContract)

/-- The contract of an item. -/
def Item.parse : Item → Except CapacityError ResourceContract
  | .mapping value => ResourceContract.fromMapping P L value
  | .contract c => .ok c

/-- `by_id`. -/
def byId (parsed : List ResourceContract) : Contracts :=
  Dict.ofItems (parsed.map fun c => (c.nodeId, c))

/-- A method and a configuration, each of which may be `None`, as a tuple. -/
def pairValue (p : Option PyStr × Option PyStr) : PyVal := .tuple [.ofStr? p.1, .ofStr? p.2]

/-- Every method and configuration that is required has a contract, and no other. -/
def checkMethods (parsed : List ResourceContract) (required : List (PyStr × PyStr)) :
    Except CapacityError Unit := do
  let expected := (required.map fun p => (some p.1, some p.2)).dedup
  let present := ((parsed.filter fun c => decide (c.nodeType = py "FAMILY_METHOD") &&
    c.required).map fun c => (c.methodId, c.configurationId)).dedup
  let missing ← (P.sortValues ((expected.filter fun p => p ∉ present).map pairValue)).mapError
    python
  let unexpected ← (P.sortValues ((present.filter fun p => p ∉ expected).map pairValue)).mapError
    python
  if missing = [] ∧ unexpected = [] then return ()
  else do
    let missingText ← (PyVal.strOf P (.list missing)).mapError python
    let unexpectedText ← (PyVal.strOf P (.list unexpected)).mapError python
    .error (.schedule (py "CAP_METHOD_CONFIG_INCOMPLETE")
      (py "missing=" ++ missingText ++ py ";unexpected=" ++ unexpectedText))

/-- What `build_capacity_plan` checks before it orders the nodes. -/
def prepared (items : List Item) (required : List (PyStr × PyStr)) :
    Except CapacityError (List ResourceContract) := do
  let parsed ← items.mapM (Item.parse P L)
  check ((byId parsed).length = parsed.length)
    (.schedule (py "CAP_DUPLICATE_NODE") (py "node_id must be unique"))
  checkMethods P parsed required
  checkMissing (byId parsed)
  return parsed

/-- The status of a node. -/
def statusOf (contracts : Contracts) (t0 t1 : CapacityBudget) (exceeded : List PyStr)
    (nodeId : PyStr) : Except CapacityError CapacityStatus :=
  match contracts.get? nodeId with
  | none => .error (python .keyError)
  | some c => (classifyCapacityStatus c t0 t1 (decide (nodeId ∈ exceeded))).mapError python

/-- The dependencies of a node that cannot run, by the statuses of the nodes. -/
def blockersOf (contracts : Contracts) (statuses : Dict PyStr CapacityStatus) (nodeId : PyStr) :
    List PyStr :=
  (contracts.deps nodeId).filter fun d =>
    ((statuses.get? d).map fun s => decide s.status.CannotRun).getD false

/-- `blocked_nodes`. -/
def blockedNodes (contracts : Contracts) (statuses : Dict PyStr CapacityStatus)
    (order : List PyStr) : Dict PyStr PyStr :=
  Dict.ofItems (order.filterMap fun nodeId =>
    let blockers := blockersOf contracts statuses nodeId
    if blockers = [] then none
    else some (nodeId, py "DEPENDENCY_CAPACITY_UNRESOLVED:" ++ commaJoin blockers))

/-- `x + y` of amounts of time. -/
def addSeconds : PyDecimal → PyDecimal → Except PyError PyDecimal
  | .nan s false d, _ => .ok (.nan s false d)
  | _, .nan s false d => .ok (.nan s false d)
  | .infinite s, .infinite t => if s = t then .ok (.infinite s) else .error .arithmeticError
  | .infinite s, .finite .. => .ok (.infinite s)
  | .finite .., .infinite s => .ok (.infinite s)
  | x, y => PyDecimal.add x y

/-- `diagnostic_resource_sums`. -/
def resourceSums (parsed : List ResourceContract) : Except CapacityError Record := do
  let wall ← ((parsed.filterMap ResourceContract.wallSeconds).foldlM addSeconds
    (.finite false 0 0)).mapError python
  let rss := (parsed.map fun c => c.peakRssBytes.getD 0).foldl max
    (((parsed.head?).map fun c => c.peakRssBytes.getD 0).getD 0)
  let external := (parsed.map fun c => c.externalBytes.getD 0).sum
  return [(py "wall_seconds_sum_not_makespan", .str wall.formatF),
    (py "max_node_peak_rss_bytes", .int rss), (py "declared_external_bytes_sum", .int external)]

/-- The plan. -/
structure CapacityPlan where
  executionOrder : List PyStr
  capacityStatuses : List CapacityStatus
  blockedNodes : Dict PyStr PyStr
  payload : Record
  planId : PyStr
  logicalHash : PyStr

/-- The payload of a plan. -/
def planPayload (required : List (PyStr × PyStr)) (t0 t1 : CapacityBudget) (contracts : Contracts)
    (order : List PyStr) (statuses : List CapacityStatus) (blocked : Dict PyStr PyStr)
    (sums : Record) : Record :=
  [(py "schema", .str (py "ovc-srfdi-g8r-capacity-plan/v1")),
    (py "authority_state", .str (py "FIXTURE_LOCAL_CAPACITY_REMEDIATION_ONLY")),
    (py "scientific_effect", .str (py "NONE")),
    (py "required_method_configurations",
      .list ((sortedBy (fun p => toLex (p.1, p.2)) required.dedup).map fun p =>
        .ofRecord [(py "method_id", .str p.1), (py "configuration_id", .str p.2)])),
    (py "execution_order", .ofStrs order),
    (py "resource_contracts", .list ((order.filterMap contracts.get?).map fun c =>
      .ofRecord c.toDict)),
    (py "capacity_statuses", .list (statuses.map fun s => .ofRecord s.toDict)),
    (py "blocked_nodes", .ofRecord (blocked.map fun p => (p.1, .str p.2))),
    (py "diagnostic_resource_sums", .ofRecord sums),
    (py "budget_tiers", .list [.ofRecord t0.toDict, .ofRecord t1.toDict]),
    (py "partial_benchmark_escape_hatch", .str (py "PROHIBITED")),
    (py "scientific_scope_change_on_capacity_failure", .str (py "PROHIBITED")),
    (py "june_market_records_read", .bool false), (py "validation_consumed", .bool false)]

/-- **`build_capacity_plan`.** -/
def buildCapacityPlan (items : List Item) (required : List (PyStr × PyStr))
    (t0 t1 : CapacityBudget) (exceeded : List PyStr) : Except CapacityError CapacityPlan := do
  let parsed ← prepared P L items required
  let contracts := byId parsed
  let order ← topologicalOrder contracts
  let unknown := sortedSet (exceeded.filter fun nodeId => nodeId ∉ contracts.keys)
  check (unknown = []) (.schedule (py "CAP_UNKNOWN_MEASUREMENT_NODE") (commaJoin unknown))
  let statuses ← order.mapM (statusOf contracts t0 t1 exceeded)
  let blocked := blockedNodes contracts (order.zip statuses) order
  let sums ← resourceSums parsed
  let payload := planPayload required t0 t1 contracts order statuses blocked sums
  let planId ← (stableId P "SRFD.G8R.CAPACITY.PLAN." payload).mapError .other
  let logicalHash ← (logicalSha256 P (.ofRecord payload)).mapError .other
  return ⟨order, statuses, blocked, payload, planId, logicalHash⟩

/-! ## The loop takes the least node that is available -/

section

open Topological

variable {contracts : Contracts} {output rest : List PyStr} {n : PyStr} {w : Waiting}

/-- The keys of what is waited for are the nodes. -/
structure SameNodes (contracts : Contracts) (w : Waiting) : Prop where
  nodup : w.incoming.keys.Nodup
  mem : ∀ c, c ∈ w.incoming.keys ↔ c ∈ contracts.keys

/-- **What the loop stands at behind `output`.** -/
structure At (contracts : Contracts) (w : Waiting) (output : List PyStr) : Prop extends
    SameNodes contracts w where
  incoming : ∀ c ∈ contracts.keys,
    w.incoming.get? c = some ((contracts.deps c).filter fun d => d ∉ output)
  ready : w.ready = available contracts.keys contracts.deps output

/-- What the loop over the candidates stands at when it has `seen` some of them. -/
structure Visited (contracts : Contracts) (n : PyStr) (output rest : List PyStr) (w : Waiting)
    (seen : List PyStr) : Prop extends SameNodes contracts w where
  incoming : ∀ c ∈ contracts.keys, w.incoming.get? c =
    some ((contracts.deps c).filter fun d => d ∉ if c ∈ seen then output ++ [n] else output)
  sorted : w.ready.Pairwise (· ≤ ·)
  nodupReady : w.ready.Nodup
  ready : ∀ c, c ∈ w.ready ↔ c ∈ rest ∨
    c ∈ seen ∧ c ∈ available contracts.keys contracts.deps (output ++ [n])

/-- What is available behind `output` but for the node that is taken. -/
theorem mem_rest (hnodes : contracts.keys.Nodup)
    (h : available contracts.keys contracts.deps output = n :: rest) {c : PyStr} :
    c ∈ rest ↔ c ≠ n ∧ c ∈ available contracts.keys contracts.deps output := by
  have hnd : (available contracts.keys contracts.deps output).Nodup :=
    nodup_available hnodes output
  rw [h] at hnd ⊢
  constructor
  · intro hc
    refine ⟨?_, mem_cons_of_mem _ hc⟩
    rintro rfl
    exact (nodup_cons.mp hnd).1 hc
  · rintro ⟨hne, hc⟩
    exact (mem_cons.mp hc).resolve_left hne

/-- What waits behind the node that is taken. -/
theorem filter_snoc (c : PyStr) :
    (((contracts.deps c).filter fun d => d ∉ output).filter fun d => d ≠ n) =
      (contracts.deps c).filter fun d => d ∉ output ++ [n] := by
  rw [filter_filter]
  refine filter_congr fun d _ => ?_
  rw [← Bool.decide_and]
  refine decide_eq_decide.mpr ?_
  rw [mem_append, mem_singleton, not_or, and_comm]

theorem filter_eq_nil_iff {c : PyStr} {taken : List PyStr} :
    ((contracts.deps c).filter fun d => d ∉ taken) = [] ↔ ∀ d ∈ contracts.deps c, d ∈ taken := by
  simp [filter_eq_nil_iff]

/-- **One candidate.** -/
theorem Visited.visit (hnodes : contracts.keys.Nodup)
    (h : available contracts.keys contracts.deps output = n :: rest) {seen : List PyStr}
    (hw : Visited contracts n output rest w seen) {c : PyStr} (hc : c ∈ contracts.keys)
    (hnew : c ∉ seen) :
    Visited contracts n output rest (visit n (output ++ [n]) w c) (seen ++ [c]) := by
  have hwaits : (w.incoming.get? c).getD [] =
      (contracts.deps c).filter fun d => d ∉ output := by
    rw [hw.incoming c hc, if_neg hnew, Option.getD_some]
  obtain ⟨-, hnotOutput, hnDeps⟩ :=
    mem_available.mp (h ▸ mem_cons_self : n ∈ available contracts.keys _ output)
  have hseen : ∀ {d}, d ≠ c → (d ∈ seen ++ [c] ↔ d ∈ seen) := by
    intro d hd
    simp [hd]
  unfold Capacity.visit
  rw [hwaits]
  dsimp only
  by_cases hwaiting : n ∈ (contracts.deps c).filter fun d => d ∉ output
  · rw [if_pos hwaiting, filter_snoc]
    set rest' := (contracts.deps c).filter fun d => d ∉ output ++ [n] with hrest'
    have hnodes' : SameNodes contracts ⟨w.incoming.set c rest', w.ready⟩ := by
      refine ⟨Dict.nodup_keys_set hw.nodup c rest', fun d => ?_⟩
      show d ∈ Dict.keys (w.incoming.set c rest') ↔ _
      rw [Dict.mem_keys_set, hw.mem]
      exact or_iff_right_of_imp fun heq => heq ▸ hc
    have hincoming : ∀ d ∈ contracts.keys, Dict.get? (w.incoming.set c rest') d =
        some ((contracts.deps d).filter fun e =>
          e ∉ if d ∈ seen ++ [c] then output ++ [n] else output) := by
      intro d hd
      by_cases heq : d = c
      · subst heq
        rw [Dict.get?_set_self, if_pos (by simp)]
      · rw [Dict.get?_set_of_ne _ _ (Ne.symm heq), hw.incoming d hd]
        simp only [hseen heq]
    by_cases hfree : rest' = [] ∧ c ∉ output ++ [n] ∧ c ∉ w.ready
    · rw [if_pos hfree]
      refine ⟨⟨hnodes'.nodup, hnodes'.mem⟩, hincoming, sortedBy_pairwise id _, ?_, fun d => ?_⟩
      · rw [(sortedBy_perm id _).nodup_iff, ← concat_eq_append]
        exact hw.nodupReady.concat hfree.2.2
      · rw [mem_sortedBy, mem_append, mem_singleton, hw.ready]
        by_cases heq : d = c
        · subst heq
          refine iff_of_true (.inr rfl) (.inr ⟨by simp, ?_⟩)
          exact mem_available.mpr ⟨hc, hfree.2.1, filter_eq_nil_iff.mp hfree.1⟩
        · rw [hseen heq, or_iff_left heq]
    · rw [if_neg hfree]
      refine ⟨⟨hnodes'.nodup, hnodes'.mem⟩, hincoming, hw.sorted, hw.nodupReady, fun d => ?_⟩
      rw [hw.ready]
      by_cases heq : d = c
      · subst heq
        -- it is ready already, or it was taken, or it waits for another
        have hready := hw.ready d
        constructor
        · rintro (hd | ⟨hd, -⟩)
          · exact .inl hd
          · exact absurd hd hnew
        · rintro (hd | ⟨-, hd⟩)
          · exact .inl hd
          · obtain ⟨-, hd₁, hd₂⟩ := mem_available.mp hd
            have hmem : d ∈ w.ready := by
              by_contra hnot
              exact hfree ⟨filter_eq_nil_iff.mpr hd₂, hd₁, hnot⟩
            exact hready.mp hmem
      · rw [hseen heq]
  · rw [if_neg hwaiting]
    have hnot : n ∉ contracts.deps c := fun hmem =>
      hwaiting (mem_filter.mpr ⟨hmem, by simpa using hnotOutput⟩)
    refine ⟨⟨hw.nodup, hw.mem⟩, fun d hd => ?_, hw.sorted, hw.nodupReady, fun d => ?_⟩
    · by_cases heq : d = c
      · subst heq
        rw [hw.incoming d hd, if_neg hnew, if_pos (by simp)]
        congr 1
        refine filter_congr fun e he => ?_
        have hne : e ≠ n := fun heq => hnot (heq ▸ he)
        simp [hne]
      · rw [hw.incoming d hd]
        simp only [hseen heq]
    · rw [hw.ready]
      by_cases heq : d = c
      · subst heq
        constructor
        · rintro (hd | ⟨hd, -⟩)
          · exact .inl hd
          · exact absurd hd hnew
        · rintro (hd | ⟨-, hd⟩)
          · exact .inl hd
          · -- it does not depend on the node, so it was available before
            obtain ⟨-, hd₁, hd₂⟩ := mem_available.mp hd
            rw [mem_append, mem_singleton, not_or] at hd₁
            refine .inl ((mem_rest hnodes h).mpr ⟨hd₁.2, mem_available.mpr ⟨hc, hd₁.1, ?_⟩⟩)
            intro e he
            refine (mem_append.mp (hd₂ e he)).resolve_right fun hn => hnot ?_
            rwa [mem_singleton.mp hn] at he
      · rw [hseen heq]

/-- The candidates one by one. -/
theorem Visited.foldl (hnodes : contracts.keys.Nodup)
    (h : available contracts.keys contracts.deps output = n :: rest) {seen cs : List PyStr}
    (hw : Visited contracts n output rest w seen) (hcs : ∀ c ∈ cs, c ∈ contracts.keys)
    (hnd : (seen ++ cs).Nodup) :
    Visited contracts n output rest (cs.foldl (Capacity.visit n (output ++ [n])) w)
      (seen ++ cs) := by
  induction cs generalizing seen w with
  | nil => rwa [append_nil]
  | cons c cs ih =>
    have hsplit : seen ++ c :: cs = seen ++ [c] ++ cs := by simp
    rw [hsplit] at hnd ⊢
    have hnew : c ∉ seen := fun hmem =>
      (disjoint_of_nodup_append (nodup_append.mp hnd).1) hmem
        (mem_singleton_self c)
    exact ih (hw.visit hnodes h (hcs c mem_cons_self) hnew)
      (fun d hd => hcs d (mem_cons_of_mem _ hd)) hnd

/-- **One step of the loop.** -/
theorem At.step (hnodes : contracts.keys.Nodup) (hw : At contracts w output)
    (h : available contracts.keys contracts.deps output = n :: rest) :
    At contracts ((sortedBy id w.incoming.keys).foldl (visit n (output ++ [n]))
      ⟨w.incoming, rest⟩) (output ++ [n]) := by
  have havail : (available contracts.keys contracts.deps output).Nodup :=
    nodup_available hnodes output
  have hpw : (available contracts.keys contracts.deps output).Pairwise (· ≤ ·) :=
    pairwise_available output
  rw [h] at havail hpw
  have hbegin : Visited contracts n output rest ⟨w.incoming, rest⟩ [] := by
    refine ⟨⟨hw.nodup, hw.mem⟩, fun c hc => ?_, (pairwise_cons.mp hpw).2,
      (nodup_cons.mp havail).2, fun c => by simp⟩
    rw [hw.incoming c hc, if_neg not_mem_nil]
  have hall : ∀ c, c ∈ sortedBy id w.incoming.keys ↔ c ∈ contracts.keys := by
    intro c
    rw [mem_sortedBy, hw.mem]
  have hend := hbegin.foldl hnodes h (fun c hc => (hall c).mp hc)
    (by rw [nil_append]; exact ((sortedBy_perm id _).nodup_iff).mpr hw.nodup)
  rw [nil_append] at hend
  refine ⟨⟨hend.nodup, hend.mem⟩, fun c hc => ?_, ?_⟩
  · rw [hend.incoming c hc, if_pos ((hall c).mpr hc)]
  · refine eq_of_sorted hend.sorted (pairwise_available _) hend.nodupReady
      (nodup_available hnodes _) fun c => ?_
    rw [hend.ready, hall, mem_rest hnodes h]
    constructor
    · rintro (⟨hne, hc⟩ | ⟨-, hc⟩)
      · obtain ⟨hmem, hnot, hdeps⟩ := mem_available.mp hc
        refine mem_available.mpr ⟨hmem, ?_, fun d hd => mem_append_left _ (hdeps d hd)⟩
        simp [hnot, hne]
      · exact hc
    · intro hc
      exact .inr ⟨(mem_available.mp hc).1, hc⟩

/-- **The loop takes the nodes that `grow` takes.** -/
theorem orderLoop_eq (hnodes : contracts.keys.Nodup) (steps : Nat)
    (hw : At contracts w output) :
    orderLoop steps w output = grow contracts.keys contracts.deps steps output := by
  induction steps generalizing w output with
  | zero => rfl
  | succ steps ih =>
    rw [orderLoop, grow, hw.ready]
    cases h : available contracts.keys contracts.deps output with
    | nil => rfl
    | cons n rest => exact ih (hw.step hnodes h)

/-- In the beginning nothing was taken. -/
theorem at_initial (hnodes : contracts.keys.Nodup) :
    At contracts (initial contracts) [] := by
  have hkeys : Dict.keys (initial contracts).incoming = contracts.keys := by
    simp [initial, Dict.keys]
  have hget : ∀ c, Dict.get? (initial contracts).incoming c =
      (contracts.get? c).map ResourceContract.dependencyIds := fun c =>
    Dict.get?_map ResourceContract.dependencyIds contracts c
  refine ⟨⟨hkeys ▸ hnodes, fun c => by rw [hkeys]⟩, fun c hc => ?_, ?_⟩
  · obtain ⟨v, hv⟩ := Option.isSome_iff_exists.mp (Dict.isSome_get?_iff.mpr hc)
    rw [hget, Contracts.deps, hv]
    simp
  · have hfilt : (Dict.keys ((initial contracts).incoming.filter fun p =>
        decide (p.2 = []))).Nodup := Dict.nodup_keys_filter (hkeys ▸ hnodes) _
    refine eq_of_sorted (sortedBy_pairwise id _) (pairwise_available _)
      (((sortedBy_perm id _).nodup_iff).mpr hfilt) (nodup_available hnodes _) fun c => ?_
    show c ∈ sortedBy id (Dict.keys ((initial contracts).incoming.filter fun p =>
      decide (p.2 = []))) ↔ _
    rw [mem_sortedBy, mem_available]
    constructor
    · intro hc
      obtain ⟨p, hp, rfl⟩ := mem_map.mp hc
      obtain ⟨hmem, hnil⟩ := mem_filter.mp hp
      have hdeps := Dict.get?_of_mem (hkeys ▸ hnodes) hmem
      rw [hget, Option.map_eq_some_iff] at hdeps
      obtain ⟨v, hv, hv'⟩ := hdeps
      refine ⟨Dict.isSome_get?_iff.mp (by rw [hv]; rfl), not_mem_nil, ?_⟩
      rw [Contracts.deps, hv, Option.map_some, Option.getD_some, hv', of_decide_eq_true hnil]
      simp
    · rintro ⟨hc, -, hdeps⟩
      obtain ⟨v, hv⟩ := Option.isSome_iff_exists.mp (Dict.isSome_get?_iff.mpr hc)
      rw [Contracts.deps, hv, Option.map_some, Option.getD_some] at hdeps
      have hnil : v.dependencyIds = [] :=
        eq_nil_iff_forall_not_mem.mpr fun d hd => not_mem_nil (hdeps d hd)
      refine mem_map.mpr ⟨(c, v.dependencyIds), mem_filter.mpr ⟨?_, decide_eq_true hnil⟩,
        rfl⟩
      exact mem_map.mpr ⟨(c, v), Dict.mem_of_get? hv, rfl⟩

end

/-! ## What is checked before the order -/

section

open Topological

variable {P L} {parsed : List ResourceContract} {items : List Item}
  {required : List (PyStr × PyStr)} {contracts : Contracts}

theorem nodup_keys_byId (parsed : List ResourceContract) : (Dict.keys (byId parsed)).Nodup := by
  have hfold : ∀ (pairs : List (PyStr × ResourceContract)) (d : Contracts), d.keys.Nodup →
      (Dict.keys (pairs.foldl (fun d p => d.set p.1 p.2) d)).Nodup := by
    intro pairs
    induction pairs with
    | nil => exact fun _ hd => hd
    | cons p pairs ih => exact fun d hd => ih _ (Dict.nodup_keys_set hd p.1 p.2)
  exact hfold _ [] nodup_nil

theorem mem_keys_byId {nodeId : PyStr} :
    nodeId ∈ Dict.keys (byId parsed) ↔ nodeId ∈ parsed.map ResourceContract.nodeId := by
  have hnone : Dict.get? (byId parsed) nodeId = none ↔
      nodeId ∉ (parsed.map fun c => (c.nodeId, c)).map Prod.fst := Dict.get?_ofItems_eq_none_iff
  rw [map_map] at hnone
  rw [← Dict.isSome_get?_iff, Option.isSome_iff_ne_none, Ne, hnone, not_not]
  rfl

/-- With as many nodes as contracts, no two contracts are of one node. -/
theorem nodup_nodeIds (h : (byId parsed).length = parsed.length) :
    (parsed.map ResourceContract.nodeId).Nodup := by
  have hsubset : Dict.keys (byId parsed) ⊆ parsed.map ResourceContract.nodeId :=
    fun _ hmem => mem_keys_byId.mp hmem
  have hperm := ((nodup_keys_byId parsed).subperm hsubset).perm_of_length_le (by
    rw [length_map, Dict.keys, length_map, h])
  exact hperm.nodup_iff.mp (nodup_keys_byId parsed)

theorem get?_byId (h : (parsed.map ResourceContract.nodeId).Nodup) {nodeId : PyStr}
    {c : ResourceContract} :
    Dict.get? (byId parsed) nodeId = some c ↔ c ∈ parsed ∧ c.nodeId = nodeId := by
  constructor
  · intro hget
    obtain ⟨c', hc', heq⟩ := mem_map.mp (Dict.mem_of_get?_ofItems hget)
    cases heq
    exact ⟨hc', rfl⟩
  · rintro ⟨hc, rfl⟩
    refine Dict.get?_ofItems_of_mem ?_ (mem_map_of_mem hc)
    rw [map_map]
    exact h

/-- The contracts of the items, by their nodes. -/
def contractsOf (P : Platform) (L : Language) (items : List Item) : Contracts :=
  byId ((items.mapM (Item.parse P L)).toOption.getD [])

/-- **What is known of checked contracts**: they have different nodes, and name no dependency that
is missing. -/
theorem checked_of_prepared (h : prepared P L items required = .ok parsed) :
    items.mapM (Item.parse P L) = .ok parsed ∧ contractsOf P L items = byId parsed ∧
      (parsed.map ResourceContract.nodeId).Nodup ∧
      ∀ c ∈ Dict.keys (byId parsed), (byId parsed).deps c ⊆ Dict.keys (byId parsed) := by
  obtain ⟨parsed', hparse, h⟩ := bind_ok.mp h
  obtain ⟨_, hlen, h⟩ := bind_ok.mp h
  obtain ⟨_, -, h⟩ := bind_ok.mp h
  obtain ⟨_, hmiss, h⟩ := bind_ok.mp h
  obtain rfl := Except.ok.inj h
  refine ⟨hparse, ?_, nodup_nodeIds (check_ok.mp hlen), fun nodeId hmem d hd => ?_⟩
  · rw [contractsOf, hparse]
    rfl
  obtain ⟨c, hc⟩ := Option.isSome_iff_exists.mp (Dict.isSome_get?_iff.mpr hmem)
  rw [Contracts.deps, hc, Option.map_some, Option.getD_some] at hd
  have hnone := check_ok.mp (forM_ok.mp hmiss c
    (mem_map.mpr ⟨(nodeId, c), Dict.mem_of_get? hc, rfl⟩))
  by_contra hnot
  have hin : d ∈ sortedSet (c.dependencyIds.filter fun d => d ∉ Dict.keys (byId parsed')) :=
    mem_sortedSet.mpr (mem_filter.mpr ⟨hd, by simpa using hnot⟩)
  rw [hnone] at hin
  exact not_mem_nil hin

theorem length_keys : contracts.keys.length = contracts.length := length_map _

/-- **The order of acyclic contracts.** -/
theorem topologicalOrder_ok (hnodes : contracts.keys.Nodup)
    (hdeps : ∀ c ∈ contracts.keys, contracts.deps c ⊆ contracts.keys)
    {order : List PyStr} : topologicalOrder contracts = .ok order ↔
      ¬ Cyclic contracts.keys contracts.deps ∧
        grow contracts.keys contracts.deps contracts.length [] = order := by
  have hlen := length_grow_iff hdeps (@length_keys contracts).le hnodes
  rw [topologicalOrder, orderLoop_eq hnodes _ (at_initial hnodes), bind_ok]
  rw [length_keys] at hlen
  simp only [check_ok, hlen, pure_ok, exists_const]

/-- Contracts with a cycle have no order. -/
theorem topologicalOrder_eq_error (hnodes : contracts.keys.Nodup)
    (hdeps : ∀ c ∈ contracts.keys, contracts.deps c ⊆ contracts.keys)
    (h : Cyclic contracts.keys contracts.deps) :
    ∃ detail, topologicalOrder contracts =
      .error (.schedule (py "CAP_DEPENDENCY_CYCLE") detail) := by
  have hlen := length_grow_iff hdeps (@length_keys contracts).le hnodes
  rw [length_keys] at hlen
  rw [topologicalOrder, orderLoop_eq hnodes _ (at_initial hnodes), check,
    if_neg fun heq => hlen.mp heq h]
  exact ⟨_, rfl⟩

/-! ### Other errors -/

/-- The error does not report a cycle. -/
def NotCycle (e : CapacityError) : Prop :=
  ∀ detail, e ≠ .schedule (py "CAP_DEPENDENCY_CYCLE") detail

theorem notCycle_other (e : Error) : NotCycle (.other e) := fun _ h => by cases h

theorem notCycle_schedule {code : String} {detail : PyStr} (h : code ≠ "CAP_DEPENDENCY_CYCLE") :
    NotCycle (.schedule (py code) detail) := by
  intro _ heq
  simp only [CapacityError.schedule.injEq, py_inj] at heq
  exact h heq.1

theorem raisesOnly_python {α : Type} (r : Except PyError α) :
    RaisesOnly NotCycle (r.mapError python) :=
  raisesOnly_mapError fun e _ => notCycle_other (.python e)

theorem raisesOnly_stripped (value : Record) (key : String) (default : PyStr) :
    RaisesOnly NotCycle (stripped P value key default) :=
  (raisesOnly_python _).map

theorem raisesOnly_strippedOrNone (value : Record) (key : String) :
    RaisesOnly NotCycle (strippedOrNone P value key) := by
  unfold strippedOrNone
  split
  · exact raisesOnly_ok
  · exact (raisesOnly_python _).map

theorem raisesOnly_decimalOrNone (nodeId : PyStr) (raw : PyVal) :
    RaisesOnly NotCycle (decimalOrNone P nodeId raw) := by
  unfold decimalOrNone
  split
  · exact raisesOnly_ok
  · refine (raisesOnly_python _).bind fun text _ => ?_
    split
    · exact raisesOnly_error.mpr (notCycle_other _)
    · refine (raisesOnly_python _).bind fun negative _ => ?_
      refine (raisesOnly_check fun _ => notCycle_schedule (by decide)).bind fun _ _ => ?_
      exact raisesOnly_ok

theorem raisesOnly_intOrNone (nodeId : PyStr) (raw : PyVal) :
    RaisesOnly NotCycle (intOrNone L nodeId raw) := by
  unfold intOrNone
  split
  · exact raisesOnly_ok
  · refine RaisesOnly.bind ?_ fun number _ => ?_
    · unfold intOf
      split
      · exact raisesOnly_ok
      · exact raisesOnly_ok
      · exact raisesOnly_python _
    · refine (raisesOnly_check fun _ => notCycle_schedule (by decide)).bind fun _ _ => ?_
      exact raisesOnly_ok

theorem raisesOnly_fromMapping (value : Record) :
    RaisesOnly NotCycle (ResourceContract.fromMapping P L value) := by
  refine (raisesOnly_stripped value _ _).bind fun nodeId _ => ?_
  refine (raisesOnly_stripped value _ _).bind fun nodeType _ => ?_
  refine (raisesOnly_check fun _ => notCycle_schedule (by decide)).bind fun _ _ => ?_
  refine (raisesOnly_stripped value _ _).bind fun measurementClass _ => ?_
  refine (raisesOnly_check fun _ => notCycle_schedule (by decide)).bind fun _ _ => ?_
  refine (raisesOnly_python _).bind fun dependencies _ => ?_
  refine (raisesOnly_check fun _ => notCycle_schedule (by decide)).bind fun _ _ => ?_
  refine (raisesOnly_strippedOrNone value _).bind fun methodId _ => ?_
  refine (raisesOnly_strippedOrNone value _).bind fun configurationId _ => ?_
  refine (raisesOnly_decimalOrNone nodeId _).bind fun wall _ => ?_
  refine (raisesOnly_intOrNone nodeId _).bind fun rss _ => ?_
  refine (raisesOnly_intOrNone nodeId _).bind fun external _ => ?_
  exact raisesOnly_ok

theorem raisesOnly_prepared : RaisesOnly NotCycle (prepared P L items required) := by
  refine (raisesOnly_mapM fun item _ => ?_).bind fun parsed _ => ?_
  · cases item with
    | mapping value => exact raisesOnly_fromMapping value
    | contract c => exact raisesOnly_ok
  refine (raisesOnly_check fun _ => notCycle_schedule (by decide)).bind fun _ _ => ?_
  refine RaisesOnly.bind ?_ fun _ _ => ?_
  · refine (raisesOnly_python _).bind fun missing _ => ?_
    refine (raisesOnly_python _).bind fun unexpected _ => ?_
    split
    · exact raisesOnly_ok
    · refine (raisesOnly_python _).bind fun missingText _ => ?_
      refine (raisesOnly_python _).bind fun unexpectedText _ => ?_
      exact raisesOnly_error.mpr (notCycle_schedule (by decide))
  refine RaisesOnly.bind ?_ fun _ _ => raisesOnly_ok
  exact raisesOnly_forM fun c _ => raisesOnly_check fun _ => notCycle_schedule (by decide)

end

/-! ## The plan -/

section

open Topological

variable (items : List Item) (required : List (PyStr × PyStr)) (t0 t1 : CapacityBudget)
  (exceeded : List PyStr)

/-- `x` names `y` as a dependency. -/
def DependsOn : PyStr → PyStr → Prop :=
  Depends (Dict.keys (contractsOf P L items)) (contractsOf P L items).deps

/-- The node has a status that cannot run. -/
def CannotRun (nodeId : PyStr) : Prop :=
  ∃ s, statusOf (contractsOf P L items) t0 t1 exceeded nodeId = .ok s ∧ s.status.CannotRun

/-- **What is to hold of the plan of the items**: it is refused for a cycle iff the checked
contracts have one; its order has every node once, behind its dependencies, and is that of the items
in any order; and a node is blocked iff some dependency, direct or not, cannot run. -/
structure CapacityLaws : Prop where
  cycle : (∃ detail, buildCapacityPlan P L items required t0 t1 exceeded =
      .error (.schedule (py "CAP_DEPENDENCY_CYCLE") detail)) ↔
    Returns (prepared P L items required) ∧ ∃ x, Relation.TransGen (DependsOn P L items) x x
  each : ∀ plan, buildCapacityPlan P L items required t0 t1 exceeded = .ok plan →
    plan.executionOrder.Perm (Dict.keys (contractsOf P L items))
  behind : ∀ plan, buildCapacityPlan P L items required t0 t1 exceeded = .ok plan →
    ∀ front nodeId back, plan.executionOrder = front ++ nodeId :: back →
      ∀ d ∈ (contractsOf P L items).deps nodeId, d ∈ front
  arrival : ∀ plan, buildCapacityPlan P L items required t0 t1 exceeded = .ok plan →
    ∀ items' plan', items.Perm items' →
      buildCapacityPlan P L items' required t0 t1 exceeded = .ok plan' →
        plan'.executionOrder = plan.executionOrder
  blocked : ∀ plan, buildCapacityPlan P L items required t0 t1 exceeded = .ok plan →
    ∀ nodeId, nodeId ∈ plan.blockedNodes.keys ↔
      ∃ d, Relation.TransGen (DependsOn P L items) nodeId d ∧ CannotRun P L items t0 t1 exceeded d

/-- The node names a dependency that cannot run. -/
def HasBlocker (nodeId : PyStr) : Prop :=
  ∃ d, DependsOn P L items nodeId d ∧ CannotRun P L items t0 t1 exceeded d

/-- **A node whose dependency has a blocker has a blocker itself**, where there is a plan. -/
def BlockersAreDirect : Prop :=
  Returns (buildCapacityPlan P L items required t0 t1 exceeded) →
    ∀ x y, DependsOn P L items x y → HasBlocker P L items t0 t1 exceeded y →
      HasBlocker P L items t0 t1 exceeded x

variable {P L items required t0 t1 exceeded}

variable {plan : CapacityPlan}

/-- **What a plan is made of.** -/
theorem parts_of_plan (h : buildCapacityPlan P L items required t0 t1 exceeded = .ok plan) :
    ∃ parsed statuses, prepared P L items required = .ok parsed ∧
      topologicalOrder (contractsOf P L items) = .ok plan.executionOrder ∧
      plan.executionOrder.mapM (statusOf (contractsOf P L items) t0 t1 exceeded) = .ok statuses ∧
      plan.blockedNodes = blockedNodes (contractsOf P L items) (plan.executionOrder.zip statuses)
        plan.executionOrder := by
  obtain ⟨parsed, hprep, h⟩ := bind_ok.mp h
  rw [← (checked_of_prepared hprep).2.1] at h
  obtain ⟨order, horder, h⟩ := bind_ok.mp h
  obtain ⟨_, -, h⟩ := bind_ok.mp h
  obtain ⟨statuses, hstatuses, h⟩ := bind_ok.mp h
  obtain ⟨sums, -, h⟩ := bind_ok.mp h
  obtain ⟨planId, -, h⟩ := bind_ok.mp h
  obtain ⟨logicalHash, -, h⟩ := bind_ok.mp h
  cases h
  exact ⟨parsed, statuses, hprep, horder, hstatuses, rfl⟩

theorem nodup_nodes : (Dict.keys (contractsOf P L items)).Nodup := nodup_keys_byId _

theorem deps_subset {parsed : List ResourceContract}
    (h : prepared P L items required = .ok parsed) :
    ∀ c ∈ Dict.keys (contractsOf P L items),
      (contractsOf P L items).deps c ⊆ Dict.keys (contractsOf P L items) := by
  rw [(checked_of_prepared h).2.1]
  exact (checked_of_prepared h).2.2.2

/-- The order of a plan. -/
theorem order_of_plan (h : buildCapacityPlan P L items required t0 t1 exceeded = .ok plan) :
    (¬ ∃ x, Relation.TransGen (DependsOn P L items) x x) ∧
      grow (Dict.keys (contractsOf P L items)) (contractsOf P L items).deps
        (contractsOf P L items).length [] = plan.executionOrder := by
  obtain ⟨parsed, statuses, hprep, horder, -, -⟩ := parts_of_plan h
  exact (topologicalOrder_ok nodup_nodes (deps_subset hprep)).mp horder

theorem perm_of_plan (h : buildCapacityPlan P L items required t0 t1 exceeded = .ok plan) :
    plan.executionOrder.Perm (Dict.keys (contractsOf P L items)) := by
  obtain ⟨parsed, statuses, hprep, -, -, -⟩ := parts_of_plan h
  obtain ⟨hacyc, horder⟩ := order_of_plan h
  have hlen := (length_grow_iff (deps_subset hprep) (length_keys).le nodup_nodes).mpr
    hacyc
  have hlayered : Layered (Dict.keys (contractsOf P L items)) (contractsOf P L items).deps
      (grow (Dict.keys (contractsOf P L items)) (contractsOf P L items).deps
        (contractsOf P L items).length []) := Layered.nil.grow _
  rw [horder] at hlen hlayered
  exact (hlayered.nodup.subperm hlayered.subset).perm_of_length_le hlen.ge

/-- The contracts of the items in another order. -/
theorem get?_contractsOf_of_perm {items' : List Item} (hperm : items.Perm items')
    {parsed parsed' : List ResourceContract} (h : prepared P L items required = .ok parsed)
    (h' : prepared P L items' required = .ok parsed') (nodeId : PyStr) :
    Dict.get? (contractsOf P L items) nodeId = Dict.get? (contractsOf P L items') nodeId := by
  obtain ⟨hparse, hcontrs, hnd, -⟩ := checked_of_prepared h
  obtain ⟨hparse', hcontrs', hnd', -⟩ := checked_of_prepared h'
  have hmem : ∀ c, c ∈ parsed ↔ c ∈ parsed' := fun _ =>
    (perm_of_mapM hperm hparse hparse').mem_iff
  rw [hcontrs, hcontrs']
  ext c
  rw [get?_byId hnd, get?_byId hnd', hmem]

/-- **The order does not depend on the arrival of the items.** -/
theorem order_of_perm {items' : List Item} (hperm : items.Perm items') {plan plan' : CapacityPlan}
    (h : buildCapacityPlan P L items required t0 t1 exceeded = .ok plan)
    (h' : buildCapacityPlan P L items' required t0 t1 exceeded = .ok plan') :
    plan'.executionOrder = plan.executionOrder := by
  obtain ⟨parsed, -, hprep, -, -, -⟩ := parts_of_plan h
  obtain ⟨parsed', -, hprep', -, -, -⟩ := parts_of_plan h'
  have hget := get?_contractsOf_of_perm hperm hprep hprep'
  have hmem : ∀ c, c ∈ Dict.keys (contractsOf P L items) ↔
      c ∈ Dict.keys (contractsOf P L items') := fun c => by
    rw [← Dict.isSome_get?_iff, ← Dict.isSome_get?_iff, hget]
  have hlen : (contractsOf P L items).length = (contractsOf P L items').length := by
    rw [← length_keys, ← length_keys]
    exact ((perm_ext_iff_of_nodup nodup_nodes nodup_nodes).mpr hmem).length_eq
  rw [← (order_of_plan h).2, ← (order_of_plan h').2, hlen]
  refine (grow_congr nodup_nodes nodup_nodes hmem (fun c _ d => ?_) _ []).symm
  rw [Contracts.deps, Contracts.deps, hget]

/-- **A node is blocked iff it names a dependency that cannot run.** -/
theorem blocked_iff (h : buildCapacityPlan P L items required t0 t1 exceeded = .ok plan)
    (nodeId : PyStr) :
    nodeId ∈ plan.blockedNodes.keys ↔ HasBlocker P L items t0 t1 exceeded nodeId := by
  obtain ⟨parsed, statuses, hprep, -, hstatuses, hblocked⟩ := parts_of_plan h
  have hperm := perm_of_plan h
  have hall := mapM_ok_iff.mp hstatuses
  have hkeys : Dict.keys (plan.executionOrder.zip statuses) = plan.executionOrder :=
    map_fst_zip hall.length_eq.le
  -- the statuses of the plan are those of the nodes
  have hstat : ∀ d ∈ Dict.keys (contractsOf P L items),
      (((Dict.get? (plan.executionOrder.zip statuses) d).map fun s =>
        decide s.status.CannotRun).getD false = true ↔ CannotRun P L items t0 t1 exceeded d) := by
    intro d hd
    have hmem : d ∈ Dict.keys (plan.executionOrder.zip statuses) := by
      rw [hkeys]
      exact hperm.mem_iff.mpr hd
    obtain ⟨s, hs⟩ := Option.isSome_iff_exists.mp (Dict.isSome_get?_iff.mpr hmem)
    have hread : statusOf (contractsOf P L items) t0 t1 exceeded d = .ok s :=
      forall₂_zip hall (Dict.mem_of_get? hs)
    rw [hs, Option.map_some, Option.getD_some, decide_eq_true_eq, CannotRun, hread]
    simp
  have hmem : nodeId ∈ plan.blockedNodes.keys ↔ nodeId ∈ plan.executionOrder ∧
      blockersOf (contractsOf P L items) (plan.executionOrder.zip statuses) nodeId ≠ [] := by
    rw [hblocked, blockedNodes, ← Dict.isSome_get?_iff, Option.isSome_iff_ne_none, Ne,
      Dict.get?_ofItems_eq_none_iff, not_not, mem_map]
    constructor
    · rintro ⟨p, hp, rfl⟩
      obtain ⟨id, hid, hsome⟩ := mem_filterMap.mp hp
      dsimp only at hsome
      split_ifs at hsome with hnil
      cases hsome
      exact ⟨hid, hnil⟩
    · rintro ⟨hid, hne⟩
      exact ⟨_, mem_filterMap.mpr ⟨nodeId, hid, if_neg hne⟩, rfl⟩
  rw [hmem, hperm.mem_iff, HasBlocker]
  constructor
  · rintro ⟨hid, hne⟩
    obtain ⟨d, hd⟩ := exists_mem_of_ne_nil _ hne
    obtain ⟨hdep, hblocks⟩ := mem_filter.mp hd
    exact ⟨d, ⟨hid, hdep⟩, (hstat d (deps_subset hprep nodeId hid hdep)).mp hblocks⟩
  · rintro ⟨d, ⟨hid, hdep⟩, hcannot⟩
    exact ⟨hid, ne_nil_of_mem (mem_filter.mpr ⟨hdep,
      (hstat d (deps_subset hprep nodeId hid hdep)).mpr hcannot⟩)⟩

/-- **The refusal for a cycle.** -/
theorem cycle_iff : (∃ detail, buildCapacityPlan P L items required t0 t1 exceeded =
      .error (.schedule (py "CAP_DEPENDENCY_CYCLE") detail)) ↔
    Returns (prepared P L items required) ∧ ∃ x, Relation.TransGen (DependsOn P L items) x x := by
  cases hprep : prepared P L items required with
  | error e =>
    refine iff_of_false ?_ (by simp)
    rintro ⟨detail, hbuild⟩
    rw [buildCapacityPlan, hprep] at hbuild
    exact raisesOnly_prepared e hprep detail (Except.error.inj hbuild)
  | ok parsed =>
    have hcontrs := (checked_of_prepared hprep).2.1
    have hdeps := deps_subset hprep
    rw [buildCapacityPlan, hprep]
    simp only [returns_ok, true_and]
    constructor
    · rintro ⟨detail, hbuild⟩
      by_contra hacyc
      have horder := (topologicalOrder_ok nodup_nodes hdeps).mpr ⟨hacyc, rfl⟩
      rw [hcontrs] at horder
      -- behind the order only other errors are raised
      refine absurd rfl (RaisesOnly.bind (Q := NotCycle) (r := .ok parsed) raisesOnly_ok
        (fun _ _ => ?_) _ hbuild detail)
      rename_i hparsed
      cases hparsed
      rw [horder]
      refine raisesOnly_ok.bind fun order _ => ?_
      refine (raisesOnly_check fun _ => notCycle_schedule (by decide)).bind fun _ _ => ?_
      refine (raisesOnly_mapM fun nodeId _ => ?_).bind fun statuses _ => ?_
      · unfold statusOf
        split
        · exact raisesOnly_error.mpr (notCycle_other _)
        · exact raisesOnly_python _
      refine RaisesOnly.bind ?_ fun sums _ => ?_
      · exact (raisesOnly_python _).bind fun _ _ => raisesOnly_ok
      refine (raisesOnly_mapError fun e _ => notCycle_other e).bind fun planId _ => ?_
      refine (raisesOnly_mapError fun e _ => notCycle_other e).bind fun logicalHash _ => ?_
      exact raisesOnly_ok
    · intro hcycle
      obtain ⟨detail, hdetail⟩ := topologicalOrder_eq_error nodup_nodes hdeps hcycle
      rw [hcontrs] at hdetail
      refine ⟨detail, ?_⟩
      show (topologicalOrder (byId parsed) >>= _) = _
      rw [hdetail]
      rfl

end

/-- **The plan is as it is to be iff blockers are direct**: the order always is, and a node that
only a longer chain of dependencies blocks is not reported. -/
theorem capacityLaws_iff (items : List Item) (required : List (PyStr × PyStr))
    (t0 t1 : CapacityBudget) (exceeded : List PyStr) :
    CapacityLaws P L items required t0 t1 exceeded ↔
      BlockersAreDirect P L items required t0 t1 exceeded := by
  constructor
  · rintro hlaws ⟨plan, hplan⟩ x y hxy ⟨d, hyd, hcannot⟩
    refine (blocked_iff hplan x).mp ((hlaws.blocked plan hplan x).mpr ⟨d, ?_, hcannot⟩)
    exact .head hxy (.single hyd)
  · intro hdirect
    refine ⟨cycle_iff, fun plan hplan => perm_of_plan hplan, ?_, ?_, ?_⟩
    · intro plan hplan front nodeId back hsplit
      have hlayered : Topological.Layered (Dict.keys (contractsOf P L items))
          (contractsOf P L items).deps (Topological.grow (Dict.keys (contractsOf P L items))
            (contractsOf P L items).deps (contractsOf P L items).length []) :=
        Topological.Layered.nil.grow _
      rw [(order_of_plan hplan).2] at hlayered
      exact hlayered.before hsplit
    · intro plan hplan items' plan' hperm hplan'
      exact order_of_perm hperm hplan hplan'
    · intro plan hplan nodeId
      rw [blocked_iff hplan]
      constructor
      · rintro ⟨d, hd, hcannot⟩
        exact ⟨d, .single hd, hcannot⟩
      · rintro ⟨d, hreach, hcannot⟩
        -- from the end of the chain to its beginning
        induction hreach using Relation.TransGen.head_induction_on with
        | single hstep => exact ⟨d, hstep, hcannot⟩
        | head hstep _ ih => exact hdirect ⟨plan, hplan⟩ _ _ hstep ih

/-! ## A chain of two dependencies -/

section

/-- A budget. -/
def sampleBudget (tierId : String) : CapacityBudget := ⟨py tierId, .finite false 10 0, 10, 10⟩

/-- A contract of a stage. -/
def stage (nodeId : String) (dependencies : List String) (wall : Option PyDecimal) :
    ResourceContract :=
  { nodeId := py nodeId, nodeType := py "STAGE", methodId := none, configurationId := none,
    dependencyIds := dependencies.map py, wallSeconds := wall, peakRssBytes := some 1,
    externalBytes := some 1, measurementClass := py "MEASURED" }

/-- The language of a run without mappings. -/
def noLanguage : Language := ⟨id, fun _ => .error .typeError⟩

/-- A platform that sorts what is sorted already. -/
def sortedPlatform : Platform := { Platform.reference with sortValues := .ok }

/-- The third stage depends on the second, and this on the first, whose time is not known. -/
def chain : List Item :=
  [.contract (stage "first" [] none),
    .contract (stage "second" ["first"] (some (.finite false 1 0))),
    .contract (stage "third" ["second"] (some (.finite false 1 0)))]

/-- **The end of a chain is not blocked** by its beginning. -/
theorem chain_not_blocked :
    ¬ CapacityLaws sortedPlatform noLanguage chain [] (sampleBudget "T0") (sampleBudget "T1")
      [] := by
  intro hlaws
  have hblocked : (buildCapacityPlan sortedPlatform noLanguage chain [] (sampleBudget "T0")
      (sampleBudget "T1") []).toOption.map (fun plan => plan.blockedNodes.keys) =
        some [py "second"] := by decide +kernel
  obtain ⟨plan, hoption, hkeys⟩ := Option.map_eq_some_iff.mp hblocked
  have hthird : DependsOn sortedPlatform noLanguage chain (py "third") (py "second") :=
    ⟨by decide +kernel, by decide +kernel⟩
  have hsecond : DependsOn sortedPlatform noLanguage chain (py "second") (py "first") :=
    ⟨by decide +kernel, by decide +kernel⟩
  have hfst : CannotRun sortedPlatform noLanguage chain (sampleBudget "T0") (sampleBudget "T1")
      [] (py "first") := ⟨_, rfl, .inr (.inl rfl)⟩
  have hmem := (hlaws.blocked plan (eq_ok_of_toOption hoption) (py "third")).mpr
    ⟨py "first", .head hthird (.single hsecond), hfst⟩
  rw [hkeys] at hmem
  exact absurd hmem (by decide +kernel)

end

end OvcReplay.Srfd.Capacity
