import OvcReplay.Skills.AsyncAssurance

/-! # Conditional materialisation intents

`async_assurance.py`: an intent is evaluated against a required assurance set, the futures and the
readiness of everything else, and asks for a physical write when nothing is missing. The evaluation
recomputes the state from these inputs alone, so a retired intent stays asleep only while one of
them is missing. -/

namespace OvcReplay.Skills

open Python Json

/-- `INTENT_STATES`. -/
inductive IntentState where
  | prepared
  | waitingAssurance
  | waitingPredecessor
  | waitingCurrentness
  | waitingOperator
  | waitingLease
  | materialisationReady
  | consumed
  | blocked
  | cancelled
  | superseded
  deriving DecidableEq, Repr

/-- `REQUIRED_READINESS_KEYS`. -/
def requiredReadinessKeys : List PyStr :=
  [py "OWNER_AUTHORITY_CURRENT", py "PROGRAMME_STATE_POINTER_CONSISTENT", py "QA_PASS",
    py "NO_UNRESOLVED_WARNING_OR_REVIEW", py "CURRENT_GRT_INTEGRATION_ASSURANCE",
    py "EXPECTED_PREDECESSOR_CURRENT", py "SECURITY_ALLOW", py "SIQ_READY", py "LEASE_READY"]

/-- `CONTROLLER_IDENTITY`. -/
def controllerIdentity : PyStr := py "DSAI_VIT_PHYSICAL_CONTROLLER"

/-- `ConditionalMaterialisationIntent`. -/
structure ConditionalMaterialisationIntent where
  programmeId : PyStr
  packetId : PyStr
  payloadId : PyStr
  vitGenerationId : PyStr
  trainGenerationId : PyStr
  expectedPredecessorCommit : PyStr
  expectedPredecessorTree : PyStr
  expectedResultTree : PyStr
  authorityManifestId : PyStr
  requiredAssuranceSetId : PyStr
  materialisationProfile : PyStr
  gateClass : PyStr
  operatorRequired : Bool
  state : IntentState
  supersedes : Option PyStr
  supersededBy : Option PyStr

/-- `MaterialisationWakeRequest`; its controller is the one that there is. -/
structure MaterialisationWakeRequest where
  intentId : PyStr
  controllerIdentity : PyStr := Skills.controllerIdentity
  action : PyStr := py "REQUEST_SERIALIZED_SQUASH_MATERIALISATION"
  authorityEffect : PyStr := py "NONE"

variable (P : Platform)

/-- `assurance_set_id`. -/
def RequiredAssuranceSet.assuranceSetId (set : RequiredAssuranceSet) :
    Except PyError HexDigest :=
  canonicalSha256 P (.ofRecord [(py "programme_id", .str set.programmeId),
    (py "packet_id", .str set.packetId), (py "version", .str set.version),
    (py "required_future_ids", .tuple (set.requiredFutureIds.map .str)),
    (py "allowed_terminal_states", .tuple (set.allowedTerminalStates.map .str))])
    (py "OVC_DSAI3V_REQUIRED_ASSURANCE_SET")

namespace ConditionalMaterialisationIntent

/-- `intent_id`: neither the state nor the successor is part of the identity. -/
def intentId (i : ConditionalMaterialisationIntent) : Except PyError HexDigest :=
  canonicalSha256 P (.ofRecord [(py "programme_id", .str i.programmeId),
    (py "packet_id", .str i.packetId), (py "payload_id", .str i.payloadId),
    (py "vit_generation_id", .str i.vitGenerationId),
    (py "train_generation_id", .str i.trainGenerationId),
    (py "expected_predecessor_commit", .str i.expectedPredecessorCommit),
    (py "expected_predecessor_tree", .str i.expectedPredecessorTree),
    (py "expected_result_tree", .str i.expectedResultTree),
    (py "authority_manifest_id", .str i.authorityManifestId),
    (py "required_assurance_set_id", .str i.requiredAssuranceSetId),
    (py "materialisation_profile", .str i.materialisationProfile),
    (py "gate_class", .str i.gateClass), (py "operator_required", .bool i.operatorRequired),
    (py "supersedes", .ofStr? i.supersedes)])
    (py "OVC_DSAI3V_CONDITIONAL_MATERIALISATION_INTENT")

/-- `replace(intent, state=…)`. -/
def withState (i : ConditionalMaterialisationIntent) (state : IntentState) :
    ConditionalMaterialisationIntent :=
  { i with state }

end ConditionalMaterialisationIntent

open ConditionalMaterialisationIntent

/-! ## Evaluation -/

/-- What an intent is evaluated against. -/
structure EvaluationInputs where
  assuranceSet : RequiredAssuranceSet
  futures : Dict PyStr AssuranceFuture
  readiness : Dict PyStr Bool
  operatorDecisionDurable : Bool

/-- The readiness keys that are not `True`. -/
def EvaluationInputs.missing (x : EvaluationInputs) : List PyStr :=
  requiredReadinessKeys.filter fun key => x.readiness.get? key ≠ some true

/-- **`evaluate_materialisation_intent`.** -/
def evaluateMaterialisationIntent (i : ConditionalMaterialisationIntent) (x : EvaluationInputs) :
    Except PyError (ConditionalMaterialisationIntent × Option MaterialisationWakeRequest) := do
  let assuranceSetId ← x.assuranceSet.assuranceSetId P
  if i.requiredAssuranceSetId ≠ assuranceSetId.text then
    return (i.withState .superseded, none)
  if i.operatorRequired ∧ ¬ x.operatorDecisionDurable then
    return (i.withState .waitingOperator, none)
  if ¬ requiredAssuranceSatisfied x.assuranceSet x.futures then
    return (i.withState .waitingAssurance, none)
  if py "EXPECTED_PREDECESSOR_CURRENT" ∈ x.missing then
    return (i.withState .waitingPredecessor, none)
  if py "SIQ_READY" ∈ x.missing ∨ py "LEASE_READY" ∈ x.missing then
    return (i.withState .waitingLease, none)
  if x.missing ≠ [] then
    return (i.withState .waitingCurrentness, none)
  let ready := i.withState .materialisationReady
  let intentId ← ready.intentId P
  return (ready, some { intentId := intentId.text })

/-- `supersede_intent_for_assurance_set`: the intent that is retired and the one in its place. -/
def supersedeIntentForAssuranceSet (i : ConditionalMaterialisationIntent)
    (newAssuranceSetId : PyStr) :
    Except PyError (ConditionalMaterialisationIntent × ConditionalMaterialisationIntent) := do
  let intentId ← i.intentId P
  let newIntent : ConditionalMaterialisationIntent :=
    { i with
      requiredAssuranceSetId := newAssuranceSetId
      state := .prepared
      supersedes := some intentId.text
      supersededBy := none }
  let newId ← newIntent.intentId P
  return ({ i with state := .superseded, supersededBy := some newId.text }, newIntent)

/-- **The inputs admit an intent**: they are of its assurance set, the operator has decided where
that is required, every required future is assured and nothing is missing. -/
def EvaluationInputs.Admit (x : EvaluationInputs) (i : ConditionalMaterialisationIntent) : Prop :=
  (x.assuranceSet.assuranceSetId P).map HexDigest.text = .ok i.requiredAssuranceSetId ∧
    (i.operatorRequired = true → x.operatorDecisionDurable = true) ∧
    requiredAssuranceSatisfied x.assuranceSet x.futures = true ∧ x.missing = []

section

variable {P} {i j : ConditionalMaterialisationIntent} {x : EvaluationInputs}
  {wake : Option MaterialisationWakeRequest}

/-- **What an evaluation does**: inputs that admit the intent wake it, and nothing else does. -/
theorem evaluate_cases (h : evaluateMaterialisationIntent P i x = .ok (j, wake)) :
    (x.Admit P i ∧ j = i.withState .materialisationReady ∧ wake.isSome) ∨
      (¬ x.Admit P i ∧ wake = none ∧ ∃ state, state ≠ .materialisationReady ∧
        j = i.withState state) := by
  obtain ⟨assuranceSetId, hid, h⟩ := bind_ok.mp h
  have hset : (x.assuranceSet.assuranceSetId P).map HexDigest.text =
      .ok i.requiredAssuranceSetId ↔ i.requiredAssuranceSetId = assuranceSetId.text := by
    rw [hid]
    exact ⟨fun heq => (Except.ok.inj heq).symm, fun heq => congrArg Except.ok heq.symm⟩
  -- each guard that fails leaves the intent asleep in a state of its own
  have hasleep : ∀ state, state ≠ IntentState.materialisationReady → ¬ x.Admit P i →
      (Except.ok (i.withState state, none) :
        Except PyError (_ × Option MaterialisationWakeRequest)) = .ok (j, wake) →
      ¬ x.Admit P i ∧ wake = none ∧ ∃ state, state ≠ .materialisationReady ∧
        j = i.withState state := by
    intro state hst hnot heq
    cases heq
    exact ⟨hnot, rfl, state, hst, rfl⟩
  by_cases hbound : i.requiredAssuranceSetId ≠ assuranceSetId.text
  · rw [if_pos hbound] at h
    exact .inr (hasleep _ (by decide) (fun hgate => hbound (hset.mp hgate.1)) h)
  rw [if_neg hbound] at h
  by_cases hoper : i.operatorRequired = true ∧ ¬ x.operatorDecisionDurable = true
  · rw [if_pos hoper] at h
    exact .inr (hasleep _ (by decide)
      (fun hgate => hoper.2 (hgate.2.1 hoper.1)) h)
  rw [if_neg hoper] at h
  by_cases hassured : ¬ requiredAssuranceSatisfied x.assuranceSet x.futures = true
  · rw [if_pos hassured] at h
    exact .inr (hasleep _ (by decide) (fun hgate => hassured hgate.2.2.1) h)
  rw [if_neg hassured] at h
  have hmiss : ∀ key, key ∈ x.missing → ¬ x.Admit P i := by
    intro key hkey hgate
    rw [hgate.2.2.2] at hkey
    exact List.not_mem_nil hkey
  by_cases hpred : py "EXPECTED_PREDECESSOR_CURRENT" ∈ x.missing
  · rw [if_pos hpred] at h
    exact .inr (hasleep _ (by decide) (hmiss _ hpred) h)
  rw [if_neg hpred] at h
  by_cases hlease : py "SIQ_READY" ∈ x.missing ∨ py "LEASE_READY" ∈ x.missing
  · rw [if_pos hlease] at h
    exact .inr (hasleep _ (by decide) (hlease.elim (hmiss _) (hmiss _)) h)
  rw [if_neg hlease] at h
  by_cases hany : x.missing ≠ []
  · rw [if_pos hany] at h
    exact .inr (hasleep _ (by decide) (fun hgate => hany hgate.2.2.2) h)
  rw [if_neg hany] at h
  obtain ⟨intentId, -, h⟩ := bind_ok.mp h
  cases h
  refine .inl ⟨⟨hset.mpr (not_not.mp hbound), fun hreq => ?_, not_not.mp hassured,
    not_not.mp hany⟩, rfl, rfl⟩
  by_contra hdurable
  exact hoper ⟨hreq, hdurable⟩

/-- Inputs that admit an intent have every required future, in an allowed state that is neither
stale nor superseded, and every readiness key. -/
theorem EvaluationInputs.Admit.assured (h : x.Admit P i) :
    (∀ futureId ∈ x.assuranceSet.requiredFutureIds, ∃ f, x.futures.get? futureId = some f ∧
      f.state.text ∈ x.assuranceSet.allowedTerminalStates ∧ f.state ≠ .stale ∧
        f.state ≠ .superseded ∧ f.supersededBy.getD [] = []) ∧
      ∀ key ∈ requiredReadinessKeys, x.readiness.get? key = some true := by
  constructor
  · intro futureId hmem
    have hone := List.all_eq_true.mp h.2.2.1 futureId hmem
    cases hget : x.futures.get? futureId with
    | none =>
      rw [hget] at hone
      cases hone
    | some f =>
      rw [hget] at hone
      exact ⟨f, rfl, of_decide_eq_true hone⟩
  · intro key hkey
    by_contra hnot
    have hmem : key ∈ x.missing := List.mem_filter.mpr ⟨hkey, decide_eq_true hnot⟩
    rw [h.2.2.2] at hmem
    exact List.not_mem_nil hmem

end

/-! ## Runs -/

/-- **An intent is retired**: it is superseded, cancelled, consumed or blocked, or something stands
in its place. -/
def ConditionalMaterialisationIntent.Retired (i : ConditionalMaterialisationIntent) : Prop :=
  i.state ∈ [IntentState.superseded, .cancelled, .consumed, .blocked] ∨
    i.supersededBy.isSome = true

/-- A call on an intent. After `supersede` the run goes on with the intent that is retired, after
`replace` with the one in its place. -/
inductive IntentCall where
  | evaluate (x : EvaluationInputs)
  | supersede (newAssuranceSetId : PyStr)
  | replace (newAssuranceSetId : PyStr)

/-- One call, with the intent that the run goes on with and the wake request. -/
def IntentCall.apply (i : ConditionalMaterialisationIntent) :
    IntentCall → Except PyError (ConditionalMaterialisationIntent ×
      Option MaterialisationWakeRequest)
  | .evaluate x => evaluateMaterialisationIntent P i x
  | .supersede newAssuranceSetId =>
    (supersedeIntentForAssuranceSet P i newAssuranceSetId).map fun pair => (pair.1, none)
  | .replace newAssuranceSetId =>
    (supersedeIntentForAssuranceSet P i newAssuranceSetId).map fun pair => (pair.2, none)

/-- Whether the intent that the run goes on with has been retired: one that was stays retired, and
the one in its place starts afresh. -/
def IntentCall.retires (was : Prop) : IntentCall → Prop
  | .replace _ => False
  | _ => was

/-- **The retired never wake in a run**, and what wakes is assured. `was` says whether the intent
has been retired before. -/
def Asleep : Prop → ConditionalMaterialisationIntent → List IntentCall → Prop
  | _, _, [] => True
  | was, i, call :: calls =>
    ∀ j wake, call.apply P i = .ok (j, wake) →
      ((was ∨ i.Retired) → wake = none ∧ (∀ x, call = .evaluate x →
        j.state ≠ .materialisationReady)) ∧
      (∀ x, call = .evaluate x → wake.isSome →
        (∀ futureId ∈ x.assuranceSet.requiredFutureIds, ∃ f,
          x.futures.get? futureId = some f ∧
            f.state.text ∈ x.assuranceSet.allowedTerminalStates ∧ f.state ≠ .stale ∧
              f.state ≠ .superseded ∧ f.supersededBy.getD [] = []) ∧
          ∀ key ∈ requiredReadinessKeys, x.readiness.get? key = some true) ∧
      Asleep (call.retires (was ∨ i.Retired)) j calls

/-- **No retired intent is evaluated with inputs that admit it.** -/
def NeverAdmitted : Prop → ConditionalMaterialisationIntent → List IntentCall → Prop
  | _, _, [] => True
  | was, i, call :: calls =>
    ∀ j wake, call.apply P i = .ok (j, wake) →
      ((was ∨ i.Retired) → ∀ x, call = .evaluate x → ¬ x.Admit P i) ∧
      NeverAdmitted (call.retires (was ∨ i.Retired)) j calls

/-- **A run keeps its retired intents asleep** iff none of them is evaluated with inputs that
admit it. -/
theorem asleep_iff (was : Prop) (i : ConditionalMaterialisationIntent) (calls : List IntentCall) :
    Asleep P was i calls ↔ NeverAdmitted P was i calls := by
  induction calls generalizing was i with
  | nil => exact Iff.rfl
  | cons call calls ih =>
    unfold Asleep NeverAdmitted
    refine forall_congr' fun j => forall_congr' fun wake => forall_congr' fun hstep => ?_
    rw [ih, ← and_assoc]
    refine and_congr_left fun _ => ?_
    cases call with
    | evaluate x =>
      rcases evaluate_cases hstep with ⟨hgate, rfl, hwake⟩ | ⟨hnot, rfl, state, hst, rfl⟩
      · constructor
        · rintro ⟨hasleep, -⟩ hret y hy -
          rw [(hasleep hret).1] at hwake
          cases hwake
        · intro hnever
          refine ⟨fun hret => absurd hgate (hnever hret x rfl), ?_⟩
          intro y hy _
          obtain rfl := IntentCall.evaluate.inj hy
          exact hgate.assured
      · constructor
        · rintro - - y hy hgate
          obtain rfl := IntentCall.evaluate.inj hy
          exact hnot hgate
        · intro _
          exact ⟨fun _ => ⟨rfl, fun _ _ => hst⟩, fun _ _ hwake => by cases hwake⟩
    | supersede newAssuranceSetId | replace newAssuranceSetId =>
      obtain ⟨pair, -, heq⟩ := map_ok.mp hstep
      cases heq
      exact iff_of_true ⟨fun _ => ⟨rfl, fun _ hx => by cases hx⟩, fun _ hx => by cases hx⟩
        fun _ _ hx => by cases hx

/-! ### A retired intent -/

/-- A set that requires one future to pass. -/
def onePass : RequiredAssuranceSet where
  programmeId := py "P"
  packetId := py "K"
  version := py "1"
  requiredFutureIds := [py "F"]
  allowedTerminalStates := defaultTerminalStates
  sorted_requiredFutureIds := by decide +kernel
  sorted_allowedTerminalStates := by decide +kernel
  requiredFutureIds_ne_nil := List.cons_ne_nil _ _

/-- Inputs with the future passed and every key ready. -/
def allReady : EvaluationInputs where
  assuranceSet := onePass
  futures := [(py "F", .normalised ⟨⟨py "P", py "K", py "L", py "A", py "C", py "V", py "W", py "R",
    py "N"⟩, [], [], [], none, none, [], none, [], none⟩ .pass (by decide +kernel))]
  readiness := requiredReadinessKeys.map fun key => (key, true)
  operatorDecisionDurable := false

/-- An intent of that set that is superseded already. -/
def replacedIntent : ConditionalMaterialisationIntent where
  programmeId := py "P"
  packetId := py "K"
  payloadId := py "L"
  vitGenerationId := py "V"
  trainGenerationId := py "T"
  expectedPredecessorCommit := py "C"
  expectedPredecessorTree := py "B"
  expectedResultTree := py "R"
  authorityManifestId := py "A"
  requiredAssuranceSetId :=
    ((onePass.assuranceSetId .reference).toOption.map HexDigest.text).getD []
  materialisationProfile := py "M"
  gateClass := py "G"
  operatorRequired := false
  state := .superseded
  supersedes := none
  supersededBy := some (py "S")

/-- **A superseded intent wakes**: evaluated with its own assurance set satisfied, it asks for the
physical write. -/
theorem replacedIntent_wakes : replacedIntent.Retired ∧
    ¬ Asleep .reference False replacedIntent [.evaluate allReady] := by
  refine ⟨.inl (by decide), fun hasleep => ?_⟩
  have hwake : ((evaluateMaterialisationIntent .reference replacedIntent allReady).toOption.map
      fun p => p.2.isSome) = some true := by
    decide +kernel
  obtain ⟨⟨j, wake⟩, hrun, hsome⟩ := Option.map_eq_some_iff.mp hwake
  have hnone := ((hasleep j wake (eq_ok_of_toOption hrun)).1 (.inr (.inl (by decide)))).1
  rw [hnone] at hsome
  cases hsome

end OvcReplay.Skills
