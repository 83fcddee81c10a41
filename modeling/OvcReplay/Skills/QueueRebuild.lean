import OvcReplay.Skills.SingleLease

/-! # Rebuilding a queue from its records

`as_dict` writes the candidates of a queue down, and `build_queue_state` admits them again from what
`json` reads back. Admission takes the reason codes of a candidate for blockers, so a queue comes back
as it was only where no candidate was given a code that its state does not come from. -/

namespace OvcReplay.Skills

open List Python

namespace IntegrationQueue

variable (S : Surroundings)

/-! ## Records -/

/-- The text of a key in JSON. -/
def Surroundings.jsonKey : PyKey → Except PyError PyStr
  | .str s => .ok s
  | .none => .ok (py "null")
  | .bool b => .ok (if b then py "true" else py "false")
  | .int z => .ok (intText z)
  | .other text => S.otherKey text

mutual

/-- `json.loads(json.dumps(v))`. -/
def throughJson : PyVal → Except PyError PyVal
  | .list xs => (throughJsonList xs).map .list
  | .tuple xs => (throughJsonList xs).map .list
  | .dict items => (throughJsonItems items).map fun read => .dict (Dict.ofItems read)
  | .decimal _ => .error .typeError
  | .set _ => .error .typeError
  | .other _ => .error .typeError
  | v => .ok v

/-- The elements of a sequence. -/
def throughJsonList : List PyVal → Except PyError (List PyVal)
  | [] => .ok []
  | x :: xs => do
    let y ← throughJson x
    let ys ← throughJsonList xs
    return y :: ys

/-- The items of a dictionary. -/
def throughJsonItems : List (PyKey × PyVal) → Except PyError (List (PyKey × PyVal))
  | [] => .ok []
  | (k, v) :: items => do
    let key ← S.jsonKey k
    let w ← throughJson v
    let read ← throughJsonItems items
    return (.str key, w) :: read

end

/-- A record whose keys are texts, through JSON. -/
def recordThroughJson (r : Record) : Except PyError Record :=
  r.mapM fun p => (throughJson S p.2).map fun v => (p.1, v)

/-- `QueueCandidate.as_dict`. -/
def QueueCandidate.asDict (c : QueueCandidate) : Record :=
  [(py "packet_id", .str c.packetId),
    (py "plan_id", .str c.planId),
    (py "candidate_head_sha", .str c.candidateHeadSha),
    (py "baseline_main_sha", .str c.baselineMainSha),
    (py "ready_sequence", .int c.readySequence),
    (py "queue_state", .str c.queueState),
    (py "implementation_complete", .bool c.implementationComplete),
    (py "qa_status", .str c.qaStatus),
    (py "authority_delta", .str c.authorityDelta),
    (py "gate_class", .str c.gateClass),
    (py "operator_authority_satisfied", .bool c.operatorAuthoritySatisfied),
    (py "merge_authority_resolved", .bool c.mergeAuthorityResolved),
    (py "preliminary_assurance_pass", .bool c.preliminaryAssurancePass),
    (py "rollback_defined", .bool c.rollbackDefined),
    (py "dependency_footprint_pinned", .bool c.dependencyFootprintPinned),
    (py "blocking_reviews", .ofStrs c.blockingReviews),
    (py "blocking_issues", .ofStrs c.blockingIssues),
    (py "blocking_warnings", .ofStrs c.blockingWarnings),
    (py "reason_codes", .ofStrs c.reasonCodes),
    (py "vit_pip_id", .str c.vitPipId),
    (py "vit_generation_id", .str c.vitGenerationId),
    (py "vit_placement_id", .str c.vitPlacementId),
    (py "vit_lineage_ref", .str c.vitLineageRef),
    (py "vit_lineage_record", (c.vitLineageRecord.map .dict).getD .none)]

/-- The queue that is built from the candidate records of a queue. -/
def rebuild (s : QueueState) : Except PyError QueueState := do
  let records ← s.candidates.mapM fun row => recordThroughJson S row.asDict
  buildQueueState S (records.map .mapping) s.queueId s.generation

/-- **The rebuilt queue agrees**: it has the same packets in the same states, and the same head. -/
def Rebuilds (s : QueueState) : Prop :=
  ∃ s', rebuild S s = .ok s' ∧
    s'.candidates.map (fun row => (row.packetId, row.queueState)) =
      s.candidates.map (fun row => (row.packetId, row.queueState)) ∧
    (queueHead s').map QueueCandidate.packetId = (queueHead s).map QueueCandidate.packetId

/-! ## Candidates that are read back as they are -/

/-- The fields of a candidate are in the form that `from_mapping` gives them, and JSON keeps its
lineage record. -/
structure Plain (c : QueueCandidate) : Prop where
  packetId : strip c.packetId = c.packetId
  planId : strip c.planId = c.planId
  candidateHeadSha : strip c.candidateHeadSha = c.candidateHeadSha
  baselineMainSha : strip c.baselineMainSha = c.baselineMainSha
  qaStatus : S.upper c.qaStatus = c.qaStatus
  authorityDelta : S.upper c.authorityDelta = c.authorityDelta
  gateClass : S.upper c.gateClass = c.gateClass
  blockingReviews : sortedBy id c.blockingReviews = c.blockingReviews
  blockingIssues : sortedBy id c.blockingIssues = c.blockingIssues
  blockingWarnings : sortedBy id c.blockingWarnings = c.blockingWarnings
  vitPipId : strip c.vitPipId = c.vitPipId
  vitGenerationId : strip c.vitGenerationId = c.vitGenerationId
  vitPlacementId : strip c.vitPlacementId = c.vitPlacementId
  vitLineageRef : strip c.vitLineageRef = c.vitLineageRef
  lineage : ∀ record, c.vitLineageRecord = some record →
    throughJson S (.dict record) = .ok (.dict record)

variable {S}

variable {c : QueueCandidate}

theorem Plain.withState (h : Plain S c) (state : PyStr) (codes : List PyStr) :
    Plain S (c.withState state codes) :=
  ⟨h.packetId, h.planId, h.candidateHeadSha, h.baselineMainSha, h.qaStatus, h.authorityDelta,
    h.gateClass, h.blockingReviews, h.blockingIssues, h.blockingWarnings, h.vitPipId,
    h.vitGenerationId, h.vitPlacementId, h.vitLineageRef, h.lineage⟩

theorem Plain.sequenced (h : Plain S c) (rows : List QueueCandidate) :
    Plain S (sequenced rows c) := by
  rw [IntegrationQueue.sequenced]
  split_ifs
  · exact ⟨h.packetId, h.planId, h.candidateHeadSha, h.baselineMainSha, h.qaStatus,
      h.authorityDelta, h.gateClass, h.blockingReviews, h.blockingIssues, h.blockingWarnings,
      h.vitPipId, h.vitGenerationId, h.vitPlacementId, h.vitLineageRef, h.lineage⟩
  · exact h

variable {xs : List PyStr} {state code packetId : PyStr}

theorem sortedBy_sortedBy : sortedBy id (sortedBy id xs) = sortedBy id xs :=
  sortedBy_eq_self (sortedBy_pairwise id xs)

theorem sortedTexts_idem {value : Record} {key : String} {texts : List PyStr}
    (h : sortedTexts S value key = .ok texts) : sortedBy id texts = texts := by
  simp only [sortedTexts, bind_ok, pure_ok] at h
  obtain ⟨xs, -, rfl⟩ := h
  exact sortedBy_sortedBy

/-- **What is read from a mapping is plain** where JSON keeps its lineage record. -/
theorem plain_of_fromMapping {value : Record} (h : QueueCandidate.fromMapping S value = .ok c)
    (hlin : ∀ record, c.vitLineageRecord = some record →
      throughJson S (.dict record) = .ok (.dict record)) :
    Plain S c := by
  simp only [QueueCandidate.fromMapping, bind_ok, pure_ok] at h
  obtain ⟨_, -, _, -, _, -, _, -, _, -, _, -, _, -, _, -, _, -, _, hreviews, _, hissues, _,
    hwarnings, _, -, _, -, _, -, _, -, _, -, rfl⟩ := h
  exact ⟨strip_strip _, strip_strip _, strip_strip _, strip_strip _, S.upper_upper _,
    S.upper_upper _, S.upper_upper _, sortedTexts_idem hreviews, sortedTexts_idem hissues,
    sortedTexts_idem hwarnings, strip_strip _, strip_strip _, strip_strip _, strip_strip _,
    hlin⟩

/-! ## Reading back -/

theorem throughJsonList_strs (xs : List PyStr) :
    throughJsonList S (xs.map .str) = .ok (xs.map .str) := by
  induction xs with
  | nil => rfl
  | cons x xs ih =>
    rw [map_cons, throughJsonList, ih]
    rfl

theorem throughJson_ofStrs (xs : List PyStr) : throughJson S (.ofStrs xs) = .ok (.ofStrs xs) := by
  rw [PyVal.ofStrs, throughJson, throughJsonList_strs]
  rfl

theorem strs_ofStrs (xs : List PyStr) : S.strs (.ofStrs xs) = .ok xs := by
  rw [PyVal.ofStrs, Surroundings.strs]
  induction xs with
  | nil => rfl
  | cons x xs ih =>
    rw [map_cons, mapM_cons, ih]
    rfl

theorem recordThroughJson_eq_self {r : Record} (h : ∀ p ∈ r, throughJson S p.2 = .ok p.2) :
    recordThroughJson S r = .ok r := by
  induction r with
  | nil => rfl
  | cons p r ih =>
    have hrest := ih fun q hq => h q (mem_cons_of_mem _ hq)
    rw [recordThroughJson] at hrest ⊢
    rw [mapM_cons, h p (by simp), hrest]
    rfl

theorem throughJson_lineage (h : Plain S c) :
    throughJson S ((c.vitLineageRecord.map .dict).getD .none) =
      .ok ((c.vitLineageRecord.map .dict).getD .none) := by
  cases hrec : c.vitLineageRecord with
  | none => rw [Option.map_none, Option.getD_none, throughJson] <;> nofun
  | some record => exact h.lineage record hrec

/-- **JSON keeps the record of a plain candidate.** -/
theorem recordThroughJson_asDict (h : Plain S c) : recordThroughJson S c.asDict = .ok c.asDict := by
  refine recordThroughJson_eq_self ?_
  simp [QueueCandidate.asDict, throughJson, throughJson_ofStrs, throughJson_lineage h]

theorem mapping?_getD (record : Option Mapping) :
    mapping? (some ((record.map .dict).getD .none)) = record := by
  cases record <;> rfl

/-- **A plain candidate is read back from its record.** -/
theorem fromMapping_asDict (h : Plain S c) (hst : S.upper c.queueState = c.queueState)
    (hcodes : sortedBy id c.reasonCodes = c.reasonCodes) :
    QueueCandidate.fromMapping S c.asDict = .ok c := by
  have hlin := mapping?_getD c.vitLineageRecord
  simp [QueueCandidate.fromMapping, QueueCandidate.asDict, text, flag, sortedTexts,
    Surroundings.str, Surroundings.int, strs_ofStrs, PyVal.truthy, bind, Except.bind, pure,
    Except.pure, hlin, hst, hcodes, h.packetId, h.planId, h.candidateHeadSha,
    h.baselineMainSha, h.qaStatus, h.authorityDelta, h.gateClass, h.blockingReviews,
    h.blockingIssues, h.blockingWarnings, h.vitPipId, h.vitGenerationId, h.vitPlacementId,
    h.vitLineageRef]

/-! ## Admission again -/

theorem sortedSet_append_of_mem {x : PyStr} :
    sortedSet (sortedSet (xs ++ [x]) ++ [x]) = sortedSet (xs ++ [x]) := by
  refine sortedSet_congr fun y => ?_
  simp only [mem_append, mem_sortedSet, mem_singleton]
  tauto

theorem not_isLineageCode_operator : isLineageCode (py "OPERATOR_AUTHORITY_REQUIRED") = false := by
  decide

theorem any_congr {ys : List PyStr} (p : PyStr → Bool) (h : ∀ x, x ∈ xs ↔ x ∈ ys) :
    xs.any p = ys.any p := by
  rw [Bool.eq_iff_iff, any_eq_true, any_eq_true]
  exact exists_congr fun x => and_congr_left fun _ => h x

theorem eq_nil_congr {ys : List PyStr} (h : ∀ x, x ∈ xs ↔ x ∈ ys) : xs = [] ↔ ys = [] := by
  rw [eq_nil_iff_forall_not_mem, eq_nil_iff_forall_not_mem]
  exact forall_congr' fun x => not_congr (h x)

/-- The codes of a decision contain the blockers. -/
theorem mem_decideState_of_mem {blockers : List PyStr} {x : PyStr} (h : x ∈ blockers) :
    x ∈ (decideState c blockers).2 := by
  rw [decideState]
  split_ifs
  · exact h
  · exact mem_append_left _ h
  · exact h
  · exact h

/-- **A decision confirms itself**: taken again with the codes that it gave, it is the same. -/
theorem decideState_again {blockers again : List PyStr}
    (h : ∀ x, x ∈ again ↔ x ∈ (decideState c blockers).2) :
    (decideState c again).1 = (decideState c blockers).1 ∧
      ∀ x, x ∈ (decideState c again).2 ↔ x ∈ (decideState c blockers).2 := by
  by_cases hlin : blockers.any isLineageCode = true
  · have hdecided : decideState c blockers = (wait, blockers) := by rw [decideState, if_pos hlin]
    rw [hdecided] at h ⊢
    have hagain : decideState c again = (wait, again) := by
      rw [decideState, any_congr isLineageCode h, if_pos hlin]
    rw [hagain]
    exact ⟨rfl, h⟩
  · by_cases hoper : awaitsOperator c = true
    · have hdecided : decideState c blockers =
          (operatorRequired, blockers ++ [py "OPERATOR_AUTHORITY_REQUIRED"]) := by
        rw [decideState, if_neg hlin, if_pos hoper]
      rw [hdecided] at h ⊢
      have hany : ¬ again.any isLineageCode = true := by
        rw [any_congr isLineageCode h, any_append, Bool.or_eq_true, not_or]
        refine ⟨hlin, ?_⟩
        simp [not_isLineageCode_operator]
      have hagain : decideState c again =
          (operatorRequired, again ++ [py "OPERATOR_AUTHORITY_REQUIRED"]) := by
        rw [decideState, if_neg hany, if_pos hoper]
      rw [hagain]
      refine ⟨rfl, fun x => ?_⟩
      simp only [mem_append, mem_singleton, h]
      tauto
    · have hdecided : (decideState c blockers).2 = blockers := by
        rw [decideState, if_neg hlin, if_neg hoper]
        split_ifs <;> rfl
      rw [hdecided] at h ⊢
      have hany : ¬ again.any isLineageCode = true := by
        rwa [any_congr isLineageCode h]
      have hsame : (decideState c again).1 = (decideState c blockers).1 := by
        rw [decideState, decideState, if_neg hany, if_neg hlin, if_neg hoper,
          if_neg hoper]
        by_cases hnil : blockers = []
        · rw [if_neg (not_not.mpr ((eq_nil_congr h).mpr hnil)), if_neg (not_not.mpr hnil)]
        · rw [if_pos (mt (eq_nil_congr h).mp hnil), if_pos hnil]
      refine ⟨hsame, fun x => ?_⟩
      rw [decideState, if_neg hany, if_neg hoper]
      split_ifs <;> exact h x

/-- What decides about a candidate that is neither quarantined nor blocked. -/
theorem evaluate_of_open (hquar : c.queueState ≠ quarantined)
    (hblocked : c.queueState ≠ blocked) :
    evaluateReadyAdmission S c = (lineageBlockers S c).map fun lineage =>
      c.withState (decideState c (c.reasonCodes ++ fieldBlockers c ++ lineage)).1
        (decideState c (c.reasonCodes ++ fieldBlockers c ++ lineage)).2 := by
  rw [evaluateReadyAdmission, if_neg hquar, if_neg hblocked]
  cases lineageBlockers S c <;> rfl

/-- No decision quarantines or blocks. -/
theorem decideState_open (c : QueueCandidate) (blockers : List PyStr) :
    (decideState c blockers).1 ≠ quarantined ∧ (decideState c blockers).1 ≠ blocked := by
  rcases decideState_fst c blockers with h | h | h <;>
    · rw [h]
      decide

/-- **Admission is idempotent.** -/
theorem evaluate_evaluate {c admitted : QueueCandidate}
    (h : evaluateReadyAdmission S c = .ok admitted) :
    evaluateReadyAdmission S admitted = .ok admitted := by
  by_cases hquar : c.queueState = quarantined
  · rw [evaluateReadyAdmission, if_pos hquar] at h
    cases h
    rw [evaluateReadyAdmission, if_pos (queueState_withState ..)]
    exact congrArg (fun codes => Except.ok ({ c with
      queueState := quarantined, reasonCodes := codes })) sortedSet_append_of_mem
  · by_cases hblocked : c.queueState = blocked
    · rw [evaluateReadyAdmission, if_neg hquar, if_pos hblocked] at h
      cases h
      rw [evaluateReadyAdmission, if_neg (by rw [queueState_withState]; decide),
        if_pos (queueState_withState ..)]
      exact congrArg (fun codes => Except.ok ({ c with
        queueState := blocked, reasonCodes := codes })) sortedSet_append_of_mem
    · rw [evaluate_of_open hquar hblocked, map_ok] at h
      obtain ⟨lineage, hlin, rfl⟩ := h
      set blockers := c.reasonCodes ++ fieldBlockers c ++ lineage with hblockers
      have hopen := decideState_open c blockers
      rw [evaluate_of_open (by rw [queueState_withState]; exact hopen.1)
        (by rw [queueState_withState]; exact hopen.2)]
      have hcodes : ∀ x, x ∈ sortedSet (decideState c blockers).2 ++ fieldBlockers c ++ lineage ↔
          x ∈ (decideState c blockers).2 := by
        intro x
        simp only [mem_append, mem_sortedSet]
        constructor
        · rintro ((hx | hx) | hx)
          · exact hx
          · exact mem_decideState_of_mem (by simp [hblockers, hx])
          · exact mem_decideState_of_mem (by simp [hblockers, hx])
        · exact fun hx => .inl (.inl hx)
      have hagain := decideState_again hcodes
      have hsame : lineageBlockers S (c.withState (decideState c blockers).1
          (decideState c blockers).2) = .ok lineage := hlin
      rw [hsame]
      refine congrArg Except.ok ?_
      -- the fields that a decision reads are those of the candidate itself
      show QueueCandidate.withState c
          (decideState c (sortedSet (decideState c blockers).2 ++ fieldBlockers c ++ lineage)).1
          (decideState c (sortedSet (decideState c blockers).2 ++ fieldBlockers c ++ lineage)).2 = _
      rw [hagain.1, QueueCandidate.withState, sortedSet_congr hagain.2]
      rfl

/-- **When a candidate that nothing blocks any more is `READY`**: exactly when it has no reason
codes left from before. -/
theorem ready_of_cleared_iff (hquar : c.queueState ≠ quarantined)
    (hblocked : c.queueState ≠ blocked) (hflds : fieldBlockers c = [])
    (hlin : lineageBlockers S c = .ok []) (hoper : awaitsOperator c = false) :
    (∃ admitted, evaluateReadyAdmission S c = .ok admitted ∧ admitted.queueState = ready) ↔
      c.reasonCodes = [] := by
  have heval : evaluateReadyAdmission S c =
      .ok (c.withState (decideState c c.reasonCodes).1 (decideState c c.reasonCodes).2) := by
    rw [evaluate_of_open hquar hblocked, hlin, hflds, Except.map, append_nil,
      append_nil]
  rw [heval]
  constructor
  · rintro ⟨admitted, hok, hready⟩
    cases hok
    rw [queueState_withState, decideState, hoper] at hready
    by_contra hcodes
    rw [if_neg Bool.false_ne_true, if_pos hcodes] at hready
    have hwait : wait = ready := by
      split_ifs at hready <;> exact hready
    exact wait_ne_ready hwait
  · intro hcodes
    refine ⟨_, rfl, ?_⟩
    rw [queueState_withState, decideState, hoper, hcodes]
    rfl

/-! ## Rebuilding a queue -/

/-- Admission leaves the row in its state. -/
def Settled (S : Surroundings) (row : QueueCandidate) : Prop :=
  ∃ admitted, evaluateReadyAdmission S row = .ok admitted ∧ admitted.queueState = row.queueState

theorem settled_of_evaluate {c admitted : QueueCandidate}
    (h : evaluateReadyAdmission S c = .ok admitted) : Settled S admitted :=
  ⟨admitted, evaluate_evaluate h, rfl⟩

/-- A row that is read back as it is. -/
structure Readable (S : Surroundings) (row : QueueCandidate) : Prop where
  plain : Plain S row
  queueState : S.upper row.queueState = row.queueState
  reasonCodes : sortedBy id row.reasonCodes = row.reasonCodes

theorem records_eq {rows : List QueueCandidate} (h : ∀ row ∈ rows, Readable S row) :
    rows.mapM (fun row => recordThroughJson S row.asDict) =
      .ok (rows.map QueueCandidate.asDict) := by
  induction rows with
  | nil => rfl
  | cons row rows ih =>
    rw [mapM_cons, recordThroughJson_asDict (h row (by simp)).plain,
      ih fun r hr => h r (mem_cons_of_mem _ hr)]
    rfl

variable {row : QueueCandidate}

theorem evaluate_asDict (h : Readable S row) :
    Submission.evaluate S (.mapping row.asDict) = evaluateReadyAdmission S row := by
  rw [Submission.evaluate, Submission.read, fromMapping_asDict h.plain h.queueState h.reasonCodes]
  rfl

variable {s : QueueState}

/-- What a queue of readable rows is rebuilt to. -/
theorem rebuild_eq (h : ∀ row ∈ s.candidates, Readable S row) :
    rebuild S s = (s.candidates.mapM (evaluateReadyAdmission S)).map fun admitted =>
      ⟨s.queueId, sortedBy QueueCandidate.key admitted, none, none, s.generation⟩ := by
  have hmap : ∀ rows : List QueueCandidate, (∀ row ∈ rows, Readable S row) →
      ((rows.map QueueCandidate.asDict).map Submission.mapping).mapM (Submission.evaluate S) =
        rows.mapM (evaluateReadyAdmission S) := by
    intro rows hrows
    induction rows with
    | nil => rfl
    | cons row rows ih =>
      rw [map_cons, map_cons, mapM_cons, mapM_cons,
        evaluate_asDict (hrows row (by simp)),
        ih fun r hr => hrows r (mem_cons_of_mem _ hr)]
  rw [rebuild, records_eq h]
  show buildQueueState S _ s.queueId s.generation = _
  rw [buildQueueState, hmap s.candidates h]
  cases s.candidates.mapM (evaluateReadyAdmission S) <;> rfl

theorem key_of_evaluate {c admitted : QueueCandidate}
    (h : evaluateReadyAdmission S c = .ok admitted) : admitted.key = c.key := by
  obtain ⟨state, codes, rfl, -⟩ := evaluateReadyAdmission_ok h
  rfl

variable {rows admitted : List QueueCandidate}

/-- Rows admitted one by one from sorted rows are sorted. -/
theorem sortedBy_admitted (hsort : rows.Pairwise fun a b => a.key ≤ b.key)
    (h : Forall₂ (fun row a => evaluateReadyAdmission S row = .ok a) rows admitted) :
    sortedBy QueueCandidate.key admitted = admitted := by
  refine sortedBy_eq_self (pairwise_of_forall₂ ?_ h.flip hsort)
  intro a b row row' ha hb hle
  rwa [key_of_evaluate ha, key_of_evaluate hb]

theorem head_of_states
    (h : admitted.map (fun row => (row.packetId, row.queueState)) = rows.map fun row =>
      (row.packetId, row.queueState)) :
    (admitted.find? fun row => row.queueState = ready).map QueueCandidate.packetId =
      (rows.find? fun row => row.queueState = ready).map QueueCandidate.packetId := by
  induction rows generalizing admitted with
  | nil =>
    rw [map_nil, map_eq_nil_iff] at h
    rw [h]
  | cons row rows ih =>
    cases admitted with
    | nil => cases h
    | cons a admitted =>
      rw [map_cons, map_cons, List.cons.injEq, Prod.mk.injEq] at h
      obtain ⟨⟨hid, hst⟩, hrest⟩ := h
      by_cases hready : row.queueState = ready
      · rw [find?_cons_of_pos (by simp [hst, hready]),
          find?_cons_of_pos (by simp [hready]), Option.map_some,
          Option.map_some, hid]
      · rw [find?_cons_of_neg (by simp [hst, hready]),
          find?_cons_of_neg (by simp [hready])]
        exact ih hrest

/-- Rows admitted one by one have the states of the rows iff each row keeps its own. -/
theorem states_iff_settled
    (h : Forall₂ (fun row a => evaluateReadyAdmission S row = .ok a) rows admitted) :
    (admitted.map (fun row => (row.packetId, row.queueState)) =
      rows.map fun row => (row.packetId, row.queueState)) ↔ ∀ row ∈ rows, Settled S row := by
  induction h with
  | nil => simp
  | @cons row a rows admitted hrow _ ih =>
    have hkeeps : Settled S row ↔ a.queueState = row.queueState := by
      constructor
      · rintro ⟨b, hb, hst⟩
        rwa [Except.ok.inj (hrow.symm.trans hb)]
      · exact fun hst => ⟨a, hrow, hst⟩
    rw [map_cons, map_cons, List.cons.injEq, Prod.mk.injEq, ih, forall_mem_cons,
      hkeeps, and_iff_right (packetId_of_evaluate hrow)]

/-- **A sorted queue of readable rows is rebuilt as it was iff admission leaves every row in its
state.** -/
theorem rebuilds_iff (hsort : s.candidates.Pairwise fun a b => a.key ≤ b.key)
    (h : ∀ row ∈ s.candidates, Readable S row) :
    Rebuilds S s ↔ ∀ row ∈ s.candidates, Settled S row := by
  rw [Rebuilds, rebuild_eq h]
  constructor
  · rintro ⟨s', hs', hstates, -⟩
    obtain ⟨admitted, hadm, rfl⟩ := map_ok.mp hs'
    have hrows := mapM_ok_iff.mp hadm
    rw [sortedBy_admitted hsort hrows] at hstates
    exact (states_iff_settled hrows).mp hstates
  · intro hsettled
    have hrets : Returns (s.candidates.mapM (evaluateReadyAdmission S)) :=
      returns_mapM.mpr fun row hrow => (hsettled row hrow).imp fun _ ha => ha.1
    obtain ⟨admitted, hadm⟩ := hrets
    have hrows := mapM_ok_iff.mp hadm
    have hstates := (states_iff_settled hrows).mpr hsettled
    refine ⟨_, map_ok.mpr ⟨admitted, hadm, rfl⟩, ?_, ?_⟩
    · rw [sortedBy_admitted hsort hrows]
      exact hstates
    · rw [queueHead, queueHead, sortedBy_admitted hsort hrows]
      exact head_of_states hstates

/-! ## Runs -/

/-- A row that a rebuilt queue has in its state, and that needs no operator when it is `READY`. -/
structure Fit (S : Surroundings) (row : QueueCandidate) : Prop where
  readable : Readable S row
  settled : Settled S row
  operator : row.queueState = ready → awaitsOperator row = false

theorem capitals_of_evaluate {c admitted : QueueCandidate}
    (h : evaluateReadyAdmission S c = .ok admitted) : admitted.queueState.all isCapital = true := by
  by_cases hquar : c.queueState = quarantined
  · rw [evaluateReadyAdmission, if_pos hquar] at h
    rw [← Except.ok.inj h, queueState_withState]
    decide
  · by_cases hblocked : c.queueState = blocked
    · rw [evaluateReadyAdmission, if_neg hquar, if_pos hblocked] at h
      rw [← Except.ok.inj h, queueState_withState]
      decide
    · rw [evaluate_of_open hquar hblocked, map_ok] at h
      obtain ⟨lineage, -, rfl⟩ := h
      rw [queueState_withState]
      rcases decideState_fst c (c.reasonCodes ++ fieldBlockers c ++ lineage) with hs | hs | hs <;>
        · rw [hs]
          decide

/-- A candidate that waits for an operator is not `READY`. -/
theorem operator_of_evaluate {c admitted : QueueCandidate}
    (h : evaluateReadyAdmission S c = .ok admitted) (hready : admitted.queueState = ready) :
    awaitsOperator admitted = false := by
  rw [evaluateReadyAdmission] at h
  split_ifs at h with hquar hblocked
  · rw [← Except.ok.inj h] at hready
    exact (quarantined_ne_ready hready).elim
  · rw [← Except.ok.inj h] at hready
    exact (blocked_ne_ready hready).elim
  · simp only [bind_ok, pure_ok] at h
    obtain ⟨lineage, -, rfl⟩ := h
    show awaitsOperator c = false
    by_contra hawaits
    rw [queueState_withState, decideState] at hready
    rw [Bool.not_eq_false] at hawaits
    by_cases hany : (c.reasonCodes ++ fieldBlockers c ++ lineage).any isLineageCode = true
    · rw [if_pos hany] at hready
      exact wait_ne_ready hready
    · rw [if_neg hany, if_pos hawaits] at hready
      exact operatorRequired_ne_ready hready

/-- **What is admitted from a plain candidate is fit.** -/
theorem fit_of_evaluate {c admitted : QueueCandidate} (hplain : Plain S c)
    (h : evaluateReadyAdmission S c = .ok admitted) : Fit S admitted := by
  refine ⟨⟨?_, S.upper_of_capitals _ (capitals_of_evaluate h), ?_⟩, settled_of_evaluate h,
    operator_of_evaluate h⟩
  · obtain ⟨state, codes, rfl, -⟩ := evaluateReadyAdmission_ok h
    exact hplain.withState state codes
  · obtain ⟨state, codes, rfl, -⟩ := evaluateReadyAdmission_ok h
    exact sortedBy_sortedBy

/-- The call gives the holder of the lease a code, or a state, that admission does not take back. -/
def Recodes (S : Surroundings) : Call → Prop
  | .elapsed _ seconds active => seconds > leaseReleaseRequeueSeconds ∧ !active
  | .terminate _ disposition _ =>
    S.upper disposition = requeue ∨ S.upper disposition = operatorRequired
  | .markIntegrated .. => True
  | _ => False

theorem Readable.withState (h : Readable S row) (codes : List PyStr)
    (hst : state.all isCapital = true) : Readable S (row.withState state codes) :=
  ⟨h.plain.withState state codes, S.upper_of_capitals _ hst, sortedBy_sortedBy⟩

theorem readable_settling (h : ∀ row ∈ s.candidates, Readable S row)
    (hst : state.all isCapital = true) :
    ∀ row ∈ (s.settling packetId state code).candidates, Readable S row := by
  intro row' hrow'
  obtain ⟨row, hrow, rfl⟩ := mem_map.mp hrow'
  rw [QueueCandidate.settled]
  split_ifs
  · exact (h row hrow).withState _ hst
  · exact h row hrow

/-- A row that is blocked or quarantined stays so. -/
theorem settled_of_parked (h : row.queueState = blocked ∨ row.queueState = quarantined) :
    Settled S row := by
  rcases h with h | h
  · refine ⟨row.withState blocked (row.reasonCodes ++ [py "CANDIDATE_BLOCKED"]), ?_, h.symm⟩
    rw [evaluateReadyAdmission, if_neg (by rw [h]; decide), if_pos h]
  · refine ⟨row.withState quarantined (row.reasonCodes ++ [py "CANDIDATE_QUARANTINED"]), ?_,
      h.symm⟩
    rw [evaluateReadyAdmission, if_pos h]

/-- **A call that recodes nothing keeps the rows fit.** -/
theorem fit_moves {s s' : QueueState} {c : Call} (h : ∀ row ∈ s.candidates, Fit S row)
    (hmoves : Moves S s c s') (hrecod : ¬ Recodes S c)
    (hplain : ∀ value candidate, c = .enqueue value → value.read S = .ok candidate →
      Plain S candidate) :
    ∀ row ∈ s'.candidates, Fit S row := by
  cases hmoves with
  | enqueued value candidate admitted hread hadm hnew =>
    intro row hrow
    rcases mem_append.mp (mem_sortedBy.mp hrow) with hold | hlast
    · exact h row hold
    · rw [mem_singleton.mp hlast]
      exact fit_of_evaluate ((hplain value candidate rfl hread).sequenced _) hadm
  | acquired packetId at' now acquiredAt hhead hfree => exact h
  | released packetId hheld => exact h
  | kept packetId seconds active hheld htime => exact h
  | timedOut packetId seconds active hheld htime => exact absurd htime hrecod
  | terminated packetId disposition reasonCode state hheld htgt hst =>
    rw [Recodes, not_or] at hrecod
    rw [if_neg hrecod.1] at hst
    have hparked : state = blocked ∨ state = quarantined := by
      subst hst
      simpa [hrecod.1, hrecod.2] using htgt
    intro row' hrow'
    obtain ⟨row, hrow, rfl⟩ := mem_map.mp hrow'
    by_cases hid : row.packetId = packetId
    · rw [QueueCandidate.settled, if_pos hid]
      refine ⟨(h row hrow).readable.withState _ ?_, settled_of_parked hparked, ?_⟩
      · rcases hparked with rfl | rfl <;> decide
      · intro hready
        rw [queueState_withState] at hready
        rcases hparked with rfl | rfl <;> exact absurd hready (by decide)
    · rw [settled_of_ne hid]
      exact h row hrow
  | integrated packetId mergeSha hheld => exact absurd trivial hrecod

/-- A row with a code, or one that needs no operator, is not admitted as what it is. -/
theorem not_settled_of_code
    (hst : state = ready ∨ state = operatorRequired ∧ awaitsOperator row = false) :
    ¬ Settled S (row.withState state (row.reasonCodes ++ [code])) := by
  rintro ⟨admitted, hadm, hsame⟩
  have hopen : state ≠ quarantined ∧ state ≠ blocked := by
    rcases hst with rfl | ⟨rfl, -⟩ <;> decide
  rw [evaluate_of_open hopen.1 hopen.2, map_ok] at hadm
  obtain ⟨lineage, -, rfl⟩ := hadm
  have hcode : code ∈ sortedSet (row.reasonCodes ++ [code]) := by simp
  rw [queueState_withState, queueState_withState] at hsame
  have hnil : (row.withState state (row.reasonCodes ++ [code])).reasonCodes ++
      fieldBlockers (row.withState state (row.reasonCodes ++ [code])) ++ lineage ≠ [] := by
    intro hnil
    rw [append_assoc, append_eq_nil_iff] at hnil
    have hcodes : sortedSet (row.reasonCodes ++ [code]) = [] := hnil.1
    rw [hcodes] at hcode
    cases hcode
  rw [decideState] at hsame
  split_ifs at hsame with hlin hoper
  · rcases hst with rfl | ⟨rfl, -⟩
    · exact wait_ne_ready hsame
    · exact wait_ne_operatorRequired hsame
  · rcases hst with rfl | ⟨rfl, hawaits⟩
    · exact operatorRequired_ne_ready hsame
    · exact Bool.eq_false_iff.mp hawaits hoper
  · rcases hst with rfl | ⟨rfl, -⟩
    · exact wait_ne_ready hsame
    · exact wait_ne_operatorRequired hsame

/-- The former holder, put back with a code or to an operator that it does not need, spoils the
rebuilding. -/
theorem not_rebuilds_settling (hsound : Sound s) (h : ∀ row ∈ s.candidates, Fit S row)
    (hheld : s.leaseHolderPacketId = some packetId)
    (hst : state = ready ∨ state = operatorRequired) :
    ¬ Rebuilds S (s.settling packetId state code) := by
  have hcapitals : state.all isCapital = true := by
    rcases hst with rfl | rfl <;> decide
  rw [rebuilds_iff (hsound.settling packetId state code).sorted
    (readable_settling (fun row hrow => (h row hrow).readable) hcapitals)]
  intro hsettled
  obtain ⟨row, hrow, hid, hready⟩ := hsound.holder packetId hheld
  have hlast := hsettled _ (mem_map_of_mem hrow)
  rw [QueueCandidate.settled, if_pos hid] at hlast
  refine not_settled_of_code ?_ hlast
  exact hst.imp_right fun hoper => ⟨hoper, (h row hrow).operator hready⟩

/-- An integrated row is rebuilt in another state. -/
theorem not_rebuilds_integrated (hsound : Sound s) (h : ∀ row ∈ s.candidates, Fit S row)
    (hheld : s.leaseHolderPacketId = some packetId) :
    ¬ Rebuilds S (s.settling packetId integrated code) := by
  rw [rebuilds_iff (hsound.settling packetId integrated code).sorted
    (readable_settling (fun row hrow => (h row hrow).readable) (by decide))]
  intro hsettled
  obtain ⟨row, hrow, hid, -⟩ := hsound.holder packetId hheld
  obtain ⟨admitted, hadm, hsame⟩ := hsettled _ (mem_map_of_mem hrow)
  rw [queueState_settled hid] at hsame
  exact ne_integrated_of_evaluate hadm hsame

/-- **A call that recodes leaves a queue that is not rebuilt as it is.** -/
theorem not_rebuilds_of_recodes {s s' : QueueState} {c : Call} (hsound : Sound s)
    (h : ∀ row ∈ s.candidates, Fit S row) (hmoves : Moves S s c s') (hrecod : Recodes S c) :
    ¬ Rebuilds S s' := by
  cases hmoves with
  | enqueued value candidate admitted hread hadm hnew => exact hrecod.elim
  | acquired packetId at' now acquiredAt hhead hfree => exact hrecod.elim
  | released packetId hheld => exact hrecod.elim
  | kept packetId seconds active hheld htime => exact absurd hrecod htime
  | timedOut packetId seconds active hheld htime =>
    exact not_rebuilds_settling hsound h hheld (.inl rfl)
  | terminated packetId disposition reasonCode state hheld htgt hst =>
    refine not_rebuilds_settling hsound h hheld ?_
    rcases hrecod with hrequeue | hoper
    · exact .inl (hst.trans (if_pos hrequeue))
    · right
      rw [hst, if_neg (by rw [hoper]; decide), hoper]
  | integrated packetId mergeSha hheld => exact not_rebuilds_integrated hsound h hheld

/-- A sound queue of fit rows is rebuilt as it is. -/
theorem rebuilds_of_fit (hsound : Sound s) (h : ∀ row ∈ s.candidates, Fit S row) : Rebuilds S s :=
  (rebuilds_iff hsound.sorted fun row hrow => (h row hrow).readable).mpr
    fun row hrow => (h row hrow).settled

/-- What is built from plain candidates is fit. -/
theorem fit_of_build {values : List Submission} {candidates : List QueueCandidate} {queueId : PyStr}
    {generation : Int} (hread : values.mapM (Submission.read S) = .ok candidates)
    (hplain : ∀ c ∈ candidates, Plain S c)
    (hbuild : buildQueueState S values queueId generation = .ok s) :
    ∀ row ∈ s.candidates, Fit S row := by
  simp only [buildQueueState, bind_ok, pure_ok] at hbuild
  obtain ⟨admitted, hadm, rfl⟩ := hbuild
  obtain ⟨read, hread', hevaluate⟩ := mapM_mapM_ok.mpr hadm
  cases hread.symm.trans hread'
  intro row hrow
  obtain ⟨c, hc, hok⟩ := mem_of_mapM_right hevaluate (mem_sortedBy.mp hrow)
  exact fit_of_evaluate (hplain c hc) hok

/-- No accepted call of the run recodes. -/
def Recodeless (S : Surroundings) (s : QueueState) (calls : List Call) : Prop :=
  ∀ pre c, pre ++ [c] <+: calls → Recodes S c → ¬ Returns (call S (after S s pre) c)

/-- **The rows of a run that recodes nothing are fit.** -/
theorem fit_after {calls : List Call} (h : ∀ row ∈ s.candidates, Fit S row)
    (hplain : ∀ value c, .enqueue value ∈ calls → value.read S = .ok c → Plain S c)
    (hrecodl : Recodeless S s calls) : ∀ row ∈ (after S s calls).candidates, Fit S row := by
  refine Logs.run_inv_of_steps (P := fun t : QueueState => ∀ row ∈ t.candidates, Fit S row) h ?_
  intro pre c s' hinit hok hfit
  refine fit_moves hfit (moves_of_call hok) (fun hrecod => ?_) ?_
  · exact hrecodl pre c hinit hrecod ⟨s', hok⟩
  · rintro value candidate rfl hread
    exact hplain value candidate (hinit.subset (by simp)) hread

theorem Reference.plain_candidate : Plain Reference.surroundings Reference.candidate := by
  refine ⟨?_, ?_, ?_, ?_, ?_, ?_, ?_, ?_, ?_, ?_, ?_, ?_, ?_, ?_, ?_⟩
  on_goal 15 =>
    rintro record ⟨⟩
    decide +kernel
  all_goals decide +kernel

/-- The calls of a lease that is held. -/
def Reference.held : List Call := [.acquire (py "A") baseSensitive (some (py "T0")) (py "T1")]

/-- The calls of a lease that runs out. -/
def Reference.timedOut : List Call := Reference.held ++ [.elapsed (py "A") 901 false]

end IntegrationQueue

end OvcReplay.Skills
