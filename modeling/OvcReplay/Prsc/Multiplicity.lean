import OvcReplay.Lists.StepDown
import OvcReplay.Python.Dict
import OvcReplay.Python.Fallible
import OvcReplay.Python.Sorted
import OvcReplay.Python.Text
import OvcReplay.Python.Value

/-! # The step-down adjustment

`multiplicity.py`: the p values of a family of hypotheses that share their reference draws are
adjusted by stepping down from the greatest observed statistic. The statistics are exact
rationals. -/

namespace OvcReplay.Prsc.Multiplicity

open List Python Lists.StepDown

/-- `PRSCContractError`. -/
structure PRSCContractError where
  code : PyStr
  deriving DecidableEq

/-- The shared reference draws; the registry of the family keeps its ids distinct. -/
structure SharedReferenceDraws where
  familyId : PyVal
  hypothesisIds : List PyStr
  distinct : hypothesisIds.Nodup
  draws : List (Dict PyStr PyVal)

/-- The multiplicity method pack. -/
structure MethodPack where
  methodPackId : PyVal
  method : PyStr
  familywiseAlpha : PyVal

/-- A row of the adjustment record. -/
structure Row where
  hypothesisId : PyStr
  observedStatistic : ℚ
  rawStepdownP : ℚ
  adjustedP : ℚ
  rejectAtDeclaredAlpha : Bool
  deriving DecidableEq

/-- The adjustment record. -/
structure AdjustmentRecord where
  methodPackId : PyVal
  familyId : PyVal
  orderedHypothesisIds : List PyStr
  rows : List Row
  sharedDrawCount : Nat
  deriving DecidableEq

/-! ## The adjustment -/

/-- `set(d) == set(ids)`. -/
def SameKeys (d : Dict PyStr PyVal) (ids : List PyStr) : Prop :=
  (∀ key ∈ d.keys, key ∈ ids) ∧ ∀ id ∈ ids, id ∈ d.keys

instance (d : Dict PyStr PyVal) (ids : List PyStr) : Decidable (SameKeys d ids) :=
  inferInstanceAs (Decidable (_ ∧ _))

/-- `Decimal(str(value))`, where it is finite. -/
abbrev Reading : Type := PyVal → Option ℚ

variable (decimal : Reading)

/-- The statistic of a hypothesis. -/
def statistic (d : Dict PyStr PyVal) (id : PyStr) : ℚ :=
  (decimal ((d.get? id).getD .none)).getD 0

/-- `_decimal` of the statistics. -/
def requireStatistics (d : Dict PyStr PyVal) (ids : List PyStr) (code : String) :
    Except PRSCContractError Unit :=
  ids.forM fun id => check (decimal ((d.get? id).getD .none)).isSome ⟨py code⟩

/-- The reference maximum of a draw is at least the observed statistic. -/
def exceeds (ids remaining : List PyStr) (bound : ℚ) (draw : Dict PyStr PyVal) :
    Except PRSCContractError Bool := do
  check (SameKeys draw ids) ⟨py "PRSC_MULTIPLICITY_SHARED_DRAWS_INCOMPLETE"⟩
  requireStatistics decimal draw remaining "PRSC_MULTIPLICITY_DRAW_INVALID"
  let referenceMax := (remaining.map (statistic decimal draw)).max?.getD 0
  return decide (bound ≤ referenceMax)

/-- The raw p values, of the ordered hypotheses. -/
def rawOf (shared : SharedReferenceDraws) (observed : PyStr → ℚ) :
    (ordered remaining : List PyStr) → Except PRSCContractError (List (PyStr × ℚ))
  | [], _ => .ok []
  | id :: ordered, remaining => do
    let exceed ← shared.draws.mapM (exceeds decimal shared.hypothesisIds remaining (observed id))
    let rest ← rawOf shared observed ordered (remaining.erase id)
    return (id, ((exceed.count true : ℚ) + 1) / (shared.draws.length + 1)) :: rest

/-- The rows with the running maximum of the raw p values. -/
def rowsOf (observed : PyStr → ℚ) (alpha : ℚ) : (running : ℚ) → List (PyStr × ℚ) → List Row
  | _, [] => []
  | running, (id, raw) :: rest =>
    let running := max running raw
    let adjusted := min 1 running
    ⟨id, observed id, raw, adjusted, decide (adjusted ≤ alpha)⟩ ::
      rowsOf observed alpha running rest

/-- **`step_down_max_statistic_adjustment`.** -/
def stepDownMaxStatisticAdjustment (observedStatistics : Dict PyStr PyVal)
    (shared : SharedReferenceDraws) (pack : MethodPack) :
    Except PRSCContractError AdjustmentRecord := do
  check (pack.method = py "STEP_DOWN_MAX_STATISTIC") ⟨py "PRSC_MULTIPLICITY_METHOD_UNSUPPORTED"⟩
  check (SameKeys observedStatistics shared.hypothesisIds)
    ⟨py "PRSC_MULTIPLICITY_OBSERVED_FAMILY_MISMATCH"⟩
  requireStatistics decimal observedStatistics shared.hypothesisIds
    "PRSC_MULTIPLICITY_OBSERVED_INVALID"
  let observed := statistic decimal observedStatistics
  let ordered := sortedBy (fun id => toLex (-observed id, id)) shared.hypothesisIds
  check (shared.draws ≠ []) ⟨py "PRSC_MULTIPLICITY_SHARED_DRAWS_INCOMPLETE"⟩
  let raw ← rawOf decimal shared observed ordered ordered
  check (decimal pack.familywiseAlpha).isSome ⟨py "PRSC_MULTIPLICITY_ALPHA_INVALID"⟩
  return {
    methodPackId := pack.methodPackId
    familyId := shared.familyId
    orderedHypothesisIds := ordered
    rows := rowsOf observed ((decimal pack.familywiseAlpha).getD 0) 0 raw
    sharedDrawCount := shared.draws.length }

/-! ## The adjusted p values -/

variable {decimal} {observed : PyStr → ℚ} {shared : SharedReferenceDraws} {alpha running : ℚ}

theorem le_max?_iff {xs : List ℚ} (hne : xs ≠ []) {bound : ℚ} :
    bound ≤ xs.max?.getD 0 ↔ ∃ x ∈ xs, bound ≤ x := by
  cases hmax : xs.max? with
  | none => exact absurd (max?_eq_none_iff.mp hmax) hne
  | some m =>
    obtain ⟨hm, hle⟩ := max?_eq_some_iff.mp hmax
    exact ⟨fun h => ⟨m, hm, h⟩, fun ⟨x, hx, h⟩ => h.trans (hle x hx)⟩

theorem exceeds_ok {ids remaining : List PyStr} {bound : ℚ} {draw : Dict PyStr PyVal} {b : Bool}
    (hne : remaining ≠ []) (h : exceeds decimal ids remaining bound draw = .ok b) :
    b = decide ((bound : WithBot ℚ) ≤ peak (statistic decimal draw) remaining.toFinset) := by
  obtain ⟨-, -, h⟩ := bind_ok.mp h
  obtain ⟨-, -, h⟩ := bind_ok.mp h
  cases h
  refine decide_eq_decide.mpr ((le_max?_iff (by simpa using hne)).trans ?_)
  simp only [mem_map, exists_exists_and_eq_and, coe_le_peak, mem_toFinset]

/-- The raw p value of the first hypothesis is that of all that remain. -/
theorem count_exceeds {ids remaining : List PyStr} {bound : ℚ} {draws : List (Dict PyStr PyVal)}
    {exceed : List Bool} (hne : remaining ≠ [])
    (h : draws.mapM (exceeds decimal ids remaining bound) = .ok exceed) :
    exceed.count true = (draws.map (statistic decimal)).countP fun draw =>
      decide ((bound : WithBot ℚ) ≤ peak draw remaining.toFinset) := by
  rw [mapM_ok_iff] at h
  induction h with
  | nil => rfl
  | cons hdraw _ ih =>
    rw [map_cons, count_cons, countP_cons, ih, exceeds_ok hne hdraw]
    simp only [beq_true]

/-- **The rows have the running maximum of the p values of the hypotheses that remain.** -/
theorem rowsOf_rawOf {ordered : List PyStr} {raw : List (PyStr × ℚ)}
    (hsort : ordered.Pairwise fun i j => observed j ≤ observed i)
    (h : rawOf decimal shared observed ordered ordered = .ok raw) :
    (rowsOf observed alpha running raw).map (fun row => (row.hypothesisId, row.adjustedP)) =
      (runningMax observed (shared.draws.map (statistic decimal)) running ordered).map
        fun p => (p.1, min 1 p.2) := by
  induction ordered generalizing raw running with
  | nil =>
    cases h
    rfl
  | cons id ordered ih =>
    obtain ⟨hid, hsort⟩ := pairwise_cons.mp hsort
    obtain ⟨exceed, hexceed, h⟩ := bind_ok.mp h
    obtain ⟨rest, hrest, h⟩ := bind_ok.mp h
    rw [erase_cons_head] at hrest
    cases h
    have hpeak : peak observed (id :: ordered).toFinset = observed id := by
      refine peak_eq (mem_toFinset.mpr mem_cons_self) fun j hj => ?_
      rcases mem_cons.mp (mem_toFinset.mp hj) with rfl | hj
      · exact le_refl _
      · exact hid j hj
    rw [rowsOf, runningMax, map_cons, map_cons, ih hsort hrest, pValue, exceedances, hpeak,
      count_exceeds (cons_ne_nil _ _) hexceed, length_map]

theorem observedStatistic_of_mem {raw : List (PyStr × ℚ)} {row : Row}
    (h : row ∈ rowsOf observed alpha running raw) :
    row.observedStatistic = observed row.hypothesisId := by
  induction raw generalizing running with
  | nil => cases h
  | cons p raw ih =>
    rcases mem_cons.mp h with rfl | h
    · rfl
    · exact ih h

variable {stats stats' : Dict PyStr PyVal} {shared' : SharedReferenceDraws}
  {pack pack' : MethodPack} {record record' : AdjustmentRecord} {row row' : Row}

/-- The p values of the sets of hypotheses with a hypothesis. -/
def pValuesOf (decimal : Reading) (stats : Dict PyStr PyVal) (shared : SharedReferenceDraws)
    (id : PyStr) : Set ℚ :=
  pValuesWith (statistic decimal stats) (shared.draws.map (statistic decimal))
    shared.hypothesisIds.toFinset id

/-- What an adjustment that returns has found. -/
theorem record_of_ok (h : stepDownMaxStatisticAdjustment decimal stats shared pack = .ok record) :
    (record.rows.map Row.hypothesisId).Perm shared.hypothesisIds ∧
    ∀ row ∈ record.rows, row.observedStatistic = statistic decimal stats row.hypothesisId ∧
      IsGreatest (pValuesOf decimal stats shared row.hypothesisId) row.adjustedP := by
  unfold stepDownMaxStatisticAdjustment at h
  obtain ⟨_, -, h⟩ := bind_ok.mp h
  obtain ⟨_, -, h⟩ := bind_ok.mp h
  obtain ⟨_, -, h⟩ := bind_ok.mp h
  obtain ⟨_, -, h⟩ := bind_ok.mp h
  obtain ⟨raw, hraw, h⟩ := bind_ok.mp h
  obtain ⟨_, -, h⟩ := bind_ok.mp h
  cases h
  have hperm := sortedBy_perm (fun id => toLex (-statistic decimal stats id, id))
    shared.hypothesisIds
  have hsort := sortedBy_pairwise (fun id => toLex (-statistic decimal stats id, id))
    shared.hypothesisIds
  have hfalls := hsort.imp fun {i j} hij =>
    neg_le_neg_iff.mp ((Prod.Lex.toLex_le_toLex.mp hij).elim le_of_lt fun h => h.1.le)
  have hrows := @rowsOf_rawOf decimal _ shared ((decimal pack.familywiseAlpha).getD 0) 0 _ _
    hfalls hraw
  refine ⟨?_, fun row hrow => ⟨observedStatistic_of_mem hrow, ?_⟩⟩
  · have hids := congrArg (map Prod.fst) hrows
    rw [map_map, map_map] at hids
    exact (hids.trans (map_fst_runningMax _ _)) ▸ hperm
  · have hmem := mem_map_of_mem (f := fun row => (row.hypothesisId, row.adjustedP)) hrow
    rw [hrows] at hmem
    obtain ⟨⟨id, q⟩, hq, heq⟩ := mem_map.mp hmem
    obtain ⟨hid, hadjusted⟩ := Prod.mk.inj heq
    obtain ⟨p, hp, rfl⟩ := greatest_of_mem_runningMax hfalls hq
    obtain ⟨S, -, -, rfl⟩ := hp.1
    rw [max_eq_right pValue_pos.le, min_eq_right pValue_le_one] at hadjusted
    rw [← hadjusted, ← hid, pValuesOf, ← toFinset_eq_of_perm _ _ hperm]
    exact hp

/-- The statistics are integers. -/
def integers : Reading
  | .int z => some z
  | _ => none

/-- Two hypotheses, and one draw that exceeds the second of them. -/
def pair : SharedReferenceDraws where
  familyId := .none
  hypothesisIds := [py "a", py "b"]
  distinct := by decide
  draws := [[(py "a", .int 0), (py "b", .int 2)]]

end OvcReplay.Prsc.Multiplicity
