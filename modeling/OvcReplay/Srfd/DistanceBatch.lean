import OvcReplay.Srfd.DistanceSymmetry
import OvcReplay.Srfd.PairIndex
import OvcReplay.Json.Stable

/-! # Batched distances

`distance_optimized.py`: the records are prepared once, and the distances of all pairs are taken of
what was prepared. The batch is the reference where every record can be prepared and the domains,
which it reads as texts, are told apart as the reference tells them apart. -/

namespace OvcReplay.Srfd.Distance

open List Python Json PairIndex

/-- What the batched functions raise. -/
inductive BatchError where
  | optimized (reasonCode detail : PyStr)
  | pairIndex (e : PairIndexError)
  | distance (e : DistanceError)
  | python (e : PyError)
  deriving DecidableEq, Repr

/-! ## Records -/

/-- **A record of a batch**: whether it has the key of its domain is read as well. -/
structure BatchRecord where
  record : Representation
  /-- `comparability_domain_id` is a key of the record. -/
  domainGiven : Bool
  given : record.comparabilityDomainId ≠ none → domainGiven = true

/-- `str(record.get("representation_id", ""))`. -/
def BatchRecord.id (r : BatchRecord) : PyStr := r.record.representationId

/-- `str(record.get("comparability_domain_id", ""))`. -/
def BatchRecord.domain (r : BatchRecord) : PyStr :=
  r.record.comparabilityDomainId.getD (if r.domainGiven then py "None" else [])

/-- `canonical_ids`. -/
def canonicalIds (values : List PyStr) : Except BatchError (List PyStr) := do
  let ids := sortedBy id values
  check (ids.all fun value => !value.isEmpty)
    (.pairIndex ⟨py "G8R_PAIR_INVALID_ID", py "empty object identifier"⟩)
  check ids.Nodup (.pairIndex ⟨py "G8R_PAIR_DUPLICATE_ID", py "duplicate object identifier"⟩)
  return ids

/-- `by_id`. -/
def byId (records : List BatchRecord) : Dict PyStr BatchRecord :=
  Dict.ofItems (records.map fun r => (r.id, r))

/-- `by_id[item]`. -/
def recordOf (records : List BatchRecord) (item : PyStr) : Except BatchError BatchRecord :=
  match Dict.get? (byId records) item with
  | some r => .ok r
  | none => .error (.python .keyError)

/-- `ordered`: the records in the order of their ids. -/
def ordered (records : List BatchRecord) : Except BatchError (List BatchRecord) := do
  let ids ← canonicalIds (records.map BatchRecord.id)
  ids.mapM (recordOf records)

/-- The method is one of those that are prepared. -/
def isPrepared (spec : DistanceSpec) : Bool :=
  decide (spec.method = .l1Typed) || decide (spec.method = .l2Typed)

/-- `PreparedRecord`. -/
structure PreparedRecord where
  representationId : PyStr
  comparabilityDomainId : PyStr
  orderingSemantics : Option PyStr
  missingness : PyVal
  values : List Rat

variable (P : Platform) (spec : DistanceSpec)

/-- `_combined`. -/
def combined (record : Representation) : Except DistanceError Record :=
  (record.namespaces.flatMap itemsOf).foldlM setDefault []

/-- One turn of the loop of `prepare_records`. -/
def prepareRecord (r : BatchRecord) : Except BatchError PreparedRecord := do
  let values ← (combined r.record).mapError .distance
  check (¬ (r.record.missingness.truthy ∨
      spec.fields.any fun field => decide (valueAt values field = .none)))
    (.optimized (py "COMP_REQUIRED_DIMENSION_MISSING") r.id)
  let numbers ← (spec.fields.mapM fun field => decimal P (valueAt values field) field).mapError
    fun _ => .optimized (py "DIST_NONFINITE_RESULT") r.id
  return ⟨r.id, r.domain, r.record.orderingSemantics, r.record.missingness, numbers⟩

variable (records : List BatchRecord)

/-- `prepare_records`. -/
def prepareRecords : Except BatchError (List PreparedRecord) := do
  check (isPrepared spec) (.optimized (py "G8R_OPT_REFERENCE_FALLBACK_REQUIRED") spec.method.text)
  let ids ← canonicalIds (Dict.keys (byId records))
  ids.mapM fun item => recordOf records item >>= prepareRecord P spec

/-! ## Distances of prepared records -/

variable (left right : PreparedRecord)

/-- The comparison of two prepared records. -/
def preparedReason : Option PyStr :=
  if left.comparabilityDomainId ≠ right.comparabilityDomainId then
    some (py "COMP_DOMAIN_INCOMPATIBLE")
  else if left.orderingSemantics ≠ right.orderingSemantics then
    some (py "COMP_ORDERING_INCOMPATIBLE")
  else if left.missingness.truthy ∨ right.missingness.truthy then
    some (py "COMP_REQUIRED_DIMENSION_MISSING")
  else none

/-- `left.comparability_domain_id or right.comparability_domain_id`. -/
def preparedDomain : PyStr :=
  if left.comparabilityDomainId ≠ [] then left.comparabilityDomainId
  else right.comparabilityDomainId

/-- The weight of a field, before it is looked at. -/
def preparedWeight (field : PyStr) : Except BatchError PyDecimal :=
  match P.decimalOf ((Dict.get? (spec.weights.getD []) field).getD (py "1")) with
  | some d => .ok d
  | none => .error (.python .arithmeticError)

/-- `weight <= 0`, which no NaN can be asked. -/
def notPositive (d : PyDecimal) : Except BatchError Bool :=
  match d.finite? with
  | some x => .ok (decide (x ≤ 0))
  | none =>
    match d with
    | .infinite negative => .ok negative
    | _ => .error (.python .arithmeticError)

/-- The numbers of the weights; of an infinite one the mean is no number. -/
def positiveWeights (ds : List PyDecimal) : Except BatchError (List Rat) := do
  let refused ← ds.anyM notPositive
  check (refused = false)
    (.optimized (py "DIST_INVALID_PARAMETER") (py "weights must be positive"))
  ds.mapM fun d =>
    match d.finite? with
    | some x => .ok x
    | none => .error (.python .arithmeticError)

/-- The distance of prepared records under weights. -/
def weightedDistance (ws xs ys : List Rat) : Value :=
  let deltas := zipWith (fun x y => |x - y|) xs ys
  if spec.method = .l1Typed then
    .rational ((zipWith (fun w d => w * d) ws deltas).sum / ws.sum)
  else .root ((zipWith (fun w d => w * d * d) ws deltas).sum / ws.sum)

/-- `_prepared_distance`. -/
def preparedDistance : Except BatchError Document := do
  let reason := preparedReason left right
  let pairId ← (deterministicPairId P left.representationId right.representationId spec
    (preparedDomain left right)).mapError .distance
  if reason.isSome then
    return ⟨pairId, spec.distanceSpecId, py "NOT_COMPARABLE", reason, none, false, none,
      py "FIXTURE_ONLY"⟩
  else do
    let ds ← spec.fields.mapM (preparedWeight P spec)
    let ws ← positiveWeights ds
    let rounded ← (formatted spec.precisionPlaces
      (weightedDistance spec ws left.values right.values)).mapError .distance
    return ⟨pairId, spec.distanceSpecId, py "COMPUTED", none, some rounded, true, some spec.exact,
      py "FIXTURE_ONLY"⟩

/-! ## Batches -/

/-- A function of two elements of a list, at a pair of indices. -/
def atPair {α β : Type} (xs : List α) (f : α → α → Except BatchError β) (p : Nat × Nat) :
    Except BatchError β :=
  match xs[p.1]?, xs[p.2]? with
  | some x, some y => f x y
  | _, _ => .error (.python .indexError)

/-- `compute_distance` of two records of a batch. -/
def referenceDistance (left right : BatchRecord) : Except BatchError Document :=
  (computeDistance P left.record right.record spec).mapError .distance

/-- A function of every pair of a range, in the order of their indices. -/
def overPairs {α : Type} (xs : List α) (f : α → α → Except BatchError Document)
    (range : Option PairRange) : Except BatchError (List Document) := do
  let ijs ← (iterPairs xs.length range).mapError .pairIndex
  ijs.mapM (atPair xs f)

/-- `batch_compute_prepared`. -/
def batchComputePrepared (range : Option PairRange) : Except BatchError (List Document) :=
  if isPrepared spec then do
    let prepared ← prepareRecords P spec records
    overPairs prepared (preparedDistance P spec) range
  else do
    let rows ← ordered records
    overPairs rows (referenceDistance P spec) range

/-- The reference: `compute_distance` of all pairs. -/
def referenceDistances : Except BatchError (List Document) := do
  let rows ← ordered records
  overPairs rows (referenceDistance P spec) none

/-- **`exact_equivalence`.** -/
def exactEquivalence : Except BatchError Bool := do
  let reference ← referenceDistances P spec records
  let candidate ← batchComputePrepared P spec records none
  return decide (reference = candidate)

/-- **`deterministic_parallel_tiles`**; the workers return the tiles in their order. -/
def deterministicParallelTiles (tile workers : Nat) :
    Except BatchError (List Document) := do
  check (1 ≤ workers) (.optimized (py "G8R_OPT_INVALID_WORKERS") (natText workers))
  let ranges ← (pairRanges records.length tile).mapError .pairIndex
  let pieces ← ranges.mapM fun range =>
    (batchComputePrepared P spec records (some range)).map fun docs => (range.start, docs)
  return (sortedBy Prod.fst pieces).flatMap Prod.snd

/-! ## One pair -/

section

variable (P : Platform) (spec : DistanceSpec)

/-- **A record can be prepared**: nothing of it is missing, and its fields are numbers. -/
def Prepares (r : BatchRecord) : Prop :=
  r.record.missingness.truthy = false ∧ ∃ values, staticValues r.record spec.fields = .ok values ∧
    ∀ field ∈ spec.fields, Returns (decimal P (valueAt values field) field)

/-- The domain of which the batch takes the id of a pair. -/
def batchDomain (left right : BatchRecord) : PyStr :=
  if left.domain ≠ [] then left.domain else right.domain

/-- **The domains of two records are told apart as texts** as they are told apart, and the pair is
of one domain. -/
def DomainsAlike (left right : BatchRecord) : Prop :=
  (left.domain = right.domain ↔
      left.record.comparabilityDomainId = right.record.comparabilityDomainId) ∧
    batchDomain left right = domainText left.record right.record

variable {P spec}

/-- What is prepared of a record. -/
theorem prepareRecord_ok {r : BatchRecord} {p : PreparedRecord}
    (h : prepareRecord P spec r = .ok p) : ∃ values numbers,
      r.record.missingness.truthy = false ∧ staticValues r.record spec.fields = .ok values ∧
      (spec.fields.mapM fun field => decimal P (valueAt values field) field) = .ok numbers ∧
      p = ⟨r.id, r.domain, r.record.orderingSemantics, r.record.missingness, numbers⟩ := by
  obtain ⟨values, hvals, h⟩ := bind_ok.mp h
  obtain ⟨_, hcheck, h⟩ := bind_ok.mp h
  obtain ⟨numbers, hnumbers, h⟩ := bind_ok.mp h
  cases h
  rw [check_ok, not_or] at hcheck
  refine ⟨values, numbers, by simpa using hcheck.1, ?_, mapError_ok.mp hnumbers, rfl⟩
  refine bind_intro (mapError_ok.mp hvals) (bind_ok.mpr ⟨(), ?_, rfl⟩)
  rw [check_ok, filter_eq_nil_iff]
  intro field hfield hnone
  exact hcheck.2 (any_eq_true.mpr ⟨field, hfield, hnone⟩)

theorem returns_prepareRecord {r : BatchRecord} :
    Returns (prepareRecord P spec r) ↔ Prepares P spec r := by
  constructor
  · rintro ⟨p, h⟩
    obtain ⟨values, numbers, hmiss, hvals, hnumbers, -⟩ := prepareRecord_ok h
    exact ⟨hmiss, values, hvals, returns_mapM.mp ⟨numbers, hnumbers⟩⟩
  · rintro ⟨hmiss, values, hvals, hnumbers⟩
    obtain ⟨numbers, hnumbers⟩ := returns_mapM.mpr hnumbers
    obtain ⟨values', hcombined, h⟩ := bind_ok.mp hvals
    obtain ⟨_, hcheck, h⟩ := bind_ok.mp h
    obtain rfl := Except.ok.inj h
    refine ⟨_, bind_intro (mapError_ok.mpr hcombined) (bind_ok.mpr ⟨(), ?_,
      bind_ok.mpr ⟨numbers, mapError_ok.mpr hnumbers, rfl⟩⟩)⟩
    rw [check_ok, filter_eq_nil_iff] at hcheck
    rw [check_ok, not_or]
    refine ⟨by simp [hmiss], fun hany => ?_⟩
    obtain ⟨field, hfield, hnone⟩ := any_eq_true.mp hany
    exact hcheck field hfield hnone

/-- A weight that the reference reads is read by the batch. -/
theorem preparedWeight_ok {field : PyStr} {w : Rat} (h : weight P spec field = .ok w) :
    ∃ d, preparedWeight P spec field = .ok d ∧ d.finite? = some w ∧ 0 < w := by
  obtain ⟨x, hx, h⟩ := bind_ok.mp h
  obtain ⟨_, hpos, h⟩ := bind_ok.mp h
  cases h
  unfold decimal at hx
  rw [PyVal.strOf_str] at hx
  dsimp only at hx
  unfold preparedWeight
  cases hd : P.decimalOf ((Dict.get? (spec.weights.getD []) field).getD (py "1")) with
  | none =>
    rw [hd] at hx
    cases hx
  | some d =>
    rw [hd] at hx
    dsimp only at hx
    refine ⟨d, rfl, ?_, check_ok.mp hpos⟩
    cases hfinite : d.finite? with
    | none =>
      rw [hfinite] at hx
      cases hx
    | some y =>
      rw [hfinite] at hx
      exact congrArg some (Except.ok.inj hx)

/-- Positive numbers are the weights that they are read as. -/
theorem positiveWeights_ok {ds : List PyDecimal} {ws : List Rat}
    (h : Forall₂ (fun d w => d.finite? = some w ∧ 0 < w) ds ws) :
    positiveWeights ds = .ok ws := by
  have hany : ds.anyM notPositive = .ok false := by
    induction h with
    | nil => rfl
    | @cons d w _ _ hhead _ ih =>
      have hfalse : notPositive d = .ok false := by
        unfold notPositive
        rw [hhead.1]
        exact congrArg Except.ok (decide_eq_false (not_le_of_gt hhead.2))
      rw [anyM_cons, hfalse]
      exact ih
  refine bind_intro hany (bind_ok.mpr ⟨(), check_ok.mpr rfl, ?_⟩)
  rw [mapM_ok_iff]
  refine h.imp fun d w hw => ?_
  rw [hw.1]

/-- **The sums of the batch are those of the reference.** -/
theorem zip_of_weighted {lvals rvals : Record} {fields : List PyStr} {ws : List (Rat × Rat)}
    {xs ys : List Rat} (hws : fields.mapM (weighted P spec lvals rvals) = .ok ws)
    (hxs : (fields.mapM fun field => decimal P (valueAt lvals field) field) = .ok xs)
    (hys : (fields.mapM fun field => decimal P (valueAt rvals field) field) = .ok ys) :
    ∃ ds, fields.mapM (preparedWeight P spec) = .ok ds ∧
      Forall₂ (fun d w => d.finite? = some w ∧ 0 < w) ds (ws.map Prod.fst) ∧
      ws.map Prod.snd = zipWith (fun x y => |x - y|) xs ys := by
  induction fields generalizing ws xs ys with
  | nil =>
    cases hws
    cases hxs
    exact ⟨[], rfl, .nil, rfl⟩
  | cons field fields ih =>
    obtain ⟨w, ws', hw, hws', rfl⟩ := mapM_cons_ok.mp hws
    obtain ⟨x, xs', hx, hxs', rfl⟩ := mapM_cons_ok.mp hxs
    obtain ⟨y, ys', hy, hys', rfl⟩ := mapM_cons_ok.mp hys
    obtain ⟨ds, hmapM, hpos, hsnd⟩ := ih hws' hxs' hys'
    obtain ⟨v, hv, hw⟩ := bind_ok.mp hw
    obtain ⟨delta, hdelta, hw⟩ := bind_ok.mp hw
    cases hw
    obtain ⟨x', hx', hdelta⟩ := bind_ok.mp hdelta
    obtain ⟨y', hy', hdelta⟩ := bind_ok.mp hdelta
    cases hx'.symm.trans hx
    cases hy'.symm.trans hy
    cases hdelta
    obtain ⟨d, hweight, hvpos⟩ := preparedWeight_ok hv
    refine ⟨d :: ds, mapM_cons_ok.mpr ⟨d, _, hweight, hmapM, rfl⟩, .cons hvpos hpos, ?_⟩
    rw [map_cons, hsnd, zipWith_cons_cons]

/-- The distance of prepared records is the distance of the records. -/
theorem weightedDistance_eq {left right : Representation} (hprep : isPrepared spec = true)
    {lvals rvals : Record} {xs ys : List Rat} {value : Value}
    (hleft : staticValues left spec.fields = .ok lvals)
    (hright : staticValues right spec.fields = .ok rvals)
    (hxs : (spec.fields.mapM fun field => decimal P (valueAt lvals field) field) = .ok xs)
    (hys : (spec.fields.mapM fun field => decimal P (valueAt rvals field) field) = .ok ys)
    (h : distanceValue P left right spec = .ok value) :
    ∃ ds ws, spec.fields.mapM (preparedWeight P spec) = .ok ds ∧
      positiveWeights ds = .ok ws ∧ weightedDistance spec ws xs ys = value := by
  have hzip : ∀ (ws : List (Rat × Rat)) (f : Rat → Rat → Rat),
      zipWith f (ws.map Prod.fst) (ws.map Prod.snd) = ws.map fun p => f p.1 p.2 := by
    intro ws f
    rw [zipWith_map, zipWith_self]
  unfold distanceValue at h
  cases hmethod : spec.method with
  | l1Typed =>
    rw [if_neg (by rw [hmethod]; decide), hleft, hright] at h
    simp only [bind, Except.bind] at h
    rw [staticDistance, hmethod] at h
    obtain ⟨ws, hws, h⟩ := bind_ok.mp h
    cases h
    obtain ⟨ds, hmapM, hpos, hsnd⟩ := zip_of_weighted hws hxs hys
    refine ⟨ds, _, hmapM, positiveWeights_ok hpos, ?_⟩
    rw [weightedDistance, if_pos hmethod, ← hsnd, hzip]
  | l2Typed =>
    rw [if_neg (by rw [hmethod]; decide), hleft, hright] at h
    simp only [bind, Except.bind] at h
    rw [staticDistance, hmethod] at h
    obtain ⟨ws, hws, h⟩ := bind_ok.mp h
    cases h
    obtain ⟨ds, hmapM, hpos, hsnd⟩ := zip_of_weighted hws hxs hys
    refine ⟨ds, _, hmapM, positiveWeights_ok hpos, ?_⟩
    rw [weightedDistance, if_neg (by rw [hmethod]; decide), ← hsnd, hzip]
  | gowerMixed | dtwSequence => simp [isPrepared, hmethod] at hprep

/-- Where nothing is missing, the reasons agree iff the domains are told apart alike. -/
theorem preparedReason_eq_iff {left right : BatchRecord} {xs ys : List Rat}
    (hleft : left.record.missingness.truthy = false)
    (hright : right.record.missingness.truthy = false) :
    preparedReason
        ⟨left.id, left.domain, left.record.orderingSemantics, left.record.missingness, xs⟩
        ⟨right.id, right.domain, right.record.orderingSemantics, right.record.missingness, ys⟩ =
        incompatibility left.record right.record ↔
      (left.domain = right.domain ↔
        left.record.comparabilityDomainId = right.record.comparabilityDomainId) := by
  unfold preparedReason incompatibility
  have hne : py "COMP_DOMAIN_INCOMPATIBLE" ≠ py "COMP_ORDERING_INCOMPATIBLE" := by decide +kernel
  by_cases hd : left.domain = right.domain <;>
    by_cases hr : left.record.comparabilityDomainId = right.record.comparabilityDomainId <;>
      by_cases ho : left.record.orderingSemantics = right.record.orderingSemantics <;>
        simp [hd, hr, ho, hleft, hright, hne, hne.symm]

variable {doc : Document}

/-- What `compute_distance` returned. -/
theorem exists_of_computeDistance {left right : Representation}
    (h : computeDistance P left right spec = .ok doc) :
    ∃ pairId, deterministicPairId P left.representationId right.representationId spec
        (domainText left right) = .ok pairId ∧
      ((∃ reason, incompatibility left right = some reason ∧
          doc = ⟨pairId, spec.distanceSpecId, py "NOT_COMPARABLE", some reason, none, false, none,
            py "FIXTURE_ONLY"⟩) ∨
        incompatibility left right = none ∧ ∃ value rounded,
          distanceValue P left right spec = .ok value ∧
          formatted spec.precisionPlaces value = .ok rounded ∧
          doc = ⟨pairId, spec.distanceSpecId, py "COMPUTED", none, some rounded, true,
            some spec.exact, py "FIXTURE_ONLY"⟩) := by
  unfold computeDistance at h
  dsimp only at h
  obtain ⟨_, -, h⟩ := bind_ok.mp h
  obtain ⟨pairId, hid, h⟩ := bind_ok.mp h
  refine ⟨pairId, hid, ?_⟩
  cases hreason : incompatibility left right with
  | some reason =>
    rw [hreason] at h
    exact .inl ⟨reason, rfl, (Except.ok.inj h).symm⟩
  | none =>
    rw [hreason] at h
    obtain ⟨value, hval, h⟩ := bind_ok.mp h
    obtain ⟨rounded, hrounded, h⟩ := bind_ok.mp h
    exact .inr ⟨rfl, value, rounded, hval, hrounded, (Except.ok.inj h).symm⟩

/-- A pair with one id under two domains, whose texts do not collide, is of one domain. -/
theorem domain_of_pairId {a b domain domain' pairId : PyStr} (hne : a ≠ b)
    (hfree : ∀ hash, spec.logicalHash P = .ok hash → P.sha256 (textOf (pairTexts a b hash domain)) =
        P.sha256 (textOf (pairTexts a b hash domain')) →
      textOf (pairTexts a b hash domain) = textOf (pairTexts a b hash domain'))
    (h : deterministicPairId P a b spec domain = .ok pairId)
    (h' : deterministicPairId P a b spec domain' = .ok pairId) : domain = domain' := by
  rw [deterministicPairId_eq hne] at h h'
  obtain ⟨hash, hhash, h⟩ := bind_ok.mp h
  obtain ⟨hash', hhash', h'⟩ := bind_ok.mp h'
  cases hhash.symm.trans hhash'
  split_ifs at h h'
  have heq := (Except.ok.inj h).trans (Except.ok.inj h').symm
  exact domain_of_textOf (hfree hash (mapError_ok.mp hhash)
    (HexDigest.ext (append_cancel_left heq)))

/-- The reason and the pair of a document of prepared records. -/
theorem reason_of_preparedDistance {p q : PreparedRecord}
    (h : preparedDistance P spec p q = .ok doc) :
    preparedReason p q = doc.reasonCode ∧
      deterministicPairId P p.representationId q.representationId spec (preparedDomain p q) =
        .ok doc.pairId := by
  unfold preparedDistance at h
  dsimp only at h
  obtain ⟨pairId, hid, h⟩ := bind_ok.mp h
  have hid := mapError_ok.mp hid
  cases hreason : preparedReason p q with
  | some reason =>
    rw [hreason] at h
    cases h
    exact ⟨rfl, hid⟩
  | none =>
    rw [hreason] at h
    obtain ⟨ds, -, h⟩ := bind_ok.mp h
    obtain ⟨ws, -, h⟩ := bind_ok.mp h
    obtain ⟨rounded, -, h⟩ := bind_ok.mp h
    cases h
    exact ⟨rfl, hid⟩

/-- **The texts of the two ids of a pair do not collide**: that of the batch and that of the
reference. -/
def PairTextsApart (P : Platform) (spec : DistanceSpec) (left right : BatchRecord) : Prop :=
  ∀ hash, spec.logicalHash P = .ok hash →
    P.sha256 (textOf (pairTexts left.id right.id hash (batchDomain left right))) =
      P.sha256 (textOf (pairTexts left.id right.id hash (domainText left.record right.record))) →
    textOf (pairTexts left.id right.id hash (batchDomain left right)) =
      textOf (pairTexts left.id right.id hash (domainText left.record right.record))

/-- **A prepared pair has the document of the reference** iff its domains are told apart alike. -/
theorem preparedDistance_eq_iff (hprep : isPrepared spec = true) {left right : BatchRecord}
    {p q : PreparedRecord} (hleft : prepareRecord P spec left = .ok p)
    (hright : prepareRecord P spec right = .ok q) (hne : left.id ≠ right.id)
    (hfree : PairTextsApart P spec left right)
    (hdoc : computeDistance P left.record right.record spec = .ok doc) :
    preparedDistance P spec p q = .ok doc ↔ DomainsAlike left right := by
  obtain ⟨lvals, xs, hlmissing, hlvals, hxs, rfl⟩ := prepareRecord_ok hleft
  obtain ⟨rvals, ys, hrmissing, hrvals, hys, rfl⟩ := prepareRecord_ok hright
  obtain ⟨pairId, hid, hcases⟩ := exists_of_computeDistance hdoc
  have hreason := @preparedReason_eq_iff left right xs ys hlmissing hrmissing
  have hincompat : incompatibility left.record right.record = doc.reasonCode ∧
      doc.pairId = pairId := by
    rcases hcases with ⟨reason, hsome, rfl⟩ | ⟨hnone, value, rounded, -, -, rfl⟩
    · exact ⟨hsome, rfl⟩
    · exact ⟨hnone, rfl⟩
  constructor
  · intro h
    obtain ⟨hprep, hprepId⟩ := reason_of_preparedDistance h
    rw [hincompat.2] at hprepId
    exact ⟨hreason.mp (hprep.trans hincompat.1.symm),
      domain_of_pairId hne hfree hprepId hid⟩
  · rintro ⟨hdomains, hdomain⟩
    refine bind_ok.mpr ⟨pairId, mapError_ok.mpr ?_, ?_⟩
    · rw [← hdomain] at hid
      exact hid
    · rw [hreason.mpr hdomains]
      rcases hcases with ⟨reason, hsome, rfl⟩ | ⟨hnone, value, rounded, hval, hrounded, rfl⟩
      · rw [hsome]
        rfl
      · rw [hnone]
        obtain ⟨ds, ws, hds, hws, hweighted⟩ :=
          weightedDistance_eq hprep hlvals hrvals hxs hys hval
        refine bind_ok.mpr ⟨ds, hds, bind_ok.mpr ⟨ws, hws,
          bind_ok.mpr ⟨rounded, mapError_ok.mpr ?_, rfl⟩⟩⟩
        rw [hweighted]
        exact hrounded

end

/-! ## Records in the order of their ids -/

/-- The ids of a batch are distinct and not empty. -/
structure HasIds (records : List BatchRecord) : Prop where
  nodup : (records.map BatchRecord.id).Nodup
  nonempty : ∀ r ∈ records, r.id ≠ []

/-- The records in the order of their ids. -/
def rowsOf (records : List BatchRecord) : List BatchRecord := sortedBy BatchRecord.id records

section

variable {records : List BatchRecord}

theorem mem_rowsOf {r : BatchRecord} : r ∈ rowsOf records ↔ r ∈ records := mem_sortedBy

theorem canonicalIds_eq (h : HasIds records) :
    canonicalIds (records.map BatchRecord.id) = .ok ((rowsOf records).map BatchRecord.id) := by
  have hsort : sortedBy id (records.map BatchRecord.id) = (rowsOf records).map BatchRecord.id :=
    sortedBy_map BatchRecord.id id records
  have hnonempty : ((rowsOf records).map BatchRecord.id).all fun value => !value.isEmpty := by
    rw [all_eq_true]
    intro value hval
    obtain ⟨r, hr, rfl⟩ := mem_map.mp hval
    simpa using h.nonempty r (mem_rowsOf.mp hr)
  have hnd : ((rowsOf records).map BatchRecord.id).Nodup := by
    rw [← hsort]
    exact (sortedBy_perm id _).nodup_iff.mpr h.nodup
  unfold canonicalIds
  rw [hsort]
  exact bind_ok.mpr ⟨(), check_ok.mpr hnonempty,
    bind_ok.mpr ⟨(), check_ok.mpr hnd, rfl⟩⟩

theorem recordOf_eq (h : HasIds records) {r : BatchRecord} (hr : r ∈ records) :
    recordOf records r.id = .ok r := by
  have hkeys : ((records.map fun r => (r.id, r)).map Prod.fst).Nodup := by
    rw [map_map]
    exact h.nodup
  unfold recordOf byId
  rw [Dict.get?_ofItems_of_mem hkeys (mem_map_of_mem hr)]

theorem ordered_eq (h : HasIds records) : ordered records = .ok (rowsOf records) := by
  refine bind_intro (canonicalIds_eq h) ?_
  rw [mapM_map, mapM_ok_iff, forall₂_same]
  intro r hr
  exact recordOf_eq h (mem_rowsOf.mp hr)

theorem prepareRecords_eq (P : Platform) {spec : DistanceSpec} (hprep : isPrepared spec = true)
    (h : HasIds records) :
    prepareRecords P spec records = (rowsOf records).mapM (prepareRecord P spec) := by
  have hkeys : Dict.keys (byId records) = records.map BatchRecord.id := by
    unfold byId
    rw [Dict.ofItems_eq_self (by rw [map_map]; exact h.nodup)]
    exact map_map
  unfold prepareRecords
  rw [check, if_pos hprep, hkeys, canonicalIds_eq h]
  show ((rowsOf records).map BatchRecord.id).mapM _ = _
  rw [mapM_map]
  refine mapM_congr fun r hr => ?_
  show recordOf records r.id >>= prepareRecord P spec = _
  rw [recordOf_eq h (mem_rowsOf.mp hr)]
  rfl

/-- The rows have growing ids. -/
theorem pairwise_rowsOf (h : HasIds records) :
    (rowsOf records).Pairwise fun l r => l.id < r.id := by
  have hnd : (rowsOf records).Pairwise fun l r => l.id ≠ r.id :=
    pairwise_map.mp (((sortedBy_perm BatchRecord.id records).map _).nodup_iff.mpr h.nodup)
  exact ((sortedBy_pairwise BatchRecord.id records).and hnd).imp fun h =>
    lt_of_le_of_ne h.1 h.2

/-- **The pairs of the index are the pairs of records**, the smaller id first. -/
theorem pair_rowsOf (h : HasIds records) {i j : Nat} {l r : BatchRecord} (hij : i < j)
    (hl : (rowsOf records)[i]? = some l) (hr : (rowsOf records)[j]? = some r) :
    l ∈ records ∧ r ∈ records ∧ l.id < r.id := by
  refine ⟨mem_rowsOf.mp (mem_of_getElem? hl), mem_rowsOf.mp (mem_of_getElem? hr), ?_⟩
  obtain ⟨hi, rfl⟩ := List.getElem?_eq_some_iff.mp hl
  obtain ⟨hj, rfl⟩ := List.getElem?_eq_some_iff.mp hr
  exact pairwise_iff_getElem.mp (pairwise_rowsOf h) i j hi hj hij

theorem exists_pair_rowsOf (h : HasIds records) {l r : BatchRecord} (hl : l ∈ records)
    (hr : r ∈ records) (hlt : l.id < r.id) :
    ∃ i j, (i, j) ∈ pairs (rowsOf records).length ∧ (rowsOf records)[i]? = some l ∧
      (rowsOf records)[j]? = some r := by
  obtain ⟨i, hi, rfl⟩ := getElem_of_mem (mem_rowsOf.mpr hl)
  obtain ⟨j, hj, rfl⟩ := getElem_of_mem (mem_rowsOf.mpr hr)
  refine ⟨i, j, mem_pairs.mpr ⟨?_, hj⟩, getElem?_eq_getElem hi, getElem?_eq_getElem hj⟩
  by_contra hge
  rcases Nat.eq_or_lt_of_le (Nat.le_of_not_lt hge) with rfl | hji
  · exact lt_irrefl _ hlt
  · exact lt_asymm hlt (pairwise_iff_getElem.mp (pairwise_rowsOf h) j i hj hi hji)

end

/-! ## Ranges of pairs -/

section

variable {α : Type} {xs : List α} {f : α → α → Except BatchError Document}

theorem overPairs_none (xs : List α) (f : α → α → Except BatchError Document) :
    overPairs xs f none = (pairs xs.length).mapM (atPair xs f) := by
  unfold overPairs
  rw [iterPairs_none]
  rfl

/-- **A range of the pairs** has the documents at its indices. -/
theorem overPairs_some {docs : List Document} (hdocs : overPairs xs f none = .ok docs)
    {range : PairRange} (hstart : range.start ≤ range.stop)
    (hstop : range.stop ≤ exactPairCount xs.length) :
    overPairs xs f (some range) =
      .ok ((docs.drop range.start).take (range.stop - range.start)) := by
  rw [overPairs_none] at hdocs
  refine bind_intro (mapError_ok.mpr (iterPairs_some hstart hstop)) ?_
  exact mapM_slice hdocs _ _

end

section

variable {P : Platform} {spec : DistanceSpec} {records : List BatchRecord}

variable {docs : List Document}

/-- What a batch of all pairs returned, it returns of each range. -/
theorem batchComputePrepared_some (h : HasIds records)
    (hdocs : batchComputePrepared P spec records none = .ok docs) {range : PairRange}
    (hstart : range.start ≤ range.stop) (hstop : range.stop ≤ exactPairCount records.length) :
    batchComputePrepared P spec records (some range) =
      .ok ((docs.drop range.start).take (range.stop - range.start)) := by
  have hrows : (rowsOf records).length = records.length := length_sortedBy _ _
  unfold batchComputePrepared at hdocs ⊢
  by_cases hprepared : isPrepared spec
  · rw [if_pos hprepared] at hdocs ⊢
    obtain ⟨prepared, hprep, hdocs⟩ := bind_ok.mp hdocs
    have hlen : prepared.length = records.length := by
      rw [prepareRecords_eq P hprepared h] at hprep
      rw [← hrows, (mapM_ok_iff.mp hprep).length_eq]
    refine bind_intro hprep (overPairs_some hdocs hstart ?_)
    rw [hlen]
    exact hstop
  · rw [if_neg hprepared, ordered_eq h] at hdocs ⊢
    refine overPairs_some hdocs hstart ?_
    rw [hrows]
    exact hstop

theorem length_batchComputePrepared (h : HasIds records)
    (hdocs : batchComputePrepared P spec records none = .ok docs) :
    docs.length = exactPairCount records.length := by
  have hover : ∀ {α : Type} {xs : List α} {f : α → α → Except BatchError Document},
      overPairs xs f none = .ok docs → docs.length = exactPairCount xs.length := by
    intro α xs f hdocs
    rw [overPairs_none] at hdocs
    rw [← length_pairs, (mapM_ok_iff.mp hdocs).length_eq]
  have hrows : (rowsOf records).length = records.length := length_sortedBy _ _
  unfold batchComputePrepared at hdocs
  by_cases hprepared : isPrepared spec
  · rw [if_pos hprepared] at hdocs
    obtain ⟨prepared, hprep, hdocs⟩ := bind_ok.mp hdocs
    rw [prepareRecords_eq P hprepared h] at hprep
    rw [hover hdocs, ← hrows, (mapM_ok_iff.mp hprep).length_eq]
  · rw [if_neg hprepared, ordered_eq h] at hdocs
    rw [hover hdocs, hrows]

/-- **The tiles are the batch**, for every tile size and every number of workers. -/
theorem deterministicParallelTiles_eq (h : HasIds records)
    (hdocs : batchComputePrepared P spec records none = .ok docs) {tile workers : Nat}
    (htile : 1 ≤ tile) (hworkers : 1 ≤ workers) :
    deterministicParallelTiles P spec records tile workers = .ok docs := by
  have hlen := length_batchComputePrepared h hdocs
  obtain ⟨ranges, hranges, hvalid, hsort, hconcat⟩ := exists_pairRanges records.length htile
  have hpieces : (ranges.mapM fun range =>
      (batchComputePrepared P spec records (some range)).map fun docs => (range.start, docs)) =
        .ok (ranges.map fun range =>
          (range.start, (docs.drop range.start).take (range.stop - range.start))) := by
    rw [mapM_ok_iff, forall₂_map_right_iff, forall₂_same]
    intro range hrange
    obtain ⟨hstart, hstop⟩ := hvalid range hrange
    rw [batchComputePrepared_some h hdocs hstart hstop]
    rfl
  refine bind_ok.mpr ⟨(), check_ok.mpr hworkers, bind_ok.mpr
    ⟨ranges, mapError_ok.mpr hranges, bind_ok.mpr ⟨_, hpieces, ?_⟩⟩⟩
  have hself : sortedBy Prod.fst (ranges.map fun range =>
      (range.start, (docs.drop range.start).take (range.stop - range.start))) =
        ranges.map fun range =>
          (range.start, (docs.drop range.start).take (range.stop - range.start)) :=
    sortedBy_eq_self (pairwise_map.mpr hsort)
  rw [hself, flatMap_map]
  exact congrArg Except.ok (hconcat docs hlen)

/-- Of all pairs, the batch has the documents of the reference iff each pair has. -/
theorem overPairs_ok_iff {α β : Type} {xs : List α} {ys : List β}
    {f : α → α → Except BatchError Document} {g : β → β → Except BatchError Document}
    (hlen : xs.length = ys.length) (hdocs : overPairs ys g none = .ok docs) :
    overPairs xs f none = .ok docs ↔
      ∀ p ∈ pairs ys.length, ∀ doc, atPair ys g p = .ok doc → atPair xs f p = .ok doc := by
  rw [overPairs_none] at hdocs ⊢
  rw [hlen, mapM_ok_iff]
  rw [mapM_ok_iff] at hdocs
  generalize pairs ys.length = ps at hdocs
  induction hdocs with
  | nil => simp
  | cons hhead _ ih =>
    rw [forall₂_cons, ih, forall_mem_cons]
    refine and_congr_left fun _ => ⟨fun hf doc hg => ?_, fun hf => hf _ hhead⟩
    cases hhead.symm.trans hg
    exact hf

end

section

variable {P : Platform} {spec : DistanceSpec} {records : List BatchRecord}

/-- **The pairs of the records that `compute_distance` returns on** are all pairs. -/
def AllReturn (P : Platform) (spec : DistanceSpec) (records : List BatchRecord) : Prop :=
  ∀ l ∈ records, ∀ r ∈ records, l.id < r.id → Returns (computeDistance P l.record r.record spec)

/-- **The batch can be prepared**, and its domains are told apart alike. -/
def PreparesAlike (P : Platform) (spec : DistanceSpec) (records : List BatchRecord) : Prop :=
  (∀ r ∈ records, Prepares P spec r) ∧
    ∀ l ∈ records, ∀ r ∈ records, l.id < r.id → DomainsAlike l r

/-- The reference returns where `compute_distance` does. -/
theorem exists_referenceDistances (h : HasIds records) (hrets : AllReturn P spec records) :
    ∃ docs, overPairs (rowsOf records) (referenceDistance P spec) none = .ok docs ∧
      referenceDistances P spec records = .ok docs := by
  have hdocs : Returns (overPairs (rowsOf records) (referenceDistance P spec) none) := by
    rw [overPairs_none, returns_mapM]
    rintro ⟨i, j⟩ hij
    obtain ⟨hlt, hj⟩ := mem_pairs.mp hij
    have hl := getElem?_eq_getElem (hlt.trans hj)
    have hr := getElem?_eq_getElem hj
    obtain ⟨hleft, hright, hids⟩ := pair_rowsOf h hlt hl hr
    unfold atPair
    rw [hl, hr]
    exact returns_mapError.mpr (hrets _ hleft _ hright hids)
  obtain ⟨docs, hdocs⟩ := hdocs
  exact ⟨docs, hdocs, bind_intro (ordered_eq h) hdocs⟩

/-- **The batch is the reference** iff it can be prepared alike. -/
theorem batchComputePrepared_eq_iff (hprepared : isPrepared spec = true) (h : HasIds records)
    (hfree : ∀ l ∈ records, ∀ r ∈ records, l.id < r.id → PairTextsApart P spec l r)
    {docs : List Document}
    (hdocs : overPairs (rowsOf records) (referenceDistance P spec) none = .ok docs) :
    batchComputePrepared P spec records none = .ok docs ↔ PreparesAlike P spec records := by
  unfold batchComputePrepared
  rw [if_pos hprepared, prepareRecords_eq P hprepared h]
  -- what is prepared stands at the places of the rows, so the pairs are compared one by one
  have hpairs : ∀ prepared, (rowsOf records).mapM (prepareRecord P spec) = .ok prepared →
      (overPairs prepared (preparedDistance P spec) none = .ok docs ↔
        ∀ l ∈ records, ∀ r ∈ records, l.id < r.id → DomainsAlike l r) := by
    intro prepared hprep
    have hforall := mapM_ok_iff.mp hprep
    have hat : ∀ {i : Nat} {r : BatchRecord}, (rowsOf records)[i]? = some r →
        ∃ p, prepared[i]? = some p ∧ prepareRecord P spec r = .ok p := by
      intro i r hr
      obtain ⟨hi, rfl⟩ := List.getElem?_eq_some_iff.mp hr
      have hi' : i < prepared.length := hforall.length_eq ▸ hi
      exact ⟨prepared[i], List.getElem?_eq_getElem hi', hforall.get hi hi'⟩
    have hpair : ∀ i j l r, i < j → (rowsOf records)[i]? = some l →
        (rowsOf records)[j]? = some r → ∀ doc,
          atPair (rowsOf records) (referenceDistance P spec) (i, j) = .ok doc →
          (atPair prepared (preparedDistance P spec) (i, j) = .ok doc ↔ DomainsAlike l r) := by
      intro i j l r hij hl hr doc hdoc
      obtain ⟨hleft, hright, hids⟩ := pair_rowsOf h hij hl hr
      obtain ⟨p, hp, hpl⟩ := hat hl
      obtain ⟨q, hq, hqr⟩ := hat hr
      unfold atPair at hdoc ⊢
      rw [hl, hr] at hdoc
      rw [hp, hq]
      exact preparedDistance_eq_iff hprepared hpl hqr hids.ne (hfree l hleft r hright hids)
        (mapError_ok.mp hdoc)
    have hall := hdocs
    rw [overPairs_none] at hall
    rw [overPairs_ok_iff hforall.length_eq.symm hdocs]
    constructor
    · intro heq l hl r hr hids
      obtain ⟨i, j, hij, hgetl, hgetr⟩ := exists_pair_rowsOf h hl hr hids
      obtain ⟨doc, hdoc⟩ := returns_mapM.mp ⟨docs, hall⟩ (i, j) hij
      exact (hpair i j l r (mem_pairs.mp hij).1 hgetl hgetr doc hdoc).mp (heq _ hij doc hdoc)
    · rintro halike ⟨i, j⟩ hij doc hdoc
      obtain ⟨hlt, hj⟩ := mem_pairs.mp hij
      have hl := List.getElem?_eq_getElem (hlt.trans hj)
      have hr := List.getElem?_eq_getElem hj
      obtain ⟨hleft, hright, hids⟩ := pair_rowsOf h hlt hl hr
      exact (hpair i j _ _ hlt hl hr doc hdoc).mpr (halike _ hleft _ hright hids)
  constructor
  · intro hbatch
    obtain ⟨prepared, hprep, hbatch⟩ := bind_ok.mp hbatch
    refine ⟨fun r hr => ?_, (hpairs prepared hprep).mp hbatch⟩
    exact returns_prepareRecord.mp (returns_mapM.mp ⟨prepared, hprep⟩ r (mem_rowsOf.mpr hr))
  · rintro ⟨hall, halike⟩
    have hrets : Returns ((rowsOf records).mapM (prepareRecord P spec)) :=
      returns_mapM.mpr fun r hr => returns_prepareRecord.mpr (hall r (mem_rowsOf.mp hr))
    obtain ⟨prepared, hprep⟩ := hrets
    exact bind_ok.mpr ⟨prepared, hprep, (hpairs prepared hprep).mpr halike⟩

end

/-! ### Concrete batches -/

/-- A record with one number. -/
def measured (representationId : PyStr) (missingness : PyVal) (x : Int) : BatchRecord where
  record :=
    { representationId
      comparabilityDomainId := some (py "D")
      orderingSemantics := none
      missingness
      structuralRaw := .dict [(.str (py "x"), .int x)]
      structuralDerived := .none
      structuralNormalized := .none
      comparisonOnly := .none
      built := by
        have hraw : (PyVal.dict [(.str (py "x"), .int x)]).Built :=
          .dict (by simp) (by simpa using .int x)
        simpa using ⟨hraw, .none⟩
      setFree := by
        have hraw : (PyVal.dict [(.str (py "x"), .int x)]).SetFree :=
          .dict (by simpa using .int x)
        simpa using ⟨hraw, .none⟩ }
  domainGiven := true
  given := fun _ => rfl

/-- A specification of the distance by the number. -/
def byNumber : DistanceSpec where
  distanceSpecId := py "N"
  method := .l1Typed
  fields := [py "x"]
  weights := none
  precisionPlaces := 2
  exact := true
  distanceSpecId_ne := by decide +kernel
  fields_ne := fun _ => cons_ne_nil _ _

/-- Two records of one domain, with nothing missing. -/
def wholeBatch : List BatchRecord := [measured (py "a") .none 3, measured (py "b") .none 5]

/-- Two records, of which one has something missing. -/
def gappedBatch : List BatchRecord :=
  [measured (py "a") (.dict [(.str (py "x"), .str (py "STALE"))]) 3, measured (py "b") .none 5]

end OvcReplay.Srfd.Distance
