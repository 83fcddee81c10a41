import OvcReplay.C2p.AdjudicationLaws

/-! # Indexed retrieval of C2P v0.2

`retrieval.py`: the index of assertions by the canonical bytes of their scope fields. The reference
compares these fields with `==`. The two retrieve the same ids when as many assertions of each id are
equal to the candidate in the one way as in the other. -/

namespace OvcReplay.C2p

open Python Json

variable (P : Platform)

/-! ## `ExactHardScopeIndex` -/

/-- `_key`. -/
def scopeKey (scope : ScopeFields) : Except Error PyStr :=
  canonicalBytes P <| .ofRecord
    [(py "object_pack_id", .str scope.objectPackId),
      (py "structural_role_id", .str scope.structuralRoleId),
      (py "geometry_kind_id", .str scope.geometryKindId),
      (py "hard_scope", .dict scope.hardScope)]

/-- `ExactHardScopeIndex`. -/
structure ExactHardScopeIndex where
  buckets : Dict PyStr (List ObjectAssertion)
  indexDigest : PyStr

/-- One pass of the loop: the assertion is appended to the bucket of its key. -/
def insertAssertion (buckets : Dict PyStr (List ObjectAssertion)) (assertion : ObjectAssertion) :
    Except Error (Dict PyStr (List ObjectAssertion)) := do
  let key ← scopeKey P assertion.scope
  return buckets.set key ((buckets.get? key).getD [] ++ [assertion])

/-- The payload of the index digest. -/
def digestPayload (buckets : Dict PyStr (List ObjectAssertion)) : PyVal :=
  .list <| (sortedBy Prod.fst buckets).map fun bucket => .ofRecord
    [(py "key_sha256", .str (P.sha256 bucket.1).text),
      (py "assertion_ids", .ofStrs (bucket.2.map ObjectAssertion.objectAssertionId))]

/-- `ExactHardScopeIndex.build`. -/
def ExactHardScopeIndex.build (assertions : List ObjectAssertion) :
    Except Error ExactHardScopeIndex := do
  let mutable ← assertions.foldlM (insertAssertion P) []
  let buckets := mutable.map fun bucket =>
    (bucket.1, sortedBy ObjectAssertion.objectAssertionId bucket.2)
  let digest ← hash P (digestPayload P buckets)
  return ⟨buckets, digest⟩

/-- `ExactHardScopeIndex.retrieve`. -/
def ExactHardScopeIndex.retrieve (index : ExactHardScopeIndex) (candidate : Candidate) :
    Except Error (List ObjectAssertion) := do
  let key ← scopeKey P candidate.scope
  return (index.buckets.get? key).getD []

/-! ## What the index holds -/

variable {P}

/-- The bytes of an assertion's scope fields are a key. -/
def HasKey (P : Platform) (key : PyStr) (assertion : ObjectAssertion) : Prop :=
  scopeKey P assertion.scope = .ok key

instance (key : PyStr) : DecidablePred (HasKey P key) := fun assertion =>
  inferInstanceAs (Decidable (scopeKey P assertion.scope = .ok key))

/-- **Each bucket holds the assertions of its key**, in the order of their insertion. -/
theorem get?_foldlM_insertAssertion {assertions : List ObjectAssertion}
    {buckets filled : Dict PyStr (List ObjectAssertion)}
    (h : assertions.foldlM (insertAssertion P) buckets = .ok filled) (key : PyStr) :
    (filled.get? key).getD [] =
      (buckets.get? key).getD [] ++ assertions.filter fun a => HasKey P key a := by
  induction assertions generalizing buckets with
  | nil =>
    cases h
    simp
  | cons assertion assertions ih =>
    rw [List.foldlM_cons] at h
    obtain ⟨next, hnext, h⟩ := bind_ok.mp h
    obtain ⟨own, hown, hset⟩ := bind_ok.mp hnext
    cases hset
    rw [ih h]
    by_cases hkey : own = key
    · subst hkey
      have hhas : HasKey P own assertion := hown
      rw [Dict.get?_set, if_pos rfl, List.filter_cons, if_pos (decide_eq_true hhas)]
      simp
    · have hnot : ¬ HasKey P key assertion := fun hhas =>
        hkey (Except.ok.inj (hown.symm.trans hhas))
      rw [Dict.get?_set_of_ne _ _ hkey, List.filter_cons_of_neg (by simpa using hnot)]

/-- What an index that is built retrieves. -/
theorem retrieve_eq {assertions : List ObjectAssertion} {index : ExactHardScopeIndex}
    (h : ExactHardScopeIndex.build P assertions = .ok index) {candidate : Candidate} {key : PyStr}
    (hkey : scopeKey P candidate.scope = .ok key) :
    index.retrieve P candidate = .ok (sortedBy ObjectAssertion.objectAssertionId
        (assertions.filter fun a => HasKey P key a)) := by
  obtain ⟨filled, hfilled, h⟩ := bind_ok.mp h
  obtain ⟨digest, -, h⟩ := bind_ok.mp h
  cases h
  have hbucket := get?_foldlM_insertAssertion hfilled key
  unfold ExactHardScopeIndex.retrieve
  rw [hkey]
  show Except.ok ((Dict.get? _ key).getD []) = _
  rw [Dict.get?_map]
  rw [show (Dict.get? ([] : Dict PyStr (List ObjectAssertion)) key).getD [] = [] from rfl,
    List.nil_append] at hbucket
  rw [← hbucket]
  cases filled.get? key <;> rfl

/-! ## The two retrievals -/

variable (P) (candidate : Candidate) (assertions : List ObjectAssertion) (pack : ObjectPack)

/-- **Where the reference retrieves, the index retrieves the same ids in the same order.** -/
def RetrievesAlike : Prop :=
  ∀ found, referenceRetrieve P candidate assertions pack = .ok found →
    ∃ index retrieved, ExactHardScopeIndex.build P assertions = .ok index ∧
      index.retrieve P candidate = .ok retrieved ∧
      retrieved.map ObjectAssertion.objectAssertionId =
        found.2.map ObjectAssertion.objectAssertionId

/-- Where the reference retrieves, the index can be built, the candidate has a key, and the ids of
the assertions that are equal to the candidate in their scope fields are those of the assertions with
its key. -/
def ScopesAgree : Prop :=
  Returns (referenceRetrieve P candidate assertions pack) →
    Returns (ExactHardScopeIndex.build P assertions) ∧
    ∃ key, scopeKey P candidate.scope = .ok key ∧
      ((assertions.filter fun a => HasKey P key a).map ObjectAssertion.objectAssertionId).Perm
        ((assertions.filter fun a => a.scope.same candidate.scope).map
          ObjectAssertion.objectAssertionId)

/-- Sorted by their ids, assertions have the same ids in the same order iff they have them at all. -/
theorem map_sortedBy_eq_iff {xs ys : List ObjectAssertion} :
    (sortedBy ObjectAssertion.objectAssertionId xs).map ObjectAssertion.objectAssertionId =
        (sortedBy ObjectAssertion.objectAssertionId ys).map ObjectAssertion.objectAssertionId ↔
      (xs.map ObjectAssertion.objectAssertionId).Perm
        (ys.map ObjectAssertion.objectAssertionId) := by
  constructor
  · intro h
    have hxs := (sortedBy_perm ObjectAssertion.objectAssertionId xs).map
      ObjectAssertion.objectAssertionId
    have hys := (sortedBy_perm ObjectAssertion.objectAssertionId ys).map
      ObjectAssertion.objectAssertionId
    exact hxs.symm.trans (h ▸ hys)
  · intro h
    have hids : sortedBy id (xs.map ObjectAssertion.objectAssertionId) =
        sortedBy id (ys.map ObjectAssertion.objectAssertionId) :=
      sortedBy_eq_of_perm (fun _ _ _ _ heq => heq) h
    rwa [sortedBy_map, sortedBy_map] at hids

/-- Scope fields with one value under `partition_id`. -/
def partitionScope (value : PyVal) (hvalue : PyVal.Built value) : ScopeFields where
  objectPackId := py "PACK"
  structuralRoleId := py "LEVEL"
  geometryKindId := py "POINT"
  hardScope := [(.str (py "partition_id"), value)]
  built := .dict (by simp) (by simpa using hvalue)

/-- An assertion of the partition `True`. -/
def trueAssertion : ObjectAssertion where
  objectAssertionId := py "A"
  scope := partitionScope (.bool true) (.bool true)

/-- A candidate of the partition `1`. -/
def oneCandidate : Candidate where
  candidateId := py "C"
  scope := partitionScope (.int 1) (.int 1)
  firstValidTime := py "2026-01-01T00:00:00Z"
  evaluationCutoff := py "2026-01-01T00:00:00Z"

/-- A pack that reference retrieval takes. -/
def syntheticPack : ObjectPack where
  objectPackId := py "PACK"
  status := py "SYNTHETIC_ONLY_NONEMPIRICAL"
  realSourceForbidden := true
  identityPredicates := []

end OvcReplay.C2p
