import OvcReplay.Lists.Loops
import OvcReplay.Python.Context
import OvcReplay.Srfd.Serialization

/-! # Families and catalogues of SRFD

`families.py`: distance matrices, method specifications, and the catalogue that every method returns:
its families, and the records that belong to none. -/

namespace OvcReplay.Srfd

open List Python

variable (P : Platform)

/-! ## Distances -/

/-- `_dec` of a text. -/
def dec (text : PyStr) : Except Error PyDecimal :=
  match P.decimalOf text with
  | none => .error (.family (py "DIST_NONFINITE_RESULT") (py "invalid distance " ++ text))
  | some (.finite negative coefficient exponent) =>
    if (PyDecimal.finite negative coefficient exponent).rat < 0 then
      .error (.family (py "DIST_NONFINITE_RESULT") (py "distance must be finite and non-negative"))
    else .ok (.finite negative coefficient exponent)
  | some _ =>
    .error (.family (py "DIST_NONFINITE_RESULT") (py "distance must be finite and non-negative"))

/-- `pair_key`. -/
def pairKey (left right : PyStr) : PyStr :=
  if right < left then right ++ py "|" ++ left else left ++ py "|" ++ right

/-- A `DistanceMatrix`: the ids of a population and the texts of the distances between them. -/
structure DistanceMatrix where
  ids : List PyStr
  values : Dict PyStr PyStr
  /-- `from_pairs` makes a set of the ids it is given. -/
  nodup : ids.Nodup

namespace DistanceMatrix

/-- The error of a pair without a distance. -/
def missing (left right : PyStr) : Error :=
  .family (py "COMP_REQUIRED_DIMENSION_MISSING") (py "missing distance " ++ left ++ py "," ++ right)

/-- `from_pairs`. -/
def fromPairs (ids : List PyStr) (given : Dict PyStr PyVal) : Except Error DistanceMatrix := do
  let values ← given.mapM fun p => do
    let text ← (p.2.strOf P).mapError .python
    let distance ← dec P text
    let written ← ((PyVal.decimal distance).strOf P).mapError .python
    return (p.1, written)
  forM (Lists.pairs (sortedSet ids)) fun p =>
    check (pairKey p.1 p.2 ∈ Dict.keys values) (missing p.1 p.2)
  return ⟨sortedSet ids, sortedBy Prod.fst values, sortedSet_nodup ids⟩

/-- `distance`. -/
def distance (matrix : DistanceMatrix) (left right : PyStr) : Except Error PyDecimal :=
  if left = right then .ok (.finite false 0 0)
  else
    match Dict.get? matrix.values (pairKey left right) with
    | none => .error (missing left right)
    | some text => dec P text

end DistanceMatrix

/-- `sum`, with the errors of these modules. -/
def sumOf (xs : List PyDecimal) : Except Error PyDecimal := (PyDecimal.sum xs).mapError .python

/-- `min(xs, key=key)`: the first of the least elements. -/
def minBy {α κ : Type} [LinearOrder κ] (key : α → κ) (xs : List α) : Except Error α :=
  match xs with
  | [] => .error (.python .valueError)
  | x :: xs => .ok (xs.foldl (fun found y => if key y < key found then y else found) x)

theorem mem_of_minBy {α κ : Type} [LinearOrder κ] {key : α → κ} {xs : List α} {x : α}
    (h : minBy key xs = .ok x) : x ∈ xs := by
  cases xs with
  | nil => cases h
  | cons y ys =>
    cases h
    have hfold : ∀ (ys : List α) (found : α),
        ys.foldl (fun found y => if key y < key found then y else found) found ∈ found :: ys := by
      intro ys
      induction ys with
      | nil => intro found; exact mem_cons_self
      | cons z zs ih =>
        intro found
        rw [foldl_cons]
        rcases mem_cons.mp (ih (if key z < key found then z else found)) with h | h
        · rw [h]
          split <;> simp
        · exact mem_cons_of_mem _ (mem_cons_of_mem _ h)
    exact hfold ys y

/-! ## Specifications -/

/-- A `FamilyMethodSpec` that `__post_init__` accepts. -/
structure FamilyMethodSpec where
  methodId : PyStr
  configurationId : PyStr
  radius : Option PyStr := none
  minimumSupport : Int := 2
  k : Option Int := none
  maxIterations : Int := 20
  linkage : Option PyStr := none
  maxAssignmentDistance : Option PyStr := none
  support : 2 ≤ minimumSupport := by decide
  iterations : 1 ≤ maxIterations := by decide

/-- The value of an optional number. -/
def ofInt? : Option Int → PyVal
  | none => .none
  | some z => .int z

variable (spec : FamilyMethodSpec)

/-- `method.__dict__`. -/
def FamilyMethodSpec.asDict : Record :=
  [(py "method_id", .str spec.methodId), (py "configuration_id", .str spec.configurationId),
    (py "radius", .ofStr? spec.radius), (py "minimum_support", .int spec.minimumSupport),
    (py "k", ofInt? spec.k), (py "max_iterations", .int spec.maxIterations),
    (py "linkage", .ofStr? spec.linkage),
    (py "max_assignment_distance", .ofStr? spec.maxAssignmentDistance)]

/-- The seed the families of a catalogue share. -/
def seed (matrix : DistanceMatrix) : Record :=
  [(py "method", .str spec.methodId), (py "configuration", .str spec.configurationId),
    (py "population", .ofStrs matrix.ids)]

/-! ## Catalogues -/

/-- A family of a catalogue. -/
structure Family where
  catalogSeed : Record
  memberIds : List PyStr
  prototypeType : PyStr
  prototypeId : Option PyStr
  methodId : PyStr
  familyId : PyStr

/-- The payload the id of a family is taken of. -/
def familyPayload (catalogSeed : Record) (memberIds : List PyStr) (prototypeType : PyStr)
    (prototypeId : Option PyStr) (methodId : PyStr) : Record :=
  [(py "catalog_seed", .ofRecord catalogSeed), (py "member_ids", .ofStrs memberIds),
    (py "prototype_descriptor", .ofRecord [(py "type", .str prototypeType),
      (py "record_id", .ofStr? prototypeId)]),
    (py "method_id", .str methodId), (py "authority_state", .str (py "FIXTURE_ONLY"))]

/-- `_family`. -/
def family (catalogSeed : Record) (members : List PyStr) (prototypeType : String)
    (prototypeId : Option PyStr) (methodId : PyStr) : Except Error Family := do
  let memberIds := sortedBy id members
  let familyId ← stableId P "SRFD.FAM."
    (familyPayload catalogSeed memberIds (py prototypeType) prototypeId methodId)
  return ⟨catalogSeed, memberIds, py prototypeType, prototypeId, methodId, familyId⟩

/-- The family as a dictionary. -/
def Family.asDict (f : Family) : Record :=
  familyPayload f.catalogSeed f.memberIds f.prototypeType f.prototypeId f.methodId ++
    [(py "family_id", .str f.familyId)]

/-- A catalogue of families. -/
structure FamilyCatalog where
  methodId : PyStr
  configurationId : PyStr
  families : List Family
  residualIds : List PyStr
  noiseIds : List PyStr
  singletonIds : List PyStr
  evidenceStatus : PyStr
  familyCatalogId : PyStr
  logicalHash : PyStr

/-- `_catalog`. -/
def catalog (matrix : DistanceMatrix) (families : List Family)
    (residualIds noiseIds : List PyStr) : Except Error FamilyCatalog := do
  let families := sortedBy Family.familyId families
  let singletonIds := sortedSet (residualIds.filter fun item => item ∉ noiseIds)
  let evidenceStatus :=
    py (if families.isEmpty then "NO_STABLE_FAMILY" else "FAMILY_EVIDENCE_PRESENT")
  let familyCatalogId ← stableId P "SRFD.CATALOG." [(py "method_id", .str spec.methodId),
    (py "configuration_id", .str spec.configurationId), (py "population_ids", .ofStrs matrix.ids),
    (py "method_config", .ofRecord spec.asDict)]
  let logicalHash ← logicalSha256 P (.ofRecord [(py "method_id", .str spec.methodId),
    (py "configuration_id", .str spec.configurationId),
    (py "families", .list (families.map fun f => .ofRecord f.asDict)),
    (py "residual_ids", .ofStrs (sortedSet residualIds)),
    (py "noise_ids", .ofStrs (sortedSet noiseIds)), (py "singleton_ids", .ofStrs singletonIds),
    (py "full_assignment_target", .bool false), (py "authority_state", .str (py "FIXTURE_ONLY")),
    (py "evidence_status", .str evidenceStatus)])
  return ⟨spec.methodId, spec.configurationId, families, sortedSet residualIds, sortedSet noiseIds,
    singletonIds, evidenceStatus, familyCatalogId, logicalHash⟩

/-- What `family_assignments` says of a record. -/
structure Assignment where
  recordId : PyStr
  status : PyStr
  familyId : Option PyStr
  reasonCode : Option PyStr

/-- `family_assignments`. -/
def familyAssignments (c : FamilyCatalog) : List Assignment :=
  let members := c.families.flatMap fun f => f.memberIds.map fun member =>
    (⟨member, py "MEMBER", some f.familyId, none⟩ : Assignment)
  let residuals := c.residualIds.map fun member =>
    (⟨member, py "RESIDUAL", none,
      some (py (if c.families.isEmpty then "FAM_ALL_RESIDUAL" else "FAM_RESIDUAL"))⟩ : Assignment)
  let noise := c.noiseIds.map fun member =>
    (⟨member, py "NOISE", none, some (py "FAM_NOISE")⟩ : Assignment)
  sortedBy (fun a => toLex (a.recordId, a.status)) (members ++ residuals ++ noise)

/-! ## Every record has one place -/

variable {P}

/-- Every id has exactly one place in the catalogue, and exactly one assignment. -/
structure Partitions (c : FamilyCatalog) (ids : List PyStr) : Prop where
  places : (c.families.flatMap Family.memberIds ++ c.residualIds).Perm ids
  assignments : ((familyAssignments c).map Assignment.recordId).Perm ids

variable {c : FamilyCatalog}

/-- A catalogue without noise has one assignment for every place. -/
theorem map_recordId_familyAssignments (hnoise : c.noiseIds = []) :
    ((familyAssignments c).map Assignment.recordId).Perm
      (c.families.flatMap Family.memberIds ++ c.residualIds) := by
  refine ((sortedBy_perm _ _).map _).trans (List.Perm.of_eq ?_)
  simp [hnoise, map_flatMap, Function.comp_def]

theorem familyAssignments_perm {ids : List PyStr} (hnoise : c.noiseIds = []) :
    Partitions c ids ↔ (c.families.flatMap Family.memberIds ++ c.residualIds).Perm ids :=
  ⟨fun h => h.places, fun h => ⟨h, (map_recordId_familyAssignments hnoise).trans h⟩⟩

theorem memberIds_of_family {catalogSeed : Record} {members : List PyStr} {prototypeType : String}
    {prototypeId : Option PyStr} {methodId : PyStr} {f : Family}
    (h : family P catalogSeed members prototypeType prototypeId methodId = .ok f) :
    f.memberIds.Perm members := by
  simp only [family, bind_ok, pure_ok] at h
  obtain ⟨_, -, rfl⟩ := h
  exact sortedBy_perm _ _

/-- **What a catalogue holds**: its families and its distinct residuals partition the population iff
the families it was given and the residuals do. -/
theorem catalog_partitions_iff {spec : FamilyMethodSpec} {matrix : DistanceMatrix}
    {families : List Family} {residualIds : List PyStr}
    (h : catalog P spec matrix families residualIds [] = .ok c) (hnd : residualIds.Nodup)
    {ids : List PyStr} :
    Partitions c ids ↔ (families.flatMap Family.memberIds ++ residualIds).Perm ids := by
  simp only [catalog, bind_ok, pure_ok] at h
  obtain ⟨_, -, _, -, rfl⟩ := h
  rw [familyAssignments_perm rfl]
  have hperm : ((sortedBy Family.familyId families).flatMap Family.memberIds ++
      sortedSet residualIds).Perm (families.flatMap Family.memberIds ++ residualIds) :=
    ((sortedBy_perm _ _).flatMap_right _).append
      (sortedSet_of_nodup hnd ▸ sortedBy_perm id residualIds)
  exact ⟨fun h => hperm.symm.trans h, fun h => hperm.trans h⟩

end OvcReplay.Srfd
