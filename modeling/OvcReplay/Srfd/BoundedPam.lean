import OvcReplay.Srfd.Hierarchical

/-! # Bounded PAM

Partitioning around medoids with a bounded number of iterations: in `families.py`, in
`families_optimized.py`, and in `family_grid_reuse.py`, whose core is kept and materialized later. The
three run one loop, with distances that are parsed each time or once. -/

namespace OvcReplay.Srfd

open List Python OvcReplay.Lists

variable (P : Platform)

/-- The distance a version of the method reads. -/
abbrev Metric : Type := PyStr → PyStr → Except Error PyDecimal

/-- The members of each medoid, and the records too far from all of them. -/
structure Clustering where
  assignments : Dict PyStr (List PyStr)
  residual : List PyStr

/-- `assignments.get(medoid, [])`. -/
def Clustering.members (clustering : Clustering) (medoid : PyStr) : List PyStr :=
  (clustering.assignments.get? medoid).getD []

variable (distance : Metric)

/-- The medoid nearest to a record, at its distance. -/
def nearest (medoids : List PyStr) (item : PyStr) : Except Error (PyDecimal × PyStr) := do
  let ranked ← medoids.mapM fun medoid => (distance item medoid).map fun d => (d, medoid)
  minBy (fun p : PyDecimal × PyStr => toLex (p.1.rat, p.2)) ranked

/-- One record is assigned, or left over. -/
def assign (radius : Option PyDecimal) (medoids : List PyStr) (clustering : Clustering)
    (item : PyStr) : Except Error Clustering :=
  (nearest distance medoids item).map fun found =>
    if radius.any fun r => r.rat < found.1.rat then
      { clustering with residual := clustering.residual ++ [item] }
    else
      { clustering with
        assignments := clustering.assignments.set found.2
          (clustering.members found.2 ++ [item]) }

/-- The records of the population, assigned to these medoids. -/
def cluster (ids : List PyStr) (radius : Option PyDecimal) (medoids : List PyStr) :
    Except Error Clustering :=
  ids.foldlM (assign distance radius medoids) ⟨medoids.map fun medoid => (medoid, []), []⟩

/-- The member with the least total distance to the members; a medoid without members stays. -/
def recenter (clustering : Clustering) (medoid : PyStr) : Except Error PyStr :=
  let members := clustering.members medoid
  if members = [] then .ok medoid
  else do
    let scored ← members.mapM fun candidate => do
      let distances ← members.mapM fun item => distance candidate item
      (sumOf distances).map fun total => (total, candidate)
    (minBy (fun p : PyDecimal × PyStr => toLex (p.1.rat, p.2)) scored).map Prod.snd

/-- `updated.append(next(item for item in ids if item not in updated))`, this many times. -/
def fill (ids : List PyStr) : Nat → List PyStr → Except Error (List PyStr)
  | 0, updated => .ok updated
  | n + 1, updated =>
    match ids.find? fun item => item ∉ updated with
    | some item => fill ids n (updated ++ [item])
    | none => .error .stopIteration

/-- The medoids after these, and whether they are others. -/
def nextMedoids (ids : List PyStr) (k : Nat) (clustering : Clustering) (medoids : List PyStr) :
    Except Error (List PyStr × Bool) := do
  let updated := sortedSet (← medoids.mapM (recenter distance clustering))
  if updated = sortedBy id medoids then .ok (medoids, false)
  else do
    let filled ← fill ids (k - updated.length) updated
    return (sortedBy id (filled.take k), true)

/-- The medoids, and the clustering around those of the last pass. -/
structure Pam where
  medoids : List PyStr
  clustering : Clustering

/-- The body of the `for` loop. -/
def pamPass (ids : List PyStr) (k : Nat) (radius : Option PyDecimal) (s : Pam) :
    Except Error (Pam × Bool) := do
  let clustering ← cluster distance ids radius s.medoids
  (nextMedoids distance ids k clustering s.medoids).map fun next => (⟨next.1, clustering⟩, next.2)

/-- The loop, from the first `k` ids. -/
def pamLoop (ids : List PyStr) (k : Nat) (radius : Option PyDecimal) (maxIterations : Nat) :
    Except Error Pam :=
  loop (pamPass distance ids k radius) maxIterations ⟨ids.take k, ⟨[], []⟩⟩

/-! ## The three versions -/

/-- `_dec` of an optional text. -/
def decOption : Option PyStr → Except Error (Option PyDecimal)
  | none => .ok none
  | some text => (dec P text).map some

/-- `k`, when it lies within the population. -/
def pamSize (matrix : DistanceMatrix) (k : Option Int) : Except Error Nat :=
  match k with
  | none => .error (.family (py "DIST_INVALID_PARAMETER") (py "PAM k outside population"))
  | some k =>
    (check (1 ≤ k ∧ k ≤ matrix.ids.length)
      (.family (py "DIST_INVALID_PARAMETER") (py "PAM k outside population"))).map fun _ => k.toNat

/-- The catalogue of medoids and their members: what has too little support is residual. -/
def pamCatalog (spec : FamilyMethodSpec) (matrix : DistanceMatrix) (medoids : List PyStr)
    (members : PyStr → List PyStr) (residual : List PyStr) : Except Error FamilyCatalog := do
  let supported := medoids.filter fun medoid => spec.minimumSupport ≤ ((members medoid).length : Int)
  let families ← supported.mapM fun medoid =>
    family P (seed spec matrix) (members medoid) "MEDOID" (some medoid) spec.methodId
  let small := (medoids.filter fun medoid =>
    ¬ spec.minimumSupport ≤ ((members medoid).length : Int)).flatMap members
  catalog P spec matrix families (residual ++ small) []

/-- `bounded_pam`. -/
def boundedPam (matrix : DistanceMatrix) (spec : FamilyMethodSpec) : Except Error FamilyCatalog := do
  let k ← pamSize matrix spec.k
  let radius ← decOption P spec.maxAssignmentDistance
  let s ← pamLoop (matrix.distance P) matrix.ids k radius spec.maxIterations.toNat
  pamCatalog P spec matrix s.medoids s.clustering.members s.clustering.residual

/-- `bounded_pam_optimized`. -/
def boundedPamOptimized (matrix : DistanceMatrix) (spec : FamilyMethodSpec) :
    Except Error FamilyCatalog := do
  let k ← pamSize matrix spec.k
  let prepared ← PreparedDistanceMatrix.fromMatrix P matrix
  let radius ← decOption P spec.maxAssignmentDistance
  let s ← pamLoop prepared.distance matrix.ids k radius spec.maxIterations.toNat
  pamCatalog P spec matrix s.medoids s.clustering.members s.clustering.residual

/-- A `BoundedPamCore`. -/
structure BoundedPamCore where
  k : Int
  maxAssignmentDistance : Option PyStr
  maxIterations : Int
  populationIds : List PyStr
  medoids : List PyStr
  assignments : List (PyStr × List PyStr)
  residual : List PyStr

/-- `build_bounded_pam_core`. -/
def buildBoundedPamCore (matrix : DistanceMatrix) (k : Int) (maxAssignmentDistance : Option PyStr)
    (maxIterations : Int) : Except Error BoundedPamCore := do
  check (1 ≤ k ∧ k ≤ matrix.ids.length ∧ 1 ≤ maxIterations)
    (.family (py "DIST_INVALID_PARAMETER") (py "invalid PAM capacity core parameters"))
  let prepared ← PreparedDistanceMatrix.fromMatrix P matrix
  let radius ← decOption P maxAssignmentDistance
  let s ← pamLoop prepared.distance matrix.ids k.toNat radius maxIterations.toNat
  return ⟨k, maxAssignmentDistance, maxIterations, matrix.ids, s.medoids,
    s.medoids.map fun medoid => (medoid, s.clustering.members medoid), s.clustering.residual⟩

/-- `core.assignment_map().get(medoid, [])`. -/
def BoundedPamCore.members (core : BoundedPamCore) (medoid : PyStr) : List PyStr :=
  (Dict.get? (Dict.ofItems core.assignments) medoid).getD []

/-- `materialize_bounded_pam_core`. -/
def materializeBoundedPamCore (matrix : DistanceMatrix) (core : BoundedPamCore)
    (spec : FamilyMethodSpec) : Except Error FamilyCatalog := do
  check (spec.k = some core.k ∧ spec.maxAssignmentDistance = core.maxAssignmentDistance ∧
      spec.maxIterations = core.maxIterations ∧ core.populationIds = matrix.ids)
    (.family (py "QA_NON_REPRODUCIBLE") (py "PAM core/spec mismatch"))
  pamCatalog P spec matrix core.medoids core.members core.residual

/-! ## One clustering -/

variable {P} {distance} {matrix : DistanceMatrix} {spec : FamilyMethodSpec}

variable {medoids : List PyStr}

variable {item : PyStr} {k : Nat}

/-- Adding an element to the members of one medoid. -/
theorem flatMap_add_perm (hnd : medoids.Nodup) {medoid : PyStr} (hmem : medoid ∈ medoids)
    {f g : PyStr → List PyStr} (hself : g medoid = f medoid ++ [item])
    (hother : ∀ m, m ≠ medoid → g m = f m) :
    (medoids.flatMap g).Perm (item :: medoids.flatMap f) := by
  induction medoids with
  | nil => simp at hmem
  | cons m medoids ih =>
    rw [nodup_cons] at hnd
    rw [flatMap_cons, flatMap_cons]
    by_cases heq : m = medoid
    · subst heq
      have hrest : medoids.flatMap g = medoids.flatMap f := by
        refine flatMap_congr fun m' hm' => hother m' ?_
        rintro rfl
        exact hnd.1 hm'
      rw [hrest, hself, append_assoc]
      exact perm_middle
    · have hmem' : medoid ∈ medoids := (mem_cons.mp hmem).resolve_left (Ne.symm heq)
      rw [hother m heq]
      exact ((ih hnd.2 hmem').append_left _).trans perm_middle

theorem nearest_mem {found : PyDecimal × PyStr}
    (h : nearest distance medoids item = .ok found) : found.2 ∈ medoids := by
  simp only [nearest, bind_ok] at h
  obtain ⟨ranked, hranked, hfound⟩ := h
  obtain ⟨medoid, hmem, hp⟩ := mem_of_mapM_right hranked (mem_of_minBy hfound)
  obtain ⟨d, -, rfl⟩ := map_ok.mp hp
  exact hmem

/-- These records have been assigned to these medoids, or left over. -/
structure Clusters (medoids ids : List PyStr) (clustering : Clustering) : Prop where
  perm : (medoids.flatMap clustering.members ++ clustering.residual).Perm ids
  empty : ∀ medoid, medoid ∉ medoids → clustering.members medoid = []

variable {radius : Option PyDecimal}

/-- **One record more is assigned.** -/
theorem Clusters.assign {medoids ids : List PyStr} {clustering clustering' : Clustering}
    (hnd : medoids.Nodup) (hs : Clusters medoids ids clustering)
    (h : Srfd.assign distance radius medoids clustering item = .ok clustering') :
    Clusters medoids (ids ++ [item]) clustering' := by
  obtain ⟨found, hfound, rfl⟩ := map_ok.mp h
  have hmem := nearest_mem hfound
  split
  · refine ⟨?_, hs.empty⟩
    change (medoids.flatMap clustering.members ++ (clustering.residual ++ [item])).Perm _
    rw [← append_assoc]
    exact hs.perm.append_right _
  · -- the members of the medoid that was found grow by the record
    have hmems : ∀ m, Clustering.members ⟨clustering.assignments.set found.2
        (clustering.members found.2 ++ [item]), clustering.residual⟩ m =
          if found.2 = m then clustering.members found.2 ++ [item] else clustering.members m := by
      intro m
      rw [Clustering.members, Dict.get?_set]
      split <;> rfl
    refine ⟨?_, ?_⟩
    · have hself := (hmems found.2).trans (if_pos rfl)
      have hgrow := flatMap_add_perm hnd hmem hself fun m hm =>
        (hmems m).trans (if_neg (Ne.symm hm))
      refine (hgrow.append_right _).trans ?_
      exact (hs.perm.cons item).trans (perm_append_singleton item _).symm
    · intro m hm
      rw [hmems, if_neg]
      · exact hs.empty m hm
      · rintro rfl
        exact hm hmem

variable {clustering : Clustering}

/-- **Every record of the population is assigned or left over.** -/
theorem clusters_of_cluster {ids medoids : List PyStr} (hnd : medoids.Nodup)
    (h : cluster distance ids radius medoids = .ok clustering) :
    Clusters medoids ids clustering := by
  have hfold : ∀ (items done : List PyStr) (s s' : Clustering), Clusters medoids done s →
      items.foldlM (Srfd.assign distance radius medoids) s = .ok s' →
      Clusters medoids (done ++ items) s' := by
    intro items
    induction items with
    | nil =>
      intro done s s' hs h
      cases h
      rwa [append_nil]
    | cons item items ih =>
      intro done s s' hs h
      rw [foldlM_cons, bind_ok] at h
      obtain ⟨next, hnext, h⟩ := h
      have hall := ih _ _ _ (hs.assign hnd hnext) h
      rwa [append_assoc] at hall
  have hempty : ∀ m, Clustering.members ⟨medoids.map fun medoid => (medoid, []), []⟩ m = [] := by
    intro m
    change (Dict.get? (medoids.map fun medoid => (medoid, ([] : List PyStr))) m).getD [] = []
    clear hnd h hfold
    induction medoids with
    | nil => rfl
    | cons medoid medoids ih =>
      rw [map_cons, Dict.get?_cons]
      split
      · rfl
      · exact ih
  refine hfold ids [] _ _ ⟨?_, fun m _ => hempty m⟩ h
  simp [hempty]

/-! ## The medoids -/

/-- The medoids that this many updates make of these. -/
def medoidsFrom (distance : Metric) (ids : List PyStr) (k : Nat) (radius : Option PyDecimal) :
    List PyStr → Nat → Except Error (List PyStr)
  | medoids, 0 => .ok medoids
  | medoids, n + 1 => do
    let clustering ← cluster distance ids radius medoids
    let next ← nextMedoids distance ids k clustering medoids
    medoidsFrom distance ids k radius next.1 n

variable {ids : List PyStr}

theorem nodup_of_fill {n : Nat} {updated filled : List PyStr} (hupdated : updated.Nodup)
    (h : fill ids n updated = .ok filled) : filled.Nodup := by
  induction n generalizing updated with
  | zero =>
    cases h
    exact hupdated
  | succ n ih =>
    rw [fill] at h
    split at h
    · rename_i item hitem
      have hnew := find?_some hitem
      refine ih (Nodup.append hupdated (nodup_singleton item) ?_) h
      simpa using hnew
    · cases h

/-- **An update**: it leaves the medoids as they are and ends the loop, or goes on with distinct
ones. -/
theorem nextMedoids_ok {next : List PyStr × Bool}
    (h : nextMedoids distance ids k clustering medoids = .ok next) :
    (next = (medoids, false)) ∨ (next.2 = true ∧ next.1.Nodup) := by
  simp only [nextMedoids, bind_ok] at h
  obtain ⟨recentered, -, h⟩ := h
  split at h
  · exact .inl (Except.ok.inj h).symm
  · simp only [bind_ok, pure_ok] at h
    obtain ⟨filled, hfilled, rfl⟩ := h
    refine .inr ⟨rfl, (sortedBy_perm id _).nodup_iff.mpr ?_⟩
    exact (nodup_of_fill (sortedSet_nodup recentered) hfilled).sublist (take_sublist k filled)

/-- Medoids that an update leaves as they are stay for ever. -/
theorem medoidsFrom_of_fixed {again : Bool}
    (hclus : cluster distance ids radius medoids = .ok clustering)
    (hnext : nextMedoids distance ids k clustering medoids = .ok (medoids, again)) (n : Nat) :
    medoidsFrom distance ids k radius medoids n = .ok medoids := by
  induction n with
  | zero => rfl
  | succ n ih =>
    rw [medoidsFrom, hclus]
    simp only [bind, Except.bind, hnext]
    exact ih

/-- **What the loop returns**: the clustering around the medoids that the last allowed pass reads,
and the medoids that this pass makes of them. -/
theorem pamLoop_spec {n : Nat} {start : List PyStr} {s : Pam} (hstart : start.Nodup)
    (h : loop (pamPass distance ids k radius) (n + 1) ⟨start, clustering⟩ = .ok s) :
    ∃ medoids next, medoidsFrom distance ids k radius start n = .ok medoids ∧
      medoids.Nodup ∧ cluster distance ids radius medoids = .ok s.clustering ∧
      nextMedoids distance ids k s.clustering medoids = .ok next ∧ s.medoids = next.1 ∧
      s.medoids.Nodup := by
  induction n generalizing start clustering with
  | zero =>
    rw [loop] at h
    split at h
    · cases h
    all_goals
      rename_i s' hpass
      cases h
      simp only [pamPass, bind_ok] at hpass
      obtain ⟨clustering, hclus, hpass⟩ := hpass
      obtain ⟨next, hnext, heq⟩ := map_ok.mp hpass
      obtain ⟨rfl, -⟩ := Prod.mk.inj heq
      refine ⟨start, next, rfl, hstart, hclus, hnext, rfl, ?_⟩
      rcases nextMedoids_ok hnext with rfl | ⟨-, hnd⟩
      · exact hstart
      · exact hnd
  | succ n ih =>
    rw [loop] at h
    split at h
    · cases h
    · rename_i s' hpass
      simp only [pamPass, bind_ok] at hpass
      obtain ⟨clustering, hclus, hpass⟩ := hpass
      obtain ⟨next, hnext, heq⟩ := map_ok.mp hpass
      obtain ⟨rfl, hagain⟩ := Prod.mk.inj heq
      rcases nextMedoids_ok hnext with rfl | ⟨-, hnd⟩
      · cases hagain
      · obtain ⟨medoids, next', hmeds, hrest⟩ := ih hnd h
        refine ⟨medoids, next', ?_, hrest⟩
        rw [medoidsFrom, hclus]
        simp only [bind, Except.bind, hnext]
        exact hmeds
    · rename_i s' hpass
      cases h
      simp only [pamPass, bind_ok] at hpass
      obtain ⟨clustering, hclus, hpass⟩ := hpass
      obtain ⟨next, hnext, heq⟩ := map_ok.mp hpass
      obtain ⟨rfl, hagain⟩ := Prod.mk.inj heq
      rcases nextMedoids_ok hnext with rfl | ⟨htrue, -⟩
      · exact ⟨start, _, medoidsFrom_of_fixed hclus hnext (n + 1), hstart, hclus,
          hnext, rfl, hstart⟩
      · rw [hagain] at htrue
        cases htrue

/-! ## When no record is lost -/

/-- The last allowed pass keeps every medoid that it has assigned records to. -/
def KeepsMembers (distance : Metric) (ids : List PyStr) (k : Nat) (radius : Option PyDecimal)
    (maxIterations : Nat) : Prop :=
  ∀ medoids clustering next,
    medoidsFrom distance ids k radius (ids.take k) (maxIterations - 1) = .ok medoids →
    cluster distance ids radius medoids = .ok clustering →
    nextMedoids distance ids k clustering medoids = .ok next →
    ∀ medoid ∈ medoids, clustering.members medoid ≠ [] → medoid ∈ next.1

/-- The members of the medoids that stay, and of those that go. -/
theorem flatMap_members_perm {medoids next ids : List PyStr} (hmeds : medoids.Nodup)
    (hnext : next.Nodup) (hc : Clusters medoids ids clustering) :
    (next.flatMap clustering.members).Perm
      ((medoids.filter fun medoid => medoid ∈ next).flatMap clustering.members) := by
  -- the new medoids have no members
  have hold : (next.flatMap clustering.members).Perm
      ((next.filter fun medoid => medoid ∈ medoids).flatMap clustering.members) := by
    refine Perm.of_eq ?_
    clear hnext
    induction next with
    | nil => rfl
    | cons m next ih =>
      rw [flatMap_cons, ih]
      by_cases hm : m ∈ medoids
      · rw [filter_cons_of_pos (by simpa using hm), flatMap_cons]
      · rw [filter_cons_of_neg (by simpa using hm), hc.empty m hm, nil_append]
  refine hold.trans (Perm.flatMap_right _ ?_)
  rw [perm_ext_iff_of_nodup (hnext.filter _) (hmeds.filter _)]
  intro m
  simp [and_comm]

/-- **The medoids that are returned have all the members iff every medoid with members stays.** -/
theorem members_perm_iff {medoids next ids : List PyStr} (hmeds : medoids.Nodup)
    (hnext : next.Nodup) (hc : Clusters medoids ids clustering) :
    (next.flatMap clustering.members ++ clustering.residual).Perm ids ↔
      ∀ medoid ∈ medoids, clustering.members medoid ≠ [] → medoid ∈ next := by
  have hkept := flatMap_members_perm hmeds hnext hc
  have hsplit := (filter_append_perm (fun medoid => decide (medoid ∈ next)) medoids).flatMap_right
    clustering.members
  rw [flatMap_append] at hsplit
  have hlost : (next.flatMap clustering.members ++ clustering.residual).Perm ids ↔
      (medoids.filter fun medoid => !decide (medoid ∈ next)).flatMap clustering.members = [] := by
    constructor
    · intro hall
      have hlen := (hall.trans hc.perm.symm).length_eq
      have hkept' := hkept.length_eq
      have hsplit' := hsplit.length_eq
      simp only [length_append] at hlen hkept' hsplit'
      exact length_eq_zero_iff.mp (by omega)
    · intro hnone
      rw [hnone, append_nil] at hsplit
      exact ((hkept.trans hsplit).append_right _).trans hc.perm
  rw [hlost, flatMap_eq_nil_iff]
  constructor
  · intro h medoid hmem hne
    by_contra hnot
    exact hne (h medoid (mem_filter.mpr ⟨hmem, by simpa using hnot⟩))
  · intro h medoid hmem
    obtain ⟨hmem, hnot⟩ := mem_filter.mp hmem
    by_contra hne
    simp [h medoid hmem hne] at hnot

/-- **The catalogue of medoids** partitions the population iff their members and the residual do. -/
theorem pamCatalog_partitions_iff {medoids residual : List PyStr} {members : PyStr → List PyStr}
    (hnd : (medoids.flatMap members ++ residual).Nodup) {c : FamilyCatalog}
    (h : pamCatalog P spec matrix medoids members residual = .ok c) :
    Partitions c matrix.ids ↔ (medoids.flatMap members ++ residual).Perm matrix.ids := by
  simp only [pamCatalog, bind_ok] at h
  obtain ⟨families, hfams, hc⟩ := h
  have hsplit := (filter_append_perm (fun medoid =>
    decide (spec.minimumSupport ≤ ((members medoid).length : Int))) medoids).flatMap_right members
  rw [flatMap_append] at hsplit
  simp only [← decide_not] at hsplit
  have hfam : (families.flatMap Family.memberIds).Perm ((medoids.filter fun medoid =>
      spec.minimumSupport ≤ ((members medoid).length : Int)).flatMap members) := by
    rw [mapM_ok_iff] at hfams
    clear hc hsplit
    generalize (medoids.filter fun medoid =>
      spec.minimumSupport ≤ ((members medoid).length : Int)) = supported at hfams
    induction hfams with
    | nil => exact .nil
    | cons hf _ ih =>
      rw [flatMap_cons, flatMap_cons]
      exact (memberIds_of_family hf).append ih
  have hall : (families.flatMap Family.memberIds ++ (residual ++ (medoids.filter fun medoid =>
      ¬ spec.minimumSupport ≤ ((members medoid).length : Int)).flatMap members)).Perm
        (medoids.flatMap members ++ residual) := by
    refine (hfam.append perm_append_comm).trans ?_
    rw [← append_assoc]
    exact hsplit.append_right _
  rw [catalog_partitions_iff hc (nodup_append.mp (hall.nodup_iff.mpr hnd)).2.1]
  exact ⟨fun h => hall.symm.trans h, fun h => hall.trans h⟩

/-- **The catalogue of a loop partitions the population iff the last pass keeps what it has assigned
to.** -/
theorem partitions_iff_keepsMembers {n : Nat} {s : Pam}
    (hs : pamLoop distance matrix.ids k radius n = .ok s) (hn : 1 ≤ n) {c : FamilyCatalog}
    (hc : pamCatalog P spec matrix s.medoids s.clustering.members s.clustering.residual = .ok c) :
    Partitions c matrix.ids ↔ KeepsMembers distance matrix.ids k radius n := by
  obtain ⟨n, rfl⟩ := Nat.exists_eq_add_of_le' hn
  have hstart : (matrix.ids.take k).Nodup := matrix.nodup.sublist (take_sublist k _)
  obtain ⟨medoids, next, hmedoids, hnd, hclus, hnext, hmeds, hnd'⟩ :=
    pamLoop_spec hstart hs
  have hcls := clusters_of_cluster hnd hclus
  have hmems : (s.medoids.flatMap s.clustering.members ++ s.clustering.residual).Nodup := by
    have hkept := flatMap_members_perm hnd hnd' hcls
    have hsub := (filter_sublist (p := fun medoid => decide (medoid ∈ s.medoids))
      (l := medoids)).flatMap s.clustering.members
    exact ((hkept.append_right _).nodup_iff).mpr
      ((hcls.perm.nodup_iff.mpr matrix.nodup).sublist (hsub.append (.refl _)))
  rw [pamCatalog_partitions_iff hmems hc, members_perm_iff hnd hnd' hcls]
  constructor
  · intro h medoids' clustering' next' hm hcl hne
    cases hmedoids.symm.trans hm
    cases hclus.symm.trans hcl
    cases hnext.symm.trans hne
    rw [← hmeds]
    exact h
  · intro h
    rw [hmeds]
    exact h medoids s.clustering next hmedoids hclus hnext

end OvcReplay.Srfd
