import OvcReplay.Srfd.MedoidStar

/-! # Hierarchical families

Agglomeration with complete or average linkage, in `families.py` and with a lazy heap in
`families_optimized.py`. A pass merges the two nearest clusters, until they are too far apart. -/

namespace OvcReplay.Srfd

open List Python OvcReplay.Lists

variable (P : Platform)

/-- A cluster: its members, sorted. -/
abbrev Cluster : Type := List PyStr

/-- The linkages. -/
inductive Linkage where
  | complete
  | average
  deriving DecidableEq, Repr

/-- The radius and the linkage of a specification. -/
def hierarchicalParameters (spec : FamilyMethodSpec) : Except Error (PyDecimal × Linkage) :=
  let refused := Error.family (py "DIST_INVALID_PARAMETER")
    (py "hierarchical radius and complete/average linkage required")
  match spec.radius, spec.linkage with
  | some radius, some linkage =>
    if linkage = py "complete" then (dec P radius).map fun r => (r, .complete)
    else if linkage = py "average" then (dec P radius).map fun r => (r, .average)
    else .error refused
  | _, _ => .error refused

/-- The catalogue of clusters: those with enough support are families, the others are residual. -/
def clusterCatalog (spec : FamilyMethodSpec) (matrix : DistanceMatrix) (clusters : List Cluster) :
    Except Error FamilyCatalog := do
  let supported := clusters.filter fun cluster => spec.minimumSupport ≤ (cluster.length : Int)
  let families ← supported.mapM fun cluster =>
    family P (seed spec matrix) cluster "EXEMPLAR_SET" none spec.methodId
  let residual := (clusters.filter fun cluster =>
    ¬ spec.minimumSupport ≤ (cluster.length : Int)).flatten
  catalog P spec matrix families residual []

/-! ## The reference -/

/-- `cluster_distance`. -/
def clusterDistance (matrix : DistanceMatrix) (linkage : Linkage) (left right : Cluster) :
    Except Error PyDecimal := do
  let distances ← (left.flatMap fun a => right.map fun b => (a, b)).mapM fun p =>
    matrix.distance P p.1 p.2
  match linkage with
  | .complete => (PyDecimal.max? distances).mapError .python
  | .average =>
    (sumOf distances >>= fun total =>
      (PyDecimal.divNat total distances.length).mapError .python)

/-- Two clusters that may be merged, by their positions. -/
structure Merge where
  distance : PyDecimal
  merged : Cluster
  i : Nat
  j : Nat

/-- The clusters without those of two positions, the first before the second. -/
def without (clusters : List Cluster) (i j : Nat) : List Cluster :=
  (clusters.eraseIdx j).eraseIdx i

/-- The body of the `while` loop. -/
def hierarchicalPass (matrix : DistanceMatrix) (linkage : Linkage) (radius : PyDecimal)
    (clusters : List Cluster) : Except Error (List Cluster × Bool) :=
  if clusters.length ≤ 1 then .ok (clusters, false)
  else do
    let candidates ← (pairs (List.range clusters.length)).mapM fun p => do
      let left := clusters.getD p.1 []
      let right := clusters.getD p.2 []
      let distance ← clusterDistance P matrix linkage left right
      return (⟨distance, sortedBy id (left ++ right), p.1, p.2⟩ : Merge)
    let best ← minBy (fun m : Merge => toLex (m.distance.rat, m.merged)) candidates
    if radius.rat < best.distance.rat then .ok (clusters, false)
    else .ok (sortedBy id (without clusters best.i best.j ++ [best.merged]), true)

/-- `hierarchical`. -/
def hierarchical (matrix : DistanceMatrix) (spec : FamilyMethodSpec) :
    Except Error FamilyCatalog := do
  let (radius, linkage) ← hierarchicalParameters P spec
  let clusters ← loop (hierarchicalPass P matrix linkage radius) matrix.ids.length
    (matrix.ids.map fun item => [item])
  clusterCatalog P spec matrix clusters

/-! ## The optimized version -/

/-- An entry of the heap; the heap is the list of its entries in their order. -/
structure HeapEntry where
  distance : PyDecimal
  merged : Cluster
  left : Cluster
  right : Cluster

/-- The tuple the entries are compared by. -/
def HeapEntry.key (entry : HeapEntry) : Rat ×ₗ Cluster ×ₗ Cluster ×ₗ Cluster :=
  toLex (entry.distance.rat, toLex (entry.merged, toLex (entry.left, entry.right)))

/-- `heapq.heappush`. -/
def heappush (heap : List HeapEntry) (entry : HeapEntry) : List HeapEntry :=
  sortedBy HeapEntry.key (entry :: heap)

/-- `_cluster_pair_key`. -/
def clusterPairKey (left right : Cluster) : Cluster × Cluster :=
  if left < right then (left, right) else (right, left)

/-- The clusters, what is known of their distances, and the merges to come. -/
structure Agglomeration where
  active : List Cluster
  distances : Dict (Cluster × Cluster) PyDecimal
  averages : Dict (Cluster × Cluster) (PyDecimal × Nat)
  heap : List HeapEntry

/-- `d[key]`. -/
def getItem {κ β : Type} [DecidableEq κ] (d : Dict κ β) (key : κ) : Except Error β :=
  match d.get? key with
  | some v => .ok v
  | none => .error (.python .keyError)

/-- One pair of single records. -/
def Agglomeration.start (prepared : PreparedDistanceMatrix) (linkage : Linkage) (s : Agglomeration)
    (p : Cluster × Cluster) : Except Error Agglomeration :=
  (prepared.distance (p.1.headD []) (p.2.headD [])).map fun distance =>
    { s with
      distances := s.distances.set (clusterPairKey p.1 p.2) distance
      averages := if linkage = .average then
          s.averages.set (clusterPairKey p.1 p.2) (distance, 1)
        else s.averages
      heap := heappush s.heap ⟨distance, sortedBy id (p.1 ++ p.2), p.1, p.2⟩ }

/-- The distance of a merged cluster from another one, and the aggregate it is the mean of. -/
def mergedDistance (linkage : Linkage) (entry : HeapEntry) (s : Agglomeration) (other : Cluster) :
    Except Error (PyDecimal × Option (PyDecimal × Nat)) :=
  let leftKey := clusterPairKey entry.left other
  let rightKey := clusterPairKey entry.right other
  match linkage with
  | .complete => do
    let left ← getItem s.distances leftKey
    let right ← getItem s.distances rightKey
    return (left.larger right, none)
  | .average => do
    let left ← getItem s.averages leftKey
    let right ← getItem s.averages rightKey
    let total ← (PyDecimal.add left.1 right.1).mapError .python
    let distance ← (PyDecimal.divNat total (left.2 + right.2)).mapError .python
    return (distance, some (total, left.2 + right.2))

/-- One cluster beside the merged one. -/
def Agglomeration.relate (linkage : Linkage) (entry : HeapEntry) (s : Agglomeration)
    (other : Cluster) : Except Error Agglomeration :=
  let key := clusterPairKey entry.merged other
  let ordered := if other < entry.merged then (other, entry.merged) else (entry.merged, other)
  (mergedDistance linkage entry s other).map fun found =>
    { s with
      distances := s.distances.set key found.1
      averages := (found.2.map (s.averages.set key)).getD s.averages
      heap := heappush s.heap
        ⟨found.1, sortedBy id (entry.merged ++ other), ordered.1, ordered.2⟩ }

/-- The body of the `while` loop: entries of clusters that are gone are dropped first. -/
def agglomerationPass (linkage : Linkage) (radius : PyDecimal) (s : Agglomeration) :
    Except Error (Agglomeration × Bool) :=
  if s.active.length ≤ 1 then .ok (s, false)
  else
    match s.heap.dropWhile fun entry => ¬ (entry.left ∈ s.active ∧ entry.right ∈ s.active) with
    | [] => .ok ({ s with heap := [] }, false)
    | entry :: heap =>
      if radius.rat < entry.distance.rat then .ok ({ s with heap := heap }, false)
      else
        let others := sortedBy id (s.active.filter fun c => c ≠ entry.left ∧ c ≠ entry.right)
        let active := if entry.merged ∈ others then others else others ++ [entry.merged]
        (others.foldlM (Agglomeration.relate linkage entry)
          { s with active := active, heap := heap }).map fun next => (next, true)

/-- `hierarchical_optimized`. -/
def hierarchicalOptimized (matrix : DistanceMatrix) (spec : FamilyMethodSpec) :
    Except Error FamilyCatalog := do
  let (radius, linkage) ← hierarchicalParameters P spec
  let prepared ← PreparedDistanceMatrix.fromMatrix P matrix
  let singles := matrix.ids.map fun item => [item]
  let start ← (pairs (sortedBy id singles)).foldlM (Agglomeration.start prepared linkage)
    ⟨singles, [], [], []⟩
  let s ← loop (agglomerationPass linkage radius) matrix.ids.length start
  clusterCatalog P spec matrix (sortedBy id s.active)

/-! ## Clusters partition the population -/

variable {P} {matrix : DistanceMatrix} {spec : FamilyMethodSpec} {linkage : Linkage}
  {radius : PyDecimal}

variable {clusters : List Cluster} {c : FamilyCatalog}

/-- **The catalogue of clusters partitions what the clusters partition.** -/
theorem partitions_clusterCatalog (hcls : clusters.flatten.Perm matrix.ids)
    (h : clusterCatalog P spec matrix clusters = .ok c) : Partitions c matrix.ids := by
  simp only [clusterCatalog, bind_ok] at h
  obtain ⟨families, hfams, hc⟩ := h
  -- the clusters with enough support, and the others
  have hsplit := ((filter_append_perm (fun cluster : Cluster =>
    decide (spec.minimumSupport ≤ (cluster.length : Int))) clusters).flatten).trans hcls
  rw [flatten_append] at hsplit
  have hmems : (families.flatMap Family.memberIds).Perm (clusters.filter fun cluster =>
      spec.minimumSupport ≤ (cluster.length : Int)).flatten := by
    rw [mapM_ok_iff] at hfams
    clear hc hsplit
    generalize (clusters.filter fun cluster =>
      spec.minimumSupport ≤ (cluster.length : Int)) = supported at hfams
    induction hfams with
    | nil => exact .nil
    | cons hf _ ih =>
      rw [flatMap_cons, flatten_cons]
      exact (memberIds_of_family hf).append ih
  have hresidual := (nodup_append.mp (hsplit.nodup_iff.mpr matrix.nodup)).2.1
  simp only [← decide_not] at hsplit hresidual
  rw [catalog_partitions_iff hc hresidual]
  exact (hmems.append_right _).trans hsplit

/-! ### The reference -/

/-- Two clusters and the others. -/
theorem without_perm {i j : Nat} (hij : i < j) (hj : j < clusters.length) :
    (clusters.getD i [] :: clusters.getD j [] :: without clusters i j).Perm clusters := by
  have hi : i < (clusters.eraseIdx j).length := by
    rw [length_eraseIdx_of_lt hj]
    omega
  have hget : (clusters.eraseIdx j)[i] = clusters.getD i [] := by
    rw [getElem_eraseIdx_of_lt hi hij, getD_eq_getElem?_getD,
      getElem?_eq_getElem (by omega)]
    rfl
  have houter := getElem_cons_eraseIdx_perm (l := clusters) hj
  have hinner := getElem_cons_eraseIdx_perm (l := clusters.eraseIdx j) hi
  rw [hget] at hinner
  have hgetj : clusters.getD j [] = clusters[j] := by
    rw [getD_eq_getElem?_getD, getElem?_eq_getElem hj]
    rfl
  rw [hgetj]
  exact (Perm.swap _ _ _).trans ((hinner.cons _).trans houter)

/-- **One pass of the reference keeps the records of the clusters.** -/
theorem hierarchicalPass_perm {clusters clusters' : List Cluster} {again : Bool}
    (h : hierarchicalPass P matrix linkage radius clusters = .ok (clusters', again)) :
    clusters'.flatten.Perm clusters.flatten := by
  rw [hierarchicalPass] at h
  split at h
  · cases h
    exact .refl _
  · simp only [bind_ok] at h
    obtain ⟨candidates, hcands, best, hbest, h⟩ := h
    split at h
    · cases h
      exact .refl _
    · cases h
      obtain ⟨p, hp, hmerge⟩ := mem_of_mapM_right hcands (mem_of_minBy hbest)
      simp only [bind_ok, pure_ok] at hmerge
      obtain ⟨distance, -, rfl⟩ := hmerge
      have hlt : p.1 < p.2 := rel_of_mem_pairs pairwise_lt_range hp
      have hj : p.2 < clusters.length := mem_range.mp (mem_of_mem_pairs hp).2
      have hall := (without_perm hlt hj).flatten
      rw [flatten_cons, flatten_cons, ← append_assoc] at hall
      refine ((sortedBy_perm id _).flatten).trans ?_
      rw [flatten_append, flatten_singleton]
      exact (perm_append_comm.trans ((sortedBy_perm id _).append_right _)).trans hall

/-- **`hierarchical` partitions its population.** -/
theorem partitions_hierarchical (h : hierarchical P matrix spec = .ok c) :
    Partitions c matrix.ids := by
  simp only [hierarchical, bind_ok] at h
  obtain ⟨⟨radius, linkage⟩, -, clusters, hcls, hc⟩ := h
  refine partitions_clusterCatalog ?_ hc
  refine loop_invariant (I := fun clusters : List Cluster => clusters.flatten.Perm matrix.ids) ?_ ?_
    hcls
  · intro s s' again hs hpass
    exact (hierarchicalPass_perm hpass).trans hs
  · rw [← flatMap_def, flatMap_singleton']

/-! ### The optimized version -/

/-- The clusters share no record, none is empty, and an entry merges two different clusters. -/
structure Coherent (ids : List PyStr) (s : Agglomeration) : Prop where
  perm : s.active.flatten.Perm ids
  nonempty : ∀ c ∈ s.active, c ≠ []
  merged : ∀ entry ∈ s.heap, entry.merged.Perm (entry.left ++ entry.right)
  distinct : ∀ entry ∈ s.heap, entry.left ≠ entry.right

/-- Clusters of distinct records have a record in common only if they are the same. -/
theorem eq_of_mem_of_mem (hnd : clusters.flatten.Nodup) {c c' : Cluster} (hc : c ∈ clusters)
    (hc' : c' ∈ clusters) {x : PyStr} (hx : x ∈ c) (hx' : x ∈ c') : c = c' := by
  by_contra hne
  have hdisj := (nodup_flatten.mp hnd).2
  have : Std.Symm (@List.Disjoint PyStr) := ⟨fun _ _ h => h.symm⟩
  exact hdisj.forall hc hc' hne hx hx'

theorem nodup_of_flatten (hnd : clusters.flatten.Nodup) (hne : ∀ c ∈ clusters, c ≠ []) :
    clusters.Nodup := by
  refine ((nodup_flatten.mp hnd).2.imp_of_mem fun {a b} ha _ hab heq => ?_)
  subst heq
  obtain ⟨x, hx⟩ := exists_mem_of_ne_nil _ (hne a ha)
  exact hab hx hx

theorem mem_heappush {heap : List HeapEntry} {entry e : HeapEntry} :
    e ∈ heappush heap entry ↔ e = entry ∨ e ∈ heap := by
  rw [heappush, mem_sortedBy, mem_cons]

variable {s s' : Agglomeration} {ids : List PyStr}

/-- Relating the merged cluster to the others changes no cluster. -/
theorem Coherent.relate {entry : HeapEntry} {others : List Cluster}
    (hothers : ∀ other ∈ others, other ≠ entry.merged) (hs : Coherent ids s)
    (h : others.foldlM (Agglomeration.relate linkage entry) s = .ok s') : Coherent ids s' := by
  induction others generalizing s with
  | nil =>
    cases h
    exact hs
  | cons other others ih =>
    rw [foldlM_cons, bind_ok] at h
    obtain ⟨next, hnext, h⟩ := h
    refine ih (fun o ho => hothers o (mem_cons_of_mem _ ho)) ?_ h
    obtain ⟨found, -, rfl⟩ := map_ok.mp hnext
    have hne := hothers other (by simp)
    refine ⟨hs.perm, hs.nonempty, ?_, ?_⟩
    · intro e he
      rcases mem_heappush.mp he with rfl | he
      · refine (sortedBy_perm id _).trans ?_
        dsimp only
        split
        · exact perm_append_comm
        · exact .refl _
      · exact hs.merged e he
    · intro e he
      rcases mem_heappush.mp he with rfl | he
      · dsimp only
        split
        · exact hne
        · exact Ne.symm hne
      · exact hs.distinct e he

/-- **One pass of the optimized version keeps the records of the clusters.** -/
theorem Coherent.pass (hids : ids.Nodup) {again : Bool} (hs : Coherent ids s)
    (h : agglomerationPass linkage radius s = .ok (s', again)) :
    Coherent ids s' := by
  rw [agglomerationPass] at h
  split at h
  · cases h
    exact hs
  · split at h
    · cases h
      exact ⟨hs.perm, hs.nonempty, by simp, by simp⟩
    · rename_i entry heap hheap
      have hsub : ∀ e ∈ entry :: heap, e ∈ s.heap := fun e he =>
        (dropWhile_sublist _).subset (hheap ▸ he)
      have hheap' : ∀ e ∈ heap, e ∈ s.heap := fun e he => hsub e (mem_cons_of_mem _ he)
      split at h
      · cases h
        exact ⟨hs.perm, hs.nonempty, fun e he => hs.merged e (hheap' e he),
          fun e he => hs.distinct e (hheap' e he)⟩
      · obtain ⟨next, hnext, heq⟩ := map_ok.mp h
        cases heq
        have hmem : entry ∈ s.heap := hsub entry (by simp)
        -- the first entry that was kept merges two clusters that are there
        obtain ⟨hleft, hright⟩ : entry.left ∈ s.active ∧ entry.right ∈ s.active := by
          have hhead := head?_dropWhile_not
            (fun entry : HeapEntry => decide ¬ (entry.left ∈ s.active ∧ entry.right ∈ s.active))
            s.heap
          rw [hheap] at hhead
          simpa using hhead
        have hflat := hs.perm.nodup_iff.mpr hids
        have hmerged := hs.merged entry hmem
        have hpair : [entry.left, entry.right].Nodup := by simpa using hs.distinct entry hmem
        have hothers : ∀ other, other ∈ sortedBy id (s.active.filter fun c =>
            c ≠ entry.left ∧ c ≠ entry.right) ↔
              other ∈ s.active ∧ other ≠ entry.left ∧ other ≠ entry.right := by
          intro other
          simp
        -- the merged cluster holds a record of the left one, so it is none of the others
        have hnew : ∀ other ∈ sortedBy id (s.active.filter fun c =>
            c ≠ entry.left ∧ c ≠ entry.right), other ≠ entry.merged := by
          rintro other hother rfl
          obtain ⟨hact, hne, -⟩ := (hothers _).mp hother
          obtain ⟨x, hx⟩ := exists_mem_of_ne_nil _ (hs.nonempty _ hleft)
          exact hne (eq_of_mem_of_mem hflat hact hleft
            (hmerged.mem_iff.mpr (mem_append_left _ hx)) hx)
        refine Coherent.relate hnew ?_ hnext
        have hnot : entry.merged ∉ sortedBy id (s.active.filter fun c =>
            c ≠ entry.left ∧ c ≠ entry.right) := fun hin => hnew _ hin rfl
        rw [if_neg hnot]
        refine ⟨?_, ?_, fun e he => hs.merged e (hheap' e he),
          fun e he => hs.distinct e (hheap' e he)⟩
        · have hsplit := append_filter_notMem_perm hpair (by
            intro c hc
            simp only [mem_cons, not_mem_nil, or_false] at hc
            rcases hc with rfl | rfl
            · exact hleft
            · exact hright) (nodup_of_flatten hflat hs.nonempty)
          have hfilt : (s.active.filter fun c => c ∉ [entry.left, entry.right]) =
              s.active.filter fun c => c ≠ entry.left ∧ c ≠ entry.right := by
            refine filter_congr fun c _ => ?_
            simp
          rw [hfilt] at hsplit
          have hall := hsplit.flatten
          simp only [cons_append, nil_append, flatten_cons] at hall
          rw [← append_assoc] at hall
          rw [flatten_append, flatten_singleton]
          exact (perm_append_comm.trans
            (hmerged.append (sortedBy_perm id _).flatten)).trans (hall.trans hs.perm)
        · intro c hc
          rcases mem_append.mp hc with hc | hc
          · exact hs.nonempty c ((hothers c).mp hc).1
          · obtain rfl := mem_singleton.mp hc
            obtain ⟨x, hx⟩ := exists_mem_of_ne_nil _ (hs.nonempty _ hleft)
            exact ne_nil_of_mem (hmerged.mem_iff.mpr (mem_append_left _ hx))

/-- The heap starts with the pairs of single records. -/
theorem coherent_start {prepared : PreparedDistanceMatrix} {rest : List (Cluster × Cluster)}
    (hrest : ∀ p ∈ rest, p.1 ≠ p.2) (hs : Coherent ids s)
    (h : rest.foldlM (Agglomeration.start prepared linkage) s = .ok s') :
    Coherent ids s' := by
  induction rest generalizing s with
  | nil =>
    cases h
    exact hs
  | cons p rest ih =>
    rw [foldlM_cons, bind_ok] at h
    obtain ⟨next, hnext, h⟩ := h
    refine ih (fun q hq => hrest q (mem_cons_of_mem _ hq)) ?_ h
    obtain ⟨distance, -, rfl⟩ := map_ok.mp hnext
    refine ⟨hs.perm, hs.nonempty, ?_, ?_⟩
    · intro e he
      rcases mem_heappush.mp he with rfl | he
      · exact sortedBy_perm id _
      · exact hs.merged e he
    · intro e he
      rcases mem_heappush.mp he with rfl | he
      · exact hrest p (by simp)
      · exact hs.distinct e he

/-- **`hierarchical_optimized` partitions its population.** -/
theorem partitions_hierarchicalOptimized (h : hierarchicalOptimized P matrix spec = .ok c) :
    Partitions c matrix.ids := by
  simp only [hierarchicalOptimized, bind_ok] at h
  obtain ⟨⟨radius, linkage⟩, -, prepared, -, start, hstart, s, hs, hc⟩ := h
  have hsingles : (matrix.ids.map fun item => [item]).flatten = matrix.ids := by
    rw [← flatMap_def, flatMap_singleton']
  have hnd : (sortedBy id (matrix.ids.map fun item => [item])).Nodup :=
    (sortedBy_perm id _).nodup_iff.mpr (matrix.nodup.map fun _ _ h => singleton_inj.mp h)
  have hcoh : Coherent matrix.ids start := by
    refine coherent_start (fun p hp => rel_of_mem_pairs hnd hp) ⟨?_, ?_, by simp, by simp⟩ hstart
    · rw [hsingles]
    · intro c hc
      obtain ⟨item, -, rfl⟩ := mem_map.mp hc
      exact cons_ne_nil _ _
  have hend := loop_invariant (I := Coherent matrix.ids)
    (fun _ _ _ hs hpass => hs.pass matrix.nodup hpass) hcoh hs
  exact partitions_clusterCatalog ((sortedBy_perm id s.active).flatten.trans hend.perm) hc

end OvcReplay.Srfd
