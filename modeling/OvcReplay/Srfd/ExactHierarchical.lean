import OvcReplay.Srfd.Coverage
import OvcReplay.Srfd.Hierarchical

/-! # Hierarchical families with exact distances

`hierarchical` and `hierarchical_optimized` with every distance read as the rational number that it
is: sums and means are exact, where the decimal context rounds them. -/

namespace OvcReplay.Srfd.Exact

open List Python OvcReplay.Lists

variable (P : Platform)

/-- `max(xs)`. -/
def maxOf : List Rat → Except Error Rat
  | [] => .error (.python .valueError)
  | x :: xs => .ok (xs.foldl max x)

/-! ## The reference -/

variable (matrix : DistanceMatrix)

/-- `cluster_distance`. -/
def clusterDistance (linkage : Linkage) (left right : Cluster) :
    Except Error Rat := do
  let distances ← (left.flatMap fun a => right.map fun b => (a, b)).mapM fun p =>
    (matrix.distance P p.1 p.2).map PyDecimal.rat
  match linkage with
  | .complete => maxOf distances
  | .average => return distances.sum / distances.length

/-- Two clusters that may be merged, by their positions. -/
structure Merge where
  distance : Rat
  merged : Cluster
  i : Nat
  j : Nat

/-- The key of `min`. -/
def Merge.key (m : Merge) : Rat ×ₗ Cluster := toLex (m.distance, m.merged)

/-- The body of the `while` loop. -/
def hierarchicalPass (linkage : Linkage) (radius : PyDecimal)
    (clusters : List Cluster) : Except Error (List Cluster × Bool) :=
  if clusters.length ≤ 1 then .ok (clusters, false)
  else do
    let candidates ← (pairs (List.range clusters.length)).mapM fun p => do
      let left := clusters.getD p.1 []
      let right := clusters.getD p.2 []
      let distance ← clusterDistance P matrix linkage left right
      return (⟨distance, sortedBy id (left ++ right), p.1, p.2⟩ : Merge)
    let best ← minBy Merge.key candidates
    if radius.rat < best.distance then .ok (clusters, false)
    else .ok (sortedBy id (without clusters best.i best.j ++ [best.merged]), true)

/-- `hierarchical`. -/
def hierarchical (spec : FamilyMethodSpec) :
    Except Error FamilyCatalog := do
  let (radius, linkage) ← hierarchicalParameters P spec
  let clusters ← loop (hierarchicalPass P matrix linkage radius) matrix.ids.length
    (matrix.ids.map fun item => [item])
  clusterCatalog P spec matrix clusters

/-! ## The optimized version -/

/-- An entry of the heap; the heap is the list of its entries in their order. -/
structure HeapEntry where
  distance : Rat
  merged : Cluster
  left : Cluster
  right : Cluster

/-- The tuple the entries are compared by. -/
def HeapEntry.key (entry : HeapEntry) : Rat ×ₗ Cluster ×ₗ Cluster ×ₗ Cluster :=
  toLex (entry.distance, toLex (entry.merged, toLex (entry.left, entry.right)))

/-- `heapq.heappush`. -/
def heappush (heap : List HeapEntry) (entry : HeapEntry) : List HeapEntry :=
  sortedBy HeapEntry.key (entry :: heap)

/-- The clusters, what is known of their distances, and the merges to come. -/
structure Agglomeration where
  active : List Cluster
  distances : Dict (Cluster × Cluster) Rat
  averages : Dict (Cluster × Cluster) (Rat × Nat)
  heap : List HeapEntry

/-- One pair of single records. -/
def Agglomeration.start (prepared : PreparedDistanceMatrix) (linkage : Linkage) (s : Agglomeration)
    (p : Cluster × Cluster) : Except Error Agglomeration :=
  (prepared.distance (p.1.headD []) (p.2.headD [])).map fun distance =>
    { s with
      distances := s.distances.set (clusterPairKey p.1 p.2) distance.rat
      averages := if linkage = .average then
          s.averages.set (clusterPairKey p.1 p.2) (distance.rat, 1)
        else s.averages
      heap := heappush s.heap ⟨distance.rat, sortedBy id (p.1 ++ p.2), p.1, p.2⟩ }

variable (linkage : Linkage)

variable (entry : HeapEntry)

/-- The distance of a merged cluster from another one, and the aggregate it is the mean of. -/
def mergedDistance (s : Agglomeration) (other : Cluster) :
    Except Error (Rat × Option (Rat × Nat)) :=
  let leftKey := clusterPairKey entry.left other
  let rightKey := clusterPairKey entry.right other
  match linkage with
  | .complete => do
    let left ← getItem s.distances leftKey
    let right ← getItem s.distances rightKey
    return (max left right, none)
  | .average => do
    let left ← getItem s.averages leftKey
    let right ← getItem s.averages rightKey
    return ((left.1 + right.1) / (left.2 + right.2 : Nat),
      some (left.1 + right.1, left.2 + right.2))

/-- One cluster beside the merged one. -/
def Agglomeration.relate (s : Agglomeration) (other : Cluster) : Except Error Agglomeration :=
  let key := clusterPairKey entry.merged other
  let ordered := if other < entry.merged then (other, entry.merged) else (entry.merged, other)
  (mergedDistance linkage entry s other).map fun found =>
    { s with
      distances := s.distances.set key found.1
      averages := (found.2.map (s.averages.set key)).getD s.averages
      heap := heappush s.heap
        ⟨found.1, sortedBy id (entry.merged ++ other), ordered.1, ordered.2⟩ }

/-- Both clusters of the entry are active. -/
def Live (active : List Cluster) (entry : HeapEntry) : Prop :=
  entry.left ∈ active ∧ entry.right ∈ active

instance (active : List Cluster) (entry : HeapEntry) : Decidable (Live active entry) :=
  inferInstanceAs (Decidable (_ ∧ _))

/-- The active clusters that an entry does not merge, sorted. -/
def HeapEntry.others (active : List Cluster) : List Cluster :=
  sortedBy id (active.filter fun c => c ≠ entry.left ∧ c ≠ entry.right)

/-- `members.add(member)`. -/
def addMember {α : Type} [DecidableEq α] (members : List α) (member : α) : List α :=
  if member ∈ members then members else members ++ [member]

/-- The body of the `while` loop: entries of clusters that are gone are dropped first. -/
def agglomerationPass (radius : PyDecimal) (s : Agglomeration) :
    Except Error (Agglomeration × Bool) :=
  if s.active.length ≤ 1 then .ok (s, false)
  else
    match s.heap.dropWhile fun entry => ¬ Live s.active entry with
    | [] => .ok ({ s with heap := [] }, false)
    | entry :: heap =>
      if radius.rat < entry.distance then .ok ({ s with heap := heap }, false)
      else
        let others := entry.others s.active
        (others.foldlM (Agglomeration.relate linkage entry)
          { s with active := addMember others entry.merged, heap := heap }).map
            fun next => (next, true)

/-- `hierarchical_optimized`. -/
def hierarchicalOptimized (spec : FamilyMethodSpec) :
    Except Error FamilyCatalog := do
  let (radius, linkage) ← hierarchicalParameters P spec
  let prepared ← PreparedDistanceMatrix.fromMatrix P matrix
  let singles := matrix.ids.map fun item => [item]
  let start ← (pairs (sortedBy id singles)).foldlM (Agglomeration.start prepared linkage)
    ⟨singles, [], [], []⟩
  let s ← loop (agglomerationPass linkage radius) matrix.ids.length start
  clusterCatalog P spec matrix (sortedBy id s.active)

/-! ## Linkage -/

section Linkage

variable {d : PyStr → PyStr → Rat}

/-- The distances between the records of two clusters. -/
def between (d : PyStr → PyStr → Rat) (left right : Cluster) : List Rat :=
  left.flatMap fun a => right.map fun b => d a b

variable {left left' right right' : Cluster}

theorem between_perm (hl : left.Perm left') (hr : right.Perm right') :
    (between d left right).Perm (between d left' right') :=
  (hl.flatMap_right _).trans (List.Perm.flatMap_left _ fun _ _ => hr.map _)

theorem between_append (left left' right : Cluster) :
    between d (left ++ left') right = between d left right ++ between d left' right :=
  flatMap_append

/-- The distances are those of the other direction, in another order. -/
theorem between_comm (hd : ∀ a b, d a b = d b a) (left right : Cluster) :
    (between d left right).Perm (between d right left) := by
  induction left with
  | nil => simp [between]
  | cons a left ih =>
    have hcons : (between d right (a :: left)).Perm
        (right.map (fun b => d b a) ++ between d right left) := by
      clear ih
      induction right with
      | nil => exact .nil
      | cons b right ih =>
        simp only [between, flatMap_cons, map_cons, cons_append] at ih ⊢
        refine .cons _ ?_
        refine (ih.append_left _).trans ?_
        rw [← append_assoc, ← append_assoc]
        exact perm_append_comm.append_right _
    refine .trans ?_ hcons.symm
    show (right.map (fun b => d a b) ++ between d left right).Perm _
    simp only [hd a]
    exact ih.append_left _

theorem between_ne_nil {left right : Cluster} (hl : left ≠ []) (hr : right ≠ []) :
    between d left right ≠ [] := by
  obtain ⟨a, ha⟩ := exists_mem_of_ne_nil _ hl
  obtain ⟨b, hb⟩ := exists_mem_of_ne_nil _ hr
  exact ne_nil_of_mem (mem_flatMap.mpr ⟨a, ha, mem_map_of_mem hb⟩)

/-- The greatest of some numbers. -/
def greatest : List Rat → Rat
  | [] => 0
  | x :: xs => xs.foldl max x

theorem foldl_max (x : Rat) (xs : List Rat) :
    xs.foldl max x ∈ x :: xs ∧ ∀ y ∈ x :: xs, y ≤ xs.foldl max x := by
  induction xs generalizing x with
  | nil => simp
  | cons z xs ih =>
    obtain ⟨hmem, hle⟩ := ih (max x z)
    rw [foldl_cons]
    refine ⟨?_, ?_⟩
    · rcases mem_cons.mp hmem with h | h
      · rw [h]
        rcases max_choice x z with h | h <;> simp [h]
      · exact mem_cons_of_mem _ (mem_cons_of_mem _ h)
    · intro y hy
      have hmax := hle _ mem_cons_self
      rcases mem_cons.mp hy with rfl | hy
      · exact (le_max_left _ _).trans hmax
      · rcases mem_cons.mp hy with rfl | hy
        · exact (le_max_right _ _).trans hmax
        · exact hle y (mem_cons_of_mem _ hy)

theorem greatest_mem {xs : List Rat} (h : xs ≠ []) : greatest xs ∈ xs := by
  cases xs with
  | nil => exact absurd rfl h
  | cons x xs => exact (foldl_max x xs).1

theorem le_greatest {xs : List Rat} {y : Rat} (h : y ∈ xs) : y ≤ greatest xs := by
  cases xs with
  | nil => cases h
  | cons x xs => exact (foldl_max x xs).2 y h

theorem greatest_perm {xs ys : List Rat} (h : xs.Perm ys) : greatest xs = greatest ys := by
  by_cases hnil : xs = []
  · subst hnil
    rw [h.symm.eq_nil]
  · have hnil' : ys ≠ [] := fun hys => hnil (hys ▸ h).eq_nil
    exact le_antisymm (le_greatest (h.mem_iff.mp (greatest_mem hnil)))
      (le_greatest (h.mem_iff.mpr (greatest_mem hnil')))

theorem greatest_append {xs ys : List Rat} (hx : xs ≠ []) (hy : ys ≠ []) :
    greatest (xs ++ ys) = max (greatest xs) (greatest ys) := by
  apply le_antisymm
  · rcases mem_append.mp (greatest_mem (append_ne_nil_of_left_ne_nil hx ys)) with h | h
    · exact (le_greatest h).trans (le_max_left _ _)
    · exact (le_greatest h).trans (le_max_right _ _)
  · exact max_le (le_greatest (mem_append_left _ (greatest_mem hx)))
      (le_greatest (mem_append_right _ (greatest_mem hy)))

/-- **The distance of two clusters.** -/
def linkOf (linkage : Linkage) (d : PyStr → PyStr → Rat) (left right : Cluster) : Rat :=
  match linkage with
  | .complete => greatest (between d left right)
  | .average => (between d left right).sum / (between d left right).length

theorem linkOf_perm {linkage : Linkage} (h : (between d left right).Perm (between d left' right')) :
    linkOf linkage d left right = linkOf linkage d left' right' := by
  cases linkage with
  | complete => exact greatest_perm h
  | average => rw [linkOf, linkOf, h.sum_eq, h.length_eq]

theorem linkOf_comm {linkage : Linkage} (hd : ∀ a b, d a b = d b a) (left right : Cluster) :
    linkOf linkage d left right = linkOf linkage d right left :=
  linkOf_perm (between_comm hd left right)

end Linkage

end OvcReplay.Srfd.Exact
