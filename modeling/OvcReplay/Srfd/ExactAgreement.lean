import OvcReplay.Srfd.ExactHierarchical

/-! # The versions of hierarchical families agree

With exact distances both versions return the same catalogue. They keep the same clusters: the lazy
heap has an entry for every two of them, every entry of it tells the linkage of the clusters it
merges, whether they are still there or not, and the least live entry is the best merge of the
reference, ties included. -/

namespace OvcReplay.Srfd.Exact

open List Python OvcReplay.Lists

variable {P : Platform} {matrix : DistanceMatrix} {spec : FamilyMethodSpec} {linkage : Linkage}
  {radius : PyDecimal} {d : PyStr → PyStr → Rat}

/-! ## Pairs of clusters -/

theorem clusterPairKey_comm (left right : Cluster) :
    clusterPairKey left right = clusterPairKey right left := by
  rw [clusterPairKey, clusterPairKey]
  rcases lt_trichotomy left right with h | rfl | h
  · rw [if_pos h, if_neg h.asymm]
  · rfl
  · rw [if_neg h.asymm, if_pos h]

/-- The key tells the clusters, but not their order. -/
theorem clusterPairKey_eq {a b c e : Cluster} (h : clusterPairKey a b = clusterPairKey c e) :
    (a = c ∧ b = e) ∨ (a = e ∧ b = c) := by
  rw [clusterPairKey, clusterPairKey] at h
  split at h <;> split at h <;> obtain ⟨rfl, rfl⟩ := Prod.mk.inj h <;> simp

/-- What is entered for a pair of clusters is found for it, and spoils no other pair. -/
theorem get?_set_pair {β : Type} {f : Cluster → Cluster → β} (hf : ∀ a b, f a b = f b a)
    {values : Dict (Cluster × Cluster) β} (a b c e : Cluster)
    (h : values.get? (clusterPairKey c e) = some (f c e) ∨ (c = a ∧ e = b)) :
    Dict.get? (values.set (clusterPairKey a b) (f a b)) (clusterPairKey c e) =
      some (f c e) := by
  rw [Dict.get?_set]
  split
  · rename_i heq
    rcases clusterPairKey_eq heq with ⟨rfl, rfl⟩ | ⟨rfl, rfl⟩
    · rfl
    · rw [hf]
  · rename_i hne
    rcases h with h | ⟨rfl, rfl⟩
    · exact h
    · exact absurd rfl hne

/-! ## What is known of the clusters -/

variable (linkage d) in
/-- The linkage of two clusters is entered, with the aggregate it is the mean of. -/
structure Recorded (s : Agglomeration) (left right : Cluster) : Prop where
  distance : s.distances.get? (clusterPairKey left right) = some (linkOf linkage d left right)
  aggregate : linkage = .average → s.averages.get? (clusterPairKey left right) =
    some ((between d left right).sum, (between d left right).length)

variable {s : Agglomeration} {left right : Cluster}

theorem Recorded.swap (hd : ∀ a b, d a b = d b a) (h : Recorded linkage d s left right) :
    Recorded linkage d s right left := by
  refine ⟨?_, fun hl => ?_⟩
  · rw [clusterPairKey_comm, linkOf_comm hd]
    exact h.distance
  · rw [clusterPairKey_comm, (between_comm hd right left).sum_eq,
      (between_comm hd right left).length_eq]
    exact h.aggregate hl

variable (linkage d) in
/-- The entry merges the two clusters. -/
structure HeapEntry.Joins (entry : HeapEntry) (left right : Cluster) : Prop where
  distance : entry.distance = linkOf linkage d left right
  merged : entry.merged = sortedBy id (left ++ right)
  sides : (entry.left = left ∧ entry.right = right) ∨ (entry.left = right ∧ entry.right = left)

variable {entry : HeapEntry}

theorem HeapEntry.Joins.swap (hd : ∀ a b, d a b = d b a) (h : entry.Joins linkage d left right) :
    entry.Joins linkage d right left :=
  ⟨h.distance.trans (linkOf_comm hd _ _),
    h.merged.trans (sortedBy_eq_of_perm (fun _ _ _ _ h => h) perm_append_comm), h.sides.symm⟩

/-- An entry merges its own sides. -/
theorem HeapEntry.Joins.self (hd : ∀ a b, d a b = d b a) (h : entry.Joins linkage d left right) :
    entry.Joins linkage d entry.left entry.right := by
  rcases h.sides with ⟨hl, hr⟩ | ⟨hl, hr⟩
  · rw [hl, hr]
    exact h
  · rw [hl, hr]
    exact h.swap hd

variable {heap : List HeapEntry}

theorem mem_heappush {entry e : HeapEntry} : e ∈ heappush heap entry ↔ e = entry ∨ e ∈ heap := by
  rw [heappush, mem_sortedBy, mem_cons]

variable (linkage d) in
/-- These pairs of clusters were entered. -/
structure Related (ps : List (Cluster × Cluster)) (s s' : Agglomeration) : Prop where
  active : s'.active = s.active
  kept : ∀ left right, Recorded linkage d s left right → Recorded linkage d s' left right
  recorded : ∀ p ∈ ps, Recorded linkage d s' p.1 p.2
  old : ∀ e ∈ s.heap, e ∈ s'.heap
  entered : ∀ p ∈ ps, ∃ e ∈ s'.heap, e.Joins linkage d p.1 p.2
  new : ∀ e ∈ s'.heap, e ∈ s.heap ∨ ∃ p ∈ ps, e.Joins linkage d p.1 p.2
  sorted : s.heap.Pairwise (fun a b => a.key ≤ b.key) → s'.heap.Pairwise fun a b => a.key ≤ b.key

theorem Related.refl (s : Agglomeration) : Related linkage d [] s s :=
  ⟨rfl, fun _ _ h => h, by simp, fun _ h => h, by simp, fun _ h => .inl h, id⟩

theorem Related.cons {p : Cluster × Cluster} {ps : List (Cluster × Cluster)}
    {s t u : Agglomeration} (h : Related linkage d [p] s t) (h' : Related linkage d ps t u) :
    Related linkage d (p :: ps) s u := by
  refine ⟨h'.active.trans h.active, fun left right hr => h'.kept _ _ (h.kept _ _ hr), ?_,
    fun e he => h'.old e (h.old e he), ?_, ?_, fun hs => h'.sorted (h.sorted hs)⟩
  · rw [forall_mem_cons]
    exact ⟨h'.kept _ _ (h.recorded p (by simp)), h'.recorded⟩
  · rw [forall_mem_cons]
    obtain ⟨e, he, hjoins⟩ := h.entered p (by simp)
    exact ⟨⟨e, h'.old e he, hjoins⟩, h'.entered⟩
  · intro e he
    rcases h'.new e he with he | ⟨q, hq, hjoins⟩
    · rcases h.new e he with he | ⟨q, hq, hjoins⟩
      · exact .inl he
      · obtain rfl := mem_singleton.mp hq
        exact .inr ⟨q, mem_cons_self, hjoins⟩
    · exact .inr ⟨q, mem_cons_of_mem _ hq, hjoins⟩

/-- **One pair is entered**: its linkage in the dictionaries, and its merge in the heap. -/
theorem related_of_set (hd : ∀ a b, d a b = d b a) {s s' : Agglomeration}
    (hactive : s'.active = s.active)
    (hdists : s'.distances = s.distances.set (clusterPairKey left right)
      (linkOf linkage d left right))
    (haverages : linkage = .average → s'.averages = s.averages.set (clusterPairKey left right)
      ((between d left right).sum, (between d left right).length))
    (hheap : s'.heap = heappush s.heap entry) (hentry : entry.Joins linkage d left right) :
    Related linkage d [(left, right)] s s' := by
  have haggregate : ∀ a b : Cluster, ((between d a b).sum, (between d a b).length) =
      ((between d b a).sum, (between d b a).length) := fun a b => by
    rw [(between_comm hd a b).sum_eq, (between_comm hd a b).length_eq]
  refine ⟨hactive, fun a b h => ⟨?_, fun hl => ?_⟩, ?_, ?_, ?_, ?_, ?_⟩
  · rw [hdists]
    exact get?_set_pair (linkOf_comm hd) _ _ _ _ (.inl h.distance)
  · rw [haverages hl]
    exact get?_set_pair haggregate left right a b (.inl (h.aggregate hl))
  · intro p hp
    obtain rfl := mem_singleton.mp hp
    refine ⟨?_, fun hl => ?_⟩
    · rw [hdists]
      exact get?_set_pair (linkOf_comm hd) _ _ _ _ (.inr ⟨rfl, rfl⟩)
    · rw [haverages hl]
      exact get?_set_pair haggregate left right left right (.inr ⟨rfl, rfl⟩)
  · intro e he
    rw [hheap]
    exact mem_heappush.mpr (.inr he)
  · intro p hp
    obtain rfl := mem_singleton.mp hp
    rw [hheap]
    exact ⟨entry, mem_heappush.mpr (.inl rfl), hentry⟩
  · intro e he
    rw [hheap] at he
    rcases mem_heappush.mp he with rfl | he
    · exact .inr ⟨_, mem_singleton_self _, hentry⟩
    · exact .inl he
  · intro _
    rw [hheap]
    exact sortedBy_pairwise _ _

variable (linkage d) in
/-- Pairs are entered one after the other. -/
theorem related_foldlM {α : Type} (f : Agglomeration → α → Except Error Agglomeration)
    (pairOf : α → Cluster × Cluster) (I : Agglomeration → Prop) (xs : List α)
    (hkept : ∀ ps s s', Related linkage d ps s s' → I s → I s')
    (hstep : ∀ x ∈ xs, ∀ s, I s → ∃ s', f s x = .ok s' ∧ Related linkage d [pairOf x] s s')
    (hs : I s) :
    ∃ s', xs.foldlM f s = .ok s' ∧ Related linkage d (xs.map pairOf) s s' := by
  induction xs generalizing s with
  | nil => exact ⟨s, rfl, .refl s⟩
  | cons x xs ih =>
    obtain ⟨t, ht, hrelated⟩ := hstep x (by simp) s hs
    obtain ⟨u, hu, hrest⟩ := ih (fun y hy => hstep y (mem_cons_of_mem _ hy))
      (hkept _ _ _ hrelated hs)
    refine ⟨u, ?_, hrelated.cons hrest⟩
    rw [foldlM_cons, ht]
    exact hu

/-! ## Merging two clusters -/

/-- The linkage of a merged cluster, from those of its parts. -/
theorem linkOf_complete_append {left right other : Cluster} (hleft : left ≠ []) (hright : right ≠ [])
    (hother : other ≠ []) : linkOf .complete d (left ++ right) other =
      max (linkOf .complete d left other) (linkOf .complete d right other) := by
  rw [linkOf, between_append]
  exact greatest_append (between_ne_nil hleft hother) (between_ne_nil hright hother)

variable {other : Cluster}

/-- What is entered of the merged cluster is found from what was entered of its parts. -/
theorem mergedDistance_eq (hmerged : entry.merged.Perm (entry.left ++ entry.right))
    (hleft : entry.left ≠ []) (hright : entry.right ≠ []) (hother : other ≠ [])
    (hl : Recorded linkage d s entry.left other) (hr : Recorded linkage d s entry.right other) :
    mergedDistance linkage entry s other = .ok (linkOf linkage d entry.merged other,
      if linkage = .average then some ((between d entry.merged other).sum,
        (between d entry.merged other).length) else none) := by
  have hbetween := between_perm (d := d) hmerged (Perm.refl other)
  have happ := hbetween.trans (.of_eq (between_append entry.left entry.right other))
  cases linkage with
  | complete =>
    rw [linkOf_perm hbetween, linkOf_complete_append hleft hright hother]
    simp only [mergedDistance, getItem, hl.distance, hr.distance]
    rfl
  | average =>
    have hsum := happ.sum_eq
    have hlength := happ.length_eq
    rw [sum_append] at hsum
    rw [length_append] at hlength
    simp only [mergedDistance, getItem, hl.aggregate rfl, hr.aggregate rfl, linkOf, hsum, hlength]
    rfl

/-- The entry of a merged cluster and another one. -/
theorem related_relate (hd : ∀ a b, d a b = d b a)
    (hmerged : entry.merged.Perm (entry.left ++ entry.right)) (hleft : entry.left ≠ [])
    (hright : entry.right ≠ []) (hother : other ≠ []) (hl : Recorded linkage d s entry.left other)
    (hr : Recorded linkage d s entry.right other) :
    ∃ s', Agglomeration.relate linkage entry s other = .ok s' ∧
      Related linkage d [(entry.merged, other)] s s' := by
  rw [Agglomeration.relate, mergedDistance_eq hmerged hleft hright hother hl hr]
  refine ⟨_, rfl, related_of_set hd rfl rfl ?_ rfl ⟨rfl, rfl, ?_⟩⟩
  · intro hl
    rw [if_pos hl]
    rfl
  · dsimp only
    split
    · exact .inr ⟨rfl, rfl⟩
    · exact .inl ⟨rfl, rfl⟩

variable {prepared : PreparedDistanceMatrix}

/-- The entry of two single records. -/
theorem related_start (hd : ∀ a b, d a b = d b a) {a b : PyStr} {distance : PyDecimal}
    (h : prepared.distance a b = .ok distance) (hdistance : distance.rat = d a b)
    (s : Agglomeration) :
    ∃ s', Agglomeration.start prepared linkage s ([a], [b]) = .ok s' ∧
      Related linkage d [([a], [b])] s s' := by
  have hbetween : between d [a] [b] = [d a b] := rfl
  have hlink : linkOf linkage d [a] [b] = distance.rat := by
    rw [hdistance]
    cases linkage with
    | complete => rfl
    | average => simp [linkOf, hbetween]
  have hstart : Agglomeration.start prepared linkage s ([a], [b]) = .ok
      { s with
        distances := s.distances.set (clusterPairKey [a] [b]) distance.rat
        averages := if linkage = .average then
            s.averages.set (clusterPairKey [a] [b]) (distance.rat, 1)
          else s.averages
        heap := heappush s.heap ⟨distance.rat, sortedBy id ([a] ++ [b]), [a], [b]⟩ } := by
    rw [Agglomeration.start]
    simp only [headD_cons, h]
    rfl
  refine ⟨_, hstart, related_of_set hd rfl ?_ ?_ rfl ⟨hlink.symm, rfl, .inl ⟨rfl, rfl⟩⟩⟩
  · rw [hlink]
  · intro hl
    rw [if_pos hl, hbetween]
    simp [hdistance]

/-! ## The best merge -/

variable (P matrix) in
/-- The exact distance of two records. -/
def rationalDist (left right : PyStr) : Rat := (dist P matrix left right).rat

theorem rationalDist_comm (left right : PyStr) :
    rationalDist P matrix left right = rationalDist P matrix right left := by
  rw [rationalDist, rationalDist, dist_comm]

/-- The reference computes the linkage from the distances of the records. -/
theorem clusterDistance_eq (hcomplete : Complete P matrix) (hleft : left ⊆ matrix.ids)
    (hright : right ⊆ matrix.ids) (hl : left ≠ []) (hr : right ≠ []) :
    clusterDistance P matrix linkage left right =
      .ok (linkOf linkage (rationalDist P matrix) left right) := by
  have hdists : ((left.flatMap fun a => right.map fun b => (a, b)).mapM fun p =>
      (matrix.distance P p.1 p.2).map PyDecimal.rat) =
      .ok (between (rationalDist P matrix) left right) := by
    have hbetween : between (rationalDist P matrix) left right =
        (left.flatMap fun a => right.map fun b => (a, b)).map fun p =>
          rationalDist P matrix p.1 p.2 := by
      rw [map_flatMap, between]
      simp only [map_map]
      rfl
    rw [hbetween]
    refine mapM_ok_map fun p hp => ?_
    obtain ⟨a, ha, hp⟩ := mem_flatMap.mp hp
    obtain ⟨b, hb, rfl⟩ := mem_map.mp hp
    show (matrix.distance P a b).map PyDecimal.rat = _
    rw [hcomplete.distance_eq (hleft ha) (hright hb)]
    rfl
  rw [clusterDistance, hdists]
  cases linkage with
  | average => rfl
  | complete =>
    show maxOf _ = .ok (greatest _)
    cases hall : between (rationalDist P matrix) left right with
    | nil => exact absurd hall (between_ne_nil hl hr)
    | cons x xs => rfl

variable (linkage d) in
/-- What merges are compared by: the linkage, then the merged cluster. -/
def mergeKey (left right : Cluster) : Rat ×ₗ Cluster :=
  toLex (linkOf linkage d left right, sortedBy id (left ++ right))

theorem mergeKey_comm (hd : ∀ a b, d a b = d b a) (left right : Cluster) :
    mergeKey linkage d left right = mergeKey linkage d right left := by
  have hunion : sortedBy id (left ++ right) = sortedBy id (right ++ left) :=
    sortedBy_eq_of_perm (fun _ _ _ _ h => h) perm_append_comm
  rw [mergeKey, mergeKey, linkOf_comm hd, hunion]

variable (linkage d) in
/-- No two clusters are better to merge than these two. -/
structure IsBest (clusters : List Cluster) (left right : Cluster) : Prop where
  left_mem : left ∈ clusters
  right_mem : right ∈ clusters
  ne : left ≠ right
  least : ∀ a ∈ clusters, ∀ b ∈ clusters, a ≠ b →
    mergeKey linkage d left right ≤ mergeKey linkage d a b

variable {clusters : List Cluster}

/-- Two clusters are found by their positions, in one of the orders. -/
theorem exists_positions {a b : Cluster} (ha : a ∈ clusters) (hb : b ∈ clusters) (hne : a ≠ b) :
    ∃ p ∈ pairs (List.range clusters.length),
      (clusters.getD p.1 [] = a ∧ clusters.getD p.2 [] = b) ∨
      (clusters.getD p.1 [] = b ∧ clusters.getD p.2 [] = a) := by
  obtain ⟨i, hi, rfl⟩ := getElem_of_mem ha
  obtain ⟨j, hj, rfl⟩ := getElem_of_mem hb
  have hij : i ≠ j := fun h => hne (by simp only [h])
  have hget : ∀ (n : Nat) (hn : n < clusters.length), clusters.getD n [] = clusters[n] := by
    intro n hn
    rw [getD_eq_getElem?_getD, getElem?_eq_getElem hn]
    rfl
  rcases mem_pairs_or (mem_range.mpr hi) (mem_range.mpr hj) hij with hp | hp
  · exact ⟨_, hp, .inl ⟨hget i hi, hget j hj⟩⟩
  · exact ⟨_, hp, .inr ⟨hget j hj, hget i hi⟩⟩

variable (linkage radius) in
/-- **A pass of the reference** merges the best two clusters, unless they are too far apart. -/
theorem hierarchicalPass_eq (hcomplete : Complete P matrix) (hlength : 1 < clusters.length)
    (hnodup : clusters.Nodup) (hmem : ∀ c ∈ clusters, c ≠ [] ∧ c ⊆ matrix.ids) : ∃ left right rest,
      IsBest linkage (rationalDist P matrix) clusters left right ∧
      (left :: right :: rest).Perm clusters ∧
      hierarchicalPass P matrix linkage radius clusters =
        if radius.rat < linkOf linkage (rationalDist P matrix) left right then .ok (clusters, false)
        else .ok (sortedBy id (rest ++ [sortedBy id (left ++ right)]), true) := by
  have hget : ∀ p ∈ pairs (List.range clusters.length),
      clusters.getD p.1 [] ∈ clusters ∧ clusters.getD p.2 [] ∈ clusters := by
    intro p hp
    obtain ⟨hi, hj⟩ := mem_of_mem_pairs hp
    rw [mem_range] at hi hj
    rw [getD_eq_getElem?_getD, getElem?_eq_getElem hi, getD_eq_getElem?_getD,
      getElem?_eq_getElem hj]
    exact ⟨getElem_mem _, getElem_mem _⟩
  have hcandidates : ((pairs (List.range clusters.length)).mapM fun p => do
      let left := clusters.getD p.1 []
      let right := clusters.getD p.2 []
      let distance ← clusterDistance P matrix linkage left right
      return (⟨distance, sortedBy id (left ++ right), p.1, p.2⟩ : Merge)) =
      .ok ((pairs (List.range clusters.length)).map fun p =>
        ⟨linkOf linkage (rationalDist P matrix) (clusters.getD p.1 []) (clusters.getD p.2 []),
          sortedBy id (clusters.getD p.1 [] ++ clusters.getD p.2 []), p.1, p.2⟩) := by
    refine mapM_ok_map fun p hp => ?_
    obtain ⟨hleft, hright⟩ := hget p hp
    simp only [clusterDistance_eq hcomplete (hmem _ hleft).2 (hmem _ hright).2 (hmem _ hleft).1
      (hmem _ hright).1]
    rfl
  have hpairs : pairs (List.range clusters.length) ≠ [] := by
    have hp := mem_pairs_or (mem_range.mpr (Nat.zero_lt_of_lt hlength))
      (mem_range.mpr hlength) Nat.zero_ne_one
    rcases hp with hp | hp <;> exact ne_nil_of_mem hp
  obtain ⟨best, hbest⟩ : Returns (minBy Merge.key ((pairs (List.range clusters.length)).map fun p =>
      (⟨linkOf linkage (rationalDist P matrix) (clusters.getD p.1 []) (clusters.getD p.2 []),
        sortedBy id (clusters.getD p.1 [] ++ clusters.getD p.2 []), p.1, p.2⟩ : Merge))) :=
    returns_minBy (by simpa using hpairs)
  have hleast := key_le_of_minBy hbest
  obtain ⟨p, hp, rfl⟩ := mem_map.mp (mem_of_minBy hbest)
  have hlt : p.1 < p.2 := rel_of_mem_pairs pairwise_lt_range hp
  have hj : p.2 < clusters.length := mem_range.mp (mem_of_mem_pairs hp).2
  have hperm := without_perm hlt hj
  refine ⟨_, _, without clusters p.1 p.2, ⟨(hget p hp).1, (hget p hp).2, ?_, ?_⟩, hperm, ?_⟩
  · intro heq
    have hpair := hperm.nodup_iff.mpr hnodup
    rw [heq] at hpair
    exact (nodup_cons.mp hpair).1 mem_cons_self
  · intro a ha b hb hne
    obtain ⟨q, hq, hsides⟩ := exists_positions ha hb hne
    have hle : mergeKey linkage (rationalDist P matrix) (clusters.getD p.1 [])
        (clusters.getD p.2 []) ≤ mergeKey linkage (rationalDist P matrix) (clusters.getD q.1 [])
        (clusters.getD q.2 []) := hleast _ (mem_map_of_mem hq)
    rcases hsides with ⟨rfl, rfl⟩ | ⟨rfl, rfl⟩
    · exact hle
    · rw [mergeKey_comm rationalDist_comm (clusters.getD q.2 [])]
      exact hle
  · rw [hierarchicalPass, if_neg (by omega), hcandidates]
    show (minBy Merge.key _ >>= fun best => _) = _
    rw [hbest]
    rfl

theorem IsBest.key_eq {left right left' right' : Cluster} (h : IsBest linkage d clusters left right)
    (h' : IsBest linkage d clusters left' right') :
    mergeKey linkage d left right = mergeKey linkage d left' right' :=
  le_antisymm (h.least _ h'.left_mem _ h'.right_mem h'.ne)
    (h'.least _ h.left_mem _ h.right_mem h.ne)

/-- The best merge tells the clusters it merges. -/
theorem IsBest.perm {clusters rest rest' : List Cluster} {left right left' right' : Cluster}
    (hflat : clusters.flatten.Nodup) (hnonempty : ∀ c ∈ clusters, c ≠ [])
    (h : IsBest linkage d clusters left right) (h' : IsBest linkage d clusters left' right')
    (hperm : (left :: right :: rest).Perm clusters)
    (hperm' : (left' :: right' :: rest').Perm clusters) : rest.Perm rest' := by
  have hkey := h.key_eq h'
  have hunion : (left ++ right).Perm (left' ++ right') := by
    have hsorted := (Prod.mk.inj (toLex_inj.mp hkey)).2
    exact ((sortedBy_perm id _).symm.trans (.of_eq hsorted)).trans (sortedBy_perm id _)
  -- each side of the one merge shares a record with a side of the other
  have hside : ∀ c ∈ clusters, c ⊆ left ++ right → c = left' ∨ c = right' := by
    intro c hc hsub
    obtain ⟨x, hx⟩ := exists_mem_of_ne_nil _ (hnonempty c hc)
    rcases mem_append.mp (hunion.subset (hsub hx)) with hx' | hx'
    · exact .inl (eq_of_mem_of_mem hflat hc h'.left_mem hx hx')
    · exact .inr (eq_of_mem_of_mem hflat hc h'.right_mem hx hx')
  have hall := hperm.trans hperm'.symm
  have hne := h.ne
  rcases hside left h.left_mem (subset_append_left _ _) with rfl | rfl <;>
    rcases hside right h.right_mem (subset_append_right _ _) with rfl | rfl
  · exact absurd rfl hne
  · exact (perm_cons _).mp ((perm_cons _).mp hall)
  · exact (perm_cons _).mp ((perm_cons _).mp (hall.trans (.swap _ _ _)))
  · exact absurd rfl hne

theorem IsBest.of_perm {clusters clusters' : List Cluster} (hperm : clusters.Perm clusters')
    (h : IsBest linkage d clusters left right) :
    IsBest linkage d clusters' left right :=
  ⟨hperm.subset h.left_mem, hperm.subset h.right_mem, h.ne, fun a ha b hb =>
    h.least a (hperm.symm.subset ha) b (hperm.symm.subset hb)⟩

/-! ## The lazy heap -/

variable (linkage d) in
/-- The clusters partition the records, every two of them are entered, and every entry of the heap
tells the linkage of the clusters it merges. -/
structure Sound (ids : List PyStr) (s : Agglomeration) : Prop where
  perm : s.active.flatten.Perm ids
  nonempty : ∀ c ∈ s.active, c ≠ []
  recorded : ∀ a ∈ s.active, ∀ b ∈ s.active, a ≠ b → Recorded linkage d s a b
  entered : ∀ a ∈ s.active, ∀ b ∈ s.active, a ≠ b → ∃ e ∈ s.heap, e.Joins linkage d a b
  entries : ∀ e ∈ s.heap, e.left ≠ e.right ∧ e.Joins linkage d e.left e.right
  sorted : s.heap.Pairwise fun a b => a.key ≤ b.key

variable {ids : List PyStr}

theorem Sound.nodup (hids : ids.Nodup) (hs : Sound linkage d ids s) : s.active.Nodup :=
  nodup_of_flatten (hs.perm.nodup_iff.mpr hids) hs.nonempty

variable {active : List Cluster}

/-- An entry for two active clusters is live. -/
theorem HeapEntry.Joins.live {a b : Cluster} (h : entry.Joins linkage d a b) (ha : a ∈ active)
    (hb : b ∈ active) : Live active entry := by
  rcases h.sides with ⟨hl, hr⟩ | ⟨hl, hr⟩
  · exact ⟨hl ▸ ha, hr ▸ hb⟩
  · exact ⟨hl ▸ hb, hr ▸ ha⟩

/-- The live entries are among those that are not dropped. -/
theorem mem_dropWhile_of_live {e : HeapEntry} (he : e ∈ heap) (hlive : Live active e) :
    e ∈ heap.dropWhile fun entry => ¬ Live active entry := by
  rw [← takeWhile_append_dropWhile (p := fun entry => decide ¬ Live active entry) (l := heap)]
    at he
  rcases mem_append.mp he with he | he
  · have hdead := mem_takeWhile_imp he
    simp only [decide_not, Bool.not_eq_true', decide_eq_false_iff_not] at hdead
    exact absurd hlive hdead
  · exact he

theorem exists_ne_of_nodup {α : Type} {xs : List α} (hxs : xs.Nodup) (h : 1 < xs.length) :
    ∃ a ∈ xs, ∃ b ∈ xs, a ≠ b := by
  refine ⟨xs[0], getElem_mem _, xs[1], getElem_mem _, fun heq => ?_⟩
  exact absurd (hxs.getElem_inj_iff.mp heq) Nat.zero_ne_one

/-- **The first live entry is the best merge.** -/
theorem Sound.best (hids : ids.Nodup) (hs : Sound linkage d ids s) (hlength : 1 < s.active.length) :
    ∃ entry heap, (s.heap.dropWhile fun entry => ¬ Live s.active entry) = entry :: heap ∧
      entry.Joins linkage d entry.left entry.right ∧
      IsBest linkage d s.active entry.left entry.right := by
  have hlive : ∀ a ∈ s.active, ∀ b ∈ s.active, a ≠ b →
      ∃ e ∈ s.heap.dropWhile fun entry => ¬ Live s.active entry, e.Joins linkage d a b := by
    intro a ha b hb hne
    obtain ⟨e, he, hjoins⟩ := hs.entered a ha b hb hne
    exact ⟨e, mem_dropWhile_of_live he (hjoins.live ha hb), hjoins⟩
  cases hheap : s.heap.dropWhile fun entry => ¬ Live s.active entry with
  | nil =>
    obtain ⟨a, ha, b, hb, hne⟩ := exists_ne_of_nodup (hs.nodup hids) hlength
    obtain ⟨e, he, -⟩ := hlive a ha b hb hne
    rw [hheap] at he
    cases he
  | cons entry heap =>
    have hmem : entry ∈ s.heap :=
      (dropWhile_sublist _).subset (hheap ▸ mem_cons_self)
    have hentry : Live s.active entry := by
      have hhead := head?_dropWhile_not
        (fun entry : HeapEntry => decide ¬ Live s.active entry) s.heap
      rw [hheap] at hhead
      simpa using hhead
    obtain ⟨hne, hjoins⟩ := hs.entries entry hmem
    refine ⟨entry, heap, rfl, hjoins, hentry.1, hentry.2, hne, ?_⟩
    intro a ha b hb hab
    obtain ⟨e, he, hjoins'⟩ := hlive a ha b hb hab
    -- the heap is sorted, so the entry of the two clusters comes later
    have hsorted := hs.sorted.sublist
      (dropWhile_sublist fun entry => decide ¬ Live s.active entry)
    rw [hheap] at he hsorted
    have hle : entry.key ≤ e.key := by
      rcases mem_cons.mp he with rfl | he
      · exact le_rfl
      · exact (pairwise_cons.mp hsorted).1 e he
    rw [mergeKey, mergeKey, ← hjoins.distance, ← hjoins.merged, ← hjoins'.distance,
      ← hjoins'.merged]
    rw [HeapEntry.key, HeapEntry.key, Prod.Lex.toLex_le_toLex] at hle
    rw [Prod.Lex.toLex_le_toLex]
    rcases hle with hlt | ⟨heq, hle⟩
    · exact .inl hlt
    · refine .inr ⟨heq, ?_⟩
      rcases Prod.Lex.toLex_le_toLex.mp hle with hlt | ⟨heq, -⟩
      · exact hlt.le
      · exact heq.le

/-- The clusters that an entry does not merge. -/
theorem others_perm (hnodup : active.Nodup) (hne : entry.left ≠ entry.right)
    (hlive : Live active entry) :
    (entry.left :: entry.right :: entry.others active).Perm active := by
  have hpair : [entry.left, entry.right].Nodup := by simpa using hne
  have hsplit := append_filter_notMem_perm hpair (by
    intro c hc
    simp only [mem_cons, not_mem_nil, or_false] at hc
    rcases hc with rfl | rfl
    · exact hlive.1
    · exact hlive.2) hnodup
  have hfilt : (active.filter fun c => c ∉ [entry.left, entry.right]) =
      active.filter fun c => c ≠ entry.left ∧ c ≠ entry.right := by
    refine filter_congr fun c _ => ?_
    simp
  rw [hfilt] at hsplit
  exact (((sortedBy_perm id _).cons _).cons _).trans hsplit

theorem HeapEntry.mem_others {c : Cluster} :
    c ∈ entry.others active ↔ c ∈ active ∧ c ≠ entry.left ∧ c ≠ entry.right := by
  rw [HeapEntry.others, mem_sortedBy, mem_filter, decide_eq_true_eq]

/-- The merged cluster holds a record of the left one, so it is none of the others. -/
theorem Sound.ne_merged (hids : ids.Nodup) (hs : Sound linkage d ids s)
    (hmerged : entry.merged.Perm (entry.left ++ entry.right)) (hleft : entry.left ∈ s.active)
    (hother : other ∈ entry.others s.active) : other ≠ entry.merged := by
  rintro rfl
  obtain ⟨hactive, hne, -⟩ := HeapEntry.mem_others.mp hother
  obtain ⟨x, hx⟩ := exists_mem_of_ne_nil _ (hs.nonempty _ hleft)
  exact hne (eq_of_mem_of_mem (hs.perm.nodup_iff.mpr hids) hactive hleft
    (hmerged.mem_iff.mpr (mem_append_left _ hx)) hx)

/-- **Merging two clusters**: the merged one is related to the others. -/
theorem Sound.merge (hids : ids.Nodup) (hd : ∀ a b, d a b = d b a) {s s' : Agglomeration}
    (hs : Sound linkage d ids s)
    (hheap : (s.heap.dropWhile fun entry => ¬ Live s.active entry) = entry :: heap)
    (hjoins : entry.Joins linkage d entry.left entry.right)
    (hbest : IsBest linkage d s.active entry.left entry.right)
    (hrelated : Related linkage d ((entry.others s.active).map fun other => (entry.merged, other))
      { s with active := entry.others s.active ++ [entry.merged], heap := heap } s') :
    Sound linkage d ids s' := by
  have hperm := others_perm (hs.nodup hids) hbest.ne ⟨hbest.left_mem, hbest.right_mem⟩
  have hothers : ∀ c ∈ entry.others s.active, c ∈ s.active := fun c hc =>
    (HeapEntry.mem_others.mp hc).1
  have hnot : ∀ c ∈ entry.others s.active, c ≠ entry.left ∧ c ≠ entry.right := fun c hc =>
    (HeapEntry.mem_others.mp hc).2
  have hmerged : entry.merged.Perm (entry.left ++ entry.right) :=
    hjoins.merged ▸ sortedBy_perm id _
  have hsub : ∀ e ∈ entry :: heap, e ∈ s.heap := fun e he =>
    (dropWhile_sublist _).subset (hheap ▸ he)
  have hactive : ∀ c, c ∈ s'.active ↔ c ∈ entry.others s.active ∨ c = entry.merged := by
    intro c
    rw [hrelated.active, mem_append, mem_singleton]
  -- two of the others are as they were
  have hkept : ∀ a ∈ entry.others s.active, ∀ b ∈ entry.others s.active, a ≠ b →
      Recorded linkage d s' a b ∧ ∃ e ∈ s'.heap, e.Joins linkage d a b := by
    intro a ha b hb hab
    obtain ⟨hdistance, haggregate⟩ := hs.recorded a (hothers a ha) b (hothers b hb) hab
    refine ⟨hrelated.kept a b ⟨hdistance, haggregate⟩, ?_⟩
    obtain ⟨e, he, hjoins'⟩ := hs.entered a (hothers a ha) b (hothers b hb) hab
    have hin := mem_dropWhile_of_live he (hjoins'.live (hothers a ha) (hothers b hb))
    rw [hheap] at hin
    rcases mem_cons.mp hin with rfl | hin
    · rcases hjoins'.sides with ⟨hl, -⟩ | ⟨hl, -⟩
      · exact absurd hl.symm (hnot a ha).1
      · exact absurd hl.symm (hnot b hb).1
    · exact ⟨e, hrelated.old e hin, hjoins'⟩
  have hnew : ∀ a ∈ entry.others s.active, Recorded linkage d s' entry.merged a ∧
      ∃ e ∈ s'.heap, e.Joins linkage d entry.merged a := by
    intro a ha
    have hmem := mem_map_of_mem (f := fun other => (entry.merged, other)) ha
    exact ⟨hrelated.recorded _ hmem, hrelated.entered _ hmem⟩
  have hpair : ∀ a ∈ s'.active, ∀ b ∈ s'.active, a ≠ b →
      Recorded linkage d s' a b ∧ ∃ e ∈ s'.heap, e.Joins linkage d a b := by
    intro a ha b hb hab
    rcases (hactive a).mp ha with ha | rfl
    · rcases (hactive b).mp hb with hb | rfl
      · exact hkept a ha b hb hab
      · obtain ⟨hrecorded, e, he, hjoins'⟩ := hnew a ha
        exact ⟨hrecorded.swap hd, e, he, hjoins'.swap hd⟩
    · rcases (hactive b).mp hb with hb | rfl
      · exact hnew b hb
      · exact absurd rfl hab
  refine ⟨?_, ?_, fun a ha b hb hab => (hpair a ha b hb hab).1,
    fun a ha b hb hab => (hpair a ha b hb hab).2, ?_, hrelated.sorted ?_⟩
  · rw [hrelated.active, flatten_append, flatten_singleton]
    have hall := hperm.flatten
    rw [flatten_cons, flatten_cons, ← append_assoc] at hall
    exact (perm_append_comm.trans (hmerged.append_right _)).trans (hall.trans hs.perm)
  · intro c hc
    rcases (hactive c).mp hc with hc | rfl
    · exact hs.nonempty c (hothers c hc)
    · obtain ⟨x, hx⟩ := exists_mem_of_ne_nil _ (hs.nonempty _ hbest.left_mem)
      exact ne_nil_of_mem (hmerged.mem_iff.mpr (mem_append_left _ hx))
  · intro e he
    rcases hrelated.new e he with he | ⟨p, hp, hjoins'⟩
    · exact hs.entries e (hsub e (mem_cons_of_mem _ he))
    · obtain ⟨other, hother, rfl⟩ := mem_map.mp hp
      refine ⟨?_, hjoins'.self hd⟩
      have hne := hs.ne_merged hids hmerged hbest.left_mem hother
      rcases hjoins'.sides with ⟨hl, hr⟩ | ⟨hl, hr⟩
      · rw [hl, hr]
        exact hne.symm
      · rw [hl, hr]
        exact hne
  · have hsorted := hs.sorted.sublist
      (dropWhile_sublist fun entry => decide ¬ Live s.active entry)
    rw [hheap] at hsorted
    exact (pairwise_cons.mp hsorted).2

variable (radius) in
/-- **One pass of both versions**: both go on, and keep the same clusters, or both end. -/
theorem passes_agree (hcomplete : Complete P matrix)
    (hs : Sound linkage (rationalDist P matrix) matrix.ids s) :
    ∃ s' again, agglomerationPass linkage radius s = .ok (s', again) ∧
      hierarchicalPass P matrix linkage radius (sortedBy id s.active) =
        .ok (sortedBy id s'.active, again) ∧
      (again = true → Sound linkage (rationalDist P matrix) matrix.ids s') := by
  by_cases hlength : s.active.length ≤ 1
  · refine ⟨s, false, by rw [agglomerationPass, if_pos hlength], ?_, by simp⟩
    rw [hierarchicalPass, length_sortedBy, if_pos hlength]
  have hlength' : 1 < s.active.length := not_le.mp hlength
  have hsorted := sortedBy_perm id s.active
  have hflat := hs.perm.nodup_iff.mpr matrix.nodup
  have hnodup := hs.nodup matrix.nodup
  have hmem : ∀ c ∈ s.active, c ≠ [] ∧ c ⊆ matrix.ids := fun c hc =>
    ⟨hs.nonempty c hc, fun x hx => hs.perm.subset (mem_flatten.mpr ⟨c, hc, hx⟩)⟩
  -- the best merge of the reference, and the first live entry
  obtain ⟨left, right, rest, hbest, hrest, hreference⟩ :=
    hierarchicalPass_eq linkage radius hcomplete
      (by rwa [length_sortedBy]) (hsorted.nodup_iff.mpr hnodup)
      fun c hc => hmem c (hsorted.subset hc)
  obtain ⟨entry, heap, hheap, hjoins, hentry⟩ := hs.best matrix.nodup hlength'
  have hbest' := hbest.of_perm hsorted
  have hkey : entry.distance = linkOf linkage (rationalDist P matrix) left right ∧
      entry.merged = sortedBy id (left ++ right) := by
    rw [hjoins.distance, hjoins.merged]
    exact Prod.mk.inj (toLex_inj.mp (hentry.key_eq hbest'))
  have hothers := others_perm hnodup hentry.ne ⟨hentry.left_mem, hentry.right_mem⟩
  have hsame : rest.Perm (entry.others s.active) :=
    hbest'.perm hflat hs.nonempty hentry (hrest.trans hsorted) hothers
  rw [hreference, ← hkey.1, ← hkey.2, agglomerationPass, if_neg hlength, hheap]
  dsimp only
  by_cases hfar : radius.rat < entry.distance
  · rw [if_pos hfar, if_pos hfar]
    exact ⟨_, false, rfl, rfl, by simp⟩
  rw [if_neg hfar, if_neg hfar]
  -- the merged cluster is related to the others
  have hmerged : entry.merged.Perm (entry.left ++ entry.right) :=
    hjoins.merged ▸ sortedBy_perm id _
  have hnew : entry.merged ∉ entry.others s.active := fun hin =>
    hs.ne_merged matrix.nodup hmerged hentry.left_mem hin rfl
  rw [addMember, if_neg hnew]
  obtain ⟨s', hs', hrelated⟩ := related_foldlM linkage (rationalDist P matrix)
    (Agglomeration.relate linkage entry) (fun other => (entry.merged, other))
    (fun s' => ∀ other ∈ entry.others s.active,
      Recorded linkage (rationalDist P matrix) s' entry.left other ∧
      Recorded linkage (rationalDist P matrix) s' entry.right other)
    (entry.others s.active)
    (fun ps t t' h ht other hother =>
      ⟨h.kept _ _ (ht other hother).1, h.kept _ _ (ht other hother).2⟩)
    (fun other hother t ht => related_relate rationalDist_comm hmerged
      (hs.nonempty _ hentry.left_mem) (hs.nonempty _ hentry.right_mem)
      (hs.nonempty _ (HeapEntry.mem_others.mp hother).1) (ht other hother).1 (ht other hother).2)
    (s := { s with active := entry.others s.active ++ [entry.merged], heap := heap })
    (fun other hother => by
      obtain ⟨hactive, hl, hr⟩ := HeapEntry.mem_others.mp hother
      obtain ⟨hdistance, haggregate⟩ := hs.recorded _ hentry.left_mem other hactive (Ne.symm hl)
      obtain ⟨hdistance', haggregate'⟩ := hs.recorded _ hentry.right_mem other hactive (Ne.symm hr)
      exact ⟨⟨hdistance, haggregate⟩, ⟨hdistance', haggregate'⟩⟩)
  refine ⟨s', true, by rw [hs']; rfl, ?_, fun _ => hs.merge matrix.nodup rationalDist_comm hheap
    hjoins hentry hrelated⟩
  have hclusters : sortedBy id (rest ++ [entry.merged]) =
      sortedBy id (entry.others s.active ++ [entry.merged]) :=
    sortedBy_eq_of_perm (fun _ _ _ _ h => h) (hsame.append_right _)
  rw [hrelated.active, hclusters]

variable (radius) in
/-- **The loops of both versions end with the same clusters.** -/
theorem loops_agree (hcomplete : Complete P matrix) (fuel : Nat)
    (hs : Sound linkage (rationalDist P matrix) matrix.ids s) : ∃ t,
      loop (agglomerationPass linkage radius) fuel s = .ok t ∧
      loop (hierarchicalPass P matrix linkage radius) fuel (sortedBy id s.active) =
        .ok (sortedBy id t.active) := by
  induction fuel generalizing s with
  | zero => exact ⟨s, rfl, rfl⟩
  | succ fuel ih =>
    obtain ⟨s', again, hoptimized, hreference, hsound⟩ :=
      passes_agree radius hcomplete hs
    rw [loop, loop, hoptimized, hreference]
    cases again with
    | false => exact ⟨s', rfl, rfl⟩
    | true => exact ih (hsound rfl)

/-! ## The catalogues -/

/-- What `from_pairs` makes of a population: its ids are sorted, and every distance of the population
and every other one that was given is valid. -/
structure Made (P : Platform) (matrix : DistanceMatrix) : Prop where
  sorted : matrix.ids.Pairwise (· ≤ ·)
  complete : Complete P matrix
  values : ∀ p ∈ matrix.values, Returns (dec P p.2)

variable (linkage) in
/-- The optimized version starts from single records, all of whose pairs are entered. -/
theorem sound_start (hcomplete : Complete P matrix)
    (hprepared : prepared.distance = matrix.distance P) : ∃ start,
      (pairs (sortedBy id (matrix.ids.map fun item => [item]))).foldlM
        (Agglomeration.start prepared linkage)
        ⟨matrix.ids.map fun item => [item], [], [], []⟩ = .ok start ∧
      start.active = matrix.ids.map (fun item => [item]) ∧
      Sound linkage (rationalDist P matrix) matrix.ids start := by
  have hsingle : ∀ c ∈ sortedBy id (matrix.ids.map fun item => [item]),
      ∃ item ∈ matrix.ids, c = [item] := by
    intro c hc
    obtain ⟨item, hitem, rfl⟩ := mem_map.mp (mem_sortedBy.mp hc)
    exact ⟨item, hitem, rfl⟩
  have hnodup : (sortedBy id (matrix.ids.map fun item => [item])).Nodup :=
    (sortedBy_perm id _).nodup_iff.mpr (matrix.nodup.map fun _ _ h => singleton_inj.mp h)
  obtain ⟨start, hstart, hrelated⟩ := related_foldlM linkage (rationalDist P matrix)
    (Agglomeration.start prepared linkage) id (fun _ => True)
    (pairs (sortedBy id (matrix.ids.map fun item => [item]))) (fun _ _ _ _ _ => trivial)
    (fun p hp s _ => by
      obtain ⟨hleft, hright⟩ := mem_of_mem_pairs hp
      obtain ⟨a, ha, hpa⟩ := hsingle _ hleft
      obtain ⟨b, hb, hpb⟩ := hsingle _ hright
      obtain rfl : p = ([a], [b]) := Prod.ext hpa hpb
      exact related_start rationalDist_comm
        (hprepared ▸ hcomplete.distance_eq ha hb) rfl s)
    (s := ⟨matrix.ids.map fun item => [item], [], [], []⟩) trivial
  rw [map_id] at hrelated
  have hpair : ∀ a ∈ start.active, ∀ b ∈ start.active, a ≠ b →
      Recorded linkage (rationalDist P matrix) start a b ∧
      ∃ e ∈ start.heap, e.Joins linkage (rationalDist P matrix) a b := by
    intro a ha b hb hab
    rw [hrelated.active] at ha hb
    have hsorted := sortedBy_perm id (matrix.ids.map fun item => [item])
    rcases mem_pairs_or (hsorted.symm.subset ha) (hsorted.symm.subset hb) hab with hp | hp
    · exact ⟨hrelated.recorded _ hp, hrelated.entered _ hp⟩
    · obtain ⟨e, he, hjoins⟩ := hrelated.entered _ hp
      exact ⟨(hrelated.recorded _ hp).swap rationalDist_comm, e, he,
        hjoins.swap rationalDist_comm⟩
  refine ⟨start, hstart, hrelated.active, ?_, ?_, fun a ha b hb hab => (hpair a ha b hb hab).1,
    fun a ha b hb hab => (hpair a ha b hb hab).2, ?_, hrelated.sorted .nil⟩
  · rw [hrelated.active, ← flatMap_def, flatMap_singleton']
  · intro c hc
    rw [hrelated.active] at hc
    obtain ⟨item, -, rfl⟩ := mem_map.mp hc
    exact cons_ne_nil _ _
  · intro e he
    rcases hrelated.new e he with he | ⟨p, hp, hjoins⟩
    · cases he
    · have hne : p.1 ≠ p.2 := rel_of_mem_pairs hnodup hp
      refine ⟨?_, hjoins.self rationalDist_comm⟩
      rcases hjoins.sides with ⟨hl, hr⟩ | ⟨hl, hr⟩
      · rw [hl, hr]
        exact hne
      · rw [hl, hr]
        exact hne.symm

/-- **Both versions are one function of the matrices that `from_pairs` makes**, errors included. -/
theorem hierarchical_eq_optimized (hmade : Made P matrix) :
    hierarchical P matrix spec = hierarchicalOptimized P matrix spec := by
  obtain ⟨prepared, hprepared⟩ := returns_fromMatrix hmade.values
  rw [hierarchical, hierarchicalOptimized]
  cases hierarchicalParameters P spec with
  | error e => rfl
  | ok parameters =>
    obtain ⟨start, hstart, hactive, hsound⟩ := sound_start parameters.2 hmade.complete
      (distance_fromMatrix hprepared)
    obtain ⟨t, hoptimized, hreference⟩ := loops_agree parameters.1 hmade.complete
      matrix.ids.length hsound
    have hsorted : sortedBy id (matrix.ids.map fun item => [item]) =
        matrix.ids.map fun item => [item] := by
      refine sortedBy_eq_self (pairwise_map.mpr (hmade.sorted.imp fun {a b} hab => ?_))
      rcases hab.lt_or_eq with hlt | rfl
      · exact le_of_lt (show ([a] : Cluster) < [b] from Lex.rel hlt)
      · exact le_rfl
    rw [hactive, hsorted] at hreference
    show (loop (hierarchicalPass P matrix parameters.2 parameters.1) matrix.ids.length
      (matrix.ids.map fun item => [item]) >>= _) =
      (PreparedDistanceMatrix.fromMatrix P matrix >>= fun prepared =>
        (pairs _).foldlM (Agglomeration.start prepared parameters.2) _ >>= fun start => _)
    rw [hreference, hprepared]
    show _ = ((pairs _).foldlM (Agglomeration.start prepared parameters.2) _ >>= fun start => _)
    rw [hstart]
    show _ = (loop (agglomerationPass parameters.2 parameters.1) matrix.ids.length start >>= _)
    rw [hoptimized]
    rfl

/-- A matrix that `from_pairs` made. -/
theorem made_of_fromPairs {given : Dict PyStr PyVal}
    (h : DistanceMatrix.fromPairs P ids given = .ok matrix)
    (hread : ∀ p ∈ matrix.values, Returns (dec P p.2)) : Made P matrix := by
  simp only [DistanceMatrix.fromPairs, bind_ok, pure_ok] at h
  obtain ⟨values, -, _, hpairs, rfl⟩ := h
  have hgiven : ∀ p ∈ pairs (sortedSet ids),
      Returns (DistanceMatrix.distance P
        ⟨sortedSet ids, sortedBy Prod.fst values, sortedSet_nodup ids⟩ p.1 p.2) := by
    intro p hp
    have hkey := check_ok.mp (forM_ok.mp hpairs p hp)
    have hin : pairKey p.1 p.2 ∈ Dict.keys (sortedBy Prod.fst values) :=
      ((sortedBy_perm Prod.fst values).map Prod.fst).mem_iff.mpr hkey
    rw [← Dict.isSome_get?_iff, Option.isSome_iff_exists] at hin
    obtain ⟨text, htext⟩ := hin
    rw [DistanceMatrix.distance, if_neg (rel_of_mem_pairs (sortedSet_nodup ids) hp)]
    simp only [htext]
    exact hread _ (Dict.mem_of_get? htext)
  refine ⟨sortedBy_pairwise id _, ?_, hread⟩
  intro left hleft right hright
  by_cases hne : left = right
  · exact ⟨_, if_pos hne⟩
  · rcases mem_pairs_or hleft hright hne with hp | hp
    · exact hgiven _ hp
    · exact returns_distance_comm (hgiven _ hp)

/-- **The optimized hierarchical clustering is the reference**: it returns the same catalogue, or
raises the same error, for every matrix that `from_pairs` makes and every specification. -/
theorem hierarchical_versions_agree (P : Platform) (ids : List PyStr) (given : Dict PyStr PyVal)
    (matrix : DistanceMatrix) (hmatrix : DistanceMatrix.fromPairs P ids given = .ok matrix)
    (hread : ∀ p ∈ matrix.values, Returns (dec P p.2)) (spec : FamilyMethodSpec) :
    hierarchicalOptimized P matrix spec = hierarchical P matrix spec :=
  (hierarchical_eq_optimized (made_of_fromPairs hmatrix hread)).symm

/-- The text of a decimal without an exponent. -/
def writeDecimal : PyVal → Except PyError {s : PyStr // Python.Encodable s}
  | .decimal value =>
    if h : Python.Encodable value.formatF then .ok ⟨value.formatF, h⟩ else .error .valueError
  | _ => .error .valueError

/-- The platform of concrete runs, writing decimals. -/
def decimalPlatform : Platform := { Platform.reference with reprText := writeDecimal }

/-- The distances of three records on a line. -/
def lineDistances : Dict PyStr PyVal :=
  [(py "A|B", .str (py "1")), (py "A|C", .str (py "2.5")), (py "B|C", .str (py "1.5"))]

/-- Average linkage within two. -/
def averageSpec : FamilyMethodSpec where
  methodId := py "HIERARCHICAL"
  configurationId := py "CONFIG"
  radius := some (py "2.0")
  linkage := some (py "average")
  support := two_le_two
  iterations := one_le_twenty

/-- Both versions cluster three records on a line: A and B first, then C at the mean distance. -/
theorem hierarchical_versions_agree_line : ∃ matrix c,
    DistanceMatrix.fromPairs decimalPlatform [py "C", py "A", py "B"] lineDistances = .ok matrix ∧
    hierarchical decimalPlatform matrix averageSpec = .ok c ∧
    hierarchicalOptimized decimalPlatform matrix averageSpec = .ok c := by
  have hmade : (DistanceMatrix.fromPairs decimalPlatform [py "C", py "A", py "B"]
      lineDistances).toOption.any (fun matrix =>
        matrix.values.all (fun p => (dec decimalPlatform p.2).toOption.isSome) &&
        (hierarchical decimalPlatform matrix averageSpec).toOption.isSome) = true := by
    decide +kernel
  cases hmx : DistanceMatrix.fromPairs decimalPlatform [py "C", py "A", py "B"] lineDistances with
  | error e => simp [hmx, Except.toOption] at hmade
  | ok matrix =>
    simp only [hmx, Except.toOption, Option.any_some, Bool.and_eq_true, all_eq_true]
      at hmade
    obtain ⟨hvals, hrets⟩ := hmade
    have hread : ∀ p ∈ matrix.values, Returns (dec decimalPlatform p.2) := by
      intro p hp
      have hval := hvals p hp
      cases hdec : dec decimalPlatform p.2 with
      | error e => simp [hdec] at hval
      | ok value => exact ⟨value, rfl⟩
    have hagree := hierarchical_versions_agree decimalPlatform _ _ matrix hmx hread averageSpec
    cases hrun : hierarchical decimalPlatform matrix averageSpec with
    | error e => simp [hrun] at hrets
    | ok c => exact ⟨matrix, c, rfl, hrun, hagree.trans hrun⟩

end OvcReplay.Srfd.Exact
