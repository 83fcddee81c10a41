import OvcReplay.Python.Order
import OvcReplay.Python.Sorted
import OvcReplay.Python.Text

/-! # Clustering

`deterministic_pam` of pattern discovery, over a table of exact distances: the greedy choice of the
first medoids, and the swaps of a medoid for a record that is none. -/

namespace OvcReplay.PatternDiscovery

open List Python

/-- The distance of two records. -/
abbrev DistanceTable : Type := PyStr → PyStr → Rat

/-- Medoids: there always is one. -/
abbrev Medoids : Type := {medoids : List PyStr // medoids ≠ []}

/-- `round(value, 12)`: half to even. -/
def roundTwelve (value : Rat) : Rat :=
  (value.num.sign * PyFloat.roundHalfEven (value.num.natAbs * 10 ^ 12) value.den : Int) / 10 ^ 12

/-- `1e-12`. -/
def tolerance : Rat := 1 / 10 ^ 12

/-- `min(xs, key=key)`, of a list with this head. -/
def leastBy {α κ : Type} [LinearOrder κ] (key : α → κ) (x : α) (xs : List α) : α :=
  xs.foldl (fun found y => if key y < key found then y else found) x

variable (matrix : DistanceTable) (ids : List PyStr)

/-- `ranked`. -/
def ranked (medoids : Medoids) (item : PyStr) : List (Rat ×ₗ PyStr) :=
  sortedBy id (medoids.1.map fun medoid => toLex (matrix item medoid, medoid))

theorem ranked_ne_nil (medoids : Medoids) (item : PyStr) : ranked matrix medoids item ≠ [] := by
  rw [← length_pos_iff, ranked, length_sortedBy, length_map, length_pos_iff]
  exact medoids.2

/-- `ranked[0]`. -/
def nearestMedoid (medoids : Medoids) (item : PyStr) : Rat × PyStr :=
  ofLex ((ranked matrix medoids item).head (ranked_ne_nil matrix medoids item))

/-- The cost that `_assign` returns. -/
def cost (medoids : Medoids) : Rat := (ids.map fun item => (nearestMedoid matrix medoids item).1).sum

/-- `round(cost, 12)`. -/
def roundedCost (medoids : Medoids) : Rat := roundTwelve (cost matrix ids medoids)

/-! ## The first medoids -/

/-- `candidate_set`. -/
def candidateSet (medoids : Medoids) (candidate : PyStr) : Medoids :=
  ⟨sortedBy id (medoids.1 ++ [candidate]), ne_nil_of_mem (mem_sortedBy.mpr mem_concat_self)⟩

/-- The `while` that adds this many medoids. -/
def grow : Nat → Medoids → Medoids
  | 0, medoids => medoids
  | n + 1, medoids =>
    match (ids.filter fun candidate => candidate ∉ medoids.1).map (candidateSet medoids) with
    | [] => medoids
    | found :: sets =>
      grow n (leastBy (fun s => toLex (roundedCost matrix ids s, s.1)) found sets)

/-- The medoids before the swaps, of the ids with this head. -/
def firstMedoids (x : PyStr) (xs : List PyStr) (k : Nat) : Medoids :=
  let total (candidate : PyStr) := ((x :: xs).map fun item => matrix item candidate).sum
  let first := leastBy (fun candidate => toLex (total candidate, candidate)) x xs
  grow matrix (x :: xs) (k - 1) ⟨[first], cons_ne_nil _ _⟩

/-! ## Swaps -/

/-- `best_cost` and `best_medoids`. -/
structure Best where
  cost : Rat
  medoids : Medoids

/-- `proposed`. -/
def proposed (medoids : Medoids) (medoid candidate : PyStr) : Medoids :=
  ⟨sortedSet (candidate :: medoids.1.filter (· != medoid)), ne_nil_of_mem
    (mem_sortedSet.mpr mem_cons_self)⟩

/-- What is proposed in a round. -/
def proposals (medoids : Medoids) : List Medoids :=
  medoids.1.flatMap fun medoid =>
    (ids.filter fun candidate => candidate ∉ medoids.1).map (proposed medoids medoid)

/-- A proposal is accepted. -/
def Accepts (best : Best) (swapped : Medoids) : Prop :=
  roundedCost matrix ids swapped < best.cost - tolerance ∨
    |roundedCost matrix ids swapped - best.cost| ≤ tolerance ∧ swapped.1 < best.medoids.1

instance (best : Best) (swapped : Medoids) : Decidable (Accepts matrix ids best swapped) :=
  inferInstanceAs (Decidable (_ ∨ _))

/-- One proposal of a round. -/
def consider (best : Best) (swapped : Medoids) : Best :=
  if Accepts matrix ids best swapped then ⟨roundedCost matrix ids swapped, swapped⟩ else best

/-- The medoids in their order, at their cost. -/
def start (medoids : Medoids) : Best :=
  ⟨roundedCost matrix ids medoids, sortedBy id medoids.1, fun h => medoids.2 (by
    rw [← length_eq_zero_iff, ← length_sortedBy id, h, length_nil])⟩

/-- One round of the swaps. -/
def swapRound (medoids : Medoids) : Medoids :=
  ((proposals ids medoids).foldl (consider matrix ids) (start matrix ids medoids)).medoids

/-- The `while` of the swaps, unless it goes on after this many rounds. -/
def swapLoop : Nat → Medoids → Option Medoids
  | 0, _ => none
  | fuel + 1, medoids =>
    let best := swapRound matrix ids medoids
    if best.1 = sortedBy id medoids.1 then some medoids else swapLoop fuel best

/-- What is returned, but for what was passed in. -/
structure Pam where
  medoidIds : List PyStr
  assignments : List (PyStr × PyStr)
  distances : List (PyStr × Rat)
  totalWithinClusterDistance : Rat

/-- The result around the medoids of the last round. -/
def pamOf (medoids : Medoids) : Pam where
  medoidIds := sortedBy id medoids.1
  assignments := ids.map fun item => (item, (nearestMedoid matrix medoids item).2)
  distances := sortedBy Prod.fst
    (ids.map fun item => (item, roundTwelve (nearestMedoid matrix medoids item).1))
  totalWithinClusterDistance := roundedCost matrix ids medoids

/-- The errors of `deterministic_pam`. -/
inductive PamError where
  | patternDiscovery (message : PyStr)
  | value (message : PyStr)
  deriving DecidableEq, Repr

/-- `deterministic_pam`, unless its swaps go on after this many rounds. -/
def deterministicPam (fuel : Nat) (k : Int) : Except PamError (Option Pam) :=
  match ids with
  | [] => .error (.patternDiscovery (py "PAM requires fingerprints"))
  | x :: xs =>
    if k < 1 ∨ (x :: xs).length < k then
      .error (.value (py "k must be between one and population size"))
    else
      .ok ((swapLoop matrix (x :: xs) fuel (firstMedoids matrix x xs k.toNat)).map
        (pamOf matrix (x :: xs)))

/-! ## Nearest medoids -/

variable {matrix ids} {medoids : Medoids} {k : Nat}

theorem leastBy_mem {α κ : Type} [LinearOrder κ] (key : α → κ) (x : α) (xs : List α) :
    leastBy key x xs ∈ x :: xs := by
  unfold leastBy
  induction xs generalizing x with
  | nil => exact mem_cons_self
  | cons y xs ih =>
    rw [foldl_cons]
    rcases mem_cons.mp (ih (if key y < key x then y else x)) with h | h
    · rw [h]
      split_ifs <;> simp
    · exact mem_cons_of_mem _ (mem_cons_of_mem _ h)

/-- **A record is assigned to a nearest medoid**, the least of those. -/
theorem nearestMedoid_spec (medoids : Medoids) (item : PyStr) :
    (nearestMedoid matrix medoids item).2 ∈ medoids.1 ∧
      (nearestMedoid matrix medoids item).1 = matrix item (nearestMedoid matrix medoids item).2 ∧
      ∀ m ∈ medoids.1, toLex (nearestMedoid matrix medoids item) ≤ toLex (matrix item m, m) := by
  have hhead := head_mem (ranked_ne_nil matrix medoids item)
  obtain ⟨m, hm, heq⟩ := mem_map.mp (mem_sortedBy.mp hhead)
  have hnearest : nearestMedoid matrix medoids item = (matrix item m, m) :=
    congrArg ofLex heq.symm
  rw [hnearest]
  refine ⟨hm, rfl, fun m' hm' => ?_⟩
  have hmem : toLex (matrix item m', m') ∈ ranked matrix medoids item :=
    mem_sortedBy.mpr (mem_map_of_mem hm')
  have hsorted := sortedBy_pairwise id (medoids.1.map fun m => toLex (matrix item m, m))
  rw [heq]
  exact hsorted.rel_head hmem

/-! ## Medoids of a population -/

/-- This many ids, in their order. -/
def Held (ids : List PyStr) (k : Nat) (medoids : Medoids) : Prop :=
  medoids.1 <+ ids ∧ medoids.1.length = k

/-- Distinct ids of the population, once they are sorted. -/
theorem held_of_sorted (hids : ids.Pairwise (· < ·)) {xs : List PyStr} (hsub : ∀ x ∈ xs, x ∈ ids)
    (hnodup : xs.Nodup) (hlength : xs.length = k) (h : medoids.1 = sortedBy id xs) :
    Held ids k medoids := by
  have hperm : medoids.1.Perm xs := h ▸ sortedBy_perm id xs
  refine ⟨sublist_of_subperm_of_pairwise ?_ (h ▸ sortedBy_pairwise id xs)
    (hids.imp fun hlt => hlt.le), hperm.length_eq.trans hlength⟩
  exact (hperm.nodup_iff.mpr hnodup).subperm fun x hx => hsub x (hperm.mem_iff.mp hx)

variable (hids : ids.Pairwise (· < ·)) (hheld : Held ids k medoids)

include hids

theorem nodup_of_held (hheld : Held ids k medoids) : medoids.1.Nodup :=
  (hids.sublist hheld.1).imp ne_of_lt

theorem sorted_of_held (hheld : Held ids k medoids) : sortedBy id medoids.1 = medoids.1 :=
  sortedBy_eq_self ((hids.sublist hheld.1).imp le_of_lt)

theorem held_proposed (hheld : Held ids k medoids) {medoid candidate : PyStr}
    (hmedoid : medoid ∈ medoids.1) (hcandidate : candidate ∈ ids)
    (hnew : candidate ∉ medoids.1) : Held ids k (proposed medoids medoid candidate) := by
  have hnodup := nodup_of_held hids hheld
  have hall : (candidate :: medoids.1.filter (· != medoid)).Nodup :=
    nodup_cons.mpr ⟨fun h => hnew (mem_filter.mp h).1, hnodup.filter _⟩
  refine held_of_sorted hids (forall_mem_cons.mpr ⟨hcandidate, fun x hx => ?_⟩) hall ?_
    (sortedSet_of_nodup hall)
  · exact hheld.1.subset (mem_filter.mp hx).1
  · rw [length_cons, ← hnodup.erase_eq_filter, length_erase_add_one hmedoid, hheld.2]

theorem held_candidateSet (hheld : Held ids k medoids) {candidate : PyStr}
    (hcandidate : candidate ∈ ids) (hnew : candidate ∉ medoids.1) :
    Held ids (k + 1) (candidateSet medoids candidate) := by
  refine held_of_sorted hids ?_ ?_ (by rw [length_append, hheld.2, length_singleton]) rfl
  · simpa [or_imp, forall_and] using ⟨fun x hx => hheld.1.subset hx, hcandidate⟩
  · exact nodup_append'.mpr ⟨nodup_of_held hids hheld, nodup_singleton _, by simpa using hnew⟩

theorem held_grow (n : Nat) (hheld : Held ids k medoids) (hn : k + n ≤ ids.length) :
    Held ids (k + n) (grow matrix ids n medoids) := by
  induction n generalizing k medoids with
  | zero => exact hheld
  | succ n ih =>
    rw [grow]
    split
    · rename_i hnil
      -- some id is no medoid yet
      have hall : ∀ x ∈ ids, x ∈ medoids.1 := by simpa using hnil
      have hle := (subperm_of_subset (hids.imp ne_of_lt) hall).length_le
      rw [hheld.2] at hle
      omega
    · rename_i found sets hsets
      rw [show k + (n + 1) = k + 1 + n by omega]
      refine ih ?_ (by omega)
      have hmem := hsets ▸ leastBy_mem (fun s => toLex (roundedCost matrix ids s, s.1)) found sets
      obtain ⟨candidate, hcandidate, heq⟩ := mem_map.mp hmem
      rw [← heq]
      refine held_candidateSet hids hheld (mem_filter.mp hcandidate).1 ?_
      simpa using (mem_filter.mp hcandidate).2

/-- A proposal changes one of the medoids. -/
theorem of_mem_proposals (hheld : Held ids k medoids) {s : Medoids}
    (hs : s ∈ proposals ids medoids) : Held ids k s ∧ s ≠ medoids := by
  simp only [proposals, mem_flatMap, mem_map, mem_filter, decide_eq_true_eq] at hs
  obtain ⟨medoid, hmedoid, candidate, ⟨hcandidate, hnew⟩, rfl⟩ := hs
  refine ⟨held_proposed hids hheld hmedoid hcandidate hnew, fun heq => hnew ?_⟩
  rw [← heq]
  exact mem_sortedSet.mpr mem_cons_self

theorem start_eq (hheld : Held ids k medoids) :
    start matrix ids medoids = ⟨roundedCost matrix ids medoids, medoids⟩ :=
  congrArg (Best.mk _) (Subtype.ext (sorted_of_held hids hheld))

omit hids

/-- A round ends where it started, and accepts nothing, or at one of its proposals. -/
theorem foldl_consider (sets : List Medoids) (best : Best) :
    sets.foldl (consider matrix ids) best = best ∧
        (∀ s ∈ sets, ¬ Accepts matrix ids best s) ∨
      (sets.foldl (consider matrix ids) best).medoids ∈ sets := by
  induction sets generalizing best with
  | nil => exact .inl ⟨rfl, nofun⟩
  | cons s sets ih =>
    rw [foldl_cons]
    by_cases h : Accepts matrix ids best s
    · rw [consider, if_pos h]
      rcases ih ⟨roundedCost matrix ids s, s⟩ with ⟨heq, -⟩ | hmem
      · exact .inr (by rw [heq]; exact mem_cons_self)
      · exact .inr (mem_cons_of_mem _ hmem)
    · rw [consider, if_neg h]
      rcases ih best with ⟨heq, hnone⟩ | hmem
      · exact .inl ⟨heq, forall_mem_cons.mpr ⟨h, hnone⟩⟩
      · exact .inr (mem_cons_of_mem _ hmem)

include hids

/-- The medoids of a round. -/
theorem held_swapRound (hheld : Held ids k medoids) : Held ids k (swapRound matrix ids medoids) := by
  rw [swapRound, start_eq hids hheld]
  rcases foldl_consider (proposals ids medoids) ⟨roundedCost matrix ids medoids, medoids⟩ with
    ⟨heq, -⟩ | hmem
  · rwa [heq]
  · exact (of_mem_proposals hids hheld hmem).1

/-- **A round that ends where it started accepts nothing.** -/
theorem not_accepts_of_fixed (hheld : Held ids k medoids)
    (h : swapRound matrix ids medoids = medoids) {s : Medoids} (hs : s ∈ proposals ids medoids) :
    ¬ Accepts matrix ids ⟨roundedCost matrix ids medoids, medoids⟩ s := by
  rw [swapRound, start_eq hids hheld] at h
  rcases foldl_consider (proposals ids medoids) ⟨roundedCost matrix ids medoids, medoids⟩ with
    ⟨-, hnone⟩ | hmem
  · exact hnone s hs
  · exact absurd h (of_mem_proposals hids hheld hmem).2

/-! ## The run of the swaps -/

omit hids

variable (matrix ids) in
/-- No proposal that is accepted has a higher cost than the best set before it. -/
def NoneRaises : Best → List Medoids → Prop
  | _, [] => True
  | best, s :: sets =>
    (Accepts matrix ids best s → roundedCost matrix ids s ≤ best.cost) ∧
      NoneRaises (consider matrix ids best s) sets

instance decidableNoneRaises : ∀ (best : Best) (sets : List Medoids),
    Decidable (NoneRaises matrix ids best sets)
  | _, [] => isTrue trivial
  | best, s :: sets =>
    haveI := decidableNoneRaises (consider matrix ids best s) sets
    inferInstanceAs (Decidable (_ ∧ _))

variable (matrix ids) in
/-- The round accepts nothing that raises the cost. -/
def RoundSound (medoids : Medoids) : Prop :=
  NoneRaises matrix ids (start matrix ids medoids) (proposals ids medoids)

instance : Decidable (RoundSound matrix ids medoids) := decidableNoneRaises _ _

/-- The cost, and the set among those of one cost. -/
def Best.rank (best : Best) : Rat ×ₗ List PyStr := toLex (best.cost, best.medoids.1)

theorem foldl_consider_rank_le {sets : List Medoids} {best : Best}
    (h : NoneRaises matrix ids best sets) :
    (sets.foldl (consider matrix ids) best).rank ≤ best.rank := by
  induction sets generalizing best with
  | nil => exact le_rfl
  | cons s sets ih =>
    refine (ih h.2).trans ?_
    rw [consider]
    split_ifs with haccepts
    · have hle := h.1 haccepts
      refine Prod.Lex.toLex_le_toLex.mpr ?_
      rcases haccepts with hlt | ⟨-, hset⟩
      · exact .inl (hlt.trans (sub_lt_self _ (by norm_num [tolerance])))
      · exact hle.lt_or_eq.imp_right fun heq => ⟨heq, hset.le⟩
    · exact le_rfl

theorem foldl_consider_cost {sets : List Medoids} {best : Best}
    (h : best.cost = roundedCost matrix ids best.medoids) :
    (sets.foldl (consider matrix ids) best).cost =
      roundedCost matrix ids (sets.foldl (consider matrix ids) best).medoids := by
  induction sets generalizing best with
  | nil => exact h
  | cons s sets ih =>
    refine ih ?_
    rw [consider]
    split_ifs
    · rfl
    · exact h

include hids

/-- **A sound round lowers the rank**, unless it ends where it started. -/
theorem swapRound_rank_lt (hheld : Held ids k medoids) (hsound : RoundSound matrix ids medoids)
    (hne : swapRound matrix ids medoids ≠ medoids) :
    toLex (roundedCost matrix ids (swapRound matrix ids medoids), (swapRound matrix ids medoids).1) <
      toLex (roundedCost matrix ids medoids, medoids.1) := by
  have hstart : start matrix ids medoids = _ := start_eq hids hheld
  rw [RoundSound, hstart] at hsound
  have hle := foldl_consider_rank_le hsound
  rw [Best.rank, foldl_consider_cost rfl] at hle
  rw [swapRound, hstart] at hne ⊢
  refine lt_of_le_of_ne hle fun heq => hne (Subtype.ext ?_)
  exact congrArg Prod.snd (toLex.injective heq)

/-- **The loop ends at a set that a round leaves**, when no round of the run raises the cost. -/
theorem swapLoop_ends (hheld : Held ids k medoids)
    (hsound : ∀ n, RoundSound matrix ids ((swapRound matrix ids)^[n] medoids)) :
    ∃ fuel found, swapLoop matrix ids fuel medoids = some found ∧ Held ids k found ∧
      swapRound matrix ids found = found := by
  let rank (m : Medoids) := toLex (roundedCost matrix ids m, m.1)
  have hfinite : {m : Medoids | m.1 ∈ ids.sublists}.Finite :=
    (finite_toSet ids.sublists).preimage Subtype.val_injective.injOn
  have hwf : {m : Medoids | m.1 ∈ ids.sublists}.WellFoundedOn fun a b => rank a < rank b :=
    hfinite.wellFoundedOn (r := Order.Preimage rank (· < ·))
  refine hwf.induction (P := fun m => Held ids k m →
    (∀ n, RoundSound matrix ids ((swapRound matrix ids)^[n] m)) → ∃ fuel found,
      swapLoop matrix ids fuel m = some found ∧ Held ids k found ∧
        swapRound matrix ids found = found) (mem_sublists.mpr hheld.1) ?_ hheld hsound
  intro m hm ih hheld hsound
  by_cases hfixed : swapRound matrix ids m = m
  · refine ⟨1, m, ?_, hheld, hfixed⟩
    rw [swapLoop, if_pos (by rw [hfixed, sorted_of_held hids hheld])]
  · have hnext : Held ids k (swapRound matrix ids m) := held_swapRound hids hheld
    obtain ⟨fuel, found, hloop, hfound⟩ := ih _ (mem_sublists.mpr hnext.1)
      (swapRound_rank_lt hids hheld (hsound 0) hfixed) hnext fun n => hsound (n + 1)
    refine ⟨fuel + 1, found, ?_, hfound⟩
    rw [swapLoop, sorted_of_held hids hheld, if_neg fun h => hfixed (Subtype.ext h)]
    exact hloop

omit hids

theorem held_firstMedoids {x : PyStr} {xs : List PyStr} (hids : (x :: xs).Pairwise (· < ·))
    (hk : 1 ≤ k) (hsize : k ≤ (x :: xs).length) :
    Held (x :: xs) k (firstMedoids matrix x xs k) := by
  have hone : Held (x :: xs) 1 ⟨[leastBy (fun candidate =>
      toLex (((x :: xs).map fun item => matrix item candidate).sum, candidate)) x xs],
      cons_ne_nil _ _⟩ :=
    ⟨singleton_sublist.mpr (leastBy_mem _ _ _), rfl⟩
  have h : Held _ _ (grow matrix (x :: xs) _ _) := held_grow hids (k - 1) hone (by omega)
  rwa [Nat.add_sub_cancel' hk] at h

variable (matrix ids) in
/-- Distinct medoids of this number, the assignment of every record to a nearest one, and no swap
whose rounded cost is lower by more than the tolerance. -/
def LocalOptimum (k : Nat) (result : Pam) : Prop :=
  ∃ medoids : Medoids, result = pamOf matrix ids medoids ∧
    medoids.1.Nodup ∧ medoids.1.length = k ∧ medoids.1 ⊆ ids ∧
    (∀ item, (nearestMedoid matrix medoids item).2 ∈ medoids.1 ∧
      (nearestMedoid matrix medoids item).1 = matrix item (nearestMedoid matrix medoids item).2 ∧
      ∀ m ∈ medoids.1, toLex (nearestMedoid matrix medoids item) ≤ toLex (matrix item m, m)) ∧
    ∀ s ∈ proposals ids medoids,
      ¬ roundedCost matrix ids s < roundedCost matrix ids medoids - tolerance

variable (matrix ids) in
/-- The loop of `deterministic_pam` ends, at a local optimum. -/
def Settles (k : Nat) : Prop :=
  ∃ fuel result, deterministicPam matrix ids fuel k = .ok (some result) ∧
    LocalOptimum matrix ids k result

/-- **The swaps end at a local optimum in every run that never accepts a higher cost**: one that is
higher than the best one so far, but within the tolerance. -/
theorem deterministicPam_settles {x : PyStr} {xs : List PyStr}
    (hids : (x :: xs).Pairwise (· < ·)) (hk : 1 ≤ k) (hsize : k ≤ (x :: xs).length)
    (hsound : ∀ n, RoundSound matrix (x :: xs)
      ((swapRound matrix (x :: xs))^[n] (firstMedoids matrix x xs k))) :
    Settles matrix (x :: xs) k := by
  obtain ⟨fuel, found, hloop, hheld, hfixed⟩ :=
    swapLoop_ends hids (held_firstMedoids hids hk hsize) hsound
  refine ⟨fuel, pamOf matrix (x :: xs) found, ?_, found, rfl, nodup_of_held hids hheld, hheld.2,
    hheld.1.subset, nearestMedoid_spec found, fun s hs hlt => ?_⟩
  · rw [deterministicPam, if_neg (by omega), Int.toNat_natCast, hloop, Option.map_some]
  · exact not_accepts_of_fixed hids hheld hfixed hs (.inl hlt)

/-- The distances of three records on a line, the second between the others. -/
def lineTable (x y : PyStr) : Rat :=
  if x = y then 0 else if x = py "b" ∨ y = py "b" then 1 else 2

theorem deterministicPam_settles_line :
    Settles lineTable [py "a", py "b", py "c"] 1 := by
  refine deterministicPam_settles (by decide +kernel) (by decide) (by decide) fun n => ?_
  have hfixed : swapRound lineTable [py "a", py "b", py "c"]
      (firstMedoids lineTable (py "a") [py "b", py "c"] 1) =
      firstMedoids lineTable (py "a") [py "b", py "c"] 1 := by decide +kernel
  rw [Function.iterate_fixed hfixed]
  decide +kernel

/-- Four records whose total distances are 32, 31, 30 and 33 units of the last decimal. -/
def fineTable (x y : PyStr) : Rat :=
  if x = y then 0 else if (x = py "d" ∨ y = py "d") ∧ (x = py "a" ∨ y = py "a") then 12 * tolerance
  else if (x = py "d" ∨ y = py "d") ∧ (x = py "b" ∨ y = py "b") then 11 * tolerance
  else 10 * tolerance

/-- The ids of the four records. -/
def fineIds : List PyStr := [py "a", py "b", py "c", py "d"]

/-- The medoid moves from the third record to the second, and back: the first is accepted within
the tolerance of the second, and the third lowers the cost of the first by two units. -/
theorem deterministicPam_not_settles :
    (∀ x y, fineTable x y = fineTable y x ∧ 0 ≤ fineTable x y ∧ fineTable x x = 0) ∧
      ¬ Settles fineTable fineIds 1 := by
  have hsecond : swapRound fineTable fineIds ⟨[py "c"], cons_ne_nil _ _⟩ =
      ⟨[py "b"], cons_ne_nil _ _⟩ := by decide +kernel
  have hthird : swapRound fineTable fineIds ⟨[py "b"], cons_ne_nil _ _⟩ =
      ⟨[py "c"], cons_ne_nil _ _⟩ := by decide +kernel
  have hfirst : firstMedoids fineTable (py "a") [py "b", py "c", py "d"] 1 =
      ⟨[py "c"], cons_ne_nil _ _⟩ := by decide +kernel
  have hloop : ∀ fuel, swapLoop fineTable fineIds fuel ⟨[py "c"], cons_ne_nil _ _⟩ = none ∧
      swapLoop fineTable fineIds fuel ⟨[py "b"], cons_ne_nil _ _⟩ = none := by
    intro fuel
    induction fuel with
    | zero => exact ⟨rfl, rfl⟩
    | succ fuel ih =>
      rw [swapLoop, swapLoop, hsecond, hthird, if_neg (by decide +kernel),
        if_neg (by decide +kernel)]
      exact ih.symm
  refine ⟨fun x y => ⟨?_, ?_, if_pos rfl⟩, ?_⟩
  · unfold fineTable
    simp only [eq_comm (a := x), and_comm, or_comm]
  · unfold fineTable
    split_ifs <;> norm_num [tolerance]
  · rintro ⟨fuel, result, h, -⟩
    rw [fineIds, deterministicPam, if_neg (by decide), show ((1 : Nat) : Int).toNat = 1 from rfl,
      hfirst, ← fineIds, (hloop fuel).1] at h
    cases h

end OvcReplay.PatternDiscovery
