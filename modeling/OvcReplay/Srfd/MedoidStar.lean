import OvcReplay.Srfd.Families

/-! # Medoid stars

The greedy method of `families.py`, of `families_optimized.py`, and of `family_grid_reuse.py`, which
records the steps once and materializes catalogues from them. A pass removes what the best candidate
covers, until the best candidate covers too little. -/

namespace OvcReplay.Srfd

open List Python OvcReplay.Lists

variable (P : Platform)

/-- `radius is None`. -/
def medoidRadius (spec : FamilyMethodSpec) : Except Error PyDecimal :=
  match spec.radius with
  | none => .error (.family (py "DIST_INVALID_PARAMETER") (py "medoid-star radius required"))
  | some radius => dec P radius

/-- A medoid and the records it covers. -/
structure Step where
  medoid : PyStr
  covered : List PyStr

/-- A candidate of a pass. -/
structure Candidate extends Step where
  total : PyDecimal

/-- The candidate that covers these records. -/
def candidateOf (medoid : PyStr) (near : List (PyStr × PyDecimal)) : Except Error Candidate :=
  (sumOf (near.map Prod.snd)).map fun total => ⟨⟨medoid, near.map Prod.fst⟩, total⟩

/-! ## The reference -/

variable (matrix : DistanceMatrix)

/-- The items within the radius of a candidate, with their distances. -/
def within (radius : PyDecimal) (items : List PyStr)
    (candidate : PyStr) : Except Error (List (PyStr × PyDecimal)) := do
  let distances ← items.mapM fun item =>
    (matrix.distance P candidate item).map fun distance => (item, distance)
  return distances.filter fun p => p.2.rat ≤ radius.rat

/-- The families so far, and the records in none of them. -/
structure Covering where
  remaining : List PyStr
  families : List Family

/-- The family of a step. -/
def familyOf (spec : FamilyMethodSpec) (matrix : DistanceMatrix) (step : Step) :
    Except Error Family :=
  family P (seed spec matrix) step.covered "MEDOID" (some step.medoid) spec.methodId

/-- The best candidate covers most, at the least total distance, and has the least id. -/
def bestOf (scored : List Candidate) : Except Error Candidate :=
  minBy (fun c : Candidate => toLex (-(c.covered.length : Int), toLex (c.total.rat, c.medoid))) scored

/-- The body of the `while` loop. -/
def medoidStarPass (spec : FamilyMethodSpec) (radius : PyDecimal)
    (s : Covering) : Except Error (Covering × Bool) :=
  if s.remaining = [] then .ok (s, false)
  else do
    let items := sortedBy id s.remaining
    let scored ← items.mapM fun candidate => do
      candidateOf candidate (← within P matrix radius items candidate)
    let best ← bestOf scored
    if (best.covered.length : Int) < spec.minimumSupport then .ok (s, false)
    else (familyOf P spec matrix best.toStep).map fun f =>
      (⟨s.remaining.filter fun item => item ∉ best.covered, s.families ++ [f]⟩, true)

/-- `medoid_star`. -/
def medoidStar (spec : FamilyMethodSpec) : Except Error FamilyCatalog := do
  let radius ← medoidRadius P spec
  let s ← loop (medoidStarPass P matrix spec radius) matrix.ids.length ⟨matrix.ids, []⟩
  catalog P spec matrix s.families (sortedBy id s.remaining) []

/-! ## The optimized version -/

/-- A `PreparedDistanceMatrix`. -/
structure PreparedDistanceMatrix where
  ids : List PyStr
  values : Dict PyStr PyDecimal

namespace PreparedDistanceMatrix

/-- `from_matrix`. -/
def fromMatrix : Except Error PreparedDistanceMatrix :=
  (matrix.values.mapM fun p => (dec P p.2).map fun d => (p.1, d)).map fun values =>
    ⟨matrix.ids, values⟩

/-- `distance`. -/
def distance (prepared : PreparedDistanceMatrix) (left right : PyStr) : Except Error PyDecimal :=
  if left = right then .ok (.finite false 0 0)
  else
    match prepared.values.get? (pairKey left right) with
    | none => .error (DistanceMatrix.missing left right)
    | some d => .ok d

end PreparedDistanceMatrix

/-- What is near each record, itself included. -/
abbrev Adjacency : Type := Dict PyStr (List (PyStr × PyDecimal))

namespace Adjacency

/-- `adjacency[item]`. -/
def near (adjacency : Adjacency) (item : PyStr) : List (PyStr × PyDecimal) :=
  (adjacency.get? item).getD []

/-- `adjacency[item].append(x)`. -/
def push (adjacency : Adjacency) (item : PyStr) (x : PyStr × PyDecimal) : Adjacency :=
  adjacency.set item (adjacency.near item ++ [x])

/-- One pair of the population. -/
def visit (prepared : PreparedDistanceMatrix) (radius : PyDecimal) (adjacency : Adjacency)
    (p : PyStr × PyStr) : Except Error Adjacency :=
  (prepared.distance p.1 p.2).map fun distance =>
    if distance.rat ≤ radius.rat then
      (adjacency.push p.1 (p.2, distance)).push p.2 (p.1, distance)
    else adjacency

/-- The pairs within the radius, sorted at every record. -/
def build (prepared : PreparedDistanceMatrix) (ids : List PyStr) (radius : PyDecimal) :
    Except Error Adjacency :=
  ((pairs ids).foldlM (visit prepared radius)
    (ids.map fun item => (item, [(item, .finite false 0 0)]))).map fun adjacency =>
      adjacency.map fun p => (p.1, sortedBy Prod.fst p.2)

end Adjacency

/-- The records not yet covered, how many of them are near each, and the steps so far. -/
structure Active where
  active : List PyStr
  counts : Dict PyStr Int
  steps : List Step

/-- `active_counts[item]`. -/
def Active.count (s : Active) (item : PyStr) : Int := (s.counts.get? item).getD 0

/-- The counts once the covered records are no longer active. -/
def lowerCounts (adjacency : Adjacency) (active covered : List PyStr) (counts : Dict PyStr Int) :
    Dict PyStr Int :=
  covered.foldl (fun counts removed =>
    (adjacency.near removed).foldl (fun counts p =>
      if p.1 ∈ active then counts.set p.1 ((counts.get? p.1).getD 0 - 1) else counts)
      counts) counts

/-- The body of the `while` loop; it ends when the best candidate covers less than the threshold. -/
def activePass (adjacency : Adjacency) (threshold : Int) (s : Active) :
    Except Error (Active × Bool) :=
  if s.active = [] then .ok (s, false)
  else do
    let items := sortedBy id s.active
    let tied := items.filter fun item => items.all fun other => s.count other ≤ s.count item
    let scored ← tied.mapM fun candidate =>
      candidateOf candidate ((adjacency.near candidate).filter fun p => p.1 ∈ s.active)
    let best ← minBy (fun c : Candidate => toLex (c.total.rat, c.medoid)) scored
    if (best.covered.length : Int) < threshold then .ok (s, false)
    else
      let active := s.active.filter fun item => item ∉ best.covered
      .ok (⟨active, lowerCounts adjacency active best.covered s.counts,
        s.steps ++ [best.toStep]⟩, true)

/-- The steps of the loop, and what remains active. -/
def coverSteps (radius : PyDecimal) (threshold : Int) :
    Except Error Active := do
  let prepared ← PreparedDistanceMatrix.fromMatrix P matrix
  let adjacency ← Adjacency.build prepared matrix.ids radius
  loop (activePass adjacency threshold) matrix.ids.length
    ⟨matrix.ids, adjacency.map fun p => (p.1, (p.2.length : Int)), []⟩

/-- `medoid_star_optimized`. -/
def medoidStarOptimized (spec : FamilyMethodSpec) :
    Except Error FamilyCatalog := do
  let radius ← medoidRadius P spec
  let s ← coverSteps P matrix radius spec.minimumSupport
  let families ← s.steps.mapM (familyOf P spec matrix)
  catalog P spec matrix families (sortedBy id s.active) []

/-! ## Traces -/

/-- A `MedoidStarTrace`. -/
structure MedoidStarTrace where
  radius : PyStr
  populationIds : List PyStr
  steps : List Step

/-- `build_medoid_star_trace`. -/
def buildMedoidStarTrace (radius : PyStr) :
    Except Error MedoidStarTrace := do
  let bound ← dec P radius
  let s ← coverSteps P matrix bound 2
  return ⟨bound.formatF, matrix.ids, s.steps⟩

/-- The loop over the steps of a trace. -/
def replaySteps (matrix : DistanceMatrix) (spec : FamilyMethodSpec) :
    List Step → List PyStr → Except Error Covering
  | [], remaining => .ok ⟨remaining, []⟩
  | step :: steps, remaining =>
    if (step.covered.length : Int) < spec.minimumSupport then .ok ⟨remaining, []⟩
    else do
      check (∀ item ∈ step.covered, item ∈ remaining)
        (.family (py "QA_NON_REPRODUCIBLE") (py "medoid trace coverage mismatch"))
      let f ← familyOf P spec matrix step
      let rest ← replaySteps matrix spec steps
        (remaining.filter fun item => item ∉ step.covered)
      return ⟨rest.remaining, f :: rest.families⟩

/-- `materialize_medoid_star_trace`. -/
def materializeMedoidStarTrace (trace : MedoidStarTrace)
    (spec : FamilyMethodSpec) : Except Error FamilyCatalog := do
  let mismatch := Error.family (py "DIST_INVALID_PARAMETER") (py "medoid trace/spec radius mismatch")
  match spec.radius with
  | none => .error mismatch
  | some radius => do
    let bound ← dec P radius
    let traced ← dec P trace.radius
    check (bound.rat = traced.rat) mismatch
    check (trace.populationIds = matrix.ids)
      (.family (py "QA_NON_REPRODUCIBLE") (py "medoid trace population mismatch"))
    let s ← replaySteps P matrix spec trace.steps matrix.ids
    catalog P spec matrix s.families (sortedBy id s.remaining) []

/-! ## Steps partition the population -/

variable {P} {matrix : DistanceMatrix} {spec : FamilyMethodSpec} {radius : PyDecimal}

theorem memberIds_of_familyOf {step : Step} {f : Family}
    (h : familyOf P spec matrix step = .ok f) : f.memberIds.Perm step.covered :=
  memberIds_of_family h

variable {near : List (PyStr × PyDecimal)}

theorem candidateOf_ok {medoid : PyStr} {c : Candidate} (h : candidateOf medoid near = .ok c) :
    c.medoid = medoid ∧ c.covered = near.map Prod.fst := by
  obtain ⟨_, -, rfl⟩ := map_ok.mp h
  exact ⟨rfl, rfl⟩

/-! ### The reference -/

/-- What is within the radius are some of the items, in their order. -/
theorem within_sublist {items : List PyStr} {candidate : PyStr}
    (h : within P matrix radius items candidate = .ok near) :
    (near.map Prod.fst).Sublist items := by
  simp only [within, bind_ok, pure_ok] at h
  obtain ⟨distances, hdists, rfl⟩ := h
  have hitems : distances.map Prod.fst = items := by
    rw [mapM_ok_iff] at hdists
    induction hdists with
    | nil => rfl
    | cons hp _ ih =>
      obtain ⟨d, -, rfl⟩ := map_ok.mp hp
      rw [map_cons, ih]
  exact hitems ▸ filter_sublist.map Prod.fst

/-- **One pass of the reference**: it ends the loop, or moves some of the remaining records, at least
as many as the support, into a family. -/
theorem medoidStarPass_ok {s s' : Covering} {again : Bool}
    (h : medoidStarPass P matrix spec radius s = .ok (s', again)) :
    (s' = s ∧ again = false) ∨ ∃ (f : Family) (covered : List PyStr),
      s' = ⟨s.remaining.filter fun item => item ∉ covered, s.families ++ [f]⟩ ∧ again = true ∧
      f.memberIds.Perm covered ∧ covered.Sublist (sortedBy id s.remaining) ∧
      spec.minimumSupport ≤ covered.length := by
  rw [medoidStarPass] at h
  split at h
  · cases h
    exact .inl ⟨rfl, rfl⟩
  · simp only [bind_ok] at h
    obtain ⟨scored, hscored, best, hbest, h⟩ := h
    obtain ⟨candidate, -, hc⟩ := mem_of_mapM_right hscored (mem_of_minBy hbest)
    obtain ⟨near, hnear, hc⟩ := bind_ok.mp hc
    have hcovered := (candidateOf_ok hc).2
    split at h
    · cases h
      exact .inl ⟨rfl, rfl⟩
    · rename_i hlen
      obtain ⟨f, hf, heq⟩ := map_ok.mp h
      cases heq
      exact .inr ⟨f, best.covered, rfl, rfl, memberIds_of_familyOf hf,
        hcovered ▸ within_sublist hnear, not_lt.mp hlen⟩

variable {c : FamilyCatalog}

/-- **`medoid_star` partitions its population.** -/
theorem partitions_medoidStar (h : medoidStar P matrix spec = .ok c) : Partitions c matrix.ids := by
  simp only [medoidStar, bind_ok] at h
  obtain ⟨radius, -, s, hs, hc⟩ := h
  have hinv : (s.families.flatMap Family.memberIds ++ s.remaining).Perm matrix.ids := by
    refine loop_invariant (I := fun s : Covering =>
      (s.families.flatMap Family.memberIds ++ s.remaining).Perm matrix.ids) ?_ (by simp) hs
    intro s s' again hs hpass
    rcases medoidStarPass_ok hpass with ⟨rfl, -⟩ | ⟨f, covered, rfl, -, hf, hsub, -⟩
    · exact hs
    · have hrem : s.remaining.Nodup :=
        (nodup_append.mp (hs.nodup_iff.mpr matrix.nodup)).2.1
      have hsort := (sortedBy_perm id s.remaining).nodup_iff.mpr hrem
      have hsplit := append_filter_notMem_perm (hsort.sublist hsub)
        (fun a ha => mem_sortedBy.mp (hsub.subset ha)) hrem
      rw [flatMap_append, flatMap_singleton, append_assoc]
      exact (((hf.append_right _).trans hsplit).append_left _).trans hs
  have hrem : s.remaining.Nodup :=
    (nodup_append.mp (hinv.nodup_iff.mpr matrix.nodup)).2.1
  rw [catalog_partitions_iff hc ((sortedBy_perm id s.remaining).nodup_iff.mpr hrem)]
  exact ((sortedBy_perm id s.remaining).append_left _).trans hinv

/-- The loop of `medoid_star` ends by itself: more passes change nothing. -/
theorem loop_medoidStarPass {fuel : Nat} (hfuel : matrix.ids.length ≤ fuel) :
    loop (medoidStarPass P matrix spec radius) fuel ⟨matrix.ids, []⟩ =
      loop (medoidStarPass P matrix spec radius) matrix.ids.length ⟨matrix.ids, []⟩ := by
  refine loop_fuel (μ := fun s : Covering => s.remaining.length)
    (I := fun s : Covering => s.remaining.Nodup) ?_ ?_ matrix.nodup hfuel
  · intro s s' hs hpass
    rcases medoidStarPass_ok hpass with ⟨-, hagain⟩ | ⟨f, covered, rfl, -, -, hsub, hlen⟩
    · cases hagain
    · have hsort := (sortedBy_perm id s.remaining).nodup_iff.mpr hs
      have hsupport := spec.support
      refine ⟨hs.filter _, length_filter_notMem_lt (hsort.sublist hsub)
        (fun a ha => mem_sortedBy.mp (hsub.subset ha)) hs (by omega)⟩
  · intro s _ hs
    rw [medoidStarPass, if_pos (length_eq_zero_iff.mp hs)]

/-! ### The optimized version -/

namespace Adjacency

/-- The records near an item. -/
def names (adjacency : Adjacency) (item : PyStr) : List PyStr :=
  (adjacency.near item).map Prod.fst

theorem names_push (adjacency : Adjacency) (item : PyStr) (x : PyStr × PyDecimal) (q : PyStr) :
    (adjacency.push item x).names q =
      if item = q then adjacency.names item ++ [x.1] else adjacency.names q := by
  rw [names, near, push, Dict.get?_set]
  split
  · simp [names]
  · rfl

/-- The pairs still to come are not linked, and no record is listed twice. -/
structure Fresh (adjacency : Adjacency) (rest : List (PyStr × PyStr)) : Prop where
  nodup : ∀ item, (adjacency.names item).Nodup
  left : ∀ p ∈ rest, p.2 ∉ adjacency.names p.1
  right : ∀ p ∈ rest, p.1 ∉ adjacency.names p.2

variable {adjacency : Adjacency}

/-- Linking a pair leaves the later pairs unlinked. -/
theorem Fresh.link {p : PyStr × PyStr} {rest : List (PyStr × PyStr)}
    (h : adjacency.Fresh (p :: rest)) (hne : p.1 ≠ p.2)
    (hrest : ∀ q ∈ rest, p ≠ q ∧ p ≠ q.swap) (d : PyDecimal) :
    ((adjacency.push p.1 (p.2, d)).push p.2 (p.1, d)).Fresh rest := by
  have hnames : ∀ q, ((adjacency.push p.1 (p.2, d)).push p.2 (p.1, d)).names q =
      if p.2 = q then adjacency.names p.2 ++ [p.1]
      else if p.1 = q then adjacency.names p.1 ++ [p.2] else adjacency.names q := by
    intro q
    rw [names_push, names_push, names_push, if_neg hne]
  have hleft := h.left p (by simp)
  have hright := h.right p (by simp)
  -- a later pair would have to be the one that was linked
  have hkeep : ∀ q r, q ∉ adjacency.names r → ¬ (p.1 = q ∧ p.2 = r) → ¬ (p.1 = r ∧ p.2 = q) →
      q ∉ ((adjacency.push p.1 (p.2, d)).push p.2 (p.1, d)).names r := by
    intro q r hq hone htwo
    rw [hnames]
    split
    · rename_i heq
      subst heq
      simp only [mem_append, mem_singleton, not_or]
      exact ⟨hq, fun heq => hone ⟨heq.symm, rfl⟩⟩
    · split
      · rename_i heq
        subst heq
        simp only [mem_append, mem_singleton, not_or]
        exact ⟨hq, fun heq => htwo ⟨rfl, heq.symm⟩⟩
      · exact hq
  refine ⟨?_, ?_, ?_⟩
  · intro item
    rw [hnames]
    split
    · exact Nodup.append (h.nodup _) (nodup_singleton _) (by simpa using hright)
    · split
      · exact Nodup.append (h.nodup _) (nodup_singleton _) (by simpa using hleft)
      · exact h.nodup item
  · intro q hq
    obtain ⟨hone, htwo⟩ := hrest q hq
    refine hkeep q.2 q.1 (h.left q (mem_cons_of_mem _ hq)) ?_ ?_
    · rintro ⟨ha, hb⟩
      exact htwo (Prod.ext ha hb)
    · rintro ⟨ha, hb⟩
      exact hone (Prod.ext ha hb)
  · intro q hq
    obtain ⟨hone, htwo⟩ := hrest q hq
    refine hkeep q.1 q.2 (h.right q (mem_cons_of_mem _ hq)) ?_ ?_
    · rintro ⟨ha, hb⟩
      exact hone (Prod.ext ha hb)
    · rintro ⟨ha, hb⟩
      exact htwo (Prod.ext ha hb)

variable {prepared : PreparedDistanceMatrix}

/-- The loop over the pairs lists no record twice. -/
theorem Fresh.foldlM {adjacency' : Adjacency} {rest : List (PyStr × PyStr)}
    (h : adjacency.Fresh rest) (hne : ∀ p ∈ rest, p.1 ≠ p.2)
    (hrest : rest.Pairwise fun p q => p ≠ q ∧ p ≠ q.swap)
    (hrun : rest.foldlM (visit prepared radius) adjacency = .ok adjacency') :
    ∀ item, (adjacency'.names item).Nodup := by
  induction rest generalizing adjacency with
  | nil =>
    cases hrun
    exact h.nodup
  | cons p rest ih =>
    rw [foldlM_cons, bind_ok] at hrun
    obtain ⟨next, hnext, hrun⟩ := hrun
    rw [pairwise_cons] at hrest
    refine ih ?_ (fun q hq => hne q (mem_cons_of_mem _ hq)) hrest.2 hrun
    obtain ⟨d, -, rfl⟩ := map_ok.mp hnext
    split
    · exact h.link (hne p (by simp)) hrest.1 d
    · exact ⟨h.nodup, fun q hq => h.left q (mem_cons_of_mem _ hq),
        fun q hq => h.right q (mem_cons_of_mem _ hq)⟩

/-- **No record is listed twice near another.** -/
theorem names_nodup {ids : List PyStr} (hids : ids.Nodup)
    (h : build prepared ids radius = .ok adjacency) (item : PyStr) :
    (adjacency.names item).Nodup := by
  obtain ⟨linked, hlinked, rfl⟩ := map_ok.mp h
  -- at first every record is near itself only
  have hnames : ∀ q, names (ids.map fun item => (item, [(item, .finite false 0 0)])) q =
      if q ∈ ids then [q] else [] := by
    intro q
    clear hids h hlinked
    induction ids with
    | nil => rfl
    | cons i ids ih =>
      rw [names, near] at ih ⊢
      rw [map_cons, Dict.get?_cons]
      by_cases hi : i = q
      · simp [hi]
      · rw [if_neg hi, ih]
        simp [Ne.symm hi]
  have hfresh : Fresh (ids.map fun item => (item, [(item, .finite false 0 0)]))
      (pairs ids) := by
    refine ⟨fun q => ?_, fun p hp => ?_, fun p hp => ?_⟩
    · rw [hnames]
      split <;> simp
    · have hne := rel_of_mem_pairs hids hp
      rw [hnames]
      split <;> simp [Ne.symm hne]
    · have hne := rel_of_mem_pairs hids hp
      rw [hnames]
      split <;> simp [hne]
  have hnd := hfresh.foldlM (fun p hp => rel_of_mem_pairs hids hp) (pairs_pairwise hids) hlinked
  have hnear : (Adjacency.near (linked.map fun p => (p.1, sortedBy Prod.fst p.2)) item) =
      sortedBy Prod.fst (linked.near item) := by
    rw [near, Dict.get?_map, near]
    cases linked.get? item <;> rfl
  rw [names, hnear]
  exact ((sortedBy_perm Prod.fst (linked.near item)).map Prod.fst).nodup_iff.mpr (hnd item)

end Adjacency

variable {threshold : Int}

variable {s : Active}

/-- **One pass of the optimized version**: it ends the loop, or moves some of the active records, at
least as many as the threshold, into a step. -/
theorem activePass_ok {adjacency : Adjacency} {s' : Active} {again : Bool}
    (hnames : ∀ item, (adjacency.names item).Nodup)
    (h : activePass adjacency threshold s = .ok (s', again)) :
    (s' = s ∧ again = false) ∨ ∃ step : Step,
      s'.active = (s.active.filter fun item => item ∉ step.covered) ∧
      s'.steps = s.steps ++ [step] ∧ again = true ∧ step.covered.Nodup ∧
      step.covered ⊆ s.active ∧ threshold ≤ step.covered.length := by
  rw [activePass] at h
  split at h
  · cases h
    exact .inl ⟨rfl, rfl⟩
  · simp only [bind_ok] at h
    obtain ⟨scored, hscored, best, hbest, h⟩ := h
    obtain ⟨candidate, -, hc⟩ := mem_of_mapM_right hscored (mem_of_minBy hbest)
    have hcovered := (candidateOf_ok hc).2
    split at h
    · cases h
      exact .inl ⟨rfl, rfl⟩
    · rename_i hlen
      cases h
      refine .inr ⟨best.toStep, rfl, rfl, rfl, ?_, ?_, not_lt.mp hlen⟩
      · rw [hcovered]
        exact (hnames candidate).sublist (filter_sublist.map Prod.fst)
      · intro a ha
        rw [hcovered] at ha
        obtain ⟨p, hp, rfl⟩ := mem_map.mp ha
        simpa using (mem_filter.mp hp).2

/-- **The steps cover distinct records, and together with what remains active all of them.** -/
theorem coverSteps_perm (h : coverSteps P matrix radius threshold = .ok s) :
    (s.steps.flatMap Step.covered ++ s.active).Perm matrix.ids := by
  simp only [coverSteps, bind_ok] at h
  obtain ⟨prepared, -, adjacency, hadj, hs⟩ := h
  have hnames := Adjacency.names_nodup matrix.nodup hadj
  refine loop_invariant (I := fun s : Active =>
    (s.steps.flatMap Step.covered ++ s.active).Perm matrix.ids) ?_ (by simp) hs
  intro s s' again hs hpass
  rcases activePass_ok hnames hpass with ⟨rfl, -⟩ | ⟨step, hact, hsteps, -, hnd, hsub, -⟩
  · exact hs
  · have hrem : s.active.Nodup :=
      (nodup_append.mp (hs.nodup_iff.mpr matrix.nodup)).2.1
    rw [hact, hsteps, flatMap_append, flatMap_singleton, append_assoc]
    exact ((append_filter_notMem_perm hnd hsub hrem).append_left _).trans hs

/-- The loop over the active records ends by itself: more passes change nothing. -/
theorem loop_activePass {adjacency : Adjacency} (hthr : 2 ≤ threshold)
    (hnames : ∀ item, (adjacency.names item).Nodup) (hs : s.active.Nodup) {fuel : Nat}
    (hfuel : s.active.length ≤ fuel) : loop (activePass adjacency threshold) fuel s =
      loop (activePass adjacency threshold) s.active.length s := by
  refine loop_fuel (μ := fun s : Active => s.active.length)
    (I := fun s : Active => s.active.Nodup) ?_ ?_ hs hfuel
  · intro s s' hs hpass
    rcases activePass_ok hnames hpass with ⟨-, hagain⟩ |
      ⟨step, hact, -, -, hnd, hsub, hlen⟩
    · cases hagain
    · rw [hact]
      exact ⟨hs.filter _, length_filter_notMem_lt hnd hsub hs (by omega)⟩
  · intro s _ hs
    rw [activePass, if_pos (length_eq_zero_iff.mp hs)]

/-- The families of steps have the members the steps cover. -/
theorem flatMap_memberIds_of_mapM {steps : List Step} {families : List Family}
    (h : steps.mapM (familyOf P spec matrix) = .ok families) :
    (families.flatMap Family.memberIds).Perm (steps.flatMap Step.covered) := by
  rw [mapM_ok_iff] at h
  induction h with
  | nil => exact .nil
  | cons hf _ ih =>
    rw [flatMap_cons, flatMap_cons]
    exact (memberIds_of_familyOf hf).append ih

/-- **`medoid_star_optimized` partitions its population.** -/
theorem partitions_medoidStarOptimized (h : medoidStarOptimized P matrix spec = .ok c) :
    Partitions c matrix.ids := by
  simp only [medoidStarOptimized, bind_ok] at h
  obtain ⟨radius, -, s, hs, families, hfams, hc⟩ := h
  have hperm := coverSteps_perm hs
  have hact := (nodup_append.mp (hperm.nodup_iff.mpr matrix.nodup)).2.1
  rw [catalog_partitions_iff hc ((sortedBy_perm id s.active).nodup_iff.mpr hact)]
  exact ((flatMap_memberIds_of_mapM hfams).append (sortedBy_perm id s.active)).trans hperm

/-! ### Traces -/

/-- Replayed steps move distinct records into families. -/
theorem replaySteps_perm {steps : List Step} (hsteps : ∀ step ∈ steps, step.covered.Nodup)
    {remaining : List PyStr} (hrem : remaining.Nodup) {s : Covering}
    (h : replaySteps P matrix spec steps remaining = .ok s) :
    (s.families.flatMap Family.memberIds ++ s.remaining).Perm remaining := by
  induction steps generalizing remaining s with
  | nil =>
    cases h
    exact .refl _
  | cons step steps ih =>
    rw [replaySteps] at h
    split at h
    · cases h
      exact .refl _
    · simp only [bind_ok, check_ok, pure_ok] at h
      obtain ⟨-, hsub, f, hf, rest, hrest, rfl⟩ := h
      have hperm := ih (fun s hs => hsteps s (mem_cons_of_mem _ hs)) (hrem.filter _)
        hrest
      rw [flatMap_cons, append_assoc]
      exact ((memberIds_of_familyOf hf).append hperm).trans
        (append_filter_notMem_perm (hsteps step (by simp)) hsub hrem)

/-- **A catalogue materialized from a trace of its population partitions it.** -/
theorem partitions_materializeMedoidStarTrace {traced : PyStr} {trace : MedoidStarTrace}
    (htrace : buildMedoidStarTrace P matrix traced = .ok trace)
    (h : materializeMedoidStarTrace P matrix trace spec = .ok c) : Partitions c matrix.ids := by
  simp only [buildMedoidStarTrace, bind_ok, pure_ok] at htrace
  obtain ⟨bound, -, active, hact, rfl⟩ := htrace
  have hnd : ∀ step ∈ active.steps, step.covered.Nodup := by
    intro step hstep
    have hall := (nodup_append.mp
      ((coverSteps_perm hact).nodup_iff.mpr matrix.nodup)).1
    exact (nodup_flatMap.mp hall).1 step hstep
  simp only [materializeMedoidStarTrace] at h
  split at h
  · cases h
  · simp only [bind_ok] at h
    obtain ⟨_, -, _, -, _, -, _, -, s, hs, hc⟩ := h
    have hperm := replaySteps_perm hnd matrix.nodup hs
    have hrem := (nodup_append.mp (hperm.nodup_iff.mpr matrix.nodup)).2.1
    rw [catalog_partitions_iff hc ((sortedBy_perm id s.remaining).nodup_iff.mpr hrem)]
    exact ((sortedBy_perm id s.remaining).append_left _).trans hperm

/-! ## The prepared distances -/

/-- The distances that were parsed once are those that are parsed each time. -/
theorem distance_fromMatrix {prepared : PreparedDistanceMatrix}
    (h : PreparedDistanceMatrix.fromMatrix P matrix = .ok prepared) :
    prepared.distance = matrix.distance P := by
  obtain ⟨values, hvals, rfl⟩ := map_ok.mp h
  have hget : ∀ key, (values.get? key).elim (matrix.values.get? key = none)
      fun d => ∃ text, matrix.values.get? key = some text ∧ dec P text = .ok d := by
    intro key
    rw [mapM_ok_iff] at hvals
    clear h
    generalize matrix.values = texts at hvals ⊢
    induction hvals with
    | nil => rfl
    | @cons p q _ _ hp _ ih =>
      obtain ⟨k, text⟩ := p
      obtain ⟨d, hd, rfl⟩ := map_ok.mp hp
      rw [Dict.get?_cons, Dict.get?_cons]
      by_cases hk : k = key
      · rw [if_pos hk, if_pos hk]
        exact ⟨text, rfl, hd⟩
      · rw [if_neg hk, if_neg hk]
        exact ih
  funext left right
  rw [PreparedDistanceMatrix.distance, DistanceMatrix.distance]
  split
  · rfl
  · have hkey := hget (pairKey left right)
    cases hd : values.get? (pairKey left right) with
    | none =>
      rw [hd] at hkey
      rw [show matrix.values.get? (pairKey left right) = none from hkey]
    | some d =>
      rw [hd] at hkey
      obtain ⟨text, htext, hdec⟩ := hkey
      rw [htext]
      exact hdec.symm

end OvcReplay.Srfd
