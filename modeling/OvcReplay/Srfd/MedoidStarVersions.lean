import OvcReplay.Srfd.Coverage

/-! # The versions of medoid star agree

The optimized version counts what the reference scans for, and a trace that was recorded for the
least support is cut off where a larger support ends the loop. A difference is left only where a sum
of distances is too large for the decimal context: the reference adds up what every candidate covers,
the other versions what the candidates with the most support cover. -/

namespace OvcReplay.Srfd

open List Python OvcReplay.Lists

variable {P : Platform} {matrix : DistanceMatrix} {spec : FamilyMethodSpec} {radius : PyDecimal}

/-! ## One pass -/

/-- The best of the remaining records. -/
def bestRemaining (P : Platform) (matrix : DistanceMatrix) (radius : PyDecimal)
    (remaining : List PyStr) : Except Error Candidate := do
  let items := sortedBy id remaining
  let scored ← items.mapM fun candidate => do
    candidateOf candidate (← within P matrix radius items candidate)
  bestOf scored

/-- The best of the active records. -/
def bestActive (adjacency : Adjacency) (s : Active) : Except Error Candidate := do
  let items := sortedBy id s.active
  let tied := items.filter fun item => items.all fun other => s.count other ≤ s.count item
  let scored ← tied.mapM fun candidate =>
    candidateOf candidate ((adjacency.near candidate).filter fun p => p.1 ∈ s.active)
  minBy (fun c : Candidate => toLex (c.total.rat, c.medoid)) scored

/-- The records without those that a step covers. -/
def Step.leaves (step : Step) (items : List PyStr) : List PyStr :=
  items.filter fun item => item ∉ step.covered

/-- The active records after a step. -/
def Active.after (adjacency : Adjacency) (s : Active) (step : Step) : Active :=
  ⟨step.leaves s.active, lowerCounts adjacency (step.leaves s.active) step.covered s.counts,
    s.steps ++ [step]⟩

theorem medoidStarPass_eq (remaining : List PyStr) (families : List Family) (hne : remaining ≠ []) :
    medoidStarPass P matrix spec radius ⟨remaining, families⟩ =
      bestRemaining P matrix radius remaining >>= fun best =>
        if (best.covered.length : Int) < spec.minimumSupport then .ok (⟨remaining, families⟩, false)
        else (familyOf P spec matrix best.toStep).map fun f =>
          (⟨best.toStep.leaves remaining, families ++ [f]⟩, true) := by
  rw [medoidStarPass, if_neg hne]
  simp only [bestRemaining, bind_assoc]
  rfl

theorem activePass_eq (adjacency : Adjacency) (threshold : Int) (s : Active) (hne : s.active ≠ []) :
    activePass adjacency threshold s = bestActive adjacency s >>= fun best =>
      if (best.covered.length : Int) < threshold then .ok (s, false)
      else .ok (s.after adjacency best.toStep, true) := by
  rw [activePass, if_neg hne]
  simp only [bestActive, bind_assoc]
  rfl

theorem activePass_nil (adjacency : Adjacency) (threshold : Int) (s : Active)
    (hnil : s.active = []) : activePass adjacency threshold s = .ok (s, false) := by
  rw [activePass, if_pos hnil]

/-- The best of the active records covers active records. -/
theorem covered_subset {adjacency : Adjacency} {s : Active} {best : Candidate}
    (h : bestActive adjacency s = .ok best) : ∀ item ∈ best.covered, item ∈ s.active := by
  simp only [bestActive, bind_ok] at h
  obtain ⟨scored, hscored, hbest⟩ := h
  obtain ⟨candidate, -, hc⟩ := mem_of_mapM_right hscored (mem_of_minBy hbest)
  rw [(candidateOf_ok hc).2]
  intro item hitem
  obtain ⟨p, hp, rfl⟩ := mem_map.mp hitem
  simpa using (mem_filter.mp hp).2

/-! ## Traces -/

variable (P) in
/-- The catalogue that is materialized from a trace for this radius. -/
def medoidStarTraced (matrix : DistanceMatrix) (radius : PyStr) (spec : FamilyMethodSpec) :
    Except Error FamilyCatalog := do
  let trace ← buildMedoidStarTrace P matrix radius
  materializeMedoidStarTrace P matrix trace spec

/-- The body of a loop that goes on. -/
theorem loop_of_continues {ε σ : Type} {body : σ → Except ε (σ × Bool)} {fuel : Nat} {s s' : σ}
    (h : body s = .ok (s', true)) : loop body (fuel + 1) s = loop body fuel s' := by
  rw [loop, h]

/-- The body of a loop that ends it. -/
theorem loop_of_ends {ε σ : Type} {body : σ → Except ε (σ × Bool)} {fuel : Nat} {s s' : σ}
    (h : body s = .ok (s', false)) : loop body (fuel + 1) s = .ok s' := by
  rw [loop, h]

variable (P matrix) in
/-- **A trace for the least support contains the steps for a larger one**, and the replay stops where
the loop with the larger support does. -/
theorem loop_threshold {adjacency : Adjacency} {m : Int} (hm : m ≤ spec.minimumSupport) {fuel : Nat}
    {s t : Active} (h : loop (activePass adjacency m) fuel s = .ok t) :
    ∃ (new new' : List Step) (u : Active), t.steps = s.steps ++ new ∧
      loop (activePass adjacency spec.minimumSupport) fuel s = .ok u ∧ u.steps = s.steps ++ new' ∧
      replaySteps P matrix spec new s.active =
        (new'.mapM (familyOf P spec matrix)).map fun families => ⟨u.active, families⟩ := by
  induction fuel generalizing s with
  | zero =>
    obtain rfl := Except.ok.inj h
    exact ⟨[], [], s, (append_nil _).symm, rfl, (append_nil _).symm, rfl⟩
  | succ fuel ih =>
    by_cases hnil : s.active = []
    · rw [loop_of_ends (activePass_nil adjacency m s hnil)] at h
      obtain rfl := Except.ok.inj h
      exact ⟨[], [], s, (append_nil _).symm,
        loop_of_ends (activePass_nil adjacency _ s hnil), (append_nil _).symm, rfl⟩
    · have hpass : ∀ n, activePass adjacency n s = _ := fun n => activePass_eq adjacency n s hnil
      cases hbest : bestActive adjacency s with
      | error e =>
        rw [loop, hpass, hbest] at h
        cases h
      | ok best =>
        have hends : ∀ n, (best.covered.length : Int) < n →
            activePass adjacency n s = .ok (s, false) := by
          intro n hn
          rw [hpass, hbest]
          exact if_pos hn
        have hgoes : ∀ n, ¬ (best.covered.length : Int) < n →
            activePass adjacency n s = .ok (s.after adjacency best.toStep, true) := by
          intro n hn
          rw [hpass, hbest]
          exact if_neg hn
        by_cases hlow : (best.covered.length : Int) < m
        · rw [loop_of_ends (hends m hlow)] at h
          obtain rfl := Except.ok.inj h
          exact ⟨[], [], s, (append_nil _).symm,
            loop_of_ends (hends _ (hlow.trans_le hm)), (append_nil _).symm, rfl⟩
        · rw [loop_of_continues (hgoes m hlow)] at h
          obtain ⟨new, new', u, ht, hu, hsteps, hreplay⟩ := ih h
          have ht' : t.steps = s.steps ++ best.toStep :: new := by
            rw [ht]
            exact append_assoc s.steps [best.toStep] new
          by_cases hshort : (best.covered.length : Int) < spec.minimumSupport
          · -- the larger support ends both the loop and the replay
            refine ⟨best.toStep :: new, [], s, ht', loop_of_ends (hends _ hshort),
              (append_nil _).symm, ?_⟩
            rw [replaySteps, if_pos hshort]
            rfl
          · refine ⟨best.toStep :: new, best.toStep :: new', u, ht',
              (loop_of_continues (hgoes _ hshort)).trans hu, ?_, ?_⟩
            · rw [hsteps]
              exact append_assoc s.steps [best.toStep] new'
            · have hcheck : check (∀ item ∈ best.covered, item ∈ s.active)
                  (Error.family (py "QA_NON_REPRODUCIBLE") (py "medoid trace coverage mismatch"))
                  = .ok () := check_ok.mpr (covered_subset hbest)
              have hreplay' : replaySteps P matrix spec new (best.toStep.leaves s.active) = _ :=
                hreplay
              rw [replaySteps, if_neg hshort, hcheck, mapM_cons]
              show (familyOf P spec matrix best.toStep >>= fun f =>
                replaySteps P matrix spec new (best.toStep.leaves s.active) >>= fun rest => _) = _
              rw [hreplay']
              cases familyOf P spec matrix best.toStep with
              | error e => rfl
              | ok f =>
                cases new'.mapM (familyOf P spec matrix) with
                | error e => rfl
                | ok families => rfl

/-- **What a trace is materialized to is what the optimized version returns**, errors included, once
the trace was recorded. -/
theorem medoidStarTraced_eq {text : PyStr} (hradius : spec.radius = some text)
    (hread : ∀ bound, dec P text = .ok bound →
      ∃ traced, dec P bound.formatF = .ok traced ∧ traced.rat = bound.rat)
    (htrace : Returns (buildMedoidStarTrace P matrix text)) :
    medoidStarTraced P matrix text spec = medoidStarOptimized P matrix spec := by
  obtain ⟨trace, htrace⟩ := htrace
  rw [medoidStarTraced, htrace]
  simp only [buildMedoidStarTrace, bind_ok, pure_ok] at htrace
  obtain ⟨bound, hbound, t, ht, rfl⟩ := htrace
  obtain ⟨traced, htraced, hsame⟩ := hread bound hbound
  simp only [coverSteps, bind_ok] at ht
  obtain ⟨prepared, hprepared, adjacency, hadjacency, ht⟩ := ht
  obtain ⟨new, new', u, hsteps, hu, hsteps', hreplay⟩ :=
    loop_threshold P matrix spec.support ht
  rw [nil_append] at hsteps hsteps'
  have hreplay' : replaySteps P matrix spec new matrix.ids = _ := hreplay
  -- the optimized version
  have hrun : coverSteps P matrix bound spec.minimumSupport = .ok u := by
    simp only [coverSteps, bind_ok]
    exact ⟨prepared, hprepared, adjacency, hadjacency, hu⟩
  have hopt : medoidStarOptimized P matrix spec =
      (u.steps.mapM (familyOf P spec matrix) >>= fun families =>
        catalog P spec matrix families (sortedBy id u.active) []) := by
    rw [medoidStarOptimized, medoidRadius, hradius]
    simp only [hbound]
    show (coverSteps P matrix bound spec.minimumSupport >>= _) = _
    rw [hrun]
    rfl
  -- the replay of the trace
  have hmaterialized : materializeMedoidStarTrace P matrix ⟨bound.formatF, matrix.ids, t.steps⟩ spec =
      (replaySteps P matrix spec t.steps matrix.ids >>= fun s =>
        catalog P spec matrix s.families (sortedBy id s.remaining) []) := by
    simp only [materializeMedoidStarTrace, hradius, hbound, htraced]
    show (check (bound.rat = traced.rat) _ >>= fun _ => check True _ >>= fun _ => _) = _
    rw [(check_ok (u := ())).mpr hsame.symm, check, if_pos trivial]
    rfl
  show materializeMedoidStarTrace P matrix ⟨bound.formatF, matrix.ids, t.steps⟩ spec = _
  rw [hmaterialized, hopt, hsteps, hreplay', hsteps']
  cases new'.mapM (familyOf P spec matrix) with
  | error e => rfl
  | ok families => rfl

/-! ## The reference -/

/-- The sum of the distances of what every record covers of the population is returned. -/
def SumsReturn (P : Platform) (matrix : DistanceMatrix) (radius : PyDecimal) : Prop :=
  ∀ candidate ∈ matrix.ids, Returns (candidateOf candidate
    (cover P matrix radius (sortedBy id matrix.ids) candidate))

/-- What a record covers, as a candidate. -/
def star (P : Platform) (matrix : DistanceMatrix) (radius : PyDecimal) (items : List PyStr)
    (candidate : PyStr) : Candidate :=
  match candidateOf candidate (cover P matrix radius items candidate) with
  | .ok c => c
  | .error _ => ⟨⟨candidate, []⟩, .finite false 0 0⟩

/-- The sum of what is covered of some of the records is returned as well. -/
theorem candidateOf_cover (hsums : SumsReturn P matrix radius) {items : List PyStr}
    (hitems : items.Sublist (sortedBy id matrix.ids)) {candidate : PyStr}
    (hcandidate : candidate ∈ matrix.ids) :
    candidateOf candidate (cover P matrix radius items candidate) =
      .ok (star P matrix radius items candidate) := by
  have hrets : Returns (candidateOf candidate (cover P matrix radius items candidate)) := by
    obtain ⟨c, hc⟩ := hsums candidate hcandidate
    obtain ⟨total, htotal, -⟩ := map_ok.mp hc
    have hamounts : ∀ d ∈ (cover P matrix radius (sortedBy id matrix.ids) candidate).map Prod.snd,
        d.Amount := by
      intro d hd
      obtain ⟨p, hp, rfl⟩ := mem_map.mp hd
      rw [(mem_cover.mp hp).2.2]
      exact amount_dist _ _
    obtain ⟨part, hpart⟩ := PyDecimal.returns_sum_of_sublist
      ((cover_sublist hitems candidate).map Prod.snd) hamounts ⟨total, mapError_ok.mp htotal⟩
    exact ⟨_, map_ok.mpr ⟨part, mapError_ok.mpr hpart, rfl⟩⟩
  obtain ⟨c, hc⟩ := hrets
  rw [star, hc]

theorem star_medoid (items : List PyStr) (candidate : PyStr) :
    (star P matrix radius items candidate).medoid = candidate := by
  rw [star]
  split
  · exact (candidateOf_ok ‹_›).1
  · rfl

/-- What is known of the active records during a run. -/
structure Tracks (P : Platform) (matrix : DistanceMatrix) (radius : PyDecimal) (s : Active) :
    Prop where
  nodup : s.active.Nodup
  subset : s.active ⊆ matrix.ids
  counts : ∀ item ∈ s.active,
    s.count item = s.active.countP fun other => Covers P matrix radius item other

section Passes

variable {prepared : PreparedDistanceMatrix} {adjacency : Adjacency} {s : Active}
  (hcomplete : Complete P matrix) (hprepared : prepared.distance = matrix.distance P)
  (hradius : 0 ≤ radius.rat)
  (hadjacency : Adjacency.build prepared matrix.ids radius = .ok adjacency)
  (hsums : SumsReturn P matrix radius)

theorem sortedBy_active_sublist (hs : Tracks P matrix radius s) :
    (sortedBy id s.active).Sublist (sortedBy id matrix.ids) := by
  rw [← Adjacency.filter_mem_sortedBy matrix.nodup hs.nodup hs.subset]
  exact filter_sublist

/-- The number of records that a star covers. -/
theorem length_star (hsums : SumsReturn P matrix radius) (hs : Tracks P matrix radius s)
    {candidate : PyStr} (hcandidate : candidate ∈ s.active) :
    ((star P matrix radius (sortedBy id s.active) candidate).covered.length : Int) =
      s.count candidate := by
  have hstar := candidateOf_cover hsums (sortedBy_active_sublist hs) (hs.subset hcandidate)
  rw [(candidateOf_ok hstar).2, map_fst_cover, ← countP_eq_length_filter,
    (sortedBy_perm id s.active).countP_eq, hs.counts candidate hcandidate]

include hcomplete in
/-- The reference scores the stars of all remaining records. -/
theorem bestRemaining_eq (hsums : SumsReturn P matrix radius) (hs : Tracks P matrix radius s) :
    bestRemaining P matrix radius s.active =
      bestOf ((sortedBy id s.active).map (star P matrix radius (sortedBy id s.active))) := by
  have hscored : ((sortedBy id s.active).mapM fun candidate => do
      candidateOf candidate (← within P matrix radius (sortedBy id s.active) candidate)) =
      .ok ((sortedBy id s.active).map (star P matrix radius (sortedBy id s.active))) := by
    refine mapM_ok_map fun candidate hcandidate => ?_
    have hmem : candidate ∈ matrix.ids := hs.subset (mem_sortedBy.mp hcandidate)
    rw [within_eq hcomplete (fun item hitem => hs.subset (mem_sortedBy.mp hitem)) hmem]
    exact candidateOf_cover hsums (sortedBy_active_sublist hs) hmem
  rw [bestRemaining, hscored]
  rfl

variable {best : Candidate}

include hcomplete hprepared hradius hadjacency in
/-- **The optimized version finds the same best record**: among those with the most support, which it
knows from the counts. -/
theorem bestActive_eq (hsums : SumsReturn P matrix radius) (hs : Tracks P matrix radius s)
    (hbest : bestOf ((sortedBy id s.active).map (star P matrix radius (sortedBy id s.active))) =
      .ok best) :
    bestActive adjacency s = .ok best := by
  set items := sortedBy id s.active with hitems
  have hactive : ∀ {item}, item ∈ items → item ∈ s.active := fun h => mem_sortedBy.mp h
  obtain ⟨medoid, hmedoid, hstar⟩ := mem_map.mp (mem_of_minBy hbest)
  have hleast := key_le_of_minBy hbest
  have hcount : ∀ {item}, item ∈ items →
      ((star P matrix radius items item).covered.length : Int) = s.count item :=
    fun h => length_star hsums hs (hactive h)
  -- the best record has the most support
  have hmost : ∀ item ∈ items, s.count item ≤ s.count medoid := by
    intro item hitem
    have hkey := hleast _ (mem_map_of_mem hitem)
    rw [← hstar, Prod.Lex.toLex_le_toLex, hcount hmedoid, hcount hitem] at hkey
    rcases hkey with hlt | ⟨heq, -⟩
    · exact (neg_lt_neg_iff.mp hlt).le
    · exact (neg_inj.mp heq).ge
  set tied := items.filter fun item => items.all fun other => s.count other ≤ s.count item with htied
  have hmem : ∀ {item}, item ∈ tied ↔ item ∈ items ∧ s.count item = s.count medoid := by
    intro item
    rw [htied, mem_filter, all_eq_true]
    simp only [decide_eq_true_eq]
    constructor
    · rintro ⟨hitem, hall⟩
      exact ⟨hitem, le_antisymm (hmost item hitem) (hall medoid hmedoid)⟩
    · rintro ⟨hitem, heq⟩
      exact ⟨hitem, fun other hother => heq ▸ hmost other hother⟩
  have hscored : (tied.mapM fun candidate =>
      candidateOf candidate ((adjacency.near candidate).filter fun p => p.1 ∈ s.active)) =
      .ok (tied.map (star P matrix radius items)) := by
    refine mapM_ok_map fun candidate hcandidate => ?_
    have hin : candidate ∈ matrix.ids := hs.subset (hactive (hmem.mp hcandidate).1)
    rw [Adjacency.near_filter hcomplete hprepared hradius hadjacency hin hs.nodup hs.subset]
    exact candidateOf_cover hsums (sortedBy_active_sublist hs) hin
  have hmin : minBy (fun c : Candidate => toLex (c.total.rat, c.medoid))
      (tied.map (star P matrix radius items)) = .ok best := by
    apply minBy_ok
    · exact hstar ▸ mem_map_of_mem (hmem.mpr ⟨hmedoid, rfl⟩)
    · intro c hc hle
      obtain ⟨item, hitem, rfl⟩ := mem_map.mp hc
      obtain ⟨hitem, heq⟩ := hmem.mp hitem
      have hkey := hleast _ (mem_map_of_mem hitem)
      rw [← hstar, Prod.Lex.toLex_le_toLex, hcount hmedoid, hcount hitem, heq] at hkey
      have hsame := le_antisymm hle (hstar ▸ (hkey.resolve_left (lt_irrefl _)).2)
      -- the keys name the medoids
      have hname : (star P matrix radius items item).medoid = best.medoid :=
        (Prod.mk.inj (toLex_inj.mp hsame)).2
      rw [star_medoid] at hname
      rw [← hstar, hname, ← hstar, star_medoid]
  show ((tied.mapM fun candidate => _) >>= fun scored => _) = _
  rw [hscored]
  exact hmin

/-- The best of the active records covers distinct records. -/
theorem covered_nodup (hnames : ∀ item, (adjacency.names item).Nodup)
    (h : bestActive adjacency s = .ok best) : best.covered.Nodup := by
  simp only [bestActive, bind_ok] at h
  obtain ⟨scored, hscored, hbest⟩ := h
  obtain ⟨candidate, -, hc⟩ := mem_of_mapM_right hscored (mem_of_minBy hbest)
  rw [(candidateOf_ok hc).2]
  exact (hnames candidate).sublist (filter_sublist.map Prod.fst)

include hcomplete hprepared hradius hadjacency in
/-- **A step keeps what is known of the active records**: the counts are lowered by what it covers. -/
theorem Tracks.after (hs : Tracks P matrix radius s) (hbest : bestActive adjacency s = .ok best) :
    Tracks P matrix radius (s.after adjacency best.toStep) := by
  have hnames := Adjacency.names_nodup matrix.nodup hadjacency
  have hsub := covered_subset hbest
  have hleaves : best.toStep.leaves s.active ⊆ s.active := fun item h => (mem_filter.mp h).1
  refine ⟨hs.nodup.filter _, fun item h => hs.subset (hleaves h), fun item hitem => ?_⟩
  have hmem : item ∈ s.active := hleaves hitem
  have hnear : (best.covered.countP fun removed => item ∈ adjacency.names removed) =
      best.covered.countP fun removed => Covers P matrix radius item removed := by
    refine countP_congr fun removed hremoved => ?_
    rw [decide_eq_true_eq, decide_eq_true_eq, Adjacency.names,
      Adjacency.near_build hcomplete hprepared hradius hadjacency (hs.subset (hsub removed hremoved)),
      map_fst_cover, mem_filter, decide_eq_true_eq, covers_comm, mem_sortedBy]
    exact and_iff_right (hs.subset hmem)
  have hsplit := (append_filter_notMem_perm (covered_nodup hnames hbest) hsub hs.nodup).countP_eq
    fun other => Covers P matrix radius item other
  have hlower : (s.after adjacency best.toStep).count item = _ :=
    countOf_lowerCounts hitem hnames s.counts
  have hbefore : countOf s.counts item = _ := hs.counts item hmem
  rw [countP_append] at hsplit
  rw [hlower, hbefore, hnear]
  show _ = (((s.active.filter fun item => item ∉ best.covered).countP fun other =>
    Covers P matrix radius item other : Nat) : Int)
  omega

include hcomplete hprepared hradius hadjacency in
/-- The counts start with what every record covers. -/
theorem tracks_start : Tracks P matrix radius
    ⟨matrix.ids, adjacency.map fun p => (p.1, (p.2.length : Int)), []⟩ := by
  refine ⟨matrix.nodup, fun _ h => h, fun item hitem => ?_⟩
  have hnear := Adjacency.near_build hcomplete hprepared hradius hadjacency hitem
  have hlength : ((adjacency.near item).length : Int) =
      ((matrix.ids.countP fun other => Covers P matrix radius item other : Nat) : Int) := by
    rw [hnear, ← length_map Prod.fst, map_fst_cover, ← countP_eq_length_filter,
      (sortedBy_perm id matrix.ids).countP_eq]
  rw [← hlength]
  have hget := Dict.get?_map (fun near : List (PyStr × PyDecimal) => (near.length : Int)) adjacency
    item
  show (Dict.get? (adjacency.map fun p => (p.1, (p.2.length : Int))) item).getD 0 = _
  rw [hget, Adjacency.near]
  cases Dict.get? adjacency item with
  | none => rfl
  | some near => rfl

/-- Both loops end, with these steps, and the reference has made their families. -/
def LoopsAgree (P : Platform) (matrix : DistanceMatrix) (spec : FamilyMethodSpec)
    (radius : PyDecimal) (adjacency : Adjacency) (fuel : Nat) (s : Active)
    (families : List Family) : Prop :=
  ∃ (new : List Step) (t : Active),
    loop (activePass adjacency spec.minimumSupport) fuel s = .ok t ∧ t.steps = s.steps ++ new ∧
    loop (medoidStarPass P matrix spec radius) fuel ⟨s.active, families⟩ =
      (new.mapM (familyOf P spec matrix)).map fun more => ⟨t.active, families ++ more⟩

theorem loopsAgree_of_stops {fuel : Nat} {families : List Family}
    (hactive : loop (activePass adjacency spec.minimumSupport) fuel s = .ok s)
    (hreference : loop (medoidStarPass P matrix spec radius) fuel ⟨s.active, families⟩ =
      .ok ⟨s.active, families⟩) :
    LoopsAgree P matrix spec radius adjacency fuel s families := by
  refine ⟨[], s, hactive, (append_nil _).symm, ?_⟩
  rw [hreference, mapM_nil]
  show _ = Except.ok (⟨s.active, families ++ []⟩ : Covering)
  rw [append_nil]

include hcomplete hprepared hradius hadjacency in
/-- **Both loops make the same steps**: the families of the reference are those of the steps. -/
theorem loops_agree (hsums : SumsReturn P matrix radius) (fuel : Nat)
    (hs : Tracks P matrix radius s) (families : List Family) :
    LoopsAgree P matrix spec radius adjacency fuel s families := by
  induction fuel generalizing s families with
  | zero => exact loopsAgree_of_stops rfl rfl
  | succ fuel ih =>
    by_cases hnil : s.active = []
    · refine loopsAgree_of_stops (loop_of_ends (activePass_nil adjacency _ s hnil)) (loop_of_ends ?_)
      rw [medoidStarPass, if_pos hnil]
    · have hreference := bestRemaining_eq hcomplete hsums hs
      obtain ⟨best, hbest⟩ : Returns (bestOf ((sortedBy id s.active).map
          (star P matrix radius (sortedBy id s.active)))) := by
        apply returns_minBy
        intro h
        apply hnil
        have hlength := (sortedBy_perm id s.active).length_eq
        rw [map_eq_nil_iff.mp h] at hlength
        exact length_eq_zero_iff.mp hlength.symm
      have hactive := bestActive_eq hcomplete hprepared hradius hadjacency hsums hs hbest
      rw [hbest] at hreference
      have hpass := activePass_eq adjacency spec.minimumSupport s hnil
      have hpass' : medoidStarPass P matrix spec radius ⟨s.active, families⟩ = _ :=
        medoidStarPass_eq s.active families hnil
      rw [hactive] at hpass
      rw [hreference] at hpass'
      by_cases hshort : (best.covered.length : Int) < spec.minimumSupport
      · exact loopsAgree_of_stops (loop_of_ends (hpass.trans (if_pos hshort)))
          (loop_of_ends (hpass'.trans (if_pos hshort)))
      · have hgoes := hpass.trans (if_neg hshort)
        have hgoes' := hpass'.trans (if_neg hshort)
        have hafter := hs.after hcomplete hprepared hradius hadjacency hactive
        cases hf : familyOf P spec matrix best.toStep with
        | error e =>
          -- the reference raises at once, the optimized version when it makes the families
          obtain ⟨new, t, ht, hsteps, -⟩ := ih hafter families
          refine ⟨best.toStep :: new, t, (loop_of_continues hgoes).trans ht, ?_, ?_⟩
          · rw [hsteps]
            exact append_assoc s.steps [best.toStep] new
          · rw [loop, hgoes', hf, mapM_cons, hf]
            rfl
        | ok f =>
          obtain ⟨new, t, ht, hsteps, hloop⟩ := ih hafter (families ++ [f])
          refine ⟨best.toStep :: new, t, (loop_of_continues hgoes).trans ht, ?_, ?_⟩
          · rw [hsteps]
            exact append_assoc s.steps [best.toStep] new
          · rw [hf] at hgoes'
            have hloop' : loop (medoidStarPass P matrix spec radius) fuel
                ⟨best.toStep.leaves s.active, families ++ [f]⟩ = _ := hloop
            rw [loop_of_continues hgoes', hloop', mapM_cons, hf]
            cases new.mapM (familyOf P spec matrix) with
            | error e => rfl
            | ok more =>
              show Except.ok (⟨t.active, families ++ [f] ++ more⟩ : Covering) =
                .ok ⟨t.active, families ++ f :: more⟩
              rw [append_assoc, singleton_append]

end Passes

/-! ## What has to be given -/

/-- A fold returns if every step does. -/
theorem returns_foldlM {ε α β : Type} {f : β → α → Except ε β} {xs : List α}
    (h : ∀ b, ∀ x ∈ xs, Returns (f b x)) (b : β) : Returns (xs.foldlM f b) := by
  induction xs generalizing b with
  | nil => exact ⟨b, rfl⟩
  | cons x xs ih =>
    obtain ⟨c, hc⟩ := h b x (by simp)
    rw [foldlM_cons, hc]
    exact ih (fun b x hx => h b x (mem_cons_of_mem _ hx)) c

/-- Every step of a fold that returned did. -/
theorem returns_of_foldlM {prepared : PreparedDistanceMatrix} {rest : List (PyStr × PyStr)}
    {adjacency : Adjacency} (h : Returns (rest.foldlM (Adjacency.visit prepared radius) adjacency)) :
    ∀ p ∈ rest, Returns (prepared.distance p.1 p.2) := by
  induction rest generalizing adjacency with
  | nil => simp
  | cons p rest ih =>
    obtain ⟨final, h⟩ := h
    rw [foldlM_cons, bind_ok] at h
    obtain ⟨next, hnext, h⟩ := h
    obtain ⟨d, hd, -⟩ := map_ok.mp hnext
    rw [forall_mem_cons]
    exact ⟨⟨d, hd⟩, ih ⟨final, h⟩⟩

/-- The adjacency is built of a complete matrix. -/
theorem returns_build (hcomplete : Complete P matrix) {prepared : PreparedDistanceMatrix}
    (hprepared : prepared.distance = matrix.distance P) :
    Returns (Adjacency.build prepared matrix.ids radius) := by
  have hvisit : ∀ (adjacency : Adjacency), ∀ p ∈ pairs matrix.ids,
      Returns (Adjacency.visit prepared radius adjacency p) := by
    intro adjacency p hp
    obtain ⟨hleft, hright⟩ := mem_of_mem_pairs hp
    rw [Adjacency.visit, hprepared, hcomplete.distance_eq hleft hright]
    exact ⟨_, rfl⟩
  obtain ⟨adjacency, h⟩ := returns_foldlM hvisit
    (matrix.ids.map fun item => (item, [(item, .finite false 0 0)]))
  exact ⟨_, map_ok.mpr ⟨adjacency, h, rfl⟩⟩

/-- A matrix whose adjacency was built is complete. -/
theorem complete_of_build {prepared : PreparedDistanceMatrix}
    (hprepared : prepared.distance = matrix.distance P)
    (h : Returns (Adjacency.build prepared matrix.ids radius)) : Complete P matrix := by
  obtain ⟨adjacency, h⟩ := h
  obtain ⟨linked, hlinked, -⟩ := map_ok.mp h
  intro left hleft right hright
  by_cases hne : left = right
  · exact ⟨_, if_pos hne⟩
  · rw [← hprepared]
    rcases mem_pairs_or hleft hright hne with hp | hp
    · exact returns_of_foldlM ⟨linked, hlinked⟩ _ hp
    · have hback := returns_of_foldlM ⟨linked, hlinked⟩ _ hp
      rw [hprepared] at hback ⊢
      exact returns_distance_comm hback

/-- **A first pass of the reference reads every distance and adds up what every record covers.** -/
theorem complete_of_bestRemaining (h : Returns (bestRemaining P matrix radius matrix.ids)) :
    Complete P matrix ∧ SumsReturn P matrix radius := by
  obtain ⟨best, h⟩ := h
  simp only [bestRemaining, bind_ok] at h
  obtain ⟨scored, hscored, -⟩ := h
  have hall := returns_mapM.mp ⟨scored, hscored⟩
  have hcomplete : Complete P matrix := by
    intro left hleft right hright
    obtain ⟨c, hc⟩ := hall left (mem_sortedBy.mpr hleft)
    obtain ⟨near, hnear, -⟩ := bind_ok.mp hc
    simp only [within, bind_ok] at hnear
    obtain ⟨distances, hdists, -⟩ := hnear
    obtain ⟨p, hp⟩ := returns_mapM.mp ⟨distances, hdists⟩ right (mem_sortedBy.mpr hright)
    obtain ⟨d, hd, -⟩ := map_ok.mp hp
    exact ⟨d, hd⟩
  refine ⟨hcomplete, fun candidate hcandidate => ?_⟩
  obtain ⟨c, hc⟩ := hall candidate (mem_sortedBy.mpr hcandidate)
  rw [within_eq hcomplete (fun item hitem => mem_sortedBy.mp hitem) hcandidate] at hc
  exact ⟨c, hc⟩

/-! ## The catalogues -/

/-- A specification with the least support. -/
def leastSupport : FamilyMethodSpec where
  methodId := []
  configurationId := []
  support := two_le_two
  iterations := one_le_twenty

/-- **The reference and the optimized version are one function**, errors included, where the
distances are given and their sums are returned; and a trace is recorded. -/
theorem medoidStar_eq_optimized {text : PyStr} {bound : PyDecimal} (hradius : spec.radius = some text)
    (hbound : dec P text = .ok bound) (hvals : ∀ p ∈ matrix.values, Returns (dec P p.2))
    (hcomplete : Complete P matrix) (hsums : SumsReturn P matrix bound) :
    medoidStar P matrix spec = medoidStarOptimized P matrix spec ∧
      Returns (buildMedoidStarTrace P matrix text) := by
  obtain ⟨prepared, hprepared⟩ := returns_fromMatrix hvals
  have hsame := distance_fromMatrix hprepared
  obtain ⟨adjacency, hadjacency⟩ : Returns (Adjacency.build prepared matrix.ids bound) :=
    returns_build hcomplete hsame
  have hpos : 0 ≤ bound.rat := (amount_of_dec hbound).rat_nonneg
  have htracks := tracks_start hcomplete hsame hpos hadjacency
  have hsteps : ∀ spec' : FamilyMethodSpec, LoopsAgree P matrix spec' bound adjacency
      matrix.ids.length _ [] := fun spec' =>
    loops_agree hcomplete hsame hpos hadjacency hsums matrix.ids.length htracks []
  have hcover : ∀ {threshold : Int} {t : Active}, loop (activePass adjacency threshold)
      matrix.ids.length ⟨matrix.ids, adjacency.map fun p => (p.1, (p.2.length : Int)), []⟩ = .ok t →
      coverSteps P matrix bound threshold = .ok t := by
    intro threshold t ht
    simp only [coverSteps, bind_ok]
    exact ⟨prepared, hprepared, adjacency, hadjacency, ht⟩
  refine ⟨?_, ?_⟩
  · obtain ⟨new, t, ht, hnew, hreference⟩ := hsteps spec
    have href' : loop (medoidStarPass P matrix spec bound) matrix.ids.length
        ⟨matrix.ids, []⟩ = _ := hreference
    rw [nil_append] at hnew
    rw [medoidStar, medoidStarOptimized, medoidRadius, hradius]
    simp only [hbound]
    show (loop (medoidStarPass P matrix spec bound) matrix.ids.length ⟨matrix.ids, []⟩ >>= _) =
      (coverSteps P matrix bound spec.minimumSupport >>= _)
    rw [href', hcover ht, ← hnew]
    show _ = (t.steps.mapM (familyOf P spec matrix) >>= _)
    cases t.steps.mapM (familyOf P spec matrix) with
    | error e => rfl
    | ok families => rfl
  · obtain ⟨new, t, ht, -⟩ := hsteps leastSupport
    rw [buildMedoidStarTrace]
    exact ⟨_, bind_intro hbound (bind_ok.mpr ⟨t, hcover ht, rfl⟩)⟩

/-- **The versions of medoid star agree.** What the reference returns, the optimized version returns
and a trace is materialized to; what a trace is materialized to, the optimized version returns; and
the optimized version returns no more than the reference unless a sum of distances is too large. -/
theorem medoidStar_versions_agree (P : Platform) (matrix : DistanceMatrix)
    (spec : FamilyMethodSpec) (text : PyStr) (hradius : spec.radius = some text)
    (hvalues : ∀ p ∈ matrix.values, Returns (dec P p.2))
    (hread : ∀ bound, dec P text = .ok bound →
      ∃ traced, dec P bound.formatF = .ok traced ∧ traced.rat = bound.rat) :
    (∀ c, medoidStar P matrix spec = .ok c →
      medoidStarOptimized P matrix spec = .ok c ∧ medoidStarTraced P matrix text spec = .ok c) ∧
    (∀ c, medoidStarTraced P matrix text spec = .ok c → medoidStarOptimized P matrix spec = .ok c) ∧
    ((∀ bound, dec P text = .ok bound → SumsReturn P matrix bound) →
      ∀ c, medoidStarOptimized P matrix spec = .ok c → medoidStar P matrix spec = .ok c) := by
  refine ⟨?_, ?_, ?_⟩
  · intro c hc
    have hreference := hc
    simp only [medoidStar, medoidRadius, hradius, bind_ok] at hc
    obtain ⟨bound, hbound, s, hs, -⟩ := hc
    have hgiven : Complete P matrix ∧ SumsReturn P matrix bound := by
      by_cases hnil : matrix.ids = []
      · exact ⟨fun left hleft => by simp [hnil] at hleft, fun item hitem => by simp [hnil] at hitem⟩
      · apply complete_of_bestRemaining
        obtain ⟨n, hn⟩ := Nat.exists_eq_succ_of_ne_zero (mt length_eq_zero_iff.mp hnil)
        rw [hn, loop, medoidStarPass_eq matrix.ids [] hnil] at hs
        cases hbest : bestRemaining P matrix bound matrix.ids with
        | error e =>
          rw [hbest] at hs
          cases hs
        | ok best => exact ⟨best, rfl⟩
    obtain ⟨heq, htrace⟩ := medoidStar_eq_optimized hradius hbound hvalues hgiven.1 hgiven.2
    rw [medoidStarTraced_eq hradius hread htrace, ← heq]
    exact ⟨hreference, hreference⟩
  · intro c hc
    have htraced := hc
    rw [medoidStarTraced, bind_ok] at hc
    obtain ⟨trace, htrace, -⟩ := hc
    rw [← medoidStarTraced_eq hradius hread ⟨trace, htrace⟩]
    exact htraced
  · intro hsums c hc
    have hopt := hc
    simp only [medoidStarOptimized, medoidRadius, hradius, coverSteps, bind_ok] at hc
    obtain ⟨bound, hbound, s, ⟨prepared, hprepared, adjacency, hadjacency, -⟩, -⟩ := hc
    have hcomplete := complete_of_build (distance_fromMatrix hprepared) ⟨adjacency, hadjacency⟩
    rw [(medoidStar_eq_optimized hradius hbound hvalues hcomplete (hsums bound hbound)).1]
    exact hopt

theorem nodup_lineIds : [py "A", py "B", py "C"].Nodup := by decide +kernel

/-- Three records on a line. -/
def lineMatrix : DistanceMatrix where
  ids := [py "A", py "B", py "C"]
  values := [(py "A|B", py "1"), (py "A|C", py "2.5"), (py "B|C", py "1.5")]
  nodup := nodup_lineIds

/-- Families of records within two. -/
def lineSpec : FamilyMethodSpec where
  methodId := py "GREEDY_LEXICOGRAPHIC_MEDOID_STAR"
  configurationId := py "CONFIG"
  radius := some (py "2.0")
  support := two_le_two
  iterations := one_le_twenty

/-- The versions agree about three records on a line. -/
theorem medoidStar_versions_agree_line : ∃ c, medoidStar .reference lineMatrix lineSpec = .ok c ∧
    medoidStarOptimized .reference lineMatrix lineSpec = .ok c ∧
    medoidStarTraced .reference lineMatrix (py "2.0") lineSpec = .ok c := by
  have hrets : (medoidStar .reference lineMatrix lineSpec).toOption.isSome = true := by
    decide +kernel
  have hvals : ∀ p ∈ lineMatrix.values, Returns (dec .reference p.2) := by decide +kernel
  have hbound : dec .reference (py "2.0") = .ok (.finite false 20 (-1)) := by decide +kernel
  have htraced : dec .reference (PyDecimal.finite false 20 (-1)).formatF =
      .ok (.finite false 20 (-1)) := by decide +kernel
  have hagree := medoidStar_versions_agree .reference lineMatrix lineSpec (py "2.0") rfl hvals
    fun bound h => by
      cases hbound.symm.trans h
      exact ⟨_, htraced, rfl⟩
  cases hrun : medoidStar .reference lineMatrix lineSpec with
  | error e => simp [hrun, Except.toOption] at hrets
  | ok c => exact ⟨c, rfl, hagree.1 c hrun⟩

/-! ## A sum that is too large -/

/-- The decimal with a larger exponent. -/
def shiftExponent (places : Nat) : PyDecimal → PyDecimal
  | .finite negative coefficient exponent => .finite negative coefficient (exponent + places)
  | d => d

/-- A plain numeral, or one with an exponent. -/
def readScientific (text : PyStr) : Option PyDecimal :=
  let mantissa := text.takeWhile fun c => c ≠ CodePoint.ofChar 'E'
  if mantissa = text then Reference.readDecimal text
  else if (text.drop mantissa.length).take 2 ≠ py "E+" then none
  else (Reference.readDecimal mantissa).bind fun d =>
    (Reference.readNat (text.drop (mantissa.length + 2))).map fun places => shiftExponent places d

/-- The platform of concrete runs, reading numerals with an exponent. -/
def scientificPlatform : Platform := { Platform.reference with decimalOf := readScientific }

/-- A hub with three records near it, two of which are so far apart that the context cannot hold
their distance. -/
def hubMatrix : DistanceMatrix where
  ids := [py "H", py "W", py "X", py "Y"]
  values := [(py "H|W", py "1"), (py "H|X", py "1"), (py "H|Y", py "1"), (py "W|X", py "2E+1000000"),
    (py "W|Y", py "2E+1000000"), (py "X|Y", py "1E+1000000")]
  nodup := by decide +kernel

/-- The two distant records are within the radius. -/
def hubSpec : FamilyMethodSpec where
  methodId := py "GREEDY_LEXICOGRAPHIC_MEDOID_STAR"
  configurationId := py "CONFIG"
  radius := some (py "1E+1000000")
  support := two_le_two
  iterations := one_le_twenty

/-- The reference adds up what a distant record covers. -/
theorem not_sumsReturn_hub :
    ¬ SumsReturn scientificPlatform hubMatrix (.finite false 1 1000000) := by
  intro h
  have hdist : dist scientificPlatform hubMatrix (py "X") (py "Y") = .finite false 1 1000000 := by
    have hdst : hubMatrix.distance scientificPlatform (py "X") (py "Y") =
        .ok (.finite false 1 1000000) := by decide +kernel
    rw [dist, hdst]
  obtain ⟨c, hc⟩ := h (py "X") (by decide +kernel)
  obtain ⟨total, htotal, -⟩ := map_ok.mp hc
  refine PyDecimal.not_returns_sum (e := 1000000) ?_ ?_ (by decide) ⟨total, mapError_ok.mp htotal⟩
  · intro d hd
    obtain ⟨p, hp, rfl⟩ := mem_map.mp hd
    rw [(mem_cover.mp hp).2.2]
    exact amount_dist _ _
  · refine mem_map.mpr ⟨(py "Y", .finite false 1 1000000), mem_cover.mpr ⟨?_, ?_, ?_⟩, rfl⟩
    · rw [mem_sortedBy]
      decide +kernel
    · exact hdist ▸ le_rfl
    · exact hdist.symm

/-- **The optimized version returns a catalogue where the reference raises.** -/
theorem medoidStar_versions_differ : ¬ ∀ (P : Platform) (matrix : DistanceMatrix)
    (spec : FamilyMethodSpec) (c : FamilyCatalog), medoidStarOptimized P matrix spec = .ok c →
    medoidStar P matrix spec = .ok c := by
  intro H
  have hrets : (medoidStarOptimized scientificPlatform hubMatrix hubSpec).toOption.isSome =
      true := by decide +kernel
  cases hrun : medoidStarOptimized scientificPlatform hubMatrix hubSpec with
  | error e => simp [hrun, Except.toOption] at hrets
  | ok c =>
    have hreference := H _ _ _ _ hrun
    simp only [medoidStar, bind_ok] at hreference
    obtain ⟨bound, hbound, s, hs, -⟩ := hreference
    have hradius : medoidRadius scientificPlatform hubSpec = .ok (.finite false 1 1000000) := by
      decide +kernel
    cases hradius.symm.trans hbound
    have hlength : hubMatrix.ids.length = 3 + 1 := rfl
    have hne : hubMatrix.ids ≠ [] := by decide +kernel
    rw [hlength, loop, medoidStarPass_eq hubMatrix.ids [] hne] at hs
    cases hbest : bestRemaining scientificPlatform hubMatrix (.finite false 1 1000000)
        hubMatrix.ids with
    | error e =>
      rw [hbest] at hs
      cases hs
    | ok best => exact not_sumsReturn_hub (complete_of_bestRemaining ⟨best, hbest⟩).2

end OvcReplay.Srfd
