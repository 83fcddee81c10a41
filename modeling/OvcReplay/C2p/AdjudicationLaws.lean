import OvcReplay.C2p.Adjudication

/-! # What an adjudication decides

A retrieved assertion equals the candidate in its scope fields, so its comparison depends on its id
and its evidence only. The decision then depends on how many comparisons pass, and on whether one is
unresolved. -/

namespace OvcReplay.C2p

open List Python Json

variable {P : Platform} {candidate : Candidate} {evidence : MechanicalEvidence}
  {evidenceById : Dict PyStr MechanicalEvidence} {pack : ObjectPack}

/-! ## The comparison of a retrieved assertion -/

theorem returns_walkList {xs : List PyVal} (h : Returns (walkList P xs)) :
    ∀ x ∈ xs, Returns (walk P x) := by
  induction xs with
  | nil => simp
  | cons x xs ih =>
    rw [walkList, returns_bind] at h
    obtain ⟨y, hy, h⟩ := h
    obtain ⟨ys, hys, -⟩ := returns_bind.mp h
    exact forall_mem_cons.mpr ⟨⟨y, hy⟩, ih ⟨ys, hys⟩⟩

theorem returns_walkItems {items : List (PyKey × PyVal)} (h : Returns (walkItems P items)) :
    ∀ p ∈ items, Returns (walk P p.2) := by
  induction items with
  | nil => simp
  | cons p items ih =>
    rw [walkItems, returns_bind] at h
    obtain ⟨y, hy, h⟩ := h
    obtain ⟨ys, hys, -⟩ := returns_bind.mp h
    exact forall_mem_cons.mpr ⟨⟨y, hy⟩, ih ⟨ys, hys⟩⟩

/-- A value that is canonical holds no sets. -/
theorem setFree_of_walk {v : PyVal} (h : Returns (walk P v)) : PyVal.SetFree v := by
  induction v with
  | none => exact .none
  | bool b => exact .bool b
  | int z => exact .int z
  | float x => exact .float x
  | decimal d => exact .decimal d
  | str s => exact .str s
  | other o => exact .other o
  | list xs ih =>
    rw [walk, returns_map] at h
    exact .list fun x hx => ih x hx (returns_walkList h x hx)
  | dict items ih =>
    rw [walk, returns_map] at h
    exact .dict fun p hp => ih p hp (returns_walkItems h p hp)
  | tuple xs | set xs => rw [walk] at h; exact absurd h (not_returns_error _)

theorem returns_walk_of_hash {v : PyVal} (h : Returns (hash P v)) : Returns (walk P v) := by
  obtain ⟨bytes, hbytes, -⟩ := returns_bind.mp h
  obtain ⟨normalized, hwalk, -⟩ := bind_ok.mp hbytes
  exact ⟨normalized, hwalk⟩

/-- **A retrieved assertion is equal to the candidate in its scope.** -/
structure InScope (candidate : Candidate) (assertion : ObjectAssertion) : Prop where
  same : assertion.scope.same candidate.scope = true
  setFree : PyVal.SetFree (.dict candidate.scope.hardScope)

variable {assertion : ObjectAssertion}

theorem InScope.pyEq (h : InScope candidate assertion) :
    PyVal.pyEq (.dict candidate.scope.hardScope) (.dict assertion.scope.hardScope) = true := by
  have hsame := h.same
  rw [ScopeFields.same, Bool.and_eq_true] at hsame
  exact PyVal.pyEq_symm h.setFree assertion.scope.built candidate.scope.built hsame.2

theorem nodup_keys_of_built {items : List (PyKey × PyVal)} (h : PyVal.Built (.dict items)) :
    (items.map fun p => p.1.normal).Nodup ∧ (Dict.keys items).Nodup := by
  cases h with
  | dict hkeys _ =>
    refine ⟨hkeys, ?_⟩
    have hnorm : (List.map PyKey.normal (Dict.keys items)).Nodup := by
      rw [Dict.keys, map_map]
      exact hkeys
    exact hnorm.of_map

/-- The scale of a retrieved assertion is the candidate's. -/
theorem InScope.sameScale_eq (h : InScope candidate assertion) : sameScale candidate assertion =
      if (Dict.get? candidate.scope.hardScope (.str (py "scale"))).isSome then .ok true
      else .error (.base (.python .keyError)) := by
  unfold sameScale
  generalize py "scale" = key
  cases hcand : Dict.get? candidate.scope.hardScope (.str key) with
  | none => rfl
  | some scale =>
    have heq := h.pyEq
    rw [PyVal.pyEq, Bool.and_eq_true] at heq
    obtain ⟨q, hq, hscale⟩ :=
      PyVal.pyEqItems_iff.mp heq.2 (.str key, scale) (Dict.mem_of_get? hcand)
    have hkey : PyKey.same q.1 (.str key) = true :=
      List.find?_some (p := fun q : PyKey × PyVal => PyKey.same q.1 (.str key)) hq
    obtain ⟨k, v⟩ := q
    obtain rfl : k = .str key := PyKey.same_text.mp hkey
    have hget : Dict.get? assertion.scope.hardScope (.str key) = some v :=
      Dict.get?_of_mem (nodup_keys_of_built assertion.scope.built).2
        (mem_of_find?_eq_some hq)
    rw [hget]
    show Except.ok (PyVal.pyEq scale v) = _
    rw [hscale]
    rfl

/-- **The comparison of a retrieved assertion** depends on its id only. -/
theorem InScope.pairRow_eq {assertion other : ObjectAssertion} (h : InScope candidate assertion)
    (hother : InScope candidate other)
    (hid : assertion.objectAssertionId = other.objectAssertionId) :
    pairRow P candidate evidence evidenceById pack assertion =
      pairRow P candidate evidence evidenceById pack other := by
  have houtc : ∀ found predicate,
      predicateOutcome candidate evidence assertion found predicate =
        predicateOutcome candidate evidence other found predicate := by
    intro found predicate
    unfold predicateOutcome
    rw [h.pyEq, hother.pyEq]
  have hres : ∀ found, predicateResults candidate evidence assertion found pack =
      predicateResults candidate evidence other found pack := by
    intro found
    unfold predicateResults outcomes
    simp only [houtc]
  unfold pairRow
  rw [hid, h.sameScale_eq, hother.sameScale_eq]
  simp only [hres]

/-! ## The loop -/

/-- The loop compares all that are retrieved, and collects the rows. -/
theorem foldlM_adjudicateStep (retrieved : List ObjectAssertion) (state : Tally) :
    retrieved.foldlM (adjudicateStep P candidate evidence evidenceById pack) state =
      (retrieved.mapM (pairRow P candidate evidence evidenceById pack)).map
        (fun rows => rows.foldl Tally.add state) := by
  induction retrieved generalizing state with
  | nil => rfl
  | cons assertion retrieved ih =>
    rw [foldlM_cons, mapM_cons, adjudicateStep]
    cases pairRow P candidate evidence evidenceById pack assertion with
    | error e => rfl
    | ok row =>
      show retrieved.foldlM _ (state.add row) = _
      rw [ih]
      cases retrieved.mapM (pairRow P candidate evidence evidenceById pack) <;> rfl

/-- **What the loop collects**: the ids whose comparison passes, and whether one is unresolved. -/
theorem foldl_add (rows : List PairRow) (state : Tally) : (rows.foldl Tally.add state).eligible =
        state.eligible ++ (rows.filter fun row => Passes row.results).map PairRow.assertionId ∧
      ((rows.foldl Tally.add state).unresolvedPotentialMatch = true ↔
        state.unresolvedPotentialMatch = true ∨ ∃ row ∈ rows, Unresolved row.results) := by
  induction rows generalizing state with
  | nil => simp
  | cons row rows ih =>
    obtain ⟨helig, hunres⟩ := ih (state.add row)
    rw [foldl_cons, helig, hunres]
    by_cases hpass : Passes row.results
    · have hnot : ¬ Unresolved row.results := by
        rintro ⟨hmem, -⟩
        obtain ⟨p, hp, heq⟩ := mem_map.mp hmem
        rw [hpass p hp] at heq
        cases heq
      simp [Tally.add, hpass, hnot]
    · by_cases hopen : Unresolved row.results
      · simp [Tally.add, hpass, hopen]
      · simp [Tally.add, hpass, hopen]

/-! ## Retrieval -/

/-- What `reference_retrieve` returns. -/
theorem referenceRetrieve_ok {assertions retrieved : List ObjectAssertion} {queryId : PyStr}
    (h : referenceRetrieve P candidate assertions pack = .ok (queryId, retrieved)) :
    retrieved = sortedBy ObjectAssertion.objectAssertionId
        (candidateScopeAssertions candidate assertions) ∧
      ∀ assertion ∈ retrieved, InScope candidate assertion := by
  obtain ⟨_, -, h⟩ := bind_ok.mp h
  obtain ⟨_, -, h⟩ := bind_ok.mp h
  obtain ⟨_, -, h⟩ := bind_ok.mp h
  obtain ⟨query, hquery, h⟩ := bind_ok.mp h
  cases h
  refine ⟨rfl, fun assertion hmem => ⟨?_, ?_⟩⟩
  · exact (mem_filter.mp (mem_sortedBy.mp hmem)).2
  · -- the hard scope is part of the query, which is canonical
    have hwalk := returns_walk_of_hash ⟨_, mapError_ok.mp hquery⟩
    rw [queryPayload, PyVal.ofRecord, walk, returns_map] at hwalk
    exact setFree_of_walk (returns_walkItems hwalk
      (.str (py "hard_scope"), .dict candidate.scope.hardScope) (by simp))

variable {xs ys : List ObjectAssertion}

/-- The order of the assertions does not matter to the ids that are retrieved. -/
theorem map_sortedBy_of_perm (h : xs.Perm ys) :
    (sortedBy ObjectAssertion.objectAssertionId xs).map ObjectAssertion.objectAssertionId =
      (sortedBy ObjectAssertion.objectAssertionId ys).map ObjectAssertion.objectAssertionId := by
  have hids : sortedBy id (xs.map ObjectAssertion.objectAssertionId) =
      sortedBy id (ys.map ObjectAssertion.objectAssertionId) :=
    sortedBy_eq_of_perm (fun _ _ _ _ heq => heq) (h.map ObjectAssertion.objectAssertionId)
  rwa [sortedBy_map, sortedBy_map] at hids

/-- Comparisons of lists with the same ids are the same. -/
theorem mapM_pairRow_eq (hxs : ∀ assertion ∈ xs, InScope candidate assertion)
    (hys : ∀ assertion ∈ ys, InScope candidate assertion)
    (h : xs.map ObjectAssertion.objectAssertionId = ys.map ObjectAssertion.objectAssertionId) :
    xs.mapM (pairRow P candidate evidence evidenceById pack) =
      ys.mapM (pairRow P candidate evidence evidenceById pack) := by
  induction xs generalizing ys with
  | nil =>
    cases ys with
    | nil => rfl
    | cons y ys => cases h
  | cons x xs ih =>
    cases ys with
    | nil => cases h
    | cons y ys =>
      obtain ⟨hid, hrest⟩ := List.cons.inj h
      rw [forall_mem_cons] at hxs hys
      rw [mapM_cons, mapM_cons, hxs.1.pairRow_eq hys.1 hid, ih hxs.2 hys.2 hrest]

/-- The results that a row reports. -/
theorem results_of_pairRow {row : PairRow}
    (h : pairRow P candidate evidence evidenceById pack assertion = .ok row) :
    row.results = outcomes candidate evidence assertion
      (evidenceById.get? assertion.objectAssertionId) pack := by
  obtain ⟨_, -, h⟩ := bind_ok.mp h
  obtain ⟨results, hres, h⟩ := bind_ok.mp h
  obtain ⟨_, -, h⟩ := bind_ok.mp h
  obtain ⟨_, -, h⟩ := bind_ok.mp h
  cases h
  obtain ⟨_, -, hres⟩ := bind_ok.mp hres
  split at hres
  · cases hres
  · exact (Except.ok.inj hres).symm

/-! ## The decision -/

variable (candidate evidence evidenceById pack)

/-- The comparison of an assertion. -/
def comparison (assertion : ObjectAssertion) : Dict PyStr Outcome :=
  outcomes candidate evidence assertion (evidenceById.get? assertion.objectAssertionId) pack

/-- **What a decision says** about the assertions in scope: new when each comparison has a `FAIL`;
update when exactly one passes and none is unresolved; otherwise ambiguous, when more than one
passes, or not evaluable. -/
structure Sound (inScope : List ObjectAssertion) (terminal : Terminal) : Prop where
  new : terminal = .new ↔
    ∀ assertion ∈ inScope, Fails (comparison candidate evidence evidenceById pack assertion)
  update : terminal = .update ↔
    (inScope.countP fun assertion =>
      Passes (comparison candidate evidence evidenceById pack assertion)) = 1 ∧
    ∀ assertion ∈ inScope,
      ¬ Unresolved (comparison candidate evidence evidenceById pack assertion)
  ambiguous : terminal = .ambiguous ↔
    1 < inScope.countP fun assertion =>
      Passes (comparison candidate evidence evidenceById pack assertion)
  notEvaluable : terminal = .notEvaluable ↔
    (inScope.countP fun assertion =>
      Passes (comparison candidate evidence evidenceById pack assertion)) ≤ 1 ∧
    ∃ assertion ∈ inScope, Unresolved (comparison candidate evidence evidenceById pack assertion)

variable {candidate evidence evidenceById pack}

/-- The results of the rows are the comparisons. -/
theorem results_of_mapM {retrieved : List ObjectAssertion} {rows : List PairRow}
    (h : retrieved.mapM (pairRow P candidate evidence evidenceById pack) = .ok rows) :
    rows.map PairRow.results = retrieved.map (comparison candidate evidence evidenceById pack) := by
  have hforall := mapM_ok_iff.mp h
  clear h
  induction hforall with
  | nil => rfl
  | cons hrow _ ih => rw [map_cons, map_cons, results_of_pairRow hrow, ih, comparison]

/-- Every comparison passes, fails or is unresolved. -/
theorem passes_or_fails (results : Dict PyStr Outcome) :
    Passes results ∨ Fails results ∨ Unresolved results := by
  by_cases hfail : Fails results
  · exact .inr (.inl hfail)
  · by_cases hopen : .notEvaluable ∈ results.map Prod.snd
    · exact .inr (.inr ⟨hopen, hfail⟩)
    · refine .inl fun p hp => ?_
      have hmem := mem_map_of_mem (f := Prod.snd) hp
      cases houtc : p.2 with
      | pass => rfl
      | fail =>
        rw [houtc] at hmem
        exact absurd hmem hfail
      | notEvaluable =>
        rw [houtc] at hmem
        exact absurd hmem hopen

theorem not_fails_of_passes {results : Dict PyStr Outcome} (h : Passes results) :
    ¬ Fails results := by
  intro hfail
  obtain ⟨p, hp, heq⟩ := mem_map.mp hfail
  rw [h p hp] at heq
  cases heq

/-- The terminal decision of collected rows. -/
theorem sound_of_terminal {inScope : List ObjectAssertion} {state : Tally}
    (helig : state.eligible.length = inScope.countP fun assertion =>
      Passes (comparison candidate evidence evidenceById pack assertion))
    (hunres : state.unresolvedPotentialMatch = true ↔ ∃ assertion ∈ inScope,
      Unresolved (comparison candidate evidence evidenceById pack assertion)) :
    Sound candidate evidence evidenceById pack inScope state.terminal := by
  generalize hcount : (inScope.countP fun assertion =>
    Passes (comparison candidate evidence evidenceById pack assertion)) = passed at helig
  -- no comparison passes and none is unresolved when each has a failure
  have hfails : (∀ assertion ∈ inScope,
      Fails (comparison candidate evidence evidenceById pack assertion)) ↔
        passed = 0 ∧ ¬ state.unresolvedPotentialMatch = true := by
    rw [← hcount, countP_eq_zero, hunres]
    constructor
    · intro hall
      refine ⟨fun assertion hmem hpass => ?_, ?_⟩
      · exact not_fails_of_passes (of_decide_eq_true hpass) (hall assertion hmem)
      · rintro ⟨assertion, hmem, -, hnot⟩
        exact hnot (hall assertion hmem)
    · rintro ⟨hnone, hnot⟩ assertion hmem
      rcases passes_or_fails (comparison candidate evidence evidenceById pack assertion) with
        hpass | hfail | hopen
      · exact absurd (decide_eq_true hpass) (hnone assertion hmem)
      · exact hfail
      · exact absurd ⟨assertion, hmem, hopen⟩ hnot
  have hnone : (∀ assertion ∈ inScope,
      ¬ Unresolved (comparison candidate evidence evidenceById pack assertion)) ↔
        ¬ state.unresolvedPotentialMatch = true := by
    rw [hunres]
    push Not
    rfl
  have hterm : state.terminal =
      if 1 < passed then .ambiguous
      else if state.unresolvedPotentialMatch = true then .notEvaluable
      else if passed = 1 then .update
      else .new := by
    rw [Tally.terminal, helig]
  refine ⟨?_, ?_, ?_, ?_⟩
  · rw [hfails, hterm]
    split_ifs with hmany hopen hone
    · exact iff_of_false nofun fun h => absurd h.1 (by omega)
    · exact iff_of_false nofun fun h => h.2 hopen
    · exact iff_of_false nofun fun h => absurd h.1 (by omega)
    · exact iff_of_true rfl ⟨by omega, hopen⟩
  · rw [hcount, hnone, hterm]
    split_ifs with hmany hopen hone
    · exact iff_of_false nofun fun h => absurd h.1 (by omega)
    · exact iff_of_false nofun fun h => h.2 hopen
    · exact iff_of_true rfl ⟨hone, hopen⟩
    · exact iff_of_false nofun fun h => hone h.1
  · rw [hcount, hterm]
    split_ifs with hmany hopen hone
    · exact iff_of_true rfl hmany
    · exact iff_of_false nofun hmany
    · exact iff_of_false nofun hmany
    · exact iff_of_false nofun hmany
  · rw [hcount, ← hunres, hterm]
    split_ifs with hmany hopen hone
    · exact iff_of_false nofun fun h => absurd h.1 (not_le.mpr hmany)
    · exact iff_of_true rfl ⟨not_lt.mp hmany, hopen⟩
    · exact iff_of_false nofun fun h => hopen h.2
    · exact iff_of_false nofun fun h => hopen h.2

/-- **A decision is sound.** -/
theorem sound_of_adjudicate {assertions : List ObjectAssertion} {alreadyUsed : Int}
    {result : AdjudicationResult}
    (h : adjudicateCandidate P candidate evidence assertions evidenceById pack alreadyUsed =
      .ok result) :
    Sound candidate evidence evidenceById pack (candidateScopeAssertions candidate assertions)
      result.terminal := by
  obtain ⟨_, -, h⟩ := bind_ok.mp h
  obtain ⟨⟨queryId, retrieved⟩, hretrieve, h⟩ := bind_ok.mp h
  unfold adjudicateRetrieved at h
  obtain ⟨_, -, h⟩ := bind_ok.mp h
  obtain ⟨state, hst, h⟩ := bind_ok.mp h
  obtain ⟨_, -, h⟩ := bind_ok.mp h
  cases h
  obtain ⟨rfl, -⟩ := referenceRetrieve_ok hretrieve
  rw [foldlM_adjudicateStep] at hst
  obtain ⟨rows, hrows, rfl⟩ := map_ok.mp hst
  obtain ⟨helig, hunres⟩ := foldl_add rows ⟨[], [], [], false⟩
  have hres : rows.map PairRow.results =
      (sortedBy ObjectAssertion.objectAssertionId
        (candidateScopeAssertions candidate assertions)).map
          (comparison candidate evidence evidenceById pack) :=
    results_of_mapM hrows
  have hperm : (rows.map PairRow.results).Perm ((candidateScopeAssertions candidate assertions).map
      (comparison candidate evidence evidenceById pack)) := by
    rw [hres]
    exact (sortedBy_perm _ _).map _
  refine sound_of_terminal ?_ ?_
  · rw [helig, nil_append, length_map, ← countP_eq_length_filter]
    have hcount := hperm.countP_eq fun results => Passes results
    rwa [countP_map, countP_map] at hcount
  · have hmem : (∃ row ∈ rows, Unresolved row.results) ↔
        ∃ results ∈ rows.map PairRow.results, Unresolved results := by
      simp only [mem_map, exists_exists_and_eq_and]
    rw [hunres, hmem]
    simp only [hperm.mem_iff, mem_map, exists_exists_and_eq_and]
    simp

variable {assertions assertions' : List ObjectAssertion}

/-- Retrieval from assertions in another order. -/
theorem referenceRetrieve_of_perm (h : assertions.Perm assertions') :
    referenceRetrieve P candidate assertions' pack =
      (referenceRetrieve P candidate assertions pack).map fun found =>
        (found.1, sortedBy ObjectAssertion.objectAssertionId
          (candidateScopeAssertions candidate assertions')) := by
  have hlen : (candidateScopeAssertions candidate assertions').length =
      (candidateScopeAssertions candidate assertions).length := (h.filter _).length_eq.symm
  have hmap : ∀ {α β γ : Type} (f : β → γ) (r : Except AdjudicationError α)
      (g : α → Except AdjudicationError β),
      (r >>= g).map f = r >>= fun a => (g a).map f := by
    intro α β γ f r g
    cases r <;> rfl
  unfold referenceRetrieve
  dsimp only
  rw [hlen]
  simp only [hmap]
  rfl

/-- The decision depends on the ids that are retrieved. -/
theorem adjudicateRetrieved_eq (hxs : ∀ assertion ∈ xs, InScope candidate assertion)
    (hys : ∀ assertion ∈ ys, InScope candidate assertion)
    (h : xs.map ObjectAssertion.objectAssertionId = ys.map ObjectAssertion.objectAssertionId)
    (alreadyUsed : Int) (queryId : PyStr) :
    adjudicateRetrieved P candidate evidence evidenceById pack alreadyUsed queryId xs =
      adjudicateRetrieved P candidate evidence evidenceById pack alreadyUsed queryId ys := by
  have hlen : xs.length = ys.length := by
    simpa using congrArg List.length h
  unfold adjudicateRetrieved
  rw [foldlM_adjudicateStep, foldlM_adjudicateStep, mapM_pairRow_eq hxs hys h, hlen, h]

/-- **The decision does not depend on the order of the assertions.** -/
theorem adjudicate_of_perm (h : assertions.Perm assertions') (alreadyUsed : Int) :
    adjudicateCandidate P candidate evidence assertions evidenceById pack alreadyUsed =
      adjudicateCandidate P candidate evidence assertions' evidenceById pack alreadyUsed := by
  unfold adjudicateCandidate
  rw [referenceRetrieve_of_perm h]
  cases hfound : referenceRetrieve P candidate assertions pack with
  | error e => rfl
  | ok found =>
    obtain ⟨queryId, retrieved⟩ := found
    obtain ⟨hretrieved, hscope⟩ := referenceRetrieve_ok hfound
    have hfound' : referenceRetrieve P candidate assertions' pack = _ :=
      referenceRetrieve_of_perm h
    rw [hfound] at hfound'
    obtain ⟨-, hscope'⟩ := referenceRetrieve_ok hfound'
    have hids : retrieved.map ObjectAssertion.objectAssertionId =
        (sortedBy ObjectAssertion.objectAssertionId
          (candidateScopeAssertions candidate assertions')).map
            ObjectAssertion.objectAssertionId := by
      rw [hretrieved]
      exact map_sortedBy_of_perm (h.filter _)
    refine congrArg (check _ _ >>= fun _ => ·) ?_
    exact adjudicateRetrieved_eq hscope hscope' hids alreadyUsed queryId

/-- **Adjudication is sound and free of order.** -/
structure SoundAndOrderFree (P : Platform) (candidate : Candidate) (evidence : MechanicalEvidence)
    (evidenceById : Dict PyStr MechanicalEvidence) (pack : ObjectPack)
    (assertions : List ObjectAssertion) (alreadyUsed : Int) : Prop where
  sound : ∀ result,
    adjudicateCandidate P candidate evidence assertions evidenceById pack alreadyUsed =
      .ok result →
    Sound candidate evidence evidenceById pack (candidateScopeAssertions candidate assertions)
      result.terminal
  orderFree : ∀ assertions', assertions.Perm assertions' →
    adjudicateCandidate P candidate evidence assertions evidenceById pack alreadyUsed =
      adjudicateCandidate P candidate evidence assertions' evidenceById pack alreadyUsed

/-- **`adjudicate_candidate`** decides as the comparisons say, for assertions in any order. -/
theorem adjudicateCandidate_sound (P : Platform) (candidate : Candidate)
    (evidence : MechanicalEvidence) (evidenceById : Dict PyStr MechanicalEvidence)
    (pack : ObjectPack) (assertions : List ObjectAssertion) (alreadyUsed : Int) :
    SoundAndOrderFree P candidate evidence evidenceById pack assertions alreadyUsed where
  sound := fun _ h => sound_of_adjudicate h
  orderFree := fun _ h => adjudicate_of_perm h alreadyUsed

end OvcReplay.C2p
