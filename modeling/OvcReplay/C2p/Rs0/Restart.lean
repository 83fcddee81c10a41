import OvcReplay.C2p.Rs0.Steps

/-! # Restarts of the RS0 runtime

A run that is cut in two and continued from its checkpoint is the run over all rows. The variables
of the loop are functions of the result: after every row they are what a restart computes. -/

namespace OvcReplay.C2p.Rs0

open List Python

variable {P : Platform} {context : Context}

/-! ## Positions -/

/-- A new object gets the next position. -/
theorem positions_concat (ids : List PyStr) (objectId : PyStr) :
    positions (ids ++ [objectId]) = Dict.set (positions ids) objectId ids.length := by
  simp [positions, zipIdx_append, foldl_append]

variable {material : Material} {materials : List Material}

theorem appendTracklet_trackletId {tracklet updated : Tracklet} {candidate : Candidate}
    (h : appendTracklet tracklet candidate material = .ok updated) :
    updated.trackletId = tracklet.trackletId := by
  simp only [appendTracklet, bind_ok] at h
  obtain ⟨_, -, _, -, h⟩ := h
  exact Except.ok.inj h ▸ rfl

/-- A replacement that keeps the id of the object it replaces keeps all ids. -/
theorem map_modifyAt {α : Type} {pos : Dict PyStr Nat} {objectId : PyStr} {f : α → α}
    {key : α → PyStr} {objects : List α}
    (h : ∀ x, objectAt pos objects objectId = .ok x → key (f x) = key x) :
    (modifyAt pos objectId f objects).map key = objects.map key := by
  unfold modifyAt
  unfold objectAt at h
  cases hpos : Dict.get? pos objectId with
  | none => rfl
  | some position =>
    simp only [hpos] at h
    refine ext_getElem? fun i => ?_
    rw [getElem?_map, getElem?_map, getElem?_modify]
    by_cases hi : position = i
    · subst hi
      cases hx : objects[position]? with
      | none => simp
      | some x =>
        rw [hx] at h
        simp [h x rfl]
    · simp [hi]

theorem map_closeAll {pos : Dict PyStr Nat} {state : TrackletState} {reason : PyStr}
    {trackletIds : List PyStr} {tracklets : List Tracklet} :
    (closeAll pos state reason trackletIds tracklets).map (·.trackletId) =
      tracklets.map (·.trackletId) := by
  unfold closeAll
  induction trackletIds generalizing tracklets with
  | nil => rfl
  | cons trackletId trackletIds ih =>
    rw [foldl_cons, ih]
    exact map_modifyAt fun _ _ => rfl

/-! ## What a row leaves of the loop -/

/-- The positions are those of the objects of the result. -/
structure Positioned (loop : Loop) : Prop where
  tracklets : loop.trackletPos = positions (loop.result.tracklets.map (·.trackletId))
  assertions :
    loop.assertionPos = positions (loop.result.objectAssertions.map (·.objectAssertionId))

namespace Positioned

variable {loop : Loop} {row : Row}

theorem pushCandidate (h : Positioned loop) (candidate : Candidate) :
    Positioned (loop.pushCandidate candidate) := ⟨h.tracklets, h.assertions⟩

theorem pushEvidence (h : Positioned loop) (vectors : List EvidenceVector) :
    Positioned (loop.pushEvidence vectors) := ⟨h.tracklets, h.assertions⟩

theorem pushDecision (h : Positioned loop) (d : Decision) : Positioned (loop.pushDecision d) :=
  ⟨h.tracklets, h.assertions⟩

theorem pushTracklet (h : Positioned loop) (t : Tracklet) : Positioned (loop.pushTracklet t) := by
  refine ⟨?_, h.assertions⟩
  simp only [Loop.pushTracklet, map_append, map_cons, map_nil, positions_concat]
  rw [h.tracklets, length_map]

theorem pushAssertion (h : Positioned loop) (a : Assertion) :
    Positioned (loop.pushAssertion a) := by
  refine ⟨h.tracklets, ?_⟩
  simp only [Loop.pushAssertion, map_append, map_cons, map_nil, positions_concat]
  rw [h.assertions, length_map]

/-- Replacing the tracklet of an id by its extension keeps the ids. -/
theorem putTracklet (h : Positioned loop) {id : PyStr} {t t' : Tracklet}
    (hat : objectAt loop.trackletPos loop.result.tracklets id = .ok t)
    (ht : appendTracklet t row.candidate material = .ok t') :
    Positioned (loop.putTracklet id t') := by
  refine ⟨h.tracklets.trans (congrArg positions (Eq.symm ?_)), h.assertions⟩
  refine map_modifyAt fun x hx => ?_
  cases hat.symm.trans hx
  exact appendTracklet_trackletId ht

theorem update (h : Positioned loop) (id : PyStr) : Positioned (loop.update id row) := by
  refine ⟨h.tracklets, h.assertions.trans (congrArg positions (Eq.symm ?_))⟩
  exact map_modifyAt fun _ _ => rfl

theorem close (h : Positioned loop) (state : TrackletState) (reason : PyStr)
    (ids : List PyStr) : Positioned (loop.close state reason ids) := by
  refine ⟨h.tracklets.trans (congrArg positions (Eq.symm ?_)), h.assertions⟩
  exact map_closeAll

theorem censor (h : Positioned loop) (ids : List PyStr) : Positioned (loop.censor row ids) := by
  rw [Loop.censor]
  split_ifs
  · exact h.close _ _ _
  · exact h

theorem trackletOutcome {openIds : List PyStr} {loop' : Loop} (h : Positioned loop)
    (houtc : TrackletOutcome P context loop row openIds loop') : Positioned loop' := by
  cases houtc with
  | new _ _ _ _ => exact (((h.pushEvidence _).censor _).pushTracklet _).pushDecision _
  | extend _ _ _ hat ht _ _ => exact ((h.pushEvidence _).putTracklet hat ht).pushDecision _
  | genesis _ _ _ hat ht _ _ _ =>
    exact (((h.pushEvidence _).putTracklet hat ht).pushAssertion _).pushDecision _
  | ambiguous _ _ _ => exact ((h.pushEvidence _).close _ _ _).pushDecision _

/-- A row keeps the positions. -/
theorem outcome {loop' : Loop} (h : Positioned loop) (houtc : Outcome P context loop row loop') :
    Positioned loop' := by
  cases houtc with
  | tracklets _ _ _ houtc =>
    exact ((h.pushCandidate _).pushEvidence _).trackletOutcome houtc
  | update _ _ _ => exact (((h.pushCandidate _).pushEvidence _).update _).pushDecision _
  | ambiguous _ _ => exact ((h.pushCandidate _).pushEvidence _).pushDecision _

end Positioned

/-- The marks of a run that no match moves. -/
structure Marks where
  seen : List PyStr
  lastKey : Option (PyStr ×ₗ PyStr)
  processed : List PyStr
  checkpoint : Option PyStr
  schema : PyStr
  runtimeBindingId : PyStr
  objectPackCandidateId : PyStr

/-- The marks of the loop. -/
def Loop.marks (loop : Loop) : Marks where
  seen := loop.seen
  lastKey := loop.lastKey
  processed := loop.result.processedSourceRecordIds
  checkpoint := loop.result.checkpointSha256
  schema := loop.result.schema
  runtimeBindingId := loop.result.runtimeBindingId
  objectPackCandidateId := loop.result.objectPackCandidateId

section Marks

variable (loop : Loop) (row : Row)

@[simp] theorem Loop.marks_pushCandidate (c : Candidate) :
    (loop.pushCandidate c).marks = loop.marks := rfl

@[simp] theorem Loop.marks_pushEvidence (vectors : List EvidenceVector) :
    (loop.pushEvidence vectors).marks = loop.marks := rfl

@[simp] theorem Loop.marks_pushDecision (d : Decision) :
    (loop.pushDecision d).marks = loop.marks := rfl

@[simp] theorem Loop.marks_pushTracklet (t : Tracklet) :
    (loop.pushTracklet t).marks = loop.marks := rfl

@[simp] theorem Loop.marks_pushAssertion (a : Assertion) :
    (loop.pushAssertion a).marks = loop.marks := rfl

@[simp] theorem Loop.marks_putTracklet (id : PyStr) (t : Tracklet) :
    (loop.putTracklet id t).marks = loop.marks := rfl

@[simp] theorem Loop.marks_update (id : PyStr) : (loop.update id row).marks = loop.marks := rfl

@[simp] theorem Loop.marks_close (state : TrackletState) (reason : PyStr) (ids : List PyStr) :
    (loop.close state reason ids).marks = loop.marks := rfl

@[simp] theorem Loop.marks_censor (ids : List PyStr) :
    (loop.censor row ids).marks = loop.marks := by
  rw [Loop.censor]
  split_ifs <;> simp

end Marks

variable {loop' : Loop}

/-- A match leaves the marks alone. -/
theorem Outcome.marks {loop : Loop} {row : Row} (h : Outcome P context loop row loop') :
    loop'.marks = loop.marks := by
  cases h with
  | tracklets _ _ _ h => cases h <;> simp
  | update _ _ _ => simp
  | ambiguous _ _ => simp

/-! ## Restarting between two rows -/

theorem rebuildIndexes_ok {result result' : RuntimeState}
    (h : rebuildIndexes P result = .ok result') :
    ∃ indexes, result' = { result with indexes } ∧
      ∀ indexes', rebuildIndexes P { result with indexes := indexes' } = .ok result' := by
  simp only [rebuildIndexes, bind_ok] at h
  obtain ⟨assertionIds, hassertions, trackletIds, htracklets, h⟩ := h
  cases h
  refine ⟨_, rfl, fun indexes' => ?_⟩
  simp only [rebuildIndexes, hassertions, htracklets, bind, Except.bind]
  rfl

variable {initial : RuntimeState}

theorem startLoop_result {loop : Loop} (h : startLoop P initial = .ok loop) :
    ∃ indexes, loop.result = { initial with indexes } := by
  rw [startLoop, bind_ok] at h
  obtain ⟨result, hres, h⟩ := h
  cases h
  obtain ⟨indexes, rfl, -⟩ := rebuildIndexes_ok hres
  exact ⟨indexes, rfl⟩

/-- **The variables of the loop are what a restart from its result computes.** -/
def Restartable (P : Platform) (loop : Loop) : Prop :=
  startLoop P loop.result = .ok loop ∧ loop.result.checkpointSha256 = none

theorem restartable_of_startLoop {loop : Loop} (hinit : initial.checkpointSha256 = none)
    (h : startLoop P initial = .ok loop) :
    Restartable P loop := by
  rw [startLoop, bind_ok] at h
  obtain ⟨result, hres, h⟩ := h
  cases h
  obtain ⟨indexes, rfl, hrebuild⟩ := rebuildIndexes_ok hres
  refine ⟨?_, hinit⟩
  rw [startLoop]
  simp only [hrebuild indexes, bind, Except.bind]
  rfl

/-- **A row keeps the loop restartable.** -/
theorem Restartable.processRow {loop : Loop}
    (hloop : Restartable P loop) (h : processRow P context loop material = .ok loop') :
    Restartable P loop' := by
  obtain ⟨hstart, hckpt⟩ := hloop
  rw [startLoop, bind_ok] at hstart
  obtain ⟨result, -, hstart⟩ := hstart
  have hloop := Except.ok.inj hstart
  have hpos : Positioned loop :=
    ⟨(congrArg Loop.trackletPos hloop).symm, (congrArg Loop.assertionPos hloop).symm⟩
  have hseen : loop.seen = loop.result.processedSourceRecordIds :=
    (congrArg Loop.seen hloop).symm
  simp only [Rs0.processRow, bind_ok] at h
  obtain ⟨_, -, _, -, candidate, -, matched, hmatched, result', hres', h⟩ := h
  cases h
  have houtc := outcome_of_matchRow hmatched
  have hpos' := hpos.outcome houtc
  have hmarks := houtc.marks
  obtain ⟨indexes, rfl, hrebuild⟩ := rebuildIndexes_ok hres'
  refine ⟨?_, (congrArg Marks.checkpoint hmarks).trans hckpt⟩
  rw [startLoop]
  simp only [hrebuild indexes, bind, Except.bind]
  refine congrArg Except.ok ?_
  simp only [Loop.mk.injEq, true_and]
  refine ⟨hpos'.tracklets.symm, hpos'.assertions.symm, ?_, trivial⟩
  rw [show matched.result.processedSourceRecordIds = loop.result.processedSourceRecordIds from
    congrArg Marks.processed hmarks, hseen]

/-- What a run of rows leaves: a restartable loop with the header it started from. -/
theorem Restartable.foldlM {loop : Loop} (hloop : Restartable P loop)
    (h : materials.foldlM (Rs0.processRow P context) loop = .ok loop') :
    Restartable P loop' ∧ loop'.result.schema = loop.result.schema ∧
      loop'.result.runtimeBindingId = loop.result.runtimeBindingId ∧
      loop'.result.objectPackCandidateId = loop.result.objectPackCandidateId := by
  induction materials generalizing loop with
  | nil => exact Except.ok.inj h ▸ ⟨hloop, rfl, rfl, rfl⟩
  | cons material materials ih =>
    rw [foldlM_cons, bind_ok] at h
    obtain ⟨next, hnext, h⟩ := h
    obtain ⟨hlast, hsch, hbind, hpack⟩ := ih (hloop.processRow hnext) h
    simp only [Rs0.processRow, bind_ok] at hnext
    obtain ⟨_, -, _, -, candidate, -, matched, hmatched, result', hres', hnext⟩ := hnext
    cases hnext
    have hmarks := (outcome_of_matchRow hmatched).marks
    obtain ⟨indexes, rfl, -⟩ := rebuildIndexes_ok hres'
    exact ⟨hlast, hsch.trans (congrArg Marks.schema hmarks),
      hbind.trans (congrArg Marks.runtimeBindingId hmarks),
      hpack.trans (congrArg Marks.objectPackCandidateId hmarks)⟩

/-! ## The order of the rows -/

/-- Rows are accepted in the strict order of their keys only. -/
theorem pairwise_of_foldlM {loop : Loop}
    (h : materials.foldlM (processRow P context) loop = .ok loop') :
    (∀ key ∈ loop.lastKey, ∀ m ∈ materials, key < streamKey m) ∧
      materials.Pairwise fun a b => streamKey a < streamKey b := by
  induction materials generalizing loop with
  | nil => simp
  | cons material materials ih =>
    rw [foldlM_cons, bind_ok] at h
    obtain ⟨next, hnext, h⟩ := h
    obtain ⟨hlast, hpw⟩ := ih h
    simp only [processRow, bind_ok, check_ok] at hnext
    obtain ⟨_, -, _, hkey, candidate, -, matched, -, result', -, hnext⟩ := hnext
    cases hnext
    have hlater : ∀ m ∈ materials, streamKey material < streamKey m := hlast _ rfl
    refine ⟨fun key hmem m hm => ?_, pairwise_cons.mpr ⟨hlater, hpw⟩⟩
    rcases mem_cons.mp hm with rfl | hm
    · exact hkey key hmem
    · exact (hkey key hmem).trans (hlater m hm)

/-- An accepted run does not depend on the order in which its rows arrive. -/
theorem sortedBy_streamKey_eq_of_perm {materials' : List Material} {loop : Loop}
    (hperm : materials.Perm materials')
    (h : (sortedBy streamKey materials).foldlM (processRow P context) loop = .ok loop') :
    sortedBy streamKey materials' = sortedBy streamKey materials := by
  refine (sortedBy_eq_of_perm (fun a ha b hb hab => ?_) hperm).symm
  have hnd : ((sortedBy streamKey materials).map streamKey).Nodup :=
    pairwise_map.mpr ((pairwise_of_foldlM h).2.imp fun hlt => hlt.ne)
  exact inj_on_of_nodup_map hnd (mem_sortedBy.mpr ha) (mem_sortedBy.mpr hb) hab

/-! ## A run -/

/-- The arguments of a run are admitted. -/
def Admitted (spec : CandidateSpec) : Prop :=
  spec.activationEligible = .bool false ∧ py "-v2" <:+ spec.semanticCandidateId

variable {initialState : Option RuntimeState}

/-- The states a run starts from and ends in. -/
theorem runEmpiricalRuntime_ok {rows : List Record} {s : RuntimeState} :
    runEmpiricalRuntime P context rows initialState = .ok s ↔
      Admitted context.spec ∧ ∃ initial materials start final,
        initialResult P context.spec initialState = .ok initial ∧
        rows.mapM (normalizeCandidateSourceRow P) = .ok materials ∧
        startLoop P initial = .ok start ∧
        (sortedBy streamKey materials).foldlM (processRow P context) start = .ok final ∧
        checkpointed P final.result = .ok s := by
  simp only [runEmpiricalRuntime, bind_ok, check_ok, Admitted]
  constructor
  · rintro ⟨_, hactivation, _, hprof, initial, hinit, materials, hmaterials, start, hstart,
      final, hfinal, h⟩
    exact ⟨⟨hactivation, hprof⟩, initial, materials, start, final, hinit, hmaterials, hstart,
      hfinal, h⟩
  · rintro ⟨⟨hactivation, hprof⟩, initial, materials, start, final, hinit, hmaterials,
      hstart, hfinal, h⟩
    exact ⟨(), hactivation, (), hprof, initial, hinit, materials, hmaterials, start, hstart,
      final, hfinal, h⟩

theorem initialResult_header {spec : CandidateSpec}
    (h : initialResult P spec initialState = .ok initial) :
    initial.checkpointSha256 = none ∧ initial.schema = runtimeSchema ∧
      initial.runtimeBindingId = runtimeBinding ∧
      initial.objectPackCandidateId = spec.candidateId := by
  cases initialState with
  | none =>
    cases h
    exact ⟨rfl, rfl, rfl, rfl⟩
  | some state =>
    simp only [initialResult, validateInitialState, bind_ok, check_ok] at h
    obtain ⟨_, ⟨_, hsch, _, hbind, _, hpack, _⟩, h⟩ := h
    cases h
    exact ⟨rfl, hsch, hbind, hpack⟩

/-- **A checkpointed state is accepted and restores the result it was taken of.** -/
theorem initialResult_checkpointed {spec : CandidateSpec} {result s : RuntimeState}
    (hckpt : result.checkpointSha256 = none) (hsch : result.schema = runtimeSchema)
    (hbind : result.runtimeBindingId = runtimeBinding)
    (hpack : result.objectPackCandidateId = spec.candidateId)
    (h : checkpointed P result = .ok s) : initialResult P spec (some s) = .ok result := by
  rw [checkpointed, bind_ok] at h
  obtain ⟨checkpoint, hhash, h⟩ := h
  cases h
  simp only [initialResult, validateInitialState, bind_ok, check_ok]
  refine ⟨(), ⟨(), hsch, (), hbind, (), hpack, checkpoint, hhash, rfl⟩, ?_⟩
  exact congrArg Except.ok (by rw [← hckpt])

/-- A row precedes another in the order key of the stream. -/
def Precedes (P : Platform) (row row' : Record) : Prop :=
  ∀ m m', normalizeCandidateSourceRow P row = .ok m →
    normalizeCandidateSourceRow P row' = .ok m' → streamKey m < streamKey m'

/-- **Restart equivalence**: a run over two batches, the second from the state the first produced,
is the run over all rows, whatever the order of the rows inside the batches and of all of them. -/
theorem runEmpiricalRuntime_restart {rows₁ rows₂ rows₁' rows₂' rows : List Record}
    {initialState : Option RuntimeState} {s₁ s : RuntimeState} (hperm₁ : rows₁'.Perm rows₁)
    (hperm₂ : rows₂'.Perm rows₂) (hperm : rows.Perm (rows₁ ++ rows₂))
    (hprecedes : ∀ r₁ ∈ rows₁, ∀ r₂ ∈ rows₂, Precedes P r₁ r₂)
    (hs₁ : runEmpiricalRuntime P context rows₁' initialState = .ok s₁) :
    runEmpiricalRuntime P context rows₂' (some s₁) = .ok s ↔
      runEmpiricalRuntime P context rows initialState = .ok s := by
  obtain ⟨hadm, initial, ms₁, start, middle, hinit, hms₁, hstart, hmiddle, hseal⟩ :=
    runEmpiricalRuntime_ok.mp hs₁
  -- the second batch starts from the loop that the first one left
  obtain ⟨hnone, hsch, hbind, hpack⟩ := initialResult_header hinit
  obtain ⟨⟨hrestart, hmiddleNone⟩, hsch', hbind', hpack'⟩ :=
    (restartable_of_startLoop hnone hstart).foldlM hmiddle
  obtain ⟨indexes, hstartResult⟩ := startLoop_result hstart
  rw [hstartResult] at hsch' hbind' hpack'
  have hinit₂ : initialResult P context.spec (some s₁) = .ok middle.result :=
    initialResult_checkpointed hmiddleNone (hsch'.trans hsch) (hbind'.trans hbind)
      (hpack'.trans hpack) hseal
  -- the sorted rows of the whole run are those of the two batches
  have hsort : ∀ {ms₂ : List Material}, rows₂'.mapM (normalizeCandidateSourceRow P) = .ok ms₂ →
      (sortedBy streamKey (ms₁ ++ ms₂)).foldlM (processRow P context) start =
        (sortedBy streamKey ms₂).foldlM (processRow P context) middle := by
    intro ms₂ hms₂
    rw [sortedBy_append fun m₁ hm₁ m₂ hm₂ => le_of_lt ?_, foldlM_append, hmiddle]
    · rfl
    · obtain ⟨r₁, hr₁, hrm₁⟩ := mem_of_mapM_right hms₁ hm₁
      obtain ⟨r₂, hr₂, hrm₂⟩ := mem_of_mapM_right hms₂ hm₂
      exact hprecedes r₁ (hperm₁.mem_iff.mp hr₁) r₂ (hperm₂.mem_iff.mp hr₂) m₁ m₂ hrm₁ hrm₂
  have hrows : (rows₁' ++ rows₂').Perm rows := (hperm₁.append hperm₂).trans hperm.symm
  rw [runEmpiricalRuntime_ok, runEmpiricalRuntime_ok]
  constructor
  · rintro ⟨-, initial₂, ms₂, start₂, final, hinit₂', hms₂, hstart₂, hfinal, hs⟩
    cases hinit₂'.symm.trans hinit₂
    cases hstart₂.symm.trans hrestart
    rw [← hsort hms₂] at hfinal
    have hms := mapM_append_ok hms₁ hms₂
    have hret : Returns (rows.mapM (normalizeCandidateSourceRow P)) := by
      rw [returns_mapM]
      intro r hr
      obtain ⟨m, -, hm⟩ := mem_of_mapM_left hms (hrows.mem_iff.mpr hr)
      exact ⟨m, hm⟩
    obtain ⟨ms, hms'⟩ := hret
    have hsame := sortedBy_streamKey_eq_of_perm (perm_of_mapM hrows hms hms') hfinal
    rw [← hsame] at hfinal
    exact ⟨hadm, initial, ms, start, final, hinit, hms', hstart, hfinal, hs⟩
  · rintro ⟨-, initial', ms, start', final, hinit', hms', hstart', hfinal, hs⟩
    cases hinit'.symm.trans hinit
    cases hstart'.symm.trans hstart
    have hret : Returns (rows₂'.mapM (normalizeCandidateSourceRow P)) := by
      rw [returns_mapM]
      intro r hr
      obtain ⟨m, -, hm⟩ :=
        mem_of_mapM_left hms' (hrows.mem_iff.mp (mem_append_right rows₁' hr))
      exact ⟨m, hm⟩
    obtain ⟨ms₂, hms₂⟩ := hret
    have hmsPerm := perm_of_mapM hrows.symm hms' (mapM_append_ok hms₁ hms₂)
    have hsame := sortedBy_streamKey_eq_of_perm hmsPerm hfinal
    rw [← hsame, hsort hms₂] at hfinal
    exact ⟨hadm, middle.result, ms₂, middle, final, hinit₂, hms₂, hrestart, hfinal, hs⟩

/-! ## Runs -/

/-- A level as a source row may report it. -/
def sampleRow (sourceRecordId firstValidTime : String) : Record :=
  [(py "schema", .str (py "ovc-c2p2-rs0-source-row/v1")), (py "source_role", .str (py "C2_VNEXT")),
    (py "instrument", .str (py "GBPUSD")), (py "side", .str (py "BID")),
    (py "clock", .str (py "15M")), (py "first_valid_time", .str (py firstValidTime)),
    (py "evaluation_cutoff", .str (py firstValidTime)),
    (py "source_record_id", .str (py sourceRecordId)),
    (py "source_record_kind", .str (py "C2_LEVEL")),
    (py "geometry_signature", .ofRecord [(py "horizon_id", .str (py "H4")),
      (py "level_type", .str (py "HIGH")), (py "value", .str (py "1.25")),
      (py "origin", .str (py "C2AR")), (py "structural_depth", .none)]),
    (py "relation_topology", .ofStrs [py "ABOVE"])]

/-- The strict candidate, with the rows that are flagged as discontinuities. -/
def sampleContext (discontinuities : List PyStr) : Context where
  spec :=
    { candidateId := py "OP-A-v3", semanticCandidateId := py "C2P2-PS0-OP-A-STRICT-CONTINUITY-v2"
      activationEligible := .bool false }
  registry := [(py "entries", .list [])]
  discontinuities := discontinuities
  terminalBreaks := []

/-- A run cut between two rows. -/
theorem runEmpiricalRuntime_restart_two :
    ∃ s₁, runEmpiricalRuntime .reference (sampleContext []) [sampleRow "L1" "t1"] none = .ok s₁ ∧
      ∀ s, runEmpiricalRuntime .reference (sampleContext []) [sampleRow "L2" "t2"] (some s₁) =
          .ok s ↔
        runEmpiricalRuntime .reference (sampleContext []) [sampleRow "L2" "t2", sampleRow "L1" "t1"]
          none = .ok s := by
  have hret : Returns (runEmpiricalRuntime .reference (sampleContext []) [sampleRow "L1" "t1"]
      none) := by
    decide +kernel
  have hkeys : ((normalizeCandidateSourceRow .reference (sampleRow "L1" "t1")).toOption.any
      fun m => (normalizeCandidateSourceRow .reference (sampleRow "L2" "t2")).toOption.any
        fun m' => decide (streamKey m < streamKey m')) = true := by
    decide +kernel
  obtain ⟨s₁, hs₁⟩ := hret
  refine ⟨s₁, hs₁, fun s => runEmpiricalRuntime_restart (.refl _) (.refl _) (.swap _ _ _) ?_ hs₁⟩
  intro r₁ hr₁ r₂ hr₂ m m' hm hm'
  obtain rfl := mem_singleton.mp hr₁
  obtain rfl := mem_singleton.mp hr₂
  simpa [hm, hm', Except.toOption] using hkeys

end OvcReplay.C2p.Rs0
