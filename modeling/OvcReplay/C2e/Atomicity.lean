import OvcReplay.C2e.Transitions

/-! # Atomicity of the lifecycle engine

What the engine shows is changed by a call that raises exactly when the call had written something
before the write that failed. `Call.Safe` says, from the arguments and the state before the call,
that no write after the first can fail. -/

namespace OvcReplay.C2e

open Python Raising

variable {P : Platform}

/-! ## Complete payloads -/

theorem canonical_int_of_lt_ten {z : Int} (h : z.natAbs < 10) : Canonical P (.int z) := by
  have hlt : z.natAbs < 10 ^ maxStrDigits := by
    calc z.natAbs < 10 ^ 1 := h
      _ ≤ 10 ^ maxStrDigits := Nat.pow_le_pow_right (by decide) (by unfold maxStrDigits; decide)
  have htree : canonicalTree P (.int z) = .ok (.int z) := by
    simp [canonicalTree, canonicalize, Json.dumps, Json.dumpsWith, strInt, hlt, bind, Except.bind,
      Except.map, Except.mapError]
  exact (canonical_iff P).mpr ⟨.int z, htree, (isAscii_intText z).encodable⟩

namespace EpisodeEngine

variable {effectiveTime firstValidTime : PyStr}

/-- When a boundary event is complete. -/
theorem complete_eventPayload {episodeIds candidateIds : List PyStr} {action : PyStr}
    {priority : Int} {reasonCodes : List PyStr} (hpriority : priority.natAbs < 10) :
    Complete P .boundaryEvent (eventPayload episodeIds candidateIds action priority effectiveTime
      firstValidTime reasonCodes) ↔
      (∀ x ∈ episodeIds, Encodable x) ∧ (∀ x ∈ candidateIds, Encodable x) ∧ Filled action ∧
        Filled effectiveTime ∧ Filled firstValidTime ∧ ∀ x ∈ reasonCodes, Encodable x := by
  have hint := canonical_int_of_lt_ten (P := P) hpriority
  simp [complete_iff, eventPayload, RecordKind.spec, Present, Filled, hint]
  tauto

variable {episodeId candidateId : PyStr} {payload frame : Record} {s' : EpisodeEngine}

/-- When a phase segment is complete. -/
theorem complete_phasePayload {phaseType startTime : PyStr} {endTime : Option PyStr}
    {firstValidTime : PyStr} {sourceRecordIds : List PyStr} :
    Complete P .phaseSegment (phasePayload episodeId phaseType startTime endTime firstValidTime
      sourceRecordIds) ↔
      Filled episodeId ∧ Filled phaseType ∧ Filled startTime ∧ (∃ t, endTime = some t ∧ Filled t) ∧
        Filled firstValidTime ∧ ∀ x ∈ sourceRecordIds, Encodable x := by
  cases endTime with
  | none => simp [complete_iff, phasePayload, RecordKind.spec, Present, Filled, PyVal.ofStr?]
  | some t =>
    simp [complete_iff, phasePayload, RecordKind.spec, Present, Filled, PyVal.ofStr?]
    tauto

/-- A frame id that can be written. -/
def FrameIdFilled (P : Platform) (frameId : PyVal) : Prop :=
  frameId ≠ .none ∧ frameId ≠ .str [] ∧ Canonical P frameId

/-- When a membership delta is complete. -/
theorem complete_membershipPayload {frameId : PyVal}
    {eventId effectiveTime firstValidTime : PyStr} :
    Complete P .membershipDelta (membershipPayload episodeId frameId eventId effectiveTime
      firstValidTime) ↔
      Filled episodeId ∧ FrameIdFilled P frameId ∧ Filled eventId ∧ Filled effectiveTime ∧
        Filled firstValidTime := by
  simp [complete_iff, membershipPayload, RecordKind.spec, Present, Filled, FrameIdFilled]
  tauto

/-- When an edge is complete. -/
theorem complete_edgePayload {edgeType parent child eventId effectiveTime
    firstValidTime : PyStr} :
    Complete P .lineageEdge (EpisodeTopology.edgePayload edgeType parent child eventId effectiveTime
      firstValidTime) ↔
      Filled edgeType ∧ Filled parent ∧ Filled child ∧ Filled eventId ∧ Filled effectiveTime ∧
        Filled firstValidTime := by
  simp [complete_iff, EpisodeTopology.edgePayload, RecordKind.spec, Present, Filled]
  tauto

/-- What a written genesis record says about the arguments of the birth. -/
theorem filled_of_genesisPayload {boundaryPackId : PyStr}
    {identity frameId : PyVal} {ruleId effectiveTime firstValidTime : PyStr}
    (h : genesisPayload boundaryPackId frame identity ruleId effectiveTime firstValidTime =
      .ok payload) (hframe : lookup frame (py "frame_id") = .ok frameId)
    (hc : Complete P .episodeGenesis payload) :
    Filled effectiveTime ∧ Filled firstValidTime ∧ FrameIdFilled P frameId := by
  simp only [genesisPayload, bind_ok] at h
  obtain ⟨_, -, v₁, -, v₂, -, v₃, -, v₄, -, v₅, -, v₆, hv₆, h⟩ := h
  cases h
  cases hv₆ ▸ hframe
  simp [complete_iff, RecordKind.spec, Present] at hc
  simp [Filled, FrameIdFilled, hc]

/-! ## The view -/

/-- What an engine shows: its records and their ids, its edges and its three caches. -/
structure View where
  records : List Record
  ids : List PyStr
  edges : List Record
  genesis : Dict PyStr Record
  statusByEpisode : Dict PyStr EpisodeStatus
  ownerByFrame : Dict OwnerKey PyStr
  deriving DecidableEq

/-- The view of an engine. -/
def view (engine : EpisodeEngine) : View where
  records := engine.stream.records
  ids := engine.stream.ids
  edges := engine.topology.edges
  genesis := engine.genesis
  statusByEpisode := engine.statusByEpisode
  ownerByFrame := engine.ownerByFrame

theorem records_length_eq {s : EpisodeEngine} (h : view s' = view s) :
    s'.stream.records.length = s.stream.records.length :=
  congrArg (fun v => v.records.length) h

/-- A stream that has grown shows. -/
theorem view_ne {s : EpisodeEngine} (record : Record) (tail : List Record)
    (h : s'.stream.records = s.stream.records ++ record :: tail) : view s' ≠ view s := by
  intro heq
  have hlen := records_length_eq heq
  rw [h] at hlen
  simp at hlen

theorem view_emit_ne {s : EpisodeEngine} {record : Record} {id : PyStr} :
    view (s.emit record id) ≠ view s :=
  view_ne record [] rfl

/-! ## When a call is safe -/

section Safe

variable (P)

/-- The event a birth writes. -/
def birthEvent (episodeId candidateId effectiveTime firstValidTime : PyStr) : Record :=
  eventPayload [episodeId] [candidateId] (py "BIRTH") 8 effectiveTime firstValidTime []

/-- The event a continuation writes. -/
def continuationEvent (episodeId candidateId effectiveTime firstValidTime : PyStr) : Record :=
  eventPayload [episodeId] [candidateId] (py "CONTINUATION") 7 effectiveTime firstValidTime []

/-- The event a phase mutation writes. -/
def phaseEvent (episodeId candidateId effectiveTime firstValidTime : PyStr) : Record :=
  eventPayload [episodeId] [candidateId] (py "PHASE_MUTATION") 6 effectiveTime firstValidTime []

/-- The event a link writes. -/
def linkEvent (edgeType parentEpisodeId childEpisodeId candidateId effectiveTime
    firstValidTime : PyStr) : Record :=
  eventPayload (sortedSet [parentEpisodeId, childEpisodeId]) [candidateId] edgeType 4 effectiveTime
    firstValidTime []

/-- **No write after the first can fail.** The hypotheses of each clause say that the call passes its
checks and makes its first write; the conclusion says that its other records are complete and new. -/
def Call.Safe (engine : EpisodeEngine) : Call → Prop
  | .birth frame ruleId candidateId effectiveTime firstValidTime =>
    ∀ identity key payload episodeId, lookup frame (py "identity") = .ok identity →
      ownerKey P frame identity = .ok key → key ∉ engine.ownerByFrame.keys →
      genesisPayload engine.boundaryPackId frame identity ruleId effectiveTime firstValidTime =
        .ok payload →
      payloadId P .episodeGenesis payload = .ok episodeId →
      Emittable P .episodeGenesis payload engine.stream.ids →
      Encodable candidateId ∧
        New P .boundaryEvent (birthEvent episodeId candidateId effectiveTime firstValidTime)
          engine.stream.ids ∧
        ∀ frameId eventId, lookup frame (py "frame_id") = .ok frameId →
          payloadId P .boundaryEvent
            (birthEvent episodeId candidateId effectiveTime firstValidTime) = .ok eventId →
          New P .membershipDelta
            (membershipPayload episodeId frameId eventId effectiveTime firstValidTime)
            engine.stream.ids
  | .continueEpisode episodeId frame candidateId effectiveTime firstValidTime =>
    ∀ identity key frameId eventId,
      engine.statusByEpisode.get? episodeId = some .opened →
      lookup frame (py "identity") = .ok identity → ownerKey P frame identity = .ok key →
      (engine.ownerByFrame.get? key = none ∨
        engine.ownerByFrame.get? key = some episodeId) →
      Emittable P .boundaryEvent
        (continuationEvent episodeId candidateId effectiveTime firstValidTime)
        engine.stream.ids →
      lookup frame (py "frame_id") = .ok frameId →
      payloadId P .boundaryEvent
        (continuationEvent episodeId candidateId effectiveTime firstValidTime) = .ok eventId →
      FrameIdFilled P frameId ∧
        New P .membershipDelta
          (membershipPayload episodeId frameId eventId effectiveTime firstValidTime)
          engine.stream.ids
  | .phaseMutation episodeId candidateId phaseType startTime endTime sourceRecordIds effectiveTime
      firstValidTime =>
      engine.statusByEpisode.get? episodeId = some .opened →
        Emittable P .boundaryEvent (phaseEvent episodeId candidateId effectiveTime firstValidTime)
          engine.stream.ids →
        Filled phaseType ∧ Filled startTime ∧ (∃ t, endTime = some t ∧ Filled t) ∧
          (∀ x ∈ sourceRecordIds, Encodable x) ∧
          New P .phaseSegment
            (phasePayload episodeId phaseType startTime endTime firstValidTime sourceRecordIds)
            engine.stream.ids
  | .reParent .. => True
  | .censor .. => True
  | .terminate .. => True
  | .link edgeType parentEpisodeId childEpisodeId candidateId effectiveTime firstValidTime =>
    ∀ eventId, parentEpisodeId ∈ engine.genesis.keys →
      childEpisodeId ∈ engine.genesis.keys →
      Complete P .boundaryEvent (linkEvent edgeType parentEpisodeId childEpisodeId candidateId
        effectiveTime firstValidTime) →
      payloadId P .boundaryEvent (linkEvent edgeType parentEpisodeId childEpisodeId candidateId
        effectiveTime firstValidTime) = .ok eventId →
      engine.topology.Admits edgeType parentEpisodeId childEpisodeId →
      New P .boundaryEvent (linkEvent edgeType parentEpisodeId childEpisodeId candidateId
          effectiveTime firstValidTime) engine.stream.ids ∧
        New P .lineageEdge (EpisodeTopology.edgePayload edgeType parentEpisodeId childEpisodeId
          eventId effectiveTime firstValidTime) engine.stream.ids

end Safe

/-! ## Atomicity, call by call -/

variable {s : EpisodeEngine}

theorem atomicAt_reParent {effectiveTime firstValidTime : PyStr}
    {reasonCodes : Option (List PyStr)} :
    AtomicAt view (reParent P episodeId candidateId effectiveTime firstValidTime reasonCodes) s := by
  rw [AtomicAt, reParent]
  simp only [ends_bind, ends_requireOpen, ends_event, implies_true, and_true]

theorem atomicAt_censor {reason effectiveTime firstValidTime : PyStr} :
    AtomicAt view (censor P episodeId candidateId reason effectiveTime firstValidTime) s := by
  rw [AtomicAt, censor]
  simp only [ends_bind, ends_requireOpen, ends_require, ends_event, ends_modify, ends_pure,
    implies_true, and_true]

theorem atomicAt_terminate {conflict : Bool} :
    AtomicAt view (terminate P episodeId candidateId conflict effectiveTime firstValidTime) s := by
  rw [AtomicAt, terminate]
  simp only [ends_bind, ends_requireOpen, ends_event, ends_modify, ends_pure, implies_true,
    and_true]

/-- The last write of an operation that has written before must not fail. -/
theorem ends_last {kind : RecordKind} (hr : Regular kind payload) (hne : view s' ≠ view s) :
    ends (lift (buildRecord P kind payload) : EngineM Record)
        (fun record engine => ends (append P record) (fun _ _ => True)
          (fun _ s'' => view s'' = view s) engine) (fun _ s'' => view s'' = view s) s' ↔
      Emittable P kind payload s'.stream.ids := by
  rw [ends_lift_append (Q := fun s'' => view s'' = view s) hr]
  simp only [implies_true, true_and, hne, imp_false, not_not]

theorem emittable_iff {kind : RecordKind} {ids : List PyStr} :
    Emittable P kind payload ids ↔ Complete P kind payload ∧ New P kind payload ids :=
  ⟨fun h => ⟨h.complete, h.isNew⟩, fun h => ⟨h.1, h.2⟩⟩

theorem atomicAt_phaseMutation {phaseType startTime : PyStr}
    {endTime : Option PyStr} {sourceRecordIds : List PyStr}
    (hfilled : s.statusByEpisode.get? episodeId = some .opened → Filled episodeId) :
    AtomicAt view (phaseMutation P episodeId candidateId phaseType startTime endTime
      sourceRecordIds effectiveTime firstValidTime) s ↔
      (Call.phaseMutation episodeId candidateId phaseType startTime endTime sourceRecordIds
        effectiveTime firstValidTime).Safe P s := by
  rw [AtomicAt, phaseMutation]
  simp only [Call.Safe, phaseEvent, ends_bind, ends_requireOpen, ends_pure, implies_true, and_true]
  refine imp_congr_right fun hopen => ?_
  rw [ends_event]
  simp only [implies_true, and_true]
  -- once the event is written, the call is atomic iff the segment can be written too
  have hrest : ∀ event eventId, Emits P .boundaryEvent
      (eventPayload [episodeId] [candidateId] (py "PHASE_MUTATION") 6 effectiveTime firstValidTime
        []) s.stream.ids event eventId →
      (Emittable P .phaseSegment (phasePayload episodeId phaseType startTime endTime firstValidTime
        sourceRecordIds) (s.emit event eventId).stream.ids ↔
        Filled phaseType ∧ Filled startTime ∧ (∃ t, endTime = some t ∧ Filled t) ∧
          (∀ x ∈ sourceRecordIds, Encodable x) ∧ New P .phaseSegment (phasePayload episodeId
            phaseType startTime endTime firstValidTime sourceRecordIds) s.stream.ids) := by
    intro event eventId he
    obtain ⟨-, -, -, -, hvalid, -⟩ :=
      (complete_eventPayload (by decide)).mp (he.complete regular_eventPayload)
    rw [emittable_iff, emit_ids, New.append_iff (by decide) he, complete_phasePayload]
    simp only [hfilled hopen, hvalid, true_and, and_assoc]
  constructor
  · intro h he
    obtain ⟨event, eventId, hev⟩ := (exists_emits_iff regular_eventPayload).mpr he
    exact (hrest event eventId hev).mp
      ((ends_last regular_phasePayload view_emit_ne).mp (h event eventId hev))
  · intro h event eventId hev
    exact (ends_last regular_phasePayload view_emit_ne).mpr ((hrest event eventId hev).mpr
      (h ((exists_emits_iff regular_eventPayload).mp ⟨event, eventId, hev⟩)))

theorem atomicAt_continueEpisode {effectiveTime firstValidTime : PyStr}
    (hfilled : s.statusByEpisode.get? episodeId = some .opened → Filled episodeId) :
    AtomicAt view (continueEpisode P episodeId frame candidateId effectiveTime firstValidTime) s ↔
      (Call.continueEpisode episodeId frame candidateId effectiveTime firstValidTime).Safe P s := by
  rw [AtomicAt, continueEpisode]
  simp only [ends_bind, ends_requireOpen, ends_get, ends_require, ends_modify, ends_pure,
    implies_true, and_true]
  -- once the event is written, the call is atomic iff the membership can be written too
  have hrest : ∀ event eventId frameId, s.statusByEpisode.get? episodeId = some .opened →
      Emits P .boundaryEvent (continuationEvent episodeId candidateId effectiveTime firstValidTime)
        s.stream.ids event eventId →
      (Emittable P .membershipDelta (membershipPayload episodeId frameId eventId effectiveTime
        firstValidTime) (s.emit event eventId).stream.ids ↔
        FrameIdFilled P frameId ∧ New P .membershipDelta (membershipPayload episodeId frameId
          eventId effectiveTime firstValidTime) s.stream.ids) := by
    intro event eventId frameId hopen he
    obtain ⟨-, -, -, htime, hvalid, -⟩ :=
      (complete_eventPayload (by decide)).mp (he.complete regular_eventPayload)
    rw [emittable_iff, emit_ids, New.append_iff (by decide) he, complete_membershipPayload]
    simp only [hfilled hopen, he.filled, htime, hvalid, true_and, and_true]
  constructor
  · intro h identity key frameId eventId hopen hid hkey howner he hframe heventId
    obtain ⟨event, eventId', hev⟩ := (exists_emits_iff regular_eventPayload).mpr he
    cases heventId ▸ hev.payloadId
    have hcall := h hopen
    rw [hid, ends_lift_ok, hkey, ends_lift_ok] at hcall
    have hlast := (ends_event.mp (hcall.1 howner)).1 event eventId hev
    have htext : textField event (py "boundary_event_id") = .ok eventId := hev.textField
    rw [hframe, ends_lift_ok, htext, ends_lift_ok,
      ends_last regular_membershipPayload view_emit_ne] at hlast
    exact (hrest event eventId frameId hopen hev).mp hlast
  · intro h hopen
    rw [ends_lift]
    refine ⟨fun identity hid => ?_, fun _ _ => rfl⟩
    rw [ends_lift]
    refine ⟨fun key hkey => ⟨fun howner => ?_, fun _ => rfl⟩, fun _ _ => rfl⟩
    rw [ends_event]
    refine ⟨fun event eventId hev => ?_, fun _ => rfl⟩
    obtain ⟨frameId, hframe, -⟩ := strOf_of_ownerKey hkey
    have htext : textField event (py "boundary_event_id") = .ok eventId := hev.textField
    rw [hframe, ends_lift_ok, htext, ends_lift_ok,
      ends_last regular_membershipPayload view_emit_ne]
    exact (hrest event eventId frameId hopen hev).mpr
      (h identity key frameId eventId hopen hid hkey howner
        ((exists_emits_iff regular_eventPayload).mp ⟨event, eventId, hev⟩) hframe
        hev.payloadId)

theorem atomicAt_birth {ruleId effectiveTime firstValidTime : PyStr} :
    AtomicAt view (birth P frame ruleId candidateId effectiveTime firstValidTime) s ↔
      (Call.birth frame ruleId candidateId effectiveTime firstValidTime).Safe P s := by
  rw [AtomicAt, birth]
  simp only [ends_bind, ends_get, ends_require, ends_modify, ends_pure]
  -- once the genesis is written, the call is atomic iff the event and the membership can be too
  have hrest : ∀ identity key payload genesis id frameId event eventId,
      genesisPayload s.boundaryPackId frame identity ruleId effectiveTime firstValidTime =
        .ok payload →
      Emits P .episodeGenesis payload s.stream.ids genesis id →
      lookup frame (py "frame_id") = .ok frameId →
      Emits P .boundaryEvent (birthEvent id candidateId effectiveTime firstValidTime)
        (s.bear key genesis id).stream.ids event eventId →
      (Emittable P .membershipDelta (membershipPayload id frameId eventId effectiveTime
        firstValidTime) ((s.bear key genesis id).emit event eventId).stream.ids ↔
        New P .membershipDelta (membershipPayload id frameId eventId effectiveTime
          firstValidTime) s.stream.ids) := by
    intro identity key payload genesis id frameId event eventId hpay hg hframe he
    obtain ⟨htime, hvalid, hfilled⟩ :=
      filled_of_genesisPayload hpay hframe (hg.complete (regular_genesisPayload hpay))
    rw [emittable_iff, emit_ids, New.append_iff (by decide) he, complete_membershipPayload]
    simp only [hg.filled, he.filled, htime, hvalid, hfilled, true_and]
    exact New.append_iff (by decide) hg
  have hev : ∀ identity key payload genesis id,
      genesisPayload s.boundaryPackId frame identity ruleId effectiveTime firstValidTime =
        .ok payload →
      (∃ frameId, lookup frame (py "frame_id") = .ok frameId) →
      Emits P .episodeGenesis payload s.stream.ids genesis id →
      (Emittable P .boundaryEvent (birthEvent id candidateId effectiveTime firstValidTime)
        (s.bear key genesis id).stream.ids ↔
        Encodable candidateId ∧ New P .boundaryEvent
          (birthEvent id candidateId effectiveTime firstValidTime) s.stream.ids) := by
    rintro identity key payload genesis id hpay ⟨frameId, hframe⟩ hg
    obtain ⟨htime, hvalid, -⟩ :=
      filled_of_genesisPayload hpay hframe (hg.complete (regular_genesisPayload hpay))
    have hbirth : Filled (py "BIRTH") := ⟨by simp, encodable_py _⟩
    have hid : Encodable id := hg.filled.2
    rw [emittable_iff, birthEvent, complete_eventPayload (by decide)]
    simp only [htime, hvalid, hbirth, hid, List.mem_singleton, List.not_mem_nil, forall_eq,
      true_and, and_true, false_implies, implies_true]
    exact and_congr_right fun _ => New.append_iff (by decide) hg
  constructor
  · intro h identity key payload id hid hkey hfree hpay hidof he
    obtain ⟨genesis, id', hg⟩ := (exists_emits_iff (regular_genesisPayload hpay)).mpr he
    cases hidof ▸ hg.payloadId
    rw [hid, ends_lift_ok, hkey, ends_lift_ok] at h
    have hcall := h.1 hfree
    rw [hpay, ends_lift_ok, ends_lift_append (Q := fun s' => view s' = view s)
      (regular_genesisPayload hpay)] at hcall
    have hborn := hcall.1 genesis id hg
    have htext : textField genesis (py "episode_id") = .ok id := hg.textField
    rw [htext, ends_lift_ok] at hborn
    change ends _ _ _ (s.bear key genesis id) at hborn
    rw [ends_event] at hborn
    have hne : view (s.bear key genesis id) ≠ view s := view_ne genesis [] rfl
    have hemit : Emittable P .boundaryEvent
        (birthEvent id candidateId effectiveTime firstValidTime)
        (s.bear key genesis id).stream.ids := by
      by_contra hno
      exact hne (hborn.2 hno)
    obtain ⟨frameId, hframe, -⟩ := strOf_of_ownerKey hkey
    obtain ⟨hcand, hnew⟩ := (hev identity key payload genesis id hpay ⟨frameId, hframe⟩
      hg).mp hemit
    refine ⟨hcand, hnew, fun frameId' eventId hframe' heventId => ?_⟩
    cases hframe ▸ hframe'
    obtain ⟨event, eventId', he⟩ := (exists_emits_iff regular_eventPayload).mpr hemit
    cases heventId ▸ he.payloadId
    have hlast := hborn.1 event eventId he
    have htext : textField event (py "boundary_event_id") = .ok eventId := he.textField
    rw [hframe, ends_lift_ok, htext, ends_lift_ok, ends_last regular_membershipPayload
      (view_ne genesis [event] (by simp [bear]))] at hlast
    exact (hrest identity key payload genesis id frameId event eventId hpay hg hframe he).mp
      hlast
  · intro h
    rw [ends_lift]
    refine ⟨fun identity hid => ?_, fun _ _ => rfl⟩
    rw [ends_lift]
    refine ⟨fun key hkey => ⟨fun hfree => ?_, fun _ => rfl⟩, fun _ _ => rfl⟩
    rw [ends_lift]
    refine ⟨fun payload hpay => ?_, fun _ _ => rfl⟩
    rw [ends_lift_append (Q := fun s' => view s' = view s) (regular_genesisPayload hpay)]
    refine ⟨fun genesis id hg => ?_, fun _ => rfl⟩
    have htext : textField genesis (py "episode_id") = .ok id := hg.textField
    rw [htext, ends_lift_ok]
    change ends _ _ _ (s.bear key genesis id)
    obtain ⟨frameId, hframe, -⟩ := strOf_of_ownerKey hkey
    obtain ⟨hcand, hnew, hmember⟩ := h identity key payload id hid hkey hfree hpay
      hg.payloadId ((exists_emits_iff (regular_genesisPayload hpay)).mp ⟨genesis, id, hg⟩)
    rw [ends_event]
    refine ⟨fun event eventId he => ?_, fun hno => absurd ((hev identity key payload genesis id
      hpay ⟨frameId, hframe⟩ hg).mpr ⟨hcand, hnew⟩) hno⟩
    have htext : textField event (py "boundary_event_id") = .ok eventId := he.textField
    rw [hframe, ends_lift_ok, htext, ends_lift_ok, ends_last regular_membershipPayload
      (view_ne genesis [event] (by simp [bear]))]
    exact (hrest identity key payload genesis id frameId event eventId hpay hg hframe he).mpr
      (hmember frameId eventId hframe he.payloadId)

theorem atomicAt_link {edgeType parent child effectiveTime firstValidTime : PyStr}
    (hfilled : ∀ id ∈ s.genesis.keys, Filled id) :
    AtomicAt view (link P edgeType parent child candidateId effectiveTime firstValidTime) s ↔
      (Call.link edgeType parent child candidateId effectiveTime firstValidTime).Safe P s := by
  rw [AtomicAt, link, buildEvent]
  simp only [ends_bind, ends_get, ends_require, ends_zoom, ends_pure]
  -- once the edge is in the topology, the call is atomic iff both records can be appended
  have hrest : ∀ event edge eventId, buildRecord P .boundaryEvent (linkEvent edgeType parent child
        candidateId effectiveTime firstValidTime) = .ok event →
      buildRecord P .lineageEdge (EpisodeTopology.edgePayload edgeType parent child eventId
        effectiveTime firstValidTime) = .ok edge →
      (ends (append P event) (fun _ engine => ends (append P edge) (fun _ _ => True)
          (fun _ s' => view s' = view s) engine) (fun _ s' => view s' = view s)
        { s with topology := ⟨s.topology.addChild parent child, s.topology.edges ++ [edge]⟩ } ↔
        New P .boundaryEvent (linkEvent edgeType parent child candidateId effectiveTime
          firstValidTime) s.stream.ids ∧
        New P .lineageEdge (EpisodeTopology.edgePayload edgeType parent child eventId effectiveTime
          firstValidTime) s.stream.ids) := by
    intro event edge eventId hev hedge
    have hne : view { s with topology :=
        ⟨s.topology.addChild parent child, s.topology.edges ++ [edge]⟩ } ≠ view s := by
      intro heq
      have hedges := congrArg View.edges heq
      simp [view] at hedges
    have hlast : ∀ id, Emits P .boundaryEvent (linkEvent edgeType parent child candidateId
          effectiveTime firstValidTime) s.stream.ids event id → ∀ s' : EpisodeEngine,
        s'.stream = s.stream.push event id →
        (ends (append P edge) (fun _ _ => True) (fun _ s'' => view s'' = view s) s' ↔
          New P .lineageEdge (EpisodeTopology.edgePayload edgeType parent child eventId
            effectiveTime firstValidTime) s.stream.ids) := by
      intro id he s' hs'
      have hne' : view s' ≠ view s := view_ne event [] (by rw [hs']; rfl)
      rw [ends_append (Q := fun s'' => view s'' = view s) regular_edgePayload hedge,
        ← New.append_iff (by decide) he, ← exists_emits_of_built hedge, hs']
      simp only [implies_true, true_and, hne', imp_false, not_forall, not_not]
      rfl
    rw [ends_append (Q := fun s'' => view s'' = view s) regular_eventPayload hev,
      ← exists_emits_of_built hev]
    constructor
    · rintro ⟨hemits, hnone⟩
      have hex : ∃ id, Emits P .boundaryEvent (linkEvent edgeType parent child candidateId
          effectiveTime firstValidTime) s.stream.ids event id := by
        by_contra hno
        exact hne (hnone (not_exists.mp hno))
      obtain ⟨id, he⟩ := hex
      exact ⟨⟨id, he⟩, (hlast id he _ rfl).mp (hemits id he)⟩
    · rintro ⟨⟨id, he⟩, hnew⟩
      exact ⟨fun id he => (hlast id he _ rfl).mpr hnew, fun hno => absurd he (hno id)⟩
  constructor
  · intro h eventId hpar hchild hcompl heventId hadms
    obtain ⟨event, hev⟩ := regular_eventPayload.returns_buildRecord.mpr hcompl
    obtain ⟨-, -, htype, htime, hvalid, -⟩ := (complete_eventPayload (by decide)).mp hcompl
    have hid : Filled eventId := filled_of_payloadId heventId
    have hedge : Complete P .lineageEdge (EpisodeTopology.edgePayload edgeType parent child eventId
        effectiveTime firstValidTime) :=
      complete_edgePayload.mpr
        ⟨htype, hfilled parent hpar, hfilled child hchild, hid, htime, hvalid⟩
    obtain ⟨edge, hedge⟩ := regular_edgePayload.returns_buildRecord.mpr hedge
    have htext : textField event (py "boundary_event_id") = .ok eventId :=
      textField_of_built hev heventId
    have hcall := h.1 ⟨hpar, hchild⟩
    rw [hev, ends_lift_ok, htext, ends_lift_ok, EpisodeTopology.ends_addEdge] at hcall
    exact (hrest event edge eventId hev hedge).mp (hcall.1 edge hadms hedge)
  · intro h
    refine ⟨fun hopen => ?_, fun _ => trivial⟩
    obtain ⟨hpar, hchild⟩ := hopen
    rw [ends_lift]
    refine ⟨fun event hev => ?_, fun _ _ => rfl⟩
    rw [ends_lift]
    refine ⟨fun eventId htext => ?_, fun _ _ => rfl⟩
    rw [EpisodeTopology.ends_addEdge]
    refine ⟨fun edge hadms hedge => (hrest event edge eventId hev hedge).mpr ?_, fun _ => rfl⟩
    obtain ⟨id, hid⟩ := payloadId_of_built hev
    obtain rfl : id = eventId := Except.ok.inj ((textField_of_built hev hid) ▸ htext)
    exact h id hpar hchild (regular_eventPayload.returns_buildRecord.mp ⟨event, hev⟩) hid
      hadms

/-! ## Atomicity of every call of every run -/

/-- **When a call that raises changes nothing**: after every run, exactly when the call is safe. -/
theorem raises_unchanged_iff (P : Platform) (boundaryPackId : PyStr) (calls : List Call)
    (call : Call) :
    (∀ e s', call.run P (afterCalls P boundaryPackId calls) = .error e s' →
      view s' = view (afterCalls P boundaryPackId calls)) ↔
      call.Safe P (afterCalls P boundaryPackId calls) := by
  have hs := registered_afterCalls (P := P) boundaryPackId calls
  generalize afterCalls P boundaryPackId calls = s at hs ⊢
  have hfilled : ∀ id, s.statusByEpisode.get? id = some .opened → Filled id := fun id hid =>
    hs.filled id (hs.genesis_of_status id (Dict.isSome_get?_iff.mp (hid ▸ rfl)))
  rw [← atomicAt_iff]
  cases call with
  | birth => exact atomicAt_birth
  | continueEpisode => exact atomicAt_continueEpisode (hfilled _)
  | phaseMutation => exact atomicAt_phaseMutation (hfilled _)
  | reParent => exact iff_of_true atomicAt_reParent trivial
  | censor => exact iff_of_true atomicAt_censor trivial
  | terminate => exact iff_of_true atomicAt_terminate trivial
  | link => exact atomicAt_link hs.filled

/-! ## A phase mutation without an end -/

/-- A phase mutation of the sample episode, with no end. -/
def openPhase : Call :=
  .phaseMutation (py "C2E.EPISODE.7fc2bce71c4da1827c4711d3cd946ba2") (py "cand2") (py "TYPE")
    (py "t0") none [] (py "t1") (py "t1")

theorem not_atomicAt_openPhase :
    ¬ AtomicAt (fun s => s.stream.records.length) (openPhase.run .reference)
      (afterCalls .reference (py "pack") [sampleBirth "f0"]) := by
  decide +kernel

/-- **A call that raises may leave a record behind.** -/
theorem openPhase_raises_changed :
    ¬ ∀ (P : Platform) (boundaryPackId : PyStr) (calls : List Call) (call : Call)
      (e : Error) (s' : EpisodeEngine),
      call.run P (afterCalls P boundaryPackId calls) = .error e s' →
        view s' = view (afterCalls P boundaryPackId calls) := by
  intro h
  have hatomic := not_atomicAt_openPhase
  rw [atomicAt_iff] at hatomic
  refine hatomic fun e s' hraises => ?_
  have hview := h .reference (py "pack") [sampleBirth "f0"] openPhase e s' hraises
  exact records_length_eq hview

end EpisodeEngine

end OvcReplay.C2e
