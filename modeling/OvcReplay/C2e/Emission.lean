import OvcReplay.C2e.Lifecycle

/-! # Emitting records

Every operation of the engine writes records the same way: it builds one and appends it. A payload is
**emittable** when it is complete and the id of its record is new to the stream; then the record is
emitted, and otherwise the call raises where it stands. -/

namespace OvcReplay.C2e

open Python Raising

variable (P : Platform)

/-- The id of the record a payload is built into. -/
def payloadId (kind : RecordKind) (payload : Record) : Except Error PyStr := do
  let fields ← canonicalFields P payload
  recordId P kind fields

/-- No record of the stream has the id of this payload. -/
def New (kind : RecordKind) (payload : Record) (ids : List PyStr) : Prop :=
  ∀ id, payloadId P kind payload = .ok id → id ∉ ids

/-- The payload is complete and its record new. -/
structure Emittable (kind : RecordKind) (payload : Record) (ids : List PyStr) : Prop where
  complete : Complete P kind payload
  isNew : New P kind payload ids

/-- The payload is built into `record`, whose id is new. -/
structure Emits (kind : RecordKind) (payload : Record) (ids : List PyStr) (record : Record)
    (id : PyStr) : Prop where
  built : buildRecord P kind payload = .ok record
  recordIdOf : AppendOnlyStream.recordIdOf P record = .ok id
  notMem : id ∉ ids

variable {P} {kind : RecordKind} {payload record : Record} {ids : List PyStr} {id : PyStr}

theorem payloadId_ok : payloadId P kind payload = .ok id ↔
      ∃ fields, canonicalFields P payload = .ok fields ∧ recordId P kind fields = .ok id :=
  bind_ok

/-- The id of a built record is the id of its payload. -/
theorem recordIdOf_eq_payloadId (h : buildRecord P kind payload = .ok record) :
    AppendOnlyStream.recordIdOf P record = payloadId P kind payload := by
  obtain ⟨fields, _, _, hf, -⟩ := (buildRecord_ok P).mp h
  obtain ⟨id, hid, hid'⟩ := AppendOnlyStream.recordIdOf_built h hf
  rw [hid', payloadId_ok.mpr ⟨fields, hf, hid⟩]

theorem Emits.payloadId (h : Emits P kind payload ids record id) :
    payloadId P kind payload = .ok id := by
  rw [← recordIdOf_eq_payloadId h.built, h.recordIdOf]

/-- The fields and the id behind an emitted record. -/
theorem Emits.fields (h : Emits P kind payload ids record id) :
    ∃ fields, canonicalFields P payload = .ok fields ∧ recordId P kind fields = .ok id :=
  payloadId_ok.mp h.payloadId

/-- **A regular payload is emitted iff it is emittable.** -/
theorem exists_emits_iff (hr : Regular kind payload) :
    (∃ record id, Emits P kind payload ids record id) ↔ Emittable P kind payload ids := by
  constructor
  · rintro ⟨record, id, h⟩
    refine ⟨hr.returns_buildRecord.mp ⟨record, h.built⟩, fun id' hid' => ?_⟩
    cases h.payloadId ▸ hid'
    exact h.notMem
  · rintro ⟨hcompl, hnew⟩
    obtain ⟨record, hrec⟩ := hr.returns_buildRecord.mpr hcompl
    obtain ⟨fields, _, _, hf, -⟩ := (buildRecord_ok P).mp hrec
    obtain ⟨id, hid, hid'⟩ := AppendOnlyStream.recordIdOf_built hrec hf
    exact ⟨record, id, hrec, hid', hnew id (payloadId_ok.mpr ⟨fields, hf, hid⟩)⟩

/-- The id field of a built record. -/
theorem textField_of_built (h : buildRecord P kind payload = .ok record)
    (hid : payloadId P kind payload = .ok id) :
    EpisodeEngine.textField record (py kind.spec.idField) = .ok id := by
  obtain ⟨fields, hf, hid⟩ := payloadId_ok.mp hid
  obtain ⟨id', hid', hget⟩ := get?_idField h hf
  cases hid ▸ hid'
  rw [EpisodeEngine.textField, hget]

theorem payloadId_of_built (h : buildRecord P kind payload = .ok record) :
    ∃ id, payloadId P kind payload = .ok id := by
  obtain ⟨fields, id, _, hf, -, -, hid, -⟩ := (buildRecord_ok P).mp h
  exact ⟨id, payloadId_ok.mpr ⟨fields, hf, hid⟩⟩

/-- A built record is emitted iff it is new. -/
theorem exists_emits_of_built (h : buildRecord P kind payload = .ok record) :
    (∃ id, Emits P kind payload ids record id) ↔ New P kind payload ids := by
  obtain ⟨fields, _, _, hf, -⟩ := (buildRecord_ok P).mp h
  obtain ⟨id, hid, hid'⟩ := AppendOnlyStream.recordIdOf_built h hf
  have hpay : payloadId P kind payload = .ok id := payloadId_ok.mpr ⟨fields, hf, hid⟩
  constructor
  · rintro ⟨id', he⟩ id'' hid''
    cases he.payloadId ▸ hid''
    exact he.notMem
  · exact fun hnew => ⟨id, h, hid', hnew id hpay⟩

/-- A record of another kind does not take the id. -/
theorem New.append_iff {kind' : RecordKind} (hne : kind ≠ kind') {payload' record' : Record}
    {ids' : List PyStr} {id' : PyStr} (h : Emits P kind' payload' ids' record' id') :
    New P kind payload (ids ++ [id']) ↔ New P kind payload ids := by
  obtain ⟨fields', -, hid'⟩ := h.fields
  refine forall_congr' fun id => imp_congr_right fun hid => ?_
  obtain ⟨fields, -, hid⟩ := payloadId_ok.mp hid
  have := recordId_ne_of_kind_ne P hne hid hid'
  simp [this]

namespace Emits

theorem complete (hr : Regular kind payload) (h : Emits P kind payload ids record id) :
    Complete P kind payload :=
  ((exists_emits_iff hr).mp ⟨record, id, h⟩).complete

theorem schema (h : Emits P kind payload ids record id) :
    record.get? (py "schema") = some (.str (py kind.spec.schema)) :=
  get?_schema h.built

/-- The id field of an emitted record. -/
theorem textField (h : Emits P kind payload ids record id) :
    EpisodeEngine.textField record (py kind.spec.idField) = .ok id :=
  textField_of_built h.built h.payloadId

theorem idField (h : Emits P kind payload ids record id) :
    record.get? (py kind.spec.idField) = some (.str id) := by
  obtain ⟨fields, hf, hid⟩ := h.fields
  obtain ⟨id', hid', hget⟩ := get?_idField h.built hf
  cases hid ▸ hid'
  exact hget

/-- A plain field of an emitted record. -/
theorem field (h : Emits P kind payload ids record id) {q : PyStr} (hq : q ∉ kind.reserved)
    (hs : q ∉ sortedListFields.map py) : record.get? q = payload.get? q := by
  obtain ⟨fields, hf, -⟩ := h.fields
  rw [get?_field h.built hf hq, get?_canonicalFields_of_notMem P hf hs]

/-- A sorted list of an emitted record. -/
theorem listField (h : Emits P kind payload ids record id) {q : PyStr} (hq : q ∉ kind.reserved)
    (hs : q ∈ sortedListFields.map py) {xs : List PyStr}
    (hxs : payload.get? q = some (.ofStrs xs)) :
    record.get? q = some (.ofStrs (sortedBy (fun x => x) xs)) := by
  obtain ⟨fields, hf, -⟩ := h.fields
  rw [get?_field h.built hf hq]
  exact get?_canonicalFields_strs P hf hs hxs

end Emits

namespace EpisodeEngine

/-! ## The rule for emission -/

/-- The engine with one more record in its stream. -/
def emit (engine : EpisodeEngine) (record : Record) (id : PyStr) : EpisodeEngine :=
  { engine with stream := engine.stream.push record id }

variable (engine : EpisodeEngine) (record : Record) (id : PyStr)

@[simp] theorem emit_boundaryPackId :
    (engine.emit record id).boundaryPackId = engine.boundaryPackId := rfl

@[simp] theorem emit_records :
    (engine.emit record id).stream.records = engine.stream.records ++ [record] := rfl

@[simp] theorem emit_ids : (engine.emit record id).stream.ids = engine.stream.ids ++ [id] := rfl

@[simp] theorem emit_topology : (engine.emit record id).topology = engine.topology := rfl

@[simp] theorem emit_genesis : (engine.emit record id).genesis = engine.genesis := rfl

@[simp] theorem emit_statusByEpisode :
    (engine.emit record id).statusByEpisode = engine.statusByEpisode := rfl

@[simp] theorem emit_ownerByFrame :
    (engine.emit record id).ownerByFrame = engine.ownerByFrame := rfl

variable {engine record id} {R : Record → Unit → EpisodeEngine → Prop} {Q : EpisodeEngine → Prop}

theorem ends_append {R : Unit → EpisodeEngine → Prop} (hr : Regular kind payload)
    (hbuilt : buildRecord P kind payload = .ok record) :
    ends (append P record) R (fun _ => Q) engine ↔
      (∀ id, Emits P kind payload engine.stream.ids record id → R () (engine.emit record id)) ∧
        ((∀ id, ¬ Emits P kind payload engine.stream.ids record id) → Q engine) := by
  obtain ⟨fields, _, _, hf, -⟩ := (buildRecord_ok P).mp hbuilt
  obtain ⟨id, -, hid⟩ := AppendOnlyStream.recordIdOf_built hbuilt hf
  have hres : py "authority" ∉ kind.reserved := by
    cases kind <;> simp [RecordKind.reserved, RecordKind.spec]
  have hlist : py "authority" ∉ sortedListFields.map py := by
    rw [py_mem_map]
    decide
  have hauth : record.get? (py "authority") =
      some (.str (py "INACTIVE_NONCANONICAL_SHADOW")) := by
    rw [get?_field hbuilt hf hres, get?_canonicalFields_of_notMem P hf hlist, hr.authority]
  have hemits : ∀ id', Emits P kind payload engine.stream.ids record id' ↔
      id' = id ∧ id ∉ engine.stream.ids := by
    intro id'
    constructor
    · intro h
      cases h.recordIdOf ▸ hid
      exact ⟨rfl, h.notMem⟩
    · rintro ⟨rfl, h⟩
      exact ⟨hbuilt, hid, h⟩
  rw [append, ends_zoom, AppendOnlyStream.ends_append hid hauth]
  simp only [hemits, and_imp, not_and, not_not, forall_eq]
  rfl

/-- **Building and appending a record** goes on from the emitted record, or raises where it stood. -/
theorem ends_lift_append (hr : Regular kind payload) :
    ends (lift (buildRecord P kind payload) : EngineM Record)
        (fun record engine => ends (append P record) (R record) (fun _ => Q) engine)
        (fun _ => Q) engine ↔
      (∀ record id, Emits P kind payload engine.stream.ids record id →
        R record () (engine.emit record id)) ∧
      (¬ Emittable P kind payload engine.stream.ids → Q engine) := by
  rw [ends_lift, ← exists_emits_iff hr]
  constructor
  · rintro ⟨hok, herr⟩
    refine ⟨fun record id h => ((ends_append hr h.built).mp (hok record h.built)).1 id h,
      fun hnone => ?_⟩
    cases hbuilt : buildRecord P kind payload with
    | error e => exact herr e hbuilt
    | ok record =>
      exact ((ends_append hr hbuilt).mp (hok record hbuilt)).2 fun id h => hnone ⟨record, id, h⟩
  · rintro ⟨hemits, hnone⟩
    refine ⟨fun record hbuilt => (ends_append hr hbuilt).mpr
      ⟨fun id h => hemits record id h, fun hno => hnone ?_⟩, fun e he => hnone ?_⟩
    · rintro ⟨record', id, h⟩
      cases hbuilt ▸ h.built
      exact hno id h
    · rintro ⟨record, id, h⟩
      rw [h.built] at he
      cases he

/-! ## The payloads are regular -/

variable {firstValidTime effectiveTime : PyStr}

theorem regular_eventPayload {episodeIds candidateIds : List PyStr} {action : PyStr}
    {priority : Int} {reasonCodes : List PyStr} :
    Regular .boundaryEvent (eventPayload episodeIds candidateIds action priority effectiveTime
      firstValidTime reasonCodes) where
  unreserved := by simp [Unreserved, eventPayload, RecordKind.reserved, RecordKind.spec]
  lists := by simp [eventPayload, sortedListFields]
  checks fields _ := by simp [checkKind]
  authority := by simp [eventPayload]

theorem regular_membershipPayload {episodeId : PyStr} {frameId : PyVal} {boundaryEventId : PyStr} :
    Regular .membershipDelta (membershipPayload episodeId frameId boundaryEventId effectiveTime
      firstValidTime) where
  unreserved := by simp [Unreserved, membershipPayload, RecordKind.reserved, RecordKind.spec]
  lists := by simp [membershipPayload, sortedListFields]
  checks fields _ := by simp [checkKind]
  authority := by simp [membershipPayload]

theorem regular_phasePayload {episodeId phaseType startTime : PyStr} {endTime : Option PyStr}
    {sourceRecordIds : List PyStr} :
    Regular .phaseSegment (phasePayload episodeId phaseType startTime endTime firstValidTime
      sourceRecordIds) where
  unreserved := by simp [Unreserved, phasePayload, RecordKind.reserved, RecordKind.spec]
  lists := by simp [phasePayload, sortedListFields]
  checks fields _ := by simp [checkKind]
  authority := by simp [phasePayload]

theorem regular_edgePayload {edgeType parentEpisodeId childEpisodeId boundaryEventId : PyStr} :
    Regular .lineageEdge (EpisodeTopology.edgePayload edgeType parentEpisodeId childEpisodeId
      boundaryEventId effectiveTime firstValidTime) where
  unreserved := by
    simp [Unreserved, EpisodeTopology.edgePayload, RecordKind.reserved, RecordKind.spec]
  lists := by simp [EpisodeTopology.edgePayload, sortedListFields]
  checks fields _ := by simp [checkKind]
  authority := by simp [EpisodeTopology.edgePayload]

theorem regular_genesisPayload {boundaryPackId : PyStr} {frame payload : Record} {identity : PyVal}
    {ruleId : PyStr}
    (h : genesisPayload boundaryPackId frame identity ruleId effectiveTime firstValidTime =
      .ok payload) : Regular .episodeGenesis payload := by
  simp only [genesisPayload, bind_ok] at h
  obtain ⟨_, -, v₁, -, v₂, -, v₃, -, v₄, -, v₅, -, v₆, -, h⟩ := h
  cases h
  exact {
    unreserved := by simp [Unreserved, RecordKind.reserved, RecordKind.spec]
    lists := by simp [sortedListFields]
    checks := fun fields hkeys => by
      rw [checkKind, returns_forM, hkeys]
      simp [RecordKind.spec]
    authority := by simp }

end EpisodeEngine

end OvcReplay.C2e
