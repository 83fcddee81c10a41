import OvcReplay.C2e.Transitions
import OvcReplay.Logs.Lifecycle

/-! # Agreement of the caches with the stream

The engine answers from three caches, and a reader of the stream from `project_episode`. Every record
the engine writes is an entry of a well-formed lifecycle journal, so the status it caches is the one
the projection finds, and nothing that concerns an episode follows its terminal event. -/

namespace OvcReplay.C2e

open List Python Raising Logs

/-! ## Reading records -/

/-- A record of this kind. -/
def HasSchema (kind : RecordKind) (record : Record) : Prop :=
  record.get? (py "schema") = some (.str (py kind.spec.schema))

variable (episodeId : PyStr)

variable (record : Record)

/-- The genesis record of the episode. -/
def IsGenesis : Prop :=
  HasSchema .episodeGenesis record ∧
    record.get? (py "episode_id") = some (.str episodeId)

/-- A membership record of the episode. -/
def IsMembership : Prop :=
  HasSchema .membershipDelta record ∧
    record.get? (py "episode_id") = some (.str episodeId)

/-- A membership ADD record of the episode. -/
def IsAdd : Prop :=
  IsMembership episodeId record ∧ record.get? (py "operation") = some (.str (py "ADD"))

/-- A phase record of the episode. -/
def IsPhase : Prop :=
  HasSchema .phaseSegment record ∧
    record.get? (py "episode_id") = some (.str episodeId)

/-- A boundary event with this action on these episodes. -/
def IsEvent (action : PyStr) (episodeIds : List PyStr) (record : Record) : Prop :=
  HasSchema .boundaryEvent record ∧
    record.get? (py "lifecycle_action") = some (.str action) ∧
      record.get? (py "episode_ids") = some (.ofStrs episodeIds)

variable {action : PyStr}

theorem IsEvent.unique {action' : PyStr} {ids ids' : List PyStr} {record : Record}
    (h : IsEvent action ids record) (h' : IsEvent action' ids' record) :
    action = action' ∧ ids = ids' := by
  have haction := h.2.1.symm.trans h'.2.1
  have hids := h.2.2.symm.trans h'.2.2
  simp only [Option.some.injEq, PyVal.str.injEq, PyVal.ofStrs_inj] at haction hids
  exact ⟨haction, hids⟩

/-- A terminal event of the episode. -/
def ClosesEpisode : Prop :=
  ∃ action episodeIds, IsEvent action episodeIds record ∧ episodeId ∈ episodeIds ∧
    closing action ≠ none

/-- A record of this episode alone: a membership, a phase or a boundary event. -/
def ConcernsEpisode : Prop :=
  IsMembership episodeId record ∨ IsPhase episodeId record ∨
    ∃ action, IsEvent action [episodeId] record

/-- A topology event: it names two episodes and its action is the type of an edge. -/
def IsLink : Prop :=
  ∃ action episodeIds, IsEvent action episodeIds record ∧ episodeIds.length = 2 ∧
    action ∈ EpisodeTopology.edgeTypes.map py

/-! ## What the projection does with a record -/

section Visit

variable {P : Platform} {projection : Projection} {record : Record} {id : PyStr}

theorem visit_other (h : HasSchema .episodeGenesis record ∨ HasSchema .lineageEdge record) :
    projection.visit P id record = .ok projection := by
  rcases h with h | h <;> rw [HasSchema] at h <;> simp [Projection.visit, h, RecordKind.spec]

theorem visit_add {frameId : PyVal} {text : PyStr} (h : IsAdd id record)
    (hframe : record.get? (py "frame_id") = some frameId) (htext : strOf P frameId = .ok text) :
    projection.visit P id record =
      .ok { projection with members := text :: projection.members } := by
  have hsch := h.1.1
  rw [HasSchema] at hsch
  have hlkup : lookup record (py "frame_id") = .ok frameId := by rw [lookup, hframe]
  simp [Projection.visit, Projection.visitMembership, hsch, h.1.2, h.2, RecordKind.spec, hlkup,
    htext, bind, Except.bind, pure, Except.pure]

theorem visit_membership_ne {i : PyStr} (h : IsMembership i record) (hi : i ≠ id) :
    projection.visit P id record = .ok projection := by
  have hsch := h.1
  rw [HasSchema] at hsch
  simp [Projection.visit, hsch, h.2, hi, RecordKind.spec]

theorem visit_phase {phaseId : PyStr} (h : IsPhase id record)
    (hid : record.get? (py "phase_segment_id") = some (.str phaseId)) :
    projection.visit P id record =
      .ok { projection with phases := phaseId :: projection.phases } := by
  have hsch := h.1
  rw [HasSchema] at hsch
  have hlkup : lookup record (py "phase_segment_id") = .ok (.str phaseId) := by rw [lookup, hid]
  simp [Projection.visit, Projection.visitPhase, hsch, h.2, RecordKind.spec, hlkup, strOf,
    Except.mapError, bind, Except.bind, pure, Except.pure]

theorem visit_phase_ne {i : PyStr} (h : IsPhase i record) (hi : i ≠ id) :
    projection.visit P id record = .ok projection := by
  have hsch := h.1
  rw [HasSchema] at hsch
  simp [Projection.visit, hsch, h.2, hi, RecordKind.spec]

theorem visit_event {eventId : PyStr} {ids : List PyStr} (h : IsEvent action ids record)
    (hid : record.get? (py "boundary_event_id") = some (.str eventId)) (hmem : id ∈ ids) :
    projection.visit P id record = .ok { projection with
        boundaries := eventId :: projection.boundaries
        status := (closing action).getD projection.status } := by
  have hsch := h.1
  rw [HasSchema] at hsch
  have hlkup : lookup record (py "boundary_event_id") = .ok (.str eventId) := by rw [lookup, hid]
  simp [Projection.visit, Projection.visitEvent, hsch, h.2.1, h.2.2, hmem, RecordKind.spec,
    hlkup, strOf, Except.mapError, bind, Except.bind, pure, Except.pure]

theorem visit_event_notMem {ids : List PyStr} (h : IsEvent action ids record)
    (hmem : id ∉ ids) : projection.visit P id record = .ok projection := by
  have hsch := h.1
  rw [HasSchema] at hsch
  simp [Projection.visit, hsch, h.2.2, hmem, RecordKind.spec]

end Visit

/-! ## Records as entries of a journal -/

/-- **What a record says in a lifecycle journal.** -/
inductive Describes (P : Platform) (record : Record) : Entry PyStr EpisodeStatus → Prop
  | genesis {id : PyStr} (h : IsGenesis id record) : Describes P record (.birth id)
  | membership {id text : PyStr} {frameId : PyVal} (h : IsAdd id record)
      (hframe : record.get? (py "frame_id") = some frameId)
      (htext : strOf P frameId = .ok text) (hencodable : Encodable text) :
      Describes P record (.note id)
  | phase {id phaseId : PyStr} (h : IsPhase id record)
      (hid : record.get? (py "phase_segment_id") = some (.str phaseId))
      (hencodable : Encodable phaseId) : Describes P record (.note id)
  | event {id action eventId : PyStr} (h : IsEvent action [id] record)
      (hid : record.get? (py "boundary_event_id") = some (.str eventId))
      (hencodable : Encodable eventId) (haction : closing action = none) :
      Describes P record (.note id)
  | close {id action eventId : PyStr} {status : EpisodeStatus} (h : IsEvent action [id] record)
      (hid : record.get? (py "boundary_event_id") = some (.str eventId))
      (hencodable : Encodable eventId) (haction : closing action = some status) :
      Describes P record (.close id status)
  | link {action eventId : PyStr} {ids : List PyStr} (h : IsEvent action ids record)
      (hid : record.get? (py "boundary_event_id") = some (.str eventId))
      (hencodable : Encodable eventId) (haction : action ∈ EpisodeTopology.edgeTypes.map py)
      (hids : ids.length = 2) : Describes P record (.mention ids)
  | edge (h : HasSchema .lineageEdge record) : Describes P record (.mention [])

namespace Describes

variable {P : Platform} {record : Record} {entry : Entry PyStr EpisodeStatus} {id : PyStr}

/-- A terminal event is a close. -/
theorem closes (h : Describes P record entry) (hcloses : ClosesEpisode id record) :
    entry.Closes id := by
  obtain ⟨action, ids, hev, hmem, hclosing⟩ := hcloses
  cases h with
  | genesis h | phase h => exact absurd (h.1.symm.trans hev.1) (by simp [RecordKind.spec])
  | membership h => exact absurd (h.1.1.symm.trans hev.1) (by simp [RecordKind.spec])
  | event h _ _ haction =>
    obtain ⟨rfl, -⟩ := h.unique hev
    exact absurd haction hclosing
  | close h =>
    obtain ⟨-, rfl⟩ := h.unique hev
    exact (mem_singleton.mp hmem).symm
  | link h _ _ haction =>
    obtain ⟨rfl, -⟩ := h.unique hev
    exact absurd (EpisodeEngine.event_action _ haction) hclosing
  | edge h => exact absurd (h.symm.trans hev.1) (by simp [RecordKind.spec])

/-- A boundary event is of one episode, or a link. -/
theorem concerns_or_isLink (h : Describes P record entry) {ids : List PyStr}
    (hev : IsEvent action ids record) (hmem : id ∈ ids) : entry.Concerns id ∨ IsLink record := by
  cases h with
  | genesis h | phase h => exact absurd (h.1.symm.trans hev.1) (by simp [RecordKind.spec])
  | membership h => exact absurd (h.1.1.symm.trans hev.1) (by simp [RecordKind.spec])
  | event h | close h =>
    obtain ⟨-, rfl⟩ := h.unique hev
    exact .inl (mem_singleton.mp hmem).symm
  | link h _ _ haction hids => exact .inr ⟨_, _, h, hids, haction⟩
  | edge h => exact absurd (h.symm.trans hev.1) (by simp [RecordKind.spec])

/-- A record of the episode alone is an entry that concerns it. -/
theorem concerns (h : Describes P record entry) (hconc : ConcernsEpisode id record) :
    entry.Concerns id := by
  have hepisode : ∀ {i : PyStr}, record.get? (py "episode_id") = some (.str i) →
      record.get? (py "episode_id") = some (.str id) → i = id := by
    intro i hi hid
    simpa using hi.symm.trans hid
  rcases hconc with hm | hp | ⟨action, hev⟩
  · cases h with
    | membership h => exact hepisode h.1.2 hm.2
    | genesis h | phase h | event h | close h | link h =>
      exact absurd (h.1.symm.trans hm.1) (by simp [RecordKind.spec])
    | edge h => exact absurd (h.symm.trans hm.1) (by simp [RecordKind.spec])
  · cases h with
    | phase h => exact hepisode h.2 hp.2
    | membership h => exact absurd (h.1.1.symm.trans hp.1) (by simp [RecordKind.spec])
    | genesis h | event h | close h | link h =>
      exact absurd (h.1.symm.trans hp.1) (by simp [RecordKind.spec])
    | edge h => exact absurd (h.symm.trans hp.1) (by simp [RecordKind.spec])
  · rcases h.concerns_or_isLink hev (mem_singleton_self id) with h | ⟨_, ids, h', hlen, -⟩
    · exact h
    · obtain ⟨-, rfl⟩ := h'.unique hev
      simp at hlen

/-- **The projection reads an entry**: it goes on, and its status is the outcome of the entry. -/
theorem visit (h : Describes P record entry) {projection : Projection} (hr : projection.Readable) :
    ∃ projection', projection.visit P id record = .ok projection' ∧ projection'.Readable ∧
      projection'.status = (entry.outcome? id).getD projection.status := by
  cases h with
  | genesis h => exact ⟨projection, visit_other (.inl h.1), hr, rfl⟩
  | edge h => exact ⟨projection, visit_other (.inr h), hr, rfl⟩
  | @membership i text frameId h hframe htext henc =>
    by_cases hi : i = id
    · subst hi
      exact ⟨_, visit_add h hframe htext, hr.addMember henc, rfl⟩
    · exact ⟨projection, visit_membership_ne h.1 hi, hr, rfl⟩
  | @phase i phaseId h hid henc =>
    by_cases hi : i = id
    · subst hi
      exact ⟨_, visit_phase h hid, hr.addPhase henc, rfl⟩
    · exact ⟨projection, visit_phase_ne h hi, hr, rfl⟩
  | @event i action eventId h hid henc haction =>
    by_cases hi : i = id
    · subst hi
      exact ⟨_, visit_event h hid (mem_singleton_self i), hr.addBoundary henc,
        by rw [haction]; rfl⟩
    · exact ⟨projection, visit_event_notMem h (by simpa using Ne.symm hi), hr, rfl⟩
  | @close i action eventId status h hid henc haction =>
    by_cases hi : i = id
    · subst hi
      refine ⟨_, visit_event h hid (mem_singleton_self i), hr.addBoundary henc, ?_⟩
      simp [haction, Entry.outcome?]
    · refine ⟨projection, visit_event_notMem h (by simpa using Ne.symm hi), hr, ?_⟩
      rw [Entry.outcome?, if_neg hi]
      rfl
  | @link action eventId ids h hid henc haction _ =>
    by_cases hi : id ∈ ids
    · exact ⟨_, visit_event h hid hi, hr.addBoundary henc,
        by rw [EpisodeEngine.event_action _ haction]; rfl⟩
    · exact ⟨projection, visit_event_notMem h hi, hr, rfl⟩

end Describes

/-- The projection of the records a journal describes. -/
theorem foldlM_visit {P : Platform} {records : List Record}
    {entries : List (Entry PyStr EpisodeStatus)} (h : Forall₂ (Describes P) records entries)
    (id : PyStr) {projection : Projection} (hr : projection.Readable) {o : Option EpisodeStatus}
    (ho : projection.status = o.getD .opened) :
    ∃ projection', records.foldlM (Projection.visit P id) projection = .ok projection' ∧
      projection'.Readable ∧
      projection'.status =
        (entries.foldl (fun o entry => (entry.outcome? id).or o) o).getD .opened := by
  induction h generalizing projection o with
  | nil => exact ⟨projection, rfl, hr, ho⟩
  | @cons record entry records entries hd _ ih =>
    obtain ⟨next, hnext, hreadable, hstat⟩ : ∃ next, projection.visit P id record = .ok next ∧
        next.Readable ∧ next.status = (entry.outcome? id).getD projection.status := hd.visit hr
    rw [foldlM_cons, hnext]
    refine ih hreadable ?_
    change _ = ((entry.outcome? id).or o).getD .opened
    rw [hstat, ho]
    cases entry.outcome? id <;> rfl

namespace EpisodeEngine

variable {P : Platform} {s s' : EpisodeEngine} {entries : List (Entry PyStr EpisodeStatus)}

/-- **The journal behind an engine.** -/
structure Represents (P : Platform) (s : EpisodeEngine)
    (entries : List (Entry PyStr EpisodeStatus)) : Prop where
  records : Forall₂ (Describes P) s.stream.records entries
  journal : Journal entries
  status : ∀ id status, s.statusByEpisode.get? id = some status ↔
    .birth id ∈ entries ∧ (outcome id entries).getD .opened = status
  ended : ∀ id, outcome id entries ≠ some .opened
  fresh : ∀ id, .birth id ∈ entries → id ∈ s.stream.ids
  genesis : ∀ id ∈ s.genesis.keys, .birth id ∈ entries

namespace Represents

/-- An open episode is born and has no outcome. -/
theorem open_iff (h : Represents P s entries) {id : PyStr} :
    s.statusByEpisode.get? id = some .opened ↔
      .birth id ∈ entries ∧ outcome id entries = none := by
  rw [h.status]
  refine and_congr_right fun _ => ?_
  cases hout : outcome id entries with
  | none => simp
  | some status =>
    have hne := h.ended id
    rw [hout] at hne
    simpa using hne

variable {recordId : PyStr}

/-- Writing an entry that is neither a birth nor a close. -/
theorem emit (h : Represents P s entries) {record : Record}
    {entry : Entry PyStr EpisodeStatus} (hd : Describes P record entry)
    (hadms : Admits entries entry) (hbirth : ∀ id, entry ≠ .birth id)
    (hclose : ∀ id, ¬ entry.Closes id) :
    Represents P (s.emit record recordId) (entries ++ [entry]) := by
  have hout : ∀ id, outcome id (entries ++ [entry]) = outcome id entries := by
    intro id
    rw [outcome_snoc, Entry.outcome?_eq_none.mpr (hclose id)]
    rfl
  have hborn : ∀ id, .birth id ∈ entries ++ [entry] ↔ .birth id ∈ entries := by
    intro id
    simp [Ne.symm (hbirth id)]
  refine ⟨rel_append h.records (.cons hd .nil), h.journal.snoc hadms, fun id status => ?_,
    fun id => ?_, fun id hid => ?_, fun id hid => (hborn id).mpr (h.genesis id hid)⟩
  · rw [hborn, hout]
    exact h.status id status
  · rw [hout]
    exact h.ended id
  · exact mem_append_left _ (h.fresh id ((hborn id).mp hid))

/-- A note about an open episode is admitted. -/
theorem admits_note (h : Represents P s entries) {id : PyStr}
    (hopen : s.statusByEpisode.get? id = some .opened) : Admits entries (.note id) :=
  h.open_iff.mp hopen

/-- Writing a note about an open episode. -/
theorem note (h : Represents P s entries) {record : Record} {id : PyStr}
    (hopen : s.statusByEpisode.get? id = some .opened) (hd : Describes P record (.note id)) :
    Represents P (s.emit record recordId) (entries ++ [.note id]) :=
  h.emit hd (h.admits_note hopen) (by simp) (by simp [Entry.Closes])

/-- Writing a terminal event of an open episode. -/
theorem close (h : Represents P s entries) {record : Record} {id : PyStr}
    {status : EpisodeStatus} (hopen : s.statusByEpisode.get? id = some .opened)
    (hne : status ≠ .opened) (hd : Describes P record (.close id status)) :
    Represents P ((s.emit record recordId).setStatus id status)
      (entries ++ [.close id status]) := by
  have hborn : ∀ i, .birth i ∈ entries ++ [Entry.close id status] ↔ .birth i ∈ entries := by simp
  refine ⟨rel_append h.records (.cons hd .nil), h.journal.snoc (h.open_iff.mp hopen),
    fun i st => ?_, fun i => ?_, fun i hi => mem_append_left _ (h.fresh i ((hborn i).mp hi)),
    fun i hi => (hborn i).mpr (h.genesis i hi)⟩
  · rw [hborn, outcome_snoc]
    change Dict.get? (s.statusByEpisode.set id status) i = some st ↔ _
    by_cases hi : id = i
    · subst hi
      simp [Entry.outcome?, (h.open_iff.mp hopen).1]
    · rw [Dict.get?_set_of_ne _ _ hi, h.status]
      simp [Entry.outcome?, hi]
  · rw [outcome_snoc]
    by_cases hi : id = i
    · simpa [Entry.outcome?, hi] using hne
    · simpa [Entry.outcome?, hi] using h.ended i

/-- Writing a genesis record with a new id. -/
theorem bear (h : Represents P s entries) {record : Record} {id : PyStr} {key : OwnerKey}
    (hnew : id ∉ s.stream.ids) (hd : Describes P record (.birth id)) :
    Represents P (s.bear key record id) (entries ++ [.birth id]) := by
  have hadms : Admits entries (.birth id) := fun entry hmem hnames =>
    hnew (h.fresh id (h.journal.birth_mem hmem hnames))
  have hout : ∀ i, outcome i (entries ++ [Entry.birth id]) = outcome i entries := by
    intro i
    rw [outcome_snoc]
    rfl
  have hnone : outcome id entries = none :=
    outcome_eq_none.mpr fun entry hmem hcloses => hadms entry hmem hcloses.concerns.names
  refine ⟨rel_append h.records (.cons hd .nil), h.journal.snoc hadms, fun i st => ?_,
    fun i => ?_, fun i hi => ?_, fun i hi => ?_⟩
  · rw [hout]
    change Dict.get? (s.statusByEpisode.set id .opened) i = some st ↔ _
    by_cases hi : id = i
    · subst hi
      simp [hnone]
    · rw [Dict.get?_set_of_ne _ _ hi, h.status]
      simp [Ne.symm hi]
  · rw [hout]
    exact h.ended i
  · rcases mem_append.mp hi with hi | hi
    · exact mem_append_left _ (h.fresh i hi)
    · obtain rfl : i = id := by simpa using hi
      exact mem_append_right _ (mem_singleton_self i)
  · rcases Dict.mem_keys_set.mp hi with rfl | hi
    · exact mem_append_right _ (mem_singleton_self _)
    · exact mem_append_left _ (h.genesis i hi)

end Represents

/-! ## Every step writes an entry -/

variable {ids : List PyStr}

variable {id firstValidTime effectiveTime : PyStr}

theorem describes_genesis {payload record : Record}
    (h : Emits P .episodeGenesis payload ids record id) : Describes P record (.birth id) :=
  .genesis ⟨h.schema, h.idField⟩

theorem isEvent_of_emits {episodeIds candidateIds : List PyStr} {priority : Int}
    {reasonCodes ids : List PyStr} {record : Record}
    (h : Emits P .boundaryEvent (eventPayload episodeIds candidateIds action priority
      effectiveTime firstValidTime reasonCodes) ids record id) :
    IsEvent action (sortedBy (fun x => x) episodeIds) record := by
  refine ⟨h.schema, ?_, ?_⟩
  · rw [h.field (by simp [RecordKind.reserved, RecordKind.spec]) (by simp [sortedListFields])]
    simp [eventPayload]
  · exact h.listField (by simp [RecordKind.reserved, RecordKind.spec])
      (by simp [sortedListFields]) (by simp [eventPayload])

theorem isPhase_of_emits {episodeId phaseType startTime : PyStr} {endTime : Option PyStr}
    {sourceRecordIds ids : List PyStr} {record : Record}
    (h : Emits P .phaseSegment (phasePayload episodeId phaseType startTime endTime firstValidTime
      sourceRecordIds) ids record id) : IsPhase episodeId record := by
  refine ⟨h.schema, ?_⟩
  rw [h.field (by simp [RecordKind.reserved, RecordKind.spec]) (by simp [sortedListFields])]
  simp [phasePayload]

theorem isAdd_of_emits {episodeId : PyStr} {frameId : PyVal} {eventId : PyStr} {record : Record}
    (h : Emits P .membershipDelta
      (membershipPayload episodeId frameId eventId effectiveTime firstValidTime) ids record id)
    : IsAdd episodeId record ∧ record.get? (py "frame_id") = some frameId := by
  have hfield : ∀ q : String, py q ∉ RecordKind.membershipDelta.reserved →
      py q ∉ sortedListFields.map py → record.get? (py q) = Dict.get? (membershipPayload
        episodeId frameId eventId effectiveTime firstValidTime) (py q) := fun q => h.field
  have hepisode := hfield "episode_id" (by simp [RecordKind.reserved, RecordKind.spec])
    (by simp [sortedListFields])
  have hoperation := hfield "operation" (by simp [RecordKind.reserved, RecordKind.spec])
    (by simp [sortedListFields])
  have hframe := hfield "frame_id" (by simp [RecordKind.reserved, RecordKind.spec])
    (by simp [sortedListFields])
  simp only [membershipPayload] at hepisode hoperation hframe
  exact ⟨⟨⟨h.schema, by simpa using hepisode⟩, by simpa using hoperation⟩, by simpa using hframe⟩

/-- An emitted membership is readable: its frame id was written before its text was taken. -/
theorem describes_membership {episodeId : PyStr} {frameId : PyVal}
    {text eventId : PyStr} {record : Record} (htext : strOf P frameId = .ok text)
    (h : Emits P .membershipDelta
      (membershipPayload episodeId frameId eventId effectiveTime firstValidTime) ids record id) :
    Describes P record (.note episodeId) := by
  obtain ⟨hadd, hframe⟩ := isAdd_of_emits h
  have hcanon : Canonical P frameId :=
    ((h.complete regular_membershipPayload).canonical (py "frame_id", frameId)
      (by simp [membershipPayload])).2
  refine .membership hadd hframe htext (PyVal.encodable_strOf P (mapError_ok.mp htext) ?_)
  rintro t rfl
  exact (canonical_str P t).mp hcanon

/-- **Every step keeps a journal behind the engine.** -/
theorem represents_step {frameKey : Option OwnerKey} (h : Step P frameKey s s')
    (hs : ∃ entries, Represents P s entries) : ∃ entries, Represents P s' entries := by
  obtain ⟨entries, hs⟩ := hs
  cases h with
  | bear _ _ _ hg => exact ⟨_, hs.bear hg.notMem (describes_genesis hg)⟩
  | event hopen haction he =>
    exact ⟨_, hs.note hopen (.event (isEvent_of_emits he) he.idField he.filled.2 haction)⟩
  | close hopen haction he =>
    refine ⟨_, hs.close hopen ?_ (.close (isEvent_of_emits he) he.idField he.filled.2 haction)⟩
    rintro rfl
    exact closing_ne_opened _ haction
  | join _ hopen _ htext hm =>
    obtain ⟨hrecs, hjournal, hstat, hended, hfresh, hgenesis⟩ :=
      hs.note hopen (describes_membership htext hm)
    exact ⟨_, hrecs, hjournal, hstat, hended, hfresh, hgenesis⟩
  | joinOwned _ hopen _ htext hm => exact ⟨_, hs.note hopen (describes_membership htext hm)⟩
  | phase hopen hp => exact ⟨_, hs.note hopen (.phase (isPhase_of_emits hp) hp.idField hp.filled.2)⟩
  | topology => exact ⟨entries, hs.records, hs.journal, hs.status, hs.ended, hs.fresh,
      hs.genesis⟩
  | @linked parent child _ _ _ _ _ _ _ hpar hchild hne hedge he =>
    have hids : (sortedBy (fun x => x) (sortedSet [parent, child])).length = 2 := by
      rw [length_sortedBy, length_sortedSet (by simpa using hne)]
      rfl
    refine ⟨_, hs.emit (.link (isEvent_of_emits he) he.idField he.filled.2 hedge hids) ?_ (by simp)
      (by simp [Entry.Closes])⟩
    intro i hi
    have hmem : i = parent ∨ i = child := by simpa using hi
    rcases hmem with rfl | rfl
    · exact hs.genesis _ hpar
    · exact hs.genesis _ hchild
  | edge he =>
    exact ⟨_, hs.emit (.edge he.schema) (by simp [Admits]) (by simp) (by simp [Entry.Closes])⟩

theorem exists_represents (boundaryPackId : PyStr) (calls : List Call) :
    ∃ entries, Represents P (afterCalls P boundaryPackId calls) entries := by
  refine afterCalls_invariant ⟨[], .nil, .nil, ?_, ?_, ?_, ?_⟩ (fun _ _ _ => represents_step) calls
  · simp [init]
  · simp
  · simp
  · simp [init]

/-! ## The owners of frames -/

/-- What the steps of a call leave: owners stay, and the memberships written are owned. -/
structure Grows (P : Platform) (frameKey : Option OwnerKey) (s s' : EpisodeEngine) : Prop where
  owner : ∀ key id, s.ownerByFrame.get? key = some id →
    s'.ownerByFrame.get? key = some id
  records : ∃ new, s'.stream.records = s.stream.records ++ new ∧
    ∀ record ∈ new, ∀ id, IsAdd id record → ∃ key frameId, frameKey = some key ∧
      record.get? (py "frame_id") = some frameId ∧ strOf P frameId = .ok key.2.2 ∧
      s'.ownerByFrame.get? key = some id

namespace Grows

variable {frameKey : Option OwnerKey} {s'' : EpisodeEngine}

theorem refl (s : EpisodeEngine) : Grows P frameKey s s :=
  ⟨fun _ _ h => h, [], by simp, by simp⟩

theorem trans (h : Grows P frameKey s s') (h' : Grows P frameKey s' s'') :
    Grows P frameKey s s'' := by
  obtain ⟨howner, new, hnew, hadd⟩ := h
  obtain ⟨howner', new', hnew', hadd'⟩ := h'
  refine ⟨fun key id hid => howner' key id (howner key id hid), new ++ new', ?_, ?_⟩
  · rw [hnew', hnew, append_assoc]
  · intro record hmem id hrec
    rcases mem_append.mp hmem with hmem | hmem
    · obtain ⟨key, frameId, hkey, hframe, htext, hid⟩ := hadd record hmem id hrec
      exact ⟨key, frameId, hkey, hframe, htext, howner' key id hid⟩
    · exact hadd' record hmem id hrec

/-- A record that is no membership. -/
theorem of_emits {kind : RecordKind} {payload record : Record} {ids : List PyStr}
    (h : Emits P kind payload ids record id) (hkind : kind ≠ .membershipDelta)
    (howner : ∀ key id, s.ownerByFrame.get? key = some id → s'.ownerByFrame.get? key = some id)
    (hrecs : s'.stream.records = s.stream.records ++ [record]) : Grows P frameKey s s' := by
  refine ⟨howner, [record], hrecs, fun record' hmem i hadd => ?_⟩
  obtain rfl := mem_singleton.mp hmem
  have hsch := h.schema.symm.trans hadd.1.1
  cases kind <;> simp [RecordKind.spec] at hsch hkind

end Grows

theorem grows_step {frameKey : Option OwnerKey} (h : Step P frameKey s s') :
    Grows P frameKey s s' := by
  cases h with
  | @bear _ _ key _ _ _ _ _ id _ hfree _ hg =>
    refine .of_emits hg (by simp) (fun k i hk => ?_) rfl
    have hne : key ≠ k := by
      rintro rfl
      exact hfree (Dict.isSome_get?_iff.mp (hk ▸ rfl))
    exact (Dict.get?_set_of_ne _ _ hne).trans hk
  | event _ _ he | close _ _ he => exact .of_emits he (by simp) (fun _ _ h => h) rfl
  | phase _ hp => exact .of_emits hp (by simp) (fun _ _ h => h) rfl
  | linked _ _ _ _ he => exact .of_emits he (by simp) (fun _ _ h => h) rfl
  | edge he => exact .of_emits he (by simp) (fun _ _ h => h) rfl
  | topology => exact ⟨fun _ _ h => h, [], by simp, by simp⟩
  | @join episodeId key frameId _ _ _ record _ hframe _ howner htext hm =>
    obtain ⟨hadd, hframeId⟩ := isAdd_of_emits hm
    have hkeep : ∀ k i, s.ownerByFrame.get? k = some i →
        Dict.get? (s.ownerByFrame.set key episodeId) k = some i := by
      intro k i hk
      rw [Dict.get?_set]
      split_ifs with heq
      · subst heq
        simpa [hk, eq_comm] using howner
      · exact hk
    refine ⟨hkeep, [record], rfl, fun record' hmem i hi => ?_⟩
    obtain rfl := mem_singleton.mp hmem
    obtain rfl : episodeId = i := by simpa using hadd.1.2.symm.trans hi.1.2
    exact ⟨key, frameId, hframe, hframeId, htext, Dict.get?_set_self _ _ _⟩
  | @joinOwned episodeId key frameId _ _ _ record _ hframe _ howner htext hm =>
    obtain ⟨hadd, hframeId⟩ := isAdd_of_emits hm
    refine ⟨fun _ _ h => h, [record], rfl, fun record' hmem i hi => ?_⟩
    obtain rfl := mem_singleton.mp hmem
    obtain rfl : episodeId = i := by simpa using hadd.1.2.symm.trans hi.1.2
    exact ⟨key, frameId, hframe, hframeId, htext, howner⟩

theorem grows_run (call : Call) (s : EpisodeEngine) :
    Grows P (call.frameKey P) s (left (call.run P s)) := by
  have hsteps : Steps P (call.frameKey P) s (left (call.run P s)) := steps_run call
  generalize left (call.run P s) = s' at hsteps ⊢
  induction hsteps with
  | refl => exact .refl s
  | tail _ hlast ih => exact ih.trans (grows_step hlast)

/-! ## Runs -/

variable (P) in
/-- The records that a call appends after a run. -/
def appended (boundaryPackId : PyStr) (calls : List Call) (call : Call) : List Record :=
  (afterCalls P boundaryPackId (calls ++ [call])).stream.records.drop
    (afterCalls P boundaryPackId calls).stream.records.length

variable (P) in
/-- In this run, a call that was given a frame with this key appended `record`, an ADD record of the
episode. -/
def AddedBy (boundaryPackId : PyStr) (calls : List Call) (key : OwnerKey) (episodeId : PyStr)
    (record : Record) : Prop :=
  ∃ before call later, calls = before ++ call :: later ∧ call.frameKey P = some key ∧
    record ∈ appended P boundaryPackId before call ∧ IsAdd episodeId record

theorem afterCalls_snoc (boundaryPackId : PyStr) (calls : List Call) (call : Call) :
    afterCalls P boundaryPackId (calls ++ [call]) =
      left (call.run P (afterCalls P boundaryPackId calls)) := by
  rw [afterCalls, after_append]
  rfl

/-- A call appends records, and the memberships among them are owned. -/
theorem appended_spec (boundaryPackId : PyStr) (calls : List Call) (call : Call) :
    (afterCalls P boundaryPackId (calls ++ [call])).stream.records =
        (afterCalls P boundaryPackId calls).stream.records ++ appended P boundaryPackId calls call ∧
      ∀ record ∈ appended P boundaryPackId calls call, ∀ id, IsAdd id record →
        ∃ key frameId, call.frameKey P = some key ∧
          record.get? (py "frame_id") = some frameId ∧ strOf P frameId = .ok key.2.2 ∧
          Dict.get? (afterCalls P boundaryPackId (calls ++ [call])).ownerByFrame key = some id := by
  obtain ⟨-, new, hnew, hadd⟩ := grows_run (P := P) call (afterCalls P boundaryPackId calls)
  rw [← afterCalls_snoc] at hnew hadd
  have happended : appended P boundaryPackId calls call = new := by
    rw [appended, hnew, drop_left]
  rw [happended]
  exact ⟨hnew, hadd⟩

variable {boundaryPackId : PyStr} {calls : List Call}

/-- Owners stay for the rest of a run. -/
theorem owner_afterCalls_append (later : List Call) {key : OwnerKey}
    (h : Dict.get? (afterCalls P boundaryPackId calls).ownerByFrame key = some id) :
    Dict.get? (afterCalls P boundaryPackId (calls ++ later)).ownerByFrame key = some id := by
  induction later using reverseRecOn with
  | nil => simpa using h
  | append_singleton later call ih =>
    rw [← append_assoc, afterCalls_snoc]
    exact (grows_run call _).owner key id ih

/-- The frame of a membership belongs to its episode until the end of the run. -/
theorem owner_of_addedBy {key : OwnerKey} {record : Record}
    (h : AddedBy P boundaryPackId calls key id record) :
    Dict.get? (afterCalls P boundaryPackId calls).ownerByFrame key = some id := by
  obtain ⟨before, call, later, rfl, hkey, hmem, hadd⟩ := h
  obtain ⟨key', _, hkey', -, -, howner⟩ :=
    (appended_spec boundaryPackId before call).2 record hmem id hadd
  cases hkey.symm.trans hkey'
  rw [append_cons]
  exact owner_afterCalls_append later howner

/-- Every membership of the stream was appended by a call with a frame. -/
theorem exists_addedBy {record : Record}
    (hmem : record ∈ (afterCalls P boundaryPackId calls).stream.records) (hadd : IsAdd id record) :
    ∃ key frameId, AddedBy P boundaryPackId calls key id record ∧
      record.get? (py "frame_id") = some frameId ∧ strOf P frameId = .ok key.2.2 := by
  induction calls using reverseRecOn with
  | nil => simp [afterCalls, init, AppendOnlyStream.empty] at hmem
  | append_singleton calls call ih =>
    obtain ⟨hrecs, hspec⟩ := appended_spec (P := P) boundaryPackId calls call
    rw [hrecs] at hmem
    rcases mem_append.mp hmem with hmem | hmem
    · obtain ⟨key, frameId, ⟨before, call', later, rfl, h⟩, htext⟩ := ih hmem
      exact ⟨key, frameId, ⟨before, call', later ++ [call], by simp, h⟩, htext⟩
    · obtain ⟨key, frameId, hkey, hframe, htext, -⟩ := hspec record hmem id hadd
      exact ⟨key, frameId, ⟨calls, call, [], rfl, hkey, hmem, hadd⟩, hframe, htext⟩

/-- A relation between entries carries over to the records they come from. -/
theorem pairwise_records {records : List Record} {S : Record → Record → Prop}
    {T : Entry PyStr EpisodeStatus → Entry PyStr EpisodeStatus → Prop}
    (h : Forall₂ (Describes P) records entries)
    (hST : ∀ a b x y, Describes P a x → Describes P b y → T x y → S a b)
    (hT : entries.Pairwise T) : records.Pairwise S := by
  induction h with
  | nil => exact .nil
  | @cons a x records entries hd hrest ih =>
    obtain ⟨hhead, htail⟩ := pairwise_cons.mp hT
    refine pairwise_cons.mpr ⟨fun b hb => ?_, ih htail⟩
    obtain ⟨y, hy, hby⟩ := mem_of_forall₂_left hrest hb
    exact hST a b x y hd hby (hhead y hy)

namespace Represents

/-- **The projection finds the cached status.** -/
theorem projects (h : Represents P s entries) (hid : Filled id)
    {status : EpisodeStatus} (hstat : s.statusByEpisode.get? id = some status)
    (asOfTime firstValidTime : PyStr) :
    (Returns (s.snapshot P id asOfTime firstValidTime) ↔ Filled asOfTime ∧ Filled firstValidTime) ∧
      ∀ snapshot, s.snapshot P id asOfTime firstValidTime = .ok snapshot →
        snapshot.get? (py "status") = some (.str status.text) := by
  have hempty : Projection.empty.Readable :=
    ⟨by simp [Projection.empty], by simp [Projection.empty], by simp [Projection.empty]⟩
  obtain ⟨projection, hfold, hreadable, hproj⟩ :=
    foldlM_visit h.records id hempty (o := none) rfl
  have hcached : projection.status = status := hproj.trans ((h.status id status).mp hstat).2
  have hsnap : s.snapshot P id asOfTime firstValidTime =
      buildRecord P .episodeSnapshot (projection.payload id asOfTime firstValidTime) := by
    rw [snapshot, projectEpisode, hfold]
    rfl
  rw [hsnap, Projection.regular_payload.returns_buildRecord,
    Projection.complete_payload hreadable]
  refine ⟨by simp [hid], fun snapshot hbuilt => ?_⟩
  rw [← hcached]
  exact Projection.status_of_built hbuilt

/-- The genesis records of the stream are the births of the journal. -/
theorem birth_of_isGenesis (h : Represents P s entries) {record : Record}
    (hmem : record ∈ s.stream.records) (hgenesis : IsGenesis id record) : .birth id ∈ entries := by
  obtain ⟨entry, hentry, hd⟩ := mem_of_forall₂_left h.records hmem
  cases hd with
  | genesis hd =>
    obtain rfl := PyVal.str.inj (Option.some.inj (hd.2.symm.trans hgenesis.2))
    exact hentry
  | membership hd => exact absurd (hd.1.1.symm.trans hgenesis.1) (by simp [RecordKind.spec])
  | phase hd | event hd | close hd | link hd =>
    exact absurd (hd.1.symm.trans hgenesis.1) (by simp [RecordKind.spec])
  | edge hd => exact absurd (hd.symm.trans hgenesis.1) (by simp [RecordKind.spec])

/-- **What may follow a terminal event**: of the records that name the episode, only links. -/
theorem closed (h : Represents P s entries) (id : PyStr) :
    s.stream.records.Pairwise fun a b => ClosesEpisode id a →
      ¬ ClosesEpisode id b ∧ ¬ ConcernsEpisode id b ∧
        ∀ action episodeIds, IsEvent action episodeIds b → id ∈ episodeIds → IsLink b := by
  refine pairwise_records h.records (fun a b x y ha hb hxy hcloses => ?_) (h.journal.pairwise id)
  have hnot := hxy (ha.closes hcloses)
  refine ⟨fun hb' => hnot (hb.closes hb').concerns, fun hb' => hnot (hb.concerns hb'), ?_⟩
  intro action episodeIds hev hmem
  exact (hb.concerns_or_isLink hev hmem).resolve_left hnot

end Represents

/-- **The caches agree with the stream after every run.** -/
theorem stream_agrees (P : Platform) (boundaryPackId : PyStr) (calls : List Call) :
    let engine := afterCalls P boundaryPackId calls
    (∀ record ∈ engine.stream.records, ∀ id, IsGenesis id record →
      ∃ status, engine.statusByEpisode.get? id = some status ∧ ∀ asOfTime firstValidTime,
          (Returns (projectEpisode P id engine.stream.records asOfTime firstValidTime) ↔
            Filled asOfTime ∧ Filled firstValidTime) ∧
          ∀ snapshot,
            projectEpisode P id engine.stream.records asOfTime firstValidTime = .ok snapshot →
              snapshot.get? (py "status") = some (.str status.text)) ∧
    (∀ record ∈ engine.stream.records, ∀ id, IsAdd id record →
      ∃ key frameId, AddedBy P boundaryPackId calls key id record ∧
        record.get? (py "frame_id") = some frameId ∧ strOf P frameId = .ok key.2.2) ∧
    (∀ key id record, AddedBy P boundaryPackId calls key id record →
      engine.ownerByFrame.get? key = some id) ∧
    (∀ key id id' record record', AddedBy P boundaryPackId calls key id record →
      AddedBy P boundaryPackId calls key id' record' → id = id') ∧
    ∀ id, engine.stream.records.Pairwise fun a b => ClosesEpisode id a →
      ¬ ClosesEpisode id b ∧ ¬ ConcernsEpisode id b ∧
        ∀ action episodeIds, IsEvent action episodeIds b → id ∈ episodeIds → IsLink b := by
  intro engine
  obtain ⟨entries, h⟩ := exists_represents (P := P) boundaryPackId calls
  have hregistered := registered_afterCalls (P := P) boundaryPackId calls
  refine ⟨fun record hmem id hgenesis => ?_, fun record hmem id hadd => exists_addedBy hmem hadd,
    fun key id record hadd => owner_of_addedBy hadd, fun key id id' record record' hadd hadd' => ?_,
    h.closed⟩
  · have hborn := h.birth_of_isGenesis hmem hgenesis
    have hstat := (h.status id _).mpr ⟨hborn, rfl⟩
    have hkey := hregistered.genesis_of_status id (Dict.isSome_get?_iff.mp (hstat ▸ rfl))
    exact ⟨_, hstat, h.projects (hregistered.filled id hkey) hstat⟩
  · exact Option.some.inj ((owner_of_addedBy hadd).symm.trans (owner_of_addedBy hadd'))

/-! ## A link after the end -/

/-- Two episodes are born, the first is terminated, and then they are linked. -/
def relinked : List Call :=
  [sampleBirth "f0", sampleBirth "f1",
    .terminate (py "C2E.EPISODE.7fc2bce71c4da1827c4711d3cd946ba2") (py "cand") false (py "t1")
      (py "t1"),
    .link (py "RE_PARENT") (py "C2E.EPISODE.7fc2bce71c4da1827c4711d3cd946ba2")
      (py "C2E.EPISODE.f57d6410bd11098445bf8ac6ef1b100b") (py "cand") (py "t2") (py "t2")]

/-- What the last records of that run say. -/
theorem relinked_records :
    ((afterCalls .reference (py "pack") relinked).stream.records.drop 6).map (fun record =>
      (record.get? (py "schema"), record.get? (py "lifecycle_action"),
        record.get? (py "episode_ids"))) =
      [(some (.str (py "c2e_boundary_event/v0_2")), some (.str (py "TERMINATE")),
          some (.ofStrs [py "C2E.EPISODE.7fc2bce71c4da1827c4711d3cd946ba2"])),
        (some (.str (py "c2e_boundary_event/v0_2")), some (.str (py "RE_PARENT")),
          some (.ofStrs [py "C2E.EPISODE.7fc2bce71c4da1827c4711d3cd946ba2",
            py "C2E.EPISODE.f57d6410bd11098445bf8ac6ef1b100b"])),
        (some (.str (py "c2e_lineage_edge/v0_2")), none, none)] := by
  decide +kernel

/-- **A re-parent record may follow the end of its episode**: a link writes one. -/
theorem reParent_after_close :
    ¬ ∀ (P : Platform) (boundaryPackId : PyStr) (calls : List Call) (id : PyStr),
      (afterCalls P boundaryPackId calls).stream.records.Pairwise fun a b =>
        ClosesEpisode id a → ∀ episodeIds, id ∈ episodeIds →
          ¬ IsEvent (py "RE_PARENT") episodeIds b := by
  intro h
  have hrun := h .reference (py "pack") relinked
  have hrows := relinked_records
  generalize (afterCalls .reference (py "pack") relinked).stream.records = records at hrun hrows
  generalize py "C2E.EPISODE.7fc2bce71c4da1827c4711d3cd946ba2" = closed at hrows
  generalize py "C2E.EPISODE.f57d6410bd11098445bf8ac6ef1b100b" = other at hrows
  obtain ⟨terminate, rest, htail, hterminate, hrest⟩ := map_eq_cons_iff.mp hrows
  obtain ⟨link, _, rfl, hlink, -⟩ := map_eq_cons_iff.mp hrest
  simp only [Prod.mk.injEq] at hterminate hlink
  have hpair := ((hrun closed).sublist (drop_sublist 6 records))
  rw [htail, pairwise_cons] at hpair
  have hcloses : ClosesEpisode closed terminate :=
    ⟨py "TERMINATE", [closed], ⟨hterminate.1, hterminate.2.1, hterminate.2.2⟩, by simp,
      by simp [closing]⟩
  exact hpair.1 link (by simp) hcloses [closed, other] (by simp)
    ⟨hlink.1, hlink.2.1, hlink.2.2⟩

end EpisodeEngine

end OvcReplay.C2e
