import OvcReplay.C2e.Models

/-! # Episode projections of C2E v0.2

`projection.py`: `project_episode` rebuilds what an episode is from the records of a stream. It reads
each record once, keeps the ids it meets in sets, and lets the last terminal event give the status. -/

namespace OvcReplay.C2e

open Python

variable (P : Platform)

/-- The statuses of an episode. -/
inductive EpisodeStatus where
  | opened
  | censored
  | conflicted
  | terminated
  deriving DecidableEq, Repr

/-- The text of a status. -/
def EpisodeStatus.text : EpisodeStatus → PyStr
  | opened => py "OPEN"
  | censored => py "CENSORED"
  | conflicted => py "CONFLICTED"
  | terminated => py "TERMINATED"

/-- The status a boundary event with this action gives its episodes. -/
def closing (action : PyStr) : Option EpisodeStatus :=
  if action = py "CENSOR_GAP" ∨ action = py "CENSOR_RELEASE_END" then some .censored
  else if action = py "TERMINATE_CONFLICT" then some .conflicted
  else if action = py "TERMINATE" then some .terminated
  else none

theorem closing_ne_opened (action : PyStr) : closing action ≠ some .opened := by
  unfold closing
  split_ifs <;> simp

/-- What `project_episode` accumulates; its sets are the lists of what was added. -/
structure Projection where
  members : List PyStr
  phases : List PyStr
  boundaries : List PyStr
  status : EpisodeStatus

namespace Projection

/-- The projection before the first record. -/
def empty : Projection := ⟨[], [], [], .opened⟩

variable (projection : Projection)

/-- The branch of a membership delta of the episode. -/
def visitMembership (record : Record) : Except Error Projection :=
  if record.get? (py "operation") = some (.str (py "ADD")) then do
    let frameId ← strOf P (← lookup record (py "frame_id"))
    return { projection with members := frameId :: projection.members }
  else if record.get? (py "operation") = some (.str (py "REMOVE_TOPOLOGY_EFFECT")) then do
    let frameId ← strOf P (← lookup record (py "frame_id"))
    return { projection with members := projection.members.filter (· ≠ frameId) }
  else .ok projection

/-- The branch of a phase segment of the episode. -/
def visitPhase (record : Record) : Except Error Projection := do
  let phaseId ← strOf P (← lookup record (py "phase_segment_id"))
  return { projection with phases := phaseId :: projection.phases }

/-- The branch of a boundary event that names the episode. -/
def visitEvent (record : Record) : Except Error Projection := do
  let eventId ← strOf P (← lookup record (py "boundary_event_id"))
  let projection := { projection with boundaries := eventId :: projection.boundaries }
  match (record.get? (py "lifecycle_action")).getD .none with
  | .str action => return { projection with status := (closing action).getD projection.status }
  | action =>
    -- membership in a set hashes the value first
    if action.hashable then return projection else .error (.python .typeError)

/-- The loop body of `project_episode`. -/
def visit (episodeId : PyStr) (projection : Projection) (record : Record) :
    Except Error Projection :=
  let schema := record.get? (py "schema")
  let ofEpisode := record.get? (py "episode_id") = some (.str episodeId)
  if schema = some (.str (py "c2e_membership_delta/v0_2")) ∧ ofEpisode then
    projection.visitMembership P record
  else if schema = some (.str (py "c2e_phase_segment/v0_2")) ∧ ofEpisode then
    projection.visitPhase P record
  else if schema = some (.str (py "c2e_boundary_event/v0_2")) then
    match ((record.get? (py "episode_ids")).getD (.list [])).contains? episodeId with
    | some true => projection.visitEvent P record
    | some false => .ok projection
    | none => .error (.python .typeError)
  else .ok projection

/-- The payload of the snapshot. -/
def payload (episodeId asOfTime firstValidTime : PyStr) : Record :=
  [(py "episode_id", .str episodeId), (py "as_of_time", .str asOfTime),
    (py "first_valid_time", .str firstValidTime), (py "status", .str projection.status.text),
    (py "member_ids", .ofStrs (sortedSet projection.members)),
    (py "phase_segment_ids", .ofStrs (sortedSet projection.phases)),
    (py "boundary_event_ids", .ofStrs (sortedSet projection.boundaries)),
    (py "authority", .str (py "INACTIVE_NONCANONICAL_SHADOW"))]

end Projection

/-- `project_episode`. -/
def projectEpisode (episodeId : PyStr) (records : List Record) (asOfTime firstValidTime : PyStr) :
    Except Error Record := do
  let projection ← records.foldlM (Projection.visit P episodeId) Projection.empty
  buildRecord P .episodeSnapshot (projection.payload episodeId asOfTime firstValidTime)

/-! ## The snapshot -/

namespace Projection

variable {P} {projection : Projection} {episodeId asOfTime firstValidTime : PyStr}

/-- Every id the projection holds can be encoded. -/
structure Readable (projection : Projection) : Prop where
  members : ∀ x ∈ projection.members, Encodable x
  phases : ∀ x ∈ projection.phases, Encodable x
  boundaries : ∀ x ∈ projection.boundaries, Encodable x

namespace Readable

variable {id : PyStr}

theorem addMember (h : projection.Readable) (hid : Encodable id) :
    Readable { projection with members := id :: projection.members } :=
  ⟨List.forall_mem_cons.mpr ⟨hid, h.members⟩, h.phases, h.boundaries⟩

theorem addPhase (h : projection.Readable) (hid : Encodable id) :
    Readable { projection with phases := id :: projection.phases } :=
  ⟨h.members, List.forall_mem_cons.mpr ⟨hid, h.phases⟩, h.boundaries⟩

theorem addBoundary (h : projection.Readable) (hid : Encodable id) {status : EpisodeStatus} :
    Readable { projection with boundaries := id :: projection.boundaries, status := status } :=
  ⟨h.members, h.phases, List.forall_mem_cons.mpr ⟨hid, h.boundaries⟩⟩

end Readable

theorem regular_payload :
    Regular .episodeSnapshot (projection.payload episodeId asOfTime firstValidTime) where
  unreserved := by simp [Unreserved, payload, RecordKind.reserved, RecordKind.spec]
  lists := by simp [payload, sortedListFields]
  checks fields _ := by simp [checkKind]
  authority := by simp [payload]

theorem filled_statusText (status : EpisodeStatus) : Filled status.text := by
  cases status <;> simp [Filled, EpisodeStatus.text]

/-- When the snapshot of readable ids is complete. -/
theorem complete_payload (hr : projection.Readable) :
    Complete P .episodeSnapshot (projection.payload episodeId asOfTime firstValidTime) ↔
      Filled episodeId ∧ Filled asOfTime ∧ Filled firstValidTime := by
  obtain ⟨hne, henc⟩ := filled_statusText projection.status
  simp only [Filled] at hne henc ⊢
  simp [complete_iff, payload, RecordKind.spec, Present, hne, henc]
  constructor
  · rintro ⟨⟨he, ha, hf⟩, hee, hae, hfe, -⟩
    exact ⟨⟨he, hee⟩, ⟨ha, hae⟩, hf, hfe⟩
  · rintro ⟨⟨he, hee⟩, ⟨ha, hae⟩, hf, hfe⟩
    exact ⟨⟨he, ha, hf⟩, hee, hae, hfe, hr.members, hr.phases, hr.boundaries⟩

/-- The status of a snapshot. -/
theorem status_of_built {record : Record}
    (h : buildRecord P .episodeSnapshot (projection.payload episodeId asOfTime firstValidTime) =
      .ok record) : record.get? (py "status") = some (.str projection.status.text) := by
  obtain ⟨fields, _, _, hf, -⟩ := (buildRecord_ok P).mp h
  rw [get?_field h hf (by simp [RecordKind.reserved, RecordKind.spec]),
    get?_canonicalFields_of_notMem P hf (by simp [sortedListFields])]
  simp [payload]

end Projection

end OvcReplay.C2e
