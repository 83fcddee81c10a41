import OvcReplay.C2e.Models
import OvcReplay.Python.Raising

/-! # The append-only stream of C2E v0.2

`stream.py`: a list of records and the set of their ids. An append checks the id and the authority of
the record before it writes either. -/

namespace OvcReplay.C2e

open Python Raising

variable (P : Platform)

/-- `_ID_BY_SCHEMA`. -/
def idBySchema : Dict PyStr PyStr :=
  [(py "c2e_episode_genesis/v0_2", py "episode_id"),
    (py "c2e_episode_snapshot/v0_2", py "snapshot_id"),
    (py "c2e_phase_segment/v0_2", py "phase_segment_id"),
    (py "c2e_boundary_event/v0_2", py "boundary_event_id"),
    (py "c2e_lineage_edge/v0_2", py "lineage_edge_id"),
    (py "c2e_membership_delta/v0_2", py "membership_delta_id"),
    (py "c2e_remap_record/v0_2", py "remap_record_id"),
    (py "c2e_stream_manifest/v0_2", py "stream_manifest_id"),
    (py "c2e_checkpoint/v0_2", py "checkpoint_id"),
    (py "c2e_sri_handoff/v0_1", py "handoff_id")]

/-- `AppendOnlyStream`. -/
structure AppendOnlyStream where
  records : List Record
  /-- The set `_ids`. -/
  ids : List PyStr
  deriving DecidableEq

namespace AppendOnlyStream

/-- `AppendOnlyStream()`. -/
def empty : AppendOnlyStream := ⟨[], []⟩

/-- `_record_id`. -/
def recordIdOf (record : Record) : Except Error PyStr := do
  let schema ← (((record.get? (py "schema")).getD (.str [])).strOf P).mapError .python
  match idBySchema.get? schema with
  | none => .error (.stream (py "SEMANTIC_RECORD_ID_NOT_FOUND"))
  | some field =>
    match record.get? field with
    | some (.str id) => .ok id
    | _ => .error (.stream (py "SEMANTIC_RECORD_ID_NOT_FOUND"))

/-- The authorities a stream admits. -/
def authorities : List PyVal :=
  [.str (py "INACTIVE_NONCANONICAL_SHADOW"), .str (py "COMPARISON_ONLY")]

/-- `append`. -/
def append (record : Record) : Raising Error AppendOnlyStream Unit := do
  let recordId ← lift (recordIdOf P record)
  let stream ← get
  require (recordId ∉ stream.ids) (.stream (py "APPEND_ONLY_DUPLICATE_OR_UPDATE_DENIED"))
  let authority := (record.get? (py "authority")).getD .none
  -- membership in a set hashes the value first
  require (authority.hashable = true) (.python .typeError)
  require (authority ∈ authorities) (.stream (py "STREAM_AUTHORITY_DENIED"))
  modify fun stream => { stream with records := stream.records ++ [record] }
  modify fun stream => { stream with ids := stream.ids ++ [recordId] }

variable (stream : AppendOnlyStream)

/-- The stream with one more record. -/
def push (record : Record) (id : PyStr) : AppendOnlyStream :=
  ⟨stream.records ++ [record], stream.ids ++ [id]⟩

@[simp] theorem push_records (record : Record) (id : PyStr) :
    (stream.push record id).records = stream.records ++ [record] := rfl

@[simp] theorem push_ids (record : Record) (id : PyStr) :
    (stream.push record id).ids = stream.ids ++ [id] := rfl

/-! ## Built records -/

variable {P}

theorem get?_idBySchema (kind : RecordKind) :
    idBySchema.get? (py kind.spec.schema) = some (py kind.spec.idField) := by
  cases kind <;> simp [idBySchema, RecordKind.spec]

/-- The id of a built record is the one it was sealed with. -/
theorem recordIdOf_built {kind : RecordKind} {payload record fields : Record}
    (h : buildRecord P kind payload = .ok record)
    (hf : canonicalFields P payload = .ok fields) :
    ∃ id, recordId P kind fields = .ok id ∧ recordIdOf P record = .ok id := by
  obtain ⟨id, hid, hget⟩ := get?_idField h hf
  refine ⟨id, hid, ?_⟩
  rw [recordIdOf, get?_schema h]
  simp only [Option.getD_some, PyVal.strOf_str, Except.mapError, bind, Except.bind]
  rw [get?_idBySchema]
  simp only [hget]

/-- **A record of the shadow authority is refused iff its id is there already.** -/
theorem ends_append {record : Record} {id : PyStr} (hid : recordIdOf P record = .ok id)
    (hauth : record.get? (py "authority") = some (.str (py "INACTIVE_NONCANONICAL_SHADOW")))
    {R : Unit → AppendOnlyStream → Prop} {E : Error → AppendOnlyStream → Prop}
    {stream : AppendOnlyStream} :
    ends (append P record) R E stream ↔ (id ∉ stream.ids → R () (stream.push record id)) ∧
        (id ∈ stream.ids → E (.stream (py "APPEND_ONLY_DUPLICATE_OR_UPDATE_DENIED")) stream) := by
  have hmem : PyVal.str (py "INACTIVE_NONCANONICAL_SHADOW") ∈ authorities := List.mem_cons_self
  simp only [append, hid, hauth, ends_bind, ends_lift_ok, ends_get, ends_require, Option.getD_some,
    PyVal.hashable, hmem, ends_modify, not_true_eq_false, false_implies, true_implies, and_true,
    Decidable.not_not]
  rfl

end AppendOnlyStream

end OvcReplay.C2e
