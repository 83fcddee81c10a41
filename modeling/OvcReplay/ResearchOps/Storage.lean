import OvcReplay.ResearchOps.Lifecycle
import OvcReplay.Python.Raising

/-! # Drafts and frozen records

`storage.py`: the mutable drafts, the append-only store of frozen records and the governed writes
over both. A file holds the canonical text of a record; of a record of JSON values that text is
read as the record again, so the record stands for the file. -/

namespace OvcReplay.ResearchOps

open Python Json
open P1cdi (canonicalJsonBytes canonicalSha256)

/-! ## Files -/

/-- `RECORD_DIRECTORIES`. -/
def recordDirectories : List (String × String) :=
  [("DATA_RELEASE_REF", "releases"), ("RESEARCH_SESSION", "sessions"),
    ("OBSERVATION_SNAPSHOT", "observations"), ("CLAIM_RECORD", "claims"),
    ("REALIZATION_SNAPSHOT", "realizations"), ("EVIDENCE_ITEM", "evidence"),
    ("CASE_BUNDLE", "cases"), ("INCIDENT_RECORD", "incidents"), ("DECISION_RECORD", "decisions"),
    ("AUDIT_EVENT", "audit"),
    ("RO4_SEQUENCE_BOUNDARY_ANNOTATION.v0.1", "ro4/sequence_boundary_annotations"),
    ("RO4_C2E_FRICTION_RECORD.v0.1", "ro4/c2e_friction_records"),
    ("RO4_PROSPECTIVE_SEQUENCE_REVIEW.v0.1", "ro4/prospective_sequence_reviews"),
    ("RO4_SIGNATURE_CONCENTRATION_ACKNOWLEDGEMENT.v0.1",
      "ro4/signature_concentration_acknowledgements")] ++ bcwtRecordDirectories

/-- The name of a file, its suffix apart: `identifier.replace(":", "__").replace("/", "_")`. -/
def escaped (identifier : PyStr) : PyStr :=
  identifier.flatMap fun c =>
    if c = CodePoint.ofChar ':' then py "__" else if c = CodePoint.ofChar '/' then py "_" else [c]

/-- `_safe_name`. -/
def safeName (identifier : PyStr) : PyStr := escaped identifier ++ py ".json"

/-- The file of a draft. -/
structure Wrapper where
  draftId : PyStr
  record : Record
  deriving DecidableEq

/-- The directory and the name of the file of a frozen record. -/
structure Location where
  directory : PyStr
  name : PyStr
  deriving DecidableEq

/-- The files under the two roots. -/
structure Stores where
  /-- By the names of the files. -/
  drafts : Dict PyStr Wrapper
  records : Dict Location Record
  deriving DecidableEq

/-- The stores before the first call. -/
def Stores.empty : Stores := ⟨[], []⟩

/-- A method of the service. -/
abbrev Service (α : Type) : Type := Raising ResearchError Stores α

variable (P : Platform) (E : Environment)

/-! ## Drafts -/

/-- The wrapper as it is written. -/
def Wrapper.toRecord (wrapper : Wrapper) : Record :=
  [(py "draft_id", .str wrapper.draftId), (py "record", .ofRecord wrapper.record)]

/-- The file with a draft. -/
def writeDraft (wrapper : Wrapper) : Service Unit :=
  modify fun s => { s with drafts := s.drafts.set (safeName wrapper.draftId) wrapper }

variable (record : Record)

/-- The id a new draft gets. -/
def draftIdOf : Except PyError PyStr := do
  let recordType ← (PyVal.ofRecord record).subscript (py "record_type")
  let name ← recordType.strOf P
  let sha ← canonicalSha256 P (.ofRecord record)
  return py "draft:" ++ E.lower name ++ py ":" ++ sha

/-- `DraftStore.create`. -/
def DraftStore.create : Service PyStr := do
  let draftId ← Raising.lift (python (draftIdOf P E record))
  let wrapper : Wrapper := ⟨draftId, record⟩
  let _ ← Raising.lift (python (canonicalJsonBytes P (.ofRecord wrapper.toRecord)))
  let s ← get
  Raising.require (s.drafts.get? (safeName draftId) = none) .appendOnly
  writeDraft wrapper
  return draftId

/-- `DraftStore.read`. -/
def DraftStore.read (draftId : PyStr) (s : Stores) : Except ResearchError Record :=
  match s.drafts.get? (safeName draftId) with
  | some wrapper => .ok wrapper.record
  | none => .error .notFound

/-- `DraftStore.replace`. -/
def DraftStore.replace (draftId : PyStr) (record : Record) : Service Unit := do
  let s ← get
  Raising.require ((s.drafts.get? (safeName draftId)).isSome) .notFound
  let wrapper : Wrapper := ⟨draftId, record⟩
  let _ ← Raising.lift (python (canonicalJsonBytes P (.ofRecord wrapper.toRecord)))
  writeDraft wrapper

/-! ## Frozen records -/

/-- `RECORD_DIRECTORIES[str(recordType)]`: only a text has the text of a record type. -/
def directoryOf : PyVal → Except ResearchError PyStr
  | .str name =>
    match tableAt? recordDirectories name with
    | some directory => .ok (py directory)
    | none => .error (.python .valueError)
  | _ => .error (.python .valueError)

/-- `FrozenRecordStore._path` of the type and the id of a record. -/
def locationOf : Except ResearchError Location := do
  let recordType ← python ((PyVal.ofRecord record).subscript (py "record_type"))
  let id ← python ((PyVal.ofRecord record).subscript (py "record_id"))
  let name ← python (id.strOf P)
  let directory ← directoryOf recordType
  return ⟨directory, safeName name⟩

/-- `frozen["record_id"]` of a record that was frozen, which is a text. -/
def recordIdOf (frozen : Record) : PyStr := (name? (getD frozen "record_id" .none)).getD []

/-- What `FrozenRecordStore.write` finds out before it touches a file. -/
def admitted : Except ResearchError Location := do
  verifyFrozenRecord P E record
  let location ← locationOf P record
  let _ ← python (canonicalJsonBytes P (.ofRecord record))
  return location

/-- `FrozenRecordStore.write`. -/
def FrozenRecordStore.write : Service Location := do
  let location ← Raising.lift (admitted P E record)
  let s ← get
  Raising.require (s.records.get? location = none) .appendOnly
  modify fun s => { s with records := s.records.set location record }
  return location

/-- The first file with a name, over the directories. -/
def find? (name : PyStr) (s : Stores) : Option Record :=
  recordDirectories.findSome? fun p => s.records.get? ⟨py p.2, name⟩

/-- `FrozenRecordStore.read`. -/
def FrozenRecordStore.read (recordId : PyStr) (s : Stores) : Except ResearchError Record :=
  match find? (safeName recordId) s with
  | some record => do
    verifyFrozenRecord P E record
    return record
  | none => .error .notFound

/-! ## Audit events -/

/-- The arguments of `_audit`. -/
structure AuditRequest where
  action : PyStr
  objectId : PyStr
  result : PyStr
  traceRef : PyStr
  time : PyStr
  sourceRefs : PyVal
  deriving DecidableEq

/-- `value or []`. -/
def orEmpty (value : PyVal) : PyVal := if value.truthy then value else .list []

/-- The draft of an audit event: `base_record` with the arguments of `_audit`. -/
def AuditRequest.draft (operatorId : PyStr) (request : AuditRequest) : Record :=
  [(py "record_type", .str (py "AUDIT_EVENT")), (py "schema_version", .str (py "0.1")),
    (py "lifecycle_state", .str (py "DRAFT")), (py "created_at", .str request.time),
    (py "frozen_at", .none), (py "operator_id", .str operatorId),
    (py "admissible_cutoff", .str request.time),
    (py "source_release_refs", orEmpty request.sourceRefs), (py "artifact_refs", .list []),
    (py "model_refs", .list []), (py "missingness", .list []),
    (py "lineage", .ofRecord [(py "parent", .list []),
      (py "derived_from", .list [.str request.objectId]), (py "supersedes", .none),
      (py "adjudicates", .list [])]),
    (py "authority_state", .str (py "DRAFT")),
    (py "reproducibility_state", .str (py "REPRODUCIBLE")),
    (py "payload", .ofRecord [(py "actor", .str operatorId), (py "action", .str request.action),
      (py "object_id", .str request.objectId), (py "result", .str request.result),
      (py "trace_ref", .str request.traceRef)]),
    (py "content_sha256", .none)]

variable (operatorId : PyStr)

/-- The frozen event of a request. -/
@[irreducible] def auditEvent (request : AuditRequest) : Except ResearchError Record :=
  freezeRecord P E (request.draft operatorId) request.time

/-- `_audit`. -/
def audit (request : AuditRequest) : Service Record := do
  let frozen ← Raising.lift (auditEvent P E operatorId request)
  let _ ← FrozenRecordStore.write P E frozen
  return frozen

/-! ## The service -/

/-- What a call returns. -/
inductive Returned where
  | none
  | id (draftId : PyStr)
  | record (record : Record)
  deriving DecidableEq

/-- What a method has to say once its first write is done. -/
structure Written where
  request : AuditRequest
  /-- What the method returns; `emit_audit` returns the event. -/
  returned : Record → Returned

/-- **A governed write**: the first write, and the audit event that names its object. -/
def governed (first : Service Written) : Service Returned := do
  let written ← first
  let event ← audit P E operatorId written.request
  return written.returned event

/-- The public methods of `ResearchWriteService` with their arguments. -/
inductive Call where
  | createDraft (record : Record) (time action : PyStr)
  | updateDraft (draftId : PyStr) (record : Record) (time action : PyStr)
  | freezeDraft (draftId : PyStr) (frozenAt action : PyStr)
  | freezeNew (draft : Record) (frozenAt action : PyStr)
  | supersede (originalId : PyStr) (replacement : Record) (frozenAt : PyStr)
  | emitAudit (request : AuditRequest)

/-- The call freezes a record. -/
def Call.Freezes : Call → Prop
  | .freezeDraft .. => True
  | .freezeNew .. => True
  | .supersede .. => True
  | _ => False

/-- The object of a call that returned: its draft or the record it froze. -/
def objectOf : Call → Returned → PyStr
  | .updateDraft draftId _ _ _, _ => draftId
  | .emitAudit request, _ => request.objectId
  | _, .id draftId => draftId
  | _, .record frozen => recordIdOf frozen
  | _, .none => []

/-- The request after a draft was written. -/
def draftRequest (action draftId time : PyStr) (record : Record) : AuditRequest :=
  ⟨action, draftId, py "PASS", py "draft:" ++ draftId, time,
    getD record "source_release_refs" (.list [])⟩

/-- `path.relative_to(root).as_posix()`. -/
def Location.text (location : Location) : PyStr :=
  location.directory ++ py "/" ++ location.name

/-- A frozen record is written and its event requested. -/
def writeFrozen (frozen : Record) (frozenAt action : PyStr) : Service Written := do
  let location ← FrozenRecordStore.write P E frozen
  return ⟨⟨action, recordIdOf frozen, py "PASS", location.text, frozenAt,
    getD frozen "source_release_refs" (.list [])⟩, fun _ => .record frozen⟩

/-- The first write of `create_draft`. -/
def createDraft (record : Record) (time action : PyStr) : Service Written := do
  let draftId ← DraftStore.create P E record
  return ⟨draftRequest action draftId time record, fun _ => .id draftId⟩

/-- The first write of `update_draft`. -/
def updateDraft (draftId : PyStr) (record : Record) (time action : PyStr) : Service Written := do
  DraftStore.replace P draftId record
  return ⟨draftRequest action draftId time record, fun _ => .none⟩

/-- The first write of `freeze_new`. -/
def freezeNew (draft : Record) (frozenAt action : PyStr) : Service Written := do
  let frozen ← Raising.lift (freezeRecord P E draft frozenAt)
  writeFrozen P E frozen frozenAt action

/-- The first write of `freeze_draft`. -/
def freezeDraft (draftId : PyStr) (frozenAt action : PyStr) : Service Written := do
  let s ← get
  let draft ← Raising.lift (DraftStore.read draftId s)
  freezeNew P E draft frozenAt action

/-- The first write of `supersede`. -/
def supersede (originalId : PyStr) (replacement : Record) (frozenAt : PyStr) : Service Written := do
  let s ← get
  let original ← Raising.lift (FrozenRecordStore.read P E originalId s)
  let (_, successor) ← Raising.lift (supersedeRecord P E original replacement frozenAt)
  writeFrozen P E successor frozenAt (py "research.supersede")

/-- What a call does before its audit event. -/
def first : Call → Service Written
  | .createDraft record time action => createDraft P E record time action
  | .updateDraft draftId record time action => updateDraft P draftId record time action
  | .freezeDraft draftId frozenAt action => freezeDraft P E draftId frozenAt action
  | .freezeNew draft frozenAt action => freezeNew P E draft frozenAt action
  | .supersede originalId replacement frozenAt => supersede P E originalId replacement frozenAt
  | .emitAudit request => pure ⟨request, .record⟩

/-- **A call of the service.** -/
def perform (call : Call) : Service Returned := governed P E operatorId (first P E call)

/-- The stores after a list of calls on empty stores, each of which may raise. -/
def stores (calls : List Call) : Stores :=
  Raising.after (perform P E operatorId) calls .empty

end OvcReplay.ResearchOps
