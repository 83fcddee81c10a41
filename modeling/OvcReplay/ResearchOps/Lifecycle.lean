import OvcReplay.ResearchOps.Validation

/-! # Freezing records

`identity.py` and `lifecycle.py` of research operations: the id that a record has by its content,
what freezing adds to a draft, and the check that a frozen record still is what was frozen. -/

namespace OvcReplay.ResearchOps

open Python Json
open P1cdi (canonicalJsonBytes canonicalSha256)

variable (P : Platform) (E : Environment)

/-! ## Identity -/

/-- `_content_material`. -/
def contentMaterial (record : Record) : Record := record.filter fun p => p.1 ≠ py "content_sha256"

/-- `_identity_material`. -/
def identityMaterial (record : Record) : Record :=
  contentMaterial (record.filter fun p => p.1 ≠ py "record_id")

/-- `deterministic_record_id`. -/
def deterministicRecordId (record : Record) : Except PyError PyStr := do
  let recordType ← (getD record "record_type" (.str (py "unknown"))).strOf P
  let sha ← canonicalSha256 P (.ofRecord (identityMaterial record))
  return py "ro:" ++ E.lower recordType ++ py ":" ++ sha

/-! ## Freezing -/

/-- `record.setdefault(key, default)`. -/
def setDefault (record : Record) (key : PyStr) (default : PyVal) : Record :=
  if (record.get? key).isSome then record else record.set key default

/-- What freezing states about a draft, its id and its hash apart. -/
def freezeFields (record : Record) (frozenAt : PyStr) : Record :=
  let frozen := record.set (py "lifecycle_state") (.str (py "FROZEN"))
  let frozen := frozen.set (py "authority_state") (.str (py "FROZEN"))
  let frozen := frozen.set (py "frozen_at") (.str frozenAt)
  setDefault frozen (py "model_refs") (.list [])

/-- `freeze_record`. -/
def freezeRecord (record : Record) (frozenAt : PyStr) : Except ResearchError Record := do
  require (isText (getD record "lifecycle_state" .none) "DRAFT") "INVALID_FREEZE_STATE"
  let frozen := freezeFields record frozenAt
  let id ← python (deterministicRecordId P E frozen)
  let frozen := frozen.set (py "record_id") (.str id)
  let sha ← python (canonicalSha256 P (.ofRecord (contentMaterial frozen)))
  let frozen := frozen.set (py "content_sha256") (.str sha)
  validateRecord P E frozen
  return frozen

/-- The lifecycle state of a record that is frozen. -/
def checkFrozenState (state : PyVal) : Except ResearchError Unit :=
  if state.hashable then
    require (isText state "FROZEN" ∨ isText state "ADJUDICATED" ∨ isText state "SUPERSEDED")
      "NOT_FROZEN"
  else .error (.python .typeError)

/-- `verify_frozen_record`. -/
def verifyFrozenRecord (record : Record) : Except ResearchError Unit := do
  checkFrozenState (getD record "lifecycle_state" .none)
  let sha ← python (canonicalSha256 P (.ofRecord (contentMaterial record)))
  let id ← python (deterministicRecordId P E record)
  check (getD record "content_sha256" .none = .str sha ∧ getD record "record_id" .none = .str id)
    .mutation
  validateRecord P E record

/-- `successor["lineage"]["supersedes"] = id`: only a mapping is stored into under a text. -/
def setSupersedes (record : Record) (id : PyVal) : Except PyError Record :=
  match Dict.get? record (py "lineage") with
  | none => .error .keyError
  | some (.dict lineage) =>
    .ok (Dict.set record (py "lineage") (.dict (Dict.set lineage (.str (py "supersedes")) id)))
  | some _ => .error .typeError

/-- `supersede_record`; the predecessor is the original. -/
def supersedeRecord (original replacement : Record) (frozenAt : PyStr) :
    Except ResearchError (Record × Record) := do
  verifyFrozenRecord P E original
  require (isText (getD replacement "lifecycle_state" .none) "DRAFT") "REPLACEMENT_NOT_DRAFT"
  let successor ← python (setSupersedes replacement (getD original "record_id" .none))
  return (original, ← freezeRecord P E successor frozenAt)

variable {P E}

/-! ## What is frozen can be verified -/

/-- **A frozen record has the id of its content.** -/
theorem recordId_of_verify {record : Record} (h : verifyFrozenRecord P E record = .ok ()) :
    ∃ id, deterministicRecordId P E record = .ok id ∧ getD record "record_id" .none = .str id := by
  unfold verifyFrozenRecord at h
  obtain ⟨_, -, h⟩ := bind_ok.mp h
  obtain ⟨sha, -, h⟩ := bind_ok.mp h
  obtain ⟨id, hid, h⟩ := bind_ok.mp h
  obtain ⟨_, hsame, -⟩ := bind_ok.mp h
  exact ⟨id, mapError_ok.mp hid, (check_ok.mp hsame).2⟩

theorem contentMaterial_set_sha (record : Record) (v : PyVal) :
    contentMaterial (record.set (py "content_sha256") v) = contentMaterial record :=
  Dict.filter_set _ v

theorem identityMaterial_set_id (record : Record) (v : PyVal) :
    identityMaterial (record.set (py "record_id") v) = identityMaterial record := by
  rw [identityMaterial, Dict.filter_set, identityMaterial]

theorem identityMaterial_eq (record : Record) :
    identityMaterial record = (contentMaterial record).filter fun p => p.1 ≠ py "record_id" := by
  rw [identityMaterial, contentMaterial, contentMaterial, List.filter_comm]

theorem identityMaterial_set_sha (record : Record) (v : PyVal) :
    identityMaterial (record.set (py "content_sha256") v) = identityMaterial record := by
  rw [identityMaterial_eq, contentMaterial_set_sha, identityMaterial_eq]

/-- A field under another name is read as before. -/
theorem getD_set_of_ne (record : Record) {key : String} {name : PyStr} (v default : PyVal)
    (h : name ≠ py key) : getD (record.set name v) key default = getD record key default := by
  rw [getD, Dict.get?_set_of_ne _ _ h, getD]

/-- The field that was stored is read. -/
theorem getD_set_self (record : Record) (key : String) (v default : PyVal) :
    getD (record.set (py key) v) key default = v := by
  rw [getD, Dict.get?_set_self, Option.getD_some]

/-- The id of a record depends neither on the id nor on the hash it states. -/
theorem deterministicRecordId_set {record : Record} {name : PyStr} (v : PyVal)
    (h : name = py "record_id" ∨ name = py "content_sha256") :
    deterministicRecordId P E (record.set name v) = deterministicRecordId P E record := by
  have hmaterial : identityMaterial (record.set name v) = identityMaterial record := by
    rcases h with rfl | rfl
    · exact identityMaterial_set_id record v
    · exact identityMaterial_set_sha record v
  have htype : name ≠ py "record_type" := by
    rcases h with rfl | rfl <;> decide
  rw [deterministicRecordId, hmaterial, getD_set_of_ne record v _ htype, deterministicRecordId]

theorem getD_freezeFields_state (record : Record) (frozenAt : PyStr) :
    getD (freezeFields record frozenAt) "lifecycle_state" .none = .str (py "FROZEN") := by
  have hflds : getD (Dict.set (Dict.set (record.set (py "lifecycle_state")
      (.str (py "FROZEN"))) (py "authority_state") (.str (py "FROZEN"))) (py "frozen_at")
      (.str frozenAt)) "lifecycle_state" .none = .str (py "FROZEN") := by
    rw [getD_set_of_ne _ _ _ (by decide), getD_set_of_ne _ _ _ (by decide), getD_set_self]
  unfold freezeFields setDefault
  dsimp only
  split
  · exact hflds
  · rw [getD_set_of_ne _ _ _ (by decide), hflds]

variable {record frozen : Record} {frozenAt : PyStr}

/-- What `freeze_record` gives: the fields of the draft with the id and the hash of the content. -/
theorem freezeRecord_ok (h : freezeRecord P E record frozenAt = .ok frozen) :
    ∃ id sha, frozen = Dict.set (Dict.set (freezeFields record frozenAt) (py "record_id") (.str id))
        (py "content_sha256") (.str sha) ∧
      deterministicRecordId P E frozen = .ok id ∧
      canonicalSha256 P (.ofRecord (contentMaterial frozen)) = .ok sha ∧
      validateRecord P E frozen = .ok () := by
  unfold freezeRecord at h
  dsimp only at h
  obtain ⟨-, -, h⟩ := bind_ok.mp h
  obtain ⟨id, hid, h⟩ := bind_ok.mp h
  obtain ⟨sha, hsha, h⟩ := bind_ok.mp h
  obtain ⟨_, hvalid, h⟩ := bind_ok.mp h
  cases h
  refine ⟨id, sha, rfl, ?_, ?_, hvalid⟩
  · rw [deterministicRecordId_set _ (.inr rfl), deterministicRecordId_set _ (.inl rfl)]
    exact mapError_ok.mp hid
  · rw [contentMaterial_set_sha]
    exact mapError_ok.mp hsha

/-- The names of the fields that freezing states. -/
def frozenNames : List PyStr :=
  [py "lifecycle_state", py "authority_state", py "frozen_at", py "model_refs", py "record_id",
    py "content_sha256"]

/-- **Freezing leaves every other field of the draft alone.** -/
theorem getD_freezeRecord (h : freezeRecord P E record frozenAt = .ok frozen) (key : String)
    (default : PyVal) (hkey : ∀ name ∈ frozenNames, name ≠ py key) :
    getD frozen key default = getD record key default := by
  obtain ⟨id, sha, rfl, -⟩ := freezeRecord_ok h
  have hset : ∀ (name : PyStr) {record : Record} {v : PyVal}, name ∈ frozenNames →
      getD (record.set name v) key default = getD record key default :=
    fun name _ _ hname => getD_set_of_ne _ _ _ (hkey name hname)
  have hflds : getD (freezeFields record frozenAt) key default = getD record key default := by
    unfold freezeFields setDefault
    dsimp only
    split
    · rw [hset _ (by simp [frozenNames]), hset _ (by simp [frozenNames]),
        hset _ (by simp [frozenNames])]
    · rw [hset _ (by simp [frozenNames]), hset _ (by simp [frozenNames]),
        hset _ (by simp [frozenNames]), hset _ (by simp [frozenNames])]
  rw [hset _ (by simp [frozenNames]), hset _ (by simp [frozenNames]), hflds]

/-- **What was frozen passes the check of frozen records.** -/
theorem verify_of_freeze (h : freezeRecord P E record frozenAt = .ok frozen) :
    verifyFrozenRecord P E frozen = .ok () := by
  obtain ⟨id, sha, hfrozen, hid, hsha, hvalid⟩ := freezeRecord_ok h
  have hst : getD frozen "lifecycle_state" .none = .str (py "FROZEN") := by
    rw [hfrozen, getD_set_of_ne _ _ _ (by decide), getD_set_of_ne _ _ _ (by decide),
      getD_freezeFields_state]
  have hstated : getD frozen "content_sha256" .none = .str sha ∧
      getD frozen "record_id" .none = .str id := by
    rw [hfrozen]
    exact ⟨getD_set_self _ _ _ _, by rw [getD_set_of_ne _ _ _ (by decide), getD_set_self]⟩
  unfold verifyFrozenRecord
  rw [hst]
  refine bind_ok.mpr ⟨(), ?_, ?_⟩
  · have hhashable : (PyVal.str (py "FROZEN")).hashable = true := by simp [PyVal.hashable]
    rw [checkFrozenState, if_pos hhashable]
    exact check_ok.mpr (.inl (decide_eq_true rfl))
  refine bind_ok.mpr ⟨sha, mapError_ok.mpr hsha, ?_⟩
  refine bind_ok.mpr ⟨id, mapError_ok.mpr hid, ?_⟩
  exact bind_ok.mpr ⟨(), check_ok.mpr hstated, hvalid⟩

end OvcReplay.ResearchOps
