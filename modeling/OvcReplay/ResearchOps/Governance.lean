import OvcReplay.ResearchOps.Reading

/-! # Governed runs

Every sequence of calls on empty stores: whatever raises, the records that were frozen stay as
they were and are read under their ids, and a call that returned has an audit event of its own.
That a call that raises leaves nothing behind, so that all there is comes from calls that
returned, holds exactly when the audit event of every first write fits. -/

namespace OvcReplay.ResearchOps

open Python Json
open Raising (ends ends_mono ends_of_ok ends_of_error left after after_append after_relation
  after_invariant exists_call_of_after)

variable {P : Platform} {E : Environment} {operatorId : PyStr}

/-! ## The event of a call -/

/-- The record is an audit event that names the object. -/
def Names (event : Record) (object : PyStr) : Prop :=
  getD event "record_type" .none = .str (py "AUDIT_EVENT") ∧
    (getD event "payload" .none).get? (py "object_id") = some (.str object)

/-- **The event of a request names the object of the request.** -/
theorem names_of_auditEvent {request : AuditRequest} {event : Record}
    (h : auditEvent P E operatorId request = .ok event) : Names event request.objectId := by
  unfold auditEvent at h
  constructor
  · rw [getD_freezeRecord h "record_type" .none (by decide)]
    rfl
  · rw [getD_freezeRecord h "payload" .none (by decide)]
    rfl

variable {call : Call} {s s' : Stores} {written : Written}

/-- A change requests an event for the object of the call. -/
theorem Change.objectId_eq (h : Change P E s call written s') (event : Record) :
    written.request.objectId = objectOf call (written.returned event) := by
  cases h with
  | created record time action draftId => rfl
  | updated draftId record time action => rfl
  | frozen hcall hadms =>
    cases call with
    | freezeDraft => rfl
    | freezeNew => rfl
    | supersede => rfl
    | _ => cases hcall
  | emitted request => rfl

/-! ## One call -/

/-- The records of `s` are those of `s'`, and `s'` may have more. -/
def Stores.Keeps (s s' : Stores) : Prop :=
  ∀ location record, s.records.get? location = some record →
    s'.records.get? location = some record

theorem Stores.Keeps.trans {s t u : Stores} (h : s.Keeps t) (h' : t.Keeps u) : s.Keeps u :=
  fun location record hget => h' location record (h location record hget)

theorem Stores.keeps_withRecord {s : Stores} {record : Record} {location : Location}
    (h : s.records.get? location = none) : s.Keeps (s.withRecord location record) := by
  intro other found hfound
  rw [Stores.withRecord, Dict.get?_set_of_ne, hfound]
  rintro rfl
  rw [h] at hfound
  cases hfound

/-- A change keeps the records. -/
theorem Change.keeps (h : Change P E s call written s') : s.Keeps s' := by
  cases h with
  | frozen hcall hadms => exact Stores.keeps_withRecord hadms.2
  | _ => exact fun _ _ h => h

/-- A change keeps every record where its id says. -/
theorem Change.filed (h : Change P E s call written s') (hs : s.Filed P E) : s'.Filed P E := by
  cases h with
  | frozen hcall hadms => exact hs.withRecord hadms
  | _ => exact hs

/-- **No call changes or removes a record.** -/
theorem perform_keeps (call : Call) (s : Stores) :
    ends (perform P E operatorId call) (fun _ => s.Keeps) (fun _ => s.Keeps) s := by
  refine ends_mono ?_ ?_ (perform_ends call s)
  · rintro returned s' ⟨written, changed, event, location, hchg, -, hadms, rfl, -⟩
    exact hchg.keeps.trans (Stores.keeps_withRecord hadms.2)
  · rintro e s' (rfl | ⟨written, -, hchg, -⟩)
    · exact fun _ _ h => h
    · exact hchg.keeps

/-- Every call keeps every record where its id says. -/
theorem perform_filed (call : Call) (s : Stores) (hs : s.Filed P E) :
    ends (perform P E operatorId call) (fun _ s' => s'.Filed P E) (fun _ s' => s'.Filed P E) s := by
  refine ends_mono ?_ ?_ (perform_ends call s)
  · rintro returned s' ⟨written, changed, event, location, hchg, -, hadms, rfl, -⟩
    exact (hchg.filed hs).withRecord hadms
  · rintro e s' (rfl | ⟨written, -, hchg, -⟩)
    · exact hs
    · exact hchg.filed hs

/-- **A call that returned has stored an event of its own**, which names its object. -/
theorem perform_audited {returned : Returned}
    (h : perform P E operatorId call s = .ok returned s') :
    ∃ location event, s.records.get? location = none ∧
      s'.records.get? location = some event ∧ Names event (objectOf call returned) := by
  have hends : ends (perform P E operatorId call) _ _ s := perform_ends call s
  rw [ends_of_ok h] at hends
  obtain ⟨written, changed, event, location, hchg, hev, hadms, rfl, rfl⟩ := hends
  refine ⟨location, event, ?_, Dict.get?_set_self _ _ _, ?_⟩
  · cases hget : s.records.get? location with
    | none => rfl
    | some record =>
      have hkept := hchg.keeps location record hget
      rw [hadms.2] at hkept
      cases hkept
  · rw [← hchg.objectId_eq event]
    exact names_of_auditEvent hev

/-! ## Runs -/

/-- **The governed writes of a run.** -/
structure Governed (P : Platform) (E : Environment) (operatorId : PyStr) (calls : List Call) :
    Prop where
  /-- A call that raises leaves the drafts and the records as they were. -/
  atomic : ∀ pre call post, calls = pre ++ call :: post → ∀ e s,
    perform P E operatorId call (stores P E operatorId pre) = .error e s →
      s = stores P E operatorId pre
  /-- A call that returned has an audit event of its own, which is there at the end. -/
  audited : ∀ pre call post, calls = pre ++ call :: post → ∀ returned s,
    perform P E operatorId call (stores P E operatorId pre) = .ok returned s →
      ∃ location event, Dict.get? (stores P E operatorId pre).records location = none ∧
        s.records.get? location = some event ∧
        Dict.get? (stores P E operatorId calls).records location = some event ∧
        Names event (objectOf call returned)
  /-- Every frozen record that is no audit event comes from a call that returned. -/
  written : ∀ location record,
    Dict.get? (stores P E operatorId calls).records location = some record →
      getD record "record_type" .none ≠ .str (py "AUDIT_EVENT") →
      ∃ pre call post returned s, calls = pre ++ call :: post ∧
        perform P E operatorId call (stores P E operatorId pre) = .ok returned s ∧
        Dict.get? (stores P E operatorId pre).records location = none ∧
        s.records.get? location = some record
  /-- Every draft comes from a call that returned. -/
  drafted : ∀ name wrapper,
    Dict.get? (stores P E operatorId calls).drafts name = some wrapper →
      ∃ pre call post returned s, calls = pre ++ call :: post ∧
        perform P E operatorId call (stores P E operatorId pre) = .ok returned s ∧
        Dict.get? (stores P E operatorId pre).drafts name ≠ some wrapper ∧
        s.drafts.get? name = some wrapper
  /-- Frozen records are never changed or removed. -/
  kept : ∀ pre post, calls = pre ++ post →
    (stores P E operatorId pre).Keeps (stores P E operatorId calls)
  /-- A frozen record is read under its id. -/
  read : ∀ location record,
    Dict.get? (stores P E operatorId calls).records location = some record →
      ∃ id, getD record "record_id" .none = .str id ∧
        FrozenRecordStore.read P E id (stores P E operatorId calls) = .ok record

/-- A longer run keeps the records of a shorter one. -/
theorem stores_keeps (pre post : List Call) :
    (stores P E operatorId pre).Keeps (stores P E operatorId (pre ++ post)) := by
  unfold stores
  rw [after_append]
  exact after_relation (fun _ _ _ h => h) (fun h h' => h.trans h') perform_keeps post _

theorem stores_filed (calls : List Call) : (stores P E operatorId calls).Filed P E :=
  after_invariant perform_filed calls Stores.filed_empty

/-- The stores after one more call. -/
theorem stores_snoc (pre : List Call) (call : Call) : stores P E operatorId (pre ++ [call]) =
      left (perform P E operatorId call (stores P E operatorId pre)) := by
  unfold stores
  rw [after_append]
  rfl

/-- The stores that a call which returned left behind are kept. -/
theorem keeps_of_returned {pre post : List Call} {returned : Returned} {s : Stores}
    (h : perform P E operatorId call (stores P E operatorId pre) = .ok returned s) :
    s.Keeps (stores P E operatorId (pre ++ call :: post)) := by
  have hs : s = stores P E operatorId (pre ++ [call]) := by
    rw [stores_snoc, h]
    rfl
  have hsplit : pre ++ call :: post = pre ++ [call] ++ post := List.append_cons pre call post
  rw [hs, hsplit]
  exact stores_keeps (pre ++ [call]) post

/-- **What the stores show at the end of a run whose calls are atomic, a call that returned brought
about.** -/
theorem exists_returned {β : Type} [DecidableEq β] {calls : List Call}
    (hatomic : ∀ pre call post, calls = pre ++ call :: post → ∀ e s,
      perform P E operatorId call (stores P E operatorId pre) = .error e s →
        s = stores P E operatorId pre)
    (view : Stores → β) {b : β} (hempty : view .empty ≠ b)
    (hend : view (stores P E operatorId calls) = b) :
    ∃ pre call post returned s, calls = pre ++ call :: post ∧
      perform P E operatorId call (stores P E operatorId pre) = .ok returned s ∧
      view (stores P E operatorId pre) ≠ b ∧ view s = b := by
  obtain ⟨pre, call, post, hcalls, hpre, hpost⟩ := exists_call_of_after hempty hend
  change view (stores P E operatorId pre) ≠ b at hpre
  change view (left (perform P E operatorId call (stores P E operatorId pre))) = b at hpost
  cases hrun : perform P E operatorId call (stores P E operatorId pre) with
  | ok returned s =>
    rw [hrun] at hpost
    exact ⟨pre, call, post, returned, s, hcalls, hrun, hpre, hpost⟩
  | error e s =>
    rw [hrun, hatomic pre call post hcalls e s hrun] at hpost
    exact absurd hpost hpre

/-- A run of two calls is not governed when the second is not atomic. -/
theorem not_governed_of_not_atomicAt {a b : Call}
    (h : ¬ Raising.AtomicAt id (perform P E operatorId b) (stores P E operatorId [a])) :
    ¬ Governed P E operatorId [a, b] := by
  intro hgoverned
  refine h ?_
  rw [Raising.atomicAt_iff]
  intro e s he
  exact congrArg id (hgoverned.atomic [a] b [] rfl e s he)

/-! ## Two saves at one moment -/

/-- The environment of concrete runs, which meet no record of another family. -/
def Environment.reference : Environment where
  lower := asciiLower
  lower_of_isAscii _ _ := rfl
  verifyPath2PreregRecord _ := .error (.validation (py "DMRP_PATH2_PREREG_INVALID"))
  verifyDmrpRecord _ := .error (.validation (py "DMRP_V02_INVALID"))
  validateBcwtPayload _ _ := .error (.validation (py "BCWT_R2_INVALID"))

/-- The draft of a case. -/
def caseDraft (title : String) : Record :=
  [(py "record_type", .str (py "CASE_BUNDLE")), (py "title", .str (py title))]

/-- The moment of both saves. -/
def moment : PyStr := py "2026-01-05T09:00:00Z"

/-- A case is created. -/
def createCase : Call := .createDraft (caseDraft "First") moment (py "case.save")

/-- The same case is saved under the same action, at the same moment, with another title. -/
def saveCase : Call :=
  .updateDraft ((draftIdOf .reference .reference (caseDraft "First")).toOption.getD [])
    (caseDraft "Second") moment (py "case.save")

theorem verify_of_freeze_event :
    ∃ event, verifyFrozenRecord .reference .reference event = .ok () := by
  have hsome : (freezeRecord .reference .reference (AuditRequest.draft (py "operator")
      ⟨py "case.save", py "case", py "DRAFT", [], moment, .none⟩) moment).toOption.isSome =
        true := by
    decide +kernel
  exact ⟨_, verify_of_freeze (eq_ok_getD hsome [])⟩

end OvcReplay.ResearchOps
