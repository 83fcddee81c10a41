import OvcReplay.ResearchOps.Storage

/-! # What governed writes keep

A governed write is a first write and an audit write. What one call can do is said once; from it
follow what every run keeps, whatever the calls, and what it keeps when the audit event of every
first write fits. -/

namespace OvcReplay

open Python Json

namespace ResearchOps

open Raising (ends ends_bind ends_lift ends_mono ends_of_ok ends_of_error bind_of_ok bind_of_error)

variable {P : Platform} {E : Environment} {operatorId : PyStr}

/-! ## Single writes -/

/-- The stores with one more frozen record. -/
def Stores.withRecord (s : Stores) (location : Location) (record : Record) : Stores :=
  { s with records := s.records.set location record }

/-- The stores with a draft. -/
def Stores.withDraft (s : Stores) (wrapper : Wrapper) : Stores :=
  { s with drafts := s.drafts.set (safeName wrapper.draftId) wrapper }

variable (P E) in
/-- A record that can be stored, and where. -/
def Stores.Admits (s : Stores) (record : Record) (location : Location) : Prop :=
  admitted P E record = .ok location ∧ s.records.get? location = none

/-- **`write` stores a record where there is none, or raises and stores nothing.** -/
theorem write_ends (record : Record) (s : Stores) : ends (FrozenRecordStore.write P E record)
      (fun location s' => s.Admits P E record location ∧ s' = s.withRecord location record)
      (fun _ s' => s' = s ∧ ¬ ∃ location, s.Admits P E record location) s := by
  unfold FrozenRecordStore.write
  rw [ends_bind, ends_lift]
  constructor
  · intro location hloc
    rw [ends_bind, Raising.ends_get, ends_bind, Raising.ends_require]
    constructor
    · intro hfresh
      exact ⟨⟨hloc, hfresh⟩, rfl⟩
    · intro hstored
      refine ⟨rfl, ?_⟩
      rintro ⟨other, hother, hfresh⟩
      cases hother.symm.trans hloc
      exact hstored hfresh
  · intro e he
    refine ⟨rfl, ?_⟩
    rintro ⟨location, hloc, -⟩
    rw [he] at hloc
    cases hloc

variable (P E operatorId) in
/-- The event of a request can be frozen and stored. -/
def Stores.Auditable (s : Stores) (request : AuditRequest) : Prop :=
  ∃ event location, auditEvent P E operatorId request = .ok event ∧ s.Admits P E event location

/-- **`_audit` stores the event of its request when it fits, or raises and stores nothing.** -/
theorem audit_ends (request : AuditRequest) (s : Stores) : ends (audit P E operatorId request)
      (fun event s' => auditEvent P E operatorId request = .ok event ∧
        ∃ location, s.Admits P E event location ∧ s' = s.withRecord location event)
      (fun _ s' => s' = s ∧ ¬ s.Auditable P E operatorId request) s := by
  unfold audit
  rw [ends_bind, ends_lift]
  constructor
  · intro event hev
    rw [ends_bind]
    refine ends_mono ?_ ?_ (write_ends event s)
    · rintro location s' ⟨hadmits, rfl⟩
      exact ⟨hev, location, hadmits, rfl⟩
    · rintro e s' ⟨rfl, hnone⟩
      refine ⟨rfl, ?_⟩
      rintro ⟨other, location, hother, hadmits⟩
      cases hother.symm.trans hev
      exact hnone ⟨location, hadmits⟩
  · intro e he
    refine ⟨rfl, ?_⟩
    rintro ⟨event, location, hev, -⟩
    rw [he] at hev
    cases hev

/-! ## First writes -/

variable (P E) in
/-- **What a call can do before its audit event**, and the object that the event names. -/
inductive Change (s : Stores) : Call → Written → Stores → Prop
  | created (record : Record) (time action : PyStr) (draftId : PyStr) :
      Change s (.createDraft record time action)
        ⟨draftRequest action draftId time record, fun _ => .id draftId⟩
        (s.withDraft ⟨draftId, record⟩)
  | updated (draftId : PyStr) (record : Record) (time action : PyStr) :
      Change s (.updateDraft draftId record time action)
        ⟨draftRequest action draftId time record, fun _ => .none⟩
        (s.withDraft ⟨draftId, record⟩)
  | frozen {call : Call} {record : Record} {location : Location} {frozenAt action : PyStr}
      (hcall : call.Freezes) (hadmits : s.Admits P E record location) :
      Change s call
        ⟨⟨action, recordIdOf record, py "PASS", location.text, frozenAt,
          getD record "source_release_refs" (.list [])⟩, fun _ => .record record⟩
        (s.withRecord location record)
  | emitted (request : AuditRequest) : Change s (.emitAudit request) ⟨request, .record⟩ s

theorem writeFrozen_ends {call : Call} (hcall : call.Freezes)
    (record : Record) (frozenAt action : PyStr) (s : Stores) :
    ends (writeFrozen P E record frozenAt action) (Change P E s call) (fun _ s' => s' = s) s := by
  unfold writeFrozen
  rw [ends_bind]
  refine ends_mono ?_ ?_ (write_ends record s)
  · rintro location s' ⟨hadmits, rfl⟩
    exact .frozen hcall hadmits
  · intro e s' h
    exact h.1

theorem freezeNew_ends {call : Call} (hcall : call.Freezes)
    (draft : Record) (frozenAt action : PyStr) (s : Stores) :
    ends (freezeNew P E draft frozenAt action) (Change P E s call) (fun _ s' => s' = s) s := by
  unfold freezeNew
  rw [ends_bind, ends_lift]
  exact ⟨fun frozen _ => writeFrozen_ends hcall frozen frozenAt action s, fun _ _ => rfl⟩

theorem createDraft_ends (record : Record) (time action : PyStr) (s : Stores) :
    ends (createDraft P E record time action) (Change P E s (.createDraft record time action))
      (fun _ s' => s' = s) s := by
  unfold createDraft DraftStore.create
  rw [ends_bind, ends_bind, ends_lift]
  refine ⟨fun draftId _ => ?_, fun _ _ => rfl⟩
  dsimp only
  rw [ends_bind, ends_lift]
  refine ⟨fun _ _ => ?_, fun _ _ => rfl⟩
  rw [ends_bind, Raising.ends_get, ends_bind, Raising.ends_require]
  exact ⟨fun _ => .created record time action draftId, fun _ => rfl⟩

theorem updateDraft_ends (draftId : PyStr) (record : Record) (time action : PyStr) (s : Stores) :
    ends (updateDraft P draftId record time action)
      (Change P E s (.updateDraft draftId record time action)) (fun _ s' => s' = s) s := by
  unfold updateDraft DraftStore.replace
  rw [ends_bind, ends_bind, Raising.ends_get, ends_bind, Raising.ends_require]
  refine ⟨fun _ => ?_, fun _ => rfl⟩
  rw [ends_bind, ends_lift]
  exact ⟨fun _ _ => .updated draftId record time action, fun _ _ => rfl⟩

/-- **Before its audit event a call raises without a write, or does what a `Change` says.** -/
theorem first_ends (call : Call) (s : Stores) :
    ends (first P E call) (Change P E s call) (fun _ s' => s' = s) s := by
  cases call with
  | createDraft record time action => exact createDraft_ends record time action s
  | updateDraft draftId record time action => exact updateDraft_ends draftId record time action s
  | freezeDraft draftId frozenAt action =>
    unfold first freezeDraft
    rw [ends_bind, Raising.ends_get, ends_bind, ends_lift]
    exact ⟨fun draft _ => freezeNew_ends (by trivial) draft frozenAt action s, fun _ _ => rfl⟩
  | freezeNew draft frozenAt action =>
    exact freezeNew_ends (by trivial) draft frozenAt action s
  | supersede originalId replacement frozenAt =>
    unfold first supersede
    rw [ends_bind, Raising.ends_get, ends_bind, ends_lift]
    refine ⟨fun original _ => ?_, fun _ _ => rfl⟩
    rw [ends_bind, ends_lift]
    exact ⟨fun pair _ => writeFrozen_ends (by trivial) pair.2 frozenAt _ s, fun _ _ => rfl⟩
  | emitAudit request => exact .emitted request

/-! ## Calls -/

variable (P E operatorId) in
/-- **The audit event fits**: when the call gets to its first write and that write changes the
stores, the audit event of its request freezes and its file does not exist. -/
def AuditFits (call : Call) (s : Stores) : Prop :=
  ∀ written s', first P E call s = .ok written s' → s' ≠ s →
    s'.Auditable P E operatorId written.request

/-- **What a call does.** It returns after a change and the event of that change, or it raises:
with the stores as they were, or with the change and without an event that could be stored. -/
theorem perform_ends (call : Call) (s : Stores) : ends (perform P E operatorId call)
      (fun returned s' => ∃ written changed event location, Change P E s call written changed ∧
        auditEvent P E operatorId written.request = .ok event ∧
        changed.Admits P E event location ∧ s' = changed.withRecord location event ∧
        returned = written.returned event)
      (fun _ s' => s' = s ∨ ∃ written, first P E call s = .ok written s' ∧
        Change P E s call written s' ∧ ¬ s'.Auditable P E operatorId written.request) s := by
  have hfst : ends (first P E call) _ _ s := first_ends call s
  unfold perform governed
  cases hrun : first P E call s with
  | error e s' =>
    rw [ends_of_error hrun] at hfst
    rw [ends_of_error (bind_of_error hrun)]
    exact .inl hfst
  | ok written changed =>
    rw [ends_of_ok hrun] at hfst
    rw [ends_bind, ends_of_ok hrun, ends_bind]
    refine ends_mono ?_ ?_ (audit_ends written.request changed)
    · rintro event s' ⟨hev, location, hadmits, rfl⟩
      exact ⟨written, changed, event, location, hfst, hev, hadmits, rfl, rfl⟩
    · rintro e s' ⟨rfl, hnot⟩
      exact .inr ⟨written, rfl, hfst, hnot⟩

/-- A call that gets to a request that cannot be audited raises with its first write kept. -/
theorem perform_of_not_auditable {call : Call} {s s' : Stores} {written : Written}
    (hfst : first P E call s = .ok written s')
    (hnot : ¬ s'.Auditable P E operatorId written.request) :
    ∃ e, perform P E operatorId call s = .error e s' := by
  have haudit : ends (audit P E operatorId written.request) _ _ s' := audit_ends written.request s'
  unfold perform governed
  rw [bind_of_ok hfst]
  cases hrun : audit P E operatorId written.request s' with
  | ok event s₁ =>
    rw [ends_of_ok hrun] at haudit
    obtain ⟨hev, location, hadmits, -⟩ := haudit
    exact absurd ⟨event, location, hev, hadmits⟩ hnot
  | error e s₁ =>
    rw [ends_of_error hrun] at haudit
    exact ⟨e, by rw [bind_of_error hrun, haudit.1]⟩

/-- **A call leaves the stores alone when it raises, if and only if its audit event fits.** -/
theorem atomic_iff (call : Call) (s : Stores) :
    (∀ e s', perform P E operatorId call s = .error e s' → s' = s) ↔
      AuditFits P E operatorId call s := by
  constructor
  · intro h written s' hfst hchg
    by_contra hnot
    obtain ⟨e, he⟩ := perform_of_not_auditable hfst hnot
    exact hchg (h e s' he)
  · intro hfits e s' he
    have hends : ends (perform P E operatorId call) _ _ s := perform_ends call s
    rw [ends_of_error he] at hends
    rcases hends with rfl | ⟨written, hfst, -, hnot⟩
    · rfl
    · by_contra hchg
      exact hnot (hfits written s' hfst hchg)

end ResearchOps

end OvcReplay
