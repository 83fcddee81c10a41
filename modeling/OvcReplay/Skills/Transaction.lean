import OvcReplay.Python.Value
import OvcReplay.Python.Fallible

/-! # Integration transactions

`dias_transaction.py`: a durable state machine that is moved by events under a fence. Every event it
is given is recorded in its cursor; an event that moves nothing consumes its recovery budget. -/

namespace OvcReplay.Skills

open Python

/-- `DiasContractError`, with its message. -/
structure ContractError where
  message : PyStr
  deriving DecidableEq

/-! ## States -/

/-- The states of a transaction. -/
inductive TransactionState where
  | ready
  | admitted
  | applying
  | writeUnknown
  | materialised
  | receiptsPending
  | completed
  | deadLetter
  | quarantined
  deriving DecidableEq, Repr

namespace TransactionState

/-- The text of a state. -/
def text : TransactionState → PyStr
  | ready => py "READY"
  | admitted => py "ADMITTED"
  | applying => py "APPLYING"
  | writeUnknown => py "WRITE_UNKNOWN"
  | materialised => py "MATERIALISED"
  | receiptsPending => py "RECEIPTS_PENDING"
  | completed => py "COMPLETED"
  | deadLetter => py "DEAD_LETTER"
  | quarantined => py "QUARANTINED"

/-- All states. -/
def all : List TransactionState :=
  [ready, admitted, applying, writeUnknown, materialised, receiptsPending, completed, deadLetter,
    quarantined]

/-- The state of a text. -/
def ofText? (s : PyStr) : Option TransactionState := all.find? fun state => state.text = s

@[simp] theorem ofText?_text (state : TransactionState) : ofText? state.text = some state := by
  cases state <;> decide +kernel

/-- `TERMINAL_STATES`. -/
def Terminal : TransactionState → Prop
  | completed => True
  | deadLetter => True
  | quarantined => True
  | _ => False

instance : DecidablePred Terminal := fun state => by
  cases state <;> unfold Terminal <;> infer_instance

end TransactionState

open TransactionState

/-- `TRANSITIONS`. -/
def transitions : Dict (TransactionState × PyStr) TransactionState :=
  [((ready, py "ADMIT"), admitted),
    ((admitted, py "START_APPLY"), applying),
    ((applying, py "WRITE_CONFIRMED"), materialised),
    ((applying, py "WRITE_OUTCOME_UNKNOWN"), writeUnknown),
    ((writeUnknown, py "RECONSTRUCT_WRITE"), materialised),
    ((materialised, py "START_RECEIPTS"), receiptsPending),
    ((receiptsPending, py "RECEIPTS_CONFIRMED"), completed)]

/-- **Every transition is one of the table.** -/
theorem transition_cases {state target : TransactionState} {type : PyStr}
    (h : transitions.get? (state, type) = some target) :
    (state = ready ∧ type = py "ADMIT" ∧ target = admitted) ∨
    (state = admitted ∧ type = py "START_APPLY" ∧ target = applying) ∨
    (state = applying ∧ type = py "WRITE_CONFIRMED" ∧ target = materialised) ∨
    (state = applying ∧ type = py "WRITE_OUTCOME_UNKNOWN" ∧ target = writeUnknown) ∨
    (state = writeUnknown ∧ type = py "RECONSTRUCT_WRITE" ∧ target = materialised) ∨
    (state = materialised ∧ type = py "START_RECEIPTS" ∧ target = receiptsPending) ∨
    (state = receiptsPending ∧ type = py "RECEIPTS_CONFIRMED" ∧ target = completed) := by
  have hmem := Dict.mem_of_get? h
  simpa only [transitions, List.mem_cons, List.not_mem_nil, or_false, Prod.mk.injEq,
    and_assoc] using hmem

/-- No transition leaves a terminal state. -/
theorem transition_of_terminal {state : TransactionState} (h : state.Terminal) (type : PyStr) :
    transitions.get? (state, type) = none := by
  cases htgt : transitions.get? (state, type) with
  | none => rfl
  | some target =>
    rcases transition_cases htgt with ⟨rfl, -⟩ | ⟨rfl, -⟩ | ⟨rfl, -⟩ | ⟨rfl, -⟩ | ⟨rfl, -⟩ |
      ⟨rfl, -⟩ | ⟨rfl, -⟩ <;> exact h.elim

/-! ## Records -/

/-- The writer that a transaction obeys. -/
structure RouteFence where
  writerId : PyStr
  generation : Int
  fenceToken : PyStr
  writerId_ne_nil : writerId ≠ []
  generation_pos : 1 ≤ generation
  length_fenceToken : fenceToken.length = 64

/-- The events a transaction was given. -/
structure EventCursor where
  streamId : PyStr
  sequence : Int
  eventIds : List PyStr
  streamId_ne_nil : streamId ≠ []
  sequence_eq : sequence = eventIds.length
  nodup : eventIds.Nodup

/-- `EventCursor.append`. -/
def EventCursor.append (cursor : EventCursor) (eventId : PyStr) :
    Except ContractError EventCursor :=
  if eventId = [] then .error ⟨py "event id is required"⟩
  else if h : eventId ∈ cursor.eventIds then .ok cursor
  else .ok ⟨cursor.streamId, cursor.sequence + 1, cursor.eventIds ++ [eventId],
    cursor.streamId_ne_nil, by simp [cursor.sequence_eq],
    cursor.nodup.append (List.nodup_singleton _) (by simpa using h)⟩

/-- An event that moved nothing. -/
structure RecoveryEntry where
  attempt : Int
  reason : PyStr
  fromState : PyStr
  disposition : PyStr
  deriving DecidableEq

/-- An event, as the arguments of `apply_event`. -/
structure Event where
  eventId : PyStr
  eventType : PyStr
  writerId : PyStr
  generation : Int
  fenceToken : PyStr
  deriving DecidableEq

/-- `RouteFence.accepts`. -/
def RouteFence.Accepts (fence : RouteFence) (e : Event) : Prop :=
  e.writerId = fence.writerId ∧ e.generation = fence.generation ∧ e.fenceToken = fence.fenceToken

instance (fence : RouteFence) (e : Event) : Decidable (fence.Accepts e) :=
  inferInstanceAs (Decidable (_ ∧ _))

/-- An integration transaction. Its recovery history fits its budget, and it creates no authority:
`authority_effect` is `NONE`. -/
structure IntegrationTransaction where
  programmeId : PyStr
  packetId : PyStr
  pipId : PyStr
  ownerFactManifestId : PyStr
  triggerCoverageManifestId : PyStr
  routeFence : RouteFence
  state : TransactionState
  eventCursor : EventCursor
  idempotenceKey : PyStr
  recoveryBudget : Int
  recoveryHistory : List RecoveryEntry
  length_pipId : pipId.length = 64
  length_ownerFactManifestId : ownerFactManifestId.length = 64
  length_triggerCoverageManifestId : triggerCoverageManifestId.length = 64
  length_idempotenceKey : idempotenceKey.length = 64
  history_le : (recoveryHistory.length : Int) ≤ recoveryBudget

namespace IntegrationTransaction

/-! ## Events -/

variable (t : IntegrationTransaction)

/-- The reason of an event that moves nothing. -/
def invalidTransition (e : Event) : PyStr :=
  py "INVALID_TRANSITION:" ++ t.state.text ++ py ":" ++ e.eventType

/-- `_record_recovery`. -/
def recordRecovery (eventId reason : PyStr) : Except ContractError IntegrationTransaction :=
  let attempt : Int := t.recoveryHistory.length + 1
  if h : attempt ≤ t.recoveryBudget then do
    let cursor ← t.eventCursor.append eventId
    return { t with
      recoveryHistory := t.recoveryHistory ++ [⟨attempt, reason, t.state.text, py "RECONCILE"⟩]
      eventCursor := cursor
      history_le := by
        rw [List.length_append, Nat.cast_add]
        exact h }
  else do
    -- the attempt over budget is not stored
    let cursor ← t.eventCursor.append eventId
    return { t with state := deadLetter, eventCursor := cursor }

/-- `apply_event`. -/
def applyEvent (e : Event) : Except ContractError IntegrationTransaction :=
  if e.eventId ∈ t.eventCursor.eventIds then .ok t
  else if ¬ t.routeFence.Accepts e then do
    let cursor ← t.eventCursor.append e.eventId
    return { t with state := quarantined, eventCursor := cursor }
  else
    match transitions.get? (t.state, e.eventType) with
    | none => t.recordRecovery e.eventId (t.invalidTransition e)
    | some target => do
      let cursor ← t.eventCursor.append e.eventId
      return { t with state := target, eventCursor := cursor }

/-- **What a new event does to the state and to the recovery history.** -/
inductive Moves (t : IntegrationTransaction) (e : Event) :
    TransactionState → List RecoveryEntry → Prop
  | foreign (hfence : ¬ t.routeFence.Accepts e) : Moves t e quarantined t.recoveryHistory
  | moved (hfence : t.routeFence.Accepts e) {target : TransactionState}
      (htarget : transitions.get? (t.state, e.eventType) = some target) :
      Moves t e target t.recoveryHistory
  | recovered (hfence : t.routeFence.Accepts e)
      (hnone : transitions.get? (t.state, e.eventType) = none)
      (hbudget : (t.recoveryHistory.length : Int) < t.recoveryBudget) :
      Moves t e t.state (t.recoveryHistory ++
        [⟨t.recoveryHistory.length + 1, t.invalidTransition e, t.state.text, py "RECONCILE"⟩])
  | exhausted (hfence : t.routeFence.Accepts e)
      (hnone : transitions.get? (t.state, e.eventType) = none)
      (hbudget : t.recoveryBudget ≤ t.recoveryHistory.length) :
      Moves t e deadLetter t.recoveryHistory

/-- A new event was recorded: the rest of the transaction is as it was. -/
structure Records (t : IntegrationTransaction) (e : Event) (t' : IntegrationTransaction) : Prop where
  new : e.eventId ∉ t.eventCursor.eventIds
  named : e.eventId ≠ []
  moves : Moves t e t'.state t'.recoveryHistory
  eventIds : t'.eventCursor.eventIds = t.eventCursor.eventIds ++ [e.eventId]
  routeFence : t'.routeFence = t.routeFence
  recoveryBudget : t'.recoveryBudget = t.recoveryBudget

end IntegrationTransaction

theorem EventCursor.append_ok {cursor cursor' : EventCursor} {eventId : PyStr}
    (hnew : eventId ∉ cursor.eventIds) (h : cursor.append eventId = .ok cursor') :
    eventId ≠ [] ∧ cursor'.eventIds = cursor.eventIds ++ [eventId] := by
  rw [append] at h
  by_cases hnil : eventId = []
  · simp [hnil] at h
  · rw [if_neg hnil, dif_neg hnew, Except.ok.injEq] at h
    exact ⟨hnil, h ▸ rfl⟩

theorem EventCursor.returns_append (cursor : EventCursor) {eventId : PyStr}
    (hnamed : eventId ≠ []) : Returns (cursor.append eventId) := by
  rw [append, if_neg hnamed]
  split
  · exact ⟨_, rfl⟩
  · exact ⟨_, rfl⟩

namespace IntegrationTransaction

variable {t t' : IntegrationTransaction} {e : Event}

theorem applyEvent_of_mem (h : e.eventId ∈ t.eventCursor.eventIds) : t.applyEvent e = .ok t :=
  if_pos h

/-- **A call that returns left everything as it was or recorded the event.** -/
theorem applyEvent_ok (h : t.applyEvent e = .ok t') :
    (e.eventId ∈ t.eventCursor.eventIds ∧ t' = t) ∨ Records t e t' := by
  rw [applyEvent] at h
  by_cases hnew : e.eventId ∈ t.eventCursor.eventIds
  · rw [if_pos hnew, Except.ok.injEq] at h
    exact .inl ⟨hnew, h.symm⟩
  · right
    rw [if_neg hnew] at h
    have hrecs : ∀ {record}, t.eventCursor.append e.eventId >>= record = .ok t' →
        ∃ cursor, record cursor = .ok t' ∧ e.eventId ≠ [] ∧
          cursor.eventIds = t.eventCursor.eventIds ++ [e.eventId] := by
      intro record h
      obtain ⟨cursor, hcursor, h⟩ := bind_ok.mp h
      exact ⟨cursor, h, EventCursor.append_ok hnew hcursor⟩
    by_cases hfence : t.routeFence.Accepts e
    · rw [if_neg (not_not_intro hfence)] at h
      cases htgt : transitions.get? (t.state, e.eventType) with
      | some target =>
        rw [htgt] at h
        obtain ⟨cursor, ⟨⟩, hnamed, hids⟩ := hrecs h
        exact ⟨hnew, hnamed, .moved hfence htgt, hids, rfl, rfl⟩
      | none =>
        simp only [htgt, recordRecovery] at h
        by_cases hbudget : (t.recoveryHistory.length : Int) + 1 ≤ t.recoveryBudget
        · rw [dif_pos hbudget] at h
          obtain ⟨cursor, ⟨⟩, hnamed, hids⟩ := hrecs h
          exact ⟨hnew, hnamed, .recovered hfence htgt hbudget, hids, rfl, rfl⟩
        · rw [dif_neg hbudget] at h
          obtain ⟨cursor, ⟨⟩, hnamed, hids⟩ := hrecs h
          exact ⟨hnew, hnamed, .exhausted hfence htgt (by omega), hids, rfl, rfl⟩
    · rw [if_pos hfence] at h
      obtain ⟨cursor, ⟨⟩, hnamed, hids⟩ := hrecs h
      exact ⟨hnew, hnamed, .foreign hfence, hids, rfl, rfl⟩

/-- Only an event without an id is refused. -/
theorem returns_applyEvent (hnamed : e.eventId ≠ []) : Returns (t.applyEvent e) := by
  obtain ⟨cursor, hcursor⟩ := t.eventCursor.returns_append hnamed
  rw [applyEvent]
  split
  · exact ⟨_, rfl⟩
  · split
    · exact ⟨_, bind_intro hcursor rfl⟩
    · split
      · rw [recordRecovery]
        split
        · exact ⟨_, bind_intro hcursor rfl⟩
        · exact ⟨_, bind_intro hcursor rfl⟩
      · exact ⟨_, bind_intro hcursor rfl⟩

end IntegrationTransaction

end OvcReplay.Skills
