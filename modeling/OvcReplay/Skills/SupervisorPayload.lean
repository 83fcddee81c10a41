import OvcReplay.Json.Stable
import OvcReplay.Skills.SupervisorSteps

/-! # The payload of the persistent supervisor

`to_payload`, `from_payload` and `zero_chat_restart`: what the durable state is written down as, and
what is read back of it through JSON. -/

namespace OvcReplay.Skills

open List Python Json

namespace Supervisor

/-! ## Writing -/

/-- The record of a dispatch as a dictionary, its keys in the order of JSON. -/
def Transaction.asDict (t : Transaction) : Record :=
  [(py "dispatch_id", .str t.dispatchId), (py "fencing_generation", .int t.fencingGeneration),
    (py "phase", .str t.phase.text), (py "reason", .ofStr? t.reason),
    (py "worker_run_id", .ofStr? t.workerRunId)]

/-- The record of an owner as a dictionary, its keys in the order of JSON. -/
def Ownership.asDict (o : Ownership) : Record :=
  [(py "authoritative", .bool o.authoritative), (py "dispatch_id", .str o.dispatchId),
    (py "fencing_generation", .int o.fencingGeneration),
    (py "heartbeat_sequence", .int o.heartbeatSequence),
    (py "worker_run_id", .str o.workerRunId)]

/-- `{key: write(d[key]) for key in sorted(d)}`. -/
def writeDict {α : Type} (write : α → PyVal) (d : Dict PyStr α) : PyVal :=
  .ofRecord ((sortedBy Prod.fst d).map fun p => (p.1, write p.2))

/-- `to_payload`. -/
def toPayload (s : DurableSupervisorState) : Record :=
  [(py "supervisor_scope", .str s.supervisorScope),
    (py "fencing_generation", .int s.fencingGeneration),
    (py "lease_holder", .ofStr? s.leaseHolder),
    (py "lease_active", .bool s.leaseActive),
    (py "quiescence_mode", .str s.quiescenceMode.text),
    (py "event_watermarks", writeDict .int s.eventWatermarks),
    (py "event_identities", writeDict .str s.eventIdentities),
    (py "sweep_identities", .ofStrs s.sweepIdentities),
    (py "transactions", writeDict (fun t => .ofRecord t.asDict) s.transactions),
    (py "ownership", writeDict (fun o => .ofRecord o.asDict) s.ownership),
    (py "last_reconciliation_id", .ofStr? s.lastReconciliationId),
    (py "provider_attempts", writeDict .int s.providerAttempts),
    (py "chat_dependency_count", .int 0)]

/-! ## Reading -/

variable (P : Platform) (intOf : PyVal → Except PyError Int)

/-- `int(v)`, with the integer of what is none given. -/
def toInt : PyVal → Except PyError Int
  | .int z => .ok z
  | v => intOf v

/-- `str(k)` of a key. -/
def keyOf : PyKey → Except PyError PyStr
  | .str s => .ok s
  | .none => PyVal.strOf P .none
  | .bool b => PyVal.strOf P (.bool b)
  | .int z => PyVal.strOf P (.int z)
  | .other text => .ok text

/-- `{str(k): read(v) for k, v in dict(items).items()}` of a mapping. -/
def readDict {α : Type} (read : PyVal → Except PyError α) : PyVal → Except PyError (Dict PyStr α)
  | .dict items => do
    let pairs ← items.mapM fun p => do
      let key ← keyOf P p.1
      let value ← read p.2
      return (key, value)
    return Dict.ofItems pairs
  | _ => .error .typeError

/-- `[str(v) for v in values]` of a sequence. -/
def readStrs : PyVal → Except PyError (List PyStr)
  | .list xs => xs.mapM (PyVal.strOf P)
  | .tuple xs => xs.mapM (PyVal.strOf P)
  | _ => .error .typeError

/-- A text that is stored. -/
def storedStr : Option PyVal → Except PyError PyStr
  | some (.str s) => .ok s
  | _ => .error .typeError

/-- A text or `None` that is stored. -/
def storedStr? : Option PyVal → Except PyError (Option PyStr)
  | some (.str s) => .ok (some s)
  | some .none => .ok none
  | none => .ok none
  | _ => .error .typeError

/-- An integer that is stored. -/
def storedInt : Option PyVal → Except PyError Int
  | some (.int z) => .ok z
  | _ => .error .typeError

/-- A truth value that is stored. -/
def storedBool : Option PyVal → Except PyError Bool
  | some (.bool b) => .ok b
  | _ => .error .typeError

/-- A phase that is stored. -/
def storedPhase (v : Option PyVal) : Except PyError Phase := do
  let text ← storedStr v
  match Phase.ofText? text with
  | some phase => return phase
  | none => throw .valueError

/-- `dict(v)` of the record of a dispatch. -/
def Transaction.ofDict (v : PyVal) : Except PyError Transaction := do
  let dispatchId ← storedStr (v.get? (py "dispatch_id"))
  let phase ← storedPhase (v.get? (py "phase"))
  let fencingGeneration ← storedInt (v.get? (py "fencing_generation"))
  let workerRunId ← storedStr? (v.get? (py "worker_run_id"))
  let reason ← storedStr? (v.get? (py "reason"))
  return ⟨dispatchId, phase, fencingGeneration, workerRunId, reason⟩

/-- `dict(v)` of the record of an owner. -/
def Ownership.ofDict (v : PyVal) : Except PyError Ownership := do
  let dispatchId ← storedStr (v.get? (py "dispatch_id"))
  let workerRunId ← storedStr (v.get? (py "worker_run_id"))
  let fencingGeneration ← storedInt (v.get? (py "fencing_generation"))
  let heartbeatSequence ← storedInt (v.get? (py "heartbeat_sequence"))
  let authoritative ← storedBool (v.get? (py "authoritative"))
  return ⟨dispatchId, workerRunId, fencingGeneration, heartbeatSequence, authoritative⟩

/-- `payload.get(key, default)`. -/
def field (payload : PyVal) (key : String) (default : PyVal) : PyVal :=
  (payload.get? (py key)).getD default

/-- What the constructor of the state checks. -/
def checkedState (mode : PyStr) (generation : Int) :
    Except SupervisorError (ServiceMode × Nat) := do
  match ServiceMode.ofText? mode with
  | none => throw (.value (py "UNKNOWN_QUIESCENCE_MODE"))
  | some mode => do
    check (0 ≤ generation) (.value (py "INVALID_FENCING_GENERATION"))
    return (mode, generation.toNat)

/-- `from_payload`. -/
def fromPayload (payload : PyVal) : Except SupervisorError DurableSupervisorState := do
  let dependencies ←
    (toInt intOf (field payload "chat_dependency_count" (.int 0))).mapError .python
  check (dependencies = 0) (SupervisorError.value (py "CHAT_STATE_DEPENDENCY_FORBIDDEN"))
  let supervisorScope ← match payload.get? (py "supervisor_scope") with
    | some v => (PyVal.strOf P v).mapError .python
    | none => throw (.key (py "supervisor_scope"))
  let generation ← (toInt intOf (field payload "fencing_generation" (.int 0))).mapError .python
  let leaseHolder ← (storedStr? (payload.get? (py "lease_holder"))).mapError .python
  let leaseActive := (field payload "lease_active" (.bool false)).truthy
  let mode ← (PyVal.strOf P
    (field payload "quiescence_mode" (.str (py "DISABLE_NEW_DISPATCH")))).mapError .python
  let eventWatermarks ←
    (readDict P (toInt intOf) (field payload "event_watermarks" (.dict []))).mapError .python
  let eventIdentities ←
    (readDict P (PyVal.strOf P) (field payload "event_identities" (.dict []))).mapError .python
  let sweepIdentities ←
    (readStrs P (field payload "sweep_identities" (.tuple []))).mapError .python
  let transactions ←
    (readDict P Transaction.ofDict (field payload "transactions" (.dict []))).mapError .python
  let ownership ←
    (readDict P Ownership.ofDict (field payload "ownership" (.dict []))).mapError .python
  let lastReconciliationId ←
    (storedStr? (payload.get? (py "last_reconciliation_id"))).mapError .python
  let providerAttempts ←
    (readDict P (toInt intOf) (field payload "provider_attempts" (.dict []))).mapError .python
  let checked ← checkedState mode generation
  return {
    supervisorScope
    fencingGeneration := checked.2
    leaseHolder
    leaseActive
    quiescenceMode := checked.1
    eventWatermarks
    eventIdentities
    sweepIdentities
    transactions
    ownership
    lastReconciliationId
    providerAttempts }

/-- `zero_chat_restart` from the payload of a state that was passed through JSON. -/
def zeroChatRestart (floatOf : FloatOfText) (s : DurableSupervisorState) :
    Except SupervisorError DurableSupervisorState := do
  let payload ← (roundTrip floatOf P (.ofRecord (toPayload s))).mapError .python
  fromPayload P intOf payload

/-! ## What is read back -/

variable {P intOf} {s : DurableSupervisorState}

/-- The keys of the maps of a state are distinct. -/
structure DistinctKeys (s : DurableSupervisorState) : Prop where
  eventWatermarks : s.eventWatermarks.keys.Nodup
  eventIdentities : s.eventIdentities.keys.Nodup
  transactions : s.transactions.keys.Nodup
  ownership : s.ownership.keys.Nodup
  providerAttempts : s.providerAttempts.keys.Nodup

/-- The integer has a text: `int.__repr__` does not refuse it. -/
def HasText (z : Int) : Prop := z.natAbs < 10 ^ maxStrDigits

/-- The integers of a state have texts. -/
structure Writable (s : DurableSupervisorState) : Prop where
  fencingGeneration : HasText s.fencingGeneration
  eventWatermarks : ∀ p ∈ s.eventWatermarks, HasText p.2
  transactions : ∀ p ∈ s.transactions, HasText p.2.fencingGeneration
  ownership : ∀ p ∈ s.ownership, HasText p.2.fencingGeneration ∧ HasText p.2.heartbeatSequence
  providerAttempts : ∀ p ∈ s.providerAttempts, HasText p.2

/-- The state with the items of its maps in the order of their keys. -/
def DurableSupervisorState.sorted (s : DurableSupervisorState) : DurableSupervisorState :=
  { s with
    eventWatermarks := sortedBy Prod.fst s.eventWatermarks
    eventIdentities := sortedBy Prod.fst s.eventIdentities
    transactions := sortedBy Prod.fst s.transactions
    ownership := sortedBy Prod.fst s.ownership
    providerAttempts := sortedBy Prod.fst s.providerAttempts }

theorem nodup_keys_sorted {α : Type} {d : Dict PyStr α} (hd : d.keys.Nodup) :
    (Dict.keys (sortedBy Prod.fst d)).Nodup :=
  ((sortedBy_perm Prod.fst d).map Prod.fst).nodup_iff.mpr hd

theorem stable_writeDict {α : Type} {write : α → PyVal} {d : Dict PyStr α}
    (hd : d.keys.Nodup) (h : ∀ p ∈ d, Stable (write p.2)) : Stable (writeDict write d) := by
  refine .record ?_ ?_ ?_
  · rw [Dict.keys, map_map]
    exact nodup_keys_sorted hd
  · exact pairwise_map.mpr (sortedBy_pairwise Prod.fst d)
  · intro q hq
    obtain ⟨p, hp, rfl⟩ := mem_map.mp hq
    exact h p (mem_sortedBy.mp hp)

/-- **What is written value by value is read in the order of the keys.** -/
theorem readDict_writeDict {α : Type} {write : α → PyVal} {read : PyVal → Except PyError α}
    {d : Dict PyStr α} (hd : d.keys.Nodup) (h : ∀ v, read (write v) = .ok v) :
    readDict P read (writeDict write d) = .ok (sortedBy Prod.fst d) := by
  have hitems : ∀ items : List (PyStr × α),
      ((items.map fun p => (p.1, write p.2)).map fun p => (PyKey.str p.1, p.2)).mapM
        (fun p => do
          let key ← keyOf P p.1
          let value ← read p.2
          return (key, value)) = .ok items := by
    intro items
    induction items with
    | nil => rfl
    | cons p items ih =>
      rw [map_cons, map_cons, mapM_cons, ih]
      simp only [keyOf, h, bind, Except.bind, pure, Except.pure]
  rw [writeDict, PyVal.ofRecord, readDict, hitems]
  simp only [bind, Except.bind, pure, Except.pure]
  rw [Dict.ofItems_eq_self (nodup_keys_sorted hd)]

@[simp] theorem Phase.ofText?_text (phase : Phase) : Phase.ofText? phase.text = some phase := by
  cases phase <;> decide

@[simp] theorem ServiceMode.ofText?_text (mode : ServiceMode) :
    ServiceMode.ofText? mode.text = some mode := by
  cases mode <;> decide

@[simp] theorem storedStr?_ofStr? (text : Option PyStr) :
    storedStr? (some (.ofStr? text)) = .ok text := by
  cases text <;> rfl

/-- **The record of a dispatch is read back.** -/
theorem Transaction.ofDict_asDict (t : Transaction) :
    Transaction.ofDict (.ofRecord t.asDict) = .ok t := by
  simp [Transaction.ofDict, Transaction.asDict, storedStr, storedInt, storedPhase, bind,
    Except.bind, pure, Except.pure]

/-- **The record of an owner is read back.** -/
theorem Ownership.ofDict_asDict (o : Ownership) :
    Ownership.ofDict (.ofRecord o.asDict) = .ok o := by
  simp [Ownership.ofDict, Ownership.asDict, storedStr, storedInt, storedBool, bind, Except.bind,
    pure, Except.pure]

/-- The keys that were written are sorted. -/
theorem sorted_keys_transaction (t : Transaction) : t.asDict.Pairwise fun p q => p.1 ≤ q.1 := by
  have hkeys : [py "dispatch_id", py "fencing_generation", py "phase", py "reason",
      py "worker_run_id"].Pairwise (· ≤ ·) := by decide
  exact pairwise_map.mp (show (t.asDict.map Prod.fst).Pairwise (· ≤ ·) from hkeys)

theorem sorted_keys_ownership (o : Ownership) : o.asDict.Pairwise fun p q => p.1 ≤ q.1 := by
  have hkeys : [py "authoritative", py "dispatch_id", py "fencing_generation",
      py "heartbeat_sequence", py "worker_run_id"].Pairwise (· ≤ ·) := by decide
  exact pairwise_map.mp (show (o.asDict.map Prod.fst).Pairwise (· ≤ ·) from hkeys)

theorem stable_transaction {t : Transaction} (h : HasText t.fencingGeneration) :
    Stable (.ofRecord t.asDict) := by
  refine .record (by simp [Transaction.asDict, Dict.keys]) (sorted_keys_transaction t) ?_
  simp [Transaction.asDict, Stable.str, Stable.int h, Stable.ofStr?]

theorem stable_ownership {o : Ownership} (h : HasText o.fencingGeneration)
    (hbeat : HasText o.heartbeatSequence) : Stable (.ofRecord o.asDict) := by
  refine .record (by simp [Ownership.asDict, Dict.keys]) (sorted_keys_ownership o) ?_
  simp [Ownership.asDict, Stable.str, Stable.bool, Stable.int h, Stable.int hbeat]

theorem nodup_keys_toPayload (s : DurableSupervisorState) : (Dict.keys (toPayload s)).Nodup := by
  simp [toPayload, Dict.keys]

theorem hasText_zero : HasText 0 := by
  rw [HasText, Int.natAbs_zero]
  exact Nat.pow_pos (by decide)

/-- **A payload through JSON** is the payload with its fields sorted. -/
theorem roundTrip_toPayload {floatOf : FloatOfText} (hkeys : DistinctKeys s) (h : Writable s) :
    roundTrip floatOf P (.ofRecord (toPayload s)) =
      .ok (.ofRecord (sortedBy Prod.fst (toPayload s))) := by
  refine roundTrip_ofRecord (nodup_keys_toPayload s) ?_
  have hwatermarks : Stable (writeDict .int s.eventWatermarks) :=
    stable_writeDict hkeys.eventWatermarks fun p hp => .int (h.eventWatermarks p hp)
  have hidents : Stable (writeDict .str s.eventIdentities) :=
    stable_writeDict hkeys.eventIdentities fun p _ => .str p.2
  have htrans : Stable (writeDict (fun t => .ofRecord t.asDict) s.transactions) :=
    stable_writeDict hkeys.transactions fun p hp => stable_transaction (h.transactions p hp)
  have hownership : Stable (writeDict (fun o => .ofRecord o.asDict) s.ownership) :=
    stable_writeDict hkeys.ownership fun p hp =>
      stable_ownership (h.ownership p hp).1 (h.ownership p hp).2
  have hatts : Stable (writeDict .int s.providerAttempts) :=
    stable_writeDict hkeys.providerAttempts fun p hp => .int (h.providerAttempts p hp)
  simp [toPayload, Stable.str, Stable.bool, Stable.ofStr?, Stable.ofStrs, hwatermarks,
    hidents, htrans, hownership, hatts, Stable.int h.fencingGeneration,
    Stable.int hasText_zero]

theorem readStrs_ofStrs (xs : List PyStr) : readStrs P (.ofStrs xs) = .ok xs := by
  rw [PyVal.ofStrs, readStrs]
  induction xs with
  | nil => rfl
  | cons x xs ih =>
    rw [map_cons, mapM_cons, ih]
    rfl

/-- A field of the payload that was read back. -/
theorem get?_payload (s : DurableSupervisorState) (key : PyStr) :
    (PyVal.ofRecord (sortedBy Prod.fst (toPayload s))).get? key = Dict.get? (toPayload s) key := by
  rw [PyVal.get?_ofRecord]
  exact Dict.get?_of_perm (nodup_keys_sorted (nodup_keys_toPayload s)) (sortedBy_perm _ _) key

/-- **A restart restores the state**, with the items of its maps in the order of their keys. -/
theorem zeroChatRestart_eq {floatOf : FloatOfText} (hkeys : DistinctKeys s) (h : Writable s) :
    zeroChatRestart P intOf floatOf s = .ok s.sorted := by
  have hwatermarks : readDict P (toInt intOf) (writeDict .int s.eventWatermarks) = _ :=
    readDict_writeDict hkeys.eventWatermarks fun _ => rfl
  have hidents : readDict P (PyVal.strOf P) (writeDict .str s.eventIdentities) = _ :=
    readDict_writeDict hkeys.eventIdentities fun _ => rfl
  have htrans : readDict P Transaction.ofDict
      (writeDict (fun t => .ofRecord t.asDict) s.transactions) = _ :=
    readDict_writeDict hkeys.transactions Transaction.ofDict_asDict
  have hownership : readDict P Ownership.ofDict
      (writeDict (fun o => .ofRecord o.asDict) s.ownership) = _ :=
    readDict_writeDict hkeys.ownership Ownership.ofDict_asDict
  have hatts : readDict P (toInt intOf) (writeDict .int s.providerAttempts) = _ :=
    readDict_writeDict hkeys.providerAttempts fun _ => rfl
  rw [zeroChatRestart, roundTrip_toPayload hkeys h]
  simp only [fromPayload, field, get?_payload, bind, Except.bind, Except.mapError]
  simp [toPayload, toInt, PyVal.strOf, readStrs_ofStrs, hwatermarks, hidents, htrans,
    hownership, hatts, checkedState, check, PyVal.truthy, bind, Except.bind, pure, Except.pure,
    DurableSupervisorState.sorted]

/-! ## Runs -/

theorem DistinctKeys.rest {s' : DurableSupervisorState} (h : DistinctKeys s) (hrest : Rest s s') :
    DistinctKeys s' := by
  cases hrest with
  | recorded source key identity watermark =>
    exact ⟨Dict.nodup_keys_set h.eventWatermarks _ _, Dict.nodup_keys_set h.eventIdentities _ _,
      h.transactions, h.ownership, h.providerAttempts⟩
  | attempted provider attempt =>
    exact ⟨h.eventWatermarks, h.eventIdentities, h.transactions, h.ownership,
      Dict.nodup_keys_set h.providerAttempts _ _⟩
  | _ =>
    exact ⟨h.eventWatermarks, h.eventIdentities, h.transactions, h.ownership,
      h.providerAttempts⟩

theorem DistinctKeys.withTransaction (h : DistinctKeys s) (d : PyStr) (t : Transaction) :
    DistinctKeys (withTransaction s d t) :=
  ⟨h.eventWatermarks, h.eventIdentities, Dict.nodup_keys_set h.transactions _ _, h.ownership,
    h.providerAttempts⟩

theorem DistinctKeys.withOwner (h : DistinctKeys s) (d : PyStr) (o : Ownership) :
    DistinctKeys (withOwner s d o) :=
  ⟨h.eventWatermarks, h.eventIdentities, h.transactions, Dict.nodup_keys_set h.ownership _ _,
    h.providerAttempts⟩

theorem DistinctKeys.moves {s' : DurableSupervisorState} {c : Call} (h : DistinctKeys s)
    (hmoves : Moves s c s') : DistinctKeys s' := by
  cases hmoves with
  | untouched c s' hrest => exact h.rest hrest
  | beat d w lease o ho => exact h.withOwner d _
  | started d w lease t ht hfree => exact (h.withOwner d _).withTransaction d _
  | lost d w lease t o ht ho hw => exact (h.withOwner d _).withTransaction d _
  | active d w lease observedPhase t phase heartbeats hlease ht hphase hact howner hother =>
    exact (h.withOwner d _).withTransaction d _
  | _ => exact h.withTransaction _ _

theorem distinctKeys_empty (scope : PyStr) (mode : ServiceMode) :
    DistinctKeys (DurableSupervisorState.empty scope mode) :=
  ⟨nodup_nil, nodup_nil, nodup_nil, nodup_nil, nodup_nil⟩

/-- **The maps of a run have distinct keys.** -/
theorem distinctKeys_after {policy : PersistentTimingPolicy} (h : DistinctKeys s)
    (calls : List Call) : DistinctKeys (after P policy s calls) :=
  Logs.run_inv (fun _ _ _ hok hkeys => hkeys.moves (moves_of_call hok)) h calls

end Supervisor

end OvcReplay.Skills
