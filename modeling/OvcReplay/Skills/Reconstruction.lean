import OvcReplay.Skills.Transaction
import OvcReplay.Skills.Identity
import OvcReplay.Json.Values
import OvcReplay.Logs.Deliveries

/-! # The reconstruction of integration transactions

What is written of a transaction is enough to build it again, and a transaction that is stopped,
rebuilt and given events again ends as if every event had been given once. -/

namespace OvcReplay.Skills

open List Python Json

/-! ## Writing -/

/-- `asdict` of a fence. -/
def RouteFence.asdict (fence : RouteFence) : Record :=
  [(py "writer_id", .str fence.writerId), (py "generation", .int fence.generation),
    (py "fence_token", .str fence.fenceToken)]

/-- `asdict` of a cursor. -/
def EventCursor.asdict (cursor : EventCursor) : Record :=
  [(py "stream_id", .str cursor.streamId), (py "sequence", .int cursor.sequence),
    (py "event_ids", .tuple (cursor.eventIds.map .str))]

/-- `asdict` of a recovery entry. -/
def RecoveryEntry.asdict (entry : RecoveryEntry) : Record :=
  [(py "attempt", .int entry.attempt), (py "reason", .str entry.reason),
    (py "from_state", .str entry.fromState), (py "disposition", .str entry.disposition)]

namespace IntegrationTransaction

/-- `asdict` of a transaction. -/
def asdict (t : IntegrationTransaction) : Record :=
  [(py "programme_id", .str t.programmeId), (py "packet_id", .str t.packetId),
    (py "pip_id", .str t.pipId), (py "owner_fact_manifest_id", .str t.ownerFactManifestId),
    (py "trigger_coverage_manifest_id", .str t.triggerCoverageManifestId),
    (py "route_fence", .ofRecord t.routeFence.asdict), (py "state", .str t.state.text),
    (py "event_cursor", .ofRecord t.eventCursor.asdict),
    (py "idempotence_key", .str t.idempotenceKey), (py "recovery_budget", .int t.recoveryBudget),
    (py "recovery_history",
      .tuple (t.recoveryHistory.map fun entry => .ofRecord entry.asdict)),
    (py "authority_effect", .str (py "NONE"))]

variable (P : Platform)

/-- `transaction_key`. -/
def transactionKey (t : IntegrationTransaction) : Except PyError HexDigest :=
  canonicalSha256 P (.ofRecord [(py "programme_id", .str t.programmeId),
    (py "packet_id", .str t.packetId), (py "pip_id", .str t.pipId),
    (py "owner_fact_manifest_id", .str t.ownerFactManifestId),
    (py "route_fence", .ofRecord t.routeFence.asdict),
    (py "idempotence_key", .str t.idempotenceKey)]) (py "integration-transaction-key/v1")

/-- `state_id`. -/
def stateId (t : IntegrationTransaction) : Except PyError HexDigest :=
  canonicalSha256 P (.ofRecord t.asdict) (py "integration-transaction-state/v1")

end IntegrationTransaction

/-! ## Reading -/

variable (payload : PyVal)

/-- `payload[name]` of a text. -/
def textField (name : String) : Option PyStr :=
  match payload.get? (py name) with
  | some (.str s) => some s
  | _ => none

/-- `payload[name]` of an integer. -/
def intField (name : String) : Option Int :=
  match payload.get? (py name) with
  | some (.int z) => some z
  | _ => none

/-- `tuple(v)`. -/
def tupleOf : PyVal → Option (List PyVal)
  | .list xs => some xs
  | .tuple xs => some xs
  | _ => none

/-- The text, when the value is one. -/
def textOf : PyVal → Option PyStr
  | .str s => some s
  | _ => none

/-- `f(**payload)` takes these keywords and no others. -/
def hasOnly (names : List String) : Prop :=
  match payload with
  | .dict items => ∀ key ∈ Dict.keys items, key ∈ names.map fun name => PyKey.str (py name)
  | _ => False

instance (payload : PyVal) (names : List String) : Decidable (hasOnly payload names) := by
  unfold hasOnly
  split <;> infer_instance

/-- `RouteFence(**payload)`, without a value where it raises. -/
def RouteFence.of? : Option RouteFence := do
  guard (hasOnly payload ["writer_id", "generation", "fence_token"])
  let writerId ← textField payload "writer_id"
  let generation ← intField payload "generation"
  let fenceToken ← textField payload "fence_token"
  if h : writerId ≠ [] ∧ 1 ≤ generation ∧ fenceToken.length = 64 then
    some ⟨writerId, generation, fenceToken, h.1, h.2.1, h.2.2⟩
  else none

/-- `EventCursor(stream_id, sequence, event_ids)`. -/
def EventCursor.of? : Option EventCursor := do
  let streamId ← textField payload "stream_id"
  let sequence ← intField payload "sequence"
  let members ← (payload.get? (py "event_ids")).bind tupleOf
  let eventIds ← members.mapM textOf
  if h : streamId ≠ [] ∧ sequence = eventIds.length ∧ eventIds.Nodup then
    some ⟨streamId, sequence, eventIds, h.1, h.2.1, h.2.2⟩
  else none

/-- `RecoveryEntry(**payload)`. -/
def RecoveryEntry.of? : Option RecoveryEntry := do
  guard (hasOnly payload ["attempt", "reason", "from_state", "disposition"])
  let attempt ← intField payload "attempt"
  let reason ← textField payload "reason"
  let fromState ← textField payload "from_state"
  let disposition ← textField payload "disposition"
  return ⟨attempt, reason, fromState, disposition⟩

/-- The transaction of a payload, without a value where one of the constructors or a key raises.
A field of another type than the one declared has no value. -/
def transactionOf? : Option IntegrationTransaction := do
  let routeFence ← (payload.get? (py "route_fence")).bind RouteFence.of?
  let eventCursor ← (payload.get? (py "event_cursor")).bind EventCursor.of?
  let entries ← tupleOf ((payload.get? (py "recovery_history")).getD (.tuple []))
  let recoveryHistory ← entries.mapM RecoveryEntry.of?
  let programmeId ← textField payload "programme_id"
  let packetId ← textField payload "packet_id"
  let pipId ← textField payload "pip_id"
  let ownerFactManifestId ← textField payload "owner_fact_manifest_id"
  let triggerCoverageManifestId ← textField payload "trigger_coverage_manifest_id"
  let state ← (textField payload "state").bind TransactionState.ofText?
  let idempotenceKey ← textField payload "idempotence_key"
  let recoveryBudget ← intField payload "recovery_budget"
  guard ((payload.get? (py "authority_effect")).getD (.str (py "NONE")) = .str (py "NONE"))
  if h : pipId.length = 64 ∧ ownerFactManifestId.length = 64 ∧
      triggerCoverageManifestId.length = 64 ∧ idempotenceKey.length = 64 ∧
      (recoveryHistory.length : Int) ≤ recoveryBudget then
    some ⟨programmeId, packetId, pipId, ownerFactManifestId, triggerCoverageManifestId, routeFence,
      state, eventCursor, idempotenceKey, recoveryBudget, recoveryHistory, h.1, h.2.1, h.2.2.1,
      h.2.2.2.1, h.2.2.2.2⟩
  else none

/-- `reconstruct_transaction`. -/
def reconstructTransaction : Except ContractError IntegrationTransaction :=
  match transactionOf? payload with
  | some t => .ok t
  | none => .error ⟨py "invalid durable transaction payload"⟩

/-! ## What was written is read -/

section Reading

variable {P : Platform} {floatOf : FloatOfText} {r : Record} {j : Json}
  (hr : r.keys.Nodup) (h : dumpsNan P (.ofRecord r) = .ok j)

include hr h

theorem textField_value {name : String} {s : PyStr} (hs : r.get? (py name) = some (.str s)) :
    textField (j.value floatOf) name = some s := by
  obtain ⟨w, hw, hget⟩ := get?_value_of_dumpsWith floatOf hr h hs
  rw [textField, hget, value_of_dumpsWith_str hw]

theorem intField_value {name : String} {z : Int} (hz : r.get? (py name) = some (.int z)) :
    intField (j.value floatOf) name = some z := by
  obtain ⟨w, hw, hget⟩ := get?_value_of_dumpsWith floatOf hr h hz
  rw [intField, hget, value_of_dumpsWith_int hw]

omit hr in
theorem hasOnly_value {names : List String} (hnames : Dict.keys r = names.map py) :
    hasOnly (j.value floatOf) names := by
  obtain ⟨members, rfl⟩ := exists_members_of_dumpsWith h
  rw [value, hasOnly]
  intro key hkey
  obtain ⟨k, hk, rfl⟩ := mem_keys_value_of_dumpsWith h (by rw [value]) hkey
  rw [hnames] at hk
  obtain ⟨name, hname, rfl⟩ := mem_map.mp hk
  exact mem_map_of_mem hname

end Reading

variable {P : Platform} {floatOf : FloatOfText} {j : Json}

theorem RouteFence.of?_value (fence : RouteFence)
    (h : dumpsNan P (.ofRecord fence.asdict) = .ok j) :
    RouteFence.of? (j.value floatOf) = some fence := by
  have hr : fence.asdict.keys.Nodup := by simp [asdict, Dict.keys]
  have hwriter : textField (j.value floatOf) "writer_id" = some fence.writerId :=
    textField_value hr h (by simp [asdict])
  have hgen : intField (j.value floatOf) "generation" = some fence.generation :=
    intField_value hr h (by simp [asdict])
  have htoken : textField (j.value floatOf) "fence_token" = some fence.fenceToken :=
    textField_value hr h (by simp [asdict])
  have honly : hasOnly (j.value floatOf) ["writer_id", "generation", "fence_token"] :=
    hasOnly_value h rfl
  simp only [of?, honly, guard, if_true, hwriter, hgen, htoken, pure, bind,
    Option.bind_some]
  exact dif_pos ⟨fence.writerId_ne_nil, fence.generation_pos, fence.length_fenceToken⟩

/-- A list is loaded as it was dumped where its elements are. -/
theorem mapM_values {β : Type} {dumped : β → PyVal} {load : PyVal → Option β} {bs : List β}
    {js : List Json}
    (hload : ∀ b j, dumpsNan P (dumped b) = .ok j → load (j.value floatOf) = some b)
    (h : (bs.map dumped).mapM (dumpsNan P) = .ok js) :
    (js.map (value floatOf)).mapM load = some bs := by
  induction bs generalizing js with
  | nil =>
    rw [map_nil, mapM_nil] at h
    cases h
    rfl
  | cons b bs ih =>
    rw [map_cons] at h
    obtain ⟨w, ws, hw, hws, rfl⟩ := mapM_cons_ok.mp h
    rw [map_cons, mapM_cons, hload b w hw, ih hws]
    rfl

theorem EventCursor.of?_value (cursor : EventCursor)
    (h : dumpsNan P (.ofRecord cursor.asdict) = .ok j) :
    EventCursor.of? (j.value floatOf) = some cursor := by
  have hr : cursor.asdict.keys.Nodup := by simp [asdict, Dict.keys]
  have hstrm : textField (j.value floatOf) "stream_id" = some cursor.streamId :=
    textField_value hr h (by simp [asdict])
  have hseq : intField (j.value floatOf) "sequence" = some cursor.sequence :=
    intField_value hr h (by simp [asdict])
  have hids : cursor.asdict.get? (py "event_ids") =
      some (.tuple (cursor.eventIds.map .str)) := by simp [asdict]
  obtain ⟨w, hw, hget⟩ := get?_value_of_dumpsWith floatOf hr h hids
  obtain ⟨js, hjs, hval⟩ := value_of_dumpsWith_tuple floatOf hw
  have hread : (js.map (value floatOf)).mapM textOf = some cursor.eventIds :=
    mapM_values (fun _ _ hs => by rw [value_of_dumpsWith_str hs]; rfl) hjs
  simp only [of?, hstrm, hseq, hget, hval, tupleOf, hread, bind, Option.bind_some]
  exact dif_pos ⟨cursor.streamId_ne_nil, cursor.sequence_eq, cursor.nodup⟩

theorem RecoveryEntry.of?_value (entry : RecoveryEntry)
    (h : dumpsNan P (.ofRecord entry.asdict) = .ok j) :
    RecoveryEntry.of? (j.value floatOf) = some entry := by
  have hr : entry.asdict.keys.Nodup := by simp [asdict, Dict.keys]
  have hattempt : intField (j.value floatOf) "attempt" = some entry.attempt :=
    intField_value hr h (by simp [asdict])
  have hreason : textField (j.value floatOf) "reason" = some entry.reason :=
    textField_value hr h (by simp [asdict])
  have hfrom : textField (j.value floatOf) "from_state" = some entry.fromState :=
    textField_value hr h (by simp [asdict])
  have hdisp : textField (j.value floatOf) "disposition" = some entry.disposition :=
    textField_value hr h (by simp [asdict])
  have honly : hasOnly (j.value floatOf) ["attempt", "reason", "from_state", "disposition"] :=
    hasOnly_value h rfl
  simp only [of?, honly, guard, if_true, hattempt, hreason, hfrom, hdisp, pure, bind,
    Option.bind_some]

namespace IntegrationTransaction

theorem floatFree_asdict (t : IntegrationTransaction) : (PyVal.ofRecord t.asdict).FloatFree := by
  have htexts : ∀ ss : List PyStr, (PyVal.tuple (ss.map .str)).FloatFree := by
    intro ss
    refine .tuple fun x hx => ?_
    obtain ⟨s, -, rfl⟩ := mem_map.mp hx
    exact .str s
  have hents : (PyVal.tuple
      (t.recoveryHistory.map fun entry => .ofRecord entry.asdict)).FloatFree := by
    refine .tuple fun x hx => ?_
    obtain ⟨entry, -, rfl⟩ := mem_map.mp hx
    simp [RecoveryEntry.asdict]
  simp [asdict, RouteFence.asdict, EventCursor.asdict, htexts, hents]

theorem transactionOf?_value (t : IntegrationTransaction)
    (h : dumpsNan P (.ofRecord t.asdict) = .ok j) :
    transactionOf? (j.value floatOf) = some t := by
  have hr : t.asdict.keys.Nodup := by simp [asdict, Dict.keys]
  have hfence : t.asdict.get? (py "route_fence") =
      some (.ofRecord t.routeFence.asdict) := by simp [asdict]
  obtain ⟨w, hw, hfence⟩ := get?_value_of_dumpsWith floatOf hr h hfence
  have hcursor : t.asdict.get? (py "event_cursor") =
      some (.ofRecord t.eventCursor.asdict) := by simp [asdict]
  obtain ⟨w', hw', hcursor⟩ := get?_value_of_dumpsWith floatOf hr h hcursor
  have hhistory : t.asdict.get? (py "recovery_history") =
      some (.tuple (t.recoveryHistory.map fun entry => .ofRecord entry.asdict)) := by
    simp [asdict]
  obtain ⟨w'', hw'', hhistory⟩ := get?_value_of_dumpsWith floatOf hr h hhistory
  obtain ⟨js, hjs, hval⟩ := value_of_dumpsWith_tuple floatOf hw''
  have hents : (js.map (value floatOf)).mapM RecoveryEntry.of? = some t.recoveryHistory :=
    mapM_values (fun entry _ => entry.of?_value) hjs
  have hauth : t.asdict.get? (py "authority_effect") = some (.str (py "NONE")) := by
    simp [asdict]
  obtain ⟨a, ha, hauth⟩ := get?_value_of_dumpsWith floatOf hr h hauth
  have htext : ∀ (name : String) (s : PyStr), t.asdict.get? (py name) = some (.str s) →
      textField (j.value floatOf) name = some s := fun _ _ hs => textField_value hr h hs
  have hprogramme := htext "programme_id" t.programmeId (by simp [asdict])
  have hpacket := htext "packet_id" t.packetId (by simp [asdict])
  have hpip := htext "pip_id" t.pipId (by simp [asdict])
  have hfacts := htext "owner_fact_manifest_id" t.ownerFactManifestId (by simp [asdict])
  have hcoverage := htext "trigger_coverage_manifest_id" t.triggerCoverageManifestId
    (by simp [asdict])
  have hst := htext "state" t.state.text (by simp [asdict])
  have hkey := htext "idempotence_key" t.idempotenceKey (by simp [asdict])
  have hbudget : intField (j.value floatOf) "recovery_budget" = some t.recoveryBudget :=
    intField_value hr h (by simp [asdict])
  simp only [transactionOf?, hfence, hcursor, hhistory, hval, Option.getD_some, tupleOf,
    hents, hauth, value_of_dumpsWith_str ha, hprogramme, hpacket, hpip, hfacts, hcoverage,
    hst, hkey, hbudget, t.routeFence.of?_value hw, t.eventCursor.of?_value hw',
    TransactionState.ofText?_text, guard, if_true, pure, bind, Option.bind_some]
  exact dif_pos ⟨t.length_pipId, t.length_ownerFactManifestId, t.length_triggerCoverageManifestId,
    t.length_idempotenceKey, t.history_le⟩

/-- **A transaction that was written is reconstructed.** -/
theorem reconstructTransaction_asdict {t : IntegrationTransaction} {v : PyVal}
    (h : roundTrip floatOf P (.ofRecord t.asdict) = .ok v) : reconstructTransaction v = .ok t := by
  obtain ⟨j, hj, rfl⟩ := (roundTrip_ok t.floatFree_asdict).mp h
  rw [reconstructTransaction, t.transactionOf?_value hj]

/-! ## Deliveries -/

/-- What a run raises. -/
abbrev Failure : Type := ContractError ⊕ PyError

/-- `apply_event` of a run. -/
def step (t : IntegrationTransaction) (e : Event) : Except Failure IntegrationTransaction :=
  (t.applyEvent e).mapError .inl

/-- The transaction that is reconstructed from what was written of it. -/
def restore (floatOf : FloatOfText) (P : Platform) (t : IntegrationTransaction) :
    Except Failure IntegrationTransaction := do
  let v ← (roundTrip floatOf P (.ofRecord t.asdict)).mapError .inr
  (reconstructTransaction v).mapError .inl

variable {t t' : IntegrationTransaction}

theorem step_ok {e : Event} : step t e = .ok t' ↔ t.applyEvent e = .ok t' := mapError_ok

theorem restore_ok (h : restore floatOf P t = .ok t') : t' = t := by
  obtain ⟨v, hv, h⟩ := bind_ok.mp h
  rw [reconstructTransaction_asdict (mapError_ok.mp hv)] at h
  exact (Except.ok.inj h).symm

theorem restore_of_returns {t : IntegrationTransaction}
    (h : Returns (roundTrip floatOf P (.ofRecord t.asdict))) : restore floatOf P t = .ok t := by
  obtain ⟨v, hv⟩ := h
  refine bind_intro (mapError_ok.mpr hv) ?_
  rw [reconstructTransaction_asdict hv]
  rfl

/-- A transaction remembers the ids of its events. -/
theorem receives_step : Logs.Receives step Event.eventId fun t => t.eventCursor.eventIds where
  ignores t e h := by
    rw [step, applyEvent_of_mem h]
    rfl
  records t e t' h i := by
    rcases applyEvent_ok (step_ok.mp h) with ⟨hmem, rfl⟩ | hrecs
    · constructor
      · exact .inl
      · rintro (hi | rfl)
        · exact hi
        · exact hmem
    · rw [hrecs.eventIds, mem_append, mem_singleton]

/-- **The cursor counts the distinct ids.** -/
theorem sequence_of_run {events : List Event} (h : events.foldlM step t = .ok t') :
    t'.eventCursor.sequence =
      (t.eventCursor.eventIds ++ events.map Event.eventId).dedup.length := by
  rw [t'.eventCursor.sequence_eq]
  have hperm : t'.eventCursor.eventIds.Perm
      (t.eventCursor.eventIds ++ events.map Event.eventId).dedup := by
    rw [perm_ext_iff_of_nodup t'.eventCursor.nodup (nodup_dedup _)]
    intro i
    rw [receives_step.mem_seen_foldlM h, mem_dedup, mem_append]
  rw [hperm.length_eq]

end IntegrationTransaction

end OvcReplay.Skills
