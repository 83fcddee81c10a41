import OvcReplay.Json.Values
import OvcReplay.Skills.Identity

/-! # Recovery and durable execution

`vit_runtime.py`: the recovery of an execution is moved by results under a budget, and the state of
an execution is stored as a file of JSON that is named by its identity. -/

namespace OvcReplay.Skills.Vit

open List Python Json

/-! ## Recovery states -/

/-- The states of a recovery. -/
inductive RecoveryName where
  | running
  | recovering
  | waitingOperatorAuthority
  | blocked
  | quarantined
  | completed
  deriving DecidableEq, Repr

namespace RecoveryName

/-- The text of a state. -/
def text : RecoveryName → PyStr
  | running => py "RUNNING"
  | recovering => py "RECOVERING"
  | waitingOperatorAuthority => py "WAITING_OPERATOR_AUTHORITY"
  | blocked => py "BLOCKED"
  | quarantined => py "QUARANTINED"
  | completed => py "COMPLETED"

/-- The state of a text. -/
def ofText? (s : PyStr) : Option RecoveryName :=
  [running, recovering, waitingOperatorAuthority, blocked, quarantined, completed].find?
    fun state => state.text = s

variable (state : RecoveryName)

@[simp] theorem ofText?_text : ofText? state.text = some state := by
  cases state <;> decide +kernel

/-- The states in which an execution has ended. -/
def Terminal : Prop :=
  state = blocked ∨ state = quarantined ∨ state = completed

/-- The states in which an execution goes on. -/
def Active : Prop := state = running ∨ state = recovering

instance : DecidablePred Terminal := fun _ => inferInstanceAs (Decidable (_ ∨ _))

instance : DecidablePred Active := fun _ => inferInstanceAs (Decidable (_ ∨ _))

theorem not_active_of_terminal {state : RecoveryName} (h : state.Terminal) : ¬ state.Active := by
  rcases h with rfl | rfl | rfl <;> decide

end RecoveryName

/-- `RecoveryState`; its counters are not negative. -/
structure RecoveryState where
  state : RecoveryName
  blockerCodes : List PyStr := []
  openAction : Option PyStr := none
  attempts : Nat := 0
  recoveryBudget : Nat := 3
  wakeSubscriptions : List PyStr := []
  openMaterialisationTransaction : Option PyStr := none
  nextPacket : Option PyStr := none
  deriving DecidableEq

/-- **`recovery_transition`.** -/
def recoveryTransition (s : RecoveryState) (result : PyStr) : RecoveryState :=
  if s.state = .waitingOperatorAuthority then s
  else if result = py "SUCCESS" then { state := .running, nextPacket := s.nextPacket }
  else if result = py "AUTHORITY_REQUIRED" then
    { s with state := .waitingOperatorAuthority, openAction := some (py "OPERATOR_DECISION") }
  else if s.recoveryBudget ≤ s.attempts + 1 then
    { s with
      state := .blocked
      blockerCodes := s.blockerCodes ++ [py "RECOVERY_BUDGET_EXHAUSTED"]
      openAction := none
      attempts := s.attempts + 1 }
  else { s with state := .recovering, attempts := s.attempts + 1 }

/-- The states that a run of results goes through, the first one included. -/
def reached (s : RecoveryState) : List PyStr → List RecoveryState
  | [] => [s]
  | result :: results => s :: reached (recoveryTransition s result) results

/-! ## Durable states -/

/-- The commands of a mandate. -/
def commands : List PyStr :=
  [py "RUN", py "CONTINUE", py "RUN_ONLY", py "CONTINUE_ONLY", py "HOLD"]

/-- The fields of a mandate. -/
structure MandateFields where
  programmeId : PyStr
  entryPacket : PyStr
  command : PyStr
  continuationPolicy : PyStr
  authoritySource : PyStr
  stopBoundary : Option PyStr

/-- The fields that have to be given, in the order in which they are checked. -/
def MandateFields.required (m : MandateFields) : List (PyStr × PyStr) :=
  [(py "programme_id", m.programmeId), (py "entry_packet", m.entryPacket),
    (py "continuation_policy", m.continuationPolicy), (py "authority_source", m.authoritySource)]

/-- `ContinuousExecutionMandate`, as `__post_init__` admits it. -/
structure ContinuousExecutionMandate extends MandateFields where
  command_mem : command ∈ commands
  required_ne_nil : ∀ field ∈ toMandateFields.required, strip field.2 ≠ []

/-- `DevelopmentLane`. -/
structure DevelopmentLane where
  laneId : PyStr
  programmeId : PyStr
  currentPacket : PyStr
  buildFrontier : PyStr
  payloadFrontier : Option PyStr
  vitFrontier : Option PyStr
  materialisationFrontier : Option PyStr

/-- `PersistentExecutionState`. -/
structure PersistentExecutionState where
  mandate : ContinuousExecutionMandate
  lane : DevelopmentLane
  recovery : RecoveryState
  schemaVersion : PyStr := py "persistent-execution-state/v0.1"

/-- A tuple of texts. -/
def tupleOf (texts : List PyStr) : PyVal := .tuple (texts.map .str)

/-- `asdict` of a mandate. -/
def MandateFields.asdict (m : MandateFields) : Record :=
  [(py "programme_id", .str m.programmeId), (py "entry_packet", .str m.entryPacket),
    (py "command", .str m.command), (py "continuation_policy", .str m.continuationPolicy),
    (py "authority_source", .str m.authoritySource),
    (py "stop_boundary", .ofStr? m.stopBoundary)]

/-- `asdict` of a lane. -/
def DevelopmentLane.asdict (l : DevelopmentLane) : Record :=
  [(py "lane_id", .str l.laneId), (py "programme_id", .str l.programmeId),
    (py "current_packet", .str l.currentPacket), (py "build_frontier", .str l.buildFrontier),
    (py "payload_frontier", .ofStr? l.payloadFrontier),
    (py "vit_frontier", .ofStr? l.vitFrontier),
    (py "materialisation_frontier", .ofStr? l.materialisationFrontier)]

/-- `asdict` of a recovery. -/
def RecoveryState.asdict (s : RecoveryState) : Record :=
  [(py "state", .str s.state.text), (py "blocker_codes", tupleOf s.blockerCodes),
    (py "open_action", .ofStr? s.openAction), (py "attempts", .int s.attempts),
    (py "recovery_budget", .int s.recoveryBudget),
    (py "wake_subscriptions", tupleOf s.wakeSubscriptions),
    (py "open_materialisation_transaction", .ofStr? s.openMaterialisationTransaction),
    (py "next_packet", .ofStr? s.nextPacket)]

/-- `asdict` of a state. -/
def PersistentExecutionState.asdict (s : PersistentExecutionState) : Record :=
  [(py "mandate", .ofRecord s.mandate.asdict), (py "lane", .ofRecord s.lane.asdict),
    (py "recovery", .ofRecord s.recovery.asdict), (py "schema_version", .str s.schemaVersion)]

variable (P : Platform) (floatOf : FloatOfText)

/-- `state_id`. -/
def PersistentExecutionState.stateId (s : PersistentExecutionState) : Except PyError HexDigest :=
  (canonicalJsonBytes P (.ofRecord s.asdict)).map P.sha256

/-- The files of a store: their names and what they hold. -/
abbrev Files : Type := Dict PyStr PyStr

/-- What the store raises. -/
inductive StoreError where
  | contract (message : PyStr)
  | python (e : PyError)
  | fileNotFound
  /-- A file with a value of another type than the field has, which no dataclass checks. -/
  | untyped
  deriving DecidableEq

/-- **`DurableExecutionStore.write`**: the files and the path. What `ensure_ascii` escapes is read
back as it was, and is left as it is here. -/
def write (files : Files) (s : PersistentExecutionState) : Except PyError (Files × PyStr) := do
  let stateId ← s.stateId P
  let tree ← dumpsNan P (.ofRecord (s.asdict ++ [(py "state_id", .str stateId.text)]))
  let path := stateId.text ++ py ".json"
  return (files.set path tree.render, path)

variable (raw : PyVal)

/-- `raw[k]`. -/
def item (k : PyStr) : Except StoreError PyVal :=
  match raw.get? k with
  | some v => .ok v
  | none => .error (.python .keyError)

/-- A text. -/
def readText : PyVal → Except StoreError PyStr
  | .str s => .ok s
  | _ => .error .untyped

/-- A text or `None`. -/
def readText? : PyVal → Except StoreError (Option PyStr)
  | .none => .ok none
  | .str s => .ok (some s)
  | _ => .error .untyped

/-- A list of texts. -/
def readTexts : PyVal → Except StoreError (List PyStr)
  | .list xs => xs.mapM readText
  | _ => .error .untyped

/-- A number. -/
def readInt : PyVal → Except StoreError Int
  | .int z => .ok z
  | _ => .error .untyped

/-- The keywords `**raw` of a dataclass: every field that has no default, and no other name. -/
def keywords (fields required : List PyStr) (raw : PyVal) : Except StoreError Unit :=
  match raw with
  | .dict items =>
    check ((∀ key ∈ Dict.keys items, key ∈ fields.map .str) ∧
      ∀ k ∈ required, .str k ∈ Dict.keys items) (.python .typeError)
  | _ => .error (.python .typeError)

/-- `ContinuousExecutionMandate(...)`. -/
def createMandate (m : MandateFields) : Except StoreError ContinuousExecutionMandate :=
  if hcommand : m.command ∈ commands then
    if hrequired : ∀ field ∈ m.required, strip field.2 ≠ [] then .ok ⟨m, hcommand, hrequired⟩
    else
      let missing := (m.required.find? fun field => strip field.2 = []).map Prod.fst
      .error (.contract (missing.getD [] ++ py " is required"))
  else .error (.contract (py "unknown command"))

/-- `ContinuousExecutionMandate(**raw)`. -/
def readMandate : Except StoreError ContinuousExecutionMandate := do
  let required := [py "programme_id", py "entry_packet", py "command", py "continuation_policy",
    py "authority_source"]
  keywords (required ++ [py "stop_boundary"]) required raw
  let programmeId ← item raw (py "programme_id") >>= readText
  let entryPacket ← item raw (py "entry_packet") >>= readText
  let command ← item raw (py "command") >>= readText
  let continuationPolicy ← item raw (py "continuation_policy") >>= readText
  let authoritySource ← item raw (py "authority_source") >>= readText
  let stopBoundary ← readText? ((raw.get? (py "stop_boundary")).getD .none)
  createMandate
    ⟨programmeId, entryPacket, command, continuationPolicy, authoritySource, stopBoundary⟩

/-- `DevelopmentLane(**raw)`. -/
def readLane : Except StoreError DevelopmentLane := do
  let required := [py "lane_id", py "programme_id", py "current_packet", py "build_frontier"]
  keywords (required ++ [py "payload_frontier", py "vit_frontier", py "materialisation_frontier"])
    required raw
  let laneId ← item raw (py "lane_id") >>= readText
  let programmeId ← item raw (py "programme_id") >>= readText
  let currentPacket ← item raw (py "current_packet") >>= readText
  let buildFrontier ← item raw (py "build_frontier") >>= readText
  let payloadFrontier ← readText? ((raw.get? (py "payload_frontier")).getD .none)
  let vitFrontier ← readText? ((raw.get? (py "vit_frontier")).getD .none)
  let materialisationFrontier ← readText? ((raw.get? (py "materialisation_frontier")).getD .none)
  return ⟨laneId, programmeId, currentPacket, buildFrontier, payloadFrontier, vitFrontier,
    materialisationFrontier⟩

/-- The `RecoveryState` of a file, field by field. -/
def readRecovery : Except StoreError RecoveryState := do
  let state ← item raw (py "state") >>= readText
  let blockerCodes ← readTexts ((raw.get? (py "blocker_codes")).getD (.list []))
  let openAction ← readText? ((raw.get? (py "open_action")).getD .none)
  let attempts ← readInt ((raw.get? (py "attempts")).getD (.int 0))
  let recoveryBudget ← readInt ((raw.get? (py "recovery_budget")).getD (.int 3))
  let wakeSubscriptions ← readTexts ((raw.get? (py "wake_subscriptions")).getD (.list []))
  let transaction ← readText? ((raw.get? (py "open_materialisation_transaction")).getD .none)
  let nextPacket ← readText? ((raw.get? (py "next_packet")).getD .none)
  match RecoveryName.ofText? state with
  | none => .error (.contract (py "unknown recovery state"))
  | some name => do
    check (0 ≤ attempts ∧ 0 ≤ recoveryBudget) (.contract (py "invalid recovery counters"))
    return ⟨name, blockerCodes, openAction, attempts.toNat, recoveryBudget.toNat,
      wakeSubscriptions, transaction, nextPacket⟩

/-- **`DurableExecutionStore.load`.** -/
def load (files : Files) (path : PyStr) : Except StoreError PersistentExecutionState :=
  match files.get? path with
  | none => .error .fileNotFound
  | some text =>
    match parse text with
    | .error _ => .error (.python .valueError)
    | .ok tree => do
      let raw := tree.value floatOf
      let mandate ← item raw (py "mandate") >>= readMandate
      let lane ← item raw (py "lane") >>= readLane
      let recovery ← item raw (py "recovery") >>= readRecovery
      let version ← readText ((raw.get? (py "schema_version")).getD
        (.str (py "persistent-execution-state/v0.1")))
      let expected ← readText? ((raw.get? (py "state_id")).getD .none)
      let state : PersistentExecutionState := ⟨mandate, lane, recovery, version⟩
      let stateId ← (state.stateId P).mapError .python
      check (expected.getD [] = [] ∨ expected = some stateId.text)
        (.contract (py "VIT_LEDGER_INTEGRITY_FAIL"))
      return state

/-! ## What is stored is loaded -/

section

variable {P floatOf} {nonFinite : PyFloat → Except PyError Json} {j : Json}

theorem value_of_dumpsWith_ofStr? {s : Option PyStr}
    (h : dumpsWith P nonFinite (.ofStr? s) = .ok j) : j.value floatOf = .ofStr? s := by
  cases s with
  | none =>
    rw [PyVal.ofStr?, dumpsWith] at h
    cases h
    rw [value, PyVal.ofStr?]
  | some s => exact value_of_dumpsWith_str h

/-! ### Fields -/

variable {r : Record} {k : PyStr}

/-- A text of a record is read. -/
theorem text_of_record (hr : r.keys.Nodup) (h : dumpsWith P nonFinite (.ofRecord r) = .ok j)
    {s : PyStr} (hk : r.get? k = some (.str s)) :
    (item (j.value floatOf) k >>= readText) = .ok s := by
  obtain ⟨w, hw, hget⟩ := get?_value_of_dumpsWith floatOf hr h hk
  rw [item, hget, value_of_dumpsWith_str hw]
  rfl

/-- A text or `None` of a record is read. -/
theorem text?_of_record (hr : r.keys.Nodup)
    (h : dumpsWith P nonFinite (.ofRecord r) = .ok j) {s : Option PyStr}
    (hk : r.get? k = some (.ofStr? s)) :
    readText? (((j.value floatOf).get? k).getD .none) = .ok s := by
  obtain ⟨w, hw, hget⟩ := get?_value_of_dumpsWith floatOf hr h hk
  rw [hget, value_of_dumpsWith_ofStr? hw, Option.getD_some]
  cases s <;> rfl

/-- The texts of a record are read. -/
theorem texts_of_record (hr : r.keys.Nodup)
    (h : dumpsWith P nonFinite (.ofRecord r) = .ok j) {texts : List PyStr}
    (hk : r.get? k = some (tupleOf texts)) (default : PyVal) :
    readTexts (((j.value floatOf).get? k).getD default) = .ok texts := by
  obtain ⟨w, hw, hget⟩ := get?_value_of_dumpsWith floatOf hr h hk
  obtain ⟨js, hjs, hval⟩ := value_of_dumpsWith_tuple floatOf hw
  rw [hget, Option.getD_some, hval, readTexts]
  clear hval
  rw [mapM_map, mapM_ok_iff] at hjs
  rw [mapM_map, mapM_ok_iff]
  refine (hjs.flip).imp fun tree text htree => ?_
  show readText (tree.value floatOf) = .ok text
  rw [value_of_dumpsWith_str htree, readText]

/-- A number of a record is read. -/
theorem int_of_record (hr : r.keys.Nodup) (h : dumpsWith P nonFinite (.ofRecord r) = .ok j)
    {z : Int} (hk : r.get? k = some (.int z)) (default : PyVal) :
    readInt (((j.value floatOf).get? k).getD default) = .ok z := by
  obtain ⟨w, hw, hget⟩ := get?_value_of_dumpsWith floatOf hr h hk
  rw [hget, Option.getD_some, value_of_dumpsWith_int hw, readInt]

/-- The keywords of a record are its fields. -/
theorem keywords_of_record (hr : r.keys.Nodup)
    (h : dumpsWith P nonFinite (.ofRecord r) = .ok j) {fields required : List PyStr}
    (hflds : r.keys = fields) (hreq : ∀ k ∈ required, k ∈ fields) :
    keywords fields required (j.value floatOf) = .ok () := by
  obtain ⟨members, rfl⟩ := exists_members_of_dumpsWith h
  obtain ⟨items, hitems⟩ : ∃ items, (Json.obj members).value floatOf = .dict items := by
    rw [value]
    exact ⟨_, rfl⟩
  rw [hitems, keywords, check_ok]
  constructor
  · intro key hkey
    obtain ⟨k, hk, rfl⟩ := mem_keys_value_of_dumpsWith h hitems hkey
    rw [hflds] at hk
    exact mem_map_of_mem hk
  · intro k hk
    rw [← hflds] at hreq
    obtain ⟨v, hv⟩ := Option.isSome_iff_exists.mp (Dict.isSome_get?_iff.mpr (hreq k hk))
    obtain ⟨w, -, hget⟩ := get?_value_of_dumpsWith floatOf hr h hv
    rw [hitems, PyVal.get?] at hget
    exact Dict.isSome_get?_iff.mp (Option.isSome_iff_exists.mpr ⟨_, hget⟩)

/-! ### Records -/

theorem nodup_mandate (m : MandateFields) : m.asdict.keys.Nodup := by
  simp [MandateFields.asdict, Dict.keys]

theorem nodup_lane (l : DevelopmentLane) : l.asdict.keys.Nodup := by
  simp [DevelopmentLane.asdict, Dict.keys]

theorem nodup_recovery (s : RecoveryState) : s.asdict.keys.Nodup := by
  simp [RecoveryState.asdict, Dict.keys]

theorem readMandate_eq {m : ContinuousExecutionMandate}
    (h : dumpsWith P nonFinite (.ofRecord m.asdict) = .ok j) :
    readMandate (j.value floatOf) = .ok m := by
  have hr := nodup_mandate m.toMandateFields
  have htext : ∀ {k s}, m.asdict.get? k = some (.str s) →
      (item (j.value floatOf) k >>= readText) = .ok s := fun hk => text_of_record hr h hk
  have hcreate : createMandate m.toMandateFields = .ok m := by
    rw [createMandate, dif_pos m.command_mem, dif_pos m.required_ne_nil]
  refine bind_ok.mpr ⟨(), keywords_of_record hr h rfl (by simp), ?_⟩
  refine bind_ok.mpr ⟨m.programmeId, htext (by simp [MandateFields.asdict]), ?_⟩
  refine bind_ok.mpr ⟨m.entryPacket, htext (by simp [MandateFields.asdict]), ?_⟩
  refine bind_ok.mpr ⟨m.command, htext (by simp [MandateFields.asdict]), ?_⟩
  refine bind_ok.mpr ⟨m.continuationPolicy, htext (by simp [MandateFields.asdict]), ?_⟩
  refine bind_ok.mpr ⟨m.authoritySource, htext (by simp [MandateFields.asdict]), ?_⟩
  refine bind_ok.mpr ⟨m.stopBoundary,
    text?_of_record hr h (by simp [MandateFields.asdict]), ?_⟩
  exact hcreate

theorem readLane_eq {l : DevelopmentLane} (h : dumpsWith P nonFinite (.ofRecord l.asdict) = .ok j) :
    readLane (j.value floatOf) = .ok l := by
  have hr := nodup_lane l
  have htext : ∀ {k s}, l.asdict.get? k = some (.str s) →
      (item (j.value floatOf) k >>= readText) = .ok s := fun hk => text_of_record hr h hk
  have htext? : ∀ {k s}, l.asdict.get? k = some (.ofStr? s) →
      readText? (((j.value floatOf).get? k).getD .none) = .ok s :=
    fun hk => text?_of_record hr h hk
  refine bind_ok.mpr ⟨(), keywords_of_record hr h rfl (by simp), ?_⟩
  refine bind_ok.mpr ⟨l.laneId, htext (by simp [DevelopmentLane.asdict]), ?_⟩
  refine bind_ok.mpr ⟨l.programmeId, htext (by simp [DevelopmentLane.asdict]), ?_⟩
  refine bind_ok.mpr ⟨l.currentPacket, htext (by simp [DevelopmentLane.asdict]), ?_⟩
  refine bind_ok.mpr ⟨l.buildFrontier, htext (by simp [DevelopmentLane.asdict]), ?_⟩
  refine bind_ok.mpr ⟨l.payloadFrontier, htext? (by simp [DevelopmentLane.asdict]), ?_⟩
  refine bind_ok.mpr ⟨l.vitFrontier, htext? (by simp [DevelopmentLane.asdict]), ?_⟩
  exact bind_ok.mpr ⟨l.materialisationFrontier,
    htext? (by simp [DevelopmentLane.asdict]), rfl⟩

theorem readRecovery_eq {s : RecoveryState}
    (h : dumpsWith P nonFinite (.ofRecord s.asdict) = .ok j) :
    readRecovery (j.value floatOf) = .ok s := by
  have hr := nodup_recovery s
  have htext? : ∀ {k t}, s.asdict.get? k = some (.ofStr? t) →
      readText? (((j.value floatOf).get? k).getD .none) = .ok t :=
    fun hk => text?_of_record hr h hk
  have htexts : ∀ {k texts}, s.asdict.get? k = some (tupleOf texts) → ∀ default,
      readTexts (((j.value floatOf).get? k).getD default) = .ok texts :=
    fun hk default => texts_of_record hr h hk default
  have hint : ∀ {k z}, s.asdict.get? k = some (.int z) → ∀ default,
      readInt (((j.value floatOf).get? k).getD default) = .ok z :=
    fun hk default => int_of_record hr h hk default
  refine bind_ok.mpr ⟨s.state.text, text_of_record hr h (by simp [RecoveryState.asdict]), ?_⟩
  refine bind_ok.mpr ⟨s.blockerCodes, htexts (by simp [RecoveryState.asdict]) _, ?_⟩
  refine bind_ok.mpr ⟨s.openAction, htext? (by simp [RecoveryState.asdict]), ?_⟩
  refine bind_ok.mpr ⟨s.attempts, hint (by simp [RecoveryState.asdict]) _, ?_⟩
  refine bind_ok.mpr ⟨s.recoveryBudget, hint (by simp [RecoveryState.asdict]) _, ?_⟩
  refine bind_ok.mpr ⟨s.wakeSubscriptions, htexts (by simp [RecoveryState.asdict]) _, ?_⟩
  refine bind_ok.mpr ⟨s.openMaterialisationTransaction,
    htext? (by simp [RecoveryState.asdict]), ?_⟩
  refine bind_ok.mpr ⟨s.nextPacket, htext? (by simp [RecoveryState.asdict]), ?_⟩
  rw [RecoveryName.ofText?_text]
  exact bind_ok.mpr ⟨(), check_ok.mpr ⟨by omega, by omega⟩, rfl⟩

/-- A record in a record is read as it was. -/
theorem item_of_record {β : Type} (hr : r.keys.Nodup)
    (h : dumpsWith P nonFinite (.ofRecord r) = .ok j) {inner : Record}
    (hk : r.get? k = some (.ofRecord inner)) {read : PyVal → Except StoreError β} {b : β}
    (hread : ∀ w, dumpsWith P nonFinite (.ofRecord inner) = .ok w →
      read (w.value floatOf) = .ok b) :
    (item (j.value floatOf) k >>= read) = .ok b := by
  obtain ⟨w, hw, hget⟩ := get?_value_of_dumpsWith floatOf hr h hk
  rw [item, hget]
  exact hread w hw

theorem floatFree_ofStr? (s : Option PyStr) : (PyVal.ofStr? s).FloatFree := by
  cases s with
  | none => exact .none
  | some s => exact .str s

theorem floatFree_tupleOf (texts : List PyStr) : (tupleOf texts).FloatFree := by
  refine .tuple fun x hx => ?_
  obtain ⟨s, -, rfl⟩ := mem_map.mp hx
  exact .str s

theorem floatFree_asdict (s : PersistentExecutionState) (id : PyStr) :
    (PyVal.ofRecord (s.asdict ++ [(py "state_id", .str id)])).FloatFree := by
  simp [PersistentExecutionState.asdict, MandateFields.asdict, DevelopmentLane.asdict,
    RecoveryState.asdict, floatFree_ofStr?, floatFree_tupleOf]

/-- **What `write` stored is loaded as the state that it was.** -/
theorem load_write {files files' : Files} {s : PersistentExecutionState} {path : PyStr}
    (h : write P files s = .ok (files', path)) : load P floatOf files' path = .ok s := by
  obtain ⟨stateId, hid, h⟩ := bind_ok.mp h
  obtain ⟨tree, htree, h⟩ := bind_ok.mp h
  cases h
  have hr : (Dict.keys (s.asdict ++ [(py "state_id", .str stateId.text)])).Nodup := by
    simp [PersistentExecutionState.asdict, Dict.keys]
  unfold load
  rw [Dict.get?_set_self]
  dsimp only
  rw [(plain_of_dumpsWith (floatFree_asdict s _) htree).parse_render]
  dsimp only
  refine bind_ok.mpr ⟨s.mandate, item_of_record hr htree
    (by simp [PersistentExecutionState.asdict]) fun w hw => readMandate_eq hw, ?_⟩
  refine bind_ok.mpr ⟨s.lane, item_of_record hr htree
    (by simp [PersistentExecutionState.asdict]) fun w hw => readLane_eq hw, ?_⟩
  refine bind_ok.mpr ⟨s.recovery, item_of_record hr htree
    (by simp [PersistentExecutionState.asdict]) fun w hw => readRecovery_eq hw, ?_⟩
  obtain ⟨w, hw, hget⟩ := get?_value_of_dumpsWith floatOf hr htree
    (show Dict.get? _ (py "schema_version") = some (.str s.schemaVersion) by
      simp [PersistentExecutionState.asdict])
  refine bind_ok.mpr ⟨s.schemaVersion, ?_, ?_⟩
  · rw [hget, value_of_dumpsWith_str hw]
    rfl
  refine bind_ok.mpr ⟨some stateId.text, text?_of_record hr htree
    (by simp [PersistentExecutionState.asdict, PyVal.ofStr?]), ?_⟩
  exact bind_ok.mpr ⟨stateId, mapError_ok.mpr hid,
    bind_ok.mpr ⟨(), check_ok.mpr (.inr rfl), rfl⟩⟩

end

/-! ## Runs of results -/

/-- **A result keeps the budget**: nothing moves a state that waits; a success resets the budget to
three and runs, so it may come only where the budget is three and nothing has ended; and a failure
may come only within the budget, and where something has ended only if it exhausts the budget. -/
def Kept (s : RecoveryState) (result : PyStr) : Prop :=
  s.state ≠ .waitingOperatorAuthority →
    (result = py "SUCCESS" → s.recoveryBudget = 3 ∧ ¬ s.state.Terminal) ∧
    (result ≠ py "SUCCESS" → result ≠ py "AUTHORITY_REQUIRED" →
      s.attempts ≤ s.recoveryBudget ∧ (s.state.Terminal → s.recoveryBudget ≤ s.attempts + 1))

/-- Every result of a run keeps the budget. -/
def AllKept (s : RecoveryState) : List PyStr → Prop
  | [] => True
  | result :: results => Kept s result ∧ AllKept (recoveryTransition s result) results

/-- **What a run of results is to keep**: the budget; the attempts, which exceed it by the last one
at most; that what has ended does not go on, and that what waits for the operator waits. And every
state is loaded as it was stored. -/
structure RecoveryLaws (P : Platform) (floatOf : FloatOfText) (s : RecoveryState)
    (results : List PyStr) : Prop where
  budget : ∀ t ∈ reached s results, t.recoveryBudget = s.recoveryBudget
  attempts : ∀ t ∈ reached s results, t.attempts ≤ t.recoveryBudget + 1
  ended : (reached s results).Pairwise fun t u => t.state.Terminal → ¬ u.state.Active
  waiting : (reached s results).Pairwise fun t u => t.state = .waitingOperatorAuthority → u = t
  stored : ∀ t ∈ reached s results, ∀ mandate lane version files files' path,
    write P files ⟨mandate, lane, t, version⟩ = .ok (files', path) →
      load P floatOf files' path = .ok ⟨mandate, lane, t, version⟩

section

variable {s : RecoveryState} {result : PyStr}

theorem recoveryTransition_of_waiting (h : s.state = .waitingOperatorAuthority) :
    recoveryTransition s result = s :=
  if_pos h

/-- **What one result does.** -/
theorem kept_iff (hatts : s.attempts ≤ s.recoveryBudget + 1) :
    Kept s result ↔ (recoveryTransition s result).recoveryBudget = s.recoveryBudget ∧
      (recoveryTransition s result).attempts ≤ (recoveryTransition s result).recoveryBudget + 1 ∧
      (s.state.Terminal → ¬ (recoveryTransition s result).state.Active) := by
  unfold Kept recoveryTransition
  by_cases hwaiting : s.state = .waitingOperatorAuthority
  · rw [if_pos hwaiting]
    exact iff_of_true (fun h => absurd hwaiting h)
      ⟨rfl, hatts, RecoveryName.not_active_of_terminal⟩
  rw [if_neg hwaiting]
  simp only [ne_eq, hwaiting, not_false_eq_true, true_implies]
  by_cases hsuccess : result = py "SUCCESS"
  · rw [if_pos hsuccess]
    simp only [hsuccess, true_implies, not_true_eq_false, false_implies, and_true]
    have hact : RecoveryName.Active .running := .inl rfl
    simp only [hact, not_true_eq_false, Nat.zero_le, true_and, eq_comm]
  rw [if_neg hsuccess]
  by_cases hauth : result = py "AUTHORITY_REQUIRED"
  · rw [if_pos hauth]
    refine iff_of_true ⟨fun h => absurd h hsuccess, fun _ h => absurd hauth h⟩
      ⟨rfl, hatts, fun _ => ?_⟩
    show ¬ RecoveryName.Active .waitingOperatorAuthority
    decide
  rw [if_neg hauth]
  simp only [hsuccess, hauth, not_false_eq_true, false_implies, true_implies, true_and]
  by_cases hbudget : s.recoveryBudget ≤ s.attempts + 1
  · rw [if_pos hbudget]
    have hblocked : ¬ RecoveryName.Active .blocked := by decide
    simp only [hbudget, hblocked, not_false_eq_true, implies_true, and_true, true_and]
    omega
  · rw [if_neg hbudget]
    have hact : RecoveryName.Active .recovering := .inr rfl
    simp only [hbudget, hact, not_true_eq_false, true_and]
    refine and_congr_left fun _ => ?_
    omega

/-- What does not go on does not go on after a result that keeps the budget. -/
theorem not_active_recoveryTransition (hatts : s.attempts ≤ s.recoveryBudget + 1)
    (hkept : Kept s result) (h : ¬ s.state.Active) :
    ¬ (recoveryTransition s result).state.Active := by
  by_cases hwaiting : s.state = .waitingOperatorAuthority
  · rw [recoveryTransition_of_waiting hwaiting]
    exact h
  · refine ((kept_iff hatts).mp hkept).2.2 ?_
    revert h hwaiting
    cases s.state <;> decide

theorem head_mem_reached (s : RecoveryState) (results : List PyStr) : s ∈ reached s results := by
  cases results <;> simp [reached]

end

section

variable {P floatOf}

/-- A state that does not go on is not left for one that does. -/
theorem not_active_of_mem_reached {results : List PyStr} {s t : RecoveryState}
    (hatts : s.attempts ≤ s.recoveryBudget + 1) (hkept : AllKept s results)
    (h : ¬ s.state.Active) (ht : t ∈ reached s results) : ¬ t.state.Active := by
  induction results generalizing s with
  | nil =>
    obtain rfl := mem_singleton.mp ht
    exact h
  | cons result results ih =>
    rcases mem_cons.mp ht with rfl | ht
    · exact h
    · exact ih ((kept_iff hatts).mp hkept.1).2.1 hkept.2
        (not_active_recoveryTransition hatts hkept.1 h) ht

theorem eq_of_mem_reached_of_waiting {results : List PyStr} {s t : RecoveryState}
    (h : s.state = .waitingOperatorAuthority) (ht : t ∈ reached s results) : t = s := by
  induction results generalizing s with
  | nil => exact mem_singleton.mp ht
  | cons result results ih =>
    rcases mem_cons.mp ht with rfl | ht
    · rfl
    · rw [recoveryTransition_of_waiting h] at ht
      exact ih h ht

/-- **A run keeps the recovery laws** iff it starts within the budget and each of its results keeps
it. -/
theorem recoveryLaws_iff (s : RecoveryState) (results : List PyStr) :
    RecoveryLaws P floatOf s results ↔ s.attempts ≤ s.recoveryBudget + 1 ∧ AllKept s results := by
  constructor
  · intro h
    refine ⟨h.attempts s (head_mem_reached s results), ?_⟩
    induction results generalizing s with
    | nil => trivial
    | cons result results ih =>
      have hnext : recoveryTransition s result ∈ reached s (result :: results) :=
        mem_cons_of_mem _ (head_mem_reached _ _)
      have hkept : Kept s result := by
        refine (kept_iff (h.attempts s (head_mem_reached _ _))).mpr
          ⟨h.budget _ hnext, h.attempts _ hnext, ?_⟩
        exact rel_of_pairwise_cons h.ended (head_mem_reached _ _)
      refine ⟨hkept, ih _ ⟨fun t ht => ?_, fun t ht => ?_, ?_, ?_, fun t ht => ?_⟩⟩
      · rw [h.budget t (mem_cons_of_mem _ ht), h.budget _ hnext]
      · exact h.attempts t (mem_cons_of_mem _ ht)
      · exact h.ended.of_cons
      · exact h.waiting.of_cons
      · exact h.stored t (mem_cons_of_mem _ ht)
  · rintro ⟨hatts, hkept⟩
    induction results generalizing s with
    | nil =>
      refine ⟨fun t ht => ?_, fun t ht => ?_, pairwise_singleton _ _,
        pairwise_singleton _ _, fun _ _ _ _ _ _ _ _ => load_write⟩
      · rw [mem_singleton.mp ht]
      · rw [mem_singleton.mp ht]
        exact hatts
    | cons result results ih =>
      have hstep := (kept_iff hatts).mp hkept.1
      have hrest := ih _ hstep.2.1 hkept.2
      refine ⟨fun t ht => ?_, fun t ht => ?_, pairwise_cons.mpr ⟨fun t ht hended => ?_,
        hrest.ended⟩, pairwise_cons.mpr ⟨fun t ht hwaiting => ?_, hrest.waiting⟩,
        fun _ _ _ _ _ _ _ _ => load_write⟩
      · rcases mem_cons.mp ht with rfl | ht
        · rfl
        · rw [hrest.budget t ht, hstep.1]
      · rcases mem_cons.mp ht with rfl | ht
        · exact hatts
        · exact hrest.attempts t ht
      · exact not_active_of_mem_reached hstep.2.1 hkept.2 (hstep.2.2 hended) ht
      · rw [recoveryTransition_of_waiting hwaiting] at ht
        exact eq_of_mem_reached_of_waiting hwaiting ht

end

/-! ### A success behind the end -/

/-- **A success resets what was blocked**: the execution runs again, with a budget of three. -/
theorem blocked_runs_again : recoveryTransition
      ⟨.blocked, [py "RECOVERY_BUDGET_EXHAUSTED"], none, 1, 1, [], none, none⟩ (py "SUCCESS") =
        ⟨.running, [], none, 0, 3, [], none, none⟩ ∧
    ∀ P floatOf, ¬ RecoveryLaws P floatOf
      ⟨.blocked, [py "RECOVERY_BUDGET_EXHAUSTED"], none, 1, 1, [], none, none⟩
      [py "SUCCESS"] := by
  refine ⟨by decide +kernel, fun P floatOf h => ?_⟩
  have hbudget := h.budget ⟨.running, [], none, 0, 3, [], none, none⟩
    (by unfold reached; exact mem_cons_of_mem _ (by decide +kernel))
  exact absurd hbudget (by decide)

end OvcReplay.Skills.Vit
