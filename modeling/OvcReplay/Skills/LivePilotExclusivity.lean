import OvcReplay.Skills.LivePilotSteps
import OvcReplay.Logs.Calls
import OvcReplay.Json.Values

/-! # The exclusivity of the live pilot

At most one dispatch of the pilot's work item is alive, a dispatch that a restored checkpoint lists
is not started again, and a coordinator that quarantined itself takes no lease and starts no worker.
The coordinator keeps this over one fence. It forgets its workers when the fence moves on or when it
is restored, and its quarantine is no part of a checkpoint; what the calls must not do for the three
to hold over leases and restarts is stated as a condition on them. -/

namespace OvcReplay.Skills.LivePilot

open List Python Json Raising Logs

variable (P : Platform) (C : Conversions)

/-! ## What is promised -/

/-- The dispatch is one of the pilot's work item. -/
def OfPilot (dispatchId : PyStr) : Prop :=
  ∃ identity : DispatchIdentity, expectedWorkId P = .ok identity.workId ∧
    identity.dispatchId P = .ok dispatchId

/-- **A dispatch of the pilot is alive**: its transaction is not terminal and its worker is
authoritative. -/
structure Alive (c : Coordinator) (dispatchId : PyStr) : Prop where
  pilot : OfPilot P dispatchId
  transaction : ∃ tx, c.transactions.get? dispatchId = some tx ∧ tx.phase ∉ Phase.terminal
  worker : ∃ w, c.workers.get? dispatchId = some w ∧ w.authoritative = true

/-- **At most one dispatch of the pilot is alive.** -/
def Exclusive (c : Coordinator) : Prop :=
  ∀ dispatchId dispatchId', Alive P c dispatchId → Alive P c dispatchId' → dispatchId = dispatchId'

/-- What is to be remembered of a run over its restarts. -/
structure Memory where
  /-- The dispatches that the restored checkpoints list as open. -/
  listed : List PyStr
  /-- The highest fence of a restored checkpoint. -/
  floor : Int
  /-- A coordinator quarantined itself. -/
  quarantined : Bool

/-- The checkpoint that a call restores. -/
def restoredBy (s : Session) : Call → Option LivePilotCheckpoint
  | .restore _ _ n => s.checkpoints[n]?
  | _ => none

/-- The memory of a coordinator that may have quarantined itself. -/
def Memory.noting (m : Memory) (c : Coordinator) : Memory :=
  { m with quarantined := m.quarantined || decide (c.quarantineReason.getD [] ≠ []) }

/-- The memory of a checkpoint that is restored. -/
def Memory.restoring (m : Memory) (checkpoint : LivePilotCheckpoint) : Memory :=
  { m with
    listed := m.listed ++ checkpoint.openDispatchIds
    floor := max m.floor checkpoint.fencingGeneration }

/-- A session and its memory, after a call. -/
def track (state : Session × Memory) (call : Call) : Session × Memory :=
  let after := left (step P C call state.1)
  match restoredBy state.1 call, step P C call state.1 with
  | some checkpoint, .ok _ _ => (after, (state.2.restoring checkpoint).noting after.coordinator)
  | _, _ => (after, state.2.noting after.coordinator)

/-- **What the pilot promises of a call.** -/
structure Respects (state : Session × Memory) (call : Call) : Prop where
  exclusive : Exclusive P (track P C state call).1.coordinator
  fresh : ∀ args dispatchId, call = .start args → Returned P C state.1 call →
    args.identity.dispatchId P = .ok dispatchId → dispatchId ∉ state.2.listed
  quarantined : state.2.quarantined = true →
    (∀ holder, call = .acquireLease holder → ¬ Returned P C state.1 call) ∧
      ∀ args, call = .start args → ¬ Returned P C state.1 call

/-! ## What the calls must not do -/

/-- No other dispatch of the pilot is alive. -/
def Alone (c : Coordinator) (dispatchId : PyStr) : Prop :=
  ∀ dispatchId', Alive P c dispatchId' → dispatchId' = dispatchId

/-- **A careful call.** A dispatch is started, recovered or marked unknown beside its worker only
while no other dispatch of the pilot is alive; an unknown start has a fence that was reached; after
a quarantine nothing is restored, and no restart goes back behind an earlier one. -/
def Careful (state : Session × Memory) : Call → Prop
  | .start args =>
    ∀ dispatchId, state.1.coordinator.admitStart P args = .ok dispatchId →
      Alone P state.1.coordinator dispatchId
  | .markUnknownStart identity lease =>
    state.1.coordinator.validateLease P lease = .ok () →
      identity.fencingGeneration ≤ state.1.coordinator.currentGeneration ∧
        ∀ dispatchId w, identity.dispatchId P = .ok dispatchId → OfPilot P dispatchId →
          state.1.coordinator.workers.get? dispatchId = some w → w.authoritative = true →
          Alone P state.1.coordinator dispatchId
  | .reconcileUnknown dispatchId (some worker) =>
    ∀ tx, state.1.coordinator.transactions.get? dispatchId = some tx →
      tx.phase = .dispatchUnknown → OfPilot P dispatchId →
      worker.fencingGeneration = state.1.coordinator.currentGeneration →
      Alone P state.1.coordinator dispatchId
  | .restore _ _ n =>
    state.2.quarantined = false ∧ ∀ checkpoint, state.1.checkpoints[n]? = some checkpoint →
      state.2.floor ≤ checkpoint.fencingGeneration
  | _ => True

/-! ## Identities -/

/-- The identity that a call brings. -/
def Call.identity? : Call → Option DispatchIdentity
  | .start args => some args.identity
  | .markUnknownStart identity _ => some identity
  | _ => none

/-- The identity is brought by a call of the run. -/
def NamedBy (calls : List Call) (identity : DispatchIdentity) : Prop :=
  ∃ call ∈ calls, call.identity? = some identity

/-- The canonical texts of dispatch identities. -/
def IdentityText (named : DispatchIdentity → Prop) (text : PyStr) : Prop :=
  ∃ (identity : DispatchIdentity) (tree : Json), named identity ∧
    dumps P (.ofRecord identity.asdict) = .ok tree ∧ text = tree.render

variable {P C} {named : DispatchIdentity → Prop}

theorem floatFree_asdict (identity : DispatchIdentity) :
    (PyVal.ofRecord identity.asdict).FloatFree := by
  refine .dict fun p hp => ?_
  simp only [DispatchIdentity.asdict, map_cons, map_nil, mem_cons,
    not_mem_nil, or_false] at hp
  rcases hp with rfl | rfl | rfl | rfl | rfl | rfl
  all_goals first | exact .str _ | exact .int _

theorem nodup_asdict (identity : DispatchIdentity) : identity.asdict.keys.Nodup := by
  show [py "programme_id", py "packet_id", py "action", py "work_id", py "executor_id",
    py "fencing_generation"].Nodup
  decide +kernel

theorem get?_asdict (identity : DispatchIdentity) :
    identity.asdict.get? (py "fencing_generation") =
      some (.int identity.fencingGeneration) := by
  have hne : ∀ k ∈ [py "programme_id", py "packet_id", py "action", py "work_id",
      py "executor_id"], k ≠ py "fencing_generation" := by
    decide +kernel
  simp only [mem_cons, not_mem_nil, or_false, forall_eq_or_imp, forall_eq] at hne
  obtain ⟨h1, h2, h3, h4, h5⟩ := hne
  rw [DispatchIdentity.asdict, Dict.get?_cons, if_neg h1, Dict.get?_cons, if_neg h2,
    Dict.get?_cons, if_neg h3, Dict.get?_cons, if_neg h4, Dict.get?_cons, if_neg h5,
    Dict.get?_cons, if_pos rfl]

/-- **A dispatch id has one fence.** -/
theorem fence_eq (hfree : P.CollisionFreeOn (IdentityText P named))
    {identity identity' : DispatchIdentity} (hnamed : named identity) (hnamed' : named identity')
    {dispatchId : PyStr} (h : identity.dispatchId P = .ok dispatchId)
    (h' : identity'.dispatchId P = .ok dispatchId) :
    identity.fencingGeneration = identity'.fencingGeneration := by
  obtain ⟨tree, htree, h⟩ := bind_ok.mp h
  obtain ⟨payload, hpay, h⟩ := bind_ok.mp h
  obtain ⟨tree', htree', h'⟩ := bind_ok.mp h'
  obtain ⟨payload', hpay', h'⟩ := bind_ok.mp h'
  obtain ⟨-, rfl⟩ := encodeUtf8_ok.mp hpay
  obtain ⟨-, rfl⟩ := encodeUtf8_ok.mp hpay'
  have hhash : P.sha256 tree.render = P.sha256 tree'.render := by
    have htext : (P.sha256 tree.render).text = (P.sha256 tree'.render).text :=
      (Except.ok.inj h).trans (Except.ok.inj h').symm
    exact HexDigest.ext htext
  have hrender := hfree _ _ ⟨identity, tree, hnamed, htree, rfl⟩
    ⟨identity', tree', hnamed', htree', rfl⟩ hhash
  have hfield := dumpsWith_field_eq_of_render (nodup_asdict identity) (floatFree_asdict identity)
    (floatFree_asdict identity') htree htree' hrender (get?_asdict identity) (get?_asdict identity')
  obtain ⟨w, hw⟩ : ∃ w, dumpsWith P refuseNonFinite (.int identity.fencingGeneration) = .ok w := by
    obtain ⟨members, rfl⟩ := exists_members_of_dumpsWith htree
    obtain ⟨w, hw, -⟩ := mem_of_dumpsWith_ofRecord htree (get?_asdict identity)
    exact ⟨w, hw⟩
  have hw' := hfield ▸ hw
  have hval : w.value (fun _ => .nan) = .int identity.fencingGeneration :=
    value_of_dumpsWith_int hw
  rw [value_of_dumpsWith_int hw'] at hval
  exact (PyVal.int.inj hval).symm

/-! ## The invariant -/

variable (P named) in
/-- The dispatch has an identity whose fence was reached by `generation`. -/
def KnownBy (generation : Int) (dispatchId : PyStr) : Prop :=
  ∃ identity : DispatchIdentity, named identity ∧ identity.dispatchId P = .ok dispatchId ∧
    identity.fencingGeneration ≤ generation

theorem KnownBy.mono {generation generation' : Int} {dispatchId : PyStr}
    (h : KnownBy P named generation dispatchId) (hle : generation ≤ generation') :
    KnownBy P named generation' dispatchId := by
  obtain ⟨identity, hnamed, hid, hfence⟩ := h
  exact ⟨identity, hnamed, hid, hfence.trans hle⟩

variable (P named) in
/-- **What careful calls keep of a coordinator**: one dispatch is alive, and every dispatch has a
fence that was reached. -/
structure Held (c : Coordinator) : Prop where
  exclusive : Exclusive P c
  known : ∀ dispatchId ∈ c.transactions.keys, KnownBy P named c.currentGeneration dispatchId
  workers : ∀ dispatchId ∈ c.workers.keys, dispatchId ∈ c.transactions.keys

variable (P named) in
/-- **What careful calls keep of a session and its memory.** -/
structure Kept (state : Session × Memory) : Prop where
  held : Held P named state.1.coordinator
  saved : ∀ checkpoint ∈ state.1.checkpoints, ∀ dispatchId ∈ checkpoint.openDispatchIds,
    KnownBy P named checkpoint.fencingGeneration dispatchId
  listed : ∀ dispatchId ∈ state.2.listed, KnownBy P named state.2.floor dispatchId
  fence : state.2.floor ≤ state.1.coordinator.currentGeneration
  leased : state.1.coordinator.currentLease ≠ none →
    state.2.floor < state.1.coordinator.currentGeneration
  quarantined : state.2.quarantined = true →
    state.1.coordinator.quarantineReason.getD [] ≠ []

variable {c' : Coordinator} {call : Call} {m : Memory} {s : Session}

/-- Nothing is alive beside a dispatch, if what is alive after the call was alive before or is
it. -/
theorem Exclusive.of_alone {c : Coordinator} {dispatchId : PyStr} (h : Alone P c dispatchId)
    (halive : ∀ d, Alive P c' d → d = dispatchId ∨ Alive P c d) : Exclusive P c' := by
  have hall : ∀ d, Alive P c' d → d = dispatchId := fun d hd => (halive d hd).elim id (h d)
  intro d d' hd hd'
  rw [hall d hd, hall d' hd']

/-- What is alive after the call was alive before. -/
theorem Exclusive.of_imp {c : Coordinator} (h : Exclusive P c)
    (halive : ∀ d, Alive P c' d → Alive P c d) : Exclusive P c' :=
  fun d d' hd hd' => h d d' (halive d hd) (halive d' hd')

/-- A store for one dispatch leaves the others as they are. -/
theorem alive_of_set {c : Coordinator} {d : PyStr} (h : Alive P c' d) (dispatchId : PyStr)
    (htrans : ∀ q, q ≠ dispatchId → c'.transactions.get? q = c.transactions.get? q)
    (hworkers : ∀ q, q ≠ dispatchId → c'.workers.get? q = c.workers.get? q) :
    d = dispatchId ∨ Alive P c d := by
  by_cases hd : d = dispatchId
  · exact .inl hd
  · refine .inr ⟨h.pilot, ?_, ?_⟩
    · rw [← htrans d hd]
      exact h.transaction
    · rw [← hworkers d hd]
      exact h.worker

theorem get?_set_other {β : Type} (d : Dict PyStr β) {k : PyStr} (w : β) (q : PyStr) (h : q ≠ k) :
    Dict.get? (d.set k w) q = d.get? q :=
  Dict.get?_set_of_ne d w (Ne.symm h)

/-- **Careful calls keep a coordinator held.** -/
theorem Held.moves {c : Coordinator} (hs : Held P named c) (h : Moves P c call c')
    (hc : s.coordinator = c) (hcaref : Careful P (s, m) call)
    (hnamed : ∀ identity, call.identity? = some identity → named identity) : Held P named c' := by
  subst hc
  have hmem : ∀ {β : Type} {q : PyStr} {d : Dict PyStr β} {b : β}, d.get? q = some b → q ∈ d.keys :=
    fun h => Dict.isSome_get?_iff.mp (by rw [h]; rfl)
  -- the transactions only grow, and with them the workers may
  have hgrown : ∀ {q tx}, ∀ d ∈ s.coordinator.workers.keys,
      d ∈ Dict.keys (s.coordinator.transactions.set q tx) :=
    fun d hd => Dict.mem_keys_set.mpr (.inr (hs.workers d hd))
  have hboth : ∀ {q tx w}, ∀ d ∈ Dict.keys (s.coordinator.workers.set q w),
      d ∈ Dict.keys (s.coordinator.transactions.set q tx) :=
    Dict.forall_mem_keys_set (Dict.mem_keys_set.mpr (.inl rfl)) hgrown
  cases h with
  | kept => exact hs
  | fenced holder lease _ =>
    refine ⟨hs.exclusive.of_imp fun d hd => ⟨hd.pilot, hd.transaction, hd.worker⟩, ?_, hs.workers⟩
    intro d hd
    exact (hs.known d hd).mono (by show _ ≤ _ + 1; omega)
  | quarantined | noted | quieted =>
    exact ⟨hs.exclusive.of_imp fun d hd => ⟨hd.pilot, hd.transaction, hd.worker⟩, hs.known,
      hs.workers⟩
  | started args dispatchId tx worker hadmission =>
    have hadms := admitStart_ok hadmission
    refine ⟨Exclusive.of_alone (hcaref dispatchId hadmission) fun d hd => ?_, ?_, hboth⟩
    · exact alive_of_set hd dispatchId (get?_set_other _ _) (get?_set_other _ _)
    · exact Dict.forall_mem_keys_set ⟨args.identity, hnamed _ rfl, hadms.id, hadms.fence.le⟩
        hs.known
  | @beaten dispatchId lease worker worker' hget hsame =>
    refine ⟨hs.exclusive.of_imp fun d hd => ⟨hd.pilot, hd.transaction, ?_⟩, hs.known,
      Dict.forall_mem_keys_set (hs.workers _ (hmem hget)) hs.workers⟩
    obtain ⟨w, hw, hautho⟩ := hd.worker
    by_cases hid : dispatchId = d
    · subst hid
      rw [Dict.get?_set_self, Option.some.injEq] at hw
      subst hw
      exact ⟨worker, hget, hsame ▸ hautho⟩
    · rw [Dict.get?_set_of_ne _ _ hid] at hw
      exact ⟨w, hw, hautho⟩
  | @unknown identity lease dispatchId tx hlease hid =>
    obtain ⟨hreached, halone⟩ := hcaref hlease
    refine ⟨?_, Dict.forall_mem_keys_set ⟨identity, hnamed _ rfl, hid, hreached⟩ hs.known, hgrown⟩
    · by_cases hown : OfPilot P dispatchId ∧
        ∃ w, s.coordinator.workers.get? dispatchId = some w ∧ w.authoritative = true
      · obtain ⟨hpilot, w, hw, hautho⟩ := hown
        refine Exclusive.of_alone (halone dispatchId w hid hpilot hw hautho) ?_
        intro d hd
        exact alive_of_set hd dispatchId (get?_set_other _ _) fun _ _ => rfl
      · -- a dispatch that has no authoritative worker does not come alive
        refine hs.exclusive.of_imp fun d hd => ?_
        have hcases := alive_of_set (c := s.coordinator) hd dispatchId (get?_set_other _ _)
          fun _ _ => rfl
        refine hcases.resolve_left ?_
        rintro rfl
        exact hown ⟨hd.pilot, hd.worker⟩
  | @recovered dispatchId current tx worker _ hget hunk hfence hautho =>
    refine ⟨?_, Dict.forall_mem_keys_set (hs.known _ (hmem hget)) hs.known, hboth⟩
    by_cases hpilot : OfPilot P dispatchId
    · exact Exclusive.of_alone (hcaref current hget hunk hpilot hfence) fun d hd =>
        alive_of_set hd dispatchId (get?_set_other _ _) (get?_set_other _ _)
    · refine hs.exclusive.of_imp fun d hd => ?_
      have hcases := alive_of_set (c := s.coordinator) hd dispatchId (get?_set_other _ _)
        (get?_set_other _ _)
      refine hcases.resolve_left ?_
      rintro rfl
      exact hpilot hd.pilot
  | @completed dispatchId lease success worker tx hget hphase =>
    refine ⟨hs.exclusive.of_imp fun d hd => ?_,
      Dict.forall_mem_keys_set (hs.known _ (hs.workers _ (hmem hget))) hs.known, hgrown⟩
    have hcases := alive_of_set (c := s.coordinator) hd dispatchId (get?_set_other _ _)
      fun _ _ => rfl
    refine hcases.resolve_left ?_
    rintro rfl
    obtain ⟨tx', htx', hopen⟩ := hd.transaction
    rw [Dict.get?_set_self, Option.some.injEq] at htx'
    exact hopen (htx' ▸ hphase)

/-! ## Runs -/

/-- What a checkpoint lists are dispatches of the coordinator. -/
theorem mem_keys_of_mem_checkpoint {c : Coordinator} {dispatchId : PyStr}
    (h : dispatchId ∈ c.checkpoint.openDispatchIds) : dispatchId ∈ c.transactions.keys := by
  have hmem := (sortedBy_perm id _).mem_iff.mp h
  obtain ⟨p, hp, rfl⟩ := mem_map.mp hmem
  exact mem_map_of_mem ((mem_filter.mp hp).1)

/-- A restored coordinator is empty, at the fence of its checkpoint. -/
theorem restore_ok {authority freeze : Record} {checkpoint : LivePilotCheckpoint}
    {c : Coordinator} (h : restore P C authority freeze checkpoint = .ok c) :
    c.currentGeneration = checkpoint.fencingGeneration ∧ c.currentLease = none ∧
      c.transactions = [] ∧ c.workers = [] := by
  simp only [restore, Coordinator.create, bind_ok, check_ok, pure_ok] at h
  obtain ⟨-, -, restored, ⟨-, -, rfl⟩, -, -, rfl⟩ := h
  exact ⟨rfl, rfl, rfl, rfl⟩

theorem held_of_empty {c : Coordinator} (htrans : c.transactions = [])
    (hworkers : c.workers = []) : Held P named c where
  exclusive := by
    intro d _ hd
    obtain ⟨tx, htx, -⟩ := hd.transaction
    rw [htrans] at htx
    cases htx
  known := by
    rw [htrans]
    exact nofun
  workers := by
    rw [hworkers]
    exact nofun

/-- The fence only moves on, and a lease is of a fence that moved on. -/
theorem Moves.fence {c : Coordinator} (h : Moves P c call c') :
    c.currentGeneration ≤ c'.currentGeneration ∧ (c'.currentLease ≠ none → c.currentLease ≠ none ∨
        c.currentGeneration < c'.currentGeneration) := by
  cases h with
  | fenced holder lease _ =>
    constructor
    · show _ ≤ _ + 1
      omega
    · intro _
      right
      show _ < _ + 1
      omega
  | _ => exact ⟨le_rfl, fun h => .inl h⟩

/-- A quarantine stays. -/
theorem Moves.stays_quarantined {c : Coordinator} (h : Moves P c call c')
    (hs : c.quarantineReason.getD [] ≠ []) : c'.quarantineReason.getD [] ≠ [] := by
  cases h with
  | quarantined args =>
    show py "DUPLICATE_AUTHORITATIVE_START" ≠ []
    decide
  | _ => exact hs

/-- The memory of a call that restores nothing. -/
theorem track_of_not_restored (h : restoredBy s call = none ∨ ∃ e, step P C call s = .error e s) :
    track P C (s, m) call =
      (left (step P C call s), m.noting (left (step P C call s)).coordinator) := by
  rw [track]
  rcases h with h | ⟨e, h⟩
  · rw [h]
  · rw [h]
    cases restoredBy s call <;> rfl

/-- **A restart** raises and leaves the session as it is, or restores a checkpoint that was
taken. -/
theorem step_restore_cases (s : Session) (authority freeze : Record) (n : Nat) :
    (∃ e, step P C (.restore authority freeze n) s = .error e s) ∨
      ∃ checkpoint c, s.checkpoints[n]? = some checkpoint ∧
        restore P C authority freeze checkpoint = .ok c ∧
        step P C (.restore authority freeze n) s = .ok () { s with coordinator := c } := by
  have hends : ends (restart P C authority freeze n)
      (fun _ s' => ∃ checkpoint c, s.checkpoints[n]? = some checkpoint ∧
        restore P C authority freeze checkpoint = .ok c ∧ s' = { s with coordinator := c })
      (fun _ s' => s' = s) s := by
    rw [restart, ends_bind, ends_get]
    cases hget : s.checkpoints[n]? with
    | none => rfl
    | some checkpoint =>
      simp only [ends_bind, ends_lift, ends_modify]
      exact ⟨fun c hc => ⟨checkpoint, c, rfl, hc, rfl⟩, fun _ _ => trivial⟩
  unfold ends at hends
  show (∃ e, restart P C authority freeze n s = .error e s) ∨ ∃ checkpoint c, _ ∧ _ ∧
    restart P C authority freeze n s = _
  cases hcall : restart P C authority freeze n s with
  | ok u s' =>
    rw [hcall] at hends
    obtain ⟨checkpoint, c, hget, hc, rfl⟩ := hends
    exact .inr ⟨checkpoint, c, hget, hc, rfl⟩
  | error e s' =>
    rw [hcall] at hends
    obtain rfl := hends
    exact .inl ⟨e, rfl⟩

/-- A coordinator that is quarantined after the call, if the memory says so. -/
theorem quarantined_of_memory {c : Coordinator}
    (h : (m.quarantined || decide (c.quarantineReason.getD [] ≠ [])) = true)
    (hs : m.quarantined = true → c.quarantineReason.getD [] ≠ []) :
    c.quarantineReason.getD [] ≠ [] := by
  rcases Bool.or_eq_true_iff.mp h with h | h
  · exact hs h
  · exact of_decide_eq_true h

/-- Careful calls that restore nothing keep the invariant. -/
theorem Kept.of_runs {s' : Session} (hs : Kept P named (s, m)) (hcaref : Careful P (s, m) call)
    (hnamed : ∀ identity, call.identity? = some identity → named identity)
    (hruns : Runs P C s call s')
    (hcall : ∀ authority freeze n, call ≠ .restore authority freeze n) :
    Kept P named (s', m.noting s'.coordinator) := by
  cases hruns with
  | moved hmoves =>
    have hfence := hmoves.fence
    refine ⟨hs.held.moves hmoves rfl hcaref hnamed, hs.saved, hs.listed,
      hs.fence.trans hfence.1, ?_, ?_⟩
    · intro hleased
      rcases hfence.2 hleased with hleased | hlt
      · exact lt_of_lt_of_le (hs.leased hleased) hfence.1
      · exact lt_of_le_of_lt hs.fence hlt
    · exact fun h => quarantined_of_memory h fun hm =>
        hmoves.stays_quarantined (hs.quarantined hm)
  | saved =>
    refine ⟨hs.held, ?_, hs.listed, hs.fence, hs.leased,
      fun h => quarantined_of_memory h hs.quarantined⟩
    intro checkpoint hckpt dispatchId hmem
    rcases mem_append.mp hckpt with h | h
    · exact hs.saved checkpoint h dispatchId hmem
    · rw [mem_singleton.mp h] at hmem ⊢
      exact hs.held.known dispatchId (mem_keys_of_mem_checkpoint hmem)
  | restored => exact absurd rfl (hcall _ _ _)

/-- **Careful calls keep the invariant.** -/
theorem Kept.track {state : Session × Memory} (hs : Kept P named state)
    (hcaref : Careful P state call)
    (hnamed : ∀ identity, call.identity? = some identity → named identity) :
    Kept P named (track P C state call) := by
  obtain ⟨s, m⟩ := state
  by_cases hcall : ∃ authority freeze n, call = .restore authority freeze n
  swap
  · have hne : ∀ authority freeze n, call ≠ .restore authority freeze n :=
      fun a f n h => hcall ⟨a, f, n, h⟩
    have hnone : restoredBy s call = none := by
      cases call with
      | restore a f n => exact absurd rfl (hne a f n)
      | _ => rfl
    rw [track_of_not_restored (.inl hnone)]
    exact hs.of_runs hcaref hnamed (runs_step s call) hne
  obtain ⟨authority, freeze, n, rfl⟩ := hcall
  obtain ⟨hquar, hfloor⟩ := hcaref
  rcases step_restore_cases (P := P) (C := C) s authority freeze n with
    ⟨e, herror⟩ | ⟨checkpoint, c, hget, hrestore, hok⟩
  · rw [track_of_not_restored (.inr ⟨e, herror⟩), herror]
    exact ⟨hs.held, hs.saved, hs.listed, hs.fence, hs.leased,
      fun h => quarantined_of_memory h hs.quarantined⟩
  · obtain ⟨hgen, hlease, htrans, hworkers⟩ := restore_ok hrestore
    have hle : m.floor ≤ checkpoint.fencingGeneration := hfloor checkpoint hget
    have hmem : checkpoint ∈ s.checkpoints := mem_of_getElem? hget
    have htrack : LivePilot.track P C (s, m) (.restore authority freeze n) =
        ({ s with coordinator := c }, (m.restoring checkpoint).noting c) := by
      rw [LivePilot.track, restoredBy, hget, hok]
      rfl
    rw [htrack]
    refine ⟨held_of_empty htrans hworkers, hs.saved, ?_, ?_, ?_, ?_⟩
    · intro dispatchId h
      rcases mem_append.mp h with h | h
      · exact (hs.listed dispatchId h).mono (le_max_left _ _)
      · exact (hs.saved checkpoint hmem dispatchId h).mono (le_max_right _ _)
    · show max _ _ ≤ c.currentGeneration
      rw [max_eq_right hle, hgen]
    · exact fun h => absurd hlease h
    · refine fun h => quarantined_of_memory h fun hm => ?_
      have hnot : m.quarantined = false := hquar
      rw [show (m.restoring checkpoint).quarantined = m.quarantined from rfl, hnot] at hm
      cases hm

/-- **What a careful call promises.** -/
theorem respects_of_kept (hfree : P.CollisionFreeOn (IdentityText P named))
    {state : Session × Memory} (hs : Kept P named state) (hcaref : Careful P state call)
    (hnamed : ∀ identity, call.identity? = some identity → named identity) :
    Respects P C state call where
  exclusive := (hs.track hcaref hnamed).held.exclusive
  fresh := by
    rintro args dispatchId rfl hreturned hid hlisted
    obtain ⟨_, hadms⟩ := admits_of_returned hreturned
    obtain ⟨identity, hlistedName, hknown, hfence⟩ := hs.listed dispatchId hlisted
    have hsame := fence_eq hfree (hnamed _ rfl) hlistedName hid hknown
    have hleased := hs.leased hadms.leased
    have hcur := hadms.fence
    omega
  quarantined := by
    intro hquar
    have hreason := hs.quarantined hquar
    constructor
    · rintro holder rfl hreturned
      exact hreason (unquarantined_of_returned hreturned)
    · rintro args rfl hreturned
      obtain ⟨_, hadms⟩ := admits_of_returned hreturned
      exact hreason hadms.unquarantined

/-- A session that starts with a new coordinator. -/
def began (c : Coordinator) : Session × Memory := (⟨c, []⟩, ⟨[], 0, false⟩)

theorem kept_of_create {authority freeze : Record} {c : Coordinator}
    (h : Coordinator.create P C authority freeze = .ok c) : Kept P named (began c) := by
  simp only [Coordinator.create, bind_ok, pure_ok] at h
  obtain ⟨-, -, rfl⟩ := h
  exact ⟨held_of_empty rfl rfl, nofun, nofun, le_rfl, fun h => absurd rfl h, nofun⟩

namespace Reference

/-- Texts in capitals or small letters as they are, and integers only. -/
def conversions : Conversions where
  intOf
    | .int z => .ok z
    | _ => .error .typeError
  upper := id
  lower := id

/-- An authority that is accepted. -/
def authority : Record :=
  [(py "approved", .bool true), (py "effective", .bool true),
    (py "programme_id", .str programmeId),
    (py "scope", .ofRecord
      [(py "programme_allowlist", .ofStrs [programmeId]),
        (py "packet_allowlist", .ofStrs [packetId]),
        (py "packet_class_allowlist", .ofStrs [packetClass]), (py "worker_concurrency", .int 1),
        (py "max_speculative_depth", .int 1)]),
    (py "executor", .ofRecord [(py "executor_identity", .str executorId)])]

/-- A freeze that is accepted. -/
def freeze : Record :=
  [(py "status", .str (py "FROZEN_PRE_EXECUTION")), (py "programme_id", .str programmeId),
    (py "packet_id", .str packetId), (py "branch", .str (py "pilot")),
    (py "executor", .ofRecord [(py "executor_identity", .str executorId)]),
    (py "action_classes", .ofStrs liveActions), (py "direct_main_mutation", .bool false),
    (py "parallel_physical_merge", .bool false), (py "force_push", .bool false),
    (py "history_rewrite", .bool false), (py "exact_write_paths", .ofStrs liveWritePaths)]

/-- The coordinator that they give. -/
def pilot : Coordinator where
  authority := authority
  freeze := freeze
  currentGeneration := 0
  currentLease := none
  quiescence := ⟨py "RUN", py "CERS_WP6_PILOT"⟩
  transactions := []
  workers := []
  quarantineReason := none
  lastReconciliationId := none

/-- The identity of the work item under a fence. -/
def identity (generation : Int) : DispatchIdentity where
  programmeId := programmeId
  packetId := packetId
  action := py "WRITE_FILE"
  workId := (expectedWorkId .reference).toOption.getD []
  executorId := executorId
  fencingGeneration := generation

theorem workId_identity (generation : Int) :
    (identity generation).workId = (expectedWorkId .reference).toOption.getD [] := by
  simp only [identity]

/-- The id of its dispatch. -/
def dispatchId (generation : Int) : PyStr :=
  ((identity generation).dispatchId .reference).toOption.getD []

/-- A start under a fence. -/
def startAt (generation : Int) : Call :=
  .start {
    identity := identity generation
    lease := ⟨programmeId ++ py ":" ++ packetId, executorId, generation, true⟩
    packetClass := packetClass
    firstWritePath := py "src/ovc/development/skills/cers/live.py"
    backgroundAssurance :=
      [(py "workflows", .list [.ofRecord [(py "status", .str (py "in_progress"))]]),
        (py "caller_absent", .bool true)] }

/-- The first lease and its start, and the second lease. -/
def turnover : List Call := [.acquireLease executorId, startAt 1, .acquireLease executorId]

/-- The state after the start under the second lease. -/
def state : Session × Memory :=
  track .reference conversions
    (turnover.foldl (track .reference conversions) (began pilot)) (startAt 2)

theorem binding :
    (validateBinding .reference conversions authority freeze).toOption = some () := by
  decide +kernel

theorem create_pilot :
    Coordinator.create .reference conversions authority freeze = .ok pilot := by
  rw [Coordinator.create, eq_ok_of_toOption binding]
  rfl

/-- Both dispatches are acknowledged, with authoritative workers. -/
theorem both_started : dispatchId 1 ≠ dispatchId 2 ∧ (∀ generation ∈ [(1 : Int), 2],
        ((identity generation).dispatchId .reference).toOption =
            some (dispatchId generation) ∧
          (state.1.coordinator.transactions.get? (dispatchId generation)).map (·.phase) =
            some .startAcknowledged ∧
          (state.1.coordinator.workers.get? (dispatchId generation)).map (·.authoritative) =
            some true) ∧
      (expectedWorkId .reference).toOption.isSome = true := by
  decide +kernel

/-- The first lease and its start bring one identity. -/
theorem named_first {identity' : DispatchIdentity}
    (h : NamedBy [.acquireLease executorId, startAt 1] identity') : identity' = identity 1 := by
  obtain ⟨call, hcall, hident⟩ := h
  rcases mem_pair.mp hcall with rfl | rfl
  · cases hident
  · exact (Option.some.inj hident).symm

theorem collisionFree_first : Platform.reference.CollisionFreeOn
    (IdentityText .reference (NamedBy [.acquireLease executorId, startAt 1])) := by
  rintro _ _ ⟨i, tree, hi, htree, rfl⟩ ⟨j, tree', hj, htree', rfl⟩ -
  obtain rfl := named_first hi
  obtain rfl := named_first hj
  rw [Except.ok.inj (htree.symm.trans htree')]

theorem leased : (track .reference conversions (began pilot)
    (.acquireLease executorId)).1.coordinator.transactions = [] := by
  decide +kernel

theorem alive_started {generation : Int} (h : generation ∈ [(1 : Int), 2]) :
    Alive Platform.reference state.1.coordinator (dispatchId generation) := by
  obtain ⟨-, hboth, hwork⟩ := both_started
  obtain ⟨hid, hphase, hworker⟩ := hboth generation h
  have hitem : expectedWorkId Platform.reference = .ok (identity generation).workId := by
    rw [workId_identity]
    exact eq_ok_getD hwork []
  refine ⟨⟨identity generation, hitem, eq_ok_of_toOption hid⟩, ?_, ?_⟩
  · obtain ⟨tx, htx, hst⟩ := Option.map_eq_some_iff.mp hphase
    refine ⟨tx, htx, ?_⟩
    rw [hst]
    decide
  · obtain ⟨w, hw, hautho⟩ := Option.map_eq_some_iff.mp hworker
    exact ⟨w, hw, hautho⟩

end Reference

end OvcReplay.Skills.LivePilot
