import OvcReplay.Logs.Calls
import OvcReplay.Skills.PersistentSupervisor

/-! # The steps of the persistent supervisor

What an accepted call does to the dispatches and their owners, and what it does to the lease. -/

namespace OvcReplay.Skills

open Python

namespace Supervisor

variable {P : Platform} {policy : PersistentTimingPolicy} {s s' : DurableSupervisorState}

/-! ## Reading the maps -/

/-- The phase of a dispatch. -/
def phase? (s : DurableSupervisorState) (d : PyStr) : Option Phase :=
  (s.transactions.get? d).map Transaction.phase

@[simp] theorem get?_withTransaction_self (s : DurableSupervisorState) (d : PyStr)
    (t : Transaction) : Dict.get? (withTransaction s d t).transactions d = some t :=
  Dict.get?_set_self _ _ _

theorem get?_withTransaction_of_ne {d d' : PyStr} (h : d' ≠ d) (t : Transaction) :
    Dict.get? (withTransaction s d' t).transactions d = s.transactions.get? d :=
  Dict.get?_set_of_ne _ _ h

@[simp] theorem phase?_withTransaction_self (s : DurableSupervisorState) (d : PyStr)
    (t : Transaction) : phase? (withTransaction s d t) d = some t.phase := by
  rw [phase?, get?_withTransaction_self, Option.map_some]

theorem phase?_withTransaction_of_ne {d d' : PyStr} (h : d' ≠ d) (t : Transaction) :
    phase? (withTransaction s d' t) d = phase? s d := by
  rw [phase?, get?_withTransaction_of_ne h, phase?]

@[simp] theorem phase?_withOwner (s : DurableSupervisorState) (d d' : PyStr) (o : Ownership) :
    phase? (withOwner s d' o) d = phase? s d := rfl

@[simp] theorem authoritativeOwner?_withTransaction (s : DurableSupervisorState) (d d' : PyStr)
    (t : Transaction) :
    authoritativeOwner? (withTransaction s d' t) d = authoritativeOwner? s d := rfl

theorem authoritativeOwner?_withOwner_self (s : DurableSupervisorState) (d : PyStr)
    (o : Ownership) :
    authoritativeOwner? (withOwner s d o) d = if o.authoritative then some o else none := by
  rw [authoritativeOwner?, withOwner, Dict.get?_set_self]
  rfl

theorem authoritativeOwner?_withOwner_of_ne {d d' : PyStr} (h : d' ≠ d) (o : Ownership) :
    authoritativeOwner? (withOwner s d' o) d = authoritativeOwner? s d := by
  rw [authoritativeOwner?, withOwner, Dict.get?_set_of_ne _ _ h, authoritativeOwner?]

variable {d : PyStr}

theorem authoritative_of_mem {o : Ownership} (h : authoritativeOwner? s d = some o) :
    s.ownership.get? d = some o ∧ o.authoritative = true := by
  rw [authoritativeOwner?, Option.filter_eq_some_iff] at h
  exact h

/-! ## What raises -/

@[simp] theorem transaction_ok {t : Transaction} :
    transaction s d = .ok t ↔ s.transactions.get? d = some t := by
  rw [transaction]
  cases s.transactions.get? d <;> simp

@[simp] theorem authoritativeOwner_ok {o : Ownership} :
    authoritativeOwner s d = .ok o ↔ authoritativeOwner? s d = some o := by
  rw [authoritativeOwner]
  cases authoritativeOwner? s d <;> simp

@[simp] theorem requireLease_ok {lease : SupervisorLease} {u : Unit} :
    requireLease s lease = .ok u ↔ Validates s lease := by
  rw [requireLease, check_ok]

/-! ## Steps -/

/-- What a call does besides dispatches and their owners. -/
inductive Rest (s : DurableSupervisorState) : DurableSupervisorState → Prop
  | same : Rest s s
  | leased (generation : Nat) (holder : Option PyStr) (active : Bool)
      (hgeneration : s.fencingGeneration ≤ generation) :
      Rest s { s with
        fencingGeneration := generation, leaseHolder := holder, leaseActive := active }
  | quiesced (mode : ServiceMode) : Rest s { s with quiescenceMode := mode }
  | recorded (source key identity : PyStr) (watermark : Int) : Rest s { s with
      eventIdentities := s.eventIdentities.set key identity
      eventWatermarks := s.eventWatermarks.set source watermark }
  | swept (ids : List PyStr) (last : Option PyStr) :
      Rest s { s with sweepIdentities := ids, lastReconciliationId := last }
  | attempted (provider : PyStr) (attempt : Int) :
      Rest s { s with providerAttempts := s.providerAttempts.set provider attempt }

theorem Rest.transactions (h : Rest s s') : s'.transactions = s.transactions := by
  cases h <;> rfl

theorem Rest.ownership (h : Rest s s') : s'.ownership = s.ownership := by
  cases h <;> rfl

theorem Rest.fencingGeneration (h : Rest s s') : s.fencingGeneration ≤ s'.fencingGeneration := by
  cases h with
  | leased generation holder active hgen => exact hgen
  | _ => exact le_refl s.fencingGeneration

/-- **What an accepted call does to the dispatches and their owners.** -/
inductive Moves (s : DurableSupervisorState) : Call → DurableSupervisorState → Prop
  /-- Nothing. -/
  | untouched (c : Call) (s' : DurableSupervisorState) (hrest : Rest s s') : Moves s c s'
  /-- A dispatch is persisted that was not persisted before. -/
  | persisted (proposal : PersistentDispatchProposal) (lease : SupervisorLease) (d : PyStr)
      (hnew : s.transactions.get? d = none) :
      Moves s (.persistDispatchIntent proposal lease)
        (withTransaction s d ⟨d, .intentPersisted, lease.fencingGeneration, none, none⟩)
  /-- The start of a dispatch that has not ended becomes unknown. -/
  | unknown (d reason : PyStr) (lease : SupervisorLease) (t : Transaction)
      (ht : s.transactions.get? d = some t) (hopen : ¬ t.phase.Terminal) :
      Moves s (.markUnknownStart d lease reason)
        (withTransaction s d { t with phase := .dispatchUnknown, reason := some reason })
  /-- A worker starts on a dispatch without an authoritative owner. -/
  | started (d w : PyStr) (lease : SupervisorLease) (t : Transaction)
      (ht : s.transactions.get? d = some t) (hfree : authoritativeOwner? s d = none) :
      Moves s (.acknowledgeStart d w lease) (started s d w lease t).2
  /-- A started dispatch runs. -/
  | running (d : PyStr) (lease : SupervisorLease) (t : Transaction)
      (ht : s.transactions.get? d = some t) (hphase : t.phase = .startAcknowledged) :
      Moves s (.markRunning d lease) (withTransaction s d { t with phase := .running })
  /-- The owner is alive. -/
  | beat (d w : PyStr) (lease : SupervisorLease) (o : Ownership)
      (ho : authoritativeOwner? s d = some o) :
      Moves s (.heartbeat d w lease)
        (withOwner s d { o with heartbeatSequence := o.heartbeatSequence + 1 })
  /-- The owner is lost. -/
  | lost (d w : PyStr) (lease : SupervisorLease) (t : Transaction) (o : Ownership)
      (ht : s.transactions.get? d = some t) (ho : authoritativeOwner? s d = some o)
      (hw : o.workerRunId = w) :
      Moves s (.markWorkerLost d w lease)
        (withTransaction (withOwner s d { o with authoritative := false }) d { t with
          phase := .dispatchUnknown, reason := some (py "WORKER_LOST_RECONCILE_REQUIRED") })
  /-- An unknown start did not happen. -/
  | notStarted (d : PyStr) (lease : SupervisorLease) (w : Option PyStr) (t : Transaction)
      (hlease : Validates s lease) (ht : s.transactions.get? d = some t)
      (hphase : t.phase = .dispatchUnknown) :
      Moves s (.reconcileUnknown d lease (py "NO_START") w) (withTransaction s d t.notStarted)
  /-- An unknown start is found active. -/
  | active (d w : PyStr) (lease : SupervisorLease) (observedPhase : PyStr) (t : Transaction)
      (phase : Phase) (heartbeats : Int) (hlease : Validates s lease)
      (ht : s.transactions.get? d = some t) (hphase : t.phase = .dispatchUnknown)
      (hactive : phase.Active) (howner : ∀ o ∈ authoritativeOwner? s d, o.workerRunId = w)
      (hother : observedPhase ≠ py "NO_START") :
      Moves s (.reconcileUnknown d lease observedPhase (some w))
        (withTransaction (withOwner s d ⟨d, w, lease.fencingGeneration, heartbeats, true⟩) d
          { t with phase := phase, workerRunId := some w,
                   reason := some (py "UNKNOWN_START_RECONCILED") })
  /-- An unknown start is found ended. -/
  | ended (d : PyStr) (w : Option PyStr) (lease : SupervisorLease) (observedPhase : PyStr)
      (t : Transaction) (phase : Phase) (hlease : Validates s lease)
      (ht : s.transactions.get? d = some t) (hphase : t.phase = .dispatchUnknown)
      (hterminal : phase.Terminal) (hother : observedPhase ≠ py "NO_START") :
      Moves s (.reconcileUnknown d lease observedPhase w)
        (withTransaction s d (t.reconciled phase w))
  /-- The owner completes its dispatch. -/
  | completed (d w : PyStr) (lease : SupervisorLease) (success : Bool) (t : Transaction)
      (ht : s.transactions.get? d = some t) (ho : (authoritativeOwner? s d).isSome) :
      Moves s (.complete d w lease success)
        (withTransaction s d { t with
          phase := if success then .completed else .failed, workerRunId := some w
          reason := none })

/-- What is observed and is no start is an end. -/
theorem terminal_of_not_active {phase : Phase} (hintent : phase ≠ .intentPersisted)
    (hunk : phase ≠ .dispatchUnknown) (hact : ¬ phase.Active) : phase.Terminal := by
  cases phase with
  | intentPersisted => exact absurd rfl hintent
  | dispatchUnknown => exact absurd rfl hunk
  | startAcknowledged => exact absurd (.inl rfl) hact
  | running => exact absurd (.inr rfl) hact
  | completed => exact .inl rfl
  | failed => exact .inr (.inl rfl)
  | cancelled => exact .inr (.inr rfl)

theorem orElse_eq_some {value : Option PyStr} {w : PyStr} (h : orElse value none = some w) :
    value = some w ∧ w ≠ [] := by
  cases value with
  | none => cases h
  | some text =>
    rw [orElse] at h
    split_ifs at h with hnil
    cases h
    exact ⟨rfl, hnil⟩

theorem reconciled_of_ne_nil {t : Transaction} {phase : Phase} {w : PyStr} (h : w ≠ []) :
    t.reconciled phase (some w) = { t with
      phase := phase, workerRunId := some w, reason := some (py "UNKNOWN_START_RECONCILED") } := by
  rw [Transaction.reconciled, orElse, if_neg h]

/-- **A reconciliation** does nothing, or finds the start not to have happened, active or ended. -/
theorem moves_of_reconcile {lease : SupervisorLease} {observedPhase : PyStr} {w : Option PyStr}
    {result : Transaction × DurableSupervisorState}
    (h : reconcileUnknown s d lease observedPhase w = .ok result) :
    Moves s (.reconcileUnknown d lease observedPhase w) result.2 := by
  simp only [reconcileUnknown, bind_ok, requireLease_ok, transaction_ok] at h
  obtain ⟨-, hlease, t, ht, h⟩ := h
  split_ifs at h with hphase
  · rw [reconciled] at h
    split_ifs at h with hnone
    · cases h
      subst hnone
      exact .notStarted d lease w t hlease ht hphase
    · cases hfound : Phase.ofText? observedPhase with
      | none =>
        rw [hfound] at h
        cases h
      | some phase =>
        rw [hfound] at h
        dsimp only at h
        split_ifs at h with hrefused
        rw [not_or] at hrefused
        rw [observed] at h
        split_ifs at h with hact
        · cases hworker : orElse w none with
          | none =>
            rw [hworker] at h
            cases h
          | some worker =>
            rw [hworker] at h
            simp only [observedStart, bind_ok, check_ok, pure_ok] at h
            obtain ⟨_, ⟨-, howner, rfl⟩, rfl⟩ := h
            obtain ⟨rfl, hne⟩ := orElse_eq_some hworker
            rw [reconciled_of_ne_nil hne]
            exact .active d worker lease observedPhase t phase _ hlease ht hphase hact
              howner hnone
        · cases h
          exact .ended d w lease observedPhase t phase hlease ht hphase
            (terminal_of_not_active hrefused.1 hrefused.2 hact) hnone
  · cases h
    exact .untouched _ _ .same

/-- **Every accepted call** is one of the steps. -/
theorem moves_of_call {c : Call} (h : call P policy s c = .ok s') : Moves s c s' := by
  cases c with
  | acquireLease holder =>
    simp only [call, acquireLease, map_ok, bind_ok, pure_ok] at h
    obtain ⟨_, ⟨-, -, rfl⟩, rfl⟩ := h
    exact .untouched _ _ (.leased _ _ _ (Nat.le_succ _))
  | reclaimLease holder expired =>
    simp only [call, reclaimLease, acquireLease, map_ok, bind_ok, pure_ok] at h
    obtain ⟨_, ⟨-, -, -, -, rfl⟩, rfl⟩ := h
    exact .untouched _ _ (.leased _ _ _ (Nat.le_succ _))
  | releaseLease lease =>
    simp only [call, releaseLease, bind_ok, pure_ok] at h
    obtain ⟨-, -, rfl⟩ := h
    exact .untouched _ _ (.leased _ _ _ le_rfl)
  | setQuiescence mode =>
    rw [call, setQuiescence] at h
    cases hmode : ServiceMode.ofText? mode with
    | none =>
      rw [hmode] at h
      cases h
    | some found =>
      rw [hmode] at h
      cases h
      exact .untouched _ _ (.quiesced found)
  | ingestEvent source seq event =>
    simp only [call, ingestEvent, map_ok, bind_ok] at h
    obtain ⟨result, ⟨-, -, key, -, identity, -, h⟩, rfl⟩ := h
    cases hseen : s.eventIdentities.get? key with
    | none =>
      rw [hseen] at h
      simp only [recordEvent, bind_ok, pure_ok] at h
      obtain ⟨-, -, rfl⟩ := h
      exact .untouched _ _ (.recorded _ _ _ _)
    | some existing =>
      rw [hseen] at h
      simp only [bind_ok, pure_ok] at h
      obtain ⟨-, -, rfl⟩ := h
      exact .untouched _ _ .same
  | referenceSweep id lease =>
    simp only [call, referenceSweep, map_ok, bind_ok, pure_ok] at h
    obtain ⟨result, ⟨-, -, rfl⟩, rfl⟩ := h
    split_ifs
    · exact .untouched _ _ .same
    · exact .untouched _ _ (.swept _ _)
  | persistDispatchIntent proposal lease =>
    simp only [call, persistDispatchIntent, map_ok, bind_ok] at h
    obtain ⟨result, ⟨-, -, -, -, -, -, d, -, h⟩, rfl⟩ := h
    rw [persisted] at h
    cases hfound : s.transactions.get? d with
    | none =>
      rw [hfound] at h
      cases h
      exact .persisted proposal lease d hfound
    | some existing =>
      rw [hfound] at h
      dsimp only at h
      split_ifs at h
      cases h
      exact .untouched _ _ .same
  | markUnknownStart d lease reason =>
    simp only [call, markUnknownStart, map_ok, bind_ok, requireLease_ok,
      transaction_ok, pure_ok] at h
    obtain ⟨result, ⟨-, -, t, ht, rfl⟩, rfl⟩ := h
    split_ifs with hterm
    · exact .untouched _ _ .same
    · exact .unknown d reason lease t ht hterm
  | acknowledgeStart d w lease =>
    simp only [call, acknowledgeStart, map_ok, bind_ok, requireLease_ok,
      transaction_ok] at h
    obtain ⟨result, ⟨-, -, t, ht, -, -, h⟩, rfl⟩ := h
    cases howner : authoritativeOwner? s d with
    | none =>
      rw [howner] at h
      cases h
      exact .started d w lease t ht howner
    | some owner =>
      rw [howner] at h
      simp only [bind_ok, pure_ok] at h
      obtain ⟨-, -, rfl⟩ := h
      exact .untouched _ _ .same
  | markRunning d lease =>
    simp only [call, markRunning, map_ok, bind_ok, requireLease_ok, transaction_ok,
      check_ok, pure_ok] at h
    obtain ⟨result, ⟨-, -, t, ht, -, hphase, rfl⟩, rfl⟩ := h
    split_ifs with hrunning
    · exact .untouched _ _ .same
    · exact .running d lease t ht (hphase.resolve_left hrunning)
  | heartbeat d w lease =>
    simp only [call, heartbeat, map_ok, bind_ok, requireLease_ok,
      authoritativeOwner_ok, pure_ok] at h
    obtain ⟨result, ⟨-, -, owner, howner, -, -, rfl⟩, rfl⟩ := h
    exact .beat d w lease owner howner
  | markWorkerLost d w lease =>
    simp only [call, markWorkerLost, map_ok, bind_ok, requireLease_ok,
      authoritativeOwner_ok, transaction_ok, check_ok, pure_ok] at h
    obtain ⟨result, ⟨-, -, owner, howner, -, hw, t, ht, rfl⟩, rfl⟩ := h
    exact .lost d w lease t owner ht howner hw
  | reconcileUnknown d lease observedPhase w =>
    obtain ⟨result, hres, rfl⟩ := map_ok.mp h
    exact moves_of_reconcile hres
  | complete d w lease success =>
    simp only [call, complete, map_ok, bind_ok, requireLease_ok,
      authoritativeOwner_ok, transaction_ok, pure_ok] at h
    obtain ⟨result, ⟨-, -, owner, howner, -, -, t, ht, rfl⟩, rfl⟩ := h
    exact .completed d w lease success t ht (by rw [howner]; rfl)
  | backoffForAttempt provider attempt =>
    simp only [call, backoffForAttempt, map_ok, bind_ok, pure_ok] at h
    obtain ⟨result, ⟨-, -, -, -, rfl⟩, rfl⟩ := h
    exact .untouched _ _ (.attempted _ _)

/-- **Generations never go back.** -/
theorem fencingGeneration_le {c : Call} (h : call P policy s c = .ok s') :
    s.fencingGeneration ≤ s'.fencingGeneration := by
  cases moves_of_call h with
  | untouched _ _ hrest => exact hrest.fencingGeneration
  | _ => exact le_refl s.fencingGeneration

/-- The state after a run. -/
abbrev after (P : Platform) (policy : PersistentTimingPolicy) (s : DurableSupervisorState)
    (calls : List Call) : DurableSupervisorState :=
  Logs.run (call P policy) s calls

theorem after_snoc (P : Platform) (policy : PersistentTimingPolicy) (s : DurableSupervisorState)
    (calls : List Call) (c : Call) :
    after P policy s (calls ++ [c]) = Logs.attempt (call P policy) (after P policy s calls) c :=
  Logs.run_snoc s calls c

end Supervisor

end OvcReplay.Skills
