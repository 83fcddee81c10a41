import OvcReplay.Skills.SupervisorSteps

/-! # Leases and owners

The fencing generations of the leases, the lease that validates, and the worker that owns a dispatch.
Phases and owners are kept in two maps; they agree except where an unknown start is reconciled as not
having happened while its owner is still authoritative. -/

namespace OvcReplay.Skills

open Python

namespace Supervisor

variable {P : Platform} {policy : PersistentTimingPolicy} {s s' : DurableSupervisorState}

/-! ## Leases -/

/-- **One lease validates.** -/
theorem Validates.unique {lease lease' : SupervisorLease} (h : Validates s lease)
    (h' : Validates s lease') : lease = lease' := by
  obtain ⟨-, hact, hscope, hhold, hgen⟩ := h
  obtain ⟨-, hact', hscope', hhold', hgen'⟩ := h'
  refine SupervisorLease.ext (hscope.trans hscope'.symm) ?_ (hgen.trans hgen'.symm)
    (hact.trans hact'.symm)
  exact Option.some.inj (hhold.trans hhold'.symm)

/-- **A call with another lease raises.** -/
theorem call_eq_error {c : Call} {lease : SupervisorLease} (hc : c.lease? = some lease)
    (hlease : ¬ Validates s lease) :
    call P policy s c = .error (.permission (py "STALE_FENCE")) := by
  have hreq : requireLease s lease = .error (.permission (py "STALE_FENCE")) := by
    rw [requireLease, check, if_neg hlease]
  cases c with
  | releaseLease _ =>
    cases hc
    rw [call, releaseLease, hreq]
    rfl
  | referenceSweep id _ =>
    cases hc
    rw [call, referenceSweep, hreq]
    rfl
  | persistDispatchIntent proposal _ =>
    cases hc
    rw [call, persistDispatchIntent, hreq]
    rfl
  | markUnknownStart d _ reason =>
    cases hc
    rw [call, markUnknownStart, hreq]
    rfl
  | acknowledgeStart d w _ =>
    cases hc
    rw [call, acknowledgeStart, hreq]
    rfl
  | markRunning d _ =>
    cases hc
    rw [call, markRunning, hreq]
    rfl
  | heartbeat d w _ =>
    cases hc
    rw [call, heartbeat, hreq]
    rfl
  | markWorkerLost d w _ =>
    cases hc
    rw [call, markWorkerLost, hreq]
    rfl
  | reconcileUnknown d _ observedPhase w =>
    cases hc
    rw [call, reconcileUnknown, hreq]
    rfl
  | complete d w _ success =>
    cases hc
    rw [call, complete, hreq]
    rfl
  | _ => cases hc

/-- The lease that a call returns. -/
def issued (s : DurableSupervisorState) : Call → Option SupervisorLease
  | .acquireLease holder => (acquireLease s holder).toOption.map Prod.fst
  | .reclaimLease holder expired => (reclaimLease s holder expired).toOption.map Prod.fst
  | _ => none

theorem toOption_map_fst {ε α β : Type} {r : Except ε (α × β)} {a : α}
    (h : r.toOption.map Prod.fst = some a) : ∃ b, r = .ok (a, b) := by
  cases r with
  | error e => cases h
  | ok p => exact ⟨p.2, by rw [← Option.some.inj h]⟩

theorem acquireLease_ok {holder : PyStr} {lease : SupervisorLease}
    (h : acquireLease s holder = .ok (lease, s')) :
    lease.fencingGeneration = s.fencingGeneration + 1 ∧
      s'.fencingGeneration = s.fencingGeneration + 1 ∧ Validates s' lease := by
  simp only [acquireLease, bind_ok, pure_ok, Prod.mk.injEq] at h
  obtain ⟨-, -, rfl, rfl⟩ := h
  exact ⟨rfl, rfl, rfl, rfl, rfl, rfl, by push_cast; rfl⟩

/-- **An issued lease** has the next generation, which the state has from there on, and validates. -/
theorem issued_eq_some {c : Call} {lease : SupervisorLease} (h : issued s c = some lease) :
    ∃ s', call P policy s c = .ok s' ∧ lease.fencingGeneration = s.fencingGeneration + 1 ∧
      s'.fencingGeneration = s.fencingGeneration + 1 ∧ Validates s' lease := by
  cases c with
  | acquireLease holder =>
    obtain ⟨s', hok⟩ := toOption_map_fst h
    exact ⟨s', by rw [call, hok]; rfl, acquireLease_ok hok⟩
  | reclaimLease holder expired =>
    obtain ⟨s', hok⟩ := toOption_map_fst h
    have hacquire : acquireLease s.unleased holder = .ok (lease, s') := by
      simp only [reclaimLease, bind_ok] at hok
      obtain ⟨-, -, hacquire⟩ := hok
      exact hacquire
    obtain ⟨hlease, hnext, hvalid⟩ := acquireLease_ok hacquire
    exact ⟨s', by rw [call, hok]; rfl, hlease, hnext, hvalid⟩
  | _ => cases h

/-- Generations never go back in a run. -/
theorem fencingGeneration_le_after (s : DurableSupervisorState) (calls : List Call) :
    s.fencingGeneration ≤ (after P policy s calls).fencingGeneration := by
  refine Logs.run_inv (P := fun t : DurableSupervisorState =>
    s.fencingGeneration ≤ t.fencingGeneration) ?_ le_rfl calls
  intro t c t' hok hle
  exact hle.trans (fencingGeneration_le hok)

/-- **Later leases have greater generations.** -/
theorem issued_lt {pre mid : List Call} {c c' : Call} {lease lease' : SupervisorLease}
    (h : issued (after P policy s pre) c = some lease)
    (h' : issued (after P policy s (pre ++ c :: mid)) c' = some lease') :
    lease.fencingGeneration < lease'.fencingGeneration := by
  obtain ⟨next, hok, hlease, hnext, -⟩ :
      ∃ next, call P policy (after P policy s pre) c = .ok next ∧ _ := issued_eq_some h
  obtain ⟨-, -, hlease', -, -⟩ :
      ∃ next, call P policy (after P policy s (pre ++ c :: mid)) c' = .ok next ∧ _ :=
    issued_eq_some h'
  have hrun : after P policy s (pre ++ c :: mid) = after P policy next mid := by
    rw [after, Logs.run_append, Logs.run_cons, Logs.attempt_of_ok hok]
  have hle : next.fencingGeneration ≤ (after P policy next mid).fencingGeneration :=
    fencingGeneration_le_after next mid
  rw [← hrun] at hle
  omega

/-! ## Owners -/

/-- **Phases and owners agree**: a started dispatch has the owner that its record names, and only
dispatches that were persisted have owners. -/
structure Owned (s : DurableSupervisorState) : Prop where
  active : ∀ d t, s.transactions.get? d = some t → t.phase.Active →
    ∃ o, authoritativeOwner? s d = some o ∧ t.workerRunId = some o.workerRunId
  persisted : ∀ d, s.transactions.get? d = none → authoritativeOwner? s d = none

/-- A step that changes the record and the owner of one dispatch keeps them in agreement where they
agree on this dispatch. -/
theorem Owned.of_one {d : PyStr} (h : Owned s)
    (ht : ∀ d', d ≠ d' → s'.transactions.get? d' = s.transactions.get? d')
    (ho : ∀ d', d ≠ d' → authoritativeOwner? s' d' = authoritativeOwner? s d') {t : Transaction}
    (hd : s'.transactions.get? d = some t)
    (hact : t.phase.Active →
      ∃ o, authoritativeOwner? s' d = some o ∧ t.workerRunId = some o.workerRunId) : Owned s' where
  active d' t' ht' hphase := by
    by_cases hne : d = d'
    · subst hne
      cases hd.symm.trans ht'
      exact hact hphase
    · rw [ht d' hne] at ht'
      rw [ho d' hne]
      exact h.active d' t' ht' hphase
  persisted d' hnone := by
    have hne : d ≠ d' := by
      rintro rfl
      rw [hd] at hnone
      cases hnone
    rw [ht d' hne] at hnone
    rw [ho d' hne]
    exact h.persisted d' hnone

theorem not_active_intent : ¬ Phase.intentPersisted.Active := by decide

theorem not_active_unknown : ¬ Phase.dispatchUnknown.Active := by decide

theorem not_active_of_terminal {phase : Phase} (h : phase.Terminal) : ¬ phase.Active := by
  rcases h with rfl | rfl | rfl <;> decide

theorem terminal_completion (success : Bool) :
    (if success then Phase.completed else Phase.failed).Terminal := by
  cases success <;> decide

/-- The owner of a dispatch stays where its record is written. -/
theorem Owned.of_transaction {d : PyStr} (h : Owned s) {t : Transaction} (hact : t.phase.Active →
      ∃ o, authoritativeOwner? s d = some o ∧ t.workerRunId = some o.workerRunId) :
    Owned (withTransaction s d t) :=
  h.of_one (fun _ hne => get?_withTransaction_of_ne hne _) (fun _ _ => rfl)
    (get?_withTransaction_self ..) hact

/-- An owner is written with the record of its dispatch. -/
theorem Owned.of_owner {d : PyStr} (h : Owned s) {o : Ownership} {t : Transaction}
    (hact : t.phase.Active → o.authoritative = true ∧ t.workerRunId = some o.workerRunId) :
    Owned (withTransaction (withOwner s d o) d t) := by
  refine h.of_one (fun _ hne => get?_withTransaction_of_ne hne _)
    (fun _ hne => authoritativeOwner?_withOwner_of_ne hne _) (get?_withTransaction_self ..)
    fun hactive => ⟨o, ?_, (hact hactive).2⟩
  rw [authoritativeOwner?_withTransaction, authoritativeOwner?_withOwner_self,
    if_pos (hact hactive).1]

/-- **Every step keeps phases and owners in agreement.** -/
theorem Owned.moves {c : Call} (h : Owned s) (hmoves : Moves s c s') : Owned s' := by
  cases hmoves with
  | untouched c s' hrest =>
    have howner : ∀ d, authoritativeOwner? s' d = authoritativeOwner? s d := by
      intro d
      rw [authoritativeOwner?, hrest.ownership, authoritativeOwner?]
    constructor
    · intro d t hd hact
      rw [hrest.transactions] at hd
      rw [howner]
      exact h.active d t hd hact
    · intro d hnone
      rw [hrest.transactions] at hnone
      rw [howner]
      exact h.persisted d hnone
  | persisted | notStarted => exact h.of_transaction fun hact => absurd hact not_active_intent
  | unknown => exact h.of_transaction fun hact => absurd hact not_active_unknown
  | started | active => exact h.of_owner fun _ => ⟨rfl, rfl⟩
  | running d lease t ht hphase => exact h.of_transaction fun _ => h.active d t ht (.inl hphase)
  | beat d w lease o ho =>
    constructor
    · intro d' t hd hact
      obtain ⟨o', ho', hw⟩ := h.active d' t hd hact
      by_cases hne : d = d'
      · subst hne
        cases ho.symm.trans ho'
        refine ⟨{ o with heartbeatSequence := o.heartbeatSequence + 1 }, ?_, hw⟩
        rw [authoritativeOwner?_withOwner_self, if_pos (authoritative_of_mem ho).2]
      · exact ⟨o', (authoritativeOwner?_withOwner_of_ne hne _).trans ho', hw⟩
    · intro d' hnone
      have hne : d ≠ d' := by
        rintro rfl
        rw [h.persisted d hnone] at ho
        cases ho
      exact (authoritativeOwner?_withOwner_of_ne hne _).trans (h.persisted d' hnone)
  | lost => exact h.of_owner fun hact => absurd hact not_active_unknown
  | ended _ _ _ _ _ _ _ _ _ hterm =>
    exact h.of_transaction fun hact => absurd hact (not_active_of_terminal hterm)
  | completed _ _ _ success =>
    exact h.of_transaction fun hact =>
      absurd hact (not_active_of_terminal (terminal_completion success))

theorem owned_empty (scope : PyStr) (mode : ServiceMode) :
    Owned (DurableSupervisorState.empty scope mode) where
  active d t ht _ := by cases ht
  persisted _ _ := rfl

theorem owned_after (h : Owned s) (calls : List Call) : Owned (after P policy s calls) :=
  Logs.run_inv (fun _ _ _ hok howned => howned.moves (moves_of_call hok)) h calls

/-- **An owner goes by its loss.** A step that takes the authority from a worker reports it lost. -/
theorem lost_of_moves {c : Call} {d : PyStr} {o : Ownership} (hmoves : Moves s c s')
    (ho : authoritativeOwner? s d = some o)
    (hgone : ¬ ∃ o', authoritativeOwner? s' d = some o' ∧ o'.workerRunId = o.workerRunId) :
    ∃ lease, c = .markWorkerLost d o.workerRunId lease := by
  have hsame : authoritativeOwner? s' d ≠ authoritativeOwner? s d :=
    fun heq => hgone ⟨o, heq.trans ho, rfl⟩
  cases hmoves with
  | untouched c s' hrest =>
    refine absurd ?_ hsame
    rw [authoritativeOwner?, hrest.ownership, authoritativeOwner?]
  | started d' w lease t ht hfree =>
    by_cases hne : d' = d
    · subst hne
      rw [ho] at hfree
      cases hfree
    · exact absurd (authoritativeOwner?_withOwner_of_ne hne _) hsame
  | beat d' w lease o' ho' =>
    by_cases hne : d' = d
    · subst hne
      cases ho.symm.trans ho'
      refine absurd ⟨{ o with heartbeatSequence := o.heartbeatSequence + 1 }, ?_, rfl⟩ hgone
      rw [authoritativeOwner?_withOwner_self, if_pos (authoritative_of_mem ho).2]
    · exact absurd (authoritativeOwner?_withOwner_of_ne hne _) hsame
  | lost d' w lease t o' ht ho' hw =>
    by_cases hne : d' = d
    · subst hne
      cases ho.symm.trans ho'
      exact ⟨lease, by rw [hw]⟩
    · exact absurd (authoritativeOwner?_withOwner_of_ne hne _) hsame
  | active d' w lease observedPhase t phase heartbeats hlease ht hphase hact howner hother =>
    by_cases hne : d' = d
    · subst hne
      exact absurd ⟨_, authoritativeOwner?_withOwner_self .., (howner o ho).symm⟩ hgone
    · exact absurd (authoritativeOwner?_withOwner_of_ne hne _) hsame
  | persisted | unknown | running | notStarted | ended | completed => exact absurd rfl hsame

/-- **A worker follows another one only after its loss.** -/
theorem lost_of_successor {calls : List Call} {d : PyStr} {o o' : Ownership}
    (ho : authoritativeOwner? s d = some o)
    (ho' : authoritativeOwner? (after P policy s calls) d = some o')
    (hne : o'.workerRunId ≠ o.workerRunId) :
    ∃ before lease, before ++ [.markWorkerLost d o.workerRunId lease] <+: calls ∧
      Returns (call P policy (after P policy s before)
        (.markWorkerLost d o.workerRunId lease)) := by
  have hstart : ¬ ¬ ∃ x, authoritativeOwner? s d = some x ∧ x.workerRunId = o.workerRunId :=
    not_not.mpr ⟨o, ho, rfl⟩
  have hend : ¬ ∃ x, authoritativeOwner? (after P policy s calls) d = some x ∧
      x.workerRunId = o.workerRunId := by
    rintro ⟨x, hx, hworker⟩
    cases ho'.symm.trans hx
    exact hne hworker
  obtain ⟨before, c, later, rfl, hbef, hok, hafter⟩ := Logs.exists_step_of_run
    (P := fun t => ¬ ∃ x, authoritativeOwner? t d = some x ∧ x.workerRunId = o.workerRunId)
    hstart hend
  obtain ⟨x, hx, hworker⟩ := not_not.mp hbef
  have hgone := hafter [] List.nil_prefix
  rw [← hworker] at hgone
  obtain ⟨lease, rfl⟩ := lost_of_moves (moves_of_call hok) hx hgone
  rw [hworker] at hok
  refine ⟨before, lease, ⟨later, ?_⟩, _, hok⟩
  rw [hworker, List.append_assoc]
  rfl

/-! ## Intents -/

/-- No dispatch that was not started has an owner. -/
def IntentsFree (s : DurableSupervisorState) : Prop :=
  ∀ d, phase? s d = some .intentPersisted → authoritativeOwner? s d = none

/-- **A reconciliation that contradicts an owner**: the start did not happen, and the owner of the
dispatch is authoritative. -/
def Contradicts (s : DurableSupervisorState) : Call → Prop
  | .reconcileUnknown d _ observedPhase _ =>
    observedPhase = py "NO_START" ∧ phase? s d = some .dispatchUnknown ∧
      (authoritativeOwner? s d).isSome
  | _ => False

theorem IntentsFree.of_one {d : PyStr} (h : IntentsFree s)
    (hphase : ∀ d', d ≠ d' → phase? s' d' = phase? s d')
    (howner : ∀ d', d ≠ d' → authoritativeOwner? s' d' = authoritativeOwner? s d')
    (hd : phase? s' d = some .intentPersisted → authoritativeOwner? s' d = none) :
    IntentsFree s' := by
  intro d' hintent
  by_cases hne : d = d'
  · subst hne
    exact hd hintent
  · rw [hphase d' hne] at hintent
    rw [howner d' hne]
    exact h d' hintent

theorem IntentsFree.of_transaction {d : PyStr} (h : IntentsFree s) {t : Transaction}
    (hd : t.phase = .intentPersisted → authoritativeOwner? s d = none) :
    IntentsFree (withTransaction s d t) := by
  refine h.of_one (fun _ hne => phase?_withTransaction_of_ne hne _) (fun _ _ => rfl) fun hintent => ?_
  rw [phase?_withTransaction_self] at hintent
  exact hd (Option.some.inj hintent)

theorem IntentsFree.of_owner {d : PyStr} (h : IntentsFree s) {o : Ownership} {t : Transaction}
    (hd : t.phase = .intentPersisted → o.authoritative = false) :
    IntentsFree (withTransaction (withOwner s d o) d t) := by
  refine h.of_one (fun _ hne => phase?_withTransaction_of_ne hne _)
    (fun _ hne => authoritativeOwner?_withOwner_of_ne hne _) fun hintent => ?_
  rw [phase?_withTransaction_self] at hintent
  rw [authoritativeOwner?_withTransaction, authoritativeOwner?_withOwner_self,
    hd (Option.some.inj hintent)]
  rfl

/-- **A step that contradicts no owner leaves the intents free.** -/
theorem IntentsFree.moves {c : Call} (h : IntentsFree s) (howned : Owned s) (hmoves : Moves s c s')
    (hagrees : ¬ Contradicts s c) : IntentsFree s' := by
  cases hmoves with
  | untouched c s' hrest =>
    intro d hintent
    rw [phase?, hrest.transactions] at hintent
    rw [authoritativeOwner?, hrest.ownership]
    exact h d hintent
  | persisted proposal lease d hnew => exact h.of_transaction fun _ => howned.persisted d hnew
  | unknown | running =>
    refine h.of_transaction fun heq => ?_
    cases heq
  | started =>
    refine h.of_owner fun heq => ?_
    cases heq
  | beat d w lease o ho =>
    refine h.of_one (fun _ _ => rfl)
      (fun d' hne => authoritativeOwner?_withOwner_of_ne hne _) fun hintent => ?_
    rw [phase?_withOwner] at hintent
    rw [h d hintent] at ho
    cases ho
  | lost =>
    refine h.of_owner fun heq => ?_
    cases heq
  | notStarted d lease w t hlease ht hphase =>
    refine h.of_transaction fun _ => ?_
    have hunk : phase? s d = some .dispatchUnknown := by
      rw [phase?, ht, Option.map_some, hphase]
    by_contra howner
    exact hagrees ⟨rfl, hunk, Option.isSome_iff_ne_none.mpr howner⟩
  | active d w lease observedPhase t phase heartbeats hlease ht hphase hact howner hother =>
    refine h.of_owner fun heq => ?_
    cases heq
    exact absurd hact not_active_intent
  | ended d w lease observedPhase t phase hlease ht hphase hterm hother =>
    refine h.of_transaction fun heq => ?_
    cases heq
    exact absurd hterm (by decide)
  | completed _ _ _ success =>
    refine h.of_transaction fun heq => ?_
    cases success <;> cases heq

/-- **A contradicted owner keeps its dispatch**, which has not started. -/
theorem not_intentsFree_of_contradicts {c : Call} (hcall : call P policy s c = .ok s')
    (hcontr : Contradicts s c) : ¬ IntentsFree s' := by
  cases c with
  | reconcileUnknown d lease observedPhase w =>
    obtain ⟨rfl, hunk, howner⟩ := hcontr
    simp only [call, reconcileUnknown, map_ok, bind_ok, transaction_ok] at hcall
    obtain ⟨result, ⟨-, -, t, ht, hstep⟩, rfl⟩ := hcall
    have hphase : t.phase = .dispatchUnknown := by
      rw [phase?, ht, Option.map_some] at hunk
      exact Option.some.inj hunk
    rw [if_pos hphase, reconciled, if_pos rfl] at hstep
    cases hstep
    intro hfree
    have hnone : authoritativeOwner? s d = none := hfree d (phase?_withTransaction_self ..)
    rw [hnone] at howner
    cases howner
  | _ => exact hcontr.elim

/-- No accepted call of the run contradicts an owner. -/
def Consistent (P : Platform) (policy : PersistentTimingPolicy) (s : DurableSupervisorState)
    (calls : List Call) : Prop :=
  ∀ pre c, pre ++ [c] <+: calls → Returns (call P policy (after P policy s pre) c) →
    ¬ Contradicts (after P policy s pre) c

theorem Consistent.intentsFree {calls : List Call} (h : Consistent P policy s calls)
    (howned : Owned s) (hfree : IntentsFree s) : IntentsFree (after P policy s calls) := by
  refine Logs.run_inv_of_steps hfree ?_
  intro pre c s' hpre hok hbef
  exact hbef.moves (owned_after howned pre) (moves_of_call hok) (h pre c hpre ⟨s', hok⟩)

/-- **Leases and owners of a run.** Later leases have greater generations, at most one lease
validates, and a call with another one raises and changes nothing; a started dispatch has the owner
that its record names, and another worker follows it only after its loss. A dispatch that was not
started has no owner throughout, iff no accepted reconciliation contradicts one. -/
theorem ownership_iff (P : Platform) (policy : PersistentTimingPolicy) (scope : PyStr)
    (mode : ServiceMode) (calls : List Call) :
    (∀ pre c mid c', pre ++ c :: mid ++ [c'] <+: calls → ∀ lease lease',
      issued (after P policy (.empty scope mode) pre) c = some lease →
      issued (after P policy (.empty scope mode) (pre ++ c :: mid)) c' = some lease' →
        lease.fencingGeneration < lease'.fencingGeneration) ∧
    (∀ pre, pre <+: calls →
      (∀ lease lease', Validates (after P policy (.empty scope mode) pre) lease →
        Validates (after P policy (.empty scope mode) pre) lease' → lease = lease') ∧
      (∀ c lease, c.lease? = some lease →
        ¬ Validates (after P policy (.empty scope mode) pre) lease →
          (∃ e, call P policy (after P policy (.empty scope mode) pre) c = .error e) ∧
          after P policy (.empty scope mode) (pre ++ [c]) =
            after P policy (.empty scope mode) pre) ∧
      (∀ d t, Dict.get? (after P policy (.empty scope mode) pre).transactions d = some t →
        t.phase.Active → ∃ o, authoritativeOwner? (after P policy (.empty scope mode) pre) d =
          some o ∧ t.workerRunId = some o.workerRunId)) ∧
    (∀ pre later, pre ++ later <+: calls → ∀ d o o',
      authoritativeOwner? (after P policy (.empty scope mode) pre) d = some o →
      authoritativeOwner? (after P policy (.empty scope mode) (pre ++ later)) d = some o' →
      o'.workerRunId ≠ o.workerRunId →
        ∃ before lease, before ++ [.markWorkerLost d o.workerRunId lease] <+: later ∧
          Returns (call P policy (after P policy (.empty scope mode) (pre ++ before))
            (.markWorkerLost d o.workerRunId lease))) ∧
    ((∀ pre, pre <+: calls → IntentsFree (after P policy (.empty scope mode) pre)) ↔
      Consistent P policy (.empty scope mode) calls) := by
  have howned := owned_empty scope mode
  have hfree : IntentsFree (DurableSupervisorState.empty scope mode) := fun _ _ => rfl
  generalize DurableSupervisorState.empty scope mode = s at howned hfree ⊢
  refine ⟨fun pre c mid c' _ lease lease' => issued_lt, ?_, ?_, ?_, ?_⟩
  · intro pre _
    refine ⟨fun lease lease' => Validates.unique, ?_, (owned_after howned pre).active⟩
    intro c lease hc hlease
    have herror : call P policy (after P policy s pre) c = .error (.permission (py "STALE_FENCE")) :=
      call_eq_error hc hlease
    exact ⟨⟨_, herror⟩, (after_snoc P policy s pre c).trans (Logs.attempt_of_error herror)⟩
  · intro pre later _ d o o' ho ho' hne
    rw [after, Logs.run_append] at ho'
    obtain ⟨before, lease, hbef, hrets⟩ := lost_of_successor ho ho' hne
    refine ⟨before, lease, hbef, ?_⟩
    rw [after, Logs.run_append]
    exact hrets
  · rintro h pre c hpre ⟨s', hok⟩ hcontr
    have hlast : after P policy s (pre ++ [c]) = s' :=
      (after_snoc P policy s pre c).trans (Logs.attempt_of_ok hok)
    refine not_intentsFree_of_contradicts hok hcontr ?_
    rw [← hlast]
    exact h _ hpre
  · intro h pre hpre
    refine Consistent.intentsFree (fun earlier c hearlier => ?_) howned hfree
    exact h earlier c (hearlier.trans hpre)

/-! ## A contradicted owner -/

/-- A worker starts, its start is taken for unknown, and is reconciled as not having happened. -/
def Reference.contradictedRun : List Call :=
  [.acquireLease (py "SUPERVISOR"), .persistDispatchIntent proposal lease,
    .acknowledgeStart dispatch (py "W") lease,
    .markUnknownStart dispatch lease (py "UNKNOWN_START_STATE"),
    .reconcileUnknown dispatch lease (py "NO_START") none]

/-- The dispatch after that run: it has not started, and has an owner. -/
def Reference.contradicted : Bool :=
  let s := after .reference unfrozen (.empty scope .run) contradictedRun
  decide (phase? s dispatch = some .intentPersisted) && (authoritativeOwner? s dispatch).isSome

/-- **A dispatch that has not started can have an owner.** -/
theorem not_intentsFree : ¬ ∀ (P : Platform) (policy : PersistentTimingPolicy) (scope : PyStr)
    (mode : ServiceMode) (calls : List Call),
    IntentsFree (after P policy (.empty scope mode) calls) := by
  intro H
  have hboth : Reference.contradicted = true := by decide +kernel
  rw [Reference.contradicted, Bool.and_eq_true, decide_eq_true_iff] at hboth
  have hnone := H .reference Reference.unfrozen Reference.scope .run
    Reference.contradictedRun Reference.dispatch hboth.1
  have hsome := hboth.2
  rw [hnone] at hsome
  cases hsome

end Supervisor

end OvcReplay.Skills
