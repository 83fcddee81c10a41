import OvcReplay.Skills.SupervisorSteps

/-! # Phases of a dispatch

A dispatch that has ended is meant to stay as it ended, and one whose start is unknown to wait for a
reconciliation. Three calls of the service read the owner of a dispatch and not its phase; which of
their calls come too late is a condition on the call and the state before it. -/

namespace OvcReplay.Skills

open Python

namespace Supervisor

variable {P : Platform} {policy : PersistentTimingPolicy} {s s' : DurableSupervisorState}

/-- The dispatch has ended. -/
def Ended (s : DurableSupervisorState) (d : PyStr) : Prop :=
  ∃ phase, phase? s d = some phase ∧ phase.Terminal

/-- The phase that a completion leads to. -/
def completionPhase (success : Bool) : Phase := if success then .completed else .failed

/-- **A call that comes too late**: a start acknowledged, a worker reported lost or a completion
delivered for a dispatch in a phase that these calls do not look at. -/
def Late (s : DurableSupervisorState) : Call → Prop
  | .acknowledgeStart d _ _ =>
    authoritativeOwner? s d = none ∧ (Ended s d ∨ phase? s d = some .dispatchUnknown)
  | .markWorkerLost d _ _ => Ended s d
  | .complete d _ _ success =>
    (Ended s d ∧ phase? s d ≠ some (completionPhase success)) ∨
      phase? s d = some .dispatchUnknown
  | _ => False

theorem completionPhase_ne_unknown (success : Bool) :
    completionPhase success ≠ .dispatchUnknown := by
  cases success <;> decide

/-- The call is a reconciliation of this dispatch under the lease. -/
def Reconciles (s : DurableSupervisorState) (d : PyStr) (c : Call) : Prop :=
  ∃ lease observedPhase w, c = .reconcileUnknown d lease observedPhase w ∧ Validates s lease

/-- **A step keeps its phases**: what has ended stays as it is, and only a reconciliation says more
about an unknown start. -/
structure Keeps (s : DurableSupervisorState) (c : Call) (s' : DurableSupervisorState) : Prop where
  ended : ∀ d phase, phase? s d = some phase → phase.Terminal → phase? s' d = some phase
  unknown : ∀ d, phase? s d = some .dispatchUnknown → phase? s' d ≠ some .dispatchUnknown →
    Reconciles s d c

variable {c : Call}

/-- A step that leaves every phase keeps the phases. -/
theorem Keeps.of_same (h : ∀ d, phase? s' d = phase? s d) : Keeps s c s' where
  ended d _ hphase _ := (h d).trans hphase
  unknown d hphase hchg := absurd ((h d).trans hphase) hchg

variable {d : PyStr}

/-- A step that changes the phase of one dispatch, which was not terminal, keeps the phases where it
is a reconciliation or the start was not unknown. -/
theorem Keeps.of_one (hother : ∀ d', d ≠ d' → phase? s' d' = phase? s d') (hended : ¬ Ended s d)
    (hunk : phase? s d = some .dispatchUnknown → phase? s' d ≠ some .dispatchUnknown →
      Reconciles s d c) :
    Keeps s c s' where
  ended d' phase hphase hterm := by
    have hne : d ≠ d' := by
      rintro rfl
      exact hended ⟨phase, hphase, hterm⟩
    exact (hother d' hne).trans hphase
  unknown d' hphase hchg := by
    by_cases hd : d = d'
    · subst hd
      exact hunk hphase hchg
    · exact absurd ((hother d' hd).trans hphase) hchg

theorem not_ended_of_phase {phase : Phase} (h : phase? s d = some phase) (hphase : ¬ phase.Terminal) :
    ¬ Ended s d := by
  rintro ⟨other, hother, hterm⟩
  cases h.symm.trans hother
  exact hphase hterm

theorem phase?_of_get? {t : Transaction} (h : Dict.get? s.transactions d = some t) :
    phase? s d = some t.phase := by
  rw [phase?, h, Option.map_some]

theorem not_terminal_unknown : ¬ Phase.dispatchUnknown.Terminal := by decide

/-- The record of a dispatch is written where the phases are those of the state. -/
theorem Keeps.of_transaction {s₀ : DurableSupervisorState} {t : Transaction}
    (hs : ∀ d', phase? s₀ d' = phase? s d') (hended : ¬ Ended s d)
    (hunk : phase? s d = some .dispatchUnknown → t.phase ≠ .dispatchUnknown → Reconciles s d c) :
    Keeps s c (withTransaction s₀ d t) := by
  refine .of_one (d := d) (fun d' hne => (phase?_withTransaction_of_ne hne _).trans (hs d')) hended
    fun h hchg => hunk h ?_
  rintro heq
  exact hchg (heq ▸ phase?_withTransaction_self ..)

/-- **A step that is not late keeps the phases.** -/
theorem keeps_of_not_late (hmoves : Moves s c s') (hlate : ¬ Late s c) : Keeps s c s' := by
  cases hmoves with
  | untouched c s' hrest =>
    refine .of_same fun d => ?_
    rw [phase?, hrest.transactions, phase?]
  | persisted proposal lease d hnew =>
    have hnone : phase? s d = none := by rw [phase?, hnew, Option.map_none]
    refine .of_transaction (fun _ => rfl) ?_ ?_
    · rintro ⟨phase, hphase, -⟩
      rw [hnone] at hphase
      cases hphase
    · intro hunk
      rw [hnone] at hunk
      cases hunk
  | unknown d reason lease t ht hopen =>
    exact .of_transaction (fun _ => rfl) (not_ended_of_phase (phase?_of_get? ht) hopen)
      fun _ hchg => absurd rfl hchg
  | started d w lease t ht hfree =>
    exact .of_transaction (fun _ => rfl) (fun hended => hlate ⟨hfree, .inl hended⟩)
      fun hunk => absurd ⟨hfree, .inr hunk⟩ hlate
  | running d lease t ht hphase =>
    have hstarted : phase? s d = some .startAcknowledged := by rw [phase?_of_get? ht, hphase]
    refine .of_transaction (fun _ => rfl) (not_ended_of_phase hstarted (by decide)) fun hunk => ?_
    rw [hstarted] at hunk
    cases hunk
  | beat d w lease o ho => exact .of_same fun d' => phase?_withOwner s d' d _
  | lost => exact .of_transaction (fun _ => rfl) hlate fun _ hchg => absurd rfl hchg
  | notStarted d lease _ t hlease ht hphase | active d _ lease _ t _ _ hlease ht hphase
  | ended d _ lease _ t _ hlease ht hphase =>
    refine .of_transaction (fun _ => rfl) ?_ fun _ _ => ⟨lease, _, _, rfl, hlease⟩
    exact not_ended_of_phase (phase?_of_get? ht) (by rw [hphase]; exact not_terminal_unknown)
  | completed d w lease success t ht ho =>
    rw [Late, not_or, not_and, not_not] at hlate
    by_cases hended : Ended s d
    · -- the dispatch has ended in the phase that the completion leads to
      refine .of_same fun d' => ?_
      by_cases hd : d = d'
      · subst hd
        rw [hlate.1 hended, phase?_withTransaction_self]
        rfl
      · exact phase?_withTransaction_of_ne hd _
    · exact .of_transaction (fun _ => rfl) hended fun hunk => absurd hunk hlate.2

/-- A step that moves a dispatch out of a terminal phase, or an unknown start without a
reconciliation, does not keep the phases. -/
theorem not_keeps {phase phase' : Phase} (hphase : phase? s d = some phase)
    (hphase' : phase? s' d = some phase') (hne : phase' ≠ phase)
    (hmoved : phase.Terminal ∨ phase = .dispatchUnknown ∧ ¬ Reconciles s d c) :
    ¬ Keeps s c s' := by
  intro hkeeps
  rcases hmoved with hterm | ⟨rfl, hreconciles⟩
  · exact hne (Option.some.inj (hphase'.symm.trans (hkeeps.ended d phase hphase hterm)))
  · refine hreconciles (hkeeps.unknown d hphase ?_)
    rw [hphase']
    exact fun heq => hne (Option.some.inj heq)

/-- **A late step does not keep the phases.** -/
theorem not_keeps_of_late (hcall : call P policy s c = .ok s') (hlate : Late s c) :
    ¬ Keeps s c s' := by
  cases c with
  | acknowledgeStart d w lease =>
    simp only [call, acknowledgeStart, map_ok, bind_ok, transaction_ok] at hcall
    obtain ⟨result, ⟨-, -, t, ht, -, -, hstep⟩, rfl⟩ := hcall
    rw [hlate.1] at hstep
    cases hstep
    have hafter : phase? (started s d w lease t).2 d = some .startAcknowledged :=
      phase?_withTransaction_self ..
    rcases hlate.2 with ⟨phase, hphase, hterm⟩ | hunk
    · refine not_keeps hphase hafter ?_ (.inl hterm)
      rintro rfl
      exact absurd hterm (by decide)
    · refine not_keeps hunk hafter (by decide) (.inr ⟨rfl, ?_⟩)
      rintro ⟨_, _, _, hc, -⟩
      cases hc
  | markWorkerLost d w lease =>
    simp only [call, markWorkerLost, map_ok, bind_ok, transaction_ok, pure_ok] at hcall
    obtain ⟨result, ⟨-, -, owner, -, -, -, t, ht, rfl⟩, rfl⟩ := hcall
    obtain ⟨phase, hphase, hterm⟩ := hlate
    refine not_keeps hphase (phase?_withTransaction_self ..) ?_ (.inl hterm)
    rintro rfl
    exact not_terminal_unknown hterm
  | complete d w lease success =>
    simp only [call, complete, map_ok, bind_ok, transaction_ok, pure_ok] at hcall
    obtain ⟨result, ⟨-, -, owner, -, -, -, t, ht, rfl⟩, rfl⟩ := hcall
    have hafter := phase?_withTransaction_self s d { t with
      phase := completionPhase success, workerRunId := some w, reason := none }
    rcases hlate with ⟨⟨phase, hphase, hterm⟩, hne⟩ | hunk
    · refine not_keeps hphase hafter ?_ (.inl hterm)
      rintro rfl
      exact hne hphase
    · refine not_keeps hunk hafter (completionPhase_ne_unknown success) (.inr ⟨rfl, ?_⟩)
      rintro ⟨_, _, _, hc, -⟩
      cases hc
  | _ => exact hlate.elim

/-- **Exactly the steps that are not late keep the phases.** -/
theorem keeps_iff (hcall : call P policy s c = .ok s') : Keeps s c s' ↔ ¬ Late s c :=
  ⟨fun hkeeps hlate => not_keeps_of_late hcall hlate hkeeps,
    keeps_of_not_late (moves_of_call hcall)⟩

/-! ## Runs -/

/-- **The phases of a run are kept**: a dispatch that has ended is never in another phase again, and
an unknown start is left by a reconciliation under the lease only. -/
structure KeptAlong (P : Platform) (policy : PersistentTimingPolicy) (s : DurableSupervisorState)
    (calls : List Call) : Prop where
  ended : ∀ pre later, pre ++ later <+: calls → ∀ d phase, phase.Terminal →
    phase? (after P policy s pre) d = some phase →
      phase? (after P policy s (pre ++ later)) d = some phase
  unknown : ∀ pre c, pre ++ [c] <+: calls → ∀ d,
    phase? (after P policy s pre) d = some .dispatchUnknown →
    phase? (after P policy s (pre ++ [c])) d ≠ some .dispatchUnknown →
      Reconciles (after P policy s pre) d c

/-- No accepted call of the run is late. -/
def Punctual (P : Platform) (policy : PersistentTimingPolicy) (s : DurableSupervisorState)
    (calls : List Call) : Prop :=
  ∀ pre c, pre ++ [c] <+: calls → Returns (call P policy (after P policy s pre) c) →
    ¬ Late (after P policy s pre) c

/-- Every step of a punctual run keeps the phases. -/
theorem Punctual.keeps {calls pre : List Call} (h : Punctual P policy s calls)
    (hpre : pre ++ [c] <+: calls) :
    Keeps (after P policy s pre) c (after P policy s (pre ++ [c])) := by
  rw [after_snoc]
  rcases Logs.attempt_cases (call P policy) (after P policy s pre) c with ⟨e, -, hsame⟩ | hok
  · rw [hsame]
    exact .of_same fun _ => rfl
  · exact (keeps_iff hok).mpr (h pre c hpre ⟨_, hok⟩)

/-- **Exactly the punctual runs keep the phases.** From an empty state, whatever leases, proposals,
workers and observed phases the calls are given, a dispatch that has ended is never in another phase
and an unknown start is left by a reconciliation only, iff no accepted call is late. -/
theorem keptAlong_iff (P : Platform) (policy : PersistentTimingPolicy) (scope : PyStr)
    (mode : ServiceMode) (calls : List Call) :
    KeptAlong P policy (.empty scope mode) calls ↔ Punctual P policy (.empty scope mode) calls := by
  generalize DurableSupervisorState.empty scope mode = s
  constructor
  · rintro h pre c hpre ⟨s', hok⟩
    have hlast : after P policy s (pre ++ [c]) = s' :=
      (after_snoc P policy s pre c).trans (Logs.attempt_of_ok hok)
    refine (keeps_iff hok).mp ⟨?_, ?_⟩
    · intro d phase hphase hterm
      rw [← hlast]
      exact h.ended pre [c] hpre d phase hterm hphase
    · rw [← hlast]
      exact h.unknown pre c hpre
  · intro h
    refine ⟨?_, fun pre c hpre => (h.keeps hpre).unknown⟩
    intro pre later
    -- induction on the calls after the end of the dispatch, the last one taken off
    induction later using List.reverseRecOn with
    | nil =>
      intro _ d phase _ hphase
      rwa [List.append_nil]
    | append_singleton later c ih =>
      intro hinit d phase hterm hphase
      rw [← List.append_assoc] at hinit ⊢
      exact (h.keeps hinit).ended d phase
        (ih ((List.prefix_append _ _).trans hinit) d phase hterm hphase) hterm

/-! ## A late completion -/

namespace Reference

/-- A worker starts on the dispatch and completes it. -/
def completedRun : List Call :=
  [.acquireLease (py "SUPERVISOR"), .persistDispatchIntent proposal lease,
    .acknowledgeStart dispatch (py "W") lease, .complete dispatch (py "W") lease true]

/-- The phase of the dispatch after calls of a running supervisor. -/
def phaseAfter (calls : List Call) : Option Phase :=
  phase? (after .reference unfrozen (.empty scope .run) calls) dispatch

end Reference

/-- **A completed dispatch fails by a late completion.** -/
theorem not_keptAlong : ¬ ∀ (P : Platform) (policy : PersistentTimingPolicy) (scope : PyStr)
    (mode : ServiceMode) (calls : List Call), KeptAlong P policy (.empty scope mode) calls := by
  intro H
  have hcompleted : Reference.phaseAfter Reference.completedRun = some .completed := by
    decide +kernel
  have hfailed : Reference.phaseAfter (Reference.completedRun ++
      [.complete Reference.dispatch (py "W") Reference.lease false]) = some .failed := by
    decide +kernel
  have hkept := (H .reference Reference.unfrozen Reference.scope .run _).ended
    Reference.completedRun [.complete Reference.dispatch (py "W") Reference.lease false]
    (List.prefix_refl _) Reference.dispatch .completed (.inl rfl) hcompleted
  exact absurd (hfailed.symm.trans hkept) (by decide)

/-! ## Where dispatches come from -/

end Supervisor

end OvcReplay.Skills
