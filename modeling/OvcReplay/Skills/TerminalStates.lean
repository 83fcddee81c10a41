import OvcReplay.Skills.Transaction

/-! # Terminal states of integration transactions

Which runs leave a terminal state as it is, and by which events a transaction is completed. A call
that raises leaves the transaction as it was. -/

namespace OvcReplay.Skills

open List Python TransactionState

namespace IntegrationTransaction

/-! ## Runs -/

/-- The transaction after an event was given to it. -/
def deliver (t : IntegrationTransaction) (e : Event) : IntegrationTransaction :=
  match t.applyEvent e with
  | .ok t' => t'
  | .error _ => t

/-- The transaction after a sequence of events. -/
def after (t : IntegrationTransaction) (events : List Event) : IntegrationTransaction :=
  events.foldl deliver t

@[simp] theorem after_nil (t : IntegrationTransaction) : t.after [] = t := rfl

theorem after_append (t : IntegrationTransaction) (events events' : List Event) :
    t.after (events ++ events') = (t.after events).after events' := foldl_append

theorem after_snoc (t : IntegrationTransaction) (events : List Event) (e : Event) :
    t.after (events ++ [e]) = (t.after events).deliver e := by
  rw [after_append]
  rfl

variable {t : IntegrationTransaction} {e : Event}

/-- The event is refused or was given before. -/
def Ignored (t : IntegrationTransaction) (e : Event) : Prop :=
  e.eventId = [] ∨ e.eventId ∈ t.eventCursor.eventIds

instance (t : IntegrationTransaction) (e : Event) : Decidable (Ignored t e) :=
  inferInstanceAs (Decidable (_ ∨ _))

theorem deliver_of_ignored (h : Ignored t e) : t.deliver e = t := by
  rw [deliver]
  cases happly : t.applyEvent e with
  | error err => rfl
  | ok t' =>
    rcases applyEvent_ok happly with ⟨-, rfl⟩ | hrecs
    · rfl
    · rcases h with hnil | hmem
      · exact absurd hnil hrecs.named
      · exact absurd hmem hrecs.new

theorem records_deliver (h : ¬ Ignored t e) : Records t e (t.deliver e) := by
  rw [Ignored, not_or] at h
  obtain ⟨t', happly⟩ := returns_applyEvent (t := t) h.1
  rw [deliver, happly]
  rcases applyEvent_ok happly with ⟨hmem, -⟩ | hrecs
  · exact absurd hmem h.2
  · exact hrecs

/-- **The fence and the budget never change.** -/
theorem routeFence_after (t : IntegrationTransaction) (events : List Event) :
    (t.after events).routeFence = t.routeFence := by
  induction events using reverseRecOn with
  | nil => rfl
  | append_singleton events e ih =>
    rw [after_snoc, ← ih]
    by_cases h : Ignored (t.after events) e
    · rw [deliver_of_ignored h]
    · exact (records_deliver h).routeFence

/-! ## Absorption -/

/-- The event changes neither the state nor the recovery history of a transaction in a terminal
state: it is ignored, or its branch leads to the state that the transaction is in. -/
def Harmless (t : IntegrationTransaction) (e : Event) : Prop :=
  Ignored t e ∨ (t.state = quarantined ∧ ¬ t.routeFence.Accepts e) ∨
    (t.state = deadLetter ∧ t.routeFence.Accepts e ∧
      (t.recoveryHistory.length : Int) = t.recoveryBudget)

instance (t : IntegrationTransaction) (e : Event) : Decidable (Harmless t e) :=
  inferInstanceAs (Decidable (_ ∨ _))

/-- The second transaction is in the state of the first and has its recovery history. -/
def SameOutcome (t t' : IntegrationTransaction) : Prop :=
  t'.state = t.state ∧ t'.recoveryHistory = t.recoveryHistory

/-- **At a terminal state exactly the harmless events change nothing.** -/
theorem sameOutcome_deliver_iff (ht : t.state.Terminal) :
    SameOutcome t (t.deliver e) ↔ Harmless t e := by
  by_cases hignored : Ignored t e
  · rw [deliver_of_ignored hignored]
    exact iff_of_true ⟨rfl, rfl⟩ (.inl hignored)
  · have hmoves := (records_deliver hignored).moves
    rw [SameOutcome, Harmless, or_iff_right hignored]
    generalize (t.deliver e).state = state at hmoves ⊢
    generalize (t.deliver e).recoveryHistory = history at hmoves ⊢
    cases hmoves with
    | foreign hfence => simp [hfence, eq_comm]
    | moved hfence htgt =>
      rw [transition_of_terminal ht] at htgt
      cases htgt
    | recovered hfence hnone hbudget =>
      -- the history grows, and an event is only recovered below the budget
      have hne : (t.recoveryHistory.length : Int) ≠ t.recoveryBudget := ne_of_lt hbudget
      simp [hfence, hne]
    | exhausted hfence hnone hbudget =>
      have heq : (t.recoveryHistory.length : Int) = t.recoveryBudget :=
        le_antisymm t.history_le hbudget
      simp [hfence, heq, eq_comm]

/-- **The terminal states of a run are absorbing**: once one is reached, no later event changes the
state or the recovery history. -/
def Absorbing (t : IntegrationTransaction) (events : List Event) : Prop :=
  ∀ pre later, pre ++ later <+: events → (t.after pre).state.Terminal →
    SameOutcome (t.after pre) (t.after (pre ++ later))

/-- Every event that a run gives to a transaction in a terminal state is harmless. -/
def EndsHarmlessly (t : IntegrationTransaction) (events : List Event) : Prop :=
  ∀ pre e, pre ++ [e] <+: events → (t.after pre).state.Terminal → Harmless (t.after pre) e

/-- **Exactly the runs that end harmlessly are absorbing.** -/
theorem absorbing_iff {events : List Event} : Absorbing t events ↔ EndsHarmlessly t events := by
  constructor
  · intro h pre e hprefix hterm
    have hsame := h pre [e] hprefix hterm
    rw [after_snoc] at hsame
    exact (sameOutcome_deliver_iff hterm).mp hsame
  · intro h pre later
    -- induction on the events after the terminal state, the last one taken off
    induction later using reverseRecOn with
    | nil =>
      intro _ _
      rw [append_nil]
      exact ⟨rfl, rfl⟩
    | append_singleton later e ih =>
      intro hprefix hterm
      rw [← append_assoc] at hprefix ⊢
      have hsame := ih ((prefix_append _ _).trans hprefix) hterm
      have hstill : (t.after (pre ++ later)).state.Terminal := by
        rw [hsame.1]
        exact hterm
      have hlast := (sameOutcome_deliver_iff hstill).mpr (h _ e hprefix hstill)
      rw [after_snoc]
      exact ⟨hlast.1.trans hsame.1, hlast.2.trans hsame.2⟩

/-! ## Completion -/

/-- The event is accepted: it is new, comes under the fence of the transaction and moves it. -/
def Advances (t : IntegrationTransaction) (e : Event) : Prop :=
  ¬ Ignored t e ∧ t.routeFence.Accepts e ∧ (transitions.get? (t.state, e.eventType)).isSome

instance (t : IntegrationTransaction) (e : Event) : Decidable (Advances t e) :=
  inferInstanceAs (Decidable (_ ∧ _))

/-- The accepted events of a run. -/
def accepted (t : IntegrationTransaction) : List Event → List Event
  | [] => []
  | e :: events =>
    (if Advances t e then [e] else []) ++ (t.deliver e).accepted events

theorem accepted_snoc (t : IntegrationTransaction) (events : List Event) (e : Event) :
    t.accepted (events ++ [e]) =
      t.accepted events ++ if Advances (t.after events) e then [e] else [] := by
  induction events generalizing t with
  | nil =>
    rw [nil_append, accepted, accepted, accepted, nil_append, append_nil]
    rfl
  | cons head events ih =>
    rw [cons_append, accepted, accepted, ih, append_assoc]
    rfl

theorem accepted_sublist (t : IntegrationTransaction) (events : List Event) :
    (t.accepted events).Sublist events := by
  induction events generalizing t with
  | nil => exact Sublist.refl _
  | cons e events ih =>
    rw [accepted]
    split
    · exact (ih _).cons_cons e
    · exact (ih _).cons e

/-- Every accepted event comes under the fence of the transaction. -/
theorem accepts_of_mem_accepted {events : List Event} (h : e ∈ t.accepted events) :
    t.routeFence.Accepts e := by
  induction events using reverseRecOn with
  | nil => cases h
  | append_singleton events last ih =>
    rw [accepted_snoc] at h
    rcases mem_append.mp h with hmem | hlast
    · exact ih hmem
    · split at hlast
      · next hadv =>
          rw [mem_singleton.mp hlast, ← routeFence_after t events]
          exact hadv.2.1
      · cases hlast

/-- The types of the accepted events that lead from `READY` to a state. -/
def Leads (types : List PyStr) : TransactionState → Prop
  | ready => types = []
  | admitted => types = [py "ADMIT"]
  | applying => types = [py "ADMIT", py "START_APPLY"]
  | writeUnknown => types = [py "ADMIT", py "START_APPLY", py "WRITE_OUTCOME_UNKNOWN"]
  | materialised =>
    types = [py "ADMIT", py "START_APPLY", py "WRITE_CONFIRMED"] ∨
    types = [py "ADMIT", py "START_APPLY", py "WRITE_OUTCOME_UNKNOWN", py "RECONSTRUCT_WRITE"]
  | receiptsPending =>
    types = [py "ADMIT", py "START_APPLY", py "WRITE_CONFIRMED", py "START_RECEIPTS"] ∨
    types = [py "ADMIT", py "START_APPLY", py "WRITE_OUTCOME_UNKNOWN", py "RECONSTRUCT_WRITE",
      py "START_RECEIPTS"]
  | completed =>
    types = [py "ADMIT", py "START_APPLY", py "WRITE_CONFIRMED", py "START_RECEIPTS",
      py "RECEIPTS_CONFIRMED"] ∨
    types = [py "ADMIT", py "START_APPLY", py "WRITE_OUTCOME_UNKNOWN", py "RECONSTRUCT_WRITE",
      py "START_RECEIPTS", py "RECEIPTS_CONFIRMED"]
  | deadLetter => True
  | quarantined => True

/-- A transition extends the types that lead to its source. -/
theorem Leads.snoc {types : List PyStr} {state target : TransactionState} {type : PyStr}
    (h : Leads types state) (htgt : transitions.get? (state, type) = some target) :
    Leads (types ++ [type]) target := by
  rcases transition_cases htgt with ⟨rfl, rfl, rfl⟩ | ⟨rfl, rfl, rfl⟩ | ⟨rfl, rfl, rfl⟩ |
    ⟨rfl, rfl, rfl⟩ | ⟨rfl, rfl, rfl⟩ | ⟨rfl, rfl, rfl⟩ | ⟨rfl, rfl, rfl⟩
  · subst h
    rfl
  · subst h
    rfl
  · subst h
    exact .inl rfl
  · subst h
    rfl
  · subst h
    exact .inr rfl
  · rcases h with rfl | rfl
    · exact .inl rfl
    · exact .inr rfl
  · rcases h with rfl | rfl
    · exact .inl rfl
    · exact .inr rfl

/-- **The accepted events of a run lead to its state.** -/
theorem leads_after (ht : t.state = ready) (events : List Event) :
    Leads ((t.accepted events).map Event.eventType) (t.after events).state := by
  induction events using reverseRecOn with
  | nil =>
    rw [after_nil, ht]
    rfl
  | append_singleton events e ih =>
    rw [accepted_snoc, after_snoc]
    by_cases hignored : Ignored (t.after events) e
    · have hadv : ¬ Advances (t.after events) e := fun h => h.1 hignored
      rw [if_neg hadv, append_nil, deliver_of_ignored hignored]
      exact ih
    · have hmoves := (records_deliver hignored).moves
      generalize ((t.after events).deliver e).state = state at hmoves ⊢
      generalize ((t.after events).deliver e).recoveryHistory = history at hmoves
      cases hmoves with
      | foreign hfence => trivial
      | moved hfence htgt =>
        have hadv : Advances (t.after events) e := ⟨hignored, hfence, by simp [htgt]⟩
        rw [if_pos hadv, map_append]
        exact ih.snoc htgt
      | recovered hfence hnone hbudget =>
        have hadv : ¬ Advances (t.after events) e := by
          rintro ⟨-, -, hsome⟩
          rw [hnone] at hsome
          cases hsome
        rw [if_neg hadv, append_nil]
        exact ih
      | exhausted hfence hnone hbudget => trivial

/-- **When the terminal states are absorbing, and how a transaction is completed.** In every run the
terminal states absorb iff every event given in one of them is harmless there; and a transaction is
completed only by the accepted events of one of the two ways there, all under its own fence. -/
theorem terminal_absorbing_iff (t : IntegrationTransaction) (events : List Event) :
    (Absorbing t events ↔ EndsHarmlessly t events) ∧
    (t.state = ready → (t.after events).state = completed →
      Leads ((t.accepted events).map Event.eventType) completed ∧
        (t.accepted events).Sublist events ∧
        ∀ e ∈ t.accepted events, t.routeFence.Accepts e) := by
  refine ⟨absorbing_iff, ?_⟩
  intro ht hcompleted
  exact ⟨hcompleted ▸ leads_after ht events, accepted_sublist t events,
    fun e he => accepts_of_mem_accepted he⟩

/-! ## A late event -/

/-- A transaction that is ready, without a recovery budget. -/
def sample : IntegrationTransaction where
  programmeId := py "PROGRAMME"
  packetId := py "PACKET"
  pipId := List.replicate 64 (hexDigit 10)
  ownerFactManifestId := List.replicate 64 (hexDigit 11)
  triggerCoverageManifestId := List.replicate 64 (hexDigit 12)
  routeFence := ⟨py "CONTROLLER", 7, List.replicate 64 (hexDigit 13), by decide, by decide,
    by decide⟩
  state := ready
  eventCursor := ⟨py "stream", 0, [], by decide, by decide, by decide⟩
  idempotenceKey := List.replicate 64 (hexDigit 14)
  recoveryBudget := 0
  recoveryHistory := []
  length_pipId := by decide
  length_ownerFactManifestId := by decide
  length_triggerCoverageManifestId := by decide
  length_idempotenceKey := by decide
  history_le := by decide

/-- An event of the writer of the sample. -/
def sampleEvent (id type : String) : Event :=
  ⟨py id, py type, py "CONTROLLER", 7, List.replicate 64 (hexDigit 13)⟩

/-- A run to completion. -/
def sampleRun : List Event :=
  [sampleEvent "1" "ADMIT", sampleEvent "2" "START_APPLY", sampleEvent "3" "WRITE_CONFIRMED",
    sampleEvent "4" "START_RECEIPTS", sampleEvent "5" "RECEIPTS_CONFIRMED"]

/-- **A completed transaction is dead-lettered by a late event.** -/
theorem not_absorbing : ¬ ∀ (t : IntegrationTransaction) (events : List Event),
    t.state = ready → Absorbing t events := by
  intro H
  have hcompleted : (sample.after sampleRun).state = completed := by decide +kernel
  have hdead : (sample.after (sampleRun ++ [sampleEvent "6" "ADMIT"])).state = deadLetter := by
    decide +kernel
  have hsame := H sample (sampleRun ++ [sampleEvent "6" "ADMIT"]) rfl sampleRun
    [sampleEvent "6" "ADMIT"] (prefix_refl _) (by rw [hcompleted]; trivial)
  rw [SameOutcome, hcompleted, hdead] at hsame
  exact absurd hsame.1 (by decide)

end IntegrationTransaction

end OvcReplay.Skills
