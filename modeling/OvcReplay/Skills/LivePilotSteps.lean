import OvcReplay.Skills.LivePilot

/-! # What a call of the live pilot can do

The effect of each method on the coordinator, whether it returns or raises, and what a start and a
lease need in order to return. -/

namespace OvcReplay.Skills.LivePilot

open Python Raising

variable {P : Platform} {C : Conversions}

/-! ## Checks -/

variable {c : Coordinator}

theorem validateLease_ok {lease : SupervisorLease} (h : c.validateLease P lease = .ok ()) :
    c.currentLease ≠ none ∧ lease.fencingGeneration = c.currentGeneration := by
  unfold Coordinator.validateLease at h
  cases hlease : c.currentLease with
  | none =>
    rw [hlease] at h
    cases h
  | some current =>
    rw [hlease] at h
    simp only [bind_ok, check_ok] at h
    obtain ⟨-, -, _, -, _, -, -, -, hgen⟩ := h
    exact ⟨Option.some_ne_none current, hgen⟩

/-- **What a start needs**: a lease of the current fence, no quarantine, and an identity of the
pilot's work item under that fence. -/
structure Admits (P : Platform) (c : Coordinator) (args : StartArguments) (dispatchId : PyStr) :
    Prop where
  leased : c.currentLease ≠ none
  unquarantined : c.quarantineReason.getD [] = []
  work : expectedWorkId P = .ok args.identity.workId
  fence : args.identity.fencingGeneration = c.currentGeneration
  lease : args.lease.fencingGeneration = c.currentGeneration
  id : args.identity.dispatchId P = .ok dispatchId

theorem admitStart_ok {args : StartArguments} {dispatchId : PyStr}
    (h : c.admitStart P args = .ok dispatchId) : Admits P c args dispatchId := by
  simp only [Coordinator.admitStart, bind_ok, check_ok, mapError_ok] at h
  obtain ⟨⟨⟩, hlease, -, -, -, hquarantine, -, -, -, -, -, -, -, -, expected, hexp, -, hwork,
    -, hfence, hid⟩ := h
  obtain ⟨hleased, hgen⟩ := validateLease_ok hlease
  exact ⟨hleased, hquarantine, by rw [hwork]; exact hexp, hfence.trans hgen,
    hgen, hid⟩

theorem ownWorker_ok {dispatchId : PyStr} {lease : SupervisorLease} {code : PyStr}
    {worker : WorkerOwnership} (h : c.ownWorker P dispatchId lease code = .ok worker) :
    c.workers.get? dispatchId = some worker := by
  obtain ⟨-, -, h⟩ := bind_ok.mp h
  cases hget : c.workers.get? dispatchId with
  | none =>
    rw [hget] at h
    cases h
  | some w =>
    rw [hget] at h
    obtain ⟨-, -, h⟩ := bind_ok.mp h
    exact congrArg some (Except.ok.inj h)

/-! ## Effects -/

variable (P) in
/-- **The effect of a method on the coordinator.** -/
inductive Moves (c : Coordinator) : Call → Coordinator → Prop
  | kept (call : Call) : Moves c call c
  /-- The fence moves on; the lease is the new one, if it could be built. -/
  | fenced (holder : PyStr) (lease : Option SupervisorLease)
      (hunquarantined : c.quarantineReason.getD [] = []) :
      Moves c (.acquireLease holder) { c with
        currentGeneration := c.currentGeneration + 1
        currentLease := lease }
  | quarantined (args : StartArguments) :
      Moves c (.start args) { c with
        quarantineReason := some (py "DUPLICATE_AUTHORITATIVE_START") }
  | started (args : StartArguments) (dispatchId : PyStr) (tx : DispatchTransaction)
      (worker : WorkerOwnership) (hadmission : c.admitStart P args = .ok dispatchId) :
      Moves c (.start args) { c with
        transactions := c.transactions.set dispatchId tx
        workers := c.workers.set dispatchId worker }
  | beaten {dispatchId : PyStr} {lease : SupervisorLease} {worker worker' : WorkerOwnership}
      (hget : c.workers.get? dispatchId = some worker)
      (hsame : worker'.authoritative = worker.authoritative) :
      Moves c (.heartbeat dispatchId lease)
        { c with workers := c.workers.set dispatchId worker' }
  | unknown {identity : DispatchIdentity} {lease : SupervisorLease} {dispatchId : PyStr}
      (tx : DispatchTransaction) (hlease : c.validateLease P lease = .ok ())
      (hid : identity.dispatchId P = .ok dispatchId) :
      Moves c (.markUnknownStart identity lease)
        { c with transactions := c.transactions.set dispatchId tx }
  | noted (call : Call) (reconciliationId : PyStr) :
      Moves c call { c with lastReconciliationId := some reconciliationId }
  | recovered {dispatchId : PyStr} {current tx : DispatchTransaction} {worker : WorkerOwnership}
      {reconciliationId : PyStr} (hget : c.transactions.get? dispatchId = some current)
      (hunknown : current.phase = .dispatchUnknown)
      (hfence : worker.fencingGeneration = c.currentGeneration)
      (hauthoritative : worker.authoritative = true) :
      Moves c (.reconcileUnknown dispatchId (some worker)) { c with
        lastReconciliationId := some reconciliationId
        workers := c.workers.set dispatchId worker
        transactions := c.transactions.set dispatchId tx }
  | completed {dispatchId : PyStr} {lease : SupervisorLease} {success : Bool}
      {worker : WorkerOwnership} {tx : DispatchTransaction}
      (hget : c.workers.get? dispatchId = some worker) (hphase : tx.phase ∈ Phase.terminal) :
      Moves c (.complete dispatchId lease success)
        { c with transactions := c.transactions.set dispatchId tx }
  | quieted (q : QuiescenceControl) : Moves c .disableNewDispatch { c with quiescence := q }

theorem moves_acquireLease (c : Coordinator) (holder : PyStr) :
    Always (acquireLease holder) (Moves P c (.acquireLease holder)) c := by
  refine always_get_bind (always_require_bind (.kept _) fun hunquarantined => ?_)
  refine always_modify_bind (always_require_bind ?_ fun _ => ?_)
  · -- the fence has moved when the lease is refused
    exact .fenced holder c.currentLease hunquarantined
  · exact always_modify_bind (always_pure (.fenced holder _ hunquarantined))

theorem moves_start (c : Coordinator) (args : StartArguments) :
    Always (start P C args) (Moves P c (.start args)) c := by
  refine always_get_bind (always_lift_bind (.kept _) fun dispatchId hadmission => ?_)
  by_cases hduplicate : dispatchId ∈ c.workers.keys
  · rw [if_pos hduplicate]
    exact always_modify_bind (.quarantined args)
  · rw [if_neg hduplicate]
    refine always_lift_bind (.kept _) fun _ _ => always_modify_bind (always_pure ?_)
    rw [Dict.set_set]
    exact .started args dispatchId _ _ hadmission

theorem moves_heartbeat (c : Coordinator) (dispatchId : PyStr) (lease : SupervisorLease) :
    Always (heartbeat P dispatchId lease) (Moves P c (.heartbeat dispatchId lease)) c := by
  refine always_get_bind (always_lift_bind (.kept _) fun worker hworker => ?_)
  exact always_modify_bind (always_pure (.beaten (ownWorker_ok hworker) rfl))

theorem moves_markUnknownStart (c : Coordinator) (identity : DispatchIdentity)
    (lease : SupervisorLease) :
    Always (markUnknownStart P identity lease)
      (Moves P c (.markUnknownStart identity lease)) c := by
  simp only [Always, markUnknownStart, ends_bind, ends_get, ends_lift, ends_modify, ends_pure]
  refine ⟨fun _ hlease => ⟨fun dispatchId hid => ?_, fun _ _ => .kept _⟩, fun _ _ => .kept _⟩
  exact .unknown _ hlease (mapError_ok.mp hid)

theorem moves_reconcileUnknown (c : Coordinator) (dispatchId : PyStr)
    (observedWorker : Option WorkerOwnership) :
    Always (reconcileUnknown P dispatchId observedWorker)
      (Moves P c (.reconcileUnknown dispatchId observedWorker)) c := by
  unfold reconcileUnknown
  refine always_get_bind ?_
  cases hget : c.transactions.get? dispatchId with
  | none => exact .kept _
  | some current =>
    simp only
    by_cases hunknown : current.phase = .dispatchUnknown
    swap
    · rw [if_pos hunknown]
      exact always_pure (.kept _)
    rw [if_neg (not_not.mpr hunknown)]
    refine always_lift_bind (.kept _) fun reconciliationId _ => always_modify_bind ?_
    cases observedWorker with
    | none => exact always_pure (.noted _ _)
    | some worker =>
      refine always_require_bind (.noted _ _) fun hfence => ?_
      exact always_modify_bind (always_pure (.recovered hget hunknown hfence.1 hfence.2))

theorem moves_complete (c : Coordinator) (dispatchId : PyStr) (lease : SupervisorLease)
    (success : Bool) :
    Always (complete P dispatchId lease success) (Moves P c (.complete dispatchId lease success))
      c := by
  refine always_get_bind (always_lift_bind (.kept _) fun worker hworker => ?_)
  refine always_modify_bind (always_pure (.completed (ownWorker_ok hworker) ?_))
  cases success with
  | true =>
    show Phase.completed ∈ Phase.terminal
    decide
  | false =>
    show Phase.failed ∈ Phase.terminal
    decide

/-! ## Sessions -/

variable {s : Session}

theorem always_live {α : Type} {m : Method α} {Q : Coordinator → Prop}
    (h : Always m Q s.coordinator) :
    Always (live m) (fun s' => ∃ c, Q c ∧ s' = { s with coordinator := c }) s := by
  simp only [Always, live, ends_bind, ends_zoom, ends_pure]
  exact ends_mono (fun _ c hc => ⟨c, hc, rfl⟩) (fun _ c hc => ⟨c, hc, rfl⟩) h

variable (P C) in
/-- **The effect of a call on the session.** -/
inductive Runs (s : Session) : Call → Session → Prop
  | moved {call : Call} {c : Coordinator} (h : Moves P s.coordinator call c) :
      Runs s call { s with coordinator := c }
  | saved : Runs s .checkpoint { s with checkpoints := s.checkpoints ++ [s.coordinator.checkpoint] }
  | restored {authority freeze : Record} {n : Nat} {checkpoint : LivePilotCheckpoint}
      {c : Coordinator} (hget : s.checkpoints[n]? = some checkpoint)
      (hrestore : restore P C authority freeze checkpoint = .ok c) :
      Runs s (.restore authority freeze n) { s with coordinator := c }

theorem runs_of_live {α : Type} {m : Method α} {call : Call}
    (h : Always m (Moves P s.coordinator call) s.coordinator) :
    Always (live m) (Runs P C s call) s := by
  refine ends_mono ?_ ?_ (always_live h)
  · rintro _ _ ⟨c, hc, rfl⟩
    exact .moved hc
  · rintro _ _ ⟨c, hc, rfl⟩
    exact .moved hc

/-- **Every call** has one of the effects, whether it returns or raises. -/
theorem runs_step (s : Session) (call : Call) : Runs P C s call (left (step P C call s)) := by
  rw [← ends_left (I := Runs P C s call)]
  cases call with
  | acquireLease holder => exact runs_of_live (moves_acquireLease ..)
  | start args => exact runs_of_live (moves_start ..)
  | heartbeat dispatchId lease => exact runs_of_live (moves_heartbeat ..)
  | markUnknownStart identity lease => exact runs_of_live (moves_markUnknownStart ..)
  | reconcileUnknown dispatchId worker => exact runs_of_live (moves_reconcileUnknown ..)
  | complete dispatchId lease success => exact runs_of_live (moves_complete ..)
  | disableNewDispatch =>
    have hquiet : Always disableNewDispatch (Moves P s.coordinator .disableNewDispatch)
        s.coordinator := .quieted _
    exact runs_of_live hquiet
  | checkpoint => exact .saved
  | restore authority freeze n =>
    show Always (restart P C authority freeze n) _ s
    refine always_get_bind ?_
    have hkept : Runs P C s (.restore authority freeze n) s := .moved (.kept _)
    cases hget : s.checkpoints[n]? with
    | none => exact hkept
    | some checkpoint =>
      exact always_lift_bind hkept fun c hrestore => .restored hget hrestore

/-! ## Calls that return -/

/-- The call returns. -/
def Returned (P : Platform) (C : Conversions) (s : Session) (call : Call) : Prop :=
  ∃ s', step P C call s = .ok () s'

theorem ends_of_returned {m : Raising PilotError Session Unit} {s s' : Session}
    {R : Unit → Session → Prop} {E : PilotError → Session → Prop} (h : ends m R E s)
    (hm : m s = .ok () s') : R () s' := by
  simpa only [ends, hm] using h

/-- **A start that returns was admitted.** -/
theorem admits_of_returned {args : StartArguments} (h : Returned P C s (.start args)) :
    ∃ dispatchId, Admits P s.coordinator args dispatchId := by
  obtain ⟨s', h⟩ := h
  refine ends_of_returned (R := fun _ _ => ∃ dispatchId, Admits P s.coordinator args dispatchId)
    (E := fun _ _ => True) ?_ h
  simp only [step, live, ends_bind, ends_zoom, ends_pure, start, ends_get, ends_lift]
  refine ⟨fun dispatchId hadmission => ?_, fun _ _ => trivial⟩
  have hadms : ∃ dispatchId, Admits P s.coordinator args dispatchId :=
    ⟨dispatchId, admitStart_ok hadmission⟩
  exact ends_of_forall (fun _ _ => hadms) fun _ _ => trivial

/-- **A lease is acquired only without a quarantine.** -/
theorem unquarantined_of_returned {holder : PyStr} (h : Returned P C s (.acquireLease holder)) :
    s.coordinator.quarantineReason.getD [] = [] := by
  obtain ⟨s', h⟩ := h
  refine ends_of_returned (R := fun _ _ => s.coordinator.quarantineReason.getD [] = [])
    (E := fun _ _ => True) ?_ h
  simp only [step, live, ends_bind, ends_zoom, ends_pure, acquireLease, ends_get, ends_require]
  refine ⟨fun hunquarantined => ?_, fun _ => trivial⟩
  rw [ends_modify]
  exact ⟨fun _ => ends_of_forall (fun _ _ => hunquarantined) fun _ _ => trivial, fun _ => trivial⟩

end OvcReplay.Skills.LivePilot
