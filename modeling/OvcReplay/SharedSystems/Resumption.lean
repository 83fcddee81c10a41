import OvcReplay.SharedSystems.Execution
import OvcReplay.Logs.Calls

/-! # Stopping and resuming

A call that goes on from a checkpoint commits what an uninterrupted run commits from there on, so
a chain of calls ends with the results and the identity of one call. The ids that a checkpoint
carries are taken as they are: a call that completes has the ids of the population exactly when the
checkpoint has the first of them. -/

namespace OvcReplay.SharedSystems

open List Python Json

section Chains

variable {P : Platform} {α : Type} {records : Dict PyStr α}
  {transform : α → Except ExecutionError PyVal} {spec : RunSpecification}

/-! ## What a run computes -/

/-- The result is that of the record with the id. -/
def Computes (records : Dict PyStr α) (transform : α → Except ExecutionError PyVal)
    (recordId : PyStr) (result : Result) : Prop :=
  computeOne records transform recordId = .ok result

variable {recordId : PyStr}

theorem Computes.fst {result : Result} (h : Computes records transform recordId result) :
    result.1 = recordId := by
  simp only [Computes, computeOne, bind_ok, pure_ok] at h
  obtain ⟨record, -, value, -, rfl⟩ := h
  rfl

/-- A record has one result. -/
theorem Computes.unique {result result' : Result} (h : Computes records transform recordId result)
    (h' : Computes records transform recordId result') : result = result' :=
  Except.ok.inj (h.symm.trans h')

theorem lookup_ok {d : Dict PyStr α} {key : PyStr} {v : α} :
    lookup d key = .ok v ↔ d.get? key = some v := by
  rw [lookup]
  cases d.get? key <;> simp

/-- The results of ids, in their order. -/
def Results (records : Dict PyStr α) (transform : α → Except ExecutionError PyVal) :
    List PyStr → List Result → Prop :=
  Forall₂ (Computes records transform)

variable {ids : List PyStr}

theorem Results.unique {results results' : List Result} (h : Results records transform ids results)
    (h' : Results records transform ids results') :
    results = results' := by
  induction h generalizing results' with
  | nil => cases h'; rfl
  | cons hone _ ih =>
    cases h' with
    | cons hone' hrest' => rw [hone.unique hone', ih hrest']

theorem Results.map_fst {results : List Result} (h : Results records transform ids results) :
    results.map Prod.fst = ids := by
  induction h with
  | nil => rfl
  | cons hone _ ih => rw [map_cons, hone.fst, ih]

/-- **The results in a physical order**: each id of the order has its result. -/
theorem compute_ok {order : List PyStr} {computed : Dict PyStr PyVal}
    (h : compute records transform order = .ok computed) (hmem : recordId ∈ order) :
    ∃ value, computed.get? recordId = some value ∧
      Computes records transform recordId (recordId, value) := by
  obtain ⟨results, hresults, hcomputed⟩ := bind_ok.mp h
  cases hcomputed
  have hall : Results records transform order results := mapM_ok_iff.mp hresults
  obtain ⟨result, hres, hone⟩ := mem_of_forall₂_left hall hmem
  obtain ⟨value, hval⟩ : ∃ value, Dict.get? (Dict.ofItems results) recordId = some value := by
    rw [← Option.isSome_iff_exists, Option.isSome_iff_ne_none, Ne, Dict.get?_ofItems_eq_none_iff]
    exact fun hnot => hnot (mem_map.mpr ⟨result, hres, hone.fst⟩)
  obtain ⟨other, hother, hsame⟩ :=
    mem_of_forall₂_right hall (Dict.mem_of_get?_ofItems hval)
  have hid : recordId = other := hsame.fst
  subst hid
  exact ⟨value, hval, hsame⟩

/-- Ids that have results are computed, in any order. -/
theorem exists_compute {order : List PyStr}
    (h : ∀ recordId ∈ order, ∃ result, Computes records transform recordId result) :
    ∃ computed, compute records transform order = .ok computed := by
  obtain ⟨results, hres⟩ := returns_mapM.mpr h
  exact ⟨Dict.ofItems results, by rw [compute, hres]; rfl⟩

/-! ## What a run commits -/

/-- What the physical order computed. -/
def Covers (records : Dict PyStr α) (transform : α → Except ExecutionError PyVal)
    (computed : Dict PyStr PyVal) (ids : List PyStr) : Prop :=
  ∀ recordId ∈ ids, ∃ value, computed.get? recordId = some value ∧
    Computes records transform recordId (recordId, value)

variable {call : Call}

/-- **The loop commits the results of the first ids**, of all of them when it ends. -/
theorem commitFrom_ok {computed : Dict PyStr PyVal} {index : Nat}
    {committed results : List Result} {status : Status}
    (hcovers : Covers records transform computed ids)
    (h : commitFrom call computed index ids committed = .ok (status, results)) :
    ∃ done rest new, ids = done ++ rest ∧ results = committed ++ new ∧
      Results records transform done new ∧ (status = .complete → rest = []) := by
  -- induction on the ids that are left, what was committed growing
  induction ids generalizing index committed with
  | nil =>
    cases h
    exact ⟨[], [], [], rfl, (append_nil _).symm, .nil, fun _ => rfl⟩
  | cons recordId rest ih =>
    rw [commitFrom] at h
    by_cases hbef : call.stopBefore = some (index : Int)
    · rw [if_pos hbef] at h
      cases h
      exact ⟨[], recordId :: rest, [], rfl, (append_nil _).symm, .nil, fun h => by cases h⟩
    · rw [if_neg hbef] at h
      obtain ⟨value, hval, h⟩ := bind_ok.mp h
      obtain ⟨value', hval', hone⟩ := hcovers recordId mem_cons_self
      rw [lookup_ok, hval'] at hval
      cases hval
      by_cases hafter : call.stopAfter = some (index : Int)
      · rw [if_pos hafter] at h
        cases h
        exact ⟨[recordId], rest, _, rfl, rfl, .cons hone .nil, fun h => by cases h⟩
      · rw [if_neg hafter] at h
        obtain ⟨done, left, new, rfl, rfl, hnew, hleft⟩ :=
          ih (fun id hid => hcovers id (mem_cons_of_mem _ hid)) h
        exact ⟨recordId :: done, left, _ :: new, rfl, by simp, .cons hone hnew, hleft⟩

/-- A call that stops nowhere commits all. -/
theorem commitFrom_unstopped {call : Call} {computed : Dict PyStr PyVal}
    (hbef : call.stopBefore = none) (hafter : call.stopAfter = none) {index : Nat}
    {ids : List PyStr} {committed : List Result}
    (hcovers : Covers records transform computed ids) :
    ∃ results, commitFrom call computed index ids committed = .ok (.complete, results) := by
  induction ids generalizing index committed with
  | nil => exact ⟨committed, rfl⟩
  | cons recordId rest ih =>
    obtain ⟨value, hval, -⟩ := hcovers recordId mem_cons_self
    rw [commitFrom, hbef, if_neg (by simp), lookup_ok.mpr hval, hafter]
    simp only [bind, Except.bind, reduceCtorEq, if_false]
    exact ih fun id hid => hcovers id (mem_cons_of_mem _ hid)

/-- What the manifest at the end of a run holds. -/
structure Finished (P : Platform) (runSpecificationId : PyStr) (result : ReplayResultManifest) :
    Prop where
  complete : result.status = .complete → ∃ identity,
    identityOf P runSpecificationId result.orderedResults = .ok identity ∧
      result.logicalResultIdentity = some identity ∧ result.checkpoint = none
  stopped : result.status ≠ .complete → ∃ cp,
    checkpointOf P runSpecificationId result.orderedResults = .ok cp ∧ result.checkpoint = some cp

variable {result : ReplayResultManifest} {runSpecificationId : PyStr} {capacity : CapacityReceipt}

theorem finish_ok {status : Status} {committed : List Result}
    (h : finish P runSpecificationId capacity status committed = .ok result) :
    result.status = status ∧ result.orderedResults = committed ∧
      Finished P runSpecificationId result := by
  rw [finish] at h
  by_cases hcompl : status = .complete
  · rw [if_pos hcompl] at h
    obtain ⟨identity, hident, h⟩ := bind_ok.mp h
    cases h
    exact ⟨rfl, rfl, fun _ => ⟨identity, hident, rfl, rfl⟩, fun hne => absurd hcompl hne⟩
  · rw [if_neg hcompl] at h
    obtain ⟨cp, hcp, h⟩ := bind_ok.mp h
    cases h
    exact ⟨rfl, rfl, fun heq => absurd heq hcompl, fun _ => ⟨cp, hcp, rfl⟩⟩

variable {checkpoint : Option CheckpointReceipt}

/-- **A call that was executed**: what it resumed from, and what it added. -/
theorem execute_ok
    (h : execute P records transform spec runSpecificationId capacity call checkpoint =
      .ok result) :
    ∃ committed done rest new, resumed P runSpecificationId checkpoint = .ok committed ∧
      spec.populationIds.drop committed.length = done ++ rest ∧
      (∀ recordId ∈ done ++ rest, ∃ r, Computes records transform recordId r) ∧
      Results records transform done new ∧ result.orderedResults = committed ++ new ∧
      (result.status = .complete → rest = []) ∧ Finished P runSpecificationId result := by
  rw [execute] at h
  obtain ⟨committed, hresumed, h⟩ := bind_ok.mp h
  obtain ⟨_, horder, h⟩ := bind_ok.mp h
  obtain ⟨⟨-, hincluded⟩, -⟩ := check_ok.mp horder
  obtain ⟨computed, hcomputed, h⟩ := bind_ok.mp h
  obtain ⟨⟨status, results⟩, hloop, h⟩ := bind_ok.mp h
  have hcovers : Covers records transform computed (spec.populationIds.drop committed.length) :=
    fun recordId hmem => compute_ok hcomputed (hincluded hmem)
  obtain ⟨done, rest, new, hids, rfl, hnew, hrest⟩ := commitFrom_ok hcovers hloop
  obtain ⟨hstat, hres, hfinished⟩ := finish_ok h
  refine ⟨committed, done, rest, new, hresumed, hids, ?_, hnew, hres, ?_, hfinished⟩
  · intro recordId hmem
    obtain ⟨value, -, hone⟩ := hcovers recordId (hids ▸ hmem)
    exact ⟨_, hone⟩
  · rw [hstat]
    exact hrest

/-- The call is one of this run and has the capacity for it. -/
structure Admitted (records : Dict PyStr α) (spec : RunSpecification) (runSpecificationId : PyStr)
    (call : Call) : Prop where
  manifest : call.manifestSpecificationId = runSpecificationId
  population : records.keys ⊆ spec.populationIds ∧ spec.populationIds ⊆ records.keys
  capacity : (capacityOf records runSpecificationId call).exceeded ≠ true

/-- A call that is admitted is executed. -/
theorem runReference_of_admitted (hid : spec.logicalId P = .ok runSpecificationId)
    (h : Admitted records spec runSpecificationId call) (checkpoint : Option CheckpointReceipt) :
    runReference P records transform spec call checkpoint =
      execute P records transform spec runSpecificationId
        (capacityOf records runSpecificationId call) call checkpoint := by
  simp only [runReference, hid, check, bind, Except.bind, if_pos h.manifest, if_pos h.population]
  rw [if_neg h.capacity]

/-- A call is executed or has too little capacity. -/
theorem runReference_ok (h : runReference P records transform spec call checkpoint = .ok result) :
    ∃ runSpecificationId, spec.logicalId P = .ok runSpecificationId ∧
      ((result.status = .capacityExceeded ∧ result.checkpoint = none) ∨
        Admitted records spec runSpecificationId call ∧
          execute P records transform spec runSpecificationId
            (capacityOf records runSpecificationId call) call checkpoint = .ok result) := by
  rw [runReference] at h
  obtain ⟨runSpecificationId, hid, h⟩ := bind_ok.mp h
  obtain ⟨_, hmanif, h⟩ := bind_ok.mp h
  obtain ⟨_, hpop, h⟩ := bind_ok.mp h
  refine ⟨runSpecificationId, hid, ?_⟩
  by_cases hexceeded : (capacityOf records runSpecificationId call).exceeded = true
  · rw [if_pos hexceeded] at h
    cases h
    exact .inl ⟨rfl, rfl⟩
  · rw [if_neg hexceeded] at h
    exact .inr ⟨⟨check_ok.mp hmanif, check_ok.mp hpop, hexceeded⟩, h⟩

/-! ## Chains of calls -/

/-- **A checkpoint of the run**: it is accepted, and it carries the results of the first ids. -/
structure Honest (P : Platform) (records : Dict PyStr α)
    (transform : α → Except ExecutionError PyVal) (spec : RunSpecification)
    (cp : CheckpointReceipt) : Prop where
  accepted : ∀ runSpecificationId, spec.logicalId P = .ok runSpecificationId →
    resumed P runSpecificationId (some cp) = .ok cp.committedResults
  results : Results records transform
    (spec.populationIds.take cp.committedResults.length) cp.committedResults
  computed : ∀ recordId ∈ spec.populationIds, ∃ r, Computes records transform recordId r

/-- The checkpoint, if there is one, is one of the run. -/
def HonestState (P : Platform) (records : Dict PyStr α)
    (transform : α → Except ExecutionError PyVal) (spec : RunSpecification)
    (checkpoint : Option CheckpointReceipt) : Prop :=
  ∀ cp, checkpoint = some cp → Honest P records transform spec cp

theorem honestState_none : HonestState P records transform spec none := fun _ h => by cases h

/-- What an honest state resumes from. -/
theorem HonestState.resumed (h : HonestState P records transform spec checkpoint)
    (hid : spec.logicalId P = .ok runSpecificationId) :
    ∃ committed, resumed P runSpecificationId checkpoint = .ok committed ∧
      Results records transform (spec.populationIds.take committed.length) committed := by
  cases checkpoint with
  | none => exact ⟨[], rfl, .nil⟩
  | some cp => exact ⟨_, (h cp rfl).accepted _ hid, (h cp rfl).results⟩

/-- A checkpoint that was written is accepted. -/
theorem resumed_checkpointOf {committed : List Result} {cp : CheckpointReceipt}
    (h : checkpointOf P runSpecificationId committed = .ok cp) :
    cp.committedResults = committed ∧
      resumed P runSpecificationId (some cp) = .ok cp.committedResults := by
  obtain ⟨prefixHash, hhash, h⟩ := bind_ok.mp h
  cases h
  refine ⟨rfl, ?_⟩
  simp only [resumed, CheckpointReceipt.validate, check, hhash, bind, Except.bind, if_true, pure,
    Except.pure]

/-- The ids of what was committed and of what was added are the first ids. -/
theorem take_append {ids done rest : List PyStr} {n : Nat} (h : ids.drop n = done ++ rest) :
    ids.take (n + done.length) = ids.take n ++ done := by
  rw [take_add, h, take_left]

/-- **The results of an executed call** are those of the first ids. -/
theorem results_of_execute (hid : spec.logicalId P = .ok runSpecificationId)
    (hhonest : HonestState P records transform spec checkpoint)
    (h : execute P records transform spec runSpecificationId capacity call checkpoint =
      .ok result) :
    Results records transform (spec.populationIds.take result.orderedResults.length)
        result.orderedResults ∧
      (∀ recordId ∈ spec.populationIds, ∃ r, Computes records transform recordId r) ∧
      (result.status = .complete →
        Results records transform spec.populationIds result.orderedResults) ∧
      Finished P runSpecificationId result := by
  obtain ⟨committed, done, rest, new, hresumed, hids, hcomputed, hnew, hres, hrest,
    hfinished⟩ := execute_ok h
  obtain ⟨committed', hresumed', hcommitted⟩ := hhonest.resumed hid
  cases hresumed.symm.trans hresumed'
  have hall : Results records transform (spec.populationIds.take committed.length ++ done)
      (committed ++ new) := rel_append hcommitted hnew
  refine ⟨?_, ?_, ?_, hfinished⟩
  · rw [hres, length_append, ← hnew.length_eq, take_append hids]
    exact hall
  · intro recordId hmem
    rw [← take_append_drop committed.length spec.populationIds, hids] at hmem
    rcases mem_append.mp hmem with hold | hadded
    · obtain ⟨r, -, hone⟩ := mem_of_forall₂_left hcommitted hold
      exact ⟨r, hone⟩
    · exact hcomputed recordId hadded
  · intro hcompl
    obtain rfl := hrest hcompl
    rw [append_nil] at hids
    rwa [← hids, take_append_drop, ← hres] at hall

/-- **Every checkpoint that a chain returns is one of the run.** -/
theorem honestState_run (calls : List Call) :
    HonestState P records transform spec (Logs.run (resume P records transform spec) none calls) := by
  refine Logs.run_inv ?_ honestState_none calls
  intro checkpoint call next hstep hhonest
  obtain ⟨result, hres, hnext⟩ := bind_ok.mp hstep
  cases hnext
  obtain ⟨runSpecificationId, hid, ⟨-, hnone⟩ | ⟨-, hexecuted⟩⟩ := runReference_ok hres
  · rw [hnone]
    exact hhonest
  · obtain ⟨hresults, hcomputed, -, hfinished⟩ := results_of_execute hid hhonest hexecuted
    by_cases hcompl : result.status = .complete
    · obtain ⟨identity, -, -, hnone⟩ := hfinished.complete hcompl
      rw [hnone]
      exact hhonest
    · obtain ⟨cp, hcp, hsome⟩ := hfinished.stopped hcompl
      obtain ⟨hcommitted, haccepted⟩ := resumed_checkpointOf hcp
      rw [hsome]
      intro cp' heq
      cases heq
      refine ⟨?_, by rwa [hcommitted], hcomputed⟩
      intro other hother
      cases hid.symm.trans hother
      exact haccepted

/-! ## Complete runs -/

/-- **A complete run**: the results of the population and their identity. -/
structure Complete (P : Platform) (records : Dict PyStr α)
    (transform : α → Except ExecutionError PyVal) (spec : RunSpecification)
    (result : ReplayResultManifest) : Prop where
  results : Results records transform spec.populationIds result.orderedResults
  identity : ∃ runSpecificationId identity, spec.logicalId P = .ok runSpecificationId ∧
    identityOf P runSpecificationId result.orderedResults = .ok identity ∧
      result.logicalResultIdentity = some identity

/-- **Complete runs agree**: nothing of how they were made enters the results. -/
theorem Complete.agree {result result' : ReplayResultManifest}
    (h : Complete P records transform spec result)
    (h' : Complete P records transform spec result') :
    result.orderedResults = result'.orderedResults ∧
      result.logicalResultIdentity = result'.logicalResultIdentity := by
  have hres := h.results.unique h'.results
  obtain ⟨id, identity, hid, hident, hsome⟩ := h.identity
  obtain ⟨id', identity', hid', hident', hsome'⟩ := h'.identity
  cases hid.symm.trans hid'
  rw [hres, hident'] at hident
  cases hident
  exact ⟨hres, hsome.trans hsome'.symm⟩

/-- A call that completes from an honest state is a complete run. -/
theorem complete_of_honest (hhonest : HonestState P records transform spec checkpoint)
    (h : runReference P records transform spec call checkpoint = .ok result)
    (hcompl : result.status = .complete) : Complete P records transform spec result := by
  obtain ⟨runSpecificationId, hid, ⟨hstat, -⟩ | ⟨-, hexecuted⟩⟩ := runReference_ok h
  · rw [hstat] at hcompl
    cases hcompl
  · obtain ⟨-, -, hres, hfinished⟩ := results_of_execute hid hhonest hexecuted
    obtain ⟨identity, hident, hsome, -⟩ := hfinished.complete hcompl
    exact ⟨hres hcompl, runSpecificationId, identity, hid, hident, hsome⟩

/-- The call without its stops, in the order of the population. -/
def Call.uninterrupted (call : Call) : Call :=
  { call with stopBefore := none, stopAfter := none, physicalOrder := none }

theorem Admitted.uninterrupted (h : Admitted records spec runSpecificationId call) :
    Admitted records spec runSpecificationId call.uninterrupted :=
      ⟨h.manifest, h.population, h.capacity⟩

/-- **The rest of a run is executed** by a call that stops nowhere. -/
theorem execute_uninterrupted {runSpecificationId identity : PyStr} {results : List Result}
    (hid : spec.logicalId P = .ok runSpecificationId)
    (hhonest : HonestState P records transform spec checkpoint)
    (hres : Results records transform spec.populationIds results)
    (hident : identityOf P runSpecificationId results = .ok identity) (call : Call) :
    ∃ result, execute P records transform spec runSpecificationId capacity call.uninterrupted
      checkpoint = .ok result ∧ result.status = .complete := by
  obtain ⟨committed, hresumed, hcommitted⟩ := hhonest.resumed hid
  have hmem : ∀ recordId ∈ spec.populationIds.drop committed.length,
      ∃ r, Computes records transform recordId r := by
    intro recordId hdrop
    obtain ⟨r, -, hone⟩ := mem_of_forall₂_left hres (mem_of_mem_drop hdrop)
    exact ⟨r, hone⟩
  obtain ⟨computed, hcompute⟩ := exists_compute hmem
  have hcovers : Covers records transform computed (spec.populationIds.drop committed.length) :=
    fun recordId hdrop => compute_ok hcompute hdrop
  obtain ⟨all, hloop⟩ :=
    @commitFrom_unstopped _ _ _ call.uninterrupted _ rfl rfl committed.length _ committed hcovers
  obtain ⟨done, rest, new, hids, rfl, hnew, hrest⟩ := commitFrom_ok hcovers hloop
  have hall : Results records transform spec.populationIds (committed ++ new) := by
    have hdrop : spec.populationIds.drop committed.length = done := by
      rw [hids, hrest rfl, append_nil]
    have happ : Results records transform (spec.populationIds.take committed.length ++ done)
        (committed ++ new) := rel_append hcommitted hnew
    rwa [← hdrop, take_append_drop] at happ
  rw [hres.unique hall] at hident
  refine ⟨⟨runSpecificationId, some identity, .complete, committed ++ new, none, capacity⟩, ?_, rfl⟩
  have horder : call.uninterrupted.order (spec.populationIds.drop committed.length) =
      spec.populationIds.drop committed.length := rfl
  simp only [execute, hresumed, horder, check, Subset.refl, and_self, if_true, hcompute, hloop,
    finish, hident, bind, Except.bind, pure, Except.pure]

/-- **A run that completes from one checkpoint completes from every other.** -/
theorem exists_complete {checkpoint checkpoint' : Option CheckpointReceipt}
    (hhonest : HonestState P records transform spec checkpoint)
    (hhonest' : HonestState P records transform spec checkpoint')
    (h : runReference P records transform spec call checkpoint = .ok result)
    (hcompl : result.status = .complete) :
    ∃ other, runReference P records transform spec call.uninterrupted checkpoint' = .ok other ∧
      other.status = .complete := by
  obtain ⟨runSpecificationId, hid, ⟨hstat, -⟩ | ⟨hadm, hexecuted⟩⟩ := runReference_ok h
  · rw [hstat] at hcompl
    cases hcompl
  · obtain ⟨-, -, hres, hfinished⟩ := results_of_execute hid hhonest hexecuted
    obtain ⟨identity, hident, -, -⟩ := hfinished.complete hcompl
    rw [runReference_of_admitted hid hadm.uninterrupted]
    exact execute_uninterrupted hid hhonest' (hres hcompl) hident call

/-! ## Ids -/

/-- **The ids of a complete call**: those that the checkpoint carries, and the rest of the
population. -/
theorem ids_of_complete {cp : CheckpointReceipt}
    (h : runReference P records transform spec call (some cp) = .ok result)
    (hcompl : result.status = .complete) :
    result.orderedResults.map Prod.fst = cp.committedResults.map Prod.fst ++
      spec.populationIds.drop cp.committedResults.length := by
  obtain ⟨runSpecificationId, hid, ⟨hstat, -⟩ | ⟨-, hexecuted⟩⟩ := runReference_ok h
  · rw [hstat] at hcompl
    cases hcompl
  · obtain ⟨committed, done, rest, new, hresumed, hids, -, hnew, hres, hrest, -⟩ :=
      execute_ok hexecuted
    obtain ⟨_, -, hresumed⟩ := bind_ok.mp hresumed
    obtain ⟨_, -, hresumed⟩ := bind_ok.mp hresumed
    cases hresumed
    rw [hres, map_append, hnew.map_fst, hids, hrest hcompl, append_nil]

/-- **Stopping and resuming**: a chain of calls that each go on from the checkpoint that was
returned last, and that may stop anywhere and compute in any order, completes with the ids of the
population and with the results and the identity of one uninterrupted call; where such a call
completes, the rest of every chain completes. From a checkpoint of any origin a call completes with
the ids of the population exactly when the checkpoint carries the first of them. -/
theorem resumes_exactly (spec : RunSpecification) (records : Dict PyStr α)
    (transform : α → Except ExecutionError PyVal) :
    (∀ calls last result, runReference P records transform spec last
        (Logs.run (resume P records transform spec) none calls) = .ok result →
      result.status = .complete → result.orderedResults.map Prod.fst = spec.populationIds ∧
        (∃ fresh, runReference P records transform spec last.uninterrupted none = .ok fresh ∧
          fresh.status = .complete) ∧
        ∀ call fresh, runReference P records transform spec call none = .ok fresh →
          fresh.status = .complete → result.orderedResults = fresh.orderedResults ∧
              result.logicalResultIdentity = fresh.logicalResultIdentity) ∧
    (∀ call fresh, runReference P records transform spec call none = .ok fresh →
      fresh.status = .complete → ∀ calls, ∃ result,
        runReference P records transform spec call.uninterrupted
          (Logs.run (resume P records transform spec) none calls) = .ok result ∧
        result.status = .complete) ∧
    ∀ call cp result, runReference P records transform spec call (some cp) = .ok result →
      result.status = .complete → (result.orderedResults.map Prod.fst = spec.populationIds ↔
          cp.committedResults.map Prod.fst =
            spec.populationIds.take cp.committedResults.length) := by
  refine ⟨?_, ?_, ?_⟩
  · intro calls last result h hcompl
    have hhonest : HonestState P records transform spec _ := honestState_run calls
    have hdone := complete_of_honest hhonest h hcompl
    refine ⟨hdone.results.map_fst, exists_complete hhonest honestState_none h hcompl, ?_⟩
    intro call fresh hfresh hstat
    exact hdone.agree (complete_of_honest honestState_none hfresh hstat)
  · intro call fresh hfresh hstat calls
    exact exists_complete honestState_none (honestState_run calls) hfresh hstat
  · intro call cp result h hcompl
    rw [ids_of_complete h hcompl]
    nth_rewrite 2 [← take_append_drop cp.committedResults.length spec.populationIds]
    exact append_left_inj _

end Chains

/-! ## A checkpoint of another population -/

namespace Reference

/-- A run over two records. -/
def spec : RunSpecification where
  semanticGenerationRef := py "GEN"
  populationIds := [py "A", py "B"]
  scopeRef := py "SCOPE"
  evaluationCutoff := py "T"
  parameters := .dict []
  outputContractRef := py "OUT"
  logicalBarriers := []

def records : Dict PyStr PyVal := [(py "A", .int 1), (py "B", .int 2)]

/-- The id of the run. -/
def runSpecificationId : PyStr := ((spec.logicalId .reference).toOption).getD []

/-- A call that stops nowhere. -/
def call : Call := ⟨runSpecificationId, none, none, none, none⟩

/-- A checkpoint of the run that carries a result under the id of no record. -/
def checkpoint : CheckpointReceipt where
  runSpecificationId := runSpecificationId
  nextIndex := 1
  committedResults := [(py "X", .int 0)]
  prefixHash := ((hash .reference (resultTuple [(py "X", .int 0)])).toOption).getD []

/-- What the call returns from a checkpoint. -/
def outcome (cp : Option CheckpointReceipt) : Option ReplayResultManifest :=
  (runReference .reference records .ok spec call cp).toOption

/-- A call that stops after the first commit. -/
def stopping : Call := { call with stopAfter := some 0 }

/-- The state of a chain of one call that stops. -/
def stopped : Option CheckpointReceipt :=
  Logs.run (resume .reference records .ok spec) none [stopping]

/-- The statuses and the ids that were committed. -/
def summary (cp : Option CheckpointReceipt) : Option (Status × List PyStr) :=
  (outcome cp).map fun result => (result.status, result.orderedResults.map Prod.fst)

/-- The result of a call whose summary is known. -/
theorem exists_of_summary {cp : Option CheckpointReceipt} {status : Status} {ids : List PyStr}
    (h : summary cp = some (status, ids)) :
    ∃ result, runReference .reference records .ok spec call cp = .ok result ∧
      result.status = status ∧ result.orderedResults.map Prod.fst = ids := by
  obtain ⟨result, hres, hsummary⟩ := Option.map_eq_some_iff.mp h
  obtain ⟨rfl, rfl⟩ := Prod.mk.inj hsummary
  rw [outcome] at hres
  cases hrun : runReference .reference records .ok spec call cp with
  | error e =>
    rw [hrun] at hres
    cases hres
  | ok result' =>
    rw [hrun] at hres
    obtain rfl := Option.some.inj hres
    exact ⟨result', rfl, rfl, rfl⟩

theorem summary_stopped : summary stopped = some (.complete, [py "A", py "B"]) := by
  decide +kernel

theorem summary_checkpoint : summary (some checkpoint) = some (.complete, [py "X", py "B"]) := by
  decide +kernel

theorem postInit_spec : spec.postInit = .ok () := by
  decide +kernel

end Reference

/-- A run that stopped after the first record is completed by a second call. -/
theorem resumes_exactly_of_two :
    ∃ fresh, runReference .reference Reference.records .ok Reference.spec
      Reference.call.uninterrupted none = .ok fresh ∧ fresh.status = .complete := by
  obtain ⟨result, hres, hstat, -⟩ := Reference.exists_of_summary Reference.summary_stopped
  exact ((resumes_exactly Reference.spec Reference.records .ok).1 [Reference.stopping]
    Reference.call result hres hstat).2.1

/-- **A checkpoint that agrees with itself and lists another id is not refused.** -/
theorem not_refused : ¬ ∀ (P : Platform) (spec : RunSpecification) (records : Dict PyStr PyVal)
    (transform : PyVal → Except ExecutionError PyVal) (call : Call) (cp : CheckpointReceipt)
    (result : ReplayResultManifest), spec.postInit = .ok () →
      runReference P records transform spec call (some cp) = .ok result →
        result.status = .complete → result.orderedResults.map Prod.fst = spec.populationIds := by
  intro hall
  obtain ⟨result, hres, hstat, hids⟩ :=
    Reference.exists_of_summary Reference.summary_checkpoint
  have hsame := hall _ _ _ _ _ _ result Reference.postInit_spec hres hstat
  rw [hids] at hsame
  revert hsame
  decide

end OvcReplay.SharedSystems
