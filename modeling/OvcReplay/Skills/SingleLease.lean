import OvcReplay.Logs.Calls
import OvcReplay.Skills.IntegrationQueue

/-! # One lease at a time

What an accepted call does to a queue, the invariant of the queues of a run, and who is integrated: a
candidate that took the lease as the first `READY` one and has held it since. -/

namespace OvcReplay.Skills

open List Python

namespace IntegrationQueue

variable {S : Surroundings}

/-! ## States -/

/-- The states that no operation moves a candidate from. -/
def Final (queueState : PyStr) : Prop :=
  queueState = integrated ∨ queueState = blocked ∨ queueState = quarantined ∨
    queueState = operatorRequired

instance (queueState : PyStr) : Decidable (Final queueState) :=
  inferInstanceAs (Decidable (_ ∨ _))

theorem not_final_ready : ¬ Final ready := by decide

theorem integrated_ne_ready : integrated ≠ ready := by decide

theorem quarantined_ne_ready : quarantined ≠ ready := by decide

theorem blocked_ne_ready : blocked ≠ ready := by decide

theorem operatorRequired_ne_ready : operatorRequired ≠ ready := by decide

theorem wait_ne_ready : wait ≠ ready := by decide

theorem wait_ne_operatorRequired : wait ≠ operatorRequired := by decide

theorem final_ne_ready {queueState : PyStr} (h : Final queueState) : queueState ≠ ready := by
  rintro rfl
  exact not_final_ready h

/-! ## Admission -/

@[simp] theorem packetId_withState (c : QueueCandidate) (state : PyStr) (codes : List PyStr) :
    (c.withState state codes).packetId = c.packetId := rfl

@[simp] theorem queueState_withState (c : QueueCandidate) (state : PyStr) (codes : List PyStr) :
    (c.withState state codes).queueState = state := rfl

@[simp] theorem key_withState (c : QueueCandidate) (state : PyStr) (codes : List PyStr) :
    (c.withState state codes).key = c.key := rfl

/-- A decision is one of three states. -/
theorem decideState_fst (c : QueueCandidate) (blockers : List PyStr) :
    (decideState c blockers).1 = wait ∨ (decideState c blockers).1 = operatorRequired ∨
      (decideState c blockers).1 = ready := by
  rw [decideState]
  split_ifs with hlin hoper hblocked
  · exact .inl rfl
  · exact .inr (.inl rfl)
  · exact .inl rfl
  · exact .inr (.inr rfl)

variable {c admitted : QueueCandidate}

/-- **Admission** changes a candidate in its state and its codes only. -/
theorem evaluateReadyAdmission_ok (h : evaluateReadyAdmission S c = .ok admitted) :
    ∃ state codes, admitted = c.withState state codes ∧ state ≠ integrated := by
  rw [evaluateReadyAdmission] at h
  split_ifs at h with hquar hblocked
  · exact ⟨quarantined, _, (Except.ok.inj h).symm, by decide⟩
  · exact ⟨blocked, _, (Except.ok.inj h).symm, by decide⟩
  · simp only [bind_ok, pure_ok] at h
    obtain ⟨lineage, -, rfl⟩ := h
    refine ⟨_, _, rfl, ?_⟩
    rcases decideState_fst c (c.reasonCodes ++ fieldBlockers c ++ lineage) with hs | hs | hs <;>
      · rw [hs]
        decide

/-- Admission integrates nothing. -/
theorem ne_integrated_of_evaluate (h : evaluateReadyAdmission S c = .ok admitted) :
    admitted.queueState ≠ integrated := by
  obtain ⟨state, codes, rfl, hst⟩ := evaluateReadyAdmission_ok h
  exact hst

theorem packetId_of_evaluate (h : evaluateReadyAdmission S c = .ok admitted) :
    admitted.packetId = c.packetId := by
  obtain ⟨state, codes, rfl, -⟩ := evaluateReadyAdmission_ok h
  rfl

@[simp] theorem packetId_sequenced (rows : List QueueCandidate) (c : QueueCandidate) :
    (sequenced rows c).packetId = c.packetId := by
  rw [sequenced]
  split_ifs <;> rfl

/-! ## Rows -/

@[simp] theorem packetId_settled (row : QueueCandidate) (packetId state code : PyStr) :
    (row.settled packetId state code).packetId = row.packetId := by
  rw [QueueCandidate.settled]
  split_ifs <;> rfl

@[simp] theorem key_settled (row : QueueCandidate) (packetId state code : PyStr) :
    (row.settled packetId state code).key = row.key := by
  rw [QueueCandidate.settled]
  split_ifs <;> rfl

variable {packetId code state' : PyStr} {s' : QueueState}

theorem settled_of_ne {row : QueueCandidate} {state : PyStr}
    (h : row.packetId ≠ packetId) : row.settled packetId state code = row :=
  if_neg h

theorem queueState_settled {row : QueueCandidate} {state : PyStr}
    (h : row.packetId = packetId) : (row.settled packetId state code).queueState = state := by
  rw [QueueCandidate.settled, if_pos h]
  rfl

/-! ## What a call does -/

/-- **The effect of an accepted call.** -/
inductive Moves (S : Surroundings) (s : QueueState) : Call → QueueState → Prop
  /-- A new candidate is sorted in. -/
  | enqueued (value : Submission) (candidate admitted : QueueCandidate)
      (hread : value.read S = .ok candidate)
      (hadmitted : evaluateReadyAdmission S (sequenced s.candidates candidate) = .ok admitted)
      (hnew : ∀ row ∈ s.candidates, row.packetId ≠ admitted.packetId) :
      Moves S s (.enqueue value) { s with
        candidates := sortedBy QueueCandidate.key (s.candidates ++ [admitted])
        generation := s.generation + 1 }
  /-- The head takes the lease, which is free or its own. -/
  | acquired (packetId at' now : PyStr) (acquiredAt : Option PyStr)
      (hhead : (queueHead s).map QueueCandidate.packetId = some packetId)
      (hholder : s.leaseHolderPacketId = none ∨ s.leaseHolderPacketId = some packetId) :
      Moves S s (.acquire packetId baseSensitive acquiredAt now) { s with
        leaseHolderPacketId := some packetId
        leaseAcquiredAt := some at'
        generation := s.generation + 1 }
  /-- The holder gives the lease back. -/
  | released (packetId : PyStr) (hholder : s.leaseHolderPacketId = some packetId) :
      Moves S s (.release packetId) s.freed
  /-- The holder may go on. -/
  | kept (packetId : PyStr) (seconds : Int) (active : Bool)
      (hholder : s.leaseHolderPacketId = some packetId)
      (htime : ¬ (seconds > leaseReleaseRequeueSeconds ∧ !active)) :
      Moves S s (.elapsed packetId seconds active) s
  /-- The holder is put back into the queue. -/
  | timedOut (packetId : PyStr) (seconds : Int) (active : Bool)
      (hholder : s.leaseHolderPacketId = some packetId)
      (htime : seconds > leaseReleaseRequeueSeconds ∧ !active) :
      Moves S s (.elapsed packetId seconds active)
        (s.settling packetId ready (py "LEASE_TIMEOUT_REQUEUED"))
  /-- The holder is put back or parked. -/
  | terminated (packetId disposition reasonCode state : PyStr)
      (hholder : s.leaseHolderPacketId = some packetId)
      (htarget : S.upper disposition ∈ [requeue, blocked, quarantined, operatorRequired])
      (hstate : state = if S.upper disposition = requeue then ready else S.upper disposition) :
      Moves S s (.terminate packetId disposition reasonCode) (s.settling packetId state reasonCode)
  /-- The holder is integrated. -/
  | integrated (packetId mergeSha : PyStr) (hholder : s.leaseHolderPacketId = some packetId) :
      Moves S s (.markIntegrated packetId mergeSha)
        (s.settling packetId integrated (py "MERGE_SHA:" ++ mergeSha))

/-- The targets of a termination are states other than `INTEGRATED`. -/
theorem target_ne_integrated {target : PyStr}
    (h : target ∈ [requeue, blocked, quarantined, operatorRequired]) :
    (if target = requeue then ready else target) ≠ integrated := by
  split_ifs with hrequeue
  · exact integrated_ne_ready.symm
  · rintro rfl
    exact absurd h (by decide)

/-- **Every accepted call** has one of the effects. -/
theorem moves_of_call {s : QueueState} {c : Call} (h : call S s c = .ok s') : Moves S s c s' := by
  cases c with
  | enqueue value =>
    simp only [call, enqueueCandidate, bind_ok, mapError_ok, check_ok, pure_ok] at h
    obtain ⟨c, hread, -, hnew, admitted, hadm, rfl⟩ := h
    refine .enqueued value c admitted hread hadm ?_
    intro row hrow heq
    rw [packetId_of_evaluate hadm, packetId_sequenced] at heq
    exact hnew ⟨row, hrow, heq⟩
  | acquire packetId assuranceClass acquiredAt now =>
    simp only [call, acquireFinalIntegrationLease, bind_ok, check_ok, pure_ok] at h
    obtain ⟨-, rfl, -, hhead, -, hhold, rfl⟩ := h
    exact .acquired packetId _ now acquiredAt hhead hhold
  | release packetId =>
    simp only [call, releaseFinalIntegrationLease, requireHolder, bind_ok, check_ok, pure_ok] at h
    obtain ⟨-, hhold, rfl⟩ := h
    exact .released packetId hhold
  | elapsed packetId seconds active =>
    simp only [call, handleLeaseElapsed, requireHolder, map_ok, bind_ok, check_ok, pure_ok] at h
    obtain ⟨result, ⟨-, hhold, -, -, rfl⟩, rfl⟩ := h
    rw [afterElapsed]
    split_ifs with htimeout hwarning hact
    · exact .timedOut packetId seconds active hhold htimeout
    · exact .kept packetId seconds active hhold htimeout
    · exact .kept packetId seconds active hhold htimeout
    · exact .kept packetId seconds active hhold htimeout
  | terminate packetId disposition reasonCode =>
    simp only [call, terminateLease, requireHolder, bind_ok, check_ok, pure_ok] at h
    obtain ⟨-, htgt, -, hhold, rfl⟩ := h
    exact .terminated packetId disposition reasonCode _ hhold htgt rfl
  | markIntegrated packetId mergeSha =>
    simp only [call, markIntegrated, requireHolder, bind_ok, check_ok, pure_ok] at h
    obtain ⟨-, hhold, -, -, rfl⟩ := h
    exact .integrated packetId mergeSha hhold

/-! ## The invariant -/

/-- **A sound queue**: its packet ids are distinct, its rows sorted, and the lease, if it is held,
is held by a `READY` row. -/
structure Sound (s : QueueState) : Prop where
  nodup : (s.candidates.map QueueCandidate.packetId).Nodup
  sorted : s.candidates.Pairwise fun a b => a.key ≤ b.key
  holder : ∀ p, s.leaseHolderPacketId = some p →
    ∃ row ∈ s.candidates, row.packetId = p ∧ row.queueState = ready
  acquiredAt : s.leaseAcquiredAt.isSome = s.leaseHolderPacketId.isSome

theorem packetIds_settling (s : QueueState) (packetId state code : PyStr) :
    (s.settling packetId state code).candidates.map QueueCandidate.packetId =
      s.candidates.map QueueCandidate.packetId := by
  rw [QueueState.settling, map_map]
  exact map_congr_left fun row _ => packetId_settled row packetId state code

variable {s : QueueState}

theorem Sound.freed (h : Sound s) : Sound s.freed where
  nodup := h.nodup
  sorted := h.sorted
  holder := by
    intro p hp
    cases hp
  acquiredAt := rfl

theorem Sound.settling (h : Sound s) (packetId state code : PyStr) :
    Sound (s.settling packetId state code) where
  nodup := by
    rw [packetIds_settling]
    exact h.nodup
  sorted := by
    refine pairwise_map.mpr (h.sorted.imp ?_)
    intro a b hab
    rwa [key_settled, key_settled]
  holder := by
    intro p hp
    cases hp
  acquiredAt := rfl

/-- The head of a queue is one of its `READY` rows. -/
theorem mem_of_queueHead {head : QueueCandidate} (h : queueHead s = some head) :
    head ∈ s.candidates ∧ head.queueState = ready :=
  ⟨mem_of_find?_eq_some h, by simpa using List.find?_some h⟩

/-- **Every accepted call keeps a queue sound.** -/
theorem Sound.moves {s : QueueState} {c : Call} (h : Sound s) (hmoves : Moves S s c s') :
    Sound s' := by
  cases hmoves with
  | enqueued value c admitted hread hadm hnew =>
    have hperm := sortedBy_perm QueueCandidate.key (s.candidates ++ [admitted])
    constructor
    · rw [(hperm.map QueueCandidate.packetId).nodup_iff, map_append, nodup_append]
      refine ⟨h.nodup, nodup_singleton _, ?_⟩
      intro p hp q hq
      obtain ⟨row, hrow, rfl⟩ := mem_map.mp hp
      rw [mem_singleton.mp hq]
      exact hnew row hrow
    · exact sortedBy_pairwise _ _
    · intro p hp
      obtain ⟨row, hrow, hid, hready⟩ := h.holder p hp
      exact ⟨row, hperm.mem_iff.mpr (mem_append_left _ hrow), hid, hready⟩
    · exact h.acquiredAt
  | acquired packetId at' now acquiredAt hhead hhold =>
    refine ⟨h.nodup, h.sorted, ?_, rfl⟩
    rintro p ⟨⟩
    obtain ⟨head, hfound, hid⟩ := Option.map_eq_some_iff.mp hhead
    exact ⟨head, (mem_of_queueHead hfound).1, hid, (mem_of_queueHead hfound).2⟩
  | released packetId hhold => exact h.freed
  | kept packetId seconds active hhold htime => exact h
  | timedOut packetId seconds active hhold htime => exact h.settling packetId _ _
  | terminated packetId disposition reasonCode state hhold htgt hst =>
    exact h.settling packetId _ _
  | integrated packetId mergeSha hhold => exact h.settling packetId _ _

/-- The queue after a run. -/
abbrev after (S : Surroundings) (s : QueueState) (calls : List Call) : QueueState :=
  Logs.run (call S) s calls

theorem sound_after (h : Sound s) (calls : List Call) : Sound (after S s calls) :=
  Logs.run_inv (fun _ _ _ hok hsound => hsound.moves (moves_of_call hok)) h calls

/-- **What is built from candidates with distinct packet ids is sound.** -/
theorem sound_of_build {values : List Submission} {candidates : List QueueCandidate}
    {queueId : PyStr} {generation : Int} (hread : values.mapM (Submission.read S) = .ok candidates)
    (hdist : (candidates.map QueueCandidate.packetId).Nodup)
    (hbuild : buildQueueState S values queueId generation = .ok s) : Sound s := by
  simp only [buildQueueState, bind_ok, pure_ok] at hbuild
  obtain ⟨admitted, hadm, rfl⟩ := hbuild
  have heval : candidates.mapM (evaluateReadyAdmission S) = .ok admitted := by
    obtain ⟨read, hread', hevaluate⟩ := mapM_mapM_ok.mpr hadm
    rw [hread] at hread'
    rwa [Except.ok.inj hread']
  have hids : admitted.map QueueCandidate.packetId = candidates.map QueueCandidate.packetId := by
    have hrows := mapM_ok_iff.mp heval
    clear heval hadm hread hdist
    induction hrows with
    | nil => rfl
    | cons hrow _ ih => rw [map_cons, map_cons, ih, packetId_of_evaluate hrow]
  have hperm := sortedBy_perm QueueCandidate.key admitted
  constructor
  · rw [(hperm.map QueueCandidate.packetId).nodup_iff, hids]
    exact hdist
  · exact sortedBy_pairwise _ _
  · rintro p ⟨⟩
  · rfl

/-! ## States of a run -/

/-- A row of this packet is in this state. -/
def HasState (s : QueueState) (p state : PyStr) : Prop :=
  ∃ row ∈ s.candidates, row.packetId = p ∧ row.queueState = state

/-- A packet has one row. -/
theorem Sound.eq_of_packetId (h : Sound s) {a b : QueueCandidate} (ha : a ∈ s.candidates)
    (hb : b ∈ s.candidates) (hab : a.packetId = b.packetId) : a = b :=
  inj_on_of_nodup_map h.nodup ha hb hab

/-- A packet is in one state. -/
theorem HasState.unique (h : Sound s) {p state : PyStr} (hst : HasState s p state)
    (hst' : HasState s p state') : state = state' := by
  obtain ⟨row, hrow, hid, rfl⟩ := hst
  obtain ⟨row', hrow', hid', rfl⟩ := hst'
  rw [h.eq_of_packetId hrow hrow' (hid.trans hid'.symm)]

/-- The holder of the lease is `READY`. -/
theorem Sound.hasState_holder (h : Sound s) {p : PyStr} (hhold : s.leaseHolderPacketId = some p) :
    HasState s p ready :=
  h.holder p hhold

/-- A row of another packet is left as it is. -/
theorem hasState_settling_of_ne {p state : PyStr} (hne : p ≠ packetId) :
    HasState (s.settling packetId state' code) p state ↔ HasState s p state := by
  constructor
  · rintro ⟨row', hrow', hid, hst⟩
    obtain ⟨row, hrow, rfl⟩ := mem_map.mp hrow'
    rw [packetId_settled] at hid
    rw [settled_of_ne (hid.trans_ne hne)] at hst
    exact ⟨row, hrow, hid, hst⟩
  · rintro ⟨row, hrow, hid, hst⟩
    refine ⟨row, mem_map.mpr ⟨row, hrow, settled_of_ne (hid.trans_ne hne)⟩, hid, hst⟩

/-- The row that is settled is in the state that it is put into. -/
theorem eq_of_hasState_settling {state : PyStr}
    (h : HasState (s.settling packetId state' code) packetId state) : state = state' := by
  obtain ⟨row', hrow', hid, rfl⟩ := h
  obtain ⟨row, -, rfl⟩ := mem_map.mp hrow'
  rw [packetId_settled] at hid
  exact queueState_settled hid

variable {p state : PyStr}

/-- The state of a packet other than the holder of the lease outlasts every call. -/
theorem HasState.moves {s : QueueState} {c : Call} (h : HasState s p state)
    (hhold : s.leaseHolderPacketId ≠ some p) (hmoves : Moves S s c s') : HasState s' p state := by
  have hother : ∀ {packetId state' code : PyStr}, s.leaseHolderPacketId = some packetId →
      HasState (s.settling packetId state' code) p state := by
    intro packetId state' code hheld
    refine (hasState_settling_of_ne ?_).mpr h
    rintro rfl
    exact hhold hheld
  cases hmoves with
  | enqueued value c admitted hread hadm hnew =>
    obtain ⟨row, hrow, hrest⟩ := h
    exact ⟨row, mem_sortedBy.mpr (mem_append_left _ hrow), hrest⟩
  | acquired packetId at' now acquiredAt hhead hfree => exact h
  | released packetId hheld => exact h
  | kept packetId seconds active hheld htime => exact h
  | timedOut packetId seconds active hheld htime => exact hother hheld
  | terminated packetId disposition reasonCode target hheld htgt hst => exact hother hheld
  | integrated packetId mergeSha hheld => exact hother hheld

/-- A packet in a final state does not hold the lease. -/
theorem HasState.not_holder (h : Sound s) (hst : HasState s p state) (hfinal : Final state) :
    s.leaseHolderPacketId ≠ some p := by
  intro hhold
  exact final_ne_ready hfinal (hst.unique h (h.hasState_holder hhold))

/-- **A final state lasts**: no run changes it. -/
theorem HasState.lasts (h : Sound s) (hst : HasState s p state) (hfinal : Final state)
    (calls : List Call) : HasState (after S s calls) p state := by
  have hboth : Sound (after S s calls) ∧ HasState (after S s calls) p state := by
    refine Logs.run_inv (P := fun t => Sound t ∧ HasState t p state) ?_ ⟨h, hst⟩ calls
    intro t c t' hok hinv
    have hmoves := moves_of_call hok
    exact ⟨hinv.1.moves hmoves, hinv.2.moves (hinv.2.not_holder hinv.1 hfinal) hmoves⟩
  exact hboth.2

/-- **Only the integration of the holder integrates a packet.** -/
theorem integrates {s : QueueState} {c : Call} {p : PyStr} (hmoves : Moves S s c s')
    (hbef : ¬ HasState s p integrated) (hafter : HasState s' p integrated) :
    (∃ mergeSha, c = .markIntegrated p mergeSha) ∧ s.leaseHolderPacketId = some p := by
  have hsettled : ∀ {packetId state code : PyStr},
      HasState (s.settling packetId state code) p integrated →
        p = packetId ∧ state = integrated := by
    intro packetId state code h
    by_cases hne : p = packetId
    · subst hne
      exact ⟨rfl, (eq_of_hasState_settling h).symm⟩
    · exact absurd ((hasState_settling_of_ne hne).mp h) hbef
  cases hmoves with
  | enqueued value c admitted hread hadm hnew =>
    obtain ⟨row, hrow, hid, hrowstate⟩ := hafter
    rcases mem_append.mp (mem_sortedBy.mp hrow) with hold | hlast
    · exact absurd ⟨row, hold, hid, hrowstate⟩ hbef
    · rw [mem_singleton.mp hlast] at hrowstate
      exact absurd hrowstate (ne_integrated_of_evaluate hadm)
  | acquired packetId at' now acquiredAt hhead hfree => exact absurd hafter hbef
  | released packetId hheld => exact absurd hafter hbef
  | kept packetId seconds active hheld htime => exact absurd hafter hbef
  | timedOut packetId seconds active hheld htime =>
    exact absurd (hsettled hafter).2 integrated_ne_ready.symm
  | terminated packetId disposition reasonCode state hheld htgt hst =>
    exact absurd (hst.symm.trans (hsettled hafter).2) (target_ne_integrated htgt)
  | integrated packetId mergeSha hheld =>
    obtain ⟨rfl, -⟩ := hsettled hafter
    exact ⟨⟨mergeSha, rfl⟩, hheld⟩

/-- **Only the head takes the lease.** -/
theorem acquires {s : QueueState} {c : Call} {p : PyStr} (hmoves : Moves S s c s')
    (hbef : s.leaseHolderPacketId ≠ some p) (hafter : s'.leaseHolderPacketId = some p) :
    (∃ acquiredAt now, c = .acquire p baseSensitive acquiredAt now) ∧
      ∃ head, queueHead s = some head ∧ head.packetId = p ∧ head.queueState = ready := by
  cases hmoves with
  | enqueued value c admitted hread hadm hnew => exact absurd hafter hbef
  | acquired packetId at' now acquiredAt hhead hfree =>
    cases hafter
    obtain ⟨head, hfound, hid⟩ := Option.map_eq_some_iff.mp hhead
    exact ⟨⟨acquiredAt, now, rfl⟩, head, hfound, hid, (mem_of_queueHead hfound).2⟩
  | released packetId hheld => cases hafter
  | kept packetId seconds active hheld htime => exact absurd hafter hbef
  | timedOut packetId seconds active hheld htime => cases hafter
  | terminated packetId disposition reasonCode state hheld htgt hst => cases hafter
  | integrated packetId mergeSha hheld => cases hafter

/-- After these calls the packet holds the lease, which it took as the `READY` head of the queue and
has held since. -/
def HeldSinceHead (S : Surroundings) (s : QueueState) (calls : List Call) (p : PyStr) : Prop :=
  ∃ before acquiredAt now mid,
    calls = before ++ .acquire p baseSensitive acquiredAt now :: mid ∧
    (∃ head, queueHead (after S s before) = some head ∧ head.packetId = p ∧
      head.queueState = ready) ∧
    ∀ held, held <+: mid →
      (after S s (before ++ .acquire p baseSensitive acquiredAt now :: held)).leaseHolderPacketId =
        some p

/-- **A holder took the lease as the head.** -/
theorem heldSinceHead (hfree : s.leaseHolderPacketId = none) {calls : List Call} {p : PyStr}
    (h : (after S s calls).leaseHolderPacketId = some p) :
    HeldSinceHead S s calls p := by
  have hstart : ¬ s.leaseHolderPacketId = some p := by
    rw [hfree]
    nofun
  obtain ⟨before, c, mid, rfl, hbef, hok, hheld⟩ :=
    Logs.exists_step_of_run (P := fun t : QueueState => t.leaseHolderPacketId = some p) hstart h
  have hafter := hheld [] nil_prefix
  obtain ⟨⟨acquiredAt, now, rfl⟩, hhead⟩ := acquires (moves_of_call hok) hbef hafter
  exact ⟨before, acquiredAt, now, mid, rfl, hhead, hheld⟩

theorem free_of_build {values : List Submission} {queueId : PyStr} {generation : Int}
    (hbuild : buildQueueState S values queueId generation = .ok s) :
    s.leaseHolderPacketId = none := by
  simp only [buildQueueState, bind_ok, pure_ok] at hbuild
  obtain ⟨admitted, -, rfl⟩ := hbuild
  rfl

/-- **One lease at a time.** After every run from a queue that is built from candidates with distinct
packet ids the queue is sound; a packet becomes `INTEGRATED` only while it holds the lease that it
took as the `READY` head; and a packet in a final state stays in it and without the lease. -/
theorem single_lease {values : List Submission} {candidates : List QueueCandidate}
    {queueId : PyStr} {generation : Int} {s : QueueState}
    (hread : values.mapM (Submission.read S) = .ok candidates)
    (hdistinct : (candidates.map QueueCandidate.packetId).Nodup)
    (hbuild : buildQueueState S values queueId generation = .ok s) (calls : List Call) :
    Sound (after S s calls) ∧
    (∀ pre c, pre ++ [c] <+: calls → ∀ p, ¬ HasState (after S s pre) p integrated →
      HasState (after S s (pre ++ [c])) p integrated →
        (∃ mergeSha, c = .markIntegrated p mergeSha) ∧
        (after S s pre).leaseHolderPacketId = some p ∧ HeldSinceHead S s pre p) ∧
    (∀ pre later, pre ++ later <+: calls → ∀ p state, Final state →
      HasState (after S s pre) p state → HasState (after S s (pre ++ later)) p state ∧
        (∀ row ∈ (after S s (pre ++ later)).candidates, row.packetId = p → row.queueState = state) ∧
        (after S s (pre ++ later)).leaseHolderPacketId ≠ some p) := by
  have hsound := sound_of_build hread hdistinct hbuild
  refine ⟨sound_after hsound calls, ?_, ?_⟩
  · intro pre c _ p hbef hafter
    have hok : call S (after S s pre) c = .ok (after S s (pre ++ [c])) := by
      have hlast : after S s (pre ++ [c]) = Logs.attempt (call S) (after S s pre) c :=
        Logs.run_snoc s pre c
      rw [hlast] at hafter ⊢
      refine Logs.step_of_attempt_ne fun hsame => hbef ?_
      rwa [hsame] at hafter
    obtain ⟨hmark, hhold⟩ := integrates (moves_of_call hok) hbef hafter
    exact ⟨hmark, hhold, heldSinceHead (free_of_build hbuild) hhold⟩
  · intro pre later _ p state hfinal hst
    have hlater : HasState (after S s (pre ++ later)) p state := by
      rw [after, Logs.run_append]
      exact hst.lasts (sound_after hsound pre) hfinal later
    have hsound' := sound_after (S := S) hsound (pre ++ later)
    refine ⟨hlater, ?_, hlater.not_holder hsound' hfinal⟩
    intro row hrow hid
    exact (hlater.unique hsound' ⟨row, hrow, hid, rfl⟩).symm

/-- A queue of one admitted candidate, whose lease is taken and completed. -/
theorem single_lease_of_one : Sound (after Reference.surroundings Reference.queue
      [.acquire (py "A") baseSensitive (some (py "T0")) (py "T1"),
        .markIntegrated (py "A") (py Reference.resultSha)]) :=
  (@single_lease _ _ [Reference.candidate] _ _ _ rfl (by decide) Reference.queue_built _).1

end IntegrationQueue

end OvcReplay.Skills
