import OvcReplay.C2p.Retrieval

/-! # Tracklets of C2P v0.2

`tracklet.py`: a tracklet is opened by a candidate, takes further candidates, and is censored or
expires. The run of a tracklet keeps its chronology and its end where each operation does. -/

namespace OvcReplay.C2p

open List Python Json

variable (P : Platform)

/-! ## Records -/

/-- What the tracklet operations raise. -/
inductive TrackletError where
  | base (e : Error)
  | tracklet (marker : PyStr)
  deriving DecidableEq, Repr

/-- A candidate, with the fields that tracklets read. -/
structure TimedCandidate where
  candidateId : PyStr
  scope : ScopeFields
  marketEffectiveStart : PyStr
  marketEffectiveEnd : Option PyStr
  firstValidTime : PyStr
  evaluationCutoff : PyStr

/-- An object pack, with the fields that tracklets read. -/
structure TrackletPack where
  objectPackId : PyStr
  /-- `int(confirmation_contract.successive_member_candidates)`. -/
  successiveMemberCandidates : Int

/-- The states of a tracklet. -/
inductive TrackletState where
  | opened
  | ambiguous
  | confirmed
  | expired
  | censored
  deriving DecidableEq, Repr

/-- The observability states that tracklets take. -/
inductive Observability where
  | observed
  | censored
  deriving DecidableEq, Repr

/-- The evaluation states that tracklets take. -/
inductive EvaluationState where
  | available
  | ambiguous
  | notEvaluable
  deriving DecidableEq, Repr

/-- `_frontier`. -/
structure Frontier where
  lastCandidateId : PyStr
  lastDecisionId : Option PyStr
  evaluatedCandidateCount : Nat
  frontierHash : PyStr

/-- A tracklet. -/
structure Tracklet where
  trackletId : PyStr
  openingCandidateId : PyStr
  scope : ScopeFields
  memberCandidateIds : List PyStr
  decisionFrontier : Frontier
  state : TrackletState
  observabilityState : Observability
  evaluationState : EvaluationState
  marketEffectiveStart : PyStr
  marketEffectiveEnd : Option PyStr
  firstValidTime : PyStr
  evaluationCutoff : PyStr
  reasonCodes : List PyStr

/-! ## Operations -/

/-- `_frontier`, for the members with a last one. -/
def frontier (members : List PyStr) (last : PyStr) (lastDecisionId : Option PyStr) :
    Except TrackletError Frontier := do
  let frontierHash ← (hash P <| .ofRecord
    [(py "member_candidate_ids", .ofStrs members),
      (py "last_decision_id", .ofStr? lastDecisionId)]).mapError .base
  return ⟨last, lastDecisionId, members.length, frontierHash⟩

/-- `open_tracklet`. -/
def openTracklet (candidate : TimedCandidate) (pack : TrackletPack) :
    Except TrackletError Tracklet := do
  check (candidate.scope.objectPackId = pack.objectPackId)
    (.tracklet (py "C2P_OBJECT_PACK_MISMATCH"))
  let members := [candidate.candidateId]
  let trackletId ← (hash P <| .ofRecord
    [(py "schema", .str (py "c2p-tracklet-identity/v0.2")),
      (py "object_pack_id", .str pack.objectPackId),
      (py "opening_candidate_id", .str candidate.candidateId),
      (py "hard_scope", .dict candidate.scope.hardScope)]).mapError .base
  let decisionFrontier ← frontier P members candidate.candidateId none
  return {
    trackletId, decisionFrontier
    openingCandidateId := candidate.candidateId
    scope := candidate.scope
    memberCandidateIds := members
    state := .opened
    observabilityState := .observed
    evaluationState := .available
    marketEffectiveStart := candidate.marketEffectiveStart
    marketEffectiveEnd := candidate.marketEffectiveEnd
    firstValidTime := candidate.firstValidTime
    evaluationCutoff := candidate.evaluationCutoff
    reasonCodes := [] }

/-- The state, its evaluation and its reasons after a candidate is appended. -/
def stateAfter (members : List PyStr) (required : Int) (equallyLawfulCompetitor : Bool) :
    TrackletState × EvaluationState × List PyStr :=
  if equallyLawfulCompetitor = true then
    (.ambiguous, .ambiguous, [py "C2P_EQUAL_LAWFUL_COMPETITOR"])
  else if required ≤ members.length then (.confirmed, .available, [])
  else (.opened, .available, [])

/-- `append_candidate`. -/
def appendCandidate (tracklet : Tracklet) (candidate : TimedCandidate) (pack : TrackletPack)
    (equallyLawfulCompetitor : Bool) (decisionId : Option PyStr) :
    Except TrackletError Tracklet := do
  check (tracklet.state ≠ .expired ∧ tracklet.state ≠ .censored)
    (.tracklet (py "C2P_TRACKLET_TERMINAL"))
  check (candidate.scope.objectPackId = tracklet.scope.objectPackId ∧
      candidate.scope.objectPackId = pack.objectPackId)
    (.tracklet (py "C2P_OBJECT_PACK_MISMATCH"))
  check (PyVal.pyEq (.dict candidate.scope.hardScope) (.dict tracklet.scope.hardScope) = true)
    (.tracklet (py "C2P_HARD_SCOPE_MISMATCH"))
  (validateCausalTimes P candidate.marketEffectiveStart candidate.marketEffectiveEnd
    candidate.firstValidTime candidate.evaluationCutoff).mapError .base
  check (candidate.candidateId ∉ tracklet.memberCandidateIds)
    (.tracklet (py "C2P_DUPLICATE_CANDIDATE"))
  let members := tracklet.memberCandidateIds ++ [candidate.candidateId]
  let decisionFrontier ← frontier P members candidate.candidateId decisionId
  let after := stateAfter members pack.successiveMemberCandidates equallyLawfulCompetitor
  return { tracklet with
    memberCandidateIds := members
    decisionFrontier
    marketEffectiveEnd := candidate.marketEffectiveEnd
    evaluationCutoff := candidate.evaluationCutoff
    firstValidTime := max tracklet.firstValidTime candidate.firstValidTime
    state := after.1
    evaluationState := after.2.1
    reasonCodes := after.2.2 }

/-- `censor_tracklet`. -/
def censorTracklet (tracklet : Tracklet) (cutoff reason : PyStr) : Tracklet :=
  { tracklet with
    state := .censored
    observabilityState := .censored
    evaluationState := .notEvaluable
    evaluationCutoff := cutoff
    reasonCodes := [reason] }

/-- `expire_tracklet`. -/
def expireTracklet (tracklet : Tracklet) (cutoff : PyStr) (explicitSignal : Bool) :
    Except TrackletError Tracklet := do
  check (explicitSignal = true) (.tracklet (py "C2P_EXPLICIT_EXPIRY_SIGNAL_REQUIRED"))
  return { tracklet with
    state := .expired
    evaluationCutoff := cutoff
    reasonCodes := [py "C2P_SYNTHETIC_EXPLICIT_EXPIRY"] }

/-! ## Runs -/

/-- An operation on an open tracklet. -/
inductive TrackletOp where
  | append (candidate : TimedCandidate) (pack : TrackletPack) (equallyLawfulCompetitor : Bool)
      (decisionId : Option PyStr)
  | censor (cutoff reason : PyStr)
  | expire (cutoff : PyStr) (explicitSignal : Bool)

/-- The tracklet after an operation. -/
def TrackletOp.apply (tracklet : Tracklet) : TrackletOp → Except TrackletError Tracklet
  | .append candidate pack equallyLawfulCompetitor decisionId =>
    appendCandidate P tracklet candidate pack equallyLawfulCompetitor decisionId
  | .censor cutoff reason => .ok (censorTracklet tracklet cutoff reason)
  | .expire cutoff explicitSignal => expireTracklet tracklet cutoff explicitSignal

/-- The states after each of the operations. -/
def statesFrom (tracklet : Tracklet) : List TrackletOp → Except TrackletError (List Tracklet)
  | [] => .ok []
  | op :: ops => do
    let next ← op.apply P tracklet
    return next :: (← statesFrom next ops)

/-- The states of a run: the tracklet is opened and the operations are applied. -/
def states (candidate : TimedCandidate) (pack : TrackletPack) (ops : List TrackletOp) :
    Except TrackletError (List Tracklet) := do
  let tracklet ← openTracklet P candidate pack
  return tracklet :: (← statesFrom P tracklet ops)

/-! ## The law of tracklets -/

/-- One time is not after another, as instants. -/
def NotAfter (time time' : PyStr) : Prop :=
  ∃ instant instant', parseUtcZ P time = .ok instant ∧ parseUtcZ P time' = .ok instant' ∧
    instant ≤ instant'

/-- The tracklet has ended. -/
def Tracklet.Terminal (tracklet : Tracklet) : Prop :=
  tracklet.state = .censored ∨ tracklet.state = .expired

/-- What a tracklet is in every state. -/
structure Tracklet.Sound (tracklet : Tracklet) : Prop where
  causal : NotAfter P tracklet.firstValidTime tracklet.evaluationCutoff
  distinct : tracklet.memberCandidateIds.Nodup

/-- What a step keeps: the cutoff does not decrease, and a tracklet that has ended keeps its members
and its state. -/
structure Keeps (tracklet next : Tracklet) : Prop where
  cutoff : NotAfter P tracklet.evaluationCutoff next.evaluationCutoff
  terminal : tracklet.Terminal →
    next.memberCandidateIds = tracklet.memberCandidateIds ∧ next.state = tracklet.state

/-- **The law of tracklets**, over the states of a run. -/
structure Lawful (states : List Tracklet) : Prop where
  sound : ∀ tracklet ∈ states, tracklet.Sound P
  keeps : states.IsChain (Keeps P)

/-! ## When a run is lawful -/

/-- When an operation keeps the law: its cutoff is not before the tracklet's, and it does not change
the state in which the tracklet has ended. -/
def TrackletOp.Allowed (tracklet : Tracklet) : TrackletOp → Prop
  | .append candidate _ _ _ => NotAfter P tracklet.evaluationCutoff candidate.evaluationCutoff
  | .censor cutoff _ => NotAfter P tracklet.evaluationCutoff cutoff ∧ tracklet.state ≠ .expired
  | .expire cutoff _ => NotAfter P tracklet.evaluationCutoff cutoff ∧ tracklet.state ≠ .censored

/-- Every operation is allowed in the state it meets. -/
def AllAllowed (tracklet : Tracklet) : List TrackletOp → Prop
  | [] => True
  | op :: ops => op.Allowed P tracklet ∧
      ∀ next, op.apply P tracklet = .ok next → AllAllowed next ops

variable (candidate : TimedCandidate) (pack : TrackletPack) (ops : List TrackletOp)

/-- **The law holds of a run**, if the run does not raise. -/
def LawHolds : Prop := ∀ run, states P candidate pack ops = .ok run → Lawful P run

/-- A run that does not raise is opened by a candidate that is first valid by its cutoff, and its
operations are allowed. -/
def RunAllowed : Prop :=
  Returns (states P candidate pack ops) →
    NotAfter P candidate.firstValidTime candidate.evaluationCutoff ∧
      ∀ tracklet, openTracklet P candidate pack = .ok tracklet → AllAllowed P tracklet ops

variable {P} {candidate pack ops}

/-! ## Steps -/

theorem NotAfter.trans {a b c : PyStr} (h : NotAfter P a b) (h' : NotAfter P b c) :
    NotAfter P a c := by
  obtain ⟨x, y, hx, hy, hxy⟩ := h
  obtain ⟨y', z, hy', hz, hyz⟩ := h'
  cases hy.symm.trans hy'
  exact ⟨x, z, hx, hz, hxy.trans hyz⟩

theorem notAfter_of_validate {start firstValid cutoff : PyStr} {stop : Option PyStr}
    (h : Returns (validateCausalTimes P start stop firstValid cutoff)) :
    NotAfter P firstValid cutoff := by
  obtain ⟨_, h⟩ := h
  obtain ⟨_, -, h⟩ := bind_ok.mp h
  obtain ⟨_, -, h⟩ := bind_ok.mp h
  obtain ⟨fvt, hfvt, h⟩ := bind_ok.mp h
  obtain ⟨last, hlast, h⟩ := bind_ok.mp h
  obtain ⟨_, -, h⟩ := bind_ok.mp h
  exact ⟨fvt, last, hfvt, hlast, check_ok.mp h⟩

/-- **What an append does**, when it does not raise. -/
structure Appended (P : Platform) (tracklet : Tracklet) (candidate : TimedCandidate)
    (next : Tracklet) : Prop where
  notTerminal : ¬ tracklet.Terminal
  causal : NotAfter P candidate.firstValidTime candidate.evaluationCutoff
  fresh : candidate.candidateId ∉ tracklet.memberCandidateIds
  members : next.memberCandidateIds = tracklet.memberCandidateIds ++ [candidate.candidateId]
  cutoff : next.evaluationCutoff = candidate.evaluationCutoff
  firstValid : next.firstValidTime = max tracklet.firstValidTime candidate.firstValidTime

variable {tracklet next : Tracklet}

theorem appended_of_ok {equallyLawfulCompetitor : Bool} {decisionId : Option PyStr}
    (h : appendCandidate P tracklet candidate pack equallyLawfulCompetitor decisionId = .ok next) :
    Appended P tracklet candidate next := by
  obtain ⟨_, hopen, h⟩ := bind_ok.mp h
  obtain ⟨_, -, h⟩ := bind_ok.mp h
  obtain ⟨_, -, h⟩ := bind_ok.mp h
  obtain ⟨_, hcausal, h⟩ := bind_ok.mp h
  obtain ⟨_, hfresh, h⟩ := bind_ok.mp h
  obtain ⟨_, -, h⟩ := bind_ok.mp h
  cases h
  obtain ⟨hexpired, hcens⟩ := check_ok.mp hopen
  exact {
    notTerminal := fun hterm => hterm.elim hcens hexpired
    causal := notAfter_of_validate ⟨_, mapError_ok.mp hcausal⟩
    fresh := check_ok.mp hfresh
    members := rfl
    cutoff := rfl
    firstValid := rfl }

/-- An operation that is applied keeps the law iff it is allowed. -/
theorem keeps_iff {op : TrackletOp} (h : op.apply P tracklet = .ok next) :
    Keeps P tracklet next ↔ op.Allowed P tracklet := by
  cases op with
  | append candidate pack equallyLawfulCompetitor decisionId =>
    have happended := appended_of_ok h
    refine ⟨fun hkeeps => ?_, fun hallowed => ⟨?_, ?_⟩⟩
    · have hcut := hkeeps.cutoff
      rwa [happended.cutoff] at hcut
    · rw [happended.cutoff]
      exact hallowed
    · exact fun hterm => absurd hterm happended.notTerminal
  | censor cutoff reason =>
    cases h
    refine ⟨fun hkeeps => ⟨hkeeps.cutoff, fun hexpired => ?_⟩,
      fun hallowed => ⟨hallowed.1, ?_⟩⟩
    · have hst : .censored = tracklet.state := (hkeeps.terminal (.inr hexpired)).2
      rw [hexpired] at hst
      cases hst
    · rintro (hcens | hexpired)
      · exact ⟨rfl, hcens.symm⟩
      · exact absurd hexpired hallowed.2
  | expire cutoff explicitSignal =>
    obtain ⟨_, -, h⟩ := bind_ok.mp h
    cases h
    refine ⟨fun hkeeps => ⟨hkeeps.cutoff, fun hcens => ?_⟩,
      fun hallowed => ⟨hallowed.1, ?_⟩⟩
    · have hst : .expired = tracklet.state := (hkeeps.terminal (.inl hcens)).2
      rw [hcens] at hst
      cases hst
    · rintro (hcens | hexpired)
      · exact absurd hcens hallowed.2
      · exact ⟨rfl, hexpired.symm⟩

/-- **An allowed operation keeps a tracklet sound.** -/
theorem sound_of_apply {op : TrackletOp} (h : op.apply P tracklet = .ok next)
    (hsound : tracklet.Sound P) (hallowed : op.Allowed P tracklet) : next.Sound P := by
  cases op with
  | append candidate pack equallyLawfulCompetitor decisionId =>
    have happended := appended_of_ok h
    refine ⟨?_, ?_⟩
    · -- the later text is one of the two, and both are valid by the new cutoff
      rw [happended.firstValid, happended.cutoff]
      rcases max_choice tracklet.firstValidTime candidate.firstValidTime with hmax | hmax
      · rw [hmax]
        exact hsound.causal.trans hallowed
      · rw [hmax]
        exact happended.causal
    · rw [happended.members]
      rw [← concat_eq_append]
      exact hsound.distinct.concat happended.fresh
  | censor cutoff reason =>
    cases h
    exact ⟨hsound.causal.trans hallowed.1, hsound.distinct⟩
  | expire cutoff explicitSignal =>
    obtain ⟨_, -, h⟩ := bind_ok.mp h
    cases h
    exact ⟨hsound.causal.trans hallowed.1, hsound.distinct⟩

/-! ## Runs -/

/-- **From a sound tracklet** a run is lawful iff its operations are allowed. -/
theorem lawful_statesFrom_iff {tracklet : Tracklet} {run : List Tracklet}
    (hsound : tracklet.Sound P) (h : statesFrom P tracklet ops = .ok run) :
    Lawful P (tracklet :: run) ↔ AllAllowed P tracklet ops := by
  induction ops generalizing tracklet run with
  | nil =>
    cases h
    exact iff_of_true ⟨by simpa using hsound, .singleton tracklet⟩ trivial
  | cons op ops ih =>
    obtain ⟨next, hnext, h⟩ := bind_ok.mp h
    obtain ⟨rest, hrest, h⟩ := bind_ok.mp h
    cases h
    constructor
    · intro hlaw
      obtain ⟨hkeeps, hchain⟩ := isChain_cons_cons.mp hlaw.keeps
      have hnextSound := hlaw.sound next (by simp)
      refine ⟨(keeps_iff hnext).mp hkeeps, fun next' hnext' => ?_⟩
      cases hnext.symm.trans hnext'
      exact (ih hnextSound hrest).mp
        ⟨fun state hmem => hlaw.sound state (mem_cons_of_mem _ hmem), hchain⟩
    · rintro ⟨hallowed, hlater⟩
      have hnextSound := sound_of_apply hnext hsound hallowed
      have hlaw := (ih hnextSound hrest).mpr (hlater next hnext)
      exact ⟨forall_mem_cons.mpr ⟨hsound, hlaw.sound⟩,
        isChain_cons_cons.mpr ⟨(keeps_iff hnext).mpr hallowed, hlaw.keeps⟩⟩

/-- What a candidate opens. -/
theorem sound_of_open {tracklet : Tracklet} (h : openTracklet P candidate pack = .ok tracklet) :
    tracklet.Sound P ↔ NotAfter P candidate.firstValidTime candidate.evaluationCutoff := by
  obtain ⟨_, -, h⟩ := bind_ok.mp h
  obtain ⟨_, -, h⟩ := bind_ok.mp h
  obtain ⟨_, -, h⟩ := bind_ok.mp h
  cases h
  exact ⟨fun hsound => hsound.causal, fun hcausal => ⟨hcausal, nodup_singleton _⟩⟩

variable (P candidate pack ops)

/-- The law holds of a run iff the run is allowed. -/
theorem lawHolds_iff : LawHolds P candidate pack ops ↔ RunAllowed P candidate pack ops := by
  constructor
  · rintro hlaw ⟨run, hrun⟩
    have hlawful := hlaw run hrun
    obtain ⟨tracklet, hopen, h⟩ := bind_ok.mp hrun
    obtain ⟨rest, hrest, h⟩ := bind_ok.mp h
    cases h
    have hsound := hlawful.sound tracklet (by simp)
    refine ⟨(sound_of_open hopen).mp hsound, fun tracklet' hopen' => ?_⟩
    cases hopen.symm.trans hopen'
    exact (lawful_statesFrom_iff hsound hrest).mp hlawful
  · intro hallowed run hrun
    obtain ⟨hcausal, hops⟩ := hallowed ⟨run, hrun⟩
    obtain ⟨tracklet, hopen, h⟩ := bind_ok.mp hrun
    obtain ⟨rest, hrest, h⟩ := bind_ok.mp h
    cases h
    exact (lawful_statesFrom_iff ((sound_of_open hopen).mpr hcausal) hrest).mpr (hops _ hopen)

/-! ## A tracklet that expires and is censored -/

/-- A candidate that is first valid at its cutoff. -/
def candidateAt (id time : PyStr) : TimedCandidate where
  candidateId := id
  scope := partitionScope (.str (py "P1")) (.str _)
  marketEffectiveStart := time
  marketEffectiveEnd := none
  firstValidTime := time
  evaluationCutoff := time

/-- A pack that confirms with three members. -/
def threeMembers : TrackletPack where
  objectPackId := py "PACK"
  successiveMemberCandidates := 3

/-- An expiry and, a minute later, a censoring. -/
def expireThenCensor : List TrackletOp :=
  [.expire (py "2026-01-01T00:02:00Z") true,
    .censor (py "2026-01-01T00:03:00Z") (py "C2P_SOURCE_CENSORED")]

/-- A tracklet that has expired is censored. -/
theorem expired_is_censored :
    (states .reference (candidateAt (py "C1") (py "2026-01-01T00:01:00Z")) threeMembers
        expireThenCensor).map (List.map Tracklet.state) = .ok [.opened, .expired, .censored] ∧
      ¬ LawHolds .reference (candidateAt (py "C1") (py "2026-01-01T00:01:00Z"))
        threeMembers expireThenCensor := by
  have hstates : (states .reference (candidateAt (py "C1") (py "2026-01-01T00:01:00Z"))
      threeMembers expireThenCensor).map (List.map Tracklet.state) =
        .ok [.opened, .expired, .censored] := by decide +kernel
  refine ⟨hstates, fun hlaw => ?_⟩
  obtain ⟨run, hrun, hmap⟩ := map_ok.mp hstates
  have hchain := (hlaw run hrun).keeps
  clear hrun hstates hlaw
  obtain ⟨first, rest, rfl, -, hmap⟩ := map_eq_cons_iff.mp hmap
  obtain ⟨second, rest, rfl, hsecond, hmap⟩ := map_eq_cons_iff.mp hmap
  obtain ⟨third, rest, rfl, hthird, -⟩ := map_eq_cons_iff.mp hmap
  obtain ⟨-, hchain⟩ := isChain_cons_cons.mp hchain
  have hkeeps := (isChain_cons_cons.mp hchain).1
  have hsame := (hkeeps.terminal (.inr hsecond)).2
  rw [hsecond, hthird] at hsame
  cases hsame

end OvcReplay.C2p
