import OvcReplay.C2p.Rs0.Runtime

/-! # What a row does to the RS0 runtime

One case for each outcome of a row. Whatever the runtime keeps over its rows is proved from these
cases and not from the code. -/

namespace OvcReplay.C2p.Rs0

open Python

variable {P : Platform} {context : Context}

/-- The evidence about the tracklets that a row is compared with. -/
def TrackletEvidence (P : Platform) (context : Context) (loop : Loop) (row : Row)
    (openIds : List PyStr) (vectors : List EvidenceVector) : Prop :=
  evidence P context row .tracklet
    (fun id => (objectAt loop.trackletPos loop.result.tracklets id).map (·.latestMaterial))
    openIds = .ok vectors

/-- The evidence about the assertions that a row is compared with. -/
def AssertionEvidence (P : Platform) (context : Context) (loop : Loop) (row : Row)
    (vectors : List EvidenceVector) : Prop :=
  ∃ scope, scopeKey P row.candidate.hardScope = .ok scope ∧
    evidence P context row .objectAssertion
      (fun id =>
        (objectAt loop.assertionPos loop.result.objectAssertions id).map (·.latestMaterial))
      ((loop.result.indexes.assertionIdsByScope.get? scope).getD []) = .ok vectors

/-- A decision about the candidate of a row. -/
structure Decides (row : Row) (terminal : TerminalDecision) (subject : Option PyStr)
    (d : Decision) : Prop where
  candidateId : d.candidateId = row.candidate.candidateId
  terminalDecision : d.terminalDecision = terminal
  resultingSubjectId : d.resultingSubjectId = subject

/-- **The outcomes of a row that belongs to no assertion**; `loop` already has its candidate. -/
inductive TrackletOutcome (P : Platform) (context : Context) (loop : Loop) (row : Row)
    (openIds : List PyStr) : Loop → Prop
  | new {vectors : List EvidenceVector} {t : Tracklet} {d : Decision}
      (hvectors : TrackletEvidence P context loop row openIds vectors)
      (hnone : row.broken = true ∨ eligible vectors = [])
      (ht : openTracklet P row.candidate row.material = .ok t)
      (hd : Decides row .newTracklet (some t.trackletId) d) :
      TrackletOutcome P context loop row openIds
        ((((loop.pushEvidence vectors).censor row openIds).pushTracklet t).pushDecision d)
  | extend {vectors : List EvidenceVector} {id : PyStr} {t t' : Tracklet} {d : Decision}
      (hvectors : TrackletEvidence P context loop row openIds vectors)
      (hbroken : row.broken = false) (hone : eligible vectors = [id])
      (hat : objectAt loop.trackletPos loop.result.tracklets id = .ok t)
      (ht : appendTracklet t row.candidate row.material = .ok t') (hopen : t'.state ≠ .confirmed)
      (hd : Decides row .trackletUpdate (some id) d) :
      TrackletOutcome P context loop row openIds
        (((loop.pushEvidence vectors).putTracklet id t').pushDecision d)
  | genesis {vectors : List EvidenceVector} {id : PyStr} {t t' : Tracklet} {a : Assertion}
      {d : Decision} (hvectors : TrackletEvidence P context loop row openIds vectors)
      (hbroken : row.broken = false) (hone : eligible vectors = [id])
      (hat : objectAt loop.trackletPos loop.result.tracklets id = .ok t)
      (ht : appendTracklet t row.candidate row.material = .ok t')
      (hconfirmed : t'.state = .confirmed) (ha : createAssertion P t' = .ok a)
      (hd : Decides row .genesis (some a.objectAssertionId) d) :
      TrackletOutcome P context loop row openIds
        ((((loop.pushEvidence vectors).putTracklet id t').pushAssertion a).pushDecision d)
  | ambiguous {vectors : List EvidenceVector} {d : Decision}
      (hvectors : TrackletEvidence P context loop row openIds vectors)
      (hbroken : row.broken = false) (hd : Decides row .ambiguous none d) :
      TrackletOutcome P context loop row openIds
        (((loop.pushEvidence vectors).close .ambiguous
          (py "RS0_EQUAL_LAWFUL_TRACKLET_COMPETITOR") (eligible vectors)).pushDecision d)

/-- **The outcomes of a row.** -/
inductive Outcome (P : Platform) (context : Context) (loop : Loop) (row : Row) : Loop → Prop
  | tracklets {scope : PyStr} {vectors : List EvidenceVector} {loop' : Loop}
      (hscope : scopeKey P row.candidate.hardScope = .ok scope)
      (hvectors : AssertionEvidence P context loop row vectors) (hnone : eligible vectors = [])
      (h : TrackletOutcome P context ((loop.pushCandidate row.candidate).pushEvidence vectors) row
        ((loop.result.indexes.openTrackletIdsByScope.get? scope).getD []) loop') :
      Outcome P context loop row loop'
  | update {vectors : List EvidenceVector} {id : PyStr} {d : Decision}
      (hvectors : AssertionEvidence P context loop row vectors) (hone : eligible vectors = [id])
      (hd : Decides row .update (some id) d) :
      Outcome P context loop row
        ((((loop.pushCandidate row.candidate).pushEvidence vectors).update id row).pushDecision d)
  | ambiguous {vectors : List EvidenceVector} {d : Decision}
      (hvectors : AssertionEvidence P context loop row vectors)
      (hd : Decides row .ambiguous none d) :
      Outcome P context loop row
        (((loop.pushCandidate row.candidate).pushEvidence vectors).pushDecision d)

variable {row : Row}

theorem decides_of_decision {terminal : TerminalDecision} {assertionIds trackletIds : List PyStr}
    {vectors : List EvidenceVector} {subject : Option PyStr} {d : Decision}
    (h : decision P row.candidate terminal assertionIds trackletIds vectors subject = .ok d) :
    Decides row terminal subject d := by
  simp only [decision, bind_ok] at h
  obtain ⟨_, -, h⟩ := h
  cases h
  exact ⟨rfl, rfl, rfl⟩

theorem Loop.censor_of_not_broken {loop : Loop} {openIds : List PyStr} (h : row.broken = false) :
    loop.censor row openIds = loop := by
  rw [Loop.censor, h, if_neg (by simp)]

theorem trackletOutcome_of_matchTracklets {loop loop' : Loop} {openIds : List PyStr}
    {assertionVectors : List EvidenceVector}
    (h : matchTracklets P context loop row openIds assertionVectors = .ok loop') :
    TrackletOutcome P context loop row openIds loop' := by
  rw [matchTracklets, bind_ok] at h
  obtain ⟨vectors, hvecs, h⟩ := h
  cases hbroken : row.broken with
  | true =>
    rw [hbroken, if_pos rfl] at h
    simp only [bind_ok] at h
    obtain ⟨t, ht, d, hd, h⟩ := h
    cases h
    exact .new hvecs (.inl hbroken) ht (decides_of_decision hd)
  | false =>
    rw [hbroken, if_neg (by simp), Loop.censor_of_not_broken hbroken] at h
    cases helig : eligible vectors with
    | nil =>
      simp only [helig, bind_ok] at h
      obtain ⟨t, ht, d, hd, h⟩ := h
      cases h
      have hnew : TrackletOutcome P context loop row openIds _ :=
        .new hvecs (.inr helig) ht (decides_of_decision hd)
      rwa [Loop.censor_of_not_broken hbroken] at hnew
    | cons id ids =>
      cases ids with
      | nil =>
        simp only [helig, bind_ok] at h
        obtain ⟨t, hat, t', ht, h⟩ := h
        split_ifs at h with hconfirmed
        · simp only [bind_ok] at h
          obtain ⟨a, ha, d, hd, h⟩ := h
          cases h
          exact .genesis hvecs hbroken helig hat ht hconfirmed ha
            (decides_of_decision hd)
        · simp only [bind_ok] at h
          obtain ⟨d, hd, h⟩ := h
          cases h
          exact .extend hvecs hbroken helig hat ht hconfirmed (decides_of_decision hd)
      | cons id' ids =>
        simp only [helig, bind_ok] at h
        obtain ⟨d, hd, h⟩ := h
        cases h
        rw [← helig]
        exact .ambiguous hvecs hbroken (decides_of_decision hd)

/-- **A matched row has one of the outcomes.** -/
theorem outcome_of_matchRow {loop loop' : Loop} (h : matchRow P context loop row = .ok loop') :
    Outcome P context loop row loop' := by
  simp only [matchRow, bind_ok] at h
  obtain ⟨scope, hscope, vectors, hvecs, h⟩ := h
  have hev : AssertionEvidence P context loop row vectors := ⟨scope, hscope, hvecs⟩
  cases helig : eligible vectors with
  | nil =>
    rw [helig] at h
    exact .tracklets hscope hev helig (trackletOutcome_of_matchTracklets h)
  | cons id ids =>
    cases ids with
    | nil =>
      simp only [helig, bind_ok] at h
      obtain ⟨d, hd, h⟩ := h
      cases h
      exact .update hev helig (decides_of_decision hd)
    | cons id' ids =>
      simp only [helig, bind_ok] at h
      obtain ⟨d, hd, h⟩ := h
      cases h
      exact .ambiguous hev (decides_of_decision hd)

end OvcReplay.C2p.Rs0
