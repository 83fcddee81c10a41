import OvcReplay.C2p.ProjectionLaws
import OvcReplay.C2p.Tracklets

/-! # The chronology of a snapshot

Every event of a projectable stream is in order in itself. A snapshot takes its start from the last
genesis or update, and its end from the last event that sets one; a terminal event sets the end
only. The snapshot is in order exactly when a terminal event that is not followed by an update does
not end before the start in force. -/

namespace OvcReplay.C2p

open List Python

variable {P : Platform}

/-! ## Causal times -/

/-- **When times are causal**: they are instants, the end is not before the start, and the first
valid time is not after the cutoff. -/
theorem returns_validateCausalTimes {start firstValid cutoff : PyStr} {stop : Option PyStr} :
    Returns (validateCausalTimes P start stop firstValid cutoff) ↔
      Returns (parseUtcZ P start) ∧ (∀ time ∈ stop, NotAfter P start time) ∧
        NotAfter P firstValid cutoff := by
  constructor
  · intro h
    refine ⟨?_, ?_, notAfter_of_validate h⟩
    · obtain ⟨_, h⟩ := h
      obtain ⟨first, hfst, -⟩ := bind_ok.mp h
      exact ⟨first, hfst⟩
    · rintro time rfl
      obtain ⟨_, h⟩ := h
      obtain ⟨first, hfst, h⟩ := bind_ok.mp h
      obtain ⟨last, hlast, h⟩ := bind_ok.mp h
      obtain ⟨_, -, h⟩ := bind_ok.mp h
      obtain ⟨_, -, h⟩ := bind_ok.mp h
      obtain ⟨_, horder, -⟩ := bind_ok.mp h
      rw [Option.mapM_some] at hlast
      obtain ⟨instant, hinst, heq⟩ := bind_ok.mp hlast
      cases heq
      exact ⟨first, instant, hfst, hinst, check_ok.mp horder instant rfl⟩
  · rintro ⟨⟨first, hfst⟩, hstop, fvt, last, hfvt, hlast, horder⟩
    unfold validateCausalTimes
    cases stop with
    | none =>
      refine ⟨(), bind_ok.mpr ⟨first, hfst, bind_ok.mpr ⟨none, rfl, ?_⟩⟩⟩
      refine bind_ok.mpr ⟨fvt, hfvt, bind_ok.mpr ⟨last, hlast, ?_⟩⟩
      exact bind_ok.mpr ⟨(), check_ok.mpr (by simp), check_ok.mpr horder⟩
    | some time =>
      obtain ⟨first', instant, hfst', hinst, hle⟩ := hstop time rfl
      cases hfst.symm.trans hfst'
      refine ⟨(), bind_ok.mpr ⟨first, hfst, bind_ok.mpr ⟨some instant, ?_, ?_⟩⟩⟩
      · rw [Option.mapM_some]
        exact bind_ok.mpr ⟨instant, hinst, rfl⟩
      refine bind_ok.mpr ⟨fvt, hfvt, bind_ok.mpr ⟨last, hlast, ?_⟩⟩
      refine bind_ok.mpr ⟨(), check_ok.mpr ?_, check_ok.mpr horder⟩
      rintro _ ⟨⟩
      exact hle

/-- The times of an event are causal. -/
def Event.Causal (P : Platform) (event : Event) : Prop :=
  Returns (validateCausalTimes P event.marketEffectiveStart event.marketEffectiveEnd
    event.firstValidTime event.evaluationCutoff)

variable {event : Event}

theorem causal_of_validate (h : Returns (validateEventRecord P event)) : event.Causal P := by
  obtain ⟨_, h⟩ := h
  unfold validateEventRecord at h
  iterate 6 obtain ⟨_, -, h⟩ := bind_ok.mp h
  dsimp only at h
  have hchron : ∃ u, checkChronology P event = .ok u := by
    by_cases hpos : 0 < event.sequenceNo
    · rw [if_pos hpos] at h
      iterate 7 obtain ⟨_, -, h⟩ := bind_ok.mp h
      obtain ⟨u, hu, -⟩ := bind_ok.mp h
      exact ⟨u, hu⟩
    · rw [if_neg hpos] at h
      iterate 6 obtain ⟨_, -, h⟩ := bind_ok.mp h
      obtain ⟨u, hu, -⟩ := bind_ok.mp h
      exact ⟨u, hu⟩
  obtain ⟨u, hu⟩ := hchron
  exact ⟨u, mapError_ok.mp hu⟩

variable {events : List Event}

theorem causal_of_checkOrder {expected : Nat} {prior : Option Event}
    (h : Returns (checkOrder P expected prior events)) : ∀ event ∈ events, event.Causal P := by
  induction events generalizing expected prior with
  | nil => simp
  | cons event events ih =>
    obtain ⟨_, h⟩ := h
    obtain ⟨_, hvalid, h⟩ := bind_ok.mp h
    obtain ⟨_, -, h⟩ := bind_ok.mp h
    obtain ⟨_, -, h⟩ := bind_ok.mp h
    obtain ⟨_, -, h⟩ := bind_ok.mp h
    exact forall_mem_cons.mpr ⟨causal_of_validate ⟨_, hvalid⟩, ih ⟨_, h⟩⟩

variable (stream : ProjectableStream P)

/-- **The events of a projectable stream are causal.** -/
theorem ProjectableStream.causal : ∀ event ∈ sortedEvents stream.events, event.Causal P := by
  have h := stream.projects
  unfold projectAssertionStream at h
  obtain ⟨ordered, hord, -⟩ := bind_ok.mp h
  unfold orderedStream at hord
  dsimp only at hord
  obtain ⟨_, -, hord⟩ := bind_ok.mp hord
  obtain ⟨_, -, hord⟩ := bind_ok.mp hord
  obtain ⟨_, horder, -⟩ := bind_ok.mp hord
  exact causal_of_checkOrder ⟨_, horder⟩

/-! ## The interval -/

/-- The event sets the start of the assertion. -/
def SetsStart (event : Event) : Prop :=
  event.eventType = .assertionGenesis ∨ event.eventType = .assertionUpdated

/-- The event sets the end of the assertion, when it is not the first. -/
def MovesEnd (event : Event) : Prop :=
  event.eventType = .assertionUpdated ∨ ∃ l, terminalOf event.eventType = some l

/-- What an event does to the interval. -/
structure MovesInterval (s : AssertionState) (event : Event) (s' : AssertionState) : Prop where
  update : event.eventType = .assertionUpdated →
    s'.marketEffectiveStart = event.marketEffectiveStart ∧
      s'.marketEffectiveEnd = event.marketEffectiveEnd
  start : event.eventType ≠ .assertionUpdated → s'.marketEffectiveStart = s.marketEffectiveStart
  terminal : ∀ l, terminalOf event.eventType = some l →
    s'.marketEffectiveEnd = event.marketEffectiveEnd
  stop : ¬ MovesEnd event → s'.marketEffectiveEnd = s.marketEffectiveEnd
  genesis : event.eventType ≠ .assertionGenesis

variable {s s' : AssertionState}

/-- An event that is no update and no terminal leaves the interval alone. -/
theorem MovesInterval.of_other (hgenesis : event.eventType ≠ .assertionGenesis)
    (hupd : event.eventType ≠ .assertionUpdated) (hterm : terminalOf event.eventType = none)
    (hstart : s'.marketEffectiveStart = s.marketEffectiveStart)
    (hstop : s'.marketEffectiveEnd = s.marketEffectiveEnd) : MovesInterval s event s' where
  update := fun h => absurd h hupd
  start := fun _ => hstart
  terminal := by
    intro l hl
    rw [hterm] at hl
    cases hl
  stop := fun _ => hstop
  genesis := hgenesis

variable {l : Lifecycle}

/-- A terminal event sets the end. -/
theorem MovesInterval.of_terminal (hgenesis : event.eventType ≠ .assertionGenesis)
    (hupd : event.eventType ≠ .assertionUpdated) (hterm : terminalOf event.eventType = some l)
    (hstart : s'.marketEffectiveStart = s.marketEffectiveStart)
    (hstop : s'.marketEffectiveEnd = event.marketEffectiveEnd) : MovesInterval s event s' where
  update := fun h => absurd h hupd
  start := fun _ => hstart
  terminal := fun _ _ => hstop
  stop := fun hnot => absurd (.inr ⟨l, hterm⟩) hnot
  genesis := hgenesis

theorem movesInterval_of_applyType (h : applyType P s event = .ok s') :
    MovesInterval s event s' ∧ s'.firstValidTime = s.firstValidTime ∧
      s'.evaluationCutoff = s.evaluationCutoff := by
  have hgeneal : ∀ {s s' : AssertionState}, applyGenealogy s event = .ok s' →
      s'.marketEffectiveStart = s.marketEffectiveStart ∧
        s'.marketEffectiveEnd = s.marketEffectiveEnd ∧ s'.firstValidTime = s.firstValidTime ∧
        s'.evaluationCutoff = s.evaluationCutoff := by
    intro s s' h
    obtain ⟨_, -, h⟩ := bind_ok.mp h
    cases h
    exact ⟨rfl, rfl, rfl, rfl⟩
  unfold applyType at h
  cases htype : event.eventType <;> rw [htype] at h <;> dsimp only at h
  case assertionUpdated =>
    iterate 5 obtain ⟨_, -, h⟩ := bind_ok.mp h
    cases h
    exact ⟨⟨fun _ => ⟨rfl, rfl⟩, fun hne => absurd htype hne, fun _ _ => rfl,
      fun hnot => absurd (.inl htype) hnot, by simp [htype]⟩, rfl, rfl⟩
  case censoredAtRunEnd =>
    iterate 2 obtain ⟨_, -, h⟩ := bind_ok.mp h
    cases h
    exact ⟨.of_other (by simp [htype]) (by simp [htype]) (by rw [htype]; rfl) rfl rfl, rfl, rfl⟩
  case split | merge | recurrenceLinked =>
    obtain ⟨hstart, hstop, htimes⟩ := hgeneal h
    exact ⟨.of_other (by simp [htype]) (by simp [htype]) (by rw [htype]; rfl) hstart hstop, htimes⟩
  case enterDormant | reappeared =>
    obtain ⟨_, -, h⟩ := bind_ok.mp h
    cases h
    exact ⟨.of_other (by simp [htype]) (by simp [htype]) (by rw [htype]; rfl) rfl rfl, rfl, rfl⟩
  case retired | superseded =>
    obtain ⟨_, -, h⟩ := bind_ok.mp h
    cases h
    exact ⟨.of_terminal (by simp [htype]) (by simp [htype]) (by rw [htype]; rfl) rfl rfl, rfl, rfl⟩
  all_goals cases h

/-- The later of two times is one of them, and neither is after it. -/
theorem laterTime_ok {left right time : PyStr} (h : laterTime P left right = .ok time) :
    (time = left ∨ time = right) ∧ NotAfter P left time ∧ NotAfter P right time := by
  obtain ⟨r, hr, h⟩ := bind_ok.mp h
  obtain ⟨l, hl, h⟩ := bind_ok.mp h
  by_cases hlt : l < r
  · rw [if_pos hlt] at h
    cases h
    exact ⟨.inr rfl, ⟨l, r, hl, hr, hlt.le⟩, ⟨r, r, hr, hr, le_refl r⟩⟩
  · rw [if_neg hlt] at h
    cases h
    exact ⟨.inl rfl, ⟨l, l, hl, hl, le_refl l⟩, ⟨r, l, hr, hl, not_lt.mp hlt⟩⟩

/-- **One event** moves the interval by its type, and keeps the first valid time by the cutoff. -/
theorem movesInterval_of_applyEvent (h : applyEvent P s event = .ok s') : MovesInterval s event s' ∧
      (event.Causal P → NotAfter P s.firstValidTime s.evaluationCutoff →
        NotAfter P s'.firstValidTime s'.evaluationCutoff) := by
  obtain ⟨t, ht, h⟩ := bind_ok.mp h
  obtain ⟨firstValid, hfirstValid, h⟩ := bind_ok.mp h
  obtain ⟨cutoff, hcut, h⟩ := bind_ok.mp h
  cases h
  obtain ⟨hmoves, htimes⟩ := movesInterval_of_applyType ht
  refine ⟨⟨hmoves.update, hmoves.start, hmoves.terminal, hmoves.stop, hmoves.genesis⟩,
    fun hcausal horder => ?_⟩
  obtain ⟨hchoice, -, -⟩ := laterTime_ok hfirstValid
  obtain ⟨-, hleft, hright⟩ := laterTime_ok hcut
  rcases hchoice with rfl | rfl
  · rw [htimes.1]
    rw [htimes.2] at hleft
    exact horder.trans hleft
  · exact (notAfter_of_validate hcausal).trans hright

/-! ## Runs of events -/

/-- Events that do not move the end leave the interval alone. -/
theorem interval_of_none (h : events.foldlM (applyEvent P) s = .ok s')
    (hnone : ∀ event ∈ events, ¬ MovesEnd event) :
    s'.marketEffectiveStart = s.marketEffectiveStart ∧
      s'.marketEffectiveEnd = s.marketEffectiveEnd := by
  induction events generalizing s with
  | nil =>
    cases h
    exact ⟨rfl, rfl⟩
  | cons event events ih =>
    obtain ⟨t, ht, h⟩ := foldlM_cons_ok.mp h
    rw [forall_mem_cons] at hnone
    obtain ⟨hstart, hstop⟩ := ih h hnone.2
    have hmoves := (movesInterval_of_applyEvent ht).1
    exact ⟨hstart.trans (hmoves.start fun heq => hnone.1 (.inl heq)),
      hstop.trans (hmoves.stop hnone.1)⟩

/-- Events that are no updates leave the start alone. -/
theorem start_of_none (h : events.foldlM (applyEvent P) s = .ok s')
    (hnone : ∀ event ∈ events, ¬ SetsStart event) :
    s'.marketEffectiveStart = s.marketEffectiveStart := by
  induction events generalizing s with
  | nil =>
    cases h
    rfl
  | cons event events ih =>
    obtain ⟨t, ht, h⟩ := foldlM_cons_ok.mp h
    rw [forall_mem_cons] at hnone
    have hmoves := (movesInterval_of_applyEvent ht).1
    exact (ih h hnone.2).trans (hmoves.start fun heq => hnone.1 (.inr heq))

/-- The first valid time stays by the cutoff. -/
theorem notAfter_of_run (h : events.foldlM (applyEvent P) s = .ok s')
    (hcausal : ∀ event ∈ events, event.Causal P)
    (horder : NotAfter P s.firstValidTime s.evaluationCutoff) :
    NotAfter P s'.firstValidTime s'.evaluationCutoff := by
  induction events generalizing s with
  | nil =>
    cases h
    exact horder
  | cons event events ih =>
    obtain ⟨t, ht, h⟩ := foldlM_cons_ok.mp h
    rw [forall_mem_cons] at hcausal
    exact ih h hcausal.2 ((movesInterval_of_applyEvent ht).2 hcausal.1 horder)

/-- Behind the start in force, a terminal event that nothing follows sets the end. -/
theorem interval_of_terminal {between after : List Event} {terminal : Event}
    (h : (between ++ terminal :: after).foldlM (applyEvent P) s = .ok s')
    (hbetween : ∀ event ∈ between, ¬ SetsStart event)
    (hterm : terminalOf terminal.eventType = some l) (hafter : ∀ event ∈ after, ¬ MovesEnd event) :
    s'.marketEffectiveStart = s.marketEffectiveStart ∧
      s'.marketEffectiveEnd = terminal.marketEffectiveEnd := by
  obtain ⟨t, ht, h⟩ := foldlM_append_ok.mp h
  obtain ⟨u, hu, h⟩ := foldlM_cons_ok.mp h
  have hmoves := (movesInterval_of_applyEvent hu).1
  obtain ⟨hstart, hstop⟩ := interval_of_none h hafter
  have hupd : terminal.eventType ≠ .assertionUpdated := by
    intro heq
    rw [heq] at hterm
    cases hterm
  exact ⟨(hstart.trans (hmoves.start hupd)).trans (start_of_none ht hbetween),
    hstop.trans (hmoves.terminal l hterm)⟩

/-! ## Snapshots -/

/-- **The times of the snapshot are causal.** -/
def SnapshotCausal : Prop :=
  Returns (validateCausalTimes P stream.snapshot.state.marketEffectiveStart
    stream.snapshot.state.marketEffectiveEnd stream.snapshot.state.firstValidTime
    stream.snapshot.state.evaluationCutoff)

/-- A terminal event that no update or terminal event follows does not end before the start of the
last genesis or update before it. -/
def EndsInOrder : Prop :=
  ∀ before setter between terminal after,
    sortedEvents stream.events = before ++ setter :: (between ++ terminal :: after) →
    SetsStart setter → (∀ event ∈ between, ¬ SetsStart event) →
    (∃ l, terminalOf terminal.eventType = some l) → (∀ event ∈ after, ¬ MovesEnd event) →
    ∀ stop ∈ terminal.marketEffectiveEnd, NotAfter P setter.marketEffectiveStart stop

/-- The times of the state that a genesis sets. -/
theorem genesisState_times {s : AssertionState} {first : Event} (h : genesisState P first = .ok s) :
    s.marketEffectiveStart = first.marketEffectiveStart ∧
      s.marketEffectiveEnd = first.marketEffectiveEnd ∧
      s.firstValidTime = first.firstValidTime ∧ s.evaluationCutoff = first.evaluationCutoff := by
  iterate 5 obtain ⟨_, -, h⟩ := bind_ok.mp h
  cases h
  exact ⟨rfl, rfl, rfl, rfl⟩

/-- The interval of a snapshot whose last event that sets the end is a terminal one. -/
theorem interval_of_split {before between after : List Event} {setter terminal : Event}
    (hevs : sortedEvents stream.events = before ++ setter :: (between ++ terminal :: after))
    (hsetter : SetsStart setter) (hbetween : ∀ event ∈ between, ¬ SetsStart event)
    (hterm : terminalOf terminal.eventType = some l) (hafter : ∀ event ∈ after, ¬ MovesEnd event) :
    stream.snapshot.state.marketEffectiveStart = setter.marketEffectiveStart ∧
      stream.snapshot.state.marketEffectiveEnd = terminal.marketEffectiveEnd := by
  obtain ⟨first, rest, s, hsplit, -, hgenesis, hrun⟩ := stream.run
  rw [hsplit] at hevs
  cases before with
  | nil =>
    obtain ⟨rfl, rfl⟩ := List.cons.inj hevs
    obtain ⟨hstart, hstop⟩ := interval_of_terminal hrun hbetween hterm hafter
    exact ⟨hstart.trans (genesisState_times hgenesis).1, hstop⟩
  | cons first' before =>
    obtain ⟨rfl, rfl⟩ := List.cons.inj hevs
    obtain ⟨t, -, hrun⟩ := foldlM_append_ok.mp hrun
    obtain ⟨u, hu, hrun⟩ := foldlM_cons_ok.mp hrun
    obtain ⟨hstart, hstop⟩ := interval_of_terminal hrun hbetween hterm hafter
    have hmoves := (movesInterval_of_applyEvent hu).1
    have hupd := hsetter.resolve_left hmoves.genesis
    exact ⟨hstart.trans (hmoves.update hupd).1, hstop⟩

/-- **A snapshot is causal exactly when its terminal event does not end before the start in
force.** -/
theorem snapshotCausal_iff (stream : ProjectableStream P) :
    SnapshotCausal stream ↔ EndsInOrder stream := by
  constructor
  · intro h before setter between terminal after hevs hset hbetween hterm hafter stop hstop
    obtain ⟨l, hl⟩ := hterm
    obtain ⟨hstart, hend⟩ := interval_of_split stream hevs hset hbetween hl hafter
    have horder := (returns_validateCausalTimes.mp h).2.1
    rw [hstart, hend] at horder
    exact horder stop hstop
  · intro h
    obtain ⟨first, rest, s, hsplit, hfst, hgenesis, hrun⟩ := stream.run
    have hcausal := stream.causal
    rw [hsplit, forall_mem_cons] at hcausal
    obtain ⟨hstart, hstop, hvalid, hcut⟩ := genesisState_times hgenesis
    have horder : NotAfter P stream.snapshot.state.firstValidTime
        stream.snapshot.state.evaluationCutoff := by
      refine notAfter_of_run hrun hcausal.2 ?_
      rw [hvalid, hcut]
      exact notAfter_of_validate hcausal.1
    have hintv : ∀ {start : PyStr} {stop : Option PyStr} {event : Event}, event.Causal P →
        start = event.marketEffectiveStart → stop = event.marketEffectiveEnd →
        Returns (parseUtcZ P start) ∧ ∀ time ∈ stop, NotAfter P start time := by
      rintro _ _ event hev rfl rfl
      obtain ⟨hparse, hend, -⟩ := returns_validateCausalTimes.mp hev
      exact ⟨hparse, hend⟩
    suffices hsnap : Returns (parseUtcZ P stream.snapshot.state.marketEffectiveStart) ∧
        ∀ time ∈ stream.snapshot.state.marketEffectiveEnd,
          NotAfter P stream.snapshot.state.marketEffectiveStart time from
      returns_validateCausalTimes.mpr ⟨hsnap.1, hsnap.2, horder⟩
    -- the last event that sets the end, if the genesis is not the only one
    rcases exists_last MovesEnd rest with hnone | ⟨early, last, late, rfl, hmoves, hlate⟩
    · obtain ⟨hstart', hstop'⟩ := interval_of_none hrun hnone
      exact hintv hcausal.1 (hstart'.trans hstart) (hstop'.trans hstop)
    · have hlast : last.Causal P := hcausal.2 last (by simp)
      rcases hmoves with hupd | ⟨l, hterm⟩
      · obtain ⟨t, -, hrun⟩ := foldlM_append_ok.mp hrun
        obtain ⟨u, hu, hrun⟩ := foldlM_cons_ok.mp hrun
        obtain ⟨hstart', hstop'⟩ := interval_of_none hrun hlate
        obtain ⟨hstart'', hstop''⟩ := (movesInterval_of_applyEvent hu).1.update hupd
        exact hintv hlast (hstart'.trans hstart'') (hstop'.trans hstop'')
      · rcases exists_last SetsStart (first :: early) with
          hnone | ⟨before, setter, between, hsetters, hsetter, hbetween⟩
        · exact absurd (.inl hfst) (hnone first (by simp))
        · have hevs : sortedEvents stream.events =
              before ++ setter :: (between ++ last :: late) := by
            rw [hsplit, ← cons_append, hsetters, append_assoc, cons_append]
          obtain ⟨hstart', hstop'⟩ :=
            interval_of_split stream hevs hsetter hbetween hterm hlate
          have hsetterCausal : setter.Causal P :=
            stream.causal setter (by rw [hevs]; simp)
          rw [hstart', hstop']
          exact ⟨(returns_validateCausalTimes.mp hsetterCausal).1,
            h before setter between last late hevs hsetter hbetween ⟨l, hterm⟩ hlate⟩

/-! ## A retirement that ends before the start -/

/-- The sample assertion starts on the third of January. -/
def lateGenesis : Event :=
  sealEvent { sampleGenesis with marketEffectiveStart := py "2026-01-03T00:00:00Z" }

/-- It is retired on the second. -/
def retiredEarly : List Event :=
  [lateGenesis, follow lateGenesis (sampleEvent .retired (some (py "2026-01-02T00:00:00Z")) [])]

/-- **A retirement ends a snapshot before its start.** -/
theorem retiredEarly_not_causal :
    ¬ ∀ stream : ProjectableStream .reference, SnapshotCausal stream := by
  intro h
  have hrun : (projectAssertionStream .reference retiredEarly).toOption.map
      (fun snapshot => (snapshot.state.marketEffectiveStart, snapshot.state.marketEffectiveEnd)) =
        some (py "2026-01-03T00:00:00Z", some (py "2026-01-02T00:00:00Z")) := by
    decide +kernel
  have hchecked : ¬ Returns (do
      let start ← parseUtcZ .reference (py "2026-01-03T00:00:00Z")
      let stop ← parseUtcZ .reference (py "2026-01-02T00:00:00Z")
      check (start ≤ stop) (.chronology [])) := by
    decide +kernel
  obtain ⟨snapshot, hsnap, htimes⟩ := Option.map_eq_some_iff.mp hrun
  obtain ⟨hstart, hstop⟩ := Prod.mk.inj htimes
  have hcausal := h ⟨retiredEarly, snapshot, eq_ok_of_toOption hsnap⟩
  have horder := (returns_validateCausalTimes.mp hcausal).2.1
  rw [hstart, hstop] at horder
  obtain ⟨start, stop, hparse, hparse', hle⟩ := horder _ rfl
  exact hchecked ⟨(), bind_intro hparse (bind_ok.mpr
    ⟨stop, hparse', check_ok.mpr hle⟩)⟩

end OvcReplay.C2p
