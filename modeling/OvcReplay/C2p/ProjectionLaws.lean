import OvcReplay.C2p.Projection

/-! # What a snapshot remembers

The events of a projectable stream are folded one after the other. A terminal state of the lifecycle
is never left, but an update still moves the end of the assertion; the ids of genealogy events
gather in the state payload, but an update replaces the payload. -/

namespace OvcReplay.C2p

open List Python

variable (P : Platform)

/-- **A stream with its snapshot.** -/
structure ProjectableStream where
  events : List Event
  snapshot : Snapshot
  projects : projectAssertionStream P events = .ok snapshot

variable {P}

/-! ## One event -/

variable {s s' : AssertionState} {event : Event}

/-- A turn of the loop is the branch of its type, but for the two times it moves on. -/
theorem applyEvent_ok (h : applyEvent P s event = .ok s') :
    ∃ t firstValidTime evaluationCutoff, applyType P s event = .ok t ∧
      s' = { t with firstValidTime := firstValidTime, evaluationCutoff := evaluationCutoff } := by
  unfold applyEvent at h
  obtain ⟨t, ht, h⟩ := bind_ok.mp h
  obtain ⟨firstValidTime, -, h⟩ := bind_ok.mp h
  obtain ⟨evaluationCutoff, -, h⟩ := bind_ok.mp h
  exact ⟨t, firstValidTime, evaluationCutoff, ht, (Except.ok.inj h).symm⟩

/-- What an update writes. -/
theorem applyUpdate_ok (h : applyUpdate P s event = .ok s') :
    s'.lifecycle = s.lifecycle ∧ s'.marketEffectiveEnd = event.marketEffectiveEnd ∧
      ∃ statePayload, dictField P event.payload "state_payload" = .ok statePayload ∧
        s'.statePayload = statePayload.getD s.statePayload := by
  unfold applyUpdate at h
  obtain ⟨_, -, h⟩ := bind_ok.mp h
  obtain ⟨geometry, -, h⟩ := bind_ok.mp h
  obtain ⟨statePayload, hpay, h⟩ := bind_ok.mp h
  obtain ⟨observability, -, h⟩ := bind_ok.mp h
  obtain ⟨evaluation, -, h⟩ := bind_ok.mp h
  cases h
  exact ⟨rfl, rfl, statePayload, hpay, rfl⟩

/-- What censoring leaves alone. -/
theorem applyCensoring_ok (h : applyCensoring P s event = .ok s') :
    s'.lifecycle = s.lifecycle ∧ s'.marketEffectiveEnd = s.marketEffectiveEnd ∧
      s'.statePayload = s.statePayload := by
  unfold applyCensoring at h
  obtain ⟨_, -, h⟩ := bind_ok.mp h
  obtain ⟨evaluation, -, h⟩ := bind_ok.mp h
  cases h
  exact ⟨rfl, rfl, rfl⟩

/-- What a genealogy event writes. -/
theorem applyGenealogy_ok (h : applyGenealogy s event = .ok s') :
    s'.lifecycle = s.lifecycle ∧ s'.marketEffectiveEnd = s.marketEffectiveEnd ∧
      ∃ listed, listedIds (s.statePayload.get? genealogyKey) = .ok listed ∧
        s'.statePayload = s.statePayload.set genealogyKey
          (.ofStrs (sortedSet (listed ++ [event.eventId]))) := by
  unfold applyGenealogy at h
  obtain ⟨listed, hlisted, h⟩ := bind_ok.mp h
  cases h
  exact ⟨rfl, rfl, listed, mapError_ok.mp hlisted, rfl⟩

/-- The terminal state an event of this type reaches. -/
def terminalOf : EventType → Option Lifecycle
  | .retired => some .retired
  | .superseded => some .superseded
  | _ => none

/-- No lifecycle event is legal any more. -/
def Lifecycle.Terminal (l : Lifecycle) : Prop := l = .retired ∨ l = .superseded

/-- What an event does to the lifecycle and to the end of a state. -/
theorem applyEvent_lifecycle (h : applyEvent P s event = .ok s') :
    (∀ l, terminalOf event.eventType = some l →
      s'.lifecycle = l ∧ s'.marketEffectiveEnd = event.marketEffectiveEnd) ∧
    (s.lifecycle.Terminal → s'.lifecycle = s.lifecycle ∧ s'.marketEffectiveEnd =
      if event.eventType = .assertionUpdated then event.marketEffectiveEnd
      else s.marketEffectiveEnd) := by
  obtain ⟨t, _, _, ht, rfl⟩ := applyEvent_ok h
  replace h := ht
  dsimp only
  unfold applyType at h
  cases htype : event.eventType <;> rw [htype] at h <;> dsimp only at h
  case assertionUpdated =>
    obtain ⟨hl, he, -⟩ := applyUpdate_ok h
    exact ⟨by simp [terminalOf], fun _ => ⟨hl, by simpa using he⟩⟩
  case censoredAtRunEnd =>
    obtain ⟨hl, he, -⟩ := applyCensoring_ok h
    exact ⟨by simp [terminalOf], fun _ => ⟨hl, by simpa using he⟩⟩
  case split | merge | recurrenceLinked =>
    obtain ⟨hl, he, -⟩ := applyGenealogy_ok h
    exact ⟨by simp [terminalOf], fun _ => ⟨hl, by simpa using he⟩⟩
  case enterDormant | reappeared =>
    obtain ⟨⟨⟩, hopen, h⟩ := bind_ok.mp h
    cases h
    have hopen := check_ok.mp hopen
    exact ⟨by simp [terminalOf], fun ht => by simp [Lifecycle.Terminal, hopen] at ht⟩
  case retired | superseded =>
    obtain ⟨⟨⟩, hopen, h⟩ := bind_ok.mp h
    cases h
    have hopen := check_ok.mp hopen
    refine ⟨fun l hl => ⟨Option.some.inj hl, rfl⟩, fun ht => ?_⟩
    rcases hopen with hopen | hopen <;> simp [Lifecycle.Terminal, hopen] at ht
  all_goals cases h

/-! ## Runs of events -/

variable {events : List Event}

theorem foldlM_cons_ok : (event :: events).foldlM (applyEvent P) s = .ok s' ↔
      ∃ t, applyEvent P s event = .ok t ∧ events.foldlM (applyEvent P) t = .ok s' := by
  rw [foldlM_cons, bind_ok]

theorem foldlM_append_ok {events later : List Event} :
    (events ++ later).foldlM (applyEvent P) s = .ok s' ↔
      ∃ t, events.foldlM (applyEvent P) s = .ok t ∧ later.foldlM (applyEvent P) t = .ok s' := by
  rw [foldlM_append, bind_ok]

/-- The end that the last update of these events carries, or the one before them. -/
def lastEnd (before : Option PyStr) (events : List Event) : Option PyStr :=
  events.foldl (fun stop event =>
    if event.eventType = .assertionUpdated then event.marketEffectiveEnd else stop) before

/-- **A terminal lifecycle is never left, and only updates move the end.** -/
theorem foldlM_terminal (h : events.foldlM (applyEvent P) s = .ok s')
    (hterm : s.lifecycle.Terminal) :
    s'.lifecycle = s.lifecycle ∧ s'.marketEffectiveEnd = lastEnd s.marketEffectiveEnd events := by
  induction events generalizing s with
  | nil =>
    cases h
    exact ⟨rfl, rfl⟩
  | cons event events ih =>
    obtain ⟨t, ht, h⟩ := foldlM_cons_ok.mp h
    obtain ⟨hl, he⟩ := (applyEvent_lifecycle ht).2 hterm
    obtain ⟨hl', he'⟩ := ih h (hl ▸ hterm)
    refine ⟨hl'.trans hl, he'.trans ?_⟩
    rw [he]
    rfl

variable (stream : ProjectableStream P)

/-- The events of a stream: a genesis, and a run of the others that ends in the snapshot. -/
theorem ProjectableStream.run : ∃ first rest s, sortedEvents stream.events = first :: rest ∧
      first.eventType = .assertionGenesis ∧ genesisState P first = .ok s ∧
      rest.foldlM (applyEvent P) s = .ok stream.snapshot.state := by
  have h := stream.projects
  unfold projectAssertionStream at h
  obtain ⟨ordered, hord, h⟩ := bind_ok.mp h
  have hsort : ordered = sortedEvents stream.events := by
    unfold orderedStream at hord
    dsimp only at hord
    obtain ⟨_, -, hord⟩ := bind_ok.mp hord
    obtain ⟨_, -, hord⟩ := bind_ok.mp hord
    obtain ⟨_, -, hord⟩ := bind_ok.mp hord
    exact (Except.ok.inj hord).symm
  cases ordered with
  | nil => cases h
  | cons first rest =>
    obtain ⟨⟨⟩, hgenesis, h⟩ := bind_ok.mp h
    obtain ⟨_, -, h⟩ := bind_ok.mp h
    obtain ⟨s, hs, h⟩ := bind_ok.mp h
    obtain ⟨s', hs', h⟩ := bind_ok.mp h
    obtain ⟨frontierHash, -, h⟩ := bind_ok.mp h
    obtain ⟨snapshotId, -, h⟩ := bind_ok.mp h
    refine ⟨first, rest, s, hsort.symm, check_ok.mp hgenesis, hs, ?_⟩
    rw [← Except.ok.inj h]
    exact hs'

/-! ## Terminal states -/

/-- **The snapshot has the state and the end that the terminal event recorded.** -/
def TerminalAbsorbing : Prop :=
  ∀ before terminal after l, sortedEvents stream.events = before ++ terminal :: after →
    terminalOf terminal.eventType = some l →
    stream.snapshot.state.lifecycle = l ∧
      stream.snapshot.state.marketEffectiveEnd = terminal.marketEffectiveEnd

/-- The last update behind a terminal event, if there is one, carries its end. -/
def EndKept : Prop :=
  ∀ before terminal after l, sortedEvents stream.events = before ++ terminal :: after →
    terminalOf terminal.eventType = some l →
    ∀ between update later, after = between ++ update :: later →
      update.eventType = .assertionUpdated →
      (∀ event ∈ later, event.eventType ≠ .assertionUpdated) →
      update.marketEffectiveEnd = terminal.marketEffectiveEnd

theorem lastEnd_of_none {stop : Option PyStr}
    (h : ∀ event ∈ events, event.eventType ≠ .assertionUpdated) : lastEnd stop events = stop := by
  induction events generalizing stop with
  | nil => rfl
  | cons event events ih =>
    rw [forall_mem_cons] at h
    rw [lastEnd, foldl_cons, if_neg h.1]
    exact ih h.2

theorem lastEnd_of_last {stop : Option PyStr} {between later : List Event} {update : Event}
    (hupd : update.eventType = .assertionUpdated)
    (h : ∀ event ∈ later, event.eventType ≠ .assertionUpdated) :
    lastEnd stop (between ++ update :: later) = update.marketEffectiveEnd := by
  rw [lastEnd, foldl_append, foldl_cons, if_pos hupd]
  exact lastEnd_of_none h

/-- A list has a last element with a property, or none. -/
theorem exists_last {α : Type} (p : α → Prop) (xs : List α) :
    (∀ x ∈ xs, ¬ p x) ∨ ∃ before x after, xs = before ++ x :: after ∧ p x ∧ ∀ y ∈ after, ¬ p y := by
  induction xs with
  | nil => exact .inl (by simp)
  | cons x xs ih =>
    rcases ih with hnone | ⟨before, y, after, rfl, hy, hafter⟩
    · by_cases hx : p x
      · exact .inr ⟨[], x, xs, rfl, hx, hnone⟩
      · left
        rw [forall_mem_cons]
        exact ⟨hx, hnone⟩
    · exact .inr ⟨x :: before, y, after, rfl, hy, hafter⟩

variable {before after : List Event}

/-- Behind a terminal event the lifecycle stays and the end is that of the last update. -/
theorem snapshot_of_terminal {terminal : Event} {l : Lifecycle}
    (hevs : sortedEvents stream.events = before ++ terminal :: after)
    (hterm : terminalOf terminal.eventType = some l) : stream.snapshot.state.lifecycle = l ∧
      stream.snapshot.state.marketEffectiveEnd = lastEnd terminal.marketEffectiveEnd after := by
  obtain ⟨first, rest, s, hsplit, hgenesis, -, hrun⟩ := stream.run
  rw [hsplit] at hevs
  cases before with
  | nil =>
    obtain ⟨rfl, -⟩ := List.cons.inj hevs
    rw [hgenesis] at hterm
    cases hterm
  | cons first' before =>
    obtain ⟨rfl, rfl⟩ := List.cons.inj hevs
    obtain ⟨t, -, hrun⟩ := foldlM_append_ok.mp hrun
    obtain ⟨u, hu, hrun⟩ := foldlM_cons_ok.mp hrun
    obtain ⟨hl, he⟩ := (applyEvent_lifecycle hu).1 l hterm
    have hstays : u.lifecycle.Terminal := by
      rw [hl]
      unfold terminalOf at hterm
      split at hterm
      · exact .inl (Option.some.inj hterm).symm
      · exact .inr (Option.some.inj hterm).symm
      · cases hterm
    obtain ⟨hl', he'⟩ := foldlM_terminal hrun hstays
    exact ⟨hl'.trans hl, he'.trans (by rw [he])⟩

/-- **Terminal states are absorbing exactly when no update behind one moves the end.** -/
theorem terminalAbsorbing_iff (stream : ProjectableStream P) :
    TerminalAbsorbing stream ↔ EndKept stream := by
  constructor
  · intro h before terminal after l hevs hterm between update later hafter hupd hlater
    have hend := (h before terminal after l hevs hterm).2
    rw [(snapshot_of_terminal stream hevs hterm).2, hafter,
      lastEnd_of_last hupd hlater] at hend
    exact hend
  · intro h before terminal after l hevs hterm
    obtain ⟨hl, he⟩ := snapshot_of_terminal stream hevs hterm
    refine ⟨hl, he.trans ?_⟩
    rcases exists_last (fun event : Event => event.eventType = .assertionUpdated) after with
      hnone | ⟨between, update, later, hafter, hupd, hlater⟩
    · exact lastEnd_of_none hnone
    · rw [hafter, lastEnd_of_last hupd hlater]
      exact h before terminal after l hevs hterm between update later hafter hupd hlater

/-! ## Genealogy -/

/-- The ids of the genealogy events. -/
def genealogyIds (events : List Event) : List PyStr :=
  (events.filter fun event => event.eventType ∈ EventType.genealogy).map Event.eventId

/-- **The snapshot lists the genealogy events of its stream**, when there are some. -/
def GenealogyComplete : Prop :=
  genealogyIds (sortedEvents stream.events) ≠ [] →
    ∃ ids, stream.snapshot.state.statePayload.get? genealogyKey = some (.ofStrs ids) ∧
      ∀ id, id ∈ ids ↔ id ∈ genealogyIds (sortedEvents stream.events)

/-- The event sets the state payload: a genesis, or an update with a payload. -/
def SetsPayload (event : Event) : Prop :=
  event.eventType = .assertionGenesis ∨ (event.eventType = .assertionUpdated ∧
    py "state_payload" ∈ event.payload.keys)

variable (P) in
/-- The genealogy that the state payload of an event carries. -/
def carried (event : Event) : Option PyVal :=
  ((dictField P event.payload "state_payload").toOption.bind id).bind fun payload =>
    payload.get? genealogyKey

/-- The texts that a carried genealogy lists. -/
def listed (v : Option PyVal) : List PyStr := (listedIds v).toOption.getD []

/-- The last event that sets the state payload carries the ids of the genealogy events in front of
it and no text that is not the id of one; as a list of texts, when no genealogy event follows. -/
def GenealogyCarried : Prop :=
  genealogyIds (sortedEvents stream.events) ≠ [] →
    ∀ before setter after, sortedEvents stream.events = before ++ setter :: after →
      SetsPayload setter → (∀ event ∈ after, ¬ SetsPayload event) →
      (∀ id, id ∈ listed (carried P setter) ∨ id ∈ genealogyIds after ↔
        id ∈ genealogyIds before ∨ id ∈ genealogyIds after) ∧
      (genealogyIds after = [] → ∃ ids, carried P setter = some (.ofStrs ids))

theorem genealogyIds_cons (event : Event) (events : List Event) : genealogyIds (event :: events) =
      if event.eventType ∈ EventType.genealogy then event.eventId :: genealogyIds events
      else genealogyIds events := by
  unfold genealogyIds
  by_cases h : event.eventType ∈ EventType.genealogy
  · rw [if_pos h, filter_cons_of_pos (by simpa using h)]
    rfl
  · rw [if_neg h, filter_cons_of_neg (by simpa using h)]

theorem listedIds_ofStrs (ids : List PyStr) : listedIds (some (.ofStrs ids)) = .ok ids := by
  have helems : (ids.map .str).mapM textElement = .ok ids := by
    rw [mapM_map, mapM_ok_iff]
    induction ids with
    | nil => exact .nil
    | cons id ids ih => exact .cons rfl ih
  exact helems

theorem listed_of_ok {v : Option PyVal} {ids : List PyStr} (h : listedIds v = .ok ids) :
    listed v = ids := by
  rw [listed, h]
  rfl

theorem listed_ofStrs (ids : List PyStr) : listed (some (.ofStrs ids)) = ids :=
  listed_of_ok (listedIds_ofStrs ids)

/-- What an event that sets no payload does to the genealogy. -/
theorem applyEvent_genealogy (h : applyEvent P s event = .ok s') (hset : ¬ SetsPayload event) :
    (event.eventType ∉ EventType.genealogy ∧
      s'.statePayload.get? genealogyKey = s.statePayload.get? genealogyKey) ∨
    (event.eventType ∈ EventType.genealogy ∧
      s'.statePayload.get? genealogyKey = some (.ofStrs (sortedSet
        (listed (s.statePayload.get? genealogyKey) ++ [event.eventId])))) := by
  have hgeneal : ∀ {t : AssertionState}, applyGenealogy s event = .ok t →
      t.statePayload.get? genealogyKey = some (.ofStrs (sortedSet
        (listed (s.statePayload.get? genealogyKey) ++ [event.eventId]))) := by
    intro t ht
    obtain ⟨-, -, ids, hids, hpay⟩ := applyGenealogy_ok ht
    rw [hpay, Dict.get?_set_self, listed_of_ok hids]
  obtain ⟨t, _, _, ht, rfl⟩ := applyEvent_ok h
  dsimp only
  unfold applyType at ht
  cases htype : event.eventType <;> rw [htype] at ht <;> dsimp only at ht
  case split | merge | recurrenceLinked => exact .inr ⟨by decide, hgeneal ht⟩
  case assertionUpdated =>
    obtain ⟨-, -, payload, hpay, heq⟩ := applyUpdate_ok ht
    have habsent : event.payload.get? (py "state_payload") = none :=
      Dict.get?_eq_none_iff.mpr fun hmem => hset (.inr ⟨htype, hmem⟩)
    rw [dictField, habsent] at hpay
    cases hpay
    exact .inl ⟨by decide, by rw [heq]; rfl⟩
  case censoredAtRunEnd =>
    obtain ⟨-, -, heq⟩ := applyCensoring_ok ht
    exact .inl ⟨by decide, by rw [heq]⟩
  case enterDormant | reappeared | retired | superseded =>
    obtain ⟨_, -, ht⟩ := bind_ok.mp ht
    cases ht
    exact .inl ⟨by decide, rfl⟩
  all_goals cases ht

/-- **The genealogy gathers the ids of genealogy events** as long as no event sets the payload. -/
theorem foldlM_genealogy (h : events.foldlM (applyEvent P) s = .ok s')
    (hset : ∀ event ∈ events, ¬ SetsPayload event) :
    (genealogyIds events = [] ∧
      s'.statePayload.get? genealogyKey = s.statePayload.get? genealogyKey) ∨
    (genealogyIds events ≠ [] ∧ ∃ ids, s'.statePayload.get? genealogyKey = some (.ofStrs ids) ∧
        ∀ id, id ∈ ids ↔ id ∈ listed (s.statePayload.get? genealogyKey) ∨
          id ∈ genealogyIds events) := by
  induction events generalizing s with
  | nil =>
    cases h
    exact .inl ⟨rfl, rfl⟩
  | cons event events ih =>
    obtain ⟨t, ht, h⟩ := foldlM_cons_ok.mp h
    rw [forall_mem_cons] at hset
    rw [genealogyIds_cons]
    rcases applyEvent_genealogy ht hset.1 with ⟨htype, hsame⟩ | ⟨htype, hadd⟩
    · rw [if_neg htype, ← hsame]
      exact ih h hset.2
    · rw [if_pos htype]
      refine .inr ⟨cons_ne_nil _ _, ?_⟩
      rcases ih h hset.2 with ⟨hnone, hget⟩ | ⟨-, ids, hget, hids⟩
      · refine ⟨_, hget.trans hadd, fun id => ?_⟩
        simp [hnone]
      · refine ⟨ids, hget, fun id => ?_⟩
        rw [hids, hadd, listed_ofStrs]
        simp [or_assoc]

/-- The state behind the last event that sets the payload. -/
theorem exists_state_of_setter {setter : Event}
    (hevs : sortedEvents stream.events = before ++ setter :: after) (hset : SetsPayload setter) :
    ∃ s, s.statePayload.get? genealogyKey = carried P setter ∧
      after.foldlM (applyEvent P) s = .ok stream.snapshot.state := by
  obtain ⟨first, rest, s, hsplit, hgenesis, hs, hrun⟩ := stream.run
  rw [hsplit] at hevs
  cases before with
  | nil =>
    obtain ⟨rfl, rfl⟩ := List.cons.inj hevs
    refine ⟨s, ?_, hrun⟩
    unfold genesisState at hs
    obtain ⟨geometry, -, hs⟩ := bind_ok.mp hs
    obtain ⟨payload, hpay, hs⟩ := bind_ok.mp hs
    obtain ⟨lifecycle, -, hs⟩ := bind_ok.mp hs
    obtain ⟨observability, -, hs⟩ := bind_ok.mp hs
    obtain ⟨evaluation, -, hs⟩ := bind_ok.mp hs
    cases hs
    rw [carried, hpay]
    cases payload <;> rfl
  | cons first' before =>
    obtain ⟨rfl, rfl⟩ := List.cons.inj hevs
    obtain ⟨t, -, hrun⟩ := foldlM_append_ok.mp hrun
    obtain ⟨u, hu, hrun⟩ := foldlM_cons_ok.mp hrun
    refine ⟨u, ?_, hrun⟩
    obtain ⟨v, firstValidTime, evaluationCutoff, hv, rfl⟩ := applyEvent_ok hu
    unfold applyType at hv
    rcases hset with htype | ⟨htype, hmem⟩
    · rw [htype] at hv
      cases hv
    · rw [htype] at hv
      obtain ⟨-, -, payload, hpay, heq⟩ := applyUpdate_ok hv
      obtain ⟨value, hval⟩ := Option.isSome_iff_exists.mp (Dict.isSome_get?_iff.mpr hmem)
      have hpay' := hpay
      rw [dictField, hval, Option.mapM_some] at hpay'
      obtain ⟨d, -, rfl⟩ := map_ok.mp hpay'
      rw [carried, hpay]
      exact congrArg (fun payload => payload.get? genealogyKey) heq

theorem genealogyIds_append (events later : List Event) :
    genealogyIds (events ++ later) = genealogyIds events ++ genealogyIds later := by
  simp [genealogyIds]

theorem genealogyIds_split {setter : Event} (hset : SetsPayload setter) :
    genealogyIds (before ++ setter :: after) = genealogyIds before ++ genealogyIds after := by
  have hnot : setter.eventType ∉ EventType.genealogy := by
    rcases hset with h | ⟨h, -⟩
    · rw [h]
      decide
    · rw [h]
      decide
  rw [genealogyIds_append, genealogyIds_cons, if_neg hnot]

/-- **The genealogy is complete exactly when the last event that sets the payload carries what came
before it.** -/
theorem genealogyComplete_iff (stream : ProjectableStream P) :
    GenealogyComplete stream ↔ GenealogyCarried stream := by
  constructor
  · intro h hids before setter after hevs hset hafter
    obtain ⟨ids, hget, hiff⟩ := h hids
    obtain ⟨s, hs, hrun⟩ := exists_state_of_setter stream hevs hset
    rw [hevs, genealogyIds_split hset] at hiff
    rcases foldlM_genealogy hrun hafter with ⟨hnone, hsame⟩ | ⟨hsome, ids', hget', hiff'⟩
    · rw [← hsame, hget] at hs
      refine ⟨fun id => ?_, fun _ => ⟨ids, hs.symm⟩⟩
      rw [← hs, listed_ofStrs, hnone, hiff id, hnone, append_nil]
    · obtain rfl := PyVal.ofStrs_inj.mp (Option.some.inj (hget.symm.trans hget'))
      refine ⟨fun id => ?_, fun hnone => absurd hnone hsome⟩
      rw [← hs, ← hiff' id, hiff id, mem_append]
  · intro h hids
    obtain ⟨first, rest, -, hsplit, hgenesis, -, -⟩ := stream.run
    rcases exists_last SetsPayload (sortedEvents stream.events) with
      hnone | ⟨before, setter, after, hevs, hset, hafter⟩
    · exact absurd (.inl hgenesis) (hnone first (by simp [hsplit]))
    · obtain ⟨hcarried, hlist⟩ := h hids before setter after hevs hset hafter
      obtain ⟨s, hs, hrun⟩ := exists_state_of_setter stream hevs hset
      rw [hevs, genealogyIds_split hset]
      rcases foldlM_genealogy hrun hafter with ⟨hnone, hsame⟩ | ⟨hsome, ids, hget, hiff⟩
      · obtain ⟨ids, hids'⟩ := hlist hnone
        refine ⟨ids, hsame.trans (hs.trans hids'), fun id => ?_⟩
        have hid := hcarried id
        rw [hids', listed_ofStrs, hnone] at hid
        simpa [hnone] using hid
      · refine ⟨ids, hget, fun id => ?_⟩
        rw [hiff, hs, hcarried, mem_append]

/-! ## Streams that forget -/

/-- The event under its own id. -/
def sealEvent (event : Event) : Event :=
  { event with eventId := (logicalEventId .reference event).toOption.getD [] }

/-- The event behind another. -/
def follow (prior event : Event) : Event :=
  sealEvent { event with
    sequenceNo := prior.sequenceNo + 1
    priorEventHash := (eventRecordHash .reference prior).toOption }

/-- An event of the sample stream. -/
def sampleEvent (type : EventType) (stop : Option PyStr) (payload : Record) : Event where
  schema := py "c2p-event/v0.2"
  eventId := []
  hashVersion := py "sha256-canonical-json-v1"
  streamId := List.replicate 64 (.ofChar 'a')
  sequenceNo := 0
  eventType := type
  objectPackId := py "PACK"
  marketEffectiveStart := py "2026-01-01T00:00:00Z"
  marketEffectiveEnd := stop
  firstValidTime := py "2026-01-01T00:00:00Z"
  evaluationCutoff := py "2026-01-01T00:00:00Z"
  decisionId := some (List.replicate 64 (.ofChar 'b'))
  parentEventIds := []
  sourceHashes := []
  payload := payload
  priorEventHash := none

/-- The genesis of the sample stream. -/
def sampleGenesis : Event :=
  sealEvent (sampleEvent .assertionGenesis none
    [(py "object_assertion_id", .str (List.replicate 64 (.ofChar 'a'))),
      (py "lifecycle_state", .str (py "ACTIVE"))])

/-- The sample assertion is retired. -/
def sampleRetired : Event :=
  follow sampleGenesis (sampleEvent .retired (some (py "2026-01-02T00:00:00Z")) [])

/-- The retired assertion is updated, with no end. -/
def updatedAfterRetired : List Event :=
  [sampleGenesis, sampleRetired, follow sampleRetired (sampleEvent .assertionUpdated none [])]

/-- **An update behind a retirement takes its end back.** -/
theorem updatedAfterRetired_moves :
    ¬ ∀ stream : ProjectableStream .reference, TerminalAbsorbing stream := by
  intro h
  have hrun : (projectAssertionStream .reference updatedAfterRetired).toOption.map
      (fun snapshot => snapshot.state.marketEffectiveEnd) = some none := by
    decide +kernel
  have hsort : sortedEvents updatedAfterRetired = updatedAfterRetired := by
    decide +kernel
  obtain ⟨snapshot, hsnap, hend⟩ := Option.map_eq_some_iff.mp hrun
  have hkept := (h ⟨updatedAfterRetired, snapshot, eq_ok_of_toOption hsnap⟩ [sampleGenesis]
    sampleRetired _ .retired hsort rfl).2
  rw [hend] at hkept
  cases hkept

/-- The sample assertion is split. -/
def sampleSplit : Event := follow sampleGenesis (sampleEvent .split none [])

/-- The split assertion gets a new state payload. -/
def updatedAfterSplit : List Event :=
  [sampleGenesis, sampleSplit,
    follow sampleSplit (sampleEvent .assertionUpdated none [(py "state_payload", .dict [])])]

/-- **A new state payload forgets a split.** -/
theorem updatedAfterSplit_forgets :
    ¬ ∀ stream : ProjectableStream .reference, GenealogyComplete stream := by
  intro h
  have hrun : (projectAssertionStream .reference updatedAfterSplit).toOption.map
      (fun snapshot => snapshot.state.statePayload.get? genealogyKey) = some none := by
    decide +kernel
  have hids : genealogyIds (sortedEvents updatedAfterSplit) ≠ [] := by
    decide +kernel
  obtain ⟨snapshot, hsnap, hnone⟩ := Option.map_eq_some_iff.mp hrun
  obtain ⟨ids, hget, -⟩ :=
    h ⟨updatedAfterSplit, snapshot, eq_ok_of_toOption hsnap⟩ hids
  rw [hnone] at hget
  cases hget

end OvcReplay.C2p
