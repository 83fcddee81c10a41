import OvcReplay.C2Vnext.Levels

/-! # When an invalidated level stays unavailable

The projection lets the last event that sets a state decide, and the selector admits superseded
levels: a level whose source was invalidated, or that was retired for the consumer, is withheld as
long as no later supersession overwrites its state. -/

namespace OvcReplay.C2Vnext

open List Python

namespace Level

variable (P : Platform)

variable (consumerId : Option PyStr)

/-- The event invalidates the level, or retires it for the consumer. -/
def LifecycleEvent.Breaks (e : LifecycleEvent) : Prop :=
  e.eventType = .invalidatedSource ∨
    (e.eventType = .retiredForConsumer ∧ e.consumerId = consumerId)

/-- The event makes the level stale for the consumer. -/
def LifecycleEvent.Ages (e : LifecycleEvent) : Prop :=
  e.eventType = .staleForConsumer ∧ e.consumerId = consumerId

variable (events : List LifecycleEvent)

/-- Some event breaks the level and no supersession follows it. -/
def EndsBroken : Prop :=
  ∃ pre e post, events = pre ++ e :: post ∧ e.Breaks consumerId ∧
    ∀ s ∈ post, s.eventType ≠ .superseded

/-! ## The loop over the events -/

theorem not_endsBroken_nil : ¬ EndsBroken consumerId [] := by
  rintro ⟨pre, e, post, h, -⟩
  simp at h

/-- The last event breaks the level, or it is no supersession and the level was broken before. -/
theorem endsBroken_append_singleton {consumerId : Option PyStr} {events : List LifecycleEvent}
    {e : LifecycleEvent} :
    EndsBroken consumerId (events ++ [e]) ↔
      e.Breaks consumerId ∨ (e.eventType ≠ .superseded ∧ EndsBroken consumerId events) := by
  constructor
  · rintro ⟨pre, b, post, heq, hb, hpost⟩
    rcases eq_nil_or_concat post with rfl | ⟨post, last, rfl⟩
    · obtain ⟨-, hlast⟩ := append_inj' heq rfl
      obtain rfl : e = b := by simpa using hlast
      exact .inl hb
    · have heq' : events ++ [e] = pre ++ b :: post ++ [last] := by simpa using heq
      obtain ⟨rfl, hlast⟩ := append_inj' heq' rfl
      obtain rfl : e = last := by simpa using hlast
      exact .inr ⟨hpost e (by simp), pre, b, post, rfl, hb, fun s hs => hpost s (by simp [hs])⟩
  · rintro (hb | ⟨hne, pre, b, post, rfl, hb, hpost⟩)
    · exact ⟨events, e, [], rfl, hb, by simp⟩
    · refine ⟨pre, b, post ++ [e], by simp, hb, ?_⟩
      intro s hs
      rcases mem_append.mp hs with hs | hs
      · exact hpost s hs
      · obtain rfl := mem_singleton.mp hs
        exact hne

/-- One event: the state is admitted by the selector iff the event supersedes the level, or it does
not break it and the state was admitted before. -/
theorem state_apply_mem {consumerId : Option PyStr} {status : Status} {e : LifecycleEvent} :
    (status.apply consumerId e).state ∈ [State.available, State.superseded] ↔
      ¬ e.Breaks consumerId ∧ (e.eventType = .superseded ∨
        status.state ∈ [State.available, State.superseded]) := by
  cases htype : e.eventType <;> by_cases hc : e.consumerId = consumerId <;>
    simp [Status.apply, LifecycleEvent.Breaks, htype, hc]

/-- **The selector admits the state of a level iff no event broke it for good.** -/
theorem state_foldl_mem {consumerId : Option PyStr} :
    (events.foldl (Status.apply consumerId) .init).state ∈ [State.available, State.superseded] ↔
      ¬ EndsBroken consumerId events := by
  induction events using reverseRecOn with
  | nil => exact iff_of_true (by simp [Status.init]) (not_endsBroken_nil consumerId)
  | append_singleton events e ih =>
    rw [foldl_append, foldl_cons, foldl_nil, state_apply_mem, ih,
      endsBroken_append_singleton]
    have hexclusive : e.eventType = .superseded → ¬ e.Breaks consumerId := by
      intro h
      simp [LifecycleEvent.Breaks, h]
    tauto

/-- The level is stale iff some event made it so for the consumer. -/
theorem stale_foldl {consumerId : Option PyStr} :
    (events.foldl (Status.apply consumerId) .init).stale = true ↔
      ∃ e ∈ events, e.Ages consumerId := by
  induction events using reverseRecOn with
  | nil => simp [Status.init]
  | append_singleton events e ih =>
    rw [foldl_append, foldl_cons, foldl_nil]
    generalize events.foldl (Status.apply consumerId) .init = status at ih
    cases htype : e.eventType <;> by_cases hc : e.consumerId = consumerId <;>
      simp [Status.apply, LifecycleEvent.Ages, htype, hc, ih, or_and_right, exists_or]

/-! ## The projection -/

/-- The event is at or before the instant. -/
def reachedBy (asOf : Instant) (e : LifecycleEvent) : Bool :=
  (parse P e.eventTime).toOption.any fun t => decide (t ≤ asOf)

/-- The events of a level at or before an instant, in the order the projection applies them. -/
def history (asOf : Instant) (events : List LifecycleEvent) (levelId : PyStr) :
    List LifecycleEvent :=
  eventsOf (events.filter (reachedBy P asOf)) levelId

theorem eventsUpTo_ok {asOf : Instant} {events upTo : List LifecycleEvent}
    (h : eventsUpTo P asOf events = .ok upTo) : upTo = events.filter (reachedBy P asOf) := by
  simp only [eventsUpTo, bind_ok, pure_ok] at h
  obtain ⟨times, htimes, rfl⟩ := h
  exact map_fst_filter_zip htimes fun t => decide (t ≤ asOf)

/-- The level is valid at the instant. -/
def ValidAt (asOf : Instant) (level : Level) : Prop :=
  ∃ t, parse P level.firstValidTime = .ok t ∧ t ≤ asOf

theorem validAt_iff {asOf : Instant} {level : Level} :
    ((parse P level.firstValidTime).toOption.any fun t => decide (t ≤ asOf)) = true ↔
      ValidAt P asOf level := by
  cases h : parse P level.firstValidTime <;> simp [ValidAt, h, Except.toOption]

/-- **The projection holds the levels that are valid, each with the status of its history.** -/
theorem mem_projectLifecycle {levels : List Level} {events : List LifecycleEvent}
    {asOfTime : PyStr} {consumerId : Option PyStr} {projection : List Projected} {asOf : Instant}
    (hasOf : parse P asOfTime = .ok asOf)
    (h : projectLifecycle P levels events asOfTime consumerId = .ok projection) {item : Projected} :
    item ∈ projection ↔ ∃ level ∈ levels, ValidAt P asOf level ∧
      projected P (events.filter (reachedBy P asOf)) asOf consumerId level = item := by
  simp only [projectLifecycle, bind_ok, hasOf, Except.ok.injEq, exists_eq_left', pure,
    Except.pure] at h
  obtain ⟨upTo, hupTo, times, htimes, rfl⟩ := h
  obtain rfl := eventsUpTo_ok P hupTo
  rw [mem_sortedBy, map_fst_filter_zip htimes fun t => decide (t ≤ asOf), mem_map]
  simp only [mem_filter, validAt_iff, and_assoc]

/-! ## The selector -/

/-- The selector may list the level: family and type are allowed and the level is valid. -/
def Admitted (allowedFamilies allowedTypes : List PyStr) (asOf : Instant) (level : Level) : Prop :=
  level.family ∈ listOr allowedFamilies families ∧ level.levelType ∈ listOr allowedTypes types ∧
    ValidAt P asOf level

section Selector

variable {levels : List Level} {events : List LifecycleEvent} {asOfTime selectorId : PyStr}
  {consumerId : Option PyStr} {allowedFamilies allowedTypes : List PyStr}
  {projection : List Projected} {selection : Selection} {asOf : Instant}

/-- A level is not excluded iff it is admitted, not broken for good and not stale. -/
theorem exclusion_eq_none_iff (hasOf : parse P asOfTime = .ok asOf)
    (hproj : projectLifecycle P levels events asOfTime consumerId = .ok projection) {level : Level}
    (hlevel : level ∈ levels) :
    exclusion P (listOr allowedFamilies families) (listOr allowedTypes types) asOf
        (Dict.ofItems (projection.map fun item => (item.levelId, item))) level = .ok none ↔
      Admitted P allowedFamilies allowedTypes asOf level ∧
        ¬ EndsBroken consumerId (history P asOf events level.levelId) ∧
        ¬ ∃ e ∈ history P asOf events level.levelId, e.Ages consumerId := by
  unfold exclusion Admitted
  by_cases hfam : level.family ∈ listOr allowedFamilies families
  swap
  · simp [hfam]
  by_cases htype : level.levelType ∈ listOr allowedTypes types
  swap
  · simp [hfam, htype]
  simp only [hfam, htype, not_true_eq_false, if_false, true_and]
  cases htime : parse P level.firstValidTime with
  | error e => simp [ValidAt, htime, bind, Except.bind]
  | ok t =>
    have hvalid : ValidAt P asOf level ↔ ¬ asOf < t := by simp [ValidAt, htime]
    rw [hvalid]
    by_cases hlt : asOf < t
    · simp [hlt, bind, Except.bind, pure, Except.pure]
    · -- the level is projected, and every item of its id has its status
      have hitem := (mem_projectLifecycle P hasOf hproj).mpr
        ⟨level, hlevel, hvalid.mpr hlt, rfl⟩
      cases hget : Dict.get? (Dict.ofItems (projection.map fun item => (item.levelId, item)))
          level.levelId with
      | none =>
        refine absurd ?_ (Dict.get?_ofItems_eq_none_iff.mp hget)
        rw [map_map]
        exact mem_map_of_mem hitem
      | some item =>
        obtain ⟨item', hmem', heq⟩ := mem_map.mp (Dict.mem_of_get?_ofItems hget)
        obtain ⟨hid, rfl⟩ := Prod.mk.inj heq
        obtain ⟨level', -, -, hlevel'⟩ := (mem_projectLifecycle P hasOf hproj).mp hmem'
        have hid' : level'.levelId = level.levelId := by rw [← hid, ← hlevel']; rfl
        have hst : item'.state =
            ((history P asOf events level.levelId).foldl (Status.apply consumerId) .init).state := by
          rw [← hlevel', ← hid']
          rfl
        have hstale : item'.staleForConsumer =
            ((history P asOf events level.levelId).foldl (Status.apply consumerId) .init).stale := by
          rw [← hlevel', ← hid']
          rfl
        rw [← state_foldl_mem, ← stale_foldl, ← hst, ← hstale]
        simp only [hlt, bind, Except.bind, pure, Except.pure, if_false]
        by_cases hadm : item'.state ∈ [State.available, State.superseded]
        · cases item'.staleForConsumer <;> simp [hadm]
        · simp [hadm]

/-- The ties are eligible. -/
theorem mem_of_mem_tiesOf {eligible : List Level} {times : List Instant} {id : PyStr}
    (h : id ∈ tiesOf eligible times) : id ∈ eligible.map (·.levelId) := by
  unfold tiesOf at h
  split at h
  · simp at h
  · rw [mem_sortedBy] at h
    obtain ⟨p, hp, rfl⟩ := mem_map.mp h
    exact mem_map_of_mem (of_mem_zip (mem_filter.mp hp).1).1

/-- **The levels a selector lists and may select.** -/
theorem evaluateSelector_eligible (hasOf : parse P asOfTime = .ok asOf)
    (hsel : evaluateSelector P levels selectorId asOfTime allowedFamilies allowedTypes projection =
      .ok selection) :
    (∀ id, id ∈ selection.eligibleIds ↔ ∃ level ∈ levels, level.levelId = id ∧
      exclusion P (listOr allowedFamilies families) (listOr allowedTypes types) asOf
        (Dict.ofItems (projection.map fun item => (item.levelId, item))) level = .ok none) ∧
      ∀ id, selection.selectedLevelId = some id → id ∈ selection.eligibleIds := by
  simp only [evaluateSelector, bind_ok, hasOf, Except.ok.injEq, exists_eq_left', pure,
    Except.pure] at hsel
  obtain ⟨-, -, reasons, hreasons, times, -, resultId, -, rfl⟩ := hsel
  have helig := map_fst_filter_zip hreasons Option.isNone
  refine ⟨fun id => ?_, fun id hid => ?_⟩
  · rw [mem_sortedBy, helig, mem_map]
    simp only [mem_filter]
    constructor
    · rintro ⟨level, ⟨hlevel, hnone⟩, rfl⟩
      refine ⟨level, hlevel, rfl, ?_⟩
      obtain ⟨reason, -, hreason⟩ := mem_of_mapM_left hreasons hlevel
      rw [hreason] at hnone ⊢
      simp only [Except.toOption, Option.any_some, Option.isNone_iff_eq_none] at hnone
      rw [hnone]
    · rintro ⟨level, hlevel, rfl, hnone⟩
      exact ⟨level, ⟨hlevel, by rw [hnone]; rfl⟩, rfl⟩
  · rw [mem_sortedBy]
    refine mem_of_mem_tiesOf (show id ∈ tiesOf _ times from ?_)
    generalize tiesOf _ times = ties at hid ⊢
    cases ties with
    | nil => cases hid
    | cons levelId rest =>
      cases rest with
      | nil =>
        cases hid
        exact mem_singleton_self _
      | cons => cases hid

/-- **When an invalidated level is withheld**: an event that invalidates the level, or retires it
for the consumer, keeps it from the eligible and from the selected levels iff no level of this id is
admitted, or the level is stale for the consumer, or such an event is followed by no supersession in
the order of the projection. -/
theorem invalidation_sticky_iff (hasOf : parse P asOfTime = .ok asOf)
    (hproj : projectLifecycle P levels events asOfTime consumerId = .ok projection)
    (hsel : evaluateSelector P levels selectorId asOfTime allowedFamilies allowedTypes projection =
      .ok selection) (id : PyStr) :
    ((∃ e ∈ events, e.levelId = id ∧ reachedBy P asOf e = true ∧ e.Breaks consumerId) →
        id ∉ selection.eligibleIds ∧ selection.selectedLevelId ≠ some id) ↔
      ((∃ e ∈ events, e.levelId = id ∧ reachedBy P asOf e = true ∧ e.Breaks consumerId) →
        (∀ level ∈ levels, level.levelId = id →
          ¬ Admitted P allowedFamilies allowedTypes asOf level) ∨
        (∃ e ∈ history P asOf events id, e.Ages consumerId) ∨
        EndsBroken consumerId (history P asOf events id)) := by
  obtain ⟨hmem, hselected⟩ := evaluateSelector_eligible P hasOf hsel
  refine imp_congr_right fun _ => ?_
  have helig : (id ∉ selection.eligibleIds ∧ selection.selectedLevelId ≠ some id) ↔
      id ∉ selection.eligibleIds :=
    and_iff_left_of_imp fun h hsome => h (hselected id hsome)
  rw [helig, hmem]
  constructor
  · intro hnot
    by_contra hcond
    simp only [not_or, not_forall, not_not] at hcond
    obtain ⟨⟨level, hlevel, rfl, hadm⟩, hstale, hbroken⟩ := hcond
    exact hnot ⟨level, hlevel, rfl,
      (exclusion_eq_none_iff P hasOf hproj hlevel).mpr ⟨hadm, hbroken, hstale⟩⟩
  · rintro hcond ⟨level, hlevel, rfl, hnone⟩
    obtain ⟨hadm, hbroken, hstale⟩ := (exclusion_eq_none_iff P hasOf hproj hlevel).mp hnone
    rcases hcond with hcond | hcond | hcond
    · exact hcond level hlevel rfl hadm
    · exact hstale hcond
    · exact hbroken hcond

end Selector

/-! ## Concrete histories -/

/-- A pivot that is valid from one o'clock. -/
def sample : Level :=
  { levelId := py "L", family := py "CONFIRMED_PIVOT", levelType := py "CONFIRMED_SWING_HIGH"
    firstValidTime := py "2026-01-05T01:00:00Z" }

/-- An event of the pivot. -/
def sampleEvent (id : String) (eventType : EventType) (time : String) : LifecycleEvent :=
  { lifecycleEventId := py id, levelId := py "L", eventType, eventTime := py time
    consumerId := none, supersedingLevelId := some (py "M") }

/-- The pivot is invalidated at two and superseded at three o'clock. -/
def sampleEvents : List LifecycleEvent :=
  [sampleEvent "E1" .invalidatedSource "2026-01-05T02:00:00Z",
    sampleEvent "E2" .superseded "2026-01-05T03:00:00Z"]

/-- The projection of the pivot at four o'clock and the selection from it. -/
def sampleRun (events : List LifecycleEvent) : Except Error Selection := do
  let projection ← projectLifecycle .reference [sample] events (py "2026-01-05T04:00:00Z") none
  evaluateSelector .reference [sample] (py "SELECTOR.C2.LEVEL.X") (py "2026-01-05T04:00:00Z") [] []
    projection

/-- An invalidated level that is superseded later is selected. -/
theorem invalidation_overwritten : ¬ ∀ (P : Platform) (levels : List Level)
    (events : List LifecycleEvent) (asOfTime selectorId : PyStr) (consumerId : Option PyStr)
    (allowedFamilies allowedTypes : List PyStr) (projection : List Projected)
    (selection : Selection) (asOf : Instant), parse P asOfTime = .ok asOf →
    projectLifecycle P levels events asOfTime consumerId = .ok projection →
    evaluateSelector P levels selectorId asOfTime allowedFamilies allowedTypes projection =
      .ok selection → ∀ id,
    (∃ e ∈ events, e.levelId = id ∧ reachedBy P asOf e = true ∧ e.Breaks consumerId) →
      id ∉ selection.eligibleIds ∧ selection.selectedLevelId ≠ some id := by
  intro H
  have hasOf : ∃ asOf, parse .reference (py "2026-01-05T04:00:00Z") = .ok asOf ∧
      reachedBy .reference asOf (sampleEvent "E1" .invalidatedSource "2026-01-05T02:00:00Z") =
        true := ⟨_, rfl, by decide +kernel⟩
  obtain ⟨asOf, hparse, hreached⟩ := hasOf
  have hselected : (sampleRun sampleEvents).toOption.any
      (fun selection => decide (selection.selectedLevelId = some (py "L"))) = true := by
    decide +kernel
  cases hrun : sampleRun sampleEvents with
  | error e =>
    rw [hrun] at hselected
    simp [Except.toOption] at hselected
  | ok selection =>
    rw [hrun] at hselected
    obtain ⟨projection, hproj, hsel⟩ := bind_ok.mp hrun
    have h := H .reference _ _ _ _ _ _ _ _ _ asOf hparse hproj hsel (py "L")
      ⟨_, by simp [sampleEvents], rfl, hreached, .inl rfl⟩
    exact h.2 (by simpa [Except.toOption] using hselected)

/-- A level that is only invalidated is withheld. -/
theorem invalidation_sticky_iff_one : ∃ selection,
    sampleRun [sampleEvent "E1" .invalidatedSource "2026-01-05T02:00:00Z"] = .ok selection ∧
      py "L" ∉ selection.eligibleIds ∧ selection.selectedLevelId ≠ some (py "L") := by
  have hret : Returns (sampleRun
      [sampleEvent "E1" .invalidatedSource "2026-01-05T02:00:00Z"]) := by
    decide +kernel
  have hasOf : ∃ asOf, parse .reference (py "2026-01-05T04:00:00Z") = .ok asOf ∧
      reachedBy .reference asOf (sampleEvent "E1" .invalidatedSource "2026-01-05T02:00:00Z") =
        true := ⟨_, rfl, by decide +kernel⟩
  obtain ⟨selection, hrun⟩ := hret
  obtain ⟨asOf, hparse, hreached⟩ := hasOf
  obtain ⟨projection, hproj, hsel⟩ := bind_ok.mp hrun
  refine ⟨selection, hrun,
    (invalidation_sticky_iff .reference hparse hproj hsel (py "L")).mpr ?_ ?_⟩
  · intro _
    refine .inr (.inr ⟨[], sampleEvent "E1" .invalidatedSource "2026-01-05T02:00:00Z", [], ?_,
      .inl rfl, by simp⟩)
    have hone : ([sampleEvent "E1" .invalidatedSource "2026-01-05T02:00:00Z"].filter
        (reachedBy .reference asOf)).filter (fun event => event.levelId = py "L") =
        [sampleEvent "E1" .invalidatedSource "2026-01-05T02:00:00Z"] := by
      rw [filter_cons_of_pos hreached, filter_cons_of_pos (by simp [sampleEvent])]
      rfl
    rw [history, eventsOf, hone, sortedBy_singleton]
    rfl
  · exact ⟨_, by simp, rfl, hreached, .inl rfl⟩

end Level

end OvcReplay.C2Vnext
