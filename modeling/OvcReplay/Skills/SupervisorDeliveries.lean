import OvcReplay.Logs.Deliveries
import OvcReplay.Skills.SupervisorPayload

/-! # Deliveries of events

Events come from several sources, more than once and with restarts between them. As long as every
source keeps its order, the identities and the watermarks that they leave are those of the set of
events. -/

namespace OvcReplay.Skills

open List Python Json

namespace Supervisor

/-! ## Keys -/

theorem natText_injective {m n : Nat} (h : natText m = natText n) : m = n := by
  rw [← digitsValue_natText m, h, digitsValue_natText]

/-- A digit is no colon. -/
theorem colon_not_mem_natText (n : Nat) : ⟨58, by decide⟩ ∉ natText n := by
  intro hmem
  exact absurd (isDigit_natText n _ hmem) (by decide)

/-- A text is split at its last mark in one way. -/
theorem eq_of_append_mark {α : Type} {mark : α} {xs xs' ys ys' : List α} (hys : mark ∉ ys)
    (hys' : mark ∉ ys') (h : xs ++ [mark] ++ ys = xs' ++ [mark] ++ ys') : xs = xs' ∧ ys = ys' := by
  rcases append_eq_append_iff.mp h with ⟨rest, hxs, hrest⟩ | ⟨rest, hxs, hrest⟩
  · cases rest using reverseRecOn with
    | nil =>
      rw [append_nil] at hxs
      exact ⟨(append_inj_left' hxs rfl).symm, hrest⟩
    | append_singleton rest last =>
      rw [← append_assoc] at hxs
      obtain rfl := append_inj_right' hxs rfl |> singleton_inj.mp
      exact absurd (by rw [hrest]; simp) hys
  · cases rest using reverseRecOn with
    | nil =>
      rw [append_nil] at hxs
      exact ⟨append_inj_left' hxs rfl, hrest.symm⟩
    | append_singleton rest last =>
      rw [← append_assoc] at hxs
      obtain rfl := append_inj_right' hxs rfl |> singleton_inj.mp
      exact absurd (by rw [hrest]; simp) hys'

/-- **Keys of events are distinct**: a source may have colons in its name, a number has none. -/
theorem eventKey_injective {source source' : PyStr} {n n' : Int} (hn : 0 ≤ n) (hn' : 0 ≤ n')
    {key : PyStr} (h : eventKey source n = .ok key) (h' : eventKey source' n' = .ok key) :
    source = source' ∧ n = n' := by
  obtain ⟨digits, hdigits, rfl⟩ := map_ok.mp h
  obtain ⟨digits', hdigits', heq⟩ := map_ok.mp h'
  obtain ⟨m, rfl⟩ := Int.eq_ofNat_of_zero_le hn
  obtain ⟨m', rfl⟩ := Int.eq_ofNat_of_zero_le hn'
  obtain ⟨-, rfl⟩ := strInt_ok.mp hdigits
  obtain ⟨-, rfl⟩ := strInt_ok.mp hdigits'
  obtain ⟨hsource, hnumber⟩ :=
    eq_of_append_mark (colon_not_mem_natText m') (colon_not_mem_natText m) heq
  exact ⟨hsource.symm, congrArg Int.ofNat (natText_injective hnumber).symm⟩

/-! ## Events -/

/-- An event of a source. -/
structure Event where
  source : PyStr
  sourceSequence : Int
  event : List (PyKey × PyVal)

/-- What tells events apart. -/
def Event.id (e : Event) : PyStr × Int := (e.source, e.sourceSequence)

/-- The event can be ingested: its number is not negative and has a text, and its content has an
identity. -/
structure Deliverable (P : Platform) (e : Event) : Prop where
  nonneg : 0 ≤ e.sourceSequence
  hasText : HasText e.sourceSequence
  identity : Returns (eventIdentity P e.source e.sourceSequence e.event)

variable {P : Platform} {intOf : PyVal → Except PyError Int} {floatOf : FloatOfText}
  {s₀ s : DurableSupervisorState}

variable {e : Event}

/-- The key of an event that can be ingested. -/
theorem Deliverable.key (h : Deliverable P e) : Returns (eventKey e.source e.sourceSequence) :=
  ⟨_, map_ok.mpr ⟨_, strInt_ok.mpr ⟨h.hasText, rfl⟩, rfl⟩⟩

/-- The watermark of a source after events, from what it was before. -/
def watermarkAfter (events : List Event) (source : PyStr) (before : Option Int) : Option Int :=
  events.foldl (fun w e => if e.source = source then some (max (w.getD (-1)) e.sourceSequence)
    else w) before

theorem watermarkAfter_snoc (events : List Event) (e : Event) (source : PyStr)
    (before : Option Int) :
    watermarkAfter (events ++ [e]) source before =
      if e.source = source then
        some (max ((watermarkAfter events source before).getD (-1)) e.sourceSequence)
      else watermarkAfter events source before := by
  rw [watermarkAfter, foldl_append]
  rfl

variable {events : List Event}

/-- A watermark is no higher than what it was and the numbers of the source. -/
theorem watermarkAfter_le {source : PyStr} {before : Option Int} {n : Int}
    (hbef : before.getD (-1) ≤ n) (h : ∀ e ∈ events, e.source = source → e.sourceSequence ≤ n) :
    (watermarkAfter events source before).getD (-1) ≤ n := by
  induction events using reverseRecOn with
  | nil => exact hbef
  | append_singleton events e ih =>
    have hrest := ih fun e' he' => h e' (mem_append_left _ he')
    rw [watermarkAfter_snoc]
    split_ifs with hsource
    · exact max_le hrest (h e (by simp) hsource)
    · exact hrest

/-- **Watermarks do not depend on the order of the events.** -/
theorem watermarkAfter_perm {events events' : List Event} (h : events.Perm events')
    (source : PyStr) (before : Option Int) :
    watermarkAfter events source before = watermarkAfter events' source before := by
  have hcomm : RightCommutative fun (w : Option Int) (e : Event) =>
      if e.source = source then some (max (w.getD (-1)) e.sourceSequence) else w := by
    constructor
    intro w a b
    by_cases ha : a.source = source <;> by_cases hb : b.source = source <;>
      simp [ha, hb, max_assoc, max_comm a.sourceSequence]
  exact h.foldl_eq before

/-- **A state in which these events were ingested**, from another state. -/
structure Ingested (P : Platform) (s₀ : DurableSupervisorState) (events : List Event)
    (s : DurableSupervisorState) : Prop where
  identity : ∀ e ∈ events, ∀ key identity, eventKey e.source e.sourceSequence = .ok key →
    eventIdentity P e.source e.sourceSequence e.event = .ok identity →
      s.eventIdentities.get? key = some identity
  other : ∀ key, (∀ e ∈ events, eventKey e.source e.sourceSequence ≠ .ok key) →
    s.eventIdentities.get? key = s₀.eventIdentities.get? key
  watermark : ∀ source, s.eventWatermarks.get? source =
    watermarkAfter events source (s₀.eventWatermarks.get? source)
  distinctKeys : DistinctKeys s
  writable : Writable s

/-- The events of a schedule: distinct, and new to the state that they come to. -/
structure Awaited (P : Platform) (s₀ : DurableSupervisorState) (events : List Event) : Prop where
  distinct : (events.map Event.id).Nodup
  deliverable : ∀ e ∈ events, Deliverable P e
  new : ∀ e ∈ events, ∀ key, eventKey e.source e.sourceSequence = .ok key →
    s₀.eventIdentities.get? key = none
  ahead : ∀ e ∈ events,
    (s₀.eventWatermarks.get? e.source).getD (-1) ≤ e.sourceSequence

/-- Events are told apart by their ids. -/
theorem Awaited.eq_of_id (h : Awaited P s₀ events) {e e' : Event} (he : e ∈ events)
    (he' : e' ∈ events) (hid : e.id = e'.id) : e = e' :=
  inj_on_of_nodup_map h.distinct he he' hid

/-- Events with one key are the same. -/
theorem Awaited.eq_of_key (h : Awaited P s₀ events) {e e' : Event} (he : e ∈ events)
    (he' : e' ∈ events) {key : PyStr} (hkey : eventKey e.source e.sourceSequence = .ok key)
    (hkey' : eventKey e'.source e'.sourceSequence = .ok key) : e = e' := by
  obtain ⟨hsource, hnumber⟩ := eventKey_injective (h.deliverable e he).nonneg
    (h.deliverable e' he').nonneg hkey hkey'
  exact h.eq_of_id he he' (Prod.ext hsource hnumber)

/-- **An event that was ingested is not new again**, and changes nothing. -/
theorem Ingested.again (h : Ingested P s₀ events s) (he : e ∈ events)
    (hdeliv : Deliverable P e) :
    ingestEvent P s e.source e.sourceSequence e.event = .ok (false, s) := by
  obtain ⟨key, hkey⟩ := hdeliv.key
  obtain ⟨identity, hident⟩ := hdeliv.identity
  have hstored := h.identity e he key identity hkey hident
  rw [ingestEvent, check, if_pos hdeliv.nonneg, hkey, hident]
  simp only [bind, Except.bind, Except.mapError, hstored, check, if_true, pure, Except.pure]

/-- The watermark of a new event. -/
theorem Ingested.ahead {all events : List Event} (h : Ingested P s₀ events s)
    (hall : Awaited P s₀ all) (he : e ∈ all)
    (horder : ∀ d ∈ events, d.source = e.source → d.sourceSequence < e.sourceSequence) :
    (s.eventWatermarks.get? e.source).getD (-1) ≤ e.sourceSequence := by
  rw [h.watermark]
  exact watermarkAfter_le (hall.ahead e he) fun d hd hsource => (horder d hd hsource).le

/-- **A new event is ingested**, in the order of its source. -/
theorem Ingested.new {all events : List Event} (h : Ingested P s₀ events s)
    (hall : Awaited P s₀ all) (hevs : ∀ d ∈ events, d ∈ all) (he : e ∈ all)
    (hfresh : e.id ∉ events.map Event.id)
    (horder : ∀ d ∈ events, d.source = e.source → d.sourceSequence < e.sourceSequence) :
    ∃ s', ingestEvent P s e.source e.sourceSequence e.event = .ok (true, s') ∧
      Ingested P s₀ (events ++ [e]) s' := by
  have hdeliv := hall.deliverable e he
  obtain ⟨key, hkey⟩ := hdeliv.key
  obtain ⟨identity, hident⟩ := hdeliv.identity
  have hothers : ∀ d ∈ events, eventKey d.source d.sourceSequence ≠ .ok key := by
    intro d hd hsame
    rw [hall.eq_of_key (hevs d hd) he hsame hkey] at hd
    exact hfresh (mem_map_of_mem hd)
  have hnone : s.eventIdentities.get? key = none := by
    rw [h.other key hothers]
    exact hall.new e he key hkey
  have hahead := h.ahead hall he horder
  have hmax : max ((s.eventWatermarks.get? e.source).getD (-1)) e.sourceSequence =
      e.sourceSequence := max_eq_right hahead
  refine ⟨{ s with
    eventIdentities := s.eventIdentities.set key identity
    eventWatermarks := s.eventWatermarks.set e.source e.sourceSequence }, ?_, ?_⟩
  · rw [ingestEvent, check, if_pos hdeliv.nonneg, hkey, hident]
    simp only [bind, Except.bind, Except.mapError, hnone, recordEvent, check, if_pos hahead, hmax,
      pure, Except.pure]
  · constructor
    · intro d hd key' identity' hkey' hident'
      rw [Dict.get?_set]
      rcases mem_append.mp hd with hd | hd
      · have hne : key ≠ key' := by
          rintro rfl
          exact hothers d hd hkey'
        rw [if_neg hne]
        exact h.identity d hd key' identity' hkey' hident'
      · obtain rfl := mem_singleton.mp hd
        cases hkey.symm.trans hkey'
        cases hident.symm.trans hident'
        rw [if_pos rfl]
    · intro key' hkey'
      have hne : key ≠ key' := by
        rintro rfl
        exact hkey' e (by simp) hkey
      rw [Dict.get?_set, if_neg hne]
      exact h.other key' fun d hd => hkey' d (mem_append_left _ hd)
    · intro source
      rw [Dict.get?_set, watermarkAfter_snoc, ← h.watermark]
      split_ifs with hsource
      · rw [← hsource, hmax]
      · rfl
    · exact ⟨Dict.nodup_keys_set h.distinctKeys.eventWatermarks _ _,
        Dict.nodup_keys_set h.distinctKeys.eventIdentities _ _, h.distinctKeys.transactions,
        h.distinctKeys.ownership, h.distinctKeys.providerAttempts⟩
    · refine ⟨h.writable.fencingGeneration, ?_, h.writable.transactions, h.writable.ownership,
        h.writable.providerAttempts⟩
      intro p hp
      rcases Dict.mem_set hp with rfl | hp
      · exact hdeliv.hasText
      · exact h.writable.eventWatermarks p hp

/-! ## Restarts -/

/-- **A state equals another one** as Python compares them: maps by what they read. -/
structure Same (s t : DurableSupervisorState) : Prop where
  supervisorScope : s.supervisorScope = t.supervisorScope
  fencingGeneration : s.fencingGeneration = t.fencingGeneration
  leaseHolder : s.leaseHolder = t.leaseHolder
  leaseActive : s.leaseActive = t.leaseActive
  quiescenceMode : s.quiescenceMode = t.quiescenceMode
  eventWatermarks : ∀ k, s.eventWatermarks.get? k = t.eventWatermarks.get? k
  eventIdentities : ∀ k, s.eventIdentities.get? k = t.eventIdentities.get? k
  sweepIdentities : s.sweepIdentities = t.sweepIdentities
  transactions : ∀ k, s.transactions.get? k = t.transactions.get? k
  ownership : ∀ k, s.ownership.get? k = t.ownership.get? k
  lastReconciliationId : s.lastReconciliationId = t.lastReconciliationId
  providerAttempts : ∀ k, s.providerAttempts.get? k = t.providerAttempts.get? k

theorem get?_sorted {α : Type} {d : Dict PyStr α} (hd : d.keys.Nodup) (k : PyStr) :
    Dict.get? (sortedBy Prod.fst d) k = d.get? k :=
  Dict.get?_of_perm (nodup_keys_sorted hd) (sortedBy_perm _ _) k

/-- **The order of the items of the maps is not seen.** -/
theorem same_sorted (h : DistinctKeys s) : Same s.sorted s :=
  ⟨rfl, rfl, rfl, rfl, rfl, get?_sorted h.eventWatermarks, get?_sorted h.eventIdentities, rfl,
    get?_sorted h.transactions, get?_sorted h.ownership, rfl, get?_sorted h.providerAttempts⟩

/-- What was ingested stays ingested through a restart. -/
theorem Ingested.sorted (h : Ingested P s₀ events s) : Ingested P s₀ events s.sorted := by
  have hsame := same_sorted h.distinctKeys
  constructor
  · intro e he key identity hkey hident
    rw [hsame.eventIdentities]
    exact h.identity e he key identity hkey hident
  · intro key hkey
    rw [hsame.eventIdentities]
    exact h.other key hkey
  · intro source
    rw [hsame.eventWatermarks]
    exact h.watermark source
  · exact ⟨nodup_keys_sorted h.distinctKeys.eventWatermarks,
      nodup_keys_sorted h.distinctKeys.eventIdentities,
      nodup_keys_sorted h.distinctKeys.transactions, nodup_keys_sorted h.distinctKeys.ownership,
      nodup_keys_sorted h.distinctKeys.providerAttempts⟩
  · exact ⟨h.writable.fencingGeneration,
      fun p hp => h.writable.eventWatermarks p (mem_sortedBy.mp hp),
      fun p hp => h.writable.transactions p (mem_sortedBy.mp hp),
      fun p hp => h.writable.ownership p (mem_sortedBy.mp hp),
      fun p hp => h.writable.providerAttempts p (mem_sortedBy.mp hp)⟩

/-! ## Schedules -/

/-- A step of a schedule. -/
inductive Step where
  | deliver (e : Event)
  | restart

/-- The event of a step. -/
def Step.event? : Step → Option Event
  | deliver e => some e
  | restart => none

/-- The deliveries of a schedule. -/
def deliveries (steps : List Step) : List Event := steps.filterMap Step.event?

/-- The reports so far and the state, after one more step. -/
def perform (P : Platform) (intOf : PyVal → Except PyError Int) (floatOf : FloatOfText)
    (r : List (Event × Bool) × DurableSupervisorState) :
    Step → Except SupervisorError (List (Event × Bool) × DurableSupervisorState)
  | .deliver e => (ingestEvent P r.2 e.source e.sourceSequence e.event).map fun result =>
      (r.1 ++ [(e, result.1)], result.2)
  | .restart => (zeroChatRestart P intOf floatOf r.2).map fun s => (r.1, s)

/-- What a schedule reports of each delivery, and the state it ends in. -/
def performs (P : Platform) (intOf : PyVal → Except PyError Int) (floatOf : FloatOfText)
    (steps : List Step) (s : DurableSupervisorState) :
    Except SupervisorError (List (Event × Bool) × DurableSupervisorState) :=
  steps.foldlM (perform P intOf floatOf) ([], s)

/-- The events that a schedule reports as new. -/
def reportedNew (reports : List (Event × Bool)) : List Event :=
  (reports.filter Prod.snd).map Prod.fst

/-- **A schedule of events**: it delivers each of them, at first in the order of its source, and
delivers nothing else. -/
structure Schedules (events : List Event) (steps : List Step) : Prop where
  sound : ∀ e ∈ deliveries steps, e ∈ events
  complete : ∀ e ∈ events, e ∈ deliveries steps
  ordered : (Logs.firsts Event.id (deliveries steps)).Pairwise fun e e' =>
    e.source = e'.source → e.sourceSequence < e'.sourceSequence

theorem deliveries_snoc (steps : List Step) (step : Step) :
    deliveries (steps ++ [step]) = deliveries steps ++ step.event?.toList := by
  rw [deliveries, filterMap_append]
  cases step <;> rfl

theorem ingested_nil (hkeys : DistinctKeys s) (hwrit : Writable s) : Ingested P s [] s where
  identity := by simp
  other _ _ := rfl
  watermark _ := rfl
  distinctKeys := hkeys
  writable := hwrit

/-- An event that was delivered before is among the first deliveries. -/
theorem Awaited.mem_firsts {all events : List Event} (h : Awaited P s₀ all)
    (hevs : ∀ e ∈ events, e ∈ all) (he : e ∈ all) (hid : e.id ∈ events.map Event.id) :
    e ∈ Logs.firsts Event.id events := by
  obtain ⟨d, hd, hsame⟩ := mem_map.mp (Logs.mem_ids_firsts.mpr hid)
  have hall := hevs d ((Logs.firsts_sublist Event.id events).subset hd)
  rwa [← h.eq_of_id hall he hsame]

/-- **A run of a schedule**: no delivery raises, the reports are new for the first deliveries, and
these were ingested. -/
theorem performs_ok {all : List Event} (h : Awaited P s₀ all) (hkeys : DistinctKeys s₀)
    (hwrit : Writable s₀) {steps : List Step} (hsteps : ∀ e ∈ deliveries steps, e ∈ all)
    (hord : (Logs.firsts Event.id (deliveries steps)).Pairwise fun e e' =>
      e.source = e'.source → e.sourceSequence < e'.sourceSequence) :
    ∃ reports s, performs P intOf floatOf steps s₀ = .ok (reports, s) ∧
      Ingested P s₀ (Logs.firsts Event.id (deliveries steps)) s ∧
      reports.map Prod.fst = deliveries steps ∧
      reportedNew reports = Logs.firsts Event.id (deliveries steps) := by
  -- induction on the schedule, the last step taken off
  induction steps using reverseRecOn with
  | nil => exact ⟨[], s₀, rfl, ingested_nil hkeys hwrit, rfl, rfl⟩
  | append_singleton steps step ih =>
    rw [deliveries_snoc] at hsteps hord ⊢
    cases step with
    | restart =>
      rw [Step.event?, Option.toList_none, append_nil] at hsteps hord ⊢
      obtain ⟨reports, s, hrun, hingested, hreports, hnew⟩ := ih hsteps hord
      refine ⟨reports, s.sorted, ?_, hingested.sorted, hreports, hnew⟩
      rw [performs, foldlM_append]
      rw [performs] at hrun
      rw [hrun]
      simp only [bind, Except.bind, foldlM_cons, foldlM_nil, perform,
        zeroChatRestart_eq hingested.distinctKeys hingested.writable, Except.map, pure,
        Except.pure]
    | deliver e =>
      rw [Step.event?, Option.toList_some] at hsteps hord ⊢
      have he : e ∈ all := hsteps e (by simp)
      have hbef : ∀ d ∈ deliveries steps, d ∈ all := fun d hd => hsteps d (by simp [hd])
      rw [Logs.firsts_snoc] at hord ⊢
      obtain ⟨reports, s, hrun, hingested, hreports, hnew⟩ :=
        ih hbef (pairwise_append.mp hord).1
      have hlast : ∀ {b : Bool} {s' : DurableSupervisorState},
          ingestEvent P s e.source e.sourceSequence e.event = .ok (b, s') →
          performs P intOf floatOf (steps ++ [.deliver e]) s₀ =
            .ok (reports ++ [(e, b)], s') := by
        intro b s' hok
        rw [performs, foldlM_append]
        rw [performs] at hrun
        rw [hrun]
        simp only [bind, Except.bind, foldlM_cons, foldlM_nil, perform, hok,
          Except.map, pure, Except.pure]
      by_cases hid : e.id ∈ (deliveries steps).map Event.id
      · rw [if_pos hid, append_nil] at hord ⊢
        have hok := hingested.again (h.mem_firsts hbef he hid) (h.deliverable e he)
        refine ⟨_, s, hlast hok, hingested, ?_, ?_⟩
        · rw [map_append, hreports]
          rfl
        · rw [reportedNew, filter_append, map_append, ← hnew, reportedNew]
          exact append_nil _
      · rw [if_neg hid] at hord ⊢
        have hfirsts : ∀ d ∈ Logs.firsts Event.id (deliveries steps), d ∈ all :=
          fun d hd => hbef d ((Logs.firsts_sublist _ _).subset hd)
        have horder := (pairwise_append.mp hord).2.2
        obtain ⟨s', hok, hingested'⟩ := hingested.new h hfirsts he
          (by rwa [Logs.mem_ids_firsts])
          fun d hd hsource => horder d hd e (mem_singleton.mpr rfl) hsource
        refine ⟨_, s', hlast hok, hingested', ?_, ?_⟩
        · rw [map_append, hreports]
          rfl
        · rw [reportedNew, filter_append, map_append, ← hnew, reportedNew]
          rfl

/-- The first deliveries of a schedule are the events. -/
theorem Schedules.perm {steps : List Step} (hsteps : Schedules events steps)
    (h : Awaited P s₀ events) : (Logs.firsts Event.id (deliveries steps)).Perm events := by
  have hnd : (Logs.firsts Event.id (deliveries steps)).Nodup :=
    Nodup.of_map Event.id (Logs.nodup_ids_firsts Event.id (deliveries steps))
  refine (perm_ext_iff_of_nodup hnd (Nodup.of_map Event.id h.distinct)).mpr ?_
  intro e
  constructor
  · exact fun he => hsteps.sound e ((Logs.firsts_sublist _ _).subset he)
  · exact fun he => h.mem_firsts hsteps.sound he (mem_map_of_mem (hsteps.complete e he))

theorem Ingested.perm {events events' : List Event} (h : Ingested P s₀ events s)
    (hperm : events.Perm events') : Ingested P s₀ events' s where
  identity e he := h.identity e (hperm.mem_iff.mpr he)
  other key hkey := h.other key fun e he => hkey e (hperm.mem_iff.mp he)
  watermark source := (h.watermark source).trans (watermarkAfter_perm hperm source _)
  distinctKeys := h.distinctKeys
  writable := h.writable

/-- **What was ingested determines the identities.** -/
theorem Ingested.eventIdentities_eq {s s' : DurableSupervisorState} (h : Ingested P s₀ events s)
    (h' : Ingested P s₀ events s') (hdeliv : ∀ e ∈ events, Deliverable P e) (key : PyStr) :
    s.eventIdentities.get? key = s'.eventIdentities.get? key := by
  by_cases hkey : ∃ e ∈ events, eventKey e.source e.sourceSequence = .ok key
  · obtain ⟨e, he, hkey⟩ := hkey
    obtain ⟨identity, hident⟩ := (hdeliv e he).identity
    rw [h.identity e he key identity hkey hident, h'.identity e he key identity hkey hident]
  · have hnone : ∀ e ∈ events, eventKey e.source e.sourceSequence ≠ .ok key :=
      fun e he hsame => hkey ⟨e, he, hsame⟩
    rw [h.other key hnone, h'.other key hnone]

namespace Reference

/-- An event without content. -/
def event : Event := ⟨py "repo", 1, []⟩

theorem deliverable_event : Deliverable .reference event where
  nonneg := by decide
  hasText := by
    rw [HasText]
    decide +kernel
  identity := by
    have hsome : (eventIdentity .reference (py "repo") 1 []).toOption.isSome = true := by
      decide +kernel
    cases hident : eventIdentity .reference (py "repo") 1 [] with
    | ok identity => exact ⟨identity, hident⟩
    | error e =>
      rw [hident] at hsome
      cases hsome

theorem awaited_event : Awaited .reference (.empty scope .run) [event] where
  distinct := nodup_singleton _
  deliverable := by simpa using deliverable_event
  new _ _ _ _ := rfl
  ahead := by simp [DurableSupervisorState.empty, event]

theorem schedules_event (steps : List Step) (h : deliveries steps = [event, event]) :
    Schedules [event] steps where
  sound := by simp [h]
  complete := by simp [h]
  ordered := by simp [h, Logs.firsts]

/-- The event is delivered twice, with a restart between the deliveries. -/
def redelivered : List Step := [.deliver event, .restart, .deliver event]

theorem writable_empty : Writable (DurableSupervisorState.empty scope .run) :=
  ⟨hasText_zero, by simp [DurableSupervisorState.empty], by simp [DurableSupervisorState.empty],
    by simp [DurableSupervisorState.empty], by simp [DurableSupervisorState.empty]⟩

/-- A policy with a schedule. -/
def frozen : PersistentTimingPolicy := ⟨true, [1], fun _ => cons_ne_nil _ _⟩

/-- An attempt whose number has more digits than are written. -/
def longAttempt : List Call := [.backoffForAttempt (py "provider") (10 ^ maxStrDigits)]

/-- The restart after that attempt returns. -/
def restarts : Bool :=
  (zeroChatRestart .reference (fun _ => .error .typeError) (fun _ => .nan)
    (after .reference frozen (.empty scope .run) longAttempt)).toOption.isSome

end Reference

end Supervisor

end OvcReplay.Skills
