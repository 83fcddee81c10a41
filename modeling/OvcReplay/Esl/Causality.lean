import OvcReplay.Esl.OccurrenceCompiler

/-! # When an occurrence is causal

A record that the compiler returns went through all validators. They hold the times of the required
dependencies against the cutoff and against the record; what they leave open is exactly what the
inputs must satisfy for the record to be causal. -/

namespace OvcReplay.Esl

open List Python SharedSystems

variable (P : Platform)

/-! ## Times -/

/-- The instant of a text in universal time. -/
def instant? (s : PyStr) : Option Int :=
  if s.getLast? = some (.ofChar 'Z') then
    (P.fromIsoFormat (s.dropLast ++ py "+00:00")).bind fun d =>
      if d.utcOffset.isSome = true then some d.instant else none
  else none

/-- The first-valid time of a dependency. -/
def fvtOf (ref : DependencyRef) : Option Int := ref.firstValidTime.bind (instant? P)

variable {P}

theorem parseUtc_ok {s field : PyStr} {t : Int} :
    parseUtc P s field = .ok t ↔ instant? P s = some t := by
  rw [parseUtc, instant?]
  by_cases hz : s.getLast? = some (.ofChar 'Z')
  · rw [if_pos hz, if_pos hz]
    cases hd : P.fromIsoFormat (s.dropLast ++ py "+00:00") with
    | none => exact iff_of_false (by intro h; cases h) (by intro h; cases h)
    | some d =>
      rw [Option.bind_some]
      by_cases ho : d.utcOffset.isSome = true
      · rw [if_pos ho]
        constructor
        · intro h
          obtain ⟨_, -, h⟩ := bind_ok.mp h
          exact congrArg some (Except.ok.inj h)
        · intro h
          cases h
          exact bind_ok.mpr ⟨(), check_ok.mpr ho, rfl⟩
      · rw [if_neg ho]
        simp only [check, ho]
        exact iff_of_false (by intro h; cases h) (by intro h; cases h)
  · rw [if_neg hz, if_neg hz]
    exact iff_of_false (by intro h; cases h) (by intro h; cases h)

variable {refs : List DependencyRef}

/-- The times of some references. -/
theorem mem_parseTimes {ts : List Int} (h : parseTimes P refs = .ok ts) {t : Int} :
    t ∈ ts ↔ ∃ ref ∈ refs, fvtOf P ref = some t := by
  have hall := mapM_ok_iff.mp h
  constructor
  · intro ht
    obtain ⟨p, hp, hone⟩ := mem_of_forall₂_right hall ht
    obtain ⟨ref, href, hfvt⟩ := mem_filterMap.mp hp
    obtain ⟨fvt, hsome, rfl⟩ := Option.map_eq_some_iff.mp hfvt
    exact ⟨ref, href, by rw [fvtOf, hsome]; exact parseUtc_ok.mp hone⟩
  · rintro ⟨ref, href, hfvt⟩
    obtain ⟨fvt, hsome, hinst⟩ := Option.bind_eq_some_iff.mp hfvt
    have hp : (ref, fvt) ∈ refs.filterMap fun ref => ref.firstValidTime.map fun fvt => (ref, fvt) :=
      mem_filterMap.mpr ⟨ref, href, by rw [hsome]; rfl⟩
    obtain ⟨u, hu, hone⟩ := mem_of_forall₂_left hall hp
    have heq := hinst.symm.trans (parseUtc_ok.mp hone)
    cases heq
    exact hu

/-- The latest of some times is one of them, and none is later. -/
theorem latest?_spec {ts : List Int} {m : Int} (h : latest? ts = some m) :
    m ∈ ts ∧ ∀ t ∈ ts, t ≤ m := by
  cases ts with
  | nil => cases h
  | cons t ts =>
    obtain rfl := Option.some.inj h
    clear h
    induction ts generalizing t with
    | nil => exact ⟨mem_cons_self, fun u hu => (mem_singleton.mp hu).le⟩
    | cons u ts ih =>
      obtain ⟨hmem, hle⟩ := ih (max t u)
      rw [foldl_cons]
      refine ⟨?_, fun w hw => ?_⟩
      · rcases mem_cons.mp hmem with heq | htail
        · rw [heq]
          rcases max_choice t u with hmax | hmax
          · rw [hmax]
            exact mem_cons_self
          · rw [hmax]
            exact mem_cons_of_mem _ mem_cons_self
        · exact mem_cons_of_mem _ (mem_cons_of_mem _ htail)
      · have hfst := hle (max t u) mem_cons_self
        rcases mem_cons.mp hw with rfl | hw
        · exact (le_max_left w u).trans hfst
        rcases mem_cons.mp hw with rfl | hw
        · exact (le_max_right t w).trans hfst
        · exact hle w (mem_cons_of_mem _ hw)

/-! ## What the validators check -/

variable {ref : DependencyRef}

/-- What one dependency satisfies. -/
theorem of_validateDependency (h : validateDependency P ref = .ok ()) :
    (ref.role = .required → ref.evidenceState = .available) ∧
      (ref.evidenceState = .available → ref.firstValidTime.getD [] ≠ [] ∧
        ∃ t, fvtOf P ref = some t) := by
  obtain ⟨_, -, h⟩ := bind_ok.mp h
  obtain ⟨_, -, h⟩ := bind_ok.mp h
  obtain ⟨_, hreq, h⟩ := bind_ok.mp h
  obtain ⟨_, hfvt, h⟩ := bind_ok.mp h
  rw [check_ok] at hreq hfvt
  refine ⟨fun hrole => ?_, fun havail => ?_⟩
  · by_contra hne
    exact hreq ⟨hrole, hne⟩
  · have hne : ref.firstValidTime.getD [] ≠ [] := fun hnil => hfvt ⟨havail, hnil⟩
    refine ⟨hne, ?_⟩
    cases hsome : ref.firstValidTime with
    | none =>
      rw [hsome] at hne
      exact absurd rfl hne
    | some fvt =>
      rw [hsome] at h
      obtain ⟨t, ht, -⟩ := bind_ok.mp h
      exact ⟨t, by rw [fvtOf, hsome]; exact parseUtc_ok.mp ht⟩

/-- The references are distinct, and each satisfies the checks. -/
theorem of_validateDependencies {seen : List PyStr}
    (h : validateDependencies P seen refs = .ok ()) :
    (∀ ref ∈ refs, ref.refId ∉ seen) ∧ (refs.map DependencyRef.refId).Nodup ∧
      ∀ ref ∈ refs, validateDependency P ref = .ok () := by
  induction refs generalizing seen with
  | nil => exact ⟨nofun, nodup_nil, nofun⟩
  | cons ref refs ih =>
    rw [validateDependencies] at h
    obtain ⟨_, hseen, h⟩ := bind_ok.mp h
    obtain ⟨_, hone, h⟩ := bind_ok.mp h
    obtain ⟨hrest, hnd, hall⟩ := ih h
    refine ⟨?_, ?_, ?_⟩
    · rw [forall_mem_cons]
      refine ⟨check_ok.mp hseen, fun r hr hmem => ?_⟩
      exact hrest r hr (mem_append_left _ hmem)
    · rw [map_cons, nodup_cons]
      refine ⟨fun hmem => ?_, hnd⟩
      obtain ⟨r, hr, heq⟩ := mem_map.mp hmem
      exact hrest r hr (heq ▸ mem_append_right _ (mem_singleton.mpr rfl))
    · rw [forall_mem_cons]
      exact ⟨hone, hall⟩

theorem byId_eq_some (hnd : (refs.map DependencyRef.refId).Nodup) (href : ref ∈ refs) :
    byId refs ref.refId = some ref := by
  refine Dict.get?_ofItems_of_mem ?_ (mem_map_of_mem href)
  rw [map_map]
  exact hnd

theorem mem_of_byId {id : PyStr} (h : byId refs id = some ref) : ref ∈ refs ∧ ref.refId = id := by
  obtain ⟨r, hr, heq⟩ := mem_map.mp (Dict.mem_of_get?_ofItems h)
  cases heq
  exact ⟨hr, rfl⟩

/-- **The declared time is the latest of the required dependencies**, and not after the cutoff. -/
theorem of_validateFrontier {pack : OccurrencePack} {cutoff : PyStr} {latest : Option PyStr}
    (hnd : (refs.map DependencyRef.refId).Nodup)
    (h : validateFrontier P (frontierOf pack cutoff latest refs) refs = .ok ()) (href : ref ∈ refs)
    (hrole : ref.role = .required) {t : Int} (ht : fvtOf P ref = some t) :
    ∃ c fvt m, instant? P cutoff = some c ∧ latest = some fvt ∧ instant? P fvt = some m ∧ m ≤ c ∧
      (∃ r ∈ refs, r.role = .required ∧ fvtOf P r = some m) ∧
      ∀ r ∈ refs, r.role = .required → ∀ u, fvtOf P r = some u → u ≤ m := by
  obtain ⟨_, -, h⟩ := bind_ok.mp h
  obtain ⟨_, -, h⟩ := bind_ok.mp h
  obtain ⟨_, -, h⟩ := bind_ok.mp h
  obtain ⟨_, -, h⟩ := bind_ok.mp h
  obtain ⟨_, -, h⟩ := bind_ok.mp h
  obtain ⟨c, hc, h⟩ := bind_ok.mp h
  obtain ⟨ts, hts, h⟩ := bind_ok.mp h
  -- the references that the listed ids stand for
  have hlisted : ∀ {r}, r ∈ (frontierOf pack cutoff latest refs).requiredRefIds.filterMap
      (byId refs) ↔ r ∈ refs ∧ r.role = .required := by
    intro r
    rw [mem_filterMap]
    constructor
    · rintro ⟨id, hid, hr⟩
      obtain ⟨hmem, hrid⟩ := mem_of_byId hr
      obtain ⟨r', hr', heq⟩ := mem_map.mp (mem_sortedBy.mp hid)
      obtain ⟨hmem', hrole'⟩ := mem_filter.mp hr'
      have hsame : r = r' := inj_on_of_nodup_map hnd hmem hmem' (hrid.trans heq.symm)
      exact ⟨hmem, hsame ▸ of_decide_eq_true hrole'⟩
    · rintro ⟨hmem, hr⟩
      refine ⟨r.refId, mem_sortedBy.mpr (mem_map_of_mem ?_), byId_eq_some hnd hmem⟩
      exact mem_filter.mpr ⟨hmem, decide_eq_true hr⟩
  have htimes : ∀ {u}, u ∈ ts ↔ ∃ r ∈ refs, r.role = .required ∧ fvtOf P r = some u := by
    intro u
    rw [mem_parseTimes hts]
    constructor
    · rintro ⟨r, hr, hu⟩
      exact ⟨r, (hlisted.mp hr).1, (hlisted.mp hr).2, hu⟩
    · rintro ⟨r, hr, hrole, hu⟩
      exact ⟨r, hlisted.mpr ⟨hr, hrole⟩, hu⟩
  have hmem : t ∈ ts := htimes.mpr ⟨ref, href, hrole, ht⟩
  cases hlatest : latest? ts with
  | none =>
    cases ts with
    | nil => cases hmem
    | cons => cases hlatest
  | some m =>
    obtain ⟨hm, hmax⟩ := latest?_spec hlatest
    rw [hlatest] at h
    cases latest with
    | none =>
      obtain ⟨_, h, -⟩ := bind_ok.mp h
      cases h
    | some fvt =>
      obtain ⟨d, hd, h⟩ := bind_ok.mp h
      obtain ⟨_, heq, h⟩ := bind_ok.mp h
      obtain ⟨_, hle, -⟩ := bind_ok.mp h
      obtain rfl := check_ok.mp heq
      refine ⟨c, fvt, d, parseUtc_ok.mp hc, rfl, parseUtc_ok.mp hd, check_ok.mp hle,
        htimes.mp hm, fun r hr hrole u hu => hmax u ?_⟩
      exact htimes.mpr ⟨r, hr, hrole, hu⟩

/-- The time of the record is not before those that it is held against. -/
theorem of_validateChronology {record : StructuralOccurrenceRecord}
    (h : validateChronology P record = .ok ()) {f : Int}
    (hf : instant? P record.firstValidTime = some f) :
    ∃ c, instant? P record.evaluationCutoff = some c ∧ f ≤ c ∧
      ∀ ref ∈ record.dependencyRefs, isBinding ref = true → ∀ t, fvtOf P ref = some t → t ≤ f := by
  obtain ⟨_, -, h⟩ := bind_ok.mp h
  obtain ⟨f', hf', h⟩ := bind_ok.mp h
  obtain ⟨c, hc, h⟩ := bind_ok.mp h
  obtain ⟨_, -, h⟩ := bind_ok.mp h
  obtain ⟨_, -, h⟩ := bind_ok.mp h
  obtain ⟨_, -, h⟩ := bind_ok.mp h
  obtain ⟨_, hle, h⟩ := bind_ok.mp h
  obtain ⟨ts, hts, h⟩ := bind_ok.mp h
  cases hf.symm.trans (parseUtc_ok.mp hf')
  refine ⟨c, parseUtc_ok.mp hc, check_ok.mp hle, fun ref href hbind t ht => ?_⟩
  exact check_ok.mp h t ((mem_parseTimes hts).mpr
    ⟨ref, mem_filter.mpr ⟨href, hbind⟩, ht⟩)

/-! ## What a compiled record is made of -/

variable {L : Language} {lower : PyStr → PyStr} {s : Subject} {profiles : List Mapping}
  {deps : List DependencyRef} {record : StructuralOccurrenceRecord}

/-- What is known of a draft. -/
theorem of_draftOf {cutoff observationFvt : PyStr} {facets : List StructuralFacet}
    {draft : StructuralOccurrenceRecord}
    (h : draftOf P L s cutoff observationFvt facets refs = .ok draft) :
    ∃ latest, draft.dependencyRefs = refs ∧ draft.evaluationCutoff = cutoff ∧
      draft.facets = facets ∧ draft.firstValidTime = latest.getD observationFvt ∧
      draft.evidenceFrontier = frontierOf s.pack cutoff latest refs := by
  obtain ⟨times, -, h⟩ := bind_ok.mp h
  obtain ⟨_, -, h⟩ := bind_ok.mp h
  obtain ⟨_, -, h⟩ := bind_ok.mp h
  obtain ⟨_, -, h⟩ := bind_ok.mp h
  obtain ⟨_, -, h⟩ := bind_ok.mp h
  obtain ⟨_, -, h⟩ := bind_ok.mp h
  cases h
  exact ⟨_, rfl, rfl, rfl, rfl, rfl⟩

/-- What the validators of a record leave behind. -/
theorem of_validateOccurrence {pack : OccurrencePack}
    (h : validateOccurrence P record pack = .ok ()) :
    validateDependencies P [] record.dependencyRefs = .ok () ∧
      validateFrontier P record.evidenceFrontier record.dependencyRefs = .ok () ∧
      validateChronology P record = .ok () := by
  obtain ⟨_, -, h⟩ := bind_ok.mp h
  obtain ⟨_, -, h⟩ := bind_ok.mp h
  obtain ⟨_, -, h⟩ := bind_ok.mp h
  obtain ⟨_, hdeps, h⟩ := bind_ok.mp h
  obtain ⟨_, -, h⟩ := bind_ok.mp h
  obtain ⟨_, hfront, h⟩ := bind_ok.mp h
  obtain ⟨_, -, h⟩ := bind_ok.mp h
  obtain ⟨_, hchron, -⟩ := bind_ok.mp h
  exact ⟨hdeps, hfront, hchron⟩

/-- The time of the observation. -/
def observationTime? (P : Platform) (s : Subject) : Option Int :=
  (strOf P (s.observation.getD (py "first_valid_time"))).toOption.bind (instant? P)

/-- The time of the cutoff. -/
def cutoffTime? (P : Platform) (s : Subject) : Option Int :=
  (strOf P (s.observation.getD (py "first_valid_time"))).toOption.bind fun fvt =>
    instant? P (s.cutoff fvt)

/-- The time that a profile is as of. -/
def asOf (P : Platform) (profile : Mapping) : Option Int :=
  (strOrEmpty P (profile.getD (py "as_of_time"))).toOption.bind (instant? P)

/-- **What a compiled record is**: the references with the observation first, and a time that is the
latest of the required ones. -/
theorem of_compile (h : compileStructuralOccurrence P L lower s profiles deps = .ok record) :
    ∃ first c f u, record.dependencyRefs = first :: deps ∧ first.role = .required ∧
      first.evidenceState = .available ∧ fvtOf P first = some u ∧
      observationTime? P s = some u ∧ cutoffTime? P s = some c ∧
      instant? P record.evaluationCutoff = some c ∧ instant? P record.firstValidTime = some f ∧
      (∃ r ∈ first :: deps, r.role = .required ∧ fvtOf P r = some f) ∧
      (∀ r ∈ first :: deps, r.role = .required → ∀ t, fvtOf P r = some t → t ≤ f) ∧ f ≤ c ∧
      (∀ r ∈ first :: deps, isBinding r = true → ∀ t, fvtOf P r = some t → t ≤ f) ∧
      ((first :: deps).map DependencyRef.refId).Nodup ∧
      ∀ r ∈ first :: deps, validateDependency P r = .ok () := by
  obtain ⟨_, -, h⟩ := bind_ok.mp h
  obtain ⟨_, -, h⟩ := bind_ok.mp h
  obtain ⟨_, -, h⟩ := bind_ok.mp h
  obtain ⟨_, -, h⟩ := bind_ok.mp h
  obtain ⟨placed, -, h⟩ := bind_ok.mp h
  obtain ⟨fvt, hfvt, h⟩ := bind_ok.mp h
  obtain ⟨c, hc, h⟩ := bind_ok.mp h
  obtain ⟨u, hu, h⟩ := bind_ok.mp h
  obtain ⟨_, -, h⟩ := bind_ok.mp h
  obtain ⟨facets, -, h⟩ := bind_ok.mp h
  obtain ⟨observationId, -, h⟩ := bind_ok.mp h
  obtain ⟨draft, hdraft, h⟩ := bind_ok.mp h
  obtain ⟨_, -, h⟩ := bind_ok.mp h
  obtain ⟨recordId, -, h⟩ := bind_ok.mp h
  obtain ⟨_, hvalid, h⟩ := bind_ok.mp h
  cases h
  obtain ⟨latest, hrefs, hcut, -, htime, hfront⟩ := of_draftOf hdraft
  obtain ⟨hdependencies, hfrontierValid, hchron⟩ := of_validateOccurrence hvalid
  rw [parseUtc_ok] at hc hu
  have hfst : fvtOf P (requiredRef s observationId fvt) = some u := hu
  have hdeps : validateDependencies P []
      (requiredRef s observationId fvt :: deps) = .ok () := hrefs ▸ hdependencies
  obtain ⟨-, hnd, hall⟩ := of_validateDependencies hdeps
  have hfront' : validateFrontier P (frontierOf s.pack (s.cutoff fvt) latest
      (requiredRef s observationId fvt :: deps)) (requiredRef s observationId fvt :: deps) =
        .ok () := by
    have hvalid' := hfrontierValid
    rw [show ({ draft with occurrenceRecordId := some recordId } :
      StructuralOccurrenceRecord).evidenceFrontier = draft.evidenceFrontier from rfl, hfront,
      show ({ draft with occurrenceRecordId := some recordId } :
      StructuralOccurrenceRecord).dependencyRefs = draft.dependencyRefs from rfl, hrefs] at hvalid'
    exact hvalid'
  obtain ⟨c', text, f, hc', rfl, hf, hfc, hattained, hmax⟩ :=
    of_validateFrontier hnd hfront' mem_cons_self rfl hfst
  cases hc.symm.trans hc'
  have htime' : instant? P draft.firstValidTime = some f := by
    rw [htime]
    exact hf
  obtain ⟨_, -, -, hbind⟩ := of_validateChronology hchron htime'
  refine ⟨requiredRef s observationId fvt, c, f, u, hrefs, rfl, rfl, hfst, ?_, ?_, ?_, htime',
    hattained, hmax, hfc, ?_, hnd, hall⟩
  · rw [observationTime?, hfvt]
    exact hu
  · rw [cutoffTime?, hfvt]
    exact hc
  · show instant? P draft.evaluationCutoff = some c
    rw [hcut]
    exact hc
  · intro r hr
    exact hbind r (show r ∈ draft.dependencyRefs from hrefs ▸ hr)

/-! ## Causality -/

/-- **A causal record**: no dependency that is available is after the cutoff, and the record is not
before what it is made of. -/
def Causal (P : Platform) (record : StructuralOccurrenceRecord) (profiles : List Mapping) : Prop :=
  ∃ c f, instant? P record.evaluationCutoff = some c ∧ instant? P record.firstValidTime = some f ∧
    (∀ ref ∈ record.dependencyRefs, ref.evidenceState = .available →
      ∃ t, fvtOf P ref = some t ∧ t ≤ c) ∧
    (∀ ref ∈ record.dependencyRefs, ref.identityDefining = true →
      ∀ t, fvtOf P ref = some t → t ≤ f) ∧
    ∀ profile ∈ profiles, ∀ t, asOf P profile = some t → t ≤ f

/-- Some required dependency, or the observation, is not before the time. -/
def NotAhead (P : Platform) (s : Subject) (deps : List DependencyRef) (t : Int) : Prop :=
  (∃ u, observationTime? P s = some u ∧ t ≤ u) ∨
    ∃ ref ∈ deps, ref.role = .required ∧ ∃ u, fvtOf P ref = some u ∧ t ≤ u

/-- **What no validator looks at**: the times of the dependencies that are not required, and those
of the profiles. -/
structure Timely (P : Platform) (s : Subject) (profiles : List Mapping)
    (deps : List DependencyRef) : Prop where
  available : ∀ ref ∈ deps, ref.role ≠ .required → ref.evidenceState = .available →
    ∀ t c, fvtOf P ref = some t → cutoffTime? P s = some c → t ≤ c
  identity : ∀ ref ∈ deps, isBinding ref = false → ref.identityDefining = true →
    ∀ t, fvtOf P ref = some t → NotAhead P s deps t
  asOf : ∀ profile ∈ profiles, ∀ t, asOf P profile = some t → NotAhead P s deps t

/-- **A compiled record is causal exactly when the inputs are timely.** -/
theorem causal_iff (h : compileStructuralOccurrence P L lower s profiles deps = .ok record) :
    Causal P record profiles ↔ Timely P s profiles deps := by
  obtain ⟨first, c, f, u, hrefs, hrole, hst, hfst, hobservation, hcut, hc, hf, hattained,
    hmax, hfc, hbind, -, hall⟩ := of_compile h
  have hahead : ∀ t, NotAhead P s deps t ↔ t ≤ f := by
    intro t
    constructor
    · rintro (⟨v, hv, hle⟩ | ⟨ref, href, hreq, v, hv, hle⟩)
      · cases hobservation.symm.trans hv
        exact hle.trans (hmax first mem_cons_self hrole u hfst)
      · exact hle.trans (hmax ref (mem_cons_of_mem _ href) hreq v hv)
    · intro hle
      obtain ⟨ref, href, hreq, hv⟩ := hattained
      rcases mem_cons.mp href with rfl | href
      · refine .inl ⟨u, hobservation, ?_⟩
        cases hfst.symm.trans hv
        exact hle
      · exact .inr ⟨ref, href, hreq, f, hv, hle⟩
  constructor
  · rintro ⟨c', f', hc', hf', havail, hident, hprofiles⟩
    cases hc.symm.trans hc'
    cases hf.symm.trans hf'
    rw [hrefs] at havail hident
    refine ⟨fun ref href _ hav t d ht hd => ?_, fun ref href _ hid t ht => ?_,
      fun profile hp t ht => (hahead t).mpr (hprofiles profile hp t ht)⟩
    · cases hcut.symm.trans hd
      obtain ⟨t', ht', hle⟩ := havail ref (mem_cons_of_mem _ href) hav
      cases ht.symm.trans ht'
      exact hle
    · exact (hahead t).mpr (hident ref (mem_cons_of_mem _ href) hid t ht)
  · intro htimely
    refine ⟨c, f, hc, hf, ?_, ?_, fun profile hp t ht =>
      (hahead t).mp (htimely.asOf profile hp t ht)⟩
    · rw [hrefs]
      intro ref href hav
      obtain ⟨-, t, ht⟩ := (of_validateDependency (hall ref href)).2 hav
      refine ⟨t, ht, ?_⟩
      by_cases hreq : ref.role = .required
      · exact (hmax ref href hreq t ht).trans hfc
      · rcases mem_cons.mp href with rfl | href
        · exact absurd hrole hreq
        · exact htimely.available ref href hreq hav t c ht hcut
    · rw [hrefs]
      intro ref href hid t ht
      cases hb : isBinding ref with
      | true => exact hbind ref href hb t ht
      | false =>
        rcases mem_cons.mp href with rfl | href
        · exact hmax ref mem_cons_self hrole t ht
        · exact (hahead t).mp (htimely.identity ref href hb hid t ht)

end OvcReplay.Esl
