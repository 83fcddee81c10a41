import OvcReplay.Esl.Causality
import OvcReplay.Esl.Agreement

/-! # The order of the inputs

Profiles are sorted by their ids, so a record does not depend on the order in which they came as
long as ids tell them apart. The dependencies stay in the order in which they came. -/

namespace OvcReplay.Esl

open List Python SharedSystems

variable {P : Platform} {L : Language} {lower : PyStr → PyStr}

/-! ## The scan -/

theorem agrees_scanElements {path path' : PyStr} {index index' : Nat} {xs : List PyVal}
    (h : ∀ x ∈ xs, ∀ path path',
      Agrees (scanProhibited lower path x) (scanProhibited lower path' x)) :
    Agrees (scanElements lower path index xs) (scanElements lower path' index' xs) := by
  induction xs generalizing index index' with
  | nil =>
    rw [scanElements, scanElements]
    exact Agrees.refl _
  | cons x xs ih =>
    rw [scanElements, scanElements]
    refine agrees_bind (h x mem_cons_self _ _) fun _ _ => ?_
    exact ih fun y hy => h y (mem_cons_of_mem _ hy)

theorem agrees_scanItems {path path' : PyStr} {items : List (PyKey × PyVal)}
    (h : ∀ p ∈ items, ∀ path path',
      Agrees (scanProhibited lower path p.2) (scanProhibited lower path' p.2)) :
    Agrees (scanItems lower path items) (scanItems lower path' items) := by
  induction items with
  | nil =>
    rw [scanItems, scanItems]
    exact Agrees.refl _
  | cons p items ih =>
    obtain ⟨k, v⟩ := p
    rw [scanItems, scanItems]
    refine agrees_bind (Agrees.refl _) fun _ _ => ?_
    refine agrees_bind (agrees_check _ _) fun _ _ => ?_
    refine agrees_bind (h (k, v) mem_cons_self _ _) fun _ _ => ?_
    exact ih fun q hq => h q (mem_cons_of_mem _ hq)

/-- The path of a value is only named in errors. -/
theorem agrees_scanProhibited (v : PyVal) (path path' : PyStr) :
    Agrees (scanProhibited lower path v) (scanProhibited lower path' v) := by
  induction v generalizing path path' with
  | list xs ih | tuple xs ih =>
    rw [scanProhibited, scanProhibited]
    exact agrees_scanElements fun x hx path path' => ih x hx path path'
  | dict items ih =>
    rw [scanProhibited, scanProhibited]
    exact agrees_scanItems fun p hp path path' => ih p hp path path'
  | _ =>
    rw [scanProhibited, scanProhibited] <;> first | exact Agrees.refl _ | simp

/-- The elements of an array are scanned one by one. -/
theorem scanElements_ok {path : PyStr} {index : Nat} {xs : List PyVal} :
    scanElements lower path index xs = .ok () ↔ ∀ x ∈ xs, scanProhibited lower [] x = .ok () := by
  induction xs generalizing index with
  | nil =>
    rw [scanElements]
    exact iff_of_true rfl nofun
  | cons x xs ih =>
    rw [scanElements, bind_ok, forall_mem_cons, ← ih]
    constructor
    · rintro ⟨_, hx, hxs⟩
      exact ⟨(agrees_scanProhibited x _ _ _).mp hx, hxs⟩
    · rintro ⟨hx, hxs⟩
      exact ⟨(), (agrees_scanProhibited x _ _ _).mp hx, hxs⟩

/-! ## Profiles -/

/-- The text of the id of a profile. -/
def idText (P : Platform) (profile : Mapping) : Except OccurrenceError PyStr :=
  strOf P (profile.getD (py "profile_output_id"))

/-- The text of the axis of a profile. -/
def axisText (P : Platform) (profile : Mapping) : Except OccurrenceError PyStr :=
  strOf P (profile.getD (py "axis"))

/-- Ids tell the profiles of an axis apart. -/
def DistinctIds (P : Platform) (profiles : List Mapping) : Prop :=
  ∀ a ∈ profiles, ∀ b ∈ profiles, axisText P a = axisText P b → idText P a = idText P b → a = b

/-- A comprehension over a permutation returns as well. -/
theorem exists_mapM_of_perm {α β ε : Type} {f : α → Except ε β} {xs xs' : List α} {ys : List β}
    (hperm : xs'.Perm xs) (h : xs.mapM f = .ok ys) : ∃ ys', xs'.mapM f = .ok ys' ∧ ys'.Perm ys := by
  have hrets : Returns (xs'.mapM f) := by
    rw [returns_mapM]
    intro x hx
    exact returns_mapM.mp ⟨ys, h⟩ x (hperm.mem_iff.mp hx)
  obtain ⟨ys', h'⟩ := hrets
  exact ⟨ys', h', perm_of_mapM hperm h' h⟩

/-- The components of an axis do not depend on the order of its profiles. -/
theorem componentsOf_of_perm {axis : StructuralDimension} {cutoff : Int} {xs xs' : List Mapping}
    {components : List Component} (hids : ∀ a ∈ xs, ∀ b ∈ xs, idText P a = idText P b → a = b)
    (hperm : xs'.Perm xs) (h : componentsOf P axis cutoff xs = .ok components) :
    componentsOf P axis cutoff xs' = .ok components := by
  obtain ⟨keyed, hkeyed, h⟩ := bind_ok.mp h
  obtain ⟨keyed', hkeyed', hperm'⟩ := exists_mapM_of_perm hperm hkeyed
  have hkey : ∀ p ∈ keyed, idText P p.2 = .ok p.1 ∧ p.2 ∈ xs := by
    intro p hp
    obtain ⟨x, hx, hone⟩ := mem_of_mapM_right hkeyed hp
    obtain ⟨key, hk, rfl⟩ := map_ok.mp hone
    exact ⟨hk, hx⟩
  have hsort : sortedBy Prod.fst keyed = sortedBy Prod.fst keyed' := by
    refine sortedBy_eq_of_perm (fun p hp q hq heq => ?_) hperm'.symm
    obtain ⟨hp, hpx⟩ := hkey p hp
    obtain ⟨hq, hqx⟩ := hkey q hq
    exact Prod.ext heq (hids _ hpx _ hqx (hp.trans (heq ▸ hq.symm)))
  rw [hsort] at h
  exact bind_intro hkeyed' h

/-- The profiles with their axes, in another order. -/
theorem placeProfiles_of_perm {profiles profiles' : List Mapping} {placed : List (PyStr × Mapping)}
    (hperm : profiles'.Perm profiles) (h : placeProfiles P profiles = .ok placed) :
    (∃ placed', placeProfiles P profiles' = .ok placed' ∧ placed'.Perm placed) ∧
      ∀ p ∈ placed, axisText P p.2 = .ok p.1 ∧ p.2 ∈ profiles := by
  obtain ⟨_, hqual, h⟩ := bind_ok.mp h
  obtain ⟨ps, hps, h⟩ := bind_ok.mp h
  obtain ⟨_, hunk, h⟩ := bind_ok.mp h
  cases h
  obtain ⟨ps', hps', hperm'⟩ := exists_mapM_of_perm hperm hps
  refine ⟨⟨ps', ?_, hperm'⟩, fun p hp => ?_⟩
  · refine bind_ok.mpr ⟨(), check_ok.mpr fun p hp => ?_, ?_⟩
    · exact check_ok.mp hqual p (hperm.mem_iff.mp hp)
    refine bind_ok.mpr ⟨ps', hps', bind_ok.mpr ⟨(), check_ok.mpr ?_, rfl⟩⟩
    rw [← check_ok.mp hunk]
    refine sortedSet_congr fun axis => ?_
    exact ((hperm'.map Prod.fst).filter _).mem_iff
  · obtain ⟨x, hx, hone⟩ := mem_of_mapM_right hps hp
    obtain ⟨axis, haxis, rfl⟩ := map_ok.mp hone
    exact ⟨haxis, hx⟩

/-- The facets do not depend on the order of the profiles. -/
theorem facetsOf_of_perm {profiles : List Mapping} {placed placed' : List (PyStr × Mapping)}
    {cutoff : Int} {facets : List StructuralFacet} (hids : DistinctIds P profiles)
    (hplaced : ∀ p ∈ placed, axisText P p.2 = .ok p.1 ∧ p.2 ∈ profiles)
    (hperm : placed'.Perm placed) (h : facetsOf P cutoff placed = .ok facets) :
    facetsOf P cutoff placed' = .ok facets := by
  rw [facetsOf, mapM_ok_iff] at h ⊢
  refine h.imp fun axis facet hone => ?_
  obtain ⟨components, hcomponents, rfl⟩ := map_ok.mp hone
  have haxis : ∀ a ∈ onAxis placed axis, axisText P a = .ok axis.text ∧ a ∈ profiles := by
    intro a ha
    obtain ⟨p, hp, rfl⟩ := mem_map.mp ha
    obtain ⟨hmem, htext⟩ := mem_filter.mp hp
    obtain ⟨hp, hprof⟩ := hplaced p hmem
    exact ⟨of_decide_eq_true htext ▸ hp, hprof⟩
  refine map_ok.mpr ⟨components, componentsOf_of_perm (fun a ha b hb heq => ?_)
    ((hperm.filter _).map _) hcomponents, rfl⟩
  obtain ⟨hta, hpa⟩ := haxis a ha
  obtain ⟨htb, hpb⟩ := haxis b hb
  exact hids a hpa b hpb (hta.trans htb.symm) heq

/-! ## Records -/

variable {s : Subject} {profiles : List Mapping} {deps : List DependencyRef}
  {record : StructuralOccurrenceRecord}

/-- **The order of the profiles does not matter** where their ids tell them apart. -/
theorem compile_of_perm {profiles' : List Mapping} (hids : DistinctIds P profiles)
    (hperm : profiles'.Perm profiles)
    (h : compileStructuralOccurrence P L lower s profiles deps = .ok record) :
    compileStructuralOccurrence P L lower s profiles' deps = .ok record := by
  obtain ⟨_, hscan, h⟩ := bind_ok.mp h
  obtain ⟨_, hscanProfiles, h⟩ := bind_ok.mp h
  obtain ⟨_, hobservation, h⟩ := bind_ok.mp h
  obtain ⟨_, hgen, h⟩ := bind_ok.mp h
  obtain ⟨placed, hplace, h⟩ := bind_ok.mp h
  obtain ⟨fvt, hfvt, h⟩ := bind_ok.mp h
  obtain ⟨c, hc, h⟩ := bind_ok.mp h
  obtain ⟨u, hu, h⟩ := bind_ok.mp h
  obtain ⟨_, hle, h⟩ := bind_ok.mp h
  obtain ⟨facets, hfacets, h⟩ := bind_ok.mp h
  obtain ⟨⟨placed', hplace', hplacedPerm⟩, hplaced⟩ := placeProfiles_of_perm hperm hplace
  have hscanProfiles' :
      scanProhibited lower (py "$") (.list (profiles'.map PyVal.dict)) = .ok () := by
    rw [scanProhibited] at hscanProfiles ⊢
    rw [scanElements_ok] at hscanProfiles ⊢
    intro x hx
    exact hscanProfiles x ((hperm.map PyVal.dict).mem_iff.mp hx)
  refine bind_intro hscan (bind_ok.mpr ⟨_, hscanProfiles', bind_ok.mpr ⟨_, hobservation,
    bind_ok.mpr ⟨_, hgen, bind_ok.mpr ⟨placed', hplace', ?_⟩⟩⟩⟩)
  refine bind_intro hfvt (bind_ok.mpr ⟨c, hc, bind_ok.mpr ⟨u, hu,
    bind_ok.mpr ⟨_, hle, bind_ok.mpr ⟨facets, ?_, h⟩⟩⟩⟩)
  exact facetsOf_of_perm hids hplaced hplacedPerm hfacets

/-- **A record that no order of the inputs changes.** -/
def Invariant (P : Platform) (L : Language) (lower : PyStr → PyStr) (s : Subject)
    (profiles : List Mapping) (deps : List DependencyRef) (record : StructuralOccurrenceRecord) :
    Prop :=
  ∀ profiles' deps', profiles'.Perm profiles → deps'.Perm deps →
    compileStructuralOccurrence P L lower s profiles' deps' = .ok record

/-- **The order of the inputs does not matter exactly when there is one dependency at most.** -/
theorem invariant_iff (hids : DistinctIds P profiles)
    (h : compileStructuralOccurrence P L lower s profiles deps = .ok record) :
    Invariant P L lower s profiles deps record ↔ deps.length ≤ 1 := by
  constructor
  · intro hinvariant
    rcases deps with _ | ⟨a, _ | ⟨b, rest⟩⟩
    · exact Nat.zero_le 1
    · exact Nat.le_refl 1
    · -- the references of the record stand in the order of the arguments
      have hswapped := hinvariant profiles (b :: a :: rest) (Perm.refl _)
        (Perm.swap a b rest)
      obtain ⟨first, _, _, _, hrefs, -, -, -, -, -, -, -, -, -, -, -, hnd, -⟩ := of_compile h
      obtain ⟨first', _, _, _, hrefs', -⟩ := of_compile hswapped
      have heq := hrefs.symm.trans hrefs'
      obtain ⟨-, hab, -⟩ : first = first' ∧ a = b ∧ _ := by simpa using heq
      subst hab
      simp at hnd
  · intro hlen profiles' deps' hprofiles hdeps
    have hsame : deps' = deps := by
      rcases deps with _ | ⟨a, _ | ⟨b, rest⟩⟩
      · exact hdeps.eq_nil
      · exact perm_singleton.mp hdeps
      · simp at hlen
    rw [hsame]
    exact compile_of_perm hids hprofiles h

namespace Reference

/-- No float occurs and no id that is not a text. -/
def noFloats : Language where
  floatDecimal _ := ⟨false, 0, 0⟩
  sortOrder _ := .error .typeError
  sortOrder_perm := nofun

/-- An observation of a quarter of an hour. -/
def observation : Mapping :=
  [(.str (py "schema"), .str (py "c2_observation/vnext-r1")),
    (.str (py "instrument"), .str (py "GBPUSD")), (.str (py "side"), .str (py "BID")),
    (.str (py "interval_start"), .str (py "2026-01-05T00:00:00Z")),
    (.str (py "interval_end"), .str (py "2026-01-05T00:15:00Z")),
    (.str (py "projection_eligibility"), .dict [(.str (py "eligible"), .bool true)]),
    (.str (py "observation_id"), .str (py "o1")),
    (.str (py "first_valid_time"), .str (py "2026-01-05T00:15:00Z"))]

/-- `BOOTSTRAP_PACK`. -/
def bootstrapPack : OccurrencePack where
  occurrencePackId := py "OPTB-ESL-OCCURRENCE-PACK-GBPUSD-BID-15M-v0.1"
  anchorKind := py "C2_OBSERVATION"
  requiredDimensions := StructuralDimension.all
  requiredSourceTypes := [py "C2Observation"]
  comparabilityDomainId := some (py "CD.GBPUSD.BID.15M.C2.v0.1")

/-- The observation, with the cutoff at its own time. -/
def subject : Subject := ⟨observation, py "g1", none, bootstrapPack⟩

/-- An optional dependency of the next day. -/
def late : DependencyRef where
  refId := py "d1"
  owner := py "C2E"
  objectType := py "C2EEpisode"
  role := .optional
  evidenceState := .available
  firstValidTime := some (py "2026-01-06T00:00:00Z")
  generationId := py "g1"
  comparabilityDomainId := none
  identityDefining := false

/-- The compiler on the observation without profiles. -/
def compiled (deps : List DependencyRef) : Except OccurrenceError StructuralOccurrenceRecord :=
  compileStructuralOccurrence .reference noFloats (List.map CodePoint.lowerAscii) subject []
    deps

theorem isOk_alone : (compiled []).isOk = true := by
  decide +kernel

theorem isOk_late : (compiled [late]).isOk = true := by
  decide +kernel

theorem exists_of_isOk {ε α : Type} {r : Except ε α} (h : r.isOk = true) : ∃ a, r = .ok a := by
  cases r with
  | ok a => exact ⟨a, rfl⟩
  | error e => cases h

end Reference

end OvcReplay.Esl
