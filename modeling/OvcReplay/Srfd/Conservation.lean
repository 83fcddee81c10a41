import OvcReplay.Srfd.BoundedPam

/-! # No record is lost

Whether the catalogues of the methods partition their population. Bounded PAM moves its medoids after
it has assigned the records to them; when no iteration is left, the records of a medoid that moved are
in no family and not residual. -/

namespace OvcReplay.Srfd

open List Python OvcReplay.Lists

variable {P : Platform} {matrix : DistanceMatrix} {spec : FamilyMethodSpec}

/-! ## The versions of bounded PAM -/

/-- The pass that the iteration limit leaves last keeps every medoid that it has assigned records
to. -/
def LastPassKeeps (P : Platform) (matrix : DistanceMatrix) (spec : FamilyMethodSpec) : Prop :=
  ∀ k radius, pamSize matrix spec.k = .ok k → decOption P spec.maxAssignmentDistance = .ok radius →
    KeepsMembers (matrix.distance P) matrix.ids k radius spec.maxIterations.toNat

/-- With one size and one radius the condition is that of the loop. -/
theorem lastPassKeeps_iff {k : Nat} {radius : Option PyDecimal} (hk : pamSize matrix spec.k = .ok k)
    (hrad : decOption P spec.maxAssignmentDistance = .ok radius) :
    LastPassKeeps P matrix spec ↔
      KeepsMembers (matrix.distance P) matrix.ids k radius spec.maxIterations.toNat := by
  constructor
  · intro h
    exact h k radius hk hrad
  · intro h k' radius' hk' hrad'
    cases hk.symm.trans hk'
    cases hrad.symm.trans hrad'
    exact h

theorem iterations_pos : 1 ≤ spec.maxIterations.toNat := by
  have h := spec.iterations
  omega

variable {c : FamilyCatalog}

theorem partitions_boundedPam_iff (h : boundedPam P matrix spec = .ok c) :
    Partitions c matrix.ids ↔ LastPassKeeps P matrix spec := by
  simp only [boundedPam, bind_ok] at h
  obtain ⟨k, hk, radius, hrad, s, hs, hc⟩ := h
  rw [lastPassKeeps_iff hk hrad]
  exact partitions_iff_keepsMembers hs iterations_pos hc

theorem partitions_boundedPamOptimized_iff (h : boundedPamOptimized P matrix spec = .ok c) :
    Partitions c matrix.ids ↔ LastPassKeeps P matrix spec := by
  simp only [boundedPamOptimized, bind_ok] at h
  obtain ⟨k, hk, prepared, hprep, radius, hrad, s, hs, hc⟩ := h
  rw [distance_fromMatrix hprep] at hs
  rw [lastPassKeeps_iff hk hrad]
  exact partitions_iff_keepsMembers hs iterations_pos hc

/-- Only the members of the medoids enter a catalogue. -/
theorem pamCatalog_congr {medoids residual : List PyStr} {f g : PyStr → List PyStr}
    (h : ∀ medoid ∈ medoids, f medoid = g medoid) :
    pamCatalog P spec matrix medoids f residual = pamCatalog P spec matrix medoids g residual := by
  have hsupported : (medoids.filter fun medoid => spec.minimumSupport ≤ ((f medoid).length : Int)) =
      medoids.filter fun medoid => spec.minimumSupport ≤ ((g medoid).length : Int) :=
    filter_congr fun medoid hmem => by rw [h medoid hmem]
  have hsmall : (medoids.filter fun medoid => ¬ spec.minimumSupport ≤ ((f medoid).length : Int)) =
      medoids.filter fun medoid => ¬ spec.minimumSupport ≤ ((g medoid).length : Int) :=
    filter_congr fun medoid hmem => by rw [h medoid hmem]
  rw [pamCatalog, pamCatalog, hsupported, hsmall]
  rw [mapM_congr (f := fun medoid => family P (seed spec matrix) (f medoid) "MEDOID" (some medoid)
      spec.methodId) fun medoid hmem => by rw [h medoid (mem_filter.mp hmem).1],
    flatMap_congr fun medoid hmem => h medoid (mem_filter.mp hmem).1]

theorem partitions_materializeBoundedPamCore_iff {k maxIterations : Int}
    {maxAssignmentDistance : Option PyStr} {core : BoundedPamCore}
    (hcore : buildBoundedPamCore P matrix k maxAssignmentDistance maxIterations = .ok core)
    (h : materializeBoundedPamCore P matrix core spec = .ok c) :
    Partitions c matrix.ids ↔ LastPassKeeps P matrix spec := by
  simp only [buildBoundedPamCore, bind_ok, check_ok, pure_ok] at hcore
  obtain ⟨-, ⟨hone, hsize, -⟩, prepared, hprep, radius, hrad, s, hs, rfl⟩ := hcore
  rw [distance_fromMatrix hprep] at hs
  simp only [materializeBoundedPamCore, bind_ok, check_ok] at h
  obtain ⟨-, ⟨hk, hdst, hiterations, -⟩, hc⟩ := h
  have hpamSize : pamSize matrix spec.k = .ok k.toNat := by
    rw [hk, pamSize, check, if_pos ⟨hone, hsize⟩]
    rfl
  rw [← hdst] at hrad
  rw [← hiterations] at hs
  rw [lastPassKeeps_iff hpamSize hrad]
  -- the core keeps the members of the medoids it keeps
  refine partitions_iff_keepsMembers hs iterations_pos ((pamCatalog_congr ?_).trans hc)
  intro medoid hmem
  have hnd : s.medoids.Nodup := by
    have hpos : 1 ≤ spec.maxIterations.toNat := iterations_pos
    obtain ⟨n, hn⟩ := Nat.exists_eq_add_of_le' hpos
    rw [pamLoop, hn] at hs
    obtain ⟨_, _, -, -, -, -, -, hnd⟩ :=
      pamLoop_spec (matrix.nodup.sublist (take_sublist _ _)) hs
    exact hnd
  have hkeys : ((s.medoids.map fun m => (m, s.clustering.members m)).map Prod.fst).Nodup := by
    simpa [map_map, Function.comp_def] using hnd
  rw [BoundedPamCore.members, Dict.get?_ofItems_of_mem hkeys (mem_map_of_mem hmem)]
  rfl

/-! ## All methods -/

/-- Three records on a line, the second between the others. -/
def sampleMatrix : DistanceMatrix where
  ids := [py "A", py "B", py "C"]
  values := [(py "A|B", py "1"), (py "A|C", py "2"), (py "B|C", py "1")]
  nodup := by decide +kernel

/-- One medoid, one iteration. -/
def sampleSpec : FamilyMethodSpec where
  methodId := py "BOUNDED_PAM"
  configurationId := py "CONFIG"
  k := some 1
  maxIterations := 1

end OvcReplay.Srfd
