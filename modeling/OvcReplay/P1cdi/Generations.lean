import OvcReplay.P1cdi.Bundles

/-! # Histories of assignments

Calls of `assign_series_generation` one after another, each over the bundles of the calls before it:
one generation for each identity, one first generation for each series. -/

namespace OvcReplay.P1cdi

open List Python Json

variable {P : Platform}

/-! ## The exact matches -/

variable {owner fields : PyVal}

/-- Two identities are exactly equal iff their bytes are. -/
theorem exactSemanticEqual_eq {p : Parts} (h : p.Sound P) {generationId bytes : PyStr}
    (hbytes : identityBytes P owner fields = .ok bytes) :
    exactSemanticEqual P (projectionOf P generationId owner fields bytes) (p.projection P) =
      .ok (decide (bytes = p.bytes)) := by
  have hboth : bytesOfBoth P (projectionOf P generationId owner fields bytes) (p.projection P) =
      .ok (bytes, p.bytes) := by
    refine bind_intro (bind_ok.mpr ⟨(), check_ok.mpr rfl, hbytes⟩) ?_
    exact bind_intro (bind_ok.mpr ⟨(), check_ok.mpr rfl, h.bytes_eq⟩) rfl
  unfold exactSemanticEqual
  rw [hboth]
  dsimp only
  congr 1
  rw [decide_eq_decide]
  constructor
  · exact fun hall => hall.2.2.2
  · rintro rfl
    exact ⟨rfl, rfl, rfl, rfl⟩

variable {ps : List Parts}

/-- The exact matches are the bundles with these bytes. -/
theorem exactBundles_eq {bs : List Bundle} (hkept : Kept P ps)
    (hmem : ∀ b, b ∈ bs ↔ ∃ p ∈ ps, p.bundle P = b) (generationId : PyStr) {bytes : PyStr}
    (hbytes : identityBytes P owner fields = .ok bytes) :
    ∃ exact, exactBundles P (projectionOf P generationId owner fields bytes) bs = .ok exact ∧
      ∀ b, b ∈ exact ↔ ∃ p ∈ ps, p.bundle P = b ∧ p.bytes = bytes := by
  have hcompare : ∀ p ∈ ps,
      ((exactSemanticEqual P (projectionOf P generationId owner fields bytes)
        (p.bundle P).projection).mapError Error.python).map (fun same => (p.bundle P, same)) =
          .ok (p.bundle P, decide (bytes = p.bytes)) := by
    intro p hp
    rw [show (p.bundle P).projection = p.projection P from rfl,
      exactSemanticEqual_eq (hkept.sound p hp) hbytes]
    rfl
  have hrets : Returns (bs.mapM fun b =>
      ((exactSemanticEqual P (projectionOf P generationId owner fields bytes)
        b.projection).mapError Error.python).map fun same => (b, same)) := by
    rw [returns_mapM]
    intro b hb
    obtain ⟨p, hp, rfl⟩ := (hmem b).mp hb
    exact ⟨_, hcompare p hp⟩
  obtain ⟨compared, hcompared⟩ := hrets
  refine ⟨_, bind_intro hcompared rfl, fun b => ?_⟩
  rw [mem_map]
  constructor
  · rintro ⟨item, hitem, rfl⟩
    obtain ⟨hmember, hsame⟩ := mem_filter.mp hitem
    obtain ⟨b, hb, hbitem⟩ := mem_of_mapM_right hcompared hmember
    obtain ⟨p, hp, rfl⟩ := (hmem b).mp hb
    cases (hcompare p hp).symm.trans hbitem
    exact ⟨p, hp, rfl, (of_decide_eq_true hsame).symm⟩
  · rintro ⟨p, hp, rfl, rfl⟩
    obtain ⟨item, hitem, hpitem⟩ :=
      mem_of_mapM_left hcompared ((hmem _).mpr ⟨p, hp, rfl⟩)
    cases (hcompare p hp).symm.trans hpitem
    exact ⟨_, mem_filter.mpr ⟨hitem, decide_eq_true rfl⟩, rfl⟩

theorem length_dedup_le_one {xs : List PyVal} {x : PyVal} (h : ∀ y ∈ xs, y = x) :
    xs.dedup.length ≤ 1 := by
  have hnd := nodup_dedup xs
  have hall : ∀ y ∈ xs.dedup, y = x := fun y hy => h y (mem_dedup.mp hy)
  generalize xs.dedup = ys at hnd hall
  match ys with
  | [] => exact Nat.zero_le _
  | [_] => exact le_rfl
  | a :: b :: _ =>
    have hab : a = b := (hall a (by simp)).trans (hall b (by simp)).symm
    exact absurd hab (ne_of_not_mem_cons (nodup_cons.mp hnd).1)

/-! ## One assignment -/

/-- What is returned for an identity that is known. -/
def rediscovered (b : Bundle) : Assignment :=
  { resolution := .exactRediscovery, bundle := b, created := false
    predecessorGenerationId := .none, sourceExplicitSuccessorRef := none }

/-- **A known identity is found again.** -/
theorem resolveCandidate_of_known {bs : List Bundle} (hkept : Kept P ps)
    (hmem : ∀ b, b ∈ bs ↔ ∃ p ∈ ps, p.bundle P = b) {generationId : PyStr} {p : Parts} (hp : p ∈ ps)
    (hbytes : identityBytes P owner fields = .ok p.bytes) (call : AssignCall) (time : Datetime) :
    resolveCandidate P call time (projectionOf P generationId owner fields p.bytes) bs =
      .ok (rediscovered (p.bundle P)) := by
  obtain ⟨exact, hexact, hmatch⟩ := exactBundles_eq hkept hmem generationId hbytes
  have hall : ∀ b ∈ exact, b = p.bundle P := by
    intro b hb
    obtain ⟨q, hq, rfl, hqbytes⟩ := (hmatch b).mp hb
    rw [hkept.identity q hq p hp hqbytes]
  have hone : (exact.map fun b => b.generation.generationId).dedup.length ≤ 1 := by
    refine length_dedup_le_one (x := (p.bundle P).generation.generationId) fun y hy => ?_
    obtain ⟨b, hb, rfl⟩ := mem_map.mp hy
    rw [hall b hb]
  have hin : p.bundle P ∈ exact := (hmatch _).mpr ⟨p, hp, rfl, rfl⟩
  refine bind_intro hexact (bind_ok.mpr ⟨(), require_ok.mpr hone, ?_⟩)
  cases exact with
  | nil => exact absurd hin not_mem_nil
  | cons known rest =>
    rw [hall known (by simp)]
    rfl

variable (P) in
/-- The parts of a new generation, of a known series or of a series of its own. -/
structure New (ps : List Parts) (q : Parts) : Prop where
  sound : q.Sound P
  fresh : ∀ p ∈ ps, p.bytes ≠ q.bytes
  series : (∃ p ∈ ps, p.seriesId = q.seriesId ∧ p.firstGenerationId = q.firstGenerationId) ∨
    (q.firstGenerationId = q.generationId ∧
      seriesIdOf P (.str q.owner) (.str (q.sha P)) = .ok q.seriesId)

variable {call : AssignCall}

/-- The series of a successor is one of those that are kept. -/
theorem predecessorSeries_ok {bs : List Bundle} (hmem : ∀ b, b ∈ bs ↔ ∃ p ∈ ps, p.bundle P = b)
    {time : Datetime} {series : Series} (h : predecessorSeries P call time bs = .ok series) :
    ∃ p ∈ ps, series = p.series := by
  obtain ⟨_, -, h⟩ := bind_ok.mp h
  cases hfilt : bs.filter fun b =>
      decide (b.generation.generationId = call.predecessorGenerationId) with
  | nil =>
    rw [hfilt] at h
    cases h
  | cons predecessor rest =>
    have hin : predecessor ∈ bs :=
      (mem_filter.mp (hfilt ▸ mem_cons_self)).1
    obtain ⟨p, hp, rfl⟩ := (hmem predecessor).mp hin
    rw [hfilt] at h
    cases rest with
    | nil =>
      obtain ⟨_, -, h⟩ := bind_ok.mp h
      obtain ⟨_, -, h⟩ := bind_ok.mp h
      obtain ⟨_, -, h⟩ := bind_ok.mp h
      exact ⟨p, hp, (Except.ok.inj h).symm⟩
    | cons => cases h

variable {a : Assignment}

/-- **What a new generation consists of.** -/
theorem createGeneration_ok {generationId bytes : PyStr} {owner time : PyStr}
    {series : Option Series} (howner : call.ownerSemanticBinding = .str owner)
    (hbytes : identityBytes P (.str owner) call.identityFields = .ok bytes)
    (htime : call.sourceFirstValidTime = .str time)
    (hparsed : Returns (parseTime P (.str time) "source_first_valid_time"))
    (hfresh : ∀ p ∈ ps, p.bytes ≠ bytes) (hkept : Kept P ps)
    (hser : ∀ known, series = some known → ∃ p ∈ ps, known = p.series)
    (h : createGeneration P call
      (projectionOf P generationId (.str owner) call.identityFields bytes) series = .ok a) :
    ∃ q, New P ps q ∧ a.bundle = q.bundle P ∧ q.bytes = bytes := by
  obtain ⟨seriesId, hid, h⟩ := bind_ok.mp h
  obtain ⟨gid, hgid, h⟩ := bind_ok.mp h
  obtain ⟨projection, hproj, h⟩ := bind_ok.mp h
  cases h
  have hid := mapError_ok.mp hid
  have hgid := mapError_ok.mp hgid
  have hproj := mapError_ok.mp hproj
  rw [howner] at hproj
  obtain ⟨⟨⟩, -, hproj⟩ := bind_ok.mp hproj
  obtain ⟨bytes', hbytes', hproj⟩ := bind_ok.mp hproj
  obtain rfl : bytes' = bytes := Except.ok.inj (hbytes'.symm.trans hbytes)
  cases hproj
  rw [htime] at hgid
  obtain ⟨s, -, hgidEq⟩ := generationIdOf_ok hgid
  have hgidFilled := filled_id (P := P) "p1:generation:" (by decide +kernel) s
  rw [← hgidEq] at hgidFilled
  cases series with
  | some known =>
    obtain ⟨p, hp, rfl⟩ := hser known rfl
    cases hid
    have hsound := hkept.sound p hp
    refine ⟨⟨owner, call.identityFields, bytes', p.seriesId, p.firstGenerationId, gid, time⟩,
      ⟨⟨hbytes, hgid, hparsed, hsound.seriesId_filled, hsound.first_filled⟩, hfresh,
        .inl ⟨p, hp, rfl, rfl⟩⟩, ?_, rfl⟩
    rw [htime]
    rfl
  | none =>
    obtain ⟨sid, hsid, rfl⟩ := map_ok.mp hid
    rw [howner] at hsid
    obtain ⟨t, -, hsidEq⟩ := seriesIdOf_ok hsid
    have hsidFilled := filled_id (P := P) "p1:series:" (by decide +kernel) t
    rw [← hsidEq] at hsidFilled
    refine ⟨⟨owner, call.identityFields, bytes', sid, gid, gid, time⟩,
      ⟨⟨hbytes, hgid, hparsed, hsidFilled, hgidFilled⟩, hfresh, .inr ⟨rfl, hsid⟩⟩, ?_, rfl⟩
    rw [htime]
    rfl

variable {existing : List Bundle}

/-- What a call asks for, once its owner, its time and its fields are read. -/
theorem assign_ok (h : assignSeriesGeneration P call existing = .ok a) :
    ∃ owner time d bytes bundles, call.ownerSemanticBinding = .str owner ∧
      call.sourceFirstValidTime = .str time ∧
      Returns (parseTime P (.str time) "source_first_valid_time") ∧
      identityBytes P (.str owner) call.identityFields = .ok bytes ∧
      reconcileIdentityBundles P existing = .ok bundles ∧
      resolveCandidate P call d (projectionOf P (py "p1:candidate:unassigned") (.str owner)
        call.identityFields bytes) bundles = .ok a := by
  obtain ⟨owner, howner, h⟩ := bind_ok.mp h
  obtain ⟨howner, -⟩ := requireString_ok howner
  obtain ⟨d, hd, h⟩ := bind_ok.mp h
  obtain ⟨time, htime, -, hparse⟩ := parseTime_ok hd
  obtain ⟨candidate, hcand, h⟩ := bind_ok.mp h
  obtain ⟨bundles, hbundles, h⟩ := bind_ok.mp h
  have hcand := mapError_ok.mp hcand
  rw [howner] at hcand
  obtain ⟨⟨⟩, -, hcand⟩ := bind_ok.mp hcand
  obtain ⟨bytes, hbytes, hcand⟩ := bind_ok.mp hcand
  cases hcand
  exact ⟨owner, time, d, bytes, bundles, howner, htime, ⟨d, hparse _⟩, hbytes, hbundles, h⟩

/-- **What an assignment over kept bundles returns**: a bundle that is kept, or a new one. -/
theorem assign_cases (hkept : Kept P ps)
    (h : assignSeriesGeneration P call (ps.map fun p => p.bundle P) = .ok a) :
    ∃ q, (q ∈ ps ∨ New P ps q) ∧ a.bundle = q.bundle P ∧
      identityBytes P call.ownerSemanticBinding call.identityFields = .ok q.bytes := by
  obtain ⟨owner, time, d, bytes, bundles, howner, htime, hparsed, hbytes, hbundles, hresol⟩ :=
    assign_ok h
  obtain ⟨state, hholds, hrun⟩ := reconcile_eq hkept
  cases hrun.symm.trans hbundles
  have hmem (b : Bundle) : b ∈ inIdOrder state.byGeneration ↔ ∃ p ∈ ps, p.bundle P = b :=
    hholds.mem_inIdOrder hkept
  rw [howner]
  by_cases hknown : ∃ p ∈ ps, p.bytes = bytes
  · obtain ⟨p, hp, rfl⟩ := hknown
    rw [resolveCandidate_of_known hkept hmem hp hbytes] at hresol
    cases hresol
    exact ⟨p, .inl hp, rfl, hbytes⟩
  · have hfresh : ∀ p ∈ ps, p.bytes ≠ bytes := fun p hp heq => hknown ⟨p, hp, heq⟩
    obtain ⟨exact, hexact, hmatch⟩ :=
      exactBundles_eq hkept hmem (py "p1:candidate:unassigned") hbytes
    obtain rfl : exact = [] := by
      rw [eq_nil_iff_forall_not_mem]
      intro b hb
      obtain ⟨p, hp, -, hpbytes⟩ := (hmatch b).mp hb
      exact hfresh p hp hpbytes
    obtain ⟨exact', hexact', hresol⟩ := bind_ok.mp hresol
    cases hexact.symm.trans hexact'
    obtain ⟨⟨⟩, -, hresol⟩ := bind_ok.mp hresol
    have hnew : ∃ q, New P ps q ∧ a.bundle = q.bundle P ∧ q.bytes = bytes := by
      dsimp only at hresol
      split_ifs at hresol with hpred
      · obtain ⟨series, hser, hcreate⟩ := bind_ok.mp hresol
        refine createGeneration_ok howner hbytes htime hparsed hfresh hkept ?_ hcreate
        intro known hsome
        cases hsome
        exact predecessorSeries_ok hmem hser
      · obtain ⟨⟨⟩, -, hcreate⟩ := bind_ok.mp hresol
        exact createGeneration_ok howner hbytes htime hparsed hfresh hkept (fun _ h => by cases h)
          hcreate
    obtain ⟨q, hq, hbundle, rfl⟩ := hnew
    exact ⟨q, .inr hq, hbundle, hbytes⟩

/-! ## Without collisions -/

variable (P) in
/-- The bytes of a bundle's identity. -/
def identityText (b : Bundle) : Except PyError PyStr :=
  identityBytes P b.projection.ownerSemanticBinding b.projection.identityFields

variable (P) in
/-- The texts that are hashed for a bundle: its identity, its generation and its series. -/
def hashedTexts (bs : List Bundle) : List PyStr :=
  bs.flatMap fun b =>
    [identityText P b,
      canonicalJsonBytes P (.ofRecord [(py "series_id", b.generation.seriesId),
        (py "projection_sha256", b.generation.projectionSha256),
        (py "source_first_valid_time", b.generation.sourceFirstValidTime)]),
      canonicalJsonBytes P (.ofRecord [(py "owner", b.projection.ownerSemanticBinding),
        (py "projection_sha256", b.projection.projectionSha256)])].filterMap Except.toOption

theorem mem_hashedTexts {bs : List Bundle} {b : Bundle} (hb : b ∈ bs) {t : PyStr}
    (h : identityText P b = .ok t ∨
      canonicalJsonBytes P (.ofRecord [(py "series_id", b.generation.seriesId),
        (py "projection_sha256", b.generation.projectionSha256),
        (py "source_first_valid_time", b.generation.sourceFirstValidTime)]) = .ok t ∨
      canonicalJsonBytes P (.ofRecord [(py "owner", b.projection.ownerSemanticBinding),
        (py "projection_sha256", b.projection.projectionSha256)]) = .ok t) :
    t ∈ hashedTexts P bs := by
  refine mem_flatMap.mpr ⟨b, hb, mem_filterMap.mpr ?_⟩
  rcases h with h | h | h
  · exact ⟨_, mem_cons_self, by rw [h]; rfl⟩
  · exact ⟨_, mem_cons_of_mem _ mem_cons_self, by rw [h]; rfl⟩
  · exact ⟨_, mem_cons_of_mem _ (mem_cons_of_mem _ mem_cons_self), by rw [h]; rfl⟩

section Collisions

variable {bs : List Bundle} {p q : Parts}
  (hfree : P.CollisionFreeOn (· ∈ hashedTexts P bs)) (hp : p.bundle P ∈ bs) (hq : q.bundle P ∈ bs)

include hfree

theorem eq_of_sha256Hex {s t : PyStr} (hs : s ∈ hashedTexts P bs) (ht : t ∈ hashedTexts P bs)
    (h : sha256Hex P s = sha256Hex P t) : s = t :=
  hfree s t hs ht (HexDigest.ext h)

include hp hq

/-- Equal hashes of identities are those of one identity. -/
theorem bytes_eq_of_sha (hsp : p.Sound P) (hsq : q.Sound P) (h : p.sha P = q.sha P) :
    p.bytes = q.bytes :=
  eq_of_sha256Hex hfree (mem_hashedTexts hp (.inl hsp.bytes_eq))
    (mem_hashedTexts hq (.inl hsq.bytes_eq)) h

/-- **Generations with one id have one identity.** -/
theorem bytes_eq_of_generationId (hsp : p.Sound P) (hsq : q.Sound P)
    (h : p.generationId = q.generationId) : p.bytes = q.bytes := by
  obtain ⟨s, hs, hsid⟩ := generationIdOf_ok hsp.generationId_eq
  obtain ⟨t, ht, htid⟩ := generationIdOf_ok hsq.generationId_eq
  have hhash : sha256Hex P s = sha256Hex P t :=
    append_cancel_left (hsid.symm.trans (h.trans htid))
  obtain rfl : s = t := eq_of_sha256Hex hfree (mem_hashedTexts hp (.inr (.inl hs)))
    (mem_hashedTexts hq (.inr (.inl ht))) hhash
  have hnd : (Dict.keys [(py "series_id", p.seriesId), (py "projection_sha256", p.sha P),
      (py "source_first_valid_time", p.time)]).Nodup := by
    simp
  have hget := textRecord_inj _ [(py "series_id", q.seriesId), (py "projection_sha256", q.sha P),
    (py "source_first_valid_time", q.time)] hnd hs ht (py "projection_sha256")
  have hsha : p.sha P = q.sha P := by simpa using hget
  exact bytes_eq_of_sha hfree hp hq hsp hsq hsha

/-- **First generations of one series have one identity.** -/
theorem bytes_eq_of_seriesId (hsp : p.Sound P) (hsq : q.Sound P) {id : PyStr}
    (h : seriesIdOf P (.str p.owner) (.str (p.sha P)) = .ok id)
    (h' : seriesIdOf P (.str q.owner) (.str (q.sha P)) = .ok id) : p.bytes = q.bytes := by
  obtain ⟨s, hs, hsid⟩ := seriesIdOf_ok h
  obtain ⟨t, ht, htid⟩ := seriesIdOf_ok h'
  have hhash : sha256Hex P s = sha256Hex P t := append_cancel_left (hsid.symm.trans htid)
  obtain rfl : s = t := eq_of_sha256Hex hfree (mem_hashedTexts hp (.inr (.inr hs)))
    (mem_hashedTexts hq (.inr (.inr ht))) hhash
  have hnd : (Dict.keys [(py "owner", p.owner), (py "projection_sha256", p.sha P)]).Nodup := by
    simp
  have hget := textRecord_inj _ [(py "owner", q.owner), (py "projection_sha256", q.sha P)]
    hnd hs ht (py "projection_sha256")
  have hsha : p.sha P = q.sha P := by simpa using hget
  exact bytes_eq_of_sha hfree hp hq hsp hsq hsha

end Collisions

/-- What holds of any two members of a list and of each of them with one more. -/
theorem forall_append_singleton {α : Type} {R : α → α → Prop} {xs : List α} {y : α}
    (h : ∀ a ∈ xs, ∀ b ∈ xs, R a b) (hright : ∀ a ∈ xs, R a y) (hleft : ∀ b ∈ xs, R y b)
    (hself : R y y) : ∀ a ∈ xs ++ [y], ∀ b ∈ xs ++ [y], R a b := by
  intro a ha b hb
  rcases mem_append.mp ha with ha' | ha'
  · rcases mem_append.mp hb with hb' | hb'
    · exact h a ha' b hb'
    · rw [mem_singleton.mp hb']
      exact hright a ha'
  · rw [mem_singleton.mp ha']
    rcases mem_append.mp hb with hb' | hb'
    · exact hleft b hb'
    · rw [mem_singleton.mp hb']
      exact hself

/-- **A new generation keeps what is kept.** -/
theorem Kept.add {q : Parts} (h : Kept P ps) (hq : New P ps q)
    (hfree : P.CollisionFreeOn (· ∈ hashedTexts P ((ps ++ [q]).map fun p => p.bundle P))) :
    Kept P (ps ++ [q]) := by
  have hin {p : Parts} (hp : p ∈ ps ++ [q]) :
      p.bundle P ∈ (ps ++ [q]).map fun p => p.bundle P := mem_map_of_mem hp
  have hlast : q ∈ ps ++ [q] := by simp
  have hold {p : Parts} (hp : p ∈ ps) : p ∈ ps ++ [q] := mem_append_left _ hp
  have hsound : ∀ p ∈ ps ++ [q], p.Sound P := by
    intro p hp
    rcases mem_append.mp hp with hp | hp
    · exact h.sound p hp
    · exact mem_singleton.mp hp ▸ hq.sound
  -- an old bundle shares neither its generation nor, with a series of its own, its series
  have hgen : ∀ p ∈ ps, p.generationId ≠ q.generationId := fun p hp heq =>
    hq.fresh p hp (bytes_eq_of_generationId hfree (hin (hold hp)) (hin hlast) (h.sound p hp)
      hq.sound heq)
  have hser : ∀ p ∈ ps, p.seriesId = q.seriesId →
      p.firstGenerationId = q.firstGenerationId := by
    intro p hp heq
    rcases hq.series with ⟨r, hr, hrs, hrf⟩ | ⟨-, hroot⟩
    · rw [h.series p hp r hr (heq.trans hrs.symm), hrf]
    · obtain ⟨f, hf, -, -, -, hfroot⟩ := h.first p hp
      rw [heq] at hfroot
      exact absurd (bytes_eq_of_seriesId hfree (hin (hold hf)) (hin hlast) (h.sound f hf) hq.sound
        hfroot hroot) (hq.fresh f hf)
  refine ⟨hsound, ?_, ?_, ?_, ?_⟩
  · intro p hp
    rcases mem_append.mp hp with hp | hp
    · obtain ⟨f, hf, hfst⟩ := h.first p hp
      exact ⟨f, hold hf, hfst⟩
    · obtain rfl := mem_singleton.mp hp
      rcases hq.series with ⟨r, hr, hrs, hrf⟩ | ⟨hfst, hroot⟩
      · obtain ⟨f, hf, hid, hff, hfs, hroot⟩ := h.first r hr
        exact ⟨f, hold hf, hid.trans hrf, hff.trans hrf, hfs.trans hrs, hrs ▸ hroot⟩
      · exact ⟨p, hlast, hfst.symm, rfl, rfl, hroot⟩
  · refine forall_append_singleton h.series hser (fun r hr heq => ?_) fun _ => rfl
    exact (hser r hr heq.symm).symm
  · refine forall_append_singleton h.identity (fun p hp heq => ?_) (fun r hr heq => ?_) fun _ => rfl
    · exact absurd heq (hq.fresh p hp)
    · exact absurd heq.symm (hq.fresh r hr)
  · refine forall_append_singleton h.generation (fun p hp heq => ?_) (fun r hr heq => ?_)
      fun _ => rfl
    · exact absurd heq (hgen p hp)
    · exact absurd heq.symm (hgen r hr)

/-! ## Histories -/

variable (P) in
/-- **Calls one after another**: the bundle of each call that returns is added to those that
exist. -/
def accumulate : List AssignCall → List Bundle → List Bundle
  | [], existing => existing
  | call :: calls, existing =>
    match assignSeriesGeneration P call existing with
    | .ok a => accumulate calls (existing ++ [a.bundle])
    | .error _ => accumulate calls existing

theorem accumulate_cons_ok {calls : List AssignCall}
    (h : assignSeriesGeneration P call existing = .ok a) :
    accumulate P (call :: calls) existing = accumulate P calls (existing ++ [a.bundle]) := by
  rw [accumulate, h]

theorem accumulate_cons_error {calls : List AssignCall} {e : Error}
    (h : assignSeriesGeneration P call existing = .error e) :
    accumulate P (call :: calls) existing = accumulate P calls existing := by
  rw [accumulate, h]

theorem accumulate_append (before after : List AssignCall) (existing : List Bundle) :
    accumulate P (before ++ after) existing =
      accumulate P after (accumulate P before existing) := by
  induction before generalizing existing with
  | nil => rfl
  | cons call before ih =>
    rw [cons_append]
    cases h : assignSeriesGeneration P call existing with
    | ok a => rw [accumulate_cons_ok h, accumulate_cons_ok h, ih]
    | error e => rw [accumulate_cons_error h, accumulate_cons_error h, ih]

/-- No bundle is ever lost. -/
theorem subset_accumulate (calls : List AssignCall) (existing : List Bundle) :
    existing ⊆ accumulate P calls existing := by
  induction calls generalizing existing with
  | nil => exact Subset.refl _
  | cons call calls ih =>
    cases h : assignSeriesGeneration P call existing with
    | ok a =>
      rw [accumulate_cons_ok h]
      exact Subset.trans (subset_append_left _ _) (ih _)
    | error e =>
      rw [accumulate_cons_error h]
      exact ih _

theorem collisionFreeOn_mono {bs cs : List Bundle} (hsub : bs ⊆ cs)
    (hfree : P.CollisionFreeOn (· ∈ hashedTexts P cs)) :
    P.CollisionFreeOn (· ∈ hashedTexts P bs) := by
  have hmem : ∀ t, t ∈ hashedTexts P bs → t ∈ hashedTexts P cs := by
    intro t ht
    obtain ⟨b, hb, htb⟩ := mem_flatMap.mp ht
    exact mem_flatMap.mpr ⟨b, hsub hb, htb⟩
  exact fun s t hs ht => hfree s t (hmem s hs) (hmem t ht)

/-- **One call keeps what is kept.** -/
theorem kept_step (hkept : Kept P ps)
    (h : assignSeriesGeneration P call (ps.map fun p => p.bundle P) = .ok a)
    (hfree : P.CollisionFreeOn (· ∈ hashedTexts P ((ps.map fun p => p.bundle P) ++ [a.bundle]))) :
    ∃ q, Kept P (ps ++ [q]) ∧ a.bundle = q.bundle P ∧
      identityBytes P call.ownerSemanticBinding call.identityFields = .ok q.bytes := by
  obtain ⟨q, hq, hbundle, hbytes⟩ := assign_cases hkept h
  refine ⟨q, ?_, hbundle, hbytes⟩
  rcases hq with hq | hq
  · refine hkept.congr fun p => ?_
    rw [mem_append, mem_singleton]
    exact ⟨fun hp => hp.elim id fun heq => heq ▸ hq, .inl⟩
  · refine hkept.add hq ?_
    rw [map_append, map_singleton, ← hbundle]
    exact hfree

/-- **What is kept is kept by a whole history.** -/
theorem kept_accumulate (calls : List AssignCall) (hkept : Kept P ps)
    (hfree : P.CollisionFreeOn
      (· ∈ hashedTexts P (accumulate P calls (ps.map fun p => p.bundle P)))) :
    ∃ qs, accumulate P calls (ps.map fun p => p.bundle P) = qs.map (fun p => p.bundle P) ∧
      Kept P qs ∧ ps ⊆ qs := by
  induction calls generalizing ps with
  | nil => exact ⟨ps, rfl, hkept, Subset.refl _⟩
  | cons call calls ih =>
    cases h : assignSeriesGeneration P call (ps.map fun p => p.bundle P) with
    | error e =>
      rw [accumulate_cons_error h] at hfree ⊢
      exact ih hkept hfree
    | ok a =>
      rw [accumulate_cons_ok h] at hfree ⊢
      obtain ⟨q, hq, hbundle, -⟩ :=
        kept_step hkept h (collisionFreeOn_mono (subset_accumulate _ _) hfree)
      have hmap : (ps.map fun p => p.bundle P) ++ [a.bundle] =
          (ps ++ [q]).map fun p => p.bundle P := by
        rw [map_append, map_singleton, hbundle]
      rw [hmap] at hfree ⊢
      obtain ⟨qs, hqs, hkept', hsub⟩ := ih hq hfree
      exact ⟨qs, hqs, hkept', Subset.trans (subset_append_left _ _) hsub⟩

theorem kept_nil : Kept P [] := by
  refine ⟨?_, ?_, ?_, ?_, ?_⟩ <;> exact fun p hp => absurd hp not_mem_nil

/-! ## What holds of every history -/

/-- The bundle is the first generation of its series. -/
def Bundle.IsFirst (b : Bundle) : Prop :=
  b.generation.generationId = b.series.firstGenerationId

variable (P) in
/-- **One generation for each identity and one first generation for each series**, whatever the
order of the bundles that exist. -/
structure WellAssigned (bs : List Bundle) : Prop where
  accepted : Returns (reconcileIdentityBundles P bs)
  one_generation : ∀ b ∈ bs, ∀ c ∈ bs, identityText P b = identityText P c → b = c
  one_first : ∀ b ∈ bs, ∃ f ∈ bs, f.IsFirst ∧ f.series = b.series ∧
    (∃ id, b.series.seriesId = .str id ∧
      seriesIdOf P f.projection.ownerSemanticBinding f.projection.projectionSha256 = .ok id) ∧
    ∀ c ∈ bs, c.IsFirst → c.series.seriesId = b.series.seriesId → c = f
  order : ∀ existing : List Bundle, (∀ b, b ∈ existing ↔ b ∈ bs) → ∀ call,
    assignSeriesGeneration P call existing = assignSeriesGeneration P call bs

theorem Kept.wellAssigned (h : Kept P ps) : WellAssigned P (ps.map fun p => p.bundle P) := by
  have htext {p : Parts} (hp : p ∈ ps) : identityText P (p.bundle P) = .ok p.bytes :=
    (h.sound p hp).bytes_eq
  refine ⟨?_, ?_, ?_, ?_⟩
  · obtain ⟨state, -, hrun⟩ := reconcile_eq h
    exact ⟨_, hrun⟩
  · intro b hb c hc heq
    obtain ⟨p, hp, rfl⟩ := mem_map.mp hb
    obtain ⟨q, hq, rfl⟩ := mem_map.mp hc
    rw [htext hp, htext hq] at heq
    rw [h.identity p hp q hq (Except.ok.inj heq)]
  · intro b hb
    obtain ⟨p, hp, rfl⟩ := mem_map.mp hb
    obtain ⟨f, hf, hid, hfst, hser, hroot⟩ := h.first p hp
    refine ⟨f.bundle P, mem_map_of_mem hf, ?_, ?_, ⟨p.seriesId, rfl, hroot⟩, ?_⟩
    · exact congrArg PyVal.str (hid.trans hfst.symm)
    · show f.series = p.series
      rw [Parts.series, Parts.series, hser, hfst]
    · intro c hc hcfirst hcseries
      obtain ⟨q, hq, rfl⟩ := mem_map.mp hc
      have hqfirst : q.generationId = q.firstGenerationId := PyVal.str.inj hcfirst
      have hqseries : q.seriesId = p.seriesId := PyVal.str.inj hcseries
      have hsame := h.series q hq p hp hqseries
      rw [h.generation q hq f hf (hqfirst.trans (hsame.trans hid.symm))]
  · intro existing hmem call
    have hbundles (b : Bundle) : b ∈ existing ↔ ∃ p ∈ ps, p.bundle P = b := by
      rw [hmem b, mem_map]
    have hcongr := reconcile_congr h hbundles
    unfold assignSeriesGeneration
    rw [hcongr]

/-- **A known identity is found again**, whatever the time and the predecessor of the call. -/
theorem assign_of_known (hkept : Kept P ps) {p : Parts} (hp : p ∈ ps)
    (hbytes : identityBytes P call.ownerSemanticBinding call.identityFields = .ok p.bytes)
    (htime : Returns (parseTime P call.sourceFirstValidTime "source_first_valid_time")) :
    assignSeriesGeneration P call (ps.map fun p => p.bundle P) =
      .ok (rediscovered (p.bundle P)) := by
  obtain ⟨⟨owner, howner, hne, -⟩, -⟩ := identityBytes_ok hbytes
  obtain ⟨d, hd⟩ := htime
  obtain ⟨state, hholds, hrun⟩ := reconcile_eq hkept
  have hcand : buildSemanticProjection P (py "p1:candidate:unassigned")
      call.ownerSemanticBinding call.identityFields = .ok (projectionOf P
        (py "p1:candidate:unassigned") call.ownerSemanticBinding call.identityFields p.bytes) :=
    bind_ok.mpr ⟨(), check_ok.mpr (by decide +kernel),
      bind_ok.mpr ⟨p.bytes, hbytes, rfl⟩⟩
  refine bind_ok.mpr ⟨owner, by rw [howner]; exact requireString_str hne _, ?_⟩
  refine bind_ok.mpr ⟨d, hd, ?_⟩
  refine bind_ok.mpr ⟨_, mapError_ok.mpr hcand, ?_⟩
  refine bind_ok.mpr ⟨_, hrun, ?_⟩
  exact resolveCandidate_of_known hkept (fun b => hholds.mem_inIdOrder hkept) hp hbytes call d

/-- **Series and generations.** In every history of calls that starts without bundles, the bundles
are accepted, each identity has one generation and each series one first generation from which its
id is derived, and a later call with the identity of an earlier one finds that generation again. -/
theorem series_generations (calls : List AssignCall)
    (hfree : P.CollisionFreeOn (· ∈ hashedTexts P (accumulate P calls []))) :
    WellAssigned P (accumulate P calls []) ∧
    ∀ (before after : List AssignCall) (call : AssignCall) (a : Assignment),
      calls = before ++ call :: after →
      assignSeriesGeneration P call (accumulate P before []) = .ok a →
      ∀ again : AssignCall, identityBytes P again.ownerSemanticBinding again.identityFields =
          identityBytes P call.ownerSemanticBinding call.identityFields →
        Returns (parseTime P again.sourceFirstValidTime "source_first_valid_time") →
        assignSeriesGeneration P again (accumulate P calls []) = .ok (rediscovered a.bundle) := by
  constructor
  · obtain ⟨qs, hqs, hkept, -⟩ := kept_accumulate calls kept_nil hfree
    rw [show accumulate P calls [] = qs.map fun p => p.bundle P from hqs]
    exact hkept.wellAssigned
  · rintro before after call a rfl hassign again hsame htime
    have hsplit : accumulate P (before ++ call :: after) [] =
        accumulate P after (accumulate P before [] ++ [a.bundle]) := by
      rw [accumulate_append, accumulate_cons_ok hassign]
    rw [hsplit] at hfree ⊢
    have hfree' := collisionFreeOn_mono (subset_accumulate _ _) hfree
    obtain ⟨ps, hps, hkept, -⟩ := kept_accumulate before kept_nil
      (collisionFreeOn_mono (subset_append_left _ _) hfree')
    have hps : accumulate P before [] = ps.map fun p => p.bundle P := hps
    rw [hps] at hassign hfree' hfree ⊢
    obtain ⟨q, hq, hbundle, hbytes⟩ := kept_step hkept hassign hfree'
    have hmap : (ps.map fun p => p.bundle P) ++ [a.bundle] =
        (ps ++ [q]).map fun p => p.bundle P := by
      rw [map_append, map_singleton, hbundle]
    rw [hmap] at hfree ⊢
    obtain ⟨qs, hqs, hkept', hsub⟩ := kept_accumulate after hq hfree
    rw [hqs, hbundle]
    exact assign_of_known hkept' (hsub (by simp)) (hsame.trans hbytes) htime

/-- The identity fields of a unit of this type. -/
def fieldsOf (unitType : String) : PyVal :=
  .dict (identityFieldNames.map fun name =>
    (.str (py name), if name = "unit_type" then .str (py unitType) else .none))

/-- The first call of a history. -/
def firstCall : AssignCall :=
  { ownerSemanticBinding := .str (py "P1"), identityFields := fieldsOf "LEVEL"
    sourceFirstValidTime := .str (py "2024-01-02T00:00:00Z") }

/-- A successor of the generation that the first call makes. -/
def successorCall : AssignCall :=
  { ownerSemanticBinding := .str (py "P1"), identityFields := fieldsOf "ZONE"
    sourceFirstValidTime := .str (py "2024-01-03T00:00:00Z")
    predecessorGenerationId :=
      ((accumulate .reference [firstCall] []).head?.map fun b =>
        b.generation.generationId).getD .none
    sourceExplicitSuccessorRef := .str (py "R") }

/-- A new series, a successor of it, and the first identity again. -/
def history : List AssignCall := [firstCall, successorCall, firstCall]

theorem collisionFreeOn_of_nodup {texts : List PyStr}
    (h : (texts.dedup.map fun s => (P.sha256 s).text).Nodup) :
    P.CollisionFreeOn (· ∈ texts) := by
  intro s t hs ht heq
  exact inj_on_of_nodup_map h (mem_dedup.mpr hs) (mem_dedup.mpr ht)
    (congrArg HexDigest.text heq)

theorem series_generations_history : (accumulate .reference history []).length = 3 ∧
      WellAssigned .reference (accumulate .reference history []) :=
  ⟨by decide +kernel,
    (series_generations history (collisionFreeOn_of_nodup (by decide +kernel))).1⟩

end OvcReplay.P1cdi
