import OvcReplay.P1cdi.Reference

/-! # Bundles that are kept

What a bundle that `assign_series_generation` makes consists of, what holds of all bundles that have
been made, and what `_reconcile_identity_bundles` makes of them. -/

namespace OvcReplay.P1cdi

open List Python Json

variable (P : Platform)

/-! ## The parts of a bundle -/

/-- What a bundle is made of. -/
structure Parts where
  owner : PyStr
  fields : PyVal
  bytes : PyStr
  seriesId : PyStr
  firstGenerationId : PyStr
  generationId : PyStr
  time : PyStr
  deriving DecidableEq

namespace Parts

variable (p : Parts)

/-- `projection_sha256`. -/
def sha : PyStr := sha256Hex P p.bytes

def series : Series := seriesRecord (.str p.seriesId) (.str p.firstGenerationId)

def generation : Generation :=
  generationRecord (.str p.generationId) (.str p.seriesId) (.str (p.sha P)) (.str p.time)

def projection : Projection :=
  projectionOf P p.generationId (.str p.owner) p.fields p.bytes

/-- The bundle of the parts. -/
def bundle : Bundle := ⟨p.series, p.generation P, p.projection P⟩

@[simp] theorem generationId_bundle : (p.bundle P).generationId = p.generationId := rfl

@[simp] theorem seriesId_bundle : (p.bundle P).seriesId = p.seriesId := rfl

/-- The ids and hashes are those of the contents. -/
structure Sound (p : Parts) : Prop where
  bytes_eq : identityBytes P (.str p.owner) p.fields = .ok p.bytes
  generationId_eq : generationIdOf P (.str p.seriesId) (.str (p.sha P)) (.str p.time) =
    .ok p.generationId
  time_eq : Returns (parseTime P (.str p.time) "source_first_valid_time")
  seriesId_filled : p.seriesId ≠ [] ∧ Encodable p.seriesId
  first_filled : p.firstGenerationId ≠ [] ∧ Encodable p.firstGenerationId

end Parts

variable {P}

/-! ## Ids and times -/

theorem require_ok {condition : Prop} [Decidable condition] {message : String} {u : Unit} :
    require condition message = .ok u ↔ condition := check_ok

theorem requireString_str {s : PyStr} (h : s ≠ []) (field : String) :
    requireString (.str s) field = .ok s := by
  cases s with
  | nil => exact absurd rfl h
  | cons c s => rfl

theorem requireString_ok {v : PyVal} {field : String} {s : PyStr}
    (h : requireString v field = .ok s) : v = .str s ∧ s ≠ [] := by
  unfold requireString at h
  split at h
  · cases h
  · rename_i hne
    cases h
    exact ⟨rfl, fun hnil => hne (by rw [hnil])⟩
  · cases h

/-- A time that is read is a text that is not empty. -/
theorem parseTime_ok {v : PyVal} {field : String} {d : Datetime}
    (h : parseTime P v field = .ok d) :
    ∃ s, v = .str s ∧ s ≠ [] ∧ ∀ field', parseTime P (.str s) field' = .ok d := by
  obtain ⟨s, hs, hread⟩ := bind_ok.mp h
  clear h
  obtain ⟨rfl, hne⟩ := requireString_ok hs
  refine ⟨s, rfl, hne, fun field' => bind_intro (requireString_str hne field') ?_⟩
  cases hparsed : P.fromIsoFormat (replaceZ s) with
  | none =>
    rw [hparsed] at hread
    cases hread
  | some parsed =>
    rw [hparsed] at hread
    dsimp only at hread ⊢
    by_cases hoffset : parsed.utcOffset = none
    · rw [if_pos hoffset] at hread
      cases hread
    · rw [if_neg hoffset] at hread ⊢
      exact hread

theorem canonicalSha256_ok {v : PyVal} {h : PyStr} :
    canonicalSha256 P v = .ok h ↔ ∃ s, canonicalJsonBytes P v = .ok s ∧ sha256Hex P s = h := by
  rw [canonicalSha256, map_ok]

/-- A generation's id is written with a hash of its series, its identity and its time. -/
theorem generationIdOf_ok {v w t : PyVal} {id : PyStr} (h : generationIdOf P v w t = .ok id) :
    ∃ s, canonicalJsonBytes P (.ofRecord [(py "series_id", v), (py "projection_sha256", w),
      (py "source_first_valid_time", t)]) = .ok s ∧ id = py "p1:generation:" ++ sha256Hex P s := by
  obtain ⟨_, hsha, rfl⟩ := map_ok.mp h
  obtain ⟨s, hs, rfl⟩ := canonicalSha256_ok.mp hsha
  exact ⟨s, hs, rfl⟩

theorem seriesIdOf_ok {v w : PyVal} {id : PyStr} (h : seriesIdOf P v w = .ok id) :
    ∃ s, canonicalJsonBytes P (.ofRecord [(py "owner", v), (py "projection_sha256", w)]) = .ok s ∧
      id = py "p1:series:" ++ sha256Hex P s := by
  obtain ⟨_, hsha, rfl⟩ := map_ok.mp h
  obtain ⟨s, hs, rfl⟩ := canonicalSha256_ok.mp hsha
  exact ⟨s, hs, rfl⟩

theorem encodable_sha256Hex (s : PyStr) : Encodable (sha256Hex P s) := (P.sha256 s).encodable

/-- An id is not empty and can be encoded. -/
theorem filled_id (pre : String) (hpre : py pre ≠ []) (s : PyStr) :
    py pre ++ sha256Hex P s ≠ [] ∧ Encodable (py pre ++ sha256Hex P s) := by
  refine ⟨fun h => hpre (append_eq_nil_iff.mp h).1, ?_⟩
  exact encodable_append.mpr ⟨encodable_py pre, encodable_sha256Hex s⟩

/-- The identity of an owner and its fields. -/
theorem identityBytes_ok {owner fields : PyVal} {bytes : PyStr}
    (h : identityBytes P owner fields = .ok bytes) :
    (∃ s, owner = .str s ∧ s ≠ [] ∧ Encodable s) ∧ Returns (canonicalJsonBytes P fields) := by
  obtain ⟨payload, hpay, hbytes⟩ := bind_ok.mp h
  obtain ⟨⟨⟩, howner, hpay⟩ := bind_ok.mp hpay
  obtain ⟨⟨⟩, -, hpay⟩ := bind_ok.mp hpay
  obtain ⟨copied, hcopied, hpay⟩ := bind_ok.mp hpay
  cases hpay
  have hcopy : copied = fields := by
    unfold copyJsonValue at hcopied
    split_ifs at hcopied
    exact (Except.ok.inj hcopied).symm
  subst hcopy
  have hall := (returns_canonicalJsonBytes_ofRecord _).mp ⟨bytes, hbytes⟩
  refine ⟨?_, (hall (py "identity_fields", copied) (by simp)).2⟩
  cases owner with
  | str s =>
    have henc := (hall (py "owner_semantic_binding", .str s) (by simp)).2
    exact ⟨s, rfl, check_ok.mp howner, returns_canonicalJsonBytes_str.mp henc⟩
  | _ => cases howner

/-! ## Sound parts -/

namespace Parts.Sound

variable {p : Parts}

theorem generationId_filled (h : p.Sound P) : p.generationId ≠ [] ∧ Encodable p.generationId := by
  obtain ⟨s, -, hid⟩ := generationIdOf_ok h.generationId_eq
  rw [hid]
  exact filled_id "p1:generation:" (by decide +kernel) s

theorem owner_encodable (h : p.Sound P) : Encodable p.owner := by
  obtain ⟨⟨s, hs, -, henc⟩, -⟩ := identityBytes_ok h.bytes_eq
  obtain rfl := PyVal.str.inj hs
  exact henc

theorem time_encodable (h : p.Sound P) : Encodable p.time := by
  obtain ⟨s, hs, -⟩ := generationIdOf_ok h.generationId_eq
  have hall := (returns_canonicalJsonBytes_ofRecord _).mp ⟨s, hs⟩
  exact returns_canonicalJsonBytes_str.mp (hall (py "source_first_valid_time", _) (by simp)).2

theorem time_ne_nil (h : p.Sound P) : p.time ≠ [] := by
  obtain ⟨d, hd⟩ := h.time_eq
  obtain ⟨s, hs, hne, -⟩ := parseTime_ok hd
  obtain rfl := PyVal.str.inj hs
  exact hne

/-- The records of a bundle have canonical bytes. -/
theorem returns_projection (h : p.Sound P) :
    Returns (canonicalJsonBytes P (.ofRecord (p.projection P).toRecord)) := by
  have hflds := (identityBytes_ok h.bytes_eq).2
  rw [returns_canonicalJsonBytes_ofRecord]
  simp only [Projection.toRecord, projection, projectionOf, forall_mem_cons,
    returns_canonicalJsonBytes_str, encodable_py, hflds, h.owner_encodable,
    h.generationId_filled.2, encodable_sha256Hex, profileId, not_mem_nil, false_implies,
    implies_true, and_true]

theorem returns_generation (h : p.Sound P) :
    Returns (canonicalJsonBytes P (.ofRecord (p.generation P).toRecord)) := by
  have htrue : Returns (canonicalJsonBytes P (.bool true)) :=
    ⟨py "true", by
      refine canonicalJsonBytes_ok.mpr ⟨.bool true, by simp [dumps, dumpsWith], rfl, ?_⟩
      exact encodable_py _⟩
  rw [returns_canonicalJsonBytes_ofRecord]
  simp only [Generation.toRecord, generation, generationRecord, sha, forall_mem_cons,
    returns_canonicalJsonBytes_str, encodable_py, htrue, h.generationId_filled.2,
    h.seriesId_filled.2, h.time_encodable, encodable_sha256Hex, profileId, not_mem_nil,
    false_implies, implies_true, and_true]

theorem returns_series (h : p.Sound P) :
    Returns (canonicalJsonBytes P (.ofRecord p.series.toRecord)) := by
  have hnil : Returns (canonicalJsonBytes P (.list [])) :=
    ⟨py "[]", by
      refine canonicalJsonBytes_ok.mpr ⟨.arr [], by rw [dumps_list]; rfl, ?_, encodable_py _⟩
      decide +kernel⟩
  rw [returns_canonicalJsonBytes_ofRecord]
  simp only [Series.toRecord, series, seriesRecord, forall_mem_cons,
    returns_canonicalJsonBytes_str, encodable_py, hnil, h.seriesId_filled.2,
    h.first_filled.2, not_mem_nil, false_implies, implies_true, and_true]

theorem returns_bundle (h : p.Sound P) :
    Returns (canonicalJsonBytes P (.ofRecord (p.bundle P).toRecord)) := by
  rw [returns_canonicalJsonBytes_ofRecord]
  simp only [Bundle.toRecord, bundle, forall_mem_cons, encodable_py,
    h.returns_series, h.returns_generation, h.returns_projection, not_mem_nil, false_implies,
    implies_true, and_true]

theorem validateProjection_eq (h : p.Sound P) :
    validateProjection P (p.projection P) = .ok (p.projection P) := by
  obtain ⟨bytes, hbytes⟩ := h.returns_projection
  have hcanon : canonicalBytes P (p.projection P).toRecord = .ok bytes :=
    mapError_ok.mpr hbytes
  have hbuild : buildSemanticProjection P p.generationId (.str p.owner) p.fields =
      .ok (p.projection P) := by
    refine bind_ok.mpr ⟨(), check_ok.mpr h.generationId_filled.1, ?_⟩
    exact bind_ok.mpr ⟨p.bytes, h.bytes_eq, rfl⟩
  refine bind_ok.mpr ⟨(), require_ok.mpr rfl, ?_⟩
  refine bind_ok.mpr ⟨(), require_ok.mpr ⟨rfl, rfl⟩, ?_⟩
  refine bind_ok.mpr ⟨(), require_ok.mpr rfl, ?_⟩
  refine bind_ok.mpr ⟨p.generationId, requireString_str h.generationId_filled.1 _, ?_⟩
  refine bind_ok.mpr ⟨p.projection P, mapError_ok.mpr hbuild, ?_⟩
  refine bind_ok.mpr ⟨bytes, hcanon, ?_⟩
  refine bind_ok.mpr ⟨bytes, hcanon, ?_⟩
  exact bind_ok.mpr ⟨(), require_ok.mpr rfl, rfl⟩

/-- **A bundle of sound parts is validated as it is.** -/
theorem identityBundle_eq (h : p.Sound P) (hroot : p.firstGenerationId = p.generationId →
      seriesIdOf P (.str p.owner) (.str (p.sha P)) = .ok p.seriesId) :
    identityBundle P (p.bundle P) = .ok (p.bundle P) := by
  obtain ⟨d, hd⟩ := h.time_eq
  have hbytes : projectionBytes P (p.projection P) = .ok p.bytes :=
    bind_ok.mpr ⟨(), check_ok.mpr rfl, h.bytes_eq⟩
  have hcheck : checkRoot P p.series p.seriesId p.generationId (p.projection P) (p.sha P) =
      .ok () := by
    unfold checkRoot
    split_ifs with hfst
    · have hser := hroot (PyVal.str.inj hfst)
      exact bind_ok.mpr ⟨p.seriesId, mapError_ok.mpr hser, require_ok.mpr rfl⟩
    · rfl
  refine bind_ok.mpr ⟨(), require_ok.mpr rfl, ?_⟩
  refine bind_ok.mpr ⟨(), require_ok.mpr rfl, ?_⟩
  refine bind_ok.mpr ⟨(), require_ok.mpr rfl, ?_⟩
  refine bind_ok.mpr ⟨(), require_ok.mpr ⟨rfl, rfl, rfl⟩, ?_⟩
  refine bind_ok.mpr ⟨(), require_ok.mpr ⟨rfl, rfl, rfl⟩, ?_⟩
  refine bind_ok.mpr ⟨(), require_ok.mpr ⟨rfl, rfl⟩, ?_⟩
  refine bind_ok.mpr ⟨p.projection P, h.validateProjection_eq, ?_⟩
  refine bind_ok.mpr ⟨p.seriesId, requireString_str h.seriesId_filled.1 _, ?_⟩
  refine bind_ok.mpr ⟨p.generationId, requireString_str h.generationId_filled.1 _, ?_⟩
  refine bind_ok.mpr ⟨p.firstGenerationId, requireString_str h.first_filled.1 _, ?_⟩
  refine bind_ok.mpr ⟨(), require_ok.mpr rfl, ?_⟩
  refine bind_ok.mpr ⟨(), require_ok.mpr rfl, ?_⟩
  refine bind_ok.mpr ⟨(), require_ok.mpr rfl, ?_⟩
  refine bind_ok.mpr ⟨(), require_ok.mpr rfl, ?_⟩
  refine bind_ok.mpr ⟨(), require_ok.mpr rfl, ?_⟩
  refine bind_ok.mpr ⟨p.bytes, mapError_ok.mpr hbytes, ?_⟩
  refine bind_ok.mpr ⟨(), require_ok.mpr rfl, ?_⟩
  refine bind_ok.mpr ⟨p.time, requireString_str h.time_ne_nil _, ?_⟩
  refine bind_ok.mpr ⟨d, hd, ?_⟩
  refine bind_ok.mpr ⟨p.generationId, mapError_ok.mpr h.generationId_eq, ?_⟩
  refine bind_ok.mpr ⟨(), require_ok.mpr rfl, ?_⟩
  exact bind_ok.mpr ⟨(), hcheck, rfl⟩

end Parts.Sound

/-! ## What is kept -/

variable (P) in
/-- **What holds of all bundles that have been made**: each is sound, each series starts with a
generation among them from which its id is derived, and neither an identity nor a generation id is
used twice. -/
structure Kept (ps : List Parts) : Prop where
  sound : ∀ p ∈ ps, p.Sound P
  first : ∀ p ∈ ps, ∃ f ∈ ps, f.generationId = p.firstGenerationId ∧
    f.firstGenerationId = p.firstGenerationId ∧ f.seriesId = p.seriesId ∧
    seriesIdOf P (.str f.owner) (.str (f.sha P)) = .ok p.seriesId
  series : ∀ p ∈ ps, ∀ q ∈ ps, p.seriesId = q.seriesId → p.firstGenerationId = q.firstGenerationId
  identity : ∀ p ∈ ps, ∀ q ∈ ps, p.bytes = q.bytes → p = q
  generation : ∀ p ∈ ps, ∀ q ∈ ps, p.generationId = q.generationId → p = q

/-- Only which bundles there are matters. -/
theorem Kept.congr {ps qs : List Parts} (h : Kept P ps) (hmem : ∀ p, p ∈ qs ↔ p ∈ ps) :
    Kept P qs where
  sound p hp := h.sound p ((hmem p).mp hp)
  first p hp := by
    obtain ⟨f, hf, hfst⟩ := h.first p ((hmem p).mp hp)
    exact ⟨f, (hmem f).mpr hf, hfst⟩
  series p hp q hq := h.series p ((hmem p).mp hp) q ((hmem q).mp hq)
  identity p hp q hq := h.identity p ((hmem p).mp hp) q ((hmem q).mp hq)
  generation p hp q hq := h.generation p ((hmem p).mp hp) q ((hmem q).mp hq)

variable {ps : List Parts}

theorem Kept.identityBundle_eq (h : Kept P ps) {p : Parts} (hp : p ∈ ps) :
    identityBundle P (p.bundle P) = .ok (p.bundle P) := by
  refine (h.sound p hp).identityBundle_eq fun hroot => ?_
  obtain ⟨f, hf, hid, -, -, hser⟩ := h.first p hp
  obtain rfl : f = p := h.generation f hf p hp (hid.trans hroot)
  exact hser

/-! ## The loop of the reconciliation -/

theorem get?_setDefault {β : Type} (d : Dict PyStr β) (key q : PyStr) (value : β) :
    Dict.get? (setDefault d key value) q =
      if (d.get? key).isSome then d.get? q
      else if key = q then some value else d.get? q := by
  unfold setDefault
  split_ifs with h hq
  · rfl
  · rw [Dict.get?_set, if_pos hq]
  · rw [Dict.get?_set, if_neg hq]

theorem nodup_keys_setDefault {β : Type} {d : Dict PyStr β} (hd : d.keys.Nodup)
    (key : PyStr) (value : β) : (Dict.keys (setDefault d key value)).Nodup := by
  unfold setDefault
  split_ifs
  · exact hd
  · exact Dict.nodup_keys_set hd _ _

variable (P) in
/-- The two dictionaries hold the bundles that were seen. -/
structure Holds (seen : List Parts) (state : Reconciling) : Prop where
  nodup : state.byGeneration.keys.Nodup
  generations : ∀ g e, state.byGeneration.get? g = some e ↔
    ∃ p ∈ seen, p.generationId = g ∧ canonicalBytes P (p.bundle P).toRecord = .ok e.1 ∧
      e.2 = p.bundle P
  series : ∀ s e, state.seriesBytes.get? s = some e →
    ∃ p ∈ seen, p.seriesId = s ∧ canonicalBytes P p.series.toRecord = .ok e

theorem returns_canonicalBytes {r : Record} (h : Returns (canonicalJsonBytes P (.ofRecord r))) :
    ∃ bytes, canonicalBytes P r = .ok bytes := by
  obtain ⟨bytes, hbytes⟩ := h
  exact ⟨bytes, mapError_ok.mpr hbytes⟩

/-- **One bundle more.** -/
theorem reconcileStep_eq {ps seen : List Parts} {state : Reconciling} {p : Parts}
    (hkept : Kept P ps) (hseen : seen ⊆ ps) (hp : p ∈ ps) (h : Holds P seen state) :
    ∃ state', reconcileStep P state (p.bundle P) = .ok state' ∧ Holds P (seen ++ [p]) state' := by
  have hsound := hkept.sound p hp
  obtain ⟨bytes, hbytes⟩ := returns_canonicalBytes hsound.returns_bundle
  obtain ⟨observed, hobs⟩ := returns_canonicalBytes hsound.returns_series
  have hprior : ∀ known, state.byGeneration.get? p.generationId = some known →
      known.1 = bytes ∧ known.2 = p.bundle P ∧ p ∈ seen := by
    intro known hknown
    obtain ⟨q, hq, hid, hqbytes, hbundle⟩ := (h.generations _ _).mp hknown
    obtain rfl : q = p := hkept.generation q (hseen hq) p hp hid
    exact ⟨Except.ok.inj (hqbytes.symm.trans hbytes), hbundle, hq⟩
  have hser : ∀ known, state.seriesBytes.get? p.seriesId = some known →
      known = observed := by
    intro known hknown
    obtain ⟨q, hq, hid, hqbytes⟩ := h.series _ _ hknown
    have hfst := hkept.series q (hseen hq) p hp hid
    have hsame : q.series = p.series := by
      rw [Parts.series, Parts.series, hid, hfst]
    rw [hsame] at hqbytes
    exact Except.ok.inj (hqbytes.symm.trans hobs)
  refine ⟨_, bind_intro hbytes (bind_ok.mpr ⟨(), require_ok.mpr
    fun known hknown => (hprior known hknown).1, bind_ok.mpr ⟨observed, hobs,
      bind_ok.mpr ⟨(), require_ok.mpr hser, rfl⟩⟩⟩), ?_⟩
  refine ⟨nodup_keys_setDefault h.nodup _ _, ?_, ?_⟩
  · intro g e
    show Dict.get? (setDefault state.byGeneration p.generationId (bytes, p.bundle P)) g = _ ↔ _
    rw [get?_setDefault]
    have hnew : (∃ q ∈ seen ++ [p], q.generationId = g ∧
        canonicalBytes P (q.bundle P).toRecord = .ok e.1 ∧ e.2 = q.bundle P) ↔
          (state.byGeneration.get? g = some e ∨
            (p.generationId = g ∧ canonicalBytes P (p.bundle P).toRecord = .ok e.1 ∧
              e.2 = p.bundle P)) := by
      rw [h.generations g e]
      simp only [mem_append, mem_singleton, or_and_right, exists_or, exists_eq_left]
    rw [hnew]
    cases hget : state.byGeneration.get? p.generationId with
    | some known =>
      rw [Option.isSome_some, if_pos rfl]
      constructor
      · exact Or.inl
      · rintro (hold | ⟨rfl, hq, he⟩)
        · exact hold
        · obtain ⟨hkbytes, hkbundle, -⟩ := hprior known hget
          rw [hget]
          congr 1
          exact Prod.ext (hkbytes.trans (Except.ok.inj (hbytes.symm.trans hq)))
            (hkbundle.trans he.symm)
    | none =>
      rw [Option.isSome_none, if_neg Bool.false_ne_true]
      by_cases hg : p.generationId = g
      · subst hg
        rw [if_pos rfl, hget]
        constructor
        · intro he
          cases he
          exact .inr ⟨rfl, hbytes, rfl⟩
        · rintro (hold | ⟨-, hq, he⟩)
          · cases hold
          · congr 1
            exact Prod.ext (Except.ok.inj (hbytes.symm.trans hq)) he.symm
      · rw [if_neg hg]
        exact ⟨.inl, fun hold => hold.resolve_right fun hq => hg hq.1⟩
  · intro s e he
    have he : Dict.get? (setDefault state.seriesBytes p.seriesId observed) s = some e := he
    rw [get?_setDefault] at he
    have hold : state.seriesBytes.get? s = some e → ∃ q ∈ seen ++ [p], q.seriesId = s ∧
        canonicalBytes P q.series.toRecord = .ok e := by
      intro hs
      obtain ⟨q, hq, hqs⟩ := h.series s e hs
      exact ⟨q, mem_append_left _ hq, hqs⟩
    split_ifs at he with hsome hs
    · exact hold he
    · cases he
      exact ⟨p, by simp, hs, hobs⟩
    · exact hold he

/-- **All bundles, one after the other.** -/
theorem foldlM_reconcileStep (hkept : Kept P ps) (rest seen : List Parts) (state : Reconciling)
    (hseen : seen ⊆ ps) (hrest : rest ⊆ ps) (h : Holds P seen state) :
    ∃ state', (rest.map fun p => p.bundle P).foldlM (reconcileStep P) state = .ok state' ∧
      Holds P (seen ++ rest) state' := by
  induction rest generalizing seen state with
  | nil => exact ⟨state, rfl, by rwa [append_nil]⟩
  | cons p rest ih =>
    have hp : p ∈ ps := hrest (by simp)
    obtain ⟨next, hnext, hholds⟩ := reconcileStep_eq hkept hseen hp h
    have hsub : seen ++ [p] ⊆ ps := by
      intro q hq
      rcases mem_append.mp hq with hq | hq
      · exact hseen hq
      · exact mem_singleton.mp hq ▸ hp
    obtain ⟨state', hrun, hholds'⟩ :=
      ih (seen ++ [p]) next hsub (fun q hq => hrest (mem_cons_of_mem _ hq)) hholds
    refine ⟨state', ?_, ?_⟩
    · rw [map_cons, foldlM_cons]
      exact bind_intro hnext hrun
    · rwa [append_assoc, singleton_append] at hholds'

/-! ## The reconciled bundles -/

/-- The order depends on the dictionary only. -/
theorem inIdOrder_congr {d e : Dict PyStr (PyStr × Bundle)} (hd : d.keys.Nodup)
    (he : e.keys.Nodup) (h : Dict.Same d e) : inIdOrder d = inIdOrder e := by
  unfold inIdOrder
  congr 1
  refine sortedBy_eq_of_perm ?_ (h.perm hd he)
  rintro ⟨k, v⟩ ha ⟨k', w⟩ hb hab
  obtain rfl : k = k' := hab
  rw [Option.some.inj ((Dict.get?_of_mem hd ha).symm.trans (Dict.get?_of_mem hd hb))]

/-- The bundles are those that were seen. -/
theorem Holds.mem_inIdOrder {state : Reconciling} (hkept : Kept P ps) (h : Holds P ps state)
    {b : Bundle} :
    b ∈ inIdOrder state.byGeneration ↔ ∃ p ∈ ps, p.bundle P = b := by
  unfold inIdOrder
  rw [mem_map]
  constructor
  · rintro ⟨⟨g, e⟩, hitem, rfl⟩
    have hget := Dict.get?_of_mem h.nodup (mem_sortedBy.mp hitem)
    obtain ⟨p, hp, -, -, he⟩ := (h.generations g e).mp hget
    exact ⟨p, hp, he.symm⟩
  · rintro ⟨p, hp, rfl⟩
    obtain ⟨bytes, hbytes⟩ := returns_canonicalBytes (hkept.sound p hp).returns_bundle
    have hget := (h.generations p.generationId (bytes, p.bundle P)).mpr ⟨p, hp, rfl, hbytes, rfl⟩
    exact ⟨_, mem_sortedBy.mpr (Dict.mem_of_get? hget), rfl⟩

/-- Every series starts with one of the reconciled bundles. -/
theorem checkFirst_eq {reconciled : List Bundle} (hkept : Kept P ps)
    (hmem : ∀ b, b ∈ reconciled ↔ ∃ p ∈ ps, p.bundle P = b) {p : Parts} (hp : p ∈ ps) :
    checkFirst P reconciled (p.bundle P) = .ok () := by
  obtain ⟨f, hf, hid, -, hser, hroot⟩ := hkept.first p hp
  have hfind : (reconciled.find? fun b =>
      b.generation.generationId = (p.bundle P).series.firstGenerationId) = some (f.bundle P) := by
    have hsome : (reconciled.find? fun b => b.generation.generationId =
        (p.bundle P).series.firstGenerationId).isSome := by
      rw [List.find?_isSome]
      exact ⟨f.bundle P, (hmem _).mpr ⟨f, hf, rfl⟩, decide_eq_true (congrArg PyVal.str hid)⟩
    obtain ⟨b, hb⟩ := Option.isSome_iff_exists.mp hsome
    obtain ⟨q, hq, rfl⟩ := (hmem b).mp (mem_of_find?_eq_some hb)
    have hfound := List.find?_some hb
    have hqid : q.generationId = p.firstGenerationId := PyVal.str.inj (of_decide_eq_true hfound)
    obtain rfl : q = f := hkept.generation q hq f hf (hqid.trans hid.symm)
    exact hb
  unfold checkFirst
  rw [hfind]
  refine bind_ok.mpr ⟨(), require_ok.mpr ?_, ?_⟩
  · exact ⟨congrArg PyVal.str hser, congrArg PyVal.str hser⟩
  · exact bind_ok.mpr ⟨p.seriesId, mapError_ok.mpr hroot, require_ok.mpr rfl⟩

/-- **Kept bundles are accepted**, and what is made of them are these bundles. -/
theorem reconcile_eq (hkept : Kept P ps) : ∃ state, Holds P ps state ∧
      reconcileIdentityBundles P (ps.map fun p => p.bundle P) =
        .ok (inIdOrder state.byGeneration) := by
  have hvalidated : (ps.map fun p => p.bundle P).mapM (identityBundle P) =
      .ok (ps.map fun p => p.bundle P) := by
    rw [mapM_ok_iff, forall₂_same]
    intro b hb
    obtain ⟨p, hp, rfl⟩ := mem_map.mp hb
    exact hkept.identityBundle_eq hp
  have hempty : Holds P [] ⟨[], []⟩ := by
    refine ⟨nodup_nil, fun g e => ?_, fun s e he => ?_⟩
    · simp
    · simp at he
  obtain ⟨state, hrun, hholds⟩ :=
    foldlM_reconcileStep hkept ps [] ⟨[], []⟩ (nil_subset _) (Subset.refl _) hempty
  rw [nil_append] at hholds
  refine ⟨state, hholds, ?_⟩
  refine bind_intro hvalidated (bind_ok.mpr ⟨state, hrun, ?_⟩)
  refine bind_intro (forM_ok.mpr fun b hb => ?_) rfl
  obtain ⟨p, hp, rfl⟩ := (hholds.mem_inIdOrder hkept).mp hb
  exact checkFirst_eq hkept (fun b => hholds.mem_inIdOrder hkept) hp

/-- The dictionaries of the same bundles are equal. -/
theorem Holds.same {ps qs : List Parts} {s t : Reconciling} (hs : Holds P ps s) (ht : Holds P qs t)
    (hmem : ∀ p, p ∈ qs ↔ p ∈ ps) : Dict.Same s.byGeneration t.byGeneration := by
  intro g
  apply Option.ext
  intro e
  rw [hs.generations, ht.generations]
  simp only [hmem]

/-- **Order and repetition do not matter.** -/
theorem reconcile_congr (hkept : Kept P ps) {bs : List Bundle}
    (hmem : ∀ b, b ∈ bs ↔ ∃ p ∈ ps, p.bundle P = b) :
    reconcileIdentityBundles P bs = reconcileIdentityBundles P (ps.map fun p => p.bundle P) := by
  obtain ⟨qs, hqs, rfl⟩ : ∃ qs : List Parts, qs ⊆ ps ∧ qs.map (fun p => p.bundle P) = bs := by
    have hall : ∀ b ∈ bs, ∃ p ∈ ps, p.bundle P = b := fun b hb => (hmem b).mp hb
    clear hmem
    induction bs with
    | nil => exact ⟨[], nil_subset _, rfl⟩
    | cons b bs ih =>
      obtain ⟨qs, hsub, hmap⟩ := ih fun c hc => hall c (mem_cons_of_mem _ hc)
      obtain ⟨p, hp, hpb⟩ := hall b (by simp)
      exact ⟨p :: qs, cons_subset.mpr ⟨hp, hsub⟩, by rw [map_cons, hpb, hmap]⟩
  have hparts : ∀ p, p ∈ qs ↔ p ∈ ps := by
    refine fun p => ⟨fun hp => hqs hp, fun hp => ?_⟩
    obtain ⟨q, hq, hqp⟩ := mem_map.mp ((hmem (p.bundle P)).mpr ⟨p, hp, rfl⟩)
    have hid : q.generationId = p.generationId := congrArg Bundle.generationId hqp
    exact hkept.generation q (hqs hq) p hp hid ▸ hq
  obtain ⟨s, hs, hrun⟩ := reconcile_eq hkept
  obtain ⟨t, ht, hrun'⟩ := reconcile_eq (hkept.congr hparts)
  rw [hrun, hrun', inIdOrder_congr ht.nodup hs.nodup (hs.same ht hparts).symm]

end OvcReplay.P1cdi
