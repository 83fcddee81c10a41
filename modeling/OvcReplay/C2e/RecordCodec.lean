import OvcReplay.C2e.Models

/-! # The record codec of C2E v0.2

What `build_record` and `validate_record` have to do with each other: a built record is validated
and returned as it is, and what is validated is a built record whose set-like lists may stand in
another order. -/

namespace OvcReplay.C2e

open List Python

variable {P : Platform} {kind : RecordKind}

/-! ## Equal dictionaries have one hash -/

variable {r s : Record}

/-- The canonical bytes do not depend on the order of the fields. -/
theorem sha256Hex_same (hr : r.keys.Nodup) (hs : s.keys.Nodup) (h : Dict.Same r s) :
    sha256Hex P (.ofRecord r) = sha256Hex P (.ofRecord s) := by
  have hsort : sortedBy Prod.fst r = sortedBy Prod.fst s := by
    refine sortedBy_eq_of_perm ?_ (h.perm hr hs)
    intro a ha b hb hab
    obtain ⟨k, v⟩ := a
    obtain ⟨k', w⟩ := b
    obtain rfl : k = k' := hab
    have hv := Dict.get?_of_mem hr ha
    have hw := Dict.get?_of_mem hr hb
    rw [Option.some.inj (hv.symm.trans hw)]
  have hcanon : canonicalize P (.ofRecord r) = canonicalize P (.ofRecord s) := by
    rw [canonicalize_ofRecord, canonicalize_ofRecord, hsort]
  rw [sha256Hex, sha256Hex, canonicalBytes, canonicalBytes, canonicalTree, canonicalTree, hcanon]

theorem logicalRecordHash_same (hr : r.keys.Nodup) (hs : s.keys.Nodup)
    (h : Dict.Same r s) :
    logicalRecordHash P r = logicalRecordHash P s := by
  refine sha256Hex_same (Dict.nodup_keys_filter hr _) (Dict.nodup_keys_filter hs _) fun q => ?_
  rw [Dict.get?_filter_keys fun k => k ≠ py "logical_hash",
    Dict.get?_filter_keys fun k => k ≠ py "logical_hash", h q]

/-! ## The fields of the caller -/

/-- The two agree on every field that `build_record` does not add. -/
def SameFields (kind : RecordKind) (r s : Record) : Prop :=
  ∀ q, q ∉ kind.reserved → r.get? q = s.get? q

theorem py_notMem_reserved {s : String}
    (h : s ∉ ["schema", kind.spec.idField, "logical_hash"]) : py s ∉ kind.reserved :=
  fun hs => h (py_mem_map.mp hs)

/-- No field is required, or identifies a record, that `build_record` adds. -/
theorem required_notMem_reserved (kind : RecordKind) :
    ∀ field ∈ kind.spec.required, py field ∉ kind.reserved := by
  intro field hfield
  refine py_notMem_reserved ?_
  revert field
  cases kind <;> decide

theorem reserved_notMem_sorted (kind : RecordKind) :
    ∀ q ∈ kind.reserved, q ∉ sortedListFields.map py := by
  intro q hq
  obtain ⟨field, hfield, rfl⟩ : ∃ field ∈ ["schema", kind.spec.idField, "logical_hash"],
      py field = q := mem_map.mp hq
  rw [py_mem_map]
  revert field
  cases kind <;> decide

variable {q : PyStr}

theorem lookup_congr (h : r.get? q = s.get? q) : lookup r q = lookup s q := by
  rw [lookup, lookup, h]

theorem present_congr (h : r.get? q = s.get? q) : Present r q ↔ Present s q := by
  rw [Present, Present, h]

theorem notMem_keys_congr (h : r.get? q = s.get? q) :
    q ∉ r.keys ↔ q ∉ s.keys := by
  rw [← Dict.get?_eq_none_iff, ← Dict.get?_eq_none_iff, h]

theorem returns_checkKind_congr (h : SameFields kind r s) :
    Returns (checkKind kind r) ↔ Returns (checkKind kind s) := by
  have hlkup {field : String} (hf : field ∉ ["schema", kind.spec.idField, "logical_hash"]) :
      lookup r (py field) = lookup s (py field) := lookup_congr (h _ (py_notMem_reserved hf))
  have hkeys {field : String} (hf : field ∉ ["schema", kind.spec.idField, "logical_hash"]) :
      py field ∉ r.keys ↔ py field ∉ s.keys :=
    notMem_keys_congr (h _ (py_notMem_reserved hf))
  cases kind with
  | episodeGenesis =>
    simp only [checkKind, returns_forM, returns_requireModel]
    refine forall₂_congr fun field hfield => hkeys ?_
    revert field
    decide
  | remapRecord | checkpoint =>
    unfold checkKind
    dsimp only
    rw [hlkup (by decide), hlkup (by decide)]
  | sriHandoff =>
    have hforbidden : (∀ field ∈ sriForbidden, py field ∉ r.keys) ↔
        ∀ field ∈ sriForbidden, py field ∉ s.keys := by
      refine forall₂_congr fun field hfield => hkeys ?_
      revert field
      decide
    unfold checkKind
    dsimp only
    rw [hlkup (by decide)]
    simp only [returns_bind, requireModel, check_ok, hforbidden]
  | _ => exact Iff.rfl

theorem recordId_congr (h : SameFields kind r s) : recordId P kind r = recordId P kind s := by
  have hident : identityPayload kind r = identityPayload kind s := by
    unfold identityPayload
    refine mapM_congr fun field hfield => ?_
    rw [lookup_congr (h _ (required_notMem_reserved kind field
      (kind.identity_subset_required hfield)))]
  rw [recordId, recordId, hident]

/-! ## Sealing -/

/-- `build_record` seals the canonical fields in this record. -/
structure Seals (P : Platform) (kind : RecordKind) (fields record : Record) (id hash : PyStr) :
    Prop where
  required : ∀ field ∈ kind.spec.required, Present fields (py field)
  checks : Returns (checkKind kind fields)
  recordId_eq : recordId P kind fields = .ok id
  hash_eq : logicalRecordHash P (withIdentity kind fields id) = .ok hash
  record_eq : record = Dict.set (withIdentity kind fields id) (py "logical_hash") (.str hash)

variable {payload built : Record}

theorem buildRecord_iff_seals {record : Record} : buildRecord P kind payload = .ok record ↔
      ∃ fields id hash, canonicalFields P payload = .ok fields ∧
        Seals P kind fields record id hash := by
  rw [buildRecord_ok]
  constructor
  · rintro ⟨fields, id, hash, hf, hreq, hchecks, hid, hhash, hrec⟩
    exact ⟨fields, id, hash, hf, hreq, hchecks, hid, hhash, hrec⟩
  · rintro ⟨fields, id, hash, hf, h⟩
    exact ⟨fields, id, hash, hf, h.required, h.checks, h.recordId_eq, h.hash_eq, h.record_eq⟩

namespace Seals

variable {fields record other : Record} {id hash : PyStr}

theorem nodup_keys (h : Seals P kind fields record id hash) (hf : fields.keys.Nodup) :
    record.keys.Nodup := by
  rw [h.record_eq]
  exact Dict.nodup_keys_set (Dict.nodup_keys_set (Dict.nodup_keys_set hf _ _) _ _) _ _

/-- What can be read in a sealed record. -/
theorem get? (h : Seals P kind fields record id hash) (q : PyStr) : record.get? q =
      if py "logical_hash" = q then some (.str hash)
      else if py kind.spec.idField = q then some (.str id)
      else if py "schema" = q then some (.str (py kind.spec.schema))
      else fields.get? q := by
  rw [h.record_eq, Dict.get?_set, get?_withIdentity]

theorem get?_field (h : Seals P kind fields record id hash) {q : PyStr} (hq : q ∉ kind.reserved) :
    record.get? q = fields.get? q := by
  simp only [RecordKind.reserved, mem_cons, not_mem_nil, or_false, not_or] at hq
  rw [h.get?, if_neg (Ne.symm hq.2.2), if_neg (Ne.symm hq.2.1), if_neg (Ne.symm hq.1)]

/-- The hash of a sealed record is the one it holds. -/
theorem logicalRecordHash (h : Seals P kind fields record id hash) :
    logicalRecordHash P record = .ok hash ∧
      record.get? (py "logical_hash") = some (.str hash) := by
  have hhash := h.hash_eq
  refine ⟨?_, by rw [h.get?, if_pos rfl]⟩
  rw [C2e.logicalRecordHash] at hhash ⊢
  rw [h.record_eq, Dict.filter_set]
  exact hhash

/-- **The same fields of the caller are sealed in the same record.** -/
theorem congr (h : Seals P kind fields record id hash) (hf : fields.keys.Nodup)
    (ho : other.keys.Nodup) (hsame : SameFields kind fields other) :
    ∃ record', Seals P kind other record' id hash ∧ Dict.Same record' record := by
  have hid : recordId P kind other = .ok id := by rw [← recordId_congr hsame, h.recordId_eq]
  have hreq : ∀ field ∈ kind.spec.required, Present other (py field) := by
    intro field hfield
    rw [← present_congr (hsame _ (required_notMem_reserved kind field hfield))]
    exact h.required field hfield
  have hget (q : PyStr) (hq : q ≠ py "logical_hash") :
      Dict.get? (withIdentity kind fields id) q = Dict.get? (withIdentity kind other id) q := by
    rw [get?_withIdentity, get?_withIdentity]
    split_ifs with hfield hsch
    · rfl
    · rfl
    · refine hsame q ?_
      simp only [RecordKind.reserved, mem_cons, not_mem_nil, or_false, not_or]
      exact ⟨Ne.symm hsch, Ne.symm hfield, hq⟩
  have hhash : C2e.logicalRecordHash P (withIdentity kind other id) = .ok hash := by
    rw [← h.hash_eq]
    have hnd {r : Record} (hr : r.keys.Nodup) :
        (Dict.keys (withIdentity kind r id)).Nodup :=
      Dict.nodup_keys_set (Dict.nodup_keys_set hr _ _) _ _
    refine sha256Hex_same (Dict.nodup_keys_filter (hnd ho) _)
      (Dict.nodup_keys_filter (hnd hf) _) fun q => ?_
    rw [Dict.get?_filter_keys fun k => k ≠ py "logical_hash",
      Dict.get?_filter_keys fun k => k ≠ py "logical_hash"]
    by_cases hq : q = py "logical_hash"
    · simp [hq]
    · rw [hget q hq]
  refine ⟨_, ⟨hreq, (returns_checkKind_congr hsame).mp h.checks, hid, hhash, rfl⟩, fun q => ?_⟩
  rw [h.record_eq, Dict.get?_set, Dict.get?_set]
  split_ifs with hq
  · rfl
  · exact (hget q (Ne.symm hq)).symm

end Seals

/-! ## Sorted lists -/

theorem sortedByText_idem {xs ys : List PyVal} (h : sortedByText P xs = .ok ys) :
    sortedByText P ys = .ok ys := by
  rw [sortedByText, bind_ok] at h
  obtain ⟨keyed, hkeyed, h⟩ := h
  cases h
  have hkey : ∀ p ∈ keyed,
      ((p.2.strOf P).mapError Error.python).map (fun t => (t, p.2)) = .ok p := by
    intro p hp
    obtain ⟨x, -, hx⟩ := mem_of_mapM_right hkeyed hp
    obtain ⟨t, ht, rfl⟩ := map_ok.mp hx
    rw [ht]
    rfl
  have hagain : ((sortedBy Prod.fst keyed).map Prod.snd).mapM (fun x =>
      ((x.strOf P).mapError Error.python).map fun t => (t, x)) = .ok (sortedBy Prod.fst keyed) := by
    rw [mapM_map, mapM_ok_iff, forall₂_same]
    exact fun p hp => hkey p (mem_sortedBy.mp hp)
  rw [sortedByText, hagain]
  show Except.ok _ = _
  rw [sortedBy_eq_self (sortedBy_pairwise Prod.fst keyed)]

/-- **A canonical field stays as it is.** -/
theorem canonicalFieldValue_idem {k : PyStr} {v w : PyVal}
    (h : canonicalFieldValue P k v = .ok w) : canonicalFieldValue P k w = .ok w := by
  by_cases hk : k ∈ sortedListFields.map py
  · unfold canonicalFieldValue at h ⊢
    rw [if_pos hk] at h ⊢
    cases v with
    | list xs =>
      obtain ⟨ys, hys, rfl⟩ := map_ok.mp h
      dsimp only
      rw [sortedByText_idem hys]
      rfl
    | _ => cases h
  · exact canonicalFieldValue_of_notMem P w hk

/-! ## Records and built records -/

/-- A dictionary of fields, each under a name of its own. -/
abbrev RecordDict : Type := {r : Record // r.keys.Nodup}

/-- `built` is the record with its set-like lists sorted. -/
def SortsTo (P : Platform) (record built : Record) : Prop :=
  ∀ q, (record.get? q = none ∧ built.get? q = none) ∨
    ∃ v w, record.get? q = some v ∧ built.get? q = some w ∧
      canonicalFieldValue P q v = .ok w

/-- The set-like lists of the record are sorted. -/
def ListsSorted (P : Platform) (record : Record) : Prop :=
  ∀ q v, record.get? q = some v → canonicalFieldValue P q v = .ok v

theorem SortsTo.same {record : Record} (h : SortsTo P record built)
    (hs : ListsSorted P record) : Dict.Same record built := by
  intro q
  rcases h q with ⟨hr, hb⟩ | ⟨v, w, hr, hb, hv⟩
  · rw [hr, hb]
  · rw [hr, hb, Except.ok.inj ((hs q v hr).symm.trans hv)]

/-- Only sorted lists are ever changed. -/
theorem SortsTo.get?_of_reserved {record : Record} (h : SortsTo P record built)
    (hq : q ∈ kind.reserved) : record.get? q = built.get? q := by
  rcases h q with ⟨hr, hb⟩ | ⟨v, w, hr, hb, hv⟩
  · rw [hr, hb]
  · rw [canonicalFieldValue_of_notMem P v (reserved_notMem_sorted kind q hq)] at hv
    rw [hr, hb, Except.ok.inj hv]

/-- The fields of a record that `build_record` does not add. -/
def callerFields (kind : RecordKind) (record : Record) : Record :=
  record.filter fun p => p.1 ∉ [py "schema", py kind.spec.idField, py "logical_hash"]

theorem get?_callerFields (record : Record) (q : PyStr) : Dict.get? (callerFields kind record) q =
      if q ∈ kind.reserved then none else record.get? q := by
  have h := Dict.get?_filter_keys (d := record)
    (fun k => decide (k ∉ [py "schema", py kind.spec.idField, py "logical_hash"])) q
  rw [callerFields, h]
  by_cases hq : q ∈ kind.reserved
  · rw [if_pos hq]
    exact if_neg fun hkept => (of_decide_eq_true hkept : q ∉ kind.reserved) hq
  · rw [if_neg hq]
    exact if_pos (decide_eq_true hq)

theorem canonicalFields_nodup {fields : Record} (hp : payload.keys.Nodup)
    (h : canonicalFields P payload = .ok fields) : fields.keys.Nodup := by
  rw [keys_canonicalFields P h]
  exact hp

/-- Canonical fields can be built where each field can. -/
theorem returns_canonicalFields (hp : payload.keys.Nodup)
    (h : ∀ q v, payload.get? q = some v → Returns (canonicalFieldValue P q v)) :
    Returns (canonicalFields P payload) := by
  rw [canonicalFields, returns_mapM]
  intro item hitem
  rw [returns_map]
  exact h item.1 item.2 (Dict.get?_of_mem hp hitem)

/-- **A record that sorts to a built record is validated as that record.** -/
theorem validateRecord_of_sortsTo {record : Record}
    (hp : payload.keys.Nodup) (hr : record.keys.Nodup)
    (hb : buildRecord P kind payload = .ok built) (h : SortsTo P record built) :
    ∃ expected, validateRecord P kind record = .ok expected ∧ Dict.Same expected built := by
  obtain ⟨fields, id, hash, hf, hseals⟩ := buildRecord_iff_seals.mp hb
  have hcaller : (Dict.keys (callerFields kind record)).Nodup := Dict.nodup_keys_filter hr _
  have hrets : Returns (canonicalFields P (callerFields kind record)) := by
    refine returns_canonicalFields hcaller fun q v hv => ?_
    rw [get?_callerFields] at hv
    split_ifs at hv with hq
    rcases h q with ⟨hnone, -⟩ | ⟨v', w, hv', -, hw⟩
    · rw [hnone] at hv
      cases hv
    · cases hv'.symm.trans hv
      exact ⟨w, hw⟩
  obtain ⟨sorted, hsort⟩ := hrets
  have hsame : SameFields kind fields sorted := by
    intro q hq
    rw [← hseals.get?_field hq]
    rcases get?_canonicalFields P hsort q with ⟨hnone, hsome⟩ | ⟨v, w, hv, hw, hvw⟩
    · rw [get?_callerFields, if_neg hq] at hnone
      rcases h q with ⟨-, hnone'⟩ | ⟨v, w, hv, -, -⟩
      · rw [hnone', hsome]
      · rw [hnone] at hv
        cases hv
    · rw [get?_callerFields, if_neg hq] at hv
      rcases h q with ⟨hnone, -⟩ | ⟨v', w', hv', hw', hvw'⟩
      · rw [hnone] at hv
        cases hv
      · cases hv'.symm.trans hv
        rw [hw', hw, Except.ok.inj (hvw'.symm.trans hvw)]
  obtain ⟨expected, hexp, hdict⟩ :=
    hseals.congr (canonicalFields_nodup hp hf) (canonicalFields_nodup hcaller hsort) hsame
  have hbuild : buildRecord P kind (callerFields kind record) = .ok expected :=
    buildRecord_iff_seals.mpr ⟨sorted, id, hash, hsort, hexp⟩
  have hequal (q : PyStr) (hq : q ∈ kind.reserved) :
      record.get? q = expected.get? q := by
    rw [h.get?_of_reserved hq, hdict q]
  refine ⟨expected, ?_, hdict⟩
  rw [validateRecord, ← callerFields, hbuild]
  refine bind_intro rfl ?_
  rw [requireModel, requireModel, requireModel, check,
    if_pos (hequal _ (by simp [RecordKind.reserved])),
    check, if_pos (hequal _ (by simp [RecordKind.reserved])), check,
    if_pos (hequal _ (by simp [RecordKind.reserved]))]
  rfl

/-- A built record has its lists sorted. -/
theorem sortsTo_built (hb : buildRecord P kind payload = .ok built) : SortsTo P built built := by
  obtain ⟨fields, id, hash, hf, hseals⟩ := buildRecord_iff_seals.mp hb
  intro q
  by_cases hq : q ∈ kind.reserved
  · cases hv : built.get? q with
    | none => exact .inl ⟨rfl, rfl⟩
    | some v =>
      exact .inr ⟨v, v, rfl, rfl,
        canonicalFieldValue_of_notMem P v (reserved_notMem_sorted kind q hq)⟩
  · rw [hseals.get?_field hq]
    rcases get?_canonicalFields P hf q with ⟨-, hnone⟩ | ⟨v, w, -, hw, hvw⟩
    · exact .inl ⟨hnone, hnone⟩
    · exact .inr ⟨w, w, hw, hw, canonicalFieldValue_idem hvw⟩

/-- **What is validated sorts to the record that is returned.** -/
theorem sortsTo_of_validateRecord {record expected : Record}
    (h : validateRecord P kind record = .ok expected) :
    buildRecord P kind (callerFields kind record) = .ok expected ∧ SortsTo P record expected := by
  obtain ⟨built, hb, h⟩ := bind_ok.mp h
  obtain ⟨⟨⟩, hsch, h⟩ := bind_ok.mp h
  obtain ⟨⟨⟩, hid, h⟩ := bind_ok.mp h
  obtain ⟨⟨⟩, hhash, h⟩ := bind_ok.mp h
  obtain rfl : built = expected := Except.ok.inj h
  have hreserved : ∀ q ∈ kind.reserved, record.get? q = built.get? q := by
    intro q hq
    simp only [RecordKind.reserved, mem_cons, not_mem_nil, or_false] at hq
    rcases hq with rfl | rfl | rfl
    · exact check_ok.mp hsch
    · exact check_ok.mp hid
    · exact check_ok.mp hhash
  obtain ⟨fields, id, hash, hf, hseals⟩ := buildRecord_iff_seals.mp hb
  refine ⟨hb, fun q => ?_⟩
  by_cases hq : q ∈ kind.reserved
  · rw [hreserved q hq]
    cases hv : built.get? q with
    | none => exact .inl ⟨rfl, rfl⟩
    | some v =>
      exact .inr ⟨v, v, rfl, rfl,
        canonicalFieldValue_of_notMem P v (reserved_notMem_sorted kind q hq)⟩
  · have hcaller : Dict.get? (callerFields kind record) q = record.get? q := by
      rw [get?_callerFields, if_neg hq]
    rw [hseals.get?_field hq, ← hcaller]
    exact get?_canonicalFields P hf q

/-- **The record codec**: a built record is validated and returned as it is; what is validated is
returned as a built record with the hash that it holds, its set-like lists sorted; and every record
that sorts to a built record is validated. -/
theorem record_codec (P : Platform) (kind : RecordKind) :
    (∀ (payload : RecordDict) (built : Record), buildRecord P kind payload.val = .ok built →
      ∃ expected, validateRecord P kind built = .ok expected ∧ Dict.Same expected built) ∧
    (∀ (record : RecordDict) (expected : Record), validateRecord P kind record.val = .ok expected →
        (∃ payload : RecordDict, buildRecord P kind payload.val = .ok expected) ∧
        SortsTo P record.val expected ∧
        ∃ hash, logicalRecordHash P expected = .ok hash ∧
          record.val.get? (py "logical_hash") = some (.str hash) ∧
          (ListsSorted P record.val → logicalRecordHash P record.val = .ok hash)) ∧
    (∀ (record payload : RecordDict) (built : Record),
      buildRecord P kind payload.val = .ok built → SortsTo P record.val built →
        Returns (validateRecord P kind record.val)) := by
  refine ⟨?_, ?_, ?_⟩
  · intro payload built hb
    obtain ⟨fields, id, hash, hf, hseals⟩ := buildRecord_iff_seals.mp hb
    have hbuilt := hseals.nodup_keys (canonicalFields_nodup payload.property hf)
    exact validateRecord_of_sortsTo payload.property hbuilt hb (sortsTo_built hb)
  · intro record expected h
    obtain ⟨hb, hsorts⟩ := sortsTo_of_validateRecord h
    have hcaller : (Dict.keys (callerFields kind record.val)).Nodup :=
      Dict.nodup_keys_filter record.property _
    obtain ⟨fields, id, hash, hf, hseals⟩ := buildRecord_iff_seals.mp hb
    obtain ⟨hhash, hstored⟩ := hseals.logicalRecordHash
    have hexp := hseals.nodup_keys (canonicalFields_nodup hcaller hf)
    refine ⟨⟨⟨_, hcaller⟩, hb⟩, hsorts, hash, hhash, ?_, fun hs => ?_⟩
    · have hreserved : py "logical_hash" ∈ kind.reserved := by simp [RecordKind.reserved]
      rw [hsorts.get?_of_reserved hreserved, hstored]
    · rw [logicalRecordHash_same record.property hexp (hsorts.same hs), hhash]
  · intro record payload built hb h
    obtain ⟨expected, hexp, -⟩ :=
      validateRecord_of_sortsTo payload.property record.property hb h
    exact ⟨expected, hexp⟩

/-- A phase segment with two source records. -/
def phasePayload : Record :=
  [(py "episode_id", .str (py "E")), (py "phase_type", .str (py "P")),
    (py "start_time", .str (py "t0")), (py "end_time", .str (py "t1")),
    (py "first_valid_time", .str (py "t1")),
    (py "source_record_ids", .ofStrs [py "a", py "b"]), (py "authority", .str (py "A"))]

/-- The record of the segment with its source records the other way round. -/
def permutedPhase : Option Record :=
  (buildRecord .reference .phaseSegment phasePayload).toOption.map fun record =>
    record.set (py "source_record_ids") (.ofStrs [py "b", py "a"])

/-- **The record with its source records the other way round is validated, but its hash is not the
one that it holds.** -/
theorem permutedPhase_validated :
    ∃ record expected : Record, ∃ hash : PyStr, record.keys.Nodup ∧
      validateRecord .reference .phaseSegment record = .ok expected ∧
      logicalRecordHash .reference record = .ok hash ∧
      record.get? (py "logical_hash") ≠ some (.str hash) := by
  have hrun : (permutedPhase.bind fun record =>
      (validateRecord .reference .phaseSegment record).toOption.bind fun _ =>
        (logicalRecordHash .reference record).toOption.map fun hash =>
          decide (record.keys.Nodup ∧
            record.get? (py "logical_hash") ≠ some (.str hash))) = some true := by
    decide +kernel
  obtain ⟨record, -, hrun⟩ := Option.bind_eq_some_iff.mp hrun
  obtain ⟨expected, hexp, hrun⟩ := Option.bind_eq_some_iff.mp hrun
  obtain ⟨hash, hhash, hrun⟩ := Option.map_eq_some_iff.mp hrun
  obtain ⟨hnd, hne⟩ := of_decide_eq_true hrun
  exact ⟨record, expected, hash, hnd, eq_ok_of_toOption hexp, eq_ok_of_toOption hhash, hne⟩

end OvcReplay.C2e
