import OvcReplay.Lists.LinearChains
import OvcReplay.P1cdi.Reference

/-! # Replay as of a time

`replay_as_of` of P1CDI: the records of a correction history, their validation, and the record of
every logical id that no correction visible at a time corrects. -/

namespace OvcReplay.P1cdi

open List Python Json OvcReplay.Lists

variable (P : Platform)

/-- A record with exactly the fields of `_HISTORY_FIELDS`. -/
structure HistoryRecord where
  recordId : PyVal
  logicalId : PyVal
  firstValidTime : PyVal
  correctionOf : PyVal
  payload : PyVal
  sourceRefs : PyVal
  deriving DecidableEq

/-- A record, with what its checks read. -/
structure Entry where
  recordId : PyStr
  logicalId : PyStr
  time : Int
  correctionOf : Option PyStr
  record : HistoryRecord
  deriving DecidableEq

/-- `correction_of`, unless it is `None`. -/
def readCorrection (value : PyVal) : Except Error (Option PyStr) :=
  if value = .none then .ok none else (requireString value "correction_of").map some

/-- The checks of one record. -/
def readRecord (record : HistoryRecord) : Except Error Entry := do
  let recordId ← requireString record.recordId "record_id"
  let logicalId ← requireString record.logicalId "logical_id"
  let time ← parseTime P record.firstValidTime "first_valid_time"
  let correctionOf ← readCorrection record.correctionOf
  require (record.sourceRefs ≠ .list [] ∧ predecessorRefsOk record.sourceRefs = true)
    "history record requires unique source refs"
  return ⟨recordId, logicalId, time.instant, correctionOf, record⟩

/-- The first loop, after the ids that were seen. -/
def readRecords : (seen : List PyStr) → List HistoryRecord → Except Error (List Entry)
  | _, [] => .ok []
  | seen, record :: records => do
    let entry ← readRecord P record
    require (entry.recordId ∉ seen) "duplicate history record_id"
    let entries ← readRecords (entry.recordId :: seen) records
    return entry :: entries

/-- The second loop's checks of one record. -/
def checkLink (entries : List Entry) (entry : Entry) : Except Error Unit :=
  match entry.correctionOf with
  | none => .ok ()
  | some predecessorId =>
    match entries.find? fun e => e.recordId = predecessorId with
    | none => .error (.reference
      (py "history correction predecessor is missing or cross-logical"))
    | some predecessor => do
      require (predecessor.logicalId = entry.logicalId)
        "history correction predecessor is missing or cross-logical"
      require (predecessor.time < entry.time)
        "history correction must move first-valid time forward"

/-- The two loops of checks. -/
def validateHistory (records : List HistoryRecord) : Except Error (List Entry) := do
  let entries ← readRecords P [] records
  forM entries (checkLink entries)
  return entries

/-- `eligible`. -/
def eligible (asOf : Int) (entries : List Entry) (logicalId : PyStr) : List Entry :=
  entries.filter fun e => e.logicalId = logicalId ∧ e.time ≤ asOf

/-- `tips`. -/
def tips (eligible : List Entry) : List Entry :=
  eligible.filter fun e => e.recordId ∉ eligible.filterMap Entry.correctionOf

/-- The message of an ambiguous frontier. -/
def ambiguous (logicalId : PyStr) : Error :=
  .reference (py "ambiguous correction frontier for " ++ logicalId)

/-- What the third loop finds for a logical id. -/
def tipOf (asOf : Int) (entries : List Entry) (logicalId : PyStr) : Except Error (Option Entry) :=
  if eligible asOf entries logicalId = [] then .ok none else
    match tips (eligible asOf entries logicalId) with
    | [tip] => .ok (some tip)
    | _ => .error (ambiguous logicalId)

/-- The third loop. -/
def replayEntries (asOf : Int) (entries : List Entry) : Except Error (List Entry) := do
  let found ← (sortedSet (entries.map Entry.logicalId)).mapM (tipOf asOf entries)
  return found.reduceOption

/-- `replay_as_of`. -/
def replayAsOf (records : List HistoryRecord) (asOfTime : PyVal) :
    Except Error (List HistoryRecord) := do
  let asOf ← parseTime P asOfTime "as_of_time"
  let entries ← validateHistory P records
  (replayEntries asOf.instant entries).map (List.map Entry.record)

/-! ## Validation -/

variable {P} {records records' : List HistoryRecord} {entries entries' : List Entry} {asOf : Int}

/-- The entry is a correction of the other. -/
def Corrects (entry predecessor : Entry) : Prop :=
  entry.correctionOf = some predecessor.recordId

/-- Distinct ids, and every correction is one of an earlier entry of its logical id. -/
structure ValidHistory (entries : List Entry) : Prop where
  nodup : (entries.map Entry.recordId).Nodup
  linked : ∀ entry ∈ entries, ∀ id, entry.correctionOf = some id →
    ∃ p ∈ entries, p.recordId = id ∧ p.logicalId = entry.logicalId ∧ p.time < entry.time

theorem readRecords_ok {seen : List PyStr} : readRecords P seen records = .ok entries ↔
    records.mapM (readRecord P) = .ok entries ∧ (entries.map Entry.recordId).Nodup ∧
      ∀ e ∈ entries, e.recordId ∉ seen := by
  induction records generalizing seen entries with
  | nil =>
    constructor
    · intro h
      cases h
      exact ⟨rfl, nodup_nil, nofun⟩
    · exact fun h => h.1
  | cons record records ih =>
    rw [readRecords, mapM_cons_ok]
    simp only [bind_ok, pure_ok, require, check_ok, ih]
    constructor
    · rintro ⟨entry, hentry, _, hseen, rest, ⟨hrest, hnd, hnew⟩, rfl⟩
      refine ⟨⟨entry, rest, hentry, hrest, rfl⟩, ?_, ?_⟩
      · rw [map_cons, nodup_cons]
        refine ⟨fun hmem => ?_, hnd⟩
        obtain ⟨e, he, heq⟩ := mem_map.mp hmem
        exact hnew e he (heq ▸ mem_cons_self)
      · rw [forall_mem_cons]
        exact ⟨hseen, fun e he hmem => hnew e he (mem_cons_of_mem _ hmem)⟩
    · rintro ⟨⟨entry, rest, hentry, hrest, rfl⟩, hnd, hseen⟩
      rw [map_cons, nodup_cons] at hnd
      rw [forall_mem_cons] at hseen
      refine ⟨entry, hentry, (), hseen.1, rest, ⟨hrest, hnd.2, fun e he hmem => ?_⟩, rfl⟩
      rcases mem_cons.mp hmem with heq | hmem
      · exact hnd.1 (heq ▸ mem_map_of_mem he)
      · exact hseen.2 e he hmem

/-- The validation succeeds on the histories that are valid. -/
theorem checkLink_ok (hnd : (entries.map Entry.recordId).Nodup) {entry : Entry} :
    checkLink entries entry = .ok () ↔ ∀ id, entry.correctionOf = some id →
      ∃ p ∈ entries, p.recordId = id ∧ p.logicalId = entry.logicalId ∧ p.time < entry.time := by
  rw [checkLink]
  cases entry.correctionOf with
  | none => exact ⟨fun _ => nofun, fun _ => rfl⟩
  | some predecessorId =>
    simp only [Option.some.injEq, forall_eq']
    cases hfind : entries.find? fun e => e.recordId = predecessorId with
    | none =>
      refine ⟨nofun, fun ⟨p, hp, hid, _⟩ => ?_⟩
      exact absurd (decide_eq_true hid) (find?_eq_none.mp hfind p hp)
    | some p =>
      have hmem := mem_of_find?_eq_some hfind
      have hid : p.recordId = predecessorId := by simpa using find?_some hfind
      simp only [bind_ok, require, check_ok]
      constructor
      · rintro ⟨_, hlogical, htime⟩
        exact ⟨p, hmem, hid, hlogical, htime⟩
      · rintro ⟨q, hq, hqid, hlogical, htime⟩
        cases inj_on_of_nodup_map hnd hmem hq (hid.trans hqid.symm)
        exact ⟨(), hlogical, htime⟩

/-- The validation succeeds on the valid histories. -/
theorem validateHistory_ok : validateHistory P records = .ok entries ↔
    records.mapM (readRecord P) = .ok entries ∧ ValidHistory entries := by
  simp only [validateHistory, bind_ok, pure_ok, readRecords_ok]
  constructor
  · rintro ⟨_, ⟨hread, hnd, -⟩, _, hlinks, rfl⟩
    exact ⟨hread, hnd, fun e he => (checkLink_ok hnd).mp (forM_ok.mp hlinks e he)⟩
  · rintro ⟨hread, hvalid⟩
    refine ⟨entries, ⟨hread, hvalid.nodup, nofun⟩, (), forM_ok.mpr fun e he => ?_, rfl⟩
    exact (checkLink_ok hvalid.nodup).mpr (hvalid.linked e he)

theorem ValidHistory.perm (h : ValidHistory entries) (hperm : entries'.Perm entries) :
    ValidHistory entries' where
  nodup := (hperm.map _).nodup_iff.mpr h.nodup
  linked e he id hid := by
    obtain ⟨p, hp, hlink⟩ := h.linked e (hperm.mem_iff.mp he) id hid
    exact ⟨p, hperm.mem_iff.mpr hp, hlink⟩

/-- A permutation of a valid history is read as a permutation of its entries. -/
theorem validateHistory_perm (hperm : records'.Perm records)
    (h : validateHistory P records = .ok entries) :
    ∃ entries', validateHistory P records' = .ok entries' ∧ entries'.Perm entries := by
  obtain ⟨hread, hvalid⟩ := validateHistory_ok.mp h
  obtain ⟨entries', hread'⟩ : Returns (records'.mapM (readRecord P)) :=
    returns_mapM.mpr fun r hr => returns_mapM.mp ⟨entries, hread⟩ r (hperm.mem_iff.mp hr)
  have hents := perm_of_mapM hperm hread' hread
  exact ⟨entries', validateHistory_ok.mpr ⟨hread', hvalid.perm hents⟩, hents⟩

/-! ## The frontier -/

/-- The logical ids with an eligible entry, in their order. -/
def visibleIds (asOf : Int) (entries : List Entry) : List PyStr :=
  sortedSet ((entries.filter fun e => e.time ≤ asOf).map Entry.logicalId)

variable {id : PyStr} {tip : Entry} {chosen : List Entry}

theorem mem_eligible {e : Entry} :
    e ∈ eligible asOf entries id ↔ e ∈ entries ∧ e.logicalId = id ∧ e.time ≤ asOf := by
  simp [eligible]

theorem mem_visibleIds : id ∈ visibleIds asOf entries ↔ eligible asOf entries id ≠ [] := by
  rw [visibleIds, mem_sortedSet, mem_map]
  constructor
  · rintro ⟨e, he, rfl⟩
    obtain ⟨hmem, htime⟩ := mem_filter.mp he
    exact ne_nil_of_mem (mem_eligible.mpr ⟨hmem, rfl, of_decide_eq_true htime⟩)
  · intro hne
    obtain ⟨e, he⟩ := exists_mem_of_ne_nil _ hne
    obtain ⟨hmem, hid, htime⟩ := mem_eligible.mp he
    exact ⟨e, mem_filter.mpr ⟨hmem, decide_eq_true htime⟩, hid⟩

/-- The ids with an eligible entry among all of them. -/
theorem filter_visible : (sortedSet (entries.map Entry.logicalId)).filter
    (fun id => eligible asOf entries id ≠ []) = visibleIds asOf entries := by
  rw [filter_sortedSet]
  refine sortedSet_congr fun id => ?_
  rw [mem_filter, decide_eq_true_eq, ← mem_visibleIds, visibleIds, mem_sortedSet,
    and_iff_right_iff_imp]
  intro h
  obtain ⟨e, he, hid⟩ := mem_map.mp h
  exact mem_map.mpr ⟨e, (mem_filter.mp he).1, hid⟩

/-- One logical id has one tip. -/
def HasTip (asOf : Int) (entries : List Entry) (id : PyStr) (tip : Entry) : Prop :=
  tips (eligible asOf entries id) = [tip]

theorem tipOf_eq_some (hne : eligible asOf entries id ≠ []) :
    tipOf asOf entries id = .ok (some tip) ↔ HasTip asOf entries id tip := by
  rw [tipOf, if_neg hne, HasTip]
  split
  · rename_i heq
    simp [heq]
  · rename_i hnot
    exact ⟨nofun, fun h => absurd h (hnot tip)⟩

theorem not_tipOf_eq_none (hne : eligible asOf entries id ≠ []) :
    tipOf asOf entries id ≠ .ok none := by
  rw [tipOf, if_neg hne]
  split <;> nofun

/-- The third loop collects the tips of the ids with an eligible entry. -/
theorem reduceOption_tips {ids : List PyStr} :
    (∃ found, ids.mapM (tipOf asOf entries) = .ok found ∧ found.reduceOption = chosen) ↔
      Forall₂ (HasTip asOf entries)
        (ids.filter fun id => eligible asOf entries id ≠ []) chosen := by
  induction ids generalizing chosen with
  | nil =>
    rw [filter_nil, forall₂_nil_left_iff]
    constructor
    · rintro ⟨found, h, rfl⟩
      cases h
      rfl
    · rintro rfl
      exact ⟨[], rfl, rfl⟩
  | cons id ids ih =>
    simp only [mapM_cons_ok]
    by_cases hne : eligible asOf entries id = []
    · rw [filter_cons_of_neg (by simpa using hne), ← ih]
      constructor
      · rintro ⟨_, ⟨tip, found, htip, hfound, rfl⟩, rfl⟩
        rw [tipOf, if_pos hne] at htip
        cases htip
        exact ⟨found, hfound, rfl⟩
      · rintro ⟨found, hfound, rfl⟩
        exact ⟨_, ⟨none, found, if_pos hne, hfound, rfl⟩, rfl⟩
    · rw [filter_cons_of_pos (by simpa using hne), forall₂_cons_left_iff]
      simp only [← ih, ← tipOf_eq_some hne]
      constructor
      · rintro ⟨_, ⟨tip, found, htip, hfound, rfl⟩, rfl⟩
        cases tip with
        | none => exact absurd htip (not_tipOf_eq_none hne)
        | some tip => exact ⟨tip, _, htip, ⟨found, hfound, rfl⟩, rfl⟩
      · rintro ⟨tip, _, htip, ⟨found, hfound, rfl⟩, rfl⟩
        exact ⟨_, ⟨some tip, found, htip, hfound, rfl⟩, rfl⟩

/-- **One tip of every logical id that is visible.** -/
theorem replayEntries_ok : replayEntries asOf entries = .ok chosen ↔
    Forall₂ (HasTip asOf entries) (visibleIds asOf entries) chosen := by
  simp only [replayEntries, bind_ok, pure_ok, reduceOption_tips, filter_visible]

/-- Histories with the same visible entries have the same frontier. -/
theorem replayEntries_congr
    (h : (entries'.filter fun e => e.time ≤ asOf).Perm (entries.filter fun e => e.time ≤ asOf)) :
    replayEntries asOf entries' = .ok chosen ↔ replayEntries asOf entries = .ok chosen := by
  have hids : visibleIds asOf entries' = visibleIds asOf entries :=
    sortedSet_congr fun id => (h.map _).mem_iff
  have htips (id : PyStr) (tip : Entry) :
      HasTip asOf entries' id tip ↔ HasTip asOf entries id tip := by
    have helig : (eligible asOf entries' id).Perm (eligible asOf entries id) := by
      simpa [eligible, filter_filter] using h.filter fun e => e.logicalId = id
    have hperm : (tips (eligible asOf entries' id)).Perm (tips (eligible asOf entries id)) := by
      rw [tips, tips, filter_congr fun e _ => decide_eq_decide.mpr
        (not_congr (helig.filterMap _).mem_iff)]
      exact helig.filter _
    rw [HasTip, HasTip]
    constructor
    · intro heq
      exact (heq ▸ hperm).symm.eq_singleton
    · intro heq
      exact (heq ▸ hperm).eq_singleton
  rw [replayEntries_ok, replayEntries_ok, hids]
  have hrel : HasTip asOf entries' = HasTip asOf entries := funext₂ fun id tip =>
    propext (htips id tip)
  rw [hrel]

/-! ## Chains -/

/-- The corrections among the eligible entries lead to earlier ones. -/
theorem ValidHistory.time_lt (h : ValidHistory entries) {x y : Entry} (hx : x ∈ entries)
    (hy : y ∈ entries) (hxy : Corrects x y) : y.time < x.time := by
  obtain ⟨p, hp, hid, -, htime⟩ := h.linked x hx _ hxy
  cases inj_on_of_nodup_map h.nodup hp hy hid
  exact htime

theorem mem_of_mem_eligible {e : Entry} (he : e ∈ eligible asOf entries id) : e ∈ entries :=
  (mem_eligible.mp he).1

theorem nodup_eligible (h : ValidHistory entries) (id : PyStr) :
    (eligible asOf entries id).Nodup :=
  (Nodup.of_map _ h.nodup).filter _

/-- The entries that the source keeps are those that no eligible entry corrects. -/
theorem mem_tips {es : List Entry} {x : Entry} : x ∈ tips es ↔ IsTip Corrects es x := by
  simp [tips, IsTip, Corrects]

theorem hasTip_iff (h : ValidHistory entries) : HasTip asOf entries id tip ↔
      ∀ x, IsTip Corrects (eligible asOf entries id) x ↔ x = tip := by
  have hnd : (tips (eligible asOf entries id)).Nodup := (nodup_eligible h id).filter _
  simp only [← mem_tips]
  constructor
  · intro heq x
    rw [heq, mem_singleton]
  · intro hall
    refine perm_singleton.mp ((perm_ext_iff_of_nodup hnd (nodup_singleton tip)).mpr ?_)
    simpa using hall

theorem linear_iff_hasTip (h : ValidHistory entries) (hne : eligible asOf entries id ≠ []) :
    Linear Corrects (eligible asOf entries id) ↔ ∃ tip, HasTip asOf entries id tip := by
  simp only [hasTip_iff h]
  refine linear_iff hne (nodup_eligible h id) (fun x _ y hy z hz hxy hxz => ?_)
    fun x hx y hy => h.time_lt (mem_of_mem_eligible hx) (mem_of_mem_eligible hy)
  exact inj_on_of_nodup_map h.nodup (mem_of_mem_eligible hy) (mem_of_mem_eligible hz)
    (Option.some.inj (hxy.symm.trans hxz))

/-- The tip is not corrected, and leads to every eligible entry. -/
theorem HasTip.reaches (h : ValidHistory entries) (htip : HasTip asOf entries id tip) :
    IsTip Corrects (eligible asOf entries id) tip ∧ ∀ x ∈ eligible asOf entries id,
      Relation.ReflTransGen (fun x y => y ∈ eligible asOf entries id ∧ Corrects x y) tip x := by
  have hall := (hasTip_iff h).mp htip
  have hfunc : ∀ x ∈ eligible asOf entries id, ∀ y ∈ eligible asOf entries id,
      ∀ z ∈ eligible asOf entries id, Corrects x y → Corrects x z → y = z :=
    fun x _ y hy z hz hxy hxz =>
      inj_on_of_nodup_map h.nodup (mem_of_mem_eligible hy) (mem_of_mem_eligible hz)
        (Option.some.inj (hxy.symm.trans hxz))
  obtain ⟨rest, hperm, hchain⟩ := chain_of_isTip (nodup_eligible h id) hfunc
    (fun x hx y hy => h.time_lt (mem_of_mem_eligible hx) (mem_of_mem_eligible hy))
    ((hall tip).mpr rfl) fun x => (hall x).mp
  refine ⟨(hall tip).mpr rfl, fun x hx => ?_⟩
  exact reaches_of_chain hchain (fun y hy => hperm.mem_iff.mp (mem_cons_of_mem _ hy)) x
    (hperm.mem_iff.mpr hx)

/-- The tips that are collected, each with its logical id. -/
theorem map_logicalId_of_tips {ids : List PyStr}
    (h : Forall₂ (HasTip asOf entries) ids chosen) : chosen.map Entry.logicalId = ids ∧
      ∀ tip ∈ chosen, HasTip asOf entries tip.logicalId tip := by
  induction h with
  | nil => exact ⟨rfl, nofun⟩
  | @cons id tip ids chosen htip _ ih =>
    have hmem : tip ∈ tips (eligible asOf entries id) := by simp [show tips _ = _ from htip]
    have hid : tip.logicalId = id := (mem_eligible.mp (mem_filter.mp hmem).1).2.1
    rw [map_cons, hid, ih.1, forall_mem_cons, hid]
    exact ⟨rfl, htip, ih.2⟩

theorem returns_tipOf (h : ValidHistory entries) (id : PyStr) :
    Returns (tipOf asOf entries id) ↔ Linear Corrects (eligible asOf entries id) := by
  by_cases hne : eligible asOf entries id = []
  · exact ⟨fun _ => ⟨[], hne ▸ .nil, .nil⟩, fun _ => ⟨none, if_pos hne⟩⟩
  · rw [linear_iff_hasTip h hne]
    constructor
    · rintro ⟨found, hfound⟩
      cases found with
      | none => exact absurd hfound (not_tipOf_eq_none hne)
      | some tip => exact ⟨tip, (tipOf_eq_some hne).mp hfound⟩
    · rintro ⟨tip, htip⟩
      exact ⟨some tip, (tipOf_eq_some hne).mpr htip⟩

theorem returns_replayEntries (h : ValidHistory entries) :
    Returns (replayEntries asOf entries) ↔
      ∀ id, Linear Corrects (eligible asOf entries id) := by
  rw [replayEntries, returns_bind]
  simp only [← returns_tipOf h]
  constructor
  · rintro ⟨found, hfound, -⟩ id
    by_cases hne : eligible asOf entries id = []
    · exact ⟨none, if_pos hne⟩
    · obtain ⟨e, he⟩ := exists_mem_of_ne_nil _ hne
      refine returns_mapM.mp ⟨found, hfound⟩ id (mem_sortedSet.mpr (mem_map.mpr ⟨e, ?_⟩))
      exact ⟨mem_of_mem_eligible he, (mem_eligible.mp he).2.1⟩
  · intro hall
    obtain ⟨found, hfound⟩ := returns_mapM.mpr fun id _ => hall id
    exact ⟨found, hfound, returns_pure _⟩

/-- The third loop raises the error of an ambiguous frontier only. -/
theorem raisesOnly_replayEntries :
    RaisesOnly (fun e => ∃ id, e = ambiguous id) (replayEntries asOf entries) := by
  refine (raisesOnly_mapM fun id _ => ?_).bind fun _ _ => raisesOnly_ok
  rw [tipOf]
  split
  · exact raisesOnly_ok
  · split
    · exact raisesOnly_ok
    · exact raisesOnly_error.mpr ⟨id, rfl⟩

/-! ## Replay -/

theorem replayAsOf_ok {asOfTime : PyVal} {result : List HistoryRecord} :
    replayAsOf P records asOfTime = .ok result ↔ ∃ time entries chosen,
      parseTime P asOfTime "as_of_time" = .ok time ∧ validateHistory P records = .ok entries ∧
        replayEntries time.instant entries = .ok chosen ∧ chosen.map Entry.record = result := by
  simp only [replayAsOf, bind_ok, map_ok]
  constructor
  · rintro ⟨time, htime, entries, hents, chosen, hchosen, rfl⟩
    exact ⟨time, entries, chosen, htime, hents, hchosen, rfl⟩
  · rintro ⟨time, entries, chosen, htime, hents, hchosen, rfl⟩
    exact ⟨time, htime, entries, hents, chosen, hchosen, rfl⟩

/-- **Later records and their order leave the frontier unchanged.** -/
theorem replayAsOf_append {later all result : List HistoryRecord} {asOfTime : PyVal}
    {time : Datetime} (hperm : all.Perm (records ++ later))
    (htime : parseTime P asOfTime "as_of_time" = .ok time)
    (hlater : ∀ r ∈ later, ∀ t, parseTime P r.firstValidTime "first_valid_time" = .ok t →
      time.instant < t.instant)
    (hvalid : Returns (validateHistory P all))
    (h : replayAsOf P records asOfTime = .ok result) : replayAsOf P all asOfTime = .ok result := by
  obtain ⟨_, entries, chosen, htime', hents, hchosen, rfl⟩ := replayAsOf_ok.mp h
  cases htime.symm.trans htime'
  obtain ⟨allEntries, hall⟩ := hvalid
  obtain ⟨joined, hjoined, hallPerm⟩ := validateHistory_perm hperm.symm hall
  obtain ⟨xs, ys, hxs, hys, rfl⟩ := exists_of_mapM_append (validateHistory_ok.mp hjoined).1
  cases (validateHistory_ok.mp hents).1.symm.trans hxs
  refine replayAsOf_ok.mpr ⟨time, allEntries, chosen, htime, hall, ?_, rfl⟩
  refine (replayEntries_congr ?_).mpr hchosen
  -- no entry of the later records is visible
  have hnone : ys.filter (fun e => e.time ≤ time.instant) = [] := by
    refine filter_eq_nil_iff.mpr fun e he => ?_
    obtain ⟨r, hr, hread⟩ := mem_of_mapM_right hys he
    simp only [readRecord, bind_ok, pure_ok] at hread
    obtain ⟨_, -, _, -, t, ht, _, -, _, -, rfl⟩ := hread
    simpa using hlater r hr t ht
  have hsplit := hallPerm.symm.filter fun e => e.time ≤ time.instant
  rwa [filter_append, hnone, append_nil] at hsplit

/-- **Later corrections do not rewrite history.** Permuting the records of a history that is
replayed, or adding records of a later time, leaves the result unchanged. The result has one record
of every logical id with an eligible record, which no eligible record corrects and which leads to
each of them along `correction_of`. The ambiguity error is raised when and only when the eligible
records of some logical id are not one chain. -/
theorem replay_history (records : List HistoryRecord) (asOfTime : PyVal) :
    (∀ records' result, records'.Perm records → replayAsOf P records asOfTime = .ok result →
      replayAsOf P records' asOfTime = .ok result) ∧
    (∀ later all result time, all.Perm (records ++ later) →
      parseTime P asOfTime "as_of_time" = .ok time →
      (∀ r ∈ later, ∀ t, parseTime P r.firstValidTime "first_valid_time" = .ok t →
        time.instant < t.instant) →
      Returns (validateHistory P all) → replayAsOf P records asOfTime = .ok result →
      replayAsOf P all asOfTime = .ok result) ∧
    ∀ entries time, validateHistory P records = .ok entries →
      parseTime P asOfTime "as_of_time" = .ok time →
      (∀ result, replayAsOf P records asOfTime = .ok result → ∃ chosen : List Entry,
        chosen.map Entry.record = result ∧
        chosen.map Entry.logicalId = visibleIds time.instant entries ∧
        ∀ tip ∈ chosen, IsTip Corrects (eligible time.instant entries tip.logicalId) tip ∧
          ∀ x ∈ eligible time.instant entries tip.logicalId, Relation.ReflTransGen
            (fun x y => y ∈ eligible time.instant entries tip.logicalId ∧ Corrects x y) tip x) ∧
      ((∃ id, replayAsOf P records asOfTime = .error (ambiguous id)) ↔
        ∃ id, ¬ Linear Corrects (eligible time.instant entries id)) := by
  refine ⟨?_, fun _ _ _ _ => replayAsOf_append, ?_⟩
  · intro records' result hperm h
    obtain ⟨time, entries, _, htime, hents, -⟩ := replayAsOf_ok.mp h
    obtain ⟨entries', hents', -⟩ := validateHistory_perm hperm hents
    exact replayAsOf_append (show records'.Perm (records ++ []) by rwa [append_nil]) htime nofun
      ⟨entries', hents'⟩ h
  · intro entries time hents htime
    have hvalid := (validateHistory_ok.mp hents).2
    have hrun : replayAsOf P records asOfTime =
        (replayEntries time.instant entries).map (List.map Entry.record) := by
      rw [replayAsOf, htime, hents]
      rfl
    constructor
    · intro result h
      rw [hrun, map_ok] at h
      obtain ⟨chosen, hchosen, rfl⟩ := h
      obtain ⟨hids, htips⟩ := map_logicalId_of_tips (replayEntries_ok.mp hchosen)
      exact ⟨chosen, rfl, hids, fun tip htip => (htips tip htip).reaches hvalid⟩
    · rw [← not_forall, ← returns_replayEntries hvalid, ← returns_map, ← hrun, not_returns_iff]
      constructor
      · exact fun ⟨id, h⟩ => ⟨_, h⟩
      · rintro ⟨e, h⟩
        rw [hrun] at h
        obtain ⟨id, rfl⟩ := raisesOnly_replayEntries.map e h
        exact ⟨id, hrun ▸ h⟩

end OvcReplay.P1cdi
