import OvcReplay.P2cti.Query
import OvcReplay.ResearchOps.Validation

/-! # Noninterference of queries

What a query answers is a function of the visible records alone: a record that is not visible is
passed over by every comprehension, and the visible records are kept in an order of their own.
Subjects that are not visible have no entry in a result. -/

namespace OvcReplay.P2cti

open List Python Json
open P1cdi (canonicalSha256)

variable {P : Platform} {casefold : PyStr → PyStr}

/-! ## Comprehensions -/

variable {condition : Record → Except QueryError Bool}

/-- **A comprehension passes over the rows its condition refuses.** -/
theorem comprehension_filter {keep : Record → Bool} {rows : List Record}
    (h : ∀ row ∈ rows, keep row = false → condition row = .ok false) :
    comprehension condition (rows.filter keep) = comprehension condition rows := by
  induction rows with
  | nil => rfl
  | cons row rows ih =>
    have hrest := ih fun other hother => h other (mem_cons_of_mem _ hother)
    cases hkeep : keep row with
    | true => rw [filter_cons_of_pos hkeep, comprehension, comprehension, hrest]
    | false =>
      have hnot : ¬ keep row = true := by rw [hkeep]; exact Bool.false_ne_true
      rw [filter_cons_of_neg hnot, hrest, comprehension, h row (by simp) hkeep]
      cases comprehension condition rows <;> rfl

/-- A conjunction with a part that does not hold does not hold. -/
theorem andThen_of_false {a b : Except QueryError Bool} (h : a = .ok false) :
    andThen a b = .ok false := by
  rw [h]
  rfl

/-! ## Visible records -/

/-- The record is visible: its id is, and so are all its subjects. -/
def shown (visibility : Visibility) (record : Record) : Bool :=
  match visibleRelation visibility record with
  | .ok visible => visible
  | .error _ => false

/-- Whether the record is visible can be told. -/
def Readable (visibility : Visibility) (record : Record) : Prop :=
  Returns (visibleRelation visibility record)

/-- The engine with what is visible of its collections. -/
def Engine.visible (engine : Engine) : Engine :=
  { engine with
    relations := engine.relations.filter fun row => shown engine.context.visibility row
    screens := engine.screens.filter fun row => shown engine.context.visibility row
    demands := visibleDemands engine }

@[simp] theorem Engine.visible_context (engine : Engine) :
    engine.visible.context = engine.context := rfl

variable {visibility : Visibility} {record : Record}

theorem visibleRelation_of_not_shown (hreadable : Readable visibility record)
    (h : shown visibility record = false) :
    visibleRelation visibility record = .ok false := by
  obtain ⟨visible, hvisible⟩ := hreadable
  unfold shown at h
  rw [hvisible] at h ⊢
  exact congrArg Except.ok h

theorem visibleOfType_of_not_shown (hreadable : Readable visibility record)
    (h : shown visibility record = false) (type : String) :
    visibleOfType visibility type record = .ok false := by
  unfold visibleOfType
  rw [visibleRelation_of_not_shown hreadable h]
  cases isText (field record "object_type" .none) type <;> rfl

theorem visibleDemands_visible (engine : Engine) :
    visibleDemands engine.visible = visibleDemands engine := by
  unfold Engine.visible visibleDemands
  rw [filter_filter]
  simp only [Bool.and_self]

theorem demandOf_visible (engine : Engine) (demandId : PyVal) :
    demandOf engine.visible demandId = demandOf engine demandId := by
  unfold demandOf
  show (if demandId ∈ engine.context.visibility.visibleDemandIds.map .str then _ else none) = _
  by_cases h : demandId ∈ engine.context.visibility.visibleDemandIds.map .str
  · rw [if_pos h, if_pos h]
    show (engine.demands.filter fun row =>
      visibleDemand engine.context.visibility row).find? _ = _
    rw [find?_filter]
    congr 1
    funext row
    by_cases hid : payloadField row "demand_id" .none = demandId
    · simp [hid, visibleDemand, h]
    · simp [hid]
  · rw [if_neg h, if_neg h]

section Visible

variable {engine : Engine}
  (hrelations : ∀ row ∈ engine.relations, Readable engine.context.visibility row)
  (hscreens : ∀ row ∈ engine.screens, Readable engine.context.visibility row)

include hrelations in
theorem relationsOf_visible (params : Record) :
    relationsOf engine.visible params = relationsOf engine params := by
  have hpass (type : String) (concerns : Record → Except QueryError Bool) :
      comprehension (fun row => andThen (visibleOfType engine.context.visibility type row)
        (concerns row)) engine.visible.relations =
      comprehension (fun row => andThen (visibleOfType engine.context.visibility type row)
        (concerns row)) engine.relations :=
    comprehension_filter fun row hrow hshown =>
      andThen_of_false (visibleOfType_of_not_shown (hrelations row hrow) hshown type)
  unfold relationsOf
  rw [Engine.visible_context]
  dsimp only
  rw [hpass, hpass, hpass]

include hscreens in
theorem duplicateScreen_visible (params : Record) :
    duplicateScreen engine.visible params = duplicateScreen engine params := by
  have hpass (concerns : Record → Except QueryError Bool) :
      comprehension (fun row => andThen (visibleRelation engine.context.visibility row)
        (concerns row)) engine.visible.screens =
      comprehension (fun row => andThen (visibleRelation engine.context.visibility row)
        (concerns row)) engine.screens :=
    comprehension_filter fun row hrow hshown =>
      andThen_of_false (visibleRelation_of_not_shown (hscreens row hrow) hshown)
  unfold duplicateScreen
  rw [Engine.visible_context, hpass]

include hrelations in
theorem crossMode_visible : crossMode engine.visible = crossMode engine := by
  have hpass (holds : Record → Except QueryError Bool) :
      comprehension (fun row => andThen (visibleRelation engine.context.visibility row)
        (holds row)) engine.visible.relations =
      comprehension (fun row => andThen (visibleRelation engine.context.visibility row)
        (holds row)) engine.relations :=
    comprehension_filter fun row hrow hshown =>
      andThen_of_false (visibleRelation_of_not_shown (hrelations row hrow) hshown)
  unfold crossMode
  rw [Engine.visible_context, hpass]

include hrelations hscreens in
/-- **An answer is made of the visible records.** -/
theorem answer_visible (params : Record) (family : Family) :
    answer P casefold engine.visible params family = answer P casefold engine params family := by
  cases family with
  | relations => exact relationsOf_visible hrelations params
  | duplicateScreen => exact duplicateScreen_visible hscreens params
  | crossMode => exact crossMode_visible hrelations
  | openDemand | architectureNeed =>
    unfold answer demandsWith
    rw [visibleDemands_visible]
  | whyBlocked | unblockPath =>
    unfold answer fromDemand
    rw [demandOf_visible]
  | nextTheoryWork =>
    unfold answer
    rw [visibleDemands_visible]
  | portfolioState =>
    unfold answer portfolioState
    rw [visibleDemands_visible, Engine.visible_context]
  | _ => rfl

include hrelations hscreens in
/-- **A query is answered from the visible records.** -/
theorem query_visible (family : PyStr) (params : Record) :
    query P casefold engine.visible family params = query P casefold engine family params := by
  unfold query
  cases Family.all.find? fun f => decide (f.text = family) with
  | none => rfl
  | some f =>
    dsimp only
    rw [Engine.visible_context, answer_visible hrelations hscreens]

end Visible

/-! ## The order of the collections -/

variable (P) in
/-- The key of a record, when it has one. -/
def keyOf (record : Record) : List PyStr := (canonicalRecordKey P record).toOption.getD []

/-- The records of the keyed records are the records. -/
theorem map_snd_keyed {records : List Record} {keyed : List (List PyStr × Record)}
    (h : records.mapM (fun record =>
      (canonicalRecordKey P record).map fun key => (key, record)) = .ok keyed) :
    keyed.map Prod.snd = records := by
  rw [mapM_ok_iff] at h
  induction h with
  | nil => rfl
  | cons hhead _ ih =>
    obtain ⟨key, -, rfl⟩ := map_ok.mp hhead
    rw [map_cons, ih]

/-- **A sorted collection has the records in the order of their keys.** -/
theorem sortedRecords_ok {records sorted : List Record}
    (h : sortedRecords P records = .ok sorted) :
    sorted.Perm records ∧ (sorted.Pairwise fun a b => keyOf P a ≤ keyOf P b) ∧
      ∀ record ∈ sorted, Returns (canonicalRecordKey P record) := by
  unfold sortedRecords at h
  obtain ⟨keyed, hkeyed, h⟩ := bind_ok.mp h
  cases h
  have hkeys : ∀ p ∈ keyed, canonicalRecordKey P p.2 = .ok p.1 := by
    intro p hp
    obtain ⟨record, -, hrec⟩ := mem_of_mapM_right hkeyed hp
    obtain ⟨key, hkey, rfl⟩ := map_ok.mp hrec
    exact hkey
  have hsecond := map_snd_keyed hkeyed
  refine ⟨?_, ?_, ?_⟩
  · rw [← hsecond]
    exact (sortedBy_perm Prod.fst keyed).map Prod.snd
  · rw [pairwise_map]
    refine (sortedBy_pairwise Prod.fst keyed).imp_of_mem ?_
    intro p q hp hq hle
    unfold keyOf
    rw [hkeys p (mem_sortedBy.mp hp), hkeys q (mem_sortedBy.mp hq)]
    exact hle
  · intro record hrec
    obtain ⟨p, hp, rfl⟩ := mem_map.mp hrec
    exact ⟨p.1, hkeys p (mem_sortedBy.mp hp)⟩

/-- The hash a record states. -/
def statedHash (record : Record) : PyVal := field record "content_sha256" .none

variable {frontierId : PyStr}

/-- The last member of the key of a record is the hash it states. -/
theorem getLast?_keyOf (hkey : Returns (canonicalRecordKey P record))
    (hcheck : checkRecord P frontierId record = .ok ()) :
    ∃ sha, statedHash record = .str sha ∧ (keyOf P record).getLast? = some sha := by
  unfold checkRecord at hcheck
  obtain ⟨_, -, hcheck⟩ := bind_ok.mp hcheck
  obtain ⟨sha, -, hcheck⟩ := bind_ok.mp hcheck
  have hstated : field record "content_sha256" .none = .str sha := check_ok.mp hcheck
  have hget : record.get? (py "content_sha256") = some (.str sha) := by
    unfold field at hstated
    cases h : record.get? (py "content_sha256") with
    | none =>
      rw [h] at hstated
      cases hstated
    | some v =>
      rw [h] at hstated
      exact congrArg some hstated
  obtain ⟨key, hkey⟩ := hkey
  refine ⟨sha, hstated, ?_⟩
  unfold keyOf
  rw [hkey]
  unfold canonicalRecordKey at hkey
  obtain ⟨left, -, hkey⟩ := bind_ok.mp hkey
  obtain ⟨right, -, hkey⟩ := bind_ok.mp hkey
  have hlast := congrArg getLast? (map_some_of_mapM hkey)
  rw [getLast?_map, getLast?_map] at hlast
  simp only [getLast?_cons_cons, getLast?_singleton, Option.map_some, hget] at hlast
  cases h : key.getLast? with
  | none =>
    rw [h] at hlast
    cases hlast
  | some last =>
    rw [h] at hlast
    show key.getLast? = some sha
    rw [h]
    exact Option.some.inj hlast

/-- Records of one key state one hash. -/
theorem statedHash_of_key {a b : Record} (ha : Returns (canonicalRecordKey P a))
    (hb : Returns (canonicalRecordKey P b)) (hchecka : checkRecord P frontierId a = .ok ())
    (hcheckb : checkRecord P frontierId b = .ok ()) (h : keyOf P a = keyOf P b) :
    statedHash a = statedHash b := by
  obtain ⟨sha, hsha, hlast⟩ := getLast?_keyOf ha hchecka
  obtain ⟨sha', hsha', hlast'⟩ := getLast?_keyOf hb hcheckb
  rw [h, hlast'] at hlast
  rw [hsha, hsha', Option.some.inj hlast]

/-- The hashes that these records state tell them apart. -/
def ToldApart (records : List Record) : Prop :=
  ∀ a ∈ records, ∀ b ∈ records, statedHash a = statedHash b → a = b

/-- **The visible records of a collection are kept in an order of their own.** -/
theorem filter_sortedRecords {keep : Record → Bool} {records records' sorted sorted' : List Record}
    (h : sortedRecords P records = .ok sorted) (h' : sortedRecords P records' = .ok sorted')
    (hcheck : sorted.forM (checkRecord P frontierId) = .ok ())
    (hperm : (records.filter keep).Perm (records'.filter keep))
    (htold : ToldApart (records.filter keep)) :
    sorted.filter keep = sorted'.filter keep := by
  obtain ⟨hsort, hpw, hkeys⟩ := sortedRecords_ok h
  obtain ⟨hsort', hpw', -⟩ := sortedRecords_ok h'
  have hall := forM_ok.mp hcheck
  have hkept : (sorted.filter keep).Perm (records.filter keep) := hsort.filter keep
  refine eq_of_perm_of_pairwise ?_
    ((hkept.trans hperm).trans (hsort'.filter keep).symm)
    (hpw.sublist filter_sublist) (hpw'.sublist filter_sublist)
  intro a ha b hb heq
  have hmema := (mem_filter.mp ha).1
  have hmemb := (mem_filter.mp hb).1
  exact htold a (hkept.mem_iff.mp ha) b (hkept.mem_iff.mp hb)
    (statedHash_of_key (hkeys a hmema) (hkeys b hmemb) (hall a hmema) (hall b hmemb) heq)

/-! ## Two engines -/

/-- What the constructor makes of its collections. -/
theorem build_ok {context : Context} {relations screens demands : List Record} {engine : Engine}
    (h : Engine.build P context relations screens demands = .ok engine) :
    engine.context = context ∧ sortedRecords P relations = .ok engine.relations ∧
      sortedRecords P screens = .ok engine.screens ∧
      sortedRecords P demands = .ok engine.demands ∧
      engine.relations.forM (checkRecord P context.sourceFrontierId) = .ok () ∧
      engine.screens.forM (checkRecord P context.sourceFrontierId) = .ok () ∧
      engine.demands.forM (checkRecord P context.sourceFrontierId) = .ok () := by
  unfold Engine.build at h
  obtain ⟨sortedRelations, hrelations, h⟩ := bind_ok.mp h
  obtain ⟨sortedScreens, hscreens, h⟩ := bind_ok.mp h
  obtain ⟨sortedDemands, hdemands, h⟩ := bind_ok.mp h
  obtain ⟨_, hcheckedRelations, h⟩ := bind_ok.mp h
  obtain ⟨_, hcheckedScreens, h⟩ := bind_ok.mp h
  obtain ⟨_, hcheckedDemands, h⟩ := bind_ok.mp h
  cases h
  exact ⟨rfl, hrelations, hscreens, hdemands, hcheckedRelations, hcheckedScreens, hcheckedDemands⟩

/-- The collections of an engine. -/
structure Collections where
  relations : List Record
  screens : List Record
  demands : List Record

variable (P) in
/-- The constructor on collections. -/
def Collections.engine (collections : Collections) (context : Context) : Except QueryError Engine :=
  Engine.build P context collections.relations collections.screens collections.demands

/-- What is visible of the collections. -/
def Collections.visible (collections : Collections) (visibility : Visibility) : Collections where
  relations := collections.relations.filter fun row => shown visibility row
  screens := collections.screens.filter fun row => shown visibility row
  demands := collections.demands.filter fun row => visibleDemand visibility row

/-- The same records with the same multiplicity. -/
structure Collections.Same (a b : Collections) : Prop where
  relations : a.relations.Perm b.relations
  screens : a.screens.Perm b.screens
  demands : a.demands.Perm b.demands

/-- Of every relation and screen it can be told whether it is visible. -/
def Collections.Readable (collections : Collections) (visibility : Visibility) : Prop :=
  ∀ row ∈ collections.relations ++ collections.screens, P2cti.Readable visibility row

/-- The records of each collection are told apart by the hashes they state. -/
structure Collections.ToldApart (collections : Collections) : Prop where
  relations : P2cti.ToldApart collections.relations
  screens : P2cti.ToldApart collections.screens
  demands : P2cti.ToldApart collections.demands

section Two

variable {context : Context} {a b : Collections} {engine engine' : Engine}
  (h : a.engine P context = .ok engine) (h' : b.engine P context = .ok engine')

include h h' in
/-- Engines over collections with the same visible records have the same visible engine. -/
theorem visible_eq (hsame : (a.visible context.visibility).Same (b.visible context.visibility))
    (htold : (a.visible context.visibility).ToldApart) : engine.visible = engine'.visible := by
  obtain ⟨hcontext, hrelations, hscreens, hdemands, hcrelations, hcscreens, hcdemands⟩ :=
    build_ok h
  obtain ⟨hcontext', hrelations', hscreens', hdemands', -, -, -⟩ := build_ok h'
  unfold Engine.visible visibleDemands
  rw [hcontext, hcontext',
    filter_sortedRecords hrelations hrelations' hcrelations hsame.relations htold.relations,
    filter_sortedRecords hscreens hscreens' hcscreens hsame.screens htold.screens,
    filter_sortedRecords hdemands hdemands' hcdemands hsame.demands htold.demands]

include h in
/-- The records an engine keeps are those of its collections. -/
theorem readable_of_build (hreadable : a.Readable context.visibility) :
    (∀ row ∈ engine.relations, Readable engine.context.visibility row) ∧
      ∀ row ∈ engine.screens, Readable engine.context.visibility row := by
  obtain ⟨hcontext, hrelations, hscreens, -⟩ := build_ok h
  rw [hcontext]
  refine ⟨fun row hrow => hreadable row ?_, fun row hrow => hreadable row ?_⟩
  · exact mem_append_left _ ((sortedRecords_ok hrelations).1.mem_iff.mp hrow)
  · exact mem_append_right _ ((sortedRecords_ok hscreens).1.mem_iff.mp hrow)

include h h' in
/-- **Two engines over the same visible records answer every query alike.** -/
theorem query_eq_of_same
    (hsame : (a.visible context.visibility).Same (b.visible context.visibility))
    (htold : (a.visible context.visibility).ToldApart)
    (hreadable : a.Readable context.visibility) (hreadable' : b.Readable context.visibility)
    (family : PyStr) (params : Record) :
    query P casefold engine family params = query P casefold engine' family params := by
  obtain ⟨hrelations, hscreens⟩ := readable_of_build h hreadable
  obtain ⟨hrelations', hscreens'⟩ := readable_of_build h' hreadable'
  rw [← query_visible hrelations hscreens, visible_eq h h' hsame htold,
    query_visible hrelations' hscreens']

end Two

/-! ## Entries -/

/-- The subject of the entry is not visible. -/
def hidden (visibility : Visibility) (entry : Record) : Bool :=
  match entry.get? (py "subject_id") with
  | some id => decide (id ∉ visibility.visibleSubjectIds.map .str)
  | none => false

/-- The engine without the entries of subjects that are not visible. -/
def Engine.withoutHidden (engine : Engine) : Engine :=
  { engine with context := { engine.context with
      entries := engine.context.entries.filter fun entry =>
        !hidden engine.context.visibility entry } }

variable {entry : Record}

theorem subscript_of_hidden (h : hidden visibility entry = true) :
    ∃ id, subscript entry "subject_id" = .ok id ∧
      id ∉ visibility.visibleSubjectIds.map .str := by
  unfold hidden at h
  unfold subscript
  cases hget : entry.get? (py "subject_id") with
  | none =>
    rw [hget] at h
    cases h
  | some id =>
    rw [hget] at h
    exact ⟨id, rfl, of_decide_eq_true h⟩

theorem matchesText_of_hidden (text : PyStr) (h : hidden visibility entry = true) :
    matchesText casefold visibility text entry = .ok false := by
  obtain ⟨id, hid, hnot⟩ := subscript_of_hidden h
  unfold matchesText
  rw [hid]
  cases id with
  | str s =>
    have hs : s ∉ visibility.visibleSubjectIds := fun hmem =>
      hnot (mem_map_of_mem hmem)
    show Except.ok (decide (s ∈ visibility.visibleSubjectIds ∧ _)) = _
    rw [decide_eq_false fun hboth => hs hboth.1]
  | _ => rfl

theorem visibleEntry_of_hidden (h : hidden visibility entry = true) :
    visibleEntry visibility entry = .ok false := by
  obtain ⟨id, hid, hnot⟩ := subscript_of_hidden h
  unfold visibleEntry
  rw [hid]
  show Except.ok (decide (id ∈ visibility.visibleSubjectIds.map PyVal.str)) = _
  rw [decide_eq_false hnot]

/-- An entry that is not visible is not found. -/
theorem findEntry_filter {subjectId : PyVal}
    (hvisible : subjectId ∈ visibility.visibleSubjectIds.map .str) (entries : List Record) :
    findEntry subjectId (entries.filter fun entry => !hidden visibility entry) =
      findEntry subjectId entries := by
  induction entries with
  | nil => rfl
  | cons entry entries ih =>
    cases hhidden : hidden visibility entry with
    | false =>
      have hkeep : (!hidden visibility entry) = true := by rw [hhidden]; rfl
      rw [filter_cons_of_pos (p := fun e => !hidden visibility e) hkeep, findEntry,
        findEntry, ih]
    | true =>
      have hdrop : ¬ (!hidden visibility entry) = true := by
        rw [hhidden]
        exact Bool.false_ne_true
      obtain ⟨id, hid, hnot⟩ := subscript_of_hidden hhidden
      rw [filter_cons_of_neg (p := fun e => !hidden visibility e) hdrop, ih, findEntry,
        hid]
      have hne : id ≠ subjectId := fun heq => hnot (heq ▸ hvisible)
      show _ = if id = subjectId then _ else findEntry subjectId entries
      rw [if_neg hne]

theorem entryOf_withoutHidden (engine : Engine) (subjectId : PyVal) :
    entryOf engine.withoutHidden.context subjectId = entryOf engine.context subjectId := by
  unfold entryOf
  show (if subjectId ∈ engine.context.visibility.visibleSubjectIds.map .str then _ else _) = _
  by_cases h : subjectId ∈ engine.context.visibility.visibleSubjectIds.map .str
  · rw [if_pos h, if_pos h]
    exact findEntry_filter h engine.context.entries
  · rw [if_neg h, if_neg h]

/-- Every condition that refuses the hidden entries collects the same without them. -/
theorem comprehension_withoutHidden (engine : Engine)
    (h : ∀ entry, hidden engine.context.visibility entry = true → condition entry = .ok false) :
    comprehension condition engine.withoutHidden.context.entries =
      comprehension condition engine.context.entries :=
  comprehension_filter fun entry _ hdrop => h entry (by simpa using hdrop)

/-- **No entry of a subject that is not visible is in an answer or counted in one.** -/
theorem answer_withoutHidden (engine : Engine) (params : Record) (family : Family) :
    answer P casefold engine.withoutHidden params family =
      answer P casefold engine params family := by
  cases family with
  | search =>
    unfold answer search
    cases param params "text" .none with
    | str text =>
      cases text with
      | nil => rfl
      | cons c text =>
        dsimp only
        have hrefused : ∀ entry, hidden engine.context.visibility entry = true →
            matchesText casefold engine.context.visibility (c :: text) entry = .ok false :=
          fun entry hentry => matchesText_of_hidden (c :: text) hentry
        rw [← comprehension_withoutHidden engine hrefused]
        rfl
    | _ => rfl
  | getTheory | whyHere | currentState =>
    unfold answer fromEntry
    rw [entryOf_withoutHidden]
  | portfolioState =>
    unfold answer portfolioState
    have hpass := comprehension_withoutHidden engine fun entry hentry =>
      visibleEntry_of_hidden hentry
    rw [← hpass]
    rfl
  | _ => rfl

/-- **A query is answered without the entries of subjects that are not visible.** -/
theorem query_withoutHidden (engine : Engine) (family : PyStr) (params : Record) :
    query P casefold engine.withoutHidden family params =
      query P casefold engine family params := by
  unfold query
  cases Family.all.find? fun f => decide (f.text = family) with
  | none => rfl
  | some f =>
    dsimp only
    rw [answer_withoutHidden]
    rfl

end OvcReplay.P2cti
