import OvcReplay.P2cti.Noninterference

/-! # What a query discloses

Noninterference for the constructor and the queries together, and the kind of record that breaks it
when it is hidden: one with a visible id whose references cannot be read. -/

namespace OvcReplay.P2cti

open Python Json
open P1cdi (canonicalSha256)

variable {P : Platform} {casefold : PyStr → PyStr}

/-! ## Limits -/

/-- What is said of rows that a limit cuts. -/
def truncationOf (limit available : Nat) : PyVal :=
  if available ≤ limit then .none
  else object [("returned", .int limit), ("available", .int available), ("silent", .bool false)]

/-- **A limit keeps a prefix of the rows** and says how many there are. -/
theorem bounded_int (rows : List PyVal) {n : Nat} (hn : 0 < n) : ∃ warnings,
      bounded rows (.int n) = .ok ⟨rows.take n, warnings, truncationOf n rows.length⟩ := by
  have hpos : ¬ (n : Int) < 1 := by omega
  unfold bounded truncationOf
  dsimp only
  rw [if_neg hpos, Int.toNat_natCast]
  by_cases h : rows.length ≤ n
  · rw [if_pos h, if_pos h, List.take_of_length_le h]
    exact ⟨_, rfl⟩
  · rw [if_neg h, if_neg h]
    exact ⟨_, rfl⟩

/-- The parameters with a limit. -/
def withLimit (params : Record) (limit : PyVal) : Record := Dict.set params (py "limit") limit

theorem param_withLimit (params : Record) (limit : PyVal) {key : String} (default : PyVal)
    (h : py "limit" ≠ py key) :
    param (withLimit params limit) key default = param params key default := by
  unfold param withLimit field
  rw [Dict.get?_set_of_ne _ _ h]

@[simp] theorem param_limit (params : Record) (limit default : PyVal) :
    param (withLimit params limit) "limit" default = limit := by
  unfold param withLimit field
  rw [Dict.get?_set_self, Option.getD_some]

/-- The rows and the truncation of an answer. -/
def Shows (key : String) (rows : List PyVal) (truncation : PyVal) (result : PyVal) : Prop :=
  result.get? (py key) = some (.list rows) ∧ result.get? (py "truncation") = some truncation

variable {params : Record}

/-- `SEARCH` under a limit. -/
theorem search_limit {context : Context} {n : Nat} (hn : 0 < n) {a : Answer}
    (h : search casefold context (withLimit params .none) = .ok a) :
    ∃ rows, Shows "matches" rows .none a.result ∧ ∃ b,
      search casefold context (withLimit params (.int n)) = .ok b ∧
        Shows "matches" (rows.take n) (truncationOf n rows.length) b.result := by
  have htext (limit : PyVal) : param (withLimit params limit) "text" .none =
      param params "text" .none := param_withLimit params limit .none (by decide)
  unfold search at h ⊢
  rw [htext] at h ⊢
  generalize param params "text" .none = value at h ⊢
  cases value with
  | str text =>
    cases text with
    | nil => cases h
    | cons c text =>
      dsimp only at h ⊢
      obtain ⟨found, hfound, h⟩ := bind_ok.mp h
      obtain ⟨rows, hrows, h⟩ := bind_ok.mp h
      obtain ⟨cut, hcut, h⟩ := bind_ok.mp h
      rw [param_limit] at hcut
      cases hcut
      cases h
      obtain ⟨warnings, hbounded⟩ := bounded_int rows hn
      refine ⟨rows, ⟨rfl, rfl⟩, ⟨object [("matches", .list (rows.take n)),
        ("truncation", truncationOf n rows.length)], warnings⟩, ?_, ⟨rfl, rfl⟩⟩
      · refine bind_intro hfound (bind_ok.mpr ⟨rows, hrows, ?_⟩)
        rw [param_limit]
        exact bind_intro hbounded rfl
  | _ => cases h

variable {engine : Engine}

/-- `RELATIONS` under a limit. -/
theorem relationsOf_limit {n : Nat} (hn : 0 < n) {a : Answer}
    (h : relationsOf engine (withLimit params .none) = .ok a) :
    ∃ rows, Shows "relations" rows .none a.result ∧ ∃ b,
      relationsOf engine (withLimit params (.int n)) = .ok b ∧
        Shows "relations" (rows.take n) (truncationOf n rows.length) b.result := by
  have hsubject (limit : PyVal) : param (withLimit params limit) "subject_id" .none =
      param params "subject_id" .none := param_withLimit params limit .none (by decide)
  unfold relationsOf at h ⊢
  rw [hsubject] at h ⊢
  dsimp only at h ⊢
  obtain ⟨direct, hdirect, h⟩ := bind_ok.mp h
  obtain ⟨ambiguities, hambiguities, h⟩ := bind_ok.mp h
  obtain ⟨conflicts, hconflicts, h⟩ := bind_ok.mp h
  obtain ⟨cut, hcut, h⟩ := bind_ok.mp h
  rw [param_limit] at hcut
  cases hcut
  cases h
  obtain ⟨warnings, hbounded⟩ := bounded_int (direct.map PyVal.ofRecord) hn
  let rows := direct.map PyVal.ofRecord
  refine ⟨rows, ⟨rfl, rfl⟩, ⟨object [("relations", .list (rows.take n)),
    ("ambiguities", ofRows ambiguities), ("conflicts", ofRows conflicts),
    ("truncation", truncationOf n rows.length)],
    warnings ++ relationConstituentWarnings (direct.take (rows.take n).length) ++
      (if ambiguities = [] then [] else [py "RELATION_AMBIGUITY_UNRESOLVED"]) ++
      (if conflicts = [] then [] else [py "RELATION_CONFLICT_BLOCKING"])⟩, ?_, ⟨rfl, rfl⟩⟩
  · refine bind_intro hdirect (bind_ok.mpr ⟨ambiguities, hambiguities,
      bind_ok.mpr ⟨conflicts, hconflicts, ?_⟩⟩)
    rw [param_limit]
    exact bind_intro hbounded rfl

/-- The families that take a limit, and the rows that it cuts. -/
def limited : List (Family × String) := [(.search, "matches"), (.relations, "relations")]

theorem answer_limit {family : Family} {key : String} (hlimited : (family, key) ∈ limited) {n : Nat}
    (hn : 0 < n) {a : Answer}
    (h : answer P casefold engine (withLimit params .none) family = .ok a) :
    ∃ rows, Shows key rows .none a.result ∧ ∃ b,
      answer P casefold engine (withLimit params (.int n)) family = .ok b ∧
        Shows key (rows.take n) (truncationOf n rows.length) b.result := by
  rcases List.mem_cons.mp hlimited with heq | hmem
  · cases heq
    exact search_limit hn h
  · cases List.mem_singleton.mp hmem
    exact relationsOf_limit hn h

/-- A family is found by its name. -/
theorem find?_text (family : Family) :
    (Family.all.find? fun f => decide (f.text = family.text)) = some family := by
  have hall : ∀ f ∈ Family.all, (Family.all.find? fun g => decide (g.text = f.text)) = some f := by
    decide +kernel
  exact hall family (by cases family <;> simp [Family.all])

/-- The query of an allowed family is its answer in an envelope. -/
theorem query_of_allowed {family : Family} (params : Record)
    (hallowed : family.text ∈ engine.context.visibility.allowedQueryFamilies) :
    query P casefold engine family.text params =
      (answer P casefold engine params family).map fun answered =>
        envelope engine.context family.text answered.result answered.warnings := by
  unfold query
  rw [find?_text family]
  dsimp only
  rw [if_pos hallowed]
  cases answer P casefold engine params family with
  | ok answered => rfl
  | error e => rfl

variable (P casefold) in
/-- **With a limit the rows are a prefix of the unlimited rows**, and their number is stated when
some are left out. -/
def LimitsCutRows (engine : Engine) : Prop :=
  ∀ family key, (family, key) ∈ limited →
    family.text ∈ engine.context.visibility.allowedQueryFamilies → ∀ (params : Record) (n : Nat),
      0 < n → ∀ u, query P casefold engine family.text (withLimit params .none) = .ok u →
        ∃ rows, Shows key rows .none u.result ∧ ∃ v,
          query P casefold engine family.text (withLimit params (.int n)) = .ok v ∧
            Shows key (rows.take n) (truncationOf n rows.length) v.result

theorem limitsCutRows (engine : Engine) : LimitsCutRows P casefold engine := by
  intro family key hlimited hallowed params n hn u hu
  rw [query_of_allowed _ hallowed] at hu
  cases ha : answer P casefold engine (withLimit params .none) family with
  | error e =>
    rw [ha] at hu
    cases hu
  | ok a =>
    rw [ha] at hu
    cases hu
    obtain ⟨rows, hrows, b, hb, hcut⟩ := answer_limit hlimited hn ha
    refine ⟨rows, hrows, envelope engine.context family.text b.result b.warnings, ?_, hcut⟩
    rw [query_of_allowed _ hallowed, hb]
    rfl

/-! ## Noninterference -/

/-- **Queries are noninterfering.** -/
theorem query_noninterfering {context : Context} {a b : Collections} {engine engine' : Engine}
    (h : a.engine P context = .ok engine) (h' : b.engine P context = .ok engine')
    (hsame : (a.visible context.visibility).Same (b.visible context.visibility))
    (htold : (a.visible context.visibility).ToldApart)
    (hreadable : a.Readable context.visibility) (hreadable' : b.Readable context.visibility) :
    (∀ family params,
      query P casefold engine family params = query P casefold engine' family params) ∧
      (∀ family params, query P casefold engine.withoutHidden family params =
          query P casefold engine family params) ∧
      LimitsCutRows P casefold engine :=
  ⟨query_eq_of_same h h' hsame htold hreadable hreadable', query_withoutHidden engine,
    limitsCutRows engine⟩

/-! ## Concrete collections -/

/-- The frontier of the concrete records. -/
def frontier : PyStr := py "frontier"

/-- A record that states the hash of its content. -/
def hashed (record : Record) : Record :=
  record ++ [(py "content_sha256",
    .str ((canonicalSha256 .reference (.ofRecord record)).toOption.getD []))]

/-- A relation of an id, with its subjects. -/
def relationOf (id : String) (objectIds : List PyVal) : Record :=
  hashed [(py "object_type", .str (py "THEORY_RELATION")), (py "source_frontier_id", .str frontier),
    (py "payload", object [("relation_id", .str (py id)),
      ("subject_refs", .list (objectIds.map fun objectId => object [("object_id", objectId)]))])]

/-- One relation and one subject are visible. -/
def relationContext : Context where
  generation := ⟨py "generation", 1⟩
  sourceFrontierId := frontier
  currentnessState := py "CURRENT"
  completenessState := py "COMPLETE"
  currentnessWarnings := []
  visibility :=
    { visibilityState := py "FULL"
      allowedQueryFamilies := [py "RELATIONS"]
      visibleSubjectIds := [py "subject"]
      visibleRelationIds := [py "relation"]
      visibleDemandIds := []
      allowHistory := false
      allowAggregateCounts := false }
  entries := []
  history := []
  exposureState := .none
  exposureSource := .none

/-- A visible relation, and one that names a subject that is not visible. -/
def bothRelations : Collections where
  relations := [relationOf "relation" [.str (py "subject")],
    relationOf "relation" [.str (py "subject"), .str (py "other")]]
  screens := []
  demands := []

/-- The visible relation alone. -/
def visibleRelations : Collections where
  relations := [relationOf "relation" [.str (py "subject")]]
  screens := []
  demands := []

theorem query_noninterfering_relations : ∃ engine engine',
    bothRelations.engine .reference relationContext = .ok engine ∧
      visibleRelations.engine .reference relationContext = .ok engine' ∧
      (∀ family params, query .reference ResearchOps.asciiLower engine family params =
        query .reference ResearchOps.asciiLower engine' family params) ∧
      (∀ family params,
        query .reference ResearchOps.asciiLower engine.withoutHidden family params =
          query .reference ResearchOps.asciiLower engine family params) ∧
      LimitsCutRows .reference ResearchOps.asciiLower engine := by
  obtain ⟨engine, h⟩ : Returns (bothRelations.engine .reference relationContext) := by
    decide +kernel
  obtain ⟨engine', h'⟩ : Returns (visibleRelations.engine .reference relationContext) := by
    decide +kernel
  have hsame : (bothRelations.visible relationContext.visibility).Same
      (visibleRelations.visible relationContext.visibility) :=
    ⟨by decide +kernel, by decide +kernel, by decide +kernel⟩
  have htold : (bothRelations.visible relationContext.visibility).ToldApart :=
    ⟨by unfold ToldApart; decide +kernel, by unfold ToldApart; decide +kernel,
      by unfold ToldApart; decide +kernel⟩
  have hreadable : bothRelations.Readable relationContext.visibility := by
    unfold Collections.Readable Readable
    decide +kernel
  have hreadable' : visibleRelations.Readable relationContext.visibility := by
    unfold Collections.Readable Readable
    decide +kernel
  exact ⟨engine, engine', h, h',
    query_noninterfering h h' hsame htold hreadable hreadable'⟩

/-! ## A hidden record that cannot be read -/

/-- A relation with a visible id, whose subject has an id that is not hashable. -/
def unreadableRelations : Collections where
  relations := [relationOf "relation" [.list [.str (py "subject")]]]
  screens := []
  demands := []

/-- No relation. -/
def noRelations : Collections := ⟨[], [], []⟩

/-- The query of the relations, over concrete collections. -/
def relationsQuery (collections : Collections) : Except QueryError Envelope :=
  (collections.engine .reference relationContext).bind fun engine =>
    query .reference ResearchOps.asciiLower engine (py "RELATIONS") []

/-- **A hidden record raises**: nothing of either collection is visible, both engines are built,
and one of them cannot answer. -/
theorem unreadable_interferes : (unreadableRelations.visible relationContext.visibility).Same
        (noRelations.visible relationContext.visibility) ∧
      Returns (unreadableRelations.engine .reference relationContext) ∧
      Returns (noRelations.engine .reference relationContext) ∧
      relationsQuery unreadableRelations ≠ relationsQuery noRelations := by
  refine ⟨⟨by decide +kernel, by decide +kernel, by decide +kernel⟩,
    by decide +kernel, by decide +kernel, fun heq => ?_⟩
  have hraises : ¬ Returns (relationsQuery unreadableRelations) := by decide +kernel
  have hanswers : Returns (relationsQuery noRelations) := by decide +kernel
  rw [heq] at hraises
  exact hraises hanswers

end OvcReplay.P2cti
