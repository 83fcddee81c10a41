import OvcReplay.Srfd.DomainAnalysis

/-! # The streamed analysis is the document

Both analyses visit the same pairs in the same order; one keeps the rows of the correspondence list,
the other writes them. What was written is the canonical text of the list, and the emitted document
is the canonical text of the record. -/

namespace OvcReplay.Srfd

open List Python OvcReplay.Lists

variable {P : Platform} {M : DomainMetrics}

/-! ## Emission -/

variable {text : PyStr}

theorem bytes_ok {v : PyVal} :
    bytes P v = .ok text ↔ canonicalJsonBytes P v = .ok text := mapError_ok

/-- One more part joins those before. -/
theorem push_joined (opening : PyStr) (parts : List PyStr) (part : PyStr) :
    Emission.push ⟨opening ++ joined parts, parts.isEmpty⟩ part =
      ⟨opening ++ joined (parts ++ [part]), (parts ++ [part]).isEmpty⟩ := by
  rw [Emission.push, joined_snoc]
  cases parts with
  | nil => simp [joined]
  | cons p ps => simp

/-- **What is emitted part by part**: the parts in their order, separated by commas. -/
theorem foldlM_push {α : Type} (f : α → Except AnalysisError PyStr) (xs : List α) (opening : PyStr)
    (done : List PyStr) {o : Emission} :
    xs.foldlM (fun (o : Emission) x => (f x).map o.push)
        ⟨opening ++ joined done, done.isEmpty⟩ = .ok o ↔
      ∃ parts, xs.mapM f = .ok parts ∧
        o = ⟨opening ++ joined (done ++ parts), (done ++ parts).isEmpty⟩ := by
  induction xs generalizing done with
  | nil =>
    rw [foldlM_nil, mapM_nil]
    simp only [pure_ok]
    constructor
    · rintro rfl
      exact ⟨[], rfl, by rw [append_nil]⟩
    · rintro ⟨_, rfl, rfl⟩
      rw [append_nil]
  | cons x xs ih =>
    rw [foldlM_cons, bind_ok]
    constructor
    · rintro ⟨next, hnext, h⟩
      obtain ⟨part, hpart, rfl⟩ := map_ok.mp hnext
      rw [push_joined] at h
      obtain ⟨parts, hparts, rfl⟩ := (ih _).mp h
      refine ⟨part :: parts, mapM_cons_ok.mpr ⟨part, parts, hpart, hparts, rfl⟩, ?_⟩
      rw [append_assoc, singleton_append]
    · rintro ⟨_, hall, rfl⟩
      obtain ⟨part, parts, hpart, hparts, rfl⟩ := mapM_cons_ok.mp hall
      refine ⟨_, map_ok.mpr ⟨part, hpart, rfl⟩, ?_⟩
      rw [push_joined]
      refine (ih _).mpr ⟨parts, hparts, ?_⟩
      rw [append_assoc, singleton_append]

/-- Functions that return the same, with different errors, collect the same. -/
theorem mapM_ok_congr {ε ε' α β : Type} {f : α → Except ε β} {g : α → Except ε' β} {xs : List α}
    (h : ∀ x ∈ xs, ∀ y, f x = .ok y ↔ g x = .ok y) {ys : List β} :
    xs.mapM f = .ok ys ↔ xs.mapM g = .ok ys := by
  induction xs generalizing ys with
  | nil =>
    rw [mapM_nil, mapM_nil]
    simp only [pure_ok]
  | cons x xs ih =>
    rw [mapM_cons_ok, mapM_cons_ok]
    simp only [h x (by simp), ih fun y hy => h y (mem_cons_of_mem _ hy)]

theorem mapM_bytes {xs : List PyVal} {parts : List PyStr} :
    xs.mapM (bytes P) = .ok parts ↔ xs.mapM (canonicalJsonBytes P) = .ok parts :=
  mapM_ok_congr fun _ _ _ => bytes_ok

variable {rows : List PyVal}

/-- **The spool holds the text of the list of its rows.** -/
theorem spooled_iff :
    (∃ o, rows.foldlM (spoolRow P) ⟨py "[", true⟩ = .ok o ∧ o.written ++ py "]" = text) ↔
      canonicalJsonBytes P (.list rows) = .ok text := by
  have hfold : ∀ o, rows.foldlM (spoolRow P) ⟨py "[", true⟩ = .ok o ↔
      ∃ parts, rows.mapM (bytes P) = .ok parts ∧ o = ⟨py "[" ++ joined parts, parts.isEmpty⟩ := by
    intro o
    exact foldlM_push (bytes P) rows (py "[") []
  rw [canonicalJsonBytes_list]
  simp only [hfold, mapM_bytes]
  constructor
  · rintro ⟨_, ⟨parts, hparts, rfl⟩, rfl⟩
    exact ⟨parts, hparts, rfl⟩
  · rintro ⟨parts, hparts, rfl⟩
    exact ⟨_, ⟨parts, hparts, rfl⟩, rfl⟩

/-! ## The same pairs -/

theorem foldlM_append (rows kept : List PyVal) : rows.foldlM append kept = .ok (kept ++ rows) := by
  induction rows generalizing kept with
  | nil =>
    rw [append_nil]
    rfl
  | cons row rows ih =>
    rw [foldlM_cons]
    show rows.foldlM append (kept ++ [row]) = _
    rw [ih, append_assoc, singleton_append]

/-- A step that does with the rows it keeps what `store` does, and is otherwise the same for every
`store`: it succeeds iff it does when the rows are collected, and these can be stored. -/
def Uniform (step : (σ : Type) → (σ → PyVal → Except AnalysisError σ) → Rows σ →
    Except AnalysisError (Rows σ)) : Prop :=
  ∀ (σ : Type) (store : σ → PyVal → Except AnalysisError σ) (s t : Rows σ),
    step σ store s = .ok t ↔ ∃ rows, step (List PyVal) append ⟨s.ledger, s.stability, []⟩ =
      .ok ⟨t.ledger, t.stability, rows⟩ ∧ rows.foldlM store s.kept = .ok t.kept

/-- A step that only enters a row in the ledger. -/
theorem uniform_of_pure (row : PyVal) :
    Uniform fun _ _ s => .ok { s with ledger := s.ledger ++ [row] } := by
  intro σ store s t
  simp only [Except.ok.injEq]
  constructor
  · rintro rfl
    exact ⟨[], rfl, rfl⟩
  · rintro ⟨rows, h, hkept⟩
    obtain ⟨hledger, hstab, rfl⟩ := Rows.mk.inj h
    have hsame : s.kept = t.kept := Except.ok.inj hkept
    rw [hledger, hstab, hsame]

/-- One step after the other. -/
theorem Uniform.bind {step step' : (σ : Type) → (σ → PyVal → Except AnalysisError σ) → Rows σ →
    Except AnalysisError (Rows σ)} (h : Uniform step) (h' : Uniform step') :
    Uniform fun σ store s => step σ store s >>= step' σ store := by
  intro σ store s t
  simp only [bind_ok]
  constructor
  · rintro ⟨u, hu, ht⟩
    obtain ⟨rows, hrows, hkept⟩ := (h σ store s u).mp hu
    obtain ⟨rows', hrows', hkept'⟩ := (h' σ store u t).mp ht
    refine ⟨rows ++ rows', ⟨_, hrows, ?_⟩, ?_⟩
    · exact (h' _ append _ _).mpr ⟨rows', hrows', foldlM_append rows' rows⟩
    · rw [List.foldlM_append, hkept]
      exact hkept'
  · rintro ⟨all, ⟨u, hu, ht⟩, hkept⟩
    obtain ⟨rows', hrows', hall⟩ := (h' _ append _ _).mp ht
    rw [foldlM_append] at hall
    obtain rfl : u.kept ++ rows' = all := Except.ok.inj hall
    rw [List.foldlM_append, bind_ok] at hkept
    obtain ⟨middle, hmiddle, hkept⟩ := hkept
    exact ⟨⟨u.ledger, u.stability, middle⟩, (h σ store s _).mpr ⟨u.kept, hu, hmiddle⟩,
      (h' σ store _ t).mpr ⟨rows', hrows', hkept⟩⟩

/-- A loop of such steps. -/
theorem Uniform.foldlM {α : Type} {step : (σ : Type) → (σ → PyVal → Except AnalysisError σ) →
    Rows σ → α → Except AnalysisError (Rows σ)}
    (h : ∀ x, Uniform fun σ store s => step σ store s x) (xs : List α) :
    Uniform fun σ store s => xs.foldlM (step σ store) s := by
  induction xs with
  | nil =>
    intro σ store s t
    simp only [foldlM_nil, pure_ok]
    constructor
    · rintro rfl
      exact ⟨[], rfl, rfl⟩
    · rintro ⟨rows, hs, hkept⟩
      obtain ⟨hledger, hstab, rfl⟩ := Rows.mk.inj hs
      have hsame : s.kept = t.kept := Except.ok.inj hkept
      cases s
      cases t
      simp_all
  | cons x xs ih =>
    simp only [foldlM_cons]
    exact (h x).bind ih

theorem uniform_orderedPair (catalogs : Dict PyStr PyVal) (metricId : PyStr) (q : PyStr × PyStr) :
    Uniform fun _ store s => orderedPair M store catalogs metricId s q := by
  intro σ store s t
  simp only [orderedPair, append, bind_ok, pure, Except.pure, Except.ok.injEq]
  constructor
  · rintro ⟨anchor, ha, counterpart, hc, correspondence, hcorr, kept, hkept, survival,
      hsurvival, ambiguity, hambiguity, rfl⟩
    refine ⟨_, ⟨anchor, ha, counterpart, hc, correspondence, hcorr, _, rfl, survival,
      hsurvival, ambiguity, hambiguity, rfl⟩, ?_⟩
    rw [nil_append, foldlM_cons, hkept]
    rfl
  · rintro ⟨rows, ⟨anchor, ha, counterpart, hc, correspondence, hcorr, _, rfl, survival,
      hsurvival, ambiguity, hambiguity, hrows⟩, hkept⟩
    obtain ⟨hledger, hstab, rfl⟩ := Rows.mk.inj hrows
    rw [nil_append, foldlM_cons, bind_ok] at hkept
    obtain ⟨kept, hstore, hkept⟩ := hkept
    have hsame : kept = t.kept := Except.ok.inj hkept
    refine ⟨anchor, ha, counterpart, hc, correspondence, hcorr, kept, hstore, survival,
      hsurvival, ambiguity, hambiguity, ?_⟩
    rw [hledger, hstab, hsame]

theorem uniform_configurationPair (plan : DomainPlan) (catalogs : Dict PyStr PyVal)
    (p : PyStr × PyStr) :
    Uniform fun _ store s => configurationPair M store plan catalogs s p := by
  intro σ store s t
  simp only [configurationPair]
  cases (getItem plan.descriptors p.1).mapError AnalysisError.srfd with
  | error e => simp [bind, Except.bind]
  | ok left =>
    cases (getItem plan.descriptors p.2).mapError AnalysisError.srfd with
    | error e => simp [bind, Except.bind]
    | ok right =>
      simp only [bind, Except.bind]
      split
      · exact Uniform.foldlM (uniform_orderedPair catalogs _) _ σ store _ t
      · exact uniform_of_pure _ σ store s t

/-- **The loop over the pairs**: whatever is done with the rows of the correspondence list, they are
the rows that the analysis in memory collects. -/
theorem configurationPairs_ok {σ : Type} {store : σ → PyVal → Except AnalysisError σ}
    {plan : DomainPlan} {catalogs : Dict PyStr PyVal} {start : σ} {t : Rows σ} :
    configurationPairs M store plan catalogs start = .ok t ↔
      ∃ rows, configurationPairs M append plan catalogs [] = .ok ⟨t.ledger, t.stability, rows⟩ ∧
        rows.foldlM store start = .ok t.kept :=
  Uniform.foldlM (uniform_configurationPair plan catalogs) _ σ store ⟨[], [], start⟩ t

/-! ## The document -/

/-- **A record that is emitted item by item, in the order of its names, is its canonical text.** -/
theorem emitted_iff {r : Record} (hnd : r.keys.Nodup)
    {emit : PyStr → Except AnalysisError PyStr}
    (hemit : ∀ p ∈ r, ∀ part, emit p.1 = .ok part ↔ itemBytes P p = .ok part) :
    ((do
      let o ← (sortedSet r.keys).foldlM (fun (o : Emission) key => (emit key).map o.push)
        ⟨py "\x7b", true⟩
      return o.written ++ py "\x7d") : Except AnalysisError PyStr) = .ok text ↔
      canonicalJsonBytes P (.ofRecord r) = .ok text := by
  have hkeys : sortedSet r.keys = (sortedBy Prod.fst r).map Prod.fst := by
    rw [sortedSet_of_nodup hnd, Dict.keys, sortedBy_map]
    rfl
  have hfold : ∀ o, (sortedSet r.keys).foldlM
      (fun (o : Emission) key => (emit key).map o.push) ⟨py "\x7b", true⟩ = .ok o ↔
      ∃ parts, (sortedBy Prod.fst r).mapM (itemBytes P) = .ok parts ∧
        o = ⟨py "\x7b" ++ joined parts, parts.isEmpty⟩ := by
    intro o
    refine (foldlM_push emit (sortedSet r.keys) (py "\x7b") []).trans
      (exists_congr fun parts => and_congr_left fun _ => ?_)
    rw [hkeys, mapM_map]
    exact mapM_ok_congr fun p hp part => hemit p (mem_sortedBy.mp hp) part
  rw [canonicalJsonBytes_ofRecord, bind_ok]
  simp only [hfold, pure_ok]
  constructor
  · rintro ⟨_, ⟨parts, hparts, rfl⟩, rfl⟩
    exact ⟨parts, hparts, rfl⟩
  · rintro ⟨parts, hparts, rfl⟩
    exact ⟨_, ⟨parts, hparts, rfl⟩, rfl⟩

/-- The document of these values and rows, with its hash or without. -/
def document (values : Record) (rows : List PyVal) (hash : Option PyStr) : Record :=
  values ++ (py "family_correspondence_split_merge", .list rows) ::
    (hash.map fun text => (py "logical_hash", PyVal.str text)).toList

/-- The names of the values of the document. -/
def domainNames : List PyStr :=
  [py "schema", py "domain_id", py "configuration_count", py "sensitivity_metrics",
    py "per_configuration_stability", py "pair_qualification_ledger", py "ordered_pair_stability",
    py "invariant_core_support", py "method_disagreement", py "scientific_disposition",
    py "authority_effect"]

theorem nodup_domainNames : (domainNames ++ [py "family_correspondence_split_merge",
    py "logical_hash"]).Nodup := by decide +kernel

variable {values : Record}

theorem keys_domainValues {plan : DomainPlan} {catalogs : Dict PyStr PyVal}
    {ledger stability : List PyVal}
    (h : domainValues M plan catalogs ledger stability = .ok values) :
    values.keys = domainNames := by
  simp only [domainValues, bind_ok, pure_ok] at h
  obtain ⟨_, -, _, -, _, -, _, -, rfl⟩ := h
  rfl

variable {hash : Option PyStr}

theorem keys_document {r : List PyVal} : Dict.keys (document values r hash) = values.keys ++
      py "family_correspondence_split_merge" :: (hash.map fun _ => py "logical_hash").toList := by
  cases hash <;> simp [document, Dict.keys]

theorem nodup_document (hvals : values.keys = domainNames) :
    (Dict.keys (document values rows hash)).Nodup := by
  rw [keys_document, hvals]
  refine nodup_domainNames.sublist (Sublist.append_left (Sublist.cons_cons _ ?_) _)
  cases hash <;> simp

/-- **What is emitted is the canonical text of the document**, if the spool is that of its list. -/
theorem emitTopLevel_ok (hvals : values.keys = domainNames) {spool : PyStr}
    (hspool : canonicalJsonBytes P (.list rows) = .ok spool) :
    emitTopLevel P values spool hash = .ok text ↔
      canonicalJsonBytes P (.ofRecord (document values rows hash)) = .ok text := by
  have hall : (values.keys ++ [py "family_correspondence_split_merge",
      py "logical_hash"]).Nodup := hvals ▸ nodup_domainNames
  rw [emitTopLevel, ← keys_document (r := rows)]
  refine emitted_iff (nodup_document hvals) fun p hp part => ?_
  have hval : ∀ text, emitValue P values spool hash p.1 = .ok text ↔
      canonicalJsonBytes P p.2 = .ok text := by
    intro text
    obtain ⟨hnames, -, hdisj⟩ := nodup_append.mp hall
    rw [document, mem_append, mem_cons] at hp
    rcases hp with hp | rfl | hp
    · -- one of the values
      have hkey := mem_map_of_mem (f := Prod.fst) hp
      have hlist : p.1 ≠ py "family_correspondence_split_merge" := hdisj _ hkey _ (by simp)
      have hhash : p.1 ≠ py "logical_hash" := hdisj _ hkey _ (by simp)
      rw [emitValue, if_neg hlist, if_neg hhash, getItem, Dict.get?_of_mem hnames hp]
      exact bytes_ok
    · -- the correspondence list
      rw [emitValue, if_pos rfl, hspool]
      simp only [Except.ok.injEq]
    · -- the hash
      cases hash with
      | none => cases hp
      | some hashed =>
        obtain rfl := mem_singleton.mp hp
        have hne : py "logical_hash" ≠ py "family_correspondence_split_merge" := by
          decide +kernel
        rw [emitValue, if_neg hne, if_pos rfl]
        exact bytes_ok
  simp only [emitItem, itemBytes, bind_ok, bytes_ok, hval, pure_ok]

/-- **The streamed analysis is the analysis in memory.** Whatever file is written, the analysis in
memory returns a document with that canonical text and that hash; and whenever the analysis in
memory returns a document, a file is written. -/
theorem streamed_analysis_agrees (P : Platform) (M : DomainMetrics) (records : List Record)
    (preparation : Record) (catalogs : Dict PyStr PyVal) :
    (∀ written analysis,
      streamAnalyseDomainToFile P M records preparation catalogs = .ok (written, analysis) →
      ∃ doc, analyseDomain P M records preparation catalogs = .ok doc ∧
        canonicalJsonBytes P (.ofRecord doc) = .ok written ∧
        doc.get? (py "logical_hash") = some (.str analysis.logicalHash)) ∧
    (∀ doc, analyseDomain P M records preparation catalogs = .ok doc → ∃ written analysis,
      streamAnalyseDomainToFile P M records preparation catalogs = .ok (written, analysis)) := by
  have hpay : ∀ (values : Record) (rows : List PyVal), document values rows none =
      values ++ [(py "family_correspondence_split_merge", .list rows)] := fun _ _ => rfl
  have hdocument : ∀ (values : Record) (rows : List PyVal) (hash : PyStr),
      document values rows (some hash) = document values rows none ++
        [(py "logical_hash", .str hash)] := fun values rows hash => by
    rw [document, document, append_assoc]
    rfl
  constructor
  · intro written analysis h
    simp only [streamAnalyseDomainToFile, bind_ok, pure_ok,
      Prod.mk.injEq] at h
    obtain ⟨plan, hplan, t, ht, values, hvals, payload, hemitted, _, hwritten, rfl, rfl⟩ := h
    obtain ⟨rows, hrows, hkept⟩ := configurationPairs_ok.mp ht
    have hspool := spooled_iff.mp ⟨t.kept, hkept, rfl⟩
    have hkeys := keys_domainValues hvals
    rw [emitTopLevel_ok hkeys hspool] at hemitted hwritten
    refine ⟨_, ?_, hwritten, ?_⟩
    · simp only [analyseDomain, bind_ok, pure_ok]
      refine ⟨plan, hplan, _, hrows, values, hvals, (P.sha256 payload).text, ?_, ?_⟩
      · rw [← hpay, mapError_ok, logicalSha256, mapError_ok]
        exact map_ok.mpr ⟨payload, hemitted, rfl⟩
      · rw [← hpay, ← hdocument]
    · refine Dict.get?_of_mem (nodup_document hkeys) ?_
      rw [hdocument]
      exact mem_append_right _ (mem_singleton_self _)
  · intro doc h
    simp only [analyseDomain, bind_ok, pure_ok] at h
    obtain ⟨plan, hplan, t, ht, values, hvals, hash, hhash, rfl⟩ := h
    rw [← hpay, mapError_ok, logicalSha256, mapError_ok] at hhash
    obtain ⟨payload, hbytes, rfl⟩ := map_ok.mp hhash
    have hkeys := keys_domainValues hvals
    -- every item of the payload is written, the list among them
    have hitems : ∀ p ∈ document values t.kept none, Returns (itemBytes P p) := by
      obtain ⟨parts, hparts, -⟩ := canonicalJsonBytes_ofRecord.mp hbytes
      exact fun p hp => returns_mapM.mp ⟨parts, hparts⟩ p (mem_sortedBy.mpr hp)
    obtain ⟨spool, hspool⟩ : Returns (canonicalJsonBytes P (.list t.kept)) := by
      obtain ⟨part, hpart⟩ := hitems _ (mem_append_right values mem_cons_self)
      simp only [itemBytes, bind_ok] at hpart
      obtain ⟨_, -, spool, hspool, -⟩ := hpart
      exact ⟨spool, hspool⟩
    obtain ⟨o, ho, rfl⟩ := spooled_iff.mpr hspool
    have hpairs : configurationPairs M (spoolRow P) plan catalogs ⟨py "[", true⟩ =
        .ok ⟨t.ledger, t.stability, o⟩ := configurationPairs_ok.mpr ⟨t.kept, ht, ho⟩
    -- the hash is a text, so the document is written as well
    obtain ⟨written, hwritten⟩ : Returns (canonicalJsonBytes P
        (.ofRecord (document values t.kept (some (P.sha256 payload).text)))) := by
      obtain ⟨parts, hparts⟩ : Returns ((sortedBy Prod.fst
          (document values t.kept (some (P.sha256 payload).text))).mapM (itemBytes P)) := by
        refine returns_mapM.mpr fun p hp => ?_
        rw [mem_sortedBy, hdocument, mem_append, mem_singleton] at hp
        rcases hp with hp | rfl
        · exact hitems p hp
        · have hname := canonicalJsonBytes_str (P := P).mpr ⟨encodable_py "logical_hash", rfl⟩
          have hval := canonicalJsonBytes_str (P := P).mpr ⟨(P.sha256 payload).encodable, rfl⟩
          simp only [itemBytes, hname, hval]
          exact ⟨_, rfl⟩
      exact ⟨_, canonicalJsonBytes_ofRecord.mpr ⟨parts, hparts, rfl⟩⟩
    refine ⟨written, ⟨plan.domainId, plan.orderedIds.length, (P.sha256 payload).text,
      (P.sha256 written).text, Sha256.utf8Length written⟩, ?_⟩
    simp only [streamAnalyseDomainToFile, bind_ok, pure_ok,
      Prod.mk.injEq]
    exact ⟨plan, hplan, _, hpairs, values, hvals, payload,
      (emitTopLevel_ok hkeys hspool).mpr hbytes, written,
      (emitTopLevel_ok hkeys hspool).mpr hwritten, rfl, rfl⟩

end OvcReplay.Srfd
