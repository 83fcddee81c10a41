import OvcReplay.MarketGrammar.EpisodeLedger
import OvcReplay.Lists.Groups

/-! # Episodes are groups

The scan of the ledger is the scan that cuts a list into groups: a record is live when it can be
evaluated, it joins the record before it when the parent is the same and it carries no reset, and a
completion ends the group. The ledger of more records starts with the same scan. -/

namespace OvcReplay.MarketGrammar

open List Python OvcReplay.Lists

variable {P : Platform} {upper : PyStr → PyStr}

/-! ## The groups -/

/-- The record can be evaluated. -/
def Evaluable (x : C2LedgerInput) : Prop := x.computabilityStatus = .evaluable

instance : DecidablePred Evaluable := fun x =>
  inferInstanceAs (Decidable (x.computabilityStatus = .evaluable))

/-- The record belongs with the one before it. -/
def Joins (p x : C2LedgerInput) : Prop :=
  x.resetReason = none ∧ p.parentRecordId = x.parentRecordId

instance : DecidableRel Joins := fun _ _ => inferInstanceAs (Decidable (_ ∧ _))

/-- The record completes its episode. -/
def Completes (x : C2LedgerInput) : Prop := x.transitionKind ∈ completions

instance : DecidablePred Completes := fun x =>
  inferInstanceAs (Decidable (x.transitionKind ∈ completions))

/-- The groups of records. -/
def groupsOf (values : List C2LedgerInput) : Groups C2LedgerInput :=
  Groups.init.after Evaluable Joins Completes values

/-- **The scan stands where the groups stand.** -/
structure Scan.Shows (s : Scan) (g : Groups C2LedgerInput) : Prop where
  episodes : s.episodes.map EpisodeRecord.memberRecordIds =
    g.closed.map (List.map C2LedgerInput.recordId)
  active : s.active = g.active
  parent : ∀ x ∈ s.active, x.parentRecordId = s.activeParent

theorem Scan.shows_empty : Scan.empty.Shows Groups.init :=
  ⟨rfl, rfl, fun _ hx => absurd hx not_mem_nil⟩

variable {boundary reason : Option PyStr} {status : EpisodeStatus} {cause : BoundaryCause}

theorem finalise_ok {first : C2LedgerInput} {others : List C2LedgerInput}
    {kinds : List PhaseKind} {e : EpisodeRecord}
    (h : finalise P first others kinds status cause boundary reason = .ok e) :
    e.memberRecordIds = (first :: others).map C2LedgerInput.recordId ∧ e.status = status := by
  rw [finalise] at h
  obtain ⟨episodeId, -, h⟩ := bind_ok.mp h
  obtain ⟨phases, -, h⟩ := bind_ok.mp h
  cases h
  exact ⟨rfl, rfl⟩

variable {s s' : Scan}

/-- **What closing does**: the episode that grew, if there was one, is added. -/
theorem Scan.close_ok (h : s.close P status cause boundary reason = .ok s') :
    s'.active = [] ∧ s'.excluded = s.excluded ∧ ((s.active = [] ∧ s'.episodes = s.episodes) ∨
        ∃ e, s'.episodes = s.episodes ++ [e] ∧ e.status = status ∧ s.active ≠ [] ∧
          e.memberRecordIds = s.active.map C2LedgerInput.recordId) := by
  obtain ⟨episodes, excluded, active, kinds, activeParent⟩ := s
  cases active with
  | nil =>
    cases h
    exact ⟨rfl, rfl, .inl ⟨rfl, rfl⟩⟩
  | cons first others =>
    obtain ⟨e, he, h⟩ := bind_ok.mp h
    cases h
    obtain ⟨hmems, hstat⟩ := finalise_ok he
    exact ⟨rfl, rfl, .inr ⟨e, rfl, hstat, cons_ne_nil _ _, hmems⟩⟩

theorem Scan.Shows.close {s s' : Scan} {g : Groups C2LedgerInput} (hshows : s.Shows g)
    {status : EpisodeStatus} {cause : BoundaryCause} {boundary reason : Option PyStr}
    (h : s.close P status cause boundary reason = .ok s') : s'.Shows g.close := by
  obtain ⟨hact, -, ⟨hnil, heps⟩ | ⟨e, heps, -, hne, hmems⟩⟩ := Scan.close_ok h
  · refine ⟨?_, by rw [hact, Groups.active_close], by simp [hact]⟩
    rw [heps, hshows.episodes, Groups.close_of_active (hshows.active ▸ hnil)]
  · refine ⟨?_, by rw [hact, Groups.active_close], by simp [hact]⟩
    rw [heps, Groups.closed_close_of_ne (hshows.active ▸ hne), map_append, map_append,
      hshows.episodes, ← hshows.active]
    simp [hmems]

theorem Scan.closeIf_ok {condition : Prop} [Decidable condition]
    (h : s.closeIf P condition status cause boundary reason = .ok s') :
    (condition ∧ s.close P status cause boundary reason = .ok s') ∨ (¬ condition ∧ s' = s) := by
  rw [Scan.closeIf] at h
  by_cases hcond : condition
  · rw [if_pos hcond] at h
    exact .inl ⟨hcond, h⟩
  · rw [if_neg hcond] at h
    exact .inr ⟨hcond, (Except.ok.inj h).symm⟩

variable {g : Groups C2LedgerInput} {record : C2LedgerInput}

/-- A record of the parent of the episode becomes a member. -/
theorem Scan.Shows.append {s : Scan} (hshows : s.Shows g) {changed : Bool}
    (hpar : s.active = [] ∨ record.parentRecordId = s.activeParent) :
    (s.append record changed).Shows (g.add record) := by
  refine ⟨hshows.episodes, ?_, ?_⟩
  · rw [Groups.add, ← hshows.active]
    rfl
  · intro x hx
    rw [Scan.append] at hx ⊢
    rcases hpar with hnil | hsame
    · rw [hnil, nil_append, mem_singleton] at hx
      simp [hx, hnil]
    · have hall : ∀ y ∈ s.active ++ [record], y.parentRecordId = s.activeParent := by
        simpa [or_imp, forall_and, hsame] using hshows.parent
      by_cases hempty : s.active.isEmpty = true
      · rw [isEmpty_iff.mp hempty, nil_append, mem_singleton] at hx
        rw [if_pos hempty, hx]
      · rw [if_neg hempty]
        exact hall x hx

/-- When a record goes on with the episode. -/
theorem Scan.Shows.continues_iff {s : Scan} (hshows : s.Shows g) (record : C2LedgerInput) :
    Groups.Continues Joins g record ↔ record.resetReason = none ∧ s.active ≠ [] ∧
      record.parentRecordId = s.activeParent := by
  rw [Groups.Continues, ← hshows.active]
  cases hlast : s.active.getLast? with
  | none =>
    rw [getLast?_eq_none_iff] at hlast
    simp [hlast]
  | some p =>
    have hmem : p ∈ s.active := mem_of_getLast? hlast
    have hne : s.active ≠ [] := ne_nil_of_mem hmem
    show record.resetReason = none ∧ p.parentRecordId = record.parentRecordId ↔ _
    rw [hshows.parent p hmem]
    simp [hne, eq_comm]

/-- **A record that can be evaluated** enters the groups. -/
theorem Scan.Shows.include (hshows : s.Shows g) (hlive : Evaluable record)
    (h : s.include P record = .ok s') :
    s'.Shows (g.step Evaluable Joins Completes record) := by
  obtain ⟨s₁, hreset, h⟩ := bind_ok.mp h
  obtain ⟨s₂, hchanged, h⟩ := bind_ok.mp h
  have hcontinues := hshows.continues_iff record
  have henter : (s₂.append record (decide (s₁.Changed record))).Shows (g.enter Joins record) := by
    rw [Groups.enter]
    rcases Scan.closeIf_ok hreset with ⟨hsome, hclosed⟩ | ⟨hnone, rfl⟩
    · -- a reset closes the episode, so that no parent is left to change
      have hact : s₁.active = [] := (Scan.close_ok hclosed).1
      rcases Scan.closeIf_ok hchanged with ⟨hchg, -⟩ | ⟨-, rfl⟩
      · exact absurd hchg.1 (by simp [hact])
      · rw [if_neg fun hgoes => hsome (hcontinues.mp hgoes).1]
        exact (hshows.close hclosed).append (.inl hact)
    · have hunset : record.resetReason = none := not_not.mp hnone
      rcases Scan.closeIf_ok hchanged with ⟨hchg, hclosed⟩ | ⟨hsame, rfl⟩
      · rw [if_neg fun hgoes => hchg.2 (hcontinues.mp hgoes).2.2]
        exact (hshows.close hclosed).append (.inl (Scan.close_ok hclosed).1)
      · by_cases hnil : s₂.active = []
        · rw [if_neg fun hgoes => (hcontinues.mp hgoes).2.1 hnil,
            Groups.close_of_active (hshows.active ▸ hnil)]
          exact hshows.append (.inl hnil)
        · have hpar : record.parentRecordId = s₂.activeParent := by
            by_contra hne
            exact hsame ⟨by simpa using hnil, hne⟩
          rw [if_pos (hcontinues.mpr ⟨hunset, hnil, hpar⟩)]
          exact hshows.append (.inr hpar)
  rw [Groups.step, if_pos hlive]
  rcases Scan.closeIf_ok h with ⟨hends, hclosed⟩ | ⟨hends, rfl⟩
  · rw [if_pos (show Completes record from hends)]
    exact henter.close hclosed
  · rw [if_neg (show ¬ Completes record from hends)]
    exact henter

/-- The scan only adds episodes and excluded records. -/
theorem Scan.close_frame (h : s.close P status cause boundary reason = .ok s') :
    s.episodes <+: s'.episodes ∧ s'.excluded = s.excluded := by
  obtain ⟨-, hexcl, ⟨-, heps⟩ | ⟨e, heps, -⟩⟩ := Scan.close_ok h
  · exact ⟨heps ▸ prefix_refl _, hexcl⟩
  · exact ⟨heps ▸ prefix_append _ _, hexcl⟩

theorem Scan.closeIf_frame {condition : Prop} [Decidable condition]
    (h : s.closeIf P condition status cause boundary reason = .ok s') :
    s.episodes <+: s'.episodes ∧ s'.excluded = s.excluded := by
  rcases Scan.closeIf_ok h with ⟨-, hclosed⟩ | ⟨-, rfl⟩
  · exact Scan.close_frame hclosed
  · exact ⟨prefix_refl _, rfl⟩

/-- **One record**: the groups take their step, episodes are only added, and the record is listed
when it cannot be evaluated. -/
theorem Scan.visit_ok (h : s.visit P record = .ok s') :
    (∀ g, s.Shows g → s'.Shows (g.step Evaluable Joins Completes record)) ∧
      s.episodes <+: s'.episodes ∧
      s'.excluded.map NotEvaluableRecord.sourceRecordId =
        s.excluded.map NotEvaluableRecord.sourceRecordId ++
          ([record].filter fun x => ¬ Evaluable x).map C2LedgerInput.recordId := by
  rw [Scan.visit] at h
  by_cases hlive : Evaluable record
  · rw [if_pos (show record.computabilityStatus = .evaluable from hlive)] at h
    refine ⟨fun g hshows => hshows.include hlive h, ?_⟩
    obtain ⟨s₁, hreset, h⟩ := bind_ok.mp h
    obtain ⟨s₂, hchg, h⟩ := bind_ok.mp h
    obtain ⟨hone, hsame⟩ := Scan.closeIf_frame hreset
    obtain ⟨htwo, hsame'⟩ := Scan.closeIf_frame hchg
    obtain ⟨hthree, hsame''⟩ := Scan.closeIf_frame h
    refine ⟨(hone.trans htwo).trans hthree, ?_⟩
    rw [hsame'', Scan.append, hsame', hsame]
    simp [hlive]
  · rw [if_neg (show ¬ record.computabilityStatus = .evaluable from hlive)] at h
    obtain ⟨s₁, hclosed, h⟩ := bind_ok.mp h
    cases h
    obtain ⟨hone, hsame⟩ := Scan.close_frame hclosed
    refine ⟨fun g hshows => ?_, hone, ?_⟩
    · rw [Groups.step, if_neg hlive]
      obtain ⟨heps, hact, hpar⟩ := hshows.close hclosed
      exact ⟨heps, hact, hpar⟩
    · simp [hsame, hlive]

variable {values : List C2LedgerInput}

/-- **A run of records.** -/
theorem Scan.foldlM_visit (h : values.foldlM (Scan.visit P) s = .ok s') :
    (∀ g, s.Shows g → s'.Shows (g.after Evaluable Joins Completes values)) ∧
      s.episodes <+: s'.episodes ∧
      s'.excluded.map NotEvaluableRecord.sourceRecordId =
        s.excluded.map NotEvaluableRecord.sourceRecordId ++
          (values.filter fun x => ¬ Evaluable x).map C2LedgerInput.recordId := by
  induction values generalizing s with
  | nil =>
    cases h
    exact ⟨fun g hshows => hshows, prefix_refl _, (append_nil _).symm⟩
  | cons record values ih =>
    obtain ⟨s₁, hvisit, h⟩ := bind_ok.mp h
    obtain ⟨hstep, hone, hexcl⟩ := Scan.visit_ok hvisit
    obtain ⟨hrun, hrest, hexcl'⟩ := ih h
    refine ⟨fun g hshows => hrun _ (hstep g hshows), hone.trans hrest, ?_⟩
    rw [hexcl', hexcl, append_assoc, ← map_append, ← filter_append]
    rfl

/-! ## The order of the records -/

/-- The records that were read, in the order of their times. -/
structure TimeOrdered (P : Platform) (upper : PyStr → PyStr) (records : List Submission)
    (values : List C2LedgerInput) : Prop where
  perm : ∃ read, records.mapM (Submission.read P upper) = .ok read ∧ values.Perm read
  sorted : values.Pairwise fun x y =>
    ∀ t u, x.instant P = .ok t → y.instant P = .ok u → t ≤ u

theorem timed_ok {x : C2LedgerInput} {p : Int × C2LedgerInput} (h : timed P x = .ok p) :
    x.instant P = .ok p.1 ∧ p.2 = x := by
  obtain ⟨t, ht, rfl⟩ := map_ok.mp h
  exact ⟨ht, rfl⟩

/-- Records with their instants. -/
theorem map_snd_of_timed {pairs : List (Int × C2LedgerInput)}
    (h : values.mapM (timed P) = .ok pairs) :
    pairs.map Prod.snd = values ∧ ∀ p ∈ pairs, p.2.instant P = .ok p.1 := by
  have hall := mapM_ok_iff.mp h
  clear h
  induction hall with
  | nil => exact ⟨rfl, by simp⟩
  | cons hone _ ih =>
    obtain ⟨ht, hsame⟩ := timed_ok hone
    refine ⟨by rw [map_cons, hsame, ih.1], ?_⟩
    rintro p (_ | ⟨_, hp⟩)
    · rwa [hsame]
    · exact ih.2 p hp

theorem le_of_timeKey_le {p q : Int × C2LedgerInput} (h : timeKey p ≤ timeKey q) : p.1 ≤ q.1 := by
  rcases Prod.Lex.toLex_le_toLex.mp h with hlt | ⟨heq, -⟩
  · exact hlt.le
  · exact heq.le

/-- What the order of the records is. -/
theorem inTimeOrder_ok {ordered : List (Int × C2LedgerInput)}
    (h : inTimeOrder P values = .ok ordered) :
    ∃ pairs, values.mapM (timed P) = .ok pairs ∧ ordered = sortedBy timeKey pairs ∧
      (ordered.map Prod.snd).Perm values ∧
      (ordered.map Prod.snd).Pairwise fun x y =>
        ∀ t u, x.instant P = .ok t → y.instant P = .ok u → t ≤ u := by
  obtain ⟨pairs, hpairs, rfl⟩ := map_ok.mp h
  obtain ⟨hsnd, hinst⟩ := map_snd_of_timed hpairs
  refine ⟨pairs, hpairs, rfl, ?_, ?_⟩
  · rw [← hsnd]
    exact (sortedBy_perm timeKey pairs).map Prod.snd
  · rw [pairwise_map]
    refine (sortedBy_pairwise timeKey pairs).imp_of_mem ?_
    intro p q hp hq hle t u ht hu
    cases (hinst p (mem_sortedBy.mp hp)).symm.trans ht
    cases (hinst q (mem_sortedBy.mp hq)).symm.trans hu
    exact le_of_timeKey_le hle

variable {ledger : EpisodeLedger}

/-- **A ledger that was built**: its records in their order and its scan. -/
theorem buildEpisodeLedger_ok {records : List Submission} {cutoff : PyVal}
    (h : buildEpisodeLedger P upper records cutoff = .ok ledger) :
    ∃ read ordered scanned s, records.mapM (Submission.read P upper) = .ok read ∧
      inTimeOrder P read = .ok ordered ∧
      ((ordered.map Prod.snd).map C2LedgerInput.recordId).Nodup ∧
      (ordered.map Prod.snd).foldlM (Scan.visit P) Scan.empty = .ok scanned ∧
      scanned.close P .openAtCutoff .endOfInput none none = .ok s ∧
      ledger.episodes = s.episodes ∧ ledger.notEvaluable = s.excluded := by
  obtain ⟨cutoff', -, h⟩ := bind_ok.mp h
  obtain ⟨read, hread, h⟩ := bind_ok.mp h
  obtain ⟨_, -, h⟩ := bind_ok.mp h
  obtain ⟨ordered, hord, h⟩ := bind_ok.mp h
  obtain ⟨_, hadmission, h⟩ := bind_ok.mp h
  obtain ⟨_, hids, -⟩ := bind_ok.mp hadmission
  cases hvals : ordered.map Prod.snd with
  | nil =>
    rw [hvals] at h
    cases h
  | cons first others =>
    rw [hvals] at h
    obtain ⟨scanned, hscanned, h⟩ := bind_ok.mp h
    obtain ⟨s, hclose, h⟩ := bind_ok.mp h
    obtain ⟨ledgerId, -, h⟩ := bind_ok.mp h
    cases h
    rw [← hvals] at hscanned ⊢
    exact ⟨read, ordered, scanned, s, hread, hord, check_ok.mp hids, hscanned, hclose, rfl,
      rfl⟩

/-! ## The partition -/

/-- The records are members of one episode. -/
def SameEpisode (ledger : EpisodeLedger) (a b : C2LedgerInput) : Prop :=
  ∃ e ∈ ledger.episodes, a.recordId ∈ e.memberRecordIds ∧ b.recordId ∈ e.memberRecordIds

/-- The episodes are the groups of the records. -/
theorem episodes_eq_groups {scanned s : Scan}
    (hscanned : values.foldlM (Scan.visit P) Scan.empty = .ok scanned)
    (hclose : scanned.close P .openAtCutoff .endOfInput none none = .ok s) :
    s.episodes.map EpisodeRecord.memberRecordIds =
      (groupsOf values).all.map (List.map C2LedgerInput.recordId) :=
  (((Scan.foldlM_visit hscanned).1 _ Scan.shows_empty).close hclose).episodes

/-- With distinct ids the members of one group are the members of one episode. -/
theorem sameEpisode_iff (hids : (values.map C2LedgerInput.recordId).Nodup)
    (hgroups : ledger.episodes.map EpisodeRecord.memberRecordIds =
      (groupsOf values).all.map (List.map C2LedgerInput.recordId))
    {a b : C2LedgerInput} (ha : a ∈ values) (hb : b ∈ values) :
    SameEpisode ledger a b ↔ Groups.Together (groupsOf values) a b := by
  have hmem : ∀ g ∈ (groupsOf values).all, ∀ x ∈ values,
      x.recordId ∈ g.map C2LedgerInput.recordId ↔ x ∈ g := by
    intro g hg x hx
    refine ⟨fun hid => ?_, mem_map_of_mem⟩
    obtain ⟨y, hy, hsame⟩ := mem_map.mp hid
    have hyvalues : y ∈ values := by
      have hflat : y ∈ (groupsOf values).all.flatten := mem_flatten.mpr ⟨g, hg, hy⟩
      rw [groupsOf, Groups.flatten_all_after] at hflat
      exact mem_of_mem_filter hflat
    rwa [← inj_on_of_nodup_map hids hyvalues hx hsame]
  constructor
  · rintro ⟨e, he, hae, hbe⟩
    have hmems : e.memberRecordIds ∈ ledger.episodes.map EpisodeRecord.memberRecordIds :=
      mem_map_of_mem he
    rw [hgroups] at hmems
    obtain ⟨g, hg, hsame⟩ := mem_map.mp hmems
    rw [← hsame] at hae hbe
    exact ⟨g, hg, (hmem g hg a ha).mp hae, (hmem g hg b hb).mp hbe⟩
  · rintro ⟨g, hg, hag, hbg⟩
    have hmems : g.map C2LedgerInput.recordId ∈
        ledger.episodes.map EpisodeRecord.memberRecordIds := by
      rw [hgroups]
      exact mem_map_of_mem hg
    obtain ⟨e, he, hsame⟩ := mem_map.mp hmems
    exact ⟨e, he, hsame ▸ mem_map_of_mem hag, hsame ▸ mem_map_of_mem hbg⟩

/-- The members of the episodes, one after the other, are the evaluable records. -/
theorem flatMap_memberRecordIds
    (hgroups : ledger.episodes.map EpisodeRecord.memberRecordIds =
      (groupsOf values).all.map (List.map C2LedgerInput.recordId)) :
    ledger.episodes.flatMap EpisodeRecord.memberRecordIds =
      (values.filter fun x => Evaluable x).map C2LedgerInput.recordId := by
  rw [flatMap_def, hgroups, ← map_flatten, groupsOf, Groups.flatten_all_after]

/-- An id that is once among the members is a member of exactly one episode. -/
theorem existsUnique_episode {episodes : List EpisodeRecord} {id : PyStr}
    (hids : (episodes.flatMap EpisodeRecord.memberRecordIds).Nodup)
    (h : id ∈ episodes.flatMap EpisodeRecord.memberRecordIds) :
    ∃! e, e ∈ episodes ∧ id ∈ e.memberRecordIds := by
  obtain ⟨e, he, hid⟩ := mem_flatMap.mp h
  refine ⟨e, ⟨he, hid⟩, ?_⟩
  rintro e' ⟨he', hid'⟩
  by_contra hne
  have hdisj := (nodup_flatMap.mp hids).2
  have hsymm : Std.Symm
      (Function.onFun Disjoint EpisodeRecord.memberRecordIds) := ⟨fun _ _ hd => hd.symm⟩
  exact hdisj.forall he' he hne hid' hid

/-! ## More records -/

/-- **The order with later records** starts with the order without them. -/
theorem inTimeOrder_append {read read' later : List C2LedgerInput}
    {ordered ordered' : List (Int × C2LedgerInput)} (h : inTimeOrder P read = .ok ordered)
    (h' : inTimeOrder P read' = .ok ordered')
    (hids : ((ordered'.map Prod.snd).map C2LedgerInput.recordId).Nodup)
    (hperm : read'.Perm (read ++ later))
    (hlater : ∀ x ∈ read, ∀ y ∈ later, ∀ t u, x.instant P = .ok t → y.instant P = .ok u → t < u) :
    ∃ rest, ordered' = ordered ++ rest := by
  obtain ⟨pairs, hpairs, rfl, -, -⟩ := inTimeOrder_ok h
  obtain ⟨pairs', hpairs', rfl, -, -⟩ := inTimeOrder_ok h'
  have hrets : Returns (later.mapM (timed P)) := returns_mapM.mpr fun y hy =>
    returns_mapM.mp ⟨pairs', hpairs'⟩ y (hperm.mem_iff.mpr (mem_append_right _ hy))
  obtain ⟨lates, hlates⟩ := hrets
  have hpermuted : pairs'.Perm (pairs ++ lates) :=
    perm_of_mapM hperm hpairs' (mapM_append_ok hpairs hlates)
  refine ⟨sortedBy timeKey lates, ?_⟩
  rw [← sortedBy_append, sortedBy_eq_of_perm _ hpermuted]
  · intro p hp q hq hkey
    rw [map_map] at hids
    refine inj_on_of_nodup_map hids (mem_sortedBy.mpr hp) (mem_sortedBy.mpr hq) ?_
    exact congrArg Prod.snd (toLex_inj.mp hkey)
  · intro p hp q hq
    obtain ⟨hsnd, hinst⟩ := map_snd_of_timed hpairs
    obtain ⟨hsnd', hinst'⟩ := map_snd_of_timed hlates
    have hlt : p.1 < q.1 := hlater p.2 (hsnd ▸ mem_map_of_mem hp) q.2
      (hsnd' ▸ mem_map_of_mem hq) p.1 q.1 (hinst p hp) (hinst' q hq)
    exact Prod.Lex.toLex_le_toLex.mpr (.inl hlt)

/-- **The episode ledger is a maximal partition and does not change with later records.** Every
record that can be evaluated is a member of exactly one episode and the other ones are listed; two
of them with none between them are in one episode exactly when they are neighbours in time, have
the same parent, the later one carries no reset and the earlier one completes nothing; and an
episode that was closed is an episode of every ledger of the same and later records. -/
theorem episodes_partition {records : List Submission} {cutoff : PyVal} {ledger : EpisodeLedger}
    (h : buildEpisodeLedger P upper records cutoff = .ok ledger) :
    (∃ values, TimeOrdered P upper records values ∧ (values.map C2LedgerInput.recordId).Nodup ∧
      (∀ x ∈ values, Evaluable x → ∃! e, e ∈ ledger.episodes ∧ x.recordId ∈ e.memberRecordIds) ∧
      ledger.episodes.flatMap EpisodeRecord.memberRecordIds =
        (values.filter fun x => Evaluable x).map C2LedgerInput.recordId ∧
      ledger.notEvaluable.map NotEvaluableRecord.sourceRecordId =
        (values.filter fun x => ¬ Evaluable x).map C2LedgerInput.recordId ∧
      ∀ pre a mid b post, values = pre ++ a :: mid ++ b :: post → Evaluable a → Evaluable b →
        (∀ x ∈ mid, ¬ Evaluable x) →
          (SameEpisode ledger a b ↔ mid = [] ∧ a.parentRecordId = b.parentRecordId ∧
            b.resetReason = none ∧ a.transitionKind ∉ completions)) ∧
    ∀ records' cutoff' ledger' read read' later,
      buildEpisodeLedger P upper records' cutoff' = .ok ledger' →
      records.mapM (Submission.read P upper) = .ok read →
      records'.mapM (Submission.read P upper) = .ok read' → read'.Perm (read ++ later) →
      (∀ x ∈ read, ∀ y ∈ later, ∀ t u, x.instant P = .ok t → y.instant P = .ok u → t < u) →
        ∀ e ∈ ledger.episodes, e.status ≠ .openAtCutoff → e ∈ ledger'.episodes := by
  obtain ⟨read, ordered, scanned, s, hread, hord, hids, hscanned, hclose, heps,
    hexcl⟩ := buildEpisodeLedger_ok h
  refine ⟨⟨ordered.map Prod.snd, ?_, hids, ?_, ?_, ?_, ?_⟩, ?_⟩
  · obtain ⟨-, -, -, hperm, hsort⟩ := inTimeOrder_ok hord
    exact ⟨⟨read, hread, hperm⟩, hsort⟩
  all_goals
    have hgroups : ledger.episodes.map EpisodeRecord.memberRecordIds = _ :=
      heps ▸ episodes_eq_groups hscanned hclose
    have hmems := flatMap_memberRecordIds hgroups
  · intro x hx hlive
    refine existsUnique_episode ?_ ?_
    · rw [hmems]
      exact hids.sublist (filter_sublist.map _)
    · rw [hmems]
      exact mem_map_of_mem (mem_filter.mpr ⟨hx, by simpa using hlive⟩)
  · exact hmems
  · rw [hexcl, (Scan.close_frame hclose).2, (Scan.foldlM_visit hscanned).2.2]
    rfl
  · intro pre a mid b post hvals ha hb hmid
    rw [sameEpisode_iff hids hgroups (by simp [hvals]) (by simp [hvals]), groupsOf, hvals,
      Groups.together_iff (hvals ▸ hids.of_map) ha hb hmid]
    exact ⟨fun ⟨hnil, ⟨hreset, hpar⟩, hends⟩ => ⟨hnil, hpar, hreset, hends⟩,
      fun ⟨hnil, hpar, hreset, hends⟩ => ⟨hnil, ⟨hreset, hpar⟩, hends⟩⟩
  · intro records' cutoff' ledger' read₀ read' later h' hread₀ hread' hperm hlater e he hstat
    cases hread.symm.trans hread₀
    obtain ⟨read₁, ordered', scanned', s', hread₁, hord', hids', hscanned', hclose', heps',
      -⟩ := buildEpisodeLedger_ok h'
    cases hread'.symm.trans hread₁
    obtain ⟨rest, rfl⟩ := inTimeOrder_append hord hord' hids' hperm hlater
    rw [map_append, foldlM_append, hscanned] at hscanned'
    have hlonger := (Scan.foldlM_visit hscanned').2.1.trans (Scan.close_frame hclose').1
    rw [heps] at he
    obtain ⟨-, -, ⟨-, hsame⟩ | ⟨last, hlast, hopen, -⟩⟩ := Scan.close_ok hclose
    · rw [heps']
      exact hlonger.subset (hsame ▸ he)
    · rw [hlast, mem_append, mem_singleton] at he
      rcases he with hold | rfl
      · rw [heps']
        exact hlonger.subset hold
      · exact absurd hopen hstat

/-! ## A ledger of two records -/

namespace Reference

/-- A record of one scope. -/
def entry (id time transition : String) : Submission := .mapping [
  (py "record_id", .str (py id)),
  (py "source_release_id", .str (py "REL")),
  (py "instrument_id", .str (py "GBPUSD")),
  (py "side", .str (py "BID")),
  (py "scope_id", .str (py "LOCAL")),
  (py "clock_id", .str (py "15M")),
  (py "first_valid_time", .str (py time)),
  (py "state_key", .str (py "A")),
  (py "transition_kind", .str (py transition)),
  (py "source_sha256", .str (List.replicate 64 (CodePoint.ofChar 'a')))]

/-- A record and its completion, the later one first. -/
def records : List Submission :=
  [entry "R2" "2026-06-01T00:30:00Z" "COMPLETION", entry "R1" "2026-06-01T00:15:00Z" "NONE"]

def cutoff : PyVal := .str (py "2026-06-01T01:00:00Z")

/-- The members of the episodes of the ledger. -/
def members : Option (List (List PyStr)) :=
  (buildEpisodeLedger .reference id records cutoff).toOption.map fun ledger =>
    ledger.episodes.map EpisodeRecord.memberRecordIds

theorem members_eq : members = some [[py "R1", py "R2"]] := by
  decide +kernel

theorem exists_ledger :
    ∃ ledger, buildEpisodeLedger .reference id records cutoff = .ok ledger := by
  have hmems := members_eq
  rw [members] at hmems
  cases hbuild : buildEpisodeLedger .reference id records cutoff with
  | error e =>
    rw [hbuild] at hmems
    cases hmems
  | ok ledger => exact ⟨ledger, rfl⟩

end Reference

/-- The two records are listed in the order of their times. -/
theorem episodes_partition_of_two :
    ∃ ledger values, TimeOrdered .reference id Reference.records values ∧
      buildEpisodeLedger .reference id Reference.records Reference.cutoff = .ok ledger ∧
      ledger.episodes.flatMap EpisodeRecord.memberRecordIds =
        (values.filter fun x => Evaluable x).map C2LedgerInput.recordId := by
  obtain ⟨ledger, hledger⟩ := Reference.exists_ledger
  obtain ⟨⟨values, hord, -, -, hmems, -⟩, -⟩ := episodes_partition hledger
  exact ⟨ledger, values, hord, hledger, hmems⟩

end OvcReplay.MarketGrammar
