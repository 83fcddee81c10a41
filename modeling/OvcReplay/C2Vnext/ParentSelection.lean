import OvcReplay.C2Vnext.ParentContext

/-! # The selection of parents

Every link accounts for its candidates, the fixed parent is the only slot with the expected interval
or there is none, no selected object is later than the local observation, and the order of the slots
does not matter. -/

namespace OvcReplay.C2Vnext

open List Python

namespace Parent

/-! ## Inventories -/

/-- **The candidates are those eligible and those left out**, each of them once. -/
structure Accounts (candidateIds eligibleIds : List PyStr) (exclusions : List Exclusion) : Prop where
  nodup : candidateIds.Nodup
  perm : candidateIds.Perm (eligibleIds ++ exclusions.map Exclusion.candidateId)

/-- No candidate is left out twice. -/
theorem Accounts.nodup_exclusions {candidateIds eligibleIds : List PyStr}
    {exclusions : List Exclusion} (h : Accounts candidateIds eligibleIds exclusions) :
    (exclusions.map Exclusion.candidateId).Nodup :=
  (nodup_append.mp (h.perm.nodup_iff.mp h.nodup)).2.1

/-- A list is what has a property and what has it not. -/
theorem map_split_perm {α β : Type} (f : α → β) (p : α → Prop) [DecidablePred p] (xs : List α) :
    (xs.map f).Perm ((xs.filter fun x => p x).map f ++ (xs.filter fun x => ¬ p x).map f) := by
  have hsplit := (filter_append_perm (fun x => decide (p x)) xs).map f
  rw [map_append] at hsplit
  simpa using hsplit.symm

namespace Inventory

variable {idOf : Record → Except Error PyStr} {reasonsOf : Record → Except Error (List PyStr)}
  {duplicate : PyStr} {inventory : Inventory}

@[ext] theorem ext {i j : Inventory} (h : i.entries = j.entries) : i = j := by
  cases i
  cases j
  cases h
  rfl

/-- The entry of a candidate. -/
def entry (idOf : Record → Except Error PyStr) (reasonsOf : Record → Except Error (List PyStr))
    (item : Record) : Except Error Entry := do
  let candidateId ← idOf item
  let reasonCodes ← reasonsOf item
  return ⟨candidateId, item, reasonCodes⟩

theorem entry_ok {item : Record} {e : Entry} : entry idOf reasonsOf item = .ok e ↔
      idOf item = .ok e.candidateId ∧ e.item = item ∧ reasonsOf item = .ok e.reasonCodes := by
  rw [entry]
  constructor
  · intro h
    simp only [bind_ok, pure_ok] at h
    obtain ⟨candidateId, hid, reasons, hreasons, rfl⟩ := h
    exact ⟨hid, rfl, hreasons⟩
  · rintro ⟨hid, rfl, hreasons⟩
    rw [hid, hreasons]
    rfl

/-- A candidate is added with its entry, unless its id was seen. -/
theorem visit_ok {item : Record} {inventory' : Inventory} :
    visit idOf reasonsOf duplicate inventory item = .ok inventory' ↔
      ∃ e, entry idOf reasonsOf item = .ok e ∧ inventory'.entries = inventory.entries ++ [e] := by
  rw [visit]
  constructor
  · intro h
    obtain ⟨candidateId, hid, h⟩ := bind_ok.mp h
    by_cases hseen : candidateId ∈ inventory.candidateIds
    · simp [hseen] at h
    · rw [dif_neg hseen] at h
      simp only [bind_ok, pure_ok] at h
      obtain ⟨reasons, hreasons, rfl⟩ := h
      exact ⟨_, entry_ok.mpr ⟨hid, rfl, hreasons⟩, rfl⟩
  · rintro ⟨e, he, hents⟩
    obtain ⟨hid, hitem, hreasons⟩ := entry_ok.mp he
    have hseen : e.candidateId ∉ inventory.candidateIds := by
      have hnd := inventory'.nodup
      rw [hents, map_append] at hnd
      intro hmem
      exact disjoint_of_nodup_append hnd hmem (mem_singleton_self _)
    rw [hid, hreasons]
    simp only [bind, Except.bind, hseen, dite_false, pure_ok]
    apply Inventory.ext
    rw [hents, ← hitem]

variable {items : List Record}

theorem foldlM_visit_ok {inventory' : Inventory} :
    items.foldlM (visit idOf reasonsOf duplicate) inventory = .ok inventory' ↔
      ∃ entries, items.mapM (entry idOf reasonsOf) = .ok entries ∧
        inventory'.entries = inventory.entries ++ entries := by
  induction items generalizing inventory with
  | nil =>
    simp only [foldlM_nil, mapM_nil, pure_ok]
    constructor
    · rintro rfl
      exact ⟨[], rfl, by simp⟩
    · rintro ⟨entries, rfl, h⟩
      exact Inventory.ext (by simpa using h.symm)
  | cons item items ih =>
    rw [foldlM_cons]
    constructor
    · intro h
      obtain ⟨next, hnext, h⟩ := bind_ok.mp h
      obtain ⟨e, he, hents⟩ := visit_ok.mp hnext
      obtain ⟨entries, hmap, hall⟩ := ih.mp h
      exact ⟨e :: entries, mapM_cons_ok.mpr ⟨e, entries, he, hmap, rfl⟩, by simp [hall, hents]⟩
    · rintro ⟨_, hmap, hall⟩
      obtain ⟨e, entries, he, hrest, rfl⟩ := mapM_cons_ok.mp hmap
      have hnd : ((inventory.entries ++ [e]).map Entry.candidateId).Nodup := by
        refine inventory'.nodup.sublist (List.Sublist.map _ ?_)
        rw [hall]
        exact List.Sublist.append_left (singleton_sublist.mpr (by simp)) _
      refine bind_ok.mpr ⟨⟨_, hnd⟩, visit_ok.mpr ⟨e, he, rfl⟩, ?_⟩
      exact ih.mpr ⟨entries, hrest, by simp [hall]⟩

/-- **The loop collects the entries of the candidates.** -/
theorem collect_ok : collect idOf reasonsOf duplicate items = .ok inventory ↔
      items.mapM (entry idOf reasonsOf) = .ok inventory.entries := by
  rw [collect, foldlM_visit_ok]
  simp

/-- An inventory of the same candidates in another order. -/
theorem exists_collect_of_perm {items' : List Record} (hperm : items.Perm items')
    (h : collect idOf reasonsOf duplicate items = .ok inventory) :
    ∃ inventory', collect idOf reasonsOf duplicate items' = .ok inventory' ∧
      inventory.entries.Perm inventory'.entries := by
  have hmap := collect_ok.mp h
  have hall : Returns (items'.mapM (entry idOf reasonsOf)) := by
    rw [returns_mapM]
    intro item hitem
    exact returns_mapM.mp ⟨_, hmap⟩ item (hperm.mem_iff.mpr hitem)
  obtain ⟨entries, hents⟩ := hall
  have hp := perm_of_mapM hperm hmap hents
  refine ⟨⟨entries, ?_⟩, collect_ok.mpr hents, hp⟩
  exact (hp.map Entry.candidateId).nodup_iff.mp inventory.nodup

/-- The candidates are those eligible and those left out. -/
theorem candidateIds_perm (inventory : Inventory) :
    inventory.candidateIds.Perm (inventory.eligible.map Entry.candidateId ++
      inventory.exclusions.map Exclusion.candidateId) := by
  rw [candidateIds, eligible, exclusions, map_map]
  exact map_split_perm _ _ _

theorem mem_eligible {e : Entry} :
    e ∈ inventory.eligible ↔ e ∈ inventory.entries ∧ e.reasonCodes = [] := by
  simp [eligible]

/-- An inventory accounts for its candidates. -/
theorem accounts (inventory : Inventory) : Accounts inventory.candidateIds
    (inventory.eligible.map Entry.candidateId) inventory.exclusions :=
  ⟨inventory.nodup, inventory.candidateIds_perm⟩

/-- It still does when the eligible candidates are left out as well. -/
theorem accounts_excluded (inventory : Inventory) (reasonsFor : Entry → List PyStr) :
    Accounts inventory.candidateIds [] (inventory.exclusions ++
      inventory.eligible.map fun e => ⟨e.candidateId, reasonsFor e⟩) := by
  refine ⟨inventory.nodup, inventory.candidateIds_perm.trans ?_⟩
  rw [map_append, map_map]
  exact perm_append_comm

section Order

variable {inventory' : Inventory} (hperm : inventory.entries.Perm inventory'.entries)

include hperm

theorem candidateIds_perm_of_perm : inventory.candidateIds.Perm inventory'.candidateIds :=
  hperm.map _

theorem eligible_perm_of_perm : inventory.eligible.Perm inventory'.eligible := hperm.filter _

theorem exclusions_perm_of_perm : inventory.exclusions.Perm inventory'.exclusions :=
  (hperm.filter _).map _

end Order

end Inventory

/-! ## Links -/

variable {P : Platform} {o : LocalObservation} {expectedStart expectedEnd : PyStr}

/-- The fields of a link that its arguments decide. -/
structure Follows (link : ParentLink) (args : LinkArgs) : Prop where
  candidateIds : link.candidateIds = sortedSet args.candidateIds
  eligibleIds : link.eligibleIds = sortedSet args.eligibleIds
  exclusions : link.exclusions = sortedBy Exclusion.sortKey args.exclusions
  selectedId : link.selectedId = args.selectedId
  parentFirstValidTime : link.parentFirstValidTime = args.parentFirstValidTime

/-- The second link agrees with the first in the fields that say what was selected from what. -/
structure Keeps (link link' : ParentLink) : Prop where
  candidateIds : link'.candidateIds = link.candidateIds
  eligibleIds : link'.eligibleIds = link.eligibleIds
  exclusions : link'.exclusions = link.exclusions
  selectedId : link'.selectedId = link.selectedId
  parentFirstValidTime : link'.parentFirstValidTime = link.parentFirstValidTime

theorem Keeps.trans {a b c : ParentLink} (h : Keeps a b) (h' : Keeps b c) : Keeps a c :=
  ⟨h'.candidateIds.trans h.candidateIds, h'.eligibleIds.trans h.eligibleIds,
    h'.exclusions.trans h.exclusions, h'.selectedId.trans h.selectedId,
    h'.parentFirstValidTime.trans h.parentFirstValidTime⟩

variable {args : LinkArgs}

variable {link' : ParentLink} {role : Role} {slot : Record}

theorem Follows.of_keeps {link : ParentLink} (h : Follows link args)
    (hkeeps : Keeps link link') : Follows link' args :=
  ⟨hkeeps.candidateIds.trans h.candidateIds, hkeeps.eligibleIds.trans h.eligibleIds,
    hkeeps.exclusions.trans h.exclusions, hkeeps.selectedId.trans h.selectedId,
    hkeeps.parentFirstValidTime.trans h.parentFirstValidTime⟩

theorem keeps_rehash {link : ParentLink} (h : link.rehash P = .ok link') : Keeps link link' := by
  simp only [ParentLink.rehash, bind_ok, pure_ok] at h
  obtain ⟨hash, -, rfl⟩ := h
  exact ⟨rfl, rfl, rfl, rfl, rfl⟩

/-- The refresh changes neither what is accounted for nor what is selected. -/
theorem keeps_applyRefresh {link : ParentLink} {previous : Option PyVal}
    (h : applyRefresh P link previous = .ok link') : Keeps link link' := by
  cases previous with
  | none =>
    rw [applyRefresh, Except.ok.injEq] at h
    rw [h]
    exact ⟨rfl, rfl, rfl, rfl, rfl⟩
  | some previous =>
    have hkeeps := keeps_rehash h
    exact ⟨hkeeps.candidateIds, hkeeps.eligibleIds, hkeeps.exclusions, hkeeps.selectedId,
      hkeeps.parentFirstValidTime⟩

theorem keeps_setDepth {link : ParentLink}
    (h : setDepth P role link = .ok link') : Keeps link link' := by
  cases role with
  | structural depth =>
    have hkeeps := keeps_rehash h
    exact ⟨hkeeps.candidateIds, hkeeps.eligibleIds, hkeeps.exclusions, hkeeps.selectedId,
      hkeeps.parentFirstValidTime⟩
  | measurement | axis =>
    rw [Except.ok.inj h]
    exact ⟨rfl, rfl, rfl, rfl, rfl⟩

theorem follows_baseLink {link : ParentLink}
    (h : baseLink P o expectedStart expectedEnd args = .ok link) : Follows link args := by
  simp only [baseLink, bind_ok] at h
  obtain ⟨linkId, -, h⟩ := h
  have hkeeps := keeps_rehash h
  exact ⟨hkeeps.candidateIds, hkeeps.eligibleIds, hkeeps.exclusions, hkeeps.selectedId,
    hkeeps.parentFirstValidTime⟩

/-- **A link accounts for its candidates** when its arguments do. -/
theorem Follows.accounts {link : ParentLink} (h : Follows link args)
    (hargs : Accounts args.candidateIds args.eligibleIds args.exclusions) :
    Accounts link.candidateIds link.eligibleIds link.exclusions := by
  have helig : args.eligibleIds.Nodup :=
    (nodup_append.mp (hargs.perm.nodup_iff.mp hargs.nodup)).1
  rw [h.candidateIds, h.eligibleIds, h.exclusions, sortedSet_of_nodup hargs.nodup,
    sortedSet_of_nodup helig]
  constructor
  · exact (sortedBy_perm id _).nodup_iff.mpr hargs.nodup
  · refine (sortedBy_perm id _).trans (hargs.perm.trans (Perm.append ?_ ?_))
    · exact (sortedBy_perm id _).symm
    · exact ((sortedBy_perm _ _).map _).symm

/-- A link does not depend on the order in which its candidates were met. -/
theorem baseLink_perm (args : LinkArgs) {candidateIds : List PyStr} {exclusions : List Exclusion}
    (hids : args.candidateIds.Perm candidateIds) (hexcls : args.exclusions.Perm exclusions)
    (hnd : (args.exclusions.map Exclusion.candidateId).Nodup) :
    baseLink P o expectedStart expectedEnd { args with candidateIds, exclusions } =
      baseLink P o expectedStart expectedEnd args := by
  have hcands : sortedSet candidateIds = sortedSet args.candidateIds :=
    sortedSet_congr fun x => hids.symm.mem_iff
  have hsort : sortedBy Exclusion.sortKey exclusions =
      sortedBy Exclusion.sortKey args.exclusions := by
    refine (sortedBy_eq_of_perm ?_ hexcls).symm
    intro a ha b hb hkey
    refine inj_on_of_nodup_map hnd ha hb ?_
    exact congrArg (fun key => (ofLex key).1) hkey
  simp only [baseLink, hcands, hsort]

/-! ## The expected slot -/

/-- The slot has the interval, given by its normal texts. -/
def HasInterval (P : Platform) (start stop : PyStr) (slot : Record) : Prop :=
  ∃ a b, timeOf P slot "interval_start" = .ok a ∧ timeOf P slot "interval_end" = .ok b ∧
    iso P a = start ∧ iso P b = stop

/-- The identity fields with the texts of the local observation. -/
def identityFields (o : LocalObservation) : List (String × PyStr) :=
  [("instrument_id", o.instrumentId), ("side", o.side), ("release_id", o.releaseId),
    ("calendar_id", o.calendarId), ("parent_lattice_id", o.parentLatticeId)]

/-- The slot is complete, has the identity of the local observation, and is not later than it. -/
structure Qualifies (P : Platform) (o : LocalObservation) (slot : Record) : Prop where
  complete : textOr P slot "status" = .ok (py "COMPLETE")
  identity : ∀ p ∈ identityFields o, textOr P slot p.1 = .ok p.2
  firstValid : ∃ t, timeOf P slot "first_valid_time" = .ok t ∧ t ≤ o.firstValidTime
  intervalEnd : ∃ t, timeOf P slot "interval_end" = .ok t ∧ t ≤ o.firstValidTime

/-- The slot names its source, too. -/
structure Suitable (P : Platform) (o : LocalObservation) (slot : Record) : Prop
    extends Qualifies P o slot where
  source : ∃ text, fieldText P slot "source_id" = .ok text ∧ text ≠ []

/-- **The slot is the only one with the interval.** -/
structure OnlySlot (P : Platform) (start stop : PyStr) (slots : List Record) (slot : Record) :
    Prop where
  mem : slot ∈ slots
  interval : HasInterval P start stop slot
  unique : ∀ other ∈ slots, HasInterval P start stop other → other = slot

variable {name : String} {value : Record}

theorem mem_keys_of_field {v : PyVal} (h : field value name = .ok v) :
    py name ∈ value.keys := by
  rw [field] at h
  rw [← Dict.isSome_get?_iff]
  cases hget : value.get? (py name) with
  | none => simp [hget] at h
  | some w => rfl

theorem mem_keys_of_timeOf {t : Instant} (h : timeOf P value name = .ok t) :
    py name ∈ value.keys := by
  obtain ⟨v, hv, -⟩ := bind_ok.mp h
  exact mem_keys_of_field hv

theorem mem_keys_of_fieldText {t : PyStr} (h : fieldText P value name = .ok t) :
    py name ∈ value.keys := by
  obtain ⟨v, hv, -⟩ := bind_ok.mp h
  exact mem_keys_of_field hv

theorem isExpected_eq_true : isExpected P expectedStart expectedEnd slot = .ok true ↔
      HasInterval P expectedStart expectedEnd slot := by
  rw [isExpected]
  constructor
  · intro h
    simp only [bind_ok, require, check_ok] at h
    obtain ⟨-, -, a, ha, h⟩ := h
    by_cases hstart : iso P a = expectedStart
    · rw [if_pos hstart] at h
      simp only [bind_ok, pure_ok, decide_eq_true_eq] at h
      obtain ⟨b, hb, hstop⟩ := h
      exact ⟨a, b, ha, hb, hstart, hstop⟩
    · rw [if_neg hstart] at h
      simp [pure, Except.pure] at h
  · rintro ⟨a, b, ha, hb, hstart, hstop⟩
    have hkeys := And.intro (mem_keys_of_timeOf ha) (mem_keys_of_timeOf hb)
    rw [require, check, if_pos hkeys, ha]
    simp only [bind, Except.bind, hstart, if_true, hb, hstop]
    rfl

theorem identityReason_eq_nil {candidate : Record} {expected : PyStr} :
    identityReason P candidate name expected = .ok [] ↔ textOr P candidate name = .ok expected := by
  rw [identityReason]
  constructor
  · intro h
    simp only [bind_ok, pure_ok] at h
    obtain ⟨text, htext, h⟩ := h
    by_cases heq : text = expected
    · rw [htext, heq]
    · rw [if_neg heq] at h
      exact absurd h (cons_ne_nil _ _)
  · intro h
    simp [h, bind, Except.bind, pure, Except.pure]

/-- There is no reason against the identity of a candidate iff it is that of the local one. -/
theorem identityReasons_eq_nil {candidate : Record} : identityReasons P o candidate = .ok [] ↔
      ∀ p ∈ identityFields o, textOr P candidate p.1 = .ok p.2 := by
  simp only [identityFields, forall_mem_cons, ← identityReason_eq_nil]
  rw [identityReasons]
  constructor
  · intro h
    simp only [bind_ok, pure_ok, append_eq_nil_iff] at h
    obtain ⟨_, h₁, _, h₂, _, h₃, _, h₄, _, h₅, ⟨⟨⟨rfl, rfl⟩, rfl⟩, rfl⟩, rfl⟩ := h
    exact ⟨h₁, h₂, h₃, h₄, h₅, nofun⟩
  · rintro ⟨h₁, h₂, h₃, h₄, h₅, -⟩
    rw [h₁, h₂, h₃, h₄, h₅]
    rfl

theorem sortedSet_eq_nil {xs : List PyStr} : sortedSet xs = [] ↔ xs = [] := by
  simp only [eq_nil_iff_forall_not_mem, mem_sortedSet]

theorem statusReasons_eq_nil {status : PyStr} : statusReasons status = [] ↔ status = py "COMPLETE" := by
  rw [statusReasons]
  by_cases h : status = py "COMPLETE"
  · simp [h]
  · rw [if_neg h]
    split <;> simp [h]

/-- The times and the source of a slot are in order. -/
theorem slotTiming_eq_nil : slotTiming P o slot = .ok [] ↔
      (∃ t, timeOf P slot "first_valid_time" = .ok t ∧ t ≤ o.firstValidTime) ∧
      (∃ t, timeOf P slot "interval_end" = .ok t ∧ t ≤ o.firstValidTime) ∧
      ∃ text, fieldText P slot "source_id" = .ok text ∧ text ≠ [] := by
  rw [slotTiming]
  constructor
  · intro h
    split at h
    · simp only [bind_ok, pure_ok, append_eq_nil_iff,
        ite_eq_right_iff, cons_ne_nil, imp_false, not_lt] at h
      obtain ⟨first, hfst, stop, hstop, source, hsource, ⟨h₁, h₂⟩, h₃⟩ := h
      exact ⟨⟨first, hfst, h₁⟩, ⟨stop, hstop, h₂⟩, source, hsource, h₃⟩
    · simp at h
  · rintro ⟨⟨first, hfst, h₁⟩, ⟨stop, hstop, h₂⟩, source, hsource, h₃⟩
    have hkeys := And.intro (mem_keys_of_timeOf hfst) (mem_keys_of_fieldText hsource)
    rw [if_pos hkeys, hfst, hstop, hsource]
    simp [bind, Except.bind, pure, Except.pure, not_lt.mpr h₁, not_lt.mpr h₂, h₃]

/-- **There is no reason against a slot iff it is suitable.** -/
theorem slotReasons_eq_nil : slotReasons P o slot = .ok [] ↔ Suitable P o slot := by
  rw [slotReasons]
  constructor
  · intro h
    simp only [bind_ok, pure_ok, sortedSet_eq_nil,
      append_eq_nil_iff] at h
    obtain ⟨_, hident, status, hstat, _, htiming, ⟨rfl, hcompl⟩, rfl⟩ := h
    obtain ⟨hfst, hend, hsource⟩ := slotTiming_eq_nil.mp htiming
    rw [statusReasons_eq_nil] at hcompl
    exact ⟨⟨hcompl ▸ hstat, identityReasons_eq_nil.mp hident, hfst, hend⟩, hsource⟩
  · intro h
    rw [identityReasons_eq_nil.mpr h.identity, h.complete,
      slotTiming_eq_nil.mpr ⟨h.firstValid, h.intervalEnd, h.source⟩]
    rfl

/-! ## The fixed parent -/

section Fixed

variable {slots : List Record} {inventory : Inventory}
  (h : slotInventory P slots expectedStart expectedEnd = .ok inventory)

include h

/-- Every entry is that of a slot. -/
theorem slot_of_entry {e : Entry} (he : e ∈ inventory.entries) :
    e.item ∈ slots ∧ fieldText P e.item "observation_id" = .ok e.candidateId ∧
      (e.reasonCodes = [] ↔ HasInterval P expectedStart expectedEnd e.item) := by
  obtain ⟨slot, hslot, hentry⟩ := mem_of_mapM_right (Inventory.collect_ok.mp h) he
  obtain ⟨hid, rfl, hreasons⟩ := Inventory.entry_ok.mp hentry
  obtain ⟨-, -, hid⟩ := bind_ok.mp hid
  refine ⟨hslot, hid, ?_⟩
  obtain ⟨expected, hexp, hreasons⟩ := map_ok.mp hreasons
  rw [← isExpected_eq_true, hexp, ← hreasons, Except.ok.injEq]
  cases expected <;> simp

/-- Every slot has an entry. -/
theorem entry_of_slot (hslot : slot ∈ slots) : ∃ e ∈ inventory.entries, e.item = slot := by
  obtain ⟨e, he, hentry⟩ := mem_of_mapM_left (Inventory.collect_ok.mp h) hslot
  exact ⟨e, he, (Inventory.entry_ok.mp hentry).2.1⟩

/-- The entry of a slot with the interval is eligible. -/
theorem eligible_of_slot (hslot : slot ∈ slots)
    (hintv : HasInterval P expectedStart expectedEnd slot) :
    ∃ e ∈ inventory.eligible, e.item = slot := by
  obtain ⟨e, he, rfl⟩ := entry_of_slot h hslot
  exact ⟨e, Inventory.mem_eligible.mpr ⟨he, (slot_of_entry h he).2.2.mpr hintv⟩, rfl⟩

/-- **One slot is eligible iff it is the only one with the interval.** -/
theorem eligible_eq_singleton_iff {candidateId : PyStr} :
    (∃ e, inventory.eligible = [e] ∧ e.item = slot ∧ e.candidateId = candidateId) ↔
      OnlySlot P expectedStart expectedEnd slots slot ∧
        fieldText P slot "observation_id" = .ok candidateId := by
  constructor
  · rintro ⟨e, hone, rfl, rfl⟩
    obtain ⟨he, hreasons⟩ := Inventory.mem_eligible.mp (hone ▸ mem_singleton_self e)
    obtain ⟨hslot, hid, hintv⟩ := slot_of_entry h he
    refine ⟨⟨hslot, hintv.mp hreasons, ?_⟩, hid⟩
    intro other hother hother'
    obtain ⟨e', he', rfl⟩ := eligible_of_slot h hother hother'
    rw [hone, mem_singleton] at he'
    rw [he']
  · rintro ⟨hslot, hid⟩
    obtain ⟨e, he, rfl⟩ := eligible_of_slot h hslot.mem hslot.interval
    have hentry := (Inventory.mem_eligible.mp he).1
    have hcand : e.candidateId = candidateId :=
      Except.ok.inj ((slot_of_entry h hentry).2.1.symm.trans hid)
    refine ⟨e, ?_, rfl, hcand⟩
    -- two eligible entries are of the same slot, so they have the same id
    have hsame : ∀ e' ∈ inventory.eligible, e' = e := by
      intro e' he'
      obtain ⟨hentry', hreasons⟩ := Inventory.mem_eligible.mp he'
      obtain ⟨hslot', hid', hintv⟩ := slot_of_entry h hentry'
      have hitem := hslot.unique _ hslot' (hintv.mp hreasons)
      rw [hitem, hid, Except.ok.injEq] at hid'
      exact inj_on_of_nodup_map inventory.nodup hentry' hentry (hid'.symm.trans hcand.symm)
    have hnd : inventory.eligible.Nodup := (Nodup.of_map _ inventory.nodup).filter _
    refine perm_singleton.mp ((perm_ext_iff_of_nodup hnd (nodup_singleton e)).mpr ?_)
    intro e'
    rw [mem_singleton]
    exact ⟨hsame e', fun heq => heq ▸ he⟩

end Fixed

/-- What the resolver makes of the inventory of the slots. -/
structure FixedOutcome (P : Platform) (o : LocalObservation) (inventory : Inventory)
    (link : ParentLink) (fixed : Option FixedParent) : Prop where
  accounts : Accounts link.candidateIds link.eligibleIds link.exclusions
  selects : ∀ id, link.selectedId = some id ↔
    ∃ slot, inventory.eligible = [slot] ∧ slot.candidateId = id ∧ Suitable P o slot.item
  time : ∀ id, link.selectedId = some id → ∃ slot t, inventory.eligible = [slot] ∧
    timeOf P slot.item "first_valid_time" = .ok t ∧ link.parentFirstValidTime = some (iso P t)

variable {counts : ContextCounts} {link : ParentLink} {fixed : Option FixedParent}

section Eligible

variable {inventory : Inventory} {slotCount : Nat}

theorem resolveEligible_nil :
    resolveEligible P o inventory slotCount expectedStart expectedEnd counts [] =
      refuse P o expectedStart expectedEnd (missingArgs inventory slotCount counts) := rfl

theorem resolveEligible_singleton {slot : Entry} :
    resolveEligible P o inventory slotCount expectedStart expectedEnd counts [slot] =
      resolveExpectedSlot P o inventory slotCount slot expectedStart expectedEnd counts := rfl

theorem resolveEligible_several {slot other : Entry} {rest : List Entry} :
    resolveEligible P o inventory slotCount expectedStart expectedEnd counts
        (slot :: other :: rest) =
      refuse P o expectedStart expectedEnd (conflictedArgs inventory (slot :: other :: rest)) := rfl

end Eligible

/-- A link that selects nothing. -/
theorem fixedOutcome_refuse {inventory : Inventory}
    (h : refuse P o expectedStart expectedEnd args = .ok (link, fixed))
    (haccs : Accounts args.candidateIds args.eligibleIds args.exclusions)
    (hargs : args.selectedId = none)
    (hnone : ∀ slot, inventory.eligible = [slot] → ¬ Suitable P o slot.item) :
    FixedOutcome P o inventory link fixed := by
  simp only [refuse, bind_ok, pure_ok, Prod.mk.injEq] at h
  obtain ⟨base, hbase, rfl, -⟩ := h
  have hfollows := follows_baseLink hbase
  have hsel : base.selectedId = none := hfollows.selectedId.trans hargs
  refine ⟨hfollows.accounts haccs, ?_, ?_⟩
  · intro id
    rw [hsel]
    constructor
    · nofun
    · rintro ⟨slot, hslot, -, hsuit⟩
      exact absurd hsuit (hnone slot hslot)
  · intro id hid
    rw [hsel] at hid
    cases hid

theorem fixedOutcome_expected {inventory : Inventory} {slotCount : Nat} {slot : Entry}
    (hone : inventory.eligible = [slot])
    (h : resolveExpectedSlot P o inventory slotCount slot expectedStart expectedEnd counts =
      .ok (link, fixed)) : FixedOutcome P o inventory link fixed := by
  rw [resolveExpectedSlot] at h
  obtain ⟨reasons, hreasons, h⟩ := bind_ok.mp h
  by_cases hnone : reasons = []
  · rw [hnone, slotReasons_eq_nil] at hreasons
    rw [if_neg (not_not_intro hnone)] at h
    simp only [bind_ok, pure_ok, Prod.mk.injEq] at h
    obtain ⟨t, ht, age, -, base, hbase, source, -, sourced, hlink, rfl, -⟩ := h
    have hself : Accounts inventory.candidateIds [slot.candidateId] inventory.exclusions := by
      simpa [hone] using inventory.accounts
    have hsourced : Keeps base { base with sourceIds := [source] } := ⟨rfl, rfl, rfl, rfl, rfl⟩
    have hfinal := (follows_baseLink hbase).of_keeps (hsourced.trans (keeps_rehash hlink))
    refine ⟨hfinal.accounts hself, ?_, ?_⟩
    · intro id
      rw [hfinal.selectedId]
      constructor
      · intro hid
        exact ⟨slot, hone, Option.some.inj hid, hreasons⟩
      · rintro ⟨slot', hslot', rfl, -⟩
        rw [hone, singleton_inj] at hslot'
        rw [← hslot']
        rfl
    · intro id _
      exact ⟨slot, t, hone, ht, hfinal.parentFirstValidTime⟩
  · rw [if_pos hnone] at h
    have hexcl := inventory.accounts_excluded fun _ => reasons
    rw [hone] at hexcl
    refine fixedOutcome_refuse h hexcl rfl ?_
    intro slot' hslot' hsuit
    rw [hone, singleton_inj] at hslot'
    rw [← hslot', ← slotReasons_eq_nil, hreasons, Except.ok.injEq] at hsuit
    exact hnone hsuit

/-- **The fixed link accounts for the slots and selects the only suitable one.** -/
theorem fixedOutcome_resolveFixedParent {slots : List Record}
    (h : resolveFixedParent P o slots expectedStart expectedEnd counts = .ok (link, fixed)) :
    ∃ inventory, slotInventory P slots expectedStart expectedEnd = .ok inventory ∧
      FixedOutcome P o inventory link fixed := by
  obtain ⟨inventory, hinv, h⟩ := bind_ok.mp h
  refine ⟨inventory, hinv, ?_⟩
  rcases helig : inventory.eligible with _ | ⟨slot, _ | ⟨other, rest⟩⟩
  · rw [helig, resolveEligible_nil] at h
    have haccs := inventory.accounts
    rw [helig] at haccs
    refine fixedOutcome_refuse h haccs rfl ?_
    simp [helig]
  · rw [helig, resolveEligible_singleton] at h
    exact fixedOutcome_expected helig h
  · rw [helig, resolveEligible_several] at h
    have hexcl := inventory.accounts_excluded fun _ => [py "EXPECTED_PARENT_SLOT_CONFLICTED"]
    rw [helig] at hexcl
    refine fixedOutcome_refuse h hexcl rfl ?_
    simp [helig]

/-! ## The order of the slots -/

theorem resolveExpectedSlot_perm {inventory inventory' : Inventory} {slotCount : Nat} {slot : Entry}
    (hperm : inventory.entries.Perm inventory'.entries) (hone : inventory.eligible = [slot]) :
    resolveExpectedSlot P o inventory' slotCount slot expectedStart expectedEnd counts =
      resolveExpectedSlot P o inventory slotCount slot expectedStart expectedEnd counts := by
  have hids := Inventory.candidateIds_perm_of_perm hperm
  have hexcls := Inventory.exclusions_perm_of_perm hperm
  have hrefused : ∀ reasons,
      baseLink P o expectedStart expectedEnd (refusedArgs inventory' slot reasons) =
        baseLink P o expectedStart expectedEnd (refusedArgs inventory slot reasons) := by
    intro reasons
    have hexcl := inventory.accounts_excluded fun _ => reasons
    rw [hone] at hexcl
    exact baseLink_perm (refusedArgs inventory slot reasons) hids
      (hexcls.append_right _) hexcl.nodup_exclusions
  have hlinked : ∀ t age, baseLink P o expectedStart expectedEnd
      (linkedArgs P inventory' slotCount slot counts t age) =
      baseLink P o expectedStart expectedEnd
        (linkedArgs P inventory slotCount slot counts t age) := by
    intro t age
    exact baseLink_perm (linkedArgs P inventory slotCount slot counts t age) hids hexcls
      inventory.accounts.nodup_exclusions
  simp only [resolveExpectedSlot, refuse, hrefused, hlinked]

theorem resolveEligible_perm {inventory inventory' : Inventory} {slotCount : Nat}
    (hperm : inventory.entries.Perm inventory'.entries) :
    resolveEligible P o inventory' slotCount expectedStart expectedEnd counts inventory'.eligible =
      resolveEligible P o inventory slotCount expectedStart expectedEnd counts
        inventory.eligible := by
  have helig := Inventory.eligible_perm_of_perm hperm
  have hids := Inventory.candidateIds_perm_of_perm hperm
  have hexcls := Inventory.exclusions_perm_of_perm hperm
  rcases hmany : inventory.eligible with _ | ⟨slot, _ | ⟨other, rest⟩⟩
  · rw [hmany] at helig
    rw [nil_perm.mp helig, resolveEligible_nil, resolveEligible_nil, refuse, refuse]
    rw [show baseLink P o expectedStart expectedEnd (missingArgs inventory' slotCount counts) =
        baseLink P o expectedStart expectedEnd (missingArgs inventory slotCount counts) from
      baseLink_perm (missingArgs inventory slotCount counts) hids hexcls
        inventory.accounts.nodup_exclusions]
  · rw [hmany] at helig
    rw [← singleton_perm.mp helig, resolveEligible_singleton, resolveEligible_singleton]
    exact resolveExpectedSlot_perm hperm hmany
  · have hexcl := inventory.accounts_excluded fun _ =>
      [py "EXPECTED_PARENT_SLOT_CONFLICTED"]
    have hconflicted := hexcls.append (helig.map fun slot : Entry =>
      (⟨slot.candidateId, [py "EXPECTED_PARENT_SLOT_CONFLICTED"]⟩ : Exclusion))
    have hlen := helig.length_eq
    rw [hmany] at hexcl hconflicted hlen
    rcases hmany' : inventory'.eligible with _ | ⟨slot', _ | ⟨other', rest'⟩⟩
    · simp [hmany'] at hlen
    · simp [hmany'] at hlen
    · rw [hmany'] at hconflicted
      rw [resolveEligible_several, resolveEligible_several, refuse, refuse]
      rw [show baseLink P o expectedStart expectedEnd
            (conflictedArgs inventory' (slot' :: other' :: rest')) =
          baseLink P o expectedStart expectedEnd
            (conflictedArgs inventory (slot :: other :: rest)) from
        baseLink_perm (conflictedArgs inventory (slot :: other :: rest)) hids hconflicted
          hexcl.nodup_exclusions]

/-- **The fixed parent does not depend on the order of the slots.** -/
theorem resolveFixedParent_perm {slots slots' : List Record} (hslots : slots.Perm slots')
    {result : ParentLink × Option FixedParent}
    (h : resolveFixedParent P o slots expectedStart expectedEnd counts = .ok result) :
    resolveFixedParent P o slots' expectedStart expectedEnd counts = .ok result := by
  obtain ⟨inventory, hinv, hrest⟩ := bind_ok.mp h
  obtain ⟨inventory', hinv', hperm⟩ := Inventory.exists_collect_of_perm hslots hinv
  refine bind_intro hinv' ?_
  rw [← hrest, ← hslots.length_eq]
  exact resolveEligible_perm hperm

/-! ## Roles -/

/-- **What the link selects is an item that is not later than the local observation.** -/
def SelectsCausally (P : Platform) (o : LocalObservation) (items : List Record) (idName : String)
    (link : ParentLink) : Prop :=
  ∀ id, link.selectedId = some id → ∃ item ∈ items, fieldText P item idName = .ok id ∧
    ∃ t, timeOf P item "first_valid_time" = .ok t ∧ t ≤ o.firstValidTime ∧
      link.parentFirstValidTime = some (iso P t)

theorem Role.mem_of_mem_candidates {items found : List Record}
    (h : role.candidates P items = .ok found) {item : Record} (hitem : item ∈ found) :
    item ∈ items := by
  induction items generalizing found with
  | nil =>
    rw [candidates, Except.ok.injEq] at h
    exact h ▸ hitem
  | cons head items ih =>
    simp only [candidates, bind_ok, pure_ok] at h
    obtain ⟨holds, -, rest, hrest, rfl⟩ := h
    cases holds with
    | false => exact mem_cons_of_mem _ (ih hrest hitem)
    | true =>
      rcases mem_cons.mp hitem with rfl | hmem
      · exact mem_cons_self
      · exact mem_cons_of_mem _ (ih hrest hmem)

/-- There is a time and it is not late, where there is no reason against an object. -/
theorem objectReasons_eq_nil {item : Record} (h : objectReasons P o fixed item = .ok []) :
    ∃ t, timeOf P item "first_valid_time" = .ok t ∧ t ≤ o.firstValidTime := by
  simp only [objectReasons, bind_ok, pure_ok, sortedSet_eq_nil,
    append_eq_nil_iff] at h
  obtain ⟨_, -, _, -, _, -, _, -, _, htiming, -, rfl⟩ := h
  rw [objectTiming] at htiming
  split at htiming
  · simp only [bind_ok, pure_ok, ite_eq_right_iff,
      cons_ne_nil, imp_false, not_lt] at htiming
    exact htiming
  · simp at htiming

section Choice

variable {inventory : Inventory}

/-- A choice accounts for the candidates. -/
theorem accounts_choose : Accounts inventory.candidateIds
    ((choose fixed inventory).eligible.map Entry.candidateId)
    (choose fixed inventory).exclusions := by
  have haccs := inventory.accounts
  cases fixed with
  | none => exact haccs
  | some fixed =>
    rcases helig : inventory.eligible with _ | ⟨object, _ | ⟨other, rest⟩⟩
    · rw [helig] at haccs
      simp only [choose, helig]
      exact haccs
    · rw [helig] at haccs
      simp only [choose, helig]
      exact haccs
    · have hexcl := inventory.accounts_excluded fun _ =>
        [py "MULTIPLE_ELIGIBLE_NO_GOVERNED_SELECTION"]
      rw [helig] at hexcl
      simp only [choose, helig]
      exact hexcl

/-- Only an eligible candidate is chosen. -/
theorem mem_eligible_of_choose {e : Entry} (h : (choose fixed inventory).selected = some e) :
    e ∈ inventory.eligible := by
  cases fixed with
  | none => cases h
  | some fixed =>
    rcases helig : inventory.eligible with _ | ⟨object, _ | ⟨other, rest⟩⟩
    · simp [choose, helig] at h
    · simp only [choose, helig, Option.some.injEq] at h
      rw [h]
      exact mem_singleton_self e
    · simp [choose, helig] at h

end Choice

theorem selectedObject_ok {e : Entry} {object : Option SelectedObject}
    (h : selectedObject P o (some e) = .ok object) :
    ∃ selected, object = some selected ∧
      timeOf P e.item "first_valid_time" = .ok selected.firstValidTime := by
  simp only [selectedObject, bind_ok, pure_ok] at h
  obtain ⟨t, ht, age, -, hash, -, rfl⟩ := h
  exact ⟨_, rfl, ht⟩

/-- **The link of a role accounts for its objects, and what it selects is not late.** -/
theorem projectRole_spec {objects : List Record}
    (h : projectRole P o fixed objects role expectedStart expectedEnd = .ok link) :
    Accounts link.candidateIds link.eligibleIds link.exclusions ∧
      SelectsCausally P o objects "object_id" link := by
  simp only [projectRole, bind_ok] at h
  obtain ⟨found, hfound, inventory, hinv, object, hobj, age, -, base, hbase, hlink⟩ := h
  have hfollows := (follows_baseLink hbase).of_keeps (keeps_setDepth hlink)
  refine ⟨hfollows.accounts accounts_choose, ?_⟩
  intro id hid
  rw [hfollows.selectedId] at hid
  obtain ⟨e, hchosen, rfl⟩ := Option.map_eq_some_iff.mp hid
  obtain ⟨he, hreasons⟩ := Inventory.mem_eligible.mp (mem_eligible_of_choose hchosen)
  obtain ⟨item, hitem, hentry⟩ := mem_of_mapM_right (Inventory.collect_ok.mp hinv) he
  obtain ⟨hcand, rfl, hnone⟩ := Inventory.entry_ok.mp hentry
  obtain ⟨-, -, hcand⟩ := bind_ok.mp hcand
  rw [hreasons] at hnone
  obtain ⟨t, ht, hle⟩ := objectReasons_eq_nil hnone
  rw [hchosen] at hobj
  obtain ⟨selected, rfl, hsel⟩ := selectedObject_ok hobj
  have htime : selected.firstValidTime = t := Except.ok.inj (hsel.symm.trans ht)
  refine ⟨e.item, Role.mem_of_mem_candidates hfound hitem, hcand, t, ht, hle, ?_⟩
  rw [hfollows.parentFirstValidTime, ← htime]
  rfl

/-- The inventory of the objects of higher order accounts for them, each as often as it occurs. -/
theorem higherOrderProjection_perm {intOfText : IntOfText} {items : List Record}
    {projection : HigherOrderProjection}
    (h : higherOrderProjection P intOfText o items = .ok projection) :
    projection.candidateIds.Perm
      (projection.eligibleIds ++ projection.exclusions.map Exclusion.candidateId) := by
  simp only [higherOrderProjection, bind_ok, pure_ok] at h
  obtain ⟨sorted, -, entries, -, projectionId, -, rfl⟩ := h
  have hsplit := map_split_perm (fun e : HigherOrderEntry => e.candidateId)
    (fun e => e.reasonCodes = []) entries
  refine (sortedBy_perm id _).trans (hsplit.trans (Perm.append ?_ ?_))
  · exact (sortedBy_perm id _).symm
  · rw [map_map]
    exact Perm.of_eq rfl

/-! ## The expected slot in time -/

/-- **The expected slot is the last one that has ended.** -/
theorem expectedParentSlot_spec {t : Int}
    (h : expectedParentSlot P t = .ok (expectedStart, expectedEnd)) :
    ∃ stop : Int, twoHours ∣ stop ∧ stop ≤ t ∧ t < stop + twoHours ∧
      expectedStart = iso P (stop - twoHours) ∧ expectedEnd = iso P stop := by
  simp only [expectedParentSlot, bind_ok, check_ok, pure_ok,
    Prod.mk.injEq] at h
  obtain ⟨-, -, rfl, rfl⟩ := h
  refine ⟨t - t % twoHours, Int.dvd_self_sub_emod, ?_, ?_, rfl, rfl⟩
  · have hnonneg : 0 ≤ t % twoHours := Int.emod_nonneg t (by decide)
    exact sub_le_self t hnonneg
  · have hlt : t % twoHours < twoHours := Int.emod_lt_of_pos t (by decide)
    linarith

/-! ## Prohibited fields -/

theorem scanItems_path {items : List (PyKey × PyVal)}
    (ih : ∀ p ∈ items, ∀ path path', scanProhibited path p.2 = .ok () →
      scanProhibited path' p.2 = .ok ()) (path path' : PyStr)
    (h : scanItems path items = .ok ()) : scanItems path' items = .ok () := by
  induction items with
  | nil => rfl
  | cons p items ihitems =>
    obtain ⟨k, v⟩ := p
    rw [scanItems] at h ⊢
    simp only [require, bind_ok, check_ok] at h ⊢
    obtain ⟨key, hkey, u, hallowed, _, hv, hrest⟩ := h
    exact ⟨key, hkey, u, hallowed, (), ih (k, v) mem_cons_self _ _ hv,
      ihitems (fun q hq => ih q (mem_cons_of_mem _ hq)) hrest⟩

theorem scanList_path {xs : List PyVal}
    (ih : ∀ x ∈ xs, ∀ path path', scanProhibited path x = .ok () → scanProhibited path' x = .ok ())
    (path path' : PyStr) (i j : Nat) (h : scanList path i xs = .ok ()) :
    scanList path' j xs = .ok () := by
  induction xs generalizing i j with
  | nil => rfl
  | cons x xs ihxs =>
    rw [scanList] at h ⊢
    obtain ⟨_, hx, hrest⟩ := bind_ok.mp h
    exact bind_intro (ih x mem_cons_self _ _ hx)
      (ihxs (fun y hy => ih y (mem_cons_of_mem _ hy)) _ _ hrest)

/-- Whether a value holds a prohibited field does not depend on the path to it. -/
theorem scanProhibited_path (v : PyVal) (path path' : PyStr)
    (h : scanProhibited path v = .ok ()) : scanProhibited path' v = .ok () := by
  induction v generalizing path path' with
  | dict items ih =>
    rw [scanProhibited] at h ⊢
    exact scanItems_path ih _ _ h
  | list xs ih | tuple xs ih =>
    rw [scanProhibited] at h ⊢
    exact scanList_path ih _ _ _ _ h
  | _ => rfl

theorem scanList_ok {path : PyStr} {i : Nat} {xs : List PyVal} :
    scanList path i xs = .ok () ↔ ∀ x ∈ xs, scanProhibited [] x = .ok () := by
  induction xs generalizing i with
  | nil => simp [scanList]
  | cons x xs ih =>
    rw [scanList, forall_mem_cons, ← ih, bind_ok]
    constructor
    · rintro ⟨_, hx, hrest⟩
      exact ⟨scanProhibited_path x _ _ hx, hrest⟩
    · rintro ⟨hx, hrest⟩
      exact ⟨(), scanProhibited_path x _ _ hx, hrest⟩

/-- Whether records hold a prohibited field does not depend on their order. -/
theorem scanRecords_perm {records records' : List Record} (hperm : records.Perm records')
    (h : scanRecords records = .ok ()) : scanRecords records' = .ok () := by
  rw [scanRecords, scanProhibited, scanList_ok] at h ⊢
  intro v hv
  exact h v ((hperm.map _).mem_iff.mpr hv)

/-! ## The bundle -/

/-- **What a bundle says of the query it resolves.** -/
structure Resolves (P : Platform) (query : ParentQuery) (bundle : ParentBundle) : Prop where
  validated : validateLocal P query.localObservation = .ok bundle.observation
  expectedSlot : expectedParentSlot P bundle.observation.firstValidTime =
    .ok (bundle.expectedStart, bundle.expectedEnd)
  /-- The expected slot is the last one that has ended. -/
  expected : ∃ stop : Int, twoHours ∣ stop ∧ stop ≤ bundle.observation.firstValidTime ∧
    bundle.observation.firstValidTime < stop + twoHours ∧
    bundle.expectedStart = iso P (stop - twoHours) ∧ bundle.expectedEnd = iso P stop
  /-- A slot is selected iff it is the only one with the expected interval and suitable. -/
  selects : ∀ id, bundle.fixedParentObservationLink.selectedId = some id ↔
    ∃ slot, OnlySlot P bundle.expectedStart bundle.expectedEnd query.parentSlots slot ∧
      fieldText P slot "observation_id" = .ok id ∧ Suitable P bundle.observation slot
  /-- Every link accounts for its candidates. -/
  accounts : ∀ link ∈ bundle.links, Accounts link.candidateIds link.eligibleIds link.exclusions
  /-- The inventory of higher order counts every candidate as often as it occurs. -/
  higherOrder : bundle.higherOrder.candidateIds.Perm (bundle.higherOrder.eligibleIds ++
    bundle.higherOrder.exclusions.map Exclusion.candidateId)
  /-- Every episode is left out. -/
  episodes : bundle.episode.exclusions.map Exclusion.candidateId = bundle.episode.candidateIds
  causalSlot : SelectsCausally P bundle.observation query.parentSlots "observation_id"
    bundle.fixedParentObservationLink
  causalObjects : ∀ link ∈ [bundle.parentMeasurementLink, bundle.parentAxisContextLink] ++
    bundle.parentStructuralLinksByDepth,
    SelectsCausally P bundle.observation query.parentObjects "object_id" link

/-- The ids and hashes leave the links as they are. -/
theorem identify_ok {bundle bundle' : ParentBundle} (h : bundle.identify P = .ok bundle') :
    ∃ profileId structuralComputability bundleId contentSha256, bundle' = { bundle with
      profileId, structuralComputability, bundleId, contentSha256 } := by
  simp only [ParentBundle.identify, bind_ok, pure_ok] at h
  obtain ⟨profileId, -, components, -, bundleId, -, hash, -, rfl⟩ := h
  exact ⟨_, _, _, _, rfl⟩

/-- The fixed link, after it was compared with the previous one. -/
theorem selects_of_fixedOutcome {slots : List Record} {inventory : Inventory}
    (hinv : slotInventory P slots expectedStart expectedEnd = .ok inventory)
    (houtc : FixedOutcome P o inventory link fixed) (hkeeps : Keeps link link') :
    Accounts link'.candidateIds link'.eligibleIds link'.exclusions ∧
      (∀ id, link'.selectedId = some id ↔ ∃ slot, OnlySlot P expectedStart expectedEnd slots slot ∧
          fieldText P slot "observation_id" = .ok id ∧ Suitable P o slot) ∧
      SelectsCausally P o slots "observation_id" link' := by
  have hselects : ∀ id, link'.selectedId = some id ↔
      ∃ slot, OnlySlot P expectedStart expectedEnd slots slot ∧
        fieldText P slot "observation_id" = .ok id ∧ Suitable P o slot := by
    intro id
    rw [hkeeps.selectedId, houtc.selects]
    constructor
    · rintro ⟨e, hone, rfl, hsuit⟩
      obtain ⟨honly, hid⟩ := (eligible_eq_singleton_iff hinv).mp ⟨e, hone, rfl, rfl⟩
      exact ⟨e.item, honly, hid, hsuit⟩
    · rintro ⟨slot, honly, hid, hsuit⟩
      obtain ⟨e, hone, rfl, rfl⟩ := (eligible_eq_singleton_iff hinv).mpr ⟨honly, hid⟩
      exact ⟨e, hone, rfl, hsuit⟩
  refine ⟨?_, hselects, ?_⟩
  · rw [hkeeps.candidateIds, hkeeps.eligibleIds, hkeeps.exclusions]
    exact houtc.accounts
  · intro id hid
    obtain ⟨slot, honly, hslot, hsuit⟩ := (hselects id).mp hid
    obtain ⟨e, t, hone, ht, htime⟩ := houtc.time id (hkeeps.selectedId ▸ hid)
    obtain ⟨e', hone', hitem, -⟩ := (eligible_eq_singleton_iff hinv).mpr ⟨honly, hslot⟩
    rw [hone, singleton_inj] at hone'
    obtain ⟨t', ht', hle⟩ := hsuit.firstValid
    rw [hone', hitem, ht', Except.ok.injEq] at ht
    refine ⟨slot, honly.mem, hslot, t', ht', hle, ?_⟩
    rw [hkeeps.parentFirstValidTime, htime, ← ht]

variable {intOfText : IntOfText} {query : ParentQuery} {bundle : ParentBundle}

theorem resolves_resolveRoles {inventory : Inventory}
    (hlocal : validateLocal P query.localObservation = .ok o)
    (hexp : expectedParentSlot P o.firstValidTime = .ok (expectedStart, expectedEnd))
    (hinv : slotInventory P query.parentSlots expectedStart expectedEnd = .ok inventory)
    (houtc : FixedOutcome P o inventory link fixed)
    (h : resolveRoles P intOfText query o expectedStart expectedEnd link fixed = .ok bundle) :
    Resolves P query bundle := by
  simp only [resolveRoles, bind_ok] at h
  obtain ⟨refreshed, hrefreshed, measurement, hmeasurement, axis, haxis, depths, -, structural,
    hstructural, higher, hhigher, episode, -, h⟩ := h
  obtain ⟨profileId, structuralComputability, bundleId, contentSha256, rfl⟩ := identify_ok h
  obtain ⟨haccs, hselects, hcausal⟩ :=
    selects_of_fixedOutcome hinv houtc (keeps_applyRefresh hrefreshed)
  have hroles : ∀ role ∈ [measurement, axis] ++ structural,
      Accounts role.candidateIds role.eligibleIds role.exclusions ∧
        SelectsCausally P o query.parentObjects "object_id" role := by
    intro role hrole
    rcases mem_append.mp hrole with hrole | hrole
    · rcases mem_pair.mp hrole with rfl | rfl
      · exact projectRole_spec hmeasurement
      · exact projectRole_spec haxis
    · obtain ⟨depth, -, hdepth⟩ := mem_of_mapM_right hstructural hrole
      exact projectRole_spec hdepth
  exact {
    validated := hlocal
    expectedSlot := hexp
    expected := expectedParentSlot_spec hexp
    selects := hselects
    accounts := by
      intro role hrole
      rcases mem_cons.mp hrole with rfl | hrole
      · exact haccs
      · exact (hroles role hrole).1
    higherOrder := higherOrderProjection_perm hhigher
    episodes := by
      rw [EpisodeProjection.exclusions, map_map]
      exact map_id _
    causalSlot := hcausal
    causalObjects := fun role hrole => (hroles role hrole).2 }

theorem resolves_of_resolveParentContext
    (h : resolveParentContext P intOfText query = .ok bundle) : Resolves P query bundle := by
  simp only [resolveParentContext, bind_ok] at h
  obtain ⟨-, -, -, -, -, -, -, -, -, -, -, -, -, -, -, -, o, hlocal, ⟨expectedStart, expectedEnd⟩,
    hexp, ⟨link, fixed⟩, hfixed, hroles⟩ := h
  obtain ⟨inventory, hinv, houtc⟩ := fixedOutcome_resolveFixedParent hfixed
  exact resolves_resolveRoles hlocal hexp hinv houtc hroles

/-- **The bundle does not depend on the order of the slots.** -/
theorem resolveParentContext_perm {slots : List Record} (hperm : query.parentSlots.Perm slots)
    (h : resolveParentContext P intOfText query = .ok bundle) :
    resolveParentContext P intOfText { query with parentSlots := slots } = .ok bundle := by
  simp only [resolveParentContext, bind_ok, require, check_ok] at h ⊢
  obtain ⟨_, hlocalScan, _, hslotScan, _, hobjectScan, _, hhigherScan, _, hepisodeScan, _,
    hauth, _, hcount, _, hclosures, o, hlocal, expected, hexp, resolved, hfixed,
    hroles⟩ := h
  exact ⟨(), hlocalScan, (), scanRecords_perm hperm hslotScan, (), hobjectScan, (), hhigherScan, (),
    hepisodeScan, (), hauth, (), hcount, (), hclosures, o, hlocal, expected, hexp,
    resolved, resolveFixedParent_perm hperm hfixed, hroles⟩

/-- **Parent context is causal and fails closed.** Whenever the resolver returns, the bundle selects
the only suitable slot or none, accounts for every candidate, selects nothing later than the local
observation, and is the same for every order of the slots. -/
theorem resolveParentContext_resolves (P : Platform) (intOfText : IntOfText) (query : ParentQuery)
    (bundle : ParentBundle) (h : resolveParentContext P intOfText query = .ok bundle) :
    Resolves P query bundle ∧ ∀ slots, query.parentSlots.Perm slots →
      resolveParentContext P intOfText { query with parentSlots := slots } = .ok bundle :=
  ⟨resolves_of_resolveParentContext h, fun _ hperm => resolveParentContext_perm hperm h⟩

/-! ## A query -/

/-- The identity of the samples. -/
def sampleIdentity : Record :=
  [(py "instrument_id", .str (py "EURUSD")), (py "side", .str (py "BID")),
    (py "release_id", .str (py "R1")), (py "calendar_id", .str (py "CAL")),
    (py "parent_lattice_id", .str (py "LATTICE"))]

/-- A complete slot that does not name its source. -/
def sampleSlot : Record :=
  sampleIdentity ++ [(py "observation_id", .str (py "SLOT")), (py "status", .str (py "COMPLETE")),
    (py "interval_start", .str (py "2026-01-06T08:00:00Z")),
    (py "interval_end", .str (py "2026-01-06T10:00:00Z")),
    (py "first_valid_time", .str (py "2026-01-06T10:00:00Z")), (py "source_id", .str [])]

/-- An object of higher order. -/
def sampleObject (clock : String) : Record :=
  [(py "object_id", .str (py "OBJECT")), (py "local_clock", .str (py clock)),
    (py "depth", .int 1), (py "local_observation_id", .str (py "LOCAL"))]

/-- The slot of the last two hours, and two objects with one id. -/
def sampleQuery : ParentQuery where
  localObservation := sampleIdentity ++ [(py "observation_id", .str (py "LOCAL")),
    (py "first_valid_time", .str (py "2026-01-06T10:15:00Z")),
    (py "parent_scope_id", .str (py "SCOPE"))]
  parentSlots := [sampleSlot]
  higherOrderLocalObjects := [sampleObject "15M", sampleObject "2H"]

/-- The bundle refuses the slot, and has the id both eligible and left out. -/
def ParentBundle.IsExceptional (bundle : ParentBundle) : Prop :=
  bundle.fixedParentObservationLink.selectedId = none ∧
    py "OBJECT" ∈ bundle.higherOrder.eligibleIds ∧
    py "OBJECT" ∈ bundle.higherOrder.exclusions.map Exclusion.candidateId

instance (bundle : ParentBundle) : Decidable bundle.IsExceptional :=
  inferInstanceAs (Decidable (_ ∧ _))

/-- The bundle of the query, if it is resolved and exceptional. -/
def sampleBundle? : Option ParentBundle :=
  (resolveParentContext .reference (fun _ => none) sampleQuery).toOption.filter fun bundle =>
    decide bundle.IsExceptional

/-- The bundle of the query. -/
def sampleBundle : ParentBundle := sampleBundle?.get (by decide +kernel)

/-- The query is resolved: the slot is refused, and the id is both eligible and left out. -/
theorem sampleQuery_resolved : ∃ bundle,
    resolveParentContext .reference (fun _ => none) sampleQuery = .ok bundle ∧
      bundle.fixedParentObservationLink.selectedId = none ∧
      py "OBJECT" ∈ bundle.higherOrder.eligibleIds ∧
      py "OBJECT" ∈ bundle.higherOrder.exclusions.map Exclusion.candidateId := by
  have hget : sampleBundle? = some sampleBundle := (Option.some_get _).symm
  obtain ⟨hrun, hexceptional⟩ := Option.filter_eq_some_iff.mp hget
  exact ⟨sampleBundle, eq_ok_of_toOption hrun, of_decide_eq_true hexceptional⟩

/-- The local observation of the query. -/
def sampleLocal : LocalObservation where
  observationId := py "LOCAL"
  firstValidTime := 1767694500000000
  instrumentId := py "EURUSD"
  side := py "BID"
  releaseId := py "R1"
  calendarId := py "CAL"
  parentLatticeId := py "LATTICE"
  parentScopeId := py "SCOPE"

/-- The slot of the query is as complete, identical and early as it has to be. -/
theorem qualifies_sampleSlot : Qualifies .reference sampleLocal sampleSlot where
  complete := by decide +kernel
  identity := by decide +kernel
  firstValid := ⟨1767693600000000, by decide +kernel, by decide⟩
  intervalEnd := ⟨1767693600000000, by decide +kernel, by decide⟩

theorem onlySlot_sampleSlot : OnlySlot .reference (py "2026-01-06T08:00:00Z")
    (py "2026-01-06T10:00:00Z") sampleQuery.parentSlots sampleSlot where
  mem := mem_singleton_self sampleSlot
  interval := ⟨1767686400000000, 1767693600000000, by decide +kernel, by decide +kernel,
    by decide +kernel, by decide +kernel⟩
  unique _ hother _ := mem_singleton.mp hother

/-- Two slots, neither of which can be read. -/
def malformedSlots : List Record := [[], [(py "observation_id", .str (py "SLOT"))]]

/-- The exception of a call. -/
def raised {α : Type} : Except Error α → Option Error
  | .error e => some e
  | .ok _ => none

/-- **A complete slot without a source is refused, an id of higher order may be eligible and left
out, and the order of malformed slots decides which of them is reported.** -/
theorem resolveParentContext_exceptions :
    (¬ ∀ (P : Platform) (intOfText : IntOfText) (query : ParentQuery) (bundle : ParentBundle),
      resolveParentContext P intOfText query = .ok bundle →
        ∀ id, bundle.fixedParentObservationLink.selectedId = some id ↔
          ∃ slot, OnlySlot P bundle.expectedStart bundle.expectedEnd query.parentSlots slot ∧
            fieldText P slot "observation_id" = .ok id ∧ Qualifies P bundle.observation slot) ∧
    (¬ ∀ (P : Platform) (intOfText : IntOfText) (query : ParentQuery) (bundle : ParentBundle),
      resolveParentContext P intOfText query = .ok bundle → ∀ id ∈ bundle.higherOrder.eligibleIds,
          id ∉ bundle.higherOrder.exclusions.map Exclusion.candidateId) ∧
    ¬ ∀ (P : Platform) (intOfText : IntOfText) (query : ParentQuery) (slots : List Record),
      query.parentSlots.Perm slots → resolveParentContext P intOfText query =
        resolveParentContext P intOfText { query with parentSlots := slots } := by
  obtain ⟨bundle, h, hnone, helig, hexcl⟩ := sampleQuery_resolved
  refine ⟨?_, ?_, ?_⟩
  · intro H
    have hbundle := resolves_of_resolveParentContext h
    have hlocal : validateLocal .reference sampleQuery.localObservation = .ok sampleLocal := by
      decide +kernel
    have hobservation : bundle.observation = sampleLocal :=
      Except.ok.inj (hbundle.validated.symm.trans hlocal)
    have hslot : expectedParentSlot .reference sampleLocal.firstValidTime =
        .ok (py "2026-01-06T08:00:00Z", py "2026-01-06T10:00:00Z") := by decide +kernel
    have hexp := hbundle.expectedSlot
    rw [hobservation, hslot, Except.ok.injEq, Prod.mk.injEq] at hexp
    have hsel := (H .reference _ sampleQuery bundle h (py "SLOT")).mpr ⟨sampleSlot,
      hexp.1 ▸ hexp.2 ▸ onlySlot_sampleSlot, by decide +kernel,
      hobservation ▸ qualifies_sampleSlot⟩
    rw [hnone] at hsel
    cases hsel
  · intro H
    exact H .reference _ sampleQuery bundle h _ helig hexcl
  · intro H
    have hswap := congrArg raised (H .reference (fun _ => none)
      { sampleQuery with parentSlots := malformedSlots } malformedSlots.reverse
      (reverse_perm _).symm)
    have hfst : raised (resolveParentContext .reference (fun _ => none)
        { sampleQuery with parentSlots := malformedSlots }) =
        some (.parent (py "PARENT_OBSERVATION_ID_REQUIRED")) := by decide +kernel
    have hsecond : raised (resolveParentContext .reference (fun _ => none)
        { sampleQuery with parentSlots := malformedSlots.reverse }) =
        some (.parent (py "PARENT_INTERVAL_REQUIRED")) := by decide +kernel
    rw [hfst] at hswap
    exact absurd (hswap.trans hsecond) (by decide +kernel)

theorem resolveParentContext_resolves_sample : ∃ bundle,
    resolveParentContext .reference (fun _ => none) sampleQuery = .ok bundle ∧
      Resolves .reference sampleQuery bundle := by
  obtain ⟨bundle, h, -⟩ := sampleQuery_resolved
  exact ⟨bundle, h, (resolveParentContext_resolves .reference _ _ bundle h).1⟩

end Parent

end OvcReplay.C2Vnext
