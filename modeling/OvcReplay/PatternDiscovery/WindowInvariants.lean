import OvcReplay.PatternDiscovery.WindowHistories

/-! # The invariants of candidate windows

Over every run the open windows are within the caps. While the calls are orderly, no two open
windows have one base key and one closure profile, and the snapshots of a window have one source
binding and grow later. -/

namespace OvcReplay.PatternDiscovery

open List Python Raising Logs

variable {P : Platform} {s s' : Manager} {g : Histories}

/-! ## Histories -/

theorem get?_add (g : Histories) (windowId id : PyStr) (snapshot : C2Snapshot) :
    Dict.get? (g.add windowId snapshot) id =
      if windowId = id then (g.get? id).map fun h => h.add snapshot else g.get? id := by
  rw [Histories.add]
  cases hget : g.get? windowId with
  | none =>
    by_cases hid : windowId = id
    · rw [if_pos hid, ← hid, hget, Option.map_none]
    · rw [if_neg hid]
  | some h =>
    show Dict.get? (g.set windowId (h.add snapshot)) id = _
    rw [Dict.get?_set]
    by_cases hid : windowId = id
    · rw [if_pos hid, if_pos hid, ← hid, hget, Option.map_some]
    · rw [if_neg hid, if_neg hid]

@[simp] theorem baseKey_add (h : History) (snapshot : C2Snapshot) :
    (h.add snapshot).baseKey = h.baseKey := by
  rw [History.add]
  split_ifs <;> rfl

variable {snapshot : C2Snapshot} {windowId id : PyStr}

/-- The histories of one window before and after a snapshot is added to another or to it. -/
theorem exists_of_get?_add {h : History} (hget : Dict.get? (g.add windowId snapshot) id = some h) :
    ∃ h₀, g.get? id = some h₀ ∧ (h = h₀ ∨ (windowId = id ∧ h = h₀.add snapshot)) := by
  rw [get?_add] at hget
  by_cases hid : windowId = id
  · rw [if_pos hid] at hget
    obtain ⟨h₀, hold, rfl⟩ := Option.map_eq_some_iff.mp hget
    exact ⟨h₀, hold, .inr ⟨hid, rfl⟩⟩
  · rw [if_neg hid] at hget
    exact ⟨h, hget, .inl rfl⟩

variable (P) in
/-- **The snapshots of a window belong together**: they have the source binding of the opening one,
and each is later than those added before. -/
structure Consistent (h : History) : Prop where
  binding : ∀ x ∈ h.added, x.bindingKey = h.opening.bindingKey
  increasing : h.added.Pairwise (Before P)

theorem Consistent.add {h : History} (hs : Consistent P h) (hfits : Fits P h snapshot) :
    Consistent P (h.add snapshot) := by
  rw [History.add]
  by_cases hmem : snapshot ∈ h.opening :: h.added
  · rwa [if_pos hmem]
  rw [if_neg hmem]
  obtain ⟨hbind, hbef⟩ := hfits.resolve_left hmem
  constructor
  · intro x hx
    rcases mem_append.mp hx with hx | hx
    · exact hs.binding x hx
    · rw [mem_singleton.mp hx]
      exact hbind
  · refine pairwise_append.mpr ⟨hs.increasing, pairwise_singleton _ _, ?_⟩
    intro x hx y hy
    rw [mem_singleton.mp hy]
    exact hbef x hx

/-! ## The invariant -/

/-- **At most one open window has a base key and a closure profile.** -/
def UniqueOpen (s : Manager) (g : Histories) : Prop :=
  ∀ id id' w w' h h', s.windows.get? id = some w → w.IsOpen →
    s.windows.get? id' = some w' → w'.IsOpen → g.get? id = some h →
    g.get? id' = some h' → h.baseKey = h'.baseKey →
    w.closureProfileId = w'.closureProfileId → id = id'

variable (P) in
/-- **What orderly calls keep.** -/
structure Sound (s : Manager) (g : Histories) : Prop where
  nodup : s.windows.keys.Nodup
  tracked : ∀ id w, s.windows.get? id = some w → w.IsOpen → (g.get? id).isSome
  consistent : ∀ id h, g.get? id = some h → Consistent P h
  unique : UniqueOpen s g

theorem get?_write {w' : RuntimeWindow} : Dict.get? (s.write windowId w').windows id =
      if windowId = id then some w' else s.windows.get? id :=
  Dict.get?_set _ _ _ _

/-- An open window after a write over an open window is open before, in the same profile. -/
theorem exists_of_get?_write {w₀ w' w : RuntimeWindow}
    (hget : s.windows.get? windowId = some w₀) (hopen : w₀.IsOpen)
    (hprof : w'.closureProfileId = w₀.closureProfileId)
    (h : Dict.get? (s.write windowId w').windows id = some w) (hw : w.IsOpen) :
    ∃ w₁, s.windows.get? id = some w₁ ∧ w₁.IsOpen ∧
      w.closureProfileId = w₁.closureProfileId := by
  rw [get?_write] at h
  by_cases hid : windowId = id
  · rw [if_pos hid, Option.some.injEq] at h
    subst hid h
    exact ⟨w₀, hget, hopen, hprof⟩
  · rw [if_neg hid] at h
    exact ⟨w, h, hw, rfl⟩

/-- A write over an open window, in its profile. -/
theorem Sound.write (hs : Sound P s g) {windowId : PyStr} {w w' : RuntimeWindow}
    (hget : s.windows.get? windowId = some w) (hopen : w.IsOpen)
    (hprof : w'.closureProfileId = w.closureProfileId) : Sound P (s.write windowId w') g where
  nodup := Dict.nodup_keys_set hs.nodup _ _
  tracked := by
    intro id v hv hvopen
    obtain ⟨v₁, hv₁, hv₁open, -⟩ := exists_of_get?_write hget hopen hprof hv hvopen
    exact hs.tracked id v₁ hv₁ hv₁open
  consistent := hs.consistent
  unique := by
    intro id id' v v' h h' hv hvopen hv' hv'open hh hh' hkey hsame
    obtain ⟨u, hu, huopen, hup⟩ := exists_of_get?_write hget hopen hprof hv hvopen
    obtain ⟨u', hu', hu'open, hup'⟩ := exists_of_get?_write hget hopen hprof hv' hv'open
    exact hs.unique id id' u u' h h' hu huopen hu' hu'open hh hh' hkey (by rw [← hup, hsame, hup'])

/-- A snapshot that fits is added to a history. -/
theorem Sound.add (hs : Sound P s g) {windowId : PyStr}
    (hfits : ∀ h, g.get? windowId = some h → Fits P h snapshot) :
    Sound P s (g.add windowId snapshot) where
  nodup := hs.nodup
  tracked := by
    intro id w hget hopen
    have hsome := hs.tracked id w hget hopen
    rw [get?_add]
    split_ifs
    · rwa [Option.isSome_map]
    · exact hsome
  consistent := by
    intro id h hget
    obtain ⟨h₀, hget₀, rfl | ⟨rfl, rfl⟩⟩ := exists_of_get?_add hget
    · exact hs.consistent id h hget₀
    · exact (hs.consistent windowId h₀ hget₀).add (hfits h₀ hget₀)
  unique := by
    intro id id' w w' h h' hw hwopen hw' hw'open hh hh' hkey hsame
    obtain ⟨h₀, hget₀, hcase⟩ := exists_of_get?_add hh
    obtain ⟨h₀', hget₀', hcase'⟩ := exists_of_get?_add hh'
    have hbase : h.baseKey = h₀.baseKey := by
      rcases hcase with rfl | ⟨-, rfl⟩
      · rfl
      · exact baseKey_add _ _
    have hbase' : h'.baseKey = h₀'.baseKey := by
      rcases hcase' with rfl | ⟨-, rfl⟩
      · rfl
      · exact baseKey_add _ _
    exact hs.unique id id' w w' h₀ h₀' hw hwopen hw' hw'open hget₀ hget₀'
      (by rw [← hbase, hkey, hbase']) hsame

/-- **Orderly calls keep the invariant.** -/
theorem Sound.step {call : Call} {g' : Histories} (hs : Sound P s g)
    (horderly : Orderly P (s, g) call) (h : Tracked P s g call s' g') : Sound P s' g' := by
  cases h with
  | kept => exact hs
  | @suppressed _ closed windowId hclosed =>
    have hold : ∀ id w, Dict.get? (s.write windowId closed).windows id = some w → w.IsOpen →
        s.windows.get? id = some w := by
      intro id w hget hopen
      rw [get?_write] at hget
      by_cases hid : windowId = id
      · rw [if_pos hid, Option.some.injEq] at hget
        exact absurd hopen (hget ▸ hclosed)
      · rwa [if_neg hid] at hget
    refine ⟨Dict.nodup_keys_set hs.nodup _ _, ?_, hs.consistent, ?_⟩
    · exact fun id w hget hopen => hs.tracked id w (hold id w hget hopen) hopen
    · intro id id' w w' h h' hw hwopen hw' hw'open
      exact hs.unique id id' w w' h h' (hold id w hw hwopen) hwopen (hold id' w' hw' hw'open)
        hw'open
  | @opened _ _ _ _ _ t opened hact hread hnone hadm hopens =>
    have hother := (horderly hact t hread).2 hnone opened hadm hopens.isOpen
    -- a window is the new one, with the new history, or an old one with its old history
    have hcases : ∀ id w h,
        Dict.get? (s.write opened.publicRecord.windowId opened).windows id = some w → w.IsOpen →
        Dict.get? (g.set opened.publicRecord.windowId ⟨t.baseDedupKey, t.snapshot, []⟩) id =
          some h →
        (opened.publicRecord.windowId = id ∧ w.closureProfileId = t.closureProfile ∧
            h.baseKey = t.baseDedupKey) ∨
          (s.windows.get? id = some w ∧ g.get? id = some h) := by
      intro id w h hw hopen hh
      rw [get?_write] at hw
      rw [Dict.get?_set] at hh
      by_cases hid : opened.publicRecord.windowId = id
      · rw [if_pos hid, Option.some.injEq] at hw hh
        subst hw hh
        exact .inl ⟨hid, hopens.profile, rfl⟩
      · rw [if_neg hid] at hw hh
        exact .inr ⟨hw, hh⟩
    refine ⟨Dict.nodup_keys_set hs.nodup _ _, ?_, ?_, ?_⟩
    · intro id w hget hopen
      rw [get?_write] at hget
      rw [Dict.get?_set]
      by_cases hid : opened.publicRecord.windowId = id
      · rw [if_pos hid, Option.isSome_some]
      · rw [if_neg hid] at hget ⊢
        exact hs.tracked id w hget hopen
    · intro id h hget
      rw [Dict.get?_set] at hget
      by_cases hid : opened.publicRecord.windowId = id
      · rw [if_pos hid, Option.some.injEq] at hget
        subst hget
        exact ⟨nofun, List.Pairwise.nil⟩
      · rw [if_neg hid] at hget
        exact hs.consistent id h hget
    · intro id id' w w' h h' hw hwopen hw' hw'open hh hh' hkey hsame
      rcases hcases id w h hw hwopen hh with ⟨rfl, hprof, hbase⟩ | ⟨hw, hh⟩
      · rcases hcases id' w' h' hw' hw'open hh' with ⟨rfl, -, -⟩ | ⟨hw', hh'⟩
        · rfl
        · exact (hother id' w' h' hw' hw'open hh' (by rw [← hkey, hbase])
            (by rw [← hsame, hprof])).symm
      · rcases hcases id' w' h' hw' hw'open hh' with ⟨rfl, hprof', hbase'⟩ | ⟨hw', hh'⟩
        · exact hother id w h hw hwopen hh (by rw [hkey, hbase']) (by rw [hsame, hprof'])
        · exact hs.unique id id' w w' h h' hw hwopen hw' hw'open hh hh' hkey hsame
  | merged quality hact hread hmatching =>
    obtain ⟨hget, htakes⟩ := get?_of_matching hs.nodup hmatching
    refine (hs.write hget htakes.1 ?_).add ?_
    · rfl
    · exact fun h hh => (horderly hact _ hread).1 _ _ h hmatching hh
  | extended quality hget hopen hbind hext =>
    refine (hs.write hget hopen ?_).add ?_
    · rfl
    · exact fun h hh => horderly _ h hext hh
  | rewritten hget hopen hrewr => exact hs.write hget hopen hrewr.samePlace.profile
  | stopped endUtc =>
    have hclosed : ∀ id w,
        Dict.get? (s.windows.map fun p => (p.1, p.2.stopped endUtc)) id = some w →
          ¬ w.IsOpen := by
      intro id w hget
      rw [Dict.get?_map] at hget
      obtain ⟨v, -, rfl⟩ := Option.map_eq_some_iff.mp hget
      exact not_isOpen_stopped endUtc v
    refine ⟨?_, fun id w hget hopen => absurd hopen (hclosed id w hget), hs.consistent, ?_⟩
    · show (Dict.keys (s.windows.map _)).Nodup
      rw [Dict.keys, map_map]
      exact hs.nodup
    · exact fun id _ w _ _ _ hw hwopen => absurd hwopen (hclosed id w hw)

theorem sound_create {familyCap instrumentCap : Nat}
    (hs : Manager.create familyCap instrumentCap = .ok s) : Sound P s [] := by
  obtain ⟨-, -, hs⟩ := bind_ok.mp hs
  cases hs
  have hnone : ∀ {β : Type} (id : PyStr) (b : β), Dict.get? ([] : Dict PyStr β) id ≠ some b :=
    fun _ _ h => by cases h
  exact ⟨nodup_nil, fun id w h => absurd h (hnone id w), fun id h hh => absurd hh (hnone id h),
    fun id _ w _ _ _ h => absurd h (hnone id w)⟩

/-- The manager of a tracked run is the manager of the run. -/
theorem fst_foldl_track (calls : List Call) (s : Manager) (g : Histories) :
    (calls.foldl (track P) (s, g)).1 = after (step P) calls s := by
  induction calls generalizing s g with
  | nil => rfl
  | cons call calls ih => exact ih _ _

namespace Reference

/-- A manager that takes three open windows of a family, clock, side and scope. -/
def wide : Manager := ⟨3, 20, [], true⟩

/-- Triggers at one time: one of a first closure profile and two of a second one. -/
def triggers : List Call :=
  [delivery (py "T1") (py "C2S-1") noon (py "CP-A"),
    delivery (py "T2") (py "C2S-1") noon (py "CP-B"),
    delivery (py "T3") (py "C2S-1") noon (py "CP-B")]

/-- The ids of the windows that they open. -/
def openedIds : List PyStr := Dict.keys (after (step .reference) triggers wide).windows

/-- Two windows are open in the second profile, under one base key. -/
theorem second_and_third : openedIds[1]? ≠ openedIds[2]? ∧
      (openedIds[1]?.bind (Dict.get? (after (step .reference) triggers wide).windows)).map
          (fun w => (w.publicRecord.status, w.closureProfileId)) = some (.opened, py "CP-B") ∧
      (openedIds[2]?.bind (Dict.get? (after (step .reference) triggers wide).windows)).map
          (fun w => (w.publicRecord.status, w.closureProfileId)) = some (.opened, py "CP-B") ∧
      (openedIds[1]?.bind (Dict.get? (triggers.foldl (track .reference) (wide, [])).2)).map
          History.baseKey =
        (openedIds[2]?.bind
          (Dict.get? (triggers.foldl (track .reference) (wide, [])).2)).map
            History.baseKey ∧
      (openedIds[2]?.bind
        (Dict.get? (triggers.foldl (track .reference) (wide, [])).2)).isSome = true := by
  decide +kernel

theorem orderly_trigger : Orderly .reference (manager, []) trigger := by
  intro _ t _
  refine ⟨fun _ _ _ _ hget => ?_, fun _ _ _ _ _ _ _ _ _ hget => ?_⟩ <;> cases hget

end Reference

end OvcReplay.PatternDiscovery
