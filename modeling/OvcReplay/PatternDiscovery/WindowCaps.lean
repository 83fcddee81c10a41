import OvcReplay.PatternDiscovery.WindowFinality

/-! # The caps of open windows

A window is opened only below both caps, and no other write opens one: over every run the open
windows of a family, clock, side and scope stay within the first cap and all open windows within the
second. -/

namespace OvcReplay.PatternDiscovery

open List Python Raising

variable {P : Platform} {s s' : Manager}

/-! ## Counting what is stored -/

section Counting

variable {κ β : Type} [DecidableEq κ]

/-- A store counts at most one item more. -/
theorem countP_set_le (d : Dict κ β) (k : κ) (v : β) (f : κ × β → Bool) :
    (d.set k v).countP f ≤ d.countP f + if f (k, v) then 1 else 0 := by
  induction d with
  | nil => rw [Dict.set_nil, countP_cons]
  | cons p d ih =>
    obtain ⟨q, u⟩ := p
    rw [Dict.set_cons]
    by_cases h : q = k
    · rw [if_pos h, countP_cons, countP_cons, h]
      omega
    · rw [if_neg h, countP_cons, countP_cons]
      omega

/-- A store over an item that is counted, or that is not counted itself, counts no more. -/
theorem countP_set_of_get? {d : Dict κ β} {k : κ} {v w : β} {f : κ × β → Bool}
    (hget : d.get? k = some w) (h : f (k, v) = true → f (k, w) = true) :
    (d.set k v).countP f ≤ d.countP f := by
  induction d with
  | nil => cases hget
  | cons p d ih =>
    obtain ⟨q, u⟩ := p
    rw [Dict.get?_cons] at hget
    rw [Dict.set_cons]
    by_cases hq : q = k
    · subst hq
      rw [if_pos rfl, Option.some.injEq] at hget
      subst hget
      rw [if_pos rfl, countP_cons, countP_cons]
      by_cases hv : f (q, v) = true
      · rw [if_pos hv, if_pos (h hv)]
      · rw [if_neg hv]
        omega
    · rw [if_neg hq] at hget
      rw [if_neg hq, countP_cons, countP_cons]
      have hrest := ih hget
      omega

end Counting

/-- The open windows of which `p` holds. -/
def Manager.openCount (s : Manager) (p : RuntimeWindow → Prop) [DecidablePred p] : Nat :=
  s.windows.countP fun q => q.2.IsOpen ∧ p q.2

theorem countP_openWindows (s : Manager) (p : RuntimeWindow → Prop) [DecidablePred p] :
    s.openWindows.countP (fun w => p w) = s.openCount p := by
  rw [Manager.openWindows, countP_filter, countP_map, Manager.openCount]
  refine countP_congr fun q _ => ?_
  simp only [Function.comp_apply, Bool.and_eq_true, decide_eq_true_eq]
  exact and_comm

/-- `w'` is the window `w`, with another record of the same place. -/
structure SamePlace (w w' : RuntimeWindow) : Prop where
  family : w'.triggerFamily = w.triggerFamily
  instrument : w'.publicRecord.instrument = w.publicRecord.instrument
  clock : w'.publicRecord.clock = w.publicRecord.clock
  side : w'.publicRecord.priceSide = w.publicRecord.priceSide
  scope : w'.publicRecord.scopeId = w.publicRecord.scopeId
  profile : w'.closureProfileId = w.closureProfileId

theorem SamePlace.inFamilyScope {w w' : RuntimeWindow} (h : SamePlace w w')
    {family clock side scope : PyStr} :
    w'.InFamilyScope family clock side scope ↔ w.InFamilyScope family clock side scope := by
  rw [RuntimeWindow.InFamilyScope, RuntimeWindow.InFamilyScope, h.family, h.instrument, h.clock,
    h.side, h.scope]

theorem Rewrites.samePlace {w w' : RuntimeWindow} (h : Rewrites w w') : SamePlace w w' := by
  cases h <;> exact ⟨rfl, rfl, rfl, rfl, rfl, rfl⟩

theorem samePlace_stopped (endUtc : PyStr) (w : RuntimeWindow) :
    SamePlace w (w.stopped endUtc) := by
  rw [RuntimeWindow.stopped]
  split_ifs <;> exact ⟨rfl, rfl, rfl, rfl, rfl, rfl⟩

theorem not_isOpen_stopped (endUtc : PyStr) (w : RuntimeWindow) : ¬ (w.stopped endUtc).IsOpen := by
  rw [RuntimeWindow.stopped]
  by_cases h : w.IsOpen
  · rw [if_pos h, isOpen_iff, not_not, RuntimeWindow.IsTerminal]
    show Status.invalid ∈ terminalStatuses
    decide
  · rwa [if_neg h]

/-! ## What is stored of a trigger -/

variable {w : RuntimeWindow} {t : Trigger}

/-- The record of a suppressed trigger. -/
theorem suppressedWindow_ok {key reason : PyStr} (h : suppressedWindow P t key reason = .ok w) :
    ¬ w.IsOpen ∧ w.publicRecord.instrument = py "GBPUSD" := by
  simp only [suppressedWindow, bind_ok, pure_ok] at h
  obtain ⟨_, -, _, -, _, -, _, -, _, -, _, -, rfl⟩ := h
  refine ⟨?_, rfl⟩
  rw [isOpen_iff, not_not, RuntimeWindow.IsTerminal]
  show Status.suppressedQueueCap ∈ terminalStatuses
  decide

/-- The window of a trigger. -/
structure Opens (t : Trigger) (w : RuntimeWindow) : Prop where
  status : w.publicRecord.status = .opened
  instrument : w.publicRecord.instrument = py "GBPUSD"
  family : w.triggerFamily = t.family
  clock : w.publicRecord.clock = t.snapshot.clock
  side : w.publicRecord.priceSide = t.snapshot.side
  scope : w.publicRecord.scopeId = t.snapshot.evaluationScopeId
  profile : w.closureProfileId = t.closureProfile
  last : w.lastSnapshot = t.snapshot

theorem openedWindow_ok {key : PyStr} (h : openedWindow P t key = .ok w) : Opens t w := by
  simp only [openedWindow, bind_ok, pure_ok] at h
  obtain ⟨_, -, _, -, _, -, _, -, rfl⟩ := h
  exact ⟨rfl, rfl, rfl, rfl, rfl, rfl, rfl, rfl⟩

theorem Opens.isOpen (h : Opens t w) : w.IsOpen := by
  rw [RuntimeWindow.IsOpen, h.status]
  decide

/-- **What is stored of a trigger**: the record of its suppression, or a window below both caps. -/
theorem admitted_cases (h : s.admitted P t = .ok w) :
    (¬ w.IsOpen ∧ w.publicRecord.instrument = py "GBPUSD") ∨ (Opens t w ∧
        s.familyScopeCount t.family t.snapshot.clock t.snapshot.side
          t.snapshot.evaluationScopeId < s.maxOpenPerFamilyScope ∧
        s.instrumentCount < s.maxOpenPerInstrument) := by
  rw [Manager.admitted] at h
  by_cases hfam : s.familyScopeCount t.family t.snapshot.clock t.snapshot.side
      t.snapshot.evaluationScopeId ≥ s.maxOpenPerFamilyScope
  · rw [if_pos hfam] at h
    exact .inl (suppressedWindow_ok h)
  by_cases hinstr : s.instrumentCount ≥ s.maxOpenPerInstrument
  · rw [if_neg hfam, if_pos hinstr] at h
    exact .inl (suppressedWindow_ok h)
  · rw [if_neg hfam, if_neg hinstr] at h
    exact .inr ⟨openedWindow_ok h, Nat.lt_of_not_le hfam, Nat.lt_of_not_le hinstr⟩

/-! ## The caps -/

/-- **The open windows are within the caps.** -/
structure Capped (s : Manager) : Prop where
  instruments : ∀ p ∈ s.windows, p.2.publicRecord.instrument = py "GBPUSD"
  family : ∀ family clock side scope,
    s.familyScopeCount family clock side scope ≤ s.maxOpenPerFamilyScope
  instrument : s.openWindows.length ≤ s.maxOpenPerInstrument

/-- All open windows are of the instrument. -/
theorem length_openWindows (h : ∀ p ∈ s.windows, p.2.publicRecord.instrument = py "GBPUSD") :
    s.openWindows.length = s.openCount fun w => w.publicRecord.instrument = py "GBPUSD" := by
  rw [← countP_openWindows, eq_comm, countP_eq_length]
  intro w hw
  obtain ⟨p, hp, rfl⟩ := mem_map.mp (mem_filter.mp hw).1
  exact decide_eq_true (h p hp)

/-- Caps on the counts are kept when no count grows beyond its cap. -/
theorem Capped.of_counts (hs : Capped s)
    (hfamilyCap : s'.maxOpenPerFamilyScope = s.maxOpenPerFamilyScope)
    (hinstrumentCap : s'.maxOpenPerInstrument = s.maxOpenPerInstrument)
    (hinstrs : ∀ p ∈ s'.windows, p.2.publicRecord.instrument = py "GBPUSD")
    (hfam : ∀ family clock side scope,
      s'.openCount (fun w => w.InFamilyScope family clock side scope) ≤
          s.openCount (fun w => w.InFamilyScope family clock side scope) ∨
        s'.openCount (fun w => w.InFamilyScope family clock side scope) ≤ s.maxOpenPerFamilyScope)
    (hinstr : s'.openCount (fun w => w.publicRecord.instrument = py "GBPUSD") ≤
          s.openCount (fun w => w.publicRecord.instrument = py "GBPUSD") ∨
        s'.openCount (fun w => w.publicRecord.instrument = py "GBPUSD") ≤
          s.maxOpenPerInstrument) : Capped s' where
  instruments := hinstrs
  family := by
    intro family clock side scope
    have hold := hs.family family clock side scope
    rw [Manager.familyScopeCount, countP_openWindows] at hold ⊢
    rw [hfamilyCap]
    rcases hfam family clock side scope with h | h <;> omega
  instrument := by
    have hold := hs.instrument
    rw [length_openWindows hs.instruments] at hold
    rw [length_openWindows hinstrs, hinstrumentCap]
    rcases hinstr with h | h <;> omega

/-- A write over an open window of the same place, or of a window that is not open. -/
theorem Capped.write (hs : Capped s) {windowId : PyStr} {w w' : RuntimeWindow}
    (hget : s.windows.get? windowId = some w) (hopen : w.IsOpen) (hplace : SamePlace w w') :
    Capped (s.write windowId w') := by
  refine hs.of_counts rfl rfl ?_ ?_ ?_
  · intro p hp
    rcases Dict.mem_set hp with rfl | hp
    · exact hplace.instrument.trans (hs.instruments _ (Dict.mem_of_get? hget))
    · exact hs.instruments p hp
  · intro family clock side scope
    refine .inl (countP_set_of_get? hget fun h => ?_)
    exact decide_eq_true ⟨hopen, hplace.inFamilyScope.mp (of_decide_eq_true h).2⟩
  · refine .inl (countP_set_of_get? hget ?_)
    simp only [decide_eq_true_eq, hplace.instrument]
    exact fun h => ⟨hopen, h.2⟩

/-- **Every call keeps the caps.** -/
theorem Capped.moves (hs : Capped s) (hnd : s.windows.keys.Nodup) {call : Call}
    (h : Moves P s call s') : Capped s' := by
  cases h with
  | kept => exact hs
  | @stored _ _ _ _ _ t w _ _ _ hadm =>
    have hinstrs : w.publicRecord.instrument = py "GBPUSD" →
        ∀ p ∈ (s.write w.publicRecord.windowId w).windows,
          p.2.publicRecord.instrument = py "GBPUSD" := by
      intro hw p hp
      rcases Dict.mem_set hp with rfl | hp
      · exact hw
      · exact hs.instruments p hp
    rcases admitted_cases hadm with ⟨hclosed, hw⟩ | ⟨hopens, hfam, hinstr⟩
    · refine hs.of_counts rfl rfl (hinstrs hw) ?_ ?_
      · intro family clock side scope
        refine .inl ((countP_set_le _ _ _ _).trans ?_)
        rw [if_neg (by simp [hclosed])]
        exact le_rfl
      · refine .inl ((countP_set_le _ _ _ _).trans ?_)
        rw [if_neg (by simp [hclosed])]
        exact le_rfl
    · rw [Manager.familyScopeCount, countP_openWindows] at hfam
      rw [Manager.instrumentCount, countP_openWindows] at hinstr
      refine hs.of_counts rfl rfl (hinstrs hopens.instrument) ?_ ?_
      · intro family clock side scope
        by_cases hplace : w.InFamilyScope family clock side scope
        · -- the counted place is the place of the trigger
          obtain ⟨rfl, -, rfl, rfl, rfl⟩ := hplace
          rw [← hopens.family, ← hopens.clock, ← hopens.side, ← hopens.scope] at hfam
          refine .inr ((countP_set_le _ _ _ _).trans ?_)
          refine le_trans (Nat.add_le_add_left (ite_le_one le_rfl (Nat.zero_le 1)) _) ?_
          exact hfam
        · refine .inl ((countP_set_le _ _ _ _).trans ?_)
          rw [if_neg (by simp [hplace])]
          exact le_rfl
      · refine .inr ((countP_set_le _ _ _ _).trans ?_)
        refine le_trans (Nat.add_le_add_left (ite_le_one le_rfl (Nat.zero_le 1)) _) ?_
        exact hinstr
  | merged quality _ _ hmatching =>
    obtain ⟨hget, htakes⟩ := get?_of_matching hnd hmatching
    exact hs.write hget htakes.1 ⟨rfl, rfl, rfl, rfl, rfl, rfl⟩
  | extended quality hget hopen => exact hs.write hget hopen ⟨rfl, rfl, rfl, rfl, rfl, rfl⟩
  | rewritten hget hopen hrewr => exact hs.write hget hopen hrewr.samePlace
  | stopped endUtc =>
    refine hs.of_counts rfl rfl ?_ ?_ ?_
    · intro p hp
      obtain ⟨q, hq, rfl⟩ := mem_map.mp hp
      exact (samePlace_stopped endUtc q.2).instrument.trans (hs.instruments q hq)
    · intro family clock side scope
      refine .inl ?_
      rw [Manager.openCount, countP_map]
      refine countP_mono_left fun q _ hq => ?_
      simp [not_isOpen_stopped] at hq
    · refine .inl ?_
      rw [Manager.openCount, countP_map]
      refine countP_mono_left fun q _ hq => ?_
      simp [not_isOpen_stopped] at hq

theorem capped_create {familyCap instrumentCap : Nat}
    (hs : Manager.create familyCap instrumentCap = .ok s) : Capped s := by
  obtain ⟨-, -, hs⟩ := bind_ok.mp hs
  cases hs
  exact ⟨nofun, fun _ _ _ _ => Nat.zero_le _, Nat.zero_le _⟩

/-- **Over every run the open windows are within the caps.** -/
theorem capped_after (hs : Capped s) (hnd : s.windows.keys.Nodup) (calls : List Call) :
    Capped (after (step P) calls s) := by
  have hrun : (Dict.keys (after (step P) calls s).windows).Nodup ∧
      Capped (after (step P) calls s) := by
    refine after_invariant (I := fun s => s.windows.keys.Nodup ∧ Capped s)
      (fun call s h => ends_left.mpr ?_) calls ⟨hnd, hs⟩
    exact ⟨nodup_moves (moves_step call s) h.1, h.2.moves h.1 (moves_step call s)⟩
  exact hrun.2

end OvcReplay.PatternDiscovery
