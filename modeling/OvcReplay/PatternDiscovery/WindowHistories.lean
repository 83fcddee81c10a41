import OvcReplay.PatternDiscovery.WindowCaps

/-! # The histories of windows

What a window was opened from and which snapshots were merged into it since. The manager keeps less
than that: an accumulated snapshot is checked against the last accumulated one, a merged trigger is
not checked at all, and a window that was opened under a suffixed key is never found again. What the
histories must satisfy beyond what the manager checks is stated as a condition on the calls. -/

namespace OvcReplay.PatternDiscovery

open Python Raising Logs

variable {P : Platform} {s s' : Manager}

/-- What a window was opened from, and the snapshots that were added to it, in their order. -/
structure History where
  baseKey : PyStr
  opening : C2Snapshot
  added : List C2Snapshot

/-- A snapshot that was merged before is not added again. -/
def History.add (h : History) (snapshot : C2Snapshot) : History :=
  if snapshot ∈ h.opening :: h.added then h else { h with added := h.added ++ [snapshot] }

/-- The histories of the windows that were opened, by their ids. -/
abbrev Histories : Type := Dict PyStr History

/-- A snapshot is merged into a window. -/
def Histories.add (g : Histories) (windowId : PyStr) (snapshot : C2Snapshot) : Histories :=
  match g.get? windowId with
  | some h => g.set windowId (h.add snapshot)
  | none => g

section

variable (P)

/-- The histories after a call. -/
def noted (s : Manager) (g : Histories) : Call → Histories
  | .openFromTrigger record event family epoch control =>
    if s.sourceBindingActive = true then
      match readTrigger P record event family epoch control with
      | .error _ => g
      | .ok t =>
        match s.matching t with
        | some (windowId, _) => g.add windowId t.snapshot
        | none =>
          match s.admitted P t with
          | .error _ => g
          | .ok w =>
            if w.IsOpen then
              g.set w.publicRecord.windowId ⟨t.baseDedupKey, t.snapshot, []⟩
            else g
    else g
  | .accumulate windowId record =>
    match record.read P, accumulate P windowId record s with
    | .ok snapshot, .ok shown _ =>
      if shown.status = .accumulating then g.add windowId snapshot else g
    | _, _ => g
  | _ => g

/-- A call, with the histories. -/
def track (state : Manager × Histories) (call : Call) : Manager × Histories :=
  (left (step P call state.1), noted P state.1 state.2 call)

/-- The first-valid time of `a` is before that of `b`. -/
def Before (a b : C2Snapshot) : Prop :=
  ∃ x y, parseUtc P a.firstValidTime = .ok x ∧ parseUtc P b.firstValidTime = .ok y ∧ x < y

/-- The snapshot was merged before, or it has the source binding of the opening snapshot and is
later than all that were added. -/
def Fits (h : History) (snapshot : C2Snapshot) : Prop :=
  snapshot ∈ h.opening :: h.added ∨
    (snapshot.bindingKey = h.opening.bindingKey ∧ ∀ x ∈ h.added, Before P x snapshot)

/-- The checks of `accumulate` let the snapshot into the window. -/
def Extends (s : Manager) (windowId : PyStr) (record : SnapshotRecord) (snapshot : C2Snapshot) :
    Prop :=
  ∃ w time last quality, s.windows.get? windowId = some w ∧ w.IsOpen ∧
    record.read P = .ok snapshot ∧ snapshot.bindingKey = w.lastSnapshot.bindingKey ∧
    parseUtc P snapshot.firstValidTime = .ok time ∧
    parseUtc P w.lastSnapshot.firstValidTime = .ok last ∧ last < time ∧
    snapshot.gapBefore = false ∧ snapshot.authorityState ≠ py "QUARANTINED" ∧
    snapshot.qualityState P = .ok quality ∧ quality ≠ py "QUARANTINED" ∧
    snapshot.parentContainerId = w.parentContainerId

/-- **What the manager does not check**: a trigger that opens a window finds no other open window of
its base key and closure profile, and a snapshot that is added to a window fits its history. -/
def Orderly (state : Manager × Histories) : Call → Prop
  | .openFromTrigger record event family epoch control =>
    state.1.sourceBindingActive = true →
      ∀ t, readTrigger P record event family epoch control = .ok t →
        (∀ windowId w h, state.1.matching t = some (windowId, w) →
          state.2.get? windowId = some h → Fits P h t.snapshot) ∧
        (state.1.matching t = none → ∀ opened, state.1.admitted P t = .ok opened →
          opened.IsOpen → ∀ windowId w h, state.1.windows.get? windowId = some w →
            w.IsOpen → state.2.get? windowId = some h → h.baseKey = t.baseDedupKey →
            w.closureProfileId = t.closureProfile → windowId = opened.publicRecord.windowId)
  | .accumulate windowId record =>
    ∀ snapshot h, Extends P state.1 windowId record snapshot →
      state.2.get? windowId = some h → Fits P h snapshot
  | _ => True

/-! ## What a call does to the histories -/

/-- **The effect of a call, on the histories as well.** -/
inductive Tracked (s : Manager) (g : Histories) : Call → Manager → Histories → Prop
  | kept (call : Call) : Tracked s g call s g
  | suppressed {call : Call} {w : RuntimeWindow} (windowId : PyStr) (hclosed : ¬ w.IsOpen) :
      Tracked s g call (s.write windowId w) g
  | opened {record : SnapshotRecord} {event : Record} {family : PyStr} {epoch : Option PyStr}
      {control : PyStr} {t : Trigger} {w : RuntimeWindow} (hactive : s.sourceBindingActive = true)
      (hread : readTrigger P record event family epoch control = .ok t)
      (hnone : s.matching t = none) (hadmitted : s.admitted P t = .ok w) (hopens : Opens t w) :
      Tracked s g (.openFromTrigger record event family epoch control)
        (s.write w.publicRecord.windowId w)
        (g.set w.publicRecord.windowId ⟨t.baseDedupKey, t.snapshot, []⟩)
  | merged {record : SnapshotRecord} {event : Record} {family : PyStr} {epoch : Option PyStr}
      {control : PyStr} {t : Trigger} {windowId : PyStr} {w : RuntimeWindow} (quality : PyStr)
      (hactive : s.sourceBindingActive = true)
      (hread : readTrigger P record event family epoch control = .ok t)
      (hmatching : s.matching t = some (windowId, w)) :
      Tracked s g (.openFromTrigger record event family epoch control)
        (s.write windowId ((w.merged t).withQuality quality)) (g.add windowId t.snapshot)
  | extended {windowId : PyStr} {record : SnapshotRecord} {w : RuntimeWindow}
      {snapshot : C2Snapshot} (quality : PyStr) (hget : s.windows.get? windowId = some w)
      (hopen : w.IsOpen) (hbinding : snapshot.bindingKey = w.lastSnapshot.bindingKey)
      (hextends : Extends P s windowId record snapshot) :
      Tracked s g (.accumulate windowId record) (s.write windowId (w.extended snapshot quality))
        (g.add windowId snapshot)
  | rewritten {call : Call} {windowId : PyStr} {w w' : RuntimeWindow}
      (hget : s.windows.get? windowId = some w) (hopen : w.IsOpen)
      (hrewrites : Rewrites w w') : Tracked s g call (s.write windowId w') g
  | stopped (endUtc : PyStr) :
      Tracked s g (.stopForSelectorChange endUtc) { s with
        sourceBindingActive := false
        windows := s.windows.map fun p => (p.1, p.2.stopped endUtc) } g

end

/-- A call that returns the record of a method leaves the state that the method leaves. -/
theorem left_singleton (m : Method PublicRecord) (s : Manager) :
    left ((do return [← m] : Method (List PublicRecord)) s) = left (m s) :=
  left_eq_of_always (always_map (ends_left.mpr rfl))

/-- The window is ended, and its record shows it. -/
def Ends (s : Manager) (windowId : PyStr) (shown : PublicRecord) (s' : Manager) : Prop :=
  shown.status ≠ .accumulating ∧ ∃ w w', s.windows.get? windowId = some w ∧ w.IsOpen ∧
    Rewrites w w' ∧ s' = s.write windowId w'

theorem ends_close (windowId endUtc reason : PyStr) :
    ends (close P windowId endUtc reason) (Ends s windowId) (fun _ s' => s' = s) s := by
  simp only [close, ends_bind, ends_get, ends_lift, ends_require, ends_put]
  refine ⟨fun w hw => ⟨fun hopen => ⟨fun _ _ => ⟨fun _ _ => ⟨fun _ => ?_, fun _ => trivial⟩,
    fun _ _ => trivial⟩, fun _ _ => trivial⟩, fun _ => trivial⟩, fun _ _ => trivial⟩
  exact ⟨by simp [RuntimeWindow.ended], w, _, require_ok.mp hw, hopen,
    .ended _ _ _ (by decide), rfl⟩

theorem ends_invalidate (windowId endUtc reason : PyStr) :
    ends (invalidate P windowId endUtc reason) (Ends s windowId) (fun _ s' => s' = s) s := by
  simp only [invalidate, ends_bind, ends_get, ends_lift, ends_require, ends_put]
  refine ⟨fun w hw => ⟨fun hlive => ⟨fun _ _ => ?_, fun _ _ => trivial⟩, fun _ => trivial⟩,
    fun _ _ => trivial⟩
  exact ⟨by simp [RuntimeWindow.ended], w, _, require_ok.mp hw, isOpen_iff.mpr hlive,
    .ended _ _ _ (by decide), rfl⟩

variable (P) in
/-- The snapshot is added to the window, and its record shows it. -/
def Adds (s : Manager) (windowId : PyStr) (record : SnapshotRecord) (shown : PublicRecord)
    (s' : Manager) : Prop :=
  shown.status = .accumulating ∧ ∃ w snapshot quality, s.windows.get? windowId = some w ∧
    w.IsOpen ∧ snapshot.bindingKey = w.lastSnapshot.bindingKey ∧ record.read P = .ok snapshot ∧
    Extends P s windowId record snapshot ∧ s' = s.write windowId (w.extended snapshot quality)

/-- **`accumulate` adds the snapshot, ends the window or raises.** -/
theorem ends_accumulate (windowId : PyStr) (record : SnapshotRecord) :
    ends (accumulate P windowId record)
      (fun shown s' => Adds P s windowId record shown s' ∨ Ends s windowId shown s')
      (fun _ s' => s' = s) s := by
  have hclose : ∀ endUtc reason, ends (close P windowId endUtc reason)
      (fun shown s' => Adds P s windowId record shown s' ∨ Ends s windowId shown s')
      (fun _ s' => s' = s) s :=
    fun endUtc reason => ends_mono (fun _ _ => .inr) (fun _ _ => id) (ends_close ..)
  have hinvalidate : ∀ endUtc reason, ends (invalidate P windowId endUtc reason)
      (fun shown s' => Adds P s windowId record shown s' ∨ Ends s windowId shown s')
      (fun _ s' => s' = s) s :=
    fun endUtc reason => ends_mono (fun _ _ => .inr) (fun _ _ => id) (ends_invalidate ..)
  simp only [accumulate, ends_bind, ends_get, ends_lift, ends_require, ends_ite, ends_put]
  refine ⟨fun w hw => ⟨fun hopen => ⟨fun snapshot hread => ⟨fun hbind => ⟨fun time htime =>
    ⟨fun last hlast => ⟨fun hlater => ⟨fun _ => hclose _ _, fun hgap => ⟨fun _ => hinvalidate _ _,
    fun hauth => ⟨fun quality hqual => ⟨fun _ => hinvalidate _ _, fun hgood =>
    ⟨fun _ => hclose _ _, fun hpar => .inl ?_⟩⟩, fun _ _ => trivial⟩⟩⟩, fun _ => trivial⟩,
    fun _ _ => trivial⟩, fun _ _ => trivial⟩, fun _ => trivial⟩, fun _ _ => trivial⟩,
    fun _ => trivial⟩, fun _ _ => trivial⟩
  have hget := require_ok.mp hw
  exact ⟨rfl, w, snapshot, quality, hget, hopen, hbind, hread,
    ⟨w, time, last, quality, hget, hopen, hread, hbind, htime, hlast, hlater,
      by simpa using hgap, hauth, hqual, hgood, not_not.mp hpar⟩, rfl⟩

theorem tracked_openFromTrigger (s : Manager) (g : Histories) (record : SnapshotRecord)
    (event : Record) (family : PyStr) (epoch : Option PyStr) (control : PyStr) :
    Tracked P s g (.openFromTrigger record event family epoch control)
      (left (openFromTrigger P record event family epoch control s))
      (noted P s g (.openFromTrigger record event family epoch control)) := by
  have hleft : ∀ s', Always (openFromTrigger P record event family epoch control)
      (fun s₁ => s₁ = s') s → left (openFromTrigger P record event family epoch control s) = s' :=
    fun _ => left_eq_of_always
  rw [noted]
  by_cases hact : s.sourceBindingActive = true
  swap
  · rw [if_neg hact, hleft s (by simp [openFromTrigger, Always, hact])]
    exact .kept _
  rw [if_pos hact]
  cases hread : readTrigger P record event family epoch control with
  | error e =>
    rw [hleft s (by simp [openFromTrigger, Always, hact, hread])]
    exact .kept _
  | ok t =>
    cases hmatching : s.matching t with
    | some p =>
      obtain ⟨windowId, w⟩ := p
      simp only [hmatching]
      cases hqual : t.snapshot.qualityState P with
      | error e =>
        rw [hleft (s.write windowId (w.merged t))
          (by simp [openFromTrigger, Always, hact, hread, hmatching, hqual])]
        -- the old quality is the quality the merged window has
        exact .merged w.publicRecord.qualityState hact hread hmatching
      | ok quality =>
        rw [hleft (s.write windowId ((w.merged t).withQuality quality)) (by
          simp [openFromTrigger, Always, hact, hread, hmatching, hqual, write_write])]
        exact .merged quality hact hread hmatching
    | none =>
      cases hadm : s.admitted P t with
      | error e =>
        rw [hleft s
          (by simp [openFromTrigger, Always, hact, hread, hmatching, hadm])]
        simp only [hmatching, hadm]
        exact .kept _
      | ok w =>
        rw [hleft (s.write w.publicRecord.windowId w)
          (by simp [openFromTrigger, Always, hact, hread, hmatching, hadm])]
        simp only [hmatching, hadm]
        rcases admitted_cases hadm with ⟨hclosed, -⟩ | ⟨hopens, -⟩
        · rw [if_neg hclosed]
          exact .suppressed _ hclosed
        · rw [if_pos hopens.isOpen]
          exact .opened hact hread hmatching hadm hopens

theorem tracked_accumulate (s : Manager) (g : Histories) (windowId : PyStr)
    (record : SnapshotRecord) :
    Tracked P s g (.accumulate windowId record) (left (accumulate P windowId record s))
      (noted P s g (.accumulate windowId record)) := by
  have hends := ends_accumulate (P := P) (s := s) windowId record
  unfold ends at hends
  rw [noted]
  cases hcall : accumulate P windowId record s with
  | error e s' =>
    rw [hcall] at hends
    obtain rfl := hends
    cases record.read P <;> exact .kept _
  | ok shown s' =>
    rw [hcall] at hends
    rcases hends with
      ⟨hstat, w, snapshot, quality, hget, hopen, hbind, hread, hext, rfl⟩ |
      ⟨hstat, w, w', hget, hopen, hrewr, rfl⟩
    · simp only [hread, if_pos hstat]
      exact .extended quality hget hopen hbind hext
    · cases record.read P with
      | error e => exact .rewritten hget hopen hrewr
      | ok snapshot =>
        simp only [if_neg hstat]
        exact .rewritten hget hopen hrewr

/-- **Every call** has one of the effects on the manager and the histories. -/
theorem tracked_step (s : Manager) (g : Histories) (call : Call) :
    Tracked P s g call (left (step P call s)) (noted P s g call) := by
  have hmoves := moves_step (P := P) call s
  cases call with
  | openFromTrigger record event family epoch control =>
    rw [step, left_singleton]
    exact tracked_openFromTrigger ..
  | accumulate windowId record =>
    rw [step, left_singleton]
    exact tracked_accumulate ..
  | stopForSelectorChange endUtc =>
    show Tracked P s g _ (left _) g
    generalize left (step P (.stopForSelectorChange endUtc) s) = s' at hmoves
    cases hmoves with
    | kept => exact .kept _
    | rewritten hget hopen hrewr => exact .rewritten hget hopen hrewr
    | stopped => exact .stopped endUtc
  | _ =>
    show Tracked P s g _ (left _) g
    generalize left (step P _ s) = s' at hmoves
    cases hmoves with
    | kept => exact .kept _
    | rewritten hget hopen hrewr => exact .rewritten hget hopen hrewr

end OvcReplay.PatternDiscovery
