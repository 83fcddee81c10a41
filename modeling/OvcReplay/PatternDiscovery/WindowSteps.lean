import OvcReplay.PatternDiscovery.Windows

/-! # What a call of the window manager can do

Every call of the manager, whether it returns or raises, leaves the state as it was, stores the
window of a trigger, merges a trigger into an open window, rewrites the record of an open window or
stops all of them. -/

namespace OvcReplay.PatternDiscovery

open Python Raising

variable {P : Platform}

/-! ## Records -/

/-- A status is an open one or a terminal one. -/
theorem isOpen_iff {w : RuntimeWindow} : w.IsOpen ↔ ¬ w.IsTerminal := by
  unfold RuntimeWindow.IsOpen RuntimeWindow.IsTerminal
  cases w.publicRecord.status <;> decide

/-- **A rewriting of an open window**: of its status, or of its status and its end. -/
inductive Rewrites (w : RuntimeWindow) : RuntimeWindow → Prop
  | status (status : Status) (h : status ∈ openStatuses) : Rewrites w (w.withStatus status)
  | ended (status : Status) (endUtc reason : PyStr) (h : status ∈ terminalStatuses) :
      Rewrites w (w.ended status endUtc reason)

variable (P) in
/-- **The effect of a call.** -/
inductive Moves (s : Manager) : Call → Manager → Prop
  /-- Nothing is written. -/
  | kept (call : Call) : Moves s call s
  /-- A trigger finds no window to be merged into. -/
  | stored {record : SnapshotRecord} {event : Record} {family : PyStr} {epoch : Option PyStr}
      {control : PyStr} {t : Trigger} {w : RuntimeWindow} (hactive : s.sourceBindingActive = true)
      (hread : readTrigger P record event family epoch control = .ok t)
      (hnone : s.matching t = none) (hadmitted : s.admitted P t = .ok w) :
      Moves s (.openFromTrigger record event family epoch control)
        (s.write w.publicRecord.windowId w)
  /-- A trigger is merged; the quality is the old one if the new one cannot be read. -/
  | merged {record : SnapshotRecord} {event : Record} {family : PyStr} {epoch : Option PyStr}
      {control : PyStr} {t : Trigger} {windowId : PyStr} {w : RuntimeWindow} (quality : PyStr)
      (hactive : s.sourceBindingActive = true)
      (hread : readTrigger P record event family epoch control = .ok t)
      (hmatching : s.matching t = some (windowId, w)) :
      Moves s (.openFromTrigger record event family epoch control)
        (s.write windowId ((w.merged t).withQuality quality))
  /-- A snapshot is added to a window. -/
  | extended {windowId : PyStr} {record : SnapshotRecord} {w : RuntimeWindow}
      {snapshot : C2Snapshot} {time last : Int} (quality : PyStr)
      (hget : s.windows.get? windowId = some w) (hopen : w.IsOpen)
      (hread : record.read P = .ok snapshot)
      (hbinding : snapshot.bindingKey = w.lastSnapshot.bindingKey)
      (htime : parseUtc P snapshot.firstValidTime = .ok time)
      (hlast : parseUtc P w.lastSnapshot.firstValidTime = .ok last) (hlater : last < time)
      (hnogap : ¬ snapshot.gapBefore = true)
      (hauthority : snapshot.authorityState ≠ py "QUARANTINED")
      (hquality : snapshot.qualityState P = .ok quality) (hgood : quality ≠ py "QUARANTINED")
      (hparent : snapshot.parentContainerId = w.parentContainerId) :
      Moves s (.accumulate windowId record) (s.write windowId (w.extended snapshot quality))
  /-- An open window is rewritten. -/
  | rewritten {call : Call} {windowId : PyStr} {w w' : RuntimeWindow}
      (hget : s.windows.get? windowId = some w) (hopen : w.IsOpen)
      (hrewrites : Rewrites w w') : Moves s call (s.write windowId w')
  /-- The open windows are stopped. -/
  | stopped (endUtc : PyStr) :
      Moves s (.stopForSelectorChange endUtc) { s with
        sourceBindingActive := false
        windows := s.windows.map fun p => (p.1, p.2.stopped endUtc) }

/-! ## Methods -/

section Methods

variable {s : Manager} {R : PublicRecord → Manager → Prop} {E : WindowError → Manager → Prop}

variable {w : RuntimeWindow} {windowId : PyStr}

@[simp] theorem ends_put : ends (put windowId w) R E s ↔ R w.publicRecord (s.write windowId w) :=
  Iff.rfl

theorem require_ok : s.require windowId = .ok w ↔ s.windows.get? windowId = some w := by
  unfold Manager.require
  cases s.windows.get? windowId <;> simp

theorem always_put {Q : Manager → Prop} (h : Q (s.write windowId w)) :
    Always (put windowId w) Q s := by
  simpa only [Always, ends_put] using h

end Methods

theorem moves_close (s : Manager) (call : Call) (windowId endUtc reason : PyStr) :
    Always (close P windowId endUtc reason) (Moves P s call) s := by
  unfold close
  refine always_get_bind (always_lift_bind (.kept call) fun w hw => ?_)
  refine always_require_bind (.kept call) fun hopen => ?_
  refine always_lift_bind (.kept call) fun _ _ => always_lift_bind (.kept call) fun _ _ => ?_
  refine always_require_bind (.kept call) fun _ => always_put ?_
  exact .rewritten (require_ok.mp hw) hopen (.ended _ _ _ (by decide))

theorem moves_invalidate (s : Manager) (call : Call) (windowId endUtc reason : PyStr) :
    Always (invalidate P windowId endUtc reason) (Moves P s call) s := by
  unfold invalidate
  refine always_get_bind (always_lift_bind (.kept call) fun w hw => ?_)
  refine always_require_bind (.kept call) fun hlive => ?_
  refine always_lift_bind (.kept call) fun _ _ => always_put ?_
  exact .rewritten (require_ok.mp hw) (isOpen_iff.mpr hlive) (.ended _ _ _ (by decide))

theorem moves_accumulate (s : Manager) (windowId : PyStr) (record : SnapshotRecord) :
    Always (accumulate P windowId record) (Moves P s (.accumulate windowId record)) s := by
  have hkept : Moves P s (.accumulate windowId record) s := .kept _
  unfold accumulate
  refine always_get_bind (always_lift_bind hkept fun w hw => ?_)
  refine always_require_bind hkept fun hopen => ?_
  refine always_lift_bind hkept fun snapshot hread => ?_
  refine always_require_bind hkept fun hbinding => ?_
  refine always_lift_bind hkept fun time htime => always_lift_bind hkept fun last hlast => ?_
  refine always_require_bind hkept fun hlater => ?_
  by_cases hgap : snapshot.gapBefore = true
  · rw [if_pos hgap]
    exact moves_close ..
  rw [if_neg hgap]
  by_cases hauthority : snapshot.authorityState = py "QUARANTINED"
  · rw [if_pos hauthority]
    exact moves_invalidate ..
  rw [if_neg hauthority]
  refine always_lift_bind hkept fun quality hquality => ?_
  by_cases hbad : quality = py "QUARANTINED"
  · rw [if_pos hbad]
    exact moves_invalidate ..
  rw [if_neg hbad]
  by_cases hparent : snapshot.parentContainerId ≠ w.parentContainerId
  · rw [if_pos hparent]
    exact moves_close ..
  · rw [if_neg hparent]
    exact always_put (.extended quality (require_ok.mp hw) hopen hread hbinding htime hlast
      hlater hgap hauthority hquality hbad (not_not.mp hparent))

theorem write_write (s : Manager) (windowId : PyStr) (w w' : RuntimeWindow) :
    (s.write windowId w).write windowId w' = s.write windowId w' := by
  simp only [Manager.write, Dict.set_set]

theorem moves_openFromTrigger (s : Manager) (record : SnapshotRecord) (event : Record)
    (family : PyStr) (epoch : Option PyStr) (control : PyStr) :
    Always (openFromTrigger P record event family epoch control)
      (Moves P s (.openFromTrigger record event family epoch control)) s := by
  have hkept : Moves P s (.openFromTrigger record event family epoch control) s := .kept _
  unfold openFromTrigger
  refine always_get_bind (always_require_bind hkept fun hactive => ?_)
  refine always_lift_bind hkept fun t hread => ?_
  cases hmatching : s.matching t with
  | none =>
    refine always_lift_bind hkept fun w hadmitted => always_put ?_
    exact .stored hactive hread hmatching hadmitted
  | some p =>
    obtain ⟨windowId, w⟩ := p
    simp only [Always, ends_bind, ends_put, ends_lift]
    constructor
    · intro quality _
      rw [write_write]
      exact .merged quality hactive hread hmatching
    · intro _ _
      -- the old quality is the quality the merged window has
      exact .merged w.publicRecord.qualityState hactive hread hmatching

/-- **Every call** has one of the effects, whether it returns or raises. -/
theorem moves_step (call : Call) (s : Manager) : Moves P s call (left (step P call s)) := by
  rw [← ends_left (I := Moves P s call)]
  cases call with
  | openFromTrigger record event family epoch control =>
    exact always_map (moves_openFromTrigger ..)
  | accumulate windowId record => exact always_map (moves_accumulate ..)
  | markPendingInput windowId =>
    refine always_map ?_
    unfold markPendingInput
    refine always_get_bind (always_lift_bind (.kept _) fun w hw => ?_)
    refine always_require_bind (.kept _) fun hstat => always_put ?_
    have hopen : w.IsOpen := by
      unfold RuntimeWindow.IsOpen
      rcases hstat with h | h <;> rw [h] <;> decide
    exact .rewritten (require_ok.mp hw) hopen (.status _ (by decide))
  | resumeAfterValidatedInput windowId =>
    refine always_map ?_
    unfold resumeAfterValidatedInput
    refine always_get_bind (always_lift_bind (.kept _) fun w hw => ?_)
    refine always_require_bind (.kept _) fun hstat => always_put ?_
    have hopen : w.IsOpen := by
      unfold RuntimeWindow.IsOpen
      rw [hstat]
      decide
    exact .rewritten (require_ok.mp hw) hopen (.status _ (by decide))
  | close windowId endUtc reason => exact always_map (moves_close ..)
  | invalidate windowId endUtc reason => exact always_map (moves_invalidate ..)
  | stopForSelectorChange endUtc =>
    change Always (stopForSelectorChange P endUtc) _ s
    unfold stopForSelectorChange
    refine always_lift_bind (.kept _) fun _ _ => always_get_bind ?_
    simp only [Always, ends_bind, ends_modify, ends_pure]
    exact .stopped endUtc

end OvcReplay.PatternDiscovery
