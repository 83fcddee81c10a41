import OvcReplay.PatternDiscovery.WindowSteps
import OvcReplay.Logs.Calls

/-! # Whether terminal windows are final

No method of the manager writes a record that is terminal. A trigger does not look for one: the id
of the window it is stored as is a hash of what it brings, so a trigger that is delivered again
after its window was closed opens the window anew, under the same id. That is the only way in which
a terminal record is replaced. -/

namespace OvcReplay.PatternDiscovery

open List Python Raising Logs

variable {P : Platform} {s s' : Manager}

/-- What is stored with a terminal status is stored as it was. -/
def Keeps (s s' : Manager) : Prop :=
  ∀ windowId w, s.windows.get? windowId = some w → w.IsTerminal →
    (s'.windows.get? windowId).map RuntimeWindow.publicRecord = some w.publicRecord

theorem Keeps.refl (s : Manager) : Keeps s s := by
  intro windowId w hget _
  rw [hget, Option.map_some]

theorem Keeps.trans {s'' : Manager} (h : Keeps s s') (h' : Keeps s' s'') : Keeps s s'' := by
  intro windowId w hget hterm
  obtain ⟨w', hget', heq⟩ := Option.map_eq_some_iff.mp (h windowId w hget hterm)
  rw [← heq]
  refine h' windowId w' hget' ?_
  rw [RuntimeWindow.IsTerminal, heq]
  exact hterm

variable {windowId : PyStr}

/-- A write keeps the terminal records, if it meets none or repeats it. -/
theorem keeps_write {w' : RuntimeWindow}
    (h : ∀ w, s.windows.get? windowId = some w → w.IsTerminal → w'.publicRecord = w.publicRecord) :
    Keeps s (s.write windowId w') := by
  intro id w hget hterm
  rw [Manager.write, Dict.get?_set]
  by_cases hid : windowId = id
  · subst hid
    rw [if_pos rfl, Option.map_some, h w hget hterm]
  · rw [if_neg hid, hget, Option.map_some]

/-- A write over an open window keeps the terminal records. -/
theorem keeps_write_of_open {w w' : RuntimeWindow} (hget : s.windows.get? windowId = some w)
    (hopen : w.IsOpen) :
    Keeps s (s.write windowId w') := by
  refine keeps_write fun w₀ hw₀ hterm => ?_
  rw [hget, Option.some.injEq] at hw₀
  subst hw₀
  exact absurd hterm (isOpen_iff.mp hopen)

/-- The window that a trigger is merged into is stored and takes it. -/
theorem get?_of_matching (hs : s.windows.keys.Nodup) {t : Trigger} {w : RuntimeWindow}
    (h : s.matching t = some (windowId, w)) :
    s.windows.get? windowId = some w ∧ w.Takes t.baseDedupKey t.closureProfile :=
  ⟨Dict.get?_of_mem hs (mem_of_find?_eq_some h), by simpa using List.find?_some h⟩

/-- **Ids stay distinct.** -/
theorem nodup_moves {call : Call} (h : Moves P s call s') (hs : s.windows.keys.Nodup) :
    s'.windows.keys.Nodup := by
  cases h with
  | kept => exact hs
  | stored | merged | extended | rewritten => exact Dict.nodup_keys_set hs _ _
  | stopped endUtc =>
    show (Dict.keys (s.windows.map _)).Nodup
    rw [Dict.keys, map_map]
    exact hs

variable (P) in
/-- **A trigger is stored over a terminal record**: it is not merged, and what it is stored as has
the id of a window that is terminal and another record. -/
def Reopens (s : Manager) : Call → Prop
  | .openFromTrigger record event family epoch control =>
    s.sourceBindingActive = true ∧ ∃ t w w₀,
      readTrigger P record event family epoch control = .ok t ∧ s.matching t = none ∧
      s.admitted P t = .ok w ∧ s.windows.get? w.publicRecord.windowId = some w₀ ∧
      w₀.IsTerminal ∧ w.publicRecord ≠ w₀.publicRecord
  | _ => False

/-- **Every other call keeps the terminal records.** -/
theorem keeps_moves {call : Call} (h : Moves P s call s') (hs : s.windows.keys.Nodup)
    (hcall : ¬ Reopens P s call) : Keeps s s' := by
  cases h with
  | kept => exact Keeps.refl s
  | stored hact hread hnone hadm =>
    refine keeps_write fun w₀ hget hterm => ?_
    by_contra hne
    exact hcall ⟨hact, _, _, w₀, hread, hnone, hadm, hget, hterm, hne⟩
  | merged quality hact hread hmatching =>
    obtain ⟨hget, htakes⟩ := get?_of_matching hs hmatching
    exact keeps_write_of_open hget htakes.1
  | extended quality hget hopen => exact keeps_write_of_open hget hopen
  | rewritten hget hopen => exact keeps_write_of_open hget hopen
  | stopped endUtc =>
    intro windowId w hget hterm
    rw [Dict.get?_map, hget, Option.map_some, Option.map_some, RuntimeWindow.stopped,
      if_neg fun hopen => isOpen_iff.mp hopen hterm]

/-- **Such a trigger replaces a terminal record.** -/
theorem not_keeps_of_reopens {call : Call} (h : Reopens P s call) :
    ¬ Keeps s (left (step P call s)) := by
  cases call with
  | openFromTrigger record event family epoch control =>
    obtain ⟨hact, t, w, w₀, hread, hnone, hadm, hget, hterm, hne⟩ := h
    have hstep : left (step P (.openFromTrigger record event family epoch control) s) =
        s.write w.publicRecord.windowId w := by
      have hends : Always (step P (.openFromTrigger record event family epoch control))
          (fun s' => s' = s.write w.publicRecord.windowId w) s := by
        refine always_map ?_
        simp only [openFromTrigger, Always, ends_bind, ends_get, ends_require, hact, hread,
          ends_lift_ok, hnone, hadm, ends_put, not_true_eq_false, forall_const,
          IsEmpty.forall_iff, and_true]
      exact ends_left.mp hends
    rw [hstep]
    intro hkeeps
    have hsame := hkeeps _ w₀ hget hterm
    rw [Manager.write, Dict.get?_set_self, Option.map_some, Option.some.injEq] at hsame
    exact hne hsame
  | _ => exact h.elim

variable (P) in
/-- **Over a run, terminal windows are final**: from any of its states to any later one. -/
def FinalOver (s : Manager) (calls : List Call) : Prop :=
  ∀ before middle later, before ++ (middle ++ later) = calls →
    Keeps (after (step P) before s) (after (step P) (before ++ middle) s)

theorem nodup_after (hs : s.windows.keys.Nodup) (calls : List Call) :
    (Dict.keys (after (step P) calls s).windows).Nodup :=
  after_invariant (fun call s hs => ends_left.mpr (nodup_moves (moves_step call s) hs)) calls hs

variable (P) in
/-- No call of the run stores a trigger over a terminal record. -/
abbrev NeverReopens (s : Manager) (calls : List Call) : Prop :=
  Guarded (fun s call => left (step P call s)) (fun s call => ¬ Reopens P s call) s calls

theorem keeps_after (hs : s.windows.keys.Nodup) {calls : List Call}
    (h : NeverReopens P s calls) : Keeps s (after (step P) calls s) := by
  have hrun : (Dict.keys (after (step P) calls s).windows).Nodup ∧
      Keeps s (after (step P) calls s) := by
    refine Guarded.inv (I := fun s' => s'.windows.keys.Nodup ∧ Keeps s s') ?_ h
      ⟨hs, Keeps.refl s⟩
    rintro s' call hcall ⟨hnd, hkeeps⟩
    exact ⟨nodup_moves (moves_step call s') hnd,
      hkeeps.trans (keeps_moves (moves_step call s') hnd hcall)⟩
  exact hrun.2

theorem nodup_create {familyCap instrumentCap : Nat}
    (hs : Manager.create familyCap instrumentCap = .ok s) : s.windows.keys.Nodup := by
  obtain ⟨-, -, hs⟩ := bind_ok.mp hs
  cases hs
  exact nodup_nil

/-- **Terminal windows are final over exactly the runs in which no trigger is stored over a terminal
record.** -/
theorem terminal_final_iff {familyCap instrumentCap : Nat}
    (hs : Manager.create familyCap instrumentCap = .ok s) (calls : List Call) :
    FinalOver P s calls ↔ NeverReopens P s calls := by
  have hnd := nodup_create hs
  constructor
  · intro hfinal
    refine guarded_iff.mpr fun before call later hcalls hreopens => ?_
    refine not_keeps_of_reopens hreopens ?_
    have hkeeps := hfinal before [call] later hcalls
    rwa [after_append, after_cons, after_nil] at hkeeps
  · rintro hnever before middle later rfl
    rw [after_append]
    have hmiddle := (guarded_append.mp (guarded_append.mp hnever).2).1
    exact keeps_after (nodup_after hnd before) hmiddle

namespace Reference

/-- A snapshot whose five axes are fine. -/
def snapshot (c2StateId firstValidTime : PyStr) : C2Snapshot where
  c2StateId
  c2ReleaseId := py "R1"
  c2ManifestId := py "M1"
  firstValidTime
  clock := py "15M"
  side := py "BID"
  evaluationScopeId := py "S1"
  parameterPackId := py "PP1"
  axes := axisNames.map fun axis => (axis, .dict [(.str (py "status"), .str (py "OK"))])
  relationSetId := py "RS1"
  levelIds := []
  containerIds := []
  parentContainerId := py "C1"
  boundaryOrRelationId := py "RS1"
  authorityState := py "FIXTURE"
  selectorId := py "SEL1"
  gapBefore := false

/-- A trigger event of a closure profile. -/
def event (triggerEventId firstValidAt closureProfileId : PyStr) : Record :=
  [(py "trigger_event_id", .str triggerEventId), (py "first_valid_at", .str firstValidAt),
    (py "closure_profile_id", .str closureProfileId),
    (py "operation_mode", .str (py "LIVE_PROSPECTIVE"))]

/-- The delivery of a trigger with the snapshot of its time. -/
def delivery (triggerEventId c2StateId time closureProfileId : PyStr) : Call :=
  .openFromTrigger (.snapshot (snapshot c2StateId time))
    (event triggerEventId time closureProfileId) (py "BOUNDARY") none (py "NONE")

/-- The time of the trigger. -/
def noon : PyStr := py "2026-01-05T12:00:00Z"

/-- A new manager with the default caps. -/
def manager : Manager := ⟨1, 20, [], true⟩

/-- The trigger that is delivered. -/
def trigger : Call := delivery (py "T1") (py "C2S-1") noon (py "CP")

/-- The id of the window that it opens. -/
def openedWindowId : PyStr :=
  ((Dict.keys (after (step .reference) [trigger] manager).windows).head?).getD []

/-- The window is closed. -/
def closing : Call := .close openedWindowId noon (py "DONE")

theorem not_reopens_trigger : ¬ Reopens .reference manager trigger := by
  rintro ⟨-, t, w, w₀, -, -, -, hget, -⟩
  cases hget

/-- The statuses of the window before and after the trigger is delivered again. -/
theorem statuses : ((Dict.get? (after (step .reference) [trigger, closing] manager).windows
        openedWindowId).map fun w => w.publicRecord.status) = some .readyForReview ∧
      ((Dict.get? (after (step .reference) [trigger, closing, trigger] manager).windows
        openedWindowId).map fun w => w.publicRecord.status) = some .opened := by
  decide +kernel

end Reference

open Reference in
/-- A closed window is final while nothing is delivered again. -/
theorem terminal_final_of_close : FinalOver .reference manager [trigger, closing] :=
  (terminal_final_iff (show Manager.create 1 20 = .ok manager from rfl) _).mpr
    ⟨not_reopens_trigger, id, trivial⟩

open Reference in
/-- **A trigger that is delivered again opens the window that it had opened before.** -/
theorem terminal_window_reopened : Manager.create 1 20 = .ok manager ∧
      ¬ FinalOver .reference manager [trigger, closing, trigger] := by
  refine ⟨rfl, fun hfinal => ?_⟩
  obtain ⟨hbef, hafter⟩ := statuses
  obtain ⟨w, hget, hstat⟩ := Option.map_eq_some_iff.mp hbef
  have hkeeps := hfinal [trigger, closing] [trigger] [] rfl openedWindowId w hget
    (by rw [RuntimeWindow.IsTerminal, hstat]; decide)
  obtain ⟨w', hget', hsame⟩ := Option.map_eq_some_iff.mp hkeeps
  rw [cons_append, cons_append, nil_append] at hget'
  rw [hget', Option.map_some, hsame, hstat] at hafter
  cases hafter

end OvcReplay.PatternDiscovery
