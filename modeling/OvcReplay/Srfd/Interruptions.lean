import OvcReplay.Srfd.ResumableUnits

/-! # Durable runs that are interrupted

`wp10_durable_execution.py`: what a durable run of units reports when it is complete does not depend
on where earlier calls stopped or raised, nor on the artifacts that they left behind. -/

namespace OvcReplay.Srfd.Resilience

open List Python Json Raising

/-! ## The first units -/

section

variable {σ : Type} {f : PyStr → Except ResilienceError WorkUnitReceipt} {unitIds : List PyStr}
  {receipts : List WorkUnitReceipt} {directory directory' : Directory}

/-- Every checkpoint holds the receipts of the first units. -/
def Held (f : PyStr → Except ResilienceError WorkUnitReceipt) (unitIds : List PyStr)
    (directory : Directory) : Prop :=
  ∀ p ∈ directory, ∃ k, (unitIds.take k).mapM f = .ok p.2.unitReceipts

/-- A checkpoint of these receipts is all that is new. -/
def Adds (receipts : List WorkUnitReceipt) (directory directory' : Directory) : Prop :=
  ∀ p ∈ directory', p ∈ directory ∨ p.2.unitReceipts = receipts

theorem Held.adds {k : Nat} (h : Held f unitIds directory)
    (hreceipts : (unitIds.take k).mapM f = .ok receipts)
    (hadds : Adds receipts directory directory') : Held f unitIds directory' := by
  intro p hp
  rcases hadds p hp with hold | hnew
  · exact h p hold
  · exact ⟨k, by rw [hnew, hreceipts]⟩

/-- A run stands behind the first `k` units. -/
structure At (f : PyStr → Except ResilienceError WorkUnitReceipt) (unitIds : List PyStr) (k : Nat)
    (p : Progress) : Prop where
  completed : p.completed = unitIds.take k
  committed : (unitIds.take k).mapM f = .ok p.committed

variable {work : PyStr → Raising ResilienceError σ WorkUnitReceipt}
  {save : List WorkUnitReceipt → Raising ResilienceError σ RunCheckpointReceipt}
  {stopAfterNewUnits : Option Int} {dir : σ → Directory}

/-- **The loop works the units in their order**, and each checkpoint holds the first of them. -/
theorem workUnits_at
    (hwork : ∀ unitId ∈ unitIds, ∀ s, ends (work unitId)
      (fun r s' => f unitId = .ok r ∧ dir s' = dir s) (fun _ s' => dir s' = dir s) s)
    (hsave : ∀ receipts s, ends (save receipts) (fun _ s' => Adds receipts (dir s) (dir s'))
      (fun _ s' => Adds receipts (dir s) (dir s')) s)
    (hnodup : unitIds.Nodup) {pre rest : List PyStr} (hunits : unitIds = pre ++ rest) {k : Nat}
    (hk : pre.length ≤ k) {p : Progress} (hp : At f unitIds k p) {s : σ}
    (hs : Held f unitIds (dir s)) :
    ends (workUnits work save stopAfterNewUnits p rest)
      (fun q s' => (∃ k, At f unitIds k q) ∧ Held f unitIds (dir s'))
      (fun _ s' => Held f unitIds (dir s')) s := by
  induction rest generalizing pre k p s with
  | nil => exact ends_pure.mpr ⟨⟨k, hp⟩, hs⟩
  | cons unitId rest ih =>
    have hnext : unitIds = pre ++ [unitId] ++ rest := by simp [hunits]
    rw [workUnits]
    have hfresh : unitId ∉ pre := fun hmem =>
      (nodup_append.mp (hunits ▸ hnodup)).2.2 _ hmem _ mem_cons_self rfl
    have hiff : unitId ∈ p.completed ↔ pre.length < k := by
      rw [hp.completed, mem_take_iff_idxOf_lt (by simp [hunits]), hunits,
        idxOf_append_of_notMem hfresh, idxOf_cons_self, Nat.add_zero]
    by_cases hheld : unitId ∈ p.completed
    · rw [if_pos hheld]
      exact ih hnext (by rw [length_append]; exact hiff.mp hheld) hp hs
    · -- the units before this one are all that is completed
      obtain rfl : k = pre.length := le_antisymm (not_lt.mp (mt hiff.mpr hheld)) hk
      have htake : unitIds.take pre.length = pre := by rw [hunits, take_left']; rfl
      have htake' : unitIds.take (pre.length + 1) = pre ++ [unitId] := by
        rw [hnext, take_left' (by simp)]
      rw [if_neg hheld, ends_bind]
      refine ends_mono (fun receipt s' hreceipt => ?_)
        (fun _ s' (hdir : dir s' = dir s) => by rwa [hdir]) (hwork unitId (by simp [hunits]) s)
      have hcommitted :
          (unitIds.take (pre.length + 1)).mapM f = .ok (p.committed ++ [receipt]) := by
        rw [htake']
        exact mapM_append_ok (htake ▸ hp.committed)
          (mapM_cons_ok.mpr ⟨_, _, hreceipt.1, rfl, rfl⟩)
      have hadded : ∀ {s''}, Adds (p.committed ++ [receipt]) (dir s') (dir s'') →
          Held f unitIds (dir s'') := fun hadds => (hreceipt.2 ▸ hs).adds hcommitted hadds
      rw [ends_bind]
      refine ends_mono (fun checkpoint s'' hadds => ?_) (fun _ s'' hadds => hadded hadds)
        (hsave (p.committed ++ [receipt]) s')
      have hat : At f unitIds (pre.length + 1) ⟨p.committed ++ [receipt],
          p.completed ++ [unitId], some checkpoint, p.newCount + 1⟩ :=
        ⟨by rw [htake', hp.completed, htake], hcommitted⟩
      dsimp only
      split_ifs
      · exact ends_pure.mpr ⟨⟨_, hat⟩, hadded hadds⟩
      · exact ih hnext (by simp) hat (hadded hadds)

end

/-! ## Checkpoints -/

section

variable {P : Platform} {start : RunStartReceipt} {binding : RunBinding} {directory : Directory}

/-- A commit adds a checkpoint of its receipts, or nothing. -/
theorem commit_adds (receipts : List WorkUnitReceipt) (directory : Directory) :
    ends (commit P start binding receipts) (fun _ d => Adds receipts directory d)
      (fun _ d => Adds receipts directory d) directory := by
  have hsame : Adds receipts directory directory := fun _ hp => .inl hp
  have hset : ∀ (name : PyStr) (c : RunCheckpointReceipt), c.unitReceipts = receipts →
      Adds receipts directory (Dict.set directory name c) := by
    intro name c hc p hp
    rcases Dict.mem_set hp with rfl | hold
    · exact .inr hc
    · exact .inl hold
  simp only [commit, ends_bind, ends_lift, ends_require, ends_get, ends_modify, ends_pure, hsame,
    hset, implies_true, and_true]

theorem mem_of_latest {c : RunCheckpointReceipt}
    (h : latest P start binding directory = .ok (some c)) : ∃ p ∈ directory, p.2 = c := by
  simp only [latest, bind_ok, pure_ok] at h
  obtain ⟨_, -, _, -, receipts, hloaded, _, -, hlast⟩ := h
  obtain ⟨p, hp, hload⟩ := mem_of_mapM_right hloaded (mem_of_getLast? hlast)
  refine ⟨p, mem_sortedBy.mp hp, ?_⟩
  simp only [loadPath, bind_ok, pure_ok] at hload
  obtain ⟨_, -, _, -, _, -, _, -, _, -, hsame⟩ := hload
  exact hsame

end

/-! ## The durable run -/

section

variable (P : Platform) (H : DurableHost) (floatOf : FloatOfText) (start : RunStartReceipt)
  (binding : RunBinding) (worker : Worker)

/-- The receipt that a unit gets, whatever is stored. -/
def durableReceiptOf (unitId : PyStr) : Except ResilienceError WorkUnitReceipt := do
  let output ← outputOf worker unitId
  let hash ← boundHash P start binding
  let outputHash ← (logicalSha256 P output).mapError .other
  let data ← artifactData P start hash unitId outputHash output
  return ⟨unitId, outputHash, some (P.sha256 data).text⟩

/-- A call that finds these artifacts and the checkpoints of the calls before it. -/
def restart (unitIds : List PyStr) (call : Artifacts × Option Int) :
    Raising ResilienceError DurableStores Outcome := do
  modify fun s => { s with artifacts := call.1 }
  executeDurableResumableUnits P H floatOf start binding unitIds worker call.2

/-- What an outcome reports about its units. -/
structure Outcome.Reports (o : Outcome) (receipts : List WorkUnitReceipt) : Prop where
  units : o.payload.get? (py "completed_units") =
    some (.ofStrs (receipts.map WorkUnitReceipt.unitId))
  hashes : o.payload.get? (py "unit_output_hashes") =
    some (byUnit receipts fun item => .str item.outputLogicalHash)
  artifacts : o.payload.get? (py "unit_artifact_sha256") =
    some (byUnit receipts fun item => .ofStr? item.artifactSha256)

variable {P H floatOf start binding worker} {unitIds : List PyStr}

theorem unitId_of_durableReceiptOf {unitId : PyStr} {r : WorkUnitReceipt}
    (h : durableReceiptOf P start binding worker unitId = .ok r) : r.unitId = unitId := by
  simp only [durableReceiptOf, bind_ok, pure_ok] at h
  obtain ⟨_, -, _, -, _, -, _, -, rfl⟩ := h
  rfl

theorem unitIds_of_mapM {ids : List PyStr} {receipts : List WorkUnitReceipt}
    (h : ids.mapM (durableReceiptOf P start binding worker) = .ok receipts) :
    receipts.map WorkUnitReceipt.unitId = ids := by
  induction ids generalizing receipts with
  | nil => cases h; rfl
  | cons id ids ih =>
    obtain ⟨r, rs, hr, hrs, rfl⟩ := mapM_cons_ok.mp h
    rw [map_cons, unitId_of_durableReceiptOf hr, ih hrs]

theorem durableReceipt_ends {unitId : PyStr} (hstrip : strip unitId = unitId) (s : DurableStores) :
    ends (durableReceipt P H floatOf start binding worker unitId)
      (fun r s' => durableReceiptOf P start binding worker unitId = .ok r ∧
        s'.directory = s.directory) (fun _ s' => s'.directory = s.directory) s := by
  simp only [durableReceipt, ends_bind, ends_lift, ends_zoom, commitOutput, ends_require, ends_get,
    ends_pure, hstrip, implies_true, and_true]
  intro output houtput _ _ hash hhash _ outputHash houtputHash data hdata name _
  refine ends_of_forall (fun _ _ _ _ => ?_) fun _ _ => trivial
  simp only [durableReceiptOf, bind_ok, pure_ok]
  exact ⟨output, houtput, hash, hhash, outputHash, houtputHash, data, hdata, rfl⟩

/-- **A call keeps the checkpoints to the first units**, and reports their receipts when it is
complete. -/
theorem restart_ends (hstrip : ∀ unitId ∈ unitIds, strip unitId = unitId)
    (call : Artifacts × Option Int) (s : DurableStores)
    (hs : Held (durableReceiptOf P start binding worker) unitIds s.directory) :
    ends (restart P H floatOf start binding worker unitIds call)
      (fun o s' => (o.complete = true → ∃ receipts,
          unitIds.mapM (durableReceiptOf P start binding worker) = .ok receipts ∧
            o.Reports receipts) ∧
        Held (durableReceiptOf P start binding worker) unitIds s'.directory)
      (fun _ s' => Held (durableReceiptOf P start binding worker) unitIds s'.directory) s := by
  simp only [restart, executeDurableResumableUnits, ends_bind, ends_modify, ends_require, ends_get,
    ends_lift, hs, implies_true, and_true]
  intro hunits checkpoint hlatest _ _
  have hat : ∃ k, At (durableReceiptOf P start binding worker) unitIds k (.resume checkpoint) := by
    cases checkpoint with
    | none => exact ⟨0, rfl, rfl⟩
    | some c =>
      obtain ⟨p, hp, rfl⟩ := mem_of_latest hlatest
      obtain ⟨k, hk⟩ := hs p hp
      refine ⟨k, ?_, hk⟩
      have hids : p.2.unitReceipts.map WorkUnitReceipt.unitId = unitIds.take k :=
        unitIds_of_mapM hk
      show (p.2.unitReceipts.map WorkUnitReceipt.unitId).dedup = _
      rw [hids, (hunits.sublist (take_sublist _ _)).dedup]
  obtain ⟨k, hat⟩ := hat
  have hwork : ∀ unitId ∈ unitIds, ∀ s : DurableStores,
      ends (durableReceipt P H floatOf start binding worker unitId)
        (fun r s' => durableReceiptOf P start binding worker unitId = .ok r ∧
          s'.directory = s.directory) (fun _ s' => s'.directory = s.directory) s :=
    fun unitId hmem => durableReceipt_ends (hstrip unitId hmem)
  have hsave : ∀ receipts (s : DurableStores), ends (durableCommit P start binding receipts)
      (fun _ s' => Adds receipts s.directory s'.directory)
      (fun _ s' => Adds receipts s.directory s'.directory) s :=
    fun receipts s => ends_zoom.mpr (commit_adds receipts s.directory)
  refine ends_mono (fun q s' hq => ?_) (fun _ _ h => h)
    (workUnits_at hwork hsave hunits (nil_append _).symm (Nat.zero_le k) hat hs)
  obtain ⟨⟨k', hcompleted, hcommitted⟩, hheld⟩ := hq
  refine ⟨fun hash _ => ⟨fun o ho => ⟨fun hcomplete => ?_, hheld⟩, fun _ _ => hheld⟩,
    fun _ _ => hheld⟩
  obtain ⟨resultHash, -, ho⟩ := bind_ok.mp ho
  cases ho
  have hlen : unitIds.length ≤ k' := by
    have heq := of_decide_eq_true hcomplete
    rw [hcompleted, length_take] at heq
    omega
  rw [take_of_length_le hlen] at hcommitted
  exact ⟨q.committed, hcommitted, rfl, rfl, rfl⟩

end

/-- **Interruptions do not show**: after calls that stopped or raised anywhere, each finding
whatever artifacts, a call that is complete reports the receipts that the units get by themselves,
in the order of the units. -/
theorem durable_restarts_transparent (P : Platform) (H : DurableHost) (floatOf : FloatOfText)
    (start : RunStartReceipt) (binding : RunBinding) (worker : Worker) (ids : List PyStr)
    (calls : List (Artifacts × Option Int)) (call : Artifacts × Option Int)
    (artifacts : Artifacts) :
    ends (restart P H floatOf start binding worker (ids.map strip) call)
      (fun o _ => o.complete = true → ∃ receipts,
        (ids.map strip).mapM (durableReceiptOf P start binding worker) = .ok receipts ∧
          o.Reports receipts) (fun _ _ => True)
      (after (restart P H floatOf start binding worker (ids.map strip)) calls ⟨[], artifacts⟩) := by
  have hstrip : ∀ unitId ∈ ids.map strip, strip unitId = unitId := by
    intro unitId hmem
    obtain ⟨id, -, rfl⟩ := mem_map.mp hmem
    exact strip_strip id
  have hheld : Held (durableReceiptOf P start binding worker) (ids.map strip)
      (after (restart P H floatOf start binding worker (ids.map strip)) calls
        ⟨[], artifacts⟩).directory :=
    after_invariant (I := fun s : DurableStores => Held _ (ids.map strip) s.directory)
      (fun call s hs => ends_mono (fun _ _ h => h.2) (fun _ _ h => h)
        (restart_ends hstrip call s hs))
      calls fun _ hp => absurd hp not_mem_nil
  exact ends_mono (fun _ _ h => h.1) (fun _ _ _ => trivial) (restart_ends hstrip call _ hheld)

end OvcReplay.Srfd.Resilience
