import OvcReplay.EvidenceStore.Streaming
import OvcReplay.EvidenceStore.Commits

/-! # The two routes of a commit

`commit_bytes` and `commit_file` give the same receipt and leave the same files, or raise the same
error, except where the staged files are counted against the capacity. The cached total is the bytes
of the files as long as no repeated chunk is counted twice and no staged file is counted. -/

namespace OvcReplay.EvidenceStore

open List Python Raising

section

variable {P : Platform} {H : Host} {floatOf : Json.FloatOfText} {C : Config} {call : Commit}
  {text : PyStr} {s : Store} {cas : Dict PyStr Bytes}

/-! ## Verification -/

/-- **On the manifest of a commit both routes verify alike.** -/
theorem verifyReceiptStreaming_eq (hP : Json.PrintsFloats P)
    (htext : manifestText P H C call = .ok text) {name : PyStr}
    (hname : unitName P (strip call.unitId) = .ok name)
    (hget : s.manifests.get? name = some text) :
    verifyReceiptStreaming P H floatOf C (receiptOf P H C call text) (some call.context) s =
      verifyReceipt P H floatOf C (receiptOf P H C call text) (some call.context) s := by
  obtain ⟨manifest, hmanif, hload⟩ := loadManifest_of_text floatOf hP htext hname hget
  obtain ⟨values, hvals, -⟩ := manifestChunks_of_reads hmanif
  simp only [verifyReceiptStreaming, verifyReceipt, loadBytes, receiptOf, hload, hvals,
    getField_eq hmanif.isMapping hmanif.logical, intField_eq hmanif.rawBytes,
    textField_eq hmanif.rawSha, check, bind, Except.bind, if_true]
  cases checkContext (strip call.unitId) (some call.context) manifest with
  | error e => rfl
  | ok u =>
    cases values.mapM (loadChunk P H (strip call.unitId) s) with
    | error e => rfl
    | ok parts =>
      simp only [length_flatten, Nat.cast_inj, and_self]
      by_cases hlen : (parts.map List.length).sum = call.rawOutput.length
      · by_cases hwhole : (H.sha256 parts.flatten).text = (H.sha256 call.rawOutput).text
        · simp [hlen, hwhole, pure, Except.pure]
        · simp [hlen, hwhole]
      · simp [hlen]

/-! ## Writing -/

/-- The files under `cas` after the staged ones were moved. -/
def moved (cas : Dict PyStr Bytes) (pending : List (PyStr × Bytes)) : Dict PyStr Bytes :=
  pending.foldl
    (fun d file => if (d.get? file.1).isSome then d else d.set file.1 file.2) cas

/-- The bytes of the files that are moved, a repeated one counted once. -/
def newBytes : Dict PyStr Bytes → List (PyStr × Bytes) → Nat
  | _, [] => 0
  | cas, file :: pending =>
    if (cas.get? file.1).isSome then newBytes cas pending
    else file.2.length + newBytes (cas.set file.1 file.2) pending

/-- The bytes of the files under `cas`. -/
def casBytes (cas : Dict PyStr Bytes) : Nat := (cas.map fun p => p.2.length).sum

theorem set_of_get? {κ β : Type} [DecidableEq κ] {d : Dict κ β} {k : κ} {v : β}
    (h : d.get? k = some v) : d.set k v = d := by
  induction d with
  | nil => cases h
  | cons p d ih =>
    obtain ⟨l, w⟩ := p
    by_cases hl : l = k
    · simp_all
    · simp_all

variable {pending : List (PyStr × Bytes)}

theorem moved_eq_written
    (hpend : ∀ file ∈ pending, cas.get? file.1 = none ∨ cas.get? file.1 = some file.2)
    (hsame : ∀ file ∈ pending, ∀ file' ∈ pending, file.1 = file'.1 → file.2 = file'.2) :
    moved cas pending = written cas pending := by
  induction pending generalizing cas with
  | nil => rfl
  | cons file pending ih =>
    have hstep : (if (cas.get? file.1).isSome then cas else cas.set file.1 file.2) =
        cas.set file.1 file.2 := by
      rcases hpend file (by simp) with hnone | hsome
      · simp [hnone]
      · rw [if_pos (Option.isSome_of_eq_some hsome), set_of_get? hsome]
    rw [moved, written, foldl_cons, foldl_cons, hstep]
    refine ih ?_ fun f hf f' hf' => hsame f (mem_cons_of_mem _ hf) f'
      (mem_cons_of_mem _ hf')
    intro f hf
    rw [Dict.get?_set]
    by_cases heq : file.1 = f.1
    · rw [if_pos heq, hsame file (by simp) f (mem_cons_of_mem _ hf) heq]
      exact Or.inr rfl
    · rw [if_neg heq]
      exact hpend f (mem_cons_of_mem _ hf)

theorem casBytes_set {d : Dict PyStr Bytes} {k : PyStr} {v : Bytes} (h : d.get? k = none) :
    casBytes (d.set k v) = casBytes d + v.length := by
  rw [Dict.set_eq_append v (Dict.get?_eq_none_iff.mp h), casBytes, casBytes, map_append,
    sum_append]
  simp

/-- **What is added up while files are moved is what they take.** -/
theorem casBytes_moved (cas : Dict PyStr Bytes) (pending : List (PyStr × Bytes)) :
    casBytes (moved cas pending) = casBytes cas + newBytes cas pending := by
  induction pending generalizing cas with
  | nil => rfl
  | cons file pending ih =>
    rw [moved, foldl_cons, newBytes]
    by_cases hget : (cas.get? file.1).isSome
    · rw [if_pos hget, if_pos hget]
      exact ih cas
    · rw [if_neg hget, if_neg hget, ← Nat.add_assoc, ← casBytes_set
        (Option.not_isSome_iff_eq_none.mp hget)]
      exact ih _

theorem newBytes_le (cas : Dict PyStr Bytes) (pending : List (PyStr × Bytes)) :
    newBytes cas pending ≤ (pending.map fun file => file.2.length).sum := by
  induction pending generalizing cas with
  | nil => exact Nat.le_refl _
  | cons file pending ih =>
    rw [newBytes, map_cons, sum_cons]
    split_ifs
    · exact (ih cas).trans (Nat.le_add_left _ _)
    · exact Nat.add_le_add_left (ih _) _

/-- **The sum over all pending files counts each once** iff none is repeated. -/
theorem sum_eq_newBytes_iff (hpos : ∀ file ∈ pending, 0 < file.2.length) :
    (pending.map fun file => file.2.length).sum = newBytes cas pending ↔
      (pending.map Prod.fst).Nodup ∧ ∀ file ∈ pending, cas.get? file.1 = none := by
  induction pending generalizing cas with
  | nil => simp [newBytes]
  | cons file pending ih =>
    have hrest : ∀ f ∈ pending, 0 < f.2.length := fun f hf => hpos f (mem_cons_of_mem _ hf)
    rw [newBytes, map_cons, sum_cons]
    by_cases hget : (cas.get? file.1).isSome
    · -- the file is there already: its bytes are counted, though it is not written
      rw [if_pos hget]
      have hle := newBytes_le cas pending
      have hlt := hpos file (by simp)
      constructor
      · intro heq
        omega
      · rintro ⟨-, hnone⟩
        rw [hnone file (by simp)] at hget
        cases hget
    · rw [if_neg hget, Nat.add_left_cancel_iff, ih hrest, map_cons, nodup_cons]
      have hnone := Option.not_isSome_iff_eq_none.mp hget
      constructor
      · rintro ⟨hnd, habsent⟩
        refine ⟨⟨fun hmem => ?_, hnd⟩, fun f hf => ?_⟩
        · obtain ⟨f, hf, heq⟩ := mem_map.mp hmem
          have hset := habsent f hf
          rw [heq, Dict.get?_set_self] at hset
          cases hset
        · rcases mem_cons.mp hf with rfl | hf
          · exact hnone
          · have hset := habsent f hf
            rw [Dict.get?_set] at hset
            split_ifs at hset
            exact hset
      · rintro ⟨⟨hnotin, hnd⟩, habsent⟩
        refine ⟨hnd, fun f hf => ?_⟩
        have hne : file.1 ≠ f.1 := fun heq => hnotin (mem_map.mpr ⟨f, hf, heq.symm⟩)
        rw [Dict.get?_set_of_ne _ _ hne]
        exact habsent f (mem_cons_of_mem _ hf)

/-! ## What `commit_file` does -/

section Outcomes

variable {R : Unit → Store → Prop} {E : StoreError → Store → Prop}

theorem ends_moveChunk {file : PyStr × Bytes} {n : Nat} (h : s.sizeCache = some n) :
    ends (moveChunk file) R E s ↔
      R () (if (s.cas.get? file.1).isSome then s
        else ⟨s.manifests, s.cas.set file.1 file.2, some (n + file.2.length)⟩) := by
  rw [moveChunk, ends_bind, ends_get]
  by_cases hget : (s.cas.get? file.1).isSome
  · rw [if_pos hget, if_pos hget, ends_pure]
  · rw [if_neg hget, if_neg hget, ends_writeChunk h]

theorem ends_moveChunks {pending : List (PyStr × Bytes)} {n : Nat} (h : s.sizeCache = some n) :
    ends (pending.forM moveChunk) R E s ↔
      R () ⟨s.manifests, moved s.cas pending, some (n + newBytes s.cas pending)⟩ := by
  induction pending generalizing s n with
  | nil =>
    obtain ⟨manifests, cas, cache⟩ := s
    obtain rfl := h
    exact Iff.rfl
  | cons file pending ih =>
    show ends (moveChunk file >>= fun _ => pending.forM moveChunk) R E s ↔ _
    rw [ends_bind, ends_moveChunk h, newBytes, moved, foldl_cons]
    by_cases hget : (s.cas.get? file.1).isSome
    · rw [if_pos hget, if_pos hget, if_pos hget]
      exact ih h
    · rw [if_neg hget, if_neg hget, if_neg hget, ih rfl, Nat.add_assoc]
      exact Iff.rfl

/-- The store with the files of a plan, as `commit_file` leaves it. -/
def Plan.move (plan : Plan) (s : Store) : Store where
  manifests := s.manifests.set plan.name plan.text
  cas := moved s.cas plan.pending
  sizeCache := some (s.total plan.staged + newBytes s.cas plan.pending +
    Sha256.utf8Length plan.text)

theorem ends_storeFile_of_some {plan : Plan} {existing : PyStr}
    (h : s.manifests.get? plan.name = some existing) :
    ends (storeFile C call plan) R E s ↔ (existing = plan.text → R () s) ∧ (¬ existing = plan.text →
        E (.evidence (py "ARTIFACT_HISTORY_REWRITE:" ++ strip call.unitId)) s) := by
  rw [storeFile, ends_bind, ends_get, h]
  exact ends_require

theorem ends_storeFile_of_none {plan : Plan} (h : s.manifests.get? plan.name = none) :
    ends (storeFile C call plan) R E s ↔
      (s.total plan.staged + plan.bytes ≤ C.maxExternalBytes → R () (plan.move s)) ∧
      (¬ s.total plan.staged + plan.bytes ≤ C.maxExternalBytes →
        E (capacityExceeded C (s.total plan.staged + plan.bytes))
          { s with sizeCache := some (s.total plan.staged) }) := by
  rw [storeFile, ends_bind, ends_get, h]
  simp only [ends_bind, ends_reserve]
  have hmove : ∀ s' : Store, s'.sizeCache = some (s.total plan.staged) →
      (ends (plan.pending.forM moveChunk)
        (fun _ s'' => ends (writeManifest plan.name plan.text) R E s'') E s' ↔
        R () ⟨s'.manifests.set plan.name plan.text, moved s'.cas plan.pending,
          some (s.total plan.staged + newBytes s'.cas plan.pending +
            Sha256.utf8Length plan.text)⟩) := by
    intro s' hs'
    rw [ends_moveChunks hs', ends_writeManifest rfl]
  rw [hmove _ rfl]
  exact Iff.rfl

end Outcomes

/-! ## Interchangeable routes -/

/-- Both calls fail with one error, or both give one receipt and leave the same files. -/
def SameOutcome (r r' : EStateM.Result StoreError Store ArtifactReceipt) : Prop :=
  match r, r' with
  | .ok receipt s, .ok receipt' s' =>
    receipt = receipt' ∧ s.manifests = s'.manifests ∧ s.cas = s'.cas
  | .error e _, .error e' _ => e = e'
  | _, _ => False

/-- **The two routes are interchangeable** for a commit from a state. -/
def Interchangeable (P : Platform) (H : Host) (floatOf : Json.FloatOfText) (C : Config)
    (call : Commit) (s : Store) : Prop :=
  SameOutcome (commitBytes P H floatOf C call s) (commitFile P H floatOf C call s)

/-- The staged files of a new unit, counted with the files of a namespace whose size is not cached,
exceed the capacity. -/
def StagedExceeds (P : Platform) (H : Host) (C : Config) (call : Commit) (s : Store) : Prop :=
  ∃ plan, planOf P H C call s = .ok plan ∧ s.manifests.get? plan.name = none ∧
    s.sizeCache = none ∧ plan.pending ≠ [] ∧
    C.maxExternalBytes < s.fileBytes + plan.staged + plan.bytes

theorem total_eq_of_some {staged n : Nat} (h : s.sizeCache = some n) : s.total staged = n := by
  rw [Store.total, h, Option.getD_some]

theorem total_eq_of_none {staged : Nat} (h : s.sizeCache = none) :
    s.total staged = s.fileBytes + staged := by
  rw [Store.total, h, Option.getD_none]

variable {chunks : Bytes → Prop}

/-- Pending files of one digest are one file when no two chunks share a digest. -/
theorem same_of_pending (hH : H.FaithfulOn C.compressionLevel chunks) {raw : Bytes}
    (hraw : ∀ chunk ∈ chunksOf C.chunkBytes raw, chunks chunk)
    (h : pendingOf H C cas raw = .ok pending) :
    ∀ file ∈ pending, ∀ file' ∈ pending, file.1 = file'.1 → file.2 = file'.2 := by
  intro file hfile file' hfile' heq
  obtain ⟨chunk, hchunk, -, rfl⟩ := mem_pendingOf h hfile
  obtain ⟨chunk', hchunk', -, rfl⟩ := mem_pendingOf h hfile'
  rw [hH.injective chunk chunk' (hraw chunk hchunk) (hraw chunk' hchunk') (HexDigest.ext heq)]

theorem get?_of_mem_pending {raw : Bytes} (h : pendingOf H C cas raw = .ok pending) :
    ∀ file ∈ pending, cas.get? file.1 = none := by
  intro file hfile
  obtain ⟨chunk, -, hnone, rfl⟩ := mem_pendingOf h hfile
  exact hnone

/-- The message of a refused reservation tells how much was asked for. -/
theorem projected_inj {m n : Nat} {front back : PyStr}
    (h : front ++ natText m ++ back = front ++ natText n ++ back) : m = n := by
  rw [append_cancel_right_eq, append_cancel_left_eq] at h
  rw [← Json.digitsValue_natText m, h, Json.digitsValue_natText]

variable {chunk : Bytes} {e : StoreError} {t : Store}

/-- A file that passed the check of a commit is loaded as the chunk it was checked against. -/
theorem loadChunk_of_checked {v : PyVal} {unit : PyStr} {file : Bytes}
    (hv : ReadsChunk H C chunk v) (hget : s.cas.get? (H.sha256 chunk).text = some file)
    (hsha : (H.sha256 file).text = (H.sha256 (H.compress C.compressionLevel chunk)).text)
    (hout : H.decompress file = some chunk) : loadChunk P H unit s v = .ok chunk := by
  simp only [loadChunk, textField_eq hv.rawSha, textField_eq hv.compressedSha,
    intField_eq hv.rawBytes, hget, hsha, hout, check, bind, Except.bind, if_true, and_self, pure,
    Except.pure]

theorem checkChunk_of_some {file : Bytes} {entry : Option (PyStr × Bytes)}
    (hget : cas.get? (H.sha256 chunk).text = some file) (h : checkChunk H C cas chunk = .ok entry) :
    (H.sha256 file).text = (H.sha256 (H.compress C.compressionLevel chunk)).text ∧
      H.decompress file = some chunk := by
  rw [checkChunk, hget] at h
  simp only at h
  by_cases hsha : (H.sha256 file).text = (H.sha256 (H.compress C.compressionLevel chunk)).text
  · rw [if_neg (by simpa using hsha)] at h
    refine ⟨hsha, ?_⟩
    cases hout : H.decompress file with
    | none => simp [hout] at h
    | some out =>
      by_cases heq : out = chunk
      · rw [heq]
      · simp [hout, heq] at h
  · simp [hsha] at h

/-- Behind the writes of a new unit every chunk of its output is loaded. -/
theorem loadChunk_write (hH : H.FaithfulOn C.compressionLevel chunks)
    (hcall : ∀ raw ∈ chunksOf C.chunkBytes call.rawOutput, chunks raw) {plan : Plan}
    (hplan : planOf P H C call s = .ok plan)
    (hchunk : chunk ∈ chunksOf C.chunkBytes call.rawOutput) {v : PyVal}
    (hv : ReadsChunk H C chunk v) (unit : PyStr) :
    loadChunk P H unit (plan.write s) v = .ok chunk := by
  obtain ⟨-, hpend, -⟩ := planOf_ok.mp hplan
  cases hget : s.cas.get? (H.sha256 chunk).text with
  | some file =>
    have hwritten := get?_written_of_get? hpend hget
    rw [pendingOf, pendingFiles, bind_ok] at hpend
    obtain ⟨checked, hchecked, -⟩ := hpend
    obtain ⟨entry, -, hcheck⟩ := mem_of_mapM_left hchecked hchunk
    obtain ⟨hsha, hout⟩ := checkChunk_of_some hget hcheck
    exact loadChunk_of_checked hv hwritten hsha hout
  | none =>
    have hmem := mem_pendingOf_of_none hpend hchunk hget
    have hsome : (Dict.get? (written s.cas plan.pending) (H.sha256 chunk).text).isSome :=
      isSome_get?_written (Or.inl (mem_map_of_mem hmem))
    obtain ⟨file, hfile⟩ := Option.isSome_iff_exists.mp hsome
    have hcompressed : file = H.compress C.compressionLevel chunk := by
      rcases get?_written hfile with hmem' | hold
      · exact same_of_pending hH hcall hpend _ hmem' _ hmem rfl
      · rw [hget] at hold
        cases hold
    subst hcompressed
    exact loadChunk_of_checked hv hfile rfl (hH.decompress_compress chunk (hcall chunk hchunk))

/-- **A new unit that was written is refused only for its context.** -/
theorem verifyReceipt_write (hP : Json.PrintsFloats P) (hH : H.FaithfulOn C.compressionLevel chunks)
    (hcall : ∀ raw ∈ chunksOf C.chunkBytes call.rawOutput, chunks raw) {plan : Plan}
    (hplan : planOf P H C call s = .ok plan)
    (h : verifyReceipt P H floatOf C (receiptOf P H C call plan.text) (some call.context)
      (plan.write s) = .error e)
    : e = .evidence (py "ARTIFACT_CONTEXT_MISMATCH:" ++ strip call.unitId) := by
  obtain ⟨hname, -, htext⟩ := planOf_ok.mp hplan
  have hget : Dict.get? (plan.write s).manifests plan.name = some plan.text := by
    rw [Plan.write, Dict.get?_set_self]
  obtain ⟨manifest, hmanif, hload⟩ := loadManifest_of_text floatOf hP htext hname hget
  obtain ⟨values, hvals, hchunks⟩ := manifestChunks_of_reads hmanif
  obtain ⟨tree, -, hctx⟩ := hmanif.context
  have hparts : values.mapM (loadChunk P H (strip call.unitId) (plan.write s)) =
      .ok (chunksOf C.chunkBytes call.rawOutput) := by
    rw [mapM_ok_iff]
    have hall : Forall₂ (fun raw v => raw ∈ chunksOf C.chunkBytes call.rawOutput ∧
        ReadsChunk H C raw v) (chunksOf C.chunkBytes call.rawOutput) values :=
      (forall₂_and_left _ _).mpr ⟨fun raw hraw => hraw, hchunks⟩
    exact (hall.imp fun raw v hv => loadChunk_write hH hcall hplan hv.1 hv.2 _).flip
  by_cases heq : (tree.value floatOf).pyEq (.dict call.context) = true
  · -- with an equal context nothing is left to refuse
    simp [verifyReceipt, receiptOf, loadBytes, hload, checkContext,
      getField_eq hmanif.isMapping hctx, heq, hvals, hparts,
      flatten_chunksOf C.chunkBytes_pos, intField_eq hmanif.rawBytes,
      textField_eq hmanif.rawSha, getField_eq hmanif.isMapping hmanif.logical, check, bind,
      Except.bind, pure, Except.pure] at h
  · simp only [verifyReceipt, receiptOf, loadBytes, hload, checkContext,
      getField_eq hmanif.isMapping hctx, heq, check, bind, Except.bind, if_true,
      if_false, Except.error.injEq, Bool.false_eq_true] at h
    exact h.symm

/-! ## The two outcomes -/

/-- How a commit ends once its files are there: with its receipt, unless it cannot be verified. -/
def finish (receipt : ArtifactReceipt) (verdict : Except StoreError Unit) (t : Store) :
    EStateM.Result StoreError Store ArtifactReceipt :=
  match verdict with
  | .ok _ => .ok receipt t
  | .error e => .error e t

theorem eq_of_ends {m : Raising StoreError Store ArtifactReceipt}
    {r : EStateM.Result StoreError Store ArtifactReceipt}
    (h : ends m (fun a t => .ok a t = r) (fun e t => .error e t = r) s) : m s = r := by
  unfold ends at h
  cases hm : m s <;> simpa [hm] using h

variable {receipt : ArtifactReceipt} {verdict : Except StoreError Unit}

theorem ends_finish : ends (lift verdict >>= fun _ => pure receipt)
      (fun a t' => .ok a t' = finish receipt verdict t)
      (fun e t' => .error e t' = finish receipt verdict t) t := by
  cases verdict <;> rfl

section Results

variable {plan : Plan}

theorem commitBytes_of_error (hplan : planOf P H C call s = .error e) :
    commitBytes P H floatOf C call s = .error e s := by
  refine eq_of_ends ?_
  simp only [commitBytes, ends_bind, ends_get, hplan, ends_lift_error]

theorem commitFile_of_error (hplan : planOf P H C call s = .error e) :
    commitFile P H floatOf C call s = .error e s := by
  refine eq_of_ends ?_
  simp only [commitFile, ends_bind, ends_get, filePlanOf_eq, hplan, ends_lift_error]

variable (hplan : planOf P H C call s = .ok plan)

include hplan

theorem commitBytes_of_same (hget : s.manifests.get? plan.name = some plan.text) :
    commitBytes P H floatOf C call s = finish (receiptOf P H C call plan.text)
      (verifyReceipt P H floatOf C (receiptOf P H C call plan.text) (some call.context) s) s := by
  refine eq_of_ends ?_
  rw [commitBytes, ends_bind, ends_get, ends_bind, hplan, ends_lift_ok, ends_bind,
    ends_store_of_some hget]
  exact ⟨fun _ => ends_finish, fun h => absurd rfl h⟩

theorem commitFile_of_same (hget : s.manifests.get? plan.name = some plan.text) :
    commitFile P H floatOf C call s = finish (receiptOf P H C call plan.text)
      (verifyReceiptStreaming P H floatOf C (receiptOf P H C call plan.text) (some call.context) s)
      s := by
  refine eq_of_ends ?_
  rw [commitFile, ends_bind, ends_get, ends_bind, filePlanOf_eq, hplan, ends_lift_ok, ends_bind,
    ends_storeFile_of_some hget, fileReceiptOf_eq]
  exact ⟨fun _ => ends_finish, fun h => absurd rfl h⟩

theorem commitBytes_of_rewrite {existing : PyStr}
    (hget : s.manifests.get? plan.name = some existing) (hne : existing ≠ plan.text) :
    commitBytes P H floatOf C call s =
      .error (.evidence (py "ARTIFACT_HISTORY_REWRITE:" ++ strip call.unitId)) s := by
  refine eq_of_ends ?_
  rw [commitBytes, ends_bind, ends_get, ends_bind, hplan, ends_lift_ok, ends_bind,
    ends_store_of_some hget]
  exact ⟨fun h => absurd h hne, fun _ => rfl⟩

theorem commitFile_of_rewrite {existing : PyStr}
    (hget : s.manifests.get? plan.name = some existing) (hne : existing ≠ plan.text) :
    commitFile P H floatOf C call s =
      .error (.evidence (py "ARTIFACT_HISTORY_REWRITE:" ++ strip call.unitId)) s := by
  refine eq_of_ends ?_
  rw [commitFile, ends_bind, ends_get, ends_bind, filePlanOf_eq, hplan, ends_lift_ok, ends_bind,
    ends_storeFile_of_some hget]
  exact ⟨fun h => absurd h hne, fun _ => rfl⟩

end Results

theorem capacityExceeded_inj {m n : Nat} : capacityExceeded C m = capacityExceeded C n ↔ m = n := by
  constructor
  · intro h
    have hmessage := StoreError.evidence.inj h
    rw [append_assoc _ (py " limit="), append_assoc _ (py " limit=")] at hmessage
    exact projected_inj hmessage
  · rintro rfl
    rfl

/-- A refused reservation is no refused context. -/
theorem capacityExceeded_ne (n : Nat) (unit : PyStr) :
    capacityExceeded C n ≠ .evidence (py "ARTIFACT_CONTEXT_MISMATCH:" ++ unit) := by
  intro h
  have hmessage := congrArg head? (StoreError.evidence.inj h)
  have hcapacity : py "CAPACITY_EXTERNAL_BYTES_EXCEEDED namespace=" =
      .ofChar 'C' :: py "APACITY_EXTERNAL_BYTES_EXCEEDED namespace=" := by decide +kernel
  have hctx : py "ARTIFACT_CONTEXT_MISMATCH:" = .ofChar 'A' :: py "RTIFACT_CONTEXT_MISMATCH:" := by
    decide +kernel
  rw [hcapacity, hctx] at hmessage
  have hchar := CodePoint.ofChar_injective (Option.some.inj hmessage)
  exact absurd hchar (by decide)

section Results

variable {plan : Plan} (hplan : planOf P H C call s = .ok plan)
  (hget : s.manifests.get? plan.name = none)

include hplan hget

theorem commitBytes_of_fits (hfits : s.total 0 + plan.bytes ≤ C.maxExternalBytes) :
    commitBytes P H floatOf C call s = finish (receiptOf P H C call plan.text)
      (verifyReceipt P H floatOf C (receiptOf P H C call plan.text) (some call.context)
        (plan.write s)) (plan.write s) := by
  refine eq_of_ends ?_
  rw [commitBytes, ends_bind, ends_get, ends_bind, hplan, ends_lift_ok, ends_bind,
    ends_store_of_none hget]
  exact ⟨fun _ => ends_finish, fun h => absurd hfits h⟩

theorem commitFile_of_fits (hfits : s.total plan.staged + plan.bytes ≤ C.maxExternalBytes) :
    commitFile P H floatOf C call s = finish (receiptOf P H C call plan.text)
      (verifyReceiptStreaming P H floatOf C (receiptOf P H C call plan.text) (some call.context)
        (plan.move s)) (plan.move s) := by
  refine eq_of_ends ?_
  rw [commitFile, ends_bind, ends_get, ends_bind, filePlanOf_eq, hplan, ends_lift_ok, ends_bind,
    ends_storeFile_of_none hget, fileReceiptOf_eq]
  exact ⟨fun _ => ends_finish, fun h => absurd hfits h⟩

theorem commitBytes_of_exceeds (hfits : ¬ s.total 0 + plan.bytes ≤ C.maxExternalBytes) :
    commitBytes P H floatOf C call s = .error (capacityExceeded C (s.total 0 + plan.bytes))
      { s with sizeCache := some (s.total 0) } := by
  refine eq_of_ends ?_
  rw [commitBytes, ends_bind, ends_get, ends_bind, hplan, ends_lift_ok, ends_bind,
    ends_store_of_none hget]
  exact ⟨fun h => absurd h hfits, fun _ => rfl⟩

theorem commitFile_of_exceeds (hfits : ¬ s.total plan.staged + plan.bytes ≤ C.maxExternalBytes) :
    commitFile P H floatOf C call s = .error (capacityExceeded C (s.total plan.staged + plan.bytes))
        { s with sizeCache := some (s.total plan.staged) } := by
  refine eq_of_ends ?_
  rw [commitFile, ends_bind, ends_get, ends_bind, filePlanOf_eq, hplan, ends_lift_ok, ends_bind,
    ends_storeFile_of_none hget]
  exact ⟨fun h => absurd h hfits, fun _ => rfl⟩

end Results

/-- Verification looks at nothing but the files. -/
theorem verifyReceipt_congr {expected : Option (List (PyKey × PyVal))} {s' : Store}
    (hmanifs : s'.manifests = s.manifests) (hcas : s'.cas = s.cas) :
    verifyReceipt P H floatOf C receipt expected s' =
      verifyReceipt P H floatOf C receipt expected s := by
  simp only [verifyReceipt, loadManifest, hmanifs, loadBytes_congr hmanifs hcas]

theorem sameOutcome_finish {t' : Store} (hmanifs : t.manifests = t'.manifests)
    (hcas : t.cas = t'.cas) :
    SameOutcome (finish receipt verdict t) (finish receipt verdict t') := by
  cases verdict with
  | ok _ => exact ⟨rfl, hmanifs, hcas⟩
  | error e => exact rfl

/-- A refused reservation is not how a written commit ends. -/
theorem not_sameOutcome_finish {t' : Store} (h : ∀ e', verdict = .error e' → e' ≠ e) :
    ¬ SameOutcome (finish receipt verdict t) (.error e t') := by
  cases verdict with
  | ok _ => exact id
  | error e' => exact fun heq => h e' rfl heq

theorem staged_pos {plan : Plan} (hgzip : ∀ raw, 0 < (H.compress C.compressionLevel raw).length)
    (hplan : planOf P H C call s = .ok plan) (hne : plan.pending ≠ []) : 0 < plan.staged := by
  obtain ⟨-, hpend, -⟩ := planOf_ok.mp hplan
  obtain ⟨file, rest, hfiles⟩ := exists_cons_of_ne_nil hne
  obtain ⟨chunk, -, -, rfl⟩ := mem_pendingOf hpend (hfiles ▸ mem_cons_self)
  rw [Plan.staged, hfiles, map_cons, sum_cons]
  exact Nat.add_pos_left (hgzip chunk) _

/-- **The routes are interchangeable** exactly where the staged files are not counted beyond the
capacity. -/
theorem interchangeable_iff (hP : Json.PrintsFloats P)
    (hgzip : ∀ raw, 0 < (H.compress C.compressionLevel raw).length)
    (hH : H.FaithfulOn C.compressionLevel chunks)
    (hcall : ∀ raw ∈ chunksOf C.chunkBytes call.rawOutput, chunks raw) :
    Interchangeable P H floatOf C call s ↔ ¬ StagedExceeds P H C call s := by
  rw [Interchangeable]
  cases hplan : planOf P H C call s with
  | error e =>
    rw [commitBytes_of_error hplan, commitFile_of_error hplan]
    refine iff_of_true rfl ?_
    rintro ⟨plan, hplan', -⟩
    rw [hplan] at hplan'
    cases hplan'
  | ok plan =>
    obtain ⟨hname, hpend, htext⟩ := planOf_ok.mp hplan
    have hexceeds : StagedExceeds P H C call s ↔ s.manifests.get? plan.name = none ∧
        s.sizeCache = none ∧ plan.pending ≠ [] ∧
        C.maxExternalBytes < s.fileBytes + plan.staged + plan.bytes := by
      constructor
      · rintro ⟨plan', hplan', hrest⟩
        cases hplan.symm.trans hplan'
        exact hrest
      · exact fun hrest => ⟨plan, hplan, hrest⟩
    rw [hexceeds]
    cases hget : s.manifests.get? plan.name with
    | some existing =>
      refine iff_of_true ?_ (fun h => nomatch h.1)
      by_cases heq : existing = plan.text
      · subst heq
        rw [commitBytes_of_same hplan hget, commitFile_of_same hplan hget,
          verifyReceiptStreaming_eq hP htext hname hget]
        exact sameOutcome_finish rfl rfl
      · rw [commitBytes_of_rewrite hplan hget heq, commitFile_of_rewrite hplan hget heq]
        rfl
    | none =>
      have hcas : (plan.move s).cas = (plan.write s).cas :=
        moved_eq_written (fun file hfile => Or.inl (get?_of_mem_pending hpend file hfile))
          (same_of_pending hH hcall hpend)
      have hverify : verifyReceiptStreaming P H floatOf C (receiptOf P H C call plan.text)
          (some call.context) (plan.move s) = verifyReceipt P H floatOf C
            (receiptOf P H C call plan.text) (some call.context) (plan.write s) := by
        have hmoved : Dict.get? (plan.move s).manifests plan.name = some plan.text := by
          rw [Plan.move, Dict.get?_set_self]
        rw [verifyReceiptStreaming_eq hP htext hname hmoved]
        exact verifyReceipt_congr rfl hcas
      by_cases hcounted : s.sizeCache = none ∧ plan.pending ≠ []
      · -- the staged files are counted: the file route reserves more
        obtain ⟨hcache, hne⟩ := hcounted
        have hpos := staged_pos hgzip hplan hne
        have htotal : s.total plan.staged = s.total 0 + plan.staged := by
          rw [total_eq_of_none hcache, total_eq_of_none hcache, Nat.add_zero]
        have hbytes : s.total 0 = s.fileBytes := by
          rw [total_eq_of_none hcache, Nat.add_zero]
        by_cases hfile : s.total plan.staged + plan.bytes ≤ C.maxExternalBytes
        · rw [commitBytes_of_fits hplan hget (by omega), commitFile_of_fits hplan hget hfile,
            hverify]
          refine iff_of_true (sameOutcome_finish rfl hcas.symm) ?_
          rintro ⟨-, -, -, hlt⟩
          omega
        · rw [commitFile_of_exceeds hplan hget hfile]
          refine iff_of_false ?_ (not_not_intro ⟨rfl, hcache, hne, by omega⟩)
          by_cases hfits : s.total 0 + plan.bytes ≤ C.maxExternalBytes
          · rw [commitBytes_of_fits hplan hget hfits]
            refine not_sameOutcome_finish fun e he => ?_
            rw [verifyReceipt_write hP hH hcall hplan he]
            exact (capacityExceeded_ne _ _).symm
          · rw [commitBytes_of_exceeds hplan hget hfits]
            intro heq
            have := capacityExceeded_inj.mp heq
            omega
      · have htotal : s.total plan.staged = s.total 0 := by
          by_cases hcache : s.sizeCache = none
          · have hnil : plan.pending = [] := by
              by_contra hne
              exact hcounted ⟨hcache, hne⟩
            rw [Plan.staged, hnil]
            rfl
          · obtain ⟨n, hn⟩ := Option.ne_none_iff_exists'.mp hcache
            rw [total_eq_of_some hn, total_eq_of_some hn]
        refine iff_of_true ?_ fun h => hcounted ⟨h.2.1, h.2.2.1⟩
        by_cases hfits : s.total 0 + plan.bytes ≤ C.maxExternalBytes
        · rw [commitBytes_of_fits hplan hget hfits,
            commitFile_of_fits hplan hget (by rwa [htotal]), hverify]
          exact sameOutcome_finish rfl hcas.symm
        · rw [commitBytes_of_exceeds hplan hget hfits,
            commitFile_of_exceeds hplan hget (by rwa [htotal]), htotal]
          rfl

end

end OvcReplay.EvidenceStore
