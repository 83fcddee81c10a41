import OvcReplay.EvidenceStore.Routes

/-! # The bytes that are held to be stored

The total is computed from the files once and then kept up by addition. It stays the bytes of the
files exactly as long as no call of `commit_bytes` adds a repeated new chunk twice and no call of
`commit_file` computes it while its staged files lie in the namespace. -/

namespace OvcReplay.EvidenceStore

open Python Raising

/-- The two ways to commit. -/
inductive Route where
  | bytes
  | file
  deriving DecidableEq, Repr

section

variable (P : Platform) (H : Host) (floatOf : Json.FloatOfText) (C : Config)

/-- A commit on a route. -/
def commitBy (call : Route × Commit) : Raising StoreError Store ArtifactReceipt :=
  match call.1 with
  | .bytes => commitBytes P H floatOf C call.2
  | .file => commitFile P H floatOf C call.2

/-- `total_bytes()` is the bytes of the files. -/
def Accurate (s : Store) : Prop := s.total 0 = s.fileBytes

/-- **The call counts bytes that it does not store**: a repeated new chunk twice, or staged files. -/
def Miscounts (call : Route × Commit) (s : Store) : Prop :=
  ∃ plan, planOf P H C call.2 s = .ok plan ∧ s.manifests.get? plan.name = none ∧
    (call.1 = .bytes → s.total 0 + plan.bytes ≤ C.maxExternalBytes ∧
      ¬ (plan.pending.map Prod.fst).Nodup) ∧
    (call.1 = .file → s.sizeCache = none ∧ plan.pending ≠ [])

end

section

variable {P : Platform} {H : Host} {floatOf : Json.FloatOfText} {C : Config} {call : Commit}
  {s : Store} {plan : Plan}

@[simp] theorem commitBy_bytes : commitBy P H floatOf C (.bytes, call) s =
    commitBytes P H floatOf C call s := rfl

@[simp] theorem commitBy_file : commitBy P H floatOf C (.file, call) s =
    commitFile P H floatOf C call s := rfl

theorem sum_set {κ β : Type} [DecidableEq κ] {d : Dict κ β} {k : κ} {v : β} (f : β → Nat)
    (h : d.get? k = none) :
    ((d.set k v).map fun p => f p.2).sum = (d.map fun p => f p.2).sum + f v := by
  rw [Dict.set_eq_append v (Dict.get?_eq_none_iff.mp h), List.map_append, List.sum_append]
  simp

theorem fileBytes_eq (s : Store) : s.fileBytes =
    (s.manifests.map fun p => Sha256.utf8Length p.2).sum + casBytes s.cas := rfl

/-- The bytes of the files behind a written plan. -/
theorem fileBytes_move (hget : s.manifests.get? plan.name = none) : (plan.move s).fileBytes =
      s.fileBytes + newBytes s.cas plan.pending + Sha256.utf8Length plan.text := by
  rw [fileBytes_eq, fileBytes_eq, Plan.move, sum_set Sha256.utf8Length hget, casBytes_moved]
  omega

theorem left_finish {receipt : ArtifactReceipt} {verdict : Except StoreError Unit} {t : Store} :
    left (finish receipt verdict t) = t := by
  cases verdict <;> rfl

theorem accurate_some {manifests : Dict PyStr PyStr} {cas : Dict PyStr Bytes} {n : Nat} :
    Accurate ⟨manifests, cas, some n⟩ ↔ n = Store.fileBytes ⟨manifests, cas, some n⟩ := Iff.rfl

/-- Caching what was computed changes nothing. -/
theorem Accurate.cached (h : Accurate s) : Accurate { s with sizeCache := some (s.total 0) } := h

variable {chunks : Bytes → Prop}

/-- **`commit_bytes` keeps the total accurate** unless it writes a repeated chunk. -/
theorem accurate_write_iff (hgzip : ∀ raw, 0 < (H.compress C.compressionLevel raw).length)
    (hH : H.FaithfulOn C.compressionLevel chunks)
    (hcall : ∀ raw ∈ chunksOf C.chunkBytes call.rawOutput, chunks raw) (hs : Accurate s)
    (hplan : planOf P H C call s = .ok plan) (hget : s.manifests.get? plan.name = none) :
    Accurate (plan.write s) ↔ (plan.pending.map Prod.fst).Nodup := by
  obtain ⟨-, hpend, -⟩ := planOf_ok.mp hplan
  have habsent := get?_of_mem_pending hpend
  have hpos : ∀ file ∈ plan.pending, 0 < file.2.length := by
    intro file hfile
    obtain ⟨chunk, -, -, rfl⟩ := mem_pendingOf hpend hfile
    exact hgzip chunk
  have hcas : (plan.move s).cas = (plan.write s).cas :=
    moved_eq_written (fun file hfile => Or.inl (habsent file hfile))
      (same_of_pending hH hcall hpend)
  have hbytes : (plan.write s).fileBytes = (plan.move s).fileBytes := by
    rw [fileBytes_eq, fileBytes_eq, hcas]
    rfl
  have htotal : (plan.write s).total 0 = s.total 0 + plan.bytes := rfl
  have hiff : (plan.pending.map fun file => file.2.length).sum = newBytes s.cas plan.pending ↔ _ :=
    sum_eq_newBytes_iff hpos
  rw [Accurate, hbytes, fileBytes_move hget, htotal, Plan.bytes]
  rw [Accurate] at hs
  constructor
  · intro heq
    exact (hiff.mp (by omega)).1
  · intro hnd
    have := hiff.mpr ⟨hnd, habsent⟩
    omega

/-- **`commit_file` keeps the total accurate** unless it counts what it has staged. -/
theorem accurate_move_iff (hs : Accurate s) (hget : s.manifests.get? plan.name = none) :
    Accurate (plan.move s) ↔ s.total plan.staged = s.total 0 := by
  have htotal : (plan.move s).total 0 =
      s.total plan.staged + newBytes s.cas plan.pending + Sha256.utf8Length plan.text := rfl
  rw [Accurate, fileBytes_move hget, htotal]
  rw [Accurate] at hs
  omega

theorem total_staged_eq_iff (hgzip : ∀ raw, 0 < (H.compress C.compressionLevel raw).length)
    (hplan : planOf P H C call s = .ok plan) :
    s.total plan.staged = s.total 0 ↔ ¬ (s.sizeCache = none ∧ plan.pending ≠ []) := by
  by_cases hcache : s.sizeCache = none
  · rw [total_eq_of_none hcache, total_eq_of_none hcache, Nat.add_zero]
    by_cases hnil : plan.pending = []
    · have hstaged : plan.staged = 0 := by
        rw [Plan.staged, hnil]
        rfl
      simp [hnil, hstaged]
    · have hpos := staged_pos hgzip hplan hnil
      refine iff_of_false (by omega) (not_not_intro ⟨hcache, hnil⟩)
  · obtain ⟨n, hn⟩ := Option.ne_none_iff_exists'.mp hcache
    refine iff_of_true ?_ fun h => hcache h.1
    rw [total_eq_of_some hn, total_eq_of_some hn]

/-- **One commit keeps the total accurate** iff it does not miscount. -/
theorem accurate_step_iff (hgzip : ∀ raw, 0 < (H.compress C.compressionLevel raw).length)
    (hH : H.FaithfulOn C.compressionLevel chunks)
    (hcall : ∀ raw ∈ chunksOf C.chunkBytes call.rawOutput, chunks raw) (hs : Accurate s)
    (route : Route) :
    Accurate (left (commitBy P H floatOf C (route, call) s)) ↔ ¬ Miscounts P H C (route, call) s := by
  cases hplan : planOf P H C call s with
  | error e =>
    have hnot : ¬ Miscounts P H C (route, call) s := by
      rintro ⟨plan, hplan', -⟩
      rw [hplan] at hplan'
      cases hplan'
    refine iff_of_true ?_ hnot
    cases route with
    | bytes => rwa [commitBy_bytes, commitBytes_of_error hplan]
    | file => rwa [commitBy_file, commitFile_of_error hplan]
  | ok plan =>
    have hmiscounts : Miscounts P H C (route, call) s ↔
        s.manifests.get? plan.name = none ∧
        (route = .bytes → s.total 0 + plan.bytes ≤ C.maxExternalBytes ∧
          ¬ (plan.pending.map Prod.fst).Nodup) ∧
        (route = .file → s.sizeCache = none ∧ plan.pending ≠ []) := by
      constructor
      · rintro ⟨plan', hplan', hrest⟩
        cases hplan.symm.trans hplan'
        exact hrest
      · exact fun hrest => ⟨plan, hplan, hrest⟩
    rw [hmiscounts]
    cases hget : s.manifests.get? plan.name with
    | some existing =>
      -- nothing is written
      refine iff_of_true ?_ (fun h => nomatch h.1)
      by_cases heq : existing = plan.text
      · subst heq
        cases route with
        | bytes => rwa [commitBy_bytes, commitBytes_of_same hplan hget, left_finish]
        | file => rwa [commitBy_file, commitFile_of_same hplan hget, left_finish]
      · cases route with
        | bytes => rwa [commitBy_bytes, commitBytes_of_rewrite hplan hget heq]
        | file => rwa [commitBy_file, commitFile_of_rewrite hplan hget heq]
    | none =>
      cases route with
      | bytes =>
        rw [commitBy_bytes]
        by_cases hfits : s.total 0 + plan.bytes ≤ C.maxExternalBytes
        · rw [commitBytes_of_fits hplan hget hfits, left_finish,
            accurate_write_iff hgzip hH hcall hs hplan hget]
          simp [hfits]
        · rw [commitBytes_of_exceeds hplan hget hfits]
          refine iff_of_true hs.cached fun h => hfits (h.2.1 rfl).1
      | file =>
        rw [commitBy_file]
        have hstaged := total_staged_eq_iff hgzip hplan
        by_cases hfits : s.total plan.staged + plan.bytes ≤ C.maxExternalBytes
        · rw [commitFile_of_fits hplan hget hfits, left_finish, accurate_move_iff hs hget,
            hstaged]
          simp
        · rw [commitFile_of_exceeds hplan hget hfits]
          have hcached : Accurate { s with sizeCache := some (s.total plan.staged) } ↔
              s.total plan.staged = s.total 0 := by
            rw [Accurate] at hs
            rw [hs]
            exact accurate_some
          show Accurate { s with sizeCache := some (s.total plan.staged) } ↔ _
          rw [hcached, hstaged]
          simp

/-- **The total is accurate throughout a run** iff no step of the run miscounts. -/
theorem accurate_run_iff (hgzip : ∀ raw, 0 < (H.compress C.compressionLevel raw).length)
    (hH : H.FaithfulOn C.compressionLevel chunks) {calls : List (Route × Commit)}
    (hcalls : ∀ call ∈ calls, ∀ raw ∈ chunksOf C.chunkBytes call.2.rawOutput, chunks raw)
    (hs : Accurate s) :
    (∀ before later, calls = before ++ later → Accurate (after (commitBy P H floatOf C) before s)) ↔
      ∀ before call later, calls = before ++ call :: later →
        ¬ Miscounts P H C call (after (commitBy P H floatOf C) before s) := by
  have hstep : ∀ before call later, calls = before ++ call :: later →
      Accurate (after (commitBy P H floatOf C) before s) →
      (Accurate (after (commitBy P H floatOf C) (before ++ [call]) s) ↔
        ¬ Miscounts P H C call (after (commitBy P H floatOf C) before s)) := by
    intro before call later hcalls' hbef
    have hmem : call ∈ calls := by rw [hcalls']; simp
    rw [after_append]
    exact accurate_step_iff hgzip hH (hcalls call hmem) hbef call.1
  constructor
  · intro haccurate before call later hcalls'
    refine (hstep before call later hcalls' (haccurate before _ hcalls')).mp ?_
    exact haccurate (before ++ [call]) later (by rw [hcalls', List.append_assoc]; rfl)
  · intro hcounts before
    induction before using List.reverseRecOn with
    | nil => exact fun _ _ => hs
    | append_singleton before call ih =>
      intro later hcalls'
      have hsplit : calls = before ++ call :: later := by
        rw [hcalls', List.append_assoc]
        rfl
      exact (hstep before call later hsplit (ih _ hsplit)).mpr (hcounts before call later hsplit)

theorem accurate_empty : Accurate Store.empty := rfl

end

/-! ## Concrete runs -/

namespace Reference

/-- One output on both routes. -/
def routedCalls : List (Route × Commit) :=
  [(.bytes, commit "first" [(.str (py "run"), .int 1)]),
    (.file, commit "second" [(.str (py "run"), .int 2)])]

theorem compress_pos (raw : Bytes) : 0 < (host.compress config.compressionLevel raw).length := by
  show 0 < (if raw = output then compressed else 31 :: raw).length
  split_ifs
  · decide
  · exact Nat.succ_pos _

/-- A namespace with chunks of two bytes. -/
def pairConfig : Config := { config with chunkBytes := 2, chunkBytes_pos := Nat.two_pos }

/-- A commit of an output whose two chunks are the same. -/
def repeatedCall : Route × Commit :=
  (.bytes, { commit "first" [] with rawOutput := output ++ output })

/-- The total is accurate, as a test. -/
def accurate (s : Store) : Bool := s.total 0 == s.fileBytes

end Reference

end OvcReplay.EvidenceStore
