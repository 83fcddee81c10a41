import OvcReplay.EvidenceStore.Durability

/-! # Runs of commits

Every call of `commit_bytes` either gives a receipt for what is loaded from then on, or raises and
leaves what can be loaded as it was: as long as no unit is stored with a context that `json` changes,
which is found out only when the unit is read back. -/

namespace OvcReplay.EvidenceStore

open List Python Raising

section

variable (P : Platform) (H : Host) (floatOf : Json.FloatOfText) (C : Config)

/-- What can be loaded of a unit. -/
def loadable (s : Store) (unitId : PyStr) : Option Bytes :=
  (loadBytes P H floatOf C unitId none s).toOption

/-- The call gets as far as writing the files of a new unit. -/
def Writes (call : Commit) (s : Store) : Prop :=
  ∃ plan, planOf P H C call s = .ok plan ∧ s.manifests.get? plan.name = none ∧
    s.total 0 + plan.bytes ≤ C.maxExternalBytes

/-- **All or nothing, and lossless**, for every call of a run from an empty namespace: the unit of a
receipt is loaded and verified after whatever calls come next, and a call that raises leaves what can
be loaded as it was. -/
def AllOrNothing (calls : List Commit) : Prop :=
  ∀ before call later, calls = before ++ call :: later →
    ends (commitBytes P H floatOf C call)
      (fun receipt s' => ∀ next, next <+: later → ∀ t, t = after (commitBytes P H floatOf C) next s' →
        loadBytes P H floatOf C receipt.unitId none t = .ok call.rawOutput ∧
        verifyReceipt P H floatOf C receipt none t = .ok () ∧
        verifyReceipt P H floatOf C receipt (some call.context) t = .ok ())
      (fun _ s' => loadable P H floatOf C s' =
        loadable P H floatOf C (after (commitBytes P H floatOf C) before Store.empty))
      (after (commitBytes P H floatOf C) before Store.empty)

end

section

variable {P : Platform} {H : Host} {floatOf : Json.FloatOfText} {C : Config}

/-- Loading looks at nothing but the files. -/
theorem loadBytes_congr {unitId : PyStr} {expected : Option (List (PyKey × PyVal))} {s s' : Store}
    (hmanifs : s'.manifests = s.manifests) (hcas : s'.cas = s.cas) :
    loadBytes P H floatOf C unitId expected s' = loadBytes P H floatOf C unitId expected s := by
  have hchunk : loadChunk P H unitId s' = loadChunk P H unitId s := by
    funext chunk
    simp only [loadChunk, hcas]
  simp only [loadBytes, loadManifest, hmanifs, hchunk]

theorem planOf_ok {call : Commit} {s : Store} {plan : Plan} :
    planOf P H C call s = .ok plan ↔ unitName P (strip call.unitId) = .ok plan.name ∧
      pendingOf H C s.cas call.rawOutput = .ok plan.pending ∧
      manifestText P H C call = .ok plan.text := by
  obtain ⟨name, pending, text⟩ := plan
  simp only [planOf, bind_ok, pure_ok, Plan.mk.injEq]
  constructor
  · rintro ⟨name', hname, pending', hpend, text', htext, rfl, rfl, rfl⟩
    exact ⟨hname, hpend, htext⟩
  · rintro ⟨hname, hpend, htext⟩
    exact ⟨name, hname, pending, hpend, text, htext, rfl, rfl, rfl⟩

section

variable {chunks : Bytes → Prop} {call : Commit} {s : Store}

/-- The files of a plan are added to those of the store. -/
theorem extends_write {plan : Plan} (hplan : planOf P H C call s = .ok plan)
    (hnone : s.manifests.get? plan.name = none) : s.Extends (plan.write s) := by
  obtain ⟨-, hpend, -⟩ := planOf_ok.mp hplan
  constructor
  · intro name text hget
    have hne : plan.name ≠ name := by
      rintro rfl
      rw [hnone] at hget
      cases hget
    rw [Plan.write, Dict.get?_set_of_ne _ _ hne, hget]
  · intro digest file hget
    exact get?_written_of_get? hpend hget

/-- Behind the writes of a plan its unit is stored. -/
theorem stored_write (hH : H.FaithfulOn C.compressionLevel chunks) (hs : CasSound H C chunks s.cas)
    (hcall : ∀ raw ∈ chunksOf C.chunkBytes call.rawOutput, chunks raw) {plan : Plan}
    (hplan : planOf P H C call s = .ok plan) : Stored P H C call plan.text (plan.write s) := by
  obtain ⟨hname, hpend, htext⟩ := planOf_ok.mp hplan
  refine ⟨htext, ⟨plan.name, hname, ?_⟩, fun raw hraw => ?_⟩
  · rw [Plan.write, Dict.get?_set_self]
  · exact get?_written_chunk hH hs hcall hpend hraw

/-- **One commit**: the files only grow, a receipt is of a unit that is stored, and a call that raises
has written nothing. -/
theorem ends_commitBytes (hP : Json.PrintsFloats P) (hH : H.FaithfulOn C.compressionLevel chunks)
    (hcall : ∀ raw ∈ chunksOf C.chunkBytes call.rawOutput, chunks raw)
    (hs : CasSound H C chunks s.cas)
    (hctx : Writes P H C call s → Survives P floatOf call.context) :
    ends (commitBytes P H floatOf C call)
      (fun receipt s' => s.Extends s' ∧ CasSound H C chunks s'.cas ∧
        Survives P floatOf call.context ∧
        ∃ text, receipt = receiptOf P H C call text ∧ Stored P H C call text s')
      (fun _ s' => s'.manifests = s.manifests ∧ s'.cas = s.cas) s := by
  have hgzip : ∀ raw ∈ chunksOf C.chunkBytes call.rawOutput,
      H.decompress (H.compress C.compressionLevel raw) = some raw :=
    fun raw hraw => hH.decompress_compress raw (hcall raw hraw)
  simp only [commitBytes, ends_bind, ends_get]
  rw [ends_lift]
  refine ⟨fun plan hplan => ?_, fun e he => ⟨rfl, rfl⟩⟩
  obtain ⟨hname, hpend, htext⟩ := planOf_ok.mp hplan
  cases hget : s.manifests.get? plan.name with
  | some existing =>
    rw [ends_store_of_some hget]
    refine ⟨?_, fun _ => ⟨rfl, rfl⟩⟩
    -- the manifest is the one the call would write: the receipt is verified on what is there
    rintro rfl
    rw [ends_lift]
    refine ⟨fun _ hverify => ?_, fun e he => ⟨rfl, rfl⟩⟩
    obtain ⟨hstored, hsurv⟩ := stored_of_verifyReceipt hP hH hcall hs htext hname hget hverify
    exact ⟨Store.Extends.refl s, hs, hsurv, plan.text, rfl, hstored⟩
  | none =>
    rw [ends_store_of_none hget]
    refine ⟨fun hfits => ?_, fun _ => ⟨rfl, rfl⟩⟩
    have hsurv := hctx ⟨plan, hplan, hget, hfits⟩
    have hstored := stored_write hH hs hcall hplan
    have hverify := verifyReceipt_of_stored hP hgzip hstored
      (Or.inr (And.intro (Eq.refl (some call.context)) hsurv))
    rw [hverify, ends_lift_ok]
    exact ⟨extends_write hplan hget, hs.written hcall hpend, hsurv, plan.text, rfl,
      hstored⟩

end

/-! ## Runs -/

section Runs

variable {chunks : Bytes → Prop}

/-- The calls of a run from `s` that store a unit have contexts that survive. -/
def ContextsSurvive (P : Platform) (H : Host) (floatOf : Json.FloatOfText) (C : Config)
    (calls : List Commit) (s : Store) : Prop :=
  ∀ before call later, calls = before ++ call :: later →
    Writes P H C call (after (commitBytes P H floatOf C) before s) → Survives P floatOf call.context

theorem ContextsSurvive.tail {call : Commit} {calls : List Commit} {s : Store}
    (h : ContextsSurvive P H floatOf C (call :: calls) s) :
    ContextsSurvive P H floatOf C calls (left (commitBytes P H floatOf C call s)) := by
  intro before call' later heq hwrites
  exact h (call :: before) call' later (by rw [heq, cons_append]) hwrites

/-- **A run only adds files.** -/
theorem after_extends (hP : Json.PrintsFloats P) (hH : H.FaithfulOn C.compressionLevel chunks)
    {calls : List Commit}
    (hcalls : ∀ call ∈ calls, ∀ raw ∈ chunksOf C.chunkBytes call.rawOutput, chunks raw) {s : Store}
    (hs : CasSound H C chunks s.cas) (hcontexts : ContextsSurvive P H floatOf C calls s) :
    s.Extends (after (commitBytes P H floatOf C) calls s) ∧
      CasSound H C chunks (after (commitBytes P H floatOf C) calls s).cas := by
  induction calls generalizing s with
  | nil => exact ⟨Store.Extends.refl s, hs⟩
  | cons call calls ih =>
    have hstep : ends (commitBytes P H floatOf C call)
        (fun _ s' => s.Extends s' ∧ CasSound H C chunks s'.cas)
        (fun _ s' => s.Extends s' ∧ CasSound H C chunks s'.cas) s := by
      refine ends_mono ?_ ?_ (ends_commitBytes hP hH (hcalls call (by simp)) hs
        (hcontexts [] call calls rfl))
      · rintro receipt s' ⟨hext, hsound, -⟩
        exact ⟨hext, hsound⟩
      · rintro e s' ⟨hmanifs, hcas⟩
        refine ⟨⟨fun name text h => ?_, fun digest file h => ?_⟩, ?_⟩
        · rwa [hmanifs]
        · rwa [hcas]
        · rwa [hcas]
    obtain ⟨hext, hsound⟩ := ends_left (I := fun s' => s.Extends s' ∧
      CasSound H C chunks s'.cas) |>.mp hstep
    rw [after_cons]
    obtain ⟨hrest, hsound'⟩ := ih (fun call' hcall' => hcalls call' (mem_cons_of_mem _ hcall'))
      hsound hcontexts.tail
    exact ⟨hext.trans hrest, hsound'⟩

theorem ContextsSurvive.drop {before later : List Commit} {s : Store}
    (h : ContextsSurvive P H floatOf C (before ++ later) s) :
    ContextsSurvive P H floatOf C later (after (commitBytes P H floatOf C) before s) := by
  intro before' call later' heq hwrites
  refine h (before ++ before') call later' (by rw [heq, append_assoc]) ?_
  rwa [after_append]

theorem ContextsSurvive.take {before later : List Commit} {s : Store}
    (h : ContextsSurvive P H floatOf C (before ++ later) s) :
    ContextsSurvive P H floatOf C before s := by
  intro before' call later' heq hwrites
  exact h before' call (later' ++ later) (by rw [heq, append_assoc, cons_append]) hwrites

end Runs

end

/-! ## Concrete runs -/

namespace Reference

/-- `sha256(raw).digest()` as one number. -/
def digestBytes (raw : Bytes) : Nat :=
  let message := raw.foldl (fun n b => 256 * n + b.toNat) 0
  let blocks := (raw.length + 72) / 64
  Sha256.eager ((message * 256 + 128) * 256 ^ (64 * blocks - 1 - raw.length) + raw.length * 8)
    fun padded => Sha256.digestBlocks blocks padded
      0x6a09e667bb67ae853c6ef372a54ff53a510e527f9b05688c1f83d9ab5be0cd19

/-- `sha256(raw).hexdigest()`. -/
def sha256 (raw : Bytes) : HexDigest where
  text := Sha256.eager (digestBytes raw) fun x => Sha256.hexText x 64
  length_text := by rw [Sha256.eager_eq, Sha256.length_hexText]
  isHexDigit := by
    rw [Sha256.eager_eq]
    exact Sha256.isHexDigit_of_mem_hexText

/-- The output of the concrete commits. -/
def output : Bytes := [97, 98]

/-- `gzip.compress(b"ab", compresslevel=6, mtime=0)`. -/
def compressed : Bytes :=
  [31, 139, 8, 0, 0, 0, 0, 0, 0, 3, 75, 76, 2, 0, 109, 72, 131, 158, 2, 0, 0, 0]

/-- The host of concrete runs, on the output that they commit. -/
def host : Host where
  sha256 := sha256
  compress _ raw := if raw = output then compressed else 31 :: raw
  decompress raw := if raw = compressed then some output else raw.tail?
  intOf _ := .error .typeError
  jsonErrorText _ := []

/-- A namespace with chunks of four bytes. -/
def config : Config where
  namespaceText := py "demo"
  maxExternalBytes := 65536
  chunkBytes := 4
  compressionLevel := 6
  maxExternalBytes_pos := by decide
  chunkBytes_pos := by decide
  compressionLevel_le := by decide

/-- No context of a concrete run holds a float. -/
def floatOf : Json.FloatOfText := fun _ => .nan

/-- A commit of the output for a unit with a context. -/
def commit (unitId : String) (context : List (PyKey × PyVal)) : Commit where
  unitId := py unitId
  rawOutput := output
  logicalOutputSha256 := py "logical"
  context := context
  manifestSchema := py "ovc-external-artifact-manifest/v1"

theorem printsFloats : Json.PrintsFloats .reference := by
  intro negative mantissa exponent t h
  cases h

theorem eq_output_of_chunkOf {calls : List Commit} (hcalls : ∀ call ∈ calls, call.rawOutput = output)
    {raw : Bytes} (h : ChunkOf config calls raw) : raw = output := by
  obtain ⟨call, hcall, hraw⟩ := h
  have hchunks : chunksOf config.chunkBytes output = [output] := by decide +kernel
  rw [hcalls call hcall, hchunks] at hraw
  exact mem_singleton.mp hraw

theorem faithfulOn {calls : List Commit} (hcalls : ∀ call ∈ calls, call.rawOutput = output) :
    host.FaithfulOn config.compressionLevel (ChunkOf config calls) := by
  constructor
  · intro raw hraw
    rw [eq_output_of_chunkOf hcalls hraw]
    decide +kernel
  · intro raw raw' hraw hraw' _
    rw [eq_output_of_chunkOf hcalls hraw, eq_output_of_chunkOf hcalls hraw']

/-- The contexts of concrete runs, checked by evaluation. -/
def survives (context : List (PyKey × PyVal)) : Bool :=
  (Json.dumps Platform.reference (.dict context)).toOption.all fun tree =>
    (tree.value floatOf).pyEq (.dict context)

theorem survives_of_eq_true {context : List (PyKey × PyVal)} (h : survives context = true) :
    Survives .reference floatOf context := by
  intro tree htree
  rw [survives, htree] at h
  exact h

/-- Two units with one output. -/
def calls : List Commit :=
  [commit "first" [(.str (py "run"), .int 1)], commit "second" [(.str (py "run"), .int 2)]]

end Reference

/-- A commit with a tuple in its context. -/
def Reference.tupleCommit : Commit :=
  commit "first" [(.str (py "shape"), .tuple [.int 1])]

/-- The unit `first` can be loaded. -/
def Reference.firstIsLoaded (s : Store) : Bool :=
  (loadable .reference host floatOf config s (py "first")).isSome

/-- A first call that raises leaves what can be loaded from nothing. -/
theorem AllOrNothing.loadable_eq {P : Platform} {H : Host} {floatOf : Json.FloatOfText} {C : Config}
    {call : Commit} (h : AllOrNothing P H floatOf C [call]) (e : StoreError) (s : Store)
    (hrun : commitBytes P H floatOf C call Store.empty = .error e s) :
    loadable P H floatOf C s = loadable P H floatOf C Store.empty := by
  have hends := h [] call [] rfl
  rw [after_nil] at hends
  unfold ends at hends
  rw [hrun] at hends
  exact hends

/-- The state a raise leaves. -/
def raised? {ε σ α : Type} : EStateM.Result ε σ α → Option σ
  | .ok _ _ => none
  | .error _ s => some s

end OvcReplay.EvidenceStore
