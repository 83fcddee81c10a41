import OvcReplay.Python.Raising
import OvcReplay.Json.Values
import OvcReplay.Srfd.DistanceSymmetry

/-! # Run tokens

`RunAuthorityStore` of `wp10_execution_resilience.py`: a token starts one run, and the receipt of
the start is a file that is named by the token. Two ids that differ only in `/` and `_` have one
file. -/

namespace OvcReplay.Srfd.Resilience

open List Python Json Raising
open Srfd.Distance (textRecord textOf)

/-! ## Bindings -/

/-- What the modules of the execution raise. -/
inductive ResilienceError where
  /-- `ExecutionResilienceError(reason_code, detail)`. -/
  | execution (reasonCode detail : PyStr)
  /-- The file system refuses a name. -/
  | system
  | other (e : Error)
  deriving DecidableEq

/-- An error whose texts are literals of the source. -/
abbrev refused (reasonCode detail : String) : ResilienceError :=
  .execution (py reasonCode) (py detail)

/-- A hexadecimal digit of lower case. -/
def isHex (c : CodePoint) : Bool :=
  (Nat.ble 48 c.val && Nat.ble c.val 57) || (Nat.ble 97 c.val && Nat.ble c.val 102)

/-- `_hex64` of a text. No letter outside ASCII has a hexadecimal digit as its lower case. -/
def hex64 (value field : PyStr) : Except ResilienceError PyStr := do
  let text := (strip value).map CodePoint.lowerAscii
  check (text.length = 64 ∧ text.all isHex = true)
    (.execution (py "RESILIENCE_BINDING_INVALID") (field ++ py " must be lowercase sha256"))
  return text

/-- `RunBinding`: its ids, and the hashes by the names of their fields. -/
structure RunBinding where
  programmeId : PyStr
  packetId : PyStr
  populationId : PyStr
  eligibleIdsSha256 : PyStr
  scientificManifestSha256 : PyStr
  preregistrationSha256 : PyStr
  representationPackSha256 : PyStr
  segmentationPackSha256 : PyStr
  stabilityPackSha256 : PyStr
  sourceBindingSha256 : PyStr
  capacityGridSha256 : PyStr
  implementationCommit : PyStr
  deriving DecidableEq

/-- The ids of a binding. -/
def RunBinding.ids (b : RunBinding) : List (PyStr × PyStr) :=
  [(py "programme_id", b.programmeId), (py "packet_id", b.packetId),
    (py "population_id", b.populationId)]

/-- The hashes of a binding. -/
def RunBinding.hashes (b : RunBinding) : List (PyStr × PyStr) :=
  [(py "eligible_ids_sha256", b.eligibleIdsSha256),
    (py "scientific_manifest_sha256", b.scientificManifestSha256),
    (py "preregistration_sha256", b.preregistrationSha256),
    (py "representation_pack_sha256", b.representationPackSha256),
    (py "segmentation_pack_sha256", b.segmentationPackSha256),
    (py "stability_pack_sha256", b.stabilityPackSha256),
    (py "source_binding_sha256", b.sourceBindingSha256),
    (py "capacity_grid_sha256", b.capacityGridSha256),
    (py "implementation_commit", b.implementationCommit)]

/-- `RunBinding.to_dict`. -/
def RunBinding.toDict (b : RunBinding) : Except ResilienceError Record := do
  let hashes ← b.hashes.mapM fun p => (hex64 p.2 p.1).map fun text => (p.1, text)
  check (∀ p ∈ b.ids, strip p.2 ≠ []) (refused "RESILIENCE_BINDING_INVALID"
    "programme, packet and population IDs are required")
  return textRecord (b.ids ++ hashes)

variable (P : Platform)

/-- `RunBinding.logical_hash`. -/
def RunBinding.logicalHash (b : RunBinding) : Except ResilienceError PyStr := do
  let payload ← b.toDict
  (logicalSha256 P (.ofRecord payload)).mapError .other

/-! ## The store of tokens -/

/-- What the store takes from the machine. -/
structure Host where
  /-- The file system takes a file of this name. -/
  takes : PyStr → Bool
  /-- `str(exc)` of what `json.loads` raises for a text. -/
  jsonErrorText : PyStr → PyStr

/-- The files of `consumption`, by their names. -/
abbrev Files : Type := Dict PyStr PyStr

/-- `RunStartReceipt`. -/
structure RunStartReceipt where
  runId : PyStr
  tokenId : PyStr
  runBindingSha256 : PyStr
  consumptionId : PyStr
  state : PyStr := py "CONSUMED_FOR_RUN"
  deriving DecidableEq

/-- The fields of a receipt. -/
def RunStartReceipt.texts (r : RunStartReceipt) : List (PyStr × PyStr) :=
  [(py "run_id", r.runId), (py "token_id", r.tokenId),
    (py "run_binding_sha256", r.runBindingSha256), (py "consumption_id", r.consumptionId),
    (py "state", r.state)]

/-- `_path`: every `/` of the id is written as `_`. -/
def fileName (tokenId : PyStr) : PyStr :=
  (tokenId.map fun c => if c = .ofChar '/' then .ofChar '_' else c) ++ py ".json"

/-- The token and the hash, which the run is named by. -/
def core (tokenId hash : PyStr) : List (PyStr × PyStr) :=
  [(py "token_id", tokenId), (py "run_binding_sha256", hash)]

/-- `stable_id("SRFD.RUN.", core)`. -/
def runIdOf (tokenId hash : PyStr) : Except ResilienceError PyStr :=
  (stableId P "SRFD.RUN." (textRecord (core tokenId hash))).mapError .other

/-- `stable_id("SRFD.TOKEN.CONSUMPTION.", {**core, "run_id": run_id})`. -/
def consumptionIdOf (tokenId hash runId : PyStr) : Except ResilienceError PyStr :=
  (stableId P "SRFD.TOKEN.CONSUMPTION."
    (textRecord (core tokenId hash ++ [(py "run_id", runId)]))).mapError .other

/-- The text of the file of a receipt. -/
def receiptText (r : RunStartReceipt) : Except ResilienceError PyStr := do
  let payload := r.texts ++ [(py "schema", py "ovc-srfd-run-start-receipt/v1")]
  let data ← (canonicalJsonBytes P (.ofRecord (textRecord payload))).mapError
    fun e => .other (.python e)
  return data ++ py "\n"

variable (H : Host) (floatOf : FloatOfText)

/-- `str(data.get(k, ""))`. -/
def textField (data : PyVal) (k : String) : Except ResilienceError PyStr := do
  check (data.isMapping = true) (.other (.python .attributeError))
  (PyVal.strOf P ((data.get? (py k)).getD (.str []))).mapError fun e => .other (.python e)

/-- The receipt of a file, checked against its own ids. -/
def readReceipt (text : PyStr) : Except ResilienceError RunStartReceipt :=
  match parse text with
  | .error _ => .error (.execution (py "TOKEN_CONSUMPTION_CORRUPT") (H.jsonErrorText text))
  | .ok tree => do
    let data := tree.value floatOf
    let runId ← textField P data "run_id"
    let tokenId ← textField P data "token_id"
    let hash ← textField P data "run_binding_sha256"
    let consumptionId ← textField P data "consumption_id"
    let state ← textField P data "state"
    let expectedRun ← runIdOf P tokenId hash
    let expectedConsumption ← consumptionIdOf P tokenId hash expectedRun
    check (state = py "CONSUMED_FOR_RUN" ∧ runId = expectedRun ∧
      consumptionId = expectedConsumption)
      (refused "TOKEN_CONSUMPTION_CORRUPT" "start receipt identity mismatch")
    return ⟨runId, tokenId, hash, consumptionId, state⟩

/-- **`RunAuthorityStore.load`.** -/
def load (files : Files) (tokenId : PyStr) : Except ResilienceError RunStartReceipt :=
  match files.get? (fileName tokenId) with
  | none => .error (refused "TOKEN_NOT_CONSUMED" "no start receipt exists")
  | some text => readReceipt P H floatOf text

/-- What `consume` checks before it looks for a file: the id of a token that may be started, and the
hash of the binding that it names. -/
def admission (token : Record) (binding : RunBinding) : Except ResilienceError (PyStr × PyStr) := do
  let tokenText ← (PyVal.strOf P ((token.get? (py "token_id")).getD (.str []))).mapError
    fun e => .other (.python e)
  check (strip tokenText ≠ []) (refused "TOKEN_INVALID" "token_id required")
  check (token.get? (py "state") = some (.str (py "AUTHORIZED_UNCONSUMED")))
    (refused "TOKEN_NOT_STARTABLE" "token must be AUTHORIZED_UNCONSUMED")
  let bound ← (PyVal.strOf P ((token.get? (py "run_binding_sha256")).getD
    (.str []))).mapError fun e => .other (.python e)
  let hash ← binding.logicalHash P
  check (bound = hash) (refused "TOKEN_BINDING_MISMATCH" "token does not bind exact run inputs")
  return (strip tokenText, hash)

/-- The receipt of a start. -/
def receiptOf (tokenId hash : PyStr) : Except ResilienceError RunStartReceipt := do
  let runId ← runIdOf P tokenId hash
  let consumptionId ← consumptionIdOf P tokenId hash runId
  return { runId, tokenId, runBindingSha256 := hash, consumptionId }

/-- `consume` behind its checks: the receipt is written and read back. -/
def start (tokenId hash : PyStr) : Raising ResilienceError Files RunStartReceipt := do
  let receipt ← lift (receiptOf P tokenId hash)
  let text ← lift (receiptText P receipt)
  require (H.takes (fileName tokenId) = true) .system
  modify fun files => files.set (fileName tokenId) text
  let files ← get
  let loaded ← lift (load P H floatOf files tokenId)
  require (loaded = receipt)
    (refused "TOKEN_CONSUMPTION_COMMIT_FAILURE" "start receipt did not round-trip")
  return receipt

/-- **`RunAuthorityStore.consume`.** -/
def consume (token : Record) (binding : RunBinding) :
    Raising ResilienceError Files RunStartReceipt := do
  let (tokenId, hash) ← lift (admission P token binding)
  let files ← get
  require (files.get? (fileName tokenId) = none)
    (refused "TOKEN_ALREADY_CONSUMED" "token already has a start receipt")
  start P H floatOf tokenId hash

/-! ## Runs of calls -/

/-- A call of the store. -/
inductive Call where
  | consume (token : Record) (binding : RunBinding)
  | load (tokenId : PyStr)
  deriving DecidableEq

/-- The answer to a call, and the files behind it. -/
def answer (files : Files) : Call → Except ResilienceError RunStartReceipt × Files
  | .consume token binding =>
    match consume P H floatOf token binding files with
    | .ok receipt files' => (.ok receipt, files')
    | .error e files' => (.error e, files')
  | .load tokenId => (load P H floatOf files tokenId, files)

/-- A call of a run with its answer, and the receipts of the tokens that were consumed before. -/
structure Step where
  earlier : List RunStartReceipt
  call : Call
  result : Except ResilienceError RunStartReceipt

/-- The receipt of a token that a call consumed. -/
def accepted : Call → Except ResilienceError RunStartReceipt → List RunStartReceipt
  | .consume .., .ok receipt => [receipt]
  | _, _ => []

/-- The steps of a run of calls. -/
def steps (files : Files) (earlier : List RunStartReceipt) : List Call → List Step
  | [] => []
  | call :: calls =>
    let (result, files') := answer P H floatOf files call
    ⟨earlier, call, result⟩ :: steps files' (earlier ++ accepted call result) calls

/-- **A step is independent of other tokens**: a startable token is accepted iff none of its id was
consumed before, and its receipt is its own; and what is loaded is the receipt of the id, if there
is one. -/
def Independent (s : Step) : Prop :=
  match s.call with
  | .consume token binding =>
    (∀ receipt, s.result = .ok receipt → ∃ tokenId hash,
      admission P token binding = .ok (tokenId, hash) ∧ receiptOf P tokenId hash = .ok receipt) ∧
    ∀ tokenId hash, admission P token binding = .ok (tokenId, hash) →
      (Returns s.result ↔ ∀ r ∈ s.earlier, r.tokenId ≠ tokenId)
  | .load tokenId =>
    ∀ receipt, s.result = .ok receipt ↔ receipt ∈ s.earlier ∧ receipt.tokenId = tokenId

/-- No other id that was consumed has the file of this one. -/
def Alone (earlier : List RunStartReceipt) (tokenId : PyStr) : Prop :=
  ∀ r ∈ earlier, fileName r.tokenId = fileName tokenId → r.tokenId = tokenId

/-- **The id of a step has a file of its own**; and the id of a startable token can be encoded, and
the file system takes the name of its file. -/
def HasOwnFile (s : Step) : Prop :=
  match s.call with
  | .consume token binding =>
    ∀ tokenId hash, admission P token binding = .ok (tokenId, hash) →
      Encodable tokenId ∧ H.takes (fileName tokenId) = true ∧ Alone s.earlier tokenId
  | .load tokenId => Alone s.earlier tokenId

/-! ## What is written is read -/

section

variable {P H floatOf}

/-- The id of a record of texts, none of which is a diagnostic. -/
theorem stableId_textRecord {pre : String} {texts : List (PyStr × PyStr)} {id : PyStr}
    (h : ∀ p ∈ texts, isDiagnostic (.str p.1) = false) :
    stableId P pre (textRecord texts) = .ok id ↔ (∀ p ∈ texts, Encodable p.1 ∧ Encodable p.2) ∧
        py pre ++ (P.sha256 (textOf texts)).text = id := by
  rw [stableId, Srfd.Distance.identityPayload_textRecord h,
    Srfd.Distance.logicalSha256_textRecord, ← Srfd.Distance.encodable_textOf]
  split_ifs with henc
  · simp [henc, Except.map]
  · simp [henc, Except.map]

variable {tokenId hash : PyStr}

theorem runIdOf_ok {runId : PyStr} :
    runIdOf P tokenId hash = .ok runId ↔ (Encodable tokenId ∧ Encodable hash) ∧
      py "SRFD.RUN." ++ (P.sha256 (textOf (core tokenId hash))).text = runId := by
  have hkeys : ∀ p ∈ core tokenId hash, isDiagnostic (.str p.1) = false := by
    simp only [core, forall_mem_cons]
    exact ⟨by decide +kernel, by decide +kernel, by simp⟩
  rw [runIdOf, mapError_ok, stableId_textRecord hkeys]
  simp [core]

theorem consumptionIdOf_ok {runId consumptionId : PyStr} :
    consumptionIdOf P tokenId hash runId = .ok consumptionId ↔
      (Encodable tokenId ∧ Encodable hash ∧ Encodable runId) ∧ py "SRFD.TOKEN.CONSUMPTION." ++
          (P.sha256 (textOf (core tokenId hash ++ [(py "run_id", runId)]))).text =
            consumptionId := by
  have hkeys : ∀ p ∈ core tokenId hash ++ [(py "run_id", runId)],
      isDiagnostic (.str p.1) = false := by
    simp only [core, cons_append, nil_append, forall_mem_cons]
    exact ⟨by decide +kernel, by decide +kernel, by decide +kernel, by simp⟩
  rw [consumptionIdOf, mapError_ok, stableId_textRecord hkeys]
  simp [core]

/-- The hash of a binding can be encoded. -/
theorem encodable_logicalHash {b : RunBinding} (h : b.logicalHash P = .ok hash) :
    Encodable hash := by
  obtain ⟨payload, -, h⟩ := bind_ok.mp h
  obtain ⟨text, -, rfl⟩ := map_ok.mp (mapError_ok.mp (mapError_ok.mp h))
  exact (P.sha256 text).encodable

variable {r : RunStartReceipt}

/-- The parts of a receipt. -/
theorem receiptOf_ok :
    receiptOf P tokenId hash = .ok r ↔ ∃ runId consumptionId, runIdOf P tokenId hash = .ok runId ∧
      consumptionIdOf P tokenId hash runId = .ok consumptionId ∧
      r = { runId, tokenId, runBindingSha256 := hash, consumptionId } := by
  simp only [receiptOf, bind_ok, pure_ok]
  constructor
  · rintro ⟨runId, hrun, consumptionId, hcons, rfl⟩
    exact ⟨runId, consumptionId, hrun, hcons, rfl⟩
  · rintro ⟨runId, consumptionId, hrun, hcons, rfl⟩
    exact ⟨runId, hrun, consumptionId, hcons, rfl⟩

theorem tokenId_of_receiptOf (h : receiptOf P tokenId hash = .ok r) : r.tokenId = tokenId := by
  obtain ⟨runId, consumptionId, -, -, rfl⟩ := receiptOf_ok.mp h
  rfl

/-- **A token has a receipt iff its id can be encoded.** -/
theorem returns_receiptOf (hhash : Encodable hash) :
    Returns (receiptOf P tokenId hash) ↔ Encodable tokenId := by
  constructor
  · rintro ⟨r, h⟩
    obtain ⟨runId, consumptionId, hrun, -, -⟩ := receiptOf_ok.mp h
    exact (runIdOf_ok.mp hrun).1.1
  · intro h
    refine ⟨_, receiptOf_ok.mpr ⟨_, _, runIdOf_ok.mpr ⟨⟨h, hhash⟩, rfl⟩,
      consumptionIdOf_ok.mpr ⟨⟨h, hhash, ?_⟩, rfl⟩, rfl⟩⟩
    exact encodable_append.mpr ⟨encodable_py _, (P.sha256 _).encodable⟩

/-- The fields of the file of a receipt. -/
def fileTexts (r : RunStartReceipt) : List (PyStr × PyStr) :=
  r.texts ++ [(py "schema", py "ovc-srfd-run-start-receipt/v1")]

theorem nodup_fileTexts (r : RunStartReceipt) : (Dict.keys (textRecord (fileTexts r))).Nodup := by
  simp [fileTexts, RunStartReceipt.texts, textRecord, Dict.keys]

theorem receiptText_ok {text : PyStr} : receiptText P r = .ok text ↔
      (∀ p ∈ fileTexts r, Encodable p.1 ∧ Encodable p.2) ∧
        text = textOf (fileTexts r) ++ py "\n" := by
  have hbytes : canonicalJsonBytes P (.ofRecord (textRecord (fileTexts r))) =
      encodeUtf8 (textOf (fileTexts r)) := by
    rw [canonicalJsonBytes, Srfd.Distance.canonical_textRecord]
    simp only [bind, Except.bind, Srfd.Distance.dumps_textRecord]
    rfl
  simp only [receiptText, bind_ok, mapError_ok]
  rw [← fileTexts, hbytes]
  simp only [encodeUtf8_ok, Srfd.Distance.encodable_textOf, pure_ok]
  constructor
  · rintro ⟨data, ⟨h, rfl⟩, rfl⟩
    exact ⟨h, rfl⟩
  · rintro ⟨h, rfl⟩
    exact ⟨_, ⟨h, rfl⟩, rfl⟩

/-- The file of a receipt is made. -/
theorem returns_receiptText (h : receiptOf P tokenId hash = .ok r) : Returns (receiptText P r) := by
  obtain ⟨runId, consumptionId, hrun, hcons, rfl⟩ := receiptOf_ok.mp h
  obtain ⟨⟨htoken, hhash, hrunId⟩, rfl⟩ := consumptionIdOf_ok.mp hcons
  refine ⟨_, receiptText_ok.mpr ⟨?_, rfl⟩⟩
  simp [fileTexts, RunStartReceipt.texts, htoken, hhash, hrunId, (P.sha256 _).encodable]

/-- A field of a file is read. -/
theorem textField_of_textRecord {texts : List (PyStr × PyStr)} {j : Json} {k : String} {s : PyStr}
    (hkeys : (Dict.keys (textRecord texts)).Nodup)
    (h : dumps P (.ofRecord (textRecord texts)) = .ok j)
    (hs : Dict.get? (textRecord texts) (py k) = some (.str s)) :
    textField P (j.value floatOf) k = .ok s := by
  obtain ⟨w, hw, hget⟩ := get?_value_of_dumpsWith floatOf hkeys h hs
  obtain ⟨members, rfl⟩ := exists_members_of_dumpsWith h
  have hmapping : ((Json.obj members).value floatOf).isMapping = true := by rw [value]; rfl
  rw [textField, hget, value_of_dumpsWith_str hw]
  exact bind_ok.mpr ⟨(), check_ok.mpr hmapping, rfl⟩

/-- **The file of a start is read as its receipt.** -/
theorem readReceipt_of_receiptText {text : PyStr}
    (h : receiptOf P tokenId hash = .ok r) (htext : receiptText P r = .ok text) :
    readReceipt P H floatOf text = .ok r := by
  obtain ⟨-, rfl⟩ := receiptText_ok.mp htext
  have hdumps := Srfd.Distance.dumps_textRecord (P := P) (fileTexts r)
  set j := Json.obj ((sortedBy Prod.fst (fileTexts r)).map fun p => (p.1, .str p.2)) with hj
  have hfree : (PyVal.ofRecord (textRecord (fileTexts r))).FloatFree := by
    refine floatFree_ofRecord.mpr fun p hp => ?_
    obtain ⟨q, -, rfl⟩ := mem_map.mp hp
    exact .str q.2
  have hparse : parse (textOf (fileTexts r) ++ py "\n") = .ok j := by
    refine (plain_of_dumpsWith hfree hdumps).legible.parse_render_append rfl ?_
    exact numberEnd_cons (c := .ofChar '\n') (t := []) (by decide +kernel) (by decide +kernel)
  have hfield : ∀ {k : String} {s : PyStr},
      Dict.get? (textRecord (fileTexts r)) (py k) = some (.str s) →
      textField P (j.value floatOf) k = .ok s :=
    fun hs => textField_of_textRecord (nodup_fileTexts r) hdumps hs
  obtain ⟨runId, consumptionId, hrun, hcons, rfl⟩ := receiptOf_ok.mp h
  rw [readReceipt, hparse]
  dsimp only
  refine bind_intro (hfield ?_) (bind_ok.mpr ⟨tokenId, hfield ?_,
    bind_ok.mpr ⟨hash, hfield ?_, bind_ok.mpr ⟨consumptionId, hfield ?_,
      bind_ok.mpr ⟨py "CONSUMED_FOR_RUN", hfield ?_, bind_ok.mpr ⟨runId, hrun,
        bind_ok.mpr ⟨consumptionId, hcons, bind_ok.mpr
          ⟨(), check_ok.mpr ⟨rfl, rfl, rfl⟩, rfl⟩⟩⟩⟩⟩⟩⟩)
  all_goals simp [fileTexts, RunStartReceipt.texts, textRecord]

end

/-! ## One call -/

section

variable {P H floatOf} {files : Files} {token : Record} {binding : RunBinding}
  {tokenId hash : PyStr}

theorem consume_of_error {e : ResilienceError} (h : admission P token binding = .error e) :
    consume P H floatOf token binding files = .error e files := by
  rw [consume, h]
  rfl

theorem consume_of_taken {text : PyStr} (h : admission P token binding = .ok (tokenId, hash))
    (hfile : files.get? (fileName tokenId) = some text) :
    ∃ e, consume P H floatOf token binding files = .error e files := by
  refine ⟨refused "TOKEN_ALREADY_CONSUMED" "token already has a start receipt", ?_⟩
  rw [consume, h]
  show (require (files.get? (fileName tokenId) = none) _ >>= _ : Raising _ _ _) files = _
  rw [hfile, require, if_neg (by simp)]
  rfl

theorem consume_of_free (h : admission P token binding = .ok (tokenId, hash))
    (hfile : files.get? (fileName tokenId) = none) :
    consume P H floatOf token binding files = start P H floatOf tokenId hash files := by
  rw [consume, h]
  show (require (files.get? (fileName tokenId) = none) _ >>= _ : Raising _ _ _) files = _
  rw [hfile, require, if_pos rfl]
  rfl

/-- **A start writes the receipt**, which is read from its file. -/
theorem start_ok {receipt : RunStartReceipt} (hrcpt : receiptOf P tokenId hash = .ok receipt)
    (htakes : H.takes (fileName tokenId) = true) :
    ∃ text, readReceipt P H floatOf text = .ok receipt ∧ start P H floatOf tokenId hash files =
        .ok receipt (files.set (fileName tokenId) text) := by
  obtain ⟨text, htext⟩ := returns_receiptText hrcpt
  have hread : readReceipt P H floatOf text = .ok receipt :=
    readReceipt_of_receiptText hrcpt htext
  have hload : load P H floatOf (files.set (fileName tokenId) text) tokenId = .ok receipt := by
    rw [load, Dict.get?_set_self]
    exact hread
  refine ⟨text, hread, ?_⟩
  rw [start, hrcpt]
  show (lift (receiptText P receipt) >>= _ : Raising _ _ _) files = _
  rw [htext, require, if_pos htakes]
  show (lift (load P H floatOf (files.set (fileName tokenId) text) tokenId) >>= _ :
    Raising _ _ _) (files.set (fileName tokenId) text) = _
  rw [hload]
  show (require (receipt = receipt) _ >>= _ : Raising _ _ _) _ = _
  rw [require, if_pos rfl]
  rfl

/-- An id that cannot be encoded, or whose file is refused, is not started. -/
theorem start_eq_error (h : ¬ (Returns (receiptOf P tokenId hash) ∧
    H.takes (fileName tokenId) = true)) :
    ∃ e, start P H floatOf tokenId hash files = .error e files := by
  cases hrcpt : receiptOf P tokenId hash with
  | error e =>
    refine ⟨e, ?_⟩
    rw [start, hrcpt]
    rfl
  | ok receipt =>
    have htakes : ¬ H.takes (fileName tokenId) = true := fun ht => h ⟨⟨receipt, hrcpt⟩, ht⟩
    obtain ⟨text, htext⟩ := returns_receiptText hrcpt
    refine ⟨.system, ?_⟩
    rw [start, hrcpt]
    show (lift (receiptText P receipt) >>= _ : Raising _ _ _) files = _
    rw [htext, require, if_neg htakes]
    rfl

theorem encodable_of_admission (h : admission P token binding = .ok (tokenId, hash)) :
    Encodable hash := by
  obtain ⟨tokenText, -, h⟩ := bind_ok.mp h
  obtain ⟨-, -, h⟩ := bind_ok.mp h
  obtain ⟨-, -, h⟩ := bind_ok.mp h
  obtain ⟨bound, -, h⟩ := bind_ok.mp h
  obtain ⟨hash', hhash, h⟩ := bind_ok.mp h
  obtain ⟨-, -, h⟩ := bind_ok.mp h
  obtain ⟨-, rfl⟩ := Prod.mk.inj (Except.ok.inj h)
  exact encodable_logicalHash hhash

end

/-! ## Runs -/

/-- **The files are those of the receipts** that were given out. -/
structure FilesOf (P : Platform) (H : Host) (floatOf : FloatOfText) (files : Files)
    (earlier : List RunStartReceipt) : Prop where
  read : ∀ name text, files.get? name = some text →
    ∃ r ∈ earlier, fileName r.tokenId = name ∧ readReceipt P H floatOf text = .ok r
  kept : ∀ r ∈ earlier, ∃ text, files.get? (fileName r.tokenId) = some text ∧
    readReceipt P H floatOf text = .ok r
  fits : ∀ r ∈ earlier, Encodable r.tokenId ∧ H.takes (fileName r.tokenId) = true

section

variable {P H floatOf} {files : Files} {earlier : List RunStartReceipt}

/-- A file has one receipt. -/
theorem FilesOf.unique (hfiles : FilesOf P H floatOf files earlier) {r s : RunStartReceipt}
    (hr : r ∈ earlier) (hs : s ∈ earlier) (hname : fileName r.tokenId = fileName s.tokenId) :
    r = s := by
  obtain ⟨text, htext, hread⟩ := hfiles.kept r hr
  obtain ⟨text', htext', hread'⟩ := hfiles.kept s hs
  rw [hname, htext', Option.some.injEq] at htext
  subst htext
  rw [hread, Except.ok.injEq] at hread'
  exact hread'

/-- Where there is no file, no token of that file was consumed. -/
theorem FilesOf.fileName_ne (hfiles : FilesOf P H floatOf files earlier) {tokenId : PyStr}
    (hfile : files.get? (fileName tokenId) = none) {r : RunStartReceipt} (hr : r ∈ earlier) :
    fileName r.tokenId ≠ fileName tokenId := by
  intro hname
  obtain ⟨text, htext, -⟩ := hfiles.kept r hr
  rw [hname, hfile] at htext
  exact absurd htext (by simp)

/-- A start adds its receipt. -/
theorem FilesOf.set (hfiles : FilesOf P H floatOf files earlier) {tokenId text : PyStr}
    (hfile : files.get? (fileName tokenId) = none) {receipt : RunStartReceipt}
    (hid : receipt.tokenId = tokenId) (hread : readReceipt P H floatOf text = .ok receipt)
    (hfits : Encodable tokenId ∧ H.takes (fileName tokenId) = true) :
    FilesOf P H floatOf (files.set (fileName tokenId) text) (earlier ++ [receipt]) := by
  refine ⟨?_, ?_, ?_⟩
  · intro name written hget
    rw [Dict.get?_set] at hget
    split_ifs at hget with hname
    · cases hget
      exact ⟨receipt, by simp, by rw [hid, hname], hread⟩
    · obtain ⟨r, hr, hrest⟩ := hfiles.read name written hget
      exact ⟨r, mem_append_left _ hr, hrest⟩
  · intro r hr
    rcases mem_append.mp hr with hr | hr
    · obtain ⟨written, hget, hreads⟩ := hfiles.kept r hr
      refine ⟨written, ?_, hreads⟩
      rw [Dict.get?_set_of_ne files text (hfiles.fileName_ne hfile hr).symm]
      exact hget
    · obtain rfl := mem_singleton.mp hr
      exact ⟨text, by rw [hid, Dict.get?_set_self], hread⟩
  · intro r hr
    rcases mem_append.mp hr with hr | hr
    · exact hfiles.fits r hr
    · obtain rfl := mem_singleton.mp hr
      exact hid.symm ▸ hfits

/-- **A load is independent of other tokens iff its id has a file of its own.** -/
theorem load_iff (hfiles : FilesOf P H floatOf files earlier) (tokenId : PyStr) :
    Independent P ⟨earlier, .load tokenId, load P H floatOf files tokenId⟩ ↔
      HasOwnFile P H ⟨earlier, .load tokenId, load P H floatOf files tokenId⟩ := by
  show (∀ receipt, load P H floatOf files tokenId = .ok receipt ↔
    receipt ∈ earlier ∧ receipt.tokenId = tokenId) ↔ Alone earlier tokenId
  cases hfile : files.get? (fileName tokenId) with
  | none =>
    rw [load, hfile]
    refine iff_of_true (fun receipt => iff_of_false (by simp) ?_) fun r hr hname => ?_
    · rintro ⟨hr, rfl⟩
      exact hfiles.fileName_ne hfile hr rfl
    · exact absurd hname (hfiles.fileName_ne hfile hr)
  | some text =>
    obtain ⟨r, hr, hname, hread⟩ := hfiles.read _ _ hfile
    rw [load, hfile]
    simp only [hread, Except.ok.injEq]
    constructor
    · intro h s hs hs'
      obtain rfl := hfiles.unique hs hr (hs'.trans hname.symm)
      exact ((h s).mp rfl).2
    · intro h receipt
      constructor
      · rintro rfl
        exact ⟨hr, h r hr hname⟩
      · rintro ⟨hrcpt, rfl⟩
        exact hfiles.unique hr hrcpt hname

variable {result : Except ResilienceError RunStartReceipt}

/-- **What is to hold of a token that may be started.** -/
theorem consume_laws {token : Record} {binding : RunBinding} {tokenId hash : PyStr}
    (h : admission P token binding = .ok (tokenId, hash)) :
    (Independent P ⟨earlier, .consume token binding, result⟩ ↔
      (∀ receipt, result = .ok receipt → receiptOf P tokenId hash = .ok receipt) ∧
        (Returns result ↔ ∀ r ∈ earlier, r.tokenId ≠ tokenId)) ∧
    (HasOwnFile P H ⟨earlier, .consume token binding, result⟩ ↔
      Encodable tokenId ∧ H.takes (fileName tokenId) = true ∧ Alone earlier tokenId) := by
  simp [Independent, HasOwnFile, h]

/-- **A consumption is independent of other tokens iff its id has a file of its own**, and the
files stay those of the receipts. -/
theorem consume_iff (hfiles : FilesOf P H floatOf files earlier) (token : Record)
    (binding : RunBinding) {files' : Files}
    (h : answer P H floatOf files (.consume token binding) = (result, files')) :
    FilesOf P H floatOf files' (earlier ++ accepted (.consume token binding) result) ∧
      (Independent P ⟨earlier, .consume token binding, result⟩ ↔
        HasOwnFile P H ⟨earlier, .consume token binding, result⟩) := by
  have hrejected : ∀ {e}, FilesOf P H floatOf files
      (earlier ++ accepted (.consume token binding) (.error e)) := by
    intro e
    show FilesOf P H floatOf files (earlier ++ [])
    rwa [append_nil]
  cases hadmission : admission P token binding with
  | error e =>
    rw [answer, consume_of_error hadmission] at h
    cases h
    exact ⟨hrejected, by simp [Independent, HasOwnFile, hadmission]⟩
  | ok admitted =>
    obtain ⟨tokenId, hash⟩ := admitted
    have hrets : Returns (receiptOf P tokenId hash) ↔ Encodable tokenId :=
      returns_receiptOf (encodable_of_admission hadmission)
    rw [(consume_laws (H := H) hadmission).1, (consume_laws hadmission).2]
    cases hfile : files.get? (fileName tokenId) with
    | some text =>
      obtain ⟨e, he⟩ : ∃ e, consume P H floatOf token binding files = .error e files :=
        consume_of_taken hadmission hfile
      rw [answer, he] at h
      cases h
      obtain ⟨r, hr, hname, -⟩ := hfiles.read _ _ hfile
      refine ⟨hrejected, ?_⟩
      constructor
      · rintro ⟨-, hiff⟩
        -- it was rejected, so its own id was consumed before
        have hbef : ¬ ∀ r ∈ earlier, r.tokenId ≠ tokenId :=
          fun hne => not_returns_error e (hiff.mpr hne)
        push Not at hbef
        obtain ⟨s, hs, rfl⟩ := hbef
        refine ⟨(hfiles.fits s hs).1, (hfiles.fits s hs).2, fun t ht htname => ?_⟩
        rw [hfiles.unique ht hs htname]
      · rintro ⟨-, -, halone⟩
        refine ⟨by simp, iff_of_false (by simp) fun hne => ?_⟩
        exact hne r hr (halone r hr hname)
    | none =>
      have hnew : ∀ r ∈ earlier, r.tokenId ≠ tokenId := fun r hr hid =>
        hfiles.fileName_ne hfile hr (by rw [hid])
      have halone : Alone earlier tokenId := fun r hr hname =>
        absurd hname (hfiles.fileName_ne hfile hr)
      rw [answer, consume_of_free hadmission hfile] at h
      by_cases hfits : Encodable tokenId ∧ H.takes (fileName tokenId) = true
      · obtain ⟨receipt, hrcpt⟩ := hrets.mpr hfits.1
        obtain ⟨text, hread, hstart⟩ : ∃ text, readReceipt P H floatOf text = .ok receipt ∧
            start P H floatOf tokenId hash files =
              .ok receipt (files.set (fileName tokenId) text) :=
          start_ok hrcpt hfits.2
        rw [hstart] at h
        cases h
        refine ⟨hfiles.set hfile (tokenId_of_receiptOf hrcpt) hread hfits,
          iff_of_true ⟨?_, iff_of_true ⟨receipt, rfl⟩ hnew⟩ ⟨hfits.1, hfits.2, halone⟩⟩
        intro receipt' heq
        rwa [← Except.ok.inj heq]
      · have hnot : ¬ (Returns (receiptOf P tokenId hash) ∧
            H.takes (fileName tokenId) = true) := by rwa [hrets]
        obtain ⟨e, he⟩ : ∃ e, start P H floatOf tokenId hash files = .error e files :=
          start_eq_error hnot
        rw [he] at h
        cases h
        refine ⟨hrejected, iff_of_false ?_ ?_⟩
        · rintro ⟨-, hiff⟩
          exact not_returns_error e (hiff.mpr hnew)
        · rintro ⟨henc, htakes, -⟩
          exact hfits ⟨henc, htakes⟩

/-- **One call.** -/
theorem step_iff (hfiles : FilesOf P H floatOf files earlier) (call : Call) :
    FilesOf P H floatOf (answer P H floatOf files call).2
      (earlier ++ accepted call (answer P H floatOf files call).1) ∧
    (Independent P ⟨earlier, call, (answer P H floatOf files call).1⟩ ↔
      HasOwnFile P H ⟨earlier, call, (answer P H floatOf files call).1⟩) := by
  cases call with
  | consume token binding => exact consume_iff hfiles token binding rfl
  | load tokenId =>
    refine ⟨?_, load_iff hfiles tokenId⟩
    rw [accepted, append_nil]
    · exact hfiles
    · nofun

/-- **A run of calls.** -/
theorem steps_iff (hfiles : FilesOf P H floatOf files earlier) (calls : List Call) :
    ∀ s ∈ steps P H floatOf files earlier calls, (Independent P s ↔ HasOwnFile P H s) := by
  induction calls generalizing files earlier with
  | nil => simp [steps]
  | cons call calls ih =>
    obtain ⟨hkept, hiff⟩ := step_iff hfiles call
    rw [steps, forall_mem_cons]
    exact ⟨hiff, ih hkept⟩

end

/-- The ledger of a fresh store. -/
theorem filesOf_nil : FilesOf P H floatOf [] [] :=
  ⟨by simp, by simp, by simp⟩

/-- **Tokens are consumed exactly once and independently in a run from a fresh store iff every step
has a file of its own.** -/
theorem independent_iff (calls : List Call) :
    (∀ s ∈ steps P H floatOf [] [] calls, Independent P s) ↔
      ∀ s ∈ steps P H floatOf [] [] calls, HasOwnFile P H s :=
  forall₂_congr (steps_iff (filesOf_nil P H floatOf) calls)

/-! ## Two ids of one file -/

section

/-- A binding of zeros. -/
def zeroBinding : RunBinding :=
  let zeros := List.replicate 64 (.ofChar '0')
  ⟨py "p", py "q", py "r", zeros, zeros, zeros, zeros, zeros, zeros, zeros, zeros, zeros⟩

/-- A token that may be started. -/
def tokenOf (tokenId : String) : Record :=
  [(py "token_id", .str (py tokenId)), (py "state", .str (py "AUTHORIZED_UNCONSUMED")),
    (py "run_binding_sha256",
      .str ((zeroBinding.logicalHash .reference).toOption.getD []))]

/-- A host whose files take every name. -/
def anyName : Host := ⟨fun _ => true, fun _ => []⟩

/-- No float is read in a file of texts. -/
def anyFloat : FloatOfText := fun _ => .finite false 0 0

/-- **A token that was never consumed is loaded as another.** -/
theorem slash_shares_file : ¬ ∀ s ∈ steps Platform.reference anyName anyFloat [] []
      [.consume (tokenOf "a/b") zeroBinding, .load (py "a_b")],
      Independent Platform.reference s := by
  intro h
  have hadmission : ((admission Platform.reference (tokenOf "a/b") zeroBinding).toOption.map
      Prod.fst) = some (py "a/b") := by decide +kernel
  obtain ⟨⟨tokenId, hash⟩, hoption, rfl⟩ := Option.map_eq_some_iff.mp hadmission
  have hok := eq_ok_of_toOption hoption
  obtain ⟨receipt, hrcpt⟩ : Returns (receiptOf Platform.reference (py "a/b") hash) :=
    (returns_receiptOf (encodable_of_admission hok)).mpr (encodable_py "a/b")
  obtain ⟨text, hread, hstart⟩ :
      ∃ text, readReceipt Platform.reference anyName anyFloat text = .ok receipt ∧
        start Platform.reference anyName anyFloat (py "a/b") hash [] =
          .ok receipt (Dict.set [] (fileName (py "a/b")) text) :=
    start_ok hrcpt rfl
  have hconsume := (consume_of_free hok rfl).trans hstart
  have hload : load Platform.reference anyName anyFloat
      (Dict.set [] (fileName (py "a/b")) text) (py "a_b") = .ok receipt := by
    rw [load, show fileName (py "a_b") = fileName (py "a/b") by decide +kernel, Dict.get?_set_self]
    exact hread
  rw [Dict.set_nil] at hload
  have hsteps : steps Platform.reference anyName anyFloat [] []
      [.consume (tokenOf "a/b") zeroBinding, .load (py "a_b")] =
      [⟨[], .consume (tokenOf "a/b") zeroBinding, .ok receipt⟩,
        ⟨[receipt], .load (py "a_b"), .ok receipt⟩] := by
    simp [steps, answer, hconsume, accepted, hload]
  have hstep := h ⟨[receipt], .load (py "a_b"), .ok receipt⟩ (by simp [hsteps])
  have hid := ((hstep receipt).mp rfl).2
  rw [tokenId_of_receiptOf hrcpt] at hid
  exact absurd hid (by decide +kernel)

end

end OvcReplay.Srfd.Resilience
