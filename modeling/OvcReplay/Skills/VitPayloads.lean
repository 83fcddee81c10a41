import OvcReplay.Python.Equal
import OvcReplay.Skills.Identity

/-! # Packet integration payloads

`vit_core.py`, `classify_payload_conflict` of `vit_ledger.py` and `apply_payload_reference` of
`vit_apply.py`. Two payloads are classified by the paths of their changes as they are spelled, and
they are applied to an index of git at the paths that the spellings name. -/

namespace OvcReplay.Skills.VitPayload

open List Python Json

/-! ## Payloads -/

/-- A logical change: plain data, of which the fields that are read are texts. -/
structure LogicalChange where
  fields : Record
  built : (PyVal.ofRecord fields).Built
  setFree : (PyVal.ofRecord fields).SetFree
  texts : ∀ k ∈ [py "path", py "op", py "blob_sha", py "mode"], ∀ v,
    fields.get? k = some v → ∃ s, v = .str s

variable (c : LogicalChange)

/-- A text of a change. -/
def LogicalChange.text? (k : PyStr) : Option PyStr :=
  match c.fields.get? k with
  | some (.str s) => some s
  | _ => none

/-- `str(change.get("path", ""))`. -/
def LogicalChange.path : PyStr := (c.text? (py "path")).getD []

/-- `change.get("op")`. -/
def LogicalChange.op : Option PyStr := c.text? (py "op")

/-- `IntegrationAuthorityManifest`. -/
structure AuthorityManifest where
  planId : PyStr
  packetId : PyStr
  gateId : PyStr
  authorityClass : PyStr
  authorityDelta : PyStr
  authoritySources : List PyStr
  reservedBoundaries : List PyStr
  securityEnvelopeId : Option PyStr

/-- `DependencyFrontier`, as `__post_init__` leaves it. -/
structure DependencyFrontier where
  dependencies : List PyStr
  predecessorRequirement : PyStr
  ownerBindings : List PyStr
  sorted_dependencies : sortedSet dependencies = dependencies
  sorted_ownerBindings : sortedSet ownerBindings = ownerBindings

/-- `PacketIntegrationPayload`. -/
structure PacketIntegrationPayload where
  programmeId : PyStr
  packetId : PyStr
  logicalChanges : List LogicalChange
  authorityManifest : AuthorityManifest
  dependencyFrontier : DependencyFrontier
  completionTransition : Record
  schemaVersion : PyStr := py "packet-integration-payload/v0.1"
  logicalChanges_ne_nil : logicalChanges ≠ []
  packetId_eq : packetId = authorityManifest.packetId

/-- A tuple of texts. -/
def tupleOf (texts : List PyStr) : PyVal := .tuple (texts.map .str)

variable (P : Platform)

/-- `canonical_sha256` without a role. -/
def logicalSha256 (v : PyVal) : Except PyError HexDigest := (canonicalJsonBytes P v).map P.sha256

/-- `logical_id` of a manifest. -/
def AuthorityManifest.logicalId (m : AuthorityManifest) : Except PyError HexDigest :=
  logicalSha256 P (.ofRecord [(py "plan_id", .str m.planId), (py "packet_id", .str m.packetId),
    (py "gate_id", .str m.gateId), (py "authority_class", .str m.authorityClass),
    (py "authority_delta", .str m.authorityDelta),
    (py "authority_sources", tupleOf m.authoritySources),
    (py "reserved_boundaries", tupleOf m.reservedBoundaries),
    (py "security_envelope_id", .ofStr? m.securityEnvelopeId)])

/-- `logical_id` of a frontier. -/
def DependencyFrontier.logicalId (f : DependencyFrontier) : Except PyError HexDigest :=
  logicalSha256 P (.ofRecord [(py "dependencies", tupleOf f.dependencies),
    (py "predecessor_requirement", .str f.predecessorRequirement),
    (py "owner_bindings", tupleOf f.ownerBindings)])

/-- `payload_id`. -/
def PacketIntegrationPayload.payloadId (p : PacketIntegrationPayload) :
    Except PyError HexDigest := do
  let manifestId ← p.authorityManifest.logicalId P
  let frontierId ← p.dependencyFrontier.logicalId P
  logicalSha256 P (.ofRecord [(py "schema_version", .str p.schemaVersion),
    (py "programme_id", .str p.programmeId), (py "packet_id", .str p.packetId),
    (py "logical_changes", .list (p.logicalChanges.map fun c => .ofRecord c.fields)),
    (py "authority_manifest_id", .str manifestId.text),
    (py "dependency_frontier_id", .str frontierId.text),
    (py "completion_transition", .ofRecord p.completionTransition)])

/-! ## Classification -/

/-- What `classify_payload_conflict` returns. -/
inductive ConflictClass where
  | commutative
  | orderSensitive
  | serialRequired
  | mutuallyExclusive
  deriving DecidableEq, Repr

/-- `_paths`. -/
def paths (p : PacketIntegrationPayload) : Dict PyStr LogicalChange :=
  Dict.ofItems (p.logicalChanges.map fun c => (c.path, c))

/-- The difference of two payloads at a path: whether one of its changes is a deletion, and nothing
where the changes are equal or one payload has none. -/
def difference? (l r : PacketIntegrationPayload) (path : PyStr) : Option Bool :=
  match Dict.get? (paths l) path, Dict.get? (paths r) path with
  | some c, some d =>
    if (PyVal.ofRecord c.fields).pyEq (.ofRecord d.fields) then none
    else some (decide (c.op = some (py "DELETE") ∨ d.op = some (py "DELETE")))
  | _, _ => none

/-- **`classify_payload_conflict`**; `overlap` are the overlapping paths in the order in which the
set of them is walked. -/
def classifyPayloadConflict (l r : PacketIntegrationPayload) (overlap : List PyStr) :
    Except PyError ConflictClass := do
  let leftId ← l.payloadId P
  let rightId ← r.payloadId P
  if leftId.text = rightId.text then return .commutative
  if overlap = [] then
    if l.dependencyFrontier.ownerBindings.any fun b => b ∈ r.dependencyFrontier.ownerBindings then
      return .serialRequired
    return .commutative
  match overlap.findSome? (difference? l r) with
  | some true => return .mutuallyExclusive
  | some false => return .orderSensitive
  | none => return .serialRequired

/-- **The overlapping paths, in some order.** -/
structure Overlap (l r : PacketIntegrationPayload) (overlap : List PyStr) : Prop where
  nodup : overlap.Nodup
  mem_iff : ∀ path, path ∈ overlap ↔ path ∈ Dict.keys (paths l) ∧ path ∈ Dict.keys (paths r)

/-- **The classification is well defined**: what is returned is returned of the payloads in the
other order and of the paths in any order, and it says what differs. -/
def WellDefined (l r : PacketIntegrationPayload) : Prop :=
  ∀ overlap overlap', Overlap l r overlap → Overlap l r overlap' → ∀ verdict,
    classifyPayloadConflict P l r overlap = .ok verdict →
      classifyPayloadConflict P r l overlap' = .ok verdict ∧
        (verdict = .mutuallyExclusive ↔ ∃ path, difference? l r path = some true) ∧
        (verdict = .orderSensitive ↔ (∃ path, difference? l r path = some false) ∧
          ∀ path, difference? l r path ≠ some true)

/-- **The differences are of one kind**: with a deletion each, or without one each; and payloads
with one id do not differ. -/
def Uniform (l r : PacketIntegrationPayload) : Prop :=
  ∀ leftId rightId, l.payloadId P = .ok leftId → r.payloadId P = .ok rightId →
    (leftId.text = rightId.text → ∀ path, difference? l r path = none) ∧
      ¬ ((∃ path, difference? l r path = some true) ∧ ∃ path, difference? l r path = some false)

section

variable {l r : PacketIntegrationPayload} {path : PyStr} {overlap : List PyStr}

theorem difference?_comm (l r : PacketIntegrationPayload) (path : PyStr) :
    difference? l r path = difference? r l path := by
  unfold difference?
  cases Dict.get? (paths l) path with
  | none => cases Dict.get? (paths r) path <;> rfl
  | some c =>
    cases Dict.get? (paths r) path with
    | none => rfl
    | some d =>
      have heq : (PyVal.ofRecord c.fields).pyEq (.ofRecord d.fields) =
          (PyVal.ofRecord d.fields).pyEq (.ofRecord c.fields) := by
        apply Bool.eq_iff_iff.mpr
        exact ⟨PyVal.pyEq_symm d.setFree c.built d.built,
          PyVal.pyEq_symm c.setFree d.built c.built⟩
      have hop : decide (c.op = some (py "DELETE") ∨ d.op = some (py "DELETE")) =
          decide (d.op = some (py "DELETE") ∨ c.op = some (py "DELETE")) :=
        decide_eq_decide.mpr or_comm
      dsimp only
      rw [heq, hop]

theorem Overlap.symm (h : Overlap l r overlap) : Overlap r l overlap :=
  ⟨h.nodup, fun path => (h.mem_iff path).trans and_comm⟩

/-- A path where the payloads differ is one of the overlapping paths. -/
theorem Overlap.mem_of_difference? (h : Overlap l r overlap) {b : Bool}
    (hdiff : difference? l r path = some b) : path ∈ overlap := by
  rw [h.mem_iff, ← Dict.isSome_get?_iff, ← Dict.isSome_get?_iff]
  unfold difference? at hdiff
  cases hl : Dict.get? (paths l) path with
  | none =>
    rw [hl] at hdiff
    cases hdiff
  | some c =>
    cases hr : Dict.get? (paths r) path with
    | none =>
      rw [hl, hr] at hdiff
      cases hdiff
    | some d => exact ⟨rfl, rfl⟩

/-- The overlapping paths can be walked, from any one of them on. -/
theorem exists_overlap (l r : PacketIntegrationPayload) : ∃ overlap, Overlap l r overlap := by
  refine ⟨((Dict.keys (paths l)).filter fun path => path ∈ Dict.keys (paths r)).dedup,
    nodup_dedup _, fun path => ?_⟩
  rw [mem_dedup, mem_filter, decide_eq_true_eq]

theorem Overlap.cons_erase (h : Overlap l r overlap) (hpath : path ∈ overlap) :
    Overlap l r (path :: overlap.erase path) := by
  have hperm := perm_cons_erase hpath
  exact ⟨hperm.nodup_iff.mp h.nodup, fun q => by rw [← hperm.mem_iff, h.mem_iff]⟩

/-- Differences of one kind decide the first difference. -/
theorem findSome?_difference? {b : Bool} (h : Overlap l r overlap)
    (hdiff : difference? l r path = some b)
    (hall : ∀ q, difference? l r q ≠ some (!b)) :
    overlap.findSome? (difference? l r) = some b := by
  cases hfind : overlap.findSome? (difference? l r) with
  | none =>
    have hnone := findSome?_eq_none_iff.mp hfind path (h.mem_of_difference? hdiff)
    rw [hdiff] at hnone
    cases hnone
  | some b' =>
    obtain ⟨q, -, hq⟩ := exists_of_findSome?_eq_some hfind
    have hne := hall q
    rw [hq] at hne
    cases b <;> cases b' <;> simp_all

/-- What is returned of payloads with different ids. -/
def verdictOf (l r : PacketIntegrationPayload) (overlap : List PyStr) : ConflictClass :=
  if overlap = [] then
    if l.dependencyFrontier.ownerBindings.any fun b => b ∈ r.dependencyFrontier.ownerBindings then
      .serialRequired
    else .commutative
  else
    match overlap.findSome? (difference? l r) with
    | some true => .mutuallyExclusive
    | some false => .orderSensitive
    | none => .serialRequired

variable {P}

/-- What is returned. -/
theorem classify_ok {verdict : ConflictClass} :
    classifyPayloadConflict P l r overlap = .ok verdict ↔
      ∃ leftId rightId, l.payloadId P = .ok leftId ∧ r.payloadId P = .ok rightId ∧
        verdict = if leftId.text = rightId.text then .commutative else verdictOf l r overlap := by
  have hrest : ∀ leftId rightId : HexDigest,
      (show Except PyError ConflictClass from do
        if leftId.text = rightId.text then return .commutative
        if overlap = [] then
          if l.dependencyFrontier.ownerBindings.any
              fun b => b ∈ r.dependencyFrontier.ownerBindings then
            return .serialRequired
          return .commutative
        match overlap.findSome? (difference? l r) with
        | some true => return .mutuallyExclusive
        | some false => return .orderSensitive
        | none => return .serialRequired) =
      .ok (if leftId.text = rightId.text then .commutative else verdictOf l r overlap) := by
    intro leftId rightId
    unfold verdictOf
    split_ifs
    · rfl
    · rfl
    · rfl
    · cases overlap.findSome? (difference? l r) with
      | none => rfl
      | some b => cases b <;> rfl
  unfold classifyPayloadConflict
  rw [bind_ok]
  refine exists_congr fun leftId => ?_
  constructor
  · rintro ⟨hl, h⟩
    obtain ⟨rightId, hr, h⟩ := bind_ok.mp h
    exact ⟨rightId, hl, hr, (Except.ok.inj ((hrest leftId rightId).symm.trans h)).symm⟩
  · rintro ⟨rightId, hl, hr, rfl⟩
    exact ⟨hl, bind_intro hr (hrest leftId rightId)⟩

theorem verdictOf_of_nil (l r : PacketIntegrationPayload) :
    verdictOf l r [] = verdictOf r l [] := by
  have hshared : (l.dependencyFrontier.ownerBindings.any
        fun b => b ∈ r.dependencyFrontier.ownerBindings) =
      r.dependencyFrontier.ownerBindings.any fun b => b ∈ l.dependencyFrontier.ownerBindings := by
    apply Bool.eq_iff_iff.mpr
    simp only [any_eq_true, decide_eq_true_eq]
    exact exists_congr fun b => and_comm
  unfold verdictOf
  rw [if_pos rfl, if_pos rfl, hshared]

/-- Where the payloads differ somewhere, the first difference decides. -/
theorem verdictOf_of_difference? {b : Bool} (h : Overlap l r overlap)
    (hdiff : difference? l r path = some b)
    (hfind : overlap.findSome? (difference? l r) = some b) :
    verdictOf l r overlap = if b then .mutuallyExclusive else .orderSensitive := by
  have hne : overlap ≠ [] := fun hnil => by
    have hmem := h.mem_of_difference? hdiff
    rw [hnil] at hmem
    exact not_mem_nil hmem
  unfold verdictOf
  rw [if_neg hne, hfind]
  cases b <;> rfl

/-- Where they do not differ, no order and no exclusion is returned. -/
theorem verdictOf_of_none (hnone : ∀ path, difference? l r path = none) :
    (verdictOf l r overlap = if overlap = [] then verdictOf l r [] else .serialRequired) ∧
      verdictOf l r overlap ≠ .mutuallyExclusive ∧ verdictOf l r overlap ≠ .orderSensitive := by
  have hfind : overlap.findSome? (difference? l r) = none :=
    findSome?_eq_none_iff.mpr fun path _ => hnone path
  unfold verdictOf
  rw [hfind]
  by_cases hnil : overlap = []
  · rw [if_pos hnil, if_pos hnil, if_pos rfl]
    refine ⟨rfl, ?_, ?_⟩ <;> split_ifs <;> decide
  · rw [if_neg hnil, if_neg hnil]
    exact ⟨rfl, by decide, by decide⟩

/-- **Differences of one kind give one verdict**, in either order of the payloads and of the
paths. -/
theorem verdictOf_uniform {overlap' : List PyStr} (h : Overlap l r overlap)
    (h' : Overlap l r overlap')
    (hone : ¬ ((∃ path, difference? l r path = some true) ∧
      ∃ path, difference? l r path = some false)) :
    verdictOf r l overlap' = verdictOf l r overlap ∧
      (verdictOf l r overlap = .mutuallyExclusive ↔ ∃ path, difference? l r path = some true) ∧
      (verdictOf l r overlap = .orderSensitive ↔ (∃ path, difference? l r path = some false) ∧
        ∀ path, difference? l r path ≠ some true) := by
  have hsame : difference? r l = difference? l r := funext fun path => difference?_comm r l path
  by_cases hdiff : ∃ path b, difference? l r path = some b
  · obtain ⟨path, b, hdiff⟩ := hdiff
    have hall : ∀ q, difference? l r q ≠ some (!b) := by
      intro q hq
      cases b with
      | true => exact hone ⟨⟨path, hdiff⟩, q, hq⟩
      | false => exact hone ⟨⟨q, hq⟩, path, hdiff⟩
    have hverd := verdictOf_of_difference? h hdiff (findSome?_difference? h hdiff hall)
    have hdiff' : difference? r l path = some b := hsame ▸ hdiff
    have hall' : ∀ q, difference? r l q ≠ some (!b) := hsame ▸ hall
    have hverd' :=
      verdictOf_of_difference? h'.symm hdiff' (findSome?_difference? h'.symm hdiff' hall')
    refine ⟨hverd'.trans hverd.symm, ?_, ?_⟩
    · rw [hverd]
      cases b with
      | true => exact iff_of_true rfl ⟨path, hdiff⟩
      | false => exact iff_of_false (by decide) fun ⟨q, hq⟩ => hall q hq
    · rw [hverd]
      cases b with
      | true => exact iff_of_false (by decide) fun hboth => hboth.2 path hdiff
      | false => exact iff_of_true rfl ⟨⟨path, hdiff⟩, hall⟩
  · have hnone : ∀ path, difference? l r path = none := by
      intro path
      cases hpath : difference? l r path with
      | none => rfl
      | some b => exact absurd ⟨path, b, hpath⟩ hdiff
    have hnone' : ∀ path, difference? r l path = none := hsame ▸ hnone
    have hperm : overlap = [] ↔ overlap' = [] := by
      rw [eq_nil_iff_forall_not_mem, eq_nil_iff_forall_not_mem]
      exact forall_congr' fun path => not_congr ((h.mem_iff path).trans (h'.mem_iff path).symm)
    obtain ⟨hverd, hne, hne'⟩ := @verdictOf_of_none l r overlap hnone
    refine ⟨?_, iff_of_false hne fun ⟨q, hq⟩ => ?_, iff_of_false hne' fun hboth => ?_⟩
    · rw [hverd, (verdictOf_of_none hnone').1, verdictOf_of_nil r l]
      simp only [hperm]
    · rw [hnone q] at hq
      cases hq
    · obtain ⟨⟨q, hq⟩, -⟩ := hboth
      rw [hnone q] at hq
      cases hq

/-- **The classification is well defined** iff the differences are of one kind. -/
theorem wellDefined_iff (l r : PacketIntegrationPayload) : WellDefined P l r ↔ Uniform P l r := by
  constructor
  · intro h leftId rightId hl hr
    obtain ⟨overlap, hovl⟩ := exists_overlap l r
    have hok : ∀ order, classifyPayloadConflict P l r order =
        .ok (if leftId.text = rightId.text then .commutative else verdictOf l r order) :=
      fun order => classify_ok.mpr ⟨leftId, rightId, hl, hr, rfl⟩
    have hids : leftId.text = rightId.text → ∀ path, difference? l r path = none := by
      intro heq
      obtain ⟨-, hexclusive, horder⟩ := h overlap overlap hovl hovl _ (hok overlap)
      rw [if_pos heq] at hexclusive horder
      have hnotTrue : ∀ path, difference? l r path ≠ some true := fun path hpath => by
        cases hexclusive.mpr ⟨path, hpath⟩
      intro path
      cases hpath : difference? l r path with
      | none => rfl
      | some b =>
        cases b with
        | true => exact absurd hpath (hnotTrue path)
        | false => cases horder.mpr ⟨⟨path, hpath⟩, hnotTrue⟩
    refine ⟨hids, ?_⟩
    rintro ⟨⟨path, hpath⟩, q, hq⟩
    have hne : ¬ leftId.text = rightId.text := fun heq => by
      rw [hids heq path] at hpath
      cases hpath
    -- walked from the path without a deletion on, the differences are said to have none
    have hfst := hovl.cons_erase (hovl.mem_of_difference? hq)
    have hverd := verdictOf_of_difference? hfst hq (by rw [findSome?_cons, hq])
    have hret := h _ overlap hfst hovl _ (hok _)
    rw [if_neg hne, hverd] at hret
    exact (hret.2.2.mp rfl).2 path hpath
  · intro h overlap overlap' hovl hovl' verdict hverd
    obtain ⟨leftId, rightId, hl, hr, rfl⟩ := classify_ok.mp hverd
    obtain ⟨hids, hone⟩ := h leftId rightId hl hr
    by_cases heq : leftId.text = rightId.text
    · rw [if_pos heq]
      refine ⟨classify_ok.mpr ⟨rightId, leftId, hr, hl, (if_pos heq.symm).symm⟩,
        iff_of_false (by decide) ?_, iff_of_false (by decide) ?_⟩
      · rintro ⟨path, hpath⟩
        rw [hids heq path] at hpath
        cases hpath
      · rintro ⟨⟨path, hpath⟩, -⟩
        rw [hids heq path] at hpath
        cases hpath
    · obtain ⟨hcomm, hexclusive, horder⟩ := verdictOf_uniform hovl hovl' hone
      rw [if_neg heq]
      refine ⟨classify_ok.mpr ⟨rightId, leftId, hr, hl, ?_⟩, hexclusive, horder⟩
      rw [if_neg (fun h => heq h.symm), hcomm]

end

/-! ### Two differences -/

/-- A change with the fields that are read. -/
def changeOf (path op blobSha : PyStr) : LogicalChange where
  fields := [(py "path", .str path), (py "op", .str op), (py "blob_sha", .str blobSha)]
  built := .dict (by simp [PyKey.normal]) (by simpa using ⟨.str path, .str op, .str blobSha⟩)
  setFree := .dict (by simpa using ⟨.str path, .str op, .str blobSha⟩)
  texts := by
    intro k hk v hv
    have hmem := Dict.mem_of_get? hv
    simp only [mem_cons, Prod.mk.injEq, not_mem_nil, or_false] at hmem
    rcases hmem with ⟨-, rfl⟩ | ⟨-, rfl⟩ | ⟨-, rfl⟩ <;> exact ⟨_, rfl⟩

/-- A payload of changes. -/
def payloadOf (packetId : PyStr) (changes : List LogicalChange) (h : changes ≠ []) :
    PacketIntegrationPayload where
  programmeId := py "P"
  packetId := packetId
  logicalChanges := changes
  authorityManifest := ⟨py "L", packetId, py "G", py "AUTO_EXECUTABLE", py "NONE", [py "A"], [],
    none⟩
  dependencyFrontier := ⟨[], py "NONE", [], by decide, by decide⟩
  completionTransition := []
  logicalChanges_ne_nil := h
  packetId_eq := rfl

/-- A payload that deletes one path and modifies another. -/
def deletesOne : PacketIntegrationPayload :=
  payloadOf (py "K") [changeOf (py "a") (py "DELETE") [],
    changeOf (py "b") (py "MODIFY") (py "1")] (cons_ne_nil _ _)

/-- A payload that modifies both. -/
def modifiesBoth : PacketIntegrationPayload :=
  payloadOf (py "M") [changeOf (py "a") (py "MODIFY") (py "2"),
    changeOf (py "b") (py "MODIFY") (py "2")] (cons_ne_nil _ _)

/-- **Two differences, one with a deletion**: the verdict depends on which path comes first. -/
theorem twoDifferences_order : ¬ WellDefined .reference deletesOne modifiesBoth := by
  intro h
  have hkeys : Dict.keys (paths deletesOne) = [py "a", py "b"] ∧
      Dict.keys (paths modifiesBoth) = [py "a", py "b"] := by
    decide +kernel
  have hovl : Overlap deletesOne modifiesBoth [py "a", py "b"] := by
    refine ⟨by simp, fun path => ?_⟩
    rw [hkeys.1, hkeys.2, and_self]
  have hovl' : Overlap deletesOne modifiesBoth [py "b", py "a"] := by
    refine ⟨by simp, fun path => ?_⟩
    rw [hkeys.1, hkeys.2, and_self]
    exact (Perm.swap _ _ _).mem_iff
  have hverdicts : classifyPayloadConflict .reference deletesOne modifiesBoth
        [py "a", py "b"] = .ok .mutuallyExclusive ∧
      classifyPayloadConflict .reference modifiesBoth deletesOne
        [py "b", py "a"] = .ok .orderSensitive := by
    decide +kernel
  have hsame := (h _ _ hovl hovl' _ hverdicts.1).1
  rw [hverdicts.2] at hsame
  cases hsame

/-! ## Application -/

/-- `_safe_path`: the path that a spelling names. -/
def safePath (path : PyStr) : Option PyStr :=
  -- `PurePosixPath` drops empty segments and single points
  let parts := (path.splitOn (.ofChar '/')).filter fun part => part ≠ [] ∧ part ≠ py "."
  if path = [] ∨ path.head? = some (.ofChar '/') ∨ py ".." ∈ parts ∨
      py ".git/" <+: path ∨ path = py ".git" then none
  else some (if parts = [] then py "." else (py "/").intercalate parts)

/-- What git knows: the object that `cat-file` finds under a name, for a mode, and the paths that
`update-index` accepts. -/
structure Git where
  object : (mode name : PyStr) → Option PyStr
  accepts : PyStr → Bool

/-- What stands at a path: a mode and an object. -/
abbrev Entry : Type := PyStr × PyStr

/-- An index: the paths of its files. -/
abbrev Index : Type := Dict PyStr Entry

/-- One of the paths is a directory of the other. -/
def Clashes (p q : PyStr) : Prop := p ++ py "/" <+: q ∨ q ++ py "/" <+: p

instance (p q : PyStr) : Decidable (Clashes p q) := inferInstanceAs (Decidable (_ ∨ _))

/-- `update-index --add --cacheinfo` and `update-index --force-remove`: a file and a directory of
one name exclude each other. -/
def update (index : Index) (path : PyStr) : Option Entry → Option Index
  | none => some (index.filter fun p => p.1 ≠ path)
  | some entry =>
    if index.keys.any fun p => Clashes p path then none
    else some (index.set path entry)

/-- `CompositionFailure`; the output of git is left out. -/
structure CompositionFailure where
  reasonCode : PyStr
  path : PyStr
  detail : Option PyStr
  deriving DecidableEq

/-- What the loop of `apply_payload_reference` carries. -/
structure Composition where
  index : Index
  seen : List PyStr := []
  changed : List PyStr := []
  failures : List CompositionFailure := []

/-- A failure is recorded. -/
def Composition.fail (st : Composition) (reasonCode path : PyStr) (detail : Option PyStr) :
    Composition :=
  { st with failures := st.failures ++ [⟨reasonCode, path, detail⟩] }

/-- What `update-index` does, or its failure. -/
def Composition.update (st : Composition) (path : PyStr) (entry : Option Entry) : Composition :=
  match VitPayload.update st.index path entry with
  | some index => { st with index, changed := st.changed ++ [path] }
  | none => st.fail (py "INPUT_PRECONDITION_MISMATCH") path none

/-- The modes of files. -/
def modes : List PyStr := [py "100644", py "100755", py "120000", py "160000"]

variable (G : Git)

/-- What a change puts at the path that its spelling names, `none` for a deletion, or the detail of
its failure. -/
def entryAt (c : LogicalChange) (path : PyStr) : Except (Option PyStr) (Option Entry) :=
  if c.op = some (py "DELETE") then .ok none
  else if c.op = some (py "ADD") ∨ c.op = some (py "MODIFY") then
    let blobSha := (c.text? (py "blob_sha")).getD []
    let mode := (c.text? (py "mode")).getD (py "100644")
    if blobSha = [] ∨ mode ∉ modes then .error (some (py "missing blob or invalid mode"))
    else
      match G.object mode blobSha with
      | some object => if G.accepts path then .ok (some (mode, object)) else .error none
      | none => .error none
  else .error (some (py "unknown op"))

/-- One turn of the loop of `apply_payload_reference`. -/
def applyChange (st : Composition) (c : LogicalChange) : Composition :=
  match safePath c.path with
  | none => st.fail (py "INPUT_PRECONDITION_MISMATCH") c.path (some (py "unsafe path"))
  | some path =>
    if path ∈ st.seen then
      st.fail (py "CONTENT_CONFLICT") path (some (py "duplicate path mutation"))
    else
      let st := { st with seen := path :: st.seen }
      match entryAt G c path with
      | .ok entry => st.update path entry
      | .error detail => st.fail (py "INPUT_PRECONDITION_MISMATCH") path detail

/-- `CompositionReceipt`; a tree is the index that it is read into. -/
structure CompositionReceipt where
  predecessorTree : Index
  payloadId : HexDigest
  applyProfile : PyStr := py "INTEGRATION_APPLY_PROFILE_REFERENCE_v0_1"
  resultTree : Option Index
  changedPaths : List PyStr
  failures : List CompositionFailure

/-- **`apply_payload_reference`** to a tree that there is. -/
def applyPayloadReference (tree : Index) (p : PacketIntegrationPayload) :
    Except PyError CompositionReceipt := do
  let st := p.logicalChanges.foldl (applyChange G) { index := tree }
  let payloadId ← p.payloadId P
  return {
    predecessorTree := tree
    payloadId
    resultTree := if st.failures = [] then some st.index else none
    changedPaths := sortedBy id st.changed
    failures := st.failures }

/-- **A payload applies to a tree**, with a result. -/
def Applies (tree : Index) (p : PacketIntegrationPayload) (result : Index) : Prop :=
  ∃ receipt, applyPayloadReference P G tree p = .ok receipt ∧ receipt.resultTree = some result

/-! ### What a change does -/

/-- **What a change does**: the path that it names and what stands there afterwards. -/
def effect? (c : LogicalChange) : Option (PyStr × Option Entry) :=
  (safePath c.path).bind fun path => (entryAt G c path).toOption.map fun entry => (path, entry)

/-- What changes do to an index, one after another. -/
def run (index : Index) : List (PyStr × Option Entry) → Option Index
  | [] => some index
  | e :: effects => (update index e.1 e.2).bind fun index' => run index' effects

/-- **No two changes clash**: at one path they do the same, and no file that one puts is a
directory of a file that the other puts. -/
def NoClash (L R : List (PyStr × Option Entry)) : Prop :=
  ∀ e ∈ L, ∀ f ∈ R, (e.1 = f.1 → e.2 = f.2) ∧
    (e.2.isSome = true → f.2.isSome = true → ¬ Clashes e.1 f.1)

section

variable {G} {tree result : Index}

theorem failures_fail (st : Composition) (reasonCode path : PyStr) (detail : Option PyStr) :
    (st.fail reasonCode path detail).failures ≠ [] := by
  simp [Composition.fail]

variable {st : Composition}

theorem failures_update (path : PyStr) (entry : Option Entry) (h : st.failures ≠ []) :
    (st.update path entry).failures ≠ [] := by
  unfold Composition.update
  split
  · exact h
  · exact failures_fail _ _ _ _

/-- An update that does not fail. -/
theorem update_of_failures {path : PyStr} {entry : Option Entry}
    (h : (st.update path entry).failures = []) :
    ∃ index, update st.index path entry = some index ∧ (st.update path entry).index = index ∧
      (st.update path entry).seen = st.seen := by
  unfold Composition.update at h ⊢
  cases hix : update st.index path entry with
  | some index => exact ⟨index, rfl, rfl, rfl⟩
  | none =>
    rw [hix] at h
    exact absurd h (failures_fail _ _ _ _)

/-- An update that goes through. -/
theorem update_of_eq_some {path : PyStr} {entry : Option Entry} {index : Index}
    (h : update st.index path entry = some index) : st.update path entry =
      { st with index, changed := st.changed ++ [path] } := by
  unfold Composition.update
  rw [h]

/-- A failure stays. -/
theorem failures_applyChange (st : Composition) (c : LogicalChange)
    (h : st.failures ≠ []) : (applyChange G st c).failures ≠ [] := by
  unfold applyChange
  cases safePath c.path with
  | none => exact failures_fail _ _ _ _
  | some path =>
    dsimp only
    by_cases hseen : path ∈ st.seen
    · rw [if_pos hseen]
      exact failures_fail _ _ _ _
    · rw [if_neg hseen]
      cases entryAt G c path with
      | ok entry => exact failures_update _ _ h
      | error detail => exact failures_fail _ _ _ _

theorem failures_foldl (cs : List LogicalChange) (st : Composition)
    (h : st.failures ≠ []) : (cs.foldl (applyChange G) st).failures ≠ [] := by
  induction cs generalizing st with
  | nil => exact h
  | cons c cs ih => exact ih _ (failures_applyChange st c h)

/-- **A change that does not fail** does what it does, at a path that has not been seen. -/
theorem applyChange_cases {c : LogicalChange} (h : (applyChange G st c).failures = []) :
    ∃ e index, effect? G c = some e ∧ e.1 ∉ st.seen ∧ update st.index e.1 e.2 = some index ∧
        (applyChange G st c).index = index ∧ (applyChange G st c).seen = e.1 :: st.seen := by
  unfold applyChange at h ⊢
  unfold effect?
  cases hpath : safePath c.path with
  | none =>
    rw [hpath] at h
    exact absurd h (failures_fail _ _ _ _)
  | some path =>
    rw [hpath] at h
    dsimp only at h ⊢
    by_cases hseen : path ∈ st.seen
    · rw [if_pos hseen] at h
      exact absurd h (failures_fail _ _ _ _)
    rw [if_neg hseen] at h ⊢
    cases hentry : entryAt G c path with
    | error detail =>
      rw [hentry] at h
      exact absurd h (failures_fail _ _ _ _)
    | ok entry =>
      rw [hentry] at h
      obtain ⟨index, hix, heq, hseen'⟩ := update_of_failures h
      exact ⟨(path, entry), index, by simp [hentry, Except.toOption], hseen, hix, heq,
        hseen'⟩

/-- A change at a path that has not been seen goes through where its update does. -/
theorem applyChange_of_effect? {c : LogicalChange} {e : PyStr × Option Entry} {index : Index}
    (he : effect? G c = some e) (hseen : e.1 ∉ st.seen)
    (hix : update st.index e.1 e.2 = some index) :
    applyChange G st c = { st with
      index, seen := e.1 :: st.seen, changed := st.changed ++ [e.1] } := by
  obtain ⟨path, hpath, he⟩ := Option.bind_eq_some_iff.mp he
  obtain ⟨entry, hentry, rfl⟩ := Option.map_eq_some_iff.mp he
  unfold applyChange
  rw [hpath]
  dsimp only
  rw [if_neg hseen, eq_ok_of_toOption hentry]
  exact update_of_eq_some hix

/-- **The loop that does not fail** runs what the changes do, at distinct paths. -/
theorem foldl_applyChange_iff {cs : List LogicalChange} {st : Composition}
    (hst : st.failures = []) :
    (cs.foldl (applyChange G) st).failures = [] ∧ (cs.foldl (applyChange G) st).index = result ↔
      ∃ effects, cs.map (effect? G) = effects.map some ∧ (effects.map Prod.fst).Nodup ∧
        (∀ e ∈ effects, e.1 ∉ st.seen) ∧ run st.index effects = some result := by
  induction cs generalizing st with
  | nil =>
    constructor
    · rintro ⟨-, rfl⟩
      exact ⟨[], rfl, nodup_nil, by simp, rfl⟩
    · rintro ⟨effects, heffects, -, -, hrun⟩
      obtain rfl := map_eq_nil_iff.mp heffects.symm
      exact ⟨hst, Option.some.inj hrun⟩
  | cons c cs ih =>
    rw [foldl_cons]
    constructor
    · rintro ⟨hfails, hix⟩
      have hstep : (applyChange G st c).failures = [] := by
        by_contra hne
        exact failures_foldl cs _ hne hfails
      obtain ⟨e, index, he, hseen, hupd, heq, hseen'⟩ := applyChange_cases hstep
      obtain ⟨effects, heffects, hnd, hfresh, hrun⟩ := (ih hstep).mp ⟨hfails, hix⟩
      rw [hseen'] at hfresh
      rw [heq] at hrun
      refine ⟨e :: effects, by rw [map_cons, map_cons, he, heffects], ?_, ?_, ?_⟩
      · rw [map_cons, nodup_cons]
        refine ⟨fun hmem => ?_, hnd⟩
        obtain ⟨f, hf, hfe⟩ := mem_map.mp hmem
        exact hfresh f hf (hfe ▸ mem_cons_self)
      · intro f hf
        rcases mem_cons.mp hf with rfl | hf
        · exact hseen
        · exact fun hmem => hfresh f hf (mem_cons_of_mem _ hmem)
      · rw [run, hupd]
        exact hrun
    · rintro ⟨effects, heffects, hnd, hfresh, hrun⟩
      cases effects with
      | nil => cases heffects
      | cons e effects =>
        obtain ⟨he, heffects⟩ := List.cons.inj heffects
        obtain ⟨index, hupd, hrun⟩ := Option.bind_eq_some_iff.mp hrun
        rw [map_cons, nodup_cons] at hnd
        rw [applyChange_of_effect? he (hfresh e mem_cons_self) hupd]
        refine (ih (by exact hst)).mpr ⟨effects, heffects, hnd.2, fun f hf => ?_, hrun⟩
        rw [mem_cons, not_or]
        refine ⟨fun heq => hnd.1 ?_, hfresh f (mem_cons_of_mem _ hf)⟩
        exact mem_map.mpr ⟨f, hf, heq⟩

end

/-! ### What runs do -/

section

variable {index index' tree tl tr : Index} {L R effects : List (PyStr × Option Entry)}

theorem Clashes.symm {p q : PyStr} (h : Clashes p q) : Clashes q p := Or.symm h

theorem not_clashes_self (p : PyStr) : ¬ Clashes p p := by
  have hlen : ¬ p ++ py "/" <+: p := by
    intro h
    have hle := h.length_le
    have hslash : (py "/").length = 1 := by decide +kernel
    rw [length_append, hslash] at hle
    omega
  exact fun h => h.elim hlen hlen

/-- What stands in an index after an update. -/
theorem get?_update {path : PyStr} {entry : Option Entry}
    (h : update index path entry = some index') (q : PyStr) :
    index'.get? q = if q = path then entry else index.get? q := by
  cases entry with
  | none =>
    cases h
    rw [Dict.get?_filter_keys (fun k => decide (k ≠ path)) q]
    by_cases hq : q = path
    · rw [if_pos hq, if_neg (by simp [hq])]
    · rw [if_neg hq, if_pos (by simp [hq])]
  | some entry =>
    unfold update at h
    split_ifs at h with hany
    cases h
    rw [Dict.get?_set]
    by_cases hq : q = path
    · rw [if_pos hq, if_pos hq.symm]
    · rw [if_neg hq, if_neg (Ne.symm hq)]

/-- A file is put where no path of the index clashes with it. -/
theorem exists_update_iff {path : PyStr} {entry : Entry} :
    (∃ index', update index path (some entry) = some index') ↔
      ∀ p ∈ index.keys, ¬ Clashes p path := by
  unfold update
  split_ifs with hany
  · refine iff_of_false (fun ⟨_, h⟩ => by cases h) fun hnone => ?_
    obtain ⟨p, hp, hclash⟩ := any_eq_true.mp hany
    exact hnone p hp (of_decide_eq_true hclash)
  · refine iff_of_true ⟨_, rfl⟩ fun p hp hclash => hany ?_
    exact any_eq_true.mpr ⟨p, hp, decide_eq_true hclash⟩

/-- **What stands in an index after a run**: what was put there, or what stood there before. -/
theorem get?_run (hnd : (effects.map Prod.fst).Nodup)
    (h : run index effects = some index') (q : PyStr) :
    Dict.get? index' q = (Dict.get? effects q).getD (Dict.get? index q) := by
  induction effects generalizing index with
  | nil =>
    cases h
    rfl
  | cons e effects ih =>
    obtain ⟨next, hupd, hrun⟩ := Option.bind_eq_some_iff.mp h
    rw [map_cons, nodup_cons] at hnd
    rw [ih hnd.2 hrun, get?_update hupd, Dict.get?_cons]
    by_cases hq : q = e.1
    · have hnone : Dict.get? effects q = none := by
        rw [Dict.get?_eq_none_iff, hq]
        exact hnd.1
      rw [if_pos hq, if_pos hq.symm, hnone]
      rfl
    · rw [if_neg hq, if_neg (Ne.symm hq)]

/-- **A run goes through on an index that other changes have overlaid**, where none of the changes
clash, and they overlay its result. -/
theorem run_overlay (hclash : NoClash L R) {laid : Index}
    (hover : ∀ q, Dict.get? laid q = (Dict.get? L q).getD (Dict.get? index q))
    (h : run index R = some index') : ∃ laid', run laid R = some laid' ∧
      ∀ q, Dict.get? laid' q = (Dict.get? L q).getD (Dict.get? index' q) := by
  induction R generalizing index laid with
  | nil =>
    cases h
    exact ⟨laid, rfl, hover⟩
  | cons f R ih =>
    obtain ⟨next, hupd, hrun⟩ := Option.bind_eq_some_iff.mp h
    have hf : ∀ e ∈ L, (e.1 = f.1 → e.2 = f.2) ∧
        (e.2.isSome = true → f.2.isSome = true → ¬ Clashes e.1 f.1) :=
      fun e he => hclash e he f mem_cons_self
    have hgoes : ∃ laid', update laid f.1 f.2 = some laid' := by
      cases hentry : f.2 with
      | none => exact ⟨_, rfl⟩
      | some entry =>
        rw [hentry] at hupd
        rw [exists_update_iff]
        intro p hp hpf
        obtain ⟨w, hw⟩ := Option.isSome_iff_exists.mp (Dict.isSome_get?_iff.mpr hp)
        rw [hover p] at hw
        cases hL : Dict.get? L p with
        | none =>
          rw [hL] at hw
          exact exists_update_iff.mp ⟨next, hupd⟩ p
            (Dict.isSome_get?_iff.mp (Option.isSome_iff_exists.mpr ⟨w, hw⟩)) hpf
        | some v =>
          rw [hL, Option.getD_some] at hw
          refine (hf (p, v) (Dict.mem_of_get? hL)).2 ?_ ?_ hpf
          · rw [hw]
            rfl
          · rw [hentry]
            rfl
    obtain ⟨laid', hover'⟩ := hgoes
    have hnext : ∀ q, Dict.get? laid' q = (Dict.get? L q).getD (Dict.get? next q) := by
      intro q
      rw [get?_update hover', get?_update hupd]
      by_cases hq : q = f.1
      · rw [if_pos hq, if_pos hq]
        cases hL : Dict.get? L q with
        | none => rfl
        | some v => exact ((hf (q, v) (Dict.mem_of_get? hL)).1 hq).symm
      · rw [if_neg hq, if_neg hq, hover q]
    obtain ⟨result, hres, hlast⟩ :=
      ih (fun e he g hg => hclash e he g (mem_cons_of_mem _ hg)) hnext hrun
    exact ⟨result, by rw [run, hover']; exact hres, hlast⟩

/-- A file that stands in an index keeps away what clashes with it. -/
theorem not_clashes_run {q : PyStr} (hq : q ∈ index.keys)
    (hix : ∀ p ∈ index.keys, ¬ Clashes p q) (hfresh : q ∉ effects.map Prod.fst)
    (h : run index effects = some index') : ∀ p ∈ index'.keys, ¬ Clashes p q := by
  induction effects generalizing index with
  | nil =>
    cases h
    exact hix
  | cons e effects ih =>
    obtain ⟨next, hupd, hrun⟩ := Option.bind_eq_some_iff.mp h
    rw [map_cons, mem_cons, not_or] at hfresh
    have hkeys : ∀ p, p ∈ next.keys ↔
        (if p = e.1 then e.2 else index.get? p).isSome = true := by
      intro p
      rw [← Dict.isSome_get?_iff, get?_update hupd]
    refine ih ?_ (fun p hp hclash => ?_) hfresh.2 hrun
    · rw [hkeys, if_neg hfresh.1]
      exact Dict.isSome_get?_iff.mpr hq
    · rw [hkeys] at hp
      by_cases hpe : p = e.1
      · rw [if_pos hpe] at hp
        obtain ⟨entry, hentry⟩ := Option.isSome_iff_exists.mp hp
        rw [hentry] at hupd
        rw [hpe] at hclash
        exact exists_update_iff.mp ⟨next, hupd⟩ q hq hclash.symm
      · rw [if_neg hpe] at hp
        exact hix p (Dict.isSome_get?_iff.mp hp) hclash

/-- **A file that a run puts keeps away what clashes with it.** -/
theorem not_clashes_of_run (hnd : (effects.map Prod.fst).Nodup) {q : PyStr} {entry : Entry}
    (hmem : (q, some entry) ∈ effects) (h : run index effects = some index') :
    ∀ p ∈ index'.keys, ¬ Clashes p q := by
  induction effects generalizing index with
  | nil => exact absurd hmem not_mem_nil
  | cons e effects ih =>
    obtain ⟨next, hupd, hrun⟩ := Option.bind_eq_some_iff.mp h
    rw [map_cons, nodup_cons] at hnd
    rcases mem_cons.mp hmem with rfl | hmem
    · have hfree := exists_update_iff.mp ⟨next, hupd⟩
      have hkeys : ∀ p, p ∈ next.keys ↔ p = q ∨ p ∈ index.keys := by
        intro p
        rw [← Dict.isSome_get?_iff, ← Dict.isSome_get?_iff, get?_update hupd]
        by_cases hp : p = q <;> simp [hp]
      refine not_clashes_run ((hkeys q).mpr (.inl rfl)) (fun p hp => ?_) hnd.1 hrun
      rcases (hkeys p).mp hp with rfl | hp
      · exact not_clashes_self _
      · exact hfree p hp
    · exact ih hnd.2 hmem hrun

/-- **Two runs commute** iff no two of their changes clash. -/
theorem commute_iff (hL : (L.map Prod.fst).Nodup) (hR : (R.map Prod.fst).Nodup)
    (hl : run tree L = some tl) (hr : run tree R = some tr) :
    (∃ a b, run tl R = some a ∧ run tr L = some b ∧ Dict.Same a b) ↔ NoClash L R := by
  constructor
  · rintro ⟨a, b, ha, hb, hsame⟩ e he f hf
    have hgetL : Dict.get? L e.1 = some e.2 := Dict.get?_of_mem hL he
    have hgetR : Dict.get? R f.1 = some f.2 := Dict.get?_of_mem hR hf
    have hone : ∀ f ∈ R, e.1 = f.1 → e.2 = f.2 := by
      intro f hf heq
      have hleft := get?_run hR ha f.1
      have hright := get?_run hL hb e.1
      rw [Dict.get?_of_mem hR hf, Option.getD_some] at hleft
      rw [hgetL, Option.getD_some] at hright
      rw [← hleft, ← hright, ← heq]
      exact (hsame e.1).symm
    refine ⟨hone f hf, fun hesome hfsome hclash => ?_⟩
    obtain ⟨entry, hentry⟩ := Option.isSome_iff_exists.mp hfsome
    have hput : (f.1, some entry) ∈ R := by
      rw [← hentry]
      exact hf
    -- the file that the left run puts still stands where the right run has put its own
    have hstands : e.1 ∈ Dict.keys a := by
      rw [← Dict.isSome_get?_iff, get?_run hR ha e.1]
      cases hR' : Dict.get? R e.1 with
      | none =>
        rw [Option.getD_none, get?_run hL hl e.1, hgetL]
        exact hesome
      | some v =>
        have hsame' : e.2 = v := hone (e.1, v) (Dict.mem_of_get? hR') rfl
        rw [Option.getD_some, ← hsame']
        exact hesome
    exact not_clashes_of_run hR hput ha e.1 hstands hclash
  · intro hclash
    have hclash' : NoClash R L := fun f hf e he =>
      ⟨fun heq => ((hclash e he f hf).1 heq.symm).symm,
        fun hfsome hesome h => (hclash e he f hf).2 hesome hfsome h.symm⟩
    obtain ⟨a, ha, hgeta⟩ := run_overlay hclash (get?_run hL hl) hr
    obtain ⟨b, hb, hgetb⟩ := run_overlay hclash' (get?_run hR hr) hl
    refine ⟨a, b, ha, hb, fun q => ?_⟩
    rw [hgeta, hgetb, get?_run hR hr, get?_run hL hl]
    cases hgetL : Dict.get? L q with
    | none => cases Dict.get? R q <;> rfl
    | some v =>
      cases hgetR : Dict.get? R q with
      | none => rfl
      | some w =>
        exact (hclash _ (Dict.mem_of_get? hgetL) _ (Dict.mem_of_get? hgetR)).1 rfl

end

/-! ## Commutativity -/

/-- What the changes of a payload do. -/
def effectsOf (p : PacketIntegrationPayload) : List (PyStr × Option Entry) :=
  p.logicalChanges.filterMap (effect? G)

/-- **Two payloads that are said to commute**: each applies to a tree, with these results. -/
structure SaidToCommute (tree : Index) (l r : PacketIntegrationPayload) (tl tr : Index) :
    Prop where
  left : Applies P G tree l tl
  right : Applies P G tree r tr
  verdict : ∃ overlap, Overlap l r overlap ∧
    classifyPayloadConflict P l r overlap = .ok .commutative

section

variable {P G}

theorem applies_iff {tree result : Index} {p : PacketIntegrationPayload} :
    Applies P G tree p result ↔ Returns (p.payloadId P) ∧
      p.logicalChanges.map (effect? G) = (effectsOf G p).map some ∧
        ((effectsOf G p).map Prod.fst).Nodup ∧ run tree (effectsOf G p) = some result := by
  have hloop := @foldl_applyChange_iff G result p.logicalChanges { index := tree } rfl
  constructor
  · rintro ⟨receipt, h, hres⟩
    obtain ⟨payloadId, hid, h⟩ := bind_ok.mp h
    cases h
    dsimp only at hres
    split_ifs at hres with hfails
    obtain ⟨effects, heffects, hnd, -, hrun⟩ :=
      hloop.mp ⟨hfails, Option.some.inj hres⟩
    have heq : effectsOf G p = effects := by
      have hmap : effectsOf G p = (p.logicalChanges.map (effect? G)).filterMap id := by
        rw [filterMap_map]
        rfl
      rw [hmap, heffects, filterMap_map]
      exact filterMap_some
    rw [heq]
    exact ⟨⟨payloadId, hid⟩, heffects, hnd, hrun⟩
  · rintro ⟨⟨payloadId, hid⟩, heffects, hnd, hrun⟩
    obtain ⟨hfails, hix⟩ := hloop.mpr ⟨_, heffects, hnd, by simp, hrun⟩
    refine ⟨_, bind_intro hid rfl, ?_⟩
    dsimp only
    rw [if_pos hfails, hix]

/-- **Payloads that are said to commute do** iff none of their changes clash, at the paths that
their spellings name. -/
theorem saidToCommute_sound_iff (tree : Index) (l r : PacketIntegrationPayload) :
    (∀ tl tr, SaidToCommute P G tree l r tl tr →
        ∃ a b, Applies P G tl r a ∧ Applies P G tr l b ∧ Dict.Same a b) ↔
      ∀ tl tr, SaidToCommute P G tree l r tl tr → NoClash (effectsOf G l) (effectsOf G r) := by
  refine forall_congr' fun tl => forall_congr' fun tr => forall_congr' fun h => ?_
  obtain ⟨hidl, hl, hnodupl, hrunl⟩ := applies_iff.mp h.left
  obtain ⟨hidr, hr, hnodupr, hrunr⟩ := applies_iff.mp h.right
  rw [← commute_iff hnodupl hnodupr hrunl hrunr]
  refine exists_congr fun a => exists_congr fun b => ?_
  rw [applies_iff, applies_iff]
  constructor
  · rintro ⟨⟨-, -, -, ha⟩, ⟨-, -, -, hb⟩, hsame⟩
    exact ⟨ha, hb, hsame⟩
  · rintro ⟨ha, hb, hsame⟩
    exact ⟨⟨hidr, hr, hnodupr, ha⟩, ⟨hidl, hl, hnodupl, hb⟩, hsame⟩

end

/-! ### Two spellings of one path -/

/-- A git that knows every object and accepts every path. -/
def everyObject : Git := ⟨fun _ name => some name, fun _ => true⟩

/-- A payload that adds a file. -/
def addsPlain : PacketIntegrationPayload :=
  payloadOf (py "K") [changeOf (py "a") (py "ADD") (py "1")] (cons_ne_nil _ _)

/-- A payload that adds another file at the same path, spelled otherwise. -/
def addsDotted : PacketIntegrationPayload :=
  payloadOf (py "M") [changeOf (py "./a") (py "ADD") (py "2")] (cons_ne_nil _ _)

/-- **Two spellings of one path**: the payloads are said to commute, and the order decides which
file stands there. -/
theorem twoSpellings_disagree : SaidToCommute .reference everyObject [] addsPlain addsDotted
        [(py "a", (py "100644", py "1"))] [(py "a", (py "100644", py "2"))] ∧
      ¬ ∃ a b, Applies .reference everyObject [(py "a", (py "100644", py "1"))] addsDotted a ∧
        Applies .reference everyObject [(py "a", (py "100644", py "2"))] addsPlain b ∧
          Dict.Same a b := by
  have hids : Returns (addsPlain.payloadId .reference) ∧
      Returns (addsDotted.payloadId .reference) := by
    decide +kernel
  have heffects : effectsOf everyObject addsPlain = [(py "a", some (py "100644", py "1"))] ∧
      effectsOf everyObject addsDotted = [(py "a", some (py "100644", py "2"))] ∧
      addsPlain.logicalChanges.map (effect? everyObject) =
        [some (py "a", some (py "100644", py "1"))] ∧
      addsDotted.logicalChanges.map (effect? everyObject) =
        [some (py "a", some (py "100644", py "2"))] := by
    decide +kernel
  obtain ⟨hplain, hdotted, hplain', hdotted'⟩ := heffects
  have hverd : classifyPayloadConflict .reference addsPlain addsDotted [] =
      .ok .commutative ∧ Dict.keys (paths addsPlain) = [py "a"] ∧
        Dict.keys (paths addsDotted) = [py "./a"] := by
    decide +kernel
  obtain ⟨hcommutative, hkeys, hkeys'⟩ := hverd
  refine ⟨⟨?_, ?_, [], ⟨nodup_nil, fun path => ?_⟩, hcommutative⟩, ?_⟩
  · rw [applies_iff, hplain, hplain']
    exact ⟨hids.1, rfl, by simp, rfl⟩
  · rw [applies_iff, hdotted, hdotted']
    exact ⟨hids.2, rfl, by simp, rfl⟩
  · rw [hkeys, hkeys']
    refine iff_of_false not_mem_nil fun ⟨hl, hr⟩ => ?_
    rw [mem_singleton.mp hl] at hr
    exact absurd (mem_singleton.mp hr) (by simp)
  · rintro ⟨a, b, ha, hb, hsame⟩
    rw [applies_iff, hdotted] at ha
    rw [applies_iff, hplain] at hb
    have hleft := get?_run (by simp) ha.2.2.2 (py "a")
    have hright := get?_run (by simp) hb.2.2.2 (py "a")
    rw [hsame (py "a"), hright] at hleft
    simp at hleft

end OvcReplay.Skills.VitPayload
