import OvcReplay.C2e.Emission

/-! # The lifecycle engine as a transition system

`Step` lists the writes an operation can stop after, each with what the operation had checked before.
Every call, whether it returns or raises, leaves a state that such steps reach (`steps_run`), so what
every step keeps holds after every run. -/

namespace OvcReplay.C2e

open Python Raising

variable (P : Platform)

variable {P} in
/-- Ids are filled texts. -/
theorem filled_of_payloadId {kind : RecordKind} {payload : Record} {id : PyStr}
    (h : payloadId P kind payload = .ok id) : Filled id := by
  obtain ⟨fields, -, hid⟩ := payloadId_ok.mp h
  refine ⟨?_, ?_⟩
  · rintro rfl
    have hnil := List.prefix_nil.mp (prefix_of_recordId P hid)
    rw [py_eq_nil] at hnil
    cases kind <;> simp [RecordKind.spec] at hnil
  · rw [recordId, bind_ok] at hid
    obtain ⟨_, -, hid⟩ := hid
    exact encodable_of_digest P (encodable_py _) hid

variable {P} in
theorem Emits.filled {kind : RecordKind} {payload record : Record} {ids : List PyStr} {id : PyStr}
    (h : Emits P kind payload ids record id) : Filled id :=
  filled_of_payloadId h.payloadId

namespace EpisodeEngine

/-- The key of the frame a call is given. -/
def Call.frameKey : Call → Option OwnerKey
  | .birth frame _ _ _ _ => (lookup frame (py "identity") >>= ownerKey P frame).toOption
  | .continueEpisode _ frame _ _ _ => (lookup frame (py "identity") >>= ownerKey P frame).toOption
  | _ => none

variable (engine : EpisodeEngine)

/-- The engine with a newborn episode. -/
def bear (key : OwnerKey) (genesis : Record) (id : PyStr) : EpisodeEngine :=
  { engine.emit genesis id with
    genesis := engine.genesis.set id genesis
    statusByEpisode := engine.statusByEpisode.set id .opened
    ownerByFrame := engine.ownerByFrame.set key id }

/-- The engine with another status of an episode. -/
def setStatus (id : PyStr) (status : EpisodeStatus) : EpisodeEngine :=
  { engine with statusByEpisode := engine.statusByEpisode.set id status }

/-- The engine with another owner of a frame. -/
def setOwner (key : OwnerKey) (id : PyStr) : EpisodeEngine :=
  { engine with ownerByFrame := engine.ownerByFrame.set key id }

/-- **A write of an operation that was given a frame with this key.** -/
inductive Step (frameKey : Option OwnerKey) (s : EpisodeEngine) : EpisodeEngine → Prop
  | bear {frame : Record} {identity : PyVal} {key : OwnerKey} {payload genesis : Record}
      {ruleId effectiveTime firstValidTime id : PyStr}
      (hframe : frameKey = some key) (hfree : key ∉ s.ownerByFrame.keys)
      (hpayload : genesisPayload s.boundaryPackId frame identity ruleId effectiveTime
        firstValidTime = .ok payload)
      (h : Emits P .episodeGenesis payload s.stream.ids genesis id) :
      Step frameKey s (s.bear key genesis id)
  | event {episodeId : PyStr} {candidateIds : List PyStr} {action : PyStr} {priority : Int}
      {effectiveTime firstValidTime : PyStr} {reasonCodes : List PyStr} {record : Record}
      {id : PyStr} (hopen : s.statusByEpisode.get? episodeId = some .opened)
      (haction : closing action = none)
      (h : Emits P .boundaryEvent (eventPayload [episodeId] candidateIds action priority
        effectiveTime firstValidTime reasonCodes) s.stream.ids record id) :
      Step frameKey s (s.emit record id)
  | close {episodeId : PyStr} {candidateIds : List PyStr} {action : PyStr} {priority : Int}
      {effectiveTime firstValidTime : PyStr} {reasonCodes : List PyStr} {record : Record}
      {id : PyStr} {status : EpisodeStatus}
      (hopen : s.statusByEpisode.get? episodeId = some .opened)
      (haction : closing action = some status)
      (h : Emits P .boundaryEvent (eventPayload [episodeId] candidateIds action priority
        effectiveTime firstValidTime reasonCodes) s.stream.ids record id) :
      Step frameKey s ((s.emit record id).setStatus episodeId status)
  | join {episodeId : PyStr} {key : OwnerKey} {frameId : PyVal}
      {eventId effectiveTime firstValidTime : PyStr} {record : Record} {id : PyStr}
      (hframe : frameKey = some key)
      (hopen : s.statusByEpisode.get? episodeId = some .opened)
      (howner : s.ownerByFrame.get? key = none ∨
        s.ownerByFrame.get? key = some episodeId)
      (htext : strOf P frameId = .ok key.2.2)
      (h : Emits P .membershipDelta (membershipPayload episodeId frameId eventId effectiveTime
        firstValidTime) s.stream.ids record id) :
      Step frameKey s ((s.emit record id).setOwner key episodeId)
  | joinOwned {episodeId : PyStr} {key : OwnerKey} {frameId : PyVal}
      {eventId effectiveTime firstValidTime : PyStr} {record : Record} {id : PyStr}
      (hframe : frameKey = some key)
      (hopen : s.statusByEpisode.get? episodeId = some .opened)
      (howner : s.ownerByFrame.get? key = some episodeId)
      (htext : strOf P frameId = .ok key.2.2)
      (h : Emits P .membershipDelta (membershipPayload episodeId frameId eventId effectiveTime
        firstValidTime) s.stream.ids record id) :
      Step frameKey s (s.emit record id)
  | phase {episodeId phaseType startTime : PyStr} {endTime : Option PyStr}
      {firstValidTime : PyStr} {sourceRecordIds : List PyStr} {record : Record} {id : PyStr}
      (hopen : s.statusByEpisode.get? episodeId = some .opened)
      (h : Emits P .phaseSegment (phasePayload episodeId phaseType startTime endTime
        firstValidTime sourceRecordIds) s.stream.ids record id) :
      Step frameKey s (s.emit record id)
  | topology {topology : EpisodeTopology} (h : s.topology.Acyclic → topology.Acyclic) :
      Step frameKey s { s with topology }
  | linked {parent child : PyStr} {candidateIds : List PyStr} {edgeType : PyStr} {priority : Int}
      {effectiveTime firstValidTime : PyStr} {record : Record} {id : PyStr}
      (hparent : parent ∈ s.genesis.keys) (hchild : child ∈ s.genesis.keys)
      (hne : parent ≠ child) (hedge : edgeType ∈ EpisodeTopology.edgeTypes.map py)
      (h : Emits P .boundaryEvent (eventPayload (sortedSet [parent, child]) candidateIds edgeType
        priority effectiveTime firstValidTime []) s.stream.ids record id) :
      Step frameKey s (s.emit record id)
  | edge {edgeType parent child eventId effectiveTime firstValidTime : PyStr} {record : Record}
      {id : PyStr}
      (h : Emits P .lineageEdge (EpisodeTopology.edgePayload edgeType parent child eventId
        effectiveTime firstValidTime) s.stream.ids record id) :
      Step frameKey s (s.emit record id)

/-- The states that steps with this frame key reach. -/
abbrev Steps (frameKey : Option OwnerKey) : EpisodeEngine → EpisodeEngine → Prop :=
  Relation.ReflTransGen (Step P frameKey)

/-! ## Rules for the parts of an operation -/

section Rules

variable {P} {engine : EpisodeEngine} {E : Error → EpisodeEngine → Prop} {Q : EpisodeEngine → Prop}

theorem ends_requireOpen {episodeId : PyStr} {R : Unit → EpisodeEngine → Prop} :
    ends (requireOpen episodeId) R E engine ↔
      (engine.statusByEpisode.get? episodeId = some .opened → R () engine) ∧
        (engine.statusByEpisode.get? episodeId ≠ some .opened →
          E (.lifecycle (py "EPISODE_NOT_OPEN")) engine) := by
  simp [requireOpen]

/-- An event is emitted, or the call raises where it stands. -/
theorem ends_event {episodeIds candidateIds : List PyStr} {action : PyStr} {priority : Int}
    {effectiveTime firstValidTime : PyStr} {reasonCodes : List PyStr}
    {R : Record → EpisodeEngine → Prop} :
    ends (event P episodeIds candidateIds action priority effectiveTime firstValidTime reasonCodes)
        R (fun _ => Q) engine ↔
      (∀ record id, Emits P .boundaryEvent (eventPayload episodeIds candidateIds action priority
        effectiveTime firstValidTime reasonCodes) engine.stream.ids record id →
          R record (engine.emit record id)) ∧
      (¬ Emittable P .boundaryEvent (eventPayload episodeIds candidateIds action priority
        effectiveTime firstValidTime reasonCodes) engine.stream.ids → Q engine) := by
  rw [event, buildEvent]
  simp only [ends_bind, ends_pure]
  rw [ends_lift_append regular_eventPayload]

end Rules

/-! ## Every call takes steps -/

section Runs

variable {P} {engine : EpisodeEngine}

theorem event_action (action : PyStr) (h : action ∈ EpisodeTopology.edgeTypes.map py) :
    closing action = none := by
  obtain ⟨name, hname, rfl⟩ := List.mem_map.mp h
  revert name
  simp [EpisodeTopology.edgeTypes, closing]

variable {frame : Record}

theorem strOf_of_ownerKey {identity : PyVal} {key : OwnerKey}
    (h : ownerKey P frame identity = .ok key) :
    ∃ frameId, lookup frame (py "frame_id") = .ok frameId ∧ strOf P frameId = .ok key.2.2 := by
  simp only [ownerKey, bind_ok] at h
  obtain ⟨_, -, _, -, _, -, _, -, frameId, hframe, text, htext, h⟩ := h
  cases h
  exact ⟨frameId, hframe, htext⟩

theorem frameKey_birth {identity : PyVal} {key : OwnerKey}
    (hid : lookup frame (py "identity") = .ok identity)
    (hkey : ownerKey P frame identity = .ok key) :
    (lookup frame (py "identity") >>= ownerKey P frame).toOption = some key := by
  rw [hid]
  simp only [bind, Except.bind, hkey]
  rfl

variable {candidateId episodeId : PyStr}

theorem steps_birth {ruleId effectiveTime firstValidTime : PyStr} :
    ends (birth P frame ruleId candidateId effectiveTime firstValidTime)
      (fun _ => Steps P (Call.frameKey P
        (.birth frame ruleId candidateId effectiveTime firstValidTime)) engine)
      (fun _ => Steps P (Call.frameKey P
        (.birth frame ruleId candidateId effectiveTime firstValidTime)) engine) engine := by
  rw [birth]
  simp only [ends_bind, ends_get, ends_require, ends_modify, ends_pure]
  rw [ends_lift]
  refine ⟨fun identity hid => ?_, fun _ _ => .refl⟩
  rw [ends_lift]
  refine ⟨fun key hkey => ⟨fun hfree => ?_, fun _ => .refl⟩, fun _ _ => .refl⟩
  rw [ends_lift]
  refine ⟨fun payload hpay => ?_, fun _ _ => .refl⟩
  rw [ends_lift_append (regular_genesisPayload hpay)]
  refine ⟨fun genesis id hg => ?_, fun _ => .refl⟩
  have hframe := frameKey_birth hid hkey
  have hborn : Steps P _ engine (engine.bear key genesis id) :=
    .single (.bear hframe hfree hpay hg)
  have htext : textField genesis (py "episode_id") = .ok id := hg.textField
  rw [htext, ends_lift_ok]
  change ends _ _ _ (engine.bear key genesis id)
  rw [ends_event]
  have hopen : Dict.get? (engine.bear key genesis id).statusByEpisode id = some .opened :=
    Dict.get?_set_self _ _ _
  refine ⟨fun event eventId he => ?_, fun _ => hborn⟩
  have hev := hborn.tail (.event hopen (by simp [closing]) he)
  obtain ⟨frameId, hframeId, hstr⟩ := strOf_of_ownerKey hkey
  have hetext : textField event (py "boundary_event_id") = .ok eventId := he.textField
  rw [hframeId, ends_lift_ok, hetext, ends_lift_ok, ends_lift_append regular_membershipPayload]
  refine ⟨fun membership membershipId hm => ?_, fun _ => hev⟩
  exact hev.tail (.joinOwned hframe hopen (Dict.get?_set_self _ _ _) hstr hm)

theorem steps_continueEpisode {effectiveTime firstValidTime : PyStr} :
    ends (continueEpisode P episodeId frame candidateId effectiveTime firstValidTime)
      (fun _ => Steps P (Call.frameKey P
        (.continueEpisode episodeId frame candidateId effectiveTime firstValidTime)) engine)
      (fun _ => Steps P (Call.frameKey P
        (.continueEpisode episodeId frame candidateId effectiveTime firstValidTime)) engine)
      engine := by
  rw [continueEpisode]
  simp only [ends_bind, ends_requireOpen, ends_get, ends_require, ends_modify, ends_pure]
  refine ⟨fun hopen => ?_, fun _ => .refl⟩
  rw [ends_lift]
  refine ⟨fun identity hid => ?_, fun _ _ => .refl⟩
  rw [ends_lift]
  refine ⟨fun key hkey => ⟨fun howner => ?_, fun _ => .refl⟩, fun _ _ => .refl⟩
  have hframe := frameKey_birth hid hkey
  rw [ends_event]
  refine ⟨fun event eventId he => ?_, fun _ => .refl⟩
  have hev : Steps P (Call.frameKey P
      (.continueEpisode episodeId frame candidateId effectiveTime firstValidTime)) engine
      (engine.emit event eventId) := .single (.event hopen (by simp [closing]) he)
  obtain ⟨frameId, hframeId, hstr⟩ := strOf_of_ownerKey hkey
  have hetext : textField event (py "boundary_event_id") = .ok eventId := he.textField
  rw [hframeId, ends_lift_ok, hetext, ends_lift_ok, ends_lift_append regular_membershipPayload]
  refine ⟨fun membership membershipId hm => ?_, fun _ => hev⟩
  exact hev.tail (.join hframe hopen howner hstr hm)

variable {frameKey : Option OwnerKey} {effectiveTime firstValidTime : PyStr}

theorem steps_phaseMutation {phaseType startTime : PyStr}
    {endTime : Option PyStr} {sourceRecordIds : List PyStr} :
    ends (phaseMutation P episodeId candidateId phaseType startTime endTime sourceRecordIds
      effectiveTime firstValidTime) (fun _ => Steps P frameKey engine)
      (fun _ => Steps P frameKey engine) engine := by
  rw [phaseMutation]
  simp only [ends_bind, ends_requireOpen, ends_pure]
  refine ⟨fun hopen => ?_, fun _ => .refl⟩
  rw [ends_event]
  refine ⟨fun event eventId he => ?_, fun _ => .refl⟩
  have hev : Steps P frameKey engine (engine.emit event eventId) :=
    .single (.event hopen (by simp [closing]) he)
  rw [ends_lift_append regular_phasePayload]
  exact ⟨fun phase phaseId hp => hev.tail (.phase hopen hp), fun _ => hev⟩

theorem steps_reParent {effectiveTime firstValidTime : PyStr} {reasonCodes : Option (List PyStr)} :
    ends (reParent P episodeId candidateId effectiveTime firstValidTime reasonCodes)
      (fun _ => Steps P frameKey engine) (fun _ => Steps P frameKey engine) engine := by
  rw [reParent]
  simp only [ends_bind, ends_requireOpen]
  refine ⟨fun hopen => ?_, fun _ => .refl⟩
  rw [ends_event]
  exact ⟨fun event eventId he => .single (.event hopen (by simp [closing]) he), fun _ => .refl⟩

theorem steps_censor {reason effectiveTime firstValidTime : PyStr} :
    ends (censor P episodeId candidateId reason effectiveTime firstValidTime)
      (fun _ => Steps P frameKey engine) (fun _ => Steps P frameKey engine) engine := by
  rw [censor]
  simp only [ends_bind, ends_requireOpen, ends_require, ends_modify, ends_pure]
  refine ⟨fun hopen => ⟨fun hreason => ?_, fun _ => .refl⟩, fun _ => .refl⟩
  rw [ends_event]
  have hclosing : closing reason = some .censored := if_pos hreason
  exact ⟨fun event eventId he => .single (.close hopen hclosing he), fun _ => .refl⟩

theorem steps_terminate {conflict : Bool} :
    ends (terminate P episodeId candidateId conflict effectiveTime firstValidTime)
      (fun _ => Steps P frameKey engine) (fun _ => Steps P frameKey engine) engine := by
  rw [terminate]
  simp only [ends_bind, ends_requireOpen, ends_modify, ends_pure]
  refine ⟨fun hopen => ?_, fun _ => .refl⟩
  rw [ends_event]
  have hclosing : closing (if conflict then py "TERMINATE_CONFLICT" else py "TERMINATE") =
      some (if conflict then .conflicted else .terminated) := by
    cases conflict <;> simp [closing]
  exact ⟨fun event eventId he => .single (.close hopen hclosing he), fun _ => .refl⟩

theorem steps_link {edgeType parent child effectiveTime firstValidTime : PyStr} :
    ends (link P edgeType parent child candidateId effectiveTime firstValidTime)
      (fun _ => Steps P frameKey engine) (fun _ => Steps P frameKey engine) engine := by
  rw [link, buildEvent]
  simp only [ends_bind, ends_get, ends_require, ends_zoom, ends_pure]
  refine ⟨fun hopen => ?_, fun _ => .refl⟩
  obtain ⟨hpar, hchild⟩ := hopen
  rw [ends_lift]
  refine ⟨fun event hbuilt => ?_, fun _ _ => .refl⟩
  rw [ends_lift]
  refine ⟨fun eventId _ => ?_, fun _ _ => .refl⟩
  rw [EpisodeTopology.ends_addEdge]
  refine ⟨fun edge hadms hedge => ?_, fun _ => .refl⟩
  obtain ⟨htype, hne, hreach⟩ := hadms
  have htopology : Steps P frameKey engine { engine with
      topology := ⟨engine.topology.addChild parent child, engine.topology.edges ++ [edge]⟩ } :=
    .single (.topology fun h => h.addChild hne hreach)
  rw [ends_append regular_eventPayload hbuilt]
  refine ⟨fun id he => ?_, fun _ => htopology⟩
  have hev := htopology.tail (.linked hpar hchild hne htype he)
  rw [ends_append regular_edgePayload hedge]
  exact ⟨fun edgeId hedge => hev.tail (.edge hedge), fun _ => hev⟩

/-- **Every call takes steps**, whether it returns or raises. -/
theorem steps_run (call : Call) : Steps P (call.frameKey P) engine (left (call.run P engine)) := by
  rw [← ends_left (I := Steps P (call.frameKey P) engine)]
  cases call with
  | birth => exact steps_birth
  | continueEpisode => exact steps_continueEpisode
  | phaseMutation => exact steps_phaseMutation
  | reParent => exact steps_reParent
  | censor => exact steps_censor
  | terminate => exact steps_terminate
  | link => exact steps_link

/-- **What every step keeps, every run keeps.** -/
theorem afterCalls_invariant {I : EpisodeEngine → Prop} {boundaryPackId : PyStr}
    (hinit : I (init boundaryPackId))
    (hstep : ∀ frameKey s s', Step P frameKey s s' → I s → I s') (calls : List Call) :
    I (afterCalls P boundaryPackId calls) := by
  refine after_invariant (fun call s hs => ?_) calls hinit
  rw [ends_left]
  exact (steps_run call).head_induction_on (motive := fun s _ => I s → I _) id
    (fun hfst _ ih hs => ih (hstep _ _ _ hfst hs)) hs

/-- Episodes with a status have a genesis, and their ids are filled. -/
structure Registered (s : EpisodeEngine) : Prop where
  filled : ∀ id ∈ s.genesis.keys, Filled id
  genesis_of_status : ∀ id ∈ s.statusByEpisode.keys, id ∈ s.genesis.keys

theorem registered_step {s s' : EpisodeEngine} (h : Step P frameKey s s') (hs : Registered s) :
    Registered s' := by
  cases h with
  | bear _ _ _ hg =>
    refine ⟨fun id hid => ?_, fun id hid => ?_⟩
    · rcases Dict.mem_keys_set.mp hid with rfl | hid
      · exact hg.filled
      · exact hs.filled id hid
    · rcases Dict.mem_keys_set.mp hid with rfl | hid
      · exact Dict.mem_keys_set.mpr (.inl rfl)
      · exact Dict.mem_keys_set.mpr (.inr (hs.genesis_of_status id hid))
  | @close episodeId _ _ _ _ _ _ _ _ _ hopen =>
    refine ⟨hs.filled, fun id hid => ?_⟩
    rcases Dict.mem_keys_set.mp hid with rfl | hid
    · exact hs.genesis_of_status _ (Dict.isSome_get?_iff.mp (hopen ▸ rfl))
    · exact hs.genesis_of_status id hid
  | _ => exact ⟨hs.filled, hs.genesis_of_status⟩

theorem registered_afterCalls (boundaryPackId : PyStr) (calls : List Call) :
    Registered (afterCalls P boundaryPackId calls) :=
  afterCalls_invariant ⟨by simp [init], by simp [init]⟩ (fun _ _ _ => registered_step) calls

end Runs

end EpisodeEngine

end OvcReplay.C2e
