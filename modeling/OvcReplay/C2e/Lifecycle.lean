import OvcReplay.C2e.Projection
import OvcReplay.C2e.Stream
import OvcReplay.C2e.Topology

/-! # The lifecycle engine of C2E v0.2

`lifecycle.py`: episodes are born on a frame, continued, mutated, censored or terminated, and linked.
The engine keeps its stream of records next to three caches: the genesis of every episode, its
status, and the episode that owns each frame. -/

namespace OvcReplay.C2e

open Python Raising

variable (P : Platform)

/-- `(scope_id, scale_id, frame_id)`. -/
abbrev OwnerKey : Type := PyStr × PyStr × PyStr

/-- `EpisodeEngine`. -/
structure EpisodeEngine where
  boundaryPackId : PyStr
  stream : AppendOnlyStream
  topology : EpisodeTopology
  genesis : Dict PyStr Record
  statusByEpisode : Dict PyStr EpisodeStatus
  ownerByFrame : Dict OwnerKey PyStr
  deriving DecidableEq

/-- A method of the engine. -/
abbrev EngineM (α : Type) : Type := Raising Error EpisodeEngine α

namespace EpisodeEngine

variable (boundaryPackId : PyStr)

/-- `EpisodeEngine(boundary_pack_id)`. -/
def init : EpisodeEngine :=
  ⟨boundaryPackId, .empty, .empty, [], [], []⟩

/-- `self.stream.append`. -/
def append (record : Record) : EngineM Unit :=
  zoom EpisodeEngine.stream (fun engine stream => { engine with stream })
    (AppendOnlyStream.append P record)

variable (episodeId : PyStr)

/-- `_require_open`. -/
def requireOpen : EngineM Unit := do
  let engine ← get
  require (engine.statusByEpisode.get? episodeId = some .opened)
    (.lifecycle (py "EPISODE_NOT_OPEN"))

/-- `v[k]`. -/
def subscript (v : PyVal) (k : PyStr) : Except Error PyVal := (v.subscript k).mapError .python

/-- A field that `build_record` set to a text. -/
def textField (record : Record) (field : PyStr) : Except Error PyStr :=
  match record.get? field with
  | some (.str s) => .ok s
  | some _ => .error (.python .typeError)
  | none => .error (.python .keyError)

/-- The frame's owner key. -/
def ownerKey (frame : Record) (identity : PyVal) : Except Error OwnerKey := do
  let scopeId ← strOf P (← subscript identity (py "scope_id"))
  let scaleId ← strOf P (← subscript identity (py "scale_id"))
  let frameId ← strOf P (← lookup frame (py "frame_id"))
  return (scopeId, scaleId, frameId)

/-! ## Payloads -/

variable (episodeIds candidateIds : List PyStr)

/-- The payload of a boundary event. -/
def eventPayload (action : PyStr) (priority : Int)
    (effectiveTime firstValidTime : PyStr) (reasonCodes : List PyStr) : Record :=
  [(py "episode_ids", .ofStrs episodeIds), (py "candidate_ids", .ofStrs candidateIds),
    (py "lifecycle_action", .str action), (py "priority_class", .int priority),
    (py "compatibility_disposition", .str (py "ORDERED_BY_PRIORITY")),
    (py "effective_time", .str effectiveTime), (py "confirmation_time", .str firstValidTime),
    (py "first_valid_time", .str firstValidTime), (py "collision_disposition", .str (py "NONE")),
    (py "reason_codes", .ofStrs reasonCodes),
    (py "authority", .str (py "INACTIVE_NONCANONICAL_SHADOW"))]

/-- `_build_event`. -/
def buildEvent (action : PyStr) (priority : Int)
    (effectiveTime firstValidTime : PyStr) (reasonCodes : List PyStr) : Except Error Record :=
  buildRecord P .boundaryEvent
    (eventPayload episodeIds candidateIds action priority effectiveTime firstValidTime reasonCodes)

/-- `_event`. -/
def event (action : PyStr) (priority : Int)
    (effectiveTime firstValidTime : PyStr) (reasonCodes : List PyStr) : EngineM Record := do
  let event ← lift (buildEvent P episodeIds candidateIds action priority effectiveTime
    firstValidTime reasonCodes)
  append P event
  return event

/-- The payload of a genesis record. -/
def genesisPayload (frame : Record) (identity : PyVal)
    (boundaryRuleId effectiveTime firstValidTime : PyStr) : Except Error Record := do
  let sourceBinding ← lookup frame (py "source_binding")
  let sourceReleaseId ← subscript sourceBinding (py "source_release_id")
  let instrumentId ← subscript identity (py "instrument_id")
  let side ← subscript identity (py "side")
  let scopeId ← subscript identity (py "scope_id")
  let scaleId ← subscript identity (py "scale_id")
  let frameId ← lookup frame (py "frame_id")
  return [(py "boundary_pack_id", .str boundaryPackId), (py "source_release_id", sourceReleaseId),
    (py "instrument_id", instrumentId), (py "side", side), (py "scope_id", scopeId),
    (py "scale_id", scaleId), (py "birth_frame_id", frameId),
    (py "birth_boundary_rule_id", .str boundaryRuleId),
    (py "birth_effective_time", .str effectiveTime), (py "first_valid_time", .str firstValidTime),
    (py "authority", .str (py "INACTIVE_NONCANONICAL_SHADOW"))]

/-- The payload of a membership delta. -/
def membershipPayload (frameId : PyVal)
    (boundaryEventId effectiveTime firstValidTime : PyStr) : Record :=
  [(py "episode_id", .str episodeId), (py "frame_id", frameId), (py "operation", .str (py "ADD")),
    (py "boundary_event_id", .str boundaryEventId), (py "effective_time", .str effectiveTime),
    (py "first_valid_time", .str firstValidTime),
    (py "authority", .str (py "INACTIVE_NONCANONICAL_SHADOW"))]

/-- The payload of a phase segment. -/
def phasePayload (episodeId phaseType startTime : PyStr) (endTime : Option PyStr)
    (firstValidTime : PyStr) (sourceRecordIds : List PyStr) : Record :=
  [(py "episode_id", .str episodeId), (py "phase_type", .str phaseType),
    (py "start_time", .str startTime), (py "end_time", .ofStr? endTime),
    (py "first_valid_time", .str firstValidTime),
    (py "source_record_ids", .ofStrs sourceRecordIds),
    (py "authority", .str (py "INACTIVE_NONCANONICAL_SHADOW"))]

/-! ## Operations -/

/-- `birth`. -/
def birth (frame : Record) (boundaryRuleId candidateId effectiveTime firstValidTime : PyStr) :
    EngineM Record := do
  let identity ← lift (lookup frame (py "identity"))
  let ownerKey ← lift (ownerKey P frame identity)
  let engine ← get
  require (ownerKey ∉ engine.ownerByFrame.keys)
    (.lifecycle (py "C2E_OWNER_MULTIPLE_PEER_OWNERS"))
  let payload ← lift (genesisPayload engine.boundaryPackId frame identity boundaryRuleId
    effectiveTime firstValidTime)
  let genesis ← lift (buildRecord P .episodeGenesis payload)
  append P genesis
  let episodeId ← lift (textField genesis (py "episode_id"))
  modify fun engine => { engine with genesis := engine.genesis.set episodeId genesis }
  modify fun engine =>
    { engine with statusByEpisode := engine.statusByEpisode.set episodeId .opened }
  modify fun engine =>
    { engine with ownerByFrame := engine.ownerByFrame.set ownerKey episodeId }
  let event ← event P [episodeId] [candidateId] (py "BIRTH") 8 effectiveTime firstValidTime []
  let frameId ← lift (lookup frame (py "frame_id"))
  let boundaryEventId ← lift (textField event (py "boundary_event_id"))
  let membership ← lift (buildRecord P .membershipDelta
    (membershipPayload episodeId frameId boundaryEventId effectiveTime firstValidTime))
  append P membership
  return genesis

/-- `continue_episode`. -/
def continueEpisode (frame : Record)
    (candidateId effectiveTime firstValidTime : PyStr) : EngineM Record := do
  requireOpen episodeId
  let identity ← lift (lookup frame (py "identity"))
  let ownerKey ← lift (ownerKey P frame identity)
  let engine ← get
  let existing := engine.ownerByFrame.get? ownerKey
  require (existing = none ∨ existing = some episodeId)
    (.lifecycle (py "C2E_OWNER_MULTIPLE_PEER_OWNERS"))
  let event ← event P [episodeId] [candidateId] (py "CONTINUATION") 7 effectiveTime firstValidTime
    []
  let frameId ← lift (lookup frame (py "frame_id"))
  let boundaryEventId ← lift (textField event (py "boundary_event_id"))
  let membership ← lift (buildRecord P .membershipDelta
    (membershipPayload episodeId frameId boundaryEventId effectiveTime firstValidTime))
  append P membership
  modify fun engine =>
    { engine with ownerByFrame := engine.ownerByFrame.set ownerKey episodeId }
  return membership

/-- `phase_mutation`. -/
def phaseMutation (episodeId candidateId phaseType startTime : PyStr) (endTime : Option PyStr)
    (sourceRecordIds : List PyStr) (effectiveTime firstValidTime : PyStr) : EngineM Record := do
  requireOpen episodeId
  let _ ← event P [episodeId] [candidateId] (py "PHASE_MUTATION") 6 effectiveTime firstValidTime []
  let phase ← lift (buildRecord P .phaseSegment
    (phasePayload episodeId phaseType startTime endTime firstValidTime sourceRecordIds))
  append P phase
  return phase

/-- `re_parent`. -/
def reParent (episodeId candidateId effectiveTime firstValidTime : PyStr)
    (reasonCodes : Option (List PyStr)) : EngineM Record := do
  requireOpen episodeId
  event P [episodeId] [candidateId] (py "RE_PARENT") 4 effectiveTime firstValidTime
    (reasonCodes.getD [])

/-- `censor`. -/
def censor (episodeId candidateId reason effectiveTime firstValidTime : PyStr) :
    EngineM Record := do
  requireOpen episodeId
  require (reason = py "CENSOR_GAP" ∨ reason = py "CENSOR_RELEASE_END")
    (.lifecycle (py "CENSOR_REASON_INVALID"))
  let event ← event P [episodeId] [candidateId] reason 2 effectiveTime firstValidTime
    [if reason = py "CENSOR_GAP" then py "C2E_SOURCE_GAP" else py "C2E_RELEASE_END_CENSORED"]
  modify fun engine =>
    { engine with statusByEpisode := engine.statusByEpisode.set episodeId .censored }
  return event

/-- `terminate`. -/
def terminate (episodeId candidateId : PyStr) (conflict : Bool)
    (effectiveTime firstValidTime : PyStr) : EngineM Record := do
  requireOpen episodeId
  let action := if conflict then py "TERMINATE_CONFLICT" else py "TERMINATE"
  let event ← event P [episodeId] [candidateId] action (if conflict then 3 else 5) effectiveTime
    firstValidTime (if conflict then [py "C2E_CONFLICT"] else [])
  modify fun engine =>
    { engine with
      statusByEpisode := engine.statusByEpisode.set episodeId
        (if conflict then .conflicted else .terminated) }
  return event

/-- `link`. -/
def link (edgeType parentEpisodeId childEpisodeId candidateId effectiveTime
    firstValidTime : PyStr) : EngineM Record := do
  let engine ← get
  require (parentEpisodeId ∈ engine.genesis.keys ∧ childEpisodeId ∈ engine.genesis.keys)
    (.lifecycle (py "TOPOLOGY_EPISODE_NOT_FOUND"))
  let event ← lift (buildEvent P (sortedSet [parentEpisodeId, childEpisodeId]) [candidateId]
    edgeType 4 effectiveTime firstValidTime [])
  let boundaryEventId ← lift (textField event (py "boundary_event_id"))
  let edge ← zoom EpisodeEngine.topology (fun engine topology => { engine with topology })
    (EpisodeTopology.addEdge P edgeType parentEpisodeId childEpisodeId boundaryEventId
      effectiveTime firstValidTime)
  append P event
  append P edge
  return edge

/-- `snapshot`. -/
def snapshot (engine : EpisodeEngine) (episodeId asOfTime firstValidTime : PyStr) :
    Except Error Record :=
  projectEpisode P episodeId engine.stream.records asOfTime firstValidTime

/-! ## Calls -/

/-- A public call with its arguments. -/
inductive Call where
  | birth (frame : Record) (boundaryRuleId candidateId effectiveTime firstValidTime : PyStr)
  | continueEpisode (episodeId : PyStr) (frame : Record)
      (candidateId effectiveTime firstValidTime : PyStr)
  | phaseMutation (episodeId candidateId phaseType startTime : PyStr) (endTime : Option PyStr)
      (sourceRecordIds : List PyStr) (effectiveTime firstValidTime : PyStr)
  | reParent (episodeId candidateId effectiveTime firstValidTime : PyStr)
      (reasonCodes : Option (List PyStr))
  | censor (episodeId candidateId reason effectiveTime firstValidTime : PyStr)
  | terminate (episodeId candidateId : PyStr) (conflict : Bool)
      (effectiveTime firstValidTime : PyStr)
  | link (edgeType parentEpisodeId childEpisodeId candidateId effectiveTime firstValidTime : PyStr)

/-- What a call runs. -/
def Call.run : Call → EngineM Record
  | birth frame ruleId candidateId effectiveTime firstValidTime =>
    EpisodeEngine.birth P frame ruleId candidateId effectiveTime firstValidTime
  | continueEpisode episodeId frame candidateId effectiveTime firstValidTime =>
    EpisodeEngine.continueEpisode P episodeId frame candidateId effectiveTime firstValidTime
  | phaseMutation episodeId candidateId phaseType startTime endTime sourceRecordIds effectiveTime
      firstValidTime =>
      EpisodeEngine.phaseMutation P episodeId candidateId phaseType startTime endTime
        sourceRecordIds effectiveTime firstValidTime
  | reParent episodeId candidateId effectiveTime firstValidTime reasonCodes =>
    EpisodeEngine.reParent P episodeId candidateId effectiveTime firstValidTime reasonCodes
  | censor episodeId candidateId reason effectiveTime firstValidTime =>
    EpisodeEngine.censor P episodeId candidateId reason effectiveTime firstValidTime
  | terminate episodeId candidateId conflict effectiveTime firstValidTime =>
    EpisodeEngine.terminate P episodeId candidateId conflict effectiveTime firstValidTime
  | link edgeType parentEpisodeId childEpisodeId candidateId effectiveTime firstValidTime =>
    EpisodeEngine.link P edgeType parentEpisodeId childEpisodeId candidateId effectiveTime
      firstValidTime

/-- The engine after a list of calls, whether they returned or raised. -/
def afterCalls (calls : List Call) : EpisodeEngine :=
  after (Call.run P) calls (init boundaryPackId)

/-! ## Samples -/

/-- A frame of the tests. -/
def sampleFrame (frameId : String) : Record :=
  [(py "frame_id", .str (py frameId)),
    (py "identity", .dict [(.str (py "scope_id"), .str (py "scope")),
      (.str (py "scale_id"), .str (py "15M")), (.str (py "instrument_id"), .str (py "GBPUSD")),
      (.str (py "side"), .str (py "BID"))]),
    (py "source_binding", .dict [(.str (py "source_release_id"), .str (py "rel"))])]

/-- The birth of an episode on that frame. -/
def sampleBirth (frameId : String) : Call :=
  .birth (sampleFrame frameId) (py "rule") (py "cand") (py "t0") (py "t0")

end EpisodeEngine

end OvcReplay.C2e
