import OvcReplay.C2e.Topology

/-! # Runs of the episode topology

Any sequence of `add_edge` calls, each of which may raise: the edges stay acyclic, `_reaches` always
comes to its end, and what `add_edge` refuses as a cycle is what would close one. -/

namespace OvcReplay.C2e

open Python Raising Json

variable (P : Platform)

namespace EpisodeTopology

/-! ## The loop of the search -/

/-- The loop of `_reaches`, run until it returns. -/
inductive Searches (t : EpisodeTopology) (target : PyStr) :
    (stack seen : List PyStr) → Bool → Prop
  | exhausted {seen : List PyStr} : Searches t target [] seen false
  | found {stack seen : List PyStr} : Searches t target (target :: stack) seen true
  | skipped {node : PyStr} {stack seen : List PyStr} {answer : Bool} (hnode : node ≠ target)
      (hseen : node ∈ seen) (h : Searches t target stack seen answer) :
      Searches t target (node :: stack) seen answer
  | expanded {node : PyStr} {stack seen : List PyStr} {answer : Bool} (hnode : node ≠ target)
      (hseen : node ∉ seen)
      (h : Searches t target ((sortedBy id (t.childrenOf node)).reverse ++ stack) (node :: seen)
        answer) :
      Searches t target (node :: stack) seen answer

/-- The loop answers once. -/
theorem Searches.unique {t : EpisodeTopology} {target : PyStr} {stack seen : List PyStr}
    {answer answer' : Bool} (h : Searches t target stack seen answer)
    (h' : Searches t target stack seen answer') : answer = answer' := by
  induction h with
  | exhausted => cases h'; rfl
  | found =>
    cases h' with
    | found => rfl
    | skipped hnode => exact absurd rfl hnode
    | expanded hnode => exact absurd rfl hnode
  | skipped hnode hseen _ ih =>
    cases h' with
    | found => exact absurd rfl hnode
    | skipped _ _ h' => exact ih h'
    | expanded _ hnew => exact absurd hseen hnew
  | expanded hnode hseen _ ih =>
    cases h' with
    | found => exact absurd rfl hnode
    | skipped _ hold => exact absurd hold hseen
    | expanded _ _ h' => exact ih h'

/-- **The loop comes to its end**: what is on the stack and what is pending shrink together. -/
theorem searches_search {t : EpisodeTopology} {target : PyStr} {fuel : Nat}
    {stack seen : List PyStr} (hfuel : stack.length + t.pending seen < fuel) :
    Searches t target stack seen (t.search target fuel stack seen) := by
  induction fuel generalizing stack seen with
  | zero => omega
  | succ fuel ih =>
    cases stack with
    | nil => exact .exhausted
    | cons node stack =>
      rw [List.length_cons] at hfuel
      rw [search]
      by_cases hnode : node = target
      · rw [if_pos hnode, hnode]
        exact .found
      rw [if_neg hnode]
      by_cases hseen : node ∈ seen
      · rw [if_pos hseen]
        apply Searches.skipped hnode hseen
        apply ih
        omega
      · rw [if_neg hseen]
        apply Searches.expanded hnode hseen
        apply ih
        have hle := t.pending_cons_le hseen
        simp only [List.length_append, List.length_reverse, length_sortedBy]
        omega

/-- The loop of `_reaches` ends with its answer. -/
theorem searches_reaches (t : EpisodeTopology) (start target : PyStr) :
    Searches t target [start] [] (t.reaches start target) := by
  apply searches_search
  show 1 + t.pending [] < t.pushes + 1
  simp only [pending, pushes, List.not_mem_nil, if_false]
  omega

end EpisodeTopology

/-! ## What building a record can raise -/

/-- The exception is not one of `topology.py`. -/
def Error.NotTopology : Error → Prop
  | .topology _ => False
  | _ => True

theorem raisesOnly_inKeyOrder {items : List (PyStr × Except Error PyVal)}
    (h : ∀ p ∈ items, RaisesOnly Error.NotTopology p.2) :
    RaisesOnly Error.NotTopology (inKeyOrder items) := by
  apply raisesOnly_mapM
  intro p hp
  exact (h p (mem_sortedBy.mp hp)).map

theorem raisesOnly_canonicalizeItems {items : List (PyKey × PyVal)} :
    RaisesOnly Error.NotTopology (canonicalizeItems P items) := by
  induction items with
  | nil => exact raisesOnly_ok
  | cons p items ih =>
    rw [canonicalizeItems]
    refine RaisesOnly.bind (raisesOnly_mapError fun _ _ => trivial) fun t _ => ?_
    exact ih.bind fun _ _ => raisesOnly_ok

theorem raisesOnly_canonicalizeMembers {xs : List PyVal} :
    RaisesOnly Error.NotTopology (canonicalizeMembers P xs) := by
  induction xs with
  | nil => exact raisesOnly_ok
  | cons x xs ih =>
    rw [canonicalizeMembers]
    refine RaisesOnly.bind (raisesOnly_mapError fun _ _ => trivial) fun t _ => ?_
    exact ih.bind fun _ _ => raisesOnly_ok

theorem raisesOnly_canonicalize (v : PyVal) : RaisesOnly Error.NotTopology (canonicalize P v) := by
  induction v with
  | list xs ih | tuple xs ih =>
    rw [canonicalize, canonicalizeList_eq]
    exact (raisesOnly_mapM ih).map
  | set xs ih =>
    rw [canonicalize]
    refine (raisesOnly_canonicalizeMembers P).bind fun keyed hkeyed => ?_
    refine (raisesOnly_inKeyOrder fun q hq => ?_).bind fun _ _ => raisesOnly_ok
    obtain ⟨x, hx, hqx⟩ := exists_mem_of_canonicalizeMembers hkeyed hq
    exact hqx ▸ ih x hx
  | dict items ih =>
    rw [canonicalize]
    refine (raisesOnly_canonicalizeItems P).bind fun keyed hkeyed => ?_
    refine (raisesOnly_inKeyOrder fun q hq => ?_).bind fun _ _ => raisesOnly_ok
    obtain ⟨p, hp, hqp⟩ := exists_mem_of_canonicalizeItems hkeyed hq
    exact hqp ▸ ih p hp
  | float x | decimal x => exact raisesOnly_error.mpr trivial
  | _ => exact raisesOnly_ok

theorem raisesOnly_sha256Hex (v : PyVal) : RaisesOnly Error.NotTopology (sha256Hex P v) := by
  unfold sha256Hex canonicalBytes canonicalTree
  apply RaisesOnly.map
  apply raisesOnly_mapError
  intro e he
  have hraises : RaisesOnly Error.NotTopology
      (((canonicalize P v) >>= fun c => (dumps P c).mapError Error.python) >>= fun j =>
        (encodeUtf8 j.render).mapError Error.python) := by
    refine RaisesOnly.bind ?_ fun _ _ => raisesOnly_mapError fun _ _ => trivial
    exact (raisesOnly_canonicalize P v).bind fun _ _ => raisesOnly_mapError fun _ _ => trivial
  have hnot := hraises e he
  cases e with
  | topology m => exact hnot
  | python e =>
    unfold nonCanonical
    dsimp only
    split_ifs
    · trivial
    · trivial
  | _ => trivial

theorem raisesOnly_canonicalFields (payload : Record) :
    RaisesOnly Error.NotTopology (canonicalFields P payload) := by
  apply raisesOnly_mapM
  intro p _
  apply RaisesOnly.map
  unfold canonicalFieldValue
  split_ifs
  · cases p.2 with
    | list xs =>
      apply RaisesOnly.map
      refine RaisesOnly.bind (raisesOnly_mapM fun x _ => ?_) fun _ _ => raisesOnly_ok
      exact (raisesOnly_mapError fun _ _ => trivial).map
    | _ => exact raisesOnly_error.mpr trivial
  · exact raisesOnly_ok

theorem raisesOnly_requireModel {condition : Prop} [Decidable condition] {marker : PyStr} :
    RaisesOnly Error.NotTopology (requireModel condition marker) :=
  raisesOnly_check fun _ => trivial

theorem raisesOnly_lookup {record : Record} {field : PyStr} :
    RaisesOnly Error.NotTopology (lookup record field) := by
  unfold lookup
  cases Dict.get? record field with
  | some v => exact raisesOnly_ok
  | none => exact raisesOnly_error.mpr trivial

theorem raisesOnly_checkKind (kind : RecordKind) (record : Record) :
    RaisesOnly Error.NotTopology (checkKind kind record) := by
  cases kind with
  | episodeGenesis => exact raisesOnly_forM fun _ _ => raisesOnly_requireModel
  | remapRecord | checkpoint =>
    refine raisesOnly_lookup.bind fun _ _ => raisesOnly_requireModel.bind fun _ _ => ?_
    exact raisesOnly_lookup.bind fun _ _ => raisesOnly_requireModel
  | sriHandoff =>
    refine raisesOnly_requireModel.bind fun _ _ => ?_
    exact raisesOnly_lookup.bind fun _ _ => raisesOnly_requireModel
  | _ => exact raisesOnly_ok

/-- **`build_record` never raises an exception of `topology.py`.** -/
theorem raisesOnly_buildRecord (kind : RecordKind) (payload : Record) :
    RaisesOnly Error.NotTopology (buildRecord P kind payload) := by
  unfold buildRecord
  refine (raisesOnly_canonicalFields P payload).bind fun record _ => ?_
  refine (raisesOnly_forM fun _ _ => raisesOnly_requireModel).bind fun _ _ => ?_
  refine (raisesOnly_checkKind kind record).bind fun _ _ => ?_
  have hid : RaisesOnly Error.NotTopology (recordId P kind record) := by
    refine RaisesOnly.bind (raisesOnly_mapM fun _ _ => raisesOnly_lookup.map) fun _ _ => ?_
    exact (raisesOnly_sha256Hex P _).map
  refine hid.bind fun id _ => ?_
  exact (raisesOnly_sha256Hex P _).bind fun _ _ => raisesOnly_ok

namespace EpisodeTopology

/-! ## Calls and runs -/

/-- The arguments of a call of `add_edge`. -/
structure EdgeCall where
  edgeType : PyStr
  parentEpisodeId : PyStr
  childEpisodeId : PyStr
  boundaryEventId : PyStr
  effectiveTime : PyStr
  firstValidTime : PyStr

variable (call : EdgeCall)

/-- The call. -/
def EdgeCall.run : Raising Error EpisodeTopology Record :=
  addEdge P call.edgeType call.parentEpisodeId call.childEpisodeId call.boundaryEventId
    call.effectiveTime call.firstValidTime

/-- The call raises `TopologyError("C2E_TOPOLOGY_CYCLE")`. -/
def RaisesCycle (t : EpisodeTopology) : Prop :=
  ends (call.run P) (fun _ _ => False)
    (fun e _ => e = .topology (py "C2E_TOPOLOGY_CYCLE")) t

/-- The topology that calls leave of an empty one. -/
def built (calls : List EdgeCall) : EpisodeTopology :=
  after (fun call => EdgeCall.run P call) calls empty

/-- A call keeps the edges acyclic. -/
theorem acyclic_call {t : EpisodeTopology} (ht : t.Acyclic) :
    ends (call.run P) (fun _ t' => t'.Acyclic) (fun _ t' => t'.Acyclic) t := by
  unfold EdgeCall.run
  rw [ends_addEdge]
  refine ⟨?_, fun _ => ht⟩
  intro record hadm _
  exact ht.addChild hadm.2.1 hadm.2.2

/-- **What `add_edge` refuses as a cycle**, once the type of the edge is one of the four. -/
theorem raisesCycle_iff (t : EpisodeTopology) :
    RaisesCycle P call t ↔ call.edgeType ∈ edgeTypes.map py ∧
      (call.parentEpisodeId = call.childEpisodeId ∨
        t.Reaches call.childEpisodeId call.parentEpisodeId) := by
  have hmarker : Error.topology (py "TOPOLOGY_EDGE_TYPE_INVALID") ≠
      .topology (py "C2E_TOPOLOGY_CYCLE") := by
    rw [Ne, Error.topology.injEq, py_inj]
    decide
  simp only [RaisesCycle, EdgeCall.run, addEdge, ends_bind, ends_require, ends_get, ends_lift,
    ends_modify, ends_pure, reaches_iff, imp_false, not_not, hmarker]
  have hbuild := raisesOnly_buildRecord P .lineageEdge (edgePayload call.edgeType
    call.parentEpisodeId call.childEpisodeId call.boundaryEventId call.effectiveTime
    call.firstValidTime)
  by_cases hcycle : call.parentEpisodeId = call.childEpisodeId ∨
      t.Reaches call.childEpisodeId call.parentEpisodeId
  · simp only [hcycle, not_true, false_imp_iff, imp_true_iff, true_and, and_true]
  · simp only [hcycle, and_false, iff_false]
    rintro ⟨h, htype⟩
    obtain ⟨hok, herr⟩ := (h htype).1 id
    cases hr : buildRecord P .lineageEdge (edgePayload call.edgeType call.parentEpisodeId
        call.childEpisodeId call.boundaryEventId call.effectiveTime call.firstValidTime) with
    | ok record => exact hok record hr
    | error e =>
      have hnot := hbuild e hr
      rw [herr e hr] at hnot
      exact hnot

/-- **The episode topology stays acyclic.** After any calls of `add_edge`, each of which may have
raised: no episode is its own ancestor; the next call raises the cycle error exactly when its type
is one of the four and its parent is its child or is reached from it; and the loop of `_reaches`
comes to an end, with the answer whether there is a path. -/
theorem topology_stays_acyclic (calls : List EdgeCall) : (built P calls).Acyclic ∧
    (∀ call : EdgeCall, RaisesCycle P call (built P calls) ↔ call.edgeType ∈ edgeTypes.map py ∧
        (call.parentEpisodeId = call.childEpisodeId ∨
          (built P calls).Reaches call.childEpisodeId call.parentEpisodeId)) ∧
    ∀ start target : PyStr, ∃ answer : Bool,
      (∀ answer' : Bool, Searches (built P calls) target [start] [] answer' ↔ answer' = answer) ∧
      (answer = true ↔ (built P calls).Reaches start target) := by
  refine ⟨?_, fun call => raisesCycle_iff P call _, fun start target => ?_⟩
  · exact after_invariant (fun call t ht => acyclic_call P call ht) calls empty_acyclic
  · refine ⟨(built P calls).reaches start target, fun answer => ⟨fun h => ?_, ?_⟩, reaches_iff⟩
    · exact h.unique (searches_reaches _ start target)
    · rintro rfl
      exact searches_reaches _ start target

/-- An edge from an episode to itself whose type is none of the four is refused for its type. -/
theorem topology_refuses_type_first : ¬ ∀ (calls : List EdgeCall) (call : EdgeCall),
      RaisesCycle .reference call (built .reference calls) ↔
        (call.parentEpisodeId = call.childEpisodeId ∨
          (built .reference calls).Reaches call.childEpisodeId call.parentEpisodeId) := by
  intro h
  have hcycle := (h [] ⟨py "LINK", py "E1", py "E1", py "B1", py "T1", py "T1"⟩).mpr (.inl rfl)
  have htype := ((raisesCycle_iff _ _ _).mp hcycle).1
  rw [py_mem_map] at htype
  exact absurd htype (by decide)

end EpisodeTopology

end OvcReplay.C2e
