import OvcReplay.C2e.Models
import OvcReplay.Python.Raising

/-! # The episode topology of C2E v0.2

`topology.py`: edges between episodes, refused when they would close a cycle. `_reaches` searches the
children depth first; `reaches_iff` says it decides reachability, so the edges stay acyclic. -/

namespace OvcReplay.C2e

open List Python Raising

variable (P : Platform)

/-- `EpisodeTopology`. -/
structure EpisodeTopology where
  /-- The `defaultdict(set)` of children. -/
  children : Dict PyStr (List PyStr)
  edges : List Record
  deriving DecidableEq

namespace EpisodeTopology

/-- `EpisodeTopology()`. -/
def empty : EpisodeTopology := ⟨[], []⟩

/-- `self._children.get(node, ())`. -/
def childrenOf (t : EpisodeTopology) (node : PyStr) : List PyStr :=
  (t.children.get? node).getD []

/-- The loop of `_reaches`: the top of the stack is the head of the list. -/
def search (t : EpisodeTopology) (target : PyStr) : Nat → (stack seen : List PyStr) → Bool
  | 0, _, _ => false
  | _ + 1, [], _ => false
  | fuel + 1, node :: stack, seen =>
    if node = target then true
    else if node ∈ seen then search t target fuel stack seen
    else search t target fuel ((sortedBy id (t.childrenOf node)).reverse ++ stack) (node :: seen)

/-- How often a node can be pushed: once, and once for each edge. -/
def pushes (t : EpisodeTopology) : Nat := (t.children.map fun p => p.2.length).sum + 1

/-- `_reaches`. -/
def reaches (t : EpisodeTopology) (start target : PyStr) : Bool :=
  search t target (t.pushes + 1) [start] []

/-- The set with one more child. -/
def addChild (t : EpisodeTopology) (parent child : PyStr) : Dict PyStr (List PyStr) :=
  let cs := t.childrenOf parent
  t.children.set parent (if child ∈ cs then cs else cs ++ [child])

/-- The edge types. -/
def edgeTypes : List String := ["NEST", "RE_PARENT", "SPLIT", "MERGE"]

/-- The payload of an edge. -/
def edgePayload (edgeType parentEpisodeId childEpisodeId boundaryEventId effectiveTime
    firstValidTime : PyStr) : Record :=
  [(py "edge_type", .str edgeType), (py "parent_episode_id", .str parentEpisodeId),
    (py "child_episode_id", .str childEpisodeId), (py "boundary_event_id", .str boundaryEventId),
    (py "effective_time", .str effectiveTime), (py "first_valid_time", .str firstValidTime),
    (py "authority", .str (py "INACTIVE_NONCANONICAL_SHADOW"))]

/-- `add_edge`. -/
def addEdge (edgeType parentEpisodeId childEpisodeId boundaryEventId effectiveTime
    firstValidTime : PyStr) : Raising Error EpisodeTopology Record := do
  require (edgeType ∈ edgeTypes.map py) (.topology (py "TOPOLOGY_EDGE_TYPE_INVALID"))
  let t ← get
  require (¬ (parentEpisodeId = childEpisodeId ∨ t.reaches childEpisodeId parentEpisodeId = true))
    (.topology (py "C2E_TOPOLOGY_CYCLE"))
  let record ← lift (buildRecord P .lineageEdge
    (edgePayload edgeType parentEpisodeId childEpisodeId boundaryEventId effectiveTime
      firstValidTime))
  modify fun t => { t with children := t.addChild parentEpisodeId childEpisodeId }
  modify fun t => { t with edges := t.edges ++ [record] }
  return record

/-! ## The search decides reachability -/

/-- An edge of the topology. -/
def Edge (t : EpisodeTopology) (parent child : PyStr) : Prop := child ∈ t.childrenOf parent

/-- A path of the topology, possibly empty. -/
def Reaches (t : EpisodeTopology) : PyStr → PyStr → Prop := Relation.ReflTransGen t.Edge

/-- What is still to be pushed: the children of the nodes not seen. -/
def pending (t : EpisodeTopology) (seen : List PyStr) : Nat :=
  (t.children.map fun p => if p.1 ∈ seen then 0 else p.2.length).sum

variable {seen : List PyStr} {target parent child : PyStr}

theorem pending_cons_le (t : EpisodeTopology) {node : PyStr} (hnode : node ∉ seen) :
    t.pending (node :: seen) + (t.childrenOf node).length ≤ t.pending seen := by
  unfold pending childrenOf
  induction t.children with
  | nil => simp
  | cons p d ih =>
    obtain ⟨k, cs⟩ := p
    simp only [map_cons, sum_cons, mem_cons, Dict.get?_cons] at ih ⊢
    by_cases hk : k = node
    · subst hk
      have hle : ∀ d : Dict PyStr (List PyStr),
          (d.map fun p => if p.1 = k ∨ p.1 ∈ seen then 0 else p.2.length).sum ≤
            (d.map fun p => if p.1 ∈ seen then 0 else p.2.length).sum := by
        intro d
        induction d with
        | nil => simp
        | cons p d ihd =>
          simp only [map_cons, sum_cons]
          by_cases hp : p.1 ∈ seen
          · simpa [hp] using ihd
          · simp only [hp, or_false, if_false]
            split <;> omega
      simp only [true_or, if_true, hnode, if_false, Option.getD_some]
      have := hle d
      omega
    · simp only [hk, false_or, if_false]
      omega

variable {t : EpisodeTopology}

/-- What the search finds can be reached from its stack. -/
theorem exists_reaches_of_search {fuel : Nat} {stack : List PyStr}
    (h : t.search target fuel stack seen = true) : ∃ x ∈ stack, t.Reaches x target := by
  induction fuel generalizing stack seen with
  | zero => simp [search] at h
  | succ fuel ih =>
    cases stack with
    | nil => simp [search] at h
    | cons node stack =>
      rw [search] at h
      by_cases hnode : node = target
      · exact ⟨node, by simp, hnode ▸ .refl⟩
      · rw [if_neg hnode] at h
        split_ifs at h with hseen
        · obtain ⟨x, hx, hreach⟩ := ih h
          exact ⟨x, mem_cons_of_mem _ hx, hreach⟩
        · obtain ⟨x, hx, hreach⟩ := ih h
          rcases mem_append.mp hx with hx | hx
          · rw [mem_reverse, mem_sortedBy] at hx
            exact ⟨node, by simp, .head hx hreach⟩
          · exact ⟨x, mem_cons_of_mem _ hx, hreach⟩

/-- A search that fails with enough fuel has closed its nodes under the edges. -/
theorem not_reaches_of_search {fuel : Nat} {stack : List PyStr}
    (hfuel : stack.length + t.pending seen < fuel)
    (hseen : ∀ x ∈ seen, x ≠ target ∧ ∀ y, t.Edge x y → y ∈ seen ∨ y ∈ stack)
    (h : t.search target fuel stack seen = false) :
    ∀ x, x ∈ seen ∨ x ∈ stack → ¬ t.Reaches x target := by
  induction fuel generalizing stack seen with
  | zero => omega
  | succ fuel ih =>
    cases stack with
    | nil =>
      intro x hx hreach
      have hx : x ∈ seen := by simpa using hx
      induction hreach using Relation.ReflTransGen.head_induction_on with
      | refl => exact (hseen _ hx).1 rfl
      | head hedge _ ihr =>
        have hy := by simpa using (hseen _ hx).2 _ hedge
        exact ihr (.inl hy) hy
    | cons node stack =>
      rw [search] at h
      by_cases hnode : node = target
      · simp [hnode] at h
      rw [if_neg hnode] at h
      split_ifs at h with hmem
      · -- a node seen before: the stack shrinks
        have hrec := ih (by simp only [length_cons] at hfuel; omega)
          (fun x hx => ⟨(hseen x hx).1, fun y hy => by
            rcases (hseen x hx).2 y hy with hy | hy
            · exact .inl hy
            · rcases mem_cons.mp hy with rfl | hy
              · exact .inl hmem
              · exact .inr hy⟩) h
        intro x hx
        rcases hx with hx | hx
        · exact hrec x (.inl hx)
        · rcases mem_cons.mp hx with rfl | hx
          · exact hrec x (.inl hmem)
          · exact hrec x (.inr hx)
      · -- a new node: its children are pushed, and are no longer pending
        have hle := t.pending_cons_le hmem
        have hfuel' : ((sortedBy id (t.childrenOf node)).reverse ++ stack).length +
            t.pending (node :: seen) < fuel := by
          simp only [length_cons, length_append, length_reverse,
            length_sortedBy] at hfuel ⊢
          omega
        have hrec := ih hfuel' (fun x hx => by
          rcases mem_cons.mp hx with rfl | hx
          · exact ⟨hnode, fun y hy => .inr (by
              simp only [mem_append, mem_reverse, mem_sortedBy]
              exact .inl hy)⟩
          · refine ⟨(hseen x hx).1, fun y hy => ?_⟩
            rcases (hseen x hx).2 y hy with hy | hy
            · exact .inl (mem_cons_of_mem _ hy)
            · rcases mem_cons.mp hy with rfl | hy
              · exact .inl (by simp)
              · exact .inr (mem_append_right _ hy)) h
        intro x hx
        rcases hx with hx | hx
        · exact hrec x (.inl (mem_cons_of_mem _ hx))
        · rcases mem_cons.mp hx with rfl | hx
          · exact hrec x (.inl (by simp))
          · exact hrec x (.inr (mem_append_right _ hx))

/-- **`_reaches` decides reachability.** -/
theorem reaches_iff {start : PyStr} : t.reaches start target = true ↔ t.Reaches start target := by
  constructor
  · intro h
    obtain ⟨x, hx, hreach⟩ := exists_reaches_of_search h
    rw [mem_singleton] at hx
    exact hx ▸ hreach
  · intro h
    by_contra hne
    have hfalse : t.search target (t.pushes + 1) [start] [] = false := by
      simpa [reaches] using hne
    refine not_reaches_of_search ?_ (by simp) hfalse start (by simp) h
    simp only [pending, pushes, length_singleton, not_mem_nil, if_false]
    omega

/-! ## Acyclicity -/

/-- No episode is its own ancestor. -/
def Acyclic (t : EpisodeTopology) : Prop := ∀ a, ¬ Relation.TransGen t.Edge a a

theorem empty_acyclic : empty.Acyclic := by
  intro a h
  obtain ⟨b, hedge, -⟩ := Relation.TransGen.head'_iff.mp h
  simp [Edge, childrenOf, empty] at hedge

variable {edges : List Record}

/-- The edges after one more child. -/
theorem edge_addChild {a b : PyStr} :
    Edge ⟨t.addChild parent child, edges⟩ a b ↔ t.Edge a b ∨ (a = parent ∧ b = child) := by
  simp only [Edge, childrenOf, addChild, Dict.get?_set]
  by_cases ha : parent = a
  · subst ha
    by_cases hc : child ∈ (t.children.get? parent).getD []
    · simp only [hc, if_true, Option.getD_some, true_and]
      exact ⟨.inl, fun h => h.elim id fun h => h ▸ hc⟩
    · simp only [hc, if_true, if_false, Option.getD_some, true_and, mem_append,
        mem_singleton]
  · simp only [ha, if_false, Ne.symm ha, false_and, or_false]

/-- A path after one more child is an old one, or runs through the new edge. -/
theorem reaches_addChild {a b : PyStr} (h : Reaches ⟨t.addChild parent child, edges⟩ a b) :
    t.Reaches a b ∨ (t.Reaches a parent ∧ t.Reaches child b) := by
  induction h with
  | refl => exact .inl .refl
  | tail _ hedge ih =>
    rcases edge_addChild.mp hedge with hedge | ⟨rfl, rfl⟩
    · rcases ih with ih | ⟨hp, hc⟩
      · exact .inl (ih.tail hedge)
      · exact .inr ⟨hp, hc.tail hedge⟩
    · rcases ih with ih | ⟨hp, -⟩
      · exact .inr ⟨ih, .refl⟩
      · exact .inr ⟨hp, .refl⟩

/-- **A child that does not reach its parent closes no cycle.** -/
theorem Acyclic.addChild (ht : t.Acyclic) (hne : parent ≠ child)
    (hreach : t.reaches child parent = false) : Acyclic ⟨t.addChild parent child, edges⟩ := by
  have hreach : ¬ t.Reaches child parent := by
    rw [← reaches_iff, hreach]
    decide
  intro a ha
  obtain ⟨b, hedge, hpath⟩ := Relation.TransGen.head'_iff.mp ha
  rcases edge_addChild.mp hedge with hedge | ⟨rfl, rfl⟩
  · rcases reaches_addChild hpath with hpath | ⟨hp, hc⟩
    · exact ht a (Relation.TransGen.head'_iff.mpr ⟨b, hedge, hpath⟩)
    · exact hreach ((hc.tail hedge).trans hp)
  · rcases reaches_addChild hpath with hpath | ⟨-, hc⟩
    · exact hreach hpath
    · exact hreach hc

/-! ## The rule for `add_edge` -/

/-- The checks `add_edge` makes before it builds the edge. -/
def Admits (t : EpisodeTopology) (edgeType parent child : PyStr) : Prop :=
  edgeType ∈ edgeTypes.map py ∧ parent ≠ child ∧ t.reaches child parent = false

instance (t : EpisodeTopology) (edgeType parent child : PyStr) :
    Decidable (t.Admits edgeType parent child) := inferInstanceAs (Decidable (_ ∧ _ ∧ _))

/-- `add_edge` writes an edge it admits and can build, or leaves the topology alone. -/
theorem ends_addEdge {edgeType eventId effectiveTime firstValidTime : PyStr}
    {R : Record → EpisodeTopology → Prop} {Q : EpisodeTopology → Prop} :
    ends (addEdge P edgeType parent child eventId effectiveTime firstValidTime) R (fun _ => Q) t ↔
      (∀ record, t.Admits edgeType parent child →
        buildRecord P .lineageEdge (edgePayload edgeType parent child eventId effectiveTime
          firstValidTime) = .ok record → R record ⟨t.addChild parent child, t.edges ++ [record]⟩) ∧
      (¬ (t.Admits edgeType parent child ∧ Returns (buildRecord P .lineageEdge
        (edgePayload edgeType parent child eventId effectiveTime firstValidTime))) → Q t) := by
  simp only [addEdge, ends_bind, ends_require, ends_get, ends_lift, ends_modify, ends_pure]
  by_cases hadm : t.Admits edgeType parent child
  · obtain ⟨htype, hne, hreach⟩ := hadm
    have hcycle : ¬ (parent = child ∨ t.reaches child parent = true) := by simp [hne, hreach]
    have hadm : t.Admits edgeType parent child := ⟨htype, hne, hreach⟩
    cases buildRecord P .lineageEdge (edgePayload edgeType parent child eventId effectiveTime
      firstValidTime) <;> simp [htype, hcycle, hadm]
  · have hrefused : edgeType ∈ edgeTypes.map py →
        parent = child ∨ t.reaches child parent = true := by
      intro htype
      by_contra hcycle
      rw [not_or, Bool.not_eq_true] at hcycle
      exact hadm ⟨htype, hcycle⟩
    by_cases htype : edgeType ∈ edgeTypes.map py
    · simp [htype, hrefused htype, hadm]
    · simp [htype, hadm]

end EpisodeTopology

end OvcReplay.C2e
