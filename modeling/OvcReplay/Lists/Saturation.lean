import Mathlib

/-! # Saturation

A set of nodes that grows along the edges of a graph until a pass over the edges adds nothing. A pass
sees what it has added itself, so the order of the edges decides how many passes there are, and
nothing else: what is left is what can be reached. -/

namespace OvcReplay.Lists

open List

universe u

variable {α : Type u} [DecidableEq α]

/-- One edge of a pass: the target is added when the source is there. -/
def follow (nodes : List α) (edge : α × α) : List α :=
  if edge.1 ∈ nodes then nodes.insert edge.2 else nodes

/-- A pass over the edges. -/
def pass (edges : List (α × α)) (nodes : List α) : List α := edges.foldl follow nodes

theorem subset_follow (nodes : List α) (edge : α × α) : nodes ⊆ follow nodes edge := by
  rw [follow]
  split_ifs
  · exact fun x hx => mem_insert_of_mem hx
  · exact Subset.refl _

variable {nodes : List α}

theorem nodup_follow (h : nodes.Nodup) (edge : α × α) : (follow nodes edge).Nodup := by
  rw [follow]
  split_ifs
  · exact h.insert
  · exact h

/-- An edge adds its target, or nothing. -/
theorem mem_follow {edge : α × α} {x : α} :
    x ∈ follow nodes edge ↔ x ∈ nodes ∨ edge.1 ∈ nodes ∧ x = edge.2 := by
  rw [follow]
  split_ifs with h
  · rw [mem_insert_iff, or_comm, and_iff_right h]
  · simp [h]

theorem length_le_follow (nodes : List α) (edge : α × α) :
    nodes.length ≤ (follow nodes edge).length := by
  rw [follow]
  split_ifs
  · exact length_le_length_insert
  · exact le_rfl

theorem follow_of_length_eq {edge : α × α} (h : (follow nodes edge).length = nodes.length) :
    follow nodes edge = nodes := by
  rw [follow] at h ⊢
  split_ifs with hsource
  · by_cases htgt : edge.2 ∈ nodes
    · exact insert_of_mem htgt
    · rw [if_pos hsource, length_insert_of_not_mem htgt] at h
      omega
  · rfl

section Pass

variable (edges : List (α × α))

theorem pass_cons (edge : α × α) (nodes : List α) :
    pass (edge :: edges) nodes = pass edges (follow nodes edge) := rfl

theorem subset_pass (nodes : List α) : nodes ⊆ pass edges nodes := by
  induction edges generalizing nodes with
  | nil => exact Subset.refl _
  | cons edge edges ih => exact Subset.trans (subset_follow nodes edge) (ih _)

theorem length_le_pass (nodes : List α) : nodes.length ≤ (pass edges nodes).length := by
  induction edges generalizing nodes with
  | nil => exact le_rfl
  | cons edge edges ih => exact (length_le_follow nodes edge).trans (ih _)

variable {edges}

/-- **A pass that adds nothing leaves every edge followed.** -/
theorem closed_of_length_eq {nodes : List α} (h : (pass edges nodes).length = nodes.length) :
    pass edges nodes = nodes ∧ ∀ edge ∈ edges, edge.1 ∈ nodes → edge.2 ∈ nodes := by
  induction edges generalizing nodes with
  | nil => exact ⟨rfl, by simp⟩
  | cons edge edges ih =>
    rw [pass_cons] at h ⊢
    have hlow := length_le_follow nodes edge
    have hhigh := length_le_pass edges (follow nodes edge)
    have hsame : follow nodes edge = nodes := follow_of_length_eq (by omega)
    rw [hsame] at h ⊢
    obtain ⟨hpass, hclosed⟩ := ih h
    refine ⟨hpass, forall_mem_cons.mpr ⟨fun hsource => ?_, hclosed⟩⟩
    rw [← hsame, mem_follow]
    exact .inr ⟨hsource, rfl⟩

/-- What a pass adds is the target of an edge. -/
theorem mem_pass {nodes : List α} {x : α} (h : x ∈ pass edges nodes) :
    x ∈ nodes ∨ x ∈ edges.map Prod.snd := by
  induction edges generalizing nodes with
  | nil => exact .inl h
  | cons edge edges ih =>
    rw [map_cons, mem_cons]
    rcases ih h with hx | hx
    · rcases mem_follow.mp hx with hx | ⟨-, rfl⟩
      · exact .inl hx
      · exact .inr (.inl rfl)
    · exact .inr (.inr hx)

/-- What is not a node yet and an edge could still add. -/
def missing (edges : List (α × α)) (nodes : List α) : Finset α :=
  ((edges.map Prod.snd).filter fun x => x ∉ nodes).toFinset

theorem missing_pass_lt {nodes : List α} (h : (pass edges nodes).length ≠ nodes.length) :
    (missing edges (pass edges nodes)).card < (missing edges nodes).card := by
  have hgrown : ∃ x ∈ pass edges nodes, x ∉ nodes := by
    by_contra hnone
    push Not at hnone
    refine h (congrArg List.length ?_)
    clear h
    induction edges with
    | nil => rfl
    | cons edge edges ih =>
      have hfollow : follow nodes edge = nodes := by
        rw [follow]
        split_ifs with hsource
        · refine insert_of_mem (hnone _ (subset_pass edges _ ?_))
          rw [mem_follow]
          exact .inr ⟨hsource, rfl⟩
        · rfl
      rw [pass_cons, hfollow] at hnone ⊢
      exact ih hnone
  obtain ⟨x, hx, hnew⟩ := hgrown
  refine Finset.card_lt_card ⟨fun y hy => ?_, fun hsub => ?_⟩
  · simp only [missing, mem_toFinset, mem_filter, decide_eq_true_eq] at hy ⊢
    exact ⟨hy.1, fun hmem => hy.2 (subset_pass edges nodes hmem)⟩
  · have htgt := (mem_pass hx).resolve_left hnew
    have hmem : x ∈ missing edges nodes := by
      simp only [missing, mem_toFinset, mem_filter, decide_eq_true_eq]
      exact ⟨htgt, hnew⟩
    have hlater := hsub hmem
    simp only [missing, mem_toFinset, mem_filter, decide_eq_true_eq] at hlater
    exact hlater.2 hx

end Pass

/-- **Passes over the edges until one adds nothing.** Every other one takes a target off what is
missing, so there are not more passes than edges, and one. -/
def saturate (edges : List (α × α)) (nodes : List α) : List α :=
  if (pass edges nodes).length = nodes.length then pass edges nodes
  else saturate edges (pass edges nodes)
termination_by (missing edges nodes).card
decreasing_by exact missing_pass_lt ‹_›

variable {edges : List (α × α)}

/-- What every edge keeps, saturation keeps. -/
theorem saturate_invariant (I : List α → Prop)
    (hstep : ∀ nodes, ∀ edge ∈ edges, I nodes → I (follow nodes edge)) (h : I nodes) :
    I (saturate edges nodes) := by
  have hpass : ∀ nodes, I nodes → I (pass edges nodes) := by
    intro nodes hnodes
    exact foldlRecOn edges follow hnodes fun nodes hI edge hedge => hstep nodes edge hedge hI
  induction nodes using saturate.induct edges with
  | case1 nodes hlen =>
    rw [saturate, if_pos hlen]
    exact hpass nodes h
  | case2 nodes hlen ih =>
    rw [saturate, if_neg hlen]
    exact ih (hpass nodes h)

theorem nodup_saturate (h : nodes.Nodup) : (saturate edges nodes).Nodup :=
  saturate_invariant Nodup (fun _ edge _ hnodes => nodup_follow hnodes edge) h

/-- What is saturated holds what it started with and follows every edge. -/
theorem saturate_closed (edges : List (α × α)) (nodes : List α) : nodes ⊆ saturate edges nodes ∧
      ∀ edge ∈ edges, edge.1 ∈ saturate edges nodes → edge.2 ∈ saturate edges nodes := by
  induction nodes using saturate.induct edges with
  | case1 nodes hlen =>
    rw [saturate, if_pos hlen]
    obtain ⟨hpass, hclosed⟩ := closed_of_length_eq hlen
    rw [hpass]
    exact ⟨Subset.refl _, hclosed⟩
  | case2 nodes hlen ih =>
    rw [saturate, if_neg hlen]
    exact ⟨Subset.trans (subset_pass edges nodes) ih.1, ih.2⟩

/-- **Saturation is reachability.** -/
theorem mem_saturate_iff {x : α} : x ∈ saturate edges nodes ↔
      ∃ c ∈ nodes, Relation.ReflTransGen (fun a b => (a, b) ∈ edges) c x := by
  constructor
  · refine saturate_invariant
      (fun current => ∀ x ∈ current, ∃ c ∈ nodes,
        Relation.ReflTransGen (fun a b => (a, b) ∈ edges) c x)
      (fun current edge hedge hcur x hx => ?_) (fun x hx => ⟨x, hx, .refl⟩) x
    rcases mem_follow.mp hx with hx | ⟨hsource, rfl⟩
    · exact hcur x hx
    · obtain ⟨c, hc, hpath⟩ := hcur edge.1 hsource
      exact ⟨c, hc, hpath.tail hedge⟩
  · rintro ⟨c, hc, hpath⟩
    obtain ⟨hstart, hclosed⟩ := saturate_closed edges nodes
    induction hpath with
    | refl => exact hstart hc
    | tail _ hedge ih => exact hclosed _ hedge ih

end OvcReplay.Lists
