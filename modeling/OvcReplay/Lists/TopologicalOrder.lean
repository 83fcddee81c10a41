import OvcReplay.Python.Sorted
import Mathlib.Data.Finite.Defs
import Mathlib.Logic.Relation
import Mathlib.Order.WellFounded

/-! # Topological orders

Nodes with their dependencies. `grow` takes the least of the nodes whose dependencies have all been
taken, until there is none: it takes every node iff no node depends on itself, every node behind its
dependencies, and it depends on the sets of nodes and dependencies only. -/

namespace OvcReplay.Topological

open List Python

universe u

variable {α : Type u}

/-- `x` is a node that depends on `y`. -/
def Depends (nodes : List α) (deps : α → List α) (x y : α) : Prop := x ∈ nodes ∧ y ∈ deps x

/-- **A node depends on itself**, through any number of dependencies. -/
def Cyclic (nodes : List α) (deps : α → List α) : Prop :=
  ∃ x, Relation.TransGen (Depends nodes deps) x x

/-- **Every node of the list has its dependencies before it**, and is there once. -/
inductive Layered (nodes : List α) (deps : α → List α) : List α → Prop
  | nil : Layered nodes deps []
  | snoc {output : List α} {c : α} (h : Layered nodes deps output) (hc : c ∈ nodes)
      (hnew : c ∉ output) (hdeps : ∀ d ∈ deps c, d ∈ output) : Layered nodes deps (output ++ [c])

namespace Layered

variable {nodes : List α} {deps : α → List α} {output : List α}

theorem nodup (h : Layered nodes deps output) : output.Nodup := by
  induction h with
  | nil => exact nodup_nil
  | snoc _ _ hnew _ ih =>
    rw [← concat_eq_append]
    exact List.Nodup.concat hnew ih

theorem subset (h : Layered nodes deps output) : output ⊆ nodes := by
  induction h with
  | nil => exact nil_subset _
  | snoc _ hc _ _ ih => exact append_subset.mpr ⟨ih, by simpa using hc⟩

/-- The dependencies of a node stand before it. -/
theorem before (h : Layered nodes deps output) {front back : List α} {c : α}
    (hsplit : output = front ++ c :: back) : ∀ d ∈ deps c, d ∈ front := by
  induction h generalizing back with
  | nil => simp at hsplit
  | @snoc output last _ _ _ hdeps ih =>
    rcases eq_nil_or_concat back with rfl | ⟨init, x, rfl⟩
    · obtain ⟨rfl, hlast⟩ := append_inj' hsplit rfl
      obtain rfl := singleton_injective hlast
      exact hdeps
    · have hshape : output ++ [last] = (front ++ c :: init) ++ [x] := by simpa using hsplit
      exact ih (append_inj' hshape rfl).1

theorem mem_of_depends (h : Layered nodes deps output) {x y : α} (hx : x ∈ output)
    (hxy : Depends nodes deps x y) : y ∈ output := by
  obtain ⟨front, back, hsplit⟩ := append_of_mem hx
  rw [hsplit]
  exact mem_append_left _ (h.before hsplit y hxy.2)

theorem mem_of_reaches (h : Layered nodes deps output) {x y : α} (hx : x ∈ output)
    (hxy : Relation.ReflTransGen (Depends nodes deps) x y) : y ∈ output := by
  induction hxy with
  | refl => exact hx
  | tail _ hstep ih => exact h.mem_of_depends ih hstep

/-- **No node of the list depends on itself.** -/
theorem not_cycle (h : Layered nodes deps output) :
    ∀ x ∈ output, ¬ Relation.TransGen (Depends nodes deps) x x := by
  induction h with
  | nil => simp
  | @snoc output c hlayered _ hnew hdeps ih =>
    intro x hx hcycle
    rcases mem_append.mp hx with hx | hx
    · exact ih x hx hcycle
    · obtain rfl := mem_singleton.mp hx
      -- the first dependency was taken before, and what it reaches too
      obtain ⟨d, hd, hreach⟩ := Relation.TransGen.head'_iff.mp hcycle
      exact hnew (hlayered.mem_of_reaches (hdeps d hd.2) hreach)

end Layered

/-- **Where every node that is left waits for another, there is a cycle.** -/
theorem cyclic_of_waiting {nodes : List α} {deps : α → List α} {left : List α}
    (hsubset : left ⊆ nodes) (hne : left ≠ [])
    (hwaits : ∀ c ∈ left, ∃ d ∈ deps c, d ∈ left) : Cyclic nodes deps := by
  by_contra hacyc
  have hfinite : Finite {c // c ∈ left} := finite_toSet left
  have : IsTrans {c // c ∈ left} fun b a => Relation.TransGen (Depends nodes deps) a.1 b.1 :=
    ⟨fun _ _ _ hba hcb => hcb.trans hba⟩
  have : Std.Irrefl fun b a : {c // c ∈ left} => Relation.TransGen (Depends nodes deps) a.1 b.1 :=
    ⟨fun a h => hacyc ⟨a.1, h⟩⟩
  have hwell : WellFounded fun b a : {c // c ∈ left} =>
      Relation.TransGen (Depends nodes deps) a.1 b.1 :=
    Finite.wellFounded_of_trans_of_irrefl _
  obtain ⟨c, hc⟩ := exists_mem_of_ne_nil left hne
  obtain ⟨least, -, hleast⟩ := hwell.has_min Set.univ ⟨⟨c, hc⟩, trivial⟩
  obtain ⟨d, hd, hleft⟩ := hwaits least.1 least.2
  exact hleast ⟨d, hleft⟩ trivial (.single ⟨hsubset least.2, hd⟩)

/-! ## Taking the least node -/

variable [LinearOrder α] (nodes : List α) (deps : α → List α)

/-- The nodes that may be taken behind `output`, in order. -/
def available (output : List α) : List α :=
  sortedBy id (nodes.filter fun c => decide (c ∉ output ∧ ∀ d ∈ deps c, d ∈ output))

/-- The nodes that are taken behind `output`, with this many steps at most. -/
def grow : Nat → List α → List α
  | 0, output => output
  | n + 1, output =>
    match available nodes deps output with
    | [] => output
    | c :: _ => grow n (output ++ [c])

variable {nodes deps}

theorem mem_available {output : List α} {c : α} : c ∈ available nodes deps output ↔
    c ∈ nodes ∧ c ∉ output ∧ ∀ d ∈ deps c, d ∈ output := by
  rw [available, mem_sortedBy, mem_filter, decide_eq_true_eq]

theorem pairwise_available (output : List α) : (available nodes deps output).Pairwise (· ≤ ·) :=
  sortedBy_pairwise id _

theorem nodup_available (hnodes : nodes.Nodup) (output : List α) :
    (available nodes deps output).Nodup :=
  ((sortedBy_perm id _).nodup_iff).mpr (hnodes.filter _)

/-- Sorted lists without repetition are equal when they have the same members. -/
theorem eq_of_sorted {xs ys : List α} (hx : xs.Pairwise (· ≤ ·)) (hy : ys.Pairwise (· ≤ ·))
    (hxn : xs.Nodup) (hyn : ys.Nodup) (h : ∀ c, c ∈ xs ↔ c ∈ ys) : xs = ys :=
  eq_of_perm_of_pairwise (f := id) (fun _ _ _ _ heq => heq)
    ((perm_ext_iff_of_nodup hxn hyn).mpr h) hx hy

theorem Layered.grow {output : List α} (h : Layered nodes deps output) (n : Nat) :
    Layered nodes deps (grow nodes deps n output) := by
  induction n generalizing output with
  | zero => exact h
  | succ n ih =>
    rw [Topological.grow]
    cases havail : available nodes deps output with
    | nil => exact h
    | cons c rest =>
      obtain ⟨hc, hnew, hdeps⟩ := mem_available.mp (havail ▸ mem_cons_self)
      exact ih (h.snoc hc hnew hdeps)

/-- With a step for every node, no node is available in the end. -/
theorem available_grow {output : List α} (h : Layered nodes deps output) {n : Nat}
    (hn : nodes.length ≤ output.length + n) :
    available nodes deps (grow nodes deps n output) = [] := by
  induction n generalizing output with
  | zero =>
    -- as many nodes were taken as there are
    have hperm := (h.nodup.subperm h.subset).perm_of_length_le hn
    rw [grow, eq_nil_iff_forall_not_mem]
    intro c hc
    obtain ⟨hmem, hnew, -⟩ := mem_available.mp hc
    exact hnew (hperm.mem_iff.mpr hmem)
  | succ n ih =>
    rw [grow]
    cases havail : available nodes deps output with
    | nil => exact havail
    | cons c rest =>
      obtain ⟨hc, hnew, hdeps⟩ := mem_available.mp (havail ▸ mem_cons_self)
      exact ih (h.snoc hc hnew hdeps) (by rw [length_append, length_singleton]; omega)

/-- **Every node is taken iff none depends on itself.** -/
theorem length_grow_iff (hdeps : ∀ c ∈ nodes, deps c ⊆ nodes) {n : Nat} (hn : nodes.length ≤ n)
    (hnodes : nodes.Nodup) :
    (grow nodes deps n []).length = nodes.length ↔ ¬ Cyclic nodes deps := by
  have hlayered : Layered nodes deps (grow nodes deps n []) := Layered.nil.grow n
  have hdone : available nodes deps (grow nodes deps n []) = [] :=
    available_grow .nil (by simpa using hn)
  constructor
  · rintro hlen ⟨x, hcycle⟩
    have hperm := (hlayered.nodup.subperm hlayered.subset).perm_of_length_le hlen.ge
    obtain ⟨d, hd, -⟩ := Relation.TransGen.head'_iff.mp hcycle
    exact hlayered.not_cycle x (hperm.mem_iff.mpr hd.1) hcycle
  · intro hacyc
    by_contra hlen
    refine hacyc (@cyclic_of_waiting α nodes deps
      (nodes.filter fun c => decide (c ∉ grow nodes deps n []))
      (fun c hc => (mem_filter.mp hc).1) (fun hnil => hlen ?_) fun c hc => ?_)
    · -- nothing is left
      have hall : nodes ⊆ grow nodes deps n [] := by
        intro c hc
        by_contra hnew
        have hmem : c ∈ nodes.filter fun c => decide (c ∉ grow nodes deps n []) :=
          mem_filter.mpr ⟨hc, decide_eq_true hnew⟩
        rw [hnil] at hmem
        exact absurd hmem not_mem_nil
      exact Nat.le_antisymm (hlayered.nodup.subperm hlayered.subset).length_le
        (hnodes.subperm hall).length_le
    · obtain ⟨hmem, hnew⟩ := mem_filter.mp hc
      have hwaits : ¬ ∀ d ∈ deps c, d ∈ grow nodes deps n [] := fun h => by
        have := mem_available.mpr ⟨hmem, of_decide_eq_true hnew, h⟩
        rw [hdone] at this
        exact absurd this not_mem_nil
      push Not at hwaits
      obtain ⟨d, hd, hleft⟩ := hwaits
      exact ⟨d, hd, mem_filter.mpr ⟨hdeps c hmem hd, decide_eq_true hleft⟩⟩

/-- **The sets of nodes and dependencies determine what is taken.** -/
theorem grow_congr {nodes' : List α} {deps' : α → List α} (hnodes : nodes.Nodup)
    (hnodes' : nodes'.Nodup) (hmem : ∀ c, c ∈ nodes ↔ c ∈ nodes')
    (hdeps : ∀ c ∈ nodes, ∀ d, d ∈ deps c ↔ d ∈ deps' c) (n : Nat) (output : List α) :
    grow nodes deps n output = grow nodes' deps' n output := by
  induction n generalizing output with
  | zero => rfl
  | succ n ih =>
    have havail : available nodes deps output = available nodes' deps' output := by
      refine eq_of_sorted (pairwise_available output) (pairwise_available output)
        (nodup_available hnodes output) (nodup_available hnodes' output) fun c => ?_
      rw [mem_available, mem_available, ← hmem]
      refine and_congr_right fun hc => and_congr_right fun _ => ?_
      exact forall_congr' fun d => imp_congr_left (hdeps c hc d)
    rw [grow, grow, havail]
    cases available nodes' deps' output with
    | nil => rfl
    | cons c rest => exact ih (output ++ [c])

end OvcReplay.Topological
