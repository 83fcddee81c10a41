import Mathlib

/-! # Journals of lifecycles

An append-only journal of things that are born, noted and closed. A **well-formed** journal notes and
closes only what is born and not yet closed, and births are new; mentions are free. The outcome of a
thing is the one it was closed with, and nothing that concerns it comes after its close. -/

namespace OvcReplay.Logs

open List

universe u v

/-- An entry of a journal of things named in `ι` that end with outcomes in `σ`. -/
inductive Entry (ι : Type u) (σ : Type v) where
  | birth (id : ι)
  | note (id : ι)
  | close (id : ι) (outcome : σ)
  | mention (ids : List ι)

namespace Entry

variable {ι : Type u} {σ : Type v}

/-- The entry is about this thing alone. -/
def Concerns (id : ι) : Entry ι σ → Prop
  | birth i => i = id
  | note i => i = id
  | close i _ => i = id
  | mention _ => False

/-- The entry ends this thing. -/
def Closes (id : ι) : Entry ι σ → Prop
  | close i _ => i = id
  | _ => False

/-- The entry names this thing, alone or among others. -/
def Names (id : ι) : Entry ι σ → Prop
  | mention ids => id ∈ ids
  | entry => entry.Concerns id

variable {entry : Entry ι σ}

theorem Closes.concerns {id : ι} (h : entry.Closes id) : entry.Concerns id := by
  cases entry with
  | close => exact h
  | _ => exact h.elim

theorem Concerns.names {id : ι} (h : entry.Concerns id) : entry.Names id := by
  cases entry with
  | mention => exact h.elim
  | _ => exact h

variable [DecidableEq ι]

/-- The outcome the entry gives this thing. -/
def outcome? (id : ι) : Entry ι σ → Option σ
  | close i outcome => if i = id then some outcome else none
  | _ => none

theorem outcome?_eq_none {id : ι} : entry.outcome? id = none ↔ ¬ entry.Closes id := by
  cases entry with
  | close i _ => by_cases h : i = id <;> simp [outcome?, Closes, h]
  | _ => simp [outcome?, Closes]

end Entry

variable {ι : Type u} {σ : Type v} [DecidableEq ι]

/-- The outcome of a thing after a journal: the last it was given. -/
def outcome (id : ι) (entries : List (Entry ι σ)) : Option σ :=
  entries.foldl (fun o entry => (entry.outcome? id).or o) none

@[simp] theorem outcome_nil (id : ι) : outcome id ([] : List (Entry ι σ)) = none := rfl

@[simp] theorem outcome_snoc (id : ι) (entries : List (Entry ι σ)) (entry : Entry ι σ) :
    outcome id (entries ++ [entry]) = (entry.outcome? id).or (outcome id entries) := by
  simp [outcome]

/-- A thing has no outcome iff nothing closes it. -/
theorem outcome_eq_none {id : ι} {entries : List (Entry ι σ)} :
    outcome id entries = none ↔ ∀ entry ∈ entries, ¬ entry.Closes id := by
  induction entries using reverseRecOn with
  | nil => simp
  | append_singleton entries entry ih =>
    rw [outcome_snoc, Option.or_eq_none_iff, ih, Entry.outcome?_eq_none]
    simp only [mem_append, mem_singleton, or_imp, forall_and, forall_eq]
    exact And.comm

/-- What may be written next. -/
def Admits (entries : List (Entry ι σ)) : Entry ι σ → Prop
  | .birth id => ∀ entry ∈ entries, ¬ entry.Names id
  | .note id => .birth id ∈ entries ∧ outcome id entries = none
  | .close id _ => .birth id ∈ entries ∧ outcome id entries = none
  | .mention ids => ∀ id ∈ ids, .birth id ∈ entries

/-- An admitted entry concerns nothing that is closed. -/
theorem Admits.not_closes {entries : List (Entry ι σ)} {entry : Entry ι σ} {id : ι}
    (hadms : Admits entries entry) (hconc : entry.Concerns id) :
    ∀ earlier ∈ entries, ¬ earlier.Closes id := by
  cases entry with
  | birth i =>
    obtain rfl : i = id := hconc
    exact fun earlier hmem hcloses => hadms earlier hmem hcloses.concerns.names
  | note i =>
    obtain rfl : i = id := hconc
    exact outcome_eq_none.mp hadms.2
  | close i _ =>
    obtain rfl : i = id := hconc
    exact outcome_eq_none.mp hadms.2
  | mention => exact hconc.elim

/-- **A well-formed journal**: every entry was admitted when it was written. -/
inductive Journal : List (Entry ι σ) → Prop
  | nil : Journal []
  | snoc {entries : List (Entry ι σ)} {entry : Entry ι σ} (h : Journal entries)
      (hadmits : Admits entries entry) : Journal (entries ++ [entry])

namespace Journal

variable {entries : List (Entry ι σ)} {entry : Entry ι σ} {id : ι}

/-- What is named is born. -/
theorem birth_mem (h : Journal entries) (hmem : entry ∈ entries) (hnames : entry.Names id) :
    .birth id ∈ entries := by
  induction h with
  | nil => simp at hmem
  | @snoc entries last _ hadms ih =>
    rcases mem_append.mp hmem with hmem | hmem
    · exact mem_append_left _ (ih hmem)
    · obtain rfl := mem_singleton.mp hmem
      cases entry with
      | birth i =>
        obtain rfl : i = id := hnames
        exact mem_append_right _ (mem_singleton.mpr rfl)
      | note i =>
        obtain rfl : i = id := hnames
        exact mem_append_left _ hadms.1
      | close i _ =>
        obtain rfl : i = id := hnames
        exact mem_append_left _ hadms.1
      | mention ids => exact mem_append_left _ (hadms id hnames)

/-- **Nothing that concerns a thing comes after its close.** -/
theorem pairwise (h : Journal entries) (id : ι) :
    entries.Pairwise fun a b => a.Closes id → ¬ b.Concerns id := by
  induction h with
  | nil => exact Pairwise.nil
  | @snoc entries last _ hadms ih =>
    refine pairwise_append.mpr ⟨ih, pairwise_singleton _ _, ?_⟩
    intro a ha b hb hcloses hconc
    obtain rfl := mem_singleton.mp hb
    exact hadms.not_closes hconc a ha hcloses

end Journal

end OvcReplay.Logs
