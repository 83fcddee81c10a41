import OvcReplay.Json.Parse

/-! # Texts of trees with numbers of any length

A tree whose numbers are kept as they are spelled, however many digits they have. What a text starts
with says which kind of tree it is of, and no number goes on past its end, so the text of a tree
determines the tree also where other text follows. -/

namespace OvcReplay

open List Python

namespace Json

/-- A code point of a number without an exponent. -/
def IsNumeral (c : CodePoint) : Bool := IsDigit c || c.val == 0x2D || c.val == 0x2E

/-- A tree without integers whose other numbers are spelled. -/
inductive Spelled : Json → Prop
  | null : Spelled .null
  | bool (b : Bool) : Spelled (.bool b)
  | number {t : PyStr} (hne : t ≠ []) (h : ∀ c ∈ t, IsNumeral c = true) : Spelled (.float t)
  | str (s : PyStr) : Spelled (.str s)
  | arr {xs : List Json} (h : ∀ x ∈ xs, Spelled x) : Spelled (.arr xs)
  | obj {members : List (PyStr × Json)} (h : ∀ p ∈ members, Spelled p.2) : Spelled (.obj members)

/-- A number ends here. -/
def Ends (rest : PyStr) : Prop := ∀ c ∈ rest.head?, IsNumeral c = false

theorem ends_nil : Ends [] := by
  intro c hc
  cases hc

theorem ends_cons {c : CodePoint} (h : IsNumeral c = false) (rest : PyStr) : Ends (c :: rest) := by
  intro d hd
  cases hd
  exact h

/-! ## Kinds -/

/-- The kinds of trees. -/
inductive Kind where
  | null
  | yes
  | no
  | number
  | str
  | arr
  | obj
  deriving DecidableEq

/-- The kind of a tree. -/
def kind : Json → Kind
  | .null => .null
  | .bool true => .yes
  | .bool false => .no
  | .int _ => .number
  | .float _ => .number
  | .str _ => .str
  | .arr _ => .arr
  | .obj _ => .obj

/-- The kind of the trees whose texts start with a code point. -/
def kindOf (c : CodePoint) : Option Kind :=
  if IsNumeral c then some .number
  else if c.val = 0x6E then some .null
  else if c.val = 0x74 then some .yes
  else if c.val = 0x66 then some .no
  else if c.val = 0x22 then some .str
  else if c.val = 0x5B then some .arr
  else if c.val = 0x7B then some .obj
  else none

theorem py_brackets : py "[]" = ⟨0x5B, by decide⟩ :: py "]" := by
  decide +kernel

theorem py_braces : py "\x7b\x7d" = ⟨0x7B, by decide⟩ :: py "\x7d" := by
  decide +kernel

/-- What the text of a tree starts with. -/
theorem Spelled.head {j : Json} (h : Spelled j) :
    ∃ c s, render j = c :: s ∧ kindOf c = some j.kind := by
  cases h with
  | null =>
    rw [render, py_null]
    exact ⟨_, _, rfl, by decide⟩
  | bool b =>
    cases b with
    | true =>
      rw [render, py_true]
      exact ⟨_, _, rfl, by decide⟩
    | false =>
      rw [render, py_false]
      exact ⟨_, _, rfl, by decide⟩
  | @number t hne h =>
    obtain ⟨c, s, rfl⟩ := exists_cons_of_ne_nil hne
    refine ⟨c, s, by rw [render], ?_⟩
    rw [kindOf, if_pos (h c mem_cons_self), kind]
  | str s =>
    rw [render, quote, py_quote]
    exact ⟨_, _, rfl, by rw [kind]; decide⟩
  | @arr xs h =>
    cases xs with
    | nil =>
      rw [render, py_brackets]
      exact ⟨_, _, rfl, by rw [kind]; decide⟩
    | cons x xs =>
      rw [render, py_open]
      exact ⟨_, _, rfl, by rw [kind]; decide⟩
  | @obj members h =>
    cases members with
    | nil =>
      rw [render, py_braces]
      exact ⟨_, _, rfl, by rw [kind]; decide⟩
    | cons p members =>
      rw [render, py_begin]
      exact ⟨_, _, rfl, by rw [kind]; decide⟩

variable {rest rest' : PyStr}

/-- Trees whose texts start alike are of one kind. -/
theorem Spelled.kind_eq {j j' : Json} (h : Spelled j) (h' : Spelled j')
    (heq : render j ++ rest = render j' ++ rest') : j.kind = j'.kind := by
  obtain ⟨c, s, hc, hkind⟩ := h.head
  obtain ⟨c', s', hc', hkind'⟩ := h'.head
  rw [hc, hc'] at heq
  obtain ⟨rfl, -⟩ := List.cons.inj heq
  exact Option.some.inj (hkind.symm.trans hkind')

/-- No tree starts with a closing bracket. -/
theorem Spelled.ne_close {j : Json} (h : Spelled j) : py "]" ++ rest ≠ render j ++ rest' := by
  obtain ⟨c, s, hc, hkind⟩ := h.head
  rw [hc, py_close]
  intro heq
  obtain ⟨rfl, -⟩ := List.cons.inj heq
  exact absurd hkind (by rw [show kindOf ⟨0x5D, by decide⟩ = none by decide]; exact nofun)

/-! ## The text determines the tree -/

/-- The tree can be told from its text, whatever follows. -/
def Determined (j : Json) : Prop :=
  ∀ j' rest rest', Spelled j' → Ends rest → Ends rest' →
    render j ++ rest = render j' ++ rest' → j = j' ∧ rest = rest'

theorem ends_renderElements (xs : List Json) (rest : PyStr) : Ends (renderElements xs ++ rest) := by
  cases xs with
  | nil =>
    rw [renderElements, py_close]
    exact ends_cons (by decide) _
  | cons x xs =>
    rw [renderElements, py_comma]
    exact ends_cons (by decide) _

theorem ends_renderMembers (members : List (PyStr × Json)) (rest : PyStr) :
    Ends (renderMembers members ++ rest) := by
  cases members with
  | nil =>
    rw [renderMembers, py_end]
    exact ends_cons (by decide) _
  | cons p members =>
    rw [renderMembers, py_comma]
    exact ends_cons (by decide) _

/-- What follows the first element determines the other ones. -/
theorem elements_determined {xs : List Json} (h : ∀ x ∈ xs, Determined x) {ys : List Json}
    (hys : ∀ y ∈ ys, Spelled y) (heq : renderElements xs ++ rest = renderElements ys ++ rest') :
    xs = ys ∧ rest = rest' := by
  induction xs generalizing ys with
  | nil =>
    cases ys with
    | nil => exact ⟨rfl, append_cancel_left heq⟩
    | cons y ys =>
      rw [renderElements, renderElements, py_close, py_comma] at heq
      exact absurd (List.cons.inj heq).1 (by decide)
  | cons x xs ih =>
    cases ys with
    | nil =>
      rw [renderElements, renderElements, py_close, py_comma] at heq
      exact absurd (List.cons.inj heq).1 (by decide)
    | cons y ys =>
      rw [renderElements, renderElements] at heq
      simp only [append_assoc] at heq
      obtain ⟨rfl, htail⟩ := h x mem_cons_self y _ _ (hys y mem_cons_self)
        (ends_renderElements xs rest) (ends_renderElements ys rest')
        (append_cancel_left heq)
      obtain ⟨rfl, hrest⟩ := ih (fun z hz => h z (mem_cons_of_mem _ hz))
        (fun z hz => hys z (mem_cons_of_mem _ hz)) htail
      exact ⟨rfl, hrest⟩

/-- A quoted text is determined. -/
theorem quote_determined {s s' rest rest' : PyStr} (heq : quote s ++ rest = quote s' ++ rest') :
    s = s' ∧ rest = rest' := by
  have hread := expectString_quote s rest
  rw [heq, expectString_quote] at hread
  exact (Prod.mk.inj (Except.ok.inj hread)).imp Eq.symm Eq.symm

/-- What follows the first member determines the other ones. -/
theorem members_determined {ms : List (PyStr × Json)} (h : ∀ p ∈ ms, Determined p.2)
    {ns : List (PyStr × Json)} (hns : ∀ p ∈ ns, Spelled p.2)
    (heq : renderMembers ms ++ rest = renderMembers ns ++ rest') : ms = ns ∧ rest = rest' := by
  induction ms generalizing ns with
  | nil =>
    cases ns with
    | nil => exact ⟨rfl, append_cancel_left heq⟩
    | cons p ns =>
      rw [renderMembers, renderMembers, py_end, py_comma] at heq
      exact absurd (List.cons.inj heq).1 (by decide)
  | cons p ms ih =>
    obtain ⟨k, v⟩ := p
    cases ns with
    | nil =>
      rw [renderMembers, renderMembers, py_end, py_comma] at heq
      exact absurd (List.cons.inj heq).1 (by decide)
    | cons q ns =>
      obtain ⟨k', v'⟩ := q
      rw [renderMembers, renderMembers] at heq
      simp only [append_assoc] at heq
      obtain ⟨rfl, hval⟩ := quote_determined (append_cancel_left heq)
      obtain ⟨rfl, htail⟩ := h (k, v) mem_cons_self v' _ _ (hns (k, v') mem_cons_self)
        (ends_renderMembers ms rest) (ends_renderMembers ns rest')
        (append_cancel_left hval)
      obtain ⟨rfl, hrest⟩ := ih (fun p hp => h p (mem_cons_of_mem _ hp))
        (fun p hp => hns p (mem_cons_of_mem _ hp)) htail
      exact ⟨rfl, hrest⟩

/-- Numbers end where they end. -/
theorem number_determined {t t' rest rest' : PyStr} (h : ∀ c ∈ t, IsNumeral c = true)
    (h' : ∀ c ∈ t', IsNumeral c = true) (hrest : Ends rest) (hrest' : Ends rest')
    (heq : t ++ rest = t' ++ rest') : t = t' ∧ rest = rest' := by
  have hread : ∀ {u tail : PyStr}, (∀ c ∈ u, IsNumeral c = true) → Ends tail →
      (u ++ tail).takeWhile IsNumeral = u := by
    intro u tail hu htail
    rw [takeWhile_append_of_pos hu]
    cases tail with
    | nil => simp
    | cons c tail => simp [htail c rfl]
  have ht : t = t' := by
    rw [← hread h hrest, heq, hread h' hrest']
  subst ht
  exact ⟨rfl, append_cancel_left heq⟩

/-- **The text of a tree determines the tree**, whatever follows. -/
theorem Spelled.determined {j : Json} (h : Spelled j) : Determined j := by
  induction h with
  | null =>
    intro j' rest rest' h' _ _ heq
    have hkind := Spelled.null.kind_eq h' heq
    cases h' with
    | null => exact ⟨rfl, append_cancel_left heq⟩
    | bool b => cases b <;> simp [kind] at hkind
    | _ => simp [kind] at hkind
  | bool b =>
    intro j' rest rest' h' _ _ heq
    have hkind := (Spelled.bool b).kind_eq h' heq
    cases h' with
    | bool b' =>
      cases b <;> cases b' <;> simp [kind] at hkind
      · exact ⟨rfl, append_cancel_left heq⟩
      · exact ⟨rfl, append_cancel_left heq⟩
    | _ => cases b <;> simp [kind] at hkind
  | number hne h =>
    intro j' rest rest' h' hrest hrest' heq
    have hkind := (Spelled.number hne h).kind_eq h' heq
    cases h' with
    | number hne' h' =>
      rw [render, render] at heq
      obtain ⟨rfl, htail⟩ := number_determined h h' hrest hrest' heq
      exact ⟨rfl, htail⟩
    | bool b => cases b <;> simp [kind] at hkind
    | _ => simp [kind] at hkind
  | str s =>
    intro j' rest rest' h' _ _ heq
    have hkind := (Spelled.str s).kind_eq h' heq
    cases h' with
    | str s' =>
      rw [render, render] at heq
      obtain ⟨rfl, htail⟩ := quote_determined heq
      exact ⟨rfl, htail⟩
    | bool b => cases b <;> simp [kind] at hkind
    | _ => simp [kind] at hkind
  | @arr xs h ih =>
    intro j' rest rest' h' _ _ heq
    have hkind := (Spelled.arr h).kind_eq h' heq
    cases h' with
    | @arr ys hys =>
      cases xs with
      | nil =>
        cases ys with
        | nil => exact ⟨rfl, append_cancel_left heq⟩
        | cons y ys =>
          rw [render, render, py_brackets, py_open] at heq
          simp only [cons_append, nil_append, List.cons.injEq, true_and,
            append_assoc] at heq
          exact absurd heq (hys y mem_cons_self).ne_close
      | cons x xs =>
        cases ys with
        | nil =>
          rw [render, render, py_brackets, py_open] at heq
          simp only [cons_append, nil_append, List.cons.injEq, true_and,
            append_assoc] at heq
          exact absurd heq.symm (h x mem_cons_self).ne_close
        | cons y ys =>
          rw [render, render] at heq
          simp only [append_assoc] at heq
          obtain ⟨rfl, htail⟩ := ih x mem_cons_self y _ _ (hys y mem_cons_self)
            (ends_renderElements xs rest) (ends_renderElements ys rest')
            (append_cancel_left heq)
          obtain ⟨rfl, hrest⟩ := elements_determined
            (fun z hz => ih z (mem_cons_of_mem _ hz))
            (fun z hz => hys z (mem_cons_of_mem _ hz)) htail
          exact ⟨rfl, hrest⟩
    | bool b => cases b <;> simp [kind] at hkind
    | _ => simp [kind] at hkind
  | @obj ms h ih =>
    intro j' rest rest' h' _ _ heq
    have hkind := (Spelled.obj h).kind_eq h' heq
    cases h' with
    | @obj ns hns =>
      cases ms with
      | nil =>
        cases ns with
        | nil => exact ⟨rfl, append_cancel_left heq⟩
        | cons q ns =>
          obtain ⟨k', v'⟩ := q
          rw [render, render, py_braces, py_begin, quote, py_quote, py_end] at heq
          simp only [cons_append, nil_append, List.cons.injEq] at heq
          exact absurd heq.2.1 (by decide)
      | cons p ms =>
        obtain ⟨k, v⟩ := p
        cases ns with
        | nil =>
          rw [render, render, py_braces, py_begin, quote, py_quote, py_end] at heq
          simp only [cons_append, nil_append, List.cons.injEq] at heq
          exact absurd heq.2.1 (by decide)
        | cons q ns =>
          obtain ⟨k', v'⟩ := q
          rw [render, render] at heq
          simp only [append_assoc] at heq
          obtain ⟨rfl, hval⟩ := quote_determined (append_cancel_left heq)
          obtain ⟨rfl, htail⟩ := ih (k, v) mem_cons_self v' _ _
            (hns (k, v') mem_cons_self) (ends_renderMembers ms rest)
            (ends_renderMembers ns rest') (append_cancel_left hval)
          obtain ⟨rfl, hrest⟩ := members_determined
            (fun p hp => ih p (mem_cons_of_mem _ hp))
            (fun p hp => hns p (mem_cons_of_mem _ hp)) htail
          exact ⟨rfl, hrest⟩
    | bool b => cases b <;> simp [kind] at hkind
    | _ => simp [kind] at hkind

/-- **Trees with one text are equal.** -/
theorem Spelled.render_inj {j j' : Json} (h : Spelled j) (h' : Spelled j')
    (heq : render j = render j') : j = j' := by
  refine (h.determined j' [] [] h' ends_nil ends_nil ?_).1
  rw [append_nil, append_nil, heq]

end Json

end OvcReplay
