import OvcReplay.Python.Text
import OvcReplay.Python.Dict

/-! # JSON texts

The tree `json.dumps` walks and the text it writes with `ensure_ascii=False` and
`separators=(",", ":")`. Members are written in the order of the tree: sorting is done by whoever
builds it. -/

namespace OvcReplay

open Python

/-- A JSON value. A float is the text `float.__repr__` gives it. -/
inductive Json where
  | null
  | bool (b : Bool)
  | int (z : Int)
  | float (text : PyStr)
  | str (s : PyStr)
  | arr (xs : List Json)
  | obj (members : List (PyStr × Json))
  deriving Repr

namespace Json

/-! ## Strings -/

/-- Induction over values: the members of a container come with their hypotheses. -/
@[elab_as_elim, induction_eliminator]
theorem induct {motive : Json → Prop} (null : motive .null) (bool : ∀ b, motive (.bool b))
    (int : ∀ z, motive (.int z)) (float : ∀ t, motive (.float t)) (str : ∀ s, motive (.str s))
    (arr : ∀ xs, (∀ x ∈ xs, motive x) → motive (.arr xs))
    (obj : ∀ members, (∀ p ∈ members, motive p.2) → motive (.obj members)) (j : Json) :
    motive j := by
  refine Json.rec (motive_1 := motive) (motive_2 := fun xs => ∀ x ∈ xs, motive x)
    (motive_3 := fun members => ∀ p ∈ members, motive p.2) (motive_4 := fun p => motive p.2)
    null bool int float str arr obj ?_ ?_ ?_ ?_ ?_ j
  · simp
  · intro x xs hx hxs
    simpa using ⟨hx, hxs⟩
  · simp
  · intro p members hp hmems q hq
    rcases List.mem_cons.mp hq with rfl | hq
    · exact hp
    · exact hmems q hq
  · intro k j hj
    exact hj

/-- One code point of a quoted text: the quote, the backslash and the controls are escaped. -/
def escape (c : CodePoint) : PyStr :=
  if c.val = 0x22 then py "\\\""
  else if c.val = 0x5C then py "\\\\"
  else if 0x20 ≤ c.val then [c]
  else if c.val = 0x0A then py "\\n"
  else if c.val = 0x0D then py "\\r"
  else if c.val = 0x09 then py "\\t"
  else if c.val = 0x0C then py "\\f"
  else if c.val = 0x08 then py "\\b"
  else py "\\u00" ++ [hexDigit (c.val / 16), hexDigit (c.val % 16)]

/-- The inside of a quoted text. -/
def escapeAll : PyStr → PyStr
  | [] => []
  | c :: s => escape c ++ escapeAll s

/-- A quoted text. -/
def quote (s : PyStr) : PyStr := py "\"" ++ escapeAll s ++ py "\""

theorem encodable_escape (c : CodePoint) : Encodable (escape c) ↔ ¬ c.IsSurrogate := by
  unfold escape
  by_cases h : 0x20 ≤ c.val
  · have hquote : c.val = 0x22 → ¬ c.IsSurrogate := fun hc hs => by
      have := hs.1
      omega
    have hback : c.val = 0x5C → ¬ c.IsSurrogate := fun hc hs => by
      have := hs.1
      omega
    rw [if_pos h]
    split_ifs with hq hb
    · exact iff_of_true (encodable_py _) (hquote hq)
    · exact iff_of_true (encodable_py _) (hback hb)
    · simp
  · have hc : ¬ c.IsSurrogate := fun hs => by
      have := hs.1
      omega
    rw [if_neg (by omega), if_neg (by omega), if_neg h]
    split_ifs
    · exact iff_of_true (encodable_py _) hc
    · exact iff_of_true (encodable_py _) hc
    · exact iff_of_true (encodable_py _) hc
    · exact iff_of_true (encodable_py _) hc
    · exact iff_of_true (encodable_py _) hc
    · simp [hc, not_isSurrogate_hexDigit]

/-- Quoting neither adds nor removes what cannot be encoded. -/
@[simp] theorem encodable_escapeAll (s : PyStr) : Encodable (escapeAll s) ↔ Encodable s := by
  induction s with
  | nil => simp [escapeAll]
  | cons c s ih => simp [escapeAll, encodable_escape, ih]

@[simp] theorem encodable_quote (s : PyStr) : Encodable (quote s) ↔ Encodable s := by
  simp [quote]

/-! ## Texts -/

mutual

/-- The text of a value. -/
def render : Json → PyStr
  | .null => py "null"
  | .bool true => py "true"
  | .bool false => py "false"
  | .int z => intText z
  | .float t => t
  | .str s => quote s
  | .arr [] => py "[]"
  | .arr (x :: xs) => py "[" ++ render x ++ renderElements xs
  | .obj [] => py "\x7b\x7d"
  | .obj ((k, v) :: members) => py "\x7b" ++ quote k ++ py ":" ++ render v ++ renderMembers members

/-- What follows an element of an array. -/
def renderElements : List Json → PyStr
  | [] => py "]"
  | x :: xs => py "," ++ render x ++ renderElements xs

/-- What follows a member of an object. -/
def renderMembers : List (PyStr × Json) → PyStr
  | [] => py "\x7d"
  | (k, v) :: members => py "," ++ quote k ++ py ":" ++ render v ++ renderMembers members

end

theorem encodable_renderElements (xs : List Json) :
    Encodable (renderElements xs) ↔ ∀ x ∈ xs, Encodable (render x) := by
  induction xs with
  | nil => simp [renderElements]
  | cons x xs ih => simp [renderElements, ih]

theorem encodable_renderMembers (members : List (PyStr × Json)) :
    Encodable (renderMembers members) ↔ ∀ p ∈ members, Encodable p.1 ∧ Encodable (render p.2) := by
  induction members with
  | nil => simp [renderMembers]
  | cons p members ih =>
    obtain ⟨k, v⟩ := p
    simp [renderMembers, ih, and_assoc]

@[simp] theorem encodable_render_str (s : PyStr) : Encodable (render (.str s)) ↔ Encodable s :=
  encodable_quote s

/-- **An array can be encoded iff its elements can.** -/
theorem encodable_render_arr (xs : List Json) :
    Encodable (render (.arr xs)) ↔ ∀ x ∈ xs, Encodable (render x) := by
  cases xs with
  | nil => simp [render]
  | cons x xs => simp [render, encodable_renderElements]

/-- **An object can be encoded iff its keys and values can.** -/
theorem encodable_render_obj (members : List (PyStr × Json)) : Encodable (render (.obj members)) ↔
      ∀ p ∈ members, Encodable p.1 ∧ Encodable (render p.2) := by
  cases members with
  | nil => simp [render]
  | cons p members =>
    obtain ⟨k, v⟩ := p
    simp [render, encodable_renderMembers, and_assoc]

end Json

end OvcReplay
