import OvcReplay.Json.Parse

/-! # The code points of a JSON text

What `json.dumps` writes with `ensure_ascii=False` holds no controls, and beyond ASCII it holds just
the code points of the texts inside the tree. -/

namespace OvcReplay

open List Python

namespace Json

mutual

/-- The texts inside a tree: its strings, and the names of its members. -/
def texts : Json → List PyStr
  | .str s => [s]
  | .arr xs => textsOfList xs
  | .obj members => textsOfMembers members
  | _ => []

/-- The texts inside the elements of an array. -/
def textsOfList : List Json → List PyStr
  | [] => []
  | x :: xs => texts x ++ textsOfList xs

/-- The texts inside the members of an object. -/
def textsOfMembers : List (PyStr × Json) → List PyStr
  | [] => []
  | (k, v) :: members => k :: texts v ++ textsOfMembers members

end

/-! ## Controls -/

/-- A text without controls. -/
def ControlFree (s : PyStr) : Prop := ∀ c ∈ s, 0x20 ≤ c.val

instance (s : PyStr) : Decidable (ControlFree s) :=
  decidable_of_iff ((s.all fun c => Nat.ble 0x20 c.val) = true) (by simp [ControlFree])

@[simp] theorem controlFree_append {s t : PyStr} :
    ControlFree (s ++ t) ↔ ControlFree s ∧ ControlFree t := forall_mem_append

/-- The literals that the text of a tree is made of. -/
def literals : List String :=
  ["null", "true", "false", "[]", "\x7b\x7d", "[", "]", "\x7b", "\x7d", ",", ":", "-", "\"",
    "\\\"", "\\\\", "\\n", "\\r", "\\t", "\\f", "\\b", "\\u00"]

/-- A literal has neither controls nor code points beyond ASCII. -/
theorem plain_py {s : String} (h : s ∈ literals) : ControlFree (py s) ∧ IsAscii (py s) := by
  revert s
  decide +kernel

theorem hexDigit_bounds (n : Nat) : 0x20 ≤ (hexDigit n).val ∧ (hexDigit n).val < 128 := by
  unfold hexDigit
  split <;> simp only <;> omega

theorem controlFree_escape (c : CodePoint) : ControlFree (escape c) := by
  unfold escape
  split_ifs with _ _ h
  · exact (plain_py (by simp [literals])).1
  · exact (plain_py (by simp [literals])).1
  · simpa [ControlFree] using h
  · exact (plain_py (by simp [literals])).1
  · exact (plain_py (by simp [literals])).1
  · exact (plain_py (by simp [literals])).1
  · exact (plain_py (by simp [literals])).1
  · exact (plain_py (by simp [literals])).1
  · have hpre : ControlFree (py "\\u00") := (plain_py (by simp [literals])).1
    refine controlFree_append.mpr ⟨hpre, fun d hd => ?_⟩
    simp only [mem_cons, not_mem_nil, or_false] at hd
    rcases hd with rfl | rfl <;> exact (hexDigit_bounds _).1

theorem controlFree_quote (s : PyStr) : ControlFree (quote s) := by
  have hquote : ControlFree (py "\"") := (plain_py (by simp [literals])).1
  have hins : ControlFree (escapeAll s) := by
    induction s with
    | nil => simp [escapeAll, ControlFree]
    | cons c s ih => exact controlFree_append.mpr ⟨controlFree_escape c, ih⟩
  simp [quote, hquote, hins]

/-- A text of digits has neither controls nor code points beyond ASCII. -/
theorem controlFree_digits {s : PyStr} (h : ∀ c ∈ s, IsDigit c = true) :
    ControlFree s ∧ IsAscii s := by
  constructor <;> intro c hc <;> have hdigit := h c hc <;>
    simp only [IsDigit, Bool.and_eq_true, decide_eq_true_eq] at hdigit <;> omega

theorem controlFree_intText (z : Int) : ControlFree (intText z) := by
  cases z with
  | ofNat n => exact (controlFree_digits (isDigit_natText n)).1
  | negSucc n =>
    have hminus : ControlFree (py "-") := (plain_py (by simp [literals])).1
    exact controlFree_append.mpr ⟨hminus, (controlFree_digits (isDigit_natText (n + 1))).1⟩

/-- The text of a float has neither controls nor code points beyond ASCII. -/
theorem FloatText.controlFree {t : PyStr} (h : FloatText t) : ControlFree t ∧ IsAscii t := by
  have hsign : ∀ negative : Bool, ControlFree (if negative then py "-" else []) ∧
      IsAscii (if negative then py "-" else []) := by
    intro negative
    cases negative with
    | false => simp [ControlFree]
    | true => exact plain_py (by simp [literals])
  have hcons : ∀ (c : CodePoint) (s : PyStr), 0x20 ≤ c.val → c.val < 128 →
      ControlFree s ∧ IsAscii s → ControlFree (c :: s) ∧ IsAscii (c :: s) :=
    fun c s hc hc' hs => ⟨forall_mem_cons.mpr ⟨hc, hs.1⟩,
      forall_mem_cons.mpr ⟨hc', hs.2⟩⟩
  obtain ⟨negative, n, hfrac, hexpo, -⟩ := h
  rename_i fraction exponent
  have hf : ControlFree fraction ∧ IsAscii fraction := by
    rcases hfrac with rfl | ⟨c, ds, rfl, hc, -, hds⟩
    · simp [ControlFree]
    · exact hcons c ds (by omega) (by omega) (controlFree_digits hds)
  have he : ControlFree exponent ∧ IsAscii exponent := by
    rcases hexpo with rfl | ⟨e, sign, ds, rfl, he, hs, -, hds⟩
    · simp [ControlFree]
    · rcases hs with rfl | ⟨c, rfl, hc⟩
      · exact hcons e ds (by omega) (by omega) (controlFree_digits hds)
      · exact hcons e (c :: ds) (by omega) (by omega)
          (hcons c ds (by omega) (by omega) (controlFree_digits hds))
  have hn := controlFree_digits (isDigit_natText n)
  exact ⟨by simp [(hsign negative).1, hn.1, hf.1, he.1],
    by simp [(hsign negative).2, hn.2, hf.2, he.2]⟩

theorem controlFree_renderElements {xs : List Json} (h : ∀ x ∈ xs, ControlFree (render x)) :
    ControlFree (renderElements xs) := by
  have hcomma : ControlFree (py ",") := (plain_py (by simp [literals])).1
  have hclose : ControlFree (py "]") := (plain_py (by simp [literals])).1
  induction xs with
  | nil => exact hclose
  | cons x xs ih =>
    have hrest := ih fun y hy => h y (mem_cons_of_mem _ hy)
    simp [renderElements, hcomma, h x, hrest]

variable {members : List (PyStr × Json)}

theorem controlFree_renderMembers (h : ∀ m ∈ members, ControlFree (render m.2)) :
    ControlFree (renderMembers members) := by
  have hcomma : ControlFree (py ",") := (plain_py (by simp [literals])).1
  have hcolon : ControlFree (py ":") := (plain_py (by simp [literals])).1
  have hclose : ControlFree (py "\x7d") := (plain_py (by simp [literals])).1
  induction members with
  | nil => exact hclose
  | cons m members ih =>
    have hrest := ih fun n hn => h n (mem_cons_of_mem _ hn)
    simp [renderMembers, hcomma, hcolon, controlFree_quote, h m, hrest]

/-- **The text of a tree holds no controls.** -/
theorem Legible.controlFree {j : Json} (h : Legible j) : ControlFree (render j) := by
  induction h with
  | null =>
    rw [render]
    exact (plain_py (by simp [literals])).1
  | bool b => cases b <;> rw [render] <;> exact (plain_py (by simp [literals])).1
  | @int z _ =>
    rw [render]
    exact controlFree_intText z
  | float ht =>
    rw [render]
    exact ht.controlFree.1
  | str s =>
    rw [render]
    exact controlFree_quote s
  | @arr xs _ ih =>
    have hopen : ControlFree (py "[") := (plain_py (by simp [literals])).1
    cases xs with
    | nil =>
      rw [render]
      exact (plain_py (by simp [literals])).1
    | cons x xs =>
      have hrest := controlFree_renderElements fun y hy => ih y (mem_cons_of_mem _ hy)
      simp [render, hopen, ih x, hrest]
  | @obj members _ ih =>
    have hopen : ControlFree (py "\x7b") := (plain_py (by simp [literals])).1
    have hcolon : ControlFree (py ":") := (plain_py (by simp [literals])).1
    cases members with
    | nil =>
      rw [render]
      exact (plain_py (by simp [literals])).1
    | cons m members =>
      have hrest := controlFree_renderMembers fun n hn => ih n (mem_cons_of_mem _ hn)
      have hhead := ih m mem_cons_self
      simp [render, hopen, hcolon, controlFree_quote, hhead, hrest]

/-! ## Beyond ASCII -/

variable {c : CodePoint}

theorem not_mem_of_isAscii {s : PyStr} (hc : 0x80 ≤ c.val) (hs : IsAscii s) : c ∉ s := by
  intro hmem
  have hlt := hs c hmem
  omega

theorem mem_escape (hc : 0x80 ≤ c.val) (d : CodePoint) : c ∈ escape d ↔ c = d := by
  have hpy : ∀ s : PyStr, IsAscii s → d.val < 0x80 → (c ∈ s ↔ c = d) := by
    intro s hs hd
    refine iff_of_false (not_mem_of_isAscii hc hs) fun heq => ?_
    rw [heq] at hc
    omega
  unfold escape
  split_ifs
  · exact hpy _ (plain_py (by simp [literals])).2 (by omega)
  · exact hpy _ (plain_py (by simp [literals])).2 (by omega)
  · exact mem_singleton
  · exact hpy _ (plain_py (by simp [literals])).2 (by omega)
  · exact hpy _ (plain_py (by simp [literals])).2 (by omega)
  · exact hpy _ (plain_py (by simp [literals])).2 (by omega)
  · exact hpy _ (plain_py (by simp [literals])).2 (by omega)
  · exact hpy _ (plain_py (by simp [literals])).2 (by omega)
  · refine hpy _ (isAscii_append.mpr ⟨(plain_py (by simp [literals])).2, ?_⟩) (by omega)
    simp [hexDigit_bounds]

theorem mem_quote (hc : 0x80 ≤ c.val) (s : PyStr) : c ∈ quote s ↔ c ∈ s := by
  have hquote : c ∉ py "\"" := not_mem_of_isAscii hc (plain_py (by simp [literals])).2
  have hins : c ∈ escapeAll s ↔ c ∈ s := by
    induction s with
    | nil => simp [escapeAll]
    | cons d s ih => simp [escapeAll, mem_escape hc, ih]
  simp [quote, hquote, hins]

theorem mem_renderElements (hc : 0x80 ≤ c.val) {xs : List Json}
    (h : ∀ x ∈ xs, (c ∈ render x ↔ ∃ s ∈ texts x, c ∈ s)) :
    c ∈ renderElements xs ↔ ∃ s ∈ textsOfList xs, c ∈ s := by
  have hcomma : c ∉ py "," := not_mem_of_isAscii hc (plain_py (by simp [literals])).2
  have hclose : c ∉ py "]" := not_mem_of_isAscii hc (plain_py (by simp [literals])).2
  induction xs with
  | nil => simp [renderElements, textsOfList, hclose]
  | cons x xs ih =>
    have hrest := ih fun y hy => h y (mem_cons_of_mem _ hy)
    have hhead := h x mem_cons_self
    simp [renderElements, textsOfList, hcomma, hhead, hrest, or_and_right, exists_or]

theorem mem_renderMembers (hc : 0x80 ≤ c.val)
    (h : ∀ m ∈ members, (c ∈ render m.2 ↔ ∃ s ∈ texts m.2, c ∈ s)) :
    c ∈ renderMembers members ↔ ∃ s ∈ textsOfMembers members, c ∈ s := by
  have hcomma : c ∉ py "," := not_mem_of_isAscii hc (plain_py (by simp [literals])).2
  have hcolon : c ∉ py ":" := not_mem_of_isAscii hc (plain_py (by simp [literals])).2
  have hclose : c ∉ py "\x7d" := not_mem_of_isAscii hc (plain_py (by simp [literals])).2
  induction members with
  | nil => simp [renderMembers, textsOfMembers, hclose]
  | cons m members ih =>
    obtain ⟨k, v⟩ := m
    have hrest := ih fun n hn => h n (mem_cons_of_mem _ hn)
    have hhead := h (k, v) mem_cons_self
    simp [renderMembers, textsOfMembers, hcomma, hcolon, mem_quote hc, hhead, hrest,
      or_and_right, exists_or]

/-- **Beyond ASCII the text of a tree holds the code points of its texts.** -/
theorem Legible.mem_render {j : Json} (h : Legible j) (hc : 0x80 ≤ c.val) :
    c ∈ render j ↔ ∃ s ∈ texts j, c ∈ s := by
  have hnone : ∀ {t : PyStr}, IsAscii t → (c ∈ t ↔ ∃ s ∈ ([] : List PyStr), c ∈ s) :=
    fun ht => iff_of_false (not_mem_of_isAscii hc ht) (by simp)
  induction h with
  | null =>
    simp only [render, texts]
    exact hnone (plain_py (by simp [literals])).2
  | bool b =>
    cases b <;> simp only [render, texts] <;> exact hnone (plain_py (by simp [literals])).2
  | @int z _ =>
    simp only [render, texts]
    exact hnone (isAscii_intText z)
  | float ht =>
    simp only [render, texts]
    exact hnone ht.controlFree.2
  | str s => simp [render, texts, mem_quote hc]
  | @arr xs _ ih =>
    have hopen : c ∉ py "[" := not_mem_of_isAscii hc (plain_py (by simp [literals])).2
    cases xs with
    | nil =>
      rw [render, texts, textsOfList]
      exact hnone (plain_py (by simp [literals])).2
    | cons x xs =>
      have hrest := mem_renderElements hc fun y hy => ih y (mem_cons_of_mem _ hy)
      have hhead := ih x mem_cons_self
      simp [render, texts, textsOfList, hopen, hhead, hrest, or_and_right, exists_or]
  | @obj members _ ih =>
    have hopen : c ∉ py "\x7b" := not_mem_of_isAscii hc (plain_py (by simp [literals])).2
    have hcolon : c ∉ py ":" := not_mem_of_isAscii hc (plain_py (by simp [literals])).2
    cases members with
    | nil =>
      rw [render, texts, textsOfMembers]
      exact hnone (plain_py (by simp [literals])).2
    | cons m members =>
      obtain ⟨k, v⟩ := m
      have hrest := mem_renderMembers hc fun n hn => ih n (mem_cons_of_mem _ hn)
      have hhead := ih (k, v) mem_cons_self
      simp [render, texts, textsOfMembers, hopen, hcolon, mem_quote hc, hhead, hrest,
        or_and_right, exists_or]

end Json

end OvcReplay
