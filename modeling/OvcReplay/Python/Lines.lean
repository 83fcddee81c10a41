import OvcReplay.Python.Text

/-! # `str.splitlines`

A text cut at every line break that Python knows: besides the controls of ASCII these are the next
line, the line separator and the paragraph separator. A line that holds breaks of its own comes out
in more than one piece. -/

namespace OvcReplay.Python

open List

/-- The line feed. -/
def newline : CodePoint := .ofChar '\n'

@[simp] theorem val_newline : newline.val = 0x0A := rfl

/-- A line break of `str.splitlines`. -/
def CodePoint.isBreak (c : CodePoint) : Bool :=
  (Nat.ble 0x0A c.val && Nat.ble c.val 0x0D) || (Nat.ble 0x1C c.val && Nat.ble c.val 0x1E) ||
    c.val == 0x85 || c.val == 0x2028 || c.val == 0x2029

/-- The lines of a text, behind the start of a line; after a carriage return a line feed belongs to
the same break. -/
def splitFrom : PyStr → Bool → PyStr → List PyStr
  | line, _, [] => if line = [] then [] else [line]
  | line, afterReturn, c :: s =>
    if afterReturn ∧ c.val = 0x0A then splitFrom [] false s
    else if c.isBreak then line :: splitFrom [] (c.val == 0x0D) s
    else splitFrom (line ++ [c]) false s

/-- `s.splitlines()`. -/
def splitlines (s : PyStr) : List PyStr := splitFrom [] false s

/-- Universal newlines: what a text file is read as. -/
def universalNewlines : Bool → PyStr → PyStr
  | _, [] => []
  | afterReturn, c :: s =>
    if c.val = 0x0D then newline :: universalNewlines true s
    else if afterReturn ∧ c.val = 0x0A then universalNewlines false s
    else c :: universalNewlines false s

/-- The pieces of a line, behind the start of the first one. -/
def pieces : PyStr → PyStr → List PyStr
  | line, [] => [line]
  | line, c :: s => if c.isBreak then line :: pieces [] s else pieces (line ++ [c]) s

/-- The line is passed over by a reader of lines. -/
def isBlank (line : PyStr) : Bool := decide (strip line = [])

/-! ## Newlines -/

variable {s : PyStr}

/-- A text without carriage returns is read as it is. -/
theorem universalNewlines_eq_self (h : ∀ c ∈ s, c.val ≠ 0x0D) : universalNewlines false s = s := by
  induction s with
  | nil => rfl
  | cons c s ih =>
    rw [universalNewlines, if_neg (h c mem_cons_self), if_neg (by simp),
      ih fun d hd => h d (mem_cons_of_mem _ hd)]

/-! ## Pieces -/

/-- **A line of a text comes out in its pieces**, and the lines behind it follow. -/
theorem splitFrom_line (h : ∀ c ∈ s, c.val ≠ 0x0D) (line rest : PyStr) :
    splitFrom line false (s ++ newline :: rest) = pieces line s ++ splitFrom [] false rest := by
  induction s generalizing line with
  | nil => simp [splitFrom, pieces, CodePoint.isBreak]
  | cons c s ih =>
    have hc := h c mem_cons_self
    have hrest := ih fun d hd => h d (mem_cons_of_mem _ hd)
    rw [cons_append, splitFrom, if_neg (by simp), pieces]
    by_cases hbreak : c.isBreak = true
    · rw [if_pos hbreak, if_pos hbreak, show (c.val == 0x0D) = false by simpa using hc, hrest,
        cons_append]
    · rw [if_neg hbreak, if_neg hbreak, hrest]

/-- A line without breaks is one piece. -/
theorem pieces_eq_singleton (h : ∀ c ∈ s, c.isBreak = false) (line : PyStr) :
    pieces line s = [line ++ s] := by
  induction s generalizing line with
  | nil => simp [pieces]
  | cons c s ih =>
    rw [pieces, if_neg (by simp [h c mem_cons_self]),
      ih (fun d hd => h d (mem_cons_of_mem _ hd)), append_assoc, singleton_append]

/-! ## Blank lines -/

/-- A line with something in it is not blank. -/
theorem isBlank_eq_false {line : PyStr} {c : CodePoint} (hc : c ∈ line) (h : c.isSpace = false) :
    isBlank line = false := by
  rw [isBlank, decide_eq_false_iff_not, strip, rdropWhile_eq_nil_iff]
  intro hall
  have hnil : line.dropWhile CodePoint.isSpace = [] := by
    by_contra hne
    have hhead := head_dropWhile_not CodePoint.isSpace hne
    rw [hall _ (head_mem hne)] at hhead
    exact absurd hhead (by simp)
  have hspace := dropWhile_eq_nil_iff.mp hnil c hc
  rw [h] at hspace
  exact absurd hspace (by simp)

/-- The number of lines that a reader does not pass over. -/
def lineCount (lines : List PyStr) : Nat := lines.countP fun line => !isBlank line

theorem lineCount_cons {line : PyStr} {lines : List PyStr} (h : isBlank line = false) :
    lineCount (line :: lines) = lineCount lines + 1 := by
  rw [lineCount, countP_cons_of_pos (by simp [h]), lineCount]

/-- The last piece of a line is not blank when the line ends with something. -/
theorem one_le_lineCount (s : PyStr) {d : CodePoint} (hbreak : d.isBreak = false)
    (hd : d.isSpace = false) (line : PyStr) : 1 ≤ lineCount (pieces line (s ++ [d])) := by
  induction s generalizing line with
  | nil =>
    have hlast : isBlank (line ++ [d]) = false := isBlank_eq_false (by simp) hd
    rw [nil_append, pieces, if_neg (by simp [hbreak]), pieces, lineCount_cons hlast]
    exact Nat.le_add_left 1 _
  | cons c s ih =>
    rw [cons_append, pieces]
    split
    · exact (ih []).trans (List.Sublist.countP_le (sublist_cons_self line _))
    · exact ih (line ++ [c])

/-- **A line with a break inside comes out as two lines at least**, when it starts and ends with
something. -/
theorem two_le_lineCount (h : ∃ c ∈ s, c.isBreak = true) {d : CodePoint}
    (hbreak : d.isBreak = false) (hd : d.isSpace = false) {line : PyStr}
    (hfst : ∃ c ∈ line, c.isSpace = false) :
    2 ≤ lineCount (pieces line (s ++ [d])) := by
  induction s generalizing line with
  | nil => simp at h
  | cons c s ih =>
    rw [cons_append, pieces]
    obtain ⟨e, he, hspace⟩ := hfst
    by_cases hc : c.isBreak = true
    · rw [if_pos hc, lineCount_cons (isBlank_eq_false he hspace)]
      exact Nat.succ_le_succ (one_le_lineCount s hbreak hd [])
    · have he' : e ∈ line ++ [c] := mem_append_left _ he
      have hrest : ∃ c ∈ s, c.isBreak = true := by
        obtain ⟨b, hb, hbreak⟩ := h
        rcases mem_cons.mp hb with rfl | hb
        · exact absurd hbreak hc
        · exact ⟨b, hb, hbreak⟩
      rw [if_neg hc]
      exact ih hrest ⟨e, he', hspace⟩

end OvcReplay.Python
