import OvcReplay.Srfd.Coverage

/-! # The penalised reference segmentation

`pelt_reference` of `segmentation.py`, in exact arithmetic: a dynamic programme over the ends of the
segments. The cost of a segment comes from prefix sums, and is its squared error; the row of an end
keeps the least objective of all segmentations up to there, with the changepoints that attain it. -/

namespace OvcReplay.Srfd

open List Python

/-- `SegmentationError`, or an exception that passes through. -/
inductive SegmentationError where
  | segmentation (reasonCode detail : PyStr)
  | other (e : Error)
  deriving DecidableEq, Repr

namespace Pelt

/-! ## The reference -/

/-- `prefix`: the sums of the values before each index. -/
def prefixSums (xs : List Rat) : List Rat := xs.scanl (· + ·) 0

/-- `cost`. -/
def cost (signal : List Rat) (start stop : Nat) : Rat :=
  let sums := prefixSums signal
  let squares := prefixSums (signal.map fun x => x * x)
  let total := sums.getD stop 0 - sums.getD start 0
  let totalSquares := squares.getD stop 0 - squares.getD start 0
  totalSquares - total * total / ((stop - start : Nat) : Rat)

/-- The row of an end: `best[end]` and `path[end]`. -/
structure Row where
  best : Rat
  path : List Nat
  deriving DecidableEq

/-- A candidate for the row of an end: it is reached from the row of `start`. -/
structure Candidate where
  score : Rat
  changes : List Nat
  start : Nat

/-- The candidate from the row of `start`. -/
def candidate (signal : List Rat) (beta : Rat) (stop : Nat) (row : Row) (start : Nat) :
    Candidate where
  score := row.best + cost signal start stop + beta
  changes := row.path ++ if start = 0 then [] else [start]
  start := start

/-- The row behind the rows of all earlier ends. -/
def nextRow (signal : List Rat) (beta : Rat) (rows : List Row) : Except SegmentationError Row := do
  let candidates := rows.mapIdx fun start row => candidate signal beta rows.length row start
  let least ← (minBy (fun c : Candidate => toLex (c.score, toLex (c.changes, c.start)))
    candidates).mapError .other
  return ⟨least.score, least.changes⟩

/-- The rows of the ends up to `n`. -/
def table (signal : List Rat) (beta : Rat) : Nat → Except SegmentationError (List Row)
  | 0 => .ok [⟨-beta, []⟩]
  | n + 1 => do
    let rows ← table signal beta n
    let row ← nextRow signal beta rows
    return rows ++ [row]

/-- What `pelt_reference` returns. -/
structure Segmentation where
  changepoints : List Nat
  /-- The first index of each segment, and the index behind its last one. -/
  segments : List (Nat × Nat)
  objective : Rat
  deriving DecidableEq

/-- The segments between changepoints. -/
def segmentsOf (n : Nat) (changes : List Nat) : List (Nat × Nat) :=
  zip (0 :: changes) (changes ++ [n])

end Pelt

open Pelt in
/-- **`pelt_reference`.** -/
def peltReference (signal : List Rat) (beta : Rat) : Except SegmentationError Segmentation := do
  check (signal ≠ []) (.segmentation (py "QA_SCHEMA_FAILURE") (py "signal required"))
  check (0 ≤ beta) (.segmentation (py "DIST_INVALID_PARAMETER") (py "penalty must be non-negative"))
  let rows ← table signal beta signal.length
  let row := rows.getD signal.length ⟨0, []⟩
  return ⟨row.path, segmentsOf signal.length row.path, row.best⟩

namespace Pelt

/-! ## Segmentations -/

/-- **Changepoints** of a signal of length `n`: strictly increasing, inside it. -/
def IsChangepoints (n : Nat) (changes : List Nat) : Prop :=
  changes.Pairwise (· < ·) ∧ ∀ c ∈ changes, 0 < c ∧ c < n

/-- The values of a segment. -/
def slice (signal : List Rat) (start stop : Nat) : List Rat :=
  (signal.drop start).take (stop - start)

variable (xs : List Rat)

/-- The squared error of values around their mean. -/
def squaredError : Rat :=
  (xs.map fun x => (x - xs.sum / xs.length) * (x - xs.sum / xs.length)).sum

/-- **The penalised squared error** of a segmentation: the squared errors of its segments, and the
penalty for every changepoint. -/
def penalised (signal : List Rat) (beta : Rat) (n : Nat) (changes : List Nat) : Rat :=
  ((segmentsOf n changes).map fun s => squaredError (slice signal s.1 s.2)).sum +
    beta * changes.length

/-! ## The cost of a segment -/

theorem prefixSums_getD {k : Nat} (h : k ≤ xs.length) :
    (prefixSums xs).getD k 0 = (xs.take k).sum := by
  have hscan : ∀ (xs : List Rat) (start : Rat) (k : Nat), k ≤ xs.length →
      (xs.scanl (· + ·) start).getD k 0 = start + (xs.take k).sum := by
    intro xs
    induction xs with
    | nil =>
      intro start k hk
      obtain rfl : k = 0 := Nat.le_zero.mp hk
      simp
    | cons x xs ih =>
      intro start k hk
      cases k with
      | zero => simp
      | succ k =>
        rw [scanl_cons, getD_cons_succ, ih (start + x) k (by simpa using hk),
          take_succ_cons, sum_cons, add_assoc]
  rw [prefixSums, hscan xs 0 k h, zero_add]

theorem sum_slice {start stop : Nat} (h : start ≤ stop) :
    (slice xs start stop).sum = (xs.take stop).sum - (xs.take start).sum := by
  have hsplit : xs.take stop = xs.take start ++ slice xs start stop := by
    rw [slice, ← take_add, Nat.add_sub_cancel' h]
  rw [hsplit, sum_append, add_sub_cancel_left]

/-- The squared error is the sum of the squares less the square of the sum over the length. -/
theorem squaredError_eq :
    squaredError xs = (xs.map fun x => x * x).sum - xs.sum * xs.sum / xs.length := by
  have hexpand : ∀ (m : Rat) (ys : List Rat), (ys.map fun y => (y - m) * (y - m)).sum =
      (ys.map fun y => y * y).sum - 2 * m * ys.sum + ys.length * (m * m) := by
    intro m ys
    induction ys with
    | nil => simp
    | cons y ys ih =>
      simp only [map_cons, sum_cons, ih, length_cons, Nat.cast_add, Nat.cast_one]
      ring
  rw [squaredError, hexpand]
  by_cases hzero : xs.length = 0
  · rw [length_eq_zero_iff.mp hzero]
    simp
  · have hlen : (xs.length : Rat) ≠ 0 := Nat.cast_ne_zero.mpr hzero
    field_simp
    ring

/-- **The cost of a segment is its squared error.** -/
theorem cost_eq (signal : List Rat) {start stop : Nat} (h : start ≤ stop)
    (hstop : stop ≤ signal.length) :
    cost signal start stop = squaredError (slice signal start stop) := by
  have hlen : (slice signal start stop).length = stop - start := by
    rw [slice, length_take, length_drop]
    omega
  have hsquares : (slice signal start stop).map (fun x => x * x) =
      slice (signal.map fun x => x * x) start stop := by
    rw [slice, slice, map_take, map_drop]
  have hmap : (signal.map fun x => x * x).length = signal.length := length_map _
  rw [squaredError_eq, hsquares, sum_slice _ h, sum_slice _ h, hlen]
  unfold cost
  dsimp only
  rw [prefixSums_getD _ hstop, prefixSums_getD _ (h.trans hstop),
    prefixSums_getD _ (hmap ▸ hstop), prefixSums_getD _ (hmap ▸ h.trans hstop)]

/-! ## The last changepoint -/

theorem segmentsOf_append (n start : Nat) (changes : List Nat) :
    segmentsOf n (changes ++ [start]) = segmentsOf start changes ++ [(start, n)] := by
  unfold segmentsOf
  rw [← cons_append, zip_append (by simp)]
  rfl

theorem penalised_append (signal : List Rat) (beta : Rat) (n start : Nat) (changes : List Nat) :
    penalised signal beta n (changes ++ [start]) =
      penalised signal beta start changes + squaredError (slice signal start n) + beta := by
  rw [penalised, penalised, segmentsOf_append]
  simp only [map_append, map_cons, map_nil, sum_append, sum_cons,
    sum_nil, length_append, length_cons, length_nil, Nat.cast_add]
  push_cast
  ring

theorem penalised_nil (signal : List Rat) (beta : Rat) (n : Nat) :
    penalised signal beta n [] = squaredError (slice signal 0 n) := by
  simp [penalised, segmentsOf]

variable {changes : List Nat}

theorem isChangepoints_append {n start : Nat} : IsChangepoints n (changes ++ [start]) ↔
      IsChangepoints start changes ∧ 0 < start ∧ start < n := by
  unfold IsChangepoints
  rw [pairwise_append]
  constructor
  · rintro ⟨⟨hsort, -, hlast⟩, hall⟩
    have hstart := hall start (by simp)
    refine ⟨⟨hsort, fun c hc => ⟨(hall c (by simp [hc])).1, hlast c hc start (by simp)⟩⟩, hstart⟩
  · rintro ⟨⟨hsort, hall⟩, hpos, hlt⟩
    refine ⟨⟨hsort, by simp, fun c hc d hd => ?_⟩, fun c hc => ?_⟩
    · obtain rfl := mem_singleton.mp hd
      exact (hall c hc).2
    · rcases mem_append.mp hc with hc | hc
      · exact ⟨(hall c hc).1, (hall c hc).2.trans hlt⟩
      · obtain rfl := mem_singleton.mp hc
        exact ⟨hpos, hlt⟩

/-- Changepoints are none, or end with one of an earlier end. -/
theorem eq_nil_or_append {n : Nat} (h : IsChangepoints n changes) :
    changes = [] ∨ ∃ earlier start, changes = earlier ++ [start] ∧
      IsChangepoints start earlier ∧ 0 < start ∧ start < n := by
  rcases eq_nil_or_concat' changes with rfl | ⟨earlier, start, rfl⟩
  · exact .inl rfl
  · exact .inr ⟨earlier, start, rfl, isChangepoints_append.mp h⟩

/-! ## The rows -/

/-- **What the row of an end says**: the least objective of the segmentations up to there, and the
changepoints of one that attains it. -/
structure Best (signal : List Rat) (beta : Rat) (k : Nat) (row : Row) : Prop where
  zero : k = 0 → row = ⟨-beta, []⟩
  changepoints : 0 < k → IsChangepoints k row.path
  attained : 0 < k → row.best = penalised signal beta k row.path
  least : 0 < k → ∀ changes, IsChangepoints k changes → row.best ≤ penalised signal beta k changes

variable {signal : List Rat} {beta : Rat}

/-- A candidate is the segmentation of its row with one segment more. -/
theorem candidate_spec {stop start : Nat} (hstart : start < stop) (hstop : stop ≤ signal.length)
    {row : Row} (hrow : Best signal beta start row) :
    IsChangepoints stop (candidate signal beta stop row start).changes ∧
      (candidate signal beta stop row start).score =
        penalised signal beta stop (candidate signal beta stop row start).changes := by
  unfold candidate
  dsimp only
  rw [cost_eq signal hstart.le hstop]
  rcases Nat.eq_zero_or_pos start with rfl | hpos
  · rw [hrow.zero rfl, if_pos rfl, append_nil, penalised_nil]
    refine ⟨⟨Pairwise.nil, by simp⟩, ?_⟩
    ring
  · rw [if_neg hpos.ne', isChangepoints_append, penalised_append, ← hrow.attained hpos]
    exact ⟨⟨hrow.changepoints hpos, hpos, hstart⟩, rfl⟩

/-- Every segmentation is reached from the row of its last changepoint. -/
theorem candidate_le {stop start : Nat} (hstart : start < stop) (hstop : stop ≤ signal.length)
    {row : Row} (hrow : Best signal beta start row)
    (h : changes = [] ∧ start = 0 ∨ ∃ earlier, changes = earlier ++ [start] ∧
      IsChangepoints start earlier ∧ 0 < start) :
    (candidate signal beta stop row start).score ≤ penalised signal beta stop changes := by
  unfold candidate
  dsimp only
  rw [cost_eq signal hstart.le hstop]
  rcases h with ⟨rfl, rfl⟩ | ⟨earlier, rfl, hearlier, hpos⟩
  · rw [hrow.zero rfl, penalised_nil]
    exact le_of_eq (by ring)
  · rw [penalised_append]
    have hleast := hrow.least hpos earlier hearlier
    linarith

/-- The rows of the ends up to `n`. -/
def Rows (signal : List Rat) (beta : Rat) (n : Nat) (rows : List Row) : Prop :=
  rows.length = n + 1 ∧ ∀ k row, rows[k]? = some row → Best signal beta k row

/-- **One row more.** -/
theorem nextRow_spec {n : Nat} {rows : List Row} (hrows : Rows signal beta n rows)
    (hn : n + 1 ≤ signal.length) :
    ∃ row, nextRow signal beta rows = .ok row ∧ Best signal beta (n + 1) row := by
  obtain ⟨hlen, hbest⟩ := hrows
  let candidates := rows.mapIdx fun start row => candidate signal beta rows.length row start
  have hget : ∀ {c : Candidate}, c ∈ candidates → ∃ start row, rows[start]? = some row ∧
      start < n + 1 ∧ c = candidate signal beta (n + 1) row start := by
    intro c hc
    obtain ⟨start, hlt, rfl⟩ := mem_mapIdx.mp hc
    exact ⟨start, rows[start], getElem?_eq_getElem hlt, hlen ▸ hlt, by rw [hlen]⟩
  have hmem : ∀ {start : Nat}, start < n + 1 → ∃ row, rows[start]? = some row ∧
      candidate signal beta (n + 1) row start ∈ candidates := by
    intro start hlt
    have hlt' : start < rows.length := hlen ▸ hlt
    refine ⟨rows[start], getElem?_eq_getElem hlt', mem_mapIdx.mpr ⟨start, hlt', ?_⟩⟩
    rw [hlen]
  obtain ⟨first, hfst, hfirstMem⟩ := hmem (Nat.succ_pos n)
  obtain ⟨least, hleast⟩ :
      Returns (minBy (fun c : Candidate => toLex (c.score, toLex (c.changes, c.start)))
        candidates) :=
    returns_minBy (ne_nil_of_mem hfirstMem)
  have hle : ∀ c ∈ candidates, least.score ≤ c.score := by
    intro c hc
    have hkey := key_le_of_minBy hleast c hc
    rcases Prod.Lex.toLex_le_toLex.mp hkey with hlt | ⟨heq, -⟩
    · exact hlt.le
    · exact heq.le
  obtain ⟨start, row, hrow, hstart, hchosen⟩ := hget (mem_of_minBy hleast)
  obtain ⟨hchgs, hscore⟩ := candidate_spec hstart hn (hbest start row hrow)
  refine ⟨⟨least.score, least.changes⟩, bind_intro (mapError_ok.mpr hleast) rfl, ?_⟩
  refine ⟨fun hzero => absurd hzero (Nat.succ_ne_zero n), fun _ => hchosen ▸ hchgs,
    fun _ => hchosen ▸ hscore, fun _ changes hvalid => ?_⟩
  dsimp only
  rcases eq_nil_or_append hvalid with rfl | ⟨earlier, last, rfl, hearlier, hpos, hlt⟩
  · exact (hle _ hfirstMem).trans
      (candidate_le (Nat.succ_pos n) hn (hbest 0 first hfst) (.inl ⟨rfl, rfl⟩))
  · obtain ⟨lastRow, hlastRow, hlastMem⟩ := hmem hlt
    exact (hle _ hlastMem).trans
      (candidate_le hlt hn (hbest last lastRow hlastRow) (.inr ⟨earlier, rfl, hearlier, hpos⟩))

theorem rows_table {n : Nat} (hn : n ≤ signal.length) :
    ∃ rows, table signal beta n = .ok rows ∧ Rows signal beta n rows := by
  induction n with
  | zero =>
    refine ⟨[⟨-beta, []⟩], rfl, rfl, fun k row hrow => ?_⟩
    cases k with
    | zero =>
      cases hrow
      exact ⟨fun _ => rfl, fun h => absurd h (lt_irrefl 0), fun h => absurd h (lt_irrefl 0),
        fun h => absurd h (lt_irrefl 0)⟩
    | succ k => cases hrow
  | succ n ih =>
    obtain ⟨rows, htable, hrows⟩ := ih (Nat.le_of_succ_le hn)
    obtain ⟨row, hnext, hbest⟩ := nextRow_spec hrows hn
    refine ⟨rows ++ [row], bind_ok.mpr ⟨rows, htable, bind_ok.mpr ⟨row, hnext, rfl⟩⟩,
      by simp [hrows.1], fun k found hfound => ?_⟩
    by_cases hk : k < rows.length
    · rw [List.getElem?_append_left hk] at hfound
      exact hrows.2 k found hfound
    · rw [List.getElem?_append_right (not_lt.mp hk)] at hfound
      obtain ⟨hzero, rfl⟩ := List.getElem?_eq_some_iff.mp hfound
      obtain rfl : k = n + 1 := by
        rw [hrows.1] at hk hzero
        simp only [length_singleton] at hzero
        omega
      simpa [hrows.1] using hbest

/-! ## Tiling -/

/-- The segments between changepoints follow each other without a gap. -/
theorem flatMap_segmentsOf {n : Nat} (h : IsChangepoints n changes) :
    ((segmentsOf n changes).flatMap fun s => List.range' s.1 (s.2 - s.1)) = List.range n := by
  induction changes using reverseRecOn generalizing n with
  | nil => simp [segmentsOf, range_eq_range']
  | append_singleton changes start ih =>
    obtain ⟨hchgs, hpos, hlt⟩ := isChangepoints_append.mp h
    rw [segmentsOf_append, flatMap_append, ih hchgs, flatMap_singleton,
      range_eq_range', range_eq_range']
    have hjoin : List.range' 0 start ++ List.range' start (n - start) =
        List.range' 0 (start + (n - start)) := by
      have hrange := @List.range'_append 0 start (n - start) 1
      rwa [one_mul, Nat.zero_add] at hrange
    rw [hjoin, Nat.add_sub_cancel' hlt.le]

end Pelt

open Pelt in
/-- **The reference is optimal**: it returns changepoints inside the signal, segments that tile it,
and the least penalised squared error of all segmentations. -/
theorem peltReference_optimal {signal : List Rat} {beta : Rat} (hsignal : signal ≠ [])
    (hbeta : 0 ≤ beta) :
    ∃ found, peltReference signal beta = .ok found ∧
      IsChangepoints signal.length found.changepoints ∧
      found.segments = segmentsOf signal.length found.changepoints ∧
      (found.segments.flatMap fun s => List.range' s.1 (s.2 - s.1)) = List.range signal.length ∧
      found.objective = penalised signal beta signal.length found.changepoints ∧
      ∀ changes, IsChangepoints signal.length changes →
        found.objective ≤ penalised signal beta signal.length changes := by
  obtain ⟨rows, htable, hlen, hbest⟩ := @rows_table signal beta signal.length (le_refl signal.length)
  have hpos : 0 < signal.length := length_pos_iff.mpr hsignal
  have hlast : signal.length < rows.length := by omega
  have hrow := hbest signal.length rows[signal.length] (List.getElem?_eq_getElem hlast)
  have hget : rows.getD signal.length ⟨0, []⟩ = rows[signal.length] :=
    getD_eq_getElem _ _ hlast
  refine ⟨⟨rows[signal.length].path, segmentsOf signal.length rows[signal.length].path,
    rows[signal.length].best⟩, ?_, hrow.changepoints hpos, rfl,
    flatMap_segmentsOf (hrow.changepoints hpos), hrow.attained hpos, hrow.least hpos⟩
  unfold peltReference
  refine bind_ok.mpr ⟨(), check_ok.mpr hsignal, bind_ok.mpr ⟨(), check_ok.mpr hbeta,
    bind_ok.mpr ⟨rows, htable, ?_⟩⟩⟩
  rw [hget]
  rfl

open Pelt in
theorem peltReference_optimal_step : ∃ found, peltReference [0, 0, 4] 1 = .ok found ∧
      IsChangepoints 3 found.changepoints ∧
      found.segments = segmentsOf 3 found.changepoints ∧
      (found.segments.flatMap fun s => List.range' s.1 (s.2 - s.1)) = List.range 3 ∧
      found.objective = penalised [0, 0, 4] 1 3 found.changepoints ∧
      ∀ changes, IsChangepoints 3 changes → found.objective ≤ penalised [0, 0, 4] 1 3 changes :=
  peltReference_optimal (by decide) (by decide)

end OvcReplay.Srfd
