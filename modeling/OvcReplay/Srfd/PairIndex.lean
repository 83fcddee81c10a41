import OvcReplay.Python.Fallible
import OvcReplay.Python.Sorted
import OvcReplay.Python.Text

/-! # The index of pairs

`pair_index.py`: the pairs of `n` objects have the indices below `n (n - 1) / 2`, row by row. The
row of an index is found by a binary search over the starts of the rows, and what it finds is the
enumeration of all pairs in lexicographic order. -/

namespace OvcReplay.Srfd.PairIndex

open List Python

/-- `PairIndexError`. -/
structure PairIndexError where
  reasonCode : PyStr
  detail : PyStr
  deriving DecidableEq, Repr

/-- `exact_pair_count`. -/
def exactPairCount (n : Nat) : Nat := n * (n - 1) / 2

/-- `row_start`, for a row that there is. -/
def rowStart (i n : Nat) : Nat := if i = n then exactPairCount n else i * (2 * n - i - 1) / 2

/-- `pair_to_index`. -/
def pairToIndex (i j n : Nat) : Except PairIndexError Nat := do
  check (i < j ∧ j < n) ⟨py "G8R_PAIR_INVALID_INDEX", py "require 0 <= i < j < n, got i=" ++
    natText i ++ py ", j=" ++ natText j ++ py ", n=" ++ natText n⟩
  return rowStart i n + (j - i - 1)

/-- The binary search of `index_to_pair`; `fuel` bounds its steps. -/
def searchRow (k n : Nat) : (fuel low high : Nat) → Nat
  | 0, low, _ => low
  | fuel + 1, low, high =>
    if low < high then
      let mid := (low + high + 1) / 2
      if rowStart mid n ≤ k then searchRow k n fuel mid high
      else searchRow k n fuel low (mid - 1)
    else low

/-- `index_to_pair`. -/
def indexToPair (k n : Nat) : Except PairIndexError (Nat × Nat) := do
  check (k < exactPairCount n) ⟨py "G8R_PAIR_INVALID_INDEX", py "pair index " ++ natText k ++
    py " outside [0," ++ natText (exactPairCount n) ++ py ")"⟩
  let i := searchRow k n n 0 (n - 1)
  let j := i + 1 + (k - rowStart i n)
  check (i < j ∧ j < n) ⟨py "G8R_PAIR_BIJECTION_FAILURE",
    py "reconstructed invalid pair for k=" ++ natText k ++ py ", n=" ++ natText n⟩
  return (i, j)

/-- `PairRange`. -/
structure PairRange where
  start : Nat
  stop : Nat
  deriving DecidableEq, Repr

/-- `PairRange.validate`. -/
def PairRange.validate (r : PairRange) (total : Nat) : Except PairIndexError Unit :=
  check (r.start ≤ r.stop ∧ r.stop ≤ total) ⟨py "G8R_PAIR_INVALID_RANGE", py "invalid [" ++
    natText r.start ++ py "," ++ natText r.stop ++ py ") for " ++ natText total⟩

/-- `pair_ranges`; the starts are those below the total. -/
def pairRanges (n tile : Nat) : Except PairIndexError (List PairRange) := do
  check (1 ≤ tile) ⟨py "G8R_PAIR_INVALID_TILE_SIZE", py "tile_pair_count must be positive"⟩
  let total := exactPairCount n
  return (List.range ((total + tile - 1) / tile)).map fun m =>
    ⟨m * tile, min total (m * tile + tile)⟩

/-- `iter_pairs`, without the indices that its callers pass over. -/
def iterPairs (n : Nat) (range : Option PairRange) : Except PairIndexError (List (Nat × Nat)) := do
  let active := range.getD ⟨0, exactPairCount n⟩
  active.validate (exactPairCount n)
  (List.range' active.start (active.stop - active.start)).mapM fun k => indexToPair k n

/-- `iter_pairs` with the indices. -/
def iterIndexedPairs (n : Nat) (range : Option PairRange) :
    Except PairIndexError (List (Nat × Nat × Nat)) := do
  let active := range.getD ⟨0, exactPairCount n⟩
  active.validate (exactPairCount n)
  (List.range' active.start (active.stop - active.start)).mapM fun k =>
    return (k, ← indexToPair k n)

/-! ## Rows -/

theorem rowStart_zero (n : Nat) : rowStart 0 n = 0 := by
  unfold rowStart exactPairCount
  split_ifs with h
  · rw [← h]
  · rw [Nat.zero_mul]

variable {n i j k : Nat}

theorem two_mul_rowStart (h : i ≤ n) : 2 * rowStart i n = i * (2 * n - i - 1) := by
  have heven : 2 ∣ i * (2 * n - i - 1) := by
    rcases Nat.even_or_odd i with heven | hodd
    · exact Dvd.dvd.mul_right heven.two_dvd _
    · refine Dvd.dvd.mul_left ?_ i
      obtain ⟨m, rfl⟩ := hodd
      exact ⟨n - m - 1, by omega⟩
  unfold rowStart exactPairCount
  split_ifs with heq
  · subst heq
    have hsub : 2 * i - i - 1 = i - 1 := by omega
    rw [hsub] at heven ⊢
    exact Nat.mul_div_cancel' heven
  · exact Nat.mul_div_cancel' heven

/-- The row of `i` has the pairs with the larger objects. -/
theorem rowStart_succ (h : i < n) : rowStart (i + 1) n = rowStart i n + (n - 1 - i) := by
  have hi := two_mul_rowStart h.le
  have hsucc := two_mul_rowStart (Nat.succ_le_of_lt h)
  obtain ⟨m, rfl⟩ := Nat.exists_eq_add_of_lt h
  have h1 : 2 * (i + m + 1) - i - 1 = i + 2 * m + 1 := by omega
  have h2 : 2 * (i + m + 1) - i.succ - 1 = i + 2 * m := by omega
  rw [h1] at hi
  rw [h2] at hsucc
  have hm : i + m + 1 - 1 - i = m := by omega
  rw [hm]
  have hexpand : i.succ * (i + 2 * m) = i * (i + 2 * m + 1) + 2 * m := by
    rw [Nat.succ_mul]
    ring
  rw [hexpand] at hsucc
  show rowStart i.succ (i + m + 1) = _
  omega

theorem rowStart_mono (hij : i ≤ j) (hj : j ≤ n) : rowStart i n ≤ rowStart j n := by
  induction j, hij using Nat.le_induction with
  | base => exact le_refl _
  | succ j hle ih =>
    rw [rowStart_succ hj]
    exact (ih (by omega)).trans (Nat.le_add_right _ _)

/-- The loop of `index_to_pair` between `low` and `high` ends with `row`. -/
inductive Ends (k n : Nat) : (low high row : Nat) → Prop
  | done {low high : Nat} (h : ¬ low < high) : Ends k n low high low
  | up {low high row : Nat} (h : low < high) (hmid : rowStart ((low + high + 1) / 2) n ≤ k)
      (hrest : Ends k n ((low + high + 1) / 2) high row) : Ends k n low high row
  | down {low high row : Nat} (h : low < high) (hmid : ¬ rowStart ((low + high + 1) / 2) n ≤ k)
      (hrest : Ends k n low ((low + high + 1) / 2 - 1) row) : Ends k n low high row

/-- **The search ends with the row of an index.** -/
theorem ends_of_row (hi : i < n) (hle : rowStart i n ≤ k)
    (hlt : k < rowStart (i + 1) n) (fuel low high : Nat) (hlow : low ≤ i) (hhigh : i ≤ high)
    (hn : high < n) (hfuel : high - low ≤ fuel) : Ends k n low high i := by
  induction fuel generalizing low high with
  | zero =>
    obtain rfl : low = i := by omega
    exact .done (by omega)
  | succ fuel ih =>
    by_cases h : low < high
    · by_cases hmid : rowStart ((low + high + 1) / 2) n ≤ k
      · refine .up h hmid (ih _ _ ?_ hhigh hn (by omega))
        by_contra hover
        have hmono : rowStart (i + 1) n ≤ rowStart ((low + high + 1) / 2) n :=
          rowStart_mono (by omega) (by omega)
        omega
      · refine .down h hmid (ih _ _ hlow ?_ (by omega) (by omega))
        by_contra hover
        exact hmid ((rowStart_mono (by omega) hi.le).trans hle)
    · obtain rfl : low = i := by omega
      exact .done h

/-- Where the loop ends, the fuel does not matter. -/
theorem searchRow_of_ends {low high row : Nat} (h : Ends k n low high row) (fuel : Nat)
    (hfuel : high - low ≤ fuel) : searchRow k n fuel low high = row := by
  induction h generalizing fuel with
  | done h =>
    cases fuel with
    | zero => rfl
    | succ fuel => exact if_neg h
  | up h hmid _ ih =>
    obtain ⟨fuel, rfl⟩ := Nat.exists_eq_succ_of_ne_zero (show fuel ≠ 0 by omega)
    rw [searchRow, if_pos h]
    exact (if_pos hmid).trans (ih fuel (by omega))
  | down h hmid _ ih =>
    obtain ⟨fuel, rfl⟩ := Nat.exists_eq_succ_of_ne_zero (show fuel ≠ 0 by omega)
    rw [searchRow, if_pos h]
    exact (if_neg hmid).trans (ih fuel (by omega))

/-- The search finds the row of an index. -/
theorem searchRow_eq (hi : i < n) (hle : rowStart i n ≤ k)
    (hlt : k < rowStart (i + 1) n) (fuel low high : Nat) (hlow : low ≤ i) (hhigh : i ≤ high)
    (hn : high < n) (hfuel : high - low ≤ fuel) : searchRow k n fuel low high = i :=
  searchRow_of_ends (ends_of_row hi hle hlt fuel low high hlow hhigh hn hfuel) fuel hfuel

/-- **The pair of an index** in the row of `i`. -/
theorem indexToPair_eq {d : Nat} (h : i + 1 + d < n) :
    indexToPair (rowStart i n + d) n = .ok (i, i + 1 + d) := by
  have hsucc := rowStart_succ (show i < n by omega)
  have htotal : rowStart (i + 1) n ≤ rowStart n n := rowStart_mono (by omega) (le_refl n)
  have hcount : rowStart n n = exactPairCount n := if_pos rfl
  have hrow : searchRow (rowStart i n + d) n n 0 (n - 1) = i :=
    searchRow_eq (by omega) (Nat.le_add_right _ _) (by omega) n 0 (n - 1) (by omega) (by omega)
      (by omega) (by omega)
  unfold indexToPair
  rw [check, if_pos (by omega)]
  dsimp only
  rw [hrow, check, if_pos (by omega), Nat.add_sub_cancel_left]
  rfl

/-! ## The enumeration -/

/-- **The pairs of `n` objects**, row by row. -/
def pairs (n : Nat) : List (Nat × Nat) :=
  (List.range n).flatMap fun i => (List.range (n - 1 - i)).map fun d => (i, i + 1 + d)

theorem mem_pairs : (i, j) ∈ pairs n ↔ i < j ∧ j < n := by
  simp only [pairs, mem_flatMap, mem_range, mem_map, Prod.mk.injEq]
  constructor
  · rintro ⟨i, hi, d, hd, rfl, rfl⟩
    omega
  · intro h
    exact ⟨i, by omega, j - 1 - i, by omega, rfl, by omega⟩

/-- **`iter_pairs` enumerates all pairs**, in their order. -/
theorem mapM_indexToPair (n : Nat) :
    ((List.range (exactPairCount n)).mapM fun k => indexToPair k n) = .ok (pairs n) := by
  have hrows : ∀ m, m ≤ n → ((List.range (rowStart m n)).mapM fun k => indexToPair k n) =
      .ok ((List.range m).flatMap fun i =>
        (List.range (n - 1 - i)).map fun d => (i, i + 1 + d)) := by
    intro m
    induction m with
    | zero =>
      intro _
      rw [rowStart_zero]
      rfl
    | succ m ih =>
      intro hm
      have hrow : ((List.range (n - 1 - m)).map (rowStart m n + ·)).mapM
          (fun k => indexToPair k n) =
            .ok ((List.range (n - 1 - m)).map fun d => (m, m + 1 + d)) := by
        rw [mapM_map, mapM_ok_iff, forall₂_map_right_iff, forall₂_same]
        intro d hd
        exact indexToPair_eq (by have := mem_range.mp hd; omega)
      rw [rowStart_succ hm, range_add, range_succ, flatMap_append,
        flatMap_singleton]
      exact mapM_append_ok (ih (by omega)) hrow
  have hcount : rowStart n n = exactPairCount n := if_pos rfl
  rw [← hcount]
  exact hrows n (le_refl n)

theorem iterPairs_none (n : Nat) : iterPairs n none = .ok (pairs n) := by
  refine bind_ok.mpr ⟨(), check_ok.mpr ⟨Nat.zero_le _, le_refl _⟩, ?_⟩
  show (List.range' 0 (exactPairCount n - 0)).mapM _ = _
  rw [Nat.sub_zero, ← range_eq_range']
  exact mapM_indexToPair n

theorem length_pairs (n : Nat) : (pairs n).length = exactPairCount n := by
  rw [← (mapM_ok_iff.mp (mapM_indexToPair n)).length_eq, length_range]

/-! ## Ranges and tiles -/

/-- A range of a list has the results at its indices. -/
theorem mapM_slice {ε α β : Type} {f : α → Except ε β} {xs : List α} {ys : List β}
    (h : xs.mapM f = .ok ys) (start count : Nat) :
    ((xs.drop start).take count).mapM f = .ok ((ys.drop start).take count) := by
  rw [mapM_ok_iff] at h ⊢
  exact forall₂_take count (forall₂_drop start h)

/-- A range of the enumeration. -/
theorem iterPairs_some {range : PairRange} (hstart : range.start ≤ range.stop)
    (hstop : range.stop ≤ exactPairCount n) : iterPairs n (some range) =
      .ok (((pairs n).drop range.start).take (range.stop - range.start)) := by
  have hslice : List.range' range.start (range.stop - range.start) =
      ((List.range (exactPairCount n)).drop range.start).take (range.stop - range.start) := by
    rw [range_eq_range', drop_range', take_range'_of_length_ge (by omega),
      Nat.zero_add, Nat.mul_one]
  refine bind_ok.mpr ⟨(), check_ok.mpr ⟨hstart, hstop⟩, ?_⟩
  show (List.range' range.start (range.stop - range.start)).mapM _ = _
  rw [hslice]
  exact mapM_slice (mapM_indexToPair n) _ _

/-- Consecutive pieces of one size are what stands before their end. -/
theorem flatMap_slices {α : Type} (xs : List α) (size count : Nat) :
    ((List.range count).flatMap fun m => (xs.drop (m * size)).take size) =
      xs.take (count * size) := by
  induction count with
  | zero => simp
  | succ count ih =>
    rw [range_succ, flatMap_append, ih, flatMap_singleton, Nat.succ_mul,
      take_add]

/-- **The tiles cover the enumeration**, in their order and each index once. -/
theorem exists_pairRanges (n : Nat) {tile : Nat} (htile : 1 ≤ tile) :
    ∃ ranges, pairRanges n tile = .ok ranges ∧
      (∀ range ∈ ranges, range.start ≤ range.stop ∧ range.stop ≤ exactPairCount n) ∧
      (ranges.Pairwise fun a b => a.start ≤ b.start) ∧
      ∀ {α : Type} (docs : List α), docs.length = exactPairCount n →
        (ranges.flatMap fun range => (docs.drop range.start).take (range.stop - range.start)) =
          docs := by
  have hbelow : ∀ m ∈ List.range ((exactPairCount n + tile - 1) / tile),
      m * tile < exactPairCount n := by
    intro m hm
    have hle := (Nat.le_div_iff_mul_le htile).mp (mem_range.mp hm)
    rw [Nat.succ_mul] at hle
    omega
  refine ⟨_, bind_ok.mpr ⟨(), check_ok.mpr htile, rfl⟩, ?_, ?_, ?_⟩
  · intro range hrange
    obtain ⟨m, hm, rfl⟩ := mem_map.mp hrange
    have hlt := hbelow m hm
    exact ⟨by dsimp only; omega, Nat.min_le_left _ _⟩
  · rw [pairwise_map]
    exact pairwise_lt_range.imp fun h => Nat.mul_le_mul_right tile h.le
  · intro α docs hlen
    have hpiece : ∀ m ∈ List.range ((exactPairCount n + tile - 1) / tile),
        (docs.drop (m * tile)).take
            (min (exactPairCount n) (m * tile + tile) - m * tile) =
          (docs.drop (m * tile)).take tile := by
      intro m hm
      have hlt := hbelow m hm
      rw [take_eq_take_iff, length_drop, hlen]
      omega
    rw [flatMap_map, flatMap_congr hpiece, flatMap_slices]
    refine take_of_length_le ?_
    have hmod := Nat.mod_lt (exactPairCount n + tile - 1) htile
    have hdiv := Nat.div_add_mod (exactPairCount n + tile - 1) tile
    rw [Nat.mul_comm] at hdiv
    omega

/-! ## The bijection -/

/-- The index of a pair. -/
def indexOf (i j n : Nat) : Nat := rowStart i n + (j - i - 1)

theorem indexOf_lt_rowStart (hij : i < j) (hj : j < n) : indexOf i j n < rowStart (i + 1) n := by
  have hsucc := rowStart_succ (hij.trans hj)
  unfold indexOf
  omega

theorem indexOf_lt (hij : i < j) (hj : j < n) : indexOf i j n < exactPairCount n := by
  have hcount : rowStart n n = exactPairCount n := if_pos rfl
  rw [← hcount]
  exact (indexOf_lt_rowStart hij hj).trans_le (rowStart_mono (by omega) (le_refl n))

theorem indexToPair_indexOf (hij : i < j) (hj : j < n) :
    indexToPair (indexOf i j n) n = .ok (i, j) := by
  obtain ⟨d, rfl⟩ := Nat.exists_eq_add_of_lt hij
  have hd : i + d + 1 - i - 1 = d := by omega
  have hpair : i + d + 1 = i + 1 + d := by omega
  rw [indexOf, hd, indexToPair_eq (by omega), hpair]

/-- An index is in one row. -/
theorem exists_row {m : Nat} (hm : m ≤ n) (h : k < rowStart m n) :
    ∃ i < m, rowStart i n ≤ k ∧ k < rowStart (i + 1) n := by
  induction m with
  | zero =>
    rw [rowStart_zero] at h
    exact absurd h (Nat.not_lt_zero k)
  | succ m ih =>
    by_cases hk : k < rowStart m n
    · obtain ⟨i, hi, hrow⟩ := ih (by omega) hk
      exact ⟨i, hi.trans (Nat.lt_succ_self m), hrow⟩
    · exact ⟨m, Nat.lt_succ_self m, not_lt.mp hk, h⟩

/-- Every index is that of a pair. -/
theorem exists_indexOf (h : k < exactPairCount n) : ∃ i j, i < j ∧ j < n ∧ indexOf i j n = k := by
  have hcount : rowStart n n = exactPairCount n := if_pos rfl
  obtain ⟨i, hi, hle, hlt⟩ := exists_row (le_refl n) (hcount ▸ h)
  rw [rowStart_succ hi] at hlt
  refine ⟨i, i + 1 + (k - rowStart i n), by omega, by omega, ?_⟩
  unfold indexOf
  omega

/-- **The indices are in the lexicographic order of the pairs.** -/
theorem indexOf_lt_iff {i' j' : Nat} (hij : i < j) (hj : j < n) (hij' : i' < j')
    (hj' : j' < n) : indexOf i j n < indexOf i' j' n ↔ toLex (i, j) < toLex (i', j') := by
  have hrow : ∀ {a b c d : Nat}, a < b → b < n → c < d → d < n → a < c →
      indexOf a b n < indexOf c d n := by
    intro a b c d hab hb hcd hd hac
    have hmono : rowStart (a + 1) n ≤ rowStart c n := rowStart_mono hac (by omega)
    exact ((indexOf_lt_rowStart hab hb).trans_le hmono).trans_le (Nat.le_add_right _ _)
  rw [Prod.Lex.toLex_lt_toLex]
  rcases lt_trichotomy i i' with hlt | rfl | hgt
  · exact iff_of_true (hrow hij hj hij' hj' hlt) (.inl hlt)
  · simp only [indexOf, lt_self_iff_false, true_and, false_or]
    omega
  · have hback := hrow hij' hj' hij hj hgt
    refine iff_of_false hback.not_gt ?_
    rintro (hlt | ⟨rfl, -⟩)
    · exact absurd hlt hgt.not_gt
    · exact absurd hgt (lt_irrefl _)

/-! ## Consecutive ranges -/

/-- The ranges are not empty, and each starts where the one before it stops. -/
def Consecutive : (start : Nat) → List PairRange → (stop : Nat) → Prop
  | start, [], stop => start = stop
  | start, range :: ranges, stop =>
    range.start = start ∧ range.start < range.stop ∧ Consecutive range.stop ranges stop

/-- The tiles from the one of number `m` on. -/
theorem consecutive_tiles {total tile : Nat} (htile : 1 ≤ tile) (count m : Nat)
    (hstop : total ≤ (m + count) * tile)
    (hstart : ∀ i < count, (m + i) * tile < total) :
    Consecutive (min total (m * tile))
      ((List.range' m count).map fun i => ⟨i * tile, min total (i * tile + tile)⟩) total := by
  induction count generalizing m with
  | zero => exact Nat.min_eq_left hstop
  | succ count ih =>
    have hlt : m * tile < total := hstart 0 (Nat.succ_pos count)
    have hsucc : m * tile + tile = (m + 1) * tile := (Nat.succ_mul m tile).symm
    refine ⟨(Nat.min_eq_right hlt.le).symm, lt_min hlt (Nat.lt_add_of_pos_right htile), ?_⟩
    show Consecutive (min total (m * tile + tile)) _ total
    rw [hsucc]
    refine ih (m + 1) ?_ fun i hi => ?_
    · rwa [Nat.add_right_comm, Nat.add_assoc]
    · have h := hstart (i + 1) (Nat.succ_lt_succ hi)
      rwa [Nat.add_right_comm, Nat.add_assoc]

theorem consecutive_pairRanges {n tile : Nat} (htile : 1 ≤ tile) :
    ∃ ranges, pairRanges n tile = .ok ranges ∧ Consecutive 0 ranges (exactPairCount n) := by
  refine ⟨_, bind_ok.mpr ⟨(), check_ok.mpr htile, rfl⟩, ?_⟩
  have hmod := Nat.mod_lt (exactPairCount n + tile - 1) htile
  have hdiv := Nat.div_add_mod (exactPairCount n + tile - 1) tile
  rw [Nat.mul_comm] at hdiv
  have htiles := @consecutive_tiles (exactPairCount n) _ htile
    ((exactPairCount n + tile - 1) / tile) 0
  rw [Nat.zero_mul, Nat.min_zero, ← range_eq_range'] at htiles
  refine htiles (by rw [Nat.zero_add]; omega) fun i hi => ?_
  rw [Nat.zero_add]
  have hle := (Nat.le_div_iff_mul_le htile).mp hi
  rw [Nat.succ_mul] at hle
  omega

/-- The pair of an index, with the index. -/
def entry (n k : Nat) : Nat × Nat × Nat := (k, (indexToPair k n).toOption.getD (0, 0))

theorem Consecutive.le {start stop : Nat} {ranges : List PairRange}
    (h : Consecutive start ranges stop) : start ≤ stop := by
  induction ranges generalizing start with
  | nil => exact Nat.le_of_eq h
  | cons range ranges ih => exact h.1 ▸ h.2.1.le.trans (ih h.2.2)

theorem iterIndexedPairs_some {range : PairRange} (hstart : range.start ≤ range.stop)
    (hstop : range.stop ≤ exactPairCount n) : iterIndexedPairs n (some range) =
      .ok ((List.range' range.start (range.stop - range.start)).map (entry n)) := by
  refine bind_ok.mpr ⟨(), check_ok.mpr ⟨hstart, hstop⟩, mapM_ok_iff.mpr ?_⟩
  refine forall₂_map_right_iff.mpr (forall₂_same.mpr fun k hk => ?_)
  have hk : k < exactPairCount n := by
    have := (mem_range'_1.mp hk).2
    simp only [Option.getD_some] at this
    omega
  obtain ⟨i, j, hij, hj, rfl⟩ := exists_indexOf hk
  rw [entry, indexToPair_indexOf hij hj]
  rfl

/-- **The ranges enumerate what lies between their ends.** -/
theorem iterIndexedPairs_consecutive {start stop : Nat} {ranges : List PairRange}
    (h : Consecutive start ranges stop) (hstop : stop ≤ exactPairCount n) :
    ∃ parts, ranges.mapM (fun range => iterIndexedPairs n (some range)) = .ok parts ∧
      parts.flatten = (List.range' start (stop - start)).map (entry n) := by
  induction ranges generalizing start with
  | nil =>
    obtain rfl : start = stop := h
    exact ⟨[], rfl, by rw [Nat.sub_self]; rfl⟩
  | cons range ranges ih =>
    obtain ⟨rfl, hlt, hrest⟩ := h
    have hle := hrest.le
    obtain ⟨parts, hparts, hflatten⟩ := ih hrest
    refine ⟨_ :: parts, mapM_cons_ok.mpr ⟨_, _, iterIndexedPairs_some hlt.le (hle.trans hstop),
      hparts, rfl⟩, ?_⟩
    have hsplit : stop - range.start = (range.stop - range.start) + (stop - range.stop) := by omega
    rw [flatten_cons, hflatten, ← map_append, hsplit]
    congr 1
    have happ := @range'_append_1 range.start (range.stop - range.start) (stop - range.stop)
    rwa [Nat.add_sub_cancel' hlt.le] at happ

/-- **The pair index**: the two functions are inverse to each other on the pairs of `n` objects and
the indices below their number, in the lexicographic order; the search ends, and never without the
pair of its index; and the tiles are consecutive, not empty and enumerate together what one
enumeration does. -/
theorem pair_index_exact (n : Nat) :
    (∀ i j, i < j → j < n → ∃ k < n * (n - 1) / 2,
      pairToIndex i j n = .ok k ∧ indexToPair k n = .ok (i, j)) ∧
    (∀ k < n * (n - 1) / 2, ∃ i j, i < j ∧ j < n ∧
      indexToPair k n = .ok (i, j) ∧ pairToIndex i j n = .ok k ∧ Ends k n 0 (n - 1) i) ∧
    (∀ i j i' j' k k', pairToIndex i j n = .ok k → pairToIndex i' j' n = .ok k' →
      (k < k' ↔ toLex (i, j) < toLex (i', j'))) ∧
    ∀ tile, 1 ≤ tile → ∃ ranges parts, pairRanges n tile = .ok ranges ∧
      Consecutive 0 ranges (n * (n - 1) / 2) ∧
      ranges.mapM (fun range => iterIndexedPairs n (some range)) = .ok parts ∧
      iterIndexedPairs n none = .ok parts.flatten := by
  have hto : ∀ {i j k}, pairToIndex i j n = .ok k ↔ (i < j ∧ j < n) ∧ indexOf i j n = k := by
    intro i j k
    simp only [pairToIndex, bind_ok, check_ok, pure_ok, exists_const, indexOf]
  refine ⟨fun i j hij hj => ?_, fun k hk => ?_, fun i j i' j' k k' h h' => ?_,
    fun tile htile => ?_⟩
  · exact ⟨indexOf i j n, indexOf_lt hij hj, hto.mpr ⟨⟨hij, hj⟩, rfl⟩, indexToPair_indexOf hij hj⟩
  · obtain ⟨i, j, hij, hj, rfl⟩ := exists_indexOf hk
    refine ⟨i, j, hij, hj, indexToPair_indexOf hij hj, hto.mpr ⟨⟨hij, hj⟩, rfl⟩, ?_⟩
    exact ends_of_row (by omega) (Nat.le_add_right _ _) (indexOf_lt_rowStart hij hj) n _ _
      (Nat.zero_le i) (by omega) (by omega) (by omega)
  · obtain ⟨⟨hij, hj⟩, rfl⟩ := hto.mp h
    obtain ⟨⟨hij', hj'⟩, rfl⟩ := hto.mp h'
    exact indexOf_lt_iff hij hj hij' hj'
  · obtain ⟨ranges, hranges, hconsec⟩ := consecutive_pairRanges (n := n) htile
    obtain ⟨parts, hparts, hflatten⟩ := iterIndexedPairs_consecutive hconsec (le_refl _)
    refine ⟨ranges, parts, hranges, hconsec, hparts, ?_⟩
    rw [hflatten]
    exact @iterIndexedPairs_some n ⟨0, exactPairCount n⟩ (Nat.zero_le _) (le_refl _)

end OvcReplay.Srfd.PairIndex
