import OvcReplay.Python.Rounding
import OvcReplay.Srfd.MedoidStar

/-! # What a record covers

The distances of a matrix, where all of them are given, and the records within a radius of a
candidate: those that the reference scans for, those that the adjacency lists, and how many of them
are counted. -/

namespace OvcReplay.Srfd

open List Python OvcReplay.Lists

/-! ## Comprehensions and minima -/

theorem mapM_ok_map {ε α β : Type} {f : α → Except ε β} {g : α → β} {xs : List α}
    (h : ∀ x ∈ xs, f x = .ok (g x)) : xs.mapM f = .ok (xs.map g) := by
  rw [mapM_ok_iff]
  induction xs with
  | nil => exact .nil
  | cons x xs ih => exact .cons (h x (by simp)) (ih fun y hy => h y (mem_cons_of_mem _ hy))

/-- The minimum has the least key. -/
theorem key_le_of_minBy {α κ : Type} [LinearOrder κ] {key : α → κ} {xs : List α} {x : α}
    (h : minBy key xs = .ok x) : ∀ y ∈ xs, key x ≤ key y := by
  cases xs with
  | nil => cases h
  | cons z zs =>
    obtain rfl := Except.ok.inj h
    clear h
    induction zs generalizing z with
    | nil => simp
    | cons w ws ih =>
      rw [foldl_cons]
      intro y hy
      have hfound := ih (if key w < key z then w else z)
      have hboth : key (if key w < key z then w else z) ≤ key w ∧
          key (if key w < key z then w else z) ≤ key z := by
        split
        · rename_i hlt
          exact ⟨le_rfl, hlt.le⟩
        · rename_i hge
          exact ⟨not_lt.mp hge, le_rfl⟩
      rcases mem_cons.mp hy with rfl | hy
      · exact (hfound _ (by simp)).trans hboth.2
      · rcases mem_cons.mp hy with rfl | hy
        · exact (hfound _ (by simp)).trans hboth.1
        · exact hfound y (mem_cons_of_mem _ hy)

theorem returns_minBy {α κ : Type} [LinearOrder κ] {key : α → κ} {xs : List α} (h : xs ≠ []) :
    Returns (minBy key xs) := by
  cases xs with
  | nil => exact absurd rfl h
  | cons x xs => exact ⟨_, rfl⟩

/-- The only element with the least key is the minimum. -/
theorem minBy_ok {α κ : Type} [LinearOrder κ] {key : α → κ} {xs : List α} {x : α} (hx : x ∈ xs)
    (h : ∀ y ∈ xs, key y ≤ key x → y = x) : minBy key xs = .ok x := by
  obtain ⟨y, hy⟩ : Returns (minBy key xs) := returns_minBy (ne_nil_of_mem hx)
  rw [hy, h y (mem_of_minBy hy) (key_le_of_minBy hy x hx)]

/-! ## Default parameters -/

/-- The least support is accepted. -/
theorem two_le_two : (2 : Int) ≤ 2 := le_rfl

/-- The default number of iterations is accepted. -/
theorem one_le_twenty : (1 : Int) ≤ 20 := by decide

/-! ## Distances -/

variable {P : Platform} {matrix : DistanceMatrix} {radius : PyDecimal}

theorem pairKey_comm (left right : PyStr) : pairKey left right = pairKey right left := by
  rw [pairKey, pairKey]
  rcases lt_trichotomy left right with h | rfl | h
  · rw [if_neg h.asymm, if_pos h]
  · rfl
  · rw [if_pos h, if_neg h.asymm]

/-- `_dec` returns what is finite and not negative. -/
theorem amount_of_dec {text : PyStr} {d : PyDecimal} (h : dec P text = .ok d) : d.Amount := by
  rw [dec] at h
  split at h
  · cases h
  · split at h
    · cases h
    · rename_i negative c e _ hsign
      cases h
      intro hneg
      by_contra hc
      apply hsign
      have hpos : (0 : Rat) < c * 10 ^ e :=
        mul_pos (Nat.cast_pos.mpr (Nat.pos_of_ne_zero hc)) (zpow_pos (by norm_num) e)
      simp only [PyDecimal.rat, hneg, if_true]
      linarith
  · cases h

variable {left right : PyStr}

theorem amount_of_distance {d : PyDecimal} (h : matrix.distance P left right = .ok d) :
    d.Amount := by
  rw [DistanceMatrix.distance] at h
  split at h
  · exact Except.ok.inj h ▸ PyDecimal.amount_zero
  · split at h
    · cases h
    · exact amount_of_dec h

variable (P matrix) in
/-- The distance, where it is given. -/
def dist (left right : PyStr) : PyDecimal :=
  match matrix.distance P left right with
  | .ok d => d
  | .error _ => .finite false 0 0

variable (P matrix) in
/-- Every distance between records of the population is given. -/
def Complete : Prop :=
  ∀ left ∈ matrix.ids, ∀ right ∈ matrix.ids, Returns (matrix.distance P left right)

theorem Complete.distance_eq (h : Complete P matrix) (hleft : left ∈ matrix.ids)
    (hright : right ∈ matrix.ids) :
    matrix.distance P left right = .ok (dist P matrix left right) := by
  obtain ⟨d, hd⟩ := h left hleft right hright
  rw [dist, hd]

theorem amount_dist (left right : PyStr) : (dist P matrix left right).Amount := by
  rw [dist]
  split
  · exact amount_of_distance ‹_›
  · exact PyDecimal.amount_zero

theorem dist_self (item : PyStr) : dist P matrix item item = .finite false 0 0 := by
  rw [dist, DistanceMatrix.distance, if_pos rfl]

theorem dist_comm (left right : PyStr) : dist P matrix left right = dist P matrix right left := by
  by_cases h : left = right
  · rw [h]
  · rw [dist, dist, DistanceMatrix.distance, DistanceMatrix.distance, if_neg h, if_neg (Ne.symm h),
      pairKey_comm]
    cases matrix.values.get? (pairKey right left) with
    | none => rfl
    | some text => rfl

/-! ## Coverage -/

variable (P matrix radius) in
/-- The records within the radius of a candidate, with their distances. -/
def cover (items : List PyStr) (candidate : PyStr) : List (PyStr × PyDecimal) :=
  (items.map fun item => (item, dist P matrix candidate item)).filter fun p =>
    p.2.rat ≤ radius.rat

variable (P matrix radius) in
/-- The candidate covers the item. -/
def Covers (candidate item : PyStr) : Prop := (dist P matrix candidate item).rat ≤ radius.rat

instance (candidate item : PyStr) : Decidable (Covers P matrix radius candidate item) :=
  inferInstanceAs (Decidable (_ ≤ _))

theorem covers_comm {candidate item : PyStr} :
    Covers P matrix radius candidate item ↔ Covers P matrix radius item candidate := by
  rw [Covers, Covers, dist_comm]

theorem cover_eq (items : List PyStr) (candidate : PyStr) : cover P matrix radius items candidate =
      (items.filter fun item => Covers P matrix radius candidate item).map fun item =>
        (item, dist P matrix candidate item) := by
  rw [cover, filter_map]
  rfl

theorem map_fst_cover (items : List PyStr) (candidate : PyStr) :
    (cover P matrix radius items candidate).map Prod.fst =
      items.filter fun item => Covers P matrix radius candidate item := by
  rw [cover_eq, map_map]
  exact map_id' _

theorem mem_cover {items : List PyStr} {candidate : PyStr} {p : PyStr × PyDecimal} :
    p ∈ cover P matrix radius items candidate ↔
      p.1 ∈ items ∧ Covers P matrix radius candidate p.1 ∧ p.2 = dist P matrix candidate p.1 := by
  rw [cover_eq, mem_map]
  constructor
  · rintro ⟨item, hitem, rfl⟩
    rw [mem_filter, decide_eq_true_eq] at hitem
    exact ⟨hitem.1, hitem.2, rfl⟩
  · rintro ⟨hitem, hcovers, heq⟩
    exact ⟨p.1, mem_filter.mpr ⟨hitem, decide_eq_true hcovers⟩, Prod.ext rfl heq.symm⟩

/-- Fewer records, less coverage. -/
theorem cover_sublist {items items' : List PyStr} (h : items.Sublist items') (candidate : PyStr) :
    (cover P matrix radius items candidate).Sublist (cover P matrix radius items' candidate) :=
  (h.map _).filter _

/-- The scan of the reference finds what is covered. -/
theorem within_eq (hcompl : Complete P matrix) {items : List PyStr} {candidate : PyStr}
    (hitems : ∀ item ∈ items, item ∈ matrix.ids) (hcand : candidate ∈ matrix.ids) :
    within P matrix radius items candidate = .ok (cover P matrix radius items candidate) := by
  have hdists : (items.mapM fun item =>
      (matrix.distance P candidate item).map fun distance => (item, distance)) =
      .ok (items.map fun item => (item, dist P matrix candidate item)) :=
    mapM_ok_map fun item hitem => by
      rw [hcompl.distance_eq hcand (hitems item hitem)]
      rfl
  rw [within, hdists]
  rfl

/-! ## The adjacency -/

theorem returns_distance_comm (h : Returns (matrix.distance P left right)) :
    Returns (matrix.distance P right left) := by
  by_cases heq : left = right
  · exact heq ▸ h
  · rw [DistanceMatrix.distance, if_neg (Ne.symm heq), pairKey_comm]
    rw [DistanceMatrix.distance, if_neg heq] at h
    obtain ⟨d, hd⟩ := h
    split at hd
    · cases hd
    · exact ⟨d, hd⟩

/-- A matrix whose values are valid is prepared. -/
theorem returns_fromMatrix (hvals : ∀ p ∈ matrix.values, Returns (dec P p.2)) :
    Returns (PreparedDistanceMatrix.fromMatrix P matrix) := by
  obtain ⟨values, hvals⟩ := returns_mapM.mpr fun p (hp : p ∈ matrix.values) => by
    obtain ⟨d, hd⟩ := hvals p hp
    exact (⟨(p.1, d), map_ok.mpr ⟨d, hd, rfl⟩⟩ :
      Returns ((dec P p.2).map fun d => (p.1, d)))
  exact ⟨_, map_ok.mpr ⟨values, hvals, rfl⟩⟩

/-- Two elements of a list are a pair of it, in one of the orders. -/
theorem mem_pairs_or {α : Type} {xs : List α} {a b : α} (ha : a ∈ xs) (hb : b ∈ xs) (hne : a ≠ b) :
    (a, b) ∈ pairs xs ∨ (b, a) ∈ pairs xs := by
  induction xs with
  | nil => cases ha
  | cons x xs ih =>
    simp only [pairs, mem_append, mem_map, Prod.mk.injEq]
    rcases mem_cons.mp ha with rfl | ha
    · rcases mem_cons.mp hb with rfl | hb
      · exact absurd rfl hne
      · exact .inl (.inl ⟨b, hb, rfl, rfl⟩)
    · rcases mem_cons.mp hb with rfl | hb
      · exact .inr (.inl ⟨a, ‹_›, rfl, rfl⟩)
      · exact (ih ‹_› hb).imp .inr .inr

namespace Adjacency

variable {prepared : PreparedDistanceMatrix}

theorem near_push (adjacency : Adjacency) (item : PyStr) (x : PyStr × PyDecimal) (q : PyStr) :
    (adjacency.push item x).near q =
      if item = q then adjacency.near item ++ [x] else adjacency.near q := by
  rw [near, push, Dict.get?_set]
  split <;> rfl

/-- What is near a record after the loop over the pairs. -/
theorem mem_near_foldlM {d : PyStr → PyStr → PyDecimal} {rest : List (PyStr × PyStr)}
    (hd : ∀ p ∈ rest, prepared.distance p.1 p.2 = .ok (d p.1 p.2))
    (hne : ∀ p ∈ rest, p.1 ≠ p.2) {adjacency adjacency' : Adjacency}
    (h : rest.foldlM (visit prepared radius) adjacency = .ok adjacency') (q : PyStr)
    (x : PyStr × PyDecimal) :
    x ∈ adjacency'.near q ↔ x ∈ adjacency.near q ∨ ∃ p ∈ rest, (d p.1 p.2).rat ≤ radius.rat ∧
      ((p.1 = q ∧ x = (p.2, d p.1 p.2)) ∨ (p.2 = q ∧ x = (p.1, d p.1 p.2))) := by
  induction rest generalizing adjacency with
  | nil =>
    cases h
    simp
  | cons p rest ih =>
    rw [foldlM_cons, bind_ok] at h
    obtain ⟨next, hnext, h⟩ := h
    rw [visit, hd p (by simp)] at hnext
    cases hnext
    have hp := hne p (by simp)
    rw [ih (fun p hp => hd p (mem_cons_of_mem _ hp))
      (fun p hp => hne p (mem_cons_of_mem _ hp)) h, exists_mem_cons_iff, ← or_assoc]
    refine or_congr_left ?_
    beta_reduce
    by_cases hle : (d p.1 p.2).rat ≤ radius.rat
    · rw [if_pos hle, near_push, near_push, near_push]
      by_cases h2 : p.2 = q
      · subst h2
        simp [hp, hle]
      · by_cases h1 : p.1 = q
        · subst h1
          simp [h2, hle]
        · simp [h1, h2]
    · rw [if_neg hle]
      simp [hle]

/-- **The adjacency lists what every record covers**, in the order of the ids. -/
theorem near_build (hcompl : Complete P matrix) (hprep : prepared.distance = matrix.distance P)
    (hrad : 0 ≤ radius.rat) {adjacency : Adjacency}
    (h : build prepared matrix.ids radius = .ok adjacency) {candidate : PyStr}
    (hcand : candidate ∈ matrix.ids) :
    adjacency.near candidate = cover P matrix radius (sortedBy id matrix.ids) candidate := by
  have hnd := names_nodup matrix.nodup h candidate
  obtain ⟨linked, hlinked, rfl⟩ := map_ok.mp h
  have hstart : near (matrix.ids.map fun item => (item, [(item, PyDecimal.finite false 0 0)]))
      candidate = [(candidate, .finite false 0 0)] := by
    have hget := Dict.get?_of_mem (d := matrix.ids.map fun item =>
      (item, [(item, PyDecimal.finite false 0 0)])) (by simpa [Dict.keys, map_map,
        Function.comp_def] using matrix.nodup) (mem_map_of_mem hcand)
    rw [near, hget]
    rfl
  have hnear : near (linked.map fun p => (p.1, sortedBy Prod.fst p.2)) candidate =
      sortedBy Prod.fst (linked.near candidate) := by
    rw [near, Dict.get?_map, near]
    cases linked.get? candidate <;> rfl
  rw [names, hnear] at hnd
  rw [hnear]
  have hids : ∀ p ∈ pairs matrix.ids, prepared.distance p.1 p.2 = .ok (dist P matrix p.1 p.2) := by
    intro p hp
    obtain ⟨hleft, hright⟩ := mem_of_mem_pairs hp
    rw [hprep, hcompl.distance_eq hleft hright]
  have hmem : ∀ x, x ∈ sortedBy Prod.fst (linked.near candidate) ↔
      x ∈ cover P matrix radius (sortedBy id matrix.ids) candidate := by
    rintro ⟨item, d⟩
    rw [mem_sortedBy, mem_near_foldlM hids (fun p hp => rel_of_mem_pairs matrix.nodup hp) hlinked,
      hstart, mem_cover, mem_sortedBy, mem_singleton]
    constructor
    · rintro (heq | ⟨p, hp, hle, ⟨rfl, heq⟩ | ⟨rfl, heq⟩⟩)
      · cases heq
        refine ⟨hcand, ?_, (dist_self _).symm⟩
        rw [Covers, dist_self]
        simpa [PyDecimal.rat] using hrad
      · cases heq
        exact ⟨(mem_of_mem_pairs hp).2, hle, rfl⟩
      · cases heq
        refine ⟨(mem_of_mem_pairs hp).1, ?_, dist_comm _ _⟩
        rw [covers_comm]
        exact hle
    · rintro ⟨hitem, hcovers, hd⟩
      simp only at hitem hcovers hd
      by_cases hne : candidate = item
      · left
        rw [hd, ← hne, dist_self]
      · right
        rcases mem_pairs_or hcand hitem hne with hp | hp
        · exact ⟨_, hp, hcovers, .inl ⟨rfl, by rw [hd]⟩⟩
        · exact ⟨_, hp, covers_comm.mp hcovers, .inr ⟨rfl, by rw [hd, dist_comm]⟩⟩
  -- both lists are sorted by their ids, which are distinct
  have hsort : (cover P matrix radius (sortedBy id matrix.ids) candidate).Pairwise
      fun a b => a.1 ≤ b.1 := by
    rw [cover_eq, pairwise_map]
    exact (sortedBy_pairwise id matrix.ids).filter _
  have hcover : ((cover P matrix radius (sortedBy id matrix.ids) candidate).map Prod.fst).Nodup := by
    rw [map_fst_cover]
    exact ((sortedBy_perm id matrix.ids).nodup_iff.mpr matrix.nodup).filter _
  refine eq_of_perm_of_pairwise (inj_on_of_nodup_map hnd) ?_ (sortedBy_pairwise _ _) hsort
  exact (perm_ext_iff_of_nodup hnd.of_map hcover.of_map).mpr hmem

/-- Some records of a population, sorted. -/
theorem filter_mem_sortedBy {ids active : List PyStr} (hids : ids.Nodup) (hact : active.Nodup)
    (hsub : active ⊆ ids) :
    (sortedBy id ids).filter (fun item => item ∈ active) = sortedBy id active := by
  have hperm : (ids.filter fun item => item ∈ active).Perm active := by
    rw [perm_ext_iff_of_nodup (hids.filter _) hact]
    intro item
    rw [mem_filter, decide_eq_true_eq]
    exact ⟨fun h => h.2, fun h => ⟨hsub h, h⟩⟩
  rw [filter_sortedBy_comm]
  exact sortedBy_eq_of_perm (fun _ _ _ _ h => h) hperm

/-- **What a record covers of the active ones**, in the order of the ids. -/
theorem near_filter (hcompl : Complete P matrix)
    (hprep : prepared.distance = matrix.distance P) (hrad : 0 ≤ radius.rat)
    {adjacency : Adjacency} (h : build prepared matrix.ids radius = .ok adjacency)
    {candidate : PyStr} (hcand : candidate ∈ matrix.ids) {active : List PyStr}
    (hact : active.Nodup) (hsub : active ⊆ matrix.ids) :
    ((adjacency.near candidate).filter fun p => p.1 ∈ active) =
      cover P matrix radius (sortedBy id active) candidate := by
  have hmap : (((sortedBy id matrix.ids).filter fun item => item ∈ active).map fun item =>
      (item, dist P matrix candidate item)) =
      ((sortedBy id matrix.ids).map fun item => (item, dist P matrix candidate item)).filter
        fun p => p.1 ∈ active := by
    rw [filter_map]
    rfl
  rw [near_build hcompl hprep hrad h hcand,
    ← filter_mem_sortedBy matrix.nodup hact hsub, cover, cover, hmap,
    filter_filter, filter_filter]
  congr 1
  funext p
  exact Bool.and_comm _ _

end Adjacency

/-! ## The counts -/

/-- `active_counts[item]` of a dictionary. -/
def countOf (counts : Dict PyStr Int) (item : PyStr) : Int := (counts.get? item).getD 0

/-- What is near one removed record loses one, if it is active. -/
theorem countOf_foldl {active : List PyStr} {item : PyStr} (hitem : item ∈ active)
    {near : List (PyStr × PyDecimal)} (hnear : (near.map Prod.fst).Nodup)
    (counts : Dict PyStr Int) :
    countOf (near.foldl (fun counts p =>
      if p.1 ∈ active then counts.set p.1 ((counts.get? p.1).getD 0 - 1) else counts)
      counts) item = countOf counts item - if item ∈ near.map Prod.fst then 1 else 0 := by
  induction near generalizing counts with
  | nil => simp
  | cons p near ih =>
    rw [map_cons, nodup_cons] at hnear
    rw [foldl_cons, ih hnear.2, map_cons]
    by_cases hp : item = p.1
    · subst hp
      have hnot : p.1 ∉ near.map Prod.fst := hnear.1
      rw [if_pos hitem, if_neg hnot, if_pos mem_cons_self, sub_zero, countOf, Dict.get?_set,
        if_pos rfl, Option.getD_some, countOf]
    · have hsame : countOf (if p.1 ∈ active then
          counts.set p.1 ((counts.get? p.1).getD 0 - 1) else counts) item =
          countOf counts item := by
        split
        · rw [countOf, Dict.get?_set_of_ne _ _ (Ne.symm hp), countOf]
        · rfl
      rw [hsame]
      simp only [mem_cons, hp, false_or]

/-- **An active record loses one for every covered record it is near.** -/
theorem countOf_lowerCounts {adjacency : Adjacency} {active covered : List PyStr} {item : PyStr}
    (hitem : item ∈ active) (hnames : ∀ removed, (adjacency.names removed).Nodup)
    (counts : Dict PyStr Int) :
    countOf (lowerCounts adjacency active covered counts) item =
      countOf counts item - covered.countP fun removed => item ∈ adjacency.names removed := by
  induction covered generalizing counts with
  | nil => simp [lowerCounts]
  | cons removed covered ih =>
    rw [lowerCounts, foldl_cons, ← lowerCounts, ih, countOf_foldl hitem (hnames removed),
      countP_cons]
    have hiff : (item ∈ (adjacency.near removed).map Prod.fst) ↔
        item ∈ adjacency.names removed := Iff.rfl
    simp only [hiff, decide_eq_true_eq]
    split
    · push_cast
      ring
    · simp

end OvcReplay.Srfd
