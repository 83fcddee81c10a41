import OvcReplay.Srfd.Distance

/-! # The order of two records

When `compute_distance` returns or raises the same for two records in both orders. The table of the
warping is transposed with the sequences, and differences and categories are symmetric. The order
is seen where two reads clash, and where the records name different domains. -/

namespace OvcReplay.Srfd.Distance

open List Python Json

/-! ## The table of the warping -/

/-- **The table**: the least cost of warping the first `i` elements of one sequence onto the first
`j` of another. -/
def cell (xs ys : List Rat) : Nat → Nat → WithTop Rat
  | 0, 0 => 0
  | 0, _ + 1 => ⊤
  | _ + 1, 0 => ⊤
  | i + 1, j + 1 =>
    ((|xs.getD i 0 - ys.getD j 0| : Rat) : WithTop Rat) +
      min (cell xs ys (i + 1) j) (min (cell xs ys i (j + 1)) (cell xs ys i j))

/-- **Swapping the sequences transposes the table.** -/
theorem cell_comm (xs ys : List Rat) (i j : Nat) : cell xs ys i j = cell ys xs j i := by
  induction i, j using cell.induct with
  | case1 => rw [cell, cell]
  | case2 j => rw [cell, cell]
  | case3 i => rw [cell, cell]
  | case4 i j hleft habove hdiagonal =>
    rw [cell, cell, hleft, habove, hdiagonal, abs_sub_comm, min_left_comm]

/-- The row of the first `i` elements. -/
def rowOf (xs ys : List Rat) (i : Nat) : List (WithTop Rat) :=
  (List.range' 0 (ys.length + 1)).map (cell xs ys i)

/-- The cells of a row, from the cells of the row before. -/
theorem nextCells_eq {xs : List Rat} (ys : List Rat) {i : Nat} {x : Rat} (hx : xs.getD i 0 = x)
    (j : Nat) :
    nextCells x (cell xs ys (i + 1) j)
        ((List.range' j ((ys.drop j).length + 1)).map (cell xs ys i)) (ys.drop j) =
      (List.range' (j + 1) (ys.drop j).length).map (cell xs ys (i + 1)) := by
  generalize hrest : ys.drop j = rest
  induction rest generalizing j with
  | nil => simp [nextCells]
  | cons y rest ih =>
    have hy : ys.getD j 0 = y := by
      rw [getD_eq_getElem?_getD, ← head?_drop, hrest]
      rfl
    have htail : ys.drop (j + 1) = rest := by
      rw [← tail_drop, hrest, tail_cons]
    have hcell : cell xs ys (i + 1) (j + 1) = ((|x - y| : Rat) : WithTop Rat) +
        min (cell xs ys (i + 1) j) (min (cell xs ys i (j + 1)) (cell xs ys i j)) := by
      rw [cell, hx, hy]
    have hnext := ih (j + 1) htail
    rw [length_cons, range'_succ, range'_succ, map_cons, map_cons,
      nextCells, ← hcell]
    rw [range'_succ, map_cons] at hnext
    rw [hnext, map_cons]

/-- One row behind another. -/
theorem nextRow_rowOf {xs : List Rat} (ys : List Rat) {i : Nat} {x : Rat}
    (hx : xs.getD i 0 = x) : nextRow ys (rowOf xs ys i) x = rowOf xs ys (i + 1) := by
  have hcells := nextCells_eq ys hx 0
  have hfst : cell xs ys (i + 1) 0 = ⊤ := by rw [cell]
  rw [drop_zero, hfst] at hcells
  rw [nextRow, rowOf, hcells, rowOf, range'_succ, map_cons, hfst]

theorem firstRow_eq (xs ys : List Rat) : firstRow ys = rowOf xs ys 0 := by
  have htop : (List.range' 1 ys.length).map (cell xs ys 0) = List.replicate ys.length ⊤ := by
    refine eq_replicate_iff.mpr ⟨by simp, fun v hv => ?_⟩
    obtain ⟨j, hj, rfl⟩ := mem_map.mp hv
    obtain ⟨k, rfl⟩ := Nat.exists_eq_add_of_le (mem_range'_1.mp hj).1
    rw [Nat.add_comm, cell]
  rw [firstRow, rowOf, range'_succ, map_cons, htop, cell]

/-- The rows of the loop are the rows of the table. -/
theorem foldl_nextRow (xs ys : List Rat) (i : Nat) :
    (xs.drop i).foldl (nextRow ys) (rowOf xs ys i) = rowOf xs ys (i + (xs.drop i).length) := by
  generalize hrest : xs.drop i = rest
  induction rest generalizing i with
  | nil => rfl
  | cons x rest ih =>
    have hx : xs.getD i 0 = x := by
      rw [getD_eq_getElem?_getD, ← head?_drop, hrest]
      rfl
    have htail : xs.drop (i + 1) = rest := by
      rw [← tail_drop, hrest, tail_cons]
    rw [foldl_cons, nextRow_rowOf ys hx, ih (i + 1) htail, length_cons]
    congr 1
    omega

/-- The distance is read from the last cell of the table. -/
theorem dtw_eq (xs ys : List Rat) :
    dtw xs ys = (cell xs ys xs.length ys.length).untopD 0 / max xs.length ys.length := by
  have hrows := foldl_nextRow xs ys 0
  rw [drop_zero, Nat.zero_add, ← firstRow_eq] at hrows
  rw [dtw, hrows, rowOf, getD_eq_getElem?_getD, getElem?_map,
    getElem?_range' (by omega)]
  simp

/-- **The warping distance is symmetric.** -/
theorem dtw_comm (xs ys : List Rat) : dtw xs ys = dtw ys xs := by
  rw [dtw_eq, dtw_eq, cell_comm, max_comm]

/-- A cell behind the first row and the first column is reached, so the distance is a number. -/
theorem cell_ne_top (xs ys : List Rat) (i j : Nat) : cell xs ys (i + 1) (j + 1) ≠ ⊤ := by
  have hstep : ∀ i j, cell xs ys (i + 1) j ≠ ⊤ ∨ cell xs ys i (j + 1) ≠ ⊤ ∨ cell xs ys i j ≠ ⊤ →
      cell xs ys (i + 1) (j + 1) ≠ ⊤ := by
    intro i j h
    rw [cell, Ne, WithTop.add_eq_top, min_eq_top, min_eq_top]
    rintro (h' | ⟨hleft, habove, hdiagonal⟩)
    · exact WithTop.coe_ne_top h'
    · simp [hleft, habove, hdiagonal] at h
  induction i generalizing j with
  | zero =>
    induction j with
    | zero => exact hstep 0 0 (.inr (.inr (by simp [cell])))
    | succ j ih => exact hstep 0 (j + 1) (.inl ih)
  | succ i ih => exact hstep (i + 1) j (.inr (.inl (ih j)))

/-! ## Warpings -/

/-- A warping of the first `i` elements of one sequence onto the first `j` of another: the places it
matches, each of which goes on by one element in one of the sequences or in both. -/
inductive Warps : Nat → Nat → List (Nat × Nat) → Prop
  | start : Warps 0 0 []
  | along {i j : Nat} {path : List (Nat × Nat)} (h : Warps (i + 1) j path) :
      Warps (i + 1) (j + 1) (path ++ [(i, j)])
  | down {i j : Nat} {path : List (Nat × Nat)} (h : Warps i (j + 1) path) :
      Warps (i + 1) (j + 1) (path ++ [(i, j)])
  | both {i j : Nat} {path : List (Nat × Nat)} (h : Warps i j path) :
      Warps (i + 1) (j + 1) (path ++ [(i, j)])

/-- What a warping costs. -/
def cost (xs ys : List Rat) (path : List (Nat × Nat)) : Rat :=
  (path.map fun p => |xs.getD p.1 0 - ys.getD p.2 0|).sum

variable {xs ys : List Rat} {i j : Nat} {path : List (Nat × Nat)}

theorem cost_concat : ((cost xs ys (path ++ [(i, j)]) : Rat) : WithTop Rat) =
    ((|xs.getD i 0 - ys.getD j 0| : Rat) : WithTop Rat) + (cost xs ys path : Rat) := by
  rw [← WithTop.coe_add, WithTop.coe_inj, cost, map_append, sum_append, add_comm]
  simp [cost]

/-- No warping costs less than its cell. -/
theorem cell_le_cost (h : Warps i j path) : cell xs ys i j ≤ (cost xs ys path : Rat) := by
  induction h with
  | start => rw [cell]; rfl
  | along _ ih =>
    rw [cell, cost_concat]
    gcongr
    exact (min_le_left _ _).trans ih
  | down _ ih =>
    rw [cell, cost_concat]
    gcongr
    exact (min_le_right _ _).trans ((min_le_left _ _).trans ih)
  | both _ ih =>
    rw [cell, cost_concat]
    gcongr
    exact (min_le_right _ _).trans ((min_le_right _ _).trans ih)

/-- A cell that is a number is the cost of a warping. -/
theorem exists_warps (h : cell xs ys i j ≠ ⊤) :
    ∃ path, Warps i j path ∧ cell xs ys i j = (cost xs ys path : Rat) := by
  induction i, j using cell.induct with
  | case1 => exact ⟨[], .start, by rw [cell]; rfl⟩
  | case2 j => exact absurd (by rw [cell]) h
  | case3 i => exact absurd (by rw [cell]) h
  | case4 i j hleft habove hdiagonal =>
    rw [cell] at h ⊢
    have hmin := (WithTop.add_ne_top.mp h).2
    rcases min_choice (cell xs ys (i + 1) j) (min (cell xs ys i (j + 1)) (cell xs ys i j))
      with heq | heq
    · rw [heq] at hmin ⊢
      obtain ⟨path, hpath, hcost⟩ := hleft hmin
      exact ⟨_, .along hpath, by rw [hcost, cost_concat]⟩
    · rw [heq] at hmin ⊢
      rcases min_choice (cell xs ys i (j + 1)) (cell xs ys i j) with heq | heq
      · rw [heq] at hmin ⊢
        obtain ⟨path, hpath, hcost⟩ := habove hmin
        exact ⟨_, .down hpath, by rw [hcost, cost_concat]⟩
      · rw [heq] at hmin ⊢
        obtain ⟨path, hpath, hcost⟩ := hdiagonal hmin
        exact ⟨_, .both hpath, by rw [hcost, cost_concat]⟩

/-- **The warping distance is optimal**: the least cost of a warping, over the greater length. -/
theorem dtw_isLeast (x y : Rat) (xs ys : List Rat) :
    IsLeast {d | ∃ path, Warps (xs.length + 1) (ys.length + 1) path ∧
      d = cost (x :: xs) (y :: ys) path / max (xs.length + 1) (ys.length + 1)}
      (dtw (x :: xs) (y :: ys)) := by
  obtain ⟨path, hpath, hcost⟩ := exists_warps (cell_ne_top (x :: xs) (y :: ys) xs.length ys.length)
  have hdtw : dtw (x :: xs) (y :: ys) =
      cost (x :: xs) (y :: ys) path / max (xs.length + 1) (ys.length + 1) := by
    rw [dtw_eq, length_cons, length_cons, hcost, WithTop.untopD_coe]
  refine ⟨⟨path, hpath, hdtw⟩, ?_⟩
  rintro d ⟨path', hpath', rfl⟩
  have hle : _ ≤ ((cost (x :: xs) (y :: ys) path' : Rat) : WithTop Rat) := cell_le_cost hpath'
  rw [hcost, WithTop.coe_le_coe] at hle
  rw [hdtw]
  gcongr

/-! ## Pair ids -/

section

variable {P : Platform}

variable (texts : List (PyStr × PyStr))

/-- A record of texts is canonical. -/
theorem canonical_textRecord :
    canonical (.ofRecord (textRecord texts)) = .ok (.ofRecord (textRecord texts)) := by
  have hkeys : textItems ((textRecord texts).map fun p => (PyKey.str p.1, p.2)) =
      .ok (textRecord texts) := by
    rw [textItems, mapM_map, mapM_ok_iff]
    exact forall₂_same.mpr fun _ _ => rfl
  have hitems : ∀ texts : List (PyStr × PyStr),
      canonicalItems (texts.map fun p => (PyKey.str p.1, PyVal.str p.2)) =
        .ok (texts.map fun p => (PyKey.str p.1, PyVal.str p.2)) := by
    intro texts
    induction texts with
    | nil => rfl
    | cons p texts ih =>
      rw [map_cons, canonicalItems, ih]
      rfl
  have hmap : ((textRecord texts).map fun p => (PyKey.str p.1, p.2)) =
      texts.map fun p => (PyKey.str p.1, PyVal.str p.2) := by
    rw [textRecord, map_map]
    rfl
  rw [PyVal.ofRecord, canonical, hkeys]
  simp only [bind, Except.bind, hmap, hitems]
  rfl

/-- A record of texts under other keys than those of diagnostics belongs to the identity. -/
theorem identityPayload_textRecord {texts : List (PyStr × PyStr)}
    (h : ∀ p ∈ texts, isDiagnostic (.str p.1) = false) :
    identityPayload (.ofRecord (textRecord texts)) = .ofRecord (textRecord texts) := by
  rw [PyVal.ofRecord, identityPayload, textRecord, map_map]
  congr 1
  induction texts with
  | nil => rfl
  | cons p texts ih =>
    rw [map_cons, identityItems, if_neg (by simp [h p]), ih fun q hq =>
      h q (mem_cons_of_mem _ hq)]
    rfl

/-- The text that a record of texts is written as. -/
def textOf : PyStr :=
  render (.obj ((sortedBy Prod.fst texts).map fun p => (p.1, .str p.2)))

theorem dumps_textRecord : dumps P (.ofRecord (textRecord texts)) =
      .ok (.obj ((sortedBy Prod.fst texts).map fun p => (p.1, .str p.2))) := by
  have hmapM : ((sortedBy Prod.fst texts).mapM fun p =>
      (dumps P (.str p.2)).map fun j => (p.1, j)) =
      .ok ((sortedBy Prod.fst texts).map fun p => (p.1, .str p.2)) := by
    rw [mapM_ok_iff, forall₂_map_right_iff]
    exact forall₂_same.mpr fun p _ => by rw [dumps_str]; rfl
  rw [dumps_ofRecord, textRecord, sortedBy_map, mapM_map]
  exact congrArg (Except.map Json.obj) hmapM

theorem encodable_textOf :
    Encodable (textOf texts) ↔ ∀ p ∈ texts, Encodable p.1 ∧ Encodable p.2 := by
  rw [textOf, encodable_render_obj]
  simp only [forall_mem_map, encodable_render_str, mem_sortedBy]

/-- **The hash of a record of texts** is taken of its text; it raises where this has no bytes. -/
theorem logicalSha256_textRecord : logicalSha256 P (.ofRecord (textRecord texts)) =
      if Encodable (textOf texts) then .ok (P.sha256 (textOf texts)).text
      else .error (.python .unicodeEncodeError) := by
  have hbytes : canonicalJsonBytes P (.ofRecord (textRecord texts)) =
      encodeUtf8 (textOf texts) := by
    rw [canonicalJsonBytes, canonical_textRecord]
    simp only [bind, Except.bind, dumps_textRecord]
    rfl
  rw [logicalSha256, hbytes, encodeUtf8]
  split_ifs <;> rfl

/-- **The text of a record of texts determines it**, up to the order of its items. -/
theorem perm_of_textOf {texts texts' : List (PyStr × PyStr)} (h : textOf texts = textOf texts') :
    texts.Perm texts' := by
  have hplain : ∀ texts : List (PyStr × PyStr),
      Plain (.obj ((sortedBy Prod.fst texts).map fun p => (p.1, .str p.2))) := by
    intro texts
    refine .obj fun m hm => ?_
    obtain ⟨p, -, rfl⟩ := mem_map.mp hm
    exact .str p.2
  have hmems := Json.obj.inj ((hplain texts).render_inj (hplain texts') h)
  have hinj : Function.Injective fun p : PyStr × PyStr => (p.1, Json.str p.2) := by
    rintro ⟨k, s⟩ ⟨k', s'⟩ heq
    obtain ⟨hk, hs⟩ := Prod.mk.inj heq
    exact Prod.ext hk (Json.str.inj hs)
  have hsort := map_injective_iff.mpr hinj hmems
  exact (sortedBy_perm Prod.fst texts).symm.trans (hsort ▸ sortedBy_perm Prod.fst texts')

/-- The endpoints of a pair, in one of both orders. -/
theorem endpoints_eq (l r : PyStr) : sortedBy id [l, r] = [l, r] ∨ sortedBy id [l, r] = [r, l] := by
  rw [sortedBy, insertionSort_cons, insertionSort_cons, insertionSort_nil,
    orderedInsert_nil, orderedInsert]
  split_ifs
  · exact .inl rfl
  · exact .inr rfl

/-- The endpoints do not depend on the order of the pair. -/
theorem pairTexts_comm (l r hash domain : PyStr) :
    pairTexts l r hash domain = pairTexts r l hash domain := by
  have hsort : sortedBy id [l, r] = sortedBy id [r, l] :=
    sortedBy_eq_of_perm (fun _ _ _ _ h => h) (Perm.swap r l [])
  rw [pairTexts, pairTexts, hsort]

theorem encodable_pairTexts {l r hash domain : PyStr} (hhash : Encodable hash) :
    Encodable (textOf (pairTexts l r hash domain)) ↔
      Encodable l ∧ Encodable r ∧ Encodable domain := by
  rw [encodable_textOf, pairTexts]
  rcases endpoints_eq l r with h | h
  · rw [h]
    simp [encodable_py, hhash]
  · rw [h]
    simp only [forall_mem_cons, encodable_py, hhash, getD_cons_zero, getD_cons_succ]
    tauto

/-- Pairs that are written alike name one domain. -/
theorem domain_of_textOf {l r hash domain domain' : PyStr}
    (h : textOf (pairTexts l r hash domain) = textOf (pairTexts l r hash domain')) :
    domain = domain' := by
  have hmem : (py "comparability_domain_id", domain) ∈ pairTexts l r hash domain' :=
    (perm_of_textOf h).mem_iff.mp (by simp [pairTexts])
  have hkeys : ((pairTexts l r hash domain').map Prod.fst).Nodup := by
    show [py "left_id", py "right_id", py "distance_spec_hash",
      py "comparability_domain_id"].Nodup
    decide +kernel
  have hmem' : (py "comparability_domain_id", domain') ∈ pairTexts l r hash domain' := by
    simp [pairTexts]
  exact (Prod.mk.inj (inj_on_of_nodup_map hkeys hmem hmem' rfl)).2

theorem isDiagnostic_pairTexts (l r hash domain : PyStr) :
    ∀ p ∈ pairTexts l r hash domain, isDiagnostic (.str p.1) = false := by
  intro p hp
  have hkey : p.1 ∈ [py "left_id", py "right_id", py "distance_spec_hash",
      py "comparability_domain_id"] := mem_map_of_mem (f := Prod.fst) hp
  revert hkey
  generalize p.1 = key
  revert key
  decide +kernel

/-- **A pair id** is taken of the text of the pair. -/
theorem deterministicPairId_eq {l r : PyStr} (hne : l ≠ r) (spec : DistanceSpec)
    (domain : PyStr) : deterministicPairId P l r spec domain =
      ((spec.logicalHash P).mapError .other >>= fun hash =>
        if Encodable (textOf (pairTexts l r hash domain)) then
          .ok (py "SRFD.PAIR." ++ (P.sha256 (textOf (pairTexts l r hash domain))).text)
        else .error (.other (.python .unicodeEncodeError))) := by
  rw [deterministicPairId, check, if_pos hne]
  have hid : ∀ hash, (stableId P "SRFD.PAIR." (textRecord (pairTexts l r hash domain))) =
      if Encodable (textOf (pairTexts l r hash domain)) then
        .ok (py "SRFD.PAIR." ++ (P.sha256 (textOf (pairTexts l r hash domain))).text)
      else .error (.python .unicodeEncodeError) := by
    intro hash
    rw [stableId, identityPayload_textRecord (isDiagnostic_pairTexts l r hash domain),
      logicalSha256_textRecord]
    split_ifs <;> rfl
  show ((spec.logicalHash P).mapError DistanceError.other >>= fun hash =>
    (stableId P "SRFD.PAIR." (textRecord (pairTexts l r hash domain))).mapError .other) = _
  congr 1
  funext hash
  rw [hid]
  split_ifs <;> rfl

variable (P) (left right : Representation) (spec : DistanceSpec)

/-- The id of a pair can be written under a domain. -/
def Writable (domain : PyStr) : Prop :=
  Returns (spec.logicalHash P) ∧ Encodable left.representationId ∧
    Encodable right.representationId ∧ Encodable domain

/-- A text that the id of the pair is taken of, in one of both orders. -/
def IsPairText (text : PyStr) : Prop :=
  ∃ hash domain, spec.logicalHash P = .ok hash ∧
    domain ∈ [domainText left right, domainText right left] ∧
    text = textOf (pairTexts left.representationId right.representationId hash domain)

variable {P left right spec}

/-- **The ids of both orders agree** iff they are taken of one domain, or neither is written. -/
theorem pairId_eq_iff (hne : left.representationId ≠ right.representationId)
    (hfree : P.CollisionFreeOn (IsPairText P left right spec)) :
    deterministicPairId P left.representationId right.representationId spec
        (domainText left right) =
      deterministicPairId P right.representationId left.representationId spec
        (domainText right left) ↔
      domainText left right = domainText right left ∨
        ¬ Writable P left right spec (domainText left right) ∧
          ¬ Writable P left right spec (domainText right left) := by
  rw [deterministicPairId_eq hne, deterministicPairId_eq hne.symm]
  cases hhash : spec.logicalHash P with
  | error e =>
    have hnot : ∀ domain, ¬ Writable P left right spec domain := fun domain h => by
      simpa [hhash] using h.1
    exact iff_of_true rfl (.inr ⟨hnot _, hnot _⟩)
  | ok hash =>
    have henc : Encodable hash := by
      obtain ⟨s, -, rfl⟩ := map_ok.mp (mapError_ok.mp hhash)
      exact (P.sha256 s).encodable
    have hwrit : ∀ domain, Writable P left right spec domain ↔ Encodable
        (textOf (pairTexts left.representationId right.representationId hash domain)) := by
      intro domain
      rw [encodable_pairTexts henc, Writable, hhash]
      exact and_iff_right (returns_ok hash)
    have htext : ∀ domain ∈ [domainText left right, domainText right left],
        IsPairText P left right spec
          (textOf (pairTexts left.representationId right.representationId hash domain)) :=
      fun domain hdomain => ⟨hash, domain, hhash, hdomain, rfl⟩
    show (if Encodable (textOf (pairTexts left.representationId right.representationId hash
        (domainText left right))) then _ else _) = (if Encodable (textOf (pairTexts
          right.representationId left.representationId hash (domainText right left))) then _
            else _) ↔ _
    rw [pairTexts_comm right.representationId, hwrit, hwrit]
    by_cases hdomain : domainText left right = domainText right left
    · rw [hdomain]
      simp
    · split_ifs with h h' h'
      · simp only [Except.ok.injEq, append_cancel_left_eq, hdomain, h, h', false_or,
          not_true, false_and, iff_false]
        intro heq
        exact hdomain (domain_of_textOf (hfree _ _ (htext _ (by simp)) (htext _ (by simp))
          (HexDigest.ext heq)))
      · simp [hdomain, h]
      · simp [hdomain, h']
      · simp [h, h']

end

/-! ## Reads -/

section

variable {P : Platform}

/-- Plain data: the values that `==` compares symmetrically. -/
def IsPlain (v : PyVal) : Prop := v.Built ∧ v.SetFree

theorem pyEq_comm {v w : PyVal} (hv : IsPlain v) (hw : IsPlain w) : v.pyEq w = w.pyEq v := by
  apply Bool.eq_iff_iff.mpr
  exact ⟨PyVal.pyEq_symm hw.2 hv.1 hw.1, PyVal.pyEq_symm hv.2 hw.1 hv.1⟩

theorem isPlain_valueAt {values : Record}
    (h : ∀ key v, values.get? key = some v → IsPlain v) (field : PyStr) :
    IsPlain (valueAt values field) := by
  rw [valueAt]
  cases hget : values.get? field with
  | none => exact ⟨.none, .none⟩
  | some v => exact h field v hget

/-- The combined namespaces hold values of the namespaces. -/
theorem isPlain_of_foldlM {items : List (PyKey × PyVal)} (hitems : ∀ p ∈ items, IsPlain p.2)
    {d values : Record} (hd : ∀ key v, d.get? key = some v → IsPlain v)
    (h : items.foldlM setDefault d = .ok values) :
    ∀ key v, values.get? key = some v → IsPlain v := by
  induction items generalizing d with
  | nil =>
    cases h
    exact hd
  | cons p items ih =>
    rw [foldlM_cons] at h
    obtain ⟨d', hset, hrest⟩ := bind_ok.mp h
    refine ih (fun q hq => hitems q (mem_cons_of_mem _ hq)) (fun key v hget => ?_) hrest
    obtain ⟨k, -, hd'⟩ := bind_ok.mp hset
    cases hd'
    split_ifs at hget with hpresent
    · exact hd key v hget
    · rw [Dict.get?_set] at hget
      split_ifs at hget with hkey
      · cases hget
        exact hitems p mem_cons_self
      · exact hd key v hget

/-- The fields of a record are plain data. -/
theorem isPlain_of_staticValues {record : Representation} {fields : List PyStr} {values : Record}
    (h : staticValues record fields = .ok values) (field : PyStr) :
    IsPlain (valueAt values field) := by
  obtain ⟨combined, hcombined, h⟩ := bind_ok.mp h
  obtain ⟨_, -, h⟩ := bind_ok.mp h
  cases h
  refine isPlain_valueAt (isPlain_of_foldlM (fun p hp => ?_) (by simp) hcombined) field
  obtain ⟨v, hv, hp⟩ := mem_flatMap.mp hp
  have hbuilt := record.built v hv
  have hfree := record.setFree v hv
  cases v with
  | dict items =>
    cases hbuilt with | dict _ hbuilt => cases hfree with | dict hfree =>
    exact ⟨hbuilt p hp, hfree p hp⟩
  | _ => simp [itemsOf] at hp

/-! ## One field -/

variable (P) (spec : DistanceSpec) (left right : Record) (field : PyStr)

/-- The numbers of a field clash, behind a weight that is read. -/
def WeightedClash : Prop :=
  Returns (weight P spec field) ∧
    Clash (decimal P (valueAt left field) field) (decimal P (valueAt right field) field)

variable {P spec left right field}

theorem weighted_ok {a : Rat × Rat} (h : weighted P spec left right field = .ok a) :
    weighted P spec right left field = .ok a := by
  obtain ⟨w, hw, h⟩ := bind_ok.mp h
  obtain ⟨delta, hdelta, h⟩ := bind_ok.mp h
  obtain ⟨x, hx, hdelta⟩ := bind_ok.mp hdelta
  obtain ⟨y, hy, hdelta⟩ := bind_ok.mp hdelta
  refine bind_intro hw (bind_ok.mpr ⟨delta, ?_, h⟩)
  refine bind_intro hy (bind_ok.mpr ⟨x, hx, ?_⟩)
  rw [abs_sub_comm]
  exact hdelta

/-- **The order is seen in a field** iff its numbers clash. -/
theorem weighted_comm_iff : weighted P spec left right field = weighted P spec right left field ↔
      ¬ WeightedClash P spec left right field := by
  unfold weighted difference WeightedClash
  generalize decimal P (valueAt left field) field = x
  generalize decimal P (valueAt right field) field = y
  cases weight P spec field with
  | error e => simp [bind, Except.bind]
  | ok w =>
    cases x <;> cases y <;>
      simp [Clash, abs_sub_comm, bind, Except.bind, pure, Except.pure]

/-- What is no number raises a `DistanceError`. -/
theorem exists_of_decimal_error {v : PyVal} {e : DistanceError}
    (h : decimal P v field = .error e) : ∃ reasonCode detail, e = .distance reasonCode detail := by
  unfold decimal at h
  dsimp only at h
  split at h
  · split at h
    · split at h
      · cases h
      · exact ⟨_, _, (Except.error.inj h).symm⟩
    · exact ⟨_, _, (Except.error.inj h).symm⟩
  · exact ⟨_, _, (Except.error.inj h).symm⟩

/-- **The order is not seen in a score.** -/
theorem score_comm (hleft : IsPlain (valueAt left field)) (hright : IsPlain (valueAt right field)) :
    score P left right field = score P right left field := by
  unfold score difference
  rw [pyEq_comm hright hleft]
  cases hx : decimal P (valueAt left field) field with
  | ok x =>
    cases hy : decimal P (valueAt right field) field with
    | ok y => simp [abs_sub_comm, bind, Except.bind, pure, Except.pure]
    | error e' => simp [bind, Except.bind]
  | error e =>
    obtain ⟨_, _, rfl⟩ := exists_of_decimal_error hx
    cases hy : decimal P (valueAt right field) field with
    | ok y => simp [bind, Except.bind]
    | error e' =>
      obtain ⟨_, _, rfl⟩ := exists_of_decimal_error hy
      simp [bind, Except.bind]

end

/-! ## The distance -/

section

variable (P : Platform) (left right : Representation) (spec : DistanceSpec)

/-- **The reads of comparable records fail alike**: where both records cannot be read, the error is
the same. A sum of differences is read field by field. -/
def ReadsAlike : Prop :=
  match spec.method with
  | .dtwSequence => ¬ Clash (sequenceValues P left) (sequenceValues P right)
  | .gowerMixed => ¬ Clash (staticValues left spec.fields) (staticValues right spec.fields)
  | _ => ¬ Clash (staticValues left spec.fields) (staticValues right spec.fields) ∧
      ∀ lvals rvals, staticValues left spec.fields = .ok lvals →
        staticValues right spec.fields = .ok rvals →
        ∀ before field after, spec.fields = before ++ field :: after →
          (∀ f ∈ before, Returns (weighted P spec lvals rvals f)) →
          ¬ WeightedClash P spec lvals rvals field

variable {P left right spec}

theorem mapM_weighted_ok {lvals rvals : Record} {ws : List (Rat × Rat)} :
    spec.fields.mapM (weighted P spec lvals rvals) = .ok ws ↔
      spec.fields.mapM (weighted P spec rvals lvals) = .ok ws := by
  rw [mapM_ok_iff, mapM_ok_iff]
  exact ⟨fun h => h.imp fun _ _ => weighted_ok, fun h => h.imp fun _ _ => weighted_ok⟩

/-- **The order is seen in a sum of differences** iff the first field that is not read clashes. -/
theorem bind_weighted_comm_iff {lvals rvals : Record}
    {use : List (Rat × Rat) → Except DistanceError Value} :
    spec.fields.mapM (weighted P spec lvals rvals) >>= use =
        spec.fields.mapM (weighted P spec rvals lvals) >>= use ↔
      ∀ before field after, spec.fields = before ++ field :: after →
        (∀ f ∈ before, Returns (weighted P spec lvals rvals f)) →
        ¬ WeightedClash P spec lvals rvals field := by
  rw [bind_congr_iff fun _ => mapM_weighted_ok,
    mapM_eq_iff fun _ _ _ => ⟨weighted_ok, weighted_ok⟩]
  simp only [weighted_comm_iff]

/-- Two distances agree where they return. -/
theorem distanceValue_ok {value : Value} (h : distanceValue P left right spec = .ok value) :
    distanceValue P right left spec = .ok value := by
  unfold distanceValue at h ⊢
  by_cases hmethod : spec.method = .dtwSequence
  · rw [if_pos hmethod] at h ⊢
    obtain ⟨xs, hxs, h⟩ := bind_ok.mp h
    obtain ⟨ys, hys, h⟩ := bind_ok.mp h
    rw [dtw_comm] at h
    exact bind_intro hys (bind_ok.mpr ⟨xs, hxs, h⟩)
  · rw [if_neg hmethod] at h ⊢
    obtain ⟨lvals, hlvals, h⟩ := bind_ok.mp h
    obtain ⟨rvals, hrvals, h⟩ := bind_ok.mp h
    refine bind_intro hrvals (bind_ok.mpr ⟨lvals, hlvals, ?_⟩)
    unfold staticDistance at h ⊢
    split at h
    · obtain ⟨ws, hws, h⟩ := bind_ok.mp h
      exact bind_intro (mapM_weighted_ok.mp hws) h
    · obtain ⟨ws, hws, h⟩ := bind_ok.mp h
      exact bind_intro (mapM_weighted_ok.mp hws) h
    · obtain ⟨scores, hscores, h⟩ := bind_ok.mp h
      rw [mapM_congr fun field _ => score_comm (isPlain_of_staticValues hlvals field)
        (isPlain_of_staticValues hrvals field)] at hscores
      exact bind_intro hscores h

/-- **The distances of both orders agree** iff the reads fail alike. -/
theorem distanceValue_comm_iff : distanceValue P left right spec = distanceValue P right left spec ↔
      ReadsAlike P left right spec := by
  unfold distanceValue ReadsAlike
  cases hmethod : spec.method with
  | dtwSequence =>
    rw [if_pos rfl, if_pos rfl, swap_iff]
    exact and_iff_left fun xs ys _ _ => by rw [dtw_comm]
  | gowerMixed =>
    rw [if_neg nofun, if_neg nofun, swap_iff]
    refine and_iff_left fun lvals rvals hlvals hrvals => ?_
    rw [staticDistance, staticDistance, hmethod]
    dsimp only
    rw [mapM_congr fun field _ => score_comm (isPlain_of_staticValues hlvals field)
      (isPlain_of_staticValues hrvals field)]
  | l1Typed | l2Typed =>
    rw [if_neg nofun, if_neg nofun, swap_iff]
    refine and_congr_right' (forall₄_congr fun lvals rvals _ _ => ?_)
    rw [staticDistance, staticDistance, hmethod]
    exact bind_weighted_comm_iff

/-! ## The document -/

theorem incompatibility_comm (left right : Representation) :
    incompatibility left right = incompatibility right left := by
  unfold incompatibility
  by_cases hdomain : left.comparabilityDomainId = right.comparabilityDomainId
  · by_cases hordering : left.orderingSemantics = right.orderingSemantics
    · simp [hdomain, hordering, or_comm]
    · simp [hdomain, hordering, Ne.symm hordering]
  · simp [hdomain, Ne.symm hdomain]

/-- Comparable records name one domain. -/
theorem domainText_comm {left right : Representation} (h : incompatibility left right = none) :
    domainText left right = domainText right left := by
  unfold incompatibility at h
  split_ifs at h with hdomain
  rw [domainText, domainText, not_not.mp hdomain]

theorem returns_pairId_iff (hne : left.representationId ≠ right.representationId) (domain : PyStr) :
    Returns (deterministicPairId P left.representationId right.representationId spec domain) ↔
      Writable P left right spec domain := by
  rw [deterministicPairId_eq hne, Writable]
  cases hhash : spec.logicalHash P with
  | error e => simp [Except.mapError, bind, Except.bind]
  | ok hash =>
    have henc : Encodable hash := by
      obtain ⟨s, -, rfl⟩ := map_ok.mp (mapError_ok.mp hhash)
      exact (P.sha256 s).encodable
    rw [and_iff_right (returns_ok hash), ← encodable_pairTexts henc]
    show Returns (if _ then _ else _) ↔ _
    split_ifs with h
    · exact iff_of_true (returns_ok _) h
    · exact iff_of_false (not_returns_error _) h

variable (P left right spec)

/-- **The order of two records is not seen**: they name one domain in both orders, and where they
are comparable their reads fail alike; or the pair has no id in either order. -/
def OrderFree : Prop :=
  domainText left right = domainText right left ∧
      (incompatibility left right = none →
        Writable P left right spec (domainText left right) → ReadsAlike P left right spec) ∨
    ¬ Writable P left right spec (domainText left right) ∧
      ¬ Writable P left right spec (domainText right left)

variable {P left right spec}

/-- **`compute_distance` is symmetric** iff the order of the records is not seen. -/
theorem computeDistance_comm_iff (hleft : left.representationId ≠ [])
    (hright : right.representationId ≠ [])
    (hne : left.representationId ≠ right.representationId)
    (hfree : P.CollisionFreeOn (IsPairText P left right spec)) :
    computeDistance P left right spec = computeDistance P right left spec ↔
      OrderFree P left right spec := by
  have hids := pairId_eq_iff hne hfree
  have hrets := @returns_pairId_iff P left right spec hne (domainText left right)
  unfold computeDistance
  rw [check, if_pos ⟨hleft, hright⟩, check, if_pos ⟨hright, hleft⟩,
    incompatibility_comm right left, OrderFree]
  dsimp only
  cases hreason : incompatibility left right with
  | some reason =>
    simp only [Option.isSome_some, if_true, reduceCtorEq, false_implies, and_true]
    rw [← hids]
    cases deterministicPairId P left.representationId right.representationId spec
        (domainText left right) <;>
      cases deterministicPairId P right.representationId left.representationId spec
        (domainText right left) <;>
      simp [bind, Except.bind, pure, Except.pure]
  | none =>
    have hdomain := domainText_comm hreason
    rw [← hids.mpr (.inl hdomain), ← hdomain]
    simp only [Option.isSome_none, Bool.false_eq_true, if_false, true_and, true_implies, and_self]
    cases hid : deterministicPairId P left.representationId right.representationId spec
        (domainText left right) with
    | error e =>
      rw [hid] at hrets
      have hnot : ¬ Writable P left right spec (domainText left right) :=
        fun h => not_returns_error e (hrets.mpr h)
      exact iff_of_true rfl (.inr hnot)
    | ok id =>
      have hwrit := hrets.mp ⟨id, hid⟩
      rw [← distanceValue_comm_iff]
      simp only [hwrit, true_implies, not_true, or_false]
      exact bind_congr_iff fun value => ⟨distanceValue_ok, distanceValue_ok⟩

end

/-! ### Concrete records -/

/-- A record with one field, a category. -/
def labelled (representationId domain label : PyStr) : Representation where
  representationId := representationId
  comparabilityDomainId := some domain
  orderingSemantics := none
  missingness := .none
  structuralRaw := .dict [(.str (py "label"), .str label)]
  structuralDerived := .none
  structuralNormalized := .none
  comparisonOnly := .none
  built := by
    have hraw : (PyVal.dict [(.str (py "label"), .str label)]).Built :=
      .dict (by simp) (by simpa using .str label)
    simpa using ⟨hraw, .none⟩
  setFree := by
    have hraw : (PyVal.dict [(.str (py "label"), .str label)]).SetFree :=
      .dict (by simpa using .str label)
    simpa using ⟨hraw, .none⟩

/-- A specification of the mixed distance by the label. -/
def byLabel : DistanceSpec where
  distanceSpecId := py "S"
  method := .gowerMixed
  fields := [py "label"]
  weights := none
  precisionPlaces := 2
  exact := true
  distanceSpecId_ne := by decide +kernel
  fields_ne := fun _ => cons_ne_nil _ _

/-- Two records of one domain have the same distance in both orders. -/
theorem sameDomain_comm : computeDistance .reference (labelled (py "a") (py "D") (py "x"))
        (labelled (py "b") (py "D") (py "y")) byLabel =
      computeDistance .reference (labelled (py "b") (py "D") (py "y"))
        (labelled (py "a") (py "D") (py "x")) byLabel := by
  have hfree : Platform.reference.CollisionFreeOn (IsPairText .reference
      (labelled (py "a") (py "D") (py "x")) (labelled (py "b") (py "D") (py "y")) byLabel) := by
    rintro _ _ ⟨hash, domain, hhash, hdomain, rfl⟩ ⟨hash', domain', hhash', hdomain', rfl⟩ -
    cases hhash.symm.trans hhash'
    have hone : ∀ d ∈ [domainText (labelled (py "a") (py "D") (py "x"))
        (labelled (py "b") (py "D") (py "y")), domainText (labelled (py "b") (py "D") (py "y"))
          (labelled (py "a") (py "D") (py "x"))], d = py "D" := by decide +kernel
    rw [hone domain hdomain, hone domain' hdomain']
  refine (computeDistance_comm_iff (by decide +kernel) (by decide +kernel) (by decide +kernel)
    hfree).mpr (.inl ⟨by decide +kernel, fun _ _ => ?_⟩)
  rintro ⟨e, -, herror, -⟩
  have hrets : Returns (staticValues (labelled (py "a") (py "D") (py "x"))
      byLabel.fields) := by decide +kernel
  rw [herror] at hrets
  exact not_returns_error e hrets

/-- **Two records of different domains**: each order has an id of its own. -/
theorem otherDomain_seen : py "a" ≠ py "b" ∧
      computeDistance .reference (labelled (py "a") (py "D") (py "x"))
          (labelled (py "b") (py "E") (py "x")) byLabel ≠
        computeDistance .reference (labelled (py "b") (py "E") (py "x"))
          (labelled (py "a") (py "D") (py "x")) byLabel := by
  decide +kernel

end OvcReplay.Srfd.Distance
