import OvcReplay.C2Vnext.Pivots

/-! # Pivots never repaint

A candidate depends on the observations up to the end of its window only, and later observations
come behind all of them; two confirmed anchors of one polarity never lie in the window of each
other. -/

namespace OvcReplay.C2Vnext

open List Python

namespace Level

variable (P : Platform)

/-! ## The window of a candidate -/

variable {policy : PivotPolicy} {polarity : Polarity} {anchor : PivotObservation} {index : Nat}

/-- What follows the end of its window does not change a candidate. -/
theorem candidateAt_append {items later : List PivotObservation}
    (h : index < policy.leftCount ∨ index + policy.rightCount < items.length) :
    candidateAt P policy polarity (items ++ later) index anchor =
      candidateAt P policy polarity items index anchor := by
  unfold candidateAt
  congr 1
  funext body
  by_cases hleft : index < policy.leftCount
  · rw [if_pos hleft, if_pos hleft]
  · have hright : index + policy.rightCount < items.length := h.resolve_left hleft
    have hlong : ¬ (items ++ later).length ≤ index + policy.rightCount := by
      rw [length_append]
      omega
    have hwin : windowAt policy (items ++ later) index = windowAt policy items index := by
      rw [windowAt, windowAt, drop_append_of_le_length (by omega),
        take_append_of_le_length]
      rw [length_drop]
      omega
    rw [if_neg hleft, if_neg hleft, if_neg hlong, if_neg (by omega), hwin]

variable {items : List PivotObservation}

/-- What a candidate is when its window is looked at. -/
theorem candidateAt_ok {c : Candidate}
    (h : candidateAt P policy polarity items index anchor = .ok c) :
    ∃ body, candidateBody P policy polarity anchor = .ok body ∧
      ((index < policy.leftCount ∧ c = body) ∨
      (¬ index < policy.leftCount ∧ items.length ≤ index + policy.rightCount ∧
        c = { body with reason := .rightConfirmationUnavailable }) ∨
      (policy.leftCount ≤ index ∧ index + policy.rightCount < items.length ∧
        judge P polarity (windowAt policy items index) body = .ok c)) := by
  obtain ⟨body, hbody, h⟩ := bind_ok.mp h
  refine ⟨body, hbody, ?_⟩
  split_ifs at h with hleft hright
  · exact .inl ⟨hleft, (Except.ok.inj h).symm⟩
  · exact .inr (.inl ⟨hleft, hright, (Except.ok.inj h).symm⟩)
  · exact .inr (.inr ⟨by omega, by omega, h⟩)

/-- A body is censored and names its anchor. -/
theorem candidateBody_ok {body : Candidate}
    (h : candidateBody P policy polarity anchor = .ok body) :
    body.anchorObservationId = anchor.observationId ∧ body.status = .censoredConfirmation ∧
      price P polarity anchor = .ok body.anchorPrice := by
  simp only [candidateBody, bind_ok, pure_ok] at h
  obtain ⟨candidateId, -, anchorPrice, hprice, rfl⟩ := h
  exact ⟨rfl, rfl, hprice⟩

/-- **What a confirmed candidate says of its window**: it is valid from the last observation on, its
price is the extreme, and no two members have this price. -/
theorem judge_ok_of_unique {window : List PivotObservation} {body c : Candidate}
    (hbody : body.status = .censoredConfirmation) (h : judge P polarity window body = .ok c)
    (hunique : c.status = .uniqueConfirmed) :
    c.firstValidTime = window.getLast?.map PivotObservation.firstValidTime ∧
      ∃ prices extreme, window.mapM (price P polarity) = .ok prices ∧
        extremeOf polarity prices = .ok extreme ∧ body.anchorPrice.eq extreme = true ∧
        ((window.zip prices).filter fun p => p.2.eq extreme).length ≤ 1 := by
  have hcens : ∀ reason, Except.ok { body with
      memberObservationIds := window.map PivotObservation.observationId, reason } ≠
      (.ok c : Except Error Candidate) := by
    rintro reason heq
    rw [← Except.ok.inj heq, hbody] at hunique
    cases hunique
  unfold judge at h
  dsimp only at h
  split at h
  · exact absurd h (hcens _)
  · split at h
    · exact absurd h (hcens _)
    · simp only [bind_ok] at h
      obtain ⟨prices, hprices, extreme, hextreme, h⟩ := h
      split_ifs at h with hanchor hties
      · cases h
        cases hunique
      · cases h
        cases hunique
      · cases h
        refine ⟨rfl, prices, extreme, hprices, hextreme, by simpa using hanchor, ?_⟩
        simpa using hties

/-! ## The order of the observations -/

/-- The observations with their instants, as the sort sees them. -/
def timed (o : PivotObservation) : Except Error (Instant × PivotObservation) :=
  (parse P o.firstValidTime).map fun t => (t, o)

variable {observations : List PivotObservation}

theorem mapM_timed {times : List Instant}
    (h : (observations.mapM fun o => parse P o.firstValidTime) = .ok times) :
    observations.mapM (timed P) = .ok (times.zip observations) := by
  rw [mapM_ok_iff] at h ⊢
  induction h with
  | nil => exact .nil
  | cons ho _ ih => exact .cons (by rw [timed, ho]; rfl) ih

theorem pivotItems_ok {observations items : List PivotObservation}
    (h : pivotItems P observations = .ok items) :
    ∃ keyed, observations.mapM (timed P) = .ok keyed ∧
      items = (sortedBy (fun p : Instant × PivotObservation => toLex (p.1, p.2.observationId))
        keyed).map Prod.snd ∧ (items.map (·.observationId)).Nodup := by
  simp only [pivotItems, bind_ok, require, check_ok, pure_ok] at h
  obtain ⟨times, htimes, -, hnd, rfl⟩ := h
  exact ⟨_, mapM_timed P htimes, rfl, hnd⟩

/-- Every one of `later` is valid strictly later than every one of `base`. -/
def ValidLater (base later : List PivotObservation) : Prop :=
  ∀ o ∈ base, ∀ o' ∈ later, ∀ t t', parse P o.firstValidTime = .ok t →
    parse P o'.firstValidTime = .ok t' → t < t'

/-- **Later observations come behind the others**, whatever order they are given in. -/
theorem pivotItems_append {base later full items items' : List PivotObservation}
    (hperm : full.Perm (base ++ later)) (hlater : ValidLater P base later)
    (h : pivotItems P base = .ok items) (h' : pivotItems P full = .ok items') :
    ∃ rest, items' = items ++ rest := by
  obtain ⟨keyed, hkeyed, rfl, -⟩ := pivotItems_ok P h
  obtain ⟨keyed', hkeyed', rfl, hnd⟩ := pivotItems_ok P h'
  obtain ⟨keyedLater, hkeyedLater⟩ : Returns (later.mapM (timed P)) := by
    refine returns_mapM.mpr fun o ho => ?_
    obtain ⟨p, -, hp⟩ := mem_of_mapM_left hkeyed'
      (hperm.mem_iff.mpr (mem_append_right _ ho))
    exact ⟨p, hp⟩
  have hkeyedPerm := perm_of_mapM hperm hkeyed' (mapM_append_ok hkeyed hkeyedLater)
  have hinj : ∀ a ∈ keyed', ∀ b ∈ keyed',
      toLex (a.1, a.2.observationId) = toLex (b.1, b.2.observationId) → a = b := by
    have hids : (keyed'.map fun p => p.2.observationId).Nodup := by
      rw [map_map] at hnd
      exact ((sortedBy_perm _ keyed').map _).nodup_iff.mp hnd
    intro a ha b hb hab
    exact inj_on_of_nodup_map hids ha hb (congrArg (fun k => (ofLex k).2) hab)
  rw [sortedBy_eq_of_perm hinj hkeyedPerm, sortedBy_append, map_append]
  · exact ⟨_, rfl⟩
  · intro a ha b hb
    obtain ⟨o, ho, hoa⟩ := mem_of_mapM_right hkeyed ha
    obtain ⟨o', ho', hob⟩ := mem_of_mapM_right hkeyedLater hb
    obtain ⟨t, ht, rfl⟩ := map_ok.mp hoa
    obtain ⟨t', ht', rfl⟩ := map_ok.mp hob
    exact (Prod.Lex.toLex_le_toLex).mpr (.inl (hlater o ho o' ho' t t' ht ht'))

/-! ## The candidates, position by position -/

/-- The candidate at a position is that of the anchor at this position. -/
theorem detectPivotCandidates_ok {candidates : List Candidate}
    (h : detectPivotCandidates P policy polarity observations = .ok candidates) :
    ∃ items, pivotItems P observations = .ok items ∧ candidates.length = items.length ∧
      ∀ i anchor c, items[i]? = some anchor → candidates[i]? = some c →
        candidateAt P policy polarity items i anchor = .ok c := by
  obtain ⟨items, hitems, h⟩ := bind_ok.mp h
  rw [mapM_ok_iff, forall₂_iff_get] at h
  obtain ⟨hlen, hget⟩ := h
  rw [length_zipIdx] at hlen
  refine ⟨items, hitems, hlen.symm, ?_⟩
  intro i anchor c hanchor hc
  obtain ⟨hi, rfl⟩ := List.getElem?_eq_some_iff.mp hanchor
  obtain ⟨hi', rfl⟩ := List.getElem?_eq_some_iff.mp hc
  have := hget i (by simpa using hi) hi'
  simpa using this

/-! ## Confirmed anchors -/

/-- Two elements with a property, at two positions. -/
theorem two_le_length_filter {α : Type*} (p : α → Bool) {xs : List α} {i j : Nat} {x y : α}
    (hij : i < j) (hx : xs[i]? = some x) (hy : xs[j]? = some y) (hpx : p x = true)
    (hpy : p y = true) : 2 ≤ (xs.filter p).length := by
  have hi : x ∈ xs.take j := by
    refine mem_of_getElem? (i := i) ?_
    rw [getElem?_take_of_lt hij]
    exact hx
  have hj : y ∈ xs.drop j := by
    refine mem_of_getElem? (i := 0) ?_
    rw [getElem?_drop]
    exact hy
  rw [← take_append_drop j xs, filter_append, length_append]
  have h₁ := length_pos_of_mem (mem_filter.mpr ⟨hi, hpx⟩)
  have h₂ := length_pos_of_mem (mem_filter.mpr ⟨hj, hpy⟩)
  omega

theorem getElem?_windowAt {index k : Nat} (hk : k ≤ policy.leftCount + policy.rightCount) :
    (windowAt policy items index)[k]? = items[index - policy.leftCount + k]? := by
  rw [windowAt, getElem?_take_of_lt (by omega), getElem?_drop]

/-- The last observation of a window. -/
theorem getLast?_windowAt (hleft : policy.leftCount ≤ index)
    (hright : index + policy.rightCount < items.length) :
    (windowAt policy items index).getLast? = items[index + policy.rightCount]? := by
  have hlen : (windowAt policy items index).length =
      policy.leftCount + policy.rightCount + 1 := by
    rw [windowAt, length_take, length_drop]
    omega
  rw [getLast?_eq_getElem?, hlen, Nat.add_sub_cancel, getElem?_windowAt le_rfl]
  congr 1
  omega

/-- A confirmed anchor at a position of the observations. -/
structure ConfirmedAt (policy : PivotPolicy) (polarity : Polarity) (items : List PivotObservation)
    (index : Nat) (c : Candidate) : Prop where
  left : policy.leftCount ≤ index
  right : index + policy.rightCount < items.length
  firstValid : c.firstValidTime =
    (items[index + policy.rightCount]?).map PivotObservation.firstValidTime
  /-- The anchor has a price, which is the extreme of the window, and the price of no other member
  is equal to it. -/
  dominates : ∃ anchor x v, items[index]? = some anchor ∧ price P polarity anchor = .ok x ∧
    x.value = some v ∧ ∀ j o, j ≠ index → index - policy.leftCount ≤ j →
      j ≤ index + policy.rightCount → items[j]? = some o → ∃ y, price P polarity o = .ok y ∧
        ∀ w, y.value = some w → w ≠ v ∧ ¬ PyFloat.Exceeds (polarity = .low) v w

/-- **A candidate with the unique status is confirmed by its window.** -/
theorem confirmedAt_of_unique {c : Candidate} (hanchor : items[index]? = some anchor)
    (h : candidateAt P policy polarity items index anchor = .ok c)
    (hunique : c.status = .uniqueConfirmed) : ConfirmedAt P policy polarity items index c := by
  obtain ⟨body, hbody, h⟩ := candidateAt_ok P h
  obtain ⟨-, hcens, hprice⟩ := candidateBody_ok P hbody
  rcases h with ⟨-, rfl⟩ | ⟨-, -, rfl⟩ | ⟨hleft, hright, hjudge⟩
  · rw [hcens] at hunique
    cases hunique
  · rw [show body.status = .uniqueConfirmed from hunique] at hcens
    cases hcens
  obtain ⟨hfst, prices, extreme, hprices, hextreme, hanchorEq, hties⟩ :=
    judge_ok_of_unique P hcens hjudge hunique
  refine ⟨hleft, hright, by rw [hfst, getLast?_windowAt hleft hright], ?_⟩
  obtain ⟨v, hvx, hve⟩ := PyFloat.eq_iff.mp hanchorEq
  refine ⟨anchor, body.anchorPrice, v, hanchor, hprice, hvx, ?_⟩
  obtain ⟨hlen, hget⟩ := forall₂_iff_get.mp (mapM_ok_iff.mp hprices)
  -- the members of the window with their prices
  have hmember : ∀ j o, index - policy.leftCount ≤ j → j ≤ index + policy.rightCount →
      items[j]? = some o → ∃ y, price P polarity o = .ok y ∧ y ∈ prices ∧
        ((windowAt policy items index).zip prices)[j - (index - policy.leftCount)]? =
          some (o, y) := by
    intro j o hlow hhigh ho
    have hwin : (windowAt policy items index)[j - (index - policy.leftCount)]? = some o := by
      rw [getElem?_windowAt (by omega), ← ho]
      congr 1
      omega
    obtain ⟨hk, hget₁⟩ := List.getElem?_eq_some_iff.mp hwin
    have hk' : j - (index - policy.leftCount) < prices.length := by omega
    refine ⟨prices[j - (index - policy.leftCount)], ?_, getElem_mem hk', ?_⟩
    · have := hget _ hk hk'
      rw [← hget₁]
      exact this
    · rw [List.getElem?_zip_eq_some]
      exact ⟨hwin, List.getElem?_eq_getElem hk'⟩
  intro j o hne hlow hhigh ho
  obtain ⟨y, hy, hmem, hzip⟩ := hmember j o hlow hhigh ho
  refine ⟨y, hy, fun w hw => ⟨?_, ?_⟩⟩
  · -- a second member of this price would be a tie
    rintro rfl
    obtain ⟨x, hx, -, hzip'⟩ := hmember index anchor (by omega) (by omega) hanchor
    cases hprice.symm.trans hx
    have hyeq : y.eq extreme = true := PyFloat.eq_iff.mpr ⟨w, hw, hve⟩
    rcases Nat.lt_or_gt_of_ne hne with hlt | hlt
    · have := two_le_length_filter (fun p => p.2.eq extreme) (by omega) hzip hzip'
        hyeq hanchorEq
      omega
    · have := two_le_length_filter (fun p => p.2.eq extreme) (by omega) hzip' hzip
        hanchorEq hyeq
      omega
  · cases prices with
    | nil => simp at hmem
    | cons z zs =>
      cases hextreme
      exact PyFloat.not_exceeds_best hve hmem hw

/-- Two confirmed anchors do not lie in the windows of each other. -/
theorem ConfirmedAt.lt_sub {i j : Nat} {c d : Candidate}
    (hi : ConfirmedAt P policy polarity items i c) (hj : ConfirmedAt P policy polarity items j d)
    (hij : i < j) : min policy.leftCount policy.rightCount < j - i := by
  by_contra hclose
  obtain ⟨a, x, v, ha, hx, hxv, hdom⟩ := hi.dominates
  obtain ⟨b, y, w, hb, hy, hyw, hdom'⟩ := hj.dominates
  have hi' := hi.left
  have hj' := hj.left
  obtain ⟨y', hy', hyv⟩ := hdom j b (by omega) (by omega) (by omega) hb
  obtain ⟨x', hx', hxw⟩ := hdom' i a (by omega) (by omega) (by omega) ha
  cases hy.symm.trans hy'
  cases hx.symm.trans hx'
  obtain ⟨hne, hle⟩ := hyv w hyw
  exact hne (PyFloat.eq_of_not_exceeds (hxw v hxv).2 hle)

/-! ## No repainting -/

/-- **Pivots never repaint**: with later observations every candidate that was decided stays what it
was; a confirmed candidate is valid from the last observation of its window on, and so is its level;
and two confirmed anchors are more than the smaller of the two counts apart. -/
theorem pivots_never_repaint {policy : PivotPolicy} {polarity : Polarity}
    {base later full : List PivotObservation} {candidates candidates' : List Candidate}
    (hperm : full.Perm (base ++ later)) (hlater : ValidLater P base later)
    (h : detectPivotCandidates P policy polarity base = .ok candidates)
    (h' : detectPivotCandidates P policy polarity full = .ok candidates') :
    (∀ (i : Nat) (c : Candidate), candidates[i]? = some c → c.reason ≠ .rightConfirmationUnavailable →
      candidates'[i]? = some c) ∧
    ∃ items, pivotItems P base = .ok items ∧ candidates.length = items.length ∧
      (∀ (i : Nat) (c : Candidate), candidates[i]? = some c → c.status = .uniqueConfirmed →
        ∃ o, items[i + policy.rightCount]? = some o ∧ c.firstValidTime = some o.firstValidTime ∧
          ∀ level, buildConfirmedPivotLevel P c = .ok level →
            ∃ t, parse P o.firstValidTime = .ok t ∧ level.firstValidTime = iso P t) ∧
      ∀ (i j : Nat) (c d : Candidate), i < j → candidates[i]? = some c → candidates[j]? = some d →
        c.status = .uniqueConfirmed → d.status = .uniqueConfirmed →
        min policy.leftCount policy.rightCount < j - i := by
  obtain ⟨items, hitems, hlen, hcand⟩ := detectPivotCandidates_ok P h
  obtain ⟨items', hitems', hlen', hcand'⟩ := detectPivotCandidates_ok P h'
  obtain ⟨rest, rfl⟩ := pivotItems_append P hperm hlater hitems hitems'
  have hanchor : ∀ (i : Nat) (c : Candidate), candidates[i]? = some c → ∃ anchor,
    items[i]? = some anchor ∧
      candidateAt P policy polarity items i anchor = .ok c := by
    intro i c hc
    obtain ⟨hi, -⟩ := List.getElem?_eq_some_iff.mp hc
    rw [hlen] at hi
    exact ⟨items[i], List.getElem?_eq_getElem hi, hcand i _ c (List.getElem?_eq_getElem hi) hc⟩
  refine ⟨?_, items, hitems, hlen, ?_, ?_⟩
  · intro i c hc hdecided
    obtain ⟨anchor, ha, hat⟩ := hanchor i c hc
    obtain ⟨hi, -⟩ := List.getElem?_eq_some_iff.mp ha
    have hi' : i < candidates'.length := by
      rw [hlen', length_append]
      omega
    have hat' := hcand' i anchor candidates'[i] (by rw [List.getElem?_append_left hi]; exact ha)
      (List.getElem?_eq_getElem hi')
    rw [candidateAt_append, hat] at hat'
    · rw [List.getElem?_eq_getElem hi', Except.ok.inj hat']
    · obtain ⟨body, -, hcases⟩ := candidateAt_ok P hat
      rcases hcases with ⟨hleft, -⟩ | ⟨-, -, rfl⟩ | ⟨-, hright, -⟩
      · exact .inl hleft
      · exact absurd rfl hdecided
      · exact .inr hright
  · intro i c hc hunique
    obtain ⟨anchor, ha, hat⟩ := hanchor i c hc
    have hconfirmed := confirmedAt_of_unique P ha hat hunique
    have hfst := hconfirmed.firstValid
    rw [List.getElem?_eq_getElem hconfirmed.right] at hfst
    refine ⟨_, List.getElem?_eq_getElem hconfirmed.right, hfst, ?_⟩
    intro level hlevel
    simp only [buildConfirmedPivotLevel, bind_ok, hfst, Option.map_some] at hlevel
    obtain ⟨-, -, lineageId, -, instrument, -, side, -, hlevel⟩ := hlevel
    simp only [definitionBase, bind_ok, pure_ok] at hlevel
    obtain ⟨-, -, -, -, -, -, levelId, -, t, ht, anchorTime, -, hash, -, rfl⟩ := hlevel
    exact ⟨t, ht, rfl⟩
  · intro i j c d hij hc hd hcu hdu
    obtain ⟨a, ha, hac⟩ := hanchor i c hc
    obtain ⟨b, hb, hbd⟩ := hanchor j d hd
    exact (confirmedAt_of_unique P ha hac hcu).lt_sub P (confirmedAt_of_unique P hb hbd hdu) hij

/-! ## A concrete sequence -/

/-- One observation on the left and one on the right. -/
def samplePolicy : PivotPolicy :=
  { policyId := py "PIVOT.1L1R", leftCount := 1, rightCount := 1, clockId := py "CLOCK"
    structuralDepth := py "S0", generationMethod := py "RAW_OBSERVATION_PIVOT"
    leftCount_pos := by decide, rightCount_pos := by decide
    structuralDepth_mem := by decide, generationMethod_mem := by decide }

/-- An observation of an hour of a day, with its high. -/
def sampleObservation (hour : String) (high : Int) : PivotObservation :=
  { observationId := py hour, firstValidTime := py ("2026-01-05T" ++ hour ++ ":00:00Z")
    intervalEnd := none, high := some (.int high), low := none, eligible := true
    segmentId := some (py "S"), instrument := .none, side := .none, releaseId := .none }

/-- A high of three that an hour with a higher one follows. -/
theorem pivots_never_repaint_four : ∃ candidates candidates',
    detectPivotCandidates .reference samplePolicy .high
      [sampleObservation "01" 1, sampleObservation "02" 3, sampleObservation "03" 2] =
        .ok candidates ∧
    detectPivotCandidates .reference samplePolicy .high
      [sampleObservation "01" 1, sampleObservation "02" 3, sampleObservation "03" 2,
        sampleObservation "04" 4] = .ok candidates' ∧
    ∀ (i : Nat) (c : Candidate), candidates[i]? = some c →
      c.reason ≠ .rightConfirmationUnavailable → candidates'[i]? = some c := by
  have hret : Returns (detectPivotCandidates .reference samplePolicy .high
      [sampleObservation "01" 1, sampleObservation "02" 3, sampleObservation "03" 2]) := by
    decide +kernel
  have hret' : Returns (detectPivotCandidates .reference samplePolicy .high
      [sampleObservation "01" 1, sampleObservation "02" 3, sampleObservation "03" 2,
        sampleObservation "04" 4]) := by
    decide +kernel
  have hlater : ∀ o ∈ [sampleObservation "01" 1, sampleObservation "02" 3,
      sampleObservation "03" 2], ∀ o' ∈ [sampleObservation "04" 4],
      ((parse .reference o.firstValidTime).toOption.any fun t =>
        (parse .reference o'.firstValidTime).toOption.any fun t' => decide (t < t')) = true := by
    decide +kernel
  obtain ⟨candidates, h⟩ := hret
  obtain ⟨candidates', h'⟩ := hret'
  refine ⟨candidates, candidates', h, h', (pivots_never_repaint .reference (.refl _) ?_ h h').1⟩
  intro o ho o' ho' t t' ht ht'
  simpa [ht, ht', Except.toOption] using hlater o ho o' ho'

end Level

end OvcReplay.C2Vnext
