import OvcReplay.C2Vnext.ScopeRequests
import OvcReplay.Json.Parse
import OvcReplay.Lists.Runs

/-! # The windows of scope requests

The segments of the scan are the maximal runs of complete, contiguous bars, so a window in one
segment is a chain of such bars; later bars change no request of an earlier one. -/

namespace OvcReplay.C2Vnext

open List Python OvcReplay.Lists

namespace Bar

variable (P : Platform)

/-! ## Segments are runs -/

/-- The second bar starts where the first ends. -/
def Contiguous (a b : Bar) : Prop := a.endUtc = b.startUtc

instance : DecidableRel Contiguous := fun _ _ => inferInstanceAs (Decidable (_ = _))

/-- The text of the run of a bar. -/
def runText (bar : Bar) : Option (Run Bar) → PyStr
  | none => py "NONE"
  | some run => segmentText bar ((run.ordinal : Int) - 1)

/-- The variables of the scan are those of the runs. -/
structure Tracks (s : SegmentState) (r : RunState Bar) : Prop where
  segment : s.segment = (r.count : Int) - 1
  previous : s.previousEnd = r.last.map fun p => p.1.endUtc
  latest : ∀ p run, r.last = some (p, run) → run.ordinal = r.count

theorem tracks_init : Tracks ⟨-1, none, 0⟩ .init :=
  ⟨rfl, rfl, by rintro p run ⟨⟩⟩

/-- **One bar of the scan is one step of the runs**, and the segment of its run is stored. -/
theorem Tracks.visit {s : SegmentState} {r : RunState Bar} (h : Tracks s r) (bar : Bar) :
    (s.visit bar).1.1 = runText bar (r.step Complete Contiguous bar).run ∧
      Tracks (s.visit bar).2 (r.step Complete Contiguous bar) := by
  rcases RunState.step_cases Complete Contiguous r bar with
    ⟨hn, heq⟩ | ⟨p, run, hcompl, hlast, hj, heq⟩ | ⟨hcompl, hj, heq⟩
  · rw [heq, SegmentState.visit, if_pos hn]
    exact ⟨rfl, h.segment, rfl, by rintro p run ⟨⟩⟩
  · have hend : s.previousEnd = some bar.startUtc := by
      rw [h.previous, hlast]
      exact congrArg some hj
    rw [heq, SegmentState.visit, if_neg (not_not.mpr hcompl), if_pos hend]
    refine ⟨?_, h.segment, rfl, ?_⟩
    · change segmentText bar s.segment = segmentText bar ((run.ordinal : Int) - 1)
      rw [h.segment, h.latest p run hlast]
    · rintro p' run' ⟨⟩
      exact h.latest p run hlast
  · have hend : s.previousEnd ≠ some bar.startUtc := by
      rw [h.previous]
      intro heq'
      obtain ⟨⟨p, run⟩, hlast, hp⟩ := Option.map_eq_some_iff.mp heq'
      exact hj p run hlast hp
    rw [heq, SegmentState.visit, if_neg (not_not.mpr hcompl), if_neg hend]
    refine ⟨?_, ?_, rfl, ?_⟩
    · change segmentText bar (s.segment + 1) = segmentText bar (((r.count + 1 : Nat) : Int) - 1)
      rw [h.segment]
      congr 1
      push_cast
      omega
    · change s.segment + 1 = ((r.count + 1 : Nat) : Int) - 1
      rw [h.segment]
      push_cast
      omega
    · rintro p' run' ⟨⟩
      rfl

/-- What the scan stores for a bar is the segment of its run. -/
theorem mem_scanSegments {s : SegmentState} {r : RunState Bar} (h : Tracks s r)
    (pre post : List Bar) (bar : Bar) :
    ∃ offset, (bar.startUtc,
      (runText bar (r.after Complete Contiguous (pre ++ [bar])).run, offset)) ∈
        scanSegments s (pre ++ bar :: post) := by
  induction pre generalizing s r with
  | nil =>
    refine ⟨(s.visit bar).1.2, ?_⟩
    change (_, (runText bar (r.step Complete Contiguous bar).run, _)) ∈ _
    rw [← (h.visit bar).1]
    exact mem_cons_self ..
  | cons b pre ih =>
    obtain ⟨offset, hmem⟩ := ih (h.visit b).2
    exact ⟨offset, mem_cons_of_mem _ hmem⟩

theorem map_fst_scanSegments (s : SegmentState) (bars : List Bar) :
    (scanSegments s bars).map Prod.fst = bars.map (·.startUtc) := by
  induction bars generalizing s with
  | nil => rfl
  | cons bar bars ih => rw [scanSegments, map_cons, map_cons, ih]

theorem scanSegments_append (s : SegmentState) (bars later : List Bar) :
    ∃ s', scanSegments s (bars ++ later) = scanSegments s bars ++ scanSegments s' later := by
  induction bars generalizing s with
  | nil => exact ⟨s, rfl⟩
  | cons bar bars ih =>
    obtain ⟨s', h⟩ := ih (s.visit bar).2
    exact ⟨s', by rw [cons_append, scanSegments, h]; rfl⟩

theorem inOrder_inOrder (bars : List Bar) : inOrder (inOrder bars) = inOrder bars :=
  sortedBy_eq_self (sortedBy_pairwise _ bars)

/-- With distinct starts the segment of a bar is that of its run. -/
theorem segmentAt_eq {bars pre post : List Bar} {bar : Bar}
    (hdist : (bars.map (·.startUtc)).Nodup) (hsplit : inOrder bars = pre ++ bar :: post) :
    (segmentAt (segmentMap (inOrder bars)) bar).1 =
      runText bar (RunState.init.after Complete Contiguous (pre ++ [bar])).run := by
  obtain ⟨offset, hmem⟩ := mem_scanSegments tracks_init pre post bar
  have hkeys : ((scanSegments ⟨-1, none, 0⟩ (inOrder bars)).map Prod.fst).Nodup := by
    rw [map_fst_scanSegments]
    exact ((sortedBy_perm _ bars).map _).nodup_iff.mpr hdist
  rw [← hsplit] at hmem
  rw [segmentAt, segmentMap, inOrder_inOrder, Dict.get?_ofItems_of_mem hkeys hmem]
  rfl

/-! ## The texts of segments -/

theorem digitsValue_replicate_append (k : Nat) (s : PyStr) :
    Json.digitsValue (List.replicate k (hexDigit 0) ++ s) = Json.digitsValue s := by
  induction k with
  | zero => rfl
  | succ k ih => exact ih

theorem padded_injective {width n m : Nat}
    (h : Reference.padded width n = Reference.padded width m) : n = m := by
  have hval : ∀ k, Json.digitsValue (Reference.padded width k) = k := by
    intro k
    rw [Reference.padded, digitsValue_replicate_append, Json.digitsValue_natText]
  rw [← hval n, h, hval m]

/-- All bars are of one clock and side. -/
def OneScope (bars : List Bar) : Prop :=
  ∀ a ∈ bars, ∀ b ∈ bars, a.clock = b.clock ∧ a.side = b.side

/-- In one scope the texts of two runs agree iff their numbers do. -/
theorem runText_eq_iff {a b : Bar} (hscope : a.clock = b.clock ∧ a.side = b.side) {r r' : Run Bar}
    (hr : 0 < r.ordinal) (hr' : 0 < r'.ordinal) :
    runText a (some r) = runText b (some r') ↔ r.ordinal = r'.ordinal := by
  rw [runText, runText, segmentText, segmentText, hscope.1, hscope.2]
  constructor
  · intro h
    have := padded_injective (append_cancel_left h)
    omega
  · intro h
    rw [h]

/-- No segment is called `NONE`. -/
theorem runText_ne_none (bar : Bar) (r : Run Bar) : runText bar (some r) ≠ py "NONE" := by
  intro h
  rw [runText, segmentText, append_assoc, append_assoc, append_assoc] at h
  have hhead := congrArg (fun s => (s.map Fin.val).head?) h
  have hleft : ((py "SEGMENT.").map Fin.val).head? = some 83 := by decide +kernel
  have hright : ((py "NONE").map Fin.val).head? = some 78 := by decide +kernel
  simp only [map_append, head?_append, hleft, hright] at hhead
  simp at hhead

/-! ## Windows -/

/-- The bars at a position and before it, `length` of them, are complete and contiguous. -/
def ConsecutiveAt (ordered : List Bar) (index : Nat) (length : Int) : Prop :=
  ∃ window, window <:+ ordered.take (index + 1) ∧ (window.length : Int) = length ∧
    (∀ bar ∈ window, bar.Complete) ∧ IsChain Contiguous window

variable {length : Int}

variable {current : Bar} {index : Nat} {scope : Scope} {ordered : List Bar}

/-- A window in one segment is an unbroken chain of complete bars. -/
theorem sameSegment_iff {bars pre xs post : List Bar} {x : Bar}
    (hdist : (bars.map (·.startUtc)).Nodup) (hscope : OneScope bars)
    (hsplit : inOrder bars = pre ++ x :: xs ++ post) (hlast : (x :: xs).getLast? = some current)
    (hlen : ((x :: xs).length : Int) = length) :
    sameSegment (segmentMap (inOrder bars)) current (x :: xs) length ↔
      (∀ bar ∈ x :: xs, bar.Complete) ∧ IsChain Contiguous (x :: xs) := by
  have hmem : ∀ b ∈ x :: xs, b ∈ bars := by
    intro b hb
    refine mem_sortedBy.mp (show b ∈ inOrder bars from ?_)
    rw [hsplit]
    simp only [mem_append]
    exact .inl (.inr hb)
  -- the segment of a bar of the window is that of its run
  have hseg : ∀ ys b zs, x :: xs = ys ++ b :: zs →
      (segmentAt (segmentMap (inOrder bars)) b).1 =
        runText b (RunState.init.after Complete Contiguous (pre ++ (ys ++ [b]))).run := by
    intro ys b zs heq
    rw [← append_assoc]
    have hsplit' : inOrder bars = (pre ++ ys) ++ b :: (zs ++ post) := by
      rw [hsplit, heq]
      simp
    exact segmentAt_eq hdist hsplit'
  obtain ⟨ys, hys⟩ : ∃ ys, x :: xs = ys ++ [current] := by
    obtain ⟨ys, hys⟩ := getLast?_eq_some_iff.mp hlast
    exact ⟨ys, hys⟩
  have hcurrentMem : current ∈ x :: xs := by
    rw [hys]
    simp
  constructor
  · rintro ⟨hcompl, -, -, hsame⟩
    obtain ⟨r, hr⟩ := RunState.exists_run_of_live Contiguous (pre ++ ys) hcompl
    rw [append_assoc] at hr
    have hcur := hseg ys current [] hys
    rw [hr] at hcur
    have hx := hsame x (by simp)
    have hfst := hseg [] x xs rfl
    rw [nil_append] at hfst
    by_cases hxc : x.Complete
    · obtain ⟨r', hr'⟩ := RunState.exists_run_of_live Contiguous pre hxc
      rw [hr'] at hfst
      have hopened := RunState.opened_of_run hr
      have hopened' := RunState.opened_of_run hr'
      have hord : r.ordinal = r'.ordinal := by
        refine ((runText_eq_iff (hscope _ (hmem x (by simp)) _ (hmem _ hcurrentMem))
          hopened'.2.1 hopened.2.1).mp ?_).symm
        rw [← hfst, ← hcur, hx]
      have hthrough : pre ++ (ys ++ [current]) = pre ++ [x] ++ xs := by
        rw [← hys]
        simp
      rw [hthrough] at hr
      obtain ⟨hlive, hchain⟩ := (RunState.ordinal_eq_iff hxc hr' hr).mp hord
      exact ⟨forall_mem_cons.mpr ⟨hxc, hlive⟩, hchain⟩
    · rw [RunState.run_of_not_live pre hxc] at hfst
      rw [hfst, hcur] at hx
      exact absurd hx.symm (runText_ne_none current r)
  · rintro ⟨hlive, hchain⟩
    have hxc := hlive x (by simp)
    obtain ⟨r', hr'⟩ := RunState.exists_run_of_live Contiguous pre hxc
    -- every bar of the window is in the run of the first
    have hrun : ∀ ys b zs, x :: xs = ys ++ b :: zs →
        (RunState.init.after Complete Contiguous (pre ++ (ys ++ [b]))).run = some r' := by
      intro ys b zs heq
      cases ys with
      | nil =>
        obtain ⟨rfl, -⟩ := List.cons.inj heq
        exact hr'
      | cons y ys =>
        obtain ⟨rfl, hxs⟩ := List.cons.inj heq
        have hb : b.Complete := hlive b (by rw [heq]; simp)
        obtain ⟨r, hr⟩ := RunState.exists_run_of_live Contiguous (pre ++ (x :: ys)) hb
        have hthrough : pre ++ x :: ys ++ [b] = pre ++ [x] ++ (ys ++ [b]) := by simp
        rw [hthrough] at hr
        have hpre : (x :: (ys ++ [b])) <+: x :: xs := by
          rw [hxs]
          exact ⟨zs, by simp⟩
        have hord := (RunState.ordinal_eq_iff hxc hr' hr).mpr
          ⟨fun z hz => hlive z (hpre.subset (mem_cons_of_mem _ hz)),
            hchain.prefix hpre⟩
        have heq' := RunState.run_eq_of_ordinal_eq hxc hr' hr hord
        have hthrough' : pre ++ (x :: ys ++ [b]) = pre ++ [x] ++ (ys ++ [b]) := by simp
        rw [hthrough', hr, heq']
    have htext : ∀ b ∈ x :: xs, (segmentAt (segmentMap (inOrder bars)) b).1 =
        runText b (some r') := by
      intro b hb
      obtain ⟨ys, zs, heq⟩ := append_of_mem hb
      rw [hseg ys b zs heq, hrun ys b zs heq]
    refine ⟨hlive current hcurrentMem, hlen, ?_, ?_⟩
    · rw [htext current hcurrentMem]
      exact runText_ne_none current r'
    · intro item hitem
      have hopened := RunState.opened_of_run hr'
      rw [htext item hitem, htext current hcurrentMem]
      exact (runText_eq_iff (hscope _ (hmem _ hitem) _ (hmem _ hcurrentMem)) hopened.2.1
        hopened.2.1).mpr rfl

/-- **A full window is in one segment iff the bars up to the target are consecutive.** -/
theorem sameSegment_windowOf_iff {bars : List Bar}
    (hdist : (bars.map (·.startUtc)).Nodup) (hscope : OneScope bars)
    (hcur : (inOrder bars)[index]? = some current) (hlen : 0 < length) :
    sameSegment (segmentMap (inOrder bars)) current (windowOf (inOrder bars) index length) length ↔
      ConsecutiveAt (inOrder bars) index length := by
  obtain ⟨hix, hget⟩ := List.getElem?_eq_some_iff.mp hcur
  have htake : ((inOrder bars).take (index + 1)).length = index + 1 := by
    rw [length_take]
    omega
  have hlastTake : ((inOrder bars).take (index + 1)).getLast? = some current := by
    rw [List.getLast?_eq_getElem?, htake, Nat.add_sub_cancel,
      List.getElem?_take_of_lt (Nat.lt_succ_self _)]
    exact hcur
  have hwindowLength : (windowOf (inOrder bars) index length).length =
      index + 1 - (max 0 (index - length + 1)).toNat := by
    rw [windowOf, length_drop, htake]
  by_cases hfull : length ≤ index + 1
  · -- the window is the suffix of this length
    have hwin : ((windowOf (inOrder bars) index length).length : Int) = length := by
      rw [hwindowLength]
      omega
    have hunique : ∀ w, w <:+ (inOrder bars).take (index + 1) → (w.length : Int) = length →
        w = windowOf (inOrder bars) index length := by
      intro w hw hwl
      rw [suffix_iff_eq_drop.mp hw, windowOf, htake]
      congr 1
      omega
    have hconsec : ConsecutiveAt (inOrder bars) index length ↔
        (∀ bar ∈ windowOf (inOrder bars) index length, bar.Complete) ∧
          List.IsChain Contiguous (windowOf (inOrder bars) index length) := by
      constructor
      · rintro ⟨w, hw, hwl, hcompl, hchain⟩
        rw [hunique w hw hwl] at hcompl hchain
        exact ⟨hcompl, hchain⟩
      · rintro ⟨hcompl, hchain⟩
        exact ⟨_, drop_suffix _ _, hwin, hcompl, hchain⟩
    rw [hconsec]
    cases hw : windowOf (inOrder bars) index length with
    | nil =>
      rw [hw] at hwin
      simp at hwin
      omega
    | cons x xs =>
      rw [hw] at hwin
      have hsuffix : x :: xs <:+ (inOrder bars).take (index + 1) := by
        rw [← hw]
        exact drop_suffix _ _
      obtain ⟨pre, hpre⟩ := hsuffix
      have hsplit : inOrder bars = pre ++ x :: xs ++ (inOrder bars).drop (index + 1) := by
        rw [hpre, take_append_drop]
      refine sameSegment_iff hdist hscope hsplit ?_ hwin
      · rw [← hlastTake, ← hpre, List.getLast?_append_of_ne_nil _ (cons_ne_nil _ _)]
  · -- there are too few bars
    refine iff_of_false ?_ ?_
    · rintro ⟨-, hwl, -⟩
      rw [hwindowLength] at hwl
      omega
    · rintro ⟨w, hw, hwl, -⟩
      have := hw.length_le
      omega

/-! ## Requests -/

/-- The request is that of this target and length. -/
structure RequestFor (clock side : PyStr) (current : Bar) (length : Int) (r : Request) : Prop where
  firstValid : r.firstValidTime = current.endUtc
  sequenceLength : r.sequenceLength = length
  unit : ∃ lengthText, strInt length = .ok lengthText ∧
    r.sourceUnitId = py "C2VNEXT.JUNE." ++ clock ++ py "." ++ side ++ py "." ++ current.startUtc ++
      py ".N" ++ lengthText

/-- What a request says of its bar and window. -/
theorem requestOf_ok {segmentId : PyStr} {segmentOffset : Int}
    {window : List Bar} {same : Bool} {r : Request}
    (h : requestOf P scope segmentId segmentOffset current window same length = .ok r) :
    RequestFor scope.clock scope.side current length r ∧
      r.computabilityStatus = (if same then py "COMPUTABLE" else
        if ¬ current.Complete then py "CENSORED" else py "NOT_COMPUTABLE") ∧
      (window ≠ [] ∨ window.length < length) := by
  simp only [requestOf, bind_ok, pure_ok] at h
  obtain ⟨bars, hbars, firstClose, -, currentClose, -, high, -, low, -, lengthText, hlen, first,
    hfst, endVsStart, -, endVsHigh, -, endVsLow, -, rawSpan, -, rawNetCloseDelta, -, rfl⟩ := h
  refine ⟨⟨rfl, rfl, lengthText, mapError_ok.mp hlen, rfl⟩, rfl, ?_⟩
  by_contra hnone
  simp only [not_or, not_not, not_lt] at hnone
  obtain ⟨rfl, hle⟩ := hnone
  -- without a bar and without a placeholder there is no first token
  have hmiss : (length - ([] : List Bar).length).toNat = 0 := by
    simp at hle ⊢
    omega
  cases hbars
  rw [hmiss] at hfst
  cases hfst

/-- A window is empty only when its length is not positive. -/
theorem length_pos_of_window (hix : index < ordered.length)
    (h : windowOf ordered index length ≠ [] ∨ (windowOf ordered index length).length < length) :
    0 < length := by
  by_contra hle
  have hempty : windowOf ordered index length = [] := by
    rw [windowOf, drop_eq_nil_iff, length_take]
    omega
  rw [hempty] at h
  simp at h
  omega

section Build

variable {bars : List Bar} {c1Records : List Record}
  {clock side targetStart targetEnd bindingSha256 : PyStr} {lengths : List Int}
  {requests : List Request}

/-- The requests, bar by bar. -/
theorem buildScopeRequests_ok
    (h : buildScopeRequests P bars c1Records clock side targetStart targetEnd lengths
      bindingSha256 = .ok requests) :
    ∃ ids groups, c1Ids P c1Records = .ok ids ∧
      (inOrder bars).zipIdx.mapM (fun p => requestsAt P ⟨clock, side, bindingSha256, ids⟩
        (segmentMap (inOrder bars)) (inOrder bars) lengths targetStart targetEnd p.2 p.1) =
          .ok groups ∧
      requests = sortedBy (fun r => toLex (r.firstValidTime, r.sourceUnitId)) groups.flatten := by
  simp only [buildScopeRequests, bind_ok, pure_ok] at h
  obtain ⟨ids, hids, groups, hgroups, rfl⟩ := h
  exact ⟨ids, groups, hids, hgroups, rfl⟩

/-- The requests of a bar at a position. -/
theorem requestsAt_ok {segments : Dict PyStr (PyStr × Int)} {group : List Request}
    (h : requestsAt P scope segments ordered lengths targetStart targetEnd index current =
      .ok group) : (¬ Target targetStart targetEnd current ∧ group = []) ∨
    (Target targetStart targetEnd current ∧
      Forall₂ (fun length r => requestOf P scope (segmentAt segments current).1
        (segmentAt segments current).2 current (windowOf ordered index length)
        (decide (sameSegment segments current (windowOf ordered index length) length)) length =
          .ok r) (sortedBy id lengths) group) := by
  unfold requestsAt at h
  split_ifs at h with htgt
  · exact .inr ⟨htgt, mapM_ok_iff.mp h⟩
  · exact .inl ⟨htgt, (Except.ok.inj h).symm⟩

/-- There is one request for each target and length. -/
theorem length_flatten_groups {f : Bar × Nat → Except Error (List Request)}
    {start n : Nat} {groups : List (List Request)} (hf : ∀ p group, f p = .ok group →
      group.length = if Target targetStart targetEnd p.1 then n else 0)
    (h : (ordered.zipIdx start).mapM f = .ok groups) :
    groups.flatten.length = (ordered.filter (Target targetStart targetEnd)).length * n := by
  induction ordered generalizing start groups with
  | nil =>
    cases h
    simp
  | cons bar ordered ih =>
    rw [zipIdx_cons] at h
    obtain ⟨group, rest, hgroup, hrest, rfl⟩ := mapM_cons_ok.mp h
    rw [flatten_cons, length_append, ih hrest, hf _ _ hgroup]
    by_cases htgt : Target targetStart targetEnd bar
    · simp [htgt, Nat.add_mul, Nat.add_comm]
    · simp [htgt]

/-- The requests of a bar do not depend on the bars behind it. -/
theorem requestsAt_append {segments segments' : Dict PyStr (PyStr × Int)} {later : List Bar}
    (hcur : ordered[index]? = some current)
    (hsegments : ∀ bar ∈ ordered, segmentAt segments' bar = segmentAt segments bar) :
    requestsAt P scope segments' (ordered ++ later) lengths targetStart targetEnd index current =
      requestsAt P scope segments ordered lengths targetStart targetEnd index current := by
  obtain ⟨hix, hget⟩ := List.getElem?_eq_some_iff.mp hcur
  have hmem : current ∈ ordered := hget ▸ getElem_mem hix
  unfold requestsAt
  by_cases htgt : Target targetStart targetEnd current
  · rw [if_neg (not_not.mpr htgt), if_neg (not_not.mpr htgt)]
    refine mapM_congr fun length _ => ?_
    have hwin : windowOf (ordered ++ later) index length = windowOf ordered index length := by
      rw [windowOf, windowOf, take_append_of_le_length (by omega)]
    have hsame : sameSegment segments' current (windowOf ordered index length) length ↔
        sameSegment segments current (windowOf ordered index length) length := by
      have hin : ∀ bar ∈ windowOf ordered index length, bar ∈ ordered := fun bar hbar =>
        mem_of_mem_take (mem_of_mem_drop hbar)
      unfold sameSegment
      rw [hsegments current hmem]
      refine and_congr_right fun _ => and_congr_right fun _ => and_congr_right fun _ => ?_
      refine forall₂_congr fun bar hbar => ?_
      rw [hsegments bar (hin bar hbar)]
    dsimp only
    rw [hwin, hsegments current hmem, decide_eq_decide.mpr hsame]
  · rw [if_pos htgt, if_pos htgt]

/-- The bars below a bound come first. -/
theorem inOrder_split (cut : PyStr) (bars : List Bar) :
    inOrder bars = inOrder (bars.filter fun b => b.startUtc < cut) ++
      inOrder (bars.filter fun b => ¬ b.startUtc < cut) := by
  rw [inOrder, sortedBy_split Bar.startUtc cut bars, inOrder, inOrder]
  -- the two ways to decide the order of texts
  congr!

/-- The segments of the bars below a bound do not depend on the others. -/
theorem segmentAt_of_lt {cut : PyStr} {bar : Bar}
    (hbar : bar ∈ inOrder (bars.filter fun b => b.startUtc < cut)) :
    segmentAt (segmentMap (inOrder bars)) bar =
      segmentAt (segmentMap (inOrder (bars.filter fun b => b.startUtc < cut))) bar := by
  have hsplit := inOrder_split cut bars
  rw [segmentAt, segmentAt, segmentMap, segmentMap, inOrder_inOrder, inOrder_inOrder, hsplit]
  obtain ⟨s, hs⟩ := scanSegments_append ⟨-1, none, 0⟩
    (inOrder (bars.filter fun b => b.startUtc < cut))
    (inOrder (bars.filter fun b => ¬ b.startUtc < cut))
  rw [hs, Dict.get?_ofItems_append]
  rw [map_fst_scanSegments]
  intro hmem
  obtain ⟨b, hb, heq⟩ := mem_map.mp hmem
  have hlt := (mem_filter.mp (mem_sortedBy.mp hbar)).2
  have hge := (mem_filter.mp (mem_sortedBy.mp hb)).2
  simp only [decide_eq_true_eq] at hlt hge
  exact hge (heq ▸ hlt)

/-- **Later bars leave the requests of the earlier ones unchanged.** -/
theorem buildScopeRequests_of_lt {cut : PyStr} {requests₀ : List Request}
    (h : buildScopeRequests P bars c1Records clock side targetStart targetEnd lengths
      bindingSha256 = .ok requests)
    (h₀ : buildScopeRequests P (bars.filter fun b => b.startUtc < cut) c1Records clock side
      targetStart targetEnd lengths bindingSha256 = .ok requests₀) :
    ∃ rest, requests.Perm (requests₀ ++ rest) ∧ ∀ r ∈ rest, ∃ bar ∈ bars,
      cut ≤ bar.startUtc ∧ ∃ length ∈ lengths, RequestFor clock side bar length r := by
  obtain ⟨ids, groups, hids, hgroups, rfl⟩ := buildScopeRequests_ok P h
  obtain ⟨ids₀, groups₀, hids₀, hgroups₀, rfl⟩ := buildScopeRequests_ok P h₀
  cases hids.symm.trans hids₀
  have hsplit := inOrder_split cut bars
  have hzip : (inOrder bars).zipIdx =
      (inOrder (bars.filter fun b => b.startUtc < cut)).zipIdx ++
        (inOrder (bars.filter fun b => ¬ b.startUtc < cut)).zipIdx
          (inOrder (bars.filter fun b => b.startUtc < cut)).length := by
    rw [hsplit, zipIdx_append, Nat.zero_add]
  rw [hzip] at hgroups
  obtain ⟨groups₁, groups₂, hgroups₁, hgroups₂, rfl⟩ := exists_of_mapM_append hgroups
  have hsame : groups₁ = groups₀ := by
    refine Except.ok.inj (hgroups₁.symm.trans ((mapM_congr ?_).trans hgroups₀))
    rintro ⟨bar, index⟩ hbar
    have hget := mem_zipIdx_iff_getElem?.mp hbar
    have hat : requestsAt P ⟨clock, side, bindingSha256, ids⟩ (segmentMap (inOrder bars))
        (inOrder (bars.filter fun b => b.startUtc < cut) ++
          inOrder (bars.filter fun b => ¬ b.startUtc < cut)) lengths targetStart targetEnd index
        bar = _ := requestsAt_append P hget fun b hb => segmentAt_of_lt hb
    rw [← hsplit] at hat
    exact hat
  subst hsame
  refine ⟨groups₂.flatten, ?_, ?_⟩
  · rw [flatten_append]
    exact (sortedBy_perm _ _).trans (Perm.append_right _ (sortedBy_perm _ _).symm)
  · intro r hr
    obtain ⟨group, hgroup, hr⟩ := mem_flatten.mp hr
    obtain ⟨⟨bar, index⟩, hbar, hat⟩ := mem_of_mapM_right hgroups₂ hgroup
    have hmem := mem_filter.mp (mem_sortedBy.mp
      (fst_mem_of_mem_zipIdx hbar))
    rcases requestsAt_ok P hat with ⟨-, rfl⟩ | ⟨-, hall⟩
    · simp at hr
    · obtain ⟨length, hlen, hrequest⟩ := mem_of_forall₂_right hall hr
      exact ⟨bar, hmem.1, by simpa using hmem.2, length, mem_sortedBy.mp hlen,
        (requestOf_ok P hrequest).1⟩

/-- **Scope requests are sound and stable**: there is one for each target and length; bars with later
starts leave those of earlier targets unchanged; and when the bars have distinct starts, one clock
and one side, a request is computable iff the bars up to its target are that many consecutive
complete ones. -/
theorem scope_requests_sound
    (h : buildScopeRequests P bars c1Records clock side targetStart targetEnd lengths
      bindingSha256 = .ok requests) :
    requests.length = (bars.filter (Target targetStart targetEnd)).length * lengths.length ∧
    (∀ cut requests₀, buildScopeRequests P (bars.filter fun b => b.startUtc < cut) c1Records clock
        side targetStart targetEnd lengths bindingSha256 = .ok requests₀ →
      ∃ rest, requests.Perm (requests₀ ++ rest) ∧ ∀ r ∈ rest, ∃ bar ∈ bars,
        cut ≤ bar.startUtc ∧ ∃ length ∈ lengths, RequestFor clock side bar length r) ∧
    ((bars.map (·.startUtc)).Nodup → OneScope bars →
      (∀ r ∈ requests, ∃ index current length, (inOrder bars)[index]? = some current ∧
        Target targetStart targetEnd current ∧ length ∈ lengths ∧
        RequestFor clock side current length r ∧
        (r.computabilityStatus = py "COMPUTABLE" ↔ ConsecutiveAt (inOrder bars) index length)) ∧
      ∀ index current, (inOrder bars)[index]? = some current →
        Target targetStart targetEnd current → ∀ length ∈ lengths, ∃ r ∈ requests,
          RequestFor clock side current length r ∧
          (r.computabilityStatus = py "COMPUTABLE" ↔
            ConsecutiveAt (inOrder bars) index length)) := by
  refine ⟨?_, fun cut requests₀ h₀ => buildScopeRequests_of_lt P h h₀, ?_⟩
  · obtain ⟨ids, groups, -, hgroups, rfl⟩ := buildScopeRequests_ok P h
    rw [length_sortedBy, length_flatten_groups ?_ hgroups]
    · congr 1
      exact ((sortedBy_perm _ bars).filter _).length_eq
    · rintro ⟨bar, index⟩ group hgroup
      rcases requestsAt_ok P hgroup with ⟨hnot, rfl⟩ | ⟨htgt, hall⟩
      · rw [if_neg hnot]
        rfl
      · rw [if_pos htgt, ← hall.length_eq, length_sortedBy]
  · intro hdist hscope
    obtain ⟨ids, groups, -, hgroups, rfl⟩ := buildScopeRequests_ok P h
    -- the status of the request of a target and a length
    have hstat : ∀ index current length r, (inOrder bars)[index]? = some current →
        requestOf P ⟨clock, side, bindingSha256, ids⟩
          (segmentAt (segmentMap (inOrder bars)) current).1
          (segmentAt (segmentMap (inOrder bars)) current).2 current
          (windowOf (inOrder bars) index length) (decide (sameSegment (segmentMap (inOrder bars))
            current (windowOf (inOrder bars) index length) length)) length = .ok r →
        RequestFor clock side current length r ∧
          (r.computabilityStatus = py "COMPUTABLE" ↔
            ConsecutiveAt (inOrder bars) index length) := by
      intro index current length r hcur hr
      obtain ⟨hfor, hstat, hwin⟩ := requestOf_ok P hr
      obtain ⟨hix, -⟩ := List.getElem?_eq_some_iff.mp hcur
      refine ⟨hfor, ?_⟩
      rw [← sameSegment_windowOf_iff hdist hscope hcur
        (length_pos_of_window hix hwin), hstat]
      by_cases hsame : sameSegment (segmentMap (inOrder bars)) current
          (windowOf (inOrder bars) index length) length
      · simp [hsame]
      · by_cases hcompl : current.Complete <;> simp [hsame, hcompl]
    refine ⟨?_, ?_⟩
    · intro r hr
      obtain ⟨group, hgroup, hr⟩ := mem_flatten.mp (mem_sortedBy.mp hr)
      obtain ⟨⟨current, index⟩, hbar, hat⟩ := mem_of_mapM_right hgroups hgroup
      have hget := mem_zipIdx_iff_getElem?.mp hbar
      rcases requestsAt_ok P hat with ⟨-, rfl⟩ | ⟨htgt, hall⟩
      · simp at hr
      · obtain ⟨length, hlen, hrequest⟩ := mem_of_forall₂_right hall hr
        obtain ⟨hfor, hiff⟩ := hstat index current length r hget hrequest
        exact ⟨index, current, length, hget, htgt, mem_sortedBy.mp hlen, hfor, hiff⟩
    · intro index current hcur htgt length hlen
      obtain ⟨group, hgroup, hat⟩ := mem_of_mapM_left hgroups
        (mem_zipIdx_iff_getElem?.mpr (show (inOrder bars)[(current, index).2]? = _
          from hcur))
      rcases requestsAt_ok P hat with ⟨hnot, -⟩ | ⟨-, hall⟩
      · exact absurd htgt hnot
      · obtain ⟨r, hr, hrequest⟩ := mem_of_forall₂_left hall (mem_sortedBy.mpr hlen)
        exact ⟨r, mem_sortedBy.mpr (mem_flatten.mpr ⟨group, hgroup, hr⟩),
          hstat index current length r hcur hrequest⟩

end Build

/-! ## Concrete bars -/

/-- A complete bar without prices. -/
def sample (start stop : String) : Bar :=
  { startUtc := py start, endUtc := py stop, clock := py "15M", side := py "BID"
    qualityState := py "COMPLETE", opening := none, high := none, low := none, close := none }

/-- A request is computable over a bar that is there twice. -/
theorem scope_requests_duplicate_start : ¬ ∀ (P : Platform) (bars : List Bar)
    (c1Records : List Record) (clock side targetStart targetEnd : PyStr) (lengths : List Int)
    (bindingSha256 : PyStr) (requests : List Request),
    buildScopeRequests P bars c1Records clock side targetStart targetEnd lengths bindingSha256 =
      .ok requests →
    ∀ r ∈ requests, r.computabilityStatus = py "COMPUTABLE" →
      ∃ index, ConsecutiveAt (inOrder bars) index r.sequenceLength := by
  intro H
  have hcompt : ((buildScopeRequests .reference [sample "0" "1", sample "0" "1", sample "1" "2"]
      [] (py "15M") (py "BID") (py "1") (py "2") [3] []).toOption.any fun requests =>
        requests.any fun r => decide (r.computabilityStatus = py "COMPUTABLE" ∧
          r.sequenceLength = 3)) = true := by
    decide +kernel
  have h := H .reference [sample "0" "1", sample "0" "1", sample "1" "2"] [] (py "15M") (py "BID")
    (py "1") (py "2") [3] []
  generalize buildScopeRequests .reference [sample "0" "1", sample "0" "1", sample "1" "2"] []
    (py "15M") (py "BID") (py "1") (py "2") [3] [] = run at hcompt h
  cases run with
  | error e => simp [Except.toOption] at hcompt
  | ok requests =>
    simp only [Except.toOption, Option.any_some, any_eq_true, decide_eq_true_eq]
      at hcompt
    obtain ⟨r, hr, hstat, hlen⟩ := hcompt
    obtain ⟨index, window, hwin, hthree, -, hchain⟩ := h requests rfl r hr hstat
    -- three bars are all of them, and the first two do not follow each other
    have hsuffix : window <:+: inOrder [sample "0" "1", sample "0" "1", sample "1" "2"] :=
      hwin.isInfix.trans <| IsPrefix.isInfix <| take_prefix _ _
    have hall : window = inOrder [sample "0" "1", sample "0" "1", sample "1" "2"] := by
      refine hsuffix.eq_of_length ?_
      rw [inOrder, length_sortedBy]
      rw [hlen] at hthree
      exact_mod_cast hthree
    rw [hall] at hchain
    have hbroken : ¬ IsChain Contiguous
        (inOrder [sample "0" "1", sample "0" "1", sample "1" "2"]) := by
      decide +kernel
    exact hbroken hchain

/-- Two bars in a row. -/
theorem scope_requests_sound_two : ∃ requests,
    buildScopeRequests .reference [sample "0" "1", sample "1" "2"] [] (py "15M") (py "BID")
      (py "0") (py "2") [1, 2] [] = .ok requests ∧ requests.length = 4 := by
  have hret : Returns (buildScopeRequests .reference [sample "0" "1", sample "1" "2"] []
      (py "15M") (py "BID") (py "0") (py "2") [1, 2] []) := by
    decide +kernel
  obtain ⟨requests, h⟩ := hret
  refine ⟨requests, h, (scope_requests_sound .reference h).1.trans ?_⟩
  decide +kernel

end Bar

end OvcReplay.C2Vnext
