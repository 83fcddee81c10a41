import OvcReplay.C2Vnext.Observation
import OvcReplay.Lists.Runs

/-! # The continuity segments are the maximal runs

The scan of a stream is the scan of its runs: an observation is live when nothing about it breaks
continuity, and it joins the one before when its interval starts where that one's ends. -/

namespace OvcReplay.C2Vnext

open List Python OvcReplay.Lists

namespace Observation

variable (P : Platform)

/-- Nothing about the observation breaks continuity: it is eligible, expected and known, and its
interval does not start at a partition boundary. -/
def Live (boundaries : List PyStr) (o : Observation) : Prop := breakStatus boundaries o = none

instance (boundaries : List PyStr) : DecidablePred (Live boundaries) := fun _ =>
  inferInstanceAs (Decidable (_ = _))

/-- The interval of the second starts where that of the first ends. -/
def Contiguous (o o' : Observation) : Prop := o.intervalEnd = o'.intervalStart

instance : DecidableRel Contiguous := fun _ _ => inferInstanceAs (Decidable (_ = _))

variable {boundaries : List PyStr}

theorem Live.eligible {o : Observation} (h : Live boundaries o) : o.eligible = true := by
  by_contra hne
  unfold Live breakStatus at h
  split_ifs at h with h₁ h₂ h₃ h₄
  simp [hne] at h₄

/-- The id of the segment that an observation opens as the one with this number. -/
def segmentIdAt (o : Observation) (ordinal : Nat) : Except Error PyStr :=
  digest P "C2.CONTINUITY.SEGMENT" (segmentIdentity o.instrument o.side o.intervalStart ordinal)

/-- No two segments of one stream share an id: the truncated hashes of their identities, which are
the starts of its observations with a number, do not collide. -/
def SegmentIdsDistinct (observations : List Observation) : Prop :=
  ∀ o ∈ observations, ∀ o' ∈ observations, o.stream = o'.stream →
    ∀ n < observations.length, ∀ m < observations.length, ∀ id,
      o.segmentIdAt P (n + 1) = .ok id → o'.segmentIdAt P (m + 1) = .ok id → n = m

/-! ## What the scan writes -/

/-- The observation with its continuity and its new content hash. -/
def mark (o : Observation) (status : PyStr) (active : Option PyStr) (hash : PyStr) : Observation :=
  { o with
    continuityStatus := some status, segmentId := if o.eligible then active else none
    contentSha256 := some hash }

section Mark

variable (o : Observation) (status : PyStr) (active : Option PyStr) (hash : PyStr)

@[simp] theorem mark_instrument : (o.mark status active hash).instrument = o.instrument := rfl

@[simp] theorem mark_side : (o.mark status active hash).side = o.side := rfl

@[simp] theorem mark_stream : (o.mark status active hash).stream = o.stream := rfl

@[simp] theorem mark_intervalStart :
    (o.mark status active hash).intervalStart = o.intervalStart := rfl

@[simp] theorem mark_intervalEnd : (o.mark status active hash).intervalEnd = o.intervalEnd := rfl

@[simp] theorem mark_observationId :
    (o.mark status active hash).observationId = o.observationId := rfl

@[simp] theorem mark_slotId : (o.mark status active hash).slotId = o.slotId := rfl

@[simp] theorem mark_segmentIdAt (n : Nat) :
    (o.mark status active hash).segmentIdAt P n = o.segmentIdAt P n := rfl

@[simp] theorem live_mark {boundaries : List PyStr} :
    Live boundaries (o.mark status active hash) ↔ Live boundaries o := Iff.rfl

@[simp] theorem mark_segmentId_of_eligible (h : o.eligible = true) :
    (o.mark status active hash).segmentId = active := by
  simp [mark, h]

@[simp] theorem mark_segmentId_none : (o.mark status none hash).segmentId = none := by
  simp [mark]

end Mark

variable {instrument side : PyStr} {scan : Scan}

/-- One observation of the scan and the rest. -/
theorem scanStream_cons_ok {o : Observation} {os out : List Observation} :
    scanStream P instrument side boundaries (o :: os) scan = .ok out ↔
      ∃ status active ordinal hash rest,
        scan.visit P instrument side boundaries o = .ok (status, active, ordinal) ∧
        contentHash P (.ofRecord (o.mark status active hash).payload) = .ok hash ∧
        scanStream P instrument side boundaries os
          ⟨active, some o.intervalEnd, o.eligible, ordinal⟩ = .ok rest ∧
        out = o.mark status active hash :: rest := by
  simp only [scanStream, bind_ok, pure_ok]
  constructor
  · rintro ⟨⟨status, active, ordinal⟩, hvisit, hash, hhash, rest, hrest, rfl⟩
    exact ⟨status, active, ordinal, hash, rest, hvisit, hhash, hrest, rfl⟩
  · rintro ⟨status, active, ordinal, hash, rest, hvisit, hhash, hrest, rfl⟩
    exact ⟨(status, active, ordinal), hvisit, hash, hhash, rest, hrest, rfl⟩

/-- The scan writes the continuity of each observation and changes nothing else. -/
theorem forall₂_of_scanStream {os out : List Observation}
    (h : scanStream P instrument side boundaries os scan = .ok out) :
    Forall₂ (fun o o' => ∃ status active hash, o' = o.mark status active hash) os out := by
  induction os generalizing scan out with
  | nil =>
    cases h
    exact .nil
  | cons o os ih =>
    obtain ⟨status, active, ordinal, hash, rest, -, -, hrest, rfl⟩ :=
      (scanStream_cons_ok P).mp h
    exact .cons ⟨status, active, hash, rfl⟩ (ih hrest)

/-! ## The scan follows the runs -/

/-- The segment is the one of the run. -/
def SegmentOf (run : Option (Run Observation)) (segment : Option PyStr) : Prop :=
  match run with
  | none => segment = none
  | some run => ∃ id, segment = some id ∧ run.first.segmentIdAt P run.ordinal = .ok id

/-- The variables of the scan are those of the runs. -/
structure Tracks (scan : Scan) (s : RunState Observation) : Prop where
  count : scan.segmentOrdinal = s.count
  segment : SegmentOf P s.run scan.activeSegment
  previous : ∀ p run, s.last = some (p, run) →
    scan.previousEligible = true ∧ scan.previousEnd = some p.intervalEnd

theorem tracks_init : Tracks P ⟨none, none, false, 0⟩ .init :=
  ⟨rfl, rfl, by rintro p run ⟨⟩⟩

/-- **One observation of the scan is one step of the runs.** -/
theorem Tracks.visit {o : Observation} {s : RunState Observation} (h : Tracks P scan s)
    (hstrm : o.instrument = instrument ∧ o.side = side) {status : PyStr} (hash : PyStr)
    {active : Option PyStr} {ordinal : Nat}
    (hvisit : scan.visit P instrument side boundaries o = .ok (status, active, ordinal)) :
    Tracks P ⟨active, some o.intervalEnd, o.eligible, ordinal⟩
      (s.step (Live boundaries) Contiguous (o.mark status active hash)) := by
  obtain ⟨rfl, rfl⟩ := hstrm
  rcases RunState.step_cases (Live boundaries) Contiguous s (o.mark status active hash) with
    ⟨hn, heq⟩ | ⟨p, run, hlive, hlast, hj, heq⟩ | ⟨hlive, hj, heq⟩
  · -- a break: no segment is active
    obtain ⟨st, hst⟩ : ∃ st, breakStatus boundaries o = some st :=
      Option.ne_none_iff_exists'.mp hn
    simp only [Scan.visit, hst, Except.ok.injEq, Prod.mk.injEq] at hvisit
    obtain ⟨-, rfl, rfl⟩ := hvisit
    rw [heq]
    exact ⟨h.count, rfl, by rintro p run ⟨⟩⟩
  · -- the observation joins the run before it
    have hbreak : breakStatus boundaries o = none := hlive
    obtain ⟨helig, hend⟩ := h.previous p run hlast
    have hseg := h.segment
    rw [RunState.run, hlast] at hseg
    obtain ⟨id, hact, hid⟩ := hseg
    have hcont : p.intervalEnd = o.intervalStart := hj
    simp only [Scan.visit, hbreak, helig, hend, hcont, hact, Option.isSome_some, and_self,
      if_true, Except.ok.injEq, Prod.mk.injEq] at hvisit
    obtain ⟨-, rfl, rfl⟩ := hvisit
    rw [heq]
    refine ⟨h.count, ⟨id, rfl, hid⟩, ?_⟩
    rintro p' run' ⟨⟩
    exact ⟨Live.eligible hbreak, rfl⟩
  · -- it opens a run of its own
    have hbreak : breakStatus boundaries o = none := hlive
    have hnot : ¬ (scan.previousEligible = true ∧ scan.previousEnd = some o.intervalStart ∧
        scan.activeSegment.isSome = true) := by
      rintro ⟨-, hend, hact⟩
      cases hlast : s.last with
      | none =>
        have hseg := h.segment
        rw [RunState.run, hlast] at hseg
        change scan.activeSegment = none at hseg
        simp [hseg] at hact
      | some pr =>
        obtain ⟨p, run⟩ := pr
        have hprev := (h.previous p run hlast).2
        exact hj p run hlast (Option.some.inj (hprev.symm.trans hend))
    simp only [Scan.visit, hbreak, hnot, if_false, bind_ok, pure_ok,
      Prod.mk.injEq] at hvisit
    obtain ⟨id, hid, -, rfl, rfl⟩ := hvisit
    rw [heq]
    refine ⟨congrArg (· + 1) h.count, ⟨id, rfl, ?_⟩, ?_⟩
    · rw [h.count] at hid
      exact hid
    · rintro p' run' ⟨⟩
      exact ⟨Live.eligible hbreak, rfl⟩

/-- Every observation of a scanned stream has the segment of its run. -/
theorem segmentOf_scanStream {os out : List Observation} {s : RunState Observation}
    (hs : Tracks P scan s) (hstrm : ∀ o ∈ os, o.instrument = instrument ∧ o.side = side)
    (hrun : scanStream P instrument side boundaries os scan = .ok out) {pre post : List Observation}
    {x : Observation} (hout : out = pre ++ x :: post) :
    SegmentOf P (s.after (Live boundaries) Contiguous (pre ++ [x])).run x.segmentId := by
  induction os generalizing scan s out pre with
  | nil =>
    cases hrun
    simp at hout
  | cons o os ih =>
    obtain ⟨status, active, ordinal, hash, rest, hvisit, -, hrest, rfl⟩ :=
      (scanStream_cons_ok P).mp hrun
    have hnext := hs.visit P (hstrm o (by simp)) hash hvisit
    cases pre with
    | nil =>
      obtain ⟨rfl, -⟩ := List.cons.inj hout
      have hseg := hnext.segment
      change SegmentOf P (s.step (Live boundaries) Contiguous _).run _
      by_cases hlive : Live boundaries o
      · rw [mark_segmentId_of_eligible _ _ _ _ hlive.eligible]
        exact hseg
      · have hnone : (s.step (Live boundaries) Contiguous (o.mark status active hash)).run =
            none := by
          rw [RunState.step, if_neg (mt (live_mark o status active hash).mp hlive)]
          rfl
        rw [hnone] at hseg ⊢
        change active = none at hseg
        rw [hseg]
        exact mark_segmentId_none o status hash
    | cons y pre =>
      obtain ⟨rfl, hpost⟩ := List.cons.inj hout
      exact ih hnext (fun o' ho' => hstrm o' (by simp [ho'])) hrest hpost

/-! ## The segments of an output -/

/-- The observation without its continuity. -/
def bare (o : Observation) : Observation :=
  { o with continuityStatus := none, segmentId := none, contentSha256 := none }

theorem map_bare_of_scanStream {os out : List Observation}
    (h : scanStream P instrument side boundaries os scan = .ok out) :
    out.map bare = os.map bare := by
  have hmarks := forall₂_of_scanStream P h
  clear h
  induction hmarks with
  | nil => rfl
  | cons ho _ ih =>
    obtain ⟨status, active, hash, rfl⟩ := ho
    rw [map_cons, map_cons, ih]
    rfl

variable {observations out : List Observation} {starts : List TimeArg}

/-- The streams of `assign_continuity`, each scanned. -/
theorem assignContinuity_ok : assignContinuity P observations starts = .ok out ↔
      ∃ boundaries streams, (starts.mapM fun t => (parseArg P t).map (iso P)) = .ok boundaries ∧
        Forall₂ (fun key scanned => scanStream P (ofLex key).1 (ofLex key).2 boundaries
          (streamOf observations key) ⟨none, none, false, 0⟩ = .ok scanned)
          (sortedSet (observations.map stream)) streams ∧
        out = sortedBy (fun o => toLex (o.intervalStart, toLex (o.side, o.observationId)))
          streams.flatten := by
  simp only [assignContinuity, bind_ok, pure_ok, mapM_ok_iff]
  constructor
  · rintro ⟨boundaries, hb, streams, hs, rfl⟩
    exact ⟨boundaries, streams, hb, hs, rfl⟩
  · rintro ⟨boundaries, streams, hb, hs, rfl⟩
    exact ⟨boundaries, hb, streams, hs, rfl⟩

variable {key : PyStr ×ₗ PyStr}

theorem mem_streamOf {observations : List Observation} {o : Observation} :
    o ∈ streamOf observations key ↔ o ∈ observations ∧ o.stream = key := by
  simp [streamOf]

theorem stream_eq_iff {o : Observation} :
    o.stream = key ↔ o.instrument = (ofLex key).1 ∧ o.side = (ofLex key).2 :=
  Prod.ext_iff

/-- The scan keeps the stream of every observation. -/
theorem stream_of_mem_scanned {observations scanned : List Observation}
    (h : scanStream P (ofLex key).1 (ofLex key).2 boundaries (streamOf observations key) scan =
      .ok scanned)
    {o : Observation} (ho : o ∈ scanned) : o.stream = key := by
  obtain ⟨o', ho', status, active, hash, rfl⟩ :=
    mem_of_forall₂_right (forall₂_of_scanStream P h) ho
  exact (mem_streamOf.mp ho').2

/-- **The output holds the observations of the input**, apart from their continuity. -/
theorem bare_assignContinuity_perm (hrun : assignContinuity P observations starts = .ok out) :
    (out.map bare).Perm (observations.map bare) := by
  obtain ⟨boundaries, streams, -, hstrs, rfl⟩ := (assignContinuity_ok P).mp hrun
  have hbare : streams.flatten.map bare =
      ((sortedSet (observations.map stream)).flatMap (streamOf observations)).map bare := by
    clear hrun
    generalize sortedSet (observations.map stream) = keys at hstrs
    induction hstrs with
    | nil => rfl
    | cons hscan _ ih =>
      rw [flatten_cons, flatMap_cons, map_append, map_append, ih,
        map_bare_of_scanStream P hscan]
  refine ((sortedBy_perm _ _).map bare).trans ?_
  rw [hbare]
  refine Perm.map bare ?_
  refine .trans (Perm.flatMap_left _ fun key _ => sortedBy_perm _ _) ?_
  exact flatMap_filter_perm (sortedSet_nodup _) fun o ho =>
    mem_sortedSet.mpr (mem_map_of_mem ho)

/-- **A stream of the output is its scan.** -/
theorem filter_assignContinuity (hrun : assignContinuity P observations starts = .ok out)
    (hb : (starts.mapM fun t => (parseArg P t).map (iso P)) = .ok boundaries)
    (key : PyStr ×ₗ PyStr) :
    scanStream P (ofLex key).1 (ofLex key).2 boundaries (streamOf observations key)
      ⟨none, none, false, 0⟩ = .ok (out.filter fun o => o.stream = key) := by
  obtain ⟨boundaries', streams, hb', hstrs, rfl⟩ := (assignContinuity_ok P).mp hrun
  cases hb.symm.trans hb'
  have hgroups : Forall₂ (fun key group => ∀ o ∈ group, o.stream = key)
      (sortedSet (observations.map stream)) streams :=
    hstrs.imp fun key group h o ho => stream_of_mem_scanned P h ho
  rcases filter_flatten_of_forall₂ (sortedSet_nodup _) hgroups key with
    ⟨hnot, hnil⟩ | ⟨scanned, hzip, hfilt⟩
  · -- no observation is of this stream
    have hempty : streamOf observations key = [] := by
      refine eq_nil_iff_forall_not_mem.mpr fun o ho => hnot ?_
      obtain ⟨hmem, rfl⟩ := mem_streamOf.mp ho
      exact mem_sortedSet.mpr (mem_map_of_mem hmem)
    rw [filter_sortedBy hnil .nil, hempty]
    rfl
  · have hscan := (forall₂_iff_zip.mp hstrs).2 hzip
    rw [filter_sortedBy hfilt ?_]
    · exact hscan
    · -- the scan keeps the order, and in one stream the sides agree
      have hkeys : scanned.map (fun o => toLex (o.intervalStart, o.observationId)) =
          (streamOf observations key).map fun o => toLex (o.intervalStart, o.observationId) := by
        have hbare := map_bare_of_scanStream P hscan
        have hmap := congrArg
          (List.map fun o : Observation => toLex (o.intervalStart, o.observationId)) hbare
        rwa [map_map, map_map] at hmap
      have hsort : scanned.Pairwise fun a b =>
          toLex (a.intervalStart, a.observationId) ≤ toLex (b.intervalStart, b.observationId) := by
        rw [← pairwise_map (R := (· ≤ ·)), hkeys, pairwise_map]
        exact sortedBy_pairwise _ _
      refine hsort.imp_of_mem ?_
      intro a b ha hb hab
      have hside : a.side = b.side := by
        rw [(stream_eq_iff.mp (stream_of_mem_scanned P hscan ha)).2,
          (stream_eq_iff.mp (stream_of_mem_scanned P hscan hb)).2]
      rw [Prod.Lex.toLex_le_toLex] at hab ⊢
      rcases hab with hlt | ⟨heq, hle⟩
      · exact .inl hlt
      · refine .inr ⟨heq, ?_⟩
        rw [Prod.Lex.toLex_le_toLex]
        exact .inr ⟨hside, hle⟩

/-- The run of an observation of the output was opened by an observation of the input. -/
theorem opened_by_input (hrun : assignContinuity P observations starts = .ok out)
    {l rest : List Observation} (hsplit : (out.filter fun o => o.stream = key) = l ++ rest)
    {r : Run Observation} (hr : (RunState.init.after (Live boundaries) Contiguous l).run = some r) :
    ∃ o ∈ observations, o.stream = key ∧ o.bare = r.first.bare ∧ 0 < r.ordinal ∧
      r.ordinal ≤ observations.length := by
  obtain ⟨hmem, hpos, hle⟩ := RunState.opened_of_run hr
  have hperm := bare_assignContinuity_perm P hrun
  have hfilt : r.first ∈ out.filter fun o => o.stream = key := by
    rw [hsplit]
    exact mem_append_left _ hmem
  obtain ⟨hout, hkey⟩ := mem_filter.mp hfilt
  obtain ⟨o, ho, hbare⟩ := mem_map.mp (hperm.mem_iff.mp (mem_map_of_mem hout))
  refine ⟨o, ho, ?_, hbare, hpos, ?_⟩
  · have hstrm : o.bare.stream = r.first.bare.stream := congrArg stream hbare
    exact hstrm.trans (of_decide_eq_true hkey)
  · have hlen : out.length = observations.length := by simpa using hperm.length_eq
    have hshort : l.length ≤ (out.filter fun o => o.stream = key).length := by
      rw [hsplit, length_append]
      omega
    have := length_filter_le (fun o => decide (o.stream = key)) out
    omega

/-- **Exactly the live observations get a segment, and two of one stream share theirs iff every
observation between them is live and each consecutive pair is contiguous.** -/
theorem assignContinuity_segments {observations out : List Observation} {starts : List TimeArg}
    (hrun : assignContinuity P observations starts = .ok out) {boundaries : List PyStr}
    (hb : (starts.mapM fun t => (parseArg P t).map (iso P)) = .ok boundaries)
    (hids : SegmentIdsDistinct P observations) :
    (out.map bare).Perm (observations.map bare) ∧
      (∀ o ∈ out, o.segmentId.isSome = true ↔ Live boundaries o) ∧
      ∀ key pre x mid y post,
        (out.filter fun o => o.stream = key) = pre ++ x :: (mid ++ y :: post) →
        Live boundaries x → Live boundaries y →
        (x.segmentId = y.segmentId ↔
          (∀ z ∈ mid, Live boundaries z) ∧ IsChain Contiguous (x :: mid ++ [y])) := by
  have hseg : ∀ key pre x post, (out.filter fun o => o.stream = key) = pre ++ x :: post →
      SegmentOf P (RunState.init.after (Live boundaries) Contiguous (pre ++ [x])).run
        x.segmentId := by
    intro key pre x post hsplit
    refine segmentOf_scanStream P (tracks_init P) ?_ (filter_assignContinuity P hrun hb key) hsplit
    intro o ho
    exact stream_eq_iff.mp (mem_streamOf.mp ho).2
  refine ⟨bare_assignContinuity_perm P hrun, ?_, ?_⟩
  · intro o ho
    have hmem : o ∈ out.filter fun o' => o'.stream = o.stream :=
      mem_filter.mpr ⟨ho, decide_eq_true rfl⟩
    obtain ⟨pre, post, hsplit⟩ := append_of_mem hmem
    have hof := hseg o.stream pre o post hsplit
    constructor
    · intro hsome
      by_contra hdead
      rw [RunState.run_of_not_live pre hdead] at hof
      rw [show o.segmentId = none from hof] at hsome
      exact Bool.false_ne_true hsome
    · intro hlive
      obtain ⟨run, hrun'⟩ := RunState.exists_run_of_live Contiguous pre hlive
      rw [hrun'] at hof
      obtain ⟨id, hid, -⟩ := hof
      rw [hid]
      rfl
  · intro key pre x mid y post hsplit hx hy
    have hthrough : pre ++ x :: mid ++ [y] = pre ++ [x] ++ (mid ++ [y]) := by simp
    have hofx := hseg key pre x _ hsplit
    have hofy := hseg key (pre ++ x :: mid) y post (by simp [hsplit])
    obtain ⟨run, hrunx⟩ := RunState.exists_run_of_live Contiguous pre hx
    obtain ⟨run', hruny⟩ := RunState.exists_run_of_live Contiguous (pre ++ x :: mid) hy
    rw [hrunx] at hofx
    rw [hruny] at hofy
    rw [hthrough] at hruny
    obtain ⟨idx, hidx, hdigest⟩ := hofx
    obtain ⟨idy, hidy, hdigest'⟩ := hofy
    have hlive : (∀ z ∈ mid ++ [y], Live boundaries z) ↔ ∀ z ∈ mid, Live boundaries z := by
      rw [forall_mem_append]
      exact and_iff_left (by simpa using hy)
    rw [← hlive, cons_append, ← RunState.ordinal_eq_iff hx hrunx hruny, hidx, hidy]
    constructor
    · -- the identities of two segments of one stream do not collide
      intro heq
      have hsplitx : (out.filter fun o => o.stream = key) = pre ++ [x] ++ (mid ++ y :: post) := by
        simp [hsplit]
      have hsplity : (out.filter fun o => o.stream = key) =
          pre ++ [x] ++ (mid ++ [y]) ++ post := by
        simp [hsplit]
      obtain ⟨o, ho, hkey, hbare, hpos, hle⟩ :=
        opened_by_input P hrun hsplitx hrunx
      obtain ⟨o', ho', hkey', hbare', hpos', hle'⟩ :=
        opened_by_input P hrun hsplity hruny
      have hat : o.segmentIdAt P (run.ordinal - 1 + 1) = .ok idx := by
        rw [Nat.sub_add_cancel hpos, ← hdigest]
        exact congrArg (fun o => o.segmentIdAt P run.ordinal) hbare
      have hat' : o'.segmentIdAt P (run'.ordinal - 1 + 1) = .ok idx := by
        rw [Nat.sub_add_cancel hpos', Option.some.inj heq, ← hdigest']
        exact congrArg (fun o => o.segmentIdAt P run'.ordinal) hbare'
      have := hids o ho o' ho' (hkey.trans hkey'.symm) _ (by omega) _ (by omega) idx hat hat'
      omega
    · intro hord
      obtain rfl := RunState.run_eq_of_ordinal_eq hx hrunx hruny hord
      exact congrArg some (Except.ok.inj (hdigest.symm.trans hdigest'))

/-! ## Concrete streams -/

/-- A complete observation of an hour that is expected, `n` hours after the start of 1970. -/
def sample (n : Int) : Observation :=
  { observationId := intText n, instrument := py "GBPUSD", side := py "BID"
    intervalStart := iso .reference (n * 60 * minute)
    intervalEnd := iso .reference ((n + 1) * 60 * minute)
    slotId := intText n, expectationStatus := py "EXPECTED_EVIDENCE"
    evidenceStatus := py "PRESENT_COMPLETE", evidenceReason := none, sourceRecordId := .none
    eligible := true, eligibilityReason := none, continuityStatus := none, segmentId := none
    details := [], contentSha256 := none }

/-- An eligible observation that starts at a partition boundary gets no segment. -/
theorem assignContinuity_at_boundary : ¬ ∀ (P : Platform) (observations : List Observation)
    (starts : List TimeArg) (out : List Observation),
    assignContinuity P observations starts = .ok out →
    ∀ o ∈ out, o.eligible = true → o.segmentId.isSome = true := by
  intro H
  have hnone : ((assignContinuity .reference [sample 1]
      [.datetime ⟨some 0, 60 * minute⟩]).toOption.any fun out =>
        out.any fun o => o.eligible && !o.segmentId.isSome) = true := by
    decide +kernel
  have h := H .reference [sample 1] [.datetime ⟨some 0, 60 * minute⟩]
  generalize assignContinuity .reference [sample 1] [.datetime ⟨some 0, 60 * minute⟩] = run
    at hnone h
  cases run with
  | error e => simp [Except.toOption] at hnone
  | ok out =>
    simp only [Except.toOption, Option.any_some, any_eq_true, Bool.and_eq_true,
      Bool.not_eq_true'] at hnone
    obtain ⟨o, ho, helig, hseg⟩ := hnone
    rw [h out rfl o ho helig] at hseg
    exact Bool.true_eq_false.mp hseg

/-- Two observations in a row, one segment. -/
theorem assignContinuity_segments_two : ∃ out,
    assignContinuity .reference [sample 1, sample 2] [] = .ok out ∧
      (out.map bare).Perm ([sample 1, sample 2].map bare) ∧
      ∀ o ∈ out, o.segmentId.isSome = true ↔ Live [] o := by
  have hret : Returns (assignContinuity .reference [sample 1, sample 2] []) := by
    decide +kernel
  obtain ⟨out, hout⟩ := hret
  have hids : ∀ o ∈ [sample 1, sample 2], ∀ o' ∈ [sample 1, sample 2], ∀ n < 2, ∀ m < 2,
      o.segmentIdAt .reference (n + 1) = o'.segmentIdAt .reference (m + 1) → n = m := by
    decide +kernel
  have h := assignContinuity_segments .reference hout rfl ?_
  · exact ⟨out, hout, h.1, h.2.1⟩
  · intro o ho o' ho' _ n hn m hm id hid hid'
    exact hids o ho o' ho' n hn m hm (hid.trans hid'.symm)

end Observation

end OvcReplay.C2Vnext
