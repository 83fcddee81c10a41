import OvcReplay.C2Csm.Succession
import OvcReplay.C2Csm.Coherence
import Mathlib

/-! # What the succession log keeps

The last record of the log says what the engine's counts, its envelope, its compounds and its open
state are at every bar of the window, and which atomic class was the last one unless the bar starts a
segment: there the generations begin again at the one that the log may already have. -/

namespace OvcReplay.C2Csm

open List Python

variable {α : Type} [LinearOrder α] (O : PriceOps α)

/-! ## Generations -/

/-- The bar starts a segment, `semantic_case_start`. -/
def ReferenceBar.startsSegment (bar : ReferenceBar α) : Bool :=
  bar.enabled && bar.inLabWindow && decide (bar.segmentObs = 1) && !bar.chartGap

omit [LinearOrder α] in
/-- A signature is never empty. -/
theorem signature_ne_nil (e : Envelope α) (bar : ReferenceBar α) : e.signature O bar ≠ [] := by
  unfold Envelope.signature
  cases e.statusUnique with
  | false | true => exact fun h => cons_ne_nil _ _ h

/-- **What a bar does to the generation**: it begins again, moves on, or stays. -/
theorem generation_stepped (e : Envelope α) (r1 : R1State α) (bar : ReferenceBar α)
    (upper lower : Side α) :
    (bar.startsSegment = true ∧ (e.stepped O r1 bar upper lower).generation = 0 ∧
        (e.stepped O r1 bar upper lower).previousSignature = [] ∧
        (e.stepped O r1 bar upper lower).signatureChanged = false) ∨
      (bar.enabled = true ∧ (e.stepped O r1 bar upper lower).generation = e.generation + 1 ∧
        (e.stepped O r1 bar upper lower).previousSignature ≠ []) ∨
      (bar.startsSegment = false ∧ (e.stepped O r1 bar upper lower).generation = e.generation ∧
        (e.stepped O r1 bar upper lower).previousSignature = e.previousSignature ∧
        (e.stepped O r1 bar upper lower).signatureChanged = false ∧
        (bar.enabled = true → e.previousSignature ≠ [])) := by
  let m := (((e.objectsCounted r1 bar).bounded r1 upper lower).populated r1 bar.enabled upper
    lower).measured O bar
  have hgeneration : m.generation = e.generation := by
    simp only [m, Envelope.measured]
    split <;> rfl
  have hsignature : m.previousSignature = e.previousSignature := by
    simp only [m, Envelope.measured]
    split <;> rfl
  show (_ ∧ (m.generated O bar).generation = 0 ∧ (m.generated O bar).previousSignature = [] ∧
      (m.generated O bar).signatureChanged = false) ∨
    (_ ∧ (m.generated O bar).generation = e.generation + 1 ∧
      (m.generated O bar).previousSignature ≠ []) ∨
    (_ ∧ (m.generated O bar).generation = e.generation ∧
      (m.generated O bar).previousSignature = e.previousSignature ∧
      (m.generated O bar).signatureChanged = false ∧ _)
  by_cases hstart : bar.startsSegment = true
  · left
    have hgenerated : m.generated O bar = { m with
        generation := 0, generationChangeCount := 0, previousSignature := []
        generationFirstValidBar := none, signatureChanged := false } := if_pos hstart
    rw [hgenerated]
    exact ⟨hstart, rfl, rfl, rfl⟩
  · right
    by_cases hchanged : (bar.enabled && decide (m.signature O bar ≠ m.previousSignature)) = true
    · left
      have hgenerated : m.generated O bar = m.regenerated bar (m.signature O bar) :=
        (if_neg hstart).trans (if_pos hchanged)
      rw [hgenerated]
      refine ⟨((Bool.and_eq_true _ _).mp hchanged).1, ?_, signature_ne_nil O m bar⟩
      show m.generation + 1 = e.generation + 1
      rw [hgeneration]
    · right
      have hgenerated : m.generated O bar = { m with signatureChanged := false } :=
        (if_neg hstart).trans (if_neg hchanged)
      rw [hgenerated]
      refine ⟨Bool.not_eq_true _ ▸ hstart, hgeneration, hsignature, rfl, ?_⟩
      intro henab hempty
      rw [Bool.and_eq_true, decide_eq_true_eq] at hchanged
      apply hchanged
      refine ⟨henab, ?_⟩
      rw [hsignature, hempty]
      exact signature_ne_nil O m bar

/-! ## Transitions -/

/-- Without a changed signature the last class stays. -/
theorem latestClass_stepR3 {r3 : R3State α} {e : Envelope α} {bar : ReferenceBar α}
    (h : e.signatureChanged = false) : (r3.stepR3 O e bar).latestClass = r3.latestClass := by
  have hchanged : (r3.lifecycleCounted e bar).changed O e bar = r3.lifecycleCounted e bar := by
    unfold R3State.changed
    rw [h, Bool.and_false]
    rfl
  show ((r3.lifecycleCounted e bar).changed O e bar).latestClass = r3.latestClass
  rw [hchanged]
  unfold R3State.lifecycleCounted
  split <;> rfl

/-- A compound that is not resolved keeps its last class. -/
theorem latestClass_advanced (c : Compound α) (old new : Option (α × α)) (generation : Nat)
    (barIndex : Int) :
    c.resolutionCount ≤ (c.advanced O old new generation barIndex).resolutionCount ∧
      ((c.advanced O old new generation barIndex).resolutionCount = c.resolutionCount →
        (c.advanced O old new generation barIndex).latestClass = c.latestClass) := by
  unfold Compound.advanced
  split
  · exact ⟨le_rfl, fun _ => rfl⟩
  · exact ⟨le_rfl, fun _ => rfl⟩
  · exact ⟨le_rfl, fun _ => rfl⟩
  · split
    · exact ⟨le_rfl, fun _ => rfl⟩
    · dsimp only
      split
      · split
        · refine ⟨Nat.le_succ _, fun h => ?_⟩
          exact absurd h (Nat.succ_ne_self _)
        · exact ⟨le_rfl, fun _ => rfl⟩
      · exact ⟨le_rfl, fun _ => rfl⟩

/-- **The last compound class changes with a resolution only.** -/
theorem compoundClass_stepR3 (r3 : R3State α) (e : Envelope α) (bar : ReferenceBar α) :
    r3.compound.resolutionCount ≤ (r3.stepR3 O e bar).compound.resolutionCount ∧
      ((r3.stepR3 O e bar).compound.resolutionCount = r3.compound.resolutionCount →
        (r3.stepR3 O e bar).compound.latestClass = r3.compound.latestClass) := by
  have hcounted : (r3.lifecycleCounted e bar).compound = r3.compound := by
    unfold R3State.lifecycleCounted
    split <;> rfl
  show r3.compound.resolutionCount ≤
      ((r3.lifecycleCounted e bar).changed O e bar).compound.resolutionCount ∧
    (((r3.lifecycleCounted e bar).changed O e bar).compound.resolutionCount =
        r3.compound.resolutionCount →
      ((r3.lifecycleCounted e bar).changed O e bar).compound.latestClass =
        r3.compound.latestClass)
  rw [← hcounted]
  generalize r3.lifecycleCounted e bar = counted
  unfold R3State.changed
  split
  · split
    · exact latestClass_advanced O counted.compound counted.prevEvaluable e.evaluable e.generation
        bar.barIndex
    · unfold R3State.baselined
      cases e.evaluable with
      | none => exact ⟨le_rfl, fun _ => rfl⟩
      | some g => exact ⟨le_rfl, fun _ => rfl⟩
  · exact ⟨le_rfl, fun _ => rfl⟩

/-! ## Bars of the engine -/

variable {O}

/-- What a bar does to what the log reads, of the state that it finds. -/
theorem layers_of_step {s now : EngineState α} {bar : ReferenceBar α} (h : s.step O bar = .ok now) :
    ∃ r1 upper lower, now.r2.envelope = (s.resetFor bar).r2.envelope.stepped O r1 bar upper lower ∧
      now.r3 = (s.resetFor bar).r3.stepR3 O now.r2.envelope bar := by
  obtain ⟨_, _, h⟩ := bind_ok.mp h
  rw [← Except.ok.inj h]
  exact ⟨_, _, _, rfl, rfl⟩

/-! ## Masks -/

/-- The mask of the flags that are raised. -/
def maskOf (raised : List Flag) : Nat := (raised.map fun flag => 2 ^ flag.bit).sum

/-- The record names the final bar. -/
def SuccessionRecord.namesFinal (r : SuccessionRecord α) : Bool := decide (1024 ≤ r.triggerMask)

/-- Without the final flag the mask is less than its bit. -/
theorem maskOf_lt {raised : Flag → Bool} (h : raised .final = false) :
    maskOf (Flag.all.filter raised) < 1024 := by
  have hsplit : Flag.all.filter raised = (Flag.all.take 10).filter raised := by
    show ((Flag.all.take 10) ++ [Flag.final]).filter raised = _
    rw [filter_append, filter_cons, h]
    exact append_nil _
  rw [hsplit]
  have hle : maskOf ((Flag.all.take 10).filter raised) ≤ maskOf (Flag.all.take 10) :=
    (filter_sublist.map _).sum_le_sum fun _ _ => Nat.zero_le _
  exact hle.trans_lt (by decide)

/-! ## What the log keeps -/

/-- The record has the values that are remembered. -/
structure Agrees (last : SuccessionRecord α) (prev : Remembered) : Prop where
  formed : last.formed = prev.formed
  active : last.active = prev.active
  dormant : last.dormant = prev.dormant
  retired : last.retired = prev.retired
  envGeneration : last.envGeneration = prev.envGeneration
  envLifecycle : last.envLifecycle = prev.envLifecycle
  compoundOpenState : last.compoundOpenState = prev.compoundOpenState
  compoundUpperLegs : last.compoundUpperLegs = prev.compoundUpperLegs
  compoundLowerLegs : last.compoundLowerLegs = prev.compoundLowerLegs

/-- **What the log keeps** in every state. -/
structure R4State.Remembers (r4 : R4State α) : Prop where
  ids : r4.records.map SuccessionRecord.recordId = List.range' 1 r4.records.length
  fresh : r4.prevInitialised = false → r4.records = []
  agrees : ∀ last ∈ r4.records.getLast?, Agrees last r4.prev
  compoundLe : r4.prev.compoundResolutionCount ≤ r4.engine.r3.compound.resolutionCount
  compound : r4.engine.r3.compound.resolutionCount = r4.prev.compoundResolutionCount →
    ∀ last ∈ r4.records.getLast?, last.compoundClass = r4.engine.r3.compound.latestClass
  generationLe : r4.prev.envGeneration ≤ r4.engine.r2.envelope.generation
  -- after the first bar of a segment the generation says nothing of the transitions before it
  atomic : r4.engine.r2.envelope.generation = r4.prev.envGeneration →
    r4.engine.r2.envelope.previousSignature ≠ [] →
      ∀ last ∈ r4.records.getLast?, last.atomicClass = r4.engine.r3.latestClass
  finals : r4.records.countP SuccessionRecord.namesFinal ≤ 1
  unrecorded : r4.finalRecorded = false → r4.records.countP SuccessionRecord.namesFinal = 0

omit [LinearOrder α] in
theorem remembers_empty : ({} : R4State α).Remembers where
  ids := rfl
  fresh _ := rfl
  agrees _ h := (Option.some_ne_none _ h.symm).elim
  compoundLe := le_rfl
  compound _ _ h := (Option.some_ne_none _ h.symm).elim
  generationLe := le_rfl
  atomic _ _ _ h := (Option.some_ne_none _ h.symm).elim
  finals := Nat.zero_le _
  unrecorded _ := rfl

variable {r4 : R4State α} {now : EngineState α} {bar : ReferenceBar α}

/-- What a bar leaves of the generations and the classes of the state that it finds. -/
structure Advances (r4 : R4State α) (now : EngineState α) (bar : ReferenceBar α) : Prop where
  compoundLe : r4.engine.r3.compound.resolutionCount ≤ now.r3.compound.resolutionCount
  compound : now.r3.compound.resolutionCount = r4.engine.r3.compound.resolutionCount →
    now.r3.compound.latestClass = r4.engine.r3.compound.latestClass
  generation : (bar.startsSegment = true ∧ now.r2.envelope.generation = 0 ∧
      now.r2.envelope.previousSignature = []) ∨
    (now.r2.envelope.generation = r4.engine.r2.envelope.generation + 1 ∧
      now.r2.envelope.previousSignature ≠ []) ∨
    (now.r2.envelope.generation = r4.engine.r2.envelope.generation ∧
      now.r2.envelope.previousSignature = r4.engine.r2.envelope.previousSignature ∧
      now.r3.latestClass = r4.engine.r3.latestClass ∧
      (bar.enabled = true → now.r2.envelope.previousSignature ≠ []))

theorem advances_of_step {s : EngineState α} (h : s.step O bar = .ok now)
    (hengine : r4.engine = s.resetFor bar) : Advances r4 now bar := by
  obtain ⟨r1, upper, lower, henvelope, hr3⟩ := layers_of_step h
  rw [← hengine] at henvelope hr3
  have hcompound := compoundClass_stepR3 O r4.engine.r3 now.r2.envelope bar
  rw [← hr3] at hcompound
  refine ⟨hcompound.1, hcompound.2, ?_⟩
  rcases generation_stepped O r4.engine.r2.envelope r1 bar upper lower with
    ⟨hstart, hzero, hempty, _⟩ | ⟨_, hnext, hsigned⟩ | ⟨_, hsame, hsignature, hquiet, hsigned⟩
  · rw [← henvelope] at hzero hempty
    exact Or.inl ⟨hstart, hzero, hempty⟩
  · rw [← henvelope] at hnext hsigned
    exact Or.inr (Or.inl ⟨hnext, hsigned⟩)
  · rw [← henvelope] at hsame hsignature hquiet
    refine Or.inr (Or.inr ⟨hsame, hsignature, ?_, ?_⟩)
    · rw [hr3]
      exact latestClass_stepR3 O hquiet
    · intro henab
      rw [hsignature]
      exact hsigned henab

omit [LinearOrder α] in
/-- **A bar outside the window** keeps what the log keeps. -/
theorem remembers_of_outside (h : r4.Remembers) (hadvances : Advances r4 now bar)
    (hwindow : bar.isWindowBar = false) : (r4.stepR4 now bar).Remembers := by
  have hstep : r4.stepR4 now bar = { r4 with engine := now, snapshot := snapshotOf now bar } := by
    unfold R4State.stepR4 R4State.remembering R4State.logged
    simp only [hwindow, Bool.false_and, Bool.false_eq_true, if_false]
  rw [hstep]
  refine ⟨h.ids, h.fresh, h.agrees, h.compoundLe.trans hadvances.compoundLe, ?_, ?_, ?_, h.finals,
    h.unrecorded⟩
  · intro hcount last hlast
    have hsame : now.r3.compound.resolutionCount = r4.engine.r3.compound.resolutionCount :=
      le_antisymm (hcount.le.trans h.compoundLe) hadvances.compoundLe
    rw [hadvances.compound hsame]
    exact h.compound (hsame.symm.trans hcount) last hlast
  · show r4.prev.envGeneration ≤ now.r2.envelope.generation
    have hle := h.generationLe
    rcases hadvances.generation with ⟨hstart, _⟩ | ⟨hnext, _⟩ | ⟨hsame, _⟩
    · unfold ReferenceBar.isWindowBar at hwindow
      unfold ReferenceBar.startsSegment at hstart
      rw [hwindow] at hstart
      cases hstart
    · omega
    · omega
  · intro hgeneration hsigned last hlast
    have hle := h.generationLe
    change now.r2.envelope.generation = r4.prev.envGeneration at hgeneration
    rcases hadvances.generation with ⟨_, _, hempty⟩ | ⟨hnext, _⟩ | ⟨hsame, hsignature, hcls, _⟩
    · exact absurd hempty hsigned
    · omega
    · have hbefore : r4.engine.r2.envelope.previousSignature ≠ [] := by
        rw [← hsignature]
        exact hsigned
      exact (h.atomic (hsame.symm.trans hgeneration) hbefore last hlast).trans hcls.symm

/-- The flags of a bar that are raised. -/
def R4State.raised (r4 : R4State α) (now : EngineState α) (bar : ReferenceBar α) : List Flag :=
  Flag.all.filter (r4.flags now bar)

omit [LinearOrder α] in
/-- A bar of the window that raises a flag. -/
theorem stepR4_of_raised (hwindow : bar.isWindowBar = true) (hraised : r4.raised now bar ≠ []) :
    r4.stepR4 now bar = { r4 with
      engine := now
      snapshot := snapshotOf now bar
      records := r4.records ++ [recordOf now (snapshotOf now bar) bar (r4.records.length + 1)
        (r4.raised now bar)]
      triggerCount := fun flag =>
        r4.triggerCount flag + if flag ∈ r4.raised now bar then 1 else 0
      finalRecorded := r4.finalRecorded || r4.flags now bar .final
      prevInitialised := true
      prev := rememberedOf now } := by
  have hempty : (Flag.all.filter (r4.flags now bar)).isEmpty = false := by
    rw [← Bool.not_eq_true, List.isEmpty_iff]
    exact hraised
  unfold R4State.stepR4 R4State.remembering R4State.logged
  simp only [hwindow, hempty, Bool.not_false, Bool.and_self, if_true]
  rfl

omit [LinearOrder α] in
/-- A bar of the window that raises none. -/
theorem stepR4_of_quiet (hwindow : bar.isWindowBar = true) (hquiet : r4.raised now bar = []) :
    r4.stepR4 now bar = { r4 with
      engine := now
      snapshot := snapshotOf now bar
      prevInitialised := true
      prev := rememberedOf now } := by
  have hempty : (Flag.all.filter (r4.flags now bar)).isEmpty = true := isEmpty_iff.mpr hquiet
  unfold R4State.stepR4 R4State.remembering R4State.logged
  simp only [hwindow, hempty, Bool.not_true, Bool.and_false, Bool.false_eq_true, if_false, if_true]

omit [LinearOrder α] in
/-- What is remembered of a quiet bar is what was remembered, as far as a record has it. -/
theorem agrees_of_quiet {prev now : Remembered} {last : SuccessionRecord α} (h : Agrees last prev)
    (hquiet : ∀ flag, flag ≠ .relation → flag ≠ .interaction → changedSince prev now flag = false) :
    Agrees last now ∧ now.compoundResolutionCount = prev.compoundResolutionCount := by
  have hform := hquiet .form (by decide) (by decide)
  have hlife := hquiet .life (by decide) (by decide)
  have hrole := hquiet .role (by decide) (by decide)
  have hboundary := hquiet .boundaryLife (by decide) (by decide)
  have hcompound := hquiet .compound (by decide) (by decide)
  have hopen := hquiet .openChanged (by decide) (by decide)
  simp only [changedSince, decide_eq_false_iff_not, not_or, not_not, ne_eq] at hform hlife hrole
  simp only [changedSince, decide_eq_false_iff_not, not_not, ne_eq] at hboundary hcompound
  simp only [changedSince, decide_eq_false_iff_not, not_or, not_not, ne_eq] at hopen
  refine ⟨⟨h.formed.trans hform.symm, h.active.trans hlife.1.symm, h.dormant.trans hlife.2.1.symm,
    h.retired.trans hlife.2.2.symm, h.envGeneration.trans hrole.symm,
    h.envLifecycle.trans hboundary.symm, h.compoundOpenState.trans hopen.1.symm,
    h.compoundUpperLegs.trans hopen.2.1.symm, h.compoundLowerLegs.trans hopen.2.2.symm⟩, hcompound⟩

omit [LinearOrder α] in
/-- No flag of a quiet bar saw a change. -/
theorem changedSince_of_quiet (hwindow : bar.isWindowBar = true) (hprev : r4.prevInitialised = true)
    (hquiet : r4.raised now bar = []) (flag : Flag) (hrelation : flag ≠ .relation)
    (hinteraction : flag ≠ .interaction) : changedSince r4.prev (rememberedOf now) flag = false := by
  have hflag : r4.flags now bar flag = false := by
    rw [← Bool.not_eq_true]
    intro hraised
    have hmem : flag ∈ Flag.all := by cases flag <;> decide
    have hfilter := mem_filter.mpr ⟨hmem, hraised⟩
    rw [show Flag.all.filter (r4.flags now bar) = [] from hquiet] at hfilter
    exact not_mem_nil hfilter
  cases flag with
  | relation => exact absurd rfl hrelation
  | interaction => exact absurd rfl hinteraction
  | baseline => rfl
  | checkpoint => rfl
  | final => rfl
  | _ =>
    simp only [R4State.flags, hwindow, hprev, Bool.true_and] at hflag
    exact hflag

omit [LinearOrder α] in
/-- **A bar of the window** keeps what the log keeps. -/
theorem remembers_of_window (h : r4.Remembers) (hadvances : Advances r4 now bar)
    (hwindow : bar.isWindowBar = true) : (r4.stepR4 now bar).Remembers := by
  by_cases hraised : r4.raised now bar = []
  · rw [stepR4_of_quiet hwindow hraised]
    cases hprev : r4.prevInitialised with
    | false =>
      have hrecords := h.fresh hprev
      have hnone : ∀ {P : SuccessionRecord α → Prop}, ∀ last ∈ r4.records.getLast?, P last := by
        intro P last hlast
        rw [hrecords] at hlast
        exact (Option.some_ne_none _ hlast.symm).elim
      exact ⟨h.ids, fun hfalse => Bool.noConfusion hfalse, hnone, le_rfl, fun _ => hnone, le_rfl,
        fun _ _ => hnone, h.finals, h.unrecorded⟩
    | true =>
      have hchanged := changedSince_of_quiet hwindow hprev hraised
      refine ⟨h.ids, fun hfalse => Bool.noConfusion hfalse, ?_, le_rfl, ?_, le_rfl, ?_, h.finals,
        h.unrecorded⟩
      · exact fun last hlast => (agrees_of_quiet (h.agrees last hlast) hchanged).1
      · intro _ last hlast
        have hcount := (agrees_of_quiet (h.agrees last hlast) hchanged).2
        have hsame : now.r3.compound.resolutionCount = r4.engine.r3.compound.resolutionCount :=
          le_antisymm (hcount.le.trans h.compoundLe) hadvances.compoundLe
        show last.compoundClass = now.r3.compound.latestClass
        rw [hadvances.compound hsame]
        exact h.compound (hsame.symm.trans hcount) last hlast
      · intro _ hsigned last hlast
        have hrole : now.r2.envelope.generation = r4.prev.envGeneration := by
          have hfalse := hchanged .role (by decide) (by decide)
          simp only [changedSince, decide_eq_false_iff_not, not_not, ne_eq] at hfalse
          exact hfalse
        have hle := h.generationLe
        rcases hadvances.generation with ⟨_, _, hempty⟩ | ⟨hnext, _⟩ | ⟨hsame, hsignature, hcls, _⟩
        · exact absurd hempty hsigned
        · omega
        · have hbefore : r4.engine.r2.envelope.previousSignature ≠ [] := by
            rw [← hsignature]
            exact hsigned
          exact (h.atomic (hsame.symm.trans hrole) hbefore last hlast).trans hcls.symm
  · rw [stepR4_of_raised hwindow hraised]
    have hlast : ∀ {P : SuccessionRecord α → Prop} {record : SuccessionRecord α}, P record →
        ∀ last ∈ (r4.records ++ [record]).getLast?, P last := by
      intro P record hrecord last hlast
      rw [getLast?_concat] at hlast
      rw [← Option.some.inj hlast]
      exact hrecord
    have hcount : ∀ record : SuccessionRecord α,
        (r4.records ++ [record]).countP SuccessionRecord.namesFinal =
          r4.records.countP SuccessionRecord.namesFinal + if record.namesFinal then 1 else 0 := by
      intro record
      rw [countP_append, countP_singleton]
    have hnames : r4.flags now bar .final = false →
        (recordOf now (snapshotOf now bar) bar (r4.records.length + 1)
          (r4.raised now bar)).namesFinal = false := by
      intro hfinal
      exact decide_eq_false (not_le.mpr (maskOf_lt hfinal))
    refine ⟨?_, fun hfalse => Bool.noConfusion hfalse,
      hlast ⟨rfl, rfl, rfl, rfl, rfl, rfl, rfl, rfl, rfl⟩, le_rfl, fun _ => hlast rfl, le_rfl,
      fun _ _ => hlast rfl, ?_, ?_⟩
    · show (r4.records ++ [_]).map SuccessionRecord.recordId =
        List.range' 1 (r4.records ++ [_]).length
      rw [map_append, h.ids, length_append, length_singleton, range'_1_concat,
        Nat.add_comm 1]
      rfl
    · show (r4.records ++ [_]).countP SuccessionRecord.namesFinal ≤ 1
      rw [hcount]
      cases hfinal : r4.flags now bar .final with
      | false =>
        rw [hnames hfinal]
        exact h.finals
      | true =>
        have hunrecorded : r4.finalRecorded = false := by
          simp only [R4State.flags, Bool.and_eq_true, Bool.not_eq_true'] at hfinal
          exact hfinal.2
        rw [h.unrecorded hunrecorded]
        split <;> decide
    · intro hfalse
      change (r4.finalRecorded || r4.flags now bar .final) = false at hfalse
      rw [Bool.or_eq_false_iff] at hfalse
      show (r4.records ++ [_]).countP SuccessionRecord.namesFinal = 0
      rw [hcount, hnames hfalse.2, h.unrecorded hfalse.1]
      rfl

/-! ## Runs -/

omit [LinearOrder α] in
theorem engine_resetFor (r4 : R4State α) (bar : ReferenceBar α) :
    (r4.resetFor bar).engine = r4.engine.resetFor bar := by
  unfold R4State.resetFor EngineState.resetFor
  split <;> rfl

omit [LinearOrder α] in
theorem remembers_resetFor (h : r4.Remembers) (bar : ReferenceBar α) :
    (r4.resetFor bar).Remembers := by
  unfold R4State.resetFor
  split
  · exact remembers_empty
  · exact h

variable {r4' : R4State α}

/-- **A bar keeps what the log keeps.** -/
theorem remembers_step (h : r4.Remembers) (hstep : r4.step O bar = .ok r4') : r4'.Remembers := by
  obtain ⟨now, hnow, hr4⟩ := bind_ok.mp hstep
  rw [← Except.ok.inj hr4]
  have hreset := remembers_resetFor h bar
  have hadvances := advances_of_step hnow (engine_resetFor r4 bar)
  cases hwindow : bar.isWindowBar with
  | false => exact remembers_of_outside hreset hadvances hwindow
  | true => exact remembers_of_window hreset hadvances hwindow

/-- **A run keeps what the log keeps.** -/
theorem remembers_run {bars : List (ReferenceBar α)} (h : r4.Remembers)
    (hrun : r4.run O bars = .ok r4') : r4'.Remembers := by
  induction bars generalizing r4 with
  | nil =>
    cases hrun
    exact h
  | cons bar rest ih =>
    obtain ⟨next, hstep, hrest⟩ := bind_ok.mp hrun
    exact ih (remembers_step h hstep) hrest

/-- **The record says what the engine's state is**, but for the atomic class. -/
structure Logged (last : SuccessionRecord α) (s : EngineState α) : Prop where
  agrees : Agrees last (rememberedOf s)
  compoundClass : last.compoundClass = s.r3.compound.latestClass

/-- What a bar does to the records: nothing, or a record that names the flags that it raised. -/
def Appends (before after : R4State α) (bar : ReferenceBar α) : Prop :=
  (after.records = before.records ∧
      (bar.isWindowBar = true → before.raised after.engine bar = [])) ∨
    (bar.isWindowBar = true ∧ before.raised after.engine bar ≠ [] ∧
      ∃ record, after.records = before.records ++ [record] ∧
        record.trigger = joinPlus ((before.raised after.engine bar).map Flag.code) ∧
        record.triggerMask = maskOf (before.raised after.engine bar))

omit [LinearOrder α] in
theorem prev_of_window (r4 : R4State α) (now : EngineState α) (hwindow : bar.isWindowBar = true) :
    (r4.stepR4 now bar).prev = rememberedOf now ∧ (r4.stepR4 now bar).prevInitialised = true ∧
      (r4.stepR4 now bar).engine = now := by
  by_cases hraised : r4.raised now bar = []
  · rw [stepR4_of_quiet hwindow hraised]
    exact ⟨rfl, rfl, rfl⟩
  · rw [stepR4_of_raised hwindow hraised]
    exact ⟨rfl, rfl, rfl⟩

omit [LinearOrder α] in
theorem appends_stepR4 (r4 : R4State α) (now : EngineState α) (bar : ReferenceBar α) :
    Appends r4 (r4.stepR4 now bar) bar := by
  cases hwindow : bar.isWindowBar with
  | false =>
    refine Or.inl ⟨?_, fun h => Bool.noConfusion (hwindow.symm.trans h)⟩
    unfold R4State.stepR4 R4State.remembering R4State.logged
    simp only [hwindow, Bool.false_and, Bool.false_eq_true, if_false]
  | true =>
    by_cases hraised : r4.raised now bar = []
    · rw [stepR4_of_quiet hwindow hraised]
      exact Or.inl ⟨rfl, fun _ => hraised⟩
    · rw [stepR4_of_raised hwindow hraised]
      exact Or.inr ⟨hwindow, hraised, _, rfl, rfl, rfl⟩

/-- Bars outside the window remember what was remembered. -/
theorem prev_of_outside {bars : List (ReferenceBar α)}
    (houtside : ∀ bar ∈ bars, bar.isWindowBar = false ∧ (bar.enabled && bar.firstLabBar) = false)
    (hrun : r4.run O bars = .ok r4') :
    r4'.prev = r4.prev ∧ r4'.prevInitialised = r4.prevInitialised := by
  induction bars generalizing r4 with
  | nil =>
    cases hrun
    exact ⟨rfl, rfl⟩
  | cons bar rest ih =>
    obtain ⟨next, hstep, hrest⟩ := bind_ok.mp hrun
    obtain ⟨now, _, hnext⟩ := bind_ok.mp hstep
    obtain ⟨hwindow, hreset⟩ := houtside bar mem_cons_self
    have hsame : next.prev = r4.prev ∧ next.prevInitialised = r4.prevInitialised := by
      rw [← Except.ok.inj hnext]
      unfold R4State.stepR4 R4State.remembering R4State.logged R4State.resetFor
      simp only [hwindow, hreset, Bool.false_and, Bool.false_eq_true, if_false, and_self]
    obtain ⟨hprev, hinited⟩ :=
      ih (fun later hlater => houtside later (mem_cons_of_mem _ hlater)) hrest
    exact ⟨hprev.trans hsame.1, hinited.trans hsame.2⟩

/-- The changes that a bar asks to record: those of the relation and of the interactions only when
its settings say so. -/
def ReferenceBar.records (bar : ReferenceBar α) : Flag → Bool
  | .form => true
  | .life => true
  | .role => true
  | .boundaryLife => true
  | .compound => true
  | .openChanged => true
  | .relation => bar.recordRelationOnly
  | .interaction => bar.recordInteractionOnly
  | _ => false

omit [LinearOrder α] in
/-- **The flags of changes** that a bar of the window raises. -/
theorem mem_raised_iff (hwindow : bar.isWindowBar = true) (hprev : r4.prevInitialised = true)
    {flag : Flag} (hflag : flag ≠ .baseline ∧ flag ≠ .checkpoint ∧ flag ≠ .final) :
    flag ∈ r4.raised now bar ↔
      bar.records flag = true ∧ changedSince r4.prev (rememberedOf now) flag = true := by
  have hmem : flag ∈ Flag.all := by cases flag <;> decide
  unfold R4State.raised
  rw [mem_filter, and_iff_right hmem]
  cases flag with
  | baseline => exact absurd rfl hflag.1
  | checkpoint => exact absurd rfl hflag.2.1
  | final => exact absurd rfl hflag.2.2
  | relation => simp only [R4State.flags, ReferenceBar.records, hwindow, hprev, Bool.true_and,
      Bool.and_eq_true]
  | interaction => simp only [R4State.flags, ReferenceBar.records, hwindow, hprev, Bool.true_and,
      Bool.and_eq_true]
  | _ => simp only [R4State.flags, ReferenceBar.records, hwindow, hprev, Bool.true_and, true_and]

/-- **The log after a bar**: one record at most, and the last one says what the engine's state is. -/
structure LoggedBar (before after : R4State α) (bar : ReferenceBar α) : Prop where
  appends : Appends before after bar
  logged : bar.isWindowBar = true → ∀ last ∈ after.records.getLast?, Logged last after.engine
  atomic : bar.isWindowBar = true → bar.startsSegment = false →
    ∀ last ∈ after.records.getLast?, last.atomicClass = after.engine.r3.latestClass

theorem loggedBar_step (h : r4.Remembers) (hstep : r4.step O bar = .ok r4') :
    LoggedBar (r4.resetFor bar) r4' bar := by
  have hafter := remembers_step h hstep
  obtain ⟨now, hnow, hr4⟩ := bind_ok.mp hstep
  have hadvances := advances_of_step hnow (engine_resetFor r4 bar)
  cases hr4
  refine ⟨appends_stepR4 _ _ _, ?_, ?_⟩
  · intro hwindow last hlast
    obtain ⟨hprev, _, hengine⟩ := prev_of_window (r4.resetFor bar) now hwindow
    have hagrees := hafter.agrees last hlast
    have hcompound := hafter.compound (by rw [hengine, hprev]; rfl) last hlast
    rw [hprev] at hagrees
    rw [hengine] at hcompound ⊢
    exact ⟨hagrees, hcompound⟩
  · intro hwindow hstart last hlast
    obtain ⟨hprev, _, hengine⟩ := prev_of_window (r4.resetFor bar) now hwindow
    refine hafter.atomic (by rw [hengine, hprev]; rfl) ?_ last hlast
    rw [hengine]
    rcases hadvances.generation with ⟨hstarts, _⟩ | ⟨_, hsigned⟩ | ⟨_, _, _, hsigned⟩
    · exact Bool.noConfusion (hstart.symm.trans hstarts)
    · exact hsigned
    · exact hsigned ((Bool.and_eq_true _ _).mp hwindow).1

/-- **The succession log of a run**: its ids count its records, it names one final bar at most, and
after every bar of the window its last record says what the engine's state is, the atomic class too
unless the bar starts a segment. A record names the changes since the last bar of the window that the
bar asks to record. -/
theorem succession_log_lossless {bars : List (ReferenceBar α)}
    (hrun : ({} : R4State α).run O bars = .ok r4) :
    r4.records.map SuccessionRecord.recordId = List.range' 1 r4.records.length ∧
      r4.records.countP SuccessionRecord.namesFinal ≤ 1 ∧
      (∀ bar r4', r4.step O bar = .ok r4' → LoggedBar (r4.resetFor bar) r4' bar) ∧
      ∀ window between bar r4₁ r4₂ r4₃, r4.step O window = .ok r4₁ → window.isWindowBar = true →
        (∀ b ∈ between, b.isWindowBar = false ∧ (b.enabled && b.firstLabBar) = false) →
        r4₁.run O between = .ok r4₂ → r4₂.step O bar = .ok r4₃ → bar.isWindowBar = true →
        ∀ flag, flag ≠ .baseline ∧ flag ≠ .checkpoint ∧ flag ≠ .final →
          (flag ∈ r4₂.raised r4₃.engine bar ↔ bar.records flag = true ∧
            changedSince (rememberedOf r4₁.engine) (rememberedOf r4₃.engine) flag = true) := by
  have hremembers := remembers_run remembers_empty hrun
  refine ⟨hremembers.ids, hremembers.finals, fun bar r4' hstep => loggedBar_step hremembers hstep,
    ?_⟩
  intro window between bar r4₁ r4₂ r4₃ hwindowStep hwindow houtside hbetween _ hbar flag hflag
  obtain ⟨now, _, hr4⟩ := bind_ok.mp hwindowStep
  obtain ⟨hprev, hinited, hengine⟩ :=
    prev_of_window (r4.resetFor window) now hwindow
  change _ = Except.ok r4₁ at hr4
  rw [Except.ok.inj hr4] at hprev hinited hengine
  obtain ⟨hprev₂, hinited₂⟩ := prev_of_outside houtside hbetween
  rw [mem_raised_iff hbar (hinited₂.trans hinited) hflag, hprev₂, hprev, hengine]

/-- A bar outside the window between two bars that each start a segment. -/
def restartedBars : List (ReferenceBar Int) :=
  [{ windowBar 0 10 5 with segmentObs := 2 }, { windowBar 1 10 5 with segmentObs := 1 },
    { windowBar 2 10 5 with inLabWindow := false, segmentObs := 2 },
    { windowBar 3 10 5 with segmentObs := 1 }]

/-- The bars that start again are accepted; the last record has the class of the first of them. -/
theorem run_restartedBars : ((({} : R4State Int).run ticks restartedBars).toOption.map fun r4 =>
      (r4.records.getLast?.map SuccessionRecord.atomicClass, r4.engine.r3.latestClass)) =
        some (some .baseline, .other) := by decide +kernel

/-- **The log may miss a transition**: a bar of the window that starts a segment leaves a last record
with another atomic class than the engine's, and a bar that does not ask for relations changes the
relation without a flag of it. -/
theorem succession_log_misses : (∃ r4, ({} : R4State Int).run ticks restartedBars = .ok r4 ∧
      (restartedBars.getLast?.map ReferenceBar.isWindowBar) = some true ∧
      ∃ last ∈ r4.records.getLast?, last.atomicClass ≠ r4.engine.r3.latestClass) ∧
    ∃ r4 r4', ({} : R4State Int).run ticks (peakBars.take 6) = .ok r4 ∧
      r4.step ticks (windowBar 6 10 5) = .ok r4' ∧ r4'.records.length = r4.records.length + 1 ∧
      changedSince (rememberedOf r4.engine) (rememberedOf r4'.engine) .relation = true ∧
      .relation ∉ r4.raised r4'.engine (windowBar 6 10 5) := by
  constructor
  · obtain ⟨r4, hr4, hvals⟩ := Option.map_eq_some_iff.mp run_restartedBars
    obtain ⟨hlast, hcur⟩ := Prod.mk.inj hvals
    obtain ⟨last, hmem, hcls⟩ := Option.map_eq_some_iff.mp hlast
    refine ⟨r4, eq_ok_of_toOption hr4, by decide, last, hmem, ?_⟩
    rw [hcls, hcur]
    decide
  · have hpeak : ((({} : R4State Int).run ticks (peakBars.take 6)).toOption.bind fun r4 =>
        (r4.step ticks (windowBar 6 10 5)).toOption.map fun r4' =>
          (decide (r4'.records.length = r4.records.length + 1),
            changedSince (rememberedOf r4.engine) (rememberedOf r4'.engine) .relation,
            decide (.relation ∈ r4.raised r4'.engine (windowBar 6 10 5)))) =
          some (true, true, false) := by decide +kernel
    obtain ⟨r4, hr4, hstep⟩ := Option.bind_eq_some_iff.mp hpeak
    obtain ⟨r4', hr4', hvals⟩ := Option.map_eq_some_iff.mp hstep
    obtain ⟨hlen, hvals⟩ := Prod.mk.inj hvals
    obtain ⟨hchanged, hraised⟩ := Prod.mk.inj hvals
    exact ⟨r4, r4', eq_ok_of_toOption hr4, eq_ok_of_toOption hr4', of_decide_eq_true hlen,
      hchanged, of_decide_eq_false hraised⟩

/-- The log of the seven bars. -/
theorem succession_log_lossless_peak :
    ∃ r4, ({} : R4State Int).run ticks peakBars = .ok r4 ∧ r4.records ≠ [] ∧
      r4.records.map SuccessionRecord.recordId = List.range' 1 r4.records.length ∧
      r4.records.countP SuccessionRecord.namesFinal ≤ 1 := by
  have hrecords : ((({} : R4State Int).run ticks peakBars).toOption.map fun r4 =>
      r4.records.isEmpty) = some false := by decide +kernel
  obtain ⟨r4, hr4, hempty⟩ := Option.map_eq_some_iff.mp hrecords
  have hrun := eq_ok_of_toOption hr4
  obtain ⟨hids, hfinals, _⟩ := succession_log_lossless hrun
  refine ⟨r4, hrun, ?_, hids, hfinals⟩
  intro hnone
  rw [hnone] at hempty
  cases hempty

end OvcReplay.C2Csm
