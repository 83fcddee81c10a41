import OvcReplay.C2Csm.Coherence
import Mathlib

/-! # Compound transitions telescope

A resolution is the sum of the atomic transitions since its anchor was set: the entries of the ledger
between the two are a chain of geometries from the anchor to the final one, and a resolution begins
where the one before it ended unless the envelope was lost in between. -/

namespace OvcReplay.C2Csm

open List Python

section

variable {α : Type} [LinearOrder α]

/-! ## Chains of geometries -/

variable (O : PriceOps α)

/-- The entry is a move from a geometry to another. -/
structure AtomicEntry.Joins (e : AtomicEntry α) (old new : α × α) : Prop where
  oldUpper : e.oldUpper = some old.1
  oldLower : e.oldLower = some old.2
  newUpper : e.newUpper = some new.1
  newLower : e.newLower = some new.2
  widthDelta : e.widthDelta = some (O.sub (O.width new) (O.width old))
  midDelta : e.midDelta = some (O.sub (O.middle new) (O.middle old))

/-- **A chain of moves** from a geometry to another. -/
inductive Chain : α × α → List (AtomicEntry α) → α × α → Prop
  | nil (g : α × α) : Chain g [] g
  | snoc {g h h' : α × α} {entries : List (AtomicEntry α)} {e : AtomicEntry α}
      (hchain : Chain g entries h) (hjoins : e.Joins O h h') : Chain g (entries ++ [e]) h'

/-- The entry moved the upper boundary. -/
def AtomicEntry.movedUpper (e : AtomicEntry α) : Bool := decide (e.newUpper ≠ e.oldUpper)

/-- The entry moved the lower boundary. -/
def AtomicEntry.movedLower (e : AtomicEntry α) : Bool := decide (e.newLower ≠ e.oldLower)

/-! ## Resolutions -/

/-- The last entry of the ledger, if there is one, has the generation and the bar. -/
def EndsAt (entries : List (AtomicEntry α)) (generation : Nat) (bar : Int) : Prop :=
  ∀ e ∈ entries.getLast?, e.generation = generation ∧ e.bar = bar

/-- **What a resolution stands for**: a chain of the entries of its span, from its anchor to its final
geometry. -/
structure CompoundEntry.Spans (c : CompoundEntry α) (ledger : List (AtomicEntry α))
    (span : Nat × Nat) : Prop where
  within : span.2 ≤ ledger.length
  nonempty : span.1 < span.2
  chain : Chain O (c.anchorUpper, c.anchorLower) ((ledger.take span.2).drop span.1)
    (c.finalUpper, c.finalLower)
  anchored : ∀ e ∈ (ledger.take span.1).getLast?, e.generation = c.anchorGeneration
  resolved : EndsAt (ledger.take span.2) c.resolutionGeneration c.resolutionBar
  upperLegs : c.upperLegCount = ((ledger.take span.2).drop span.1).countP AtomicEntry.movedUpper
  lowerLegs : c.lowerLegCount = ((ledger.take span.2).drop span.1).countP AtomicEntry.movedLower
  upperMoved : 0 < c.upperLegCount
  lowerMoved : 0 < c.lowerLegCount
  cls : c.cls = classifyCompound c.anchorUpper c.anchorLower c.finalUpper c.finalLower
  widthDelta : c.widthDelta = O.sub (O.sub c.finalUpper c.finalLower)
    (O.sub c.anchorUpper c.anchorLower)
  midDelta : c.midDelta = O.sub (O.mid c.finalUpper c.finalLower)
    (O.mid c.anchorUpper c.anchorLower)

/-- The envelope was lost between two positions of the ledger. -/
def LostBetween (ledger : List (AtomicEntry α)) (start stop : Nat) : Prop :=
  ∃ i e, start ≤ i ∧ i < stop ∧ ledger[i]? = some e ∧ e.cls = .evaluabilityLost

/-- A geometry that follows a resolution: the final one of it, or one after a loss. -/
def Follows (ledger : List (AtomicEntry α)) (previous : (Nat × Nat) × CompoundEntry α)
    (start : Nat) (g : α × α) : Prop :=
  previous.1.2 ≤ start ∧
    ((previous.1.2 = start ∧ g = (previous.2.finalUpper, previous.2.finalLower)) ∨
      LostBetween ledger previous.1.2 start)

/-- The next resolution follows the one before it. -/
def Successive (ledger : List (AtomicEntry α)) (previous next : (Nat × Nat) × CompoundEntry α) :
    Prop :=
  Follows ledger previous next.1.1 (next.2.anchorUpper, next.2.anchorLower)

/-! ## Ledgers that grow -/

variable {ledger : List (AtomicEntry α)} (e : AtomicEntry α)

omit [LinearOrder α] in
theorem take_append_of_le {n : Nat} (h : n ≤ ledger.length) :
    (ledger ++ [e]).take n = ledger.take n := by
  rw [take_append_of_le_length h]

variable {O} in
theorem CompoundEntry.Spans.append {c : CompoundEntry α} {span : Nat × Nat}
    (h : c.Spans O ledger span) : c.Spans O (ledger ++ [e]) span where
  within := by
    rw [length_append]
    exact h.within.trans (Nat.le_add_right _ _)
  nonempty := h.nonempty
  chain := by
    rw [take_append_of_le e h.within]
    exact h.chain
  anchored := by
    rw [take_append_of_le e (h.nonempty.le.trans h.within)]
    exact h.anchored
  resolved := by
    rw [take_append_of_le e h.within]
    exact h.resolved
  upperLegs := by
    rw [take_append_of_le e h.within]
    exact h.upperLegs
  lowerLegs := by
    rw [take_append_of_le e h.within]
    exact h.lowerLegs
  upperMoved := h.upperMoved
  lowerMoved := h.lowerMoved
  cls := h.cls
  widthDelta := h.widthDelta
  midDelta := h.midDelta

omit [LinearOrder α] in
theorem LostBetween.append {start stop : Nat} (h : LostBetween ledger start stop) {stop' : Nat}
    (hle : stop ≤ stop') : LostBetween (ledger ++ [e]) start stop' := by
  obtain ⟨i, lost, hstart, hstop, hget, hcls⟩ := h
  refine ⟨i, lost, hstart, hstop.trans_le hle, ?_, hcls⟩
  rw [List.getElem?_append_left (List.getElem?_eq_some_iff.mp hget).1]
  exact hget

omit [LinearOrder α] in
theorem Follows.append {previous : (Nat × Nat) × CompoundEntry α} {start : Nat} {g : α × α}
    (h : Follows ledger previous start g) : Follows (ledger ++ [e]) previous start g :=
  ⟨h.1, h.2.imp_right fun hlost => hlost.append e le_rfl⟩

/-! ## The open compound -/

/-- **The compound that is open**: its anchor was set at a position of the ledger, and the entries
since are a chain to the current geometry that its legs count. -/
structure Open (ledger : List (AtomicEntry α)) (anchor : Anchor α) (start : Nat)
    (anchored current : α × α) : Prop where
  within : start ≤ ledger.length
  initialised : anchor.initialised = true
  upper : anchor.upper = some anchored.1
  lower : anchor.lower = some anchored.2
  chain : Chain O anchored (ledger.drop start) current
  generation : ∀ e ∈ (ledger.take start).getLast?, e.generation = anchor.generation
  upperLegs : anchor.upperLegCount = (ledger.drop start).countP AtomicEntry.movedUpper
  lowerLegs : anchor.lowerLegCount = (ledger.drop start).countP AtomicEntry.movedLower
  upperMoved : anchor.upperMoved = decide (0 < anchor.upperLegCount)
  lowerMoved : anchor.lowerMoved = decide (0 < anchor.lowerLegCount)

/-- **The law of the ledgers**, for the spans of the resolutions: an open compound follows the last of
them, or the envelope was lost since. -/
structure Telescopes (ledger : List (AtomicEntry α)) (resolutions : List (CompoundEntry α))
    (anchor : Anchor α) (current : Option (α × α)) (spans : List (Nat × Nat)) : Prop where
  spanned : Forall₂ (fun c span => c.Spans O ledger span) resolutions spans
  successive : (spans.zip resolutions).IsChain (Successive ledger)
  compound : (∃ start anchored geometry, current = some geometry ∧
      Open O ledger anchor start anchored geometry ∧
      ∀ previous ∈ (spans.zip resolutions).getLast?, Follows ledger previous start anchored) ∨
    (current = none ∧ anchor.initialised = false ∧
      ∀ previous ∈ (spans.zip resolutions).getLast?,
        LostBetween ledger previous.1.2 ledger.length)

variable {O} {resolutions : List (CompoundEntry α)} {spans : List (Nat × Nat)} {e}

/-- An anchor that was just set. -/
theorem open_set {new : α × α} {generation : Nat} {barIndex : Int}
    (hgen : ∀ e ∈ ledger.getLast?, e.generation = generation) :
    Open O ledger (Anchor.set (some new.1) (some new.2) generation barIndex) ledger.length new
      new where
  within := le_rfl
  initialised := rfl
  upper := rfl
  lower := rfl
  chain := by
    rw [drop_length]
    exact Chain.nil new
  generation := by
    rw [take_length]
    exact hgen
  upperLegs := by
    rw [drop_length]
    rfl
  lowerLegs := by
    rw [drop_length]
    rfl
  upperMoved := rfl
  lowerMoved := rfl

/-- **An open compound moves on** with an entry. -/
theorem Open.append {anchor : Anchor α} {start : Nat} {anchored old new : α × α}
    (h : Open O ledger anchor start anchored old) (hjoins : e.Joins O old new) :
    Open O (ledger ++ [e]) (anchor.moved old new) start anchored new := by
  have hdrop : (ledger ++ [e]).drop start = ledger.drop start ++ [e] :=
    drop_append_of_le_length h.within
  have hupper : [e].countP AtomicEntry.movedUpper = if new.1 ≠ old.1 then 1 else 0 := by
    rw [countP_singleton]
    unfold AtomicEntry.movedUpper
    rw [hjoins.newUpper, hjoins.oldUpper]
    simp only [ne_eq, Option.some.injEq, decide_eq_true_eq]
  have hlower : [e].countP AtomicEntry.movedLower = if new.2 ≠ old.2 then 1 else 0 := by
    rw [countP_singleton]
    unfold AtomicEntry.movedLower
    rw [hjoins.newLower, hjoins.oldLower]
    simp only [ne_eq, Option.some.injEq, decide_eq_true_eq]
  refine ⟨?_, h.initialised, h.upper, h.lower, ?_, ?_, ?_, ?_, ?_, ?_⟩
  · rw [length_append]
    exact h.within.trans (Nat.le_add_right _ _)
  · rw [hdrop]
    exact Chain.snoc h.chain hjoins
  · rw [take_append_of_le e h.within]
    exact h.generation
  · show anchor.upperLegCount + _ = _
    rw [hdrop, countP_append, hupper, h.upperLegs]
  · show anchor.lowerLegCount + _ = _
    rw [hdrop, countP_append, hlower, h.lowerLegs]
  · show (anchor.upperMoved || decide (new.1 ≠ old.1)) =
      decide (0 < anchor.upperLegCount + if new.1 ≠ old.1 then 1 else 0)
    rw [h.upperMoved]
    by_cases heq : new.1 = old.1
    · simp only [heq, ne_eq, not_true_eq_false, decide_false, Bool.or_false, if_false, Nat.add_zero]
    · simp only [heq, ne_eq, not_false_eq_true, decide_true, Bool.or_true, if_true,
        Nat.zero_lt_succ]
  · show (anchor.lowerMoved || decide (new.2 ≠ old.2)) =
      decide (0 < anchor.lowerLegCount + if new.2 ≠ old.2 then 1 else 0)
    rw [h.lowerMoved]
    by_cases heq : new.2 = old.2
    · simp only [heq, ne_eq, not_true_eq_false, decide_false, Bool.or_false, if_false, Nat.add_zero]
    · simp only [heq, ne_eq, not_false_eq_true, decide_true, Bool.or_true, if_true,
        Nat.zero_lt_succ]

/-- The resolutions of a ledger that grows. -/
theorem spans_append (h : Forall₂ (fun c span => c.Spans O ledger span) resolutions spans) :
    Forall₂ (fun c span => c.Spans O (ledger ++ [e]) span) resolutions spans :=
  h.imp fun _ _ hspans => hspans.append e

omit [LinearOrder α] in
theorem successive_append (h : (spans.zip resolutions).IsChain (Successive ledger)) :
    (spans.zip resolutions).IsChain (Successive (ledger ++ [e])) :=
  h.imp fun _ _ hfollows => Follows.append e hfollows

/-- **A resolution** spans the ledger from its anchor to its end. -/
theorem spans_resolved {c : Compound α} {start : Nat} {anchored new : α × α} {barIndex : Int}
    (h : Open O ledger c.anchor start anchored new) (hstart : start < ledger.length)
    (hlast : EndsAt ledger e.generation e.bar) (hupper : c.anchor.upperMoved = true)
    (hlower : c.anchor.lowerMoved = true) (hbar : barIndex = e.bar) :
    CompoundEntry.Spans O
      { anchorGeneration := c.anchor.generation, resolutionGeneration := e.generation
        resolutionBar := barIndex
        cls := classifyCompound anchored.1 anchored.2 new.1 new.2
        anchorUpper := anchored.1, anchorLower := anchored.2
        finalUpper := new.1, finalLower := new.2
        widthDelta := O.sub (O.width new) (O.width anchored)
        midDelta := O.sub (O.middle new) (O.middle anchored)
        upperLegCount := c.anchor.upperLegCount, lowerLegCount := c.anchor.lowerLegCount }
      ledger (start, ledger.length) where
  within := le_rfl
  nonempty := hstart
  chain := by
    rw [take_length]
    exact h.chain
  anchored := h.generation
  resolved := by
    rw [take_length, hbar]
    exact hlast
  upperLegs := by
    rw [take_length]
    exact h.upperLegs
  lowerLegs := by
    rw [take_length]
    exact h.lowerLegs
  upperMoved := of_decide_eq_true (h.upperMoved.symm.trans hupper)
  lowerMoved := of_decide_eq_true (h.lowerMoved.symm.trans hlower)
  cls := rfl
  widthDelta := rfl
  midDelta := rfl

/-! ## Steps -/

/-- **A transition keeps the law of the ledgers.** -/
theorem telescopes_advanced {c : Compound α} {old : Option (α × α)} (new : Option (α × α))
    (h : Telescopes O ledger c.ledger c.anchor old spans) (hcls : e.cls = classifyAtomic old new)
    (hjoins : ∀ o n, old = some o → new = some n → e.Joins O o n) :
    ∃ spans', Telescopes O (ledger ++ [e]) (c.advanced O old new e.generation e.bar).ledger
      (c.advanced O old new e.generation e.bar).anchor new spans' := by
  have hspans := spans_append (e := e) h.spanned
  have hsuccessive := successive_append (e := e) h.successive
  have hlen : (ledger ++ [e]).length = ledger.length + 1 := by
    rw [length_append, length_singleton]
  have hends : EndsAt (ledger ++ [e]) e.generation e.bar := by
    intro last hlast
    rw [getLast?_concat] at hlast
    rw [← Option.some.inj hlast]
    exact ⟨rfl, rfl⟩
  cases old with
  | none =>
    have hclosed : ∀ previous ∈ (spans.zip c.ledger).getLast?,
        LostBetween (ledger ++ [e]) previous.1.2 (ledger ++ [e]).length := by
      rcases h.compound with ⟨_, _, _, hnone, _⟩ | ⟨_, _, hlost⟩
      · cases hnone
      · intro previous hprev
        exact (hlost previous hprev).append e (by rw [hlen]; exact Nat.le_succ _)
    cases new with
    | none =>
      have huninit : c.anchor.initialised = false := by
        rcases h.compound with ⟨_, _, _, hnone, _⟩ | ⟨_, huninit, _⟩
        · cases hnone
        · exact huninit
      exact ⟨spans, hspans, hsuccessive, Or.inr ⟨rfl, huninit, hclosed⟩⟩
    | some n =>
      refine ⟨spans, hspans, hsuccessive, Or.inl ⟨_, n, n, rfl,
        open_set fun last hlast => (hends last hlast).1, ?_⟩⟩
      intro previous hprev
      obtain ⟨i, lost, hstart, hstop, hget, hlostCls⟩ := hclosed previous hprev
      exact ⟨hstart.trans hstop.le, Or.inr ⟨i, lost, hstart, hstop, hget, hlostCls⟩⟩
  | some o =>
    rcases h.compound with ⟨start, anchored, geometry, hgeom, hopen, hfollows⟩ | ⟨hnone, _⟩
    swap
    · cases hnone
    cases hgeom
    cases new with
    | none =>
      refine ⟨spans, hspans, hsuccessive, Or.inr ⟨rfl, rfl, ?_⟩⟩
      intro previous hprev
      refine ⟨ledger.length, e, (hfollows previous hprev).1.trans hopen.within, ?_,
        getElem?_concat_length, hcls⟩
      rw [hlen]
      exact Nat.lt_succ_self _
    | some n =>
      have hmoved := hopen.append (hjoins o n rfl rfl)
      have hkept : ∀ previous ∈ (spans.zip c.ledger).getLast?,
          Follows (ledger ++ [e]) previous start anchored :=
        fun previous hprev => (hfollows previous hprev).append e
      simp only [Compound.advanced, hopen.initialised, Bool.not_true, Bool.false_eq_true,
        if_false]
      by_cases hboth : ((c.anchor.moved o n).upperMoved && (c.anchor.moved o n).lowerMoved) =
          true
      · have hgeom : geometry (c.anchor.moved o n).upper (c.anchor.moved o n).lower =
            some anchored := by
          rw [hmoved.upper, hmoved.lower]
          rfl
        simp only [hboth, if_true, hgeom]
        obtain ⟨hupper, hlower⟩ := (Bool.and_eq_true _ _).mp hboth
        have hnew := spans_resolved (c := { c with anchor := c.anchor.moved o n }) hmoved
          (by rw [hlen]; exact Nat.lt_succ_of_le hopen.within) hends hupper hlower rfl
        have hzip : spans.length = c.ledger.length := h.spanned.length_eq.symm
        refine ⟨spans ++ [(start, (ledger ++ [e]).length)],
          rel_append hspans (Forall₂.cons hnew Forall₂.nil), ?_,
          Or.inl ⟨_, n, n, rfl, open_set fun last hlast => (hends last hlast).1, ?_⟩⟩
        · show ((spans ++ [_]).zip (c.ledger ++ [_])).IsChain _
          rw [zip_append hzip, isChain_append]
          refine ⟨hsuccessive, isChain_singleton _, ?_⟩
          intro previous hprev next hnext
          rw [← Option.some.inj hnext]
          exact hkept previous hprev
        · intro previous hprev
          change previous ∈ ((spans ++ [_]).zip (c.ledger ++ [_])).getLast? at hprev
          rw [zip_append hzip] at hprev
          have hlast := Option.some.inj
            (getLast?_concat.symm.trans hprev)
          rw [← hlast]
          exact ⟨le_rfl, Or.inl ⟨rfl, rfl⟩⟩
      · rw [Bool.not_eq_true] at hboth
        simp only [hboth, Bool.false_eq_true, if_false]
        exact ⟨spans, hspans, hsuccessive, Or.inl ⟨start, anchored, n, rfl, hmoved, hkept⟩⟩

/-! ## Bars -/

omit [LinearOrder α] in
/-- A geometry by its parts. -/
theorem geometry_map (g : Option (α × α)) : geometry (g.map Prod.fst) (g.map Prod.snd) = g := by
  cases g with
  | none => rfl
  | some g => rfl

omit [LinearOrder α] in
/-- What is remembered of an envelope is its geometry. -/
theorem prevEvaluable_remembered (r3 : R3State α) (env : Envelope α) :
    (r3.remembered env).prevEvaluable = env.evaluable := by
  show (if env.statusUnique then geometry (env.evaluable.map Prod.fst)
    (env.evaluable.map Prod.snd) else none) = env.evaluable
  rw [geometry_map]
  by_cases hstatus : env.statusUnique = true
  · rw [if_pos hstatus]
  · unfold Envelope.evaluable
    rw [Bool.not_eq_true] at hstatus
    rw [hstatus, Bool.false_and]
    rfl

variable (O) in
/-- **The law of the ledgers of a state**: before the first envelope there is nothing. -/
structure R3State.Telescoping (r3 : R3State α) : Prop where
  law : ∃ spans, Telescopes O r3.ledger r3.compound.ledger r3.compound.anchor r3.prevEvaluable spans
  fresh : r3.prevInitialised = false →
    r3.ledger = [] ∧ r3.compound.ledger = [] ∧ r3.compound.anchor.initialised = false

variable {r3 : R3State α}

omit [LinearOrder α] in
/-- The geometry of a previous envelope is read from what was remembered. -/
theorem of_prevEvaluable {g : α × α} (h : r3.prevEvaluable = some g) :
    r3.prevUpper = some g.1 ∧ r3.prevLower = some g.2 := by
  unfold R3State.prevEvaluable at h
  split at h
  · unfold geometry at h
    split at h
    · next u l hu hl =>
        rw [hu, hl, ← Option.some.inj h]
        exact ⟨rfl, rfl⟩
    · cases h
  · cases h

theorem telescoping_transitioned (h : r3.Telescoping O) (env : Envelope α) (bar : ReferenceBar α) :
    (r3.transitioned O env bar).Telescoping O := by
  obtain ⟨spans, hlaw⟩ := h.law
  refine ⟨?_, fun hfresh => Bool.noConfusion hfresh⟩
  have hadvanced := telescopes_advanced env.evaluable
    (e := { generation := env.generation, bar := bar.barIndex
            cls := classifyAtomic r3.prevEvaluable env.evaluable
            oldUpper := r3.prevUpper, oldLower := r3.prevLower
            newUpper := env.evaluable.map Prod.fst, newLower := env.evaluable.map Prod.snd
            widthDelta := deltaOf O.sub O.width r3.prevEvaluable env.evaluable
            midDelta := deltaOf O.sub O.middle r3.prevEvaluable env.evaluable }) hlaw rfl (by
      intro old new hold hnew
      obtain ⟨hupper, hlower⟩ := of_prevEvaluable hold
      exact ⟨hupper, hlower, congrArg (Option.map Prod.fst) hnew,
        congrArg (Option.map Prod.snd) hnew, congrArg₂ (deltaOf O.sub O.width) hold hnew,
        congrArg₂ (deltaOf O.sub O.middle) hold hnew⟩)
  obtain ⟨spans', hspans'⟩ := hadvanced
  refine ⟨spans', ?_⟩
  have hprev : (r3.transitioned O env bar).prevEvaluable = env.evaluable :=
    prevEvaluable_remembered r3 env
  rw [hprev]
  exact hspans'

theorem telescoping_baselined (h : r3.Telescoping O) (env : Envelope α) (bar : ReferenceBar α)
    (hfresh : r3.prevInitialised = false) :
    (r3.baselined env bar).Telescoping O := by
  obtain ⟨hledger, hresols, huninit⟩ := h.fresh hfresh
  refine ⟨⟨[], ?_⟩, fun hfresh => Bool.noConfusion hfresh⟩
  have hprev : (r3.baselined env bar).prevEvaluable = env.evaluable :=
    prevEvaluable_remembered r3 env
  rw [hprev]
  have hbaselined : (r3.baselined env bar).ledger = [] := hledger
  cases hevaluable : env.evaluable with
  | none =>
    have hcmpd : (r3.baselined env bar).compound = r3.compound := by
      unfold R3State.baselined
      rw [hevaluable]
    rw [hcmpd, hbaselined, hresols]
    exact ⟨Forall₂.nil, IsChain.nil, Or.inr ⟨rfl, huninit,
      fun _ hprevious => (Option.some_ne_none _ hprevious.symm).elim⟩⟩
  | some g =>
    have hcmpd : (r3.baselined env bar).compound = { r3.compound with
        anchor := Anchor.set (some g.1) (some g.2) env.generation bar.barIndex } := by
      unfold R3State.baselined
      rw [hevaluable]
    rw [hcmpd, hbaselined]
    show Telescopes O [] r3.compound.ledger _ _ _
    rw [hresols]
    refine ⟨Forall₂.nil, IsChain.nil, Or.inl ⟨0, g, g, rfl, open_set ?_, ?_⟩⟩
    · intro _ hlast
      exact (Option.some_ne_none _ hlast.symm).elim
    · intro _ hprevious
      exact (Option.some_ne_none _ hprevious.symm).elim

theorem telescoping_changed (h : r3.Telescoping O) (env : Envelope α) (bar : ReferenceBar α) :
    (r3.changed O env bar).Telescoping O := by
  unfold R3State.changed
  split
  · by_cases hinited : r3.prevInitialised = true
    · rw [if_pos hinited]
      exact telescoping_transitioned h env bar
    · rw [if_neg hinited]
      exact telescoping_baselined h env bar (Bool.not_eq_true _ ▸ hinited)
  · exact h

theorem telescoping_lifecycleCounted (h : r3.Telescoping O) (env : Envelope α)
    (bar : ReferenceBar α) : (r3.lifecycleCounted env bar).Telescoping O := by
  unfold R3State.lifecycleCounted
  split
  · exact ⟨h.law, h.fresh⟩
  · exact h

/-- **A bar keeps the law of the ledgers.** -/
theorem telescoping_stepR3 (h : r3.Telescoping O) (env : Envelope α) (bar : ReferenceBar α) :
    (r3.stepR3 O env bar).Telescoping O := by
  have hchg := telescoping_changed (telescoping_lifecycleCounted h env bar) env bar
  exact ⟨hchg.law, hchg.fresh⟩

theorem telescoping_empty : ({} : R3State α).Telescoping O where
  law := ⟨[], Forall₂.nil, IsChain.nil, Or.inr ⟨rfl, rfl,
    fun _ hprev => (Option.some_ne_none _ hprev.symm).elim⟩⟩
  fresh _ := ⟨rfl, rfl, rfl⟩

theorem telescoping_step {s s' : EngineState α} {bar : ReferenceBar α} (h : s.r3.Telescoping O)
    (hstep : s.step O bar = .ok s') : s'.r3.Telescoping O := by
  obtain ⟨_, _, hstep⟩ := bind_ok.mp hstep
  rw [← Except.ok.inj hstep]
  apply telescoping_stepR3
  unfold EngineState.resetFor
  split
  · exact telescoping_empty
  · exact h

/-- **A run keeps the law of the ledgers.** -/
theorem telescoping_run {bars : List (ReferenceBar α)} {s s' : EngineState α}
    (h : s.r3.Telescoping O) (hrun : s.run O bars = .ok s') : s'.r3.Telescoping O := by
  induction bars generalizing s with
  | nil =>
    cases hrun
    exact h
  | cons bar rest ih =>
    obtain ⟨next, hstep, hrest⟩ := bind_ok.mp hrun
    exact ih (telescoping_step h hstep) hrest

end

/-! ## Exact arithmetic -/

section

variable {α : Type} [Field α] [LinearOrder α] [IsStrictOrderedRing α] {O : PriceOps α}

/-- The arithmetic of the engine is exact. -/
structure PriceOps.Exact (O : PriceOps α) : Prop where
  sub : ∀ x y, O.sub x y = x - y
  mid : ∀ x y, O.mid x y = (x + y) / 2

variable {entries : List (AtomicEntry α)}

/-- The sum of what a chain recorded. -/
theorem sum_of_chain (hexact : O.Exact) {g h : α × α} (hchain : Chain O g entries h) :
    (entries.map fun e => e.widthDelta.getD 0).sum = (h.1 - h.2) - (g.1 - g.2) ∧
      (entries.map fun e => e.midDelta.getD 0).sum = (h.1 + h.2) / 2 - (g.1 + g.2) / 2 := by
  induction hchain with
  | nil =>
    constructor
    · exact (sub_self _).symm
    · exact (sub_self _).symm
  | snoc hchain hjoins ih =>
    simp only [map_append, sum_append, map_cons, map_nil, sum_cons,
      sum_nil, ih.1, ih.2, hjoins.widthDelta, hjoins.midDelta, Option.getD_some,
      PriceOps.width, PriceOps.middle, hexact.sub, hexact.mid]
    constructor
    · ring
    · ring

omit [Field α] [LinearOrder α] [IsStrictOrderedRing α] in
/-- Every entry of a chain recorded both deltas. -/
theorem evaluable_of_chain {g h : α × α} (hchain : Chain O g entries h) :
    ∀ e ∈ entries, e.widthDelta.isSome = true ∧ e.midDelta.isSome = true := by
  induction hchain with
  | nil => exact fun e he => (not_mem_nil he).elim
  | snoc hchain hjoins ih =>
    intro e he
    rcases mem_append.mp he with hold | hnew
    · exact ih e hold
    · rw [mem_singleton.mp hnew, hjoins.widthDelta, hjoins.midDelta]
      exact ⟨rfl, rfl⟩

/-- The class that the signs of two displacements give. -/
structure ClassOfSigns (cls : CompoundClass) (upper lower : α) : Prop where
  seqUpShift : cls = .seqUpShift ↔ 0 < upper ∧ 0 < lower
  seqDownShift : cls = .seqDownShift ↔ upper < 0 ∧ lower < 0
  expansion : cls = .expansion ↔ 0 < upper ∧ lower < 0
  contraction : cls = .contraction ↔ upper < 0 ∧ 0 < lower
  returnOrMixed : cls = .returnOrMixed ↔ upper = 0 ∨ lower = 0

theorem classOfSigns (anchorUpper anchorLower upper lower : α) :
    ClassOfSigns (classifyCompound anchorUpper anchorLower upper lower) (upper - anchorUpper)
      (lower - anchorLower) := by
  unfold classifyCompound
  rcases lt_trichotomy anchorUpper upper with hupper | hupper | hupper <;>
    rcases lt_trichotomy anchorLower lower with hlower | hlower | hlower <;>
    constructor <;>
    simp only [sub_pos, sub_neg, sub_eq_zero] <;>
    grind

/-- **What the ledgers say of a resolution**, for the entries of its span. -/
structure CompoundEntry.Telescoped (c : CompoundEntry α) (ledger : List (AtomicEntry α))
    (span : Nat × Nat) : Prop where
  within : span.1 < span.2 ∧ span.2 ≤ ledger.length
  anchored : ∀ e ∈ (ledger.take span.1).getLast?, e.generation = c.anchorGeneration
  resolved : ∀ e ∈ (ledger.take span.2).getLast?,
    e.generation = c.resolutionGeneration ∧ e.bar = c.resolutionBar
  evaluable : ∀ e ∈ (ledger.take span.2).drop span.1,
    e.widthDelta.isSome = true ∧ e.midDelta.isSome = true
  width : c.widthDelta = (c.finalUpper - c.finalLower) - (c.anchorUpper - c.anchorLower) ∧
    c.widthDelta = (((ledger.take span.2).drop span.1).map fun e => e.widthDelta.getD 0).sum
  mid : c.midDelta = (c.finalUpper + c.finalLower) / 2 - (c.anchorUpper + c.anchorLower) / 2 ∧
    c.midDelta = (((ledger.take span.2).drop span.1).map fun e => e.midDelta.getD 0).sum
  upperLegs : c.upperLegCount =
    ((ledger.take span.2).drop span.1).countP AtomicEntry.movedUpper ∧ 0 < c.upperLegCount
  lowerLegs : c.lowerLegCount =
    ((ledger.take span.2).drop span.1).countP AtomicEntry.movedLower ∧ 0 < c.lowerLegCount
  cls : ClassOfSigns c.cls (c.finalUpper - c.anchorUpper) (c.finalLower - c.anchorLower)

theorem telescoped_of_spans (hexact : O.Exact) {c : CompoundEntry α}
    {ledger : List (AtomicEntry α)} {span : Nat × Nat} (h : c.Spans O ledger span) :
    c.Telescoped ledger span where
  within := ⟨h.nonempty, h.within⟩
  anchored := h.anchored
  resolved := h.resolved
  evaluable := evaluable_of_chain h.chain
  width := by
    have hwidth : c.widthDelta =
        (c.finalUpper - c.finalLower) - (c.anchorUpper - c.anchorLower) := by
      rw [h.widthDelta]
      simp only [hexact.sub]
    exact ⟨hwidth, hwidth.trans (sum_of_chain hexact h.chain).1.symm⟩
  mid := by
    have hmid : c.midDelta =
        (c.finalUpper + c.finalLower) / 2 - (c.anchorUpper + c.anchorLower) / 2 := by
      rw [h.midDelta]
      simp only [hexact.sub, hexact.mid]
    exact ⟨hmid, hmid.trans (sum_of_chain hexact h.chain).2.symm⟩
  upperLegs := ⟨h.upperLegs, h.upperMoved⟩
  lowerLegs := ⟨h.lowerLegs, h.lowerMoved⟩
  cls := by
    rw [h.cls]
    exact classOfSigns _ _ _ _

/-- **Compound transitions telescope**: in every run each resolution has a span of the atomic ledger,
of which it is the sum, and begins where the one before it ended unless the envelope was lost in
between. -/
theorem compound_transitions_telescope (hexact : O.Exact) {bars : List (ReferenceBar α)}
    {s : EngineState α} (hrun : ({} : EngineState α).run O bars = .ok s) :
    ∃ spans : List (Nat × Nat),
      Forall₂ (fun c span => c.Telescoped s.r3.ledger span) s.r3.compound.ledger spans ∧
        (spans.zip s.r3.compound.ledger).IsChain (Successive s.r3.ledger) := by
  obtain ⟨spans, hlaw⟩ := (telescoping_run telescoping_empty hrun).law
  exact ⟨spans, hlaw.spanned.imp fun _ _ hspans => telescoped_of_spans hexact hspans,
    hlaw.successive⟩

end

/-- Exact prices, with the text of whole ones. -/
def exactPrices : PriceOps ℚ where
  sub x y := x - y
  mid x y := (x + y) / 2
  positive x := decide (0 < x)
  signature x _ := intText x.num

/-- A peak that is a trough, a higher peak and a lower trough. -/
def swingBars : List (ReferenceBar ℚ) :=
  [windowBar 0 10 5, windowBar 1 11 5, windowBar 2 12 4, windowBar 3 20 1, windowBar 4 12 4,
    windowBar 5 11 5, windowBar 6 10 5, windowBar 7 11 5, windowBar 8 12 5, windowBar 9 13 5,
    windowBar 10 30 5, windowBar 11 13 5, windowBar 12 12 5, windowBar 13 11 5, windowBar 14 10 5,
    windowBar 15 10 5, windowBar 16 10 5, windowBar 17 10 0, windowBar 18 10 5, windowBar 19 10 5,
    windowBar 20 10 5]

/-- The swings are accepted and resolved once, as an expansion. -/
theorem run_swingBars : ∃ s, ({} : EngineState ℚ).run exactPrices swingBars = .ok s ∧
    (s.r3.compound.ledger.map fun c => (c.cls, c.widthDelta, c.midDelta)) =
      [(.expansion, 11, 9 / 2)] := by
  have hledger : ((({} : EngineState ℚ).run exactPrices swingBars).toOption.map fun s =>
      s.r3.compound.ledger.map fun c => (c.cls, c.widthDelta, c.midDelta)) =
        some [(.expansion, 11, 9 / 2)] := by decide +kernel
  obtain ⟨s, hs, hresols⟩ := Option.map_eq_some_iff.mp hledger
  exact ⟨s, eq_ok_of_toOption hs, hresols⟩

/-- The one resolution of the swings is the sum of its span. -/
theorem compound_transitions_telescope_swings :
    ∃ s, ({} : EngineState ℚ).run exactPrices swingBars = .ok s ∧
      (s.r3.compound.ledger.map fun c => (c.cls, c.widthDelta, c.midDelta)) =
        [(.expansion, 11, 9 / 2)] ∧
      ∃ spans, Forall₂ (fun c span => c.Telescoped s.r3.ledger span) s.r3.compound.ledger
        spans := by
  obtain ⟨s, hrun, hledger⟩ := run_swingBars
  obtain ⟨spans, hspans, _⟩ := compound_transitions_telescope (O := exactPrices)
    ⟨fun _ _ => rfl, fun _ _ => rfl⟩ hrun
  exact ⟨s, hrun, hledger, spans, hspans⟩

end OvcReplay.C2Csm
