import OvcReplay.C2Csm.FormationSteps

/-! # Events of the CSM reference engine

When a bar forms an object: its candidates are read from histories in which every low is at or below
the high of its bar, so that a bar that forms both forms the low below the high. -/

namespace OvcReplay.C2Csm

variable {α : Type} [LinearOrder α]

/-! ## Histories -/

/-- Every low is at or below the high of its bar. -/
def Spread (highs lows : List (Option α)) : Prop :=
  List.Forall₂ (fun high low => ∀ x ∈ high, ∀ y ∈ low, y ≤ x) highs lows

variable {highs lows : List (Option α)}

theorem spread_pushHistory {high low : Option α}
    (h : Spread highs lows) (hbar : ∀ x ∈ high, ∀ y ∈ low, y ≤ x) :
    Spread (pushHistory highs high) (pushHistory lows low) := by
  have happ : Spread (highs ++ [high]) (lows ++ [low]) :=
    List.rel_append h (List.Forall₂.cons hbar List.Forall₂.nil)
  unfold pushHistory
  rw [happ.length_eq]
  exact List.forall₂_drop _ happ

variable {kind : Kind}

/-- A candidate that is extreme is beyond the first bar of the history. -/
theorem beyond_of_isExtreme {value : Option α} {rest : List (Option α)} {c : α}
    (h : isExtreme kind (value :: rest) c = true) : ∃ v, value = some v ∧ kind.Beyond c v := by
  have hval := List.all_eq_true.mp h value (by
    rw [List.eraseIdx_cons_succ]
    exact List.mem_cons_self)
  cases value with
  | none => cases hval
  | some v => exact ⟨v, rfl, of_decide_eq_true hval⟩

/-- **The low of a bar with both events is below the high.** -/
theorem lt_of_isExtreme {high low : α} (h : Spread highs lows)
    (hlen : highs.length = 7) (hhigh : isExtreme .high highs high = true)
    (hlow : isExtreme .low lows low = true) : low < high := by
  cases h with
  | nil => cases hlen
  | cons hbar _ =>
    obtain ⟨x, hx, hxhigh⟩ := beyond_of_isExtreme hhigh
    obtain ⟨y, hy, hylow⟩ := beyond_of_isExtreme hlow
    have hyx : y ≤ x := hbar x hx y hy
    calc
      low < y := hylow
      _ ≤ x := hyx
      _ < high := hxhigh

/-! ## Events -/

/-- The bar is looked at for new objects. -/
def ReferenceBar.isOpen (bar : ReferenceBar α) : Bool :=
  bar.enabled && bar.inLabWindow && !bar.chartGap

/-- A bar with an event. -/
theorem of_event {bar : ReferenceBar α} {history : List (Option α)}
    (hgap : bar.chartGap = true → bar.segmentObs < 7)
    (h : (bar.enabled && isEvent kind history (candidate (p3Ready bar highs lows) history)) = true)
    : bar.isOpen = true ∧ highs.length = 7 ∧ ∃ c,
      candidate (p3Ready bar highs lows) history = some c ∧ isExtreme kind history c = true := by
  obtain ⟨henab, hev⟩ := (Bool.and_eq_true _ _).mp h
  by_cases hready : p3Ready bar highs lows = true
  · simp only [p3Ready, Bool.and_eq_true, decide_eq_true_eq] at hready
    obtain ⟨⟨⟨⟨_, hwin⟩, hobs⟩, hhighs⟩, _⟩ := hready
    have hnogap : bar.chartGap = false := by
      rw [← Bool.not_eq_true]
      intro hchart
      have hlt := hgap hchart
      omega
    refine ⟨?_, hhighs, ?_⟩
    · unfold ReferenceBar.isOpen
      rw [henab, hwin, hnogap]
      rfl
    · unfold isEvent at hev
      split at hev
      · next c hc => exact ⟨c, hc, hev⟩
      · cases hev
  · unfold candidate at hev
    rw [if_neg hready] at hev
    cases hev

theorem formed_of_event (r1 : R1State α) {event : Bool} {value : Option α} {c : α}
    (hev : event = true) (hc : value = some c) (barIndex : Int) :
    r1.formed kind event value barIndex = r1.form kind c barIndex := by
  subst hev hc
  rfl

theorem formed_of_quiet (r1 : R1State α) {event : Bool} (hev : ¬ event = true) (value : Option α)
    (barIndex : Int) : r1.formed kind event value barIndex = r1 := by
  unfold R1State.formed
  cases value with
  | none => rfl
  | some c => exact if_neg hev

/-- **What a bar forms**: nothing, an object of one kind, or a high above a low. -/
theorem stepR1_cases {r1 : R1State α} {bar : ReferenceBar α}
    (hspread : Spread (r1.pushed bar).sourceHighHistory (r1.pushed bar).sourceLowHistory)
    (hgap : bar.chartGap = true → bar.segmentObs < 7) :
    stepR1 r1 bar = ((r1.pushed bar).rested bar).counted bar.enabled ∨
    (bar.isOpen = true ∧ ∃ kind price, stepR1 r1 bar =
      (((r1.pushed bar).rested bar).form kind price bar.barIndex).counted bar.enabled) ∨
    (bar.isOpen = true ∧ ∃ high low, low < high ∧ stepR1 r1 bar =
      ((((r1.pushed bar).rested bar).form .high high bar.barIndex).form .low low
        bar.barIndex).counted bar.enabled) := by
  by_cases hhigh : (bar.enabled && isEvent .high (r1.pushed bar).sourceHighHistory
      (candidate (p3Ready bar (r1.pushed bar).sourceHighHistory (r1.pushed bar).sourceLowHistory)
        (r1.pushed bar).sourceHighHistory)) = true <;>
    by_cases hlow : (bar.enabled && isEvent .low (r1.pushed bar).sourceLowHistory
      (candidate (p3Ready bar (r1.pushed bar).sourceHighHistory (r1.pushed bar).sourceLowHistory)
        (r1.pushed bar).sourceLowHistory)) = true
  · obtain ⟨hopen, hlen, high, hhc, hhe⟩ := of_event hgap hhigh
    obtain ⟨_, _, low, hlc, hle⟩ := of_event hgap hlow
    refine Or.inr (Or.inr ⟨hopen, high, low, lt_of_isExtreme hspread hlen hhe hle, ?_⟩)
    unfold stepR1
    dsimp only
    rw [formed_of_event _ hhigh hhc, formed_of_event _ hlow hlc]
  · obtain ⟨hopen, _, high, hhc, _⟩ := of_event hgap hhigh
    refine Or.inr (Or.inl ⟨hopen, .high, high, ?_⟩)
    unfold stepR1
    dsimp only
    rw [formed_of_event _ hhigh hhc, formed_of_quiet _ hlow]
  · obtain ⟨hopen, _, low, hlc, _⟩ := of_event hgap hlow
    refine Or.inr (Or.inl ⟨hopen, .low, low, ?_⟩)
    unfold stepR1
    dsimp only
    rw [formed_of_quiet _ hhigh, formed_of_event _ hlow hlc]
  · refine Or.inl ?_
    unfold stepR1
    dsimp only
    rw [formed_of_quiet _ hhigh, formed_of_quiet _ hlow]

end OvcReplay.C2Csm
