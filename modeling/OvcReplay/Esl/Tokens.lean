import OvcReplay.Esl.Canonical
import OvcReplay.SharedSystems.CanonicalIdentity
import OvcReplay.Python.Rounding

/-! # The texts of numbers

A decimal is rounded to the 28 digits of the context before it is written. It is written exactly
when the digits that are lost are zeros, and texts of numbers that are written exactly are equal
when the numbers are. -/

namespace OvcReplay.Esl

open Python Json SharedSystems PyDecimal

/-! ## Normalisation -/

theorem magnitude_stripZeros (fuel c : Nat) (e : Int) :
    magnitude (stripZeros fuel c e).1 (stripZeros fuel c e).2 = magnitude c e := by
  induction fuel generalizing c e with
  | zero => rfl
  | succ fuel ih =>
    rw [stripZeros]
    by_cases h : c % 10 = 0
    · have hscale := magnitude_scale (c / 10) (e + 1) 1
      rw [Nat.cast_one, add_sub_cancel_right, Nat.pow_one,
        Nat.div_mul_cancel (Nat.dvd_of_mod_eq_zero h)] at hscale
      rw [if_pos h, ih, hscale]
    · rw [if_neg h]

/-- **The text of a number after normalisation** is that of the number. -/
theorem plain_normalize (n : Bool) (c : Nat) (e : Int) :
    ∃ d : FiniteDecimal, plain (PyDecimal.finite n c e).normalize.formatF = numberText d ∧
      d.negative = n ∧ d.size = magnitude c e := by
  have hnorm : (PyDecimal.finite n c e).normalize =
      if c = 0 then .finite n 0 0
      else .finite n (stripZeros (natText c).length c e).1
        (stripZeros (natText c).length c e).2 := rfl
  rw [hnorm]
  by_cases h : c = 0
  · refine ⟨⟨n, 0, 0⟩, ?_, rfl, ?_⟩
    · rw [if_pos h, numberText, if_pos rfl]
      cases n <;> decide +kernel
    · show ((0 : Nat) : Rat) * _ = _
      rw [h, magnitude, Nat.cast_zero, zero_mul, zero_mul]
  · rw [if_neg h]
    refine ⟨⟨n, (stripZeros (natText c).length c e).1, (stripZeros (natText c).length c e).2⟩, ?_,
      rfl, magnitude_stripZeros _ _ _⟩
    have hne : (stripZeros (natText c).length c e).1 ≠ 0 := by
      rw [Ne, ← magnitude_eq_zero_iff, magnitude_stripZeros, magnitude_eq_zero_iff]
      exact h
    rw [numberText, if_neg hne]
    rfl

/-! ## Numbers that fit the context -/

/-- The digits that the context has no room for are zeros. -/
def Fits (d : FiniteDecimal) : Prop :=
  10 ^ (least d.coefficient d.exponent - d.exponent).toNat ∣ d.coefficient

instance : DecidablePred Fits := fun _ => inferInstanceAs (Decidable (_ ∣ _))

/-- The size of the number that is written. -/
def writtenSize (d : FiniteDecimal) : Rat :=
  if d.coefficient = 0 then 0 else roundedMagnitude d.coefficient d.exponent

/-- **The number that is written is the number exactly when it fits.** -/
theorem writtenSize_eq_iff (d : FiniteDecimal) : writtenSize d = d.size ↔ Fits d := by
  rw [writtenSize, Fits]
  by_cases hzero : d.coefficient = 0
  · rw [if_pos hzero, FiniteDecimal.size, hzero, Nat.cast_zero, zero_mul]
    exact iff_of_true rfl (dvd_zero _)
  rw [if_neg hzero, roundedMagnitude]
  rcases lt_or_ge d.exponent (least d.coefficient d.exponent) with he | he
  · have hscale := magnitude_scale (rounded d.coefficient d.exponent)
      (least d.coefficient d.exponent) (least d.coefficient d.exponent - d.exponent).toNat
    rw [show least d.coefficient d.exponent -
      ((least d.coefficient d.exponent - d.exponent).toNat : Int) = d.exponent by omega] at hscale
    rw [← hscale]
    show magnitude _ d.exponent = magnitude d.coefficient d.exponent ↔ _
    rw [le_antisymm_iff, magnitude_le_iff, magnitude_le_iff, ← le_antisymm_iff]
    constructor
    · intro heq
      refine ⟨rounded d.coefficient d.exponent, ?_⟩
      rw [Nat.mul_comm]
      exact heq.symm
    · rintro ⟨c, hc⟩
      have hround := roundHalfEven_mul c
        (least d.coefficient d.exponent - d.exponent).toNat
      rw [Nat.mul_comm, ← hc] at hround
      rw [rounded_of_lt he, hround, Nat.mul_comm]
      exact hc.symm
  · refine iff_of_true ?_ ?_
    · have hscale := magnitude_scale d.coefficient d.exponent
        (d.exponent - least d.coefficient d.exponent).toNat
      rw [show d.exponent - ((d.exponent - least d.coefficient d.exponent).toNat : Int) =
        least d.coefficient d.exponent by omega] at hscale
      rw [rounded_of_le he, hscale]
      rfl
    · rw [show (least d.coefficient d.exponent - d.exponent).toNat = 0 by omega, Nat.pow_zero]
      exact one_dvd _

/-- What the context makes of a number. -/
theorem fix_ok {n : Bool} {c : Nat} {e : Int} (hc : c ≠ 0) {x : PyDecimal}
    (h : fix n c e = .ok x) :
    ∃ z : Nat × Int, x = .finite n z.1 z.2 ∧ magnitude z.1 z.2 = roundedMagnitude c e := by
  by_cases hover : Overflows c e
  · exact absurd ⟨x, h⟩ (not_returns_fix_of_overflows hc hover)
  · obtain ⟨z, hz, hsize, -⟩ := fix_of_not_overflows n hc hover
    exact ⟨z, Except.ok.inj (h.symm.trans hz), hsize⟩

variable {d : FiniteDecimal}

/-- **The text that a decimal is written as**: that of the rounded number, with its sign. -/
theorem decimalToken_ok {j : Json} (h : decimalToken d = .ok j) :
    ∃ d' : FiniteDecimal, j = .float (numberText d') ∧ ¬ d'.NegativeZero ∧
      d'.negative = d.negative ∧ d'.size = writtenSize d := by
  obtain ⟨_, hsign, h⟩ := bind_ok.mp h
  by_cases hzero : d.coefficient = 0
  · rw [if_pos hzero] at h
    cases h
    have hpositive : d.negative = false :=
      Bool.eq_false_iff.mpr fun hn => check_ok.mp hsign ⟨hzero, hn⟩
    refine ⟨⟨false, 0, 0⟩, ?_, nofun, hpositive.symm, ?_⟩
    · rw [numberText, if_pos rfl]
      rfl
    · rw [writtenSize, if_pos hzero, FiniteDecimal.size, Nat.cast_zero, zero_mul]
  · rw [if_neg hzero] at h
    obtain ⟨token, htoken, h⟩ := bind_ok.mp h
    obtain ⟨_, hminus, h⟩ := bind_ok.mp h
    cases h
    obtain ⟨x, hx, rfl⟩ := map_ok.mp (mapError_ok.mp htoken)
    obtain ⟨z, rfl, hz⟩ := fix_ok hzero hx
    obtain ⟨d', htext, hneg, hsize⟩ := plain_normalize d.negative z.1 z.2
    rw [htext] at hminus ⊢
    refine ⟨d', rfl, ?_, hneg, ?_⟩
    · -- a number that is rounded to a zero below zero is refused
      rintro ⟨hcoefficient, hn⟩
      refine check_ok.mp hminus ?_
      rw [numberText, if_pos hcoefficient, hn]
      rfl
    · rw [hsize, hz, writtenSize, if_neg hzero]

/-- A number is written exactly. -/
def Exact (d : FiniteDecimal) : Prop :=
  ∀ token, decimalToken d = .ok (.float token) → reading token = d.size

/-- **A number that is accepted is written exactly if and only if it fits the context.** -/
theorem exact_iff {j : Json} (h : decimalToken d = .ok j) : Exact d ↔ Fits d := by
  obtain ⟨d', rfl, -, -, hsize⟩ := decimalToken_ok h
  rw [← writtenSize_eq_iff, ← hsize, ← reading_numberText]
  constructor
  · intro hexact
    exact hexact _ h
  · intro heq token htoken
    obtain rfl := Json.float.inj (Except.ok.inj (h.symm.trans htoken))
    exact heq

/-- A number that fits is written as itself. -/
theorem decimalToken_of_fits {j : Json} (hfits : Fits d) (h : decimalToken d = .ok j) :
    ∃ d' : FiniteDecimal, j = .float (numberText d') ∧ ¬ d'.NegativeZero ∧ d'.value = d.value := by
  obtain ⟨d', hj, hzero, hneg, hsize⟩ := decimalToken_ok h
  refine ⟨d', hj, hzero, ?_⟩
  rw [FiniteDecimal.value, FiniteDecimal.value, hneg, hsize, (writtenSize_eq_iff d).mpr hfits]

/-! ## Integers -/

/-- The text of an integer is that of the number. -/
theorem intText_eq (z : Int) : intText z = numberText ⟨decide (z < 0), z.natAbs, 0⟩ := by
  rw [numberText]
  by_cases h : z = 0
  · subst h
    rw [if_pos (by rfl)]
    decide +kernel
  · have hne : z.natAbs ≠ 0 := Int.natAbs_ne_zero.mpr h
    rw [if_neg hne, FiniteDecimal.plain_format]
    have hbody : plain (FiniteDecimal.body ⟨decide (z < 0), z.natAbs, 0⟩) = natText z.natAbs := by
      rw [FiniteDecimal.body]
      show plain (fixedPoint (z.natAbs * 10 ^ 0) 0) = _
      rw [Nat.pow_zero, Nat.mul_one, fixedPoint_zero, plain_digits (isDigit_natText _)]
    rw [hbody]
    cases z with
    | ofNat n => rfl
    | negSucc n =>
      show py "-" ++ natText (n + 1) = _
      rw [SharedSystems.py_minus]
      have hsign : decide (Int.negSucc n < 0) = true := decide_eq_true (Int.negSucc_lt_zero n)
      exact (congrArg (· ++ natText (n + 1)) (if_pos hsign)).symm

end OvcReplay.Esl
