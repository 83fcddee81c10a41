import OvcReplay.Python.Context
import OvcReplay.Python.Fallible

/-! # Sums in the decimal context are monotone

The context rounds a number to the multiple of a power of ten that it can hold. The rounding does not
depend on how the number is written and keeps the order, so a sum of fewer amounts is no larger and
raises only if the sum of all of them does. -/

namespace OvcReplay.Python.PyDecimal

open List

/-! ## Half even -/

theorem roundHalfEven_mono {c d : Nat} (places : Nat) (h : c ≤ d) :
    roundHalfEven c places ≤ roundHalfEven d places := by
  have hquotient : c / 10 ^ places ≤ d / 10 ^ places := Nat.div_le_div_right h
  rcases hquotient.lt_or_eq with hlt | heq
  · -- the smaller one is at most rounded up to the next quotient
    have hup : roundHalfEven c places ≤ c / 10 ^ places + 1 := by
      unfold roundHalfEven
      dsimp only
      split <;> omega
    have hdown : d / 10 ^ places ≤ roundHalfEven d places := by
      unfold roundHalfEven
      dsimp only
      split <;> omega
    omega
  · have hc := Nat.div_add_mod c (10 ^ places)
    have hd := Nat.div_add_mod d (10 ^ places)
    rw [heq] at hc
    have hmod : c % 10 ^ places ≤ d % 10 ^ places := by omega
    unfold roundHalfEven
    dsimp only
    rw [heq]
    split <;> split <;> omega

/-- The rounding does not depend on the places that both numbers have in addition. -/
theorem roundHalfEven_scale (c places k : Nat) :
    roundHalfEven (c * 10 ^ k) (places + k) = roundHalfEven c places := by
  have hk : 0 < 10 ^ k := Nat.pow_pos (by decide)
  have hdiv : c * 10 ^ k / (10 ^ places * 10 ^ k) = c / 10 ^ places :=
    Nat.mul_div_mul_right _ _ hk
  have hmod : c * 10 ^ k % (10 ^ places * 10 ^ k) = c % 10 ^ places * 10 ^ k :=
    Nat.mul_mod_mul_right _ _ _
  have hlt : 2 * (c % 10 ^ places * 10 ^ k) < 10 ^ places * 10 ^ k ↔
      2 * (c % 10 ^ places) < 10 ^ places := by
    rw [← Nat.mul_assoc]
    exact Nat.mul_lt_mul_right hk
  have heq : 2 * (c % 10 ^ places * 10 ^ k) = 10 ^ places * 10 ^ k ↔
      2 * (c % 10 ^ places) = 10 ^ places := by
    rw [← Nat.mul_assoc]
    exact Nat.mul_left_inj hk.ne'
  unfold roundHalfEven
  dsimp only
  rw [Nat.pow_add, hdiv, hmod]
  simp only [hlt, heq]

/-- A multiple of the place is not rounded. -/
theorem roundHalfEven_mul (c places : Nat) : roundHalfEven (c * 10 ^ places) places = c := by
  have h := roundHalfEven_scale c 0 places
  rw [Nat.zero_add] at h
  rw [h]
  unfold roundHalfEven
  simp [Nat.mod_one]

theorem roundHalfEven_le {c n places : Nat} (h : c ≤ n * 10 ^ places) :
    roundHalfEven c places ≤ n :=
  (roundHalfEven_mono places h).trans_eq (roundHalfEven_mul n places)

theorem le_roundHalfEven {c n places : Nat} (h : n * 10 ^ places ≤ c) :
    n ≤ roundHalfEven c places :=
  (roundHalfEven_mul n places).symm.trans_le (roundHalfEven_mono places h)

/-! ## The place of the last digit -/

/-- The number of digits. -/
def digits (c : Nat) : Nat := (natText c).length

theorem digits_le_iff {c k : Nat} (hk : 0 < k) : digits c ≤ k ↔ c < 10 ^ k := by
  rw [digits, natText, length_map]
  exact Nat.length_toDigits_le_iff (by decide) hk

theorem digits_pos (c : Nat) : 0 < digits c := by
  rw [digits, natText, length_map]
  exact Nat.length_toDigits_pos

theorem lt_pow_digits (c : Nat) : c < 10 ^ digits c := (digits_le_iff (digits_pos c)).mp le_rfl

theorem pow_le_of_lt_digits {c k : Nat} (hc : c ≠ 0) (hk : k < digits c) : 10 ^ k ≤ c := by
  rcases Nat.eq_zero_or_pos k with rfl | hpos
  · rw [Nat.pow_zero]
    omega
  · by_contra hlt
    have hle := (digits_le_iff hpos).mpr (not_le.mp hlt)
    omega

theorem digits_mono {c d : Nat} (h : c ≤ d) : digits c ≤ digits d :=
  (digits_le_iff (digits_pos d)).mpr (lt_of_le_of_lt h (lt_pow_digits d))

theorem digits_mul_pow {c : Nat} (hc : c ≠ 0) (k : Nat) : digits (c * 10 ^ k) = digits c + k := by
  have hpos := digits_pos c
  apply le_antisymm
  · rw [digits_le_iff (by omega), Nat.pow_add]
    exact Nat.mul_lt_mul_of_pos_right (lt_pow_digits c) (Nat.pow_pos (by decide))
  · by_contra hlt
    rw [not_le] at hlt
    have hle : digits (c * 10 ^ k) ≤ digits c - 1 + k := by omega
    have hbelow : 10 ^ (digits c - 1) ≤ c := pow_le_of_lt_digits hc (by omega)
    rcases Nat.eq_zero_or_pos (digits c - 1 + k) with hzero | hpos'
    · have := digits_pos (c * 10 ^ k)
      omega
    · rw [digits_le_iff hpos', Nat.pow_add] at hle
      exact absurd hle (not_lt.mpr (Nat.mul_le_mul_right _ hbelow))

/-- The exponent of the last digit that the context holds of a number. -/
def least (c : Nat) (e : Int) : Int := max (digits c + e - precision) etiny

/-- The coefficient of the rounded number, at that exponent. -/
def rounded (c : Nat) (e : Int) : Nat :=
  if e < least c e then roundHalfEven c (least c e - e).toNat
  else c * 10 ^ (e - least c e).toNat

/-- A number that the context holds is not rounded. -/
theorem rounded_of_le {c : Nat} {e : Int} (h : least c e ≤ e) :
    rounded c e = c * 10 ^ (e - least c e).toNat := if_neg (not_lt.mpr h)

theorem rounded_of_lt {c : Nat} {e : Int} (h : e < least c e) :
    rounded c e = roundHalfEven c (least c e - e).toNat := if_pos h

variable {c d : Nat} {e f : Int}

theorem least_scale (hc : c ≠ 0) (k : Nat) : least (c * 10 ^ k) (e - k) = least c e := by
  rw [least, least, digits_mul_pow hc]
  congr 2
  push_cast
  ring

/-- **The rounding does not depend on how a number is written.** -/
theorem rounded_scale (hc : c ≠ 0) (k : Nat) : rounded (c * 10 ^ k) (e - k) = rounded c e := by
  have hleast := least_scale (e := e) hc k
  generalize hl : least c e = l at hleast
  rcases lt_or_ge e l with hlt | hge
  · rw [rounded_of_lt (by omega), rounded_of_lt (by omega), hleast, hl]
    rw [show (l - (e - k)).toNat = (l - e).toNat + k by omega, roundHalfEven_scale]
  · rw [rounded_of_le (c := c) (by omega), hl]
    rcases lt_or_ge (e - k) l with hlt | hge'
    · rw [rounded_of_lt (by omega), hleast]
      have hk : k = (e - l).toNat + (l - (e - k)).toNat := by omega
      rw [show c * 10 ^ k = c * 10 ^ (e - l).toNat * 10 ^ (l - (e - k)).toNat by
        rw [Nat.mul_assoc, ← Nat.pow_add, ← hk], roundHalfEven_mul]
    · rw [rounded_of_le (by omega), hleast, Nat.mul_assoc, ← Nat.pow_add]
      congr 2
      omega

/-- At most one digit more than the context holds. -/
theorem rounded_le (c : Nat) (e : Int) : rounded c e ≤ 10 ^ precision := by
  have hle : digits c + e - precision ≤ least c e := le_max_left _ _
  rcases lt_or_ge e (least c e) with hlt | hge
  · rw [rounded_of_lt hlt]
    apply roundHalfEven_le
    rw [← Nat.pow_add]
    exact (lt_pow_digits c).le.trans (Nat.pow_le_pow_right (by decide) (by omega))
  · rw [rounded_of_le hge]
    calc c * 10 ^ (e - least c e).toNat
        ≤ 10 ^ digits c * 10 ^ (e - least c e).toNat :=
          Nat.mul_le_mul_right _ (lt_pow_digits c).le
      _ = 10 ^ (digits c + (e - least c e).toNat) := (Nat.pow_add ..).symm
      _ ≤ 10 ^ precision := Nat.pow_le_pow_right (by decide) (by omega)

theorem rounded_lt_of_le (hge : least c e ≤ e) : rounded c e < 10 ^ precision := by
  have hle : digits c + e - precision ≤ least c e := le_max_left _ _
  rw [rounded_of_le hge]
  calc c * 10 ^ (e - least c e).toNat
      < 10 ^ digits c * 10 ^ (e - least c e).toNat :=
        Nat.mul_lt_mul_of_pos_right (lt_pow_digits c) (Nat.pow_pos (by decide))
    _ = 10 ^ (digits c + (e - least c e).toNat) := (Nat.pow_add ..).symm
    _ ≤ 10 ^ precision := Nat.pow_le_pow_right (by decide) (by omega)

/-! ## Rounding keeps the order -/

/-- The number with this coefficient and this exponent. -/
def magnitude (c : Nat) (e : Int) : Rat := c * (10 : Rat) ^ e

theorem magnitude_nonneg (c : Nat) (e : Int) : 0 ≤ magnitude c e :=
  mul_nonneg (Nat.cast_nonneg c) (zpow_nonneg (by norm_num) e)

theorem magnitude_eq_zero_iff : magnitude c e = 0 ↔ c = 0 := by
  rw [magnitude, mul_eq_zero, or_iff_left (zpow_ne_zero e (by norm_num)), Nat.cast_eq_zero]

theorem magnitude_scale (c : Nat) (e : Int) (k : Nat) :
    magnitude (c * 10 ^ k) (e - k) = magnitude c e := by
  rw [magnitude, magnitude, zpow_sub₀ (by norm_num), zpow_natCast]
  push_cast
  field_simp

theorem magnitude_le_iff : magnitude c e ≤ magnitude d e ↔ c ≤ d := by
  rw [magnitude, magnitude, mul_le_mul_iff_left₀ (zpow_pos (by norm_num) e), Nat.cast_le]

/-- A number and one that is smaller by its exponent as well. -/
theorem magnitude_le_of_le {k : Nat} (hk : c ≤ d * 10 ^ k) (he : e + k = f) :
    magnitude c e ≤ magnitude d f := by
  rw [← magnitude_scale d f k, show f - k = e by omega]
  exact magnitude_le_iff.mpr hk

/-- The number as the context rounds it. -/
def roundedMagnitude (c : Nat) (e : Int) : Rat := magnitude (rounded c e) (least c e)

/-- The context has no room for the number. -/
def Overflows (c : Nat) (e : Int) : Prop :=
  emax < digits c + e - 1 ∨ (10 ^ precision ≤ rounded c e ∧ emax < least c e + precision)

/-- What is written with one exponent is rounded in its order. -/
theorem rounded_mono_of_eq (hc : c ≠ 0) (hcd : c ≤ d) :
    roundedMagnitude c e ≤ roundedMagnitude d e ∧ (Overflows c e → Overflows d e) := by
  have hdigits : digits c ≤ digits d := digits_mono hcd
  have hleast : least c e ≤ least d e := max_le_max (by omega) le_rfl
  rcases hleast.lt_or_eq with hlt | heq
  · -- the larger number has more digits than the context holds
    have hd : least d e = digits d + e - precision := by
      have hetiny : etiny < least d e := (le_max_right _ _).trans_lt hlt
      rw [least] at hetiny ⊢
      omega
    have hmore : digits c < digits d := by
      have hle : digits c + e - precision ≤ least c e := le_max_left _ _
      omega
    have hbelow : c ≤ 10 ^ (digits d - 1) :=
      (lt_pow_digits c).le.trans (Nat.pow_le_pow_right (by decide) (by omega))
    have habove : 10 ^ (digits d - 1) ≤ d := pow_le_of_lt_digits (by omega) (by omega)
    have hdown : roundedMagnitude c e ≤ magnitude (10 ^ (precision - 1)) (least d e) := by
      rw [roundedMagnitude]
      refine magnitude_le_of_le (k := (least d e - least c e).toNat) ?_ (by omega)
      rw [← Nat.pow_add]
      rcases lt_or_ge e (least c e) with he | he
      · rw [rounded_of_lt he]
        apply roundHalfEven_le
        rw [← Nat.pow_add]
        exact hbelow.trans (Nat.pow_le_pow_right (by decide) (by unfold precision at *; omega))
      · rw [rounded_of_le he]
        refine (Nat.mul_le_mul_right _ hbelow).trans ?_
        rw [← Nat.pow_add]
        exact Nat.pow_le_pow_right (by decide) (by unfold precision at *; omega)
    have hup : magnitude (10 ^ (precision - 1)) (least d e) ≤ roundedMagnitude d e := by
      rw [roundedMagnitude, magnitude_le_iff]
      rcases lt_or_ge e (least d e) with he | he
      · rw [rounded_of_lt he]
        apply le_roundHalfEven
        rw [← Nat.pow_add]
        exact (Nat.pow_le_pow_right (by decide) (by unfold precision at *; omega)).trans habove
      · rw [rounded_of_le he]
        refine le_trans ?_ (Nat.mul_le_mul_right _ habove)
        rw [← Nat.pow_add]
        exact Nat.pow_le_pow_right (by decide) (by unfold precision at *; omega)
    refine ⟨hdown.trans hup, ?_⟩
    rintro (hmax | ⟨-, hmax⟩)
    · exact .inl (by omega)
    · exact .inl (by omega)
  · have hrounded : rounded c e ≤ rounded d e := by
      rcases lt_or_ge e (least c e) with he | he
      · rw [rounded_of_lt he, rounded_of_lt (heq ▸ he), heq]
        exact roundHalfEven_mono _ hcd
      · rw [rounded_of_le he, rounded_of_le (heq ▸ he), heq]
        exact Nat.mul_le_mul_right _ hcd
    refine ⟨?_, ?_⟩
    · rw [roundedMagnitude, roundedMagnitude, heq, magnitude_le_iff]
      exact hrounded
    · rintro (hmax | ⟨hcarry, hmax⟩)
      · exact .inl (by omega)
      · exact .inr ⟨hcarry.trans hrounded, heq ▸ hmax⟩

/-- Two exponents, lowered to one. -/
theorem exists_common (e f : Int) : ∃ j k : Nat, e - j = f - k :=
  ⟨(e - min e f).toNat, (f - min e f).toNat, by omega⟩

theorem overflows_scale (hc : c ≠ 0) (k : Nat) : Overflows (c * 10 ^ k) (e - k) ↔ Overflows c e := by
  have hdigits : ((digits c + k : Nat) : Int) + (e - k) - 1 = digits c + e - 1 := by
    push_cast
    ring
  rw [Overflows, Overflows, rounded_scale hc, least_scale hc, digits_mul_pow hc, hdigits]

theorem roundedMagnitude_scale (hc : c ≠ 0) (k : Nat) :
    roundedMagnitude (c * 10 ^ k) (e - k) = roundedMagnitude c e := by
  rw [roundedMagnitude, roundedMagnitude, rounded_scale hc, least_scale hc]

/-- **The rounding keeps the order**, and what is larger than a number without room has no room. -/
theorem rounded_mono (hc : c ≠ 0) (h : magnitude c e ≤ magnitude d f) :
    roundedMagnitude c e ≤ roundedMagnitude d f ∧ (Overflows c e → Overflows d f) := by
  obtain ⟨j, k, hjk⟩ := exists_common e f
  rw [← magnitude_scale c e j, ← magnitude_scale d f k, hjk, magnitude_le_iff] at h
  have hpow : 0 < 10 ^ j := Nat.pow_pos (by decide)
  have hd : d ≠ 0 := by
    rintro rfl
    have := Nat.mul_pos (Nat.pos_of_ne_zero hc) hpow
    omega
  have hcj : c * 10 ^ j ≠ 0 := (Nat.mul_pos (Nat.pos_of_ne_zero hc) hpow).ne'
  have hmono := rounded_mono_of_eq (e := f - k) hcj h
  rw [← hjk] at hmono
  rw [roundedMagnitude_scale hc, overflows_scale hc] at hmono
  rw [hjk, roundedMagnitude_scale hd, overflows_scale hd] at hmono
  exact hmono

/-! ## Sums -/

/-- A decimal that is finite and not negative. -/
def Amount : PyDecimal → Prop
  | .finite negative coefficient _ => negative = true → coefficient = 0
  | _ => False

/-- The context holds the decimal without rounding. -/
def Held : PyDecimal → Prop
  | .finite _ coefficient exponent => coefficient < 10 ^ precision ∧ etiny ≤ exponent
  | _ => False

variable {negative : Bool}

theorem rat_finite_of_amount (h : Amount (.finite negative c e)) :
    (PyDecimal.finite negative c e).rat = magnitude c e := by
  cases negative with
  | false => simp [rat, magnitude]
  | true => simp [rat, magnitude, show c = 0 from h rfl]

variable {x z y : PyDecimal} {xs : List PyDecimal}

theorem Amount.rat_nonneg (h : Amount x) : 0 ≤ x.rat := by
  cases x with
  | finite negative c e =>
    rw [rat_finite_of_amount h]
    exact magnitude_nonneg c e
  | _ => exact h.elim

/-- `fix` in terms of the rounded number. -/
theorem fix_eq (hc : c ≠ 0) : fix negative c e =
    if emax < digits c + e - 1 then .error .arithmeticError
    else if e < least c e then
      if 10 ^ precision ≤ rounded c e then
        if emax < least c e + precision then .error .arithmeticError
        else .ok (.finite negative (rounded c e / 10) (least c e + 1))
      else .ok (.finite negative (rounded c e) (least c e))
    else .ok (.finite negative c e) := by
  rw [fix, if_neg hc]
  by_cases he : e < least c e
  · rw [rounded_of_lt he]
    rfl
  · rw [if_neg he]
    show (if emax < digits c + e - 1 then _ else if e < least c e then _ else _) = _
    rw [if_neg he]

/-- What `fix` returns, if the number has room. -/
theorem fix_of_not_overflows (negative : Bool) (hc : c ≠ 0) (h : ¬ Overflows c e) :
    ∃ z : Nat × Int, fix negative c e = .ok (.finite negative z.1 z.2) ∧
      magnitude z.1 z.2 = roundedMagnitude c e ∧ Held (.finite negative z.1 z.2) := by
  rw [Overflows, not_or] at h
  obtain ⟨hmax, hcarry⟩ := h
  have hetiny : etiny ≤ least c e := le_max_right _ _
  rw [fix_eq hc, if_neg hmax]
  rcases lt_or_ge e (least c e) with he | he
  · rw [if_pos he]
    by_cases hfull : 10 ^ precision ≤ rounded c e
    · -- a power of ten, which loses its last digit
      have hroom : ¬ emax < least c e + precision := fun h => hcarry ⟨hfull, h⟩
      have hten : rounded c e = 10 ^ (precision - 1) * 10 ^ 1 :=
        (le_antisymm (rounded_le c e) hfull).trans (by decide)
      have hscale := magnitude_scale (10 ^ (precision - 1)) (least c e + 1) 1
      rw [Nat.cast_one, add_sub_cancel_right] at hscale
      rw [if_pos hfull, if_neg hroom]
      refine ⟨(rounded c e / 10, least c e + 1), rfl, ?_, ?_, ?_⟩
      · rw [roundedMagnitude, hten, hscale, Nat.pow_one, Nat.mul_div_cancel _ (by decide)]
      · show rounded c e / 10 < 10 ^ precision
        rw [hten]
        decide
      · exact hetiny.trans (by omega)
    · rw [if_neg hfull]
      exact ⟨(rounded c e, least c e), rfl, rfl, not_le.mp hfull, hetiny⟩
  · rw [if_neg (not_lt.mpr he)]
    refine ⟨(c, e), rfl, ?_, ?_, hetiny.trans he⟩
    · have hscale := magnitude_scale c e (e - least c e).toNat
      rw [show e - ((e - least c e).toNat : Int) = least c e by omega] at hscale
      rw [roundedMagnitude, rounded_of_le he, hscale]
    · have hlt := rounded_lt_of_le he
      rw [rounded_of_le he] at hlt
      exact (Nat.le_mul_of_pos_right _ (Nat.pow_pos (by decide))).trans_lt hlt

theorem not_returns_fix_of_overflows (hc : c ≠ 0) (h : Overflows c e) :
    ¬ Returns (fix negative c e) := by
  rw [fix_eq hc]
  rcases h with hmax | ⟨hfull, hmax⟩
  · rw [if_pos hmax]
    exact not_returns_iff.mpr ⟨_, rfl⟩
  · have he : e < least c e := by
      by_contra hge
      exact absurd hfull (not_le.mpr (rounded_lt_of_le (not_lt.mp hge)))
    rw [if_pos he, if_pos hfull, if_pos hmax, ite_self]
    exact not_returns_iff.mpr ⟨_, rfl⟩

/-- `fix` of zero. -/
theorem fix_zero (negative : Bool) (e : Int) :
    fix negative 0 e = .ok (.finite negative 0 (min (max e etiny) emax)) := if_pos rfl

/-- **`fix` keeps the order, and raises for the larger number if it does for the smaller.** -/
theorem fix_mono {m n : Bool} (h : magnitude c e ≤ magnitude d f) (hz : fix n d f = .ok z) :
    ∃ w : Nat × Int, fix m c e = .ok (.finite m w.1 w.2) ∧ Held (.finite m w.1 w.2) ∧
      ∃ v : Nat × Int, z = .finite n v.1 v.2 ∧ magnitude w.1 w.2 ≤ magnitude v.1 v.2 := by
  by_cases hc : c = 0
  · have hheld : Held (.finite m 0 (min (max e etiny) emax)) :=
      ⟨by decide, le_min (le_max_right _ _) (by decide)⟩
    have hshape : ∃ v : Nat × Int, z = .finite n v.1 v.2 := by
      by_cases hd : d = 0
      · rw [hd, fix_zero, Except.ok.injEq] at hz
        exact ⟨(0, _), hz.symm⟩
      · by_cases hover : Overflows d f
        · exact absurd ⟨z, hz⟩ (not_returns_fix_of_overflows hd hover)
        · obtain ⟨v, hv, -⟩ := fix_of_not_overflows n hd hover
          exact ⟨v, Except.ok.inj (hz.symm.trans hv)⟩
    obtain ⟨v, hv⟩ := hshape
    rw [hc, fix_zero]
    refine ⟨(0, _), rfl, hheld, v, hv, ?_⟩
    rw [magnitude, Nat.cast_zero, zero_mul]
    exact magnitude_nonneg _ _
  · have hd : d ≠ 0 := by
      rintro rfl
      rw [magnitude, magnitude, Nat.cast_zero, zero_mul] at h
      have hpos : (0 : Rat) < c * 10 ^ e :=
        mul_pos (Nat.cast_pos.mpr (Nat.pos_of_ne_zero hc)) (zpow_pos (by norm_num) e)
      exact absurd hpos (not_lt.mpr h)
    obtain ⟨hmono, hroom⟩ := rounded_mono hc h
    have hover : ¬ Overflows d f := fun hover => not_returns_fix_of_overflows hd hover ⟨z, hz⟩
    obtain ⟨v, hv, hval, -⟩ := fix_of_not_overflows n hd hover
    obtain ⟨w, hw, hval', hheld⟩ := fix_of_not_overflows m hc (mt hroom hover)
    refine ⟨w, hw, hheld, v, Except.ok.inj (hz.symm.trans hv), ?_⟩
    rw [hval, hval']
    exact hmono

/-- `fix` of an amount is an amount. -/
theorem amount_fix (h : negative = true → c = 0) (hz : fix negative c e = .ok z) : Amount z := by
  obtain ⟨w, hw, -, -⟩ := fix_mono (m := negative) le_rfl hz
  rw [hz, Except.ok.injEq] at hw
  subst hw
  intro htrue
  rw [h htrue, fix_zero, Except.ok.injEq, PyDecimal.finite.injEq] at hz
  exact hz.2.1.symm

/-- The sum of two coefficients at the smaller of their exponents. -/
theorem magnitude_add (c d : Nat) (e f : Int) :
    magnitude (c * 10 ^ (e - min e f).toNat + d * 10 ^ (f - min e f).toNat) (min e f) =
      magnitude c e + magnitude d f := by
  have hc := magnitude_scale c e (e - min e f).toNat
  have hd := magnitude_scale d f (f - min e f).toNat
  rw [show e - ((e - min e f).toNat : Int) = min e f by omega] at hc
  rw [show f - ((f - min e f).toNat : Int) = min e f by omega] at hd
  rw [← hc, ← hd, magnitude, magnitude, magnitude, Nat.cast_add, add_mul]

/-- The sum of two amounts is one that `fix` rounds. -/
theorem add_of_amounts (hx : Amount x) (hy : Amount y) :
    ∃ (negative : Bool) (c : Nat) (e : Int), add x y = fix negative c e ∧
      (negative = true → c = 0) ∧ magnitude c e = x.rat + y.rat := by
  cases x with
  | finite s c e =>
    cases y with
    | finite t d f =>
      have hc : signed s c = c := by
        cases s with
        | false => rfl
        | true => simp [signed, show c = 0 from hx rfl]
      have hd : signed t d = d := by
        cases t with
        | false => rfl
        | true => simp [signed, show d = 0 from hy rfl]
      have hcast : (c : Int) * 10 ^ (e - min e f).toNat + d * 10 ^ (f - min e f).toNat =
          ((c * 10 ^ (e - min e f).toNat + d * 10 ^ (f - min e f).toNat : Nat) : Int) := by
        push_cast
        ring
      rw [rat_finite_of_amount hx, rat_finite_of_amount hy, ← magnitude_add]
      generalize hv : c * 10 ^ (e - min e f).toNat + d * 10 ^ (f - min e f).toNat = v at hcast ⊢
      refine ⟨if (v : Int) = 0 then s && t else decide ((v : Int) < 0), v, min e f, ?_, ?_, rfl⟩
      · simp only [add, hc, hd, hcast, Int.natAbs_natCast]
      · intro hneg
        by_contra hzero
        rw [if_neg (by omega), decide_eq_true_eq] at hneg
        omega
    | _ => exact hy.elim
  | _ => exact hx.elim

/-- **Sums of amounts keep the order**: the smaller sum is returned if the larger one is. -/
theorem add_mono {x' y' z' : PyDecimal} (hx : Amount x) (hy : Amount y) (hx' : Amount x')
    (hy' : Amount y') (h : x.rat + y.rat ≤ x'.rat + y'.rat) (hz' : add x' y' = .ok z') :
    ∃ z, add x y = .ok z ∧ Amount z ∧ Held z ∧ z.rat ≤ z'.rat := by
  obtain ⟨m, c, e, hadd, hm, hval⟩ := add_of_amounts hx hy
  obtain ⟨n, d, f, hadd', hn, hval'⟩ := add_of_amounts hx' hy'
  rw [← hval, ← hval'] at h
  rw [hadd'] at hz'
  obtain ⟨w, hw, hheld, v, rfl, hle⟩ := fix_mono (m := m) h hz'
  have hz := amount_fix hm hw
  refine ⟨_, hadd.trans hw, hz, hheld, ?_⟩
  rw [rat_finite_of_amount hz, rat_finite_of_amount (amount_fix hn hz')]
  exact hle

/-- The zero that a sum starts with. -/
theorem amount_zero : Amount (.finite false 0 0) := fun h => by cases h

theorem held_zero : Held (.finite false 0 0) := ⟨by decide, by decide⟩

/-- **A sum does not fall below what it started with**, if the context holds that. -/
theorem le_add (hx : Amount x) (hheld : Held x) (hy : Amount y)
    (hz : add x y = .ok z) : x.rat ≤ z.rat := by
  cases x with
  | finite s c e =>
    obtain ⟨n, d, f, hadd, hn, hval⟩ := add_of_amounts hx hy
    have hle : magnitude c e ≤ magnitude d f := by
      rw [hval, rat_finite_of_amount hx]
      exact le_add_of_nonneg_right hy.rat_nonneg
    rw [hadd] at hz
    obtain ⟨w, hw, -, v, rfl, hmono⟩ := fix_mono (m := s) hle hz
    rw [rat_finite_of_amount hx, rat_finite_of_amount (amount_fix hn hz)]
    refine le_trans (le_of_eq ?_) hmono
    -- what the context holds it returns
    have hfix : fix s c e = .ok (.finite s c e) ∨ c = 0 := by
      by_cases hc : c = 0
      · exact .inr hc
      · left
        have hdigits : digits c ≤ precision := (digits_le_iff (by decide)).mpr hheld.1
        have hleast : least c e ≤ e := max_le (by omega) hheld.2
        rw [fix_eq hc] at hw ⊢
        rw [if_neg (not_lt.mpr hleast)] at hw ⊢
        split at hw
        · cases hw
        · rename_i hroom
          rw [if_neg hroom]
    rcases hfix with hfix | rfl
    · rw [hfix, Except.ok.injEq, PyDecimal.finite.injEq] at hw
      rw [hw.2.1, hw.2.2]
    · rw [fix_zero, Except.ok.injEq, PyDecimal.finite.injEq] at hw
      rw [magnitude, magnitude, ← hw.2.1, Nat.cast_zero, zero_mul, zero_mul]
  | _ => exact hx.elim

/-- The sum that two lists are added to, element by element or not at all. -/
theorem foldlM_add_mono {ys : List PyDecimal} (h : xs.Sublist ys) (hys : ∀ y ∈ ys, Amount y)
    {a b t : PyDecimal} (ha : Amount a) (hheld : Held a) (hb : Amount b) (hle : a.rat ≤ b.rat)
    (hheldb : Held b) (ht : ys.foldlM add b = .ok t) :
    ∃ s, xs.foldlM add a = .ok s ∧ s.rat ≤ t.rat := by
  induction h generalizing a b with
  | slnil =>
    cases ht
    exact ⟨a, rfl, hle⟩
  | @cons xs ys y h ih =>
    rw [foldlM_cons, bind_ok] at ht
    obtain ⟨b', hb', ht⟩ := ht
    have hy := hys y (by simp)
    have hup := le_add hb hheldb hy hb'
    obtain ⟨_, hsame, hamount, hheld', -⟩ := add_mono hb hy hb hy le_rfl hb'
    cases hb'.symm.trans hsame
    exact ih (fun y hy => hys y (mem_cons_of_mem _ hy)) ha hheld hamount
      (hle.trans hup) hheld' ht
  | @cons_cons xs ys y h ih =>
    rw [foldlM_cons, bind_ok] at ht
    obtain ⟨b', hb', ht⟩ := ht
    have hy := hys y (by simp)
    obtain ⟨a', ha', hamount, hheld', hle'⟩ :=
      add_mono ha hy hb hy (add_le_add_left hle _) hb'
    obtain ⟨_, hsame, hamountb, hheldb', -⟩ := add_mono hb hy hb hy le_rfl hb'
    cases hb'.symm.trans hsame
    obtain ⟨s, hs, hst⟩ := ih (fun y hy => hys y (mem_cons_of_mem _ hy)) hamount hheld'
      hamountb hle' hheldb' ht
    exact ⟨s, by rw [foldlM_cons, ha']; exact hs, hst⟩

/-- **A sum of fewer amounts is returned if the sum of all of them is.** -/
theorem returns_sum_of_sublist {ys : List PyDecimal} (h : xs.Sublist ys)
    (hys : ∀ y ∈ ys, Amount y) (hsum : Returns (sum ys)) : Returns (sum xs) := by
  obtain ⟨t, ht⟩ := hsum
  obtain ⟨s, hs, -⟩ := foldlM_add_mono h hys amount_zero held_zero amount_zero le_rfl held_zero ht
  exact ⟨s, hs⟩

/-- An amount that is too large for the context is too large for a sum. -/
theorem not_returns_sum (hxs : ∀ x ∈ xs, Amount x) {e : Int}
    (hmem : .finite false 1 e ∈ xs) (he : emax < e) : ¬ Returns (sum xs) := by
  intro hsum
  have hone : ([.finite false 1 e] : List PyDecimal).Sublist xs := singleton_sublist.mpr hmem
  obtain ⟨s, hs⟩ := returns_sum_of_sublist hone hxs hsum
  simp only [sum, foldlM_cons, foldlM_nil, bind_ok] at hs
  obtain ⟨t, ht, -⟩ := hs
  obtain ⟨n, d, f, hadd, -, hval⟩ := add_of_amounts amount_zero (hxs _ hmem)
  have hle : magnitude 1 e ≤ magnitude d f := by
    rw [hval, rat_finite_of_amount (hxs _ hmem)]
    exact le_add_of_nonneg_left amount_zero.rat_nonneg
  rw [hadd] at ht
  obtain ⟨w, hw, -⟩ := fix_mono (m := false) hle ht
  rw [fix_eq (by decide), if_pos] at hw
  · cases hw
  · show emax < ((digits 1 : Nat) : Int) + e - 1
    have hdigits : digits 1 = 1 := by decide +kernel
    omega

end OvcReplay.Python.PyDecimal
