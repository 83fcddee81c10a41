import OvcReplay.Python.Rounding

/-! # `quantize` and texts with a fixed number of places

A decimal with the exponent of another one, in the default context: what needs more digits than the
context has raises. A number of so many places has one text with that many digits behind the
point. -/

namespace OvcReplay.Python.PyDecimal

/-- The exponent of a finite decimal. -/
def exponentOf : PyDecimal → Int
  | .finite _ _ exponent => exponent
  | _ => 0

/-- The number that a decimal is; an infinity or a NaN is none. -/
def finite? (d : PyDecimal) : Option Rat :=
  match d with
  | .finite .. => some d.rat
  | _ => none

/-- `Decimal(1).scaleb(n)`: beyond twice the range of the context it raises. -/
def scaleOne (n : Int) : Except PyError PyDecimal :=
  if n.natAbs ≤ 2 * (999999 + precision) then fix false 1 n else .error .arithmeticError

/-- The coefficient at the exponent `q`, rounded half to even. -/
def roundedAt (c : Nat) (e q : Int) : Nat :=
  if q ≤ e then c * 10 ^ (e - q).toNat else roundHalfEven c (q - e).toNat

/-- `d.quantize(quantum)` of a finite decimal, `q` being the exponent of the quantum. -/
def quantize (negative : Bool) (c : Nat) (e q : Int) : Except PyError PyDecimal :=
  if c = 0 then .ok (.finite negative 0 q)
  else if precision < digits c + (e - q) then .error .arithmeticError
  else if 10 ^ precision ≤ roundedAt c e q then .error .arithmeticError
  else .ok (.finite negative (roundedAt c e q) q)

/-- `abs(d)` of a decimal that the context holds. -/
def absolute : PyDecimal → PyDecimal
  | .finite _ c e => .finite false c e
  | .infinite _ => .infinite false
  | d => d

/-- `format(d, ".{places}f")` of a decimal with no more places. -/
def formatPlaces (places : Nat) : PyDecimal → PyStr
  | .finite negative c e => signText negative ++ fixedPoint (c * 10 ^ (e + places).toNat) places
  | d => d.formatF

/-! ## When `quantize` raises -/

theorem roundedAt_zero (e q : Int) : roundedAt 0 e q = 0 := by
  unfold roundedAt
  split_ifs
  · exact Nat.zero_mul _
  · exact Nat.le_zero.mp (roundHalfEven_le (by omega))

/-- More digits than the context has stay more when the number is rounded. -/
theorem le_roundedAt_of_digits {c : Nat} {e q : Int} (hc : c ≠ 0)
    (h : precision < digits c + (e - q)) : 10 ^ precision ≤ roundedAt c e q := by
  unfold roundedAt
  split_ifs with hq
  · have hpos : 0 < 10 ^ (e - q).toNat := Nat.pow_pos (by decide)
    apply pow_le_of_lt_digits (Nat.mul_ne_zero hc hpos.ne')
    rw [digits_mul_pow hc]
    omega
  · apply le_roundHalfEven
    rw [← Nat.pow_add]
    exact pow_le_of_lt_digits hc (by omega)

/-- **`quantize` raises iff the rounded coefficient has more digits than the context.** -/
theorem quantize_eq (negative : Bool) (c : Nat) (e q : Int) : quantize negative c e q =
      if roundedAt c e q < 10 ^ precision then .ok (.finite negative (roundedAt c e q) q)
      else .error .arithmeticError := by
  unfold quantize
  by_cases hc : c = 0
  · rw [if_pos hc, hc, roundedAt_zero, if_pos (Nat.pow_pos (by decide))]
  rw [if_neg hc]
  by_cases hdigits : precision < digits c + (e - q)
  · rw [if_pos hdigits, if_neg (not_lt.mpr (le_roundedAt_of_digits hc hdigits))]
  rw [if_neg hdigits]
  by_cases hround : 10 ^ precision ≤ roundedAt c e q
  · rw [if_pos hround, if_neg (not_lt.mpr hround)]
  · rw [if_neg hround, if_pos (not_le.mp hround)]

/-- A single unit is rounded down. -/
theorem roundHalfEven_one {places : Nat} (h : 0 < places) : roundHalfEven 1 places = 0 := by
  have hpow : 10 ≤ 10 ^ places := Nat.le_self_pow (by omega) 10
  have hdiv : 1 / 10 ^ places = 0 := Nat.div_eq_of_lt (by omega)
  have hmod : 1 % 10 ^ places = 1 := Nat.mod_eq_of_lt (by omega)
  unfold roundHalfEven
  dsimp only
  rw [hdiv, hmod, if_pos (.inl (by omega))]

theorem roundHalfEven_lt_iff {c places n : Nat} (heven : n % 2 = 0) :
    roundHalfEven c places < n ↔ 2 * c + 10 ^ places < 2 * n * 10 ^ places := by
  have hpos : 0 < 10 ^ places := Nat.pow_pos (by decide)
  have hsplit := Nat.div_add_mod c (10 ^ places)
  have hmod := Nat.mod_lt c hpos
  have hround : roundHalfEven c places = c / 10 ^ places ∨
      roundHalfEven c places = c / 10 ^ places + 1 := by
    unfold roundHalfEven
    dsimp only
    split_ifs
    · exact .inl rfl
    · exact .inr rfl
  rcases lt_trichotomy (c / 10 ^ places + 1) n with hlt | heq | hgt
  · -- there is room for one more
    have hle : (c / 10 ^ places + 2) * 10 ^ places ≤ n * 10 ^ places :=
      Nat.mul_le_mul_right _ (by omega)
    have hroom : 2 * c + 10 ^ places < 2 * n * 10 ^ places := by
      nlinarith only [hpos, hsplit, hmod, hle]
    exact iff_of_true (by omega) hroom
  · -- the last quotient is odd, so a tie goes up
    have hodd : ¬ (c / 10 ^ places % 2 = 0) := by omega
    have hdown : roundHalfEven c places < n ↔ 2 * (c % 10 ^ places) < 10 ^ places := by
      unfold roundHalfEven
      dsimp only
      split_ifs with h
      · exact iff_of_true (by omega) (h.resolve_right fun h => hodd h.2)
      · exact iff_of_false (by omega) fun hlt => h (.inl hlt)
    rw [hdown, ← heq]
    constructor
    · intro h
      nlinarith only [hsplit, h]
    · intro h
      nlinarith only [hsplit, h]
  · have hle : n * 10 ^ places ≤ c / 10 ^ places * 10 ^ places := Nat.mul_le_mul_right _ (by omega)
    refine iff_of_false (by omega) ?_
    nlinarith only [hpos, hsplit, hle, Nat.zero_le (c % 10 ^ places)]

/-- **The rounded coefficient in terms of the number**: it stays below an even bound iff the number
of units of the last place stays below it by more than a half. -/
theorem roundedAt_lt_iff {c n : Nat} {e q : Int} (heven : n % 2 = 0) :
    roundedAt c e q < n ↔ magnitude c e * (10 : Rat) ^ (-q) + 1 / 2 < n := by
  unfold roundedAt
  split_ifs with hq
  · have hunits : magnitude c e * (10 : Rat) ^ (-q) = ((c * 10 ^ (e - q).toNat : Nat) : Rat) := by
      rw [magnitude, mul_assoc, ← zpow_add₀ (by norm_num), Nat.cast_mul, Nat.cast_pow, ← zpow_natCast,
        Int.toNat_of_nonneg (by omega)]
      norm_num [sub_eq_add_neg]
    rw [hunits]
    constructor
    · intro h
      have hle : ((c * 10 ^ (e - q).toNat : Nat) : Rat) + 1 ≤ n := by exact_mod_cast h
      linarith
    · intro h
      have hlt : ((c * 10 ^ (e - q).toNat : Nat) : Rat) < n := by linarith
      exact_mod_cast hlt
  · have hunits : magnitude c e * (10 : Rat) ^ (-q) = (c : Rat) / 10 ^ (q - e).toNat := by
      rw [magnitude, mul_assoc, ← zpow_add₀ (by norm_num), div_eq_mul_inv, ← zpow_natCast, ← zpow_neg,
        Int.toNat_of_nonneg (by omega)]
      congr 2
      ring
    have hpos : (0 : Rat) < 10 ^ (q - e).toNat := by positivity
    rw [hunits, roundHalfEven_lt_iff heven, ← Nat.cast_lt (α := Rat)]
    push_cast
    rw [div_add_div _ _ hpos.ne' (by norm_num), div_lt_iff₀ (by positivity)]
    constructor
    · intro h
      linarith
    · intro h
      linarith

end OvcReplay.Python.PyDecimal
