import OvcReplay.Python.Numerals
import OvcReplay.Python.Quantize
import OvcReplay.Srfd.Serialization

/-! # Coefficients of a distance surface

`distance_surface.py`: a distance with so many places is stored as its coefficient, in 8 or 16
bytes. Between the two the default decimal context rounds to 28 digits, so a coefficient that has
more, zeros at its end apart, is changed. -/

namespace OvcReplay.Srfd.Surface

open List Python Python.PyDecimal Json

/-- What the module raises. -/
inductive SurfaceError where
  /-- `DistanceSurfaceError(reason_code, detail)`. -/
  | surface (reasonCode detail : PyStr)
  | python (e : PyError)
  deriving DecidableEq

/-! ## Decimals and coefficients -/

/-- `Decimal(10) ** p`: the power is exact, with as many zeros in the coefficient as the context
takes. -/
def powTen (p : Nat) : Except SurfaceError (Nat × Nat) :=
  if 999999 < p then .error (.python .arithmeticError) else .ok (10 ^ min p 27, p - 27)

/-- `_decimal` of a value with this text, as its sign, coefficient and exponent. -/
def decimalOf (text : PyStr) : Except SurfaceError (Bool × Nat × Int) :=
  match ofText text with
  | some (.finite negative coefficient exponent) => .ok (negative, coefficient, exponent)
  | some _ =>
    .error (.surface (py "G8R_SURFACE_INVALID_DECIMAL") (py "distance must be finite"))
  | none => .error (.surface (py "G8R_SURFACE_INVALID_DECIMAL") text)

/-- `d.to_integral_value()` of a decimal without its sign, rounded half to even. -/
def toIntegral (coefficient : Nat) (exponent : Int) : Nat :=
  if 0 ≤ exponent then coefficient * 10 ^ exponent.toNat
  else roundHalfEven coefficient (-exponent).toNat

/-- **`decimal_to_coefficient`** of a value with this text. -/
def decimalToCoefficient (text : PyStr) (precisionPlaces : Int) : Except SurfaceError Int := do
  check (0 ≤ precisionPlaces)
    (.surface (py "G8R_SURFACE_INVALID_PRECISION") (intText precisionPlaces))
  let (negative, coefficient, exponent) ← decimalOf text
  let scale ← powTen precisionPlaces.toNat
  match fix negative (coefficient * scale.1) (exponent + scale.2) with
  | .ok (.finite negative c e) => do
    check (magnitude c e = toIntegral c e) (.surface (py "G8R_SURFACE_NOT_QUANTIZED")
      (text ++ py " at precision " ++ intText precisionPlaces))
    return signed negative (toIntegral c e)
  | .ok _ => .error (.python .arithmeticError)
  | .error e => .error (.python e)

/-- `Decimal(coefficient) / Decimal(10) ** p`: the quotient, without more zeros at its end than the
power has, as the context rounds it. -/
def divPowTen (coefficient : Int) (p : Nat) : Except PyError PyDecimal :=
  let stripped := stripZeros (min p 27) coefficient.natAbs (-p)
  fix (decide (coefficient < 0)) stripped.1 stripped.2

/-- **`coefficient_to_decimal`**; no format has a negative number of places. -/
def coefficientToDecimal (coefficient : Int) (precisionPlaces : Nat) :
    Except SurfaceError PyStr := do
  let _ ← powTen precisionPlaces
  let value ← (divPowTen coefficient precisionPlaces).mapError .python
  return formatPlaces precisionPlaces value

/-! ## Widths and bytes -/

/-- Bytes. -/
abbrev Bytes : Type := List UInt8

/-- The order of the bytes of a coefficient. -/
inductive Endian where
  | big
  | little
  deriving DecidableEq

/-- The text of an order. -/
def Endian.text : Endian → PyStr
  | big => py "big"
  | little => py "little"

/-- The smallest and the largest of the values, and of none `0`. -/
def bounds (values : List Int) : Int × Int :=
  match values with
  | [] => (0, 0)
  | v :: vs => (vs.foldl min v, vs.foldl max v)

/-- **`coefficient_width`.** -/
def coefficientWidth (values : List Int) : Except SurfaceError Nat :=
  let (minimum, maximum) := bounds values
  if -(2 : Int) ^ 63 ≤ minimum ∧ maximum ≤ 2 ^ 63 - 1 then .ok 8
  else if -(2 : Int) ^ 127 ≤ minimum ∧ maximum ≤ 2 ^ 127 - 1 then .ok 16
  else .error (.surface (py "G8R_SURFACE_COEFFICIENT_OVERFLOW")
    (py "coefficient exceeds signed 128-bit storage"))

/-- The `width` last digits of a number to the base 256. -/
def bigEndian : (width : Nat) → Nat → Bytes
  | 0, _ => []
  | width + 1, n => bigEndian width (n / 256) ++ [UInt8.ofNat (n % 256)]

/-- The number of which these are the digits. -/
def ofBigEndian (bytes : Bytes) : Nat := bytes.foldl (fun n b => 256 * n + b.toNat) 0

/-- The bytes in their order. -/
def Endian.arrange (endian : Endian) (bytes : Bytes) : Bytes :=
  match endian with
  | .big => bytes
  | .little => bytes.reverse

/-- `_encode_signed`. -/
def encodeSigned (value : Int) (width : Nat) (endian : Endian) : Except SurfaceError Bytes := do
  check (width = 8 ∨ width = 16) (.surface (py "G8R_SURFACE_INVALID_ENCODING")
    (py "width=" ++ natText width ++ py ", endian=" ++ endian.text))
  check (-(2 : Int) ^ (8 * width - 1) ≤ value ∧ value < 2 ^ (8 * width - 1))
    (.surface (py "G8R_SURFACE_COEFFICIENT_OVERFLOW") (intText value))
  return endian.arrange (bigEndian width (value % 2 ^ (8 * width)).toNat)

/-- `int.from_bytes(bytes, signed=True)`. -/
def fromBytes (endian : Endian) (bytes : Bytes) : Int :=
  let n := ofBigEndian (endian.arrange bytes)
  if n < 2 ^ (8 * bytes.length - 1) then n else (n : Int) - 2 ^ (8 * bytes.length)

/-- `_decode_signed`. -/
def decodeSigned (payload : Bytes) (width : Nat) (endian : Endian) :
    Except SurfaceError (List Int) := do
  check (payload.length % width = 0) (.surface (py "G8R_SURFACE_CORRUPT_PAYLOAD")
    (py "payload length not divisible by coefficient width"))
  return (List.range (payload.length / width)).map fun i =>
    fromBytes endian ((payload.drop (i * width)).take width)

/-- The payload of a tile. -/
def encodeTile (coefficients : List Int) (width : Nat) (endian : Endian) :
    Except SurfaceError Bytes :=
  (coefficients.mapM fun value => encodeSigned value width endian).map flatten

/-! ## Rounding to the digits of the context -/

/-- The number with 28 digits that is left of `n`. -/
def round28 (n : Nat) : Nat :=
  if digits n ≤ precision then n
  else roundHalfEven n (digits n - precision) * 10 ^ (digits n - precision)

/-- **The context keeps the number**: it has at most 28 digits but for the zeros at its end. -/
def Kept (n : Nat) : Prop := n % 10 ^ (digits n - precision) = 0

instance : DecidablePred Kept := fun _ => inferInstanceAs (Decidable (_ = _))

section

variable {n p : Nat}

theorem round28_eq_self_iff : round28 n = n ↔ Kept n := by
  unfold round28 Kept
  split_ifs with h
  · rw [Nat.sub_eq_zero_of_le h]
    simp [Nat.mod_one]
  · rw [← Nat.dvd_iff_mod_eq_zero]
    constructor
    · intro heq
      exact ⟨_, heq.symm.trans (Nat.mul_comm _ _)⟩
    · rintro ⟨m, hm⟩
      have hround : roundHalfEven n (digits n - precision) = m := by
        generalize digits n - precision = k at hm ⊢
        rw [hm, Nat.mul_comm, roundHalfEven_mul]
      rw [hround, Nat.mul_comm, ← hm]

/-- A number of 28 digits and zeros is kept. -/
theorem kept_mul_pow {m k : Nat} (hm : m ≤ 10 ^ precision) : Kept (m * 10 ^ k) := by
  rcases Nat.eq_zero_or_pos m with rfl | hpos
  · simp [Kept]
  rw [Kept, digits_mul_pow hpos.ne', ← Nat.dvd_iff_mod_eq_zero]
  rcases hm.lt_or_eq with hlt | rfl
  · have hdigits : digits m ≤ precision := (digits_le_iff (by decide)).mpr hlt
    have hle : digits m + k - precision ≤ k := by
      have hprec : precision = 28 := rfl
      omega
    exact Dvd.dvd.mul_left (pow_dvd_pow 10 hle) m
  · have hdigits : digits (10 ^ precision) = precision + 1 := by decide +kernel
    have hle : precision + 1 + k - precision ≤ precision + k := by
      have hprec : precision = 28 := rfl
      omega
    rw [hdigits, ← pow_add]
    exact pow_dvd_pow 10 hle

/-- What is rounded has 28 digits, or one more. -/
theorem roundHalfEven_digits_le (h : ¬ digits n ≤ precision) :
    roundHalfEven n (digits n - precision) ≤ 10 ^ precision := by
  refine roundHalfEven_le ?_
  rw [← pow_add, show precision + (digits n - precision) = digits n by omega]
  exact (lt_pow_digits n).le

theorem kept_round28 : Kept (round28 n) := by
  by_cases h : digits n ≤ precision
  · rw [round28, if_pos h, Kept, Nat.sub_eq_zero_of_le h]
    simp [Nat.mod_one]
  · rw [round28, if_neg h]
    exact kept_mul_pow (roundHalfEven_digits_le h)

theorem least_eq (hp : p ≤ 999999) : least n (-p) = (digits n : Int) - p - precision := by
  have hpos := digits_pos n
  have hprec : precision = 28 := rfl
  have hetiny : etiny = -1000026 := rfl
  rw [least, max_eq_left (by omega)]
  ring

/-- What the context makes of a quotient by a power of ten. -/
theorem roundedMagnitude_eq (hp : p ≤ 999999) :
    roundedMagnitude n (-p) = magnitude (round28 n) (-p) := by
  have hleast := @least_eq n p hp
  have hprec : precision = 28 := rfl
  rw [roundedMagnitude, round28]
  split_ifs with h
  · rw [rounded_of_le (by omega), hleast]
    have hscale := magnitude_scale n (-p) (precision - digits n)
    rw [show (-p : Int) - ((precision - digits n : Nat) : Int) =
      (digits n : Int) - p - precision by omega] at hscale
    rw [← hscale]
    congr 3
    omega
  · rw [rounded_of_lt (by omega), hleast]
    have hscale := magnitude_scale (roundHalfEven n (digits n - precision))
      ((digits n : Int) - p - precision) (digits n - precision)
    rw [show (digits n : Int) - p - precision - ((digits n - precision : Nat) : Int) = -p by
      omega] at hscale
    rw [hscale]
    congr 2
    omega

/-- A coefficient of a distance has room. -/
theorem not_overflows (hn : digits n ≤ 100) : ¬ Overflows n (-p) := by
  have hprec : precision = 28 := rfl
  have hemax : emax = 999999 := rfl
  have hetiny : etiny = -1000026 := rfl
  rw [Overflows, not_or]
  refine ⟨by omega, fun h => ?_⟩
  have hleast : least n (-p) ≤ 100 := max_le (by omega) (by omega)
  omega

theorem round28_zero : round28 0 = 0 := by decide +kernel

theorem round28_round28 (n : Nat) : round28 (round28 n) = round28 n :=
  round28_eq_self_iff.mpr kept_round28

/-- Rounding adds at most one digit. -/
theorem digits_round28 (n : Nat) : digits (round28 n) ≤ digits n + 1 := by
  by_cases h : digits n ≤ precision
  · rw [round28, if_pos h]
    omega
  · have hle : round28 n ≤ 10 ^ precision * 10 ^ (digits n - precision) := by
      rw [round28, if_neg h]
      exact Nat.mul_le_mul_right _ (roundHalfEven_digits_le h)
    rw [← pow_add, show precision + (digits n - precision) = digits n by omega] at hle
    rw [digits_le_iff (by omega)]
    exact hle.trans_lt (Nat.pow_lt_pow_right (by decide) (by omega))

end

/-! ## Coefficient to decimal -/

/-- Zeros that are stripped are in the exponent. -/
theorem exists_stripZeros (fuel c : Nat) (e : Int) :
    ∃ k : Nat, c = (stripZeros fuel c e).1 * 10 ^ k ∧ (stripZeros fuel c e).2 = e + k := by
  induction fuel generalizing c e with
  | zero => exact ⟨0, by simp [stripZeros]⟩
  | succ fuel ih =>
    rw [stripZeros]
    split_ifs with h
    · obtain ⟨k, hc, he⟩ := ih (c / 10) (e + 1)
      refine ⟨k + 1, ?_, ?_⟩
      · rw [pow_succ, ← mul_assoc, ← hc, Nat.div_mul_cancel (Nat.dvd_of_mod_eq_zero h)]
      · rw [he]
        push_cast
        ring
    · exact ⟨0, by simp⟩

/-- The context does not lower an exponent. -/
theorem le_exponent_of_fix {s t : Bool} {c c' : Nat} {e e' : Int} (hc : c ≠ 0)
    (h : fix s c e = .ok (.finite t c' e')) : e ≤ e' := by
  rw [fix_eq hc] at h
  split_ifs at h with hmax hlow hfull hroom
  all_goals
    rw [Except.ok.injEq, PyDecimal.finite.injEq] at h
    omega

variable {e : Int} {c d : Nat}

theorem magnitude_inj (h : magnitude c e = magnitude d e) : c = d :=
  le_antisymm (magnitude_le_iff.mp h.le) (magnitude_le_iff.mp h.ge)

/-- A number with at least this exponent, written with this exponent. -/
theorem eq_of_magnitude_eq {p : Nat} (he : -(p : Int) ≤ e) (h : magnitude c e = magnitude d (-p)) :
    c * 10 ^ (e + p).toNat = d := by
  have hscale := magnitude_scale c e (e + p).toNat
  rw [show e - ((e + p).toNat : Int) = -p by omega] at hscale
  exact magnitude_inj (hscale.trans h)

/-- The quotient is the rounded coefficient with its places. -/
theorem exists_divPowTen {c : Int} {p : Nat} (hp : p ≤ 999999) (hc : digits c.natAbs ≤ 100) :
    ∃ z : Nat × Int, divPowTen c p = .ok (.finite (decide (c < 0)) z.1 z.2) ∧
      z.1 * 10 ^ (z.2 + p).toNat = round28 c.natAbs := by
  have hemax : emax = 999999 := rfl
  obtain ⟨k, hstrip, hexpo⟩ := exists_stripZeros (min p 27) c.natAbs (-p)
  rw [divPowTen]
  generalize stripZeros (min p 27) c.natAbs (-p) = stripped at hstrip hexpo ⊢
  obtain ⟨m, e⟩ := stripped
  dsimp only at hstrip hexpo ⊢
  by_cases hm : m = 0
  · rw [hm, fix_zero]
    refine ⟨(0, _), rfl, ?_⟩
    rw [hstrip, hm, Nat.zero_mul, Nat.zero_mul, round28_zero]
  · have hback : e - k = -(p : Int) := by omega
    have hover : ¬ Overflows m e := by
      rw [← overflows_scale hm k, ← hstrip, hback]
      exact not_overflows hc
    have hround : roundedMagnitude m e = magnitude (round28 c.natAbs) (-p) := by
      rw [← roundedMagnitude_scale hm k, ← hstrip, hback]
      exact roundedMagnitude_eq hp
    obtain ⟨z, hz, hval, -⟩ := fix_of_not_overflows (decide (c < 0)) hm hover
    have hle := le_exponent_of_fix hm hz
    exact ⟨z, hz, eq_of_magnitude_eq (by omega) (hval.trans hround)⟩

/-- **`coefficient_to_decimal` writes the rounded coefficient.** -/
theorem coefficientToDecimal_eq {c : Int} {p : Nat} (hp : p ≤ 999999)
    (hc : digits c.natAbs ≤ 100) : coefficientToDecimal c p =
      .ok (signText (decide (c < 0)) ++ fixedPoint (round28 c.natAbs) p) := by
  obtain ⟨z, hz, hval⟩ := exists_divPowTen hp hc
  rw [coefficientToDecimal, powTen, if_neg (by omega), hz, ← hval]
  rfl

/-! ## Decimal to coefficient -/

/-- What is a whole number is its integral value. -/
theorem toIntegral_eq {c n : Nat} (h : magnitude c e = n) : toIntegral c e = n := by
  have hzero : (n : Rat) = magnitude n 0 := by simp [magnitude]
  rw [hzero] at h
  unfold toIntegral
  split_ifs with he
  · have hscale := magnitude_scale c e e.toNat
    rw [show e - (e.toNat : Int) = 0 by omega] at hscale
    exact magnitude_inj (hscale.trans h)
  · have hscale := magnitude_scale n 0 (-e).toNat
    rw [show (0 : Int) - ((-e).toNat : Int) = e by omega] at hscale
    rw [magnitude_inj (h.trans hscale.symm), roundHalfEven_mul]

/-- Equal numbers are rounded equally. -/
theorem roundedMagnitude_congr {e f : Int} (hc : c ≠ 0) (hd : d ≠ 0)
    (h : magnitude c e = magnitude d f) :
    roundedMagnitude c e = roundedMagnitude d f ∧ (Overflows c e ↔ Overflows d f) := by
  obtain ⟨hle, hover⟩ := rounded_mono hc h.le
  obtain ⟨hge, hover'⟩ := rounded_mono hd h.ge
  exact ⟨le_antisymm hle hge, hover, hover'⟩

variable {s : Bool}

/-- **`decimal_to_coefficient` rounds the coefficient** of a decimal with so many places. -/
theorem decimalToCoefficient_eq {text : PyStr} {a n p : Nat}
    (htext : ofText text = some (.finite s a e)) (hp : p ≤ 999999) (hn : magnitude a (e + p) = n)
    (hdigits : digits n ≤ 100) :
    decimalToCoefficient text p = .ok (signed s (round28 n)) := by
  have hscaled : magnitude (a * 10 ^ min p 27) (e + (p - 27 : Nat)) = magnitude n 0 := by
    have hscale := magnitude_scale a (e + p) (min p 27)
    rw [show (e + p : Int) - ((min p 27 : Nat) : Int) = e + (p - 27 : Nat) by omega, hn] at hscale
    rw [hscale]
    simp [magnitude]
  obtain ⟨z, hz, hval⟩ : ∃ z : Nat × Int,
      fix s (a * 10 ^ min p 27) (e + (p - 27 : Nat)) = .ok (.finite s z.1 z.2) ∧
        magnitude z.1 z.2 = round28 n := by
    by_cases hm : a * 10 ^ min p 27 = 0
    · rw [hm] at hscaled ⊢
      rw [magnitude_eq_zero_iff.mpr rfl, eq_comm, magnitude_eq_zero_iff] at hscaled
      rw [fix_zero, hscaled, round28_zero]
      exact ⟨(0, _), rfl, by simp [magnitude]⟩
    · have hpos : n ≠ 0 := by
        rintro rfl
        rw [(magnitude_eq_zero_iff (e := 0)).mpr rfl, magnitude_eq_zero_iff] at hscaled
        exact hm hscaled
      obtain ⟨hround, hover⟩ := roundedMagnitude_congr hm hpos hscaled
      have hzero := @roundedMagnitude_eq n 0 (by decide)
      have hroom := @not_overflows n 0 hdigits
      rw [Nat.cast_zero, neg_zero] at hzero hroom
      obtain ⟨z, hz, hval, -⟩ := fix_of_not_overflows s hm (mt hover.mp hroom)
      refine ⟨z, hz, hval.trans (hround.trans (hzero.trans ?_))⟩
      simp [magnitude]
  have hintegral := toIntegral_eq hval
  have hpow : powTen (p : Int).toNat = .ok (10 ^ min p 27, p - 27) := by
    rw [Int.toNat_natCast, powTen, if_neg (by omega)]
  have hpositive : (check (0 ≤ (p : Int)) (SurfaceError.surface
      (py "G8R_SURFACE_INVALID_PRECISION") (intText p))) = .ok () :=
    check_ok.mpr (Int.natCast_nonneg p)
  rw [decimalToCoefficient, hpositive, decimalOf, htext, hpow]
  refine bind_ok.mpr ⟨(), rfl, bind_ok.mpr ⟨_, rfl, bind_ok.mpr ⟨_, rfl, ?_⟩⟩⟩
  rw [hz]
  refine bind_ok.mpr ⟨(), check_ok.mpr ?_, ?_⟩
  · rw [hval, hintegral]
  · rw [hintegral]
    rfl

theorem decimalToCoefficient_of_lt {text : PyStr} {p : Nat} (hp : 999999 < p) (c : Int) :
    decimalToCoefficient text p ≠ .ok c := by
  intro h
  obtain ⟨_, _, h⟩ := bind_ok.mp h
  obtain ⟨_, _, h⟩ := bind_ok.mp h
  obtain ⟨_, hpow, _⟩ := bind_ok.mp h
  rw [Int.toNat_natCast, powTen, if_pos hp] at hpow
  cases hpow

/-! ## The text of a coefficient -/

/-- A text with a fixed number of places is read as its coefficient and its places. -/
theorem ofText_fixedPoint (s : Bool) {c p : Nat} (h : WithinLimits c (-p)) :
    ofText (signText s ++ fixedPoint c p) = some (.finite s c (-p)) := by
  obtain ⟨whole, -, front, htext, -, -, -, hne, hwhole, -⟩ := exists_digits_fixedPoint c p
  obtain ⟨d, ds, rfl⟩ := exists_cons_of_ne_nil hne
  have hd : IsDigit d = true := hwhole d (by simp)
  have hfixed : fixedPoint c p = d :: (ds ++ front) := htext
  have hread : readUnsigned s (fixedPoint c p) = some (.finite s c (-p)) := by
    rw [readUnsigned, readNumeral_fixedPoint, if_pos h]
    rfl
  have hnumeral : ∀ x ∈ signText s ++ fixedPoint c p, IsNumeralChar x := by
    intro x hx
    rcases mem_append.mp hx with hx | hx
    · rw [signText_eq] at hx
      split_ifs at hx
      · exact .inr (.inr (.inl (mem_singleton.mp hx)))
      · exact absurd hx not_mem_nil
    · exact isNumeralChar_fixedPoint c p x hx
  rw [ofText, strip_filter_eq_self fun x hx => not_isSpace_of_isNumeralChar (hnumeral x hx),
    signText_eq]
  cases s with
  | true => simpa using hread
  | false =>
    have hminus : d ≠ minusChar := isDigit_ne hd (.inl (by decide))
    have hplus : d ≠ plusChar := isDigit_ne hd (.inl (by decide))
    rw [hfixed] at hread ⊢
    simpa [hminus, hplus] using hread

/-- A coefficient of a distance can be held with its places. -/
theorem withinLimits_of_digits {c p : Nat} (hp : p ≤ 999999) (hc : digits c ≤ 100) :
    WithinLimits c (-p) := by
  have hmax : maxEmax = 999999999999999999 := rfl
  have hmin : minEtiny = -1999999999999999997 := rfl
  refine ⟨by omega, ?_⟩
  split_ifs
  · omega
  · omega

/-! ## The codec -/

/-- The coefficient is a signed number of 128 bits. -/
def Fits (c : Int) : Prop := -2 ^ 127 ≤ c ∧ c ≤ 2 ^ 127 - 1

instance : DecidablePred Fits := fun _ => inferInstanceAs (Decidable (_ ∧ _))

/-- The text is read as a number that equals the decimal. -/
def Denotes (text : PyStr) (d : PyDecimal) : Prop :=
  ∃ r, (ofText text).bind finite? = some r ∧ d.finite? = some r

theorem digits_of_fits {c : Int} (h : Fits c) : digits c.natAbs ≤ 39 := by
  rw [digits_le_iff (by decide)]
  have hle : c.natAbs ≤ 2 ^ 127 := by
    obtain ⟨hlow, hhigh⟩ := h
    omega
  exact hle.trans_lt (by norm_num)

theorem signed_natAbs (c : Int) : signed (decide (c < 0)) c.natAbs = c := by
  unfold signed
  split_ifs with h
  · rw [decide_eq_true_eq] at h
    omega
  · rw [decide_eq_true_eq] at h
    omega

theorem natAbs_signed (s : Bool) (n : Nat) : (signed s n).natAbs = n := by
  cases s <;> simp [signed]

theorem signed_inj {m n : Nat} (h : signed s m = signed s n) : m = n := by
  rw [← natAbs_signed s m, h, natAbs_signed]

/-- The coefficient that comes back. -/
theorem decimalToCoefficient_coefficientToDecimal {c : Int} {p : Nat} (hp : p ≤ 999999)
    (hc : digits c.natAbs ≤ 39) :
    (do decimalToCoefficient (← coefficientToDecimal c p) p) =
      .ok (signed (decide (c < 0)) (round28 c.natAbs)) := by
  have hdigits := digits_round28 c.natAbs
  have htext := ofText_fixedPoint (decide (c < 0)) (withinLimits_of_digits hp
    (show digits (round28 c.natAbs) ≤ 100 by omega))
  have hval : magnitude (round28 c.natAbs) (-(p : Int) + p) = (round28 c.natAbs : Nat) := by
    simp [magnitude]
  rw [coefficientToDecimal_eq hp (by omega)]
  refine bind_intro rfl ?_
  rw [decimalToCoefficient_eq htext hp hval (by omega), round28_round28]

/-- The number that comes back. -/
theorem coefficientToDecimal_decimalToCoefficient {a n p : Nat} (h : WithinLimits a e)
    (hp : p ≤ 999999) (hn : magnitude a (e + p) = n) (hdigits : digits n ≤ 39) :
    (do coefficientToDecimal (← decimalToCoefficient (sciText (.finite s a e)) p) p) =
      .ok (signText (decide (signed s (round28 n) < 0)) ++ fixedPoint (round28 n) p) := by
  have hround := digits_round28 n
  have htext : ofText (sciText (.finite s a e)) = some (.finite s a e) := by
    rw [ofText_sciText_finite, if_pos h]
  rw [decimalToCoefficient_eq htext hp hn (by omega)]
  refine bind_intro rfl ?_
  rw [coefficientToDecimal_eq hp (by rw [natAbs_signed]; omega), natAbs_signed, round28_round28]

theorem rat_signed (s : Bool) (n : Nat) (e : Int) :
    (PyDecimal.finite (decide (signed s n < 0)) n e).rat = (PyDecimal.finite s n e).rat := by
  rcases Nat.eq_zero_or_pos n with rfl | hpos
  · simp [rat]
  · have hsign : decide (signed s n < 0) = s := by
      cases s with
      | false => simp [signed]
      | true => simp [signed, hpos]
    rw [hsign]

theorem rat_inj {e f : Int} : (PyDecimal.finite s c e).rat = (PyDecimal.finite s d f).rat ↔
      magnitude c e = magnitude d f := by
  cases s <;> simp [rat, magnitude]

/-! ## Tiles -/

@[simp] theorem length_bigEndian (width n : Nat) : (bigEndian width n).length = width := by
  induction width generalizing n with
  | zero => rfl
  | succ width ih => rw [bigEndian, length_append, ih, length_singleton]

theorem ofBigEndian_concat (bytes : Bytes) (b : UInt8) :
    ofBigEndian (bytes ++ [b]) = 256 * ofBigEndian bytes + b.toNat := by
  rw [ofBigEndian, foldl_append]
  rfl

/-- The digits of a number with that many of them are the number. -/
theorem ofBigEndian_bigEndian (width : Nat) {n : Nat} (h : n < 256 ^ width) :
    ofBigEndian (bigEndian width n) = n := by
  induction width generalizing n with
  | zero =>
    rw [Nat.pow_zero, Nat.lt_one_iff] at h
    rw [h]
    rfl
  | succ width ih =>
    have hquotient : n / 256 < 256 ^ width := by
      rw [Nat.div_lt_iff_lt_mul (by decide), ← Nat.pow_succ]
      exact h
    have hdigit : (UInt8.ofNat (n % 256)).toNat = n % 256 :=
      UInt8.toNat_ofNat_of_lt' (Nat.mod_lt n (by decide))
    rw [bigEndian, ofBigEndian_concat, ih hquotient, hdigit]
    exact Nat.div_add_mod n 256

variable (endian : Endian)

@[simp] theorem length_arrange (bytes : Bytes) : (endian.arrange bytes).length = bytes.length := by
  cases endian
  · rfl
  · exact length_reverse

@[simp] theorem arrange_arrange (bytes : Bytes) :
    endian.arrange (endian.arrange bytes) = bytes := by
  cases endian
  · rfl
  · exact reverse_reverse bytes

/-- The value is a signed number of so many bytes. -/
def FitsWidth (width : Nat) (value : Int) : Prop :=
  -(2 : Int) ^ (8 * width - 1) ≤ value ∧ value < 2 ^ (8 * width - 1)

/-- **What `_encode_signed` writes is read as the value.** -/
theorem exists_encodeSigned {value : Int} {width : Nat}
    (hwidth : width = 8 ∨ width = 16) (h : FitsWidth width value) :
    ∃ bytes, encodeSigned value width endian = .ok bytes ∧ bytes.length = width ∧
      fromBytes endian bytes = value := by
  have hpos : 0 < 8 * width := by omega
  have hpow : (2 : Int) ^ (8 * width) = 2 * 2 ^ (8 * width - 1) := by
    rw [← pow_succ', Nat.sub_add_cancel hpos]
  have hhalf : (0 : Int) < 2 ^ (8 * width - 1) := by positivity
  obtain ⟨hlow, hhigh⟩ := h
  refine ⟨endian.arrange (bigEndian width (value % 2 ^ (8 * width)).toNat), ?_, by simp, ?_⟩
  · exact bind_ok.mpr ⟨(), check_ok.mpr hwidth, bind_ok.mpr ⟨(),
      check_ok.mpr ⟨hlow, hhigh⟩, rfl⟩⟩
  have hmod := Int.emod_nonneg value (by omega : (2 : Int) ^ (8 * width) ≠ 0)
  have hlt := Int.emod_lt_of_pos value (by omega : (0 : Int) < 2 ^ (8 * width))
  have hdigits : ofBigEndian (bigEndian width (value % 2 ^ (8 * width)).toNat) =
      (value % 2 ^ (8 * width)).toNat := by
    apply ofBigEndian_bigEndian
    rw [show (256 : Nat) = 2 ^ 8 by rfl, ← pow_mul]
    zify
    rw [Int.toNat_of_nonneg hmod]
    exact hlt
  unfold fromBytes
  dsimp only
  rw [arrange_arrange, hdigits, length_arrange, length_bigEndian]
  have hcast : ((value % 2 ^ (8 * width)).toNat : Int) = value % 2 ^ (8 * width) :=
    Int.toNat_of_nonneg hmod
  have hiff : (value % 2 ^ (8 * width)).toNat < 2 ^ (8 * width - 1) ↔
      value % 2 ^ (8 * width) < 2 ^ (8 * width - 1) := by
    zify
    rw [hcast]
  rcases lt_or_ge value 0 with hneg | hnonneg
  · have hval : value % 2 ^ (8 * width) = value + 2 ^ (8 * width) := by
      rw [← Int.add_emod_right, Int.emod_eq_of_lt (by omega) (by omega)]
    rw [if_neg (hiff.not.mpr (by omega)), hcast, hval]
    omega
  · have hval : value % 2 ^ (8 * width) = value := Int.emod_eq_of_lt hnonneg (by omega)
    rw [if_pos (hiff.mpr (by omega)), hcast, hval]

/-- The blocks of a payload are read one by one. -/
theorem map_range_flatten {blocks : List Bytes} {width : Nat}
    (h : ∀ b ∈ blocks, b.length = width) (f : Bytes → Int) :
    blocks.flatten.length = blocks.length * width ∧ ((List.range blocks.length).map fun i =>
        f ((blocks.flatten.drop (i * width)).take width)) = blocks.map f := by
  induction blocks with
  | nil => exact ⟨by simp, rfl⟩
  | cons b bs ih =>
    obtain ⟨hlen, hmap⟩ := ih fun c hc => h c (mem_cons_of_mem _ hc)
    have hb : b.length = width := h b mem_cons_self
    constructor
    · rw [flatten_cons, length_append, hlen, hb, length_cons]
      ring
    · rw [length_cons, range_succ_eq_map, map_cons, map_map, map_cons,
        ← hmap, flatten_cons, Nat.zero_mul, drop_zero, take_left' hb]
      congr 1
      apply map_congr_left
      intro i _
      show f (((b ++ bs.flatten).drop ((i + 1) * width)).take width) = _
      rw [Nat.succ_mul, Nat.add_comm, ← drop_drop, drop_left' hb]

/-- **A tile of values that fit comes back from its payload.** -/
theorem exists_encodeTile {tile : List Int} {width : Nat}
    (hwidth : width = 8 ∨ width = 16) (h : ∀ v ∈ tile, FitsWidth width v) :
    ∃ payload, encodeTile tile width endian = .ok payload ∧
      decodeSigned payload width endian = .ok tile := by
  have hpos : 0 < width := by omega
  obtain ⟨blocks, hencode, hlengths, hvals⟩ : ∃ blocks : List Bytes,
      tile.mapM (fun value => encodeSigned value width endian) = .ok blocks ∧
        (∀ b ∈ blocks, b.length = width) ∧ blocks.map (fromBytes endian) = tile := by
    induction tile with
    | nil => exact ⟨[], rfl, by simp, rfl⟩
    | cons v vs ih =>
      obtain ⟨blocks, hencode, hlengths, hvals⟩ :=
        ih fun x hx => h x (mem_cons_of_mem _ hx)
      obtain ⟨b, hb, hlen, hval⟩ := exists_encodeSigned endian hwidth
        (h v mem_cons_self)
      refine ⟨b :: blocks, ?_, forall_mem_cons.mpr ⟨hlen, hlengths⟩, ?_⟩
      · rw [mapM_ok_iff] at hencode ⊢
        exact .cons hb hencode
      · rw [map_cons, hval, hvals]
  obtain ⟨hlen, hmap⟩ := map_range_flatten hlengths (fromBytes endian)
  refine ⟨blocks.flatten, by rw [encodeTile, hencode]; rfl, ?_⟩
  refine bind_ok.mpr ⟨(), check_ok.mpr ?_, ?_⟩
  · rw [hlen, Nat.mul_mod_left]
  · rw [hlen, Nat.mul_div_cancel _ hpos, hmap, hvals]
    rfl

/-! ## The width of a tile -/

theorem le_foldl_min_iff {b v : Int} {vs : List Int} :
    b ≤ vs.foldl min v ↔ b ≤ v ∧ ∀ x ∈ vs, b ≤ x := by
  induction vs generalizing v with
  | nil => simp
  | cons x xs ih => rw [foldl_cons, ih, le_min_iff, forall_mem_cons, and_assoc]

theorem foldl_max_le_iff {b v : Int} {vs : List Int} :
    vs.foldl max v ≤ b ↔ v ≤ b ∧ ∀ x ∈ vs, x ≤ b := by
  induction vs generalizing v with
  | nil => simp
  | cons x xs ih => rw [foldl_cons, ih, max_le_iff, forall_mem_cons, and_assoc]

/-- Bounds around `0` hold for the values iff they hold for the smallest and the largest. -/
theorem bounds_iff {values : List Int} {low high : Int} (hlow : low ≤ 0) (hhigh : 0 ≤ high) :
    low ≤ (bounds values).1 ∧ (bounds values).2 ≤ high ↔ ∀ v ∈ values, low ≤ v ∧ v ≤ high := by
  cases values with
  | nil => simp [bounds, hlow, hhigh]
  | cons v vs =>
    rw [bounds, le_foldl_min_iff, foldl_max_le_iff, forall_mem_cons]
    constructor
    · rintro ⟨⟨hv, hvs⟩, hv', hvs'⟩
      exact ⟨⟨hv, hv'⟩, fun x hx => ⟨hvs x hx, hvs' x hx⟩⟩
    · rintro ⟨⟨hv, hv'⟩, hvs⟩
      exact ⟨⟨hv, fun x hx => (hvs x hx).1⟩, hv', fun x hx => (hvs x hx).2⟩

/-- **The width that is chosen is one in which all values fit.** -/
theorem exists_coefficientWidth {values : List Int} (h : ∀ v ∈ values, Fits v) :
    ∃ width, coefficientWidth values = .ok width ∧ (width = 8 ∨ width = 16) ∧
      ∀ v ∈ values, FitsWidth width v := by
  have hlong := (bounds_iff (by norm_num) (by norm_num)).mpr h
  unfold coefficientWidth
  generalize hbounds : bounds values = bs at hlong ⊢
  obtain ⟨minimum, maximum⟩ := bs
  dsimp only
  by_cases hshort : -(2 : Int) ^ 63 ≤ minimum ∧ maximum ≤ 2 ^ 63 - 1
  · refine ⟨8, if_pos hshort, .inl rfl, fun v hv => ?_⟩
    have hall := (@bounds_iff values (-2 ^ 63) (2 ^ 63 - 1) (by norm_num) (by norm_num)).mp
      (by rw [hbounds]; exact hshort)
    obtain ⟨hlow, hhigh⟩ := hall v hv
    exact ⟨hlow, by omega⟩
  · rw [if_neg hshort, if_pos hlong]
    refine ⟨16, rfl, .inr rfl, fun v hv => ?_⟩
    obtain ⟨hlow, hhigh⟩ := h v hv
    exact ⟨hlow, by omega⟩

/-! ## When a coefficient comes back -/

/-- **A coefficient and a number come back iff the context keeps the coefficient and has the power
of ten; a tile always does.** -/
theorem codec_iff (p : Nat) :
    (∀ c, Fits c → ((do decimalToCoefficient (← coefficientToDecimal c p) p) = .ok c ↔
      p ≤ 999999 ∧ Kept c.natAbs)) ∧
    (∀ s a e n, WithinLimits a e → magnitude a (e + p) = (n : Nat) → Fits (signed s n) →
      ((∃ text, (do coefficientToDecimal (← decimalToCoefficient (sciText (.finite s a e)) p) p) =
          .ok text ∧ Denotes text (.finite s a e)) ↔ p ≤ 999999 ∧ Kept n)) ∧
    (∀ tile endian, (∀ v ∈ tile, Fits v) → ∃ width payload,
      coefficientWidth tile = .ok width ∧ encodeTile tile width endian = .ok payload ∧
        decodeSigned payload width endian = .ok tile) := by
  refine ⟨?_, ?_, ?_⟩
  · intro c hc
    by_cases hp : p ≤ 999999
    · rw [decimalToCoefficient_coefficientToDecimal hp (digits_of_fits hc), Except.ok.injEq,
        and_iff_right hp, ← round28_eq_self_iff]
      conv_lhs => rhs; rw [← signed_natAbs c]
      exact ⟨signed_inj, fun h => by rw [h]⟩
    · refine iff_of_false (fun h => ?_) fun h => hp h.1
      obtain ⟨text, -, h⟩ := bind_ok.mp h
      exact decimalToCoefficient_of_lt (not_le.mp hp) c h
  · intro s a e n hlimits hn hfits
    have hdigits : digits n ≤ 39 := by
      have h := digits_of_fits hfits
      rwa [natAbs_signed] at h
    by_cases hp : p ≤ 999999
    · rw [coefficientToDecimal_decimalToCoefficient hlimits hp hn hdigits, and_iff_right hp,
        ← round28_eq_self_iff]
      have hround := digits_round28 n
      have hread := ofText_fixedPoint (decide (signed s (round28 n) < 0))
        (withinLimits_of_digits hp (show digits (round28 n) ≤ 100 by omega))
      have hscale : magnitude a e = magnitude n (-p) := by
        rw [magnitude, zpow_add₀ (by norm_num), ← mul_assoc] at hn
        rw [magnitude, magnitude, zpow_neg, ← hn, mul_assoc,
          mul_inv_cancel₀ (zpow_ne_zero _ (by norm_num)), mul_one]
      constructor
      · rintro ⟨text, htext, r, hr, hd⟩
        cases htext
        rw [hread] at hr
        have hrat : (PyDecimal.finite (decide (signed s (round28 n) < 0)) (round28 n) (-p)).rat =
            (PyDecimal.finite s a e).rat := Option.some.inj (hr.trans hd.symm)
        rw [rat_signed, rat_inj, hscale] at hrat
        exact magnitude_inj hrat
      · intro h
        refine ⟨_, rfl, _, by rw [hread]; rfl, ?_⟩
        rw [rat_signed, rat_inj.mpr (by rw [h, hscale])]
        rfl
    · refine iff_of_false ?_ fun h => hp h.1
      rintro ⟨text, h, -⟩
      obtain ⟨c, h, -⟩ := bind_ok.mp h
      exact decimalToCoefficient_of_lt (not_le.mp hp) c h
  · intro tile endian h
    obtain ⟨width, hchosen, hwidth, hfits⟩ := exists_coefficientWidth h
    obtain ⟨payload, hencode, hdecode⟩ := exists_encodeTile endian hwidth hfits
    exact ⟨width, payload, hchosen, hencode, hdecode⟩

/-- A coefficient of 29 digits loses its last one. -/
theorem long_coefficient_changed :
    ¬ ∀ c, Fits c → (do decimalToCoefficient (← coefficientToDecimal c 0) 0) = .ok c := by
  intro h
  have hback := h (10 ^ 28 + 1) (by decide)
  have hchg : (do decimalToCoefficient (← coefficientToDecimal (10 ^ 28 + 1) 0) 0) =
      .ok (10 ^ 28) := by decide +kernel
  rw [hchg, Except.ok.injEq] at hback
  exact absurd hback (by decide)

end OvcReplay.Srfd.Surface
