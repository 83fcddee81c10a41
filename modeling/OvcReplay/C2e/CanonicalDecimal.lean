import OvcReplay.C2e.Serialization
import OvcReplay.Python.Numerals
import OvcReplay.Python.Quantize
import OvcReplay.SharedSystems.NumberText

/-! # Canonical decimals

`canonical_decimal` of `serialization.py`: a number as a text with so many places. It is exact where
the number has at most 28 digits at that precision; beyond, the decimal context raises an exception
of its own. -/

namespace OvcReplay.C2e

open List Python PyDecimal Json

variable (P : Platform)

/-! ## The function -/

/-- `Decimal(text)`, without a value where it raises. -/
def readDecimal (s : PyStr) : Option PyDecimal := if IsAscii s then ofText s else P.decimalOf s

/-- `str(value)`: an integer with more than 4300 digits raises. -/
def decimalText : PyVal → Except PyError PyStr
  | .str s => .ok s
  | .int z => if z.natAbs < 10 ^ maxStrDigits then .ok (intText z) else .error .valueError
  | .decimal d => .ok d.sciText
  | v => v.strOf P

/-- `_EXPONENT_RE.search(text)`. -/
def hasExponent (text : PyStr) : Bool := text.any IsExponentChar

/-- `isinstance(value, bool) or isinstance(value, float)`. -/
def isRuntimeFloat : PyVal → Bool
  | .bool _ => true
  | .float _ => true
  | _ => false

/-- What becomes of a finite decimal: the quantum, the quantized decimal, and its text. -/
def exactText (negative : Bool) (c : Nat) (e : Int) (precision : Nat) : Except Error PyStr := do
  let quantum ← (scaleOne (-precision)).mapError .python
  let quantized ← (quantize negative c e quantum.exponentOf).mapError .python
  check (quantized.rat = (PyDecimal.finite negative c e).rat)
    (.serialization (py "DECIMAL_PRECISION_MISMATCH"))
  return formatPlaces precision (if quantized.isZero then quantized.absolute else quantized)

/-- `canonical_decimal`. -/
def canonicalDecimal (value : PyVal) (precision : Int) (allowExponent : Bool) :
    Except Error PyStr := do
  check (isRuntimeFloat value = false) (.serialization (py "RUNTIME_FLOAT_IDENTITY_DENIED"))
  check (0 ≤ precision) (.serialization (py "DECIMAL_PRECISION_INVALID"))
  let text ← (decimalText P value).mapError .python
  check (allowExponent = true ∨ hasExponent text = false)
    (.serialization (py "DECIMAL_EXPONENT_FORM_DENIED"))
  match readDecimal P text with
  | none => .error (.serialization (py "DECIMAL_INVALID"))
  | some (.finite negative c e) => exactText negative c e precision.toNat
  | some _ => .error (.serialization (py "DECIMAL_NONFINITE_DENIED"))

/-! ## Numbers and their texts -/

/-- An `int`, a text or a `Decimal`; of a `Decimal` the exponent is within the limits. -/
inductive DecimalInput where
  | int (z : Int)
  | text (s : PyStr)
  | decimal (d : {d : PyDecimal // d.Legal})

namespace DecimalInput

/-- The value. -/
def toVal : DecimalInput → PyVal
  | .int z => .int z
  | .text s => .str s
  | .decimal d => .decimal d

/-- The number that the input denotes; an infinity, a NaN or a text that is not read denotes
none. -/
def number? : DecimalInput → Option Rat
  | .int z => some z
  | .text s => (readDecimal P s).bind PyDecimal.finite?
  | .decimal d => d.val.finite?

/-- The input is written with an exponent. -/
def exponentForm : DecimalInput → Bool
  | .int _ => false
  | .text s => hasExponent s
  | .decimal d => hasExponent d.val.sciText

end DecimalInput

/-- The text is the number `x` with exactly `places` digits behind the point, zero without a
sign. -/
def Denotes (text : PyStr) (places : Nat) (x : Rat) : Prop :=
  ∃ (negative : Bool) (whole fraction : PyStr),
    text = signText negative ++ whole ++ (if places = 0 then [] else pointChar :: fraction) ∧
    whole ≠ [] ∧ (∀ c ∈ whole ++ fraction, IsDigit c = true) ∧ fraction.length = places ∧
    x = (if negative then -1 else 1) * digitsValue (whole ++ fraction) / 10 ^ places ∧
    (negative = true → x ≠ 0)

/-- An exception of the module itself. -/
def IsSerialization : Error → Prop
  | .serialization _ => True
  | _ => False

/-- **`canonical_decimal` is exact on an input**: only its own exception escapes, what it returns is
the input's number with so many places, and another input gets the same text iff it is the same
number. -/
structure CanonicallyExact (v : DecimalInput) (precision : Nat) (allowExponent : Bool) : Prop where
  raises : RaisesOnly IsSerialization (canonicalDecimal P v.toVal precision allowExponent)
  denotes : ∀ text, canonicalDecimal P v.toVal precision allowExponent = .ok text →
    ∃ x, v.number? P = some x ∧ Denotes text precision x
  canonical : ∀ text, canonicalDecimal P v.toVal precision allowExponent = .ok text →
    ∀ (w : DecimalInput) (b : Bool) (other : PyStr),
      canonicalDecimal P w.toVal precision b = .ok other →
        (other = text ↔ w.number? P = v.number? P)

/-- The number rounded to the precision has at most 28 digits, and the context has so many
places. -/
def FitsContext (v : DecimalInput) (precision : Nat) (allowExponent : Bool) : Prop :=
  ∀ x, v.number? P = some x → (allowExponent = true ∨ v.exponentForm = false) →
    precision ≤ 2000054 ∧ |x| * 10 ^ min precision 1000026 + 1 / 2 < 10 ^ 28

/-! ## Reading the input -/

theorem intText_eq (z : Int) : intText z =
    (PyDecimal.finite (decide (z < 0)) z.natAbs 0).sciText := by
  have hplain (n : Nat) : unsignedText n 0 = natText n := by
    have hpos : 0 < (natText n).length := length_pos_of_ne_nil (natText_ne_nil n)
    unfold unsignedText
    rw [if_pos ⟨le_rfl, by omega⟩, neg_zero, Int.toNat_zero, SharedSystems.fixedPoint_zero]
  rw [sciText, hplain]
  cases z with
  | ofNat n => rfl
  | negSucc n => simp [signText, intText, Int.natAbs_negSucc]

theorem rat_int (z : Int) : (PyDecimal.finite (decide (z < 0)) z.natAbs 0).rat = z := by
  rw [rat, zpow_zero, mul_one]
  by_cases h : z < 0
  · have habs : ((z.natAbs : Int) : Rat) = -z := by
      rw [Int.ofNat_natAbs_of_nonpos h.le, Int.cast_neg]
    rw [if_pos (by simpa using h), ← Int.cast_natCast, habs]
    ring
  · have habs : ((z.natAbs : Int) : Rat) = z := by rw [Int.natAbs_of_nonneg (by omega)]
    rw [if_neg (by simpa using h), ← Int.cast_natCast, habs]
    ring

theorem withinLimits_int {z : Int} (h : z.natAbs < 10 ^ maxStrDigits) :
    WithinLimits z.natAbs 0 := by
  have hdigits : digits z.natAbs ≤ maxStrDigits := (digits_le_iff (by decide)).mpr h
  have hmax : (maxStrDigits : Int) ≤ maxEmax := by decide
  refine ⟨by decide, ?_⟩
  split_ifs
  · decide
  · omega

variable {negative : Bool} {e : Int}

theorem readDecimal_sciText {c : Nat} (h : WithinLimits c e) :
    readDecimal P (PyDecimal.finite negative c e).sciText = some (.finite negative c e) := by
  rw [readDecimal, if_pos (isAscii_sciText_finite negative c e), ofText_sciText_finite, if_pos h]

theorem readDecimal_special {d : PyDecimal} (hd : ¬ d.IsFinite) :
    (readDecimal P d.sciText).bind finite? = none := by
  rw [readDecimal, if_pos (isAscii_sciText_special hd)]
  cases hread : ofText d.sciText with
  | none => rfl
  | some x =>
    have hx : ¬ x.IsFinite := not_isFinite_ofText_sciText hd hread
    cases x with
    | finite => exact absurd trivial hx
    | infinite => rfl
    | nan => rfl

theorem hasExponent_intText (z : Int) : hasExponent (intText z) = false := by
  have hnat (n : Nat) : ∀ c ∈ natText n, IsExponentChar c = false :=
    fun c hc => isDigit_not_exponentChar (isDigit_natText n c hc)
  rw [hasExponent, any_eq_false]
  intro c hc
  cases z with
  | ofNat n => simp [hnat n c hc]
  | negSucc n =>
    rcases mem_append.mp hc with hc | hc
    · rw [py_minus] at hc
      rw [mem_singleton.mp hc]
      decide
    · simp [hnat _ c hc]

theorem decimalText_int {z : Int} (h : z.natAbs < 10 ^ maxStrDigits) :
    decimalText P (.int z) = .ok (intText z) := by
  rw [decimalText, if_pos h]

/-- The text of an input is read as its number. -/
theorem exists_text (v : DecimalInput) (h : ∀ z, v = .int z → z.natAbs < 10 ^ maxStrDigits) :
    ∃ text, decimalText P v.toVal = .ok text ∧ hasExponent text = v.exponentForm ∧
      v.number? P = (readDecimal P text).bind finite? := by
  cases v with
  | int z =>
    refine ⟨intText z, decimalText_int P (h z rfl), hasExponent_intText z, ?_⟩
    rw [intText_eq, readDecimal_sciText P (withinLimits_int (h z rfl))]
    exact congrArg some (rat_int z).symm
  | text s => exact ⟨s, rfl, rfl, rfl⟩
  | decimal d =>
    refine ⟨d.val.sciText, rfl, rfl, ?_⟩
    obtain ⟨d, hd⟩ := d
    by_cases hfinite : d.IsFinite
    · cases d with
      | finite negative c e =>
        show (PyDecimal.finite negative c e).finite? = _
        rw [readDecimal_sciText P hd]
        rfl
      | infinite | nan => exact absurd hfinite id
    · show finite? d = _
      rw [readDecimal_special P hfinite]
      cases d with
      | finite => exact absurd trivial hfinite
      | infinite => rfl
      | nan => rfl

/-! ## The text of a finite decimal -/

/-- The exponent of the quantum. -/
def quantumExponent (precision : Nat) : Int := -(min precision 1000026 : Nat)

theorem scaleOne_eq (precision : Nat) :
    (2000054 < precision ∧ scaleOne (-precision) = .error .arithmeticError) ∨
      (precision ≤ 2000054 ∧ ∃ quantum, scaleOne (-precision) = .ok quantum ∧
        quantum.exponentOf = quantumExponent precision) := by
  have hbound : 2 * (999999 + PyDecimal.precision) = 2000054 := by decide
  have hdigits : (natText 1).length = 1 := by decide
  unfold scaleOne
  rw [Int.natAbs_neg, Int.natAbs_natCast, hbound]
  by_cases h : precision ≤ 2000054
  · refine .inr ⟨h, ?_⟩
    rw [if_pos h, fix, if_neg one_ne_zero]
    dsimp only
    rw [hdigits, if_neg (by unfold emax; omega)]
    unfold PyDecimal.precision etiny
    by_cases hsmall : precision ≤ 1000026
    · rw [if_neg (by omega)]
      exact ⟨_, rfl, by simp only [exponentOf, quantumExponent]; omega⟩
    · -- the quantum is below the smallest decimal and is rounded to zero
      have hzero : roundHalfEven 1 (max ((1 : Nat) + -(precision : Int) - (28 : Nat)) (-1000026) -
          -(precision : Int)).toNat = 0 := roundHalfEven_one (by omega)
      rw [if_pos (by omega), hzero, if_neg (by decide)]
      exact ⟨_, rfl, by simp only [exponentOf, quantumExponent]; omega⟩
  · exact .inl ⟨by omega, if_neg h⟩

/-- The coefficient of the number at the exponent of the quantum. -/
def unitsAt (c : Nat) (e : Int) (precision : Nat) : Nat :=
  roundedAt c e (quantumExponent precision)

theorem mapError_ok_bind {ε ε' α β : Type} (f : ε → ε') (a : α) (k : α → Except ε' β) :
    ((.ok a : Except ε α).mapError f >>= k) = k a := rfl

variable {c precision : Nat}

theorem exactText_raises (h : ¬ (precision ≤ 2000054 ∧ unitsAt c e precision < 10 ^ 28)) :
    exactText negative c e precision = .error (.python .arithmeticError) := by
  unfold exactText
  rcases scaleOne_eq precision with ⟨-, hscale⟩ | ⟨hle, quantum, hscale, hexpo⟩
  · rw [hscale]
    rfl
  · have hunits : ¬ roundedAt c e (quantumExponent precision) < 10 ^ PyDecimal.precision :=
      fun hlt => h ⟨hle, hlt⟩
    rw [hscale, mapError_ok_bind, hexpo, quantize_eq, if_neg hunits]
    rfl

theorem exactText_eq (hle : precision ≤ 2000054) (hunits : unitsAt c e precision < 10 ^ 28) :
    exactText negative c e precision = (do
      check ((PyDecimal.finite negative (unitsAt c e precision) (quantumExponent precision)).rat =
        (PyDecimal.finite negative c e).rat) (.serialization (py "DECIMAL_PRECISION_MISMATCH"))
      return signText (negative && unitsAt c e precision != 0) ++
        fixedPoint (unitsAt c e precision * 10 ^ (precision - 1000026)) precision) := by
  unfold exactText
  rcases scaleOne_eq precision with ⟨hlt, -⟩ | ⟨-, quantum, hscale, hexpo⟩
  · omega
  · have hround : roundedAt c e (quantumExponent precision) < 10 ^ PyDecimal.precision := hunits
    rw [hscale, mapError_ok_bind, hexpo, quantize_eq, if_pos hround, mapError_ok_bind]
    have hplaces : (quantumExponent precision + precision).toNat = precision - 1000026 := by
      unfold quantumExponent
      omega
    have htext : formatPlaces precision
        (if (PyDecimal.finite negative (unitsAt c e precision) (quantumExponent precision)).isZero
          then (PyDecimal.finite negative (unitsAt c e precision)
            (quantumExponent precision)).absolute
          else .finite negative (unitsAt c e precision) (quantumExponent precision)) =
        signText (negative && unitsAt c e precision != 0) ++
          fixedPoint (unitsAt c e precision * 10 ^ (precision - 1000026)) precision := by
      by_cases hzero : unitsAt c e precision = 0
      · rw [hzero]
        simp [isZero, absolute, formatPlaces, signText]
      · have hfalse : isZero (.finite negative (unitsAt c e precision)
            (quantumExponent precision)) = false := by simpa [isZero] using hzero
        rw [hfalse, if_neg Bool.false_ne_true, formatPlaces, hplaces, bne_iff_ne.mpr hzero,
          Bool.and_true]
    rw [← htext]
    rfl

/-- The number of a sign and so many units of the last place. -/
def placed (negative : Bool) (n places : Nat) : Rat :=
  (if negative then -1 else 1) * n / 10 ^ places

/-- What is returned is the number, written with its sign unless it is zero. -/
theorem exactText_ok {text : PyStr} (h : exactText negative c e precision = .ok text) :
    ∃ (sign : Bool) (n : Nat), text = signText sign ++ fixedPoint n precision ∧
      (PyDecimal.finite negative c e).rat = placed sign n precision ∧ (sign = true → n ≠ 0) := by
  by_cases hfits : precision ≤ 2000054 ∧ unitsAt c e precision < 10 ^ 28
  · rw [exactText_eq hfits.1 hfits.2] at h
    obtain ⟨⟨⟩, hcheck, htext⟩ := bind_ok.mp h
    have hsame := check_ok.mp hcheck
    refine ⟨_, _, (Except.ok.inj htext).symm, ?_, ?_⟩
    · have hpow : (10 : Rat) ^ quantumExponent precision =
          10 ^ (precision - 1000026) / 10 ^ precision := by
        rw [div_eq_mul_inv, ← zpow_natCast, ← zpow_natCast, ← zpow_neg, ← zpow_add₀ (by norm_num)]
        congr 1
        unfold quantumExponent
        omega
      rw [← hsame, rat, hpow, placed]
      push_cast
      by_cases hzero : unitsAt c e precision = 0
      · simp [hzero]
      · simp only [bne_iff_ne.mpr hzero, Bool.and_true]
        ring
    · intro hsign
      have hne : unitsAt c e precision ≠ 0 := by
        obtain ⟨-, hne⟩ := Bool.and_eq_true_iff.mp hsign
        simpa using hne
      exact Nat.mul_ne_zero hne (Nat.pow_pos (by decide)).ne'
  · rw [exactText_raises hfits] at h
    cases h

theorem abs_rat_finite (negative : Bool) (c : Nat) (e : Int) :
    |(PyDecimal.finite negative c e).rat| = magnitude c e := by
  have hpos : (0 : Rat) < 10 ^ e := zpow_pos (by norm_num) e
  rw [rat, abs_mul, abs_mul, abs_of_pos hpos, Nat.abs_cast, magnitude]
  cases negative <;> simp

theorem unitsAt_lt_iff (negative : Bool) (c precision : Nat) (e : Int) :
    unitsAt c e precision < 10 ^ 28 ↔
      |(PyDecimal.finite negative c e).rat| * 10 ^ min precision 1000026 + 1 / 2 < 10 ^ 28 := by
  rw [unitsAt, roundedAt_lt_iff (by decide), abs_rat_finite, quantumExponent, neg_neg, zpow_natCast,
    Nat.cast_pow]
  rfl

/-! ## Texts and numbers -/

theorem denotes_placed {sign : Bool} {n places : Nat} (hsign : sign = true → n ≠ 0) :
    Denotes (signText sign ++ fixedPoint n places) places (placed sign n places) := by
  obtain ⟨whole, fraction, front, htext, hfront, hnone, hlen, hne, hwhole, hfrac, hval⟩ :=
    exists_digits_fixedPoint n places
  refine ⟨sign, whole, fraction, ?_, hne, ?_, hlen, ?_, ?_⟩
  · rw [htext, append_assoc]
    congr 2
    cases hfront with
    | none => rw [if_pos (hnone.mp rfl)]
    | point => rw [if_neg (mt hnone.mpr (cons_ne_nil _ _))]
  · intro c hc
    exact (mem_append.mp hc).elim (hwhole c) (hfrac c)
  · rw [hval, placed]
  · intro hs
    have hcast : (n : Rat) ≠ 0 := Nat.cast_ne_zero.mpr (hsign hs)
    rw [placed, hs]
    simp [hcast]

/-- **Two texts are equal iff their numbers are.** -/
theorem text_eq_iff {s t : Bool} {m n places : Nat} (hs : s = true → m ≠ 0)
    (ht : t = true → n ≠ 0) :
    signText s ++ fixedPoint m places = signText t ++ fixedPoint n places ↔
      placed s m places = placed t n places := by
  have hpow : (0 : Rat) < 10 ^ places := by positivity
  have hhead (k : Nat) (rest : PyStr) : fixedPoint k places ≠ minusChar :: rest := by
    obtain ⟨whole, fraction, front, htext, -, -, -, hne, hwhole, -, -⟩ :=
      exists_digits_fixedPoint k places
    intro heq
    rw [htext] at heq
    cases whole with
    | nil => exact hne rfl
    | cons d ds =>
      have hd : d = minusChar := (List.cons.inj heq).1
      exact isDigit_ne (hwhole d (by simp)) (.inl (by decide)) hd
  have hreading : fixedPoint m places = fixedPoint n places → m = n := by
    intro heq
    have hread := congrArg SharedSystems.reading heq
    rw [SharedSystems.reading_fixedPoint, SharedSystems.reading_fixedPoint,
      div_left_inj' hpow.ne'] at hread
    exact_mod_cast hread
  have hm : (0 : Rat) ≤ m := Nat.cast_nonneg m
  have hn : (0 : Rat) ≤ n := Nat.cast_nonneg n
  rw [placed, placed, div_left_inj' hpow.ne', signText_eq, signText_eq]
  cases s with
  | true =>
    have hmne : (m : Rat) ≠ 0 := Nat.cast_ne_zero.mpr (hs rfl)
    cases t with
    | true =>
      simp only [if_true, append_cancel_left_eq]
      exact ⟨fun h => by rw [hreading h], fun h => by
        rw [show m = n by exact_mod_cast (show (m : Rat) = n by linarith)]⟩
    | false =>
      simp only [if_true, Bool.false_eq_true, if_false, nil_append, singleton_append]
      refine iff_of_false (fun h => hhead n _ h.symm) fun h => hmne ?_
      linarith
  | false =>
    cases t with
    | true =>
      have hnne : (n : Rat) ≠ 0 := Nat.cast_ne_zero.mpr (ht rfl)
      simp only [if_true, Bool.false_eq_true, if_false, nil_append, singleton_append]
      refine iff_of_false (fun h => hhead m _ h) fun h => hnne ?_
      linarith
    | false =>
      simp only [Bool.false_eq_true, if_false, nil_append]
      exact ⟨fun h => by rw [hreading h], fun h => by
        rw [show m = n by exact_mod_cast (show (m : Rat) = n by linarith)]⟩

/-! ## Exactness -/

variable {P}

variable {allowExponent : Bool} {v : DecimalInput}

/-- What is returned for an input is its number. -/
theorem canonicalDecimal_ok {precision : Nat} {text : PyStr}
    (h : canonicalDecimal P v.toVal precision allowExponent = .ok text) :
    ∃ (sign : Bool) (n : Nat), text = signText sign ++ fixedPoint n precision ∧
      v.number? P = some (placed sign n precision) ∧ (sign = true → n ≠ 0) := by
  unfold canonicalDecimal at h
  obtain ⟨⟨⟩, -, h⟩ := bind_ok.mp h
  obtain ⟨⟨⟩, -, h⟩ := bind_ok.mp h
  obtain ⟨s, hs, h⟩ := bind_ok.mp h
  obtain ⟨⟨⟩, -, h⟩ := bind_ok.mp h
  have hs : decimalText P v.toVal = .ok s := mapError_ok.mp hs
  have hbound : ∀ z, v = .int z → z.natAbs < 10 ^ maxStrDigits := by
    rintro z rfl
    by_contra hlarge
    rw [DecimalInput.toVal, decimalText, if_neg hlarge] at hs
    cases hs
  obtain ⟨s', hs', -, hnumber⟩ := exists_text P v hbound
  obtain rfl : s' = s := Except.ok.inj (hs'.symm.trans hs)
  cases hread : readDecimal P s' with
  | none =>
    rw [hread] at h
    cases h
  | some d =>
    rw [hread] at h hnumber
    cases d with
    | infinite => cases h
    | nan => cases h
    | finite negative c e =>
      obtain ⟨sign, n, htext, hrat, hsign⟩ := exactText_ok h
      exact ⟨sign, n, htext, hnumber.trans (congrArg some hrat), hsign⟩

theorem fitsContext_of_none {precision : Nat} (h : v.number? P = none) :
    FitsContext P v precision allowExponent := by
  intro x hx
  rw [h] at hx
  cases hx

theorem fitsContext_iff {precision : Nat} {x : Rat} (hx : v.number? P = some x)
    (hallowed : allowExponent = true ∨ v.exponentForm = false) :
    FitsContext P v precision allowExponent ↔
      precision ≤ 2000054 ∧ |x| * 10 ^ min precision 1000026 + 1 / 2 < 10 ^ 28 := by
  constructor
  · exact fun h => h x hx hallowed
  · intro h y hy _
    cases hx.symm.trans hy
    exact h

/-- A finite decimal raises an exception of the context iff it does not fit. -/
theorem exactText_raises_iff : RaisesOnly IsSerialization (exactText negative c e precision) ↔
      precision ≤ 2000054 ∧ unitsAt c e precision < 10 ^ 28 := by
  by_cases hfits : precision ≤ 2000054 ∧ unitsAt c e precision < 10 ^ 28
  · rw [exactText_eq hfits.1 hfits.2]
    refine iff_of_true ?_ hfits
    refine (raisesOnly_check fun _ => trivial).bind fun _ _ => ?_
    exact raisesOnly_ok
  · rw [exactText_raises hfits]
    exact iff_of_false (fun h => raisesOnly_error.mp h) hfits

/-- **An exception other than its own escapes iff the number does not fit the context.** -/
theorem raises_iff {precision : Nat} :
    RaisesOnly IsSerialization (canonicalDecimal P v.toVal precision allowExponent) ↔
      FitsContext P v precision allowExponent := by
  have hfloat : isRuntimeFloat v.toVal = false := by cases v <;> rfl
  have hfst : canonicalDecimal P v.toVal precision allowExponent = (do
      let text ← (decimalText P v.toVal).mapError .python
      check (allowExponent = true ∨ hasExponent text = false)
        (.serialization (py "DECIMAL_EXPONENT_FORM_DENIED"))
      match readDecimal P text with
      | none => .error (.serialization (py "DECIMAL_INVALID"))
      | some (.finite negative c e) => exactText negative c e precision
      | some _ => .error (.serialization (py "DECIMAL_NONFINITE_DENIED"))) := by
    rw [canonicalDecimal, check, if_pos hfloat, check, if_pos (Int.natCast_nonneg precision)]
    rfl
  rw [hfst]
  by_cases hbound : ∀ z, v = .int z → z.natAbs < 10 ^ maxStrDigits
  · obtain ⟨text, htext, hform, hnumber⟩ := exists_text P v hbound
    rw [htext, mapError_ok_bind, hform]
    by_cases hallowed : allowExponent = true ∨ v.exponentForm = false
    · rw [check, if_pos hallowed]
      cases hread : readDecimal P text with
      | none => exact iff_of_true (raisesOnly_error.mpr trivial) (fitsContext_of_none (by
          rw [hnumber, hread]; rfl))
      | some d =>
        cases d with
        | infinite => exact iff_of_true (raisesOnly_error.mpr trivial) (fitsContext_of_none (by
            rw [hnumber, hread]; rfl))
        | nan => exact iff_of_true (raisesOnly_error.mpr trivial) (fitsContext_of_none (by
            rw [hnumber, hread]; rfl))
        | finite negative c e =>
          have hval : v.number? P = some (PyDecimal.finite negative c e).rat := by
            rw [hnumber, hread]
            rfl
          rw [fitsContext_iff hval hallowed, ← unitsAt_lt_iff]
          exact exactText_raises_iff
    · rw [check, if_neg hallowed]
      exact iff_of_true (raisesOnly_error.mpr trivial) fun x _ h => absurd h hallowed
  · -- an integer whose text is too long has too many digits for the context as well
    obtain ⟨z, rfl, hlarge⟩ : ∃ z, v = .int z ∧ ¬ z.natAbs < 10 ^ maxStrDigits := by
      by_contra hnone
      exact hbound fun z hz => not_not.mp fun hlarge => hnone ⟨z, hz, hlarge⟩
    rw [DecimalInput.toVal, decimalText, if_neg hlarge]
    refine iff_of_false (fun h => raisesOnly_error.mp h) fun h => ?_
    obtain ⟨-, hfits⟩ := h z rfl (.inr rfl)
    have hlow : (10 : Rat) ^ 28 ≤ |(z : Rat)| := by
      have hpow : 10 ^ 28 ≤ z.natAbs :=
        (Nat.pow_le_pow_right (by decide) (by decide)).trans (not_lt.mp hlarge)
      rw [← Int.cast_abs, Int.abs_eq_natAbs, Int.cast_natCast]
      exact_mod_cast hpow
    have hone : (1 : Rat) ≤ 10 ^ min precision 1000026 := one_le_pow₀ (by norm_num)
    have hprod : (10 : Rat) ^ 28 * 1 ≤ |(z : Rat)| * 10 ^ min precision 1000026 :=
      mul_le_mul hlow hone (by norm_num) (abs_nonneg _)
    linarith

/-- **`canonical_decimal` is exact on an input iff its number fits the decimal context.** -/
theorem canonicallyExact_iff (v : DecimalInput) (precision : Nat) (allowExponent : Bool) :
    CanonicallyExact P v precision allowExponent ↔ FitsContext P v precision allowExponent := by
  constructor
  · exact fun h => raises_iff.mp h.raises
  · intro h
    refine ⟨raises_iff.mpr h, ?_, ?_⟩
    · intro text htext
      obtain ⟨sign, n, rfl, hnumber, hsign⟩ := canonicalDecimal_ok htext
      exact ⟨_, hnumber, denotes_placed hsign⟩
    · intro text htext w b other hother
      obtain ⟨s, m, rfl, hm, hs⟩ := canonicalDecimal_ok htext
      obtain ⟨t, n, rfl, hn, ht⟩ := canonicalDecimal_ok hother
      rw [text_eq_iff ht hs, hm, hn, Option.some_inj]

/-- A whole number of 29 digits, at the precision without places. -/
def twentyNineDigits : DecimalInput := .text (py "10000000000000000000000000000")

/-- The context has 28 digits, and `quantize` raises `InvalidOperation`. -/
theorem twentyNineDigits_escapes :
    canonicalDecimal .reference twentyNineDigits.toVal 0 false =
        .error (.python .arithmeticError) ∧
      ¬ CanonicallyExact .reference twentyNineDigits 0 false := by
  have hrun : canonicalDecimal .reference twentyNineDigits.toVal 0 false =
      .error (.python .arithmeticError) := by decide +kernel
  exact ⟨hrun, fun h => h.raises _ hrun⟩

example : canonicalDecimal Platform.reference (.str (py " -0.00 ")) 3 false = .ok (py "0.000") := by
  decide +kernel

end OvcReplay.C2e
