import OvcReplay.Json.Parse

/-! # Fixed-point texts

The text of a finite decimal without an exponent and without zeros at its end. It determines the
number, and equal numbers have one text. -/

namespace OvcReplay.SharedSystems

open List Python Json

/-- A finite decimal: `± coefficient · 10 ^ exponent`. -/
structure FiniteDecimal where
  negative : Bool
  coefficient : Nat
  exponent : Int
  deriving DecidableEq

namespace FiniteDecimal

variable (d : FiniteDecimal)

/-- The decimal. -/
def toDecimal : PyDecimal := .finite d.negative d.coefficient d.exponent

/-- The size of the number. -/
def size : Rat := d.coefficient * (10 : Rat) ^ d.exponent

/-- The number. -/
def value : Rat := if d.negative then -d.size else d.size

/-- `format(d, "f")`. -/
def format : PyStr := d.toDecimal.formatF

end FiniteDecimal

theorem point_lt : 0x2E < 0x110000 := by decide

/-- The point. -/
def point : CodePoint := ⟨0x2E, point_lt⟩

/-- The digit zero. -/
def zeroDigit : CodePoint := ⟨0x30, by decide⟩

theorem lawfulBEq_codePoint : LawfulBEq CodePoint := inferInstance

local instance : LawfulBEq CodePoint := lawfulBEq_codePoint

variable (text : PyStr)

/-- `text.rstrip("0").rstrip(".")` of a text with a point. -/
def plain : PyStr :=
  if point ∈ text then
    (text.rdropWhile fun c => c = zeroDigit).rdropWhile fun c => c = point
  else text

/-! ## Reading a text -/

/-- What stands behind the point. -/
def fraction : PyStr := (text.dropWhile fun c => c ≠ point).tail

/-- The number of a text, without its sign. -/
def reading : Rat :=
  (digitsValue (text.filter fun c => IsDigit c) : Rat) / 10 ^ (fraction text).length

theorem fraction_of_not_mem {text : PyStr} (h : point ∉ text) : fraction text = [] := by
  rw [fraction, dropWhile_eq_nil_iff.mpr]
  · rfl
  · intro c hc
    have hne : c ≠ point := by
      rintro rfl
      exact h hc
    simpa using hne

theorem fraction_append {text : PyStr} (h : point ∈ text) (rest : PyStr) :
    fraction (text ++ rest) = fraction text ++ rest := by
  induction text with
  | nil => cases h
  | cons c text ih =>
    by_cases hc : c = point
    · simp [fraction, hc]
    · have hmem : point ∈ text := (mem_cons.mp h).resolve_left (Ne.symm hc)
      simpa [fraction, hc] using ih hmem

theorem digitsValue_append_zero (digits : PyStr) :
    digitsValue (digits ++ [zeroDigit]) = 10 * digitsValue digits := by
  simp [digitsValue, zeroDigit]

theorem isDigit_zeroDigit : IsDigit zeroDigit = true := by decide

theorem isDigit_point : IsDigit point = false := by decide

theorem zeroDigit_ne_point : zeroDigit ≠ point := by decide

/-- A zero behind the point does not count. -/
theorem reading_append_zero {text : PyStr} (h : point ∈ text) :
    reading (text ++ [zeroDigit]) = reading text := by
  rw [reading, reading, fraction_append h, filter_append, filter_cons_of_pos
    (by simpa using isDigit_zeroDigit), filter_nil, digitsValue_append_zero,
    length_append, length_singleton, pow_succ]
  push_cast
  rw [mul_comm (10 : Rat), mul_div_mul_right _ _ (by norm_num)]

/-- A final point does not count. -/
theorem reading_append_point {text : PyStr} (h : point ∉ text) :
    reading (text ++ [point]) = reading text := by
  have hfrac : fraction (text ++ [point]) = [] := by
    induction text with
    | nil => simp [fraction]
    | cons c text ih =>
      obtain ⟨hc, hmem⟩ := not_or.mp (mt mem_cons.mpr h)
      simpa [fraction, Ne.symm hc] using ih hmem
  rw [reading, reading, hfrac, fraction_of_not_mem h, filter_append,
    filter_cons_of_neg (by simp [isDigit_point]), filter_nil, append_nil]

theorem reading_rdropWhile_zero {text : PyStr} (h : point ∈ text) :
    reading (text.rdropWhile fun c => c = zeroDigit) = reading text := by
  induction text using reverseRecOn with
  | nil => cases h
  | append_singleton text c ih =>
    by_cases hc : c = zeroDigit
    · subst hc
      have hmem : point ∈ text := by
        rcases mem_append.mp h with hmem | hmem
        · exact hmem
        · exact absurd (mem_singleton.mp hmem).symm zeroDigit_ne_point
      rw [rdropWhile_concat_pos _ _ _ (by simp), ih hmem, reading_append_zero hmem]
    · rw [rdropWhile_concat_neg _ _ _ (by simpa using hc)]

/-- Without a point there is none to drop. -/
theorem rdropWhile_point_of_not_mem {text : PyStr} (h : point ∉ text) :
    (text.rdropWhile fun c => c = point) = text := by
  rw [rdropWhile_eq_self_iff]
  intro hne
  have hlast : text.getLast hne ≠ point := by
    intro heq
    exact h (heq ▸ getLast_mem hne)
  simpa using hlast

/-- One point at most. -/
def OnePoint : Prop := ∀ front, front ++ [point] <+: text → point ∉ front

theorem reading_rdropWhile_point {text : PyStr} (h : OnePoint text) :
    reading (text.rdropWhile fun c => c = point) = reading text := by
  induction text using reverseRecOn with
  | nil => rfl
  | append_singleton text c _ =>
    by_cases hc : c = point
    · subst hc
      have hfront : point ∉ text := h text (prefix_refl _)
      have hsame : text.rdropWhile (fun c => decide (c = point)) = text := by
        exact rdropWhile_point_of_not_mem hfront
      rw [rdropWhile_concat_pos _ _ _ (by simp), hsame, reading_append_point hfront]
    · rw [rdropWhile_concat_neg _ _ _ (by simpa using hc)]

/-- **Zeros at the end do not count.** -/
theorem reading_plain {text : PyStr} (h : OnePoint text) : reading (plain text) = reading text := by
  rw [plain]
  by_cases hmem : point ∈ text
  · rw [if_pos hmem, reading_rdropWhile_point, reading_rdropWhile_zero hmem]
    intro front hfront
    exact h front <| hfront.trans <| rdropWhile_prefix _ _
  · rw [if_neg hmem]

/-! ## The digits of a decimal -/

theorem py_point : py "." = [point] := by decide +kernel

theorem not_mem_point {digits : PyStr} (h : ∀ c ∈ digits, IsDigit c = true) : point ∉ digits := by
  intro hmem
  have hdigit := h point hmem
  rw [isDigit_point] at hdigit
  cases hdigit

theorem filter_digits {digits : PyStr} (h : ∀ c ∈ digits, IsDigit c = true) :
    (digits.filter fun c => IsDigit c) = digits :=
  filter_eq_self.mpr h

theorem reading_digits {digits : PyStr} (h : ∀ c ∈ digits, IsDigit c = true) :
    reading digits = digitsValue digits := by
  rw [reading, fraction_of_not_mem (not_mem_point h), filter_digits h, length_nil, pow_zero,
    div_one]

theorem fraction_point {front : PyStr} (h : point ∉ front) (back : PyStr) :
    fraction (front ++ [point] ++ back) = back := by
  induction front with
  | nil => simp [fraction]
  | cons c front ih =>
    obtain ⟨hc, hmem⟩ := not_or.mp (mt mem_cons.mpr h)
    simpa [fraction, Ne.symm hc] using ih hmem

theorem reading_point {front back : PyStr} (hfront : ∀ c ∈ front, IsDigit c = true)
    (hback : ∀ c ∈ back, IsDigit c = true) :
    reading (front ++ [point] ++ back) = digitsValue (front ++ back) / 10 ^ back.length := by
  rw [reading, fraction_point (not_mem_point hfront), filter_append, filter_append,
    filter_digits hfront, filter_digits hback, filter_cons_of_neg (by simp [isDigit_point]),
    filter_nil, append_nil]

theorem onePoint_of_not_mem {text : PyStr} (h : point ∉ text) : OnePoint text := by
  intro front hfront
  exact absurd (hfront.subset (by simp)) h

theorem onePoint_point {front back : PyStr} (hfront : point ∉ front) (hback : point ∉ back) :
    OnePoint (front ++ [point] ++ back) := by
  intro start hstart hmem
  have hcount := (hstart.sublist).count_le point
  simp only [count_append, count_eq_zero_of_not_mem hfront,
    count_eq_zero_of_not_mem hback, count_singleton_self] at hcount
  have hpos := count_pos_iff.mpr hmem
  omega

/-- The digits with zeros in front, so many that one stands before the point. -/
def paddedDigits (coefficient places : Nat) : PyStr :=
  List.replicate (places + 1 - (natText coefficient).length) zeroDigit ++ natText coefficient

theorem isDigit_paddedDigits (c k : Nat) : ∀ x ∈ paddedDigits c k, IsDigit x = true := by
  intro x hx
  rcases mem_append.mp hx with hzero | hdigit
  · rw [eq_of_mem_replicate hzero, isDigit_zeroDigit]
  · exact isDigit_natText c x hdigit

theorem lt_length_paddedDigits (c k : Nat) : k < (paddedDigits c k).length := by
  rw [paddedDigits, length_append, length_replicate]
  omega

theorem digitsValue_zeros (n : Nat) (digits : PyStr) :
    digitsValue (List.replicate n zeroDigit ++ digits) = digitsValue digits := by
  induction n with
  | zero => rfl
  | succ n ih =>
    rw [replicate_succ, cons_append, ← ih]
    rfl

theorem hexDigit_zero : hexDigit 0 = zeroDigit := by decide

theorem fixedPoint_zero (c : Nat) : PyDecimal.fixedPoint c 0 = natText c := by
  rw [PyDecimal.fixedPoint]
  exact if_pos rfl

theorem fixedPoint_succ (c : Nat) {k : Nat} (hk : k ≠ 0) : PyDecimal.fixedPoint c k =
      (paddedDigits c k).take ((paddedDigits c k).length - k) ++ [point] ++
        (paddedDigits c k).drop ((paddedDigits c k).length - k) := by
  rw [PyDecimal.fixedPoint, py_point, hexDigit_zero]
  exact if_neg hk

theorem isDigit_take (c k n : Nat) : ∀ x ∈ (paddedDigits c k).take n, IsDigit x = true :=
  fun x hx => isDigit_paddedDigits c k x (mem_of_mem_take hx)

theorem isDigit_drop (c k n : Nat) : ∀ x ∈ (paddedDigits c k).drop n, IsDigit x = true :=
  fun x hx => isDigit_paddedDigits c k x (mem_of_mem_drop hx)

/-- **The number of a fixed-point text.** -/
theorem reading_fixedPoint (c k : Nat) : reading (PyDecimal.fixedPoint c k) = c / 10 ^ k := by
  by_cases hk : k = 0
  · subst hk
    rw [fixedPoint_zero, reading_digits (isDigit_natText c), digitsValue_natText, pow_zero, div_one]
  · rw [fixedPoint_succ c hk, reading_point (isDigit_take c k _) (isDigit_drop c k _),
      take_append_drop, paddedDigits, digitsValue_zeros, digitsValue_natText]
    congr 2
    have hlen := lt_length_paddedDigits c k
    rw [paddedDigits] at hlen
    rw [length_drop]
    omega

theorem onePoint_fixedPoint (c k : Nat) : OnePoint (PyDecimal.fixedPoint c k) := by
  by_cases hk : k = 0
  · subst hk
    rw [fixedPoint_zero]
    exact onePoint_of_not_mem (not_mem_point (isDigit_natText c))
  · rw [fixedPoint_succ c hk]
    exact onePoint_point (not_mem_point (isDigit_take c k _)) (not_mem_point (isDigit_drop c k _))

/-! ## Equal numbers -/

theorem natText_mul_ten {c : Nat} (hc : c ≠ 0) : natText (10 * c) = natText c ++ [zeroDigit] := by
  have hdigits : Nat.toDigits 10 (10 * c) = Nat.toDigits 10 c ++ ['0'] := by
    have happ := Nat.toDigits_append_toDigits (b := 10) (n := c) (d := 0) (by decide)
      (Nat.pos_of_ne_zero hc) (by decide)
    rw [Nat.toDigits_zero] at happ
    exact happ.symm
  rw [natText, hdigits, map_append]
  rfl

theorem paddedDigits_mul_ten {c : Nat} (hc : c ≠ 0) (k : Nat) :
    paddedDigits (10 * c) (k + 1) = paddedDigits c k ++ [zeroDigit] := by
  rw [paddedDigits, paddedDigits, natText_mul_ten hc, length_append, length_singleton,
    Nat.add_sub_add_right, append_assoc]

/-- A zero more behind the point. -/
theorem fixedPoint_mul_ten {c : Nat} (hc : c ≠ 0) {k : Nat} (hk : k ≠ 0) :
    PyDecimal.fixedPoint (10 * c) (k + 1) = PyDecimal.fixedPoint c k ++ [zeroDigit] := by
  have hlen := lt_length_paddedDigits c k
  rw [fixedPoint_succ _ (Nat.succ_ne_zero k), fixedPoint_succ c hk, paddedDigits_mul_ten hc,
    length_append, length_singleton, Nat.add_sub_add_right,
    take_append_of_le_length (Nat.sub_le _ _), drop_append_of_le_length (Nat.sub_le _ _)]
  simp

theorem fixedPoint_mul_ten_zero {c : Nat} (hc : c ≠ 0) :
    PyDecimal.fixedPoint (10 * c) 1 = natText c ++ [point] ++ [zeroDigit] := by
  have hpadded : paddedDigits c 0 = natText c := by
    have hpos := length_pos_iff.mpr (natText_ne_nil c)
    rw [paddedDigits, Nat.sub_eq_zero_of_le (by omega), replicate_zero, nil_append]
  have hone : paddedDigits (10 * c) 1 = natText c ++ [zeroDigit] := by
    rw [← hpadded]
    exact paddedDigits_mul_ten hc 0
  rw [fixedPoint_succ _ one_ne_zero, hone, length_append, length_singleton,
    Nat.add_sub_cancel, take_left, drop_left]

theorem plain_append_zero {text : PyStr} (h : point ∈ text) :
    plain (text ++ [zeroDigit]) = plain text := by
  rw [plain, plain, if_pos (mem_append_left _ h), if_pos h,
    rdropWhile_concat_pos _ _ _ (by simp)]

theorem plain_point {digits : PyStr} (h : ∀ c ∈ digits, IsDigit c = true) :
    plain (digits ++ [point] ++ [zeroDigit]) = digits := by
  have hpoint := not_mem_point h
  rw [plain_append_zero (by simp), plain, if_pos (by simp),
    rdropWhile_concat_neg _ _ _ (by decide), rdropWhile_concat_pos _ _ _ (by simp),
    rdropWhile_point_of_not_mem hpoint]

theorem plain_digits {digits : PyStr} (h : ∀ c ∈ digits, IsDigit c = true) :
    plain digits = digits := by
  rw [plain, if_neg (not_mem_point h)]

theorem plain_fixedPoint_mul_ten {c : Nat} (hc : c ≠ 0) (k : Nat) :
    plain (PyDecimal.fixedPoint (10 * c) (k + 1)) = plain (PyDecimal.fixedPoint c k) := by
  by_cases hk : k = 0
  · subst hk
    rw [fixedPoint_mul_ten_zero hc, plain_point (isDigit_natText c), fixedPoint_zero,
      plain_digits (isDigit_natText c)]
  · rw [fixedPoint_mul_ten hc hk, plain_append_zero]
    rw [fixedPoint_succ c hk]
    simp

theorem plain_fixedPoint_pow {c : Nat} (hc : c ≠ 0) (k n : Nat) :
    plain (PyDecimal.fixedPoint (10 ^ n * c) (k + n)) = plain (PyDecimal.fixedPoint c k) := by
  induction n with
  | zero => rw [pow_zero, one_mul, Nat.add_zero]
  | succ n ih =>
    have hne : 10 ^ n * c ≠ 0 := Nat.mul_ne_zero (pow_ne_zero n (by decide)) hc
    rw [pow_succ', mul_assoc, ← Nat.add_assoc, plain_fixedPoint_mul_ten hne, ih]

/-- **Equal numbers have one text.** -/
theorem plain_fixedPoint_congr {c c' k k' : Nat} (hc : c ≠ 0) (hc' : c' ≠ 0)
    (h : (c : Rat) / 10 ^ k = c' / 10 ^ k') :
    plain (PyDecimal.fixedPoint c k) = plain (PyDecimal.fixedPoint c' k') := by
  wlog hle : k ≤ k' generalizing c c' k k' with hwlog
  · exact (hwlog hc' hc h.symm (by omega)).symm
  obtain ⟨n, rfl⟩ := Nat.exists_eq_add_of_le hle
  have hscaled : c' = 10 ^ n * c := by
    rw [div_eq_div_iff (by positivity) (by positivity), pow_add] at h
    have hcancel : (c' : Rat) * 10 ^ k = (10 ^ n * c) * 10 ^ k := by
      rw [← h]
      ring
    exact_mod_cast mul_right_cancel₀ (by positivity) hcancel
  rw [hscaled, plain_fixedPoint_pow hc]

/-! ## Signs -/

/-- The minus sign. -/
def minus : CodePoint := ⟨0x2D, by decide⟩

theorem py_minus : py "-" = [minus] := by decide +kernel

theorem rdropWhile_cons {p : CodePoint → Bool} {c : CodePoint} (hc : p c = false) (text : PyStr) :
    (c :: text).rdropWhile p = c :: text.rdropWhile p := by
  induction text using reverseRecOn with
  | nil => simp [rdropWhile_singleton, hc]
  | append_singleton text d ih =>
    rw [← cons_append]
    by_cases hd : p d = true
    · rw [rdropWhile_concat_pos _ _ _ hd, rdropWhile_concat_pos _ _ _ hd, ih]
    · rw [rdropWhile_concat_neg _ _ _ hd, rdropWhile_concat_neg _ _ _ hd,
        cons_append]

theorem plain_minus : plain (minus :: text) = minus :: plain text := by
  rw [plain, plain]
  by_cases h : point ∈ text
  · rw [if_pos (mem_cons_of_mem _ h), if_pos h, rdropWhile_cons (by decide),
      rdropWhile_cons (by decide)]
  · have hcons : point ∉ minus :: text := by
      rw [mem_cons, not_or]
      exact ⟨by decide, h⟩
    rw [if_neg hcons, if_neg h]

theorem mem_of_mem_plain {text : PyStr} {c : CodePoint} (hc : c ∈ plain text) : c ∈ text := by
  rw [plain] at hc
  by_cases h : point ∈ text
  · rw [if_pos h] at hc
    have hzero := rdropWhile_prefix (fun c => c = zeroDigit) text
    have hpoint := rdropWhile_prefix (fun c => c = point) (text.rdropWhile fun c => c = zeroDigit)
    exact (hpoint.trans hzero).subset hc
  · rwa [if_neg h] at hc

/-- The sign is not read. -/
theorem reading_minus : reading (minus :: text) = reading text := by
  have hfrac : fraction (minus :: text) = fraction text := by
    rw [fraction, fraction, dropWhile_cons_of_pos (by decide)]
  rw [reading, reading, hfrac, filter_cons_of_neg (by decide)]

namespace FiniteDecimal

variable (d : FiniteDecimal)

/-- The number of places behind the point. -/
def places : Nat := (-d.exponent).toNat

/-- The digits that are written, as one number. -/
def digits : Nat := d.coefficient * 10 ^ d.exponent.toNat

/-- The text without the sign. -/
def body : PyStr := PyDecimal.fixedPoint d.digits d.places

theorem format_eq :
    d.format = (if d.negative then [minus] else []) ++ d.body := by
  rw [format, toDecimal, PyDecimal.formatF, PyDecimal.signText, py_minus, body, digits, places]
  by_cases h : 0 ≤ d.exponent
  · rw [if_pos h, show (-d.exponent).toNat = 0 by omega, fixedPoint_zero]
  · rw [if_neg h, show d.exponent.toNat = 0 by omega, pow_zero, mul_one]

theorem size_eq : d.size = d.digits / 10 ^ d.places := by
  obtain ⟨negative, c, e⟩ := d
  rw [size, digits, places]
  cases e with
  | ofNat n => simp
  | negSucc n =>
    have hneg : (Int.negSucc n).toNat = 0 := rfl
    have hplaces : (-Int.negSucc n).toNat = n + 1 := rfl
    rw [hneg, hplaces, zpow_negSucc, pow_zero, mul_one, div_eq_mul_inv]

theorem reading_body : reading d.body = d.size := by
  rw [body, reading_fixedPoint, size_eq]

theorem digits_ne_zero {d : FiniteDecimal} (h : d.coefficient ≠ 0) : d.digits ≠ 0 :=
  Nat.mul_ne_zero h (pow_ne_zero _ (by decide))

theorem size_pos {d : FiniteDecimal} (h : d.coefficient ≠ 0) : 0 < d.size := by
  rw [size]
  have hpos : (0 : Rat) < d.coefficient := by
    exact_mod_cast Nat.pos_of_ne_zero h
  positivity

/-- The text without zeros at its end. -/
theorem plain_format :
    plain d.format = (if d.negative then [minus] else []) ++ plain d.body := by
  rw [format_eq]
  cases d.negative with
  | true => exact plain_minus _
  | false => rfl

theorem numeral_of_mem_body {d : FiniteDecimal} {c : CodePoint} (h : c ∈ d.body) :
    IsDigit c = true ∨ c = point := by
  rw [body] at h
  by_cases hk : d.places = 0
  · rw [hk, fixedPoint_zero] at h
    exact .inl (isDigit_natText _ c h)
  · rw [fixedPoint_succ _ hk, mem_append, mem_append, mem_singleton] at h
    rcases h with (hfront | rfl) | hback
    · exact .inl (isDigit_take _ _ _ c hfront)
    · exact .inr rfl
    · exact .inl (isDigit_drop _ _ _ c hback)

/-- **The number of a text** without zeros at its end. -/
theorem reading_plain_format : reading (plain d.format) = d.size := by
  have hbody : reading (plain d.body) = d.size := by
    rw [body, reading_plain (onePoint_fixedPoint _ _), ← body, reading_body]
  rw [plain_format]
  cases d.negative with
  | true => exact (reading_minus _).trans hbody
  | false => exact hbody

theorem minus_not_mem_body : minus ∉ plain d.body := by
  intro hmem
  rcases numeral_of_mem_body (mem_of_mem_plain hmem) with hdigit | hpoint
  · exact absurd hdigit (by decide)
  · exact absurd hpoint (by decide)

/-- **The text determines the number, and equal numbers have one text.** -/
theorem plain_format_eq_iff {a b : FiniteDecimal} (ha : a.coefficient ≠ 0)
    (hb : b.coefficient ≠ 0) : plain a.format = plain b.format ↔ a.value = b.value := by
  have hsizea := size_pos ha
  have hsizeb := size_pos hb
  have hbodies : plain a.body = plain b.body ↔ a.size = b.size := by
    constructor
    · intro heq
      have hreading := congrArg reading heq
      rwa [body, body, reading_plain (onePoint_fixedPoint _ _),
        reading_plain (onePoint_fixedPoint _ _), ← body, ← body, reading_body,
        reading_body] at hreading
    · intro heq
      rw [size_eq, size_eq] at heq
      exact plain_fixedPoint_congr (digits_ne_zero ha) (digits_ne_zero hb) heq
  rw [plain_format, plain_format, value, value]
  cases hna : a.negative with
  | true =>
    cases hnb : b.negative with
    | true => simp [hbodies]
    | false =>
      refine iff_of_false (fun heq => ?_) (fun heq => ?_)
      · refine minus_not_mem_body b ?_
        rw [if_pos rfl, if_neg (by decide), nil_append] at heq
        rw [← heq]
        exact mem_append_left _ mem_cons_self
      · simp at heq
        linarith
  | false =>
    cases hnb : b.negative with
    | true =>
      refine iff_of_false (fun heq => ?_) (fun heq => ?_)
      · refine minus_not_mem_body a ?_
        rw [if_pos rfl, if_neg (by decide), nil_append] at heq
        rw [heq]
        exact mem_append_left _ mem_cons_self
      · simp at heq
        linarith
    | false => simp [hbodies]

end FiniteDecimal

end OvcReplay.SharedSystems
