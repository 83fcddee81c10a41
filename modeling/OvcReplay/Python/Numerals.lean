import OvcReplay.Json.Parse
import OvcReplay.Python.Rounding

/-! # `Decimal(text)` and `str(decimal)`

The numerals that `decimal.Decimal` reads, for texts of ASCII, and the text that `str` gives to a
decimal: plain digits, or one digit in front of the point and an exponent. What `str` writes is read
as the same decimal. -/

namespace OvcReplay.Python.PyDecimal

open List Json

/-- The largest exponent of the leading digit of a decimal. -/
def maxEmax : Int := 999999999999999999

/-- The smallest exponent of the last digit of a decimal. -/
def minEtiny : Int := -1999999999999999997

/-- The code point of an ASCII character by its number. -/
def ascii (n : Nat) (h : n < 128) : CodePoint := ⟨n, by omega⟩

def pointChar : CodePoint := ascii 46 (by decide)
def minusChar : CodePoint := ascii 45 (by decide)
def plusChar : CodePoint := ascii 43 (by decide)
def exponentChar : CodePoint := ascii 69 (by decide)
def zeroChar : CodePoint := ascii 48 (by decide)
def underscoreChar : CodePoint := ascii 95 (by decide)

/-- The letter in front of an exponent. -/
def IsExponentChar (c : CodePoint) : Bool := c.val == 101 || c.val == 69

/-- The digits of an exponent, with its sign. -/
def readExponentDigits (negative : Bool) (ds : PyStr) : Option Int :=
  if ds ≠ [] ∧ ds.all IsDigit = true then
    some (if negative then -(digitsValue ds : Int) else digitsValue ds)
  else none

/-- What follows the digits: nothing, or a letter and an exponent. -/
def readExponent : PyStr → Option Int
  | [] => some 0
  | _ :: s =>
    if s.head? = some minusChar then readExponentDigits true s.tail
    else if s.head? = some plusChar then readExponentDigits false s.tail
    else readExponentDigits false s

/-- The decimal can be held exactly. -/
def WithinLimits (c : Nat) (e : Int) : Prop :=
  minEtiny ≤ e ∧ (if c = 0 then e else e + digits c - 1) ≤ maxEmax

instance (c : Nat) (e : Int) : Decidable (WithinLimits c e) := inferInstanceAs (Decidable (_ ∧ _))

/-- A decimal that can be held. -/
def Legal : PyDecimal → Prop
  | .finite _ c e => WithinLimits c e
  | _ => True

/-- A numeral without a sign. -/
def readNumeral (negative : Bool) (s : PyStr) : Option PyDecimal :=
  let mantissa := s.takeWhile fun c => !IsExponentChar c
  let whole := mantissa.takeWhile fun c => c != pointChar
  let places := (mantissa.drop whole.length).drop 1
  if whole ++ places ≠ [] ∧ (whole ++ places).all IsDigit = true then
    (readExponent (s.drop mantissa.length)).bind fun x =>
      if WithinLimits (digitsValue (whole ++ places)) (x - places.length) then
        some (.finite negative (digitsValue (whole ++ places)) (x - places.length))
      else none
  else none

/-- An infinity, or a NaN with its diagnostic digits. -/
def readSpecial (negative : Bool) (s : PyStr) : Option PyDecimal :=
  let lower := s.map CodePoint.lowerAscii
  if lower = py "inf" ∨ lower = py "infinity" then some (.infinite negative)
  else if py "nan" <+: lower ∧ (lower.drop 3).all IsDigit = true then
    some (.nan negative false (digitsValue (lower.drop 3)))
  else if py "snan" <+: lower ∧ (lower.drop 4).all IsDigit = true then
    some (.nan negative true (digitsValue (lower.drop 4)))
  else none

/-- A numeral or a special value, without a sign. -/
def readUnsigned (negative : Bool) (s : PyStr) : Option PyDecimal :=
  (readNumeral negative s).or (readSpecial negative s)

/-- `Decimal(s)` of a text of ASCII: white space around the numeral and underscores are ignored. -/
def ofText (s : PyStr) : Option PyDecimal :=
  let s := (strip s).filter fun c => c != underscoreChar
  if s.head? = some minusChar then readUnsigned true s.tail
  else if s.head? = some plusChar then readUnsigned false s.tail
  else readUnsigned false s

/-- The text of a coefficient with an exponent. -/
def scientific (c : Nat) (e : Int) : PyStr :=
  let ds := natText c
  let adjusted := e + ds.length - 1
  ds.take 1 ++ (if ds.length = 1 then [] else pointChar :: ds.drop 1) ++
    exponentChar :: (if adjusted < 0 then minusChar else plusChar) :: natText adjusted.natAbs

/-- The digits of a finite decimal, without its sign. -/
def unsignedText (c : Nat) (e : Int) : PyStr :=
  if e ≤ 0 ∧ -6 < e + (natText c).length then fixedPoint c (-e).toNat else scientific c e

/-- `str(d)`. -/
def sciText : PyDecimal → PyStr
  | .finite negative c e => signText negative ++ unsignedText c e
  | d => d.formatF

/-! ## Reading numerals -/

variable {c : CodePoint}

theorem isDigit_not_exponentChar (h : IsDigit c = true) : IsExponentChar c = false := by
  simp only [IsDigit, Bool.and_eq_true, decide_eq_true_eq] at h
  simp only [IsExponentChar, Bool.or_eq_false_iff, beq_eq_false_iff_ne]
  omega

theorem isDigit_ne {n : Nat} {hn : n < 128} (h : IsDigit c = true) (hout : n < 48 ∨ 57 < n) :
    c ≠ ascii n hn := by
  rintro rfl
  obtain ⟨hlow, hhigh⟩ := Bool.and_eq_true_iff.mp h
  have hlow : 48 ≤ n := of_decide_eq_true hlow
  have hhigh : n ≤ 57 := of_decide_eq_true hhigh
  omega

/-- The point and the digits behind it, or nothing. -/
inductive Fraction : PyStr → PyStr → Prop
  | none : Fraction [] []
  | point (places : PyStr) : Fraction (pointChar :: places) places

variable {negative : Bool}

/-- **A numeral is its digits, the point put back into the exponent.** -/
theorem readNumeral_eq {whole places front back : PyStr} {x : Int}
    (hwhole : ∀ c ∈ whole, IsDigit c = true) (hplaces : ∀ c ∈ places, IsDigit c = true)
    (hne : whole ≠ []) (hfront : Fraction front places)
    (hback : back = [] ∨ ∃ t, back = exponentChar :: t) (hx : readExponent back = some x) :
    readNumeral negative (whole ++ front ++ back) =
      if WithinLimits (digitsValue (whole ++ places)) (x - places.length) then
        some (.finite negative (digitsValue (whole ++ places)) (x - places.length)) else none := by
  have hmantissa : ∀ c ∈ whole ++ front, IsExponentChar c = false := by
    intro c hc
    rcases mem_append.mp hc with hc | hc
    · exact isDigit_not_exponentChar (hwhole c hc)
    · cases hfront with
      | none => exact absurd hc not_mem_nil
      | point =>
        rcases mem_cons.mp hc with rfl | hc
        · decide
        · exact isDigit_not_exponentChar (hplaces c hc)
  have htake : (whole ++ front ++ back).takeWhile (fun c => !IsExponentChar c) = whole ++ front := by
    rw [takeWhile_append_of_pos (by simpa using hmantissa)]
    have hnil : back.takeWhile (fun c => !IsExponentChar c) = [] := by
      rcases hback with rfl | ⟨t, rfl⟩
      · rfl
      · exact takeWhile_cons_of_neg (by decide)
    rw [hnil, append_nil]
  have hsplit : (whole ++ front).takeWhile (fun c => c != pointChar) = whole := by
    rw [takeWhile_append_of_pos]
    · cases hfront with
      | none => simp
      | point => rw [takeWhile_cons_of_neg (by decide), append_nil]
    · intro c hc
      exact bne_iff_ne.mpr (isDigit_ne (hwhole c hc) (.inl (by decide)))
  have hplaces' : ((whole ++ front).drop whole.length).drop 1 = places := by
    rw [drop_left]
    cases hfront <;> rfl
  have hdigits : whole ++ places ≠ [] ∧ (whole ++ places).all IsDigit = true := by
    refine ⟨by simp [hne], all_eq_true.mpr fun c hc => ?_⟩
    rcases mem_append.mp hc with hc | hc
    · exact hwhole c hc
    · exact hplaces c hc
  unfold readNumeral
  dsimp only
  rw [htake, hsplit, hplaces', if_pos hdigits, drop_left, hx]
  rfl

theorem readExponent_eq (adjusted : Int) :
    readExponent (exponentChar :: (if adjusted < 0 then minusChar else plusChar) ::
      natText adjusted.natAbs) = some adjusted := by
  have hdigits : natText adjusted.natAbs ≠ [] ∧ (natText adjusted.natAbs).all IsDigit = true :=
    ⟨natText_ne_nil _, all_eq_true.mpr (isDigit_natText _)⟩
  unfold readExponent
  by_cases h : adjusted < 0
  · rw [if_pos h]
    dsimp only
    rw [head?_cons, if_pos rfl, tail_cons, readExponentDigits, if_pos hdigits,
      digitsValue_natText, if_pos rfl]
    congr 1
    omega
  · have hne : (some plusChar : Option CodePoint) ≠ some minusChar := by decide
    rw [if_neg h]
    dsimp only
    rw [head?_cons, if_neg hne, if_pos rfl, tail_cons, readExponentDigits,
      if_pos hdigits, digitsValue_natText]
    simp only [Bool.false_eq_true, if_false]
    congr 1
    omega

theorem natText_take_ne_nil (c : Nat) : (natText c).take 1 ≠ [] := by
  cases h : natText c with
  | nil => exact absurd h (natText_ne_nil c)
  | cons d ds => simp

/-- The digits of a coefficient with an exponent are read as that decimal. -/
theorem readNumeral_scientific (negative : Bool) (c : Nat) (e : Int) :
    readNumeral negative (scientific c e) =
      if WithinLimits c e then some (.finite negative c e) else none := by
  have hpos : 0 < (natText c).length := length_pos_of_ne_nil (natText_ne_nil c)
  have hfront : Fraction (if (natText c).length = 1 then [] else pointChar :: (natText c).drop 1)
      ((natText c).drop 1) := by
    by_cases h : (natText c).length = 1
    · rw [if_pos h, drop_eq_nil_of_le h.le]
      exact .none
    · rw [if_neg h]
      exact .point _
  unfold scientific
  dsimp only
  rw [readNumeral_eq (fun d hd => isDigit_natText c d (mem_of_mem_take hd))
    (fun d hd => isDigit_natText c d (mem_of_mem_drop hd)) (natText_take_ne_nil c) hfront
    (.inr ⟨_, rfl⟩) (readExponent_eq _)]
  have hexpo : e + (natText c).length - 1 - ((natText c).drop 1).length = e := by
    rw [length_drop]
    omega
  rw [hexpo, take_append_drop, digitsValue_natText]

theorem digitsValue_replicate_zero (n : Nat) (ds : PyStr) :
    digitsValue (List.replicate n zeroChar ++ ds) = digitsValue ds := by
  induction n with
  | zero => rfl
  | succ n ih =>
    rw [replicate_succ, cons_append, ← ih]
    rfl

/-- A fixed-point text is its digits and its places. -/
theorem exists_digits_fixedPoint (c places : Nat) :
    ∃ whole fraction front : PyStr, fixedPoint c places = whole ++ front ∧
      Fraction front fraction ∧ (front = [] ↔ places = 0) ∧ fraction.length = places ∧
      whole ≠ [] ∧ (∀ d ∈ whole, IsDigit d = true) ∧ (∀ d ∈ fraction, IsDigit d = true) ∧
      digitsValue (whole ++ fraction) = c := by
  have hzero : hexDigit 0 = zeroChar := by decide
  have hpoint : py "." = [pointChar] := by decide +kernel
  unfold fixedPoint
  dsimp only
  by_cases hplaces : places = 0
  · subst hplaces
    rw [if_pos rfl]
    exact ⟨natText c, [], [], by simp, .none, by simp, rfl, natText_ne_nil c, isDigit_natText c,
      by simp, by simp [digitsValue_natText]⟩
  · rw [if_neg hplaces, hzero, hpoint]
    generalize hpadded : List.replicate (places + 1 - (natText c).length) zeroChar ++ natText c =
      padded
    have hlen : places < padded.length := by
      rw [← hpadded, length_append, length_replicate]
      omega
    have hdigit : ∀ d ∈ padded, IsDigit d = true := by
      rw [← hpadded]
      intro d hd
      rcases mem_append.mp hd with hd | hd
      · rw [eq_of_mem_replicate hd]
        decide
      · exact isDigit_natText c d hd
    refine ⟨padded.take (padded.length - places), padded.drop (padded.length - places),
      pointChar :: padded.drop (padded.length - places), by simp, .point _, by simp [hplaces], ?_,
      ?_, fun d hd => hdigit d (mem_of_mem_take hd),
      fun d hd => hdigit d (mem_of_mem_drop hd), ?_⟩
    · rw [length_drop]
      omega
    · apply ne_nil_of_length_pos
      rw [length_take]
      omega
    · rw [take_append_drop, ← hpadded, digitsValue_replicate_zero, digitsValue_natText]

/-- A fixed-point text is read as its coefficient and its places. -/
theorem readNumeral_fixedPoint (negative : Bool) (c places : Nat) :
    readNumeral negative (fixedPoint c places) =
      if WithinLimits c (-places) then some (.finite negative c (-places)) else none := by
  obtain ⟨whole, fraction, front, htext, hfront, -, hlen, hne, hwhole, hfrac, hval⟩ :=
    exists_digits_fixedPoint c places
  have hread : readNumeral negative (whole ++ front ++ []) = _ :=
    readNumeral_eq hwhole hfrac hne hfront (.inl rfl) rfl
  rw [append_nil, ← htext, hval, hlen, zero_sub] at hread
  exact hread

/-! ## What `str` writes is read back -/

/-- Only digits, signs, a point and an exponent letter. -/
def IsNumeralChar (c : CodePoint) : Prop :=
  IsDigit c = true ∨ c = pointChar ∨ c = minusChar ∨ c = plusChar ∨ c = exponentChar

theorem not_isSpace_of_isNumeralChar (h : IsNumeralChar c) :
    CodePoint.isSpace c = false ∧ c ≠ underscoreChar := by
  rcases h with h | rfl | rfl | rfl | rfl
  · refine ⟨?_, isDigit_ne h (.inr (by decide))⟩
    simp only [IsDigit, Bool.and_eq_true, decide_eq_true_eq] at h
    simp only [CodePoint.isSpace, Bool.or_eq_false_iff, Bool.and_eq_false_iff, beq_eq_false_iff_ne]
    refine ⟨⟨⟨⟨⟨⟨⟨⟨⟨⟨?_, ?_⟩, ?_⟩, ?_⟩, ?_⟩, ?_⟩, ?_⟩, ?_⟩, ?_⟩, ?_⟩, ?_⟩
    all_goals first
      | omega
      | exact .inr (by rw [Bool.eq_false_iff, Ne, Nat.ble_eq]; omega)
      | exact .inl (by rw [Bool.eq_false_iff, Ne, Nat.ble_eq]; omega)
  all_goals decide

variable {s : PyStr}

/-- A text without white space and underscores is read as it is. -/
theorem strip_filter_eq_self (h : ∀ c ∈ s, CodePoint.isSpace c = false ∧ c ≠ underscoreChar) :
    (strip s).filter (fun c => c != underscoreChar) = s := by
  have hleft : s.dropWhile CodePoint.isSpace = s := by
    rw [dropWhile_eq_self_iff]
    intro hpos
    simp [(h _ (getElem_mem hpos)).1]
  have hright : s.rdropWhile CodePoint.isSpace = s := by
    rw [rdropWhile_eq_self_iff]
    intro hne
    simp [(h _ (getLast_mem hne)).1]
  rw [strip, hleft, hright, filter_eq_self]
  intro c hc
  exact bne_iff_ne.mpr (h c hc).2

theorem isNumeralChar_natText (n : Nat) : ∀ c ∈ natText n, IsNumeralChar c :=
  fun c hc => .inl (isDigit_natText n c hc)

/-- A text that consists of numeral characters is one of ASCII. -/
theorem isAscii_of_numeral (h : ∀ c ∈ s, IsNumeralChar c) : IsAscii s := by
  intro c hc
  rcases h c hc with hdigit | rfl | rfl | rfl | rfl
  · obtain ⟨-, hhigh⟩ := Bool.and_eq_true_iff.mp hdigit
    have hle : c.val ≤ 57 := of_decide_eq_true hhigh
    omega
  all_goals decide

theorem isNumeralChar_fixedPoint (c places : Nat) : ∀ d ∈ fixedPoint c places, IsNumeralChar d := by
  obtain ⟨whole, fraction, front, htext, hfront, -, -, -, hwhole, hfrac, -⟩ :=
    exists_digits_fixedPoint c places
  rw [htext]
  intro d hd
  rcases mem_append.mp hd with hd | hd
  · exact .inl (hwhole d hd)
  · cases hfront with
    | none => exact absurd hd not_mem_nil
    | point =>
      rcases mem_cons.mp hd with rfl | hd
      · exact .inr (.inl rfl)
      · exact .inl (hfrac d hd)

theorem isNumeralChar_scientific (c : Nat) (e : Int) : ∀ d ∈ scientific c e, IsNumeralChar d := by
  unfold scientific
  dsimp only
  intro d hd
  rcases mem_append.mp hd with hd | hd
  · rcases mem_append.mp hd with hd | hd
    · exact isNumeralChar_natText c d (mem_of_mem_take hd)
    · split_ifs at hd
      · exact absurd hd not_mem_nil
      · rcases mem_cons.mp hd with rfl | hd
        · exact .inr (.inl rfl)
        · exact isNumeralChar_natText c d (mem_of_mem_drop hd)
  · rcases mem_cons.mp hd with rfl | hd
    · exact .inr (.inr (.inr (.inr rfl)))
    rcases mem_cons.mp hd with rfl | hd
    · split_ifs
      · exact .inr (.inr (.inl rfl))
      · exact .inr (.inr (.inr (.inl rfl)))
    · exact isNumeralChar_natText _ d hd

theorem isNumeralChar_unsignedText (c : Nat) (e : Int) :
    ∀ d ∈ unsignedText c e, IsNumeralChar d := by
  unfold unsignedText
  split_ifs
  · exact isNumeralChar_fixedPoint c _
  · exact isNumeralChar_scientific c e

theorem readNumeral_unsignedText (negative : Bool) (c : Nat) (e : Int) :
    readNumeral negative (unsignedText c e) =
      if WithinLimits c e then some (.finite negative c e) else none := by
  unfold unsignedText
  split_ifs with h hlimits hlimits
  · rw [readNumeral_fixedPoint, Int.toNat_of_nonneg (by omega), neg_neg, if_pos hlimits]
  · rw [readNumeral_fixedPoint, Int.toNat_of_nonneg (by omega), neg_neg, if_neg hlimits]
  · rw [readNumeral_scientific, if_pos hlimits]
  · rw [readNumeral_scientific, if_neg hlimits]

/-- The digits come first. -/
theorem exists_digit_unsignedText (c : Nat) (e : Int) :
    ∃ d ds, unsignedText c e = d :: ds ∧ IsDigit d = true := by
  have hsplit : ∃ whole rest, unsignedText c e = whole ++ rest ∧ whole ≠ [] ∧
      ∀ d ∈ whole, IsDigit d = true := by
    unfold unsignedText
    split_ifs
    · obtain ⟨whole, -, front, htext, -, -, -, hne, hwhole, -, -⟩ :=
        exists_digits_fixedPoint c (-e).toNat
      exact ⟨whole, front, htext, hne, hwhole⟩
    · exact ⟨(natText c).take 1, _, append_assoc .., natText_take_ne_nil c,
        fun d hd => isDigit_natText c d (mem_of_mem_take hd)⟩
  obtain ⟨whole, rest, htext, hne, hwhole⟩ := hsplit
  cases whole with
  | nil => exact absurd rfl hne
  | cons d ds => exact ⟨d, ds ++ rest, htext, hwhole d (by simp)⟩

theorem signText_eq (negative : Bool) : signText negative = if negative then [minusChar] else [] := by
  cases negative <;> decide +kernel

/-- A text that starts with a digit is no special value. -/
theorem readSpecial_of_isDigit {d : CodePoint} {ds : PyStr} (hd : IsDigit d = true) :
    readSpecial negative (d :: ds) = none := by
  have hlower : CodePoint.lowerAscii d = d := by
    obtain ⟨-, hhigh⟩ := Bool.and_eq_true_iff.mp hd
    have hle : d.val ≤ 57 := of_decide_eq_true hhigh
    exact dif_neg (by omega)
  have hinf : py "inf" = ascii 105 (by decide) :: py "nf" := by decide +kernel
  have hinfinity : py "infinity" = ascii 105 (by decide) :: py "nfinity" := by decide +kernel
  have hnan : py "nan" = ascii 110 (by decide) :: py "an" := by decide +kernel
  have hsnan : py "snan" = ascii 115 (by decide) :: py "nan" := by decide +kernel
  have hne (n : Nat) (hn : n < 128) (hout : 57 < n) : d ≠ ascii n hn := isDigit_ne hd (.inr hout)
  unfold readSpecial
  dsimp only
  rw [map_cons, hlower, if_neg, if_neg, if_neg]
  · rw [hsnan]
    exact fun h => hne 115 _ (by decide) (cons_prefix_cons.mp h.1).1.symm
  · rw [hnan]
    exact fun h => hne 110 _ (by decide) (cons_prefix_cons.mp h.1).1.symm
  · rw [hinf, hinfinity]
    exact fun h => h.elim (fun h => hne 105 _ (by decide) (List.cons.inj h).1)
      fun h => hne 105 _ (by decide) (List.cons.inj h).1

theorem isNumeralChar_sciText (negative : Bool) (c : Nat) (e : Int) :
    ∀ d ∈ sciText (.finite negative c e), IsNumeralChar d := by
  intro d hd
  rcases mem_append.mp hd with hd | hd
  · rw [signText_eq] at hd
    split_ifs at hd
    · exact .inr (.inr (.inl (mem_singleton.mp hd)))
    · exact absurd hd not_mem_nil
  · exact isNumeralChar_unsignedText c e d hd

theorem isAscii_sciText_finite (negative : Bool) (c : Nat) (e : Int) :
    IsAscii (sciText (.finite negative c e)) :=
  isAscii_of_numeral (isNumeralChar_sciText negative c e)

/-- **What `str` writes is read as the same decimal.** -/
theorem ofText_sciText_finite (negative : Bool) (c : Nat) (e : Int) :
    ofText (sciText (.finite negative c e)) =
      if WithinLimits c e then some (.finite negative c e) else none := by
  obtain ⟨d, ds, htext, hd⟩ := exists_digit_unsignedText c e
  have hnumeral := isNumeralChar_sciText negative c e
  have hread : readUnsigned negative (unsignedText c e) =
      if WithinLimits c e then some (.finite negative c e) else none := by
    rw [readUnsigned, readNumeral_unsignedText, htext, readSpecial_of_isDigit hd, Option.or_none]
  rw [ofText, strip_filter_eq_self fun d hd => not_isSpace_of_isNumeralChar (hnumeral d hd),
    sciText, signText_eq]
  cases negative with
  | true => simpa using hread
  | false =>
    have hminus : d ≠ minusChar := isDigit_ne hd (.inl (by decide))
    have hplus : d ≠ plusChar := isDigit_ne hd (.inl (by decide))
    rw [htext] at hread ⊢
    simpa [hminus, hplus] using hread

/-! ## Special values -/

/-- The decimal is a number. -/
def IsFinite : PyDecimal → Prop
  | .finite .. => True
  | _ => False

instance : DecidablePred IsFinite
  | .finite .. => inferInstanceAs (Decidable True)
  | .infinite _ => inferInstanceAs (Decidable False)
  | .nan .. => inferInstanceAs (Decidable False)

variable {d : PyDecimal}

theorem not_isFinite_readSpecial (h : readSpecial negative s = some d) : ¬ d.IsFinite := by
  unfold readSpecial at h
  dsimp only at h
  split_ifs at h
  all_goals
    cases h
    exact id

/-- A text that starts with a letter that is no exponent letter is no numeral. -/
theorem readNumeral_of_letter (hdigit : IsDigit c = false) (hexpo : IsExponentChar c = false)
    (hpoint : c ≠ pointChar) :
    readNumeral negative (c :: s) = none := by
  unfold readNumeral
  dsimp only
  rw [takeWhile_cons_of_pos (by simp [hexpo]), takeWhile_cons_of_pos (by simp [hpoint])]
  exact if_neg fun h => by simp [hdigit] at h

theorem not_isFinite_readUnsigned (hdigit : IsDigit c = false)
    (hexpo : IsExponentChar c = false) (hpoint : c ≠ pointChar)
    (h : readUnsigned negative (c :: s) = some d) : ¬ d.IsFinite := by
  rw [readUnsigned, readNumeral_of_letter hdigit hexpo hpoint, Option.none_or] at h
  exact not_isFinite_readSpecial h

/-- What starts with such a letter, behind a sign or not, is not read as a number. -/
theorem not_isFinite_ofText
    (hplain : ∀ c' ∈ c :: s, CodePoint.isSpace c' = false ∧ c' ≠ underscoreChar)
    (hdigit : IsDigit c = false) (hexpo : IsExponentChar c = false) (hpoint : c ≠ pointChar)
    (hminus : c ≠ minusChar) (hplus : c ≠ plusChar)
    (h : ofText (signText negative ++ c :: s) = some d) : ¬ d.IsFinite := by
  have hall : ∀ c' ∈ signText negative ++ c :: s,
      CodePoint.isSpace c' = false ∧ c' ≠ underscoreChar := by
    intro c' hc'
    rcases mem_append.mp hc' with hc' | hc'
    · rw [signText_eq] at hc'
      split_ifs at hc'
      · rw [mem_singleton.mp hc']
        decide
      · exact absurd hc' not_mem_nil
    · exact hplain c' hc'
  rw [ofText, strip_filter_eq_self hall, signText_eq] at h
  cases negative with
  | true => exact not_isFinite_readUnsigned hdigit hexpo hpoint (by simpa using h)
  | false => exact not_isFinite_readUnsigned hdigit hexpo hpoint (by simpa [hminus, hplus] using h)

theorem plain_of_all (h : (s.all fun c => !CodePoint.isSpace c && c.val != 95) = true) :
    ∀ c ∈ s, CodePoint.isSpace c = false ∧ c ≠ underscoreChar := by
  intro c hc
  obtain ⟨hspace, hne⟩ := Bool.and_eq_true_iff.mp (all_eq_true.mp h c hc)
  refine ⟨by simpa using hspace, ?_⟩
  rintro rfl
  exact absurd hne (by decide)

/-- **The text of an infinity or of a NaN is not read as a number.** -/
theorem not_isFinite_ofText_sciText {d x : PyDecimal} (hd : ¬ d.IsFinite)
    (h : ofText (sciText d) = some x) : ¬ x.IsFinite := by
  have hplain (n : Nat) : ∀ c ∈ (if n = 0 then [] else natText n : PyStr),
      CodePoint.isSpace c = false ∧ c ≠ underscoreChar := by
    intro c hc
    split_ifs at hc
    · exact absurd hc not_mem_nil
    · exact not_isSpace_of_isNumeralChar (isNumeralChar_natText n c hc)
  cases d with
  | finite => exact absurd trivial hd
  | infinite negative =>
    have htext : py "Infinity" = ascii 73 (by decide) :: py "nfinity" := by decide +kernel
    have hletters : ∀ c ∈ py "Infinity", CodePoint.isSpace c = false ∧ c ≠ underscoreChar :=
      plain_of_all (by decide +kernel)
    rw [sciText, formatF, htext] at h
    · rw [htext] at hletters
      exact not_isFinite_ofText hletters (by decide) (by decide) (by decide) (by decide)
        (by decide) h
    · exact fun _ _ _ => PyDecimal.noConfusion
  | nan negative signaling n =>
    have htext : py (if signaling then "sNaN" else "NaN") =
        (if signaling then ascii 115 (by decide) else ascii 78 (by decide)) ::
          py (if signaling then "NaN" else "aN") := by
      cases signaling <;> decide +kernel
    have hword : ∀ c ∈ py (if signaling then "sNaN" else "NaN"),
        CodePoint.isSpace c = false ∧ c ≠ underscoreChar := by
      cases signaling
      · exact plain_of_all (by decide +kernel)
      · exact plain_of_all (by decide +kernel)
    have hletters : ∀ c ∈ py (if signaling then "sNaN" else "NaN") ++
        (if n = 0 then [] else natText n), CodePoint.isSpace c = false ∧ c ≠ underscoreChar :=
      fun c hc => (mem_append.mp hc).elim (hword c) (hplain n c)
    rw [sciText, formatF, append_assoc, htext] at h
    · rw [htext] at hletters
      cases signaling with
      | true | false =>
        exact not_isFinite_ofText hletters (by decide) (by decide) (by decide) (by decide)
          (by decide) h
    · exact fun _ _ _ => PyDecimal.noConfusion

theorem isAscii_sciText_special (hd : ¬ d.IsFinite) : IsAscii d.sciText := by
  have hsign (negative : Bool) : IsAscii (signText negative) := by
    cases negative <;> decide +kernel
  cases d with
  | finite => exact absurd trivial hd
  | infinite negative => exact isAscii_append.mpr ⟨hsign negative, by decide +kernel⟩
  | nan negative signaling n =>
    refine isAscii_append.mpr ⟨isAscii_append.mpr ⟨hsign negative, ?_⟩, ?_⟩
    · cases signaling <;> decide +kernel
    · split_ifs
      · exact isAscii_nil
      · exact isAscii_natText n

end OvcReplay.Python.PyDecimal
