import OvcReplay.Json.Tree
import OvcReplay.Python.Platform
import OvcReplay.Python.Fallible

/-! # `json.loads`

The decoder of the standard library: white space is skipped where it may stand, strings are unescaped
with surrogate pairs joined, and numbers are scanned greedily. A float is kept as its text. The
decoder reads back what `render` writes when floats are written as numbers, so the text determines
the tree. -/

namespace OvcReplay

open List Python

namespace Json

/-- What the decoder raises. -/
inductive ParseError where
  /-- `JSONDecodeError`. -/
  | decode
  /-- `ValueError`: an integer with too many digits. -/
  | value
  deriving DecidableEq, Repr

/-! ## Strings -/

/-- The value of a hexadecimal digit. -/
def hexValue? (c : CodePoint) : Option Nat :=
  if 48 ≤ c.val ∧ c.val ≤ 57 then some (c.val - 48)
  else if 97 ≤ c.val ∧ c.val ≤ 102 then some (c.val - 87)
  else if 65 ≤ c.val ∧ c.val ≤ 70 then some (c.val - 55)
  else none

/-- Four hexadecimal digits. -/
def scanHex4 : PyStr → Option (Nat × PyStr)
  | a :: b :: c :: d :: s => do
    let a ← hexValue? a
    let b ← hexValue? b
    let c ← hexValue? c
    let d ← hexValue? d
    return (4096 * a + 256 * b + 16 * c + d, s)
  | _ => none

/-- A code point given by its number. -/
def codePoint? (n : Nat) : Option CodePoint := if h : n < 0x110000 then some ⟨n, h⟩ else none

/-- After `\u`: four digits, and a second escape when they are the first half of a pair. -/
def scanUnicode (s : PyStr) : Option (Option CodePoint × PyStr) := do
  let (unit, s) ← scanHex4 s
  let single := (codePoint? unit).map fun c => (some c, s)
  if 0xD800 ≤ unit ∧ unit ≤ 0xDBFF then
    match s with
    | c :: d :: s' =>
      if c.val = 0x5C ∧ d.val = 0x75 then do
        let (unit', s') ← scanHex4 s'
        if 0xDC00 ≤ unit' ∧ unit' ≤ 0xDFFF then
          (codePoint? (0x10000 + 1024 * (unit - 0xD800) + (unit' - 0xDC00))).map fun c =>
            (some c, s')
        else single
      else single
    | _ => single
  else single

/-- The code point behind a one-letter escape. -/
def unescape? (e : CodePoint) : Option CodePoint :=
  if e.val = 0x22 ∨ e.val = 0x5C ∨ e.val = 0x2F then some e
  else if e.val = 0x62 then codePoint? 0x08
  else if e.val = 0x66 then codePoint? 0x0C
  else if e.val = 0x6E then codePoint? 0x0A
  else if e.val = 0x72 then codePoint? 0x0D
  else if e.val = 0x74 then codePoint? 0x09
  else none

/-- One step inside a string: a code point, or the closing quote. -/
def scanChar : PyStr → Option (Option CodePoint × PyStr)
  | [] => none
  | c :: s =>
    if c.val = 0x22 then some (none, s)
    else if c.val = 0x5C then
      match s with
      | [] => none
      | e :: s => if e.val = 0x75 then scanUnicode s else (unescape? e).map fun c => (some c, s)
    else if c.val < 0x20 then none
    else some (some c, s)

/-- The rest of a string after its opening quote. -/
def scanString : Nat → PyStr → Option (PyStr × PyStr)
  | 0, _ => none
  | n + 1, s =>
    match scanChar s with
    | none => none
    | some (none, s) => some ([], s)
    | some (some c, s) => (scanString n s).map fun p => (c :: p.1, p.2)

/-! ## Numbers -/

/-- A decimal digit. -/
def IsDigit (c : CodePoint) : Bool := decide (48 ≤ c.val) && decide (c.val ≤ 57)

/-- The number that decimal digits write. -/
def digitsValue (digits : PyStr) : Nat := digits.foldl (fun n c => 10 * n + (c.val - 48)) 0

/-- The leading run of digits and what follows it. -/
def scanDigits (s : PyStr) : PyStr × PyStr := (s.takeWhile IsDigit, s.dropWhile IsDigit)

/-- A fraction, or nothing. -/
def scanFraction (s : PyStr) : PyStr × PyStr :=
  match s with
  | c :: t =>
    if c.val = 0x2E ∧ (scanDigits t).1 ≠ [] then (c :: (scanDigits t).1, (scanDigits t).2)
    else ([], s)
  | [] => ([], s)

/-- The digits of an exponent behind its letter and sign, or nothing. -/
def scanExponent (s : PyStr) : PyStr × PyStr :=
  match s with
  | e :: t =>
    if e.val = 0x65 ∨ e.val = 0x45 then
      let (sign, u) : PyStr × PyStr := match t with
        | c :: t' => if c.val = 0x2B ∨ c.val = 0x2D then ([c], t') else ([], t)
        | [] => ([], t)
      if (scanDigits u).1 ≠ [] then (e :: sign ++ (scanDigits u).1, (scanDigits u).2)
      else ([], s)
    else ([], s)
  | [] => ([], s)

/-- A number without its sign. -/
def scanUnsigned (negative : Bool) (s : PyStr) : Except ParseError (Json × PyStr) :=
  match (scanDigits s).1 with
  | [] => .error .decode
  | d :: ds =>
    let whole := if d.val = 48 then [d] else d :: ds
    let (fraction, rest) := scanFraction (s.drop whole.length)
    let (exponent, rest) := scanExponent rest
    if fraction = [] ∧ exponent = [] then
      if whole.length ≤ maxStrDigits then
        .ok (.int (if negative then -(digitsValue whole : Int) else digitsValue whole), rest)
      else .error .value
    else
      .ok (.float ((if negative then py "-" else []) ++ whole ++ fraction ++ exponent), rest)

/-! ## Values -/

/-- White space between tokens. -/
def IsSpace (c : CodePoint) : Bool :=
  decide (c.val = 0x20) || decide (c.val = 0x09) || decide (c.val = 0x0A) || decide (c.val = 0x0D)

/-- The text behind its leading white space. -/
def skipSpace (s : PyStr) : PyStr := s.dropWhile IsSpace

/-- The rest of a literal whose first letter was read. -/
def scanLiteral (rest : String) (j : Json) (s : PyStr) : Except ParseError (Json × PyStr) :=
  if py rest <+: s then .ok (j, s.drop (py rest).length) else .error .decode

/-- A string as a result of the decoder. -/
def expectString (s : PyStr) : Except ParseError (PyStr × PyStr) :=
  match s with
  | c :: s =>
    if c.val = 0x22 then
      match scanString (s.length + 1) s with
      | some p => .ok p
      | none => .error .decode
    else .error .decode
  | [] => .error .decode

mutual

/-- `scan_once`. -/
def parseValue : Nat → PyStr → Except ParseError (Json × PyStr)
  | 0, _ => .error .decode
  | _ + 1, [] => .error .decode
  | n + 1, c :: s =>
    if c.val = 0x22 then (expectString (c :: s)).map fun p => (.str p.1, p.2)
    else if c.val = 0x7B then
      match skipSpace s with
      | [] => .error .decode
      | d :: t =>
        if d.val = 0x7D then .ok (.obj [], t)
        else (parseMembers n (d :: t)).map fun p => (.obj p.1, p.2)
    else if c.val = 0x5B then
      match skipSpace s with
      | [] => .error .decode
      | d :: t =>
        if d.val = 0x5D then .ok (.arr [], t)
        else (parseElements n (d :: t)).map fun p => (.arr p.1, p.2)
    else if c.val = 0x6E then scanLiteral "ull" .null s
    else if c.val = 0x74 then scanLiteral "rue" (.bool true) s
    else if c.val = 0x66 then scanLiteral "alse" (.bool false) s
    else if c.val = 0x4E then scanLiteral "aN" (.float (py "NaN")) s
    else if c.val = 0x49 then scanLiteral "nfinity" (.float (py "Infinity")) s
    else if c.val = 0x2D then
      if py "Infinity" <+: s then scanLiteral "Infinity" (.float (py "-Infinity")) s
      else scanUnsigned true s
    else scanUnsigned false (c :: s)

/-- The elements of an array that is not empty. -/
def parseElements : Nat → PyStr → Except ParseError (List Json × PyStr)
  | 0, _ => .error .decode
  | n + 1, s => do
    let (x, s) ← parseValue n s
    match skipSpace s with
    | [] => .error .decode
    | c :: s =>
      if c.val = 0x5D then .ok ([x], s)
      else if c.val = 0x2C then
        (parseElements n (skipSpace s)).map fun p => (x :: p.1, p.2)
      else .error .decode

/-- The members of an object that is not empty. -/
def parseMembers : Nat → PyStr → Except ParseError (List (PyStr × Json) × PyStr)
  | 0, _ => .error .decode
  | n + 1, s => do
    let (k, s) ← expectString s
    match skipSpace s with
    | [] => .error .decode
    | colon :: s =>
      if colon.val = 0x3A then do
        let (v, s) ← parseValue n (skipSpace s)
        match skipSpace s with
        | [] => .error .decode
        | c :: s =>
          if c.val = 0x7D then .ok ([(k, v)], s)
          else if c.val = 0x2C then
            (parseMembers n (skipSpace s)).map fun p => ((k, v) :: p.1, p.2)
          else .error .decode
      else .error .decode

end

/-- **`json.loads`** up to the tree: one value with white space around it. -/
def parse (s : PyStr) : Except ParseError Json := do
  let (j, rest) ← parseValue (2 * s.length + 1) (skipSpace s)
  if skipSpace rest = [] then .ok j else .error .decode

/-! ## Reading back strings -/

theorem codePoint?_val (c : CodePoint) : codePoint? c.val = some c := dif_pos c.isLt

variable {n : Nat}

theorem hexValue?_hexDigit (h : n < 16) : hexValue? (hexDigit n) = some n := by
  unfold hexDigit hexValue?
  split
  · rename_i hn
    rw [if_pos ⟨by simp, by simp; omega⟩]
    simp
  · rename_i hn
    have hmod : n % 16 = n := Nat.mod_eq_of_lt h
    rw [if_neg (by simp; omega), if_pos (by simp only [hmod]; omega)]
    simp only [hmod, Option.some.injEq]
    omega

variable {t : PyStr}

variable {c : CodePoint} {s : PyStr}

/-- A short escape. -/
theorem scanChar_short {e : CodePoint} (he : e.val ≠ 0x75) (h : unescape? e = some c) :
    scanChar (py "\\" ++ e :: t) = some (some c, t) := by
  have hback : py "\\" = [⟨0x5C, by decide⟩] := by rfl
  rw [hback]
  simp [scanChar, he, h]

/-- The escape of a control. -/
theorem scanChar_control (hc : c.val < 0x20) :
    scanChar (py "\\u00" ++ hexDigit (c.val / 16) :: hexDigit (c.val % 16) :: t) =
      some (some c, t) := by
  have hpre : py "\\u00" = [⟨0x5C, by decide⟩, ⟨0x75, by decide⟩, hexDigit 0, hexDigit 0] := by
    rfl
  have hhex : scanHex4 (hexDigit 0 :: hexDigit 0 :: hexDigit (c.val / 16) ::
      hexDigit (c.val % 16) :: t) = some (c.val, t) := by
    simp only [scanHex4, hexValue?_hexDigit (show 0 < 16 by decide),
      hexValue?_hexDigit (show c.val / 16 < 16 by omega),
      hexValue?_hexDigit (show c.val % 16 < 16 by omega), Option.bind_eq_bind, Option.bind_some,
      Option.pure_def, Option.some.injEq, Prod.mk.injEq, and_true]
    omega
  rw [hpre]
  simp only [cons_append, nil_append, scanChar]
  rw [if_neg (by decide), if_pos trivial, if_pos trivial, scanUnicode, hhex]
  simp only [Option.bind_eq_bind, Option.bind_some, codePoint?_val, Option.map_some]
  rw [if_neg (by omega)]

/-- **One code point is read back.** -/
theorem scanChar_escape (c : CodePoint) (t : PyStr) :
    scanChar (escape c ++ t) = some (some c, t) := by
  have hshort : ∀ (lit : String) (e : CodePoint), py lit = py "\\" ++ [e] → e.val ≠ 0x75 →
      unescape? e = some c → scanChar (py lit ++ t) = some (some c, t) := by
    intro lit e hlit he h
    rw [hlit, append_assoc]
    exact scanChar_short he h
  have hval : ∀ {n : Nat} (hn : n < 0x110000), c.val = n → some (⟨n, hn⟩ : CodePoint) = some c :=
    fun _ h => congrArg some (Fin.ext h.symm)
  unfold escape
  split_ifs with hquote hback hplain hlf hcr htab hff hbs
  · exact hshort _ ⟨0x22, by decide⟩ (by decide +kernel) (by decide) (hval _ hquote)
  · exact hshort _ ⟨0x5C, by decide⟩ (by decide +kernel) (by decide) (hval _ hback)
  · simp only [cons_append, nil_append, scanChar]
    rw [if_neg hquote, if_neg hback, if_neg (by omega)]
  · exact hshort _ ⟨0x6E, by decide⟩ (by decide +kernel) (by decide) (hval _ hlf)
  · exact hshort _ ⟨0x72, by decide⟩ (by decide +kernel) (by decide) (hval _ hcr)
  · exact hshort _ ⟨0x74, by decide⟩ (by decide +kernel) (by decide) (hval _ htab)
  · exact hshort _ ⟨0x66, by decide⟩ (by decide +kernel) (by decide) (hval _ hff)
  · exact hshort _ ⟨0x62, by decide⟩ (by decide +kernel) (by decide) (hval _ hbs)
  · rw [append_assoc]
    exact scanChar_control (by omega)

theorem scanString_escapeAll (s rest : PyStr) (h : s.length < n) :
    scanString n (escapeAll s ++ py "\"" ++ rest) = some (s, rest) := by
  induction s generalizing n with
  | nil =>
    obtain ⟨n, rfl⟩ := Nat.exists_eq_succ_of_ne_zero (Nat.ne_of_gt h)
    have hquote : py "\"" = [⟨0x22, by decide⟩] := by rfl
    rw [escapeAll, hquote]
    simp [scanString, scanChar]
  | cons c s ih =>
    obtain ⟨n, rfl⟩ := Nat.exists_eq_succ_of_ne_zero (Nat.ne_of_gt (Nat.zero_lt_of_lt h))
    rw [escapeAll, append_assoc, append_assoc, scanString, scanChar_escape,
      ← append_assoc]
    change (scanString n (escapeAll s ++ py "\"" ++ rest)).map _ = _
    rw [ih (by simpa using h)]
    rfl

/-! ## Reading back numbers -/

/-- The text does not go on with a number. -/
def NumberEnd (rest : PyStr) : Prop :=
  ∀ c ∈ rest.head?, IsDigit c = false ∧ c.val ≠ 0x2E ∧ c.val ≠ 0x65 ∧ c.val ≠ 0x45

theorem isDigit_natText (n : Nat) : ∀ c ∈ natText n, IsDigit c = true := by
  intro c hc
  obtain ⟨d, hd, rfl⟩ := mem_map.mp hc
  have hdigit := Nat.isDigit_of_mem_toDigits (by decide) (by decide) hd
  simp only [Char.isDigit, Bool.and_eq_true, decide_eq_true_eq] at hdigit
  rw [IsDigit, CodePoint.val_ofChar, Bool.and_eq_true]
  exact ⟨decide_eq_true hdigit.1, decide_eq_true hdigit.2⟩

theorem digitsValue_natText (n : Nat) : digitsValue (natText n) = n := by
  have h := Nat.ofDigitChars_ten_toDigits (n := n)
  rw [Nat.ofDigitChars_eq_foldl] at h
  rw [digitsValue, natText, foldl_map]
  exact h

theorem digitsValue_lt {digits : PyStr} (h : ∀ c ∈ digits, IsDigit c = true) :
    digitsValue digits < 10 ^ digits.length := by
  induction digits using List.reverseRecOn with
  | nil => simp [digitsValue]
  | append_singleton digits c ih =>
    rw [forall_mem_append] at h
    have hlt := ih h.1
    have hc := h.2 c (by simp)
    simp only [IsDigit, Bool.and_eq_true, decide_eq_true_eq] at hc
    rw [digitsValue, foldl_append, ← digitsValue, length_append, length_singleton,
      Nat.pow_succ]
    simp only [foldl_cons, foldl_nil]
    omega

theorem length_natText_le_iff {n k : Nat} (h : 0 < k) : (natText n).length ≤ k ↔ n < 10 ^ k := by
  rw [natText, length_map]
  exact Nat.length_toDigits_le_iff (by decide) h

theorem natText_ne_nil (n : Nat) : natText n ≠ [] := by
  simp [natText]

/-- Only zero starts with a zero. -/
theorem tail_natText_of_zero {d : CodePoint} {ds : PyStr} (h : natText n = d :: ds)
    (hd : d.val = 48) : ds = [] := by
  by_contra hne
  have hpos : 0 < ds.length := length_pos_iff.mpr hne
  have hdigits : ∀ c ∈ ds, IsDigit c = true := fun c hc =>
    isDigit_natText n c (h ▸ mem_cons_of_mem d hc)
  have hval : digitsValue ds = n := by
    rw [← digitsValue_natText n, h]
    simp [digitsValue, hd]
  have hlen := (length_natText_le_iff hpos).mpr (hval ▸ digitsValue_lt hdigits)
  rw [h, length_cons] at hlen
  omega

theorem scanDigits_append {digits rest : PyStr} (h : ∀ c ∈ digits, IsDigit c = true)
    (hrest : ∀ c ∈ rest.head?, IsDigit c = false) :
    scanDigits (digits ++ rest) = (digits, rest) := by
  have hstop : rest.takeWhile IsDigit = [] ∧ rest.dropWhile IsDigit = rest := by
    cases rest with
    | nil => simp
    | cons c t => simp [hrest c (by simp)]
  rw [scanDigits, takeWhile_append_of_pos h, dropWhile_append_of_pos h, hstop.1, hstop.2,
    append_nil]

variable {rest : PyStr}

theorem NumberEnd.scanFraction (h : NumberEnd rest) : scanFraction rest = ([], rest) := by
  cases rest with
  | nil => rfl
  | cons c t => simp [Json.scanFraction, (h c (by simp)).2.1]

theorem NumberEnd.scanExponent (h : NumberEnd rest) : scanExponent rest = ([], rest) := by
  cases rest with
  | nil => rfl
  | cons c t => simp [Json.scanExponent, (h c (by simp)).2.2.1, (h c (by simp)).2.2.2]

/-- The scanner reads the whole part as it was written. -/
theorem scanUnsigned_append (negative : Bool) (hrest : ∀ c ∈ rest.head?, IsDigit c = false) :
    scanUnsigned negative (natText n ++ rest) =
      if (scanFraction rest).1 = [] ∧ (scanExponent (scanFraction rest).2).1 = [] then
        if (natText n).length ≤ maxStrDigits then
          .ok (.int (if negative then -(digitsValue (natText n) : Int) else digitsValue (natText n)),
            (scanExponent (scanFraction rest).2).2)
        else .error .value
      else
        .ok (.float ((if negative then py "-" else []) ++ natText n ++ (scanFraction rest).1 ++
          (scanExponent (scanFraction rest).2).1), (scanExponent (scanFraction rest).2).2) := by
  have hscan := scanDigits_append (isDigit_natText n) hrest
  obtain ⟨d, ds, hds⟩ := exists_cons_of_ne_nil (natText_ne_nil n)
  have hwhole : (if d.val = 48 then [d] else d :: ds) = natText n := by
    split_ifs with hd
    · rw [hds, tail_natText_of_zero hds hd]
    · exact hds.symm
  rw [scanUnsigned, hscan]
  simp only [hds]
  rw [hwhole, ← hds, drop_left]

/-- **A number is read back.** -/
theorem scanUnsigned_natText (negative : Bool) (hn : n < 10 ^ maxStrDigits)
    (hrest : NumberEnd rest) :
    scanUnsigned negative (natText n ++ rest) =
      .ok (.int (if negative then -(n : Int) else n), rest) := by
  have hlen : (natText n).length ≤ maxStrDigits := (length_natText_le_iff (by decide)).mpr hn
  rw [scanUnsigned_append negative fun c hc => (hrest c hc).1, hrest.scanFraction]
  simp only [hrest.scanExponent, and_self, if_true, hlen, digitsValue_natText]

/-- The head of a number without a sign. -/
theorem natText_eq_cons (n : Nat) : ∃ d ds, natText n = d :: ds ∧ 48 ≤ d.val ∧ d.val ≤ 57 := by
  obtain ⟨d, ds, hds⟩ := exists_cons_of_ne_nil (natText_ne_nil n)
  have hd := isDigit_natText n d (hds ▸ mem_cons_self)
  simp only [IsDigit, Bool.and_eq_true, decide_eq_true_eq] at hd
  exact ⟨d, ds, hds, hd⟩

/-- A number without a sign is scanned as such. -/
theorem parseValue_pos (fuel : Nat) :
    parseValue (fuel + 1) (natText n ++ rest) = scanUnsigned false (natText n ++ rest) := by
  obtain ⟨d, ds, hds, hlo, hhi⟩ := natText_eq_cons n
  rw [hds, cons_append]
  rw [parseValue, if_neg (by omega), if_neg (by omega), if_neg (by omega), if_neg (by omega),
    if_neg (by omega), if_neg (by omega), if_neg (by omega), if_neg (by omega), if_neg (by omega)]

/-- Behind a minus sign a number is scanned, not an infinity. -/
theorem parseValue_neg (fuel : Nat) : parseValue (fuel + 1) (py "-" ++ natText n ++ rest) =
      scanUnsigned true (natText n ++ rest) := by
  have hminus : py "-" = [⟨0x2D, by decide⟩] := by rfl
  have hinfinity : py "Infinity" = ⟨0x49, by decide⟩ :: py "nfinity" := by rfl
  have hnot : ¬ py "Infinity" <+: natText n ++ rest := by
    obtain ⟨d, ds, hds, hlo, hhi⟩ := natText_eq_cons n
    rw [hinfinity, hds, cons_append, cons_prefix_cons]
    rintro ⟨rfl, -⟩
    simp at hhi
  rw [hminus, append_assoc, cons_append, nil_append, parseValue,
    if_neg (by decide), if_neg (by decide), if_neg (by decide), if_neg (by decide),
    if_neg (by decide), if_neg (by decide), if_neg (by decide), if_neg (by decide), if_pos rfl,
    if_neg hnot]

theorem parseValue_natText {n fuel : Nat} (hn : n < 10 ^ maxStrDigits) (hrest : NumberEnd rest) :
    parseValue (fuel + 1) (natText n ++ rest) = .ok (.int n, rest) := by
  rw [parseValue_pos, scanUnsigned_natText false hn hrest]
  rfl

theorem parseValue_neg_natText {n fuel : Nat} (hn : n < 10 ^ maxStrDigits)
    (hrest : NumberEnd rest) :
    parseValue (fuel + 1) (py "-" ++ natText n ++ rest) = .ok (.int (-(n : Int)), rest) := by
  rw [parseValue_neg, scanUnsigned_natText true hn hrest]
  rfl

variable {fuel : Nat}

/-- **An integer is read back.** -/
theorem parseValue_intText {z : Int} (hz : z.natAbs < 10 ^ maxStrDigits) (hrest : NumberEnd rest) :
    parseValue (fuel + 1) (intText z ++ rest) = .ok (.int z, rest) := by
  cases z with
  | ofNat n => exact parseValue_natText hz hrest
  | negSucc n => exact parseValue_neg_natText hz hrest

/-! ## Reading back floats -/

/-- Digits behind a point, or nothing. -/
def IsFraction (s : PyStr) : Prop :=
  s = [] ∨ ∃ c ds, s = c :: ds ∧ c.val = 0x2E ∧ ds ≠ [] ∧ ∀ d ∈ ds, IsDigit d = true

/-- Digits behind the letter of an exponent and its sign, or nothing. -/
def IsExponent (s : PyStr) : Prop :=
  s = [] ∨ ∃ e sign ds, s = e :: sign ++ ds ∧ (e.val = 0x65 ∨ e.val = 0x45) ∧
    (sign = [] ∨ ∃ c, sign = [c] ∧ (c.val = 0x2B ∨ c.val = 0x2D)) ∧
    ds ≠ [] ∧ ∀ d ∈ ds, IsDigit d = true

/-- **What `float.__repr__` writes** for a finite float: a whole part with a fraction, an exponent or
both. -/
inductive FloatText : PyStr → Prop
  | mk (negative : Bool) (n : Nat) {fraction exponent : PyStr} (hfraction : IsFraction fraction)
      (hexponent : IsExponent exponent) (h : ¬ (fraction = [] ∧ exponent = [])) :
      FloatText ((if negative then py "-" else []) ++ natText n ++ fraction ++ exponent)

theorem IsExponent.head {rest : PyStr} (h : IsExponent s) (hrest : NumberEnd rest) :
    ∀ c ∈ (s ++ rest).head?, IsDigit c = false ∧ c.val ≠ 0x2E := by
  rcases h with rfl | ⟨e, sign, ds, rfl, he, -, -⟩
  · exact fun c hc => ⟨(hrest c hc).1, (hrest c hc).2.1⟩
  · intro c hc
    obtain rfl : e = c := by simpa using hc
    rw [IsDigit]
    rcases he with he | he <;> simp [he]

theorem IsFraction.head {rest : PyStr} (h : IsFraction s)
    (hrest : ∀ c ∈ rest.head?, IsDigit c = false) : ∀ c ∈ (s ++ rest).head?, IsDigit c = false := by
  rcases h with rfl | ⟨p, ds, rfl, hp, -⟩
  · exact hrest
  · intro c hc
    obtain rfl : p = c := by simpa using hc
    simp [IsDigit, hp]

theorem IsFraction.scanFraction_append {rest : PyStr} (h : IsFraction s)
    (hrest : ∀ c ∈ rest.head?, IsDigit c = false ∧ c.val ≠ 0x2E) :
    scanFraction (s ++ rest) = (s, rest) := by
  rcases h with rfl | ⟨p, ds, rfl, hp, hne, hds⟩
  · cases rest with
    | nil => rfl
    | cons c t => simp [scanFraction, (hrest c (by simp)).2]
  · have hscan := scanDigits_append hds fun c hc => (hrest c hc).1
    rw [cons_append, scanFraction, hscan, if_pos ⟨hp, hne⟩]

theorem IsExponent.scanExponent_append {rest : PyStr} (h : IsExponent s)
    (hrest : NumberEnd rest) : scanExponent (s ++ rest) = (s, rest) := by
  rcases h with rfl | ⟨e, sign, ds, rfl, he, hsign, hne, hds⟩
  · exact hrest.scanExponent
  · have hscan := scanDigits_append hds fun c hc => (hrest c hc).1
    rcases hsign with rfl | ⟨c, rfl, hc⟩
    · obtain ⟨d, ds, rfl⟩ := exists_cons_of_ne_nil hne
      have hd := hds d (by simp)
      simp only [IsDigit, Bool.and_eq_true, decide_eq_true_eq] at hd
      have hnot : ¬ (d.val = 0x2B ∨ d.val = 0x2D) := by omega
      rw [cons_append] at hscan
      simp only [nil_append, cons_append, scanExponent, if_pos he, if_neg hnot, hscan]
      rw [if_pos (by simp)]
    · simp only [cons_append, nil_append, scanExponent, if_pos he, if_pos hc, hscan]
      rw [if_pos hne]

/-- **A float is read back as its text.** -/
theorem FloatText.parseValue (h : FloatText t) (hrest : NumberEnd rest) :
    Json.parseValue (fuel + 1) (t ++ rest) = .ok (.float t, rest) := by
  obtain ⟨negative, n, hfrac, hexpo, hne⟩ := h
  rename_i fraction exponent
  have hhead := hexpo.head hrest
  have hscan : ∀ sign, scanUnsigned sign (natText n ++ (fraction ++ (exponent ++ rest))) =
      .ok (.float ((if sign then py "-" else []) ++ natText n ++ fraction ++ exponent), rest) := by
    intro sign
    rw [scanUnsigned_append sign (hfrac.head fun c hc => (hhead c hc).1),
      hfrac.scanFraction_append hhead]
    simp only [hexpo.scanExponent_append hrest, if_neg hne]
  cases negative with
  | false =>
    have hparse := hscan false
    rw [← parseValue_pos fuel] at hparse
    simpa only [Bool.false_eq_true, if_false, nil_append, append_assoc] using hparse
  | true =>
    have hparse := hscan true
    rw [← parseValue_neg fuel] at hparse
    simpa only [if_true, append_assoc] using hparse

/-! ## Reading back values -/

/-- A tree without floats whose integers are short enough to be read. -/
inductive Plain : Json → Prop
  | null : Plain .null
  | bool (b : Bool) : Plain (.bool b)
  | int {z : Int} (h : z.natAbs < 10 ^ maxStrDigits) : Plain (.int z)
  | str (s : PyStr) : Plain (.str s)
  | arr {xs : List Json} (h : ∀ x ∈ xs, Plain x) : Plain (.arr xs)
  | obj {members : List (PyStr × Json)} (h : ∀ p ∈ members, Plain p.2) : Plain (.obj members)

/-- A tree whose integers are short enough to be read and whose floats are written as numbers. -/
inductive Legible : Json → Prop
  | null : Legible .null
  | bool (b : Bool) : Legible (.bool b)
  | int {z : Int} (h : z.natAbs < 10 ^ maxStrDigits) : Legible (.int z)
  | float {t : PyStr} (h : FloatText t) : Legible (.float t)
  | str (s : PyStr) : Legible (.str s)
  | arr {xs : List Json} (h : ∀ x ∈ xs, Legible x) : Legible (.arr xs)
  | obj {members : List (PyStr × Json)} (h : ∀ p ∈ members, Legible p.2) : Legible (.obj members)

variable {j : Json}

theorem Plain.legible (h : Plain j) : Legible j := by
  induction h with
  | null => exact .null
  | bool b => exact .bool b
  | int hz => exact .int hz
  | str s => exact .str s
  | arr _ ih => exact .arr ih
  | obj _ ih => exact .obj ih

/-- The text starts with a token that is no closing bracket. -/
def Starts (s : PyStr) : Prop := ∃ c t, s = c :: t ∧ IsSpace c = false ∧ c.val ≠ 0x5D

theorem Starts.append (h : Starts s) (t : PyStr) : Starts (s ++ t) := by
  obtain ⟨c, u, rfl, hc⟩ := h
  exact ⟨c, u ++ t, rfl, hc⟩

theorem Starts.skipSpace (h : Starts s) : skipSpace s = s := by
  obtain ⟨c, t, rfl, hc, -⟩ := h
  simp [Json.skipSpace, hc]

theorem py_null : py "null" = ⟨0x6E, by decide⟩ :: py "ull" := by rfl
theorem py_true : py "true" = ⟨0x74, by decide⟩ :: py "rue" := by rfl
theorem py_false : py "false" = ⟨0x66, by decide⟩ :: py "alse" := by rfl
theorem py_minus : py "-" = [⟨0x2D, by decide⟩] := by rfl
theorem py_quote : py "\"" = [⟨0x22, by decide⟩] := by rfl
theorem py_comma : py "," = [⟨0x2C, by decide⟩] := by rfl
theorem py_colon : py ":" = [⟨0x3A, by decide⟩] := by rfl
theorem py_open : py "[" = [⟨0x5B, by decide⟩] := by rfl
theorem py_close : py "]" = [⟨0x5D, by decide⟩] := by rfl
theorem py_begin : py "\x7b" = [⟨0x7B, by decide⟩] := by rfl
theorem py_end : py "\x7d" = [⟨0x7D, by decide⟩] := by rfl

theorem starts_quote (s : PyStr) : Starts (quote s) := by
  rw [quote, py_quote]
  exact ⟨_, _, rfl, by decide, by decide⟩

theorem starts_intText (z : Int) : Starts (intText z) := by
  cases z with
  | ofNat n =>
    obtain ⟨d, ds, hds, hlo, hhi⟩ := natText_eq_cons n
    refine ⟨d, ds, hds, ?_, by omega⟩
    simp only [IsSpace, Bool.or_eq_false_iff, decide_eq_false_iff_not]
    omega
  | negSucc n =>
    rw [intText, py_minus]
    exact ⟨_, _, rfl, by decide, by decide⟩

theorem starts_natText (n : Nat) : Starts (natText n) := by
  obtain ⟨d, ds, hds, hlo, hhi⟩ := natText_eq_cons n
  refine ⟨d, ds, hds, ?_, by omega⟩
  simp only [IsSpace, Bool.or_eq_false_iff, decide_eq_false_iff_not]
  omega

theorem FloatText.starts (h : FloatText t) : Starts t := by
  obtain ⟨negative, n, -, -, -⟩ := h
  rw [append_assoc]
  refine Starts.append ?_ _
  cases negative with
  | false => exact starts_natText n
  | true =>
    rw [if_pos rfl, py_minus]
    exact ⟨_, _, rfl, by decide, by decide⟩

theorem Legible.starts (h : Legible j) : Starts (render j) := by
  cases h with
  | float h => rw [render]; exact h.starts
  | null => rw [render, py_null]; exact ⟨_, _, rfl, by decide, by decide⟩
  | bool b =>
    cases b
    · rw [render, py_false]; exact ⟨_, _, rfl, by decide, by decide⟩
    · rw [render, py_true]; exact ⟨_, _, rfl, by decide, by decide⟩
  | int => rw [render]; exact starts_intText _
  | str s => rw [render]; exact starts_quote s
  | @arr xs h =>
    cases xs with
    | nil => rw [render, show py "[]" = py "[" ++ py "]" from py_append "[" "]", py_open]
             exact ⟨_, _, rfl, by decide, by decide⟩
    | cons => rw [render, py_open]; exact ⟨_, _, rfl, by decide, by decide⟩
  | @obj members h =>
    cases members with
    | nil =>
      rw [render, show py "\x7b\x7d" = py "\x7b" ++ py "\x7d" from py_append "\x7b" "\x7d",
        py_begin]
      exact ⟨_, _, rfl, by decide, by decide⟩
    | cons => rw [render, py_begin]; exact ⟨_, _, rfl, by decide, by decide⟩

theorem scanLiteral_append (lit : String) (j : Json) (rest : PyStr) :
    scanLiteral lit j (py lit ++ rest) = .ok (j, rest) := by
  rw [scanLiteral, if_pos (prefix_append _ _), drop_left]

theorem length_le_escapeAll (s : PyStr) : s.length ≤ (escapeAll s).length := by
  induction s with
  | nil => simp
  | cons c s ih =>
    have hpos : 0 < (escape c).length := by
      unfold escape
      split_ifs <;> simp [length_pos_iff]
    rw [escapeAll, length_append, length_cons]
    omega

/-- **A string is read back.** -/
theorem expectString_quote (s rest : PyStr) : expectString (quote s ++ rest) = .ok (s, rest) := by
  have hlen : s.length < (escapeAll s ++ py "\"" ++ rest).length + 1 := by
    have := length_le_escapeAll s
    simp only [length_append]
    omega
  have hshape : quote s ++ rest = ⟨0x22, by decide⟩ :: (escapeAll s ++ py "\"" ++ rest) := by
    rw [quote, py_quote]
    simp
  rw [hshape, expectString]
  simp only [if_true, scanString_escapeAll s rest hlen]

/-- With fuel for its length, the tree is read back wherever its text stands. -/
def ReadsBack (j : Json) : Prop :=
  ∀ fuel rest, 2 * (render j).length ≤ fuel → NumberEnd rest →
    parseValue fuel (render j ++ rest) = .ok (j, rest)

theorem numberEnd_cons (h : IsDigit c = false)
    (hc : c.val ≠ 0x2E ∧ c.val ≠ 0x65 ∧ c.val ≠ 0x45) : NumberEnd (c :: t) := by
  intro d hd
  obtain rfl : c = d := by simpa using hd
  exact ⟨h, hc⟩

theorem numberEnd_renderElements (xs : List Json) (rest : PyStr) :
    NumberEnd (renderElements xs ++ rest) := by
  cases xs with
  | nil => rw [renderElements, py_close]; exact numberEnd_cons (by decide) (by decide)
  | cons => rw [renderElements, py_comma]; exact numberEnd_cons (by decide) (by decide)

theorem numberEnd_renderMembers (members : List (PyStr × Json)) (rest : PyStr) :
    NumberEnd (renderMembers members ++ rest) := by
  cases members with
  | nil => rw [renderMembers, py_end]; exact numberEnd_cons (by decide) (by decide)
  | cons p => rw [renderMembers, py_comma]; exact numberEnd_cons (by decide) (by decide)

theorem parseElements_render {xs : List Json} {x : Json} (hread : ∀ y ∈ x :: xs, ReadsBack y)
    (hstart : ∀ y ∈ x :: xs, Starts (render y))
    (hfuel : 2 * (render x ++ renderElements xs).length ≤ fuel) :
    parseElements fuel (render x ++ renderElements xs ++ rest) = .ok (x :: xs, rest) := by
  induction xs generalizing x fuel with
  | nil =>
    simp only [renderElements, py_close, length_append, length_singleton] at hfuel ⊢
    obtain ⟨fuel, rfl⟩ := Nat.exists_eq_succ_of_ne_zero (show fuel ≠ 0 by omega)
    rw [append_assoc, cons_append, nil_append, parseElements,
      hread x (by simp) fuel _ (by omega) (numberEnd_cons (by decide) (by decide))]
    rfl
  | cons y ys ih =>
    simp only [renderElements, py_comma, length_append, length_singleton] at hfuel
    obtain ⟨fuel, rfl⟩ := Nat.exists_eq_succ_of_ne_zero (show fuel ≠ 0 by omega)
    have hrest : parseElements fuel (render y ++ renderElements ys ++ rest) = .ok (y :: ys, rest) :=
      ih (fun z hz => hread z (mem_cons_of_mem _ hz))
      (fun z hz => hstart z (mem_cons_of_mem _ hz))
      (by simp only [length_append]; omega)
    have hskip : skipSpace (render y ++ renderElements ys ++ rest) =
        render y ++ renderElements ys ++ rest := by
      rw [append_assoc]
      exact ((hstart y (by simp)).append _).skipSpace
    rw [append_assoc, parseElements, hread x (by simp) fuel _ (by omega)
      (numberEnd_renderElements _ _)]
    simp only [renderElements, py_comma, cons_append, nil_append, bind, Except.bind]
    change (parseElements fuel (skipSpace (render y ++ renderElements ys ++ rest))).map _ = _
    rw [hskip, hrest]
    rfl

theorem parseMembers_render {ms : List (PyStr × Json)} {k : PyStr} {v : Json}
    (hread : ∀ p ∈ (k, v) :: ms, ReadsBack p.2) (hstart : ∀ p ∈ (k, v) :: ms, Starts (render p.2))
    (hfuel : 2 * (quote k ++ py ":" ++ render v ++ renderMembers ms).length ≤ fuel) :
    parseMembers fuel (quote k ++ py ":" ++ render v ++ renderMembers ms ++ rest) =
      .ok ((k, v) :: ms, rest) := by
  -- the step from a key to what follows its value
  have hkey : ∀ (k : PyStr) (v : Json) (fuel : Nat) (t : PyStr), ReadsBack v → Starts (render v) →
      2 * (render v).length ≤ fuel → NumberEnd t →
      parseMembers (fuel + 1) (quote k ++ py ":" ++ render v ++ t) =
        match skipSpace t with
        | [] => .error .decode
        | c :: s =>
          if c.val = 0x7D then .ok ([(k, v)], s)
          else if c.val = 0x2C then
            (parseMembers fuel (skipSpace s)).map fun p => ((k, v) :: p.1, p.2)
          else .error .decode := by
    intro k v fuel t hv hs hlen ht
    have hskip : skipSpace (render v ++ t) = render v ++ t := (hs.append t).skipSpace
    rw [py_colon, append_assoc, append_assoc, parseMembers, expectString_quote]
    simp only [cons_append, nil_append, bind, Except.bind]
    rw [show skipSpace (⟨0x3A, by decide⟩ :: (render v ++ t)) = ⟨0x3A, by decide⟩ :: (render v ++ t)
      from rfl]
    simp only [if_true, hskip, hv fuel t hlen ht]
  induction ms generalizing k v fuel with
  | nil =>
    simp only [renderMembers, py_end, length_append, length_singleton] at hfuel ⊢
    obtain ⟨fuel, rfl⟩ := Nat.exists_eq_succ_of_ne_zero (show fuel ≠ 0 by omega)
    rw [append_assoc, cons_append, nil_append,
      hkey k v fuel _ (hread (k, v) (by simp)) (hstart (k, v) (by simp)) (by omega)
        (numberEnd_cons (by decide) (by decide))]
    rfl
  | cons p ms ih =>
    obtain ⟨k', v'⟩ := p
    simp only [renderMembers, py_comma, length_append, length_singleton] at hfuel
    obtain ⟨fuel, rfl⟩ := Nat.exists_eq_succ_of_ne_zero (show fuel ≠ 0 by omega)
    have hrest : parseMembers fuel (quote k' ++ py ":" ++ render v' ++ renderMembers ms ++ rest) =
        .ok ((k', v') :: ms, rest) := ih
      (fun q hq => hread q (mem_cons_of_mem _ hq))
      (fun q hq => hstart q (mem_cons_of_mem _ hq))
      (by simp only [length_append]; omega)
    have hskip : skipSpace (quote k' ++ py ":" ++ render v' ++ renderMembers ms ++ rest) =
        quote k' ++ py ":" ++ render v' ++ renderMembers ms ++ rest := by
      simp only [append_assoc]
      exact ((starts_quote k').append _).skipSpace
    rw [append_assoc, hkey k v fuel _ (hread (k, v) (by simp)) (hstart (k, v) (by simp))
      (by omega) (numberEnd_renderMembers _ _)]
    simp only [renderMembers, py_comma, cons_append, nil_append]
    change (parseMembers fuel (skipSpace (quote k' ++ py ":" ++ render v' ++ renderMembers ms ++
      rest))).map _ = _
    rw [hskip, hrest]
    rfl

theorem readsBack_of_succ (h : Legible j)
    (hread : ∀ fuel rest, 2 * (render j).length ≤ fuel + 1 → NumberEnd rest →
      parseValue (fuel + 1) (render j ++ rest) = .ok (j, rest)) :
    ReadsBack j := by
  intro fuel rest hfuel hrest
  have hpos : 0 < (render j).length := by
    obtain ⟨c, t, hct, -⟩ := h.starts
    simp [hct]
  obtain ⟨fuel, rfl⟩ := Nat.exists_eq_succ_of_ne_zero (show fuel ≠ 0 by omega)
  exact hread fuel rest hfuel hrest

/-- **What is rendered is read back.** -/
theorem Legible.readsBack (h : Legible j) : ReadsBack j := by
  induction h with
  | null =>
    refine readsBack_of_succ .null fun fuel rest _ _ => ?_
    rw [render, py_null, cons_append, parseValue, if_neg (by decide), if_neg (by decide),
      if_neg (by decide), if_pos rfl, scanLiteral_append]
  | bool b =>
    refine readsBack_of_succ (.bool b) fun fuel rest _ _ => ?_
    cases b
    · rw [render, py_false, cons_append, parseValue, if_neg (by decide), if_neg (by decide),
        if_neg (by decide), if_neg (by decide), if_neg (by decide), if_pos rfl,
        scanLiteral_append]
    · rw [render, py_true, cons_append, parseValue, if_neg (by decide), if_neg (by decide),
        if_neg (by decide), if_neg (by decide), if_pos rfl, scanLiteral_append]
  | int hz =>
    refine readsBack_of_succ (.int hz) fun fuel rest _ hrest => ?_
    rw [render]
    exact parseValue_intText hz hrest
  | float ht =>
    refine readsBack_of_succ (.float ht) fun fuel rest _ hrest => ?_
    rw [render]
    exact ht.parseValue hrest
  | str s =>
    refine readsBack_of_succ (.str s) fun fuel rest _ _ => ?_
    have hread := expectString_quote s rest
    rw [quote, py_quote, append_assoc, append_assoc, cons_append,
      nil_append] at hread
    rw [render, quote, py_quote, append_assoc, append_assoc, cons_append,
      nil_append, parseValue, if_pos rfl, hread]
    rfl
  | @arr xs h ih =>
    refine readsBack_of_succ (.arr h) fun fuel rest hfuel _ => ?_
    cases xs with
    | nil =>
      rw [render, show py "[]" = py "[" ++ py "]" from py_append "[" "]", py_open, py_close,
        append_assoc, cons_append, nil_append, parseValue, if_neg (by decide),
        if_neg (by decide), if_pos rfl]
      rfl
    | cons x xs =>
      have hstart := (h x (by simp)).starts
      obtain ⟨c, t, hct, hspace, hclose⟩ :=
        (hstart.append (renderElements xs)).append rest
      have hskip := ((hstart.append (renderElements xs)).append rest).skipSpace
      simp only [render, py_open, length_append, length_singleton] at hfuel
      have helems : parseElements fuel (render x ++ renderElements xs ++ rest) =
          .ok (x :: xs, rest) := parseElements_render ih
        (fun y hy => (h y hy).starts) (by simp only [length_append]; omega)
      rw [render, py_open, append_assoc, append_assoc, cons_append,
        nil_append, parseValue, if_neg (by decide), if_neg (by decide), if_pos rfl,
        ← append_assoc, hskip]
      rw [hct] at helems ⊢
      simp only [if_neg hclose, helems]
      rfl
  | @obj members h ih =>
    refine readsBack_of_succ (.obj h) fun fuel rest hfuel _ => ?_
    cases members with
    | nil =>
      rw [render, show py "\x7b\x7d" = py "\x7b" ++ py "\x7d" from py_append "\x7b" "\x7d",
        py_begin, py_end, append_assoc, cons_append, nil_append, parseValue,
        if_neg (by decide), if_pos rfl]
      rfl
    | cons p members =>
      obtain ⟨k, v⟩ := p
      simp only [render, py_begin, length_append, length_singleton] at hfuel
      have hmems : parseMembers fuel (quote k ++ py ":" ++ render v ++
          renderMembers members ++ rest) = .ok ((k, v) :: members, rest) :=
        parseMembers_render ih (fun q hq => (h q hq).starts)
        (by simp only [length_append]; omega)
      have hshape : quote k ++ py ":" ++ render v ++ renderMembers members ++ rest =
          ⟨0x22, by decide⟩ :: (escapeAll k ++ py "\"" ++ (py ":" ++ (render v ++
            (renderMembers members ++ rest)))) := by
        rw [quote, py_quote]
        simp only [append_assoc, cons_append, nil_append]
      have hskip : skipSpace (quote k ++ py ":" ++ render v ++ renderMembers members ++ rest) =
          quote k ++ py ":" ++ render v ++ renderMembers members ++ rest := by
        rw [hshape]
        rfl
      have htext : render (.obj ((k, v) :: members)) ++ rest = ⟨0x7B, by decide⟩ ::
          (quote k ++ py ":" ++ render v ++ renderMembers members ++ rest) := by
        rw [render, py_begin]
        simp only [append_assoc, cons_append, nil_append]
      rw [htext, parseValue, if_neg (by decide), if_pos rfl, hskip]
      rw [hshape] at hmems ⊢
      simp only [hmems]
      rfl

/-- **`json.loads` reads back the text of a legible tree**, with white space behind it. -/
theorem Legible.parse_render_append (h : Legible j) {space : PyStr} (hspace : skipSpace space = [])
    (hend : NumberEnd space) :
    parse (render j ++ space) = .ok j := by
  have hread := h.readsBack (2 * (render j ++ space).length + 1) space
    (by rw [length_append]; omega) hend
  rw [parse, (h.starts.append space).skipSpace, hread]
  show (if skipSpace space = [] then _ else _) = _
  rw [if_pos hspace]

/-- **`json.loads` reads back the text of a plain tree.** -/
theorem Plain.parse_render (h : Plain j) : parse (render j) = .ok j := by
  have hread := h.legible.parse_render_append (show skipSpace [] = [] from rfl) (by simp [NumberEnd])
  rwa [append_nil] at hread

/-- **The text of a plain tree determines it.** -/
theorem Plain.render_inj {j j' : Json} (h : Plain j) (h' : Plain j')
    (heq : render j = render j') : j = j' := by
  have hparse := h.parse_render
  rw [heq, h'.parse_render] at hparse
  exact (Except.ok.inj hparse).symm

end Json

end OvcReplay
