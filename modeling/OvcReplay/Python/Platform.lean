import OvcReplay.Python.Sha256
import OvcReplay.Python.Decimal

/-! # The platform

What the modelled functions take from the standard library and do not define themselves: the hash,
the texts that `str` and `json.dumps` give to values that are no text, the Unicode tables, the
reading of dates and the arithmetic of decimals. -/

namespace OvcReplay.Python

/-- A built-in exception. -/
inductive PyError where
  | keyError
  | typeError
  | valueError
  | unicodeEncodeError
  | attributeError
  | indexError
  | arithmeticError
  deriving DecidableEq, Repr

/-- `except (TypeError, ValueError)` catches it; `UnicodeEncodeError` is a `ValueError`. -/
def PyError.isTypeOrValueError : PyError → Bool
  | .typeError => true
  | .valueError => true
  | .unicodeEncodeError => true
  | _ => false

/-- A `datetime`; aware ones are compared by their instants. -/
structure Datetime where
  /-- `utcoffset()` in microseconds, absent for a naive one. -/
  utcOffset : Option Int
  /-- Microseconds since the start of 1970, in universal time. -/
  instant : Int
  deriving DecidableEq, Repr

/-- A weekday, Monday being `0`, and a time of the day. -/
structure LocalClock where
  weekday : Nat
  hour : Nat
  minute : Nat
  second : Nat
  microsecond : Nat
  deriving DecidableEq, Repr

/-- The functions of the standard library that the model leaves open. -/
structure Platform where
  /-- `hashlib.sha256(s.encode("utf-8")).hexdigest()`, for an `s` that can be encoded. -/
  sha256 : PyStr → HexDigest
  /-- `str(v)` of a value that is no `str`: `repr` escapes what cannot be encoded. -/
  reprText : PyVal → Except PyError {s : PyStr // Encodable s}
  /-- `json.dumps(v, sort_keys=True, default=str)`. -/
  dumpsDefault : PyVal → Except PyError PyStr
  /-- `sorted(xs)` of values that are not all texts. -/
  sortValues : List PyVal → Except PyError (List PyVal)
  /-- `unicodedata.is_normalized("NFC", s)`. -/
  isNormalizedNfc : PyStr → Bool
  isNormalizedNfc_of_isAscii : ∀ s, IsAscii s → isNormalizedNfc s = true
  /-- `datetime.fromisoformat(s)`, without a value where it raises `ValueError`. -/
  fromIsoFormat : PyStr → Option Datetime
  /-- `isoformat()` of an instant in universal time, without its offset. -/
  isoText : Int → PyStr
  /-- The weekday and the clock of an instant in a time zone; an unknown zone raises. -/
  localClock : PyStr → Int → Except PyError LocalClock
  /-- `float(z)`. -/
  floatOfInt : Int → Except PyError PyFloat
  /-- `Decimal(s)`, without a value where it raises `InvalidOperation`. -/
  decimalOf : PyStr → Option PyDecimal
  /-- `x - y` in the default context. -/
  decimalSub : PyDecimal → PyDecimal → Except PyError PyDecimal

namespace Reference

/-! The functions of concrete runs, on the texts that such runs meet. -/

/-- The digits of a text, read as one number. -/
def readNat (s : PyStr) : Option Nat :=
  if s ≠ [] ∧ (s.all fun c => Nat.ble 48 c.val && Nat.ble c.val 57) then
    some (s.foldl (fun n c => 10 * n + (c.val - 48)) 0)
  else none

/-- A day of the proleptic Gregorian calendar, counted from the first of March before year 1. -/
def days (year month day : Nat) : Nat :=
  let y := if month ≤ 2 then year - 1 else year
  let m := if month ≤ 2 then month + 9 else month - 3
  365 * y + y / 4 - y / 100 + y / 400 + (153 * m + 2) / 5 + day

/-- Microseconds from the first day that is counted to the start of 1970. -/
def epoch : Int := 719469 * 86400 * 1000000

/-- `YYYY-MM-DDTHH:MM:SS+00:00`, for days and times that exist in every month. -/
def readDatetime (s : PyStr) : Option Datetime := do
  let field := fun start stop => readNat ((s.take stop).drop start)
  let year ← field 0 4
  let month ← field 5 7
  let day ← field 8 10
  let hour ← field 11 13
  let minute ← field 14 16
  let second ← field 17 19
  if 1 ≤ year ∧ 1 ≤ month ∧ month ≤ 12 ∧ 1 ≤ day ∧ day ≤ 28 ∧ hour < 24 ∧ minute < 60 ∧ second < 60
      ∧ s.drop 19 = py "+00:00" ∧ (s.drop 4).take 1 = py "-" ∧ (s.drop 7).take 1 = py "-"
      ∧ (s.drop 10).take 1 = py "T" ∧ (s.drop 13).take 1 = py ":" ∧ (s.drop 16).take 1 = py ":" then
    return ⟨some 0,
      1000000 * (((days year month day * 24 + hour) * 60 + minute) * 60 + second) - epoch⟩
  else none

/-- A number with at least `width` digits. -/
def padded (width n : Nat) : PyStr :=
  List.replicate (width - (natText n).length) (hexDigit 0) ++ natText n

/-- The year, month and day of a number of days. -/
def civil (d : Nat) : Nat × Nat × Nat :=
  -- 146097 days are 400 years; a year starts in March
  let n := d - 1
  let era := n / 146097
  let dayOfEra := n % 146097
  let yearOfEra := (dayOfEra - dayOfEra / 1460 + dayOfEra / 36524 - dayOfEra / 146096) / 365
  let dayOfYear := dayOfEra - (365 * yearOfEra + yearOfEra / 4 - yearOfEra / 100)
  let m := (5 * dayOfYear + 2) / 153
  let month := if m < 10 then m + 3 else m - 9
  (era * 400 + yearOfEra + (if month ≤ 2 then 1 else 0), month,
    dayOfYear - (153 * m + 2) / 5 + 1)

/-- `YYYY-MM-DDTHH:MM:SS`, with the microseconds when there are some. -/
def writeDatetime (instant : Int) : PyStr :=
  let micros := (instant + epoch).toNat
  let seconds := micros / 1000000
  let (year, month, day) := civil (seconds / 86400)
  padded 4 year ++ py "-" ++ padded 2 month ++ py "-" ++ padded 2 day ++ py "T" ++
    padded 2 (seconds / 3600 % 24) ++ py ":" ++ padded 2 (seconds / 60 % 60) ++ py ":" ++
    padded 2 (seconds % 60) ++
    if micros % 1000000 = 0 then [] else py "." ++ padded 6 (micros % 1000000)

/-- The clock in New York outside the months of daylight saving time. -/
def winterClock (zone : PyStr) (instant : Int) : Except PyError LocalClock :=
  if zone = py "America/New_York" then
    let seconds := ((instant + epoch) / 1000000).toNat - 18000
    .ok ⟨(seconds / 86400 + 1) % 7, seconds / 3600 % 24, seconds / 60 % 60, seconds % 60,
      (instant % 1000000).toNat⟩
  else .error .keyError

/-- A plain numeral: digits with at most one point among them. -/
def readDecimal (s : PyStr) : Option PyDecimal :=
  let whole := s.takeWhile fun c => c ≠ ⟨46, by decide⟩
  let places := (s.drop whole.length).drop 1
  (readNat (whole ++ places)).map fun n => .finite false n (-places.length)

/-- The difference of two finite decimals that the context represents exactly. -/
def subtract (x y : PyDecimal) : Except PyError PyDecimal :=
  match x, y with
  | .finite s c e, .finite t d f =>
    let low := min e f
    let value : Int := (if s then -1 else 1) * c * 10 ^ (e - low).toNat -
      (if t then -1 else 1) * d * 10 ^ (f - low).toNat
    if value.natAbs < 10 ^ 28 then .ok (.finite (decide (value < 0)) value.natAbs low)
    else .error .arithmeticError
  | _, _ => .error .arithmeticError

/-- The text of a literal. -/
def literalText : PyVal → Except PyError {s : PyStr // Encodable s}
  | .none => .ok ⟨py "None", encodable_py _⟩
  | .bool true => .ok ⟨py "True", encodable_py _⟩
  | .bool false => .ok ⟨py "False", encodable_py _⟩
  | .int z => .ok ⟨intText z, (isAscii_intText z).encodable⟩
  | _ => .error .valueError

end Reference

/-- The platform of concrete runs. -/
def Platform.reference : Platform where
  sha256 := Sha256.hexdigest
  reprText := Reference.literalText
  dumpsDefault _ := .error .valueError
  sortValues _ := .error .typeError
  isNormalizedNfc s := decide (IsAscii s)
  isNormalizedNfc_of_isAscii _ h := decide_eq_true h
  fromIsoFormat := Reference.readDatetime
  isoText := Reference.writeDatetime
  localClock := Reference.winterClock
  floatOfInt z := .ok (.finite (decide (z < 0)) z.natAbs 0)
  decimalOf := Reference.readDecimal
  decimalSub := Reference.subtract

/-- No two of these texts share a hash. -/
def Platform.CollisionFreeOn (P : Platform) (texts : PyStr → Prop) : Prop :=
  ∀ s t, texts s → texts t → P.sha256 s = P.sha256 t → s = t

variable (P : Platform)

/-- Longer integers are refused by `int.__repr__`. -/
def maxStrDigits : Nat := 4300

/-- `str(z)`. -/
def strInt (z : Int) : Except PyError PyStr :=
  if z.natAbs < 10 ^ maxStrDigits then .ok (intText z) else .error .valueError

theorem strInt_ok {z : Int} {t : PyStr} :
    strInt z = .ok t ↔ z.natAbs < 10 ^ maxStrDigits ∧ intText z = t := by
  by_cases h : z.natAbs < 10 ^ maxStrDigits <;> simp [strInt, h]

/-- `str(v)`. -/
def PyVal.strOf : PyVal → Except PyError PyStr
  | .str s => .ok s
  | v => (P.reprText v).map Subtype.val

@[simp] theorem PyVal.strOf_str (s : PyStr) : PyVal.strOf P (.str s) = .ok s := rfl

/-- The text of a value that is no `str` can be encoded. -/
theorem PyVal.encodable_strOf {v : PyVal} {t : PyStr} (h : PyVal.strOf P v = .ok t)
    (hv : ∀ s, v = .str s → Encodable s) : Encodable t := by
  have hrepr : ∀ w, (P.reprText w).map Subtype.val = .ok t → Encodable t := by
    intro w hw
    cases hr : P.reprText w with
    | error e => simp [hr, Except.map] at hw
    | ok s =>
      simp only [hr, Except.map, Except.ok.injEq] at hw
      exact hw ▸ s.2
  cases v with
  | str s =>
    rw [PyVal.strOf_str, Except.ok.injEq] at h
    exact h ▸ hv s rfl
  | _ => exact hrepr _ h

/-- `v[k]` for a text `k`: only a mapping is subscripted by a text. -/
def PyVal.subscript (v : PyVal) (k : PyStr) : Except PyError PyVal :=
  match v with
  | .dict _ =>
    match v.get? k with
    | some w => .ok w
    | Option.none => .error .keyError
  | _ => .error .typeError

/-- `str(k)` of a dictionary key. -/
def PyKey.strOf : PyKey → Except PyError PyStr
  | .str s => .ok s
  | .none => .ok (py "None")
  | .bool true => .ok (py "True")
  | .bool false => .ok (py "False")
  | .int z => strInt z
  | .other t => .ok t

/-- `s.encode("utf-8")`; the bytes are represented by the text. -/
def encodeUtf8 (s : PyStr) : Except PyError PyStr :=
  if Encodable s then .ok s else .error .unicodeEncodeError

theorem encodeUtf8_ok {s t : PyStr} : encodeUtf8 s = .ok t ↔ Encodable s ∧ s = t := by
  by_cases h : Encodable s <;> simp [encodeUtf8, h]

/-! ## Iterating over a value

What `for x in v` gives of a value that is a container or a text, up to what the loop makes of the
members. -/

/-- `[str(x) for x in v]`. -/
def PyVal.eachText (P : Platform) : PyVal → Except PyError (List PyStr)
  | .list xs => xs.mapM (PyVal.strOf P)
  | .tuple xs => xs.mapM (PyVal.strOf P)
  | .set xs => xs.mapM (PyVal.strOf P)
  | .str s => .ok (s.map fun c => [c])
  | .dict items => items.mapM fun (p : PyKey × PyVal) => p.1.strOf
  | _ => .error .typeError

/-- `list(v) == texts`. -/
def PyVal.listIs (v : PyVal) (texts : List PyStr) : Except PyError Bool :=
  match v with
  | .list xs => .ok (decide (xs = texts.map .str))
  | .tuple xs => .ok (decide (xs = texts.map .str))
  | .set xs => .ok (decide (xs = texts.map .str))
  | .str s => .ok (decide (s.map (fun c => [c]) = texts))
  | .dict items => .ok (decide (Dict.keys items = texts.map PyKey.str))
  | _ => .error .typeError

/-- The members of `v` that a loop visits; a member that is no mapping stands for any other, as only
`get` is called on the members. -/
def PyVal.eachMapping : PyVal → Except PyError (List PyVal)
  | .list xs => .ok xs
  | .tuple xs => .ok xs
  | .set xs => .ok xs
  | .str s => .ok (s.map fun _ => .none)
  | .dict items => .ok (items.map fun _ => .none)
  | _ => .error .typeError

/-- `v.get(k, default)`. -/
def PyVal.getOr (v : PyVal) (k : PyStr) (default : PyVal) : Except PyError PyVal :=
  if v.isMapping = true then .ok ((v.get? k).getD default) else .error .attributeError

end OvcReplay.Python
