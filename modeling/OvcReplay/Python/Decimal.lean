import OvcReplay.Python.Value

/-! # `decimal.Decimal`

The texts of decimals, the comparison of numbers of different types, and `==` on values. The
arithmetic of the decimal context belongs to the platform. -/

namespace OvcReplay.Python

namespace PyDecimal

/-- The sign a decimal is written with. -/
def signText (negative : Bool) : PyStr := if negative then py "-" else []

/-- The digits of a coefficient with the point before its last `places` digits. -/
def fixedPoint (coefficient places : Nat) : PyStr :=
  let digits := natText coefficient
  let padded := List.replicate (places + 1 - digits.length) (hexDigit 0) ++ digits
  if places = 0 then digits
  else padded.take (padded.length - places) ++ py "." ++ padded.drop (padded.length - places)

/-- `format(d, "f")`. -/
def formatF : PyDecimal → PyStr
  | .finite negative coefficient exponent =>
    signText negative ++
      if 0 ≤ exponent then natText (coefficient * 10 ^ exponent.toNat)
      else fixedPoint coefficient (-exponent).toNat
  | .infinite negative => signText negative ++ py "Infinity"
  | .nan negative signaling diagnostic =>
    signText negative ++ py (if signaling then "sNaN" else "NaN") ++
      if diagnostic = 0 then [] else natText diagnostic

/-- Trailing zeros of the coefficient go into the exponent, at most `fuel` of them. -/
def stripZeros : (fuel coefficient : Nat) → (exponent : Int) → Nat × Int
  | 0, coefficient, exponent => (coefficient, exponent)
  | fuel + 1, coefficient, exponent =>
    if coefficient % 10 = 0 then stripZeros fuel (coefficient / 10) (exponent + 1)
    else (coefficient, exponent)

/-- `d.normalize()` of a decimal that fits the context. -/
def normalize : PyDecimal → PyDecimal
  | .finite negative coefficient exponent =>
    if coefficient = 0 then .finite negative 0 0
    else
      let stripped := stripZeros (natText coefficient).length coefficient exponent
      .finite negative stripped.1 stripped.2
  | d => d

/-- `d == 0`. -/
def isZero : PyDecimal → Bool
  | .finite _ coefficient _ => coefficient == 0
  | _ => false

example : (finite false 12500 (-4)).formatF = py "1.2500" := by decide +kernel

end PyDecimal

/-! ## `==` -/

/-- The finite number that a value is, `True` and `False` being `1` and `0`. -/
def PyVal.number? : PyVal → Option Rat
  | .bool b => some (if b then 1 else 0)
  | .int z => some z
  | .float (.finite negative mantissa exponent) =>
    some ((if negative then -1 else 1) * mantissa * (2 : Rat) ^ exponent)
  | .decimal (.finite negative coefficient exponent) =>
    some ((if negative then -1 else 1) * coefficient * (10 : Rat) ^ exponent)
  | _ => Option.none

/-- The infinity that a value is, by its sign. -/
def PyVal.infinity? : PyVal → Option Bool
  | .float (.infinite negative) => some negative
  | .decimal (.infinite negative) => some negative
  | _ => Option.none

/-- Two keys address one item. -/
def PyKey.same : PyKey → PyKey → Bool
  | .bool a, .int z => decide ((if a then 1 else 0) = z)
  | .int z, .bool b => decide (z = if b then 1 else 0)
  | k, l => k == l

namespace PyVal

/-- `v == w` for values that hold no values themselves. -/
def pyEqAtom (v w : PyVal) : Bool :=
  match v, w with
  | .none, .none => true
  | .str s, .str t => s == t
  | .other a, .other b => a == b
  | v, w =>
    match v.number?, w.number?, v.infinity?, w.infinity? with
    | some a, some b, _, _ => a == b
    | _, _, some a, some b => a == b
    | _, _, _, _ => false

mutual

/-- `v == w`. -/
def pyEq : PyVal → PyVal → Bool
  | .list xs, .list ys => pyEqList xs ys
  | .tuple xs, .tuple ys => pyEqList xs ys
  | .set xs, .set ys => xs.length == ys.length && pyEqMembers xs ys
  | .dict xs, .dict ys => xs.length == ys.length && pyEqItems xs ys
  | v, w => pyEqAtom v w

/-- The elements agree, one by one. -/
def pyEqList : List PyVal → List PyVal → Bool
  | [], [] => true
  | x :: xs, y :: ys => pyEq x y && pyEqList xs ys
  | _, _ => false

/-- Every member is one of the other set. -/
def pyEqMembers : List PyVal → List PyVal → Bool
  | [], _ => true
  | x :: xs, ys => (ys.any fun y => pyEq x y) && pyEqMembers xs ys

/-- Every item is one of the other dictionary. -/
def pyEqItems : List (PyKey × PyVal) → List (PyKey × PyVal) → Bool
  | [], _ => true
  | (k, x) :: xs, ys =>
    (match ys.find? fun q => PyKey.same q.1 k with
      | some q => pyEq x q.2
      | Option.none => false) && pyEqItems xs ys

end

end PyVal

end OvcReplay.Python
