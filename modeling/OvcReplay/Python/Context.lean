import OvcReplay.Python.Platform

/-! # The default decimal context

Sums and quotients of finite decimals with 28 digits, rounded half to even. A result that is too
large raises, as the context traps overflow; one that is too small is rounded. -/

namespace OvcReplay.Python.PyDecimal

/-- The digits of the context. -/
def precision : Nat := 28

/-- The largest exponent of a leading digit. -/
def emax : Int := 999999

/-- The smallest exponent of a last digit. -/
def etiny : Int := -1000026

/-- The number that a finite decimal is. -/
def rat : PyDecimal → Rat
  | .finite negative coefficient exponent =>
    (if negative then -1 else 1) * coefficient * (10 : Rat) ^ exponent
  | _ => 0

/-- The coefficient without its last `places` digits, rounded half to even. -/
def roundHalfEven (coefficient places : Nat) : Nat :=
  let quotient := coefficient / 10 ^ places
  let twice := 2 * (coefficient % 10 ^ places)
  if twice < 10 ^ places ∨ (twice = 10 ^ places ∧ quotient % 2 = 0) then quotient else quotient + 1

/-- `_fix`: the decimal as the context holds it. -/
def fix (negative : Bool) (coefficient : Nat) (exponent : Int) : Except PyError PyDecimal :=
  if coefficient = 0 then .ok (.finite negative 0 (min (max exponent etiny) emax))
  else
    let digits := (natText coefficient).length
    if emax < digits + exponent - 1 then .error .arithmeticError
    else
      let least := max (digits + exponent - precision) etiny
      if exponent < least then
        let rounded := roundHalfEven coefficient (least - exponent).toNat
        -- a carry into one digit too many
        if 10 ^ precision ≤ rounded then
          if emax < least + precision then .error .arithmeticError
          else .ok (.finite negative (rounded / 10) (least + 1))
        else .ok (.finite negative rounded least)
      else .ok (.finite negative coefficient exponent)

/-- The coefficient with its sign. -/
def signed (negative : Bool) (coefficient : Nat) : Int :=
  if negative then -coefficient else coefficient

/-- `x + y` of finite decimals. -/
def add : PyDecimal → PyDecimal → Except PyError PyDecimal
  | .finite s c e, .finite t d f =>
    let low := min e f
    let value := signed s c * 10 ^ (e - low).toNat + signed t d * 10 ^ (f - low).toNat
    fix (if value = 0 then s && t else decide (value < 0)) value.natAbs low
  | _, _ => .error .arithmeticError

/-- `x / n` of a finite decimal and a positive number: one digit more than the context holds, whose
last place says whether the quotient was exact. -/
def divNat : PyDecimal → Nat → Except PyError PyDecimal
  | .finite s c e, n =>
    if c = 0 then fix s 0 e
    else
      let shift : Int := (natText n).length - (natText c).length + precision + 1
      let dividend := if 0 ≤ shift then c * 10 ^ shift.toNat else c
      let divisor := if 0 ≤ shift then n else n * 10 ^ (-shift).toNat
      let quotient := dividend / divisor
      if dividend % divisor = 0 then
        let stripped := stripTo shift.toNat quotient (e - shift)
        fix s stripped.1 stripped.2
      else fix s (if quotient % 5 = 0 then quotient + 1 else quotient) (e - shift)
  | _, _ => .error .arithmeticError
where
  /-- Trailing zeros of an exact quotient, at most `fuel` of them, go into the exponent. -/
  stripTo : (fuel coefficient : Nat) → (exponent : Int) → Nat × Int
    | 0, coefficient, exponent => (coefficient, exponent)
    | fuel + 1, coefficient, exponent =>
      if coefficient % 10 = 0 then stripTo fuel (coefficient / 10) (exponent + 1)
      else (coefficient, exponent)

/-- `sum(xs, Decimal("0"))`. -/
def sum (xs : List PyDecimal) : Except PyError PyDecimal :=
  xs.foldlM add (.finite false 0 0)

/-- The larger of two decimals, the first when they are equal. -/
def larger (x y : PyDecimal) : PyDecimal := if x.rat < y.rat then y else x

/-- `max(xs)`. -/
def max? : List PyDecimal → Except PyError PyDecimal
  | [] => .error .valueError
  | x :: xs => .ok (xs.foldl larger x)

example : divNat (.finite false 2 0) 3 =
    .ok (.finite false 6666666666666666666666666667 (-28)) := by decide +kernel

end OvcReplay.Python.PyDecimal
