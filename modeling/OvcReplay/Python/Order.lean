import OvcReplay.Python.Platform

/-! # Comparing numbers

The value of a double or a decimal is a rational number or an infinity, and a NaN has none. Every
comparison of doubles with a NaN is false, and every ordering of decimals with a NaN raises. `max` and `min` keep the first of the elements that no later one betters, so a NaN
in front stays and a NaN behind is passed over. -/

namespace OvcReplay.Python

open List

namespace PyFloat

/-- The extended rational number that a double is. -/
def value : PyFloat → Option (WithBot (WithTop Rat))
  | .finite negative mantissa exponent =>
    some ((((if negative then -1 else 1) * mantissa * (2 : Rat) ^ exponent : Rat) :
      WithTop Rat) : WithBot (WithTop Rat))
  | .infinite false => some ((⊤ : WithTop Rat) : WithBot (WithTop Rat))
  | .infinite true => some ⊥
  | .nan => none

/-- `x < y`. -/
def lt (x y : PyFloat) : Bool :=
  match x.value, y.value with
  | some a, some b => decide (a < b)
  | _, _ => false

/-- `x == y`. -/
def eq (x y : PyFloat) : Bool :=
  match x.value, y.value with
  | some a, some b => decide (a = b)
  | _, _ => false

variable {x y : PyFloat} {b a : WithBot (WithTop Rat)}

theorem lt_iff : x.lt y = true ↔ ∃ a b, x.value = some a ∧ y.value = some b ∧ a < b := by
  cases hx : x.value <;> cases hy : y.value <;> simp [lt, hx, hy]

theorem eq_iff : x.eq y = true ↔ ∃ a, x.value = some a ∧ y.value = some a := by
  cases hx : x.value <;> cases hy : y.value <;> simp [eq, hx, hy, eq_comm]

/-! ## `max` and `min` -/

/-- `max(xs)` and `min(xs)` of a list with this head: `better x y` says that `y` replaces `x`. -/
def best (better : PyFloat → PyFloat → Bool) (x : PyFloat) (xs : List PyFloat) : PyFloat :=
  xs.foldl (fun found y => if better found y then y else found) x

/-- The comparison of `max`, or with `smaller` that of `min`. -/
def better (smaller : Bool) (x y : PyFloat) : Bool := if smaller then y.lt x else x.lt y

/-- One value is better than the other. -/
def Exceeds (smaller : Bool) (a b : WithBot (WithTop Rat)) : Prop := if smaller then b < a else a < b

variable {smaller : Bool}

theorem better_iff : better smaller x y = true ↔
      ∃ a b, x.value = some a ∧ y.value = some b ∧ Exceeds smaller a b := by
  cases smaller
  · simpa [better, Exceeds] using lt_iff
  · rw [better, if_pos rfl, lt_iff]
    simp only [Exceeds, if_true]
    exact ⟨fun ⟨a, b, ha, hb, h⟩ => ⟨b, a, hb, ha, h⟩, fun ⟨a, b, ha, hb, h⟩ => ⟨b, a, hb, ha, h⟩⟩

theorem Exceeds.trans {c : WithBot (WithTop Rat)} (h : Exceeds smaller a b)
    (h' : Exceeds smaller b c) : Exceeds smaller a c := by
  cases smaller
  · exact lt_trans (show a < b from h) h'
  · exact lt_trans (show c < b from h') h

theorem not_exceeds_trans {c : WithBot (WithTop Rat)} (h : ¬ Exceeds smaller a b)
    (h' : ¬ Exceeds smaller b c) : ¬ Exceeds smaller a c := by
  cases smaller
  · exact not_lt_of_ge (le_trans (le_of_not_gt (show ¬ b < c from h'))
      (le_of_not_gt (show ¬ a < b from h)))
  · exact not_lt_of_ge (le_trans (le_of_not_gt (show ¬ b < a from h))
      (le_of_not_gt (show ¬ c < b from h')))

/-- Of two values none of which exceeds the other there is one. -/
theorem eq_of_not_exceeds (h : ¬ Exceeds smaller a b) (h' : ¬ Exceeds smaller b a) : a = b := by
  cases smaller
  · exact le_antisymm (le_of_not_gt (show ¬ b < a from h')) (le_of_not_gt (show ¬ a < b from h))
  · exact le_antisymm (le_of_not_gt (show ¬ b < a from h)) (le_of_not_gt (show ¬ a < b from h'))

/-- A NaN in front stays. -/
theorem value_best_of_nan (hx : x.value = none) (xs : List PyFloat) :
    (best (better smaller) x xs).value = none := by
  induction xs with
  | nil => exact hx
  | cons y xs ih =>
    have hnot : ¬ better smaller x y = true := by
      rw [better_iff]
      rintro ⟨a, b, ha, -⟩
      rw [hx] at ha
      cases ha
    rw [best, foldl_cons, if_neg hnot]
    exact ih

/-- **Nothing in the list exceeds a number that `max` returns.** -/
theorem not_exceeds_best {xs : List PyFloat} {v : WithBot (WithTop Rat)}
    (h : (best (better smaller) x xs).value = some v) (hy : y ∈ x :: xs)
    {w : WithBot (WithTop Rat)} (hw : y.value = some w) : ¬ Exceeds smaller v w := by
  induction xs generalizing x y w with
  | nil =>
    obtain rfl := mem_singleton.mp hy
    cases h.symm.trans hw
    cases smaller <;> simp [Exceeds]
  | cons z xs ih =>
    cases hx : x.value with
    | none =>
      rw [value_best_of_nan hx] at h
      cases h
    | some u =>
      by_cases hbetter : better smaller x z = true
      · -- `z` replaces `x`, which it exceeds
        rw [best, foldl_cons, if_pos hbetter] at h
        rcases mem_cons.mp hy with rfl | hy
        · obtain ⟨a, b, ha, hb, hab⟩ := better_iff.mp hbetter
          cases ha.symm.trans hw
          intro hv
          exact ih h (by simp) hb (hv.trans hab)
        · exact ih h hy hw
      · rw [best, foldl_cons, if_neg hbetter] at h
        rcases mem_cons.mp hy with rfl | hy
        · exact ih h (by simp) hw
        · rcases mem_cons.mp hy with rfl | hy
          · -- `z` does not exceed `x`, and `x` does not exceed the result
            refine not_exceeds_trans (ih h (by simp) hx) fun huw => hbetter ?_
            exact better_iff.mpr ⟨u, w, hx, hw, huw⟩
          · exact ih h (mem_cons_of_mem _ hy) hw

end PyFloat

namespace PyDecimal

/-- The extended rational number that a decimal is. -/
def value : PyDecimal → Option (WithBot (WithTop Rat))
  | .finite negative coefficient exponent =>
    some ((((if negative then -1 else 1) * coefficient * (10 : Rat) ^ exponent : Rat) :
      WithTop Rat) : WithBot (WithTop Rat))
  | .infinite false => some ((⊤ : WithTop Rat) : WithBot (WithTop Rat))
  | .infinite true => some ⊥
  | .nan _ _ _ => none

/-- `x < y`; with a NaN it raises `InvalidOperation`. -/
def lt (x y : PyDecimal) : Except PyError Bool :=
  match x.value, y.value with
  | some a, some b => .ok (decide (a < b))
  | _, _ => .error .arithmeticError

/-- `max(xs)`, or with `smaller` `min(xs)`, of a list with this head. -/
def extreme (smaller : Bool) (x : PyDecimal) (xs : List PyDecimal) : Except PyError PyDecimal :=
  xs.foldlM (fun found y => do
    let replaces ← if smaller then y.lt found else found.lt y
    return if replaces then y else found) x

end PyDecimal

/-! ## Floats

The quotient of two integers as a float, and the integer part of a float: what `timedelta` and `int`
make of a number of microseconds. -/

namespace PyFloat

/-- `n // d`, rounded to the nearest integer and to the even one of two that are as near. -/
def roundHalfEven (n d : Nat) : Nat :=
  if 2 * (n % d) < d ∨ 2 * (n % d) = d ∧ n / d % 2 = 0 then n / d else n / d + 1

/-- `n / d` of integers, correctly rounded to 53 binary digits; `n` and `d` are so small that the
quotient is neither too large for a float nor below the normal ones. -/
def ofRatio (n : Int) (d : Nat) : PyFloat :=
  if n = 0 then .finite false 0 0
  else
    let low : Int := n.natAbs.log2 - d.log2 - 53
    let scaled (e : Int) : Nat × Nat := (n.natAbs * 2 ^ (-e).toNat, d * 2 ^ e.toNat)
    -- the quotient scaled by `low` has 53 or 54 binary digits
    let e := if (scaled low).2 * 2 ^ 53 ≤ (scaled low).1 then low + 1 else low
    .finite (decide (n < 0)) (roundHalfEven (scaled e).1 (scaled e).2) e

/-- `int(x)`. -/
def trunc : PyFloat → Except PyError Int
  | .finite negative mantissa exponent =>
    let size : Nat := mantissa * 2 ^ exponent.toNat / 2 ^ (-exponent).toNat
    .ok (if negative then -size else size)
  | .infinite _ => .error .arithmeticError
  | .nan => .error .valueError

theorem div_le_roundHalfEven (n d : Nat) : n / d ≤ roundHalfEven n d := by
  unfold roundHalfEven
  split_ifs <;> omega

theorem roundHalfEven_le (n d : Nat) : roundHalfEven n d ≤ n / d + 1 := by
  unfold roundHalfEven
  split_ifs <;> omega

/-- What is below `k` by more than one unit of the fine scale is not rounded up to `k`. -/
theorem le_roundHalfEven_iff {n d k s : Nat} (hd : 0 < d) (hs : n < k * d → d < 2 ^ s) :
    k ≤ roundHalfEven (n * 2 ^ s) d / 2 ^ s ↔ k * d ≤ n := by
  rw [Nat.le_div_iff_mul_le (Nat.two_pow_pos s)]
  constructor
  · intro h
    by_contra hlt
    have hfine : d < 2 ^ s := hs (by omega)
    have hstep : (n + 1) * 2 ^ s ≤ k * d * 2 ^ s := Nat.mul_le_mul_right _ (by omega)
    have hsplit : (n + 1) * 2 ^ s = n * 2 ^ s + 2 ^ s := by ring
    have hcomm : k * 2 ^ s * d = k * d * 2 ^ s := by ring
    have hbelow : n * 2 ^ s / d < k * 2 ^ s - 1 := by
      rw [Nat.div_lt_iff_lt_mul hd, Nat.sub_mul, Nat.one_mul, hcomm]
      exact Nat.lt_sub_of_add_lt (by omega)
    exact h.not_gt ((roundHalfEven_le _ _).trans_lt (Nat.add_lt_of_lt_sub hbelow))
  · intro h
    refine le_trans ?_ (div_le_roundHalfEven _ _)
    rw [Nat.le_div_iff_mul_le hd]
    calc k * 2 ^ s * d = k * d * 2 ^ s := by ring
      _ ≤ n * 2 ^ s := Nat.mul_le_mul_right _ h

/-- `timedelta(microseconds=n).total_seconds()`. -/
def totalSeconds (n : Int) : PyFloat := ofRatio n 1000000

/-- **The whole seconds of a duration are those of its exact number of microseconds**, up to a bound
that is far below the precision of a float. -/
theorem le_trunc_totalSeconds {n k : Nat} (hk : k ≤ 2 ^ 20) :
    ∃ z, (totalSeconds n).trunc = .ok z ∧ ((k : Int) ≤ z ↔ k * 1000000 ≤ n) := by
  obtain rfl | hn := Nat.eq_zero_or_pos n
  · exact ⟨0, rfl, by omega⟩
  have hlog : 2 ^ n.log2 ≤ n := Nat.log2_self_le hn.ne'
  have hlt : n < 2 ^ (n.log2 + 1) := Nat.lt_log2_self
  obtain ⟨e, he, heq⟩ : ∃ e : Int, e ≤ n.log2 - 71 ∧ totalSeconds n = .finite false
      (roundHalfEven (n * 2 ^ (-e).toNat) (1000000 * 2 ^ e.toNat)) e := by
    have hd : Nat.log2 1000000 = 19 := by decide
    simp only [totalSeconds, ofRatio, Int.natCast_eq_zero, hn.ne', if_false, Int.natAbs_natCast, hd]
    rw [decide_eq_false (by omega)]
    refine ⟨_, ?_, rfl⟩
    split_ifs <;> omega
  refine ⟨_, by rw [heq]; rfl, ?_⟩
  simp only [Bool.false_eq_true, if_false, Nat.cast_le]
  rcases le_or_gt e 0 with hle | hgt
  · rw [Int.toNat_of_nonpos hle, pow_zero, mul_one, mul_one]
    refine le_roundHalfEven_iff (by omega) fun hlow => ?_
    have hsmall : n.log2 < 40 := by
      by_contra hge
      have := Nat.pow_le_pow_right (n := 2) (by omega) (not_lt.mp hge)
      omega
    calc 1000000 < 2 ^ 20 := by decide
      _ ≤ 2 ^ (-e).toNat := Nat.pow_le_pow_right (by omega) (by omega)
  · -- the duration is longer than the bound on either side
    have hlarge : 2 ^ 72 ≤ n := (Nat.pow_le_pow_right (by omega) (by omega)).trans hlog
    have hzero : (-e).toNat = 0 := by omega
    rw [hzero, pow_zero, mul_one, Nat.div_one]
    have hmantissa : 2 ^ 51 ≤ roundHalfEven n (1000000 * 2 ^ e.toNat) := by
      refine le_trans ?_ (div_le_roundHalfEven _ _)
      rw [Nat.le_div_iff_mul_le (by positivity)]
      calc 2 ^ 51 * (1000000 * 2 ^ e.toNat) ≤ 2 ^ 51 * (2 ^ 20 * 2 ^ e.toNat) := by gcongr; decide
        _ = 2 ^ (71 + e.toNat) := by ring
        _ ≤ 2 ^ n.log2 := Nat.pow_le_pow_right (by omega) (by omega)
        _ ≤ n := hlog
    have hscale := Nat.le_mul_of_pos_right (roundHalfEven n (1000000 * 2 ^ e.toNat))
      (Nat.two_pow_pos e.toNat)
    constructor <;> intro <;> omega

example : (totalSeconds 7200000000).trunc = .ok 7200 := by decide +kernel

end PyFloat

/-- `int(d)` of a Decimal. -/
def PyDecimal.trunc : PyDecimal → Except PyError Int
  | .finite negative coefficient exponent =>
    let size : Nat := coefficient * 10 ^ exponent.toNat / 10 ^ (-exponent).toNat
    .ok (if negative then -size else size)
  | .infinite _ => .error .arithmeticError
  | .nan .. => .error .valueError

/-- `v == z` for an integer `z`; a signaling NaN raises. -/
def PyVal.eqInt (v : PyVal) (z : Int) : Except PyError Bool :=
  match v with
  | .bool b => .ok (decide ((if b then 1 else 0) = z))
  | .int y => .ok (decide (y = z))
  | .float x => .ok (decide (x.value = some (((z : Rat) : WithTop Rat) : WithBot (WithTop Rat))))
  | .decimal (.nan _ true _) => .error .arithmeticError
  | .decimal d => .ok (decide (d.value = some (((z : Rat) : WithTop Rat) : WithBot (WithTop Rat))))
  | _ => .ok false

end OvcReplay.Python
