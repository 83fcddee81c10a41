import Mathlib

/-! # Python text

A Python `str` is a sequence of code points, lone surrogates included. `PyStr` keeps them, because
`str.encode("utf-8")` raises exactly on the texts that hold one. A `bytes` value obtained by encoding
a text is represented by that text: UTF-8 is a bijection between surrogate-free texts and their
encodings, so equality, hashing input and concatenation are the same on both sides. -/

namespace OvcReplay.Python

open List

/-- A Unicode code point, surrogates included. -/
abbrev CodePoint : Type := Fin 0x110000

/-- A Python `str`. Its order is the code-point order of `sorted` and `<`. -/
abbrev PyStr : Type := List CodePoint

namespace PyStr

/-- `s == t`, comparing the numbers of the code points. -/
def beq : PyStr → PyStr → Bool
  | [], [] => true
  | c :: s, d :: t => Nat.beq c.val d.val && beq s t
  | _, _ => false

theorem beq_iff (s t : PyStr) : beq s t = true ↔ s = t := by
  induction s generalizing t with
  | nil => cases t <;> simp [beq]
  | cons c s ih => cases t <;> simp [beq, ih, Fin.ext_iff]

/-- Texts are compared often and are long, so their equality is decided by a Boolean loop. -/
instance : DecidableEq PyStr := fun s t => decidable_of_iff (beq s t = true) (beq_iff s t)

/-- `==` on texts, as membership in a list uses it, is equality. -/
instance : LawfulBEq PyStr := inferInstanceAs (LawfulBEq (List CodePoint))

/-- `==` on triples of texts is equality. -/
instance : LawfulBEq (PyStr × PyStr × PyStr) := inferInstance

end PyStr

/-- The code point of a Lean character (never a surrogate). -/
def CodePoint.ofChar (c : Char) : CodePoint := ⟨c.toNat, by
  rcases c.valid with h | h
  · exact lt_trans h (by decide)
  · exact h.2⟩

/-- The value of the code point of a character. -/
@[simp] theorem CodePoint.val_ofChar (c : Char) : (CodePoint.ofChar c).val = c.toNat := rfl

theorem CodePoint.ofChar_injective : Function.Injective CodePoint.ofChar := by
  intro c d h
  have hval : c.toNat = d.toNat := by simpa using congrArg Fin.val h
  exact Char.ext (UInt32.toNat_inj.mp hval)

/-- The code point of an ASCII byte. -/
def CodePoint.ofByte (b : UInt8) : CodePoint := ⟨b.toNat, lt_trans b.toNat_lt (by decide)⟩

theorem CodePoint.ofByte_injective : Function.Injective CodePoint.ofByte := by
  intro a b h
  exact UInt8.toNat_inj.mp (by simpa [ofByte] using congrArg Fin.val h)

/-- The Python text of an ASCII string literal, read off its bytes. -/
def py (s : String) : PyStr := s.toByteArray.data.toList.map CodePoint.ofByte

/-- Two literals are the same text iff they are the same string. -/
@[simp] theorem py_inj {s t : String} : py s = py t ↔ s = t := by
  constructor
  · intro h
    have hbytes := map_injective_iff.mpr CodePoint.ofByte_injective h
    exact String.toByteArray_inj.mp (ByteArray.ext (Array.toList_inj.mp hbytes))
  · rintro rfl
    rfl

/-- The empty literal is the empty text. -/
@[simp] theorem py_eq_nil {s : String} : py s = [] ↔ s = "" := by
  rw [show ([] : PyStr) = py "" from rfl, py_inj]

theorem py_append (s t : String) : py (s ++ t) = py s ++ py t := by
  simp [py, String.toByteArray_append]

/-! ## Encoding -/

/-- The surrogate code points, which UTF-8 does not encode. -/
def CodePoint.IsSurrogate (c : CodePoint) : Prop := 0xD800 ≤ c.val ∧ c.val ≤ 0xDFFF

instance (c : CodePoint) : Decidable c.IsSurrogate := inferInstanceAs (Decidable (_ ∧ _))

/-- `s.encode("utf-8")` returns: no code point of `s` is a surrogate. -/
def Encodable (s : PyStr) : Prop := ∀ c ∈ s, ¬ c.IsSurrogate

-- a Boolean loop, so that long texts are checked without nesting
instance (s : PyStr) : Decidable (Encodable s) :=
  decidable_of_iff
    ((s.all fun c => !(Nat.ble 0xD800 c.val && Nat.ble c.val 0xDFFF)) = true) (by
      simp only [Encodable, CodePoint.IsSurrogate, all_eq_true, Bool.not_eq_true',
        ← Bool.not_eq_true, Bool.and_eq_true, Nat.ble_eq])

@[simp] theorem encodable_nil : Encodable [] := by simp [Encodable]

variable {s t : PyStr} {c : CodePoint}

@[simp] theorem encodable_cons : Encodable (c :: s) ↔ ¬ c.IsSurrogate ∧ Encodable s := by
  simp [Encodable]

@[simp] theorem encodable_append : Encodable (s ++ t) ↔ Encodable s ∧ Encodable t :=
  forall_mem_append

/-- Every literal can be encoded. -/
@[simp] theorem encodable_py (s : String) : Encodable (py s) := by
  rintro c hc ⟨hle, -⟩
  obtain ⟨b, -, rfl⟩ := mem_map.mp hc
  have hlt := b.toNat_lt
  simp only [CodePoint.ofByte] at hle
  omega

/-! ## ASCII -/

/-- Every code point is below 128. -/
def IsAscii (s : PyStr) : Prop := ∀ c ∈ s, c.val < 128

instance (s : PyStr) : Decidable (IsAscii s) :=
  decidable_of_iff ((s.all fun c => decide (c.val < 128)) = true) (by simp [IsAscii])

@[simp] theorem isAscii_nil : IsAscii [] := by simp [IsAscii]

@[simp] theorem isAscii_cons : IsAscii (c :: s) ↔ c.val < 128 ∧ IsAscii s := by
  simp [IsAscii]

@[simp] theorem isAscii_append : IsAscii (s ++ t) ↔ IsAscii s ∧ IsAscii t :=
  forall_mem_append

/-- ASCII text can be encoded. -/
theorem IsAscii.encodable (h : IsAscii s) : Encodable s := by
  intro c hc hs
  have hlt := h c hc
  have hle := hs.1
  omega

/-! ## Digits -/

/-- A hexadecimal digit, lower case. -/
def hexDigit (n : Nat) : CodePoint :=
  if h : n < 10 then ⟨48 + n, by omega⟩ else ⟨87 + n % 16, by omega⟩

theorem not_isSurrogate_hexDigit (n : Nat) : ¬ (hexDigit n).IsSurrogate := by
  rintro ⟨h, -⟩
  unfold hexDigit at h
  split at h <;> simp only at h <;> omega

/-- The decimal digits of a natural number. -/
def natText (n : Nat) : PyStr := (Nat.toDigits 10 n).map CodePoint.ofChar

/-- `int.__repr__`. -/
def intText : Int → PyStr
  | .ofNat n => natText n
  | .negSucc n => py "-" ++ natText (n + 1)

theorem isAscii_natText (n : Nat) : IsAscii (natText n) := by
  intro c hc
  obtain ⟨d, hd, rfl⟩ := mem_map.mp hc
  have hdigit := Nat.isDigit_of_mem_toDigits (by decide) (by decide) hd
  rw [CodePoint.val_ofChar]
  simp only [Char.isDigit, Bool.and_eq_true, decide_eq_true_eq] at hdigit
  have hle : d.toNat ≤ 57 := hdigit.2
  omega

theorem isAscii_intText (z : Int) : IsAscii (intText z) := by
  cases z with
  | ofNat n => exact isAscii_natText n
  | negSucc n => exact isAscii_append.mpr ⟨by decide +kernel, isAscii_natText (n + 1)⟩

/-! ## `str.strip` and `str.lower`

A text without the white space at its ends, the code points that count as white space, and the lower
case of the letters of ASCII. -/

/-- `c.isspace()`. -/
def CodePoint.isSpace (c : CodePoint) : Bool :=
  (Nat.ble 0x09 c.val && Nat.ble c.val 0x0D) || (Nat.ble 0x1C c.val && Nat.ble c.val 0x20) ||
    c.val == 0x85 || c.val == 0xA0 || c.val == 0x1680 ||
    (Nat.ble 0x2000 c.val && Nat.ble c.val 0x200A) || c.val == 0x2028 || c.val == 0x2029 ||
    c.val == 0x202F || c.val == 0x205F || c.val == 0x3000

theorem val_add_lt (h : 65 ≤ c.val ∧ c.val ≤ 90) : c.val + 32 < 0x110000 := by
  omega

/-- The lower case of a capital letter of ASCII; other code points stay. -/
def CodePoint.lowerAscii (c : CodePoint) : CodePoint :=
  if h : 65 ≤ c.val ∧ c.val ≤ 90 then ⟨c.val + 32, val_add_lt h⟩ else c

/-- `s.strip()`. -/
def strip (s : PyStr) : PyStr := (s.dropWhile CodePoint.isSpace).rdropWhile CodePoint.isSpace

/-- A prefix of a text that starts with no white space starts with none. -/
theorem dropWhile_eq_self_of_prefix {p : CodePoint → Bool} (h : t <+: s)
    (hs : s.dropWhile p = s) : t.dropWhile p = t := by
  cases t with
  | nil => rfl
  | cons c t =>
    obtain ⟨u, rfl⟩ := h
    rw [cons_append] at hs
    rw [dropWhile_eq_self_iff] at hs ⊢
    intro hpos
    have hc := hs (by simp)
    simpa using hc

/-- **What was stripped has nothing left to strip.** -/
@[simp] theorem strip_strip (s : PyStr) : strip (strip s) = strip s := by
  have hleft : (strip s).dropWhile CodePoint.isSpace = strip s := by
    have hpre := rdropWhile_prefix CodePoint.isSpace (s.dropWhile CodePoint.isSpace)
    refine dropWhile_eq_self_of_prefix hpre ?_
    exact dropWhile_idempotent CodePoint.isSpace s
  rw [strip, hleft, strip]
  exact rdropWhile_idempotent _ _

end OvcReplay.Python
