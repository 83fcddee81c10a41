import OvcReplay.Python.Text

/-! # SHA-256

`hashlib.sha256(text.encode("utf-8")).hexdigest()`. The development reasons about an arbitrary hash;
this one is what its concrete runs are evaluated with. Words are natural numbers below `2 ^ 32`, and
a block, a state and a digest are big-endian sequences of words packed in one number. -/

namespace OvcReplay.Python

/-- A hexadecimal digit of a digest. -/
def IsHexDigit (c : CodePoint) : Prop := ∃ n < 16, hexDigit n = c

/-- What `hexdigest` returns: 64 hexadecimal digits. -/
structure HexDigest where
  /-- The digits. -/
  text : PyStr
  length_text : text.length = 64
  isHexDigit : ∀ c ∈ text, IsHexDigit c

theorem HexDigest.ext {d d' : HexDigest} (h : d.text = d'.text) : d = d' := by
  cases d
  cases d'
  simpa using h

theorem HexDigest.encodable (d : HexDigest) : Encodable d.text := by
  intro c hc
  obtain ⟨n, -, rfl⟩ := d.isHexDigit c hc
  exact not_isSurrogate_hexDigit n

theorem HexDigest.encodable_take (d : HexDigest) (n : Nat) : Encodable (d.text.take n) :=
  fun c hc => d.encodable c (List.mem_of_mem_take hc)

namespace Sha256

variable {α : Type}

/-! The words of a round are written with the functions of `Nat` themselves, which the kernel computes
at once. -/

/-- `k n`, evaluating `n` first: a word is used several times in a round. -/
def eager (n : Nat) (k : Nat → α) : α :=
  match n with
  | 0 => k 0
  | .succ m => k (Nat.succ m)

/-- The size of a word. -/
abbrev wordSize : Nat := 4294967296

/-- Rotate right: the word is doubled, shifted and cut. -/
def rotr (x n : Nat) : Nat := Nat.mod (Nat.shiftRight (Nat.mul x 4294967297) n) wordSize

variable (x y z : Nat)

/-- Three words, bit by bit. -/
def xor3 : Nat := Nat.xor (Nat.xor x y) z

/-- Three words, added. -/
def add3 : Nat := Nat.add (Nat.add x y) z

/-- The functions of a round. -/
def bigSigma0 (x : Nat) : Nat := xor3 (rotr x 2) (rotr x 13) (rotr x 22)

@[inherit_doc bigSigma0]
def bigSigma1 (x : Nat) : Nat := xor3 (rotr x 6) (rotr x 11) (rotr x 25)

@[inherit_doc bigSigma0]
def smallSigma0 (x : Nat) : Nat := xor3 (rotr x 7) (rotr x 18) (Nat.shiftRight x 3)

@[inherit_doc bigSigma0]
def smallSigma1 (x : Nat) : Nat := xor3 (rotr x 17) (rotr x 19) (Nat.shiftRight x 10)

@[inherit_doc bigSigma0]
def choose : Nat := Nat.xor (Nat.land x y) (Nat.land (Nat.sub 4294967295 x) z)

@[inherit_doc bigSigma0]
def majority : Nat := xor3 (Nat.land x y) (Nat.land x z) (Nat.land y z)

/-- The constants of the 64 rounds. -/
def roundConstants : List Nat := [
  0x428a2f98, 0x71374491, 0xb5c0fbcf, 0xe9b5dba5, 0x3956c25b, 0x59f111f1, 0x923f82a4, 0xab1c5ed5,
  0xd807aa98, 0x12835b01, 0x243185be, 0x550c7dc3, 0x72be5d74, 0x80deb1fe, 0x9bdc06a7, 0xc19bf174,
  0xe49b69c1, 0xefbe4786, 0x0fc19dc6, 0x240ca1cc, 0x2de92c6f, 0x4a7484aa, 0x5cb0a9dc, 0x76f988da,
  0x983e5152, 0xa831c66d, 0xb00327c8, 0xbf597fc7, 0xc6e00bf3, 0xd5a79147, 0x06ca6351, 0x14292967,
  0x27b70a85, 0x2e1b2138, 0x4d2c6dfc, 0x53380d13, 0x650a7354, 0x766a0abb, 0x81c2c92e, 0x92722c85,
  0xa2bfe8a1, 0xa81a664b, 0xc24b8b70, 0xc76c51a3, 0xd192e819, 0xd6990624, 0xf40e3585, 0x106aa070,
  0x19a4c116, 0x1e376c08, 0x2748774c, 0x34b0bcb5, 0x391c0cb3, 0x4ed8aa4a, 0x5b9cca4f, 0x682e6ff3,
  0x748f82ee, 0x78a5636f, 0x84c87814, 0x8cc70208, 0x90befffa, 0xa4506ceb, 0xbef9a3f7, 0xc67178f2]

/-- Word `i` of a packed sequence, counted from its end. -/
def word (x i : Nat) : Nat := Nat.mod (Nat.shiftRight x (Nat.mul 32 i)) wordSize

/-- The rounds of a block; `window` holds the last 16 words of the message schedule. -/
def compress : List Nat → (window a b c d e f g h : Nat) → Nat
  | [], _, a, b, c, d, e, f, g, h =>
    ((((((a * wordSize + b) * wordSize + c) * wordSize + d) * wordSize + e) * wordSize + f)
      * wordSize + g) * wordSize + h
  | k :: ks, window, a, b, c, d, e, f, g, h =>
    eager (word window 15) fun w0 =>
    eager (add3 (add3 h (bigSigma1 e) (choose e f g)) k w0) fun t1 =>
    eager (Nat.mod (add3 t1 (bigSigma0 a) (majority a b c)) wordSize) fun a' =>
    eager (Nat.mod (Nat.add d t1) wordSize) fun e' =>
    eager (add3 (smallSigma1 (word window 1)) (word window 6) (smallSigma0 (word window 14)))
      fun sum =>
    eager (Nat.mod (Nat.add sum w0) wordSize) fun w16 =>
    eager (Nat.mod (Nat.add (Nat.mul window wordSize) w16) (Nat.pow 2 512)) fun window' =>
    compress ks window' a' a b c e' e f g

/-- Word-wise addition of the low `n` words. -/
def addWords (x y : Nat) : Nat → Nat
  | 0 => 0
  | n + 1 => addWords x y n + (word x n + word y n) % wordSize * 2 ^ (32 * n)

/-- The state after the low `n` blocks of the message, the highest first. -/
def digestBlocks : Nat → (message state : Nat) → Nat
  | 0, _, state => state
  | n + 1, message, state =>
    eager (compress roundConstants ((message >>> (512 * n)) % 2 ^ 512) (word state 7)
      (word state 6) (word state 5) (word state 4) (word state 3) (word state 2) (word state 1)
      (word state 0)) fun rounds =>
    eager (addWords state rounds 8) fun state' => digestBlocks n message state'

/-- The bytes of a text read after `message`, as one big-endian number, and how many were read. -/
def readText (k : (message length : Nat) → α) : PyStr → (message length : Nat) → α
  | [], message, length => k message length
  | c :: s, message, length =>
    -- the number of bytes of the code point, and the number they write
    let size := if Nat.ble c.val 0x7F then 1 else if Nat.ble c.val 0x7FF then 2
      else if Nat.ble c.val 0xFFFF then 3 else 4
    let bytes := if Nat.ble c.val 0x7F then c.val
      else if Nat.ble c.val 0x7FF then 0xC080 + c.val / 64 * 256 + c.val % 64
      else if Nat.ble c.val 0xFFFF then
        0xE08080 + c.val / 4096 * 65536 + c.val / 64 % 64 * 256 + c.val % 64
      else 0xF0808080 + c.val / 262144 * 16777216 + c.val / 4096 % 64 * 65536 +
        c.val / 64 % 64 * 256 + c.val % 64
    eager (Nat.add (Nat.mul message (Nat.pow 256 size)) bytes) fun message =>
    eager (Nat.add length size) fun length => readText k s message length

/-- `len(s.encode("utf-8"))`. -/
def utf8Length (s : PyStr) : Nat := readText (fun _ length => length) s 0 0

/-- The digest of a text: a one bit, zeros and the length fill its last block. -/
def digest (s : PyStr) : Nat :=
  readText (fun message length =>
    let blocks := (length + 72) / 64
    eager ((message * 256 + 128) * 256 ^ (64 * blocks - 1 - length) + length * 8) fun padded =>
      digestBlocks blocks padded
        0x6a09e667bb67ae853c6ef372a54ff53a510e527f9b05688c1f83d9ab5be0cd19) s 0 0

example : digest (py "abc") =
    0xba7816bf8f01cfea414140de5dae2223b00361a396177a9cb410ff61f20015ad := by
  decide +kernel

/-- The low `n` hexadecimal digits of a number. -/
def hexText (x : Nat) : Nat → PyStr
  | 0 => []
  | n + 1 => eager (Nat.mod (Nat.div x (Nat.pow 16 n)) 16) fun d => hexDigit d :: hexText x n

@[simp] theorem eager_eq (n : Nat) (k : Nat → α) : eager n k = k n := by
  cases n <;> rfl

theorem length_hexText (x n : Nat) : (hexText x n).length = n := by
  induction n with
  | zero => rfl
  | succ n ih => simp [hexText, ih]

theorem isHexDigit_of_mem_hexText {x n : Nat} : ∀ c ∈ hexText x n, IsHexDigit c := by
  induction n with
  | zero => simp [hexText]
  | succ n ih =>
    intro c hc
    rw [hexText, eager_eq] at hc
    rcases List.mem_cons.mp hc with rfl | hc
    · exact ⟨_, Nat.mod_lt _ (by decide), rfl⟩
    · exact ih c hc

/-- `hashlib.sha256(s.encode("utf-8")).hexdigest()`. -/
def hexdigest (s : PyStr) : HexDigest where
  text := eager (digest s) fun x => hexText x 64
  length_text := by rw [eager_eq, length_hexText]
  isHexDigit := by
    rw [eager_eq]
    exact isHexDigit_of_mem_hexText

end Sha256

end OvcReplay.Python
