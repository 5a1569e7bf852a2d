import Mathlib.Tactic.Ring
/-!
# Big-endian byte strings

`beBytes n v` is the `n`-byte big-endian form of `v` (the bytes above it are cut off) and
`ofBe l` the number a byte string of any length denotes.

* `ofBe_beBytes`, `beBytes_ofBe` — the two are inverse up to the width.
* `drop_beBytes` — a suffix of a big-endian word is the narrower word.
* `FixedBytes n` — byte strings whose length is part of the type.
* `hexEncode` — lower-case hexadecimal.
-/

namespace BigEndian

/-- The `n` low bytes of `v`, most significant first. -/
def beBytes : Nat → Nat → List UInt8
  | 0, _ => []
  | n + 1, v => UInt8.ofNat (v / 256 ^ n) :: beBytes n v

/-- The number a big-endian byte string denotes. -/
def ofBe : List UInt8 → Nat
  | [] => 0
  | b :: l => b.toNat * 256 ^ l.length + ofBe l

@[simp] theorem length_beBytes (n v : Nat) : (beBytes n v).length = n := by
  induction n with
  | zero => rfl
  | succ n ih => simp [beBytes, ih]

theorem ofBe_lt (l : List UInt8) : ofBe l < 256 ^ l.length := by
  induction l with
  | nil => simp [ofBe]
  | cons b l ih =>
    have hb : b.toNat < 256 := b.toNat_lt
    have h : (b.toNat + 1) * 256 ^ l.length ≤ 256 * 256 ^ l.length := Nat.mul_le_mul_right _ hb
    simp only [ofBe, List.length_cons, Nat.pow_succ']
    rw [Nat.add_mul, Nat.one_mul] at h
    omega

/-- Reading back an `n`-byte word gives the value modulo its width. -/
theorem ofBe_beBytes (n v : Nat) : ofBe (beBytes n v) = v % 256 ^ n := by
  induction n with
  | zero => simp [beBytes, ofBe, Nat.mod_one]
  | succ n ih =>
    have hb : (UInt8.ofNat (v / 256 ^ n)).toNat = v / 256 ^ n % 256 := UInt8.toNat_ofNat'
    simp only [beBytes, ofBe, length_beBytes, ih, hb]
    rw [Nat.pow_succ, Nat.mod_mul, Nat.mul_comm, Nat.add_comm]

theorem ofBe_beBytes_of_lt {n v : Nat} (h : v < 256 ^ n) : ofBe (beBytes n v) = v := by
  rw [ofBe_beBytes, Nat.mod_eq_of_lt h]

/-- Only the part of `v` within the width matters. -/
theorem beBytes_mod (n m v : Nat) (h : n ≤ m) : beBytes n (v % 256 ^ m) = beBytes n v := by
  induction n with
  | zero => rfl
  | succ n ih =>
    obtain ⟨k, rfl⟩ := Nat.exists_eq_add_of_le h
    simp only [beBytes, ih (by omega)]
    congr 1
    rw [show n + 1 + k = n + (k + 1) by omega, Nat.pow_add, Nat.mod_mul_right_div_self]
    apply UInt8.toNat_inj.1
    simp only [UInt8.toNat_ofNat']
    rw [Nat.pow_succ', show (2 : Nat) ^ 8 = 256 by rfl, Nat.mod_mul_right_mod]

/-- Writing back what a byte string denotes gives the byte string. -/
theorem beBytes_ofBe (l : List UInt8) : beBytes l.length (ofBe l) = l := by
  induction l with
  | nil => rfl
  | cons b l ih =>
    have hl := ofBe_lt l
    have hpos : 0 < 256 ^ l.length := Nat.pow_pos (by decide)
    have hq : (b.toNat * 256 ^ l.length + ofBe l) / 256 ^ l.length = b.toNat := by
      rw [Nat.mul_comm, Nat.mul_add_div hpos, Nat.div_eq_of_lt hl, Nat.add_zero]
    have hr : (b.toNat * 256 ^ l.length + ofBe l) % 256 ^ l.length = ofBe l := by
      rw [Nat.mul_comm, Nat.mul_add_mod, Nat.mod_eq_of_lt hl]
    simp only [List.length_cons, beBytes, ofBe, hq, UInt8.ofNat_toNat]
    congr 1
    rw [← beBytes_mod _ l.length _ (Nat.le_refl _), hr, ih]

/-- Dropping the leading bytes of a word leaves the narrower word. -/
theorem drop_beBytes (k n v : Nat) : (beBytes (k + n) v).drop k = beBytes n v := by
  induction k with
  | zero => simp
  | succ k ih =>
    rw [show k + 1 + n = (k + n) + 1 by omega]
    simp only [beBytes, List.drop_succ_cons, ih]

/-! ## Byte strings of a fixed length -/

/-- A byte string of length `n`. -/
structure FixedBytes (n : Nat) where
  bytes : List UInt8
  length_bytes : bytes.length = n
deriving DecidableEq

namespace FixedBytes

variable {n : Nat}

theorem ext_bytes {a b : FixedBytes n} (h : a.bytes = b.bytes) : a = b := by
  cases a; cases b; simpa using h

/-- The number a string denotes determines it. -/
theorem ofBe_bytes_inj {a b : FixedBytes n} : ofBe a.bytes = ofBe b.bytes ↔ a = b := by
  constructor
  · intro h
    have ha := beBytes_ofBe a.bytes
    have hb := beBytes_ofBe b.bytes
    rw [a.length_bytes] at ha
    rw [b.length_bytes] at hb
    rw [h] at ha
    exact ext_bytes (ha.symm.trans hb)
  · rintro rfl
    rfl

/-- The all-zero string. -/
def zero (n : Nat) : FixedBytes n := ⟨List.replicate n 0, by simp⟩

def isZero (b : FixedBytes n) : Bool := b.bytes.all (· == 0)

theorem isZero_iff (b : FixedBytes n) : b.isZero = true ↔ b = zero n := by
  simp only [isZero, List.all_eq_true, beq_iff_eq]
  constructor
  · intro h
    exact ext_bytes (List.eq_replicate_iff.2 ⟨b.length_bytes, h⟩)
  · rintro rfl x hx
    exact List.eq_of_mem_replicate hx

end FixedBytes

/-! ## Hexadecimal -/

def hexDigit (d : Nat) : Char := "0123456789abcdef".toList.getD d '0'

/-- Two lower-case digits a byte. -/
def hexEncode (l : List UInt8) : String :=
  String.ofList (l.flatMap fun b => [hexDigit (b.toNat / 16), hexDigit (b.toNat % 16)])

end BigEndian
