import EtheraBundler.Lib.BigEndian
import EtheraBundler.Lib.Schema
/-!
# Hex strings

* `quantity`, `ofQuantity` — a number, in as few digits as it takes.
* `ofQuantity_quantity`, `minimal_quantity` — **round trip**, and no leading zero.
* `ofData`, `ofData_hexEncode` — bytes, two digits each, and their round trip.
* `Codec.quantity`, `Codec.data`, `Codec.fixed` — both as JSON strings, and lawful.
-/

namespace Hex

open BigEndian Wire

/-! ## Digits -/

def digitVal (c : Char) : Option Nat :=
  if 48 ≤ c.toNat ∧ c.toNat ≤ 57 then some (c.toNat - 48)
  else if 97 ≤ c.toNat ∧ c.toNat ≤ 102 then some (c.toNat - 87)
  else if 65 ≤ c.toNat ∧ c.toNat ≤ 70 then some (c.toNat - 55)
  else none

theorem digitVal_digitChar : ∀ {d : Nat}, d < 16 → digitVal (Nat.digitChar d) = some d := by decide

theorem digitVal_hexDigit : ∀ {d : Nat}, d < 16 → digitVal (hexDigit d) = some d := by decide

def ofDigits (cs : List Char) : Option Nat := cs.foldlM (fun n c => (digitVal c).map (16 * n + ·)) 0

theorem ofDigits_toDigits (n : Nat) : ofDigits (Nat.toDigits 16 n) = some n := by
  induction n using Nat.strongRecOn with
  | ind n ih =>
    rw [Nat.toDigits_eq_if (by decide)]
    by_cases hn : n < 16
    · rw [if_pos hn]
      simp [ofDigits, digitVal_digitChar hn]
    · have hdiv := ih (n / 16) (by omega)
      have hmod : n % 16 < 16 := Nat.mod_lt n (by decide)
      rw [if_neg hn, ofDigits, List.foldlM_append]
      rw [ofDigits] at hdiv
      rw [hdiv]
      have hsum : 16 * (n / 16) + n % 16 = n := Nat.div_add_mod n 16
      simp [digitVal_digitChar hmod, hsum]

/-- Only zero begins with a zero. -/
theorem head?_toDigits {n : Nat} (hn : n ≠ 0) : (Nat.toDigits 16 n).head? ≠ some '0' := by
  induction n using Nat.strongRecOn with
  | ind n ih =>
    rw [Nat.toDigits_eq_if (by decide)]
    by_cases hlt : n < 16
    · rw [if_pos hlt, List.head?_singleton]
      have hdigit : ∀ d < 16, d ≠ 0 → some (Nat.digitChar d) ≠ some '0' := by decide
      exact hdigit n hlt hn
    · rw [if_neg hlt, List.head?_append_of_ne_nil _ Nat.toDigits_ne_nil]
      exact ih (n / 16) (by omega) (by omega)

/-! ## Numbers -/

/-- `format!("0x{n:x}")`. -/
def quantity (n : Nat) : String := "0x" ++ String.ofList (Nat.toDigits 16 n)

/-- What follows `0x`. -/
def strip (s : String) : Option (List Char) :=
  if s.toList.take 2 = ['0', 'x'] then some (s.toList.drop 2) else none

theorem strip_append (cs : List Char) : strip ("0x" ++ String.ofList cs) = some cs := by
  have h : ("0x" ++ String.ofList cs).toList = ['0', 'x'] ++ cs := by simp
  rw [strip, h]
  rfl

def ofQuantity (s : String) : Option Nat := (strip s).bind fun cs => if cs = [] then none else ofDigits cs

/-- **Round trip** of a number. -/
theorem ofQuantity_quantity (n : Nat) : ofQuantity (quantity n) = some n := by
  rw [ofQuantity, quantity, strip_append, Option.bind_some, if_neg Nat.toDigits_ne_nil]
  exact ofDigits_toDigits n

/-- Prefixed, and with no leading zero. -/
def Minimal (s : String) : Prop :=
  ∃ digits, s = "0x" ++ String.ofList digits ∧ (digits.head? = some '0' → digits = ['0'])

theorem minimal_quantity (n : Nat) : Minimal (quantity n) := by
  refine ⟨Nat.toDigits 16 n, rfl, fun h => ?_⟩
  by_cases hn : n = 0
  · subst hn
    rfl
  · exact absurd h (head?_toDigits hn)

/-! ## Bytes -/

def ofPairs : List Char → Option (List UInt8)
  | [] => some []
  | c :: d :: cs => do
    let hi ← digitVal c
    let lo ← digitVal d
    let rest ← ofPairs cs
    return UInt8.ofNat (16 * hi + lo) :: rest
  | [_] => none

theorem ofPairs_hexDigits (l : List UInt8) :
    ofPairs (l.flatMap fun b => [hexDigit (b.toNat / 16), hexDigit (b.toNat % 16)]) = some l := by
  induction l with
  | nil => rfl
  | cons b l ih =>
    have hb : b.toNat < 256 := b.toNat_lt
    have hhi : b.toNat / 16 < 16 := by omega
    have hlo : b.toNat % 16 < 16 := by omega
    have hsum : 16 * (b.toNat / 16) + b.toNat % 16 = b.toNat := Nat.div_add_mod _ _
    have hbyte : UInt8.ofNat (16 * (b.toNat / 16) + b.toNat % 16) = b := by rw [hsum, UInt8.ofNat_toNat]
    rw [List.flatMap_cons]
    simp only [List.cons_append, List.nil_append, ofPairs, ih, digitVal_hexDigit hhi, digitVal_hexDigit hlo,
      Option.bind_eq_bind, Option.bind_some, hbyte]
    rfl

def ofData (s : String) : Option (List UInt8) := (strip s).bind ofPairs

/-- **Round trip** of bytes. -/
theorem ofData_hexEncode (l : List UInt8) : ofData ("0x" ++ hexEncode l) = some l := by
  rw [ofData, hexEncode, strip_append, Option.bind_some]
  exact ofPairs_hexDigits l

/-! ## Codecs -/

/-- A value of `str` as `parse` reads it. -/
def ofStr {α : Type} (parse : String → Option α) : Json → Except DeError α
  | .str s =>
    match parse s with
    | some v => .ok v
    | none => .error (.custom "invalid hex string")
  | _ => .error .invalidType

/-- A codec through strings. -/
def Codec.str {α : Type} (print : α → String) (parse : String → Option α) : Codec α where
  ser v := .str (print v)
  de := ofStr parse

theorem Codec.lawful_str {α : Type} {print : α → String} {parse : String → Option α}
    (h : ∀ v, parse (print v) = some v) : (Codec.str print parse).Lawful where
  de_ser v := by
    show ofStr parse (.str (print v)) = .ok v
    rw [ofStr, h]
  ser_ne_null v := by
    intro h
    cases h

def Codec.quantity (w : Nat) : Codec (BitVec w) :=
  Codec.str (fun v => Hex.quantity v.toNat) fun s =>
    (ofQuantity s).bind fun n => if n < 2 ^ w then some (BitVec.ofNat w n) else none

def Codec.data : Codec (List UInt8) := Codec.str (fun l => "0x" ++ hexEncode l) ofData

def Codec.fixed (n : Nat) : Codec (FixedBytes n) :=
  Codec.str (fun b => "0x" ++ hexEncode b.bytes) fun s =>
    (ofData s).bind fun l => if h : l.length = n then some ⟨l, h⟩ else none

theorem Codec.lawful_quantity (w : Nat) : (Codec.quantity w).Lawful := by
  refine Codec.lawful_str fun v => ?_
  rw [ofQuantity_quantity, Option.bind_some, if_pos v.isLt, BitVec.ofNat_toNat, BitVec.setWidth_eq]

theorem Codec.lawful_data : Codec.data.Lawful := Codec.lawful_str ofData_hexEncode

theorem Codec.lawful_fixed (n : Nat) : (Codec.fixed n).Lawful := by
  refine Codec.lawful_str fun b => ?_
  rw [ofData_hexEncode, Option.bind_some, dif_pos b.length_bytes]

end Hex
