import Mathlib.Tactic.Ring
/-!
# Saturating arithmetic on machine words

`satAdd` and `satMul` are the unsigned operations that stop at `2 ^ w - 1`; `cap w` is that
stop applied to an exact natural number. `toNat_satAdd` and `toNat_satMul` read each
operation as one capped exact operation, and `cap_add`, `cap_mul` push an inner cap out, so a
chain of saturating operations is the exact result capped once.
-/

namespace Saturating

variable {w : Nat}

/-- The largest `w`-bit word. -/
def maxWord (w : Nat) : Nat := 2 ^ w - 1

/-- An exact result, stopped at the largest word. -/
def cap (w n : Nat) : Nat := min (maxWord w) n

def satAdd (a b : BitVec w) : BitVec w := BitVec.ofNat w (cap w (a.toNat + b.toNat))
def satMul (a b : BitVec w) : BitVec w := BitVec.ofNat w (cap w (a.toNat * b.toNat))

theorem maxWord_lt (w : Nat) : maxWord w < 2 ^ w := by
  have : 0 < 2 ^ w := Nat.two_pow_pos w
  unfold maxWord; omega

theorem cap_lt (w n : Nat) : cap w n < 2 ^ w := lt_of_le_of_lt (Nat.min_le_left _ _) (maxWord_lt w)

@[simp] theorem toNat_satAdd (a b : BitVec w) : (satAdd a b).toNat = cap w (a.toNat + b.toNat) := by
  simp only [satAdd, BitVec.toNat_ofNat, Nat.mod_eq_of_lt (cap_lt w _)]

@[simp] theorem toNat_satMul (a b : BitVec w) : (satMul a b).toNat = cap w (a.toNat * b.toNat) := by
  simp only [satMul, BitVec.toNat_ofNat, Nat.mod_eq_of_lt (cap_lt w _)]

/-- A sum saturates where the exact sum does. -/
theorem cap_add (w m n : Nat) : cap w (cap w m + n) = cap w (m + n) := by
  simp only [cap]; omega

/-- A product saturates where the exact product does: a saturated factor can only matter
when the other factor is not zero, and then the product is past the largest word as well. -/
theorem cap_mul (w m n : Nat) : cap w (cap w m * n) = cap w (m * n) := by
  rcases Nat.eq_zero_or_pos n with rfl | hn
  · simp
  rcases le_or_gt m (maxWord w) with hm | hm
  · rw [show cap w m = m from Nat.min_eq_right hm]
  · have h1 : maxWord w ≤ maxWord w * n := Nat.le_mul_of_pos_right _ hn
    have h2 : maxWord w ≤ m * n := Nat.le_trans (Nat.le_of_lt hm) (Nat.le_mul_of_pos_right _ hn)
    rw [show cap w m = maxWord w from Nat.min_eq_left (Nat.le_of_lt hm)]
    simp only [cap, Nat.min_eq_left h1, Nat.min_eq_left h2]

/-- Adding to one factor changes a capped product exactly when the addend and the other factor
are not zero and the product was below the cap. -/
theorem cap_mul_add_eq_iff (w m k n : Nat) :
    cap w (m * n) = cap w ((m + k) * n) ↔ k = 0 ∨ n = 0 ∨ maxWord w ≤ m * n := by
  rw [Nat.add_mul]
  have hk : k * n = 0 ↔ k = 0 ∨ n = 0 := Nat.mul_eq_zero
  unfold cap
  by_cases h : k * n = 0
  · rw [h, Nat.add_zero]
    rcases hk.1 h with h | h
    · exact ⟨fun _ => Or.inl h, fun _ => rfl⟩
    · exact ⟨fun _ => Or.inr (Or.inl h), fun _ => rfl⟩
  · rw [hk, not_or] at h
    have hpos : 0 < k * n := Nat.mul_pos (Nat.pos_of_ne_zero h.1) (Nat.pos_of_ne_zero h.2)
    refine ⟨fun e => Or.inr (Or.inr (by omega)), ?_⟩
    rintro (h' | h' | h')
    · exact absurd h' h.1
    · exact absurd h' h.2
    · omega

/-- A word at least as large as a saturated sum, other than the largest word itself, is at
least the exact sum. -/
theorem le_of_cap_le {n m : Nat} (h : cap w n ≤ m) (hm : m < maxWord w) : n ≤ m := by
  unfold cap at h; omega

end Saturating
