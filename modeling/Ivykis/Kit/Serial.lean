import Mathlib.Data.Int.ModEq
import Mathlib.Data.Nat.Basic

/-!
# Serial numbers

Counters of unbounded range that are stored with a fixed number of bits and compared by the sign
of their difference.
-/

namespace Kit

variable {w : ℕ} {a b : ℕ}

lemma ofNat_sub_ofNat (hle : b ≤ a) :
    BitVec.ofNat w a - BitVec.ofNat w b = BitVec.ofNat w (a - b) := by
  obtain ⟨d, rfl⟩ := Nat.exists_eq_add_of_le hle
  rw [BitVec.ofNat_add, Nat.add_sub_cancel_left, BitVec.add_comm, BitVec.add_sub_cancel]

/-- The stored distance of two counters is the distance. -/
lemma toNat_ofNat_sub_ofNat (hle : b ≤ a) (hlt : a - b < 2 ^ w) :
    (BitVec.ofNat w a - BitVec.ofNat w b).toNat = a - b := by
  rw [ofNat_sub_ofNat hle, BitVec.toNat_ofNat, Nat.mod_eq_of_lt hlt]

/-- The signed distance of two counters, if they are less than half the range apart. -/
lemma toInt_ofNat_sub_ofNat (ha : a < b + 2 ^ w) (hb : b < a + 2 ^ w) :
    (BitVec.ofNat (w + 1) a - BitVec.ofNat (w + 1) b).toInt = (a : ℤ) - b := by
  have hpow : (2 : ℕ) ^ (w + 1) = 2 * 2 ^ w := by rw [Nat.pow_succ, Nat.mul_comm]
  rw [BitVec.toInt_sub, BitVec.toInt_ofNat', BitVec.toInt_ofNat', Int.bmod_sub_bmod,
    Int.sub_bmod_bmod]
  refine Int.bmod_eq_of_le ?_ ?_
  · rw [hpow]
    omega
  · rw [hpow]
    omega

/-- Such counters are compared by the sign of their difference. -/
lemma toInt_ofNat_sub_ofNat_pos (ha : a < b + 2 ^ w) (hb : b < a + 2 ^ w) :
    0 < (BitVec.ofNat (w + 1) a - BitVec.ofNat (w + 1) b).toInt ↔ b < a := by
  rw [toInt_ofNat_sub_ofNat ha hb]
  omega

end Kit
