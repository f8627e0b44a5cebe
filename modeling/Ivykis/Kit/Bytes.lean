import Mathlib.Algebra.Group.Nat.Defs
import Mathlib.Tactic.Common

/-!
# Words in a buffer

A word of 32 bits as four bytes, in either byte order, and reading one at an offset.
-/

namespace Kit

inductive ByteOrder where
  | little
  | big
  deriving DecidableEq, Repr

/-- Bytes with the least significant one first, as they stand in memory; and back. -/
def ByteOrder.arrange : ByteOrder → List UInt8 → List UInt8
  | .little, l => l
  | .big, l    => l.reverse

/-- The bytes of a word, the least significant one first. -/
def digits (v : BitVec 32) : List UInt8 :=
  [UInt8.ofNat v.toNat, UInt8.ofNat (v.toNat / 2 ^ 8), UInt8.ofNat (v.toNat / 2 ^ 16),
    UInt8.ofNat (v.toNat / 2 ^ 24)]

def word (l : List UInt8) : BitVec 32 :=
  BitVec.ofNat 32 (l.foldr (fun b n => b.toNat + 2 ^ 8 * n) 0)

def bytes32 (o : ByteOrder) (v : BitVec 32) : List UInt8 :=
  o.arrange (digits v)

/-- The word at an offset, if it lies within the buffer. -/
def read32 (o : ByteOrder) (buf : List UInt8) (off : ℕ) : Option (BitVec 32) :=
  if off + 4 ≤ buf.length then some (word (o.arrange ((buf.drop off).take 4))) else none

variable (o : ByteOrder) (v : BitVec 32)

@[simp] lemma ByteOrder.arrange_arrange (l : List UInt8) : o.arrange (o.arrange l) = l := by
  cases o with
  | little => rfl
  | big => exact List.reverse_reverse l

@[simp] lemma length_bytes32 : (bytes32 o v).length = 4 := by
  cases o <;> rfl

lemma word_digits : word (digits v) = v := by
  have hv := v.isLt
  apply BitVec.eq_of_toNat_eq
  simp only [word, digits, List.foldr, BitVec.toNat_ofNat, UInt8.toNat_ofNat']
  omega

/-- What is written at an offset is read there. -/
theorem read32_bytes32 {buf : List UInt8} {off : ℕ} (before after : List UInt8)
    (hbuf : buf = before ++ bytes32 o v ++ after) (hoff : off = before.length) :
    read32 o buf off = some v := by
  have htake : (buf.drop off).take 4 = bytes32 o v := by
    rw [hbuf, hoff, List.append_assoc, List.drop_left, List.take_left' (length_bytes32 o v)]
  rw [read32, if_pos, htake, bytes32, ByteOrder.arrange_arrange, word_digits]
  simp only [hbuf, hoff, List.length_append, length_bytes32]
  omega

end Kit
