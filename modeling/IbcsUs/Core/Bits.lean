import Mathlib.Data.BitVec
import Mathlib.Data.Nat.Cast.Order.Ring
import Mathlib.Order.Nat

/-!
# Single bits of words

A mask with one bit tests, and adds, that bit.
-/

namespace IbcsUs.Bits

section Masks

variable {w index : ℕ} {word : BitVec w}

/-- A mask with one bit tests it. -/
theorem and_shiftLeft_ne_zero (hindex : index < w) :
    word &&& 1#w <<< index ≠ 0 ↔ word.getLsbD index = true := by
  rw [← BitVec.twoPow_eq, BitVec.and_twoPow]
  split_ifs with hbit
  · apply iff_of_true _ hbit
    intro hzero
    have htrue : (BitVec.twoPow w index).getLsbD index = true := by
      simp [hindex]
    rw [hzero] at htrue
    simp at htrue
  · exact iff_of_false (not_not_intro rfl) hbit

/-- A mask with one bit adds it. -/
theorem getLsbD_or_shiftLeft (word : BitVec w) (index other : ℕ)
    (hindex : index < w) :
    (word ||| 1#w <<< index).getLsbD other = true ↔
      word.getLsbD other = true ∨ other = index := by
  rw [← BitVec.twoPow_eq, BitVec.getLsbD_or, BitVec.getLsbD_twoPow,
    Bool.or_eq_true, Bool.and_eq_true, decide_eq_true_eq, decide_eq_true_eq]
  apply or_congr Iff.rfl
  exact ⟨fun hboth => hboth.2.symm, fun hother => ⟨hindex, hother.symm⟩⟩

/-- Words with the same bits are the same. -/
theorem eq_of_bits {left right : BitVec w}
    (hbits : ∀ index, index < w →
      (left.getLsbD index = true ↔ right.getLsbD index = true)) :
    left = right := by
  apply BitVec.eq_of_getLsbD_eq
  intro index hindex
  rw [Bool.eq_iff_iff]
  exact hbits index hindex

/-- A word whose high bits are clear fits in a shorter one. -/
theorem setWidth_setWidth_of_low {short : ℕ}
    (hhigh : ∀ index, short ≤ index → word.getLsbD index = false) :
    (word.setWidth short).setWidth w = word := by
  apply BitVec.eq_of_getLsbD_eq
  intro index hindex
  rw [BitVec.getLsbD_setWidth, BitVec.getLsbD_setWidth, decide_eq_true hindex,
    Bool.true_and]
  by_cases hlow : index < short
  · rw [decide_eq_true hlow, Bool.true_and]
  · rw [decide_eq_false hlow, Bool.false_and, hhigh index (Nat.not_lt.1 hlow)]

/-- A mask with the lowest bits keeps these. -/
theorem and_lowMask (word : BitVec w) (low : ℕ) :
    word &&& BitVec.ofNat w (2 ^ low - 1) = (word.setWidth low).setWidth w := by
  apply BitVec.eq_of_getLsbD_eq
  intro index hindex
  rw [BitVec.getLsbD_and, BitVec.getLsbD_ofNat, Nat.testBit_two_pow_sub_one,
    BitVec.getLsbD_setWidth, BitVec.getLsbD_setWidth, decide_eq_true hindex,
    Bool.true_and, Bool.true_and, Bool.and_comm]

end Masks

end IbcsUs.Bits
