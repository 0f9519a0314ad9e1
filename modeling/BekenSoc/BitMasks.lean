import Mathlib.Data.List.Basic

/-!
Masks of one machine word: single bits set, cleared and tested.
-/

namespace BekenSoc.BitMasks

variable {w : Nat}

def setBit (mask : BitVec w) (k : Nat) : BitVec w := mask ||| 1#w <<< k

def clearBit (mask : BitVec w) (k : Nat) : BitVec w := mask &&& ~~~(1#w <<< k)

theorem getLsbD_bit (k j : Nat) : (1#w <<< k).getLsbD j = (decide (k < w) && decide (j = k)) := by
  rw [← BitVec.twoPow_eq, BitVec.getLsbD_twoPow]
  simp only [eq_comm]

theorem getLsbD_setBit (mask : BitVec w) {k : Nat} (hk : k < w) (j : Nat) :
    (setBit mask k).getLsbD j = (mask.getLsbD j || decide (j = k)) := by
  rw [setBit, BitVec.getLsbD_or, getLsbD_bit, decide_eq_true hk, Bool.true_and]

theorem getLsbD_clearBit (mask : BitVec w) (k j : Nat) :
    (clearBit mask k).getLsbD j = (mask.getLsbD j && !decide (j = k)) := by
  rw [clearBit, BitVec.getLsbD_and, BitVec.getLsbD_not, getLsbD_bit]
  by_cases hj : j < w
  · by_cases heq : j = k
    · have hk : k < w := heq ▸ hj
      simp [heq, hk]
    · simp [heq, hj]
  · rw [BitVec.getLsbD_of_ge mask j (Nat.le_of_not_lt hj)]
    rfl

theorem clearBit_eq_self_iff (mask : BitVec w) (k : Nat) :
    clearBit mask k = mask ↔ mask.getLsbD k = false := by
  constructor
  · intro h
    rw [← h, getLsbD_clearBit, decide_eq_true rfl, Bool.not_true, Bool.and_false]
  · intro h
    apply BitVec.eq_of_getLsbD_eq
    intro j _
    rw [getLsbD_clearBit]
    by_cases heq : j = k
    · rw [heq, h, Bool.false_and]
    · rw [decide_eq_false heq, Bool.not_false, Bool.and_true]

end BekenSoc.BitMasks
