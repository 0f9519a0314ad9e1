import Mathlib.Data.List.Range

/-!
Flags packed into bytes, eight in each, and the search for the first index that a loop stops at.
-/

namespace BekenSoc.ByteFlags

open Function List

variable {bytes : Nat → BitVec 8}

def test (bytes : Nat → BitVec 8) (id : Nat) : Bool := (bytes (id / 8)).getLsbD (id % 8)

def set (bytes : Nat → BitVec 8) (id : Nat) : Nat → BitVec 8 :=
  update bytes (id / 8) (bytes (id / 8) ||| 1#8 <<< (id % 8))

def clear (bytes : Nat → BitVec 8) (id : Nat) : Nat → BitVec 8 :=
  update bytes (id / 8) (bytes (id / 8) &&& ~~~(1#8 <<< (id % 8)))

theorem getLsbD_one_shiftLeft {i j : Nat} (hi : i < 8) :
    (1#8 <<< i).getLsbD j = decide (i = j) := by
  rw [← BitVec.twoPow_eq]
  simp [hi]

theorem test_update (bytes : Nat → BitVec 8) (i : Nat) (b : BitVec 8) (k : Nat) :
    test (update bytes i b) k = if k / 8 = i then b.getLsbD (k % 8) else test bytes k := by
  unfold test
  split
  · rename_i hsame
    rw [hsame, update_self]
  · rename_i hother
    rw [update_of_ne hother]

theorem test_set (bytes : Nat → BitVec 8) (id k : Nat) :
    test (set bytes id) k = (test bytes k || decide (k = id)) := by
  rw [set, test_update]
  split
  · rename_i hsame
    have hbit : (id % 8 = k % 8) ↔ k = id := by omega
    rw [BitVec.getLsbD_or, getLsbD_one_shiftLeft (Nat.mod_lt _ (by decide)), test, hsame]
    simp only [hbit]
  · have hne : k ≠ id := by
      rintro rfl
      exact absurd rfl ‹_›
    simp [hne]

theorem test_clear (bytes : Nat → BitVec 8) (id k : Nat) :
    test (clear bytes id) k = (test bytes k && !decide (k = id)) := by
  rw [clear, test_update]
  split
  · rename_i hsame
    have hbit : (id % 8 = k % 8) ↔ k = id := by omega
    have hlt : k % 8 < 8 := Nat.mod_lt _ (by decide)
    rw [BitVec.getLsbD_and, BitVec.getLsbD_not, getLsbD_one_shiftLeft (Nat.mod_lt _ (by decide)),
      test, hsame]
    simp only [hbit, hlt, decide_true, Bool.true_and]
  · have hne : k ≠ id := by
      rintro rfl
      exact absurd rfl ‹_›
    simp [hne]

theorem eq_zero_iff (b : BitVec 8) : b = 0#8 ↔ ∀ j < 8, b.getLsbD j = false := by
  constructor
  · rintro rfl j _
    exact BitVec.getLsbD_zero
  · intro h
    apply BitVec.eq_of_getLsbD_eq
    intro j hj
    rw [h j hj, BitVec.getLsbD_zero]

section Count

def count (n : Nat) (bytes : Nat → BitVec 8) : Nat := (range n).countP (test bytes)

theorem count_succ (n : Nat) (bytes : Nat → BitVec 8) :
    count (n + 1) bytes = count n bytes + (test bytes n).toNat := by
  rw [count, range_succ, countP_append, countP_singleton]
  cases test bytes n <;> rfl

theorem count_set_le (n : Nat) (bytes : Nat → BitVec 8) (id : Nat) :
    count n (set bytes id) ≤ count n bytes + 1 := by
  have hgeneral : ∀ m, count m (set bytes id) ≤ count m bytes + if id < m then 1 else 0 := by
    intro m
    induction m with
    | zero => exact Nat.zero_le _
    | succ m ih =>
      rw [count_succ, count_succ, test_set]
      by_cases heq : m = id
      · have hle := (test bytes m || decide (m = id)).toNat_le
        rw [if_neg (by omega)] at ih
        rw [if_pos (by omega)]
        omega
      · rw [decide_eq_false heq, Bool.or_false]
        split at ih <;> split <;> omega
  have hn := hgeneral n
  split at hn <;> omega

theorem count_clear {n id : Nat} (hid : id < n) (htest : test bytes id = true) :
    count n (clear bytes id) + 1 = count n bytes := by
  have hgeneral : ∀ m, count m (clear bytes id) + (if id < m then 1 else 0) = count m bytes := by
    intro m
    induction m with
    | zero => rfl
    | succ m ih =>
      rw [count_succ, count_succ, test_clear]
      by_cases heq : m = id
      · subst heq
        simp [htest, ih.symm]
      · rw [decide_eq_false heq, Bool.not_false, Bool.and_true]
        split at ih <;> split <;> omega
  have hn := hgeneral n
  rw [if_pos hid] at hn
  exact hn

end Count

section Loop

variable {p : Nat → Bool} {n : Nat}

def loopIndex (n : Nat) (p : Nat → Bool) : Nat := (range n).findIdx p

theorem loopIndex_spec (h : loopIndex n p < n) :
    p (loopIndex n p) = true ∧ ∀ i < loopIndex n p, p i = false := by
  have hlen : (range n).findIdx p < (range n).length := by
    rw [length_range]
    exact h
  constructor
  · have hfound := findIdx_getElem (w := hlen)
    rw [getElem_range] at hfound
    exact hfound
  · intro i hi
    have hnot := not_of_lt_findIdx hi
    rw [getElem_range] at hnot
    exact hnot

theorem of_loopIndex_ge (h : n ≤ loopIndex n p) {i : Nat} (hi : i < n) : p i = false := by
  have hnot := not_of_lt_findIdx (Nat.lt_of_lt_of_le hi h)
  rw [getElem_range] at hnot
  exact hnot

end Loop

end BekenSoc.ByteFlags
