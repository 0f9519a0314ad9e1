import Mathlib.Logic.Basic

/-!
The bytes of a NOR flash: a program command clears bits and never sets them, and only an erase
sets them again.
-/

namespace BekenSoc.NorMemory

open Nat

variable {mem : Nat → BitVec 8}

def program (mem : Nat → BitVec 8) (base n : Nat) (data : Nat → BitVec 8) : Nat → BitVec 8 :=
  fun a => if base ≤ a ∧ a < base + n then mem a &&& data (a - base) else mem a

def erase (mem : Nat → BitVec 8) (base n : Nat) : Nat → BitVec 8 :=
  fun a => if base ≤ a ∧ a < base + n then 0xFF else mem a

theorem program_of_mem {base n i : Nat} (data : Nat → BitVec 8) (hi : i < n) :
    program mem base n data (base + i) = mem (base + i) &&& data i := by
  rw [program, if_pos ⟨Nat.le_add_right _ _, Nat.add_lt_add_left hi _⟩, Nat.add_sub_cancel_left]

theorem program_of_not_mem {base n a : Nat} (data : Nat → BitVec 8)
    (ha : ¬ (base ≤ a ∧ a < base + n)) : program mem base n data a = mem a := if_neg ha

@[simp] theorem program_zero (mem : Nat → BitVec 8) (base : Nat) (data : Nat → BitVec 8) :
    program mem base 0 data = mem := by
  funext a
  apply program_of_not_mem
  omega

theorem erase_of_mem {base n i : Nat} (hi : i < n) : erase mem base n (base + i) = 0xFF :=
  if_pos ⟨Nat.le_add_right _ _, Nat.add_lt_add_left hi _⟩

theorem program_program (mem : Nat → BitVec 8) (base k n : Nat) (data : Nat → BitVec 8) :
    program (program mem base k data) (base + k) n (fun i => data (k + i)) =
      program mem base (k + n) data := by
  funext a
  by_cases hsecond : base + k ≤ a ∧ a < base + k + n
  · have hfirst : ¬ (base ≤ a ∧ a < base + k) := by omega
    have hdata : k + (a - (base + k)) = a - base := by omega
    rw [program, if_pos hsecond, program_of_not_mem _ hfirst, program, if_pos (by omega), hdata]
  · rw [program_of_not_mem _ hsecond]
    unfold program
    by_cases hfirst : base ≤ a ∧ a < base + k
    · rw [if_pos hfirst, if_pos (by omega)]
    · rw [if_neg hfirst, if_neg (by omega)]

theorem program_window {base size lo n : Nat} {block data : Nat → BitVec 8} (hlo : base ≤ lo)
    (hn : lo + n ≤ base + size) (hinside : ∀ i < n, block (lo - base + i) = data i)
    (houtside : ∀ i < size, ¬ (lo - base ≤ i ∧ i < lo - base + n) →
      mem (base + i) &&& block i = mem (base + i)) :
    program mem base size block = program mem lo n data := by
  funext a
  by_cases hwindow : lo ≤ a ∧ a < lo + n
  · have hdata := hinside (a - lo) (by omega)
    have hindex : lo - base + (a - lo) = a - base := by omega
    rw [hindex] at hdata
    rw [program, program, if_pos (by omega), if_pos hwindow, hdata]
  · rw [program_of_not_mem data hwindow]
    by_cases hblock : base ≤ a ∧ a < base + size
    · have hkeep := houtside (a - base) (by omega) (by omega)
      have hindex : base + (a - base) = a := by omega
      rw [hindex] at hkeep
      rw [program, if_pos hblock, hkeep]
    · exact program_of_not_mem block hblock

def pageIndex (page addr a : Nat) : Nat := (a % page + page - addr % page) % page

def programPage (page : Nat) (mem : Nat → BitVec 8) (addr n : Nat) (data : Nat → BitVec 8) :
    Nat → BitVec 8 := fun a =>
  if a / page = addr / page ∧ pageIndex page addr a < n then mem a &&& data (pageIndex page addr a)
  else mem a

section Page

variable {page addr i : Nat}

theorem programPage_of_lt {n : Nat} (data : Nat → BitVec 8) (hsum : addr % page + i < page)
    (hi : i < n) : programPage page mem addr n data (addr + i) = mem (addr + i) &&& data i := by
  have hpage : 0 < page := by omega
  have hdiv : (addr + i) / page = addr / page := by
    calc (addr + i) / page
        = (page * (addr / page) + (addr % page + i)) / page := by rw [← Nat.add_assoc, div_add_mod]
      _ = addr / page + (addr % page + i) / page := mul_add_div hpage _ _
      _ = addr / page := by rw [div_eq_of_lt hsum, Nat.add_zero]
  have hmod : (addr + i) % page = addr % page + i := by
    rw [add_mod, mod_eq_of_lt (by omega : i < page), mod_eq_of_lt hsum]
  have hindex : pageIndex page addr (addr + i) = i := by
    have hshift : addr % page + i + page - addr % page = i + page := by omega
    rw [pageIndex, hmod, hshift, add_mod_right, mod_eq_of_lt (by omega)]
  rw [programPage, hindex, if_pos ⟨hdiv, hi⟩]

theorem programPage_of_ge (n : Nat) (data : Nat → BitVec 8) (hpage : 0 < page)
    (hsum : page ≤ addr % page + i) :
    programPage page mem addr n data (addr + i) = mem (addr + i) := by
  have hnext : addr / page < (addr + i) / page := by
    have hdecomp := div_add_mod addr page
    apply (Nat.le_div_iff_mul_le hpage).mpr
    rw [succ_mul, Nat.mul_comm]
    omega
  exact if_neg fun hsame => Nat.ne_of_gt hnext hsame.1

end Page

end BekenSoc.NorMemory
