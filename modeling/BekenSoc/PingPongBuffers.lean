import Mathlib.Algebra.Group.Nat.Defs
import Mathlib.Data.Nat.Init

/-!
A stream that goes through a buffer of two halves: cell `j` of the stream is written to place
`j % (2 * h)` and read back from there before the writer has gone round.
-/

namespace BekenSoc.PingPongBuffers

open Nat

variable {β : Type} {h : Nat} {mem buffer out src : Nat → β} {a n lo hi i k : Nat}

def write (mem : Nat → β) (a n : Nat) (src : Nat → β) : Nat → β :=
  fun i => if a ≤ i ∧ i < a + n then src (i - a) else mem i

theorem write_of_lt (hi : i < a) : write mem a n src i = mem i :=
  if_neg fun hin => absurd hin.1 (Nat.not_le_of_lt hi)

theorem write_of_not_mem (hi : ¬ (a ≤ i ∧ i < a + n)) : write mem a n src i = mem i := if_neg hi

theorem write_add (hi : i < n) : write mem a n src (a + i) = src i := by
  rw [write, if_pos ⟨Nat.le_add_right a i, Nat.add_lt_add_left hi a⟩, Nat.add_sub_cancel_left]

def Holds (h : Nat) (buffer out : Nat → β) (lo hi : Nat) : Prop :=
  ∀ j, lo ≤ j → j < hi → buffer (j % (2 * h)) = out j

theorem holds_empty (h : Nat) (buffer out : Nat → β) (lo : Nat) : Holds h buffer out lo lo :=
  fun _ hlo hhi => absurd hhi (Nat.not_lt_of_le hlo)

theorem Holds.drop {lo' : Nat} (hb : Holds h buffer out lo hi) (hle : lo ≤ lo') :
    Holds h buffer out lo' hi :=
  fun j hlo hhi => hb j (Nat.le_trans hle hlo) hhi

theorem mod_add_of_half (hhalf : hi % h + n ≤ h) (hin : i < n) :
    (hi + i) % (2 * h) = hi % (2 * h) + i := by
  have hpos : 0 < h := by omega
  have hdiv : hi % (2 * h) = hi % h ∨ hi % (2 * h) = hi % h + h := by
    rw [Nat.mul_comm, mod_mul]
    obtain hzero | hone := mod_two_eq_zero_or_one (hi / h)
    · rw [hzero]
      exact .inl rfl
    · rw [hone, Nat.mul_one]
      exact .inr rfl
  rw [add_mod, mod_eq_of_lt (show i < 2 * h by omega), mod_eq_of_lt (by omega)]

theorem Holds.write (hb : Holds h buffer out lo hi) (hhalf : hi % h + n ≤ h)
    (hroom : hi + n ≤ lo + 2 * h) :
    Holds h (write buffer (hi % (2 * h)) n fun i => out (hi + i)) out lo (hi + n) := by
  intro j hlo hhi
  by_cases hj : j < hi
  · rw [write_of_not_mem, hb j hlo hj]
    rintro ⟨hge, hlt⟩
    -- the cell would be the one that the writer reaches after less than a round
    obtain ⟨i, hi'⟩ := Nat.exists_eq_add_of_le hge
    have hin : i < n := by omega
    have hsame : (hi + i) % (2 * h) = j % (2 * h) := by rw [mod_add_of_half hhalf hin, hi']
    have hdvd : 2 * h ∣ hi + i - j :=  dvd_of_mod_eq_zero (sub_mod_eq_zero_of_mod_eq hsame)
    have hle := le_of_dvd (by omega) hdvd
    omega
  · obtain ⟨i, rfl⟩ := Nat.exists_eq_add_of_le (Nat.le_of_not_lt hj)
    have hin : i < n := by omega
    rw [mod_add_of_half hhalf hin, write_add hin]

theorem Holds.half (hb : Holds h buffer out lo hi) (hlo : lo ≤ k * h) (hhi : k * h + i < hi)
    (hi' : i < h) : buffer (k % 2 * h + i) = out (k * h + i) := by
  have hplace : (k * h + i) % (2 * h) = k % 2 * h + i := by
    rw [mod_add_of_half (n := i + 1) (by rw [mul_mod_left]; omega) (lt_succ_self i),
      mul_mod_mul_right]
  rw [← hplace]
  exact hb _ (le_add_right_of_le hlo) hhi

end BekenSoc.PingPongBuffers
