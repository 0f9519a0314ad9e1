import Mathlib.Logic.Basic

/-!
Counting the parties that take part in a system whose number is not fixed.

A weight gives every party a number; the tally is the sum over all parties.  A
step lets one party go on as some others, so the tally changes by their weights.
-/

namespace BekenSoc.PartyTally

variable {Party : Type*}
variable {parties : List Party} {p : Party}

def tally (weight : Party → Nat) : List Party → Nat
  | [] => 0
  | p :: parties => weight p + tally weight parties

@[simp] theorem tally_nil (weight : Party → Nat) : tally weight [] = 0 := rfl

@[simp] theorem tally_cons (weight : Party → Nat) (p : Party) (parties : List Party) :
    tally weight (p :: parties) = weight p + tally weight parties := rfl

theorem tally_append (weight : Party → Nat) (ps qs : List Party) :
    tally weight (ps ++ qs) = tally weight ps + tally weight qs := by
  induction ps with
  | nil => exact (Nat.zero_add _).symm
  | cons p ps ih => rw [List.cons_append, tally_cons, tally_cons, ih, Nat.add_assoc]

theorem tally_le_tally {v w : Party → Nat} (h : ∀ p, v p ≤ w p) (parties : List Party) :
    tally v parties ≤ tally w parties := by
  induction parties with
  | nil => exact Nat.le_refl 0
  | cons p parties ih =>
    rw [tally_cons, tally_cons]
    exact Nat.add_le_add (h p) ih

theorem tally_eq_zero {weight : Party → Nat} :
    tally weight parties = 0 ↔ ∀ p ∈ parties, weight p = 0 := by
  induction parties with
  | nil => simp
  | cons p parties ih => rw [tally_cons, Nat.add_eq_zero_iff, ih, List.forall_mem_cons]

theorem le_tally {weight : Party → Nat} (h : p ∈ parties) : weight p ≤ tally weight parties := by
  induction h with
  | head =>
    rw [tally_cons]
    exact Nat.le_add_right _ _
  | tail q _ ih =>
    rw [tally_cons]
    exact Nat.le_trans ih (Nat.le_add_left _ _)

variable [DecidableEq Party]

def becomes (parties : List Party) (p : Party) (next : List Party) : List Party :=
  next ++ parties.erase p

theorem tally_erase (weight : Party → Nat) (h : p ∈ parties) :
    weight p + tally weight (parties.erase p) = tally weight parties := by
  induction parties with
  | nil => cases h
  | cons q parties ih =>
    rcases eq_or_ne q p with rfl | hne
    · rw [List.erase_cons_head, tally_cons]
    · have hmem := (List.mem_cons.mp h).resolve_left hne.symm
      rw [List.erase_cons_tail (by simpa using hne), tally_cons, tally_cons, ← ih hmem]
      omega

theorem tally_becomes (weight : Party → Nat) (h : p ∈ parties) (next : List Party) :
    tally weight (becomes parties p next) + weight p =
      tally weight parties + tally weight next := by
  have herase := tally_erase weight h
  rw [becomes, tally_append]
  omega

end BekenSoc.PartyTally
