import Mathlib.Tactic.Common

/-!
One token between two parties, counted exactly.
-/

namespace BekenSoc.TokenConservation

structure Purse where
  /-- requests that are counted -/
  cnt : Nat
  /-- of these, with a spare token still to be given up -/
  undrained : Nat
  tokens : Nat

structure Conserved (a b : Purse) : Prop where
  apart : a.cnt = 0 ∨ b.cnt = 0 → a.tokens = 1 + a.undrained ∧ b.tokens = 1 + b.undrained
  shared : 0 < a.cnt → 0 < b.cnt → a.tokens + b.tokens = 1 + a.undrained + b.undrained ∧
      a.undrained ≤ a.tokens ∧ b.undrained ≤ b.tokens

theorem Conserved.symm {a b : Purse} (h : Conserved a b) : Conserved b a := by
  constructor
  · intro hnone
    exact (h.apart hnone.symm).symm
  · intro hb ha
    have := h.shared ha hb
    omega

inductive Trade : Purse → Purse → Purse → Purse → Prop
  | keep {a b : Purse} : Trade a b a b
  | countFirst {a b : Purse} : a.cnt = 0 → a.undrained = 0 → 0 < b.cnt →
      Trade a b ⟨a.cnt + 1, a.undrained + 1, a.tokens⟩ b
  | countMore {a b : Purse} : ¬ (a.cnt = 0 ∧ 0 < b.cnt) →
      Trade a b ⟨a.cnt + 1, a.undrained, a.tokens⟩ b
  | drain {a b : Purse} : 0 < a.undrained → 0 < a.tokens →
      Trade a b ⟨a.cnt, a.undrained - 1, a.tokens - 1⟩ b
  | uncount {a b : Purse} : 0 < a.cnt → ¬ (a.cnt = 1 ∧ 0 < b.cnt) →
      Trade a b ⟨a.cnt - 1, a.undrained, a.tokens⟩ b
  | handOver {a b : Purse} : a.cnt = 1 → a.undrained = 0 → 0 < a.tokens → 0 < b.cnt →
      Trade a b ⟨a.cnt - 1, a.undrained, a.tokens⟩ ⟨b.cnt, b.undrained, b.tokens + 1⟩

theorem Trade.conserved {a b a' b' : Purse} (h : Conserved a b) (ht : Trade a b a' b') :
    Conserved a' b' := by
  obtain ⟨hapart, hshared⟩ := h
  cases ht with
  | keep => exact ⟨hapart, hshared⟩
  | countFirst hcnt =>
    have := hapart (.inl hcnt)
    constructor <;> simp only <;> omega
  | countMore =>
    constructor
    · intro hnone
      simp only at hnone
      exact hapart (by omega)
    · intro _ hb
      exact hshared (by omega) hb
  | drain =>
    constructor
    · intro hnone
      have := hapart hnone
      simp only
      omega
    · intro ha hb
      have := hshared ha hb
      simp only
      omega
  | uncount hpos =>
    constructor
    · intro hnone
      simp only at hnone
      exact hapart (by omega)
    · intro ha hb
      exact hshared hpos hb
  | handOver hone hund htokens hother =>
    have := hshared (by omega) hother
    constructor <;> simp only <;> omega

theorem Conserved.exists_token {a b : Purse} (h : Conserved a b) (ha : 0 < a.cnt) :
    0 < a.tokens ∨ (0 < b.cnt ∧ 0 < b.tokens) := by
  rcases Nat.eq_zero_or_pos b.cnt with hb | hb
  · have := h.apart (.inr hb)
    omega
  · have := h.shared ha hb
    omega

end BekenSoc.TokenConservation
