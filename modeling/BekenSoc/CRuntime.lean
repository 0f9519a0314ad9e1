import Mathlib.Algebra.Group.Nat.Defs
import Mathlib.Data.List.Basic

/-!
What the driver models share: the arithmetic of the fixed-width C integers, the
string comparison of the C library, and the error codes of the SDK.
-/

namespace BekenSoc.CRuntime

def addU64 (a b : Nat) : Nat := (a + b) % 2 ^ 64

def addU32 (a b : Nat) : Nat := (a + b) % 2 ^ 32

def subU32 (a b : Nat) : Nat := (a % 2 ^ 32 + 2 ^ 32 - b % 2 ^ 32) % 2 ^ 32

def addU16 (a b : Nat) : Nat := (a + b) % 2 ^ 16

def subU16 (a b : Nat) : Nat := (a % 2 ^ 16 + 2 ^ 16 - b % 2 ^ 16) % 2 ^ 16

def memcpy {α : Type*} (dst src : List α) (len : Nat) : List α := src.take len ++ dst.drop len

def leNat : List Nat → Nat
  | [] => 0
  | b :: bs => b + 256 * leNat bs

def leBytes : Nat → Nat → List Nat
  | 0, _ => []
  | count + 1, x => x % 256 :: leBytes count (x / 256)

inductive BkErr
  | ok
  | fail
  | errParam
  | errNoMem
  | errNotInit
  | errState
  | errBusy
  | errOpen
  | errNullParam
  | errNotSupport
  | errMailboxTimeout
  deriving DecidableEq, Repr

/-- `strncmp(s, t, n) == 0`.  The bytes past the end of a list are the
terminator. -/
def strncmpEq : Nat → List UInt8 → List UInt8 → Bool
  | 0, _, _ => true
  | n + 1, s, t =>
    if s.headD 0 = t.headD 0 then
      if s.headD 0 = 0 then true else strncmpEq n s.tail t.tail
    else false

theorem take_memcpy {α : Type*} (dst src : List α) {len : Nat} (h : len ≤ src.length) :
    (memcpy dst src len).take len = src.take len := by
  rw [memcpy, List.take_append_of_le_length (by simp [h]), List.take_take, Nat.min_self]

theorem strncmpEq_self (n : Nat) (s : List UInt8) : strncmpEq n s s = true := by
  induction n generalizing s with
  | zero => rfl
  | succ n ih =>
    rw [strncmpEq, if_pos rfl, ih]
    exact ite_self true

theorem strncmpEq_comm (n : Nat) (s t : List UInt8) : strncmpEq n s t = strncmpEq n t s := by
  induction n generalizing s t with
  | zero => rfl
  | succ n ih =>
    simp only [strncmpEq]
    by_cases h : s.headD 0 = t.headD 0
    · rw [if_pos h, if_pos h.symm, h, ih]
    · rw [if_neg h, if_neg (Ne.symm h)]

theorem strncmpEq_trans {n : Nat} {s t u : List UInt8} (hst : strncmpEq n s t = true)
    (htu : strncmpEq n t u = true) : strncmpEq n s u = true := by
  induction n generalizing s t u with
  | zero => rfl
  | succ n ih =>
    simp only [strncmpEq] at hst htu ⊢
    split at hst
    · rename_i hheads
      rw [hheads]
      split at htu
      · rename_i hheadu
        rw [if_pos hheadu]
        split at hst
        · rename_i hend
          rw [if_pos (hheads ▸ hend)]
        · rename_i hmore
          rw [hheads] at hmore
          rw [if_neg hmore] at htu ⊢
          exact ih hst htu
      · cases htu
    · cases hst

end BekenSoc.CRuntime
