import Mathlib.Logic.Function.Basic

namespace BekenSoc.DualCore

inductive Cpu
  | master
  | slave
  deriving DecidableEq

def Cpu.other : Cpu → Cpu
  | .master => .slave
  | .slave => .master

theorem other_ne (c : Cpu) : c.other ≠ c := by
  cases c <;> decide

@[simp] theorem other_other (c : Cpu) : c.other.other = c := by
  cases c <;> rfl

theorem eq_other_of_ne {c d : Cpu} (h : d ≠ c) : d = c.other := by
  cases c <;> cases d <;> first | rfl | exact absurd rfl h

@[simp] theorem update_other {α : Type*} (f : Cpu → α) (c : Cpu) (x : α) :
    Function.update f c x c.other = f c.other :=
  Function.update_of_ne (other_ne c) x f

end BekenSoc.DualCore
