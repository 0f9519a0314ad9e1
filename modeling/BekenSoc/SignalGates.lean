import Mathlib.Logic.Basic

/-!
A flag and a binary semaphore by which one side waits for the other.

The side that waits arms the gate in one step and pends on the semaphore in a later one; its wait
can expire.  The other side fires: only at an armed gate, which it disarms, it posts.
-/

namespace BekenSoc.SignalGates

structure Sema where
  /-- the count -/
  token : Bool
  /-- the side that waits is blocked -/
  waiting : Bool
  deriving DecidableEq

namespace Sema

def idle : Sema := ⟨false, false⟩

def post (s : Sema) : Sema :=
  if s.waiting then { s with waiting := false } else { s with token := true }

def pend (s : Sema) : Sema :=
  if s.token then { s with token := false } else { s with waiting := true }

def poll (s : Sema) : Sema := { s with token := false }

def expire (s : Sema) : Sema := { s with waiting := false }

end Sema

structure Gate extends Sema where
  armed : Bool
  deriving DecidableEq

namespace Gate

variable {g : Gate}

def idle : Gate := ⟨Sema.idle, false⟩

def arm (g : Gate) : Gate := { g with armed := true }

def disarm (g : Gate) : Gate := { g with armed := false }

def post (g : Gate) : Gate := { g with toSema := g.toSema.post }

def fire (g : Gate) : Gate := if g.armed then g.post.disarm else g

def pend (g : Gate) : Gate := { g with toSema := g.toSema.pend }

def poll (g : Gate) : Gate := { g with toSema := g.toSema.poll }

def expire (g : Gate) : Gate := { g with toSema := g.toSema.expire }

def settle (g : Gate) : Gate := if g.armed then g.disarm else g.poll.disarm

def Quiet (g : Gate) : Prop := g.armed = false ∧ g.token = false ∧ g.waiting = false

def Open (g : Gate) : Prop := g.armed = !g.token ∧ g.waiting = false

def Blocked (g : Gate) : Prop := g.armed = true ∧ g.token = false ∧ g.waiting = true

theorem quiet_idle : idle.Quiet := ⟨rfl, rfl, rfl⟩

theorem fire_of_not_armed (h : g.armed = false) : g.fire = g := by
  rw [fire, if_neg (by rw [h]; exact Bool.false_ne_true)]

theorem armed_fire (g : Gate) : g.fire.armed = false := by
  cases h : g.armed with
  | false => rw [fire_of_not_armed h, h]
  | true => rw [fire, if_pos h]; rfl

theorem fire_fire (g : Gate) : g.fire.fire = g.fire := fire_of_not_armed g.armed_fire

theorem armed_pend (g : Gate) : g.pend.armed = g.armed := rfl

theorem Quiet.fire (h : g.Quiet) : g.fire.Quiet := by
  rw [fire_of_not_armed h.1]
  exact h

theorem Quiet.arm (h : g.Quiet) : g.arm.Open := by
  obtain ⟨-, htoken, hwaiting⟩ := h
  exact ⟨by simp [Gate.arm, htoken], hwaiting⟩

theorem Quiet.token_arm (h : g.Quiet) : g.arm.token = false := h.2.1

theorem Open.fire (h : g.Open) : g.fire.Open := by
  obtain ⟨harmed, hwaiting⟩ := h
  cases htoken : g.token <;> simp_all [Gate.fire, Gate.post, Sema.post, Gate.disarm, Gate.Open]

theorem Open.pend (h : g.Open) : g.token = true ∧ g.pend.Quiet ∨ g.pend.Blocked := by
  obtain ⟨harmed, hwaiting⟩ := h
  cases htoken : g.token <;> simp_all [Gate.pend, Sema.pend, Gate.Quiet, Gate.Blocked]

theorem Open.settle (h : g.Open) : g.settle.Quiet := by
  obtain ⟨harmed, hwaiting⟩ := h
  cases htoken : g.token <;> simp_all [Gate.settle, Gate.poll, Sema.poll, Gate.disarm, Gate.Quiet]

theorem Open.poll (h : g.Open) (htoken : g.token = true) : g.poll.Quiet := by
  refine ⟨?_, rfl, h.2⟩
  change g.armed = false
  rw [h.1, htoken]
  rfl

theorem Blocked.fire (h : g.Blocked) : g.fire.Quiet := by
  obtain ⟨harmed, htoken, hwaiting⟩ := h
  simp [Gate.fire, Gate.post, Sema.post, Gate.disarm, Gate.Quiet, harmed, htoken, hwaiting]

theorem Blocked.expire (h : g.Blocked) : g.expire.Open := by
  obtain ⟨harmed, htoken, -⟩ := h
  refine ⟨?_, rfl⟩
  change g.armed = !g.token
  rw [harmed, htoken]
  rfl

end Gate

end BekenSoc.SignalGates
