import BekenSoc.SignalGates

/-!
The waits at a gate, numbered, and the numbers that were signalled.

The n-th wait is for the n-th signal.  A wait that runs out is noted together with what had been
signalled by then; as long as no signal comes before the gate was armed for it, the note of a
wait does not contain its own number.
-/

namespace BekenSoc.NumberedWaits

open SignalGates

structure Timeout where
  number : Nat
  signalled : List Nat
  deriving DecidableEq

structure Ledger where
  /-- the number of the latest wait -/
  awaited : Nat
  signalled : List Nat
  timeouts : List Timeout
  deriving DecidableEq

namespace Ledger

def empty : Ledger := ⟨0, [], []⟩

def await (l : Ledger) : Ledger := { l with awaited := l.awaited + 1 }

def signal (l : Ledger) (number : Nat) : Ledger := { l with signalled := l.signalled ++ [number] }

def timeout (l : Ledger) : Ledger := { l with timeouts := l.timeouts ++ [⟨l.awaited, l.signalled⟩] }

def Faithful (l : Ledger) : Prop := ∀ t ∈ l.timeouts, t.number ∉ t.signalled

def Bounded (l : Ledger) : Prop := ∀ m ∈ l.signalled, m ≤ l.awaited

def Awaits (l : Ledger) (g : Gate) : Prop := g.armed = true ∧ l.awaited ∉ l.signalled

end Ledger

inductive Stage
  | between
  | armed
  | pended

def Stage.Holds (g : Gate) (l : Ledger) : Stage → Prop
  | .between => g.waiting = false
  | .armed => g.waiting = false ∧ (g.token = false → l.Awaits g)
  | .pended => g.waiting = true → l.Awaits g

structure Sound (stage : Stage) (g : Gate) (l : Ledger) : Prop where
  faithful : l.Faithful
  bounded : l.Bounded
  holds : stage.Holds g l

variable {g : Gate} {l : Ledger} {stage : Stage} {m : Nat}

theorem sound_idle : Sound .between Gate.idle Ledger.empty :=
  ⟨fun _ ht => absurd ht List.not_mem_nil, fun _ hm => absurd hm List.not_mem_nil, rfl⟩

theorem Ledger.Bounded.signal (h : l.Bounded) (hm : m ≤ l.awaited) : (l.signal m).Bounded :=
  List.forall_mem_append.mpr ⟨h, List.forall_mem_singleton.mpr hm⟩

theorem Ledger.Faithful.timeout (h : l.Faithful) (hnot : l.awaited ∉ l.signalled) :
    l.timeout.Faithful :=
  List.forall_mem_append.mpr ⟨h, List.forall_mem_singleton.mpr hnot⟩

theorem Ledger.Bounded.fresh (h : l.Bounded) : l.awaited + 1 ∉ l.signalled :=
  fun hmem => Nat.not_succ_le_self _ (h _ hmem)

theorem Stage.Holds.signal (h : stage.Holds g l) : stage.Holds g.fire (l.signal m) := by
  cases harmed : g.armed with
  | false =>
    -- the gate is as it was, and no stage waits at a gate that is not armed
    have hnone : ¬ l.Awaits g := fun hawaits => by
      rw [hawaits.1] at harmed
      cases harmed
    rw [Gate.fire_of_not_armed harmed]
    cases stage with
    | between => exact h
    | armed => exact ⟨h.1, fun htoken => absurd (h.2 htoken) hnone⟩
    | pended => exact fun hwaiting => absurd (h hwaiting) hnone
  | true =>
    rw [Gate.fire, if_pos harmed]
    cases hwaiting : g.waiting <;> cases stage <;>
      simp_all [Stage.Holds, Gate.post, Sema.post, Gate.disarm]

theorem Sound.signal (h : Sound stage g l) (hm : m ≤ l.awaited) : Sound stage g.fire (l.signal m) :=
  ⟨h.faithful, h.bounded.signal hm, h.holds.signal⟩

theorem Sound.arm (h : Sound .between g l) : Sound .armed g.arm l.await where
  faithful := h.faithful
  bounded m hm := Nat.le_succ_of_le (h.bounded m hm)
  holds := ⟨h.holds, fun _ => ⟨rfl, h.bounded.fresh⟩⟩

theorem Sound.pend (h : Sound .armed g l) : Sound .pended g.pend l := by
  refine { h with holds := fun hwaiting => ?_ }
  have htoken : g.token = false := by
    cases htoken : g.token with
    | false => rfl
    | true =>
      rw [Gate.pend, Sema.pend, if_pos htoken] at hwaiting
      exact absurd (h.holds.1.symm.trans hwaiting) Bool.false_ne_true
  exact h.holds.2 htoken

theorem Sound.resume (h : Sound .pended g l) (hwaiting : g.waiting = false) : Sound .between g l :=
  { h with holds := hwaiting }

theorem Sound.expire (h : Sound .pended g l) (hwaiting : g.waiting = true) :
    Sound .between g.expire l.timeout :=
  ⟨h.faithful.timeout (h.holds hwaiting).2, h.bounded, rfl⟩

theorem Sound.disarm (h : Sound .between g l) : Sound .between g.disarm l := { h with }

end BekenSoc.NumberedWaits
