import Mathlib.Logic.Basic

/-!
Runs of a partial step function whose steps all meet a guard.

A step that cannot happen, or that never returns, is `none`.  The guard of a
step is a condition on the state before it and on the event; the guard that is
always true gives the plain reachable states.
-/

namespace BekenSoc.GuardedRuns

variable {State Event : Type*}
variable {step : State → Event → Option State} {ok : State → Event → Prop} {s start : State}

inductive Reached (step : State → Event → Option State)
    (ok : State → Event → Prop) (start : State) : State → Prop
  | start : Reached step ok start start
  | step {s s' : State} (e : Event) : Reached step ok start s → ok s e →
      step s e = some s' → Reached step ok start s'

def anyStep (_ : State) (_ : Event) : Prop := True

theorem Reached.invariant (h : Reached step ok start s) (inv : State → Prop) (hstart : inv start)
    (hstep : ∀ s e s', inv s → ok s e → step s e = some s' → inv s') : inv s := by
  induction h with
  | start => exact hstart
  | step e _ hok hs ih => exact hstep _ e _ ih hok hs

theorem Reached.mono {ok' : State → Event → Prop} (h : Reached step ok start s)
    (hok : ∀ s e, ok s e → ok' s e) :
    Reached step ok' start s := by
  induction h with
  | start => exact .start
  | step e _ he hs ih => exact ih.step e (hok _ e he) hs

theorem Reached.exists_goal (inv goal : State → Prop) (rank : State → Nat)
    (hstep : ∀ s, inv s → ¬ goal s →
      ∃ e s', ok s e ∧ step s e = some s' ∧ inv s' ∧ rank s' < rank s)
    (hstart : inv start) : ∃ s, Reached step ok start s ∧ inv s ∧ goal s := by
  have hmain : ∀ n s, rank s = n → Reached step ok start s → inv s →
      ∃ s', Reached step ok start s' ∧ inv s' ∧ goal s' := by
    intro n
    induction n using Nat.strongRecOn with
    | ind n ih =>
      intro s hn hreached hinv
      by_cases hgoal : goal s
      · exact ⟨s, hreached, hinv, hgoal⟩
      · obtain ⟨e, s', hok, hs, hinv', hlt⟩ := hstep s hinv hgoal
        exact ih (rank s') (hn ▸ hlt) s' rfl (hreached.step e hok hs) hinv'
  exact hmain (rank start) start rfl .start hstart

section Evaluation

variable {step : State → Event → Option State} {ok : State → Event → Prop}
  [∀ s e, Decidable (ok s e)]

instance (s : State) (e : Event) : Decidable (anyStep s e) := isTrue trivial

def runGuarded (step : State → Event → Option State)
    (ok : State → Event → Prop) [∀ s e, Decidable (ok s e)] : State → List Event → Option State
  | s, [] => some s
  | s, e :: es =>
    if ok s e then
      match step s e with
      | none => none
      | some s' => runGuarded step ok s' es
    else none

theorem Reached.trans_runGuarded {s' : State} (es : List Event) (h : Reached step ok start s)
    (hrun : runGuarded step ok s es = some s') :
    Reached step ok start s' := by
  induction es generalizing s with
  | nil =>
    have hs : s = s' := by simpa [runGuarded] using hrun
    exact hs ▸ h
  | cons e es ih =>
    rw [runGuarded] at hrun
    split at hrun
    · rename_i hok
      cases hstep : step s e with
      | none => simp [hstep] at hrun
      | some =>
        rw [hstep] at hrun
        exact ih (h.step e hok hstep) hrun
    · cases hrun

theorem exists_reached (step : State → Event → Option State) (ok : State → Event → Prop)
    [∀ s e, Decidable (ok s e)] (start : State) (property : State → Prop) [DecidablePred property]
    (es : List Event)
    (hrun : (runGuarded step ok start es).any (fun s => decide (property s)) = true) :
    ∃ s, Reached step ok start s ∧ property s := by
  obtain ⟨s, hend, hs⟩ := (Option.any_eq_true _ _).mp hrun
  exact ⟨s, Reached.start.trans_runGuarded es hend, of_decide_eq_true hs⟩

theorem exists_reached_and {property result : State → Prop} [DecidablePred property]
    (hresult : ∀ s, Reached step ok start s → result s) (es : List Event)
    (hrun : (runGuarded step ok start es).any (fun s => decide (property s)) = true) :
    ∃ s, Reached step ok start s ∧ property s ∧ result s := by
  obtain ⟨s, hreached, hs⟩ := exists_reached step ok start property es hrun
  exact ⟨s, hreached, hs, hresult s hreached⟩

theorem exists_goal_of_rank (owed : State → Prop) (goal : State → Event → Prop) {rank : State → Nat}
    {extra : Event → Bool} {c : Nat}
    (hstep : ∀ s e s', owed s → ok s e → step s e = some s' →
      goal s e ∨ owed s' ∧ rank s' + 1 ≤ rank s + if extra e then c else 0)
    {s' : State} (es : List Event) (hrun : runGuarded step ok s es = some s') (howed : owed s)
    (hlong : rank s + c * es.countP extra < es.length) :
    ∃ before e after t, es = before ++ e :: after ∧
      runGuarded step ok s before = some t ∧ goal t e := by
  induction es generalizing s with
  | nil => exact absurd hlong (Nat.not_lt_zero _)
  | cons e es ih =>
    rw [runGuarded] at hrun
    split at hrun
    · rename_i hok
      cases hs : step s e with
      | none => simp [hs] at hrun
      | some t =>
        rw [hs] at hrun
        rcases hstep s e t howed hok hs with hgoal | ⟨howed', hrank⟩
        · exact ⟨[], e, es, s, rfl, rfl, hgoal⟩
        · have hrest : rank t + c * es.countP extra < es.length := by
            rw [List.countP_cons, List.length_cons, Nat.mul_add] at hlong
            split at hrank <;> rename_i hextra
            · rw [if_pos hextra] at hlong
              omega
            · rw [if_neg hextra] at hlong
              omega
          obtain ⟨before, e', after, t', heq, hbefore, hgoal⟩ := ih hrun howed' hrest
          refine ⟨e :: before, e', after, t', by rw [heq, List.cons_append], ?_, hgoal⟩
          rw [runGuarded, if_pos hok, hs]
          exact hbefore
    · cases hrun

end Evaluation

section Outputs

variable {Output : Type*}

def runOutputs (step : State → Event → State × Output) : State → List Event → State × List Output
  | s, [] => (s, [])
  | s, e :: es =>
    let r := runOutputs step (step s e).1 es
    (r.1, (step s e).2 :: r.2)

theorem runOutputs_simulation {State' : Type*} {step : State → Event → State × Output}
    {step' : State' → Event → State' × Output} {related : State → State' → Prop}
    (hstep : ∀ s s' e, related s s' →
      related (step s e).1 (step' s' e).1 ∧ (step s e).2 = (step' s' e).2)
    {s' : State'} (h : related s s') (es : List Event) :
    related (runOutputs step s es).1 (runOutputs step' s' es).1 ∧
      (runOutputs step s es).2 = (runOutputs step' s' es).2 := by
  induction es generalizing s s' with
  | nil => exact ⟨h, rfl⟩
  | cons e es ih =>
    obtain ⟨hrelated, hout⟩ := hstep s s' e h
    obtain ⟨hend, houts⟩ := ih hrelated
    refine ⟨hend, ?_⟩
    rw [runOutputs, runOutputs, hout, houts]

end Outputs

end BekenSoc.GuardedRuns
