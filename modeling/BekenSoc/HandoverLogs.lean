import Mathlib.Data.List.Basic

/-!
Logs of a party that gets items and passes them on: no item is passed on twice without having been
got again in between.
-/

namespace BekenSoc.HandoverLogs

open List

inductive Act (Item : Type)
  | got (x : Item)
  | passed (x : Item)
  deriving DecidableEq

variable {Item : Type} {log : List (Act Item)} {x y : Item}

def Once (log : List (Act Item)) : Prop :=
  ∀ (before between after : List (Act Item)) (x : Item),
    log = before ++ .passed x :: (between ++ .passed x :: after) → .got x ∈ between

def Held (log : List (Act Item)) (x : Item) : Prop :=
  ∃ before after, log = before ++ .got x :: after ∧ .passed x ∉ after

theorem once_nil : Once ([] : List (Act Item)) := by
  intro before between after x h
  exact absurd h.symm (append_ne_nil_of_right_ne_nil _ (cons_ne_nil _ _))

theorem held_got (log : List (Act Item)) (x : Item) : Held (log ++ [.got x]) x :=
  ⟨log, [], rfl, not_mem_nil⟩

theorem Once.append (h : Once log) {act : Act Item}
    (hlast : ∀ before between x, act = .passed x → log = before ++ .passed x :: between →
      .got x ∈ between) : Once (log ++ [act]) := by
  intro before between after x heq
  rcases eq_nil_or_concat after with rfl | ⟨after, last, rfl⟩
  · rw [← cons_append, ← append_assoc] at heq
    obtain ⟨hlog, hact⟩ := append_inj' heq rfl
    exact hlast before between x (List.cons.inj hact).1 hlog
  · rw [concat_eq_append] at heq
    have hassoc : before ++ .passed x :: (between ++ .passed x :: (after ++ [last])) =
        (before ++ .passed x :: (between ++ .passed x :: after)) ++ [last] := by
      simp only [append_assoc, cons_append]
    rw [hassoc] at heq
    exact h before between after x (append_inj' heq rfl).1

theorem Once.got (h : Once log) (y : Item) : Once (log ++ [.got y]) := h.append nofun

theorem Once.passed (h : Once log) (hheld : Held log y) : Once (log ++ [.passed y]) := by
  refine h.append ?_
  intro before between x hact hlog
  cases hact
  obtain ⟨early, late, hgot, hlate⟩ := hheld
  rw [hgot] at hlog
  obtain ⟨mid, rfl, hmid⟩ | ⟨mid, rfl, hmid⟩ := append_eq_append_iff.mp hlog
  · cases mid with
    | nil => cases hmid
    | cons a mid =>
      obtain ⟨rfl, rfl⟩ := List.cons.inj hmid
      exact absurd (mem_append_right mid mem_cons_self) hlate
  · cases mid with
    | nil => cases hmid
    | cons a mid =>
      obtain ⟨rfl, rfl⟩ := List.cons.inj hmid
      exact mem_append_right mid mem_cons_self

theorem not_once_of_twice (before : List (Act Item)) (x : Item) (after : List (Act Item)) :
    ¬ Once (before ++ .passed x :: .passed x :: after) :=
  fun h => absurd (h before [] after x rfl) not_mem_nil

end BekenSoc.HandoverLogs
