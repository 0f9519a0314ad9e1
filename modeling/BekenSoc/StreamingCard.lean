import Mathlib.Logic.Function.Basic

/-!
A memory card that streams blocks, in one direction at a time, until it is told to stop.

A command has an effect and an answer only in the mode it is for; whether it is executed and what
is seen of its answer is given with it.  A block that is not taken makes the card ignore all
further blocks up to the stop.
-/

namespace BekenSoc.StreamingCard

open Function

inductive Mode
  | ready
  /-- sends, the block with this number next -/
  | sending (block : Nat)
  /-- receives, for the block with this number next -/
  | receiving (block : Nat)
  | ignoring
  deriving DecidableEq

structure Card (size : Nat) (β : Type*) where
  mode : Mode
  data : Nat → β

inductive Response
  | ok
  | crcFail
  | timeout
  deriving DecidableEq

structure CmdFate where
  executed : Bool
  response : Response
  deriving DecidableEq

inductive SendFate (β : Type*)
  | good
  | crcFail (received : β)
  | lost

inductive TakeFate
  | taken
  | rejected
  deriving DecidableEq

variable {size : Nat} {β : Type*}

namespace Card

def command (c : Card size β) (legal : Bool) (next : Mode) (fate : CmdFate) :
    Response × Card size β :=
  if legal then (fate.response, if fate.executed then { c with mode := next } else c)
  else (.timeout, c)

def startRead (c : Card size β) (block : Nat) (fate : CmdFate) : Response × Card size β :=
  c.command (c.mode == .ready) (.sending block) fate

def startWrite (c : Card size β) (block : Nat) (fate : CmdFate) : Response × Card size β :=
  c.command (c.mode == .ready) (.receiving block) fate

def stop (c : Card size β) (fate : CmdFate) : Response × Card size β :=
  c.command (c.mode != .ready) .ready fate

def poll (c : Card size β) (fate : CmdFate) : Response :=
  (c.command (c.mode == .ready) c.mode fate).1

def send (c : Card size β) (fate : SendFate β) : Option (β × Bool) × Card size β :=
  match c.mode with
  | .sending block =>
    if block < size then
      match fate with
      | .good => (some (c.data block, true), { c with mode := .sending (block + 1) })
      | .crcFail received => (some (received, false), { c with mode := .sending (block + 1) })
      | .lost => (none, c)
    else (none, c)
  | _ => (none, c)

def take (c : Card size β) (content : β) (fate : TakeFate) : Bool × Card size β :=
  match c.mode with
  | .receiving block =>
    if block < size ∧ fate = .taken then
      (true, { c with
        mode := .receiving (block + 1), data := update c.data block content })
    else (false, { c with mode := .ignoring })
  | _ => (false, c)

end Card

def place (data : Nat → β) (first : Nat) (contents : List β) : Nat → β := fun block =>
  if first ≤ block then contents[block - first]?.getD (data block) else data block

def slice (data : Nat → β) (first n : Nat) : List β := (List.range n).map fun i => data (first + i)

theorem place_nil (data : Nat → β) (first : Nat) : place data first [] = data := by
  funext block
  unfold place
  split <;> rfl

theorem place_cons (data : Nat → β) (first : Nat) (content : β) (contents : List β) :
    place data first (content :: contents) =
      place (update data first content) (first + 1) contents := by
  funext block
  unfold place
  rcases Nat.lt_trichotomy block first with hlt | rfl | hgt
  · rw [if_neg (by omega), if_neg (by omega), update_of_ne (by omega)]
  · rw [if_pos (Nat.le_refl _), if_neg (by omega), Nat.sub_self, update_self]
    rfl
  · have hindex : block - first = (block - (first + 1)) + 1 := by omega
    rw [if_pos (by omega), if_pos (by omega), hindex, List.getElem?_cons_succ,
      update_of_ne (by omega)]

theorem slice_succ (data : Nat → β) (first n : Nat) :
    slice data first (n + 1) = data first :: slice data (first + 1) n := by
  unfold slice
  rw [List.range_succ_eq_map, List.map_cons, List.map_map, Nat.add_zero]
  congr 1
  apply List.map_congr_left
  intro i _
  rw [Function.comp_apply, Nat.succ_eq_add_one, Nat.add_assoc, Nat.add_comm 1 i]

namespace Card

variable {c : Card size β}

theorem command_ok {legal : Bool} {next : Mode} {fate : CmdFate}
    (h : (c.command legal next fate).1 = .ok) : legal = true ∧ fate.response = .ok ∧
      (c.command legal next fate).2 = if fate.executed then { c with mode := next } else c := by
  unfold command at h ⊢
  cases legal with
  | false => cases h
  | true => exact ⟨rfl, h, rfl⟩

theorem command_cases (c : Card size β) (legal : Bool) (next : Mode) (fate : CmdFate) :
    (c.command legal next fate).2 = c ∨ legal = true ∧ fate.executed = true ∧
        (c.command legal next fate).2 = { c with mode := next } := by
  unfold command
  cases legal with
  | false => exact .inl rfl
  | true =>
    cases hexecuted : fate.executed with
    | false => exact .inl (by simp)
    | true => exact .inr ⟨rfl, rfl, by simp⟩

theorem command_data (c : Card size β) (legal : Bool) (next : Mode) (fate : CmdFate) :
    (c.command legal next fate).2.data = c.data := by
  rcases c.command_cases legal next fate with heq | ⟨-, -, heq⟩ <;> rw [heq]

theorem send_cases (c : Card size β) (fate : SendFate β) : (c.send fate = (none, c)) ∨
      ∃ block, c.mode = .sending block ∧ block < size ∧
        (c.send fate = (some (c.data block, true), { c with mode := .sending (block + 1) }) ∨
          ∃ received, c.send fate =
            (some (received, false), { c with mode := .sending (block + 1) })) := by
  unfold send
  cases hmode : c.mode with
  | ready | receiving | ignoring => exact .inl rfl
  | sending block =>
    dsimp only
    split
    · rename_i hblock
      cases fate with
      | good => exact .inr ⟨block, rfl, hblock, .inl rfl⟩
      | crcFail received => exact .inr ⟨block, rfl, hblock, .inr ⟨received, rfl⟩⟩
      | lost => exact .inl rfl
    · exact .inl rfl

theorem take_cases (c : Card size β) (content : β) (fate : TakeFate) :
    (∃ block, c.mode = .receiving block ∧ block < size ∧ fate = .taken ∧
      c.take content fate = (true, { c with
        mode := .receiving (block + 1), data := update c.data block content })) ∨
    (∃ block, c.mode = .receiving block ∧ (size ≤ block ∨ fate = .rejected) ∧
      c.take content fate = (false, { c with mode := .ignoring })) ∨
    (∀ block, c.mode ≠ .receiving block) ∧ c.take content fate = (false, c) := by
  unfold take
  cases hmode : c.mode with
  | ready | sending | ignoring => exact .inr (.inr ⟨fun _ h => (by cases h), rfl⟩)
  | receiving block =>
    dsimp only
    split
    · rename_i htaken
      exact .inl ⟨block, rfl, htaken.1, htaken.2, rfl⟩
    · rename_i hnot
      refine .inr (.inl ⟨block, rfl, ?_, rfl⟩)
      cases fate with
      | rejected => exact .inr rfl
      | taken => exact .inl (Nat.le_of_not_lt fun hlt => hnot ⟨hlt, rfl⟩)

end Card

end BekenSoc.StreamingCard
