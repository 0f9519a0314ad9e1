import Mathlib.Logic.Basic

/-!
Flags that many parties raise and one party takes, with a binary semaphore between them.

A party raises flags in one step and posts the semaphore in a later one.  The party that
waits tests the flags in one step and pends on the semaphore in a later one.
-/

namespace BekenSoc.FlagSignals

inductive Phase
  /-- it tests the flags again before it pends -/
  | running
  | missed
  | blocked
  deriving DecidableEq

structure Signal where
  token : Bool
  /-- the parties that have raised flags and not yet posted -/
  posting : Nat
  phase : Phase

namespace Signal

variable {s : Signal} {raised : Prop}

def raise (s : Signal) : Signal := { s with posting := s.posting + 1 }

def post (s : Signal) : Signal :=
  if s.phase = .blocked then { s with posting := s.posting - 1, phase := .running }
  else { s with posting := s.posting - 1, token := true }

def miss (s : Signal) : Signal := { s with phase := .missed }

def pend (s : Signal) : Signal :=
  if s.token then { s with token := false, phase := .running } else { s with phase := .blocked }

structure Covers (s : Signal) (raised : Prop) : Prop where
  missed : s.phase = .missed → raised → s.token = true ∨ 0 < s.posting
  token : s.phase = .blocked → s.token = false
  blocked : s.phase = .blocked → raised → 0 < s.posting

theorem covers_of_running (hphase : s.phase = .running) (raised : Prop) : s.Covers raised := by
  constructor <;> intro h <;> rw [hphase] at h <;> cases h

theorem Covers.heard (h : s.Covers raised) (hphase : s.phase ≠ .running) (hraised : raised) :
    s.token = true ∨ 0 < s.posting := by
  cases hs : s.phase with
  | running => exact absurd hs hphase
  | missed => exact h.missed hs hraised
  | blocked => exact .inr (h.blocked hs hraised)

theorem Covers.raise (h : s.Covers raised) (raised' : Prop) : s.raise.Covers raised' :=
  ⟨fun _ _ => .inr (Nat.succ_pos _), h.token, fun _ _ => Nat.succ_pos _⟩

theorem covers_post (raised : Prop) : s.post.Covers raised := by
  unfold Signal.post
  split
  · exact covers_of_running rfl raised
  · rename_i hphase
    exact ⟨fun _ _ => .inl rfl, fun hblocked => absurd hblocked hphase,
      fun hblocked => absurd hblocked hphase⟩

theorem covers_miss (hraised : ¬ raised) : s.miss.Covers raised := by
  constructor
  · intro _ h
    exact absurd h hraised
  · intro h
    cases h
  · intro _ h
    exact absurd h hraised

theorem Covers.pend (h : s.Covers raised) (hphase : s.phase = .missed) : s.pend.Covers raised := by
  unfold Signal.pend
  split
  · exact covers_of_running rfl raised
  · rename_i htoken
    refine ⟨?_, fun _ => eq_false_of_ne_true htoken, fun _ hraised => ?_⟩
    · intro hmissed
      cases hmissed
    · exact (h.missed hphase hraised).resolve_left htoken

end Signal

structure Ledger (ι : Type*) where
  raised : ι → Nat
  taken : ι → Nat

namespace Ledger

variable {ι : Type*} {l : Ledger ι} {pending : ι → Bool}

def empty : Ledger ι := ⟨fun _ => 0, fun _ => 0⟩

def raise (l : Ledger ι) (pending flags : ι → Bool) : Ledger ι :=
  { l with raised := fun i => l.raised i + (flags i && !pending i).toNat }

def take (l : Ledger ι) (flags : ι → Bool) : Ledger ι :=
  { l with taken := fun i => l.taken i + (flags i).toNat }

def Balanced (l : Ledger ι) (pending : ι → Bool) : Prop :=
  ∀ i, l.raised i = l.taken i + (pending i).toNat

theorem Balanced.raise (h : l.Balanced pending) (flags : ι → Bool) :
    (l.raise pending flags).Balanced fun i => pending i || flags i := by
  intro i
  have hi := h i
  change l.raised i + (flags i && !pending i).toNat = l.taken i + (pending i || flags i).toNat
  cases hp : pending i <;> cases flags i <;> simp [hi, hp]

theorem Balanced.take (h : l.Balanced pending) {flags : ι → Bool}
    (hflags : ∀ i, flags i = true → pending i = true) :
    (l.take flags).Balanced fun i => pending i && !flags i := by
  intro i
  have hi := h i
  have himp := hflags i
  change l.raised i = l.taken i + (flags i).toNat + (pending i && !flags i).toNat
  cases hf : flags i with
  | true => simp [hi, himp hf]
  | false => simp [hi]

theorem Balanced.take_none (h : l.Balanced pending) {flags : ι → Bool}
    (hflags : ∀ i, flags i = false) : (l.take flags).Balanced pending := by
  intro i
  change l.raised i = l.taken i + (flags i).toNat + (pending i).toNat
  rw [hflags i, h i]
  rfl

end Ledger

end BekenSoc.FlagSignals
