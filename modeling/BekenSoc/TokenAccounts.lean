import Mathlib.Tactic.Common

/-!
Two parties that hand one token back and forth.
-/

namespace BekenSoc.TokenAccounts

structure Account where
  /-- requests that are counted -/
  cnt : Nat
  /-- of these, told to drain the semaphore and without having done so -/
  undrained : Nat
  /-- tasks that are about to drain -/
  draining : Nat
  /-- tasks that may take the semaphore -/
  waiting : Nat
  /-- holders, and releases that are not yet counted -/
  active : Nat
  /-- releases that are counted and have still to give the semaphore -/
  giving : Nat
  sema : Nat
  /-- indications to this party, sent or about to be sent -/
  coming : Nat

namespace Account

def zero : Account := ⟨0, 0, 0, 0, 0, 0, 0, 0⟩

def tokens (a : Account) : Nat := a.active + a.giving + a.sema + a.coming

structure Sound (a : Account) : Prop where
  claims : a.draining + a.waiting + a.active ≤ a.cnt
  tokens_le : a.tokens ≤ 1 + a.undrained
  undrained_le : a.undrained ≤ a.cnt
  draining_le : a.draining ≤ a.undrained
  coming_one : 0 < a.coming → a.coming = 1 ∧ 0 < a.cnt ∧ a.active = 0
  quiet : 0 < a.undrained → a.active = 0

structure Passive (a : Account) : Prop where
  active : a.active = 0
  coming : a.coming = 0
  drained : a.cnt = 0 ∨ a.tokens ≤ a.undrained

structure Below (a' a : Account) : Prop where
  cnt : a'.cnt = a.cnt
  undrained : a'.undrained = a.undrained
  draining : a'.draining ≤ a.draining
  waiting : a'.waiting ≤ a.waiting
  active : a'.active ≤ a.active
  coming : a'.coming ≤ a.coming
  tokens : a'.tokens ≤ a.tokens

theorem Below.refl (a : Account) : Below a a :=
  ⟨rfl, rfl, Nat.le_refl _, Nat.le_refl _, Nat.le_refl _, Nat.le_refl _, Nat.le_refl _⟩

theorem Sound.of_below {a' a : Account} (h : a.Sound) (hb : Below a' a) : a'.Sound := by
  obtain ⟨hcnt, hund, hdrain, hwait, hact, hcom, htok⟩ := hb
  refine ⟨?_, ?_, ?_, ?_, ?_, ?_⟩
  · have := h.claims
    omega
  · have := h.tokens_le
    omega
  · have := h.undrained_le
    omega
  · have := h.draining_le
    omega
  · intro hpos
    have := h.coming_one (by omega)
    omega
  · intro hpos
    have := h.quiet (by omega)
    omega

theorem Passive.of_below {a' a : Account} (h : a.Passive) (hb : Below a' a) : a'.Passive := by
  obtain ⟨hcnt, hund, -, -, hact, hcom, htok⟩ := hb
  obtain ⟨hactive, hcoming, hdrained⟩ := h
  exact ⟨by omega, by omega, by omega⟩

end Account

open Account

structure Balanced (a b : Account) : Prop where
  own : a.Sound
  other : b.Sound
  turn : a.Passive ∨ b.Passive

theorem Balanced.symm {a b : Account} (h : Balanced a b) : Balanced b a :=
  ⟨h.other, h.own, h.turn.symm⟩

inductive Move : Account → Account → Account → Account → Prop
  | settle {a b a' b' : Account} : Below a' a → Below b' b → Move a b a' b'
  | start {a b : Account} : a.cnt = 0 → a.tokens = 0 →
      Move a b { a with sema := 1 } b
  | countFirst {a b : Account} (d : Nat) : a.cnt = 0 → 0 < b.cnt → d ≤ 1 →
      Move a b { a with cnt := a.cnt + 1, undrained := a.undrained + 1,
                        draining := a.draining + d } b
  | countMore {a b : Account} (w : Nat) : ¬ (a.cnt = 0 ∧ 0 < b.cnt) → w ≤ 1 →
      Move a b { a with cnt := a.cnt + 1, waiting := a.waiting + w } b
  | drain {a b : Account} : 0 < a.draining → a.sema = 1 →
      Move a b { a with undrained := a.undrained - 1, draining := a.draining - 1,
                        waiting := a.waiting + 1, sema := 0 } b
  | drainFail {a b : Account} : 0 < a.draining → a.sema = 0 → a.giving = 0 →
      Move a b { a with undrained := a.undrained - 1, draining := a.draining - 1 } b
  | take {a b : Account} : a.undrained = 0 → 0 < a.waiting → a.sema = 1 →
      Move a b { a with waiting := a.waiting - 1, active := a.active + 1, sema := 0 } b
  | uncount {a b : Account} (g x : Nat) : 0 < a.active → g ≤ 1 → x ≤ 1 →
      (0 < x → a.cnt = 1 ∧ 0 < b.cnt) →
      Move a b { a with cnt := a.cnt - 1, active := a.active - 1, giving := a.giving + g }
        { b with coming := b.coming + x }

theorem Move.balanced {a b a' b' : Account} (h : Balanced a b)
    (hmove : Move a b a' b') : Balanced a' b' := by
  obtain ⟨⟨hclaims, htokens, hund, hdrain, hcoming, hquiet⟩, hother, hturn⟩ := h
  cases hmove with
  | settle ha hb =>
    refine ⟨Sound.of_below ⟨hclaims, htokens, hund, hdrain, hcoming, hquiet⟩ ha,
      hother.of_below hb, ?_⟩
    exact hturn.imp (fun hp => hp.of_below ha) fun hp => hp.of_below hb
  | start hcnt =>
    unfold tokens at *
    refine ⟨⟨hclaims, ?_, hund, hdrain, hcoming, hquiet⟩, hother, ?_⟩
    · simp only [tokens]
      omega
    · refine .inl ⟨?_, ?_, .inl hcnt⟩
      · show a.active = 0
        omega
      · show a.coming = 0
        omega
  | countFirst =>
    unfold tokens at *
    have hactive : a.active = 0 := by omega
    have hnone : a.coming = 0 := by
      by_contra hpos
      have := hcoming (by omega)
      omega
    refine ⟨⟨?_, ?_, ?_, ?_, ?_, ?_⟩, hother, .inl ⟨hactive, hnone, .inr ?_⟩⟩
    all_goals simp only [tokens]
    all_goals omega
  | countMore =>
    refine ⟨⟨?_, htokens, ?_, hdrain, ?_, hquiet⟩, hother, ?_⟩
    · simp only
      omega
    · simp only
      omega
    · intro hpos
      have := hcoming hpos
      simp only
      omega
    · rcases hturn with hp | hp
      · rcases hp.drained with hzero | hle
        · -- both parties were without a request
          right
          have hb : b.cnt = 0 := by omega
          have hbc := hother.claims
          have hcom : b.coming = 0 := by
            by_contra hpos
            have := hother.coming_one (by omega)
            omega
          exact ⟨by omega, hcom, .inl hb⟩
        · exact .inl { hp with drained := .inr hle }
      · exact .inr hp
  | drain =>
    unfold tokens at *
    have hactive : a.active = 0 := hquiet (by omega)
    refine ⟨⟨?_, ?_, ?_, ?_, hcoming, fun _ => hactive⟩, hother, ?turn⟩
    case turn =>
      refine hturn.imp (fun hp => { hp with drained := ?_ }) id
      have hdr := hp.drained
      unfold tokens at *
      simp only
      omega
    all_goals simp only [tokens]
    all_goals omega
  | drainFail =>
    unfold tokens at *
    have hactive : a.active = 0 := hquiet (by omega)
    have hcom : a.coming ≤ 1 := by
      by_contra hgt
      have := hcoming (by omega)
      omega
    refine ⟨⟨?_, ?_, ?_, ?_, hcoming, fun _ => hactive⟩, hother, ?turn⟩
    case turn =>
      refine hturn.imp (fun hp => { hp with drained := .inr ?_ }) id
      have := hp.coming
      simp only [tokens]
      omega
    all_goals simp only [tokens]
    all_goals omega
  | take =>
    unfold tokens at *
    refine ⟨⟨?_, ?_, hund, hdrain, ?_, ?_⟩, hother, .inr ?turn⟩
    case turn =>
      rcases hturn with hp | hp
      · have := hp.drained
        unfold tokens at *
        omega
      · exact hp
    all_goals simp only [tokens]
    all_goals omega
  | uncount g x =>
    obtain ⟨hbclaims, hbtokens, hbund, hbdrain, hbcoming, hbquiet⟩ := hother
    have hund0 : a.undrained = 0 := by
      by_contra hne
      have := hquiet (by omega)
      omega
    have hp : b.Passive := by
      rcases hturn with hp | hp
      · have := hp.active
        omega
      · exact hp
    obtain ⟨hbact, hbcom, hbdr⟩ := hp
    unfold tokens at *
    refine ⟨⟨?_, ?_, ?_, ?_, ?_, ?_⟩, ⟨hbclaims, ?_, hbund, hbdrain, ?_, hbquiet⟩, ?turn⟩
    case turn =>
      rcases Nat.eq_zero_or_pos x with hx0 | hxpos
      · right
        subst hx0
        exact ⟨hbact, hbcom, hbdr⟩
      · left
        refine ⟨?_, ?_, .inl ?_⟩
        all_goals simp only
        all_goals omega
    all_goals simp only [tokens]
    all_goals omega

theorem Move.zero_right {a a' b' : Account} (h : Move a zero a' b') : b' = zero := by
  cases h with
  | settle _ hb =>
    obtain ⟨hcnt, hund, hdrain, hwait, hact, hcom, htok⟩ := hb
    obtain ⟨cnt, undrained, draining, waiting, active, giving, sema, coming⟩ := b'
    simp only [zero, tokens] at *
    simp only [mk.injEq]
    omega
  | start | countFirst | countMore | drain | drainFail | take => rfl
  | uncount g x _ _ _ hind =>
    have hx : x = 0 := by
      by_contra hne
      exact absurd (hind (by omega)).2 (by simp [zero])
    subst hx
    rfl

end BekenSoc.TokenAccounts
