import BekenSoc.GuardedRuns
import BekenSoc.TimerDriver

namespace BekenSoc.TimerDelivery

open Function BitMasks GuardedRuns TimerDriver

section Guards

def collecting : Phase → Bool
  | .reading .. | .clearing .. | .rereading .. => true
  | .idle | .dispatching .. => false

/-- No channel becomes pending while a handler reads and clears the flags, and a handler is entered
only when no channel of the other line that has a callback is pending. -/
def Undisturbed (registered : Nat → Bool) (s : Timer) : Event → Prop
  | .expire _ => collecting s.phase = false
  | .interrupt line => ∀ c < chanNumPerUnit, s.pending c = true → registered c = true →
      firstChan line ≤ c ∧ c < endChan line
  | .handler => True

instance (registered : Nat → Bool) (s : Timer) (e : Event) :
    Decidable (Undisturbed registered s e) :=
  match e with
  | .expire _ => inferInstanceAs (Decidable (_ = _))
  | .interrupt _ => inferInstanceAs (Decidable (∀ _ < _, _ → _ → _))
  | .handler => isTrue trivial

def HandlerOnly (_ : Timer) (e : Event) : Prop := e = .handler

structure Start (s : Timer) : Prop where
  phase : s.phase = .idle
  within : ∀ c, chanNumPerUnit ≤ c → s.pending c = false
  cleared : ∀ c, s.cleared c = 0
  invoked : ∀ c, s.invoked c = 0

end Guards

section Invariant

variable {writeBack : Bool} {registered : Nat → Bool} {s s' : Timer} {line : Line}
  {status : BitVec 32}

def Balanced (registered : Nat → Bool) (s : Timer) (owed : Nat → Bool) : Prop :=
  ∀ c, registered c = true → s.cleared c = s.invoked c + (owed c).toNat

def OnLine (registered : Nat → Bool) (line : Line) (chans : Nat → Bool) : Prop :=
  ∀ c, chans c = true → registered c = true → firstChan line ≤ c ∧ c < endChan line

structure Collected (registered : Nat → Bool) (s : Timer) (line : Line) (status : BitVec 32) :
    Prop where
  balanced : Balanced registered s fun c => status.getLsbD c && !s.pending c
  onLine : OnLine registered line status.getLsbD
  pending : ∀ c, s.pending c = true → status.getLsbD c = true

def PhaseSound (registered : Nat → Bool) (s : Timer) : Phase → Prop
  | .idle => Balanced registered s fun _ => false
  | .reading line status bitPos => bitPos < chanNumPerUnit ∧
      (Balanced registered s fun _ => false) ∧ OnLine registered line s.pending ∧
      ∀ c, status.getLsbD c = (decide (c < bitPos) && s.pending c)
  | .clearing line status id => id ≤ chanNumPerUnit ∧ Collected registered s line status ∧
      ∀ c < id, s.pending c = false
  | .rereading line status id => id < chanNumPerUnit ∧ Collected registered s line status ∧
      ∀ c < id + 1, s.pending c = false
  | .dispatching line status chan => chan ≤ chanNumPerUnit ∧
      (Balanced registered s fun c => status.getLsbD c && decide (chan ≤ c)) ∧
      OnLine registered line status.getLsbD

structure Sound (registered : Nat → Bool) (s : Timer) : Prop where
  within : ∀ c, chanNumPerUnit ≤ c → s.pending c = false
  phase : PhaseSound registered s s.phase

theorem firstChan_le (line : Line) : firstChan line ≤ chanNumPerUnit := by
  cases line <;> decide

theorem endChan_le (line : Line) : endChan line ≤ chanNumPerUnit := by
  cases line <;> decide

theorem Start.sound (h : Start s) : Sound registered s := by
  refine ⟨h.within, ?_⟩
  rw [h.phase]
  intro c _
  rw [h.cleared, h.invoked]
  rfl

theorem getLsbD_read {bitPos : Nat} (hlt : bitPos < chanNumPerUnit)
    (hstatus : ∀ c, status.getLsbD c = (decide (c < bitPos) && s.pending c)) (c : Nat) :
    (if s.pending bitPos then setBit status bitPos else status).getLsbD c =
      (decide (c < bitPos + 1) && s.pending c) := by
  have hwidth : bitPos < 32 := Nat.lt_trans hlt (by decide)
  have hsplit : decide (c < bitPos + 1) = (decide (c < bitPos) || decide (c = bitPos)) := by
    rw [Bool.eq_iff_iff, Bool.or_eq_true, decide_eq_true_iff, decide_eq_true_iff,
      decide_eq_true_iff]
    omega
  rw [hsplit]
  split
  · rename_i hpending
    rw [getLsbD_setBit _ hwidth, hstatus]
    by_cases heq : c = bitPos
    · rw [heq, hpending]
      simp
    · rw [decide_eq_false heq, Bool.or_false, Bool.or_false]
  · rename_i hnot
    rw [hstatus]
    by_cases heq : c = bitPos
    · rw [heq, Bool.eq_false_iff.mpr hnot, Bool.and_false, Bool.and_false]
    · rw [decide_eq_false heq, Bool.or_false]

theorem collected_of_read (hwithin : ∀ c, chanNumPerUnit ≤ c → s.pending c = false)
    (hbalanced : Balanced registered s fun _ => false) (honLine : OnLine registered line s.pending)
    (hstatus : ∀ c, status.getLsbD c = (decide (c < chanNumPerUnit) && s.pending c)) :
    Collected registered s line status := by
  have hsame : ∀ c, status.getLsbD c = s.pending c := by
    intro c
    rw [hstatus]
    by_cases hc : c < chanNumPerUnit
    · rw [decide_eq_true hc, Bool.true_and]
    · rw [decide_eq_false hc, Bool.false_and, hwithin c (Nat.le_of_not_lt hc)]
  refine ⟨?_, ?_, ?_⟩
  · intro c hc
    dsimp only
    rw [hsame, Bool.and_not_self]
    exact hbalanced c hc
  · intro c hc
    exact honLine c (hsame c ▸ hc)
  · intro c hc
    rw [hsame, hc]

theorem Collected.writeFlag (h : Collected registered s line status) (id : Nat) :
    Collected registered (writeFlag writeBack s id) line status := by
  refine ⟨?_, h.onLine, ?_⟩
  · intro c hc
    have hbefore := h.balanced c hc
    have hpending := h.pending c
    dsimp only [TimerDriver.writeFlag] at hbefore ⊢
    cases hp : s.pending c with
    | false =>
      rw [hp] at hbefore
      exact hbefore
    | true =>
      rw [hp, hpending hp] at hbefore
      rw [hpending hp]
      cases hits writeBack id c with
      | false => exact hbefore
      | true => exact congrArg (· + 1) hbefore
  · intro c hc
    exact h.pending c (Bool.and_eq_true_iff.mp hc).1

theorem pending_writeFlag_of_lt {id : Nat} (h : ∀ c < id, s.pending c = false) :
    ∀ c < id + 1, (writeFlag writeBack s id).pending c = false := by
  intro c hc
  by_cases heq : c = id
  · have hhit : hits writeBack id c = true := by rw [hits, heq, beq_self_eq_true, Bool.true_or]
    rw [writeFlag_pending, hhit, Bool.not_true, Bool.and_false]
  · rw [writeFlag_pending, h c (by omega), Bool.false_and]

theorem Collected.dispatch (h : Collected registered s line status)
    (hnone : ∀ c, s.pending c = false) :
    Balanced registered s fun c => status.getLsbD c && decide (firstChan line ≤ c) := by
  intro c hc
  rw [h.balanced c hc]
  dsimp only
  rw [hnone c, Bool.not_false, Bool.and_true]
  cases hs : status.getLsbD c with
  | false => rfl
  | true => rw [decide_eq_true (h.onLine c hs hc).1, Bool.and_true]

theorem Balanced.invoke {chan : Nat}
    (h : Balanced registered s fun c => status.getLsbD c && decide (chan ≤ c)) (phase : Phase) :
    Balanced registered { s with
        invoked := if status.getLsbD chan && registered chan then
          update s.invoked chan (s.invoked chan + 1) else s.invoked
        phase := phase }
      fun c => status.getLsbD c && decide (chan + 1 ≤ c) := by
  intro c hc
  have hbefore := h c hc
  dsimp only at hbefore ⊢
  by_cases heq : c = chan
  · subst heq
    rw [decide_eq_true (Nat.le_refl c), Bool.and_true] at hbefore
    rw [decide_eq_false (Nat.not_succ_le_self c), Bool.and_false, hbefore, hc, Bool.and_true]
    cases status.getLsbD c with
    | false => rfl
    | true => rw [if_pos rfl, update_self]; rfl
  · have hle : decide (chan + 1 ≤ c) = decide (chan ≤ c) := by
      rw [decide_eq_decide]
      omega
    rw [hle, hbefore]
    split
    · rw [update_of_ne heq]
    · rfl

theorem Balanced.finish {chan : Nat} (hend : endChan line ≤ chan)
    (honLine : OnLine registered line status.getLsbD)
    (h : Balanced registered s fun c => status.getLsbD c && decide (chan ≤ c)) :
    Balanced registered s fun _ => false := by
  intro c hc
  rw [h c hc]
  dsimp only
  cases hs : status.getLsbD c with
  | false => rfl
  | true =>
    have hlt := (honLine c hs hc).2
    rw [decide_eq_false (by omega), Bool.and_false]

section

variable (h : Sound registered s)
include h

theorem Sound.handlerStep (hs : handlerStep writeBack registered s = some s') :
    Sound registered s' := by
  obtain ⟨hwithin, hsound⟩ := h
  cases hphase : s.phase with
  | idle =>
    rw [TimerDriver.handlerStep, hphase] at hs
    cases hs
  | reading line status bitPos =>
    rw [TimerDriver.handlerStep, hphase] at hs
    rw [hphase] at hsound
    obtain ⟨hlt, hbalanced, honLine, hstatus⟩ := hsound
    obtain rfl := Option.some.inj hs
    have hread := getLsbD_read hlt hstatus
    refine ⟨hwithin, ?_⟩
    dsimp only
    split
    · rename_i hmore
      exact ⟨hmore, hbalanced, honLine, hread⟩
    · have hlast : bitPos + 1 = chanNumPerUnit := by omega
      rw [hlast] at hread
      exact ⟨Nat.zero_le _, collected_of_read hwithin hbalanced honLine hread, nofun⟩
  | clearing line status id =>
    rw [TimerDriver.handlerStep, hphase] at hs
    rw [hphase] at hsound
    obtain ⟨hle, hcollected, hdone⟩ := hsound
    dsimp only at hs
    split at hs
    · rename_i hlt
      split at hs
      · obtain rfl := Option.some.inj hs
        refine ⟨?_, hlt, { hcollected.writeFlag id with onLine := hcollected.onLine },
          pending_writeFlag_of_lt hdone⟩
        intro c hc
        change (writeFlag writeBack s id).pending c = false
        rw [writeFlag_pending, hwithin c hc, Bool.false_and]
      · rename_i hnot
        obtain rfl := Option.some.inj hs
        refine ⟨hwithin, hlt, { hcollected with }, ?_⟩
        intro c hc
        by_cases heq : c = id
        · rw [Bool.eq_false_iff]
          exact fun hp => hnot (heq ▸ hcollected.pending c hp)
        · exact hdone c (by omega)
    · rename_i hend
      obtain rfl := Option.some.inj hs
      refine ⟨hwithin, firstChan_le line, ?_, hcollected.onLine⟩
      refine hcollected.dispatch ?_
      intro c
      by_cases hc : c < chanNumPerUnit
      · exact hdone c (by omega)
      · exact hwithin c (Nat.le_of_not_lt hc)
  | rereading line status id =>
    rw [TimerDriver.handlerStep, hphase] at hs
    rw [hphase] at hsound
    obtain ⟨hlt, hcollected, hdone⟩ := hsound
    obtain rfl := Option.some.inj hs
    refine ⟨hwithin, ?_⟩
    dsimp only
    rw [hdone id (Nat.lt_succ_self id), if_neg Bool.false_ne_true]
    exact ⟨hlt, { hcollected with }, hdone⟩
  | dispatching line =>
    rw [TimerDriver.handlerStep, hphase] at hs
    rw [hphase] at hsound
    obtain ⟨hle, hbalanced, honLine⟩ := hsound
    dsimp only at hs
    split at hs
    · rename_i hlt
      obtain rfl := Option.some.inj hs
      refine ⟨hwithin, ?_, hbalanced.invoke _, honLine⟩
      exact Nat.le_trans hlt (endChan_le line)
    · rename_i hend
      obtain rfl := Option.some.inj hs
      exact ⟨hwithin, hbalanced.finish (Nat.le_of_not_lt hend) honLine⟩

theorem Sound.expire {chan : Nat} (hquiet : collecting s.phase = false)
    (hchan : chan < chanNumPerUnit) :
    Sound registered { s with pending := update s.pending chan true } := by
  refine ⟨?_, ?_⟩
  · intro c hc
    have hne : c ≠ chan := by omega
    dsimp only
    rw [update_of_ne hne]
    exact h.within c hc
  · have hsound := h.phase
    dsimp only
    cases hphase : s.phase with
    | idle | dispatching =>
      rw [hphase] at hsound
      exact hsound
    | _ =>
      rw [hphase] at hquiet
      cases hquiet

theorem Sound.step {e : Event} (hok : Undisturbed registered s e)
    (hs : step writeBack registered s e = some s') : Sound registered s' := by
  cases e with
  | expire =>
    obtain ⟨hchan, rfl⟩ := Option.ite_some_none_eq_some.mp hs
    exact h.expire hok hchan
  | interrupt =>
    cases hphase : s.phase with
    | idle =>
      rw [TimerDriver.step, hphase] at hs
      obtain rfl := Option.some.inj hs
      have hsound := h.phase
      rw [hphase] at hsound
      refine ⟨h.within, by decide, hsound, ?_, ?_⟩
      · intro c hpending hreg
        have hc : c < chanNumPerUnit := by
          by_contra hout
          rw [h.within c (Nat.le_of_not_lt hout)] at hpending
          cases hpending
        exact hok c hc hpending hreg
      · intro c
        rw [BitVec.getLsbD_zero, decide_eq_false (Nat.not_lt_zero c), Bool.false_and]
    | _ =>
      rw [TimerDriver.step, hphase] at hs
      cases hs
  | handler => exact h.handlerStep hs

theorem Sound.invoked_le {c : Nat} (hc : registered c = true) : s.invoked c ≤ s.cleared c := by
  have hsound := h.phase
  cases hphase : s.phase with
  | idle => rw [hphase] at hsound; exact (hsound c hc).symm ▸ Nat.le_add_right _ _
  | reading =>
    rw [hphase] at hsound
    exact (hsound.2.1 c hc).symm ▸ Nat.le_add_right _ _
  | clearing | rereading =>
    rw [hphase] at hsound
    exact (hsound.2.1.balanced c hc).symm ▸ Nat.le_add_right _ _
  | dispatching =>
    rw [hphase] at hsound
    exact (hsound.2.1 c hc).symm ▸ Nat.le_add_right _ _

theorem Sound.eq_of_idle (hidle : s.phase = .idle) {c : Nat} (hc : registered c = true) :
    s.invoked c = s.cleared c := by
  have hsound := h.phase
  rw [hidle] at hsound
  exact (hsound c hc).symm

end

end Invariant

section Progress

variable {writeBack : Bool} {registered : Nat → Bool} {s s' : Timer}

def rank : Phase → Nat
  | .idle => 0
  | .reading _ _ bitPos => 40 - bitPos
  | .clearing _ _ id => 30 - 2 * id
  | .rereading _ _ id => 29 - 2 * id
  | .dispatching _ _ chan => 10 - chan

theorem exists_handlerStep (h : Sound registered s) (hbusy : s.phase ≠ .idle) :
    ∃ s', handlerStep writeBack registered s = some s' ∧ rank s'.phase < rank s.phase := by
  have hunit : chanNumPerUnit = 6 := rfl
  have hsound := h.phase
  cases hphase : s.phase with
  | idle => exact absurd hphase hbusy
  | reading =>
    rw [hphase] at hsound
    have hlt := hsound.1
    refine ⟨_, by rw [handlerStep, hphase], ?_⟩
    dsimp only
    split <;> dsimp only [rank] <;> omega
  | clearing =>
    rw [hphase] at hsound
    have hle := hsound.1
    rw [handlerStep, hphase]
    dsimp only
    split
    · split
      · exact ⟨_, rfl, by dsimp only [rank]; omega⟩
      · exact ⟨_, rfl, by dsimp only [rank]; omega⟩
    · exact ⟨_, rfl, by dsimp only [rank]; omega⟩
  | rereading line status id =>
    rw [hphase] at hsound
    have hlt := hsound.1
    have hdone := hsound.2.2 id (Nat.lt_succ_self id)
    refine ⟨_, by rw [handlerStep, hphase], ?_⟩
    dsimp only
    rw [hdone, if_neg Bool.false_ne_true]
    dsimp only [rank]
    omega
  | dispatching =>
    rw [hphase] at hsound
    have hle := hsound.1
    rw [handlerStep, hphase]
    dsimp only
    split
    · exact ⟨_, rfl, by dsimp only [rank]; omega⟩
    · exact ⟨_, rfl, by dsimp only [rank]; omega⟩

theorem exists_idle (writeBack : Bool) (h : Sound registered s) :
    ∃ s', Reached (step writeBack registered) HandlerOnly s s' ∧ Sound registered s' ∧
      s'.phase = .idle := by
  refine Reached.exists_goal (Sound registered) (fun s => s.phase = .idle)
    (fun s => rank s.phase) ?_ h
  intro t ht hbusy
  obtain ⟨t', hstep, hlt⟩ := exists_handlerStep ht hbusy
  exact ⟨.handler, t', rfl, hstep, ht.handlerStep hstep, hlt⟩

end Progress

/-- In every run that meets the condition a callback is never called more often than the flag of
its channel was cleared, and the running handler returns to a state with as many calls as clears
for every channel that has a callback. -/
theorem cleared_delivered {writeBack : Bool} {registered : Nat → Bool} {s₀ s : Timer}
    (h₀ : Start s₀) (h : Reached (step writeBack registered) (Undisturbed registered) s₀ s) :
    (∀ c, registered c = true → s.invoked c ≤ s.cleared c) ∧
      (s.phase = .idle → ∀ c, registered c = true → s.invoked c = s.cleared c) ∧
      ∃ s', Reached (step writeBack registered) HandlerOnly s s' ∧ s'.phase = .idle ∧
        ∀ c, registered c = true → s'.invoked c = s'.cleared c := by
  have hsound : Sound registered s :=
    h.invariant (Sound registered) h₀.sound fun _ _ _ hs hok hstep => hs.step hok hstep
  obtain ⟨s', hreached, hsound', hidle⟩ := exists_idle writeBack hsound
  exact ⟨fun _ hc => hsound.invoked_le hc, fun hs _ hc => hsound.eq_of_idle hs hc,
    s', hreached, hidle, fun _ hc => hsound'.eq_of_idle hidle hc⟩

def quiet : Timer where
  pending := fun _ => false
  phase := .idle
  cleared := fun _ => 0
  invoked := fun _ => 0

theorem start_quiet : Start quiet := ⟨rfl, fun _ _ => rfl, fun _ => rfl, fun _ => rfl⟩

def serve (line : Line) (steps : Nat) : List Event :=
  .interrupt line :: List.replicate steps .handler

theorem cleared_delivered_two :
    ∃ s, Reached (step true fun _ => true) (Undisturbed fun _ => true) quiet s ∧
      s.phase = .idle ∧ s.cleared 0 = 1 ∧ s.cleared 4 = 1 ∧ s.invoked 0 = 1 ∧ s.invoked 4 = 1 := by
  obtain ⟨s, hreached, hidle, hfirst, hsecond⟩ := exists_reached (step true fun _ => true)
    (Undisturbed fun _ => true) quiet
    (fun s => s.phase = .idle ∧ s.cleared 0 = 1 ∧ s.cleared 4 = 1)
    (.expire 0 :: serve .timer 18 ++ .expire 4 :: serve .timer1 18) (by decide +kernel)
  have hdelivered := (cleared_delivered start_quiet hreached).2.1 hidle
  exact ⟨s, hreached, hidle, hfirst, hsecond, (hdelivered 0 rfl).trans hfirst,
    (hdelivered 4 rfl).trans hsecond⟩

theorem cleared_not_delivered : ∃ s, Reached (step false fun _ => true) anyStep quiet s ∧
      s.phase = .idle ∧ s.pending 3 = false ∧ s.cleared 3 = 1 ∧ s.invoked 3 = 0 :=
  exists_reached _ _ _ _
    (.expire 0 :: .expire 3 :: serve .timer 19 ++ serve .timer1 17) (by decide +kernel)

end BekenSoc.TimerDelivery
