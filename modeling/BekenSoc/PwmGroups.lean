import BekenSoc.GuardedRuns
import BekenSoc.PwmDriver

namespace BekenSoc.PwmGroups

open Function
open BitMasks
open ByteFlags (loopIndex of_loopIndex_ge)
open GuardedRuns
open PwmDriver

variable {s t : Pwm} {chan group i : Nat}

inductive GroupCall
  | init (config : PwmGroupInitConfig)
  | deinit (group : Nat)

def groupStep (s : Pwm) : GroupCall → Option Pwm
  | .init config => some (bkPwmGroupInit s config).2.2
  | .deinit group => some (bkPwmGroupDeinit s group).2

section Disjoint

def Uses (s : Pwm) (group chan : Nat) : Prop :=
  pwmGroupIsExisted s group = true ∧ ((s.groups group).chan1 = chan ∨ (s.groups group).chan2 = chan)

def DisjointGroups (s : Pwm) : Prop := ∀ i j chan, Uses s i chan → Uses s j chan → i = j

theorem pwmGroupIsExisted_iff :
    pwmGroupIsExisted s group = true ↔ group < pwmGroupNum ∧ (s.groups group).isValid = true := by
  unfold pwmGroupIsExisted
  split
  · rename_i hout
    exact ⟨nofun, fun h => absurd h.1 (Nat.not_lt.mpr hout)⟩
  · rename_i hin
    exact ⟨fun h => ⟨Nat.lt_of_not_le hin, h⟩, fun h => h.2⟩

theorem foundOr_ne_invalid (hi : i < pwmGroupNum) : foundOr i ≠ pwmGroupIdInvalid := by
  rw [foundOr, if_pos hi]
  have hnum : pwmGroupNum < pwmGroupIdInvalid := by decide
  exact Nat.ne_of_lt (Nat.lt_trans hi hnum)

theorem not_uses_of_pwmGroupFindChannel (h : pwmGroupFindChannel s chan = pwmGroupIdInvalid)
    (group : Nat) : ¬ Uses s group chan := by
  rintro ⟨hexists, huses⟩
  obtain ⟨hlt, hvalid⟩ := pwmGroupIsExisted_iff.mp hexists
  have hge : pwmGroupNum ≤ loopIndex pwmGroupNum fun i =>
      (s.groups i).isValid && ((s.groups i).chan1 == chan || (s.groups i).chan2 == chan) :=
    Nat.le_of_not_lt fun hfound => foundOr_ne_invalid hfound h
  have hnot := of_loopIndex_ge hge hlt
  rw [hvalid, Bool.true_and, Bool.or_eq_false_iff, beq_eq_false_iff_ne, beq_eq_false_iff_ne] at hnot
  exact huses.elim hnot.1 hnot.2

theorem pwmGroupAdd_groups (s : Pwm) (chan1 chan2 : Nat) :
    (pwmGroupAdd s chan1 chan2).2.groups = s.groups ∨ ∃ i, (pwmGroupAdd s chan1 chan2).2.groups =
        update s.groups i ⟨chan1, chan2, true⟩ := by
  dsimp only [pwmGroupAdd]
  split
  · exact .inr ⟨_, rfl⟩
  · exact .inl rfl

theorem bkPwmInit_groups (s : Pwm) (chan : Nat) (config : Option PwmInitConfig) :
    (bkPwmInit s chan config).2.groups = s.groups := by
  obtain ⟨-, hsame⟩ | ⟨c, -, -, hinit⟩ := bkPwmInit_cases s chan config
  · rw [hsame]
  · rw [hinit]
    exact (pwmInitChan_frame s chan c).1

theorem pwmGroupInitChans_groups (s : Pwm) (config : PwmGroupInitConfig) :
    (pwmGroupInitChans s config).2.2.groups = s.groups ∨
      ∃ i, (pwmGroupInitChans s config).2.2.groups =
        update s.groups i ⟨config.chan1, config.chan2, true⟩ := by
  unfold pwmGroupInitChans
  have hfirst := bkPwmInit_groups s config.chan1
    (some ⟨config.periodCycle, config.chan1DutyCycle, 0, 0⟩)
  split
  · rename_i s₁ heq₁
    rw [heq₁] at hfirst
    have hsecond := bkPwmInit_groups (pwmHalSetInitSignal s₁ config.chan1 true) config.chan2
    dsimp only
    split
    · rename_i s₃ heq₂
      have hgroups : s₃.groups = s.groups := by
        rw [← hfirst, ← show _ = s₁.groups from hsecond _, heq₂]
      rw [← hgroups]
      exact pwmGroupAdd_groups (pwmHalSetInitSignal s₃ config.chan2 false) _ _
    · rename_i err s₃ _ heq₂
      left
      rw [← hfirst, ← show _ = s₁.groups from hsecond _, heq₂]
  · rename_i err s₁ _ heq₁
    rw [heq₁] at hfirst
    exact .inl hfirst

theorem pwmGroupValidateParam_ok {config : PwmGroupInitConfig}
    (h : pwmGroupValidateParam s config = .ok) :
    pwmGroupFindChannel s config.chan1 = pwmGroupIdInvalid ∧
      pwmGroupFindChannel s config.chan2 = pwmGroupIdInvalid := by
  unfold pwmGroupValidateParam at h
  split at h <;> try cases h
  split at h <;> try cases h
  split at h <;> try cases h
  split at h <;> try cases h
  split at h <;> try cases h
  rename_i hfirst
  split at h <;> try cases h
  rename_i hsecond
  exact ⟨Decidable.not_not.mp hfirst, Decidable.not_not.mp hsecond⟩

theorem bkPwmGroupInit_groups (s : Pwm) (config : PwmGroupInitConfig) :
    (bkPwmGroupInit s config).2.2.groups = s.groups ∨
      ∃ i, (∀ group, ¬ Uses s group config.chan1) ∧ (∀ group, ¬ Uses s group config.chan2) ∧
        (bkPwmGroupInit s config).2.2.groups =
          update s.groups i ⟨config.chan1, config.chan2, true⟩ := by
  unfold bkPwmGroupInit
  split
  · exact .inl rfl
  · split
    · rename_i hok
      obtain ⟨hfirst, hsecond⟩ := pwmGroupValidateParam_ok hok
      obtain hsame | ⟨i, hadd⟩ := pwmGroupInitChans_groups s config
      · exact .inl hsame
      · exact .inr ⟨i, not_uses_of_pwmGroupFindChannel hfirst,
          not_uses_of_pwmGroupFindChannel hsecond, hadd⟩
    · exact .inl rfl

theorem uses_congr (h : t.groups = s.groups) (group chan : Nat) :
    Uses t group chan ↔ Uses s group chan := by
  unfold Uses pwmGroupIsExisted
  rw [h]

theorem DisjointGroups.congr (hdisjoint : DisjointGroups s) (h : t.groups = s.groups) :
    DisjointGroups t := by
  intro i j chan hi hj
  exact hdisjoint i j chan ((uses_congr h i chan).mp hi) ((uses_congr h j chan).mp hj)

theorem uses_of_update {chan1 chan2 : Nat}
    (h : t.groups = update s.groups i ⟨chan1, chan2, true⟩) (huses : Uses t group chan) :
    (group = i ∧ (chan1 = chan ∨ chan2 = chan)) ∨ (group ≠ i ∧ Uses s group chan) := by
  unfold Uses pwmGroupIsExisted at huses
  rw [h] at huses
  by_cases hgroup : group = i
  · subst hgroup
    rw [update_self] at huses
    exact .inl ⟨rfl, huses.2⟩
  · rw [update_of_ne hgroup] at huses
    exact .inr ⟨hgroup, huses⟩

theorem DisjointGroups.add (hdisjoint : DisjointGroups s) {chan1 chan2 : Nat}
    (hfree₁ : ∀ group, ¬ Uses s group chan1) (hfree₂ : ∀ group, ¬ Uses s group chan2)
    (h : t.groups = update s.groups i ⟨chan1, chan2, true⟩) : DisjointGroups t := by
  have hfree : ∀ {group chan}, chan1 = chan ∨ chan2 = chan → ¬ Uses s group chan := by
    rintro group chan (rfl | rfl)
    · exact hfree₁ group
    · exact hfree₂ group
  intro j k chan hj hk
  obtain ⟨rfl, hchanj⟩ | ⟨hjne, hj⟩ := uses_of_update h hj
  · obtain ⟨rfl, -⟩ | ⟨-, hk⟩ := uses_of_update h hk
    · rfl
    · exact absurd hk (hfree hchanj)
  · obtain ⟨rfl, hchank⟩ | ⟨-, hk⟩ := uses_of_update h hk
    · exact absurd hj (hfree hchank)
    · exact hdisjoint j k chan hj hk

theorem pwmGroupDelete_of_not_existed (h : pwmGroupIsExisted s group = false) :
    pwmGroupDelete s group = s := by
  unfold pwmGroupDelete
  split
  · rename_i hlt
    have hinvalid : (s.groups group).isValid = false := by
      rw [pwmGroupIsExisted, if_neg (Nat.not_le_of_lt hlt)] at h
      exact h
    have hentry : { s.groups group with isValid := false } = s.groups group := by rw [← hinvalid]
    rw [hentry, update_eq_self]
  · rfl

theorem bkPwmGroupDeinit_of_not_existed (h : pwmGroupIsExisted s group = false) :
    (bkPwmGroupDeinit s group).2 =
      pwmChanDeinitCommon (pwmChanDeinitCommon s (s.groups group).chan1)
        (s.groups group).chan2 := by
  have hstop : bkPwmGroupStop s group = s := by
    rw [bkPwmGroupStop, h]
    rfl
  rw [bkPwmGroupDeinit, h, if_neg Bool.false_ne_true, hstop]
  exact pwmGroupDelete_of_not_existed h

theorem bkPwmGroupDeinit_of_existed (h : pwmGroupIsExisted s group = true) :
    (bkPwmGroupDeinit s group).2 = s := by
  rw [bkPwmGroupDeinit, if_pos h]

theorem bkPwmGroupDeinit_groups (s : Pwm) (group : Nat) :
    (bkPwmGroupDeinit s group).2.groups = s.groups := by
  cases h : pwmGroupIsExisted s group with
  | true => rw [bkPwmGroupDeinit_of_existed h]
  | false => rw [bkPwmGroupDeinit_of_not_existed h, pwmChanDeinitCommon_groups,
      pwmChanDeinitCommon_groups]

theorem DisjointGroups.step {s' : Pwm} {call : GroupCall} (hdisjoint : DisjointGroups s)
    (h : groupStep s call = some s') : DisjointGroups s' := by
  cases call with
  | init config =>
    obtain rfl := Option.some.inj h
    obtain hsame | ⟨i, hfree₁, hfree₂, hadd⟩ := bkPwmGroupInit_groups s config
    · exact hdisjoint.congr hsame
    · exact hdisjoint.add hfree₁ hfree₂ hadd
  | deinit group =>
    obtain rfl := Option.some.inj h
    exact hdisjoint.congr (bkPwmGroupDeinit_groups s group)

theorem disjointGroups_bkPwmDriverInit (h : s.isInit = false) :
    DisjointGroups (bkPwmDriverInit s) := by
  intro i j chan hi
  obtain ⟨hlt, hvalid⟩ := pwmGroupIsExisted_iff.mp hi.1
  rw [bkPwmDriverInit, h, if_neg Bool.false_ne_true] at hvalid
  dsimp only at hvalid
  rw [if_pos hlt] at hvalid
  cases hvalid

theorem disjointGroups_of_reached {s₀ : Pwm} (h₀ : s₀.isInit = false)
    (h : Reached groupStep anyStep (bkPwmDriverInit s₀) s) : DisjointGroups s :=
  h.invariant DisjointGroups (disjointGroups_bkPwmDriverInit h₀)
    fun _ _ _ hdisjoint _ hstep => hdisjoint.step hstep

end Disjoint

section Deinit

def Regroupable (s : Pwm) (chan1 chan2 : Nat) : Prop :=
  ∀ period duty1 duty2, 0 < duty1 → 0 < duty2 → duty1 + duty2 ≤ period → period < 2 ^ 32 →
    (bkPwmGroupInit s ⟨chan1, chan2, period, duty1, duty2⟩).1 = .ok

/-- What a call of `bk_pwm_group_deinit` should do: an existing group gives back its slot and its
channels, any other id changes nothing. -/
def DeinitLawful (s : Pwm) (group : Nat) : Prop :=
  if pwmGroupIsExisted s group then
    pwmGroupIsExisted (bkPwmGroupDeinit s group).2 group = false ∧
      (bkPwmGroupDeinit s group).2.initBit (s.groups group).chan1 = false ∧
      (bkPwmGroupDeinit s group).2.initBit (s.groups group).chan2 = false ∧
      Regroupable (bkPwmGroupDeinit s group).2 (s.groups group).chan1 (s.groups group).chan2
  else (bkPwmGroupDeinit s group).2 = s

abbrev AtRest (regs : ChanRegs) : Prop :=
  regs.en = false ∧ regs.intEn = false ∧ regs.intSt = false ∧
    regs.t1 = 0 ∧ regs.t2 = 0 ∧ regs.t3 = 0 ∧ regs.t4 = 0

theorem AtRest.reset_eq {regs : ChanRegs} (h : AtRest regs) :
    { regs with intEn := false, intSt := false, en := false, t1 := 0, t2 := 0, t3 := 0, t4 := 0 } =
      regs := by
  cases regs
  obtain ⟨rfl, rfl, rfl, rfl, rfl, rfl, rfl⟩ := h
  rfl

abbrev Unused (s : Pwm) (chan : Nat) : Prop := s.initBit chan = false ∧ AtRest (s.chans chan)

theorem pwmChanDeinitCommon_chans (s : Pwm) (chan : Nat) :
    (pwmChanDeinitCommon s chan).chans = update s.chans chan { s.chans chan with
        intEn := false, intSt := false, en := false, t1 := 0, t2 := 0, t3 := 0, t4 := 0 } := by
  dsimp only [PwmDriver.pwmChanDeinitCommon, pwmHalResetConfigToDefault, pwmHalStopCommon,
    Pwm.setChan]
  rw [update_idem, update_self]

theorem unused_pwmChanDeinitCommon (s : Pwm) (chan : Nat) :
    Unused (pwmChanDeinitCommon s chan) chan := by
  constructor
  · rw [Pwm.initBit, pwmChanDeinitCommon_chanInitBits, getLsbD_clearBit, decide_eq_true rfl,
      Bool.not_true, Bool.and_false]
  · rw [pwmChanDeinitCommon_chans, update_self]
    exact ⟨rfl, rfl, rfl, rfl, rfl, rfl, rfl⟩

theorem Unused.pwmChanDeinitCommon (h : Unused s chan) (other : Nat) :
    Unused (pwmChanDeinitCommon s other) chan := by
  by_cases heq : chan = other
  · exact heq ▸ unused_pwmChanDeinitCommon s chan
  · constructor
    · rw [Pwm.initBit, pwmChanDeinitCommon_chanInitBits, getLsbD_clearBit,
        show s.chanInitBits.getLsbD (bitOf chan) = false from h.1, Bool.false_and]
    · rw [pwmChanDeinitCommon_chans, update_of_ne heq]
      exact h.2

theorem pwmChanDeinitCommon_of_unused (h : Unused s chan) (hclk₁ : s.clk1 = false)
    (hclk₂ : s.clk2 = false) : pwmChanDeinitCommon s chan = s := by
  have hbits : (PwmDriver.pwmChanDeinitCommon s chan).chanInitBits = s.chanInitBits := by
    rw [pwmChanDeinitCommon_chanInitBits, clearBit_eq_self_iff]
    exact h.1
  have hchans : (PwmDriver.pwmChanDeinitCommon s chan).chans = s.chans := by
    rw [pwmChanDeinitCommon_chans, h.2.reset_eq, update_eq_self]
  cases s
  cases hclk₁
  cases hclk₂
  simp only [PwmDriver.pwmChanDeinitCommon] at hbits hchans ⊢
  rw [Pwm.mk.injEq]
  exact ⟨rfl, hbits, rfl, rfl, hchans, rfl, rfl, rfl, rfl⟩

theorem pwmChanDeinitCommon_twice_eq_iff (s : Pwm) (chan1 chan2 : Nat) :
    pwmChanDeinitCommon (pwmChanDeinitCommon s chan1) chan2 = s ↔
      Unused s chan1 ∧ Unused s chan2 ∧ s.clk1 = false ∧ s.clk2 = false := by
  constructor
  · intro h
    have hfirst := (unused_pwmChanDeinitCommon s chan1).pwmChanDeinitCommon chan2
    have hsecond := unused_pwmChanDeinitCommon (pwmChanDeinitCommon s chan1) chan2
    rw [h] at hfirst hsecond
    refine ⟨hfirst, hsecond, ?_, ?_⟩
    · rw [← h]
      rfl
    · rw [← h]
      rfl
  · rintro ⟨hfirst, hsecond, hclk₁, hclk₂⟩
    rw [pwmChanDeinitCommon_of_unused hfirst hclk₁ hclk₂,
      pwmChanDeinitCommon_of_unused hsecond hclk₁ hclk₂]

theorem deinitLawful_iff (s : Pwm) (group : Nat) : DeinitLawful s group ↔
      pwmGroupIsExisted s group = false ∧ Unused s (s.groups group).chan1 ∧
        Unused s (s.groups group).chan2 ∧ s.clk1 = false ∧ s.clk2 = false := by
  unfold DeinitLawful
  cases hexists : pwmGroupIsExisted s group with
  | true =>
    -- the early return leaves the group as it is
    rw [if_pos rfl, bkPwmGroupDeinit_of_existed hexists, hexists]
    exact ⟨fun h => absurd h.1 nofun, fun h => absurd h.1 nofun⟩
  | false =>
    rw [if_neg Bool.false_ne_true, bkPwmGroupDeinit_of_not_existed hexists,
      pwmChanDeinitCommon_twice_eq_iff]
    exact ⟨fun h => ⟨rfl, h⟩, fun h => h.2⟩

/-- In every run of group calls the existing groups have disjoint channels, and a deinit call
does what it should exactly for an id without a group whose entry names two unused channels while
both clocks are down. -/
theorem groups_disjoint_and_deinit_iff {s₀ s : Pwm} (h₀ : s₀.isInit = false)
    (h : Reached groupStep anyStep (bkPwmDriverInit s₀) s) :
    DisjointGroups s ∧ ∀ group, DeinitLawful s group ↔
      pwmGroupIsExisted s group = false ∧ Unused s (s.groups group).chan1 ∧
        Unused s (s.groups group).chan2 ∧ s.clk1 = false ∧ s.clk2 = false :=
  ⟨disjointGroups_of_reached h₀ h, deinitLawful_iff s⟩

-- Two groups, and the second of two calls with an id that has none.
theorem groups_disjoint_and_deinit_iff_two :
    ∃ s, Reached groupStep anyStep (bkPwmDriverInit blank) s ∧ pwmGroupIsExisted s 0 = true ∧
      pwmGroupIsExisted s 1 = true ∧ DisjointGroups s ∧ DeinitLawful s 2 ∧ ¬ DeinitLawful s 0 := by
  obtain ⟨s, hreached, ⟨hfirst, hsecond⟩, hunused⟩ := exists_reached groupStep anyStep
    (bkPwmDriverInit blank)
    (fun s => (pwmGroupIsExisted s 0 = true ∧ pwmGroupIsExisted s 1 = true) ∧
      pwmGroupIsExisted s 2 = false ∧ Unused s (s.groups 2).chan1 ∧
        Unused s (s.groups 2).chan2 ∧ s.clk1 = false ∧ s.clk2 = false)
    [.init ⟨0, 1, 10, 3, 3⟩, .init ⟨2, 3, 10, 3, 3⟩, .deinit 2] (by decide)
  obtain ⟨hdisjoint, hiff⟩ :=
    groups_disjoint_and_deinit_iff (show blank.isInit = false from rfl) hreached
  refine ⟨s, hreached, hfirst, hsecond, hdisjoint, (hiff 2).mpr hunused, fun hlawful => ?_⟩
  exact absurd hfirst (ne_true_of_eq_false ((hiff 0).mp hlawful).1)

theorem group_deinit_inverted : ∃ s, Reached groupStep anyStep (bkPwmDriverInit blank) s ∧
      (pwmGroupIsExisted s 0 = true ∧ ¬ DeinitLawful s 0) ∧
      (pwmGroupIsExisted s 1 = false ∧ ¬ DeinitLawful s 1) := by
  obtain ⟨s, hreached, hfirst, hother, hclk⟩ := exists_reached groupStep anyStep
    (bkPwmDriverInit blank) (fun s => pwmGroupIsExisted s 0 = true ∧
      pwmGroupIsExisted s 1 = false ∧ s.clk1 = true) [.init ⟨0, 1, 10, 3, 3⟩] (by decide)
  refine ⟨s, hreached, ⟨hfirst, ?_⟩, hother, ?_⟩
  · intro hlawful
    have hnone := ((deinitLawful_iff s 0).mp hlawful).1
    rw [hfirst] at hnone
    cases hnone
  · intro hlawful
    have hdown := ((deinitLawful_iff s 1).mp hlawful).2.2.2.1
    rw [hclk] at hdown
    cases hdown

end Deinit

end BekenSoc.PwmGroups
