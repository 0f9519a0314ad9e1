import BekenSoc.PwmDriver

namespace BekenSoc.PwmTimes

open Function CRuntime PwmDriver

variable {s : Pwm} {config : PwmGroupInitConfig}

def levelAt (r : ChanRegs) (x : Nat) : Bool :=
  [r.t1, r.t2, r.t3].foldl (fun level t => if 0 < t ∧ t ≤ x then !level else level) r.initLevel

structure InOrder (chan1 chan2 : ChanRegs) (config : PwmGroupInitConfig) : Prop where
  t11_le : chan1.t1 ≤ chan2.t1
  t21_lt : chan2.t1 < chan2.t2
  t22_le : chan2.t2 ≤ config.periodCycle
  duty : chan2.t2 - chan2.t1 = config.chan2DutyCycle
  apart : ∀ x < config.periodCycle, levelAt chan1 x = true → levelAt chan2 x = false

def deadCycle (config : PwmGroupInitConfig) : Nat :=
  subU32 (subU32 config.periodCycle config.chan1DutyCycle) config.chan2DutyCycle >>> 1

structure Programmed (config : PwmGroupInitConfig) (chan1 chan2 : ChanRegs) : Prop where
  first : chan1.t1 = config.chan1DutyCycle ∧ chan1.t2 = 0 ∧ chan1.t3 = 0 ∧ chan1.initLevel = true
  second : chan2.t1 = addU32 config.chan1DutyCycle (deadCycle config) ∧
    chan2.t2 = addU32 chan2.t1 config.chan2DutyCycle ∧ chan2.t3 = 0 ∧ chan2.initLevel = false
  fits : addU32 config.chan1DutyCycle config.chan2DutyCycle ≤ config.periodCycle
  duty1 : addU32 (addU32 config.chan1DutyCycle 0) 0 ≤ config.periodCycle
  pos : 0 < config.chan1DutyCycle ∧ 0 < config.chan2DutyCycle

theorem duty_le {period duty1 duty2 duty3 : Nat}
    (h : pwmHalIsDutyValid period duty1 duty2 duty3 = true) :
    addU32 (addU32 duty1 duty2) duty3 ≤ period := by
  rw [pwmHalIsDutyValid] at h
  split at h
  · cases h
  · split at h
    · cases h
    · rename_i hle
      exact Nat.le_of_not_lt hle

theorem bkPwmInit_ok {s' : Pwm} {chan : Nat} {config : PwmInitConfig}
    (h : bkPwmInit s chan (some config) = (.ok, s')) :
    pwmHalIsDutyValid config.periodCycle config.dutyCycle config.duty2Cycle config.duty3Cycle =
      true ∧ s' = pwmInitChan s chan config := by
  rw [bkPwmInit] at h
  split at h
  · cases h
  · split at h
    · cases h
    · split at h
      · cases h
      · rename_i hvalid
        rw [Bool.not_eq_true, Bool.not_eq_false'] at hvalid
        cases h
        exact ⟨hvalid, rfl⟩

theorem validate_ok (h : pwmGroupValidateParam s config = .ok) :
    config.chan1 ≠ config.chan2 ∧
      addU32 config.chan1DutyCycle config.chan2DutyCycle ≤ config.periodCycle ∧
      0 < config.chan1DutyCycle ∧ 0 < config.chan2DutyCycle := by
  simp only [pwmGroupValidateParam, ite_eq_iff, reduceCtorEq, and_false, false_or, and_true,
    not_or] at h
  obtain ⟨-, -, hne, -, -, -, hle, hpos1, hpos2⟩ := h
  exact ⟨hne, Nat.le_of_not_lt hle, Nat.pos_of_ne_zero hpos1, Nat.pos_of_ne_zero hpos2⟩

theorem pwmInitChan_self (s : Pwm) (chan : Nat) (config : PwmInitConfig) :
    ((pwmInitChan s chan config).chans chan).t1 = config.dutyCycle ∧
      ((pwmInitChan s chan config).chans chan).t2 =
        (if 0 < config.duty2Cycle then addU32 config.dutyCycle config.duty2Cycle else 0) ∧
      (config.duty3Cycle = 0 → ((pwmInitChan s chan config).chans chan).t3 = 0) := by
  refine ⟨?_, ?_, fun hzero => ?_⟩
  all_goals simp [pwmInitChan, pwmHalInitPwm, Pwm.setChan, *]

theorem pwmInitChan_other (s : Pwm) {chan other : Nat} (hne : other ≠ chan)
    (config : PwmInitConfig) : (pwmInitChan s chan config).chans other = s.chans other := by
  simp only [pwmInitChan, pwmHalInitPwm, pwmAdjustInitSignalViaDuty, pwmChanInitCommon,
    pwmHalSetInitSignal, Pwm.setChan]
  split
  · split <;> simp [hne]
  · split <;> simp [hne]

theorem setInitSignal_chans (s : Pwm) (chan other : Nat) (level : Bool) :
    (pwmHalSetInitSignal s chan level).chans other =
      if other = chan then { s.chans chan with initLevel := level } else s.chans other := by
  rw [pwmHalSetInitSignal, Pwm.setChan]
  exact update_apply ..

theorem pwmGroupAdd_chans (s : Pwm) (chan1 chan2 : Nat) :
    (pwmGroupAdd s chan1 chan2).2.chans = s.chans := by
  rw [pwmGroupAdd]
  split <;> rfl

theorem pwmGroupInitChans_ok (h : (pwmGroupInitChans s config).1 = .ok) :
    ∃ s₁ s₃,
      bkPwmInit s config.chan1 (some ⟨config.periodCycle, config.chan1DutyCycle, 0, 0⟩) =
        (.ok, s₁) ∧
      bkPwmInit (pwmHalSetInitSignal s₁ config.chan1 true) config.chan2 (some ⟨config.periodCycle,
        addU32 config.chan1DutyCycle (deadCycle config), config.chan2DutyCycle, 0⟩) = (.ok, s₃) ∧
      (pwmGroupInitChans s config).2.2 =
        (pwmGroupAdd (pwmHalSetInitSignal s₃ config.chan2 false) config.chan1 config.chan2).2 := by
  rw [pwmGroupInitChans] at h ⊢
  rcases hfirst : bkPwmInit s config.chan1 (some ⟨config.periodCycle, config.chan1DutyCycle, 0, 0⟩)
    with ⟨err, s₁⟩
  rw [hfirst] at h
  cases err with
  | ok =>
    rcases hsecond : bkPwmInit (pwmHalSetInitSignal s₁ config.chan1 true) config.chan2
      (some ⟨config.periodCycle, addU32 config.chan1DutyCycle (deadCycle config),
        config.chan2DutyCycle, 0⟩) with ⟨err, s₃⟩
    simp only [deadCycle] at hsecond
    simp only [hsecond] at h ⊢
    cases err with
    | ok => exact ⟨s₁, s₃, rfl, by rw [deadCycle, hsecond], rfl⟩
    | _ => cases h
  | _ => cases h

theorem programmed_of_chans (hparam : pwmGroupValidateParam s config = .ok)
    (h : (pwmGroupInitChans s config).1 = .ok) :
    Programmed config ((pwmGroupInitChans s config).2.2.chans config.chan1)
      ((pwmGroupInitChans s config).2.2.chans config.chan2) := by
  obtain ⟨hne, hfits, hpos⟩ := validate_ok hparam
  obtain ⟨s₁, s₃, hfirst, hsecond, hadd⟩ := pwmGroupInitChans_ok h
  obtain ⟨hvalid, rfl⟩ := bkPwmInit_ok hfirst
  obtain ⟨-, rfl⟩ := bkPwmInit_ok hsecond
  rw [hadd, pwmGroupAdd_chans]
  refine ⟨?_, ?_, hfits, duty_le hvalid, hpos⟩
  · simp [setInitSignal_chans, hne, pwmInitChan_other, pwmInitChan_self]
  · simp [setInitSignal_chans, pwmInitChan_self, hpos.2]

theorem programmed_of_ok (h : (bkPwmGroupInit s config).1 = .ok) :
    Programmed config ((bkPwmGroupInit s config).2.2.chans config.chan1)
      ((bkPwmGroupInit s config).2.2.chans config.chan2) := by
  rw [bkPwmGroupInit] at h ⊢
  cases hinit : s.isInit with
  | false =>
    rw [hinit] at h
    cases h
  | true =>
    rw [hinit, Bool.not_true, if_neg Bool.false_ne_true] at h
    rw [Bool.not_true, if_neg Bool.false_ne_true]
    cases hparam : pwmGroupValidateParam s config with
    | ok =>
      rw [hparam] at h
      exact programmed_of_chans hparam h
    | _ =>
      rw [hparam] at h
      cases h

theorem levelAt_first {r : ChanRegs} (ht : r.t2 = 0 ∧ r.t3 = 0 ∧ r.initLevel = true) {x : Nat}
    (hhigh : levelAt r x = true) : r.t1 = 0 ∨ x < r.t1 := by
  by_contra hlow
  simp [levelAt, ht, show 0 < r.t1 ∧ r.t1 ≤ x by omega] at hhigh

theorem t21_eq {period duty1 duty2 : Nat} (hperiod : period < 2 ^ 32)
    (hfits : duty1 + duty2 ≤ period) : addU32 duty1 (subU32 (subU32 period duty1) duty2 >>> 1) =
      duty1 + (period - duty1 - duty2) / 2 := by
  have hsub : subU32 (subU32 period duty1) duty2 = period - duty1 - duty2 := by
    simp only [subU32]
    omega
  rw [hsub, Nat.shiftRight_one, addU32]
  omega

/-- The times of an accepted group are in their order if and only if the sum of the duties does
not wrap. -/
theorem times_inOrder_iff (s : Pwm) (config : PwmGroupInitConfig)
    (hperiod : config.periodCycle < 2 ^ 32) (hduty1 : config.chan1DutyCycle < 2 ^ 32)
    (hduty2 : config.chan2DutyCycle < 2 ^ 32) (hok : (bkPwmGroupInit s config).1 = .ok) :
    InOrder ((bkPwmGroupInit s config).2.2.chans config.chan1)
        ((bkPwmGroupInit s config).2.2.chans config.chan2) config ↔
      config.chan1DutyCycle + config.chan2DutyCycle < 2 ^ 32 := by
  obtain ⟨⟨ht11, hfirst⟩, ⟨ht21, ht22, hsecond⟩, hfits, hfits1, hpos⟩ := programmed_of_ok hok
  generalize (bkPwmGroupInit s config).2.2.chans config.chan1 = chan1 at *
  generalize (bkPwmGroupInit s config).2.2.chans config.chan2 = chan2 at *
  rw [addU32] at ht22 hfits
  constructor
  · intro h
    have hle := h.t11_le
    have hlt := h.t21_lt
    rw [deadCycle, Nat.shiftRight_one] at ht21
    simp only [addU32, subU32] at ht21 hfits1
    omega
  · intro hsum
    rw [Nat.mod_eq_of_lt hsum] at hfits
    rw [deadCycle, t21_eq hperiod hfits] at ht21
    refine ⟨by omega, by omega, by omega, by omega, fun x _ hhigh => ?_⟩
    have hx := levelAt_first hfirst hhigh
    simp [levelAt, hsecond, show ¬ chan2.t1 ≤ x by omega, show ¬ chan2.t2 ≤ x by omega]

theorem times_inOrder_iff_third :
    InOrder ((bkPwmGroupInit { blank with isInit := true } ⟨0, 1, 90, 30, 20⟩).2.2.chans 0)
      ((bkPwmGroupInit { blank with isInit := true } ⟨0, 1, 90, 30, 20⟩).2.2.chans 1)
      ⟨0, 1, 90, 30, 20⟩ :=
  (times_inOrder_iff _ _ (by decide) (by decide) (by decide) (by decide)).mpr (by decide)

/-- Two duties of half the range pass all checks, and the second channel is to end before it
begins. -/
theorem wrapped_sum_accepted :
    (bkPwmGroupInit { blank with isInit := true } ⟨0, 1, 2 ^ 31, 2 ^ 31, 2 ^ 31⟩).1 = .ok ∧
      ((bkPwmGroupInit { blank with isInit := true } ⟨0, 1, 2 ^ 31, 2 ^ 31, 2 ^ 31⟩).2.2.chans
        1).t1 = 3 * 2 ^ 30 ∧
      ((bkPwmGroupInit { blank with isInit := true } ⟨0, 1, 2 ^ 31, 2 ^ 31, 2 ^ 31⟩).2.2.chans
        1).t2 = 2 ^ 30 := by
  decide

end BekenSoc.PwmTimes
