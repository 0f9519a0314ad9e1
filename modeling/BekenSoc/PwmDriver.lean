import BekenSoc.BitMasks
import BekenSoc.ByteFlags
import BekenSoc.CRuntime

/-!
The channels and the groups of `pwm_driver.c` with `CONFIG_SYSTEM_CTRL`, over the registers that
`pwm_ll.h` gives to each channel.  The pins belong to another driver.
-/

namespace BekenSoc.PwmDriver

open Function
open BitMasks
open ByteFlags (loopIndex)
open CRuntime

def socPwmChanNumPerUnit : Nat := 6

def pwmGroupNum : Nat := socPwmChanNumPerUnit >>> 1

def pwmGroupIdInvalid : Nat := 0xFF

inductive PwmErr
  | ok
  | notInit
  | nullParam
  | chanId
  | periodDuty
  | captureEdge
  | groupExist
  | groupChanUsed
  | groupDuty
  | groupSameChan
  deriving DecidableEq, Repr

inductive PwmMode
  | idle
  | pwm
  | capturePos
  | captureNeg
  | captureEdge
  deriving DecidableEq, Repr

structure ChanRegs where
  en : Bool
  intEn : Bool
  intSt : Bool
  mode : PwmMode
  initLevel : Bool
  t1 : Nat
  t2 : Nat
  t3 : Nat
  t4 : Nat
  deriving DecidableEq

structure GroupInfo where
  chan1 : Nat
  chan2 : Nat
  isValid : Bool
  deriving DecidableEq

structure Pwm where
  isInit : Bool
  chanInitBits : BitVec 32
  /-- the table of the groups, and after its last entry what the memory behind it holds -/
  groups : Nat → GroupInfo
  isr : Nat → Option Nat
  chans : Nat → ChanRegs
  groupEn : Nat → Bool
  groupPwmEn : Nat → Bool
  /-- `CLK_PWR_ID_PWM_1` is powered -/
  clk1 : Bool
  /-- `CLK_PWR_ID_PWM_2` is powered -/
  clk2 : Bool

def blank : Pwm where
  isInit := false
  chanInitBits := 0
  groups := fun _ => ⟨0, 0, false⟩
  isr := fun _ => none
  chans := fun _ => ⟨false, false, false, .idle, false, 0, 0, 0, 0⟩
  groupEn := fun _ => false
  groupPwmEn := fun _ => false
  clk1 := false
  clk2 := false

def bitOf (chan : Nat) : Nat := chan % 32

def Pwm.initBit (s : Pwm) (chan : Nat) : Bool := s.chanInitBits.getLsbD (bitOf chan)

def Pwm.setChan (s : Pwm) (chan : Nat) (regs : ChanRegs) : Pwm :=
  { s with chans := update s.chans chan regs }

section Hal

def pwmHalSetInitSignal (s : Pwm) (chan : Nat) (level : Bool) : Pwm :=
  s.setChan chan { s.chans chan with initLevel := level }

def pwmHalStopCommon (s : Pwm) (chan : Nat) : Pwm :=
  s.setChan chan { s.chans chan with intEn := false, intSt := false, en := false }

def pwmHalResetConfigToDefault (s : Pwm) (chan : Nat) : Pwm :=
  s.setChan chan { s.chans chan with t1 := 0, t2 := 0, t3 := 0, t4 := 0 }

def pwmHalInitPwm (s : Pwm) (chan t1 t2 t3 t4 : Nat) : Pwm :=
  s.setChan chan { s.chans chan with
    intEn := false, intSt := false, mode := .pwm, t1 := t1, t2 := t2, t3 := t3, t4 := t4 }

def pwmHalInitCapture (s : Pwm) (chan : Nat) (mode : PwmMode) : Pwm :=
  s.setChan chan { s.chans chan with
    intEn := false, mode := mode, t1 := 0, t2 := 0, t3 := 0, t4 := 0 }

def pwmHalIsDutyValid (period duty1 duty2 duty3 : Nat) : Bool :=
  if period = 0 then false
  else if period < addU32 (addU32 duty1 duty2) duty3 then false
  else if duty1 = 0 ∧ addU32 duty2 duty3 ≠ 0 then false
  else if duty2 = 0 ∧ duty3 ≠ 0 then false
  else true

def captureModeOf : Nat → Option PwmMode
  | 0 => some .capturePos
  | 1 => some .captureNeg
  | 2 => some .captureEdge
  | _ => none

def pwmHalIsHardwareGroup (chan1 chan2 : Nat) : Bool :=
  let small := min chan1 chan2
  let big := max chan1 chan2
  big - small == 1 && small % 2 == 0

def pwmHalStopHardwareGroup (s : Pwm) (chan1 : Nat) : Pwm :=
  { s with
    groupEn := update s.groupEn (chan1 / 2) false
    groupPwmEn := update s.groupPwmEn (chan1 / 2) false }

end Hal

section Channels

def pwmChanInitCommon (s : Pwm) (chan : Nat) : Pwm :=
  pwmHalSetInitSignal
    { s with chanInitBits := setBit s.chanInitBits (bitOf chan), clk1 := true, clk2 := true }
    chan true

def pwmChanDeinitCommon (s : Pwm) (chan : Nat) : Pwm :=
  let stopped := pwmHalResetConfigToDefault
    (pwmHalStopCommon { s with chanInitBits := clearBit s.chanInitBits (bitOf chan) } chan) chan
  { stopped with clk1 := false, clk2 := false }

def bkPwmDriverInit (s : Pwm) : Pwm :=
  if s.isInit then s
  else
    { s with
      isInit := true
      chanInitBits := 0
      groups := fun g => if g < pwmGroupNum then ⟨0, 0, false⟩ else s.groups g
      isr := fun _ => none
      chans := fun c =>
        if c < socPwmChanNumPerUnit then
          { s.chans c with en := false, intEn := false, mode := .idle, initLevel := false }
        else s.chans c
      groupEn := fun g => if g < pwmGroupNum then false else s.groupEn g
      groupPwmEn := fun g => if g < pwmGroupNum then false else s.groupPwmEn g }

structure PwmInitConfig where
  periodCycle : Nat
  dutyCycle : Nat
  duty2Cycle : Nat
  duty3Cycle : Nat

def pwmAdjustInitSignalViaDuty (s : Pwm) (chan period duty1 : Nat) : Pwm :=
  let low := if duty1 = 0 then pwmHalSetInitSignal s chan false else s
  if duty1 = period then pwmHalSetInitSignal low chan true else low

def pwmInitChan (s : Pwm) (chan : Nat) (config : PwmInitConfig) : Pwm :=
  let adjusted := pwmAdjustInitSignalViaDuty (pwmChanInitCommon s chan) chan config.periodCycle
    config.dutyCycle
  let t1 := config.dutyCycle
  let t2 := if 0 < config.duty2Cycle then addU32 t1 config.duty2Cycle else 0
  let t3 := if 0 < config.duty3Cycle then addU32 t2 config.duty3Cycle else 0
  pwmHalInitPwm adjusted chan t1 t2 t3 config.periodCycle

def bkPwmInit (s : Pwm) (chan : Nat) (config : Option PwmInitConfig) : PwmErr × Pwm :=
  if !s.isInit then (.notInit, s)
  else
    match config with
    | none => (.nullParam, s)
    | some config =>
      if socPwmChanNumPerUnit ≤ chan then (.chanId, s)
      else if !pwmHalIsDutyValid config.periodCycle config.dutyCycle config.duty2Cycle
          config.duty3Cycle then (.periodDuty, s)
      else (.ok, pwmInitChan s chan config)

/-- `bk_pwm_deinit` checks neither the driver nor the channel. -/
def bkPwmDeinit (s : Pwm) (chan : Nat) : PwmErr × Pwm := (.ok, pwmChanDeinitCommon s chan)

structure PwmCaptureInitConfig where
  edge : Nat
  isr : Option Nat

def bkPwmCaptureInit (s : Pwm) (chan : Nat) (config : Option PwmCaptureInitConfig) : PwmErr × Pwm :=
  if !s.isInit then (.notInit, s)
  else
    match config with
    | none => (.nullParam, s)
    | some config =>
      if socPwmChanNumPerUnit ≤ chan then (.chanId, s)
      else
        match captureModeOf config.edge with
        | none => (.captureEdge, s)
        | some mode =>
          let inited := pwmChanInitCommon s chan
          (.ok, pwmHalInitCapture
            { inited with isr := update inited.isr chan config.isr } chan mode)

def bkPwmCaptureDeinit (s : Pwm) (chan : Nat) : PwmErr × Pwm :=
  if !s.isInit then (.notInit, s)
  else if socPwmChanNumPerUnit ≤ chan then (.chanId, s)
  else (.ok, pwmChanDeinitCommon s chan)

end Channels

section Groups

def foundOr (i : Nat) : Nat := if i < pwmGroupNum then i else pwmGroupIdInvalid

def pwmGroupFindChannel (s : Pwm) (chan : Nat) : Nat :=
  foundOr (loopIndex pwmGroupNum fun i =>
    (s.groups i).isValid && ((s.groups i).chan1 == chan || (s.groups i).chan2 == chan))

def pwmGroupFind (s : Pwm) (chan1 chan2 : Nat) : Nat :=
  foundOr (loopIndex pwmGroupNum fun i =>
    (s.groups i).isValid && (((s.groups i).chan1 == chan1 && (s.groups i).chan2 == chan2) ||
        ((s.groups i).chan1 == chan2 && (s.groups i).chan2 == chan1)))

def pwmGroupIsExisted (s : Pwm) (group : Nat) : Bool :=
  if pwmGroupNum ≤ group then false else (s.groups group).isValid

def pwmGroupAdd (s : Pwm) (chan1 chan2 : Nat) : Nat × Pwm :=
  let i := loopIndex pwmGroupNum fun i => !(s.groups i).isValid
  if i < pwmGroupNum then
    (i, { s with groups := update s.groups i ⟨chan1, chan2, true⟩ })
  else (pwmGroupIdInvalid, s)

def pwmGroupDelete (s : Pwm) (group : Nat) : Pwm :=
  if group < pwmGroupNum then
    { s with groups := update s.groups group { s.groups group with isValid := false } }
  else s

structure PwmGroupInitConfig where
  chan1 : Nat
  chan2 : Nat
  periodCycle : Nat
  chan1DutyCycle : Nat
  chan2DutyCycle : Nat

def pwmGroupValidateParam (s : Pwm) (config : PwmGroupInitConfig) : PwmErr :=
  if socPwmChanNumPerUnit ≤ config.chan1 then .chanId
  else if socPwmChanNumPerUnit ≤ config.chan2 then .chanId
  else if config.chan1 = config.chan2 then .groupSameChan
  else if pwmGroupFind s config.chan1 config.chan2 ≠ pwmGroupIdInvalid then .groupExist
  else if pwmGroupFindChannel s config.chan1 ≠ pwmGroupIdInvalid then .groupChanUsed
  else if pwmGroupFindChannel s config.chan2 ≠ pwmGroupIdInvalid then .groupChanUsed
  else if config.periodCycle < addU32 config.chan1DutyCycle config.chan2DutyCycle then .groupDuty
  else if config.chan1DutyCycle = 0 ∨ config.chan2DutyCycle = 0 then .groupDuty
  else .ok

def pwmGroupInitChans (s : Pwm) (config : PwmGroupInitConfig) : PwmErr × Nat × Pwm :=
  match bkPwmInit s config.chan1 (some ⟨config.periodCycle, config.chan1DutyCycle, 0, 0⟩) with
  | (.ok, s₁) =>
    let s₂ := pwmHalSetInitSignal s₁ config.chan1 true
    let deadCycle :=
      subU32 (subU32 config.periodCycle config.chan1DutyCycle) config.chan2DutyCycle >>> 1
    match bkPwmInit s₂ config.chan2 (some ⟨config.periodCycle,
        addU32 config.chan1DutyCycle deadCycle, config.chan2DutyCycle, 0⟩) with
    | (.ok, s₃) =>
      let s₄ := pwmHalSetInitSignal s₃ config.chan2 false
      let added := pwmGroupAdd s₄ config.chan1 config.chan2
      (.ok, added.1, added.2)
    | (err, s₃) => (err, pwmGroupIdInvalid, s₃)
  | (err, s₁) => (err, pwmGroupIdInvalid, s₁)

def bkPwmGroupInit (s : Pwm) (config : PwmGroupInitConfig) : PwmErr × Nat × Pwm :=
  if !s.isInit then (.notInit, pwmGroupIdInvalid, s)
  else
    match pwmGroupValidateParam s config with
    | .ok => pwmGroupInitChans s config
    | err => (err, pwmGroupIdInvalid, s)

def bkPwmGroupStop (s : Pwm) (group : Nat) : Pwm :=
  if !pwmGroupIsExisted s group then s
  else
    let chan1 := (s.groups group).chan1
    let chan2 := (s.groups group).chan2
    let ungrouped :=
      if pwmHalIsHardwareGroup chan1 chan2 then pwmHalStopHardwareGroup s chan1 else s
    pwmHalStopCommon (pwmHalStopCommon ungrouped chan1) chan2

/-- `bk_pwm_group_deinit` returns at once for a group that exists. -/
def bkPwmGroupDeinit (s : Pwm) (group : Nat) : PwmErr × Pwm :=
  if pwmGroupIsExisted s group then (.ok, s)
  else
    let s₁ := bkPwmGroupStop s group
    let s₂ := pwmChanDeinitCommon s₁ (s₁.groups group).chan1
    let s₃ := pwmChanDeinitCommon s₂ (s₂.groups group).chan2
    (.ok, pwmGroupDelete s₃ group)

end Groups

section Frames

variable (s : Pwm) (chan : Nat)

@[simp] theorem pwmChanDeinitCommon_groups : (pwmChanDeinitCommon s chan).groups = s.groups := rfl

@[simp] theorem pwmChanDeinitCommon_chanInitBits :
    (pwmChanDeinitCommon s chan).chanInitBits = clearBit s.chanInitBits (bitOf chan) := rfl

theorem pwmInitChan_frame (config : PwmInitConfig) : (pwmInitChan s chan config).groups = s.groups ∧
      (pwmInitChan s chan config).isInit = s.isInit ∧
      (pwmInitChan s chan config).chanInitBits = setBit s.chanInitBits (bitOf chan) ∧
      (pwmInitChan s chan config).clk1 = true ∧ (pwmInitChan s chan config).clk2 = true := by
  unfold pwmInitChan pwmAdjustInitSignalViaDuty
  split <;> split <;> exact ⟨rfl, rfl, rfl, rfl, rfl⟩

theorem bkPwmInit_cases (config : Option PwmInitConfig) :
    ((bkPwmInit s chan config).1 ≠ .ok ∧ (bkPwmInit s chan config).2 = s) ∨
      ∃ c, config = some c ∧ chan < socPwmChanNumPerUnit ∧
        bkPwmInit s chan config = (.ok, pwmInitChan s chan c) := by
  unfold bkPwmInit
  split
  · exact .inl ⟨nofun, rfl⟩
  · split
    · exact .inl ⟨nofun, rfl⟩
    · rename_i config
      split
      · exact .inl ⟨nofun, rfl⟩
      · rename_i hchan
        split
        · exact .inl ⟨nofun, rfl⟩
        · exact .inr ⟨config, rfl, Nat.lt_of_not_le hchan, rfl⟩

end Frames

end BekenSoc.PwmDriver
