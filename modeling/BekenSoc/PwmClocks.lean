import BekenSoc.GuardedRuns
import BekenSoc.PwmDriver

namespace BekenSoc.PwmClocks

open BitMasks GuardedRuns PwmDriver

inductive ChanCall
  | init (chan : Nat) (config : Option PwmInitConfig)
  | deinit (chan : Nat)
  | captureInit (chan : Nat) (config : Option PwmCaptureInitConfig)
  | captureDeinit (chan : Nat)

def call (s : Pwm) : ChanCall → PwmErr × Pwm
  | .init chan config => bkPwmInit s chan config
  | .deinit chan => bkPwmDeinit s chan
  | .captureInit chan config => bkPwmCaptureInit s chan config
  | .captureDeinit chan => bkPwmCaptureDeinit s chan

def chanStep (s : Pwm) (c : ChanCall) : Option Pwm := some (call s c).2

def Powered (s : Pwm) : Prop :=
  ∀ bit, s.chanInitBits.getLsbD bit = true → s.clk1 = true ∧ s.clk2 = true

def deinitOf (s : Pwm) : ChanCall → Option Nat
  | .deinit chan => some chan
  | .captureDeinit chan => if s.isInit && chan < socPwmChanNumPerUnit then some chan else none
  | _ => none

/-- A channel is deinitialised only when no other channel is initialised. -/
def LastDeinit (s : Pwm) (c : ChanCall) : Prop :=
  ∀ chan ∈ deinitOf s c, ∀ bit < 32, bit ≠ bitOf chan → s.chanInitBits.getLsbD bit = false

instance (s : Pwm) (c : ChanCall) : Decidable (LastDeinit s c) :=
  inferInstanceAs (Decidable (∀ _ ∈ deinitOf s c, ∀ _ < 32, _ → _))

section Calls

variable (s : Pwm)

theorem bkPwmCaptureInit_cases (chan : Nat) (config : Option PwmCaptureInitConfig) :
    (bkPwmCaptureInit s chan config).2 = s ∨ ((bkPwmCaptureInit s chan config).2.clk1 = true ∧
        (bkPwmCaptureInit s chan config).2.clk2 = true) := by
  unfold bkPwmCaptureInit
  split
  · exact .inl rfl
  · split
    · exact .inl rfl
    · split
      · exact .inl rfl
      · split
        · exact .inl rfl
        · exact .inr ⟨rfl, rfl⟩

theorem bkPwmCaptureDeinit_eq (chan : Nat) : (bkPwmCaptureDeinit s chan).2 =
      if s.isInit && chan < socPwmChanNumPerUnit then pwmChanDeinitCommon s chan else s := by
  unfold bkPwmCaptureDeinit
  cases s.isInit with
  | false => rfl
  | true =>
    by_cases hchan : chan < socPwmChanNumPerUnit
    · rw [if_neg (by decide), if_neg (Nat.not_le.mpr hchan), decide_eq_true hchan]
      rfl
    · rw [if_neg (by decide), if_pos (Nat.le_of_not_lt hchan), decide_eq_false hchan]
      rfl

theorem call_cases (c : ChanCall) :
    (∃ chan, deinitOf s c = some chan ∧ (call s c).2 = pwmChanDeinitCommon s chan) ∨
      (deinitOf s c = none ∧
        ((call s c).2 = s ∨ ((call s c).2.clk1 = true ∧ (call s c).2.clk2 = true))) := by
  cases c with
  | init chan config =>
    refine .inr ⟨rfl, ?_⟩
    obtain ⟨-, hsame⟩ | ⟨c, -, -, hinit⟩ := bkPwmInit_cases s chan config
    · exact .inl hsame
    · rw [call, hinit]
      exact .inr (pwmInitChan_frame s chan c).2.2.2
  | deinit chan => exact .inl ⟨chan, rfl, rfl⟩
  | captureInit chan config => exact .inr ⟨rfl, bkPwmCaptureInit_cases s chan config⟩
  | captureDeinit chan =>
    rw [call, bkPwmCaptureDeinit_eq, deinitOf]
    split
    · exact .inl ⟨chan, rfl, rfl⟩
    · exact .inr ⟨rfl, .inl rfl⟩

end Calls

theorem powered_pwmChanDeinitCommon_iff (s : Pwm) (chan : Nat) :
    Powered (pwmChanDeinitCommon s chan) ↔
      ∀ bit < 32, bit ≠ bitOf chan → s.chanInitBits.getLsbD bit = false := by
  constructor
  · intro h bit _ hne
    -- a bit that stays set would need a clock that the call has powered down
    by_contra hset
    have hstays : (pwmChanDeinitCommon s chan).chanInitBits.getLsbD bit = true := by
      rw [pwmChanDeinitCommon_chanInitBits, getLsbD_clearBit, decide_eq_false hne, Bool.not_false,
        Bool.and_true]
      exact Bool.not_eq_false _ ▸ hset
    exact absurd (h bit hstays).1 nofun
  · intro h bit hset
    rw [pwmChanDeinitCommon_chanInitBits, getLsbD_clearBit, Bool.and_eq_true,
      Bool.not_eq_true', decide_eq_false_iff_not] at hset
    have hlt : bit < 32 := BitVec.lt_of_getLsbD hset.1
    rw [h bit hlt hset.2] at hset
    exact absurd hset.1 nofun

theorem powered_call_iff {s : Pwm} (h : Powered s) (c : ChanCall) :
    Powered (call s c).2 ↔ LastDeinit s c := by
  obtain ⟨chan, hdeinit, hcall⟩ | ⟨hnone, hcall⟩ := call_cases s c
  · rw [hcall, powered_pwmChanDeinitCommon_iff, LastDeinit, hdeinit]
    simp only [Option.mem_def, Option.some.injEq, forall_eq']
  · have hlast : LastDeinit s c := by
      intro chan hmem
      rw [hnone] at hmem
      cases hmem
    refine ⟨fun _ => hlast, fun _ => ?_⟩
    obtain hsame | hup := hcall
    · rw [hsame]
      exact h
    · exact fun _ _ => hup

theorem powered_bkPwmDriverInit {s : Pwm} (h : s.isInit = false) : Powered (bkPwmDriverInit s) := by
  intro bit hset
  rw [bkPwmDriverInit, h, if_neg Bool.false_ne_true] at hset
  rw [show (0 : BitVec 32) = 0#32 from rfl, BitVec.getLsbD_zero] at hset
  cases hset

/-- In every run that deinitialises a channel only when no other one is initialised both clocks
are powered while an init bit is set; from such a state any other deinit breaks it. -/
theorem powered_of_last_deinit {s₀ s : Pwm} (h₀ : s₀.isInit = false)
    (h : Reached chanStep LastDeinit (bkPwmDriverInit s₀) s) :
    Powered s ∧ ∀ c, Powered (call s c).2 ↔ LastDeinit s c := by
  have hpowered : Powered s := by
    refine h.invariant Powered (powered_bkPwmDriverInit h₀) ?_
    intro s c s' hs hok hstep
    obtain rfl := Option.some.inj hstep
    exact (powered_call_iff hs c).mpr hok
  exact ⟨hpowered, powered_call_iff hpowered⟩

theorem powered_of_last_deinit_one : ∃ s, Reached chanStep LastDeinit (bkPwmDriverInit blank) s ∧
      s.chanInitBits.getLsbD 0 = true ∧ s.clk1 = true ∧ s.clk2 = true := by
  obtain ⟨s, hreached, hs⟩ := exists_reached chanStep LastDeinit (bkPwmDriverInit blank)
    (fun s => s.chanInitBits.getLsbD 0 = true)
    [.init 1 (some ⟨10, 5, 0, 0⟩), .deinit 1, .captureInit 0 (some ⟨0, none⟩)] (by decide)
  exact ⟨s, hreached, hs, (powered_of_last_deinit rfl hreached).1 0 hs⟩

theorem clocks_down_while_initialised : ∃ s, Reached chanStep anyStep (bkPwmDriverInit blank) s ∧
      s.chanInitBits.getLsbD 0 = true ∧ s.clk1 = false ∧ s.clk2 = false :=
  exists_reached _ _ _ _
    [.init 0 (some ⟨10, 5, 0, 0⟩), .init 1 (some ⟨10, 5, 0, 0⟩), .deinit 1] (by decide)

end BekenSoc.PwmClocks
