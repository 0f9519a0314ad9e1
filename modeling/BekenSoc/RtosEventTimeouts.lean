import BekenSoc.RtosEvents

namespace BekenSoc.RtosEvents

open CRuntime GuardedRuns

variable {w : Wait} {ticks : Nat} {s : System}

def Late (w : Wait) (tick : Nat) : Prop := w.timeout < (tick - w.startTick) * losTickMs + losTickMs

/-- The clock does not wrap around before the timeout has passed, and a call that asks for no
event has no time to wait. -/
def WellTimed (w : Wait) : Prop :=
  (w.eventFlag ≠ 0 ∨ w.timeout < losTickMs) ∧
    rtosGetTime w.startTick + w.timeout < 2 ^ 32 + losTickMs

instance (w : Wait) (tick : Nat) : Decidable (Late w tick) :=
  inferInstanceAs (Decidable (w.timeout < (tick - w.startTick) * losTickMs + losTickMs))

instance (w : Wait) : Decidable (WellTimed w) :=
  inferInstanceAs (Decidable ((w.eventFlag ≠ 0 ∨ w.timeout < losTickMs) ∧
    rtosGetTime w.startTick + w.timeout < 2 ^ 32 + losTickMs))

theorem elapsedTime_eq {tick : Nat} (htimed : WellTimed w) (htimeout : w.timeout < 2 ^ 31)
    (htick : w.startTick ≤ tick) :
    elapsedTime w.timeout (rtosGetTime w.startTick) (rtosGetTime tick) =
      (tick - w.startTick) * losTickMs ∨ Late w tick := by
  obtain ⟨-, hwrap⟩ := htimed
  have hfinite : w.timeout ≠ bekenWaitForever := by
    unfold bekenWaitForever
    omega
  by_cases hpast : rtosGetTime w.startTick + (tick - w.startTick) * losTickMs < 2 ^ 32
  · left
    have hcur : rtosGetTime tick = rtosGetTime w.startTick + (tick - w.startTick) * losTickMs := by
      unfold rtosGetTime losTickMs at *
      omega
    rw [elapsedTime, if_pos hfinite, if_neg (by omega), hcur]
    unfold subU32 rtosGetTime losTickMs at *
    omega
  · right
    unfold Late losTickMs at *
    omega

def TimedAt (ticks : Nat) : Waiter → Prop
  | .idle => True
  | .looking w => w.startTick ≤ ticks
  | .missed w => w.startTick ≤ ticks
  | .pending w timeoutMs => w.startTick ≤ ticks ∧ (WellTimed w ∧ w.timeout < 2 ^ 31 →
        w.timeout ≤ (ticks - w.startTick) * losTickMs + timeoutMs ∨ Late w ticks)
  | .blocked w deadline => w.startTick ≤ ticks ∧
      (WellTimed w ∧ w.timeout < 2 ^ 31 → ∀ tick ∈ deadline, Late w tick)
  | .returned w flags tick => WellTimed w ∧ w.timeout < 2 ^ 31 → flags = 0 → Late w tick

theorem Late.mono {tick tick' : Nat} (h : Late w tick) (hle : tick ≤ tick') : Late w tick' := by
  unfold Late losTickMs at *
  omega

theorem TimedAt.tick {waiter : Waiter} (h : TimedAt ticks waiter) : TimedAt (ticks + 1) waiter := by
  cases waiter with
  | idle => trivial
  | looking | missed => exact Nat.le_succ_of_le h
  | pending w =>
    refine ⟨Nat.le_succ_of_le h.1, fun htimed => ?_⟩
    rcases h.2 htimed with hremains | hlate
    · left
      have hmono : (ticks - w.startTick) * losTickMs ≤ (ticks + 1 - w.startTick) * losTickMs :=
        Nat.mul_le_mul_right _ (by omega)
      omega
    · exact .inr (hlate.mono (Nat.le_succ ticks))
  | blocked => exact ⟨Nat.le_succ_of_le h.1, h.2⟩
  | returned => exact h

theorem le_add_subU32 {a b : Nat} (hb : b < a) (ha : a < 2 ^ 32) : a ≤ b + subU32 a b := by
  unfold subU32
  omega

theorem late_of_noWait {timeoutMs : Nat}
    (h : w.timeout ≤ (ticks - w.startTick) * losTickMs + timeoutMs ∨ Late w ticks)
    (hnone : timeoutMs / losTickMs = 0) : Late w ticks := by
  rcases h with hremains | hlate
  · unfold Late losTickMs at *
    omega
  · exact hlate

theorem late_of_deadline {timeoutMs : Nat} (hstart : w.startTick ≤ ticks)
    (h : w.timeout ≤ (ticks - w.startTick) * losTickMs + timeoutMs ∨ Late w ticks) :
    Late w (ticks + timeoutMs / losTickMs) := by
  rcases h with hremains | hlate
  · unfold Late losTickMs at *
    omega
  · exact hlate.mono (Nat.le_add_right _ _)

theorem timedAt_step {s' : System} {e : Event} (hinited : s.eventInited = true)
    (h : TimedAt s.ticks s.waiter) (hstep : Steps s e s') : TimedAt s'.ticks s'.waiter := by
  cases hstep with
  | inited =>
    rw [rtosInitEventEx, if_pos hinited]
    exact h
  | notSet | set => exact h
  | woke _ hwaiter =>
    rw [hwaiter] at h
    exact h.1
  | posted => exact h
  | refused _ hnone =>
    rintro ⟨⟨hflag, -⟩, -⟩ -
    rw [hinited] at hnone
    have hshort := hflag.resolve_left (not_not_intro (hnone.resolve_left Bool.noConfusion))
    exact Nat.lt_of_lt_of_le hshort (Nat.le_add_left _ _)
  | waits => exact Nat.le_refl s.ticks
  | readNone hwaiter =>
    rw [hwaiter] at h
    exact h
  | read _ hret =>
    intro _ hzero
    exact absurd hzero hret
  | elapsed hwaiter helapsed =>
    rw [hwaiter] at h
    rintro ⟨htimed, htimeout⟩ -
    rcases elapsedTime_eq htimed htimeout h with heq | hlate
    · rw [heq] at helapsed
      exact Nat.lt_of_le_of_lt helapsed (Nat.lt_add_of_pos_right (by decide))
    · exact hlate
  | remains hwaiter hremains =>
    rw [hwaiter] at h
    refine ⟨h, ?_⟩
    rintro ⟨htimed, htimeout⟩
    rcases elapsedTime_eq htimed htimeout h with heq | hlate
    · rw [heq] at hremains ⊢
      exact .inl (le_add_subU32 hremains (by omega))
    · exact .inr hlate
  | took hwaiter =>
    rw [hwaiter] at h
    exact h.1
  | noWait hwaiter hnone =>
    rw [hwaiter] at h
    exact fun htimed _ => late_of_noWait (h.2 htimed) hnone
  | blocks hwaiter _ hdeadline =>
    rw [hwaiter] at h
    refine ⟨h.1, fun htimed tick hmem => ?_⟩
    rw [hdeadline tick hmem]
    exact late_of_deadline h.1 (h.2 htimed)
  | expired hwaiter hdeadline =>
    rw [hwaiter] at h
    exact fun htimed _ => (h.2 htimed _ rfl).mono hdeadline
  | ticked => exact h.tick

theorem timedAt_of_reached (h : Reached step anyStep System.start s) :
    TimedAt s.ticks s.waiter := by
  have hinv := h.invariant (fun s => s.eventInited = true ∧ TimedAt s.ticks s.waiter)
    ⟨rfl, trivial⟩ fun s e s' hinv _ hstep =>
      ⟨eventInited_step hinv.1 (step_cases hstep), timedAt_step hinv.1 hinv.2 (step_cases hstep)⟩
  exact hinv.2

theorem reached_ticks (h : Reached step anyStep System.start s) (n : Nat) :
    Reached step anyStep System.start { s with ticks := s.ticks + n } := by
  induction n with
  | zero => exact h
  | succ n ih => exact ih.step .tick trivial rfl

def quiet (posting : Nat) (waiter : Waiter) (ticks : Nat) : System :=
  ⟨0, true, false, posting, waiter, ticks⟩

theorem retFlag_zero (h : w.eventFlag ≠ 0) : retFlag 0 w = 0 := by
  have hand : (0 : BitVec 32) &&& w.eventFlag = 0 := BitVec.zero_and
  rw [retFlag, hand, if_neg (Ne.symm h)]
  exact ite_self 0

theorem step_look (h : w.eventFlag ≠ 0) (posting ticks : Nat) :
    step (quiet posting (.looking w) ticks) .look = some (quiet posting (.missed w) ticks) := by
  change some (readEvents (quiet posting (.looking w) ticks) w) = _
  have hret : retFlag (quiet posting (.looking w) ticks).eventFlag w = 0 := retFlag_zero h
  rw [readEvents, hret]
  simp [quiet]

theorem step_test (w : Wait) (posting ticks : Nat) : step (quiet posting (.missed w) ticks) .test =
      some (quiet posting
        (if w.timeout ≤ elapsedTime w.timeout (rtosGetTime w.startTick) (rtosGetTime ticks) then
          .returned w 0 ticks
        else .pending w (subU32 w.timeout
          (elapsedTime w.timeout (rtosGetTime w.startTick) (rtosGetTime ticks)))) ticks) := rfl

theorem reached_blocked (hflag : w.eventFlag ≠ 0) (hlong : losTickMs ≤ w.timeout)
    (htimeout : w.timeout < 2 ^ 31) :
    Reached step anyStep System.start
      (quiet 1 (.blocked w (some (w.startTick + w.timeout / losTickMs))) w.startTick) := by
  have hfinite : w.timeout ≠ bekenWaitForever := by
    unfold bekenWaitForever
    omega
  have hreturned : Reached step anyStep System.start
      (quiet 1 (.returned ⟨1, true, 0, 0⟩ 1 0) (0 + w.startTick)) :=
    reached_ticks (Reached.start.trans_runGuarded [.set 1, .wait 1 true 0, .look] rfl) w.startTick
  rw [Nat.zero_add] at hreturned
  have hlooking : step (quiet 1 (.returned ⟨1, true, 0, 0⟩ 1 0) w.startTick)
      (.wait w.eventFlag w.anyEvent w.timeout) = some (quiet 1 (.looking w) w.startTick) := by
    rw [step, if_pos ⟨rfl, by omega⟩, rtosWaitEventEx, if_neg (by simp [quiet]), if_neg hflag]
    rfl
  have helapsed :
      elapsedTime w.timeout (rtosGetTime w.startTick) (rtosGetTime w.startTick) = 0 := by
    rw [elapsedTime, if_pos hfinite, if_neg (Nat.lt_irrefl _), subU32]
    omega
  have hpending : step (quiet 1 (.missed w) w.startTick) .test =
      some (quiet 1 (.pending w w.timeout) w.startTick) := by
    have hremains : subU32 w.timeout 0 = w.timeout := by
      unfold subU32
      omega
    have hpositive : ¬ w.timeout ≤ 0 := by
      unfold losTickMs at hlong
      omega
    rw [step_test, helapsed, if_neg hpositive, hremains]
  have hblocked : step (quiet 1 (.pending w w.timeout) w.startTick) .pend =
      some (quiet 1 (.blocked w (some (w.startTick + w.timeout / losTickMs))) w.startTick) := by
    obtain ⟨hticks, hforever⟩ :
        w.timeout / losTickMs ≠ 0 ∧ w.timeout / losTickMs ≠ bekenWaitForever := by
      unfold losTickMs bekenWaitForever at *
      omega
    change some (rtosGetSemaphore (quiet 1 (.pending w w.timeout) w.startTick) w w.timeout) = _
    have hlos : losTimeout w.timeout = w.timeout / losTickMs := if_neg hfinite
    rw [rtosGetSemaphore, if_neg (by simp [quiet]), hlos, if_neg hticks, if_neg hforever]
    rfl
  have hcall := hreturned.step _ trivial hlooking
  have hmissed := hcall.step .look trivial (step_look hflag 1 w.startTick)
  exact (hmissed.step .test trivial hpending).step .pend trivial hblocked

def wrapTick (startTick : Nat) : Nat := startTick + (2 ^ 32 - rtosGetTime startTick) / losTickMs

theorem reached_returned (hflag : w.eventFlag ≠ 0) (htimeout : w.timeout < 2 ^ 31)
    (hwrap : 2 ^ 32 + losTickMs ≤ rtosGetTime w.startTick + w.timeout) :
    Reached step anyStep System.start
      (quiet 0 (.returned w 0 (wrapTick w.startTick)) (wrapTick w.startTick)) := by
  have hlong : losTickMs ≤ w.timeout := by
    unfold rtosGetTime losTickMs at *
    omega
  have helapsed : w.timeout ≤ elapsedTime w.timeout (rtosGetTime w.startTick)
      (rtosGetTime (wrapTick w.startTick)) := by
    have hfinite : w.timeout ≠ bekenWaitForever := by
      unfold bekenWaitForever
      omega
    have hzero : rtosGetTime (wrapTick w.startTick) = 0 := by
      unfold wrapTick rtosGetTime losTickMs
      omega
    rw [hzero, elapsedTime, if_pos hfinite, if_pos (by omega)]
    unfold addU32 rtosGetTime losTickMs at *
    omega
  have hblocked := reached_ticks (reached_blocked hflag hlong htimeout)
    ((2 ^ 32 - rtosGetTime w.startTick) / losTickMs)
  have hlooking : Reached step anyStep System.start
      (quiet 0 (.looking w) (wrapTick w.startTick)) := hblocked.step .post trivial rfl
  have hmissed := hlooking.step .look trivial (step_look hflag 0 _)
  refine hmissed.step .test trivial ?_
  rw [step_test, if_pos helapsed]

theorem reached_refused (hflag : w.eventFlag = 0) (htimeout : w.timeout < 2 ^ 31) :
    Reached step anyStep System.start (quiet 0 (.returned w 0 w.startTick) w.startTick) := by
  have hidle : Reached step anyStep System.start (quiet 0 .idle (0 + w.startTick)) :=
    reached_ticks Reached.start w.startTick
  rw [Nat.zero_add] at hidle
  refine hidle.step (.wait w.eventFlag w.anyEvent w.timeout) trivial ?_
  rw [step, if_pos ⟨rfl, by omega⟩, rtosWaitEventEx, if_neg (by simp [quiet]), if_pos hflag]
  rfl

/-- Every wait with these arguments that returns no event has lasted for its timeout, up to a tick,
exactly if the arguments are well timed. -/
theorem returns_late_iff (w : Wait) (htimeout : w.timeout < 2 ^ 31) :
    (∀ s tick, Reached step anyStep System.start s → s.waiter = .returned w 0 tick →
      Late w tick) ↔ WellTimed w := by
  constructor
  · intro hlate
    by_cases hflag : w.eventFlag = 0
    · have hshort := hlate _ _ (reached_refused hflag htimeout) rfl
      unfold Late at hshort
      rw [Nat.sub_self, Nat.zero_mul, Nat.zero_add] at hshort
      refine ⟨.inr hshort, ?_⟩
      unfold rtosGetTime losTickMs at *
      omega
    · refine ⟨.inl hflag, ?_⟩
      by_contra hwrap
      have hearly := hlate _ _ (reached_returned hflag htimeout (Nat.le_of_not_lt hwrap)) rfl
      unfold Late wrapTick rtosGetTime losTickMs at *
      omega
  · intro htimed s tick hreached hwaiter
    have hinv := timedAt_of_reached hreached
    rw [hwaiter] at hinv
    exact hinv ⟨htimed, htimeout⟩ rfl

theorem returns_late_iff_boot : (1000 < 2 ^ 31) ∧ ∀ s tick, Reached step anyStep System.start s →
      s.waiter = .returned ⟨1, true, 1000, 7⟩ 0 tick → Late ⟨1, true, 1000, 7⟩ tick :=
  ⟨by decide, (returns_late_iff ⟨1, true, 1000, 7⟩ (by decide)).mpr (by decide)⟩

theorem flag_ends_wait_early : ∃ s, Reached step anyStep System.start s ∧
      s.waiter = .returned ⟨1, true, 1000, 2147483643⟩ 0 2147483648 ∧
      s.eventFlag = 2 ∧ ¬ Late ⟨1, true, 1000, 2147483643⟩ 2147483648 := by
  have hidle : Reached step anyStep System.start (quiet 0 .idle (0 + 2147483643)) :=
    reached_ticks Reached.start 2147483643
  have hreturned : Reached step anyStep System.start
      ⟨2, true, false, 0, .returned ⟨1, true, 1000, 2147483643⟩ 0 2147483648, 2147483648⟩ :=
    hidle.trans_runGuarded [.wait 1 true 1000, .look, .test, .pend, .tick, .tick, .tick, .tick,
      .tick, .set 2, .post, .look, .test] (by decide)
  exact ⟨_, hreturned, rfl, rfl, by decide⟩

end BekenSoc.RtosEvents
