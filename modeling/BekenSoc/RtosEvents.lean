import BekenSoc.CRuntime
import BekenSoc.FlagSignals
import BekenSoc.GuardedRuns

/-!
The event flags of `rtos_ext.c` over the semaphores of the LiteOS-M port: any number of tasks
and interrupts that set flags, and the one task that waits on the event.

A section with disabled interrupts is one step, and so are the reads of the clock and the
calls of the kernel.  `LOS_SemPost` wakes the task that is blocked or sets the count of the
binary semaphore; `LOS_SemPend` takes the count, or blocks until a post or for the given ticks,
which are none with `LOS_NO_WAIT`.
-/

namespace BekenSoc.RtosEvents

open CRuntime FlagSignals GuardedRuns

def losTickMs : Nat := 2

def bekenWaitForever : Nat := 0xFFFFFFFF

def losTimeout (timeoutMs : Nat) : Nat :=
  if timeoutMs = bekenWaitForever then bekenWaitForever else timeoutMs / losTickMs

theorem losTimeout_of_ne {timeoutMs : Nat} (h : losTimeout timeoutMs ≠ bekenWaitForever) :
    losTimeout timeoutMs = timeoutMs / losTickMs :=
  if_neg fun hforever => h (if_pos hforever)

def rtosGetTime (ticks : Nat) : Nat := ticks * losTickMs % 2 ^ 32

structure Wait where
  eventFlag : BitVec 32
  anyEvent : Bool
  timeout : Nat
  startTick : Nat
  deriving DecidableEq

variable {w : Wait}

inductive Waiter
  | idle
  /-- at the top of the loop -/
  | looking (w : Wait)
  /-- no event was read -/
  | missed (w : Wait)
  /-- before `rtos_get_semaphore` with this timeout -/
  | pending (w : Wait) (timeoutMs : Nat)
  /-- in `LOS_SemPend`, until the given tick or forever -/
  | blocked (w : Wait) (deadline : Option Nat)
  | returned (w : Wait) (flags : BitVec 32) (tick : Nat)
  deriving DecidableEq

structure System where
  eventFlag : BitVec 32
  eventInited : Bool
  /-- the count of the binary semaphore -/
  token : Bool
  /-- the calls of `rtos_set_event_ex` between their section and `rtos_set_semaphore` -/
  posting : Nat
  waiter : Waiter
  ticks : Nat
  deriving DecidableEq

def rtosInitEventEx (s : System) : System :=
  if s.eventInited then s else { s with eventFlag := 0, token := false, eventInited := true }

def rtosSetEventEx (s : System) (eventFlag : BitVec 32) : System × BkErr :=
  if s.eventInited = false then (s, .errNotInit)
  else if eventFlag = 0 then (s, .ok)
  else ({ s with eventFlag := s.eventFlag ||| eventFlag, posting := s.posting + 1 }, .ok)

def losSemPost (s : System) : System :=
  match s.waiter with
  | .blocked w _ => { s with waiter := .looking w }
  | _ => { s with token := true }

def retFlag (flags : BitVec 32) (w : Wait) : BitVec 32 :=
  if w.anyEvent then flags &&& w.eventFlag
  else if flags &&& w.eventFlag = w.eventFlag then w.eventFlag
  else 0

def readEvents (s : System) (w : Wait) : System :=
  let ret := retFlag s.eventFlag w
  { s with
    eventFlag := s.eventFlag ^^^ ret
    waiter := if ret ≠ 0 then .returned w ret s.ticks else .missed w }

def elapsedTime (timeout startTime curTime : Nat) : Nat :=
  if timeout ≠ bekenWaitForever then
    if curTime < startTime then addU32 (addU32 (2 ^ 32 - 1 - curTime) 1) startTime
    else subU32 curTime startTime
  else 0

def testElapsed (s : System) (w : Wait) : System :=
  let elapsed := elapsedTime w.timeout (rtosGetTime w.startTick) (rtosGetTime s.ticks)
  { s with
    waiter :=
      if elapsed ≥ w.timeout then .returned w 0 s.ticks
      else .pending w (subU32 w.timeout elapsed) }

def rtosGetSemaphore (s : System) (w : Wait) (timeoutMs : Nat) : System :=
  if s.token then { s with token := false, waiter := .looking w }
  else if losTimeout timeoutMs = 0 then { s with waiter := .returned w 0 s.ticks }
  else if losTimeout timeoutMs = bekenWaitForever then { s with waiter := .blocked w none }
  else { s with waiter := .blocked w (some (s.ticks + losTimeout timeoutMs)) }

def rtosWaitEventEx (s : System) (w : Wait) : System :=
  if s.eventInited = false then { s with waiter := .returned w 0 s.ticks }
  else if w.eventFlag = 0 then { s with waiter := .returned w 0 s.ticks }
  else { s with waiter := .looking w }

inductive Event
  | init
  | set (eventFlag : BitVec 32)
  | post
  | wait (eventFlag : BitVec 32) (anyEvent : Bool) (timeout : Nat)
  | look
  | test
  | pend
  | expire
  | tick
  deriving DecidableEq

variable {e : Event}

def Waiter.calls : Waiter → Bool
  | .idle => true
  | .returned _ _ _ => true
  | _ => false

def step (s : System) : Event → Option System
  | .init => some (rtosInitEventEx s)
  | .set eventFlag => some (rtosSetEventEx s eventFlag).1
  | .post => if s.posting = 0 then none else some (losSemPost { s with posting := s.posting - 1 })
  | .wait eventFlag anyEvent timeout =>
    if s.waiter.calls ∧ timeout < 2 ^ 32 then
      some (rtosWaitEventEx s ⟨eventFlag, anyEvent, timeout, s.ticks⟩)
    else none
  | .look =>
    match s.waiter with
    | .looking w => some (readEvents s w)
    | _ => none
  | .test =>
    match s.waiter with
    | .missed w => some (testElapsed s w)
    | _ => none
  | .pend =>
    match s.waiter with
    | .pending w timeoutMs => some (rtosGetSemaphore s w timeoutMs)
    | _ => none
  | .expire =>
    match s.waiter with
    | .blocked w (some deadline) =>
      if deadline ≤ s.ticks then some { s with waiter := .returned w 0 s.ticks } else none
    | _ => none
  | .tick => some { s with ticks := s.ticks + 1 }

inductive Steps (s : System) : Event → System → Prop
  | inited : Steps s .init (rtosInitEventEx s)
  | notSet {eventFlag : BitVec 32} : s.eventInited = false ∨ eventFlag = 0 →
      Steps s (.set eventFlag) s
  | set {eventFlag : BitVec 32} : s.eventInited = true → eventFlag ≠ 0 → Steps s (.set eventFlag)
        { s with eventFlag := s.eventFlag ||| eventFlag, posting := s.posting + 1 }
  | woke {w : Wait} {deadline : Option Nat} : s.posting ≠ 0 → s.waiter = .blocked w deadline →
      Steps s .post { s with posting := s.posting - 1, waiter := .looking w }
  | posted : s.posting ≠ 0 → (∀ w deadline, s.waiter ≠ .blocked w deadline) →
      Steps s .post { s with posting := s.posting - 1, token := true }
  | refused {eventFlag : BitVec 32} {anyEvent : Bool} {timeout : Nat} :
      s.waiter.calls = true → s.eventInited = false ∨ eventFlag = 0 →
      Steps s (.wait eventFlag anyEvent timeout)
        { s with waiter := .returned ⟨eventFlag, anyEvent, timeout, s.ticks⟩ 0 s.ticks }
  | waits {eventFlag : BitVec 32} {anyEvent : Bool} {timeout : Nat} :
      s.waiter.calls = true → timeout < 2 ^ 32 → eventFlag ≠ 0 →
      Steps s (.wait eventFlag anyEvent timeout)
        { s with waiter := .looking ⟨eventFlag, anyEvent, timeout, s.ticks⟩ }
  | readNone {w : Wait} : s.waiter = .looking w → retFlag s.eventFlag w = 0 →
      Steps s .look { s with waiter := .missed w }
  | read {w : Wait} : s.waiter = .looking w → retFlag s.eventFlag w ≠ 0 → Steps s .look { s with
        eventFlag := s.eventFlag ^^^ retFlag s.eventFlag w
        waiter := .returned w (retFlag s.eventFlag w) s.ticks }
  | elapsed {w : Wait} : s.waiter = .missed w →
      w.timeout ≤ elapsedTime w.timeout (rtosGetTime w.startTick) (rtosGetTime s.ticks) →
      Steps s .test { s with waiter := .returned w 0 s.ticks }
  | remains {w : Wait} : s.waiter = .missed w →
      elapsedTime w.timeout (rtosGetTime w.startTick) (rtosGetTime s.ticks) < w.timeout →
      Steps s .test { s with
        waiter := .pending w (subU32 w.timeout
          (elapsedTime w.timeout (rtosGetTime w.startTick) (rtosGetTime s.ticks))) }
  | took {w : Wait} {timeoutMs : Nat} : s.waiter = .pending w timeoutMs → s.token = true →
      Steps s .pend { s with token := false, waiter := .looking w }
  | noWait {w : Wait} {timeoutMs : Nat} : s.waiter = .pending w timeoutMs →
      timeoutMs / losTickMs = 0 → Steps s .pend { s with waiter := .returned w 0 s.ticks }
  | blocks {w : Wait} {timeoutMs : Nat} {deadline : Option Nat} :
      s.waiter = .pending w timeoutMs → s.token = false →
      (∀ tick ∈ deadline, tick = s.ticks + timeoutMs / losTickMs) →
      Steps s .pend { s with waiter := .blocked w deadline }
  | expired {w : Wait} {deadline : Nat} : s.waiter = .blocked w (some deadline) →
      deadline ≤ s.ticks → Steps s .expire { s with waiter := .returned w 0 s.ticks }
  | ticked : Steps s .tick { s with ticks := s.ticks + 1 }

theorem set_cases (s : System) (eventFlag : BitVec 32) :
    Steps s (.set eventFlag) (rtosSetEventEx s eventFlag).1 := by
  unfold rtosSetEventEx
  split
  · exact .notSet (.inl ‹_›)
  · split
    · exact .notSet (.inr ‹_›)
    · exact .set (eq_true_of_ne_false ‹_›) ‹_›

theorem post_cases {s : System} (hposting : s.posting ≠ 0) :
    Steps s .post (losSemPost { s with posting := s.posting - 1 }) := by
  unfold losSemPost
  dsimp only
  split
  · rename_i hwaiter
    exact .woke hposting hwaiter
  · rename_i hwaiter
    exact .posted hposting hwaiter

theorem wait_cases {s : System} {eventFlag : BitVec 32} {anyEvent : Bool} {timeout : Nat}
    (hcalls : s.waiter.calls = true) (htimeout : timeout < 2 ^ 32) :
    Steps s (.wait eventFlag anyEvent timeout)
      (rtosWaitEventEx s ⟨eventFlag, anyEvent, timeout, s.ticks⟩) := by
  unfold rtosWaitEventEx
  split
  · exact .refused hcalls (.inl ‹_›)
  · dsimp only
    split
    · exact .refused hcalls (.inr ‹_›)
    · exact .waits hcalls htimeout ‹_›

theorem look_cases {s : System} (hwaiter : s.waiter = .looking w) :
    Steps s .look (readEvents s w) := by
  by_cases hret : retFlag s.eventFlag w = 0
  · have hnone : readEvents s w = { s with waiter := .missed w } := by simp [readEvents, hret]
    rw [hnone]
    exact .readNone hwaiter hret
  · rw [readEvents, if_pos hret]
    exact .read hwaiter hret

theorem test_cases {s : System} (hwaiter : s.waiter = .missed w) :
    Steps s .test (testElapsed s w) := by
  unfold testElapsed
  dsimp only
  split
  · exact .elapsed hwaiter ‹_›
  · exact .remains hwaiter (Nat.lt_of_not_le ‹_›)

theorem pend_cases {s : System} {timeoutMs : Nat} (hwaiter : s.waiter = .pending w timeoutMs) :
    Steps s .pend (rtosGetSemaphore s w timeoutMs) := by
  unfold rtosGetSemaphore
  split
  · exact .took hwaiter ‹_›
  · rename_i htoken
    split
    · rename_i hzero
      refine .noWait hwaiter ?_
      rw [← losTimeout_of_ne (hzero ▸ by decide), hzero]
    · split
      · exact .blocks hwaiter (eq_false_of_ne_true htoken) (by simp)
      · rename_i hfinite
        exact .blocks hwaiter (eq_false_of_ne_true htoken) (by simp [losTimeout_of_ne hfinite])

theorem step_cases {s s' : System} (h : step s e = some s') : Steps s e s' := by
  cases e with
  | init =>
    cases h
    exact .inited
  | set eventFlag =>
    cases h
    exact set_cases s eventFlag
  | post =>
    rw [step] at h
    split at h
    · cases h
    · cases h
      exact post_cases ‹_›
  | wait =>
    obtain ⟨hcalls, rfl⟩ := Option.ite_some_none_eq_some.mp h
    exact wait_cases hcalls.1 hcalls.2
  | look =>
    cases hwaiter : s.waiter with
    | looking =>
      rw [step, hwaiter] at h
      cases h
      exact look_cases hwaiter
    | _ =>
      rw [step, hwaiter] at h
      cases h
  | test =>
    cases hwaiter : s.waiter with
    | missed =>
      rw [step, hwaiter] at h
      cases h
      exact test_cases hwaiter
    | _ =>
      rw [step, hwaiter] at h
      cases h
  | pend =>
    cases hwaiter : s.waiter with
    | pending =>
      rw [step, hwaiter] at h
      cases h
      exact pend_cases hwaiter
    | _ =>
      rw [step, hwaiter] at h
      cases h
  | expire =>
    cases hwaiter : s.waiter with
    | blocked w deadline =>
      rw [step, hwaiter] at h
      cases deadline with
      | none => cases h
      | some =>
        dsimp only at h
        split at h
        · cases h
          exact .expired hwaiter ‹_›
        · cases h
    | _ =>
      rw [step, hwaiter] at h
      cases h
  | tick =>
    cases h
    exact .ticked

def System.start : System := rtosInitEventEx ⟨0, false, false, 0, .idle, 0⟩

variable {s s' : System}

theorem eventInited_step (h : s.eventInited = true) (hstep : Steps s e s') :
    s'.eventInited = true := by
  cases hstep with
  | inited =>
    rw [rtosInitEventEx, if_pos h]
    exact h
  | _ => exact h

def Waiter.missedCall : Waiter → Option Wait
  | .missed w => some w
  | .pending w _ => some w
  | .blocked w _ => some w
  | _ => none

def Waiter.phase : Waiter → Phase
  | .missed _ => .missed
  | .pending _ _ => .missed
  | .blocked _ _ => .blocked
  | _ => .running

def signal (s : System) : Signal := ⟨s.token, s.posting, s.waiter.phase⟩

def Satisfied (s : System) : Prop := ∃ w, s.waiter.missedCall = some w ∧ retFlag s.eventFlag w ≠ 0

theorem phase_ne_blocked {waiter : Waiter} (h : ∀ w deadline, waiter ≠ .blocked w deadline) :
    waiter.phase ≠ .blocked := by
  cases waiter with
  | blocked w deadline => exact absurd rfl (h w deadline)
  | _ => exact Phase.noConfusion

theorem covers_step (hinited : s.eventInited = true) (h : (signal s).Covers (Satisfied s))
    (hstep : Steps s e s') : (signal s').Covers (Satisfied s') := by
  cases hstep with
  | inited =>
    rw [rtosInitEventEx, if_pos hinited]
    exact h
  | set => exact h.raise _
  | posted _ hwaiter =>
    have hpost : (signal s).post = signal { s with posting := s.posting - 1, token := true } :=
      if_neg (phase_ne_blocked hwaiter)
    rw [← hpost]
    exact Signal.covers_post _
  | readNone hwaiter hret =>
    apply Signal.covers_miss (s := signal s)
    rintro ⟨w, hcall, hsatisfied⟩
    cases hcall
    exact hsatisfied hret
  | remains hwaiter =>
    rw [signal, Satisfied, hwaiter] at h
    exact h
  | blocks hwaiter htoken =>
    have hpend : (signal s).pend = { s with phase := .blocked } := if_neg (by simp [signal, htoken])
    have hphase : (signal s).phase = .missed := by
      rw [signal, hwaiter]
      rfl
    have hblocked := h.pend hphase
    rw [hpend] at hblocked
    rw [Satisfied, hwaiter] at hblocked
    exact hblocked
  | notSet | ticked => exact h
  | _ => exact Signal.covers_of_running rfl _

theorem getLsbD_of_retFlag {flags : BitVec 32} (i : Nat) (h : (retFlag flags w).getLsbD i = true) :
    flags.getLsbD i = true := by
  unfold retFlag at h
  split at h
  · rw [BitVec.getLsbD_and, Bool.and_eq_true] at h
    exact h.1
  · split at h
    · rename_i hall
      rw [← hall, BitVec.getLsbD_and, Bool.and_eq_true] at h
      exact h.1
    · simp at h

theorem getLsbD_xor_retFlag (flags : BitVec 32) (w : Wait) (i : Nat) :
    (flags ^^^ retFlag flags w).getLsbD i = (flags.getLsbD i && !(retFlag flags w).getLsbD i) := by
  have hread : (retFlag flags w).getLsbD i = true → flags.getLsbD i = true := getLsbD_of_retFlag i
  rw [BitVec.getLsbD_xor]
  cases hret : (retFlag flags w).getLsbD i with
  | true => simp [hread hret]
  | false => simp

/-- The system, with how often each bit was set while it was not pending and how often it was
returned. -/
structure Observed where
  system : System
  ledger : Ledger Nat

def returnedFlags (s s' : System) : BitVec 32 :=
  match s.waiter, s'.waiter with
  | .returned _ _ _, _ => 0
  | _, .returned _ flags _ => flags
  | _, _ => 0

def recorded (l : Ledger Nat) (s : System) (e : Event) (s' : System) : Ledger Nat :=
  match e with
  | .set eventFlag => if s.eventInited then l.raise s.eventFlag.getLsbD eventFlag.getLsbD else l
  | _ => l.take (returnedFlags s s').getLsbD

def observe (r : Observed) (e : Event) : Option Observed :=
  (step r.system e).map fun s' => ⟨s', recorded r.ledger r.system e s'⟩

theorem returnedFlags_of_zero (h : ∀ w flags tick, s'.waiter = .returned w flags tick → flags = 0) :
    returnedFlags s s' = 0 := by
  unfold returnedFlags
  split
  · rfl
  · rename_i hreturned _
    exact h _ _ _ hreturned
  · rfl

theorem returnedFlags_of_same (h : s'.waiter = s.waiter) : returnedFlags s s' = 0 := by
  unfold returnedFlags
  rw [h]
  cases s.waiter <;> rfl

theorem balanced_step {l : Ledger Nat} (hinited : s.eventInited = true)
    (h : l.Balanced s.eventFlag.getLsbD) (hstep : Steps s e s') :
    (recorded l s e s').Balanced s'.eventFlag.getLsbD := by
  have hsame : returnedFlags s s' = 0 → (l.take (returnedFlags s s').getLsbD).Balanced
      s.eventFlag.getLsbD := by
    intro hzero
    rw [hzero]
    exact h.take_none fun i => BitVec.getLsbD_zero
  cases hstep with
  | inited =>
    rw [rtosInitEventEx, if_pos hinited] at hsame ⊢
    exact hsame (returnedFlags_of_same rfl)
  | @notSet eventFlag hnone =>
    rw [recorded, if_pos hinited]
    rw [hinited] at hnone
    rw [hnone.resolve_left Bool.noConfusion]
    intro i
    have hraise := h.raise (0#32).getLsbD i
    simp only [BitVec.getLsbD_zero, Bool.or_false] at hraise
    exact hraise
  | @set eventFlag =>
    rw [recorded, if_pos hinited]
    intro i
    rw [BitVec.getLsbD_or]
    exact h.raise eventFlag.getLsbD i
  | @read w hwaiter =>
    have hreturned : returnedFlags s { s with
        eventFlag := s.eventFlag ^^^ retFlag s.eventFlag w
        waiter := .returned w (retFlag s.eventFlag w) s.ticks } = retFlag s.eventFlag w := by
      rw [returnedFlags, hwaiter]
    change (l.take (returnedFlags s _).getLsbD).Balanced _
    rw [hreturned]
    intro i
    rw [getLsbD_xor_retFlag]
    exact h.take getLsbD_of_retFlag i
  | posted | ticked => exact hsame (returnedFlags_of_same rfl)
  | _ =>
    apply hsame
    apply returnedFlags_of_zero
    intro w flags tick hreturned
    cases hreturned <;> rfl

/-- Each time a bit became pending it was returned by one wait or is pending still, and the
blocked task is woken if its condition holds. -/
structure EventsKept (r : Observed) : Prop where
  once : ∀ i, r.ledger.raised i = r.ledger.taken i + (r.system.eventFlag.getLsbD i).toNat
  heard : ∀ w deadline, r.system.waiter = .blocked w deadline →
    retFlag r.system.eventFlag w ≠ 0 → r.system.token = true ∨ 0 < r.system.posting

structure EventInv (r : Observed) : Prop where
  inited : r.system.eventInited = true
  balanced : r.ledger.Balanced r.system.eventFlag.getLsbD
  covers : (signal r.system).Covers (Satisfied r.system)

def Observed.start : Observed := ⟨System.start, Ledger.empty⟩

theorem EventInv.step {r r' : Observed} (h : EventInv r) (hstep : observe r e = some r') :
    EventInv r' := by
  obtain ⟨s', hs, rfl⟩ := Option.map_eq_some_iff.mp hstep
  have hcases := step_cases hs
  exact ⟨eventInited_step h.inited hcases, balanced_step h.inited h.balanced hcases,
    covers_step h.inited h.covers hcases⟩

theorem eventInv_start : EventInv Observed.start := by
  refine ⟨rfl, ?_, Signal.covers_of_running rfl _⟩
  intro i
  simp [Observed.start, System.start, rtosInitEventEx, Ledger.empty]

/-- No event is lost and none is returned twice, under every interleaving. -/
theorem reached_eventsKept {r : Observed} (h : Reached observe anyStep Observed.start r) :
    EventsKept r := by
  have hinv := h.invariant EventInv eventInv_start fun _ _ _ hinv _ hstep => hinv.step hstep
  refine ⟨hinv.balanced, ?_⟩
  intro w deadline hwaiter hret
  have hphase : (signal r.system).phase ≠ .running := by
    rw [signal, hwaiter]
    exact Phase.noConfusion
  apply hinv.covers.heard hphase
  exact ⟨w, by rw [hwaiter, Waiter.missedCall], hret⟩

theorem reached_eventsKept_blocked : ∃ r, Reached observe anyStep Observed.start r ∧
      (r.system.waiter = .blocked ⟨5, false, 100, 0⟩ (some 50) ∧
        retFlag r.system.eventFlag ⟨5, false, 100, 0⟩ = 5 ∧ r.ledger.taken 1 = 1) ∧
      EventsKept r :=
  exists_reached_and (fun _ => reached_eventsKept)
    [.set 6, .wait 2 true bekenWaitForever, .look, .wait 5 false 100, .look, .test, .post, .pend,
      .look, .test, .pend, .set 1] (by decide)

end BekenSoc.RtosEvents
