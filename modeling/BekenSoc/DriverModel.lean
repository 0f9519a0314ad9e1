import Mathlib.Data.Fintype.Basic
import BekenSoc.CRuntime
import BekenSoc.GuardedRuns

/-!
`ddev_open` and `ddev_close` of `drv_model.c` on one device whose operations have an `open` and a
`close`.  A section with disabled interrupts, a test and a call of an operation are one step each;
any task can run between two steps of another.
-/

namespace BekenSoc.DriverModel

open Function CRuntime GuardedRuns

inductive DdState
  | nodevice
  | closed
  | opened
  deriving DecidableEq, Repr

structure Dev where
  state : DdState
  useCnt : Nat
  /-- the handles that were returned by `ddev_open` and are not yet closed -/
  handles : Nat
  /-- how often the open operation has run since the device was last closed -/
  sessionOpens : Nat
  /-- the close operation has run while a handle was open -/
  closedEarly : Bool
  deriving DecidableEq

/-- Where a task is in `ddev_open` or `ddev_close`; `handle` says that the handle is valid and
`status` that the status is `DRV_SUCCESS`. -/
inductive Pc
  | idle
  | testOpened
  | testClosed
  | runOpen
  | setOpened (status : Bool)
  | increment (handle status : Bool)
  | decrement
  | testZero
  | runClose
  | setClosed
  deriving DecidableEq

def advance (dev : Dev) (result : Bool) : Pc → Dev × Pc
  | .idle => (dev, .idle)
  | .testOpened => (dev, if dev.state = .opened then .increment true false else .testClosed)
  | .testClosed => (dev, if dev.state = .closed then .runOpen else .increment false false)
  | .runOpen => ({ dev with sessionOpens := dev.sessionOpens + 1 }, .setOpened result)
  | .setOpened status => ({ dev with state := .opened, useCnt := 0 }, .increment true status)
  | .increment handle _ =>
    ({ dev with
      useCnt := addU32 dev.useCnt 1
      handles := dev.handles + handle.toNat }, .idle)
  | .decrement =>
    ({ dev with useCnt := subU32 dev.useCnt 1, handles := dev.handles - 1 }, .testZero)
  | .testZero => (dev, if dev.useCnt = 0 then .runClose else .idle)
  | .runClose =>
    ({ dev with closedEarly := dev.closedEarly || decide (0 < dev.handles) }, .setClosed)
  | .setClosed => ({ dev with state := .closed, sessionOpens := 0 }, .idle)

structure Sys (Task : Type) where
  dev : Dev
  pc : Task → Pc
  /-- the handle and the status that the last `ddev_open` of a task has returned -/
  returned : Task → Option (Bool × Bool)

inductive Event (Task : Type)
  | openCall (t : Task)
  | closeCall (t : Task)
  | run (t : Task) (result : Bool)

section Steps

variable {Task : Type} [DecidableEq Task]

def returns : Pc → Option (Bool × Bool) → Option (Bool × Bool)
  | .increment handle status, _ => some (handle, status)
  | _, old => old

def step (s : Sys Task) : Event Task → Option (Sys Task)
  | .openCall t => if s.pc t = .idle then some { s with pc := update s.pc t .testOpened } else none
  | .closeCall t => if s.pc t = .idle then some { s with pc := update s.pc t .decrement } else none
  | .run t result =>
    if s.pc t = .idle then none
    else some {
      dev := (advance s.dev result (s.pc t)).1
      pc := update s.pc t (advance s.dev result (s.pc t)).2
      returned := update s.returned t (returns (s.pc t) (s.returned t)) }

def StepApart (s : Sys Task) (t : Task) : Pc → Prop
  | .increment .. => s.dev.handles + 1 < 2 ^ 32
  | .decrement => 1 < s.dev.handles ∨ s.dev.handles = 1 ∧ ∀ u, u ≠ t → s.pc u = .idle
  | _ => True

/-- A call that opens the device and the step that gives up its last handle have no other call
beside them; only open handles are closed, and fewer than `2 ^ 32` are open. -/
def Apart (s : Sys Task) : Event Task → Prop
  | .openCall _ => 0 < s.dev.handles ∨ ∀ u, s.pc u = .idle
  | .closeCall _ => 0 < s.dev.handles
  | .run t _ => StepApart s t (s.pc t)

instance [Fintype Task] (s : Sys Task) (t : Task) (pc : Pc) : Decidable (StepApart s t pc) :=
  match pc with
  | .increment .. => inferInstanceAs (Decidable (_ < _))
  | .decrement => inferInstanceAs (Decidable (_ ∨ _))
  | .idle | .testOpened | .testClosed | .runOpen | .setOpened _ | .testZero | .runClose
  | .setClosed => isTrue trivial

instance [Fintype Task] (s : Sys Task) (e : Event Task) : Decidable (Apart s e) :=
  match e with
  | .openCall _ => inferInstanceAs (Decidable (_ ∨ _))
  | .closeCall _ => inferInstanceAs (Decidable (_ < _))
  | .run t _ => inferInstanceAs (Decidable (StepApart s t (s.pc t)))

def registered (Task : Type) : Sys Task where
  dev := ⟨.closed, 0, 0, 0, false⟩
  pc := fun _ => .idle
  returned := fun _ => none

end Steps

section Phases

/-- The open operation has run once in a session, the close operation never with an open handle,
and `use_cnt` counts the open handles. -/
structure Lawful (dev : Dev) : Prop where
  opens : 0 < dev.handles → dev.sessionOpens = 1
  opens_le : dev.sessionOpens ≤ 1
  close : dev.closedEarly = false
  count : dev.useCnt = dev.handles

-- the only call while no handle is open: the first open or the last close
def SoloFacts (dev : Dev) : Pc → Prop
  | .idle | .testOpened | .testClosed | .runOpen => dev.state = .closed ∧ dev.sessionOpens = 0
  | .setOpened _ => dev.state = .closed ∧ dev.sessionOpens = 1
  | .increment handle _ => handle = true ∧ dev.state = .opened ∧ dev.sessionOpens = 1
  | .decrement => False
  | .testZero | .runClose | .setClosed => dev.state = .opened ∧ dev.sessionOpens = 1

-- any call while a handle is open
def SharedPlace : Pc → Prop
  | .idle | .testOpened | .decrement | .testZero => True
  | .increment handle _ => handle = true
  | _ => False

structure Counted (dev : Dev) : Prop where
  close : dev.closedEarly = false
  count : dev.useCnt = dev.handles
  room : dev.handles < 2 ^ 32

variable {dev : Dev} {pc : Pc}

theorem Counted.increment (h : Counted dev) (hroom : dev.handles + 1 < 2 ^ 32) : Counted
    { dev with useCnt := addU32 dev.useCnt 1, handles := dev.handles + 1 } := by
  refine ⟨h.close, ?_, hroom⟩
  rw [h.count]
  exact Nat.mod_eq_of_lt hroom

theorem Counted.decrement (h : Counted dev) (hpos : 0 < dev.handles) :
    subU32 dev.useCnt 1 = dev.handles - 1 := by
  have hroom := h.room
  rw [h.count, subU32]
  omega

theorem SoloFacts.advance (h : SoloFacts dev pc) (hcounted : Counted dev)
    (hzero : dev.handles = 0) (hpc : ∀ handle status, pc ≠ .increment handle status)
    (result : Bool) : SoloFacts (advance dev result pc).1 (advance dev result pc).2 ∧
      Counted (advance dev result pc).1 ∧ (advance dev result pc).1.handles = 0 := by
  cases pc with
  | idle => exact ⟨h, hcounted, hzero⟩
  | testOpened =>
    rw [DriverModel.advance, if_neg (by rw [h.1]; decide)]
    exact ⟨h, hcounted, hzero⟩
  | testClosed =>
    rw [DriverModel.advance, if_pos h.1]
    exact ⟨h, hcounted, hzero⟩
  | runOpen => exact ⟨⟨h.1, congrArg (· + 1) h.2⟩, { hcounted with }, hzero⟩
  | setOpened => exact ⟨⟨rfl, rfl, h.2⟩, ⟨hcounted.close, hzero.symm, hcounted.room⟩, hzero⟩
  | increment handle status => exact absurd rfl (hpc handle status)
  | decrement => exact h.elim
  | testZero =>
    rw [DriverModel.advance, if_pos (hcounted.count.trans hzero)]
    exact ⟨h, hcounted, hzero⟩
  | runClose =>
    refine ⟨h, ⟨?_, hcounted.count, hcounted.room⟩, hzero⟩
    change (dev.closedEarly || decide (0 < dev.handles)) = false
    rw [hcounted.close, hzero]
    rfl
  | setClosed => exact ⟨⟨rfl, rfl⟩, { hcounted with }, hzero⟩

end Phases

section Runs

variable {Task : Type} {s s' : Sys Task}

structure Solo (s : Sys Task) : Prop where
  handles : s.dev.handles = 0
  busy : ∀ t, s.pc t ≠ .idle → (∀ u, u ≠ t → s.pc u = .idle) ∧ SoloFacts s.dev (s.pc t)
  quiet : (∀ t, s.pc t = .idle) → SoloFacts s.dev .idle

structure Shared (s : Sys Task) : Prop where
  handles : 0 < s.dev.handles
  state : s.dev.state = .opened
  opens : s.dev.sessionOpens = 1
  places : ∀ t, SharedPlace (s.pc t)

structure Sound (s : Sys Task) : Prop where
  counted : Counted s.dev
  phase : Solo s ∨ Shared s

theorem Sound.lawful (h : Sound s) : Lawful s.dev := by
  suffices hopens : (0 < s.dev.handles → s.dev.sessionOpens = 1) ∧ s.dev.sessionOpens ≤ 1 from
    ⟨hopens.1, hopens.2, h.counted.close, h.counted.count⟩
  obtain hsolo | hshared := h.phase
  · refine ⟨fun hpos => absurd hsolo.handles (Nat.ne_of_gt hpos), ?_⟩
    by_cases hall : ∀ t, s.pc t = .idle
    · exact (hsolo.quiet hall).2 ▸ Nat.zero_le 1
    · obtain ⟨t, ht⟩ := not_forall.mp hall
      have hfacts := (hsolo.busy t ht).2
      generalize s.pc t = pc at hfacts
      cases pc <;> simp only [SoloFacts] at hfacts <;> omega
  · exact ⟨fun _ => hshared.opens, Nat.le_of_eq hshared.opens⟩

variable [DecidableEq Task]

theorem Solo.of_facts {t : Task} {pc : Pc} (hothers : ∀ u, u ≠ t → s.pc u = .idle)
    (hpcs : s'.pc = update s.pc t pc) (hzero : s'.dev.handles = 0) (hfacts : SoloFacts s'.dev pc) :
    Solo s' := by
  have hself : s'.pc t = pc := by rw [hpcs, update_self]
  have hrest : ∀ u, u ≠ t → s'.pc u = .idle := by
    intro u hu
    rw [hpcs, update_of_ne hu]
    exact hothers u hu
  refine ⟨hzero, fun u hu => ?_, fun hall => ?_⟩
  · obtain rfl : u = t := by
      by_contra hne
      exact hu (hrest u hne)
    exact ⟨hrest, hself ▸ hfacts⟩
  · rw [← hall t, hself]
    exact hfacts

theorem sharedPlace_update {t : Task} {pc : Pc} (h : ∀ u, u ≠ t → SharedPlace (s.pc u))
    (hpc : SharedPlace pc) (u : Task) : SharedPlace (update s.pc t pc u) := by
  by_cases hu : u = t
  · rw [hu, update_self]
    exact hpc
  · rw [update_of_ne hu]
    exact h u hu

theorem Sound.run_solo {t : Task} {result : Bool} (hcounted : Counted s.dev) (hsolo : Solo s)
    (hok : Apart s (.run t result)) (hs : step s (.run t result) = some s') : Sound s' := by
  rw [step] at hs
  split at hs
  · cases hs
  obtain rfl := Option.some.inj hs
  obtain ⟨hothers, hfacts⟩ := hsolo.busy t ‹_›
  rw [Apart] at hok
  generalize hpc : s.pc t = pc at hok hfacts
  by_cases hincrement : ∃ handle status, pc = .increment handle status
  · -- the first handle: the call is over, and the device is shared
    obtain ⟨handle, status, rfl⟩ := hincrement
    obtain ⟨rfl, hstate, hopens⟩ := hfacts
    have hplaces : ∀ u, u ≠ t → SharedPlace (s.pc u) := by
      intro u hu
      rw [hothers u hu]
      trivial
    exact ⟨hcounted.increment hok,
      .inr ⟨Nat.succ_pos _, hstate, hopens, sharedPlace_update hplaces trivial⟩⟩
  · have hother : ∀ handle status, pc ≠ .increment handle status :=
      fun handle status heq => hincrement ⟨handle, status, heq⟩
    obtain ⟨hfacts, hcounted, hzero⟩ := hfacts.advance hcounted hsolo.handles hother result
    exact ⟨hcounted, .inl (.of_facts hothers rfl hzero hfacts)⟩

theorem Sound.run_shared {t : Task} {result : Bool} (hcounted : Counted s.dev) (hshared : Shared s)
    (hok : Apart s (.run t result)) (hs : step s (.run t result) = some s') : Sound s' := by
  rw [step] at hs
  split at hs
  · cases hs
  rename_i hbusy
  obtain rfl := Option.some.inj hs
  obtain ⟨hpos, hstate, hopens, hplaces⟩ := hshared
  have hplace := hplaces t
  have hothers := fun u (_ : u ≠ t) => hplaces u
  rw [Apart] at hok
  generalize hpc : s.pc t = pc at hok hplace hbusy
  cases pc with
  | idle => exact absurd rfl hbusy
  | testOpened =>
    rw [advance, if_pos hstate]
    exact ⟨hcounted, .inr ⟨hpos, hstate, hopens, sharedPlace_update hothers rfl⟩⟩
  | increment handle =>
    obtain rfl : handle = true := hplace
    exact ⟨hcounted.increment hok,
      .inr ⟨Nat.succ_pos _, hstate, hopens, sharedPlace_update hothers trivial⟩⟩
  | decrement =>
    rw [advance, hcounted.decrement hpos]
    refine ⟨⟨hcounted.close, rfl, Nat.lt_of_le_of_lt (Nat.sub_le _ _) hcounted.room⟩, ?_⟩
    obtain hmore | ⟨hlast, hidle⟩ := hok
    · have hleft : 0 < s.dev.handles - 1 := Nat.sub_pos_of_lt hmore
      exact .inr ⟨hleft, hstate, hopens, sharedPlace_update hothers trivial⟩
    · have hleft : s.dev.handles - 1 = 0 := by rw [hlast]
      exact .inl (.of_facts hidle rfl hleft ⟨hstate, hopens⟩)
  | testZero =>
    rw [advance, if_neg (by rw [hcounted.count]; exact Nat.ne_of_gt hpos)]
    exact ⟨hcounted, .inr ⟨hpos, hstate, hopens, sharedPlace_update hothers trivial⟩⟩
  | testClosed | runOpen | setOpened | runClose | setClosed => exact hplace.elim

theorem Sound.step {e : Event Task} (h : Sound s) (hok : Apart s e)
    (hs : step s e = some s') : Sound s' := by
  obtain ⟨hcounted, hphase⟩ := h
  cases e with
  | openCall t =>
    obtain ⟨-, rfl⟩ := Option.ite_some_none_eq_some.mp hs
    refine ⟨hcounted, ?_⟩
    obtain hsolo | ⟨hpos, hstate, hopens, hplaces⟩ := hphase
    · have hquiet := hok.resolve_left (Nat.not_lt.mpr (Nat.le_of_eq hsolo.handles))
      exact .inl (.of_facts (fun u _ => hquiet u) rfl hsolo.handles (hsolo.quiet hquiet))
    · exact .inr ⟨hpos, hstate, hopens, sharedPlace_update (fun u _ => hplaces u) trivial⟩
  | closeCall t =>
    obtain ⟨-, rfl⟩ := Option.ite_some_none_eq_some.mp hs
    refine ⟨hcounted, ?_⟩
    obtain hsolo | ⟨hpos, hstate, hopens, hplaces⟩ := hphase
    · exact absurd hsolo.handles (Nat.ne_of_gt hok)
    · exact .inr ⟨hpos, hstate, hopens, sharedPlace_update (fun u _ => hplaces u) trivial⟩
  | run t result =>
    obtain hsolo | hshared := hphase
    · exact Sound.run_solo hcounted hsolo hok hs
    · exact Sound.run_shared hcounted hshared hok hs

omit [DecidableEq Task] in
theorem sound_registered : Sound (registered Task) :=
  ⟨⟨rfl, rfl, Nat.two_pow_pos 32⟩, .inl ⟨rfl, fun _ ht => absurd rfl ht, fun _ => ⟨rfl, rfl⟩⟩⟩

/-- In every run in which the first open and the last close have no other call beside them the open
operation runs once per session, the close operation only without open handles, and `use_cnt` is
the number of open handles. -/
theorem lawful_of_apart (h : Reached step Apart (registered Task) s) : Lawful s.dev := by
  have hsound : Sound s :=
    h.invariant Sound sound_registered fun _ _ _ hs hok hstep => hs.step hok hstep
  exact hsound.lawful

end Runs

-- the second handle is opened while the first one is closed
theorem lawful_of_apart_two : ∃ s, Reached step Apart (registered (Fin 2)) s ∧
      s.dev.handles = 1 ∧ Lawful s.dev :=
  exists_reached_and (fun _ => lawful_of_apart)
    [.openCall 0, .run 0 true, .run 0 true, .run 0 true, .run 0 true, .run 0 true,
      .openCall 1, .closeCall 0, .run 1 true, .run 1 true, .run 0 true, .run 0 true] (by decide)

theorem overlapping_opens :
    ∃ s, Reached step anyStep (registered (Fin 2)) s ∧ s.dev.sessionOpens = 2 ∧
      s.dev.handles = 1 ∧ s.dev.useCnt = 0 ∧ s.dev.closedEarly = true :=
  exists_reached _ _ _ _
    [.openCall 0, .openCall 1, .run 0 true, .run 1 true, .run 0 true, .run 1 true,
      .run 0 true, .run 1 true, .run 0 true, .run 0 true, .run 1 true, .run 1 true,
      .closeCall 0, .run 0 true, .run 0 true, .run 0 true] (by decide)

end BekenSoc.DriverModel
