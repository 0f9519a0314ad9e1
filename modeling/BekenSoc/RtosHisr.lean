import BekenSoc.ByteFlags
import BekenSoc.CRuntime
import BekenSoc.FlagSignals
import BekenSoc.GuardedRuns

/-!
The high-level interrupt routines of `rtos_ext.c`: tasks and interrupts that activate them, and
the task that calls their handlers.

The search of `get_hisr_event_id` and the setting of a bit are sections with disabled interrupts
and single steps.  The task takes an event in one step and calls its handler in the next one.
`hisr_notify_sema` is `NULL` until the task creates it; a post is refused before.
-/

namespace BekenSoc.RtosHisr

open Function ByteFlags CRuntime FlagSignals

def rtosHisrMax : Nat := 32

def grpSize : Nat := (rtosHisrMax + 7) / 8

structure HisrCb where
  hisr : Nat
  hisrParam : Nat
  eventId : Nat
  inited : Bool
  hisrId : Nat

inductive Task
  | notStarted
  /-- at the top of the loop of `get_hisr_event_id` -/
  | searching
  | missed
  | blocked
  /-- the event was taken, its handler is not called yet -/
  | taken (id : Nat)
  | handling (id : Nat)
  deriving DecidableEq

structure System where
  /-- the control blocks by their addresses -/
  cbs : Nat → HisrCb
  hisrList : Nat → Option Nat
  hisrEventGrp : Nat → BitVec 8
  /-- the count of `hisr_notify_sema`, if it was created -/
  hisrNotifySema : Option Bool
  /-- the calls of `rtos_activate_hisr` between their section and `rtos_set_semaphore` -/
  posting : Nat
  task : Task

def slotStops (s : System) (hisr param : Nat) (i : Nat) : Bool :=
  match s.hisrList i with
  | none => true
  | some cb => decide ((s.cbs cb).hisr = hisr ∧ (s.cbs cb).hisrParam = param)

def rtosCreateHisr (s : System) (cb hisr param hisrId : Nat) : System × BkErr :=
  let i := loopIndex rtosHisrMax (slotStops s hisr param)
  if i < rtosHisrMax ∧ s.hisrList i = none then
    ({ s with
      cbs := update s.cbs cb ⟨hisr, param, i, true, hisrId⟩
      hisrList := update s.hisrList i (some cb) }, .ok)
  else (s, .fail)

def rtosActivateHisr (s : System) (cb : Nat) : System × BkErr :=
  let id := (s.cbs cb).eventId
  if (s.cbs cb).inited = false then (s, .fail)
  else if id ≥ rtosHisrMax then (s, .fail)
  else
    ({ s with
      hisrEventGrp := update s.hisrEventGrp (id >>> 3)
        (s.hisrEventGrp (id >>> 3) ||| 1#8 <<< (id &&& 7))
      posting := s.posting + 1 }, .ok)

def rtosSetSemaphore (s : System) : System :=
  match s.hisrNotifySema, s.task with
  | none, _ => s
  | some _, .blocked => { s with task := .searching }
  | some _, _ => { s with hisrNotifySema := some true }

def searchEvent (grp : Nat → BitVec 8) : (Nat → BitVec 8) × Nat :=
  let i := loopIndex grpSize fun i => grp i != 0
  if i < grpSize then
    let j := loopIndex 8 fun j => grp i &&& (1#8 <<< j) != 0
    (update grp i (grp i &&& ~~~(1#8 <<< j)), (i <<< 3) + j)
  else (grp, 0xFF)

def search (s : System) : System :=
  let r := searchEvent s.hisrEventGrp
  { s with hisrEventGrp := r.1, task := if r.2 < rtosHisrMax then .taken r.2 else .missed }

def rtosGetSemaphore (s : System) : System :=
  match s.hisrNotifySema with
  | some false => { s with task := .blocked }
  | some true => { s with hisrNotifySema := some false, task := .searching }
  | none => { s with task := .searching }

inductive Event
  | create (cb hisr param hisrId : Nat)
  | activate (cb : Nat)
  | post
  | startTask
  | search
  | pend
  | call
  | finish

def step (s : System) : Event → Option System
  | .create cb hisr param hisrId => some (rtosCreateHisr s cb hisr param hisrId).1
  | .activate cb => some (rtosActivateHisr s cb).1
  | .post =>
    if s.posting = 0 then none else some (rtosSetSemaphore { s with posting := s.posting - 1 })
  | .startTask =>
    if s.task = .notStarted then
      some { s with hisrNotifySema := some false, task := .searching }
    else none
  | .search => if s.task = .searching then some (search s) else none
  | .pend => if s.task = .missed then some (rtosGetSemaphore s) else none
  | .call =>
    match s.task with
    | .taken id => if s.hisrList id = none then none else some { s with task := .handling id }
    | _ => none
  | .finish =>
    match s.task with
    | .handling _ => some { s with task := .searching }
    | _ => none

def pending (s : System) (id : Nat) : Bool := test s.hisrEventGrp id

inductive Steps (s : System) : Event → System → Prop
  | createFailed {cb hisr param hisrId : Nat} : Steps s (.create cb hisr param hisrId) s
  | created {cb hisr param hisrId i : Nat} : i < rtosHisrMax → s.hisrList i = none →
      Steps s (.create cb hisr param hisrId) { s with
        cbs := update s.cbs cb ⟨hisr, param, i, true, hisrId⟩
        hisrList := update s.hisrList i (some cb) }
  | activateFailed {cb : Nat} : (s.cbs cb).inited = false ∨ rtosHisrMax ≤ (s.cbs cb).eventId →
      Steps s (.activate cb) s
  | activated {cb : Nat} : (s.cbs cb).inited = true → (s.cbs cb).eventId < rtosHisrMax →
      Steps s (.activate cb) { s with
        hisrEventGrp := set s.hisrEventGrp (s.cbs cb).eventId
        posting := s.posting + 1 }
  | postRefused : s.posting ≠ 0 → s.hisrNotifySema = none →
      Steps s .post { s with posting := s.posting - 1 }
  | woke : s.posting ≠ 0 → s.task = .blocked →
      Steps s .post { s with posting := s.posting - 1, task := .searching }
  | posted : s.posting ≠ 0 → s.hisrNotifySema ≠ none → s.task ≠ .blocked →
      Steps s .post { s with posting := s.posting - 1, hisrNotifySema := some true }
  | started : s.task = .notStarted →
      Steps s .startTask { s with hisrNotifySema := some false, task := .searching }
  | took {id : Nat} : s.task = .searching → id < rtosHisrMax → pending s id = true →
      (∀ k < id, pending s k = false) →
      Steps s .search { s with hisrEventGrp := clear s.hisrEventGrp id, task := .taken id }
  | missed : s.task = .searching → (∀ id < rtosHisrMax, pending s id = false) →
      Steps s .search { s with task := .missed }
  | pendTook : s.task = .missed → s.hisrNotifySema = some true →
      Steps s .pend { s with hisrNotifySema := some false, task := .searching }
  | pendFailed : s.task = .missed → s.hisrNotifySema = none →
      Steps s .pend { s with task := .searching }
  | blocks : s.task = .missed → s.hisrNotifySema = some false →
      Steps s .pend { s with task := .blocked }
  | called {id : Nat} : s.task = .taken id → s.hisrList id ≠ none →
      Steps s .call { s with task := .handling id }
  | finished {id : Nat} : s.task = .handling id → Steps s .finish { s with task := .searching }

theorem set_eq (grp : Nat → BitVec 8) (id : Nat) :
    update grp (id >>> 3) (grp (id >>> 3) ||| 1#8 <<< (id &&& 7)) = set grp id := by
  have hbyte : id >>> 3 = id / 8 := Nat.shiftRight_eq_div_pow id 3
  have hbit : id &&& 7 = id % 8 := Nat.and_two_pow_sub_one_eq_mod id 3
  rw [hbyte, hbit]
  rfl

theorem and_shiftLeft_ne_zero (b : BitVec 8) {j : Nat} (hj : j < 8) :
    (b &&& (1#8 <<< j) != 0) = b.getLsbD j := by
  cases hbit : b.getLsbD j with
  | true =>
    rw [bne_iff_ne]
    intro hzero
    have hget := congrArg (fun x => x.getLsbD j) hzero
    simp [BitVec.getLsbD_and, getLsbD_one_shiftLeft hj, hbit] at hget
  | false =>
    have hzero : b &&& (1#8 <<< j) = 0#8 := by
      rw [eq_zero_iff]
      intro k hk
      rw [BitVec.getLsbD_and, getLsbD_one_shiftLeft hj]
      by_cases heq : j = k
      · rw [← heq, hbit, Bool.false_and]
      · rw [decide_eq_false heq, Bool.and_false]
    rw [hzero]
    rfl

theorem loopIndex_bit_lt {b : BitVec 8} (hb : b ≠ 0) :
    loopIndex 8 (fun j => b &&& (1#8 <<< j) != 0) < 8 := by
  by_contra hnone
  apply hb
  rw [show (0 : BitVec 8) = 0#8 from rfl, eq_zero_iff]
  intro j hj
  rw [← and_shiftLeft_ne_zero b hj]
  exact of_loopIndex_ge (Nat.le_of_not_lt hnone) hj

theorem searchEvent_found {grp : Nat → BitVec 8}
    (h : loopIndex grpSize (fun i => grp i != 0) < grpSize) :
    ∃ id < rtosHisrMax, searchEvent grp = (clear grp id, id) ∧ test grp id = true ∧
      ∀ k < id, test grp k = false := by
  obtain ⟨hgrp, hbefore⟩ := loopIndex_spec h
  have hsize : loopIndex grpSize (fun i => grp i != 0) < 4 := h
  generalize hi : loopIndex grpSize (fun i => grp i != 0) = i at *
  have hbit := loopIndex_bit_lt (b := grp i) (by simpa using hgrp)
  obtain ⟨hset, hlower⟩ := loopIndex_spec hbit
  generalize hj : loopIndex 8 (fun j => grp i &&& (1#8 <<< j) != 0) = j at *
  have hid : (i <<< 3) + j = i * 8 + j := by rw [Nat.shiftLeft_eq]
  have hdiv : (i * 8 + j) / 8 = i := by omega
  have hmod : (i * 8 + j) % 8 = j := by omega
  refine ⟨i * 8 + j, ?_, ?_, ?_, ?_⟩
  · unfold rtosHisrMax
    omega
  · unfold searchEvent
    simp only [hi, hj, if_pos h, hid]
    rw [clear, hdiv, hmod]
  · rw [test, hdiv, hmod, ← and_shiftLeft_ne_zero _ hbit]
    exact hset
  · intro k hk
    by_cases hsame : k / 8 = i
    · have hlt : k % 8 < j := by omega
      rw [test, hsame, ← and_shiftLeft_ne_zero _ (Nat.mod_lt _ (by decide))]
      exact hlower _ hlt
    · have hzero := hbefore (k / 8) (by omega)
      have hbyte : grp (k / 8) = 0#8 := by simpa using hzero
      rw [test, hbyte, BitVec.getLsbD_zero]

theorem searchEvent_none {grp : Nat → BitVec 8}
    (h : ¬ loopIndex grpSize (fun i => grp i != 0) < grpSize) :
    searchEvent grp = (grp, 0xFF) ∧ ∀ id < rtosHisrMax, test grp id = false := by
  constructor
  · unfold searchEvent
    simp only [if_neg h]
  · intro id hid
    have hlt : id / 8 < grpSize := by
      unfold grpSize
      unfold rtosHisrMax at *
      omega
    have hzero := of_loopIndex_ge (Nat.le_of_not_lt h) hlt
    have hbyte : grp (id / 8) = 0#8 := by simpa using hzero
    rw [test, hbyte, BitVec.getLsbD_zero]

theorem search_cases {s : System} (htask : s.task = .searching) : Steps s .search (search s) := by
  by_cases h : loopIndex grpSize (fun i => s.hisrEventGrp i != 0) < grpSize
  · obtain ⟨id, hid, hsearch, htest, hlower⟩ := searchEvent_found h
    rw [search, hsearch]
    dsimp only
    rw [if_pos hid]
    exact .took htask hid htest hlower
  · obtain ⟨hsearch, hnone⟩ := searchEvent_none h
    rw [search, hsearch]
    exact .missed htask hnone

theorem create_cases (s : System) (cb hisr param hisrId : Nat) :
    Steps s (.create cb hisr param hisrId) (rtosCreateHisr s cb hisr param hisrId).1 := by
  unfold rtosCreateHisr
  dsimp only
  split
  · rename_i hfree
    exact .created hfree.1 hfree.2
  · exact .createFailed

theorem activate_cases (s : System) (cb : Nat) :
    Steps s (.activate cb) (rtosActivateHisr s cb).1 := by
  unfold rtosActivateHisr
  dsimp only
  split
  · exact .activateFailed (.inl ‹_›)
  · split
    · exact .activateFailed (.inr ‹_›)
    · rename_i hinited hid
      rw [set_eq]
      exact .activated (eq_true_of_ne_false hinited) (Nat.lt_of_not_le hid)

theorem post_cases {s : System} (hposting : s.posting ≠ 0) :
    Steps s .post (rtosSetSemaphore { s with posting := s.posting - 1 }) := by
  unfold rtosSetSemaphore
  dsimp only
  split
  · exact .postRefused hposting ‹_›
  · exact .woke hposting ‹_›
  · rename_i hsema hblocked
    refine .posted hposting ?_ hblocked
    rw [hsema]
    exact Option.some_ne_none _

theorem pend_cases {s : System} (htask : s.task = .missed) :
    Steps s .pend (rtosGetSemaphore s) := by
  unfold rtosGetSemaphore
  split
  · exact .blocks htask ‹_›
  · exact .pendTook htask ‹_›
  · exact .pendFailed htask ‹_›

theorem step_cases {s s' : System} {e : Event} (h : step s e = some s') : Steps s e s' := by
  cases e with
  | create cb hisr param hisrId =>
    cases h
    exact create_cases s cb hisr param hisrId
  | activate cb =>
    cases h
    exact activate_cases s cb
  | post =>
    rw [step] at h
    split at h
    · cases h
    · cases h
      exact post_cases ‹_›
  | startTask =>
    rw [step] at h
    split at h
    · cases h
      exact .started ‹_›
    · cases h
  | search =>
    rw [step] at h
    split at h
    · cases h
      exact search_cases ‹_›
    · cases h
  | pend =>
    rw [step] at h
    split at h
    · cases h
      exact pend_cases ‹_›
    · cases h
  | call =>
    cases htask : s.task with
    | taken =>
      rw [step, htask] at h
      dsimp only at h
      split at h
      · cases h
      · cases h
        exact .called htask ‹_›
    | _ =>
      rw [step, htask] at h
      cases h
  | finish =>
    cases htask : s.task with
    | handling =>
      rw [step, htask] at h
      cases h
      exact .finished htask
    | _ =>
      rw [step, htask] at h
      cases h

def System.start : System :=
  ⟨fun _ => ⟨0, 0, 0, false, 0⟩, fun _ => none, fun _ => 0, none, 0, .notStarted⟩

end BekenSoc.RtosHisr
