import BekenSoc.RtosHisr

namespace BekenSoc.RtosHisr

open Function ByteFlags CRuntime FlagSignals GuardedRuns Option

variable {s s' : System} {id : Nat} {e : Event} {l : Ledger Nat} {calls : Nat → Nat}

/-- The system, with how often each event became pending and was taken, how often its handler
was called, and whether it was activated since the last call. -/
structure Observed where
  system : System
  ledger : Ledger Nat
  calls : Nat → Nat
  fresh : Nat → Bool

def Observed.after (r : Observed) (e : Event) (s' : System) : Observed :=
  match e, r.system.task, s'.task with
  | .activate cb, _, _ =>
    let id := (r.system.cbs cb).eventId
    if (rtosActivateHisr r.system cb).2 = .ok then
      { r with
        system := s'
        ledger := r.ledger.raise (pending r.system) fun k => decide (k = id)
        fresh := update r.fresh id true }
    else { r with system := s' }
  | .search, _, .taken id =>
    { r with system := s', ledger := r.ledger.take fun k => decide (k = id) }
  | .call, .taken id, _ =>
    { r with
      system := s'
      calls := update r.calls id (r.calls id + 1)
      fresh := update r.fresh id false }
  | _, _, _ => { r with system := s' }

def observe (r : Observed) (e : Event) : Option Observed := (step r.system e).map (r.after e)

def Observed.start : Observed := ⟨System.start, Ledger.empty, fun _ => 0, fun _ => false⟩

variable {r : Observed}

def external : Event → Bool
  | .create _ _ _ _ => true
  | .activate _ => true
  | _ => false

def Task.rank : Task → Nat
  | .notStarted => 1
  | .searching => 0
  | .missed => 2
  | .blocked => 1
  | .taken _ => 2
  | .handling _ => 1

def rank (s : System) : Nat := s.posting + 3 * count rtosHisrMax s.hisrEventGrp + s.task.rank

def Owed (id : Nat) (s : System) : Prop := pending s id = true ∨ s.task = .taken id

theorem rank_activated_le (s : System) (id : Nat) :
    rank { s with hisrEventGrp := set s.hisrEventGrp id, posting := s.posting + 1 } ≤
      rank s + 4 := by
  have hcount := count_set_le rtosHisrMax s.hisrEventGrp id
  unfold rank
  dsimp only
  omega

theorem rank_le (hgrp : s'.hisrEventGrp = s.hisrEventGrp)
    (h : s'.posting + s'.task.rank < s.posting + s.task.rank) : rank s' + 1 ≤ rank s + 0 := by
  unfold rank
  rw [hgrp]
  omega

theorem Owed.pending (h : Owed id s) (htask : s.task ≠ .taken id) : pending s id = true :=
  h.resolve_right htask

theorem Owed.moved {t : Task} (h : Owed id s) (htask : s.task = t) (hne : t ≠ .taken id)
    (hgrp : s'.hisrEventGrp = s.hisrEventGrp) (hposting : s'.posting = s.posting)
    (hrank : s'.task.rank < t.rank) : Owed id s' ∧ rank s' + 1 ≤ rank s + 0 := by
  constructor
  · have hpending := h.pending (htask ▸ hne)
    left
    unfold RtosHisr.pending at hpending ⊢
    rw [hgrp]
    exact hpending
  · apply rank_le hgrp
    rw [hposting, htask]
    exact Nat.add_lt_add_left hrank _

theorem owed_took {id' : Nat} (hpending : pending s id = true) :
    Owed id { s with hisrEventGrp := clear s.hisrEventGrp id', task := .taken id' } := by
  by_cases heq : id = id'
  · exact .inr (congrArg Task.taken heq.symm)
  · left
    change test (clear s.hisrEventGrp id') id = true
    rw [test_clear, decide_eq_false heq]
    exact (Bool.and_true _).trans hpending

theorem rank_took_le (htask : s.task = .searching) (hid : id < rtosHisrMax)
    (hpending : pending s id = true) :
    rank { s with hisrEventGrp := clear s.hisrEventGrp id, task := .taken id } + 1 ≤
      rank s + 0 := by
  have hcount := count_clear hid hpending
  unfold rank
  rw [htask]
  change s.posting + 3 * count rtosHisrMax (clear s.hisrEventGrp id) + 2 + 1 ≤
    s.posting + 3 * count rtosHisrMax s.hisrEventGrp + 0 + 0
  omega

theorem owed_step (hid : id < rtosHisrMax) (howed : Owed id s) (hstep : Steps s e s') :
    (e = .call ∧ s.task = .taken id) ∨
      Owed id s' ∧ rank s' + 1 ≤ rank s + if external e then 5 else 0 := by
  have hpost : s.posting ≠ 0 → s.posting - 1 + s.task.rank < s.posting + s.task.rank := by
    intro hposting
    omega
  have hdown : ∀ t : Task, t ≠ .taken id → s.task = t → pending s id = true := by
    intro t hne htask
    exact howed.pending (htask ▸ hne)
  cases hstep with
  | createFailed | created | activateFailed => exact .inr ⟨howed, Nat.le_add_right (rank s + 1) 4⟩
  | activated =>
    refine .inr ⟨howed.imp_left ?_, Nat.succ_le_succ (rank_activated_le s _)⟩
    intro hpending
    exact (test_set ..).trans (Bool.or_eq_true_iff.mpr (.inl hpending))
  | postRefused hposting | posted hposting => exact .inr ⟨howed, rank_le rfl (hpost hposting)⟩
  | woke hposting htask =>
    refine .inr ⟨.inl (hdown _ Task.noConfusion htask), rank_le rfl ?_⟩
    change s.posting - 1 + 0 < s.posting + s.task.rank
    omega
  | @took id' htask hid' hpending =>
    exact .inr ⟨owed_took (hdown _ Task.noConfusion htask), rank_took_le htask hid' hpending⟩
  | missed htask hnone =>
    have hpending := hdown _ Task.noConfusion htask
    rw [hnone id hid] at hpending
    cases hpending
  | @called id' htask =>
    by_cases heq : id' = id
    · exact .inl ⟨rfl, htask.trans (congrArg Task.taken heq)⟩
    · have hne : Task.taken id' ≠ .taken id := fun h => heq (Task.taken.inj h)
      exact .inr (howed.moved htask hne rfl rfl (Nat.lt_succ_self 1))
  | started htask => exact .inr (howed.moved htask Task.noConfusion rfl rfl Nat.zero_lt_one)
  | pendTook htask | pendFailed htask =>
    exact .inr (howed.moved htask Task.noConfusion rfl rfl Nat.zero_lt_two)
  | blocks htask => exact .inr (howed.moved htask Task.noConfusion rfl rfl (Nat.lt_succ_self 1))
  | finished htask => exact .inr (howed.moved htask Task.noConfusion rfl rfl Nat.zero_lt_one)

theorem exists_call (hid : id < rtosHisrMax) (hpending : pending s id = true) (es : List Event)
    (hrun : runGuarded step anyStep s es = some s')
    (hlong : rank s + 5 * es.countP external < es.length) :
    ∃ before after t, es = before ++ .call :: after ∧
      runGuarded step anyStep s before = some t ∧ t.task = .taken id := by
  obtain ⟨before, e, after, t, heq, hbefore, rfl, htask⟩ :=
    exists_goal_of_rank (Owed id) (fun t e => e = .call ∧ t.task = .taken id)
      (fun _ _ _ howed _ hstep => owed_step hid howed (step_cases hstep)) es hrun
      (.inl hpending) hlong
  exact ⟨before, after, t, heq, hbefore, htask⟩

def Task.phase : Task → Phase
  | .missed => .missed
  | .blocked => .blocked
  | _ => .running

variable {t : Task}

def signal (s : System) : Signal := ⟨s.hisrNotifySema == some true, s.posting, s.task.phase⟩

def AnyPending (s : System) : Prop := ∃ id < rtosHisrMax, pending s id = true

structure Listed (s : System) : Prop where
  created : s.task = .notStarted ∨ s.hisrNotifySema ≠ none
  slot : ∀ cb, (s.cbs cb).inited = true → s.hisrList (s.cbs cb).eventId = some cb
  pending : ∀ id, pending s id = true → s.hisrList id ≠ none
  taken : ∀ id, s.task = .taken id → s.hisrList id ≠ none

theorem update_ne_none {α : Type*} {f : Nat → Option α} {i j : Nat} {x : α} (h : f j ≠ none) :
    update f i (some x) j ≠ none := by
  by_cases heq : j = i
  · rw [heq, update_self]
    exact some_ne_none x
  · rw [update_of_ne heq]
    exact h

theorem slot_created (h : Listed s) {i : Nat} (hfree : s.hisrList i = none)
    (cb hisr param hisrId cb' : Nat)
    (hinited : (update s.cbs cb ⟨hisr, param, i, true, hisrId⟩ cb').inited = true) :
    update s.hisrList i (some cb)
      (update s.cbs cb ⟨hisr, param, i, true, hisrId⟩ cb').eventId = some cb' := by
  by_cases heq : cb' = cb
  · rw [heq, update_self]
    exact update_self ..
  · rw [update_of_ne heq] at hinited ⊢
    have hslot := h.slot cb' hinited
    rw [update_of_ne]
    · exact hslot
    · intro hsame
      rw [hsame, hfree] at hslot
      cases hslot

theorem Listed.step (h : Listed s) (hstep : Steps s e s') : Listed s' := by
  have hnone : ∀ t : Task, (∀ id, t ≠ .taken id) → ∀ id, t = .taken id → s.hisrList id ≠ none :=
    fun _ hne id htask => absurd htask (hne id)
  cases hstep with
  | createFailed => exact h
  | @created cb hisr param hisrId i _ hfree =>
    exact ⟨h.created, slot_created h hfree cb hisr param hisrId,
      fun id hpending => update_ne_none (h.pending id hpending),
      fun id htask => update_ne_none (h.taken id htask)⟩
  | activateFailed => exact h
  | @activated cb hinited =>
    refine { h with pending := ?_ }
    intro id hpending
    have hset := (test_set ..).symm.trans hpending
    rcases Bool.or_eq_true_iff.mp hset with hold | hnew
    · exact h.pending id hold
    · rw [of_decide_eq_true hnew, h.slot cb hinited]
      exact some_ne_none cb
  | postRefused => exact { h with }
  | woke _ htask =>
    refine ⟨.inr ?_, h.slot, h.pending, hnone _ fun _ => Task.noConfusion⟩
    exact h.created.resolve_left (htask ▸ Task.noConfusion)
  | posted => exact { h with created := .inr (some_ne_none _) }
  | started => exact ⟨.inr (some_ne_none _), h.slot, h.pending, hnone _ fun _ => Task.noConfusion⟩
  | @took id htask _ hpending =>
    refine ⟨.inr (h.created.resolve_left (htask ▸ Task.noConfusion)), h.slot, ?_, ?_⟩
    · intro k hk
      have hclear := (test_clear ..).symm.trans hk
      exact h.pending k (Bool.and_eq_true_iff.mp hclear).1
    · intro k hk
      cases hk
      exact h.pending id hpending
  | missed htask =>
    refine ⟨.inr ?_, h.slot, h.pending, hnone _ fun _ => Task.noConfusion⟩
    exact h.created.resolve_left (htask ▸ Task.noConfusion)
  | pendTook => exact ⟨.inr (some_ne_none _), h.slot, h.pending, hnone _ fun _ => Task.noConfusion⟩
  | pendFailed htask hsema => exact absurd hsema (h.created.resolve_left (htask ▸ Task.noConfusion))
  | blocks htask | called htask | finished htask =>
    refine ⟨.inr ?_, h.slot, h.pending, hnone _ fun _ => Task.noConfusion⟩
    exact h.created.resolve_left (htask ▸ Task.noConfusion)

theorem phase_ne_blocked (h : t ≠ .blocked) : t.phase ≠ .blocked := by
  cases t with
  | blocked => exact absurd rfl h
  | _ => exact Phase.noConfusion

theorem covers_step (hlisted : Listed s) (h : (signal s).Covers (AnyPending s))
    (hstep : Steps s e s') : (signal s').Covers (AnyPending s') := by
  cases hstep with
  | createFailed | created | activateFailed => exact h
  | activated => exact h.raise _
  | postRefused _ hsema =>
    have htask := hlisted.created.resolve_right (not_not_intro hsema)
    apply Signal.covers_of_running
    change s.task.phase = .running
    rw [htask]
    rfl
  | posted _ _ htask =>
    have hpost : (signal s).post =
        signal { s with posting := s.posting - 1, hisrNotifySema := some true } :=
      if_neg (phase_ne_blocked htask)
    rw [← hpost]
    exact Signal.covers_post _
  | missed _ hnone =>
    apply Signal.covers_miss (s := signal s)
    rintro ⟨id, hid, hpending⟩
    exact Bool.false_ne_true ((hnone id hid).symm.trans hpending)
  | blocks htask hsema =>
    have hphase : (signal s).phase = .missed := by
      rw [signal, htask]
      rfl
    have hpend : (signal s).pend = signal { s with task := .blocked } :=
      if_neg (by simp [signal, hsema])
    rw [← hpend]
    exact h.pend hphase
  | _ => exact Signal.covers_of_running rfl _

/-- The handler of each event that was taken was called, but for the one that is called next. -/
def CallsTaken (l : Ledger Nat) (calls : Nat → Nat) (t : Task) : Prop :=
  ∀ id, l.taken id = calls id + if t = .taken id then 1 else 0

theorem CallsTaken.keep {t' : Task} (h : CallsTaken l calls t) (ht : ∀ id, t ≠ .taken id)
    (ht' : ∀ id, t' ≠ .taken id) : CallsTaken l calls t' := by
  intro id
  have hid := h id
  rw [if_neg (ht id)] at hid
  rw [if_neg (ht' id)]
  exact hid

theorem CallsTaken.took (h : CallsTaken l calls t) (ht : ∀ id, t ≠ .taken id) (id : Nat) :
    CallsTaken (l.take fun k => decide (k = id)) calls (.taken id) := by
  intro k
  have hk := h k
  rw [if_neg (ht k)] at hk
  change l.taken k + (decide (k = id)).toNat = _
  by_cases heq : k = id
  · rw [hk, heq, if_pos rfl, decide_eq_true rfl]
    rfl
  · rw [hk, decide_eq_false heq, if_neg fun h => heq (Task.taken.inj h).symm]
    rfl

theorem CallsTaken.called (h : CallsTaken l calls (.taken id)) :
    CallsTaken l (update calls id (calls id + 1)) (.handling id) := by
  intro k
  have hk := h k
  rw [if_neg Task.noConfusion]
  by_cases heq : k = id
  · rw [heq, if_pos rfl] at hk
    rw [heq, update_self]
    exact hk
  · rw [if_neg fun h => heq (Task.taken.inj h).symm] at hk
    rw [update_of_ne heq]
    exact hk

structure HisrInv (r : Observed) : Prop where
  listed : Listed r.system
  covers : (signal r.system).Covers (AnyPending r.system)
  balanced : r.ledger.Balanced (pending r.system)
  calls : CallsTaken r.ledger r.calls r.system.task

theorem after_activated {cb : Nat} (s' : System) (hinited : (r.system.cbs cb).inited = true)
    (hid : (r.system.cbs cb).eventId < rtosHisrMax) : r.after (.activate cb) s' = { r with
      system := s'
      ledger := r.ledger.raise (pending r.system) fun k => decide (k = (r.system.cbs cb).eventId)
      fresh := update r.fresh (r.system.cbs cb).eventId true } := by
  have hok : (rtosActivateHisr r.system cb).2 = .ok := by
    rw [rtosActivateHisr, if_neg (by simp [hinited]), if_neg (Nat.not_le_of_lt hid)]
  exact if_pos hok

theorem after_activateFailed {cb : Nat} (s' : System)
    (h : (r.system.cbs cb).inited = false ∨ rtosHisrMax ≤ (r.system.cbs cb).eventId) :
    r.after (.activate cb) s' = { r with system := s' } := by
  have hfail : (rtosActivateHisr r.system cb).2 ≠ .ok := by
    unfold rtosActivateHisr
    dsimp only
    split
    · exact BkErr.noConfusion
    · rename_i hinited
      rw [if_pos (h.resolve_left hinited)]
      exact BkErr.noConfusion
  exact if_neg hfail

theorem HisrInv.step {r' : Observed} (h : HisrInv r) (hstep : observe r e = some r') :
    HisrInv r' := by
  obtain ⟨s', hs, rfl⟩ := map_eq_some_iff.mp hstep
  have hcases := step_cases hs
  have hlisted := h.listed.step hcases
  have hcovers := covers_step h.listed h.covers hcases
  have hmoved : ∀ {t t' : Task}, r.system.task = t → (∀ id, t ≠ .taken id) →
      (∀ id, t' ≠ .taken id) → CallsTaken r.ledger r.calls t' :=
    fun htask ht ht' => h.calls.keep (htask ▸ ht) ht'
  cases hcases with
  | createFailed | created => exact ⟨hlisted, hcovers, h.balanced, h.calls⟩
  | activateFailed hfails =>
    rw [after_activateFailed _ hfails]
    exact ⟨hlisted, hcovers, h.balanced, h.calls⟩
  | @activated cb hinited hid =>
    rw [after_activated _ hinited hid]
    refine ⟨hlisted, hcovers, ?_, h.calls⟩
    intro k
    have hraise := h.balanced.raise (fun k => decide (k = (r.system.cbs cb).eventId)) k
    dsimp only at hraise
    rw [pending, ← test_set] at hraise
    exact hraise
  | postRefused | posted => exact ⟨hlisted, hcovers, h.balanced, h.calls⟩
  | @took id htask _ hpending =>
    refine ⟨hlisted, hcovers, ?_, h.calls.took (htask ▸ fun _ => Task.noConfusion) id⟩
    intro k
    have hflags : ∀ k, decide (k = id) = true → pending r.system k = true :=
      fun k hk => of_decide_eq_true hk ▸ hpending
    have htake := h.balanced.take hflags k
    dsimp only at htake
    rw [pending, ← test_clear] at htake
    exact htake
  | @called id htask =>
    have hafter : r.after .call { r.system with task := .handling id } = { r with
        system := { r.system with task := .handling id }
        calls := update r.calls id (r.calls id + 1)
        fresh := update r.fresh id false } := by
      unfold Observed.after
      rw [htask]
    rw [hafter]
    have hcalls := h.calls
    rw [htask] at hcalls
    exact ⟨hlisted, hcovers, h.balanced, hcalls.called⟩
  | woke _ htask | started htask | missed htask | pendTook htask | pendFailed htask
  | blocks htask | finished htask =>
    exact ⟨hlisted, hcovers, h.balanced,
      hmoved htask (fun _ => Task.noConfusion) fun _ => Task.noConfusion⟩

theorem hisrInv_start : HisrInv Observed.start := by
  refine ⟨⟨.inl rfl, ?_, ?_, ?_⟩, Signal.covers_of_running rfl _, ?_, fun _ => rfl⟩
  · intro cb hinited
    cases hinited
  · intro id hpending
    exact absurd hpending (by simp [pending, test, Observed.start, System.start])
  · intro id htask
    cases htask
  · intro id
    simp [pending, test, Observed.start, System.start, Ledger.empty]

theorem exists_internal_step (hlisted : Listed s) (hcovers : (signal s).Covers (AnyPending s))
    (hpending : AnyPending s) : ∃ e s', external e = false ∧ step s e = some s' := by
  cases htask : s.task with
  | notStarted => exact ⟨.startTask, _, rfl, if_pos htask⟩
  | searching => exact ⟨.search, _, rfl, if_pos htask⟩
  | missed => exact ⟨.pend, _, rfl, if_pos htask⟩
  | blocked =>
    have hphase : (signal s).phase = .blocked := by
      rw [signal, htask]
      rfl
    exact ⟨.post, _, rfl, if_neg (Nat.ne_of_gt (hcovers.blocked hphase hpending))⟩
  | taken id =>
    refine ⟨.call, { s with task := .handling id }, rfl, ?_⟩
    rw [step, htask]
    exact if_neg (hlisted.taken id htask)
  | handling =>
    refine ⟨.finish, { s with task := .searching }, rfl, ?_⟩
    rw [step, htask]

structure Served (r : Observed) : Prop where
  /-- each time an event became pending it was taken once or is pending still -/
  once : ∀ id, r.ledger.raised id = r.ledger.taken id + (pending r.system id).toNat
  /-- the handler of an event that was taken was called once or is called next -/
  calls : ∀ id, r.ledger.taken id = r.calls id + if r.system.task = .taken id then 1 else 0
  /-- the handler is called through the control block that was activated -/
  slot : ∀ cb, (r.system.cbs cb).inited = true →
    r.system.hisrList (r.system.cbs cb).eventId = some cb
  lowest : ∀ s' id, step r.system .search = some s' → s'.task = .taken id →
    pending r.system id = true ∧ ∀ k < id, pending r.system k = false
  heard : r.system.task = .blocked → ∀ id < rtosHisrMax, pending r.system id = true →
    r.system.hisrNotifySema = some true ∨ 0 < r.system.posting
  ready : ∀ id < rtosHisrMax, pending r.system id = true →
    ∃ e s', external e = false ∧ step r.system e = some s'
  followed : ∀ id < rtosHisrMax, pending r.system id = true → ∀ es s',
    runGuarded step anyStep r.system es = some s' →
    rank r.system + 5 * es.countP external < es.length →
    ∃ before after t, es = before ++ .call :: after ∧
      runGuarded step anyStep r.system before = some t ∧ t.task = .taken id

theorem lowest_of_search (h : step s .search = some s') (htask : s'.task = .taken id) :
    pending s id = true ∧ ∀ k < id, pending s k = false := by
  cases step_cases h with
  | took _ _ hpending hlower =>
    cases htask
    exact ⟨hpending, hlower⟩
  | missed => cases htask

/-- Every activation is followed by a call of its handler, and no call is made without one. -/
theorem reached_served {r : Observed} (h : Reached observe anyStep Observed.start r) :
    Served r := by
  have hinv := h.invariant HisrInv hisrInv_start fun _ _ _ hinv _ hstep => hinv.step hstep
  constructor
  · exact hinv.balanced
  · exact hinv.calls
  · exact hinv.listed.slot
  · exact fun _ _ => lowest_of_search
  · intro htask id hid hpending
    have hphase : (signal r.system).phase = .blocked := by
      rw [signal, htask]
      rfl
    exact .inr (hinv.covers.blocked hphase ⟨id, hid, hpending⟩)
  · intro id hid hpending
    exact exists_internal_step hinv.listed hinv.covers ⟨id, hid, hpending⟩
  · intro id hid hpending es s'
    exact exists_call hid hpending es

theorem reached_served_activated : ∃ r, Reached observe anyStep Observed.start r ∧
      (r.system.task = .handling 0 ∧ r.calls 0 = 1 ∧ pending r.system 1 = true) ∧ Served r :=
  exists_reached_and (fun _ => reached_served)
    [.create 7 1 0 0, .create 8 2 0 0, .activate 7, .post, .startTask, .search, .call,
      .activate 8] (by decide)

theorem activated_before_call : (∃ r, Reached observe anyStep Observed.start r ∧
      r.system.task = .taken 0 ∧ r.calls 0 = 1 ∧ r.fresh 0 = false) ∧
    ∃ r, Reached observe anyStep Observed.start r ∧
      r.system.task = .taken 1 ∧ pending r.system 0 = true := by
  constructor
  · exact exists_reached _ _ _ _
      [.create 7 1 0 0, .startTask, .activate 7, .search, .activate 7, .call, .finish, .search]
      (by decide)
  · exact exists_reached _ _ _ _
      [.create 7 1 0 0, .create 8 2 0 0, .startTask, .activate 8, .search, .activate 7] (by decide)

end BekenSoc.RtosHisr
