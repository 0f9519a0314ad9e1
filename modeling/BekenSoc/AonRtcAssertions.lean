import BekenSoc.AonRtcRuns

namespace BekenSoc.AonRtcAssertions

open CRuntime LinkedChain GuardedRuns AonRtcDriver AonRtcAlarmList AonRtcExpiry AonRtcRuns List Bool

variable {s t : AonRtc} {counter fuel n : Nat} {l : List NodePtr}

def HeadInFuture (s : AonRtc) (counter : Nat) : Prop :=
  ∀ head, s.alarmHead = some head →
    addU64 (bkAonRtcGetCurrentTick s counter) 1 < (s.nodes head).expiredTick

theorem resetTick_eq_none_iff (s : AonRtc) (counter : Nat) :
    resetTick s counter = none ↔ ¬ HeadInFuture s counter := by
  unfold resetTick HeadInFuture
  cases s.alarmHead with
  | none | some => simp

def registerAsserted (id : Nat) (info : Option AlarmInfo) (counter : Nat → Nat)
    (s : AonRtc) : Option (AonRtc × Nat) :=
  if aonRtcIdMax ≤ id then none else
  match info with
  | none => none
  | some info =>
    if info.periodTick < precisionTick then none
    else if maxAlarmCnt ≤ s.alarmNodeCnt then none
    else
      match aonRtcRequestNode s with
      | none => none
      | some (nodeP, s1) =>
        if info.periodCnt = 0 then none
        else
          let start := bkAonRtcGetCurrentTick s1 (counter 0)
          match alarmInsertNode (s1.modifyNode nodeP fun _ => info.toNode start) nodeP with
          | none => none
          | some (_, false) => none
          | some (s3, true) => if s3.alarmHead = some nodeP then some (s3, counter 1) else none

def unregisterAsserted (id : Nat) (name : List UInt8) (counter : Nat) (s : AonRtc) :
    Option (AonRtc × Nat) :=
  if aonRtcIdMax ≤ id then none else
  match alarmRemoveNode s name with
  | none => none
  | some (s1, removed) => if s.alarmHead = removed then some (s1, counter) else none

def headAsserted (s : AonRtc) : AlarmEvent → Option (AonRtc × Nat)
  | .register id info counter => registerAsserted id info counter s
  | .unregister id name counter => unregisterAsserted id name counter s
  | .interrupt false _ _ => none
  | .interrupt true _ counter =>
    (alarmUpdateExpeiredNodes quietCallbacks counter s).map
      fun s1 => (s1, counter maxAlarmCnt)

def inTurn (tick : Nat → Nat) (last : Nat) : Nat → Nat → List Alarm → Bool
  | 0, _, _ => true
  | _ + 1, _, [] => true
  | fuel + 1, n, a :: rest =>
    (decide (last + 1 < a.expiredTick) || a.due (tick n)) && inTurn tick last fuel (n + 1) rest

def repeatsAhead (last : Nat) (a : Alarm) : Bool :=
  decide (last + precisionTick + a.periodTick < 2 ^ 64) &&
    (decide (a.periodCnt = 1) || !a.due last ||
      decide (last + 1 < a.expiredTick + a.periodTick))

def interruptInTime (tick : Nat → Nat) (queue : List Alarm) : Bool :=
  ((range maxAlarmCnt).all fun n => decide (tick n ≤ tick (n + 1))) &&
    inTurn tick (tick maxAlarmCnt) maxAlarmCnt 0 queue &&
    queue.all (repeatsAhead (tick maxAlarmCnt))

def secondInFuture (s : AonRtc) (name : List UInt8) (tick : Nat) : List NodePtr → Bool
  | first :: second :: _ =>
    !strncmpEq alarmNameMaxLen (s.nodes first).name name ||
      decide (addU64 tick 1 < (s.nodes second).expiredTick)
  | _ => true

/-- A registration takes less than its period, a removal does not uncover an alarm that
is due already, and the tick interrupt ends before an alarm that it arms again is due. -/
def inTime (s : AonRtc) : AlarmEvent → Bool
  | .register _ none _ => true
  | .register _ (some info) counter =>
    decide (addU64 (tickReading s counter 1) 1 < addU64 (tickReading s counter 0) info.periodTick)
  | .unregister _ name counter =>
    secondInFuture s name (bkAonRtcGetCurrentTick s counter) (walk s maxAlarmCnt s.alarmHead)
  | .interrupt false _ _ => true
  | .interrupt true _ counter =>
    overtakeFree (tickReading s counter) maxAlarmCnt 0 (alarmQueue s) &&
      interruptInTime (tickReading s counter) (alarmQueue s)

theorem due_mono {a : Alarm} {tick tick' : Nat} (hle : tick ≤ tick')
    (hwrap : tick' + precisionTick < 2 ^ 64) (hdue : a.due tick = true) : a.due tick' = true := by
  rw [Alarm.due_iff, addU64] at hdue ⊢
  unfold precisionTick at *
  omega

section Interrupt

variable {tick : Nat → Nat} (hmono : ∀ n, n < maxAlarmCnt → tick n ≤ tick (n + 1))
include hmono

theorem tick_le_last (hn : n ≤ maxAlarmCnt) : tick n ≤ tick maxAlarmCnt := by
  induction hn using Nat.decreasingInduction with
  | self => exact Nat.le_refl _
  | of_succ k hk ih => exact Nat.le_trans (hmono k hk) ih

variable (hwrap : tick maxAlarmCnt + precisionTick < 2 ^ 64)
include hwrap

theorem inTurn_later {l : List Alarm} (hn : n + fuel < maxAlarmCnt)
    (h : inTurn tick (tick maxAlarmCnt) (fuel + 1) n l = true) :
    inTurn tick (tick maxAlarmCnt) fuel (n + 1) l = true := by
  induction fuel generalizing n l with
  | zero => rfl
  | succ fuel ih =>
    cases l with
    | nil => rfl
    | cons =>
      rw [inTurn, and_eq_true, or_eq_true] at h ⊢
      obtain ⟨hturn, hrest⟩ := h
      refine ⟨hturn.imp_right fun hdue => ?_, ih (by omega) hrest⟩
      have hlast : tick (n + 1) ≤ tick maxAlarmCnt := tick_le_last hmono (by omega)
      exact due_mono (hmono n (by omega)) (by omega) hdue

theorem inTurn_insertByKey {x : Alarm} {l : List Alarm} (hn : n + fuel ≤ maxAlarmCnt)
    (hx : tick maxAlarmCnt + 1 < x.expiredTick) (h : inTurn tick (tick maxAlarmCnt) fuel n l = true)
    : inTurn tick (tick maxAlarmCnt) fuel n (insertByKey Alarm.expiredTick x l) = true := by
  induction l generalizing fuel n with
  | nil =>
    cases fuel with
    | zero => rfl
    | succ fuel => cases fuel <;> simp [inTurn, hx]
  | cons b l ih =>
    cases fuel with
    | zero => rfl
    | succ =>
      by_cases hlt : x.expiredTick < b.expiredTick
      · rw [insertByKey_cons_of_lt _ hlt, inTurn, and_eq_true]
        exact ⟨by simp [hx], inTurn_later hmono hwrap (by omega) h⟩
      · rw [insertByKey_cons_of_le _ (Nat.not_lt.mp hlt), inTurn, and_eq_true]
        rw [inTurn, and_eq_true] at h
        exact ⟨h.1, ih (by omega) h.2⟩

omit hmono hwrap in
theorem rearmed_ahead {last : Nat} {a : Alarm} (hahead : repeatsAhead last a = true)
    (hdue : a.due last = true) (hagain : a.periodCnt ≠ 1) :
    last + 1 < a.rearmed.expiredTick ∧ repeatsAhead last a.rearmed = true := by
  simp only [repeatsAhead, hdue, hagain, and_eq_true, decide_eq_true_eq,
    decide_false, Bool.not_true, Bool.false_or] at hahead
  obtain ⟨hover, hnext⟩ := hahead
  have hexpiry : a.rearmed.expiredTick = a.expiredTick + a.periodTick := by
    rw [Alarm.due_iff, addU64] at hdue
    unfold precisionTick at hdue hover
    simp only [Alarm.rearmed, addU64]
    omega
  have hperiod : a.rearmed.periodTick = a.periodTick := rfl
  refine ⟨by omega, ?_⟩
  simp only [repeatsAhead, and_eq_true, or_eq_true, decide_eq_true_eq, hperiod]
  exact ⟨hover, .inr (by omega)⟩

theorem expiryPass_head {l l' : List Alarm} (hn : n + fuel ≤ maxAlarmCnt)
    (hturn : inTurn tick (tick maxAlarmCnt) fuel n l = true)
    (hahead : ∀ a ∈ l, repeatsAhead (tick maxAlarmCnt) a = true)
    (hpass : expiryPass tick fuel n l = some l') :
    ∀ a ∈ l'.head?, tick maxAlarmCnt + 1 < a.expiredTick := by
  induction fuel generalizing n l with
  | zero =>
    cases l with
    | nil =>
      cases hpass
      simp
    | cons => cases hpass
  | succ fuel ih =>
    cases l with
    | nil =>
      cases hpass
      simp
    | cons a rest =>
      rw [inTurn, and_eq_true, or_eq_true, decide_eq_true_eq] at hturn
      obtain ⟨hfirst, hrest⟩ := hturn
      unfold expiryPass at hpass
      by_cases hdue : a.due (tick n) = true
      · rw [if_pos hdue] at hpass
        have hdueLast : a.due (tick maxAlarmCnt) = true :=
          due_mono (tick_le_last hmono (by omega)) hwrap hdue
        by_cases honce : a.periodCnt = 1
        · rw [if_pos honce] at hpass
          exact ih (by omega) hrest (fun b hb => hahead b (by simp [hb])) hpass
        · obtain ⟨hlater, hagain⟩ := rearmed_ahead (hahead a (by simp)) hdueLast honce
          rw [if_neg honce] at hpass
          cases rest with
          | nil =>
            cases hpass
            simpa using hlater
          | cons =>
            simp only at hpass
            split at hpass
            · split at hpass
              · cases hpass
              · split at hpass <;> cases hpass <;> simpa using hlater
            · refine ih (by omega) ?_ ?_ hpass
              · exact inTurn_insertByKey hmono hwrap (by omega) hlater hrest
              · intro c hc
                rcases (mem_insertByKey _).mp hc with rfl | hc
                · exact hagain
                · exact hahead c (by simp [hc])
      · rw [if_neg hdue] at hpass
        cases hpass
        simpa using hfirst.resolve_right hdue

end Interrupt

theorem HeadInFuture.of_head (h : WellFormed s l)
    (hhead : ∀ a ∈ (alarms s l).head?, addU64 (bkAonRtcGetCurrentTick s counter) 1 < a.expiredTick)
    : HeadInFuture s counter := by
  intro head heq
  have hl : l.head? = some head := h.chain.head_eq.symm.trans heq
  exact hhead (alarmOf s head) (by simp [alarms, hl])

theorem headInFuture_interrupt {counter : Nat → Nat} (h : WellFormed s l)
    (hfree : overtakeFree (tickReading s counter) maxAlarmCnt 0 (alarms s l) = true)
    (htime : interruptInTime (tickReading s counter) (alarms s l) = true)
    (hrun : alarmUpdateExpeiredNodes quietCallbacks counter s = some t) :
    HeadInFuture t (counter maxAlarmCnt) := by
  obtain ⟨l', hwf, hhigh, hpass⟩ := updateLoop_spec h hfree hrun
  simp only [interruptInTime, and_eq_true, all_eq_true, mem_range, decide_eq_true_eq] at htime
  obtain ⟨⟨hmono, hturn⟩, hahead⟩ := htime
  refine HeadInFuture.of_head hwf fun a ha => ?_
  have hlast : bkAonRtcGetCurrentTick t (counter maxAlarmCnt) = tickReading s counter maxAlarmCnt :=
    congrFun (tickReading_congr counter hhigh) maxAlarmCnt
  rw [hlast]
  by_cases hempty : alarms s l = []
  · rw [hempty, maxAlarmCnt, expiryPass] at hpass
    rw [← Option.some.inj hpass] at ha
    cases ha
  · obtain ⟨b, hb⟩ := exists_mem_of_ne_nil _ hempty
    have hwrap : tickReading s counter maxAlarmCnt + precisionTick < 2 ^ 64 := by
      have hb' := hahead b hb
      simp only [repeatsAhead, and_eq_true, decide_eq_true_eq] at hb'
      omega
    have hlt := expiryPass_head hmono hwrap (Nat.le_of_eq (Nat.zero_add _)) hturn hahead hpass a ha
    exact Nat.lt_of_le_of_lt (Nat.mod_le _ _) hlt

theorem headInFuture_register {id : Nat} {info : Option AlarmInfo} {counter : Nat → Nat}
    {reading : Nat} (h : WellFormed s l) (htime : inTime s (.register id info counter) = true)
    (hat : registerAsserted id info counter s = some (t, reading)) : HeadInFuture t reading := by
  unfold registerAsserted at hat
  split at hat
  · cases hat
  cases info with
  | none => cases hat
  | some info =>
    simp only at hat
    split at hat
    · cases hat
    split at hat
    · cases hat
    cases hreq : aonRtcRequestNode s with
    | none => simp [hreq] at hat
    | some request =>
      obtain ⟨p, s1⟩ := request
      obtain ⟨hfree, rfl⟩ := aonRtcRequestNode_spec hreq
      rw [hreq] at hat
      simp only at hat
      split at hat
      · cases hat
      generalize hr : AonRtc.modifyNode _ p _ = r at hat
      rcases alarmInsertNode_requested hr h hfree with ⟨hins, -⟩ | ⟨s3, hins, hreg⟩
      · rw [hins] at hat
        cases hat
      · rw [hins] at hat
        simp only at hat
        split at hat
        · rename_i hnew
          cases hat
          intro head hhead
          cases hnew.symm.trans hhead
          rw [hreg.node, bkAonRtcGetCurrentTick, hreg.highTick]
          exact of_decide_eq_true htime
        · cases hat

theorem headInFuture_unregister {id : Nat} {name : List UInt8} {reading : Nat} (h : WellFormed s l)
    (htime : inTime s (.unregister id name counter) = true)
    (hat : unregisterAsserted id name counter s = some (t, reading)) : HeadInFuture t reading := by
  have hwalk : walk s maxAlarmCnt s.alarmHead = l := walk_eq _ h.chain h.length_le
  simp only [inTime, hwalk] at htime
  unfold unregisterAsserted at hat
  split at hat
  · cases hat
  rcases alarmRemoveNode_spec h name with
    ⟨hnone, -⟩ | ⟨s1, pre, q, post, rfl, hsome, hname, hrem, hwf, -⟩
  · rw [hnone] at hat
    simp only at hat
    split at hat
    · rename_i hempty
      cases hat
      intro head hhead
      rw [hempty] at hhead
      cases hhead
    · cases hat
  · rw [hsome] at hat
    simp only at hat
    split at hat
    · rename_i hfirst
      cases hat
      cases pre with
      | cons first =>
        -- the removed node would stand in the list twice
        have hq : first = q := Option.some.inj (h.chain.1.symm.trans hfirst)
        have hnodup := (nodup_cons.mp h.chain.nodup).1
        exact absurd (by simp [hq]) hnodup
      | nil =>
        refine HeadInFuture.of_head hwf fun a ha => ?_
        cases post with
        | nil => cases ha
        | cons second =>
          cases ha
          have hne : second ≠ q := by
            rintro rfl
            exact (nodup_cons.mp h.chain.nodup).1 (by simp)
          simp only [nil_append, secondInFuture, hname, Bool.not_true,
            Bool.false_or, decide_eq_true_eq] at htime
          rw [bkAonRtcGetCurrentTick, hrem.highTick]
          exact htime.trans_eq (hrem.expiryOf_eq hne).symm
    · cases hat

theorem inTime_overtakeFree {e : AlarmEvent} (h : inTime s e = true) :
    overtakeFreeStep s e = true := by
  cases e with
  | register | unregister => rfl
  | interrupt tickStatus =>
    cases tickStatus with
    | false => rfl
    | true =>
      simp only [inTime, and_eq_true] at h
      exact h.1

/-- In a run whose calls and interrupts are in time, every assertion on the first alarm
holds. -/
theorem reached_headInFuture {s t : AonRtc} {e : AlarmEvent} {counter : Nat}
    (h : Reached alarmStep (fun s e => inTime s e = true) AonRtc.init s)
    (htime : inTime s e = true) (hat : headAsserted s e = some (t, counter)) :
    HeadInFuture t counter := by
  obtain ⟨l, hl⟩ : ∃ l, WellFormed s l := by
    refine h.invariant (fun s => ∃ l, WellFormed s l) ⟨[], wellFormed_init⟩ ?_
    rintro s e s' ⟨l, hl⟩ hok hstep
    exact alarmStep_wellFormed e hl (inTime_overtakeFree hok) hstep
  cases e with
  | register => exact headInFuture_register hl htime hat
  | unregister => exact headInFuture_unregister hl htime hat
  | interrupt tickStatus =>
    cases tickStatus with
    | false => cases hat
    | true =>
      simp only [headAsserted, Option.map_eq_some_iff] at hat
      obtain ⟨s1, hloop, hpair⟩ := hat
      cases hpair
      simp only [inTime, alarmQueue, walk_eq _ hl.chain hl.length_le, and_eq_true] at htime
      exact headInFuture_interrupt hl htime.1 htime.2 hloop

-- Of two alarms the first one is armed again behind the second at 90, or is removed at 20.
theorem reached_headInFuture_periodic : ∃ s t u,
    headAsserted s (.interrupt true false fun _ => 90) = some (t, 90) ∧
      t.alarmHead = some (node 1) ∧ HeadInFuture t 90 ∧
    headAsserted s (.unregister 0 [97] 20) = some (u, 20) ∧
      u.alarmHead = some (node 1) ∧ HeadInFuture u 20 := by
  obtain ⟨s, hreached, ⟨htime, ⟨t, -⟩, hat, hhead, rfl⟩, htime', ⟨u, -⟩, hat', hhead', rfl⟩ :=
    exists_reached alarmStep (fun s e => inTime s e = true) AonRtc.init
      (fun s => (inTime s (.interrupt true false fun _ => 90) = true ∧
          ∃ r ∈ headAsserted s (.interrupt true false fun _ => 90),
            r.1.alarmHead = some (node 1) ∧ r.2 = 90) ∧
        inTime s (.unregister 0 [97] 20) = true ∧
          ∃ r ∈ headAsserted s (.unregister 0 [97] 20), r.1.alarmHead = some (node 1) ∧ r.2 = 20)
      [registration 97 100 alarmLoopForever 0, registration 98 150 1 10] (by decide)
  exact ⟨s, t, u, hat, hhead, reached_headInFuture hreached htime hat, hat', hhead',
    reached_headInFuture hreached htime' hat'⟩

-- Handled at 300, the alarm every 100 ticks is next due at 200.
theorem late_interrupt_head_in_past : ¬ ∀ s e t counter, Reached alarmStep anyStep AonRtc.init s →
      headAsserted s e = some (t, counter) → HeadInFuture t counter := by
  intro hall
  obtain ⟨s, hreached, ⟨t, counter⟩, hat, hfails⟩ := exists_reached alarmStep anyStep AonRtc.init
    (fun s => ∃ r ∈ headAsserted s (.interrupt true false fun _ => 300), resetTick r.1 r.2 = none)
    [registration 97 100 alarmLoopForever 0]
    (by decide)
  exact (resetTick_eq_none_iff t counter).mp hfails (hall _ _ _ _ hreached hat)

end BekenSoc.AonRtcAssertions
