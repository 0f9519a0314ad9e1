import BekenSoc.AonRtcExpiry
import BekenSoc.GuardedRuns

namespace BekenSoc.AonRtcRuns

open Function CRuntime LinkedChain GuardedRuns AonRtcDriver AonRtcAlarmList AonRtcExpiry

variable {s s' : AonRtc} {l : List NodePtr} {counter id : Nat} {ret : BkErr} {p : NodePtr}

inductive AlarmEvent
  | register (id : Nat) (info : Option AlarmInfo) (counter : Nat → Nat)
  | unregister (id : Nat) (name : List UInt8) (counter : Nat)
  | interrupt (tickStatus upperStatus : Bool) (counter : Nat → Nat)

def alarmStep (s : AonRtc) : AlarmEvent → Option AonRtc
  | .register id info counter => (bkAlarmRegister id info counter s).map Prod.fst
  | .unregister id name counter => (bkAlarmUnregister id name counter s).map Prod.fst
  | .interrupt tickStatus upperStatus counter =>
    aonRtcIsrHandler quietCallbacks tickStatus upperStatus counter s

def walk (s : AonRtc) : Nat → Option NodePtr → List NodePtr
  | _, none => []
  | 0, some _ => []
  | fuel + 1, some p => p :: walk s fuel (s.nodes p).next

def alarmQueue (s : AonRtc) : List Alarm := alarms s (walk s maxAlarmCnt s.alarmHead)

def overtakeFreeStep (s : AonRtc) : AlarmEvent → Bool
  | .interrupt true _ counter => overtakeFree (tickReading s counter) maxAlarmCnt 0 (alarmQueue s)
  | _ => true

theorem walk_eq {head : Option NodePtr} (fuel : Nat) (h : Chain (nextOf s) head l)
    (hfuel : l.length ≤ fuel) : walk s fuel head = l := by
  induction l generalizing head fuel with
  | nil =>
    subst h
    cases fuel <;> rfl
  | cons p l ih =>
    obtain ⟨rfl, htail⟩ := h
    cases fuel with
    | zero => simp at hfuel
    | succ fuel => exact congrArg (p :: ·) (ih fuel htail (by simpa using hfuel))

theorem wellFormed_init : WellFormed AonRtc.init [] where
  chain := rfl
  sorted := List.Pairwise.nil
  names := List.Pairwise.nil
  count := rfl
  busy := by simp [AonRtc.init]

theorem wellFormed_of_same_list (h : WellFormed s l) (hnodes : s'.nodes = s.nodes)
    (hbusy : s'.busyBits = s.busyBits) (hhead : s'.alarmHead = s.alarmHead)
    (hcount : s'.alarmNodeCnt = s.alarmNodeCnt) : WellFormed s' l :=
  h.congr (fun q _ => congrFun hnodes q) hbusy hhead hcount

theorem resetTick_eq (hrun : resetTick s counter = some s') : ∃ val, s' = aonRtcSetTick s val := by
  unfold resetTick at hrun
  split at hrun
  · split at hrun
    · cases hrun
      exact ⟨_, rfl⟩
    · cases hrun
  · cases hrun
    exact ⟨_, rfl⟩

theorem resetTick_wellFormed (h : WellFormed s l) (hrun : resetTick s counter = some s') :
    WellFormed s' l := by
  obtain ⟨val, rfl⟩ := resetTick_eq hrun
  exact wellFormed_of_same_list h rfl rfl rfl rfl

theorem interrupt_wellFormed {tickStatus upperStatus : Bool} {counter : Nat → Nat}
    (h : WellFormed s l)
    (hok : overtakeFreeStep s (.interrupt tickStatus upperStatus counter) = true)
    (hrun : aonRtcIsrHandler quietCallbacks tickStatus upperStatus counter s = some s') :
    ∃ l', WellFormed s' l' := by
  have hticked : ∀ s1, (if tickStatus then tickIsr quietCallbacks counter s
      else some s) = some s1 → ∃ l', WellFormed s1 l' := by
    intro s1 hs1
    cases tickStatus with
    | false =>
      cases hs1
      exact ⟨l, h⟩
    | true =>
      simp only [if_true, tickIsr] at hs1
      cases hloop : alarmUpdateExpeiredNodes quietCallbacks counter s with
      | none => simp [hloop] at hs1
      | some =>
        rw [hloop] at hs1
        have hfree : overtakeFree (tickReading s counter) maxAlarmCnt 0 (alarms s l) = true := by
          rw [← walk_eq maxAlarmCnt h.chain h.length_le]
          exact hok
        obtain ⟨l', hl', -⟩ := updateLoop_spec h hfree hloop
        exact ⟨l', resetTick_wellFormed hl' hs1⟩
  unfold aonRtcIsrHandler at hrun
  split at hrun
  · cases hrun
  · rename_i s1 hs1
    obtain ⟨l', hl'⟩ := hticked s1 hs1
    split at hrun
    · cases hrun
      exact ⟨l', wellFormed_of_same_list hl' rfl rfl rfl rfl⟩
    · cases hrun
      exact ⟨l', hl'⟩

theorem bkAlarmUnregister_cases {name : List UInt8}
    (hrun : bkAlarmUnregister id name counter s = some (s', ret)) :
    (aonRtcIdMax ≤ id ∧ s' = s) ∨ id < aonRtcIdMax ∧ ∃ s1 removed,
      alarmRemoveNode s name = some (s1, removed) ∧ ∃ val, s' = { s1 with tickVal := val } := by
  unfold bkAlarmUnregister at hrun
  split at hrun
  · rename_i hid
    cases hrun
    exact .inl ⟨hid, rfl⟩
  · rename_i hid
    split at hrun
    · cases hrun
    · rename_i s1 removed hremove
      refine .inr ⟨Nat.not_le.mp hid, s1, removed, hremove, ?_⟩
      split at hrun
      · split at hrun
        · cases hrun
        · rename_i hreset
          cases hrun
          obtain ⟨val, rfl⟩ := resetTick_eq hreset
          exact ⟨val % 2 ^ 32, rfl⟩
      · cases hrun
        exact ⟨s'.tickVal, rfl⟩

theorem unregister_spec {name : List UInt8} (h : WellFormed s l)
    (hrun : bkAlarmUnregister id name counter s = some (s', ret)) :
    (FreeCleared s → FreeCleared s') ∧ s'.highTick = s.highTick ∧
      ((WellFormed s' l ∧ Kept s s' l ∧ (id < aonRtcIdMax →
          ∀ q ∈ l, strncmpEq alarmNameMaxLen (s.nodes q).name name = false)) ∨
        ∃ pre q post, l = pre ++ q :: post ∧ id < aonRtcIdMax ∧
          strncmpEq alarmNameMaxLen (s.nodes q).name name = true ∧
          Kept s s' (pre ++ post) ∧ WellFormed s' (pre ++ post)) := by
  have hsame : Kept s s l := Kept.of_eq fun _ _ => rfl
  obtain ⟨hid, rfl⟩ | ⟨hid, t, removed, hremove, val, rfl⟩ := bkAlarmUnregister_cases hrun
  · exact ⟨fun hfree => hfree, rfl, .inl ⟨h, hsame, fun hlt => absurd hid (Nat.not_le.mpr hlt)⟩⟩
  · rcases alarmRemoveNode_spec h name with
      ⟨hnone, habsent⟩ | ⟨s1, pre, q, post, rfl, hsome, hname, hrem, hl1, hcleared⟩
    · cases hnone.symm.trans hremove
      refine ⟨fun hfree => hfree.congr rfl rfl, rfl, .inl ⟨?_, hsame, fun _ => habsent⟩⟩
      exact wellFormed_of_same_list h rfl rfl rfl rfl
    · cases hsome.symm.trans hremove
      have hperm : (pre ++ q :: post).Perm (q :: (pre ++ post)) := List.perm_middle
      have hnodup : (q :: (pre ++ post)).Nodup := hperm.nodup_iff.mp h.chain.nodup
      refine ⟨fun hfree => (hcleared hfree).congr rfl rfl, hrem.highTick,
        .inr ⟨pre, q, post, rfl, hid, hname, fun r hr => ?_, ?_⟩⟩
      · exact hrem.data r fun hrq => (List.nodup_cons.mp hnodup).1 (hrq ▸ hr)
      · exact wellFormed_of_same_list hl1 rfl rfl rfl rfl

theorem aonRtcRequestNode_spec {s1 : AonRtc} (h : aonRtcRequestNode s = some (p, s1)) :
    s.busyBits p = false ∧ s1 = { s with busyBits := update s.busyBits p true } := by
  unfold aonRtcRequestNode at h
  split at h
  · rename_i i hfind
    have hfree := List.find?_some hfind
    cases h
    exact ⟨by simpa using hfree, rfl⟩
  · cases h

def requested (s : AonRtc) (p : NodePtr) (node : AlarmNode) : AonRtc :=
  ({ s with busyBits := update s.busyBits p true } : AonRtc).modifyNode p
    fun _ => node

inductive Ended (s s3 : AonRtc) (p : NodePtr) (counter : Nat) : AonRtc → BkErr → Prop
  | refused : alarmInsertNode s p = some (s3, false) →
      Ended s s3 p counter (aonRtcReleaseNode s3 p) .fail
  | inFront (s4 : AonRtc) : alarmInsertNode s p = some (s3, true) → s3.alarmHead = some p →
      resetTick s3 counter = some s4 → Ended s s3 p counter { s4 with tickIntEn := true } .ok
  | behind : alarmInsertNode s p = some (s3, true) → s3.alarmHead ≠ some p →
      Ended s s3 p counter { s3 with tickIntEn := true } .ok

theorem bkAlarmRegister_cases {info : Option AlarmInfo} {counter : Nat → Nat}
    (hrun : bkAlarmRegister id info counter s = some (s', ret)) : (ret ≠ .ok ∧ s' = s) ∨
      ∃ i p s3, info = some i ∧ precisionTick ≤ i.periodTick ∧ s.busyBits p = false ∧
        Ended (requested s p (i.toNode (bkAonRtcGetCurrentTick s (counter 0)))) s3 p
          (counter 1) s' ret := by
  unfold bkAlarmRegister at hrun
  split at hrun
  · cases hrun
    exact .inl ⟨by simp, rfl⟩
  cases info with
  | none =>
    cases hrun
    exact .inl ⟨by simp, rfl⟩
  | some info =>
    simp only at hrun
    split at hrun
    · cases hrun
      exact .inl ⟨by simp, rfl⟩
    rename_i hperiod
    split at hrun
    · cases hrun
      exact .inl ⟨by simp, rfl⟩
    cases hreq : aonRtcRequestNode s with
    | none =>
      rw [hreq] at hrun
      cases hrun
      exact .inl ⟨by simp, rfl⟩
    | some request =>
      obtain ⟨p, s1⟩ := request
      obtain ⟨hfree, rfl⟩ := aonRtcRequestNode_spec hreq
      rw [hreq] at hrun
      simp only at hrun
      split at hrun
      · cases hrun
      right
      have hstart : bkAonRtcGetCurrentTick
          { s with busyBits := update s.busyBits p true } (counter 0) =
          bkAonRtcGetCurrentTick s (counter 0) := rfl
      rw [hstart] at hrun
      cases hins : alarmInsertNode
          (requested s p (info.toNode (bkAonRtcGetCurrentTick s (counter 0)))) p with
      | none =>
        unfold requested at hins
        rw [hins] at hrun
        cases hrun
      | some r =>
        obtain ⟨s3, inserted⟩ := r
        refine ⟨info, p, s3, rfl, Nat.not_lt.mp hperiod, hfree, ?_⟩
        have hcall := hins
        unfold requested at hcall
        rw [hcall] at hrun
        cases inserted with
        | false =>
          cases hrun
          exact .refused hins
        | true =>
          simp only at hrun
          split at hrun
          · cases hrun
          · rename_i s4 harmed
            cases hrun
            split at harmed
            · rename_i hhead
              exact .inFront s4 hins hhead harmed
            · rename_i hhead
              cases harmed
              exact .behind hins hhead

theorem detached_requested {node : AlarmNode} (h : WellFormed s l) (hfree : s.busyBits p = false)
    (hnode : node.next = none) : Detached (requested s p node) l p := by
  have hp : p ∉ l := by
    intro hmem
    rw [(h.busy p).mpr hmem] at hfree
    cases hfree
  have hother : ∀ q ∈ l, (requested s p node).nodes q = s.nodes q :=
    fun q hq => update_of_ne (fun hqp : q = p => hp (hqp ▸ hq)) _ _
  refine ⟨chain_congr hother h.chain, sorted_congr hother h.sorted, names_congr hother h.names,
    h.count, ?_, hp, ?_⟩
  · intro q
    by_cases hq : q = p
    · subst hq
      simp [requested, AonRtc.modifyNode]
    · simp [requested, AonRtc.modifyNode, hq, h.busy]
  · simp [nextOf, requested, AonRtc.modifyNode, hnode]

theorem Detached.release (h : Detached s l p) : WellFormed (aonRtcReleaseNode s p) l := by
  have hother : ∀ q ∈ l, (aonRtcReleaseNode s p).nodes q = s.nodes q :=
    fun q hq => update_of_ne (fun hqp : q = p => h.outside (hqp ▸ hq)) _ _
  refine ⟨chain_congr hother h.chain, sorted_congr hother h.sorted, names_congr hother h.names,
    h.count, ?_⟩
  intro q
  by_cases hq : q = p
  · subst hq
    simp [aonRtcReleaseNode, AonRtc.modifyNode, h.outside]
  · simp [aonRtcReleaseNode, AonRtc.modifyNode, h.busy, hq]

structure Registered (s s' : AonRtc) (l : List NodePtr) (info : AlarmInfo) (start : Nat)
    (p : NodePtr) : Prop where
  fresh : p ∉ l
  node : s'.nodes p = { info.toNode start with next := (s'.nodes p).next }
  kept : Kept s s' l
  highTick : s'.highTick = s.highTick
  free : FreeCleared s → FreeCleared s'
  wellFormed : WellFormed s' (insertByKey (expiryOf s') p l)

theorem Registered.congr {s'' : AonRtc} {info : AlarmInfo} {start : Nat}
    (h : Registered s s' l info start p) (hnodes : s''.nodes = s'.nodes)
    (hbusy : s''.busyBits = s'.busyBits) (hhead : s''.alarmHead = s'.alarmHead)
    (hcount : s''.alarmNodeCnt = s'.alarmNodeCnt) (hhigh : s''.highTick = s'.highTick) :
    Registered s s'' l info start p := by
  have hexpiry : expiryOf s'' = expiryOf s' := by
    funext q
    exact congrArg (fun nodes => (nodes q).expiredTick) hnodes
  refine ⟨h.fresh, ?_, ?_, hhigh.trans h.highTick,
    fun hfree => (h.free hfree).congr hnodes hbusy, ?_⟩
  · rw [hnodes]
    exact h.node
  · exact h.kept.trans (Kept.of_eq fun q _ => congrFun hnodes q)
  · rw [hexpiry]
    exact wellFormed_of_same_list h.wellFormed hnodes hbusy hhead hcount

theorem alarmInsertNode_requested {info : AlarmInfo} {start : Nat} {r : AonRtc}
    (hr : requested s p (info.toNode start) = r) (h : WellFormed s l)
    (hfree : s.busyBits p = false) : (alarmInsertNode r p = some (r, false) ∧
        WellFormed (aonRtcReleaseNode r p) l ∧ Kept s (aonRtcReleaseNode r p) l ∧
        (FreeCleared s → FreeCleared (aonRtcReleaseNode r p))) ∨
      ∃ s', alarmInsertNode r p = some (s', true) ∧ Registered s s' l info start p := by
  have hdet : Detached r l p := hr ▸ detached_requested h hfree rfl
  have hne : ∀ q ∈ l, q ≠ p := fun q hq hqp => hdet.outside (hqp ▸ hq)
  have hkept : Kept s r l := Kept.of_eq fun q hq => hr ▸ update_of_ne (hne q hq) _ _
  by_cases hname : ∃ q ∈ l, SameName r q p
  · left
    refine ⟨alarmInsertNode_of_registered hdet.chain hname, Detached.release hdet,
      hkept.trans (Kept.of_eq fun q hq => update_of_ne (hne q hq) _ _), ?_⟩
    intro hcleared
    refine hcleared.of_frame fun q hq => ?_
    by_cases hqp : q = p
    · subst hqp
      exact .inl (cleared_releaseNode _ q)
    · right
      simp only [← hr, aonRtcReleaseNode, requested, AonRtc.modifyNode, update_of_ne hqp] at hq ⊢
      exact ⟨hq, trivial⟩
  · right
    have hnew : ∀ q ∈ l, ¬ SameName r q p := fun q hq hsame => hname ⟨q, hq, hsame⟩
    obtain ⟨s', hins, hinserted, hframe⟩ := alarmInsertNode_of_new hdet hnew
    have hwf := hdet.wellFormed_of_inserted hnew hinserted
    rw [← hinserted.relinked.expiryOf_eq] at hwf
    have hnode : r.nodes p = info.toNode start := hr ▸ update_self _ _ _
    refine ⟨s', hins, hdet.outside, ?_, ?_, hinserted.relinked.highTick.trans (hr ▸ rfl),
      ?_, hwf⟩
    · have hdata := hinserted.relinked.data p
      rw [hnode] at hdata
      exact hdata
    · exact hkept.trans fun q _ => hinserted.relinked.data q
    · intro hcleared
      refine hcleared.of_frame fun q hq => .inr ?_
      rw [hinserted.relinked.busy] at hq
      have hqp : q ≠ p := by
        rintro rfl
        rw [(hdet.busy q).mpr (.inl rfl)] at hq
        cases hq
      have hql : q ∉ p :: l := by
        intro hmem
        rw [(hdet.busy q).mpr (List.mem_cons.mp hmem)] at hq
        cases hq
      rw [hinserted.relinked.nodes_eq (hframe q hql)]
      simp only [← hr, requested, AonRtc.modifyNode, update_of_ne hqp] at hq ⊢
      exact ⟨hq, trivial⟩

theorem register_spec {info : Option AlarmInfo} {counter : Nat → Nat} (h : WellFormed s l)
    (hrun : bkAlarmRegister id info counter s = some (s', ret)) :
    (ret ≠ .ok ∧ WellFormed s' l ∧ Kept s s' l ∧ s'.highTick = s.highTick ∧
        (FreeCleared s → FreeCleared s')) ∨
      ∃ i p, ret = .ok ∧ info = some i ∧ precisionTick ≤ i.periodTick ∧
        Registered s s' l i (bkAonRtcGetCurrentTick s (counter 0)) p := by
  rcases bkAlarmRegister_cases hrun with ⟨hret, rfl⟩ | ⟨i, p, s3, rfl, hperiod, hfree, hended⟩
  · exact .inl ⟨hret, h, Kept.of_eq fun _ _ => rfl, rfl, fun hfree => hfree⟩
  · generalize hr : requested s p _ = r at hended
    rcases alarmInsertNode_requested hr h hfree with
      ⟨hmet, hwf, hkept, hcleared⟩ | ⟨t, hplaced, hreg⟩
    · left
      cases hended with
      | refused hins =>
        rw [hmet] at hins
        cases hins
        exact ⟨by simp, hwf, hkept, hr ▸ rfl, hcleared⟩
      | inFront s4 hins | behind hins => simp [hmet] at hins
    · right
      refine ⟨i, p, ?_⟩
      cases hended with
      | refused hins => simp [hplaced] at hins
      | inFront s4 hins hhead harmed =>
        rw [hplaced] at hins
        cases hins
        obtain ⟨val, rfl⟩ := resetTick_eq harmed
        exact ⟨rfl, rfl, hperiod, hreg.congr rfl rfl rfl rfl rfl⟩
      | behind hins =>
        rw [hplaced] at hins
        cases hins
        exact ⟨rfl, rfl, hperiod, hreg.congr rfl rfl rfl rfl rfl⟩

theorem alarmStep_wellFormed (e : AlarmEvent) (h : WellFormed s l)
    (hok : overtakeFreeStep s e = true) (hstep : alarmStep s e = some s') :
    ∃ l', WellFormed s' l' := by
  cases e with
  | register =>
    simp only [alarmStep, Option.map_eq_some_iff] at hstep
    obtain ⟨⟨t, ret⟩, hrun, rfl⟩ := hstep
    rcases register_spec h hrun with ⟨-, hwf, -⟩ | ⟨i, p, -, -, -, hreg⟩
    · exact ⟨l, hwf⟩
    · exact ⟨_, hreg.wellFormed⟩
  | unregister =>
    simp only [alarmStep, Option.map_eq_some_iff] at hstep
    obtain ⟨⟨t, ret⟩, hrun, rfl⟩ := hstep
    obtain ⟨-, -, ⟨hwf, -⟩ | ⟨pre, q, post, -, -, -, -, hwf⟩⟩ := unregister_spec h hrun
    · exact ⟨l, hwf⟩
    · exact ⟨pre ++ post, hwf⟩
  | interrupt => exact interrupt_wellFormed h hok hstep

/-- No alarm is lost in a run without overtaking. -/
theorem reached_wellFormed {s : AonRtc}
    (h : Reached alarmStep (fun s e => overtakeFreeStep s e = true) AonRtc.init s) :
    ∃ l, WellFormed s l := by
  refine h.invariant (fun s => ∃ l, WellFormed s l) ⟨[], wellFormed_init⟩ ?_
  intro s e s' hs hok hstep
  obtain ⟨l, hl⟩ := hs
  exact alarmStep_wellFormed e hl hok hstep

def registration (letter : UInt8) (period count now : Nat) : AlarmEvent :=
  .register 0 (some ⟨[letter], period, count, none, 0⟩) fun _ => now

def firstNode : NodePtr := ⟨0, by decide⟩

-- An alarm every 100 ticks is armed again behind one at 160 when its interrupt is on time.
theorem reached_wellFormed_periodic :
    ∃ s, Reached alarmStep (fun s e => overtakeFreeStep s e = true) AonRtc.init s ∧
      (s.alarmHead = some (node 1) ∧ nextOf s (node 1) = some firstNode) ∧ ∃ l, WellFormed s l :=
  exists_reached_and (fun _ => reached_wellFormed)
    [registration 97 100 alarmLoopForever 0, registration 98 150 1 10,
      .interrupt true false fun _ => 90]
    (by decide)

-- The alarm every 100 ticks comes before the one at 210 when it is armed again,
-- and the loop then moves the head past both.
theorem late_interrupt_loses_alarm :
    ¬ ∀ s, Reached alarmStep anyStep AonRtc.init s → ∃ l, WellFormed s l := by
  intro hall
  obtain ⟨s, hreached, hhead, hbusy⟩ := exists_reached alarmStep anyStep AonRtc.init
    (fun s => s.alarmHead = none ∧ s.busyBits firstNode = true)
    [registration 97 100 alarmLoopForever 0, registration 98 200 1 10,
      .interrupt true false fun _ => 500]
    (by decide)
  obtain ⟨l, hl⟩ := hall s hreached
  have hnil : l = [] := chain_none_iff.mp (hhead ▸ hl.chain)
  have hmem := (hl.busy firstNode).mp hbusy
  rw [hnil] at hmem
  cases hmem

end BekenSoc.AonRtcRuns
