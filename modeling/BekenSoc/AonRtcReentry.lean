import BekenSoc.AonRtcRuns

namespace BekenSoc.AonRtcReentry

open CRuntime LinkedChain GuardedRuns AonRtcDriver AonRtcAlarmList AonRtcExpiry AonRtcRuns List Bool

variable {s s' : AonRtc} {counter : Nat → Nat} {l : List NodePtr} {ret : BkErr} {cur : NodePtr}

structure Pending where
  name : List UInt8
  periodTick : Nat
  periodCnt : Nat
  callback : Option Nat
  cbParam : Nat

def pendingOf (n : AlarmNode) : Pending :=
  ⟨n.name, n.periodTick, n.periodCnt, n.callback, n.cbParam⟩

def Pending.hasName (a : Pending) (name : List UInt8) : Bool :=
  strncmpEq alarmNameMaxLen a.name name

def Pending.expire (a : Pending) : Option Pending :=
  if a.periodCnt = 1 then none
  else if a.periodCnt = alarmLoopForever then some a
  else some { a with periodCnt := subU32 a.periodCnt 1 }

variable {expected : List Pending}

def registerPending (info : Option AlarmInfo) (ret : BkErr) (expected : List Pending) :
    List Pending :=
  match info, ret with
  | some info, .ok => pendingOf (info.toNode 0) :: expected
  | _, _ => expected

def unregisterPending (id : Nat) (name : List UInt8) (expected : List Pending) : List Pending :=
  if id < aonRtcIdMax then expected.filter fun a => !a.hasName name else expected

def expirePending (name : List UInt8) (expected : List Pending) : List Pending :=
  expected.filterMap fun a => if a.hasName name then a.expire else some a

inductive Phase
  | idle
  | turn (n : Nat) (cur : NodePtr)
  | callback (n : Nat) (cur : NodePtr) (next : Option NodePtr)
      (caller : Option (List UInt8))
  | leaving
  deriving DecidableEq

structure IsrState where
  rtc : AonRtc
  phase : Phase
  expected : List Pending

def IsrState.init : IsrState := ⟨AonRtc.init, .idle, []⟩

variable {r : IsrState}

inductive IsrEvent
  | register (id : Nat) (info : Option AlarmInfo) (counter : Nat → Nat)
  | unregister (id : Nat) (name : List UInt8) (counter : Nat)
  | enter
  | look (counter : Nat)
  | finish
  | leave (counter : Nat)
  | upper

def loopAt (n : Nat) : Option NodePtr → Phase
  | none => .leaving
  | some cur => .turn n cur

def mayCall : Phase → Bool
  | .idle => true
  | .callback _ _ _ caller => caller.isSome
  | _ => false

def ownName (name : List UInt8) : Phase → Bool
  | .callback _ _ _ (some caller) => strncmpEq alarmNameMaxLen caller name
  | _ => false

def isrLook (counter : Nat) (r : IsrState) : Phase → Option IsrState
  | .turn n cur =>
    -- BK_ASSERT(node_cnt <= AON_RTC_MAX_ALARM_CNT)
    if maxAlarmCnt ≤ n then none
    else if (r.rtc.nodes cur).expiredTick ≤
        addU64 (bkAonRtcGetCurrentTick r.rtc counter) precisionTick then
      some { r with
        phase := .callback n cur (r.rtc.nodes cur).next
          ((r.rtc.nodes cur).callback.map fun _ => (r.rtc.nodes cur).name) }
    else some { r with phase := .leaving }
  | _ => none

def isrFinish (r : IsrState) : Phase → Option IsrState
  | .callback n cur next _ =>
    match expireNode r.rtc cur next with
    | none => none
    | some (rtc, again) =>
      some ⟨rtc, if again then loopAt (n + 1) next else .leaving,
        if r.rtc.busyBits cur then expirePending (r.rtc.nodes cur).name r.expected
        else r.expected⟩
  | _ => none

def isrStep (r : IsrState) : IsrEvent → Option IsrState
  | .register id info counter =>
    if mayCall r.phase then
      (bkAlarmRegister id info counter r.rtc).map fun result =>
        ⟨result.1, r.phase, registerPending info result.2 r.expected⟩
    else none
  | .unregister id name counter =>
    if mayCall r.phase && !ownName name r.phase then
      (bkAlarmUnregister id name counter r.rtc).map fun result =>
        ⟨result.1, r.phase, unregisterPending id name r.expected⟩
    else none
  | .enter =>
    match r.phase with
    | .idle => some { r with phase := loopAt 0 r.rtc.alarmHead }
    | _ => none
  | .look counter => isrLook counter r r.phase
  | .finish => isrFinish r r.phase
  | .leave counter =>
    match r.phase with
    | .leaving => (resetTick r.rtc counter).map fun rtc => ⟨rtc, .idle, r.expected⟩
    | _ => none
  | .upper =>
    match r.phase with
    | .idle => some { r with rtc := { r.rtc with highTick := addU64 r.rtc.highTick 1 } }
    | _ => none

def inPlace (rtc : AonRtc) : Phase → Bool
  | .callback _ cur next _ =>
    !rtc.busyBits cur ||
      if (rtc.nodes cur).periodCnt = 1 ∨ next ≠ none then
        decide (rtc.alarmHead = some cur)
      else
        decide ((rtc.nodes cur).expiredTick ≤ (alarmOf rtc cur).rearmed.expiredTick) &&
          (rtc.nodes cur).next.all fun q =>
            decide ((alarmOf rtc cur).rearmed.expiredTick ≤ (rtc.nodes q).expiredTick)
  | _ => true

def inPlaceStep (r : IsrState) : IsrEvent → Bool
  | .finish => inPlace r.rtc r.phase
  | _ => true

def pendings (s : AonRtc) (l : List NodePtr) : List Pending := l.map fun p => pendingOf (s.nodes p)

theorem pendings_of_kept (h : Kept s s' l) : pendings s' l = pendings s l := by
  refine map_congr_left fun q hq => ?_
  rw [h q hq]
  rfl

structure Tracked (r : IsrState) (l : List NodePtr) : Prop where
  wellFormed : WellFormed r.rtc l
  free : FreeCleared r.rtc
  pending : (pendings r.rtc l).Perm r.expected
  held : ∀ n cur next caller, r.phase = .callback n cur next caller →
    (cur ∈ l ∧ ∀ name ∈ caller, name = (r.rtc.nodes cur).name) ∨
      (cur ∉ l ∧ next = none ∧ caller = none)

theorem registerPending_of_ne {info : Option AlarmInfo} (h : ret ≠ .ok) :
    registerPending info ret expected = expected := by
  unfold registerPending
  split
  · exact absurd rfl h
  · rfl

theorem Tracked.called {l' : List NodePtr} {expected' : List Pending} (h : Tracked r l)
    (hmay : mayCall r.phase = true) (hwf : WellFormed s' l') (hfree : FreeCleared s')
    (hpending : (pendings s' l').Perm expected')
    (hheld : ∀ n cur next caller, r.phase = .callback n cur next (some caller) → cur ∈ l →
      cur ∈ l' ∧ (s'.nodes cur).name = (r.rtc.nodes cur).name)
    : Tracked ⟨s', r.phase, expected'⟩ l' := by
  refine ⟨hwf, hfree, hpending, fun n cur next caller hphase => ?_⟩
  rw [show r.phase = .callback n cur next caller from hphase] at hmay
  cases caller with
  | none => cases hmay
  | some name =>
    rcases h.held n cur next (some name) hphase with ⟨hmem, hname⟩ | ⟨-, -, hnone⟩
    · obtain ⟨hmem', hsame⟩ := hheld n cur next name hphase hmem
      refine .inl ⟨hmem', fun name' hname' => ?_⟩
      rw [hsame]
      exact hname name' hname'
    · cases hnone

theorem Tracked.register {id : Nat} {info : Option AlarmInfo} (h : Tracked r l)
    (hmay : mayCall r.phase = true) (hrun : bkAlarmRegister id info counter r.rtc = some (s', ret))
    : ∃ l', Tracked ⟨s', r.phase, registerPending info ret r.expected⟩ l' := by
  rcases register_spec h.wellFormed hrun with
    ⟨hret, hwf, hkept, -, hfree⟩ | ⟨i, p, rfl, rfl, -, hreg⟩
  · rw [registerPending_of_ne hret]
    refine ⟨l, h.called hmay hwf (hfree h.free) ?_ fun n cur next caller _ hmem => ?_⟩
    · rw [pendings_of_kept hkept]
      exact h.pending
    · exact ⟨hmem, hkept.name_eq hmem⟩
  · refine ⟨_, h.called hmay hreg.wellFormed (hreg.free h.free) ?_
      fun n cur next caller _ hmem => ?_⟩
    · have hnew : pendingOf (s'.nodes p) = pendingOf (i.toNode 0) := by
        rw [hreg.node]
        rfl
      refine ((insertByKey_perm _ p l).map _).trans ?_
      rw [map_cons, hnew]
      refine List.Perm.cons _ ?_
      have hold := h.pending
      rw [← pendings_of_kept hreg.kept] at hold
      exact hold
    · exact ⟨by simp [hmem], hreg.kept.name_eq hmem⟩

theorem Tracked.unregister {id : Nat} {name : List UInt8} {counter : Nat} (h : Tracked r l)
    (hmay : mayCall r.phase = true) (hown : ownName name r.phase = false)
    (hrun : bkAlarmUnregister id name counter r.rtc = some (s', ret)) :
    ∃ l', Tracked ⟨s', r.phase, unregisterPending id name r.expected⟩ l' := by
  obtain ⟨hfree, -, ⟨hwf, hkept, habsent⟩ | ⟨pre, q, post, rfl, hid, hname, hkept, hwf⟩⟩ :=
    unregister_spec h.wellFormed hrun
  · refine ⟨l, h.called hmay hwf (hfree h.free) ?_ fun n cur next caller _ hmem => ?_⟩
    · rw [pendings_of_kept hkept]
      unfold unregisterPending
      split
      · rename_i hid
        have hall : r.expected.filter (fun a => !a.hasName name) = r.expected := by
          refine filter_eq_self.mpr fun a ha => ?_
          obtain ⟨q, hq, rfl⟩ := mem_map.mp (h.pending.mem_iff.mpr ha)
          simpa [Pending.hasName, pendingOf] using habsent hid q hq
        rw [hall]
        exact h.pending
      · exact h.pending
    · exact ⟨hmem, hkept.name_eq hmem⟩
  · have hperm : (pre ++ q :: post).Perm (q :: (pre ++ post)) := perm_middle
    refine ⟨pre ++ post, h.called hmay hwf (hfree h.free) ?_
      fun n cur next caller hphase hmem => ?_⟩
    · rw [pendings_of_kept hkept, unregisterPending, if_pos hid]
      have hfilter := ((hperm.map fun p => pendingOf (r.rtc.nodes p)).symm.trans
        h.pending).filter fun a => !a.hasName name
      rw [map_cons, filter_cons_of_neg (by simp [Pending.hasName, pendingOf, hname]),
        filter_eq_self.mpr] at hfilter
      · exact hfilter
      · intro a ha
        obtain ⟨p, hp, rfl⟩ := mem_map.mp ha
        have hdiff := h.wellFormed.names_of_perm hperm p hp
        simp only [Pending.hasName, pendingOf, not_eq_true', eq_false_iff]
        intro hsame
        rw [strncmpEq_comm] at hsame
        exact hdiff (strncmpEq_trans hname hsame)
    · have hcur : cur ∈ pre ++ post := by
        rcases mem_cons.mp (hperm.mem_iff.mp hmem) with rfl | hcur
        · -- the held alarm does not carry the name that is removed
          rcases h.held n cur next (some caller) hphase with ⟨-, hcaller⟩ | ⟨-, -, hnone⟩
          · rw [hphase, ownName, hcaller caller rfl, hname] at hown
            cases hown
          · cases hnone
        · exact hcur
      exact ⟨hcur, hkept.name_eq hcur⟩

theorem expirePending_pendings {others : List NodePtr} (hnames : ∀ q ∈ others, ¬ SameName s cur q) :
    expirePending (s.nodes cur).name (pendings s (cur :: others)) =
      (pendingOf (s.nodes cur)).expire.toList ++ pendings s others := by
  have hself : (pendingOf (s.nodes cur)).hasName (s.nodes cur).name = true := strncmpEq_self _ _
  have hothers : expirePending (s.nodes cur).name (pendings s others) = pendings s others := by
    unfold expirePending
    refine Eq.trans (filterMap_congr fun a ha => ?_) filterMap_some
    obtain ⟨q, hq, rfl⟩ := mem_map.mp ha
    refine if_neg fun hsame => hnames q hq ?_
    exact SameName.symm hsame
  have hcons : expirePending (s.nodes cur).name (pendings s (cur :: others)) =
      (pendingOf (s.nodes cur)).expire.toList ++
        expirePending (s.nodes cur).name (pendings s others) := by
    simp only [pendings, map_cons, expirePending, filterMap_cons, hself, if_true]
    cases (pendingOf (s.nodes cur)).expire <;> rfl
  rw [hcons, hothers]

theorem expire_of_last {n : AlarmNode} (h : n.periodCnt = 1) : (pendingOf n).expire = none :=
  if_pos h

theorem expire_of_again {n n' : AlarmNode} {next : Option NodePtr} (h : n.periodCnt ≠ 1)
    (hn' : n' = { n.countDown.rearm with next := next }) :
    (pendingOf n).expire = some (pendingOf n') := by
  have hrearm : pendingOf n' = pendingOf n.countDown := by
    rw [hn']
    rfl
  have hcnt : (pendingOf n).periodCnt = n.periodCnt := rfl
  rw [hrearm, Pending.expire, AlarmNode.countDown, hcnt, if_neg h]
  by_cases hforever : n.periodCnt = alarmLoopForever
  · rw [if_pos hforever, if_pos hforever]
  · rw [if_neg hforever, if_neg hforever]
    simp only [pendingOf]

theorem expireNode_free (h : WellFormed s l) (hfree : FreeCleared s) (hcur : cur ∉ l) :
    ∃ s', expireNode s cur none = some (s', true) ∧ WellFormed s' l ∧ FreeCleared s' ∧
      pendings s' l = pendings s l := by
  have hbusy : s.busyBits cur = false := by
    rw [eq_false_iff]
    exact fun hbusy => hcur ((h.busy cur).mp hbusy)
  obtain ⟨-, -, hcnt⟩ := hfree cur hbusy
  have hagain : (s.nodes cur).periodCnt ≠ 1 := by
    rcases hcnt with hcnt | hcnt <;> rw [hcnt] <;> decide
  let f : AlarmNode → AlarmNode := fun n => n.countDown.rearm
  have hother : ∀ q ∈ l, (s.modifyNode cur f).nodes q = s.nodes q :=
    fun q hq => Function.update_of_ne (fun hqcur : q = cur => hcur (hqcur ▸ hq)) _ _
  refine ⟨s.modifyNode cur f, expireNode_none hagain, ?_, ?_, ?_⟩
  · exact h.congr hother rfl rfl rfl
  · refine hfree.of_frame fun q hq => ?_
    by_cases hqcur : q = cur
    · subst hqcur
      left
      simp only [AonRtc.modifyNode, Function.update_self, f]
      exact cleared_countDown (hfree q hq)
    · exact .inr ⟨hq, Function.update_of_ne hqcur _ _⟩
  · exact pendings_of_kept (Kept.of_eq hother)

theorem Tracked.expired {others : List NodePtr} (h : Tracked r l) (hperm : l.Perm (cur :: others)) :
    ((pendingOf (r.rtc.nodes cur)).expire.toList ++ pendings r.rtc others).Perm
      (expirePending (r.rtc.nodes cur).name r.expected) := by
  rw [← expirePending_pendings (h.wellFormed.names_of_perm hperm)]
  exact ((hperm.map fun p => pendingOf (r.rtc.nodes p)).symm.trans h.pending).filterMap _

theorem Tracked.finish {n : Nat} {next : Option NodePtr} {caller : Option (List UInt8)}
    {again : Bool} (h : Tracked r l) (hphase : r.phase = .callback n cur next caller)
    (hplace : inPlace r.rtc r.phase = true) (hrun : expireNode r.rtc cur next = some (s', again)) :
    ∃ l', WellFormed s' l' ∧ FreeCleared s' ∧ (pendings s' l').Perm
      (if r.rtc.busyBits cur then expirePending (r.rtc.nodes cur).name r.expected
        else r.expected) := by
  rcases h.held n cur next caller hphase with ⟨hmem, -⟩ | ⟨hfreed, rfl, -⟩
  · have hbusy : r.rtc.busyBits cur = true := (h.wellFormed.busy cur).mpr hmem
    rw [hphase, inPlace, hbusy, Bool.not_true, Bool.false_or] at hplace
    rw [if_pos hbusy]
    by_cases hfront : (r.rtc.nodes cur).periodCnt = 1 ∨ next ≠ none
    · rw [if_pos hfront, decide_eq_true_eq] at hplace
      obtain ⟨rest, rfl⟩ : ∃ rest, l = cur :: rest := by
        cases l with
        | nil => cases hmem
        | cons first rest =>
          have hfirst : first = cur := Option.some.inj (h.wellFormed.chain.1.symm.trans hplace)
          exact ⟨rest, by rw [hfirst]⟩
      have hexpired := h.expired (List.Perm.refl _)
      by_cases hlast : (r.rtc.nodes cur).periodCnt = 1
      · obtain ⟨s1, hrun1, hwf, hkept, -, hfree⟩ :=
          @expireNode_last _ cur rest next h.wellFormed hlast
        cases hrun1.symm.trans hrun
        rw [expire_of_last hlast, ← pendings_of_kept hkept] at hexpired
        exact ⟨rest, hwf, hfree h.free, hexpired⟩
      · obtain ⟨saved, rfl⟩ := Option.ne_none_iff_exists'.mp (hfront.resolve_left hlast)
        obtain ⟨s1, hrun1, hwf, hrearmed⟩ := expireNode_again saved h.wellFormed hlast
        cases hrun1.symm.trans hrun
        rw [expire_of_again hlast hrearmed.node, ← pendings_of_kept hrearmed.kept] at hexpired
        refine ⟨_, hwf, hrearmed.free h.free, ?_⟩
        exact ((insertByKey_perm _ cur rest).map _).trans hexpired
    · rw [if_neg hfront, and_eq_true, decide_eq_true_eq] at hplace
      obtain ⟨hlast, hnone⟩ := not_or.mp hfront
      cases not_not.mp hnone
      obtain ⟨pre, post, rfl⟩ := append_of_mem hmem
      have hsorted := pairwise_append.mp h.wellFormed.sorted
      have hpre : ∀ q ∈ pre, expiryOf r.rtc q ≤
          (alarmOf r.rtc cur).rearmed.expiredTick := fun q hq =>
        Nat.le_trans (hsorted.2.2 q hq cur (by simp)) hplace.1
      have hpost : ∀ q ∈ post, (alarmOf r.rtc cur).rearmed.expiredTick ≤ expiryOf r.rtc q := by
        -- not behind the successor, so not behind any later one
        intro q hq
        obtain ⟨mid, hmid⟩ := h.wellFormed.chain.suffix
        have hsucc : (r.rtc.nodes cur).next = post.head? := hmid.2.head_eq
        rw [hsucc] at hplace
        cases post with
        | nil => cases hq
        | cons =>
          have hle := of_decide_eq_true hplace.2
          rcases mem_cons.mp hq with rfl | hq
          · exact hle
          · have hsecond := (pairwise_cons.mp hsorted.2.1).2
            exact Nat.le_trans hle ((pairwise_cons.mp hsecond).1 q hq)
      obtain ⟨s1, hrun1, hwf, hrearmed⟩ := expireNode_self h.wellFormed hlast hpre hpost
      cases hrun1.symm.trans hrun
      have hexpired := h.expired perm_middle
      rw [expire_of_again hlast hrearmed.node, ← pendings_of_kept hrearmed.kept] at hexpired
      refine ⟨_, hwf, hrearmed.free h.free, ?_⟩
      exact (perm_middle.map _).trans hexpired
  · have hbusy : ¬ r.rtc.busyBits cur = true := fun hbusy =>
      hfreed ((h.wellFormed.busy cur).mp hbusy)
    rw [if_neg hbusy]
    obtain ⟨s1, hrun1, hwf, hfree, hsame⟩ := expireNode_free h.wellFormed h.free hfreed
    cases hrun1.symm.trans hrun
    refine ⟨l, hwf, hfree, ?_⟩
    rw [hsame]
    exact h.pending

theorem loopAt_ne_callback (m n : Nat) (head next : Option NodePtr) (cur : NodePtr)
    (caller : Option (List UInt8)) : loopAt m head ≠ .callback n cur next caller := by
  cases head <;> simp [loopAt]

theorem Tracked.move {phase' : Phase} (h : Tracked r l) (hnodes : s'.nodes = r.rtc.nodes)
    (hbusy : s'.busyBits = r.rtc.busyBits) (hhead : s'.alarmHead = r.rtc.alarmHead)
    (hcount : s'.alarmNodeCnt = r.rtc.alarmNodeCnt)
    (hphase : ∀ n cur next caller, phase' ≠ .callback n cur next caller) :
    Tracked ⟨s', phase', r.expected⟩ l := by
  refine ⟨wellFormed_of_same_list h.wellFormed hnodes hbusy hhead hcount,
    h.free.congr hnodes hbusy, ?_, fun n cur next caller heq =>
      absurd heq (hphase n cur next caller)⟩
  rw [pendings_of_kept (Kept.of_eq fun q _ => congrFun hnodes q)]
  exact h.pending

theorem isrStep_tracked {r' : IsrState} (e : IsrEvent) (h : Tracked r l)
    (hok : inPlaceStep r e = true) (hstep : isrStep r e = some r') : ∃ l', Tracked r' l' := by
  cases e with
  | register =>
    rw [isrStep] at hstep
    split at hstep
    · rename_i hmay
      obtain ⟨result, hrun, rfl⟩ := Option.map_eq_some_iff.mp hstep
      exact h.register hmay hrun
    · cases hstep
  | unregister =>
    rw [isrStep] at hstep
    split at hstep
    · rename_i hmay
      rw [and_eq_true, not_eq_true'] at hmay
      obtain ⟨result, hrun, rfl⟩ := Option.map_eq_some_iff.mp hstep
      exact h.unregister hmay.1 hmay.2 hrun
    · cases hstep
  | enter =>
    rw [isrStep] at hstep
    split at hstep
    · cases hstep
      exact ⟨l, h.move rfl rfl rfl rfl fun n cur next caller =>
        loopAt_ne_callback 0 n _ next cur caller⟩
    · cases hstep
  | look =>
    rw [isrStep, isrLook.eq_def] at hstep
    split at hstep
    · rename_i n cur hphase
      split at hstep
      · cases hstep
      · split at hstep
        · cases hstep
          refine ⟨l, h.wellFormed, h.free, h.pending, fun n' cur' next' caller' heq => ?_⟩
          cases heq
          by_cases hmem : cur ∈ l
          · refine .inl ⟨hmem, fun name hname => ?_⟩
            obtain ⟨cb, -, rfl⟩ := Option.map_eq_some_iff.mp hname
            rfl
          · have hfree : r.rtc.busyBits cur = false := by
              rw [eq_false_iff]
              exact fun hbusy => hmem ((h.wellFormed.busy cur).mp hbusy)
            obtain ⟨hnext, hcallback, -⟩ := h.free cur hfree
            exact .inr ⟨hmem, hnext, by rw [hcallback]; rfl⟩
        · cases hstep
          exact ⟨l, h.move rfl rfl rfl rfl fun _ _ _ _ => nofun⟩
    · cases hstep
  | finish =>
    rw [isrStep, isrFinish.eq_def] at hstep
    split at hstep
    · rename_i n cur next caller hphase
      split at hstep
      · cases hstep
      · rename_i s' again hrun
        cases hstep
        obtain ⟨l', hwf, hfree, hpending⟩ := h.finish hphase hok hrun
        refine ⟨l', hwf, hfree, hpending, fun n' cur' next' caller' heq => ?_⟩
        cases again with
        | false => cases heq
        | true => exact absurd heq (loopAt_ne_callback (n + 1) n' next next' cur' caller')
    · cases hstep
  | leave =>
    rw [isrStep] at hstep
    split at hstep
    · obtain ⟨s', hreset, rfl⟩ := Option.map_eq_some_iff.mp hstep
      obtain ⟨val, rfl⟩ := resetTick_eq hreset
      exact ⟨l, h.move rfl rfl rfl rfl fun _ _ _ _ => nofun⟩
    · cases hstep
  | upper =>
    rw [isrStep] at hstep
    split at hstep
    · rename_i hphase
      cases hstep
      refine ⟨l, h.move rfl rfl rfl rfl fun n cur next caller heq => ?_⟩
      rw [hphase] at heq
      cases heq
    · cases hstep

theorem tracked_init : Tracked IsrState.init [] where
  wellFormed := wellFormed_init
  free := fun _ _ => ⟨rfl, rfl, .inl rfl⟩
  pending := List.Perm.refl _
  held := fun _ _ _ _ heq => by cases heq

theorem reached_tracked {r : IsrState}
    (h : Reached isrStep (fun r e => inPlaceStep r e = true) IsrState.init r) :
    ∃ l, Tracked r l := by
  refine h.invariant (fun r => ∃ l, Tracked r l) ⟨[], tracked_init⟩ ?_
  rintro r e r' ⟨l, hl⟩ hok hstep
  exact isrStep_tracked e hl hok hstep

/-- In a run in which the loop finds every alarm it handles in place, the list is sorted
and holds exactly the alarms that are registered, not unregistered and not out of
repeats. -/
theorem reached_holds_expected {r : IsrState}
    (h : Reached isrStep (fun r e => inPlaceStep r e = true) IsrState.init r) :
    ∃ l, WellFormed r.rtc l ∧ (pendings r.rtc l).Perm r.expected := by
  obtain ⟨l, hl⟩ := reached_tracked h
  exact ⟨l, hl.wellFormed, hl.pending⟩

def registrationWithCallback (letter : UInt8) (period count now : Nat) : IsrEvent :=
  .register 0 (some ⟨[letter], period, count, some 0, 0⟩) fun _ => now

-- The callback of the alarm at 100 registers a third alarm and removes the second one,
-- which the loop has saved as its successor.
theorem reached_holds_expected_swapped :
    ∃ r, Reached isrStep (fun r e => inPlaceStep r e = true) IsrState.init r ∧
      (r.phase = .idle ∧ r.expected.length = 2) ∧
      ∃ l, WellFormed r.rtc l ∧ (pendings r.rtc l).Perm r.expected :=
  exists_reached_and (fun _ => reached_holds_expected)
    [registrationWithCallback 97 100 alarmLoopForever 0, registrationWithCallback 98 105 1 0,
      .enter, .look 90, registrationWithCallback 99 500 1 90, .unregister 0 [98] 90,
      .finish, .look 91, .finish, .leave 92]
    (by decide)

-- The only alarm of the list repeats every 1000 ticks, and its callback registers one
-- that expires after 100: the loop leaves 2000 in front of 1100.
theorem callback_registers_in_front :
    ¬ ∀ r, Reached isrStep anyStep IsrState.init r → r.phase = .idle →
      ∃ l, WellFormed r.rtc l ∧ (pendings r.rtc l).Perm r.expected := by
  intro hall
  obtain ⟨r, hreached, hidle, hunsorted⟩ := exists_reached isrStep anyStep IsrState.init
    (fun r => r.phase = .idle ∧ ¬ (walk r.rtc maxAlarmCnt r.rtc.alarmHead).Pairwise
      fun p q => (r.rtc.nodes p).expiredTick ≤ (r.rtc.nodes q).expiredTick)
    [registrationWithCallback 97 1000 alarmLoopForever 0, .enter, .look 1000,
      registrationWithCallback 98 100 1 1000, .finish, .leave 1000]
    (by decide)
  obtain ⟨l, hwf, -⟩ := hall r hreached hidle
  have hwalk := walk_eq maxAlarmCnt hwf.chain hwf.length_le
  exact hunsorted (hwalk ▸ hwf.sorted)

end BekenSoc.AonRtcReentry
