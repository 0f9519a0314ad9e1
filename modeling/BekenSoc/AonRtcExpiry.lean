import BekenSoc.AonRtcAlarmList

namespace BekenSoc.AonRtcExpiry

open Function CRuntime LinkedChain AonRtcDriver AonRtcAlarmList List

variable {s s' : AonRtc} {cur : NodePtr} {l rest : List NodePtr} {counter : Nat → Nat}
  {fuel n : Nat}

structure Alarm where
  expiredTick : Nat
  periodTick : Nat
  periodCnt : Nat

def Alarm.due (tick : Nat) (a : Alarm) : Bool :=
  decide (a.expiredTick ≤ addU64 tick precisionTick)

theorem Alarm.due_iff {a : Alarm} {tick : Nat} :
    a.due tick = true ↔ a.expiredTick ≤ addU64 tick precisionTick :=
  decide_eq_true_iff

def Alarm.rearmed (a : Alarm) : Alarm where
  expiredTick := addU64 a.expiredTick a.periodTick
  periodTick := a.periodTick
  periodCnt :=
    if a.periodCnt = alarmLoopForever then a.periodCnt else subU32 a.periodCnt 1

/-- No alarm that is armed again during the interrupt moves in front of an alarm
that is due in the same interrupt.  A due successor does no harm when it is the
last alarm of the list and is itself only armed again.  `tick n` is the reading
of iteration `n`, and the fuel bounds the iterations as the driver does. -/
def overtakeFree (tick : Nat → Nat) : Nat → Nat → List Alarm → Bool
  | 0, _, _ => true
  | _ + 1, _, [] => true
  | fuel + 1, n, a :: rest =>
    if a.due (tick n) then
      if a.periodCnt = 1 then overtakeFree tick fuel (n + 1) rest
      else
        match rest with
        | [] => true
        | b :: rest' =>
          if a.rearmed.expiredTick < b.expiredTick then
            !b.due (tick (n + 1)) || (rest'.isEmpty && decide (b.periodCnt ≠ 1) &&
                decide (a.rearmed.expiredTick ≤ b.rearmed.expiredTick))
          else
            overtakeFree tick fuel (n + 1) (insertByKey Alarm.expiredTick a.rearmed (b :: rest'))
    else true

def expiryPass (tick : Nat → Nat) : Nat → Nat → List Alarm → Option (List Alarm)
  | _, _, [] => some []
  | 0, _, _ :: _ => none
  | fuel + 1, n, a :: rest =>
    if a.due (tick n) then
      if a.periodCnt = 1 then expiryPass tick fuel (n + 1) rest
      else
        match rest with
        | [] => some [a.rearmed]
        | b :: rest' =>
          if a.rearmed.expiredTick < b.expiredTick then
            if fuel = 0 then none
            else if b.due (tick (n + 1)) then some [a.rearmed, b.rearmed]
            else some (a.rearmed :: b :: rest')
          else
            expiryPass tick fuel (n + 1) (insertByKey Alarm.expiredTick a.rearmed (b :: rest'))
    else some (a :: rest)

def alarmOf (s : AonRtc) (p : NodePtr) : Alarm :=
  ⟨(s.nodes p).expiredTick, (s.nodes p).periodTick, (s.nodes p).periodCnt⟩

def alarms (s : AonRtc) (l : List NodePtr) : List Alarm := l.map (alarmOf s)

theorem alarms_insertByKey (s : AonRtc) (p : NodePtr) (l : List NodePtr) :
    alarms s (insertByKey (expiryOf s) p l) =
      insertByKey Alarm.expiredTick (alarmOf s p) (alarms s l) :=
  map_orderedInsert _ _ (alarmOf s) l p (fun _ _ => Iff.rfl) (fun _ _ => Iff.rfl)

theorem alarms_of_kept (h : Kept s s' l) : alarms s' l = alarms s l := by
  refine map_congr_left fun q hq => ?_
  simp only [alarmOf]
  rw [h q hq]

def quietCallbacks : Callbacks := fun _ _ _ s => some s

theorem runCallback_quietCallbacks (s : AonRtc) (cur : NodePtr) :
    runCallback quietCallbacks s cur = some s := by
  unfold runCallback quietCallbacks
  cases (s.nodes cur).callback <;> rfl

theorem wellFormed_modifyNode (h : WellFormed s l) (p : NodePtr) (f : AlarmNode → AlarmNode)
    (hnext : ∀ n, (f n).next = n.next) (hname : ∀ n, (f n).name = n.name)
    (hsorted : KeySorted (expiryOf (s.modifyNode p f)) l) : WellFormed (s.modifyNode p f) l := by
  have hlinks : nextOf (s.modifyNode p f) = nextOf s := by
    funext q
    by_cases hq : q = p
    · subst hq
      simp [nextOf, AonRtc.modifyNode, hnext]
    · simp [nextOf, AonRtc.modifyNode, update_of_ne hq]
  have hnames : ∀ q, ((s.modifyNode p f).nodes q).name = (s.nodes q).name := by
    intro q
    by_cases hq : q = p
    · subst hq
      simp [AonRtc.modifyNode, hname]
    · simp [AonRtc.modifyNode, update_of_ne hq]
  refine ⟨?_, hsorted, ?_, h.count, h.busy⟩
  · rw [hlinks]
    exact h.chain
  · simp only [SameName, hnames]
    exact h.names

theorem expireNode_last {next : Option NodePtr} (h : WellFormed s (cur :: rest))
    (hlast : (s.nodes cur).periodCnt = 1) :
    ∃ s', expireNode s cur next = some (s', true) ∧ WellFormed s' rest ∧
      Kept s s' rest ∧ s'.highTick = s.highTick ∧ (FreeCleared s → FreeCleared s') := by
  let s1 := s.modifyNode cur fun n => { n with periodCnt := 0 }
  let s2 := (s1.setHead (nextOf s1 cur)).decCnt
  have hnodup := nodup_cons.mp h.chain.nodup
  have hs1 : WellFormed s1 (cur :: rest) := by
    refine wellFormed_modifyNode h cur _ (fun _ => rfl) (fun _ => rfl) ?_
    refine h.sorted.congr fun q _ => ?_
    by_cases hq : q = cur
    · subst hq
      simp [expiryOf, AonRtc.modifyNode]
    · simp [expiryOf, AonRtc.modifyNode, update_of_ne hq]
  have hrem : Removed s1 (aonRtcReleaseNode s2 cur) cur :=
    removed_releaseNode ((Relinked.refl s1).setHead _).decCnt rfl
  refine ⟨aonRtcReleaseNode s2 cur, ?_, ?_, ?_, rfl, ?_⟩
  · rw [expireNode, if_pos hlast]
    rfl
  · refine @WellFormed.of_removed _ _ [] rest cur hs1 hrem ?_
    refine hs1.chain.2.congr fun q hq => ?_
    have hqcur : q ≠ cur := fun hqcur => hnodup.1 (hqcur ▸ hq)
    rw [nextOf_releaseNode hqcur]
    simp [s2]
  · intro q hq
    have hqcur : q ≠ cur := fun hqcur => hnodup.1 (hqcur ▸ hq)
    rw [hrem.data q hqcur]
    simp [s1, AonRtc.modifyNode, update_of_ne hqcur]
  · intro hfree
    refine hfree.of_frame fun q hq => ?_
    by_cases hqcur : q = cur
    · subst hqcur
      exact .inl (cleared_releaseNode s2 q)
    · right
      constructor
      · rw [hrem.busy, update_of_ne hqcur] at hq
        exact hq
      · rw [hrem.nodes_eq hqcur]
        · simp [s1, AonRtc.modifyNode, update_of_ne hqcur]
        · rw [nextOf_releaseNode hqcur]
          simp [s2]

def unlinkForRearm (s : AonRtc) (cur : NodePtr) : AonRtc :=
  let s := s.modifyNode cur AlarmNode.countDown
  let s := s.setHead (s.nodes cur).next
  ((s.modifyNode cur AlarmNode.rearm).setNext cur none).decCnt

theorem unlinkForRearm_nodes (s : AonRtc) (cur : NodePtr) :
    (unlinkForRearm s cur).nodes = update s.nodes cur
      { (s.nodes cur).countDown.rearm with next := none } := by
  simp [unlinkForRearm, AonRtc.decCnt, AonRtc.setNext, AonRtc.setHead, AonRtc.modifyNode]

theorem countDown_eq (n : AlarmNode) : n.countDown = { n with periodCnt :=
    if n.periodCnt = alarmLoopForever then n.periodCnt else subU32 n.periodCnt 1 } := by
  by_cases h : n.periodCnt = alarmLoopForever
  · rw [AlarmNode.countDown, if_pos h, if_pos h]
  · rw [AlarmNode.countDown, if_neg h, if_neg h]

theorem countDown_next (n : AlarmNode) : n.countDown.next = n.next := by rw [countDown_eq]

theorem cleared_countDown {n : AlarmNode} (h : Cleared n) : Cleared n.countDown.rearm := by
  obtain ⟨hnext, hcallback, hcnt⟩ := h
  rw [countDown_eq]
  refine ⟨hnext, hcallback, .inr ?_⟩
  change (if n.periodCnt = alarmLoopForever then n.periodCnt else _) = _
  rcases hcnt with hcnt | hcnt <;> rw [hcnt] <;> decide

theorem alarmOf_rearm_countDown {p : NodePtr} {next : Option NodePtr}
    (h : s'.nodes p = { (s.nodes p).countDown.rearm with next := next }) :
    alarmOf s' p = (alarmOf s p).rearmed := by
  simp only [alarmOf, Alarm.rearmed, h, AlarmNode.rearm, countDown_eq]
  rfl

theorem detached_unlinkForRearm (h : WellFormed s (cur :: rest)) :
    Detached (unlinkForRearm s cur) rest cur ∧
      ∀ q ∈ rest, ¬ SameName (unlinkForRearm s cur) q cur := by
  have hnodup := nodup_cons.mp h.chain.nodup
  have hne : ∀ q ∈ rest, q ≠ cur := fun q hq hqcur => hnodup.1 (hqcur ▸ hq)
  have hother : ∀ q, q ≠ cur → (unlinkForRearm s cur).nodes q = s.nodes q := by
    intro q hq
    rw [unlinkForRearm_nodes, update_of_ne hq]
  have hself : (unlinkForRearm s cur).nodes cur =
      { (s.nodes cur).countDown.rearm with next := none } := by
    rw [unlinkForRearm_nodes, update_self]
  have hnameSelf : ((unlinkForRearm s cur).nodes cur).name = (s.nodes cur).name := by
    rw [hself, countDown_eq]
    rfl
  have hhead : (unlinkForRearm s cur).alarmHead = nextOf s cur := by
    simp [unlinkForRearm, AonRtc.decCnt, AonRtc.setNext, AonRtc.setHead,
      AonRtc.modifyNode, countDown_next, nextOf]
  have hnodes : ∀ q ∈ rest, _ := fun q hq => hother q (hne q hq)
  refine ⟨⟨?_, sorted_congr hnodes (pairwise_cons.mp h.sorted).2,
    names_congr hnodes (pairwise_cons.mp h.names).2, ?_, ?_, hnodup.1, ?_⟩, ?_⟩
  · rw [hhead]
    exact chain_congr hnodes h.chain.2
  · have hlen := h.length_le
    simp only [length_cons, maxAlarmCnt] at hlen
    have hcount : (unlinkForRearm s cur).alarmNodeCnt = subU32 s.alarmNodeCnt 1 := rfl
    rw [hcount, h.count, length_cons, subU32]
    omega
  · intro q
    have hbusy : (unlinkForRearm s cur).busyBits = s.busyBits := rfl
    rw [hbusy, h.busy, mem_cons]
  · simp only [nextOf, hself]
  · intro q hq hsame
    refine (pairwise_cons.mp h.names).1 q hq ?_
    simp only [SameName, hother q (hne q hq), hnameSelf] at hsame
    exact SameName.symm hsame

structure Rearmed (s s' : AonRtc) (cur : NodePtr) (others : List NodePtr) : Prop where
  node : s'.nodes cur = { (s.nodes cur).countDown.rearm with next := (s'.nodes cur).next }
  kept : Kept s s' others
  highTick : s'.highTick = s.highTick
  free : FreeCleared s → FreeCleared s'

theorem expireNode_again (next : NodePtr) (h : WellFormed s (cur :: rest))
    (hagain : (s.nodes cur).periodCnt ≠ 1) :
    ∃ s', expireNode s cur (some next) = some (s', true) ∧
      WellFormed s' (insertByKey (expiryOf s') cur rest) ∧ Rearmed s s' cur rest := by
  obtain ⟨hdet, hname⟩ := detached_unlinkForRearm h
  obtain ⟨s', hrun, hins, hframe⟩ := alarmInsertNode_of_new hdet hname
  have hother : ∀ q, q ≠ cur → (unlinkForRearm s cur).nodes q = s.nodes q := by
    intro q hq
    rw [unlinkForRearm_nodes, update_of_ne hq]
  refine ⟨s', ?_, ?_, ?_, ?_, ?_, ?_⟩
  · rw [expireNode, if_neg hagain]
    exact hrun
  · rw [hins.relinked.expiryOf_eq]
    exact hdet.wellFormed_of_inserted hname hins
  · rw [hins.relinked.data cur, unlinkForRearm_nodes, update_self]
  · intro q hq
    rw [hins.relinked.data q, hother q fun hqcur => hdet.outside (hqcur ▸ hq)]
  · exact hins.relinked.highTick
  · intro hfree
    refine hfree.of_frame fun q hq => .inr ?_
    have hbusy : s.busyBits q = false := by
      rw [hins.relinked.busy] at hq
      exact hq
    have hq' : q ∉ cur :: rest := by
      rw [← h.busy q, hbusy]
      exact Bool.false_ne_true
    refine ⟨hbusy, (hins.relinked.nodes_eq (hframe q hq')).trans (hother q ?_)⟩
    exact fun hqcur => hq' (by simp [hqcur])

theorem expireNode_none (hagain : (s.nodes cur).periodCnt ≠ 1) : expireNode s cur none =
    some (s.modifyNode cur fun n => n.countDown.rearm, true) := by
  rw [expireNode, if_neg hagain]
  simp [AonRtc.modifyNode]

theorem expireNode_self {pre post : List NodePtr} (h : WellFormed s (pre ++ cur :: post))
    (hagain : (s.nodes cur).periodCnt ≠ 1)
    (hpre : ∀ q ∈ pre, expiryOf s q ≤ (alarmOf s cur).rearmed.expiredTick)
    (hpost : ∀ q ∈ post, (alarmOf s cur).rearmed.expiredTick ≤ expiryOf s q) :
    ∃ s', expireNode s cur none = some (s', true) ∧
      WellFormed s' (pre ++ cur :: post) ∧ Rearmed s s' cur (pre ++ post) := by
  have hperm : (pre ++ cur :: post).Perm (cur :: (pre ++ post)) := perm_middle
  have hnodup := nodup_cons.mp (hperm.nodup_iff.mp h.chain.nodup)
  have hne : ∀ q ∈ pre ++ post, q ≠ cur := fun q hq hqcur => hnodup.1 (hqcur ▸ hq)
  let f : AlarmNode → AlarmNode := fun n => n.countDown.rearm
  have hother : ∀ q, q ≠ cur → (s.modifyNode cur f).nodes q = s.nodes q :=
    fun q hq => update_of_ne hq _ _
  have hself : (s.modifyNode cur f).nodes cur = (s.nodes cur).countDown.rearm := update_self _ _ _
  refine ⟨s.modifyNode cur f, expireNode_none hagain, ?_, ?_, ?_, rfl, ?_⟩
  · refine wellFormed_modifyNode h cur f (fun n => ?_) (fun n => ?_) ?_
    iterate 2 simp only [f, countDown_eq, AlarmNode.rearm]
    have hcur : expiryOf (s.modifyNode cur f) cur = (alarmOf s cur).rearmed.expiredTick := by
      simp [expiryOf, hself, AlarmNode.rearm, Alarm.rearmed, alarmOf, countDown_eq]
    have hkey : ∀ q ∈ pre ++ post, expiryOf (s.modifyNode cur f) q = expiryOf s q :=
      fun q hq => congrArg AlarmNode.expiredTick (hother q (hne q hq))
    have hsorted := pairwise_append.mp h.sorted
    obtain ⟨-, hsortedPost⟩ := pairwise_cons.mp hsorted.2.1
    refine pairwise_append.mpr ⟨?_, pairwise_cons.mpr ⟨?_, ?_⟩, ?_⟩
    · exact KeySorted.congr hsorted.1 fun q hq => hkey q (by simp [hq])
    · intro q hq
      rw [hcur, hkey q (by simp [hq])]
      exact hpost q hq
    · exact KeySorted.congr hsortedPost fun q hq => hkey q (by simp [hq])
    · intro q hq r hr
      rw [hkey q (by simp [hq])]
      rcases mem_cons.mp hr with rfl | hr
      · rw [hcur]
        exact hpre q hq
      · rw [hkey r (by simp [hr])]
        exact hsorted.2.2 q hq r (by simp [hr])
  · rw [hself]
  · exact Kept.of_eq fun q hq => hother q (hne q hq)
  · intro hfree
    refine hfree.of_frame fun q hq => .inr ⟨hq, hother q ?_⟩
    rintro rfl
    have hbusy : s.busyBits q = true := (h.busy q).mpr (by simp)
    rw [AonRtc.modifyNode, hbusy] at hq
    cases hq

theorem Rearmed.alarmOf_eq {others : List NodePtr} (h : Rearmed s s' cur others) :
    alarmOf s' cur = (alarmOf s cur).rearmed :=
  alarmOf_rearm_countDown h.node

def tickReading (s : AonRtc) (counter : Nat → Nat) (n : Nat) : Nat :=
  bkAonRtcGetCurrentTick s (counter n)

theorem tickReading_congr (counter : Nat → Nat) (h : s'.highTick = s.highTick) :
    tickReading s' counter = tickReading s counter := by
  funext n
  simp only [tickReading, bkAonRtcGetCurrentTick, h]

theorem due_alarmOf_iff (s : AonRtc) (counter : Nat → Nat) (n : Nat) (p : NodePtr) :
    (alarmOf s p).due (tickReading s counter n) = true ↔ (s.nodes p).expiredTick ≤
        addU64 (bkAonRtcGetCurrentTick s (counter n)) precisionTick :=
  Alarm.due_iff

theorem updateLoop_none {callbacks : Callbacks} :
    updateLoop callbacks counter fuel n none s = some s := by
  cases fuel <;> rfl

theorem updateLoop_of_due {s1 : AonRtc}
    (hdue : (alarmOf s cur).due (tickReading s counter n) = true)
    (hexpire : expireNode s cur (nextOf s cur) = some (s1, true)) :
    updateLoop quietCallbacks counter (fuel + 1) n (some cur) s =
      updateLoop quietCallbacks counter fuel (n + 1) (nextOf s cur) s1 := by
  rw [due_alarmOf_iff] at hdue
  unfold nextOf at hexpire
  rw [updateLoop, if_pos hdue, runCallback_quietCallbacks]
  simp only [hexpire]
  rfl

theorem updateLoop_of_not_due (hdue : ¬ (alarmOf s cur).due (tickReading s counter n) = true) :
    updateLoop quietCallbacks counter (fuel + 1) n (some cur) s = some s := by
  rw [due_alarmOf_iff] at hdue
  rw [updateLoop, if_neg hdue]

theorem updateLoop_overtaken {front : NodePtr} (h : WellFormed s (front :: cur :: rest))
    (hharmless : (alarmOf s cur).due (tickReading s counter n) = true → rest = [] ∧
      (s.nodes cur).periodCnt ≠ 1 ∧ expiryOf s front ≤ (alarmOf s cur).rearmed.expiredTick)
    (hrun : updateLoop quietCallbacks counter fuel n (some cur) s = some s') :
    ∃ l, WellFormed s' l ∧ s'.highTick = s.highTick ∧ fuel ≠ 0 ∧
      alarms s' l = if (alarmOf s cur).due (tickReading s counter n) then
        [alarmOf s front, (alarmOf s cur).rearmed]
      else alarmOf s front :: alarmOf s cur :: alarms s rest := by
  cases fuel with
  | zero => simp [updateLoop] at hrun
  | succ fuel =>
    by_cases hdue : (alarmOf s cur).due (tickReading s counter n) = true
    · obtain ⟨rfl, hagain, hle⟩ := hharmless hdue
      have hnext : nextOf s cur = none := h.chain.2.2
      obtain ⟨s1, hexpire, hwf, hrearmed⟩ :=
        @expireNode_self s cur [front] [] h hagain (by simpa using hle) (by simp)
      rw [← hnext] at hexpire
      rw [updateLoop_of_due hdue hexpire, hnext, updateLoop_none] at hrun
      cases hrun
      refine ⟨_, hwf, hrearmed.highTick, Nat.succ_ne_zero fuel, ?_⟩
      obtain ⟨hfront, -⟩ := List.cons.inj (alarms_of_kept hrearmed.kept)
      rw [if_pos hdue, ← hrearmed.alarmOf_eq, ← hfront]
      rfl
    · rw [updateLoop_of_not_due hdue] at hrun
      cases hrun
      refine ⟨_, h, rfl, Nat.succ_ne_zero fuel, ?_⟩
      rw [if_neg hdue]
      rfl

theorem updateLoop_spec (h : WellFormed s l)
    (hfree : overtakeFree (tickReading s counter) fuel n (alarms s l) = true)
    (hrun : updateLoop quietCallbacks counter fuel n s.alarmHead s = some s') :
    ∃ l', WellFormed s' l' ∧ s'.highTick = s.highTick ∧
      expiryPass (tickReading s counter) fuel n (alarms s l) = some (alarms s' l') := by
  induction fuel generalizing n s l with
  | zero =>
    cases l with
    | nil =>
      rw [chain_nil.mp h.chain] at hrun
      cases hrun
      exact ⟨[], h, rfl, rfl⟩
    | cons => simp [h.chain.1, updateLoop] at hrun
  | succ fuel ih =>
    cases l with
    | nil =>
      rw [chain_nil.mp h.chain] at hrun
      cases hrun
      exact ⟨[], h, rfl, rfl⟩
    | cons cur rest =>
      obtain ⟨hhead, htail⟩ := h.chain
      rw [hhead] at hrun
      by_cases hdue : (alarmOf s cur).due (tickReading s counter n) = true
      · simp only [alarms, map_cons, overtakeFree, hdue, if_true] at hfree
        simp only [alarms, map_cons, expiryPass, hdue, if_true]
        by_cases hlast : (alarmOf s cur).periodCnt = 1
        · obtain ⟨s1, hexpire, hwf, hkept, hhigh, -⟩ :=
            @expireNode_last s cur rest (nextOf s cur) h hlast
          have halarms := alarms_of_kept hkept
          have htick := tickReading_congr counter hhigh
          rw [updateLoop_of_due hdue hexpire] at hrun
          rw [if_pos hlast] at hfree
          have hhead1 : nextOf s cur = s1.alarmHead := htail.head_eq.trans hwf.chain.head_eq.symm
          rw [hhead1] at hrun
          have hrest := ih hwf (by rw [htick, halarms]; exact hfree) hrun
          rw [htick, halarms, hhigh] at hrest
          rw [if_pos hlast]
          exact hrest
        · rw [if_neg hlast] at hfree
          rw [if_neg hlast]
          cases rest with
          | nil =>
            obtain ⟨s1, hexpire, hwf, hrearmed⟩ :=
              @expireNode_self s cur [] [] h hlast (by simp) (by simp)
            have hnext : nextOf s cur = none := htail
            rw [← hnext] at hexpire
            rw [updateLoop_of_due hdue hexpire, hnext, updateLoop_none] at hrun
            cases hrun
            refine ⟨[cur], hwf, hrearmed.highTick, ?_⟩
            rw [← hrearmed.alarmOf_eq]
            rfl
          | cons next rest =>
            have hnext : nextOf s cur = some next := htail.1
            obtain ⟨s1, hexpire, hwf, hrearmed⟩ := expireNode_again next h hlast
            have hcur := hrearmed.alarmOf_eq
            have halarms := alarms_of_kept hrearmed.kept
            have hhigh := hrearmed.highTick
            have htick := tickReading_congr counter hhigh
            obtain ⟨halarmNext, halarmRest⟩ := List.cons.inj halarms
            rw [← hnext] at hexpire
            rw [updateLoop_of_due hdue hexpire, hnext] at hrun
            have hexpCur : expiryOf s1 cur = (alarmOf s cur).rearmed.expiredTick :=
              congrArg Alarm.expiredTick hcur
            have hexpNext : expiryOf s1 next = (alarmOf s next).expiredTick :=
              congrArg Alarm.expiredTick halarmNext
            simp only [map_cons] at hfree ⊢
            by_cases hlt : (alarmOf s cur).rearmed.expiredTick < (alarmOf s next).expiredTick
            · rw [insertByKey_cons_of_lt _ (by omega)] at hwf
              have hover := updateLoop_overtaken hwf (fun hdueNext => ?_) hrun
              · rw [hcur, halarmNext, htick, hhigh] at hover
                obtain ⟨l', hwf', hhigh', hfuel, halarms'⟩ := hover
                refine ⟨l', hwf', hhigh', Eq.trans ?_ (congrArg some halarms'.symm)⟩
                rw [if_pos hlt, if_neg hfuel, alarms, halarmRest]
                split <;> rfl
              · rw [halarmNext, htick] at hdueNext
                rw [if_pos hlt, hdueNext] at hfree
                simp only [Bool.not_true, Bool.false_or, Bool.and_eq_true,
                  List.isEmpty_iff, map_eq_nil_iff, decide_eq_true_eq] at hfree
                obtain ⟨⟨hrest, hcnt⟩, hle⟩ := hfree
                refine ⟨hrest, ?_, ?_⟩
                · rw [← halarmNext] at hcnt
                  exact hcnt
                · rw [hexpCur, halarmNext]
                  exact hle
            · rw [if_neg hlt] at hfree
              rw [if_neg hlt]
              have hheadNext : s1.alarmHead = some next := by
                rw [hwf.chain.head_eq, insertByKey_cons_of_le _ (by omega)]
                rfl
              have hpass : alarms s1 (insertByKey (expiryOf s1) cur (next :: rest)) =
                  insertByKey Alarm.expiredTick (alarmOf s cur).rearmed
                    (alarms s (next :: rest)) := by
                rw [alarms_insertByKey, hcur, halarms]
              rw [← hheadNext] at hrun
              have hnextPass := ih hwf (by rw [htick, hpass]; exact hfree) hrun
              rw [htick, hpass, hhigh] at hnextPass
              exact hnextPass
      · rw [updateLoop_of_not_due hdue] at hrun
        cases hrun
        refine ⟨_, h, rfl, ?_⟩
        simp only [alarms, map_cons, expiryPass, if_neg hdue]

end BekenSoc.AonRtcExpiry
