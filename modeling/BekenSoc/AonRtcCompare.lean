import BekenSoc.AonRtcRuns

namespace BekenSoc.AonRtcCompare

open Function CRuntime LinkedChain GuardedRuns AonRtcDriver AonRtcAlarmList AonRtcExpiry AonRtcRuns

variable {p : NodePtr} {counter : Nat → Nat} {fuel : Nat}

structure Observed where
  rtc : AonRtc
  registered : Bool

def Observed.init : Observed := ⟨AonRtc.init, false⟩

def registers (s : AonRtc) : AlarmEvent → Bool
  | .register id info counter => (bkAlarmRegister id info counter s).any fun r => decide (r.2 = .ok)
  | _ => false

def Observed.after (r : Observed) (e : AlarmEvent) (s : AonRtc) : Observed :=
  ⟨s, r.registered || registers r.rtc e⟩

def observe (r : Observed) (e : AlarmEvent) : Option Observed := (alarmStep r.rtc e).map (r.after e)

def headTick (s : AonRtc) : Nat :=
  match s.alarmHead with
  | some head => (s.nodes head).expiredTick % 2 ^ 32
  | none => roundTick

def FollowsHead (s : AonRtc) : Prop := s.tickVal = headTick s

structure Linked (s : AonRtc) (l : List NodePtr) : Prop where
  chain : Chain (nextOf s) s.alarmHead l
  busy : ∀ p ∈ l, s.busyBits p = true

section List

variable {s s' : AonRtc} {l : List NodePtr}

theorem linked_init : Linked AonRtc.init [] := ⟨rfl, by simp⟩

theorem Linked.congr (h : Linked s l) (hnext : ∀ q ∈ l, nextOf s' q = nextOf s q)
    (hbusy : s'.busyBits = s.busyBits) (hhead : s'.alarmHead = s.alarmHead) : Linked s' l := by
  constructor
  · rw [hhead]
    exact h.chain.congr hnext
  · rw [hbusy]
    exact h.busy

theorem Linked.setTick (h : Linked s l) (val : Nat) : Linked (aonRtcSetTick s val) l :=
  h.congr (fun _ _ => rfl) rfl rfl

theorem Linked.not_mem_of_free (h : Linked s l) (hfree : s.busyBits p = false) : p ∉ l := by
  intro hp
  rw [h.busy p hp] at hfree
  cases hfree

theorem chain_behind {next : NodePtr → Option NodePtr} {head : Option NodePtr}
    (h : Chain next head l) (hp : p ∈ l) :
    ∃ post, Chain next (next p) post ∧ p ∉ post ∧ ∀ q ∈ post, q ∈ l := by
  obtain ⟨pre, post, rfl⟩ := List.append_of_mem hp
  obtain ⟨mid, hmid⟩ := h.suffix
  refine ⟨post, hmid.2, (List.nodup_cons.mp hmid.nodup).1, fun q hq => ?_⟩
  simp [hq]

theorem alarmInsertNode_linked {inserted : Bool} (h : Linked s l) (houtside : p ∉ l)
    (hunlinked : nextOf s p = none) (hbusy : s.busyBits p = true)
    (hrun : alarmInsertNode s p = some (s', inserted)) : (inserted = false ∧ s' = s) ∨
      inserted = true ∧ Relinked s s' ∧ Linked s' (insertByKey (expiryOf s) p l) := by
  by_cases hname : ∃ q ∈ l, SameName s q p
  · rw [alarmInsertNode_of_registered h.chain hname] at hrun
    cases hrun
    exact .inl ⟨rfl, rfl⟩
  · have hnew : ∀ q ∈ l, ¬ SameName s q p := fun q hq hsame => hname ⟨q, hq, hsame⟩
    obtain ⟨t, hins, hinserted, -⟩ := alarmInsertNode_chain h.chain houtside hunlinked hnew
    rw [hins] at hrun
    cases hrun
    refine .inr ⟨rfl, hinserted.relinked, hinserted.chain, fun q hq => ?_⟩
    rw [hinserted.relinked.busy]
    rcases (mem_insertByKey _).mp hq with rfl | hq
    · exact hbusy
    · exact h.busy q hq

end List

section Interrupt

variable {s s' : AonRtc} {l : List NodePtr} {cur : NodePtr}

theorem nextOf_modifyNode (p q : NodePtr) (f : AlarmNode → AlarmNode)
    (hf : ∀ n, (f n).next = n.next) : nextOf (s.modifyNode p f) q = nextOf s q := by
  rcases eq_or_ne q p with rfl | hne
  · simp only [nextOf, AonRtc.modifyNode, update_self, hf]
  · simp only [nextOf, AonRtc.modifyNode, update_of_ne hne]

theorem Linked.behind (h : Linked s l) (hcur : cur ∈ l)
    (hnext : ∀ q, q ≠ cur → nextOf s' q = nextOf s q)
    (hbusy : ∀ q, q ≠ cur → s'.busyBits q = s.busyBits q) (hhead : s'.alarmHead = nextOf s cur) :
    ∃ post, Linked s' post ∧ cur ∉ post ∧ Chain (nextOf s) (nextOf s cur) post := by
  obtain ⟨post, hchain, hout, hsub⟩ := chain_behind h.chain hcur
  have hne : ∀ q ∈ post, q ≠ cur := fun q hq hqcur => hout (hqcur ▸ hq)
  refine ⟨post, ⟨?_, fun q hq => ?_⟩, hout, hchain⟩
  · rw [hhead]
    exact hchain.congr fun q hq => hnext q (hne q hq)
  · rw [hbusy q (hne q hq)]
    exact h.busy q (hsub q hq)

def finished (s : AonRtc) (cur : NodePtr) : AonRtc :=
  let s := s.modifyNode cur fun n => { n with periodCnt := 0 }
  aonRtcReleaseNode (s.setHead (s.nodes cur).next).decCnt cur

theorem finished_head (s : AonRtc) (cur : NodePtr) : (finished s cur).alarmHead = nextOf s cur := by
  show ((s.modifyNode cur fun n => { n with periodCnt := 0 }).nodes cur).next = nextOf s cur
  simp only [AonRtc.modifyNode, update_self]
  rfl

theorem finished_nodes {q : NodePtr} (s : AonRtc) (hq : q ≠ cur) :
    (finished s cur).nodes q = s.nodes q ∧ (finished s cur).busyBits q = s.busyBits q := by
  simp [finished, aonRtcReleaseNode, AonRtc.decCnt, AonRtc.setHead, AonRtc.modifyNode, hq]

theorem unlinkForRearm_head (s : AonRtc) (cur : NodePtr) :
    (unlinkForRearm s cur).alarmHead = nextOf s cur := by
  show ((s.modifyNode cur AlarmNode.countDown).nodes cur).next = nextOf s cur
  simp only [AonRtc.modifyNode, update_self]
  exact countDown_next _

theorem expireNode_linked {going : Bool} (h : Linked s l) (hcur : cur ∈ l)
    (hrun : expireNode s cur (nextOf s cur) = some (s', going)) :
    ∃ l', Linked s' l' ∧ (going = true → ∀ q, nextOf s cur = some q → q ∈ l') := by
  have hmem : ∀ {post : List NodePtr}, Chain (nextOf s) (nextOf s cur) post →
      ∀ q, nextOf s cur = some q → q ∈ post := by
    intro post hchain q hq
    rw [hq] at hchain
    exact List.mem_of_mem_head? hchain.head_eq.symm
  by_cases hlast : (s.nodes cur).periodCnt = 1
  · rw [expireNode, if_pos hlast] at hrun
    have hs : s' = finished s cur := congrArg Prod.fst (Option.some.inj hrun).symm
    rw [hs]
    obtain ⟨post, hpost, -, hchain⟩ := h.behind hcur
      (fun q hq => congrArg AlarmNode.next (finished_nodes s hq).1)
      (fun q hq => (finished_nodes s hq).2) (finished_head s cur)
    exact ⟨post, hpost, fun _ => hmem hchain⟩
  · rw [expireNode, if_neg hlast] at hrun
    cases hnext : nextOf s cur with
    | none =>
      rw [hnext] at hrun
      cases hrun
      refine ⟨l, h.congr (fun q _ => ?_) rfl rfl, fun _ q hq => by cases hq⟩
      rw [nextOf_modifyNode cur q AlarmNode.rearm (fun _ => rfl),
        nextOf_modifyNode cur q _ countDown_next]
    | some =>
      rw [hnext] at hrun
      have hins : alarmInsertNode (unlinkForRearm s cur) cur = some (s', going) := hrun
      have hother : ∀ q, q ≠ cur → nextOf (unlinkForRearm s cur) q = nextOf s q := by
        intro q hq
        rw [nextOf, unlinkForRearm_nodes, update_of_ne hq, nextOf]
      obtain ⟨post, hpost, hout, hchain⟩ := h.behind hcur hother (fun _ _ => rfl)
        (unlinkForRearm_head s cur)
      have hunlinked : nextOf (unlinkForRearm s cur) cur = none := by
        rw [nextOf, unlinkForRearm_nodes, update_self]
      rcases alarmInsertNode_linked hpost hout hunlinked (h.busy cur hcur) hins with
        ⟨rfl, rfl⟩ | ⟨rfl, -, hlinked⟩
      · exact ⟨post, hpost, fun hgoing => by cases hgoing⟩
      · refine ⟨_, hlinked, fun _ q hq => ?_⟩
        exact (mem_insertByKey _).mpr (.inr (hmem hchain q (hnext.trans hq)))

theorem updateLoop_linked {n : Nat} {place : Option NodePtr} (h : Linked s l)
    (hplace : ∀ q, place = some q → q ∈ l)
    (hrun : updateLoop quietCallbacks counter fuel n place s = some s') : ∃ l', Linked s' l' := by
  induction fuel generalizing n place s l with
  | zero =>
    cases place with
    | none =>
      cases hrun
      exact ⟨l, h⟩
    | some => cases hrun
  | succ fuel ih =>
    cases place with
    | none =>
      cases hrun
      exact ⟨l, h⟩
    | some cur =>
      rw [updateLoop] at hrun
      split at hrun
      · rw [runCallback_quietCallbacks] at hrun
        dsimp only at hrun
        cases hexpire : expireNode s cur (nextOf s cur) with
        | none =>
          rw [nextOf] at hexpire
          rw [hexpire] at hrun
          cases hrun
        | some r =>
          obtain ⟨t, going⟩ := r
          obtain ⟨l', hl', hmem⟩ := expireNode_linked h (hplace cur rfl) hexpire
          rw [nextOf] at hexpire hmem
          rw [hexpire] at hrun
          cases going with
          | false =>
            cases hrun
            exact ⟨l', hl'⟩
          | true => exact ih hl' (hmem rfl) hrun
      · cases hrun
        exact ⟨l, h⟩

end Interrupt

section Registers

variable {s s' : AonRtc}

/-! The list operations do not write to the compare register. -/

theorem insertLoop_tickVal {cur : NodePtr} {next : Option NodePtr}
    (h : insertLoop s p fuel cur next = some s') : s'.tickVal = s.tickVal := by
  induction fuel generalizing cur next with
  | zero =>
    cases next with
    | none =>
      cases h
      rfl
    | some => cases h
  | succ fuel ih =>
    cases next with
    | none =>
      cases h
      rfl
    | some =>
      rw [insertLoop] at h
      split at h
      · split at h
        · exact ih h
        · cases h
          rfl
      · cases h
        rfl

theorem alarmInsertNode_tickVal {inserted : Bool} (h : alarmInsertNode s p = some (s', inserted)) :
    s'.tickVal = s.tickVal := by
  unfold alarmInsertNode at h
  split at h
  · cases h
  · cases h
    rfl
  · split at h
    · cases h
      rfl
    · split at h
      · split at h
        · cases h
          rfl
        · cases h
          rfl
      · split at h
        · cases h
        · rename_i hloop
          cases h
          exact insertLoop_tickVal hloop

theorem removeLoop_tickVal {name : List UInt8} {previous cur removed : Option NodePtr}
    (h : removeLoop s name fuel previous cur = some (s', removed)) : s'.tickVal = s.tickVal := by
  induction fuel generalizing previous cur with
  | zero =>
    cases cur with
    | none =>
      cases h
      rfl
    | some => cases h
  | succ fuel ih =>
    cases cur with
    | none =>
      cases h
      rfl
    | some =>
      unfold removeLoop at h
      split at h
      · cases previous with
        | none | some =>
          cases h
          rfl
      · exact ih h

end Registers

section Steps

variable {s s' : AonRtc} {l : List NodePtr}

structure SameHead (s s' : AonRtc) : Prop where
  head : s'.alarmHead = s.alarmHead
  tick : headTick s' = headTick s
  value : s'.tickVal = s.tickVal

theorem SameHead.followsHead (h : SameHead s s') (hs : FollowsHead s) : FollowsHead s' := by
  unfold FollowsHead
  rw [h.tick, h.value]
  exact hs

theorem headTick_some {head : NodePtr} (h : s.alarmHead = some head) :
    headTick s = (s.nodes head).expiredTick % 2 ^ 32 := by
  rw [headTick, h]

theorem headTick_none (h : s.alarmHead = none) : headTick s = roundTick := by
  rw [headTick, h]

theorem headTick_eq (hhead : s'.alarmHead = s.alarmHead)
    (hkeep : ∀ q, s.alarmHead = some q → expiryOf s' q = expiryOf s q) :
    headTick s' = headTick s := by
  cases h : s.alarmHead with
  | none => rw [headTick_none h, headTick_none (hhead.trans h)]
  | some q =>
    rw [headTick_some h, headTick_some (hhead.trans h)]
    exact congrArg (· % 2 ^ 32) (hkeep q h)

theorem resetTick_followsHead {counter : Nat} (h : Linked s l)
    (hrun : resetTick s counter = some s') :
    Linked s' l ∧ FollowsHead s' ∧ s'.alarmHead = s.alarmHead := by
  unfold resetTick at hrun
  split at hrun
  · rename_i head hhead
    obtain ⟨-, rfl⟩ := Option.ite_some_none_eq_some.mp hrun
    refine ⟨h.setTick _, ?_, rfl⟩
    exact (headTick_some (s := aonRtcSetTick s _) hhead).symm
  · rename_i hhead
    cases hrun
    refine ⟨h.setTick _, ?_, rfl⟩
    exact (headTick_none (s := aonRtcSetTick s _) hhead).symm

theorem interrupt_follows {tickStatus upperStatus : Bool} (h : Linked s l)
    (hrun : aonRtcIsrHandler quietCallbacks tickStatus upperStatus counter s = some s') :
    ∃ l', Linked s' l' ∧ (FollowsHead s' ∨ SameHead s s') := by
  have hticked : ∀ t, (if tickStatus then tickIsr quietCallbacks counter s
      else some s) = some t → ∃ l', Linked t l' ∧ (FollowsHead t ∨ SameHead s t) := by
    intro t ht
    cases tickStatus with
    | false =>
      cases ht
      exact ⟨l, h, .inr ⟨rfl, rfl, rfl⟩⟩
    | true =>
      simp only [if_true, tickIsr, alarmUpdateExpeiredNodes] at ht
      cases hloop : updateLoop quietCallbacks counter maxAlarmCnt 0 s.alarmHead s with
      | none => simp [hloop] at ht
      | some =>
        rw [hloop] at ht
        have hhead : ∀ q, s.alarmHead = some q → q ∈ l := fun q hq =>
          List.mem_of_mem_head? (h.chain.head_eq.symm.trans hq)
        obtain ⟨l', hl'⟩ := updateLoop_linked h hhead hloop
        obtain ⟨hlinked, hfollows, -⟩ := resetTick_followsHead hl' ht
        exact ⟨l', hlinked, .inl hfollows⟩
  unfold aonRtcIsrHandler at hrun
  split at hrun
  · cases hrun
  · rename_i t ht
    obtain ⟨l', hl', hhead⟩ := hticked t ht
    split at hrun
    · cases hrun
      refine ⟨l', hl'.congr (fun _ _ => rfl) rfl rfl, ?_⟩
      rcases hhead with hfollows | hsame
      · exact .inl hfollows
      · exact .inr { hsame with }
    · cases hrun
      exact ⟨l', hl', hhead⟩

theorem Linked.removed {pre post : List NodePtr} {q : NodePtr}
    (h : Linked s (pre ++ q :: post)) (hrem : Removed s s' q)
    (hchain : Chain (nextOf s') s'.alarmHead (pre ++ post)) : Linked s' (pre ++ post) := by
  have hperm : (pre ++ q :: post).Perm (q :: (pre ++ post)) := List.perm_middle
  have hnodup := List.nodup_cons.mp (hperm.nodup_iff.mp h.chain.nodup)
  refine ⟨hchain, fun r hr => ?_⟩
  have hne : r ≠ q := fun hrq => hnodup.1 (hrq ▸ hr)
  rw [hrem.busy, update_of_ne hne]
  exact h.busy r (hperm.mem_iff.mpr (List.mem_cons_of_mem q hr))

section

variable (h : Linked s l)
include h

theorem unregister_follows {id : Nat} {name : List UInt8} {counter : Nat} {ret : BkErr}
    (hrun : bkAlarmUnregister id name counter s = some (s', ret)) :
    ∃ l', Linked s' l' ∧ (FollowsHead s' ∨ SameHead s s') := by
  unfold bkAlarmUnregister at hrun
  split at hrun
  · cases hrun
    exact ⟨l, h, .inr ⟨rfl, rfl, rfl⟩⟩
  rcases alarmRemoveNode_chain h.chain name with
    ⟨hnone, -⟩ | ⟨t, pre, q, post, rfl, hsome, -, -, hrem, -, hchain, -⟩
  · rw [hnone] at hrun
    simp only at hrun
    split at hrun
    · split at hrun
      · cases hrun
      · rename_i hreset
        cases hrun
        obtain ⟨hlinked, hfollows, -⟩ := resetTick_followsHead h hreset
        exact ⟨l, hlinked, .inl hfollows⟩
    · cases hrun
      exact ⟨l, h, .inr ⟨rfl, rfl, rfl⟩⟩
  · have hlinked := h.removed hrem hchain
    rw [hsome] at hrun
    simp only at hrun
    split at hrun
    · split at hrun
      · cases hrun
      · rename_i hreset
        cases hrun
        obtain ⟨hlinked', hfollows, -⟩ := resetTick_followsHead hlinked hreset
        exact ⟨_, hlinked', .inl hfollows⟩
    · rename_i hhead
      cases hrun
      refine ⟨_, hlinked, .inr ?_⟩
      cases pre with
      | nil => exact absurd h.chain.head_eq hhead
      | cons =>
        have hsame : s'.alarmHead = s.alarmHead := hchain.1.trans h.chain.1.symm
        refine ⟨hsame, headTick_eq hsame fun r hr => ?_, removeLoop_tickVal hsome⟩
        exact hrem.expiryOf_eq fun hrq => hhead (hrq ▸ hr)

theorem Linked.requested (hfree : s.busyBits p = false) (node : AlarmNode) :
    Linked (requested s p node) l := by
  have hne : ∀ q ∈ l, q ≠ p := fun q hq hqp => h.not_mem_of_free hfree (hqp ▸ hq)
  constructor
  · refine h.chain.congr fun q hq => ?_
    exact congrArg AlarmNode.next (update_of_ne (hne q hq) _ _)
  · intro q hq
    refine (update_of_ne (hne q hq) _ _).trans ?_
    exact h.busy q hq

theorem Linked.release (hp : p ∉ l) : Linked (aonRtcReleaseNode s p) l := by
  have hne : ∀ q ∈ l, q ≠ p := fun q hq hqp => hp (hqp ▸ hq)
  constructor
  · exact h.chain.congr fun q hq => nextOf_releaseNode (hne q hq)
  · intro q hq
    refine (update_of_ne (hne q hq) _ _).trans ?_
    exact h.busy q hq

theorem Linked.head_behind {t : AonRtc} {key : NodePtr → Nat} (ht : Linked t (insertByKey key p l))
    (hhead : t.alarmHead ≠ some p) : t.alarmHead = s.alarmHead ∧ t.alarmHead ≠ none := by
  cases l with
  | nil => exact absurd ht.chain.1 hhead
  | cons q =>
    rcases Nat.lt_or_ge (key p) (key q) with hlt | hle
    · rw [insertByKey_cons_of_lt key hlt] at ht
      exact absurd ht.chain.1 hhead
    · rw [insertByKey_cons_of_le key hle] at ht
      rw [ht.chain.1, h.chain.1]
      exact ⟨rfl, by simp⟩

theorem register_follows {id : Nat} {info : Option AlarmInfo} {ret : BkErr}
    (hrun : bkAlarmRegister id info counter s = some (s', ret)) :
    ∃ l', Linked s' l' ∧ (FollowsHead s' ∨ SameHead s s') ∧ (ret = .ok → s'.alarmHead ≠ none) := by
  rcases bkAlarmRegister_cases hrun with ⟨hret, rfl⟩ | ⟨i, p, s3, rfl, -, hfree, hended⟩
  · exact ⟨l, h, .inr ⟨rfl, rfl, rfl⟩, fun hok => absurd hok hret⟩
  · have hout := h.not_mem_of_free hfree
    have hreq := h.requested hfree (i.toNode (bkAonRtcGetCurrentTick s (counter 0)))
    have hbusy : (requested s p (i.toNode (bkAonRtcGetCurrentTick s (counter 0)))).busyBits p =
        true := update_self _ _ _
    have hunlinked : nextOf (requested s p
        (i.toNode (bkAonRtcGetCurrentTick s (counter 0)))) p = none := by
      simp only [nextOf, requested, AonRtc.modifyNode, update_self]
      rfl
    have hkeep : ∀ q, s.alarmHead = some q → q ≠ p := by
      rintro q hq rfl
      exact hout (List.mem_of_mem_head? (h.chain.head_eq.symm.trans hq))
    cases hended with
    | refused hins =>
      rcases alarmInsertNode_linked hreq hout hunlinked hbusy hins with
        ⟨-, rfl⟩ | ⟨habsurd, -⟩
      · refine ⟨l, hreq.release hout, .inr ⟨rfl, headTick_eq rfl fun q hq => ?_, rfl⟩, ?_⟩
        · simp only [expiryOf, aonRtcReleaseNode, AonRtc.modifyNode, requested,
            update_of_ne (hkeep q hq)]
        · intro hok
          cases hok
      · cases habsurd
    | inFront s4 hins hhead harmed =>
      rcases alarmInsertNode_linked hreq hout hunlinked hbusy hins with
        ⟨habsurd, -⟩ | ⟨-, -, hlinked⟩
      · cases habsurd
      · obtain ⟨hl, hfollows, hsame⟩ := resetTick_followsHead hlinked harmed
        refine ⟨_, hl.congr (fun _ _ => rfl) rfl rfl, .inl hfollows, fun _ hnone => ?_⟩
        rw [hsame, hhead] at hnone
        cases hnone
    | behind hins hhead =>
      rcases alarmInsertNode_linked hreq hout hunlinked hbusy hins with
        ⟨habsurd, -⟩ | ⟨-, hrel, hlinked⟩
      · cases habsurd
      · obtain ⟨hsame, hsome⟩ := h.head_behind hlinked hhead
        refine ⟨_, hlinked.congr (fun _ _ => rfl) rfl rfl, .inr ⟨hsame, ?_, ?_⟩, fun _ => hsome⟩
        · refine headTick_eq hsame fun r hr => ?_
          refine (congrFun hrel.expiryOf_eq r).trans ?_
          simp only [expiryOf, requested, AonRtc.modifyNode, update_of_ne (hkeep r hr)]
        · have hval := alarmInsertNode_tickVal hins
          exact hval

end

end Steps

structure CompareInv (r : Observed) : Prop where
  linked : ∃ l, Linked r.rtc l
  follows : r.registered = true ∨ r.rtc.alarmHead ≠ none → FollowsHead r.rtc

theorem compareInv_init : CompareInv Observed.init where
  linked := ⟨[], linked_init⟩
  follows h := by
    rcases h with h | h
    · cases h
    · exact absurd rfl h

theorem alarmStep_follows {s s' : AonRtc} {l : List NodePtr} (e : AlarmEvent)
    (h : Linked s l) (hstep : alarmStep s e = some s') :
    ∃ l', Linked s' l' ∧ (FollowsHead s' ∨ SameHead s s') ∧
      (registers s e = true → s'.alarmHead ≠ none) := by
  cases e with
  | register =>
    obtain ⟨⟨t, ret⟩, hrun, rfl⟩ := Option.map_eq_some_iff.mp hstep
    obtain ⟨l', hl', hfollows, hok⟩ := register_follows h hrun
    refine ⟨l', hl', hfollows, fun hreg => hok ?_⟩
    rw [registers, hrun] at hreg
    exact of_decide_eq_true hreg
  | unregister =>
    obtain ⟨⟨t, ret⟩, hrun, rfl⟩ := Option.map_eq_some_iff.mp hstep
    obtain ⟨l', hl', hfollows⟩ := unregister_follows h hrun
    exact ⟨l', hl', hfollows, fun hreg => by cases hreg⟩
  | interrupt =>
    obtain ⟨l', hl', hfollows⟩ := interrupt_follows h hstep
    exact ⟨l', hl', hfollows, fun hreg => by cases hreg⟩

theorem CompareInv.observe {r r' : Observed} {e : AlarmEvent} (h : CompareInv r)
    (hstep : observe r e = some r') : CompareInv r' := by
  obtain ⟨s, hs, rfl⟩ := Option.map_eq_some_iff.mp hstep
  obtain ⟨l, hl⟩ := h.linked
  obtain ⟨l', hl', hfollows, hreg⟩ := alarmStep_follows e hl hs
  refine ⟨⟨l', hl'⟩, fun hever => ?_⟩
  rcases hfollows with hfollows | hsame
  · exact hfollows
  · refine hsame.followsHead (h.follows ?_)
    by_cases hhead : s.alarmHead = none
    · rcases hever with hever | hever
      · rcases Bool.or_eq_true_iff.mp hever with hever | hever
        · exact .inl hever
        · exact absurd hhead (hreg hever)
      · exact absurd hhead hever
    · right
      rw [← hsame.head]
      exact hhead

/-- Whatever the order of registrations, removals and interrupts, and however late the
interrupts come: once an alarm was registered, the compare register holds the tick of the
head, or the round tick if there is no alarm. -/
theorem reached_followsHead {r : Observed} (h : Reached observe anyStep Observed.init r)
    (hregistered : r.registered = true) : FollowsHead r.rtc := by
  have hinv : CompareInv r := h.invariant CompareInv compareInv_init
    fun _ _ _ hr _ hstep => hr.observe hstep
  exact hinv.follows (.inl hregistered)

-- The late interrupt that loses the first alarm, and one more registration.
theorem reached_followsHead_late : ∃ r : Observed, r.rtc.tickVal = 900 ∧ FollowsHead r.rtc := by
  obtain ⟨r, hreached, hregistered, hval⟩ := exists_reached observe anyStep Observed.init
    (fun r => r.registered = true ∧ r.rtc.tickVal = 900)
    [registration 97 100 alarmLoopForever 0, registration 98 200 1 10,
      .interrupt true false fun _ => 500, registration 99 400 1 500] (by decide)
  exact ⟨r, hval, reached_followsHead hreached hregistered⟩

end BekenSoc.AonRtcCompare
