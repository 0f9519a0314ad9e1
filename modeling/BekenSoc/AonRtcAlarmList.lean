import Mathlib.Data.Fintype.Card
import BekenSoc.AonRtcDriver
import BekenSoc.LinkedChain

namespace BekenSoc.AonRtcAlarmList

open Function CRuntime LinkedChain AonRtcDriver List

variable {s s' : AonRtc} {l pre post : List NodePtr} {p q r : NodePtr} {head : Option NodePtr}
  {name : List UInt8}

def nextOf (s : AonRtc) (p : NodePtr) : Option NodePtr := (s.nodes p).next

def expiryOf (s : AonRtc) (p : NodePtr) : Nat := (s.nodes p).expiredTick

def SameName (s : AonRtc) (p q : NodePtr) : Prop :=
  strncmpEq alarmNameMaxLen (s.nodes p).name (s.nodes q).name = true

/-- The nodes of `l` are the alarm list of the unit: linked from the head in
this order, sorted by expiry, with distinct names, counted, and exactly the
busy nodes of the pool. -/
structure WellFormed (s : AonRtc) (l : List NodePtr) : Prop where
  chain : Chain (nextOf s) s.alarmHead l
  sorted : KeySorted (expiryOf s) l
  names : l.Pairwise fun p q => ¬ SameName s p q
  count : s.alarmNodeCnt = l.length
  busy : ∀ p, s.busyBits p = true ↔ p ∈ l

structure Detached (s : AonRtc) (l : List NodePtr) (p : NodePtr) : Prop where
  chain : Chain (nextOf s) s.alarmHead l
  sorted : KeySorted (expiryOf s) l
  names : l.Pairwise fun p q => ¬ SameName s p q
  count : s.alarmNodeCnt = l.length
  busy : ∀ q, s.busyBits q = true ↔ q = p ∨ q ∈ l
  outside : p ∉ l
  unlinked : nextOf s p = none

structure Relinked (s s' : AonRtc) : Prop where
  data : ∀ q, s'.nodes q = { s.nodes q with next := (s'.nodes q).next }
  busy : s'.busyBits = s.busyBits
  highTick : s'.highTick = s.highTick

def Kept (s s' : AonRtc) (l : List NodePtr) : Prop :=
  ∀ q ∈ l, s'.nodes q = { s.nodes q with next := (s'.nodes q).next }

theorem Kept.of_eq (h : ∀ q ∈ l, s'.nodes q = s.nodes q) : Kept s s' l := by
  intro q hq
  rw [h q hq]

theorem Kept.trans {s'' : AonRtc} (h : Kept s s' l) (h' : Kept s' s'' l) : Kept s s'' l := by
  intro q hq
  rw [h' q hq, h q hq]

theorem Kept.name_eq (h : Kept s s' l) (hq : q ∈ l) : (s'.nodes q).name = (s.nodes q).name := by
  rw [h q hq]

theorem SameName.symm (h : SameName s p q) : SameName s q p := by
  rw [SameName, strncmpEq_comm]
  exact h

theorem Relinked.expiryOf_eq (h : Relinked s s') : expiryOf s' = expiryOf s := by
  funext q
  have hq := congrArg AlarmNode.expiredTick (h.data q)
  exact hq

theorem Relinked.sameName_iff (h : Relinked s s') (p q : NodePtr) :
    SameName s' p q ↔ SameName s p q := by
  have hp := congrArg AlarmNode.name (h.data p)
  have hq := congrArg AlarmNode.name (h.data q)
  rw [SameName, SameName, hp, hq]

theorem length_le_maxAlarmCnt (h : Chain (nextOf s) head l) : l.length ≤ maxAlarmCnt := by
  have hcard := h.nodup.length_le_card
  simpa using hcard

theorem WellFormed.length_le (h : WellFormed s l) : l.length ≤ maxAlarmCnt :=
  length_le_maxAlarmCnt h.chain

section

variable (hnodes : ∀ q ∈ l, s'.nodes q = s.nodes q)
include hnodes

theorem chain_congr (h : Chain (nextOf s) head l) : Chain (nextOf s') head l :=
  h.congr fun q hq => congrArg AlarmNode.next (hnodes q hq)

theorem sorted_congr (h : KeySorted (expiryOf s) l) : KeySorted (expiryOf s') l :=
  KeySorted.congr h fun q hq => congrArg AlarmNode.expiredTick (hnodes q hq)

theorem names_congr (h : l.Pairwise fun p q => ¬ SameName s p q) :
    l.Pairwise fun p q => ¬ SameName s' p q := by
  refine List.Pairwise.imp_of_mem ?_ h
  intro a b ha hb hab
  simp only [SameName, hnodes a ha, hnodes b hb]
  exact hab

end

theorem WellFormed.congr (h : WellFormed s l) (hnodes : ∀ q ∈ l, s'.nodes q = s.nodes q)
    (hbusy : s'.busyBits = s.busyBits) (hhead : s'.alarmHead = s.alarmHead)
    (hcount : s'.alarmNodeCnt = s.alarmNodeCnt) : WellFormed s' l := by
  refine ⟨?_, sorted_congr hnodes h.sorted, names_congr hnodes h.names, ?_, ?_⟩
  · rw [hhead]
    exact chain_congr hnodes h.chain
  · rw [hcount]
    exact h.count
  · rw [hbusy]
    exact h.busy

theorem WellFormed.names_of_perm {others : List NodePtr} (h : WellFormed s l)
    (hperm : l.Perm (p :: others)) : ∀ q ∈ others, ¬ SameName s p q := by
  have hnames := (hperm.pairwise_iff fun {a b} hab hba =>
    hab (SameName.symm hba)).mp h.names
  exact (pairwise_cons.mp hnames).1

theorem nameRegistered_eq (fuel : Nat) (hchain : Chain (nextOf s) head l) (hfuel : l.length ≤ fuel)
    : nameRegistered s name fuel head =
      some (l.any fun q => strncmpEq alarmNameMaxLen (s.nodes q).name name) := by
  induction l generalizing head fuel with
  | nil =>
    subst hchain
    cases fuel <;> rfl
  | cons q l ih =>
    obtain ⟨rfl, htail⟩ := hchain
    cases fuel with
    | zero => simp at hfuel
    | succ fuel =>
      rw [nameRegistered, any_cons]
      cases hq : strncmpEq alarmNameMaxLen (s.nodes q).name name with
      | true => simp
      | false =>
        have hrest := ih fuel htail (by simpa using hfuel)
        simpa [nextOf] using hrest

@[simp] theorem nextOf_setNext (s : AonRtc) (p q : NodePtr) (r : Option NodePtr) :
    nextOf (s.setNext p r) q = if q = p then r else nextOf s q := by
  by_cases h : q = p <;>
    simp [nextOf, AonRtc.setNext, AonRtc.modifyNode, update, h]

@[simp] theorem nextOf_setHead (s : AonRtc) (r : Option NodePtr) :
    nextOf (s.setHead r) = nextOf s := rfl

@[simp] theorem nextOf_incCnt (s : AonRtc) : nextOf s.incCnt = nextOf s := by
  funext q
  simp only [nextOf, AonRtc.incCnt]

@[simp] theorem nextOf_decCnt (s : AonRtc) : nextOf s.decCnt = nextOf s := by
  funext q
  simp only [nextOf, AonRtc.decCnt]

theorem Relinked.refl (s : AonRtc) : Relinked s s := ⟨fun _ => rfl, rfl, rfl⟩

theorem Relinked.setNext (h : Relinked s s') (p : NodePtr) (r : Option NodePtr) :
    Relinked s (s'.setNext p r) := by
  refine { h with data := fun q => ?_ }
  by_cases hq : q = p
  · subst hq
    simp only [AonRtc.setNext, AonRtc.modifyNode, update_self]
    rw [h.data q]
  · simp only [AonRtc.setNext, AonRtc.modifyNode, update_of_ne hq]
    exact h.data q

theorem Relinked.setHead (h : Relinked s s') (r : Option NodePtr) : Relinked s (s'.setHead r) :=
  { h with }

theorem Relinked.incCnt (h : Relinked s s') : Relinked s s'.incCnt := { h with }

structure Inserted (s s' : AonRtc) (l : List NodePtr) : Prop where
  relinked : Relinked s s'
  chain : Chain (nextOf s') s'.alarmHead l
  count : s'.alarmNodeCnt = addU32 s.alarmNodeCnt 1

theorem insertLoop_spec {cur : NodePtr} {rest : List NodePtr} (fuel : Nat)
    (hchain : Chain (nextOf s) (nextOf s cur) rest) (hcur : cur ∉ rest) (hp : p ∉ cur :: rest)
    (hunlinked : nextOf s p = none) (hle : expiryOf s cur ≤ expiryOf s p)
    (hfuel : rest.length ≤ fuel) : ∃ s', insertLoop s p fuel cur (nextOf s cur) = some s' ∧
      Relinked s s' ∧ s'.alarmHead = s.alarmHead ∧ s'.alarmNodeCnt = addU32 s.alarmNodeCnt 1 ∧
      Chain (nextOf s') (nextOf s' cur) (insertByKey (expiryOf s) p rest) ∧
      ∀ q, q ∉ p :: cur :: rest → nextOf s' q = nextOf s q := by
  have hpcur : p ≠ cur := fun h => hp (by simp [h])
  induction rest generalizing cur fuel with
  | nil =>
    refine ⟨(s.setNext cur (some p)).incCnt, ?_,
      ((Relinked.refl s).setNext cur _).incCnt, rfl, rfl, ?_, ?_⟩
    · rw [hchain]
      cases fuel <;> rfl
    · simp [hpcur, hunlinked]
    · intro q hq
      have hqcur : q ≠ cur := fun h => hq (by simp [h])
      simp [hqcur]
  | cons next rest ih =>
    obtain ⟨hnext, htail⟩ := hchain
    have hnotin := nodup_cons.mp (Chain.nodup ⟨rfl, htail⟩ : (next :: rest).Nodup)
    have hcurNext : cur ≠ next := fun h => hcur (by simp [h])
    have hpNext : p ≠ next := fun h => hp (by simp [h])
    rw [hnext]
    cases fuel with
    | zero => simp at hfuel
    | succ fuel =>
      by_cases hlt : expiryOf s p < expiryOf s next
      · refine ⟨((s.setNext p (some next)).setNext cur (some p)).incCnt, ?_,
          (((Relinked.refl s).setNext p _).setNext cur _).incCnt, rfl, rfl, ?_, ?_⟩
        · unfold expiryOf at hle hlt
          rw [insertLoop, if_pos hle, if_neg (Nat.not_le.mpr hlt)]
        · rw [insertByKey_cons_of_lt _ hlt]
          simp only [nextOf_incCnt, LinkedChain.chain_cons, nextOf_setNext, if_pos,
            if_neg hpcur, true_and]
          rw [if_neg (Ne.symm hcurNext), if_neg (Ne.symm hpNext)]
          refine htail.congr fun q hq => ?_
          have hqcur : q ≠ cur := fun h => hcur (by simp [← h, hq])
          have hqp : q ≠ p := fun h => hp (by simp [← h, hq])
          simp [hqcur, hqp]
        · intro q hq
          have hqcur : q ≠ cur := fun h => hq (by simp [h])
          have hqp : q ≠ p := fun h => hq (by simp [h])
          simp [hqcur, hqp]
      · have hnextle : expiryOf s next ≤ expiryOf s p := Nat.not_lt.mp hlt
        obtain ⟨s', hrun, hrel, hhead, hcnt, hch, hframe⟩ :=
          ih fuel htail hnotin.1 (fun h => hp (by simp [h])) hnextle (by simpa using hfuel) hpNext
        refine ⟨s', ?_, hrel, hhead, hcnt, ?_, ?_⟩
        · unfold expiryOf at hle hnextle
          rw [insertLoop, if_pos hle, if_pos hnextle]
          exact hrun
        · rw [insertByKey_cons_of_le _ hnextle, LinkedChain.chain_cons, hframe cur ?_, hnext]
          · exact ⟨rfl, hch⟩
          · intro hmem
            rcases mem_cons.mp hmem with h | hmem
            · exact hpcur h.symm
            · exact hcur hmem
        · intro q hq
          exact hframe q fun hmem => hq (by
            rcases mem_cons.mp hmem with h | hmem
            · simp [h]
            · simp [hmem])

theorem Detached.length_lt (h : Detached s l p) : l.length < maxAlarmCnt := by
  have hnodup : (p :: l).Nodup := nodup_cons.mpr ⟨h.outside, h.chain.nodup⟩
  have hcard := hnodup.length_le_card
  exact hcard

theorem alarmInsertNode_of_registered (hlist : Chain (nextOf s) s.alarmHead l)
    (hname : ∃ q ∈ l, SameName s q p) : alarmInsertNode s p = some (s, false) := by
  have hany : (l.any fun q => strncmpEq alarmNameMaxLen (s.nodes q).name
      (s.nodes p).name) = true := by
    obtain ⟨q, hq, hsame⟩ := hname
    exact List.any_eq_true.mpr ⟨q, hq, hsame⟩
  rw [alarmInsertNode, nameRegistered_eq maxAlarmCnt hlist (length_le_maxAlarmCnt hlist), hany]

theorem alarmInsertNode_chain (hlist : Chain (nextOf s) s.alarmHead l) (houtside : p ∉ l)
    (hunlinked : nextOf s p = none) (hname : ∀ q ∈ l, ¬ SameName s q p) :
    ∃ s', alarmInsertNode s p = some (s', true) ∧ Inserted s s' (insertByKey (expiryOf s) p l) ∧
      ∀ q, q ∉ p :: l → nextOf s' q = nextOf s q := by
  have hany : (l.any fun q => strncmpEq alarmNameMaxLen (s.nodes q).name
      (s.nodes p).name) = false := by
    refine any_eq_false.mpr fun q hq => ?_
    exact hname q hq
  have hchain := hlist
  rw [alarmInsertNode, nameRegistered_eq maxAlarmCnt hlist (length_le_maxAlarmCnt hlist), hany]
  cases l with
  | nil =>
    rw [chain_nil] at hchain
    refine ⟨(s.setHead (some p)).incCnt, by simp [hchain],
      ⟨((Relinked.refl s).setHead _).incCnt, ?_, rfl⟩, fun q _ => by simp⟩
    refine ⟨rfl, ?_⟩
    simpa using hunlinked
  | cons cur rest =>
    obtain ⟨hhead, htail⟩ := hchain
    have hcur : cur ∉ rest := (nodup_cons.mp hlist.nodup).1
    have hpcur : p ≠ cur := fun hp => houtside (by simp [hp])
    have hbefore : Inserted s ((s.setNext p (some cur)).setHead (some p)).incCnt
        (p :: cur :: rest) := by
      refine ⟨(((Relinked.refl s).setNext p _).setHead _).incCnt, ?_, rfl⟩
      refine ⟨rfl, by simp, ?_⟩
      simp only [nextOf_incCnt, nextOf_setHead, nextOf_setNext, if_neg (Ne.symm hpcur)]
      refine htail.congr fun q hq => ?_
      have hqp : q ≠ p := fun hqp => houtside (by simp [← hqp, hq])
      simp [hqp]
    by_cases hle : expiryOf s cur ≤ expiryOf s p
    · obtain ⟨s', hrun, hrel, hh, hcnt, hch, hframe⟩ :=
        insertLoop_spec maxAlarmCnt htail hcur houtside hunlinked hle
          (by have := length_le_maxAlarmCnt hlist; simp at this; omega)
      refine ⟨s', ?_, ⟨hrel, ?_, hcnt⟩, hframe⟩
      · cases hnext : nextOf s cur with
        | none =>
          have hs : (s.setNext cur (some p)).incCnt = s' := by
            rw [hnext] at hrun
            exact Option.some.inj hrun
          have hle' := hle
          unfold expiryOf at hle'
          unfold nextOf at hnext
          simp only [hhead, hnext, if_pos hle', hs]
        | some =>
          rw [hnext] at hrun
          unfold nextOf at hnext
          simp only [hhead, hnext, hrun]
      · rw [insertByKey_cons_of_le _ hle, hh, hhead]
        exact ⟨rfl, hch⟩
    · rw [insertByKey_cons_of_lt _ (Nat.not_le.mp hle)]
      refine ⟨_, ?_, hbefore, ?_⟩
      · unfold expiryOf at hle
        cases hnext : (s.nodes cur).next with
        | none => simp only [hhead, hnext, if_neg hle]
        | some => simp only [hhead, hnext, insertLoop, maxAlarmCnt, if_neg hle]
      · intro q hq
        have hqp : q ≠ p := fun hqp => hq (by simp [hqp])
        simp [hqp]

theorem alarmInsertNode_of_new (h : Detached s l p) (hname : ∀ q ∈ l, ¬ SameName s q p) :
    ∃ s', alarmInsertNode s p = some (s', true) ∧ Inserted s s' (insertByKey (expiryOf s) p l) ∧
      ∀ q, q ∉ p :: l → nextOf s' q = nextOf s q :=
  alarmInsertNode_chain h.chain h.outside h.unlinked hname

theorem Inserted.names (hins : Inserted s s' (insertByKey (expiryOf s) p l))
    (hname : ∀ q ∈ l, ¬ SameName s q p) (h : l.Pairwise fun p q => ¬ SameName s p q) :
    (insertByKey (expiryOf s) p l).Pairwise fun p q => ¬ SameName s' p q := by
  simp only [hins.relinked.sameName_iff]
  refine ((insertByKey_perm _ p l).pairwise_iff ?_).mpr ?_
  · intro a b hab hba
    exact hab hba.symm
  · exact pairwise_cons.mpr ⟨fun q hq hsame => hname q hq hsame.symm, h⟩

theorem Detached.wellFormed_of_inserted (h : Detached s l p) (hname : ∀ q ∈ l, ¬ SameName s q p)
    (hins : Inserted s s' (insertByKey (expiryOf s) p l)) :
    WellFormed s' (insertByKey (expiryOf s) p l) where
  chain := hins.chain
  sorted := by
    rw [hins.relinked.expiryOf_eq]
    exact h.sorted.insertByKey _ p
  names := hins.names hname h.names
  count := by
    have hlt := h.length_lt
    unfold maxAlarmCnt at hlt
    rw [hins.count, h.count, length_insertByKey, addU32]
    omega
  busy := by
    intro q
    rw [hins.relinked.busy, h.busy, mem_insertByKey]

structure Removed (s s' : AonRtc) (q : NodePtr) : Prop where
  data : ∀ r, r ≠ q → s'.nodes r = { s.nodes r with next := (s'.nodes r).next }
  busy : s'.busyBits = update s.busyBits q false
  count : s'.alarmNodeCnt = subU32 s.alarmNodeCnt 1
  highTick : s'.highTick = s.highTick

theorem Removed.expiryOf_eq (h : Removed s s' q) (hr : r ≠ q) : expiryOf s' r = expiryOf s r := by
  have hdata := congrArg AlarmNode.expiredTick (h.data r hr)
  exact hdata

theorem Removed.sameName_iff {t : NodePtr} (h : Removed s s' q) (hr : r ≠ q) (ht : t ≠ q) :
    SameName s' r t ↔ SameName s r t := by
  have hrname := congrArg AlarmNode.name (h.data r hr)
  have htname := congrArg AlarmNode.name (h.data t ht)
  rw [SameName, SameName, hrname, htname]

theorem WellFormed.of_removed (h : WellFormed s (pre ++ q :: post)) (hrem : Removed s s' q)
    (hchain : Chain (nextOf s') s'.alarmHead (pre ++ post)) : WellFormed s' (pre ++ post) := by
  have hperm : (pre ++ q :: post).Perm (q :: (pre ++ post)) := perm_middle
  have hnodup : (q :: (pre ++ post)).Nodup := hperm.nodup_iff.mp h.chain.nodup
  have hne : ∀ r ∈ pre ++ post, r ≠ q := by
    intro r hr hrq
    exact (nodup_cons.mp hnodup).1 (hrq ▸ hr)
  have hsub : List.Sublist (pre ++ post) (pre ++ q :: post) :=
    (List.Sublist.refl pre).append (sublist_cons_self q post)
  refine ⟨hchain, ?_, ?_, ?_, ?_⟩
  · exact KeySorted.congr (h.sorted.sublist hsub) fun r hr =>
      hrem.expiryOf_eq (hne r hr)
  · refine List.Pairwise.imp_of_mem ?_ (h.names.sublist hsub)
    intro a b ha hb hab
    rw [hrem.sameName_iff (hne a ha) (hne b hb)]
    exact hab
  · have hlen := h.length_le
    unfold maxAlarmCnt at hlen
    rw [hrem.count, h.count, subU32, hperm.length_eq, length_cons]
    rw [hperm.length_eq, length_cons] at hlen
    omega
  · intro r
    rw [hrem.busy]
    by_cases hrq : r = q
    · subst hrq
      simp only [update_self, Bool.false_eq_true, false_iff]
      exact (nodup_cons.mp hnodup).1
    · rw [update_of_ne hrq, h.busy]
      simp [hrq]

theorem removed_releaseNode (h : Relinked s s') (hcnt : s'.alarmNodeCnt = subU32 s.alarmNodeCnt 1) :
    Removed s (aonRtcReleaseNode s' q) q where
  data := by
    intro r hr
    simp only [aonRtcReleaseNode, AonRtc.modifyNode, update_of_ne hr]
    exact h.data r
  busy := by
    rw [← h.busy]
    rfl
  count := hcnt
  highTick := h.highTick

theorem nextOf_releaseNode (hr : r ≠ q) : nextOf (aonRtcReleaseNode s q) r = nextOf s r := by
  simp [nextOf, aonRtcReleaseNode, AonRtc.modifyNode, update_of_ne hr]

/-- A node that the release has cleared.  Its repeat count may have been counted down
once more by an expiry loop that still held a pointer to it. -/
def Cleared (n : AlarmNode) : Prop :=
  n.next = none ∧ n.callback = none ∧ (n.periodCnt = 0 ∨ n.periodCnt = alarmLoopForever)

def FreeCleared (s : AonRtc) : Prop := ∀ p, s.busyBits p = false → Cleared (s.nodes p)

theorem cleared_releaseNode (s : AonRtc) (p : NodePtr) :
    Cleared ((aonRtcReleaseNode s p).nodes p) := by
  simp only [aonRtcReleaseNode, AonRtc.modifyNode, update_self]
  exact ⟨rfl, rfl, .inl rfl⟩

theorem FreeCleared.congr (h : FreeCleared s) (hnodes : s'.nodes = s.nodes)
    (hbusy : s'.busyBits = s.busyBits) : FreeCleared s' := by
  intro p hp
  rw [hnodes]
  exact h p (hbusy ▸ hp)

theorem FreeCleared.of_frame (h : FreeCleared s) (hframe : ∀ p, s'.busyBits p = false →
      Cleared (s'.nodes p) ∨ s.busyBits p = false ∧ s'.nodes p = s.nodes p)
    : FreeCleared s' := by
  intro p hp
  rcases hframe p hp with hcleared | ⟨hfree, hsame⟩
  · exact hcleared
  · rw [hsame]
    exact h p hfree

theorem Relinked.nodes_eq (h : Relinked s s') (hnext : nextOf s' q = nextOf s q) :
    s'.nodes q = s.nodes q := by
  have hdata := h.data q
  unfold nextOf at hnext
  rw [hnext] at hdata
  exact hdata

theorem Removed.nodes_eq (h : Removed s s' q) (hr : r ≠ q) (hnext : nextOf s' r = nextOf s r) :
    s'.nodes r = s.nodes r := by
  have hdata := h.data r hr
  unfold nextOf at hnext
  rw [hnext] at hdata
  exact hdata

theorem FreeCleared.of_removed (hfree : FreeCleared s) (h : WellFormed s (pre ++ q :: post))
    (hrem : Removed s s' q) (hcleared : Cleared (s'.nodes q))
    (hframe : ∀ r, r ∉ pre ++ q :: post → nextOf s' r = nextOf s r) : FreeCleared s' := by
  refine hfree.of_frame fun r hr => ?_
  by_cases hrq : r = q
  · exact .inl (hrq ▸ hcleared)
  · rw [hrem.busy, update_of_ne hrq] at hr
    refine .inr ⟨hr, hrem.nodes_eq hrq (hframe r fun hmem => ?_)⟩
    rw [(h.busy r).mpr hmem] at hr
    cases hr

theorem Relinked.decCnt (h : Relinked s s') : Relinked s s'.decCnt := by
  unfold AonRtc.decCnt
  exact ⟨h.data, h.busy, h.highTick⟩

theorem removeLoop_of_absent {s : AonRtc} {name : List UInt8}
    {previous head : Option NodePtr} {l : List NodePtr} (fuel : Nat)
    (hchain : Chain (nextOf s) head l) (hfuel : l.length ≤ fuel)
    (habsent : ∀ q ∈ l, strncmpEq alarmNameMaxLen (s.nodes q).name name = false) :
    removeLoop s name fuel previous head = some (s, none) := by
  induction l generalizing head previous fuel with
  | nil =>
    subst hchain
    cases fuel <;> rfl
  | cons q l ih =>
    obtain ⟨rfl, htail⟩ := hchain
    cases fuel with
    | zero => simp at hfuel
    | succ fuel =>
      have hrest := @ih (some q) _ fuel htail
        (by simpa using hfuel) fun r hr => habsent r (by simp [hr])
      simp only [removeLoop, habsent q (by simp)]
      exact hrest

theorem removeLoop_of_present {prev : NodePtr} (fuel : Nat)
    (hchain : Chain (nextOf s) (nextOf s prev) (pre ++ q :: post))
    (hnodup : (prev :: (pre ++ q :: post)).Nodup) (hfuel : (pre ++ q :: post).length ≤ fuel)
    (hpre : ∀ r ∈ pre, strncmpEq alarmNameMaxLen (s.nodes r).name name = false)
    (hq : strncmpEq alarmNameMaxLen (s.nodes q).name name = true) :
    ∃ s', removeLoop s name fuel (some prev) (nextOf s prev) = some (s', some q) ∧
      Removed s s' q ∧ Cleared (s'.nodes q) ∧ s'.alarmHead = s.alarmHead ∧
      Chain (nextOf s') (nextOf s' prev) (pre ++ post) ∧
      ∀ r, r ∉ prev :: (pre ++ q :: post) → nextOf s' r = nextOf s r := by
  induction pre generalizing prev fuel with
  | nil =>
    obtain ⟨hnext, htail⟩ := hchain
    have hprevq : prev ≠ q := fun h => by simp [h] at hnodup
    cases fuel with
    | zero => simp at hfuel
    | succ =>
      refine ⟨aonRtcReleaseNode (s.setNext prev (nextOf s q)).decCnt q, ?_,
        removed_releaseNode ((Relinked.refl s).setNext prev _).decCnt rfl,
        cleared_releaseNode _ q, rfl, ?_, ?_⟩
      · rw [hnext, removeLoop, hq]
        rfl
      · rw [nextOf_releaseNode hprevq]
        simp only [nextOf_decCnt, nextOf_setNext, if_pos]
        refine htail.congr fun r hr => ?_
        have hrq : r ≠ q := fun h => by
          simp [← h, hr] at hnodup
        have hrprev : r ≠ prev := fun h => by
          simp [← h, hr] at hnodup
        rw [nextOf_releaseNode hrq]
        simp [hrprev]
      · intro r hr
        have hrq : r ≠ q := fun h => hr (by simp [h])
        have hrprev : r ≠ prev := fun h => hr (by simp [h])
        rw [nextOf_releaseNode hrq]
        simp [hrprev]
  | cons cur pre ih =>
    obtain ⟨hnext, htail⟩ := hchain
    have hnodupTail := (nodup_cons.mp hnodup).2
    cases fuel with
    | zero => simp at hfuel
    | succ fuel =>
      obtain ⟨s', hrun, hrem, hcleared, hhead, hch, hframe⟩ :=
        ih fuel htail hnodupTail (by simpa using hfuel)
          fun r hr => hpre r (by simp [hr])
      refine ⟨s', ?_, hrem, hcleared, hhead, ?_, ?_⟩
      · rw [hnext, removeLoop, hpre cur (by simp)]
        exact hrun
      · rw [hframe prev (nodup_cons.mp hnodup).1, hnext]
        exact ⟨rfl, hch⟩
      · intro r hr
        exact hframe r fun hmem => hr (mem_cons_of_mem prev hmem)

theorem alarmRemoveNode_chain (h : Chain (nextOf s) s.alarmHead l) (name : List UInt8) :
    (alarmRemoveNode s name = some (s, none) ∧
        ∀ q ∈ l, strncmpEq alarmNameMaxLen (s.nodes q).name name = false) ∨
      ∃ s' pre q post, l = pre ++ q :: post ∧ alarmRemoveNode s name = some (s', some q) ∧
        strncmpEq alarmNameMaxLen (s.nodes q).name name = true ∧
        (∀ r ∈ pre, strncmpEq alarmNameMaxLen (s.nodes r).name name = false) ∧
        Removed s s' q ∧ Cleared (s'.nodes q) ∧ Chain (nextOf s') s'.alarmHead (pre ++ post) ∧
        ∀ r, r ∉ pre ++ q :: post → nextOf s' r = nextOf s r := by
  cases hfind : l.find? fun q => strncmpEq alarmNameMaxLen (s.nodes q).name name with
  | some q =>
    right
    obtain ⟨hq, pre, post, rfl, hothers⟩ := find?_eq_some_iff_append.mp hfind
    simp only [Bool.not_eq_eq_eq_not, Bool.not_true] at hothers
    have hlen := length_le_maxAlarmCnt h
    have hnodup := h.nodup
    cases pre with
    | nil =>
      obtain ⟨hhead, htail⟩ := h
      refine ⟨_, [], q, post, rfl, ?_, hq, hothers,
        removed_releaseNode ((Relinked.refl s).setHead (nextOf s q)).decCnt rfl,
        cleared_releaseNode _ q, ?_, ?_⟩
      · rw [alarmRemoveNode, hhead, maxAlarmCnt, removeLoop, hq]
        rfl
      · refine htail.congr fun r hr => ?_
        have hrq : r ≠ q := fun hrq => by
          simp [← hrq, hr] at hnodup
        rw [nextOf_releaseNode hrq]
        simp
      · intro r hr
        have hrq : r ≠ q := fun hrq => hr (by simp [hrq])
        rw [nextOf_releaseNode hrq]
        simp
    | cons first pre =>
      obtain ⟨hhead, htail⟩ := h
      obtain ⟨s', hrun, hrem, hcleared, hh, hch, hframe⟩ :=
        removeLoop_of_present 7 htail hnodup (Nat.le_of_succ_le_succ hlen)
          (fun r hr => hothers r (by simp [hr])) hq
      refine ⟨s', first :: pre, q, post, rfl, ?_, hq, hothers, hrem, hcleared, ?_, hframe⟩
      · rw [alarmRemoveNode, hhead, maxAlarmCnt, removeLoop, hothers first (by simp)]
        exact hrun
      · rw [hh, hhead]
        exact ⟨rfl, hch⟩
  | none =>
    left
    simp only [find?_eq_none, Bool.not_eq_true] at hfind
    exact ⟨removeLoop_of_absent maxAlarmCnt h (length_le_maxAlarmCnt h) hfind, hfind⟩

theorem alarmRemoveNode_spec (h : WellFormed s l) (name : List UInt8) :
    (alarmRemoveNode s name = some (s, none) ∧
        ∀ q ∈ l, strncmpEq alarmNameMaxLen (s.nodes q).name name = false) ∨
      ∃ s' pre q post, l = pre ++ q :: post ∧ alarmRemoveNode s name = some (s', some q) ∧
        strncmpEq alarmNameMaxLen (s.nodes q).name name = true ∧
        Removed s s' q ∧ WellFormed s' (pre ++ post) ∧ (FreeCleared s → FreeCleared s') := by
  rcases alarmRemoveNode_chain h.chain name with
    habsent | ⟨s', pre, q, post, rfl, hrun, hname, -, hrem, hcleared, hchain, hframe⟩
  · exact .inl habsent
  · exact .inr ⟨s', pre, q, post, rfl, hrun, hname, hrem, h.of_removed hrem hchain,
      fun hfree => hfree.of_removed h hrem hcleared hframe⟩

/-- The insertion puts a detached node behind every node that expires no later; the removal takes
out one node of that name and gives it back to the pool. -/
theorem alarm_list_operations (hchain : Chain (nextOf s) s.alarmHead l)
    (hcount : s.alarmNodeCnt = l.length) :
    (∀ p, KeySorted (expiryOf s) l → p ∉ l → nextOf s p = none →
      (∃ q ∈ l, SameName s q p) ∧ alarmInsertNode s p = some (s, false) ∨
      (∀ q ∈ l, ¬ SameName s q p) ∧ ∃ s' earlier later, l = earlier ++ later ∧
        alarmInsertNode s p = some (s', true) ∧ Relinked s s' ∧
        Chain (nextOf s') s'.alarmHead (earlier ++ p :: later) ∧ s'.alarmNodeCnt = l.length + 1 ∧
        (∀ q ∈ earlier, expiryOf s q ≤ expiryOf s p) ∧ ∀ q ∈ later, expiryOf s p < expiryOf s q) ∧
    ∀ name, (∀ q ∈ l, strncmpEq alarmNameMaxLen (s.nodes q).name name = false) ∧
        alarmRemoveNode s name = some (s, none) ∨
      ∃ s' pre q post, l = pre ++ q :: post ∧ alarmRemoveNode s name = some (s', some q) ∧
        strncmpEq alarmNameMaxLen (s.nodes q).name name = true ∧
        (∀ r ∈ pre, strncmpEq alarmNameMaxLen (s.nodes r).name name = false) ∧
        Chain (nextOf s') s'.alarmHead (pre ++ post) ∧ Kept s s' (pre ++ post) ∧
        s'.alarmNodeCnt = l.length - 1 ∧ s'.busyBits = update s.busyBits q false := by
  have hlen : l.length ≤ 8 := length_le_maxAlarmCnt hchain
  refine ⟨fun p hsorted hout hunlinked => ?_, fun name => ?_⟩
  · by_cases hname : ∃ q ∈ l, SameName s q p
    · exact .inl ⟨hname, alarmInsertNode_of_registered hchain hname⟩
    · have hnew : ∀ q ∈ l, ¬ SameName s q p := fun q hq hsame => hname ⟨q, hq, hsame⟩
      obtain ⟨s', hrun, hins, -⟩ := alarmInsertNode_chain hchain hout hunlinked hnew
      obtain ⟨earlier, later, hsplit, heq, hle, hlt⟩ := insertByKey_split _ p hsorted
      refine .inr ⟨hnew, s', earlier, later, hsplit, hrun, hins.relinked, heq ▸ hins.chain,
        ?_, hle, hlt⟩
      rw [hins.count, hcount, addU32, Nat.mod_eq_of_lt (by omega)]
  · rcases alarmRemoveNode_chain hchain name with
      ⟨hrun, habsent⟩ | ⟨s', pre, q, post, rfl, hrun, hname, hpre, hrem, -, hch, -⟩
    · exact .inl ⟨habsent, hrun⟩
    · refine .inr ⟨s', pre, q, post, rfl, hrun, hname, hpre, hch, fun r hr => ?_, ?_, hrem.busy⟩
      · refine hrem.data r fun hrq => ?_
        have hnodup := (nodup_cons.mp (perm_middle.nodup_iff.mp hchain.nodup)).1
        exact hnodup (hrq ▸ hr)
      · have hpos : 0 < (pre ++ q :: post).length := by
          simp only [length_append, length_cons]
          omega
        rw [hrem.count, hcount, subU32]
        omega

def node (i : Nat) : NodePtr := ⟨i % maxAlarmCnt, Nat.mod_lt i (by decide)⟩

/-- The alarms `1` and `3`, and a node for an alarm `2` between them. -/
def twoAlarms : AonRtc :=
  { AonRtc.init with
    nodes := fun p => { AlarmNode.zero with
      name := [49 + p.val.toUInt8], expiredTick := 10 * p,
      next := if p = node 0 then some (node 2) else none }
    busyBits := fun p => decide (p.val < 3)
    alarmHead := some (node 0)
    alarmNodeCnt := 2 }

theorem alarm_list_operations_two :
    (∃ s' earlier later, [node 0, node 2] = earlier ++ later ∧
      alarmInsertNode twoAlarms (node 1) = some (s', true) ∧
      Chain (nextOf s') s'.alarmHead (earlier ++ node 1 :: later) ∧ s'.alarmNodeCnt = 3) ∧
    ∃ s' pre q post, [node 0, node 2] = pre ++ q :: post ∧
      alarmRemoveNode twoAlarms [51] = some (s', some q) ∧
      Chain (nextOf s') s'.alarmHead (pre ++ post) ∧ s'.alarmNodeCnt = 1 := by
  obtain ⟨hinsert, hremove⟩ :=
    alarm_list_operations (s := twoAlarms) (l := [node 0, node 2]) ⟨rfl, rfl, rfl⟩ rfl
  constructor
  · obtain ⟨hname, -⟩ | ⟨-, s', earlier, later, hsplit, hrun, -, hchain, hcnt, -⟩ :=
      hinsert (node 1) (pairwise_pair.mpr (Nat.zero_le _)) (by decide) rfl
    · unfold SameName at hname
      exact absurd hname (by decide)
    · exact ⟨s', earlier, later, hsplit, hrun, hchain, hcnt⟩
  · obtain ⟨habsent, -⟩ | ⟨s', pre, q, post, hsplit, hrun, -, -, hchain, -, hcnt, -⟩ :=
      hremove [51]
    · exact absurd habsent (by decide)
    · exact ⟨s', pre, q, post, hsplit, hrun, hchain, hcnt⟩

end BekenSoc.AonRtcAlarmList
