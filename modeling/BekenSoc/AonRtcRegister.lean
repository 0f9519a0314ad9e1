import BekenSoc.AonRtcReentry

namespace BekenSoc.AonRtcRegister

open Function CRuntime LinkedChain GuardedRuns AonRtcDriver AonRtcAlarmList AonRtcRuns AonRtcReentry

variable {s s' : AonRtc} {l : List NodePtr} {p : NodePtr} {r : IsrState} {id : Nat} {i : AlarmInfo}

def listed (s : AonRtc) : List NodePtr := walk s maxAlarmCnt s.alarmHead

def refuses (s : AonRtc) (id : Nat) : Option AlarmInfo → Bool
  | none => true
  | some info =>
    decide (aonRtcIdMax ≤ id) || decide (info.periodTick < precisionTick) ||
      decide (maxAlarmCnt ≤ s.alarmNodeCnt) ||
      (listed s).any fun q =>
        strncmpEq alarmNameMaxLen (s.nodes q).name (info.toNode 0).name

structure SameAlarms (s s' : AonRtc) : Prop where
  head : s'.alarmHead = s.alarmHead
  nodes : ∀ q ∈ listed s, s'.nodes q = s.nodes q
  count : s'.alarmNodeCnt = s.alarmNodeCnt
  busy : s'.busyBits = s.busyBits
  tickVal : s'.tickVal = s.tickVal

theorem SameAlarms.refl (s : AonRtc) : SameAlarms s s := ⟨rfl, fun _ _ => rfl, rfl, rfl, rfl⟩

theorem listed_eq (h : WellFormed s l) : listed s = l := walk_eq maxAlarmCnt h.chain h.length_le

theorem not_mem_of_free (h : WellFormed s l) (hfree : s.busyBits p = false) : p ∉ l :=
  fun hmem => absurd (((h.busy p).mpr hmem).symm.trans hfree) (by decide)

theorem sameAlarms_refused (h : WellFormed s l) (hfree : s.busyBits p = false)
    (node : AlarmNode) : SameAlarms s (aonRtcReleaseNode (requested s p node) p) where
  head := rfl
  nodes := by
    intro q hq
    rw [listed_eq h] at hq
    have hqp : q ≠ p := fun hqp => not_mem_of_free h hfree (hqp ▸ hq)
    simp only [aonRtcReleaseNode, requested, AonRtc.modifyNode, update_of_ne hqp]
  count := rfl
  busy := by
    simp only [aonRtcReleaseNode, requested, AonRtc.modifyNode, update_idem]
    rw [← hfree, update_eq_self]
  tickVal := rfl

theorem requestNode_isSome (h : WellFormed s l) (hroom : s.alarmNodeCnt < maxAlarmCnt) :
    ∃ p, s.busyBits p = false ∧ aonRtcRequestNode s =
      some (p, { s with busyBits := update s.busyBits p true }) := by
  cases hreq : aonRtcRequestNode s with
  | some request =>
    obtain ⟨p, s1⟩ := request
    obtain ⟨hfree, rfl⟩ := aonRtcRequestNode_spec hreq
    exact ⟨p, hfree, rfl⟩
  | none =>
    have hall : ∀ q, q ∈ l := by
      intro q
      unfold aonRtcRequestNode at hreq
      split at hreq
      · cases hreq
      · rename_i hnone
        have hbusy := List.find?_eq_none.mp hnone q (List.mem_finRange q)
        exact (h.busy q).mp (by simpa using hbusy)
    have hle : (List.finRange maxAlarmCnt).length ≤ l.length :=
      ((List.nodup_finRange _).subperm fun q _ => hall q).length_le
    rw [← h.count] at hle
    exact absurd hroom (Nat.not_lt.mpr hle)

theorem sameName_requested {q : NodePtr} (hqp : q ≠ p) (start : Nat) :
    SameName (requested s p (i.toNode start)) q p ↔
      strncmpEq alarmNameMaxLen (s.nodes q).name (i.toNode 0).name = true := by
  simp only [SameName, requested, AonRtc.modifyNode, update_of_ne hqp, update_self]
  rfl

theorem register_past_checks (counter : Nat → Nat) (h : WellFormed s l) (hid : ¬ aonRtcIdMax ≤ id)
    (hperiod : ¬ i.periodTick < precisionTick) (hroom : ¬ maxAlarmCnt ≤ s.alarmNodeCnt)
    (hcnt : i.periodCnt ≠ 0) :
    if (∃ q ∈ l, strncmpEq alarmNameMaxLen (s.nodes q).name (i.toNode 0).name = true) then
      ∃ s', bkAlarmRegister id (some i) counter s = some (s', .fail) ∧ SameAlarms s s'
    else (∃ s', bkAlarmRegister id (some i) counter s = some (s', .ok)) ∨
      bkAlarmRegister id (some i) counter s = none ∧
        addU64 (bkAonRtcGetCurrentTick s (counter 0)) i.periodTick ≤
          addU64 (bkAonRtcGetCurrentTick s (counter 1)) 1 := by
  obtain ⟨p, hfree, hreq⟩ := requestNode_isSome h (Nat.not_le.mp hroom)
  have hdet : Detached (requested s p (i.toNode (bkAonRtcGetCurrentTick s (counter 0)))) l p :=
    detached_requested h hfree rfl
  have hne : ∀ q ∈ l, q ≠ p := fun q hq hqp => hdet.outside (hqp ▸ hq)
  have hstart : bkAonRtcGetCurrentTick { s with busyBits := update s.busyBits p true }
      (counter 0) = bkAonRtcGetCurrentTick s (counter 0) := rfl
  split
  · rename_i hname
    obtain ⟨q, hq, hsame⟩ := hname
    have hmet := alarmInsertNode_of_registered hdet.chain
      ⟨q, hq, (sameName_requested (hne q hq) _).mpr hsame⟩
    unfold requested at hmet
    rw [bkAlarmRegister, if_neg hid]
    simp only [if_neg hperiod, if_neg hroom, hreq, if_neg hcnt, hstart, hmet]
    exact ⟨_, rfl, sameAlarms_refused h hfree _⟩
  · rename_i hname
    obtain ⟨t, hplaced, ⟨hrel, -⟩, -⟩ := alarmInsertNode_of_new hdet fun q hq hsame =>
      hname ⟨q, hq, (sameName_requested (hne q hq) _).mp hsame⟩
    unfold requested at hplaced
    rw [bkAlarmRegister, if_neg hid]
    simp only [if_neg hperiod, if_neg hroom, hreq, if_neg hcnt, hstart, hplaced]
    split
    · rename_i harmed
      split at harmed
      · rename_i hhead
        refine .inr ⟨rfl, ?_⟩
        have hexpiry : (t.nodes p).expiredTick =
            addU64 (bkAonRtcGetCurrentTick s (counter 0)) i.periodTick := by
          refine (congrArg AlarmNode.expiredTick (hrel.data p)).trans ?_
          simp only [requested, AonRtc.modifyNode, update_self]
          rfl
        have htick : bkAonRtcGetCurrentTick t (counter 1) =
            bkAonRtcGetCurrentTick s (counter 1) := by
          rw [bkAonRtcGetCurrentTick, hrel.highTick]
          rfl
        rw [resetTick, hhead] at harmed
        simp only [hexpiry, htick] at harmed
        split at harmed
        · cases harmed
        · rename_i hpast
          exact Nat.not_lt.mp hpast
      · cases harmed
    · exact .inl ⟨_, rfl⟩

/-- In a run in which the loop finds every alarm it handles in place, a registration fails
for one of the five reasons only, and then changes nothing. -/
theorem register_fails_iff (h : Reached isrStep (fun r e => inPlaceStep r e = true) IsrState.init r)
    (id : Nat) (info : Option AlarmInfo) (counter : Nat → Nat)
    (hcnt : ∀ i, info = some i → i.periodCnt ≠ 0) :
    if refuses r.rtc id info = true then
      ∃ s' ret, bkAlarmRegister id info counter r.rtc = some (s', ret) ∧ ret ≠ .ok ∧
        SameAlarms r.rtc s' else (∃ s', bkAlarmRegister id info counter r.rtc = some (s', .ok)) ∨
        -- BK_ASSERT: the expiry has passed before the compare register is set
        bkAlarmRegister id info counter r.rtc = none ∧ ∃ i, info = some i ∧
          addU64 (bkAonRtcGetCurrentTick r.rtc (counter 0)) i.periodTick ≤
            addU64 (bkAonRtcGetCurrentTick r.rtc (counter 1)) 1 := by
  obtain ⟨l, hl⟩ := reached_tracked h
  have hsame := SameAlarms.refl r.rtc
  cases info with
  | none =>
    rw [if_pos (by rfl : refuses r.rtc id none = true), bkAlarmRegister]
    split
    · exact ⟨_, _, rfl, by decide, hsame⟩
    · exact ⟨_, _, rfl, by decide, hsame⟩
  | some i =>
    by_cases hid : aonRtcIdMax ≤ id
    · rw [if_pos (by simp [refuses, hid]), bkAlarmRegister, if_pos hid]
      exact ⟨_, _, rfl, by decide, hsame⟩
    by_cases hperiod : i.periodTick < precisionTick
    · rw [if_pos (by simp [refuses, hperiod]), bkAlarmRegister, if_neg hid]
      simp only [if_pos hperiod]
      exact ⟨_, _, rfl, by decide, hsame⟩
    by_cases hroom : maxAlarmCnt ≤ r.rtc.alarmNodeCnt
    · rw [if_pos (by simp [refuses, hroom]), bkAlarmRegister, if_neg hid]
      simp only [if_neg hperiod, if_pos hroom]
      exact ⟨_, _, rfl, by decide, hsame⟩
    have hpast := register_past_checks counter hl.wellFormed hid hperiod hroom (hcnt i rfl)
    have hiff : refuses r.rtc id (some i) = true ↔ ∃ q ∈ l,
        strncmpEq alarmNameMaxLen (r.rtc.nodes q).name (i.toNode 0).name = true := by
      simp only [refuses, decide_eq_false hid, decide_eq_false hperiod, decide_eq_false hroom,
        Bool.false_or, listed_eq hl.wellFormed, List.any_eq_true]
    rw [if_congr hiff rfl rfl]
    split at hpast
    · rename_i hname
      obtain ⟨s', hrun, hkept⟩ := hpast
      rw [if_pos hname]
      exact ⟨s', .fail, hrun, by decide, hkept⟩
    · rename_i hname
      rw [if_neg hname]
      exact hpast.imp_right fun hnone => ⟨hnone.1, i, rfl, hnone.2⟩

def oneShot (letter : UInt8) : AlarmInfo := ⟨[letter], 100, 1, none, 0⟩

theorem register_fails_iff_duplicate : ∃ r : IsrState, refuses r.rtc 0 (some (oneShot 97)) = true ∧
      ∃ s' ret, bkAlarmRegister 0 (some (oneShot 97)) (fun _ => 10) r.rtc = some (s', ret) ∧
        ret ≠ .ok ∧ SameAlarms r.rtc s' := by
  obtain ⟨r, hreached, hrefuses⟩ := exists_reached isrStep
    (fun r e => inPlaceStep r e = true) IsrState.init
    (fun r => refuses r.rtc 0 (some (oneShot 97)) = true) [registrationWithCallback 97 100 1 0]
    (by decide)
  have hend := register_fails_iff hreached 0 (some (oneShot 97)) (fun _ => 10)
    (by rintro i ⟨⟩; decide)
  rw [if_pos hrefuses] at hend
  exact ⟨r, hrefuses, hend⟩

-- The callback of the first alarm unregisters the second one and registers a third in its
-- node, just after the counter has wrapped, so that the third stands in front.  The loop
-- releases the first alarm, goes on at the third and takes its successor, the released
-- node, for the head.  A registration that then gets this node meets its own name.
theorem released_head_refuses_new_name :
    ¬ ∀ r, Reached isrStep anyStep IsrState.init r → r.phase = .idle → ∀ id info counter,
      (∀ i, info = some i → i.periodCnt ≠ 0) → ∀ s' ret,
        bkAlarmRegister id info counter r.rtc = some (s', ret) → ret ≠ .ok →
          refuses r.rtc id info = true := by
  intro hall
  obtain ⟨r, hreached, hidle, hpasses, ⟨s', ret⟩, hrun, hret⟩ := exists_reached isrStep anyStep
    IsrState.init (fun r => r.phase = .idle ∧ refuses r.rtc 0 (some (oneShot 122)) = false ∧
      ∃ result ∈ bkAlarmRegister 0 (some (oneShot 122)) (fun _ => 6) r.rtc, result.2 = .fail)
    [registrationWithCallback 97 100 1 0xFFFFFF80, registrationWithCallback 98 1000 1 0xFFFFFF80,
      .enter, .look 0xFFFFFFE0, .unregister 0 [98] 0xFFFFFFE0, registrationWithCallback 99 32 1 5,
      .finish, .look 6, .finish, .look 6, .leave 6, .upper]
    (by decide +kernel)
  have hfails : ret ≠ .ok := by
    rw [show ret = .fail from hret]
    decide
  have hrefuses := hall r hreached hidle 0 (some (oneShot 122)) (fun _ => 6)
    (by rintro i ⟨⟩; decide) s' ret hrun hfails
  exact absurd (hpasses.symm.trans hrefuses) (by decide)

end BekenSoc.AonRtcRegister
