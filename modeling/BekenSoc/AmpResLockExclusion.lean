import BekenSoc.AmpResLock
import BekenSoc.GuardedRuns
import BekenSoc.TaskWeights
import BekenSoc.TokenAccounts

namespace BekenSoc.AmpResLockExclusion

open Function CRuntime DualCore GuardedRuns TaskWeights TokenAccounts AmpResLock

variable {n : Nat}
variable {s s' : LockState n} {c : Cpu} {i : Fin n} {k : Nat}

def drains : Pc → Nat
  | .acqReply cnt => cnt.othersOnly.toNat
  | .acqDrain => 1
  | _ => 0

def waits : Pc → Nat
  | .acqReply cnt => (!cnt.othersOnly).toNat
  | .acqWait => 1
  | _ => 0

def actives : Pc → Nat
  | .hold => 1
  | .relCall => 1
  | _ => 0

def gives : Pc → Nat
  | .relReply _ => 1
  | .relInd => 1
  | .relSet => 1
  | _ => 0

def indicates : Pc → Nat
  | .relReply cnt => cnt.othersOnly.toNat
  | .relInd => 1
  | _ => 0

def account (s : LockState n) (c : Cpu) : Account where
  cnt := s.reqCnt c
  undrained := s.undrained c
  draining := load drains (s.pc c)
  waiting := load waits (s.pc c)
  active := load actives (s.pc c) + s.pendingRelease c
  giving := load gives (s.pc c)
  sema := (s.resSema c).toNat
  coming := s.inds c + load indicates (s.pc c.other)

/-- The order of steps under which the lock excludes.  A semaphore is taken only
when every acquire of its CPU that was told to drain it has done so; a drain
that finds the semaphore taken does not fall between the count and the give of a
release on its CPU; the counters do not wrap; and an IPC call of the slave
returns the answer of that call. -/
def Orderly (s : LockState n) : LockEvent n → Prop
  | .count c i => s.pc c i = .acqCall → s.reqCnt c + 1 < 2 ^ 16
  | .servePendingAcquire => s.reqCnt .slave + 1 < 2 ^ 16
  | .drain c _ => s.resSema c = true ∨ ∀ i, gives (s.pc c i) = 0
  | .take c _ => s.undrained c = 0
  | .stale _ _ => False
  | _ => True

instance (s : LockState n) (e : LockEvent n) : Decidable (Orderly s e) := by
  cases e <;> unfold Orderly <;> infer_instance

theorem cntList_eq {reqCnt : Cpu → Nat} (hbound : ∀ c, reqCnt c < 2 ^ 16)
    (c : Cpu) : cntList reqCnt c = ⟨reqCnt c, reqCnt c.other⟩ := by
  have hm := hbound .master
  have hs := hbound .slave
  cases c <;>
    · simp only [cntList, Cpu.other, List.map, List.foldl, addU16, subU16,
        ReqCnt.mk.injEq, true_and]
      omega

theorem othersOnly_iff (cnt : ReqCnt) :
    cnt.othersOnly = true ↔ cnt.selfReqCnt = 0 ∧ 0 < cnt.othersReqCnt := by
  simp [ReqCnt.othersOnly]

structure Frame (s s' : LockState n) (c : Cpu) : Prop where
  inited : s'.inited = s.inited
  pc : s'.pc c.other = s.pc c.other
  sema : s'.resSema c.other = s.resSema c.other
  undrained : s'.undrained c.other = s.undrained c.other
  pendingAcquire : s'.pendingAcquire c.other = s.pendingAcquire c.other
  pendingRelease : s'.pendingRelease c.other = s.pendingRelease c.other

namespace Frame

variable {s s' : LockState n} {c : Cpu}

theorem refl (s : LockState n) (c : Cpu) : Frame s s c := ⟨rfl, rfl, rfl, rfl, rfl, rfl⟩

section

variable (h : Frame s s' c)
include h

theorem setPc (i : Fin n) (pc : Pc) : Frame s (s'.setPc c i pc) c := by
  refine { h with pc := ?_ }
  simp only [LockState.setPc, update_of_ne (other_ne c)]
  exact h.pc

theorem setSema (value : Bool) : Frame s (s'.setSema c value) c := by
  refine { h with sema := ?_ }
  simp only [LockState.setSema, update_of_ne (other_ne c)]
  exact h.sema

theorem drained : Frame s (s'.drained c) c := by
  refine { h with undrained := ?_ }
  simp only [LockState.drained, update_of_ne (other_ne c)]
  exact h.undrained

theorem counted (cnt : ReqCnt) (reqCnt : Cpu → Nat) : Frame s (s'.counted c cnt reqCnt) c := by
  refine { h with undrained := ?_ }
  simp only [LockState.counted, update_of_ne (other_ne c)]
  exact h.undrained

theorem setReqCnt (reqCnt : Cpu → Nat) : Frame s (s'.setReqCnt reqCnt) c :=
  { h with }

theorem setInds (d : Cpu) (k : Nat) : Frame s (s'.setInds d k) c := { h with }

theorem setPendingAcquire (k : Nat) : Frame s (s'.setPendingAcquire c k) c := by
  refine { h with pendingAcquire := ?_ }
  simp only [LockState.setPendingAcquire, update_of_ne (other_ne c)]
  exact h.pendingAcquire

theorem setPendingRelease (k : Nat) : Frame s (s'.setPendingRelease c k) c := by
  refine { h with pendingRelease := ?_ }
  simp only [LockState.setPendingRelease, update_of_ne (other_ne c)]
  exact h.pendingRelease

theorem account_other : account s' c.other = { account s c.other with
        cnt := s'.reqCnt c.other
        coming := s'.inds c.other + load indicates (s'.pc c) } := by
  simp only [account, h.pc, h.sema, h.undrained, h.pendingRelease, other_other]

theorem account_other_eq (hcnt : s'.reqCnt c.other = s.reqCnt c.other)
    (hinds : s'.inds c.other = s.inds c.other)
    (hload : load indicates (s'.pc c) = load indicates (s.pc c)) :
    account s' c.other = account s c.other := by
  rw [h.account_other, hcnt, hinds, hload]
  simp only [account, other_other]

end

end Frame

theorem account_setPc (s : LockState n) (c : Cpu) (i : Fin n) (pc : Pc) :
    account (s.setPc c i pc) c = { account s c with
        draining := load drains (s.pc c) + drains pc - drains (s.pc c i)
        waiting := load waits (s.pc c) + waits pc - waits (s.pc c i)
        active := load actives (s.pc c) + actives pc - actives (s.pc c i) + s.pendingRelease c
        giving := load gives (s.pc c) + gives pc - gives (s.pc c i) } := by
  have hload : ∀ w : Pc → Nat, load w (update (s.pc c) i pc) =
      load w (s.pc c) + w pc - w (s.pc c i) := by
    intro w
    have := load_update w (s.pc c) i pc
    omega
  simp only [account, LockState.setPc, update_self, update_of_ne (other_ne c), hload]

theorem load_indicates_setPc (s : LockState n) (c : Cpu) (i : Fin n) (pc : Pc) :
    load indicates ((s.setPc c i pc).pc c) =
      load indicates (s.pc c) + indicates pc - indicates (s.pc c i) := by
  have := load_update indicates (s.pc c) i pc
  simp only [LockState.setPc, update_self]
  omega

structure LockInv (s : LockState n) : Prop where
  balanced : ∀ c, Balanced (account s c) (account s c.other)
  bound : ∀ c, s.reqCnt c < 2 ^ 16
  fresh : ∀ c, s.inited c = false → (∀ i, s.pc c i = .idle) ∧
    s.pendingAcquire c = 0 ∧ s.pendingRelease c = 0 ∧ account s c = .zero
  uncounted : s.inited .master = false → ∀ c, s.reqCnt c = 0

theorem LockInv.inited_of_pc {pc : Pc} (h : LockInv s) (hpc : s.pc c i = pc) (hne : pc ≠ .idle) :
    s.inited c = true := by
  by_contra hin
  exact hne (hpc ▸ (h.fresh c (Bool.eq_false_of_not_eq_true hin)).1 i)

theorem balanced_all (h : Balanced (account s c) (account s c.other)) (d : Cpu) :
    Balanced (account s d) (account s d.other) := by
  by_cases hd : d = c
  · subst hd
    exact h
  · rw [eq_other_of_ne hd, other_other]
    exact h.symm

section

variable (h : LockInv s)
include h

theorem LockInv.step (hin : s.inited c = true) (hframe : Frame s s' c)
    (hmove : Move (account s c) (account s c.other) (account s' c) (account s' c.other))
    (hbound : ∀ d, s'.reqCnt d < 2 ^ 16) (hcnt : s.inited .master = true ∨ s'.reqCnt = s.reqCnt) :
    LockInv s' := by
  refine ⟨balanced_all (hmove.balanced (h.balanced c)), hbound, ?_, ?_⟩
  · intro d hd
    rw [hframe.inited] at hd
    have hother : d = c.other := by
      apply eq_other_of_ne
      intro hdc
      rw [hdc, hin] at hd
      cases hd
    subst hother
    obtain ⟨hidle, hacq, hrel, hzero⟩ := h.fresh c.other hd
    rw [hzero] at hmove
    refine ⟨?_, ?_, ?_, hmove.zero_right⟩
    · rw [hframe.pc]
      exact hidle
    · rw [hframe.pendingAcquire]
      exact hacq
    · rw [hframe.pendingRelease]
      exact hrel
  · intro hmaster d
    rw [hframe.inited] at hmaster
    rw [hcnt.resolve_left (Bool.eq_false_iff.mp hmaster)]
    exact h.uncounted hmaster d

theorem LockInv.step_of_reqCnt_eq (hin : s.inited c = true) (hframe : Frame s s' c)
    (hcnt : s'.reqCnt = s.reqCnt)
    (hmove : Move (account s c) (account s c.other) (account s' c) (account s' c.other)) :
    LockInv s' :=
  h.step hin hframe hmove (fun d => hcnt ▸ h.bound d) (.inr hcnt)

theorem LockInv.step_task {pc pc' : Pc} (hat : s.pc c i = pc') (hin : pc' ≠ .idle)
    (hframe : Frame s s' c) (hpc : s'.pc = s.pc) (hcnt : s'.reqCnt = s.reqCnt)
    (hinds : s'.inds = s.inds) (hload : indicates pc = indicates pc')
    (hmove : Move (account s c) (account s c.other) (account (s'.setPc c i pc) c)
      (account s c.other)) : LockInv (s'.setPc c i pc) := by
  have hframe := hframe.setPc i pc
  refine h.step_of_reqCnt_eq (h.inited_of_pc hat hin) hframe hcnt ?_
  rwa [hframe.account_other_eq (congrFun hcnt _) (congrFun hinds _)]
  rw [load_indicates_setPc, hpc, hload, hat, Nat.add_sub_cancel]

theorem LockInv.step_drop {pc : Pc} (hin : s.inited c = true)
    (hdrains : drains pc ≤ drains (s.pc c i)) (hwaits : waits pc ≤ waits (s.pc c i))
    (hactives : actives pc ≤ actives (s.pc c i)) (hgives : gives pc ≤ gives (s.pc c i))
    (hindicates : indicates pc ≤ indicates (s.pc c i)) : LockInv (s.setPc c i pc) := by
  have hframe := (Frame.refl s c).setPc i pc
  refine h.step_of_reqCnt_eq hin hframe rfl ?_
  rw [account_setPc, hframe.account_other, load_indicates_setPc]
  refine .settle ⟨rfl, rfl, ?_, ?_, ?_, ?_, ?_⟩ ⟨rfl, rfl, ?_, ?_, ?_, ?_, ?_⟩
  all_goals simp only [account, Account.tokens, LockState.setPc, other_other]
  all_goals omega

theorem move_counted (c : Cpu) (k : Nat) (hk : k ≤ 1) :
    Move (account s c) (account s c.other) { account s c with
        cnt := s.reqCnt c + 1
        undrained := s.undrained c +
          if (cntList s.reqCnt c).othersOnly then 1 else 0
        draining := load drains (s.pc c) +
          if (cntList s.reqCnt c).othersOnly then k else 0
        waiting := load waits (s.pc c) +
          if (cntList s.reqCnt c).othersOnly then 0 else k }
      (account s c.other) := by
  have hlist := cntList_eq h.bound c
  cases hfirst : (cntList s.reqCnt c).othersOnly with
  | true =>
    rw [othersOnly_iff, hlist] at hfirst
    exact .countFirst k hfirst.1 hfirst.2 hk
  | false =>
    refine .countMore k ?_ hk
    rw [Bool.eq_false_iff, ne_eq, othersOnly_iff, hlist] at hfirst
    exact hfirst

theorem bound_update (c : Cpu) (hk : k < 2 ^ 16) (d : Cpu) : update s.reqCnt c k d < 2 ^ 16 := by
  by_cases hd : d = c
  · subst hd
    rw [update_self]
    exact hk
  · rw [update_of_ne hd]
    exact h.bound d

theorem count_acquire_inv (hpc : s.pc c i = .acqCall) (hroom : s.reqCnt c + 1 < 2 ^ 16)
    (hmaster : s.inited .master = true) :
    LockInv ((s.counted c (cntList s.reqCnt c) (update s.reqCnt c (s.reqCnt c + 1))).setPc c i
        (.acqReply (cntList s.reqCnt c))) := by
  have hin : s.inited c = true := h.inited_of_pc hpc (by decide)
  have hframe := ((Frame.refl s c).counted (cntList s.reqCnt c)
    (update s.reqCnt c (s.reqCnt c + 1))).setPc i (.acqReply (cntList s.reqCnt c))
  refine h.step hin hframe ?_ (bound_update h c hroom) (.inl hmaster)
  have hmove := move_counted h c 1 (Nat.le_refl 1)
  rw [hframe.account_other_eq, account_setPc]
  · cases hfirst : (cntList s.reqCnt c).othersOnly <;>
      simpa [account, LockState.counted, hpc, drains, waits, actives, gives, hfirst] using hmove
  · exact update_of_ne (other_ne c) _ _
  · rfl
  · rw [load_indicates_setPc]
    simp [LockState.counted, hpc, indicates]

theorem pending_acquire_inv (hin : s.inited c = true) (k : Nat) (hroom : s.reqCnt c + 1 < 2 ^ 16)
    (hmaster : s.inited .master = true) :
    LockInv ((s.setPendingAcquire c k).counted c (cntList s.reqCnt c)
      (update s.reqCnt c (s.reqCnt c + 1))) := by
  have hframe := ((Frame.refl s c).setPendingAcquire k).counted
    (cntList s.reqCnt c) (update s.reqCnt c (s.reqCnt c + 1))
  refine h.step hin hframe ?_ (bound_update h c hroom) (.inl hmaster)
  have hmove := move_counted h c 0 (Nat.zero_le 1)
  simpa [account, LockState.counted, LockState.setPendingAcquire] using hmove

theorem move_uncounted (c : Cpu) (k : Nat) (hk : k ≤ 1) (hactive : 0 < (account s c).active) :
    Move (account s c) (account s c.other) { account s c with
        cnt := s.reqCnt c - 1
        active := (account s c).active - 1
        giving := load gives (s.pc c) + k }
      { account s c.other with
        coming := (account s c.other).coming + if (cntList (update s.reqCnt c
          (s.reqCnt c - 1)) c).othersOnly then k else 0 } := by
  have hcnt : 0 < s.reqCnt c := by
    have := (h.balanced c).own.claims
    simp only [account] at *
    omega
  have hbound := h.bound c
  have hlist := cntList_eq (bound_update h c (k := s.reqCnt c - 1) (by omega)) c
  refine .uncount k _ hactive hk ?_ ?_
  · split <;> omega
  · intro hpos
    split at hpos
    · rename_i hlast
      rw [othersOnly_iff, hlist] at hlast
      simp only [update_self, update_of_ne (other_ne c)] at hlast
      simp only [account]
      omega
    · omega

theorem count_release_inv (hpc : s.pc c i = .relCall) (hmaster : s.inited .master = true) :
    LockInv ((s.setReqCnt (update s.reqCnt c (s.reqCnt c - 1))).setPc c i
      (.relReply (cntList (update s.reqCnt c (s.reqCnt c - 1)) c))) := by
  have hin : s.inited c = true := h.inited_of_pc hpc (by decide)
  have hactive : 0 < load actives (s.pc c) := load_pos hpc (by decide)
  have hframe := ((Frame.refl s c).setReqCnt (update s.reqCnt c (s.reqCnt c - 1))).setPc i
      (.relReply (cntList (update s.reqCnt c (s.reqCnt c - 1)) c))
  have hbound := h.bound c
  refine h.step hin hframe ?_ (bound_update h c (by omega)) (.inl hmaster)
  have hmove := move_uncounted h c 1 (Nat.le_refl 1) (by simp only [account]; omega)
  have hless : (account s c).active - 1 = load actives (s.pc c) - 1 + s.pendingRelease c := by
    simp only [account]
    omega
  rw [hless] at hmove
  rw [hframe.account_other, account_setPc, load_indicates_setPc]
  cases hlast : (cntList (update s.reqCnt c (s.reqCnt c - 1)) c).othersOnly <;>
    simpa [account, LockState.setReqCnt, LockState.setPc, hpc, drains, waits,
      actives, gives, indicates, hlast, other_ne, other_other, Nat.add_assoc] using hmove

theorem setPendingRelease_inv (hin : s.inited c = true) (hk : k ≤ s.pendingRelease c) :
    LockInv (s.setPendingRelease c k) := by
  have hframe := (Frame.refl s c).setPendingRelease k
  refine h.step_of_reqCnt_eq hin hframe rfl ?_
  rw [hframe.account_other_eq rfl rfl rfl]
  refine .settle ⟨rfl, rfl, Nat.le_refl _, Nat.le_refl _, ?_, Nat.le_refl _, ?_⟩ (.refl _)
  all_goals simp only [account, Account.tokens, LockState.setPendingRelease, update_self]
  all_goals omega

theorem pending_release_inv (hin : s.inited c = true) (hpos : 0 < s.pendingRelease c)
    (hmaster : s.inited .master = true) :
    LockInv ((s.setPendingRelease c (s.pendingRelease c - 1)).setReqCnt
      (update s.reqCnt c (s.reqCnt c - 1))) := by
  have hframe := ((Frame.refl s c).setPendingRelease (s.pendingRelease c - 1)).setReqCnt
      (update s.reqCnt c (s.reqCnt c - 1))
  have hbound := h.bound c
  refine h.step hin hframe ?_ (bound_update h c (by omega)) (.inl hmaster)
  have hmove := move_uncounted h c 0 (Nat.zero_le 1) (by simp only [account]; omega)
  have hless : (account s c).active - 1 = load actives (s.pc c) + (s.pendingRelease c - 1) := by
    simp only [account]
    omega
  rw [hless] at hmove
  simpa [account, LockState.setReqCnt, LockState.setPendingRelease] using hmove

theorem drain_inv (hpc : s.pc c i = .acqDrain) (hsema : s.resSema c = true) :
    LockInv (((s.setSema c false).drained c).setPc c i .acqWait) := by
  have hpos : 0 < load drains (s.pc c) := load_pos hpc (by decide)
  have hmove := Move.drain (a := account s c) (b := account s c.other) hpos
    (by simp [account, hsema])
  refine h.step_task hpc (by decide) ((Frame.refl s c).setSema false).drained rfl rfl rfl rfl ?_
  rw [account_setPc]
  simpa [account, LockState.setSema, LockState.drained, hpc, drains, waits, actives, gives]
    using hmove

theorem drain_fail_inv (hpc : s.pc c i = .acqDrain) (hsema : s.resSema c = false)
    (hgives : ∀ j, gives (s.pc c j) = 0) : LockInv ((s.drained c).setPc c i .idle) := by
  have hpos : 0 < load drains (s.pc c) := load_pos hpc (by decide)
  have hmove := Move.drainFail (a := account s c) (b := account s c.other) hpos
    (by simp [account, hsema]) (load_eq_zero hgives)
  refine h.step_task hpc (by decide) (Frame.refl s c).drained rfl rfl rfl rfl ?_
  rw [account_setPc]
  simpa [account, LockState.drained, hpc, drains, waits, actives, gives] using hmove

theorem take_inv (hpc : s.pc c i = .acqWait) (hsema : s.resSema c = true)
    (hdrained : s.undrained c = 0) : LockInv ((s.setSema c false).setPc c i .hold) := by
  have hpos : 0 < load waits (s.pc c) := load_pos hpc (by decide)
  have hmove := Move.take (a := account s c) (b := account s c.other) hdrained hpos
    (by simp [account, hsema])
  have hmore : (account s c).active + 1 = load actives (s.pc c) + 1 + s.pendingRelease c :=
    Nat.add_right_comm ..
  rw [hmore] at hmove
  refine h.step_task hpc (by decide) ((Frame.refl s c).setSema false) rfl rfl rfl rfl ?_
  rw [account_setPc]
  simpa [account, LockState.setSema, hpc, drains, waits, actives, gives] using hmove

theorem give_inv (hpc : s.pc c i = .relSet) : LockInv ((s.setSema c true).setPc c i .idle) := by
  have hpos : 0 < load gives (s.pc c) := load_pos hpc (by decide)
  refine h.step_task hpc (by decide) ((Frame.refl s c).setSema true) rfl rfl rfl rfl ?_
  rw [account_setPc]
  refine .settle ⟨rfl, rfl, ?_, ?_, ?_, ?_, ?_⟩ (.refl _)
  all_goals simp only [account, Account.tokens, LockState.setSema, hpc, drains,
    waits, actives, gives, update_self, Bool.toNat_true]
  all_goals omega

theorem available_inv (hin : s.inited c = true) (hpos : 0 < s.inds c) :
    LockInv ((s.setInds c (s.inds c - 1)).setSema c true) := by
  have hframe := ((Frame.refl s c).setInds c (s.inds c - 1)).setSema true
  refine h.step_of_reqCnt_eq hin hframe rfl ?_
  rw [hframe.account_other_eq rfl (update_of_ne (other_ne c) _ _) rfl]
  refine .settle ⟨rfl, rfl, Nat.le_refl _, Nat.le_refl _, Nat.le_refl _, ?_, ?_⟩ (.refl _)
  all_goals simp only [account, Account.tokens, LockState.setInds,
    LockState.setSema, update_self, Bool.toNat_true]
  all_goals omega

theorem indicate_inv (hpc : s.pc c i = .relInd) (sent ok : Bool) :
    LockInv ((s.setInds c.other (s.inds c.other + sent.toNat)).setPc c i
      (if ok then .relSet else .idle)) := by
  have hin : s.inited c = true := h.inited_of_pc hpc (by decide)
  have hframe := ((Frame.refl s c).setInds c.other
    (s.inds c.other + sent.toNat)).setPc i (if ok then .relSet else .idle)
  refine h.step_of_reqCnt_eq hin hframe rfl ?_
  have hind : 0 < load indicates (s.pc c) := load_pos hpc (by decide)
  have hsent : sent.toNat ≤ 1 := Bool.toNat_le sent
  rw [hframe.account_other, account_setPc, load_indicates_setPc]
  refine .settle ⟨rfl, rfl, ?_, ?_, ?_, ?_, ?_⟩ ⟨rfl, rfl, ?_, ?_, ?_, ?_, ?_⟩
  all_goals cases ok
  all_goals simp only [account, Account.tokens, LockState.setInds, LockState.setPc,
    hpc, drains, waits, actives, gives, indicates, update_self, other_other,
    update_of_ne (other_ne c).symm, if_true, if_false, Bool.false_eq_true]
  all_goals omega

theorem init_inv (c : Cpu) : LockInv (initStep s c) := by
  unfold initStep
  split
  · exact h
  · rename_i hin
    have hfalse : s.inited c = false := Bool.eq_false_of_not_eq_true hin
    obtain ⟨hidle, hacq, hrel, hzero⟩ := h.fresh c hfalse
    have hreq : (if c = .master then fun _ => 0 else s.reqCnt) = s.reqCnt := by
      split
      · rename_i hmaster
        funext d
        rw [h.uncounted (hmaster ▸ hfalse) d]
      · rfl
    have hown : account { s with
          inited := update s.inited c true
          resSema := update s.resSema c true } c = { account s c with sema := 1 } := by
      simp [account]
    have hother : account { s with
          inited := update s.inited c true
          resSema := update s.resSema c true } c.other = account s c.other := by
      simp [account, update_of_ne (other_ne c)]
    rw [hreq]
    refine ⟨balanced_all (c := c) ?_, h.bound, ?_, ?_⟩
    · rw [hown, hother]
      refine Move.balanced (h.balanced c) (.start ?_ ?_)
      · rw [hzero]
        rfl
      · rw [hzero]
        rfl
    · intro d hd
      have hdc : d ≠ c := by
        intro hdc
        subst hdc
        simp at hd
      rw [eq_other_of_ne hdc] at hd ⊢
      simp only [update_of_ne (other_ne c)] at hd
      rw [hother]
      exact h.fresh c.other hd
    · intro hmaster d
      by_cases hc : .master = c
      · subst hc
        simp at hmaster
      · simp only [update_of_ne hc] at hmaster
        exact h.uncounted hmaster d

theorem setPendingAcquire_inv (hin : s.inited c = true) (k : Nat) :
    LockInv (s.setPendingAcquire c k) := by
  have hframe := (Frame.refl s c).setPendingAcquire k
  refine h.step_of_reqCnt_eq hin hframe rfl ?_
  exact .settle (.refl _) (.refl _)

theorem abandon_release_inv (hpc : s.pc c i = .relCall) (hk : k ≤ 1) :
    LockInv ((s.setPendingRelease c (s.pendingRelease c + k)).setPc c i .idle) := by
  have hpos : 0 < load actives (s.pc c) := load_pos hpc (by decide)
  refine h.step_task hpc (by decide) ((Frame.refl s c).setPendingRelease _) rfl rfl rfl rfl ?_
  rw [account_setPc]
  refine .settle ⟨rfl, rfl, ?_, ?_, ?_, ?_, ?_⟩ (.refl _)
  all_goals simp only [account, Account.tokens, LockState.setPendingRelease, hpc, drains, waits,
    actives, gives, update_self]
  all_goals omega

theorem LockInv.leave (hin : s.inited c = true) : LockInv (s.setPc c i .idle) := by
  apply h.step_drop hin <;> exact Nat.zero_le _

theorem LockInv.inited_of_pending (hpending : 0 < s.pendingAcquire c ∨ 0 < s.pendingRelease c) :
    s.inited c = true := by
  by_contra hin
  obtain ⟨-, hacq, hrel, -⟩ := h.fresh c (Bool.eq_false_of_not_eq_true hin)
  omega

theorem LockInv.inited_of_inds (hpos : 0 < s.inds c) : s.inited c = true := by
  by_contra hin
  have hzero := (h.fresh c (Bool.eq_false_of_not_eq_true hin)).2.2.2
  have hcoming : (account s c).coming = 0 := by
    rw [hzero]
    rfl
  simp only [account] at hcoming
  omega

end

theorem addU16_one (h : k + 1 < 2 ^ 16) : addU16 k 1 = k + 1 := Nat.mod_eq_of_lt h

theorem lockStep_inv (e : LockEvent n) (h : LockInv s) (hok : Orderly s e)
    (hstep : lockStep s e = some s') : LockInv s' := by
  cases lockStep_cases hstep with
  | init c => exact init_inv h c
  | acquire hpc hin => apply h.step_drop hin <;> rw [hpc] <;> decide
  | acquireFails => exact h
  | release hpc =>
    have hin := h.inited_of_pc hpc (by decide)
    apply h.step_drop hin <;> rw [hpc] <;> decide
  | countAcquire hpc hmaster =>
    rw [addU16_one (hok hpc)]
    exact count_acquire_inv h hpc (hok hpc) hmaster
  | countAcquireFails hpc => exact h.leave (h.inited_of_pc hpc (by decide))
  | countRelease hpc hmaster => exact count_release_inv h hpc hmaster
  | countReleaseFails hpc => exact h.leave (h.inited_of_pc hpc (by decide))
  | replyAcquire hpc =>
    rename_i cnt
    have hin := h.inited_of_pc hpc (by simp)
    apply h.step_drop hin <;> rw [hpc] <;>
      cases hcnt : cnt.othersOnly <;>
      simp [Pc.afterAcquireCnt, hcnt, drains, waits, actives, gives, indicates]
  | replyRelease hpc =>
    rename_i cnt
    have hin := h.inited_of_pc hpc (by simp)
    apply h.step_drop hin <;> rw [hpc] <;>
      cases hcnt : cnt.othersOnly <;>
      simp [Pc.afterReleaseCnt, hcnt, drains, waits, actives, gives, indicates]
  | loseAcquire hpc =>
    have hin := h.inited_of_pc hpc (by decide)
    exact (setPendingAcquire_inv h hin _).leave hin
  | loseRelease hpc => exact abandon_release_inv h hpc (Bool.toNat_le _)
  | loseAcquireReply hpc
  | loseReleaseReply hpc => exact h.leave (h.inited_of_pc hpc (by simp))
  | staleAcquire | staleRelease | staleAcquireReply | staleReleaseReply => exact absurd hok id
  | serveAcquire hpos hmaster =>
    have hroom : s.reqCnt .slave + 1 < 2 ^ 16 := hok
    rw [addU16_one hroom]
    exact pending_acquire_inv h (h.inited_of_pending (.inl hpos)) _ hroom hmaster
  | serveAcquireFails hpos => exact setPendingAcquire_inv h (h.inited_of_pending (.inl hpos)) _
  | serveRelease hpos hmaster =>
    exact pending_release_inv h (h.inited_of_pending (.inr hpos)) hpos hmaster
  | serveReleaseFails hpos =>
    exact setPendingRelease_inv h (h.inited_of_pending (.inr hpos)) (Nat.sub_le _ _)
  | drain hpc hsema => exact drain_inv h hpc hsema
  | drainFails hpc hsema =>
    apply drain_fail_inv h hpc hsema
    apply hok.resolve_left
    rw [hsema]
    decide
  | take hpc hsema => exact take_inv h hpc hsema hok
  | timeout hpc => exact h.leave (h.inited_of_pc hpc (by decide))
  | indicate hpc => exact indicate_inv h hpc _ _
  | available hpos hin => exact available_inv h hin hpos
  | availableFails hpos hin =>
    rw [h.inited_of_inds hpos] at hin
    cases hin
  | give hpc => exact give_inv h hpc

theorem start_inv (n : Nat) : LockInv (LockState.start n) := by
  have hzero : ∀ c, account (.start n) c = .zero := by
    simp [account, LockState.start, load, Account.zero, drains, waits, actives, gives, indicates]
  refine ⟨?_, ?_, ?_, ?_⟩
  · intro c
    rw [hzero, hzero]
    exact ⟨⟨by decide, by decide, by decide, by decide, by decide, by decide⟩,
      ⟨by decide, by decide, by decide, by decide, by decide, by decide⟩, .inl ⟨rfl, rfl, .inl rfl⟩⟩
  · intro c
    exact Nat.two_pow_pos 16
  · intro c _
    exact ⟨fun _ => rfl, rfl, rfl, hzero c⟩
  · intro _ c
    rfl

theorem LockInv.exclusive (h : LockInv s) : Exclusive s := by
  intro c i d j hi hj
  have hactive : ∀ c i, s.pc c i = .hold → 0 < (account s c).active := by
    intro c i hi
    have : 0 < load actives (s.pc c) := load_pos hi (by decide)
    simp only [account]
    omega
  by_cases hd : d = c
  · subst hd
    by_contra hne
    have hij : i ≠ j := fun hij => hne (by rw [hij])
    have htwo := add_le_load actives (s.pc d) hij
    rw [hi, hj] at htwo
    have hsound := (h.balanced d).own
    have hquiet := hsound.quiet
    have htokens := hsound.tokens_le
    simp only [account, Account.tokens, actives] at *
    omega
  · -- one of the CPUs is passive, so it has no holder
    have hc := hactive c i hi
    have hd' := hactive d j hj
    rw [eq_other_of_ne hd] at hd'
    rcases (h.balanced c).turn with hp | hp
    · have := hp.active
      omega
    · have := hp.active
      omega

/-- In every orderly run at most one task of both CPUs holds the resource. -/
theorem reached_exclusive {n : Nat} {s : LockState n}
    (h : Reached lockStep Orderly (LockState.start n) s) : Exclusive s := by
  have hinv : LockInv s := h.invariant LockInv (start_inv n)
    fun _ e _ hinv hok hstep => lockStep_inv e hinv hok hstep
  exact hinv.exclusive

-- The master hands the resource over to the slave.
theorem reached_exclusive_handover : ∃ s, Reached lockStep Orderly (LockState.start 1) s ∧
      s.pc .slave 0 = .hold ∧ Exclusive s :=
  exists_reached_and (fun _ => reached_exclusive)
    [.init .master, .init .slave,
      .acquire .master 0, .count .master 0, .reply .master 0, .take .master 0,
      .acquire .slave 0, .count .slave 0, .reply .slave 0, .drain .slave 0,
      .release .master 0, .count .master 0, .reply .master 0,
      .indicate .master 0 true true, .available .slave, .give .master 0, .take .slave 0]
    (by decide)

-- The second acquire on the slave is counted before the first has drained the
-- semaphore, and takes it while the master holds.
theorem undrained_semaphore_taken :
    ¬ ∀ n (s : LockState n), Reached lockStep anyStep (LockState.start n) s → Exclusive s := by
  intro hall
  obtain ⟨s, hreached, hm, hs⟩ := exists_reached lockStep anyStep (.start 2)
    (fun s => s.pc .master 0 = .hold ∧ s.pc .slave 1 = .hold)
    [.init .master, .init .slave,
      .acquire .master 0, .count .master 0, .reply .master 0, .take .master 0,
      .acquire .slave 0, .count .slave 0, .reply .slave 0,
      .acquire .slave 1, .count .slave 1, .reply .slave 1, .take .slave 1]
    (by decide)
  have hsame := hall 2 s hreached _ _ _ _ hm hs
  cases hsame

end BekenSoc.AmpResLockExclusion
