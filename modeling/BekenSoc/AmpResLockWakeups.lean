import BekenSoc.AmpResLockExclusion
import BekenSoc.TokenConservation

namespace BekenSoc.AmpResLockWakeups

open Function CRuntime DualCore GuardedRuns TaskWeights TokenConservation AmpResLock
open AmpResLockExclusion

variable {n : Nat}
variable {s : LockState n} {c : Cpu} {i : Fin n} {pc : Pc}

def counted : Pc → Nat
  | .acqReply _ => 1
  | .acqDrain => 1
  | .acqWait => 1
  | .hold => 1
  | .relCall => 1
  | _ => 0

def awaits : Pc → Bool
  | .acqReply _ => true
  | .acqDrain => true
  | .acqWait => true
  | _ => false

def Free (s : LockState n) : Prop := ∀ c i, actives (s.pc c i) = 0

def WakeComing (s : LockState n) (c : Cpu) : Prop :=
  s.resSema c = true ∨ 0 < s.inds c ∨ (∃ i, 0 < indicates (s.pc c.other i)) ∨
    ∃ i, 0 < gives (s.pc c i)

/-- When the resource is free and a request waits, a wake-up is on its way to a CPU with
a waiting request. -/
def NoWakeLost (s : LockState n) : Prop :=
  Free s → (∃ c i, awaits (s.pc c i) = true) → ∃ c, (∃ i, awaits (s.pc c i) = true) ∧ WakeComing s c

/-- No semaphore is set while it holds a token, and a drain finds the token that it has to
take away.  A call whose request is counted does not give up, the IPC calls of the slave
return their own answers, and the counters do not wrap. -/
def NothingDropped (s : LockState n) : LockEvent n → Prop
  | .count c i => s.pc c i = .acqCall → s.reqCnt c + 1 < 2 ^ 16
  | .lose i pending => s.pc .slave i = .acqCall ∧ pending = false
  | .stale _ _ => False
  | .drain c _ => s.resSema c = true
  | .timeout _ _ => False
  | .indicate _ _ sent ok => sent = true ∧ ok = true
  | .available c => s.resSema c = false
  | .give c _ => s.resSema c = false
  | _ => True

instance (s : LockState n) : (e : LockEvent n) → Decidable (NothingDropped s e)
  | .count .. => inferInstanceAs (Decidable (_ → _))
  | .lose .. | .indicate .. => inferInstanceAs (Decidable (_ ∧ _))
  | .drain .. | .available .. | .give .. => inferInstanceAs (Decidable (_ = _))
  | .stale .. | .timeout .. => isFalse id
  | .init .. | .acquire .. | .release .. | .reply .. | .servePendingAcquire
  | .servePendingRelease | .take .. => isTrue trivial

def tokens (s : LockState n) (c : Cpu) : Nat :=
  load actives (s.pc c) + load gives (s.pc c) + (s.resSema c).toNat + s.inds c +
    load indicates (s.pc c.other)

def purse (s : LockState n) (c : Cpu) : Purse where
  cnt := s.reqCnt c
  undrained := s.undrained c
  tokens := tokens s c + (!s.inited c).toNat

structure WakeInv (s : LockState n) : Prop where
  conserved : ∀ c, Conserved (purse s c) (purse s c.other)
  counted_eq : ∀ c, s.reqCnt c = load counted (s.pc c)
  undrained_eq : ∀ c, s.undrained c = load drains (s.pc c)
  acquires : ∀ c, s.pendingAcquire c = 0
  releases : ∀ c, s.pendingRelease c = 0
  bound : ∀ c, s.reqCnt c < 2 ^ 16
  fresh : ∀ c, s.inited c = false → ∀ i, s.pc c i = .idle
  uncounted : s.inited .master = false → ∀ c, s.reqCnt c = 0

theorem WakeInv.inited_of_pc (h : WakeInv s) (hpc : s.pc c i = pc) (hne : pc ≠ .idle) :
    s.inited c = true := by
  by_contra hin
  exact hne (hpc ▸ h.fresh c (Bool.eq_false_of_not_eq_true hin) i)

theorem load_setPc (w : Pc → Nat) (s : LockState n) (c : Cpu) (i : Fin n) (pc : Pc) :
    load w ((s.setPc c i pc).pc c) + w (s.pc c i) = load w (s.pc c) + w pc := by
  simp only [LockState.setPc, update_self]
  exact load_update w (s.pc c) i pc

theorem conserved_all (h : Conserved (purse s c) (purse s c.other)) (d : Cpu) :
    Conserved (purse s d) (purse s d.other) := by
  by_cases hd : d = c
  · subst hd
    exact h
  · rw [eq_other_of_ne hd, other_other]
    exact h.symm

structure Kept (s' : LockState n) (c : Cpu) : Prop where
  counted_eq : s'.reqCnt c = load counted (s'.pc c)
  undrained_eq : s'.undrained c = load drains (s'.pc c)
  acquires : s'.pendingAcquire c = 0
  releases : s'.pendingRelease c = 0
  bound : s'.reqCnt c < 2 ^ 16

theorem WakeInv.step {s' : LockState n} (h : WakeInv s) (hin : s.inited c = true)
    (hframe : Frame s s' c) (hkept : Kept s' c) (hother : s'.reqCnt c.other = s.reqCnt c.other)
    (hmaster : s.inited .master = true ∨ s'.reqCnt c = s.reqCnt c)
    (htrade : Trade (purse s c) (purse s c.other) (purse s' c) (purse s' c.other)) :
    WakeInv s' := by
  have hboth : ∀ {p : Cpu → Prop}, p c → p c.other → ∀ d, p d := by
    intro p hc ho d
    by_cases hd : d = c
    · exact hd ▸ hc
    · exact eq_other_of_ne hd ▸ ho
  refine ⟨conserved_all (htrade.conserved (h.conserved c)), hboth hkept.counted_eq ?_,
    hboth hkept.undrained_eq ?_, hboth hkept.acquires ?_, hboth hkept.releases ?_,
    hboth hkept.bound ?_, hboth ?_ ?_, ?_⟩
  · rw [hother, hframe.pc]
    exact h.counted_eq c.other
  · rw [hframe.undrained, hframe.pc]
    exact h.undrained_eq c.other
  · rw [hframe.pendingAcquire]
    exact h.acquires c.other
  · rw [hframe.pendingRelease]
    exact h.releases c.other
  · rw [hother]
    exact h.bound c.other
  · intro hfalse
    rw [hframe.inited, hin] at hfalse
    cases hfalse
  · rw [hframe.inited, hframe.pc]
    exact h.fresh c.other
  · intro hfalse
    rw [hframe.inited] at hfalse
    have hsame : s'.reqCnt c = s.reqCnt c := by
      rcases hmaster with htrue | hsame
      · rw [htrue] at hfalse
        cases hfalse
      · exact hsame
    refine hboth ?_ ?_
    · rw [hsame]
      exact h.uncounted hfalse c
    · rw [hother]
      exact h.uncounted hfalse c.other

theorem WakeInv.move {s1 : LockState n} (h : WakeInv s) (hin : s.inited c = true)
    (hframe : Frame s s1 c) (hplace : s1.pc c = s.pc c)
    (hother : s1.reqCnt c.other = s.reqCnt c.other)
    (hmaster : s.inited .master = true ∨ s1.reqCnt c = s.reqCnt c)
    (hcounted : s1.reqCnt c + counted (s.pc c i) = s.reqCnt c + counted pc)
    (hdrains : s1.undrained c + drains (s.pc c i) = s.undrained c + drains pc)
    (hacq : s1.pendingAcquire c = 0) (hrel : s1.pendingRelease c = 0)
    (hbound : s1.reqCnt c < 2 ^ 16) (own others : Nat)
    (hown : own + (actives (s.pc c i) + gives (s.pc c i) + (s.resSema c).toNat + s.inds c) =
      (purse s c).tokens + (actives pc + gives pc + (s1.resSema c).toNat + s1.inds c))
    (hothers : others + (indicates (s.pc c i) + s.inds c.other) =
      (purse s c.other).tokens + (indicates pc + s1.inds c.other))
    (htrade : Trade (purse s c) (purse s c.other) ⟨s1.reqCnt c, s1.undrained c, own⟩
      ⟨s.reqCnt c.other, s.undrained c.other, others⟩) : WakeInv (s1.setPc c i pc) := by
  have hframe' := hframe.setPc i pc
  have hload : ∀ w : Pc → Nat, load w ((s1.setPc c i pc).pc c) + w (s.pc c i) =
      load w (s.pc c) + w pc := by
    intro w
    rw [← hplace]
    exact load_setPc w s1 c i pc
  refine h.step hin hframe' ⟨?_, ?_, hacq, hrel, hbound⟩ hother hmaster ?_
  · have hold := h.counted_eq c
    have hnew := hload counted
    rw [LockState.setPc_reqCnt]
    omega
  · have hold := h.undrained_eq c
    have hnew := hload drains
    rw [LockState.setPc_undrained]
    omega
  · have hact := hload actives
    have hgive := hload gives
    have hind := hload indicates
    have hpurse : purse (s1.setPc c i pc) c = ⟨s1.reqCnt c, s1.undrained c, own⟩ := by
      simp only [purse, tokens, hframe'.pc, hframe'.inited, LockState.setPc_reqCnt,
        LockState.setPc_undrained, LockState.setPc_resSema, LockState.setPc_inds,
        Purse.mk.injEq, true_and] at hown ⊢
      omega
    have hpurseOther : purse (s1.setPc c i pc) c.other =
        ⟨s.reqCnt c.other, s.undrained c.other, others⟩ := by
      simp only [purse, tokens, hframe'.pc, hframe'.inited, hframe'.sema, hframe'.undrained,
        LockState.setPc_reqCnt, LockState.setPc_inds, hother, other_other,
        Purse.mk.injEq, true_and] at hothers ⊢
      omega
    rw [hpurse, hpurseOther]
    exact htrade

theorem WakeInv.move_keep {s1 : LockState n} (h : WakeInv s) (hin : s.inited c = true)
    (hframe : Frame s s1 c) (hplace : s1.pc c = s.pc c) (hcnt : s1.reqCnt = s.reqCnt)
    (hund : s1.undrained c = s.undrained c) (hacq : s1.pendingAcquire c = 0)
    (hrel : s1.pendingRelease c = 0) (hcounted : counted (s.pc c i) = counted pc)
    (hdrains : drains (s.pc c i) = drains pc)
    (hown : actives (s.pc c i) + gives (s.pc c i) + (s.resSema c).toNat + s.inds c =
      actives pc + gives pc + (s1.resSema c).toNat + s1.inds c)
    (hothers : indicates (s.pc c i) + s.inds c.other = indicates pc + s1.inds c.other) :
    WakeInv (s1.setPc c i pc) := by
  have hbound := h.bound c
  refine h.move hin hframe hplace (congrFun hcnt _) (.inr (congrFun hcnt c)) ?_ ?_ hacq hrel
    ?_ (purse s c).tokens (purse s c.other).tokens ?_ ?_ ?_
  · rw [hcnt]
    omega
  · omega
  · rw [hcnt]
    exact hbound
  · omega
  · omega
  · rw [hcnt, hund]
    exact .keep

theorem WakeInv.move_place (h : WakeInv s) (hin : s.inited c = true)
    (hcounted : counted (s.pc c i) = counted pc) (hdrains : drains (s.pc c i) = drains pc)
    (hown : actives (s.pc c i) + gives (s.pc c i) = actives pc + gives pc)
    (hothers : indicates (s.pc c i) = indicates pc) : WakeInv (s.setPc c i pc) := by
  apply h.move_keep hin (Frame.refl s c) rfl rfl rfl (h.acquires c) (h.releases c) hcounted hdrains
  · rw [hown]
  · rw [hothers]

theorem drains_le_counted (pc : Pc) : drains pc ≤ counted pc := by
  cases pc <;> simp [drains, counted]
  exact Bool.toNat_le _

section

variable (h : WakeInv s)
include h

theorem WakeInv.undrained_le (c : Cpu) : s.undrained c ≤ s.reqCnt c := by
  rw [h.undrained_eq, h.counted_eq]
  exact Finset.sum_le_sum fun i _ => drains_le_counted (s.pc c i)

theorem count_acquire_wakeInv (hpc : s.pc c i = .acqCall) (hroom : s.reqCnt c + 1 < 2 ^ 16)
    (hmaster : s.inited .master = true) :
    WakeInv ((s.counted c (cntList s.reqCnt c) (update s.reqCnt c (s.reqCnt c + 1))).setPc c i
        (.acqReply (cntList s.reqCnt c))) := by
  have hund : (s.counted c (cntList s.reqCnt c) (update s.reqCnt c
      (s.reqCnt c + 1))).undrained c = s.undrained c + (cntList s.reqCnt c).othersOnly.toNat := by
    simp only [LockState.counted, update_self]
    cases (cntList s.reqCnt c).othersOnly <;> rfl
  have hcnt : (s.counted c (cntList s.reqCnt c) (update s.reqCnt c
      (s.reqCnt c + 1))).reqCnt c = s.reqCnt c + 1 := update_self _ _ _
  refine h.move (h.inited_of_pc hpc (by simp)) ((Frame.refl s c).counted _ _) rfl
    (update_of_ne (other_ne c) _ _) (.inl hmaster) ?_ ?_ (h.acquires c)
    (h.releases c) (by rw [hcnt]; exact hroom) (purse s c).tokens (purse s c.other).tokens
    ?_ ?_ ?_
  · rw [hcnt, hpc]
    rfl
  · rw [hund, hpc]
    rfl
  · rw [hpc]
    rfl
  · rw [hpc]
    rfl
  · rw [hcnt, hund]
    have hlist := cntList_eq h.bound c
    cases hfirst : (cntList s.reqCnt c).othersOnly with
    | true =>
      rw [othersOnly_iff, hlist] at hfirst
      obtain ⟨hnone, hsome⟩ := hfirst
      have hle := h.undrained_le c
      exact .countFirst hnone (Nat.le_zero.mp (hnone ▸ hle)) hsome
    | false =>
      rw [Bool.eq_false_iff, ne_eq, othersOnly_iff, hlist] at hfirst
      exact .countMore hfirst

theorem WakeInv.undrained_lt (hpc : drains (s.pc c i) < counted (s.pc c i)) :
    s.undrained c < s.reqCnt c := by
  rw [h.undrained_eq, h.counted_eq]
  exact Finset.sum_lt_sum (fun j _ => drains_le_counted (s.pc c j)) ⟨i, Finset.mem_univ i, hpc⟩

theorem count_release_wakeInv (hpc : s.pc c i = .relCall) (hmaster : s.inited .master = true) :
    WakeInv ((s.setReqCnt (update s.reqCnt c (s.reqCnt c - 1))).setPc c i
      (.relReply (cntList (update s.reqCnt c (s.reqCnt c - 1)) c))) := by
  have hbound := h.bound c
  have hlt : s.undrained c < s.reqCnt c := h.undrained_lt (i := i) (by rw [hpc]; decide)
  have hactive : 0 < load actives (s.pc c) := load_pos hpc (by decide)
  have hcnt : update s.reqCnt c (s.reqCnt c - 1) c = s.reqCnt c - 1 := update_self _ _ _
  have hcntOther : update s.reqCnt c (s.reqCnt c - 1) c.other = s.reqCnt c.other :=
    update_of_ne (other_ne c) _ _
  have hlist : cntList (update s.reqCnt c (s.reqCnt c - 1)) c =
      ⟨s.reqCnt c - 1, s.reqCnt c.other⟩ := by
    rw [cntList_eq, hcnt, hcntOther]
    intro d
    by_cases hd : d = c
    · subst hd
      omega
    · rw [update_of_ne hd]
      exact h.bound d
  refine h.move (h.inited_of_pc hpc (by simp)) ((Frame.refl s c).setReqCnt _) rfl hcntOther
    (.inl hmaster) ?_ ?_ (h.acquires c) (h.releases c) ?_ (purse s c).tokens
    ((purse s c.other).tokens +
      (cntList (update s.reqCnt c (s.reqCnt c - 1)) c).othersOnly.toNat) ?_ ?_ ?_
  · simp only [LockState.setReqCnt, hcnt, hpc, counted]
    omega
  · simp only [LockState.setReqCnt, hpc, drains]
  · simp only [LockState.setReqCnt, hcnt]
    omega
  · simp only [LockState.setReqCnt, hpc, actives, gives]
  · simp only [LockState.setReqCnt, hpc, indicates]
    omega
  · simp only [LockState.setReqCnt, hcnt]
    cases hlast : (cntList (update s.reqCnt c (s.reqCnt c - 1)) c).othersOnly with
    | true =>
      rw [othersOnly_iff, hlist] at hlast
      obtain ⟨hzero, hsome⟩ := hlast
      simp only at hzero
      refine .handOver ?_ ?_ ?_ hsome
      · simp only [purse]
        omega
      · simp only [purse]
        omega
      · simp only [purse, tokens]
        omega
    | false =>
      rw [Bool.eq_false_iff, ne_eq, othersOnly_iff, hlist] at hlast
      refine .uncount ?_ ?_
      · simp only [purse]
        omega
      · simp only [purse] at hlast ⊢
        omega

theorem drain_wakeInv (hpc : s.pc c i = .acqDrain) (hsema : s.resSema c = true) :
    WakeInv (((s.setSema c false).drained c).setPc c i .acqWait) := by
  have hpos : 0 < s.undrained c := by
    rw [h.undrained_eq]
    exact load_pos hpc (by decide)
  have hund : ((s.setSema c false).drained c).undrained c = s.undrained c - 1 := update_self _ _ _
  have htoken : 0 < (purse s c).tokens := by
    simp only [purse, tokens, hsema, Bool.toNat_true]
    omega
  refine h.move (h.inited_of_pc hpc (by simp)) ((Frame.refl s c).setSema false).drained rfl rfl
    (.inr rfl) ?_ ?_ (h.acquires c)
    (h.releases c) (h.bound c) ((purse s c).tokens - 1) (purse s c.other).tokens ?_ ?_ ?_
  · rw [hpc]
    rfl
  · rw [hpc]
    simp only [drains]
    omega
  · simp only [hpc, hsema, actives, gives, LockState.drained, LockState.setSema,
      update_self, Bool.toNat_true, Bool.toNat_false]
    omega
  · rw [hpc]
    rfl
  · rw [hund]
    exact .drain hpos htoken

theorem WakeInv.no_token_of_fresh (hin : s.inited c = false) :
    (s.resSema c).toNat = 0 ∧ s.inds c = 0 := by
  have hzero : s.reqCnt c = 0 := by
    rw [h.counted_eq]
    exact load_eq_zero fun i => by rw [h.fresh c hin i]; rfl
  have hfull := ((h.conserved c).apart (.inl hzero)).1
  have hle := h.undrained_le c
  simp only [purse, tokens, hin, Bool.not_false, Bool.toNat_true] at hfull
  omega

theorem init_wakeInv (c : Cpu) : WakeInv (initStep s c) := by
  unfold initStep
  split
  · exact h
  · rename_i hin
    have hfalse : s.inited c = false := Bool.eq_false_of_not_eq_true hin
    have hreq : (if c = .master then fun _ => 0 else s.reqCnt) = s.reqCnt := by
      split
      · rename_i hmaster
        funext d
        rw [h.uncounted (hmaster ▸ hfalse) d]
      · rfl
    -- the spare token that was still to come is now in the semaphore
    have hspare := (h.no_token_of_fresh hfalse).1
    have hpurse : ∀ d, purse { s with
          inited := update s.inited c true
          resSema := update s.resSema c true } d = purse s d := by
      intro d
      by_cases hd : d = c
      · subst hd
        simp only [purse, tokens, update_self, hfalse, Bool.not_true, Bool.not_false,
          Bool.toNat_true, Bool.toNat_false, Purse.mk.injEq, true_and]
        omega
      · simp only [purse, tokens, update_of_ne hd]
    rw [hreq]
    refine ⟨fun d => ?_, h.counted_eq, h.undrained_eq, h.acquires, h.releases, h.bound, ?_, ?_⟩
    · rw [hpurse, hpurse]
      exact h.conserved d
    · intro d hd
      by_cases hdc : d = c
      · subst hdc
        simp at hd
      · simp only [update_of_ne hdc] at hd
        exact h.fresh d hd
    · intro hmaster d
      by_cases hc : Cpu.master = c
      · subst hc
        simp at hmaster
      · simp only [update_of_ne hc] at hmaster
        exact h.uncounted hmaster d

theorem available_wakeInv (hin : s.inited c = true) (hpos : 0 < s.inds c)
    (hsema : s.resSema c = false) : WakeInv ((s.setInds c (s.inds c - 1)).setSema c true) := by
  have hframe := ((Frame.refl s c).setInds c (s.inds c - 1)).setSema true
  refine h.step hin hframe ⟨h.counted_eq c, h.undrained_eq c, h.acquires c, h.releases c,
    h.bound c⟩ rfl (.inr rfl) ?_
  have hown : purse ((s.setInds c (s.inds c - 1)).setSema c true) c = purse s c := by
    simp only [purse, tokens, LockState.setInds, LockState.setSema, update_self, hsema,
      Bool.toNat_true, Bool.toNat_false, Purse.mk.injEq, true_and]
    omega
  have hothers : purse ((s.setInds c (s.inds c - 1)).setSema c true) c.other = purse s c.other := by
    simp only [purse, tokens, LockState.setInds, LockState.setSema, update_other]
  rw [hown, hothers]
  exact .keep

theorem WakeInv.inited_of_inds (hpos : 0 < s.inds c) : s.inited c = true := by
  by_contra hin
  have hnone := (h.no_token_of_fresh (Bool.eq_false_of_not_eq_true hin)).2
  omega

end

theorem lockStep_wakeInv {s' : LockState n} (e : LockEvent n) (h : WakeInv s)
    (hok : NothingDropped s e) (hstep : lockStep s e = some s') : WakeInv s' := by
  cases lockStep_cases hstep with
  | init c => exact init_wakeInv h c
  | acquire hpc hin =>
    apply h.move_place hin
    all_goals rw [hpc]; rfl
  | acquireFails => exact h
  | release hpc =>
    apply h.move_place (h.inited_of_pc hpc (by simp))
    all_goals rw [hpc]; rfl
  | countAcquire hpc hmaster =>
    rw [addU16_one (hok hpc)]
    exact count_acquire_wakeInv h hpc (hok hpc) hmaster
  | countAcquireFails hpc =>
    apply h.move_place (h.inited_of_pc hpc (by simp))
    all_goals rw [hpc]; rfl
  | countRelease hpc hmaster => exact count_release_wakeInv h hpc hmaster
  | @countReleaseFails c i hpc hzero =>
    have hcounted : 0 < s.reqCnt c := by
      rw [h.counted_eq]
      exact load_pos hpc (by decide)
    cases hmaster : s.inited .master with
    | true =>
      have := hzero hmaster
      omega
    | false =>
      have := h.uncounted hmaster c
      omega
  | @replyAcquire c i cnt hpc =>
    apply h.move_place (h.inited_of_pc hpc (by simp))
    all_goals rw [hpc]
    all_goals cases hcnt : cnt.othersOnly
    all_goals simp [Pc.afterAcquireCnt, hcnt, counted, drains, actives, gives, indicates]
  | @replyRelease c i cnt hpc =>
    apply h.move_place (h.inited_of_pc hpc (by simp))
    all_goals rw [hpc]
    all_goals cases hcnt : cnt.othersOnly
    all_goals simp [Pc.afterReleaseCnt, hcnt, counted, drains, actives, gives, indicates]
  | loseAcquire hpc =>
    obtain ⟨-, rfl⟩ := hok
    apply h.move_keep (h.inited_of_pc hpc (by simp))
      ((Frame.refl s Cpu.slave).setPendingAcquire _) rfl rfl rfl
    · simp only [LockState.setPendingAcquire, update_self, h.acquires, Bool.toNat_false]
    · exact h.releases .slave
    all_goals rw [hpc]; rfl
  | loseRelease hpc | loseAcquireReply hpc | loseReleaseReply hpc =>
    rw [hok.1] at hpc
    cases hpc
  | staleAcquire | staleRelease | staleAcquireReply | staleReleaseReply => exact absurd hok id
  | serveAcquire hpos | serveAcquireFails hpos =>
    rw [h.acquires] at hpos
    cases hpos
  | serveRelease hpos | serveReleaseFails hpos =>
    rw [h.releases] at hpos
    cases hpos
  | drain hpc hsema => exact drain_wakeInv h hpc hsema
  | drainFails _ hsema =>
    have htrue : s.resSema _ = true := hok
    rw [hsema] at htrue
    cases htrue
  | @take c i hpc hsema =>
    apply h.move_keep (h.inited_of_pc hpc (by simp)) ((Frame.refl s c).setSema false)
      rfl rfl rfl (h.acquires c) (h.releases c)
    all_goals rw [hpc]
    · rfl
    · rfl
    · simp [actives, gives, LockState.setSema, hsema]
    · rfl
  | timeout => exact absurd hok id
  | @indicate c i sent ok hpc =>
    obtain ⟨rfl, rfl⟩ := hok
    apply h.move_keep (h.inited_of_pc hpc (by simp)) ((Frame.refl s c).setInds c.other _)
      rfl rfl rfl (h.acquires c) (h.releases c)
    all_goals rw [hpc]
    · rfl
    · rfl
    · simp [actives, gives, LockState.setInds, update_of_ne (other_ne c).symm]
    · simp [indicates, LockState.setInds, Nat.add_comm]
  | available hpos hin => exact available_wakeInv h hin hpos hok
  | availableFails hpos hin =>
    rw [h.inited_of_inds hpos] at hin
    cases hin
  | @give c i hpc =>
    have hsema : s.resSema c = false := hok
    apply h.move_keep (h.inited_of_pc hpc (by simp)) ((Frame.refl s c).setSema true)
      rfl rfl rfl (h.acquires c) (h.releases c)
    all_goals rw [hpc]
    · rfl
    · rfl
    · simp [actives, gives, LockState.setSema, hsema]
    · rfl

theorem start_wakeInv (n : Nat) : WakeInv (LockState.start n) := by
  have hload : ∀ (w : Pc → Nat) (c : Cpu), w .idle = 0 →
      load w ((LockState.start n).pc c) = 0 := fun w c hw => load_eq_zero fun _ => hw
  have hpurse : ∀ c, purse (LockState.start n) c = ⟨0, 0, 1⟩ := by
    intro c
    simp only [purse, tokens, hload actives c rfl, hload gives c rfl, hload indicates c.other rfl]
    rfl
  refine ⟨fun c => ?_, fun c => (hload counted c rfl).symm, fun c => (hload drains c rfl).symm,
    fun _ => rfl, fun _ => rfl, fun _ => Nat.two_pow_pos 16, fun _ _ _ => rfl, fun _ _ => rfl⟩
  rw [hpurse, hpurse]
  exact ⟨fun _ => ⟨rfl, rfl⟩, fun hpos => absurd hpos (Nat.lt_irrefl 0)⟩

theorem exists_of_load_pos {w : Pc → Nat} {place : Fin n → Pc} (h : 0 < load w place) :
    ∃ i, 0 < w (place i) := by
  by_contra hnone
  have hzero : load w place = 0 := load_eq_zero fun i =>
    Nat.eq_zero_of_not_pos fun hi => hnone ⟨i, hi⟩
  omega

theorem awaits_of_counted (hcounted : 0 < counted pc) (hfree : actives pc = 0) :
    awaits pc = true := by
  cases pc <;> simp_all [counted, actives, awaits]

theorem counted_of_awaits (h : awaits pc = true) : 0 < counted pc := by
  cases pc <;> simp_all [counted, awaits]

theorem wakeComing_of_tokens (hfree : Free s) (h : 0 < tokens s c) : WakeComing s c := by
  have hactive : load actives (s.pc c) = 0 := load_eq_zero (hfree c)
  by_contra hnone
  simp only [WakeComing, not_or, Bool.not_eq_true] at hnone
  obtain ⟨hsema, hinds, hindicates, hgives⟩ := hnone
  have hzero : load gives (s.pc c) = 0 := by
    by_contra hpos
    exact hgives (exists_of_load_pos (Nat.pos_of_ne_zero hpos))
  have hnoInd : load indicates (s.pc c.other) = 0 := by
    by_contra hpos
    exact hindicates (exists_of_load_pos (Nat.pos_of_ne_zero hpos))
  simp only [tokens, hactive, hzero, hnoInd, hsema, Bool.toNat_false] at h
  omega

theorem WakeInv.noWakeLost (h : WakeInv s) : NoWakeLost s := by
  rintro hfree ⟨c, i, hwaits⟩
  -- a CPU with a counted request and a token has a waiting task, since nobody holds
  have hserved : ∀ d, 0 < s.reqCnt d → 0 < (purse s d).tokens →
      (∃ j, awaits (s.pc d j) = true) ∧ WakeComing s d := by
    intro d hcnt htoken
    rw [h.counted_eq] at hcnt
    obtain ⟨j, hj⟩ := exists_of_load_pos hcnt
    have hin : s.inited d = true := h.inited_of_pc (i := j) rfl fun hidle => by
      rw [hidle] at hj
      exact absurd hj (Nat.lt_irrefl 0)
    refine ⟨⟨j, awaits_of_counted hj (hfree d j)⟩, wakeComing_of_tokens hfree ?_⟩
    simp only [purse, hin, Bool.not_true, Bool.toNat_false] at htoken
    exact htoken
  have hcnt : 0 < s.reqCnt c := by
    rw [h.counted_eq]
    exact load_pos (t := i) rfl (counted_of_awaits hwaits)
  rcases (h.conserved c).exists_token hcnt with htoken | ⟨hcntOther, htoken⟩
  · exact ⟨c, hserved c hcnt htoken⟩
  · exact ⟨c.other, hserved c.other hcntOther htoken⟩

/-- As long as no token is dropped, no request waits for a free resource without a wake-up. -/
theorem reached_noWakeLost {n : Nat} {s : LockState n}
    (h : Reached lockStep NothingDropped (LockState.start n) s) : NoWakeLost s := by
  have hinv : WakeInv s := h.invariant WakeInv (start_wakeInv n)
    fun _ e _ hinv hok hstep => lockStep_wakeInv e hinv hok hstep
  exact hinv.noWakeLost

-- The master has released the resource, and the indication is under way to the slave.
theorem reached_noWakeLost_indicated : ∃ s, Reached lockStep NothingDropped (LockState.start 1) s ∧
      (s.pc .slave 0 = .acqWait ∧ s.inds .slave = 1) ∧ NoWakeLost s :=
  exists_reached_and (fun _ => reached_noWakeLost)
    [.init .master, .init .slave,
      .acquire .master 0, .count .master 0, .reply .master 0, .take .master 0,
      .acquire .slave 0, .count .slave 0, .reply .slave 0, .drain .slave 0,
      .release .master 0, .count .master 0, .reply .master 0,
      .indicate .master 0 true true, .give .master 0]
    (by decide)

-- The indication sets the semaphore that still holds the spare token, and the slave then
-- drains the one token and waits.
theorem indication_drained_away :
    ¬ ∀ n (s : LockState n), Reached lockStep anyStep (LockState.start n) s → NoWakeLost s := by
  intro hall
  obtain ⟨s, hreached, hslave, hmaster, hsema, hinds⟩ := exists_reached lockStep anyStep
    (LockState.start 1) (fun s => s.pc .slave 0 = .acqWait ∧ s.pc .master 0 = .idle ∧
      s.resSema .slave = false ∧ s.inds .slave = 0)
    [.init .master, .init .slave,
      .acquire .master 0, .count .master 0, .reply .master 0, .take .master 0,
      .acquire .slave 0, .count .slave 0, .reply .slave 0,
      .release .master 0, .count .master 0, .reply .master 0,
      .indicate .master 0 true true, .available .slave, .give .master 0, .drain .slave 0]
    (by decide)
  have hpcs : ∀ c i, s.pc c i = if c = .slave then .acqWait else .idle := by
    intro c i
    have hi : i = 0 := Subsingleton.elim i 0
    subst hi
    cases c with
    | master => exact hmaster
    | slave => exact hslave
  have hfree : Free s := by
    intro c i
    rw [hpcs]
    cases c <;> rfl
  obtain ⟨c, ⟨i, hwaits⟩, hwake⟩ := hall 1 s hreached hfree ⟨.slave, 0, by rw [hslave]; rfl⟩
  cases c with
  | master =>
    rw [hpcs] at hwaits
    cases hwaits
  | slave =>
    rcases hwake with hset | hind | ⟨j, hj⟩ | ⟨j, hj⟩
    · rw [hsema] at hset
      cases hset
    · omega
    · rw [hpcs] at hj
      cases hj
    · rw [hpcs] at hj
      cases hj

end BekenSoc.AmpResLockWakeups
