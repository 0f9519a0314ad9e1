import BekenSoc.AmpResLockWakeups

namespace BekenSoc.AmpResLockLedger

open Function CRuntime DualCore GuardedRuns TaskWeights AmpResLock AmpResLockExclusion
open AmpResLockWakeups

variable {n : Nat}
variable {s' : LockState n} {c : Cpu} {i : Fin n} {e : LockEvent n}

/-- `unreleased` is not in the code: it counts the requests whose release failed. -/
structure Ledger (n : Nat) where
  lock : LockState n
  unreleased : Cpu → Nat

def Ledger.start (n : Nat) : Ledger n := ⟨LockState.start n, fun _ => 0⟩

variable {r r' : Ledger n}

def releaseFails (s : LockState n) (c : Cpu) : Bool :=
  match ampResReleaseCnt (s.inited .master) s.reqCnt c with
  | .ok _ => false
  | .error _ => true

def failedReleases (s : LockState n) (d : Cpu) : LockEvent n → Nat
  | .count c i => (decide (d = c ∧ s.pc c i = .relCall) && releaseFails s c).toNat
  | .lose i pending => (decide (d = .slave ∧ s.pc .slave i = .relCall) && !pending).toNat
  | .servePendingRelease => (decide (d = .slave) && releaseFails s .slave).toNat
  | _ => 0

def ledgerStep (r : Ledger n) (e : LockEvent n) : Option (Ledger n) :=
  match lockStep r.lock e with
  | none => none
  | some s => some ⟨s, fun d => r.unreleased d + failedReleases r.lock d e⟩

/-- The counter of each CPU, with the requests that the master has still to count, shows
the requests that are waiting, held or not yet released: the acquires that returned an
error have left nothing. -/
def Accounted (r : Ledger n) : Prop :=
  ∀ c, r.lock.reqCnt c + r.lock.pendingAcquire c =
    load counted (r.lock.pc c) + r.lock.pendingRelease c + r.unreleased c

def lossUncounted : Pc → Bool → Bool
  | .acqCall, pending => !pending
  | .acqReply _, _ => false
  | _, _ => true

/-- An acquire returns an error only while its request is neither counted nor left to the
master.  The counters do not wrap, and only an initialised master answers. -/
def ErrorsUncounted (r : Ledger n) : LockEvent n → Prop
  | .count c i => r.lock.pc c i = .acqCall → r.lock.reqCnt c + 1 < 2 ^ 16
  | .servePendingAcquire => r.lock.reqCnt .slave + 1 < 2 ^ 16
  | .lose i pending => lossUncounted (r.lock.pc .slave i) pending = true
  | .stale _ _ => r.lock.inited .master = true
  | .drain c _ => r.lock.resSema c = true
  | .timeout _ _ => False
  | _ => True

instance (r : Ledger n) : (e : LockEvent n) → Decidable (ErrorsUncounted r e)
  | .count .. => inferInstanceAs (Decidable (_ → _))
  | .lose .. | .stale .. | .drain .. => inferInstanceAs (Decidable (_ = _))
  | .servePendingAcquire => inferInstanceAs (Decidable (_ < _))
  | .timeout .. => isFalse id
  | .init .. | .acquire .. | .release .. | .reply .. | .servePendingRelease | .take ..
  | .indicate .. | .available .. | .give .. => isTrue trivial

structure LedgerInv (r : Ledger n) : Prop where
  accounted : Accounted r
  uncounted : r.lock.inited .master = false → ∀ c, r.lock.reqCnt c = 0 ∧ r.lock.pendingAcquire c = 0

theorem LedgerInv.move {failed : Cpu → Nat} (h : LedgerInv r) (hframe : Frame r.lock s' c)
    (hother : s'.reqCnt c.other = r.lock.reqCnt c.other) (hfailed : failed c.other = 0)
    (hmaster : r.lock.inited .master = true ∨
      s'.reqCnt c = r.lock.reqCnt c ∧ s'.pendingAcquire c = r.lock.pendingAcquire c)
    (hbalance : s'.reqCnt c + s'.pendingAcquire c + load counted (r.lock.pc c) +
      r.lock.pendingRelease c = r.lock.reqCnt c + r.lock.pendingAcquire c +
      load counted (s'.pc c) + s'.pendingRelease c + failed c)
    : LedgerInv ⟨s', fun d => r.unreleased d + failed d⟩ := by
  constructor
  · intro d
    have hold := h.accounted d
    by_cases hd : d = c
    · subst hd
      simp only
      omega
    · obtain rfl := eq_other_of_ne hd
      simp only [hframe.pc, hframe.pendingAcquire, hframe.pendingRelease, hother, hfailed]
      exact hold
  · intro hfalse d
    have hfalse' : r.lock.inited .master = false := hframe.inited ▸ hfalse
    obtain ⟨hcnt, hpending⟩ : s'.reqCnt c = r.lock.reqCnt c ∧
        s'.pendingAcquire c = r.lock.pendingAcquire c := by
      rcases hmaster with htrue | hsame
      · rw [htrue] at hfalse'
        cases hfalse'
      · exact hsame
    by_cases hd : d = c
    · subst hd
      rw [hcnt, hpending]
      exact h.uncounted hfalse' d
    · obtain rfl := eq_other_of_ne hd
      rw [hother, hframe.pendingAcquire]
      exact h.uncounted hfalse' c.other

theorem LedgerInv.move_task {s1 : LockState n} {pc : Pc} {failed : Cpu → Nat} (h : LedgerInv r)
    (hframe : Frame r.lock s1 c) (hplace : s1.pc c = r.lock.pc c)
    (hother : s1.reqCnt c.other = r.lock.reqCnt c.other) (hfailed : failed c.other = 0)
    (hmaster : r.lock.inited .master = true ∨
      s1.reqCnt c = r.lock.reqCnt c ∧ s1.pendingAcquire c = r.lock.pendingAcquire c)
    (hbalance : s1.reqCnt c + s1.pendingAcquire c + counted (r.lock.pc c i) +
      r.lock.pendingRelease c = r.lock.reqCnt c + r.lock.pendingAcquire c + counted pc +
      s1.pendingRelease c + failed c)
    : LedgerInv ⟨s1.setPc c i pc, fun d => r.unreleased d + failed d⟩ := by
  have hload := load_setPc counted s1 c i pc
  rw [hplace] at hload
  refine h.move (hframe.setPc i pc) hother hfailed hmaster ?_
  show s1.reqCnt c + s1.pendingAcquire c + load counted (r.lock.pc c) + r.lock.pendingRelease c =
    r.lock.reqCnt c + r.lock.pendingAcquire c + load counted ((s1.setPc c i pc).pc c) +
      s1.pendingRelease c + failed c
  omega

theorem LedgerInv.move_only {s1 : LockState n} {pc : Pc} (h : LedgerInv r)
    (hframe : Frame r.lock s1 c) (hplace : s1.pc c = r.lock.pc c) (hcnt : s1.reqCnt = r.lock.reqCnt)
    (hacq : s1.pendingAcquire c = r.lock.pendingAcquire c)
    (hrel : s1.pendingRelease c = r.lock.pendingRelease c)
    (hcounted : counted (r.lock.pc c i) = counted pc) :
    LedgerInv ⟨s1.setPc c i pc, fun d => r.unreleased d + 0⟩ := by
  refine h.move_task hframe hplace (congrFun hcnt _) rfl (.inr ⟨congrFun hcnt c, hacq⟩) ?_
  rw [hcnt, hacq, hrel, hcounted]
  omega

theorem init_ledgerInv (h : LedgerInv r) (c : Cpu) :
    LedgerInv ⟨initStep r.lock c, fun d => r.unreleased d + 0⟩ := by
  unfold initStep
  split
  · exact h
  · rename_i hfresh
    have hcnt : (if c = .master then fun _ => 0 else r.lock.reqCnt) = r.lock.reqCnt := by
      split
      · rename_i hc
        subst hc
        funext d
        exact (h.uncounted (Bool.eq_false_of_not_eq_true hfresh) d).1.symm
      · rfl
    constructor
    · intro d
      simp only [hcnt]
      exact h.accounted d
    · intro hfalse d
      simp only [hcnt]
      apply h.uncounted
      by_cases hc : c = .master
      · subst hc
        simp at hfalse
      · simpa [update_of_ne (Ne.symm hc)] using hfalse

theorem releaseFails_of_pos {s : LockState n} (hin : s.inited .master = true)
    (hpos : 0 < s.reqCnt c) : releaseFails s c = false := by
  rw [releaseFails, ampResReleaseCnt_of_pos hin hpos]

theorem releaseFails_of_zero {s : LockState n} (hzero : s.inited .master = true → s.reqCnt c = 0) :
    releaseFails s c = true := by
  obtain ⟨code, hcode⟩ := ampResReleaseCnt_of_zero hzero
  rw [releaseFails, hcode]

theorem counted_afterAcquireCnt (cnt : ReqCnt) : counted (.afterAcquireCnt cnt) = 1 := by
  unfold Pc.afterAcquireCnt
  split <;> rfl

theorem counted_afterReleaseCnt (cnt : ReqCnt) : counted (.afterReleaseCnt cnt) = 0 := by
  unfold Pc.afterReleaseCnt
  split <;> rfl

theorem failedReleases_count_other (s : LockState n) (c : Cpu) (i : Fin n) :
    failedReleases s c.other (.count c i) = 0 := by
  simp [failedReleases, other_ne]

section

variable (h : LedgerInv r)
include h

theorem count_ledgerInv (hok : ErrorsUncounted r (.count c i))
    (hmove : LockMove r.lock (.count c i) s') :
    LedgerInv ⟨s', fun d => r.unreleased d + failedReleases r.lock d (.count c i)⟩ := by
  have hfailed := failedReleases_count_other r.lock c i
  cases hmove with
  | countAcquire hpc hin =>
    refine h.move_task ((Frame.refl _ c).counted _ _) rfl
      (update_of_ne (other_ne c) _ _) hfailed (.inl hin) ?_
    simp only [LockState.counted, update_self, addU16_one (hok hpc), hpc, counted,
      failedReleases, reduceCtorEq, and_false, decide_false, Bool.false_and, Bool.toNat_false]
    omega
  | countAcquireFails hpc =>
    refine h.move_task (Frame.refl _ c) rfl rfl hfailed (.inr ⟨rfl, rfl⟩) ?_
    simp [hpc, counted, failedReleases]
  | countRelease hpc hin hpos =>
    refine h.move_task ((Frame.refl _ c).setReqCnt _) rfl
      (update_of_ne (other_ne c) _ _) hfailed (.inl hin) ?_
    simp only [LockState.setReqCnt, update_self, hpc, counted, failedReleases,
      releaseFails_of_pos hin hpos, Bool.and_false, Bool.toNat_false]
    omega
  | countReleaseFails hpc hzero =>
    refine h.move_task (Frame.refl _ c) rfl rfl hfailed (.inr ⟨rfl, rfl⟩) ?_
    simp only [hpc, counted, failedReleases, releaseFails_of_zero hzero, and_self,
      decide_true, Bool.and_self, Bool.toNat_true]
    omega

theorem lose_ledgerInv {pending : Bool} (hok : lossUncounted (r.lock.pc .slave i) pending = true)
    (hmove : LockMove r.lock (.lose i pending) s') :
    LedgerInv ⟨s', fun d => r.unreleased d + failedReleases r.lock d (.lose i pending)⟩ := by
  have hfailed : failedReleases r.lock Cpu.slave.other (.lose i pending) = 0 := by
    simp [failedReleases, Cpu.other]
  cases hmove with
  | loseAcquire hpc =>
    simp only [hpc, lossUncounted, Bool.not_eq_true'] at hok
    subst hok
    refine h.move_task ((Frame.refl _ _).setPendingAcquire _) rfl rfl hfailed (.inr ⟨rfl, ?_⟩) ?_
    · simp [LockState.setPendingAcquire]
    · simp [LockState.setPendingAcquire, hpc, counted, failedReleases]
  | loseRelease hpc =>
    refine h.move_task ((Frame.refl _ _).setPendingRelease _) rfl rfl hfailed (.inr ⟨rfl, rfl⟩) ?_
    -- The release is pending or has failed, and counts once either way.
    have honce : pending.toNat + (!pending).toNat = 1 := by cases pending <;> rfl
    simp only [LockState.setPendingRelease, update_self, hpc, counted,
      failedReleases, and_self, decide_true, Bool.true_and]
    omega
  | loseAcquireReply hpc =>
    rw [hpc] at hok
    cases hok
  | loseReleaseReply hpc =>
    refine h.move_task (Frame.refl _ _) rfl rfl hfailed (.inr ⟨rfl, rfl⟩) ?_
    simp [hpc, counted, failedReleases]

theorem stale_ledgerInv {cnt : ReqCnt} (hmaster : r.lock.inited .master = true)
    (hmove : LockMove r.lock (.stale i cnt) s') : LedgerInv ⟨s', fun d => r.unreleased d + 0⟩ := by
  cases hmove with
  | staleAcquire hpc =>
    refine h.move_task ((Frame.refl _ _).setPendingAcquire _) rfl rfl rfl (.inl hmaster) ?_
    rw [hpc, counted_afterAcquireCnt]
    simp only [LockState.setPendingAcquire, update_self, counted]
    omega
  | staleRelease hpc =>
    refine h.move_task ((Frame.refl _ _).setPendingRelease _) rfl rfl rfl (.inl hmaster) ?_
    rw [hpc, counted_afterReleaseCnt]
    simp only [LockState.setPendingRelease, update_self, counted]
    omega
  | staleAcquireReply hpc =>
    refine h.move_only (Frame.refl _ _) rfl rfl rfl rfl ?_
    rw [hpc, counted_afterAcquireCnt, counted]
  | staleReleaseReply hpc =>
    refine h.move_only (Frame.refl _ _) rfl rfl rfl rfl ?_
    rw [hpc, counted_afterReleaseCnt]
    rfl

theorem serve_acquire_ledgerInv (hroom : r.lock.reqCnt .slave + 1 < 2 ^ 16)
    (hmove : LockMove r.lock .servePendingAcquire s') :
    LedgerInv ⟨s', fun d => r.unreleased d + 0⟩ := by
  cases hmove with
  | serveAcquire hpos hmaster =>
    refine h.move (((Frame.refl _ .slave).setPendingAcquire _).counted _ _) ?_ rfl (.inl hmaster) ?_
    · rfl
    simp only [LockState.counted, LockState.setPendingAcquire, update_self, addU16_one hroom]
    omega
  | serveAcquireFails hpos hmaster =>
    have hnone := (h.uncounted hmaster .slave).2
    omega

theorem serve_release_ledgerInv (hmove : LockMove r.lock .servePendingRelease s') :
    LedgerInv ⟨s', fun d =>
      r.unreleased d + failedReleases r.lock d .servePendingRelease⟩ := by
  have hfailed : failedReleases r.lock Cpu.slave.other .servePendingRelease = 0 := by
    simp [failedReleases, Cpu.other]
  cases hmove with
  | serveRelease hpending hin hpos =>
    refine h.move (((Frame.refl _ .slave).setPendingRelease _).setReqCnt _) ?_ hfailed (.inl hin) ?_
    · rfl
    simp only [LockState.setPendingRelease, LockState.setReqCnt, update_self,
      failedReleases, releaseFails_of_pos hin hpos, Bool.and_false, Bool.toNat_false]
    omega
  | serveReleaseFails hpending hzero =>
    refine h.move ((Frame.refl _ .slave).setPendingRelease _) rfl hfailed (.inr ⟨rfl, rfl⟩) ?_
    simp only [LockState.setPendingRelease, update_self, failedReleases,
      releaseFails_of_zero hzero, decide_true, Bool.and_self, Bool.toNat_true]
    omega

end

theorem ledgerStep_cases (h : ledgerStep r e = some r') : LockMove r.lock e r'.lock ∧
      r' = ⟨r'.lock, fun d => r.unreleased d + failedReleases r.lock d e⟩ := by
  unfold ledgerStep at h
  split at h
  · cases h
  · rename_i s' hlock
    cases h
    exact ⟨lockStep_cases hlock, rfl⟩

theorem lockMove_ledgerInv (h : LedgerInv r) (hok : ErrorsUncounted r e)
    (hmove : LockMove r.lock e s') :
    LedgerInv ⟨s', fun d => r.unreleased d + failedReleases r.lock d e⟩ := by
  cases e with
  | init c =>
    cases hmove
    exact init_ledgerInv h c
  | acquire =>
    cases hmove with
    | acquire hpc =>
      refine h.move_only (Frame.refl _ _) rfl rfl rfl rfl ?_
      rw [hpc]
      rfl
    | acquireFails => exact h
  | release =>
    cases hmove with
    | release hpc =>
      refine h.move_only (Frame.refl _ _) rfl rfl rfl rfl ?_
      rw [hpc]
      rfl
  | count => exact count_ledgerInv h hok hmove
  | reply =>
    cases hmove with
    | replyAcquire hpc =>
      refine h.move_only (Frame.refl _ _) rfl rfl rfl rfl ?_
      rw [hpc, counted_afterAcquireCnt, counted]
    | replyRelease hpc =>
      refine h.move_only (Frame.refl _ _) rfl rfl rfl rfl ?_
      rw [hpc, counted_afterReleaseCnt]
      rfl
  | lose => exact lose_ledgerInv h hok hmove
  | stale => exact stale_ledgerInv h hok hmove
  | servePendingAcquire => exact serve_acquire_ledgerInv h hok hmove
  | servePendingRelease => exact serve_release_ledgerInv h hmove
  | drain c =>
    cases hmove with
    | drain hpc =>
      refine h.move_only ((Frame.refl _ _).setSema _).drained rfl rfl rfl rfl ?_
      rw [hpc]
      rfl
    | drainFails _ hsema =>
      have htrue : r.lock.resSema c = true := hok
      rw [hsema] at htrue
      cases htrue
  | take =>
    cases hmove with
    | take hpc =>
      refine h.move_only ((Frame.refl _ _).setSema _) rfl rfl rfl rfl ?_
      rw [hpc]
      rfl
  | timeout => exact absurd hok id
  | indicate c i sent ok =>
    cases hmove with
    | indicate hpc =>
      refine h.move_only ((Frame.refl _ _).setInds _ _) rfl rfl rfl rfl ?_
      rw [hpc]
      cases ok <;> rfl
  | available c =>
    cases hmove with
    | available =>
      exact h.move (((Frame.refl _ c).setInds _ _).setSema _) rfl rfl (.inr ⟨rfl, rfl⟩) rfl
    | availableFails => exact h.move ((Frame.refl _ c).setInds _ _) rfl rfl (.inr ⟨rfl, rfl⟩) rfl
  | give =>
    cases hmove with
    | give hpc =>
      refine h.move_only ((Frame.refl _ _).setSema _) rfl rfl rfl rfl ?_
      rw [hpc]
      rfl

theorem ledgerStep_inv (e : LockEvent n) (h : LedgerInv r) (hok : ErrorsUncounted r e)
    (hstep : ledgerStep r e = some r') : LedgerInv r' := by
  obtain ⟨hmove, heq⟩ := ledgerStep_cases hstep
  rw [heq]
  exact lockMove_ledgerInv h hok hmove

theorem start_ledgerInv (n : Nat) : LedgerInv (Ledger.start n) := by
  constructor
  · intro c
    have hload : load counted ((LockState.start n).pc c) = 0 := load_eq_zero fun _ => rfl
    show 0 + 0 = load counted ((LockState.start n).pc c) + 0 + 0
    rw [hload]
  · intro _ c
    exact ⟨rfl, rfl⟩

/-- The counters show the requests that there are, if only uncounted ones end with an error. -/
theorem reached_accounted {n : Nat} {r : Ledger n}
    (h : Reached ledgerStep ErrorsUncounted (Ledger.start n) r) : Accounted r :=
  (h.invariant LedgerInv (start_ledgerInv n)
    fun _ e _ hinv hok hstep => ledgerStep_inv e hinv hok hstep).accounted

-- One acquire on each CPU: the master holds the resource, and the request of the slave is
-- counted and waits for it.
theorem reached_accounted_waiting : ∃ r, Reached ledgerStep ErrorsUncounted (Ledger.start 1) r ∧
      (r.lock.reqCnt .slave = 1 ∧ r.lock.pc .master 0 = .hold) ∧ Accounted r :=
  exists_reached_and (fun _ => reached_accounted)
    [.init .slave, .acquire .slave 0, .lose 0 false, .init .master,
      .acquire .master 0, .count .master 0, .reply .master 0, .take .master 0,
      .acquire .slave 0, .count .slave 0, .reply .slave 0, .drain .slave 0]
    (by decide)

-- The acquire of the slave times out while the master holds the resource.
theorem timeout_leaves_request :
    ¬ ∀ n (r : Ledger n), Reached ledgerStep anyStep (Ledger.start n) r → Accounted r := by
  intro hall
  obtain ⟨r, hreached, hpc, hcnt, hrel, hfailed⟩ := exists_reached ledgerStep anyStep
    (Ledger.start 1) (fun r => r.lock.pc .slave 0 = .idle ∧ r.lock.reqCnt .slave = 1 ∧
      r.lock.pendingRelease .slave = 0 ∧ r.unreleased .slave = 0)
    [.init .master, .init .slave,
      .acquire .master 0, .count .master 0, .reply .master 0, .take .master 0,
      .acquire .slave 0, .count .slave 0, .reply .slave 0, .drain .slave 0, .timeout .slave 0]
    (by decide)
  have hnone : load counted (r.lock.pc .slave) = 0 := by
    apply load_eq_zero
    intro i
    rw [Subsingleton.elim i 0, hpc]
    rfl
  have haccount := hall 1 r hreached .slave
  omega

end BekenSoc.AmpResLockLedger
