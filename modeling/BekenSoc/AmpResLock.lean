import Mathlib.Data.Fintype.Basic
import BekenSoc.CRuntime
import BekenSoc.DualCore

/-!
The resource lock that the two CPUs share (`amp_res_lock.c`), for one resource.

The request counters live on the master CPU, each CPU has a binary semaphore of
its own, and the CPUs talk through IPC calls.  A step of the model is one atomic
piece of `amp_res_lock_acquire` or `amp_res_lock_release` on some task, or the
handling of one IPC command in the interrupt of the other CPU.
-/

namespace BekenSoc.AmpResLock

open Function CRuntime DualCore

structure ReqCnt where
  selfReqCnt : Nat
  othersReqCnt : Nat
  deriving DecidableEq

def ReqCnt.othersOnly (cnt : ReqCnt) : Bool :=
  decide (cnt.selfReqCnt = 0) && decide (0 < cnt.othersReqCnt)

def cntList (reqCnt : Cpu → Nat) (cpu : Cpu) : ReqCnt where
  selfReqCnt := reqCnt cpu
  othersReqCnt := subU16 (([Cpu.master, .slave].map reqCnt).foldl addU16 0) (reqCnt cpu)

/-- `amp_res_acquire_cnt`, on the master CPU.  The checks of `res_id` and
`cpu_id` cannot fail for the callers in this file. -/
def ampResAcquireCnt (inited : Bool) (reqCnt : Cpu → Nat) (cpu : Cpu) :
    Except BkErr (ReqCnt × (Cpu → Nat)) :=
  if inited then
    .ok (cntList reqCnt cpu, update reqCnt cpu (addU16 (reqCnt cpu) 1))
  else .error .errNotInit

def ampResReleaseCnt (inited : Bool) (reqCnt : Cpu → Nat) (cpu : Cpu) :
    Except BkErr (ReqCnt × (Cpu → Nat)) :=
  if inited then
    if 0 < reqCnt cpu then
      let reqCnt' := update reqCnt cpu (reqCnt cpu - 1)
      .ok (cntList reqCnt' cpu, reqCnt')
    else .error .fail
  else .error .errNotInit

/-- Where a task stands in `amp_res_lock_acquire` or `amp_res_lock_release`.  A
call of the slave for a count is under way in `acqCall` and `relCall`, and
served by the master, with the answer on its way, in `acqReply` and
`relReply`. -/
inductive Pc
  | idle
  | acqCall
  | acqReply (cnt : ReqCnt)
  | acqDrain
  | acqWait
  | hold
  | relCall
  | relReply (cnt : ReqCnt)
  | relInd
  | relSet
  deriving DecidableEq

def Pc.afterAcquireCnt (cnt : ReqCnt) : Pc :=
  if cnt.othersOnly then .acqDrain else .acqWait

def Pc.afterReleaseCnt (cnt : ReqCnt) : Pc :=
  if cnt.othersOnly then .relInd else .relSet

/-- `undrained` is not in the code: it counts the acquires that were answered
`othersOnly` and have not drained the semaphore.  The pending requests are those
of calls that gave up waiting; the master serves them later all the same. -/
structure LockState (n : Nat) where
  inited : Cpu → Bool
  reqCnt : Cpu → Nat
  resSema : Cpu → Bool
  pc : Cpu → Fin n → Pc
  inds : Cpu → Nat
  pendingAcquire : Cpu → Nat
  pendingRelease : Cpu → Nat
  undrained : Cpu → Nat

def LockState.start (n : Nat) : LockState n where
  inited _ := false
  reqCnt _ := 0
  resSema _ := false
  pc _ _ := .idle
  inds _ := 0
  pendingAcquire _ := 0
  pendingRelease _ := 0
  undrained _ := 0

inductive LockEvent (n : Nat)
  /-- `amp_res_lock_init` on a CPU -/
  | init (c : Cpu)
  /-- a task calls `amp_res_lock_acquire` -/
  | acquire (c : Cpu) (i : Fin n)
  /-- the holder calls `amp_res_lock_release` -/
  | release (c : Cpu) (i : Fin n)
  /-- the count that the call of a task asks for is taken -/
  | count (c : Cpu) (i : Fin n)
  /-- the task gets the answer of its count -/
  | reply (c : Cpu) (i : Fin n)
  /-- the IPC call of a slave task fails, with or without its request pending -/
  | lose (i : Fin n) (pending : Bool)
  /-- the IPC call of a slave task returns the answer of an earlier call -/
  | stale (i : Fin n) (cnt : ReqCnt)
  | servePendingAcquire
  | servePendingRelease
  /-- `rtos_get_semaphore(.., 0)` -/
  | drain (c : Cpu) (i : Fin n)
  /-- `rtos_get_semaphore(.., timeout_ms)` succeeds -/
  | take (c : Cpu) (i : Fin n)
  | timeout (c : Cpu) (i : Fin n)
  /-- `ipc_send_available_ind`, with its effect and its return value -/
  | indicate (c : Cpu) (i : Fin n) (sent ok : Bool)
  /-- `amp_res_available` in the interrupt of the CPU -/
  | available (c : Cpu)
  /-- the `rtos_set_semaphore` of a release -/
  | give (c : Cpu) (i : Fin n)
  deriving DecidableEq

namespace LockState

variable {n : Nat}

def setReqCnt (s : LockState n) (reqCnt : Cpu → Nat) : LockState n := { s with reqCnt := reqCnt }

def setPc (s : LockState n) (c : Cpu) (i : Fin n) (pc : Pc) : LockState n :=
  { s with pc := update s.pc c (update (s.pc c) i pc) }

@[simp] theorem setPc_reqCnt (s : LockState n) (c : Cpu) (i : Fin n) (pc : Pc) :
    (s.setPc c i pc).reqCnt = s.reqCnt := rfl

@[simp] theorem setPc_resSema (s : LockState n) (c : Cpu) (i : Fin n) (pc : Pc) :
    (s.setPc c i pc).resSema = s.resSema := rfl

@[simp] theorem setPc_inds (s : LockState n) (c : Cpu) (i : Fin n) (pc : Pc) :
    (s.setPc c i pc).inds = s.inds := rfl

@[simp] theorem setPc_undrained (s : LockState n) (c : Cpu) (i : Fin n) (pc : Pc) :
    (s.setPc c i pc).undrained = s.undrained := rfl

def setSema (s : LockState n) (c : Cpu) (value : Bool) : LockState n :=
  { s with resSema := update s.resSema c value }

def setInds (s : LockState n) (c : Cpu) (k : Nat) : LockState n :=
  { s with inds := update s.inds c k }

def setPendingAcquire (s : LockState n) (c : Cpu) (k : Nat) : LockState n :=
  { s with pendingAcquire := update s.pendingAcquire c k }

def setPendingRelease (s : LockState n) (c : Cpu) (k : Nat) : LockState n :=
  { s with pendingRelease := update s.pendingRelease c k }

def counted (s : LockState n) (c : Cpu) (cnt : ReqCnt) (reqCnt : Cpu → Nat) : LockState n :=
  { s with reqCnt := reqCnt
           undrained := update s.undrained c (s.undrained c + if cnt.othersOnly then 1 else 0) }

def drained (s : LockState n) (c : Cpu) : LockState n :=
  { s with undrained := update s.undrained c (s.undrained c - 1) }

end LockState

def initStep {n : Nat} (s : LockState n) (c : Cpu) : LockState n :=
  if s.inited c then s
  else
    { s with inited := update s.inited c true
             resSema := update s.resSema c true
             reqCnt := if c = .master then fun _ => 0 else s.reqCnt }

def lockStep {n : Nat} (s : LockState n) : LockEvent n → Option (LockState n)
  | .init c => some (initStep s c)
  | .acquire c i =>
    if s.pc c i = .idle then
      if s.inited c then some (s.setPc c i .acqCall) else some s
    else none
  | .release c i => if s.pc c i = .hold then some (s.setPc c i .relCall) else none
  | .count c i =>
    match s.pc c i with
    | .acqCall =>
      match ampResAcquireCnt (s.inited .master) s.reqCnt c with
      | .error _ => some (s.setPc c i .idle)
      | .ok (cnt, reqCnt) => some ((s.counted c cnt reqCnt).setPc c i (.acqReply cnt))
    | .relCall =>
      match ampResReleaseCnt (s.inited .master) s.reqCnt c with
      | .error _ => some (s.setPc c i .idle)
      | .ok (cnt, reqCnt) => some ((s.setReqCnt reqCnt).setPc c i (.relReply cnt))
    | _ => none
  | .reply c i =>
    match s.pc c i with
    | .acqReply cnt => some (s.setPc c i (.afterAcquireCnt cnt))
    | .relReply cnt => some (s.setPc c i (.afterReleaseCnt cnt))
    | _ => none
  | .lose i pending =>
    match s.pc .slave i with
    | .acqCall =>
      some ((s.setPendingAcquire .slave
        (s.pendingAcquire .slave + pending.toNat)).setPc .slave i .idle)
    | .relCall =>
      some ((s.setPendingRelease .slave
        (s.pendingRelease .slave + pending.toNat)).setPc .slave i .idle)
    | .acqReply _ => some (s.setPc .slave i .idle)
    | .relReply _ => some (s.setPc .slave i .idle)
    | _ => none
  | .stale i cnt =>
    match s.pc .slave i with
    | .acqCall =>
      some ((s.setPendingAcquire .slave (s.pendingAcquire .slave + 1)).setPc
        .slave i (.afterAcquireCnt cnt))
    | .relCall =>
      some ((s.setPendingRelease .slave (s.pendingRelease .slave + 1)).setPc
        .slave i (.afterReleaseCnt cnt))
    | .acqReply _ => some (s.setPc .slave i (.afterAcquireCnt cnt))
    | .relReply _ => some (s.setPc .slave i (.afterReleaseCnt cnt))
    | _ => none
  | .servePendingAcquire =>
    if 0 < s.pendingAcquire .slave then
      let s1 := s.setPendingAcquire .slave (s.pendingAcquire .slave - 1)
      match ampResAcquireCnt (s.inited .master) s.reqCnt .slave with
      | .error _ => some s1
      | .ok (cnt, reqCnt) => some (s1.counted .slave cnt reqCnt)
    else none
  | .servePendingRelease =>
    if 0 < s.pendingRelease .slave then
      let s1 := s.setPendingRelease .slave (s.pendingRelease .slave - 1)
      match ampResReleaseCnt (s.inited .master) s.reqCnt .slave with
      | .error _ => some s1
      | .ok (_, reqCnt) => some (s1.setReqCnt reqCnt)
    else none
  | .drain c i =>
    if s.pc c i = .acqDrain then
      if s.resSema c then some (((s.setSema c false).drained c).setPc c i .acqWait)
      else some ((s.drained c).setPc c i .idle)
    else none
  | .take c i =>
    if s.pc c i = .acqWait ∧ s.resSema c = true then
      some ((s.setSema c false).setPc c i .hold)
    else none
  | .timeout c i =>
    if s.pc c i = .acqWait ∧ s.resSema c = false then some (s.setPc c i .idle)
    else none
  | .indicate c i sent ok =>
    if s.pc c i = .relInd then
      some ((s.setInds c.other (s.inds c.other + sent.toNat)).setPc c i
        (if ok then .relSet else .idle))
    else none
  | .available c =>
    if 0 < s.inds c then
      let s1 := s.setInds c (s.inds c - 1)
      if s.inited c then some (s1.setSema c true) else some s1
    else none
  | .give c i => if s.pc c i = .relSet then some ((s.setSema c true).setPc c i .idle) else none

inductive LockMove {n : Nat} (s : LockState n) : LockEvent n → LockState n → Prop
  | init (c : Cpu) : LockMove s (.init c) (initStep s c)
  | acquire {c : Cpu} {i : Fin n} : s.pc c i = .idle → s.inited c = true →
      LockMove s (.acquire c i) (s.setPc c i .acqCall)
  | acquireFails {c : Cpu} {i : Fin n} : LockMove s (.acquire c i) s
  | release {c : Cpu} {i : Fin n} : s.pc c i = .hold →
      LockMove s (.release c i) (s.setPc c i .relCall)
  | countAcquire {c : Cpu} {i : Fin n} : s.pc c i = .acqCall → s.inited .master = true →
      LockMove s (.count c i) ((s.counted c (cntList s.reqCnt c)
        (update s.reqCnt c (addU16 (s.reqCnt c) 1))).setPc c i (.acqReply (cntList s.reqCnt c)))
  | countAcquireFails {c : Cpu} {i : Fin n} : s.pc c i = .acqCall →
      LockMove s (.count c i) (s.setPc c i .idle)
  | countRelease {c : Cpu} {i : Fin n} : s.pc c i = .relCall → s.inited .master = true →
      0 < s.reqCnt c → LockMove s (.count c i) ((s.setReqCnt
        (update s.reqCnt c (s.reqCnt c - 1))).setPc c i
          (.relReply (cntList (update s.reqCnt c (s.reqCnt c - 1)) c)))
  | countReleaseFails {c : Cpu} {i : Fin n} : s.pc c i = .relCall →
      (s.inited .master = true → s.reqCnt c = 0) → LockMove s (.count c i) (s.setPc c i .idle)
  | replyAcquire {c : Cpu} {i : Fin n} {cnt : ReqCnt} : s.pc c i = .acqReply cnt →
      LockMove s (.reply c i) (s.setPc c i (.afterAcquireCnt cnt))
  | replyRelease {c : Cpu} {i : Fin n} {cnt : ReqCnt} : s.pc c i = .relReply cnt →
      LockMove s (.reply c i) (s.setPc c i (.afterReleaseCnt cnt))
  | loseAcquire {i : Fin n} {pending : Bool} : s.pc .slave i = .acqCall →
      LockMove s (.lose i pending) ((s.setPendingAcquire .slave
        (s.pendingAcquire .slave + pending.toNat)).setPc .slave i .idle)
  | loseRelease {i : Fin n} {pending : Bool} : s.pc .slave i = .relCall →
      LockMove s (.lose i pending) ((s.setPendingRelease .slave
        (s.pendingRelease .slave + pending.toNat)).setPc .slave i .idle)
  | loseAcquireReply {i : Fin n} {pending : Bool} {cnt : ReqCnt} :
      s.pc .slave i = .acqReply cnt → LockMove s (.lose i pending) (s.setPc .slave i .idle)
  | loseReleaseReply {i : Fin n} {pending : Bool} {cnt : ReqCnt} :
      s.pc .slave i = .relReply cnt → LockMove s (.lose i pending) (s.setPc .slave i .idle)
  | staleAcquire {i : Fin n} {cnt : ReqCnt} : s.pc .slave i = .acqCall →
      LockMove s (.stale i cnt) ((s.setPendingAcquire .slave
        (s.pendingAcquire .slave + 1)).setPc .slave i (.afterAcquireCnt cnt))
  | staleRelease {i : Fin n} {cnt : ReqCnt} : s.pc .slave i = .relCall →
      LockMove s (.stale i cnt) ((s.setPendingRelease .slave
        (s.pendingRelease .slave + 1)).setPc .slave i (.afterReleaseCnt cnt))
  | staleAcquireReply {i : Fin n} {cnt cnt' : ReqCnt} : s.pc .slave i = .acqReply cnt' →
      LockMove s (.stale i cnt) (s.setPc .slave i (.afterAcquireCnt cnt))
  | staleReleaseReply {i : Fin n} {cnt cnt' : ReqCnt} : s.pc .slave i = .relReply cnt' →
      LockMove s (.stale i cnt) (s.setPc .slave i (.afterReleaseCnt cnt))
  | serveAcquire : 0 < s.pendingAcquire .slave → s.inited .master = true →
      LockMove s .servePendingAcquire
        ((s.setPendingAcquire .slave (s.pendingAcquire .slave - 1)).counted .slave
          (cntList s.reqCnt .slave)
          (update s.reqCnt .slave (addU16 (s.reqCnt .slave) 1)))
  | serveAcquireFails : 0 < s.pendingAcquire .slave → s.inited .master = false →
      LockMove s .servePendingAcquire (s.setPendingAcquire .slave (s.pendingAcquire .slave - 1))
  | serveRelease : 0 < s.pendingRelease .slave → s.inited .master = true → 0 < s.reqCnt .slave →
      LockMove s .servePendingRelease
        ((s.setPendingRelease .slave (s.pendingRelease .slave - 1)).setReqCnt
          (update s.reqCnt .slave (s.reqCnt .slave - 1)))
  | serveReleaseFails : 0 < s.pendingRelease .slave →
      (s.inited .master = true → s.reqCnt .slave = 0) → LockMove s .servePendingRelease
        (s.setPendingRelease .slave (s.pendingRelease .slave - 1))
  | drain {c : Cpu} {i : Fin n} : s.pc c i = .acqDrain → s.resSema c = true →
      LockMove s (.drain c i) (((s.setSema c false).drained c).setPc c i .acqWait)
  | drainFails {c : Cpu} {i : Fin n} : s.pc c i = .acqDrain → s.resSema c = false →
      LockMove s (.drain c i) ((s.drained c).setPc c i .idle)
  | take {c : Cpu} {i : Fin n} : s.pc c i = .acqWait → s.resSema c = true →
      LockMove s (.take c i) ((s.setSema c false).setPc c i .hold)
  | timeout {c : Cpu} {i : Fin n} : s.pc c i = .acqWait → s.resSema c = false →
      LockMove s (.timeout c i) (s.setPc c i .idle)
  | indicate {c : Cpu} {i : Fin n} {sent ok : Bool} : s.pc c i = .relInd →
      LockMove s (.indicate c i sent ok)
        ((s.setInds c.other (s.inds c.other + sent.toNat)).setPc c i
          (if ok then .relSet else .idle))
  | available {c : Cpu} : 0 < s.inds c → s.inited c = true →
      LockMove s (.available c) ((s.setInds c (s.inds c - 1)).setSema c true)
  | availableFails {c : Cpu} : 0 < s.inds c → s.inited c = false →
      LockMove s (.available c) (s.setInds c (s.inds c - 1))
  | give {c : Cpu} {i : Fin n} : s.pc c i = .relSet →
      LockMove s (.give c i) ((s.setSema c true).setPc c i .idle)

theorem ampResReleaseCnt_of_pos {inited : Bool} {reqCnt : Cpu → Nat} {c : Cpu}
    (hin : inited = true) (hpos : 0 < reqCnt c) : ampResReleaseCnt inited reqCnt c =
      .ok (cntList (update reqCnt c (reqCnt c - 1)) c, update reqCnt c (reqCnt c - 1)) := by
  rw [ampResReleaseCnt, if_pos hin, if_pos hpos]

theorem ampResReleaseCnt_of_zero {inited : Bool} {reqCnt : Cpu → Nat} {c : Cpu}
    (hzero : inited = true → reqCnt c = 0) :
    ∃ code, ampResReleaseCnt inited reqCnt c = .error code := by
  unfold ampResReleaseCnt
  split
  · rename_i hin
    rw [hzero hin]
    exact ⟨_, rfl⟩
  · exact ⟨_, rfl⟩

theorem ampResReleaseCnt_cases (inited : Bool) (reqCnt : Cpu → Nat) (c : Cpu) :
    (inited = true ∧ 0 < reqCnt c) ∨ (inited = true → reqCnt c = 0) := by
  rcases Nat.eq_zero_or_pos (reqCnt c) with hzero | hpos
  · exact .inr fun _ => hzero
  · cases inited with
    | true => exact .inl ⟨rfl, hpos⟩
    | false => exact .inr nofun

section Cases

variable {n : Nat} {s s' : LockState n} {c : Cpu} {i : Fin n}

theorem count_cases (h : lockStep s (.count c i) = some s') : LockMove s (.count c i) s' := by
  simp only [lockStep] at h
  split at h
  · rename_i hpc
    cases hin : s.inited .master with
    | true =>
      rw [hin] at h
      cases h
      exact .countAcquire hpc hin
    | false =>
      rw [hin] at h
      cases h
      exact .countAcquireFails hpc
  · rename_i hpc
    rcases ampResReleaseCnt_cases (s.inited .master) s.reqCnt c with ⟨hin, hpos⟩ | hzero
    · rw [ampResReleaseCnt_of_pos hin hpos] at h
      cases h
      exact .countRelease hpc hin hpos
    · obtain ⟨code, hcode⟩ := ampResReleaseCnt_of_zero hzero
      rw [hcode] at h
      cases h
      exact .countReleaseFails hpc hzero
  · cases h

theorem lose_cases {pending : Bool} (h : lockStep s (.lose i pending) = some s') :
    LockMove s (.lose i pending) s' := by
  simp only [lockStep] at h
  split at h
  · rename_i hpc
    cases h
    exact .loseAcquire hpc
  · rename_i hpc
    cases h
    exact .loseRelease hpc
  · rename_i hpc
    cases h
    exact .loseAcquireReply hpc
  · rename_i hpc
    cases h
    exact .loseReleaseReply hpc
  · cases h

theorem stale_cases {cnt : ReqCnt} (h : lockStep s (.stale i cnt) = some s') :
    LockMove s (.stale i cnt) s' := by
  simp only [lockStep] at h
  split at h
  · rename_i hpc
    cases h
    exact .staleAcquire hpc
  · rename_i hpc
    cases h
    exact .staleRelease hpc
  · rename_i hpc
    cases h
    exact .staleAcquireReply hpc
  · rename_i hpc
    cases h
    exact .staleReleaseReply hpc
  · cases h

theorem servePendingAcquire_cases (h : lockStep s .servePendingAcquire = some s') :
    LockMove s .servePendingAcquire s' := by
  simp only [lockStep] at h
  split at h
  · rename_i hpos
    cases hin : s.inited .master with
    | true =>
      rw [hin] at h
      cases h
      exact .serveAcquire hpos hin
    | false =>
      rw [hin] at h
      cases h
      exact .serveAcquireFails hpos hin
  · cases h

theorem servePendingRelease_cases (h : lockStep s .servePendingRelease = some s') :
    LockMove s .servePendingRelease s' := by
  simp only [lockStep] at h
  split at h
  · rename_i hpending
    rcases ampResReleaseCnt_cases (s.inited .master) s.reqCnt .slave with ⟨hin, hpos⟩ | hzero
    · rw [ampResReleaseCnt_of_pos hin hpos] at h
      cases h
      exact .serveRelease hpending hin hpos
    · obtain ⟨code, hcode⟩ := ampResReleaseCnt_of_zero hzero
      rw [hcode] at h
      cases h
      exact .serveReleaseFails hpending hzero
  · cases h

theorem lockStep_cases {e : LockEvent n} (h : lockStep s e = some s') : LockMove s e s' := by
  cases e with
  | init c =>
    cases h
    exact .init c
  | acquire =>
    simp only [lockStep] at h
    split at h
    · rename_i hpc
      split at h
      · rename_i hin
        cases h
        exact .acquire hpc hin
      · cases h
        exact .acquireFails
    · cases h
  | release =>
    obtain ⟨hpc, rfl⟩ := Option.ite_some_none_eq_some.mp h
    exact .release hpc
  | count => exact count_cases h
  | reply =>
    simp only [lockStep] at h
    split at h
    · rename_i hpc
      cases h
      exact .replyAcquire hpc
    · rename_i hpc
      cases h
      exact .replyRelease hpc
    · cases h
  | lose => exact lose_cases h
  | stale => exact stale_cases h
  | servePendingAcquire => exact servePendingAcquire_cases h
  | servePendingRelease => exact servePendingRelease_cases h
  | drain =>
    simp only [lockStep] at h
    split at h
    · rename_i hpc
      split at h
      · rename_i hsema
        cases h
        exact .drain hpc hsema
      · rename_i hsema
        cases h
        exact .drainFails hpc (Bool.eq_false_of_not_eq_true hsema)
    · cases h
  | take =>
    obtain ⟨hpc, rfl⟩ := Option.ite_some_none_eq_some.mp h
    exact .take hpc.1 hpc.2
  | timeout =>
    obtain ⟨hpc, rfl⟩ := Option.ite_some_none_eq_some.mp h
    exact .timeout hpc.1 hpc.2
  | indicate =>
    obtain ⟨hpc, rfl⟩ := Option.ite_some_none_eq_some.mp h
    exact .indicate hpc
  | available =>
    simp only [lockStep] at h
    split at h
    · rename_i hpos
      split at h
      · rename_i hin
        cases h
        exact .available hpos hin
      · rename_i hin
        cases h
        exact .availableFails hpos (Bool.eq_false_of_not_eq_true hin)
    · cases h
  | give =>
    obtain ⟨hpc, rfl⟩ := Option.ite_some_none_eq_some.mp h
    exact .give hpc

end Cases

def Exclusive {n : Nat} (s : LockState n) : Prop :=
  ∀ c i d j, s.pc c i = .hold → s.pc d j = .hold → (c, i) = (d, j)

end BekenSoc.AmpResLock
