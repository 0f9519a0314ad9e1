import Mathlib.Data.Finset.Card
import BekenSoc.CRuntime
import BekenSoc.DualCore

/-!
The spin locks of the dual-core build (`spinlock.c`).

Each CPU has a `cpu_info` of its own, and the address of it in `owner_cpu` stands
for the CPU.  A step of the model is one access of a CPU to the words of a lock, or
a piece of the code that only touches its own `cpu_info` and its own `mstatus`.  The
fences keep the accesses in the order of the program.
-/

namespace BekenSoc.SpinLock

open CRuntime DualCore

def mstatusMie : BitVec 32 := 8#32

def intsDisabled (mstatus : BitVec 32) : Prop := mstatus &&& mstatusMie = 0#32

def archIntLock (mstatus : BitVec 32) : BitVec 32 × BitVec 32 :=
  (mstatus, mstatus &&& ~~~mstatusMie)

def lockMax : Nat := 2 ^ 29

abbrev LockId := Fin lockMax

structure Spinlock where
  locked : Bool
  ownerCpu : Option Cpu

def spinlockInit : Spinlock := ⟨false, none⟩

inductive Caller
  | acquire
  | release
  deriving DecidableEq

inductive Pc
  | idle
  | push (l : LockId)
  | readLocked (caller : Caller) (l : LockId)
  | readOwner (caller : Caller) (l : LockId)
  | atomicSet (l : LockId)
  | setOwner (l : LockId)
  | clearOwner (l : LockId)
  | atomicClear (l : LockId)
  | pop
  deriving DecidableEq

def Pc.afterOwner (l : LockId) : Caller → Bool → Pc
  | .acquire, true => .pop
  | .acquire, false => .atomicSet l
  | .release, true => .clearOwner l
  | .release, false => .idle

/-- One CPU.  `holds` and `outside` are not in the code: the locks that the CPU has set
and not cleared, and `mstatus` as it was the last time outside all locks. -/
structure Core where
  nestCnt : Nat
  intFlag : BitVec 32
  mstatus : BitVec 32
  pc : Pc
  holds : Finset LockId
  outside : BitVec 32

def Core.start (mstatus : BitVec 32) : Core := ⟨0, 0, mstatus, .idle, ∅, mstatus⟩

def pushDisableIntFlag (k : Core) : Core :=
  let (intFlag, mstatus) := archIntLock k.mstatus
  { k with intFlag := if k.nestCnt = 0 then intFlag else k.intFlag
           nestCnt := addU32 k.nestCnt 1
           mstatus := mstatus }

def popIntFlag (k : Core) : Core :=
  if k.nestCnt < 1 then k
  else if k.nestCnt - 1 = 0 then { k with nestCnt := k.nestCnt - 1, mstatus := k.intFlag }
  else { k with nestCnt := k.nestCnt - 1 }

structure SpinState where
  locks : LockId → Spinlock
  core : Cpu → Core

def SpinState.start (mstatus : Cpu → BitVec 32) : SpinState where
  locks _ := spinlockInit
  core c := Core.start (mstatus c)

def SpinState.setCore (s : SpinState) (c : Cpu) (k : Core) : SpinState :=
  { s with core := Function.update s.core c k }

def SpinState.setLock (s : SpinState) (l : LockId) (w : Spinlock) : SpinState :=
  { s with locks := Function.update s.locks l w }

inductive SpinEvent
  /-- `spinlock_acquire` is called -/
  | acquire (c : Cpu) (l : LockId)
  /-- `spinlock_release` is called -/
  | release (c : Cpu) (l : LockId)
  /-- the next step of the call on the CPU -/
  | run (c : Cpu)
  /-- other code of a CPU that holds no lock changes its interrupt state -/
  | setMstatus (c : Cpu) (mstatus : BitVec 32)

def runStep (s : SpinState) (c : Cpu) : Option SpinState :=
  let k := s.core c
  match k.pc with
  | .idle => none
  | .push l => some (s.setCore c { pushDisableIntFlag k with pc := .readLocked .acquire l })
  | .readLocked caller l =>
    if (s.locks l).locked then some (s.setCore c { k with pc := .readOwner caller l })
    else some (s.setCore c { k with pc := .afterOwner l caller false })
  | .readOwner caller l =>
    some (s.setCore c
      { k with pc := .afterOwner l caller (decide ((s.locks l).ownerCpu = some c)) })
  | .atomicSet l =>
    if (s.locks l).locked then some s
    else
      some ((s.setLock l { s.locks l with locked := true }).setCore c
        { k with pc := .setOwner l, holds := insert l k.holds })
  | .setOwner l =>
    some ((s.setLock l { s.locks l with ownerCpu := some c }).setCore c { k with pc := .idle })
  | .clearOwner l =>
    some ((s.setLock l { s.locks l with ownerCpu := none }).setCore c
      { k with pc := .atomicClear l })
  | .atomicClear l =>
    some ((s.setLock l { s.locks l with locked := false }).setCore c
      { k with pc := .pop, holds := k.holds.erase l })
  | .pop => some (s.setCore c { popIntFlag k with pc := .idle })

def spinStep (s : SpinState) : SpinEvent → Option SpinState
  | .acquire c l =>
    if (s.core c).pc = .idle then some (s.setCore c { s.core c with pc := .push l })
    else none
  | .release c l =>
    if (s.core c).pc = .idle then
      some (s.setCore c { s.core c with pc := .readLocked .release l })
    else none
  | .run c => runStep s c
  | .setMstatus c mstatus =>
    if (s.core c).pc = .idle ∧ (s.core c).holds = ∅ then
      some (s.setCore c { s.core c with mstatus := mstatus, outside := mstatus })
    else none

def Exclusive (s : SpinState) : Prop := ∀ l, l ∈ (s.core .master).holds → l ∉ (s.core .slave).holds

/-- Interrupts are off on a CPU that holds a lock, and as they were before on one that has
released its last lock. -/
def IntsRestored (s : SpinState) : Prop :=
  ∀ c, ((s.core c).holds.Nonempty → intsDisabled (s.core c).mstatus) ∧
    ((s.core c).pc = .idle → (s.core c).holds = ∅ → (s.core c).mstatus = (s.core c).outside)

end BekenSoc.SpinLock
