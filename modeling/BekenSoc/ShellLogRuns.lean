import BekenSoc.GuardedRuns
import BekenSoc.ShellLogQueues

/-!
Runs of the shell log: any number of tasks that log, the shell task with its responses and
hints, and the transmit interrupt of the UART.

The sections with disabled interrupts are single steps.  A turn of the interrupt's loop
is a step too, so that the runs include those in which tasks run between two turns.
-/

namespace BekenSoc.ShellLogRuns

open GuardedRuns RingBuffers ShellLog ShellLogQueues

inductive EchoPhase
  | idle
  /-- `tx_stopped` was set -/
  | tested
  /-- `tx_stopped` is cleared, the interrupt not yet enabled -/
  | cleared
  deriving DecidableEq

structure System where
  shell : Shell
  /-- the tags of the blocks that tasks have allocated and not yet pushed -/
  writing : List Nat
  /-- the tasks whose allocation has failed, before `log_hint_out` -/
  failed : Nat
  /-- the tasks in `log_hint_out`, after its test of `fault_hint_print` -/
  hinting : Nat
  /-- the shell task is in `rx_ind_process`, after its test of `rsp_ongoing` -/
  rxHandling : Bool
  echoPhase : EchoPhase

inductive Event
  | alloc (logLen : Nat)
  | push (tag len : Nat)
  | hintTest
  | hintPush
  | rxInd
  | rxDone
  | cmdHint
  | rsp (len : Nat)
  | echo (b : UInt8)
  | echoTest
  | echoClear
  | echoEnable
  | txTurn
  deriving DecidableEq

def pushPacket (s : Shell) (tag len : Nat) : Shell := txReqProcess (pushPendingQueue s tag len)

def step (s : System) : Event → Option System
  | .alloc logLen =>
    match allocLogBlk s.shell logLen with
    | (shell, some tag) => some { s with shell := shell, writing := tag :: s.writing }
    | (shell, none) => some { s with shell := shell, failed := s.failed + 1 }
  | .push tag len =>
    if tag ∈ s.writing then
      some { s with shell := pushPacket s.shell tag len, writing := s.writing.erase tag }
    else none
  | .hintTest =>
    if s.failed = 0 then none
    else if s.shell.faultHintPrint then some { s with failed := s.failed - 1 }
    else some { s with failed := s.failed - 1, hinting := s.hinting + 1 }
  | .hintPush =>
    if s.hinting = 0 then none
    else
      some { s with
        shell := { pushPacket s.shell faultHintTag shellFaultStrLen with faultHintPrint := true }
        hinting := s.hinting - 1 }
  | .rxInd => if s.rxHandling then none else some { s with rxHandling := !s.shell.rspOngoing }
  | .rxDone => some { s with rxHandling := false }
  | .cmdHint =>
    if s.rxHandling then
      some { s with shell := pushPacket s.shell cmdHintTag shellFaultStrLen }
    else none
  | .rsp len =>
    if s.rxHandling then
      some { s with
        shell := pushPacket { s.shell with rspOngoing := true } rspTag len
        rxHandling := false }
    else none
  | .echo b => some { s with shell := { s.shell with uart := echoTurn s.shell.uart b } }
  | .echoTest =>
    if s.echoPhase = .idle ∧ s.shell.uart.txStopped then some { s with echoPhase := .tested }
    else none
  | .echoClear =>
    if s.echoPhase = .tested then
      some { s with
        shell := { s.shell with uart := { s.shell.uart with txStopped := false } }
        echoPhase := .cleared }
    else none
  | .echoEnable =>
    if s.echoPhase = .cleared then
      some { s with
        shell := { s.shell with uart := { s.shell.uart with txInterrupt := true } }
        echoPhase := .idle }
    else none
  | .txTurn =>
    if s.shell.uart.txInterrupt || !s.shell.uart.txStopped then
      some { s with shell := shellUartTxTurn s.shell }
    else none

inductive Steps (s : System) : Event → System → Prop
  | allocated {logLen tag : Nat} {shell : Shell} : allocLogBlk s.shell logLen = (shell, some tag) →
      Steps s (.alloc logLen) { s with shell := shell, writing := tag :: s.writing }
  | overflowed {logLen : Nat} {shell : Shell} : allocLogBlk s.shell logLen = (shell, none) →
      Steps s (.alloc logLen) { s with shell := shell, failed := s.failed + 1 }
  | pushed {tag : Nat} (len : Nat) : tag ∈ s.writing → Steps s (.push tag len)
        { s with shell := pushPacket s.shell tag len, writing := s.writing.erase tag }
  | hinted : s.failed ≠ 0 → s.shell.faultHintPrint = true →
      Steps s .hintTest { s with failed := s.failed - 1 }
  | hints : s.failed ≠ 0 → s.shell.faultHintPrint = false →
      Steps s .hintTest { s with failed := s.failed - 1, hinting := s.hinting + 1 }
  | hintPushed : s.hinting ≠ 0 → Steps s .hintPush { s with
        shell := { pushPacket s.shell faultHintTag shellFaultStrLen with faultHintPrint := true }
        hinting := s.hinting - 1 }
  | rxTested : s.rxHandling = false → Steps s .rxInd { s with rxHandling := !s.shell.rspOngoing }
  | rxLeft : Steps s .rxDone { s with rxHandling := false }
  | cmdHinted : s.rxHandling = true →
      Steps s .cmdHint { s with shell := pushPacket s.shell cmdHintTag shellFaultStrLen }
  | responded (len : Nat) : s.rxHandling = true → Steps s (.rsp len) { s with
        shell := pushPacket { s.shell with rspOngoing := true } rspTag len
        rxHandling := false }
  | echoed (b : UInt8) :
      Steps s (.echo b) { s with shell := { s.shell with uart := echoTurn s.shell.uart b } }
  | echoTested : s.echoPhase = .idle → s.shell.uart.txStopped = true →
      Steps s .echoTest { s with echoPhase := .tested }
  | echoCleared : s.echoPhase = .tested → Steps s .echoClear { s with
        shell := { s.shell with uart := { s.shell.uart with txStopped := false } }
        echoPhase := .cleared }
  | echoEnabled : s.echoPhase = .cleared → Steps s .echoEnable { s with
        shell := { s.shell with uart := { s.shell.uart with txInterrupt := true } }
        echoPhase := .idle }
  | turned : (s.shell.uart.txInterrupt || !s.shell.uart.txStopped) = true →
      Steps s .txTurn { s with shell := shellUartTxTurn s.shell }

theorem step_cases {s s' : System} {e : Event} (h : step s e = some s') : Steps s e s' := by
  cases e with
  | alloc logLen =>
    simp only [step] at h
    rcases halloc : allocLogBlk s.shell logLen with ⟨shell, _ | tag⟩
    · rw [halloc] at h
      cases h
      exact .overflowed halloc
    · rw [halloc] at h
      cases h
      exact .allocated halloc
  | rxDone =>
    cases h
    exact .rxLeft
  | echo b =>
    cases h
    exact .echoed b
  | hintTest =>
    rw [step] at h
    split at h
    · cases h
    · rename_i hfailed
      cases hprint : s.shell.faultHintPrint with
      | true =>
        rw [hprint] at h
        cases h
        exact .hinted hfailed hprint
      | false =>
        rw [hprint] at h
        cases h
        exact .hints hfailed hprint
  | hintPush =>
    rw [step] at h
    split at h
    · cases h
    · cases h
      exact .hintPushed ‹_›
  | rxInd =>
    rw [step] at h
    split at h
    · cases h
    · rename_i hhandling
      cases h
      exact .rxTested (eq_false_of_ne_true hhandling)
  | echoTest =>
    obtain ⟨hphase, rfl⟩ := Option.ite_some_none_eq_some.mp h
    exact .echoTested hphase.1 hphase.2
  | push tag len =>
    rw [step] at h
    split at h
    · cases h
      exact .pushed len ‹_›
    · cases h
  | cmdHint =>
    rw [step] at h
    split at h
    · cases h
      exact .cmdHinted ‹_›
    · cases h
  | rsp len =>
    rw [step] at h
    split at h
    · cases h
      exact .responded len ‹_›
    · cases h
  | echoClear =>
    rw [step] at h
    split at h
    · cases h
      exact .echoCleared ‹_›
    · cases h
  | echoEnable =>
    rw [step] at h
    split at h
    · cases h
      exact .echoEnabled ‹_›
    · cases h
  | txTurn =>
    rw [step] at h
    split at h
    · cases h
      exact .turned ‹_›
    · cases h

def System.start : System := ⟨Shell.start, [], 0, 0, false, .idle⟩

def pushes : Event → Bool
  | .push _ _ => true
  | .hintPush => true
  | .cmdHint => true
  | .rsp _ => true
  | _ => false

def PendingFits (s : System) (e : Event) : Prop :=
  pushes e = false ∨ s.shell.pending.count shellLogPendNum + 1 < shellLogPendNum

instance (s : System) (e : Event) : Decidable (PendingFits s e) :=
  inferInstanceAs
    (Decidable (pushes e = false ∨ s.shell.pending.count shellLogPendNum + 1 < shellLogPendNum))

theorem PendingFits.room {s : System} {e : Event} (h : PendingFits s e) (hpush : pushes e = true) :
    s.shell.pending.count shellLogPendNum + 1 < shellLogPendNum := by
  rcases h with hnone | hroom
  · rw [hpush] at hnone
    cases hnone
  · exact hroom

def freeIds (s : Shell) (p : Pool) : List Nat :=
  (s.freeQueue p).blkList.window (blkNum p) (s.freeQueue p).freeBlkNum

def pendingTags (s : Shell) : List Nat := (s.pending.contents shellLogPendNum).map TxPacket.blkTag

def busyTags (s : Shell) : List Nat := s.busy.contents shellLogBusyNum

def deviceTags (s : Shell) : List Nat := (s.uart.txList.contents txQueueLen).map DevTxPacket.tag

def unusedBlocks (s : System) (p : Pool) : List Nat :=
  (List.range (blkNum p)).filter fun b =>
    blockTag p b ∉ s.writing ++ pendingTags s.shell ++ busyTags s.shell

/-- Each log block is in one place: a free ring, a task, the pending queue, or the busy queue
together with the queue of the device. -/
structure BlocksPlaced (s : System) : Prop where
  once : ∀ p, ∀ b < blkNum p, (freeIds s.shell p).count b + s.writing.count (blockTag p b) +
      (pendingTags s.shell).count (blockTag p b) + (busyTags s.shell).count (blockTag p b) = 1
  device : ∀ p, ∀ b < blkNum p,
    (deviceTags s.shell).count (blockTag p b) = (busyTags s.shell).count (blockTag p b)
  ring : ∀ p, (s.shell.freeQueue p).blkList.inIdx =
    ((s.shell.freeQueue p).blkList.outIdx + (s.shell.freeQueue p).freeBlkNum) % blkNum p
  freeNum : ∀ p, (s.shell.freeQueue p).freeBlkNum = (unusedBlocks s p).length

/-- The busy queue has the log blocks of the device in their order, no call of `write_async`
was refused, and no assertion has failed. -/
structure QueuesAgree (s : System) : Prop where
  busy : busyTags s.shell = (deviceTags s.shell).filter isLog
  refused : s.shell.refused = 0
  asserts : s.shell.asserts = []

end BekenSoc.ShellLogRuns
