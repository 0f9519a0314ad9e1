import BekenSoc.CRuntime
import BekenSoc.GuardedRuns
import BekenSoc.NumberedWaits
import BekenSoc.SdioHost

/-!
`bk_sdio_host_write_fifo` and `bk_sdio_host_wait_receive_data` step by step, with interrupts
between the steps.
-/

namespace BekenSoc.SdioHostWaits

open CRuntime GuardedRuns NumberedWaits SdioHost SignalGates

structure WriteCall where
  dataSize : Nat
  index : Nat
  errorState : HostErr
  /-- `sdio_host_hal_start_send_data` was called -/
  started : Bool
  /-- the words that were written to the FIFO -/
  words : Nat
  /-- the number of the last block before this call -/
  base : Nat
  deriving DecidableEq

inductive Writer
  | idle
  /-- at the head of the loop -/
  | loop (c : WriteCall)
  /-- a word was written -/
  | written (c : WriteCall)
  /-- past the start of the first block -/
  | started (c : WriteCall)
  /-- `is_tx_blocked` is set -/
  | blocked (c : WriteCall)
  /-- in `LOS_SemPend` -/
  | pended (c : WriteCall)
  /-- the wait has run out -/
  | failed (c : WriteCall)
  deriving DecidableEq

inductive Receiver
  | idle
  | blocked
  | pended
  | failed
  deriving DecidableEq

structure Return where
  dataSize : Nat
  errorState : HostErr
  deriving DecidableEq

structure System where
  host : Host
  writer : Writer
  tx : Ledger
  /-- the card sends blocks -/
  receiving : Bool
  receiver : Receiver
  rx : Ledger
  returns : List Return
  deriving DecidableEq

def initial : System := ⟨bkSdioHostDriverInit, .idle, Ledger.empty, false, .idle, Ledger.empty, []⟩

inductive Event
  /-- a call of `bk_sdio_host_write_fifo` -/
  | write (dataSize : Nat)
  /-- the next step of that call -/
  | writer
  | writerExpire
  /-- `bk_sdio_host_config_data` for a read, or `bk_sdio_host_start_read` -/
  | startRead
  /-- a call of `bk_sdio_host_wait_receive_data` -/
  | receive
  | receiver
  | receiverExpire
  /-- an interrupt; `block` is the block that it reports, if it reports one -/
  | irq (status : IntStatus) (block : Nat)
  deriving DecidableEq

def startCall (s : System) (dataSize : Nat) : WriteCall :=
  ⟨dataSize, 0, .bkOk, false, 0, s.tx.awaited⟩

def writerStep (s : System) : Writer → Option System
  | .idle => none
  | .loop c =>
    if c.index < c.dataSize then
      some { s with
        writer := .written { c with index := addU32 c.index 4, words := c.words + 1 } }
    else
      some { s with writer := .idle, returns := s.returns ++ [⟨c.dataSize, c.errorState⟩] }
  | .written c =>
    some { s with
      writer := .started { c with started := c.started || c.index == sdioBlockSize } }
  | .started c =>
    if c.index % sdioBlockSize = 0 ∨ c.index = c.dataSize then
      some { s with
        host := { s.host with tx := s.host.tx.arm }
        writer := .blocked c
        tx := s.tx.await }
    else some { s with writer := .loop c }
  | .blocked c => some { s with host := { s.host with tx := s.host.tx.pend }, writer := .pended c }
  | .pended c =>
    if s.host.tx.waiting then none
    else some { s with writer := .loop { c with errorState := .bkOk } }
  | .failed c =>
    some { s with
      host := { s.host with tx := s.host.tx.disarm }
      writer := .loop { c with errorState := .kTimeoutErr } }

def writerExpire (s : System) : Writer → Option System
  | .pended c =>
    if s.host.tx.waiting then
      some { s with
        host := { s.host with tx := s.host.tx.expire }
        writer := .failed c
        tx := s.tx.timeout }
    else none
  | _ => none

def receiverStep (s : System) : Receiver → Option System
  | .idle => none
  | .blocked => some { s with host := { s.host with rx := s.host.rx.pend }, receiver := .pended }
  | .pended => if s.host.rx.waiting then none else some { s with receiver := .idle }
  | .failed => some { s with host := { s.host with rx := s.host.rx.disarm }, receiver := .idle }

def receiverExpire (s : System) : Receiver → Option System
  | .pended =>
    if s.host.rx.waiting then
      some { s with
        host := { s.host with rx := s.host.rx.expire }
        receiver := .failed
        rx := s.rx.timeout }
    else none
  | _ => none

def WriteCall.reaches (c : WriteCall) (block : Nat) : Bool :=
  block ≤ c.base || (c.started && (block - c.base - 1) * 128 < c.words)

def writeReaches (s : System) (block : Nat) : Bool :=
  match s.writer with
  | .idle => block ≤ s.tx.awaited
  | .loop c | .written c | .started c | .blocked c | .pended c | .failed c => c.reaches block

/-- The interrupt reports no block that the hardware cannot have finished. -/
def possible (s : System) (status : IntStatus) (block : Nat) : Bool :=
  (!reportsWrite status || writeReaches s block) && (!reportsRead status || s.receiving)

def serveIrq (s : System) (status : IntStatus) (block : Nat) : System :=
  { s with
    host := sdioHostIsr s.host status
    tx := if reportsWrite status then s.tx.signal block else s.tx
    rx := if reportsRead status then s.rx.signal block else s.rx }

def step (s : System) : Event → Option System
  | .write dataSize =>
    if s.writer = .idle ∧ dataSize < 2 ^ 32 then
      some { s with writer := .loop (startCall s dataSize) }
    else none
  | .writer => writerStep s s.writer
  | .writerExpire => writerExpire s s.writer
  | .startRead => some { s with receiving := true }
  | .receive =>
    if s.receiver = .idle then
      some { s with
        host := { s.host with rx := s.host.rx.arm }
        receiver := .blocked
        rx := s.rx.await }
    else none
  | .receiver => receiverStep s s.receiver
  | .receiverExpire => receiverExpire s s.receiver
  | .irq status block => if possible s status block then some (serveIrq s status block) else none

def Awaited (s : System) : Event → Prop
  | .irq status block =>
    (reportsWrite status = true → block ≤ s.tx.awaited) ∧
      (reportsRead status = true → block ≤ s.rx.awaited)
  | _ => True

instance (s : System) (e : Event) : Decidable (Awaited s e) :=
  match e with
  | .irq .. => inferInstanceAs (Decidable (_ ∧ _))
  | .write _ | .writer | .writerExpire | .startRead | .receive | .receiver | .receiverExpire =>
    isTrue trivial

def Writer.stage : Writer → Stage
  | .blocked _ => .armed
  | .pended _ => .pended
  | _ => .between

def Receiver.stage : Receiver → Stage
  | .blocked => .armed
  | .pended => .pended
  | _ => .between

structure Waiting (s : System) : Prop where
  tx : Sound s.writer.stage s.host.tx s.tx
  rx : Sound s.receiver.stage s.host.rx s.rx

variable {s s' : System} {e : Event} {status : IntStatus} {block : Nat}

theorem waiting_initial : Waiting initial := ⟨sound_idle, sound_idle⟩

section

variable (h : Waiting s)
include h

theorem Waiting.writerStep (hstep : writerStep s s.writer = some s') : Waiting s' := by
  have htx := h.tx
  generalize s.writer = w at hstep htx
  cases w with
  | idle => cases hstep
  | loop =>
    simp only [SdioHostWaits.writerStep] at hstep
    split at hstep <;> cases hstep <;> exact ⟨htx, h.rx⟩
  | written => cases hstep; exact ⟨htx, h.rx⟩
  | started =>
    simp only [SdioHostWaits.writerStep] at hstep
    split at hstep <;> cases hstep
    · exact ⟨htx.arm, h.rx⟩
    · exact ⟨htx, h.rx⟩
  | blocked => cases hstep; exact ⟨htx.pend, h.rx⟩
  | pended =>
    simp only [SdioHostWaits.writerStep] at hstep
    split at hstep
    · cases hstep
    · rename_i hwaiting
      cases hstep
      exact ⟨htx.resume (Bool.eq_false_iff.mpr hwaiting), h.rx⟩
  | failed => cases hstep; exact ⟨htx.disarm, h.rx⟩

theorem Waiting.writerExpire (hstep : writerExpire s s.writer = some s') : Waiting s' := by
  have htx := h.tx
  generalize s.writer = w at hstep htx
  cases w with
  | pended =>
    obtain ⟨hwaiting, rfl⟩ := Option.ite_some_none_eq_some.mp hstep
    exact ⟨htx.expire hwaiting, h.rx⟩
  | idle | loop | written | started | blocked | failed => cases hstep

theorem Waiting.receiverStep (hstep : receiverStep s s.receiver = some s') : Waiting s' := by
  have hrx := h.rx
  generalize s.receiver = r at hstep hrx
  cases r with
  | idle => cases hstep
  | blocked => cases hstep; exact ⟨h.tx, hrx.pend⟩
  | pended =>
    simp only [SdioHostWaits.receiverStep] at hstep
    split at hstep
    · cases hstep
    · rename_i hwaiting
      cases hstep
      exact ⟨h.tx, hrx.resume (Bool.eq_false_iff.mpr hwaiting)⟩
  | failed => cases hstep; exact ⟨h.tx, hrx.disarm⟩

theorem Waiting.receiverExpire (hstep : receiverExpire s s.receiver = some s') : Waiting s' := by
  have hrx := h.rx
  generalize s.receiver = r at hstep hrx
  cases r with
  | pended =>
    obtain ⟨hwaiting, rfl⟩ := Option.ite_some_none_eq_some.mp hstep
    exact ⟨h.tx, hrx.expire hwaiting⟩
  | idle | blocked | failed => cases hstep

theorem Waiting.serveIrq (hok : Awaited s (.irq status block)) :
    Waiting (serveIrq s status block) := by
  constructor
  · change Sound s.writer.stage (sdioHostIsr s.host status).tx
      (if reportsWrite status then s.tx.signal block else s.tx)
    rw [sdioHostIsr_tx]
    split
    · rename_i hreports
      exact h.tx.signal (hok.1 hreports)
    · exact h.tx
  · change Sound s.receiver.stage (sdioHostIsr s.host status).rx
      (if reportsRead status then s.rx.signal block else s.rx)
    rw [sdioHostIsr_rx]
    split
    · rename_i hreports
      exact h.rx.signal (hok.2 hreports)
    · exact h.rx

theorem Waiting.step (hok : Awaited s e) (hstep : step s e = some s') : Waiting s' := by
  cases e with
  | write =>
    obtain ⟨hidle, rfl⟩ := Option.ite_some_none_eq_some.mp hstep
    refine ⟨?_, h.rx⟩
    have htx := h.tx
    rw [hidle.1] at htx
    exact htx
  | writer => exact h.writerStep hstep
  | writerExpire => exact h.writerExpire hstep
  | startRead => cases hstep; exact ⟨h.tx, h.rx⟩
  | receive =>
    obtain ⟨hidle, rfl⟩ := Option.ite_some_none_eq_some.mp hstep
    have hrx := h.rx
    rw [hidle] at hrx
    exact ⟨h.tx, hrx.arm⟩
  | receiver => exact h.receiverStep hstep
  | receiverExpire => exact h.receiverExpire hstep
  | irq =>
    simp only [SdioHostWaits.step] at hstep
    split at hstep <;> cases hstep
    exact h.serveIrq hok

end

/-- If no block ends before the flag for it is set, a wait that runs out was for a block that
had not ended. -/
theorem timeouts_faithful (h : Reached step Awaited initial s) : s.tx.Faithful ∧ s.rx.Faithful := by
  have hwaiting : Waiting s :=
    h.invariant Waiting waiting_initial fun _ _ _ hs hok hstep => hs.step hok hstep
  exact ⟨hwaiting.tx.faithful, hwaiting.rx.faithful⟩

def writeEnd : IntStatus := { IntStatus.none with dataWriteEnd := true, wrStatus := wrStatusOk }

def recvEnd : IntStatus := { IntStatus.none with dataRecvEnd := true, dataCrcOk := true }

theorem timeouts_faithful_block : ∃ s, Reached step Awaited initial s ∧
      (s.tx.timeouts = [⟨1, []⟩] ∧ s.rx.signalled = [1]) ∧ s.tx.Faithful ∧ s.rx.Faithful :=
  exists_reached_and (fun _ => timeouts_faithful)
    (.write 512 :: List.replicate 383 .writer ++
      [.writer, .writer, .writerExpire, .irq writeEnd 1, .writer, .startRead, .receive,
        .irq recvEnd 1, .receiver])
    (by decide +kernel)

theorem timeouts_unfaithful : ∃ s, Reached step anyStep initial s ∧
      ⟨1, [1]⟩ ∈ s.tx.timeouts ∧ ⟨1, [1]⟩ ∈ s.rx.timeouts :=
  exists_reached _ _ _ _ (.write 512 :: List.replicate 383 .writer ++
      [.irq writeEnd 1, .writer, .writer, .writerExpire, .startRead, .irq recvEnd 1, .receive,
        .receiver, .receiverExpire])
    (by decide +kernel)

end BekenSoc.SdioHostWaits
