import BekenSoc.BkFifo
import BekenSoc.RtosEvents
import BekenSoc.SignalGates

/-!
The receive side of `uart_driver.c` for one UART with its software FIFO enabled: the receive
interrupt, and one reader at a time in `bk_uart_read_bytes`.

A section with disabled interrupts, a call of the kernel and a read of the FIFO's size are one step
each, and so is an interrupt.  `LOS_SemPend` reports `LOS_ERRNO_SEM_TIMEOUT` for a wait that
expired, and `LOS_ERRNO_SEM_UNAVAILABLE` for a count of zero with `LOS_NO_WAIT`.
-/

namespace BekenSoc.UartDriver

open BkFifo GuardedRuns RtosEvents SignalGates List

def bkErrUartRxTimeout : Int := -0x2400 - 4

structure Call where
  size : Nat
  timeoutMs : Nat
  deriving DecidableEq

structure Return where
  call : Call
  value : Int
  data : List UInt8
  deriving DecidableEq

inductive Reader
  | idle
  | entered (c : Call)
  /-- the FIFO was empty and `rx_blocked` is set -/
  | armed (c : Call)
  /-- in `LOS_SemPend` -/
  | pended (c : Call)
  /-- `rtos_get_semaphore` has returned `kTimeoutErr` -/
  | timedOut (c : Call)
  /-- before the size of the FIFO is read again -/
  | taking (c : Call)
  | sized (c : Call) (kfifoDataLen : Nat)
  deriving DecidableEq

structure Uart where
  /-- the bytes in the FIFO of the hardware -/
  rxFifo : List UInt8
  kfifo : Kfifo
  /-- `rx_blocked` and `rx_int_sema` -/
  sema : Gate
  reader : Reader
  /-- the bytes that were put in the software FIFO so far -/
  accepted : List UInt8
  returns : List Return

def initial : Uart := ⟨[], kfifoAlloc, Gate.idle, .idle, [], []⟩

def uartIdReadFifoFrame : List UInt8 → Kfifo → Kfifo × Nat
  | [], f => (f, 0)
  | readVal :: rxFifo, f =>
    if 1 > kfifoUnused f then uartIdReadFifoFrame rxFifo f
    else
      let put := kfifoPut f [readVal]
      let rest := uartIdReadFifoFrame rxFifo put.1
      (rest.1, put.2 + rest.2)

def rxIsr (s : Uart) : Uart :=
  let frame := uartIdReadFifoFrame s.rxFifo s.kfifo
  { s with
    rxFifo := []
    kfifo := frame.1
    sema := if frame.2 > 0 then s.sema.fire else s.sema
    accepted := s.accepted ++ s.rxFifo.take frame.2 }

def uartIsrCommon (s : Uart) (rx parityErr : Bool) : Uart :=
  let s := if rx then rxIsr s else s
  if parityErr then { s with rxFifo := [] } else s

def takeBytes (s : Uart) (c : Call) (kfifoDataLen : Nat) : Uart :=
  if c.size > kfifoDataLen then
    if kfifoDataLen ≠ 0 then
      let got := kfifoGet s.kfifo kfifoDataLen
      { s with kfifo := got.1, reader := .idle
               returns := s.returns ++ [⟨c, kfifoDataLen, got.2⟩] }
    else { s with reader := .idle, returns := s.returns ++ [⟨c, kfifoDataLen, []⟩] }
  else
    let got := kfifoGet s.kfifo c.size
    { s with kfifo := got.1, reader := .idle, returns := s.returns ++ [⟨c, c.size, got.2⟩] }

def bkUartReadBytes (s : Uart) : Reader → Option Uart
  | .idle => none
  | .entered c =>
    if kfifoDataSize s.kfifo = 0 then some { s with sema := s.sema.arm, reader := .armed c }
    else some { s with reader := .taking c }
  | .armed c =>
    -- with or without a count, a poll does not return kTimeoutErr
    if losTimeout c.timeoutMs = 0 then some { s with sema := s.sema.poll, reader := .taking c }
    else some { s with sema := s.sema.pend, reader := .pended c }
  | .pended c => if s.sema.waiting then none else some { s with reader := .taking c }
  | .timedOut c =>
    some { s with sema := s.sema.settle, reader := .idle
                  returns := s.returns ++ [⟨c, bkErrUartRxTimeout, []⟩] }
  | .taking c => some { s with reader := .sized c (kfifoDataSize s.kfifo) }
  | .sized c kfifoDataLen => some (takeBytes s c kfifoDataLen)

def expireWait (s : Uart) : Reader → Option Uart
  | .pended c =>
    if s.sema.waiting = true ∧ c.timeoutMs ≠ bekenWaitForever then
      some { s with sema := s.sema.expire, reader := .timedOut c }
    else none
  | _ => none

inductive Event
  | receive (byte : UInt8)
  | isr (rx parityErr : Bool)
  | call (c : Call)
  | read
  | expire
  deriving DecidableEq

def step (s : Uart) : Event → Option Uart
  | .receive byte => some { s with rxFifo := s.rxFifo ++ [byte] }
  | .isr rx parityErr => some (uartIsrCommon s rx parityErr)
  | .call c =>
    if s.reader = .idle ∧ c.size < 2 ^ 32 ∧ c.timeoutMs < 2 ^ 32 then
      some { s with reader := .entered c }
    else none
  | .read => bkUartReadBytes s s.reader
  | .expire => expireWait s s.reader

inductive Steps (s : Uart) : Event → Uart → Prop
  | received {byte : UInt8} : Steps s (.receive byte) { s with rxFifo := s.rxFifo ++ [byte] }
  | interrupt {rx parityErr : Bool} : Steps s (.isr rx parityErr) (uartIsrCommon s rx parityErr)
  | called {c : Call} : s.reader = .idle → Steps s (.call c) { s with reader := .entered c }
  | arms {c : Call} : s.reader = .entered c → kfifoDataSize s.kfifo = 0 →
      Steps s .read { s with sema := s.sema.arm, reader := .armed c }
  | finds {c : Call} : s.reader = .entered c → kfifoDataSize s.kfifo ≠ 0 →
      Steps s .read { s with reader := .taking c }
  | polls {c : Call} : s.reader = .armed c → losTimeout c.timeoutMs = 0 →
      Steps s .read { s with sema := s.sema.poll, reader := .taking c }
  | pends {c : Call} : s.reader = .armed c → losTimeout c.timeoutMs ≠ 0 →
      Steps s .read { s with sema := s.sema.pend, reader := .pended c }
  | resumes {c : Call} : s.reader = .pended c → s.sema.waiting = false →
      Steps s .read { s with reader := .taking c }
  | expires {c : Call} : s.reader = .pended c → s.sema.waiting = true →
      c.timeoutMs ≠ bekenWaitForever →
      Steps s .expire { s with sema := s.sema.expire, reader := .timedOut c }
  | givesUp {c : Call} : s.reader = .timedOut c → Steps s .read { s with
        sema := s.sema.settle
        reader := .idle
        returns := s.returns ++ [⟨c, bkErrUartRxTimeout, []⟩] }
  | sizes {c : Call} : s.reader = .taking c →
      Steps s .read { s with reader := .sized c (kfifoDataSize s.kfifo) }
  | takes {c : Call} {kfifoDataLen : Nat} : s.reader = .sized c kfifoDataLen →
      Steps s .read (takeBytes s c kfifoDataLen)

variable {s s' : Uart} {e : Event}

theorem read_cases {reader : Reader} (hreader : s.reader = reader)
    (h : bkUartReadBytes s reader = some s') : Steps s .read s' := by
  cases reader with
  | idle => cases h
  | entered =>
    rw [bkUartReadBytes] at h
    split at h
    · cases h
      exact .arms hreader ‹_›
    · cases h
      exact .finds hreader ‹_›
  | armed =>
    rw [bkUartReadBytes] at h
    split at h
    · cases h
      exact .polls hreader ‹_›
    · cases h
      exact .pends hreader ‹_›
  | pended =>
    rw [bkUartReadBytes] at h
    split at h
    · cases h
    · cases h
      exact .resumes hreader (eq_false_of_ne_true ‹_›)
  | timedOut =>
    cases h
    exact .givesUp hreader
  | taking =>
    cases h
    exact .sizes hreader
  | sized =>
    cases h
    exact .takes hreader

theorem expire_cases {reader : Reader} (hreader : s.reader = reader)
    (h : expireWait s reader = some s') : Steps s .expire s' := by
  cases reader with
  | pended =>
    obtain ⟨hwait, rfl⟩ := Option.ite_some_none_eq_some.mp h
    exact .expires hreader hwait.1 hwait.2
  | _ => cases h

theorem step_cases (h : step s e = some s') : Steps s e s' := by
  cases e with
  | receive =>
    cases h
    exact .received
  | isr =>
    cases h
    exact .interrupt
  | call =>
    obtain ⟨hcall, rfl⟩ := Option.ite_some_none_eq_some.mp h
    exact .called hcall.1
  | read => exact read_cases rfl h
  | expire => exact expire_cases rfl h

theorem uartIdReadFifoFrame_spec (rxFifo : List UInt8) {f : Kfifo} {contents : List UInt8}
    (h : Holds f contents) : Holds (uartIdReadFifoFrame rxFifo f).1
        (contents ++ rxFifo.take (uartIdReadFifoFrame rxFifo f).2) ∧
      (uartIdReadFifoFrame rxFifo f).2 = min rxFifo.length (128 - contents.length) := by
  induction rxFifo generalizing f contents with
  | nil => exact ⟨by simpa [uartIdReadFifoFrame] using h, by simp [uartIdReadFifoFrame]⟩
  | cons readVal rxFifo ih =>
    have hfits : contents.length ≤ 128 := h.fits
    rw [uartIdReadFifoFrame, h.unused]
    split
    · rename_i hfull
      obtain ⟨hholds, hcount⟩ := ih h
      have hzero : (uartIdReadFifoFrame rxFifo f).2 = 0 := by omega
      rw [hzero] at hholds ⊢
      exact ⟨by simpa using hholds, by rw [length_cons]; omega⟩
    · rename_i hroom
      have hone : [readVal].take (128 - contents.length) = [readVal] :=
        take_of_length_le (by rw [length_singleton]; omega)
      obtain ⟨hput, hlen⟩ := h.put [readVal]
      rw [hone] at hput hlen
      obtain ⟨hholds, hcount⟩ := ih hput
      dsimp only
      rw [hlen, length_singleton, Nat.add_comm 1, take_succ_cons, append_cons]
      refine ⟨hholds, ?_⟩
      rw [hcount, length_append, length_singleton, length_cons]
      omega

end BekenSoc.UartDriver
