import Mathlib.Data.List.TakeDrop
import BekenSoc.CRuntime
import BekenSoc.GuardedRuns
import BekenSoc.RingBuffers

/-!
The receive ring of `shell_uart.c`.

The interrupt samples the free space once and counts the bytes that it takes from the UART in 16
bits.  A read takes bytes from the ring without a lock, so an interrupt may come between its
steps.
-/

namespace BekenSoc.ShellUartRing

open CRuntime GuardedRuns RingBuffers List

def rxBuffSize : Nat := 160

structure Interrupt where
  held : Nat
  bytes : List UInt8
  deriving DecidableEq

def Interrupt.kept (i : Interrupt) : List UInt8 := i.bytes.take (rxBuffSize - 1 - i.held)

inductive Reader
  | idle
  | testing (bufLen : Nat) (data : List UInt8)
  | copied (bufLen : Nat) (data : List UInt8) (b : UInt8)
  deriving DecidableEq

def Reader.data : Reader → List UInt8
  | .idle => []
  | .testing _ data | .copied _ data _ => data

structure UartExt where
  ring : RingBuffer UInt8
  rxOverFlow : Bool
  reader : Reader
  /-- what the reads have returned -/
  returns : List (List UInt8)
  interrupts : List Interrupt

def initial : UartExt := ⟨⟨fun _ => 0, 0, 0⟩, false, .idle, [], []⟩

def rxLoop (freeBuffLen : Nat) : Nat → UartExt → List UInt8 → UartExt
  | _, s, [] => s
  | rxCnt, s, rxData :: rest =>
    let rxCnt := addU16 rxCnt 1
    if rxCnt < freeBuffLen then
      rxLoop freeBuffLen rxCnt { s with ring := s.ring.put rxBuffSize rxData } rest
    else rxLoop freeBuffLen rxCnt { s with rxOverFlow := true } rest

def shellUartRxIsr (s : UartExt) (bytes : List UInt8) : UartExt :=
  rxLoop (s.ring.freeItems rxBuffSize) 0
    { s with interrupts := s.interrupts ++ [⟨s.ring.count rxBuffSize, bytes⟩] } bytes

def returnData (s : UartExt) (data : List UInt8) : UartExt :=
  { s with reader := .idle, returns := s.returns ++ [data] }

def readStep (s : UartExt) : Option UartExt :=
  match s.reader with
  | .idle => none
  | .testing bufLen data =>
    if s.ring.outIdx ≠ s.ring.inIdx then
      some { s with reader := .copied bufLen data s.ring.front }
    else some (returnData s data)
  | .copied bufLen data b =>
    let s := { s with ring := s.ring.advance rxBuffSize }
    if bufLen ≤ (data ++ [b]).length then some (returnData s (data ++ [b]))
    else some { s with reader := .testing bufLen (data ++ [b]) }

inductive Event
  | rxIsr (bytes : List UInt8)
  /-- a call of `shell_uart_read`; `pBuf` may be `NULL` -/
  | call (pBuf : Bool) (bufLen : BitVec 16)
  | read

def step (s : UartExt) : Event → Option UartExt
  | .rxIsr bytes => some (shellUartRxIsr s bytes)
  | .call pBuf bufLen =>
    if s.reader = .idle then
      if pBuf = false ∨ bufLen = 0 then some (returnData s [])
      else some { s with reader := .testing bufLen.toNat [] }
    else none
  | .read => readStep s

/-- The count of an interrupt does not wrap. -/
def Counts (_ : UartExt) : Event → Prop
  | .rxIsr bytes => bytes.length < 2 ^ 16
  | _ => True

instance (s : UartExt) : (e : Event) → Decidable (Counts s e)
  | .rxIsr _ => inferInstanceAs (Decidable (_ < _))
  | .call .. | .read => isTrue trivial

/-- The bytes that the reads took and those that are unread are the bytes that were kept, in
their order; a byte was dropped if and only if the overflow is marked. -/
structure InOrder (s : UartExt) (unread : List UInt8) : Prop where
  holds : s.ring.Holds rxBuffSize unread
  room : unread.length < rxBuffSize
  stream : s.returns.flatten ++ s.reader.data ++ unread = s.interrupts.flatMap Interrupt.kept
  dropped : s.rxOverFlow = true ↔ ∃ i ∈ s.interrupts, i.kept ≠ i.bytes
  next : ∀ bufLen data b, s.reader = .copied bufLen data b → ∃ rest, unread = b :: rest

variable {s s' : UartExt} {unread bytes : List UInt8} {e : Event}

theorem kept_ne_iff {held : Nat} (h : held < rxBuffSize) (bytes : List UInt8) :
    (Interrupt.mk held bytes).kept ≠ bytes ↔ rxBuffSize ≤ held + bytes.length := by
  change ¬ bytes.take (rxBuffSize - 1 - held) = bytes ↔ _
  rw [take_eq_self_iff]
  omega

theorem rxLoop_full {freeBuffLen rxCnt : Nat} (hfull : freeBuffLen ≤ rxCnt + 1)
    (hcount : rxCnt + bytes.length < 2 ^ 16) : rxLoop freeBuffLen rxCnt s bytes =
      { s with rxOverFlow := s.rxOverFlow || !bytes.isEmpty } := by
  induction bytes generalizing s rxCnt with
  | nil => simp [rxLoop]
  | cons b rest ih =>
    rw [length_cons] at hcount
    have hnext : addU16 rxCnt 1 = rxCnt + 1 := Nat.mod_eq_of_lt (by omega)
    rw [rxLoop, hnext, if_neg (Nat.not_lt.mpr hfull), ih (by omega) (by omega)]
    simp

theorem rxLoop_eq (freeBuffLen rxCnt : Nat) (bytes : List UInt8)
    (h : s.ring.Holds rxBuffSize unread)
    (hfree : unread.length + freeBuffLen = rxBuffSize + rxCnt) (hlen : unread.length < rxBuffSize)
    (hcount : rxCnt + bytes.length < 2 ^ 16) : ∃ ring, rxLoop freeBuffLen rxCnt s bytes =
        { s with ring := ring
                 rxOverFlow := s.rxOverFlow ||
                   decide (rxBuffSize ≤ unread.length + bytes.length) } ∧
      ring.Holds rxBuffSize (unread ++ bytes.take (rxBuffSize - 1 - unread.length)) := by
  induction bytes generalizing s unread rxCnt with
  | nil =>
    refine ⟨s.ring, ?_, by simpa using h⟩
    simp [rxLoop, Nat.not_le.mpr hlen]
  | cons b rest ih =>
    by_cases hroom : rxCnt + 1 < freeBuffLen
    · rw [length_cons] at hcount
      have hnext : addU16 rxCnt 1 = rxCnt + 1 := Nat.mod_eq_of_lt (by omega)
      have hmore : rxBuffSize - 1 - unread.length =
          rxBuffSize - 1 - (unread ++ [b]).length + 1 := by
        rw [length_append, length_singleton]
        omega
      obtain ⟨ring, hrun, hholds⟩ := ih (s := { s with ring := s.ring.put rxBuffSize b })
        (rxCnt + 1) (h.put (by omega) b)
        (by rw [length_append, length_singleton]; omega)
        (by rw [length_append, length_singleton]; omega) (by omega)
      refine ⟨ring, ?_, ?_⟩
      · rw [rxLoop, hnext, if_pos hroom, hrun, length_append, length_singleton,
          length_cons, Nat.add_assoc, Nat.add_comm 1]
      · rw [hmore, take_succ_cons, append_cons]
        exact hholds
    · have hnone : rxBuffSize - 1 - unread.length = 0 := by omega
      have hover : rxBuffSize ≤ unread.length + (b :: rest).length := by
        rw [length_cons]
        omega
      refine ⟨s.ring, ?_, ?_⟩
      · rw [rxLoop_full (by omega) hcount, decide_eq_true hover]
        rfl
      · rw [hnone, take_zero, append_nil]
        exact h

theorem InOrder.rxIsr (h : InOrder s unread) (hcount : bytes.length < 2 ^ 16) :
    InOrder (shellUartRxIsr s bytes) (unread ++ bytes.take (rxBuffSize - 1 - unread.length)) := by
  obtain ⟨hholds, hroom, hstream, hdropped, hnext⟩ := h
  have hheld := hholds.count_eq hroom
  obtain ⟨ring, hrun, hnew⟩ := rxLoop_eq
    (s := { s with interrupts := s.interrupts ++ [⟨s.ring.count rxBuffSize, bytes⟩] })
    (s.ring.freeItems rxBuffSize) 0 bytes hholds
    (by rw [hholds.freeItems_eq hroom]; omega) hroom (by omega)
  rw [shellUartRxIsr, hrun, hheld]
  refine ⟨hnew, ?_, ?_, ?_, fun bufLen data b hcopied => ?_⟩
  · rw [length_append, length_take]
    omega
  · rw [← append_assoc, hstream, flatMap_append, flatMap_singleton]
    rfl
  · rw [Bool.or_eq_true, hdropped, decide_eq_true_iff]
    simp only [mem_append, mem_singleton, or_and_right, exists_or, exists_eq_left]
    exact or_congr_right (kept_ne_iff hroom bytes).symm
  · obtain ⟨rest, rfl⟩ := hnext bufLen data b hcopied
    exact ⟨_, cons_append⟩

theorem InOrder.read (h : InOrder s unread) (hstep : readStep s = some s') :
    ∃ unread', InOrder s' unread' := by
  obtain ⟨hholds, hroom, hstream, hdropped, hnext⟩ := h
  unfold readStep at hstep
  split at hstep
  · cases hstep
  · rename_i bufLen data hreader
    rw [hreader] at hstream
    split at hstep
    · rename_i hne
      cases hstep
      refine ⟨unread, hholds, hroom, hstream, hdropped, fun _ _ b hcopied => ?_⟩
      cases hcopied
      obtain _ | ⟨x, rest⟩ := unread
      · exact absurd ((hholds.empty_iff hroom).mpr rfl) hne
      · exact ⟨rest, by rw [hholds.front]⟩
    · cases hstep
      refine ⟨unread, hholds, hroom, ?_, hdropped, nofun⟩
      simpa [returnData, Reader.data] using hstream
  · rename_i bufLen data b hreader
    obtain ⟨rest, rfl⟩ := hnext bufLen data b hreader
    rw [hreader] at hstream
    have hrest : rest.length < rxBuffSize := Nat.lt_of_succ_lt hroom
    dsimp only at hstep
    split at hstep <;> cases hstep <;> refine ⟨rest, hholds.advance, hrest, ?_, hdropped, nofun⟩
    · simpa [returnData, Reader.data] using hstream
    · simpa [Reader.data] using hstream

theorem InOrder.step (h : InOrder s unread) (hok : Counts s e) (hstep : step s e = some s') :
    ∃ unread', InOrder s' unread' := by
  cases e with
  | rxIsr =>
    cases hstep
    exact ⟨_, h.rxIsr hok⟩
  | call =>
    obtain ⟨hidle, hstep⟩ := Option.ite_none_right_eq_some.mp hstep
    obtain ⟨hholds, hroom, hstream, hdropped, -⟩ := h
    rw [hidle] at hstream
    split at hstep <;> cases hstep <;>
      refine ⟨unread, hholds, hroom, by simpa [returnData, Reader.data] using hstream, hdropped,
        nofun⟩
  | read => exact h.read hstep

/-- In every run whose interrupts count their bytes, the reads take the received bytes in their
order, without those that came while the interrupt saw a full ring, and each of these marks the
overflow; the number of unread bytes that the next interrupt finds is what is left. -/
theorem reads_in_order (h : Reached step Counts initial s) :
    ∃ unread, s.returns.flatten ++ s.reader.data ++ unread = s.interrupts.flatMap Interrupt.kept ∧
      s.ring.count rxBuffSize = unread.length ∧ unread.length < rxBuffSize ∧
      (s.rxOverFlow = true ↔ ∃ i ∈ s.interrupts, i.kept ≠ i.bytes) := by
  have hinitial : InOrder initial [] :=
    ⟨.empty (by decide) _, by decide, rfl, by simp [initial], nofun⟩
  obtain ⟨unread, hinv⟩ := h.invariant (fun s => ∃ unread, InOrder s unread) ⟨[], hinitial⟩ <| by
    rintro s e s' ⟨unread, hinv⟩ hok hstep
    exact hinv.step hok hstep
  exact ⟨unread, hinv.stream, hinv.holds.count_eq hinv.room, hinv.room, hinv.dropped⟩

theorem reads_in_order_two : ∃ s, Reached step Counts initial s ∧ s.returns = [[5]] ∧ ∃ unread,
      s.returns.flatten ++ s.reader.data ++ unread = s.interrupts.flatMap Interrupt.kept ∧
      s.ring.count rxBuffSize = unread.length ∧ unread.length < rxBuffSize ∧
      (s.rxOverFlow = true ↔ ∃ i ∈ s.interrupts, i.kept ≠ i.bytes) :=
  exists_reached_and (fun _ => reads_in_order)
    [.rxIsr [5, 6], .call true 1, .read, .rxIsr [7], .read] (by decide)

theorem rxLoop_append (freeBuffLen : Nat) {rxCnt : Nat} (s : UartExt) (bytes more : List UInt8)
    (hcount : rxCnt + bytes.length < 2 ^ 16) : rxLoop freeBuffLen rxCnt s (bytes ++ more) =
      rxLoop freeBuffLen (rxCnt + bytes.length) (rxLoop freeBuffLen rxCnt s bytes) more := by
  induction bytes generalizing rxCnt s with
  | nil => rfl
  | cons b rest ih =>
    rw [length_cons] at hcount ⊢
    have hnext : addU16 rxCnt 1 = rxCnt + 1 := Nat.mod_eq_of_lt (by omega)
    rw [cons_append, rxLoop, rxLoop, hnext, Nat.add_comm rest.length, ← Nat.add_assoc]
    split <;> exact ih _ (by omega)

theorem rxIsr_wrapped (hlen : bytes.length = 2 ^ 16 - 1) (b : UInt8) :
    ∃ ring, shellUartRxIsr initial (bytes ++ [b]) =
        { initial with ring := ring, rxOverFlow := true, interrupts := [⟨0, bytes ++ [b]⟩] } ∧
      ring.count rxBuffSize = 0 := by
  obtain ⟨ring, hrun, hholds⟩ := rxLoop_eq
    (s := { initial with interrupts := [⟨0, bytes ++ [b]⟩] }) rxBuffSize 0 bytes
    (.empty (by decide) _) rfl (by decide) (by omega)
  rw [nil_append, length_nil] at hholds
  have hkept : (bytes.take (rxBuffSize - 1 - 0)).length = 159 := by
    rw [length_take, hlen]
    rfl
  have hover : rxBuffSize ≤ ([] : List UInt8).length + bytes.length := by
    rw [hlen]
    decide
  have hfull := hholds.put (hkept.trans_lt (by decide)) b
  refine ⟨ring.put rxBuffSize b, ?_, ?_⟩
  · change rxLoop rxBuffSize 0 { initial with interrupts := [⟨0, bytes ++ [b]⟩] } (bytes ++ [b]) = _
    rw [rxLoop_append _ _ _ _ (by omega), hrun, decide_eq_true hover, hlen]
    rfl
  · have hin := hfull.in_eq
    rw [length_append, hkept] at hin
    have hout := hfull.out_lt
    rw [RingBuffer.count, hin]
    rw [rxBuffSize] at hout ⊢
    simp only [length_singleton]
    omega

-- The ring looks empty, and the 159 bytes that were stored before are not read.
theorem long_interrupt_empties :
    ∃ s, Reached step anyStep initial s ∧ s.interrupts = [⟨0, replicate (2 ^ 16) 7⟩] ∧
      s.returns = [] ∧ s.reader = .idle ∧ s.ring.count rxBuffSize = 0 ∧
      (s.interrupts.flatMap Interrupt.kept).length = 159 := by
  have hbytes : replicate (2 ^ 16) (7 : UInt8) = replicate (2 ^ 16 - 1) 7 ++ [7] := replicate_succ'
  obtain ⟨ring, hrun, hcount⟩ := rxIsr_wrapped (length_replicate (a := (7 : UInt8))) 7
  rw [← hbytes] at hrun
  refine ⟨_, .step (.rxIsr (replicate (2 ^ 16) 7)) .start trivial (congrArg some hrun), rfl,
    rfl, rfl, hcount, ?_⟩
  rw [flatMap_singleton, Interrupt.kept, length_take, length_replicate]
  rfl

end BekenSoc.ShellUartRing
