import BekenSoc.UartDriver

namespace BekenSoc.UartReads

open BkFifo List
open GuardedRuns
open RtosEvents (bekenWaitForever losTimeout)
open SignalGates
open UartDriver

variable {s s' : Uart} {e : Event}
variable {contents : List UInt8} {n : Nat} {c : Call} {g : Gate}

def Return.Counted (r : Return) : Prop :=
  r.value = r.data.length ∨
    r.value = bkErrUartRxTimeout ∧ r.data = [] ∧ losTimeout r.call.timeoutMs ≠ 0

def Reader.Knows (contents : List UInt8) : Reader → Prop
  | .pended c => losTimeout c.timeoutMs ≠ 0
  | .timedOut c => losTimeout c.timeoutMs ≠ 0
  | .sized _ kfifoDataLen => kfifoDataLen ≤ contents.length
  | _ => True

/-- The bytes that were put in the software FIFO are those that were returned, in their order,
and then those that it still holds. -/
structure Delivers (s : Uart) (contents : List UInt8) : Prop where
  holds : Holds s.kfifo contents
  stream : s.returns.flatMap Return.data ++ contents = s.accepted
  counted : ∀ r ∈ s.returns, Return.Counted r
  reader : Reader.Knows contents s.reader

theorem delivers_initial : Delivers initial [] :=
  ⟨holds_init _, rfl, fun _ hr => absurd hr not_mem_nil, trivial⟩

theorem Reader.Knows.append {reader : Reader} (h : Reader.Knows contents reader)
    (more : List UInt8) : Reader.Knows (contents ++ more) reader := by
  cases reader with
  | sized c kfifoDataLen =>
    change kfifoDataLen ≤ (contents ++ more).length
    rw [length_append]
    exact Nat.le_add_right_of_le h
  | _ => exact h

section

variable (h : Delivers s contents)
include h

theorem Delivers.rxIsr : Delivers (UartDriver.rxIsr s)
      (contents ++ s.rxFifo.take (uartIdReadFifoFrame s.rxFifo s.kfifo).2) := by
  refine ⟨(uartIdReadFifoFrame_spec s.rxFifo h.holds).1, ?_, h.counted, h.reader.append _⟩
  change s.returns.flatMap Return.data ++ (contents ++ _) = s.accepted ++ _
  rw [← append_assoc, h.stream]

theorem Delivers.uartIsrCommon (rx parityErr : Bool) :
    ∃ more, Delivers (UartDriver.uartIsrCommon s rx parityErr) (contents ++ more) := by
  have hflush : ∀ {t : Uart} {list : List UInt8}, Delivers t list →
      Delivers (if parityErr then { t with rxFifo := [] } else t) list := by
    intro t list ht
    cases parityErr with
    | false => exact ht
    | true => exact { ht with }
  cases rx with
  | false => exact ⟨[], by rw [append_nil]; exact hflush h⟩
  | true => exact ⟨_, hflush h.rxIsr⟩

theorem Delivers.returns {f : Kfifo} (c : Call) (hn : n ≤ contents.length)
    (hf : Holds f (contents.drop n)) :
    Delivers { s with kfifo := f, reader := .idle
                      returns := s.returns ++ [⟨c, n, contents.take n⟩] } (contents.drop n) := by
  refine ⟨hf, ?_, ?_, trivial⟩
  · change (s.returns ++ [(⟨c, n, contents.take n⟩ : Return)]).flatMap Return.data ++ _ = _
    rw [flatMap_append, flatMap_singleton, append_assoc, take_append_drop]
    exact h.stream
  · refine forall_mem_append.mpr ⟨h.counted, forall_mem_singleton.mpr ?_⟩
    exact .inl (by simp [hn])

theorem Delivers.takeBytes {kfifoDataLen : Nat} (hlen : kfifoDataLen ≤ contents.length) :
    ∃ n, Delivers (UartDriver.takeBytes s c kfifoDataLen) (contents.drop n) := by
  unfold UartDriver.takeBytes
  split
  · split
    · obtain ⟨hholds, hdata⟩ := h.holds.get kfifoDataLen
      refine ⟨kfifoDataLen, ?_⟩
      dsimp only
      rw [hdata]
      exact h.returns c hlen hholds
    · rename_i hempty
      rw [not_not.mp hempty]
      exact ⟨0, h.returns c (Nat.zero_le _) h.holds⟩
  · rename_i hsize
    obtain ⟨hholds, hdata⟩ := h.holds.get c.size
    refine ⟨c.size, ?_⟩
    dsimp only
    rw [hdata]
    exact h.returns c (Nat.le_trans (Nat.le_of_not_lt hsize) hlen) hholds

theorem Delivers.givesUp (htimeout : losTimeout c.timeoutMs ≠ 0) :
    Delivers { s with sema := g, reader := .idle
                      returns := s.returns ++ [⟨c, bkErrUartRxTimeout, []⟩] } contents := by
  refine ⟨h.holds, ?_, ?_, trivial⟩
  · change (s.returns ++ [(⟨c, bkErrUartRxTimeout, []⟩ : Return)]).flatMap Return.data ++ _ = _
    rw [flatMap_append, flatMap_singleton, append_nil]
    exact h.stream
  · refine forall_mem_append.mpr ⟨h.counted, forall_mem_singleton.mpr ?_⟩
    exact .inr ⟨rfl, rfl, htimeout⟩

theorem Delivers.step (hstep : UartDriver.step s e = some s') :
    ∃ contents', Delivers s' contents' := by
  have hknows := h.reader
  cases step_cases hstep with
  | received => exact ⟨contents, h.holds, h.stream, h.counted, h.reader⟩
  | interrupt =>
    obtain ⟨more, hmore⟩ := h.uartIsrCommon _ _
    exact ⟨_, hmore⟩
  | called | arms | finds | polls | resumes =>
    exact ⟨contents, h.holds, h.stream, h.counted, trivial⟩
  | pends _ htimeout => exact ⟨contents, h.holds, h.stream, h.counted, htimeout⟩
  | expires hreader =>
    rw [hreader] at hknows
    exact ⟨contents, h.holds, h.stream, h.counted, hknows⟩
  | givesUp hreader =>
    rw [hreader] at hknows
    exact ⟨contents, h.givesUp hknows⟩
  | sizes => exact ⟨contents, h.holds, h.stream, h.counted, Nat.le_of_eq h.holds.dataSize⟩
  | takes hreader =>
    rw [hreader] at hknows
    obtain ⟨n, hn⟩ := h.takeBytes hknows
    exact ⟨_, hn⟩

end

theorem delivers_of_reached {ok : Uart → Event → Prop}
    (h : Reached UartDriver.step ok initial s) : ∃ contents, Delivers s contents := by
  refine h.invariant (fun s => ∃ contents, Delivers s contents) ⟨[], delivers_initial⟩ ?_
  rintro s e s' ⟨contents, hs⟩ - hstep
  exact hs.step hstep

def Reader.waits : Reader → Bool
  | .armed _ | .pended _ | .timedOut _ => true
  | _ => false

def missedPoll (s : Uart) : Bool :=
  match s.reader with
  | .armed c => losTimeout c.timeoutMs == 0 && !s.sema.token
  | _ => false

/-- No wait of less than a tick begins before the interrupt that it waits for. -/
def NoMissedPoll (s : Uart) (e : Event) : Prop := e = .read → missedPoll s = false

instance (s : Uart) (e : Event) : Decidable (NoMissedPoll s e) :=
  inferInstanceAs (Decidable (_ → _))

def Reader.Gated (g : Gate) (available : Nat) : Reader → Prop
  | .idle | .entered _ => g.Quiet
  | .armed _ => g.Open ∧ (g.token = true → 0 < available)
  | .pended _ => g.Blocked ∨ g.Quiet ∧ 0 < available
  | .timedOut _ => g.Open
  | .taking _ => g.Quiet ∧ 0 < available
  | .sized _ kfifoDataLen => g.Quiet ∧ 0 < kfifoDataLen

variable {reader : Reader}

structure Settled (s : Uart) : Prop where
  reader : Reader.Gated s.sema (kfifoDataSize s.kfifo) s.reader
  returns : ∀ r ∈ s.returns, 0 < r.call.size → r.value ≠ 0

theorem settled_initial : Settled initial := ⟨Gate.quiet_idle, fun _ hr => absurd hr not_mem_nil⟩

theorem Reader.Gated.mono {m : Nat} (h : Reader.Gated g n reader) (hle : n ≤ m) :
    Reader.Gated g m reader := by
  cases reader with
  | armed => exact ⟨h.1, fun htoken => Nat.lt_of_lt_of_le (h.2 htoken) hle⟩
  | pended => exact h.imp_right fun hquiet => ⟨hquiet.1, Nat.lt_of_lt_of_le hquiet.2 hle⟩
  | taking => exact ⟨h.1, Nat.lt_of_lt_of_le h.2 hle⟩
  | _ => exact h

theorem Reader.Gated.fire (h : Reader.Gated g n reader) (hn : 0 < n) :
    Reader.Gated g.fire n reader := by
  cases reader with
  | idle | entered => exact Gate.Quiet.fire h
  | armed => exact ⟨h.1.fire, fun _ => hn⟩
  | pended =>
    rcases h with hblocked | ⟨hquiet, -⟩
    · exact .inr ⟨hblocked.fire, hn⟩
    · exact .inr ⟨hquiet.fire, hn⟩
  | timedOut => exact Gate.Open.fire h
  | taking => exact ⟨h.1.fire, hn⟩
  | sized => exact ⟨h.1.fire, h.2⟩

theorem Settled.rxIsr (h : Settled s) (hdelivers : Delivers s contents) :
    Settled (UartDriver.rxIsr s) := by
  obtain ⟨hholds, -⟩ := uartIdReadFifoFrame_spec s.rxFifo hdelivers.holds
  have hsize : kfifoDataSize (UartDriver.rxIsr s).kfifo =
      kfifoDataSize s.kfifo + (s.rxFifo.take (uartIdReadFifoFrame s.rxFifo s.kfifo).2).length := by
    rw [hdelivers.holds.dataSize, ← length_append]
    exact hholds.dataSize
  refine ⟨?_, h.returns⟩
  have hmore := h.reader.mono (Nat.le_add_right _ _ : _ ≤ kfifoDataSize s.kfifo +
    (s.rxFifo.take (uartIdReadFifoFrame s.rxFifo s.kfifo).2).length)
  rw [← hsize] at hmore
  change Reader.Gated (if _ > 0 then s.sema.fire else s.sema) _ s.reader
  split
  · rename_i hcount
    apply hmore.fire
    have hspec := (uartIdReadFifoFrame_spec s.rxFifo hdelivers.holds).2
    rw [hsize, length_take]
    omega
  · exact hmore

theorem Settled.uartIsrCommon (h : Settled s) (hdelivers : Delivers s contents)
    (rx parityErr : Bool) :
    Settled (UartDriver.uartIsrCommon s rx parityErr) := by
  have hflush : ∀ {t : Uart}, Settled t →
      Settled (if parityErr then { t with rxFifo := [] } else t) := by
    intro t ht
    cases parityErr with
    | false => exact ht
    | true => exact ⟨ht.reader, ht.returns⟩
  cases rx with
  | false => exact hflush h
  | true => exact hflush (h.rxIsr hdelivers)

theorem rxTimeout_ne_zero : bkErrUartRxTimeout ≠ 0 := by decide

theorem returns_append {rs : List Return} {r : Return}
    (h : ∀ r ∈ rs, 0 < r.call.size → r.value ≠ 0) (hr : 0 < r.call.size → r.value ≠ 0) :
    ∀ r' ∈ rs ++ [r], 0 < r'.call.size → r'.value ≠ 0 :=
  forall_mem_append.mpr ⟨h, forall_mem_singleton.mpr hr⟩

theorem Settled.takeBytes (h : Settled s) {kfifoDataLen : Nat}
    (hreader : s.reader = .sized c kfifoDataLen) :
    Settled (UartDriver.takeBytes s c kfifoDataLen) := by
  have hgated := h.reader
  rw [hreader] at hgated
  obtain ⟨hquiet, hpos⟩ := hgated
  unfold UartDriver.takeBytes
  split
  · rw [if_pos (Nat.ne_of_gt hpos)]
    exact ⟨hquiet, returns_append h.returns fun _ => Int.natCast_ne_zero.mpr (Nat.ne_of_gt hpos)⟩
  · exact ⟨hquiet, returns_append h.returns fun hsize =>
      Int.natCast_ne_zero.mpr (Nat.ne_of_gt hsize)⟩

theorem Settled.step (h : Settled s) (hdelivers : Delivers s contents) (hok : NoMissedPoll s e)
    (hstep : UartDriver.step s e = some s') : Settled s' := by
  have hgated := h.reader
  cases step_cases hstep with
  | received => exact ⟨h.reader, h.returns⟩
  | interrupt => exact h.uartIsrCommon hdelivers _ _
  | called hreader =>
    rw [hreader] at hgated
    exact ⟨hgated, h.returns⟩
  | arms hreader =>
    rw [hreader] at hgated
    refine ⟨⟨Gate.Quiet.arm hgated, fun htoken => ?_⟩, h.returns⟩
    rw [Gate.Quiet.token_arm hgated] at htoken
    cases htoken
  | finds hreader hsize =>
    rw [hreader] at hgated
    exact ⟨⟨hgated, Nat.pos_of_ne_zero hsize⟩, h.returns⟩
  | polls hreader htimeout =>
    rw [hreader] at hgated
    obtain ⟨hopen, havailable⟩ := hgated
    -- the wait did not miss, so the interrupt came before it
    have htoken : s.sema.token = true := by
      have hmissed := hok rfl
      simpa [missedPoll, hreader, htimeout] using hmissed
    exact ⟨⟨hopen.poll htoken, havailable htoken⟩, h.returns⟩
  | pends hreader =>
    rw [hreader] at hgated
    obtain ⟨hopen, havailable⟩ := hgated
    refine ⟨?_, h.returns⟩
    rcases hopen.pend with ⟨htoken, hquiet⟩ | hblocked
    · exact .inr ⟨hquiet, havailable htoken⟩
    · exact .inl hblocked
  | resumes hreader hwaiting =>
    rw [hreader] at hgated
    rcases hgated with hblocked | hquiet
    · rw [hblocked.2.2] at hwaiting
      cases hwaiting
    · exact ⟨hquiet, h.returns⟩
  | expires hreader hwaiting =>
    rw [hreader] at hgated
    rcases hgated with hblocked | ⟨hquiet, -⟩
    · exact ⟨hblocked.expire, h.returns⟩
    · rw [hquiet.2.2] at hwaiting
      cases hwaiting
  | givesUp hreader =>
    rw [hreader] at hgated
    exact ⟨Gate.Open.settle hgated, returns_append h.returns fun _ => rxTimeout_ne_zero⟩
  | sizes hreader =>
    rw [hreader] at hgated
    exact ⟨hgated, h.returns⟩
  | takes hreader => exact h.takeBytes hreader

theorem settled_of_reached (h : Reached UartDriver.step NoMissedPoll initial s) : Settled s := by
  have hboth := h.invariant (fun s => Settled s ∧ ∃ contents, Delivers s contents)
    ⟨settled_initial, [], delivers_initial⟩ (by
      rintro s e s' ⟨hs, contents, hdelivers⟩ hok hstep
      exact ⟨hs.step hdelivers hok hstep, hdelivers.step hstep⟩)
  exact hboth.1

theorem Settled.quiet_of_not_waits (h : Settled s) (hwaits : Reader.waits s.reader = false) :
    s.sema.Quiet := by
  have hgated := h.reader
  cases hreader : s.reader with
  | armed | pended | timedOut =>
    rw [hreader] at hwaits
    cases hwaits
  | idle | entered =>
    rw [hreader] at hgated
    exact hgated
  | taking | sized =>
    rw [hreader] at hgated
    exact hgated.1

/-- Between two waits the semaphore is empty and the flag is clear, and a read that waits for
ever returns bytes. -/
theorem reads_settled (s : Uart) (h : Reached UartDriver.step NoMissedPoll initial s) :
    (Reader.waits s.reader = false → s.sema.token = false ∧ s.sema.armed = false) ∧
      ∀ r ∈ s.returns, 0 < r.call.size → r.call.timeoutMs = bekenWaitForever → r.value ≠ 0 := by
  have hsettled := settled_of_reached h
  constructor
  · intro hwaits
    obtain ⟨harmed, htoken, -⟩ := hsettled.quiet_of_not_waits hwaits
    exact ⟨htoken, harmed⟩
  · intro r hr hsize _
    exact hsettled.returns r hr hsize

theorem reads_settled_byte : ∃ s, Reached UartDriver.step NoMissedPoll initial s ∧
      s.returns = [⟨⟨4, bekenWaitForever⟩, 1, [7]⟩] ∧
      (Reader.waits s.reader = false → s.sema.token = false ∧ s.sema.armed = false) ∧
      ∀ r ∈ s.returns, 0 < r.call.size → r.call.timeoutMs = bekenWaitForever → r.value ≠ 0 :=
  exists_reached_and reads_settled
    [.call ⟨4, bekenWaitForever⟩, .read, .read, .receive 7, .isr true false, .read, .read, .read]
    (by decide)

theorem poll_leaves_token : ∃ s, Reached UartDriver.step anyStep initial s ∧
      Reader.waits s.reader = false ∧ s.sema.armed = true ∧
      (⟨⟨1, bekenWaitForever⟩, 0, []⟩ : Return) ∈ s.returns :=
  exists_reached _ _ _ _
    [.call ⟨1, 0⟩, .read, .read, .read, .read, .receive 7, .isr true false,
      .call ⟨1, 0⟩, .read, .read, .read,
      .call ⟨1, bekenWaitForever⟩, .read, .read, .read, .read, .read] (by decide)

end BekenSoc.UartReads
