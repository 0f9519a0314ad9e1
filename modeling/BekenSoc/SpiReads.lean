import BekenSoc.GuardedRuns
import BekenSoc.SpiDriver

namespace BekenSoc.SpiReads

open Function GuardedRuns SignalGates SpiDriver List

variable {got : List UInt8} {depth : Nat}

inductive Reader
  | idle
  | started (buf : Buffer)
  /-- in `rtos_get_semaphore` -/
  | pended (buf : Buffer)
  deriving DecidableEq

structure Return where
  buf : Buffer
  received : List UInt8
  stores : List Store
  deriving DecidableEq

structure System where
  spi : Spi
  reader : Reader
  /-- the bytes that came on the wire since the call began -/
  received : List UInt8
  returns : List Return
  deriving DecidableEq

def initial (isMaster bitWidth16 : Bool) : System := ⟨spiInit isMaster bitWidth16, .idle, [], []⟩

inductive Event
  | call (buf : Buffer)
  | receive (byte : UInt8)
  | isr (i : Interrupt)
  | read
  deriving DecidableEq

def Interrupt.arrivals (i : Interrupt) : List UInt8 := i.early ++ i.between ++ i.late

variable {i : Interrupt}

/-- What the hardware can do: a transfer ends when its length has been received, only a slave is
released, and bytes come only while the receiver is enabled. -/
def possible (s : System) (i : Interrupt) : Bool :=
  (!i.rxFinish || (decide (s.spi.finishAfter ≤ s.received.length) && i.late == [])) &&
    (!i.slaveRelease || !s.spi.isMaster) &&
    (s.spi.rxEnabled || Interrupt.arrivals i == [])

def readStep (s : System) : Reader → Option System
  | .idle => none
  | .started buf => some { s with spi := { s.spi with rx := s.spi.rx.pend }, reader := .pended buf }
  | .pended buf =>
    if s.spi.rx.waiting then none
    else
      some { s with
        spi := bkSpiClrRx s.spi
        reader := .idle
        returns := s.returns ++ [⟨buf, s.received, s.spi.stores⟩] }

section Hardware

variable (depth : Nat)

def step (s : System) : Event → Option System
  | .call buf =>
    if s.reader = .idle then
      -- the log of the stores begins with the call
      some { s with
        spi := { bkSpiReadBytes s.spi buf with stores := [] }
        reader := .started buf
        received := [] }
    else none
  | .receive byte =>
    if s.spi.rxEnabled then
      some { s with
        spi := if s.spi.rxFifo.length < depth then arrive s.spi [byte] else s.spi
        received := s.received ++ [byte] }
    else none
  | .isr i =>
    if possible s i then
      some { s with spi := spiIsrCommon s.spi i, received := s.received ++ Interrupt.arrivals i }
    else none
  | .read => readStep s s.reader

/-- No byte comes behind the programmed length, to a full FIFO or after the signal that ends the
wait, and the line is released only when the interrupt leaves no byte in the FIFO. -/
def Orderly (s : System) : Event → Prop
  | .receive _ =>
    s.received.length < s.spi.finishAfter ∧ s.spi.rxFifo.length < depth ∧ s.spi.rx.armed = true
  | .isr i =>
    (Interrupt.arrivals i = [] ∨ s.spi.rx.armed = true ∧
      s.received.length + (Interrupt.arrivals i).length ≤ s.spi.finishAfter) ∧
    (i.slaveRelease = false ∨ Interrupt.arrivals i = [] ∧
      (i.rxFifo = true ∨ i.rxFinish = true ∨ s.spi.rxFifo = []))
  | _ => True

instance (s : System) (e : Event) : Decidable (Orderly depth s e) :=
  match e with
  | .receive _ | .isr _ => inferInstanceAs (Decidable (_ ∧ _))
  | .call _ | .read => isTrue trivial

end Hardware

def written (mem : Nat → UInt8) (stores : List Store) : Nat → UInt8 :=
  stores.foldl (fun mem st => update mem st.offset st.data) mem

def Return.InOrder (r : Return) : Prop :=
  ∀ mem i, i < r.received.length → i < r.buf.size → written mem r.stores i = r.received.getD i 0

def inPlace (buf : Buffer) : Nat → List UInt8 → List Store
  | _, [] => []
  | offset, data :: bytes => ⟨buf, offset, data⟩ :: inPlace buf (offset + 1) bytes

theorem inPlace_append (buf : Buffer) (offset : Nat) (l m : List UInt8) :
    inPlace buf offset (l ++ m) = inPlace buf offset l ++ inPlace buf (offset + l.length) m := by
  induction l generalizing offset with
  | nil => rfl
  | cons data l ih =>
    rw [cons_append, inPlace, inPlace, ih (offset + 1), cons_append, length_cons,
      Nat.add_assoc, Nat.add_comm 1]

theorem written_inPlace_of_lt (mem : Nat → UInt8) (buf : Buffer) (l : List UInt8)
    {offset i : Nat} (hi : i < offset) : written mem (inPlace buf offset l) i = mem i := by
  induction l generalizing mem offset with
  | nil => rfl
  | cons data l ih =>
    change written (update mem offset data) (inPlace buf (offset + 1) l) i = _
    rw [ih _ (Nat.lt_succ_of_lt hi), update_of_ne (Nat.ne_of_lt hi)]

theorem written_inPlace (mem : Nat → UInt8) (buf : Buffer) (l : List UInt8) (offset : Nat)
    {i : Nat} (hi : i < l.length) :
    written mem (inPlace buf offset l) (offset + i) = l.getD i 0 := by
  induction l generalizing mem offset i with
  | nil => exact absurd hi (Nat.not_lt_zero _)
  | cons data l ih =>
    change written (update mem offset data) (inPlace buf (offset + 1) l) _ = _
    cases i with
    | zero =>
      change written _ _ offset = data
      rw [written_inPlace_of_lt _ _ _ (Nat.lt_add_one offset), update_self]
    | succ =>
      rw [← Nat.add_assoc, Nat.add_right_comm, ih _ _ (Nat.lt_of_succ_lt_succ hi)]
      rfl

theorem drainInto_eq_inPlace (buf : Buffer) (fifo : List UInt8) {offset : Nat}
    (hroom : offset + fifo.length ≤ buf.size) : drainInto (some buf) buf.size fifo offset =
      (inPlace buf offset fifo, offset + fifo.length) := by
  induction fifo generalizing offset with
  | nil => rfl
  | cons data fifo ih =>
    rw [length_cons] at hroom
    rw [drainInto]
    dsimp only
    rw [if_pos (by omega), ih (by omega), length_cons, inPlace, Nat.add_assoc, Nat.add_comm 1]

structure Receiving (buf : Buffer) (took : List UInt8) (s : Spi) : Prop where
  installed : s.rxBuf = some buf
  size : s.rxSize = buf.size
  offset : s.rxOffset = took.length
  stores : s.stores = inPlace buf 0 took
  room : took.length + s.rxFifo.length ≤ buf.size

variable {s s' : System} {spi : Spi} {buf : Buffer} {took : List UInt8}

theorem Receiving.arrive (h : Receiving buf took spi) {bytes : List UInt8}
    (hroom : took.length + spi.rxFifo.length + bytes.length ≤ buf.size) :
    Receiving buf took (SpiDriver.arrive spi bytes) := by
  refine { h with room := ?_ }
  change took.length + (spi.rxFifo ++ bytes).length ≤ _
  rw [length_append]
  omega

theorem Receiving.drained (h : Receiving buf took spi) : drainFrom spi took.length = { spi with
        stores := inPlace buf 0 (took ++ spi.rxFifo)
        rxOffset := (took ++ spi.rxFifo).length
        rxFifo := [] } := by
  rw [drainFrom, h.installed, h.size, drainInto_eq_inPlace buf _ h.room, h.stores, inPlace_append,
    Nat.zero_add, length_append]

theorem Receiving.readBytesCommon (h : Receiving buf took spi) :
    Receiving buf (took ++ spi.rxFifo) (spiIdReadBytesCommon spi) := by
  rw [spiIdReadBytesCommon, h.offset, h.drained]
  refine ⟨h.installed, h.size, rfl, rfl, ?_⟩
  change (took ++ spi.rxFifo).length + 0 ≤ _
  rw [length_append]
  exact h.room

structure Done (buf : Buffer) (got : List UInt8) (s : Spi) : Prop where
  fifo : s.rxFifo = []
  stores : s.stores = inPlace buf 0 got

theorem Receiving.done (h : Receiving buf took spi) (hfifo : spi.rxFifo = []) :
    Done buf took spi := ⟨hfifo, h.stores⟩

theorem drainFrom_of_nil (hfifo : spi.rxFifo = []) (offset : Nat) :
    drainFrom spi offset = { spi with rxOffset := offset } := by
  rw [drainFrom, hfifo, drainInto, append_nil]

theorem Done.drainFrom (h : Done buf got spi) (offset : Nat) :
    Done buf got (SpiDriver.drainFrom spi offset) := by
  rw [drainFrom_of_nil h.fifo]
  exact ⟨h.fifo, h.stores⟩

theorem Done.rxFinishIsr (h : Done buf got spi) (rdOffset : Nat) :
    Done buf got (SpiDriver.rxFinishIsr spi rdOffset) := by
  unfold SpiDriver.rxFinishIsr
  split
  · exact ⟨(h.drainFrom rdOffset).fifo, (h.drainFrom rdOffset).stores⟩
  · exact ⟨h.fifo, h.stores⟩

theorem Receiving.rxFinishIsr (h : Receiving buf took spi) :
    Done buf (took ++ spi.rxFifo) (SpiDriver.rxFinishIsr spi took.length) := by
  unfold SpiDriver.rxFinishIsr
  split
  · rw [h.drained]
    exact ⟨rfl, rfl⟩
  · rename_i hempty
    have hsize : buf.size = 0 := by
      apply Nat.eq_zero_of_not_pos
      intro hpos
      exact hempty ⟨by rw [h.size]; exact Nat.ne_of_gt hpos,
        by rw [h.installed]; exact Option.some_ne_none buf⟩
    have hroom := h.room
    have hfifo : spi.rxFifo = [] := eq_nil_of_length_eq_zero (by omega)
    rw [hfifo, append_nil]
    exact ⟨hfifo, h.stores⟩

def lastStages (i : Interrupt) (s : Spi) : Spi :=
  let s := if i.txFinish then txFinishIsr s else s
  if i.slaveRelease then slaveReleaseIsr s else s

theorem txFinishIsr_eq (s : Spi) : ∃ g, txFinishIsr s = { s with tx := g } := by
  unfold txFinishIsr
  split
  · exact ⟨_, rfl⟩
  · exact ⟨s.tx, rfl⟩

theorem slaveReleaseIsr_eq (s : Spi) :
    ∃ g, slaveReleaseIsr s = { s with tx := g, rx := s.rx.fire } := by
  unfold slaveReleaseIsr
  split
  · exact ⟨_, rfl⟩
  · exact ⟨s.tx, rfl⟩

theorem lastStages_eq (i : Interrupt) (s : Spi) : ∃ g, lastStages i s =
      { s with tx := g, rx := if i.slaveRelease then s.rx.fire else s.rx } := by
  have htx : ∃ g, (if i.txFinish then txFinishIsr s else s) = { s with tx := g } := by
    split
    · exact txFinishIsr_eq s
    · exact ⟨s.tx, rfl⟩
  obtain ⟨g, hg⟩ := htx
  rw [lastStages, hg]
  split
  · obtain ⟨g', hg'⟩ := slaveReleaseIsr_eq { s with tx := g }
    exact ⟨g', hg'⟩
  · exact ⟨g, rfl⟩

def readStages (i : Interrupt) (s : Spi) : Spi :=
  let s := arrive s i.early
  let s := if i.rxFifo then spiIdReadBytesCommon s else s
  arrive s i.between

theorem spiIsrCommon_eq (s : Spi) (i : Interrupt) : spiIsrCommon s i =
      let next := readStages i s
      arrive (lastStages i (if i.rxFinish then rxFinishIsr next s.rxOffset else next)) i.late := rfl

theorem rx_readStages (i : Interrupt) (s : Spi) : (readStages i s).rx = s.rx := by
  unfold readStages
  dsimp only
  split <;> rfl

theorem finishAfter_readStages (i : Interrupt) (s : Spi) :
    (readStages i s).finishAfter = s.finishAfter := by
  unfold readStages
  dsimp only
  split <;> rfl

theorem arrive_nil (s : Spi) : arrive s [] = s := by
  rw [arrive, append_nil]

theorem arrivals_eq_nil (h : Interrupt.arrivals i = []) :
    i.early = [] ∧ i.between = [] ∧ i.late = [] := by
  rw [Interrupt.arrivals, append_eq_nil_iff, append_eq_nil_iff] at h
  exact ⟨h.1.1, h.1.2, h.2⟩

theorem spiIsrCommon_of_no_arrivals (h : Interrupt.arrivals i = []) (s : Spi) : spiIsrCommon s i =
      let next := if i.rxFifo then spiIdReadBytesCommon s else s
      lastStages i (if i.rxFinish then rxFinishIsr next s.rxOffset else next) := by
  obtain ⟨hearly, hbetween, hlate⟩ := arrivals_eq_nil h
  rw [spiIsrCommon_eq, readStages, hearly, hbetween, hlate]
  dsimp only
  rw [arrive_nil, arrive_nil, arrive_nil]

theorem Done.lastStages (h : Done buf got spi) (i : Interrupt) :
    Done buf got (SpiReads.lastStages i spi) := by
  obtain ⟨g, hg⟩ := lastStages_eq i spi
  rw [hg]
  exact ⟨h.fifo, h.stores⟩

theorem Done.isr (h : Done buf got spi) (hnone : Interrupt.arrivals i = []) :
    Done buf got (spiIsrCommon spi i) := by
  rw [spiIsrCommon_of_no_arrivals hnone]
  apply Done.lastStages
  have hfifo : Done buf got (if i.rxFifo then spiIdReadBytesCommon spi else spi) := by
    split
    · exact h.drainFrom _
    · exact h
  split
  · exact hfifo.rxFinishIsr _
  · exact hfifo

theorem Receiving.isr_ends (h : Receiving buf took spi) (hnone : Interrupt.arrivals i = [])
    (hend : i.rxFinish = true ∨ i.rxFifo = true ∨ spi.rxFifo = []) :
    Done buf (took ++ spi.rxFifo) (spiIsrCommon spi i) := by
  rw [spiIsrCommon_of_no_arrivals hnone]
  apply Done.lastStages
  cases hfifo : i.rxFifo with
  | true =>
    have hdone : Done buf (took ++ spi.rxFifo) (spiIdReadBytesCommon spi) := by
      refine h.readBytesCommon.done ?_
      rw [spiIdReadBytesCommon]
      rfl
    change Done _ _ (if i.rxFinish then
      SpiDriver.rxFinishIsr (spiIdReadBytesCommon spi) spi.rxOffset
      else spiIdReadBytesCommon spi)
    split
    · exact hdone.rxFinishIsr _
    · exact hdone
  | false =>
    change Done _ _ (if i.rxFinish then SpiDriver.rxFinishIsr spi spi.rxOffset else spi)
    split
    · rw [h.offset]
      exact h.rxFinishIsr
    · rename_i hfinish
      have hnil : spi.rxFifo = [] := by
        rcases hend with hf | hf | hf
        · exact absurd hf hfinish
        · rw [hfifo] at hf
          cases hf
        · exact hf
      rw [hnil, append_nil]
      exact h.done hnil

def Tracks (buf : Buffer) (got : List UInt8) (s : Spi) : Prop :=
  ∃ took, Receiving buf took s ∧ took ++ s.rxFifo = got

section

variable (h : Tracks buf got spi)
include h

theorem Tracks.arrive {bytes : List UInt8} (hroom : got.length + bytes.length ≤ buf.size) :
    Tracks buf (got ++ bytes) (SpiDriver.arrive spi bytes) := by
  obtain ⟨took, htook, rfl⟩ := h
  rw [length_append] at hroom
  exact ⟨took, htook.arrive hroom, (append_assoc _ _ _).symm⟩

theorem Tracks.readBytesCommon : Tracks buf got (spiIdReadBytesCommon spi) := by
  obtain ⟨took, htook, rfl⟩ := h
  exact ⟨took ++ spi.rxFifo, htook.readBytesCommon, append_nil _⟩

theorem Tracks.setGates (tx rx : Gate) : Tracks buf got { spi with tx, rx } := by
  obtain ⟨took, htook, hgot⟩ := h
  exact ⟨took, { htook with }, hgot⟩

theorem Tracks.readStages (hroom : got.length + i.early.length + i.between.length ≤ buf.size) :
    Tracks buf (got ++ i.early ++ i.between) (SpiReads.readStages i spi) := by
  have hearly : Tracks buf (got ++ i.early) (SpiDriver.arrive spi i.early) := h.arrive (by omega)
  apply Tracks.arrive
  · split
    · exact hearly.readBytesCommon
    · exact hearly
  · rw [length_append]
    omega

end

theorem spiIsrCommon_of_not_finish (h : i.rxFinish = false) (s : Spi) : ∃ tx rx, spiIsrCommon s i =
      SpiDriver.arrive { SpiReads.readStages i s with tx, rx } i.late := by
  obtain ⟨g, hg⟩ := lastStages_eq i (SpiReads.readStages i s)
  rw [spiIsrCommon_eq, h]
  dsimp only
  rw [if_neg Bool.false_ne_true, hg]
  exact ⟨g, _, rfl⟩

theorem Tracks.isr (h : Tracks buf got spi)
    (hroom : got.length + (Interrupt.arrivals i).length ≤ buf.size) (hfinish : i.rxFinish = false) :
    Tracks buf (got ++ Interrupt.arrivals i) (spiIsrCommon spi i) := by
  rw [Interrupt.arrivals, length_append, length_append] at hroom
  have hread := h.readStages (i := i) (by omega)
  obtain ⟨tx, rx, heq⟩ := spiIsrCommon_of_not_finish hfinish spi
  rw [heq, Interrupt.arrivals, ← append_assoc, ← append_assoc]
  apply Tracks.arrive
  · exact hread.setGates tx rx
  · rw [length_append, length_append]
    omega

theorem finishAfter_spiIsrCommon (h : i.rxFinish = false) (s : Spi) :
    (spiIsrCommon s i).finishAfter = s.finishAfter := by
  obtain ⟨tx, rx, heq⟩ := spiIsrCommon_of_not_finish h s
  rw [heq]
  exact finishAfter_readStages i s

theorem rx_rxFinishIsr (s : Spi) (rdOffset : Nat) : (rxFinishIsr s rdOffset).rx = s.rx.fire := by
  unfold rxFinishIsr
  split <;> rfl

theorem rx_spiIsrCommon (s : Spi) (i : Interrupt) :
    (spiIsrCommon s i).rx = if i.rxFinish || i.slaveRelease then s.rx.fire else s.rx := by
  rw [spiIsrCommon_eq]
  dsimp only
  obtain ⟨g, hg⟩ := lastStages_eq i
    (if i.rxFinish then rxFinishIsr (readStages i s) s.rxOffset else readStages i s)
  rw [hg]
  change (if i.slaveRelease then Gate.fire _ else _) = _
  cases i.rxFinish with
  | false =>
    rw [if_neg Bool.false_ne_true, rx_readStages]
    rfl
  | true =>
    rw [if_pos rfl, rx_rxFinishIsr, rx_readStages, Gate.fire_fire, ite_self]
    rfl

inductive InCall (buf : Buffer) (s : System) : Prop
  | receiving : s.spi.rx.armed = true → Tracks buf s.received s.spi →
      s.spi.finishAfter ≤ buf.size → InCall buf s
  | signalled : s.spi.rx.armed = false → Done buf s.received s.spi → InCall buf s

def Reader.Ready (s : System) : Reader → Prop
  | .idle => s.spi.rx.Quiet
  | .started buf => s.spi.rx.Open ∧ InCall buf s
  | .pended buf => (s.spi.rx.Blocked ∨ s.spi.rx.Quiet) ∧ InCall buf s

structure Stored (s : System) : Prop where
  reader : Reader.Ready s s.reader
  returns : ∀ r ∈ s.returns, Return.InOrder r

theorem Tracks.length_le (h : Tracks buf got spi) : got.length ≤ buf.size := by
  obtain ⟨took, htook, rfl⟩ := h
  rw [length_append]
  exact htook.room

theorem finishAfter_startRead (s : Spi) (buf : Buffer) (g : Gate) :
    (startRead s buf g).finishAfter ≤ buf.size := by
  have hmod := Nat.mod_le buf.size 0x1000
  have hhalf := Nat.mod_le (buf.size / 2) 0x1000
  change (if s.bitWidth16 then 2 * ((if s.bitWidth16 then _ else _) % _) else
    (if s.bitWidth16 then _ else _) % _) ≤ _
  cases s.bitWidth16 with
  | false => exact hmod
  | true =>
    change 2 * (buf.size / 2 % 0x1000) ≤ buf.size
    omega

theorem inCall_call (s : System) (buf : Buffer) : InCall buf { s with
      spi := { bkSpiReadBytes s.spi buf with stores := [] }
      reader := .started buf
      received := [] } :=
  .receiving rfl ⟨[], ⟨rfl, rfl, rfl, rfl, Nat.zero_le _⟩, rfl⟩
    (finishAfter_startRead s.spi buf s.spi.rx.arm)

def afterReceive (s : System) (byte : UInt8) : System :=
  { s with spi := arrive s.spi [byte], received := s.received ++ [byte] }

theorem InCall.receive (h : InCall buf s) {byte : UInt8} (harmed : s.spi.rx.armed = true)
    (hlength : s.received.length < s.spi.finishAfter) : InCall buf (afterReceive s byte) := by
  cases h with
  | receiving _ htracks hfinish =>
    refine .receiving harmed (htracks.arrive ?_) hfinish
    rw [length_singleton]
    omega
  | signalled hnot =>
    rw [harmed] at hnot
    cases hnot

theorem orderly_end (hpossible : possible s i = true) (hok : Orderly depth s (.isr i))
    (hend : (i.rxFinish || i.slaveRelease) = true) :
    Interrupt.arrivals i = [] ∧ (i.rxFinish = true ∨ i.rxFifo = true ∨ s.spi.rxFifo = []) := by
  obtain ⟨harrivals, hrelease⟩ := hok
  cases hfinish : i.rxFinish with
  | true =>
    have hreached : s.spi.finishAfter ≤ s.received.length := by
      simp only [possible, hfinish, Bool.and_eq_true, Bool.not_true, Bool.false_or,
        decide_eq_true_eq] at hpossible
      exact hpossible.1.1.1
    refine ⟨?_, .inl rfl⟩
    rcases harrivals with hnone | ⟨-, hle⟩
    · exact hnone
    · exact eq_nil_of_length_eq_zero (by omega)
  | false =>
    rw [hfinish, Bool.false_or] at hend
    rcases hrelease with hnot | ⟨hnone, hfifo | hfifo | hfifo⟩
    · rw [hend] at hnot
      cases hnot
    · exact ⟨hnone, .inr (.inl hfifo)⟩
    · rw [hfinish] at hfifo
      cases hfifo
    · exact ⟨hnone, .inr (.inr hfifo)⟩

def afterIsr (s : System) (i : Interrupt) : System :=
  { s with spi := spiIsrCommon s.spi i, received := s.received ++ Interrupt.arrivals i }

theorem InCall.isr (h : InCall buf s) (hpossible : possible s i = true)
    (hok : Orderly depth s (.isr i)) : InCall buf (afterIsr s i) := by
  have hrx : (afterIsr s i).spi.rx = _ := rx_spiIsrCommon s.spi i
  cases h with
  | signalled harmed hdone =>
    have hnone : Interrupt.arrivals i = [] := by
      rcases hok.1 with hnone | ⟨harmed', -⟩
      · exact hnone
      · rw [harmed] at harmed'
        cases harmed'
    refine .signalled ?_ ?_
    · rw [hrx, Gate.fire_of_not_armed harmed, ite_self, harmed]
    · change Done buf (s.received ++ Interrupt.arrivals i) (spiIsrCommon s.spi i)
      rw [hnone, append_nil]
      exact hdone.isr hnone
  | receiving harmed htracks hfinish =>
    cases hend : i.rxFinish || i.slaveRelease with
    | true =>
      obtain ⟨hnone, hread⟩ := orderly_end hpossible hok hend
      obtain ⟨took, htook, hgot⟩ := htracks
      refine .signalled ?_ ?_
      · rw [hrx, hend, if_pos rfl, Gate.armed_fire]
      · change Done buf (s.received ++ Interrupt.arrivals i) (spiIsrCommon s.spi i)
        rw [hnone, append_nil, ← hgot]
        exact htook.isr_ends hnone hread
    | false =>
      have hrxFinish : i.rxFinish = false := (Bool.or_eq_false_iff.mp hend).1
      have hroom : s.received.length + (Interrupt.arrivals i).length ≤ buf.size := by
        rcases hok.1 with hnone | ⟨-, hle⟩
        · rw [hnone]
          exact htracks.length_le
        · omega
      refine .receiving ?_ (htracks.isr hroom hrxFinish) ?_
      · rw [hrx, hend, if_neg Bool.false_ne_true, harmed]
      · change (spiIsrCommon s.spi i).finishAfter ≤ _
        rw [finishAfter_spiIsrCommon hrxFinish]
        exact hfinish

theorem Stored.isr (h : Stored s) (hpossible : possible s i = true) (hok : Orderly depth s (.isr i))
    : Stored (afterIsr s i) := by
  have hready := h.reader
  have hrx : (afterIsr s i).spi.rx = if i.rxFinish || i.slaveRelease then s.spi.rx.fire
      else s.spi.rx := rx_spiIsrCommon s.spi i
  refine ⟨?_, h.returns⟩
  change Reader.Ready (afterIsr s i) s.reader
  cases hreader : s.reader with
  | idle =>
    rw [hreader] at hready
    change (afterIsr s i).spi.rx.Quiet
    rw [hrx]
    split
    · exact Gate.Quiet.fire hready
    · exact hready
  | started =>
    rw [hreader] at hready
    refine ⟨?_, hready.2.isr hpossible hok⟩
    rw [hrx]
    split
    · exact hready.1.fire
    · exact hready.1
  | pended =>
    rw [hreader] at hready
    refine ⟨?_, hready.2.isr hpossible hok⟩
    rw [hrx]
    split
    · rcases hready.1 with hblocked | hquiet
      · exact .inr hblocked.fire
      · exact .inr hquiet.fire
    · exact hready.1

theorem Stored.receive (h : Stored s) {byte : UInt8} (hok : Orderly depth s (.receive byte)) :
    Stored { s with
      spi := if s.spi.rxFifo.length < depth then arrive s.spi [byte] else s.spi
      received := s.received ++ [byte] } := by
  obtain ⟨hlength, hroom, harmed⟩ := hok
  rw [if_pos hroom]
  have hready := h.reader
  refine ⟨?_, h.returns⟩
  change Reader.Ready (afterReceive s byte) s.reader
  cases hreader : s.reader with
  | idle =>
    rw [hreader] at hready
    exact hready
  | started | pended =>
    rw [hreader] at hready
    exact ⟨hready.1, hready.2.receive harmed hlength⟩

theorem Done.inOrder (h : Done buf got spi) : Return.InOrder ⟨buf, got, spi.stores⟩ := by
  intro mem i hi _
  change written mem spi.stores i = got.getD i 0
  have hwritten := written_inPlace mem buf got 0 hi
  rwa [Nat.zero_add, ← h.stores] at hwritten

theorem Stored.readStep (h : Stored s) (hstep : SpiReads.readStep s s.reader = some s') :
    Stored s' := by
  have hready := h.reader
  cases hreader : s.reader with
  | idle =>
    rw [hreader] at hstep
    cases hstep
  | started =>
    rw [hreader] at hstep hready
    cases hstep
    obtain ⟨hopen, hcall⟩ := hready
    refine ⟨⟨?_, ?_⟩, h.returns⟩
    · rcases hopen.pend with ⟨-, hquiet⟩ | hblocked
      · exact .inr hquiet
      · exact .inl hblocked
    · have hpend := s.spi.rx.armed_pend
      cases hcall with
      | receiving harmed htracks hfinish =>
        exact .receiving (hpend.trans harmed) (htracks.setGates s.spi.tx s.spi.rx.pend) hfinish
      | signalled harmed hdone => exact .signalled (hpend.trans harmed) ⟨hdone.fifo, hdone.stores⟩
  | pended =>
    rw [hreader, SpiReads.readStep] at hstep
    rw [hreader] at hready
    split at hstep
    · cases hstep
    · rename_i hwaiting
      cases hstep
      have hquiet : s.spi.rx.Quiet := by
        rcases hready.1 with hblocked | hquiet
        · exact absurd hblocked.2.2 hwaiting
        · exact hquiet
      refine ⟨hquiet, forall_mem_append.mpr ⟨h.returns, forall_mem_singleton.mpr ?_⟩⟩
      cases hready.2 with
      | receiving harmed =>
        rw [hquiet.1] at harmed
        cases harmed
      | signalled _ hdone => exact hdone.inOrder

theorem Stored.step {e : Event} (h : Stored s) (hok : Orderly depth s e)
    (hstep : SpiReads.step depth s e = some s') : Stored s' := by
  cases e with
  | call buf =>
    obtain ⟨hidle, rfl⟩ := Option.ite_some_none_eq_some.mp hstep
    have hquiet := h.reader
    rw [hidle] at hquiet
    exact ⟨⟨Gate.Quiet.arm hquiet, inCall_call s buf⟩, h.returns⟩
  | receive =>
    obtain ⟨-, rfl⟩ := Option.ite_some_none_eq_some.mp hstep
    exact h.receive hok
  | isr =>
    obtain ⟨hpossible, rfl⟩ := Option.ite_some_none_eq_some.mp hstep
    exact h.isr hpossible hok
  | read => exact h.readStep hstep

/-- Every call that returns has each received byte at its own position of the buffer. -/
theorem reads_inOrder (depth : Nat) (isMaster bitWidth16 : Bool) (s : System)
    (h : Reached (SpiReads.step depth) (Orderly depth) (initial isMaster bitWidth16) s) :
    ∀ r ∈ s.returns, Return.InOrder r := by
  have hstored := h.invariant Stored ⟨Gate.quiet_idle, fun _ hr => absurd hr not_mem_nil⟩
    fun s e s' hs hok hstep => hs.step hok hstep
  exact hstored.returns

theorem reads_inOrder_three : ∃ s, Reached (SpiReads.step 64) (Orderly 64) (initial true false) s ∧
      s.returns.map Return.received = [[5, 6, 7]] ∧ ∀ r ∈ s.returns, Return.InOrder r :=
  exists_reached_and (reads_inOrder 64 true false)
    [.call ⟨0, 3⟩, .receive 5, .read, .isr ⟨true, false, false, false, [6], [], []⟩, .receive 7,
      .isr ⟨false, true, false, false, [], [], []⟩, .read] (by decide)

theorem reads_skipped_and_overwritten :
    (∃ s, Reached (SpiReads.step 64) anyStep (initial false false) s ∧
      ∃ r ∈ s.returns, r.received = [5] ∧ r.buf.size = 4 ∧ written (fun _ => 0) r.stores 0 = 0) ∧
    ∃ s, Reached (SpiReads.step 64) anyStep (initial false false) s ∧
      ∃ r ∈ s.returns, r.received = [5, 6] ∧ r.buf.size = 1 ∧
        written (fun _ => 0) r.stores 0 = 6 := by
  constructor
  · exact exists_reached _ _ _ _
      [.call ⟨0, 4⟩, .receive 5, .read, .isr ⟨false, false, false, true, [], [], []⟩, .read]
      (by decide)
  · exact exists_reached _ _ _ _
      [.call ⟨0, 1⟩, .receive 5, .read, .isr ⟨true, true, false, false, [], [6], []⟩, .read]
      (by decide)

end BekenSoc.SpiReads
