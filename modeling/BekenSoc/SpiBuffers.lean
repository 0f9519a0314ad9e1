import BekenSoc.GuardedRuns
import BekenSoc.SpiDriver

/-!
The receive buffer of an SPI channel and its size, over any number of tasks that read and write on
the channel.

A synchronous read that has begun can end at any time; the runs that the semaphore allows are
among these.
-/

namespace BekenSoc.SpiBuffers

open GuardedRuns SpiDriver

structure Channel where
  spi : Spi
  /-- the calls of `bk_spi_read_bytes` that have not ended -/
  reads : Nat
  deriving DecidableEq

def initial (isMaster bitWidth16 : Bool) : Channel := ⟨spiInit isMaster bitWidth16, 0⟩

inductive Event
  | read (buf : Buffer)
  | readEnd
  | readAsync (buf : Buffer)
  | write (size : Nat)
  | writeAsync (size : Nat)
  | swTxFinished
  | isr (i : Interrupt)
  deriving DecidableEq

def step (c : Channel) : Event → Option Channel
  | .read buf => some ⟨bkSpiReadBytes c.spi buf, c.reads + 1⟩
  | .readEnd => if c.reads = 0 then none else some ⟨bkSpiClrRx c.spi, c.reads - 1⟩
  | .readAsync buf => some { c with spi := bkSpiReadBytesAsync c.spi buf }
  | .write size => some { c with spi := bkSpiWriteBytes c.spi size }
  | .writeAsync size => some { c with spi := bkSpiWriteBytesAsync c.spi size }
  | .swTxFinished => some { c with spi := SpiDriver.swTxFinished c.spi }
  | .isr i => some { c with spi := spiIsrCommon c.spi i }

/-- A write begins with no receive buffer installed, or with one of its own size. -/
def WritesApart (c : Channel) : Event → Prop
  | .write size | .writeAsync size => c.spi.rxBuf.all fun buf => buf.size == size
  | _ => True

instance (c : Channel) (e : Event) : Decidable (WritesApart c e) :=
  match e with
  | .write _ | .writeAsync _ => inferInstanceAs (Decidable (_ = true))
  | .read _ | .readEnd | .readAsync _ | .swTxFinished | .isr _ => isTrue trivial

structure Sized (s : Spi) : Prop where
  size : ∀ buf, s.rxBuf = some buf → s.rxSize = buf.size
  stores : ∀ st ∈ s.stores, st.offset < st.buf.size

variable {s : Spi}

theorem sized_init (isMaster bitWidth16 : Bool) : Sized (spiInit isMaster bitWidth16) :=
  ⟨fun _ h => absurd h (Option.some_ne_none _).symm, fun _ h => absurd h List.not_mem_nil⟩

theorem Sized.startRead (h : Sized s) (buf : Buffer) (g : SignalGates.Gate) :
    Sized (SpiDriver.startRead s buf g) := by
  refine ⟨fun buf' hbuf => ?_, h.stores⟩
  cases hbuf
  rfl

theorem Sized.bkSpiClrRx (h : Sized s) : Sized (SpiDriver.bkSpiClrRx s) :=
  ⟨fun _ hbuf => absurd hbuf (Option.some_ne_none _).symm, h.stores⟩

theorem Sized.startWrite (h : Sized s) {size : Nat} (g : SignalGates.Gate)
    (hok : s.rxBuf.all (fun buf => buf.size == size) = true) :
    Sized (SpiDriver.startWrite s size g) := by
  refine ⟨fun buf hbuf => ?_, h.stores⟩
  have hrx : s.rxBuf = some buf := hbuf
  rw [hrx] at hok
  exact (eq_of_beq hok).symm

theorem drainInto_lt (rxBuf : Option Buffer) (rxSize : Nat) (fifo : List UInt8) (offset : Nat) :
    ∀ st ∈ (drainInto rxBuf rxSize fifo offset).1, rxBuf = some st.buf ∧ st.offset < rxSize := by
  induction fifo generalizing offset with
  | nil => exact fun _ h => absurd h List.not_mem_nil
  | cons data fifo ih =>
    cases rxBuf with
    | none => exact ih offset
    | some =>
      rw [drainInto]
      split
      · rename_i hlt
        intro st hst
        rcases List.mem_cons.mp hst with rfl | hrest
        · exact ⟨rfl, hlt⟩
        · exact ih (offset + 1) st hrest
      · exact ih offset

theorem Sized.drainFrom (h : Sized s) (offset : Nat) : Sized (SpiDriver.drainFrom s offset) := by
  refine ⟨h.size, fun st hst => ?_⟩
  rcases List.mem_append.mp hst with hold | hnew
  · exact h.stores st hold
  · obtain ⟨hbuf, hlt⟩ := drainInto_lt _ _ _ _ st hnew
    rw [h.size st.buf hbuf] at hlt
    exact hlt

theorem Sized.rxFinishIsr (h : Sized s) (rdOffset : Nat) :
    Sized (SpiDriver.rxFinishIsr s rdOffset) := by
  have hclr : ∀ {t : Spi}, Sized t → Sized { SpiDriver.bkSpiClrRx t with rx := t.rx.fire } :=
    fun ht => ⟨ht.bkSpiClrRx.size, ht.stores⟩
  unfold SpiDriver.rxFinishIsr
  split
  · exact hclr (h.drainFrom rdOffset)
  · exact hclr h

theorem Sized.txFinishIsr (h : Sized s) : Sized (SpiDriver.txFinishIsr s) := by
  unfold SpiDriver.txFinishIsr
  split
  · exact ⟨h.size, h.stores⟩
  · exact h

theorem Sized.slaveReleaseIsr (h : Sized s) : Sized (SpiDriver.slaveReleaseIsr s) := by
  unfold SpiDriver.slaveReleaseIsr
  split <;> exact ⟨h.size, h.stores⟩

theorem Sized.arrive (h : Sized s) (bytes : List UInt8) : Sized (SpiDriver.arrive s bytes) :=
  ⟨h.size, h.stores⟩

theorem Sized.ite {t : Spi} (c : Bool) (ht : Sized t) (hs : Sized s) :
    Sized (if c then t else s) := by
  cases c with
  | false => exact hs
  | true => exact ht

theorem Sized.spiIsrCommon (h : Sized s) (i : Interrupt) : Sized (SpiDriver.spiIsrCommon s i) := by
  have hfifo := Sized.ite i.rxFifo ((h.arrive i.early).drainFrom s.rxOffset) (h.arrive i.early)
  have hfinish := Sized.ite i.rxFinish ((hfifo.arrive i.between).rxFinishIsr s.rxOffset)
    (hfifo.arrive i.between)
  have htx := Sized.ite i.txFinish hfinish.txFinishIsr hfinish
  exact (Sized.ite i.slaveRelease htx.slaveReleaseIsr htx).arrive i.late

theorem Sized.step {c c' : Channel} {e : Event} (h : Sized c.spi) (hok : WritesApart c e)
    (hstep : SpiBuffers.step c e = some c') : Sized c'.spi := by
  cases e with
  | read buf | readAsync buf =>
    cases hstep
    exact h.startRead buf _
  | readEnd =>
    rw [SpiBuffers.step] at hstep
    split at hstep
    · cases hstep
    · cases hstep
      exact h.bkSpiClrRx
  | write | writeAsync =>
    cases hstep
    exact h.startWrite _ hok
  | swTxFinished =>
    cases hstep
    exact ⟨h.size, h.stores⟩
  | isr i =>
    cases hstep
    exact h.spiIsrCommon i

/-- The receive size is the one of the installed buffer, and the interrupt stores inside it. -/
theorem rxSize_of_installed (isMaster bitWidth16 : Bool) (c : Channel)
    (h : Reached SpiBuffers.step WritesApart (initial isMaster bitWidth16) c) :
    (∀ buf, c.spi.rxBuf = some buf → c.spi.rxSize = buf.size) ∧
      ∀ st ∈ c.spi.stores, st.offset < st.buf.size := by
  have hsized := h.invariant (fun c => Sized c.spi) (sized_init isMaster bitWidth16)
    fun c e c' hc hok hstep => hc.step hok hstep
  exact ⟨hsized.size, hsized.stores⟩

theorem rxSize_of_installed_async :
    ∃ c, Reached SpiBuffers.step WritesApart (initial true false) c ∧
      (c.spi.rxBuf = some ⟨0, 4⟩ ∧ c.spi.stores = [⟨⟨0, 4⟩, 0, 7⟩]) ∧
      (∀ buf, c.spi.rxBuf = some buf → c.spi.rxSize = buf.size) ∧
      ∀ st ∈ c.spi.stores, st.offset < st.buf.size :=
  exists_reached_and (rxSize_of_installed true false)
    [.write 2, .swTxFinished, .isr ⟨false, false, true, false, [], [], []⟩, .readAsync ⟨0, 4⟩,
      .isr ⟨true, false, false, false, [7], [], []⟩] (by decide)

theorem write_during_read : ∃ c, Reached SpiBuffers.step anyStep (initial false false) c ∧
      c.spi.rxBuf = some ⟨0, 1⟩ ∧ c.spi.rxSize = 4 ∧ (⟨⟨0, 1⟩, 1, 9⟩ : Store) ∈
        (spiIsrCommon c.spi ⟨true, true, false, false, [7, 9], [], []⟩).stores :=
  exists_reached _ _ _ _ [.readAsync ⟨0, 1⟩, .write 4] (by decide)

end BekenSoc.SpiBuffers
