import BekenSoc.I2cBounds
import BekenSoc.RtosEvents

namespace BekenSoc.I2cReads

open CRuntime List
open GuardedRuns
open I2cBounds (inRead masterReadLoop_frame setWriteDevAddr_eq writeMemAddrLow8bit_of_read)
open I2cDriver
open RtosEvents (bekenWaitForever losTimeout)
open SignalGates

structure Call where
  memAddr16 : Option Bool
  size : Nat
  timeoutMs : Nat
  deriving DecidableEq

inductive Result
  | ok
  | smBusBusy
  deriving DecidableEq

structure Return where
  call : Call
  result : Result
  stored : List UInt8
  deriving DecidableEq

inductive Reader
  | idle
  | started (c : Call)
  /-- in `LOS_SemPend` -/
  | pended (c : Call)
  deriving DecidableEq

structure System where
  i2c : I2c
  reader : Reader
  returns : List Return
  deriving DecidableEq

def initial : System := ⟨i2cInit, .idle, []⟩

inductive Event
  | call (c : Call)
  /-- a call whose wait for an idle bus runs out -/
  | busy (c : Call)
  | irq (i : Irq)
  | read
  | expire
  deriving DecidableEq

def startRead (s : I2c) (c : Call) : I2c :=
  match c.memAddr16 with
  | none => bkI2cMasterRead s c.size
  | some memAddr16 => bkI2cMemoryRead s memAddr16 c.size

def returnOk (s : System) (c : Call) (rxSema : Sema) : System :=
  { i2c := { s.i2c with rxSema }
    reader := .idle
    returns := s.returns ++ [⟨c, .ok, s.i2c.stored⟩] }

def readStep (s : System) : Reader → Option System
  | .idle => none
  | .started c =>
    if losTimeout c.timeoutMs = 0 then some (returnOk s c s.i2c.rxSema.poll)
    else
      some { s with
        i2c := { s.i2c with rxSema := s.i2c.rxSema.pend }
        reader := .pended c }
  | .pended c => if s.i2c.rxSema.waiting then none else some (returnOk s c s.i2c.rxSema)

def expireWait (s : System) : Reader → Option System
  | .pended c =>
    if s.i2c.rxSema.waiting = true ∧ c.timeoutMs ≠ bekenWaitForever then
      some (returnOk s c s.i2c.rxSema.expire)
    else none
  | _ => none

def step (s : System) : Event → Option System
  | .call c =>
    if s.reader = .idle ∧ c.size < 2 ^ 32 then
      some { s with i2c := startRead s.i2c c, reader := .started c }
    else none
  | .busy c =>
    if s.reader = .idle then some { s with returns := s.returns ++ [⟨c, .smBusBusy, []⟩] }
    else none
  | .irq i => if i.Raised then some { s with i2c := i2c1IsrCommon s.i2c i } else none
  | .read => readStep s s.reader
  | .expire => expireWait s s.reader

def missedPoll (s : System) : Bool :=
  match s.reader with
  | .started c => losTimeout c.timeoutMs == 0 && !s.i2c.rxSema.token
  | _ => false

/-- No wait runs out, and the device acknowledges its address. -/
def Undisturbed (s : System) : Event → Prop
  | .irq i => i.smInt = false ∨ i.startTriggered = false ∨ i.rxAck = true
  | .read => missedPoll s = false
  | .expire => False
  | _ => True

instance (s : System) (e : Event) : Decidable (Undisturbed s e) :=
  match e with
  | .irq _ => inferInstanceAs (Decidable (_ ∨ _))
  | .read => inferInstanceAs (Decidable (_ = _))
  | .expire => isFalse id
  | .call _ | .busy _ => isTrue trivial

def Return.Complete (r : Return) : Prop := r.result = .ok → r.call.size ≤ r.stored.length

structure Reading (size : Nat) (s : I2c) : Prop where
  mode : s.workMode = .masterRead
  size_eq : s.dataSize = size
  bound : size < 2 ^ 32
  progress : s.masterStatus = .idle ∨ inRead s.masterStatus = true ∧
    (size = 0 ∨ s.dataOffset = s.stored.length ∧ s.dataOffset < size)

def Done (size : Nat) (s : I2c) : Prop := s.masterStatus = .idle ∧ size ≤ s.stored.length

variable {s s' : System} {t t' : I2c} {i : Irq} {c : Call} {size : Nat}

theorem reading_start (t : I2c) (hsize : c.size < 2 ^ 32) : Reading c.size (startRead t c) := by
  have hroom : c.size = 0 ∨ 0 = 0 ∧ 0 < c.size := by
    rcases Nat.eq_zero_or_pos c.size with hzero | hpos
    · exact .inl hzero
    · exact .inr ⟨rfl, hpos⟩
  unfold startRead
  cases c.memAddr16 with
  | none => exact ⟨rfl, rfl, hsize, .inr ⟨rfl, hroom⟩⟩
  | some memAddr16 =>
    obtain ⟨status, heq, hstatus⟩ :=
      setWriteDevAddr_eq (masterStart (setTransfer t .masterRead (some memAddr16) c.size))
    change Reading c.size (bkI2cMemoryRead t memAddr16 c.size)
    rw [bkI2cMemoryRead, heq]
    refine ⟨rfl, rfl, hsize, .inr ⟨?_, hroom⟩⟩
    rcases hstatus with ⟨-, hmem⟩ | rfl | rfl
    · cases hmem
    · rfl
    · rfl

theorem Reading.status (h : Reading size t) {status : MasterStatus}
    (hstatus : status = .idle ∨ inRead status = true ∧
      (size = 0 ∨ t.dataOffset = t.stored.length ∧ t.dataOffset < size)) :
    Reading size { t with masterStatus := status } := { h with progress := hstatus }

theorem masterReadLoop_stored (bytes : List UInt8) (hsize : t.dataSize < 2 ^ 32)
    (hoffset : t.dataOffset = t.stored.length) (hlt : t.dataOffset < t.dataSize) :
    (masterReadLoop bytes t).dataOffset = (masterReadLoop bytes t).stored.length ∧
      (masterReadLoop bytes t).dataOffset ≤ t.dataSize := by
  induction bytes generalizing t with
  | nil => exact ⟨hoffset, Nat.le_of_lt hlt⟩
  | cons byte bytes ih =>
    have hnext : (storeByte t byte).dataOffset = t.dataOffset + 1 := by
      change addU32 t.dataOffset 1 = _
      unfold addU32
      omega
    have hstored : (storeByte t byte).dataOffset = (storeByte t byte).stored.length := by
      rw [hnext, hoffset]
      change t.stored.length + 1 = (t.stored ++ [byte]).length
      rw [length_append, length_singleton]
    rw [masterReadLoop]
    split
    · rename_i hend
      exact ⟨hstored, Nat.le_of_eq hend⟩
    · rename_i hmore
      refine ih hsize hstored ?_
      rw [hnext] at hmore ⊢
      exact Nat.lt_of_le_of_ne hlt hmore

theorem masterReadLoop_rxSema (bytes : List UInt8) (t : I2c) :
    (masterReadLoop bytes t).rxSema = t.rxSema := by
  induction bytes generalizing t with
  | nil => rfl
  | cons byte bytes ih =>
    rw [masterReadLoop]
    split
    · rfl
    · exact ih (storeByte t byte)

theorem masterReadIsr_of_acked (h : i.startTriggered = false ∨ i.rxAck = true) :
    masterReadIsr t i = i2cMasterIsrCommon t i := by
  rw [masterReadIsr, if_neg]
  rintro ⟨hstart, hack⟩
  rcases h with h | h
  · rw [hstart] at h
    cases h
  · rw [hack] at h
    cases h

theorem masterIsr_idle (h : t.masterStatus = .idle) (i : Irq) : i2cMasterIsrCommon t i = t := by
  cases t
  cases h
  rfl

theorem Reading.readData (h : Reading size t)
    (hroom : size = 0 ∨ t.dataOffset = t.stored.length ∧ t.dataOffset < size) (i : Irq) :
    Reading size (i2c1MasterReadData t i) ∧ ((i2c1MasterReadData t i).rxSema = t.rxSema ∨
        (i2c1MasterReadData t i).rxSema = t.rxSema.post ∧ Done size (i2c1MasterReadData t i)) := by
  obtain ⟨hmode, hsize⟩ := masterReadLoop_frame i.bytes t
  have hsame := masterReadLoop_rxSema i.bytes t
  have hcount : size = 0 ∨
      (masterReadLoop i.bytes t).dataOffset = (masterReadLoop i.bytes t).stored.length ∧
        (masterReadLoop i.bytes t).dataOffset ≤ size := by
    rcases hroom with hzero | ⟨hoffset, hlt⟩
    · exact .inl hzero
    · rw [← h.size_eq] at hlt ⊢
      exact .inr (masterReadLoop_stored i.bytes (h.size_eq.symm ▸ h.bound) hoffset hlt)
  have hbound := h.bound
  rw [h.size_eq] at hsize
  unfold i2c1MasterReadData
  split
  · exact ⟨h.status (.inr ⟨rfl, hroom⟩), .inl rfl⟩
  · dsimp only
    rw [hsize]
    split
    · rename_i hend
      refine ⟨⟨hmode.trans h.mode, hsize, h.bound, .inl rfl⟩, .inr ⟨?_, rfl, ?_⟩⟩
      · rw [hsame]
      · change size ≤ (masterReadLoop i.bytes t).stored.length
        unfold subU32 at hend
        omega
    · rename_i hmore
      refine ⟨⟨hmode.trans h.mode, rfl, h.bound, .inr ⟨rfl, ?_⟩⟩, .inl hsame⟩
      rcases hcount with hzero | ⟨hoffset, hle⟩
      · exact .inl hzero
      · refine .inr ⟨hoffset, ?_⟩
        change (masterReadLoop i.bytes t).dataOffset < size
        apply Nat.lt_of_le_of_ne hle
        intro heq
        apply hmore
        rw [heq]
        unfold subU32
        omega

theorem Reading.isr (h : Reading size t)
    (hack : i.smInt = false ∨ i.startTriggered = false ∨ i.rxAck = true) :
    Reading size (i2c1IsrCommon t i) ∧ ((i2c1IsrCommon t i).rxSema = t.rxSema ∨
        (i2c1IsrCommon t i).rxSema = t.rxSema.post ∧ Done size (i2c1IsrCommon t i)) := by
  unfold i2c1IsrCommon
  split
  · split
    · exact ⟨h.status (.inl rfl), .inl rfl⟩
    · exact ⟨h, .inl rfl⟩
  · rename_i hsm
    rw [h.mode]
    change Reading size (masterReadIsr t i) ∧ _
    rw [masterReadIsr_of_acked (hack.resolve_left hsm)]
    rcases h.progress with hidle | ⟨hread, hroom⟩
    · rw [masterIsr_idle hidle i]
      exact ⟨h, .inl rfl⟩
    · unfold i2cMasterIsrCommon
      cases hstatus : t.masterStatus with
      | txMemAddrHigh8bit => exact ⟨h.status (.inr ⟨rfl, hroom⟩), .inl rfl⟩
      | txMemAddrLow8bit =>
        change Reading size (writeMemAddrLow8bit t) ∧ _
        rw [writeMemAddrLow8bit_of_read h.mode]
        exact ⟨h.status (.inr ⟨rfl, hroom⟩), .inl rfl⟩
      | rxDevAddr => exact ⟨h.status (.inr ⟨rfl, hroom⟩), .inl rfl⟩
      | rxData => exact h.readData hroom i
      | idle | start | txDevAddr | txData | stop | getAck =>
        rw [hstatus] at hread
        cases hread

def Still (t : I2c) : Prop :=
  t.masterStatus = .idle ∧ (t.workMode = .masterWrite ∨ t.workMode = .masterRead)

theorem Still.isr (h : Still t)
    (hack : i.smInt = false ∨ i.startTriggered = false ∨ i.rxAck = true) :
    Still (i2c1IsrCommon t i) ∧ (i2c1IsrCommon t i).rxSema = t.rxSema ∧
      (i2c1IsrCommon t i).stored = t.stored := by
  obtain ⟨hidle, hmode⟩ := h
  unfold i2c1IsrCommon
  split
  · split
    · exact ⟨⟨rfl, hmode⟩, rfl, rfl⟩
    · exact ⟨⟨hidle, hmode⟩, rfl, rfl⟩
  · rename_i hsm
    rcases hmode with hwrite | hread
    · rw [hwrite]
      change Still (masterWriteIsr t i) ∧ (masterWriteIsr t i).rxSema = _ ∧
        (masterWriteIsr t i).stored = _
      unfold masterWriteIsr
      split
      · exact ⟨⟨rfl, .inl hwrite⟩, rfl, rfl⟩
      · rw [masterIsr_idle hidle i]
        exact ⟨⟨hidle, .inl hwrite⟩, rfl, rfl⟩
    · rw [hread]
      change Still (masterReadIsr t i) ∧ (masterReadIsr t i).rxSema = _ ∧
        (masterReadIsr t i).stored = _
      rw [masterReadIsr_of_acked (hack.resolve_left hsm), masterIsr_idle hidle i]
      exact ⟨⟨hidle, .inr hread⟩, rfl, rfl⟩

theorem Reading.still (h : Reading size t) (hdone : Done size t) : Still t := ⟨hdone.1, .inr h.mode⟩

def Reader.Ready (t : I2c) : Reader → Prop
  | .idle => Still t ∧ t.rxSema = Sema.idle
  | .started c => Reading c.size t ∧ t.rxSema.waiting = false ∧
      (t.rxSema.token = true → Done c.size t)
  | .pended c => Reading c.size t ∧ t.rxSema.token = false ∧
      (t.rxSema.waiting = false → Done c.size t)

structure Received (s : System) : Prop where
  reader : Reader.Ready s.i2c s.reader
  returns : ∀ r ∈ s.returns, Return.Complete r

theorem Done.isr (h : Reading size t) (hdone : Done size t)
    (hack : i.smInt = false ∨ i.startTriggered = false ∨ i.rxAck = true) :
    Done size (i2c1IsrCommon t i) ∧ (i2c1IsrCommon t i).rxSema = t.rxSema := by
  obtain ⟨hstill, hsema, hstored⟩ := (h.still hdone).isr hack
  exact ⟨⟨hstill.1, hstored.symm ▸ hdone.2⟩, hsema⟩

theorem Reader.Ready.isr {reader : Reader} (h : Reader.Ready t reader)
    (hack : i.smInt = false ∨ i.startTriggered = false ∨ i.rxAck = true) :
    Reader.Ready (i2c1IsrCommon t i) reader := by
  cases reader with
  | idle =>
    obtain ⟨hstill, hsema, -⟩ := h.1.isr hack
    exact ⟨hstill, hsema.trans h.2⟩
  | started =>
    obtain ⟨hreading, hwaiting, hdone⟩ := h
    obtain ⟨hreading', hsema | ⟨hsema, hdone'⟩⟩ := hreading.isr hack
    · refine ⟨hreading', by rw [hsema]; exact hwaiting, fun htoken => ?_⟩
      rw [hsema] at htoken
      exact (Done.isr hreading (hdone htoken) hack).1
    · refine ⟨hreading', ?_, fun _ => hdone'⟩
      rw [hsema, Sema.post, if_neg (by rw [hwaiting]; exact Bool.false_ne_true)]
      exact hwaiting
  | pended =>
    obtain ⟨hreading, htoken, hdone⟩ := h
    cases hwaiting : t.rxSema.waiting with
    | false =>
      obtain ⟨hdone', hsema⟩ := Done.isr hreading (hdone hwaiting) hack
      exact ⟨(hreading.isr hack).1, by rw [hsema]; exact htoken, fun _ => hdone'⟩
    | true =>
      obtain ⟨hreading', hsema | ⟨hsema, hdone'⟩⟩ := hreading.isr hack
      · refine ⟨hreading', by rw [hsema]; exact htoken, fun hnot => ?_⟩
        rw [hsema, hwaiting] at hnot
        cases hnot
      · refine ⟨hreading', ?_, fun _ => hdone'⟩
        rw [hsema, Sema.post, if_pos hwaiting]
        exact htoken

theorem startRead_rxSema (t : I2c) (c : Call) : (startRead t c).rxSema = t.rxSema := by
  unfold startRead
  cases c.memAddr16 with
  | none => rfl
  | some memAddr16 =>
    obtain ⟨status, heq, -⟩ :=
      setWriteDevAddr_eq (masterStart (setTransfer t .masterRead (some memAddr16) c.size))
    change (bkI2cMemoryRead t memAddr16 c.size).rxSema = _
    rw [bkI2cMemoryRead, heq]
    rfl

theorem Received.returnOk (h : Received s) (hreading : Reading c.size s.i2c)
    (hdone : Done c.size s.i2c) {rxSema : Sema} (hsema : rxSema = Sema.idle) :
    Received (I2cReads.returnOk s c rxSema) := by
  refine ⟨⟨hreading.still hdone, hsema⟩, ?_⟩
  exact forall_mem_append.mpr ⟨h.returns, forall_mem_singleton.mpr fun _ => hdone.2⟩

theorem sema_eq_idle {m : Sema} (htoken : m.token = false) (hwaiting : m.waiting = false) :
    m = Sema.idle := by
  cases m
  cases htoken
  cases hwaiting
  rfl

theorem Received.readStep (h : Received s) (hok : missedPoll s = false)
    (hstep : I2cReads.readStep s s.reader = some s') : Received s' := by
  have hready := h.reader
  cases hreader : s.reader with
  | idle =>
    rw [hreader] at hstep
    cases hstep
  | started =>
    rw [hreader, I2cReads.readStep] at hstep
    rw [hreader] at hready
    obtain ⟨hreading, hwaiting, hdone⟩ := hready
    split at hstep
    · rename_i htimeout
      cases hstep
      have htoken : s.i2c.rxSema.token = true := by simpa [missedPoll, hreader, htimeout] using hok
      exact h.returnOk hreading (hdone htoken) (sema_eq_idle rfl hwaiting)
    · cases hstep
      refine ⟨⟨{ hreading with }, ?_, ?_⟩, h.returns⟩
      · change s.i2c.rxSema.pend.token = false
        unfold Sema.pend
        split
        · rfl
        · exact eq_false_of_ne_true ‹_›
      · intro hnot
        change s.i2c.rxSema.pend.waiting = false at hnot
        unfold Sema.pend at hnot
        split at hnot
        · exact hdone ‹_›
        · cases hnot
  | pended =>
    rw [hreader, I2cReads.readStep] at hstep
    rw [hreader] at hready
    obtain ⟨hreading, htoken, hdone⟩ := hready
    split at hstep
    · cases hstep
    · rename_i hwaiting
      cases hstep
      have hwoken := eq_false_of_ne_true hwaiting
      exact h.returnOk hreading (hdone hwoken) (sema_eq_idle htoken hwoken)

theorem Received.step {e : Event} (h : Received s) (hok : Undisturbed s e)
    (hstep : I2cReads.step s e = some s') : Received s' := by
  cases e with
  | call c =>
    obtain ⟨hcall, rfl⟩ := Option.ite_some_none_eq_some.mp hstep
    have hready := h.reader
    rw [hcall.1] at hready
    have hsema : (startRead s.i2c c).rxSema = Sema.idle := (startRead_rxSema s.i2c c).trans hready.2
    refine ⟨⟨reading_start s.i2c hcall.2, by rw [hsema]; rfl, fun htoken => ?_⟩, h.returns⟩
    rw [hsema] at htoken
    cases htoken
  | busy =>
    obtain ⟨-, rfl⟩ := Option.ite_some_none_eq_some.mp hstep
    refine ⟨h.reader, forall_mem_append.mpr ⟨h.returns, forall_mem_singleton.mpr fun hresult => ?_⟩⟩
    cases hresult
  | irq =>
    obtain ⟨-, rfl⟩ := Option.ite_some_none_eq_some.mp hstep
    exact ⟨h.reader.isr hok, h.returns⟩
  | read => exact h.readStep hok hstep
  | expire => exact absurd hok id

/-- A call that returns `BK_OK` has stored all its bytes while it ran. -/
theorem reads_complete (s : System) (h : Reached I2cReads.step Undisturbed initial s) :
    ∀ r ∈ s.returns, Return.Complete r := by
  have hreceived := h.invariant Received ⟨⟨⟨rfl, .inl rfl⟩, rfl⟩, fun _ hr => absurd hr not_mem_nil⟩
    fun s e s' hs hok hstep => hs.step hok hstep
  exact hreceived.returns

def addrIrq (rxAck : Bool) : Irq :=
  ⟨true, false, rxAck, true, false, true, true, false, Fin.last 3, [0]⟩

def byteIrq (byte : UInt8) : Irq :=
  ⟨true, false, true, false, false, false, true, false, Fin.last 3, [byte]⟩

theorem reads_complete_two : ∃ s, Reached I2cReads.step Undisturbed initial s ∧
      s.returns = [⟨⟨none, 2, 100⟩, .ok, [5, 6]⟩] ∧ ∀ r ∈ s.returns, Return.Complete r :=
  exists_reached_and reads_complete
    [.call ⟨none, 2, 100⟩, .irq (addrIrq true), .read, .irq (byteIrq 5), .irq (byteIrq 6), .read]
    (by decide)

theorem reads_incomplete : (∃ s, Reached I2cReads.step anyStep initial s ∧
      s.returns = [⟨⟨some true, 1, bekenWaitForever⟩, .ok, []⟩]) ∧
    ∃ s, Reached I2cReads.step anyStep initial s ∧
      s.returns = [⟨⟨none, 1, 100⟩, .ok, []⟩, ⟨⟨none, 1, bekenWaitForever⟩, .ok, []⟩] := by
  constructor
  · exact exists_reached _ _ _ _
      [.call ⟨some true, 1, bekenWaitForever⟩, .read, .irq (addrIrq false), .read] (by decide)
  · exact exists_reached _ _ _ _
      [.call ⟨none, 1, 100⟩, .read, .expire, .irq (addrIrq true), .irq (byteIrq 5),
        .call ⟨none, 1, bekenWaitForever⟩, .read, .read] (by decide)

end BekenSoc.I2cReads
