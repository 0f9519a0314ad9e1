import BekenSoc.GuardedRuns
import BekenSoc.I2cDriver

namespace BekenSoc.I2cBounds

open CRuntime GuardedRuns I2cDriver Bool

variable {size : Nat}

inductive Event
  | masterWrite (size : Nat)
  | masterRead (size : Nat)
  | slaveWrite (size : Nat)
  | slaveRead (size : Nat)
  | memoryWrite (memAddr16 : Bool) (size : Nat)
  | memoryRead (memAddr16 : Bool) (size : Nat)
  | irq (i : Irq)
  deriving DecidableEq

/-- The controller, and the bytes that the interrupts of a slave have moved since the last call. -/
structure Traced where
  i2c : I2c
  moved : Nat

def begun (size : Nat) (s : I2c) : Option Traced := if size < 2 ^ 32 then some ⟨s, 0⟩ else none

/-- The bytes that an interrupt moves for a slave, by the registers that it finds. -/
def moves (i : Irq) : WorkMode → Nat
  | .slaveWrite => if i.smInt && !(i.stopTriggered || i.rxMode) && i.rxAck then 1 else 0
  | .slaveRead => if i.smInt && !i.stopTriggered && !i.addrMatched then i.bytes.length else 0
  | .masterWrite | .masterRead => 0

def step (t : Traced) : Event → Option Traced
  | .masterWrite size => begun size (bkI2cMasterWrite t.i2c size)
  | .masterRead size => begun size (bkI2cMasterRead t.i2c size)
  | .slaveWrite size => begun size (bkI2cSlaveWrite t.i2c size)
  | .slaveRead size => begun size (bkI2cSlaveRead t.i2c size)
  | .memoryWrite memAddr16 size => begun size (bkI2cMemoryWrite t.i2c memAddr16 size)
  | .memoryRead memAddr16 size => begun size (bkI2cMemoryRead t.i2c memAddr16 size)
  | .irq i =>
    if i.Raised then some ⟨i2c1IsrCommon t.i2c i, t.moved + moves i t.i2c.workMode⟩ else none

/-- The interrupt has a byte for a master read of no bytes, or one more for a slave whose bytes have
all been moved. -/
def overruns (t : Traced) (i : Irq) : Bool :=
  match t.i2c.workMode with
  | .masterWrite => false
  | .masterRead =>
    i.smInt && !(i.startTriggered && !i.rxAck) && t.i2c.masterStatus == .rxData && !i.isStart &&
      t.i2c.dataSize == 0
  | mode => decide (0 < moves i mode ∧ t.i2c.dataSize ≤ t.moved)

def NoOverrun (t : Traced) : Event → Prop
  | .irq i => overruns t i = false
  | _ => True

instance (t : Traced) (e : Event) : Decidable (NoOverrun t e) :=
  match e with
  | .irq _ => inferInstanceAs (Decidable (_ = _))
  | .masterWrite _ | .masterRead _ | .slaveWrite _ | .slaveRead _ | .memoryWrite _ _
  | .memoryRead _ _ => isTrue trivial

structure Fits (s : I2c) : Prop where
  accesses : ∀ a ∈ s.accesses, a.offset < a.size
  offset : s.dataOffset ≤ s.dataSize
  size : s.dataSize < 2 ^ 32

def inWrite : MasterStatus → Bool
  | .idle | .txMemAddrHigh8bit | .txMemAddrLow8bit | .txData => true
  | _ => false

def inRead : MasterStatus → Bool
  | .txMemAddrHigh8bit | .txMemAddrLow8bit | .rxDevAddr | .rxData => true
  | _ => false

def Ready (s : I2c) (moved : Nat) : Prop :=
  match s.workMode with
  | .masterWrite => inWrite s.masterStatus = true
  | .masterRead => s.masterStatus = .idle ∨
      inRead s.masterStatus = true ∧ (s.dataSize = 0 ∨ s.dataOffset < s.dataSize)
  | _ => moved < s.dataSize → s.dataOffset = moved

structure Inside (s : I2c) (moved : Nat) : Prop where
  fits : Fits s
  ready : Ready s moved

variable {s s' : I2c} {i : Irq} {e : Event} {moved : Nat}

theorem inside_init : Inside i2cInit 0 :=
  ⟨⟨fun _ h => absurd h List.not_mem_nil, Nat.le_refl _, Nat.two_pow_pos 32⟩, rfl⟩

theorem Fits.access (h : Fits s) (hlt : s.dataOffset < s.dataSize) :
    Fits (I2cDriver.access s) ∧ (I2cDriver.access s).dataOffset = s.dataOffset + 1 := by
  have hsize := h.size
  have hnext : addU32 s.dataOffset 1 = s.dataOffset + 1 := by
    unfold addU32
    omega
  refine ⟨⟨?_, ?_, h.size⟩, hnext⟩
  · exact List.forall_mem_append.mpr ⟨h.accesses, List.forall_mem_singleton.mpr hlt⟩
  · change addU32 s.dataOffset 1 ≤ s.dataSize
    rw [hnext]
    exact hlt

theorem Fits.storeByte (h : Fits s) (hlt : s.dataOffset < s.dataSize) (byte : UInt8) :
    Fits (I2cDriver.storeByte s byte) ∧
      (I2cDriver.storeByte s byte).dataOffset = s.dataOffset + 1 := by
  obtain ⟨hfits, hoffset⟩ := h.access hlt
  exact ⟨{ hfits with }, hoffset⟩

theorem Fits.accessTimes (n : Nat) (h : Fits s) (hroom : s.dataOffset + n ≤ s.dataSize) :
    Fits (I2cDriver.accessTimes n s) := by
  induction n generalizing s with
  | zero => exact h
  | succ n ih =>
    obtain ⟨hfits, hoffset⟩ := h.access (by omega)
    apply ih hfits
    rw [hoffset]
    change s.dataOffset + 1 + n ≤ s.dataSize
    omega

theorem Fits.remain (h : Fits s) : subU32 s.dataSize s.dataOffset = s.dataSize - s.dataOffset := by
  have hoffset := h.offset
  have hsize := h.size
  unfold subU32
  omega

theorem Fits.masterReadLoop (bytes : List UInt8) (h : Fits s)
    (hlt : s.dataOffset < s.dataSize) : Fits (I2cDriver.masterReadLoop bytes s) := by
  induction bytes generalizing s with
  | nil => exact h
  | cons byte bytes ih =>
    obtain ⟨hfits, hoffset⟩ := h.storeByte hlt byte
    rw [I2cDriver.masterReadLoop]
    split
    · exact hfits
    · rename_i hmore
      exact ih hfits (Nat.lt_of_le_of_ne hfits.offset hmore)

theorem Fits.slaveReadLoop (bytes : List UInt8) {remainSize : Nat} (h : Fits s)
    (hremain : remainSize = s.dataSize - s.dataOffset) (hlt : s.dataOffset < s.dataSize) :
    Fits (I2cDriver.slaveReadLoop bytes s remainSize).1 ∧
      (s.dataOffset + bytes.length < s.dataSize →
        (I2cDriver.slaveReadLoop bytes s remainSize).1.dataOffset =
          s.dataOffset + bytes.length) := by
  induction bytes generalizing s remainSize with
  | nil => exact ⟨h, fun _ => rfl⟩
  | cons byte bytes ih =>
    obtain ⟨hfits, hoffset⟩ := h.storeByte hlt byte
    have hsize := h.size
    have hnext : subU32 remainSize 1 = s.dataSize - (s.dataOffset + 1) := by
      unfold subU32
      omega
    rw [I2cDriver.slaveReadLoop, List.length_cons]
    split
    · exact ⟨hfits, fun hmore => by omega⟩
    · have hdata : (I2cDriver.storeByte s byte).dataSize = s.dataSize := rfl
      obtain ⟨hrest, hend⟩ := @ih (I2cDriver.storeByte s byte) (subU32 remainSize 1) hfits
        (by rw [hoffset, hnext, hdata]) (by omega)
      rw [hoffset, hdata, Nat.add_assoc, Nat.add_comm 1] at hend
      exact ⟨hrest, hend⟩

theorem accessTimes_workMode (n : Nat) (s : I2c) :
    (I2cDriver.accessTimes n s).workMode = s.workMode := by
  induction n generalizing s with
  | zero => rfl
  | succ n ih => exact ih (I2cDriver.access s)

theorem masterReadLoop_frame (bytes : List UInt8) (s : I2c) :
    (I2cDriver.masterReadLoop bytes s).workMode = s.workMode ∧
      (I2cDriver.masterReadLoop bytes s).dataSize = s.dataSize := by
  induction bytes generalizing s with
  | nil => exact ⟨rfl, rfl⟩
  | cons byte bytes ih =>
    rw [I2cDriver.masterReadLoop]
    split
    · exact ⟨rfl, rfl⟩
    · exact ih (I2cDriver.storeByte s byte)

theorem slaveReadLoop_frame (bytes : List UInt8) (s : I2c) (remainSize : Nat) :
    (I2cDriver.slaveReadLoop bytes s remainSize).1.workMode = s.workMode ∧
      (I2cDriver.slaveReadLoop bytes s remainSize).1.dataSize = s.dataSize := by
  induction bytes generalizing s remainSize with
  | nil => exact ⟨rfl, rfl⟩
  | cons byte bytes ih =>
    rw [I2cDriver.slaveReadLoop]
    split
    · exact ⟨rfl, rfl⟩
    · exact ih (I2cDriver.storeByte s byte) _

theorem Fits.congr (h : Fits s) (haccesses : s'.accesses = s.accesses)
    (hsize : s'.dataSize = s.dataSize) (hoffset : s'.dataOffset = s.dataOffset) : Fits s' :=
  ⟨haccesses ▸ h.accesses, by rw [hoffset, hsize]; exact h.offset, by rw [hsize]; exact h.size⟩

theorem Fits.status (h : Fits s) (status : MasterStatus) :
    Fits { s with masterStatus := status } := h.congr rfl rfl rfl

theorem Fits.begun (h : Fits s) (hsize : size < 2 ^ 32) (haccesses : s'.accesses = s.accesses)
    (hdata : s'.dataSize = size) (hoffset : s'.dataOffset = 0) : Fits s' :=
  ⟨haccesses ▸ h.accesses, by rw [hoffset]; exact Nat.zero_le _, hdata ▸ hsize⟩

theorem setWriteDevAddr_eq (s : I2c) :
    ∃ status, setWriteDevAddr s = { s with masterStatus := status } ∧
      (status = .txData ∧ s.isWithMemAddr = false ∨
        status = .txMemAddrHigh8bit ∨ status = .txMemAddrLow8bit) := by
  unfold setWriteDevAddr
  split
  · exact ⟨_, rfl, .inl ⟨rfl, ‹_›⟩⟩
  · split
    · exact ⟨_, rfl, .inr (.inl rfl)⟩
    · exact ⟨_, rfl, .inr (.inr rfl)⟩

theorem Inside.startWrite (h : Inside s moved) (hsize : size < 2 ^ 32) (memAddr16 : Option Bool) :
    Inside (setWriteDevAddr (masterStart (setTransfer s .masterWrite memAddr16 size))) 0 := by
  obtain ⟨status, heq, hstatus⟩ :=
    setWriteDevAddr_eq (masterStart (setTransfer s .masterWrite memAddr16 size))
  rw [heq]
  refine ⟨h.fits.begun hsize rfl rfl rfl, ?_⟩
  change inWrite status = true
  rcases hstatus with ⟨rfl, -⟩ | rfl | rfl <;> rfl

theorem Inside.masterRead (h : Inside s moved) (hsize : size < 2 ^ 32) :
    Inside (bkI2cMasterRead s size) 0 :=
  ⟨h.fits.begun hsize rfl rfl rfl, .inr ⟨rfl, Nat.eq_zero_or_pos size⟩⟩

theorem Inside.memoryRead (h : Inside s moved) (hsize : size < 2 ^ 32) (memAddr16 : Bool) :
    Inside (bkI2cMemoryRead s memAddr16 size) 0 := by
  obtain ⟨status, heq, hstatus⟩ :=
    setWriteDevAddr_eq (masterStart (setTransfer s .masterRead (some memAddr16) size))
  rw [bkI2cMemoryRead, heq]
  refine ⟨h.fits.begun hsize rfl rfl rfl, .inr ⟨?_, Nat.eq_zero_or_pos size⟩⟩
  rcases hstatus with ⟨-, hmem⟩ | rfl | rfl
  · cases hmem
  · rfl
  · rfl

theorem Ready.of_write (hmode : s.workMode = .masterWrite)
    (h : inWrite s.masterStatus = true) : Ready s moved := by
  rw [Ready, hmode]
  exact h

theorem Ready.of_read (hmode : s.workMode = .masterRead) (h : s.masterStatus = .idle ∨
      inRead s.masterStatus = true ∧ (s.dataSize = 0 ∨ s.dataOffset < s.dataSize)) :
    Ready s moved := by
  rw [Ready, hmode]
  exact h

theorem ready_slave (hmode : s.workMode = .slaveWrite ∨ s.workMode = .slaveRead) :
    Ready s moved ↔ (moved < s.dataSize → s.dataOffset = moved) := by
  rcases hmode with hmode | hmode <;> rw [Ready, hmode]

theorem Inside.startSlave (h : Inside s moved) (hsize : size < 2 ^ 32) {mode : WorkMode}
    (hmode : mode = .slaveWrite ∨ mode = .slaveRead) :
    Inside (setTransfer s mode none size) 0 :=
  ⟨h.fits.begun hsize rfl rfl rfl, (ready_slave hmode).mpr fun _ => rfl⟩

theorem Ready.timeout (h : Ready s moved) : Ready { s with masterStatus := .idle } moved := by
  unfold Ready at h ⊢
  dsimp only
  cases hmode : s.workMode with
  | masterWrite => rfl
  | masterRead => exact .inl rfl
  | slaveWrite | slaveRead =>
    rw [hmode] at h
    exact h

theorem masterWriteData_cases (s : I2c) (i : Irq) :
    i2c1MasterWriteData s i = { masterStop s with txSema := s.txSema.post } ∨
      ∃ n, n ≤ subU32 s.dataSize s.dataOffset ∧
        i2c1MasterWriteData s i = { accessTimes n s with masterStatus := .txData } := by
  unfold i2c1MasterWriteData
  dsimp only
  split
  · exact .inl rfl
  · refine .inr ⟨_, ?_, rfl⟩
    split
    · exact Nat.le_refl _
    · exact Nat.le_of_not_lt ‹_›

theorem Inside.masterWriteData (h : Inside s moved) (hmode : s.workMode = .masterWrite)
    (i : Irq) : Inside (i2c1MasterWriteData s i) moved := by
  rcases masterWriteData_cases s i with heq | ⟨n, hn, heq⟩
  · rw [heq]
    exact ⟨h.fits.congr rfl rfl rfl, .of_write hmode rfl⟩
  · have hoffset := h.fits.offset
    rw [h.fits.remain] at hn
    rw [heq]
    exact ⟨(h.fits.accessTimes n (by omega)).status _,
      .of_write ((accessTimes_workMode n s).trans hmode) rfl⟩

theorem writeMemAddrLow8bit_of_write (hmode : s.workMode = .masterWrite) :
    writeMemAddrLow8bit s = { s with masterStatus := .txData } := by
  cases s
  cases hmode
  rfl

theorem writeMemAddrLow8bit_of_read (hmode : s.workMode = .masterRead) :
    writeMemAddrLow8bit s = { s with masterStatus := .rxDevAddr } := by
  cases s
  cases hmode
  rfl

section

variable (h : Inside s moved)
include h

theorem Inside.masterReadData (hmode : s.workMode = .masterRead)
    (hroom : i.isStart = true ∨ s.dataOffset < s.dataSize)
    (hready : s.dataSize = 0 ∨ s.dataOffset < s.dataSize) :
    Inside (i2c1MasterReadData s i) moved := by
  unfold i2c1MasterReadData
  split
  · exact ⟨h.fits.status _, .of_read hmode (.inr ⟨rfl, hready⟩)⟩
  · rename_i hstart
    have hfits := h.fits.masterReadLoop i.bytes (hroom.resolve_left hstart)
    obtain ⟨hwork, hsize⟩ := masterReadLoop_frame i.bytes s
    have hremain := hfits.remain
    dsimp only
    split
    · exact ⟨hfits.congr rfl rfl rfl, .of_read (hwork.trans hmode) (.inl rfl)⟩
    · rename_i hmore
      refine ⟨hfits.status _, .of_read (hwork.trans hmode) (.inr ⟨rfl, .inr ?_⟩)⟩
      rw [hremain] at hmore
      exact Nat.lt_of_sub_ne_zero hmore

theorem Inside.masterWriteIsr (hmode : s.workMode = .masterWrite) (i : Irq) :
    Inside (I2cDriver.masterWriteIsr s i) moved := by
  have hready : inWrite s.masterStatus = true := by
    have hready := h.ready
    rw [Ready, hmode] at hready
    exact hready
  unfold I2cDriver.masterWriteIsr
  split
  · exact ⟨h.fits.congr rfl rfl rfl, .of_write hmode rfl⟩
  · unfold i2cMasterIsrCommon
    cases hstatus : s.masterStatus with
    | idle | txMemAddrHigh8bit => exact ⟨h.fits.status _, .of_write hmode rfl⟩
    | txMemAddrLow8bit =>
      change Inside (writeMemAddrLow8bit s) moved
      rw [writeMemAddrLow8bit_of_write hmode]
      exact ⟨h.fits.status _, .of_write hmode rfl⟩
    | txData => exact h.masterWriteData hmode i
    | start | txDevAddr | rxDevAddr | rxData | stop | getAck =>
      rw [hstatus] at hready
      cases hready

theorem Inside.masterReadIsr (hmode : s.workMode = .masterRead)
    (hroom : s.masterStatus = .rxData → i.startTriggered = false ∨ i.rxAck = true →
      i.isStart = true ∨ s.dataSize ≠ 0) : Inside (I2cDriver.masterReadIsr s i) moved := by
  have hready := h.ready
  rw [Ready, hmode] at hready
  unfold I2cDriver.masterReadIsr
  split
  · exact ⟨h.fits.congr rfl rfl rfl, .of_read hmode (.inl rfl)⟩
  · rename_i hack
    unfold i2cMasterIsrCommon
    rcases hready with hidle | ⟨hread, hlt⟩
    · rw [hidle]
      exact ⟨h.fits.status _, .of_read hmode (.inl rfl)⟩
    · cases hstatus : s.masterStatus with
      | txMemAddrHigh8bit => exact ⟨h.fits.status _, .of_read hmode (.inr ⟨rfl, hlt⟩)⟩
      | txMemAddrLow8bit =>
        change Inside (writeMemAddrLow8bit s) moved
        rw [writeMemAddrLow8bit_of_read hmode]
        exact ⟨h.fits.status _, .of_read hmode (.inr ⟨rfl, hlt⟩)⟩
      | rxDevAddr => exact ⟨h.fits.status _, .of_read hmode (.inr ⟨rfl, hlt⟩)⟩
      | rxData =>
        refine h.masterReadData hmode ?_ hlt
        have hacked : i.startTriggered = false ∨ i.rxAck = true := by
          cases hstart : i.startTriggered with
          | false => exact .inl rfl
          | true => exact .inr (eq_true_of_ne_false fun hnot => hack ⟨hstart, hnot⟩)
        rcases hroom hstatus hacked with hstart | hsize
        · exact .inl hstart
        · exact .inr (hlt.resolve_left hsize)
      | idle | start | txDevAddr | txData | stop | getAck =>
        rw [hstatus] at hread
        cases hread

theorem Inside.slaveWriteIsr (hmode : s.workMode = .slaveWrite) (hsm : i.smInt = true)
    (hroom : 0 < moves i .slaveWrite → moved < s.dataSize) :
    Inside (I2cDriver.slaveWriteIsr s i) (moved + moves i .slaveWrite) := by
  have hready := (ready_slave (.inl hmode)).mp h.ready
  revert hroom
  rw [moves, hsm, I2cDriver.slaveWriteIsr]
  cases i.stopTriggered || i.rxMode <;> cases i.rxAck <;> intro hroom
  · exact h
  · change Inside (access s) (moved + 1)
    have hlt : moved < s.dataSize := hroom Nat.one_pos
    have hmoved := hready hlt
    obtain ⟨hfits, hoffset⟩ := h.fits.access (hmoved ▸ hlt)
    exact ⟨hfits, (ready_slave (s := access s) (.inl hmode)).mpr fun _ => hmoved ▸ hoffset⟩
  all_goals exact ⟨h.fits.congr rfl rfl rfl, h.ready⟩

theorem Inside.slaveReadIsr (hmode : s.workMode = .slaveRead) (hsm : i.smInt = true)
    (hbytes : 0 < i.bytes.length) (hroom : 0 < moves i .slaveRead → moved < s.dataSize) :
    Inside (I2cDriver.slaveReadIsr s i) (moved + moves i .slaveRead) := by
  have hready := (ready_slave (.inr hmode)).mp h.ready
  revert hroom
  rw [moves, hsm, I2cDriver.slaveReadIsr]
  cases i.stopTriggered <;> cases i.addrMatched <;> intro hroom
  · have hlt : moved < s.dataSize := hroom hbytes
    have hoffset := hready hlt
    obtain ⟨hfits, hend⟩ := h.fits.slaveReadLoop i.bytes h.fits.remain (hoffset ▸ hlt)
    obtain ⟨hwork, hsize⟩ := slaveReadLoop_frame i.bytes s (subU32 s.dataSize s.dataOffset)
    have hmoved : Ready (I2cDriver.slaveReadLoop i.bytes s (subU32 s.dataSize s.dataOffset)).1
        (moved + i.bytes.length) := by
      refine (ready_slave (.inr (hwork.trans hmode))).mpr fun hmore => ?_
      rw [hsize, ← hoffset] at hmore
      rw [hend hmore, hoffset]
    rw [if_neg Bool.false_ne_true, if_neg Bool.false_ne_true]
    dsimp only
    split
    · exact ⟨hfits.congr rfl rfl rfl, hmoved⟩
    · exact ⟨hfits, hmoved⟩
  · exact h
  all_goals exact ⟨h.fits.congr rfl rfl rfl, h.ready⟩

end

theorem readFifoNum_pos (intMode : Fin 4) : 0 < readFifoNum intMode := by
  revert intMode
  decide

theorem Inside.isr (h : Inside s moved) (hraised : i.Raised)
    (hok : overruns ⟨s, moved⟩ i = false) :
    Inside (i2c1IsrCommon s i) (moved + moves i s.workMode) := by
  unfold i2c1IsrCommon
  cases hsm : i.smInt with
  | false =>
    have hmoves : moves i s.workMode = 0 := by
      cases s.workMode <;> simp [moves, hsm]
    rw [hmoves, if_pos rfl]
    split
    · exact ⟨h.fits.status _, h.ready.timeout⟩
    · exact h
  | true =>
    rw [if_neg nofun]
    unfold overruns at hok
    cases hmode : s.workMode with
    | masterWrite => exact h.masterWriteIsr hmode i
    | masterRead =>
      refine h.masterReadIsr hmode fun hstatus hack => ?_
      simp only [hmode, hsm, hstatus, beq_self_eq_true, Bool.and_true, Bool.true_and,
        and_eq_false_iff, not_eq_false', and_eq_true, not_eq_true', beq_eq_false_iff_ne] at hok
      rcases hok with (⟨hstart, hnack⟩ | hstart) | hsize
      · rcases hack with hnot | hnot
        · rw [hstart] at hnot
          cases hnot
        · rw [hnack] at hnot
          cases hnot
      · exact .inl hstart
      · exact .inr hsize
    | slaveWrite =>
      rw [hmode, decide_eq_false_iff_not] at hok
      exact h.slaveWriteIsr hmode hsm fun hpos => Nat.lt_of_not_le fun hle => hok ⟨hpos, hle⟩
    | slaveRead =>
      rw [hmode, decide_eq_false_iff_not] at hok
      exact h.slaveReadIsr hmode hsm (hraised ▸ readFifoNum_pos _) fun hpos =>
        Nat.lt_of_not_le fun hle => hok ⟨hpos, hle⟩

theorem Inside.begun {t' : Traced} (h : size < 2 ^ 32 → Inside s 0)
    (hstep : I2cBounds.begun size s = some t') : Inside t'.i2c t'.moved := by
  obtain ⟨hsize, rfl⟩ := Option.ite_some_none_eq_some.mp hstep
  exact h hsize

theorem Inside.step {t t' : Traced} (h : Inside t.i2c t.moved) (hok : NoOverrun t e)
    (hstep : I2cBounds.step t e = some t') : Inside t'.i2c t'.moved := by
  cases e with
  | masterWrite => exact Inside.begun (fun hsize => h.startWrite hsize none) hstep
  | masterRead => exact Inside.begun (fun hsize => h.masterRead hsize) hstep
  | slaveWrite => exact Inside.begun (fun hsize => h.startSlave hsize (.inl rfl)) hstep
  | slaveRead => exact Inside.begun (fun hsize => h.startSlave hsize (.inr rfl)) hstep
  | memoryWrite memAddr16 =>
    exact Inside.begun (fun hsize => h.startWrite hsize (some memAddr16)) hstep
  | memoryRead memAddr16 => exact Inside.begun (fun hsize => h.memoryRead hsize memAddr16) hstep
  | irq =>
    obtain ⟨hraised, rfl⟩ := Option.ite_some_none_eq_some.mp hstep
    exact h.isr hraised hok

/-- The buffer is used only below its size. -/
theorem accesses_inside (t : Traced) (h : Reached I2cBounds.step NoOverrun ⟨i2cInit, 0⟩ t) :
    ∀ a ∈ t.i2c.accesses, a.offset < a.size := by
  have hinside := h.invariant (fun t => Inside t.i2c t.moved) inside_init
    fun _ _ _ ht hok hstep => ht.step hok hstep
  exact hinside.fits.accesses

def dataIrq (rxAck stopTriggered rxMode addrMatched : Bool) (byte : UInt8) : Irq :=
  ⟨true, false, rxAck, false, stopTriggered, false, rxMode, addrMatched, Fin.last 3, [byte]⟩

theorem accesses_inside_slave : ∃ t, Reached I2cBounds.step NoOverrun ⟨i2cInit, 0⟩ t ∧
      t.i2c.accesses = [⟨2, 0⟩, ⟨2, 1⟩, ⟨1, 0⟩] ∧ ∀ a ∈ t.i2c.accesses, a.offset < a.size :=
  exists_reached_and accesses_inside
    [.slaveRead 2, .irq (dataIrq true false true true 0), .irq (dataIrq true false true false 5),
      .irq (dataIrq true false true false 6), .irq (dataIrq false true true false 0),
      .slaveWrite 1, .irq (dataIrq true false false true 0),
      .irq (dataIrq false true false false 0)]
    (by decide)

theorem accesses_behind :
    (∃ t, Reached I2cBounds.step anyStep ⟨i2cInit, 0⟩ t ∧ (⟨0, 0⟩ : Access) ∈ t.i2c.accesses) ∧
    (∃ t, Reached I2cBounds.step anyStep ⟨i2cInit, 0⟩ t ∧
      t.i2c.workMode = .slaveWrite ∧ (⟨1, 1⟩ : Access) ∈ t.i2c.accesses) ∧
    ∃ t, Reached I2cBounds.step anyStep ⟨i2cInit, 0⟩ t ∧
      t.i2c.workMode = .slaveRead ∧ (⟨1, 1⟩ : Access) ∈ t.i2c.accesses := by
  refine ⟨exists_reached _ _ _ _ ?_ ?_, exists_reached _ _ _ _ ?_ ?_, exists_reached _ _ _ _ ?_ ?_⟩
  · exact [.masterRead 0,
      .irq ⟨true, false, true, true, false, true, true, false, Fin.last 3, [0]⟩,
      .irq (dataIrq true false true false 5)]
  · decide
  · exact [.slaveWrite 1, .irq (dataIrq true false false true 0),
      .irq (dataIrq true false false false 0)]
  · decide
  · exact [.slaveRead 1, .irq (dataIrq true false true true 0),
      .irq (dataIrq true false true false 5), .irq (dataIrq true false true false 6)]
  · decide

end BekenSoc.I2cBounds
