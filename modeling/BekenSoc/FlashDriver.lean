import Mathlib.Data.List.Range
import BekenSoc.CRuntime
import BekenSoc.NorMemory

/-!
The driver of the embedded flash, `flash_driver.c`.

The controller has an address register of 24 bits and reads and programs blocks of 32 bytes.
The log of its commands is kept beside the state.  `CONFIG_FLASH_QUAD_ENABLE` is set.
-/

namespace BekenSoc.FlashDriver

open CRuntime NorMemory Nat

def flashBytesCnt : Nat := 32

def flashAddressMask : Nat := 0x1f

def flashEraseSectorMask : Nat := 0xFFF000

def flashSectorSize : Nat := 0x1000

def flashModeDual : Nat := 1

def andNot (a mask : Nat) : Nat := a - (a &&& mask)

inductive FlashSize
  | m1
  | m2
  | m4
  | m8

def FlashSize.bytes : FlashSize → Nat
  | .m1 => 0x100000
  | .m2 => 0x200000
  | .m4 => 0x400000
  | .m8 => 0x800000

inductive LineMode
  | two
  | four
  deriving DecidableEq

inductive ProtectType
  | none
  | all
  | half
  | unprotectLastBlock

structure FlashConfig where
  flashId : Nat
  flashSize : FlashSize
  lineMode : LineMode
  protectAll : Nat
  protectNone : Nat
  protectHalf : Nat
  unprotectLastBlock : Nat
  quadEnVal : Nat
  modeSel : Nat

def flashConfig : List FlashConfig :=
  [⟨0x1C7016, .m4, .two, 0x1F, 0x00, 0x16, 0x01B, 0, 1⟩,
   ⟨0x1C7015, .m2, .two, 0x1F, 0x00, 0x0d, 0x0d, 0, 1⟩,
   ⟨0x0B4014, .m1, .two, 0x1F, 0x00, 0x0C, 0x101, 1, 1⟩,
   ⟨0x0B4015, .m2, .two, 0x1F, 0x00, 0x0D, 0x101, 1, 1⟩,
   ⟨0x1C4116, .m4, .four, 0x1F, 0x00, 0x0E, 0x00E, 1, 2⟩,
   ⟨0x0B4016, .m4, .four, 0x1F, 0x00, 0x0E, 0x101, 1, 2⟩,
   ⟨0x0B4017, .m8, .two, 0x05, 0x00, 0x0E, 0x109, 1, 1⟩,
   ⟨0x0E4016, .m4, .two, 0x1F, 0x00, 0x0E, 0x101, 1, 1⟩,
   ⟨0xC84015, .m2, .two, 0x1F, 0x00, 0x0D, 0x101, 1, 1⟩,
   ⟨0xC84016, .m4, .four, 0x1F, 0x00, 0x0E, 0x00E, 1, 2⟩,
   ⟨0xC86515, .m2, .two, 0x1F, 0x00, 0x0D, 0x101, 1, 1⟩,
   ⟨0xEF4016, .m4, .two, 0x1F, 0x00, 0x00, 0x101, 1, 1⟩,
   ⟨0x204016, .m4, .two, 0x1F, 0x00, 0x0E, 0x101, 1, 1⟩,
   ⟨0xC22315, .m2, .two, 0x0F, 0x00, 0x0A, 0x00E, 1, 1⟩,
   ⟨0xEB6015, .m2, .two, 0x1F, 0x00, 0x0D, 0x101, 1, 1⟩]

def flashConfigDefault : FlashConfig := ⟨0x000000, .m4, .two, 0x00, 0x00, 0x00, 0x000, 0, 1⟩

def FlashConfig.protectCfg (cfg : FlashConfig) : ProtectType → Nat
  | .none => cfg.protectNone
  | .all => cfg.protectAll
  | .half => cfg.protectHalf
  | .unprotectLastBlock => cfg.unprotectLastBlock

def flashGetCurrentConfig (flashId : Nat) : FlashConfig :=
  (flashConfig.find? fun cfg => cfg.flashId = flashId).getD flashConfigDefault

structure LineRegs where
  modeSel : Nat
  quadEnable : Bool
  deriving DecidableEq

structure PsStatus where
  unconditional : Bool
  normal : Bool
  lowvol : Bool
  deep : Bool
  deriving DecidableEq

def PsStatus.awake : PsStatus := ⟨false, false, false, false⟩

def PsStatus.sleeped : PsStatus := ⟨true, true, true, true⟩

inductive PsCallback
  | suspend
  | resume
  deriving DecidableEq

inductive FlashOp
  | read (addr : Nat)
  | program (addr : Nat)
  | erase (addr : Nat)
  deriving DecidableEq

structure Flash where
  cfg : FlashConfig
  mem : Nat → BitVec 8
  /-- the protect and cmp bits of the status register -/
  protectValue : Nat
  /-- the bytes that the chip locks under such a value -/
  locks : Nat → Nat → Bool
  line : LineRegs
  ps : PsStatus
  registered : PsCallback → Bool
  /-- the callbacks that were called -/
  called : List PsCallback
  ops : List FlashOp

def Flash.size (s : Flash) : Nat := s.cfg.flashSize.bytes

def Flash.locked (s : Flash) : Nat → Bool := s.locks s.protectValue

inductive PsLevel
  | normal
  | lowvol
  | deep
  | idle
  | other
  deriving DecidableEq

inductive FlashRet
  | ok
  | addrOutOfRange
  | partitionNotFound
  | nullParam
  deriving DecidableEq

def flashSetProtectType (s : Flash) (type : ProtectType) : Flash :=
  { s with protectValue := s.cfg.protectCfg type }

/-- `flash_set_qe` returns before the write if the bit is set already. -/
def flashSetQe (s : Flash) : Flash :=
  if s.line.quadEnable then s else { s with line := { s.line with quadEnable := true } }

def bkFlashSetLineMode (s : Flash) (lineMode : LineMode) : Flash :=
  let s := { s with line := { s.line with modeSel := 0 } }
  match lineMode with
  | .two => { s with line := { s.line with modeSel := flashModeDual } }
  | .four =>
    let s := if 1 = s.cfg.quadEnVal then flashSetQe s else s
    { s with line := { s.line with modeSel := s.cfg.modeSel } }

def callPs (s : Flash) (cb : PsCallback) : Flash :=
  if s.registered cb then { s with called := s.called ++ [cb] } else s

def flashPsSuspend (s : Flash) (psLevel : PsLevel) : Flash :=
  if psLevel = .other then s
  else
    let s := callPs s .suspend
    let s := if s.cfg.lineMode = .four then bkFlashSetLineMode s .two else s
    { s with ps := .sleeped }

def flashPsResume (s : Flash) (psLevel : PsLevel) : Flash :=
  if psLevel = .other then s
  else
    let s := if s.cfg.lineMode = .four then bkFlashSetLineMode s .four else s
    let s := callPs s .resume
    { s with ps := .awake }

def addrReg (addr : Nat) : Nat := addr % 2 ^ 24

def Flash.log (s : Flash) (op : FlashOp) : Flash := { s with ops := s.ops ++ [op] }

def readBlock (s : Flash) (addr : Nat) : Flash × (Nat → BitVec 8) :=
  (s.log (.read (addrReg addr)), fun i => s.mem (addrReg addr + i))

/-- What the chip programs at `base`; a locked byte keeps its bits. -/
def Flash.taken (s : Flash) (base : Nat) (data : Nat → BitVec 8) : Nat → BitVec 8 := fun i =>
  if s.locked (base + i) then 0xFF else data i

def programBlock (s : Flash) (addr : Nat) (block : Nat → BitVec 8) : Flash :=
  { s.log (.program (addrReg addr)) with
    mem := program s.mem (addrReg addr) flashBytesCnt (s.taken (addrReg addr) block) }

def eraseSector (s : Flash) (addr : Nat) : Flash :=
  { s.log (.erase addr) with
    mem := fun a => if s.locked a then s.mem a else erase s.mem addr flashSectorSize a }

def turnLen (address len : Nat) : Nat := min (flashBytesCnt - address % flashBytesCnt) len

def readLoop : Nat → Flash → Nat → Nat → Nat → Flash × List (BitVec 8)
  | 0, s, _, _, _ => (s, [])
  | fuel + 1, s, addr, address, len =>
    if len = 0 then (s, [])
    else
      let k := turnLen address len
      let block := readBlock s addr
      let rest := readLoop fuel block.1 (addU32 addr flashBytesCnt) (addU32 address k) (len - k)
      (rest.1, (List.range k).map (fun i => block.2 (address % flashBytesCnt + i)) ++ rest.2)

def flashReadCommon (s : Flash) (address len : Nat) : Flash × List (BitVec 8) :=
  readLoop len s (andNot address flashAddressMask) address len

def fillBlock (pb buffer : Nat → BitVec 8) (pos address k : Nat) : Nat → BitVec 8 := fun i =>
  if address % flashBytesCnt ≤ i ∧ i < address % flashBytesCnt + k then
    buffer (pos + (i - address % flashBytesCnt))
  else pb i

def writeLoop : Nat → Flash → (Nat → BitVec 8) → Nat → Nat → Nat → Nat → (Nat → BitVec 8) → Flash
  | 0, s, _, _, _, _, _, _ => s
  | fuel + 1, s, buffer, pos, addr, address, len, pb =>
    if len = 0 then s
    else
      let r := if len < flashBytesCnt then readBlock s addr else (s, pb)
      let k := turnLen address len
      let s := programBlock r.1 addr (fillBlock r.2 buffer pos address k)
      writeLoop fuel s buffer (pos + k) (addU32 addr flashBytesCnt) (addU32 address k) (len - k)
        fun _ => 0xFF

def flashWriteCommon (s : Flash) (buffer : Nat → BitVec 8) (address len : Nat) : Flash × FlashRet :=
  let addr := andNot address flashAddressMask
  if s.size ≤ addr ∨ s.size < len ∨ s.size < addU32 addr len then (s, .addrOutOfRange)
  else
    let r := if address % flashBytesCnt ≠ 0 then readBlock s addr else (s, fun _ => 0xFF)
    (writeLoop len r.1 buffer 0 addr address len r.2, .ok)

def bkFlashEraseSector (s : Flash) (address : Nat) : Flash × FlashRet :=
  let eraseAddr := address &&& flashEraseSectorMask
  let s := flashPsSuspend s .normal
  if s.size ≤ eraseAddr then (s, .addrOutOfRange)
  else (flashPsResume (eraseSector s (addrReg eraseAddr)) .normal, .ok)

def bkFlashReadBytes (s : Flash) (address size : Nat) : Flash × List (BitVec 8) × FlashRet :=
  if s.size ≤ address then (s, [], .addrOutOfRange)
  else
    let r := flashReadCommon s address size
    (r.1, r.2, .ok)

def bkFlashWriteBytes (s : Flash) (address : Nat) (userBuf : Nat → BitVec 8) (size : Nat) :
    Flash × FlashRet :=
  let s := flashPsSuspend s .normal
  if s.size ≤ address then (s, .addrOutOfRange)
  else
    let s := (flashWriteCommon s userBuf address size).1
    (flashPsResume s .normal, .ok)

theorem andNot_addressMask (a : Nat) : andNot a flashAddressMask = a - a % 32 := by
  have hmask : a &&& flashAddressMask = a % 32 := and_two_pow_sub_one_eq_mod a 5
  rw [andNot, hmask]

theorem and_eraseSectorMask (a : Nat) :
    a &&& flashEraseSectorMask = a % 2 ^ 24 / 2 ^ 12 * 2 ^ 12 := by
  have hmask : flashEraseSectorMask = (2 ^ 12 - 1) <<< 12 := by decide
  rw [hmask, ← shiftRight_eq_div_pow, ← shiftLeft_eq]
  apply eq_of_testBit_eq
  intro i
  rw [testBit_and, testBit_shiftLeft, testBit_shiftLeft, testBit_two_pow_sub_one,
    testBit_shiftRight, testBit_mod_two_pow]
  by_cases hi : 12 ≤ i
  · have hsum : 12 + (i - 12) = i := by omega
    have hlt : decide (i - 12 < 12) = decide (i < 24) := by
      rw [decide_eq_decide]
      omega
    rw [decide_eq_true hi, hsum, Bool.true_and, Bool.true_and, hlt, Bool.and_comm]
  · rw [decide_eq_false hi, Bool.false_and, Bool.false_and, Bool.and_false]

theorem FlashSize.bytes_mod (size : FlashSize) : size.bytes % 4096 = 0 := by
  cases size <;> rfl

theorem FlashSize.le_bytes (size : FlashSize) : 0x100000 ≤ size.bytes := by
  cases size <;> decide

theorem FlashSize.bytes_le (size : FlashSize) : size.bytes ≤ 0x800000 := by
  cases size <;> decide

theorem and_allOnes (b : BitVec 8) : b &&& 0xFF = b := BitVec.and_allOnes

theorem addrReg_of_lt {addr : Nat} (h : addr < 2 ^ 24) : addrReg addr = addr := mod_eq_of_lt h

theorem addU32_of_lt {a b : Nat} (h : a + b < 2 ^ 32) : addU32 a b = a + b := mod_eq_of_lt h

theorem callPs_eq (s : Flash) (cb : PsCallback) :
    ∃ called, callPs s cb = { s with called := called } := by
  unfold callPs
  split
  · exact ⟨_, rfl⟩
  · exact ⟨s.called, rfl⟩

def LineRegs.suspended (line : LineRegs) (cfg : FlashConfig) : LineRegs :=
  if cfg.lineMode = .four then { line with modeSel := flashModeDual } else line

def LineRegs.resumed (line : LineRegs) (cfg : FlashConfig) : LineRegs :=
  if cfg.lineMode = .four then
    ⟨cfg.modeSel, line.quadEnable || decide (1 = cfg.quadEnVal)⟩
  else line

theorem flashPsSuspend_eq (s : Flash) : ∃ called, flashPsSuspend s .normal =
      { s with line := s.line.suspended s.cfg, ps := .sleeped, called := called } := by
  obtain ⟨called, hcall⟩ := callPs_eq s .suspend
  refine ⟨called, ?_⟩
  rw [flashPsSuspend, if_neg (by decide), hcall, LineRegs.suspended]
  dsimp only
  split <;> rfl

theorem flashPsResume_eq (s : Flash) : ∃ called, flashPsResume s .normal =
      { s with line := s.line.resumed s.cfg, ps := .awake, called := called } := by
  have hline : (if s.cfg.lineMode = .four then bkFlashSetLineMode s .four else s) =
      { s with line := s.line.resumed s.cfg } := by
    unfold LineRegs.resumed bkFlashSetLineMode flashSetQe
    split
    · dsimp only
      by_cases hquad : 1 = s.cfg.quadEnVal
      · rw [if_pos hquad, decide_eq_true hquad]
        cases hqe : s.line.quadEnable <;> simp
      · rw [if_neg hquad, decide_eq_false hquad, Bool.or_false]
    · rfl
  rw [flashPsResume, if_neg (by decide), hline]
  obtain ⟨called, hcall⟩ := callPs_eq { s with line := s.line.resumed s.cfg } .resume
  dsimp only at hcall ⊢
  rw [hcall]
  exact ⟨called, rfl⟩

theorem suspend_size (s : Flash) : (flashPsSuspend s .normal).size = s.size := by
  obtain ⟨called, hsuspend⟩ := flashPsSuspend_eq s
  rw [hsuspend]
  rfl

theorem suspend_mem (s : Flash) : (flashPsSuspend s .normal).mem = s.mem := by
  obtain ⟨called, hsuspend⟩ := flashPsSuspend_eq s
  rw [hsuspend]

theorem suspend_locked (s : Flash) : (flashPsSuspend s .normal).locked = s.locked := by
  obtain ⟨called, hsuspend⟩ := flashPsSuspend_eq s
  rw [hsuspend]
  rfl

theorem suspend_ops (s : Flash) : (flashPsSuspend s .normal).ops = s.ops := by
  obtain ⟨called, hsuspend⟩ := flashPsSuspend_eq s
  rw [hsuspend]

theorem resume_size (s : Flash) : (flashPsResume s .normal).size = s.size := by
  obtain ⟨called, hresume⟩ := flashPsResume_eq s
  rw [hresume]
  rfl

theorem resume_mem (s : Flash) : (flashPsResume s .normal).mem = s.mem := by
  obtain ⟨called, hresume⟩ := flashPsResume_eq s
  rw [hresume]

theorem resume_locked (s : Flash) : (flashPsResume s .normal).locked = s.locked := by
  obtain ⟨called, hresume⟩ := flashPsResume_eq s
  rw [hresume]
  rfl

theorem resume_ops (s : Flash) : (flashPsResume s .normal).ops = s.ops := by
  obtain ⟨called, hresume⟩ := flashPsResume_eq s
  rw [hresume]

end BekenSoc.FlashDriver
