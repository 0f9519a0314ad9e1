import BekenSoc.FlashTransfers

namespace BekenSoc.FlashDriver

open CRuntime NorMemory

variable {s s' : Flash} {address : Nat}

inductive Call
  | write (address : Nat) (userBuf : Nat → BitVec 8) (size : Nat)
  | erase (address : Nat)

def Call.run (s : Flash) : Call → Flash × FlashRet
  | .write address userBuf size => bkFlashWriteBytes s address userBuf size
  | .erase address => bkFlashEraseSector s address

variable {call : Call}

def Done (s s' : Flash) : Call → Prop
  | .write address userBuf size => ∀ i < size,
      address + i < s.size ∧ s'.mem (address + i) = s.mem (address + i) &&& userBuf i
  | .erase address => ∀ i < flashSectorSize, address - address % flashSectorSize + i < s.size ∧
        s'.mem (address - address % flashSectorSize + i) = 0xFF

def Restored (s s' : Flash) : Prop := s'.line = s.line ∧ s'.ps = s.ps

def Honest (s : Flash) (call : Call) : Prop :=
  ((call.run s).2 = .ok → Done s (call.run s).1 call) ∧ Restored s (call.run s).1

def Awake (s : Flash) : Prop :=
  s.ps = .awake ∧ (s.cfg.lineMode = .four →
    s.line.modeSel = s.cfg.modeSel ∧ (s.cfg.quadEnVal = 1 → s.line.quadEnable = true))

def Asleep (s : Flash) : Prop :=
  s.ps = .sleeped ∧ (s.cfg.lineMode = .four → s.line.modeSel = flashModeDual)

/-- A call inside the flash begins awake and wants no change of a locked byte; a refused one
begins asleep. -/
def Meets (s : Flash) : Call → Prop
  | .write address userBuf size =>
    address < s.size ∧ ((size = 0 ∨ address + size ≤ s.size) ∧ ∀ i < size,
        s.locked (address + i) = false ∨
          s.mem (address + i) &&& userBuf i = s.mem (address + i)) ∧ Awake s ∨
      s.size ≤ address ∧ Asleep s
  | .erase address =>
    (address &&& flashEraseSectorMask) < s.size ∧ (address < 2 ^ 24 ∧ ∀ i < flashSectorSize,
        s.locked (address - address % flashSectorSize + i) = false ∨
          s.mem (address - address % flashSectorSize + i) = 0xFF) ∧ Awake s ∨
      s.size ≤ (address &&& flashEraseSectorMask) ∧ Asleep s

theorem suspended_eq_iff (line : LineRegs) (cfg : FlashConfig) :
    line.suspended cfg = line ↔ (cfg.lineMode = .four → line.modeSel = flashModeDual) := by
  unfold LineRegs.suspended
  split
  · rename_i hfour
    constructor
    · intro h _
      exact (congrArg LineRegs.modeSel h).symm
    · intro h
      rw [← h hfour]
  · rename_i hfour
    exact ⟨fun _ h => absurd h hfour, fun _ => rfl⟩

theorem resumed_suspended_eq_iff (line : LineRegs) (cfg : FlashConfig) :
    (line.suspended cfg).resumed cfg = line ↔ (cfg.lineMode = .four →
      line.modeSel = cfg.modeSel ∧ (cfg.quadEnVal = 1 → line.quadEnable = true)) := by
  unfold LineRegs.suspended LineRegs.resumed
  split
  · rename_i hfour
    constructor
    · intro h _
      have hmode := congrArg LineRegs.modeSel h
      have hquad := congrArg LineRegs.quadEnable h
      dsimp only at hmode hquad
      refine ⟨hmode.symm, fun hval => ?_⟩
      rw [← hquad, hval]
      exact Bool.or_true _
    · intro h
      obtain ⟨hmode, hquad⟩ := h hfour
      rw [← hmode]
      by_cases hval : cfg.quadEnVal = 1
      · have hset : (line.quadEnable || decide (1 = cfg.quadEnVal)) = line.quadEnable := by
          rw [hquad hval, Bool.true_or]
        exact congrArg (LineRegs.mk line.modeSel) hset
      · have hset : (line.quadEnable || decide (1 = cfg.quadEnVal)) = line.quadEnable := by
          rw [decide_eq_false (Ne.symm hval), Bool.or_false]
        exact congrArg (LineRegs.mk line.modeSel) hset
  · rename_i hfour
    exact ⟨fun _ h => absurd h hfour, fun _ => rfl⟩

theorem restored_suspend_iff (s : Flash) : Restored s (flashPsSuspend s .normal) ↔ Asleep s := by
  obtain ⟨called, hsuspend⟩ := flashPsSuspend_eq s
  rw [hsuspend]
  change s.line.suspended s.cfg = s.line ∧ PsStatus.sleeped = s.ps ↔ _
  rw [suspended_eq_iff, and_comm, eq_comm]
  rfl

theorem restored_resume_iff (h : SameDevice (flashPsSuspend s .normal) s') :
    Restored s (flashPsResume s' .normal) ↔ Awake s := by
  obtain ⟨called, hsuspend⟩ := flashPsSuspend_eq s
  obtain ⟨called', hresume⟩ := flashPsResume_eq s'
  rw [hsuspend] at h
  have hcfg : s'.cfg = s.cfg := h.cfg
  have hline : s'.line = s.line.suspended s.cfg := h.line
  rw [hresume]
  change s'.line.resumed s'.cfg = s.line ∧ PsStatus.awake = s.ps ↔ _
  rw [hcfg, hline, resumed_suspended_eq_iff, and_comm, eq_comm]
  rfl

theorem sameDevice_flashWriteCommon (s : Flash) (buffer : Nat → BitVec 8) (address len : Nat) :
    SameDevice s (flashWriteCommon s buffer address len).1 := by
  unfold flashWriteCommon
  dsimp only
  split
  · exact ⟨rfl, rfl, rfl, rfl⟩
  · refine SameDevice.trans ?_ (sameDevice_writeLoop ..)
    split <;> exact ⟨rfl, rfl, rfl, rfl⟩

theorem flashWriteCommon_mem (s : Flash) (buffer : Nat → BitVec 8) {len : Nat}
    (hend : address + len ≤ s.size) (hlt : address < s.size) :
    (flashWriteCommon s buffer address len).1.mem =
      program s.mem address len (s.taken address buffer) := by
  have hsize := s.cfg.flashSize.bytes_le
  change s.size ≤ 0x800000 at hsize
  have hrange : ¬ (s.size ≤ address - address % 32 ∨ s.size < len ∨
      s.size < addU32 (address - address % 32) len) := by
    rw [addU32_of_lt (by omega)]
    omega
  rw [flashWriteCommon, andNot_addressMask]
  dsimp only
  rw [if_neg hrange]
  have hneutral : ∀ r : Flash × (Nat → BitVec 8),
      r = (if address % flashBytesCnt ≠ 0 then readBlock s (address - address % 32)
        else (s, fun _ => 0xFF)) →
      r.1.mem = s.mem ∧ r.1.taken = s.taken ∧ Neutral s.mem r.2 (address - address % 32) := by
    rintro r rfl
    split
    · exact ⟨rfl, rfl, neutral_readBlock s (by omega)⟩
    · exact ⟨rfl, rfl, neutral_allOnes _ _⟩
  obtain ⟨hmem, htaken, hblock⟩ := hneutral _ rfl
  rw [writeLoop_mem (Nat.le_refl len) (fun _ => rfl) (by omega) (fun _ => hmem ▸ hblock), hmem,
    htaken]
  simp only [Nat.zero_add]

theorem honest_iff_of_refused (hrun : call.run s = (flashPsSuspend s .normal, .addrOutOfRange)) :
    Honest s call ↔ Asleep s := by
  rw [Honest, hrun]
  constructor
  · rintro ⟨-, hrestored⟩
    exact (restored_suspend_iff s).mp hrestored
  · intro hasleep
    refine ⟨?_, (restored_suspend_iff s).mpr hasleep⟩
    intro hok
    cases hok

theorem honest_iff_of_ok (hrun : call.run s = (flashPsResume s' .normal, .ok))
    (hsame : SameDevice (flashPsSuspend s .normal) s') :
    Honest s call ↔ Done s (flashPsResume s' .normal) call ∧ Awake s := by
  rw [Honest, hrun, restored_resume_iff hsame]
  constructor
  · rintro ⟨hdone, hawake⟩
    exact ⟨hdone rfl, hawake⟩
  · rintro ⟨hdone, hawake⟩
    exact ⟨fun _ => hdone, hawake⟩

theorem done_write_iff {size : Nat} (userBuf : Nat → BitVec 8) (hlt : address < s.size) :
    Done s (flashPsResume (flashWriteCommon (flashPsSuspend s .normal) userBuf address size).1
        .normal) (.write address userBuf size) ↔
      (size = 0 ∨ address + size ≤ s.size) ∧ ∀ i < size, s.locked (address + i) = false ∨
        s.mem (address + i) &&& userBuf i = s.mem (address + i) := by
  have hrange : (∀ i < size, address + i < s.size) ↔ size = 0 ∨ address + size ≤ s.size := by
    constructor
    · intro h
      by_contra hout
      have hlast := h (size - 1) (by omega)
      omega
    · intro h i hi
      omega
  rw [Done, ← hrange]
  simp only [forall_and]
  refine and_congr_right fun hfits => forall₂_congr fun i hi => ?_
  have hend : address + size ≤ s.size := by
    have := hrange.mp hfits
    omega
  rw [← suspend_size s] at hend hlt
  rw [resume_mem, flashWriteCommon_mem _ userBuf hend hlt, suspend_mem, program_of_mem _ hi,
    Flash.taken, suspend_locked]
  cases s.locked (address + i) with
  | false => simp
  | true =>
    rw [if_pos rfl, and_allOnes, or_iff_right Bool.noConfusion]
    exact eq_comm

theorem erase_done_iff (hlt : (address &&& flashEraseSectorMask) < s.size) :
    Done s (flashPsResume (eraseSector (flashPsSuspend s .normal)
        (addrReg (address &&& flashEraseSectorMask))) .normal) (.erase address) ↔
      address < 2 ^ 24 ∧ ∀ i < flashSectorSize,
        s.locked (address - address % flashSectorSize + i) = false ∨
          s.mem (address - address % flashSectorSize + i) = 0xFF := by
  have hsize := s.cfg.flashSize.bytes_le
  change s.size ≤ 0x800000 at hsize
  have hmod := s.cfg.flashSize.bytes_mod
  change s.size % 4096 = 0 at hmod
  rw [and_eraseSectorMask] at hlt ⊢
  have hrange : (∀ i < flashSectorSize, address - address % flashSectorSize + i < s.size) ↔
      address < 2 ^ 24 := by
    unfold flashSectorSize
    constructor
    · intro h
      have hfirst := h 0 (by decide)
      omega
    · intro h i hi
      omega
  rw [Done, ← hrange]
  simp only [forall_and]
  refine and_congr_right fun hfits => forall₂_congr fun i hi => ?_
  have haddress := hrange.mp hfits
  have hsector : addrReg (address % 2 ^ 24 / 2 ^ 12 * 2 ^ 12) =
      address - address % flashSectorSize := by
    rw [addrReg, flashSectorSize]
    omega
  rw [resume_mem, hsector, eraseSector, suspend_mem, suspend_locked]
  dsimp only
  rw [erase_of_mem hi]
  cases s.locked (address - address % flashSectorSize + i) with
  | false => simp
  | true => simp

theorem honest_iff_of_run {a : Nat} {P : Prop}
    (hrun : call.run s = if (flashPsSuspend s .normal).size ≤ a then
      (flashPsSuspend s .normal, .addrOutOfRange) else (flashPsResume s' .normal, .ok))
    (hsame : SameDevice (flashPsSuspend s .normal) s')
    (hdone : a < s.size → (Done s (flashPsResume s' .normal) call ↔ P)) :
    Honest s call ↔ a < s.size ∧ P ∧ Awake s ∨ s.size ≤ a ∧ Asleep s := by
  rw [suspend_size] at hrun
  rcases Nat.lt_or_ge a s.size with hlt | hle
  · rw [if_neg (Nat.not_le.mpr hlt)] at hrun
    rw [honest_iff_of_ok hrun hsame, hdone hlt]
    simp [hlt, Nat.not_le.mpr hlt]
  · rw [if_pos hle] at hrun
    rw [honest_iff_of_refused hrun]
    simp [hle, Nat.not_lt.mpr hle]

/-- The result and the state that a call leaves are right exactly if it meets the condition. -/
theorem honest_iff (s : Flash) (call : Call) : Honest s call ↔ Meets s call := by
  cases call with
  | write _ userBuf =>
    exact honest_iff_of_run rfl (sameDevice_flashWriteCommon ..) (done_write_iff userBuf)
  | erase =>
    refine honest_iff_of_run rfl ⟨rfl, rfl, rfl, rfl⟩ erase_done_iff

def bkFlashDriverInit (flashId : Nat) (mem : Nat → BitVec 8) (protectValue : Nat)
    (locks : Nat → Nat → Bool) : Flash :=
  let cfg := flashGetCurrentConfig flashId
  bkFlashSetLineMode (flashSetProtectType
    ⟨cfg, mem, protectValue, locks, ⟨0, false⟩, .awake, fun _ => false, [], []⟩
    .unprotectLastBlock) cfg.lineMode

theorem awake_init (flashId : Nat) (mem : Nat → BitVec 8) (protectValue : Nat)
    (locks : Nat → Nat → Bool) : Awake (bkFlashDriverInit flashId mem protectValue locks) := by
  unfold bkFlashDriverInit bkFlashSetLineMode flashSetProtectType
  dsimp only
  cases hmode : (flashGetCurrentConfig flashId).lineMode with
  | two => exact ⟨rfl, fun hfour => absurd (hmode.symm.trans hfour) LineMode.noConfusion⟩
  | four =>
    dsimp only
    split
    · exact ⟨rfl, fun _ => ⟨rfl, fun _ => rfl⟩⟩
    · rename_i hquad
      exact ⟨rfl, fun _ => ⟨rfl, fun hval => absurd hval.symm hquad⟩⟩

/-- The chip locks its lower half under `protect_half`, which the table gives for
`FLASH_UNPROTECT_LAST_BLOCK` too. -/
def quadFlash : Flash :=
  bkFlashDriverInit 0xC84016 (fun _ => 0xFF) 0 fun value a => decide (value = 0x0E ∧ a < 0x200000)

theorem refused_calls_not_honest : ((bkFlashEraseSector quadFlash 0x400000).2 = .addrOutOfRange ∧
      quadFlash.ps = .awake ∧ (bkFlashEraseSector quadFlash 0x400000).1.ps = .sleeped ∧
      quadFlash.line.modeSel = 2 ∧
      (bkFlashEraseSector quadFlash 0x400000).1.line.modeSel = flashModeDual) ∧
    ((bkFlashWriteBytes quadFlash 0x3FFFF0 (fun _ => 0) 64).2 = .ok ∧
      (bkFlashWriteBytes quadFlash 0x3FFFF0 (fun _ => 0) 64).1.mem 0x3FFFF0 = 0xFF) ∧
    ((bkFlashWriteBytes quadFlash 0x11000 (fun _ => 0) 32).2 = .ok ∧
      (bkFlashWriteBytes quadFlash 0x11000 (fun _ => 0) 32).1.mem 0x11000 = 0xFF) ∧
    ¬ Honest quadFlash (.erase 0x400000) ∧
    ¬ Honest quadFlash (.write 0x3FFFF0 (fun _ => 0) 64) ∧
    ¬ Honest quadFlash (.write 0x11000 (fun _ => 0) 32) := by
  refine ⟨by decide, by decide, by decide, ?_, ?_, ?_⟩
  · rintro ⟨-, -, hps⟩
    exact absurd hps (by decide)
  · rintro ⟨hdone, -⟩
    exact absurd (hdone (by decide) 0 (by decide)).2 (by decide)
  · rintro ⟨hdone, -⟩
    exact absurd (hdone (by decide) 0 (by decide)).2 (by decide)

end BekenSoc.FlashDriver
