import BekenSoc.FlashCalls

namespace BekenSoc.FlashDriver

open CRuntime NorMemory List

variable {s : Flash} {buffer pb : Nat → BitVec 8} {fuel pos addr address len : Nat}

theorem readLoop_data (hfuel : len ≤ fuel) (haddr : len ≠ 0 → addr = address - address % 32)
    (hend : address + len ≤ 2 ^ 24) :
    (readLoop fuel s addr address len).2 = (range len).map fun i => s.mem (address + i) := by
  induction fuel generalizing s addr address len with
  | zero =>
    rw [Nat.le_zero.mp hfuel]
    rfl
  | succ fuel ih =>
    by_cases hlen : len = 0
    · rw [hlen]
      exact congrArg Prod.snd (if_pos rfl)
    · have hpos := turnLen_pos address hlen
      have hle := turnLen_le address len
      have hblock := turnLen_block address len
      rw [readLoop, if_neg hlen]
      dsimp only
      rw [addU32_of_lt (by omega : address + turnLen address len < 2 ^ 32), flashBytesCnt, ih]
      · have hsplit : len = turnLen address len + (len - turnLen address len) := by omega
        conv_rhs => rw [hsplit, range_add, map_append, map_map]
        congr 1
        · apply map_congr_left
          intro i hi
          have hi := mem_range.mp hi
          rw [readBlock, haddr hlen]
          dsimp only
          rw [addrReg_of_lt (by omega)]
          exact congrArg s.mem (by omega)
        · apply map_congr_left
          intro i _
          exact congrArg s.mem (Nat.add_assoc ..)
      · omega
      · exact turn_aligned hend (haddr hlen)
      · omega

theorem flashReadCommon_data (s : Flash) (hend : address + len ≤ 2 ^ 24) :
    (flashReadCommon s address len).2 = (range len).map fun i => s.mem (address + i) :=
  readLoop_data (Nat.le_refl len) (fun _ => andNot_addressMask address) hend

def Flash.Unlocked (s : Flash) (base n : Nat) : Prop := ∀ i < n, s.locked (base + i) = false

instance (s : Flash) (base n : Nat) : Decidable (s.Unlocked base n) :=
  inferInstanceAs (Decidable (∀ i < n, _))

theorem program_taken (h : s.Unlocked address len) (buffer : Nat → BitVec 8) :
    program s.mem address len (s.taken address buffer) = program s.mem address len buffer := by
  funext a
  unfold program
  split
  · rename_i ha
    have hunlocked := h (a - address) (by omega)
    rw [Flash.taken, hunlocked, if_neg Bool.false_ne_true]
  · rfl

/-- Inside the flash a read returns the bytes of its range.  A write to an unprotected range
clears the bits that are clear in its data and leaves all other bytes, and what was written to
erased bytes is read. -/
theorem block_transfers_exact (s : Flash) (buffer : Nat → BitVec 8) {address len : Nat}
    (hend : address + len ≤ s.size) :
    (flashReadCommon s address len).2 = (range len).map (fun i => s.mem (address + i)) ∧
      (s.Unlocked address len →
        (flashWriteCommon s buffer address len).1.mem = program s.mem address len buffer ∧
        ((∀ i < len, s.mem (address + i) = 0xFF) →
          (flashReadCommon (flashWriteCommon s buffer address len).1 address len).2 =
            (range len).map buffer)) := by
  have hsize := s.cfg.flashSize.bytes_le
  change s.size ≤ 0x800000 at hsize
  refine ⟨flashReadCommon_data s (by omega), fun hunlocked => ?_⟩
  have hmem : (flashWriteCommon s buffer address len).1.mem = program s.mem address len buffer := by
    by_cases hlt : address < s.size
    · rw [flashWriteCommon_mem s buffer hend hlt, program_taken hunlocked]
    · -- Only an empty range begins behind the last byte, and it is refused.
      have hzero : len = 0 := by omega
      have hmod : s.size % 4096 = 0 := s.cfg.flashSize.bytes_mod
      rw [hzero, program_zero, flashWriteCommon, andNot_addressMask]
      dsimp only
      rw [if_pos (.inl (by omega))]
  refine ⟨hmem, fun herased => ?_⟩
  rw [flashReadCommon_data _ (by omega), hmem]
  apply map_congr_left
  intro i hi
  have hi := mem_range.mp hi
  rw [program_of_mem buffer hi, herased i hi, BitVec.and_comm, and_allOnes]

theorem block_transfers_exact_unaligned :
    (flashReadCommon (flashWriteCommon quadFlash (fun _ => 0x5A) 0x200005 40).1 0x200005 40).2 =
      (range 40).map fun _ => 0x5A :=
  ((block_transfers_exact quadFlash (fun _ => 0x5A) (by decide)).2 (by decide)).2 fun _ _ => rfl

theorem program_mem_turnBlock (block : Nat → BitVec 8) (haddr : addr < 2 ^ 24) (p : Nat) :
    FlashOp.program p ∈ (programBlock (turnBlock s pb addr len).1 addr block).ops ↔
      .program p ∈ s.ops ∨ p = addr := by
  change _ ∈ (turnBlock s pb addr len).1.ops ++ [.program (addrReg addr)] ↔ _
  rw [addrReg_of_lt haddr, turnBlock]
  split <;> simp [readBlock, Flash.log]

theorem program_mem_writeLoop (hfuel : len ≤ fuel)
    (haddr : len ≠ 0 → addr = address - address % 32) (hend : address + len ≤ 2 ^ 24) (p : Nat) :
    FlashOp.program p ∈ (writeLoop fuel s buffer pos addr address len pb).ops ↔
      .program p ∈ s.ops ∨ ∃ i < len, p = address + i - (address + i) % 32 := by
  induction fuel generalizing s pos addr address len pb with
  | zero =>
    rw [Nat.le_zero.mp hfuel]
    simp [writeLoop]
  | succ fuel ih =>
    by_cases hlen : len = 0
    · simp [writeLoop, hlen]
    · have hpos := turnLen_pos address hlen
      have hle := turnLen_le address len
      have hblock := turnLen_block address len
      rw [writeLoop_succ hlen, addU32_of_lt (by omega : address + turnLen address len < 2 ^ 32),
        ih (by omega) ?_ (by omega), program_mem_turnBlock _ (by have := haddr hlen; omega),
        or_assoc, haddr hlen]
      · refine or_congr_right ⟨?_, ?_⟩
        · rintro (rfl | ⟨i, hi, rfl⟩)
          · exact ⟨0, by omega, rfl⟩
          · exact ⟨turnLen address len + i, by omega, by rw [Nat.add_assoc]⟩
        · rintro ⟨i, hi, rfl⟩
          by_cases hfirst : i < turnLen address len
          · exact .inl (by omega)
          · refine .inr ⟨i - turnLen address len, by omega, ?_⟩
            rw [Nat.add_assoc, Nat.add_sub_cancel' (Nat.not_lt.mp hfirst)]
      · exact turn_aligned hend (haddr hlen)

theorem program_mem_writeCommon (hops : s.ops = []) (hlt : address < s.size) (p : Nat) :
    FlashOp.program p ∈ (flashWriteCommon s buffer address len).1.ops ↔
      address - address % 32 + len ≤ s.size ∧ ∃ i < len, p = address + i - (address + i) % 32 := by
  have hsize := s.cfg.flashSize.bytes_le
  change s.size ≤ 0x800000 at hsize
  rw [flashWriteCommon, andNot_addressMask]
  dsimp only
  by_cases hfits : address - address % 32 + len ≤ s.size
  · have hrange : ¬ (s.size ≤ address - address % 32 ∨ s.size < len ∨
        s.size < addU32 (address - address % 32) len) := by
      rw [addU32_of_lt (by omega)]
      omega
    rw [if_neg hrange, program_mem_writeLoop (Nat.le_refl len) (fun _ => rfl) (by omega),
      and_iff_right hfits]
    refine or_iff_right ?_
    split <;> simp [readBlock, Flash.log, hops]
  · have hrange : s.size ≤ address - address % 32 ∨ s.size < len ∨
        s.size < addU32 (address - address % 32) len := by
      by_cases hlen : s.size < len
      · exact .inr (.inl hlen)
      · rw [addU32_of_lt (by omega)]
        omega
    rw [if_pos hrange, hops]
    simp [hfits]

theorem program_mem_writeBytes (s : Flash) (address size : Nat) (userBuf : Nat → BitVec 8)
    (p : Nat) :
    FlashOp.program p ∈ (bkFlashWriteBytes { s with ops := [] } address userBuf size).1.ops ↔
      address < s.size ∧ address - address % 32 + size ≤ s.size ∧
        ∃ i < size, p = address + i - (address + i) % 32 := by
  have hsize : (flashPsSuspend { s with ops := [] } .normal).size = s.size := suspend_size _
  have hops : (flashPsSuspend { s with ops := [] } .normal).ops = [] := suspend_ops _
  rw [bkFlashWriteBytes]
  dsimp only
  rw [hsize]
  split
  · rename_i hout
    rw [hops]
    exact iff_of_false (not_mem_nil) fun h => absurd h.1 (Nat.not_lt.mpr hout)
  · rename_i hin
    have hlt := Nat.not_le.mp hin
    rw [resume_ops, program_mem_writeCommon hops (hsize ▸ hlt), hsize, and_iff_right hlt]

/-- A write programs no block behind the flash, exactly if its range is refused or ends inside
the flash.  The range is measured from the start of its first block. -/
theorem programs_inside_iff (s : Flash) (address size : Nat) (userBuf : Nat → BitVec 8) :
    (∀ p, FlashOp.program p ∈
        (bkFlashWriteBytes { s with ops := [] } address userBuf size).1.ops → p < s.size) ↔
      (s.size ≤ address ∨ s.size < address - address % 32 + size ∨ address + size ≤ s.size) := by
  have hmod : s.size % 4096 = 0 := s.cfg.flashSize.bytes_mod
  simp only [program_mem_writeBytes]
  constructor
  · intro h
    by_contra hrange
    have hlast := h (address + (size - 1) - (address + (size - 1)) % 32)
      ⟨by omega, by omega, size - 1, by omega, rfl⟩
    omega
  · rintro hrange p ⟨hlt, hfits, i, hi, rfl⟩
    omega

-- The second byte is behind the chip, and a block is programmed there.
theorem write_leaves_flash : quadFlash.size = 0x400000 ∧
      (bkFlashWriteBytes quadFlash 0x3FFFFF (fun _ => 0) 2).1.ops =
        [.read 0x3FFFE0, .read 0x3FFFE0, .program 0x3FFFE0, .read 0x400000, .program 0x400000] := by
  decide

def Fits (s : Flash) : Call → Prop
  | .write address _ len => address < s.size ∧ address + len ≤ s.size ∧ s.Unlocked address len
  | .erase address =>
    address < s.size ∧ s.Unlocked (address - address % flashSectorSize) flashSectorSize

/-- What a call does to the bytes of the chip, without blocks and registers. -/
def effect (mem : Nat → BitVec 8) : Call → Nat → BitVec 8
  | .write address userBuf len => program mem address len userBuf
  | .erase address => erase mem (address - address % flashSectorSize) flashSectorSize

theorem run_effect {call : Call} (h : Fits s call) : (call.run s).1.mem = effect s.mem call ∧
      (call.run s).1.size = s.size ∧ (call.run s).1.locked = s.locked := by
  have hsize := s.cfg.flashSize.bytes_le
  change s.size ≤ 0x800000 at hsize
  cases call with
  | write address userBuf len =>
    obtain ⟨hlt, hend, hunlocked⟩ := h
    have htaken : (flashPsSuspend s .normal).taken = s.taken := by
      unfold Flash.taken
      rw [suspend_locked]
    rw [← suspend_size s] at hlt hend
    rw [Call.run, bkFlashWriteBytes, if_neg (Nat.not_le.mpr hlt)]
    dsimp only
    rw [resume_mem, flashWriteCommon_mem _ _ hend hlt, suspend_mem, resume_size, resume_locked,
      htaken, program_taken hunlocked]
    have hsame := sameDevice_flashWriteCommon (flashPsSuspend s .normal) userBuf address len
    exact ⟨rfl, (congrArg (·.flashSize.bytes) hsame.cfg).trans (suspend_size s),
      hsame.locked.trans (suspend_locked s)⟩
  | erase address =>
    obtain ⟨hlt, hunlocked⟩ := h
    have hmask : (address &&& flashEraseSectorMask) = address - address % flashSectorSize := by
      rw [and_eraseSectorMask, flashSectorSize]
      omega
    rw [Call.run, bkFlashEraseSector, hmask, if_neg (by rw [suspend_size]; omega)]
    dsimp only
    rw [resume_mem, resume_size, resume_locked, addrReg_of_lt (by omega)]
    refine ⟨?_, suspend_size s, suspend_locked s⟩
    rw [eraseSector, suspend_mem, suspend_locked]
    funext a
    dsimp only [effect]
    split
    · rename_i hlocked
      refine (if_neg fun ha => ?_).symm
      have hopen := hunlocked (a - (address - address % flashSectorSize)) (by omega)
      rw [Nat.add_sub_cancel' ha.1, hlocked] at hopen
      cases hopen
    · rfl

def runCalls (s : Flash) (calls : List Call) : Flash := calls.foldl (fun s c => (c.run s).1) s

theorem runCalls_effect (calls : List Call) (h : ∀ call ∈ calls, Fits s call) :
    (runCalls s calls).mem = calls.foldl effect s.mem ∧ (runCalls s calls).size = s.size := by
  induction calls generalizing s with
  | nil => exact ⟨rfl, rfl⟩
  | cons call calls ih =>
    obtain ⟨hcall, hcalls⟩ := forall_mem_cons.mp h
    obtain ⟨hmem, hsize, hlocked⟩ := run_effect hcall
    rw [foldl_cons, ← hmem, ← hsize]
    refine ih fun later hlater => ?_
    have hfits := hcalls later hlater
    unfold Fits Flash.Unlocked at hfits ⊢
    rwa [hsize, hlocked]

/-- After every run of calls inside the chip, on unlocked bytes, a read returns the bytes of the
plain NOR memory. -/
theorem read_after_calls (calls : List Call) (h : ∀ call ∈ calls, Fits s call)
    (hlt : address < s.size) (hend : address + len ≤ s.size) :
    (bkFlashReadBytes (runCalls s calls) address len).2 =
      ((range len).map fun i => calls.foldl effect s.mem (address + i), .ok) := by
  obtain ⟨hmem, hsize⟩ := runCalls_effect calls h
  have hbytes := s.cfg.flashSize.bytes_le
  change s.size ≤ 0x800000 at hbytes
  rw [bkFlashReadBytes, if_neg (by omega)]
  dsimp only
  rw [flashReadCommon_data _ (by omega), hmem]

theorem read_after_calls_two : (bkFlashReadBytes
      (runCalls quadFlash [.erase 0x201FFF, .write 0x201FFE (fun _ => 0x5A) 4]) 0x201FFE 4).2 =
    ([0x5A, 0x5A, 0x5A, 0x5A], .ok) := by
  refine read_after_calls (s := quadFlash) _ ?_ (by decide) (by decide)
  have hunlocked : ∀ base n, 0x200000 ≤ base → quadFlash.Unlocked base n := by
    intro base n hbase i hi
    exact decide_eq_false (by omega)
  simp only [forall_mem_cons, Fits]
  exact ⟨⟨by decide, hunlocked _ _ (by decide)⟩, ⟨by decide, by decide, hunlocked _ _ (by decide)⟩,
    fun _ h => absurd h not_mem_nil⟩

end BekenSoc.FlashDriver
