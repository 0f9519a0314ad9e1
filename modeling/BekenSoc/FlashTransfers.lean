import BekenSoc.FlashDriver

namespace BekenSoc.FlashDriver

open CRuntime NorMemory

variable {s : Flash} {buffer pb : Nat → BitVec 8} {fuel pos addr address len : Nat}
variable {hi lo : Nat}

theorem turnLen_pos (address : Nat) (hlen : len ≠ 0) : 0 < turnLen address len := by
  unfold turnLen flashBytesCnt
  omega

theorem turnLen_le (address len : Nat) : turnLen address len ≤ len := Nat.min_le_right _ _

theorem turnLen_block (address len : Nat) : address % 32 + turnLen address len ≤ 32 := by
  unfold turnLen flashBytesCnt
  omega

theorem turn_aligned {addr address len : Nat} (hend : address + len ≤ 2 ^ 24)
    (haddr : addr = address - address % 32) (hleft : len - turnLen address len ≠ 0) :
    addU32 addr 32 = address + turnLen address len - (address + turnLen address len) % 32 := by
  rw [addU32_of_lt (by omega), haddr]
  unfold turnLen flashBytesCnt at *
  omega

def Neutral (mem block : Nat → BitVec 8) (addr : Nat) : Prop :=
  ∀ i < 32, mem (addr + i) &&& block i = mem (addr + i)

theorem neutral_allOnes (mem : Nat → BitVec 8) (addr : Nat) :
    Neutral mem (fun _ => 0xFF) addr := fun _ _ => and_allOnes _

theorem neutral_readBlock (s : Flash) {addr : Nat} (haddr : addr < 2 ^ 24) :
    Neutral s.mem (readBlock s addr).2 addr := by
  intro i _
  change s.mem (addr + i) &&& s.mem (addrReg addr + i) = s.mem (addr + i)
  rw [addrReg_of_lt haddr, BitVec.and_self]

theorem programBlock_mem (buffer : Nat → BitVec 8) (pos : Nat)
    (hneutral : Neutral s.mem pb (address - address % 32)) (hlt : address < 2 ^ 24) {k : Nat}
    (hk : address % 32 + k ≤ 32) :
    (programBlock s (address - address % 32) (fillBlock pb buffer pos address k)).mem =
      program s.mem address k (s.taken address fun i => buffer (pos + i)) := by
  have hmod : address % 32 ≤ address := Nat.mod_le _ _
  change program s.mem (addrReg (address - address % 32)) 32 _ = _
  rw [addrReg_of_lt (by omega)]
  have hoffset : address - (address - address % 32) = address % 32 := by omega
  apply program_window (Nat.sub_le _ _) (by omega)
  · intro i hi
    have hindex : address % 32 + i - address % 32 = i := by omega
    have hbyte : address - address % 32 + (address % 32 + i) = address + i := by omega
    have hfill : fillBlock pb buffer pos address k (address % 32 + i) = buffer (pos + i) := by
      rw [fillBlock, flashBytesCnt, if_pos (by omega), hindex]
    rw [hoffset, Flash.taken, Flash.taken, hbyte, hfill]
  · intro i hi hout
    rw [hoffset] at hout
    rw [Flash.taken]
    split
    · exact and_allOnes _
    · rw [fillBlock, flashBytesCnt, if_neg hout]
      exact hneutral i hi

def turnBlock (s : Flash) (pb : Nat → BitVec 8) (addr len : Nat) : Flash × (Nat → BitVec 8) :=
  if len < flashBytesCnt then readBlock s addr else (s, pb)

theorem turnBlock_mem (s : Flash) (pb : Nat → BitVec 8) (addr len : Nat) :
    (turnBlock s pb addr len).1.mem = s.mem := by
  unfold turnBlock
  split <;> rfl

theorem neutral_turnBlock (haddr : addr < 2 ^ 24) (h : Neutral s.mem pb addr) (len : Nat) :
    Neutral (turnBlock s pb addr len).1.mem (turnBlock s pb addr len).2 addr := by
  unfold turnBlock
  split
  · exact neutral_readBlock s haddr
  · exact h

structure SameDevice (s s' : Flash) : Prop where
  cfg : s'.cfg = s.cfg
  line : s'.line = s.line
  ps : s'.ps = s.ps
  locked : s'.locked = s.locked

theorem SameDevice.trans {s₁ s₂ s₃ : Flash} (h : SameDevice s₁ s₂) (h' : SameDevice s₂ s₃) :
    SameDevice s₁ s₃ :=
  ⟨h'.cfg.trans h.cfg, h'.line.trans h.line, h'.ps.trans h.ps, h'.locked.trans h.locked⟩

theorem sameDevice_turnBlock (s : Flash) (pb : Nat → BitVec 8) (addr len : Nat) :
    SameDevice s (turnBlock s pb addr len).1 := by
  unfold turnBlock
  split <;> exact ⟨rfl, rfl, rfl, rfl⟩

theorem writeLoop_succ (hlen : len ≠ 0) : writeLoop (fuel + 1) s buffer pos addr address len pb =
      writeLoop fuel (programBlock (turnBlock s pb addr len).1 addr
          (fillBlock (turnBlock s pb addr len).2 buffer pos address (turnLen address len)))
        buffer (pos + turnLen address len) (addU32 addr 32)
        (addU32 address (turnLen address len)) (len - turnLen address len) fun _ => 0xFF :=
  if_neg hlen

theorem writeLoop_mem (hfuel : len ≤ fuel) (haddr : len ≠ 0 → addr = address - address % 32)
    (hend : address + len ≤ 2 ^ 24) (hneutral : len ≠ 0 → Neutral s.mem pb addr) :
    (writeLoop fuel s buffer pos addr address len pb).mem =
      program s.mem address len (s.taken address fun i => buffer (pos + i)) := by
  induction fuel generalizing s pos addr address len pb with
  | zero =>
    have hzero : len = 0 := Nat.le_zero.mp hfuel
    rw [hzero, program_zero]
    rfl
  | succ fuel ih =>
    by_cases hlen : len = 0
    · rw [hlen, program_zero]
      exact congrArg Flash.mem (if_pos rfl)
    · have hpos := turnLen_pos address hlen
      have hle := turnLen_le address len
      have hblock := neutral_turnBlock (by omega) (haddr hlen ▸ hneutral hlen) len
      have hturn := programBlock_mem buffer pos hblock (by omega) (turnLen_block address len)
      have htaken : (turnBlock s pb addr len).1.taken = s.taken := by
        unfold Flash.taken
        rw [(sameDevice_turnBlock s pb addr len).locked]
      rw [turnBlock_mem, ← haddr hlen, htaken] at hturn
      rw [writeLoop_succ hlen, addU32_of_lt (by omega : address + turnLen address len < 2 ^ 32), ih]
      · rw [hturn]
        have hjoin := program_program s.mem address (turnLen address len)
          (len - turnLen address len) (s.taken address fun i => buffer (pos + i))
        rw [Nat.add_sub_cancel' hle] at hjoin
        rw [← hjoin]
        change program _ _ _ ((turnBlock s pb addr len).1.taken _ _) = _
        rw [htaken]
        unfold Flash.taken
        simp only [Nat.add_assoc]
      · omega
      · exact turn_aligned hend (haddr hlen)
      · omega
      · exact fun _ => neutral_allOnes _ _

theorem sameDevice_writeLoop (fuel : Nat) (s : Flash) (buffer : Nat → BitVec 8)
    (pos addr address len : Nat) (pb : Nat → BitVec 8) :
    SameDevice s (writeLoop fuel s buffer pos addr address len pb) := by
  induction fuel generalizing s pos addr address len pb with
  | zero => exact ⟨rfl, rfl, rfl, rfl⟩
  | succ fuel ih =>
    by_cases hlen : len = 0
    · rw [writeLoop, if_pos hlen]
      exact ⟨rfl, rfl, rfl, rfl⟩
    · rw [writeLoop_succ hlen]
      refine (sameDevice_turnBlock s pb addr len).trans (SameDevice.trans ?_ (ih ..))
      exact ⟨rfl, rfl, rfl, rfl⟩

def FlashOp.base : FlashOp → Nat
  | .read addr => addr
  | .program addr => addr
  | .erase addr => addr

def FlashOp.span : FlashOp → Nat
  | .read _ => flashBytesCnt
  | .program _ => flashBytesCnt
  | .erase _ => flashSectorSize

def FlashOp.Inside (lo hi : Nat) (op : FlashOp) : Prop := lo ≤ op.base ∧ op.base + op.span ≤ hi

def OpsInside (lo hi : Nat) (s s' : Flash) : Prop := ∀ op ∈ s'.ops, op ∈ s.ops ∨ op.Inside lo hi

theorem OpsInside.refl (s : Flash) : OpsInside lo hi s s := fun _ => .inl

theorem OpsInside.trans {s₁ s₂ s₃ : Flash} (h : OpsInside lo hi s₁ s₂)
    (h' : OpsInside lo hi s₂ s₃) : OpsInside lo hi s₁ s₃ := by
  intro op hop
  rcases h' op hop with hold | hinside
  · exact h op hold
  · exact .inr hinside

theorem opsInside_log {s s' : Flash} (op : FlashOp) (hop : op.Inside lo hi)
    (h : s'.ops = s.ops ++ [op]) : OpsInside lo hi s s' := by
  intro op' hop'
  rw [h, List.mem_append, List.mem_singleton] at hop'
  rcases hop' with hold | rfl
  · exact .inl hold
  · exact .inr hop

structure Window (lo hi address len : Nat) : Prop where
  lo_mod : lo % 32 = 0
  hi_mod : hi % 32 = 0
  lo_le : lo ≤ address
  le_hi : address + len ≤ hi
  hi_le : hi ≤ 2 ^ 24

variable (h : Window lo hi address len)
include h

theorem Window.block (hlen : len ≠ 0) :
    lo ≤ addrReg (address - address % 32) ∧ addrReg (address - address % 32) + 32 ≤ hi := by
  obtain ⟨hlo, hhi, hle, hend, hmax⟩ := h
  rw [addrReg_of_lt (by omega)]
  omega

theorem Window.turn : Window lo hi (address + turnLen address len) (len - turnLen address len) := by
  have hle := turnLen_le address len
  obtain ⟨hlo, hhi, hlow, hend, hmax⟩ := h
  exact ⟨hlo, hhi, by omega, by omega, hmax⟩

theorem opsInside_writeLoop (haddr : len ≠ 0 → addr = address - address % 32) :
    OpsInside lo hi s (writeLoop fuel s buffer pos addr address len pb) := by
  induction fuel generalizing s pos addr address len pb with
  | zero => exact .refl s
  | succ fuel ih =>
    by_cases hlen : len = 0
    · rw [writeLoop, if_pos hlen]
      exact .refl s
    · have hblock := h.block hlen
      rw [← haddr hlen] at hblock
      have hread : OpsInside lo hi s (turnBlock s pb addr len).1 := by
        unfold turnBlock
        split
        · exact opsInside_log (.read _) hblock rfl
        · exact .refl s
      have hend := h.le_hi.trans h.hi_le
      have hle := turnLen_le address len
      rw [writeLoop_succ hlen, addU32_of_lt (by omega : address + turnLen address len < 2 ^ 32)]
      exact (hread.trans (opsInside_log (.program _) hblock rfl)).trans
        (ih h.turn (turn_aligned hend (haddr hlen)))

theorem opsInside_readLoop (haddr : len ≠ 0 → addr = address - address % 32) :
    OpsInside lo hi s (readLoop fuel s addr address len).1 := by
  induction fuel generalizing s addr address len with
  | zero => exact .refl s
  | succ fuel ih =>
    by_cases hlen : len = 0
    · rw [readLoop, if_pos hlen]
      exact .refl s
    · have hblock := h.block hlen
      rw [← haddr hlen] at hblock
      have hend := h.le_hi.trans h.hi_le
      have hle := turnLen_le address len
      rw [readLoop, if_neg hlen]
      dsimp only
      rw [addU32_of_lt (by omega : address + turnLen address len < 2 ^ 32)]
      exact OpsInside.trans (opsInside_log (.read _) hblock rfl)
        (ih h.turn (turn_aligned hend (haddr hlen)))

end BekenSoc.FlashDriver
