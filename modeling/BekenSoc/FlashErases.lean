import BekenSoc.FlashPartition

namespace BekenSoc.FlashErases

open CRuntime FlashDriver FlashPartition

def flashEraseSector (s : Flash) (address : Nat) : Flash :=
  let eraseAddr := address &&& flashEraseSectorMask
  if s.size ≤ eraseAddr then s else eraseSector s (addrReg eraseAddr)

def bkFlashErase (partitionInfo : PartitionInfo) (s : Flash) (offSet size : Nat) : Flash :=
  sectorLoop flashEraseSector (sectorCount offSet size) s partitionInfo.partitionStartAddr
    (startSector offSet)

def bkFlashAbsAddrErase (s : Flash) (flashOffset size : Nat) : Flash :=
  sectorLoop flashEraseSector (sectorCount flashOffset size) s 0 (startSector flashOffset)

def ioTFlashErase (s : Flash) (flashOffset size : Nat) : Flash :=
  sectorLoop (fun s address => (bkFlashEraseSector s address).1) (sectorCount flashOffset size) s 0
    (startSector flashOffset)

inductive EraseFunction
  | bkFlashErase
  | bkFlashAbsAddrErase
  | bkFlashPartitionErase
  | ioTFlashErase

def EraseFunction.run (p : PartitionInfo) (s : Flash) (offset size : Nat) : EraseFunction → Flash
  | .bkFlashErase => FlashErases.bkFlashErase p s offset size
  | .bkFlashAbsAddrErase => FlashErases.bkFlashAbsAddrErase s offset size
  | .bkFlashPartitionErase => (FlashPartition.bkFlashPartitionErase (some p) 0 s offset size).flash
  | .ioTFlashErase => FlashErases.ioTFlashErase s offset size

def EraseFunction.Addresses (p : PartitionInfo) (s : Flash) : EraseFunction → Prop
  | .bkFlashErase | .bkFlashPartitionErase =>
    ∃ supportMatter partition, bkFlashPartitionGetInfo supportMatter partition = some p
  | .bkFlashAbsAddrErase | .ioTFlashErase => p = ⟨0, s.size⟩

def ErasesExactly (p : PartitionInfo) (offset size : Nat) (ops : List FlashOp) : Prop :=
  ∀ op, op ∈ ops ↔ ∃ i < size, op = .erase (p.partitionStartAddr + (offset + i) / 4096 * 4096)

variable {p : PartitionInfo} {s : Flash} {offset size : Nat} {fn : EraseFunction}

theorem flashEraseSector_erases : ErasesSector flashEraseSector := by
  refine ⟨fun s address => ?_, fun s address => ?_⟩
  · have hreg : addrReg (address &&& flashEraseSectorMask) = address &&& flashEraseSectorMask := by
      rw [and_eraseSectorMask]
      apply addrReg_of_lt
      omega
    simp only [flashEraseSector, hreg]
    split
    · rw [if_neg (by omega)]
    · rw [if_pos (by omega)]
      rfl
  · rw [flashEraseSector]
    split <;> rfl

theorem aligned_of_addresses (h : fn.Addresses p s) :
    p.partitionStartAddr % 4096 = 0 ∧ p.partitionLength % 4096 = 0 := by
  have hsize : s.size % 4096 = 0 := s.cfg.flashSize.bytes_mod
  cases fn with
  | bkFlashErase | bkFlashPartitionErase =>
    obtain ⟨_, _, hp⟩ := h
    exact ⟨(placed_of_getInfo hp).start_mod, (placed_of_getInfo hp).length_mod⟩
  | bkFlashAbsAddrErase | ioTFlashErase =>
    cases h
    exact ⟨rfl, hsize⟩

theorem run_eq (h : fn.Addresses p s) (offset size : Nat) :
    ∃ eraseSector, ErasesSector eraseSector ∧ fn.run p { s with ops := [] } offset size =
        sectorLoop eraseSector (sectorCount offset size) { s with ops := [] }
          p.partitionStartAddr (startSector offset) := by
  cases fn with
  | bkFlashErase => exact ⟨_, flashEraseSector_erases, rfl⟩
  | bkFlashAbsAddrErase =>
    cases h
    exact ⟨_, flashEraseSector_erases, rfl⟩
  | bkFlashPartitionErase => exact ⟨_, bkFlashEraseSector_erases, rfl⟩
  | ioTFlashErase =>
    cases h
    exact ⟨_, bkFlashEraseSector_erases, rfl⟩

theorem mem_ops_iff (h : fn.Addresses p s) (op : FlashOp) :
    op ∈ (fn.run p { s with ops := [] } offset size).ops ↔ ∃ k < sectorCount offset size,
      sectorAddr p.partitionStartAddr (startSector offset + k) < s.size ∧
        op = .erase (sectorAddr p.partitionStartAddr (startSector offset + k)) := by
  obtain ⟨eraseSector, herases, hrun⟩ := run_eq h offset size
  rw [hrun, mem_ops_sectorLoop herases (aligned_of_addresses h).1]
  exact or_iff_right List.not_mem_nil

/-- Inside the area the erased sectors are those of the range, exactly if the range has a byte,
or begins at a sector other than the first. -/
theorem erases_exactly_iff (h : fn.Addresses p s) (hchip : p.limit ≤ s.size)
    (hend : offset + size ≤ p.partitionLength) :
    ErasesExactly p offset size (fn.run p { s with ops := [] } offset size).ops ↔
      0 < size ∨ offset ≠ 0 ∧ offset % 4096 = 0 := by
  have hsize := s.cfg.flashSize.bytes_le
  have hpos := s.cfg.flashSize.le_bytes
  change s.size ≤ 0x800000 at hsize
  change 0x100000 ≤ s.size at hpos
  obtain ⟨hstart, hlength⟩ := aligned_of_addresses h
  rw [PartitionInfo.limit] at hchip
  have hsector : ∀ k, offset / 4096 + k < 0x800 →
      sectorAddr p.partitionStartAddr (startSector offset + k) =
        p.partitionStartAddr + (offset / 4096 + k) * 4096 := by
    intro k hk
    rw [sectorAddr, startSector, Nat.shiftRight_eq_div_pow]
    omega
  by_cases hempty : size = 0
  · subst hempty
    -- No byte is in the range, so it has to be left without a command.
    have hnone : ErasesExactly p offset 0 (fn.run p { s with ops := [] } offset 0).ops ↔
        ∀ k < sectorCount offset 0,
          ¬ sectorAddr p.partitionStartAddr (startSector offset + k) < s.size := by
      constructor
      · intro hexact k hk hlt
        obtain ⟨i, hi, -⟩ := (hexact _).mp ((mem_ops_iff h _).mpr ⟨k, hk, hlt, rfl⟩)
        exact absurd hi (Nat.not_lt_zero i)
      · intro hout op
        constructor
        · intro hop
          obtain ⟨k, hk, hlt, -⟩ := (mem_ops_iff h op).mp hop
          exact absurd hlt (hout k hk)
        · rintro ⟨i, hi, -⟩
          exact absurd hi (Nat.not_lt_zero i)
    rw [hnone]
    by_cases hzero : offset = 0
    · subst hzero
      rw [sectorCount_zero]
      refine iff_of_false (fun hout => ?_) (by omega)
      refine hout ((2 ^ 24 - p.partitionStartAddr) / 4096) (by omega) ?_
      rw [sectorAddr, startSector, Nat.zero_shiftRight]
      omega
    · rw [sectorCount_empty hzero (by omega)]
      split
      · exact iff_of_true (fun k hk => absurd hk (Nat.not_lt_zero k)) (by omega)
      · refine iff_of_false (fun hout => hout 0 Nat.one_pos ?_) (by omega)
        rw [hsector 0 (by omega)]
        omega
  · refine iff_of_true (fun op => ?_) (by omega)
    rw [mem_ops_iff h, sectorCount_of_range (by omega) (by omega)]
    constructor
    · rintro ⟨k, hk, -, rfl⟩
      rw [hsector k (by omega)]
      by_cases hfirst : k = 0
      · exact ⟨0, by omega, by rw [hfirst]; rfl⟩
      · refine ⟨(offset / 4096 + k) * 4096 - offset, by omega, congrArg FlashOp.erase ?_⟩
        omega
    · rintro ⟨i, hi, rfl⟩
      refine ⟨(offset + i) / 4096 - offset / 4096, by omega, ?_⟩
      rw [hsector _ (by omega)]
      exact ⟨by omega, congrArg FlashOp.erase (by omega)⟩

theorem erases_exactly_iff_two : ErasesExactly ⟨0, 0x400000⟩ 4095 2
      (EraseFunction.ioTFlashErase.run ⟨0, 0x400000⟩ quadFlash 4095 2).ops :=
  have harea : EraseFunction.ioTFlashErase.Addresses ⟨0, 0x400000⟩ quadFlash := rfl
  (erases_exactly_iff harea (by decide) (by decide)).mpr (.inl Nat.two_pos)

-- Each function erases the sector of the offset, though no byte of it is in the range.
theorem empty_range_erases :
    let ops := (EraseFunction.bkFlashPartitionErase.run ⟨0, 0x11000⟩ quadFlash 5 0).ops
    ops = [.erase 0] ∧ ¬ ErasesExactly ⟨0, 0x11000⟩ 5 0 ops := by
  intro ops
  have hops : ops = [.erase 0] := by decide
  refine ⟨hops, fun hexact => ?_⟩
  rw [hops] at hexact
  obtain ⟨i, hi, -⟩ := (hexact (.erase 0)).mp (List.mem_singleton_self _)
  exact absurd hi (Nat.not_lt_zero i)

end BekenSoc.FlashErases
