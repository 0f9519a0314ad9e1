import BekenSoc.FlashCalls

/-!
The logical partitions of `flash_partition.c` over the flash driver.
-/

namespace BekenSoc.FlashPartition

open CRuntime FlashDriver List Nat Option

structure PartitionInfo where
  partitionStartAddr : Nat
  partitionLength : Nat
  deriving DecidableEq

def PartitionInfo.limit (p : PartitionInfo) : Nat := p.partitionStartAddr + p.partitionLength

def bkPartitionMax : Nat := 8

def bk7256Partitions (supportMatter : Bool) : Nat → PartitionInfo
  | 0 => ⟨0x00000000, 0x11000⟩
  | 1 => ⟨0x11000, 0x1CB000⟩
  | 2 => ⟨0x253000, 0x187000⟩
  | 3 => ⟨0x1DC000, 0x77000⟩
  | 4 => if supportMatter then ⟨0x3DA000, 0x15000⟩ else ⟨0, 0⟩
  | 5 => ⟨0x3FE000, 0x1000⟩
  | 6 => ⟨0x3FF000, 0x1000⟩
  | 7 => if supportMatter then ⟨0x3EF000, 0xF000⟩ else ⟨0x3DA000, 0x24000⟩
  | _ => ⟨0, 0⟩

def bkFlashPartitionGetInfo (supportMatter : Bool) (partition : Int) : Option PartitionInfo :=
  if 0 ≤ partition ∧ partition < bkPartitionMax then
    some (bk7256Partitions supportMatter partition.toNat)
  else none

structure Outcome where
  flash : Flash
  ret : FlashRet
  /-- the fields of the entry were read through a `NULL` pointer -/
  readsNull : Bool
  out : List (BitVec 8)

def sectorLoop (eraseSector : Flash → Nat → Flash) : Nat → Flash → Nat → Nat → Flash
  | 0, s, _, _ => s
  | n + 1, s, startAddr, i =>
    sectorLoop eraseSector n (eraseSector s (addU32 startAddr ((i <<< 12) % 2 ^ 32))) startAddr
      (i + 1)

def startSector (offset : Nat) : Nat := offset >>> 12

def endSector (offset size : Nat) : Nat := subU32 (addU32 offset size) 1 >>> 12

def sectorCount (offset size : Nat) : Nat := endSector offset size + 1 - startSector offset

/-- `nullWord` is what a read of `partition_start_addr` through `NULL` gives. -/
def bkFlashPartitionErase (info : Option PartitionInfo) (nullWord : Nat) (s : Flash)
    (offset size : Nat) : Outcome :=
  let startAddr := (info.map PartitionInfo.partitionStartAddr).getD nullWord
  ⟨sectorLoop (fun s address => (bkFlashEraseSector s address).1) (sectorCount offset size) s
      startAddr (startSector offset), .ok,
    info.isNone && decide (0 < sectorCount offset size), []⟩

def bkFlashPartitionWrite (info : Option PartitionInfo) (s : Flash)
    (buffer : Option (Nat → BitVec 8)) (offset bufferLen : Nat) : Outcome :=
  match buffer, info with
  | none, _ => ⟨s, .nullParam, false, []⟩
  | some _, none => ⟨s, .partitionNotFound, false, []⟩
  | some bytes, some p =>
    ⟨(bkFlashWriteBytes s (addU32 p.partitionStartAddr offset) bytes bufferLen).1, .ok, false, []⟩

def bkFlashPartitionRead (info : Option PartitionInfo) (s : Flash) (outBuffer : Bool)
    (offset bufferLen : Nat) : Outcome :=
  match outBuffer, info with
  | false, _ => ⟨s, .nullParam, false, []⟩
  | true, none => ⟨s, .partitionNotFound, false, []⟩
  | true, some p =>
    let r := bkFlashReadBytes s (addU32 p.partitionStartAddr offset) bufferLen
    ⟨r.1, .ok, false, r.2.1⟩

inductive Request
  | erase
  /-- the buffer may be `NULL` -/
  | write (buffer : Option (Nat → BitVec 8))
  | read (outBuffer : Bool)

def Request.run (info : Option PartitionInfo) (nullWord : Nat) (s : Flash) (offset size : Nat) :
    Request → Outcome
  | .erase => bkFlashPartitionErase info nullWord { s with ops := [] } offset size
  | .write buffer => bkFlashPartitionWrite info { s with ops := [] } buffer offset size
  | .read outBuffer => bkFlashPartitionRead info { s with ops := [] } outBuffer offset size

/-- The commands stay in the partition, with an error for a request that leaves it; a `NULL`
entry is refused without a command and without a read through it. -/
structure Confined (info : Option PartitionInfo) (offset size : Nat) (o : Outcome) : Prop where
  pointer : o.readsNull = false
  refused : info = none → o.ret ≠ .ok ∧ o.flash.ops = []
  inside : ∀ p ∈ info, ∀ op ∈ o.flash.ops, op.Inside p.partitionStartAddr p.limit
  error : ∀ p ∈ info, ∀ i < size, p.partitionLength ≤ offset + i → o.ret ≠ .ok

def emptySector (p : PartitionInfo) (offset : Nat) : Nat :=
  (p.partitionStartAddr + (offset - offset % 4096)) % 2 ^ 24

/-- The bytes are in the partition.  A request for no bytes has to reach no block outside it: a
write reads the block of an offset that is not aligned, an erase takes the sector of such an
offset and, at offset 0, the whole flash. -/
def Within (info : Option PartitionInfo) (flashSize offset size : Nat) : Request → Prop
  | .erase => ∃ p ∈ info, 0 < size ∧ offset + size ≤ p.partitionLength ∨
        size = 0 ∧ offset ≠ 0 ∧ (offset % 4096 = 0 ∨ flashSize ≤ emptySector p offset ∨
          p.partitionStartAddr ≤ emptySector p offset ∧ emptySector p offset < p.limit)
  | .write buffer => buffer = none ∨ ∀ p ∈ info, 0 < size ∧ offset + size ≤ p.partitionLength ∨
        size = 0 ∧ (offset % 32 = 0 ∨ offset < p.partitionLength ∨
          flashSize ≤ addU32 p.partitionStartAddr offset)
  | .read outBuffer => outBuffer = false ∨ ∀ p ∈ info, size = 0 ∨ offset + size ≤ p.partitionLength

structure PartitionInfo.Placed (p : PartitionInfo) : Prop where
  start_mod : p.partitionStartAddr % 4096 = 0
  length_mod : p.partitionLength % 4096 = 0
  limit_le : p.limit ≤ 0x400000
  short : p.partitionStartAddr = 0 → p.partitionLength < 0x100000

theorem placed_of_getInfo {supportMatter : Bool} {partition : Int} {p : PartitionInfo}
    (h : bkFlashPartitionGetInfo supportMatter partition = some p) : p.Placed := by
  obtain ⟨hvalid, rfl⟩ := ite_some_none_eq_some.mp h
  have htable : ∀ m : Bool, ∀ i < bkPartitionMax,
      (bk7256Partitions m i).partitionStartAddr % 4096 = 0 ∧
      (bk7256Partitions m i).partitionLength % 4096 = 0 ∧ (bk7256Partitions m i).limit ≤ 0x400000 ∧
      (¬ (bk7256Partitions m i).partitionStartAddr = 0 ∨
        (bk7256Partitions m i).partitionLength < 0x100000) := by decide
  have hlt : partition.toNat < bkPartitionMax := by omega
  obtain ⟨hstart, hlength, hlimit, hshort⟩ := htable supportMatter partition.toNat hlt
  exact ⟨hstart, hlength, hlimit, fun h => hshort.resolve_left (not_not_intro h)⟩

section Erase

variable {s : Flash} {startAddr : Nat}

theorem eraseSector_ops (s : Flash) (address : Nat) : (bkFlashEraseSector s address).1.ops =
      if (address &&& flashEraseSectorMask) < s.size then
        s.ops ++ [.erase (address &&& flashEraseSectorMask)]
      else s.ops := by
  have hreg : addrReg (address &&& flashEraseSectorMask) = address &&& flashEraseSectorMask := by
    rw [and_eraseSectorMask]
    apply addrReg_of_lt
    omega
  unfold bkFlashEraseSector
  dsimp only
  rw [suspend_size]
  split
  · rename_i hrange
    rw [if_neg (Nat.not_lt_of_le hrange), suspend_ops]
  · rename_i hrange
    rw [if_pos (Nat.lt_of_not_le hrange), resume_ops, hreg]
    change (flashPsSuspend s .normal).ops ++ _ = _
    rw [suspend_ops]

theorem eraseSector_size (s : Flash) (address : Nat) :
    (bkFlashEraseSector s address).1.size = s.size := by
  unfold bkFlashEraseSector
  dsimp only
  split
  · exact suspend_size s
  · rw [resume_size]
    exact suspend_size s

def sectorAddr (startAddr i : Nat) : Nat := (startAddr + i * 4096) % 2 ^ 24

theorem sectorAddr_eq (hstart : startAddr % 4096 = 0) (i : Nat) :
    (addU32 startAddr ((i <<< 12) % 2 ^ 32) &&& flashEraseSectorMask) = sectorAddr startAddr i := by
  rw [and_eraseSectorMask, shiftLeft_eq, addU32, sectorAddr]
  omega

structure ErasesSector (eraseSector : Flash → Nat → Flash) : Prop where
  ops : ∀ s address, (eraseSector s address).ops =
    if (address &&& flashEraseSectorMask) < s.size then
      s.ops ++ [.erase (address &&& flashEraseSectorMask)]
    else s.ops
  size : ∀ s address, (eraseSector s address).size = s.size

theorem mem_ops_sectorLoop {eraseSector : Flash → Nat → Flash} (h : ErasesSector eraseSector)
    (hstart : startAddr % 4096 = 0) (n i : Nat) (op : FlashOp) :
    op ∈ (sectorLoop eraseSector n s startAddr i).ops ↔
      op ∈ s.ops ∨ ∃ k < n, sectorAddr startAddr (i + k) < s.size ∧
        op = .erase (sectorAddr startAddr (i + k)) := by
  induction n generalizing s i with
  | zero => simp [sectorLoop]
  | succ n ih =>
    rw [sectorLoop, ih, h.ops, h.size, sectorAddr_eq hstart]
    constructor
    · rintro (hop | ⟨k, hk, hsize, hop⟩)
      · split at hop
        · rename_i hsize
          rw [mem_append, mem_singleton] at hop
          rcases hop with hold | hnew
          · exact .inl hold
          · exact .inr ⟨0, succ_pos n, hsize, hnew⟩
        · exact .inl hop
      · rw [add_assoc, add_comm 1] at hsize hop
        exact .inr ⟨k + 1, succ_lt_succ hk, hsize, hop⟩
    · rintro (hold | ⟨k, hk, hsize, hop⟩)
      · left
        split
        · exact mem_append_left _ hold
        · exact hold
      · cases k with
        | zero =>
          left
          rw [add_zero] at hsize hop
          rw [if_pos hsize, hop]
          exact mem_append_right _ (mem_singleton_self _)
        | succ k =>
          right
          refine ⟨k, lt_of_succ_lt_succ hk, ?_⟩
          rw [add_assoc, add_comm 1]
          exact ⟨hsize, hop⟩

theorem bkFlashEraseSector_erases :
    ErasesSector fun s address => (bkFlashEraseSector s address).1 :=
  ⟨eraseSector_ops, eraseSector_size⟩

def PartitionInfo.Covers (p : PartitionInfo) (addr : Nat) : Prop :=
  p.partitionStartAddr ≤ addr ∧ addr < p.limit

theorem erase_confined_iff {p : PartitionInfo} (hplaced : p.Placed) (nullWord : Nat) (s : Flash)
    (offset size : Nat) :
    Confined (some p) offset size (Request.run (some p) nullWord s offset size .erase) ↔
      (∀ k < sectorCount offset size,
        sectorAddr p.partitionStartAddr (startSector offset + k) < s.size →
        p.Covers (sectorAddr p.partitionStartAddr (startSector offset + k))) ∧
      (size = 0 ∨ offset + size ≤ p.partitionLength) := by
  have hops : ∀ op, op ∈ (Request.run (some p) nullWord s offset size .erase).flash.ops ↔ _ :=
    mem_ops_sectorLoop bkFlashEraseSector_erases (s := { s with ops := [] }) hplaced.start_mod
      (sectorCount offset size) (startSector offset)
  have hmod : p.limit % 4096 = 0 := by
    have hstart := hplaced.start_mod
    have hlength := hplaced.length_mod
    unfold PartitionInfo.limit
    omega
  constructor
  · intro h
    constructor
    · intro k hk hsize
      have hinside := h.inside p rfl _ ((hops _).mpr (.inr ⟨k, hk, hsize, rfl⟩))
      obtain ⟨hlo, hhi⟩ := hinside
      change sectorAddr p.partitionStartAddr (startSector offset + k) + 4096 ≤ p.limit at hhi
      exact ⟨hlo, by omega⟩
    · by_contra hout
      exact h.error p rfl (size - 1) (by omega) (by omega) rfl
  · rintro ⟨hinside, hrange⟩
    refine ⟨rfl, fun h => absurd h (some_ne_none p), ?_, ?_⟩
    · intro p' hp op hop
      cases hp
      rcases (hops op).mp hop with hnone | ⟨k, hk, hsize, rfl⟩
      · cases hnone
      · obtain ⟨hlo, hhi⟩ := hinside k hk hsize
        have hsector : sectorAddr p.partitionStartAddr (startSector offset + k) % 4096 = 0 := by
          have hstart := hplaced.start_mod
          unfold sectorAddr
          omega
        refine ⟨hlo, ?_⟩
        change sectorAddr p.partitionStartAddr (startSector offset + k) + 4096 ≤ p.limit
        omega
    · intro p' hp i hi hout
      cases hp
      omega

end Erase

section EraseRange

variable {p : PartitionInfo} {offset size flashSize : Nat}

theorem sectorCount_of_range (hsize : 0 < size) (hend : offset + size < 2 ^ 32) :
    sectorCount offset size = (offset + size - 1) / 4096 + 1 - offset / 4096 := by
  rw [sectorCount, endSector, startSector, shiftRight_eq_div_pow, shiftRight_eq_div_pow,
    addU32_of_lt hend, subU32]
  omega

theorem sectorCount_empty (hoffset : offset ≠ 0) (hlt : offset < 2 ^ 32) :
    sectorCount offset 0 = if offset % 4096 = 0 then 0 else 1 := by
  have hend : addU32 offset 0 = offset := addU32_of_lt hlt
  rw [sectorCount, endSector, startSector, shiftRight_eq_div_pow, shiftRight_eq_div_pow,
    hend, subU32]
  split <;> omega

theorem sectorCount_zero : sectorCount 0 0 = 2 ^ 20 := by decide

theorem sector_inside (hplaced : p.Placed) (hend : offset + size ≤ p.partitionLength)
    {k : Nat} (hk : k < sectorCount offset size) (hsize : 0 < size) :
    p.Covers (sectorAddr p.partitionStartAddr (startSector offset + k)) := by
  have hlimit := hplaced.limit_le
  have hlength := hplaced.length_mod
  unfold PartitionInfo.Covers PartitionInfo.limit at *
  rw [sectorCount_of_range hsize (by omega)] at hk
  rw [sectorAddr, startSector, shiftRight_eq_div_pow]
  omega

theorem exists_sector_outside (hplaced : p.Placed) (hflash : 0x100000 ≤ flashSize) :
    ∃ k < 2 ^ 20, sectorAddr p.partitionStartAddr k < flashSize ∧
      ¬ p.Covers (sectorAddr p.partitionStartAddr k) := by
  have hstart := hplaced.start_mod
  have hlength := hplaced.length_mod
  have hlimit := hplaced.limit_le
  unfold PartitionInfo.Covers PartitionInfo.limit at *
  by_cases hzero : p.partitionStartAddr = 0
  · have hshort := hplaced.short hzero
    refine ⟨p.partitionLength / 4096, by omega, ?_⟩
    unfold sectorAddr
    omega
  · refine ⟨(2 ^ 32 - p.partitionStartAddr) / 4096, by omega, ?_⟩
    unfold sectorAddr
    omega

theorem sectorAddr_startSector (p : PartitionInfo) (offset : Nat) :
    sectorAddr p.partitionStartAddr (startSector offset + 0) = emptySector p offset := by
  rw [sectorAddr, emptySector, startSector, shiftRight_eq_div_pow]
  omega

theorem erase_within_iff (hplaced : p.Placed) (nullWord : Nat) (s : Flash)
    (hoffset : offset < 2 ^ 32) :
    Confined (some p) offset size (Request.run (some p) nullWord s offset size .erase) ↔
      Within (some p) s.size offset size .erase := by
  rw [erase_confined_iff hplaced nullWord s offset size]
  constructor
  · rintro ⟨hinside, hrange⟩
    refine ⟨p, rfl, ?_⟩
    by_cases hsize : size = 0
    · refine .inr ⟨hsize, ?_⟩
      rw [hsize] at hinside
      by_cases hzero : offset = 0
      · rw [hzero, sectorCount_zero] at hinside
        obtain ⟨k, hk, hlt, hout⟩ := exists_sector_outside hplaced s.cfg.flashSize.le_bytes
        have hk0 := hinside k hk
        rw [show startSector 0 + k = k from zero_add k] at hk0
        exact absurd (hk0 hlt) hout
      · refine ⟨hzero, ?_⟩
        by_cases hmod : offset % 4096 = 0
        · exact .inl hmod
        · rw [sectorCount_empty hzero hoffset, if_neg hmod] at hinside
          have hfirst := hinside 0 Nat.zero_lt_one
          rw [sectorAddr_startSector] at hfirst
          by_cases hflash : s.size ≤ emptySector p offset
          · exact .inr (.inl hflash)
          · exact .inr (.inr (hfirst (Nat.lt_of_not_le hflash)))
    · exact .inl ⟨Nat.pos_of_ne_zero hsize, hrange.resolve_left hsize⟩
  · rintro ⟨p', hp, hrange⟩
    cases hp
    rcases hrange with ⟨hsize, hend⟩ | ⟨rfl, hzero, hsector⟩
    · exact ⟨fun k hk _ => sector_inside hplaced hend hk hsize, .inr hend⟩
    · refine ⟨?_, .inl rfl⟩
      intro k hk hflash
      rw [sectorCount_empty hzero hoffset] at hk
      split at hk
      · exact absurd hk (not_lt_zero k)
      · rename_i hmod
        have hk0 : k = 0 := by omega
        rw [hk0, sectorAddr_startSector] at hflash ⊢
        exact (hsector.resolve_left hmod).resolve_left (Nat.not_le_of_lt hflash)

end EraseRange

section Transfer

variable {p : PartitionInfo} {s : Flash} {offset size address len lo hi : Nat}

theorem opsInside_of_ops_eq {s' : Flash} (h : s'.ops = s.ops) : OpsInside lo hi s s' := by
  intro op hop
  rw [h] at hop
  exact .inl hop

theorem opsInside_flashWriteCommon (buffer : Nat → BitVec 8) (h : Window lo hi address len)
    (hlen : len ≠ 0) : OpsInside lo hi s (flashWriteCommon s buffer address len).1 := by
  rw [flashWriteCommon, andNot_addressMask]
  split
  · exact .refl s
  · refine OpsInside.trans ?_ (opsInside_writeLoop h fun _ => rfl)
    split
    · exact opsInside_log (.read _) (h.block hlen) rfl
    · exact .refl s

theorem opsInside_bkFlashWriteBytes (buffer : Nat → BitVec 8) (h : Window lo hi address len)
    (hlen : len ≠ 0) : OpsInside lo hi s (bkFlashWriteBytes s address buffer len).1 := by
  have hsuspend : OpsInside lo hi s (flashPsSuspend s .normal) :=
    opsInside_of_ops_eq (suspend_ops s)
  unfold bkFlashWriteBytes
  dsimp only
  split
  · exact hsuspend
  · exact (hsuspend.trans (opsInside_flashWriteCommon buffer h hlen)).trans
      (opsInside_of_ops_eq (resume_ops _))

theorem opsInside_bkFlashReadBytes (h : Window lo hi address len) :
    OpsInside lo hi s (bkFlashReadBytes s address len).1 := by
  unfold bkFlashReadBytes
  split
  · exact .refl s
  · exact opsInside_readLoop h fun _ => andNot_addressMask address

theorem bkFlashWriteBytes_ops_empty (s : Flash) (address : Nat) (buffer : Nat → BitVec 8) :
    (bkFlashWriteBytes s address buffer 0).1.ops =
      if address < s.size ∧ address % 32 ≠ 0 then s.ops ++ [.read (address - address % 32)]
      else s.ops := by
  have hsize := s.cfg.flashSize.bytes_le
  change s.size ≤ 0x800000 at hsize
  unfold bkFlashWriteBytes
  dsimp only
  rw [suspend_size]
  split
  · rw [if_neg (by omega), suspend_ops]
  · have hrange : ¬ ((flashPsSuspend s .normal).size ≤ address - address % 32 ∨
        (flashPsSuspend s .normal).size < 0 ∨
        (flashPsSuspend s .normal).size < addU32 (address - address % 32) 0) := by
      rw [suspend_size, addU32]
      omega
    have hreg : addrReg (address - address % 32) = address - address % 32 :=
      addrReg_of_lt (by omega)
    rw [resume_ops, flashWriteCommon, andNot_addressMask]
    rw [if_neg hrange, flashBytesCnt]
    by_cases hmod : address % 32 = 0
    · rw [if_neg (not_not_intro hmod), if_neg (by omega)]
      exact suspend_ops s
    · rw [if_pos hmod, if_pos (by omega)]
      change (flashPsSuspend s .normal).ops ++ [.read (addrReg (address - address % 32))] = _
      rw [suspend_ops, hreg]

theorem window_of_range (hplaced : p.Placed) (hend : offset + size ≤ p.partitionLength) :
    Window p.partitionStartAddr p.limit (addU32 p.partitionStartAddr offset) size := by
  have hstart := hplaced.start_mod
  have hlength := hplaced.length_mod
  have hlimit := hplaced.limit_le
  unfold PartitionInfo.limit at *
  rw [addU32_of_lt (by omega)]
  exact ⟨by omega, by omega, by omega, by omega, by omega⟩

theorem confined_of_opsInside (s : Flash) {o : Outcome} (hpointer : o.readsNull = false)
    (hinside : OpsInside p.partitionStartAddr p.limit { s with ops := [] } o.flash)
    (hrange : size = 0 ∨ offset + size ≤ p.partitionLength) : Confined (some p) offset size o := by
  refine ⟨hpointer, fun h => absurd h (some_ne_none p), ?_, ?_⟩
  · intro p' hp op hop
    cases hp
    exact (hinside op hop).resolve_left not_mem_nil
  · intro p' hp i hi hout
    cases hp
    omega

theorem range_of_confined {o : Outcome} (h : Confined (some p) offset size o)
    (hok : o.ret = .ok) : size = 0 ∨ offset + size ≤ p.partitionLength := by
  by_contra hout
  exact h.error p rfl (size - 1) (by omega) (by omega) hok

theorem block_inside_iff (hplaced : p.Placed) (hoffset : offset < 2 ^ 32) :
    FlashOp.Inside p.partitionStartAddr p.limit (.read (addU32 p.partitionStartAddr offset -
          addU32 p.partitionStartAddr offset % 32)) ↔ offset < p.partitionLength := by
  have hstart := hplaced.start_mod
  have hlength := hplaced.length_mod
  have hlimit := hplaced.limit_le
  unfold PartitionInfo.limit at *
  change p.partitionStartAddr ≤ _ - _ ∧ _ - _ + 32 ≤ p.partitionStartAddr + p.partitionLength ↔ _
  unfold addU32
  omega

theorem write_within_iff (hplaced : p.Placed) (nullWord : Nat) (s : Flash)
    (bytes : Nat → BitVec 8) (hoffset : offset < 2 ^ 32) : Confined (some p) offset size
        (Request.run (some p) nullWord s offset size (.write (some bytes))) ↔
      Within (some p) s.size offset size (.write (some bytes)) := by
  have hstart := hplaced.start_mod
  have hlow : addU32 p.partitionStartAddr offset % 32 = offset % 32 := by
    unfold addU32
    omega
  have hempty : (Request.run (some p) nullWord s offset 0 (.write (some bytes))).flash.ops =
      if addU32 p.partitionStartAddr offset < s.size ∧
          addU32 p.partitionStartAddr offset % 32 ≠ 0 then
        [] ++ [.read (addU32 p.partitionStartAddr offset - addU32 p.partitionStartAddr offset % 32)]
      else [] := bkFlashWriteBytes_ops_empty { s with ops := [] } _ bytes
  constructor
  · intro h
    right
    intro p' hp
    cases hp
    have hrange := range_of_confined h rfl
    by_cases hsize : size = 0
    · subst hsize
      refine .inr ⟨rfl, ?_⟩
      by_contra hout
      obtain ⟨hmod, hout⟩ := not_or.mp hout
      obtain ⟨hlen, hflash⟩ := not_or.mp hout
      have hblock := h.inside p rfl
      rw [hempty, if_pos ⟨Nat.lt_of_not_le hflash, hlow ▸ hmod⟩] at hblock
      have hinside := hblock _ (mem_singleton_self _)
      exact hlen ((block_inside_iff hplaced hoffset).mp hinside)
    · exact .inl ⟨Nat.pos_of_ne_zero hsize, hrange.resolve_left hsize⟩
  · intro h
    have hwithin := (h.resolve_left (some_ne_none bytes)) p rfl
    rcases hwithin with ⟨hsize, hend⟩ | ⟨hzero, hblock⟩
    · refine confined_of_opsInside s rfl ?_ (.inr hend)
      exact opsInside_bkFlashWriteBytes bytes (window_of_range hplaced hend) (by omega)
    · subst hzero
      refine confined_of_opsInside s rfl ?_ (.inl rfl)
      intro op hop
      rw [hempty] at hop
      split at hop
      · rename_i hread
        have hmod : offset % 32 ≠ 0 := hlow ▸ hread.2
        have hlen : offset < p.partitionLength :=
          (hblock.resolve_left hmod).resolve_right (Nat.not_le_of_lt hread.1)
        rw [mem_append, mem_singleton] at hop
        rw [hop.resolve_left not_mem_nil]
        exact .inr ((block_inside_iff hplaced hoffset).mpr hlen)
      · exact .inl hop

theorem read_within_iff (hplaced : p.Placed) (nullWord : Nat) (s : Flash) :
    Confined (some p) offset size (Request.run (some p) nullWord s offset size (.read true)) ↔
      Within (some p) s.size offset size (.read true) := by
  constructor
  · intro h
    right
    intro p' hp
    cases hp
    exact range_of_confined h rfl
  · intro h
    have hrange := (h.resolve_left Bool.noConfusion) p rfl
    refine confined_of_opsInside s rfl ?_ hrange
    by_cases hsize : size = 0
    · subst hsize
      apply opsInside_of_ops_eq
      change (bkFlashReadBytes { s with ops := [] } _ 0).1.ops = []
      unfold bkFlashReadBytes
      split <;> rfl
    · exact opsInside_bkFlashReadBytes (window_of_range hplaced (hrange.resolve_left hsize))

end Transfer

theorem confined_of_refused {info : Option PartitionInfo} {offset size : Nat} {o : Outcome}
    (hpointer : o.readsNull = false) (hret : o.ret ≠ .ok) (hops : o.flash.ops = []) :
    Confined info offset size o := by
  refine ⟨hpointer, fun _ => ⟨hret, hops⟩, ?_, fun _ _ _ _ _ => hret⟩
  intro p _ op hop
  rw [hops] at hop
  cases hop

theorem missing_within_iff (nullWord : Nat) (s : Flash) (offset size flashSize : Nat)
    (req : Request) : Confined none offset size (req.run none nullWord s offset size) ↔
      Within none flashSize offset size req := by
  cases req with
  | erase =>
    constructor
    · intro h
      exact absurd rfl (h.refused rfl).1
    · rintro ⟨p, hp, -⟩
      cases hp
  | write buffer =>
    constructor
    · exact fun _ => .inr fun p hp => absurd hp (not_mem_none p)
    · intro _
      cases buffer <;> exact confined_of_refused rfl FlashRet.noConfusion rfl
  | read outBuffer =>
    constructor
    · exact fun _ => .inr fun p hp => absurd hp (not_mem_none p)
    · intro _
      cases outBuffer <;> exact confined_of_refused rfl FlashRet.noConfusion rfl

/-- A request keeps to its partition, or is refused, exactly if it is `Within`. -/
theorem confined_iff (supportMatter : Bool) (partition : Int) (nullWord : Nat) (s : Flash)
    (offset size : BitVec 32) (req : Request) :
    Confined (bkFlashPartitionGetInfo supportMatter partition) offset.toNat size.toNat
        (req.run (bkFlashPartitionGetInfo supportMatter partition) nullWord s
          offset.toNat size.toNat) ↔
      Within (bkFlashPartitionGetInfo supportMatter partition) s.size offset.toNat size.toNat
        req := by
  cases hinfo : bkFlashPartitionGetInfo supportMatter partition with
  | none => exact missing_within_iff nullWord s _ _ _ req
  | some =>
    have hplaced := placed_of_getInfo hinfo
    cases req with
    | erase => exact erase_within_iff hplaced nullWord s offset.isLt
    | write buffer =>
      cases buffer with
      | none => exact ⟨fun _ => .inl rfl, fun _ => confined_of_refused rfl FlashRet.noConfusion rfl⟩
      | some bytes => exact write_within_iff hplaced nullWord s bytes offset.isLt
    | read outBuffer =>
      cases outBuffer with
      | false =>
        exact ⟨fun _ => .inl rfl, fun _ => confined_of_refused rfl FlashRet.noConfusion rfl⟩
      | true => exact read_within_iff hplaced nullWord s

theorem bootloader_write_leaves : (bkFlashPartitionGetInfo false 0 = some ⟨0, 0x11000⟩ ∧
      (Request.run (some ⟨0, 0x11000⟩) 0 quadFlash 0x11000 32
        (.write (some fun _ => 0))).flash.ops = [.program 0x11000] ∧
      (Request.run (some ⟨0, 0x11000⟩) 0 quadFlash 0x11000 32
        (.write (some fun _ => 0))).ret = .ok ∧ ¬ Confined (some ⟨0, 0x11000⟩) 0x11000 32
        (Request.run (some ⟨0, 0x11000⟩) 0 quadFlash 0x11000 32 (.write (some fun _ => 0)))) ∧
    (bkFlashPartitionGetInfo false 8 = none ∧
      (Request.run none 0x11000 quadFlash 0 1 .erase).readsNull = true ∧
      (Request.run none 0x11000 quadFlash 0 1 .erase).flash.ops = [.erase 0x11000] ∧
      (Request.run none 0x11000 quadFlash 0 1 .erase).ret = .ok ∧
      ¬ Confined none 0 1 (Request.run none 0x11000 quadFlash 0 1 .erase)) := by
  refine ⟨⟨by decide, by decide, by decide, ?_⟩, ⟨by decide, by decide, by decide, by decide, ?_⟩⟩
  · intro h
    exact h.error ⟨0, 0x11000⟩ rfl 0 (by decide) (by decide) rfl
  · intro h
    exact absurd h.pointer (by decide)

end BekenSoc.FlashPartition
