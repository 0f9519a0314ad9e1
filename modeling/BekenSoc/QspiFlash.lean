import BekenSoc.CRuntime
import BekenSoc.NorMemory

/-!
Writes and reads of an external flash, `qspi_flash.c`, over the functions of `qspi_ll`, which drive
the controller.  The driver is initialised and the quad lines are enabled.
-/

namespace BekenSoc.QspiFlash

open CRuntime NorMemory

def qspiFifoLenMax : Nat := 256

def pageSize : Nat := 256

def wipPolls : Nat := 100

inductive Opcode
  | rdS0S7
  | wrEn
  | quadWr
  | quadRd
  deriving DecidableEq

inductive WireMode
  | one
  | four
  deriving DecidableEq

structure QspiCmd where
  wireMode : WireMode
  cmd : Opcode
  addr : Nat
  dataLen : Nat
  dummyCycle : Nat

def wrenCmd : QspiCmd := ⟨.one, .wrEn, 0, 0, 0⟩

def readStatusCmd : QspiCmd := ⟨.one, .rdS0S7, 0, 1, 0⟩

/-- `qspi_ll_init_command`, `qspi_ll_io_write` and `qspi_ll_io_read` with the device behind them,
and what they are taken to do.  A program command takes the bytes of the FIFO, and a read command
leaves its bytes there; `busy` counts the polls that still find a program in progress. -/
structure LowLevel (Dev : Type) where
  mem : Dev → Nat → BitVec 8
  fifo : Dev → Nat → BitVec 8
  enabled : Dev → Bool
  busy : Dev → Nat
  initCommand : Dev → QspiCmd → Dev
  ioWrite : Dev → (Nat → BitVec 8) → Nat → Dev
  ioRead : Dev → (Nat → BitVec 8) → Nat → Nat → BitVec 8
  /-- how many bytes of the source are read -/
  reads : Nat → Nat
  /-- how many bytes of the destination are stored to -/
  stores : Nat → Nat
  ioWrite_local : ∀ d n data data', (∀ i < reads n, data i = data' i) →
    ioWrite d data n = ioWrite d data' n
  ioWrite_fifo : ∀ d n data, n ≤ qspiFifoLenMax → ∀ i < n, fifo (ioWrite d data n) i = data i
  ioWrite_device : ∀ d n data, mem (ioWrite d data n) = mem d ∧
    busy (ioWrite d data n) = busy d ∧ enabled (ioWrite d data n) = enabled d
  ioRead_local : ∀ d n dest i, stores n ≤ i → ioRead d dest n i = dest i
  ioRead_fifo : ∀ d n dest, n ≤ qspiFifoLenMax → ∀ i < n, ioRead d dest n i = fifo d i
  wrEn : ∀ d, busy d = 0 → mem (initCommand d wrenCmd) = mem d ∧
    busy (initCommand d wrenCmd) = 0 ∧ enabled (initCommand d wrenCmd) = true
  quadWr : ∀ d c, c.cmd = .quadWr → c.dataLen ≤ qspiFifoLenMax → busy d = 0 → enabled d = true →
    mem (initCommand d c) = programPage pageSize (mem d) c.addr c.dataLen (fifo d) ∧
      busy (initCommand d c) < wipPolls
  quadRd : ∀ d c, c.cmd = .quadRd → c.dataLen ≤ qspiFifoLenMax → busy d = 0 →
    ∀ i < c.dataLen, fifo (initCommand d c) i = mem d (c.addr + i)
  rdS0S7 : ∀ d, mem (initCommand d readStatusCmd) = mem d ∧
    busy (initCommand d readStatusCmd) = busy d - 1 ∧
    (fifo (initCommand d readStatusCmd) 0 &&& 1 = 0 ↔ busy d = 0)

structure Span where
  pos : Nat
  len : Nat
  deriving DecidableEq

def cmdDataLen (size : Nat) : Nat := if size < qspiFifoLenMax then size else qspiFifoLenMax

section Driver

variable {Dev : Type} (ll : LowLevel Dev)

def bkQspiRead (d : Dev) (dest : Nat → BitVec 8) (pos size : Nat) : Nat → BitVec 8 := fun j =>
  if pos ≤ j then ll.ioRead d (fun i => dest (pos + i)) size (j - pos) else dest j

def bkQspiFlashWren (d : Dev) : Dev := ll.initCommand d wrenCmd

def bkQspiFlashReadS0S7 (d : Dev) : Dev × BitVec 8 :=
  let d := ll.initCommand d readStatusCmd
  (d, ll.ioRead d (fun _ => 0) 1 0)

def waitLoop : Nat → Dev → Dev
  | 0, d => d
  | i + 1, d =>
    if (bkQspiFlashReadS0S7 ll d).2 &&& 1 = 0 then (bkQspiFlashReadS0S7 ll d).1
    else waitLoop i (bkQspiFlashReadS0S7 ll d).1

def bkQspiFlashWaitWipDone (d : Dev) : Dev := waitLoop ll wipPolls d

def pageProgramLoop (c : QspiCmd) (data : Nat → BitVec 8) :
    Nat → Dev → Nat → Nat → Nat → Dev × List Span
  | 0, d, _, _, _ => (d, [])
  | fuel + 1, d, addr, pos, size =>
    if size = 0 then (d, [])
    else
      let n := cmdDataLen size
      let d := ll.ioWrite (bkQspiFlashWren ll d) (fun i => data (pos + i)) n
      let d := bkQspiFlashWaitWipDone ll (ll.initCommand d { c with addr := addr, dataLen := n })
      let r := pageProgramLoop c data fuel d (addU32 addr n) (pos + 4 * n) (size - n)
      (r.1, ⟨pos, ll.reads n⟩ :: r.2)

def readLoop (c : QspiCmd) :
    Nat → Dev → (Nat → BitVec 8) → Nat → Nat → Nat → Dev × (Nat → BitVec 8) × List Span
  | 0, d, dest, _, _, _ => (d, dest, [])
  | fuel + 1, d, dest, addr, pos, size =>
    if size = 0 then (d, dest, [])
    else
      let n := cmdDataLen size
      let d := ll.initCommand d { c with addr := addr, dataLen := n }
      let r := readLoop c fuel d (bkQspiRead ll d dest pos n) (addU32 addr n) (pos + 4 * n)
        (size - n)
      (r.1, r.2.1, ⟨pos, ll.stores n⟩ :: r.2.2)

def bkQspiFlashQuadPageProgram (d : Dev) (addr : Nat) (data : Nat → BitVec 8) (size : Nat) :
    Dev × List Span :=
  pageProgramLoop ll ⟨.four, .quadWr, 0, 0, 0⟩ data size d addr 0 size

def bkQspiFlashQuadRead (d : Dev) (addr : Nat) (dest : Nat → BitVec 8) (size : Nat) :
    Dev × (Nat → BitVec 8) × List Span :=
  readLoop ll ⟨.four, .quadRd, 0, 0, 4⟩ size d dest addr 0 size

def bkQspiFlashWrite (d : Dev) (baseAddr : Nat) (data : Nat → BitVec 8) (size : Nat) :
    Dev × List Span := bkQspiFlashQuadPageProgram ll d baseAddr data size

def bkQspiFlashRead (d : Dev) (baseAddr : Nat) (dest : Nat → BitVec 8) (size : Nat) :
    Dev × (Nat → BitVec 8) × List Span := bkQspiFlashQuadRead ll d baseAddr dest size

/-- A read of a range after a write to it, with the buffers that both are given. -/
structure RoundTrip (d : Dev) (addr size : Nat) (data dest : Nat → BitVec 8) : Prop where
  same : ∀ i < size,
    (bkQspiFlashRead ll (bkQspiFlashWrite ll d addr data size).1 addr dest size).2.1 i = data i
  source : ∀ span ∈ (bkQspiFlashWrite ll d addr data size).2, span.pos + span.len ≤ size
  destination : ∀ span ∈
    (bkQspiFlashRead ll (bkQspiFlashWrite ll d addr data size).1 addr dest size).2.2,
    span.pos + span.len ≤ size

structure Erased (d : Dev) (addr size : Nat) : Prop where
  ready : ll.busy d = 0
  bytes : ∀ i < size, ll.mem d (addr + i) = 0xFF

end Driver

section Wait

variable {Dev : Type} {ll : LowLevel Dev}

theorem status_wip (d : Dev) : (bkQspiFlashReadS0S7 ll d).2 &&& 1 = 0 ↔ ll.busy d = 0 := by
  have hfifo := ll.ioRead_fifo (ll.initCommand d readStatusCmd) 1 (fun _ => 0) (by decide) 0
    Nat.one_pos
  rw [bkQspiFlashReadS0S7, hfifo]
  exact (ll.rdS0S7 d).2.2

theorem waitLoop_mem (n : Nat) (d : Dev) : ll.mem (waitLoop ll n d) = ll.mem d := by
  induction n generalizing d with
  | zero => rfl
  | succ n ih =>
    unfold waitLoop
    split
    · exact (ll.rdS0S7 d).1
    · exact (ih _).trans (ll.rdS0S7 d).1

theorem waitLoop_busy {n : Nat} {d : Dev} (h : ll.busy d < n) :
    ll.busy (waitLoop ll n d) = 0 := by
  induction n generalizing d with
  | zero => exact absurd h (Nat.not_lt_zero _)
  | succ n ih =>
    have hpolled : ll.busy (bkQspiFlashReadS0S7 ll d).1 = ll.busy d - 1 := (ll.rdS0S7 d).2.1
    unfold waitLoop
    split
    · next hdone => rw [hpolled, (status_wip d).mp hdone]
    · next hwip =>
      have hbusy : ll.busy d ≠ 0 := fun hzero => hwip ((status_wip d).mpr hzero)
      apply ih
      omega

end Wait

section Spans

variable {touched : Nat → Nat}

def transferSpans (touched : Nat → Nat) : Nat → Nat → Nat → List Span
  | 0, _, _ => []
  | fuel + 1, pos, size =>
    if size = 0 then []
    else ⟨pos, touched (cmdDataLen size)⟩ ::
      transferSpans touched fuel (pos + 4 * cmdDataLen size) (size - cmdDataLen size)

theorem pageProgramLoop_spans {Dev : Type} (ll : LowLevel Dev) (c : QspiCmd)
    (data : Nat → BitVec 8) (fuel : Nat) (d : Dev) (addr pos size : Nat) :
    (pageProgramLoop ll c data fuel d addr pos size).2 = transferSpans ll.reads fuel pos size := by
  induction fuel generalizing d addr pos size with
  | zero => rfl
  | succ fuel ih =>
    unfold pageProgramLoop transferSpans
    split
    · rfl
    · exact congrArg (List.cons _) (ih _ _ _ _)

theorem readLoop_spans {Dev : Type} (ll : LowLevel Dev) (c : QspiCmd) (fuel : Nat) (d : Dev)
    (dest : Nat → BitVec 8) (addr pos size : Nat) :
    (readLoop ll c fuel d dest addr pos size).2.2 = transferSpans ll.stores fuel pos size := by
  induction fuel generalizing d dest addr pos size with
  | zero => rfl
  | succ fuel ih =>
    unfold readLoop transferSpans
    split
    · rfl
    · exact congrArg (List.cons _) (ih _ _ _ _ _)

theorem cmdDataLen_of_le {size : Nat} (h : size ≤ 256) : cmdDataLen size = size := by
  unfold cmdDataLen qspiFifoLenMax
  split <;> omega

theorem cmdDataLen_of_gt {size : Nat} (h : 256 < size) : cmdDataLen size = 256 :=
  if_neg (by unfold qspiFifoLenMax; omega)

theorem transferSpans_nil (fuel pos : Nat) : transferSpans touched fuel pos 0 = [] := by
  cases fuel <;> rfl

theorem transferSpans_of_le {fuel size : Nat} (pos : Nat) (hsize : size ≠ 0) (hle : size ≤ 256) :
    transferSpans touched (fuel + 1) pos size = [⟨pos, touched size⟩] := by
  rw [transferSpans, if_neg hsize, cmdDataLen_of_le hle, Nat.sub_self, transferSpans_nil]

theorem transferSpans_of_gt {fuel size : Nat} (pos : Nat) (hgt : 256 < size) :
    transferSpans touched (fuel + 1) pos size =
      ⟨pos, touched 256⟩ :: transferSpans touched fuel (pos + 1024) (size - 256) := by
  rw [transferSpans, if_neg (by omega), cmdDataLen_of_gt hgt]

theorem exists_span_end (htouched : ∀ n ≤ 256, n ≤ touched n) {fuel pos size : Nat}
    (hfuel : size ≤ fuel) (hsize : size ≠ 0) :
    ∃ span ∈ transferSpans touched fuel pos size, pos + size ≤ span.pos + span.len := by
  induction fuel generalizing pos size with
  | zero => omega
  | succ fuel ih =>
    by_cases hle : size ≤ 256
    · rw [transferSpans_of_le pos hsize hle]
      exact ⟨_, List.mem_singleton_self _, Nat.add_le_add_left (htouched size hle) pos⟩
    · obtain ⟨span, hspan, hend⟩ := @ih (pos + 1024) (size - 256) (by omega) (by omega)
      rw [transferSpans_of_gt pos (by omega)]
      exact ⟨span, List.mem_cons_of_mem _ hspan, by omega⟩

theorem le_of_inside (htouched : ∀ n ≤ 256, n ≤ touched n) {size : Nat}
    (h : ∀ span ∈ transferSpans touched size 0 size, span.pos + span.len ≤ size) : size ≤ 256 := by
  by_contra hgt
  obtain ⟨fuel, rfl⟩ := Nat.exists_eq_succ_of_ne_zero (by omega : size ≠ 0)
  rw [Nat.succ_eq_add_one, transferSpans_of_gt 0 (by omega)] at h
  obtain ⟨span, hspan, hend⟩ :=
    @exists_span_end touched htouched fuel (0 + 1024) (fuel + 1 - 256) (by omega) (by omega)
  have := h span (List.mem_cons_of_mem _ hspan)
  omega

theorem inside_iff_of_le {size : Nat} (hsize : size ≠ 0) (hle : size ≤ 256) :
    (∀ span ∈ transferSpans touched size 0 size, span.pos + span.len ≤ size) ↔
      touched size ≤ size := by
  obtain ⟨fuel, rfl⟩ := Nat.exists_eq_succ_of_ne_zero hsize
  rw [Nat.succ_eq_add_one, transferSpans_of_le 0 hsize hle, List.forall_mem_singleton,
    Nat.zero_add]

end Spans

section RoundTrip

variable {Dev : Type} {ll : LowLevel Dev} {d : Dev} {addr size : Nat} {data dest : Nat → BitVec 8}

theorem pageProgramLoop_nil (c : QspiCmd) (fuel addr pos : Nat) :
    pageProgramLoop ll c data fuel d addr pos 0 = (d, []) := by
  cases fuel <;> rfl

theorem readLoop_nil (c : QspiCmd) (fuel addr pos : Nat) :
    readLoop ll c fuel d dest addr pos 0 = (d, dest, []) := by
  cases fuel <;> rfl

theorem le_reads (d : Dev) {n : Nat} (hn : n ≤ 256) : n ≤ ll.reads n := by
  by_contra hlt
  -- A byte that is not read would have to reach the FIFO with both values.
  have hsame := ll.ioWrite_local d n (fun _ => 0) (fun i => if i < ll.reads n then 0 else 1)
    fun _ hi => (if_pos hi).symm
  have hzero := ll.ioWrite_fifo d n (fun _ => 0) hn (ll.reads n) (Nat.lt_of_not_le hlt)
  rw [hsame, ll.ioWrite_fifo d n _ hn _ (Nat.lt_of_not_le hlt), if_neg (Nat.lt_irrefl _)] at hzero
  exact absurd hzero (by decide)

theorem write_short (hready : ll.busy d = 0) (addr : Nat) (data : Nat → BitVec 8)
    (hsize : size ≠ 0) (hle : size ≤ 256) : ∃ bytes : Nat → BitVec 8,
      (∀ i < size, bytes i = data i) ∧ ll.busy (bkQspiFlashWrite ll d addr data size).1 = 0 ∧
      ll.mem (bkQspiFlashWrite ll d addr data size).1 =
        programPage pageSize (ll.mem d) addr size bytes := by
  obtain ⟨fuel, rfl⟩ := Nat.exists_eq_succ_of_ne_zero hsize
  obtain ⟨hmem, hbusy, henabled⟩ := ll.wrEn d hready
  obtain ⟨hmem', hbusy', henabled'⟩ :=
    ll.ioWrite_device (ll.initCommand d wrenCmd) fuel.succ fun i => data (0 + i)
  obtain ⟨hprogram, hpolls⟩ := ll.quadWr
    (ll.ioWrite (ll.initCommand d wrenCmd) (fun i => data (0 + i)) fuel.succ)
    ⟨.four, .quadWr, addr, fuel.succ, 0⟩ rfl hle (hbusy'.trans hbusy) (henabled'.trans henabled)
  rw [hmem', hmem] at hprogram
  rw [bkQspiFlashWrite, bkQspiFlashQuadPageProgram, pageProgramLoop, if_neg hsize]
  dsimp only
  rw [cmdDataLen_of_le hle, Nat.sub_self, pageProgramLoop_nil]
  refine ⟨_, ?_, waitLoop_busy hpolls, (waitLoop_mem _ _).trans hprogram⟩
  intro i hi
  rw [ll.ioWrite_fifo _ _ _ hle i hi, Nat.zero_add]

theorem read_short (hready : ll.busy d = 0) (addr : Nat) (dest : Nat → BitVec 8) (hle : size ≤ 256)
    {i : Nat} (hi : i < size) :
    (bkQspiFlashRead ll d addr dest size).2.1 i = ll.mem d (addr + i) := by
  have hsize : size ≠ 0 := Nat.ne_zero_of_lt hi
  obtain ⟨fuel, rfl⟩ := Nat.exists_eq_succ_of_ne_zero hsize
  rw [bkQspiFlashRead, bkQspiFlashQuadRead, readLoop, if_neg hsize]
  dsimp only
  rw [cmdDataLen_of_le hle, Nat.sub_self, readLoop_nil]
  simp only [bkQspiRead, Nat.zero_le, if_true, Nat.sub_zero]
  rw [ll.ioRead_fifo _ _ _ hle i hi]
  exact ll.quadRd d ⟨.four, .quadRd, addr, fuel.succ, 4⟩ rfl hle hready i hi

theorem read_back (h : Erased ll d addr size) (hle : size ≤ 256) {i : Nat} (hi : i < size) :
    (bkQspiFlashRead ll (bkQspiFlashWrite ll d addr data size).1 addr dest size).2.1 i =
      if addr % 256 + i < 256 then data i else 0xFF := by
  obtain ⟨bytes, hbytes, hready, hmem⟩ :=
    write_short h.ready addr data (Nat.ne_zero_of_lt hi) hle
  rw [read_short hready addr dest hle hi, hmem, pageSize]
  split
  · next hpage =>
    rw [programPage_of_lt _ hpage hi, h.bytes i hi, hbytes i hi]
    exact BitVec.allOnes_and
  · next hpage => rw [programPage_of_ge _ _ (by decide) (Nat.le_of_not_lt hpage), h.bytes i hi]

theorem roundTrip_same_iff (h : Erased ll d addr size) (hle : size ≤ 256) : (∀ i < size,
      (bkQspiFlashRead ll (bkQspiFlashWrite ll d addr data size).1 addr dest size).2.1 i = data i) ↔
      ∀ i < size, 256 ≤ addr % 256 + i → data i = 0xFF := by
  refine forall₂_congr fun i hi => ?_
  rw [read_back h hle hi]
  split
  · next hpage => exact iff_of_true rfl fun hge => absurd hge (Nat.not_le.mpr hpage)
  · next hpage => rw [eq_comm, forall_prop_of_true (Nat.le_of_not_lt hpage)]

end RoundTrip

structure Qspi where
  mem : Nat → BitVec 8
  fifo : Nat → BitVec 8
  enabled : Bool
  busy : Nat

/-- A flash that is found busy once after a program, behind functions that touch the bytes they
are asked for and no others. -/
def plainFlash : LowLevel Qspi where
  mem := Qspi.mem
  fifo := Qspi.fifo
  enabled := Qspi.enabled
  busy := Qspi.busy
  initCommand q c := match c.cmd with
    | .rdS0S7 => { q with fifo := fun _ => if q.busy = 0 then 0 else 1, busy := q.busy - 1 }
    | .wrEn => { q with enabled := true }
    | .quadWr =>
      ⟨programPage pageSize q.mem c.addr c.dataLen q.fifo, q.fifo, false, 1⟩
    | .quadRd => { q with fifo := fun i => q.mem (c.addr + i) }
  ioWrite q data n := { q with fifo := fun i => if i < n then data i else q.fifo i }
  ioRead q dest n := fun i => if i < n then q.fifo i else dest i
  reads n := n
  stores n := n
  ioWrite_local q n data data' h := by
    congr 1
    funext i
    split
    · exact h i ‹_›
    · rfl
  ioWrite_fifo _ _ _ _ _ hi := if_pos hi
  ioWrite_device _ _ _ := ⟨rfl, rfl, rfl⟩
  ioRead_local _ _ _ _ h := if_neg (Nat.not_lt.mpr h)
  ioRead_fifo _ _ _ _ _ hi := if_pos hi
  wrEn _ h := ⟨rfl, h, rfl⟩
  quadWr q c hc _ _ _ := by
    rw [hc]
    exact ⟨rfl, show 1 < wipPolls by decide⟩
  quadRd q c hc _ _ i _ := by
    rw [hc]
  rdS0S7 q := by
    refine ⟨rfl, rfl, ?_⟩
    show (if q.busy = 0 then 0 else 1 : BitVec 8) &&& 1 = 0 ↔ _
    split
    · exact iff_of_true rfl ‹_›
    · exact iff_of_false (by decide) ‹_›

def erasedFlash : Qspi := ⟨fun _ => 0xFF, fun _ => 0, false, 0⟩

theorem erased_all (addr size : Nat) : Erased plainFlash erasedFlash addr size :=
  ⟨rfl, fun _ _ => rfl⟩

end BekenSoc.QspiFlash
