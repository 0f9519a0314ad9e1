import BekenSoc.ShellLog
import Mathlib.Data.List.Perm.Subperm

namespace BekenSoc.ShellLogQueues

open Function CRuntime RingBuffers ShellLog List

variable {b t : Nat} {s : Shell} {p : Pool}

def blockTag (p : Pool) (b : Nat) : Nat := makeBlockTag b (queueIdOf p)

def rspTag : Nat := makeBlockTag 0 shellRspQueueId

def faultHintTag : Nat := makeBlockTag 0 shellRomQueueId

def cmdHintTag : Nat := makeBlockTag 1 shellRomQueueId

def isLog (tag : Nat) : Bool := (poolOf (getQueueId tag)).isSome

inductive Known : Nat → Prop
  | block (p : Pool) {b : Nat} (hb : b < blkNum p) : Known (blockTag p b)
  | rsp : Known rspTag
  | faultHint : Known faultHintTag
  | cmdHint : Known cmdHintTag

section Tags

variable {p p' : Pool} {b b' : Nat}

theorem blkNum_le (p : Pool) : blkNum p ≤ 64 := by
  cases p <;> decide

theorem poolOf_queueIdOf (p : Pool) : poolOf (queueIdOf p) = some p := by
  cases p <;> rfl

theorem getBlockId_blockTag (hb : b < blkNum p) : getBlockId (blockTag p b) = b := by
  have hle := blkNum_le p
  simp only [getBlockId, blockTag, makeBlockTag]
  omega

theorem getQueueId_blockTag (p : Pool) (b : Nat) : getQueueId (blockTag p b) = queueIdOf p := by
  have hlt : queueIdOf p < 16 := by cases p <;> decide
  simp only [getQueueId, blockTag, makeBlockTag]
  omega

theorem blockTag_inj (hb : b < blkNum p) (hb' : b' < blkNum p')
    (h : blockTag p b = blockTag p' b') : p = p' ∧ b = b' := by
  have hqueue := congrArg (fun t => poolOf (getQueueId t)) h
  have hblock := congrArg getBlockId h
  simp only [getQueueId_blockTag, poolOf_queueIdOf] at hqueue
  rw [getBlockId_blockTag hb, getBlockId_blockTag hb'] at hblock
  exact ⟨Option.some.inj hqueue, hblock⟩

theorem isLog_blockTag (p : Pool) (b : Nat) : isLog (blockTag p b) = true := by
  rw [isLog, getQueueId_blockTag, poolOf_queueIdOf]
  rfl

theorem isLog_rspTag : isLog rspTag = false := by decide

theorem isLog_faultHintTag : isLog faultHintTag = false := by decide

theorem isLog_cmdHintTag : isLog cmdHintTag = false := by decide

theorem ne_blockTag (h : isLog t = false) (p : Pool) (b : Nat) : t ≠ blockTag p b := by
  rintro rfl
  rw [isLog_blockTag] at h
  cases h

theorem packetBuf_blockTag (hb : b < blkNum p) : packetBuf (blockTag p b) = some (.log p b) := by
  simp only [packetBuf, getQueueId_blockTag, poolOf_queueIdOf, getBlockId_blockTag hb, if_pos hb]

theorem Known.packetBuf (h : Known t) : ∃ buf, packetBuf t = some buf := by
  cases h with
  | block p hb => exact ⟨_, packetBuf_blockTag hb⟩
  | rsp => exact ⟨.rspBuff, by decide⟩
  | faultHint => exact ⟨.faultStr, by decide⟩
  | cmdHint => exact ⟨.cmdOvfStr, by decide⟩

theorem Known.requestAsserts {rspOngoing : Bool} (h : Known t)
    (hrsp : t = rspTag → rspOngoing = true) : requestAsserts rspOngoing t = [] := by
  cases h with
  | block => simp only [ShellLog.requestAsserts, getQueueId_blockTag, poolOf_queueIdOf]
  | rsp =>
    rw [hrsp rfl]
    rfl
  | faultHint | cmdHint => rfl

end Tags

def deviceTx (k : TxPacket) : DevTxPacket :=
  ⟨(packetBuf k.blkTag).getD .rspBuff, k.packetLen, k.blkTag⟩

def pendingPackets (s : Shell) : List TxPacket := s.pending.contents shellLogPendNum

def devicePackets (s : Shell) : List DevTxPacket := s.uart.txList.contents txQueueLen

def packetLine (s : Shell) : List DevTxPacket := devicePackets s ++ (pendingPackets s).map deviceTx

structure Queues (s : Shell) (ks : List TxPacket) (ds : List DevTxPacket) (bs : List Nat) :
    Prop where
  pending : s.pending.Holds shellLogPendNum ks
  pending_lt : ks.length < shellLogPendNum
  device : s.uart.txList.Holds txQueueLen ds
  device_lt : ds.length < txQueueLen
  busy : s.busy.Holds shellLogBusyNum bs
  busy_le : bs.length ≤ ds.length

theorem Queues.congr {s' : Shell} {ks : List TxPacket} {ds : List DevTxPacket} {bs : List Nat}
    (h : Queues s ks ds bs) (hpending : s'.pending = s.pending) (hbusy : s'.busy = s.busy)
    (htx : s'.uart.txList = s.uart.txList) : Queues s' ks ds bs := by
  constructor
  · rw [hpending]
    exact h.pending
  · exact h.pending_lt
  · rw [htx]
    exact h.device
  · exact h.device_lt
  · rw [hbusy]
    exact h.busy
  · exact h.busy_le

structure SameApart (s s' : Shell) : Prop where
  freeQueue : s'.freeQueue = s.freeQueue
  rspOngoing : s'.rspOngoing = s.rspOngoing
  asserts : s'.asserts = s.asserts
  refused : s'.refused = s.refused
  curPacket : s'.uart.curPacket = s.uart.curPacket
  packetLen : s'.uart.packetLen = s.uart.packetLen
  packetTag : s'.uart.packetTag = s.uart.packetTag

theorem SameApart.refl (s : Shell) : SameApart s s := ⟨rfl, rfl, rfl, rfl, rfl, rfl, rfl⟩

structure Wakes (u u' : Uart) (moved : List TxPacket) : Prop where
  echo : u'.echo = u.echo
  txStopped : u'.txStopped = (u.txStopped && moved.isEmpty)
  txInterrupt : u'.txInterrupt = (u.txInterrupt || (u.txStopped && !moved.isEmpty))

theorem Wakes.refl (u : Uart) : Wakes u u [] := ⟨rfl, by simp, by simp⟩

section Queues

variable {s : Shell} {ks : List TxPacket} {ds : List DevTxPacket} {bs : List Nat}

theorem shellUartWriteAsync_accepted {u : Uart} (h : 1 < u.txList.freeItems txQueueLen)
    (d : DevTxPacket) : (shellUartWriteAsync u d.packet d.len d.tag).2 = true ∧
      (shellUartWriteAsync u d.packet d.len d.tag).1.txList = u.txList.put txQueueLen d ∧
      (shellUartWriteAsync u d.packet d.len d.tag).1.curPacket = u.curPacket ∧
      (shellUartWriteAsync u d.packet d.len d.tag).1.packetLen = u.packetLen ∧
      (shellUartWriteAsync u d.packet d.len d.tag).1.packetTag = u.packetTag := by
  rw [shellUartWriteAsync, if_pos h]
  cases u.txStopped <;> simp [shellUartTxTrigger]

theorem shellUartWriteAsync_wakes {u : Uart} (h : 1 < u.txList.freeItems txQueueLen)
    (d : DevTxPacket) (k : TxPacket) :
    Wakes u (shellUartWriteAsync u d.packet d.len d.tag).1 [k] := by
  rw [shellUartWriteAsync, if_pos h]
  cases hstopped : u.txStopped <;> constructor <;> simp [shellUartTxTrigger, hstopped]

theorem sendPacket_spec {k : TxPacket} (hpending : s.pending.Holds shellLogPendNum ks)
    (hpendingLt : ks.length < shellLogPendNum)
    (hdevice : s.uart.txList.Holds txQueueLen ds) (hroom : ds.length + 1 < txQueueLen)
    (hbusy : s.busy.Holds shellLogBusyNum bs) (hle : bs.length ≤ ds.length) :
    Queues (sendPacket s (deviceTx k).packet k) ks (ds ++ [deviceTx k])
        (bs ++ [k.blkTag].filter isLog) ∧ SameApart s (sendPacket s (deviceTx k).packet k) ∧
      Wakes s.uart (sendPacket s (deviceTx k).packet k).uart [k] := by
  have hfree : 1 < s.uart.txList.freeItems txQueueLen := by
    rw [hdevice.freeItems_eq (by omega)]
    omega
  obtain ⟨haccepted, hlist, hcur, hlen, htag⟩ := shellUartWriteAsync_accepted hfree (deviceTx k)
  have hbusyLt : bs.length < shellLogBusyNum := by
    have hsizes : txQueueLen < shellLogBusyNum := by decide
    omega
  refine ⟨?_, ?_, shellUartWriteAsync_wakes hfree (deviceTx k) k⟩
  · constructor
    · exact hpending
    · exact hpendingLt
    · change (shellUartWriteAsync s.uart (deviceTx k).packet (deviceTx k).len
        (deviceTx k).tag).1.txList.Holds txQueueLen _
      rw [hlist]
      exact hdevice.put (by omega) _
    · rw [length_append, length_singleton]
      exact hroom
    · change (if isLog k.blkTag = true then s.busy.put shellLogBusyNum k.blkTag
        else s.busy).Holds shellLogBusyNum _
      split
      · rename_i hlog
        rw [filter_cons_of_pos hlog, filter_nil]
        exact hbusy.put hbusyLt _
      · rename_i hlog
        rw [filter_cons_of_neg hlog, filter_nil, append_nil]
        exact hbusy
    · have hfilter := length_filter_le isLog [k.blkTag]
      rw [length_append, length_append, length_singleton] at *
      omega
  · constructor
    · rfl
    · rfl
    · rfl
    · change (if (shellUartWriteAsync s.uart (deviceTx k).packet k.packetLen k.blkTag).2 = true
        then s.refused else s.refused + 1) = s.refused
      exact if_pos haccepted
    · exact hcur
    · exact hlen
    · exact htag

structure Sends (s s' : Shell) (ks : List TxPacket) (ds : List DevTxPacket) (bs : List Nat)
    (moved rest : List TxPacket) : Prop where
  split : ks = moved ++ rest
  queues : Queues s' rest (ds ++ moved.map deviceTx)
    (bs ++ (moved.map TxPacket.blkTag).filter isLog)
  same : SameApart s s'

theorem txReqProcess_sends (h : Queues s ks ds bs) (hknown : ∀ k ∈ ks, Known k.blkTag)
    (hrsp : ∀ k ∈ ks, k.blkTag = rspTag → s.rspOngoing = true) :
    ∃ moved rest, Sends s (txReqProcess s) ks ds bs moved rest ∧
      Wakes s.uart (txReqProcess s).uart moved ∧
      (rest ≠ [] → moved ≠ [] ∨ txQueueLen ≤ ds.length + 1) := by
  have hidle : txReqProcess s = s → Sends s (txReqProcess s) ks ds bs [] ks ∧
      Wakes s.uart (txReqProcess s).uart [] := by
    intro heq
    rw [heq]
    exact ⟨⟨rfl, by simpa using h, .refl s⟩, .refl s.uart⟩
  cases hpending : ks with
  | nil =>
    have hempty := (h.pending.empty_iff h.pending_lt).mpr hpending
    obtain ⟨hsends, hwakes⟩ := hidle (by rw [txReqProcess, if_pos hempty])
    rw [hpending] at hsends
    exact ⟨[], [], hsends, hwakes, fun hne => absurd rfl hne⟩
  | cons k rest =>
    rw [← hpending]
    rcases Nat.lt_or_ge (ds.length + 1) txQueueLen with hroom | hfull
    · subst hpending
      have hfront : s.pending.front = k := h.pending.front
      have hmem : k ∈ k :: rest := mem_cons_self
      have hk : Known k.blkTag := hknown k hmem
      have hasserts := hk.requestAsserts (hrsp k hmem)
      obtain ⟨buf, hbuf⟩ := hk.packetBuf
      have hpacket : (deviceTx k).packet = buf := by simp [deviceTx, hbuf]
      have hne : s.pending.outIdx ≠ s.pending.inIdx := by
        intro heq
        have hnil := (h.pending.empty_iff h.pending_lt).mp heq
        cases hnil
      have hready : shellUartTxReady s.uart ≠ 0 := by
        have hfree := h.device.freeItems_eq h.device_lt
        rw [shellUartTxReady, if_pos (by omega)]
        omega
      have heq : txReqProcess s = sendPacket { s with pending := s.pending.advance shellLogPendNum }
            (deviceTx k).packet k := by
        simp only [txReqProcess, if_neg hne, if_neg hready, hfront, hasserts, hbuf, hpacket,
          append_nil]
      have hlt := h.pending_lt
      rw [length_cons] at hlt
      obtain ⟨hqueues, hsame, hwakes⟩ := sendPacket_spec
        (s := { s with pending := s.pending.advance shellLogPendNum })
        h.pending.advance (by omega) h.device hroom h.busy h.busy_le
      rw [heq]
      refine ⟨[k], rest, ⟨rfl, hqueues, ?_⟩, hwakes, fun _ => .inl (cons_ne_nil k [])⟩
      exact { hsame with }
    · have hfree := h.device.freeItems_eq h.device_lt
      have hready : shellUartTxReady s.uart = 0 := by rw [shellUartTxReady, if_neg (by omega)]
      obtain ⟨hsends, hwakes⟩ := hidle (by rw [txReqProcess, if_pos hready, ite_self])
      exact ⟨[], ks, hsends, hwakes, fun _ => .inr hfull⟩

theorem sendPacket_faultHintPrint (s : Shell) (packet : Buffer) (k : TxPacket) :
    (sendPacket s packet k).faultHintPrint = s.faultHintPrint := rfl

theorem sendPacket_packetTxLen (s : Shell) (packet : Buffer) (k : TxPacket) :
    (sendPacket s packet k).uart.packetTxLen = s.uart.packetTxLen := by
  change (shellUartWriteAsync s.uart packet k.packetLen k.blkTag).1.packetTxLen = _
  rw [shellUartWriteAsync]
  split
  · rw [shellUartTxTrigger]
    split <;> rfl
  · rfl

theorem txReqProcess_keeps (s : Shell) : (txReqProcess s).faultHintPrint = s.faultHintPrint ∧
      (txReqProcess s).uart.packetTxLen = s.uart.packetTxLen := by
  rw [txReqProcess]
  split
  · exact ⟨rfl, rfl⟩
  · split
    · exact ⟨rfl, rfl⟩
    · simp only
      split
      · exact ⟨rfl, rfl⟩
      · exact ⟨sendPacket_faultHintPrint _ _ _, sendPacket_packetTxLen _ _ _⟩

end Queues

structure FreeRing (p : Pool) (freeQ : FreeQueue) (ids : List Nat) : Prop where
  ring : freeQ.blkList.Holds (blkNum p) ids
  num : freeQ.freeBlkNum = ids.length
  lt : ∀ b ∈ ids, b < blkNum p

section FreeRings

variable {freeQueue freeQueue' : Pool → FreeQueue} {ids : Pool → List Nat} {logLen : Nat}
  {ps : List Pool}

section

variable (h : ∀ q, FreeRing q (freeQueue q) (ids q))
include h

theorem FreeRing.setRing {freeQ : FreeQueue} {list : List Nat} (hp : FreeRing p freeQ list)
    (q : Pool) : FreeRing q (update freeQueue p freeQ q) (update ids p list q) := by
  rcases eq_or_ne q p with rfl | hq
  · rw [update_self, update_self]
    exact hp
  · rw [update_of_ne hq, update_of_ne hq]
    exact h q

theorem FreeRing.countEmpty (cnt : Nat) (q : Pool) :
    FreeRing q (update freeQueue p { freeQueue p with emptyCnt := cnt } q) (ids q) := by
  have hupdate := FreeRing.setRing h
    ({ h p with } : FreeRing p { freeQueue p with emptyCnt := cnt } (ids p)) q
  rwa [update_eq_self] at hupdate

theorem allocFrom_none (halloc : allocFrom logLen ps freeQueue = (freeQueue', none)) (q : Pool) :
    FreeRing q (freeQueue' q) (ids q) := by
  induction ps generalizing freeQueue with
  | nil =>
    cases halloc
    exact h q
  | cons p rest ih =>
    simp only [allocFrom] at halloc
    split at halloc
    · exact ih h halloc
    · split at halloc
      · cases halloc
      · exact ih (FreeRing.countEmpty h _) halloc

theorem allocFrom_some {tag : Nat}
    (halloc : allocFrom logLen ps freeQueue = (freeQueue', some tag)) :
    ∃ p b rest, ids p = b :: rest ∧ b < blkNum p ∧ tag = blockTag p b ∧
      ∀ q, FreeRing q (freeQueue' q) (update ids p rest q) := by
  induction ps generalizing freeQueue with
  | nil => cases halloc
  | cons p rest ih =>
    simp only [allocFrom] at halloc
    split at halloc
    · exact ih h halloc
    · split at halloc
      · rename_i hpos
        obtain ⟨hring, hnum, hlt⟩ := h p
        cases hids : ids p with
        | nil =>
          rw [hnum, hids] at hpos
          cases hpos
        | cons b list =>
          rw [hids] at hring hnum hlt
          cases halloc
          refine ⟨p, b, list, hids, hlt b mem_cons_self, ?_, ?_⟩
          · rw [hring.front, blockTag]
          · apply FreeRing.setRing h
            refine ⟨hring.advance, ?_, fun b hb => hlt b (mem_cons_of_mem _ hb)⟩
            change (freeQueue p).freeBlkNum - 1 = list.length
            rw [hnum]
            rfl
      · exact ih (FreeRing.countEmpty h _) halloc

end

theorem allocLogBlk_same {shell : Shell} {logLen : Nat} {tag : Option Nat}
    (h : allocLogBlk s logLen = (shell, tag)) :
    shell.pending = s.pending ∧ shell.uart = s.uart := by
  have hshell : (allocLogBlk s logLen).1 = shell := congrArg Prod.fst h
  rw [← hshell, allocLogBlk]
  rcases allocFrom logLen pools s.freeQueue with ⟨freeQueue, _ | tag⟩
  · exact ⟨rfl, rfl⟩
  · exact ⟨rfl, rfl⟩

theorem length_lt_of_missing {list : List Nat} {n : Nat} (hlt : ∀ x ∈ list, x < n)
    (honce : ∀ x < n, list.count x ≤ 1) (hb : b < n) (hmissing : list.count b = 0) :
    list.length < n := by
  have hnodup : (b :: list).Nodup := by
    rw [nodup_cons]
    refine ⟨count_eq_zero.mp hmissing, nodup_iff_count.mpr ?_⟩
    intro x
    rcases Nat.lt_or_ge x n with hx | hx
    · exact honce x hx
    · rw [count_eq_zero.mpr fun hmem => absurd (hlt x hmem) (Nat.not_lt.mpr hx)]
      exact Nat.zero_le 1
  have hsub : b :: list ⊆ range n := by
    intro x hx
    rcases mem_cons.mp hx with rfl | hx
    · exact mem_range.mpr hb
    · exact mem_range.mpr (hlt x hx)
  have hlen := (subperm_of_subset hnodup hsub).length_le
  rwa [length_cons, length_range] at hlen

theorem freeLogBlk_spec (h : ∀ q, FreeRing q (s.freeQueue q) (ids q)) (hb : b < blkNum p)
    (hlen : (ids p).length < blkNum p) :
    ∃ freeQueue', freeLogBlk s (blockTag p b) = { s with freeQueue := freeQueue' } ∧
      ∀ q, FreeRing q (freeQueue' q) (update ids p (ids p ++ [b]) q) := by
  have hle := blkNum_le p
  refine ⟨_, ?_, FreeRing.setRing h (⟨(h p).ring.put hlen b, ?_, ?_⟩ : FreeRing p
      { s.freeQueue p with
        blkList := (s.freeQueue p).blkList.put (blkNum p) b
        freeBlkNum := addU16 (s.freeQueue p).freeBlkNum 1 } (ids p ++ [b]))⟩
  · simp only [freeLogBlk, getQueueId_blockTag, poolOf_queueIdOf, getBlockId_blockTag hb]
    exact if_neg (Nat.not_le.mpr hb)
  · change addU16 (s.freeQueue p).freeBlkNum 1 = _
    rw [(h p).num, addU16, length_append, length_singleton]
    exact Nat.mod_eq_of_lt (by omega)
  · intro x hx
    rcases mem_append.mp hx with hx | hx
    · exact (h p).lt x hx
    · rw [mem_singleton.mp hx]
      exact hb

theorem freeLogBlk_rspOngoing (s : Shell) (tag : Nat) :
    (freeLogBlk s tag).rspOngoing = s.rspOngoing := by
  rw [freeLogBlk]
  split
  · rfl
  · split <;> rfl

theorem freeLogBlk_uart (s : Shell) (tag : Nat) : (freeLogBlk s tag).uart = s.uart := by
  rw [freeLogBlk]
  split
  · rfl
  · split <;> rfl

end FreeRings

theorem echoTurn_same (u : Uart) (b : UInt8) :
    (echoTurn u b).txList = u.txList ∧ (echoTurn u b).curPacket = u.curPacket ∧
      (echoTurn u b).packetLen = u.packetLen ∧ (echoTurn u b).packetTag = u.packetTag := by
  rw [echoTurn]
  split
  · exact ⟨rfl, rfl, rfl, rfl⟩
  · exact ⟨rfl, rfl, rfl, rfl⟩

section Completion

variable {s : Shell}

theorem shellTxComplete_block (hb : b < blkNum p) (hfront : s.busy.front = blockTag p b) :
    shellTxComplete s (.log p b) (blockTag p b) =
      txReqProcess
        (freeLogBlk { s with busy := s.busy.advance shellLogBusyNum } (blockTag p b)) := by
  have hrsp : queueIdOf p ≠ shellRspQueueId := by cases p <;> decide
  have hrom : queueIdOf p ≠ shellRomQueueId := by cases p <;> decide
  have hvalid : ¬(blockTag p b ≠ blockTag p b ∨ blkNum p ≤ b ∨
      Buffer.log p b ≠ Buffer.log p b) := by
    simpa using hb
  simp only [shellTxComplete, getQueueId_blockTag, poolOf_queueIdOf, if_neg hrsp, if_neg hrom,
    logComplete, getBlockId_blockTag hb, hfront, if_neg hvalid]

theorem shellTxComplete_rsp (h : s.rspOngoing = true) :
    shellTxComplete s .rspBuff rspTag = txReqProcess { s with rspOngoing := false } := by
  have hqueue : getQueueId rspTag = shellRspQueueId := by decide
  have hblock : getBlockId rspTag = 0 := by decide
  simp [shellTxComplete, hqueue, hblock, h]

theorem shellTxComplete_faultHint : shellTxComplete s .faultStr faultHintTag = txReqProcess s := by
  have hqueue : getQueueId faultHintTag = shellRomQueueId := by decide
  have hblock : getBlockId faultHintTag = 0 := by decide
  have hne : shellRomQueueId ≠ shellRspQueueId := by decide
  simp [shellTxComplete, hqueue, hblock, hne]

theorem shellTxComplete_cmdHint : shellTxComplete s .cmdOvfStr cmdHintTag = txReqProcess s := by
  have hqueue : getQueueId cmdHintTag = shellRomQueueId := by decide
  have hblock : getBlockId cmdHintTag = 1 := by decide
  have hne : shellRomQueueId ≠ shellRspQueueId := by decide
  simp [shellTxComplete, hqueue, hblock, hne]

theorem freeLogBlk_faultHintPrint (s : Shell) (tag : Nat) :
    (freeLogBlk s tag).faultHintPrint = s.faultHintPrint := by
  rw [freeLogBlk]
  split
  · rfl
  · split <;> rfl

theorem shellTxComplete_faultHintPrint (s : Shell) (pbuf : Buffer) (tag : Nat) :
    (shellTxComplete s pbuf tag).faultHintPrint = s.faultHintPrint := by
  rw [shellTxComplete]
  split
  · exact (txReqProcess_keeps _).1
  · split
    · exact (txReqProcess_keeps _).1
    · split
      · simp only [logComplete]
        split
        · rfl
        · exact (txReqProcess_keeps _).1.trans (freeLogBlk_faultHintPrint _ _)
      · rfl

theorem sendTurn_faultHintPrint (s : Shell) (cur : Buffer) :
    (sendTurn s cur).faultHintPrint = s.faultHintPrint := by
  rw [sendTurn]
  split
  · rfl
  · exact shellTxComplete_faultHintPrint s cur s.uart.packetTag

theorem shellUartTxTurn_faultHintPrint (s : Shell) :
    (shellUartTxTurn s).faultHintPrint = s.faultHintPrint := by
  have hnext : (shellUartTxTurn.nextPacket s).faultHintPrint = s.faultHintPrint := by
    rw [shellUartTxTurn.nextPacket]
    split
    · rfl
    · split
      · exact sendTurn_faultHintPrint _ _
      · rfl
  rw [shellUartTxTurn]
  split
  · split
    · exact hnext
    · exact sendTurn_faultHintPrint s _
  · exact hnext

end Completion

end BekenSoc.ShellLogQueues
