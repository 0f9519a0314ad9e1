import BekenSoc.CRuntime
import BekenSoc.RingBuffers

/-!
The log output of the shell (`bk_cli/shell_task.c`) over its UART (`shell_uart.c`), on the
core where logs, responses and commands share the UART.

A log goes through four rings: its block is taken from the free ring of a pool, waits in
the pending queue, is then both in the busy queue and in the queue of the device, and is
put back when it has been sent.
-/

namespace BekenSoc.ShellLog

open CRuntime RingBuffers

inductive Pool
  | buf3
  | buf2
  | buf1
  deriving DecidableEq

def pools : List Pool := [.buf3, .buf2, .buf1]

def queueIdOf : Pool → Nat
  | .buf3 => 0
  | .buf2 => 1
  | .buf1 => 2

def poolOf : Nat → Option Pool
  | 0 => some .buf3
  | 1 => some .buf2
  | 2 => some .buf1
  | _ => none

def blkNum : Pool → Nat
  | .buf3 => 64
  | .buf2 => 48
  | .buf1 => 16

def blkLen : Pool → Nat
  | .buf3 => 40
  | .buf2 => 64
  | .buf1 => 136

def shellLogBufNum : Nat := 16 + 48 + 64

def shellLogPendNum : Nat := shellLogBufNum * 2 + 3

def shellLogBusyNum : Nat := 20

def txQueueLen : Nat := 8

def echoBuffSize : Nat := 64

def shellRspQueueId : Nat := 7

def shellRomQueueId : Nat := 9

def shellFaultStrLen : Nat := 27

def getBlockId (blockTag : Nat) : Nat := blockTag % 256

def getQueueId (blockTag : Nat) : Nat := blockTag / 256 % 16

def makeBlockTag (blkId qId : Nat) : Nat := blkId % 256 + qId % 16 * 256

inductive Buffer
  | log (p : Pool) (blkId : Nat)
  | rspBuff
  | faultStr
  | cmdOvfStr
  deriving DecidableEq

structure TxPacket where
  blkTag : Nat
  packetLen : Nat
  deriving DecidableEq

structure DevTxPacket where
  packet : Buffer
  len : Nat
  tag : Nat
  deriving DecidableEq

structure Uart where
  txList : RingBuffer DevTxPacket
  curPacket : Option Buffer
  packetLen : Nat
  packetTag : Nat
  packetTxLen : Nat
  txStopped : Bool
  txInterrupt : Bool
  echo : RingBuffer UInt8

structure FreeQueue where
  blkList : RingBuffer Nat
  freeBlkNum : Nat
  emptyCnt : Nat

inductive Assert
  /-- `FAULT: in rsp.` -/
  | rspComplete
  /-- `FATAL:t-%x,p-%x` -/
  | romComplete (bufTag : Nat) (pbuf : Buffer)
  /-- `FATAL:%x,%x` -/
  | busyComplete (bufTag blockTag : Nat)
  /-- `FATAL:%x,` -/
  | unknownComplete (bufTag : Nat)
  /-- `xFATAL: in Tx_req` -/
  | rspRequest
  /-- `xFATAL: in Tx_req id=%x` -/
  | romRequest (blkId : Nat)
  /-- `xFATAL: in Tx_req %x.` -/
  | unknownRequest (blockTag : Nat)

structure Shell where
  freeQueue : Pool → FreeQueue
  pending : RingBuffer TxPacket
  busy : RingBuffer Nat
  rspOngoing : Bool
  faultHintPrint : Bool
  shellLogOverflow : Nat
  shellLogCount : Nat
  uart : Uart
  asserts : List Assert
  /-- the calls of `write_async` in `tx_req_process` that have returned 0 -/
  refused : Nat

def allocFrom (logLen : Nat) : List Pool → (Pool → FreeQueue) → (Pool → FreeQueue) × Option Nat
  | [], freeQueue => (freeQueue, none)
  | p :: rest, freeQueue =>
    let freeQ := freeQueue p
    if blkLen p < logLen then allocFrom logLen rest freeQueue
    else if 0 < freeQ.freeBlkNum then
      (Function.update freeQueue p { freeQ with
          blkList := freeQ.blkList.advance (blkNum p)
          freeBlkNum := freeQ.freeBlkNum - 1 },
        some (makeBlockTag freeQ.blkList.front (queueIdOf p)))
    else
      allocFrom logLen rest
        (Function.update freeQueue p { freeQ with emptyCnt := addU32 freeQ.emptyCnt 1 })

def allocLogBlk (s : Shell) (logLen : Nat) : Shell × Option Nat :=
  match allocFrom logLen pools s.freeQueue with
  | (freeQueue, none) =>
    ({ s with freeQueue := freeQueue, shellLogOverflow := addU32 s.shellLogOverflow 1 }, none)
  | (freeQueue, some tag) =>
    ({ s with
        freeQueue := freeQueue
        faultHintPrint := false
        shellLogCount := addU32 s.shellLogCount 1 }, some tag)

def freeLogBlk (s : Shell) (blockTag : Nat) : Shell :=
  match poolOf (getQueueId blockTag) with
  | none => s
  | some p =>
    if blkNum p ≤ getBlockId blockTag then s
    else
      let freeQ := s.freeQueue p
      { s with
        freeQueue := Function.update s.freeQueue p { freeQ with
            blkList := freeQ.blkList.put (blkNum p) (getBlockId blockTag)
            freeBlkNum := addU16 freeQ.freeBlkNum 1 } }

def pushPendingQueue (s : Shell) (blkTag dataLen : Nat) : Shell :=
  { s with pending := s.pending.put shellLogPendNum ⟨blkTag, dataLen⟩ }

def shellUartTxTrigger (u : Uart) : Uart :=
  if u.txStopped then { u with txStopped := false, txInterrupt := true } else u

def shellUartWriteAsync (u : Uart) (pBuf : Buffer) (bufLen tag : Nat) : Uart × Bool :=
  if 1 < u.txList.freeItems txQueueLen then
    (shellUartTxTrigger { u with txList := u.txList.put txQueueLen ⟨pBuf, bufLen, tag⟩ }, true)
  else (u, false)

def shellUartTxReady (u : Uart) : Nat :=
  if 1 < u.txList.freeItems txQueueLen then u.txList.freeItems txQueueLen - 1 else 0

def packetBuf (blockTag : Nat) : Option Buffer :=
  match poolOf (getQueueId blockTag) with
  | some p => if getBlockId blockTag < blkNum p then some (.log p (getBlockId blockTag)) else none
  | none =>
    if getQueueId blockTag = shellRspQueueId then some .rspBuff
    else if getQueueId blockTag = shellRomQueueId then
      if getBlockId blockTag = 0 then some .faultStr
      else if getBlockId blockTag = 1 then some .cmdOvfStr
      else none
    else none

def requestAsserts (rspOngoing : Bool) (blockTag : Nat) : List Assert :=
  match poolOf (getQueueId blockTag) with
  | some _ => []
  | none =>
    if getQueueId blockTag = shellRspQueueId then
      if !rspOngoing || decide (getBlockId blockTag ≠ 0) then [.rspRequest] else []
    else if getQueueId blockTag = shellRomQueueId then
      if getBlockId blockTag = 0 || getBlockId blockTag = 1 then []
      else [.romRequest (getBlockId blockTag)]
    else [.unknownRequest blockTag]

def sendPacket (s : Shell) (packet : Buffer) (k : TxPacket) : Shell :=
  let busy :=
    if (poolOf (getQueueId k.blkTag)).isSome then s.busy.put shellLogBusyNum k.blkTag else s.busy
  let w := shellUartWriteAsync s.uart packet k.packetLen k.blkTag
  { s with busy := busy, uart := w.1, refused := if w.2 then s.refused else s.refused + 1 }

def txReqProcess (s : Shell) : Shell :=
  if s.pending.outIdx = s.pending.inIdx then s
  else if shellUartTxReady s.uart = 0 then s
  else
    let k := s.pending.front
    let s' := { s with
      pending := s.pending.advance shellLogPendNum
      asserts := s.asserts ++ requestAsserts s.rspOngoing k.blkTag }
    match packetBuf k.blkTag with
    | none => s'
    | some packet => sendPacket s' packet k

def logComplete (s : Shell) (p : Pool) (pbuf : Buffer) (bufTag : Nat) : Shell :=
  let blockTag := s.busy.front
  if bufTag ≠ blockTag ∨ blkNum p ≤ getBlockId bufTag ∨ Buffer.log p (getBlockId bufTag) ≠ pbuf then
    { s with asserts := s.asserts ++ [.busyComplete bufTag blockTag] }
  else
    txReqProcess (freeLogBlk { s with busy := s.busy.advance shellLogBusyNum } blockTag)

def shellTxComplete (s : Shell) (pbuf : Buffer) (bufTag : Nat) : Shell :=
  if getQueueId bufTag = shellRspQueueId then
    let asserts :=
      if pbuf ≠ .rspBuff ∨ getBlockId bufTag ≠ 0 ∨ s.rspOngoing = false then [.rspComplete] else []
    txReqProcess { s with asserts := s.asserts ++ asserts, rspOngoing := false }
  else if getQueueId bufTag = shellRomQueueId then
    let asserts :=
      if getBlockId bufTag = 0 ∧ pbuf = .faultStr ∨ getBlockId bufTag = 1 ∧ pbuf = .cmdOvfStr
      then [] else [.romComplete bufTag pbuf]
    txReqProcess { s with asserts := s.asserts ++ asserts }
  else
    match poolOf (getQueueId bufTag) with
    | some p => logComplete s p pbuf bufTag
    | none => { s with asserts := s.asserts ++ [.unknownComplete bufTag] }

def sendTurn (s : Shell) (cur : Buffer) : Shell :=
  if s.uart.packetTxLen < s.uart.packetLen then
    { s with uart := { s.uart with packetTxLen := s.uart.packetTxLen + 1 } }
  else
    let s' := shellTxComplete s cur s.uart.packetTag
    { s' with
      uart := { s'.uart with
        curPacket := none
        packetLen := 0
        packetTxLen := 0
        txList := s'.uart.txList.advance txQueueLen } }

def shellUartTxTurn (s : Shell) : Shell :=
  match s.uart.curPacket with
  | some cur => if s.uart.packetLen = 0 then nextPacket else sendTurn s cur
  | none => nextPacket
where
  nextPacket : Shell :=
    if s.uart.echo.outIdx ≠ s.uart.echo.inIdx then
      { s with uart := { s.uart with echo := s.uart.echo.advance echoBuffSize } }
    else if s.uart.txList.outIdx ≠ s.uart.txList.inIdx then
      let d := s.uart.txList.front
      sendTurn { s with uart := { s.uart with
            curPacket := some d.packet
            packetLen := d.len
            packetTag := d.tag
            packetTxLen := 0 } } d.packet
    else { s with uart := { s.uart with txInterrupt := false, txStopped := true } }

inductive Written
  | echo (b : UInt8)
  | packet (buf : Buffer) (i : Nat)
  deriving DecidableEq

def sendTurnWrites (u : Uart) (cur : Buffer) : Option Written :=
  if u.packetTxLen < u.packetLen then some (.packet cur u.packetTxLen) else none

def shellUartTxTurnWrites (u : Uart) : Option Written :=
  match u.curPacket with
  | some cur => if u.packetLen = 0 then nextPacketWrites else sendTurnWrites u cur
  | none => nextPacketWrites
where
  nextPacketWrites : Option Written :=
    if u.echo.outIdx ≠ u.echo.inIdx then some (.echo u.echo.front)
    else if u.txList.outIdx ≠ u.txList.inIdx then
      let d := u.txList.front
      sendTurnWrites { u with
          curPacket := some d.packet
          packetLen := d.len
          packetTag := d.tag
          packetTxLen := 0 } d.packet
    else none

def echoTurn (u : Uart) (b : UInt8) : Uart :=
  if 1 < u.echo.freeItems echoBuffSize then { u with echo := u.echo.put echoBuffSize b } else u

def Uart.start : Uart where
  txList := ⟨fun _ => ⟨.rspBuff, 0, 0⟩, 0, 0⟩
  curPacket := none
  packetLen := 0
  packetTag := 0
  packetTxLen := 0
  txStopped := true
  txInterrupt := false
  echo := ⟨fun _ => 0, 0, 0⟩

def Shell.start : Shell where
  freeQueue := fun p => ⟨⟨fun i => i, 0, 0⟩, blkNum p, 0⟩
  pending := ⟨fun _ => ⟨0, 0⟩, 0, 0⟩
  busy := ⟨fun _ => 0, 0, 0⟩
  rspOngoing := false
  faultHintPrint := false
  shellLogOverflow := 0
  shellLogCount := 0
  uart := Uart.start
  asserts := []
  refused := 0

end BekenSoc.ShellLog
