import BekenSoc.SignalGates

/-!
The SDIO host driver of BK7256XX: what its interrupt handler shares with the calls.

A command that ends is reported through the queue `irq_cmd_msg`, the end of a block through the
flags `is_tx_blocked` and `is_rx_blocked` with their semaphores.
-/

namespace BekenSoc.SdioHost

open SignalGates

structure IntStatus where
  cmdRsp : Bool
  cmdEnd : Bool
  cmdRspCrcOk : Bool
  cmdRspCrcFail : Bool
  dataWriteEnd : Bool
  wrStatus : Nat
  dataRecvEnd : Bool
  dataTimeout : Bool
  dataCrcOk : Bool
  /-- the command that has ended, by its number in a run; the status itself does not tell -/
  command : Nat
  deriving DecidableEq

def IntStatus.none : IntStatus := ⟨false, false, false, false, false, 0, false, false, false, 0⟩

structure Host where
  isInit : Bool
  irqCmdMsg : List IntStatus
  /-- `is_tx_blocked` and `tx_sema` -/
  tx : Gate
  /-- `is_rx_blocked` and `rx_sema` -/
  rx : Gate
  deriving DecidableEq

def irqCmdMsgLength : Nat := 16

def sdioBlockSize : Nat := 0x200

def wrStatusOk : Nat := 2

def bkSdioHostDriverInit : Host := ⟨true, [], Gate.idle, Gate.idle⟩

inductive HostErr
  | bkOk
  | kTimeoutErr
  | cmdRspTimeout
  | notInit
  | nullParam
  deriving DecidableEq

def pushCmdMsg (s : Host) (status : IntStatus) : Host :=
  if s.irqCmdMsg.length < irqCmdMsgLength then
    { s with irqCmdMsg := s.irqCmdMsg ++ [status] }
  else s

def cmdRspOk (status : IntStatus) : Bool := status.cmdRspCrcOk || !status.cmdRspCrcFail

def sdioHostIsr (s : Host) (status : IntStatus) : Host :=
  if status.cmdRsp then
    if status.cmdEnd then
      if cmdRspOk status then pushCmdMsg s status else s
    else s
  else if status.dataWriteEnd then
    -- a write status other than `wrStatusOk` is logged and not used
    { s with tx := s.tx.fire }
  else if status.dataRecvEnd || status.dataTimeout then
    -- without a good CRC the block is dropped, and the wait for it is left to run out
    if status.dataCrcOk then { s with rx := s.rx.fire } else s
  else s

def reportsCmd (status : IntStatus) : Bool := status.cmdRsp && status.cmdEnd && cmdRspOk status

def reportsWrite (status : IntStatus) : Bool := !status.cmdRsp && status.dataWriteEnd

def reportsRead (status : IntStatus) : Bool :=
  !status.cmdRsp && !status.dataWriteEnd && (status.dataRecvEnd || status.dataTimeout) &&
    status.dataCrcOk

variable (s : Host) (status : IntStatus)

theorem pushCmdMsg_tx : (pushCmdMsg s status).tx = s.tx := by
  unfold pushCmdMsg
  split <;> rfl

theorem pushCmdMsg_rx : (pushCmdMsg s status).rx = s.rx := by
  unfold pushCmdMsg
  split <;> rfl

theorem sdioHostIsr_irqCmdMsg : (sdioHostIsr s status).irqCmdMsg =
    if reportsCmd status then (pushCmdMsg s status).irqCmdMsg else s.irqCmdMsg := by
  unfold sdioHostIsr reportsCmd
  cases status.cmdRsp <;> cases status.cmdEnd <;> cases cmdRspOk status <;>
    cases status.dataWriteEnd <;> cases status.dataRecvEnd || status.dataTimeout <;>
    cases status.dataCrcOk <;> rfl

theorem sdioHostIsr_tx : (sdioHostIsr s status).tx =
    if reportsWrite status then s.tx.fire else s.tx := by
  unfold sdioHostIsr reportsWrite
  cases status.cmdRsp with
  | true => cases status.cmdEnd <;> cases cmdRspOk status <;> first | rfl | exact pushCmdMsg_tx _ _
  | false =>
    cases status.dataWriteEnd <;> cases status.dataRecvEnd || status.dataTimeout <;>
      cases status.dataCrcOk <;> rfl

theorem sdioHostIsr_rx : (sdioHostIsr s status).rx =
    if reportsRead status then s.rx.fire else s.rx := by
  unfold sdioHostIsr reportsRead
  cases status.cmdRsp with
  | true => cases status.cmdEnd <;> cases cmdRspOk status <;> first | rfl | exact pushCmdMsg_rx _ _
  | false =>
    cases status.dataWriteEnd <;> cases status.dataRecvEnd || status.dataTimeout <;>
      cases status.dataCrcOk <;> rfl

end BekenSoc.SdioHost
