import BekenSoc.CRuntime
import BekenSoc.StreamingCard

/-!
The multi-block transfers of the SD card driver in the BK7256XX configuration.

Transfers that follow each other go on without a command.  The driver remembers the direction and
the block after the last transfer, and whether a stop was sent since.
-/

namespace BekenSoc.SdCard

open CRuntime StreamingCard

inductive Direction
  | rdData
  | wrData
  deriving DecidableEq

structure Driver (size : Nat) (β : Type*) where
  /-- `no_need_send_cmd12_flag` -/
  noNeedSendCmd12 : Bool
  /-- `SDIO_WR_flag` -/
  wrFlag : Direction
  /-- `last_WR_addr` -/
  lastWrAddr : Nat
  addrShiftBit : Nat
  card : Card size β

variable {size : Nat} {β : Type*}

def sdcardInitialize (card : Card size β) (addrShiftBit : Nat) : Driver size β :=
  ⟨true, .rdData, 0, addrShiftBit, card⟩

def sdOk : Nat := 0

def sdCmdCrcFail : Nat := 1

def sdDataCrcFail : Nat := 2

def sdCmdRspTimeout : Nat := 3

def sdDataTimeout : Nat := 4

def sdError : Nat := 9

def sdioWaitCmdResponse : Response → Nat
  | .ok => sdOk
  | .crcFail => sdCmdCrcFail
  | .timeout => sdCmdRspTimeout

inductive OpFlag
  | goOn
  | writeStop
  | readStop
  /-- a stop has been sent -/
  | stopSent
  deriving DecidableEq

def blockArg (s : Driver size β) (firstBlock : Nat) : Nat :=
  firstBlock * 2 ^ s.addrShiftBit % 2 ^ 32

def startBlock (s : Driver size β) (firstBlock : Nat) : Nat :=
  blockArg s firstBlock / 2 ^ s.addrShiftBit

def sdcardCmd12Process (c : Card size β) (fate : CmdFate) : Nat × Card size β :=
  let (response, c) := c.stop fate
  (sdioWaitCmdResponse response, c)

def sdcardSendReadStop (c : Card size β) (fate : CmdFate) : Nat × Card size β :=
  sdcardCmd12Process c fate

def sdcardSendWriteStop (c : Card size β) (err : Nat) (fate : CmdFate) : Nat × Card size β :=
  let (ret, c) := sdcardCmd12Process c fate
  (ret + err, c)

def sendStop (c : Card size β) (fate : CmdFate) : OpFlag → Nat × Card size β
  | .writeStop => sdcardSendWriteStop c 0 fate
  | .readStop => sdcardSendReadStop c fate
  | .goOn | .stopSent => (sdOk, c)

structure Received (size : Nat) (β : Type*) where
  ret : Nat
  buff : List β
  card : Card size β

def rcvCount (blockNum : Nat) : Nat := max 1 (blockNum * 512 % 2 ^ 32 / 512)

/-- A block with a bad CRC is noted and the others are received all the same. -/
def rcvLoop : Nat → Card size β → (Nat → SendFate β) → Nat → List β → Received size β
  | 0, c, _, ret, buff => ⟨ret, buff, c⟩
  | n + 1, c, fate, ret, buff =>
    match c.send (fate 0) with
    | (none, c) => ⟨sdDataTimeout, buff, c⟩
    | (some (block, crcOk), c) =>
      rcvLoop n c (fun k => fate (k + 1)) (if crcOk then ret else sdDataCrcFail) (buff ++ [block])

def sdcardRcvData (c : Card size β) (blockNum : Nat) (fate : Nat → SendFate β) : Received size β :=
  rcvLoop (rcvCount blockNum) c fate sdOk []

def acmd6Retry (c : Card size β) : Nat → (Nat → CmdFate) → Nat → Nat
  | 0, _, ret2 => ret2
  | n + 1, fate, _ =>
    let ret2 := sdioWaitCmdResponse (c.poll (fate 0))
    if ret2 = sdOk then ret2 else acmd6Retry c n (fun k => fate (k + 1)) ret2

structure ReadFates (β : Type*) where
  stop : CmdFate
  acmd6 : Nat → CmdFate
  cmd18 : CmdFate
  blocks : Nat → SendFate β
  lastStop : CmdFate

def readOpFlag (s : Driver size β) (firstBlock : Nat) : OpFlag :=
  if s.noNeedSendCmd12 then .stopSent
  else
    match s.wrFlag with
    | .wrData => .writeStop
    | .rdData => if s.lastWrAddr = firstBlock then .goOn else .readStop

def startReceive (s : Driver size β) (c : Card size β) (firstBlock blockNum : Nat)
    (f : ReadFates β) : Received size β :=
  let (response, c) := c.startRead (startBlock s firstBlock) f.cmd18
  let ret2 := sdioWaitCmdResponse response
  if ret2 = sdOk then sdcardRcvData c blockNum f.blocks else ⟨ret2, [], c⟩

def checkBusy (s : Driver size β) (op : OpFlag) (c : Card size β) (fate : Nat → CmdFate) : Nat :=
  if op = .writeStop ∨ op = .readStop ∨ op = .stopSent ∧ s.wrFlag = .wrData then
    acmd6Retry c 256 fate 0
  else 0

def readAfterCommands (s : Driver size β) (op : OpFlag) (firstBlock blockNum : Nat)
    (f : ReadFates β) : Received size β :=
  let (ret, c) := sendStop s.card f.stop op
  let ret2 := checkBusy s op c f.acmd6
  if ret2 = sdOk then
    let r := startReceive s c firstBlock blockNum f
    { r with ret := ret + r.ret }
  else ⟨ret + ret2, [], c⟩

structure ReadResult (size : Nat) (β : Type*) where
  ret : Nat
  buff : List β
  driver : Driver size β

def readTransfer (s : Driver size β) (firstBlock blockNum : Nat) (f : ReadFates β) :
    Received size β :=
  let op := readOpFlag s firstBlock
  if op = .goOn then sdcardRcvData s.card blockNum f.blocks
  else readAfterCommands s op firstBlock blockNum f

def sdcardReadMultiBlock (s : Driver size β) (firstBlock blockNum : Nat) (f : ReadFates β) :
    ReadResult size β :=
  let r := readTransfer s firstBlock blockNum f
  let (ret, c) :=
    if r.ret = sdOk then (r.ret, r.card)
    else
      let (stop, c) := sdcardSendReadStop r.card f.lastStop
      (r.ret + stop, c)
  { ret
    buff := r.buff
    driver := { s with
      noNeedSendCmd12 := decide (r.ret ≠ sdOk)
      wrFlag := .rdData
      lastWrAddr := addU32 firstBlock blockNum
      card := c } }

def writeChecked : Card size β → List β → (Nat → TakeFate) → Nat × Card size β
  | c, [], _ => (sdOk, c)
  | c, block :: blocks, fate =>
    match c.take block (fate 0) with
    | (true, c) => writeChecked c blocks fun k => fate (k + 1)
    | (false, c) => (sdError, c)

/-- The write status of the first block after the command is not checked. -/
def sdcardWriteData (c : Card size β) (firstDataAfterCmd : Bool) (writeBuff : List β)
    (fate : Nat → TakeFate) : Nat × Card size β :=
  match firstDataAfterCmd, writeBuff with
  | true, block :: blocks => writeChecked (c.take block (fate 0)).2 blocks fun k => fate (k + 1)
  | _, blocks => writeChecked c blocks fate

structure TryFates where
  cmd25 : CmdFate
  blocks : Nat → TakeFate

structure WriteFates where
  stop : CmdFate
  tries : Nat → TryFates
  blocks : Nat → TakeFate
  lastStop : CmdFate

def writeOpFlag (s : Driver size β) (firstBlock : Nat) : OpFlag :=
  if s.noNeedSendCmd12 then .stopSent
  else
    match s.wrFlag with
    | .rdData => .readStop
    | .wrData => if s.lastWrAddr = firstBlock then .goOn else .writeStop

def writeRetry (block : Nat) (writeBuff : List β) :
    Nat → Card size β → (Nat → TryFates) → Nat → Nat × Card size β
  | 0, c, _, ret2 => (ret2, c)
  | n + 1, c, f, _ =>
    let (response, c) := c.startWrite block (f 0).cmd25
    let ret2 := sdioWaitCmdResponse response
    if ret2 = sdOk then
      let (ret2, c) := sdcardWriteData c true writeBuff (f 0).blocks
      if ret2 = sdOk then (ret2, c)
      else writeRetry block writeBuff n c (fun k => f (k + 1)) ret2
    else writeRetry block writeBuff n c (fun k => f (k + 1)) ret2

def writeAfterCommands (s : Driver size β) (op : OpFlag) (firstBlock : Nat) (writeBuff : List β)
    (f : WriteFates) : Nat × Card size β :=
  let (ret, c) := sendStop s.card f.stop op
  if ret = sdOk then
    let (ret2, c) := writeRetry (startBlock s firstBlock) writeBuff 16 c f.tries 0
    (ret + ret2, c)
  else (ret, c)

def writeTransfer (s : Driver size β) (firstBlock : Nat) (writeBuff : List β)
    (f : WriteFates) : Nat × Card size β :=
  let op := writeOpFlag s firstBlock
  if op = .goOn then sdcardWriteData s.card false writeBuff f.blocks
  else writeAfterCommands s op firstBlock writeBuff f

def sdcardWriteMultiBlock (s : Driver size β) (firstBlock : Nat) (writeBuff : List β)
    (f : WriteFates) : Nat × Driver size β :=
  let r := writeTransfer s firstBlock writeBuff f
  let (ret, c) :=
    if r.1 = sdOk then r
    else
      let (stop, c) := sdcardSendWriteStop r.2 r.1 f.lastStop
      (r.1 + stop, c)
  (ret, { s with
    noNeedSendCmd12 := decide (r.1 ≠ sdOk)
    wrFlag := .wrData
    lastWrAddr := addU32 firstBlock writeBuff.length
    card := c })

def sdcardCtrl (s : Driver size β) (fate : CmdFate) : Driver size β :=
  if s.noNeedSendCmd12 then s
  else
    { s with
      noNeedSendCmd12 := true
      card := (sdcardSendWriteStop s.card 0 fate).2 }

end BekenSoc.SdCard
