import BekenSoc.CRuntime
import BekenSoc.SignalGates

/-!
The transfers and the interrupt of `i2c_driver.c` for one controller, without `CONFIG_FM_I2C`.

The section of a call with disabled interrupts and an interrupt are one function each.  What an
interrupt finds in the registers of the controller is a parameter of it.
-/

namespace BekenSoc.I2cDriver

open CRuntime SignalGates

inductive WorkMode
  | masterWrite
  | masterRead
  | slaveWrite
  | slaveRead
  deriving DecidableEq

inductive MasterStatus
  | idle
  | start
  | txDevAddr
  | rxDevAddr
  | txMemAddrHigh8bit
  | txMemAddrLow8bit
  | txData
  | rxData
  | stop
  | getAck
  deriving DecidableEq

structure Access where
  size : Nat
  offset : Nat
  deriving DecidableEq

structure I2c where
  workMode : WorkMode
  isWithMemAddr : Bool
  /-- `mem_addr_size` is `I2C_MEM_ADDR_SIZE_16BIT` -/
  memAddr16 : Bool
  dataSize : Nat
  dataOffset : Nat
  masterStatus : MasterStatus
  txSema : Sema
  rxSema : Sema
  accesses : List Access
  /-- the bytes that were stored since the last call began -/
  stored : List UInt8
  deriving DecidableEq

def i2cInit : I2c := ⟨.masterWrite, false, false, 0, 0, .idle, Sema.idle, Sema.idle, [], []⟩

structure Irq where
  smInt : Bool
  sclTimeout : Bool
  rxAck : Bool
  startTriggered : Bool
  stopTriggered : Bool
  isStart : Bool
  rxMode : Bool
  addrMatched : Bool
  intMode : Fin 4
  bytes : List UInt8
  deriving DecidableEq

def writeEmptyFifoNum : Fin 4 → Nat
  | 0 => 16
  | 1 => 12
  | 2 => 8
  | 3 => 4

def readFifoNum : Fin 4 → Nat
  | 0 => 12
  | 1 => 8
  | 2 => 4
  | 3 => 1

def Irq.Raised (i : Irq) : Prop := i.bytes.length = readFifoNum i.intMode

instance (i : Irq) : Decidable i.Raised := inferInstanceAs (Decidable (_ = _))

def masterStart (s : I2c) : I2c := { s with masterStatus := .txDevAddr }

def masterStop (s : I2c) : I2c := { s with masterStatus := .idle }

def setWriteDevAddr (s : I2c) : I2c :=
  if s.isWithMemAddr = false then { s with masterStatus := .txData }
  else if s.memAddr16 then { s with masterStatus := .txMemAddrHigh8bit }
  else { s with masterStatus := .txMemAddrLow8bit }

def setReadDevAddr (s : I2c) : I2c := { s with masterStatus := .rxData }

def writeMemAddrHigh8bit (s : I2c) : I2c := { s with masterStatus := .txMemAddrLow8bit }

def writeMemAddrLow8bit (s : I2c) : I2c :=
  match s.workMode with
  | .masterWrite => { s with masterStatus := .txData }
  | .masterRead => { s with masterStatus := .rxDevAddr }
  | _ => s

def setTransfer (s : I2c) (workMode : WorkMode) (memAddr16 : Option Bool) (size : Nat) : I2c :=
  { s with
    workMode
    isWithMemAddr := memAddr16.isSome
    memAddr16 := memAddr16.getD s.memAddr16
    dataSize := size
    dataOffset := 0
    stored := [] }

def bkI2cMasterWrite (s : I2c) (size : Nat) : I2c :=
  setWriteDevAddr (masterStart (setTransfer s .masterWrite none size))

def bkI2cMasterRead (s : I2c) (size : Nat) : I2c :=
  setReadDevAddr (masterStart (setTransfer s .masterRead none size))

def bkI2cSlaveWrite (s : I2c) (size : Nat) : I2c := setTransfer s .slaveWrite none size

def bkI2cSlaveRead (s : I2c) (size : Nat) : I2c := setTransfer s .slaveRead none size

def bkI2cMemoryWrite (s : I2c) (memAddr16 : Bool) (size : Nat) : I2c :=
  setWriteDevAddr (masterStart (setTransfer s .masterWrite (some memAddr16) size))

def bkI2cMemoryRead (s : I2c) (memAddr16 : Bool) (size : Nat) : I2c :=
  setWriteDevAddr (masterStart (setTransfer s .masterRead (some memAddr16) size))

def access (s : I2c) : I2c :=
  { s with
    accesses := s.accesses ++ [⟨s.dataSize, s.dataOffset⟩]
    dataOffset := addU32 s.dataOffset 1 }

def accessTimes : Nat → I2c → I2c
  | 0, s => s
  | n + 1, s => accessTimes n (access s)

def storeByte (s : I2c) (byte : UInt8) : I2c := { access s with stored := s.stored ++ [byte] }

def i2c1MasterWriteData (s : I2c) (i : Irq) : I2c :=
  let remainSize := subU32 s.dataSize s.dataOffset
  if remainSize = 0 then { masterStop s with txSema := s.txSema.post }
  else
    let emptyFifoNum := writeEmptyFifoNum i.intMode
    let dataSize := if remainSize < emptyFifoNum then remainSize else emptyFifoNum
    { accessTimes dataSize s with masterStatus := .txData }

def masterReadLoop : List UInt8 → I2c → I2c
  | [], s => s
  | byte :: bytes, s =>
    let s := storeByte s byte
    if s.dataOffset = s.dataSize then s else masterReadLoop bytes s

def i2c1MasterReadData (s : I2c) (i : Irq) : I2c :=
  if i.isStart then { s with masterStatus := .rxData }
  else
    let s := masterReadLoop i.bytes s
    if subU32 s.dataSize s.dataOffset = 0 then
      { masterStop s with rxSema := s.rxSema.post }
    else { s with masterStatus := .rxData }

def i2cMasterIsrCommon (s : I2c) (i : Irq) : I2c :=
  match s.masterStatus with
  | .start => masterStart s
  | .txDevAddr => setWriteDevAddr s
  | .rxDevAddr => setReadDevAddr s
  | .txMemAddrHigh8bit => writeMemAddrHigh8bit s
  | .txMemAddrLow8bit => writeMemAddrLow8bit s
  | .txData => i2c1MasterWriteData s i
  | .rxData => i2c1MasterReadData s i
  | .stop => masterStop s
  | .idle | .getAck => { s with masterStatus := .idle }

def slaveReadLoop : List UInt8 → I2c → Nat → I2c × Nat
  | [], s, remainSize => (s, remainSize)
  | byte :: bytes, s, remainSize =>
    let s := storeByte s byte
    let remainSize := subU32 remainSize 1
    if remainSize = 0 then (s, remainSize) else slaveReadLoop bytes s remainSize

def slaveWriteIsr (s : I2c) (i : Irq) : I2c :=
  if i.stopTriggered || i.rxMode then { s with txSema := s.txSema.post }
  else if i.rxAck then access s
  else s

def slaveReadIsr (s : I2c) (i : Irq) : I2c :=
  if i.stopTriggered then { s with rxSema := s.rxSema.post }
  else if i.addrMatched then s
  else
    let r := slaveReadLoop i.bytes s (subU32 s.dataSize s.dataOffset)
    if r.2 = 0 then { r.1 with rxSema := r.1.rxSema.post } else r.1

def masterWriteIsr (s : I2c) (i : Irq) : I2c :=
  if i.rxAck = false then { masterStop s with txSema := s.txSema.post }
  else i2cMasterIsrCommon s i

def masterReadIsr (s : I2c) (i : Irq) : I2c :=
  if i.startTriggered = true ∧ i.rxAck = false then
    { s with masterStatus := .idle, rxSema := s.rxSema.post }
  else i2cMasterIsrCommon s i

def i2c1IsrCommon (s : I2c) (i : Irq) : I2c :=
  if i.smInt = false then
    if i.sclTimeout then { s with masterStatus := .idle } else s
  else
    match s.workMode with
    | .masterWrite => masterWriteIsr s i
    | .masterRead => masterReadIsr s i
    | .slaveWrite => slaveWriteIsr s i
    | .slaveRead => slaveReadIsr s i

end BekenSoc.I2cDriver
