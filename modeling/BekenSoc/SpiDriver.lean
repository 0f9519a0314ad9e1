import Mathlib.Data.List.Basic
import BekenSoc.SignalGates

/-!
The transfers and the interrupt of `spi_driver.c` for one channel, with
`CONFIG_SPI_SUPPORT_TX_FIFO_WR_READY`.

A section with disabled interrupts is one function.  The interrupt is one function as well; the
bytes that the hardware puts in its FIFO while it runs are a parameter, cut at the two loops that
read the FIFO to its end.
-/

namespace BekenSoc.SpiDriver

open SignalGates

structure Buffer where
  id : Nat
  size : Nat
  deriving DecidableEq

structure Store where
  buf : Buffer
  offset : Nat
  data : UInt8
  deriving DecidableEq

structure Spi where
  isMaster : Bool
  bitWidth16 : Bool
  rxBuf : Option Buffer
  rxSize : Nat
  rxOffset : Nat
  isSwTxFinished : Bool
  /-- `is_tx_blocked` and `tx_sema` -/
  tx : Gate
  /-- `is_rx_blocked` and `rx_sema` -/
  rx : Gate
  rxEnabled : Bool
  /-- the length register of the hardware, in units of the bit width -/
  rxTransLen : Nat
  /-- the bytes in the FIFO of the hardware -/
  rxFifo : List UInt8
  stores : List Store
  deriving DecidableEq

def spiInit (isMaster bitWidth16 : Bool) : Spi :=
  { isMaster, bitWidth16, rxBuf := none, rxSize := 0, rxOffset := 0, isSwTxFinished := true
    tx := Gate.idle, rx := Gate.idle, rxEnabled := false, rxTransLen := 0, rxFifo := []
    stores := [] }

def setRxTransLen (s : Spi) (len : Nat) : Spi :=
  { s with rxTransLen := (if s.bitWidth16 then len / 2 else len) % 0x1000 }

def Spi.finishAfter (s : Spi) : Nat :=
  if s.bitWidth16 then 2 * s.rxTransLen else s.rxTransLen

def startRead (s : Spi) (buf : Buffer) (rx : Gate) : Spi :=
  setRxTransLen
    { s with rxSize := buf.size, rxBuf := some buf, rxOffset := 0, rx, rxFifo := []
             rxEnabled := true } buf.size

def bkSpiReadBytes (s : Spi) (buf : Buffer) : Spi := startRead s buf s.rx.arm

def bkSpiReadBytesAsync (s : Spi) (buf : Buffer) : Spi := startRead s buf s.rx.disarm

def bkSpiClrRx (s : Spi) : Spi :=
  { s with rxEnabled := false, rxSize := 0, rxOffset := 0, rxBuf := none }

def startWrite (s : Spi) (size : Nat) (tx : Gate) : Spi :=
  { s with isSwTxFinished := false, tx, rxSize := size, rxOffset := 0 }

def bkSpiWriteBytes (s : Spi) (size : Nat) : Spi := startWrite s size s.tx.arm

def bkSpiWriteBytesAsync (s : Spi) (size : Nat) : Spi := startWrite s size s.tx.disarm

def swTxFinished (s : Spi) : Spi := { s with isSwTxFinished := true }

def drainInto (rxBuf : Option Buffer) (rxSize : Nat) : List UInt8 → Nat → List Store × Nat
  | [], offset => ([], offset)
  | data :: fifo, offset =>
    match rxBuf with
    | none => drainInto rxBuf rxSize fifo offset
    | some buf =>
      if offset < rxSize then
        let rest := drainInto rxBuf rxSize fifo (offset + 1)
        (⟨buf, offset, data⟩ :: rest.1, rest.2)
      else drainInto rxBuf rxSize fifo offset

def drainFrom (s : Spi) (offset : Nat) : Spi :=
  let r := drainInto s.rxBuf s.rxSize s.rxFifo offset
  { s with stores := s.stores ++ r.1, rxOffset := r.2, rxFifo := [] }

def spiIdReadBytesCommon (s : Spi) : Spi := drainFrom s s.rxOffset

structure Interrupt where
  rxFifo : Bool
  rxFinish : Bool
  txFinish : Bool
  slaveRelease : Bool
  early : List UInt8
  between : List UInt8
  late : List UInt8
  deriving DecidableEq

def arrive (s : Spi) (bytes : List UInt8) : Spi := { s with rxFifo := s.rxFifo ++ bytes }

def rxFinishIsr (s : Spi) (rdOffset : Nat) : Spi :=
  let s := if s.rxSize ≠ 0 ∧ s.rxBuf ≠ none then drainFrom s rdOffset else s
  let s := bkSpiClrRx s
  { s with rx := s.rx.fire }

def txFinishIsr (s : Spi) : Spi :=
  if s.isSwTxFinished = true ∧ s.isMaster = true then { s with tx := s.tx.fire } else s

def slaveReleaseIsr (s : Spi) : Spi :=
  let s := if s.isMaster = false then { s with tx := s.tx.fire } else s
  { s with rx := s.rx.fire }

def spiIsrCommon (s : Spi) (i : Interrupt) : Spi :=
  let rdOffset := s.rxOffset
  let s := arrive s i.early
  let s := if i.rxFifo then spiIdReadBytesCommon s else s
  let s := arrive s i.between
  let s := if i.rxFinish then rxFinishIsr s rdOffset else s
  let s := if i.txFinish then txFinishIsr s else s
  let s := if i.slaveRelease then slaveReleaseIsr s else s
  arrive s i.late

end BekenSoc.SpiDriver
