import Mathlib.Data.List.FinRange
import BekenSoc.DualCore

/-!
Logical channels over the mailbox hardware (`mailbox_channel.c` and the send and
receive functions of `mailbox_driver_base.c`), on both CPUs.

Each CPU sends through two boxes of its own: box 0 takes commands and box 1 takes
acknowledges.  A step is one piece of a call that interrupts cannot split, or one
half of an interrupt: reading and clearing a box, or handling what was read.  The
application on top is a parameter: what its callbacks do to its own state, and
what they answer.  A callback that writes to a channel is a task that writes
between the two halves of the interrupt.
-/

namespace BekenSoc.MailboxChannel

open Function DualCore

-- MB_LOG_CHNL_NUM channels; the smaller number has the higher priority
abbrev Chnl := Fin 8

def mbChnlHwCtrl : Chnl := 0
def mbChnlRpc : Chnl := 1

inductive ChnlState
  | idle
  | busy
  deriving DecidableEq

structure PhyHdr where
  cmd : Nat
  comFail : Bool
  ackBox : Bool
  syncTx : Bool
  txSeq : Nat
  logicalChnl : Chnl
  deriving DecidableEq

/-- `mailbox_data_t`.  `tag` is not in the code: it numbers the accepted writes of
the logical channel, and an acknowledge carries the tag of its command. -/
structure MailboxData where
  hdr : PhyHdr
  param1 : Nat
  param2 : Nat
  param3 : Nat
  tag : Nat
  deriving DecidableEq

def MailboxData.zero : MailboxData := ⟨⟨0, false, false, false, 0, 0⟩, 0, 0, 0, 0⟩

structure Box where
  ready : Bool
  data : MailboxData

def bkMailboxSend (box : Box) (data : MailboxData) : Option Box :=
  if box.ready then none else some ⟨true, data⟩

structure PhyChnl where
  txState : ChnlState
  txSeq : Nat
  txLogChnlId : Chnl
  rxFaultCnt : Nat
  txFaultCnt : Nat

structure LogChnl where
  txState : ChnlState
  inUsed : Bool
  rxIsr : Bool
  txCmplIsr : Bool
  txBuff : MailboxData
  writes : Nat

/-- Where a task stands in `mb_chnl_write` or in the `MB_CHNL_WRITE_SYNC` of
`mb_chnl_ctrl`. -/
inductive Pc
  | idle
  | copy (ch : Chnl) (data : MailboxData)
  | mark (ch : Chnl)
  | startTx (ch : Chnl)
  | syncCheck (data : MailboxData)
  | syncWrite (data : MailboxData)
  | syncTrigger
  deriving DecidableEq

inductive Note
  | sent (ch : Chnl) (tag : Nat)
  | done (ch : Chnl) (tag : Nat)
  deriving DecidableEq

/-- One CPU, with the boxes it sends through.  `isr` is the message that its
interrupt handler has read and not yet handled; the newest note comes first. -/
structure Core (n : Nat) where
  phy : PhyChnl
  log : Chnl → LogChnl
  cmdBox : Box
  ackBox : Box
  isr : Option MailboxData
  pc : Fin n → Pc
  notes : List Note

def Core.init (n : Nat) : Core n where
  phy := ⟨.idle, 0, 0, 0, 0⟩
  log _ := ⟨.idle, false, false, false, .zero, 0⟩
  cmdBox := ⟨false, .zero⟩
  ackBox := ⟨false, .zero⟩
  isr := none
  pc _ := .idle
  notes := []

namespace Core

variable {n : Nat}

def setPc (s : Core n) (i : Fin n) (pc : Pc) : Core n := { s with pc := update s.pc i pc }

def setLog (s : Core n) (ch : Chnl) (l : LogChnl) : Core n := { s with log := update s.log ch l }

def setPhyState (s : Core n) (state : ChnlState) : Core n :=
  { s with phy := { s.phy with txState := state } }

end Core

section Calls

variable {n : Nat}

def txData (s : Core n) (ch : Chnl) : MailboxData :=
  let buff := (s.log ch).txBuff
  { buff with hdr := { buff.hdr with
      comFail := false, ackBox := false, syncTx := false
      txSeq := (s.phy.txSeq + 1) % 256, logicalChnl := ch } }

/-- `mb_phy_chnl_tx_cmd`; the flag is true for the return value 0.  The sequence
number moves on and the channel is recorded even when the box is occupied. -/
def mbPhyChnlTxCmd (s : Core n) (ch : Chnl) : Core n × Bool :=
  let phy := { s.phy with txSeq := (s.phy.txSeq + 1) % 256, txLogChnlId := ch }
  let log := { s.log ch with txBuff := txData s ch }
  match bkMailboxSend s.cmdBox (txData s ch) with
  | none =>
    ({ s with
        phy := { phy with txFaultCnt := phy.txFaultCnt + 1 }
        log := update s.log ch log }, false)
  | some box =>
    ({ s with
        phy := phy
        log := update s.log ch { log with txState := .idle }
        cmdBox := box
        notes := .sent ch (txData s ch).tag :: s.notes }, true)

def mbPhyChnlStartTx (s : Core n) (ch : Chnl) : Core n :=
  if s.phy.txState = .idle then
    match mbPhyChnlTxCmd (s.setPhyState .busy) ch with
    | (s', true) => s'
    | (s', false) => s'.setPhyState .idle
  else s

def waitingChnl (s : Core n) : Option Chnl :=
  (List.finRange 8).find? fun ch => decide ((s.log ch).txState = .busy)

def sendNext (s : Core n) : Core n :=
  match waitingChnl s with
  | none => s.setPhyState .idle
  | some ch =>
    match mbPhyChnlTxCmd s ch with
    | (s', true) => s'
    | (s', false) => s'.setPhyState .idle

def ackMatches (s : Core n) (ack : MailboxData) : Bool :=
  decide (ack.hdr.logicalChnl = s.phy.txLogChnlId) &&
    decide (ack.hdr.txSeq = s.phy.txSeq)

def rxFault (s : Core n) : Core n :=
  { s with phy := { s.phy with rxFaultCnt := s.phy.rxFaultCnt + 1 } }

def noteDone (s : Core n) (ack : MailboxData) : Core n :=
  if (s.log ack.hdr.logicalChnl).txCmplIsr then
    { s with notes := .done ack.hdr.logicalChnl ack.tag :: s.notes }
  else s

def ackOf (s : Core n) (cmd : MailboxData) (answer : Nat × Nat × Nat) : MailboxData where
  hdr := { cmd.hdr with
    comFail := cmd.hdr.comFail || !(s.log cmd.hdr.logicalChnl).rxIsr
    ackBox := true }
  param1 := answer.1
  param2 := answer.2.1
  param3 := answer.2.2
  tag := cmd.tag

def sendAck (s : Core n) (cmd : MailboxData) (answer : Nat × Nat × Nat) : Core n :=
  if cmd.hdr.syncTx then s
  else
    match bkMailboxSend s.ackBox (ackOf s cmd answer) with
    | none => { s with phy := { s.phy with txFaultCnt := s.phy.txFaultCnt + 1 } }
    | some box => { s with ackBox := box }

def written (ch : Chnl) (cmd p1 p2 p3 tag : Nat) : MailboxData :=
  ⟨⟨cmd, false, false, false, 0, ch⟩, p1, p2, p3, tag⟩

def mbChnlWrite (s : Core n) (i : Fin n) (ch : Chnl) (cmd p1 p2 p3 : Nat) : Core n :=
  if (s.log ch).inUsed then
    if (s.log ch).txState = .idle then
      (s.setLog ch { s.log ch with writes := (s.log ch).writes + 1 }).setPc i
        (.copy ch (written ch cmd p1 p2 p3 (s.log ch).writes))
    else s
  else s

def mbChnlWriteSync (s : Core n) (i : Fin n) (ch : Chnl) (cmd p1 p2 p3 : Nat) : Core n :=
  if (s.log ch).inUsed then
    s.setPc i (.syncCheck ⟨⟨cmd, false, false, true, 0, ch⟩, p1, p2, p3, 0⟩)
  else s

/-- The next piece of the call that a task is in.  A synchronous write polls the
box and then sends without disabling interrupts. -/
def runTask (s : Core n) (i : Fin n) : Option (Core n) :=
  match s.pc i with
  | .idle => none
  | .copy ch data => some ((s.setLog ch { s.log ch with txBuff := data }).setPc i (.mark ch))
  | .mark ch => some ((s.setLog ch { s.log ch with txState := .busy }).setPc i (.startTx ch))
  | .startTx ch => some ((mbPhyChnlStartTx s ch).setPc i .idle)
  | .syncCheck data => if s.cmdBox.ready then some s else some (s.setPc i (.syncWrite data))
  | .syncWrite data => some ({ s with cmdBox := ⟨s.cmdBox.ready, data⟩ }.setPc i .syncTrigger)
  | .syncTrigger => some ({ s with cmdBox := ⟨true, s.cmdBox.data⟩ }.setPc i .idle)

def mbChnlOpen (s : Core n) (ch : Chnl) : Core n :=
  if (s.log ch).inUsed then s
  else s.setLog ch { s.log ch with inUsed := true }

def mbChnlClose (s : Core n) (ch : Chnl) : Core n :=
  if (s.log ch).inUsed then
    s.setLog ch { s.log ch with
      inUsed := false, txState := .idle, rxIsr := false, txCmplIsr := false }
  else s

def mbChnlSetRxIsr (s : Core n) (ch : Chnl) (isr : Bool) : Core n :=
  if (s.log ch).inUsed then s.setLog ch { s.log ch with rxIsr := isr } else s

def mbChnlSetTxCmplIsr (s : Core n) (ch : Chnl) (isr : Bool) : Core n :=
  if (s.log ch).inUsed then s.setLog ch { s.log ch with txCmplIsr := isr } else s

end Calls

structure App (σ : Type) where
  rxIsr : Cpu → Chnl → MailboxData → σ → σ × (Nat × Nat × Nat)
  txCmplIsr : Cpu → Chnl → MailboxData → σ → σ

def App.echo : App Unit where
  rxIsr _ _ data a := (a, data.param1, data.param2, data.param3)
  txCmplIsr _ _ _ a := a

structure System (n : Nat) (σ : Type) where
  core : Cpu → Core n
  app : σ

namespace System

variable {n : Nat} {σ : Type}

def init (n : Nat) (a : σ) : System n σ := ⟨fun _ => .init n, a⟩

def setCore (s : System n σ) (c : Cpu) (k : Core n) : System n σ :=
  { s with core := update s.core c k }

end System

section Interrupts

variable {n : Nat} {σ : Type} (app : App σ)

def clearedHdr (hdr : PhyHdr) : PhyHdr :=
  { hdr with ackBox := false, syncTx := false, txSeq := 0, logicalChnl := 0 }

def mbPhyChnlRxAckIsr (s : System n σ) (c : Cpu) (ack : MailboxData) : System n σ :=
  if ackMatches (s.core c) ack then
    let called := ((s.core c).log ack.hdr.logicalChnl).txCmplIsr
    let answer := { ack with hdr := clearedHdr ack.hdr }
    { core := update s.core c (sendNext (noteDone (s.core c) ack))
      app := if called then app.txCmplIsr c ack.hdr.logicalChnl answer s.app
        else s.app }
  else s.setCore c (rxFault (s.core c))

def mbPhyChnlRxCmdIsr (s : System n σ) (c : Cpu) (cmd : MailboxData) : System n σ :=
  if ((s.core c).log cmd.hdr.logicalChnl).rxIsr then
    let request := { cmd with hdr := { clearedHdr cmd.hdr with comFail := false } }
    let result := app.rxIsr c cmd.hdr.logicalChnl request s.app
    { core := update s.core c (sendAck (s.core c) cmd result.2)
      app := result.1 }
  else
    s.setCore c (sendAck (s.core c) cmd (cmd.param1, cmd.param2, cmd.param3))

def mbPhyChnlRxIsr (s : System n σ) (c : Cpu) (data : MailboxData) : System n σ :=
  if data.hdr.ackBox then mbPhyChnlRxAckIsr app s c data
  else mbPhyChnlRxCmdIsr app s c data

def mailboxReceive (s : System n σ) (c : Cpu) : Option (System n σ) :=
  let own := s.core c
  let peer := s.core c.other
  match own.isr with
  | some _ => none
  | none =>
    if peer.cmdBox.ready then
      some ((s.setCore c.other { peer with cmdBox := ⟨false, peer.cmdBox.data⟩ }).setCore
        c { own with isr := some peer.cmdBox.data })
    else if peer.ackBox.ready then
      some ((s.setCore c.other { peer with ackBox := ⟨false, peer.ackBox.data⟩ }).setCore
        c { own with isr := some peer.ackBox.data })
    else none

inductive Event (n : Nat)
  | openChnl (c : Cpu) (ch : Chnl)
  | closeChnl (c : Cpu) (ch : Chnl)
  | setRxIsr (c : Cpu) (ch : Chnl) (isr : Bool)
  | setTxCmplIsr (c : Cpu) (ch : Chnl) (isr : Bool)
  | write (c : Cpu) (i : Fin n) (ch : Chnl) (cmd p1 p2 p3 : Nat)
  | writeSync (c : Cpu) (i : Fin n) (ch : Chnl) (cmd p1 p2 p3 : Nat)
  | run (c : Cpu) (i : Fin n)
  | receive (c : Cpu)
  | handle (c : Cpu)
  deriving DecidableEq

def step (s : System n σ) : Event n → Option (System n σ)
  | .openChnl c ch => some (s.setCore c (mbChnlOpen (s.core c) ch))
  | .closeChnl c ch => some (s.setCore c (mbChnlClose (s.core c) ch))
  | .setRxIsr c ch isr => some (s.setCore c (mbChnlSetRxIsr (s.core c) ch isr))
  | .setTxCmplIsr c ch isr => some (s.setCore c (mbChnlSetTxCmplIsr (s.core c) ch isr))
  | .write c i ch cmd p1 p2 p3 =>
    if (s.core c).pc i = .idle then
      some (s.setCore c (mbChnlWrite (s.core c) i ch cmd p1 p2 p3))
    else none
  | .writeSync c i ch cmd p1 p2 p3 =>
    if (s.core c).pc i = .idle then
      some (s.setCore c (mbChnlWriteSync (s.core c) i ch cmd p1 p2 p3))
    else none
  | .run c i => (runTask (s.core c) i).map (s.setCore c)
  | .receive c => mailboxReceive s c
  | .handle c =>
    match (s.core c).isr with
    | none => none
    | some data => some (mbPhyChnlRxIsr app (s.setCore c { s.core c with isr := none }) c data)

variable {app}

end Interrupts

end BekenSoc.MailboxChannel
