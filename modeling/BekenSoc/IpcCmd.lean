import BekenSoc.CRuntime
import BekenSoc.MailboxLine

/-!
Commands between the two CPUs (`mb_ipc_cmd.c`), on one of the two channels that
carry them: `ipc_send_cmd` from any number of tasks of both CPUs, the callbacks of
the mailbox channel, the command handlers, and the RPC server task of the master.

The two control blocks share nothing but the mailbox, so the other channel is part
of the traffic that the mailbox carries beside this one.  A step is one store, one
semaphore operation, one copy or one step of the mailbox.
-/

namespace BekenSoc.IpcCmd

open Function CRuntime DualCore MailboxChannel MailboxLine

inductive IpcChnl
  | hwCtrl
  | rpc
  deriving DecidableEq

def IpcChnl.id : IpcChnl → Chnl
  | .hwCtrl => mbChnlHwCtrl
  | .rpc => mbChnlRpc

@[match_pattern] abbrev ipcTestCmd : Nat := 0
@[match_pattern] abbrev ipcCpu1PowerUpIndication : Nat := 1
@[match_pattern] abbrev ipcCpu1HeartBeatIndication : Nat := 2
@[match_pattern] abbrev ipcGetPowerSaveFlag : Nat := 3
@[match_pattern] abbrev ipcGetCpu1HeartRate : Nat := 4
@[match_pattern] abbrev ipcSetCpu1HeartRate : Nat := 5
@[match_pattern] abbrev ipcResAcquireCnt : Nat := 6
@[match_pattern] abbrev ipcResReleaseCnt : Nat := 7
@[match_pattern] abbrev ipcResAvailableIndication : Nat := 8
@[match_pattern] abbrev ipcAllocDmaChnl : Nat := 9
@[match_pattern] abbrev ipcFreeDmaChnl : Nat := 10
@[match_pattern] abbrev ipcDmaChnlUser : Nat := 11
@[match_pattern] abbrev ipcCallCmd : Nat := 0x60
def ipcCmdMax : Nat := 0x7F

def ipcRspCmdFlag : Nat := 0x80
def ipcXchgDataMax : Nat := 64

def ackStatePending : Nat := 1
def ackStateComplete : Nat := 2
def ackStateFail : Nat := 3

-- BK_ERR_NOT_SUPPORT, as the 32-bit value that is sent
def bkErrNotSupport : Nat := 2 ^ 32 - 0x1000 - 10

def isRsp (cmd : Nat) : Bool := decide (cmd / ipcRspCmdFlag % 2 = 1)

inductive SvrMod
  | gpio
  | dma
  deriving DecidableEq

def SvrMod.rpcModId : SvrMod → Nat
  | .gpio => 0
  | .dma => 1

def svrDispatcher : List SvrMod := [.gpio, .dma]

/-- What the handlers call in other modules, on the state of those modules.  A
service that fails gives `none` or `false`; an RPC service that does not handle the
call (returns 0) gives `none`, and one that handles it gives its response. -/
structure Services (ρ : Type) where
  ampResAcquireCnt : Nat → Nat → ρ → ρ × Option (Nat × Nat)
  ampResReleaseCnt : Nat → Nat → ρ → ρ × Option (Nat × Nat)
  ampResAvailable : Cpu → Nat → ρ → ρ × Bool
  dmaChnlAlloc : Nat → ρ → ρ × Nat
  dmaChnlFree : Nat → Nat → ρ → ρ × Bool
  dmaChnlUser : Nat → ρ → ρ × Nat
  svrHandler : SvrMod → List Nat → ρ → ρ × Option (List Nat)

def Services.plain : Services Unit where
  ampResAcquireCnt _ _ svc := (svc, some (0, 0))
  ampResReleaseCnt _ _ svc := (svc, some (0, 0))
  ampResAvailable _ _ svc := (svc, true)
  dmaChnlAlloc _ svc := (svc, 0)
  dmaChnlFree _ _ svc := (svc, true)
  dmaChnlUser _ svc := (svc, 0)
  svrHandler _ call svc := (svc, some (call.take 8))

structure Outcome (ρ : Type) where
  svc : ρ
  result : Nat
  rspDataLen : Nat
  rsp : List Nat
  wakes : Bool

section Handlers

variable {ρ : Type} (sv : Services ρ)

def completed (svc : ρ) (rsp : List Nat) : Outcome ρ :=
  ⟨svc, ackStateComplete, rsp.length, rsp, false⟩

def failed (svc : ρ) : Outcome ρ := ⟨svc, ackStateFail, 0, [], false⟩

def reported (r : ρ × Bool) : Outcome ρ :=
  if r.2 then completed r.1 [] else failed r.1

def counted (r : ρ × Option (Nat × Nat)) : Outcome ρ :=
  match r.2 with
  | some (self, others) => completed r.1 (leBytes 2 self ++ leBytes 2 others)
  | none => failed r.1

def testCmd (cmd : List Nat) (svc : ρ) : Outcome ρ :=
  if 4 ≤ cmd.length then completed svc (leBytes 4 (leNat (cmd.take 4) + 1))
  else failed svc

def resAvailableIndication (c : Cpu) (cmd : List Nat) (svc : ρ) : Outcome ρ :=
  if 2 ≤ cmd.length then reported (sv.ampResAvailable c (leNat (cmd.take 2)) svc)
  else failed svc

def ipcClientCmdHandler (rxCmd : Nat) (cmd : List Nat) (svc : ρ) : Outcome ρ :=
  match rxCmd with
  | ipcTestCmd => testCmd cmd svc
  | ipcGetPowerSaveFlag => completed svc (leBytes 4 0xAA)
  | ipcSetCpu1HeartRate => if 4 ≤ cmd.length then completed svc [] else failed svc
  | ipcGetCpu1HeartRate => completed svc (leBytes 4 0xBB)
  | ipcResAvailableIndication => resAvailableIndication sv .slave cmd svc
  | _ => failed svc

def ipcServerCmdHandler (rxCmd : Nat) (cmd : List Nat) (cmdDataLen : Nat) (svc : ρ) : Outcome ρ :=
  match rxCmd with
  | ipcTestCmd => testCmd cmd svc
  | ipcCpu1PowerUpIndication => completed svc []
  | ipcCpu1HeartBeatIndication => completed svc []
  | ipcResAcquireCnt =>
    if 4 ≤ cmd.length then
      counted (sv.ampResAcquireCnt (leNat (cmd.take 2)) (leNat ((cmd.drop 2).take 2)) svc)
    else failed svc
  | ipcResReleaseCnt =>
    if 4 ≤ cmd.length then
      counted (sv.ampResReleaseCnt (leNat (cmd.take 2)) (leNat ((cmd.drop 2).take 2)) svc)
    else failed svc
  | ipcResAvailableIndication => resAvailableIndication sv .master cmd svc
  | ipcAllocDmaChnl =>
    if 4 ≤ cmd.length then
      let r := sv.dmaChnlAlloc (leNat (cmd.take 4)) svc
      completed r.1 (leBytes 1 r.2)
    else failed svc
  | ipcFreeDmaChnl =>
    if 8 ≤ cmd.length then
      reported (sv.dmaChnlFree (leNat (cmd.take 4)) (leNat ((cmd.drop 4).take 4)) svc)
    else failed svc
  | ipcDmaChnlUser =>
    if 1 ≤ cmd.length then
      let r := sv.dmaChnlUser (leNat (cmd.take 1)) svc
      completed r.1 (leBytes 4 r.2)
    else failed svc
  | ipcCallCmd => ⟨svc, ackStateFail, cmdDataLen, [], false⟩
  | _ => failed svc

def rpcServerCmdHandler (rxCmd : Nat) (cmd : List Nat) (cmdDataLen : Nat) (svc : ρ) : Outcome ρ :=
  match rxCmd with
  | ipcCallCmd => ⟨svc, ackStatePending, cmdDataLen, [], true⟩
  | _ => ipcServerCmdHandler sv rxCmd cmd cmdDataLen svc

def rxCmdHandler (chn : IpcChnl) (c : Cpu) (rxCmd : Nat) (cmd : List Nat)
    (cmdDataLen : Nat) (svc : ρ) : Outcome ρ :=
  match c, chn with
  | .slave, _ => ipcClientCmdHandler sv rxCmd cmd svc
  | .master, .hwCtrl => ipcServerCmdHandler sv rxCmd cmd cmdDataLen svc
  | .master, .rpc => rpcServerCmdHandler sv rxCmd cmd cmdDataLen svc

end Handlers

structure Call where
  cmd : Nat
  req : List Nat
  bufLen : Nat
  deriving DecidableEq

/-- Where a task stands in `ipc_send_cmd`.  From `writing` on, the number of its
accepted write goes with it. -/
inductive Stage
  | getChnlSema
  | setTxCmd
  | setTxCmdFailed
  | setTxCmdInProcess
  | copyCmd
  | write
  | writing (tag : Nat)
  | getRspSema (tag : Nat)
  | clearInProcess (tag : Nat)
  | checkFailed (tag : Nat)
  | copyRsp (tag : Nat)
  | leave
  | setChnlSema
  deriving DecidableEq

/-- `ipc_chnl_cb_t`; a semaphore has its token or not.  `rxTag` is not in the code:
it numbers the command that `cmd_buf` was filled from. -/
structure ChnlCb where
  chnlSema : Bool
  rspSema : Bool
  txCmd : Nat
  txCmdInProcess : Bool
  txCmdFailed : Bool
  rspBuf : List Nat
  rspLen : Nat
  rxCmd : Nat
  rxCmdInProcess : Bool
  cmdBuf : List Nat
  cmdLen : Nat
  rxTag : Nat

def ChnlCb.init : ChnlCb where
  chnlSema := true
  rspSema := false
  txCmd := 0
  txCmdInProcess := false
  txCmdFailed := false
  rspBuf := List.replicate ipcXchgDataMax 0
  rspLen := 0
  rxCmd := 0
  rxCmdInProcess := false
  cmdBuf := List.replicate ipcXchgDataMax 0
  cmdLen := 0
  rxTag := 0

/-- Where `rpc_svr_task` stands; `mods` are the entries of `svr_dispatcher` that the
loop has not looked at. -/
inductive ServerPc
  | listen
  | handle
  | dispatch (mods : List SvrMod) (handled : Bool)
  | invoke (m : SvrMod) (mods : List SvrMod)
  | rsp (bytes : List Nat) (mods : List SvrMod)
  | sending (mods : List SvrMod)
  | clearRx (mods : List SvrMod)
  deriving DecidableEq

structure Answer where
  caller : Cpu
  tag : Nat
  cmd : Nat
  req : List Nat
  rsp : List Nat
  deriving DecidableEq

structure Return where
  caller : Cpu
  tag : Nat
  call : Call
  out : Option (List Nat)
  deriving DecidableEq

/-- The channel on both CPUs.  `xchg c` is the exchange buffer that `c` sends
through.  From `calls` on it is what the observer notes: the accepted calls, the
answers and the returns, the call that the server has taken up, and whether the
server has responded to it. -/
structure Ipc (m : Nat) (ρ : Type) where
  cb : Cpu → ChnlCb
  xchg : Cpu → List Nat
  pc : Cpu → Fin m → Option (Call × Stage)
  server : ServerPc
  serverIndSema : Bool
  svc : ρ
  calls : Cpu → List Call
  answers : List Answer
  returns : List Return
  serving : Nat
  responded : Bool

namespace Ipc

variable {m : Nat} {ρ : Type}

def init (m : Nat) (svc : ρ) : Ipc m ρ where
  cb _ := .init
  xchg _ := List.replicate ipcXchgDataMax 0
  pc _ _ := none
  server := .listen
  serverIndSema := false
  svc := svc
  calls _ := []
  answers := []
  returns := []
  serving := 0
  responded := false

def setCb (s : Ipc m ρ) (c : Cpu) (cb : ChnlCb) : Ipc m ρ := { s with cb := update s.cb c cb }

def setXchg (s : Ipc m ρ) (c : Cpu) (buff : List Nat) : Ipc m ρ :=
  { s with xchg := update s.xchg c buff }

def setPc (s : Ipc m ρ) (c : Cpu) (i : Fin m) (pc : Option (Call × Stage)) : Ipc m ρ :=
  { s with pc := update s.pc c (update (s.pc c) i pc) }

def setServer (s : Ipc m ρ) (pc : ServerPc) : Ipc m ρ := { s with server := pc }

def answer (s : Ipc m ρ) (a : Answer) : Ipc m ρ := { s with answers := a :: s.answers }

end Ipc

section Callbacks

variable {m : Nat} {ρ : Type} (sv : Services ρ) (chn : IpcChnl)

def takeRsp (cb : ChnlCb) (buff : List Nat) (null : Bool) (len : Nat) : ChnlCb :=
  if ipcXchgDataMax < len then
    { cb with txCmdFailed := true, txCmdInProcess := false, rspLen := 0, rspSema := true }
  else if !null && decide (0 < len) then
    { cb with
      txCmdFailed := false, txCmdInProcess := false, rspSema := true
      rspBuf := memcpy cb.rspBuf buff len, rspLen := len }
  else
    { cb with txCmdFailed := false, txCmdInProcess := false, rspLen := 0, rspSema := true }

def rxRspIsr (c : Cpu) (data : MailboxData) (s : Ipc m ρ) : Ipc m ρ × (Nat × Nat × Nat) :=
  let cb := s.cb c
  if cb.txCmdInProcess = false then (s, data.param1, data.param2, ackStateFail)
  else if cb.txCmd ≠ data.hdr.cmd % ipcRspCmdFlag then
    (s, data.param1, data.param2, ackStateFail)
  else
    ((s.setCb c (takeRsp cb (s.xchg c.other) (decide (data.param1 = 0)) data.param2)).answer
      ⟨c.other, data.tag, data.hdr.cmd, (s.xchg c.other).take data.param2, []⟩,
      0, 0, ackStateComplete)

def rxCmdIsr (c : Cpu) (data : MailboxData) (s : Ipc m ρ) : Ipc m ρ × (Nat × Nat × Nat) :=
  let cb := s.cb c
  if ipcXchgDataMax < data.param2 then
    (s.setCb c { cb with rxCmd := data.hdr.cmd, rxCmdInProcess := false },
      data.param1, data.param2, ackStateFail)
  else
    let copied := decide (data.param1 ≠ 0) && decide (0 < data.param2)
    let cmdBuf := if copied then memcpy cb.cmdBuf (s.xchg c.other) data.param2 else cb.cmdBuf
    let cmdLen := if copied then data.param2 else 0
    let r := rxCmdHandler sv chn c data.hdr.cmd (cmdBuf.take cmdLen) data.param2 s.svc
    let s' := (s.setCb c { cb with
        rxCmd := data.hdr.cmd, rxCmdInProcess := decide (r.result = ackStatePending)
        cmdBuf := cmdBuf, cmdLen := cmdLen, rxTag := data.tag }).setXchg c.other
      (memcpy (s.xchg c.other) r.rsp r.rsp.length)
    let s' := { s' with svc := r.svc, serverIndSema := s.serverIndSema || r.wakes }
    (if r.result = ackStateComplete then
        s'.answer ⟨c.other, data.tag, data.hdr.cmd, cmdBuf.take cmdLen, r.rsp⟩
      else s', 1, r.rspDataLen, r.result)

def ipcCmdRxIsr (c : Cpu) (data : MailboxData) (s : Ipc m ρ) : Ipc m ρ × (Nat × Nat × Nat) :=
  if isRsp data.hdr.cmd then rxRspIsr c data s else rxCmdIsr sv chn c data s

def ipcCmdTxCmplIsr (c : Cpu) (ack : MailboxData) (s : Ipc m ρ) : Ipc m ρ :=
  let cb := s.cb c
  if ack.hdr.cmd = cb.txCmd then
    if cb.txCmdInProcess = false then s
    else if ack.hdr.comFail || decide (ack.param3 = ackStateFail) then
      s.setCb c { cb with txCmdFailed := true, txCmdInProcess := false, rspSema := true }
    else if ack.param3 = ackStateComplete then
      s.setCb c (takeRsp cb (s.xchg c) (decide (ack.param1 = 0)) ack.param2)
    else s
  else s

def ipcApp : App (Ipc m ρ) where
  rxIsr c ch data s :=
    if ch = chn.id then ipcCmdRxIsr sv chn c data s
    else (s, data.param1, data.param2, data.param3)
  txCmplIsr c ch ack s := if ch = chn.id then ipcCmdTxCmplIsr c ack s else s

end Callbacks

section Steps

variable {m : Nat} {ρ : Type} (sv : Services ρ) (chn : IpcChnl)

def isServerTask (c : Cpu) (i : Fin (m + 1)) : Bool := decide (c = .master ∧ i = 0)

def rpcRetFail (call : List Nat) : List Nat := call.take 3 ++ [4] ++ leBytes 4 bkErrNotSupport

def runSendCmd (s : System (m + 1) (Ipc (m + 1) ρ)) (c : Cpu) (i : Fin (m + 1))
    (call : Call) (stage : Stage) : Option (System (m + 1) (Ipc (m + 1) ρ)) :=
  let a := s.app
  let cb := a.cb c
  let goto (a : Ipc (m + 1) ρ) (stage : Stage) : System (m + 1) (Ipc (m + 1) ρ) :=
    ⟨s.core, a.setPc c i (some (call, stage))⟩
  match stage with
  | .getChnlSema =>
    if cb.chnlSema then some (goto (a.setCb c { cb with chnlSema := false }) .setTxCmd)
    else none
  | .setTxCmd => some (goto (a.setCb c { cb with txCmd := call.cmd }) .setTxCmdFailed)
  | .setTxCmdFailed => some (goto (a.setCb c { cb with txCmdFailed := false }) .setTxCmdInProcess)
  | .setTxCmdInProcess => some (goto (a.setCb c { cb with txCmdInProcess := true }) .copyCmd)
  | .copyCmd =>
    if ipcXchgDataMax < call.req.length then some (goto a .leave)
    else some (goto (a.setXchg c (memcpy (a.xchg c) call.req call.req.length)) .write)
  | .write =>
    if (s.core c).pc i = .idle then
      if ((s.core c).log chn.id).inUsed ∧ ((s.core c).log chn.id).txState = .idle then
        let tag := ((s.core c).log chn.id).writes
        some ⟨update s.core c (mbChnlWrite (s.core c) i chn.id call.cmd 1 call.req.length 0),
          { a with calls := update a.calls c (a.calls c ++ [call]) }.setPc c i
            (some (call, .writing tag))⟩
      else some (goto a .leave)
    else none
  | .writing tag => if (s.core c).pc i = .idle then some (goto a (.getRspSema tag)) else none
  | .getRspSema tag =>
    if cb.rspSema then
      some (goto (a.setCb c { cb with rspSema := false }) (.clearInProcess tag))
    else none
  | .clearInProcess tag =>
    some (goto (a.setCb c { cb with txCmdInProcess := false }) (.checkFailed tag))
  | .checkFailed tag =>
    if cb.txCmdFailed then some (goto a .leave)
    else if call.bufLen = 0 then
      some (goto { a with returns := ⟨c, tag, call, none⟩ :: a.returns } .leave)
    else some (goto a (.copyRsp tag))
  | .copyRsp tag =>
    if call.bufLen < cb.rspLen then some (goto a .leave)
    else
      let out := cb.rspBuf.take cb.rspLen
      some (goto { a with returns := ⟨c, tag, call, some out⟩ :: a.returns } .leave)
  | .leave => some (goto (a.setCb c { cb with txCmdInProcess := false }) .setChnlSema)
  | .setChnlSema => some ⟨s.core, (a.setCb c { cb with chnlSema := true }).setPc c i none⟩

def runServer (a : Ipc (m + 1) ρ) : Option (Ipc (m + 1) ρ) :=
  let cb := a.cb .master
  let noted (rsp : List Nat) : Answer :=
    ⟨.slave, a.serving, cb.rxCmd, cb.cmdBuf.take cb.cmdLen, rsp⟩
  match a.server with
  | .listen =>
    if a.serverIndSema then
      some { a with serverIndSema := false, server := .handle, responded := false }
    else none
  | .handle =>
    if cb.rxCmdInProcess then
      some { a with server := .dispatch svrDispatcher false, serving := cb.rxTag }
    else some (a.setServer .listen)
  | .dispatch (e :: mods) handled =>
    if cb.cmdBuf.headD 0 = e.rpcModId then some (a.setServer (.invoke e mods))
    else some (a.setServer (.dispatch mods handled))
  | .dispatch [] handled =>
    if handled then some (a.setServer .listen)
    else
      let rsp := rpcRetFail cb.cmdBuf
      some ((a.answer (noted rsp)).setServer (.rsp rsp []))
  | .invoke e mods =>
    let r := sv.svrHandler e cb.cmdBuf a.svc
    match r.2 with
    | none => some { a with svc := r.1, server := .dispatch mods false }
    | some rsp => some (({ a with svc := r.1 }.answer (noted rsp)).setServer (.rsp rsp mods))
  | .rsp bytes mods =>
    if cb.rxCmdInProcess then
      some ((a.setPc .master 0 (some (⟨ipcCallCmd + ipcRspCmdFlag, bytes, 0⟩,
        .getChnlSema))).setServer (.sending mods))
    else some (a.setServer (.dispatch mods true))
  | .sending mods => if a.pc .master 0 = none then some (a.setServer (.clearRx mods)) else none
  | .clearRx mods =>
    some { a.setCb .master { cb with rxCmdInProcess := false } with
      server := .dispatch mods true, responded := true }

inductive Event (m : Nat)
  | mailbox (e : MailboxChannel.Event (m + 1))
  | call (c : Cpu) (i : Fin (m + 1)) (call : Call)
  | run (c : Cpu) (i : Fin (m + 1))
  | timeout (c : Cpu) (i : Fin (m + 1))
  | server
  deriving DecidableEq

/-- The steps of the mailbox beside the writes of this channel.  A task that is in
`ipc_send_cmd` does not write elsewhere. -/
def Beside (a : Ipc (m + 1) ρ) : MailboxChannel.Event (m + 1) → Prop
  | .write c i ch cmd p1 p2 p3 => a.pc c i = none ∧ isServerTask c i = false ∧
      Apart chn.id (.write c i ch cmd p1 p2 p3 : MailboxChannel.Event (m + 1))
  | e => Apart chn.id e

instance (a : Ipc (m + 1) ρ) : (e : MailboxChannel.Event (m + 1)) → Decidable (Beside chn a e)
  | .write .. => inferInstanceAs (Decidable (_ ∧ _ ∧ _))
  | .openChnl .. | .closeChnl .. | .setRxIsr .. | .setTxCmplIsr .. =>
    inferInstanceAs (Decidable (_ ≠ chn.id))
  | .writeSync .. => isFalse id
  | .run .. | .receive .. | .handle .. => isTrue trivial

def step (s : System (m + 1) (Ipc (m + 1) ρ)) : Event m → Option (System (m + 1) (Ipc (m + 1) ρ))
  | .mailbox e => if Beside chn s.app e then MailboxChannel.step (ipcApp sv chn) s e else none
  | .call c i call =>
    if s.app.pc c i = none ∧ (s.core c).pc i = .idle ∧ isServerTask c i = false ∧
        call.cmd ≤ ipcCmdMax then
      some ⟨s.core, s.app.setPc c i (some (call, .getChnlSema))⟩
    else none
  | .run c i =>
    match s.app.pc c i with
    | some (call, stage) => runSendCmd chn s c i call stage
    | none => none
  | .timeout c i =>
    match s.app.pc c i with
    | some (call, .getRspSema _) =>
      if (s.app.cb c).rspSema then none
      else some ⟨s.core, s.app.setPc c i (some (call, .leave))⟩
    | _ => none
  | .server => (runServer sv s.app).map fun a => ⟨s.core, a⟩

def ipcChnlInit (m : Nat) (ch : Chnl) : Core (m + 1) :=
  mbChnlSetTxCmplIsr (mbChnlSetRxIsr (mbChnlOpen (Core.init (m + 1)) ch) ch true) ch true

def start (m : Nat) (chn : IpcChnl) (svc : ρ) : System (m + 1) (Ipc (m + 1) ρ) :=
  ⟨fun _ => ipcChnlInit m chn.id, Ipc.init (m + 1) svc⟩

end Steps

end BekenSoc.IpcCmd
