import BekenSoc.IpcCmd

namespace BekenSoc.IpcExchange

open DualCore MailboxChannel MailboxLine IpcCmd

variable {m : Nat} {ρ : Type}

def Answered (answers : List Answer) (r : Return) : Prop :=
  ∃ rsp, (⟨r.caller, r.tag, r.call.cmd, r.call.req, rsp⟩ : Answer) ∈ answers ∧
    ∀ out, r.out = some out → out = rsp

theorem Answered.mono {answers answers' : List Answer} {r : Return} (h : Answered answers r)
    (hmono : ∀ x ∈ answers, x ∈ answers') : Answered answers' r := by
  obtain ⟨rsp, hmem, hout⟩ := h
  exact ⟨rsp, hmono _ hmem, hout⟩

def rspUnderWay : Line → Bool
  | .underWay cmd => isRsp cmd.hdr.cmd
  | _ => false

theorem rspUnderWay_update {l : Cpu → Line} {c : Cpu} {x : Line} (hx : rspUnderWay x = false)
    (h : rspUnderWay (Function.update l c x .master) = true) :
    Function.update l c x .master = l .master := by
  by_cases hc : Cpu.master = c
  · rw [hc, Function.update_self, hx] at h
    cases h
  · exact Function.update_of_ne hc _ _

theorem not_isRsp {cmd : Nat} (h : cmd ≤ ipcCmdMax) : isRsp cmd ≠ true := by
  intro hrsp
  have hflag := of_decide_eq_true hrsp
  unfold ipcCmdMax at h
  unfold ipcRspCmdFlag at hflag
  omega

def ServerQuiet (l : Cpu → Line) (a : Ipc m ρ) : Prop :=
  a.server = .listen ∧ a.serverIndSema = false ∧
    (a.cb .master).rxCmdInProcess = false ∧ rspUnderWay (l .master) = false

instance (l : Cpu → Line) (a : Ipc m ρ) : Decidable (ServerQuiet l a) :=
  inferInstanceAs (Decidable (_ ∧ _ ∧ _ ∧ _))

def Settled (l : Cpu → Line) (a : Ipc m ρ) (c : Cpu) : Prop :=
  l c = .quiet ∧ (a.cb c).rspSema = false ∧ (c = .slave → ServerQuiet l a)

instance (l : Cpu → Line) (a : Ipc m ρ) (c : Cpu) : Decidable (Settled l a c) :=
  inferInstanceAs (Decidable (_ ∧ _ ∧ (_ → _)))

/-- Every `ipc_send_cmd` begins after the earlier ones are settled, and no command of
the channel is transmitted twice. -/
def CallsSettled (chn : IpcChnl) (s : System (m + 1) (Ipc (m + 1) ρ)) : IpcCmd.Event m → Prop
  | .mailbox e => StartsWaiting chn.id s.core e
  | .run c i =>
    match s.app.pc c i with
    | some (_, .setTxCmd) => Settled (fun d => lineOf s.core d chn.id) s.app c
    | _ => True
  | _ => True

instance (chn : IpcChnl) (s : System (m + 1) (Ipc (m + 1) ρ)) (e : IpcCmd.Event m) :
    Decidable (CallsSettled chn s e) := by
  cases e with
  | run c i =>
    unfold CallsSettled
    dsimp only
    split <;> infer_instance
  | _ =>
    unfold CallsSettled
    infer_instance

def Latest (a : Ipc m ρ) (c : Cpu) (tag : Nat) (k : Call) : Prop :=
  (a.calls c)[tag]? = some k ∧ tag + 1 = (a.calls c).length

structure Carried (a : Ipc m ρ) (c : Cpu) (d : MailboxData) (k : Call) : Prop where
  latest : Latest a c d.tag k
  cmd : d.hdr.cmd = k.cmd
  found : d.hdr.comFail = false
  buff : d.param1 = 1
  len : d.param2 = k.req.length
  fits : k.req.length ≤ ipcXchgDataMax
  data : (a.xchg c).take k.req.length = k.req

def HandsOver (buff : List Nat) (null : Bool) (len : Nat) (rsp : List Nat) : Prop :=
  if null = false ∧ 0 < len then buff.take len = rsp ∧ len = rsp.length else rsp = []

structure Replied (a : Ipc m ρ) (c : Cpu) (x : MailboxData) (k : Call) : Prop where
  latest : Latest a c x.tag k
  cmd : x.hdr.cmd = k.cmd
  found : x.hdr.comFail = false
  complete : x.param3 = ackStateComplete → ∃ rsp,
    (⟨c, x.tag, k.cmd, k.req, rsp⟩ : Answer) ∈ a.answers ∧
      HandsOver (a.xchg c) (decide (x.param1 = 0)) x.param2 rsp

def LineInv (l : Cpu → Line) (a : Ipc m ρ) (c : Cpu) : Prop :=
  match l c with
  | .quiet => True
  | .underWay d => (∃ k, Carried a c d k) ∧ (c = .slave → ServerQuiet l a)
  | .acked x => ∃ k, Replied a c x k

def Delivered (a : Ipc m ρ) (c : Cpu) (call : Call) (tag : Nat) : Prop :=
  (a.cb c).txCmdFailed = true ∨
    (⟨c, tag, call.cmd, call.req, (a.cb c).rspBuf.take (a.cb c).rspLen⟩ : Answer) ∈ a.answers

def StageInv (l : Cpu → Line) (a : Ipc m ρ) (c : Cpu) (call : Call) : Stage → Prop
  | .setTxCmdFailed | .setTxCmdInProcess => Settled l a c ∧ (a.cb c).txCmd = call.cmd
  | .copyCmd => Settled l a c ∧ (a.cb c).txCmd = call.cmd ∧ (a.cb c).txCmdInProcess = true
  | .write => Settled l a c ∧ ((a.cb c).txCmd = call.cmd ∧
      (a.cb c).txCmdInProcess = true) ∧ call.req.length ≤ ipcXchgDataMax ∧
      (a.xchg c).take call.req.length = call.req
  | .writing tag | .getRspSema tag => Latest a c tag call ∧ (a.cb c).txCmd = call.cmd ∧
      ((a.cb c).txCmdInProcess = true ∧ (a.cb c).rspSema = false ∨
        (a.cb c).txCmdInProcess = false ∧ Delivered a c call tag)
  | .clearInProcess tag | .checkFailed tag =>
    (a.cb c).txCmdInProcess = false ∧ Delivered a c call tag
  | .copyRsp tag => (a.cb c).txCmdInProcess = false ∧ Delivered a c call tag ∧
      (a.cb c).txCmdFailed = false
  | _ => True

def holds : Option (Call × Stage) → Bool
  | some (_, .getChnlSema) => false
  | some _ => true
  | none => false

structure TaskInv (a : Ipc m ρ) (c : Cpu) : Prop where
  exclusive : ∀ i j, holds (a.pc c i) = true → holds (a.pc c j) = true → i = j
  taken : ∀ i, holds (a.pc c i) = true → (a.cb c).chnlSema = false

def ServerAnswer (a : Ipc m ρ) (tag : Nat) (bytes : List Nat) : Prop :=
  ∃ k, Latest a .slave tag k ∧ (⟨.slave, tag, k.cmd, k.req, bytes⟩ : Answer) ∈ a.answers

structure ServerInv (l : Cpu → Line) (a : Ipc (m + 1) ρ) : Prop where
  idle : a.pc .master 0 ≠ none → ∃ mods, a.server = .sending mods
  sends : ∀ k stage, a.pc .master 0 = some (k, stage) →
    k.cmd = ipcCallCmd + ipcRspCmdFlag ∧ ServerAnswer a a.serving k.req
  indicated : a.serverIndSema = true → a.server = .listen ∧ (a.cb .master).rxCmdInProcess = true
  flag : a.server ≠ .listen → (a.cb .master).rxCmdInProcess = !a.responded
  buffer : (a.cb .master).rxCmdInProcess = true ∨ a.server ≠ .listen →
    ∃ k, Latest a .slave (a.cb .master).rxTag k ∧ k.cmd = (a.cb .master).rxCmd ∧
      (a.cb .master).cmdBuf.take (a.cb .master).cmdLen = k.req
  serving : a.server ≠ .listen → a.server ≠ .handle → a.serving = (a.cb .master).rxTag
  computed : ∀ bytes mods, a.server = .rsp bytes mods → ServerAnswer a a.serving bytes
  line : ∀ d, l .master = .underWay d → isRsp d.hdr.cmd = true →
    ∃ k tag, Latest a .master d.tag k ∧ ServerAnswer a tag k.req

theorem ServerInv.task_idle {l : Cpu → Line} {a : Ipc (m + 1) ρ} (h : ServerInv l a)
    (hserver : ∀ mods, a.server ≠ .sending mods) : a.pc .master 0 = none := by
  by_contra hne
  obtain ⟨mods, hsending⟩ := h.idle hne
  exact hserver mods hsending

structure CodeInv (a : Ipc (m + 1) ρ) : Prop where
  task : ∀ c i k stage, a.pc c i = some (k, stage) → isServerTask c i = false → k.cmd ≤ ipcCmdMax
  slave : ∀ k ∈ a.calls .slave, k.cmd ≤ ipcCmdMax

structure IpcInv (l : Cpu → Line) (a : Ipc (m + 1) ρ) (w : Cpu → Nat) : Prop where
  counted : ∀ c, (a.calls c).length = w c
  tasks : ∀ c, TaskInv a c
  stages : ∀ c i call stage, a.pc c i = some (call, stage) → StageInv l a c call stage
  lines : ∀ c, LineInv l a c
  server : ServerInv l a
  codes : CodeInv a
  answers : ∀ x ∈ a.answers, ∃ k, (a.calls x.caller)[x.tag]? = some k ∧
    x.cmd = k.cmd ∧ x.req = k.req
  returns : ∀ r ∈ a.returns, Answered a.answers r

structure SameTx (cb cb' : ChnlCb) : Prop where
  rspSema : cb'.rspSema = cb.rspSema
  txCmd : cb'.txCmd = cb.txCmd
  txCmdInProcess : cb'.txCmdInProcess = cb.txCmdInProcess
  txCmdFailed : cb'.txCmdFailed = cb.txCmdFailed
  rspBuf : cb'.rspBuf = cb.rspBuf
  rspLen : cb'.rspLen = cb.rspLen

structure SameRx (cb cb' : ChnlCb) : Prop where
  rxCmd : cb'.rxCmd = cb.rxCmd
  rxCmdInProcess : cb'.rxCmdInProcess = cb.rxCmdInProcess
  cmdBuf : cb'.cmdBuf = cb.cmdBuf
  cmdLen : cb'.cmdLen = cb.cmdLen
  rxTag : cb'.rxTag = cb.rxTag

theorem SameTx.refl (cb : ChnlCb) : SameTx cb cb := ⟨rfl, rfl, rfl, rfl, rfl, rfl⟩

theorem SameRx.refl (cb : ChnlCb) : SameRx cb cb := ⟨rfl, rfl, rfl, rfl, rfl⟩

structure Later (a a' : Ipc m ρ) (c : Cpu) : Prop where
  calls : a'.calls c = a.calls c
  answers : ∀ x ∈ a.answers, x ∈ a'.answers

theorem Later.refl (a : Ipc m ρ) (c : Cpu) : Later a a c := ⟨rfl, fun _ => id⟩

theorem Latest.unique {a : Ipc m ρ} {c : Cpu} {tag tag' : Nat} {k k' : Call}
    (h : Latest a c tag k) (h' : Latest a c tag' k') : tag' = tag ∧ k' = k := by
  obtain ⟨hk, hlen⟩ := h
  obtain ⟨hk', hlen'⟩ := h'
  have htag : tag' = tag := by omega
  rw [htag, hk] at hk'
  cases hk'
  exact ⟨htag, rfl⟩

section Frames

variable {l l' : Cpu → Line} {a a' : Ipc m ρ} {c : Cpu}

theorem Latest.later {tag : Nat} {k : Call} (h : Latest a c tag k) (hl : Later a a' c) :
    Latest a' c tag k := by
  unfold Latest
  rw [hl.calls]
  exact h

theorem Carried.later {d : MailboxData} {k : Call} (h : Carried a c d k)
    (hl : Later a a' c) (hx : a'.xchg c = a.xchg c) : Carried a' c d k :=
  { h with latest := h.latest.later hl, data := by rw [hx]; exact h.data }

theorem Replied.later {x : MailboxData} {k : Call} (h : Replied a c x k)
    (hl : Later a a' c) (hx : a'.xchg c = a.xchg c) : Replied a' c x k := by
  refine ⟨h.latest.later hl, h.cmd, h.found, fun hcomplete => ?_⟩
  obtain ⟨rsp, hmem, hhands⟩ := h.complete hcomplete
  refine ⟨rsp, hl.answers _ hmem, ?_⟩
  rw [hx]
  exact hhands

theorem LineInv.later (h : LineInv l a c) (hl : Later a a' c) (hline : l' c = l c)
    (hx : a'.xchg c = a.xchg c)
    (hquiet : c = .slave → ServerQuiet l a → ServerQuiet l' a') : LineInv l' a' c := by
  unfold LineInv at h ⊢
  rw [hline]
  split at h
  · trivial
  · obtain ⟨⟨k, hk⟩, hq⟩ := h
    exact ⟨⟨k, hk.later hl hx⟩, fun hc => hquiet hc (hq hc)⟩
  · obtain ⟨k, hk⟩ := h
    exact ⟨k, hk.later hl hx⟩

theorem Delivered.later {call : Call} {tag : Nat} (h : Delivered a c call tag)
    (hl : Later a a' c) (hcb : SameTx (a.cb c) (a'.cb c)) : Delivered a' c call tag := by
  unfold Delivered
  rw [hcb.txCmdFailed, hcb.rspBuf, hcb.rspLen]
  exact h.imp id (hl.answers _)

theorem StageInv.later {call : Call} {stage : Stage} (h : StageInv l a c call stage)
    (hl : Later a a' c) (hcb : SameTx (a.cb c) (a'.cb c))
    (hsettled : Settled l a c → Settled l' a' c ∧ a'.xchg c = a.xchg c) :
    StageInv l' a' c call stage := by
  cases stage with
  | setTxCmdFailed | setTxCmdInProcess => exact ⟨(hsettled h.1).1, hcb.txCmd.trans h.2⟩
  | copyCmd => exact ⟨(hsettled h.1).1, hcb.txCmd.trans h.2.1, hcb.txCmdInProcess.trans h.2.2⟩
  | write =>
    obtain ⟨hs, hcmd, hfits, hdata⟩ := h
    refine ⟨(hsettled hs).1, ⟨hcb.txCmd.trans hcmd.1, hcb.txCmdInProcess.trans hcmd.2⟩, hfits, ?_⟩
    rw [(hsettled hs).2]
    exact hdata
  | writing | getRspSema =>
    refine ⟨h.1.later hl, hcb.txCmd.trans h.2.1, ?_⟩
    rw [hcb.txCmdInProcess, hcb.rspSema]
    exact h.2.2.imp id fun hd => ⟨hd.1, hd.2.later hl hcb⟩
  | clearInProcess | checkFailed => exact ⟨hcb.txCmdInProcess.trans h.1, h.2.later hl hcb⟩
  | copyRsp => exact ⟨hcb.txCmdInProcess.trans h.1, h.2.1.later hl hcb, hcb.txCmdFailed.trans h.2.2⟩
  | _ => trivial

theorem ServerAnswer.later {tag : Nat} {bytes : List Nat} (h : ServerAnswer a tag bytes)
    (hl : Later a a' .slave) : ServerAnswer a' tag bytes := by
  obtain ⟨k, hk, hmem⟩ := h
  exact ⟨k, hk.later hl, hl.answers _ hmem⟩

end Frames

theorem ServerQuiet.later {l l' : Cpu → Line} {a a' : Ipc m ρ} (h : ServerQuiet l a)
    (hserver : a'.server = a.server) (hind : a'.serverIndSema = a.serverIndSema)
    (hcb : SameRx (a.cb .master) (a'.cb .master))
    (hline : rspUnderWay (l' .master) = true → l' .master = l .master) : ServerQuiet l' a' := by
  obtain ⟨hs, hi, hf, hl⟩ := h
  refine ⟨hserver.trans hs, hind.trans hi, hcb.rxCmdInProcess.trans hf, ?_⟩
  cases hrsp : rspUnderWay (l' .master) with
  | false => rfl
  | true => rw [← hl, ← hline hrsp, hrsp]

theorem ServerInv.later {l l' : Cpu → Line} {a a' : Ipc (m + 1) ρ} (h : ServerInv l a)
    (hl : ∀ d, Later a a' d) (hserver : a'.server = a.server)
    (hind : a'.serverIndSema = a.serverIndSema) (hserving : a'.serving = a.serving)
    (hresponded : a'.responded = a.responded) (hpc : ∀ k stage, a'.pc .master 0 = some (k, stage) →
      ∃ stage', a.pc .master 0 = some (k, stage')) (hcb : SameRx (a.cb .master) (a'.cb .master))
    (hline : rspUnderWay (l' .master) = true → l' .master = l .master) : ServerInv l' a' := by
  refine ⟨?_, ?_, ?_, ?_, ?_, ?_, ?_, ?_⟩
  · intro hne
    obtain ⟨⟨k, stage⟩, hk⟩ := Option.ne_none_iff_exists'.mp hne
    obtain ⟨stage', hold⟩ := hpc k stage hk
    rw [hserver]
    exact h.idle (by rw [hold]; exact Option.some_ne_none _)
  · intro k stage hk
    obtain ⟨stage', hold⟩ := hpc k stage hk
    rw [hserving]
    exact ⟨(h.sends k stage' hold).1, (h.sends k stage' hold).2.later (hl _)⟩
  · rw [hind, hserver, hcb.rxCmdInProcess]
    exact h.indicated
  · rw [hserver, hcb.rxCmdInProcess, hresponded]
    exact h.flag
  · rw [hserver, hcb.rxCmdInProcess, hcb.rxTag, hcb.rxCmd, hcb.cmdBuf, hcb.cmdLen]
    intro hwork
    obtain ⟨k, hk, hcmd, hreq⟩ := h.buffer hwork
    exact ⟨k, hk.later (hl _), hcmd, hreq⟩
  · rw [hserver, hserving, hcb.rxTag]
    exact h.serving
  · intro bytes mods hrsp
    rw [hserver] at hrsp
    rw [hserving]
    exact (h.computed bytes mods hrsp).later (hl _)
  · intro d hd hrsp
    have hsame : l' .master = l .master := hline (by rw [hd]; exact hrsp)
    obtain ⟨k, tag, hk, hanswer⟩ := h.line d (hsame ▸ hd) hrsp
    exact ⟨k, tag, hk.later (hl _), hanswer.later (hl _)⟩

end BekenSoc.IpcExchange
