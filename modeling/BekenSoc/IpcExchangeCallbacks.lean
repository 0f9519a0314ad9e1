import BekenSoc.IpcExchangeInvariant

namespace BekenSoc.IpcExchange

open Function CRuntime DualCore MailboxChannel MailboxLine IpcCmd List

variable {m : Nat} {ρ : Type}
variable {a' : Ipc (m + 1) ρ} {d : MailboxData} {k : Call} {r : Outcome ρ}

theorem takeRsp_rx (cb : ChnlCb) (buff : List Nat) (null : Bool) (len : Nat) :
    SameRx cb (takeRsp cb buff null len) ∧ (takeRsp cb buff null len).chnlSema = cb.chnlSema ∧
      (takeRsp cb buff null len).txCmd = cb.txCmd ∧
      (takeRsp cb buff null len).txCmdInProcess = false := by
  unfold takeRsp
  split
  · exact ⟨⟨rfl, rfl, rfl, rfl, rfl⟩, rfl, rfl, rfl⟩
  · split
    · exact ⟨⟨rfl, rfl, rfl, rfl, rfl⟩, rfl, rfl, rfl⟩
    · exact ⟨⟨rfl, rfl, rfl, rfl, rfl⟩, rfl, rfl, rfl⟩

theorem takeRsp_rsp (cb : ChnlCb) {buff rsp : List Nat} {null : Bool} {len : Nat}
    (h : HandsOver buff null len rsp) : (takeRsp cb buff null len).txCmdFailed = true ∨
      (takeRsp cb buff null len).rspBuf.take (takeRsp cb buff null len).rspLen = rsp := by
  unfold takeRsp
  split
  · exact .inl rfl
  · right
    unfold HandsOver at h
    cases null with
    | true =>
      simp only [Bool.not_true, Bool.false_and, Bool.false_eq_true, if_false]
      simpa using h.symm
    | false =>
      by_cases hlen : 0 < len
      · simp only [Bool.not_false, Bool.true_and, hlen, decide_true, if_true]
        rw [if_pos ⟨rfl, hlen⟩] at h
        obtain ⟨hrsp, hlength⟩ := h
        have hle : len ≤ buff.length := by
          have htake := congrArg length hrsp
          rw [length_take] at htake
          omega
        rw [take_memcpy _ _ hle]
        exact hrsp
      · simp only [Bool.not_false, Bool.true_and, hlen, decide_false, Bool.false_eq_true, if_false]
        rw [if_neg fun hand => hlen hand.2] at h
        simpa using h.symm

theorem not_settled {l : Cpu → Line} {a : Ipc m ρ} {c : Cpu} (h : l c ≠ .quiet) :
    ¬ Settled l a c := fun hs => h hs.1

section Callback

variable {l l' : Cpu → Line} {a : Ipc (m + 1) ρ} {w : Cpu → Nat} {c : Cpu}

theorem setCb_cb (a : Ipc (m + 1) ρ) (c : Cpu) (cb : ChnlCb) : (a.setCb c cb).cb c = cb :=
  update_self _ _ _

theorem SameRx.setCb {cb : ChnlCb} (h : SameRx (a.cb c) cb) (d : Cpu) :
    SameRx (a.cb d) ((a.setCb c cb).cb d) := by
  by_cases hd : d = c
  · rw [hd, setCb_cb]
    exact h
  · simp only [Ipc.setCb, update_of_ne hd]
    exact SameRx.refl _

theorem IpcInv.callback (h : IpcInv l a w) (cb : ChnlCb) (answers : List Answer)
    (hrx : SameRx (a.cb c) cb) (hsema : cb.chnlSema = (a.cb c).chnlSema)
    (hmono : ∀ x ∈ a.answers, x ∈ answers)
    (hnew : ∀ x ∈ answers, ∃ k, (a.calls x.caller)[x.tag]? = some k ∧ x.cmd = k.cmd ∧ x.req = k.req)
    (hstage : ∀ i call stage, a.pc c i = some (call, stage) →
      StageInv l' { a.setCb c cb with answers := answers } c call stage)
    (hother : Settled l a c.other → Settled l' { a.setCb c cb with answers := answers } c.other)
    (hlines : ∀ d, LineInv l' { a.setCb c cb with answers := answers } d)
    (hline : rspUnderWay (l' .master) = true → l' .master = l .master) :
    IpcInv l' { a.setCb c cb with answers := answers } w := by
  have hlater : ∀ d, Later a { a.setCb c cb with answers := answers } d := fun _ =>
    ⟨rfl, hmono⟩
  have hself := setCb_cb a c cb
  have hcother : (a.setCb c cb).cb c.other = a.cb c.other := update_other _ _ _
  refine ⟨h.counted, ?_, ?_, hlines, ?_, ⟨h.codes.task, h.codes.slave⟩, hnew, ?_⟩
  · refine MailboxFlight.forall_cpu (c := c) ?_ ?_
    · refine ⟨(h.tasks c).exclusive, fun i hi => ?_⟩
      rw [hself, hsema]
      exact (h.tasks c).taken i hi
    · refine ⟨(h.tasks c.other).exclusive, fun i hi => ?_⟩
      rw [hcother]
      exact (h.tasks c.other).taken i hi
  · refine MailboxFlight.forall_cpu (c := c) hstage ?_
    intro i call stage hpc
    refine (h.stages c.other i call stage hpc).later (hlater _) ?_ fun hs => ⟨hother hs, rfl⟩
    rw [hcother]
    exact SameTx.refl _
  · exact h.server.later hlater rfl rfl rfl rfl (fun k stage hk => ⟨stage, hk⟩) (hrx.setCb _) hline
  · exact fun r hr => (h.returns r hr).mono hmono

theorem setCb_self (a : Ipc (m + 1) ρ) (c : Cpu) : a.setCb c (a.cb c) = a := by
  unfold Ipc.setCb
  rw [update_eq_self]

theorem txCmplIsr_cases (c : Cpu) (ack : MailboxData) (a : Ipc (m + 1) ρ) :
    ∃ cb, ipcCmdTxCmplIsr c ack a = a.setCb c cb ∧ SameRx (a.cb c) cb ∧
      cb.chnlSema = (a.cb c).chnlSema ∧ (cb = a.cb c ∨
        (a.cb c).txCmdInProcess = true ∧ cb.txCmd = (a.cb c).txCmd ∧
        cb.txCmdInProcess = false ∧ (cb.txCmdFailed = true ∨ ack.param3 = ackStateComplete ∧
          cb = takeRsp (a.cb c) (a.xchg c) (decide (ack.param1 = 0)) ack.param2)) := by
  have hkept := (setCb_self a c).symm
  unfold ipcCmdTxCmplIsr
  dsimp only
  split
  · split
    · exact ⟨_, hkept, SameRx.refl _, rfl, .inl rfl⟩
    · rename_i hprocess
      have hprocess' := Bool.eq_true_of_not_eq_false hprocess
      split
      · exact ⟨_, rfl, ⟨rfl, rfl, rfl, rfl, rfl⟩, rfl, .inr ⟨hprocess', rfl, rfl, .inl rfl⟩⟩
      · split
        · rename_i hcomplete
          obtain ⟨hrx, hsema, hcmd, hoff⟩ := takeRsp_rx (a.cb c) (a.xchg c)
            (decide (ack.param1 = 0)) ack.param2
          exact ⟨_, rfl, hrx, hsema, .inr ⟨hprocess', hcmd, hoff, .inr ⟨hcomplete, rfl⟩⟩⟩
        · exact ⟨_, hkept, SameRx.refl _, rfl, .inl rfl⟩
  · exact ⟨_, hkept, SameRx.refl _, rfl, .inl rfl⟩

theorem StageInv.ended {call : Call} {stage : Stage} (h : StageInv l a c call stage)
    (hprocess : (a.cb c).txCmdInProcess = true) (hsettled : ¬ Settled l a c) (hl : Later a a' c)
    (hcmd : (a'.cb c).txCmd = (a.cb c).txCmd) (hoff : (a'.cb c).txCmdInProcess = false)
    (hend : ∀ tag, Latest a c tag call → Delivered a' c call tag) :
    StageInv l' a' c call stage := by
  cases stage with
  | setTxCmdFailed | setTxCmdInProcess | copyCmd | write => exact absurd h.1 hsettled
  | writing tag
  | getRspSema tag => exact ⟨h.1.later hl, hcmd.trans h.2.1, .inr ⟨hoff, hend tag h.1⟩⟩
  | clearInProcess | checkFailed | copyRsp => exact absurd (hprocess.symm.trans h.1) (by decide)
  | _ => trivial

theorem IpcInv.complete (h : IpcInv l a w) {ack : MailboxData} (hline : l c = .acked ack) :
    IpcInv (update l c .quiet) (ipcCmdTxCmplIsr c ack a) w := by
  obtain ⟨cb, heq, hrx, hsema, hcase⟩ := txCmplIsr_cases c ack a
  have hself := setCb_cb a c cb
  have hlater : ∀ d, Later a (a.setCb c cb) d := fun _ => ⟨rfl, fun _ => id⟩
  have hsettled : ¬ Settled l a c := not_settled (by rw [hline]; exact Line.noConfusion)
  have hquiet : ServerQuiet l a → ServerQuiet (update l c .quiet)
      (a.setCb c cb) := fun hq => hq.later rfl rfl (hrx.setCb _) (rspUnderWay_update rfl)
  rw [heq]
  refine h.callback cb a.answers hrx hsema (fun _ => id) h.answers ?_ ?_ ?_ (rspUnderWay_update rfl)
  · intro i call stage hpc
    have hs := h.stages c i call stage hpc
    rcases hcase with hsamecb | ⟨hprocess, hcmd, hoff, hend⟩
    · refine hs.later (hlater c) ?_ fun hset => absurd hset hsettled
      rw [hself, hsamecb]
      exact SameTx.refl _
    · refine hs.ended hprocess hsettled (hlater c) (by rw [hself]; exact hcmd)
        (by rw [hself]; exact hoff) fun tag htag => ?_
      unfold Delivered
      rw [hself]
      rcases hend with hfailed | ⟨hcomplete, htake⟩
      · exact .inl hfailed
      · have hinv := h.lines c
        unfold LineInv at hinv
        rw [hline] at hinv
        obtain ⟨k, hk⟩ := hinv
        obtain ⟨htags, hcalls⟩ := htag.unique hk.latest
        obtain ⟨rsp, hmem, hhands⟩ := hk.complete hcomplete
        rw [htake]
        refine (takeRsp_rsp (a.cb c) hhands).imp id fun hrsp => ?_
        rw [hrsp, ← hcalls, ← htags]
        exact hmem
  · rintro ⟨hl, hsem, hq⟩
    refine ⟨?_, ?_, fun hc => hquiet (hq hc)⟩
    · rw [update_other]
      exact hl
    · exact (congrArg ChnlCb.rspSema (update_other _ _ _)).trans hsem
  · refine MailboxFlight.forall_cpu (c := c) ?_ ?_
    · unfold LineInv
      rw [update_self]
      trivial
    · exact (h.lines c.other).later (hlater _) (update_other _ _ _) rfl fun _ => hquiet

theorem IpcInv.carried (h : IpcInv l a w) (hline : l c = .underWay d) :
    (∃ k, Carried a c d k) ∧ (c = .slave → ServerQuiet l a) := by
  have hinv := h.lines c
  unfold LineInv at hinv
  rw [hline] at hinv
  exact hinv

theorem LineInv.acked {answer : Nat × Nat × Nat} (hk : Carried a c d k) (hl : Later a a' c)
    (hline : l' c = .acked (replied d answer)) (hcomplete : answer.2.2 = ackStateComplete →
      ∃ rsp, (⟨c, d.tag, k.cmd, k.req, rsp⟩ : Answer) ∈ a'.answers ∧
        HandsOver (a'.xchg c) (decide (answer.1 = 0)) answer.2.1 rsp) : LineInv l' a' c := by
  unfold LineInv
  rw [hline]
  exact ⟨k, hk.latest.later hl, hk.cmd, hk.found, hcomplete⟩

theorem handsOver_of_take {buff rsp : List Nat} (h : buff.take rsp.length = rsp) :
    HandsOver buff (decide (1 = 0)) rsp.length rsp := by
  unfold HandsOver
  split
  · exact ⟨h, rfl⟩
  · rename_i hzero
    have hlen : rsp.length = 0 := by
      by_contra hne
      exact hzero ⟨rfl, Nat.pos_of_ne_zero hne⟩
    exact length_eq_zero_iff.mp hlen

theorem Carried.handsOver (hk : Carried a c d k) :
    HandsOver (a.xchg c) (decide (d.param1 = 0)) d.param2 k.req := by
  rw [hk.buff, hk.len]
  exact handsOver_of_take hk.data

theorem rxRspIsr_cases (d : MailboxData) (a : Ipc (m + 1) ρ) :
    (∃ p1 p2, rxRspIsr .slave d a = (a, p1, p2, ackStateFail)) ∨
      (a.cb .slave).txCmdInProcess = true ∧ rxRspIsr .slave d a =
        ({ a.setCb .slave (takeRsp (a.cb .slave) (a.xchg .master)
              (decide (d.param1 = 0)) d.param2) with
            answers := ⟨.master, d.tag, d.hdr.cmd, (a.xchg .master).take d.param2, []⟩ ::
              a.answers }, 0, 0, ackStateComplete) := by
  unfold rxRspIsr
  dsimp only
  split
  · exact .inl ⟨_, _, rfl⟩
  · rename_i hprocess
    split
    · exact .inl ⟨_, _, rfl⟩
    · exact .inr ⟨Bool.eq_true_of_not_eq_false hprocess, rfl⟩

theorem IpcInv.deliver_rsp (h : IpcInv l a w) (hline : l .master = .underWay d)
    (hrsp : isRsp d.hdr.cmd = true) :
    IpcInv (update l .master (.acked (replied d (rxRspIsr .slave d a).2)))
      (rxRspIsr .slave d a).1 w := by
  obtain ⟨⟨k, hk⟩, -⟩ := h.carried hline
  have hbusy : ¬ ServerQuiet l a := by
    rintro ⟨-, -, -, hno⟩
    rw [hline] at hno
    exact absurd (hrsp.symm.trans hno) (by decide)
  have hslave : ¬ Settled l a .slave := fun hs => hbusy (hs.2.2 rfl)
  have hnotmaster : ¬ Settled l a .master := not_settled (by rw [hline]; exact Line.noConfusion)
  have hlines : ∀ (a' : Ipc (m + 1) ρ) x, Later a a' .slave → a'.xchg = a.xchg →
      LineInv (update l .master x) a' .slave := by
    intro a' x hl hx
    refine (h.lines .slave).later hl ?_ (by rw [hx]) fun _ hq => absurd hq hbusy
    exact update_of_ne (by decide) _ _
  rcases rxRspIsr_cases d a with ⟨p1, p2, heq⟩ | ⟨hprocess, heq⟩
  · rw [heq]
    have hsame : IpcInv (update l .master (.acked (replied d (p1, p2, ackStateFail))))
        { a.setCb .slave (a.cb .slave) with answers := a.answers } w := by
      refine h.callback (a.cb .slave) a.answers (SameRx.refl _) rfl (fun _ => id) h.answers
        ?_ (fun hs => absurd hs hnotmaster) ?_ (rspUnderWay_update rfl)
      · intro i call stage hpc
        rw [setCb_self]
        exact (h.stages .slave i call stage hpc).later (Later.refl a _) (SameTx.refl _)
          fun hs => absurd hs hslave
      · rw [setCb_self]
        refine MailboxFlight.forall_cpu (c := .master) ?_ ?_
        · refine LineInv.acked hk (Later.refl a _) (update_self _ _ _) ?_
          exact fun hcomplete => absurd hcomplete (show ackStateFail ≠ _ by decide)
        · exact hlines a _ (Later.refl a _) rfl
    rw [setCb_self] at hsame
    exact hsame
  · rw [heq]
    obtain ⟨hrx, hsema, hcmd, hoff⟩ := takeRsp_rx (a.cb .slave) (a.xchg .master)
      (decide (d.param1 = 0)) d.param2
    have hreq : (a.xchg .master).take d.param2 = k.req := by
      rw [hk.len]
      exact hk.data
    refine h.callback (c := .slave) _ _ hrx hsema
      (fun _ => mem_cons_of_mem _) ?_ ?_ (fun hs => absurd hs hnotmaster) ?_
      (rspUnderWay_update rfl)
    · intro x hx
      rcases mem_cons.mp hx with rfl | hx
      · exact ⟨k, hk.latest.1, hk.cmd, hreq⟩
      · exact h.answers x hx
    · intro i call stage hpc
      refine (h.stages .slave i call stage hpc).ended hprocess hslave
        ⟨rfl, fun _ => mem_cons_of_mem _⟩ ?_ ?_ ?_
      · simp only [Ipc.setCb, update_self]
        exact hcmd
      · simp only [Ipc.setCb, update_self]
        exact hoff
      · intro tag htag
        obtain ⟨k', tag', hk', ks, hks, hmem⟩ := h.server.line d hline hrsp
        obtain ⟨-, hkk⟩ := hk.latest.unique hk'
        obtain ⟨htags, hcalls⟩ := htag.unique hks
        rw [hkk, htags, hcalls] at hmem
        unfold Delivered Ipc.setCb
        simp only [update_self]
        refine (takeRsp_rsp (a.cb .slave) hk.handsOver).imp id fun htake => ?_
        rw [htake]
        exact mem_cons_of_mem _ hmem
    · refine MailboxFlight.forall_cpu (c := .master) ?_ ?_
      · refine LineInv.acked hk ⟨rfl, fun _ => mem_cons_of_mem _⟩
          (update_self _ _ _) fun _ => ⟨[], ?_, rfl⟩
        rw [← hk.cmd, ← hreq]
        exact mem_cons_self
      · exact hlines _ _ ⟨rfl, fun _ => mem_cons_of_mem _⟩ rfl

def Immediate (r : Outcome ρ) : Prop :=
  r.wakes = false ∧ r.result ≠ ackStatePending ∧
    (r.result = ackStateComplete → r.rspDataLen = r.rsp.length)

theorem complete_ne_pending : ackStateComplete ≠ ackStatePending := by decide

theorem fail_ne_pending : ackStateFail ≠ ackStatePending := by decide

theorem fail_ne_complete : ackStateFail ≠ ackStateComplete := by decide

theorem immediate_completed (svc : ρ) (rsp : List Nat) : Immediate (completed svc rsp) :=
  ⟨rfl, complete_ne_pending, fun _ => rfl⟩

theorem immediate_failed (svc : ρ) : Immediate (failed svc) := ⟨rfl, fail_ne_pending, fun _ => rfl⟩

theorem immediate_reported (r : ρ × Bool) : Immediate (reported r) := by
  unfold reported
  split
  · exact immediate_completed _ _
  · exact immediate_failed _

theorem immediate_counted (r : ρ × Option (Nat × Nat)) : Immediate (IpcCmd.counted r) := by
  unfold IpcCmd.counted
  split
  · exact immediate_completed _ _
  · exact immediate_failed _

theorem immediate_ite {p : Prop} [Decidable p] (svc : ρ) (h : Immediate r) :
    Immediate (if p then r else failed svc) := by
  split
  · exact h
  · exact immediate_failed _

theorem immediate_client (sv : Services ρ) (rxCmd : Nat) (cmd : List Nat) (svc : ρ) :
    Immediate (ipcClientCmdHandler sv rxCmd cmd svc) := by
  unfold ipcClientCmdHandler
  split
  · exact immediate_ite svc (immediate_completed _ _)
  · exact immediate_completed _ _
  · exact immediate_ite svc (immediate_completed _ _)
  · exact immediate_completed _ _
  · exact immediate_ite svc (immediate_reported _)
  · exact immediate_failed _

theorem immediate_server (sv : Services ρ) (rxCmd : Nat) (cmd : List Nat) (len : Nat)
    (svc : ρ) : Immediate (ipcServerCmdHandler sv rxCmd cmd len svc) := by
  unfold ipcServerCmdHandler
  split
  · exact immediate_ite svc (immediate_completed _ _)
  · exact immediate_completed _ _
  · exact immediate_completed _ _
  · exact immediate_ite svc (immediate_counted _)
  · exact immediate_ite svc (immediate_counted _)
  · exact immediate_ite svc (immediate_reported _)
  · exact immediate_ite svc (immediate_completed _ _)
  · exact immediate_ite svc (immediate_reported _)
  · exact immediate_ite svc (immediate_completed _ _)
  · exact ⟨rfl, fail_ne_pending, fun hcomplete => absurd hcomplete fail_ne_complete⟩
  · exact immediate_failed _

theorem rxCmdHandler_cases (sv : Services ρ) (chn : IpcChnl) (c : Cpu) (rxCmd : Nat)
    (cmd : List Nat) (len : Nat) (svc : ρ) : Immediate (rxCmdHandler sv chn c rxCmd cmd len svc) ∨
      c = .master ∧ rxCmdHandler sv chn c rxCmd cmd len svc =
        ⟨svc, ackStatePending, len, [], true⟩ := by
  unfold rxCmdHandler
  split
  · exact .inl (immediate_client sv rxCmd cmd svc)
  · exact .inl (immediate_server sv rxCmd cmd len svc)
  · unfold rpcServerCmdHandler
    split
    · exact .inr ⟨rfl, rfl⟩
    · exact .inl (immediate_server sv _ cmd len svc)

structure CmdHandled (a a' : Ipc (m + 1) ρ) (c : Cpu) (d : MailboxData) (k : Call)
    (r : Outcome ρ) : Prop where
  cb : a'.cb c = a.cb c
  tx : SameTx (a.cb c.other) (a'.cb c.other)
  chnlSema : (a'.cb c.other).chnlSema = (a.cb c.other).chnlSema
  rxCmd : (a'.cb c.other).rxCmd = k.cmd
  rxCmdInProcess : (a'.cb c.other).rxCmdInProcess = decide (r.result = ackStatePending)
  req : (a'.cb c.other).cmdBuf.take (a'.cb c.other).cmdLen = k.req
  rxTag : (a'.cb c.other).rxTag = d.tag
  xchg : a'.xchg c = memcpy (a.xchg c) r.rsp r.rsp.length
  xchgOther : a'.xchg c.other = a.xchg c.other
  pc : a'.pc = a.pc
  server : a'.server = a.server
  serverIndSema : a'.serverIndSema = (a.serverIndSema || r.wakes)
  serving : a'.serving = a.serving
  responded : a'.responded = a.responded
  calls : a'.calls = a.calls
  returns : a'.returns = a.returns
  answers : a'.answers = if r.result = ackStateComplete then
    ⟨c, d.tag, k.cmd, k.req, r.rsp⟩ :: a.answers else a.answers

theorem cmdHandled_mk (r : Outcome ρ) {cmdBuf : List Nat} {cmdLen : Nat}
    (htake : cmdBuf.take cmdLen = k.req) : CmdHandled a { a with
      cb := update a.cb c.other { a.cb c.other with
        rxCmd := k.cmd, rxCmdInProcess := decide (r.result = ackStatePending)
        cmdBuf := cmdBuf, cmdLen := cmdLen, rxTag := d.tag }
      xchg := update a.xchg c (memcpy (a.xchg c) r.rsp r.rsp.length)
      svc := r.svc
      serverIndSema := a.serverIndSema || r.wakes
      answers := if r.result = ackStateComplete then
        ⟨c, d.tag, k.cmd, k.req, r.rsp⟩ :: a.answers else a.answers } c d k r := by
  refine ⟨update_of_ne (other_ne c).symm _ _, ?_, ?_, ?_, ?_, ?_, ?_,
    update_self _ _ _, update_other _ _ _, rfl, rfl, rfl, rfl, rfl, rfl, rfl, rfl⟩
  all_goals simp only [update_self]
  · exact ⟨rfl, rfl, rfl, rfl, rfl, rfl⟩
  · exact htake

theorem rxCmdIsr_carried (sv : Services ρ) (chn : IpcChnl) (hk : Carried a c d k)
    (hr : rxCmdHandler sv chn c.other k.cmd k.req k.req.length a.svc = r) :
    ∃ a', rxCmdIsr sv chn c.other d a = (a', 1, r.rspDataLen, r.result) ∧
      CmdHandled a a' c d k r := by
  have hfits : ¬ ipcXchgDataMax < k.req.length := by
    have := hk.fits
    omega
  have hle : k.req.length ≤ (a.xchg c).length := by
    have hlen := congrArg length hk.data
    rw [length_take] at hlen
    omega
  rcases Nat.eq_zero_or_pos k.req.length with hzero | hpos
  · have hreq := length_eq_zero_iff.mp hzero
    have htake : (a.cb c.other).cmdBuf.take 0 = k.req := by rw [hreq, take_zero]
    refine ⟨_, ?_, cmdHandled_mk r htake⟩
    rw [hreq, length_nil] at hr
    simp only [rxCmdIsr, hk.len, hk.buff, hk.cmd, other_other, hreq, length_nil,
      Nat.not_lt_zero, Nat.lt_irrefl, decide_false, Bool.and_false, Bool.false_eq_true,
      if_false, take_zero, Ipc.setCb, Ipc.setXchg, Ipc.answer, hr]
    split <;> rfl
  · have htake : (memcpy (a.cb c.other).cmdBuf (a.xchg c) k.req.length).take
        k.req.length = k.req := by
      rw [take_memcpy _ _ hle]
      exact hk.data
    refine ⟨_, ?_, cmdHandled_mk r htake⟩
    simp only [rxCmdIsr, hk.len, hk.buff, hk.cmd, other_other, hfits, hpos, ne_eq,
      Nat.one_ne_zero, not_false_eq_true, decide_true, Bool.and_self, if_true, if_false,
      htake, hr, Ipc.setCb, Ipc.setXchg, Ipc.answer]
    split <;> rfl

theorem ServerInv.delivered (h : ServerInv l a) (hquiet : ServerQuiet l a)
    (hk : Carried a .slave d k) (hl : ∀ d, Later a a' d) (hafter : CmdHandled a a' .slave d k r)
    (hwakes : r.wakes = true → r.result = ackStatePending) (hline : l' .master = l .master) :
    ServerInv l' a' := by
  have hlisten : a'.server = .listen := hafter.server.trans hquiet.1
  refine ⟨?_, ?_, ?_, fun hne => absurd hlisten hne, ?_, fun hne => absurd hlisten hne, ?_, ?_⟩
  · rw [hafter.pc, hafter.server]
    exact h.idle
  · intro k' stage hk'
    rw [hafter.pc] at hk'
    rw [hafter.serving]
    exact ⟨(h.sends k' stage hk').1, (h.sends k' stage hk').2.later (hl _)⟩
  · intro hi
    rw [hafter.serverIndSema, hquiet.2.1, Bool.false_or] at hi
    refine ⟨hlisten, ?_⟩
    exact hafter.rxCmdInProcess.trans (by rw [hwakes hi]; rfl)
  · intro _
    refine ⟨k, ?_, hafter.rxCmd.symm, hafter.req⟩
    exact hafter.rxTag ▸ hk.latest.later (hl _)
  · intro bytes mods hrsp
    rw [hlisten] at hrsp
    cases hrsp
  · intro d' hd hrsp
    rw [hline] at hd
    obtain ⟨k', tag, hk', hanswer⟩ := h.line d' hd hrsp
    exact ⟨k', tag, hk'.later (hl _), hanswer.later (hl _)⟩

theorem IpcInv.deliver_cmd (sv : Services ρ) (chn : IpcChnl) (h : IpcInv l a w)
    (hline : l c = .underWay d) :
    IpcInv (update l c (.acked (replied d (rxCmdIsr sv chn c.other d a).2)))
      (rxCmdIsr sv chn c.other d a).1 w := by
  obtain ⟨⟨k, hk⟩, hquiet⟩ := h.carried hline
  generalize hr : rxCmdHandler sv chn c.other k.cmd k.req k.req.length a.svc = r
  obtain ⟨a', heq, hafter⟩ := rxCmdIsr_carried sv chn hk hr
  rw [heq]
  dsimp only
  have hlater : ∀ d, Later a a' d := by
    refine fun _ => ⟨by rw [hafter.calls], fun x hx => ?_⟩
    rw [hafter.answers]
    split
    · exact mem_cons_of_mem _ hx
    · exact hx
  have hcases := rxCmdHandler_cases sv chn c.other k.cmd k.req k.req.length a.svc
  rw [hr] at hcases
  have hwakes : r.wakes = true → r.result = ackStatePending ∧ c.other = .master := by
    intro hw
    rcases hcases with ⟨hno, -, -⟩ | ⟨hmaster, hpending⟩
    · exact absurd (hw.symm.trans hno) (by decide)
    · exact ⟨by rw [hpending], hmaster⟩
  have hlen : r.result = ackStateComplete → r.rspDataLen = r.rsp.length := by
    intro hcomplete
    rcases hcases with ⟨-, -, hlen⟩ | ⟨-, hpending⟩
    · exact hlen hcomplete
    · rw [hpending] at hcomplete
      exact absurd hcomplete.symm complete_ne_pending
  generalize hx : Line.acked (replied d (1, r.rspDataLen, r.result)) = x
  have hsettled : ¬ Settled l a c := not_settled (by rw [hline]; exact Line.noConfusion)
  -- on the slave no handler wakes the server
  have hno : c = .master → r.wakes = false := by
    rintro rfl
    cases hw : r.wakes with
    | false => rfl
    | true => cases (hwakes hw).2
  have hstays : c.other = .slave → ServerQuiet l a → ServerQuiet (update l c x) a' := by
    intro hc hq
    have hmaster : c = .master := by
      rw [← other_other c, hc]
      rfl
    refine hq.later hafter.server ?_ ?_ (rspUnderWay_update (hx ▸ rfl))
    · rw [hafter.serverIndSema, hno hmaster, Bool.or_false]
    · rw [← hmaster, hafter.cb]
      exact SameRx.refl _
  refine ⟨?_, ?_, ?_, ?_, ?_, ⟨?_, ?_⟩, ?_, ?_⟩
  · rw [hafter.calls]
    exact h.counted
  · refine MailboxFlight.forall_cpu (c := c) ⟨?_, ?_⟩ ⟨?_, ?_⟩
    · rw [hafter.pc]
      exact (h.tasks c).exclusive
    · rw [hafter.pc, hafter.cb]
      exact (h.tasks c).taken
    · rw [hafter.pc]
      exact (h.tasks c.other).exclusive
    · rw [hafter.pc, hafter.chnlSema]
      exact (h.tasks c.other).taken
  · rw [hafter.pc]
    refine MailboxFlight.forall_cpu (c := c) ?_ ?_
    · intro i call stage hpc
      refine (h.stages c i call stage hpc).later (hlater _) ?_ fun hs => absurd hs hsettled
      rw [hafter.cb]
      exact SameTx.refl _
    · intro i call stage hpc
      refine (h.stages c.other i call stage hpc).later (hlater _) hafter.tx ?_
      rintro ⟨hl, hsem, hq⟩
      refine ⟨⟨?_, hafter.tx.rspSema.trans hsem, fun hc => hstays hc (hq hc)⟩, hafter.xchgOther⟩
      rw [update_other]
      exact hl
  · refine MailboxFlight.forall_cpu (c := c) ?_ ?_
    · have hself : update l c x c = .acked (replied d (1, r.rspDataLen, r.result)) := by
        rw [update_self, hx]
      refine LineInv.acked hk (hlater c) hself fun hcomplete => ⟨r.rsp, ?_, ?_⟩
      · rw [hafter.answers, if_pos hcomplete]
        exact mem_cons_self
      · rw [hafter.xchg]
        dsimp only
        rw [hlen hcomplete]
        refine handsOver_of_take ?_
        rw [take_memcpy _ _ (le_refl _), take_length]
    · exact (h.lines c.other).later (hlater _) (update_other _ _ _) hafter.xchgOther hstays
  · cases c with
    | slave =>
      exact h.server.delivered (hquiet rfl) hk hlater hafter (fun hw => (hwakes hw).1)
        (update_of_ne (by decide) _ _)
    | master =>
      refine h.server.later hlater hafter.server ?_ hafter.serving hafter.responded ?_ ?_
        (rspUnderWay_update (hx ▸ rfl))
      · rw [hafter.serverIndSema, hno rfl, Bool.or_false]
      · rw [hafter.pc]
        exact fun k stage hk => ⟨stage, hk⟩
      · rw [hafter.cb]
        exact SameRx.refl _
  · rw [hafter.pc]
    exact h.codes.task
  · rw [hafter.calls]
    exact h.codes.slave
  · intro y hy
    rw [hafter.calls]
    rw [hafter.answers] at hy
    split at hy
    · rcases mem_cons.mp hy with rfl | hy
      · exact ⟨k, hk.latest.1, rfl, rfl⟩
      · exact h.answers y hy
    · exact h.answers y hy
  · rw [hafter.returns]
    exact fun y hy => (h.returns y hy).mono (hlater c).answers

theorem IpcInv.transit {sv : Services ρ} {chn : IpcChnl} (h : IpcInv l a w)
    (ht : Transit (ipcApp sv chn) chn.id l a l' a') : IpcInv l' a' w := by
  cases ht with
  | stay => exact h
  | complete c ack hline =>
    simp only [ipcApp, if_true]
    exact h.complete hline
  | deliver c d hline =>
    simp only [ipcApp, if_true, ipcCmdRxIsr]
    cases hrsp : isRsp d.hdr.cmd with
    | false =>
      simp only [Bool.false_eq_true, if_false]
      exact h.deliver_cmd sv chn hline
    | true =>
      simp only [if_true]
      cases c with
      | master => exact h.deliver_rsp hline hrsp
      | slave =>
        obtain ⟨⟨k, hk⟩, -⟩ := h.carried hline
        have hcode := h.codes.slave k (mem_of_getElem? hk.latest.1)
        rw [hk.cmd] at hrsp
        exact absurd hrsp (not_isRsp hcode)

end Callback

end BekenSoc.IpcExchange
