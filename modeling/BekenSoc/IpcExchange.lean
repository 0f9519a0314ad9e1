import BekenSoc.IpcExchangeTasks

namespace BekenSoc.IpcExchange

open Function DualCore GuardedRuns MailboxChannel MailboxAcks MailboxLine IpcCmd List

variable {m : Nat} {ρ : Type}

structure Aside (a a' : Ipc (m + 1) ρ) : Prop where
  tx : ∀ c, SameTx (a.cb c) (a'.cb c)
  chnlSema : ∀ c, (a'.cb c).chnlSema = (a.cb c).chnlSema
  xchg : a'.xchg = a.xchg
  pc : ∀ c i k stage, a'.pc c i = some (k, stage) →
    a.pc c i = some (k, stage) ∨ stage = .getChnlSema
  calls : a'.calls = a.calls
  returns : a'.returns = a.returns
  kept : ∀ x ∈ a.answers, x ∈ a'.answers
  noted : ∀ x ∈ a'.answers, x ∈ a.answers ∨
    ∃ k, (a.calls x.caller)[x.tag]? = some k ∧ x.cmd = k.cmd ∧ x.req = k.req

namespace Aside

variable {l : Cpu → Line} {a a' : Ipc (m + 1) ρ} {w : Cpu → Nat}

theorem later (h : Aside a a') (d : Cpu) : Later a a' d := ⟨congrFun h.calls d, h.kept⟩

theorem holds_of_holds (h : Aside a a') (c : Cpu) (i : Fin (m + 1))
    (hholds : holds (a'.pc c i) = true) : holds (a.pc c i) = true := by
  cases hpc : a'.pc c i with
  | none =>
    rw [hpc] at hholds
    cases hholds
  | some p =>
    rw [hpc] at hholds
    rcases h.pc c i p.1 p.2 hpc with hold | henter
    · rw [hold]
      exact hholds
    · have hp : p = (p.1, .getChnlSema) := by rw [← henter]
      rw [hp] at hholds
      cases hholds

theorem ipcInv (h : Aside a a') (hinv : IpcInv l a w) (hserver : ServerInv l a')
    (hquiet : ServerQuiet l a → ServerQuiet l a')
    (hcode : ∀ c i k stage, a'.pc c i = some (k, stage) → isServerTask c i = false →
      k.cmd ≤ ipcCmdMax) : IpcInv l a' w := by
  refine ⟨?_, ?_, ?_, ?_, hserver, ⟨hcode, ?_⟩, ?_, ?_⟩
  · rw [h.calls]
    exact hinv.counted
  · intro c
    refine ⟨fun i j hi hj => ?_, fun i hi => ?_⟩
    · exact (hinv.tasks c).exclusive i j (h.holds_of_holds c i hi) (h.holds_of_holds c j hj)
    · exact (h.chnlSema c).trans ((hinv.tasks c).taken i (h.holds_of_holds c i hi))
  · intro c i call stage hpc
    rcases h.pc c i call stage hpc with hold | rfl
    · refine (hinv.stages c i call stage hold).later (h.later c) (h.tx c) ?_
      rintro ⟨hl, hsem, hq⟩
      exact ⟨⟨hl, (h.tx c).rspSema.trans hsem, fun hc => hquiet (hq hc)⟩, congrFun h.xchg c⟩
    · trivial
  · exact fun c => (hinv.lines c).later (h.later c) rfl (congrFun h.xchg c) fun _ => hquiet
  · rw [h.calls]
    exact hinv.codes.slave
  · intro x hx
    rw [h.calls]
    exact (h.noted x hx).elim (hinv.answers x) id
  · rw [h.returns]
    exact fun r hr => (hinv.returns r hr).mono h.kept

end Aside

theorem aside_enter (a : Ipc (m + 1) ρ) (c : Cpu) (i : Fin (m + 1)) (call : Call) :
    Aside a (a.setPc c i (some (call, .getChnlSema))) := by
  refine ⟨fun _ => SameTx.refl _, fun _ => rfl, rfl, ?_, rfl, rfl, fun _ => id, fun _ => .inl⟩
  intro d j k stage hk
  rcases setPc_pc_cases hk with ⟨-, hnew⟩ | hold
  · cases hnew
    exact .inr rfl
  · exact .inl hold

theorem IpcInv.call {l : Cpu → Line} {a : Ipc (m + 1) ρ} {w : Cpu → Nat} {c : Cpu}
    {i : Fin (m + 1)} {call : Call} (h : IpcInv l a w) (htask : isServerTask c i = false)
    (hcode : call.cmd ≤ ipcCmdMax) : IpcInv l (a.setPc c i (some (call, .getChnlSema))) w := by
  have haside := aside_enter a c i call
  refine haside.ipcInv h ?_ ?_ ?_
  · refine h.server.later haside.later rfl rfl rfl rfl ?_ (SameRx.refl _) fun _ => rfl
    intro k stage hk
    rcases setPc_pc_cases hk with ⟨⟨rfl, rfl⟩, -⟩ | hold
    · cases htask
    · exact ⟨stage, hold⟩
  · exact fun hq => hq.later rfl rfl (SameRx.refl _) fun _ => rfl
  · intro d j k stage hk hserver
    rcases setPc_pc_cases hk with ⟨-, hnew⟩ | hold
    · cases hnew
      exact hcode
    · exact h.codes.task d j k stage hold hserver

section Server

variable {sv : Services ρ} {l : Cpu → Line} {a a' : Ipc (m + 1) ρ} {w : Cpu → Nat}

theorem runServer_busy (hrun : runServer sv a = some a') : ¬ ServerQuiet l a := by
  rintro ⟨hlisten, hind, -, -⟩
  simp only [runServer, hlisten, hind] at hrun
  cases hrun

theorem ServerInv.taken (h : ServerInv l a) (hwork : a.server ≠ .listen)
    (hhandle : a.server ≠ .handle) :
    ∃ k, Latest a .slave a.serving k ∧ k.cmd = (a.cb .master).rxCmd ∧
      k.req = (a.cb .master).cmdBuf.take (a.cb .master).cmdLen := by
  obtain ⟨k, hk, hcmd, hreq⟩ := h.buffer (.inr hwork)
  rw [h.serving hwork hhandle]
  exact ⟨k, hk, hcmd, hreq.symm⟩

theorem ServerInv.moved (h : ServerInv l a) (hwork : a.server ≠ .listen)
    (hhandle : a.server = .handle → a'.server = .listen) (hl : ∀ d, Later a a' d)
    (hcb : a'.cb = a.cb) (hind : a'.serverIndSema = a.serverIndSema)
    (hserving : a'.serving = a.serving) (hresponded : a'.responded = a.responded)
    (hidle : a'.pc .master 0 = none) (hcomputed : ∀ bytes mods, a'.server = .rsp bytes mods →
      ServerAnswer a' a.serving bytes) : ServerInv l a' := by
  refine ⟨fun hne => absurd hidle hne, ?_, ?_, ?_, ?_, ?_, ?_, ?_⟩
  · intro k stage hk
    rw [hidle] at hk
    cases hk
  · intro hi
    exact absurd (h.indicated (hind.symm.trans hi)).1 hwork
  · intro _
    rw [hcb, hresponded]
    exact h.flag hwork
  · intro _
    obtain ⟨k, hk, hrest⟩ := h.buffer (.inr hwork)
    rw [hcb]
    exact ⟨k, hk.later (hl _), hrest⟩
  · intro hlisten _
    rw [hcb, hserving]
    exact h.serving hwork fun hh => hlisten (hhandle hh)
  · rw [hserving]
    exact hcomputed
  · intro d hd hrsp
    obtain ⟨k, tag, hk, hanswer⟩ := h.line d hd hrsp
    exact ⟨k, tag, hk.later (hl _), hanswer.later (hl _)⟩

theorem Aside.of_same (hcb : a'.cb = a.cb) (hxchg : a'.xchg = a.xchg) (hpc : a'.pc = a.pc)
    (hcalls : a'.calls = a.calls) (hreturns : a'.returns = a.returns)
    (hkept : ∀ x ∈ a.answers, x ∈ a'.answers) (hnoted : ∀ x ∈ a'.answers, x ∈ a.answers ∨
      ∃ k, (a.calls x.caller)[x.tag]? = some k ∧ x.cmd = k.cmd ∧ x.req = k.req) : Aside a a' := by
  refine ⟨fun c => ?_, fun c => by rw [hcb], hxchg, fun c i k stage hk => .inl ?_, hcalls,
    hreturns, hkept, hnoted⟩
  · rw [hcb]
    exact SameTx.refl _
  · rw [← hpc]
    exact hk

section

variable (h : IpcInv l a w)
include h

theorem IpcInv.moved (hbusy : ¬ ServerQuiet l a) (haside : Aside a a') (hpc : a'.pc = a.pc)
    (hserver : ServerInv l a') : IpcInv l a' w := by
  refine haside.ipcInv h hserver (fun hq => absurd hq hbusy) ?_
  rw [hpc]
  exact h.codes.task

theorem IpcInv.setServer (hbusy : ¬ ServerQuiet l a) (server : ServerPc)
    (hwork : a.server ≠ .listen) (hhandle : a.server = .handle → server = .listen)
    (hidle : a.pc .master 0 = none) (hrsp : ∀ bytes mods, server ≠ .rsp bytes mods) :
    IpcInv l (a.setServer server) w := by
  refine h.moved hbusy (Aside.of_same rfl rfl rfl rfl rfl (fun _ => id) fun _ => .inl) rfl ?_
  refine h.server.moved hwork hhandle (fun _ => ⟨rfl, fun _ => id⟩) rfl rfl rfl rfl hidle ?_
  intro bytes mods hcomputed
  exact absurd hcomputed (hrsp bytes mods)

theorem IpcInv.respond (hbusy : ¬ ServerQuiet l a) (svc : ρ) (rsp : List Nat) (mods : List SvrMod)
    (hwork : a.server ≠ .listen) (hhandle : a.server ≠ .handle) (hidle : a.pc .master 0 = none) :
    IpcInv l (({ a with svc := svc }.answer ⟨.slave, a.serving, (a.cb .master).rxCmd,
      (a.cb .master).cmdBuf.take (a.cb .master).cmdLen, rsp⟩).setServer (.rsp rsp mods)) w := by
  obtain ⟨k, hk, hcmd, hreq⟩ := h.server.taken hwork hhandle
  rw [← hcmd, ← hreq]
  refine h.moved hbusy (Aside.of_same rfl rfl rfl rfl rfl (fun _ => mem_cons_of_mem _) ?_) rfl ?_
  · intro x hx
    rcases mem_cons.mp hx with rfl | hx
    · exact .inr ⟨k, hk.1, rfl, rfl⟩
    · exact .inl hx
  · refine h.server.moved hwork (fun hh => absurd hh hhandle) ?_ rfl rfl rfl rfl hidle ?_
    · exact fun _ => ⟨rfl, fun _ => mem_cons_of_mem _⟩
    · rintro bytes mods' ⟨⟩
      exact ⟨k, hk, mem_cons_self⟩

theorem IpcInv.wake (hbusy : ¬ ServerQuiet l a) (hlisten : a.server = .listen)
    (hind : a.serverIndSema = true) :
    IpcInv l { a with serverIndSema := false, server := .handle, responded := false } w := by
  have hflag := (h.server.indicated hind).2
  have hidle := h.server.task_idle (by rw [hlisten]; exact nofun)
  refine h.moved hbusy (Aside.of_same rfl rfl rfl rfl rfl (fun _ => id) fun _ => .inl) rfl
    ⟨fun hne => absurd hidle hne, h.server.sends, ?_, fun _ => hflag,
      fun _ => h.server.buffer (.inl hflag), fun _ hne => absurd rfl hne, ?_, h.server.line⟩
  · rintro ⟨⟩
  · rintro bytes mods ⟨⟩

theorem IpcInv.takeUp (hbusy : ¬ ServerQuiet l a) (hhandle : a.server = .handle)
    (mods : List SvrMod) : IpcInv l { a with
      server := .dispatch mods false, serving := (a.cb .master).rxTag } w := by
  have hwork : a.server ≠ .listen := by rw [hhandle]; exact nofun
  have hidle := h.server.task_idle (by rw [hhandle]; exact nofun)
  refine h.moved hbusy (Aside.of_same rfl rfl rfl rfl rfl (fun _ => id) fun _ => .inl) rfl
    ⟨fun hne => absurd hidle hne, ?_, ?_, fun _ => h.server.flag hwork,
      fun _ => h.server.buffer (.inr hwork), fun _ _ => rfl, ?_, h.server.line⟩
  · intro k stage hk
    cases hidle.symm.trans hk
  · intro hi
    exact absurd (h.server.indicated hi).1 hwork
  · rintro bytes mods ⟨⟩

theorem IpcInv.sendRsp (hbusy : ¬ ServerQuiet l a) {bytes : List Nat} {mods : List SvrMod}
    (hrsp : a.server = .rsp bytes mods) (hwork : a.server ≠ .listen)
    (hhandle : a.server ≠ .handle) :
    IpcInv l ((a.setPc .master 0 (some (⟨ipcCallCmd + ipcRspCmdFlag, bytes, 0⟩,
      .getChnlSema))).setServer (.sending mods)) w := by
  have haside := aside_enter a .master 0 ⟨ipcCallCmd + ipcRspCmdFlag, bytes, 0⟩
  refine Aside.ipcInv { haside with } h ⟨fun _ => ⟨mods, rfl⟩, ?_, ?_, fun _ => h.server.flag hwork,
    fun _ => h.server.buffer (.inr hwork), fun _ _ => h.server.serving hwork hhandle, ?_,
    h.server.line⟩ (fun hq => absurd hq hbusy) ?_
  · intro k stage hk
    cases (setPc_pc_self a .master 0 _).symm.trans hk
    exact ⟨rfl, h.server.computed bytes mods hrsp⟩
  · intro hi
    exact absurd (h.server.indicated hi).1 hwork
  · rintro bytes' mods' ⟨⟩
  · intro c i k stage hk htask
    rcases setPc_pc_cases hk with ⟨⟨rfl, rfl⟩, -⟩ | hold
    · cases htask
    · exact h.codes.task c i k stage hold htask

theorem IpcInv.clearRx (hbusy : ¬ ServerQuiet l a) (mods : List SvrMod) (hwork : a.server ≠ .listen)
    (hhandle : a.server ≠ .handle) (hidle : a.pc .master 0 = none) :
    IpcInv l { a.setCb .master { a.cb .master with rxCmdInProcess := false } with
      server := .dispatch mods true, responded := true } w := by
  have hcb : ∀ c, SameTx (a.cb c) ((a.setCb .master
      { a.cb .master with rxCmdInProcess := false }).cb c) ∧
      ((a.setCb .master { a.cb .master with rxCmdInProcess := false }).cb c).chnlSema =
        (a.cb c).chnlSema := by
    refine MailboxFlight.forall_cpu (c := .master) ?_ ?_
    · rw [setCb_cb]
      exact ⟨⟨rfl, rfl, rfl, rfl, rfl, rfl⟩, rfl⟩
    · exact ⟨⟨rfl, rfl, rfl, rfl, rfl, rfl⟩, rfl⟩
  have haside : Aside a { a.setCb .master { a.cb .master with rxCmdInProcess := false } with
      server := .dispatch mods true, responded := true } :=
    ⟨fun c => (hcb c).1, fun c => (hcb c).2, rfl, fun _ _ _ _ => .inl, rfl, rfl,
      fun _ => id, fun _ => .inl⟩
  refine haside.ipcInv h ⟨fun hne => absurd hidle hne, h.server.sends, ?_, fun _ => rfl,
    fun _ => h.server.buffer (.inr hwork), fun _ _ => h.server.serving hwork hhandle, ?_,
    h.server.line⟩ (fun hq => absurd hq hbusy) h.codes.task
  · intro hi
    exact absurd (h.server.indicated hi).1 hwork
  · rintro bytes' mods' ⟨⟩

theorem IpcInv.runServer (hrun : runServer sv a = some a') : IpcInv l a' w := by
  have hbusy : ¬ ServerQuiet l a := runServer_busy hrun
  by_cases hlisten : a.server = .listen
  · simp only [IpcCmd.runServer, hlisten] at hrun
    obtain ⟨hind, rfl⟩ := Option.ite_some_none_eq_some.mp hrun
    exact h.wake hbusy hlisten hind
  by_cases hhandle : a.server = .handle
  · simp only [IpcCmd.runServer, hhandle] at hrun
    split at hrun
    · cases hrun
      exact h.takeUp hbusy hhandle svrDispatcher
    · cases hrun
      have hidle := h.server.task_idle (by rw [hhandle]; exact nofun)
      exact h.setServer hbusy .listen hlisten (fun _ => rfl) hidle nofun
  have hstay : ∀ server, a.pc .master 0 = none → (∀ bytes mods, server ≠ .rsp bytes mods) →
      IpcInv l (a.setServer server) w := fun server =>
    h.setServer hbusy server hlisten (fun hh => absurd hh hhandle)
  cases hserver : a.server with
  | listen => exact absurd hserver hlisten
  | handle => exact absurd hserver hhandle
  | dispatch mods =>
    have hidle := h.server.task_idle (by rw [hserver]; exact nofun)
    cases mods with
    | nil =>
      simp only [IpcCmd.runServer, hserver] at hrun
      split at hrun
      · cases hrun
        exact hstay _ hidle nofun
      · cases hrun
        exact h.respond hbusy a.svc _ [] hlisten hhandle hidle
    | cons =>
      simp only [IpcCmd.runServer, hserver] at hrun
      split at hrun
      · cases hrun
        exact hstay _ hidle nofun
      · cases hrun
        exact hstay _ hidle nofun
  | invoke e mods =>
    have hidle := h.server.task_idle (by rw [hserver]; exact nofun)
    simp only [IpcCmd.runServer, hserver] at hrun
    split at hrun
    · cases hrun
      refine h.moved hbusy (Aside.of_same rfl rfl rfl rfl rfl (fun _ => id) fun _ => .inl)
        rfl (h.server.moved hlisten (fun hh => absurd hh hhandle) (fun _ => ⟨rfl, fun _ => id⟩)
          rfl rfl rfl rfl hidle ?_)
      rintro bytes mods' ⟨⟩
    · cases hrun
      exact h.respond hbusy _ _ mods hlisten hhandle hidle
  | rsp bytes mods =>
    have hidle := h.server.task_idle (by rw [hserver]; exact nofun)
    simp only [IpcCmd.runServer, hserver] at hrun
    split at hrun
    · cases hrun
      exact h.sendRsp hbusy hserver hlisten hhandle
    · cases hrun
      exact hstay _ hidle nofun
  | sending =>
    simp only [IpcCmd.runServer, hserver] at hrun
    obtain ⟨hidle, rfl⟩ := Option.ite_some_none_eq_some.mp hrun
    exact hstay _ hidle nofun
  | clearRx mods =>
    have hidle := h.server.task_idle (by rw [hserver]; exact nofun)
    simp only [IpcCmd.runServer, hserver] at hrun
    cases hrun
    exact h.clearRx hbusy mods hlisten hhandle hidle

end

end Server

section Steps

variable {sv : Services ρ} {chn : IpcChnl} {s s' : System (m + 1) (Ipc (m + 1) ρ)}

def IpcSound (chn : IpcChnl) (s : System (m + 1) (Ipc (m + 1) ρ)) : Prop :=
  ∃ l w, Carrier s.core chn.id w ∧ LinesAt s.core chn.id l ∧ IpcInv l s.app w

theorem userOf_ipcApp (sv : Services ρ) (chn : IpcChnl) :
    UserOf (ipcApp (m := m + 1) sv chn) chn.id := by
  refine ⟨fun c ch data a hne => ?_, fun c ch data a hne => ?_⟩
  · simp only [ipcApp, if_neg hne]
  · simp only [ipcApp, if_neg hne]

theorem apart_of_beside {a : Ipc (m + 1) ρ} {e : MailboxChannel.Event (m + 1)}
    (h : Beside chn a e) : Apart chn.id e := by
  cases e with
  | write => exact h.2.2
  | _ => exact h

theorem CallsSettled.settled {l : Cpu → Line} {c : Cpu} {i : Fin (m + 1)} {call : Call}
    {stage : Stage} (h : CallsSettled chn s (.run c i)) (hl : LinesAt s.core chn.id l)
    (hpc : s.app.pc c i = some (call, stage)) (hstage : stage = .setTxCmd) : Settled l s.app c := by
  have hlines : (fun d => lineOf s.core d chn.id) = l := funext hl.lineOf_eq
  simp only [CallsSettled, hpc, hstage] at h
  rw [hlines] at h
  exact h

theorem IpcSound.mailbox {e : MailboxChannel.Event (m + 1)} (h : IpcSound chn s)
    (hapart : Apart chn.id e) (hok : StartsWaiting chn.id s.core e)
    (hstep : MailboxChannel.step (ipcApp sv chn) s e = some s') : IpcSound chn s' := by
  obtain ⟨l, w, hcarrier, hl, hinv⟩ := h
  obtain ⟨l', hl', htransit⟩ := step_transit (userOf_ipcApp sv chn) hcarrier hl hapart hok hstep
  exact ⟨l', w, hcarrier.step hapart hstep, hl', hinv.transit htransit⟩

theorem IpcSound.write {c : Cpu} {i : Fin (m + 1)} {call : Call} (h : IpcSound chn s)
    (hpc : s.app.pc c i = some (call, .write))
    (hrun : runSendCmd chn s c i call .write = some s') : IpcSound chn s' := by
  obtain ⟨l, w, hcarrier, hl, hinv⟩ := h
  have hquiet : l c = .quiet := (hinv.stages c i call .write hpc).1.1
  have hattached := hcarrier.attached c
  have hline := hl c
  rw [hquiet] at hline
  have hstate := hline.of_quiet.2.2
  simp only [runSendCmd] at hrun
  split at hrun
  · rename_i hidle
    rw [if_pos ⟨hattached.inUsed, hstate⟩, hattached.writes] at hrun
    cases hrun
    obtain ⟨hcarrier', hl'⟩ := write_underWay hcarrier hl hquiet hidle call.cmd 1 call.req.length 0
    exact ⟨_, _, hcarrier', hl', hinv.write hpc chn.id⟩
  · cases hrun

theorem step_ipcSound {e : IpcCmd.Event m} (h : IpcSound chn s) (hok : CallsSettled chn s e)
    (hstep : step sv chn s e = some s') : IpcSound chn s' := by
  cases e with
  | mailbox =>
    simp only [IpcCmd.step] at hstep
    split at hstep
    · rename_i hbeside
      exact h.mailbox (apart_of_beside hbeside) hok hstep
    · cases hstep
  | call =>
    obtain ⟨l, w, hcarrier, hl, hinv⟩ := h
    obtain ⟨hcall, rfl⟩ := Option.ite_some_none_eq_some.mp hstep
    exact ⟨l, w, hcarrier, hl, hinv.call hcall.2.2.1 hcall.2.2.2⟩
  | run =>
    simp only [IpcCmd.step] at hstep
    split at hstep
    · rename_i call stage hpc
      by_cases hwrite : stage = .write
      · rw [hwrite] at hpc hstep
        exact h.write hpc hstep
      · obtain ⟨l, w, hcarrier, hl, hinv⟩ := h
        obtain ⟨hcore, hinv'⟩ := hinv.runSendCmd hpc (hok.settled hl hpc) hwrite hstep
        rw [IpcSound, hcore]
        exact ⟨l, w, hcarrier, hl, hinv'⟩
    · cases hstep
  | timeout =>
    obtain ⟨l, w, hcarrier, hl, hinv⟩ := h
    simp only [IpcCmd.step] at hstep
    split at hstep
    · rename_i call tag hpc
      split at hstep
      · cases hstep
      · cases hstep
        exact ⟨l, w, hcarrier, hl, hinv.goto_same .leave hpc rfl trivial⟩
    · cases hstep
  | server =>
    obtain ⟨l, w, hcarrier, hl, hinv⟩ := h
    simp only [IpcCmd.step, Option.map_eq_some_iff] at hstep
    obtain ⟨a, hrun, rfl⟩ := hstep
    exact ⟨l, w, hcarrier, hl, hinv.runServer hrun⟩

theorem ipcInv_init (m : Nat) (svc : ρ) :
    IpcInv (fun _ => .quiet) (Ipc.init (m + 1) svc) fun _ => 0 := by
  refine ⟨fun _ => rfl, fun _ => ⟨?_, ?_⟩, ?_, fun _ => trivial, ?_, ⟨?_, ?_⟩, ?_, ?_⟩
  · rintro i j ⟨⟩
  · rintro i ⟨⟩
  · rintro c i call stage ⟨⟩
  · refine ⟨fun hne => absurd rfl hne, ?_, ?_, fun hne => absurd rfl hne, ?_,
      fun hne => absurd rfl hne, ?_, ?_⟩
    · rintro k stage ⟨⟩
    · rintro ⟨⟩
    · rintro (hflag | hne)
      · cases hflag
      · exact absurd rfl hne
    · rintro bytes mods ⟨⟩
    · rintro d ⟨⟩
  · rintro c i k stage ⟨⟩
  · rintro k ⟨⟩
  · rintro x ⟨⟩
  · rintro r ⟨⟩

theorem ipcChnlInit_eq (m : Nat) (ch : Chnl) :
    ipcChnlInit m ch = (Core.init (m + 1)).setLog ch ⟨.idle, true, true, true, .zero, 0⟩ := by
  simp only [ipcChnlInit, mbChnlOpen, mbChnlSetRxIsr, mbChnlSetTxCmplIsr, Core.init,
    Core.setLog, update_self, update_idem, Bool.false_eq_true, if_false, if_true]

theorem ipcSound_start (m : Nat) (chn : IpcChnl) (svc : ρ) : IpcSound chn (start m chn svc) := by
  refine ⟨fun _ => .quiet, fun _ => 0, ⟨?_, ?_, ?_⟩, ?_, ipcInv_init m svc⟩
  · simp only [start, ipcChnlInit_eq]
    have hinit := ackInv_init (n := m + 1)
    refine ⟨fun c => ?_, fun c => ?_, fun c => ?_, hinit.no_fault⟩
    · obtain ⟨hcmd, hack, hpoll, hwrite⟩ := hinit.wired c
      exact ⟨hcmd, hack, hpoll, hwrite⟩
    · obtain ⟨hwindow, hwritten⟩ := hinit.windows c
      exact ⟨hwindow, hwritten⟩
    · obtain ⟨hcount, hmatch⟩ := hinit.outstanding c
      exact ⟨hcount, hmatch⟩
  · simp only [start, ipcChnlInit_eq]
    exact fun c => ⟨fun _ => rfl, rfl, rfl, nofun⟩
  · intro c
    simp only [start, ipcChnlInit_eq, Core.setLog, update_self]
    exact ⟨rfl, rfl, rfl, rfl⟩
  · intro c
    simp only [start, ipcChnlInit_eq]
    refine .quiet ?_ ?_
    · rintro j ⟨⟩
    · simp only [Core.setLog, update_self]

theorem reached_ipcSound {svc : ρ}
    (h : Reached (IpcCmd.step sv chn) (CallsSettled chn) (start m chn svc) s) : IpcSound chn s :=
  h.invariant (IpcSound chn) (ipcSound_start m chn svc) fun _ _ _ hinv hok hstep =>
    step_ipcSound hinv hok hstep

end Steps

/-- Whenever `ipc_send_cmd` has returned `BK_OK`, what it copied out is the response
that the peer produced for this very command. -/
theorem reached_returns_answered (sv : Services ρ) (chn : IpcChnl) (svc : ρ)
    {s : System (m + 1) (Ipc (m + 1) ρ)}
    (h : Reached (IpcCmd.step sv chn) (CallsSettled chn) (start m chn svc) s) :
    ∀ r ∈ s.app.returns, Answered s.app.answers r := by
  obtain ⟨l, w, -, -, hinv⟩ := reached_ipcSound h
  exact hinv.returns

section Examples

def testCall (n : Nat) : Call := ⟨ipcTestCmd, [n, 0, 0, 0], 4⟩

def rpcCall (n : Nat) : Call := ⟨ipcCallCmd, [0, n, 0, 0], 8⟩

def sends (c : Cpu) : List (IpcCmd.Event 0) :=
  replicate 6 (.run c 0) ++ replicate 3 (.mailbox (.run c 0)) ++ [.run c 0]

def carried (c : Cpu) : List (IpcCmd.Event 0) :=
  [.mailbox (.receive c.other), .mailbox (.handle c.other), .mailbox (.receive c),
    .mailbox (.handle c)]

def settledCalls : List (IpcCmd.Event 0) :=
  [.call .slave 0 (testCall 5)] ++ sends .slave ++ carried .slave ++ replicate 6 (.run .slave 0) ++
    [.call .slave 0 (rpcCall 7)] ++ sends .slave ++ carried .slave ++
    replicate 5 .server ++ sends .master ++ carried .master ++
    replicate 5 (.run .master 0) ++ replicate 4 .server ++
    replicate 6 (.run .slave 0)

def lateAcknowledge : List (IpcCmd.Event 0) :=
  [.call .slave 0 (testCall 5)] ++ sends .slave ++
    [.timeout .slave 0, .run .slave 0, .run .slave 0, .call .slave 0 (testCall 10)] ++
    replicate 4 (.run .slave 0) ++ carried .slave ++
    replicate 2 (.run .slave 0) ++ replicate 3 (.mailbox (.run .slave 0)) ++
    replicate 5 (.run .slave 0)

def callDuringCall : List (IpcCmd.Event 0) :=
  [.call .slave 0 (rpcCall 7)] ++ sends .slave ++ carried .slave ++ [.server, .server] ++
    [.timeout .slave 0, .run .slave 0, .run .slave 0, .call .slave 0 (rpcCall 9)] ++
    sends .slave ++ carried .slave ++ [.server, .server]

end Examples

theorem reached_returns_answered_settled :
    ∃ s, Reached (IpcCmd.step Services.plain .rpc) (CallsSettled .rpc) (start 0 .rpc ()) s ∧
      s.app.returns = [⟨.slave, 1, rpcCall 7, some [0, 7, 0, 0, 0, 0, 0, 0]⟩,
        ⟨.master, 0, ⟨ipcCallCmd + ipcRspCmdFlag, [0, 7, 0, 0, 0, 0, 0, 0], 0⟩, none⟩,
        ⟨.slave, 0, testCall 5, some [6, 0, 0, 0]⟩] ∧
      ∀ r ∈ s.app.returns, Answered s.app.answers r :=
  exists_reached_and (fun _ => reached_returns_answered Services.plain .rpc ()) settledCalls
    (by decide)

theorem late_acknowledge_answers_next :
    ¬ ∀ s, Reached (IpcCmd.step Services.plain .hwCtrl) anyStep (start 0 .hwCtrl ()) s →
      ∀ r ∈ s.app.returns, Answered s.app.answers r := by
  intro hall
  obtain ⟨s, hs, hreturn, hanswers⟩ := exists_reached (IpcCmd.step Services.plain .hwCtrl) anyStep
    (start 0 .hwCtrl ())
    (fun s => ⟨.slave, 1, testCall 10, some [6, 0, 0, 0]⟩ ∈ s.app.returns ∧
      s.app.answers = [⟨.slave, 0, ipcTestCmd, [5, 0, 0, 0], [6, 0, 0, 0]⟩])
    lateAcknowledge (by decide)
  obtain ⟨rsp, hmem, -⟩ := hall s hs _ hreturn
  rw [hanswers, mem_singleton] at hmem
  cases hmem

structure ServerSound (a : Ipc (m + 1) ρ) : Prop where
  computed : ∀ x ∈ a.answers, x.caller = .slave →
    ∃ k, (a.calls .slave)[x.tag]? = some k ∧ x.cmd = k.cmd ∧ x.req = k.req
  sent : ∀ rsp stage, a.pc .master 0 = some (rsp, stage) →
    ∃ k, (a.calls .slave)[a.serving]? = some k ∧
      (⟨.slave, a.serving, k.cmd, k.req, rsp.req⟩ : Answer) ∈ a.answers
  buffer : a.server ≠ .listen → a.server ≠ .handle → a.responded = false →
    (a.cb .master).rxTag = a.serving ∧ ∃ k, (a.calls .slave)[a.serving]? = some k ∧
        (a.cb .master).cmdBuf.take (a.cb .master).cmdLen = k.req
  woken : a.serverIndSema = true → (a.cb .master).rxCmdInProcess = true
  flag : a.server ≠ .listen → a.responded = false → (a.cb .master).rxCmdInProcess = true

/-- The server computes each answer from the call it was woken for, and sends it to that call. -/
theorem reached_serverSound (sv : Services ρ) (chn : IpcChnl) (svc : ρ)
    {s : System (m + 1) (Ipc (m + 1) ρ)}
    (h : Reached (IpcCmd.step sv chn) (CallsSettled chn) (start m chn svc) s) :
    ServerSound s.app := by
  obtain ⟨l, w, -, -, hinv⟩ := reached_ipcSound h
  have hserver := hinv.server
  refine ⟨?_, ?_, ?_, fun hind => (hserver.indicated hind).2, ?_⟩
  · intro x hx hcaller
    rw [← hcaller]
    exact hinv.answers x hx
  · intro rsp stage hrsp
    obtain ⟨-, k, hk, hmem⟩ := hserver.sends rsp stage hrsp
    exact ⟨k, hk.1, hmem⟩
  · intro hwork hhandle _
    obtain ⟨k, hk, -, hreq⟩ := hserver.taken hwork hhandle
    exact ⟨(hserver.serving hwork hhandle).symm, k, hk.1, hreq.symm⟩
  · intro hwork hresponded
    rw [hserver.flag hwork, hresponded]
    rfl

theorem reached_serverSound_settled :
    ∃ s, Reached (IpcCmd.step Services.plain .rpc) (CallsSettled .rpc) (start 0 .rpc ()) s ∧
      s.app.answers.head? = some ⟨.slave, 1, ipcCallCmd, [0, 7, 0, 0], [0, 7, 0, 0, 0, 0, 0, 0]⟩ ∧
      ServerSound s.app :=
  exists_reached_and (fun _ => reached_serverSound Services.plain .rpc ()) (settledCalls.take 41)
    (by decide)

theorem call_overwrites_call :
    ¬ ∀ s, Reached (IpcCmd.step Services.plain .rpc) anyStep (start 0 .rpc ()) s →
      ServerSound s.app := by
  intro hall
  obtain ⟨s, hs, hcalls, hanswer⟩ := exists_reached (IpcCmd.step Services.plain .rpc) anyStep
    (start 0 .rpc ()) (fun s => s.app.calls .slave = [rpcCall 7, rpcCall 9] ∧
      ⟨.slave, 0, ipcCallCmd, [0, 9, 0, 0], [0, 9, 0, 0, 0, 0, 0, 0]⟩ ∈ s.app.answers)
    callDuringCall (by decide)
  obtain ⟨k, hk, -, hreq⟩ := (hall s hs).computed _ hanswer rfl
  rw [hcalls] at hk
  cases hk
  cases hreq

end BekenSoc.IpcExchange
