import BekenSoc.IpcExchangeCallbacks

namespace BekenSoc.IpcExchange

open Function CRuntime DualCore MailboxChannel MailboxLine IpcCmd

variable {m : Nat} {ρ : Type}
variable {cb : ChnlCb} {old stage : Stage} {call : Call}

structure OwnStep (a a' : Ipc (m + 1) ρ) (c : Cpu) : Prop where
  cbOther : a'.cb c.other = a.cb c.other
  rx : SameRx (a.cb c) (a'.cb c)
  xchgOther : a'.xchg c.other = a.xchg c.other
  pc : a'.pc = a.pc
  server : a'.server = a.server
  serverIndSema : a'.serverIndSema = a.serverIndSema
  serving : a'.serving = a.serving
  responded : a'.responded = a.responded
  calls : a'.calls = a.calls
  answers : a'.answers = a.answers

namespace OwnStep

variable {l : Cpu → Line} {a a' : Ipc (m + 1) ρ} {c : Cpu}

theorem setCb (h : SameRx (a.cb c) cb) : OwnStep a (a.setCb c cb) c := by
  refine ⟨update_other _ _ _, ?_, rfl, rfl, rfl, rfl, rfl, rfl, rfl, rfl⟩
  rw [setCb_cb]
  exact h

theorem setXchg (a : Ipc (m + 1) ρ) (c : Cpu) (buff : List Nat) : OwnStep a (a.setXchg c buff) c :=
  ⟨rfl, SameRx.refl _, update_other _ _ _, rfl, rfl, rfl, rfl, rfl, rfl, rfl⟩

theorem noteReturn (a : Ipc (m + 1) ρ) (c : Cpu) (r : Return) :
    OwnStep a { a with returns := r :: a.returns } c :=
  ⟨rfl, SameRx.refl _, rfl, rfl, rfl, rfl, rfl, rfl, rfl, rfl⟩

theorem later (h : OwnStep a a' c) (d : Cpu) : Later a a' d := by
  refine ⟨by rw [h.calls], fun x hx => ?_⟩
  rw [h.answers]
  exact hx

theorem sameRx_master (h : OwnStep a a' c) : SameRx (a.cb .master) (a'.cb .master) := by
  by_cases hc : Cpu.master = c
  · rw [hc]
    exact h.rx
  · rw [eq_other_of_ne hc, h.cbOther]
    exact SameRx.refl _

theorem serverQuiet (h : OwnStep a a' c) (hq : ServerQuiet l a) : ServerQuiet l a' :=
  hq.later h.server h.serverIndSema h.sameRx_master fun _ => rfl

end OwnStep

section Tasks

variable {l : Cpu → Line} {a a' : Ipc (m + 1) ρ} {w : Cpu → Nat} {c : Cpu}
  {i : Fin (m + 1)} {pc : Option (Call × Stage)}

theorem setPc_pc_self (a : Ipc (m + 1) ρ) (c : Cpu) (i : Fin (m + 1))
    (pc : Option (Call × Stage)) : (a.setPc c i pc).pc c i = pc := by
  simp only [Ipc.setPc, update_self]

theorem setPc_pc_of_ne (a : Ipc (m + 1) ρ) (c : Cpu) {i j : Fin (m + 1)} (hj : j ≠ i)
    (pc : Option (Call × Stage)) : (a.setPc c i pc).pc c j = a.pc c j := by
  simp only [Ipc.setPc, update_self, update_of_ne hj]

theorem setPc_pc_other (a : Ipc (m + 1) ρ) (c : Cpu) (i j : Fin (m + 1))
    (pc : Option (Call × Stage)) : (a.setPc c i pc).pc c.other j = a.pc c.other j := by
  simp only [Ipc.setPc, update_other]

theorem setPc_pc_cases {d : Cpu} {j : Fin (m + 1)} {k : Call}
    (h : (a.setPc c i pc).pc d j = some (k, stage)) :
    (d = c ∧ j = i) ∧ pc = some (k, stage) ∨ a.pc d j = some (k, stage) := by
  by_cases hd : d = c
  · rw [hd] at h ⊢
    by_cases hj : j = i
    · rw [hj, setPc_pc_self] at h
      exact .inl ⟨⟨rfl, hj⟩, h⟩
    · rw [setPc_pc_of_ne a c hj] at h
      exact .inr h
  · rw [eq_other_of_ne hd] at h ⊢
    rw [setPc_pc_other] at h
    exact .inr h

theorem stageInv_of_not_holds (h : holds (some (call, stage)) = false) :
    StageInv l a c call stage := by
  cases stage with
  | getChnlSema => trivial
  | _ => cases h

theorem IpcInv.own (h : IpcInv l a w) (hown : OwnStep a a' c)
    (hrest : ∀ j, j ≠ i → holds (a.pc c j) = false)
    (hcall : ∀ k stage, pc = some (k, stage) → ∃ stage', a.pc c i = some (k, stage'))
    (hsema : holds pc = true → (a'.cb c).chnlSema = false)
    (hxchg : a'.xchg c = a.xchg c ∨ l c = .quiet)
    (hreturns : ∀ r ∈ a'.returns, Answered a.answers r)
    (hstage : ∀ k stage, pc = some (k, stage) → StageInv l a' c k stage) :
    IpcInv l (a'.setPc c i pc) w := by
  have hpc : ∀ j, j ≠ i → (a'.setPc c i pc).pc c j = a.pc c j := fun j hj => by
    rw [setPc_pc_of_ne a' c hj, hown.pc]
  have hother : ∀ j, (a'.setPc c i pc).pc c.other j = a.pc c.other j := fun j => by
    rw [setPc_pc_other, hown.pc]
  have hi : ∀ j, holds ((a'.setPc c i pc).pc c j) = true → j = i := by
    intro j hj
    by_contra hne
    rw [hpc j hne, hrest j hne] at hj
    cases hj
  have hcalled : ∀ d j k stage, (a'.setPc c i pc).pc d j = some (k, stage) →
      ∃ stage', a.pc d j = some (k, stage') := by
    intro d j k stage hj
    rcases setPc_pc_cases hj with ⟨⟨rfl, rfl⟩, hnew⟩ | hold
    · exact hcall k stage hnew
    · exact ⟨stage, hown.pc ▸ hold⟩
  have hlater : ∀ d, Later a (a'.setPc c i pc) d := fun d =>
    ⟨(hown.later d).calls, (hown.later d).answers⟩
  refine ⟨?_, ?_, ?_, ?_, ?_, ⟨?_, ?_⟩, ?_, ?_⟩
  · intro d
    exact (congrArg (fun f => (f d).length) hown.calls).trans (h.counted d)
  · refine MailboxFlight.forall_cpu (c := c) ⟨?_, ?_⟩ ⟨?_, ?_⟩
    · intro j j' hj hj'
      rw [hi j hj, hi j' hj']
    · intro j hj
      rw [hi j hj, setPc_pc_self] at hj
      exact hsema hj
    · intro j j' hj hj'
      rw [hother] at hj hj'
      exact (h.tasks c.other).exclusive j j' hj hj'
    · intro j hj
      rw [hother] at hj
      exact (congrArg ChnlCb.chnlSema hown.cbOther).trans ((h.tasks c.other).taken j hj)
  · refine MailboxFlight.forall_cpu (c := c) ?_ ?_
    · intro j call stage hj
      by_cases hji : j = i
      · rw [hji, setPc_pc_self] at hj
        exact hstage call stage hj
      · rw [hpc j hji] at hj
        have hno := hrest j hji
        rw [hj] at hno
        exact stageInv_of_not_holds hno
    · intro j call stage hj
      rw [hother] at hj
      refine (h.stages c.other j call stage hj).later (hlater _) ?_ ?_
      · have hcb : (a'.setPc c i pc).cb c.other = a.cb c.other := hown.cbOther
        rw [hcb]
        exact SameTx.refl _
      · rintro ⟨hquiet, hsem, hq⟩
        refine ⟨⟨hquiet, ?_, fun hc => hown.serverQuiet (hq hc)⟩, hown.xchgOther⟩
        exact (congrArg ChnlCb.rspSema hown.cbOther).trans hsem
  · refine MailboxFlight.forall_cpu (c := c) ?_ ?_
    · rcases hxchg with hsame | hquiet
      · exact (h.lines c).later (hlater _) rfl hsame fun _ hq => hown.serverQuiet hq
      · unfold LineInv
        rw [hquiet]
        trivial
    · exact (h.lines c.other).later (hlater _) rfl hown.xchgOther fun _ hq => hown.serverQuiet hq
  · refine h.server.later hlater hown.server hown.serverIndSema hown.serving hown.responded
      ?_ hown.sameRx_master fun _ => rfl
    exact fun k stage => hcalled .master 0 k stage
  · intro d j k stage hj hserver
    obtain ⟨stage', hold⟩ := hcalled d j k stage hj
    exact h.codes.task d j k stage' hold hserver
  · exact fun k hk => h.codes.slave k (hown.calls ▸ hk)
  · intro x hx
    have hx' : x ∈ a.answers := hown.answers ▸ hx
    obtain ⟨k, hk, hrest'⟩ := h.answers x hx'
    exact ⟨k, (congrArg (fun f => (f x.caller)[x.tag]?) hown.calls).trans hk, hrest'⟩
  · exact fun r hr => (hreturns r hr).mono (hlater c).answers

theorem OwnStep.settled (h : OwnStep a a' c)
    (hsema : (a'.cb c).rspSema = (a.cb c).rspSema) (hs : Settled l a c) : Settled l a' c :=
  ⟨hs.1, hsema.trans hs.2.1, fun hc => h.serverQuiet (hs.2.2 hc)⟩

section

variable (h : IpcInv l a w)
include h

theorem IpcInv.rest {pc : Option (Call × Stage)} (hpc : a.pc c i = pc) (hold : holds pc = true)
    (j : Fin (m + 1)) (hj : j ≠ i) : holds (a.pc c j) = false := by
  cases hholds : holds (a.pc c j) with
  | false => rfl
  | true => exact absurd ((h.tasks c).exclusive j i hholds (by rw [hpc]; exact hold)) hj

theorem IpcInv.goto (stage : Stage) (hpc : a.pc c i = some (call, old))
    (hrest : ∀ j, j ≠ i → holds (a.pc c j) = false) (hrx : SameRx (a.cb c) cb)
    (hsema : cb.chnlSema = false) (hstage : StageInv l (a.setCb c cb) c call stage) :
    IpcInv l ((a.setCb c cb).setPc c i (some (call, stage))) w := by
  refine h.own (OwnStep.setCb hrx) hrest ?_ ?_ (.inl rfl) h.returns ?_
  · rintro k stage' ⟨⟩
    exact ⟨old, hpc⟩
  · intro _
    rw [setCb_cb]
    exact hsema
  · rintro k stage' ⟨⟩
    exact hstage

theorem IpcInv.goto_same (stage : Stage) (hpc : a.pc c i = some (call, old))
    (hold : holds (some (call, old)) = true) (hstage : StageInv l a c call stage) :
    IpcInv l (a.setPc c i (some (call, stage))) w := by
  have hsame := h.goto stage hpc (h.rest hpc hold) (SameRx.refl (a.cb c))
    ((h.tasks c).taken i (by rw [hpc]; exact hold)) (by rw [setCb_self]; exact hstage)
  rw [setCb_self] at hsame
  exact hsame

theorem IpcInv.goto_return (hpc : a.pc c i = some (call, old))
    (hold : holds (some (call, old)) = true) {r : Return} (hr : Answered a.answers r) :
    IpcInv l ({ a with returns := r :: a.returns }.setPc c i (some (call, .leave))) w := by
  refine h.own (OwnStep.noteReturn a c r) (h.rest hpc hold) ?_ ?_ (.inl rfl) ?_ ?_
  · rintro k stage ⟨⟩
    exact ⟨old, hpc⟩
  · exact fun _ => (h.tasks c).taken i (by rw [hpc]; exact hold)
  · intro r' hr'
    rcases List.mem_cons.mp hr' with rfl | hr'
    · exact hr
    · exact h.returns r' hr'
  · rintro k stage ⟨⟩
    trivial

theorem IpcInv.nobody (hfree : (a.cb c).chnlSema = true) (j : Fin (m + 1)) :
    holds (a.pc c j) = false := by
  cases hholds : holds (a.pc c j) with
  | false => rfl
  | true => exact absurd (hfree.symm.trans ((h.tasks c).taken j hholds)) (by decide)

end

def accepted (a : Ipc (m + 1) ρ) (c : Cpu) (call : Call) : Ipc (m + 1) ρ :=
  { a with calls := update a.calls c (a.calls c ++ [call]) }

theorem accepted_calls (a : Ipc (m + 1) ρ) (c : Cpu) (call : Call) :
    (accepted a c call).calls c = a.calls c ++ [call] :=
  update_self _ _ _

theorem later_accepted (a : Ipc (m + 1) ρ) (c : Cpu) (call : Call) :
    Later a (accepted a c call) c.other :=
  ⟨update_other _ _ _, fun _ => id⟩

theorem latest_accepted (h : IpcInv l a w) (call : Call) :
    Latest (accepted a c call) c (w c) call := by
  unfold Latest
  rw [accepted_calls, ← h.counted c]
  exact ⟨List.getElem?_concat_length, by simp⟩

theorem getElem?_accepted {d : Cpu} {tag : Nat} {k : Call} (call : Call)
    (h : (a.calls d)[tag]? = some k) : ((accepted a c call).calls d)[tag]? = some k := by
  by_cases hd : d = c
  · rw [hd] at h ⊢
    rw [accepted_calls, List.getElem?_append_left (List.getElem?_eq_some_iff.mp h).1]
    exact h
  · rw [eq_other_of_ne hd] at h ⊢
    rw [(later_accepted a c call).calls]
    exact h

theorem ServerInv.quiet {l' : Cpu → Line} (h : ServerInv l a) (hq : ServerQuiet l a)
    (hserver : a'.server = a.server) (hind : a'.serverIndSema = a.serverIndSema)
    (hcb : a'.cb .master = a.cb .master) (hpc : a'.pc = a.pc)
    (hline : l' .master = l .master) : ServerInv l' a' := by
  obtain ⟨hlisten, hi, hflag, hrsp⟩ := hq
  have hlisten' : a'.server = .listen := hserver.trans hlisten
  have hnone := h.task_idle (by rw [hlisten]; exact nofun)
  refine ⟨?_, ?_, ?_, fun hne => absurd hlisten' hne, ?_, fun hne => absurd hlisten' hne, ?_, ?_⟩
  · rw [hpc]
    exact fun hne => absurd hnone hne
  · rw [hpc, hnone]
    rintro k stage ⟨⟩
  · rw [hind, hi]
    rintro ⟨⟩
  · rw [hcb, hflag]
    rintro (hf | hne)
    · cases hf
    · exact absurd hlisten' hne
  · rw [hlisten']
    rintro bytes mods ⟨⟩
  · intro d hd hd'
    rw [hline] at hd
    rw [hd] at hrsp
    exact absurd (hd'.symm.trans hrsp) (by decide)

theorem IpcInv.accept (h : IpcInv l a w) (hpc : a.pc c i = some (call, stage))
    (hrest : ∀ j, holds (a.pc c j) = true → j = i)
    (htrivial : ∀ l a, StageInv (m := m + 1) (ρ := ρ) l a c call stage) (hs : Settled l a c)
    (hfits : call.req.length ≤ ipcXchgDataMax) (hdata : (a.xchg c).take call.req.length = call.req)
    (ch : Chnl) : IpcInv (update l c (.underWay (request
        (written ch call.cmd 1 call.req.length 0 (w c))))) (accepted a c call)
      (update w c (w c + 1)) := by
  generalize hd : request (written ch call.cmd 1 call.req.length 0 (w c)) = d
  have hcmd : d.hdr.cmd = call.cmd := by rw [← hd]; rfl
  have htag : d.tag = w c := by rw [← hd]; rfl
  have hcarried : Carried (accepted a c call) c d call := by
    refine ⟨htag ▸ latest_accepted h call, hcmd, ?_, ?_, ?_, hfits, hdata⟩
    all_goals
      rw [← hd]
      rfl
  -- a response on the line comes from the server, which is then not quiet
  have hserver : isRsp call.cmd = true → c = .master → a.pc .master 0 = some (call, stage) := by
    intro hrsp hc
    by_cases hi : isServerTask c i = true
    · obtain ⟨-, hi⟩ := of_decide_eq_true hi
      rw [hc, hi] at hpc
      exact hpc
    · have hcode := h.codes.task c i call stage hpc (Bool.eq_false_of_not_eq_true hi)
      exact absurd hrsp (not_isRsp hcode)
  have hquiet : ServerQuiet l a → ServerQuiet (update l c (.underWay d)) (accepted a c call) := by
    intro hq
    refine hq.later rfl rfl (SameRx.refl _) ?_
    by_cases hc : Cpu.master = c
    · intro hrsp
      rw [← hc, update_self] at hrsp
      have hrsp' : isRsp call.cmd = true := hcmd ▸ hrsp
      obtain ⟨mods, hsending⟩ := h.server.idle (by
        rw [hserver hrsp' hc.symm]
        exact Option.some_ne_none _)
      rw [hq.1] at hsending
      cases hsending
    · exact fun _ => update_of_ne hc _ _
  refine ⟨?_, ?_, ?_, ?_, ?_, ⟨h.codes.task, ?_⟩, ?_, h.returns⟩
  · refine MailboxFlight.forall_cpu (c := c) ?_ ?_
    · rw [accepted_calls, update_self, List.length_append, h.counted c]
      rfl
    · rw [(later_accepted a c call).calls, update_other]
      exact h.counted c.other
  · exact fun d => ⟨(h.tasks d).exclusive, (h.tasks d).taken⟩
  · refine MailboxFlight.forall_cpu (c := c) ?_ ?_
    · intro j k stage' hj
      cases hholds : holds (some (k, stage')) with
      | false => exact stageInv_of_not_holds hholds
      | true =>
        have hj' : a.pc c j = some (k, stage') := hj
        have hji := hrest j (by rw [hj']; exact hholds)
        rw [hji, hpc] at hj'
        cases hj'
        exact htrivial _ _
    · intro j k stage' hj
      refine (h.stages c.other j k stage' hj).later (later_accepted a c call) (SameTx.refl _) ?_
      rintro ⟨hl, hsem, hq⟩
      refine ⟨⟨?_, hsem, fun hc => hquiet (hq hc)⟩, rfl⟩
      rw [update_other]
      exact hl
  · refine MailboxFlight.forall_cpu (c := c) ?_ ?_
    · unfold LineInv
      rw [update_self]
      exact ⟨⟨call, hcarried⟩, fun hc => hquiet (hs.2.2 hc)⟩
    · exact (h.lines c.other).later (later_accepted a c call) (update_other _ _ _) rfl
        fun _ => hquiet
  · cases c with
    | slave => exact h.server.quiet (hs.2.2 rfl) rfl rfl rfl rfl (update_of_ne (by decide) _ _)
    | master =>
      have hl : Later a (accepted a .master call) .slave := later_accepted a .master call
      refine ⟨h.server.idle, ?_, h.server.indicated, h.server.flag, ?_, h.server.serving, ?_, ?_⟩
      · intro k stage' hk
        exact ⟨(h.server.sends k stage' hk).1, (h.server.sends k stage' hk).2.later hl⟩
      · intro hwork
        obtain ⟨k, hk, hrest'⟩ := h.server.buffer hwork
        exact ⟨k, hk.later hl, hrest'⟩
      · exact fun bytes mods hrsp => (h.server.computed bytes mods hrsp).later hl
      · intro d' hd' hrsp
        rw [update_self] at hd'
        cases hd'
        have hown := hserver (hcmd ▸ hrsp) rfl
        exact ⟨call, _, htag ▸ latest_accepted h call, (h.server.sends call stage hown).2.later hl⟩
  · intro k hk
    cases c with
    | master =>
      have hsame : (accepted a .master call).calls .slave = a.calls .slave :=
        (later_accepted a .master call).calls
      rw [hsame] at hk
      exact h.codes.slave k hk
    | slave =>
      rw [accepted_calls, List.mem_append, List.mem_singleton] at hk
      rcases hk with hk | rfl
      · exact h.codes.slave k hk
      · exact h.codes.task .slave i k stage hpc (by simp [isServerTask])
  · intro x hx
    obtain ⟨k, hk, hrest'⟩ := h.answers x hx
    exact ⟨k, getElem?_accepted call hk, hrest'⟩

theorem IpcInv.write (h : IpcInv l a w) (hpc : a.pc c i = some (call, .write)) (ch : Chnl) :
    IpcInv (update l c (.underWay (request (written ch call.cmd 1 call.req.length 0 (w c)))))
      ((accepted a c call).setPc c i (some (call, .writing (w c)))) (update w c (w c + 1)) := by
  obtain ⟨hs, ⟨hcmd, hprocess⟩, hfits, hdata⟩ := h.stages c i call .write hpc
  have hrest := h.rest hpc rfl
  -- the stages in between say nothing about the call
  have hleave := h.goto_same .leave hpc rfl trivial
  have hself := setPc_pc_self a c i (some (call, .leave))
  have hholder : ∀ j, holds ((a.setPc c i (some (call, .leave))).pc c j) = true → j = i := by
    intro j hj
    by_contra hji
    rw [setPc_pc_of_ne a c hji, hrest j hji] at hj
    cases hj
  have haccept := hleave.accept hself hholder (fun _ _ => trivial) hs hfits hdata ch
  have hwriting := haccept.goto_same (.writing (w c)) hself rfl
    ⟨latest_accepted hleave call, hcmd, .inl ⟨hprocess, hs.2.1⟩⟩
  simp only [accepted, Ipc.setPc, update_idem, update_self] at hwriting ⊢
  exact hwriting

theorem IpcInv.store (h : IpcInv l a w) (stage : Stage) (hpc : a.pc c i = some (call, old))
    (hold : holds (some (call, old)) = true) (hrx : SameRx (a.cb c) cb)
    (hsema : cb.chnlSema = (a.cb c).chnlSema) (hstage : StageInv l (a.setCb c cb) c call stage) :
    IpcInv l ((a.setCb c cb).setPc c i (some (call, stage))) w :=
  h.goto stage hpc (h.rest hpc hold) hrx
    (hsema.trans ((h.tasks c).taken i (by rw [hpc]; exact hold))) hstage

theorem Settled.setCb (h : Settled l a c) (hrx : SameRx (a.cb c) cb)
    (hrsp : cb.rspSema = (a.cb c).rspSema) : Settled l (a.setCb c cb) c :=
  (OwnStep.setCb hrx).settled (by rw [setCb_cb]; exact hrsp) h

end Tasks

section Run

variable {chn : IpcChnl} {s s' : System (m + 1) (Ipc (m + 1) ρ)} {l : Cpu → Line}
  {w : Cpu → Nat} {c : Cpu} {i : Fin (m + 1)} {call : Call} {stage : Stage}

theorem IpcInv.runSendCmd (h : IpcInv l s.app w) (hpc : s.app.pc c i = some (call, stage))
    (hok : stage = .setTxCmd → Settled l s.app c) (hwrite : stage ≠ .write)
    (hrun : runSendCmd chn s c i call stage = some s') : s'.core = s.core ∧ IpcInv l s'.app w := by
  have hstage := h.stages c i call stage hpc
  have hrx : ∀ {sema rsp process failed cmd}, SameRx (s.app.cb c) { s.app.cb c with
      chnlSema := sema, rspSema := rsp, txCmdInProcess := process, txCmdFailed := failed,
      txCmd := cmd } := ⟨rfl, rfl, rfl, rfl, rfl⟩
  cases stage with
  | getChnlSema =>
    obtain ⟨hfree, rfl⟩ := Option.ite_some_none_eq_some.mp hrun
    exact ⟨rfl, h.goto .setTxCmd hpc (fun j _ => h.nobody hfree j) hrx rfl trivial⟩
  | setTxCmd =>
    cases hrun
    refine ⟨rfl, h.store .setTxCmdFailed hpc rfl hrx rfl ⟨(hok rfl).setCb hrx rfl, ?_⟩⟩
    rw [setCb_cb]
  | setTxCmdFailed =>
    cases hrun
    refine ⟨rfl, h.store .setTxCmdInProcess hpc rfl hrx rfl ⟨hstage.1.setCb hrx rfl, ?_⟩⟩
    rw [setCb_cb]
    exact hstage.2
  | setTxCmdInProcess =>
    cases hrun
    refine ⟨rfl, h.store .copyCmd hpc rfl hrx rfl ⟨hstage.1.setCb hrx rfl, ?_⟩⟩
    rw [setCb_cb]
    exact ⟨hstage.2, rfl⟩
  | copyCmd =>
    simp only [IpcCmd.runSendCmd] at hrun
    split at hrun
    · cases hrun
      exact ⟨rfl, h.goto_same .leave hpc rfl trivial⟩
    · rename_i hfits
      cases hrun
      obtain ⟨hs, hcmd⟩ := hstage
      refine ⟨rfl, h.own (OwnStep.setXchg _ _ _) (h.rest hpc rfl) ?_ ?_ (.inr hs.1) h.returns ?_⟩
      · rintro k stage' ⟨⟩
        exact ⟨.copyCmd, hpc⟩
      · exact fun _ => (h.tasks c).taken i (by rw [hpc]; rfl)
      · rintro k stage' ⟨⟩
        refine ⟨(OwnStep.setXchg _ _ _).settled rfl hs, hcmd, by omega, ?_⟩
        simp only [Ipc.setXchg, update_self]
        rw [take_memcpy _ _ (le_refl _), List.take_length]
  | write => exact absurd rfl hwrite
  | writing tag =>
    obtain ⟨-, rfl⟩ := Option.ite_some_none_eq_some.mp hrun
    exact ⟨rfl, h.goto_same (.getRspSema tag) hpc rfl hstage⟩
  | getRspSema tag =>
    obtain ⟨htoken, rfl⟩ := Option.ite_some_none_eq_some.mp hrun
    refine ⟨rfl, h.store (.clearInProcess tag) hpc rfl hrx rfl ?_⟩
    obtain ⟨-, -, ⟨-, hno⟩ | ⟨hoff, hend⟩⟩ := hstage
    · exact absurd (htoken.symm.trans hno) (by decide)
    · unfold StageInv Delivered
      rw [setCb_cb]
      exact ⟨hoff, hend⟩
  | clearInProcess tag =>
    cases hrun
    refine ⟨rfl, h.store (.checkFailed tag) hpc rfl hrx rfl ?_⟩
    unfold StageInv Delivered
    rw [setCb_cb]
    exact ⟨rfl, hstage.2⟩
  | checkFailed tag =>
    simp only [IpcCmd.runSendCmd] at hrun
    split at hrun
    · cases hrun
      exact ⟨rfl, h.goto_same .leave hpc rfl trivial⟩
    · rename_i hfailed
      split at hrun
      · cases hrun
        refine ⟨rfl, h.goto_return hpc rfl ?_⟩
        rcases hstage.2 with hbad | hmem
        · exact absurd hbad hfailed
        · exact ⟨_, hmem, fun out hout => by cases hout⟩
      · cases hrun
        exact ⟨rfl, h.goto_same (.copyRsp tag) hpc rfl
          ⟨hstage.1, hstage.2, Bool.eq_false_of_not_eq_true hfailed⟩⟩
  | copyRsp =>
    simp only [IpcCmd.runSendCmd] at hrun
    split at hrun
    · cases hrun
      exact ⟨rfl, h.goto_same .leave hpc rfl trivial⟩
    · cases hrun
      refine ⟨rfl, h.goto_return hpc rfl ?_⟩
      obtain ⟨-, hbad | hmem, hok'⟩ := hstage
      · exact absurd (hbad.symm.trans hok') (by decide)
      · refine ⟨_, hmem, ?_⟩
        rintro out ⟨⟩
        rfl
  | leave =>
    cases hrun
    exact ⟨rfl, h.store .setChnlSema hpc rfl hrx rfl trivial⟩
  | setChnlSema =>
    cases hrun
    refine ⟨rfl, h.own (OwnStep.setCb hrx) (h.rest hpc rfl) ?_ ?_ (.inl rfl) h.returns ?_⟩
    · rintro k stage' ⟨⟩
    · rintro ⟨⟩
    · rintro k stage' ⟨⟩

end Run

end BekenSoc.IpcExchange
