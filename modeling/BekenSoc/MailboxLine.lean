import BekenSoc.MailboxAcks
import BekenSoc.MailboxWrites

namespace BekenSoc.MailboxLine

open Function DualCore MailboxChannel MailboxFlight MailboxAcks MailboxWrites List

variable {n : Nat} {σ : Type}
variable {pc : Pc} {i : Fin n} {data : MailboxData} {c : Cpu} {ch : Chnl} {e : Event n}
  {s s' : System n σ} {app : App σ} {w : Cpu → Nat} {core : Cpu → Core n} {k : Core n}

def request (m : MailboxData) : MailboxData :=
  { m with hdr := { clearedHdr m.hdr with comFail := false } }

def reply (m : MailboxData) : MailboxData := { m with hdr := clearedHdr m.hdr }

def replied (cmd : MailboxData) (answer : Nat × Nat × Nat) : MailboxData :=
  { cmd with param1 := answer.1, param2 := answer.2.1, param3 := answer.2.2 }

inductive Line
  | quiet
  | underWay (cmd : MailboxData)
  | acked (ack : MailboxData)
  deriving DecidableEq

variable {l : Cpu → Line}

def chFlight (core : Cpu → Core n) (c : Cpu) (ch : Chnl) : List MailboxData :=
  (inFlight core c).filter fun m => decide (m.hdr.logicalChnl = ch)

def Unwritten (k : Core n) (ch : Chnl) : Prop := ∀ j, pendingWrite (k.pc j) ≠ some ch

def OnlyWriter (k : Core n) (ch : Chnl) (i : Fin n) : Prop :=
  ∀ j, pendingWrite (k.pc j) = some ch → j = i

inductive LineAt (k : Core n) (ch : Chnl) : List MailboxData → Line → Prop
  | quiet : Unwritten k ch → (k.log ch).txState = .idle → LineAt k ch [] .quiet
  | copying (i : Fin n) (data : MailboxData) : k.pc i = .copy ch data →
      OnlyWriter k ch i → (k.log ch).txState = .idle → LineAt k ch [] (.underWay (request data))
  | marking (i : Fin n) : k.pc i = .mark ch → OnlyWriter k ch i → (k.log ch).txState = .idle →
      LineAt k ch [] (.underWay (request (k.log ch).txBuff))
  | waiting : Unwritten k ch → (k.log ch).txState = .busy →
      LineAt k ch [] (.underWay (request (k.log ch).txBuff))
  | sent (m : MailboxData) : Unwritten k ch → (k.log ch).txState = .idle →
      m.hdr.ackBox = false → m.hdr.comFail = false → LineAt k ch [m] (.underWay (request m))
  | acked (m : MailboxData) : Unwritten k ch → (k.log ch).txState = .idle →
      m.hdr.ackBox = true → LineAt k ch [m] (.acked (reply m))

def LinesAt (core : Cpu → Core n) (ch : Chnl) (l : Cpu → Line) : Prop :=
  ∀ c, LineAt (core c) ch (chFlight core c ch) (l c)

def writeOf (k : Core n) (ch : Chnl) (pc : Pc) : Option MailboxData :=
  match pc with
  | .copy ch' data => if ch' = ch then some data else none
  | .mark ch' => if ch' = ch then some (k.log ch).txBuff else none
  | _ => none

def lineOf (core : Cpu → Core n) (c : Cpu) (ch : Chnl) : Line :=
  match (finRange n).findSome? fun j => writeOf (core c) ch ((core c).pc j) with
  | some data => .underWay (request data)
  | none =>
    if ((core c).log ch).txState = .busy then
      .underWay (request ((core c).log ch).txBuff)
    else
      match chFlight core c ch with
      | [] => .quiet
      | m :: _ => if m.hdr.ackBox then .acked (reply m) else .underWay (request m)

structure Async (k : Core n) : Prop where
  tasks : ∀ i, inSyncWrite (k.pc i) = false
  cmdBox : k.cmdBox.data.hdr.syncTx = false
  ackBox : k.ackBox.data.hdr.syncTx = false
  isr : ∀ data, k.isr = some data → data.hdr.syncTx = false

structure Attached (writes : Nat) (l : LogChnl) : Prop where
  inUsed : l.inUsed = true
  rxIsr : l.rxIsr = true
  txCmplIsr : l.txCmplIsr = true
  writes : l.writes = writes

structure Carrier (core : Cpu → Core n) (ch : Chnl) (writes : Cpu → Nat) : Prop where
  acks : AckInv core
  async : ∀ c, Async (core c)
  attached : ∀ c, Attached (writes c) ((core c).log ch)

def Apart (ch : Chnl) : Event n → Prop
  | .openChnl _ ch' => ch' ≠ ch
  | .closeChnl _ ch' => ch' ≠ ch
  | .setRxIsr _ ch' _ => ch' ≠ ch
  | .setTxCmplIsr _ ch' _ => ch' ≠ ch
  | .write _ _ ch' _ _ _ _ => ch' ≠ ch
  | .writeSync .. => False
  | _ => True

instance (ch : Chnl) : (e : Event n) → Decidable (Apart ch e)
  | .openChnl .. | .closeChnl .. | .setRxIsr .. | .setTxCmplIsr .. | .write .. =>
    inferInstanceAs (Decidable (_ ≠ ch))
  | .writeSync .. => isFalse id
  | .run .. | .receive .. | .handle .. => isTrue trivial

theorem Apart.setup_ne {ch' : Chnl} (h : Apart ch e) (hchnl : setupChnl e = some ch') :
    ch' ≠ ch := by
  cases e with
  | openChnl | closeChnl | setRxIsr | setTxCmplIsr =>
    cases hchnl
    exact h
  | _ => cases hchnl

def StartsWaiting (ch : Chnl) (core : Cpu → Core n) : Event n → Prop
  | .run c i => (core c).pc i = .startTx ch → (core c).phy.txState = .idle →
      ((core c).log ch).txState = .busy
  | _ => True

instance (ch : Chnl) (core : Cpu → Core n) : (e : Event n) → Decidable (StartsWaiting ch core e)
  | .run .. => inferInstanceAs (Decidable (_ → _ → _))
  | .openChnl .. | .closeChnl .. | .setRxIsr .. | .setTxCmplIsr .. | .write ..
  | .writeSync .. | .receive .. | .handle .. => isTrue trivial

inductive Transit (app : App σ) (ch : Chnl) (l : Cpu → Line) (a : σ) : (Cpu → Line) → σ → Prop
  | stay : Transit app ch l a l a
  | deliver (c : Cpu) (cmd : MailboxData) : l c = .underWay cmd → Transit app ch l a
        (update l c (.acked (replied cmd (app.rxIsr c.other ch cmd a).2)))
        (app.rxIsr c.other ch cmd a).1
  | complete (c : Cpu) (ack : MailboxData) : l c = .acked ack →
      Transit app ch l a (update l c .quiet) (app.txCmplIsr c ch ack a)

structure UserOf (app : App σ) (ch : Chnl) : Prop where
  rxIsr : ∀ c ch' data a, ch' ≠ ch → (app.rxIsr c ch' data a).1 = a
  txCmplIsr : ∀ c ch' data a, ch' ≠ ch → app.txCmplIsr c ch' data a = a

namespace Async

variable {k k' : Core n}

section

variable (h : Async k)
include h

theorem setPc (i : Fin n) (hpc : inSyncWrite pc = false) : Async (k.setPc i pc) := by
  refine { h with tasks := ?_ }
  exact (forall_update_iff k.pc fun _ pc => inSyncWrite pc = false).mpr
    ⟨hpc, fun j _ => h.tasks j⟩

theorem setLog (ch : Chnl) (l : LogChnl) : Async (k.setLog ch l) := { h with }

theorem setPhyState (state : ChnlState) : Async (k.setPhyState state) := { h with }

theorem txCmd (ch : Chnl) : Async (mbPhyChnlTxCmd k ch).1 := by
  cases hready : k.cmdBox.ready with
  | false =>
    rw [txCmd_of_free hready]
    exact { h with cmdBox := rfl }
  | true =>
    rw [txCmd_of_occupied hready]
    exact { h with }

theorem runTask (hrun : runTask k i = some k') : Async k' := by
  have hasync := h.tasks i
  cases runTask_cases hrun with
  | copy | mark => exact (h.setLog _ _).setPc i rfl
  | startTx =>
    refine .setPc ?_ i rfl
    exact startTx_keeps (fun _ state hk => hk.setPhyState state) (fun _ hbusy => hbusy.txCmd _) h
  | syncOccupied hpc | syncFree hpc | syncWrite hpc | syncTrigger hpc =>
    rw [hpc] at hasync
    cases hasync

theorem handled (hk : Handled k data k') : Async k' := by
  have hread : Async { k with isr := none } := { h with isr := fun _ hnone => by cases hnone }
  cases hk with
  | ack =>
    have hdone : Async (noteDone { k with isr := none } data) := by
      unfold noteDone
      split
      · exact { hread with }
      · exact hread
    exact sendNext_keeps (fun _ state hk => hk.setPhyState state) (fun ch _ => hdone.txCmd ch) hdone
  | fault | sync | refused => exact { hread with }
  | answered _ _ hsync => exact { hread with ackBox := hsync }

theorem localStep (hstep : LocalStep c k e k') (happart : Apart ch e) : Async k' := by
  cases hstep.core with
  | refused => exact h
  | setup => exact h.setLog _ _
  | write => exact (h.setLog _ _).setPc _ rfl
  | writeSync => exact happart.elim
  | run hrun => exact h.runTask hrun
  | handle _ hk => exact h.handled hk

end

theorem receive (h : ∀ d, Async (s.core d)) (hreceive : mailboxReceive s c = some s') (d : Cpu) :
    Async (s'.core d) := by
  obtain ⟨-, -, ⟨-, hcore⟩ | ⟨-, -, hcore⟩⟩ := mailboxReceive_core hreceive
  all_goals
    rw [hcore]
    refine forall_update (forall_update h ?_) ?_ d
  · exact { h c.other with }
  · refine { h c with isr := ?_ }
    rintro data hdata
    cases hdata
    exact (h c.other).cmdBox
  · exact { h c.other with }
  · refine { h c with isr := ?_ }
    rintro data hdata
    cases hdata
    exact (h c.other).ackBox

end Async

namespace Attached

variable {k k' : Core n} {ch : Chnl} {w : Nat}

theorem of_flags {l l' : LogChnl} (h : Attached w l) (hl : SameFlags l l') : Attached w l' :=
  ⟨hl.inUsed.trans h.inUsed, hl.rxIsr.trans h.rxIsr, hl.txCmplIsr.trans h.txCmplIsr,
    hl.writes.trans h.writes⟩

section

variable (h : Attached w (k.log ch))
include h

theorem setLog_ne {ch' : Chnl} (hne : ch' ≠ ch) (l : LogChnl) :
    Attached w ((k.setLog ch' l).log ch) := by
  simp only [Core.setLog, update_of_ne hne.symm]
  exact h

theorem runTask (hrun : runTask k i = some k') : Attached w (k'.log ch) := by
  cases runTask_cases hrun with
  | copy | mark =>
    refine h.of_flags (SameFlags.setLog (k := k) ?_ ch)
    exact ⟨rfl, rfl, rfl, rfl⟩
  | startTx => exact h.of_flags ((txFrame_startTx k _).flags ch)
  | syncOccupied | syncFree | syncWrite | syncTrigger => exact h

theorem handled (hk : Handled k data k') : Attached w (k'.log ch) := by
  cases hk with
  | ack => exact h.of_flags ((txFrame_done { k with isr := none } data).flags ch)
  | fault | sync | refused | answered => exact h

theorem localStep (hstep : LocalStep c k e k') (happart : Apart ch e) : Attached w (k'.log ch) := by
  cases hstep.core with
  | refused => exact h
  | setup hchnl => exact h.setLog_ne (happart.setup_ne hchnl) _
  | write => exact h.setLog_ne happart _
  | writeSync => exact happart.elim
  | run hrun => exact h.runTask hrun
  | handle _ hk => exact h.handled hk

end

end Attached

theorem Carrier.step (h : Carrier s.core ch w) (happart : Apart ch e)
    (hstep : step app s e = some s') : Carrier s'.core ch w := by
  have hacks := step_ackInv h.acks (syncUndisturbed_of_async fun c => (h.async c).tasks) hstep
  rcases step_cases hstep with ⟨d, -, hreceive⟩ | ⟨d, k, hlocal, hcore⟩
  · refine ⟨hacks, .receive h.async hreceive, ?_⟩
    intro c
    rw [(mailboxReceive_fields hreceive c).2.1]
    exact h.attached c
  · rw [hcore] at hacks ⊢
    refine ⟨hacks, forall_update h.async ((h.async d).localStep hlocal happart), ?_⟩
    refine forall_cpu (c := d) ?_ ?_
    · rw [update_self]
      exact (h.attached d).localStep hlocal happart
    · rw [update_other]
      exact h.attached d.other

namespace LineAt

variable {k k' : Core n} {ch : Chnl} {flight : List MailboxData} {l : Line}

section

variable (h : LineAt k ch flight l)
include h

theorem congr (hstate : (k'.log ch).txState = (k.log ch).txState)
    (hbuff : request (k'.log ch).txBuff = request (k.log ch).txBuff)
    (hpc : ∀ j, pendingWrite (k.pc j) = some ch ∨ pendingWrite (k'.pc j) = some ch →
      k'.pc j = k.pc j) : LineAt k' ch flight l := by
  have hpending : ∀ j, pendingWrite (k'.pc j) = some ch → pendingWrite (k.pc j) = some ch := by
    intro j hj
    rw [hpc j (.inr hj)] at hj
    exact hj
  have hunwritten : Unwritten k ch → Unwritten k' ch := fun hk j hj =>
    hk j (hpending j hj)
  have honly : ∀ {i}, OnlyWriter k ch i → OnlyWriter k' ch i := fun hk j hj =>
    hk j (hpending j hj)
  cases h with
  | quiet hno hidle => exact .quiet (hunwritten hno) (hstate.trans hidle)
  | copying i data hi hw hidle =>
    have hi' : k'.pc i = .copy ch data := by rw [hpc i (.inl (by rw [hi]; rfl)), hi]
    exact .copying i data hi' (honly hw) (hstate.trans hidle)
  | marking i hi hw hidle =>
    have hi' : k'.pc i = .mark ch := by rw [hpc i (.inl (by rw [hi]; rfl)), hi]
    rw [← hbuff]
    exact .marking i hi' (honly hw) (hstate.trans hidle)
  | waiting hno hbusy =>
    rw [← hbuff]
    exact .waiting (hunwritten hno) (hstate.trans hbusy)
  | sent m hno hidle hcmd hok => exact .sent m (hunwritten hno) (hstate.trans hidle) hcmd hok
  | acked m hno hidle hack => exact .acked m (hunwritten hno) (hstate.trans hidle) hack

theorem of_log (hlog : k'.log ch = k.log ch) (hpc : k'.pc = k.pc) : LineAt k' ch flight l :=
  h.congr (by rw [hlog]) (by rw [hlog]) fun j _ => by rw [hpc]

theorem setLog_ne {ch' : Chnl} (hne : ch' ≠ ch) (log : LogChnl) :
    LineAt (k.setLog ch' log) ch flight l :=
  h.of_log (update_of_ne hne.symm _ _) rfl

theorem setPc (i : Fin n) (hold : pendingWrite (k.pc i) ≠ some ch)
    (hnew : pendingWrite pc ≠ some ch) : LineAt (k.setPc i pc) ch flight l := by
  refine h.congr rfl rfl fun j hj => ?_
  by_cases hji : j = i
  · rw [hji] at hj
    simp only [Core.setPc, update_self] at hj
    rcases hj with hj | hj
    · exact absurd hj hold
    · exact absurd hj hnew
  · simp only [Core.setPc, update_of_ne hji]

theorem txCmd_occupied (ch' : Chnl) (hready : k.cmdBox.ready = true) :
    LineAt (mbPhyChnlTxCmd k ch').1 ch flight l := by
  rw [txCmd_of_occupied hready]
  by_cases hch : ch = ch'
  · rw [← hch]
    refine h.congr ?_ ?_ fun _ _ => rfl
    · simp only [update_self]
    · simp only [update_self]
      rfl
  · exact h.of_log (update_of_ne hch _ _) rfl

end

theorem txCmd_free (h : LineAt k ch [] l) (ch' : Chnl)
    (hfree : k.cmdBox.ready = false) (hbusy : (k.log ch').txState = .busy ∨ ch' ≠ ch) :
    LineAt (mbPhyChnlTxCmd k ch').1 ch
      ([txData k ch'].filter fun m => decide (m.hdr.logicalChnl = ch)) l := by
  have hchnl : (txData k ch').hdr.logicalChnl = ch' := rfl
  rw [txCmd_of_free hfree]
  by_cases hch : ch' = ch
  · have hbusy' : (k.log ch).txState = .busy := by
      rcases hbusy with hbusy | hne
      · rw [← hch]
        exact hbusy
      · exact absurd hch hne
    rw [hch] at hchnl ⊢
    rw [filter_cons_of_pos (by simp [hchnl])]
    cases h with
    | quiet _ hidle | copying _ _ _ _ hidle
    | marking _ _ _ hidle => rw [hidle] at hbusy'; cases hbusy'
    | waiting hno =>
      refine .sent (txData k ch) hno ?_ rfl rfl
      simp only [update_self]
  · rw [filter_cons_of_neg (by simp [hchnl, hch])]
    exact h.of_log (update_of_ne (Ne.symm hch) _ _) rfl

theorem copy (h : LineAt k ch flight l) (hpc : k.pc i = .copy ch data) :
    LineAt ((k.setLog ch { k.log ch with txBuff := data }).setPc i (.mark ch)) ch flight l := by
  have hpending : pendingWrite (k.pc i) = some ch := by
    rw [hpc]
    rfl
  cases h with
  | quiet hno | waiting hno | sent _ hno | acked _ hno => exact absurd hpending (hno i)
  | marking j hj hw =>
    rw [← hw i hpending, hpc] at hj
    cases hj
  | copying j data' hj hw hidle =>
    have hij := hw i hpending
    rw [← hij, hpc] at hj
    cases hj
    have hmark := @marking n
      ((k.setLog ch { k.log ch with txBuff := data }).setPc i (.mark ch)) ch i
      (by simp [Core.setPc])
    simp only [Core.setPc, Core.setLog, update_self] at hmark ⊢
    refine hmark ?_ hidle
    intro j' hj'
    by_cases hji : j' = i
    · exact hji
    · simp only [update_of_ne hji] at hj'
      rw [hij]
      exact hw j' hj'

theorem mark (h : LineAt k ch flight l) (hpc : k.pc i = .mark ch) :
    LineAt ((k.setLog ch { k.log ch with txState := .busy }).setPc i (.startTx ch))
      ch flight l := by
  have hpending : pendingWrite (k.pc i) = some ch := by
    rw [hpc]
    rfl
  cases h with
  | quiet hno | waiting hno | sent _ hno | acked _ hno => exact absurd hpending (hno i)
  | copying j data' hj hw =>
    rw [← hw i hpending, hpc] at hj
    cases hj
  | marking j hj hw =>
    have hij := hw i hpending
    have hwait := @waiting n
      ((k.setLog ch { k.log ch with txState := .busy }).setPc i (.startTx ch)) ch
    simp only [Core.setPc, Core.setLog, update_self] at hwait ⊢
    refine hwait ?_ trivial
    intro j' hj'
    by_cases hji : j' = i
    · rw [hji] at hj'
      simp only [update_self] at hj'
      cases hj'
    · simp only [update_of_ne hji] at hj'
      exact hji ((hw j' hj').trans hij.symm)

end LineAt

namespace LinesAt

variable {core : Cpu → Core n} {c : Cpu} {k : Core n} {ch : Chnl} {l : Cpu → Line}

section

variable (h : LinesAt core ch l)
include h

theorem setLine {x : Line} (hother : inFlight (update core c k) c.other = inFlight core c.other)
    (hself : LineAt k ch (chFlight (update core c k) c ch) x) :
    LinesAt (update core c k) ch (update l c x) := by
  refine forall_cpu (c := c) ?_ ?_
  · rw [update_self, update_self]
    exact hself
  · rw [update_other, update_other, chFlight, hother]
    exact h c.other

theorem stay (hother : inFlight (update core c k) c.other = inFlight core c.other)
    (hself : LineAt k ch (chFlight (update core c k) c ch) (l c)) :
    LinesAt (update core c k) ch l := by
  have hl := h.setLine hother hself
  rw [update_eq_self] at hl
  exact hl

theorem of_boxes (hcmd : k.cmdBox = (core c).cmdBox) (hack : k.ackBox = (core c).ackBox)
    (hisr : k.isr = (core c).isr) (hself : LineAt k ch (chFlight core c ch) (l c)) :
    LinesAt (update core c k) ch l := by
  have hflight := inFlight_eq_of_boxes hcmd hack hisr
  refine h.stay (hflight c.other) ?_
  rw [chFlight, hflight c]
  exact hself

theorem startTx (hout : Outstanding core c) (ch' : Chnl)
    (hwaiting : (core c).phy.txState = .idle → ch' = ch → ((core c).log ch).txState = .busy) :
    LinesAt (update core c (mbPhyChnlStartTx (core c) ch')) ch l := by
  rcases startTx_cases (core c) ch' with ⟨-, heq⟩ | ⟨hidle, hready, heq⟩ | ⟨hidle, hready, heq⟩
  · rw [heq, update_eq_self]
    exact h
  · have hbusy : LineAt ((core c).setPhyState .busy) ch (chFlight core c ch) (l c) :=
      (h c).of_log rfl rfl
    have hline : LineAt (mbPhyChnlStartTx (core c) ch') ch (chFlight core c ch) (l c) :=
      (hbusy.txCmd_occupied ch' hready).of_log (by rw [heq]; rfl) (by rw [heq]; rfl)
    have hocc : ((core c).setPhyState .busy).cmdBox.ready = true := hready
    refine h.of_boxes ?_ ?_ ?_ hline
    all_goals
      rw [heq, txCmd_of_occupied hocc]
      rfl
  · have hempty : inFlight core c = [] := by
      have hcount := hout.count
      rw [hidle] at hcount
      exact length_eq_zero_iff.mp hcount
    have hline := h c
    rw [chFlight, hempty] at hline
    simp only [inFlight, append_eq_nil_iff] at hempty
    obtain ⟨⟨⟨-, hpeer⟩, hbox⟩, hisr⟩ := hempty
    have hbusy : LineAt ((core c).setPhyState .busy) ch [] (l c) := hline.of_log rfl rfl
    have hfree : ((core c).setPhyState .busy).cmdBox.ready = false := hready
    have hsent := hbusy.txCmd_free ch' hfree (by
      by_cases hch : ch' = ch
      · left
        rw [hch]
        exact hwaiting hidle hch
      · exact .inr hch)
    rw [heq]
    refine h.stay ?_ ?_
    · rw [txCmd_of_free hfree, inFlight_update_other, inFlight, other_other]
      rfl
    · have hflight : inFlight (update core c
          (mbPhyChnlTxCmd ((core c).setPhyState .busy) ch').1) c =
          [txData ((core c).setPhyState .busy) ch'] := by
        rw [txCmd_of_free hfree, inFlight_update_self, hpeer, hbox]
        simp only [Core.setPhyState, hisr]
        rfl
      rw [chFlight, hflight]
      exact hsent

theorem sendNext {x : Line} (hclear : Clear core c k) (hbox : boxCmd k.cmdBox = [])
    (hisr : isrCmd k.isr = isrCmd (core c).isr) (hack : k.ackBox = (core c).ackBox)
    (hline : LineAt k ch [] x) :
    LinesAt (update core c (MailboxChannel.sendNext k)) ch (update l c x) := by
  rcases sendNext_cases k with ⟨-, heq⟩ | ⟨ch', hwait, ⟨hready, heq⟩ | ⟨hready, heq⟩⟩
  · rw [heq]
    refine h.setLine ?_ ?_
    · rw [inFlight_update_other, inFlight, other_other, ← hisr, ← hack]
      rfl
    · have hidle : Clear core c (k.setPhyState .idle) := { hclear with }
      rw [chFlight, hidle.inFlight_eq]
      simp only [Core.setPhyState, hbox, filter_nil]
      exact hline.of_log rfl rfl
  · rw [heq]
    have hocc := hline.txCmd_occupied ch' hready
    refine h.setLine ?_ ?_
    · rw [txCmd_of_occupied hready, inFlight_update_other, inFlight, other_other, ← hisr, ← hack]
      rfl
    · have hidle : Clear core c ((mbPhyChnlTxCmd k ch').1.setPhyState .idle) := by
        rw [txCmd_of_occupied hready]
        exact { hclear with }
      have hbox' : ((mbPhyChnlTxCmd k ch').1.setPhyState .idle).cmdBox = k.cmdBox := by
        rw [txCmd_of_occupied hready]
        rfl
      rw [chFlight, hidle.inFlight_eq, hbox', hbox]
      exact hocc.of_log rfl rfl
  · rw [heq]
    have hsent := hline.txCmd_free ch' hready (.inl (waitingChnl_busy hwait))
    refine h.setLine ?_ ?_
    · rw [txCmd_of_free hready, inFlight_update_other, inFlight, other_other, ← hisr, ← hack]
    · have hnext : Clear core c (mbPhyChnlTxCmd k ch').1 := by
        rw [txCmd_of_free hready]
        exact { hclear with }
      have hbox' : boxCmd (mbPhyChnlTxCmd k ch').1.cmdBox = [txData k ch'] := by
        rw [txCmd_of_free hready]
        rfl
      rw [chFlight, hnext.inFlight_eq, hbox']
      exact hsent

theorem runTask (hout : Outstanding core c) (hasync : Async (core c))
    (hwaiting : (core c).pc i = .startTx ch → (core c).phy.txState = .idle →
      ((core c).log ch).txState = .busy) (hrun : MailboxChannel.runTask (core c) i = some k) :
    LinesAt (update core c k) ch l := by
  have htask := hasync.tasks i
  cases runTask_cases hrun with
  | @copy ch' _ hpc =>
    refine h.of_boxes rfl rfl rfl ?_
    by_cases hch : ch' = ch
    · subst hch
      exact (h c).copy hpc
    · refine ((h c).setLog_ne hch _).setPc i ?_ ?_
      · simp [Core.setLog, hpc, pendingWrite, hch]
      · simp [pendingWrite, hch]
  | @mark ch' hpc =>
    refine h.of_boxes rfl rfl rfl ?_
    by_cases hch : ch' = ch
    · subst hch
      exact (h c).mark hpc
    · refine ((h c).setLog_ne hch _).setPc i ?_ ?_
      · simp [Core.setLog, hpc, pendingWrite, hch]
      · simp [pendingWrite]
  | @startTx ch' hpc =>
    have hstarted := h.startTx hout ch' fun hidle hch => hwaiting (by rw [hpc, hch]) hidle
    have hpc' := (txFrame_startTx (core c) ch').pc
    have hline := hstarted c
    rw [update_self] at hline
    have hset := hstarted.of_boxes (c := c) (k := (mbPhyChnlStartTx (core c) ch').setPc i .idle)
      (by rw [update_self]; rfl) (by rw [update_self]; rfl)
      (by rw [update_self]; rfl)
      (hline.setPc i (by rw [hpc', hpc]; simp [pendingWrite]) (by simp [pendingWrite]))
    rw [update_idem] at hset
    exact hset
  | syncOccupied hpc | syncFree hpc | syncWrite hpc | syncTrigger hpc =>
    rw [hpc] at htask
    cases htask

theorem apart (hout : Outstanding core c) (hasync : Async (core c)) (happart : Apart ch e)
    (hok : StartsWaiting ch core e) (hstep : LocalStep c (core c) e k) (hhandle : e ≠ .handle c) :
    LinesAt (update core c k) ch l := by
  cases hstep.core with
  | refused =>
    rw [update_eq_self]
    exact h
  | setup hchnl => exact h.of_boxes rfl rfl rfl ((h c).setLog_ne (happart.setup_ne hchnl) _)
  | write hpc =>
    refine h.of_boxes rfl rfl rfl (((h c).setLog_ne happart _).setPc _ ?_ ?_)
    · simp [Core.setLog, hpc, pendingWrite]
    · simpa [pendingWrite, Apart] using happart
  | writeSync => exact happart.elim
  | run hrun => exact h.runTask hout hasync hok hrun
  | handle => exact absurd rfl hhandle

end

end LinesAt

theorem inFlight_sendAck (hout : Outstanding core c.other) (hisr : (core c).isr = some data)
    (hcmd : data.hdr.ackBox = false) (hsync : data.hdr.syncTx = false) (answer : Nat × Nat × Nat) :
    inFlight core c.other = [data] ∧ (∀ k, k = sendAck { core c with isr := none } data answer →
        inFlight (update core c k) c = inFlight core c ∧ inFlight (update core c k) c.other =
          [ackOf { core c with isr := none } data answer] ∧
        k.log = (core c).log ∧ k.pc = (core c).pc) := by
  have hread : isrCmd (core c).isr = [data] := by simp [hisr, isrCmd, hcmd, hsync]
  have hready := hout.ackBox_free hread
  have hbox : boxAck (core c).ackBox = [] := by simp [boxAck, hready]
  have hle : busyCount (core c.other).phy.txState ≤ 1 := by
    cases (core c.other).phy.txState <;> decide
  have hcount := hout.count
  simp only [inFlight, other_other, hread, hbox, length_append,
    length_singleton, length_nil] at hcount
  have hleft : boxCmd (core c.other).cmdBox = [] := by
    apply length_eq_zero_iff.mp
    omega
  have hright : isrAck (core c.other).isr = [] := by
    apply length_eq_zero_iff.mp
    omega
  refine ⟨?_, ?_⟩
  · simp [inFlight, hread, hbox, hleft, hright]
  · rintro k rfl
    simp only [sendAck, hsync, bkMailboxSend, hready, Bool.false_eq_true, if_false]
    refine ⟨?_, ?_, trivial, trivial⟩
    · rw [inFlight_update_self, inFlight]
      simp [hisr, isrAck, hcmd]
    · rw [inFlight_update_other, hleft, hright]
      rfl

theorem LineAt.of_single {m : MailboxData} {l : Line} (h : LineAt k ch [m] l) :
    Unwritten k ch ∧ (k.log ch).txState = .idle ∧
      ((m.hdr.ackBox = false ∧ m.hdr.comFail = false ∧ l = .underWay (request m)) ∨
        (m.hdr.ackBox = true ∧ l = .acked (reply m))) := by
  cases h with
  | sent _ hno hidle hcmd hok => exact ⟨hno, hidle, .inl ⟨hcmd, hok, rfl⟩⟩
  | acked _ hno hidle hack => exact ⟨hno, hidle, .inr ⟨hack, rfl⟩⟩

theorem LineAt.of_quiet {flight : List MailboxData} (h : LineAt k ch flight .quiet) :
    flight = [] ∧ Unwritten k ch ∧ (k.log ch).txState = .idle := by
  cases h with
  | quiet hno hidle => exact ⟨rfl, hno, hidle⟩

theorem writeOf_eq_none (h : pendingWrite pc ≠ some ch) : writeOf k ch pc = none := by
  cases pc with
  | copy | mark => exact if_neg fun heq => h (congrArg some heq)
  | _ => rfl

theorem findSome_writeOf_none (h : Unwritten k ch) :
    ((finRange n).findSome? fun j => writeOf k ch (k.pc j)) = none := by
  rw [List.findSome?_eq_none_iff]
  exact fun j _ => writeOf_eq_none (h j)

theorem findSome_writeOf (h : OnlyWriter k ch i) (hi : writeOf k ch (k.pc i) = some data) :
    ((finRange n).findSome? fun j => writeOf k ch (k.pc j)) = some data := by
  cases hfind : (finRange n).findSome? fun j => writeOf k ch (k.pc j) with
  | none =>
    rw [List.findSome?_eq_none_iff] at hfind
    rw [hfind i (mem_finRange i)] at hi
    cases hi
  | some =>
    obtain ⟨j, -, hj⟩ := List.exists_of_findSome?_eq_some hfind
    have hji : j = i := by
      refine h j (not_not.mp fun hne => ?_)
      rw [writeOf_eq_none hne] at hj
      cases hj
    rw [hji, hi] at hj
    exact hj.symm

theorem LinesAt.lineOf_eq (h : LinesAt core ch l) (c : Cpu) : lineOf core c ch = l c := by
  have hline := h c
  unfold lineOf
  generalize chFlight core c ch = flight at hline ⊢
  generalize l c = x at hline ⊢
  cases hline with
  | quiet hno hidle => simp [findSome_writeOf_none hno, hidle]
  | copying i data hi hw =>
    have hwrite : writeOf (core c) ch ((core c).pc i) = some data := by
      rw [hi]
      exact if_pos rfl
    rw [findSome_writeOf hw hwrite]
  | marking i hi hw =>
    have hwrite : writeOf (core c) ch ((core c).pc i) = some ((core c).log ch).txBuff := by
      rw [hi]
      exact if_pos rfl
    rw [findSome_writeOf hw hwrite]
  | waiting hno hbusy => simp [findSome_writeOf_none hno, hbusy]
  | sent m hno hidle hcmd => simp [findSome_writeOf_none hno, hidle, hcmd]
  | acked m hno hidle hack => simp [findSome_writeOf_none hno, hidle, hack]

section Handle

variable {app : App σ} {s : System n σ} {c : Cpu} {ch : Chnl} {l : Cpu → Line}
  {w : Cpu → Nat} {data : MailboxData}

theorem rxCmdIsr_setCore (k : Core n) (cmd : MailboxData) :
    mbPhyChnlRxCmdIsr app (s.setCore c k) c cmd =
      if (k.log cmd.hdr.logicalChnl).rxIsr then ⟨update s.core c (sendAck k cmd
            (app.rxIsr c cmd.hdr.logicalChnl (request cmd) s.app).2),
          (app.rxIsr c cmd.hdr.logicalChnl (request cmd) s.app).1⟩ else
        ⟨update s.core c (sendAck k cmd (cmd.param1, cmd.param2, cmd.param3)), s.app⟩ := by
  simp only [mbPhyChnlRxCmdIsr, System.setCore, update_self, update_idem]
  rfl

theorem rxAckIsr_setCore (k : Core n) (ack : MailboxData) (hmatch : ackMatches k ack = true) :
    mbPhyChnlRxAckIsr app (s.setCore c k) c ack =
      ⟨update s.core c (MailboxChannel.sendNext (noteDone k ack)),
        if (k.log ack.hdr.logicalChnl).txCmplIsr then
          app.txCmplIsr c ack.hdr.logicalChnl (reply ack) s.app else s.app⟩ := by
  simp only [mbPhyChnlRxAckIsr, System.setCore, update_self, update_idem, hmatch, if_true]
  rfl

theorem handle_cmd_transit (huser : UserOf app ch) (hcarrier : Carrier s.core ch w)
    (hl : LinesAt s.core ch l) (hisr : (s.core c).isr = some data)
    (hcmd : data.hdr.ackBox = false) :
    ∃ l', LinesAt (mbPhyChnlRxCmdIsr app (s.setCore c { s.core c with isr := none })
        c data).core ch l' ∧ Transit app ch l s.app l' (mbPhyChnlRxCmdIsr app
        (s.setCore c { s.core c with isr := none }) c data).app := by
  have hsync := (hcarrier.async c).isr data hisr
  have hout := hcarrier.acks.outstanding c.other
  -- whatever the callback answers, only the peer's line moves
  have hmove : ∀ answer, ∀ x, LineAt (s.core c.other) ch
      ([ackOf { s.core c with isr := none } data answer].filter
        fun m => decide (m.hdr.logicalChnl = ch)) x →
      LinesAt (update s.core c (sendAck { s.core c with isr := none } data answer))
        ch (update l c.other x) := by
    intro answer x hx
    obtain ⟨-, hafter⟩ := inFlight_sendAck hout hisr hcmd hsync answer
    obtain ⟨hself, hother, hlog, hpc⟩ := hafter _ rfl
    refine forall_cpu (c := c) ?_ ?_
    · rw [update_self, update_of_ne (other_ne c).symm, chFlight, hself]
      exact (hl c).of_log (by rw [hlog]) hpc
    · rw [update_other, update_self, chFlight, hother]
      exact hx
  have hbefore := hl c.other
  rw [chFlight, (inFlight_sendAck hout hisr hcmd hsync (0, 0, 0)).1] at hbefore
  by_cases hch : data.hdr.logicalChnl = ch
  · rw [filter_cons_of_pos (by simp [hch])] at hbefore
    obtain ⟨hno, hidle, ⟨-, hok, hunder⟩ | ⟨hack, -⟩⟩ := hbefore.of_single
    · have hrx := (hcarrier.attached c).rxIsr
      have hdeliver := @Transit.deliver σ app ch l s.app c.other (request data) hunder
      rw [other_other] at hdeliver
      rw [rxCmdIsr_setCore, hch, hrx]
      refine ⟨_, hmove _ _ ?_, hdeliver⟩
      rw [filter_cons_of_pos (by simp [ackOf, hch])]
      have hreply : reply (ackOf { s.core c with isr := none } data
          (app.rxIsr c ch (request data) s.app).2) =
          replied (request data) (app.rxIsr c ch (request data) s.app).2 := by
        simp [reply, ackOf, replied, request, clearedHdr, hok, hch, hrx]
      rw [← hreply]
      exact .acked _ hno hidle rfl
    · rw [hcmd] at hack
      cases hack
  · rw [filter_cons_of_neg (by simp [hch])] at hbefore
    have hstay : ∀ answer, LinesAt (update s.core c
        (sendAck { s.core c with isr := none } data answer)) ch l := by
      intro answer
      have hl' := hmove answer (l c.other) (by
        rw [filter_cons_of_neg (by simp [ackOf, hch])]
        exact hbefore)
      rw [update_eq_self] at hl'
      exact hl'
    refine ⟨l, ?_⟩
    rw [rxCmdIsr_setCore]
    split
    · rw [huser.rxIsr c _ (request data) s.app hch]
      exact ⟨hstay _, .stay⟩
    · exact ⟨hstay _, .stay⟩

theorem handle_ack_transit (huser : UserOf app ch) (hcarrier : Carrier s.core ch w)
    (hl : LinesAt s.core ch l) (hisr : (s.core c).isr = some data) (hack : data.hdr.ackBox = true) :
    ∃ l', LinesAt (mbPhyChnlRxAckIsr app (s.setCore c { s.core c with isr := none })
        c data).core ch l' ∧ Transit app ch l s.app l' (mbPhyChnlRxAckIsr app
        (s.setCore c { s.core c with isr := none }) c data).app := by
  obtain ⟨-, hmatch, hbox, hpeer, hpeerBox⟩ := (hcarrier.acks.outstanding c).ack_alone hisr hack
  have hwire := sameWire_noteDone { s.core c with isr := none } data
  have hflight : inFlight s.core c = [data] := by
    simp [inFlight, hbox, hpeer, hpeerBox, hisr, isrAck, hack]
  have hnext : ∀ x, LineAt (s.core c) ch [] x → LinesAt (update s.core c
      (MailboxChannel.sendNext (noteDone { s.core c with isr := none } data))) ch
      (update l c x) := by
    intro x hx
    refine .sendNext hl ⟨hpeer, hpeerBox, ?_⟩ ?_ ?_ hwire.ackBox ?_
    · rw [hwire.isr]
      rfl
    · rw [hwire.cmdBox]
      exact hbox
    · rw [hwire.isr, hisr]
      simp [isrCmd, hack]
    · exact hx.of_log (by rw [noteDone_log]) (noteDone_pc _ _)
  have hbefore := hl c
  rw [chFlight, hflight] at hbefore
  have hmatch' : ackMatches { s.core c with isr := none } data = true := hmatch
  rw [rxAckIsr_setCore _ _ hmatch']
  by_cases hch : data.hdr.logicalChnl = ch
  · rw [filter_cons_of_pos (by simp [hch])] at hbefore
    obtain ⟨hno, hidle, ⟨hcmd, -⟩ | ⟨-, hacked⟩⟩ := hbefore.of_single
    · rw [hack] at hcmd
      cases hcmd
    · refine ⟨_, hnext .quiet (.quiet hno hidle), ?_⟩
      simp only [hch, (hcarrier.attached c).txCmplIsr, if_true]
      exact .complete c (reply data) hacked
  · rw [filter_cons_of_neg (by simp [hch])] at hbefore
    have hstay := hnext (l c) hbefore
    rw [update_eq_self] at hstay
    refine ⟨l, hstay, ?_⟩
    split
    · rw [huser.txCmplIsr c _ (reply data) s.app hch]
      exact .stay
    · exact .stay

end Handle

theorem step_app (hstep : step app s e = some s') (hhandle : ∀ c, e ≠ .handle c) :
    s'.app = s.app := by
  cases e with
  | handle c => exact absurd rfl (hhandle c)
  | receive => exact (mailboxReceive_core hstep).2.1
  | run =>
    simp only [step, Option.map_eq_some_iff] at hstep
    obtain ⟨k, -, rfl⟩ := hstep
    rfl
  | write | writeSync =>
    obtain ⟨-, rfl⟩ := Option.ite_some_none_eq_some.mp hstep
    rfl
  | _ =>
    cases hstep
    rfl

theorem step_transit (huser : UserOf app ch) (hcarrier : Carrier s.core ch w)
    (hl : LinesAt s.core ch l) (happart : Apart ch e) (hok : StartsWaiting ch s.core e)
    (hstep : step app s e = some s') :
    ∃ l', LinesAt s'.core ch l' ∧ Transit app ch l s.app l' s'.app := by
  by_cases hhandle : ∃ c, e = .handle c
  · obtain ⟨c, rfl⟩ := hhandle
    simp only [step] at hstep
    split at hstep
    · cases hstep
    · rename_i data hisr
      cases hstep
      unfold mbPhyChnlRxIsr
      cases hack : data.hdr.ackBox with
      | true => exact handle_ack_transit huser hcarrier hl hisr hack
      | false => exact handle_cmd_transit huser hcarrier hl hisr hack
  · have hne : ∀ c, e ≠ .handle c := fun c heq => hhandle ⟨c, heq⟩
    rw [step_app hstep hne]
    refine ⟨l, ?_, .stay⟩
    rcases step_cases hstep with ⟨d, -, hreceive⟩ | ⟨d, k, hlocal, hcore⟩
    · have hflight := mailboxReceive_inFlight (hcarrier.acks.wired d.other) hreceive
      intro c
      obtain ⟨-, hlog, hpc, -⟩ := mailboxReceive_fields hreceive c
      rw [chFlight, hflight c]
      exact (hl c).of_log (by rw [hlog]) hpc
    · rw [hcore]
      exact hl.apart (hcarrier.acks.outstanding d) (hcarrier.async d) happart hok hlocal (hne d)

theorem write_underWay (hcarrier : Carrier core ch w) (hl : LinesAt core ch l)
    (hquiet : l c = .quiet) (hidle : (core c).pc i = .idle) (cmd p1 p2 p3 : Nat) :
    Carrier (update core c (mbChnlWrite (core c) i ch cmd p1 p2 p3)) ch (update w c (w c + 1)) ∧
      LinesAt (update core c (mbChnlWrite (core c) i ch cmd p1 p2 p3)) ch
        (update l c (.underWay (request (written ch cmd p1 p2 p3 (w c))))) := by
  have hold := hcarrier.attached c
  have hline := hl c
  rw [hquiet] at hline
  obtain ⟨hflight, hno, hstate⟩ := hline.of_quiet
  have haccepted : mbChnlWrite (core c) i ch cmd p1 p2 p3 =
      ((core c).setLog ch { (core c).log ch with
        writes := ((core c).log ch).writes + 1 }).setPc i
        (.copy ch (written ch cmd p1 p2 p3 ((core c).log ch).writes)) := by
    simp only [mbChnlWrite, (hcarrier.attached c).inUsed, hstate, if_true]
  have hacks : AckInv (update core c (mbChnlWrite (core c) i ch cmd p1 p2 p3)) := by
    let s : System n Unit := ⟨core, ()⟩
    have hstep : step .echo s (.write c i ch cmd p1 p2 p3) =
        some (s.setCore c (mbChnlWrite (core c) i ch cmd p1 p2 p3)) := by
      simp only [step, s, hidle, if_true]
    exact step_ackInv (s := s) hcarrier.acks
      (syncUndisturbed_of_async fun c => (hcarrier.async c).tasks) hstep
  have hwire := sameWire_write (core c) i ch cmd p1 p2 p3
  have hboxes := inFlight_eq_of_boxes hwire.cmdBox hwire.ackBox hwire.isr
  refine ⟨⟨hacks, ?_, ?_⟩, ?_⟩
  · refine forall_update hcarrier.async ?_
    rw [haccepted]
    exact ((hcarrier.async c).setLog ch _).setPc i rfl
  · refine forall_cpu (c := c) ?_ ?_
    · rw [haccepted]
      simp only [Core.setPc, Core.setLog, update_self]
      exact { hold with writes := by rw [hold.writes] }
    · rw [update_other, update_other]
      exact hcarrier.attached c.other
  · rw [← hold.writes]
    refine hl.setLine (hboxes c.other) ?_
    rw [chFlight, hboxes c]
    rw [chFlight] at hflight
    rw [hflight, haccepted]
    refine .copying i _ ?_ ?_ ?_
    · simp only [Core.setPc, update_self]
    · intro j hj
      by_cases hji : j = i
      · exact hji
      · simp only [Core.setPc, Core.setLog, update_of_ne hji] at hj
        exact absurd hj (hno j)
    · simp only [Core.setPc, Core.setLog, update_self]
      exact hstate

end BekenSoc.MailboxLine
