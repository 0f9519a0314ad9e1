import BekenSoc.MailboxChannel

namespace BekenSoc.MailboxFlight

open Function DualCore MailboxChannel

variable {n : Nat} {σ : Type}
variable {c : Cpu} {p : Core n → Prop} {k : Core n} {s s' : System n σ} {app : App σ} {e : Event n}

def boxCmd (box : Box) : List MailboxData :=
  if box.ready && !box.data.hdr.syncTx then [box.data] else []

def isrCmd : Option MailboxData → List MailboxData
  | none => []
  | some data => if !data.hdr.ackBox && !data.hdr.syncTx then [data] else []

def boxAck (box : Box) : List MailboxData :=
  if box.ready then [box.data] else []

def isrAck : Option MailboxData → List MailboxData
  | none => []
  | some data => if data.hdr.ackBox then [data] else []

def inFlight (core : Cpu → Core n) (c : Cpu) : List MailboxData :=
  boxCmd (core c).cmdBox ++ isrCmd (core c.other).isr ++
    boxAck (core c.other).ackBox ++ isrAck (core c).isr

theorem inFlight_update_self (core : Cpu → Core n) (c : Cpu) (k : Core n) :
    inFlight (update core c k) c = boxCmd k.cmdBox ++ isrCmd (core c.other).isr ++
        boxAck (core c.other).ackBox ++ isrAck k.isr := by
  simp only [inFlight, update_self, update_other]

theorem inFlight_update_other (core : Cpu → Core n) (c : Cpu) (k : Core n) :
    inFlight (update core c k) c.other =
      boxCmd (core c.other).cmdBox ++ isrCmd k.isr ++ boxAck k.ackBox ++
        isrAck (core c.other).isr := by
  simp only [inFlight, update_self, update_other, other_other]

theorem forall_cpu {p : Cpu → Prop} (hself : p c) (hother : p c.other) (d : Cpu) : p d := by
  by_cases hd : d = c
  · exact hd ▸ hself
  · exact eq_other_of_ne hd ▸ hother

structure SameWire (k k' : Core n) : Prop where
  phy : k'.phy = k.phy
  cmdBox : k'.cmdBox = k.cmdBox
  ackBox : k'.ackBox = k.ackBox
  isr : k'.isr = k.isr

theorem inFlight_eq_of_boxes {core : Cpu → Core n} (hcmd : k.cmdBox = (core c).cmdBox)
    (hack : k.ackBox = (core c).ackBox) (hisr : k.isr = (core c).isr) (d : Cpu) :
    inFlight (update core c k) d = inFlight core d := by
  revert d
  refine forall_cpu (c := c) ?_ ?_
  · rw [inFlight_update_self, hcmd, hisr, inFlight]
  · rw [inFlight_update_other, hack, hisr, inFlight, other_other]

theorem SameWire.inFlight_eq {core : Cpu → Core n} (h : SameWire (core c) k) (d : Cpu) :
    inFlight (update core c k) d = inFlight core d :=
  inFlight_eq_of_boxes h.cmdBox h.ackBox h.isr d

structure OnlyLog (k k' : Core n) : Prop extends SameWire k k' where
  pc : k'.pc = k.pc
  notes : k'.notes = k.notes

theorem OnlyLog.refl (k : Core n) : OnlyLog k k := ⟨⟨rfl, rfl, rfl, rfl⟩, rfl, rfl⟩

theorem OnlyLog.setLog (k : Core n) (ch : Chnl) (l : LogChnl) : OnlyLog k (k.setLog ch l) :=
  ⟨⟨rfl, rfl, rfl, rfl⟩, rfl, rfl⟩

theorem onlyLog_open (k : Core n) (ch : Chnl) : OnlyLog k (mbChnlOpen k ch) := by
  unfold mbChnlOpen
  split
  · exact .refl k
  · exact .setLog k ch _

theorem onlyLog_close (k : Core n) (ch : Chnl) : OnlyLog k (mbChnlClose k ch) := by
  unfold mbChnlClose
  split
  · exact .setLog k ch _
  · exact .refl k

theorem onlyLog_setRxIsr (k : Core n) (ch : Chnl) (isr : Bool) :
    OnlyLog k (mbChnlSetRxIsr k ch isr) := by
  unfold mbChnlSetRxIsr
  split
  · exact .setLog k ch _
  · exact .refl k

theorem onlyLog_setTxCmplIsr (k : Core n) (ch : Chnl) (isr : Bool) :
    OnlyLog k (mbChnlSetTxCmplIsr k ch isr) := by
  unfold mbChnlSetTxCmplIsr
  split
  · exact .setLog k ch _
  · exact .refl k

theorem sameWire_write (k : Core n) (i : Fin n) (ch : Chnl) (cmd p1 p2 p3 : Nat) :
    SameWire k (mbChnlWrite k i ch cmd p1 p2 p3) := by
  unfold mbChnlWrite
  split
  · split <;> exact ⟨rfl, rfl, rfl, rfl⟩
  · exact ⟨rfl, rfl, rfl, rfl⟩

theorem setPc_cases {i j : Fin n} {pc pc' : Pc} (h : (k.setPc i pc).pc j = pc') :
    j = i ∧ pc = pc' ∨ j ≠ i ∧ k.pc j = pc' := by
  rcases eq_or_ne j i with rfl | hj
  · exact .inl ⟨rfl, (update_self ..).symm.trans h⟩
  · exact .inr ⟨hj, (update_of_ne hj ..).symm.trans h⟩

theorem txCmd_of_free (hfree : k.cmdBox.ready = false) (ch : Chnl) : mbPhyChnlTxCmd k ch = ({ k with
          phy := { k.phy with
            txSeq := (k.phy.txSeq + 1) % 256, txLogChnlId := ch }
          log := update k.log ch { k.log ch with txBuff := txData k ch, txState := .idle }
          cmdBox := ⟨true, txData k ch⟩
          notes := .sent ch (txData k ch).tag :: k.notes }, true) := by
  simp only [mbPhyChnlTxCmd, bkMailboxSend, hfree, Bool.false_eq_true, if_false]

theorem txCmd_of_occupied (hready : k.cmdBox.ready = true) (ch : Chnl) : mbPhyChnlTxCmd k ch =
      ({ k with
          phy := { k.phy with
            txSeq := (k.phy.txSeq + 1) % 256, txLogChnlId := ch
            txFaultCnt := k.phy.txFaultCnt + 1 }
          log := update k.log ch { k.log ch with txBuff := txData k ch } }, false) := by
  simp only [mbPhyChnlTxCmd, bkMailboxSend, hready, if_true]

theorem startTx_cases (k : Core n) (ch : Chnl) :
    (k.phy.txState = .busy ∧ mbPhyChnlStartTx k ch = k) ∨
      (k.phy.txState = .idle ∧ k.cmdBox.ready = true ∧ mbPhyChnlStartTx k ch =
        (mbPhyChnlTxCmd (k.setPhyState .busy) ch).1.setPhyState .idle) ∨
      (k.phy.txState = .idle ∧ k.cmdBox.ready = false ∧ mbPhyChnlStartTx k ch =
        (mbPhyChnlTxCmd (k.setPhyState .busy) ch).1) := by
  cases hphy : k.phy.txState with
  | busy =>
    left
    refine ⟨rfl, ?_⟩
    simp [mbPhyChnlStartTx, hphy]
  | idle =>
    right
    cases hready : k.cmdBox.ready with
    | true =>
      left
      have hbox : (k.setPhyState .busy).cmdBox.ready = true := hready
      refine ⟨rfl, rfl, ?_⟩
      simp [mbPhyChnlStartTx, hphy, txCmd_of_occupied hbox]
    | false =>
      right
      have hbox : (k.setPhyState .busy).cmdBox.ready = false := hready
      refine ⟨rfl, rfl, ?_⟩
      simp [mbPhyChnlStartTx, hphy, txCmd_of_free hbox]

theorem waitingChnl_busy {ch : Chnl} (h : waitingChnl k = some ch) :
    (k.log ch).txState = .busy := by
  simpa using List.find?_some h

theorem busy_of_idle {l l' : LogChnl} (hidle : l.txState = .idle → l'.txState = .idle)
    (hbusy : l'.txState = .busy) : l.txState = .busy := by
  cases hold : l.txState with
  | busy => rfl
  | idle =>
    rw [hidle hold] at hbusy
    cases hbusy

def inSyncWrite : Pc → Bool
  | .syncCheck _ | .syncWrite _ | .syncTrigger => true
  | _ => false

theorem sendNext_cases (k : Core n) : (waitingChnl k = none ∧ sendNext k = k.setPhyState .idle) ∨
      ∃ ch, waitingChnl k = some ch ∧ ((k.cmdBox.ready = true ∧
          sendNext k = (mbPhyChnlTxCmd k ch).1.setPhyState .idle) ∨
        (k.cmdBox.ready = false ∧ sendNext k = (mbPhyChnlTxCmd k ch).1)) := by
  cases hwait : waitingChnl k with
  | none =>
    left
    refine ⟨rfl, ?_⟩
    simp [sendNext, hwait]
  | some ch =>
    right
    refine ⟨ch, rfl, ?_⟩
    cases hready : k.cmdBox.ready with
    | true =>
      left
      refine ⟨rfl, ?_⟩
      simp [sendNext, hwait, txCmd_of_occupied hready]
    | false =>
      right
      refine ⟨rfl, ?_⟩
      simp [sendNext, hwait, txCmd_of_free hready]

theorem sameWire_noteDone (k : Core n) (ack : MailboxData) : SameWire k (noteDone k ack) := by
  unfold noteDone
  split <;> exact ⟨rfl, rfl, rfl, rfl⟩

theorem noteDone_log (k : Core n) (ack : MailboxData) : (noteDone k ack).log = k.log := by
  unfold noteDone
  split <;> rfl

theorem noteDone_pc (k : Core n) (ack : MailboxData) : (noteDone k ack).pc = k.pc := by
  unfold noteDone
  split <;> rfl

theorem waitingChnl_noteDone (k : Core n) (ack : MailboxData) :
    waitingChnl (noteDone k ack) = waitingChnl k := by
  simp only [waitingChnl, noteDone_log]

theorem startTx_keeps {ch : Chnl} (hstate : ∀ k state, p k → p (k.setPhyState state))
    (hsend : k.phy.txState = .idle → p (k.setPhyState .busy) →
      p (mbPhyChnlTxCmd (k.setPhyState .busy) ch).1) (h : p k) : p (mbPhyChnlStartTx k ch) := by
  rcases startTx_cases k ch with ⟨-, heq⟩ | ⟨hidle, -, heq⟩ | ⟨hidle, -, heq⟩
  · rw [heq]
    exact h
  · rw [heq]
    exact hstate _ _ (hsend hidle (hstate k .busy h))
  · rw [heq]
    exact hsend hidle (hstate k .busy h)

theorem sendNext_keeps (hstate : ∀ k state, p k → p (k.setPhyState state))
    (hsend : ∀ ch, waitingChnl k = some ch → p (mbPhyChnlTxCmd k ch).1) (h : p k) :
    p (sendNext k) := by
  rcases sendNext_cases k with ⟨-, heq⟩ | ⟨ch, hch, ⟨-, heq⟩ | ⟨-, heq⟩⟩
  · rw [heq]
    exact hstate k _ h
  · rw [heq]
    exact hstate _ _ (hsend ch hch)
  · rw [heq]
    exact hsend ch hch

structure SameFlags (l l' : LogChnl) : Prop where
  inUsed : l'.inUsed = l.inUsed
  rxIsr : l'.rxIsr = l.rxIsr
  txCmplIsr : l'.txCmplIsr = l.txCmplIsr
  writes : l'.writes = l.writes

theorem SameFlags.refl (l : LogChnl) : SameFlags l l := ⟨rfl, rfl, rfl, rfl⟩

theorem SameFlags.setLog {ch : Chnl} {l : LogChnl} (h : SameFlags (k.log ch) l) (d : Chnl) :
    SameFlags (k.log d) (update k.log ch l d) :=
  (forall_update_iff k.log fun d l => SameFlags (k.log d) l).mpr ⟨h, fun _ _ => .refl _⟩ d

/-- What a transmission leaves as it is. -/
structure TxFrame (k k' : Core n) : Prop where
  flags : ∀ ch, SameFlags (k.log ch) (k'.log ch)
  pc : k'.pc = k.pc
  ackBox : k'.ackBox = k.ackBox
  isr : k'.isr = k.isr
  rxFaultCnt : k'.phy.rxFaultCnt = k.phy.rxFaultCnt
  notes : ∀ x ∈ k.notes, x ∈ k'.notes

theorem TxFrame.refl (k : Core n) : TxFrame k k :=
  ⟨fun _ => .refl _, rfl, rfl, rfl, rfl, fun _ => id⟩

theorem txFrame_txCmd (k : Core n) (ch : Chnl) : TxFrame k (mbPhyChnlTxCmd k ch).1 := by
  cases hready : k.cmdBox.ready with
  | true =>
    rw [txCmd_of_occupied hready]
    exact ⟨.setLog ⟨rfl, rfl, rfl, rfl⟩, rfl, rfl, rfl, rfl, fun _ => id⟩
  | false =>
    rw [txCmd_of_free hready]
    exact ⟨.setLog ⟨rfl, rfl, rfl, rfl⟩, rfl, rfl, rfl, rfl, fun _ => List.mem_cons_of_mem _⟩

theorem txFrame_startTx (k : Core n) (ch : Chnl) : TxFrame k (mbPhyChnlStartTx k ch) :=
  startTx_keeps (fun _ _ hk => { hk with })
    (fun _ _ => { txFrame_txCmd (k.setPhyState .busy) ch with }) (.refl k)

theorem txFrame_sendNext (k : Core n) : TxFrame k (sendNext k) :=
  sendNext_keeps (fun _ _ hk => { hk with }) (fun ch _ => txFrame_txCmd k ch) (.refl k)

theorem txFrame_done (k : Core n) (ack : MailboxData) : TxFrame k (sendNext (noteDone k ack)) := by
  have hnext := txFrame_sendNext (noteDone k ack)
  unfold noteDone at hnext ⊢
  split
  · rename_i hset
    rw [if_pos hset] at hnext
    exact { hnext with notes := fun x hx => hnext.notes x (List.mem_cons_of_mem _ hx) }
  · exact txFrame_sendNext k

def txCmdCaller (s : System n σ) : Event n → Option Cpu
  | .run c i =>
    match (s.core c).pc i with
    | .startTx _ => if (s.core c).phy.txState = .idle then some c else none
    | _ => none
  | .handle c =>
    match (s.core c).isr with
    | some data =>
      if data.hdr.ackBox && ackMatches (s.core c) data &&
          (waitingChnl (s.core c)).isSome then some c
      else none
    | none => none
  | _ => none

structure Wired (k : Core n) : Prop where
  cmd : k.cmdBox.data.hdr.ackBox = false
  ack : k.ackBox.ready = true → k.ackBox.data.hdr.ackBox = true
  polling : ∀ i data, k.pc i = .syncCheck data → data.hdr.ackBox = false ∧ data.hdr.syncTx = true
  writing : ∀ i data, k.pc i = .syncWrite data → data.hdr.ackBox = false ∧ data.hdr.syncTx = true

theorem mailboxReceive_core (h : mailboxReceive s c = some s') :
    (s.core c).isr = none ∧ s'.app = s.app ∧ (((s.core c.other).cmdBox.ready = true ∧
        s'.core = update (update s.core c.other
          { s.core c.other with cmdBox := ⟨false, (s.core c.other).cmdBox.data⟩ }) c
          { s.core c with isr := some (s.core c.other).cmdBox.data }) ∨
      ((s.core c.other).cmdBox.ready = false ∧ (s.core c.other).ackBox.ready = true ∧
        s'.core = update (update s.core c.other
          { s.core c.other with ackBox := ⟨false, (s.core c.other).ackBox.data⟩ }) c
          { s.core c with isr := some (s.core c.other).ackBox.data })) := by
  simp only [mailboxReceive] at h
  split at h
  · cases h
  · rename_i hisr
    split at h
    · rename_i hready
      cases h
      exact ⟨hisr, rfl, .inl ⟨hready, rfl⟩⟩
    · rename_i hbusy
      obtain ⟨hready, rfl⟩ := Option.ite_some_none_eq_some.mp h
      exact ⟨hisr, rfl, .inr ⟨Bool.eq_false_of_not_eq_true hbusy, hready, rfl⟩⟩

theorem forall_update {core : Cpu → Core n} (h : ∀ d, p (core d)) (hk : p k) (d : Cpu) :
    p (update core c k d) := by
  revert d
  refine forall_cpu (c := c) ?_ ?_
  · rw [update_self]
    exact hk
  · rw [update_other]
    exact h c.other

theorem mailboxReceive_keeps
    (hcongr : ∀ k k', k'.phy = k.phy → k'.log = k.log → k'.pc = k.pc → k'.notes = k.notes →
      p k → p k') (h : ∀ d, p (s.core d)) (hreceive : mailboxReceive s c = some s') (d : Cpu) :
    p (s'.core d) := by
  obtain ⟨-, -, ⟨-, hcore⟩ | ⟨-, -, hcore⟩⟩ := mailboxReceive_core hreceive
  all_goals
    rw [hcore]
    refine forall_update (forall_update h ?_) ?_ d
    · exact hcongr (s.core c.other) _ rfl rfl rfl rfl (h c.other)
    · exact hcongr (s.core c) _ rfl rfl rfl rfl (h c)

theorem mailboxReceive_fields (h : mailboxReceive s c = some s') (d : Cpu) :
    (s'.core d).phy = (s.core d).phy ∧ (s'.core d).log = (s.core d).log ∧
      (s'.core d).pc = (s.core d).pc ∧ (s'.core d).notes = (s.core d).notes := by
  obtain ⟨-, -, ⟨-, hcore⟩ | ⟨-, -, hcore⟩⟩ := mailboxReceive_core h
  all_goals
    rw [hcore]
    revert d
    refine forall_cpu (c := c) ?_ ?_
    · rw [update_self]
      exact ⟨rfl, rfl, rfl, rfl⟩
    · rw [update_other, update_self]
      exact ⟨rfl, rfl, rfl, rfl⟩

theorem mailboxReceive_inFlight (hwired : Wired (s.core c.other))
    (h : mailboxReceive s c = some s') (d : Cpu) : inFlight s'.core d = inFlight s.core d := by
  obtain ⟨hisr, -, ⟨hready, hcore⟩ | ⟨-, hready, hcore⟩⟩ := mailboxReceive_core h
  · have hcmd := hwired.cmd
    rw [hcore]
    revert d
    refine forall_cpu (c := c) ?_ ?_
    · rw [inFlight_update_self]
      simp [inFlight, hisr, isrAck, hcmd]
    · rw [inFlight_update_other]
      simp [inFlight, hisr, isrCmd, boxCmd, hready, hcmd]
  · have hack := hwired.ack hready
    rw [hcore]
    revert d
    refine forall_cpu (c := c) ?_ ?_
    · rw [inFlight_update_self]
      simp [inFlight, hisr, isrAck, boxAck, hready, hack]
    · rw [inFlight_update_other]
      simp [inFlight, hisr, isrCmd, hack]

inductive TaskStep (k : Core n) (i : Fin n) : Core n → Prop
  | copy {ch : Chnl} {data : MailboxData} : k.pc i = .copy ch data →
      TaskStep k i ((k.setLog ch { k.log ch with txBuff := data }).setPc i (.mark ch))
  | mark {ch : Chnl} : k.pc i = .mark ch →
      TaskStep k i ((k.setLog ch { k.log ch with txState := .busy }).setPc i (.startTx ch))
  | startTx {ch : Chnl} : k.pc i = .startTx ch →
      TaskStep k i ((mbPhyChnlStartTx k ch).setPc i .idle)
  | syncOccupied {data : MailboxData} : k.pc i = .syncCheck data → k.cmdBox.ready = true →
      TaskStep k i k
  | syncFree {data : MailboxData} : k.pc i = .syncCheck data → k.cmdBox.ready = false →
      TaskStep k i (k.setPc i (.syncWrite data))
  | syncWrite {data : MailboxData} : k.pc i = .syncWrite data →
      TaskStep k i ({ k with cmdBox := ⟨k.cmdBox.ready, data⟩ }.setPc i .syncTrigger)
  | syncTrigger : k.pc i = .syncTrigger →
      TaskStep k i ({ k with cmdBox := ⟨true, k.cmdBox.data⟩ }.setPc i .idle)

theorem runTask_cases {k' : Core n} {i : Fin n} (h : runTask k i = some k') : TaskStep k i k' := by
  cases hpc : k.pc i with
  | idle =>
    rw [runTask, hpc] at h
    cases h
  | copy =>
    rw [runTask, hpc] at h
    cases h
    exact .copy hpc
  | mark =>
    rw [runTask, hpc] at h
    cases h
    exact .mark hpc
  | startTx =>
    rw [runTask, hpc] at h
    cases h
    exact .startTx hpc
  | syncCheck =>
    rw [runTask, hpc] at h
    cases hready : k.cmdBox.ready with
    | true =>
      rw [hready] at h
      cases h
      exact .syncOccupied hpc hready
    | false =>
      rw [hready] at h
      cases h
      exact .syncFree hpc hready
  | syncWrite =>
    rw [runTask, hpc] at h
    cases h
    exact .syncWrite hpc
  | syncTrigger =>
    rw [runTask, hpc] at h
    cases h
    exact .syncTrigger hpc

inductive Handled (k : Core n) (data : MailboxData) : Core n → Prop
  | ack : data.hdr.ackBox = true → ackMatches k data = true →
      Handled k data (sendNext (noteDone { k with isr := none } data))
  | fault : data.hdr.ackBox = true → ackMatches k data = false →
      Handled k data (rxFault { k with isr := none })
  | sync : data.hdr.ackBox = false → data.hdr.syncTx = true → Handled k data { k with isr := none }
  | refused : data.hdr.ackBox = false → data.hdr.syncTx = false → k.ackBox.ready = true →
      Handled k data { k with
        isr := none, phy := { k.phy with txFaultCnt := k.phy.txFaultCnt + 1 } }
  | answered (answer : Nat × Nat × Nat) : data.hdr.ackBox = false → data.hdr.syncTx = false →
      k.ackBox.ready = false → Handled k data { k with
        isr := none, ackBox := ⟨true, ackOf { k with isr := none } data answer⟩ }

theorem handled_sendAck {data : MailboxData} (hcmd : data.hdr.ackBox = false)
    (answer : Nat × Nat × Nat) : Handled k data (sendAck { k with isr := none } data answer) := by
  unfold sendAck bkMailboxSend
  cases hsync : data.hdr.syncTx with
  | true => exact .sync hcmd hsync
  | false =>
    cases hready : k.ackBox.ready with
    | true => exact .refused hcmd hsync hready
    | false => exact .answered answer hcmd hsync hready

theorem handle_core (h : step app s (.handle c) = some s') :
    ∃ data k, (s.core c).isr = some data ∧ Handled (s.core c) data k ∧
      s'.core = update s.core c k := by
  simp only [step] at h
  split at h
  · cases h
  · rename_i data hisr
    cases h
    cases hack : data.hdr.ackBox with
    | true =>
      cases hmatch : ackMatches (s.core c) data with
      | true =>
        refine ⟨data, _, hisr, .ack hack hmatch, ?_⟩
        have hmatch' : ackMatches { s.core c with isr := none } data = true := hmatch
        simp [mbPhyChnlRxIsr, mbPhyChnlRxAckIsr, hack, System.setCore, hmatch']
      | false =>
        refine ⟨data, _, hisr, .fault hack hmatch, ?_⟩
        have hmatch' : ackMatches { s.core c with isr := none } data = false := hmatch
        simp [mbPhyChnlRxIsr, mbPhyChnlRxAckIsr, hack, System.setCore, hmatch']
    | false =>
      cases hset : ((s.core c).log data.hdr.logicalChnl).rxIsr with
      | true =>
        refine ⟨data, _, hisr, handled_sendAck hack (app.rxIsr c data.hdr.logicalChnl
          { data with hdr := { clearedHdr data.hdr with comFail := false } } s.app).2, ?_⟩
        simp [mbPhyChnlRxIsr, mbPhyChnlRxCmdIsr, hack, System.setCore, hset]
      | false =>
        refine ⟨data, _, hisr, handled_sendAck hack (data.param1, data.param2, data.param3), ?_⟩
        simp [mbPhyChnlRxIsr, mbPhyChnlRxCmdIsr, hack, System.setCore, hset]

theorem wired_init : Wired (Core.init n) := by
  refine ⟨rfl, ?_, ?_, ?_⟩
  · intro h
    cases h
  · intro i data h
    cases h
  · intro i data h
    cases h

namespace Wired

variable {k k' : Core n}

section

variable (h : Wired k)
include h

theorem setPc (i : Fin n) {pc : Pc}
    (hcheck : ∀ data, pc = .syncCheck data → data.hdr.ackBox = false ∧ data.hdr.syncTx = true)
    (hwrite : ∀ data, pc = .syncWrite data → data.hdr.ackBox = false ∧ data.hdr.syncTx = true) :
    Wired (k.setPc i pc) := by
  refine ⟨h.cmd, h.ack, fun j data hj => ?_, fun j data hj => ?_⟩
  · rcases setPc_cases hj with ⟨-, hj⟩ | ⟨-, hj⟩
    · exact hcheck data hj
    · exact h.polling j data hj
  · rcases setPc_cases hj with ⟨-, hj⟩ | ⟨-, hj⟩
    · exact hwrite data hj
    · exact h.writing j data hj

theorem setLog (ch : Chnl) (l : LogChnl) : Wired (k.setLog ch l) := { h with }

theorem txCmd (ch : Chnl) : Wired (mbPhyChnlTxCmd k ch).1 := by
  cases hready : k.cmdBox.ready with
  | true =>
    rw [txCmd_of_occupied hready]
    exact { h with }
  | false =>
    rw [txCmd_of_free hready]
    exact { h with cmd := rfl }

theorem setPhyState (state : ChnlState) : Wired (k.setPhyState state) := { h with }

theorem handled {data : MailboxData} (hk : Handled k data k') : Wired k' := by
  have hread : Wired { k with isr := none } := { h with }
  cases hk with
  | ack =>
    have hnoted : Wired (noteDone { k with isr := none } data) := by
      unfold noteDone
      split
      · exact { h with }
      · exact hread
    exact sendNext_keeps (fun _ state hk => hk.setPhyState state)
      (fun ch _ => hnoted.txCmd ch) hnoted
  | fault | sync | refused => exact { h with }
  | answered => exact { h with ack := fun _ => rfl }

theorem runTask {i : Fin n} (hrun : runTask k i = some k') : Wired k' := by
  cases runTask_cases hrun with
  | copy | mark => apply setPc (h.setLog _ _) <;> simp
  | @startTx ch =>
    have hstarted : Wired (mbPhyChnlStartTx k ch) :=
      startTx_keeps (fun _ state hk => hk.setPhyState state) (fun _ hk => hk.txCmd ch) h
    apply setPc hstarted <;> simp
  | syncOccupied => exact h
  | @syncFree data hpc =>
    apply setPc h
    · simp
    · intro d hd
      cases hd
      exact h.polling i data hpc
  | @syncWrite data hpc =>
    have hnew : Wired { k with cmdBox := ⟨k.cmdBox.ready, data⟩ } :=
      { h with cmd := (h.writing i data hpc).1 }
    apply setPc hnew <;> simp
  | syncTrigger =>
    have hnew : Wired { k with cmdBox := ⟨true, k.cmdBox.data⟩ } := { h with }
    apply setPc hnew <;> simp

end

end Wired

inductive LocalStep (c : Cpu) (k : Core n) : Event n → Core n → Prop
  | openChnl (ch : Chnl) : LocalStep c k (.openChnl c ch) (mbChnlOpen k ch)
  | closeChnl (ch : Chnl) : LocalStep c k (.closeChnl c ch) (mbChnlClose k ch)
  | setRxIsr (ch : Chnl) (isr : Bool) : LocalStep c k (.setRxIsr c ch isr) (mbChnlSetRxIsr k ch isr)
  | setTxCmplIsr (ch : Chnl) (isr : Bool) :
      LocalStep c k (.setTxCmplIsr c ch isr) (mbChnlSetTxCmplIsr k ch isr)
  | write (i : Fin n) (ch : Chnl) (cmd p1 p2 p3 : Nat) : k.pc i = .idle →
      LocalStep c k (.write c i ch cmd p1 p2 p3) (mbChnlWrite k i ch cmd p1 p2 p3)
  | writeSync (i : Fin n) (ch : Chnl) (cmd p1 p2 p3 : Nat) : k.pc i = .idle →
      LocalStep c k (.writeSync c i ch cmd p1 p2 p3) (mbChnlWriteSync k i ch cmd p1 p2 p3)
  | run (i : Fin n) {k' : Core n} : runTask k i = some k' → LocalStep c k (.run c i) k'
  | handle {data : MailboxData} {k' : Core n} : k.isr = some data →
      Handled k data k' → LocalStep c k (.handle c) k'

theorem step_cases (h : step app s e = some s') :
    (∃ c, e = .receive c ∧ mailboxReceive s c = some s') ∨
      ∃ c k, LocalStep c (s.core c) e k ∧ s'.core = update s.core c k := by
  cases e with
  | openChnl c ch =>
    cases h
    exact .inr ⟨c, _, .openChnl ch, rfl⟩
  | closeChnl c ch =>
    cases h
    exact .inr ⟨c, _, .closeChnl ch, rfl⟩
  | setRxIsr c ch isr =>
    cases h
    exact .inr ⟨c, _, .setRxIsr ch isr, rfl⟩
  | setTxCmplIsr c ch isr =>
    cases h
    exact .inr ⟨c, _, .setTxCmplIsr ch isr, rfl⟩
  | write c i ch cmd p1 p2 p3 =>
    obtain ⟨hpc, rfl⟩ := Option.ite_some_none_eq_some.mp h
    exact .inr ⟨c, _, .write i ch cmd p1 p2 p3 hpc, rfl⟩
  | writeSync c i ch cmd p1 p2 p3 =>
    obtain ⟨hpc, rfl⟩ := Option.ite_some_none_eq_some.mp h
    exact .inr ⟨c, _, .writeSync i ch cmd p1 p2 p3 hpc, rfl⟩
  | run c i =>
    simp only [step, Option.map_eq_some_iff] at h
    obtain ⟨k, hrun, rfl⟩ := h
    exact .inr ⟨c, k, .run i hrun, rfl⟩
  | receive c => exact .inl ⟨c, rfl, h⟩
  | handle c =>
    obtain ⟨data, k, hisr, hk, hcore⟩ := handle_core h
    exact .inr ⟨c, k, .handle hisr hk, hcore⟩

def setupChnl : Event n → Option Chnl
  | .openChnl _ ch | .closeChnl _ ch | .setRxIsr _ ch _ | .setTxCmplIsr _ ch _ => some ch
  | _ => none

inductive CoreStep (c : Cpu) (k : Core n) : Event n → Core n → Prop
  | refused (e : Event n) : CoreStep c k e k
  | setup {e : Event n} {ch : Chnl} {l : LogChnl} : setupChnl e = some ch →
      l.writes = (k.log ch).writes → l.txBuff = (k.log ch).txBuff →
      ((k.log ch).txState = .idle → l.txState = .idle) → CoreStep c k e (k.setLog ch l)
  | write {i : Fin n} {ch : Chnl} {cmd p1 p2 p3 : Nat} : k.pc i = .idle →
      (k.log ch).inUsed = true → (k.log ch).txState = .idle →
      CoreStep c k (.write c i ch cmd p1 p2 p3)
        ((k.setLog ch { k.log ch with writes := (k.log ch).writes + 1 }).setPc i
          (.copy ch (written ch cmd p1 p2 p3 (k.log ch).writes)))
  | writeSync {i : Fin n} {ch : Chnl} {cmd p1 p2 p3 : Nat} : k.pc i = .idle →
      CoreStep c k (.writeSync c i ch cmd p1 p2 p3)
        (k.setPc i (.syncCheck ⟨⟨cmd, false, false, true, 0, ch⟩, p1, p2, p3, 0⟩))
  | run {i : Fin n} {k' : Core n} : runTask k i = some k' → CoreStep c k (.run c i) k'
  | handle {data : MailboxData} {k' : Core n} : k.isr = some data → Handled k data k' →
      CoreStep c k (.handle c) k'

theorem LocalStep.core {k' : Core n} (hstep : LocalStep c k e k') : CoreStep c k e k' := by
  cases hstep with
  | openChnl =>
    unfold mbChnlOpen
    split
    · exact .refused _
    · exact .setup rfl rfl rfl id
  | closeChnl =>
    unfold mbChnlClose
    split
    · exact .setup rfl rfl rfl fun _ => rfl
    · exact .refused _
  | setRxIsr =>
    unfold mbChnlSetRxIsr
    split
    · exact .setup rfl rfl rfl id
    · exact .refused _
  | setTxCmplIsr =>
    unfold mbChnlSetTxCmplIsr
    split
    · exact .setup rfl rfl rfl id
    · exact .refused _
  | write i ch cmd p1 p2 p3 hpc =>
    unfold mbChnlWrite
    split
    · split
      · exact .write hpc ‹_› ‹_›
      · exact .refused _
    · exact .refused _
  | writeSync i ch cmd p1 p2 p3 hpc =>
    unfold mbChnlWriteSync
    split
    · exact .writeSync hpc
    · exact .refused _
  | run i hrun => exact .run hrun
  | handle hisr hk => exact .handle hisr hk

theorem LocalStep.wired {k' : Core n} (hstep : LocalStep c k e k') (h : Wired k) : Wired k' := by
  cases hstep.core with
  | refused => exact h
  | setup => exact h.setLog _ _
  | write => apply (h.setLog _ _).setPc <;> simp
  | writeSync =>
    apply h.setPc
    · intro data hdata
      cases hdata
      exact ⟨rfl, rfl⟩
    · simp
  | run hrun => exact h.runTask hrun
  | handle _ hk => exact h.handled hk

theorem step_wired (h : ∀ c, Wired (s.core c)) (hstep : step app s e = some s') (c : Cpu) :
    Wired (s'.core c) := by
  rcases step_cases hstep with ⟨d, -, hreceive⟩ | ⟨d, k, hlocal, hcore⟩
  · obtain ⟨-, -, ⟨-, hcore⟩ | ⟨-, -, hcore⟩⟩ := mailboxReceive_core hreceive
    all_goals
      rw [hcore]
      refine forall_update (forall_update h ?_) ?_ c
    · exact { h d.other with }
    · exact { h d with }
    · refine { h d.other with ack := ?_ }
      intro hready
      cases hready
    · exact { h d with }
  · rw [hcore]
    exact forall_update h (hlocal.wired (h d)) c

/-! Pieces of runs. -/

def syncFill (c : Cpu) (i : Fin n) (ch : Chnl) (cmd : Nat) : List (Event n) :=
  [.writeSync c i ch cmd 0 0 0, .run c i, .run c i]

def writeCall (c : Cpu) (i : Fin n) (ch : Chnl) (cmd : Nat) : List (Event n) :=
  [.write c i ch cmd 0 0 0, .run c i, .run c i, .run c i]

end BekenSoc.MailboxFlight
