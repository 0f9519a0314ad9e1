import BekenSoc.GuardedRuns
import BekenSoc.MailboxFlight

namespace BekenSoc.MailboxAcks

open Function DualCore GuardedRuns MailboxChannel MailboxFlight List

variable {n : Nat} {σ : Type}
variable {core : Cpu → Core n} {data : MailboxData} {s : System n σ} {c : Cpu} {e : Event n}
  {k : Core n}

structure AckProtocol (core : Cpu → Core n) : Prop where
  /-- at most one asynchronous command per direction is unacknowledged -/
  one_unacked : ∀ c, (inFlight core c).length ≤ 1
  /-- an acknowledge that arrives is that of the outstanding command -/
  ack_matches : ∀ c data, (core c).isr = some data → data.hdr.ackBox = true →
    (core c).phy.txState = .busy ∧ ackMatches (core c) data = true
  no_fault : ∀ c, (core c).phy.rxFaultCnt = 0
  /-- the acknowledge box is free for a command that is to be acknowledged -/
  ack_box_free : ∀ c data, (core c).isr = some data → data.hdr.ackBox = false →
    data.hdr.syncTx = false → (core c).ackBox.ready = false

def inSyncWindow : Pc → Bool
  | .syncWrite _ => true
  | .syncTrigger => true
  | _ => false

/-- No asynchronous command goes out between the check and the trigger of a
synchronous write on the same CPU. -/
def SyncUndisturbed (s : System n σ) (e : Event n) : Prop :=
  ∀ c, txCmdCaller s e = some c → (s.core c).cmdBox.ready = false →
    ∀ i, inSyncWindow ((s.core c).pc i) = false

instance (s : System n σ) (e : Event n) : Decidable (SyncUndisturbed s e) :=
  inferInstanceAs (Decidable (∀ _ ∈ txCmdCaller s e, _ → _))

structure WindowInv (k : Core n) : Prop where
  window : ∀ i, inSyncWindow (k.pc i) = true → k.cmdBox.ready = true →
    k.cmdBox.data.hdr.syncTx = true
  written : ∀ i, k.pc i = .syncTrigger → k.cmdBox.data.hdr.syncTx = true

def busyCount : ChnlState → Nat
  | .idle => 0
  | .busy => 1

structure Outstanding (core : Cpu → Core n) (c : Cpu) : Prop where
  count : (inFlight core c).length = busyCount (core c).phy.txState
  matching : ∀ m ∈ inFlight core c, ackMatches (core c) m = true

structure AckInv (core : Cpu → Core n) : Prop where
  wired : ∀ c, Wired (core c)
  windows : ∀ c, WindowInv (core c)
  outstanding : ∀ c, Outstanding core c
  no_fault : ∀ c, (core c).phy.rxFaultCnt = 0

theorem AckInv.ackProtocol (h : AckInv core) : AckProtocol core := by
  have hone : ∀ c, (inFlight core c).length ≤ 1 := by
    intro c
    rw [(h.outstanding c).count]
    cases (core c).phy.txState <;> decide
  refine ⟨hone, ?_, h.no_fault, ?_⟩
  · intro c data hisr hack
    have hmem : data ∈ inFlight core c := by simp [inFlight, hisr, isrAck, hack]
    refine ⟨?_, (h.outstanding c).matching data hmem⟩
    cases hphy : (core c).phy.txState with
    | busy => rfl
    | idle =>
      have hcount := (h.outstanding c).count
      rw [hphy, busyCount, length_eq_zero_iff] at hcount
      rw [hcount] at hmem
      cases hmem
  · intro c data hisr hcmd hsync
    have hlen := hone c.other
    simp only [inFlight, other_other, hisr, isrCmd, hcmd, hsync, length_append] at hlen
    cases hready : (core c).ackBox.ready with
    | false => rfl
    | true =>
      simp [boxAck, hready] at hlen
      omega

theorem ackInv_init : AckInv fun _ => Core.init n := by
  refine ⟨fun _ => wired_init, fun _ => ⟨?_, ?_⟩, fun _ => ⟨rfl, ?_⟩, fun _ => rfl⟩
  · intro i h
    cases h
  · intro i h
    cases h
  · intro m hm
    cases hm

theorem syncUndisturbed_of_async (h : ∀ c i, inSyncWrite ((s.core c).pc i) = false) :
    SyncUndisturbed s e := by
  intro c _ _ i
  have hasync := h c i
  cases hpc : (s.core c).pc i with
  | syncWrite | syncTrigger =>
    rw [hpc] at hasync
    cases hasync
  | _ => rfl

namespace WindowInv

variable {k k' : Core n}

section

variable (h : WindowInv k)
include h

theorem of_sameWire (hbox : k'.cmdBox = k.cmdBox)
    (hpc : ∀ i, inSyncWindow (k'.pc i) = true → k'.pc i = k.pc i) : WindowInv k' := by
  refine ⟨?_, ?_⟩
  · intro i hi hready
    rw [hbox] at hready ⊢
    exact h.window i (hpc i hi ▸ hi) hready
  · intro i hi
    rw [hbox]
    exact h.written i (hpc i (by rw [hi]; rfl) ▸ hi)

theorem setPc_outside (i : Fin n) {pc : Pc} (hpc : inSyncWindow pc = false) :
    WindowInv (k.setPc i pc) := by
  refine h.of_sameWire rfl fun j hj => ?_
  by_cases hji : j = i
  · rw [hji] at hj
    simp only [Core.setPc, update_self, hpc] at hj
    cases hj
  · simp only [Core.setPc, update_of_ne hji]

theorem setLog (ch : Chnl) (l : LogChnl) : WindowInv (k.setLog ch l) :=
  h.of_sameWire rfl fun _ _ => rfl

theorem txCmd (ch : Chnl) (hnone : k.cmdBox.ready = false → ∀ i, inSyncWindow (k.pc i) = false) :
    WindowInv (mbPhyChnlTxCmd k ch).1 := by
  cases hready : k.cmdBox.ready with
  | true =>
    rw [txCmd_of_occupied hready]
    exact h.of_sameWire rfl fun _ _ => rfl
  | false =>
    rw [txCmd_of_free hready]
    have hout := hnone hready
    refine ⟨?_, ?_⟩
    · intro i hi
      rw [hout i] at hi
      cases hi
    · intro i hi
      have := hout i
      rw [show k.pc i = .syncTrigger from hi] at this
      cases this

theorem setPhyState (state : ChnlState) : WindowInv (k.setPhyState state) :=
  h.of_sameWire rfl fun _ _ => rfl

theorem runTask {i : Fin n} (hwired : Wired k) (hrun : runTask k i = some k')
    (hnone : ∀ ch, k.pc i = .startTx ch → k.phy.txState = .idle →
      k.cmdBox.ready = false → ∀ j, inSyncWindow (k.pc j) = false) : WindowInv k' := by
  cases runTask_cases hrun with
  | copy | mark => exact (h.setLog _ _).setPc_outside i rfl
  | @startTx ch hpc =>
    have hstart : WindowInv (mbPhyChnlStartTx k ch) :=
      startTx_keeps (fun _ state hk => hk.setPhyState state)
        (fun hidle hk => hk.txCmd ch (hnone ch hpc hidle)) h
    exact hstart.setPc_outside i rfl
  | syncOccupied => exact h
  | syncFree _ hfree =>
    refine ⟨?_, ?_⟩
    · intro j _ hready
      have hready' : k.cmdBox.ready = true := hready
      rw [hfree] at hready'
      cases hready'
    · intro j hj
      by_cases hji : j = i
      · rw [hji] at hj
        simp [Core.setPc] at hj
      · simp only [Core.setPc, update_of_ne hji] at hj
        exact h.written j hj
  | @syncWrite data hpc =>
    have hsync := (hwired.writing i data hpc).2
    exact ⟨fun _ _ _ => hsync, fun _ _ => hsync⟩
  | syncTrigger hpc =>
    have hsync := h.written i hpc
    exact ⟨fun _ _ _ => hsync, fun _ _ => hsync⟩

theorem handled (hk : Handled k data k')
    (hnone : data.hdr.ackBox = true → ackMatches k data = true → (waitingChnl k).isSome = true →
      k.cmdBox.ready = false → ∀ j, inSyncWindow (k.pc j) = false) : WindowInv k' := by
  cases hk with
  | ack hack hmatch =>
    have hbox := (sameWire_noteDone { k with isr := none } data).cmdBox
    have hdone : WindowInv (noteDone { k with isr := none } data) :=
      h.of_sameWire hbox fun _ _ => by rw [noteDone_pc]
    refine sendNext_keeps (fun _ state hk => hk.setPhyState state)
      (fun ch hwait => hdone.txCmd ch ?_) hdone
    rw [hbox, noteDone_pc]
    rw [waitingChnl_noteDone] at hwait
    exact hnone hack hmatch (Option.isSome_iff_exists.mpr ⟨ch, hwait⟩)
  | fault | sync | refused | answered => exact h.of_sameWire rfl fun _ _ => rfl

end

theorem localStep (h : WindowInv (s.core c)) (hwired : Wired (s.core c))
    (hstep : LocalStep c (s.core c) e k) (hok : SyncUndisturbed s e) : WindowInv k := by
  cases hstep.core with
  | refused => exact h
  | setup => exact h.setLog _ _
  | write => exact (h.setLog _ _).setPc_outside _ rfl
  | writeSync => exact h.setPc_outside _ rfl
  | run hrun =>
    refine h.runTask hwired hrun fun ch hpc hidle => hok c ?_
    simp only [txCmdCaller, hpc, hidle, if_true]
  | handle hisr hk =>
    refine h.handled hk fun hack hmatch hwait => hok c ?_
    simp only [txCmdCaller, hisr, hack, hmatch, hwait, Bool.and_self, if_true]

end WindowInv

theorem Outstanding.keep_other (h : Outstanding core c.other)
    (hisr : isrCmd k.isr = isrCmd (core c).isr) (hack : boxAck k.ackBox = boxAck (core c).ackBox) :
    Outstanding (update core c k) c.other := by
  have hflight : inFlight (update core c k) c.other = inFlight core c.other := by
    rw [inFlight_update_other, hisr, hack, inFlight, other_other]
  refine ⟨?_, ?_⟩
  · rw [hflight, update_other]
    exact h.count
  · rw [hflight, update_other]
    exact h.matching

theorem Outstanding.keep_self (h : Outstanding core c) (hphy : k.phy = (core c).phy)
    (hcmd : boxCmd k.cmdBox = boxCmd (core c).cmdBox) (hisr : isrAck k.isr = isrAck (core c).isr) :
    Outstanding (update core c k) c := by
  have hflight : inFlight (update core c k) c = inFlight core c := by
    rw [inFlight_update_self, hcmd, hisr, inFlight]
  refine ⟨?_, ?_⟩
  · rw [hflight, update_self, hphy]
    exact h.count
  · rw [hflight, update_self]
    simp only [ackMatches, hphy]
    exact h.matching

theorem Outstanding.of_sameWire (h : ∀ d, Outstanding core d) (hwire : SameWire (core c) k)
    (d : Cpu) : Outstanding (update core c k) d := by
  revert d
  refine forall_cpu (c := c) ?_ ?_
  · exact (h c).keep_self hwire.phy (by rw [hwire.cmdBox]) (by rw [hwire.isr])
  · exact (h c.other).keep_other (by rw [hwire.isr]) (by rw [hwire.ackBox])

structure Clear (core : Cpu → Core n) (c : Cpu) (k : Core n) : Prop where
  peerIsr : isrCmd (core c.other).isr = []
  peerBox : boxAck (core c.other).ackBox = []
  isr : isrAck k.isr = []

theorem Clear.inFlight_eq (h : Clear core c k) :
    inFlight (update core c k) c = boxCmd k.cmdBox := by
  rw [inFlight_update_self, h.peerIsr, h.peerBox, h.isr]
  simp

theorem Clear.outstanding_idle (h : Clear core c k) (hidle : k.phy.txState = .idle)
    (hcmd : boxCmd k.cmdBox = []) : Outstanding (update core c k) c := by
  refine ⟨?_, ?_⟩
  · rw [h.inFlight_eq, hcmd, update_self, hidle]
    rfl
  · rw [h.inFlight_eq, hcmd]
    intro m hm
    cases hm

theorem Clear.outstanding_sent {ch : Chnl} (h : Clear core c k) (hbusy : k.phy.txState = .busy)
    (hfree : k.cmdBox.ready = false) : Outstanding (update core c (mbPhyChnlTxCmd k ch).1) c := by
  rw [txCmd_of_free hfree]
  have hclear : Clear core c { k with
      phy := { k.phy with txSeq := (k.phy.txSeq + 1) % 256, txLogChnlId := ch }
      log := update k.log ch { k.log ch with txBuff := txData k ch, txState := .idle }
      cmdBox := ⟨true, txData k ch⟩
      notes := .sent ch (txData k ch).tag :: k.notes } := { h with }
  have hbox : boxCmd ⟨true, txData k ch⟩ = [txData k ch] := rfl
  refine ⟨?_, ?_⟩
  · rw [hclear.inFlight_eq, update_self]
    simp only [hbox, hbusy]
    rfl
  · rw [hclear.inFlight_eq, update_self]
    simp only [hbox, mem_singleton]
    rintro m rfl
    simp [ackMatches, txData]

theorem Outstanding.congr {k' : Core n} (h : ∀ d, Outstanding (update core c k) d)
    (hwire : SameWire k k') (d : Cpu) : Outstanding (update core c k') d := by
  have hsame : SameWire (update core c k c) k' := by
    rw [update_self]
    exact hwire
  have hout := Outstanding.of_sameWire h hsame d
  rw [update_idem] at hout
  exact hout

theorem Outstanding.startTx (c : Cpu) (ch : Chnl) (h : ∀ d, Outstanding core d) (d : Cpu) :
    Outstanding (update core c (mbPhyChnlStartTx (core c) ch)) d := by
  rcases startTx_cases (core c) ch with ⟨-, heq⟩ | ⟨hidle, hready, heq⟩ | ⟨hidle, hready, heq⟩
  · rw [heq, update_eq_self]
    exact h d
  all_goals
    have hempty : inFlight core c = [] := by
      have hcount := (h c).count
      rw [hidle] at hcount
      exact length_eq_zero_iff.mp hcount
    simp only [inFlight, append_eq_nil_iff] at hempty
    obtain ⟨⟨⟨hcmd, hpeer⟩, hbox⟩, hisr⟩ := hempty
    rw [heq]
    revert d
  · -- the box is occupied by a synchronous command
    have hocc : ((core c).setPhyState .busy).cmdBox.ready = true := hready
    rw [txCmd_of_occupied hocc]
    refine forall_cpu (c := c) ?_ ?_
    · exact Clear.outstanding_idle ⟨hpeer, hbox, hisr⟩ rfl hcmd
    · exact (h c.other).keep_other rfl rfl
  · have hfree : ((core c).setPhyState .busy).cmdBox.ready = false := hready
    have hclear : Clear core c ((core c).setPhyState .busy) := ⟨hpeer, hbox, hisr⟩
    refine forall_cpu (c := c) ?_ ?_
    · exact hclear.outstanding_sent rfl hfree
    · rw [txCmd_of_free hfree]
      exact (h c.other).keep_other rfl rfl

theorem Outstanding.ack_alone (h : Outstanding core c) (hisr : (core c).isr = some data)
    (hack : data.hdr.ackBox = true) :
    (core c).phy.txState = .busy ∧ ackMatches (core c) data = true ∧
      boxCmd (core c).cmdBox = [] ∧ isrCmd (core c.other).isr = [] ∧
      boxAck (core c.other).ackBox = [] := by
  have hread : isrAck (core c).isr = [data] := by simp [hisr, isrAck, hack]
  have hcount := h.count
  simp only [inFlight, hread, length_append, length_singleton] at hcount
  have hbusy : (core c).phy.txState = .busy := by
    cases hphy : (core c).phy.txState with
    | busy => rfl
    | idle =>
      rw [hphy, busyCount] at hcount
      omega
  rw [hbusy, busyCount] at hcount
  refine ⟨hbusy, h.matching data ?_, ?_, ?_, ?_⟩
  · simp [inFlight, hread]
  all_goals
    apply length_eq_zero_iff.mp
    omega

theorem Outstanding.sendNext (hother : Outstanding core c.other) (hclear : Clear core c k)
    (hbusy : k.phy.txState = .busy) (hcmd : boxCmd k.cmdBox = [])
    (hisr : isrCmd k.isr = isrCmd (core c).isr) (hack : k.ackBox = (core c).ackBox) (d : Cpu) :
    Outstanding (update core c (sendNext k)) d := by
  revert d
  rcases sendNext_cases k with ⟨-, heq⟩ | ⟨ch, -, ⟨hready, heq⟩ | ⟨hready, heq⟩⟩
  · rw [heq]
    refine forall_cpu (c := c) ?_ ?_
    · exact Clear.outstanding_idle { hclear with } rfl hcmd
    · exact hother.keep_other hisr (congrArg boxAck hack)
  · rw [heq, txCmd_of_occupied hready]
    refine forall_cpu (c := c) ?_ ?_
    · exact Clear.outstanding_idle { hclear with } rfl hcmd
    · exact hother.keep_other hisr (congrArg boxAck hack)
  · rw [heq]
    refine forall_cpu (c := c) ?_ ?_
    · exact hclear.outstanding_sent hbusy hready
    · rw [txCmd_of_free hready]
      exact hother.keep_other hisr (congrArg boxAck hack)

theorem Outstanding.acknowledge {ack : MailboxData} (h : Outstanding core c.other)
    (hread : isrCmd (core c).isr = [data]) (hfree : boxAck (core c).ackBox = [])
    (hisr : isrCmd k.isr = []) (hsent : boxAck k.ackBox = [ack])
    (hchnl : ack.hdr.logicalChnl = data.hdr.logicalChnl) (hseq : ack.hdr.txSeq = data.hdr.txSeq) :
    Outstanding (update core c k) c.other := by
  have hcount := h.count
  have hmatching := h.matching
  simp only [inFlight, other_other, hread, hfree] at hcount hmatching
  refine ⟨?_, ?_⟩
  · rw [inFlight_update_other, hisr, hsent, update_other, ← hcount]
    simp
  · rw [inFlight_update_other, hisr, hsent, update_other]
    intro m hm
    simp only [append_nil, mem_append, mem_singleton] at hm
    rcases hm with (hm | rfl) | hm
    · exact hmatching m (by simp [hm])
    · have hdata := hmatching data (by simp)
      simp only [ackMatches, hchnl, hseq] at hdata ⊢
      exact hdata
    · exact hmatching m (by simp [hm])

theorem Outstanding.ackBox_free (h : Outstanding core c.other)
    (hread : isrCmd (core c).isr = [data]) : (core c).ackBox.ready = false := by
  have hcount := h.count
  simp only [inFlight, other_other, hread, length_append, length_singleton] at hcount
  have hle : busyCount (core c.other).phy.txState ≤ 1 := by
    cases (core c.other).phy.txState <;> decide
  cases hready : (core c).ackBox.ready with
  | false => rfl
  | true =>
    have hone : (boxAck (core c).ackBox).length = 1 := by simp [boxAck, hready]
    omega

section

variable (h : ∀ d, Outstanding core d)
include h

theorem Outstanding.handled (hisr : (core c).isr = some data) (hk : Handled (core c) data k)
    (d : Cpu) : Outstanding (update core c k) d := by
  cases hk with
  | ack hack =>
    obtain ⟨hbusy, -, hcmd, hpeer, hbox⟩ := (h c).ack_alone hisr hack
    have hwire := sameWire_noteDone { core c with isr := none } data
    refine Outstanding.sendNext (h c.other) ⟨hpeer, hbox, ?_⟩ ?_ ?_ ?_ hwire.ackBox d
    · rw [hwire.isr]
      rfl
    · rw [hwire.phy]
      exact hbusy
    · rw [hwire.cmdBox]
      exact hcmd
    · rw [hwire.isr, hisr]
      simp [isrCmd, hack]
  | fault hack hmatch =>
    have := ((h c).ack_alone hisr hack).2.1
    rw [hmatch] at this
    cases this
  | sync hcmd hsync =>
    revert d
    refine forall_cpu (c := c) ?_ ?_
    · exact (h c).keep_self rfl rfl (by simp [hisr, isrAck, hcmd])
    · exact (h c.other).keep_other (by simp [hisr, isrCmd, hsync]) rfl
  | refused hcmd hsync hready =>
    have hread : isrCmd (core c).isr = [data] := by simp [hisr, isrCmd, hcmd, hsync]
    rw [(h c.other).ackBox_free hread] at hready
    cases hready
  | answered answer hcmd hsync hready =>
    have hread : isrCmd (core c).isr = [data] := by simp [hisr, isrCmd, hcmd, hsync]
    have hfree : boxAck (core c).ackBox = [] := by simp [boxAck, hready]
    revert d
    refine forall_cpu (c := c) ?_ ?_
    · exact (h c).keep_self rfl rfl (by simp [hisr, isrAck, hcmd])
    · exact (h c.other).acknowledge hread hfree rfl rfl rfl rfl

theorem Outstanding.runTask {i : Fin n} (hwired : Wired (core c)) (hwindow : WindowInv (core c))
    (hrun : runTask (core c) i = some k) (d : Cpu) : Outstanding (update core c k) d := by
  cases runTask_cases hrun with
  | copy | mark =>
    refine Outstanding.of_sameWire h ?_ d
    exact ⟨rfl, rfl, rfl, rfl⟩
  | @startTx ch =>
    refine Outstanding.congr (Outstanding.startTx c ch h) ?_ d
    exact ⟨rfl, rfl, rfl, rfl⟩
  | syncOccupied =>
    rw [update_eq_self]
    exact h d
  | syncFree =>
    refine Outstanding.of_sameWire h ?_ d
    exact ⟨rfl, rfl, rfl, rfl⟩
  | @syncWrite data hpc =>
    have hsync := (hwired.writing i data hpc).2
    revert d
    refine forall_cpu (c := c) ?_ ?_
    · refine (h c).keep_self rfl ?_ rfl
      cases hready : (core c).cmdBox.ready with
      | false => simp [boxCmd, Core.setPc, hready]
      | true =>
        have hold := hwindow.window i (by rw [hpc]; rfl) hready
        simp [boxCmd, Core.setPc, hready, hold, hsync]
    · exact (h c.other).keep_other rfl rfl
  | syncTrigger hpc =>
    have hsync := hwindow.written i hpc
    revert d
    refine forall_cpu (c := c) ?_ ?_
    · refine (h c).keep_self rfl ?_ rfl
      simp [boxCmd, Core.setPc, hsync]
    · exact (h c.other).keep_other rfl rfl

theorem Outstanding.localStep (hwired : Wired (core c)) (hwindow : WindowInv (core c))
    (hstep : LocalStep c (core c) e k) (d : Cpu) : Outstanding (update core c k) d := by
  cases hstep.core with
  | refused | setup | write | writeSync =>
    refine Outstanding.of_sameWire h ?_ d
    exact ⟨rfl, rfl, rfl, rfl⟩
  | run hrun => exact Outstanding.runTask h hwired hwindow hrun d
  | handle hisr hk => exact Outstanding.handled h hisr hk d

end

theorem localStep_rxFaultCnt {k' : Core n} (hstep : LocalStep c k e k')
    (hmatch : ∀ data, k.isr = some data → data.hdr.ackBox = true → ackMatches k data = true) :
    k'.phy.rxFaultCnt = k.phy.rxFaultCnt := by
  cases hstep.core with
  | refused | setup | write | writeSync => rfl
  | run hrun =>
    cases runTask_cases hrun with
    | copy | mark => rfl
    | startTx => exact (txFrame_startTx k _).rxFaultCnt
    | syncOccupied | syncFree | syncWrite | syncTrigger => rfl
  | handle hisr hk =>
    rename_i data
    cases hk with
    | ack => exact (txFrame_done { k with isr := none } data).rxFaultCnt
    | fault hack hno =>
      rw [hmatch data hisr hack] at hno
      cases hno
    | sync | refused | answered => rfl

theorem AckInv.receive {s' : System n σ} (h : AckInv s.core)
    (hreceive : mailboxReceive s c = some s') (hwired : ∀ d, Wired (s'.core d)) :
    AckInv s'.core := by
  have hphy : ∀ d, (s'.core d).phy = (s.core d).phy := fun d =>
    (mailboxReceive_fields hreceive d).1
  refine ⟨hwired, ?_, fun d => ⟨?_, ?_⟩, fun d => ?_⟩
  · obtain ⟨-, -, ⟨-, hcore⟩ | ⟨-, -, hcore⟩⟩ := mailboxReceive_core hreceive
    · rw [hcore]
      refine forall_update (forall_update h.windows ⟨?_, ?_⟩) ?_
      · intro i _ hready
        cases hready
      · exact (h.windows c.other).written
      · exact (h.windows c).of_sameWire rfl fun _ _ => rfl
    · rw [hcore]
      refine forall_update (forall_update h.windows ?_) ?_
      · exact (h.windows c.other).of_sameWire rfl fun _ _ => rfl
      · exact (h.windows c).of_sameWire rfl fun _ _ => rfl
  · rw [mailboxReceive_inFlight (h.wired c.other) hreceive, hphy]
    exact (h.outstanding d).count
  · intro m hm
    rw [mailboxReceive_inFlight (h.wired c.other) hreceive] at hm
    unfold ackMatches
    rw [hphy]
    exact (h.outstanding d).matching m hm
  · rw [hphy]
    exact h.no_fault d

theorem step_ackInv {app : App σ} {s' : System n σ} (h : AckInv s.core) (hok : SyncUndisturbed s e)
    (hstep : step app s e = some s') : AckInv s'.core := by
  have hwired := step_wired h.wired hstep
  rcases step_cases hstep with ⟨d, -, hreceive⟩ | ⟨d, k, hlocal, hcore⟩
  · exact h.receive hreceive hwired
  · have hwindow := (h.windows d).localStep (h.wired d) hlocal hok
    have hmatch : ∀ data, (s.core d).isr = some data → data.hdr.ackBox = true →
        ackMatches (s.core d) data = true := fun _ hisr hack =>
      ((h.outstanding d).ack_alone hisr hack).2.1
    have hfault : k.phy.rxFaultCnt = 0 := by
      rw [localStep_rxFaultCnt hlocal hmatch]
      exact h.no_fault d
    rw [hcore] at hwired ⊢
    refine ⟨hwired, forall_update h.windows hwindow,
      Outstanding.localStep h.outstanding (h.wired d) (h.windows d) hlocal, ?_⟩
    exact forall_update (p := fun k => k.phy.rxFaultCnt = 0) h.no_fault hfault

/-- In a run where no asynchronous command falls into the window of a synchronous
write, the acknowledge protocol holds throughout. -/
theorem reached_ackProtocol (app : App σ) (a : σ) {s : System n σ}
    (h : Reached (step app) SyncUndisturbed (System.init n a) s) : AckProtocol s.core := by
  have hinv : AckInv s.core := by
    refine h.invariant (fun s => AckInv s.core) ackInv_init ?_
    intro s e s' hs hok hstep
    exact step_ackInv hs hok hstep
  exact hinv.ackProtocol

-- The asynchronous write follows the synchronous one, and its acknowledge arrives.
theorem reached_ackProtocol_in_turn :
    ∃ s, Reached (step App.echo) SyncUndisturbed (System.init 2 ()) s ∧
      (∃ data ∈ (s.core .master).isr, data.hdr.ackBox = true) ∧ AckProtocol s.core :=
  exists_reached_and (fun _ => reached_ackProtocol App.echo ())
    ([.openChnl .master 0] ++ syncFill .master 0 0 1 ++
      [.run .master 0, .receive .slave, .handle .slave] ++ writeCall .master 1 0 2 ++
      [.receive .slave, .handle .slave, .receive .master])
    (by decide)

-- The command of task 1 is acknowledged, and the trigger of task 0 sends it again.
theorem trigger_resends_command : ¬ ∀ (n : Nat) (σ : Type) (app : App σ) (a : σ) (s : System n σ),
      Reached (step app) anyStep (System.init n a) s → AckProtocol s.core := by
  intro hall
  obtain ⟨s, hreached, htwo⟩ := exists_reached (step App.echo) anyStep (System.init 2 ())
    (fun s => 1 < (inFlight s.core .master).length)
    ([.openChnl .master 0] ++ syncFill .master 0 0 1 ++ writeCall .master 1 0 2 ++
      [.receive .slave, .handle .slave, .run .master 0])
    (by decide)
  have hone := (hall 2 Unit .echo () s hreached).one_unacked .master
  omega

end BekenSoc.MailboxAcks
