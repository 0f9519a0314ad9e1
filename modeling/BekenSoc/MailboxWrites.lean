import BekenSoc.GuardedRuns
import BekenSoc.MailboxFlight

namespace BekenSoc.MailboxWrites

open Function DualCore GuardedRuns MailboxChannel MailboxFlight List

variable {n : Nat} {σ : Type}
variable {k k' : Core n} {ch : Chnl} {tag : Nat} {i : Fin n} {data : MailboxData} {c : Cpu}
  {e : Event n} {core : Cpu → Core n}

/-- No command is transmitted twice, nor after its completion was reported.  The
newest note comes first. -/
def SentOnce (notes : List Note) : Prop :=
  notes.Pairwise fun later earlier => ∀ ch tag, later = .sent ch tag →
    earlier ≠ .sent ch tag ∧ earlier ≠ .done ch tag

def pendingWrite : Pc → Option Chnl
  | .copy ch _ => some ch
  | .mark ch => some ch
  | _ => none

def AsyncOnly : Event n → Prop
  | .writeSync .. => False
  | _ => True

instance : (e : Event n) → Decidable (AsyncOnly e)
  | .writeSync .. => isFalse id
  | .openChnl .. | .closeChnl .. | .setRxIsr .. | .setTxCmplIsr .. | .write .. | .run ..
  | .receive .. | .handle .. => isTrue trivial

/-- The writes of one channel do not overlap between their checks and their mark,
and a transmission that starts on an idle physical channel finds its command
still waiting. -/
def WritesOrderly (s : System n σ) : Event n → Prop
  | .write c _ ch _ _ _ _ => ((s.core c).log ch).inUsed = true →
      ((s.core c).log ch).txState = .idle → ∀ j, pendingWrite ((s.core c).pc j) ≠ some ch
  | .run c i => ∀ ch, (s.core c).pc i = .startTx ch →
      (s.core c).phy.txState = .idle → ((s.core c).log ch).txState = .busy
  | _ => True

instance (s : System n σ) : (e : Event n) → Decidable (WritesOrderly s e)
  | .write .. => inferInstanceAs (Decidable (_ → _ → _))
  | .run .. => inferInstanceAs (Decidable (∀ _ : Chnl, _))
  | .openChnl .. | .closeChnl .. | .setRxIsr .. | .setTxCmplIsr .. | .writeSync ..
  | .receive .. | .handle .. => isTrue trivial

def Noted (k : Core n) (ch : Chnl) (tag : Nat) : Prop :=
  .sent ch tag ∈ k.notes ∨ .done ch tag ∈ k.notes

def Live (k : Core n) (ch : Chnl) (tag : Nat) : Prop :=
  tag + 1 = (k.log ch).writes ∧ ∀ u, Noted k ch u → u < tag

def TaskInv (k : Core n) : Pc → Prop
  | .copy ch data => (k.log ch).txState = .idle ∧ Live k ch data.tag
  | .mark ch => (k.log ch).txState = .idle ∧ Live k ch (k.log ch).txBuff.tag
  | .idle | .startTx _ => True
  | .syncCheck _ | .syncWrite _ | .syncTrigger => False

structure WriteInv (k : Core n) : Prop where
  sentOnce : SentOnce k.notes
  noted : ∀ ch tag, Noted k ch tag → tag < (k.log ch).writes
  busy : ∀ ch, (k.log ch).txState = .busy → Live k ch (k.log ch).txBuff.tag
  tasks : ∀ i, TaskInv k (k.pc i)
  single : ∀ i j ch, pendingWrite (k.pc i) = some ch → pendingWrite (k.pc j) = some ch → i = j

theorem writeInv_init : WriteInv (Core.init n) := by
  refine ⟨.nil, ?_, nofun, fun _ => trivial, nofun⟩
  rintro ch tag (h | h) <;> cases h

theorem Live.congr (h : Live k ch tag) (hwrites : (k'.log ch).writes = (k.log ch).writes)
    (hnoted : ∀ u, Noted k' ch u → Noted k ch u) : Live k' ch tag :=
  ⟨hwrites ▸ h.1, fun u hu => h.2 u (hnoted u hu)⟩

namespace TaskInv

variable {pc : Pc}

theorem idle (h : TaskInv k pc) (hpc : pendingWrite pc = some ch) : (k.log ch).txState = .idle := by
  cases pc with
  | copy | mark =>
    cases hpc
    exact h.1
  | _ => cases hpc

theorem imp (h : TaskInv k pc) (hk : ∀ ch, pendingWrite pc = some ch →
    ((k.log ch).txState = .idle → (k'.log ch).txState = .idle) ∧
      (k'.log ch).txBuff = (k.log ch).txBuff ∧ ∀ tag, Live k ch tag → Live k' ch tag) :
    TaskInv k' pc := by
  cases pc with
  | copy ch =>
    obtain ⟨hidle, -, hlive⟩ := hk ch rfl
    exact ⟨hidle h.1, hlive _ h.2⟩
  | mark ch =>
    obtain ⟨hidle, hbuff, hlive⟩ := hk ch rfl
    rw [TaskInv, hbuff]
    exact ⟨hidle h.1, hlive _ h.2⟩
  | _ => exact h

theorem async (h : TaskInv k pc) : inSyncWrite pc = false := by
  cases pc with
  | syncCheck | syncWrite | syncTrigger => exact h.elim
  | _ => rfl

end TaskInv

structure SameWrites (l l' : LogChnl) : Prop where
  writes : l'.writes = l.writes
  txBuff : l'.txBuff = l.txBuff
  idle : l.txState = .idle → l'.txState = .idle

namespace WriteInv

variable {k k' : Core n}

section

variable (h : WriteInv k)
include h

theorem keep (hlog : ∀ ch, SameWrites (k.log ch) (k'.log ch)) (hpc : k'.pc = k.pc)
    (hnotes : k'.notes = k.notes) : WriteInv k' := by
  have hnoted : ∀ ch u, Noted k' ch u → Noted k ch u := by
    unfold Noted
    rw [hnotes]
    exact fun _ _ => id
  have hlive : ∀ ch tag, Live k ch tag → Live k' ch tag := fun ch _ hl =>
    hl.congr (hlog ch).writes (hnoted ch)
  refine ⟨?_, ?_, ?_, ?_, ?_⟩
  · rw [hnotes]
    exact h.sentOnce
  · intro ch tag htag
    rw [(hlog ch).writes]
    exact h.noted ch tag (hnoted ch tag htag)
  · intro ch hbusy
    rw [(hlog ch).txBuff]
    exact hlive ch _ (h.busy ch (busy_of_idle (hlog ch).idle hbusy))
  · rw [hpc]
    exact fun i => (h.tasks i).imp fun ch _ => ⟨(hlog ch).idle, (hlog ch).txBuff, hlive ch⟩
  · rw [hpc]
    exact h.single

theorem congr (hlog : k'.log = k.log) (hpc : k'.pc = k.pc) (hnotes : k'.notes = k.notes) :
    WriteInv k' := by
  refine h.keep ?_ hpc hnotes
  rw [hlog]
  exact fun _ => ⟨rfl, rfl, id⟩

theorem setPc (i : Fin n) {pc : Pc} (hpc : TaskInv k pc)
    (hnone : ∀ ch, pendingWrite pc = some ch → ∀ j, pendingWrite (k.pc j) ≠ some ch) :
    WriteInv (k.setPc i pc) := by
  refine ⟨h.sentOnce, h.noted, h.busy, ?_, ?_⟩
  · exact (forall_update_iff k.pc fun _ pc => TaskInv k pc).mpr ⟨hpc, fun j _ => h.tasks j⟩
  · intro j l ch hj hl
    simp only [Core.setPc] at hj hl
    rcases eq_or_ne j i with rfl | hji
    · rcases eq_or_ne l j with rfl | hli
      · rfl
      · rw [update_self] at hj
        rw [update_of_ne hli] at hl
        exact absurd hl (hnone ch hj l)
    · rw [update_of_ne hji] at hj
      rcases eq_or_ne l i with rfl | hli
      · rw [update_self] at hl
        exact absurd hj (hnone ch hl j)
      · rw [update_of_ne hli] at hl
        exact h.single j l ch hj hl

theorem setLog_free (ch : Chnl) (l : LogChnl) (hnone : ∀ j, pendingWrite (k.pc j) ≠ some ch)
    (hwrites : (k.log ch).writes ≤ l.writes)
    (hbusy : l.txState = .busy → l.txBuff.tag + 1 = l.writes ∧
      ∀ u, Noted k ch u → u < l.txBuff.tag) : WriteInv (k.setLog ch l) := by
  refine ⟨h.sentOnce, ?_, ?_, ?_, h.single⟩
  · refine (forall_update_iff k.log fun c l => ∀ tag, Noted k c tag → tag < l.writes).mpr
      ⟨fun tag htag => ?_, fun c _ => h.noted c⟩
    exact Nat.lt_of_lt_of_le (h.noted ch tag htag) hwrites
  · exact (forall_update_iff k.log fun c l => l.txState = .busy → l.txBuff.tag + 1 = l.writes ∧
      ∀ u, Noted k c u → u < l.txBuff.tag).mpr ⟨hbusy, fun c _ => h.busy c⟩
  · intro j
    refine (h.tasks j).imp fun c hc => ?_
    have hlog : (k.setLog ch l).log c = k.log c := by
      refine update_of_ne ?_ _ _
      rintro rfl
      exact hnone j hc
    rw [hlog]
    exact ⟨id, rfl, fun _ hl => hl.congr (by rw [hlog]) fun _ => id⟩

theorem none_pending (hbusy : (k.log ch).txState = .busy) (j : Fin n) :
    pendingWrite (k.pc j) ≠ some ch := by
  intro hj
  rw [(h.tasks j).idle hj] at hbusy
  cases hbusy

theorem addSent (hnone : ∀ j, pendingWrite (k.pc j) ≠ some ch) (hidle : (k.log ch).txState = .idle)
    (hnew : ∀ u, Noted k ch u → u < tag) (htag : tag < (k.log ch).writes) :
    WriteInv { k with notes := .sent ch tag :: k.notes } := by
  have hnoted : ∀ c u, Noted { k with notes := .sent ch tag :: k.notes } c u →
      (c = ch ∧ u = tag) ∨ Noted k c u := by
    intro c u hu
    rcases hu with hu | hu
    · rcases mem_cons.mp hu with heq | hmem
      · cases heq
        exact .inl ⟨rfl, rfl⟩
      · exact .inr (.inl hmem)
    · rcases mem_cons.mp hu with heq | hmem
      · cases heq
      · exact .inr (.inr hmem)
  have hlive : ∀ {c t}, c ≠ ch → Live k c t →
      Live { k with notes := .sent ch tag :: k.notes } c t := by
    intro c t hc hl
    refine hl.congr rfl fun u hu => ?_
    exact (hnoted c u hu).resolve_left fun hboth => hc hboth.1
  refine ⟨?_, ?_, ?_, ?_, h.single⟩
  · refine pairwise_cons.mpr ⟨?_, h.sentOnce⟩
    intro earlier hearlier c t heq
    cases heq
    constructor
    · intro hsame
      exact Nat.lt_irrefl _ (hnew tag (.inl (hsame ▸ hearlier)))
    · intro hsame
      exact Nat.lt_irrefl _ (hnew tag (.inr (hsame ▸ hearlier)))
  · intro c u hu
    rcases hnoted c u hu with ⟨rfl, rfl⟩ | hold
    · exact htag
    · exact h.noted c u hold
  · intro c hc
    have hcne : c ≠ ch := by
      intro heq
      rw [heq] at hc
      rw [hidle] at hc
      cases hc
    exact hlive hcne (h.busy c hc)
  · intro j
    refine (h.tasks j).imp fun c hc => ⟨id, rfl, fun _ => hlive ?_⟩
    rintro rfl
    exact hnone j hc

theorem addDone (hsent : .sent ch tag ∈ k.notes) :
    WriteInv { k with notes := .done ch tag :: k.notes } := by
  have hnoted : ∀ c u, Noted { k with notes := .done ch tag :: k.notes } c u → Noted k c u := by
    intro c u hu
    rcases hu with hu | hu
    · rcases mem_cons.mp hu with heq | hmem
      · cases heq
      · exact .inl hmem
    · rcases mem_cons.mp hu with heq | hmem
      · cases heq
        exact .inl hsent
      · exact .inr hmem
  have hlive : ∀ {c t}, Live k c t → Live { k with notes := .done ch tag :: k.notes } c t :=
    fun hl => hl.congr rfl (hnoted _)
  refine ⟨?_, ?_, ?_, ?_, h.single⟩
  · refine pairwise_cons.mpr ⟨?_, h.sentOnce⟩
    intro earlier _ c t heq
    cases heq
  · intro c u hu
    exact h.noted c u (hnoted c u hu)
  · intro c hc
    exact hlive (h.busy c hc)
  · exact fun j => (h.tasks j).imp fun c _ => ⟨id, rfl, fun _ => hlive⟩

theorem txCmd (hbusy : (k.log ch).txState = .busy) : WriteInv (mbPhyChnlTxCmd k ch).1 := by
  have hlive := h.busy ch hbusy
  cases hready : k.cmdBox.ready with
  | true =>
    -- only the header of the waiting command has changed
    have hset := h.setLog_free ch { k.log ch with txBuff := txData k ch }
      (h.none_pending hbusy) (Nat.le_refl _) fun _ => hlive
    rw [txCmd_of_occupied hready]
    exact hset.congr rfl rfl rfl
  | false =>
    have hset := h.setLog_free ch { k.log ch with txBuff := txData k ch, txState := .idle }
      (h.none_pending hbusy) (Nat.le_refl _) fun hb => by cases hb
    have hsent := hset.addSent (h.none_pending hbusy) (by simp [Core.setLog]) hlive.2
      (by simp only [Core.setLog, update_self]; have := hlive.1; omega)
    rw [txCmd_of_free hready]
    exact hsent.congr rfl rfl rfl

theorem setPhyState (state : ChnlState) : WriteInv (k.setPhyState state) :=
  h.congr rfl rfl rfl

theorem startTx (hbusy : k.phy.txState = .idle → (k.log ch).txState = .busy) :
    WriteInv (mbPhyChnlStartTx k ch) :=
  startTx_keeps (fun _ state hk => hk.setPhyState state) (fun hidle hk => hk.txCmd (hbusy hidle)) h

theorem sendNext : WriteInv (sendNext k) :=
  sendNext_keeps (fun _ state hk => hk.setPhyState state)
    (fun _ hwait => h.txCmd (waitingChnl_busy hwait)) h

end

theorem setPc_setPc (k : Core n) (i : Fin n) (pc pc' : Pc) :
    (k.setPc i pc).setPc i pc' = k.setPc i pc' := by
  simp only [Core.setPc, update_idem]

section

variable (h : WriteInv k)
include h

theorem none_pending_of_leave (pc : Pc) (hi : pendingWrite (k.pc i) = some ch)
    (hpc : pendingWrite pc = none) (j : Fin n) : pendingWrite ((k.setPc i pc).pc j) ≠ some ch := by
  intro hj
  by_cases hji : j = i
  · rw [hji] at hj
    simp only [Core.setPc, update_self, hpc] at hj
    cases hj
  · simp only [Core.setPc, update_of_ne hji] at hj
    exact hji (h.single j i ch hj hi)

theorem write (i : Fin n) (cmd p1 p2 p3 : Nat) (hfree : ∀ j, pendingWrite (k.pc j) ≠ some ch)
    (hidle : (k.log ch).txState = .idle) :
    WriteInv ((k.setLog ch { k.log ch with writes := (k.log ch).writes + 1 }).setPc i
      (.copy ch (written ch cmd p1 p2 p3 (k.log ch).writes))) := by
  have hset := h.setLog_free ch
    { k.log ch with writes := (k.log ch).writes + 1 } hfree (Nat.le_succ _)
    fun hb => by rw [hidle] at hb; cases hb
  refine hset.setPc i ⟨?_, ?_, ?_⟩ ?_
  · simpa [Core.setLog] using hidle
  · simp [Core.setLog, written]
  · exact fun u hu => h.noted ch u hu
  · rintro _ ⟨⟩
    exact hfree

theorem copy (hpc : k.pc i = .copy ch data) :
    WriteInv ((k.setLog ch { k.log ch with txBuff := data }).setPc i (.mark ch)) := by
  have htask := h.tasks i
  rw [hpc] at htask
  obtain ⟨hidle, hlive⟩ := htask
  have hleft : WriteInv (k.setPc i .idle) := h.setPc i trivial nofun
  have hfree := h.none_pending_of_leave .idle (congrArg pendingWrite hpc) rfl
  have hset := hleft.setLog_free ch { k.log ch with txBuff := data } hfree
    (Nat.le_refl _) fun hb => by rw [hidle] at hb; cases hb
  rw [← setPc_setPc (k.setLog ch { k.log ch with txBuff := data }) i .idle (.mark ch)]
  refine hset.setPc i ?_ ?_
  · simpa [TaskInv, Live, Noted, Core.setLog, Core.setPc] using ⟨hidle, hlive⟩
  · rintro _ ⟨⟩
    exact hfree

theorem mark (hpc : k.pc i = .mark ch) :
    WriteInv ((k.setLog ch { k.log ch with txState := .busy }).setPc i (.startTx ch)) := by
  have htask := h.tasks i
  rw [hpc] at htask
  have hleft : WriteInv (k.setPc i (.startTx ch)) := h.setPc i trivial nofun
  have hfree := h.none_pending_of_leave (.startTx ch) (congrArg pendingWrite hpc) rfl
  exact hleft.setLog_free ch { k.log ch with txState := .busy } hfree (Nat.le_refl _)
    fun _ => htask.2

theorem runTask (hrun : runTask k i = some k')
    (hstart : ∀ ch, k.pc i = .startTx ch → k.phy.txState = .idle → (k.log ch).txState = .busy) :
    WriteInv k' := by
  have htask := h.tasks i
  cases runTask_cases hrun with
  | copy hpc => exact h.copy hpc
  | mark hpc => exact h.mark hpc
  | @startTx ch hpc => exact (h.startTx (hstart ch hpc)).setPc i trivial nofun
  | syncOccupied hpc | syncFree hpc | syncWrite hpc | syncTrigger hpc =>
    rw [hpc] at htask
    exact htask.elim

theorem handled (hk : Handled k data k')
    (hsent : data.hdr.ackBox = true → .sent data.hdr.logicalChnl data.tag ∈ k.notes) :
    WriteInv k' := by
  have hread : WriteInv { k with isr := none } := h.congr rfl rfl rfl
  cases hk with
  | ack hack =>
    refine sendNext ?_
    unfold noteDone
    split
    · exact hread.addDone (hsent hack)
    · exact hread
  | fault | sync | refused | answered => exact h.congr rfl rfl rfl

theorem setFlags (ch : Chnl) {l : LogChnl} (hl : SameWrites (k.log ch) l) :
    WriteInv (k.setLog ch l) := by
  refine h.keep ?_ rfl rfl
  exact (forall_update_iff k.log fun c l => SameWrites (k.log c) l).mpr
    ⟨hl, fun _ _ => ⟨rfl, rfl, id⟩⟩

theorem localStep (hstep : LocalStep c k e k') (hasync : AsyncOnly e)
    (hwrite : ∀ i ch cmd p1 p2 p3, e = .write c i ch cmd p1 p2 p3 → (k.log ch).inUsed = true →
      (k.log ch).txState = .idle → ∀ j, pendingWrite (k.pc j) ≠ some ch)
    (hstart : ∀ i ch, e = .run c i → k.pc i = .startTx ch → k.phy.txState = .idle →
      (k.log ch).txState = .busy) (hsent : ∀ data, k.isr = some data → data.hdr.ackBox = true →
      .sent data.hdr.logicalChnl data.tag ∈ k.notes) : WriteInv k' := by
  cases hstep.core with
  | refused => exact h
  | setup _ hwrites hbuff hidle => exact h.setFlags _ ⟨hwrites, hbuff, hidle⟩
  | @write i ch cmd p1 p2 p3 _ hused hidle =>
    exact h.write i cmd p1 p2 p3 (hwrite i ch cmd p1 p2 p3 rfl hused hidle) hidle
  | writeSync => exact hasync.elim
  | @run i _ hrun => exact h.runTask hrun fun ch => hstart i ch rfl
  | handle hisr hk => exact h.handled hk (hsent _ hisr)

end

end WriteInv

def FlightNoted (core : Cpu → Core n) : Prop :=
  ∀ c, ∀ m ∈ inFlight core c, .sent m.hdr.logicalChnl m.tag ∈ (core c).notes

theorem FlightNoted.setCore (h : FlightNoted core) (hnotes : ∀ x ∈ (core c).notes, x ∈ k.notes)
    (hcmd : ∀ m ∈ boxCmd k.cmdBox, .sent m.hdr.logicalChnl m.tag ∈ k.notes)
    (hisrAck : ∀ m ∈ isrAck k.isr, m ∈ isrAck (core c).isr)
    (hisrCmd : ∀ m ∈ isrCmd k.isr, m ∈ isrCmd (core c).isr)
    (hack : ∀ m ∈ boxAck k.ackBox, .sent m.hdr.logicalChnl m.tag ∈ (core c.other).notes) :
    FlightNoted (update core c k) := by
  refine forall_cpu (c := c) ?_ ?_
  · intro m hm
    rw [inFlight_update_self] at hm
    rw [update_self]
    simp only [mem_append] at hm
    have hflight := h c m
    simp only [inFlight, mem_append] at hflight
    rcases hm with ((hm | hm) | hm) | hm
    · exact hcmd m hm
    · exact hnotes _ (hflight (.inl (.inl (.inr hm))))
    · exact hnotes _ (hflight (.inl (.inr hm)))
    · exact hnotes _ (hflight (.inr (hisrAck m hm)))
  · intro m hm
    rw [inFlight_update_other] at hm
    rw [update_other]
    simp only [mem_append] at hm
    have hflight := h c.other m
    simp only [inFlight, mem_append, other_other] at hflight
    rcases hm with ((hm | hm) | hm) | hm
    · exact hflight (.inl (.inl (.inl hm)))
    · exact hflight (.inl (.inl (.inr (hisrCmd m hm))))
    · exact hack m hm
    · exact hflight (.inr hm)

structure Transmitted (k k' : Core n) : Prop where
  notes : ∀ x ∈ k.notes, x ∈ k'.notes
  cmd : ∀ m ∈ boxCmd k'.cmdBox, .sent m.hdr.logicalChnl m.tag ∈ k'.notes
  ackBox : k'.ackBox = k.ackBox
  isr : k'.isr = k.isr

theorem Transmitted.txCmd (h : Transmitted k k') (ch : Chnl) :
    Transmitted k (mbPhyChnlTxCmd k' ch).1 := by
  cases hready : k'.cmdBox.ready with
  | true =>
    rw [txCmd_of_occupied hready]
    exact { h with }
  | false =>
    rw [txCmd_of_free hready]
    refine ⟨fun x hx => mem_cons_of_mem _ (h.notes x hx), ?_, h.ackBox, h.isr⟩
    intro m hm
    have hm' : m = txData k' ch := by simpa [boxCmd, txData] using hm
    rw [hm']
    exact mem_cons_self

theorem Transmitted.setPhyState (h : Transmitted k k') (state : ChnlState) :
    Transmitted k (k'.setPhyState state) :=
  { h with }

section

variable (h : FlightNoted core)
include h

theorem FlightNoted.boxCmd_noted (c : Cpu) : ∀ m ∈ boxCmd (core c).cmdBox,
      .sent m.hdr.logicalChnl m.tag ∈ (core c).notes := by
  intro m hm
  refine h c m ?_
  simp only [inFlight, mem_append]
  exact .inl (.inl (.inl hm))

theorem FlightNoted.isrAck_noted (c : Cpu) : ∀ m ∈ isrAck (core c).isr,
      .sent m.hdr.logicalChnl m.tag ∈ (core c).notes := by
  intro m hm
  refine h c m ?_
  simp only [inFlight, mem_append]
  exact .inr hm

theorem FlightNoted.isrCmd_noted (c : Cpu) : ∀ m ∈ isrCmd (core c).isr,
      .sent m.hdr.logicalChnl m.tag ∈ (core c.other).notes := by
  intro m hm
  refine h c.other m ?_
  simp only [inFlight, mem_append, other_other]
  exact .inl (.inl (.inr hm))

theorem FlightNoted.boxAck_noted (c : Cpu) : ∀ m ∈ boxAck (core c).ackBox,
      .sent m.hdr.logicalChnl m.tag ∈ (core c.other).notes := by
  intro m hm
  refine h c.other m ?_
  simp only [inFlight, mem_append, other_other]
  exact .inl (.inr hm)

theorem FlightNoted.of_transmitted (ht : Transmitted (core c) k) :
    FlightNoted (update core c k) := by
  refine h.setCore ht.notes ht.cmd ?_ ?_ ?_
  · rw [ht.isr]
    exact fun _ => id
  · rw [ht.isr]
    exact fun _ => id
  · rw [ht.ackBox]
    exact h.boxAck_noted c

theorem FlightNoted.of_sameWire (hwire : SameWire (core c) k) (hnotes : k.notes = (core c).notes) :
    FlightNoted (update core c k) := by
  refine h.of_transmitted ⟨?_, ?_, hwire.ackBox, hwire.isr⟩
  · rw [hnotes]
    exact fun _ => id
  · rw [hnotes, hwire.cmdBox]
    exact h.boxCmd_noted c

theorem FlightNoted.of_read (hnotes : ∀ x ∈ (core c).notes, x ∈ k.notes) (hisr : k.isr = none)
    (hcmd : ∀ m ∈ boxCmd k.cmdBox, .sent m.hdr.logicalChnl m.tag ∈ k.notes)
    (hack : ∀ m ∈ boxAck k.ackBox, .sent m.hdr.logicalChnl m.tag ∈ (core c.other).notes) :
    FlightNoted (update core c k) := by
  refine h.setCore hnotes hcmd ?_ ?_ hack
  · rw [hisr]
    intro m hm
    cases hm
  · rw [hisr]
    intro m hm
    cases hm

theorem FlightNoted.handled (hisr : (core c).isr = some data) (hk : Handled (core c) data k) :
    FlightNoted (update core c k) := by
  have hcmds := h.boxCmd_noted c
  have hacks := h.boxAck_noted c
  cases hk with
  | ack =>
    have hdone : Transmitted { core c with isr := none }
        (noteDone { core c with isr := none } data) := by
      unfold noteDone
      split
      · exact ⟨fun x hx => mem_cons_of_mem _ hx,
          fun m hm => mem_cons_of_mem _ (hcmds m hm), rfl, rfl⟩
      · exact ⟨fun _ => id, hcmds, rfl, rfl⟩
    have hnext : Transmitted { core c with isr := none }
        (sendNext (noteDone { core c with isr := none } data)) :=
      sendNext_keeps (fun _ state ht => ht.setPhyState state) (fun ch _ => hdone.txCmd ch) hdone
    refine h.of_read hnext.notes hnext.isr hnext.cmd ?_
    rw [hnext.ackBox]
    exact hacks
  | fault | sync | refused => exact h.of_read (fun _ => id) rfl hcmds hacks
  | answered answer hcmd hsync =>
    refine h.of_read (fun _ => id) rfl hcmds ?_
    intro m hm
    have hm' : m = ackOf { core c with isr := none } data answer := by simpa [boxAck] using hm
    rw [hm']
    refine h.isrCmd_noted c data ?_
    rw [hisr]
    simp [isrCmd, hcmd, hsync]

theorem FlightNoted.localStep (hstep : LocalStep c (core c) e k) (hinv : WriteInv (core c))
    (hasync : AsyncOnly e) : FlightNoted (update core c k) := by
  cases hstep.core with
  | refused | setup | write => exact h.of_sameWire ⟨rfl, rfl, rfl, rfl⟩ rfl
  | writeSync => exact hasync.elim
  | @run i _ hrun =>
    have htask := hinv.tasks i
    cases runTask_cases hrun with
    | copy | mark => exact h.of_sameWire ⟨rfl, rfl, rfl, rfl⟩ rfl
    | @startTx ch =>
      have hkeep : Transmitted (core c) (core c) := ⟨fun _ => id, h.boxCmd_noted c, rfl, rfl⟩
      have hstart : Transmitted (core c) (mbPhyChnlStartTx (core c) ch) :=
        startTx_keeps (fun _ state ht => ht.setPhyState state) (fun _ ht => ht.txCmd ch) hkeep
      exact h.of_transmitted { hstart with }
    | syncOccupied hpc | syncFree hpc | syncWrite hpc | syncTrigger hpc =>
      rw [hpc] at htask
      exact htask.elim
  | handle hisr hk => exact h.handled hisr hk

end

structure SystemInv (core : Cpu → Core n) : Prop where
  wired : ∀ c, Wired (core c)
  writes : ∀ c, WriteInv (core c)
  flight : FlightNoted core

theorem systemInv_init : SystemInv fun _ => Core.init n := by
  refine ⟨fun _ => wired_init, fun _ => writeInv_init, ?_⟩
  intro c m hm
  cases hm

theorem step_systemInv {app : App σ} {s s' : System n σ} (h : SystemInv s.core)
    (hasync : AsyncOnly e) (hok : WritesOrderly s e) (hstep : step app s e = some s') :
    SystemInv s'.core := by
  refine ⟨step_wired h.wired hstep, ?_, ?_⟩
  · rcases step_cases hstep with ⟨c, -, hreceive⟩ | ⟨c, k, hlocal, hcore⟩
    · exact mailboxReceive_keeps
        (fun _ _ _ hlog hpc hnotes hk => hk.congr hlog hpc hnotes) h.writes hreceive
    · rw [hcore]
      refine forall_update h.writes ((h.writes c).localStep hlocal hasync ?_ ?_ ?_)
      · intro i ch cmd p1 p2 p3 he
        rw [he] at hok
        exact hok
      · intro i ch he
        rw [he] at hok
        exact hok ch
      · intro data hisr hack
        refine h.flight.isrAck_noted c data ?_
        rw [hisr]
        simp [isrAck, hack]
  · rcases step_cases hstep with ⟨c, -, hreceive⟩ | ⟨c, k, hlocal, hcore⟩
    · have hsame := mailboxReceive_inFlight (h.wired c.other) hreceive
      intro d m hm
      rw [hsame] at hm
      rw [(mailboxReceive_fields hreceive _).2.2.2]
      exact h.flight d m hm
    · rw [hcore]
      exact h.flight.localStep hlocal (h.writes c) hasync

/-- In an orderly run of asynchronous writes no command is transmitted twice, and
none after its completion. -/
theorem reached_sentOnce (app : App σ) (a : σ) {s : System n σ}
    (h : Reached (step app) (fun s e => AsyncOnly e ∧ WritesOrderly s e)
      (System.init n a) s) (c : Cpu) : SentOnce (s.core c).notes := by
  have hinv : SystemInv s.core := h.invariant (fun s => SystemInv s.core) systemInv_init
      fun _ _ _ hs hok hstep => step_systemInv hs hok.1 hok.2 hstep
  exact (hinv.writes c).sentOnce

def markedWrite {n : Nat} (i : Fin n) (ch : Chnl) : List (Event n) :=
  [.write .master i ch 1 0 0 0, .run .master i, .run .master i]

def acknowledged {n : Nat} : List (Event n) :=
  [.receive .slave, .handle .slave, .receive .master, .handle .master]

-- Two commands on two channels, the second sent by the acknowledge interrupt.
theorem reached_sentOnce_two_channels :
    ∃ s, Reached (step .echo) (fun s e => AsyncOnly e ∧ WritesOrderly s e) (.init 2 ()) s ∧
      (s.core .master).notes = [.sent 1 0, .sent 0 0] ∧ SentOnce (s.core .master).notes :=
  exists_reached_and (fun _ h => reached_sentOnce .echo () h .master)
    ([.openChnl .master 0, .openChnl .master 1] ++ markedWrite 0 0 ++
      [.run .master 0] ++ markedWrite 1 1 ++ acknowledged ++ [.run .master 1])
    (by decide)

-- The command on channel 1 is sent by the acknowledge interrupt and completed
-- before its own write gets to start the transmission, which sends it again.
theorem delayed_start_retransmits : ¬ ∀ (n : Nat) (σ : Type) (app : App σ) (a : σ) (s : System n σ),
      Reached (step app) (fun _ e => AsyncOnly e) (System.init n a) s →
      ∀ c, SentOnce (s.core c).notes := by
  intro hall
  obtain ⟨s, hreached, hnotes⟩ := exists_reached (step .echo) (fun _ e => AsyncOnly e) (.init 2 ())
    (fun s => (s.core .master).notes = [.sent 1 0, .done 1 0, .sent 1 0, .sent 0 0])
    ([.openChnl .master 0, .openChnl .master 1, .setTxCmplIsr .master 1 true] ++
      markedWrite 0 0 ++ [.run .master 0] ++ markedWrite 1 1 ++
      acknowledged ++ acknowledged ++ [.run .master 1])
    (by decide)
  have honce := hall 2 Unit .echo () s hreached .master
  rw [hnotes] at honce
  have hfirst := (pairwise_cons.mp honce).1 (.done 1 0) (by simp)
  exact (hfirst 1 0 rfl).2 rfl

end BekenSoc.MailboxWrites
