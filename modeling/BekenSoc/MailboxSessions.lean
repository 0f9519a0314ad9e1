import BekenSoc.MailboxAcks
import BekenSoc.MailboxWrites

namespace BekenSoc.MailboxSessions

open Function DualCore GuardedRuns MailboxChannel MailboxFlight MailboxWrites MailboxAcks List

variable {n : Nat} {σ : Type}
variable {k k' : Core n} {ch : Chnl} {i : Fin n} {data : MailboxData} {d : Cpu} {e : Event n}

structure Callback where
  ch : Chnl
  tag : Nat
  session : Nat
  deriving DecidableEq

/-- The system and an observer, who counts the sessions of every channel, notes the session
of every accepted write, and lists the completion callbacks, the newest first. -/
structure Observed (n : Nat) (σ : Type) where
  sys : System n σ
  opened : Cpu → Chnl → Nat
  wrote : Cpu → Chnl → List Nat
  callbacks : Cpu → List Callback

def Observed.init (n : Nat) (a : σ) : Observed n σ where
  sys := System.init n a
  opened _ _ := 0
  wrote _ _ := []
  callbacks _ := []

def opensSession (s : System n σ) (c : Cpu) (ch : Chnl) : Event n → Bool
  | .openChnl d ch' => decide (d = c ∧ ch' = ch ∧ ((s.core c).log ch).inUsed = false)
  | _ => false

def acceptsWrite (s : System n σ) (c : Cpu) (ch : Chnl) : Event n → Bool
  | .write d _ ch' _ _ _ _ => decide (d = c ∧ ch' = ch ∧
      ((s.core c).log ch).inUsed = true ∧ ((s.core c).log ch).txState = .idle)
  | _ => false

def callbackOf (r : Observed n σ) (c : Cpu) : Event n → List Callback
  | .handle d =>
    if d = c then
      match (r.sys.core c).isr with
      | none => []
      | some data =>
        if data.hdr.ackBox && ackMatches (r.sys.core c) data &&
            ((r.sys.core c).log data.hdr.logicalChnl).txCmplIsr then
          [⟨data.hdr.logicalChnl, data.tag, r.opened c data.hdr.logicalChnl⟩]
        else []
    else []
  | _ => []

def Observed.after (r : Observed n σ) (e : Event n) (s : System n σ) : Observed n σ where
  sys := s
  opened c ch := r.opened c ch + (opensSession r.sys c ch e).toNat
  wrote c ch :=
    if acceptsWrite r.sys c ch e then r.wrote c ch ++ [r.opened c ch] else r.wrote c ch
  callbacks c := callbackOf r c e ++ r.callbacks c

def observe (app : App σ) (r : Observed n σ) (e : Event n) : Option (Observed n σ) :=
  (step app r.sys e).map (r.after e)

/-- Every completion callback reports a command that was written in the same session, and
no command is reported twice. -/
structure SessionSound (r : Observed n σ) : Prop where
  same : ∀ c, ∀ x ∈ r.callbacks c, (r.wrote c x.ch)[x.tag]? = some x.session
  once : ∀ c, (r.callbacks c).Pairwise fun x y => ¬ (x.ch = y.ch ∧ x.tag = y.tag)

def Waiting (k : Core n) (ch : Chnl) : Prop :=
  (k.log ch).txState = .busy ∨ ∃ i, pendingWrite (k.pc i) = some ch

instance (k : Core n) (ch : Chnl) : Decidable (Waiting k ch) := inferInstanceAs (Decidable (_ ∨ _))

/-- Whatever is under way on the channel was written in the session that is open. -/
def SessionSettled (core : Cpu → Core n) (c : Cpu) (opened : Nat) (wrote : List Nat)
    (ch : Chnl) : Prop :=
  (Waiting (core c) ch → wrote.getLast? = some opened) ∧
    ∀ m ∈ inFlight core c, m.hdr.logicalChnl = ch → wrote[m.tag]? = some opened

instance (core : Cpu → Core n) (c : Cpu) (opened : Nat) (wrote : List Nat) (ch : Chnl) :
    Decidable (SessionSettled core c opened wrote ch) :=
  inferInstanceAs (Decidable (_ ∧ _))

/-- A completion callback is set only when nothing of an earlier session is under way. -/
def CallbackSettled (r : Observed n σ) : Event n → Prop
  | .setTxCmplIsr c ch isr => isr = true → ((r.sys.core c).log ch).inUsed = true →
      SessionSettled r.sys.core c (r.opened c ch) (r.wrote c ch) ch
  | _ => True

instance (r : Observed n σ) : (e : Event n) → Decidable (CallbackSettled r e)
  | .setTxCmplIsr .. => inferInstanceAs (Decidable (_ → _ → _))
  | .openChnl .. | .closeChnl .. | .setRxIsr .. | .write .. | .writeSync .. | .run ..
  | .receive .. | .handle .. => isTrue trivial

def FromBuffer (k : Core n) (m : MailboxData) : Prop :=
  (k.log m.hdr.logicalChnl).txState = .busy ∧ (k.log m.hdr.logicalChnl).txBuff.tag = m.tag

def SameCmd (m m' : MailboxData) : Prop := m.hdr.logicalChnl = m'.hdr.logicalChnl ∧ m.tag = m'.tag

structure Sent (k k' : Core n) : Prop extends TxFrame k k' where
  state : ∀ ch, (k'.log ch).txState = .busy → (k.log ch).txState = .busy
  cmd : ∀ m ∈ boxCmd k'.cmdBox, m ∈ boxCmd k.cmdBox ∨ FromBuffer k m
  done : ∀ ch tag, .done ch tag ∈ k'.notes → .done ch tag ∈ k.notes

theorem Sent.refl (k : Core n) : Sent k k := ⟨.refl k, fun _ => id, fun _ => .inl, fun _ _ => id⟩

theorem Sent.setPhyState (h : Sent k k') (state : ChnlState) : Sent k (k'.setPhyState state) :=
  { h with }

theorem Sent.of_setPhyState {state : ChnlState} (h : Sent (k.setPhyState state) k') : Sent k k' :=
  { h with }

theorem sent_txCmd (hbusy : (k.log ch).txState = .busy) : Sent k (mbPhyChnlTxCmd k ch).1 := by
  have hstate : ∀ {l : LogChnl} (d : Chnl), (update k.log ch l d).txState = .busy →
      (k.log d).txState = .busy :=
    (forall_update_iff k.log fun d l => l.txState = .busy → (k.log d).txState = .busy).mpr
      ⟨fun _ => hbusy, fun _ _ => id⟩
  have hframe := txFrame_txCmd k ch
  cases hready : k.cmdBox.ready with
  | true =>
    rw [txCmd_of_occupied hready] at hframe ⊢
    exact ⟨hframe, hstate, fun _ => .inl, fun _ _ => id⟩
  | false =>
    rw [txCmd_of_free hready] at hframe ⊢
    refine ⟨hframe, hstate, ?_, ?_⟩
    · intro m hm
      have hm' : m = txData k ch := by simpa [boxCmd, txData] using hm
      subst hm'
      exact .inr ⟨hbusy, rfl⟩
    · intro d tag hd
      rcases mem_cons.mp hd with heq | hmem
      · cases heq
      · exact hmem

theorem sent_startTx (hbusy : k.phy.txState = .idle → (k.log ch).txState = .busy) :
    Sent k (mbPhyChnlStartTx k ch) := by
  refine startTx_keeps (fun _ state hk => hk.setPhyState state) ?_ (.refl k)
  intro hidle _
  exact .of_setPhyState (sent_txCmd (hbusy hidle))

theorem sent_sendNext (k : Core n) : Sent k (sendNext k) :=
  sendNext_keeps (fun _ state hk => hk.setPhyState state)
    (fun _ hwait => sent_txCmd (waitingChnl_busy hwait)) (.refl k)

structure BookInv (core : Cpu → Core n) (c : Cpu) (opened : Chnl → Nat)
    (wrote : Chnl → List Nat) : Prop where
  closed : ∀ ch, ((core c).log ch).inUsed = false → ((core c).log ch).txCmplIsr = false
  counted : ∀ ch, (wrote ch).length = ((core c).log ch).writes
  settled : ∀ ch, ((core c).log ch).txCmplIsr = true →
    SessionSettled core c (opened ch) (wrote ch) ch
  fresh : ∀ m ∈ inFlight core c, .done m.hdr.logicalChnl m.tag ∉ (core c).notes

section Book

variable {core core' : Cpu → Core n} {c : Cpu} {opened : Chnl → Nat} {wrote : Chnl → List Nat}

section

variable (h : BookInv core c opened wrote)
include h

theorem BookInv.last_eq (hwrites : WriteInv (core c)) {m : MailboxData}
    (hm : FromBuffer (core c) m) :
    (wrote m.hdr.logicalChnl)[m.tag]? = (wrote m.hdr.logicalChnl).getLast? := by
  have hnewest := (hwrites.busy _ hm.1).1
  rw [hm.2, ← h.counted] at hnewest
  rw [getLast?_eq_getElem?, ← hnewest, Nat.add_sub_cancel]

theorem BookInv.keep (hwrites : WriteInv (core c))
    (hflags : ∀ ch, SameFlags ((core c).log ch) ((core' c).log ch))
    (hwaiting : ∀ ch, Waiting (core' c) ch → Waiting (core c) ch) (hflight : ∀ m ∈ inFlight core' c,
      (∃ m' ∈ inFlight core c, SameCmd m' m ∧
        .done m.hdr.logicalChnl m.tag ∉ (core' c).notes) ∨ FromBuffer (core c) m)
    (hdone : ∀ ch tag, .done ch tag ∈ (core' c).notes → Noted (core c) ch tag) :
    BookInv core' c opened wrote := by
  refine ⟨?_, ?_, ?_, ?_⟩
  · intro ch
    rw [(hflags ch).inUsed, (hflags ch).txCmplIsr]
    exact h.closed ch
  · intro ch
    rw [(hflags ch).writes]
    exact h.counted ch
  · intro ch hset
    rw [(hflags ch).txCmplIsr] at hset
    obtain ⟨hlast, hfly⟩ := h.settled ch hset
    refine ⟨fun hwait => hlast (hwaiting ch hwait), ?_⟩
    intro m hm hch
    rcases hflight m hm with ⟨m', hm', ⟨hchnl, htag⟩, -⟩ | hbuffer
    · rw [← htag]
      exact hfly m' hm' (hchnl.trans hch)
    · subst hch
      rw [h.last_eq hwrites hbuffer]
      exact hlast (.inl hbuffer.1)
  · intro m hm hnote
    rcases hflight m hm with ⟨m', -, -, hnot⟩ | hbuffer
    · exact hnot hnote
    · have hlt := (hwrites.busy _ hbuffer.1).2 m.tag (hdone _ _ hnote)
      rw [hbuffer.2] at hlt
      exact Nat.lt_irrefl _ hlt

theorem BookInv.keep_flight (hwrites : WriteInv (core c))
    (hflags : ∀ ch, SameFlags ((core c).log ch) ((core' c).log ch))
    (hwaiting : ∀ ch, Waiting (core' c) ch → Waiting (core c) ch) (hflight : ∀ m ∈ inFlight core' c,
      (∃ m' ∈ inFlight core c, SameCmd m' m) ∨ FromBuffer (core c) m)
    (hdone : ∀ ch tag, .done ch tag ∈ (core' c).notes → .done ch tag ∈ (core c).notes) :
    BookInv core' c opened wrote := by
  refine h.keep hwrites hflags hwaiting ?_ fun ch tag hd => .inr (hdone ch tag hd)
  intro m hm
  rcases hflight m hm with ⟨m', hm', hsame⟩ | hbuffer
  · refine .inl ⟨m', hm', hsame, ?_⟩
    intro hnote
    rw [← hsame.1, ← hsame.2] at hnote
    exact h.fresh m' hm' (hdone _ _ hnote)
  · exact .inr hbuffer

theorem BookInv.congr (hcore : core' c = core c) (hflight : inFlight core' c = inFlight core c) :
    BookInv core' c opened wrote := by
  refine ⟨?_, ?_, ?_, ?_⟩
  · rw [hcore]
    exact h.closed
  · rw [hcore]
    exact h.counted
  · unfold SessionSettled
    rw [hcore, hflight]
    exact h.settled
  · rw [hcore, hflight]
    exact h.fresh

end

theorem BookInv.keep_other (h : BookInv core c.other opened wrote)
    (hisr : isrCmd k.isr = isrCmd (core c).isr) (hack : k.ackBox = (core c).ackBox) :
    BookInv (update core c k) c.other opened wrote := by
  refine h.congr (update_other core c k) ?_
  rw [inFlight_update_other, hisr, hack, inFlight, other_other]

theorem BookInv.setLog {opened' : Chnl → Nat} (h : BookInv core c opened wrote) {l : LogChnl}
    (hwrites : l.writes = ((core c).log ch).writes)
    (hstate : l.txState = .busy → ((core c).log ch).txState = .busy)
    (hclosed : l.inUsed = false → l.txCmplIsr = false)
    (hopened : ∀ d, d ≠ ch → opened' d = opened d)
    (hsettled : l.txCmplIsr = true → SessionSettled core c (opened' ch) (wrote ch) ch) :
    BookInv (update core c ((core c).setLog ch l)) c opened' wrote := by
  have hflight : inFlight (update core c ((core c).setLog ch l)) c =
      inFlight core c := (OnlyLog.setLog (core c) ch l).toSameWire.inFlight_eq c
  have hbusy : ∀ d, (((core c).setLog ch l).log d).txState = .busy →
      ((core c).log d).txState = .busy :=
    (forall_update_iff (core c).log fun d l =>
      l.txState = .busy → ((core c).log d).txState = .busy).mpr
      ⟨hstate, fun _ _ => id⟩
  have hold : ∀ d, (((core c).setLog ch l).log d).txCmplIsr = true →
      SessionSettled core c (opened' d) (wrote d) d := by
    refine (forall_update_iff (core c).log fun d l => l.txCmplIsr = true →
      SessionSettled core c (opened' d) (wrote d) d).mpr ⟨hsettled, fun d hd => ?_⟩
    rw [hopened d hd]
    exact h.settled d
  refine ⟨?_, ?_, ?_, ?_⟩
  · rw [update_self]
    exact (forall_update_iff (core c).log fun _ l => l.inUsed = false → l.txCmplIsr = false).mpr
      ⟨hclosed, fun d _ => h.closed d⟩
  · rw [update_self]
    exact (forall_update_iff (core c).log fun d l => (wrote d).length = l.writes).mpr
      ⟨(h.counted ch).trans hwrites.symm, fun d _ => h.counted d⟩
  · unfold SessionSettled
    rw [update_self, hflight]
    exact fun d hset => ⟨fun hwait => (hold d hset).1 (hwait.imp (hbusy d) id), (hold d hset).2⟩
  · rw [update_self, hflight]
    exact h.fresh

theorem Waiting.of_setPc {pc : Pc} (h : Waiting (k'.setPc i pc) ch) (hpc : k'.pc = k.pc)
    (hstate : (k'.log ch).txState = .busy → Waiting k ch)
    (hnew : pendingWrite pc = some ch → Waiting k ch) : Waiting k ch := by
  rcases h with hbusy | ⟨j, hj⟩
  · exact hstate hbusy
  · simp only [Core.setPc, hpc] at hj
    rcases eq_or_ne j i with rfl | hji
    · rw [update_self] at hj
      exact hnew hj
    · rw [update_of_ne hji] at hj
      exact .inr ⟨j, hj⟩

section

variable (h : BookInv core c opened wrote)
include h

theorem BookInv.write {wrote' : Chnl → List Nat} (hself : wrote' ch = wrote ch ++ [opened ch])
    (hothers : ∀ d, d ≠ ch → wrote' d = wrote d) (hwire : SameWire (core c) k)
    (hnotes : k.notes = (core c).notes)
    (hnew : k.log ch = { (core c).log ch with writes := ((core c).log ch).writes + 1 })
    (hlog : ∀ d, d ≠ ch → k.log d = (core c).log d)
    (hwaiting : ∀ d, d ≠ ch → Waiting k d → Waiting (core c) d) :
    BookInv (update core c k) c opened wrote' := by
  have hflight := hwire.inFlight_eq c
  refine ⟨?_, ?_, ?_, ?_⟩
  · rw [update_self]
    intro d
    rcases eq_or_ne d ch with rfl | hd
    · rw [hnew]
      exact h.closed d
    · rw [hlog d hd]
      exact h.closed d
  · rw [update_self]
    intro d
    rcases eq_or_ne d ch with rfl | hd
    · rw [hnew, hself, length_append, h.counted d]
      rfl
    · rw [hlog d hd, hothers d hd]
      exact h.counted d
  · unfold SessionSettled
    rw [update_self, hflight]
    intro d hset
    rcases eq_or_ne d ch with rfl | hd
    · rw [hnew] at hset
      rw [hself]
      refine ⟨fun _ => getLast?_concat, ?_⟩
      intro m hm hch
      have hold := (h.settled d hset).2 m hm hch
      obtain ⟨hlt, -⟩ := List.getElem?_eq_some_iff.mp hold
      rw [getElem?_append_left hlt]
      exact hold
    · rw [hlog d hd] at hset
      rw [hothers d hd]
      obtain ⟨hlast, hfly⟩ := h.settled d hset
      exact ⟨fun hwait => hlast (hwaiting d hd hwait), hfly⟩
  · rw [update_self, hflight, hnotes]
    exact h.fresh

theorem BookInv.setBuffer (hwrites : WriteInv (core c)) {l : LogChnl} {pc : Pc}
    (hflags : SameFlags ((core c).log ch) l) (hpc : pendingWrite ((core c).pc i) = some ch)
    (hnew : ∀ d, pendingWrite pc = some d → d = ch) :
    BookInv (update core c (((core c).setLog ch l).setPc i pc)) c opened wrote := by
  have hwire : SameWire (core c) (((core c).setLog ch l).setPc i pc) := ⟨rfl, rfl, rfl, rfl⟩
  have hflight := hwire.inFlight_eq c
  refine h.keep_flight hwrites ?_ ?_ ?_ ?_
  · rw [update_self]
    exact hflags.setLog
  · rw [update_self]
    intro d hwait
    refine hwait.of_setPc rfl ?_ ?_
    · intro hbusy
      rcases eq_or_ne d ch with rfl | hd
      · exact .inr ⟨i, hpc⟩
      · simp only [Core.setLog, update_of_ne hd] at hbusy
        exact .inl hbusy
    · intro hd
      rw [hnew d hd]
      exact .inr ⟨i, hpc⟩
  · rw [hflight]
    intro m hm
    exact .inl ⟨m, hm, rfl, rfl⟩
  · rw [update_self]
    exact fun _ _ => id

theorem BookInv.runTask (hwrites : WriteInv (core c)) (hrun : runTask (core c) i = some k)
    (hstart : ∀ ch, (core c).pc i = .startTx ch → (core c).phy.txState = .idle →
      ((core c).log ch).txState = .busy) : BookInv (update core c k) c opened wrote := by
  have htask := hwrites.tasks i
  cases runTask_cases hrun with
  | copy hpc =>
    refine h.setBuffer hwrites ⟨rfl, rfl, rfl, rfl⟩ (congrArg pendingWrite hpc) ?_
    rintro d hd
    exact (Option.some.inj hd).symm
  | mark hpc => exact h.setBuffer hwrites ⟨rfl, rfl, rfl, rfl⟩ (congrArg pendingWrite hpc) nofun
  | @startTx ch hpc =>
    have hsent := sent_startTx (hstart ch hpc)
    refine h.keep_flight hwrites ?_ ?_ ?_ ?_
    · rw [update_self]
      exact hsent.flags
    · rw [update_self]
      intro d hwait
      exact hwait.of_setPc hsent.pc (fun hbusy => .inl (hsent.state d hbusy)) nofun
    · intro m hm
      rw [inFlight_update_self] at hm
      simp only [mem_append, inFlight, Core.setPc, hsent.isr] at hm ⊢
      rcases hm with ((hm | hm) | hm) | hm
      · rcases hsent.cmd m hm with hold | hbuffer
        · exact .inl ⟨m, .inl (.inl (.inl hold)), rfl, rfl⟩
        · exact .inr hbuffer
      · exact .inl ⟨m, .inl (.inl (.inr hm)), rfl, rfl⟩
      · exact .inl ⟨m, .inl (.inr hm), rfl, rfl⟩
      · exact .inl ⟨m, .inr hm, rfl, rfl⟩
    · rw [update_self]
      exact hsent.done
  | syncOccupied hpc | syncFree hpc | syncWrite hpc | syncTrigger hpc =>
    rw [hpc] at htask
    exact htask.elim

theorem BookInv.ack (hwrites : WriteInv (core c)) (hflight : FlightNoted core)
    (hout : Outstanding core c) (hisr : (core c).isr = some data) (hack : data.hdr.ackBox = true) :
    BookInv (update core c (sendNext (noteDone { core c with isr := none } data))) c
      opened wrote := by
  obtain ⟨-, -, hcmd, hpeer, hbox⟩ := hout.ack_alone hisr hack
  have hwire := sameWire_noteDone { core c with isr := none } data
  have hlog := noteDone_log { core c with isr := none } data
  have hframe := txFrame_done { core c with isr := none } data
  have hsent := sent_sendNext (noteDone { core c with isr := none } data)
  have hread : .sent data.hdr.logicalChnl data.tag ∈ (core c).notes := by
    refine hflight.isrAck_noted c data ?_
    rw [hisr]
    simp [isrAck, hack]
  have hdone : ∀ ch tag, .done ch tag ∈ (noteDone { core c with isr := none } data).notes →
      Noted (core c) ch tag := by
    intro ch tag hd
    unfold noteDone at hd
    split at hd
    · rcases mem_cons.mp hd with heq | hold
      · cases heq
        exact .inl hread
      · exact .inr hold
    · exact .inr hd
  refine h.keep hwrites ?_ ?_ ?_ ?_
  · rw [update_self]
    exact hframe.flags
  · rw [update_self]
    rintro ch (hbusy | ⟨i, hi⟩)
    · have hold := hsent.state ch hbusy
      rw [hlog] at hold
      exact .inl hold
    · rw [hframe.pc] at hi
      exact .inr ⟨i, hi⟩
  · intro m hm
    rw [inFlight_update_self, hpeer, hbox, hframe.isr] at hm
    simp only [isrAck, append_nil] at hm
    rcases hsent.cmd m hm with hold | hbuffer
    · have hempty : m ∈ boxCmd (core c).cmdBox := by
        rw [hwire.cmdBox] at hold
        exact hold
      rw [hcmd] at hempty
      cases hempty
    · unfold FromBuffer at hbuffer
      rw [hlog] at hbuffer
      exact .inr hbuffer
  · rw [update_self]
    intro ch tag hd
    exact hdone ch tag (hsent.done ch tag hd)

end

structure OnlyAckBox (k k' : Core n) : Prop where
  log : k'.log = k.log
  pc : k'.pc = k.pc
  notes : k'.notes = k.notes
  cmdBox : k'.cmdBox = k.cmdBox
  isr : k'.isr = k.isr

theorem BookInv.cmd (h : BookInv core c opened wrote) (hwrites : WriteInv (core c))
    (honly : OnlyAckBox { core c with isr := none } k) (hisr : (core c).isr = some data)
    (hcmd : data.hdr.ackBox = false) : BookInv (update core c k) c opened wrote := by
  refine h.keep_flight hwrites ?_ ?_ ?_ ?_
  · rw [update_self, honly.log]
    exact fun _ => .refl _
  · rw [update_self]
    unfold Waiting
    rw [honly.log, honly.pc]
    exact fun _ => id
  · intro m hm
    refine .inl ⟨m, ?_, rfl, rfl⟩
    rw [inFlight_update_self, honly.cmdBox, honly.isr] at hm
    rw [inFlight, hisr]
    simpa [isrAck, hcmd] using hm
  · rw [update_self, honly.notes]
    exact fun _ _ => id

theorem BookInv.cmd_other (h : BookInv core c.other opened wrote)
    (hwrites : WriteInv (core c.other)) (hnone : k.isr = none)
    (hack : ∀ m ∈ boxAck k.ackBox, m ∈ boxAck (core c).ackBox ∨
      ∃ m' ∈ isrCmd (core c).isr, SameCmd m' m) :
    BookInv (update core c k) c.other opened wrote := by
  refine h.keep_flight hwrites ?_ ?_ ?_ ?_
  · rw [update_other]
    exact fun _ => .refl _
  · rw [update_other]
    exact fun _ => id
  · intro m hm
    rw [inFlight_update_other, hnone] at hm
    simp only [inFlight, other_other, mem_append] at hm ⊢
    rcases hm with ((hm | hm) | hm) | hm
    · exact .inl ⟨m, .inl (.inl (.inl hm)), rfl, rfl⟩
    · cases hm
    · rcases hack m hm with hold | ⟨m', hm', hsame⟩
      · exact .inl ⟨m, .inl (.inr hold), rfl, rfl⟩
      · exact .inl ⟨m', .inl (.inl (.inr hm')), hsame⟩
    · exact .inl ⟨m, .inr hm, rfl, rfl⟩
  · rw [update_other]
    exact fun _ _ => id

theorem BookInv.receive {s s' : System n σ} (h : BookInv s.core c opened wrote)
    (hwrites : WriteInv (s.core c)) (hwired : Wired (s.core d.other))
    (hreceive : mailboxReceive s d = some s') : BookInv s'.core c opened wrote := by
  obtain ⟨-, hlog, hpc, hnotes⟩ := mailboxReceive_fields hreceive c
  have hflight := mailboxReceive_inFlight hwired hreceive c
  refine h.keep_flight hwrites ?_ ?_ ?_ ?_
  · rw [hlog]
    exact fun _ => .refl _
  · unfold Waiting
    rw [hlog, hpc]
    exact fun _ => id
  · rw [hflight]
    exact fun m hm => .inl ⟨m, hm, rfl, rfl⟩
  · rw [hnotes]
    exact fun _ _ => id

end Book

structure CallbackInv (k : Core n) (wrote : Chnl → List Nat) (calls : List Callback) : Prop where
  noted : ∀ x ∈ calls, .done x.ch x.tag ∈ k.notes
  same : ∀ x ∈ calls, (wrote x.ch)[x.tag]? = some x.session
  once : calls.Pairwise fun x y => ¬ (x.ch = y.ch ∧ x.tag = y.tag)

theorem CallbackInv.keep {wrote wrote' : Chnl → List Nat} {calls : List Callback}
    (h : CallbackInv k wrote calls) (hnotes : ∀ x ∈ k.notes, x ∈ k'.notes)
    (hwrote : ∀ ch, ∃ more, wrote' ch = wrote ch ++ more) : CallbackInv k' wrote' calls := by
  refine ⟨fun x hx => hnotes _ (h.noted x hx), ?_, h.once⟩
  intro x hx
  have hold := h.same x hx
  obtain ⟨more, hmore⟩ := hwrote x.ch
  obtain ⟨hlt, -⟩ := List.getElem?_eq_some_iff.mp hold
  rw [hmore, getElem?_append_left hlt]
  exact hold

theorem CallbackInv.cons {wrote : Chnl → List Nat} {calls : List Callback} {x : Callback}
    (h : CallbackInv k wrote calls) (hnotes : ∀ y ∈ k.notes, y ∈ k'.notes)
    (hfresh : .done x.ch x.tag ∉ k.notes) (hnew : .done x.ch x.tag ∈ k'.notes)
    (hsame : (wrote x.ch)[x.tag]? = some x.session) : CallbackInv k' wrote (x :: calls) := by
  refine ⟨?_, ?_, ?_⟩
  · intro y hy
    rcases mem_cons.mp hy with rfl | hold
    · exact hnew
    · exact hnotes _ (h.noted y hold)
  · intro y hy
    rcases mem_cons.mp hy with rfl | hold
    · exact hsame
    · exact h.same y hold
  · refine pairwise_cons.mpr ⟨?_, h.once⟩
    rintro y hy ⟨hch, htag⟩
    apply hfresh
    rw [hch, htag]
    exact h.noted y hy

structure SessionInv (r : Observed n σ) : Prop where
  sys : SystemInv r.sys.core
  acks : AckInv r.sys.core
  book : ∀ c, BookInv r.sys.core c (r.opened c) (r.wrote c)
  calls : ∀ c, CallbackInv (r.sys.core c) (r.wrote c) (r.callbacks c)

theorem localStep_notes {c : Cpu} (hstep : LocalStep c k e k') : ∀ x ∈ k.notes, x ∈ k'.notes := by
  intro x hx
  cases hstep.core with
  | refused | setup | write | writeSync => exact hx
  | run hrun =>
    cases runTask_cases hrun with
    | copy | mark => exact hx
    | startTx => exact (txFrame_startTx k _).notes x hx
    | syncOccupied | syncFree | syncWrite | syncTrigger => exact hx
  | handle hisr hk =>
    rename_i data
    cases hk with
    | ack => exact (txFrame_done { k with isr := none } data).notes x hx
    | fault | sync | refused | answered => exact hx

theorem runTask_incoming (hrun : runTask k i = some k') :
    k'.isr = k.isr ∧ k'.ackBox = k.ackBox := by
  cases runTask_cases hrun with
  | startTx => exact ⟨(txFrame_startTx k _).isr, (txFrame_startTx k _).ackBox⟩
  | copy | mark | syncOccupied | syncFree | syncWrite | syncTrigger => exact ⟨rfl, rfl⟩

section Observer

variable {r : Observed n σ} {c : Cpu}

theorem opened_of_not_opens (hnone : ∀ ch, opensSession r.sys d ch e = false) :
    (fun ch => r.opened d ch + (opensSession r.sys d ch e).toNat) = r.opened d := by
  funext ch
  rw [hnone ch]
  rfl

theorem openChnl_book (h : SessionInv r) (ch : Chnl) (d : Cpu) :
    BookInv (update r.sys.core c (mbChnlOpen (r.sys.core c) ch)) d
      (fun ch' => r.opened d ch' + (opensSession r.sys d ch' (.openChnl c ch)).toNat)
      (r.wrote d) := by
  revert d
  refine forall_cpu (c := c) ?_ ?_
  · unfold mbChnlOpen
    split
    · rename_i hused
      rw [opened_of_not_opens, update_eq_self]
      · exact h.book c
      · intro ch'
        simp only [opensSession, true_and, decide_eq_false_iff_not]
        rintro ⟨rfl, hunused⟩
        rw [hused] at hunused
        cases hunused
    · rename_i hunused
      have hclosed := (h.book c).closed ch (Bool.eq_false_of_not_eq_true hunused)
      refine (h.book c).setLog rfl id nofun ?_ ?_
      · intro ch' hne
        simp [opensSession, hne.symm]
      · intro hset
        have hset' : ((r.sys.core c).log ch).txCmplIsr = true := hset
        rw [hclosed] at hset'
        cases hset'
  · rw [opened_of_not_opens]
    · have hlog := onlyLog_open (r.sys.core c) ch
      exact (h.book c.other).keep_other (by rw [hlog.isr]) hlog.ackBox
    · intro ch'
      simp only [opensSession, decide_eq_false_iff_not]
      rintro ⟨heq, -⟩
      exact other_ne c heq.symm

theorem wrote_of_not_accepted (hnone : ∀ ch, acceptsWrite r.sys d ch e = false) :
    (fun ch => if acceptsWrite r.sys d ch e then r.wrote d ch ++ [r.opened d ch]
      else r.wrote d ch) = r.wrote d := by
  funext ch
  rw [hnone ch]
  rfl

section

variable (h : SessionInv r)
include h

theorem write_book (i : Fin n) (ch : Chnl) (cmd p1 p2 p3 : Nat) (d : Cpu) :
    BookInv (update r.sys.core c (mbChnlWrite (r.sys.core c) i ch cmd p1 p2 p3)) d (r.opened d)
      (fun ch' => if acceptsWrite r.sys d ch' (.write c i ch cmd p1 p2 p3) then
        r.wrote d ch' ++ [r.opened d ch'] else r.wrote d ch') := by
  revert d
  refine forall_cpu (c := c) ?_ ?_
  · by_cases hused : ((r.sys.core c).log ch).inUsed = true ∧ ((r.sys.core c).log ch).txState = .idle
    · obtain ⟨hopen, hidle⟩ := hused
      unfold mbChnlWrite
      rw [if_pos hopen, if_pos hidle]
      refine (h.book c).write ?_ ?_ ⟨rfl, rfl, rfl, rfl⟩ rfl
        (update_self _ _ _) (fun d hd => update_of_ne hd _ _) ?_
      · simp [acceptsWrite, hopen, hidle]
      · intro ch' hne
        simp [acceptsWrite, hne.symm]
      · intro d hd hwait
        refine hwait.of_setPc rfl ?_ ?_
        · intro hbusy
          simp only [Core.setLog, update_of_ne hd] at hbusy
          exact .inl hbusy
        · intro hcopy
          exact absurd (Option.some.inj hcopy).symm hd
    · have hsame : mbChnlWrite (r.sys.core c) i ch cmd p1 p2 p3 = r.sys.core c := by
        unfold mbChnlWrite
        split
        · rename_i hopen
          split
          · rename_i hidle
            exact absurd ⟨hopen, hidle⟩ hused
          · rfl
        · rfl
      rw [hsame, update_eq_self, wrote_of_not_accepted]
      · exact h.book c
      · intro ch'
        simp only [acceptsWrite, true_and, decide_eq_false_iff_not]
        rintro ⟨rfl, hboth⟩
        exact hused hboth
  · rw [wrote_of_not_accepted]
    · have hwire := sameWire_write (r.sys.core c) i ch cmd p1 p2 p3
      exact (h.book c.other).keep_other (by rw [hwire.isr]) hwire.ackBox
    · intro ch'
      simp only [acceptsWrite, decide_eq_false_iff_not]
      rintro ⟨heq, -⟩
      exact other_ne c heq.symm

theorem onlyLog_book (hlog : OnlyLog (r.sys.core c) k)
    (hself : BookInv (update r.sys.core c k) c (r.opened c) (r.wrote c)) (d : Cpu) :
    BookInv (update r.sys.core c k) d (r.opened d) (r.wrote d) := by
  revert d
  refine forall_cpu (c := c) hself ?_
  exact (h.book c.other).keep_other (by rw [hlog.isr]) hlog.ackBox

theorem closeChnl_book (ch : Chnl) (d : Cpu) :
    BookInv (update r.sys.core c (mbChnlClose (r.sys.core c) ch)) d (r.opened d) (r.wrote d) := by
  refine onlyLog_book h (onlyLog_close _ ch) ?_ d
  unfold mbChnlClose
  split
  · exact (h.book c).setLog rfl nofun (fun _ => rfl) (fun _ _ => rfl) nofun
  · rw [update_eq_self]
    exact h.book c

theorem setRxIsr_book (ch : Chnl) (isr : Bool) (d : Cpu) :
    BookInv (update r.sys.core c (mbChnlSetRxIsr (r.sys.core c) ch isr)) d
      (r.opened d) (r.wrote d) := by
  refine onlyLog_book h (onlyLog_setRxIsr _ ch isr) ?_ d
  unfold mbChnlSetRxIsr
  split
  · exact (h.book c).setLog rfl id ((h.book c).closed ch) (fun _ _ => rfl) ((h.book c).settled ch)
  · rw [update_eq_self]
    exact h.book c

theorem setTxCmplIsr_book (ch : Chnl) (isr : Bool)
    (hsettled : CallbackSettled r (.setTxCmplIsr c ch isr)) (d : Cpu) :
    BookInv (update r.sys.core c (mbChnlSetTxCmplIsr (r.sys.core c) ch isr)) d
      (r.opened d) (r.wrote d) := by
  refine onlyLog_book h (onlyLog_setTxCmplIsr _ ch isr) ?_ d
  unfold mbChnlSetTxCmplIsr
  split
  · rename_i hopen
    refine (h.book c).setLog rfl id ?_ (fun _ _ => rfl) (fun hset => hsettled hset hopen)
    intro hunused
    have hunused' : ((r.sys.core c).log ch).inUsed = false := hunused
    rw [hopen] at hunused'
    cases hunused'
  · rw [update_eq_self]
    exact h.book c

theorem run_book (hrun : runTask (r.sys.core c) i = some k)
    (horderly : WritesOrderly r.sys (.run c i)) (d : Cpu) :
    BookInv (update r.sys.core c k) d (r.opened d) (r.wrote d) := by
  revert d
  refine forall_cpu (c := c) ((h.book c).runTask (h.sys.writes c) hrun horderly) ?_
  obtain ⟨hisr, hack⟩ := runTask_incoming hrun
  exact (h.book c.other).keep_other (by rw [hisr]) hack

theorem handle_book (hisr : (r.sys.core c).isr = some data) (hk : Handled (r.sys.core c) data k)
    (d : Cpu) : BookInv (update r.sys.core c k) d (r.opened d) (r.wrote d) := by
  revert d
  have hout := h.acks.outstanding c
  cases hk with
  | ack hack =>
    refine forall_cpu (c := c) ((h.book c).ack (h.sys.writes c) h.sys.flight hout hisr hack) ?_
    have hframe := txFrame_done { r.sys.core c with isr := none } data
    refine (h.book c.other).keep_other ?_ hframe.ackBox
    rw [hframe.isr, hisr]
    simp [isrCmd, hack]
  | fault hack hmatch =>
    rw [(hout.ack_alone hisr hack).2.1] at hmatch
    cases hmatch
  | sync hcmd | refused hcmd =>
    refine forall_cpu (c := c) ((h.book c).cmd (h.sys.writes c) ?_ hisr hcmd)
      ((h.book c.other).cmd_other (h.sys.writes c.other) rfl fun _ => .inl)
    exact ⟨rfl, rfl, rfl, rfl, rfl⟩
  | answered answer hcmd hsync =>
    refine forall_cpu (c := c) ((h.book c).cmd (h.sys.writes c) ?_ hisr hcmd)
      ((h.book c.other).cmd_other (h.sys.writes c.other) rfl fun m hm => .inr ⟨data, ?_, ?_⟩)
    · exact ⟨rfl, rfl, rfl, rfl, rfl⟩
    · simp [hisr, isrCmd, hcmd, hsync]
    · obtain rfl : m = ackOf { r.sys.core c with isr := none } data answer := by
        simpa [boxAck] using hm
      exact ⟨rfl, rfl⟩

end

end Observer

section Steps

variable {app : App σ} {r r' : Observed n σ} {s : System n σ} {e : Event n}

theorem step_book (h : SessionInv r) (hasync : AsyncOnly e) (horderly : WritesOrderly r.sys e)
    (hsettled : CallbackSettled r e) (hstep : step app r.sys e = some s) (d : Cpu) :
    BookInv s.core d ((r.after e s).opened d) ((r.after e s).wrote d) := by
  rcases step_cases hstep with ⟨c, rfl, hreceive⟩ | ⟨c, k, hlocal, hcore⟩
  · exact (h.book d).receive (h.sys.writes d) (h.sys.wired c.other) hreceive
  · rw [hcore]
    cases hlocal with
    | openChnl ch => exact openChnl_book h ch d
    | closeChnl ch => exact closeChnl_book h ch d
    | setRxIsr ch isr => exact setRxIsr_book h ch isr d
    | setTxCmplIsr ch isr => exact setTxCmplIsr_book h ch isr hsettled d
    | write i ch cmd p1 p2 p3 => exact write_book h i ch cmd p1 p2 p3 d
    | writeSync => exact absurd hasync id
    | run i hrun => exact run_book h hrun horderly d
    | handle hisr hk => exact handle_book h hisr hk d

theorem step_notes (hstep : step app r.sys e = some s) (d : Cpu) :
    ∀ x ∈ (r.sys.core d).notes, x ∈ (s.core d).notes := by
  rcases step_cases hstep with ⟨c, -, hreceive⟩ | ⟨c, k, hlocal, hcore⟩
  · rw [(mailboxReceive_fields hreceive d).2.2.2]
    exact fun _ => id
  · rw [hcore]
    revert d
    refine forall_cpu (c := c) ?_ ?_
    · rw [update_self]
      exact localStep_notes hlocal
    · rw [update_other]
      exact fun _ => id

theorem callbackOf_cases (r : Observed n σ) (d : Cpu) (e : Event n) :
    callbackOf r d e = [] ∨ ∃ data, e = .handle d ∧ (r.sys.core d).isr = some data ∧
      data.hdr.ackBox = true ∧ ((r.sys.core d).log data.hdr.logicalChnl).txCmplIsr = true ∧
      callbackOf r d e = [⟨data.hdr.logicalChnl, data.tag, r.opened d data.hdr.logicalChnl⟩] := by
  unfold callbackOf
  split
  · split
    · rename_i c hc
      subst hc
      split
      · exact .inl rfl
      · rename_i data hisr
        split
        · rename_i hall
          rw [Bool.and_eq_true, Bool.and_eq_true] at hall
          exact .inr ⟨data, rfl, hisr, hall.1.1, hall.2, rfl⟩
        · exact .inl rfl
    · exact .inl rfl
  · exact .inl rfl

theorem handle_notes_done (h : SessionInv r) (hstep : step app r.sys (.handle d) = some s)
    (hisr : (r.sys.core d).isr = some data) (hack : data.hdr.ackBox = true)
    (hset : ((r.sys.core d).log data.hdr.logicalChnl).txCmplIsr = true) :
    .done data.hdr.logicalChnl data.tag ∈ (s.core d).notes := by
  obtain ⟨data', k, hisr', hk, hcore⟩ := handle_core hstep
  rw [hisr] at hisr'
  cases hisr'
  rw [hcore, update_self]
  cases hk with
  | ack =>
    have hdone : .done data.hdr.logicalChnl data.tag ∈
        (noteDone { r.sys.core d with isr := none } data).notes := by
      unfold noteDone
      rw [if_pos hset]
      exact mem_cons_self
    exact (sent_sendNext _).notes _ hdone
  | fault _ hmatch =>
    rw [((h.acks.outstanding d).ack_alone hisr hack).2.1] at hmatch
    cases hmatch
  | sync hcmd | refused hcmd | answered _ hcmd =>
    rw [hack] at hcmd
    cases hcmd

theorem step_calls (h : SessionInv r) (hstep : step app r.sys e = some s) (d : Cpu) :
    CallbackInv (s.core d) ((r.after e s).wrote d) ((r.after e s).callbacks d) := by
  have hnotes := step_notes hstep d
  simp only [Observed.after]
  rcases callbackOf_cases r d e with hnone | ⟨data, rfl, hisr, hack, hset, hcall⟩
  · rw [hnone]
    refine (h.calls d).keep hnotes ?_
    intro ch
    split
    · exact ⟨_, rfl⟩
    · exact ⟨[], (append_nil _).symm⟩
  · have hflying : data ∈ inFlight r.sys.core d := by simp [inFlight, hisr, isrAck, hack]
    rw [hcall]
    apply (h.calls d).cons hnotes
    · exact (h.book d).fresh data hflying
    · exact handle_notes_done h hstep hisr hack hset
    · exact ((h.book d).settled _ hset).2 data hflying rfl

theorem observe_inv (h : SessionInv r) (hasync : AsyncOnly e)
    (horderly : WritesOrderly r.sys e) (hsettled : CallbackSettled r e)
    (hstep : observe app r e = some r') : SessionInv r' := by
  obtain ⟨s, hsys, rfl⟩ := Option.map_eq_some_iff.mp hstep
  exact ⟨step_systemInv h.sys hasync horderly hsys,
    step_ackInv h.acks (syncUndisturbed_of_async fun c i => ((h.sys.writes c).tasks i).async) hsys,
    step_book h hasync horderly hsettled hsys, step_calls h hsys⟩

end Steps

theorem sessionInv_init (n : Nat) (a : σ) : SessionInv (Observed.init n a) := by
  refine ⟨systemInv_init, ackInv_init, fun _ => ⟨fun _ _ => rfl, fun _ => rfl, nofun, ?_⟩,
    fun _ => ⟨nofun, nofun, .nil⟩⟩
  intro m hm
  cases hm

/-- A completion callback that is set only when nothing of an earlier session is under way
reports the commands of its own session, each of them at most once. -/
theorem reached_sessionSound (app : App σ) (a : σ) {r : Observed n σ} (h : Reached (observe app)
      (fun r e => AsyncOnly e ∧ WritesOrderly r.sys e ∧ CallbackSettled r e)
      (Observed.init n a) r) : SessionSound r := by
  have hinv : SessionInv r := h.invariant SessionInv (sessionInv_init n a)
    fun _ _ _ hr hok hstep => observe_inv hr hok.1 hok.2.1 hok.2.2 hstep
  exact ⟨fun c => (hinv.calls c).same, fun c => (hinv.calls c).once⟩

def openSession {n : Nat} (ch : Chnl) : List (Event n) :=
  [.openChnl .master ch, .setTxCmplIsr .master ch true]

-- Two sessions of one channel, with a command reported in each.
theorem reached_sessionSound_two_sessions :
    ∃ r, Reached (observe .echo)
        (fun r e => AsyncOnly e ∧ WritesOrderly r.sys e ∧ CallbackSettled r e) (.init 1 ()) r ∧
      (r.callbacks .master = [⟨0, 1, 2⟩, ⟨0, 0, 1⟩] ∧ r.wrote .master 0 = [1, 2]) ∧
      SessionSound r :=
  exists_reached_and (fun _ => reached_sessionSound .echo ())
    (openSession 0 ++ writeCall .master 0 0 7 ++ acknowledged ++ [.closeChnl .master 0] ++
      openSession 0 ++ writeCall .master 0 0 8 ++ acknowledged)
    (by decide)

-- The channel is closed and opened again before the acknowledge arrives, so the second
-- session is told about a command of the first.
theorem acknowledge_meets_next_session :
    ¬ ∀ (n : Nat) (σ : Type) (app : App σ) (a : σ) (r : Observed n σ),
      Reached (observe app) (fun _ e => AsyncOnly e) (Observed.init n a) r → SessionSound r := by
  intro hall
  obtain ⟨r, hreached, hmade, hwrote⟩ := exists_reached (observe .echo)
    (fun _ e => AsyncOnly e) (.init 1 ())
    (fun r => ⟨0, 0, 2⟩ ∈ r.callbacks .master ∧ r.wrote .master 0 = [1])
    (openSession 0 ++ writeCall .master 0 0 7 ++ [.closeChnl .master 0] ++
      openSession 0 ++ acknowledged)
    (by decide)
  have hfirst := (hall 1 Unit .echo () r hreached).same .master _ hmade
  rw [hwrote] at hfirst
  cases hfirst

end BekenSoc.MailboxSessions
