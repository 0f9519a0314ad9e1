import BekenSoc.GuardedRuns
import BekenSoc.MailboxFlight

namespace BekenSoc.MailboxStranded

open Function DualCore GuardedRuns MailboxChannel MailboxFlight

variable {n : Nat} {σ : Type}
variable {k k' : Core n} {i : Fin n}

/-- With no call in progress, an idle physical channel has nothing to send. -/
def NotStranded (k : Core n) : Prop :=
  (∀ i, k.pc i = .idle) → k.phy.txState = .idle → ∀ ch, (k.log ch).txState = .idle

def BoxFree (s : System n σ) (e : Event n) : Prop :=
  ∀ c, txCmdCaller s e = some c → (s.core c).cmdBox.ready = false

instance (s : System n σ) (e : Event n) : Decidable (BoxFree s e) :=
  inferInstanceAs (Decidable (∀ _ ∈ txCmdCaller s e, _ = _))

def Served (k : Core n) : Prop :=
  k.phy.txState = .idle → ∀ ch, (k.log ch).txState = .busy → ∃ i, k.pc i = .startTx ch

theorem Served.notStranded (h : Served k) : NotStranded k := by
  intro hcalls hidle ch
  cases hch : (k.log ch).txState with
  | idle => rfl
  | busy =>
    obtain ⟨i, hi⟩ := h hidle ch hch
    rw [hcalls i] at hi
    cases hi

theorem served_of_busy (h : k.phy.txState = .busy) : Served k := by
  intro hidle
  rw [h] at hidle
  cases hidle

theorem Served.mono (h : Served k) (hphy : k'.phy.txState = .idle → k.phy.txState = .idle)
    (hlog : ∀ ch, (k'.log ch).txState = .busy → (k.log ch).txState = .busy)
    (hpc : ∀ i ch, k.pc i = .startTx ch → k'.pc i = .startTx ch) : Served k' := by
  intro hidle ch hch
  obtain ⟨i, hi⟩ := h (hphy hidle) ch (hlog ch hch)
  exact ⟨i, hpc i ch hi⟩

theorem startTx_stays {pc : Pc} (hi : ∀ ch, k.pc i ≠ .startTx ch) (j : Fin n) (ch : Chnl)
    (hj : k.pc j = .startTx ch) : update k.pc i pc j = .startTx ch := by
  have hji : j ≠ i := by
    intro hji
    exact hi ch (hji ▸ hj)
  rw [update_of_ne hji]
  exact hj

theorem Served.setPc (h : Served k) (pc : Pc) (hi : ∀ ch, k.pc i ≠ .startTx ch) :
    Served (k.setPc i pc) :=
  h.mono id (fun _ => id) (startTx_stays hi)

theorem busy_of_update {ch : Chnl} {l : LogChnl}
    (hl : l.txState = .busy → (k.log ch).txState = .busy) (c : Chnl)
    (hc : (update k.log ch l c).txState = .busy) : (k.log c).txState = .busy := by
  by_cases hcc : c = ch
  · rw [hcc, update_self] at hc
    rw [hcc]
    exact hl hc
  · rw [update_of_ne hcc] at hc
    exact hc

theorem Served.setLog (h : Served k) (ch : Chnl) {l : LogChnl}
    (hl : l.txState = .busy → (k.log ch).txState = .busy) : Served (k.setLog ch l) :=
  h.mono id (busy_of_update hl) fun _ _ => id

theorem Served.runTask (h : Served k) (hrun : runTask k i = some k')
    (hfree : ∀ ch, k.pc i = .startTx ch → k.phy.txState = .idle → k.cmdBox.ready = false) :
    Served k' := by
  cases runTask_cases hrun with
  | @copy ch data hpc =>
    have hcopied : Served (k.setLog ch { k.log ch with txBuff := data }) := h.setLog ch id
    exact hcopied.setPc _ (by simp [Core.setLog, hpc])
  | @mark ch hpc =>
    intro hidle c hc
    by_cases hcc : c = ch
    · exact ⟨i, by rw [hcc]; exact update_self _ _ _⟩
    · have hother : (k.log c).txState = .busy := by
        simpa [Core.setLog, Core.setPc, update_of_ne hcc] using hc
      obtain ⟨j, hj⟩ := h hidle c hother
      exact ⟨j, startTx_stays (by simp [Core.setLog, hpc]) j c hj⟩
  | @startTx ch hpc =>
    apply served_of_busy
    rcases startTx_cases k ch with ⟨hbusy, heq⟩ | ⟨hidle, hready, -⟩ | ⟨-, hready, heq⟩
    · rw [heq]
      exact hbusy
    · rw [hfree ch hpc hidle] at hready
      cases hready
    · have hbox : (k.setPhyState .busy).cmdBox.ready = false := hready
      rw [heq, txCmd_of_free hbox]
      rfl
  | syncOccupied => exact h
  | syncFree hpc => exact h.setPc _ (by simp [hpc])
  | syncWrite hpc | syncTrigger hpc => exact h.mono id (fun _ => id) (startTx_stays (by simp [hpc]))

theorem waitingChnl_none (h : waitingChnl k = none) (ch : Chnl) : (k.log ch).txState ≠ .busy := by
  have := List.find?_eq_none.mp h ch (List.mem_finRange ch)
  simpa using this

theorem Served.sendNext (h : Served k)
    (hfree : (waitingChnl k).isSome = true → k.cmdBox.ready = false) : Served (sendNext k) := by
  rcases sendNext_cases k with ⟨hnone, heq⟩ | ⟨ch, hch, ⟨hready, -⟩ | ⟨hready, heq⟩⟩
  · rw [heq]
    intro _ ch hch
    exact absurd hch (waitingChnl_none hnone ch)
  · rw [hfree (by rw [hch]; rfl)] at hready
    cases hready
  · rw [heq, txCmd_of_free hready]
    refine h.mono id (busy_of_update fun hb => ?_) fun _ _ => id
    cases hb

theorem Served.handled {data : MailboxData} (h : Served k) (hk : Handled k data k')
    (hfree : data.hdr.ackBox = true → ackMatches k data = true →
      (waitingChnl k).isSome = true → k.cmdBox.ready = false) : Served k' := by
  cases hk with
  | ack hack hmatch =>
    have hwire := sameWire_noteDone { k with isr := none } data
    refine Served.sendNext (h.mono ?_ ?_ ?_) ?_
    · rw [hwire.phy]
      exact id
    · rw [noteDone_log]
      exact fun _ => id
    · rw [noteDone_pc]
      exact fun _ _ => id
    · rw [hwire.cmdBox, waitingChnl_noteDone]
      exact hfree hack hmatch
  | fault | sync | refused | answered => exact h.mono id (fun _ => id) fun _ _ => id

theorem Served.localStep {s : System n σ} {c : Cpu} {e : Event n} (h : Served (s.core c))
    (hstep : LocalStep c (s.core c) e k) (hok : BoxFree s e) : Served k := by
  cases hstep.core with
  | refused => exact h
  | setup _ _ _ hidle => exact h.setLog _ (busy_of_idle hidle)
  | @write _ ch _ _ _ _ hpc =>
    have hcounted : Served ((s.core c).setLog ch { (s.core c).log ch with
        writes := ((s.core c).log ch).writes + 1 }) := h.setLog ch id
    exact hcounted.setPc _ (by simp [Core.setLog, hpc])
  | writeSync hpc => exact h.setPc _ (by simp [hpc])
  | run hrun =>
    refine h.runTask hrun fun ch hpc hidle => hok c ?_
    simp only [txCmdCaller, hpc, hidle, if_true]
  | handle hisr hk =>
    refine h.handled hk fun hack hmatch hwait => hok c ?_
    simp only [txCmdCaller, hisr, hack, hmatch, hwait, Bool.and_self, if_true]

theorem step_served {app : App σ} {s s' : System n σ} {e : Event n}
    (h : ∀ c, Served (s.core c)) (hok : BoxFree s e)
    (hstep : step app s e = some s') (c : Cpu) : Served (s'.core c) := by
  rcases step_cases hstep with ⟨d, -, hreceive⟩ | ⟨d, k, hlocal, hcore⟩
  · refine mailboxReceive_keeps ?_ h hreceive c
    intro k k' hphy hlog hpc _ hk
    unfold Served
    rw [hphy, hlog, hpc]
    exact hk
  · rw [hcore]
    exact forall_update h ((h d).localStep hlocal hok) c

/-- In a run where every transmission finds the command box free, nothing is left
waiting. -/
theorem reached_notStranded (app : App σ) (a : σ) {s : System n σ}
    (h : Reached (step app) BoxFree (System.init n a) s) (c : Cpu) : NotStranded (s.core c) := by
  have hserved : ∀ c, Served (s.core c) := by
    refine h.invariant (fun s => ∀ c, Served (s.core c)) ?_ ?_
    · intro c _ ch hch
      cases hch
    · intro s e s' hs hok hstep
      exact step_served hs hok hstep
  exact (hserved c).notStranded

-- The slave takes the synchronous command out of the box in time.
theorem reached_notStranded_sync_read :
    ∃ s, Reached (step App.echo) BoxFree (System.init 2 ()) s ∧
      (s.core .master).phy.txState = .busy ∧ NotStranded (s.core .master) :=
  exists_reached_and (fun _ h => reached_notStranded App.echo () h .master)
    ([.openChnl .master 0] ++ syncFill .master 0 0 1 ++ [.run .master 0] ++
      [.receive .slave, .handle .slave] ++ writeCall .master 1 0 2)
    (by decide)

-- The box still holds the synchronous command when the write tries to send.
theorem occupied_box_strands_write :
    ¬ ∀ (n : Nat) (σ : Type) (app : App σ) (a : σ) (s : System n σ),
      Reached (step app) anyStep (System.init n a) s → ∀ c, NotStranded (s.core c) := by
  intro hall
  obtain ⟨s, hreached, hcalls, hidle, hbusy⟩ := exists_reached (step App.echo) anyStep
    (System.init 2 ()) (fun s => (∀ i, (s.core .master).pc i = .idle) ∧
      (s.core .master).phy.txState = .idle ∧ ((s.core .master).log 0).txState = .busy)
    ([.openChnl .master 0] ++ syncFill .master 0 0 1 ++ [.run .master 0] ++ writeCall .master 1 0 2)
    (by decide)
  have hfree := hall 2 Unit .echo () s hreached .master hcalls hidle 0
  rw [hbusy] at hfree
  cases hfree

end BekenSoc.MailboxStranded
