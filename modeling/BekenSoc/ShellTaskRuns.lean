import BekenSoc.ShellLogCustody

namespace BekenSoc.ShellTaskRuns

open GuardedRuns RingBuffers ShellLog ShellLogQueues ShellLogRuns ShellLogCustody

structure TaskView where
  system : System
  /-- the shell task has written echo bytes and not yet left `shell_uart_tx_trigger` -/
  echoCall : Bool
  /-- the command that is handled has pushed its hint -/
  rxHinted : Bool

inductive TaskEvent
  | base (e : Event)
  /-- `shell_uart_tx_trigger` finds `tx_stopped` clear -/
  | echoReturn
  deriving DecidableEq

def TaskView.allows (c : TaskView) : Event → Bool
  | .echo _ => decide (c.system.echoPhase = .idle)
  | .echoTest => c.echoCall
  | .cmdHint => !c.rxHinted
  | .rxDone => !c.rxHinted
  | _ => true

def TaskView.after (c : TaskView) (e : Event) (s : System) : TaskView :=
  match e with
  | .echo _ =>
    { c with
      system := s
      echoCall := c.echoCall || decide (1 < c.system.shell.uart.echo.freeItems echoBuffSize) }
  | .echoEnable => { c with system := s, echoCall := false }
  | .cmdHint => { c with system := s, rxHinted := true }
  | .rsp _ => { c with system := s, rxHinted := false }
  | _ => { c with system := s }

def taskStep (c : TaskView) : TaskEvent → Option TaskView
  | .base e => if c.allows e then (step c.system e).map (c.after e) else none
  | .echoReturn =>
    if c.echoCall = true ∧ c.system.echoPhase = .idle ∧ c.system.shell.uart.txStopped = false then
      some { c with echoCall := false }
    else none

def TaskView.start : TaskView := ⟨System.start, false, false⟩

inductive TaskSteps (c : TaskView) : TaskEvent → TaskView → Prop
  | base {e : Event} {s : System} : c.allows e = true → step c.system e = some s →
      TaskSteps c (.base e) (c.after e s)
  | echoReturn : c.echoCall = true → c.system.echoPhase = .idle →
      c.system.shell.uart.txStopped = false → TaskSteps c .echoReturn { c with echoCall := false }

theorem taskStep_cases {c c' : TaskView} {e : TaskEvent} (h : taskStep c e = some c') :
    TaskSteps c e c' := by
  cases e with
  | base =>
    rw [taskStep] at h
    split at h
    · rename_i hallows
      obtain ⟨s, hstep, rfl⟩ := Option.map_eq_some_iff.mp h
      exact .base hallows hstep
    · cases h
  | echoReturn =>
    obtain ⟨hreturn, rfl⟩ := Option.ite_some_none_eq_some.mp h
    exact .echoReturn hreturn.1 hreturn.2.1 hreturn.2.2

theorem TaskView.after_system (c : TaskView) (e : Event) (s : System) :
    (c.after e s).system = s := by
  cases e <;> rfl

def TaskFits (c : TaskView) : TaskEvent → Prop
  | .base e => PendingFits c.system e
  | .echoReturn => True

instance (c : TaskView) : (e : TaskEvent) → Decidable (TaskFits c e)
  | .base e => inferInstanceAs (Decidable (PendingFits c.system e))
  | .echoReturn => isTrue trivial

structure Flows (s : Shell) : Prop where
  pending : s.pending.outIdx ≠ s.pending.inIdx → s.uart.txList.outIdx ≠ s.uart.txList.inIdx
  awake : s.uart.txList.outIdx ≠ s.uart.txList.inIdx ∨ s.uart.echo.outIdx ≠ s.uart.echo.inIdx →
    s.uart.txStopped = false ∧ s.uart.txInterrupt = true

structure Attentive (s : Shell) (phase : EchoPhase) (call : Bool) : Prop where
  served : pendingPackets s ≠ [] → devicePackets s ≠ []
  device : devicePackets s ≠ [] → s.uart.txStopped = false
  echo : s.uart.echo.outIdx ≠ s.uart.echo.inIdx →
    s.uart.txStopped = false ∨ call = true ∧ phase ≠ .cleared
  enabled : s.uart.txStopped = false → s.uart.txInterrupt = true ∨ phase = .cleared
  calling : phase ≠ .idle → call = true

section Shell

variable {s s' : Shell} {phase : EchoPhase} {call : Bool} {writing : List Nat}
  {ids : Pool → List Nat} {ks : List TxPacket} {ds : List DevTxPacket}

theorem Wakes.stopped {u u' : Uart} {moved : List TxPacket} (h : Wakes u u' moved)
    (hstopped : u.txStopped = false) : u'.txStopped = false := by
  rw [h.txStopped, hstopped, Bool.false_and]

theorem Wakes.enabled {u u' : Uart} {moved : List TxPacket} (h : Wakes u u' moved)
    (henabled : u.txStopped = false → u.txInterrupt = true ∨ phase = .cleared)
    (hstopped : u'.txStopped = false) : u'.txInterrupt = true ∨ phase = .cleared := by
  rw [h.txStopped] at hstopped
  rw [h.txInterrupt]
  cases hbefore : u.txStopped with
  | true =>
    rw [hbefore, Bool.true_and] at hstopped
    left
    rw [hstopped]
    simp
  | false =>
    rcases henabled hbefore with hint | hphase
    · left
      rw [hint, Bool.true_or]
    · exact .inr hphase

theorem Attentive.push {d : DevTxPacket} {moved : List TxPacket} (h : Attentive s phase call)
    (hpush : Pushes s s' d moved) : Attentive s' phase call := by
  constructor
  · exact hpush.served
  · intro hne
    rw [hpush.device] at hne
    cases moved with
    | nil => exact Wakes.stopped hpush.wakes (h.device (by simpa using hne))
    | cons => rw [hpush.wakes.txStopped, List.isEmpty_cons, Bool.and_false]
  · rw [hpush.wakes.echo]
    intro hne
    rcases h.echo hne with hstopped | hcall
    · exact .inl (Wakes.stopped hpush.wakes hstopped)
    · exact .inr hcall
  · exact Wakes.enabled hpush.wakes h.enabled
  · exact h.calling

theorem Attentive.congr (h : Attentive s phase call) (hpending : s'.pending = s.pending)
    (huart : s'.uart = s.uart) : Attentive s' phase call := by
  have hpackets : pendingPackets s' = pendingPackets s := by
    rw [pendingPackets, hpending, pendingPackets]
  have hdevice : devicePackets s' = devicePackets s := by rw [devicePackets, huart, devicePackets]
  constructor
  · rw [hpackets, hdevice]
    exact h.served
  · rw [hdevice, huart]
    exact h.device
  · rw [huart]
    exact h.echo
  · rw [huart]
    exact h.enabled
  · exact h.calling

theorem Attentive.turn {w : Option Written} (h : Attentive s phase call)
    (hcore : Core s writing ids ks [] ds) (hturn : Turn s writing ks ds w s') :
    Attentive s' phase call := by
  have hserved := h.served
  have hdevice := h.device
  rw [hcore.pendingPackets_eq, hcore.devicePackets_eq] at hserved
  rw [hcore.devicePackets_eq] at hdevice
  cases hturn with
  | echo _ _ hecho => exact { h with echo := fun _ => h.echo hecho }
  | byte => exact { h with }
  | complete _ _ hadvanced =>
    obtain ⟨ids', hnext⟩ := hadvanced.core
    have hawake := Wakes.stopped hadvanced.wakes (hdevice (List.cons_ne_nil _ _))
    constructor
    · rw [hnext.pendingPackets_eq, hnext.devicePackets_eq]
      exact hadvanced.served
    · exact fun _ => hawake
    · exact fun _ => .inl hawake
    · exact Wakes.enabled hadvanced.wakes h.enabled
    · exact h.calling
  | stop _ hecho =>
    have hnone : ks = [] := by
      by_contra hne
      exact hserved hne rfl
    constructor
    · intro hne
      change pendingPackets s ≠ [] at hne
      rw [hcore.pendingPackets_eq] at hne
      exact absurd hnone hne
    · intro hne
      change devicePackets s ≠ [] at hne
      rw [hcore.devicePackets_eq] at hne
      exact absurd rfl hne
    · exact fun hne => absurd hecho hne
    · intro hstopped
      cases hstopped
    · exact h.calling

theorem Attentive.flows (h : Attentive s .idle false) (hcore : Core s writing ids ks [] ds) :
    Flows s := by
  have hpending := hcore.queues.pending.empty_iff hcore.queues.pending_lt
  have htx := hcore.queues.device.empty_iff hcore.queues.device_lt
  have hserved := h.served
  have hdevice := h.device
  rw [hcore.pendingPackets_eq, hcore.devicePackets_eq] at hserved
  rw [hcore.devicePackets_eq] at hdevice
  constructor
  · intro hne heq
    exact hserved (fun hnil => hne (hpending.mpr hnil)) (htx.mp heq)
  · intro hwaits
    have hstopped : s.uart.txStopped = false := by
      rcases hwaits with hne | hne
      · exact hdevice fun hnil => hne (htx.mpr hnil)
      · rcases h.echo hne with hstopped | hcall
        · exact hstopped
        · cases hcall.1
    refine ⟨hstopped, ?_⟩
    rcases h.enabled hstopped with henabled | hphase
    · exact henabled
    · cases hphase

end Shell

structure TaskInv (c : TaskView) : Prop where
  inv : Inv c.system
  attentive : Attentive c.system.shell c.system.echoPhase c.echoCall

theorem Attentive.echoed {s : Shell} {call : Bool} (h : Attentive s .idle call) (b : UInt8) :
    Attentive { s with uart := echoTurn s.uart b } .idle
      (call || decide (1 < s.uart.echo.freeItems echoBuffSize)) := by
  rw [echoTurn]
  split
  · rename_i hfree
    rw [decide_eq_true hfree, Bool.or_true]
    exact ⟨h.served, h.device, fun _ => .inr ⟨rfl, by simp⟩, h.enabled, fun _ => rfl⟩
  · rename_i hfull
    rw [decide_eq_false hfull, Bool.or_false]
    exact h

theorem Attentive.step {c : TaskView} {e : Event} {s : System} (hinv : Inv c.system)
    (h : Attentive c.system.shell c.system.echoPhase c.echoCall)
    (hfits : PendingFits c.system e) (hallows : c.allows e = true)
    (hstep : step c.system e = some s) : Attentive s.shell s.echoPhase (c.after e s).echoCall := by
  have hsound := hinv.sound
  cases step_cases hstep with
  | allocated halloc | overflowed halloc =>
    obtain ⟨hpending, huart⟩ := allocLogBlk_same halloc
    exact h.congr hpending huart
  | pushed len htag =>
    obtain ⟨-, -, moved, hpush⟩ := hsound.pushBlock (hfits.room rfl) len htag
    exact h.push hpush
  | hinted | hints => exact h
  | hintPushed =>
    obtain ⟨-, -, moved, hpush⟩ := hsound.pushHint (hfits.room rfl) shellFaultStrLen .faultHint
      isLog_faultHintTag (by decide)
    exact (h.push hpush).congr rfl rfl
  | rxTested | rxLeft => exact h
  | cmdHinted =>
    obtain ⟨-, -, moved, hpush⟩ := hsound.pushHint (hfits.room rfl) shellFaultStrLen .cmdHint
      isLog_cmdHintTag (by decide)
    exact h.push hpush
  | responded len hset =>
    obtain ⟨-, -, moved, hpush⟩ := hsound.pushRsp (hfits.room rfl) len (hinv.handling hset)
    exact h.push hpush
  | echoed b =>
    have hidle : c.system.echoPhase = .idle := of_decide_eq_true hallows
    rw [hidle] at h ⊢
    exact h.echoed b
  | echoTested hidle hstopped =>
    refine ⟨h.served, h.device, fun _ => .inr ⟨hallows, by simp⟩, ?_, fun _ => hallows⟩
    intro hclear
    cases hclear.symm.trans hstopped
  | echoCleared htested =>
    have hcall := h.calling (by rw [htested]; simp)
    exact ⟨h.served, fun _ => rfl, fun _ => .inl rfl, fun _ => .inr rfl, fun _ => hcall⟩
  | echoEnabled hcleared =>
    refine ⟨h.served, h.device, ?_, fun _ => .inl rfl, fun hne => absurd rfl hne⟩
    intro hne
    rcases h.echo hne with hstopped | hcall
    · exact .inl hstopped
    · exact absurd hcleared hcall.2
  | turned =>
    obtain ⟨ids, ks, ds, hcore, hcurrent⟩ := hsound
    exact h.turn hcore (turn_cases hcore hcurrent)

theorem TaskInv.step {c c' : TaskView} {e : TaskEvent} (h : TaskInv c) (hfits : TaskFits c e)
    (hstep : taskStep c e = some c') : TaskInv c' := by
  cases taskStep_cases hstep with
  | @base e s hallows hbase =>
    constructor
    · rw [c.after_system]
      exact h.inv.step hfits hbase
    · rw [c.after_system]
      exact h.attentive.step h.inv hfits hallows hbase
  | echoReturn _ hidle hstopped =>
    have hattentive := h.attentive
    refine ⟨h.inv, hattentive.served, hattentive.device, fun _ => .inl hstopped,
      hattentive.enabled, ?_⟩
    intro hne
    exact absurd hidle hne

theorem taskInv_start : TaskInv TaskView.start := by
  constructor
  · exact ⟨sound_start, by simp [TaskView.start, System.start]⟩
  · refine ⟨fun hne => absurd rfl hne, fun hne => absurd rfl hne, fun hne => absurd rfl hne, ?_,
      fun hne => absurd rfl hne⟩
    intro hstopped
    cases hstopped

section Results

variable {c : TaskView}

theorem taskInv_of_reached (h : Reached taskStep TaskFits TaskView.start c) : TaskInv c :=
  h.invariant TaskInv taskInv_start fun _ _ _ hinv hfits hstep => hinv.step hfits hstep

/-- Outside a call that echoes, what is queued is being sent: the log never stalls. -/
theorem reached_flows (h : Reached taskStep TaskFits TaskView.start c)
    (hcall : c.echoCall = false) : Flows c.system.shell := by
  obtain ⟨⟨⟨ids, ks, ds, hcore, -⟩, -⟩, hattentive⟩ := taskInv_of_reached h
  have hidle : c.system.echoPhase = .idle := by
    by_contra hne
    rw [hattentive.calling hne] at hcall
    cases hcall
  rw [hidle, hcall] at hattentive
  exact hattentive.flows hcore

theorem reached_flows_pending :
    ∃ c, Reached taskStep TaskFits TaskView.start c ∧ c.echoCall = false ∧
      (c.system.shell.pending.outIdx ≠ c.system.shell.pending.inIdx ∧
        c.system.shell.uart.echo.outIdx ≠ c.system.shell.uart.echo.inIdx) ∧
      Flows c.system.shell := by
  obtain ⟨c, hreached, hcall, hqueued⟩ := exists_reached taskStep TaskFits TaskView.start
    (fun c => c.echoCall = false ∧ c.system.shell.pending.outIdx ≠ c.system.shell.pending.inIdx ∧
        c.system.shell.uart.echo.outIdx ≠ c.system.shell.uart.echo.inIdx)
    ([.echo 65, .echoTest, .echoClear, .echoEnable].map TaskEvent.base ++
      (List.range 8).flatMap (fun b => [.base (.alloc 10), .base (.push (blockTag .buf3 b) 5)]) ++
      [.base .txTurn, .base .txTurn, .base (.echo 66), .echoReturn]) (by decide)
  exact ⟨c, hreached, hcall, hqueued, reached_flows hreached hcall⟩

end Results

end BekenSoc.ShellTaskRuns
