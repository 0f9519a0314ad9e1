import BekenSoc.ShellLogLengths
import BekenSoc.ShellLogRuns

namespace BekenSoc.ShellLogCalls

open Function GuardedRuns RingBuffers ShellLog ShellLogQueues ShellLogRuns ShellLogLengths

structure Logging where
  system : System
  /-- the call that writes the block with this tag -/
  calls : Nat → Option LogCall

inductive LogEvent
  /-- a log function allocates its block -/
  | call (c : LogCall)
  /-- the log function that has the block pushes it -/
  | finish (tag : Nat)
  /-- a command has left its answer in `rsp_buff` -/
  | respond (rspBuff : List UInt8)
  | base (e : Event)
  deriving DecidableEq

def ofCall : Event → Bool
  | .alloc _ => true
  | .push _ _ => true
  | .rsp _ => true
  | _ => false

def Logging.called (r : Logging) (c : LogCall) : Nat → Option LogCall :=
  match (allocLogBlk r.system.shell c.requestLen).2 with
  | some tag => update r.calls tag (some c)
  | none => r.calls

def logStep (r : Logging) : LogEvent → Option Logging
  | .call c =>
    if c.valid then
      (step r.system (.alloc c.requestLen)).map fun s => ⟨s, r.called c⟩
    else none
  | .finish tag =>
    match r.calls tag with
    | some c =>
      (step r.system (.push tag c.pushLen)).map fun s =>
        ⟨s, update r.calls tag none⟩
    | none => none
  | .respond rspBuff => (step r.system (.rsp (responseLen rspBuff))).map fun s => ⟨s, r.calls⟩
  | .base e => if ofCall e then none else (step r.system e).map fun s => ⟨s, r.calls⟩

def Logging.start : Logging := ⟨System.start, fun _ => none⟩

def shapeOf : LogEvent → Option Shape
  | .call c => some c.shape
  | .respond _ => some .response
  | .base .hintPush => some .faultHint
  | .base .cmdHint => some .cmdHint
  | _ => none

def UsesOnly (allowed : Shape → Prop) (_ : Logging) (e : LogEvent) : Prop :=
  ∀ shape, shapeOf e = some shape → allowed shape

inductive LogSteps (r : Logging) : LogEvent → Logging → Prop
  | called {c : LogCall} {s : System} : c.valid = true →
      step r.system (.alloc c.requestLen) = some s → LogSteps r (.call c) ⟨s, r.called c⟩
  | finished {tag : Nat} {c : LogCall} {s : System} : r.calls tag = some c →
      step r.system (.push tag c.pushLen) = some s →
      LogSteps r (.finish tag) ⟨s, update r.calls tag none⟩
  | responded {rspBuff : List UInt8} {s : System} :
      step r.system (.rsp (responseLen rspBuff)) = some s →
      LogSteps r (.respond rspBuff) ⟨s, r.calls⟩
  | base {e : Event} {s : System} : ofCall e = false → step r.system e = some s →
      LogSteps r (.base e) ⟨s, r.calls⟩

theorem logStep_cases {r r' : Logging} {e : LogEvent} (h : logStep r e = some r') :
    LogSteps r e r' := by
  cases e with
  | call =>
    rw [logStep] at h
    split at h
    · rename_i hvalid
      obtain ⟨s, hstep, rfl⟩ := Option.map_eq_some_iff.mp h
      exact .called hvalid hstep
    · cases h
  | finish tag =>
    simp only [logStep] at h
    cases hcall : r.calls tag with
    | none =>
      rw [hcall] at h
      cases h
    | some =>
      rw [hcall] at h
      obtain ⟨s, hstep, rfl⟩ := Option.map_eq_some_iff.mp h
      exact .finished hcall hstep
  | respond =>
    obtain ⟨s, hstep, rfl⟩ := Option.map_eq_some_iff.mp h
    exact .responded hstep
  | base =>
    rw [logStep] at h
    split at h
    · cases h
    · rename_i hown
      obtain ⟨s, hstep, rfl⟩ := Option.map_eq_some_iff.mp h
      exact .base (eq_false_of_ne_true hown) hstep

def HandedFits (s : Shell) : Prop :=
  ∀ i, (s.uart.txList.slots i).len ≤ objectLen (s.uart.txList.slots i).packet

def TxFits (k : TxPacket) : Prop :=
  ∀ buf, packetBuf k.blkTag = some buf → k.packetLen ≤ objectLen buf

structure LengthsFit (s : Shell) : Prop where
  pending : ∀ i, TxFits (s.pending.slots i)
  device : HandedFits s

section Shell

variable {s s' : Shell}

theorem LengthsFit.congr (h : LengthsFit s) (hpending : s'.pending.slots = s.pending.slots)
    (htx : s'.uart.txList.slots = s.uart.txList.slots) : LengthsFit s' := by
  constructor
  · rw [hpending]
    exact h.pending
  · rw [HandedFits, htx]
    exact h.device

theorem shellUartWriteAsync_slots (u : Uart) (d : DevTxPacket) (i : Nat) :
    (shellUartWriteAsync u d.packet d.len d.tag).1.txList.slots i = d ∨
      (shellUartWriteAsync u d.packet d.len d.tag).1.txList.slots i = u.txList.slots i := by
  rw [shellUartWriteAsync]
  split
  · have htrigger : ∀ u : Uart, (shellUartTxTrigger u).txList = u.txList := by
      intro u
      rw [shellUartTxTrigger]
      split <;> rfl
    rw [htrigger]
    rcases eq_or_ne i u.txList.inIdx with rfl | hne
    · exact .inl (update_self ..)
    · exact .inr (update_of_ne hne ..)
  · exact .inr rfl

theorem LengthsFit.txReq (h : LengthsFit s) : LengthsFit (txReqProcess s) := by
  rw [txReqProcess]
  split
  · exact h
  · split
    · exact h
    · simp only
      split
      · exact h.congr rfl rfl
      · rename_i packet hbuf
        refine ⟨h.pending, fun i => ?_⟩
        have hfront : s.pending.front.packetLen ≤ objectLen packet :=
          h.pending s.pending.outIdx packet hbuf
        rcases shellUartWriteAsync_slots s.uart
          ⟨packet, s.pending.front.packetLen, s.pending.front.blkTag⟩ i with heq | heq
        · change ((shellUartWriteAsync s.uart packet s.pending.front.packetLen
            s.pending.front.blkTag).1.txList.slots i).len ≤ _
          exact heq ▸ hfront
        · change ((shellUartWriteAsync s.uart packet s.pending.front.packetLen
            s.pending.front.blkTag).1.txList.slots i).len ≤ _
          exact heq ▸ h.device i

theorem LengthsFit.push (h : LengthsFit s) {tag len : Nat} (hfits : TxFits ⟨tag, len⟩) :
    LengthsFit (pushPacket s tag len) := by
  apply LengthsFit.txReq
  refine ⟨fun i => ?_, h.device⟩
  change TxFits (update s.pending.slots s.pending.inIdx ⟨tag, len⟩ i)
  rcases eq_or_ne i s.pending.inIdx with rfl | hne
  · rw [update_self]
    exact hfits
  · rw [update_of_ne hne]
    exact h.pending i

theorem freeLogBlk_pending (s : Shell) (tag : Nat) : (freeLogBlk s tag).pending = s.pending := by
  rw [freeLogBlk]
  split
  · rfl
  · split <;> rfl

theorem LengthsFit.complete (h : LengthsFit s) (pbuf : Buffer) (tag : Nat) :
    LengthsFit (shellTxComplete s pbuf tag) := by
  rw [shellTxComplete]
  split
  · apply LengthsFit.txReq
    exact h.congr rfl rfl
  · split
    · apply LengthsFit.txReq
      exact h.congr rfl rfl
    · split
      · simp only [logComplete]
        split
        · exact h.congr rfl rfl
        · apply LengthsFit.txReq
          apply h.congr
          · rw [freeLogBlk_pending]
          · rw [freeLogBlk_uart]
      · exact h.congr rfl rfl

theorem LengthsFit.sendTurn (h : LengthsFit s) (cur : Buffer) :
    LengthsFit (ShellLog.sendTurn s cur) := by
  rw [ShellLog.sendTurn]
  split
  · exact h.congr rfl rfl
  · exact (h.complete cur s.uart.packetTag).congr rfl rfl

theorem LengthsFit.txTurn (h : LengthsFit s) : LengthsFit (shellUartTxTurn s) := by
  have hnext : LengthsFit (shellUartTxTurn.nextPacket s) := by
    rw [shellUartTxTurn.nextPacket]
    split
    · exact h.congr rfl rfl
    · split
      · apply LengthsFit.sendTurn
        exact h.congr rfl rfl
      · exact h.congr rfl rfl
  rw [shellUartTxTurn]
  split
  · split
    · exact hnext
    · exact h.sendTurn _
  · exact hnext

end Shell

theorem allocFrom_le {logLen tag : Nat} {ps : List Pool} {freeQueue freeQueue' : Pool → FreeQueue}
    (h : allocFrom logLen ps freeQueue = (freeQueue', some tag)) :
    ∃ p, poolOf (getQueueId tag) = some p ∧ logLen ≤ blkLen p := by
  induction ps generalizing freeQueue with
  | nil => cases h
  | cons p ps ih =>
    simp only [allocFrom] at h
    split at h
    · exact ih h
    · rename_i hlen
      split at h
      · cases h
        refine ⟨p, ?_, Nat.not_lt.mp hlen⟩
        change poolOf (getQueueId (blockTag p _)) = some p
        rw [getQueueId_blockTag, poolOf_queueIdOf]
      · exact ih h

theorem allocLogBlk_le {s : Shell} {logLen tag : Nat} (h : (allocLogBlk s logLen).2 = some tag) :
    ∃ p, poolOf (getQueueId tag) = some p ∧ logLen ≤ blkLen p := by
  rcases hfrom : allocFrom logLen pools s.freeQueue with ⟨freeQueue, _ | tag'⟩
  · simp only [allocLogBlk, hfrom] at h
    cases h
  · simp only [allocLogBlk, hfrom] at h
    cases h
    exact allocFrom_le hfrom

theorem packetBuf_pool {tag : Nat} {p : Pool} {buf : Buffer}
    (hpool : poolOf (getQueueId tag) = some p) (hbuf : packetBuf tag = some buf) :
    objectLen buf = blkLen p := by
  simp only [packetBuf, hpool] at hbuf
  obtain ⟨-, rfl⟩ := Option.ite_some_none_eq_some.mp hbuf
  rfl

def CallsFit (calls : Nat → Option LogCall) : Prop :=
  ∀ tag c, calls tag = some c → ∃ p, poolOf (getQueueId tag) = some p ∧ c.pushLen ≤ blkLen p

structure CallInv (r : Logging) : Prop where
  lengths : LengthsFit r.system.shell
  calls : CallsFit r.calls

section Steps

variable {r r' : Logging} {e : LogEvent} {allowed : Shape → Prop}

theorem CallsFit.called (h : CallsFit r.calls) {c : LogCall} (hvalid : c.valid = true)
    (hfits : c.shape.Fits) : CallsFit (r.called c) := by
  intro tag c' hcall
  simp only [Logging.called] at hcall
  cases halloc : (allocLogBlk r.system.shell c.requestLen).2 with
  | none =>
    rw [halloc] at hcall
    exact h tag c' hcall
  | some tag' =>
    rw [halloc] at hcall
    simp only at hcall
    rcases eq_or_ne tag tag' with rfl | hne
    · rw [update_self] at hcall
      cases hcall
      obtain ⟨p, hpool, hreq⟩ := allocLogBlk_le halloc
      exact ⟨p, hpool, LogCall.pushLen_le hvalid hfits hreq⟩
    · rw [update_of_ne hne] at hcall
      exact h tag c' hcall

theorem CallsFit.finished (h : CallsFit r.calls) (tag : Nat) :
    CallsFit (update r.calls tag none) := by
  intro tag' c hcall
  rcases eq_or_ne tag' tag with rfl | hne
  · rw [update_self] at hcall
    cases hcall
  · rw [update_of_ne hne] at hcall
    exact h tag' c hcall

theorem LengthsFit.baseStep {s s' : System} {e : Event} (h : LengthsFit s.shell)
    (hown : ofCall e = false) (hcmd : e ≠ .cmdHint) (hstep : step s e = some s') :
    LengthsFit s'.shell := by
  cases step_cases hstep with
  | allocated | overflowed | pushed => cases hown
  | hinted | hints => exact h
  | hintPushed =>
    have hfits : TxFits ⟨faultHintTag, shellFaultStrLen⟩ := by
      intro buf hbuf
      have htag : packetBuf faultHintTag = some .faultStr := by decide
      obtain rfl := Option.some.inj (htag.symm.trans hbuf)
      decide
    exact (h.push hfits).congr rfl rfl
  | rxTested | rxLeft => exact h
  | cmdHinted => exact absurd rfl hcmd
  | responded => cases hown
  | echoed b =>
    obtain ⟨htx, -⟩ := echoTurn_same s.shell.uart b
    exact h.congr rfl (congrArg RingBuffer.slots htx)
  | echoTested => exact h
  | echoCleared | echoEnabled => exact h.congr rfl rfl
  | turned => exact h.txTurn

theorem CallInv.step (h : CallInv r) (hfits : ∀ shape, allowed shape → shape.Fits)
    (huses : UsesOnly allowed r e) (hstep : logStep r e = some r') : CallInv r' := by
  cases logStep_cases hstep with
  | @called c s hvalid hbase =>
    refine ⟨?_, h.calls.called hvalid (hfits _ (huses _ rfl))⟩
    cases step_cases hbase with
    | allocated halloc | overflowed halloc =>
      obtain ⟨hpending, huart⟩ := allocLogBlk_same halloc
      exact h.lengths.congr (congrArg RingBuffer.slots hpending)
        (congrArg (fun u => u.txList.slots) huart)
  | @finished tag c s hcall hbase =>
    cases step_cases hbase with
    | pushed =>
      refine ⟨h.lengths.push ?_, h.calls.finished tag⟩
      intro buf hbuf
      obtain ⟨p, hpool, hle⟩ := h.calls tag c hcall
      rw [packetBuf_pool hpool hbuf]
      exact hle
  | @responded rspBuff s hbase =>
    cases step_cases hbase with
    | responded =>
      have hongoing : LengthsFit { r.system.shell with rspOngoing := true } :=
        h.lengths.congr rfl rfl
      refine ⟨hongoing.push ?_, h.calls⟩
      intro buf hbuf
      have htag : packetBuf rspTag = some .rspBuff := by decide
      obtain rfl := Option.some.inj (htag.symm.trans hbuf)
      exact responseLen_le rspBuff
  | @base e s hown hbase =>
    refine ⟨h.lengths.baseStep hown ?_ hbase, h.calls⟩
    rintro rfl
    exact hfits _ (huses _ rfl)

end Steps

section Start

variable {allowed : Shape → Prop}

theorem allocLogBlk_start {n : Nat} {p : Pool} (hreq : n ≤ blkLen p) :
    ∃ q, blkLen q ≤ blkLen p ∧ allocLogBlk Shell.start n = ({ Shell.start with
          freeQueue := update Shell.start.freeQueue q { Shell.start.freeQueue q with
              blkList := (Shell.start.freeQueue q).blkList.advance (blkNum q)
              freeBlkNum := blkNum q - 1 }
          shellLogCount := 1 }, some (blockTag q 0)) := by
  rcases Nat.lt_or_ge (blkLen .buf3) n with h3 | h3
  · rcases Nat.lt_or_ge (blkLen .buf2) n with h2 | h2
    · have hp : p = .buf1 := by
        cases p with
        | buf3 | buf2 => omega
        | buf1 => rfl
      subst hp
      refine ⟨.buf1, Nat.le_refl _, ?_⟩
      simp only [allocLogBlk, pools, allocFrom, if_pos h3, if_pos h2, if_neg (Nat.not_lt.mpr hreq)]
      rfl
    · refine ⟨.buf2, ?_, ?_⟩
      · cases p with
        | buf3 => omega
        | buf2 => exact Nat.le_refl _
        | buf1 => decide
      · simp only [allocLogBlk, pools, allocFrom, if_pos h3, if_neg (Nat.not_lt.mpr h2)]
        rfl
  · refine ⟨.buf3, by cases p <;> decide, ?_⟩
    simp only [allocLogBlk, pools, allocFrom, if_neg (Nat.not_lt.mpr h3)]
    rfl

theorem pushPacket_first {s : Shell} {tag len : Nat} {buf : Buffer}
    (hpending : s.pending = Shell.start.pending) (huart : s.uart = Shell.start.uart)
    (hbuf : packetBuf tag = some buf) :
    (pushPacket s tag len).uart.txList.slots 0 = ⟨buf, len, tag⟩ := by
  have hnext : txReqProcess (pushPendingQueue s tag len) =
      sendPacket { pushPendingQueue s tag len with
        pending := (Shell.start.pending.put shellLogPendNum ⟨tag, len⟩).advance shellLogPendNum
        asserts := s.asserts ++ requestAsserts s.rspOngoing tag } buf ⟨tag, len⟩ := by
    have hfront : (Shell.start.pending.put shellLogPendNum ⟨tag, len⟩).front = ⟨tag, len⟩ := rfl
    simp only [txReqProcess, pushPendingQueue, hpending, huart, hfront, hbuf]
    rfl
  rw [pushPacket, hnext]
  change (shellUartWriteAsync s.uart buf len tag).1.txList.slots 0 = _
  rw [huart]
  rfl

theorem reached_handed {c : LogCall} {p : Pool} (hvalid : c.valid = true)
    (hallowed : allowed c.shape) (hreq : c.requestLen ≤ blkLen p) :
    ∃ r q, Reached logStep (UsesOnly allowed) Logging.start r ∧ blkLen q ≤ blkLen p ∧
      r.system.shell.uart.txList.slots 0 = ⟨.log q 0, c.pushLen, blockTag q 0⟩ := by
  obtain ⟨q, hle, halloc⟩ := allocLogBlk_start hreq
  obtain ⟨hpending, huart⟩ := allocLogBlk_same (rfl : allocLogBlk Shell.start c.requestLen = _)
  have hcall : logStep Logging.start (.call c) = some ⟨{ System.start with
          shell := (allocLogBlk Shell.start c.requestLen).1
          writing := [blockTag q 0] }, update (fun _ => none) (blockTag q 0) (some c)⟩ := by
    simp only [logStep, hvalid, if_true, Logging.called, Logging.start, System.start, step, halloc]
    rfl
  have hfinish : ∀ s : System, s.writing = [blockTag q 0] →
      logStep ⟨s, update (fun _ => none) (blockTag q 0) (some c)⟩ (.finish (blockTag q 0)) = some
        ⟨{ s with
            shell := pushPacket s.shell (blockTag q 0) c.pushLen
            writing := s.writing.erase (blockTag q 0) },
          update (update (fun _ => none) (blockTag q 0) (some c)) (blockTag q 0) none⟩ := by
    intro s hwriting
    have hmem : blockTag q 0 ∈ s.writing := by rw [hwriting]; exact List.mem_singleton_self _
    simp only [logStep, update_self, step, if_pos hmem]
    rfl
  have hfirst : UsesOnly allowed Logging.start (.call c) := by
    intro shape hshape
    exact Option.some.inj hshape ▸ hallowed
  refine ⟨_, q, (Reached.start.step _ hfirst hcall).step (.finish (blockTag q 0)) ?_
    (hfinish _ rfl), hle, ?_⟩
  · intro shape hshape
    cases hshape
  · exact pushPacket_first hpending huart (packetBuf_blockTag (by cases q <;> decide))

theorem reached_cmdHint (hallowed : allowed .cmdHint) :
    ∃ r, Reached logStep (UsesOnly allowed) Logging.start r ∧
      r.system.shell.uart.txList.slots 0 = ⟨.cmdOvfStr, shellFaultStrLen, cmdHintTag⟩ := by
  have hrx : logStep Logging.start (.base .rxInd) = some
      ⟨{ System.start with rxHandling := true }, fun _ => none⟩ := rfl
  have hcmd : logStep ⟨{ System.start with rxHandling := true }, fun _ => none⟩
      (.base .cmdHint) = some
      ⟨{ System.start with
          shell := pushPacket Shell.start cmdHintTag shellFaultStrLen
          rxHandling := true }, fun _ => none⟩ := rfl
  refine ⟨_, (Reached.start.step _ ?_ hrx).step _ ?_ hcmd, ?_⟩
  · intro shape hshape
    cases hshape
  · intro shape hshape
    exact Option.some.inj hshape ▸ hallowed
  · exact pushPacket_first rfl rfl (by decide)

end Start

/-- Runs of calls whose shapes are among the allowed ones. -/
theorem handedFits_iff (allowed : Shape → Prop) :
    (∀ r, Reached logStep (UsesOnly allowed) Logging.start r → HandedFits r.system.shell) ↔
      ∀ shape, allowed shape → shape.Fits := by
  constructor
  · intro hall shape hallowed
    by_contra hunfit
    have hcall : ∀ c : LogCall, c.valid = true → c.shape = shape →
        ∀ p, c.requestLen ≤ blkLen p → blkLen p < c.pushLen → False := by
      intro c hvalid hshape p hreq hlt
      obtain ⟨r, q, hreached, hle, hslot⟩ := reached_handed hvalid (hshape ▸ hallowed) hreq
      have hhanded := hall r hreached 0
      rw [hslot] at hhanded
      change c.pushLen ≤ blkLen q at hhanded
      omega
    cases shape with
    | text =>
      obtain ⟨c, hvalid, hshape, p, hreq, hlt⟩ := LogCall.exists_unfit_text hunfit
      exact hcall c hvalid hshape p hreq hlt
    | spy =>
      obtain ⟨c, hvalid, hshape, p, hreq, hlt⟩ := LogCall.exists_unfit_spy (not_not.mp hunfit)
      exact hcall c hvalid hshape p hreq hlt
    | cmdHint =>
      obtain ⟨r, hreached, hslot⟩ := reached_cmdHint hallowed
      have hhanded := hall r hreached 0
      rw [hslot] at hhanded
      exact absurd hhanded (by decide)
    | trace | raw | response | faultHint => exact hunfit trivial
  · intro hfits r hreached
    have hinv : CallInv r := by
      refine hreached.invariant CallInv ?_ fun _ _ _ hinv huses hstep =>
        hinv.step hfits huses hstep
      refine ⟨⟨fun i buf hbuf => Nat.zero_le _, fun i => Nat.zero_le _⟩, ?_⟩
      intro tag c hcall
      cases hcall
    exact hinv.lengths.device

theorem long_text_leaves_block :
    ∃ r, Reached logStep anyStep Logging.start r ∧ ¬HandedFits r.system.shell := by
  obtain ⟨r, hreached, hslot⟩ := exists_reached logStep anyStep Logging.start
    (fun r => r.system.shell.uart.txList.slots 0 = ⟨.log .buf3 0, 65535, blockTag .buf3 0⟩)
    [.call (.text none 65535 false), .finish (blockTag .buf3 0)] (by decide)
  refine ⟨r, hreached, fun hfits => ?_⟩
  have hhanded := hfits 0
  rw [hslot] at hhanded
  exact absurd hhanded (by decide)

end BekenSoc.ShellLogCalls
