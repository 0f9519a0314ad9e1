import BekenSoc.ShellLogCalls
import BekenSoc.ShellLogCustody
import BekenSoc.WovenStreams

namespace BekenSoc.ShellLogStream

open Function GuardedRuns RingBuffers WovenStreams ShellLog ShellLogQueues ShellLogRuns List Option
open ShellLogLengths ShellLogCalls ShellLogCustody

variable {c : LogCall} {s : System}

structure Memory where
  pool : Pool → Nat → UInt8
  rspBuff : Nat → UInt8

structure Stream where
  logging : Logging
  memory : Memory
  pushed : List (List UInt8)
  echoed : List UInt8
  sent : List UInt8

inductive StreamEvent
  | log (e : LogEvent)
  /-- a task writes a byte of the block that it has -/
  | write (tag i : Nat) (b : UInt8)
  /-- the shell task writes a byte of `rsp_buff` -/
  | rspWrite (i : Nat) (b : UInt8)

def Stream.shell (r : Stream) : Shell := r.logging.system.shell

def readBytes (f : Nat → UInt8) (start : Nat) : Nat → List UInt8
  | 0 => []
  | n + 1 => f start :: readBytes f (start + 1) n

section Model

-- the flash from the two strings on
variable (rom : Buffer → Nat → UInt8)

def byteAt (m : Memory) : Buffer → Nat → UInt8
  | .log p blkId, i => m.pool p (blkId * blkLen p + i)
  | .rspBuff, i => m.rspBuff i
  | .faultStr, i => rom .faultStr i
  | .cmdOvfStr, i => rom .cmdOvfStr i

def content (m : Memory) (d : DevTxPacket) : List UInt8 := readBytes (byteAt rom m d.packet) 0 d.len

def written (m : Memory) : Written → UInt8
  | .echo b => b
  | .packet buf i => byteAt rom m buf i

def pushedBy (l : Logging) : LogEvent → Option TxPacket
  | .finish tag => (l.calls tag).map fun c => ⟨tag, c.pushLen⟩
  | .respond rspBuff => some ⟨rspTag, responseLen rspBuff⟩
  | .base .hintPush => some ⟨faultHintTag, shellFaultStrLen⟩
  | .base .cmdHint => some ⟨cmdHintTag, shellFaultStrLen⟩
  | _ => none

def echoedBy (u : Uart) : LogEvent → List UInt8
  | .base (.echo b) => if 1 < u.echo.freeItems echoBuffSize then [b] else []
  | _ => []

def writtenBy (u : Uart) : LogEvent → Option Written
  | .base .txTurn => shellUartTxTurnWrites u
  | _ => none

def Stream.after (r : Stream) (e : LogEvent) (l : Logging) : Stream where
  logging := l
  memory := r.memory
  pushed := r.pushed ++
    ((pushedBy r.logging e).map fun k => content rom r.memory (deviceTx k)).toList
  echoed := r.echoed ++ echoedBy r.shell.uart e
  sent := r.sent ++ ((writtenBy r.shell.uart e).map (written rom r.memory)).toList

def Memory.writeBlock (m : Memory) (p : Pool) (blkId i : Nat) (b : UInt8) : Memory :=
  { m with
    pool := update m.pool p (update (m.pool p) (blkId * blkLen p + i) b) }

def streamStep (r : Stream) : StreamEvent → Option Stream
  | .log e => (logStep r.logging e).map (r.after rom e)
  | .write tag i b =>
    match poolOf (getQueueId tag) with
    | some p =>
      if tag ∈ r.logging.system.writing ∧ i < blkLen p then
        some { r with memory := r.memory.writeBlock p (getBlockId tag) i b }
      else none
    | none => none
  | .rspWrite i b =>
    if r.logging.system.rxHandling = true ∧ i < shellRspBufLen then
      some { r with memory := { r.memory with rspBuff := update r.memory.rspBuff i b } }
    else none

end Model

def Stream.start (m : Memory) : Stream := ⟨Logging.start, m, [], [], []⟩

inductive StreamSteps (rom : Buffer → Nat → UInt8) (r : Stream) : StreamEvent → Stream → Prop
  | log {e : LogEvent} {l : Logging} : logStep r.logging e = some l →
      StreamSteps rom r (.log e) (r.after rom e l)
  | write {tag i : Nat} {p : Pool} (b : UInt8) : poolOf (getQueueId tag) = some p →
      tag ∈ r.logging.system.writing → i < blkLen p → StreamSteps rom r (.write tag i b)
        { r with memory := r.memory.writeBlock p (getBlockId tag) i b }
  | rspWrite {i : Nat} (b : UInt8) : r.logging.system.rxHandling = true → i < shellRspBufLen →
      StreamSteps rom r (.rspWrite i b) { r with memory :=
          { r.memory with rspBuff := update r.memory.rspBuff i b } }

theorem streamStep_cases {rom : Buffer → Nat → UInt8} {r r' : Stream} {e : StreamEvent}
    (h : streamStep rom r e = some r') : StreamSteps rom r e r' := by
  cases e with
  | log =>
    obtain ⟨l, hstep, rfl⟩ := map_eq_some_iff.mp h
    exact .log hstep
  | write tag i b =>
    simp only [streamStep] at h
    cases hpool : poolOf (getQueueId tag) with
    | none =>
      rw [hpool] at h
      cases h
    | some =>
      rw [hpool] at h
      obtain ⟨hwrite, rfl⟩ := ite_some_none_eq_some.mp h
      exact .write b hpool hwrite.1 hwrite.2
  | rspWrite i b =>
    obtain ⟨hwrite, rfl⟩ := ite_some_none_eq_some.mp h
    exact .rspWrite b hwrite.1 hwrite.2

def progress (u : Uart) : Nat := if u.curPacket.isSome then u.packetTxLen else 0

/-- The stream holds the packets in the order of their pushes, each whole as it was pushed,
with the echo bytes between them, up to the packets and the bytes that are still queued. -/
def Woven (r : Stream) : Prop :=
  ∃ packets echoes, packets.length = (packetLine r.shell).length ∧
    echoes.length = r.shell.uart.echo.count echoBuffSize ∧
    Merged r.pushed r.echoed r.sent packets echoes (progress r.shell.uart)

def pushesPacket : StreamEvent → Bool
  | .log (.finish _) => true
  | .log (.respond _) => true
  | .log (.base e) => pushes e
  | _ => false

def RingFits (r : Stream) (e : StreamEvent) : Prop :=
  pushesPacket e = false ∨ r.shell.pending.count shellLogPendNum + 1 < shellLogPendNum

instance (r : Stream) (e : StreamEvent) : Decidable (RingFits r e) :=
  inferInstanceAs (Decidable
    (pushesPacket e = false ∨ r.shell.pending.count shellLogPendNum + 1 < shellLogPendNum))

/-- The calls that write and push only cells of their own block.  A hint is read from the
flash, which does not change. -/
def KeepsToBlock : Shape → Prop
  | .cmdHint => True
  | .spy dataLen => dataLen ∉ [32761, 32781, 32793, 32829, 65529]
  | .text false formatted => formatted % 65536 ≠ 65535
  | .text true formatted => formatted % 65536 < 65529 ∨ formatted % 65536 = 65535
  | .trace | .raw | .response | .faultHint => True

instance : (shape : Shape) → Decidable (KeepsToBlock shape)
  | .spy _ => inferInstanceAs (Decidable (_ ∉ _))
  | .text false _ => inferInstanceAs (Decidable (_ ≠ _))
  | .text true _ => inferInstanceAs (Decidable (_ ∨ _))
  | .cmdHint | .trace | .raw | .response | .faultHint => isTrue trivial

def shapeKept : Option Shape → Prop
  | some shape => KeepsToBlock shape
  | none => True

instance : (shape : Option Shape) → Decidable (shapeKept shape)
  | some shape => inferInstanceAs (Decidable (KeepsToBlock shape))
  | none => isTrue trivial

def eventShape : StreamEvent → Option Shape
  | .log e => shapeOf e
  | _ => none

def StreamFits (r : Stream) (e : StreamEvent) : Prop := RingFits r e ∧ shapeKept (eventShape e)

instance (r : Stream) (e : StreamEvent) : Decidable (StreamFits r e) :=
  inferInstanceAs (Decidable (RingFits r e ∧ shapeKept (eventShape e)))

section Bytes

variable {f g : Nat → UInt8} {start n i : Nat}

theorem length_readBytes (f : Nat → UInt8) (start n : Nat) : (readBytes f start n).length = n := by
  induction n generalizing start with
  | zero => rfl
  | succ n ih => rw [readBytes, length_cons, ih]

theorem getElem?_readBytes (hi : i < n) : (readBytes f start n)[i]? = some (f (start + i)) := by
  induction n generalizing start i with
  | zero => omega
  | succ n ih =>
    cases i with
    | zero => rfl
    | succ => rw [readBytes, List.getElem?_cons_succ, ih (by omega), Nat.add_assoc, Nat.add_comm 1]

theorem readBytes_congr (h : ∀ i < n, f (start + i) = g (start + i)) :
    readBytes f start n = readBytes g start n := by
  induction n generalizing start with
  | zero => rfl
  | succ n ih =>
    have hfirst := h 0 (Nat.succ_pos n)
    rw [Nat.add_zero] at hfirst
    rw [readBytes]
    congr 1
    apply ih
    intro i hi
    rw [Nat.add_assoc, Nat.add_comm 1]
    exact h (i + 1) (Nat.succ_lt_succ hi)

end Bytes

section Line

variable {s s' : Shell} {writing : List Nat} {ids : Pool → List Nat} {ks : List TxPacket}
  {ds : List DevTxPacket} {d : DevTxPacket} {m : Memory} {rom : Buffer → Nat → UInt8}

section

variable (h : Core s writing ids ks [] ds)
include h

theorem Core.line_known (hd : d ∈ packetLine s) :
    Known d.tag ∧ packetBuf d.tag = some d.packet := by
  rw [h.packetLine_eq] at hd
  rcases mem_append.mp hd with hmem | hmem
  · exact h.deviceKnown d hmem
  · obtain ⟨k, hk, rfl⟩ := mem_map.mp hmem
    exact deviceTx_known (h.pendingKnown k hk)

theorem Core.line_tag (hd : d ∈ packetLine s) :
    0 < (ks.map TxPacket.blkTag).count d.tag + (ds.map DevTxPacket.tag).count d.tag := by
  have hmem : d.tag ∈ (packetLine s).map DevTxPacket.tag := mem_map.mpr ⟨d, hd, rfl⟩
  rw [h.packetLine_eq, map_append, map_tag_deviceTx, ← count_pos_iff, count_append] at hmem
  rwa [Nat.add_comm]

theorem Core.line_block {p : Pool} {b : Nat} (hd : d ∈ packetLine s)
    (hpacket : d.packet = .log p b) : b < blkNum p ∧ blockTag p b ∉ writing := by
  obtain ⟨hknown, hbuf⟩ := Core.line_known h hd
  have hpos := Core.line_tag h hd
  rw [hpacket] at hbuf
  generalize d.tag = tag at hknown hbuf hpos
  cases hknown with
  | @block q c hc =>
    rw [packetBuf_blockTag hc] at hbuf
    obtain ⟨rfl, rfl⟩ := Buffer.log.inj (Option.some.inj hbuf)
    refine ⟨hc, fun hwriting => ?_⟩
    have hplaced := h.placed q c hc
    have hwritingPos := count_pos_iff.mpr hwriting
    omega
  | rsp | faultHint | cmdHint => cases hbuf

theorem Core.line_rsp (hd : d ∈ packetLine s) (hpacket : d.packet = .rspBuff) :
    s.rspOngoing = true := by
  obtain ⟨hknown, hbuf⟩ := Core.line_known h hd
  have hpos := Core.line_tag h hd
  rw [hpacket] at hbuf
  generalize d.tag = tag at hknown hbuf hpos
  cases hknown with
  | @block q c hc =>
    rw [packetBuf_blockTag hc] at hbuf
    cases hbuf
  | rsp => exact h.rspOngoing_of_pos hpos
  | faultHint | cmdHint => cases hbuf

end

def InObject (d : DevTxPacket) : Prop := d.packet = .cmdOvfStr ∨ d.len ≤ objectLen d.packet

theorem cell_ne {len b c i j : Nat} (hne : b ≠ c) (hi : i < len) (hj : j < len) :
    b * len + i ≠ c * len + j := by
  intro heq
  have hdiv := congrArg (· / len) heq
  have hpos : 0 < len := by omega
  simp only [Nat.mul_comm _ len, Nat.mul_add_div hpos, Nat.div_eq_of_lt hi,
    Nat.div_eq_of_lt hj] at hdiv
  omega

theorem content_writeBlock (h : Core s writing ids ks [] ds) (hd : d ∈ packetLine s)
    (hin : InObject d) {q : Pool} {c i : Nat} (htag : blockTag q c ∈ writing) (hi : i < blkLen q)
    (b : UInt8) : content rom (m.writeBlock q c i b) d = content rom m d := by
  apply readBytes_congr
  intro j hj
  rw [Nat.zero_add]
  cases hpacket : d.packet with
  | log p blkId =>
    obtain ⟨-, hnot⟩ := Core.line_block h hd hpacket
    have hlen : d.len ≤ blkLen p := by
      rcases hin with hcmd | hle
      · cases hpacket.symm.trans hcmd
      · rwa [hpacket] at hle
    change update m.pool q _ p (blkId * blkLen p + j) = m.pool p (blkId * blkLen p + j)
    rcases eq_or_ne p q with rfl | hne
    · rw [update_self, update_of_ne]
      apply cell_ne _ (by omega) hi
      rintro rfl
      exact hnot htag
    · rw [update_of_ne hne]
  | rspBuff | faultStr | cmdOvfStr => rfl

theorem content_rspWrite (h : Core s writing ids ks [] ds) (hd : d ∈ packetLine s)
    (hongoing : s.rspOngoing = false) (i : Nat) (b : UInt8) :
    content rom { m with rspBuff := update m.rspBuff i b } d = content rom m d := by
  apply readBytes_congr
  intro j _
  cases hpacket : d.packet with
  | log => rfl
  | rspBuff => cases hongoing.symm.trans (Core.line_rsp h hd hpacket)
  | faultStr | cmdOvfStr => rfl

end Line

def Recorded (rom : Buffer → Nat → UInt8) (m : Memory) (s : Shell) (pushed : List (List UInt8))
    (echoed sent : List UInt8) : Prop :=
  ∃ waiting, s.uart.echo.Holds echoBuffSize waiting ∧ waiting.length < echoBuffSize ∧
    Merged pushed echoed sent ((packetLine s).map (content rom m)) waiting (progress s.uart)

section Records

variable {s s' : Shell} {writing : List Nat} {ids : Pool → List Nat} {ks : List TxPacket}
  {ds : List DevTxPacket} {d : DevTxPacket} {m m' : Memory} {rom : Buffer → Nat → UInt8}
  {pushed : List (List UInt8)} {echoed sent : List UInt8}

theorem Recorded.congr (h : Recorded rom m s pushed echoed sent)
    (hline : packetLine s' = packetLine s) (hecho : s'.uart.echo = s.uart.echo)
    (hprogress : progress s'.uart = progress s.uart) : Recorded rom m s' pushed echoed sent := by
  rw [Recorded, hline, hecho, hprogress]
  exact h

theorem Recorded.setMemory (h : Recorded rom m s pushed echoed sent)
    (hcontent : ∀ d ∈ packetLine s, content rom m' d = content rom m d) :
    Recorded rom m' s pushed echoed sent := by
  rw [Recorded, map_congr_left hcontent]
  exact h

theorem progress_of_none {u : Uart} (h : u.curPacket = none) : progress u = 0 := by
  rw [progress, h]
  rfl

theorem AtByte.progress_eq {u : Uart} {k : Nat} (h : AtByte u d k) : progress u = k := by
  cases h with
  | first hidle => exact progress_of_none hidle
  | within hcur =>
    rw [progress, hcur]
    rfl

section

variable (h : Recorded rom m s pushed echoed sent)
include h

theorem Recorded.push (hcore : Core s writing ids ks [] ds) (hcurrent : Current s.uart ds)
    {moved : List TxPacket} (hpush : Pushes s s' d moved) :
    Recorded rom m s' (pushed ++ [content rom m d]) echoed sent := by
  obtain ⟨waiting, hholds, hlen, hmerged⟩ := h
  have hprogress : progress s'.uart = progress s.uart := by
    rw [progress, hpush.curPacket, hpush.packetTxLen, progress]
  refine ⟨waiting, ?_, hlen, ?_⟩
  · rw [hpush.wakes.echo]
    exact hholds
  · rw [hpush.line, map_append, hprogress]
    refine hmerged.push _ fun hnil => ?_
    rw [hcore.packetLine_eq, map_eq_nil_iff, append_eq_nil_iff] at hnil
    rw [hnil.1] at hcurrent
    cases hcurrent with
    | idle _ hidle => exact progress_of_none hidle

theorem Recorded.echo (b : UInt8) : Recorded rom m { s with uart := echoTurn s.uart b } pushed
      (echoed ++ if 1 < s.uart.echo.freeItems echoBuffSize then [b] else []) sent := by
  obtain ⟨waiting, hholds, hlen, hmerged⟩ := h
  rw [echoTurn]
  split
  · rename_i hfree
    rw [hholds.freeItems_eq hlen] at hfree
    refine ⟨waiting ++ [b], hholds.put hlen b, ?_, hmerged.echo b⟩
    rw [length_append, length_singleton]
    omega
  · rw [append_nil]
    exact ⟨waiting, hholds, hlen, hmerged⟩

theorem Recorded.turn {w : Option Written} (hcore : Core s writing ids ks [] ds)
    (hturn : Turn s writing ks ds w s') :
    Recorded rom m s' pushed echoed (sent ++ (w.map (written rom m)).toList) := by
  obtain ⟨waiting, hholds, hlen, hmerged⟩ := h
  have hline := hcore.packetLine_eq
  cases hturn with
  | echo _ hidle hecho =>
    rw [progress_of_none hidle] at hmerged
    cases waiting with
    | nil => exact absurd ((hholds.empty_iff hlen).mpr rfl) hecho
    | cons b waiting =>
      rw [hholds.front]
      refine ⟨waiting, hholds.advance, ?_, ?_⟩
      · rw [length_cons] at hlen
        omega
      · have hsent := hmerged.sendEcho
        rw [← progress_of_none hidle] at hsent
        exact hsent
  | @byte d k ds hat hlt =>
    rw [AtByte.progress_eq hat] at hmerged
    refine ⟨waiting, hholds, hlen, ?_⟩
    change Merged _ _ _ ((packetLine s).map (content rom m)) waiting (k + 1)
    rw [hline] at hmerged ⊢
    refine .sendNext hmerged ?_
    rw [content, getElem?_readBytes hlt, Nat.zero_add]
    rfl
  | @complete s' d k ds moved rest hat hle hadvanced =>
    obtain ⟨ids', hnext⟩ := hadvanced.core
    rw [AtByte.progress_eq hat] at hmerged
    refine ⟨waiting, ?_, hlen, ?_⟩
    · rw [hadvanced.wakes.echo]
      exact hholds
    · have hrest : packetLine s = d :: packetLine s' := by
        rw [hline, hnext.packetLine_eq, hadvanced.split, map_append, append_assoc, cons_append]
      rw [hrest] at hmerged
      rw [progress_of_none hadvanced.idle]
      change Merged _ _ (sent ++ []) _ _ _
      rw [append_nil]
      refine .complete hmerged ?_
      rw [content, length_readBytes]
      exact hle
  | stop =>
    change Recorded rom m _ pushed echoed (sent ++ [])
    rw [append_nil]
    exact ⟨waiting, hholds, hlen, hmerged⟩

end

end Records

structure StreamInv (rom : Buffer → Nat → UInt8) (r : Stream) : Prop where
  inv : Inv r.logging.system
  calls : CallsFit r.logging.calls
  lengths : ∀ d ∈ packetLine r.shell, InObject d
  recorded : Recorded rom r.memory r.shell r.pushed r.echoed r.sent

section Steps

variable {rom : Buffer → Nat → UInt8} {r r' : Stream} {l : Logging} {e : LogEvent}

theorem StreamInv.keep (h : StreamInv rom r) (hinv : Inv l.system) (hcalls : CallsFit l.calls)
    (hpushed : pushedBy r.logging e = none) (hechoed : echoedBy r.shell.uart e = [])
    (hwritten : writtenBy r.shell.uart e = none)
    (hline : packetLine l.system.shell = packetLine r.shell)
    (hecho : l.system.shell.uart.echo = r.shell.uart.echo)
    (hprogress : progress l.system.shell.uart = progress r.shell.uart) :
    StreamInv rom (r.after rom e l) := by
  refine ⟨hinv, hcalls, ?_, ?_⟩
  · change ∀ d ∈ packetLine l.system.shell, InObject d
    rw [hline]
    exact h.lengths
  · rw [Stream.after, hpushed, hechoed, hwritten]
    simp only [map_none, toList_none, append_nil]
    exact h.recorded.congr hline hecho hprogress

theorem StreamInv.push (h : StreamInv rom r) (hinv : Inv l.system) (hcalls : CallsFit l.calls)
    {k : TxPacket} (hpushed : pushedBy r.logging e = some k)
    (hechoed : echoedBy r.shell.uart e = []) (hwritten : writtenBy r.shell.uart e = none)
    {moved : List TxPacket} (hpush : Pushes r.shell l.system.shell (deviceTx k) moved)
    (hin : InObject (deviceTx k)) : StreamInv rom (r.after rom e l) := by
  obtain ⟨ids, ks, ds, hcore, hcurrent⟩ := h.inv.sound
  refine ⟨hinv, hcalls, ?_, ?_⟩
  · change ∀ d ∈ packetLine l.system.shell, InObject d
    rw [hpush.line]
    intro d hd
    rcases mem_append.mp hd with hmem | hmem
    · exact h.lengths d hmem
    · rw [mem_singleton.mp hmem]
      exact hin
  · rw [Stream.after, hpushed, hechoed, hwritten]
    simp only [map_some, map_none, toList_some, toList_none, append_nil]
    exact h.recorded.push hcore hcurrent hpush

theorem LogCall.fits_of_keeps (h : KeepsToBlock c.shape) : c.shape.Fits := by
  cases c with
  | text modName =>
    cases modName with
    | none | some => exact h
  | trace => exact trivial
  | spy =>
    intro hmem
    exact h (mem_append_left [65529] hmem)
  | raw => exact trivial

theorem deviceTx_packet {tag len : Nat} {buf : Buffer} (hbuf : packetBuf tag = some buf) :
    deviceTx ⟨tag, len⟩ = ⟨buf, len, tag⟩ := by
  rw [deviceTx, hbuf]
  rfl

theorem allocLogBlk_line {s shell : Shell} {logLen : Nat} {tag : Option Nat}
    (h : allocLogBlk s logLen = (shell, tag)) :
    packetLine shell = packetLine s ∧ shell.uart = s.uart := by
  obtain ⟨hpending, huart⟩ := allocLogBlk_same h
  refine ⟨?_, huart⟩
  rw [packetLine, devicePackets, pendingPackets, hpending, huart, packetLine, devicePackets,
    pendingPackets]

section

variable (h : StreamInv rom r)
include h

theorem StreamInv.called (hinv : Inv s) (hvalid : c.valid = true) (hkept : KeepsToBlock c.shape)
    (hbase : step r.logging.system (.alloc c.requestLen) = some s) :
    StreamInv rom (r.after rom (.call c) ⟨s, r.logging.called c⟩) := by
  have hcalls := h.calls.called hvalid (LogCall.fits_of_keeps hkept)
  have halloc : ∃ tag, allocLogBlk r.shell c.requestLen = (s.shell, tag) := by
    cases step_cases hbase with
    | allocated halloc | overflowed halloc => exact ⟨_, halloc⟩
  obtain ⟨tag, halloc⟩ := halloc
  obtain ⟨hline, huart⟩ := allocLogBlk_line halloc
  exact h.keep hinv hcalls rfl rfl rfl hline (congrArg Uart.echo huart) (congrArg progress huart)

theorem StreamInv.finished {tag : Nat} (hinv : Inv s) (hcall : r.logging.calls tag = some c)
    (hfits : PendingFits r.logging.system (.push tag c.pushLen))
    (hbase : step r.logging.system (.push tag c.pushLen) = some s) :
    StreamInv rom
      (r.after rom (.finish tag) ⟨s, update r.logging.calls tag none⟩) := by
  cases step_cases hbase with
  | pushed _ htag =>
    obtain ⟨-, -, moved, hpush⟩ := h.inv.sound.pushBlock (hfits.room rfl) c.pushLen htag
    have hpushed : pushedBy r.logging (.finish tag) = some ⟨tag, c.pushLen⟩ := by
      rw [pushedBy, hcall]
      rfl
    refine h.push hinv (h.calls.finished tag) hpushed rfl rfl hpush (.inr ?_)
    obtain ⟨p, hpool, hle⟩ := h.calls tag c hcall
    obtain ⟨ids, ks, ds, hcore, -⟩ := h.inv.sound
    obtain ⟨q, b, hb, rfl⟩ := hcore.writingKnown tag htag
    rw [deviceTx_packet (packetBuf_blockTag hb)]
    rw [getQueueId_blockTag, poolOf_queueIdOf] at hpool
    obtain rfl := Option.some.inj hpool
    exact hle

theorem StreamInv.responded {rspBuff : List UInt8} (hinv : Inv s)
    (hfits : PendingFits r.logging.system (.rsp (responseLen rspBuff)))
    (hbase : step r.logging.system (.rsp (responseLen rspBuff)) = some s) :
    StreamInv rom (r.after rom (.respond rspBuff) ⟨s, r.logging.calls⟩) := by
  cases step_cases hbase with
  | responded _ hset =>
    obtain ⟨-, -, moved, hpush⟩ := h.inv.sound.pushRsp (hfits.room rfl)
      (responseLen rspBuff) (h.inv.handling hset)
    have htag : packetBuf rspTag = some .rspBuff := by decide
    refine h.push hinv h.calls rfl rfl rfl hpush (.inr ?_)
    rw [deviceTx_packet htag]
    exact responseLen_le rspBuff

theorem StreamInv.base {e : Event} (hinv : Inv s) (hown : ofCall e = false)
    (hfits : PendingFits r.logging.system e) (hbase : step r.logging.system e = some s) :
    StreamInv rom (r.after rom (.base e) ⟨s, r.logging.calls⟩) := by
  have hsound := h.inv.sound
  cases step_cases hbase with
  | allocated | overflowed | pushed => cases hown
  | hinted | hints => exact h.keep hinv h.calls rfl rfl rfl rfl rfl rfl
  | hintPushed =>
    obtain ⟨-, -, moved, hpush⟩ := hsound.pushHint (hfits.room rfl) shellFaultStrLen .faultHint
      isLog_faultHintTag (by decide)
    exact h.push hinv h.calls rfl rfl rfl (hpush.setPrint true) (.inr (by decide))
  | rxTested | rxLeft => exact h.keep hinv h.calls rfl rfl rfl rfl rfl rfl
  | cmdHinted =>
    obtain ⟨-, -, moved, hpush⟩ := hsound.pushHint (hfits.room rfl) shellFaultStrLen .cmdHint
      isLog_cmdHintTag (by decide)
    exact h.push hinv h.calls rfl rfl rfl hpush (.inl (by decide))
  | responded => cases hown
  | echoed b =>
    obtain ⟨htx, -⟩ := echoTurn_same r.shell.uart b
    have hline : packetLine { r.shell with uart := echoTurn r.shell.uart b } =
        packetLine r.shell := by
      simp only [packetLine, devicePackets, pendingPackets, htx]
    refine ⟨hinv, h.calls, ?_, ?_⟩
    · change ∀ d ∈ packetLine { r.shell with uart := echoTurn r.shell.uart b }, InObject d
      rw [hline]
      exact h.lengths
    · have hrecorded := h.recorded.echo b
      simp only [Stream.after, pushedBy, writtenBy, echoedBy, map_none, toList_none, append_nil]
      exact hrecorded
  | echoTested | echoCleared | echoEnabled => exact h.keep hinv h.calls rfl rfl rfl rfl rfl rfl
  | turned =>
    obtain ⟨ids, ks, ds, hcore, hcurrent⟩ := hsound
    have hturn := turn_cases hcore hcurrent
    refine ⟨hinv, h.calls, ?_, ?_⟩
    · intro d hd
      apply h.lengths d
      rcases hturn.line hcore with hline | ⟨first, hline⟩
      · exact hline ▸ hd
      · change d ∈ packetLine r.logging.system.shell
        rw [hline]
        exact mem_cons_of_mem first hd
    · have hrecorded := h.recorded.turn hcore hturn
      simp only [Stream.after, pushedBy, writtenBy, echoedBy, map_none, toList_none, append_nil]
      exact hrecorded

theorem StreamInv.step {e : StreamEvent} (hfits : StreamFits r e)
    (hstep : streamStep rom r e = some r') : StreamInv rom r' := by
  cases streamStep_cases hstep with
  | log hlog =>
    obtain ⟨hring, hkept⟩ := hfits
    cases logStep_cases hlog with
    | called hvalid hbase => exact h.called (h.inv.step (.inl rfl) hbase) hvalid hkept hbase
    | finished hcall hbase =>
      have hroom := hring.resolve_left (by simp [pushesPacket])
      exact h.finished (h.inv.step (.inr hroom) hbase) hcall (.inr hroom) hbase
    | responded hbase =>
      have hroom := hring.resolve_left (by simp [pushesPacket])
      exact h.responded (h.inv.step (.inr hroom) hbase) (.inr hroom) hbase
    | base hown hbase => exact h.base (h.inv.step hring hbase) hown hring hbase
  | @write tag i p b hpool htag hi =>
    refine { h with recorded := h.recorded.setMemory fun d hd => ?_ }
    obtain ⟨ids, ks, ds, hcore, -⟩ := h.inv.sound
    obtain ⟨q, c, hc, rfl⟩ := hcore.writingKnown tag htag
    rw [getQueueId_blockTag, poolOf_queueIdOf] at hpool
    obtain rfl := Option.some.inj hpool
    rw [getBlockId_blockTag hc]
    exact content_writeBlock hcore hd (h.lengths d hd) htag hi b
  | @rspWrite i b hset =>
    refine { h with recorded := h.recorded.setMemory fun d hd => ?_ }
    obtain ⟨ids, ks, ds, hcore, -⟩ := h.inv.sound
    exact content_rspWrite hcore hd (h.inv.handling hset) i b

end

theorem streamInv_start (m : Memory) : StreamInv rom (Stream.start m) := by
  have hline : packetLine .start = [] := by decide
  refine ⟨⟨sound_start, by simp [Stream.start, Logging.start, System.start]⟩, ?_, ?_, ?_⟩
  · intro tag c hcall
    cases hcall
  · intro d hd
    change d ∈ packetLine .start at hd
    cases hd
  · refine ⟨[], .empty (by decide) _, by decide, ?_⟩
    change Merged [] [] [] ((packetLine .start).map _) [] 0
    exact merged_nil

end Steps

section Results

variable {rom : Buffer → Nat → UInt8} {m : Memory} {r : Stream}

/-- What the UART puts out is the pushed packets, whole and in order, and the echo between them. -/
theorem reached_woven (h : Reached (streamStep rom) StreamFits (Stream.start m) r) : Woven r := by
  obtain ⟨-, -, -, waiting, hholds, hlen, hmerged⟩ :=
    h.invariant (StreamInv rom) (streamInv_start m) fun _ _ _ hinv hfits hstep =>
      hinv.step hfits hstep
  refine ⟨_, waiting, length_map _, ?_, hmerged⟩
  rw [hholds.count_eq hlen]

theorem reached_woven_echo :
    ∃ r, Reached (streamStep fun _ _ => 0) StreamFits (Stream.start ⟨fun _ _ => 0, fun _ => 0⟩) r ∧
      (r.pushed = [[65, 66]] ∧ r.echoed = [88] ∧ r.sent = [65, 66, 88]) ∧ Woven r :=
  exists_reached_and (fun _ => reached_woven)
    [.log (.call (.raw [65, 66])), .write (blockTag .buf3 0) 0 65, .write (blockTag .buf3 0) 1 66,
      .log (.finish (blockTag .buf3 0)), .log (.base .txTurn), .log (.base (.echo 88)),
      .log (.base .txTurn), .log (.base .txTurn), .log (.base .txTurn)] (by decide)

end Results

theorem long_text_not_woven :
    ∃ r, Reached (streamStep fun _ _ => 0) RingFits (Stream.start ⟨fun _ _ => 0, fun _ => 0⟩) r ∧
      ¬Woven r := by
  obtain ⟨r, hreached, hpushed, hline, hechoed, hplace, hsent⟩ := exists_reached
    (streamStep fun _ _ => 0) RingFits (.start ⟨fun _ _ => 0, fun _ => 0⟩)
    (fun r => r.pushed.length = 1 ∧ (packetLine r.shell).length = 1 ∧ r.echoed = [] ∧
      progress r.shell.uart = 41 ∧ r.sent ≠ (r.pushed.headD []).take 41)
    ([.log (.call (.text none 65535 false)), .log (.call (.raw [1])),
      .log (.finish (blockTag .buf3 0)), .write (blockTag .buf3 1) 0 1] ++
      replicate 41 (.log (.base .txTurn))) (by decide)
  refine ⟨r, hreached, ?_⟩
  rintro ⟨packets, echoes, hpackets, -, done, echo, stream, hdone, hecho, hweave, hstream⟩
  have hnone : done = [] := by
    have hlen := congrArg length hdone
    rw [length_append] at hlen
    exact length_eq_zero_iff.mp (by omega)
  have hquiet : echo = [] := by
    rw [hechoed] at hecho
    exact (append_eq_nil_iff.mp hecho.symm).1
  rw [hnone, hquiet] at hweave
  rw [hnone, nil_append] at hdone
  rw [hweave.stream_nil, hplace, ← hdone] at hstream
  exact hsent hstream

end BekenSoc.ShellLogStream
