import BekenSoc.ShellLogRuns

namespace BekenSoc.ShellLogCustody

open Function GuardedRuns RingBuffers ShellLog ShellLogQueues ShellLogRuns List

variable {s' : Shell} {tag : Nat} {s : System}

structure Core (s : Shell) (writing : List Nat) (ids : Pool → List Nat) (ks : List TxPacket)
    (done ds : List DevTxPacket) : Prop where
  queues : Queues s ks (done ++ ds) ((ds.map DevTxPacket.tag).filter isLog)
  pendingKnown : ∀ k ∈ ks, Known k.blkTag
  deviceKnown : ∀ d ∈ ds, Known d.tag ∧ packetBuf d.tag = some d.packet
  rsp : (ks.map TxPacket.blkTag).count rspTag + (ds.map DevTxPacket.tag).count rspTag =
    s.rspOngoing.toNat
  free : ∀ p, FreeRing p (s.freeQueue p) (ids p)
  placed : ∀ p, ∀ b < blkNum p, (ids p).count b + writing.count (blockTag p b) +
      (ks.map TxPacket.blkTag).count (blockTag p b) +
      (ds.map DevTxPacket.tag).count (blockTag p b) = 1
  writingKnown : ∀ t ∈ writing, ∃ p, ∃ b < blkNum p, t = blockTag p b
  asserts : s.asserts = []
  refused : s.refused = 0

section Core

variable {s : Shell} {writing writing' : List Nat} {ids : Pool → List Nat} {ks : List TxPacket}
  {done ds : List DevTxPacket}

theorem map_tag_deviceTx (ks : List TxPacket) :
    (ks.map deviceTx).map DevTxPacket.tag = ks.map TxPacket.blkTag := by
  rw [map_map]
  rfl

theorem deviceTx_known {k : TxPacket} (h : Known k.blkTag) :
    Known (deviceTx k).tag ∧ packetBuf (deviceTx k).tag = some (deviceTx k).packet := by
  obtain ⟨buf, hbuf⟩ := h.packetBuf
  refine ⟨h, ?_⟩
  simp [deviceTx, hbuf]

theorem length_logTags_le (ds : List DevTxPacket) :
    ((ds.map DevTxPacket.tag).filter isLog).length ≤ ds.length := by
  simpa using length_filter_le isLog (ds.map DevTxPacket.tag)

theorem count_tag_cons (d : DevTxPacket) (ds : List DevTxPacket) (t : Nat) :
    ((d :: ds).map DevTxPacket.tag).count t =
      (ds.map DevTxPacket.tag).count t + if d.tag = t then 1 else 0 := by
  rw [map_cons, count_cons]
  simp

theorem Core.rspOngoing_of_pos (h : Core s writing ids ks done ds)
    (hpos : 0 < (ks.map TxPacket.blkTag).count rspTag + (ds.map DevTxPacket.tag).count rspTag) :
    s.rspOngoing = true := by
  rw [h.rsp] at hpos
  cases hongoing : s.rspOngoing with
  | true => rfl
  | false =>
    rw [hongoing] at hpos
    cases hpos

structure Requested (s s' : Shell) (writing : List Nat) (ids : Pool → List Nat)
    (ks : List TxPacket) (done ds : List DevTxPacket) (moved rest : List TxPacket) : Prop where
  split : ks = moved ++ rest
  core : Core s' writing ids rest done (ds ++ moved.map deviceTx)
  same : SameApart s s'
  wakes : Wakes s.uart s'.uart moved
  served : rest ≠ [] → moved ≠ [] ∨ txQueueLen ≤ (done ++ ds).length + 1

theorem Requested.device_ne {moved rest : List TxPacket}
    (h : Requested s s' writing ids ks done ds moved rest) (hdone : done.length ≤ 1)
    (hrest : rest ≠ []) : ds ++ moved.map deviceTx ≠ [] := by
  intro hnil
  obtain ⟨rfl, hmap⟩ := append_eq_nil_iff.mp hnil
  rcases h.served hrest with hmoved | hfull
  · exact hmoved (map_eq_nil_iff.mp hmap)
  · have hlen : 2 < txQueueLen := by decide
    rw [append_nil] at hfull
    omega

theorem Core.txReq (h : Core s writing ids ks done ds) :
    ∃ moved rest, Requested s (txReqProcess s) writing ids ks done ds moved rest := by
  have hrsp : ∀ k ∈ ks, k.blkTag = rspTag → s.rspOngoing = true := by
    intro k hk htag
    have hmem : rspTag ∈ ks.map TxPacket.blkTag := mem_map.mpr ⟨k, hk, htag⟩
    exact h.rspOngoing_of_pos (Nat.add_pos_left (count_pos_iff.mpr hmem) _)
  obtain ⟨moved, rest, ⟨rfl, hqueues, hsame⟩, hwakes, hserved⟩ :=
    txReqProcess_sends h.queues h.pendingKnown hrsp
  have hcount : ∀ t, (rest.map TxPacket.blkTag).count t +
      ((ds ++ moved.map deviceTx).map DevTxPacket.tag).count t =
        ((moved ++ rest).map TxPacket.blkTag).count t + (ds.map DevTxPacket.tag).count t := by
    intro t
    rw [map_append, map_tag_deviceTx, map_append, count_append, count_append]
    omega
  refine ⟨moved, rest, rfl, ?_, hsame, hwakes, hserved⟩
  refine { h with
    queues := ?_, pendingKnown := ?_, deviceKnown := ?_, rsp := ?_, placed := ?_
    free := hsame.freeQueue ▸ h.free
    asserts := hsame.asserts ▸ h.asserts
    refused := hsame.refused ▸ h.refused }
  · rw [map_append, map_tag_deviceTx, filter_append, ← append_assoc]
    exact hqueues
  · exact fun k hk => h.pendingKnown k (mem_append_right _ hk)
  · intro d hd
    rcases mem_append.mp hd with hd | hd
    · exact h.deviceKnown d hd
    · obtain ⟨k, hk, rfl⟩ := mem_map.mp hd
      exact deviceTx_known (h.pendingKnown k (mem_append_left _ hk))
  · rw [hsame.rspOngoing, ← h.rsp]
    exact hcount rspTag
  · intro p b hb
    have hplaced := h.placed p b hb
    have hsum := hcount (blockTag p b)
    omega

/-- A packet with the tag is pushed: a block is given up by its writer, and a response sets
the flag. -/
structure GivesUp (tag : Nat) (writing writing' : List Nat) (before after : Bool) : Prop where
  ongoing : after.toNat = before.toNat + if tag = rspTag then 1 else 0
  blocks : ∀ p, ∀ b < blkNum p, writing'.count (blockTag p b) +
    (if tag = blockTag p b then 1 else 0) = writing.count (blockTag p b)
  sub : writing' ⊆ writing

theorem Core.push (h : Core s writing ids ks done ds) {ongoing : Bool} (len : Nat)
    (hroom : ks.length + 1 < shellLogPendNum) (hknown : Known tag)
    (hgives : GivesUp tag writing writing' s.rspOngoing ongoing) :
    Core (pushPendingQueue { s with rspOngoing := ongoing } tag len) writing' ids
      (ks ++ [TxPacket.mk tag len]) done ds := by
  have hcount : ∀ t, ((ks ++ [TxPacket.mk tag len]).map TxPacket.blkTag).count t =
      (ks.map TxPacket.blkTag).count t + if tag = t then 1 else 0 := by
    intro t
    simp [count_singleton]
  refine { h with queues := ?_, pendingKnown := ?_, rsp := ?_, placed := ?_, writingKnown := ?_ }
  · refine { h.queues with pending := h.queues.pending.put h.queues.pending_lt _, pending_lt := ?_ }
    rw [length_append, length_singleton]
    exact hroom
  · intro k hk
    rcases mem_append.mp hk with hk | hk
    · exact h.pendingKnown k hk
    · rw [mem_singleton.mp hk]
      exact hknown
  · have hrsp := h.rsp
    have hongoing := hgives.ongoing
    rw [hcount]
    change _ = ongoing.toNat
    omega
  · intro p b hb
    have hplaced := h.placed p b hb
    have htask := hgives.blocks p b hb
    rw [hcount]
    omega
  · exact fun t ht => h.writingKnown t (hgives.sub ht)

section

variable (h : Core s writing ids ks [] ds)
include h

theorem Core.pendingPackets_eq : pendingPackets s = ks :=
  h.queues.pending.contents_eq h.queues.pending_lt

theorem Core.devicePackets_eq : devicePackets s = ds :=
  h.queues.device.contents_eq h.queues.device_lt

theorem Core.packetLine_eq : packetLine s = ds ++ ks.map deviceTx := by
  rw [packetLine, h.devicePackets_eq, h.pendingPackets_eq]

end

structure SameQueues (s s' : Shell) : Prop where
  pending : s'.pending = s.pending
  busy : s'.busy = s.busy
  txList : s'.uart.txList = s.uart.txList
  freeQueue : s'.freeQueue = s.freeQueue
  rspOngoing : s'.rspOngoing = s.rspOngoing
  asserts : s'.asserts = s.asserts
  refused : s'.refused = s.refused

theorem Core.congr (h : Core s writing ids ks done ds) (hsame : SameQueues s s') :
    Core s' writing ids ks done ds :=
  { h with
    queues := h.queues.congr hsame.pending hsame.busy hsame.txList
    rsp := hsame.rspOngoing ▸ h.rsp
    free := hsame.freeQueue ▸ h.free
    asserts := hsame.asserts ▸ h.asserts
    refused := hsame.refused ▸ h.refused }

section Completion

variable {d : DevTxPacket}

theorem Core.sent (h : Core s writing ids ks [] (d :: ds)) (ongoing : Bool)
    (hlog : isLog d.tag = false)
    (hongoing : ongoing.toNat + (if d.tag = rspTag then 1 else 0) = s.rspOngoing.toNat) :
    Core { s with rspOngoing := ongoing } writing ids ks [d] ds := by
  have hbusy := h.queues.busy
  have hle := h.queues.device_lt
  rw [map_cons, filter_cons_of_neg (by simp [hlog])] at hbusy
  refine { h with queues := ?_, deviceKnown := ?_, rsp := ?_, placed := ?_ }
  · refine ⟨h.queues.pending, h.queues.pending_lt, h.queues.device, hle, hbusy, ?_⟩
    have hfilter := length_logTags_le ds
    rw [length_append]
    omega
  · exact fun d hd => h.deviceKnown d (mem_cons_of_mem _ hd)
  · have hrsp := h.rsp
    rw [count_tag_cons] at hrsp
    change _ = ongoing.toNat
    omega
  · intro p b hb
    have hplaced := h.placed p b hb
    rwa [count_tag_cons, if_neg (ne_blockTag hlog p b)] at hplaced

theorem Core.sentLog {p : Pool} {b : Nat} (h : Core s writing ids ks [] (d :: ds))
    (hb : b < blkNum p) (htag : d.tag = blockTag p b) :
    Core (freeLogBlk { s with busy := s.busy.advance shellLogBusyNum } (blockTag p b)) writing
      (update ids p (ids p ++ [b])) ks [d] ds := by
  have hmissing : (ids p).count b = 0 := by
    have hplaced := h.placed p b hb
    rw [count_tag_cons, if_pos htag] at hplaced
    omega
  have honce : ∀ x < blkNum p, (ids p).count x ≤ 1 := by
    intro x hx
    have hplaced := h.placed p x hx
    omega
  have hlen := length_lt_of_missing (h.free p).lt honce hb hmissing
  have hbusy := h.queues.busy
  rw [map_cons, htag, filter_cons_of_pos (isLog_blockTag p b)] at hbusy
  obtain ⟨freeQueue', heq, hfree⟩ := freeLogBlk_spec
    (s := { s with busy := s.busy.advance shellLogBusyNum }) h.free hb hlen
  rw [heq]
  refine { h with queues := ?_, deviceKnown := ?_, rsp := ?_, free := hfree, placed := ?_ }
  · refine { h.queues with busy := hbusy.advance, busy_le := ?_ }
    have hfilter := length_logTags_le ds
    rw [length_append]
    omega
  · exact fun d hd => h.deviceKnown d (mem_cons_of_mem _ hd)
  · have hrsp := h.rsp
    have hne := ne_blockTag isLog_rspTag p b
    rwa [count_tag_cons, htag, if_neg (Ne.symm hne)] at hrsp
  · intro q c hc
    have hplaced := h.placed q c hc
    rw [count_tag_cons, htag] at hplaced
    rcases eq_or_ne q p with rfl | hq
    · rw [update_self, count_append, count_singleton]
      rcases eq_or_ne b c with rfl | hne
      · simp only [if_pos, beq_self_eq_true] at hplaced ⊢
        omega
      · rw [if_neg fun heq => hne (blockTag_inj hb hc heq).2] at hplaced
        rw [if_neg (by simpa using hne)]
        omega
    · rw [if_neg fun heq => hq (blockTag_inj hb hc heq).1.symm] at hplaced
      rw [update_of_ne hq]
      omega

structure Completed (s s' : Shell) (writing : List Nat) (ks : List TxPacket)
    (d : DevTxPacket) (ds : List DevTxPacket) (moved rest : List TxPacket) : Prop where
  split : ks = moved ++ rest
  core : ∃ ids, Core s' writing ids rest [d] (ds ++ moved.map deviceTx)
  flag : s'.rspOngoing = true → s.rspOngoing = true
  wakes : Wakes s.uart s'.uart moved
  served : rest ≠ [] → ds ++ moved.map deviceTx ≠ []

theorem Core.ofSent (h : Core s' writing ids ks [d] ds)
    (heq : shellTxComplete s d.packet d.tag = txReqProcess s') (huart : s'.uart = s.uart)
    (hflag : s'.rspOngoing = true → s.rspOngoing = true) :
    ∃ moved rest, Completed s (shellTxComplete s d.packet d.tag) writing ks d ds moved rest := by
  obtain ⟨moved, rest, hreq⟩ := h.txReq
  have hwakes := hreq.wakes
  rw [huart] at hwakes
  rw [heq]
  exact ⟨moved, rest, hreq.split, ⟨ids, hreq.core⟩,
    fun hset => hflag (hreq.same.rspOngoing.symm.trans hset), hwakes,
    hreq.device_ne (Nat.le_refl 1)⟩

theorem Core.complete (h : Core s writing ids ks [] (d :: ds)) :
    ∃ moved rest, Completed s (shellTxComplete s d.packet d.tag) writing ks d ds moved rest := by
  obtain ⟨packet, len, tag⟩ := d
  obtain ⟨hknown, hbuf⟩ := h.deviceKnown _ mem_cons_self
  change Known tag at hknown
  change packetBuf tag = some packet at hbuf
  cases hknown with
  | @block p b hb =>
    rw [packetBuf_blockTag hb] at hbuf
    obtain rfl := Option.some.inj hbuf
    have hbusy := h.queues.busy
    rw [map_cons, filter_cons_of_pos (isLog_blockTag p b)] at hbusy
    apply (h.sentLog hb rfl).ofSent (shellTxComplete_block hb hbusy.front)
    · rw [freeLogBlk_uart]
    · rw [freeLogBlk_rspOngoing]
      exact id
  | rsp =>
    obtain rfl : .rspBuff = packet := Option.some.inj hbuf
    have hongoing : s.rspOngoing = true := by
      apply h.rspOngoing_of_pos
      rw [map_cons, count_cons_self]
      exact Nat.succ_pos _
    have hsent := h.sent false isLog_rspTag (by rw [hongoing]; rfl)
    exact hsent.ofSent (shellTxComplete_rsp hongoing) rfl fun _ => hongoing
  | faultHint =>
    obtain rfl : .faultStr = packet := Option.some.inj hbuf
    exact (h.sent s.rspOngoing isLog_faultHintTag rfl).ofSent shellTxComplete_faultHint rfl id
  | cmdHint =>
    obtain rfl : .cmdOvfStr = packet := Option.some.inj hbuf
    exact (h.sent s.rspOngoing isLog_cmdHintTag rfl).ofSent shellTxComplete_cmdHint rfl id

end Completion

end Core

inductive Current (u : Uart) : List DevTxPacket → Prop
  | idle (ds : List DevTxPacket) : u.curPacket = none → Current u ds
  | sending {d : DevTxPacket} (ds : List DevTxPacket) : u.curPacket = some d.packet →
      u.packetLen = d.len → u.packetTag = d.tag → 0 < d.len → Current u (d :: ds)

theorem Current.congr {u u' : Uart} {ds : List DevTxPacket} (h : Current u ds)
    (hcur : u'.curPacket = u.curPacket) (hlen : u'.packetLen = u.packetLen)
    (htag : u'.packetTag = u.packetTag) (moved : List DevTxPacket) : Current u' (ds ++ moved) := by
  cases h with
  | idle _ hidle => exact .idle _ (hcur.trans hidle)
  | sending ds hpacket hd ht hpos =>
    exact .sending (ds ++ moved) (hcur.trans hpacket) (hlen.trans hd) (htag.trans ht) hpos

def Sound (s : Shell) (writing : List Nat) : Prop :=
  ∃ ids ks ds, Core s writing ids ks [] ds ∧ Current s.uart ds

section Turns

variable {s : Shell} {writing : List Nat} {ids : Pool → List Nat} {ks : List TxPacket}
  {d : DevTxPacket} {ds : List DevTxPacket}

theorem Sound.congr (h : Sound s writing) (hsame : SameQueues s s')
    (hcur : s'.uart.curPacket = s.uart.curPacket) (hlen : s'.uart.packetLen = s.uart.packetLen)
    (htag : s'.uart.packetTag = s.uart.packetTag) : Sound s' writing := by
  obtain ⟨ids, ks, ds, hcore, hcurrent⟩ := h
  refine ⟨ids, ks, ds, hcore.congr hsame, ?_⟩
  have hcurrent' := hcurrent.congr hcur hlen htag []
  rwa [append_nil] at hcurrent'

theorem Core.toNext (h : Core s writing ids ks [d] ds) : Core { s with uart := { s.uart with
          curPacket := none
          packetLen := 0
          packetTxLen := 0
          txList := s.uart.txList.advance txQueueLen } } writing ids ks [] ds := by
  have hlt := h.queues.device_lt
  rw [length_append] at hlt
  refine { h with queues := { h.queues with device := h.queues.device.advance
                                            device_lt := ?_
                                            busy_le := length_logTags_le ds } }
  rw [nil_append]
  omega

structure Advanced (s s' : Shell) (writing : List Nat) (ks : List TxPacket)
    (ds : List DevTxPacket) (moved rest : List TxPacket) : Prop where
  split : ks = moved ++ rest
  core : ∃ ids, Core s' writing ids rest [] (ds ++ moved.map deviceTx)
  idle : s'.uart.curPacket = none
  flag : s'.rspOngoing = true → s.rspOngoing = true
  wakes : Wakes s.uart s'.uart moved
  served : rest ≠ [] → ds ++ moved.map deviceTx ≠ []

inductive AtByte (u : Uart) (d : DevTxPacket) : Nat → Prop
  | first : u.curPacket = none → u.echo.outIdx = u.echo.inIdx → AtByte u d 0
  | within : u.curPacket = some d.packet → u.packetLen = d.len → u.packetTag = d.tag →
      0 < d.len → AtByte u d u.packetTxLen

inductive Turn (s : Shell) (writing : List Nat) (ks : List TxPacket) :
    List DevTxPacket → Option Written → Shell → Prop
  | echo (ds : List DevTxPacket) : s.uart.curPacket = none →
      s.uart.echo.outIdx ≠ s.uart.echo.inIdx → Turn s writing ks ds (some (.echo s.uart.echo.front))
        { s with uart := { s.uart with echo := s.uart.echo.advance echoBuffSize } }
  | byte {d : DevTxPacket} {k : Nat} (ds : List DevTxPacket) : AtByte s.uart d k → k < d.len →
      Turn s writing ks (d :: ds) (some (.packet d.packet k)) { s with uart := { s.uart with
            curPacket := some d.packet
            packetLen := d.len
            packetTag := d.tag
            packetTxLen := k + 1 } }
  | complete {s' : Shell} {d : DevTxPacket} {k : Nat} {ds : List DevTxPacket}
      {moved rest : List TxPacket} : AtByte s.uart d k → d.len ≤ k →
      Advanced s s' writing ks ds moved rest → Turn s writing ks (d :: ds) none s'
  | stop : s.uart.curPacket = none → s.uart.echo.outIdx = s.uart.echo.inIdx →
      Turn s writing ks [] none
        { s with uart := { s.uart with txInterrupt := false, txStopped := true } }

theorem sendTurn_advanced (h : Core s writing ids ks [] (d :: ds))
    (htag : s.uart.packetTag = d.tag) (hdone : s.uart.packetLen ≤ s.uart.packetTxLen) :
    ∃ moved rest, Advanced s (sendTurn s d.packet) writing ks ds moved rest := by
  rw [sendTurn, if_neg (Nat.not_lt.mpr hdone), htag]
  obtain ⟨moved, rest, hcompleted⟩ := h.complete
  obtain ⟨ids', hcore⟩ := hcompleted.core
  have hwakes := hcompleted.wakes
  exact ⟨moved, rest, hcompleted.split, ⟨ids', hcore.toNext⟩, rfl, hcompleted.flag,
    { hwakes with }, hcompleted.served⟩

theorem sendTurn_turn (h : Core s writing ids ks [] (d :: ds))
    (hcur : s.uart.curPacket = some d.packet) (hlen : s.uart.packetLen = d.len)
    (htag : s.uart.packetTag = d.tag) (hpos : 0 < d.len) :
    Turn s writing ks (d :: ds) (sendTurnWrites s.uart d.packet) (sendTurn s d.packet) := by
  have hat : AtByte s.uart d s.uart.packetTxLen := .within hcur hlen htag hpos
  rcases Nat.lt_or_ge s.uart.packetTxLen s.uart.packetLen with hleft | hdone
  · rw [sendTurnWrites, sendTurn, if_pos hleft, if_pos hleft]
    have hnext : s.uart = { s.uart with
        curPacket := some d.packet
        packetLen := d.len
        packetTag := d.tag } := by
      rw [← hcur, ← hlen, ← htag]
    rw [hnext]
    exact .byte ds hat (hlen ▸ hleft)
  · obtain ⟨moved, rest, hadvanced⟩ := sendTurn_advanced h htag hdone
    rw [sendTurnWrites, if_neg (Nat.not_lt.mpr hdone)]
    exact .complete hat (hlen ▸ hdone) hadvanced

def loaded (s : Shell) (d : DevTxPacket) : Shell :=
  { s with uart := { s.uart with
      curPacket := some d.packet
      packetLen := d.len
      packetTag := d.tag
      packetTxLen := 0 } }

theorem loaded_turn (h : Core s writing ids ks [] (d :: ds)) (hidle : s.uart.curPacket = none)
    (hecho : s.uart.echo.outIdx = s.uart.echo.inIdx) :
    Turn s writing ks (d :: ds) (sendTurnWrites (loaded s d).uart d.packet)
      (sendTurn (loaded s d) d.packet) := by
  have hat : AtByte s.uart d 0 := .first hidle hecho
  rcases Nat.lt_or_ge 0 d.len with hleft | hdone
  · have hleft' : (loaded s d).uart.packetTxLen < (loaded s d).uart.packetLen := hleft
    rw [sendTurnWrites, sendTurn, if_pos hleft', if_pos hleft']
    exact .byte ds hat hleft
  · have hcore : Core (loaded s d) writing ids ks [] (d :: ds) :=
      h.congr ⟨rfl, rfl, rfl, rfl, rfl, rfl, rfl⟩
    obtain ⟨moved, rest, hadvanced⟩ := sendTurn_advanced hcore rfl hdone
    have hwakes := hadvanced.wakes
    have hsent : sendTurnWrites (loaded s d).uart d.packet = none := if_neg (Nat.not_lt.mpr hdone)
    rw [hsent]
    exact .complete hat hdone { hadvanced with wakes := { hwakes with } }

theorem nextPacket_turn (h : Core s writing ids ks [] ds) (hidle : s.uart.curPacket = none) :
    Turn s writing ks ds (shellUartTxTurnWrites.nextPacketWrites s.uart)
      (shellUartTxTurn.nextPacket s) := by
  have hempty := h.queues.device.empty_iff h.queues.device_lt
  rw [shellUartTxTurnWrites.nextPacketWrites, shellUartTxTurn.nextPacket]
  rcases eq_or_ne s.uart.echo.outIdx s.uart.echo.inIdx with hecho | hecho
  · rw [if_neg (not_not_intro hecho), if_neg (not_not_intro hecho)]
    cases ds with
    | nil =>
      have hnone := hempty.mpr rfl
      rw [if_neg (not_not_intro hnone), if_neg (not_not_intro hnone)]
      exact .stop hidle hecho
    | cons d =>
      have hsome : s.uart.txList.outIdx ≠ s.uart.txList.inIdx := by
        intro heq
        cases hempty.mp heq
      have hfront : s.uart.txList.front = d := h.queues.device.front
      rw [if_pos hsome, if_pos hsome, hfront]
      exact loaded_turn h hidle hecho
  · rw [if_pos hecho, if_pos hecho]
    exact .echo ds hidle hecho

theorem turn_cases (h : Core s writing ids ks [] ds) (hcurrent : Current s.uart ds) :
    Turn s writing ks ds (shellUartTxTurnWrites s.uart) (shellUartTxTurn s) := by
  cases hcurrent with
  | idle _ hidle =>
    rw [shellUartTxTurnWrites, shellUartTxTurn, hidle]
    exact nextPacket_turn h hidle
  | sending ds hcur hlen htag hpos =>
    have hne : s.uart.packetLen ≠ 0 := by omega
    simp only [shellUartTxTurnWrites, shellUartTxTurn, hcur, if_neg hne]
    exact sendTurn_turn h hcur hlen htag hpos

theorem Turn.sound {w : Option Written} (hturn : Turn s writing ks ds w s')
    (hcore : Core s writing ids ks [] ds) (hcurrent : Current s.uart ds) :
    Sound s' writing ∧ (s'.rspOngoing = true → s.rspOngoing = true) := by
  have hsound : Sound s writing := ⟨ids, ks, ds, hcore, hcurrent⟩
  cases hturn with
  | echo => exact ⟨hsound.congr ⟨rfl, rfl, rfl, rfl, rfl, rfl, rfl⟩ rfl rfl rfl, id⟩
  | byte ds =>
    refine ⟨⟨ids, ks, _, hcore.congr ⟨rfl, rfl, rfl, rfl, rfl, rfl, rfl⟩, ?_⟩, id⟩
    exact .sending ds rfl rfl rfl (by omega)
  | complete _ _ hadvanced =>
    obtain ⟨ids', hnext⟩ := hadvanced.core
    exact ⟨⟨ids', _, _, hnext, .idle _ hadvanced.idle⟩, hadvanced.flag⟩
  | stop => exact ⟨hsound.congr ⟨rfl, rfl, rfl, rfl, rfl, rfl, rfl⟩ rfl rfl rfl, id⟩

theorem Turn.line {w : Option Written} (hturn : Turn s writing ks ds w s')
    (hcore : Core s writing ids ks [] ds) :
    packetLine s' = packetLine s ∨ ∃ d, packetLine s = d :: packetLine s' := by
  cases hturn with
  | echo | byte => exact .inl rfl
  | @complete _ d _ ds moved rest _ _ hadvanced =>
    obtain ⟨ids', hnext⟩ := hadvanced.core
    refine .inr ⟨d, ?_⟩
    rw [hcore.packetLine_eq, hnext.packetLine_eq, hadvanced.split, map_append,
      append_assoc, cons_append]
  | stop => exact .inl rfl

theorem Sound.txTurn (h : Sound s writing) : Sound (shellUartTxTurn s) writing ∧
      ((shellUartTxTurn s).rspOngoing = true → s.rspOngoing = true) := by
  obtain ⟨ids, ks, ds, hcore, hcurrent⟩ := h
  exact (turn_cases hcore hcurrent).sound hcore hcurrent

theorem Sound.alloc (h : Sound s writing) (logLen : Nat) :
    Sound (allocLogBlk s logLen).1 ((allocLogBlk s logLen).2.toList ++ writing) ∧
      (allocLogBlk s logLen).1.rspOngoing = s.rspOngoing := by
  obtain ⟨ids, ks, ds, hcore, hcurrent⟩ := h
  rcases halloc : allocFrom logLen pools s.freeQueue with ⟨freeQueue', _ | tag⟩
  · simp only [allocLogBlk, halloc]
    refine ⟨⟨ids, ks, ds, ?_, hcurrent⟩, trivial⟩
    exact { hcore with
      queues := hcore.queues.congr rfl rfl rfl, free := allocFrom_none hcore.free halloc }
  · obtain ⟨p, b, rest, hids, hb, rfl, hfree⟩ := allocFrom_some hcore.free halloc
    simp only [allocLogBlk, halloc]
    refine ⟨⟨update ids p rest, ks, ds, ?_, hcurrent⟩, trivial⟩
    refine ⟨hcore.queues.congr rfl rfl rfl, hcore.pendingKnown, hcore.deviceKnown, hcore.rsp,
      hfree, ?_, ?_, hcore.asserts, hcore.refused⟩
    · intro q c hc
      have hplaced := hcore.placed q c hc
      rw [Option.toList_some, singleton_append, count_cons]
      rcases eq_or_ne q p with rfl | hq
      · rw [hids, count_cons] at hplaced
        rw [update_self]
        rcases eq_or_ne b c with rfl | hne
        · simp only [beq_self_eq_true, if_true] at hplaced ⊢
          omega
        · have htag : blockTag q b ≠ blockTag q c := fun heq => hne (blockTag_inj hb hc heq).2
          rw [if_neg (by simpa using hne)] at hplaced
          rw [if_neg (by simpa using htag)]
          omega
      · have htag : blockTag p b ≠ blockTag q c := fun heq =>
          hq (blockTag_inj hb hc heq).1.symm
        rw [update_of_ne hq, if_neg (by simpa using htag)]
        omega
    · intro t ht
      rcases mem_cons.mp ht with rfl | ht
      · exact ⟨p, b, hb, rfl⟩
      · exact hcore.writingKnown t ht

structure Pushes (s s' : Shell) (d : DevTxPacket) (moved : List TxPacket) : Prop where
  line : packetLine s' = packetLine s ++ [d]
  device : devicePackets s' = devicePackets s ++ moved.map deviceTx
  served : pendingPackets s' ≠ [] → devicePackets s' ≠ []
  wakes : Wakes s.uart s'.uart moved
  curPacket : s'.uart.curPacket = s.uart.curPacket
  packetTxLen : s'.uart.packetTxLen = s.uart.packetTxLen

theorem Pushes.setPrint {d : DevTxPacket} {moved : List TxPacket} (h : Pushes s s' d moved)
    (print : Bool) : Pushes s { s' with faultHintPrint := print } d moved :=
  { h with }

structure Pushed (s s' : Shell) (writing : List Nat) (ongoing : Bool) (k : TxPacket) : Prop where
  sound : Sound s' writing
  ongoing : s'.rspOngoing = ongoing
  pushes : ∃ moved, Pushes s s' (deviceTx k) moved

section

variable (h : Sound s writing) (hfits : s.pending.count shellLogPendNum + 1 < shellLogPendNum)
include h hfits

theorem Sound.push {writing' : List Nat} {ongoing : Bool} (len : Nat) (hknown : Known tag)
    (hgives : GivesUp tag writing writing' s.rspOngoing ongoing) :
    Pushed s (pushPacket { s with rspOngoing := ongoing } tag len) writing' ongoing ⟨tag, len⟩ := by
  obtain ⟨ids, ks, ds, hcore, hcurrent⟩ := h
  rw [hcore.queues.pending.count_eq hcore.queues.pending_lt] at hfits
  obtain ⟨moved, rest, hreq⟩ := (hcore.push len hfits hknown hgives).txReq
  have hsame := hreq.same
  refine ⟨⟨ids, rest, ds ++ moved.map deviceTx, hreq.core, ?_⟩, hsame.rspOngoing, moved, ?_⟩
  · exact hcurrent.congr hsame.curPacket hsame.packetLen hsame.packetTag _
  · constructor
    · rw [pushPacket, hreq.core.packetLine_eq, hcore.packetLine_eq, append_assoc,
        ← map_append, ← hreq.split, map_append, append_assoc]
      rfl
    · rw [pushPacket, hreq.core.devicePackets_eq, hcore.devicePackets_eq]
    · rw [pushPacket, hreq.core.devicePackets_eq, hreq.core.pendingPackets_eq]
      exact hreq.device_ne (Nat.zero_le 1)
    · exact { hreq.wakes with }
    · exact hsame.curPacket
    · exact (txReqProcess_keeps _).2

theorem Sound.pushBlock (len : Nat) (htag : tag ∈ writing) :
    Pushed s (pushPacket s tag len) (writing.erase tag) s.rspOngoing ⟨tag, len⟩ := by
  have hknown : ∃ p, ∃ b < blkNum p, tag = blockTag p b := by
    obtain ⟨ids, ks, ds, hcore, -⟩ := h
    exact hcore.writingKnown tag htag
  obtain ⟨p, b, hb, rfl⟩ := hknown
  refine h.push hfits len (.block p hb) ⟨?_, ?_, erase_subset⟩
  · rw [if_neg (ne_blockTag isLog_rspTag p b).symm, Nat.add_zero]
  · intro q c _
    have hpos := count_pos_iff.mpr htag
    rw [count_erase]
    rcases eq_or_ne (blockTag p b) (blockTag q c) with heq | hne
    · rw [if_pos heq, if_pos (by simpa using heq), ← heq]
      omega
    · rw [if_neg hne, if_neg (by simpa using hne)]
      omega

theorem Sound.pushHint (len : Nat) (hknown : Known tag) (hlog : isLog tag = false)
    (hrsp : tag ≠ rspTag) :
    Pushed s (pushPacket s tag len) writing s.rspOngoing ⟨tag, len⟩ := by
  refine h.push hfits len hknown ⟨?_, ?_, .refl writing⟩
  · rw [if_neg hrsp, Nat.add_zero]
  · intro p b _
    rw [if_neg (ne_blockTag hlog p b), Nat.add_zero]

theorem Sound.pushRsp (len : Nat) (hongoing : s.rspOngoing = false) :
    Pushed s (pushPacket { s with rspOngoing := true } rspTag len) writing true ⟨rspTag, len⟩ := by
  refine h.push hfits len .rsp ⟨?_, ?_, .refl writing⟩
  · rw [hongoing]
    rfl
  · intro p b _
    rw [if_neg (ne_blockTag isLog_rspTag p b), Nat.add_zero]

end

end Turns

theorem sound_start : Sound Shell.start [] := by
  refine ⟨fun p => range (blkNum p), [], [], ?_, .idle [] rfl⟩
  constructor
  · exact ⟨.empty (by decide) _, by decide, .empty (by decide) _, by decide,
      .empty (by decide) _, by decide⟩
  · intro k hk
    cases hk
  · intro d hd
    cases hd
  · rfl
  · intro p
    have hpos : 0 < blkNum p := by cases p <;> decide
    refine ⟨⟨hpos, ?_, ?_, ?_⟩, ?_, fun b hb => mem_range.mp hb⟩
    · rw [length_range]
      change 0 = (0 + blkNum p) % blkNum p
      rw [Nat.zero_add, Nat.mod_self]
    · rw [length_range]
    · rw [length_range]
      have hslot : ∀ i ∈ range (blkNum p), (0 + i) % blkNum p = i := by
        intro i hi
        rw [Nat.zero_add, Nat.mod_eq_of_lt (mem_range.mp hi)]
      exact (map_congr_left hslot).trans (map_id _)
    · rw [length_range]
      rfl
  · intro p b hb
    rw [nodup_range.count, if_pos (mem_range.mpr hb)]
    rfl
  · intro t ht
    cases ht
  · rfl
  · rfl

structure Inv (s : System) : Prop where
  sound : Sound s.shell s.writing
  handling : s.rxHandling = true → s.shell.rspOngoing = false

theorem Inv.keepsFlag {s' : System} (h : Inv s) (hsound : Sound s'.shell s'.writing)
    (hflag : s'.shell.rspOngoing = s.shell.rspOngoing) (hrx : s'.rxHandling = s.rxHandling) :
    Inv s' := by
  refine ⟨hsound, fun hset => ?_⟩
  rw [hflag]
  exact h.handling (hrx.symm.trans hset)

theorem Inv.step {s' : System} {e : Event} (h : Inv s) (hfits : PendingFits s e)
    (hstep : step s e = some s') : Inv s' := by
  have hsound := h.sound
  cases step_cases hstep with
  | @allocated logLen _ _ halloc | @overflowed logLen _ halloc =>
    have hnext := hsound.alloc logLen
    rw [halloc] at hnext
    exact h.keepsFlag hnext.1 hnext.2 rfl
  | pushed len htag =>
    obtain ⟨hnext, hrsp, -⟩ := hsound.pushBlock (hfits.room rfl) len htag
    exact h.keepsFlag hnext hrsp rfl
  | hinted | hints => exact h.keepsFlag hsound rfl rfl
  | hintPushed =>
    obtain ⟨hnext, hrsp, -⟩ := hsound.pushHint (hfits.room rfl) shellFaultStrLen .faultHint
      isLog_faultHintTag (by decide)
    refine h.keepsFlag ?_ hrsp rfl
    exact hnext.congr ⟨rfl, rfl, rfl, rfl, rfl, rfl, rfl⟩ rfl rfl rfl
  | rxTested => exact ⟨hsound, fun hset => by simpa using hset⟩
  | rxLeft => exact ⟨hsound, by simp⟩
  | cmdHinted =>
    obtain ⟨hnext, hrsp, -⟩ := hsound.pushHint (hfits.room rfl) shellFaultStrLen .cmdHint
      isLog_cmdHintTag (by decide)
    exact h.keepsFlag hnext hrsp rfl
  | responded len hset => exact ⟨(hsound.pushRsp (hfits.room rfl) len (h.handling hset)).1, by simp⟩
  | echoed b =>
    obtain ⟨htx, hcur, hlen, htag⟩ := echoTurn_same s.shell.uart b
    refine h.keepsFlag ?_ rfl rfl
    exact hsound.congr ⟨rfl, rfl, htx, rfl, rfl, rfl, rfl⟩ hcur hlen htag
  | echoTested => exact h.keepsFlag hsound rfl rfl
  | echoCleared | echoEnabled =>
    refine h.keepsFlag ?_ rfl rfl
    exact hsound.congr ⟨rfl, rfl, rfl, rfl, rfl, rfl, rfl⟩ rfl rfl rfl
  | turned =>
    -- a turn can only end a response, so the flag stays clear while a command is handled
    obtain ⟨hnext, hflag⟩ := hsound.txTurn
    refine ⟨hnext, fun hset => eq_false_of_ne_true fun hongoing => ?_⟩
    have hclear := h.handling hset
    rw [hflag hongoing] at hclear
    cases hclear

theorem inv_of_reached (h : Reached step PendingFits System.start s) : Inv s :=
  h.invariant Inv ⟨sound_start, by simp [System.start]⟩
    fun _ _ _ hinv hfits hstep => hinv.step hfits hstep

section Results

variable {s : System} {ids : Pool → List Nat} {ks : List TxPacket} {ds : List DevTxPacket}

section

variable (h : Core s.shell s.writing ids ks [] ds)
include h

theorem Core.pendingTags_eq : pendingTags s.shell = ks.map TxPacket.blkTag := by
  rw [pendingTags, h.queues.pending.contents_eq h.queues.pending_lt]

theorem Core.deviceTags_eq : deviceTags s.shell = ds.map DevTxPacket.tag := by
  rw [deviceTags, h.queues.device.contents_eq h.queues.device_lt, nil_append]

theorem Core.busyTags_eq : busyTags s.shell = (ds.map DevTxPacket.tag).filter isLog := by
  have hlt := h.queues.device_lt
  have hle := h.queues.busy_le
  have hsizes : txQueueLen < shellLogBusyNum := by decide
  rw [busyTags, h.queues.busy.contents_eq (by omega)]

theorem Core.freeIds_eq (p : Pool) : freeIds s.shell p = ids p := by
  rw [freeIds, (h.free p).num, (h.free p).ring.window_eq]

theorem Core.count_busyTags (p : Pool) (b : Nat) :
    (busyTags s.shell).count (blockTag p b) = (ds.map DevTxPacket.tag).count (blockTag p b) := by
  rw [h.busyTags_eq, count_filter (isLog_blockTag p b)]

theorem Core.freeIds_perm (p : Pool) : (ids p).Perm (unusedBlocks s p) := by
  have hnodup : (ids p).Nodup := by
    apply nodup_iff_count.mpr
    intro b
    rcases Nat.lt_or_ge b (blkNum p) with hb | hb
    · have hplaced := h.placed p b hb
      omega
    · rw [count_eq_zero.mpr fun hmem => absurd ((h.free p).lt b hmem) (Nat.not_lt.mpr hb)]
      exact Nat.zero_le 1
  apply (perm_ext_iff_of_nodup hnodup (nodup_range.filter _)).mpr
  intro b
  rw [mem_filter, mem_range, decide_eq_true_eq, ← count_eq_zero,
    count_append, count_append, h.pendingTags_eq, h.count_busyTags]
  constructor
  · intro hmem
    have hb := (h.free p).lt b hmem
    have hplaced := h.placed p b hb
    have hpos := count_pos_iff.mpr hmem
    exact ⟨hb, by omega⟩
  · rintro ⟨hb, hnone⟩
    have hplaced := h.placed p b hb
    exact count_pos_iff.mp (by omega)

end

/-- No log block is lost or queued twice as long as the pending ring does not run over. -/
theorem reached_blocksPlaced (h : Reached step PendingFits System.start s) : BlocksPlaced s := by
  obtain ⟨⟨ids, ks, ds, hcore, -⟩, -⟩ := inv_of_reached h
  constructor
  · intro p b hb
    rw [hcore.freeIds_eq, hcore.pendingTags_eq, hcore.count_busyTags]
    exact hcore.placed p b hb
  · intro p b _
    rw [hcore.deviceTags_eq, hcore.count_busyTags]
  · intro p
    rw [(hcore.free p).num]
    exact (hcore.free p).ring.in_eq
  · intro p
    rw [(hcore.free p).num]
    exact (hcore.freeIds_perm p).length_eq

theorem reached_blocksPlaced_sent : ∃ s, Reached step PendingFits System.start s ∧
      (s.writing = [blockTag .buf3 1] ∧ deviceTags s.shell = [blockTag .buf1 0] ∧
        (s.shell.freeQueue .buf3).freeBlkNum = 63) ∧ BlocksPlaced s :=
  exists_reached_and (fun _ => reached_blocksPlaced)
    [.alloc 10, .alloc 100, .push (blockTag .buf3 0) 1, .push (blockTag .buf1 0) 2, .txTurn,
      .txTurn, .txTurn, .alloc 20] (by decide)

/-- The completions come for the blocks in the order of the busy queue. -/
theorem reached_queuesAgree (h : Reached step PendingFits System.start s) : QueuesAgree s := by
  obtain ⟨⟨ids, ks, ds, hcore, -⟩, -⟩ := inv_of_reached h
  constructor
  · rw [hcore.busyTags_eq, hcore.deviceTags_eq]
  · exact hcore.refused
  · exact hcore.asserts

theorem reached_queuesAgree_response : ∃ s, Reached step PendingFits System.start s ∧
      (deviceTags s.shell = [cmdHintTag, rspTag, blockTag .buf3 0] ∧
        busyTags s.shell = [blockTag .buf3 0]) ∧ QueuesAgree s :=
  exists_reached_and (fun _ => reached_queuesAgree)
    [.rxInd, .echo 65, .alloc 10, .cmdHint, .rsp 5, .txTurn, .push (blockTag .buf3 0) 4, .txTurn]
    (by decide)

end Results

end BekenSoc.ShellLogCustody
