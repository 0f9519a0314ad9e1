import BekenSoc.QueueMarkers
import BekenSoc.ShellTaskRuns

namespace BekenSoc.ShellLogRoom

open GuardedRuns RingBuffers QueueMarkers ShellLog ShellLogQueues ShellLogRuns ShellLogCustody List
open ShellTaskRuns

variable {d : DevTxPacket} {moved : List TxPacket} {s : Shell}

def lineTags (s : Shell) : List Nat := (packetLine s).map DevTxPacket.tag

def allBlocks : List Nat := pools.flatMap fun p => (range (blkNum p)).map (blockTag p)

theorem mem_allBlocks {p : Pool} {b : Nat} (hb : b < blkNum p) : blockTag p b ∈ allBlocks := by
  refine mem_flatMap.mpr ⟨p, by cases p <;> decide, ?_⟩
  exact mem_map.mpr ⟨b, mem_range.mpr hb, rfl⟩

theorem length_of_known {line : List Nat} (h : ∀ t ∈ line, Known t) :
    line.length = line.countP isLog + line.count faultHintTag + line.count cmdHintTag +
      line.count rspTag := by
  induction line with
  | nil => rfl
  | cons t line ih =>
    have hrest := ih fun x hx => h x (mem_cons_of_mem t hx)
    rw [length_cons, hrest, countP_cons, count_cons, count_cons, count_cons]
    cases h t mem_cons_self with
    | @block p b =>
      have hhint := (ne_blockTag isLog_faultHintTag p b).symm
      have hcmd := (ne_blockTag isLog_cmdHintTag p b).symm
      have hrsp := (ne_blockTag isLog_rspTag p b).symm
      rw [if_pos (isLog_blockTag p b), if_neg (by simpa using hhint),
        if_neg (by simpa using hcmd), if_neg (by simpa using hrsp)]
      omega
    | rsp =>
      rw [if_neg (by decide), if_neg (by decide), if_neg (by decide), if_pos (by decide)]
      omega
    | faultHint =>
      rw [if_neg (by decide), if_pos (by decide), if_neg (by decide), if_neg (by decide)]
      omega
    | cmdHint =>
      rw [if_neg (by decide), if_neg (by decide), if_pos (by decide), if_neg (by decide)]
      omega

section Line

variable {s s' : Shell} {writing : List Nat} {ids : Pool → List Nat} {ks : List TxPacket}
  {ds : List DevTxPacket}

section

variable (h : Core s writing ids ks [] ds)
include h

theorem Core.lineTags_eq : lineTags s = ds.map DevTxPacket.tag ++ ks.map TxPacket.blkTag := by
  rw [lineTags, h.packetLine_eq, map_append, map_tag_deviceTx]

theorem Core.lineTags_known : ∀ t ∈ lineTags s, Known t := by
  intro t ht
  rw [Core.lineTags_eq h] at ht
  rcases mem_append.mp ht with hmem | hmem
  · obtain ⟨d, hd, rfl⟩ := mem_map.mp hmem
    exact (h.deviceKnown d hd).1
  · obtain ⟨k, hk, rfl⟩ := mem_map.mp hmem
    exact h.pendingKnown k hk

theorem Core.count_rsp : (lineTags s).count rspTag = s.rspOngoing.toNat := by
  have hrsp := h.rsp
  rw [Core.lineTags_eq h, count_append]
  omega

theorem Core.blocks_le : (lineTags s).countP isLog + writing.length ≤ shellLogBufNum := by
  have hline := Core.lineTags_eq h
  have hblock : ∀ t ∈ writing ++ (lineTags s).filter isLog, ∃ p, ∃ b < blkNum p,
      t = blockTag p b := by
    intro t ht
    rcases mem_append.mp ht with hmem | hmem
    · exact h.writingKnown t hmem
    · obtain ⟨hmem, hlog⟩ := mem_filter.mp hmem
      cases Core.lineTags_known h t hmem with
      | block p hb => exact ⟨p, _, hb, rfl⟩
      | rsp => cases isLog_rspTag.symm.trans hlog
      | faultHint => cases isLog_faultHintTag.symm.trans hlog
      | cmdHint => cases isLog_cmdHintTag.symm.trans hlog
  have hnodup : (writing ++ (lineTags s).filter isLog).Nodup := by
    apply nodup_iff_count.mpr
    intro t
    rcases Nat.eq_zero_or_pos ((writing ++ (lineTags s).filter isLog).count t) with hzero | hpos
    · omega
    · obtain ⟨p, b, hb, rfl⟩ := hblock t (count_pos_iff.mp hpos)
      have hplaced := h.placed p b hb
      rw [count_append, count_filter (isLog_blockTag p b), hline, count_append]
      omega
  have hsub : writing ++ (lineTags s).filter isLog ⊆ allBlocks := by
    intro t ht
    obtain ⟨p, b, hb, rfl⟩ := hblock t ht
    exact mem_allBlocks hb
  have hlen := (subperm_of_subset hnodup hsub).length_le
  have hall : allBlocks.length = shellLogBufNum := by
    simp [allBlocks, pools, blkNum, shellLogBufNum]
  rw [length_append, ← countP_eq_length_filter, hall] at hlen
  omega

end

theorem Pushes.lineTags_eq (h : Pushes s s' d moved) : lineTags s' = lineTags s ++ [d.tag] := by
  rw [lineTags, h.line, map_append, lineTags]
  rfl

theorem Turn.lineTags_eq {w : Option Written} (h : Turn s writing ks ds w s')
    (hcore : Core s writing ids ks [] ds) :
    lineTags s' = lineTags s ∨ ∃ t, lineTags s = t :: lineTags s' := by
  rcases h.line hcore with heq | ⟨d, heq⟩
  · left
    rw [lineTags, heq, lineTags]
  · right
    refine ⟨d.tag, ?_⟩
    rw [lineTags, heq, map_cons, lineTags]

theorem Core.room (h : Core s writing ids ks [] ds)
    (hserved : pendingPackets s ≠ [] → devicePackets s ≠ [])
    (hlen : (lineTags s).length + 1 ≤ shellLogPendNum) :
    s.pending.count shellLogPendNum + 1 < shellLogPendNum := by
  rw [h.queues.pending.count_eq h.queues.pending_lt]
  rw [h.pendingPackets_eq, h.devicePackets_eq] at hserved
  rw [Core.lineTags_eq h, length_append, length_map, length_map] at hlen
  have hslots : 1 < shellLogPendNum := by decide
  cases ks with
  | nil => exact hslots
  | cons k ks =>
    have hpos := length_pos_iff.mpr (hserved (cons_ne_nil k ks))
    omega

end Line

structure RoomInv (c : TaskView) : Prop where
  task : TaskInv c
  spaced : Spaced faultHintTag isLog (lineTags c.system.shell) c.system.writing.length
    (!c.system.shell.faultHintPrint).toNat
  answered : Answered cmdHintTag rspTag (lineTags c.system.shell) c.rxHinted
  hinting : c.system.hinting ≠ 0 → c.system.hinting = 1 ∧ c.system.shell.faultHintPrint = false
  handling : c.rxHinted = true → c.system.rxHandling = true

section Steps

variable {c c' : TaskView} {e : Event} {s : System}

theorem RoomInv.fits (h : RoomInv c) (hallows : c.allows e = true)
    (hstep : step c.system e = some s) : PendingFits c.system e := by
  have hserved := h.task.attentive.served
  have hhandling := h.task.inv.handling
  obtain ⟨ids, ks, ds, hcore, -⟩ := h.task.inv.sound
  have hlen := length_of_known (Core.lineTags_known hcore)
  have hhints := h.spaced.count_le (Bool.toNat_le _)
  have hblocks := Core.blocks_le hcore
  have hcmd := h.answered.count_le
  have hrsp := Core.count_rsp hcore
  have hrspLe := Bool.toNat_le c.system.shell.rspOngoing
  have hslots : shellLogPendNum = shellLogBufNum * 2 + 3 := rfl
  cases step_cases hstep with
  | allocated | overflowed => exact .inl rfl
  | pushed len htag =>
    have hheld := length_pos_of_mem htag
    exact .inr (Core.room hcore hserved (by omega))
  | hinted | hints => exact .inl rfl
  | hintPushed hhinting =>
    rw [(h.hinting hhinting).2] at hhints
    change _ + 1 ≤ _ at hhints
    exact .inr (Core.room hcore hserved (by omega))
  | rxTested | rxLeft => exact .inl rfl
  | cmdHinted hset =>
    rw [hhandling hset] at hrsp
    change _ = 0 at hrsp
    have hnone : (lineTags c.system.shell).count cmdHintTag = 0 := by
      have hanswered := h.answered
      have hclear : c.rxHinted = false := (Bool.not_eq_true' c.rxHinted).mp hallows
      rw [hclear] at hanswered
      exact count_eq_zero.mpr (hanswered.notMem (count_eq_zero.mp hrsp))
    exact .inr (Core.room hcore hserved (by omega))
  | responded len hset =>
    rw [hhandling hset] at hrsp
    change _ = 0 at hrsp
    exact .inr (Core.room hcore hserved (by omega))
  | echoed | echoTested | echoCleared | echoEnabled | turned => exact .inl rfl

theorem lineTags_congr {s s' : Shell} (hpending : s'.pending = s.pending)
    (htx : s'.uart.txList = s.uart.txList) : lineTags s' = lineTags s := by
  simp only [lineTags, packetLine, devicePackets, pendingPackets, hpending, htx]

theorem allocLogBlk_lineTags {s shell : Shell} {logLen : Nat} {tag : Option Nat}
    (h : allocLogBlk s logLen = (shell, tag)) : lineTags shell = lineTags s := by
  obtain ⟨hpending, huart⟩ := allocLogBlk_same h
  exact lineTags_congr hpending (congrArg Uart.txList huart)

theorem allocLogBlk_faultHintPrint {s shell : Shell} {logLen : Nat} {tag : Option Nat}
    (h : allocLogBlk s logLen = (shell, tag)) :
    shell.faultHintPrint = (s.faultHintPrint && tag.isNone) := by
  rcases hfrom : allocFrom logLen pools s.freeQueue with ⟨freeQueue, _ | blkTag⟩
  · simp only [allocLogBlk, hfrom] at h
    cases h
    simp
  · simp only [allocLogBlk, hfrom] at h
    cases h
    simp

theorem pushPacket_faultHintPrint (s : Shell) (tag len : Nat) :
    (pushPacket s tag len).faultHintPrint = s.faultHintPrint :=
  (txReqProcess_keeps (pushPendingQueue s tag len)).1

/-- No task finds `fault_hint_print` clear while another one is between its test and its
push. -/
def HintsApart (c : TaskView) (e : TaskEvent) : Prop :=
  e ≠ .base .hintTest ∨ c.system.shell.faultHintPrint = true ∨ c.system.hinting = 0

instance (c : TaskView) (e : TaskEvent) : Decidable (HintsApart c e) :=
  inferInstanceAs (Decidable
    (e ≠ .base .hintTest ∨ c.system.shell.faultHintPrint = true ∨ c.system.hinting = 0))

section

variable (h : RoomInv c)
include h

theorem RoomInv.keep (htask : TaskInv c')
    (hline : lineTags c'.system.shell = lineTags c.system.shell)
    (hheld : c'.system.writing.length = c.system.writing.length)
    (hprint : c'.system.shell.faultHintPrint = c.system.shell.faultHintPrint)
    (hhinting : c'.system.hinting = c.system.hinting) (hhinted : c'.rxHinted = c.rxHinted)
    (hhandling : c'.rxHinted = true → c'.system.rxHandling = true) : RoomInv c' := by
  constructor
  · exact htask
  · rw [hline, hheld, hprint]
    exact h.spaced
  · rw [hline, hhinted]
    exact h.answered
  · rw [hhinting, hprint]
    exact h.hinting
  · exact hhandling

theorem RoomInv.pushed (htask : TaskInv c') (hpush : Pushes c.system.shell c'.system.shell d moved)
    (hheld : c.system.writing.length = c'.system.writing.length + if isLog d.tag then 1 else 0)
    (hhint : d.tag ≠ faultHintTag)
    (hprint : c'.system.shell.faultHintPrint = c.system.shell.faultHintPrint)
    (hhinting : c'.system.hinting = c.system.hinting)
    (hanswered : Answered cmdHintTag rspTag (lineTags c.system.shell ++ [d.tag]) c'.rxHinted)
    (hhandling : c'.rxHinted = true → c'.system.rxHandling = true) : RoomInv c' := by
  constructor
  · exact htask
  · have hspaced := h.spaced
    rw [Pushes.lineTags_eq hpush, hprint]
    rw [hheld] at hspaced
    cases hlog : isLog d.tag with
    | true =>
      rw [hlog, if_pos rfl] at hspaced
      exact hspaced.concat_pays hhint hlog
    | false =>
      rw [hlog] at hspaced
      exact hspaced.concat hhint
  · rw [Pushes.lineTags_eq hpush]
    exact hanswered
  · rw [hhinting, hprint]
    exact h.hinting
  · exact hhandling

theorem RoomInv.hintPushed (htask : TaskInv c')
    (hpush : Pushes c.system.shell c'.system.shell d moved) (htag : d.tag = faultHintTag)
    (hset : c.system.hinting ≠ 0) (hheld : c'.system.writing.length = c.system.writing.length)
    (hprint : c'.system.shell.faultHintPrint = true)
    (hhinting : c'.system.hinting = c.system.hinting - 1) (hhinted : c'.rxHinted = c.rxHinted)
    (hhandling : c'.rxHinted = true → c'.system.rxHandling = true) : RoomInv c' := by
  obtain ⟨hone, hclear⟩ := h.hinting hset
  constructor
  · exact htask
  · have hspaced := h.spaced
    rw [hclear] at hspaced
    rw [Pushes.lineTags_eq hpush, htag, hheld, hprint]
    exact hspaced.concat_mark
  · rw [Pushes.lineTags_eq hpush, htag, hhinted]
    exact h.answered.concat (by decide)
  · intro hne
    omega
  · exact hhandling

theorem RoomInv.baseStep (htask : TaskInv (c.after e s)) (hfits : PendingFits c.system e)
    (hallows : c.allows e = true) (hapart : HintsApart c (.base e))
    (hstep : step c.system e = some s) : RoomInv (c.after e s) := by
  have hsound := h.task.inv.sound
  cases step_cases hstep with
  | @allocated logLen tag shell halloc =>
    have hprint : shell.faultHintPrint = false := by
      rw [allocLogBlk_faultHintPrint halloc, Option.isNone_some, Bool.and_false]
    have hline := allocLogBlk_lineTags halloc
    refine ⟨htask, ?_, ?_, ?_, h.handling⟩
    · change Spaced _ _ (lineTags shell) (tag :: c.system.writing).length _
      rw [hline]
      apply h.spaced.mono
      have hle := Bool.toNat_le (!shell.faultHintPrint)
      rw [length_cons]
      change (!shell.faultHintPrint).toNat + _ ≤ _
      omega
    · change Answered _ _ (lineTags shell) _
      rw [hline]
      exact h.answered
    · exact fun hne => ⟨(h.hinting hne).1, hprint⟩
  | @overflowed logLen shell halloc =>
    have hprint : shell.faultHintPrint = c.system.shell.faultHintPrint := by
      rw [allocLogBlk_faultHintPrint halloc, Option.isNone_none, Bool.and_true]
    have hline := allocLogBlk_lineTags halloc
    exact h.keep htask hline rfl hprint rfl rfl h.handling
  | @pushed tag len htag =>
    obtain ⟨-, -, moved, hpush⟩ := hsound.pushBlock (hfits.room rfl) len htag
    obtain ⟨ids, ks, ds, hcore, -⟩ := hsound
    obtain ⟨p, b, hb, rfl⟩ := hcore.writingKnown tag htag
    have hhint := (ne_blockTag isLog_faultHintTag p b).symm
    have hcmd := (ne_blockTag isLog_cmdHintTag p b).symm
    refine h.pushed htask hpush ?_ hhint (pushPacket_faultHintPrint _ _ _) rfl
      (h.answered.concat hcmd) h.handling
    change _ = (c.system.writing.erase (blockTag p b)).length +
      if isLog (blockTag p b) = true then 1 else 0
    rw [if_pos (isLog_blockTag p b), length_erase_add_one htag]
  | hinted => exact h.keep htask rfl rfl rfl rfl rfl h.handling
  | hints _ hclear =>
    have hnone : c.system.hinting = 0 := by
      rcases hapart with hne | hset | hnone
      · exact absurd rfl hne
      · cases hclear.symm.trans hset
      · exact hnone
    refine ⟨htask, h.spaced, h.answered, fun _ => ⟨?_, hclear⟩, h.handling⟩
    change c.system.hinting + 1 = 1
    rw [hnone]
  | hintPushed hset =>
    obtain ⟨-, -, moved, hpush⟩ := hsound.pushHint (hfits.room rfl) shellFaultStrLen .faultHint
      isLog_faultHintTag (by decide)
    exact h.hintPushed htask (hpush.setPrint true) rfl hset rfl rfl rfl rfl h.handling
  | rxTested hclear =>
    refine h.keep htask rfl rfl rfl rfl rfl fun hhinted => ?_
    cases hclear.symm.trans (h.handling hhinted)
  | rxLeft =>
    refine h.keep htask rfl rfl rfl rfl rfl fun hhinted => ?_
    have hclear : c.rxHinted = false := (Bool.not_eq_true' c.rxHinted).mp hallows
    cases hclear.symm.trans hhinted
  | cmdHinted hset =>
    obtain ⟨-, -, moved, hpush⟩ := hsound.pushHint (hfits.room rfl) shellFaultStrLen .cmdHint
      isLog_cmdHintTag (by decide)
    obtain ⟨ids, ks, ds, hcore, -⟩ := hsound
    have hnone : cmdHintTag ∉ lineTags c.system.shell := by
      have hanswered := h.answered
      have hclear : c.rxHinted = false := (Bool.not_eq_true' c.rxHinted).mp hallows
      have hrsp := Core.count_rsp hcore
      rw [h.task.inv.handling hset] at hrsp
      rw [hclear] at hanswered
      exact hanswered.notMem (count_eq_zero.mp hrsp)
    exact h.pushed htask hpush rfl (by decide) (pushPacket_faultHintPrint _ _ _) rfl
      (answered_concat_mark hnone) fun _ => hset
  | responded len hset =>
    obtain ⟨-, -, moved, hpush⟩ := hsound.pushRsp (hfits.room rfl) len (h.task.inv.handling hset)
    have hhint : rspTag ≠ faultHintTag := by decide
    refine h.pushed htask hpush ?_ hhint (pushPacket_faultHintPrint _ _ _) rfl
      (h.answered.concat_answer (by decide)) fun hhinted => ?_
    · change _ = c.system.writing.length + if isLog rspTag = true then 1 else 0
      rw [isLog_rspTag]
      rfl
    · cases hhinted
  | echoed b =>
    have hline : lineTags { c.system.shell with uart := echoTurn c.system.shell.uart b } =
        lineTags c.system.shell :=
      lineTags_congr rfl (echoTurn_same c.system.shell.uart b).1
    exact h.keep htask hline rfl rfl rfl rfl h.handling
  | echoTested | echoCleared | echoEnabled => exact h.keep htask rfl rfl rfl rfl rfl h.handling
  | turned =>
    obtain ⟨ids, ks, ds, hcore, hcurrent⟩ := hsound
    have hprint := shellUartTxTurn_faultHintPrint c.system.shell
    rcases Turn.lineTags_eq (turn_cases hcore hcurrent) hcore with hline | ⟨t, hline⟩
    · exact h.keep htask hline rfl hprint rfl rfl h.handling
    · have hspaced := h.spaced
      have hanswered := h.answered
      have hhinting := h.hinting
      rw [hline, ← hprint] at hspaced
      rw [hline] at hanswered
      rw [← hprint] at hhinting
      exact ⟨htask, hspaced.tail, hanswered.tail, hhinting, h.handling⟩

theorem RoomInv.step {e : TaskEvent} (hapart : HintsApart c e) (hstep : taskStep c e = some c') :
    RoomInv c' := by
  cases taskStep_cases hstep with
  | @base e s hallows hbase =>
    have hfits : TaskFits c (.base e) := h.fits hallows hbase
    exact h.baseStep (h.task.step hfits hstep) hfits hallows hapart hbase
  | echoReturn =>
    have hfits : TaskFits c .echoReturn := trivial
    exact h.keep (h.task.step hfits hstep) rfl rfl rfl rfl rfl h.handling

end

end Steps

/-- Every push that can come next leaves the pending ring with at most
`SHELL_LOG_PEND_NUM - 1` entries. -/
def RoomLeft (c : TaskView) : Prop :=
  ∀ e c', taskStep c (.base e) = some c' → PendingFits c.system e

section Results

variable {c : TaskView}

/-- The blocks and the responses that there are cannot fill the pending ring. -/
theorem reached_roomLeft (h : Reached taskStep HintsApart TaskView.start c) : RoomLeft c := by
  have hinv : RoomInv c := by
    refine h.invariant RoomInv ?_ fun _ _ _ hinv hapart hstep => hinv.step hapart hstep
    refine ⟨taskInv_start, spaced_nil _ _ _ _, answered_of_notMem not_mem_nil, ?_, ?_⟩
    · exact fun hne => absurd rfl hne
    · exact fun hset => absurd hset (by decide)
  intro e c' hstep
  cases taskStep_cases hstep with
  | base hallows hbase => exact hinv.fits hallows hbase

theorem reached_roomLeft_hint : ∃ c, Reached taskStep HintsApart TaskView.start c ∧
      pendingTags c.system.shell = [faultHintTag, rspTag] ∧ RoomLeft c :=
  exists_reached_and (fun _ => reached_roomLeft)
    ((range 7).flatMap (fun b => [.base (.alloc 10), .base (.push (blockTag .buf3 b) 5)]) ++
      [.alloc 200, .hintTest, .hintPush, .rxInd, .rsp 8].map TaskEvent.base) (by decide)

end Results

section Crowd

variable {c : TaskView}

theorem taskStep_alloc (c : TaskView) : taskStep c (.base (.alloc 200)) = some
      { c with system := { c.system with
          shell := { c.system.shell with
            shellLogOverflow := CRuntime.addU32 c.system.shell.shellLogOverflow 1 }
          failed := c.system.failed + 1 } } := rfl

theorem taskStep_hintTest (hfailed : c.system.failed ≠ 0)
    (hprint : c.system.shell.faultHintPrint = false) : taskStep c (.base .hintTest) = some
      { c with system := { c.system with
          failed := c.system.failed - 1
          hinting := c.system.hinting + 1 } } := by
  have hbase : step c.system .hintTest = some
      { c.system with failed := c.system.failed - 1, hinting := c.system.hinting + 1 } := by
    rw [step, if_neg hfailed, if_neg (ne_true_of_eq_false hprint)]
  have hallows : c.allows .hintTest = true := rfl
  rw [taskStep, if_pos hallows, hbase]
  rfl

theorem taskStep_hintPush (hset : c.system.hinting ≠ 0) : taskStep c (.base .hintPush) = some
      { c with system := { c.system with
          shell := { pushPacket c.system.shell faultHintTag shellFaultStrLen with
            faultHintPrint := true }
          hinting := c.system.hinting - 1 } } := by
  have hallows : c.allows .hintPush = true := rfl
  rw [taskStep, if_pos hallows, step, if_neg hset]
  rfl

theorem reached_crowd (n : Nat) :
    ∃ c, Reached taskStep anyStep TaskView.start c ∧ c.system.hinting = n ∧
      c.system.failed = 0 ∧ c.system.shell.faultHintPrint = false := by
  induction n with
  | zero => exact ⟨TaskView.start, .start, rfl, rfl, rfl⟩
  | succ n ih =>
    obtain ⟨c, hreached, hhinting, hfailed, hprint⟩ := ih
    have hfound := (hreached.step _ trivial (taskStep_alloc c)).step _ trivial
      (taskStep_hintTest (Nat.succ_ne_zero c.system.failed) hprint)
    exact ⟨_, hfound, congrArg (· + 1) hhinting, hfailed, hprint⟩

theorem crowd_pushes (hall : ∀ c, Reached taskStep anyStep TaskView.start c → RoomLeft c)
    {n : Nat} (k : Nat) (hk : k ≤ n) : ∃ c, Reached taskStep anyStep TaskView.start c ∧ TaskInv c ∧
      c.system.hinting = n - k ∧ k ≤ (lineTags c.system.shell).length := by
  have hinv : ∀ c, Reached taskStep anyStep TaskView.start c →
      Reached taskStep TaskFits TaskView.start c := by
    intro c hreached
    induction hreached with
    | start => exact .start
    | @step c c' e hbefore _ hstep ih =>
      refine ih.step e ?_ hstep
      cases e with
      | base e => exact hall c hbefore e c' hstep
      | echoReturn => exact trivial
  induction k with
  | zero =>
    obtain ⟨c, hreached, hhinting, -, -⟩ := reached_crowd n
    exact ⟨c, hreached, taskInv_of_reached (hinv c hreached), hhinting, Nat.zero_le _⟩
  | succ k ih =>
    obtain ⟨c, hreached, htask, hhinting, hlen⟩ := ih (by omega)
    have hset : c.system.hinting ≠ 0 := by omega
    have hstep := taskStep_hintPush hset
    have hfits := hall c hreached .hintPush _ hstep
    obtain ⟨-, -, moved, hpush⟩ := htask.inv.sound.pushHint (hfits.room rfl)
      shellFaultStrLen .faultHint isLog_faultHintTag (by decide)
    have hnext := hreached.step _ trivial hstep
    refine ⟨_, hnext, taskInv_of_reached (hinv _ hnext), ?_, ?_⟩
    · change c.system.hinting - 1 = _
      omega
    · change _ ≤ (lineTags (pushPacket c.system.shell faultHintTag shellFaultStrLen)).length
      rw [Pushes.lineTags_eq hpush, length_append, length_singleton]
      omega

theorem crowd_not_roomLeft : ∃ c, Reached taskStep anyStep TaskView.start c ∧ ¬RoomLeft c := by
  by_contra hnone
  have hall : ∀ c, Reached taskStep anyStep TaskView.start c → RoomLeft c := by
    intro c hreached
    by_contra hroom
    exact hnone ⟨c, hreached, hroom⟩
  let full := shellLogPendNum + txQueueLen
  obtain ⟨c, hreached, htask, hhinting, hlen⟩ :=
    crowd_pushes hall (n := full + 1) full (Nat.le_succ full)
  obtain ⟨ids, ks, ds, hcore, -⟩ := htask.inv.sound
  have hpending := hcore.queues.pending_lt
  have hdevice := hcore.queues.device_lt
  rw [Core.lineTags_eq hcore, length_append, length_map, length_map] at hlen
  rw [nil_append] at hdevice
  change shellLogPendNum + txQueueLen ≤ _ at hlen
  omega

end Crowd

end BekenSoc.ShellLogRoom
