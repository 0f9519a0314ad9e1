import BekenSoc.GuardedRuns
import BekenSoc.SdCardStreams

namespace BekenSoc.SdCardTransfers

open CRuntime GuardedRuns SdCard SdCardStreams StreamingCard

variable {size : Nat} {β : Type*}

inductive Event (β : Type*)
  | read (firstBlock blockNum : Nat) (f : ReadFates β)
  | write (firstBlock : Nat) (writeBuff : List β) (f : WriteFates)
  /-- the stop request of `sdcard_ctrl` -/
  | ctrl (fate : CmdFate)

def step (s : Driver size β) : Event β → Option (Driver size β)
  | .read firstBlock blockNum f =>
    if firstBlock < 2 ^ 32 ∧ 1 ≤ blockNum ∧ blockNum < 2 ^ 32 then
      some (sdcardReadMultiBlock s firstBlock blockNum f).driver
    else none
  | .write firstBlock writeBuff f =>
    if firstBlock < 2 ^ 32 ∧ 1 ≤ writeBuff.length ∧ writeBuff.length < 2 ^ 32 then
      some (sdcardWriteMultiBlock s firstBlock writeBuff f).2
    else none
  | .ctrl fate => some (sdcardCtrl s fate)

def Addressable (s : Driver size β) (firstBlock : Nat) : Prop :=
  firstBlock * 2 ^ s.addrShiftBit < 2 ^ 32

def Served (s : Driver size β) : Event β → Prop
  | .read firstBlock blockNum _ =>
    blockNum * 512 < 2 ^ 32 ∧ (readOpFlag s firstBlock = .goOn ∨ Addressable s firstBlock)
  | .write firstBlock writeBuff f =>
    writeOpFlag s firstBlock = .goOn ∨ Addressable s firstBlock ∧
      (writeBuff.length = 1 → TakesSingle size firstBlock f.tries)
  | .ctrl _ => True

instance (s : Driver size β) (firstBlock : Nat) : Decidable (Addressable s firstBlock) :=
  inferInstanceAs (Decidable (_ < _))

instance (s : Driver size β) (e : Event β) : Decidable (Served s e) :=
  match e with
  | .read _ _ _ => inferInstanceAs (Decidable (_ < _ ∧ (_ = _ ∨ Addressable _ _)))
  | .write _ _ _ =>
    inferInstanceAs (Decidable (_ = _ ∨ Addressable _ _ ∧ (_ = _ → TakesSingle _ _ _)))
  | .ctrl _ => isTrue trivial

def ReadExact (s : Driver size β) (firstBlock blockNum : Nat) (r : ReadResult size β) : Prop :=
  r.ret = sdOk → firstBlock + blockNum ≤ size ∧
    r.buff = slice s.card.data firstBlock blockNum ∧ r.driver.card.data = s.card.data

def WriteExact (s : Driver size β) (firstBlock : Nat) (writeBuff : List β)
    (r : Nat × Driver size β) : Prop :=
  r.1 = sdOk → firstBlock + writeBuff.length ≤ size ∧
    r.2.card.data = place s.card.data firstBlock writeBuff

def Exact (s : Driver size β) : Event β → Prop
  | .read firstBlock blockNum f =>
    ReadExact s firstBlock blockNum (sdcardReadMultiBlock s firstBlock blockNum f)
  | .write firstBlock writeBuff f =>
    WriteExact s firstBlock writeBuff (sdcardWriteMultiBlock s firstBlock writeBuff f)
  | .ctrl _ => True

def streaming (block : Nat) : Direction → Mode
  | .rdData => .sending block
  | .wrData => .receiving block

structure InStep (s : Driver size β) : Prop where
  small : size ≤ 2 ^ 32
  streams : s.noNeedSendCmd12 = false → ∃ block, block ≤ size ∧
    s.lastWrAddr = block % 2 ^ 32 ∧ s.card.mode = streaming block s.wrFlag

variable {s s' : Driver size β} {e : Event β}

section Read

variable {firstBlock blockNum : Nat} {f : ReadFates β}

theorem startBlock_of_addressable (h : Addressable s firstBlock) :
    startBlock s firstBlock = firstBlock := by
  unfold startBlock blockArg
  rw [Nat.mod_eq_of_lt h, Nat.mul_div_cancel _ (Nat.two_pow_pos _)]

theorem readOpFlag_goOn (h : readOpFlag s firstBlock = .goOn) :
    s.noNeedSendCmd12 = false ∧ s.wrFlag = .rdData ∧ s.lastWrAddr = firstBlock := by
  grind [readOpFlag]

theorem readTransfer_ok (hs : InStep s) (hn : 1 ≤ blockNum)
    (hserved : Served s (.read firstBlock blockNum f))
    (h : (readTransfer s firstBlock blockNum f).ret = sdOk) :
    firstBlock + blockNum ≤ size ∧ readTransfer s firstBlock blockNum f =
      ⟨sdOk, slice s.card.data firstBlock blockNum,
        ⟨.sending (firstBlock + blockNum), s.card.data⟩⟩ := by
  obtain ⟨hfits, haddress⟩ := hserved
  unfold readTransfer at h ⊢
  dsimp only at h ⊢
  by_cases hop : readOpFlag s firstBlock = .goOn
  · rw [if_pos hop] at h ⊢
    obtain ⟨hsent, hdirection, hlast⟩ := readOpFlag_goOn hop
    obtain ⟨block, -, hnext, hmode⟩ := hs.streams hsent
    rw [hdirection] at hmode
    obtain ⟨block', hmode', hbound, hrcv⟩ := sdcardRcvData_ok hn hfits h
    obtain rfl : block = block' := Mode.sending.inj (hmode.symm.trans hmode')
    have hblock : firstBlock = block := by
      have hsmall := hs.small
      omega
    rw [hrcv, hblock]
    exact ⟨hbound, rfl⟩
  · rw [if_neg hop] at h ⊢
    have hstart := startBlock_of_addressable (haddress.resolve_left hop)
    have hread := readAfterCommands_ok hn hfits h
    rw [hstart] at hread
    exact hread

theorem read_exact (hs : InStep s) (hn : 1 ≤ blockNum)
    (hserved : Served s (.read firstBlock blockNum f)) : Exact s (.read firstBlock blockNum f) := by
  intro hret
  unfold sdcardReadMultiBlock at hret ⊢
  dsimp only at hret ⊢
  by_cases htransfer : (readTransfer s firstBlock blockNum f).ret = sdOk
  · obtain ⟨hbound, heq⟩ := readTransfer_ok hs hn hserved htransfer
    rw [if_pos htransfer, heq]
    exact ⟨hbound, rfl, rfl⟩
  · rw [if_neg htransfer] at hret
    exact absurd (Nat.add_eq_zero_iff.mp hret).1 htransfer

theorem InStep.read (hs : InStep s) (hn : 1 ≤ blockNum)
    (hserved : Served s (.read firstBlock blockNum f)) :
    InStep (sdcardReadMultiBlock s firstBlock blockNum f).driver := by
  refine ⟨hs.small, fun hsent => ?_⟩
  have htransfer : (readTransfer s firstBlock blockNum f).ret = sdOk := by
    simpa [sdcardReadMultiBlock] using hsent
  obtain ⟨hbound, heq⟩ := readTransfer_ok hs hn hserved htransfer
  refine ⟨firstBlock + blockNum, hbound, rfl, ?_⟩
  unfold sdcardReadMultiBlock
  dsimp only
  rw [if_pos htransfer, heq]
  rfl

end Read

section Write

variable {firstBlock : Nat} {writeBuff : List β} {f : WriteFates}

theorem writeOpFlag_goOn (h : writeOpFlag s firstBlock = .goOn) :
    s.noNeedSendCmd12 = false ∧ s.wrFlag = .wrData ∧ s.lastWrAddr = firstBlock := by
  grind [writeOpFlag]

theorem writeTransfer_ok (hs : InStep s) (hne : 1 ≤ writeBuff.length)
    (hserved : Served s (.write firstBlock writeBuff f))
    (h : (writeTransfer s firstBlock writeBuff f).1 = sdOk) :
    firstBlock + writeBuff.length ≤ size ∧ writeTransfer s firstBlock writeBuff f =
      (sdOk, ⟨.receiving (firstBlock + writeBuff.length),
        place s.card.data firstBlock writeBuff⟩) := by
  unfold writeTransfer at h ⊢
  dsimp only at h ⊢
  by_cases hop : writeOpFlag s firstBlock = .goOn
  · rw [if_pos hop] at h ⊢
    obtain ⟨hsent, hdirection, hlast⟩ := writeOpFlag_goOn hop
    obtain ⟨block, hsize, hnext, hmode⟩ := hs.streams hsent
    rw [hdirection] at hmode
    obtain ⟨hbound, heq⟩ := writeChecked_ok hmode hsize h
    have hblock : firstBlock = block := by
      have hsmall := hs.small
      omega
    rw [hblock]
    exact ⟨hbound, heq⟩
  · rw [if_neg hop] at h ⊢
    obtain ⟨haddress, hsingle⟩ := hserved.resolve_left hop
    have hstart := startBlock_of_addressable haddress
    cases writeBuff with
    | nil => cases hne
    | cons content =>
      have hwrite := writeAfterCommands_ok content (fun hnil => by
        rw [hstart]
        exact hsingle (by rw [hnil]; rfl)) h
      rw [hstart] at hwrite
      exact hwrite

theorem write_exact (hs : InStep s) (hne : 1 ≤ writeBuff.length)
    (hserved : Served s (.write firstBlock writeBuff f)) :
    Exact s (.write firstBlock writeBuff f) := by
  intro hret
  unfold sdcardWriteMultiBlock at hret ⊢
  dsimp only at hret ⊢
  by_cases htransfer : (writeTransfer s firstBlock writeBuff f).1 = sdOk
  · obtain ⟨hbound, heq⟩ := writeTransfer_ok hs hne hserved htransfer
    rw [if_pos htransfer, heq]
    exact ⟨hbound, rfl⟩
  · rw [if_neg htransfer] at hret
    exact absurd (Nat.add_eq_zero_iff.mp hret).1 htransfer

theorem InStep.write (hs : InStep s) (hne : 1 ≤ writeBuff.length)
    (hserved : Served s (.write firstBlock writeBuff f)) :
    InStep (sdcardWriteMultiBlock s firstBlock writeBuff f).2 := by
  refine ⟨hs.small, fun hsent => ?_⟩
  have htransfer : (writeTransfer s firstBlock writeBuff f).1 = sdOk := by
    simpa [sdcardWriteMultiBlock] using hsent
  obtain ⟨hbound, heq⟩ := writeTransfer_ok hs hne hserved htransfer
  refine ⟨firstBlock + writeBuff.length, hbound, rfl, ?_⟩
  unfold sdcardWriteMultiBlock
  dsimp only
  rw [if_pos htransfer, heq]
  rfl

end Write

theorem inStep_sdcardInitialize (hsize : size ≤ 2 ^ 32) (card : Card size β) (shift : Nat) :
    InStep (sdcardInitialize card shift) := ⟨hsize, nofun⟩

theorem InStep.ctrl (hs : InStep s) (fate : CmdFate) : InStep (sdcardCtrl s fate) := by
  unfold sdcardCtrl
  split
  · exact hs
  · exact ⟨hs.small, nofun⟩

theorem InStep.step (hs : InStep s) (hserved : Served s e)
    (hstep : SdCardTransfers.step s e = some s') : InStep s' := by
  cases e with
  | read =>
    obtain ⟨hcall, rfl⟩ := Option.ite_some_none_eq_some.mp hstep
    exact hs.read hcall.2.1 hserved
  | write =>
    obtain ⟨hcall, rfl⟩ := Option.ite_some_none_eq_some.mp hstep
    exact hs.write hcall.2.1 hserved
  | ctrl fate =>
    cases hstep
    exact hs.ctrl fate

/-- A transfer that returns `SD_OK` was made at the blocks it was asked for, after any transfers. -/
theorem transfers_exact {card : Card size β} {shift : Nat} (hsize : size ≤ 2 ^ 32)
    (h : Reached step Served (sdcardInitialize card shift) s) (hserved : Served s e)
    (hstep : step s e = some s') : Exact s e := by
  have hs : InStep s := h.invariant InStep (inStep_sdcardInitialize hsize card shift)
    fun _ _ _ hs hok hstep => hs.step hok hstep
  cases e with
  | read => exact read_exact hs (Option.ite_some_none_eq_some.mp hstep).1.2.1 hserved
  | write => exact write_exact hs (Option.ite_some_none_eq_some.mp hstep).1.2.1 hserved
  | ctrl => trivial

def cmdDone : CmdFate := ⟨true, .ok⟩

def cmdRefused : CmdFate := ⟨false, .ok⟩

def goodRead : ReadFates Nat := ⟨cmdDone, fun _ => cmdDone, cmdDone, fun _ => .good, cmdDone⟩

def writeFates (cmd25 : CmdFate) (block : TakeFate) : WriteFates :=
  ⟨cmdDone, fun _ => ⟨cmd25, fun _ => block⟩, fun _ => .taken, cmdDone⟩

def emptyCard : Card 8 Nat := ⟨.ready, fun _ => 0⟩

theorem transfers_exact_three :
    ∃ s : Driver 8 Nat, Reached step Served (sdcardInitialize emptyCard 0) s ∧
      s.card.data 2 = 7 ∧ Exact s (.read 0 3 goodRead) := by
  obtain ⟨s, hreached, hdata, hserved⟩ := exists_reached step Served (sdcardInitialize emptyCard 0)
    (fun s => s.card.data 2 = 7 ∧ Served s (.read 0 3 goodRead))
    [.write 0 [5, 6] (writeFates cmdDone .taken), .write 2 [7] (writeFates cmdDone .taken),
      .ctrl cmdDone]
    (by decide)
  have hstep : step s (.read 0 3 goodRead) = some (sdcardReadMultiBlock s 0 3 goodRead).driver := by
    rw [step, if_pos (by decide)]
  exact ⟨s, hreached, hdata, transfers_exact (by decide) hreached hserved hstep⟩

theorem transfers_inexact :
    ¬ Exact (sdcardInitialize emptyCard 0) (.write 0 [5] (writeFates cmdRefused .taken)) ∧
    ¬ Exact (sdcardInitialize emptyCard 0) (.write 0 [5] (writeFates cmdDone .rejected)) ∧
    ¬ Exact (sdcardInitialize emptyCard 9) (.read (2 ^ 23) 1 goodRead) ∧
    ¬ Exact (sdcardInitialize emptyCard 0) (.read 0 (2 ^ 23) goodRead) := by
  refine ⟨fun h => ?_, fun h => ?_, fun h => ?_, fun h => ?_⟩
  · exact absurd (congrFun (h (by decide)).2 0) (by decide)
  · exact absurd (congrFun (h (by decide)).2 0) (by decide)
  · exact absurd (h (by decide)).1 (by decide)
  · exact absurd (h (by decide)).1 (by decide)

end BekenSoc.SdCardTransfers
