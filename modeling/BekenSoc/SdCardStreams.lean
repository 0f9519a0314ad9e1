import BekenSoc.SdCard

namespace BekenSoc.SdCardStreams

open SdCard StreamingCard

variable {size : Nat} {β : Type*} {s : Driver size β} {c : Card size β}

theorem sdioWaitCmdResponse_eq_sdOk {r : Response} (h : sdioWaitCmdResponse r = sdOk) :
    r = .ok := by
  cases r with
  | ok => rfl
  | crcFail | timeout => cases h

theorem sdError_ne_sdOk : sdError ≠ sdOk := nofun

section Receive

variable {fate : Nat → SendFate β} {ret n : Nat} {buff : List β} {block : Nat}

theorem rcvLoop_ret_ne (hret : ret ≠ sdOk) : (rcvLoop n c fate ret buff).ret ≠ sdOk := by
  induction n generalizing c fate ret buff with
  | zero => exact hret
  | succ n ih =>
    rw [rcvLoop]
    split
    · exact nofun
    · apply ih
      split
      · exact hret
      · exact nofun

theorem rcvLoop_succ (h : (rcvLoop (n + 1) c fate ret buff).ret = sdOk) :
    ∃ block, c.mode = .sending block ∧ block < size ∧ rcvLoop (n + 1) c fate ret buff =
        rcvLoop n { c with mode := .sending (block + 1) } (fun k => fate (k + 1)) ret
          (buff ++ [c.data block]) := by
  rcases c.send_cases (fate 0) with hnone | ⟨block, hmode, hblock, hgood | ⟨received, hbad⟩⟩
  · rw [rcvLoop, hnone] at h
    cases h
  · exact ⟨block, hmode, hblock, by rw [rcvLoop, hgood]; rfl⟩
  · rw [rcvLoop, hbad] at h
    exact absurd h (rcvLoop_ret_ne nofun)

theorem rcvLoop_ok (hmode : c.mode = .sending block) (hblock : block ≤ size)
    (h : (rcvLoop n c fate ret buff).ret = sdOk) : block + n ≤ size ∧ rcvLoop n c fate ret buff =
      ⟨sdOk, buff ++ slice c.data block n, { c with mode := .sending (block + n) }⟩ := by
  induction n generalizing c fate ret buff block with
  | zero =>
    obtain ⟨mode, data⟩ := c
    cases hmode
    cases h
    exact ⟨hblock, by simp [rcvLoop, slice, sdOk]⟩
  | succ n ih =>
    obtain ⟨block', hmode', hlt, heq⟩ := rcvLoop_succ h
    obtain rfl : block = block' := by
      rw [hmode] at hmode'
      exact Mode.sending.inj hmode'
    rw [heq] at h ⊢
    obtain ⟨hbound, hloop⟩ := ih (c := { c with mode := .sending (block + 1) }) rfl hlt h
    rw [hloop, slice_succ, List.append_assoc, Nat.add_assoc, Nat.add_comm 1 n]
    exact ⟨by omega, rfl⟩

theorem rcvCount_of_lt (hn : 1 ≤ n) (hfits : n * 512 < 2 ^ 32) : rcvCount n = n := by
  unfold rcvCount
  omega

theorem sdcardRcvData_ok (hn : 1 ≤ n) (hfits : n * 512 < 2 ^ 32)
    (h : (sdcardRcvData c n fate).ret = sdOk) :
    ∃ block, c.mode = .sending block ∧ block + n ≤ size ∧ sdcardRcvData c n fate =
      ⟨sdOk, slice c.data block n, { c with mode := .sending (block + n) }⟩ := by
  unfold sdcardRcvData at h ⊢
  rw [rcvCount_of_lt hn hfits] at h ⊢
  obtain ⟨m, rfl⟩ := Nat.exists_eq_add_of_le' hn
  obtain ⟨block, hmode, hlt, -⟩ := rcvLoop_succ h
  obtain ⟨hbound, hloop⟩ := rcvLoop_ok hmode (Nat.le_of_lt hlt) h
  exact ⟨block, hmode, hbound, hloop⟩

end Receive

section Read

variable {firstBlock blockNum : Nat} {f : ReadFates β} {op : OpFlag}

theorem sendStop_data (c : Card size β) (fate : CmdFate) (op : OpFlag) :
    (sendStop c fate op).2.data = c.data := by
  have hstop : (c.stop fate).2.data = c.data := c.command_data _ _ _
  cases op with
  | writeStop | readStop => exact hstop
  | goOn | stopSent => rfl

theorem startReceive_ok (hn : 1 ≤ blockNum) (hfits : blockNum * 512 < 2 ^ 32)
    (h : (startReceive s c firstBlock blockNum f).ret = sdOk) :
    startBlock s firstBlock + blockNum ≤ size ∧ startReceive s c firstBlock blockNum f =
        ⟨sdOk, slice c.data (startBlock s firstBlock) blockNum,
          { c with mode := .sending (startBlock s firstBlock + blockNum) }⟩ := by
  unfold startReceive at h ⊢
  dsimp only at h ⊢
  split at h
  · rename_i hresponse
    rw [if_pos hresponse]
    obtain ⟨hready, -, hcard⟩ := Card.command_ok (sdioWaitCmdResponse_eq_sdOk hresponse)
    obtain ⟨block, hmode, hbound, hrcv⟩ := sdcardRcvData_ok hn hfits h
    rw [hrcv]
    change (c.startRead _ _).2 = _ at hcard
    rw [hcard] at hmode ⊢
    split at hmode
    · rename_i hexecuted
      rw [if_pos hexecuted]
      cases hmode
      exact ⟨hbound, rfl⟩
    · rw [hmode] at hready
      cases hready
  · exact absurd h (by assumption)

theorem readAfterCommands_ok (hn : 1 ≤ blockNum) (hfits : blockNum * 512 < 2 ^ 32)
    (h : (readAfterCommands s op firstBlock blockNum f).ret = sdOk) :
    startBlock s firstBlock + blockNum ≤ size ∧ readAfterCommands s op firstBlock blockNum f =
        ⟨sdOk, slice s.card.data (startBlock s firstBlock) blockNum,
          ⟨.sending (startBlock s firstBlock + blockNum), s.card.data⟩⟩ := by
  unfold readAfterCommands at h ⊢
  dsimp only at h ⊢
  split at h
  · rename_i hbusy
    rw [if_pos hbusy]
    obtain ⟨hret, hreceive⟩ := Nat.add_eq_zero_iff.mp h
    obtain ⟨hbound, heq⟩ := startReceive_ok hn hfits hreceive
    rw [heq, hret, sendStop_data]
    exact ⟨hbound, rfl⟩
  · rename_i hbusy
    exact absurd (Nat.add_eq_zero_iff.mp h).2 hbusy

end Read

section Write

def Takes (t : TryFates) : Prop :=
  t.cmd25.response = .ok → t.cmd25.executed = true ∧ t.blocks 0 = .taken

def TakesSingle (size firstBlock : Nat) (tries : Nat → TryFates) : Prop :=
  firstBlock < size ∧ ∀ k < 16, Takes (tries k)

instance (t : TryFates) : Decidable (Takes t) :=
  inferInstanceAs (Decidable (t.cmd25.response = .ok →
    t.cmd25.executed = true ∧ t.blocks 0 = .taken))

instance (size firstBlock : Nat) (tries : Nat → TryFates) :
    Decidable (TakesSingle size firstBlock tries) :=
  inferInstanceAs (Decidable (firstBlock < size ∧ ∀ k < 16, Takes (tries k)))

variable {firstBlock block n ret2 : Nat} {writeBuff : List β} {fate : Nat → TakeFate}
  {f : WriteFates} {op : OpFlag}

/-- The blocks are on the card, which takes the next one after them. -/
def Written (c : Card size β) (block : Nat) (blocks : List β) (r : Nat × Card size β) : Prop :=
  block + blocks.length ≤ size ∧
    r = (sdOk, ⟨.receiving (block + blocks.length), place c.data block blocks⟩)

theorem writeChecked_ok (hmode : c.mode = .receiving block) (hblock : block ≤ size)
    (h : (writeChecked c writeBuff fate).1 = sdOk) :
    Written c block writeBuff (writeChecked c writeBuff fate) := by
  induction writeBuff generalizing c fate block with
  | nil =>
    obtain ⟨mode, data⟩ := c
    cases hmode
    exact ⟨hblock, by rw [writeChecked, place_nil]; rfl⟩
  | cons content contents ih =>
    rw [writeChecked] at h ⊢
    rcases c.take_cases content (fate 0) with
      ⟨block', hmode', hlt, -, htake⟩ | ⟨_, -, -, htake⟩ | ⟨-, htake⟩
    · obtain rfl : block = block' := Mode.receiving.inj (hmode.symm.trans hmode')
      rw [htake] at h ⊢
      have hnext : block + 1 ≤ size := hlt
      obtain ⟨hbound, heq⟩ := ih rfl hnext h
      rw [Written, place_cons, List.length_cons, Nat.add_comm contents.length, ← Nat.add_assoc]
      exact ⟨hbound, heq⟩
    · rw [htake] at h
      cases h
    · rw [htake] at h
      cases h

theorem take_of_not_receiving (hmode : ∀ block, c.mode ≠ .receiving block) (content : β)
    (fate : TakeFate) : c.take content fate = (false, c) := by
  rcases c.take_cases content fate with
    ⟨block, hreceiving, -⟩ | ⟨block, hreceiving, -⟩ | ⟨-, htake⟩
  · exact absurd hreceiving (hmode block)
  · exact absurd hreceiving (hmode block)
  · exact htake

theorem writeChecked_cons_of_not_receiving (hmode : ∀ block, c.mode ≠ .receiving block)
    (content : β) (contents : List β) (fate : Nat → TakeFate) :
    writeChecked c (content :: contents) fate = (sdError, c) := by
  rw [writeChecked, take_of_not_receiving hmode]

theorem writeChecked_not_ready (hmode : c.mode ≠ .ready) :
    (writeChecked c writeBuff fate).2.mode ≠ .ready := by
  induction writeBuff generalizing c fate with
  | nil => exact hmode
  | cons content contents ih =>
    rw [writeChecked]
    rcases c.take_cases content (fate 0) with
      ⟨block, -, -, -, htake⟩ | ⟨block, -, -, htake⟩ | ⟨-, htake⟩
    · rw [htake]
      exact ih nofun
    · rw [htake]
      exact nofun
    · rw [htake]
      exact hmode

theorem sdcardWriteData_of_receiving (hmode : c.mode = .receiving block) (content : β)
    (contents : List β) (hsingle : contents = [] → block < size ∧ fate 0 = .taken) :
    Written c block (content :: contents) (sdcardWriteData c true (content :: contents) fate) ∨
    (sdcardWriteData c true (content :: contents) fate).1 ≠ sdOk ∧
      (sdcardWriteData c true (content :: contents) fate).2.mode ≠ .ready := by
  unfold sdcardWriteData
  dsimp only
  rcases c.take_cases content (fate 0) with
    ⟨block', hmode', hlt, -, htake⟩ | ⟨block', hmode', hreason, htake⟩ | ⟨hnot, -⟩
  · obtain rfl : block = block' := Mode.receiving.inj (hmode.symm.trans hmode')
    rw [htake]
    have hnext : block + 1 ≤ size := hlt
    let c' : Card size β := ⟨.receiving (block + 1), Function.update c.data block content⟩
    by_cases hok : (writeChecked c' contents fun k => fate (k + 1)).1 = sdOk
    · left
      rw [Written, place_cons, List.length_cons, Nat.add_comm contents.length, ← Nat.add_assoc]
      exact writeChecked_ok rfl hnext hok
    · exact .inr ⟨hok, writeChecked_not_ready nofun⟩
  · right
    rw [htake]
    cases contents with
    | nil =>
      -- the only block was not checked, but it was taken
      obtain rfl : block = block' := Mode.receiving.inj (hmode.symm.trans hmode')
      obtain ⟨hlt, htaken⟩ := hsingle rfl
      rcases hreason with hbeyond | hrejected
      · omega
      · rw [htaken] at hrejected
        cases hrejected
    | cons =>
      have hignores : ∀ b, (⟨.ignoring, c.data⟩ : Card size β).mode ≠ .receiving b :=
        fun _ => nofun
      rw [writeChecked_cons_of_not_receiving hignores]
      exact ⟨sdError_ne_sdOk, nofun⟩
  · exact absurd hmode (hnot block)

theorem sdcardWriteData_of_ready (hmode : c.mode = .ready) (content : β) {contents : List β}
    (hmore : contents ≠ []) : sdcardWriteData c true (content :: contents) fate = (sdError, c) := by
  have hnot : ∀ block, c.mode ≠ .receiving block := fun block h => by
    rw [hmode] at h
    cases h
  unfold sdcardWriteData
  dsimp only
  rw [take_of_not_receiving hnot]
  cases contents with
  | nil => exact absurd rfl hmore
  | cons => exact writeChecked_cons_of_not_receiving hnot _ _ _

theorem writeTry_cases {t : TryFates} (content : β) {contents : List β}
    (hsingle : contents = [] → block < size ∧ Takes t)
    (hresponse : (c.startWrite block t.cmd25).1 = .ok) {r : Nat × Card size β}
    (hr : sdcardWriteData (c.startWrite block t.cmd25).2 true (content :: contents) t.blocks = r) :
    Written c block (content :: contents) r ∨ r.1 ≠ sdOk ∧ (r.2 = c ∨ r.2.mode ≠ .ready) := by
  obtain ⟨hlegal, hok, hcard⟩ := Card.command_ok hresponse
  change (c.startWrite _ _).2 = _ at hcard
  rw [hcard] at hr
  subst hr
  cases hexecuted : t.cmd25.executed with
  | true =>
    rw [if_pos rfl]
    rcases sdcardWriteData_of_receiving (c := { c with mode := .receiving block }) rfl content
      contents (fun hnil => ⟨(hsingle hnil).1, ((hsingle hnil).2 hok).2⟩) with hdone | hfailed
    · exact .inl hdone
    · exact .inr ⟨hfailed.1, .inr hfailed.2⟩
  | false =>
    have hmore : contents ≠ [] := fun hnil => by
      rw [((hsingle hnil).2 hok).1] at hexecuted
      cases hexecuted
    rw [if_neg Bool.false_ne_true, sdcardWriteData_of_ready (beq_iff_eq.mp hlegal) content hmore]
    exact .inr ⟨sdError_ne_sdOk, .inl rfl⟩

theorem writeRetry_ok (content : β) {contents : List β} {tries : Nat → TryFates}
    (hsingle : contents = [] → block < size ∧ ∀ k < n, Takes (tries k))
    (hret2 : n = 0 → ret2 ≠ sdOk)
    (h : (writeRetry block (content :: contents) n c tries ret2).1 = sdOk) :
    c.mode = .ready ∧ Written c block (content :: contents)
      (writeRetry block (content :: contents) n c tries ret2) := by
  induction n generalizing c tries ret2 with
  | zero => exact absurd h (hret2 rfl)
  | succ n ih =>
    have hrest : ∀ c' ret2', c' = c ∨ c'.mode ≠ .ready → ret2' ≠ sdOk →
        (writeRetry block (content :: contents) n c' (fun k => tries (k + 1)) ret2').1 = sdOk →
        c.mode = .ready ∧ Written c block (content :: contents)
          (writeRetry block (content :: contents) n c' (fun k => tries (k + 1)) ret2') := by
      intro c' ret2' hc' hret2' h'
      have hdone := ih (fun hnil => ⟨(hsingle hnil).1, fun k hk =>
        (hsingle hnil).2 (k + 1) (Nat.succ_lt_succ hk)⟩) (fun _ => hret2') h'
      rcases hc' with rfl | hmode
      · exact hdone
      · exact absurd hdone.1 hmode
    rw [writeRetry] at h ⊢
    dsimp only at h ⊢
    by_cases hresponse : sdioWaitCmdResponse (c.startWrite block (tries 0).cmd25).1 = sdOk
    · rw [if_pos hresponse] at h ⊢
      have hanswered := sdioWaitCmdResponse_eq_sdOk hresponse
      rcases writeTry_cases content
        (fun hnil => ⟨(hsingle hnil).1, (hsingle hnil).2 0 (Nat.succ_pos _)⟩) hanswered rfl with
        ⟨hbound, hdone⟩ | ⟨hfailed, hcard⟩
      · rw [hdone] at h ⊢
        exact ⟨beq_iff_eq.mp (Card.command_ok hanswered).1, hbound, rfl⟩
      · rw [if_neg hfailed] at h ⊢
        exact hrest _ _ hcard hfailed h
    · rw [if_neg hresponse] at h ⊢
      refine hrest _ _ ?_ hresponse h
      rcases c.command_cases (c.mode == .ready) (.receiving block) (tries 0).cmd25 with
        hsame | ⟨-, -, hstarted⟩
      · exact .inl hsame
      · right
        change (c.startWrite _ _).2 = _ at hstarted
        rw [hstarted]
        exact nofun

theorem writeAfterCommands_ok (content : β) {contents : List β}
    (hsingle : contents = [] → TakesSingle size (startBlock s firstBlock) f.tries)
    (h : (writeAfterCommands s op firstBlock (content :: contents) f).1 = sdOk) :
    Written s.card (startBlock s firstBlock) (content :: contents)
      (writeAfterCommands s op firstBlock (content :: contents) f) := by
  unfold writeAfterCommands at h ⊢
  dsimp only at h ⊢
  split at h
  · rename_i hstop
    rw [if_pos hstop]
    obtain ⟨-, hbound, heq⟩ := writeRetry_ok content hsingle nofun (Nat.add_eq_zero_iff.mp h).2
    rw [heq, hstop, Written, sendStop_data]
    exact ⟨hbound, rfl⟩
  · exact absurd h (by assumption)

end Write

end BekenSoc.SdCardStreams
