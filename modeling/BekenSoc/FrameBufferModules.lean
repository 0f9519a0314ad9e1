import BekenSoc.FrameBufferCustody

namespace BekenSoc.FrameBufferModules

open Function GuardedRuns PartyTally FrameBuffer FrameBufferLists FrameBufferRuns FrameBufferCustody

variable {m : FrameModule}

def jpegModules : List FrameModule := [.wifi, .decoder, .capture]

def heldBy (m : FrameModule) : Party → Nat
  | .consumer _ m' => if m' = m then 1 else 0
  | .freeing _ m' false => if m' = m then 1 else 0
  | _ => 0

def OneFrameEach (r : Run) : Prop := ∀ m ∈ jpegModules, tally (heldBy m) r.parties ≤ 1

def due (m : FrameModule) : Party → Nat
  | .consumer _ m' => if m' = m then 1 else 0
  | .freeing _ m' _ => if m' = m then 1 else 0
  | .clearing m' => if m' = m ∧ m ≠ .capture then 1 else 0
  | _ => 0

/-- No producer calls `frame_buffer_free_request` in the name of one of the modules. -/
def requestsOwn : Party → Action → Bool
  | .producer _, .request m => decide (m ∉ jpegModules)
  | _, _ => true

/-- A module is deregistered, and the capture module registered, while it has no frame and
no call that has still to clear its flag. -/
def FlagsKept (r : Run) : Event → Prop
  | .act p a => requestsOwn p a = true
  | .register m _ => m = .capture → tally (due m) r.parties = 0
  | .deregister m => m ∈ jpegModules → tally (due m) r.parties = 0
  | .alloc _ => True
  | .setPpi _ _ => True

instance (r : Run) : (e : Event) → Decidable (FlagsKept r e)
  | .act .. => inferInstanceAs (Decidable (_ = _))
  | .register .. | .deregister .. => inferInstanceAs (Decidable (_ → _))
  | .alloc .. | .setPpi .. => isTrue trivial

def FlagsCover (r : Run) : Prop :=
  ∀ m ∈ jpegModules, tally (due m) r.parties ≤ (r.store.info m).lock.toNat

section Info

variable {s s' : Store}

theorem frameBufferFreeFrame_info (s : Store) (f : Nat) :
    (frameBufferFreeFrame s f).info = s.info := by
  have hlocked : ∀ lock, (freeLocked s f lock).info = s.info := by
    intro lock
    rw [freeLocked]
    split <;> rfl
  rw [frameBufferFreeFrame]
  split
  · exact hlocked _
  · split
    · rfl
    · exact hlocked _

theorem frameBufferAlloc_info (s : Store) (t : FrameType) :
    (frameBufferAlloc s t).1.info = s.info := by
  unfold frameBufferAlloc
  split
  · rfl
  · split <;> rfl

theorem frameBufferGenerateComplete_info {f : Nat} {t : FrameType} {g : Option Nat}
    (h : frameBufferGenerateComplete s f t = some (s', g)) : s'.info = s.info := by
  obtain ⟨-, rfl⟩ | ⟨d, -, hpop⟩ := frameBufferGenerateComplete_cases h
  · rfl
  · obtain ⟨⟨f', rest⟩, -, heq⟩ := Option.map_eq_some_iff.mp hpop
    cases heq
    rfl

theorem addFrames_info (s : Store) (t : FrameType) (slots : SlotArray) (count : Nat) :
    (addFrames s t slots count).info = s.info := by
  induction count with
  | zero => rfl
  | succ count ih => exact ih

theorem frameBufferSetPpi_info (cfg : Config) (s : Store) (ppi : UInt32) (t : FrameType) :
    (frameBufferSetPpi cfg s ppi t).info = s.info := by
  rw [frameBufferSetPpi_eq, frameInit, addFrames_info, dropReadyList_eq, dropFreeList_eq]

end Info

section Flags

variable {cfg : Config} {r r' : Run} {p : Party} {next : List Party} {s' : Store}

section

variable (h : FlagsCover r)
include h

theorem FlagsCover.goes (hp : p ∈ r.parties) (hinfo : s'.info = r.store.info)
    (hdue : ∀ m ∈ jpegModules, tally (due m) next ≤ due m p) :
    FlagsCover ⟨s', becomes r.parties p next⟩ := by
  intro m hm
  have hbecomes := tally_becomes (due m) hp next
  have hle := hdue m hm
  have hold := h m hm
  change tally (due m) (becomes r.parties p next) ≤ (s'.info m).lock.toNat
  rw [hinfo]
  omega

theorem FlagsCover.sets {i : ModuleInfo} {parties : List Party}
    (hinfo : s'.info = update r.store.info m i)
    (hother : ∀ m' ∈ jpegModules, m' ≠ m → tally (due m') parties ≤ tally (due m') r.parties)
    (hself : m ∈ jpegModules → tally (due m) parties ≤ i.lock.toNat) :
    FlagsCover ⟨s', parties⟩ := by
  intro m' hm'
  change _ ≤ (s'.info m').lock.toNat
  rw [hinfo]
  rcases eq_or_ne m' m with rfl | hne
  · rw [update_self]
    exact hself hm'
  · rw [update_of_ne hne]
    exact Nat.le_trans (hother m' hm' hne) (h m' hm')

theorem due_eq_zero_of_wants (hm : m ∈ jpegModules) (hwants : wantsFrame r.store m = true) :
    tally (due m) r.parties = 0 := by
  have hcover := h m hm
  simp only [wantsFrame, Bool.and_eq_true, Bool.not_eq_true'] at hwants
  rw [hwants.1.2] at hcover
  exact Nat.le_zero.mp hcover

theorem FlagsCover.notify {f : Nat} {rest : List FrameModule}
    (hp : .notifying f (m :: rest) ∈ r.parties) (hwants : wantsFrame r.store m = true) :
    FlagsCover ⟨notifyModule r.store f m,
      becomes r.parties (.notifying f (m :: rest)) [.consumer f m, .notifying f rest]⟩ := by
  have hbecomes : ∀ m', tally (due m') (becomes r.parties (.notifying f (m :: rest))
      [.consumer f m, .notifying f rest]) =
        tally (due m') r.parties + if m = m' then 1 else 0 := fun m' =>
    tally_becomes (due m') hp [.consumer f m, .notifying f rest]
  rcases eq_or_ne m .display with rfl | hdisplay
  · intro m' hm'
    rw [hbecomes m', if_neg (by rintro rfl; simp [jpegModules] at hm')]
    exact h m' hm'
  · have hinfo : (notifyModule r.store f m).info =
        update r.store.info m { r.store.info m with lock := true } := by
      cases m <;> first | rfl | exact absurd rfl hdisplay
    apply h.sets hinfo
    · intro m' _ hne
      rw [hbecomes m', if_neg hne.symm]
      exact Nat.le_refl _
    · intro hm
      rw [hbecomes m, if_pos rfl, due_eq_zero_of_wants h hm hwants]
      exact Nat.le_refl 1

theorem FlagsCover.clearSet (hcapture : m ≠ .capture) (hp : .clearing m ∈ r.parties) :
    FlagsCover ⟨r.store.setInfo m { r.store.info m with lock := false },
      becomes r.parties (.clearing m) []⟩ := by
  have hbecomes := fun m' => tally_becomes (due m') hp []
  simp only [tally_nil] at hbecomes
  apply h.sets rfl
  · intro m' _ _
    have hm' := hbecomes m'
    omega
  · intro hm
    have hcover := h m hm
    have hself := hbecomes m
    have hone : due m (.clearing m) = 1 := if_pos ⟨rfl, hcapture⟩
    have hle := Bool.toNat_le (r.store.info m).lock
    change _ ≤ 0
    omega

theorem FlagsCover.clear (hp : .clearing m ∈ r.parties) :
    FlagsCover ⟨clearModuleLock r.store m, becomes r.parties (.clearing m) []⟩ := by
  have hkeeps : FlagsCover ⟨r.store, becomes r.parties (.clearing m) []⟩ :=
    h.goes hp rfl fun _ _ => Nat.zero_le _
  cases m with
  | wifi | decoder | display => exact h.clearSet (by simp) hp
  | recoder | capture => exact hkeeps

theorem FlagsCover.act {a : Action} (hp : p ∈ r.parties) (hok : requestsOwn p a = true)
    (hact : Acts cfg r.store p a s' next) : FlagsCover ⟨s', becomes r.parties p next⟩ := by
  cases hact with
  | ready hgen | complete hgen =>
    exact h.goes hp (frameBufferGenerateComplete_info hgen) fun _ _ => Nat.le_refl 0
  | free f => exact h.goes hp (frameBufferFreeFrame_info _ f) fun _ _ => Nat.le_refl 0
  | refused =>
    apply h.goes hp rfl
    intro m _
    rw [tally_cons, tally_nil]
    exact Nat.le_refl _
  | requestProducer f m =>
    apply h.goes hp rfl
    intro m' hm'
    have hne : m ≠ m' := by
      rintro rfl
      exact of_decide_eq_true hok hm'
    simp [due, hne]
  | requestConsumer => exact h.goes hp rfl fun _ _ => Nat.le_refl _
  | notify hwants => exact h.notify hp hwants
  | skip => exact h.goes hp rfl fun _ _ => Nat.le_refl 0
  | notified f => exact h.goes hp (frameBufferFreeFrame_info _ f) fun _ _ => Nat.le_refl 0
  | freed f =>
    apply h.goes hp (frameBufferFreeFrame_info _ f)
    intro m' _
    simp only [due, tally_cons, tally_nil]
    split <;> rename_i hclear
    · exact Nat.le_of_eq (if_pos hclear.1).symm
    · exact Nat.zero_le _
  | cleared => exact h.clear hp

theorem FlagsCover.step {e : Event} (hok : FlagsKept r e) (hstep : step cfg r e = some r') :
    FlagsCover r' := by
  cases e with
  | alloc t =>
    cases hstep
    intro m hm
    have hparties : tally (due m) ((frameBufferAlloc r.store t).2.toList.map Party.producer ++
        r.parties) = tally (due m) r.parties := by
      cases (frameBufferAlloc r.store t).2 <;> simp [due]
    rw [hparties, frameBufferAlloc_info]
    exact h m hm
  | act =>
    rw [FrameBufferRuns.step] at hstep
    split at hstep
    · rename_i hp
      obtain ⟨⟨s', next⟩, hact, rfl⟩ := Option.map_eq_some_iff.mp hstep
      exact h.act hp hok (act_cases hact)
    · cases hstep
  | register m =>
    cases hstep
    cases m with
    | wifi => exact h.sets rfl (fun _ _ _ => Nat.le_refl _) (h .wifi)
    | decoder => exact h.sets rfl (fun _ _ _ => Nat.le_refl _) (h .decoder)
    | recoder => exact h.sets rfl (fun _ _ _ => Nat.le_refl _) (h .recoder)
    | capture =>
      apply h.sets rfl (fun _ _ _ => Nat.le_refl _)
      exact fun _ => Nat.le_of_eq (hok rfl)
    | display =>
      apply h.sets rfl (fun _ _ _ => Nat.le_refl _)
      intro hm
      simp [jpegModules] at hm
  | deregister =>
    cases hstep
    exact h.sets rfl (fun _ _ _ => Nat.le_refl _) fun hm => Nat.le_of_eq (hok hm)
  | setPpi =>
    cases hstep
    intro m hm
    rw [frameBufferSetPpi_info]
    exact h m hm

end

end Flags

theorem heldBy_le_due (m : FrameModule) (p : Party) : heldBy m p ≤ due m p := by
  cases p with
  | freeing f m' producer =>
    cases producer with
    | false => exact Nat.le_refl _
    | true => exact Nat.zero_le _
  | consumer => exact Nat.le_refl _
  | producer | notifying => exact Nat.le_refl 0
  | clearing => exact Nat.zero_le _

/-- A module never has two frames at a time. -/
theorem reached_oneFrameEach (cfg : Config) {r : Run}
    (h : Reached (step cfg) FlagsKept Run.start r) : OneFrameEach r := by
  have hcover := h.invariant FlagsCover (fun _ _ => Nat.zero_le _)
    fun r e r' hinv hok hstep => hinv.step hok hstep
  intro m hm
  calc tally (heldBy m) r.parties
      ≤ tally (due m) r.parties := tally_le_tally (heldBy_le_due m) r.parties
    _ ≤ (r.store.info m).lock.toNat := hcover m hm
    _ ≤ 1 := Bool.toNat_le _

theorem reached_oneFrameEach_next : ∃ r, Reached (step smallBoard) FlagsKept Run.start r ∧
      Party.consumer 1 .wifi ∈ r.parties ∧ OneFrameEach r :=
  exists_reached_and (fun _ => reached_oneFrameEach smallBoard)
    [.setPpi ppi640X480 .jpeg, .register .wifi (some 1), .alloc .jpeg,
      .act (.producer 0) .complete, .act (.notifying 0 [.wifi, .decoder, .capture]) .go,
      .act (.consumer 0 .wifi) (.request .wifi), .act (.freeing 0 .wifi false) .go,
      .act (.clearing .wifi) .go, .deregister .wifi, .register .wifi (some 1), .alloc .jpeg,
      .act (.producer 1) .complete, .act (.notifying 1 [.wifi, .decoder, .capture]) .go]
    (by decide)

theorem registered_again_has_two : ∃ r, Reached (step smallBoard) anyStep Run.start r ∧
      tally (heldBy .wifi) r.parties = 2 ∧ ¬ OneFrameEach r := by
  obtain ⟨r, hr, hheld⟩ := exists_reached (step smallBoard) anyStep Run.start
    (fun r => tally (heldBy .wifi) r.parties = 2)
    [.setPpi ppi640X480 .jpeg, .register .wifi (some 1), .alloc .jpeg,
      .act (.producer 0) .complete, .act (.notifying 0 [.wifi, .decoder, .capture]) .go,
      .act (.notifying 0 [.decoder, .capture]) .go, .act (.notifying 0 [.capture]) .go,
      .act (.notifying 0 []) .go, .deregister .wifi, .register .wifi (some 1), .alloc .jpeg,
      .act (.producer 1) .complete, .act (.notifying 1 [.wifi, .decoder, .capture]) .go]
    (by decide)
  refine ⟨r, hr, hheld, ?_⟩
  intro hone
  have hle := hone .wifi (by simp [jpegModules])
  omega

end BekenSoc.FrameBufferModules
