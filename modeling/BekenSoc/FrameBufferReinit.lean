import BekenSoc.FrameBufferCustody

namespace BekenSoc.FrameBufferReinit

open GuardedRuns FrameBuffer FrameBufferLists FrameBufferRuns FrameBufferCustody List

def Apart (a b : Frame) : Prop := a.frame + a.size ≤ b.frame ∨ b.frame + b.size ≤ a.frame

instance (a b : Frame) : Decidable (Apart a b) :=
  inferInstanceAs (Decidable (a.frame + a.size ≤ b.frame ∨ b.frame + b.size ≤ a.frame))

/-- No two frames that are linked or held overlap, and a node that is neither was freed. -/
structure MemorySound (r : Run) : Prop where
  apart : ∀ f < r.store.used, ∀ g < r.store.used, f ≠ g → 0 < r.places f → 0 < r.places g →
    Apart (r.store.nodes f) (r.store.nodes g)
  found : ∀ f < r.store.used, 0 < r.places f ∨ f ∈ r.store.freed

def Survives (r : Run) (t : FrameType) (f : Nat) : Prop :=
  0 < r.places f ∧ f ∉ r.store.freeList t ∧ f ∉ r.store.readyList t

instance (r : Run) (t : FrameType) (f : Nat) : Decidable (Survives r t f) :=
  inferInstanceAs (Decidable (0 < r.places f ∧ f ∉ r.store.freeList t ∧ f ∉ r.store.readyList t))

def slotFrame (cfg : Config) (ppi : UInt32) (t : FrameType) (i : Nat) : Frame :=
  ⟨.invalid, t, 0, (chosenSlots cfg ppi t).slot i, (chosenSlots cfg ppi t).size⟩

/-- The lists of the type have at most one node each, and the slots of the new layout are
apart from every frame that is held or of the other type. -/
def ReinitSafe (cfg : Config) (r : Run) (ppi : UInt32) (t : FrameType) : Prop :=
  (r.store.freeList t).length ≤ 1 ∧ (r.store.readyList t).length ≤ 1 ∧
    ∀ f < r.store.used, Survives r t f → ∀ i < chosenCount cfg ppi t,
      Apart (r.store.nodes f) (slotFrame cfg ppi t i)

instance (cfg : Config) (r : Run) (ppi : UInt32) (t : FrameType) :
    Decidable (ReinitSafe cfg r ppi t) :=
  inferInstanceAs (Decidable (_ ∧ _ ∧ ∀ f < r.store.used, Survives r t f →
    ∀ i < chosenCount cfg ppi t, Apart (r.store.nodes f) (slotFrame cfg ppi t i)))

def InitSafe (cfg : Config) (r : Run) : Event → Prop
  | .setPpi ppi t => ReinitSafe cfg r ppi t
  | _ => True

instance (cfg : Config) (r : Run) : (e : Event) → Decidable (InitSafe cfg r e)
  | .setPpi .. => inferInstanceAs (Decidable (ReinitSafe ..))
  | .alloc .. | .act .. | .register .. | .deregister .. => isTrue trivial

theorem Apart.symm {a b : Frame} (h : Apart a b) : Apart b a := Or.symm h

theorem apart_slots (cfg : Config) (ppi : UInt32) (t : FrameType) {i j : Nat} (h : i < j) :
    Apart (slotFrame cfg ppi t i) (slotFrame cfg ppi t j) := by
  left
  change (chosenSlots cfg ppi t).base + i * (chosenSlots cfg ppi t).size +
    (chosenSlots cfg ppi t).size ≤ (chosenSlots cfg ppi t).base + j * (chosenSlots cfg ppi t).size
  rw [Nat.add_assoc, ← Nat.succ_mul]
  exact Nat.add_le_add_left (Nat.mul_le_mul_right _ h) _

section Reinit

variable {cfg : Config} {r : Run} {ppi : UInt32} {t : FrameType}

structure Reinit (cfg : Config) (r : Run) (ppi : UInt32) (t : FrameType) (r' : Run) : Prop where
  used : r'.store.used = r.store.used + chosenCount cfg ppi t
  nodes : ∀ f < r.store.used, r'.store.nodes f = r.store.nodes f
  places : ∀ f < r.store.used, 0 < r'.places f ↔ Survives r t f
  account : ∀ f < r.store.used, r'.places f + r'.store.freed.count f +
    ((r.store.freeList t).tail.count f + (r.store.readyList t).tail.count f) =
      r.places f + r.store.freed.count f
  new : ∀ i < chosenCount cfg ppi t, r'.places (r.store.used + i) = 1 ∧
    r'.store.nodes (r.store.used + i) = slotFrame cfg ppi t i

theorem setPpi_reinit (h : Custody r) (cfg : Config) (ppi : UInt32) (t : FrameType) :
    Custody { r with store := frameBufferSetPpi cfg r.store ppi t } ∧
      Reinit cfg r ppi t { r with store := frameBufferSetPpi cfg r.store ppi t } := by
  obtain ⟨r₁, r₂, hfree, hready, hcustody, hadded⟩ := setPpi_spec h cfg ppi t
  have hused : r₂.store.used = r.store.used := hready.used.trans hfree.used
  refine ⟨hcustody, ?_⟩
  constructor
  · rw [hadded.used, hused]
  · intro f hf
    rw [hadded.nodes f (hused ▸ hf), hready.nodes, hfree.nodes]
  · intro f hf
    have hplaces := hadded.places f (hused ▸ hf)
    have hplacesReady := hready.places_eq f
    have hplacesFree := hfree.places_eq f
    have honce := h.once f
    simp only [Survives, ← count_eq_zero]
    omega
  · intro f hf
    have hplaces := hadded.places f (hused ▸ hf)
    have haccountReady := hready.account f
    have haccountFree := hfree.account f
    rw [hadded.freed, hplaces]
    omega
  · intro i hi
    rw [← hused]
    exact hadded.new i hi

theorem length_le_one_iff (list : List Nat) : list.length ≤ 1 ↔ ∀ f, list.tail.count f = 0 := by
  cases list with
  | nil => simp
  | cons =>
    simp only [length_cons, tail_cons, count_eq_zero]
    rw [← eq_nil_iff_forall_not_mem, ← length_eq_zero_iff]
    omega

theorem found_iff_pos (r : Run) (f : Nat) :
    0 < r.places f ∨ f ∈ r.store.freed ↔ 0 < r.places f + r.store.freed.count f := by
  rw [← count_pos_iff]
  omega

theorem lt_used_of_tail (h : Custody r) {list : List Nat} {f : Nat}
    (hle : list.count f ≤ linked r.store f) (hpos : 0 < list.tail.count f) : f < r.store.used := by
  apply h.lt_used
  have hsub := (tail_sublist list).count_le f
  omega

theorem Reinit.found_iff {r' : Run} (h : Reinit cfg r ppi t r') (hr : Custody r)
    (hfound : ∀ f < r.store.used, 0 < r.places f ∨ f ∈ r.store.freed) :
    (∀ f < r'.store.used, 0 < r'.places f ∨ f ∈ r'.store.freed) ↔
      (r.store.freeList t).length ≤ 1 ∧ (r.store.readyList t).length ≤ 1 := by
  rw [length_le_one_iff, length_le_one_iff, ← forall_and]
  constructor
  · intro hfound' f
    rcases Nat.lt_or_ge f r.store.used with hf | hf
    · have haccount := h.account f hf
      have honce := hr.once f
      have hpos := (found_iff_pos r' f).mp (hfound' f (by rw [h.used]; omega))
      omega
    · constructor
      · by_contra hne
        have hlt := lt_used_of_tail hr (count_free_le_linked r.store t f) (Nat.pos_of_ne_zero hne)
        omega
      · by_contra hne
        have hlt := lt_used_of_tail hr (count_ready_le_linked r.store t f) (Nat.pos_of_ne_zero hne)
        omega
  · intro htails f hf
    rw [h.used] at hf
    rcases Nat.lt_or_ge f r.store.used with hlt | hge
    · have haccount := h.account f hlt
      have hzero := htails f
      rw [found_iff_pos]
      have hpos := (found_iff_pos r f).mp (hfound f hlt)
      omega
    · have hnew := (h.new (f - r.store.used) (by omega)).1
      rw [Nat.add_sub_cancel' hge] at hnew
      left
      omega

theorem Reinit.apart_iff {r' : Run} (h : Reinit cfg r ppi t r')
    (hapart : ∀ f < r.store.used, ∀ g < r.store.used, f ≠ g → 0 < r.places f →
      0 < r.places g → Apart (r.store.nodes f) (r.store.nodes g)) :
    (∀ f < r'.store.used, ∀ g < r'.store.used, f ≠ g → 0 < r'.places f → 0 < r'.places g →
        Apart (r'.store.nodes f) (r'.store.nodes g)) ↔
      ∀ f < r.store.used, Survives r t f → ∀ i < chosenCount cfg ppi t,
        Apart (r.store.nodes f) (slotFrame cfg ppi t i) := by
  constructor
  · intro hall f hf hsurvives i hi
    obtain ⟨hnew, hnode⟩ := h.new i hi
    rw [← hnode, ← h.nodes f hf]
    apply hall
    · rw [h.used]
      omega
    · rw [h.used]
      omega
    · omega
    · exact (h.places f hf).mpr hsurvives
    · omega
  · intro hslots
    -- an old frame and a new one
    have hmixed : ∀ f < r.store.used, ∀ i < chosenCount cfg ppi t, 0 < r'.places f →
        Apart (r'.store.nodes f) (r'.store.nodes (r.store.used + i)) := by
      intro f hf i hi hpos
      rw [(h.new i hi).2, h.nodes f hf]
      exact hslots f hf ((h.places f hf).mp hpos) i hi
    intro f hf g hg hne hposf hposg
    rw [h.used] at hf hg
    rcases Nat.lt_or_ge f r.store.used with hfold | hfnew
    · rcases Nat.lt_or_ge g r.store.used with hgold | hgnew
      · rw [h.nodes f hfold, h.nodes g hgold]
        exact hapart f hfold g hgold hne ((h.places f hfold).mp hposf).1
          ((h.places g hgold).mp hposg).1
      · obtain ⟨j, rfl⟩ := Nat.exists_eq_add_of_le hgnew
        exact hmixed f hfold j (by omega) hposf
    · obtain ⟨i, rfl⟩ := Nat.exists_eq_add_of_le hfnew
      rcases Nat.lt_or_ge g r.store.used with hgold | hgnew
      · exact (hmixed g hgold i (by omega) hposg).symm
      · obtain ⟨j, rfl⟩ := Nat.exists_eq_add_of_le hgnew
        rw [(h.new i (by omega)).2, (h.new j (by omega)).2]
        rcases Nat.lt_or_gt_of_ne hne with hlt | hgt
        · exact apart_slots cfg ppi t (by omega)
        · exact (apart_slots cfg ppi t (by omega)).symm

theorem memorySound_setPpi_iff (h : Custody r) (hsound : MemorySound r) :
    MemorySound { r with store := frameBufferSetPpi cfg r.store ppi t } ↔
      ReinitSafe cfg r ppi t := by
  have hreinit := (setPpi_reinit h cfg ppi t).2
  have hfound := hreinit.found_iff h hsound.found
  have hapart := hreinit.apart_iff hsound.apart
  constructor
  · intro hsound'
    obtain ⟨hfree, hready⟩ := hfound.mp hsound'.found
    exact ⟨hfree, hready, hapart.mp hsound'.apart⟩
  · rintro ⟨hfree, hready, hslots⟩
    exact ⟨hapart.mpr hslots, hfound.mpr ⟨hfree, hready⟩⟩

end Reinit

theorem MemorySound.kept {r r' : Run} (h : MemorySound r) (hkept : Kept r r') : MemorySound r' := by
  have hnodes : ∀ f g, Apart (r.store.nodes f) (r.store.nodes g) →
      Apart (r'.store.nodes f) (r'.store.nodes g) := by
    intro f g hapart
    simp only [Apart, hkept.frame, hkept.size]
    exact hapart
  constructor
  · intro f hf g hg hne hposf hposg
    rw [hkept.used] at hf hg
    rw [hkept.places] at hposf hposg
    exact hnodes f g (h.apart f hf g hg hne hposf hposg)
  · intro f hf
    rw [hkept.places, hkept.freed]
    exact h.found f (hkept.used ▸ hf)

structure ReinitInv (r : Run) : Prop where
  custody : Custody r
  sound : MemorySound r

theorem ReinitInv.step {cfg : Config} {r r' : Run} {e : Event} (h : ReinitInv r)
    (hok : InitSafe cfg r e) (hstep : step cfg r e = some r') : ReinitInv r' := by
  cases he : isSetPpi e with
  | false =>
    obtain ⟨hcustody, hkept⟩ := step_custody h.custody he hstep
    exact ⟨hcustody, h.sound.kept hkept⟩
  | true =>
    cases e with
    | setPpi ppi t =>
      cases hstep
      exact ⟨(setPpi_reinit h.custody cfg ppi t).1,
        (memorySound_setPpi_iff h.custody h.sound).mpr hok⟩
    | _ => cases he

/-- The frames stay apart and none is lost, whatever is initialised again under `ReinitSafe`. -/
theorem reached_memorySound (cfg : Config) {r : Run}
    (h : Reached (step cfg) (InitSafe cfg) Run.start r) : MemorySound r := by
  have hstart : ReinitInv Run.start := by
    refine ⟨AccountsInv.start.custody, ?_, ?_⟩
    · intro f hf
      exact absurd hf (Nat.not_lt_zero f)
    · intro f hf
      exact absurd hf (Nat.not_lt_zero f)
  exact (h.invariant ReinitInv hstart fun r e r' hinv hok hstep => hinv.step hok hstep).sound

theorem reached_memorySound_again : ∃ r, Reached (step { smallBoard with jpegEncFrameCount := 2 })
        (InitSafe { smallBoard with jpegEncFrameCount := 2 }) Run.start r ∧
      r.store.freed = [0, 1] ∧ MemorySound r :=
  exists_reached_and (fun _ => reached_memorySound _)
    [.setPpi ppi640X480 .jpeg, .alloc .jpeg, .act (.producer 0) .complete,
      .setPpi ppi640X480 .jpeg] (by decide)

theorem reinit_overlaps_and_loses : ∃ r, Reached (step smallBoard) anyStep Run.start r ∧
      (r.places 0 = 1 ∧ r.places 3 = 1 ∧ ¬ Apart (r.store.nodes 0) (r.store.nodes 3)) ∧
      (2 < r.store.used ∧ r.places 2 = 0 ∧ 2 ∉ r.store.freed) :=
  exists_reached _ _ _ _ [.setPpi ppi640X480 .jpeg, .alloc .jpeg, .setPpi ppi640X480 .jpeg]
    (by decide)

end BekenSoc.FrameBufferReinit
