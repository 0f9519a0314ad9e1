import BekenSoc.FrameBufferRuns

namespace BekenSoc.FrameBufferCustody

open Function GuardedRuns PartyTally FrameBuffer FrameBufferLists FrameBufferRuns List

variable {next : List Party} {t : FrameType} {r r' : Run} {list : List Nat}

def room (f : Nat) (p : Party) : Nat := if p.frame? = some f then p.size else 0

structure Custody (r : Run) : Prop where
  lock : ∀ f, (r.store.nodes f).lock.toNat = r.holders f
  rooms : ∀ f, tally (room f) r.parties ≤ 4
  once : ∀ f, r.places f + r.store.freed.count f ≤ 1
  fresh : ∀ f, r.store.used ≤ f → r.places f + r.store.freed.count f = 0
  filed : ∀ f, Filed r.store f

structure Kept (r r' : Run) : Prop where
  used : r'.store.used = r.store.used
  freed : r'.store.freed = r.store.freed
  type : ∀ f, (r'.store.nodes f).type = (r.store.nodes f).type
  frame : ∀ f, (r'.store.nodes f).frame = (r.store.nodes f).frame
  size : ∀ f, (r'.store.nodes f).size = (r.store.nodes f).size
  places : ∀ f, r'.places f = r.places f

section Custody

variable {r r₁ r₂ : Run} {s' : Store} {f : Nat} {p : Party} {parties : List Party}

theorem Kept.refl (r : Run) : Kept r r :=
  ⟨rfl, rfl, fun _ => rfl, fun _ => rfl, fun _ => rfl, fun _ => rfl⟩

theorem Kept.trans (h : Kept r r₁) (h' : Kept r₁ r₂) : Kept r r₂ where
  used := h'.used.trans h.used
  freed := h'.freed.trans h.freed
  type f := (h'.type f).trans (h.type f)
  frame f := (h'.frame f).trans (h.frame f)
  size f := (h'.size f).trans (h.size f)
  places f := (h'.places f).trans (h.places f)

structure Passes (r r' : Run) : Prop where
  custody : Custody r'
  kept : Kept r r'

theorem Passes.trans (h : Passes r r₁) (h' : Passes r₁ r₂) : Passes r r₂ :=
  ⟨h'.custody, h.kept.trans h'.kept⟩

theorem Custody.touch (h : Custody r) (ht : Touches r.store s' f)
    (hholders : ∀ g, g ≠ f → tally (holding g) parties = r.holders g)
    (hrooms : ∀ g, g ≠ f → tally (room g) parties =
      tally (room g) r.parties)
    (hlock : (s'.nodes f).lock.toNat = tally (holding f) parties)
    (hroom : tally (room f) parties ≤ 4)
    (hplaces : linked s' f + min 1 (tally (holding f) parties) = r.places f) (hfiled : Filed s' f) :
    Passes r ⟨s', parties⟩ := by
  have hsame : ∀ g, (⟨s', parties⟩ : Run).places g = r.places g := by
    intro g
    rcases eq_or_ne g f with rfl | hg
    · exact hplaces
    · simp only [Run.places, Run.holders, ht.linked_eq hg, hholders g hg]
  constructor
  · constructor
    · intro g
      rcases eq_or_ne g f with rfl | hg
      · exact hlock
      · rw [ht.nodes g hg, h.lock g]
        exact (hholders g hg).symm
    · intro g
      rcases eq_or_ne g f with rfl | hg
      · exact hroom
      · rw [hrooms g hg]
        exact h.rooms g
    · intro g
      rw [hsame g, ht.freed]
      exact h.once g
    · intro g hg
      rw [hsame g, ht.freed]
      exact h.fresh g (ht.used ▸ hg)
    · intro g
      rcases eq_or_ne g f with rfl | hg
      · exact hfiled
      · exact ht.filed hg (h.filed g)
  · constructor
    · exact ht.used
    · exact ht.freed
    · intro g
      rcases eq_or_ne g f with rfl | hg
      · exact ht.type
      · rw [ht.nodes g hg]
    · intro g
      rcases eq_or_ne g f with rfl | hg
      · exact ht.frame
      · rw [ht.nodes g hg]
    · intro g
      rcases eq_or_ne g f with rfl | hg
      · exact ht.size
      · rw [ht.nodes g hg]
    · exact hsame

theorem holding_self (hf : p.frame? = some f) : holding f p = 1 := if_pos hf

theorem room_self (hf : p.frame? = some f) : room f p = p.size := if_pos hf

theorem holding_le_room (f : Nat) (p : Party) : holding f p ≤ room f p := by
  rw [holding, room]
  split
  · cases p <;> simp [Party.size]
  · exact Nat.le_refl 0

theorem weights_other {g : Nat} (h : p.frame? ≠ some g) :
    holding g p = 0 ∧ room g p = 0 := ⟨if_neg h, if_neg h⟩

theorem room_eq_zero (h : tally (holding f) parties = 0) :
    tally (room f) parties = 0 := by
  rw [tally_eq_zero] at h ⊢
  intro p hp
  apply if_neg
  intro hf
  have hone := holding_self hf
  rw [h p hp] at hone
  cases hone

theorem Custody.takes (h : Custody r) (ht : Takes r.store s' f) (hf : p.frame? = some f)
    (hsize : p.size ≤ 4) : Passes r ⟨s', p :: r.parties⟩ := by
  have honce := h.once f
  have hlinked := ht.linked
  rw [Run.places] at honce
  have hnone : r.holders f = 0 := by omega
  apply h.touch ht.toTouches
  · intro g hg
    rw [tally_cons, (weights_other (by simpa [hf] using hg.symm)).1, Nat.zero_add, Run.holders]
  · intro g hg
    rw [tally_cons, (weights_other (by simpa [hf] using hg.symm)).2, Nat.zero_add]
  · have hlock := h.lock f
    rw [ht.lock, toNat_add_one (by omega), tally_cons, holding_self hf]
    rw [Run.holders] at hnone
    omega
  · rw [tally_cons, room_self hf, room_eq_zero hnone]
    exact hsize
  · rw [tally_cons, holding_self hf, Run.places]
    omega
  · apply Filed.of_linked_eq_zero
    omega

theorem Custody.holders_pos (h : p ∈ r.parties) (hf : p.frame? = some f) : 1 ≤ r.holders f := by
  rw [← holding_self hf]
  exact le_tally h

theorem Custody.goes (h : Custody r) (ht : Touches r.store s' f) (hp : p ∈ r.parties)
    (hf : p.frame? = some f) (hnext : ∀ q ∈ next, ∀ g, q.frame? = some g → g = f)
    (hlock : (s'.nodes f).lock.toNat + 1 = r.holders f + tally (holding f) next)
    (hroom : tally (room f) next ≤ p.size)
    (hplaces : linked s' f + min 1 (s'.nodes f).lock.toNat = 1) (hfiled : Filed s' f) :
    Passes r ⟨s', becomes r.parties p next⟩ := by
  have hholders : tally (holding f) (becomes r.parties p next) = (s'.nodes f).lock.toNat := by
    have hbecomes := tally_becomes (holding f) hp next
    rw [holding_self hf] at hbecomes
    rw [Run.holders] at hlock
    omega
  have hzero : ∀ g, g ≠ f → ∀ q ∈ next, holding g q = 0 ∧ room g q = 0 :=
    fun g hg q hq => weights_other fun heq => hg (hnext q hq g heq)
  have hself : ∀ g, g ≠ f → holding g p = 0 ∧ room g p = 0 :=
    fun g hg => weights_other (by simpa [hf] using hg.symm)
  apply h.touch ht
  · intro g hg
    have hbecomes := tally_becomes (holding g) hp next
    rw [(hself g hg).1, tally_eq_zero.mpr fun q hq => (hzero g hg q hq).1] at hbecomes
    exact hbecomes
  · intro g hg
    have hbecomes := tally_becomes (room g) hp next
    rw [(hself g hg).2, tally_eq_zero.mpr fun q hq => (hzero g hg q hq).2] at hbecomes
    exact hbecomes
  · exact hholders.symm
  · have hbecomes := tally_becomes (room f) hp next
    have hbefore := h.rooms f
    rw [room_self hf] at hbecomes
    omega
  · have honce := h.once f
    have hheld := Custody.holders_pos hp hf
    rw [Run.places] at honce ⊢
    omega
  · exact hfiled

section

variable (h : Custody r)
include h

theorem Custody.linked_eq_zero (hp : p ∈ r.parties) (hf : p.frame? = some f) :
    linked r.store f = 0 := by
  have honce := h.once f
  have hpos := Custody.holders_pos hp hf
  rw [Run.places] at honce
  omega

theorem Custody.holders_le (f : Nat) : r.holders f ≤ 4 :=
  Nat.le_trans (tally_le_tally (holding_le_room f) r.parties) (h.rooms f)

theorem Custody.producer_alone (hp : .producer f ∈ r.parties) : r.holders f = 1 := by
  have hroom := h.rooms f
  have hrest := tally_becomes (room f) hp []
  have hholders := tally_becomes (holding f) hp []
  have hle := tally_le_tally (holding_le_room f) (becomes r.parties (.producer f) [])
  rw [room_self rfl, Party.size, tally_nil] at hrest
  rw [holding_self rfl, tally_nil] at hholders
  rw [Run.holders]
  omega

theorem Custody.frees (hp : p ∈ r.parties) (hf : p.frame? = some f)
    (hnext : ∀ q ∈ next, q.frame? = none) :
    Passes r ⟨frameBufferFreeFrame r.store f, becomes r.parties p next⟩ := by
  have hlock := h.lock f
  have hpos := Custody.holders_pos hp hf
  have hunlinked := h.linked_eq_zero hp hf
  have hzero : ∀ q ∈ next, holding f q = 0 ∧ room f q = 0 :=
    fun q hq => weights_other (by simp [hnext q hq])
  have hheld : tally (holding f) next = 0 := tally_eq_zero.mpr fun q hq => (hzero q hq).1
  have hroom : tally (room f) next ≤ p.size := by
    rw [tally_eq_zero.mpr fun q hq => (hzero q hq).2]
    exact Nat.zero_le _
  have honly : ∀ q ∈ next, ∀ g, q.frame? = some g → g = f := by
    intro q hq g hg
    rw [hnext q hq] at hg
    cases hg
  rcases Nat.lt_or_ge 1 (r.holders f) with hmany | hone
  · -- somebody else still has the frame
    have heq := frameBufferFreeFrame_of_lt (hlock ▸ hmany)
    have hnew : ((frameBufferFreeFrame r.store f).nodes f).lock.toNat =
        (r.store.nodes f).lock.toNat - 1 := by
      rw [heq, ← toNat_sub_one (by omega)]
      simp [Store.setNode]
    have hlinked : linked (frameBufferFreeFrame r.store f) f = 0 := by
      rw [heq]
      exact hunlinked
    have ht : Touches r.store (frameBufferFreeFrame r.store f) f := by
      rw [heq]
      exact .setNode rfl rfl rfl
    apply h.goes ht hp hf honly
    · omega
    · exact hroom
    · omega
    · exact .of_linked_eq_zero hlinked
  · have hval : (r.store.nodes f).lock = 1 := by
      apply UInt8.toNat_inj.mp
      rw [hlock]
      exact Nat.le_antisymm hone hpos
    have hlinks := frameBufferFreeFrame_links hval
    have hnew : ((frameBufferFreeFrame r.store f).nodes f).lock.toNat = 0 := by
      rw [hlinks.lock, hval]
      rfl
    have hlinked := hlinks.linked
    apply h.goes hlinks.toTouches hp hf honly
    · omega
    · exact hroom
    · omega
    · exact hlinks.filed hunlinked

theorem Custody.pushes (hp : .producer f ∈ r.parties) :
    Passes r ⟨frameBufferPushFrame r.store f, becomes r.parties (.producer f) []⟩ := by
  have hlinks := frameBufferPushFrame_links r.store f
  have hone := h.producer_alone hp
  have hlock := h.lock f
  have hnew : ((frameBufferPushFrame r.store f).nodes f).lock.toNat = 0 := by
    rw [hlinks.lock, toNat_sub_one (by omega), hlock, hone]
  have hunlinked := h.linked_eq_zero hp rfl
  have hlinked := hlinks.linked
  apply h.goes hlinks.toTouches hp rfl (by simp)
  · rw [hnew, hone]
    rfl
  · simp
  · omega
  · exact hlinks.filed hunlinked

theorem Custody.passes {q : Party} (hp : p ∈ r.parties) (hf : p.frame? = some f)
    (hq : q.frame? = some f) (hsize : q.size ≤ p.size) :
    Passes r ⟨r.store, becomes r.parties p [q]⟩ := by
  have hlock := h.lock f
  have hpos := Custody.holders_pos hp hf
  have hunlinked := h.linked_eq_zero hp hf
  apply h.goes (.refl r.store f) hp hf
  · intro d hd g hg
    obtain rfl := mem_singleton.mp hd
    exact Option.some.inj (hg.symm.trans hq)
  · rw [hlock, tally_cons, holding_self hq, tally_nil]
  · rw [tally_cons, room_self hq]
    exact hsize
  · omega
  · exact h.filed f

theorem Custody.locks {q d : Party} (hp : p ∈ r.parties) (hf : p.frame? = some f)
    (hq : q.frame? = some f) (hd : d.frame? = some f) (hsize : q.size + d.size ≤ p.size) :
    Passes r ⟨frameBufferLockFrame r.store f, becomes r.parties p [q, d]⟩ := by
  have hlock := h.lock f
  have hle := h.holders_le f
  have hunlinked := h.linked_eq_zero hp hf
  have hlinked : linked (frameBufferLockFrame r.store f) f = 0 := hunlinked
  have hnew : ((frameBufferLockFrame r.store f).nodes f).lock.toNat = r.holders f + 1 := by
    rw [← hlock, ← toNat_add_one (by omega)]
    simp [frameBufferLockFrame, Store.setNode]
  have ht : Touches r.store (frameBufferLockFrame r.store f) f := .setNode rfl rfl rfl
  apply h.goes ht hp hf
  · intro x hx g hg
    rcases mem_pair.mp hx with rfl | rfl
    · exact Option.some.inj (hg.symm.trans hq)
    · exact Option.some.inj (hg.symm.trans hd)
  · rw [hnew, tally_cons, tally_cons, holding_self hq, holding_self hd, tally_nil]
  · rw [tally_cons, tally_cons, room_self hq, room_self hd]
    exact hsize
  · omega
  · exact .of_linked_eq_zero hlinked

theorem Custody.clears (hp : p ∈ r.parties) (hf : p.frame? = none)
    (info : FrameModule → ModuleInfo) :
    Passes r ⟨{ r.store with info := info }, becomes r.parties p []⟩ := by
  have hholders : ∀ g, tally (holding g) (becomes r.parties p []) = r.holders g := by
    intro g
    have hbecomes := tally_becomes (holding g) hp []
    rw [(weights_other (by simp [hf])).1] at hbecomes
    exact hbecomes
  have hrooms : ∀ g, tally (room g) (becomes r.parties p []) =
      tally (room g) r.parties := by
    intro g
    have hbecomes := tally_becomes (room g) hp []
    rw [(weights_other (by simp [hf])).2] at hbecomes
    exact hbecomes
  have ht : Touches r.store { r.store with info := info } 0 :=
    ⟨⟨fun _ _ => rfl, fun _ _ _ => rfl, fun _ _ _ => rfl⟩, rfl, rfl, rfl, rfl, rfl⟩
  apply h.touch ht (fun g _ => hholders g) (fun g _ => hrooms g)
  · rw [hholders]
    exact h.lock 0
  · rw [hrooms]
    exact h.rooms 0
  · rw [hholders]
    rfl
  · exact ⟨(h.filed 0).free, (h.filed 0).ready⟩

end

theorem frameBufferGenerateComplete_cases {s : Store} {g : Option Nat}
    (h : frameBufferGenerateComplete s f t = some (s', g)) :
    (g = none ∧ s' = frameBufferPushFrame s f) ∨
      ∃ d, g = some d ∧ frameBufferPopFrame (frameBufferPushFrame s f) t = some (s', d) := by
  simp only [frameBufferGenerateComplete] at h
  split at h
  · cases h
    exact .inl ⟨rfl, rfl⟩
  · obtain ⟨⟨s₁, d⟩, hpop, heq⟩ := Option.map_eq_some_iff.mp h
    cases heq
    exact .inr ⟨d, rfl, hpop⟩

theorem Custody.setInfo (h : Custody r) (m : FrameModule) (i : ModuleInfo) :
    Passes r { r with store := r.store.setInfo m i } :=
  ⟨⟨h.lock, h.rooms, h.once, h.fresh, fun f => ⟨(h.filed f).free, (h.filed f).ready⟩⟩,
    ⟨rfl, rfl, fun _ => rfl, fun _ => rfl, fun _ => rfl, fun _ => rfl⟩⟩

theorem size_notifying_le (cfg : Config) (f : Nat) (t : FrameType) :
    (Party.notifying f (notifiedModules cfg t)).size ≤ 4 := by
  cases t <;> simp only [notifiedModules] <;> split <;> simp [Party.size]

theorem notifyModule_eq (s : Store) (f : Nat) (m : FrameModule) :
    ∃ i, notifyModule s f m = (frameBufferLockFrame s f).setInfo m i := by
  cases m with
  | display =>
    refine ⟨s.info .display, ?_⟩
    change _ = { frameBufferLockFrame s f with
      info := update s.info .display (s.info .display) }
    rw [update_eq_self]
    rfl
  | decoder | wifi | recoder | capture => exact ⟨_, rfl⟩

theorem clearModuleLock_eq (s : Store) (m : FrameModule) :
    ∃ info, clearModuleLock s m = { s with info := info } := by
  cases m with
  | decoder | wifi => exact ⟨_, rfl⟩
  | recoder | capture => exact ⟨s.info, rfl⟩
  | display => exact ⟨_, rfl⟩

theorem act_custody {cfg : Config} {a : Action} (h : Custody r) (hp : p ∈ r.parties)
    (hact : Acts cfg r.store p a s' next) : Passes r ⟨s', becomes r.parties p next⟩ := by
  cases hact with
  | ready hgen =>
    obtain ⟨-, rfl⟩ | ⟨d, heq, -⟩ := frameBufferGenerateComplete_cases hgen
    · exact h.pushes hp
    · cases heq
  | complete hgen =>
    obtain ⟨heq, -⟩ | ⟨d, heq, hpop⟩ := frameBufferGenerateComplete_cases hgen
    · cases heq
    · cases heq
      have hpushed := h.pushes hp
      exact hpushed.trans (hpushed.custody.takes (frameBufferPopFrame_takes hpop) rfl
        (size_notifying_le cfg _ _))
  | free => exact h.frees hp rfl (by simp)
  | refused hf => exact h.passes hp hf hf (Nat.le_refl _)
  | requestProducer | requestConsumer => exact h.passes hp rfl rfl (by simp [Party.size])
  | notify hwants =>
    rename_i f m rest
    obtain ⟨i, heq⟩ := notifyModule_eq r.store f m
    have hlocked := h.locks (q := .consumer f m) (d := .notifying f rest) hp rfl
      rfl rfl (by simp [Party.size]; omega)
    rw [heq]
    exact hlocked.trans (hlocked.custody.setInfo m i)
  | skip => exact h.passes hp rfl rfl (by simp [Party.size])
  | notified => exact h.frees hp rfl (by simp)
  | freed => exact h.frees hp rfl (by simp [Party.frame?])
  | cleared m =>
    obtain ⟨info, heq⟩ := clearModuleLock_eq r.store m
    rw [heq]
    exact h.clears hp rfl info

end Custody

section Initialisation

variable {r : Run} {t : FrameType}

structure Dropped (r r' : Run) (list : List Nat) : Prop where
  nodes : r'.store.nodes = r.store.nodes
  used : r'.store.used = r.store.used
  parties : r'.parties = r.parties
  linked : ∀ f, linked r'.store f + list.count f = linked r.store f
  freed : r'.store.freed = list.take 1 ++ r.store.freed
  free : ∀ t, r'.store.freeList t ⊆ r.store.freeList t
  ready : ∀ t, r'.store.readyList t ⊆ r.store.readyList t

theorem Dropped.places_eq (h : Dropped r r' list) (f : Nat) :
    r'.places f + list.count f = r.places f := by
  have hlinked := h.linked f
  simp only [Run.places, Run.holders, h.parties]
  omega

theorem Dropped.account (h : Dropped r r' list) (f : Nat) :
    r'.places f + r'.store.freed.count f + list.tail.count f =
      r.places f + r.store.freed.count f := by
  have hplaces := h.places_eq f
  have hsplit : (list.take 1).count f + list.tail.count f = list.count f := by
    rw [← count_append, ← drop_one, take_append_drop]
  rw [h.freed, count_append]
  omega

theorem Dropped.custody (h : Dropped r r' list) (hr : Custody r) : Custody r' := by
  constructor
  · intro f
    rw [h.nodes, hr.lock, Run.holders, Run.holders, h.parties]
  · intro f
    rw [h.parties]
    exact hr.rooms f
  · intro f
    have haccount := h.account f
    have honce := hr.once f
    omega
  · intro f hf
    have haccount := h.account f
    have hfresh := hr.fresh f (h.used ▸ hf)
    omega
  · intro f
    constructor
    · intro u hmem
      rw [h.nodes]
      exact (hr.filed f).free u (h.free u hmem)
    · intro u hmem
      rw [h.nodes]
      exact (hr.filed f).ready u (h.ready u hmem)

theorem update_nil_subset (lists : FrameType → List Nat) (t u : FrameType) :
    update lists t [] u ⊆ lists u := by
  rcases eq_or_ne u t with rfl | hu
  · rw [update_self]
    exact nil_subset _
  · rw [update_of_ne hu]
    exact .refl _

theorem dropFreeList_eq (s : Store) (t : FrameType) : dropFreeList s t = { s with
      freed := (s.freeList t).take 1 ++ s.freed
      freeList := update s.freeList t [] } := by
  cases hlist : s.freeList t with
  | nil =>
    have hsame : update s.freeList t [] = s.freeList := by rw [← hlist, update_eq_self]
    simp [dropFreeList, hlist, hsame]
  | cons => simp [dropFreeList, hlist]

theorem dropReadyList_eq (s : Store) (t : FrameType) : dropReadyList s t = { s with
      freed := (s.readyList t).take 1 ++ s.freed
      readyList := update s.readyList t [] } := by
  cases hlist : s.readyList t with
  | nil =>
    have hsame : update s.readyList t [] = s.readyList := by rw [← hlist, update_eq_self]
    simp [dropReadyList, hlist, hsame]
  | cons => simp [dropReadyList, hlist]

theorem dropFreeList_dropped (r : Run) (t : FrameType) :
    Dropped r { r with store := dropFreeList r.store t } (r.store.freeList t) := by
  rw [dropFreeList_eq]
  exact ⟨rfl, rfl, rfl, linked_updateFree r.store t [], rfl,
    update_nil_subset _ t, fun _ => .refl _⟩

theorem dropReadyList_dropped (r : Run) (t : FrameType) :
    Dropped r { r with store := dropReadyList r.store t } (r.store.readyList t) := by
  rw [dropReadyList_eq]
  exact ⟨rfl, rfl, rfl, linked_updateReady r.store t [], rfl,
    fun _ => .refl _, update_nil_subset _ t⟩

structure Added (r r' : Run) (t : FrameType) (slots : SlotArray) (count : Nat) : Prop where
  used : r'.store.used = r.store.used + count
  freed : r'.store.freed = r.store.freed
  parties : r'.parties = r.parties
  nodes : ∀ f < r.store.used, r'.store.nodes f = r.store.nodes f
  places : ∀ f < r.store.used, r'.places f = r.places f
  new : ∀ i < count, r'.places (r.store.used + i) = 1 ∧
    r'.store.nodes (r.store.used + i) = ⟨.invalid, t, 0, slots.slot i, slots.size⟩

theorem addFrame_elsewhere (s : Store) (t : FrameType) (slots : SlotArray) (i : Nat) :
    SameElsewhere s (addFrame s t slots i) s.used where
  nodes _ hg := update_of_ne hg _ _
  free u _ hg := count_update (count_append_other _ hg).symm u
  ready _ _ _ := rfl

theorem addFrame_places (h : Custody r) (t : FrameType) (slots : SlotArray) (i : Nat) :
    (Run.mk (addFrame r.store t slots i) r.parties).places r.store.used = 1 := by
  have hfresh := h.fresh r.store.used (Nat.le_refl _)
  have hlinked : linked (addFrame r.store t slots i) r.store.used =
      linked r.store r.store.used + 1 := linked_linkFree _ _ _
  rw [Run.places] at hfresh ⊢
  change linked (addFrame r.store t slots i) r.store.used + min 1 (r.holders r.store.used) = 1
  omega

theorem addFrame_custody (h : Custody r) (t : FrameType) (slots : SlotArray) (i : Nat) :
    Custody { r with store := addFrame r.store t slots i } := by
  have hsame := addFrame_elsewhere r.store t slots i
  have hplaces := addFrame_places h t slots i
  have hfresh := h.fresh r.store.used (Nat.le_refl _)
  rw [Run.places] at hfresh
  have hother : ∀ g, g ≠ r.store.used →
      (Run.mk (addFrame r.store t slots i) r.parties).places g = r.places g := by
    intro g hg
    simp only [Run.places, Run.holders, hsame.linked_eq hg]
  have hnode : (addFrame r.store t slots i).nodes r.store.used =
      ⟨.invalid, t, 0, slots.slot i, slots.size⟩ := update_self ..
  constructor
  · intro g
    rcases eq_or_ne g r.store.used with rfl | hg
    · rw [hnode]
      change 0 = r.holders r.store.used
      omega
    · rw [hsame.nodes g hg]
      exact h.lock g
  · exact h.rooms
  · intro g
    rcases eq_or_ne g r.store.used with rfl | hg
    · rw [hplaces]
      change 1 + r.store.freed.count r.store.used ≤ 1
      omega
    · rw [hother g hg]
      exact h.once g
  · intro g hg
    have hlt : r.store.used < g := hg
    rw [hother g (Nat.ne_of_gt hlt)]
    exact h.fresh g (Nat.le_of_lt hlt)
  · intro g
    rcases eq_or_ne g r.store.used with rfl | hg
    · have hzero : linked r.store r.store.used = 0 := by omega
      constructor
      · intro u hmem
        rw [hnode]
        rcases eq_or_ne u t with rfl | hu
        · simp
        · exact absurd (mem_of_mem_update hu hmem) (not_mem_freeList hzero u)
      · intro u hmem
        exact absurd hmem (not_mem_readyList hzero u)
    · exact hsame.filed hg (h.filed g)

theorem addFrames_added (h : Custody r) (t : FrameType) (slots : SlotArray) (count : Nat) :
    Custody { r with store := addFrames r.store t slots count } ∧
      Added r { r with store := addFrames r.store t slots count } t slots count := by
  induction count with
  | zero => exact ⟨h, ⟨rfl, rfl, rfl, fun _ _ => rfl, fun _ _ => rfl, by simp⟩⟩
  | succ count ih =>
    obtain ⟨hcustody, hadded⟩ := ih
    have hsame := addFrame_elsewhere (addFrames r.store t slots count) t slots count
    have hused : (addFrames r.store t slots count).used = r.store.used + count := hadded.used
    have hplaces : ∀ g, g ≠ r.store.used + count →
        (Run.mk (addFrames r.store t slots (count + 1)) r.parties).places g =
          (Run.mk (addFrames r.store t slots count) r.parties).places g := by
      intro g hg
      rw [← hused] at hg
      simp only [Run.places, Run.holders, addFrames, hsame.linked_eq hg]
    refine ⟨addFrame_custody hcustody t slots count, ?_⟩
    constructor
    · change (addFrames r.store t slots count).used + 1 = _
      omega
    · exact hadded.freed
    · rfl
    · intro f hf
      rw [← hadded.nodes f hf]
      exact hsame.nodes f (by omega)
    · intro f hf
      rw [← hadded.places f hf]
      exact hplaces f (by omega)
    · intro i hi
      rcases Nat.lt_or_ge i count with hlt | hge
      · obtain ⟨hnew, hnode⟩ := hadded.new i hlt
        have hne : r.store.used + i ≠ r.store.used + count := by omega
        exact ⟨(hplaces _ hne).trans hnew, (hsame.nodes _ (hused ▸ hne)).trans hnode⟩
      · obtain rfl : i = count := by omega
        rw [← hused]
        exact ⟨addFrame_places hcustody t slots i, update_self ..⟩

def chosenSlots (cfg : Config) (ppi : UInt32) : FrameType → SlotArray
  | .jpeg => if fitsMinimalLayout ppi then cfg.psramMap.jpegEnc else cfg.psram720pMap.jpegEnc
  | .display => if fitsMinimalLayout ppi then cfg.psramMap.display else cfg.psram720pMap.display

def chosenCount (cfg : Config) (ppi : UInt32) : FrameType → Nat
  | .jpeg => cfg.jpegEncFrameCount
  | .display => if fitsMinimalLayout ppi then cfg.displayFrameCount else cfg.display720pFrameCount

theorem frameBufferSetPpi_eq (cfg : Config) (s : Store) (ppi : UInt32) (t : FrameType) :
    frameBufferSetPpi cfg s ppi t = frameInit { s with minimalLayout := fitsMinimalLayout ppi } t
        (chosenSlots cfg ppi t) (chosenCount cfg ppi t) := by
  cases t with
  | jpeg =>
    simp only [frameBufferSetPpi, frameBufferJpegFrameInit, chosenSlots, chosenCount]
    split <;> rfl
  | display =>
    simp only [frameBufferSetPpi, frameBufferDisplayFrameInit, chosenSlots, chosenCount]
    split <;> rfl

theorem setPpi_spec (h : Custody r) (cfg : Config) (ppi : UInt32) (t : FrameType) :
    ∃ r₁ r₂, Dropped r r₁ (r.store.freeList t) ∧ Dropped r₁ r₂ (r.store.readyList t) ∧
      Custody { r with store := frameBufferSetPpi cfg r.store ppi t } ∧
      Added r₂ { r with store := frameBufferSetPpi cfg r.store ppi t } t
        (chosenSlots cfg ppi t) (chosenCount cfg ppi t) := by
  let s := { r.store with minimalLayout := fitsMinimalLayout ppi }
  have hfree : Dropped r { r with store := dropFreeList s t } (r.store.freeList t) := by
    have hdrop := dropFreeList_dropped ⟨s, r.parties⟩ t
    exact { hdrop with }
  have hlist : (dropFreeList s t).readyList t = r.store.readyList t := by rw [dropFreeList_eq]
  have hready := dropReadyList_dropped ⟨dropFreeList s t, r.parties⟩ t
  have hcustody := hready.custody (hfree.custody h)
  obtain ⟨hnew, hadded⟩ := addFrames_added hcustody t (chosenSlots cfg ppi t)
    (chosenCount cfg ppi t)
  rw [frameBufferSetPpi_eq]
  refine ⟨_, _, hfree, ?_, hnew, hadded⟩
  rw [← hlist]
  exact hready

end Initialisation

section Steps

variable {cfg : Config} {r r' : Run} {e : Event}

theorem frameBufferAlloc_none {s s' : Store} (h : frameBufferAlloc s t = (s', none)) : s' = s := by
  unfold frameBufferAlloc at h
  split at h
  · cases h
  · split at h
    · cases h
    · cases h
      rfl

def isSetPpi : Event → Bool
  | .setPpi _ _ => true
  | _ => false

theorem step_custody (h : Custody r) (he : isSetPpi e = false)
    (hstep : step cfg r e = some r') : Passes r r' := by
  cases e with
  | alloc t =>
    cases hstep
    cases halloc : frameBufferAlloc r.store t with
    | mk s f =>
      cases f with
      | none =>
        obtain rfl := frameBufferAlloc_none halloc
        exact ⟨h, .refl r⟩
      | some => exact h.takes (frameBufferAlloc_takes halloc) rfl (Nat.le_refl 4)
  | act =>
    rw [step] at hstep
    split at hstep
    · rename_i hp
      obtain ⟨⟨s', next⟩, hact, rfl⟩ := Option.map_eq_some_iff.mp hstep
      exact act_custody h hp (act_cases hact)
    · cases hstep
  | register m =>
    cases hstep
    cases m <;> exact h.setInfo _ _
  | deregister =>
    cases hstep
    exact h.setInfo _ _
  | setPpi => cases he

end Steps

def FirstInit (r : Run) : Event → Prop
  | .setPpi _ t => ∀ f < r.store.used, (r.store.nodes f).type ≠ t
  | _ => True

instance (r : Run) : (e : Event) → Decidable (FirstInit r e)
  | .setPpi .. => inferInstanceAs (Decidable (∀ _ < _, _))
  | .alloc .. | .act .. | .register .. | .deregister .. => isTrue trivial

structure AccountsInv (r : Run) : Prop where
  custody : Custody r
  freed : r.store.freed = []
  places : ∀ f < r.store.used, r.places f = 1

theorem AccountsInv.start : AccountsInv Run.start where
  custody := ⟨fun _ => rfl, fun _ => Nat.zero_le 4, fun _ => Nat.zero_le 1, fun _ _ => rfl,
    fun _ => ⟨by simp [Run.start, Store.start], by simp [Run.start, Store.start]⟩⟩
  freed := rfl
  places f hf := absurd hf (Nat.not_lt_zero f)

theorem Custody.lt_used (h : Custody r) {f : Nat} (hf : 0 < linked r.store f) :
    f < r.store.used := by
  rcases Nat.lt_or_ge f r.store.used with hlt | hge
  · exact hlt
  · have hfresh := h.fresh f hge
    rw [Run.places] at hfresh
    omega

theorem lists_eq_nil (h : Custody r) (hfirst : ∀ f < r.store.used, (r.store.nodes f).type ≠ t) :
    r.store.freeList t = [] ∧ r.store.readyList t = [] := by
  constructor
  · apply eq_nil_iff_forall_not_mem.mpr
    intro f hmem
    have hpos := count_pos_iff.mpr hmem
    have hle := count_free_le_linked r.store t f
    exact hfirst f (h.lt_used (Nat.lt_of_lt_of_le hpos hle)) ((h.filed f).free t hmem).1
  · apply eq_nil_iff_forall_not_mem.mpr
    intro f hmem
    have hpos := count_pos_iff.mpr hmem
    have hle := count_ready_le_linked r.store t f
    exact hfirst f (h.lt_used (Nat.lt_of_lt_of_le hpos hle)) ((h.filed f).ready t hmem).1

theorem AccountsInv.step {cfg : Config} {e : Event} (h : AccountsInv r) (hok : FirstInit r e)
    (hstep : step cfg r e = some r') : AccountsInv r' := by
  cases he : isSetPpi e with
  | false =>
    obtain ⟨hcustody, hkept⟩ := step_custody h.custody he hstep
    refine ⟨hcustody, hkept.freed.trans h.freed, ?_⟩
    intro f hf
    rw [hkept.places f]
    exact h.places f (hkept.used ▸ hf)
  | true =>
    cases e with
    | setPpi ppi t =>
      cases hstep
      obtain ⟨r₁, r₂, hfree, hready, hcustody, hadded⟩ := setPpi_spec h.custody cfg ppi t
      obtain ⟨hnilFree, hnilReady⟩ := lists_eq_nil h.custody hok
      rw [hnilFree] at hfree
      rw [hnilReady] at hready
      have hused : r₂.store.used = r.store.used := hready.used.trans hfree.used
      have hplaces : ∀ f, r₂.places f = r.places f := fun f =>
        (hready.places_eq f).trans (hfree.places_eq f)
      refine ⟨hcustody, ?_, ?_⟩
      · rw [hadded.freed, hready.freed, hfree.freed, h.freed]
        rfl
      · intro f hf
        rcases Nat.lt_or_ge f r.store.used with hlt | hge
        · rw [hadded.places f (hused ▸ hlt), hplaces f]
          exact h.places f hlt
        · rw [hadded.used] at hf
          have hnew := (hadded.new (f - r.store.used) (by omega)).1
          rw [hused, Nat.add_sub_cancel' hge] at hnew
          exact hnew
    | _ => cases he

/-- No frame is lost or owned twice while each type is initialised once. -/
theorem reached_framesAccounted (cfg : Config) {r : Run}
    (h : Reached (step cfg) FirstInit Run.start r) : FramesAccounted r := by
  have hinv := h.invariant AccountsInv .start fun r e r' hinv hok hstep =>
    hinv.step hok hstep
  intro f hf
  refine ⟨hinv.places f hf, hinv.custody.lock f, ?_⟩
  rintro t (hmem | hmem)
  · exact ((hinv.custody.filed f).free t hmem).1
  · exact ((hinv.custody.filed f).ready t hmem).1

theorem reached_framesAccounted_shared : ∃ r, Reached (step smallBoard) FirstInit Run.start r ∧
      r.parties = [.consumer 0 .decoder, .consumer 0 .wifi] ∧ FramesAccounted r :=
  exists_reached_and (fun _ => reached_framesAccounted smallBoard)
    [.setPpi ppi640X480 .jpeg, .register .wifi (some 1), .register .decoder (some 2),
      .alloc .jpeg, .act (.producer 0) .complete,
      .act (.notifying 0 [.wifi, .decoder, .capture]) .go,
      .act (.notifying 0 [.decoder, .capture]) .go, .act (.notifying 0 [.capture]) .go,
      .act (.notifying 0 []) .go] (by decide)

end BekenSoc.FrameBufferCustody
