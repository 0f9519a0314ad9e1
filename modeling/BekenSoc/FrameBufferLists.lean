import BekenSoc.FrameBuffer

namespace BekenSoc.FrameBufferLists

open Function FrameBuffer List

variable {list rest : List Nat} {g : Nat}

def linked (s : Store) (f : Nat) : Nat :=
  (s.freeList .jpeg).count f + (s.readyList .jpeg).count f +
    (s.freeList .display).count f + (s.readyList .display).count f

structure Filed (s : Store) (f : Nat) : Prop where
  free : ∀ t, f ∈ s.freeList t → (s.nodes f).type = t ∧ (s.nodes f).state ≠ .alloced
  ready : ∀ t, f ∈ s.readyList t → (s.nodes f).type = t ∧ (s.nodes f).state = .framed

variable {s s' : Store} {f : Nat} {t : FrameType}

theorem takeFirst_spec {test : Nat → Bool} (h : takeFirst test list = some (f, rest)) :
    test f = true ∧ f ∈ list ∧
      ∀ g, list.count g = rest.count g + if f = g then 1 else 0 := by
  induction list generalizing rest with
  | nil => cases h
  | cons d list ih =>
    rw [takeFirst] at h
    split at h
    · rename_i htest
      cases h
      refine ⟨htest, mem_cons_self, ?_⟩
      intro g
      simp [count_cons]
    · obtain ⟨⟨f', rest'⟩, htake, heq⟩ := Option.map_eq_some_iff.mp h
      cases heq
      obtain ⟨htest, hmem, hcount⟩ := ih htake
      refine ⟨htest, mem_cons_of_mem d hmem, ?_⟩
      intro g
      rw [count_cons, count_cons, hcount g]
      exact Nat.add_right_comm _ _ _

theorem linked_updateFree (s : Store) (t : FrameType) (list : List Nat) (f : Nat) :
    linked { s with freeList := update s.freeList t list } f + (s.freeList t).count f =
      linked s f + list.count f := by
  cases t <;> simp [linked] <;> omega

theorem linked_updateReady (s : Store) (t : FrameType) (list : List Nat) (f : Nat) :
    linked { s with readyList := update s.readyList t list } f +
      (s.readyList t).count f = linked s f + list.count f := by
  cases t <;> simp [linked] <;> omega

theorem count_free_le_linked (s : Store) (t : FrameType) (f : Nat) :
    (s.freeList t).count f ≤ linked s f := by
  cases t <;> simp only [linked] <;> omega

theorem count_ready_le_linked (s : Store) (t : FrameType) (f : Nat) :
    (s.readyList t).count f ≤ linked s f := by
  cases t <;> simp only [linked] <;> omega

theorem not_mem_freeList (h : linked s f = 0) (t : FrameType) : f ∉ s.freeList t := by
  have hle := count_free_le_linked s t f
  apply count_eq_zero.mp
  omega

theorem not_mem_readyList (h : linked s f = 0) (t : FrameType) : f ∉ s.readyList t := by
  have hle := count_ready_le_linked s t f
  apply count_eq_zero.mp
  omega

theorem Filed.of_linked_eq_zero (h : linked s f = 0) : Filed s f where
  free t hf := absurd hf (not_mem_freeList h t)
  ready t hf := absurd hf (not_mem_readyList h t)

structure SameElsewhere (s s' : Store) (f : Nat) : Prop where
  nodes : ∀ g, g ≠ f → s'.nodes g = s.nodes g
  free : ∀ t g, g ≠ f → (s'.freeList t).count g = (s.freeList t).count g
  ready : ∀ t g, g ≠ f → (s'.readyList t).count g = (s.readyList t).count g

structure Touches (s s' : Store) (f : Nat) : Prop extends SameElsewhere s s' f where
  type : (s'.nodes f).type = (s.nodes f).type
  frame : (s'.nodes f).frame = (s.nodes f).frame
  size : (s'.nodes f).size = (s.nodes f).size
  used : s'.used = s.used
  freed : s'.freed = s.freed

theorem Touches.refl (s : Store) (f : Nat) : Touches s s f :=
  ⟨⟨fun _ _ => rfl, fun _ _ _ => rfl, fun _ _ _ => rfl⟩, rfl, rfl, rfl, rfl, rfl⟩

theorem SameElsewhere.linked_eq (h : SameElsewhere s s' f) (hg : g ≠ f) :
    linked s' g = linked s g := by
  simp only [linked, h.free _ g hg, h.ready _ g hg]

theorem SameElsewhere.filed (h : SameElsewhere s s' f) (hg : g ≠ f) (hfiled : Filed s g) :
    Filed s' g := by
  constructor
  · intro t hmem
    have hpos := count_pos_iff.mpr hmem
    rw [h.free t g hg] at hpos
    rw [h.nodes g hg]
    exact hfiled.free t (count_pos_iff.mp hpos)
  · intro t hmem
    have hpos := count_pos_iff.mpr hmem
    rw [h.ready t g hg] at hpos
    rw [h.nodes g hg]
    exact hfiled.ready t (count_pos_iff.mp hpos)

structure Takes (s s' : Store) (f : Nat) : Prop extends Touches s s' f where
  linked : linked s f = linked s' f + 1
  lock : (s'.nodes f).lock = (s.nodes f).lock + 1

structure Links (s s' : Store) (f : Nat) : Prop extends Touches s s' f where
  linked : linked s' f = linked s f + 1
  lock : (s'.nodes f).lock = (s.nodes f).lock - 1
  filed : FrameBufferLists.linked s f = 0 → Filed s' f

theorem Touches.setNode {node : Frame} (htype : node.type = (s.nodes f).type)
    (hframe : node.frame = (s.nodes f).frame) (hsize : node.size = (s.nodes f).size) :
    Touches s (s.setNode f node) f where
  nodes g hg := update_of_ne hg _ _
  type := by simpa [Store.setNode] using htype
  frame := by simpa [Store.setNode] using hframe
  size := by simpa [Store.setNode] using hsize
  free _ _ _ := rfl
  ready _ _ _ := rfl
  used := rfl
  freed := rfl

theorem count_update {lists : FrameType → List Nat} (h : (lists t).count g = list.count g)
    (u : FrameType) :
    (update lists t list u).count g = (lists u).count g := by
  rcases eq_or_ne u t with rfl | hu
  · rw [update_self, h]
  · rw [update_of_ne hu]

theorem Takes.hold {free ready : FrameType → List Nat}
    (hfree : ∀ t g, g ≠ f → (free t).count g = (s.freeList t).count g)
    (hready : ∀ t g, g ≠ f → (ready t).count g = (s.readyList t).count g)
    (hlinked : FrameBufferLists.linked s f =
      FrameBufferLists.linked { s with freeList := free, readyList := ready } f + 1) :
    Takes s (Store.hold { s with freeList := free, readyList := ready } f) f where
  nodes g hg := update_of_ne hg _ _
  type := by simp [Store.hold, Store.setNode]
  frame := by simp [Store.hold, Store.setNode]
  size := by simp [Store.hold, Store.setNode]
  free := hfree
  ready := hready
  used := rfl
  freed := rfl
  linked := hlinked
  lock := by simp [Store.hold, Store.setNode]

theorem Takes.ofFree
    (hcount : ∀ g, (s.freeList t).count g = rest.count g + if f = g then 1 else 0) :
    Takes s (Store.hold { s with freeList := update s.freeList t rest } f) f := by
  apply Takes.hold
  · intro u g hg
    apply count_update
    rw [hcount, if_neg hg.symm, Nat.add_zero]
  · exact fun _ _ _ => rfl
  · have hlinked := linked_updateFree s t rest f
    have hone := hcount f
    rw [if_pos rfl] at hone
    change _ = FrameBufferLists.linked { s with freeList := update s.freeList t rest } f + 1
    omega

theorem Takes.ofReady
    (hcount : ∀ g, (s.readyList t).count g = rest.count g + if f = g then 1 else 0) :
    Takes s (Store.hold { s with readyList := update s.readyList t rest } f) f := by
  apply Takes.hold
  · exact fun _ _ _ => rfl
  · intro u g hg
    apply count_update
    rw [hcount, if_neg hg.symm, Nat.add_zero]
  · have hlinked := linked_updateReady s t rest f
    have hone := hcount f
    rw [if_pos rfl] at hone
    change _ = FrameBufferLists.linked { s with readyList := update s.readyList t rest } f + 1
    omega

theorem frameBufferAlloc_takes (h : frameBufferAlloc s t = (s', some f)) : Takes s s' f := by
  unfold frameBufferAlloc at h
  cases hfree : takeFirst (fun g => decide ((s.nodes g).state ≠ .alloced)) (s.freeList t) with
  | some =>
    rw [hfree] at h
    cases h
    exact .ofFree (takeFirst_spec hfree).2.2
  | none =>
    rw [hfree] at h
    cases hready : takeFirst (fun g => decide ((s.nodes g).state ≠ .alloced)) (s.readyList t) with
    | some =>
      rw [hready] at h
      cases h
      exact .ofReady (takeFirst_spec hready).2.2
    | none =>
      rw [hready] at h
      cases h

theorem frameBufferPopFrame_takes (h : frameBufferPopFrame s t = some (s', f)) : Takes s s' f := by
  obtain ⟨⟨f', rest⟩, htake, heq⟩ := Option.map_eq_some_iff.mp h
  cases heq
  exact .ofReady (takeFirst_spec htake).2.2

theorem count_append_other (list : List Nat) (hg : g ≠ f) :
    (list ++ [f]).count g = list.count g := by
  simp [count_append, hg.symm]

theorem mem_of_mem_update {lists : FrameType → List Nat} {u : FrameType} (hu : u ≠ t)
    (h : f ∈ update lists t list u) : f ∈ lists u := by
  rwa [update_of_ne hu] at h

theorem linked_linkReady (s : Store) (t : FrameType) (f : Nat) :
    linked (s.linkReady t f) f = linked s f + 1 := by
  have hlinked := linked_updateReady s t (s.readyList t ++ [f]) f
  rw [count_append, count_singleton_self] at hlinked
  rw [Store.linkReady]
  omega

theorem linked_linkFree (s : Store) (t : FrameType) (f : Nat) :
    linked (s.linkFree t f) f = linked s f + 1 := by
  have hlinked := linked_updateFree s t (s.freeList t ++ [f]) f
  rw [count_append, count_singleton_self] at hlinked
  rw [Store.linkFree]
  omega

theorem frameBufferPushFrame_links (s : Store) (f : Nat) :
    Links s (frameBufferPushFrame s f) f where
  nodes g hg := update_of_ne hg _ _
  type := by simp [frameBufferPushFrame, Store.setNode, Store.linkReady]
  frame := by simp [frameBufferPushFrame, Store.setNode, Store.linkReady]
  size := by simp [frameBufferPushFrame, Store.setNode, Store.linkReady]
  free _ _ _ := rfl
  ready u g hg := count_update (count_append_other _ hg).symm u
  used := rfl
  freed := rfl
  linked := linked_linkReady _ _ _
  lock := by simp [frameBufferPushFrame, Store.setNode, Store.linkReady]
  filed hzero := by
    constructor
    · intro u hmem
      exact absurd hmem (not_mem_freeList hzero u)
    · intro u hmem
      rcases eq_or_ne u (s.nodes f).type with rfl | hu
      · simp [frameBufferPushFrame, Store.setNode, Store.linkReady]
      · exact absurd (mem_of_mem_update hu hmem) (not_mem_readyList hzero u)

theorem frameBufferFreeFrame_links (h : (s.nodes f).lock = 1) :
    Links s (frameBufferFreeFrame s f) f := by
  have heq : frameBufferFreeFrame s f =
      (s.setNode f { s.nodes f with lock := 0, state := .framed }).linkFree (s.nodes f).type f := by
    simp [frameBufferFreeFrame, freeLocked, h]
  rw [heq]
  constructor
  · constructor
    · constructor
      · exact fun g hg => update_of_ne hg _ _
      · exact fun u g hg => count_update (count_append_other _ hg).symm u
      · exact fun _ _ _ => rfl
    · simp [Store.setNode, Store.linkFree]
    · simp [Store.setNode, Store.linkFree]
    · simp [Store.setNode, Store.linkFree]
    · rfl
    · rfl
  · exact linked_linkFree _ _ _
  · simp [Store.setNode, Store.linkFree, h]
  · intro hzero
    constructor
    · intro u hmem
      rcases eq_or_ne u (s.nodes f).type with rfl | hu
      · simp [Store.setNode, Store.linkFree]
      · exact absurd (mem_of_mem_update hu hmem) (not_mem_freeList hzero u)
    · intro u hmem
      exact absurd hmem (not_mem_readyList hzero u)

theorem toNat_sub_one {lock : UInt8} (h : 0 < lock.toNat) : (lock - 1).toNat = lock.toNat - 1 :=
  UInt8.toNat_sub_of_le lock 1 (UInt8.le_iff_toNat_le.mpr h)

theorem toNat_add_one {lock : UInt8} (h : lock.toNat < 255) :
    (lock + 1).toNat = lock.toNat + 1 := by
  rw [UInt8.toNat_add]
  change (lock.toNat + 1) % 256 = _
  omega

theorem frameBufferFreeFrame_of_lt (h : 1 < (s.nodes f).lock.toNat) : frameBufferFreeFrame s f =
      s.setNode f { s.nodes f with lock := (s.nodes f).lock - 1 } := by
  have hzero : (s.nodes f).lock ≠ 0 := by
    intro heq
    rw [heq] at h
    exact absurd h (by decide)
  have hlock : (s.nodes f).lock - 1 ≠ 0 := by
    intro heq
    have hsub := @toNat_sub_one (s.nodes f).lock (by omega)
    rw [heq] at hsub
    change 0 = _ at hsub
    omega
  rw [frameBufferFreeFrame, if_pos hzero, freeLocked, if_neg hlock]

end BekenSoc.FrameBufferLists
