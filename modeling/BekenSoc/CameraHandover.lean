import Mathlib.Data.List.Induction
import BekenSoc.DvpCamera
import BekenSoc.GuardedRuns
import BekenSoc.UvcCamera

namespace BekenSoc.CameraHandover

open CameraFrames GuardedRuns HandoverLogs List Option

section Producers

variable {Frame : Type} {log : List (Act Frame)}

structure Owns (log : List (Act Frame)) (curr : Option Frame) : Prop where
  once : Once log
  held : ∀ f, curr = some f → Held log f

theorem owns_got (f : Frame) : Owns [.got f] (some f) where
  once := once_nil.got f
  held := by
    rintro g hg
    cases hg
    exact held_got [] f

theorem Owns.replace {f : Frame} (h : Owns log (some f)) (alloc : Option Frame) :
    Owns (log ++ [.passed f] ++ alloc.toList.map .got) alloc := by
  have hpassed := h.once.passed (h.held f rfl)
  cases alloc with
  | none =>
    refine ⟨?_, nofun⟩
    rw [toList_none, map_nil, append_nil]
    exact hpassed
  | some g =>
    refine ⟨hpassed.got g, ?_⟩
    rintro x hx
    cases hx
    exact held_got _ g

end Producers

section Uvc

open UvcCamera

variable {Frame : Type} {frames : Frames Frame} {s s' : Uvc Frame}

structure UvcOwns (frames : Frames Frame) (s : Uvc Frame) : Prop where
  owns : Owns s.log s.curr
  eof : EofOwned frames s

variable [DecidableEq Frame]

theorem UvcOwns.memcpyFinish (h : UvcOwns frames s) (alloc : Option Frame) :
    UvcOwns frames (uvcCameraMemcpyFinishCallback frames alloc s) := by
  refine ⟨?_, h.eof.memcpyFinish alloc⟩
  unfold uvcCameraMemcpyFinishCallback
  split
  · rename_i heof
    split
    · obtain ⟨f, hcurr, hframe⟩ := h.eof heof
      have howns := h.owns
      rw [(usable_eq_some.mp hcurr).1] at howns
      rw [hframe]
      exact howns.replace alloc
    · exact h.owns
  · exact h.owns

theorem UvcOwns.processDataPacket (h : UvcOwns frames s)
    (alloc : Option Frame) (head : Head) (frameLen : Nat) :
    UvcOwns frames (uvcProcessDataPacket frames alloc s head frameLen) := by
  unfold uvcProcessDataPacket
  split
  · exact h
  · rename_i f hf
    split
    · exact h
    · obtain ⟨hcurr, -, -, hlog, -⟩ := toggle_curr s f head.info
      obtain ⟨hcurr', -, hlog', -⟩ := mark_curr (toggle s f head.info) f head frameLen
      have hmarked : UvcOwns frames (mark (toggle s f head.info) f head frameLen) := by
        refine ⟨?_, (h.eof.toggle f head.info).mark (hcurr.symm ▸ hf) head frameLen⟩
        rw [hlog', hcurr', hlog, hcurr]
        exact h.owns
      split
      · exact ⟨hmarked.owns, hmarked.eof⟩
      · exact hmarked.memcpyFinish alloc

theorem UvcOwns.step {e : Event Frame} (h : UvcOwns frames s)
    (hs : step frames s e = some s') : UvcOwns frames s' := by
  cases e with
  | rx =>
    obtain rfl := Option.some.inj hs
    exact ⟨h.owns, h.eof⟩
  | dmaFinish head alloc =>
    obtain ⟨-, rfl⟩ := ite_some_none_eq_some.mp hs
    have hpacket := h.processDataPacket alloc head (s.uvcTransferLen - usbUvcHeadLen).toNat
    exact ⟨hpacket.owns, hpacket.eof⟩
  | memcpyFinish alloc =>
    obtain ⟨-, rfl⟩ := ite_some_none_eq_some.mp hs
    have hserved : UvcOwns frames { s with pending := s.pending - 1 } := ⟨h.owns, h.eof⟩
    exact hserved.memcpyFinish alloc

theorem once_of_uvc {f : Frame} {rxReadLen : UInt32} {length : Frame → Nat}
    (h : Reached (step frames) anyStep (UvcCamera.initial f rxReadLen length) s) : Once s.log := by
  have howns : UvcOwns frames s :=
    h.invariant (UvcOwns frames) ⟨owns_got f, nofun⟩ fun _ _ _ hs _ hstep => hs.step hstep
  exact howns.owns.once

end Uvc

section Dvp

open DvpCamera

variable {Frame β : Type} [DecidableEq Frame] {frames : Frames Frame} {enc : Encoder β}
  {s s' : Dvp Frame β}

structure DvpOwns (s : Dvp Frame β) : Prop where
  owns : Owns s.log s.curr
  eof : s.eof = true → ∃ f, s.curr = some f ∧ s.frame = some f

theorem DvpOwns.memcpyFinish (h : DvpOwns s) (alloc : Option Frame) :
    DvpOwns (dvpMemcpyFinishCallback frames alloc s) := by
  unfold dvpMemcpyFinishCallback
  dsimp only
  split
  · rename_i f heof hframe
    obtain ⟨g, hcurr, hframe'⟩ := h.eof heof
    cases hframe.symm.trans hframe'
    split
    · exact ⟨h.owns, h.eof⟩
    · have howns := h.owns
      rw [hcurr] at howns
      have hnext := howns.replace alloc
      split
      · exact ⟨hnext, fun hend => absurd hend Bool.false_ne_true⟩
      · exact ⟨hnext, fun hend => absurd hend Bool.false_ne_true⟩
  · exact ⟨h.owns, h.eof⟩

theorem DvpOwns.eofIrq (h : DvpOwns s) : DvpOwns (dvpCameraEofHandler frames s) := by
  unfold dvpCameraEofHandler
  split
  · exact ⟨h.owns, h.eof⟩
  · split
    · exact ⟨h.owns, h.eof⟩
    · rename_i f hf
      have hcurr := (usable_eq_some.mp hf).1
      split
      · exact ⟨h.owns, fun _ => ⟨f, hcurr, rfl⟩⟩
      · exact ⟨h.owns, fun _ => ⟨f, hcurr, rfl⟩⟩

theorem DvpOwns.dmaFinish (h : DvpOwns s) : DvpOwns (dvpCameraDmaFinishCallback frames s) := by
  unfold dvpCameraDmaFinishCallback
  split
  · exact h
  · split
    · exact ⟨h.owns, h.eof⟩
    · exact h

theorem DvpOwns.step {e : Event Frame} (h : DvpOwns s) (hs : step frames enc s e = some s') :
    DvpOwns s' := by
  cases e with
  | emit =>
    obtain ⟨-, rfl⟩ := ite_some_none_eq_some.mp hs
    unfold DvpCamera.emit
    split
    · exact ⟨h.owns, h.eof⟩
    · exact ⟨h.owns, h.eof⟩
  | frameEnd =>
    obtain ⟨-, rfl⟩ := ite_some_none_eq_some.mp hs
    exact ⟨h.owns, h.eof⟩
  | dmaFinish =>
    obtain ⟨-, rfl⟩ := ite_some_none_eq_some.mp hs
    exact DvpOwns.dmaFinish ⟨h.owns, h.eof⟩
  | eofIrq =>
    obtain ⟨-, rfl⟩ := ite_some_none_eq_some.mp hs
    exact DvpOwns.eofIrq ⟨h.owns, h.eof⟩
  | memcpyFinish alloc =>
    rw [DvpCamera.step] at hs
    split at hs
    · rename_i c hcopying
      obtain rfl := Option.some.inj hs
      have hcopied : DvpOwns (copyBytes s c) := ⟨h.owns, h.eof⟩
      exact hcopied.memcpyFinish alloc
    · cases hs

theorem once_of_dvp {f : Frame} {length : Frame → Nat} {content : Frame → Nat → β}
    {buffer : Nat → β}
    (h : Reached (step frames enc) anyStep (DvpCamera.initial f length content buffer) s) :
    Once s.log := by
  have howns : DvpOwns s :=
    h.invariant DvpOwns ⟨owns_got f, nofun⟩ fun _ _ _ hs _ hstep => hs.step hstep
  exact howns.owns.once

end Dvp

section Yuv

open DvpCamera

variable {Frame : Type}

theorem yuvRun_append (f : Frame) (allocs : List (Option Frame)) (alloc : Option Frame) :
    yuvRun f (allocs ++ [alloc]) = dvpCameraYuvEofHandler (yuvRun f allocs) alloc :=
  foldl_concat ..

theorem owns_yuvRun (f : Frame) {allocs : List (Option Frame)} (h : ∀ a ∈ allocs, a ≠ none) :
    Owns (yuvRun f allocs).log (some (yuvRun f allocs).curr) := by
  induction allocs using reverseRecOn with
  | nil => exact owns_got f
  | append_singleton allocs alloc ih =>
    obtain ⟨hbefore, hlast⟩ := forall_mem_append.mp h
    obtain ⟨g, rfl⟩ := ne_none_iff_exists'.mp (hlast alloc (mem_singleton_self _))
    rw [yuvRun_append]
    exact (ih hbefore).replace (some g)

theorem exists_log_append (s : Yuv Frame) (allocs : List (Option Frame)) :
    ∃ after, (allocs.foldl dvpCameraYuvEofHandler s).log = s.log ++ after := by
  induction allocs generalizing s with
  | nil => exact ⟨[], (append_nil _).symm⟩
  | cons alloc allocs ih =>
    obtain ⟨after, hafter⟩ := ih (dvpCameraYuvEofHandler s alloc)
    refine ⟨[.passed s.curr] ++ alloc.toList.map .got ++ after, ?_⟩
    rw [foldl_cons, hafter, dvpCameraYuvEofHandler, append_assoc, append_assoc, append_assoc]

theorem not_once_of_failed (f : Frame) (before : List (Option Frame)) (alloc : Option Frame)
    (after : List (Option Frame)) : ¬ Once (yuvRun f (before ++ none :: alloc :: after)).log := by
  obtain ⟨rest, hrest⟩ := exists_log_append
    (dvpCameraYuvEofHandler (dvpCameraYuvEofHandler (yuvRun f before) none) alloc) after
  have hlog : (yuvRun f (before ++ none :: alloc :: after)).log =
      (yuvRun f before).log ++ .passed (yuvRun f before).curr ::
        .passed (yuvRun f before).curr :: (alloc.toList.map .got ++ rest) := by
    rw [yuvRun, foldl_append]
    refine hrest.trans ?_
    simp only [dvpCameraYuvEofHandler, yuvRun, getD_none, toList_none, map_nil,
      append_nil, append_assoc, cons_append, nil_append]
  rw [hlog]
  exact not_once_of_twice _ _ _

theorem once_yuvRun_iff (f : Frame) (allocs : List (Option Frame)) :
    Once (yuvRun f allocs).log ↔ ∀ a ∈ allocs.dropLast, a ≠ none := by
  constructor
  · rintro honce a ha rfl
    obtain ⟨before, mid, hmid⟩ := append_of_mem ha
    rcases eq_nil_or_concat allocs with rfl | ⟨init, last, rfl⟩
    · cases ha
    · rw [concat_eq_append, dropLast_concat] at hmid
      rw [concat_eq_append, hmid, append_assoc] at honce
      cases mid with
      | nil => exact not_once_of_failed f before last [] honce
      | cons alloc mid => exact not_once_of_failed f before alloc (mid ++ [last]) honce
  · intro h
    rcases eq_nil_or_concat allocs with rfl | ⟨init, last, rfl⟩
    · exact (owns_got f).once
    · rw [concat_eq_append] at h ⊢
      rw [dropLast_concat] at h
      rw [yuvRun_append]
      exact ((owns_yuvRun f h).replace last).once

end Yuv

section Runs

/-- The USB camera and the JPEG mode hand over each frame once, whatever the allocations give and
the interrupts do; the YUV mode does exactly as long as no allocation before its last interrupt
fails. -/
theorem handed_over_once {Frame β : Type} [DecidableEq Frame] (frames : Frames Frame)
    (enc : DvpCamera.Encoder β) : (∀ f rxReadLen length s, Reached (UvcCamera.step frames) anyStep
        (UvcCamera.initial f rxReadLen length) s → Once s.log) ∧
      (∀ f length content buffer s, Reached (DvpCamera.step frames enc) anyStep
        (DvpCamera.initial f length content buffer) s → Once s.log) ∧
      ∀ (f : Frame) allocs, Once (DvpCamera.yuvRun f allocs).log ↔
        ∀ a ∈ allocs.dropLast, a ≠ none :=
  ⟨fun _ _ _ _ h => once_of_uvc h, fun _ _ _ _ _ h => once_of_dvp h, once_yuvRun_iff⟩

theorem handed_over_once_two : Once (DvpCamera.yuvRun (0 : Fin 2) [some 1, some 0, none]).log :=
  ((handed_over_once (⟨fun _ => 0, fun _ => Nat.two_pow_pos 32, fun _ => true⟩ : Frames (Fin 2))
    (⟨fun _ => 0, fun _ _ => 0⟩ : DvpCamera.Encoder Nat)).2.2 0 [some 1, some 0, none]).mpr
    (by decide)

theorem yuv_passed_twice : ¬ Once (DvpCamera.yuvRun (0 : Fin 1) [none, none]).log :=
  not_once_of_failed 0 [] none []

end Runs

end BekenSoc.CameraHandover
