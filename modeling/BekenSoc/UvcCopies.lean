import Mathlib.Data.Fintype.Basic
import BekenSoc.GuardedRuns
import BekenSoc.UvcCamera

namespace BekenSoc.UvcCopies

open CRuntime CameraFrames GuardedRuns UvcCamera

section Stream

/-- What the packets have shown of the frame that they are part of, which ends where the flag of
the header flips. -/
structure Seen where
  flag : Option UInt8
  /-- the bytes after the headers -/
  received : Nat
  /-- a packet had the start or the end of the frame -/
  marked : Bool
  /-- a packet had the end of the frame -/
  ended : Bool

def Seen.toggle (seen : Seen) (info : UInt8) : Seen :=
  if seen.flag = some (info &&& 0x01) then seen else ⟨some (info &&& 0x01), 0, false, false⟩

def Seen.mark (seen : Seen) (head : Head) (payload : Nat) : Seen :=
  if head.info &&& 0x02 ≠ 0 then { seen with marked := true, ended := true }
  else { seen with marked := seen.marked || startsFrame head payload }

def Seen.next (seen : Seen) (head : Head) (payload : Nat) : Seen :=
  if head.info &&& 0x40 ≠ 0 then seen
  else
    let seen := (seen.toggle head.info).mark head payload
    { seen with received := seen.received + payload }

def payloadLen (count : UInt32) : Nat := count.toNat - usbUvcHeadLen.toNat

def roundUp (n : Nat) : Nat := (n + 3) / 4 * 4

variable {Frame : Type}

structure Watched (Frame : Type) where
  drv : Uvc Frame
  seen : Seen

def look (w : Watched Frame) : Event Frame → Seen
  | .dmaFinish head _ => w.seen.next head (payloadLen w.drv.uvcTransferLen)
  | _ => w.seen

def watch [DecidableEq Frame] (frames : Frames Frame) (w : Watched Frame) (e : Event Frame) :
    Option (Watched Frame) :=
  (step frames w.drv e).map (⟨·, look w e⟩)

/-- A packet has its whole header; the flag flips only after a frame that showed its start or its
end; after the end of a frame come only packets without data; and the data of a frame, with the
last packet rounded up, fits into every frame buffer. -/
def Framed (frames : Frames Frame) (w : Watched Frame) : Event Frame → Prop
  | .dmaFinish head _ =>
    head.info &&& 0x40 = 0 → usbUvcHeadLen ≤ w.drv.uvcTransferLen ∧
      (w.seen.flag = none ∨ w.seen.flag = some (head.info &&& 0x01) ∨ w.seen.marked = true) ∧
      ((w.seen.toggle head.info).ended = true → payloadLen w.drv.uvcTransferLen = 0) ∧
      ∀ f, (w.seen.toggle head.info).received + roundUp (payloadLen w.drv.uvcTransferLen) ≤
        frames.size f
  | _ => True

instance [Fintype Frame] (frames : Frames Frame) (w : Watched Frame) (e : Event Frame) :
    Decidable (Framed frames w e) :=
  match e with
  | .dmaFinish .. => inferInstanceAs (Decidable (_ → _ ∧ _ ∧ _ ∧ ∀ _, _))
  | .rx _ | .memcpyFinish _ => isTrue trivial

def initial [DecidableEq Frame] (f : Frame) (rxReadLen : UInt32) (length : Frame → Nat) :
    Watched Frame :=
  ⟨UvcCamera.initial f rxReadLen length, ⟨none, 0, false, false⟩⟩

def Within (frames : Frames Frame) (c : Copy Frame) : Prop := c.offset + c.len ≤ frames.size c.frame

end Stream

section Lengths

theorem fackLen_eq {n : Nat} (h : roundUp n < 2 ^ 32) : fackLen n = roundUp n := by
  rw [roundUp] at h ⊢
  rw [fackLen, Nat.and_two_pow_sub_one_eq_mod n 2, Nat.shiftRight_eq_div_pow, Nat.shiftLeft_eq]
  split
  · omega
  · omega

theorem le_roundUp (n : Nat) : n ≤ roundUp n := by
  rw [roundUp]
  omega

theorem frameLen_eq {count : UInt32} (h : usbUvcHeadLen ≤ count) :
    (count - usbUvcHeadLen).toNat = payloadLen count :=
  UInt32.toNat_sub_of_le _ _ h

theorem flag_ne (info : UInt8) : (0x80 : UInt8) ≠ info &&& 0x01 := by
  intro h
  have hle : (info &&& 0x01).toNat ≤ 1 := by
    rw [UInt8.toNat_and]
    exact Nat.and_le_right
  rw [← h] at hle
  exact absurd hle (by decide)

end Lengths

section Invariant

variable {Frame : Type} {frames : Frames Frame} {s : Uvc Frame} {seen : Seen} {f : Frame}

structure Tracks (s : Uvc Frame) (seen : Seen) (f : Frame) : Prop where
  flag : s.frameFlag = seen.flag.getD 0x80
  len : s.length f ≤ seen.received
  ended : s.eof = true → seen.ended = true
  marked : seen.marked = true → s.sof = true ∨ s.eof = true ∨ seen.ended = true ∧ s.length f = 0
  unseen : seen.flag = none → seen.received = 0 ∧ s.eof = false

theorem Tracks.toggle [DecidableEq Frame] (h : Tracks s seen f) (info : UInt8)
    (hmark : seen.flag = none ∨ seen.flag = some (info &&& 0x01) ∨ seen.marked = true) :
    Tracks (toggle s f info) (seen.toggle info) f := by
  by_cases hsame : seen.flag = some (info &&& 0x01)
  · have hflag : s.frameFlag = info &&& 0x01 := by
      rw [h.flag, hsame]
      rfl
    rw [UvcCamera.toggle, Seen.toggle, if_pos hsame, if_neg (not_not.mpr hflag)]
    exact h
  · have hflag : s.frameFlag ≠ info &&& 0x01 := by
      rw [h.flag]
      cases hseen : seen.flag with
      | none => exact flag_ne info
      | some =>
        rw [hseen] at hsame
        exact fun heq => hsame (congrArg some heq)
    rw [UvcCamera.toggle, Seen.toggle, if_neg hsame, if_pos hflag]
    split
    · exact ⟨rfl, le_of_eq (Function.update_self ..), nofun, nofun, nofun⟩
    · rename_i hnone
      rw [Bool.not_eq_true, Bool.or_eq_false_iff] at hnone
      -- neither the start nor the end was seen: nothing was copied, or the frame is a new one
      have hzero : s.length f = 0 := by
        obtain hfirst | hsame' | hmarked := hmark
        · have hlen := h.len
          rw [(h.unseen hfirst).1] at hlen
          exact Nat.le_zero.mp hlen
        · exact absurd hsame' hsame
        · obtain hsof | heof | hzero := h.marked hmarked
          · exact absurd (hnone.1.symm.trans hsof) Bool.false_ne_true
          · exact absurd (hnone.2.symm.trans heof) Bool.false_ne_true
          · exact hzero.2
      exact ⟨rfl, le_of_eq hzero, fun heof => absurd (hnone.2.symm.trans heof) Bool.false_ne_true,
        nofun, nofun⟩

theorem seen_toggle_flag (seen : Seen) (info : UInt8) :
    (seen.toggle info).flag = some (info &&& 0x01) := by
  unfold Seen.toggle
  split
  · assumption
  · rfl

theorem Tracks.mark (h : Tracks s seen f) {v : UInt8} (hv : seen.flag = some v) (head : Head)
    (frameLen : Nat) : Tracks (mark s f head frameLen) (seen.mark head frameLen) f := by
  rw [UvcCamera.mark, Seen.mark]
  split
  · refine ⟨h.flag, h.len, fun _ => rfl, fun _ => .inr (.inl rfl), fun hnone => ?_⟩
    cases hv.symm.trans hnone
  · split
    · refine ⟨h.flag, h.len, h.ended, fun _ => .inl rfl, fun hnone => ?_⟩
      cases hv.symm.trans hnone
    · rename_i hstart
      rw [Bool.not_eq_true] at hstart
      refine { h with marked := ?_ }
      rw [hstart, Bool.or_false]
      exact h.marked

theorem marked_mark (h : Tracks s seen f) (hopen : seen.ended = false) (head : Head)
    (frameLen : Nat) (hmarked : (seen.mark head frameLen).marked = true) :
    (mark s f head frameLen).sof = true ∨ (mark s f head frameLen).eof = true := by
  rw [Seen.mark] at hmarked
  rw [UvcCamera.mark]
  split
  · exact .inr rfl
  · rename_i hend
    rw [if_neg hend] at hmarked
    split
    · exact .inl rfl
    · rename_i hstart
      rw [Bool.not_eq_true] at hstart
      rw [hstart, Bool.or_false] at hmarked
      obtain hsof | heof | ⟨hended, -⟩ := h.marked hmarked
      · exact .inl hsof
      · exact .inr heof
      · exact absurd (hopen.symm.trans hended) Bool.false_ne_true

theorem seen_mark_received (seen : Seen) (head : Head) (frameLen : Nat) :
    (seen.mark head frameLen).received = seen.received ∧
      (seen.mark head frameLen).flag = seen.flag := by
  unfold Seen.mark
  split
  · exact ⟨rfl, rfl⟩
  · exact ⟨rfl, rfl⟩

structure Sound (frames : Frames Frame) (s : Uvc Frame) (seen : Seen) : Prop where
  owned : EofOwned frames s
  tracks : ∀ f, usable frames s.curr = some f → Tracks s seen f
  copies : ∀ c ∈ s.copies, Within frames c

theorem Sound.receive (h : Sound frames s seen) (rxReadLen uvcTransferLen : UInt32)
    (receiving : Bool) (pending : Nat) : Sound frames { s with
      rxReadLen := rxReadLen
      uvcTransferLen := uvcTransferLen
      receiving := receiving
      pending := pending } seen where
  owned := h.owned
  tracks f hf := { h.tracks f hf with }
  copies := h.copies

variable [DecidableEq Frame]

theorem sound_initial (f : Frame) (rxReadLen : UInt32) (length : Frame → Nat) :
    Sound frames (UvcCamera.initial f rxReadLen length) ⟨none, 0, false, false⟩ where
  owned := nofun
  tracks := by
    intro g hg
    cases (usable_eq_some.mp hg).1
    exact ⟨rfl, le_of_eq (Function.update_self ..), nofun, nofun, fun _ => ⟨rfl, rfl⟩⟩
  copies := nofun

theorem Sound.memcpyFinish (h : Sound frames s seen) (alloc : Option Frame) :
    Sound frames (uvcCameraMemcpyFinishCallback frames alloc s) seen := by
  have howned := h.owned.memcpyFinish alloc
  revert howned
  unfold uvcCameraMemcpyFinishCallback
  split
  · rename_i heof
    obtain ⟨f, hf, -⟩ := h.owned heof
    have htracks := h.tracks f hf
    split
    · intro howned
      refine ⟨howned, ?_, h.copies⟩
      intro g hg
      have hzero : clearLength s.length (usable frames alloc) g = 0 := by
        rw [show usable frames alloc = some g from hg]
        exact clearLength_some s.length g
      refine ⟨htracks.flag, ?_, fun hend => absurd hend Bool.false_ne_true,
        fun _ => .inr (.inr ⟨htracks.ended heof, hzero⟩), ?_⟩
      · dsimp only
        rw [hzero]
        exact Nat.zero_le _
      · intro hnone
        exact absurd ((htracks.unseen hnone).2.symm.trans heof) Bool.false_ne_true
    · intro howned
      refine ⟨howned, ?_, h.copies⟩
      intro g hg
      cases hg.symm.trans hf
      refine { htracks with len := ?_, marked := fun _ => .inr (.inl heof) }
      dsimp only
      rw [(usable_eq_some.mp hf).1, clearLength_some]
      exact Nat.zero_le _
  · exact fun _ => h

theorem Sound.copy (h : Sound frames s seen)
    (hf : usable frames s.curr = some f) {frameLen : Nat} (hpos : 0 < frameLen)
    (hmarked : seen.marked = true → s.sof = true ∨ s.eof = true) (hflag : seen.flag ≠ none)
    (hfits : seen.received + roundUp frameLen ≤ frames.size f) :
    Sound frames (uvcMemcpyByChnl s f frameLen)
      { seen with received := seen.received + frameLen } := by
  have htracks := h.tracks f hf
  have hlen := htracks.len
  have hround := le_roundUp frameLen
  have hsize := frames.size_lt f
  refine ⟨h.owned, ?_, ?_⟩
  · intro g hg
    cases hg.symm.trans hf
    refine ⟨htracks.flag, ?_, htracks.ended, ?_, fun hnone => absurd hnone hflag⟩
    · dsimp only [uvcMemcpyByChnl]
      rw [Function.update_self, addU32]
      exact (Nat.mod_le _ _).trans (Nat.add_le_add_right hlen frameLen)
    · exact fun hm => (hmarked hm).imp_right .inl
  · refine List.forall_mem_append.mpr ⟨h.copies, List.forall_mem_singleton.mpr ?_⟩
    rw [Within]
    dsimp only
    have hmoved := dmaTransferLen_le (hpos.trans_le hround)
    rw [fackLen_eq (by omega)]
    omega

theorem Sound.packet (h : Sound frames s seen) (alloc : Option Frame)
    (head : Head) {payload : Nat} (hframe : head.info &&& 0x40 = 0 →
      (seen.flag = none ∨ seen.flag = some (head.info &&& 0x01) ∨ seen.marked = true) ∧
      ((seen.toggle head.info).ended = true → payload = 0) ∧
      ∀ f, (seen.toggle head.info).received + roundUp payload ≤ frames.size f) :
    Sound frames (uvcProcessDataPacket frames alloc s head payload) (seen.next head payload) := by
  unfold uvcProcessDataPacket Seen.next
  cases hf : usable frames s.curr with
  | none =>
    -- without a frame the driver takes no packets any more
    exact { h with tracks := fun g hg => absurd (hf.symm.trans hg) nofun }
  | some f =>
    dsimp only
    split
    · exact h
    · rename_i herror
      obtain ⟨hmark, hended, hfits⟩ := hframe (not_not.mp herror)
      have htoggle := (h.tracks f hf).toggle head.info hmark
      have hflag := seen_toggle_flag seen head.info
      obtain ⟨hcurr, -, -, hcopies⟩ := mark_curr (toggle s f head.info) f head payload
      obtain ⟨htoggled, -, -, -, hkept⟩ := toggle_curr s f head.info
      obtain ⟨hreceived, hflag'⟩ := seen_mark_received (seen.toggle head.info) head payload
      have hcurr' : (mark (toggle s f head.info) f head payload).curr = s.curr :=
        hcurr.trans htoggled
      have hsound : Sound frames (mark (toggle s f head.info) f head payload)
          ((seen.toggle head.info).mark head payload) := by
        refine ⟨(h.owned.toggle f head.info).mark (htoggled.symm ▸ hf) head payload, ?_, ?_⟩
        · intro g hg
          rw [hcurr'] at hg
          cases hg.symm.trans hf
          exact htoggle.mark hflag head payload
        · rw [hcopies, hkept]
          exact h.copies
      split
      · rename_i hpos
        refine hsound.copy (hcurr'.symm ▸ hf) hpos ?_ ?_ ?_
        · refine marked_mark htoggle (Bool.eq_false_iff.mpr fun hopen => ?_) head payload
          rw [hended hopen] at hpos
          exact absurd hpos (Nat.lt_irrefl 0)
        · rw [hflag', hflag]
          exact nofun
        · rw [hreceived]
          exact hfits f
      · rename_i hzero
        have hzero' : payload = 0 := Nat.eq_zero_of_not_pos hzero
        rw [hzero', Nat.add_zero]
        rw [hzero'] at hsound
        exact hsound.memcpyFinish alloc

theorem uvcProcessDataPacket_error {head : Head} (h : head.info &&& 0x40 ≠ 0)
    (alloc : Option Frame) (s : Uvc Frame) (frameLen : Nat) :
    uvcProcessDataPacket frames alloc s head frameLen = s := by
  unfold uvcProcessDataPacket
  split
  · rfl
  · rw [if_pos h]

theorem Sound.step {w w' : Watched Frame} {e : Event Frame}
    (h : Sound frames w.drv w.seen) (hok : Framed frames w e) (hs : watch frames w e = some w') :
    Sound frames w'.drv w'.seen := by
  obtain ⟨drv, hdrv, rfl⟩ := Option.map_eq_some_iff.mp hs
  cases e with
  | rx =>
    obtain rfl := Option.some.inj hdrv
    exact h.receive _ _ _ _
  | dmaFinish head alloc =>
    obtain ⟨-, rfl⟩ := Option.ite_some_none_eq_some.mp hdrv
    by_cases herror : head.info &&& 0x40 = 0
    · obtain ⟨hhead, hframe⟩ := hok herror
      refine Sound.receive ?_ _ _ _ _
      rw [frameLen_eq hhead]
      exact h.packet alloc head fun _ => hframe
    · -- the length of a packet with the error flag is not looked at
      refine Sound.receive ?_ _ _ _ _
      rw [uvcProcessDataPacket_error herror, look, Seen.next, if_pos herror]
      exact h
  | memcpyFinish alloc =>
    obtain ⟨-, rfl⟩ := Option.ite_some_none_eq_some.mp hdrv
    exact (h.receive _ _ _ _).memcpyFinish alloc

end Invariant

section Runs

/-- In every run whose packets are framed, every copy ends inside its frame. -/
theorem within_of_framed {Frame : Type} [DecidableEq Frame] {frames : Frames Frame} {f : Frame}
    {rxReadLen : UInt32} {length : Frame → Nat} {w : Watched Frame}
    (h : Reached (watch frames) (Framed frames) (initial f rxReadLen length) w) :
    ∀ c ∈ w.drv.copies, Within frames c := by
  have hsound : Sound frames w.drv w.seen :=
    h.invariant (fun w => Sound frames w.drv w.seen) (sound_initial f rxReadLen length)
      fun _ _ _ hs hok hstep => hs.step hok hstep
  exact hsound.copies

def middle : Head := ⟨0x80, 0, 0⟩

theorem within_of_framed_two :
    ∃ w, Reached (watch oneFrame) (Framed oneFrame) (initial 0 0 fun _ => 0) w ∧
      w.drv.copies = [⟨0, 0, 500⟩, ⟨0, 500, 100⟩] ∧ ∀ c ∈ w.drv.copies, Within oneFrame c :=
  exists_reached_and (fun _ => within_of_framed)
    [.rx 512, .dmaFinish ⟨0x80, 0xff, 0xd8⟩ none, .rx 109, .memcpyFinish none,
      .dmaFinish ⟨0x82, 0, 0⟩ none] (by decide +kernel)

def packets (n : Nat) : List (Event (Fin 1)) :=
  (List.replicate n [.rx 3084, .dmaFinish middle none, .memcpyFinish none]).flatten

-- A packet shorter than its header late in a frame, and a frame without an end.
theorem copy_past_frame : (∃ w, Reached (watch oneFrame) anyStep (initial 0 0 fun _ => 0) w ∧
      w.drv.uvcTransferLen = 8 ∧ ∃ c ∈ w.drv.copies, ¬ Within oneFrame c) ∧
    ∃ w, Reached (watch oneFrame) anyStep (initial 0 0 fun _ => 0) w ∧
      w.seen.received = 51 * 3072 ∧ ∃ c ∈ w.drv.copies, ¬ Within oneFrame c := by
  constructor
  · obtain ⟨w, hreached, hlen, hlast⟩ := exists_reached (watch oneFrame) anyStep
      (initial 0 0 fun _ => 0)
      (fun w => w.drv.uvcTransferLen = 8 ∧ w.drv.copies.getLast? = some ⟨0, 30 * 3072, 65532⟩)
      (packets 30 ++ [.rx 8, .dmaFinish middle none]) (by decide +kernel)
    exact ⟨w, hreached, hlen, _, List.mem_of_getLast? hlast, by rw [Within]; decide⟩
  · obtain ⟨w, hreached, hreceived, hlast⟩ := exists_reached (watch oneFrame) anyStep
      (initial 0 0 fun _ => 0) (fun w => w.seen.received = 51 * 3072 ∧
        w.drv.copies.getLast? = some ⟨0, 50 * 3072, 3072⟩) (packets 51) (by decide +kernel)
    exact ⟨w, hreached, hreceived, _, List.mem_of_getLast? hlast, by rw [Within]; decide⟩

end Runs

end BekenSoc.UvcCopies
