import BekenSoc.DvpCamera
import BekenSoc.GuardedRuns

namespace BekenSoc.DvpFrames

open Function CRuntime CameraFrames DvpCamera GuardedRuns PingPongBuffers Nat Option

section Guards

variable {Frame β : Type}

def Intact (enc : Encoder β) (d : Done β) : Prop :=
  d.length + jpegCrcSize = enc.size d.no ∧ ∀ i < d.length, d.content i = enc.output d.no i

/-- A half fills only when the copy of the one before it is done, and there is always a frame. -/
def Timely (frames : Frames Frame) (s : Dvp Frame β) : Event Frame → Prop
  | .emit n => s.pos % frameBufferCache + n = frameBufferCache →
      s.halfPending = false ∧ s.copying = none
  | .memcpyFinish alloc => (usable frames alloc).isSome = true
  | _ => True

instance (frames : Frames Frame) (s : Dvp Frame β) (e : Event Frame) :
    Decidable (Timely frames s e) :=
  match e with
  | .emit _ => inferInstanceAs (Decidable (_ → _))
  | .memcpyFinish _ => inferInstanceAs (Decidable (_ = _))
  | .frameEnd | .dmaFinish | .eofIrq => isTrue trivial

/-- Besides: the trailer of a frame is in one half, the interrupt of a half is served before that
of the end of frame, and the encoder puts out the next frame after the channel was started for
it. -/
def Served (frames : Frames Frame) (enc : Encoder β) (s : Dvp Frame β) (e : Event Frame) : Prop :=
  Timely frames s e ∧ match e with
    | .emit _ => s.running = true ∧ s.eofPending = false
    | .frameEnd => jpegCrcSize ≤ enc.size s.no % frameBufferCache
    | .eofIrq => s.halfPending = false
    | _ => True

instance (frames : Frames Frame) (enc : Encoder β) (s : Dvp Frame β) (e : Event Frame) :
    Decidable (Served frames enc s e) :=
  match e with
  | .emit _ | .frameEnd | .eofIrq | .dmaFinish | .memcpyFinish _ =>
    inferInstanceAs (Decidable (_ ∧ _))

end Guards

section Halves

def parity (k : Nat) : Bool := decide (k % 2 = 1)

theorem not_parity (k : Nat) : (!parity k) = parity (k + 1) := by
  rw [parity, parity, ← decide_not, decide_eq_decide]
  omega

theorem halfBase_parity (k : Nat) : halfBase (parity k) = k % 2 * frameBufferCache := by
  rw [halfBase, parity]
  obtain hzero | hone := mod_two_eq_zero_or_one k
  · rw [hzero]
    rfl
  · rw [hone]
    rfl

theorem mod_add_half {pos k : Nat} (lo : k * frameBufferCache ≤ pos)
    (hi : pos < (k + 1) * frameBufferCache) :
    pos % frameBufferCache + k * frameBufferCache = pos := by
  rw [frameBufferCache] at lo hi ⊢
  omega

theorem fill_cases {pos k m : Nat} (lo : k * frameBufferCache ≤ pos)
    (hi : pos < (k + 1) * frameBufferCache)
    (hhalf : pos % frameBufferCache + m ≤ frameBufferCache) :
    pos % frameBufferCache + m = frameBufferCache ∧ pos + m = (k + 1) * frameBufferCache ∨
      pos % frameBufferCache + m ≠ frameBufferCache ∧ pos + m < (k + 1) * frameBufferCache := by
  rw [frameBufferCache] at lo hi hhalf ⊢
  omega

theorem le_dmaTransferLen {m : Nat} (hm : m ≤ frameBufferCache) (hpos : 0 < m) :
    m ≤ dmaTransferLen (alignLen m) := by
  rw [frameBufferCache] at hm
  rw [dmaTransferLen, alignLen]
  split
  · omega
  · omega

theorem leftLength_eq {pos : Nat} (h : jpegCrcSize ≤ pos % frameBufferCache) :
    subU32 (subU32 frameBufferCache (frameBufferCache - pos % frameBufferCache)) jpegCrcSize =
      pos % frameBufferCache - jpegCrcSize := by
  rw [jpegCrcSize, frameBufferCache] at h ⊢
  rw [subU32, subU32]
  omega

end Halves

section Invariant

variable {Frame β : Type} {frames : Frames Frame} {enc : Encoder β} {s : Dvp Frame β}
  {f : Frame} {n k : Nat}

structure Carried (frames : Frames Frame) (enc : Encoder β) (s : Dvp Frame β) (f : Frame)
    (n k : Nat) : Prop where
  curr : usable frames s.curr = some f
  noDrop : s.dropCount = 0
  index : s.index = parity k
  size : s.pos ≤ enc.size n
  holds : Holds frameBufferCache s.buffer (enc.output n) (k * frameBufferCache) s.pos
  content : ∀ i < k * frameBufferCache, s.content f i = enc.output n i
  done : ∀ d ∈ s.done, Intact enc d

inductive Stage (s : Dvp Frame β) (f : Frame) (k : Nat) : Prop
  | idle (copying : s.copying = none) (busy : s.psramDmaBusy = false)
      (half : s.halfPending = false) (length : s.length f = k * frameBufferCache)
      (lo : k * frameBufferCache ≤ s.pos) (hi : s.pos < (k + 1) * frameBufferCache)
  | filled (copying : s.copying = none) (busy : s.psramDmaBusy = false)
      (half : s.halfPending = true) (length : s.length f = k * frameBufferCache)
      (lo : (k + 1) * frameBufferCache ≤ s.pos) (hi : s.pos < (k + 2) * frameBufferCache)
  | copying (copying : s.copying =
        some ⟨f, k * frameBufferCache, parity k, alignLen frameBufferCache⟩)
      (busy : s.psramDmaBusy = true) (half : s.halfPending = false)
      (length : s.length f = (k + 1) * frameBufferCache)
      (lo : (k + 1) * frameBufferCache ≤ s.pos) (hi : s.pos < (k + 2) * frameBufferCache)

inductive Clock (enc : Encoder β) (s : Dvp Frame β) (n : Nat) : Prop
  | within (no : s.no = n) (sent : s.sent = s.pos) (pending : s.eofPending = false)
  | ended (no : s.no = n + 1) (sent : s.sent = 0) (pending : s.eofPending = true)
      (pos : s.pos = enc.size n) (trailer : jpegCrcSize ≤ s.pos % frameBufferCache)

structure Streaming (frames : Frames Frame) (enc : Encoder β) (s : Dvp Frame β) (f : Frame)
    (n k : Nat) : Prop where
  carried : Carried frames enc s f n k
  running : s.running = true
  noEof : s.eof = false
  clock : Clock enc s n
  stage : Stage s f k

inductive TailStage (s : Dvp Frame β) (f : Frame) (k : Nat) : Prop
  | waiting (copying : s.copying =
        some ⟨f, k * frameBufferCache, parity k, alignLen frameBufferCache⟩)
      (length : s.length f = (k + 1) * frameBufferCache)
      (lo : (k + 1) * frameBufferCache + jpegCrcSize ≤ s.pos)
      (hi : s.pos < (k + 2) * frameBufferCache)
      (left : s.psramDmaLeft = s.pos - (k + 1) * frameBufferCache - jpegCrcSize)
  | last (copying : s.copying = some ⟨f, k * frameBufferCache, parity k,
        alignLen (s.pos - k * frameBufferCache - jpegCrcSize)⟩)
      (length : s.length f + jpegCrcSize = s.pos)
      (lo : k * frameBufferCache + jpegCrcSize ≤ s.pos)
      (hi : s.pos < (k + 1) * frameBufferCache) (left : s.psramDmaLeft = 0)

structure Tail (frames : Frames Frame) (enc : Encoder β) (s : Dvp Frame β) (f : Frame)
    (n k : Nat) : Prop where
  carried : Carried frames enc s f n k
  running : s.running = false
  eof : s.eof = true
  frame : s.frame = some f
  eofNo : s.eofNo = n
  no : s.no = n + 1
  sent : s.sent = 0
  pending : s.eofPending = false
  half : s.halfPending = false
  pos : s.pos = enc.size n
  stage : TailStage s f k

def Sound (frames : Frames Frame) (enc : Encoder β) (s : Dvp Frame β) : Prop :=
  ∃ f n k, Streaming frames enc s f n k ∨ Tail frames enc s f n k

theorem streaming_start (hcurr : usable frames s.curr = some f) (hdrop : s.dropCount = 0)
    (hindex : s.index = false) (hpos : s.pos = 0) (hdone : ∀ d ∈ s.done, Intact enc d)
    (hrunning : s.running = true) (hnoEof : s.eof = false) (hclock : Clock enc s n)
    (hcopying : s.copying = none) (hbusy : s.psramDmaBusy = false)
    (hhalf : s.halfPending = false) (hlength : s.length f = 0) : Streaming frames enc s f n 0 := by
  have hzero : 0 * frameBufferCache = 0 := Nat.zero_mul _
  refine ⟨⟨hcurr, hdrop, hindex, ?_, ?_, ?_, hdone⟩, hrunning, hnoEof, hclock,
    .idle hcopying hbusy hhalf (hlength.trans hzero.symm) ?_ ?_⟩
  · rw [hpos]
    exact Nat.zero_le _
  · rw [hzero, hpos]
    exact holds_empty _ _ _ 0
  · intro i hi
    rw [hzero] at hi
    exact absurd hi (Nat.not_lt_zero i)
  · rw [hzero]
    exact Nat.zero_le _
  · rw [hpos]
    decide

theorem Stage.emit (h : Stage s f k) (hrunning : s.running = true) {m : Nat}
    (hhalf : s.pos % frameBufferCache + m ≤ frameBufferCache)
    (hfill : s.pos % frameBufferCache + m = frameBufferCache →
      s.halfPending = false ∧ s.copying = none) :
    s.pos + m ≤ k * frameBufferCache + 2 * frameBufferCache ∧
      Stage (DvpCamera.emit enc s m) f k := by
  have hle := Nat.le_add_right s.pos m
  have htwo : (k + 2) * frameBufferCache = k * frameBufferCache + 2 * frameBufferCache :=
    Nat.add_mul ..
  rw [DvpCamera.emit, if_pos hrunning]
  cases h with
  | idle copying busy half length lo hi =>
    have hone : (k + 1) * frameBufferCache < (k + 2) * frameBufferCache := by
      rw [frameBufferCache]
      omega
    obtain ⟨hfull, hpos⟩ | ⟨hroom, hpos⟩ := fill_cases lo hi hhalf
    · refine ⟨by omega, .filled copying busy ?_ length (Nat.le_of_eq hpos.symm)
        (Nat.lt_of_le_of_lt (Nat.le_of_eq hpos) hone)⟩
      dsimp only
      rw [decide_eq_true hfull, Bool.or_true]
    · refine ⟨by omega, .idle copying busy ?_ length (Nat.le_trans lo hle) hpos⟩
      dsimp only
      rw [half, decide_eq_false hroom, Bool.or_false]
  | filled copying busy half length lo hi =>
    obtain ⟨hfull, -⟩ | ⟨hroom, hpos⟩ := fill_cases lo hi hhalf
    · exact absurd ((hfill hfull).1.symm.trans half) Bool.false_ne_true
    · have hpos' : s.pos + m < (k + 2) * frameBufferCache := hpos
      refine ⟨by omega, .filled copying busy ?_ length (Nat.le_trans lo hle) hpos⟩
      dsimp only
      rw [half, Bool.true_or]
  | copying copying busy half length lo hi =>
    obtain ⟨hfull, -⟩ | ⟨hroom, hpos⟩ := fill_cases lo hi hhalf
    · have hnone := (hfill hfull).2
      rw [copying] at hnone
      cases hnone
    · have hpos' : s.pos + m < (k + 2) * frameBufferCache := hpos
      refine ⟨by omega, .copying copying busy ?_ length (Nat.le_trans lo hle) hpos⟩
      dsimp only
      rw [half, decide_eq_false hroom, Bool.or_false]

theorem Streaming.emit (h : Streaming frames enc s f n k) {m : Nat}
    (hsent : s.sent + m ≤ enc.size s.no)
    (hhalf : s.pos % frameBufferCache + m ≤ frameBufferCache) (hopen : s.eofPending = false)
    (hfill : s.pos % frameBufferCache + m = frameBufferCache →
      s.halfPending = false ∧ s.copying = none) :
    Streaming frames enc (DvpCamera.emit enc s m) f n k := by
  obtain ⟨hcarried, hrunning, hnoEof, hclock, hstage⟩ := h
  obtain ⟨hroom, hstage'⟩ : _ ∧ Stage (DvpCamera.emit enc s m) f k :=
    hstage.emit hrunning hhalf hfill
  obtain ⟨hno, hpos, -⟩ | ⟨-, -, hpending, -, -⟩ := hclock
  · rw [DvpCamera.emit, if_pos hrunning] at hstage' ⊢
    rw [hno, hpos] at hsent
    refine ⟨{ hcarried with size := hsent, holds := ?_ }, hrunning, hnoEof,
      .within hno (by dsimp only; rw [hpos]) hopen, hstage'⟩
    dsimp only
    rw [hpos, hno]
    exact hcarried.holds.write hhalf hroom
  · exact absurd (hopen.symm.trans hpending) Bool.false_ne_true

theorem Streaming.frameEnd (h : Streaming frames enc s f n k) (hsent : s.sent = enc.size s.no)
    (htrailer : jpegCrcSize ≤ enc.size s.no % frameBufferCache) :
    Streaming frames enc { s with no := s.no + 1, sent := 0, eofPending := true } f n k := by
  obtain ⟨hcarried, hrunning, hnoEof, hclock, hstage⟩ := h
  refine ⟨{ hcarried with }, hrunning, hnoEof, ?_, ?_⟩
  · obtain ⟨hno, hpos, -⟩ | ⟨-, hzero, -, -, -⟩ := hclock
    · rw [hpos, hno] at hsent
      rw [hno, ← hsent] at htrailer
      exact .ended (congrArg (· + 1) hno) rfl rfl hsent htrailer
    · rw [← hsent, hzero] at htrailer
      exact absurd htrailer (by decide)
  · cases hstage with
    | idle copying busy half length lo hi => exact .idle copying busy half length lo hi
    | filled copying busy half length lo hi => exact .filled copying busy half length lo hi
    | copying copying busy half length lo hi => exact .copying copying busy half length lo hi

theorem Sound.intact (h : Sound frames enc s) : ∀ d ∈ s.done, Intact enc d := by
  obtain ⟨f, n, k, h | h⟩ := h
  · exact h.carried.done
  · exact h.carried.done

variable [DecidableEq Frame]

theorem sound_initial {f : Frame} (hf : frames.hasData f = true)
    (length : Frame → Nat) (content : Frame → Nat → β) (buffer : Nat → β) :
    Sound frames enc (initial f length content buffer) :=
  ⟨f, 0, 0, .inl (streaming_start (usable_eq_some.mpr ⟨rfl, hf⟩) rfl rfl rfl nofun rfl rfl
    (.within rfl rfl rfl) rfl rfl rfl (update_self ..))⟩

theorem Streaming.dmaFinish (h : Streaming frames enc s f n k)
    (hfits : enc.size n < 2 ^ 32) (hhalf : s.halfPending = true) :
    Streaming frames enc (dvpCameraDmaFinishCallback frames { s with halfPending := false })
      f n k := by
  obtain ⟨hcarried, hrunning, hnoEof, hclock, hstage⟩ := h
  cases hstage with
  | idle copying busy half | copying copying busy half =>
    exact absurd (half.symm.trans hhalf) Bool.false_ne_true
  | filled copying busy half length lo hi =>
    have hsize := hcarried.size
    have hlen : addU32 (s.length f) frameBufferCache = (k + 1) * frameBufferCache := by
      rw [addU32, length, succ_mul, mod_eq_of_lt]
      rw [succ_mul] at lo
      omega
    rw [dvpCameraDmaFinishCallback]
    dsimp only
    rw [hcarried.curr]
    dsimp only
    rw [if_pos hcarried.noDrop]
    refine ⟨{ hcarried with }, hrunning, hnoEof, ?_, ?_⟩
    · obtain ⟨hno, hpos, hpending⟩ | ⟨hno, hzero, hpending, hpos, htrailer⟩ := hclock
      · exact .within hno hpos hpending
      · exact .ended hno hzero hpending hpos htrailer
    · refine .copying ?_ rfl rfl ?_ lo hi
      · dsimp only [addLength, dvpMemcpyByChnl]
        rw [hcarried.index, length]
      · dsimp only [addLength, dvpMemcpyByChnl]
        rw [update_self, hlen]

theorem Streaming.eofIrq (h : Streaming frames enc s f n k)
    (hfits : enc.size n < 2 ^ 32) (hpending : s.eofPending = true) (hhalf : s.halfPending = false) :
    Tail frames enc
      (dvpCameraEofHandler frames { s with eofPending := false, eofNo := s.no - 1 }) f n k := by
  obtain ⟨hcarried, -, -, hclock, hstage⟩ := h
  obtain ⟨-, -, hopen⟩ | ⟨hno, hzero, -, hpos, htrailer⟩ := hclock
  · exact absurd (hopen.symm.trans hpending) Bool.false_ne_true
  · have hleft := leftLength_eq htrailer
    have heofNo : s.no - 1 = n := by rw [hno, Nat.add_sub_cancel]
    rw [dvpCameraEofHandler]
    dsimp only [bkDmaGetRemainLen]
    rw [if_neg (not_not.mpr hcarried.noDrop), hcarried.curr, hleft]
    dsimp only
    cases hstage with
    | filled copying busy half => exact absurd (hhalf.symm.trans half) Bool.false_ne_true
    | idle copying busy half length lo hi =>
      rw [if_neg (by rw [busy]; exact Bool.false_ne_true)]
      have hmod := mod_add_half lo hi
      refine ⟨{ hcarried with }, rfl, rfl, rfl, heofNo, hno, hzero, rfl, hhalf, hpos,
        .last ?_ ?_ ?_ hi rfl⟩
      · dsimp only [addLength, dvpMemcpyByChnl]
        rw [hcarried.index, length, ← Nat.eq_sub_of_add_eq hmod]
      · dsimp only [addLength, dvpMemcpyByChnl]
        rw [update_self, addU32, length, mod_eq_of_lt (by omega)]
        omega
      · dsimp only [addLength, dvpMemcpyByChnl]
        omega
    | copying copying busy half length lo hi =>
      rw [if_pos busy]
      have hmod := mod_add_half lo hi
      refine ⟨{ hcarried with }, rfl, rfl, rfl, heofNo, hno, hzero, rfl, hhalf, hpos,
        .waiting copying length ?_ hi ?_⟩
      · dsimp only
        omega
      · have hlt : s.pos % frameBufferCache < frameBufferCache := mod_lt _ (by decide)
        dsimp only
        rw [← Nat.eq_sub_of_add_eq hmod, mod_eq_of_lt]
        exact Nat.lt_of_le_of_lt (sub_le _ _) (Nat.lt_trans hlt (by decide))

theorem Carried.copyBytes (h : Carried frames enc s f n k) {m len : Nat}
    (hm : m ≤ frameBufferCache) (hpos : k * frameBufferCache + m ≤ s.pos)
    (hlen : 0 < m → m ≤ dmaTransferLen len) : ∀ i < k * frameBufferCache + m,
      (copyBytes s ⟨f, k * frameBufferCache, parity k, len⟩).content f i = enc.output n i := by
  intro i hi
  dsimp only [DvpCamera.copyBytes]
  rw [update_self, halfBase_parity]
  by_cases hold : i < k * frameBufferCache
  · rw [write_of_lt hold]
    exact h.content i hold
  · obtain ⟨j, rfl⟩ := Nat.exists_eq_add_of_le (Nat.le_of_not_lt hold)
    have hj : j < m := by omega
    rw [write_add (Nat.lt_of_lt_of_le hj (hlen (by omega)))]
    exact h.holds.half (Nat.le_refl _) (by omega) (Nat.lt_of_lt_of_le hj hm)

theorem Carried.copyHalf (h : Carried frames enc s f n k)
    (hpos : (k + 1) * frameBufferCache ≤ s.pos) : ∀ i < (k + 1) * frameBufferCache,
      (DvpCamera.copyBytes s ⟨f, k * frameBufferCache, parity k,
        alignLen frameBufferCache⟩).content f i = enc.output n i := by
  rw [succ_mul] at hpos ⊢
  exact h.copyBytes (Nat.le_refl _) hpos fun _ => le_dmaTransferLen (Nat.le_refl _) (by decide)

theorem Streaming.memcpyFinish (h : Streaming frames enc s f n k)
    {c : Copy Frame} (hcopying : s.copying = some c) (alloc : Option Frame) :
    Streaming frames enc (dvpMemcpyFinishCallback frames alloc (DvpCamera.copyBytes s c))
      f n (k + 1) := by
  obtain ⟨hcarried, hrunning, hnoEof, hclock, hstage⟩ := h
  cases hstage with
  | idle copying | filled copying => cases copying.symm.trans hcopying
  | copying copying busy half length lo hi =>
    cases copying.symm.trans hcopying
    have hcontent := hcarried.copyHalf lo
    have hle : k * frameBufferCache ≤ (k + 1) * frameBufferCache :=
      Nat.mul_le_mul_right _ (le_succ k)
    rw [dvpMemcpyFinishCallback]
    dsimp only [DvpCamera.copyBytes] at hcontent ⊢
    rw [hnoEof]
    refine ⟨⟨hcarried.curr, hcarried.noDrop, ?_, hcarried.size, hcarried.holds.drop hle, hcontent,
      hcarried.done⟩, hrunning, rfl, ?_, .idle rfl rfl half length lo hi⟩
    · dsimp only
      rw [hcarried.index, not_parity]
    · obtain ⟨hno, hpos, hpending⟩ | ⟨hno, hzero, hpending, hpos, htrailer⟩ := hclock
      · exact .within hno hpos hpending
      · exact .ended hno hzero hpending hpos htrailer

theorem streaming_of_complete {g : Frame} {alloc : Option Frame}
    (hg : usable frames alloc = some g) (heof : s.eof = true) (hframe : s.frame = some f)
    (hleft : s.psramDmaLeft = 0) (hcopying : s.copying = none) (hdrop : s.dropCount = 0)
    (hno : s.no = s.eofNo + 1) (hsent : s.sent = 0) (hpending : s.eofPending = false)
    (hhalf : s.halfPending = false) (hdone : ∀ d ∈ s.done, Intact enc d)
    (hlength : s.length f + jpegCrcSize = enc.size s.eofNo)
    (hcontent : ∀ i < s.length f, s.content f i = enc.output s.eofNo i) :
    Streaming frames enc (dvpMemcpyFinishCallback frames alloc s) g (s.eofNo + 1) 0 := by
  rw [dvpMemcpyFinishCallback]
  dsimp only
  rw [heof, hframe]
  dsimp only
  rw [if_neg (not_not.mpr hleft), hg]
  dsimp only [isSome_some, bkDmaStart]
  exact streaming_start hg hdrop rfl rfl
    (List.forall_mem_append.mpr ⟨hdone, List.forall_mem_singleton.mpr ⟨hlength, hcontent⟩⟩) rfl rfl
    (.within hno hsent hpending) hcopying rfl hhalf (clearLength_some s.length g)

theorem dvpMemcpyFinishCallback_rest (alloc : Option Frame)
    (heof : s.eof = true) (hframe : s.frame = some f) (hrest : s.psramDmaLeft ≠ 0) :
    dvpMemcpyFinishCallback frames alloc s =
      { addLength (dvpMemcpyByChnl { s with psramDmaBusy := false, index := !s.index } f
          (s.length f) s.psramDmaLeft) f s.psramDmaLeft with psramDmaLeft := 0 } := by
  unfold dvpMemcpyFinishCallback
  dsimp only
  split
  · rename_i g heof' hframe'
    cases hframe.symm.trans hframe'
    exact if_pos hrest
  · rename_i hnot
    exact (hnot f heof hframe).elim

theorem Tail.memcpyFinish (h : Tail frames enc s f n k)
    (hfits : enc.size n < 2 ^ 32) {c : Copy Frame} (hcopying : s.copying = some c)
    {alloc : Option Frame} {g : Frame} (hg : usable frames alloc = some g) :
    Tail frames enc (dvpMemcpyFinishCallback frames alloc (DvpCamera.copyBytes s c)) f n (k + 1) ∨
      Streaming frames enc (dvpMemcpyFinishCallback frames alloc (DvpCamera.copyBytes s c))
        g (n + 1) 0 := by
  obtain ⟨hcarried, hrunning, heof, hframe, rfl, hno, hsent, hpending, hhalf, hpos, hstage⟩ := h
  cases hstage with
  | last copying length lo hi left =>
    cases copying.symm.trans hcopying
    have hm : s.pos - k * frameBufferCache - jpegCrcSize ≤ frameBufferCache := by
      rw [succ_mul] at hi
      omega
    have hcontent := hcarried.copyBytes hm (by omega) (le_dmaTransferLen hm)
    refine .inr (streaming_of_complete hg heof hframe left rfl hcarried.noDrop hno hsent hpending
      hhalf hcarried.done (length.trans hpos) fun i hi => hcontent i ?_)
    have hlen : i < s.length f := hi
    omega
  | waiting copying length lo hi left =>
    cases copying.symm.trans hcopying
    have hlo := le_of_add_right_le lo
    have hcontent := hcarried.copyHalf hlo
    obtain hzero | hrest := Decidable.eq_or_ne s.psramDmaLeft 0
    · refine .inr (streaming_of_complete hg heof hframe hzero rfl hcarried.noDrop hno hsent
        hpending hhalf hcarried.done ?_ fun i hi => hcontent i (length ▸ hi))
      dsimp only [DvpCamera.copyBytes]
      omega
    · left
      have hle : k * frameBufferCache ≤ (k + 1) * frameBufferCache :=
        Nat.mul_le_mul_right _ (le_succ k)
      rw [dvpMemcpyFinishCallback_rest (s := DvpCamera.copyBytes s _) alloc heof hframe hrest]
      refine ⟨⟨hcarried.curr, hcarried.noDrop, ?_, hcarried.size, hcarried.holds.drop hle,
        hcontent, hcarried.done⟩, hrunning, heof, hframe, rfl, hno, hsent, hpending, hhalf, hpos,
        .last ?_ ?_ lo hi rfl⟩
      · dsimp only [addLength, dvpMemcpyByChnl, DvpCamera.copyBytes]
        rw [hcarried.index, not_parity]
      · dsimp only [addLength, dvpMemcpyByChnl, DvpCamera.copyBytes]
        rw [hcarried.index, not_parity, length, left]
      · dsimp only [addLength, dvpMemcpyByChnl, DvpCamera.copyBytes]
        rw [update_self, addU32, length, left, mod_eq_of_lt (by omega)]
        omega

theorem Sound.step {s' : Dvp Frame β} {e : Event Frame}
    (hfits : ∀ n, enc.size n < 2 ^ 32) (h : Sound frames enc s) (hok : Served frames enc s e)
    (hs : step frames enc s e = some s') : Sound frames enc s' := by
  obtain ⟨f, n, k, h | h⟩ := h
  · cases e with
    | emit =>
      obtain ⟨hemit, rfl⟩ := ite_some_none_eq_some.mp hs
      obtain ⟨hfill, -, hopen⟩ := hok
      exact ⟨f, n, k, .inl (h.emit hemit.2.2.1 hemit.2.2.2 hopen hfill)⟩
    | frameEnd =>
      obtain ⟨hend, rfl⟩ := ite_some_none_eq_some.mp hs
      exact ⟨f, n, k, .inl (h.frameEnd hend.2 hok.2)⟩
    | dmaFinish =>
      obtain ⟨hhalf, rfl⟩ := ite_some_none_eq_some.mp hs
      exact ⟨f, n, k, .inl (h.dmaFinish (hfits n) hhalf)⟩
    | eofIrq =>
      obtain ⟨hpending, rfl⟩ := ite_some_none_eq_some.mp hs
      exact ⟨f, n, k, .inr (h.eofIrq (hfits n) hpending hok.2)⟩
    | memcpyFinish alloc =>
      rw [DvpCamera.step] at hs
      split at hs
      · rename_i c hcopying
        obtain rfl := Option.some.inj hs
        exact ⟨f, n, k + 1, .inl (h.memcpyFinish hcopying alloc)⟩
      · cases hs
  · cases e with
    | emit => exact absurd (h.running.symm.trans hok.2.1) Bool.false_ne_true
    | frameEnd =>
      rw [DvpCamera.step] at hs
      split at hs
      · rename_i hend
        -- a frame has at least its trailer, and nothing of the next one was put out
        have htrailer : jpegCrcSize ≤ enc.size s.no % frameBufferCache := hok.2
        rw [← hend.2, h.sent] at htrailer
        exact absurd htrailer (by decide)
      · cases hs
    | dmaFinish =>
      rw [DvpCamera.step, h.half] at hs
      cases hs
    | eofIrq =>
      rw [DvpCamera.step, h.pending] at hs
      cases hs
    | memcpyFinish =>
      rw [DvpCamera.step] at hs
      split at hs
      · rename_i c hcopying
        obtain rfl := Option.some.inj hs
        obtain ⟨g, hg⟩ := isSome_iff_exists.mp hok.1
        obtain htail | hnext := h.memcpyFinish (hfits n) hcopying hg
        · exact ⟨f, n, k + 1, .inr htail⟩
        · exact ⟨g, n + 1, 0, .inl hnext⟩
      · cases hs

end Invariant

section Runs

/-- In every run that is served so, every frame given to `frame_complete` has the length and the
bytes of the encoder's output for it without the trailer. -/
theorem intact_of_served {Frame β : Type} [DecidableEq Frame] {frames : Frames Frame}
    {enc : Encoder β} {f : Frame} {length : Frame → Nat} {content : Frame → Nat → β}
    {buffer : Nat → β} {s : Dvp Frame β} (hf : frames.hasData f = true)
    (hfits : ∀ n g, enc.size n ≤ frames.size g)
    (h : Reached (step frames enc) (Served frames enc) (initial f length content buffer) s) :
    ∀ d ∈ s.done, Intact enc d := by
  have hlt : ∀ n, enc.size n < 2 ^ 32 :=
    fun n => Nat.lt_of_le_of_lt (hfits n f) (frames.size_lt f)
  have hsound : Sound frames enc s :=
    h.invariant (Sound frames enc) (sound_initial hf length content buffer)
      fun _ _ _ hs hok hstep => hs.step hlt hok hstep
  exact hsound.intact

def encoderOf (size : Nat) : Encoder Nat := ⟨fun _ => size, fun _ i => i⟩

def blank {Frame : Type} [DecidableEq Frame] (f : Frame) : Dvp Frame Nat :=
  initial f (fun _ => 0) (fun _ _ => 0) fun _ => 0

def busyEnd {Frame : Type} (f : Frame) (rest : Nat) : List (Event Frame) :=
  [.emit 10240, .dmaFinish, .emit rest, .frameEnd, .eofIrq, .memcpyFinish (some f),
    .memcpyFinish (some f)]

theorem intact_of_served_one :
    ∃ s, Reached (step oneFrame (encoderOf 10250)) (Served oneFrame (encoderOf 10250)) (blank 0) s ∧
      s.done.map Done.length = [10245] ∧ ∀ d ∈ s.done, Intact (encoderOf 10250) d := by
  have hfits : ∀ n g, (encoderOf 10250).size n ≤ oneFrame.size g :=
    fun _ _ => (by decide : 10250 ≤ 150 * 1024)
  exact exists_reached_and (fun _ => intact_of_served rfl hfits) (busyEnd 0 10) (by decide +kernel)

theorem not_intact {β : Type} {enc : Encoder β} {s : Dvp (Fin 1) β} {no length : Nat}
    (hs : (s.done.any fun d => decide (d.no = no ∧ d.length = length)) = true)
    (hne : length + jpegCrcSize ≠ enc.size no) :
    ∃ d ∈ s.done, d.no = no ∧ d.length = length ∧ ¬ Intact enc d := by
  obtain ⟨d, hd, hlen⟩ := List.any_eq_true.mp hs
  obtain ⟨rfl, rfl⟩ := of_decide_eq_true hlen
  exact ⟨d, hd, rfl, rfl, fun hintact => hne hintact.1⟩

theorem frame_length_wraps :
    (∃ s, Reached (step oneFrame (encoderOf 10242)) (Timely oneFrame) (blank 0) s ∧
      ∃ d ∈ s.done, d.no = 0 ∧ d.length = 75773 ∧ ¬ Intact (encoderOf 10242) d) ∧
    ∃ s, Reached (step oneFrame (encoderOf 10250)) (Timely oneFrame) (blank 0) s ∧
      ∃ d ∈ s.done, d.no = 0 ∧ d.length = 5 ∧ ¬ Intact (encoderOf 10250) d := by
  constructor
  · obtain ⟨s, hreached, hs⟩ := exists_reached (step oneFrame (encoderOf 10242))
      (Timely oneFrame) (blank 0)
      (fun s => s.done.any fun d => decide (d.no = 0 ∧ d.length = 75773)) (busyEnd 0 2)
      (by decide +kernel)
    exact ⟨s, hreached, not_intact hs (by decide)⟩
  · obtain ⟨s, hreached, hs⟩ := exists_reached (step oneFrame (encoderOf 10250))
      (Timely oneFrame) (blank 0) (fun s => s.done.any fun d => decide (d.no = 0 ∧ d.length = 5))
      [.emit 10240, .emit 10, .frameEnd, .eofIrq, .memcpyFinish (some 0)] (by decide +kernel)
    exact ⟨s, hreached, not_intact hs (by decide)⟩

end Runs

end BekenSoc.DvpFrames
