import BekenSoc.CRuntime
import BekenSoc.CameraFrames
import BekenSoc.HandoverLogs
import BekenSoc.PingPongBuffers

/-!
The interrupts of `dvp_camera.c` in the cached JPEG mode, which is the one that
`bk_dvp_camera_driver_init` sets up, and the end of frame of the YUV mode.

The encoder puts out the bytes of one frame after the other.  One DMA channel moves them round a
buffer of two halves, with an interrupt at the end of each half, and starts at the first half when
it is started; another copies from the buffer to the frame.  A copy reads the buffer where its
interrupt is served.
-/

namespace BekenSoc.DvpCamera

open CRuntime CameraFrames HandoverLogs PingPongBuffers

def frameBufferCache : Nat := 1024 * 10

def jpegCrcSize : Nat := 5

structure Encoder (β : Type) where
  size : Nat → Nat
  output : Nat → Nat → β

structure Copy (Frame : Type) where
  frame : Frame
  offset : Nat
  half : Bool
  len : Nat
  deriving DecidableEq

structure Done (β : Type) where
  no : Nat
  length : Nat
  content : Nat → β

structure Dvp (Frame β : Type) where
  index : Bool
  eof : Bool
  psramDmaBusy : Bool
  psramDmaLeft : Nat
  dropCount : Nat
  frame : Option Frame
  /-- `curr_frame_buffer`, and the `length` and the bytes of each frame -/
  curr : Option Frame
  length : Frame → Nat
  content : Frame → Nat → β
  buffer : Nat → β
  /-- the channel of the encoder runs, and has moved so many bytes since it was started -/
  running : Bool
  pos : Nat
  /-- its interrupt is pending -/
  halfPending : Bool
  /-- the copy that the other channel does -/
  copying : Option (Copy Frame)
  encoderOn : Bool
  /-- the frame that the encoder puts out, and the bytes of it that it has put out -/
  no : Nat
  sent : Nat
  /-- the end of frame interrupt is pending -/
  eofPending : Bool
  /-- the frame whose end was served last -/
  eofNo : Nat
  done : List (Done β)
  /-- what `frame_alloc` returned and `frame_complete` was given -/
  log : List (Act Frame)

def alignLen (len : Nat) : Nat := if len % 4 ≠ 0 then (len / 4 + 1) * 4 % 2 ^ 32 else len

def halfBase (half : Bool) : Nat := if half then frameBufferCache else 0

section Functions

variable {Frame β : Type} [DecidableEq Frame]

def bkDmaStart (s : Dvp Frame β) : Dvp Frame β := { s with running := true, pos := 0 }

def bkDmaGetRemainLen (s : Dvp Frame β) : Nat := frameBufferCache - s.pos % frameBufferCache

def dvpMemcpyByChnl (s : Dvp Frame β) (f : Frame) (offset len : Nat) : Dvp Frame β :=
  { s with
    psramDmaBusy := true
    copying := some ⟨f, offset, s.index, alignLen len⟩ }

def addLength (s : Dvp Frame β) (f : Frame) (len : Nat) : Dvp Frame β :=
  { s with length := Function.update s.length f (addU32 (s.length f) len) }

def dvpMemcpyFinishCallback (frames : Frames Frame) (alloc : Option Frame) (s : Dvp Frame β) :
    Dvp Frame β :=
  let s := { s with psramDmaBusy := false, index := !s.index }
  match s.eof, s.frame with
  | true, some f =>
    if s.psramDmaLeft ≠ 0 then
      { addLength (dvpMemcpyByChnl s f (s.length f) s.psramDmaLeft) f s.psramDmaLeft with
        psramDmaLeft := 0 }
    else
      let s := { s with
        done := s.done ++ [⟨s.eofNo, s.length f, s.content f⟩]
        log := s.log ++ [.passed f] ++ alloc.toList.map .got
        index := false
        frame := none
        eof := false
        curr := alloc
        length := clearLength s.length (usable frames alloc) }
      if (usable frames alloc).isSome then bkDmaStart s else s
  | _, _ => s

def dvpCameraEofHandler (frames : Frames Frame) (s : Dvp Frame β) : Dvp Frame β :=
  let remainLength := subU32 frameBufferCache (bkDmaGetRemainLen s)
  let leftLength := subU32 remainLength jpegCrcSize
  if s.dropCount ≠ 0 then bkDmaStart { s with dropCount := s.dropCount - 1 }
  else
    match usable frames s.curr with
    | none => { s with running := false, encoderOn := false }
    | some f =>
      if s.psramDmaBusy then
        { s with
          frame := some f
          psramDmaLeft := leftLength % 2 ^ 16
          eof := true
          running := false }
      else
        { addLength (dvpMemcpyByChnl s f (s.length f) leftLength) f leftLength with
          frame := some f
          psramDmaLeft := 0
          eof := true
          running := false }

def dvpCameraDmaFinishCallback (frames : Frames Frame) (s : Dvp Frame β) : Dvp Frame β :=
  match usable frames s.curr with
  | none => s
  | some f =>
    if s.dropCount = 0 then
      addLength (dvpMemcpyByChnl s f (s.length f) frameBufferCache) f frameBufferCache
    else s

def copyBytes (s : Dvp Frame β) (c : Copy Frame) : Dvp Frame β :=
  { s with
    copying := none
    content := Function.update s.content c.frame
      (write (s.content c.frame) c.offset (dmaTransferLen c.len)
        fun i => s.buffer (halfBase c.half + i)) }

end Functions

inductive Event (Frame : Type)
  /-- the encoder puts out `n` bytes, which go to one half of the buffer -/
  | emit (n : Nat)
  /-- the encoder has put out a frame -/
  | frameEnd
  | dmaFinish
  | eofIrq
  /-- the copy is done and its interrupt served; `alloc` is what `frame_alloc` returns -/
  | memcpyFinish (alloc : Option Frame)

section Steps

variable {Frame β : Type} [DecidableEq Frame]

def emit (enc : Encoder β) (s : Dvp Frame β) (n : Nat) : Dvp Frame β :=
  if s.running then
    { s with
      sent := s.sent + n
      buffer := write s.buffer (s.pos % (2 * frameBufferCache)) n
        fun i => enc.output s.no (s.sent + i)
      pos := s.pos + n
      halfPending := s.halfPending || decide (s.pos % frameBufferCache + n = frameBufferCache) }
  else { s with sent := s.sent + n }

def step (frames : Frames Frame) (enc : Encoder β) (s : Dvp Frame β) :
    Event Frame → Option (Dvp Frame β)
  | .emit n =>
    if s.encoderOn = true ∧ 0 < n ∧ s.sent + n ≤ enc.size s.no ∧
        s.pos % frameBufferCache + n ≤ frameBufferCache then some (emit enc s n)
    else none
  | .frameEnd =>
    if s.encoderOn = true ∧ s.sent = enc.size s.no then
      some { s with no := s.no + 1, sent := 0, eofPending := true }
    else none
  | .dmaFinish =>
    if s.halfPending then
      some (dvpCameraDmaFinishCallback frames { s with halfPending := false })
    else none
  | .eofIrq =>
    if s.eofPending then
      some (dvpCameraEofHandler frames { s with eofPending := false, eofNo := s.no - 1 })
    else none
  | .memcpyFinish alloc =>
    match s.copying with
    | some c => some (dvpMemcpyFinishCallback frames alloc (copyBytes s c))
    | none => none

end Steps

def initial {Frame β : Type} [DecidableEq Frame] (f : Frame) (length : Frame → Nat)
    (content : Frame → Nat → β) (buffer : Nat → β) : Dvp Frame β where
  index := false
  eof := false
  psramDmaBusy := false
  psramDmaLeft := 0
  dropCount := 0
  frame := none
  curr := some f
  length := Function.update length f 0
  content := content
  buffer := buffer
  running := true
  pos := 0
  halfPending := false
  copying := none
  encoderOn := true
  no := 0
  sent := 0
  eofPending := false
  eofNo := 0
  done := []
  log := [.got f]

section Yuv

variable {Frame : Type}

structure Yuv (Frame : Type) where
  curr : Frame
  log : List (Act Frame)

/-- `dvp_camera_yuv_eof_handler`; without a new frame the current one stays. -/
def dvpCameraYuvEofHandler (s : Yuv Frame) (alloc : Option Frame) : Yuv Frame where
  curr := alloc.getD s.curr
  log := s.log ++ [.passed s.curr] ++ alloc.toList.map .got

def yuvRun (f : Frame) (allocs : List (Option Frame)) : Yuv Frame :=
  allocs.foldl dvpCameraYuvEofHandler ⟨f, [.got f]⟩

end Yuv

end BekenSoc.DvpCamera
