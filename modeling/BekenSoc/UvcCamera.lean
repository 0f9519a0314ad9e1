import BekenSoc.CRuntime
import BekenSoc.CameraFrames
import BekenSoc.HandoverLogs

/-!
The video stream of `uvc_camera.c`: packets that the USB host receives, their copies into the
current frame, and the frames handed over at their end.

A packet is received into the ring buffer by one DMA channel, whose finish interrupt processes it,
and copied from there by another, whose finish interrupt may come at any later time or, when the
channel is started again first, not at all.
-/

namespace BekenSoc.UvcCamera

open CRuntime CameraFrames HandoverLogs

def usbUvcHeadLen : UInt32 := 12

def rxbufLen : UInt32 := 1024 * 5 * 2

structure Copy (Frame : Type) where
  frame : Frame
  offset : Nat
  len : Nat
  deriving DecidableEq

structure Head where
  info : UInt8
  first : UInt8
  second : UInt8

structure Uvc (Frame : Type) where
  frameFlag : UInt8
  sof : Bool
  eof : Bool
  rxReadLen : UInt32
  uvcTransferLen : UInt32
  /-- the packet is being received -/
  receiving : Bool
  frame : Option Frame
  /-- `curr_frame_buffer`, and the `length` of each frame -/
  curr : Option Frame
  length : Frame → Nat
  /-- the copies whose finish interrupt has not been served -/
  pending : Nat
  /-- every copy that was started -/
  copies : List (Copy Frame)
  /-- what `frame_alloc` returned and `frame_complete` was given -/
  log : List (Act Frame)

def fackLen (frameLen : Nat) : Nat :=
  if frameLen &&& 3 ≠ 0 then ((frameLen >>> 2) + 1) <<< 2 % 2 ^ 32 else frameLen

section Functions

variable {Frame : Type} [DecidableEq Frame] (frames : Frames Frame)

def uvcCameraMemcpyFinishCallback (alloc : Option Frame) (s : Uvc Frame) : Uvc Frame :=
  if s.eof then
    if s.sof then
      { s with
        log := s.log ++ s.frame.toList.map .passed ++ alloc.toList.map .got
        frame := none
        eof := false
        sof := false
        curr := alloc
        length := clearLength s.length (usable frames alloc) }
    else { s with length := clearLength s.length s.curr }
  else s

def toggle (s : Uvc Frame) (f : Frame) (info : UInt8) : Uvc Frame :=
  if s.frameFlag ≠ info &&& 0x01 then
    if s.sof || s.eof then
      { s with
        frameFlag := info &&& 0x01
        sof := false
        eof := false
        length := Function.update s.length f 0 }
    else { s with frameFlag := info &&& 0x01 }
  else s

def startsFrame (head : Head) (frameLen : Nat) : Bool :=
  decide (0 < frameLen) && decide (head.first = 0xff) && decide (head.second = 0xd8)

def mark (s : Uvc Frame) (f : Frame) (head : Head) (frameLen : Nat) : Uvc Frame :=
  if head.info &&& 0x02 ≠ 0 then { s with eof := true, frame := some f }
  else if startsFrame head frameLen then { s with sof := true }
  else s

def uvcMemcpyByChnl (s : Uvc Frame) (f : Frame) (frameLen : Nat) : Uvc Frame :=
  { s with
    pending := s.pending + 1
    copies := s.copies ++ [⟨f, s.length f, dmaTransferLen (fackLen frameLen)⟩]
    length := Function.update s.length f (addU32 (s.length f) frameLen) }

def uvcProcessDataPacket (alloc : Option Frame) (s : Uvc Frame) (head : Head) (frameLen : Nat) :
    Uvc Frame :=
  match usable frames s.curr with
  | none => s
  | some f =>
    if head.info &&& 0x40 ≠ 0 then s
    else
      let s := mark (toggle s f head.info) f head frameLen
      if 0 < frameLen then uvcMemcpyByChnl s f frameLen
      else uvcCameraMemcpyFinishCallback frames alloc s

def uvcCameraDmaFinishCallback (alloc : Option Frame) (s : Uvc Frame) (head : Head) : Uvc Frame :=
  let alreadyLen := s.rxReadLen + s.uvcTransferLen
  { uvcProcessDataPacket frames alloc s head (s.uvcTransferLen - usbUvcHeadLen).toNat with
    receiving := false
    rxReadLen := if rxbufLen ≤ alreadyLen then 0 else alreadyLen }

end Functions

def uvcGetPacketRxVsCallback {Frame : Type} (s : Uvc Frame) (count : UInt32) : Uvc Frame :=
  { s with
    receiving := true
    uvcTransferLen := count
    rxReadLen := if rxbufLen - s.rxReadLen < count then 0 else s.rxReadLen }

inductive Event (Frame : Type)
  | rx (count : UInt32)
  | dmaFinish (head : Head) (alloc : Option Frame)
  | memcpyFinish (alloc : Option Frame)

def step {Frame : Type} [DecidableEq Frame] (frames : Frames Frame) (s : Uvc Frame) :
    Event Frame → Option (Uvc Frame)
  | .rx count => some (uvcGetPacketRxVsCallback s count)
  | .dmaFinish head alloc =>
    if s.receiving then some (uvcCameraDmaFinishCallback frames alloc s head) else none
  | .memcpyFinish alloc =>
    if 0 < s.pending then
      some (uvcCameraMemcpyFinishCallback frames alloc { s with pending := s.pending - 1 })
    else none

def initial {Frame : Type} [DecidableEq Frame] (f : Frame) (rxReadLen : UInt32)
    (length : Frame → Nat) : Uvc Frame where
  frameFlag := 0x80
  sof := false
  eof := false
  rxReadLen := rxReadLen
  uvcTransferLen := 0
  receiving := false
  frame := none
  curr := some f
  length := Function.update length f 0
  pending := 0
  copies := []
  log := [.got f]

section Ownership

variable {Frame : Type} {frames : Frames Frame} {s : Uvc Frame}

def EofOwned (frames : Frames Frame) (s : Uvc Frame) : Prop :=
  s.eof = true → ∃ f, usable frames s.curr = some f ∧ s.frame = some f

theorem mark_curr (s : Uvc Frame) (f : Frame) (head : Head) (frameLen : Nat) :
    (mark s f head frameLen).curr = s.curr ∧ (mark s f head frameLen).length = s.length ∧
      (mark s f head frameLen).log = s.log ∧ (mark s f head frameLen).copies = s.copies := by
  unfold mark
  split
  · exact ⟨rfl, rfl, rfl, rfl⟩
  · split
    · exact ⟨rfl, rfl, rfl, rfl⟩
    · exact ⟨rfl, rfl, rfl, rfl⟩

theorem EofOwned.mark (h : EofOwned frames s) {f : Frame} (hf : usable frames s.curr = some f)
    (head : Head) (frameLen : Nat) : EofOwned frames (mark s f head frameLen) := by
  unfold UvcCamera.mark
  split
  · exact fun _ => ⟨f, hf, rfl⟩
  · split
    · exact h
    · exact h

variable [DecidableEq Frame]

theorem toggle_curr (s : Uvc Frame) (f : Frame) (info : UInt8) :
    (toggle s f info).curr = s.curr ∧ (toggle s f info).frame = s.frame ∧
      ((toggle s f info).eof = true → s.eof = true) ∧ (toggle s f info).log = s.log ∧
      (toggle s f info).copies = s.copies := by
  unfold toggle
  split
  · split
    · exact ⟨rfl, rfl, nofun, rfl, rfl⟩
    · exact ⟨rfl, rfl, id, rfl, rfl⟩
  · exact ⟨rfl, rfl, id, rfl, rfl⟩

theorem EofOwned.toggle (h : EofOwned frames s) (f : Frame) (info : UInt8) :
    EofOwned frames (toggle s f info) := by
  obtain ⟨hcurr, hframe, heof, -⟩ := toggle_curr s f info
  intro hend
  rw [hcurr, hframe]
  exact h (heof hend)

theorem EofOwned.memcpyFinish (h : EofOwned frames s) (alloc : Option Frame) :
    EofOwned frames (uvcCameraMemcpyFinishCallback frames alloc s) := by
  unfold uvcCameraMemcpyFinishCallback
  split
  · split
    · exact nofun
    · exact h
  · exact h

end Ownership

end BekenSoc.UvcCamera
