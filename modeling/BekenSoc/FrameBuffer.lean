import BekenSoc.CRuntime

/-!
The frame buffers of the media component (`media/comm/frame_buffer.c`).

A frame node is known by the number of its allocation.  The four list headers are
the lists of the nodes linked into them, in order; the memory of a node is a range
of PSRAM addresses.
-/

namespace BekenSoc.FrameBuffer

open Function

inductive FrameState
  | invalid
  | alloced
  | framed
  deriving DecidableEq

inductive FrameType
  | display
  | jpeg
  deriving DecidableEq

inductive FrameModule
  | decoder
  | wifi
  | recoder
  | capture
  | display
  deriving DecidableEq

structure Frame where
  state : FrameState
  type : FrameType
  lock : UInt8
  frame : Nat
  size : Nat

structure ModuleInfo where
  register : Bool
  lock : Bool
  compCb : Option Nat

structure SlotArray where
  base : Nat
  size : Nat

def SlotArray.slot (a : SlotArray) (i : Nat) : Nat := a.base + i * a.size

structure PsramMap where
  jpegEnc : SlotArray
  display : SlotArray

structure Config where
  lcd : Bool
  jpegEncFrameCount : Nat
  displayFrameCount : Nat
  display720pFrameCount : Nat
  psramMap : PsramMap
  psram720pMap : PsramMap

structure Store where
  nodes : Nat → Frame
  /-- the number of nodes that `os_malloc` has returned -/
  used : Nat
  /-- the nodes given back with `os_free` -/
  freed : List Nat
  freeList : FrameType → List Nat
  readyList : FrameType → List Nat
  info : FrameModule → ModuleInfo
  minimalLayout : Bool

def Store.setNode (s : Store) (f : Nat) (node : Frame) : Store :=
  { s with nodes := update s.nodes f node }

def Store.setInfo (s : Store) (m : FrameModule) (i : ModuleInfo) : Store :=
  { s with info := update s.info m i }

def Store.linkFree (s : Store) (t : FrameType) (f : Nat) : Store :=
  { s with freeList := update s.freeList t (s.freeList t ++ [f]) }

def Store.linkReady (s : Store) (t : FrameType) (f : Nat) : Store :=
  { s with readyList := update s.readyList t (s.readyList t ++ [f]) }

def takeFirst (test : Nat → Bool) : List Nat → Option (Nat × List Nat)
  | [] => none
  | f :: list =>
    if test f then some (f, list)
    else (takeFirst test list).map fun r => (r.1, f :: r.2)

def frameBufferLockFrame (s : Store) (f : Nat) : Store :=
  s.setNode f { s.nodes f with lock := (s.nodes f).lock + 1 }

def freeLocked (s : Store) (f : Nat) (lock : UInt8) : Store :=
  if lock = 0 then
    (s.setNode f { s.nodes f with lock := lock, state := .framed }).linkFree (s.nodes f).type f
  else s.setNode f { s.nodes f with lock := lock }

def frameBufferFreeFrame (s : Store) (f : Nat) : Store :=
  if (s.nodes f).lock ≠ 0 then freeLocked s f ((s.nodes f).lock - 1)
  else if (s.freeList (s.nodes f).type).any
      fun g => decide ((s.nodes g).frame = (s.nodes f).frame) then s
  else freeLocked s f (s.nodes f).lock

def Store.hold (s : Store) (f : Nat) : Store :=
  s.setNode f { s.nodes f with state := .alloced, lock := (s.nodes f).lock + 1 }

def frameBufferAlloc (s : Store) (type : FrameType) : Store × Option Nat :=
  match takeFirst (fun g => decide ((s.nodes g).state ≠ .alloced)) (s.freeList type) with
  | some (f, rest) => (({ s with freeList := update s.freeList type rest }).hold f, some f)
  | none =>
    match takeFirst (fun g => decide ((s.nodes g).state ≠ .alloced)) (s.readyList type) with
    | some (f, rest) => (({ s with readyList := update s.readyList type rest }).hold f, some f)
    | none => (s, none)

def frameBufferPushFrame (s : Store) (f : Nat) : Store :=
  (s.setNode f { s.nodes f with lock := (s.nodes f).lock - 1, state := .framed }).linkReady
    (s.nodes f).type f

/-- Without a framed node in the list the code goes on with a null pointer. -/
def frameBufferPopFrame (s : Store) (type : FrameType) : Option (Store × Nat) :=
  (takeFirst (fun g => decide ((s.nodes g).state = .framed)) (s.readyList type)).map fun r =>
    (({ s with readyList := update s.readyList type r.2 }).hold r.1, r.1)

def wantsFrame (s : Store) (m : FrameModule) : Bool :=
  (s.info m).register && !(s.info m).lock && (s.info m).compCb.isSome

def notifiedModules (cfg : Config) : FrameType → List FrameModule
  | .jpeg => if cfg.lcd then [.wifi, .decoder, .capture] else [.wifi, .capture]
  | .display => if cfg.lcd then [.display] else []

/-- A notified module: the frame is locked for it before its callback is called.  The
display module may have any number of frames, its flag is never set. -/
def notifyModule (s : Store) (f : Nat) (m : FrameModule) : Store :=
  match m with
  | .display => frameBufferLockFrame s f
  | m => (frameBufferLockFrame s f).setInfo m { s.info m with lock := true }

def isWorkflowFreezing (s : Store) : FrameType → Bool
  | .jpeg => !(wantsFrame s .wifi || wantsFrame s .decoder || wantsFrame s .capture)
  | .display => !wantsFrame s .display

def frameBufferGenerateComplete (s : Store) (f : Nat) (type : FrameType) :
    Option (Store × Option Nat) :=
  let s' := frameBufferPushFrame s f
  if isWorkflowFreezing s' type then some (s', none)
  else (frameBufferPopFrame s' type).map fun r => (r.1, some r.2)

def frameBufferFrameRegister (s : Store) (m : FrameModule) (callback : Option Nat) : Store :=
  match m with
  | .wifi | .decoder | .recoder =>
    s.setInfo m { s.info m with register := true, compCb := callback }
  | .capture | .display => s.setInfo m ⟨true, false, callback⟩

def frameBufferFrameDeregister (s : Store) (m : FrameModule) : Store :=
  s.setInfo m ⟨false, false, none⟩

def clearModuleLock (s : Store) (m : FrameModule) : Store :=
  match m with
  | .wifi | .decoder | .display => s.setInfo m { s.info m with lock := false }
  | .recoder | .capture => s

def dropFreeList (s : Store) (type : FrameType) : Store :=
  match s.freeList type with
  | [] => s
  | f :: _ => { s with freed := f :: s.freed, freeList := update s.freeList type [] }

def dropReadyList (s : Store) (type : FrameType) : Store :=
  match s.readyList type with
  | [] => s
  | f :: _ => { s with freed := f :: s.freed, readyList := update s.readyList type [] }

def addFrame (s : Store) (type : FrameType) (slots : SlotArray) (i : Nat) : Store :=
  (({ s with used := s.used + 1 }).setNode s.used
    ⟨.invalid, type, 0, slots.slot i, slots.size⟩).linkFree type s.used

def addFrames (s : Store) (type : FrameType) (slots : SlotArray) : Nat → Store
  | 0 => s
  | count + 1 => addFrame (addFrames s type slots count) type slots count

def frameInit (s : Store) (type : FrameType) (slots : SlotArray) (count : Nat) : Store :=
  addFrames (dropReadyList (dropFreeList s type) type) type slots count

def frameBufferJpegFrameInit (cfg : Config) (s : Store) : Store :=
  if s.minimalLayout then frameInit s .jpeg cfg.psramMap.jpegEnc cfg.jpegEncFrameCount
  else frameInit s .jpeg cfg.psram720pMap.jpegEnc cfg.jpegEncFrameCount

def frameBufferDisplayFrameInit (cfg : Config) (s : Store) : Store :=
  if s.minimalLayout then frameInit s .display cfg.psramMap.display cfg.displayFrameCount
  else frameInit s .display cfg.psram720pMap.display cfg.display720pFrameCount

def ppiToPixelX (ppi : UInt32) : Nat := (ppi.toNat / 2 ^ 16) % 2 ^ 16

def ppiToPixelY (ppi : UInt32) : Nat := ppi.toNat % 2 ^ 16

def fitsMinimalLayout (ppi : UInt32) : Bool :=
  decide ((BitVec.ofNat 32 (ppiToPixelX ppi * ppiToPixelY ppi)).toInt ≤ 800 * 600)

def frameBufferSetPpi (cfg : Config) (s : Store) (ppi : UInt32) (type : FrameType) : Store :=
  let s := { s with minimalLayout := fitsMinimalLayout ppi }
  match type with
  | .jpeg => frameBufferJpegFrameInit cfg s
  | .display => frameBufferDisplayFrameInit cfg s

def Store.start : Store where
  nodes := fun _ => ⟨.invalid, .display, 0, 0, 0⟩
  used := 0
  freed := []
  freeList := fun _ => []
  readyList := fun _ => []
  info := fun _ => ⟨false, false, none⟩
  minimalLayout := true

end BekenSoc.FrameBuffer
