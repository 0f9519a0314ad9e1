import Mathlib.Algebra.Group.Nat.Defs
import Mathlib.Logic.Function.Basic

/-!
The frames that the camera drivers get from `frame_alloc` and hand over to `frame_complete`.
-/

namespace BekenSoc.CameraFrames

structure Frames (Frame : Type) where
  size : Frame → Nat
  size_lt : ∀ f, size f < 2 ^ 32
  /-- the pointer to the data is not `NULL` -/
  hasData : Frame → Bool

variable {Frame : Type} {frames : Frames Frame}

def usable (frames : Frames Frame) (frame : Option Frame) : Option Frame :=
  frame.filter frames.hasData

theorem usable_eq_some {frame : Option Frame} {f : Frame} :
    usable frames frame = some f ↔ frame = some f ∧ frames.hasData f = true :=
  Option.filter_eq_some_iff

def clearLength [DecidableEq Frame] (length : Frame → Nat) (frame : Option Frame) : Frame → Nat :=
  match frame with
  | some f => Function.update length f 0
  | none => length

theorem clearLength_some [DecidableEq Frame] (length : Frame → Nat) (f : Frame) :
    clearLength length (some f) f = 0 := Function.update_self ..

/-- The bytes that a DMA channel moves: the register of the length keeps 16 bits of `len - 1`. -/
def dmaTransferLen (len : Nat) : Nat := (len + (2 ^ 16 - 1)) % 2 ^ 16 + 1

theorem dmaTransferLen_le {len : Nat} (h : 0 < len) : dmaTransferLen len ≤ len := by
  rw [dmaTransferLen]
  omega

def oneFrame : Frames (Fin 1) := ⟨fun _ => 150 * 1024, fun _ => by decide, fun _ => true⟩

end BekenSoc.CameraFrames
