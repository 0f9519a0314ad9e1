import BekenSoc.BitMasks

/-!
The two interrupt handlers of `timer_driver.c` on a chip with `SOC_TIMER_INTERRUPT_NUM` two, one
register access at a time, so that a channel can become pending between any two of them.

The interrupt flag of a channel is cleared by writing one to it.  The flags of a group are bits of
one control register, and writing a bit field writes the rest of the register back; whether that
clears the other flags that are set depends on the hardware and is a parameter.
-/

namespace BekenSoc.TimerDriver

open BitMasks

def chanNumPerUnit : Nat := 6

def chanNumPerGroup : Nat := 3

inductive Line
  | timer
  | timer1
  deriving DecidableEq, Repr

def firstChan : Line → Nat
  | .timer => 0
  | .timer1 => chanNumPerGroup

def endChan : Line → Nat
  | .timer => chanNumPerGroup
  | .timer1 => chanNumPerUnit

inductive Phase
  | idle
  | reading (line : Line) (status : BitVec 32) (bitPos : Nat)
  | clearing (line : Line) (status : BitVec 32) (id : Nat)
  | rereading (line : Line) (status : BitVec 32) (id : Nat)
  | dispatching (line : Line) (status : BitVec 32) (chan : Nat)
  deriving DecidableEq

structure Timer where
  pending : Nat → Bool
  phase : Phase
  /-- how often a handler has cleared the pending flag of a channel -/
  cleared : Nat → Nat
  /-- how often the callback of a channel was called -/
  invoked : Nat → Nat

def hits (writeBack : Bool) (id chan : Nat) : Bool :=
  chan == id || (writeBack && chan / chanNumPerGroup == id / chanNumPerGroup)

def writeFlag (writeBack : Bool) (s : Timer) (id : Nat) : Timer :=
  { s with
    pending := fun c => s.pending c && !hits writeBack id c
    cleared := fun c => s.cleared c + (s.pending c && hits writeBack id c).toNat }

theorem writeFlag_pending (writeBack : Bool) (s : Timer) (id c : Nat) :
    (writeFlag writeBack s id).pending c = (s.pending c && !hits writeBack id c) := rfl

def handlerStep (writeBack : Bool) (registered : Nat → Bool) (s : Timer) : Option Timer :=
  match s.phase with
  | .idle => none
  | .reading line status bitPos =>
    let status' := if s.pending bitPos then setBit status bitPos else status
    some { s with
      phase := if bitPos + 1 < chanNumPerUnit then .reading line status' (bitPos + 1)
        else .clearing line status' 0 }
  | .clearing line status id =>
    if id < chanNumPerUnit then
      if status.getLsbD id then
        some { writeFlag writeBack s id with phase := .rereading line status id }
      else some { s with phase := .clearing line status (id + 1) }
    else some { s with phase := .dispatching line status (firstChan line) }
  | .rereading line status id =>
    -- the loop writes again while the flag reads as set
    some { s with phase := .clearing line status (if s.pending id then id else id + 1) }
  | .dispatching line status chan =>
    if chan < endChan line then
      some { s with
        invoked := if status.getLsbD chan && registered chan then
          Function.update s.invoked chan (s.invoked chan + 1) else s.invoked
        phase := .dispatching line status (chan + 1) }
    else some { s with phase := .idle }

inductive Event
  /-- a channel becomes pending -/
  | expire (chan : Nat)
  /-- the handler of a line is entered -/
  | interrupt (line : Line)
  | handler
  deriving DecidableEq

def step (writeBack : Bool) (registered : Nat → Bool) (s : Timer) : Event → Option Timer
  | .expire chan =>
    if chan < chanNumPerUnit then some { s with pending := Function.update s.pending chan true }
    else none
  | .interrupt line =>
    match s.phase with
    | .idle => some { s with phase := .reading line 0#32 0 }
    | _ => none
  | .handler => handlerStep writeBack registered s

end BekenSoc.TimerDriver
