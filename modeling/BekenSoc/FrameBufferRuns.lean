import BekenSoc.FrameBufferLists
import BekenSoc.GuardedRuns
import BekenSoc.PartyTally

/-!
Runs of the frame buffers, and where each frame is.

A party is somebody that has a frame, or a call that has not returned.  What a
callback does before it returns is done by other parties, between two steps of the
completion that has called it.
-/

namespace BekenSoc.FrameBufferRuns

open GuardedRuns PartyTally FrameBuffer FrameBufferLists

inductive Party
  /-- has allocated the frame -/
  | producer (f : Nat)
  /-- `frame_buffer_complete_notify`, with the modules that it has still to ask -/
  | notifying (f : Nat) (rest : List FrameModule)
  /-- was notified of the frame -/
  | consumer (f : Nat) (m : FrameModule)
  /-- `frame_buffer_free_request` before it frees the frame, called by a producer or not -/
  | freeing (f : Nat) (m : FrameModule) (producer : Bool)
  /-- `frame_buffer_free_request` after that -/
  | clearing (m : FrameModule)
  deriving DecidableEq

structure Run where
  store : Store
  parties : List Party

inductive Action
  | complete
  | free
  | request (m : FrameModule)
  /-- a call goes on -/
  | go
  deriving DecidableEq

inductive Event
  | alloc (type : FrameType)
  | act (p : Party) (a : Action)
  | register (m : FrameModule) (callback : Option Nat)
  | deregister (m : FrameModule)
  | setPpi (ppi : UInt32) (type : FrameType)
  deriving DecidableEq

def frameBufferFreeRequest (s : Store) (caller : Party) (f : Nat) (m : FrameModule)
    (producer : Bool) : Store × List Party :=
  if (s.nodes f).lock = 0 then (s, [caller]) else (s, [.freeing f m producer])

def act (cfg : Config) (s : Store) : Party → Action → Option (Store × List Party)
  | .producer f, .complete =>
    (frameBufferGenerateComplete s f (s.nodes f).type).map fun r =>
      (r.1, r.2.toList.map fun g => .notifying g (notifiedModules cfg (r.1.nodes g).type))
  | .producer f, .free => some (frameBufferFreeFrame s f, [])
  | .producer f, .request m => some (frameBufferFreeRequest s (.producer f) f m true)
  | .consumer f m, .request m' =>
    if m' = m then some (frameBufferFreeRequest s (.consumer f m) f m false) else none
  | .notifying f (m :: rest), .go =>
    if wantsFrame s m then some (notifyModule s f m, [.consumer f m, .notifying f rest])
    else some (s, [.notifying f rest])
  | .notifying f [], .go => some (frameBufferFreeFrame s f, [])
  | .freeing f m _, .go => some (frameBufferFreeFrame s f, [.clearing m])
  | .clearing m, .go => some (clearModuleLock s m, [])
  | _, _ => none

def step (cfg : Config) (r : Run) : Event → Option Run
  | .alloc type =>
    let a := frameBufferAlloc r.store type
    some ⟨a.1, a.2.toList.map Party.producer ++ r.parties⟩
  | .act p a =>
    if p ∈ r.parties then
      (act cfg r.store p a).map fun n => ⟨n.1, becomes r.parties p n.2⟩
    else none
  | .register m callback => some { r with store := frameBufferFrameRegister r.store m callback }
  | .deregister m => some { r with store := frameBufferFrameDeregister r.store m }
  | .setPpi ppi type => some { r with store := frameBufferSetPpi cfg r.store ppi type }

def Run.start : Run := ⟨Store.start, []⟩

def smallBoard : Config where
  lcd := true
  jpegEncFrameCount := 3
  displayFrameCount := 2
  display720pFrameCount := 1
  psramMap := ⟨⟨0, 10⟩, ⟨30, 100⟩⟩
  psram720pMap := ⟨⟨0, 20⟩, ⟨60, 200⟩⟩

def ppi640X480 : UInt32 := 640 * 65536 + 480

def Party.frame? : Party → Option Nat
  | .producer f => some f
  | .notifying f _ => some f
  | .consumer f _ => some f
  | .freeing f _ _ => some f
  | .clearing _ => none

def Party.size : Party → Nat
  | .producer _ => 4
  | .notifying _ rest => 1 + rest.length
  | _ => 1

def holding (f : Nat) (p : Party) : Nat := if p.frame? = some f then 1 else 0

def Run.holders (r : Run) (f : Nat) : Nat := tally (holding f) r.parties

def Run.places (r : Run) (f : Nat) : Nat := linked r.store f + min 1 (r.holders f)

/-- Each frame is linked once or held, not both, and its lock is the number of its holders;
a list has frames of its type only.  While a completion notifies the modules it is a holder
too; outside of these sections the holders are producers and consumers. -/
def FramesAccounted (r : Run) : Prop :=
  ∀ f < r.store.used, r.places f = 1 ∧ (r.store.nodes f).lock.toNat = r.holders f ∧
    ∀ t, f ∈ r.store.freeList t ∨ f ∈ r.store.readyList t → (r.store.nodes f).type = t

section Actions

variable {cfg : Config} {s s' : Store} {p : Party} {a : Action} {next : List Party}

inductive Acts (cfg : Config) (s : Store) : Party → Action → Store → List Party → Prop
  | ready {f : Nat} {s' : Store}
      (h : frameBufferGenerateComplete s f (s.nodes f).type = some (s', none)) :
      Acts cfg s (.producer f) .complete s' []
  | complete {f g : Nat} {s' : Store}
      (h : frameBufferGenerateComplete s f (s.nodes f).type = some (s', some g)) :
      Acts cfg s (.producer f) .complete s' [.notifying g (notifiedModules cfg (s'.nodes g).type)]
  | free (f : Nat) : Acts cfg s (.producer f) .free (frameBufferFreeFrame s f) []
  | refused {p : Party} {a : Action} {f : Nat} (hf : p.frame? = some f) : Acts cfg s p a s [p]
  | requestProducer (f : Nat) (m : FrameModule) :
      Acts cfg s (.producer f) (.request m) s [.freeing f m true]
  | requestConsumer (f : Nat) (m : FrameModule) :
      Acts cfg s (.consumer f m) (.request m) s [.freeing f m false]
  | notify {f : Nat} {m : FrameModule} {rest : List FrameModule} (h : wantsFrame s m = true) :
      Acts cfg s (.notifying f (m :: rest)) .go (notifyModule s f m)
        [.consumer f m, .notifying f rest]
  | skip (f : Nat) (m : FrameModule) (rest : List FrameModule) :
      Acts cfg s (.notifying f (m :: rest)) .go s [.notifying f rest]
  | notified (f : Nat) : Acts cfg s (.notifying f []) .go (frameBufferFreeFrame s f) []
  | freed (f : Nat) (m : FrameModule) (producer : Bool) :
      Acts cfg s (.freeing f m producer) .go (frameBufferFreeFrame s f) [.clearing m]
  | cleared (m : FrameModule) : Acts cfg s (.clearing m) .go (clearModuleLock s m) []

theorem frameBufferFreeRequest_cases {f : Nat} {m : FrameModule} {producer : Bool}
    (hf : p.frame? = some f) (hacts : Acts cfg s p a s [.freeing f m producer])
    (h : frameBufferFreeRequest s p f m producer = (s', next)) : Acts cfg s p a s' next := by
  rw [frameBufferFreeRequest] at h
  split at h
  · cases h
    exact .refused hf
  · cases h
    exact hacts

theorem act_cases (h : act cfg s p a = some (s', next)) : Acts cfg s p a s' next := by
  cases p with
  | producer f =>
    cases a with
    | complete =>
      obtain ⟨⟨s₁, g⟩, hgen, heq⟩ := Option.map_eq_some_iff.mp h
      cases heq
      cases g with
      | none => exact .ready hgen
      | some => exact .complete hgen
    | free => cases h; exact .free f
    | request m => exact frameBufferFreeRequest_cases rfl (.requestProducer f m) (Option.some.inj h)
    | go => cases h
  | notifying f rest =>
    cases rest with
    | nil => cases a <;> cases h; exact .notified f
    | cons m rest =>
      cases a <;> try cases h
      simp only [act] at h
      split at h
      · cases h
        exact .notify ‹_›
      · cases h
        exact .skip f m rest
  | consumer f =>
    cases a <;> try cases h
    rename_i m'
    simp only [act] at h
    split at h
    · rename_i heq
      subst heq
      exact frameBufferFreeRequest_cases rfl (.requestConsumer f m') (Option.some.inj h)
    · cases h
  | freeing f m producer => cases a <;> cases h; exact .freed f m producer
  | clearing m => cases a <;> cases h; exact .cleared m

end Actions

end BekenSoc.FrameBufferRuns
