import Mathlib.Data.Fintype.Basic
import BekenSoc.CRuntime

/-!
The messages of `media_app.c` and `media_major.c`: callers that send a message to the media task and
wait for its reply, other senders that do not wait, and the task with its queue.

The handlers of the camera, the display, the storage, the transfer and the audio are not part of
the sources; which of their events they reply to is a parameter.
-/

namespace BekenSoc.MediaMessages

open Function CRuntime

def msgQueueSize : Nat := 60

structure Config where
  dualCore : Bool
  camera : Bool
  usbUvc : Bool
  audio : Bool
  lcd : Bool
  wifiTransfer : Bool

inductive Mask
  | com
  | cam
  | aud
  | lcd
  | storage
  | trs
  | exit
  | queue
  | mailboxCmd
  | mailboxEvt
  | other
  deriving DecidableEq, Repr

def maskOf (event : Nat) : Mask :=
  match event >>> 16 with
  | 1 => .com
  | 2 => .cam
  | 3 => .aud
  | 4 => .lcd
  | 5 => .storage
  | 6 => .trs
  | 7 => .exit
  | 8 => .queue
  | 9 => .mailboxCmd
  | 10 => .mailboxEvt
  | _ => .other

structure Msg (Caller : Type) where
  event : Nat
  sender : Option Caller
  deriving DecidableEq

def answered (config : Config) (replies : Nat → Bool) (event : Nat) : Bool :=
  replies event &&
    match maskOf event with
    | .cam => config.camera || config.usbUvc
    | .aud => config.audio
    | .lcd => config.lcd
    | .storage => config.camera
    | .trs => config.wifiTransfer
    | .mailboxEvt => config.dualCore
    | _ => false

/-- The media task: not running, waiting for a message, or handling one that it may have replied
to. -/
inductive MajorTask (Caller : Type)
  | absent
  | waiting
  | handling (msg : Msg Caller) (replied : Bool)
  deriving DecidableEq

inductive Pc
  | idle
  | sending (event : Nat)
  | waiting
  deriving DecidableEq

structure Media (Caller : Type) where
  /-- `media_major_msg_queue`, `none` for `NULL` -/
  queue : Option (List (Msg Caller))
  /-- `media_major_th_hd` is not `NULL` -/
  thread : Bool
  task : MajorTask Caller
  pc : Caller → Pc
  /-- the semaphore of a caller's `param_pak` is set -/
  sem : Caller → Bool

section Functions

variable {Caller : Type}

def push (queue : Option (List (Msg Caller))) (msg : Msg Caller) :
    BkErr × Option (List (Msg Caller)) :=
  match queue with
  | some q => if q.length < msgQueueSize then (.ok, some (q ++ [msg])) else (.fail, some q)
  | none => (.ok, none)

/-- `media_send_msg`; `mailbox` is what `mb_chnl_write` returns.  Without a queue nothing is sent
and the result is still `BK_OK`. -/
def mediaSendMsg (config : Config) (mailbox : BkErr) (queue : Option (List (Msg Caller)))
    (msg : Msg Caller) : BkErr × Option (List (Msg Caller)) :=
  if config.dualCore && decide (maskOf msg.event = .mailboxEvt) then (.fail, queue)
  else if config.dualCore && decide (maskOf msg.event = .mailboxCmd) then (mailbox, queue)
  else push queue msg

def mediaMajorInit (s : Media Caller) (queueOk threadOk : Bool) : BkErr × Media Caller :=
  if s.queue.isSome || s.thread then (.ok, { s with queue := none })
  else if !queueOk then (.fail, s)
  else if !threadOk then (.fail, s)
  else (.ok, { s with queue := some [], thread := true, task := .waiting })

end Functions

inductive Event (Caller : Type)
  | init (queueOk threadOk : Bool)
  /-- `media_send_msg_sync` up to its call of `media_send_msg` -/
  | call (c : Caller) (event : Nat) (mallocOk semOk : Bool)
  | send (c : Caller) (mailbox : BkErr)
  /-- the semaphore is taken and the call returns -/
  | wake (c : Caller)
  /-- another sender, which does not wait -/
  | post (event : Nat) (mailbox : BkErr)
  | mailboxRxIsr (event : Nat)
  | pop
  | reply
  | finish

section Steps

variable {Caller : Type} [DecidableEq Caller]

def replyTo (sem : Caller → Bool) : Option Caller → Caller → Bool
  | some c => update sem c true
  | none => sem

def step (config : Config) (replies : Nat → Bool) (s : Media Caller) :
    Event Caller → Option (Media Caller)
  | .init queueOk threadOk => some (mediaMajorInit s queueOk threadOk).2
  | .call c event mallocOk semOk =>
    if s.pc c = .idle then
      if mallocOk && semOk then
        some { s with
          pc := update s.pc c (.sending event)
          sem := update s.sem c false }
      else some s
    else none
  | .send c mailbox =>
    match s.pc c with
    | .sending event =>
      -- the result of `media_send_msg` is not looked at
      some { s with
        queue := (mediaSendMsg config mailbox s.queue ⟨event, some c⟩).2
        pc := update s.pc c .waiting }
    | _ => none
  | .wake c =>
    if s.pc c = .waiting ∧ s.sem c = true then
      some { s with pc := update s.pc c .idle }
    else none
  | .post event mailbox =>
    some { s with queue := (mediaSendMsg config mailbox s.queue ⟨event, none⟩).2 }
  | .mailboxRxIsr event =>
    if config.dualCore && config.camera && decide (maskOf event = .mailboxEvt) then
      some { s with queue := (push s.queue ⟨event, none⟩).2 }
    else none
  | .pop =>
    match s.task, s.queue with
    | .waiting, some (msg :: q) => some { s with queue := some q, task := .handling msg false }
    | _, _ => none
  | .reply =>
    match s.task with
    | .handling msg false =>
      if answered config replies msg.event then
        some { s with task := .handling msg true, sem := replyTo s.sem msg.sender }
      else none
    | _ => none
  | .finish =>
    match s.task with
    | .handling msg replied =>
      if maskOf msg.event = .exit then some { s with queue := none, task := .absent }
      else if answered config replies msg.event && !replied then none
      else some { s with task := .waiting }
    | _ => none

end Steps

end BekenSoc.MediaMessages
