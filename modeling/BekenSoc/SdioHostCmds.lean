import BekenSoc.GuardedRuns
import BekenSoc.SdioHost

/-!
Commands and their responses at the SDIO host.

The responses go through a queue that a wait which has run out leaves as it is, and what is taken
from it is not compared with the command.
-/

namespace BekenSoc.SdioHostCmds

open GuardedRuns SdioHost List

structure Return where
  /-- the command that was sent last, by its number -/
  sent : Nat
  result : HostErr
  /-- the command whose response was taken from the queue -/
  used : Option Nat
  deriving DecidableEq

structure System where
  host : Host
  /-- the commands that were sent -/
  sent : Nat
  /-- the commands whose end was reported -/
  ended : List Nat
  /-- in `rtos_pop_from_queue` -/
  waiting : Bool
  returns : List Return
  deriving DecidableEq

def initial : System := ⟨bkSdioHostDriverInit, 0, [], false, []⟩

inductive Event
  /-- `bk_sdio_host_send_command` -/
  | send
  /-- a call of `bk_sdio_host_wait_cmd_response` -/
  | wait
  | read
  | expire
  | irq (status : IntStatus)
  deriving DecidableEq

def readMsg (s : System) : List IntStatus → Option System
  | [] => none
  | msg :: rest =>
    some { s with
      host := { s.host with irqCmdMsg := rest }
      waiting := false
      returns := s.returns ++ [⟨s.sent, .bkOk, some msg.command⟩] }

def possible (s : System) (status : IntStatus) : Bool :=
  !reportsCmd status ||
    (0 < status.command && status.command ≤ s.sent && !s.ended.contains status.command)

def serveIrq (s : System) (status : IntStatus) : System :=
  { s with
    host := sdioHostIsr s.host status
    ended := if reportsCmd status then s.ended ++ [status.command] else s.ended }

def step (s : System) : Event → Option System
  | .send => if s.waiting then none else some { s with sent := s.sent + 1 }
  | .wait => if s.waiting then none else some { s with waiting := true }
  | .read => if s.waiting then readMsg s s.host.irqCmdMsg else none
  | .expire =>
    if s.waiting = true ∧ s.host.irqCmdMsg = [] then
      some { s with
        waiting := false
        returns := s.returns ++ [⟨s.sent, .cmdRspTimeout, none⟩] }
    else none
  | .irq status => if possible s status then some (serveIrq s status) else none

/-- No response is left over when a command is sent, and a response that comes is that of the
command sent last. -/
def InTime (s : System) : Event → Prop
  | .send => s.host.irqCmdMsg = []
  | .irq status => reportsCmd status = true → status.command = s.sent
  | _ => True

instance (s : System) (e : Event) : Decidable (InTime s e) :=
  match e with
  | .send => inferInstanceAs (Decidable (_ = _))
  | .irq _ => inferInstanceAs (Decidable (_ → _))
  | .wait | .read | .expire => isTrue trivial

def Return.Matches (r : Return) : Prop := r.result = .bkOk → r.used = some r.sent

structure Matched (s : System) : Prop where
  queue : ∀ msg ∈ s.host.irqCmdMsg, msg.command = s.sent
  returns : ∀ r ∈ s.returns, r.Matches

variable {s s' : System} {e : Event} {status : IntStatus}

theorem matched_initial : Matched initial :=
  ⟨fun _ h => absurd h not_mem_nil, fun _ h => absurd h not_mem_nil⟩

theorem Matched.readMsg {queue : List IntStatus} (h : Matched s)
    (hqueue : s.host.irqCmdMsg = queue) (hread : readMsg s queue = some s') : Matched s' := by
  cases queue with
  | nil => cases hread
  | cons msg =>
    cases hread
    have hcommand := hqueue ▸ h.queue
    refine ⟨fun m hm => hcommand m (mem_cons_of_mem _ hm), ?_⟩
    refine forall_mem_append.mpr ⟨h.returns, forall_mem_singleton.mpr ?_⟩
    intro _
    exact congrArg some (hcommand msg mem_cons_self)

theorem Matched.serveIrq (h : Matched s) (hok : InTime s (.irq status)) :
    Matched (serveIrq s status) := by
  refine ⟨?_, h.returns⟩
  change ∀ msg ∈ (sdioHostIsr s.host status).irqCmdMsg, msg.command = s.sent
  rw [sdioHostIsr_irqCmdMsg]
  split
  · rename_i hreports
    unfold pushCmdMsg
    split
    · exact forall_mem_append.mpr ⟨h.queue, forall_mem_singleton.mpr (hok hreports)⟩
    · exact h.queue
  · exact h.queue

theorem Matched.step (h : Matched s) (hok : InTime s e) (hstep : step s e = some s') :
    Matched s' := by
  cases e with
  | send =>
    simp only [SdioHostCmds.step] at hstep
    split at hstep <;> cases hstep
    refine ⟨fun msg hmsg => ?_, h.returns⟩
    rw [show s.host.irqCmdMsg = [] from hok] at hmsg
    exact absurd hmsg not_mem_nil
  | wait =>
    simp only [SdioHostCmds.step] at hstep
    split at hstep <;> cases hstep
    exact ⟨h.queue, h.returns⟩
  | read =>
    simp only [SdioHostCmds.step] at hstep
    split at hstep
    · exact h.readMsg rfl hstep
    · cases hstep
  | expire =>
    simp only [SdioHostCmds.step] at hstep
    split at hstep <;> cases hstep
    refine ⟨h.queue, forall_mem_append.mpr ⟨h.returns, forall_mem_singleton.mpr fun hresult => ?_⟩⟩
    cases hresult
  | irq =>
    simp only [SdioHostCmds.step] at hstep
    split at hstep <;> cases hstep
    exact h.serveIrq hok

/-- Every command that returns `BK_OK` has used its own response. -/
theorem responses_match (h : Reached step InTime initial s) : ∀ r ∈ s.returns, r.Matches :=
  (h.invariant Matched matched_initial fun _ _ _ hs hok hstep => hs.step hok hstep).returns

def cmdEnd (command : Nat) : IntStatus :=
  { IntStatus.none with cmdRsp := true, cmdEnd := true, cmdRspCrcOk := true, command }

theorem responses_match_two : ∃ s, Reached step InTime initial s ∧
      s.returns = [⟨1, .bkOk, some 1⟩, ⟨2, .bkOk, some 2⟩] ∧ ∀ r ∈ s.returns, r.Matches :=
  exists_reached_and (fun _ => responses_match)
    [.send, .wait, .irq (cmdEnd 1), .read, .send, .irq (cmdEnd 2), .wait, .read] (by decide)

theorem response_late : ∃ s, Reached step anyStep initial s ∧ ⟨2, .bkOk, some 1⟩ ∈ s.returns :=
  exists_reached _ _ _ _ [.send, .wait, .expire, .irq (cmdEnd 1), .send, .wait, .read] (by decide)

end BekenSoc.SdioHostCmds
