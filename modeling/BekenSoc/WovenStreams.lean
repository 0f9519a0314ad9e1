import Mathlib.Data.List.Basic

/-!
A stream into which packets are written whole, with single elements of a second queue
between them.

What was put into the two queues is compared with what has come out: the packets that are
left wait in their queue, and of the first one some elements may be in the stream already.
-/

namespace BekenSoc.WovenStreams

open List

variable {α : Type*}

inductive Weave : List (List α) → List α → List α → Prop
  | nil : Weave [] [] []
  | packet {packets : List (List α)} {echo stream : List α} (p : List α) :
      Weave packets echo stream → Weave (packets ++ [p]) echo (stream ++ p)
  | echo {packets : List (List α)} {echo stream : List α} (x : α) :
      Weave packets echo stream → Weave packets (echo ++ [x]) (stream ++ [x])

def Merged (pushed : List (List α)) (echoed sent : List α) (packets : List (List α))
    (echoes : List α) (place : Nat) : Prop :=
  ∃ done echo stream, pushed = done ++ packets ∧ echoed = echo ++ echoes ∧
    Weave done echo stream ∧ sent = stream ++ (packets.headD []).take place

variable {pushed packets : List (List α)} {echoed sent echoes p : List α} {place : Nat} {x : α}

theorem merged_nil : Merged ([] : List (List α)) [] [] [] [] 0 := ⟨[], [], [], rfl, rfl, .nil, rfl⟩

theorem Merged.push (h : Merged pushed echoed sent packets echoes place) (p : List α)
    (hplace : packets = [] → place = 0) :
    Merged (pushed ++ [p]) echoed sent (packets ++ [p]) echoes place := by
  obtain ⟨done, echo, stream, rfl, hechoed, hweave, hsent⟩ := h
  refine ⟨done, echo, stream, append_assoc .., hechoed, hweave, ?_⟩
  cases packets with
  | nil =>
    rw [hplace rfl] at hsent ⊢
    exact hsent
  | cons => exact hsent

theorem Merged.echo (h : Merged pushed echoed sent packets echoes place) (x : α) :
    Merged pushed (echoed ++ [x]) sent packets (echoes ++ [x]) place := by
  obtain ⟨done, echo, stream, hpushed, rfl, hweave, hsent⟩ := h
  exact ⟨done, echo, stream, hpushed, append_assoc .., hweave, hsent⟩

theorem Merged.sendEcho (h : Merged pushed echoed sent packets (x :: echoes) 0) :
    Merged pushed echoed (sent ++ [x]) packets echoes 0 := by
  obtain ⟨done, echo, stream, hpushed, rfl, hweave, rfl⟩ := h
  refine ⟨done, echo ++ [x], stream ++ [x], hpushed, ?_, hweave.echo x, ?_⟩
  · rw [append_assoc]
    rfl
  · rw [take_zero, append_nil, append_nil]

theorem Merged.sendNext (h : Merged pushed echoed sent (p :: packets) echoes place)
    (hx : p[place]? = some x) :
    Merged pushed echoed (sent ++ [x]) (p :: packets) echoes (place + 1) := by
  obtain ⟨done, echo, stream, hpushed, hechoed, hweave, rfl⟩ := h
  refine ⟨done, echo, stream, hpushed, hechoed, hweave, ?_⟩
  rw [headD_cons, take_add_one, hx, append_assoc]
  rfl

theorem Merged.complete (h : Merged pushed echoed sent (p :: packets) echoes place)
    (hplace : p.length ≤ place) : Merged pushed echoed sent packets echoes 0 := by
  obtain ⟨done, echo, stream, rfl, hechoed, hweave, rfl⟩ := h
  refine ⟨done ++ [p], echo, stream ++ p, ?_, hechoed, hweave.packet p, ?_⟩
  · rw [append_assoc]
    rfl
  · rw [headD_cons, take_of_length_le hplace, take_zero, append_nil]

theorem Weave.stream_nil {stream : List α} (h : Weave [] [] stream) : stream = [] := by
  generalize hpackets : ([] : List (List α)) = packets at h
  generalize hecho : ([] : List α) = echo at h
  cases h with
  | nil => rfl
  | packet =>
    have hlen := congrArg length hpackets
    rw [length_append] at hlen
    cases hlen
  | echo =>
    have hlen := congrArg length hecho
    rw [length_append] at hlen
    cases hlen

end BekenSoc.WovenStreams
