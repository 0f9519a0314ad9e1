import BekenSoc.GuardedRuns
import BekenSoc.MediaMessages

namespace BekenSoc.MediaReplies

open Function CRuntime GuardedRuns MediaMessages List Bool

section Flight

variable {Caller : Type}

def handled : MajorTask Caller → List (Msg Caller)
  | .handling msg false => [msg]
  | _ => []

def msgs (s : Media Caller) : List (Msg Caller) := handled s.task ++ s.queue.getD []

def flight (s : Media Caller) : List Caller := (msgs s).filterMap Msg.sender

def Blocked (s : Media Caller) (c : Caller) : Prop := s.pc c = .waiting ∧ s.sem c = false

def InFlight (s : Media Caller) (c : Caller) : Prop :=
  (∃ q, s.queue = some q ∧ ∃ m ∈ q, m.sender = some c) ∨
    ∃ m replied, s.task = .handling m replied ∧ m.sender = some c

theorem mem_flight {s : Media Caller} {c : Caller} :
    c ∈ flight s ↔ ∃ m ∈ msgs s, m.sender = some c := mem_filterMap

theorem inFlight_of_mem {s : Media Caller} {c : Caller} (h : c ∈ flight s) : InFlight s c := by
  obtain ⟨m, hm, hsender⟩ := mem_flight.mp h
  obtain hm | hm := mem_append.mp hm
  · cases htask : s.task with
    | absent | waiting => rw [htask] at hm; cases hm
    | handling msg replied =>
      cases replied with
      | true => rw [htask] at hm; cases hm
      | false =>
        rw [htask] at hm
        cases mem_singleton.mp hm
        exact .inr ⟨m, false, htask, hsender⟩
  · cases hqueue : s.queue with
    | none => rw [hqueue] at hm; cases hm
    | some q =>
      rw [hqueue] at hm
      exact .inl ⟨q, hqueue, m, hm, hsender⟩

def stranded [DecidableEq Caller] (s : Media Caller) (c : Caller) : Bool :=
  decide (s.pc c = .waiting) && !s.sem c && decide (c ∉ flight s) &&
    match s.task with
    | .handling m true => decide (m.sender ≠ some c)
    | _ => true

theorem not_inFlight_of_stranded [DecidableEq Caller] {s : Media Caller} {c : Caller}
    (h : stranded s c = true) : Blocked s c ∧ ¬ InFlight s c := by
  rw [stranded, and_eq_true, and_eq_true, and_eq_true, decide_eq_true_iff,
    not_eq_true', decide_eq_true_iff] at h
  obtain ⟨⟨⟨hpc, hsem⟩, hflight⟩, htask⟩ := h
  refine ⟨⟨hpc, hsem⟩, ?_⟩
  rintro (⟨q, hq, m, hm, hsender⟩ | ⟨m, replied, hm, hsender⟩)
  · refine hflight (mem_flight.mpr ⟨m, ?_, hsender⟩)
    rw [msgs, hq]
    exact mem_append_right _ hm
  · cases replied with
    | true =>
      rw [hm, decide_eq_true_iff] at htask
      exact htask hsender
    | false =>
      refine hflight (mem_flight.mpr ⟨m, ?_, hsender⟩)
      rw [msgs, hm]
      exact mem_cons_self

end Flight

section Guard

variable {Caller : Type}

/-- A caller sends only to a queue with room, an event that its handler replies to, and not while
the task is told to exit; the task is told to exit only when no caller is inside a call, and
`media_major_init` is called only without a queue. -/
def Answerable (config : Config) (replies : Nat → Bool) (s : Media Caller) : Event Caller → Prop
  | .init _ _ => s.queue = none
  | .send c _ =>
    match s.queue, s.pc c with
    | some q, .sending event => q.length < msgQueueSize ∧ answered config replies event = true ∧
        (config.dualCore = false ∨ maskOf event ≠ .mailboxEvt) ∧
        ∀ m ∈ msgs s, maskOf m.event ≠ .exit
    | _, _ => False
  | .post event _ => maskOf event = .exit → ∀ c, s.pc c = .idle
  | _ => True

instance [Fintype Caller] (config : Config) (replies : Nat → Bool) (s : Media Caller)
    (e : Event Caller) : Decidable (Answerable config replies s e) :=
  match e with
  | .init .. => inferInstanceAs (Decidable (_ = _))
  | .send c _ =>
    match hqueue : s.queue, hpc : s.pc c with
    | some q, .sending event =>
      decidable_of_iff (q.length < msgQueueSize ∧ answered config replies event = true ∧
        (config.dualCore = false ∨ maskOf event ≠ .mailboxEvt) ∧
        ∀ m ∈ msgs s, maskOf m.event ≠ .exit) (by rw [Answerable, hqueue, hpc])
    | none, _ | some _, .idle | some _, .waiting => isFalse (by simp [Answerable, hqueue, hpc])
  | .post .. => inferInstanceAs (Decidable (_ → ∀ _, _))
  | .call .. | .wake .. | .mailboxRxIsr .. | .pop | .reply | .finish => isTrue trivial

def TaskOnly (_ : Media Caller) : Event Caller → Prop
  | .pop | .reply | .finish => True
  | _ => False

def initial (Caller : Type) : Media Caller where
  queue := none
  thread := false
  task := .absent
  pc := fun _ => .idle
  sem := fun _ => false

end Guard

section Invariant

variable {Caller : Type} {config : Config} {replies : Nat → Bool} {s s' : Media Caller}

structure Sound (config : Config) (replies : Nat → Bool) (s : Media Caller) : Prop where
  running : s.queue = none ↔ s.task = .absent
  nodup : (flight s).Nodup
  waits : ∀ c, c ∈ flight s ↔ Blocked s c
  unset : ∀ c event, s.pc c = .sending event → s.sem c = false
  answers : ∀ m ∈ msgs s, m.sender ≠ none → answered config replies m.event = true
  replied : ∀ m, s.task = .handling m true → answered config replies m.event = true
  exits : (∃ m ∈ msgs s, maskOf m.event = .exit) → flight s = []

theorem maskOf_ne_exit {event : Nat} (h : answered config replies event = true) :
    maskOf event ≠ .exit := by
  intro hexit
  rw [answered, hexit, Bool.and_false] at h
  cases h

theorem sound_initial : Sound config replies (initial Caller) where
  running := ⟨fun _ => rfl, fun _ => rfl⟩
  nodup := nodup_nil
  waits := fun _ => ⟨nofun, fun h => absurd h.1 nofun⟩
  unset := fun _ _ _ => rfl
  answers := nofun
  replied := nofun
  exits := fun _ => rfl

theorem Sound.move [DecidableEq Caller] (h : Sound config replies s) (c : Caller) (pc : Pc)
    (sem : Bool) (hfree : ¬ Blocked s c) (hpc : pc ≠ .waiting)
    (hsem : ∀ event, pc = .sending event → sem = false) : Sound config replies { s with
      pc := update s.pc c pc
      sem := update s.sem c sem } where
  running := h.running
  nodup := h.nodup
  waits := by
    intro d
    by_cases hd : d = c
    · subst hd
      refine ⟨fun hmem => absurd ((h.waits d).mp hmem) hfree, ?_⟩
      rintro ⟨hwaiting, -⟩
      dsimp only at hwaiting
      rw [update_self] at hwaiting
      exact absurd hwaiting hpc
    · rw [Blocked]
      dsimp only
      rw [update_of_ne hd, update_of_ne hd]
      exact h.waits d
  unset := by
    intro d event hd
    dsimp only at hd ⊢
    by_cases heq : d = c
    · rw [heq, update_self] at hd
      rw [heq, update_self]
      exact hsem event hd
    · rw [update_of_ne heq] at hd ⊢
      exact h.unset d event hd
  answers := h.answers
  replied := h.replied
  exits := h.exits

theorem Sound.requeue (h : Sound config replies s) (hpc : s'.pc = s.pc) (hsem : s'.sem = s.sem)
    (hflight : flight s' = flight s) (hrunning : s'.queue = none ↔ s'.task = .absent)
    (hanswers : ∀ m ∈ msgs s', m.sender ≠ none → answered config replies m.event = true)
    (hreplied : ∀ m, s'.task = .handling m true → answered config replies m.event = true)
    (hexits : (∃ m ∈ msgs s', maskOf m.event = .exit) → flight s = []) :
    Sound config replies s' where
  running := hrunning
  nodup := hflight ▸ h.nodup
  waits := by
    intro c
    rw [hflight, Blocked, hpc, hsem]
    exact h.waits c
  unset := by
    rw [hpc, hsem]
    exact h.unset
  answers := hanswers
  replied := hreplied
  exits := by
    rw [hflight]
    exact hexits

theorem push_cases (queue : Option (List (Msg Caller))) (msg : Msg Caller) :
    (push queue msg).2 = queue ∨ ∃ q, queue = some q ∧ (push queue msg).2 = some (q ++ [msg]) := by
  cases queue with
  | none => exact .inl rfl
  | some q =>
    rw [push]
    split
    · exact .inr ⟨q, rfl, rfl⟩
    · exact .inl rfl

theorem mediaSendMsg_cases (config : Config) (mailbox : BkErr) (queue : Option (List (Msg Caller)))
    (msg : Msg Caller) : (mediaSendMsg config mailbox queue msg).2 = queue ∨
      ∃ q, queue = some q ∧ (mediaSendMsg config mailbox queue msg).2 = some (q ++ [msg]) := by
  unfold mediaSendMsg
  split
  · exact .inl rfl
  · split
    · exact .inl rfl
    · exact push_cases queue msg

theorem msgs_append {q : List (Msg Caller)} (hqueue : s.queue = some q) (msg : Msg Caller) :
    msgs { s with queue := some (q ++ [msg]) } = msgs s ++ [msg] := by
  rw [msgs, msgs, hqueue, append_assoc]
  rfl

theorem Sound.post (h : Sound config replies s) {event : Nat} {queue : Option (List (Msg Caller))}
    (hqueue : queue = s.queue ∨ ∃ q, s.queue = some q ∧ queue = some (q ++ [⟨event, none⟩]))
    (hok : maskOf event = .exit → ∀ c, s.pc c = .idle) :
    Sound config replies { s with queue := queue } := by
  obtain rfl | ⟨q, hq, rfl⟩ := hqueue
  · exact h
  · have hmsgs := msgs_append hq ⟨event, none⟩
    have hflight : flight { s with queue := some (q ++ [⟨event, none⟩]) } = flight s := by
      rw [flight, hmsgs, filterMap_append]
      exact append_nil _
    refine h.requeue rfl rfl hflight ?_ ?_ h.replied ?_
    · refine ⟨nofun, fun habsent => ?_⟩
      rw [h.running.mpr habsent] at hq
      cases hq
    · rw [hmsgs]
      refine forall_mem_append.mpr ⟨h.answers, forall_mem_singleton.mpr ?_⟩
      exact fun hne => absurd rfl hne
    · rw [hmsgs]
      rintro ⟨m, hm, hexit⟩
      obtain hm | hm := mem_append.mp hm
      · exact h.exits ⟨m, hm, hexit⟩
      · cases mem_singleton.mp hm
        rw [eq_nil_iff_forall_not_mem]
        intro c hc
        have hwaiting := ((h.waits c).mp hc).1
        rw [hok hexit c] at hwaiting
        cases hwaiting

theorem mediaSendMsg_of_answerable {event : Nat} {q : List (Msg Caller)} (mailbox : BkErr)
    (hlen : q.length < msgQueueSize) (hanswered : answered config replies event = true)
    (hmailbox : config.dualCore = false ∨ maskOf event ≠ .mailboxEvt) (sender : Option Caller) :
    (mediaSendMsg config mailbox (some q) ⟨event, sender⟩).2 = some (q ++ [⟨event, sender⟩]) := by
  have hevt : (config.dualCore && decide (maskOf event = .mailboxEvt)) = false := by
    rw [and_eq_false_iff, decide_eq_false_iff_not]
    exact hmailbox
  have hcmd : maskOf event ≠ .mailboxCmd := by
    intro heq
    rw [answered, heq, Bool.and_false] at hanswered
    cases hanswered
  unfold mediaSendMsg
  dsimp only
  rw [hevt, if_neg Bool.false_ne_true, decide_eq_false hcmd, Bool.and_false,
    if_neg Bool.false_ne_true, push, if_pos hlen]

theorem Sound.send [DecidableEq Caller] (h : Sound config replies s) {c : Caller} {event : Nat}
    {q : List (Msg Caller)} (hpc : s.pc c = .sending event) (hqueue : s.queue = some q)
    (hanswered : answered config replies event = true)
    (hexit : ∀ m ∈ msgs s, maskOf m.event ≠ .exit) : Sound config replies { s with
      queue := some (q ++ [⟨event, some c⟩])
      pc := update s.pc c .waiting } := by
  have hmsgs : msgs { s with
      queue := some (q ++ [⟨event, some c⟩])
      pc := update s.pc c .waiting } = msgs s ++ [⟨event, some c⟩] :=
    msgs_append hqueue ⟨event, some c⟩
  have hflight : flight { s with
      queue := some (q ++ [⟨event, some c⟩])
      pc := update s.pc c .waiting } = flight s ++ [c] := by
    rw [flight, hmsgs, filterMap_append]
    rfl
  have hnew : c ∉ flight s := by
    intro hmem
    have hwaiting := ((h.waits c).mp hmem).1
    rw [hpc] at hwaiting
    cases hwaiting
  constructor
  · refine ⟨nofun, fun habsent => ?_⟩
    rw [h.running.mpr habsent] at hqueue
    cases hqueue
  · rw [hflight]
    exact nodup_append.mpr ⟨h.nodup, nodup_singleton c, fun a ha b hb heq => by
      cases mem_singleton.mp hb
      exact hnew (heq ▸ ha)⟩
  · intro d
    rw [hflight, mem_append, mem_singleton]
    by_cases hd : d = c
    · subst hd
      refine ⟨fun _ => ⟨?_, h.unset d event hpc⟩, fun _ => .inr rfl⟩
      dsimp only
      rw [update_self]
    · rw [Blocked]
      dsimp only
      rw [update_of_ne hd, or_iff_left hd]
      exact h.waits d
  · intro d e hd
    dsimp only at hd
    by_cases heq : d = c
    · rw [heq, update_self] at hd
      cases hd
    · rw [update_of_ne heq] at hd
      exact h.unset d e hd
  · rw [hmsgs]
    exact forall_mem_append.mpr ⟨h.answers, forall_mem_singleton.mpr fun _ => hanswered⟩
  · exact h.replied
  · rw [hmsgs]
    rintro ⟨m, hm, hmask⟩
    obtain hm | hm := mem_append.mp hm
    · exact absurd hmask (hexit m hm)
    · cases mem_singleton.mp hm
      exact absurd hmask (maskOf_ne_exit hanswered)

theorem Sound.reply [DecidableEq Caller] (h : Sound config replies s) {msg : Msg Caller}
    (htask : s.task = .handling msg false) (hanswered : answered config replies msg.event = true) :
    Sound config replies
      { s with task := .handling msg true, sem := replyTo s.sem msg.sender } := by
  have hrest : msgs s = msg :: msgs
      { s with task := .handling msg true, sem := replyTo s.sem msg.sender } := by
    rw [msgs, htask]
    rfl
  have hsub : ∀ m ∈ msgs { s with task := .handling msg true, sem := replyTo s.sem msg.sender },
      m ∈ msgs s := by
    intro m hm
    rw [hrest]
    exact mem_cons_of_mem msg hm
  have hrunning : s.queue = none ↔ MajorTask.handling msg true = .absent := by
    refine ⟨fun hnone => ?_, nofun⟩
    rw [h.running.mp hnone] at htask
    cases htask
  have hanswers := fun m hm => h.answers m (hsub m hm)
  have hreplied : ∀ m, MajorTask.handling msg true = .handling m true →
      answered config replies m.event = true := by
    rintro m heq
    cases heq
    exact hanswered
  have hflight : flight s = msg.sender.toList ++ flight
      { s with task := .handling msg true, sem := replyTo s.sem msg.sender } := by
    rw [flight, hrest, filterMap_cons]
    cases msg.sender <;> rfl
  cases hsender : msg.sender with
  | none =>
    rw [hsender] at hflight hanswers hsub
    exact h.requeue rfl rfl hflight.symm hrunning hanswers hreplied
      fun ⟨m, hm, hexit⟩ => h.exits ⟨m, hsub m hm, hexit⟩
  | some c =>
    rw [hsender] at hflight hanswers hsub
    change flight s = c :: flight _ at hflight
    have hnodup := h.nodup
    rw [hflight, nodup_cons] at hnodup
    constructor
    · exact hrunning
    · exact hnodup.2
    · intro d
      by_cases hd : d = c
      · subst hd
        refine ⟨fun hmem => absurd hmem hnodup.1, ?_⟩
        rintro ⟨-, hsem⟩
        dsimp only [replyTo] at hsem
        rw [update_self] at hsem
        cases hsem
      · have hold := h.waits d
        rw [hflight, mem_cons, or_iff_right hd] at hold
        rw [hold, Blocked, Blocked]
        dsimp only [replyTo]
        rw [update_of_ne hd]
    · intro d event hd
      have hne : d ≠ c := by
        rintro rfl
        have hwaiting := ((h.waits d).mp (hflight ▸ mem_cons_self)).1
        rw [hwaiting] at hd
        cases hd
      dsimp only [replyTo]
      rw [update_of_ne hne]
      exact h.unset d event hd
    · exact hanswers
    · exact hreplied
    · rintro ⟨m, hm, hexit⟩
      have hnone := h.exits ⟨m, hsub m hm, hexit⟩
      rw [hflight] at hnone
      cases hnone

section

variable (h : Sound config replies s)
include h

theorem Sound.pop {msg : Msg Caller} {q : List (Msg Caller)} (htask : s.task = .waiting)
    (hqueue : s.queue = some (msg :: q)) :
    Sound config replies { s with queue := some q, task := .handling msg false } := by
  have hmsgs : msgs { s with queue := some q, task := .handling msg false } = msgs s := by
    rw [msgs, msgs, htask, hqueue]
    rfl
  refine h.requeue rfl rfl ?_ ⟨nofun, nofun⟩ ?_ nofun ?_
  · rw [flight, hmsgs, flight]
  · rw [hmsgs]
    exact h.answers
  · rw [hmsgs]
    exact h.exits

theorem Sound.finish {msg : Msg Caller} {replied : Bool} (htask : s.task = .handling msg replied)
    (hdone : (answered config replies msg.event && !replied) = false) :
    Sound config replies { s with task := .waiting } := by
  have hmsgs : msgs s = handled s.task ++ msgs { s with task := .waiting } := rfl
  have hsender : ∀ m ∈ handled s.task, m.sender = none := by
    intro m hm
    have hanswers := h.answers m (hmsgs ▸ mem_append_left _ hm)
    rw [htask] at hm
    cases replied with
    | true => cases hm
    | false =>
      cases mem_singleton.mp hm
      rw [Bool.not_false, Bool.and_true] at hdone
      rw [hdone] at hanswers
      by_contra hne
      exact absurd (hanswers hne) nofun
  have hflight : flight { s with task := .waiting } = flight s := by
    have hnone : (handled s.task).filterMap Msg.sender = [] := by
      rw [filterMap_eq_nil_iff]
      exact hsender
    rw [flight, flight, hmsgs, filterMap_append, hnone, nil_append]
  have hsub : ∀ m ∈ msgs { s with task := .waiting }, m ∈ msgs s := by
    intro m hm
    rw [hmsgs]
    exact mem_append_right _ hm
  refine h.requeue rfl rfl hflight ?_ (fun m hm => h.answers m (hsub m hm)) nofun
    fun ⟨m, hm, hexit⟩ => h.exits ⟨m, hsub m hm, hexit⟩
  refine ⟨fun hnone => ?_, nofun⟩
  rw [h.running.mp hnone] at htask
  cases htask

theorem Sound.exit {msg : Msg Caller} {replied : Bool} (htask : s.task = .handling msg replied)
    (hexit : maskOf msg.event = .exit) :
    Sound config replies { s with queue := none, task := .absent } := by
  have hnone : flight s = [] := by
    cases replied with
    | true => exact absurd hexit (maskOf_ne_exit (h.replied msg htask))
    | false =>
      refine h.exits ⟨msg, ?_, hexit⟩
      rw [msgs, htask]
      exact mem_cons_self
  exact h.requeue rfl rfl hnone.symm ⟨fun _ => rfl, fun _ => rfl⟩ nofun nofun nofun

theorem Sound.init (hqueue : s.queue = none) (queueOk threadOk : Bool) :
    Sound config replies (mediaMajorInit s queueOk threadOk).2 := by
  have htask := h.running.mp hqueue
  have hempty : msgs s = [] := by
    rw [msgs, htask, hqueue]
    rfl
  have hsame : { s with queue := none } = s := by rw [← hqueue]
  unfold mediaMajorInit
  split
  · rw [hsame]
    exact h
  · split
    · exact h
    · split
      · exact h
      · refine h.requeue rfl rfl ?_ ⟨nofun, nofun⟩ nofun nofun nofun
        rw [flight, flight, hempty]
        rfl

end

theorem Sound.step [DecidableEq Caller] {e : Event Caller} (h : Sound config replies s)
    (hok : Answerable config replies s e) (hs : step config replies s e = some s') :
    Sound config replies s' := by
  cases e with
  | init queueOk threadOk =>
    obtain rfl := Option.some.inj hs
    exact h.init hok queueOk threadOk
  | call c event =>
    rw [MediaMessages.step] at hs
    split at hs
    · rename_i hidle
      split at hs
      · obtain rfl := Option.some.inj hs
        refine h.move c (.sending event) false ?_ nofun fun _ _ => rfl
        rintro ⟨hwaiting, -⟩
        rw [hidle] at hwaiting
        cases hwaiting
      · obtain rfl := Option.some.inj hs
        exact h
    · cases hs
  | send c mailbox =>
    rw [Answerable] at hok
    split at hok
    · rename_i q event hqueue hpc
      obtain ⟨hlen, hanswered, hmailbox, hexit⟩ := hok
      rw [MediaMessages.step, hpc] at hs
      obtain rfl := Option.some.inj hs
      rw [hqueue, mediaSendMsg_of_answerable mailbox hlen hanswered hmailbox]
      exact h.send hpc hqueue hanswered hexit
    · exact hok.elim
  | wake c =>
    obtain ⟨hawake, rfl⟩ := Option.ite_some_none_eq_some.mp hs
    have hfree : ¬ Blocked s c := by
      rintro ⟨-, hsem⟩
      rw [hawake.2] at hsem
      cases hsem
    have hmoved := h.move c .idle (s.sem c) hfree nofun nofun
    rw [update_eq_self] at hmoved
    exact hmoved
  | post event mailbox =>
    obtain rfl := Option.some.inj hs
    exact h.post (mediaSendMsg_cases config mailbox s.queue ⟨event, none⟩) hok
  | mailboxRxIsr event =>
    obtain ⟨hmask, rfl⟩ := Option.ite_some_none_eq_some.mp hs
    refine h.post (push_cases s.queue ⟨event, none⟩) ?_
    intro hexit
    rw [hexit, and_eq_true] at hmask
    exact absurd hmask.2 (by decide)
  | pop =>
    rw [MediaMessages.step] at hs
    split at hs
    · rename_i msg q htask hqueue
      obtain rfl := Option.some.inj hs
      exact h.pop htask hqueue
    · cases hs
  | reply =>
    rw [MediaMessages.step] at hs
    split at hs
    · rename_i msg htask
      obtain ⟨hanswered, rfl⟩ := Option.ite_some_none_eq_some.mp hs
      exact h.reply htask hanswered
    · cases hs
  | finish =>
    rw [MediaMessages.step] at hs
    split at hs
    · rename_i msg replied htask
      split at hs
      · rename_i hexit
        obtain rfl := Option.some.inj hs
        exact h.exit htask hexit
      · split at hs
        · cases hs
        · rename_i hdone
          obtain rfl := Option.some.inj hs
          exact h.finish htask (eq_false_iff.mpr hdone)
    · cases hs

end Invariant

section Progress

variable {Caller : Type} [DecidableEq Caller] {config : Config} {replies : Nat → Bool}
  {s : Media Caller}

def taskRank : MajorTask Caller → Nat
  | .handling _ false => 2
  | .handling _ true => 1
  | _ => 0

def rank (s : Media Caller) : Nat := 3 * (s.queue.getD []).length + taskRank s.task

theorem exists_task_step (h : Sound config replies s) {c : Caller} (hc : c ∈ flight s) :
    ∃ e s', TaskOnly s e ∧ step config replies s e = some s' ∧ Sound config replies s' ∧
      rank s' < rank s ∧ (s'.sem c = true ∨ c ∈ flight s') := by
  have hblocked := (h.waits c).mp hc
  cases htask : s.task with
  | absent =>
    rw [flight, msgs, htask, h.running.mpr htask] at hc
    cases hc
  | waiting =>
    cases hqueue : s.queue with
    | none =>
      rw [h.running.mp hqueue] at htask
      cases htask
    | some q =>
      cases q with
      | nil =>
        rw [flight, msgs, htask, hqueue] at hc
        cases hc
      | cons =>
        have hsound := h.pop htask hqueue
        refine ⟨.pop, _, trivial, by rw [step, htask, hqueue], hsound, ?_, .inr ?_⟩
        · rw [rank, rank, htask, hqueue]
          dsimp only [Option.getD_some, length_cons, taskRank]
          omega
        · exact (hsound.waits c).mpr hblocked
  | handling msg replied =>
    by_cases hreply : (answered config replies msg.event && !replied) = true
    · rw [and_eq_true, not_eq_true'] at hreply
      obtain ⟨hanswered, rfl⟩ := hreply
      have hsound := h.reply htask hanswered
      refine ⟨.reply, _, trivial, by rw [step, htask]; exact if_pos hanswered, hsound, ?_, ?_⟩
      · rw [rank, rank, htask]
        dsimp only [taskRank]
        omega
      · by_cases hsem : replyTo s.sem msg.sender c = true
        · exact .inl hsem
        · exact .inr ((hsound.waits c).mpr ⟨hblocked.1, eq_false_iff.mpr hsem⟩)
    · have hdone := eq_false_iff.mpr hreply
      have hsound := h.finish htask hdone
      have hmask : maskOf msg.event ≠ .exit := by
        intro hexit
        have hgone := h.exit htask hexit
        exact absurd ((hgone.waits c).mpr hblocked) nofun
      refine ⟨.finish, { s with task := .waiting }, trivial, ?_, hsound, ?_, .inr ?_⟩
      · rw [step, htask]
        dsimp only
        rw [if_neg hmask, hdone]
        rfl
      · rw [rank, rank, htask]
        cases replied <;> dsimp only [taskRank] <;> omega
      · exact (hsound.waits c).mpr hblocked

theorem exists_reply (h : Sound config replies s) {c : Caller} (hc : c ∈ flight s) :
    ∃ s', Reached (step config replies) TaskOnly s s' ∧ s'.sem c = true := by
  obtain ⟨s', hreached, -, hsem⟩ := Reached.exists_goal
    (fun t => Sound config replies t ∧ (t.sem c = true ∨ c ∈ flight t))
    (fun t => t.sem c = true) rank (by
      rintro t ⟨ht, hflight⟩ hsem
      obtain ⟨e, t', htask, hstep, hsound, hlt, hnext⟩ :=
        exists_task_step ht (hflight.resolve_left hsem)
      exact ⟨e, t', htask, hstep, ⟨hsound, hnext⟩, hlt⟩) ⟨h, .inr hc⟩
  exact ⟨s', hreached, hsem⟩

/-- In every run that meets the condition the message of a blocked caller is in the queue or being
handled, and the media task on its own comes to reply to it. -/
theorem blocked_in_flight (h : Reached (step config replies) (Answerable config replies)
    (initial Caller) s) {c : Caller} (hblocked : Blocked s c) :
    InFlight s c ∧ ∃ s', Reached (step config replies) TaskOnly s s' ∧ s'.sem c = true := by
  have hsound : Sound config replies s :=
    h.invariant (Sound config replies) sound_initial fun _ _ _ hs hok hstep => hs.step hok hstep
  have hflight := (hsound.waits c).mpr hblocked
  exact ⟨inFlight_of_mem hflight, exists_reply hsound hflight⟩

end Progress

section Runs

def cameraConfig : Config := ⟨false, true, false, false, true, false⟩

def camDvpJpegOpenInd : Nat := 2 <<< 16

theorem blocked_in_flight_one :
    ∃ s, Reached (step cameraConfig fun _ => true) (Answerable cameraConfig fun _ => true)
        (initial (Fin 1)) s ∧ Blocked s 0 ∧ InFlight s 0 := by
  obtain ⟨s, hreached, hs⟩ := exists_reached (step cameraConfig fun _ => true)
    (Answerable cameraConfig fun _ => true) (initial (Fin 1))
    (fun s => s.pc 0 = .waiting ∧ s.sem 0 = false)
    [.init true true, .call 0 camDvpJpegOpenInd true true, .send 0 .ok] (by decide)
  exact ⟨s, hreached, hs, (blocked_in_flight hreached hs).1⟩

theorem blocked_without_message :
    (∃ s, Reached (step cameraConfig fun _ => true) anyStep (initial (Fin 1)) s ∧
      s.queue = none ∧ Blocked s 0 ∧ ¬ InFlight s 0) ∧
    ∃ s, Reached (step cameraConfig fun _ => true) anyStep (initial (Fin 1)) s ∧
      s.queue.isSome = true ∧ Blocked s 0 ∧ ¬ InFlight s 0 := by
  constructor
  · obtain ⟨s, hreached, hqueue, hs⟩ := exists_reached (step cameraConfig fun _ => true) anyStep
      (initial (Fin 1)) (fun s => s.queue = none ∧ stranded s 0 = true)
      [.call 0 camDvpJpegOpenInd true true, .send 0 .ok] (by decide)
    exact ⟨s, hreached, hqueue, not_inFlight_of_stranded hs⟩
  · obtain ⟨s, hreached, hqueue, hs⟩ := exists_reached (step cameraConfig fun _ => true) anyStep
      (initial (Fin 1)) (fun s => s.queue.isSome = true ∧ stranded s 0 = true)
      (.init true true :: replicate 60 (.post camDvpJpegOpenInd .ok) ++
        [.call 0 camDvpJpegOpenInd true true, .send 0 .ok]) (by decide +kernel)
    exact ⟨s, hreached, hqueue, not_inFlight_of_stranded hs⟩

end Runs

end BekenSoc.MediaReplies
