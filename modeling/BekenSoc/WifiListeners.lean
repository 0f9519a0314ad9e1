import BekenSoc.WifiLockBalance

/-!
The table of listeners of the Wi-Fi service (`g_wifiEvents`) over runs of registrations
and removals.

`RegisterWifiEvent` takes the first empty entry that it meets, whatever stands behind it,
so a listener that stands behind a hole gets a second entry.
-/

namespace BekenSoc.WifiListeners

open Function GuardedRuns WifiDevice WifiService WifiLockBalance List

variable {p : Platform} {n : Nat}

def bkWifiEventCb {State : Type} (dispatchEvent : Nat → State → State)
    (events : Fin n → Option Nat) (s : State) : State :=
  (finRange n).foldl (fun s i => (events i).elim s fun event => dispatchEvent event s) s

def delivered (events : Fin n → Option Nat) : List Nat :=
  bkWifiEventCb (fun event log => log ++ [event]) events []

inductive ListenerCall
  | register (event : Option Nat)
  | unRegister (event : Option Nat)
  deriving DecidableEq

def listenerCall (s : Service p n) : ListenerCall → Service p n × WifiErrorCode
  | .register event => registerWifiEvent s event
  | .unRegister event => unRegisterWifiEvent s event

/-- The service, and for each listener whether it was unregistered with success and not
registered since. -/
structure Observed (p : Platform) (n : Nat) where
  service : Service p n
  gone : Nat → Bool

def Observed.init (s : Service p n) : Observed p n := ⟨s, fun _ => false⟩

def goneAfter (gone : Nat → Bool) (ret : WifiErrorCode) : ListenerCall → Nat → Bool
  | .register (some event) => if ret = .success then update gone event false else gone
  | .unRegister (some event) => if ret = .success then update gone event true else gone
  | .register none | .unRegister none => gone

def observe (r : Observed p n) (e : ListenerCall) : Option (Observed p n) :=
  let result := listenerCall r.service e
  some ⟨result.1, goneAfter r.gone result.2 e⟩

/-- No listener has two entries, and nothing is delivered to one that is gone. -/
structure ListenersSound (r : Observed p n) : Prop where
  single : ∀ i j event, r.service.events i = some event → r.service.events j = some event → i = j
  silent : ∀ event, r.gone event = true → event ∉ delivered r.service.events

/-- The listener of a registration does not stand behind an empty entry. -/
def NotBehindHole (r : Observed p n) : ListenerCall → Prop
  | .register (some event) => ∀ i j, r.service.events i = some event → j < i →
      r.service.events j ≠ none
  | _ => True

instance (r : Observed p n) : (e : ListenerCall) → Decidable (NotBehindHole r e)
  | .register (some _) => inferInstanceAs (Decidable (∀ _, _))
  | .register none | .unRegister _ => isTrue trivial

section Delivery

variable {events : Fin n → Option Nat}

theorem foldl_delivered (is : List (Fin n)) (log : List Nat) :
    is.foldl (fun log i => (events i).elim log fun event => log ++ [event]) log =
      log ++ is.filterMap events := by
  induction is generalizing log with
  | nil => exact (append_nil log).symm
  | cons i is ih =>
    rw [foldl_cons, ih]
    cases h : events i with
    | none =>
      rw [filterMap_cons_none h]
      rfl
    | some =>
      rw [filterMap_cons_some h]
      exact append_assoc _ _ _

theorem mem_delivered {event : Nat} : event ∈ delivered events ↔ ∃ i, events i = some event := by
  unfold delivered bkWifiEventCb
  rw [foldl_delivered, nil_append, mem_filterMap]
  constructor
  · rintro ⟨i, -, hi⟩
    exact ⟨i, hi⟩
  · rintro ⟨i, hi⟩
    exact ⟨i, mem_finRange i, hi⟩

end Delivery

section Calls

variable {s : Service p n}

theorem lockEvent_events {t : Service p n} (h : lockEvent s = some t) : t.events = s.events := by
  rw [(lockEvent_held h).2]

theorem unlockEvent_events (t : Service p n) : (unlockEvent t).1.events = t.events := by
  unfold unlockEvent
  split
  · rfl
  · rfl
  · rfl

theorem returnUnlocked_locked {t u : Service p n} (h : lockEvent s = some t)
    (hlock : u.eventLock = t.eventLock) {code : WifiErrorCode} :
    (returnUnlocked (unlockEvent u) code).2 = code := by
  obtain ⟨depth, -, ht⟩ := (lockEvent_held h).1.eventLock
  rw [returnUnlocked, unlockEvent, hlock, ht]
  rfl

theorem findEventSlot_empty {events : Fin n → Option Nat} {event : Nat} {i : Fin n}
    {is : List (Fin n)} (h : findEventSlot events event is = .empty i) : events i = none := by
  induction is with
  | nil => cases h
  | cons j is ih =>
    rw [findEventSlot] at h
    split at h
    · cases h
    · split at h
      · rename_i hempty
        cases h
        exact hempty
      · exact ih h

inductive Registered (s : Service p n) (event : Nat) : Service p n × WifiErrorCode → Prop
  | refused {r : Service p n × WifiErrorCode} : r.1.events = s.events → r.2 ≠ .success →
      Registered s event r
  | entered {r : Service p n × WifiErrorCode} (i : Fin n) : s.events i = none →
      findEventSlot s.events event (finRange n) ≠ .registered →
      r.1.events = update s.events i (some event) → r.2 = .success → Registered s event r

theorem registerWifiEvent_cases (s : Service p n) (event : Nat) :
    Registered s event (registerWifiEvent s (some event)) := by
  unfold registerWifiEvent
  cases hlock : lockEvent s with
  | none => exact .refused rfl (by simp)
  | some t =>
    have hevents := lockEvent_events hlock
    dsimp only
    cases hslot : findEventSlot t.events event (finRange n) with
    | registered => exact .refused hevents (by simp)
    | full =>
      refine .refused ((unlockEvent_events t).trans hevents) ?_
      unfold returnUnlocked
      dsimp only
      split
      · simp
      · simp
    | empty i =>
      rw [hevents] at hslot
      refine .entered i (findEventSlot_empty hslot) (by simp [hslot]) ?_ ?_
      · refine (unlockEvent_events _).trans ?_
        rw [hevents]
      · refine returnUnlocked_locked hlock ?_
        rfl

inductive Removed (s : Service p n) (event : Nat) : Service p n × WifiErrorCode → Prop
  | refused {r : Service p n × WifiErrorCode} : r.1.events = s.events → r.2 ≠ .success →
      Removed s event r
  | cleared {r : Service p n × WifiErrorCode} (i : Fin n) : s.events i = some event →
      r.1.events = update s.events i none → r.2 = .success → Removed s event r

theorem unRegisterWifiEvent_cases (s : Service p n) (event : Nat) :
    Removed s event (unRegisterWifiEvent s (some event)) := by
  unfold unRegisterWifiEvent
  cases hlock : lockEvent s with
  | none => exact .refused rfl (by simp)
  | some t =>
    have hevents := lockEvent_events hlock
    dsimp only
    cases hfind : (finRange n).find? fun i => decide (t.events i = some event) with
    | none =>
      refine .refused ((unlockEvent_events t).trans hevents) ?_
      unfold returnUnlocked
      simp
    | some i =>
      have hi := List.find?_some hfind
      rw [decide_eq_true_iff, hevents] at hi
      refine .cleared i hi ((unlockEvent_events _).trans ?_) ?_
      · rw [hevents]
      · refine returnUnlocked_locked hlock ?_
        rfl

end Calls

structure TableSound (events : Fin n → Option Nat) (gone : Nat → Bool) : Prop where
  single : ∀ i j event, events i = some event → events j = some event → i = j
  silent : ∀ event, gone event = true → ∀ i, events i ≠ some event

section Table

variable {events : Fin n → Option Nat} {gone : Nat → Bool} {i : Fin n} {event : Nat}

theorem TableSound.enter (h : TableSound events gone) (hnew : ∀ j, events j ≠ some event) :
    TableSound (update events i (some event)) (update gone event false) := by
  have hcases : ∀ j ev, update events i (some event) j = some ev →
      j = i ∧ ev = event ∨ events j = some ev ∧ ev ≠ event := by
    intro j ev hj
    rcases eq_or_ne j i with rfl | hne
    · rw [update_self] at hj
      exact .inl ⟨rfl, (Option.some.inj hj).symm⟩
    · rw [update_of_ne hne] at hj
      exact .inr ⟨hj, fun heq => hnew j (heq ▸ hj)⟩
  constructor
  · intro j k ev hj hk
    rcases hcases j ev hj with ⟨rfl, rfl⟩ | ⟨hj, hne⟩
    · rcases hcases k ev hk with ⟨rfl, -⟩ | ⟨-, hne⟩
      · rfl
      · exact absurd rfl hne
    · rcases hcases k ev hk with ⟨-, rfl⟩ | ⟨hk, -⟩
      · exact absurd rfl hne
      · exact h.single j k ev hj hk
  · intro ev hgone j hj
    rcases hcases j ev hj with ⟨-, rfl⟩ | ⟨hj, hne⟩
    · rw [update_self] at hgone
      cases hgone
    · rw [update_of_ne hne] at hgone
      exact h.silent ev hgone j hj

theorem TableSound.clear (h : TableSound events gone) (hi : events i = some event) :
    TableSound (update events i none) (update gone event true) := by
  have hcases : ∀ j ev, update events i none j = some ev → j ≠ i ∧ events j = some ev := by
    intro j ev hj
    rcases eq_or_ne j i with rfl | hne
    · rw [update_self] at hj
      cases hj
    · rw [update_of_ne hne] at hj
      exact ⟨hne, hj⟩
  constructor
  · intro j k ev hj hk
    exact h.single j k ev (hcases j ev hj).2 (hcases k ev hk).2
  · intro ev hgone j hj
    obtain ⟨hne, hj⟩ := hcases j ev hj
    rcases eq_or_ne ev event with rfl | hev
    · exact hne (h.single j i ev hj hi)
    · rw [update_of_ne hev] at hgone
      exact h.silent ev hgone j hj

theorem not_registered_of_slot (hhole : ∀ i j, events i = some event → j < i → events j ≠ none)
    (hslot : findEventSlot events event (finRange n) ≠ .registered) (i : Fin n) :
    events i ≠ some event := by
  intro hi
  obtain ⟨j, hlt, hj⟩ := (findEventSlot_finRange events event).mp hslot i hi
  exact hhole i j hi hlt hj

end Table

section Runs

variable {r r' : Observed p n}

def ObservedSound (r : Observed p n) : Prop := TableSound r.service.events r.gone

theorem ObservedSound.register (h : ObservedSound r) {event : Nat}
    (hhole : NotBehindHole r (.register (some event))) :
    TableSound (registerWifiEvent r.service (some event)).1.events
      (goneAfter r.gone (registerWifiEvent r.service (some event)).2 (.register (some event))) := by
  cases registerWifiEvent_cases r.service event with
  | refused hevents hret =>
    rw [hevents, goneAfter, if_neg hret]
    exact h
  | entered i hempty hslot hevents hret =>
    rw [hevents, goneAfter, if_pos hret]
    exact TableSound.enter h (not_registered_of_slot hhole hslot)

theorem ObservedSound.unRegister (h : ObservedSound r) (event : Nat) :
    TableSound (unRegisterWifiEvent r.service (some event)).1.events
      (goneAfter r.gone (unRegisterWifiEvent r.service (some event)).2
        (.unRegister (some event))) := by
  cases unRegisterWifiEvent_cases r.service event with
  | refused hevents hret =>
    rw [hevents, goneAfter, if_neg hret]
    exact h
  | cleared i hi hevents hret =>
    rw [hevents, goneAfter, if_pos hret]
    exact TableSound.clear h hi

theorem ObservedSound.observe {e : ListenerCall} (h : ObservedSound r)
    (hok : NotBehindHole r e) (hstep : observe r e = some r') : ObservedSound r' := by
  cases hstep
  cases e with
  | register event =>
    cases event with
    | none => exact h
    | some => exact h.register hok
  | unRegister event =>
    cases event with
    | none => exact h
    | some event => exact h.unRegister event

/-- As long as no listener that stands behind an empty entry is registered again, every
listener has one entry at most, and one that was unregistered gets no events. -/
theorem reached_listenersSound (files : HalFile.Path → Option (List UInt8))
    (h : Reached observe NotBehindHole (Observed.init (Service.boot p n files)) r) :
    ListenersSound r := by
  have hinit : ObservedSound (Observed.init (Service.boot p n files)) := by
    constructor
    · intro i j event hi
      cases hi
    · intro event hgone
      cases hgone
  have hsound : ObservedSound r := h.invariant ObservedSound hinit
    fun _ _ _ hr hok hstep => hr.observe hok hstep
  refine ⟨hsound.single, fun event hgone hmem => ?_⟩
  obtain ⟨i, hi⟩ := mem_delivered.mp hmem
  exact hsound.silent event hgone i hi

end Runs

def twoListeners : Service WifiDeviceConfigs.tenEntries 2 := Service.boot _ 2 fun _ => none

theorem reached_listenersSound_reused :
    ∃ r, Reached observe NotBehindHole (Observed.init twoListeners) r ∧
      delivered r.service.events = [7, 6] ∧ ListenersSound r :=
  exists_reached_and (fun _ => reached_listenersSound _)
    [.register (some 5), .register (some 6), .unRegister (some 5), .register (some 7)]
    (by decide)

-- The first listener leaves a hole in front of the second one, which then registers again
-- and unregisters: its old entry is still there.
theorem hole_hides_listener :
    ¬ ∀ r, Reached observe anyStep (Observed.init twoListeners) r → ListenersSound r := by
  intro hall
  obtain ⟨r, hreached, hgone, hmem⟩ := exists_reached observe anyStep (Observed.init twoListeners)
    (fun r => r.gone 6 = true ∧ 6 ∈ delivered r.service.events)
    [.register (some 5), .register (some 6), .unRegister (some 5), .register (some 6),
      .unRegister (some 6)] (by decide)
  exact (hall r hreached).silent 6 hgone hmem

end BekenSoc.WifiListeners
