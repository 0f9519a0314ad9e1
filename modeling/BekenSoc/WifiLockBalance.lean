import BekenSoc.WifiDeviceConfigs
import BekenSoc.WifiService

namespace BekenSoc.WifiLockBalance

open GuardedRuns List
open WifiDevice hiding addDeviceConfig getDeviceConfigs removeDevice
open WifiService

variable {p : Platform} {n : Nat}

/-- The call does not end in the middle of its locked region: the file of a new network
is opened and written as a whole, an event is not registered again before the first
empty entry, and the hotspot is configured before it is enabled. -/
def LeavesUnlocked (s : Service p n) : Call p → Prop
  | .addDeviceConfig (some _) true o => s.wifi.globalLock ≠ none →
      (∃ i : p.Slot, p.netId (s.wifi.configs i) ≠ (i : Nat)) →
      o.opened = true ∧ o.wrote = p.configSize
  | .registerWifiEvent (some event) => s.eventLock ≠ none →
      ∀ i, s.events i = some event → ∃ j < i, s.events j = none
  | .enableHotspot => s.wifi.globalLock ≠ none → s.apStatus = .active ∨ s.apCfgFlag = 1
  | _ => True

section Locks

variable {s t u : Service p n}

structure GlobalHeld (s t : Service p n) : Prop where
  globalLock : ∃ depth, s.wifi.globalLock = some depth ∧ t.wifi.globalLock = some (depth + 1)
  eventLock : t.eventLock = s.eventLock
  strayUnlocks : t.strayUnlocks = s.strayUnlocks

structure EventHeld (s t : Service p n) : Prop where
  globalLock : t.wifi.globalLock = s.wifi.globalLock
  eventLock : ∃ depth, s.eventLock = some depth ∧ t.eventLock = some (depth + 1)
  strayUnlocks : t.strayUnlocks = s.strayUnlocks

theorem GlobalHeld.not_balanced (h : GlobalHeld s t) : ¬ Balanced s t := by
  obtain ⟨depth, hs, ht⟩ := h.globalLock
  intro hbalanced
  have heq := hbalanced.globalLock
  rw [hs, ht] at heq
  cases heq

theorem EventHeld.not_balanced (h : EventHeld s t) : ¬ Balanced s t := by
  obtain ⟨depth, hs, ht⟩ := h.eventLock
  intro hbalanced
  have heq := hbalanced.eventLock
  rw [hs, ht] at heq
  cases heq

theorem GlobalHeld.trans_balanced (h : GlobalHeld s t) (hb : Balanced t u) : GlobalHeld s u := by
  obtain ⟨depth, hs, ht⟩ := h.globalLock
  exact ⟨⟨depth, hs, hb.globalLock.trans ht⟩, hb.eventLock.trans h.eventLock,
    hb.strayUnlocks.trans h.strayUnlocks⟩

theorem lockGlobal_eq_none (h : lockGlobal s = none) : s.wifi.globalLock = none := by
  unfold lockGlobal lockWifiGlobalLock at h
  split at h
  · cases h
  · assumption

theorem lockGlobal_held (h : lockGlobal s = some t) :
    GlobalHeld s t ∧ t = { s with wifi := { s.wifi with globalLock := t.wifi.globalLock } } := by
  unfold lockGlobal lockWifiGlobalLock at h
  split at h
  · rename_i depth hdepth
    cases h
    exact ⟨⟨⟨depth, hdepth, rfl⟩, rfl, rfl⟩, rfl⟩
  · cases h

theorem lockEvent_eq_none (h : lockEvent s = none) : s.eventLock = none := by
  unfold lockEvent at h
  split at h
  · cases h
  · assumption

theorem lockEvent_held (h : lockEvent s = some t) :
    EventHeld s t ∧ t = { s with eventLock := t.eventLock } := by
  unfold lockEvent at h
  split at h
  · rename_i depth hdepth
    cases h
    exact ⟨⟨rfl, ⟨depth, hdepth, rfl⟩, rfl⟩, rfl⟩
  · cases h

theorem GlobalHeld.unlock (h : GlobalHeld s t) :
    Balanced s (unlockGlobal t).1 ∧ (unlockGlobal t).2 = true := by
  obtain ⟨depth, hs, ht⟩ := h.globalLock
  simp only [unlockGlobal, ht]
  exact ⟨{ h with globalLock := hs.symm }, trivial⟩

theorem EventHeld.unlock (h : EventHeld s t) :
    Balanced s (unlockEvent t).1 ∧ (unlockEvent t).2 = true := by
  obtain ⟨depth, hs, ht⟩ := h.eventLock
  simp only [unlockEvent, ht]
  exact ⟨{ h with eventLock := hs.symm }, trivial⟩

theorem GlobalHeld.returned (h : GlobalHeld s t) (code : WifiErrorCode) :
    Balanced s (returnUnlocked (unlockGlobal t) code).1 :=
  h.unlock.1

theorem EventHeld.returned (h : EventHeld s t) (code : WifiErrorCode) :
    Balanced s (returnUnlocked (unlockEvent t) code).1 :=
  h.unlock.1

end Locks

theorem freeSlot_isSome (s : Wifi p) :
    (∃ i, freeSlot s = some i) ↔ ∃ i : p.Slot, p.netId (s.configs i) ≠ (i : Nat) := by
  constructor
  · rintro ⟨i, hi⟩
    have htest := List.find?_some hi
    exact ⟨i, of_decide_eq_true htest⟩
  · rintro ⟨i, hi⟩
    refine Option.isSome_iff_exists.mp (List.find?_isSome.mpr ?_)
    exact ⟨i, mem_finRange i, decide_eq_true hi⟩

theorem unlockAndReturn_locked {wifi locked u : Wifi p} (h : lockWifiGlobalLock wifi = some locked)
    (hlock : u.globalLock = locked.globalLock) (code : WifiErrorCode) :
    (unlockAndReturn u code).1.globalLock = wifi.globalLock := by
  obtain ⟨depth, hdepth, rfl⟩ := WifiDeviceConfigs.lock_eq_some h
  simp only [unlockAndReturn, unlockWifiGlobalLock, hlock, hdepth]

/-- After a complete write the lock is as `AddDeviceConfig` found it; a short one takes
another level off, or fails when there is none. -/
theorem finishAdd_locked {u : Wifi p} {depth : Nat} (hlock : u.globalLock = some (depth + 1))
    (i : p.Slot) (complete : Bool) : ((finishAdd u i complete).1.globalLock = some depth ∧
      strayUnlock (finishAdd u i complete) = false) ↔ complete = true := by
  cases complete with
  | true => simp [finishAdd, returnNetId, unlockWifiGlobalLock, hlock, strayUnlock]
  | false =>
    cases depth with
    | zero | succ => simp [finishAdd, returnNetId, unlockWifiGlobalLock, hlock, strayUnlock]

theorem addDeviceConfig_balanced_iff (s : Service p n) (config : Option (List UInt8))
    (hasResult : Bool) (o : SaveOutcome) : Balanced s (addDeviceConfig s config hasResult o).1 ↔
      LeavesUnlocked s (.addDeviceConfig config hasResult o) := by
  have hbalanced : Balanced s (addDeviceConfig s config hasResult o).1 ↔
      (WifiDevice.addDeviceConfig s.wifi config hasResult o).1.globalLock = s.wifi.globalLock ∧
        strayUnlock (WifiDevice.addDeviceConfig s.wifi config hasResult o) = false := by
    constructor
    · intro h
      have hstray := Nat.add_eq_left.mp h.strayUnlocks
      exact ⟨h.globalLock, Bool.toNat_eq_zero.mp hstray⟩
    · rintro ⟨hlock, hstray⟩
      exact ⟨hlock, rfl, Nat.add_eq_left.mpr (Bool.toNat_eq_zero.mpr hstray)⟩
  rw [hbalanced]
  match config, hasResult with
  | none, _ | some _, false => exact iff_of_true ⟨rfl, rfl⟩ trivial
  | some config, true =>
    unfold WifiDevice.addDeviceConfig LeavesUnlocked
    cases hlock : lockWifiGlobalLock s.wifi with
    | none =>
      have hnone := lockGlobal_eq_none (s := s) (by simp [lockGlobal, hlock])
      exact iff_of_true ⟨rfl, by simp [strayUnlock, hnone]⟩ fun hsome => absurd hnone hsome
    | some t =>
      obtain ⟨depth, hdepth, rfl⟩ := WifiDeviceConfigs.lock_eq_some hlock
      have hfree := freeSlot_isSome { s.wifi with globalLock := some (depth + 1) }
      dsimp only at hfree ⊢
      rw [hdepth]
      cases hslot : freeSlot { s.wifi with globalLock := some (depth + 1) } with
      | none =>
        have hreturned := unlockAndReturn_locked hlock rfl .busy
        rw [hdepth] at hreturned
        refine iff_of_true ⟨hreturned, rfl⟩ ?_
        intro _ hexists
        obtain ⟨i, hi⟩ := hfree.mpr hexists
        cases hslot.symm.trans hi
      | some i =>
        have hexists := hfree.mp ⟨i, hslot⟩
        dsimp only
        cases hopened : o.opened with
        | false =>
          rw [if_neg Bool.false_ne_true]
          refine iff_of_false (fun h => ?_) fun hunlocked => ?_
          · exact absurd (Option.some.inj h.1) (Nat.succ_ne_self depth)
          · exact absurd (hunlocked (Option.some_ne_none _) hexists).1 Bool.false_ne_true
        | true =>
          rw [if_pos rfl]
          refine (finishAdd_locked ?_ i _).trans (decide_eq_true_iff.trans ⟨?_, ?_⟩)
          · cases o.kept with
            | false | true => rfl
          · exact fun hwrote _ _ => ⟨rfl, hwrote⟩
          · exact fun hunlocked => (hunlocked (Option.some_ne_none _) hexists).2

theorem getDeviceConfigs_balanced (s : Service p n) (hasArgs : Bool) (size : Nat)
    (o : p.Slot → LoadOutcome) : Balanced s (getDeviceConfigs s hasArgs size o).1 := by
  refine ⟨?_, rfl, rfl⟩
  unfold getDeviceConfigs WifiDevice.getDeviceConfigs
  split
  · cases hlock : lockWifiGlobalLock s.wifi with
    | none => rfl
    | some =>
      dsimp only
      exact unlockAndReturn_locked hlock (by rfl) _
  · rfl

theorem removeDevice_balanced (s : Service p n) (networkId : Int) (deleted : Bool) :
    Balanced s (removeDevice s networkId deleted).1 := by
  refine ⟨?_, rfl, rfl⟩
  unfold removeDevice WifiDevice.removeDevice
  split
  · dsimp only
    cases hlock : lockWifiGlobalLock s.wifi with
    | none => rfl
    | some =>
      refine unlockAndReturn_locked hlock ?_ _
      cases deleted with
      | false | true => rfl
  · rfl

theorem connectTo_balanced (s : Service p n) (networkId : Int) (copied : Bool)
    (link : Nat → Bool) : Balanced s (connectTo s networkId copied link).1 := by
  unfold connectTo
  split
  · dsimp only
    cases hlock : lockGlobal s with
    | none => exact Balanced.refl s
    | some t =>
      have hheld := (lockGlobal_held hlock).1
      dsimp only
      split
      · exact hheld.returned _
      · split
        · cases hevent : lockEvent (unlockGlobal t).1 with
          | none => exact hheld.unlock.1
          | some => exact hheld.unlock.1.trans ((lockEvent_held hevent).1.returned _)
        · exact hheld.unlock.1
  · exact Balanced.refl s

theorem findEventSlot_eq_registered (events : Fin n → Option Nat) (event : Nat)
    (is : List (Fin n)) : findEventSlot events event is = .registered ↔
      ∃ before i after, is = before ++ i :: after ∧ events i = some event ∧
        ∀ j ∈ before, events j ≠ none := by
  induction is with
  | nil =>
    constructor
    · rintro ⟨⟩
    · rintro ⟨before, i, after, heq, -⟩
      exact absurd heq.symm (append_ne_nil_of_right_ne_nil _ (cons_ne_nil _ _))
  | cons i is ih =>
    rw [findEventSlot]
    split
    · rename_i hevent
      refine iff_of_true rfl ⟨[], i, is, rfl, hevent, ?_⟩
      rintro j ⟨⟩
    · rename_i hother
      split
      · rename_i hempty
        constructor
        · rintro ⟨⟩
        · rintro ⟨before, j, after, heq, hj, hfull⟩
          cases before with
          | nil =>
            cases heq
            exact absurd hj hother
          | cons =>
            cases heq
            exact absurd hempty (hfull i mem_cons_self)
      · rename_i hfull
        rw [ih]
        constructor
        · rintro ⟨before, j, after, rfl, hj, hbefore⟩
          refine ⟨i :: before, j, after, rfl, hj, ?_⟩
          intro k hk
          rcases mem_cons.mp hk with rfl | hk
          · exact hfull
          · exact hbefore k hk
        · rintro ⟨before, j, after, heq, hj, hbefore⟩
          cases before with
          | nil =>
            cases heq
            exact absurd hj hother
          | cons k before =>
            cases heq
            exact ⟨before, j, after, rfl, hj, fun k hk => hbefore k (mem_cons_of_mem _ hk)⟩

theorem mem_before_iff {before after : List (Fin n)} {i j : Fin n}
    (h : finRange n = before ++ i :: after) : j ∈ before ↔ j < i := by
  have hsorted : (before ++ i :: after).Pairwise (· < ·) := h ▸ pairwise_lt_finRange n
  obtain ⟨-, htail, hcross⟩ := pairwise_append.mp hsorted
  constructor
  · exact fun hj => hcross j hj i mem_cons_self
  · intro hlt
    have hmem : j ∈ before ++ i :: after := h ▸ mem_finRange j
    rcases mem_append.mp hmem with hj | hj
    · exact hj
    · rcases mem_cons.mp hj with rfl | hj
      · exact absurd hlt (Nat.lt_irrefl j)
      · exact absurd hlt (Nat.lt_asymm ((pairwise_cons.mp htail).1 j hj))

theorem findEventSlot_finRange (events : Fin n → Option Nat) (event : Nat) :
    findEventSlot events event (finRange n) ≠ .registered ↔
      ∀ i, events i = some event → ∃ j < i, events j = none := by
  rw [Ne, findEventSlot_eq_registered]
  constructor
  · intro hno i hi
    by_contra hfull
    obtain ⟨before, after, heq⟩ := append_of_mem (mem_finRange i)
    refine hno ⟨before, i, after, heq, hi, fun j hj hempty => ?_⟩
    exact hfull ⟨j, (mem_before_iff heq).mp hj, hempty⟩
  · rintro hempty ⟨before, i, after, heq, hi, hfull⟩
    obtain ⟨j, hlt, hj⟩ := hempty i hi
    exact hfull j ((mem_before_iff heq).mpr hlt) hj

theorem registerWifiEvent_balanced_iff (s : Service p n) (event : Option Nat) :
    Balanced s (registerWifiEvent s event).1 ↔ LeavesUnlocked s (.registerWifiEvent event) := by
  cases event with
  | none => exact iff_of_true (Balanced.refl s) trivial
  | some event =>
    unfold registerWifiEvent LeavesUnlocked
    cases hlock : lockEvent s with
    | none =>
      refine iff_of_true (Balanced.refl s) fun hsome => ?_
      exact absurd (lockEvent_eq_none hlock) hsome
    | some t =>
      obtain ⟨hheld, hsame⟩ := lockEvent_held hlock
      have hevents : t.events = s.events := by rw [hsame]
      have hsome : s.eventLock ≠ none := by
        obtain ⟨depth, hs, -⟩ := hheld.eventLock
        rw [hs]
        exact Option.some_ne_none depth
      dsimp only
      rw [← findEventSlot_finRange s.events event, ← hevents]
      cases findEventSlot t.events event (finRange n) with
      | registered => exact iff_of_false hheld.not_balanced fun hno => hno hsome rfl
      | full => exact iff_of_true (hheld.returned _) fun _ => by rintro ⟨⟩
      | empty =>
        refine iff_of_true (EventHeld.returned ?_ _) fun _ => by rintro ⟨⟩
        exact { hheld with }

theorem unRegisterWifiEvent_balanced (s : Service p n) (event : Option Nat) :
    Balanced s (unRegisterWifiEvent s event).1 := by
  cases event with
  | none => exact Balanced.refl s
  | some =>
    unfold unRegisterWifiEvent
    cases hlock : lockEvent s with
    | none => exact Balanced.refl s
    | some =>
      have hheld := (lockEvent_held hlock).1
      dsimp only
      split
      · refine EventHeld.returned ?_ _
        exact { hheld with }
      · exact hheld.returned _

theorem dispatchApStartEvent_balanced (callbacks : Callbacks p n) (state : HotspotStatus)
    (is : List (Fin n)) (s : Service p n) :
    Balanced s (dispatchApStartEvent callbacks state is s) := by
  induction is generalizing s with
  | nil => exact Balanced.refl s
  | cons i is ih =>
    rw [dispatchApStartEvent]
    split
    · exact ih s
    · rename_i callback hcallback
      obtain ⟨event, -, hevent⟩ := Option.bind_eq_some_iff.mp hcallback
      exact (callbacks.balanced event callback state s hevent).trans (ih _)

theorem enableHotspot_balanced_iff (callbacks : Callbacks p n) (s : Service p n) :
    Balanced s (enableHotspot callbacks s).1 ↔ LeavesUnlocked s .enableHotspot := by
  unfold enableHotspot LeavesUnlocked
  cases hlock : lockGlobal s with
  | none =>
    refine iff_of_true (Balanced.refl s) fun hsome => ?_
    exact absurd (lockGlobal_eq_none hlock) hsome
  | some t =>
    obtain ⟨hheld, hsame⟩ := lockGlobal_held hlock
    have hstatus : t.apStatus = s.apStatus := by rw [hsame]
    have hflag : t.apCfgFlag = s.apCfgFlag := by rw [hsame]
    have hsome : s.wifi.globalLock ≠ none := by
      obtain ⟨depth, hs, -⟩ := hheld.globalLock
      rw [hs]
      exact Option.some_ne_none depth
    rw [← hstatus, ← hflag]
    dsimp only
    split
    · rename_i hactive
      exact iff_of_true (hheld.returned _) fun _ => .inl hactive
    · rename_i hactive
      split
      · rename_i hunset
        refine iff_of_false hheld.not_balanced fun hready => ?_
        exact (hready hsome).elim hactive hunset
      · rename_i hset
        refine iff_of_true (GlobalHeld.returned ?_ _) fun _ => .inr (not_not.mp hset)
        have hstarted : GlobalHeld s { t with apStatus := .active } := { hheld with }
        exact hstarted.trans_balanced (dispatchApStartEvent_balanced callbacks _ _ _)

theorem disableHotspot_balanced (callbacks : Callbacks p n) (s : Service p n) :
    Balanced s (disableHotspot callbacks s).1 := by
  unfold disableHotspot
  cases hlock : lockGlobal s with
  | none => exact Balanced.refl s
  | some t =>
    have hheld := (lockGlobal_held hlock).1
    dsimp only
    split
    · exact hheld.returned _
    · refine GlobalHeld.returned ?_ _
      have hstopped := hheld.trans_balanced
        (dispatchApStartEvent_balanced callbacks .notActive (finRange n) t)
      exact { hstopped with }

theorem setHotspotConfig_balanced (s : Service p n) (hasConfig : Bool) :
    Balanced s (setHotspotConfig s hasConfig).1 := by
  unfold setHotspotConfig
  cases hasConfig with
  | false => exact Balanced.refl s
  | true =>
    cases hlock : lockGlobal s with
    | none => exact Balanced.refl s
    | some =>
      have hheld := (lockGlobal_held hlock).1
      refine GlobalHeld.returned ?_ _
      exact { hheld with }

def step (callbacks : Callbacks p n) (s : Service p n) (c : Call p) : Option (Service p n) :=
  some (call callbacks s c).1

def noCallbacks (p : Platform) (n : Nat) : Callbacks p n where
  onHotspotStateChanged _ := none
  balanced := by rintro event callback state s ⟨⟩

end BekenSoc.WifiLockBalance
