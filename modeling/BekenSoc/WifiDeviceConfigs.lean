import BekenSoc.GuardedRuns
import BekenSoc.WifiDevice
import Mathlib.Tactic.IntervalCases

namespace BekenSoc.WifiDeviceConfigs

open Function List
open CRuntime
open GuardedRuns
open HalFile (Path)
open WifiDevice

variable {p : Platform}
variable {i j : p.Slot} {s s' : Observed p} {t : Wifi p} {c : List UInt8} {depth size : Nat}
  {o : SaveOutcome}

/-! The names of the files. -/

theorem digitChar_injective : ∀ a b : Fin 10, Nat.digitChar a = Nat.digitChar b → a = b := by
  decide

theorem fileName_injective (h : fileName i = fileName j) : i = j := by
  have hi := lt_of_lt_of_le i.isLt p.named
  have hj := lt_of_lt_of_le j.isLt p.named
  have htail := append_cancel_left h
  simp only [List.cons.injEq, and_true] at htail
  obtain ⟨htens, hones⟩ := htail
  have hten := digitChar_injective ⟨(i : Nat) / 10, by omega⟩ ⟨(j : Nat) / 10, by omega⟩ htens
  have hone := digitChar_injective ⟨(i : Nat) % 10, by omega⟩ ⟨(j : Nat) % 10, by omega⟩ hones
  simp only [Fin.mk.injEq] at hten hone
  apply Fin.ext
  omega

theorem setFile_self (s : Wifi p) (i : p.Slot) (file : Option (List UInt8)) :
    (s.setFile i file).files (fileName i) = file :=
  update_self _ _ _

theorem setFile_of_ne (s : Wifi p) (hne : j ≠ i) (file : Option (List UInt8)) :
    (s.setFile i file).files (fileName j) = s.files (fileName j) :=
  update_of_ne (fun h => hne (fileName_injective h)) _ _

/-! What a call leaves of the table and of the files. -/

structure SameStore (s s' : Wifi p) : Prop where
  configs : s'.configs = s.configs
  files : s'.files = s.files

theorem SameStore.trans {s s' s'' : Wifi p} (h : SameStore s s') (h' : SameStore s' s'') :
    SameStore s s'' :=
  ⟨h'.configs.trans h.configs, h'.files.trans h.files⟩

theorem sameStore_lock {s s' : Wifi p} (h : lockWifiGlobalLock s = some s') : SameStore s s' := by
  unfold lockWifiGlobalLock at h
  split at h
  · cases h
    exact ⟨rfl, rfl⟩
  · cases h

theorem sameStore_unlock {s s' : Wifi p} (h : unlockWifiGlobalLock s = some s') :
    SameStore s s' := by
  unfold unlockWifiGlobalLock at h
  split at h
  · cases h
    exact ⟨rfl, rfl⟩
  · cases h

theorem sameStore_unlockAndReturn (s : Wifi p) (code : WifiErrorCode) :
    SameStore s (unlockAndReturn s code).1 := by
  unfold unlockAndReturn
  split
  · rename_i s' hunlock
    exact sameStore_unlock hunlock
  · exact ⟨rfl, rfl⟩

theorem sameStore_returnNetId (s : Wifi p) (i : p.Slot) : SameStore s (returnNetId s i).1 := by
  unfold returnNetId
  split
  · rename_i s' hunlock
    exact sameStore_unlock hunlock
  · exact ⟨rfl, rfl⟩

theorem sameStore_finishAdd (s : Wifi p) (i : p.Slot) (complete : Bool) :
    SameStore s (finishAdd s i complete).1 := by
  unfold finishAdd
  split
  · exact sameStore_returnNetId s i
  · split
    · rename_i s' hunlock
      exact (sameStore_unlock hunlock).trans (sameStore_returnNetId s' i)
    · exact ⟨rfl, rfl⟩

theorem freeSlot_congr {s s' : Wifi p} (h : s'.configs = s.configs) : freeSlot s' = freeSlot s := by
  unfold freeSlot
  rw [h]

theorem freeSlot_spec {s : Wifi p} (h : freeSlot s = some i) :
    p.netId (s.configs i) ≠ (i : Nat) ∧ ∀ j < i, p.netId (s.configs j) = (j : Nat) := by
  obtain ⟨hfree, before, after, hsplit, hbefore⟩ := List.find?_eq_some_iff_append.mp h
  refine ⟨of_decide_eq_true hfree, fun j hj => ?_⟩
  have hsorted : (before ++ i :: after).Pairwise (· < ·) :=
    hsplit ▸ pairwise_lt_finRange p.maxConfigSize
  have hmem : j ∈ before ++ i :: after := hsplit ▸ mem_finRange j
  rcases mem_append.mp hmem with hj' | hj'
  · by_contra hne
    have hfound := hbefore j hj'
    simp only [Bool.not_eq_true', decide_eq_false_iff_not, not_not] at hfound
    exact hne hfound
  · exfalso
    rcases mem_cons.mp hj' with rfl | hafter
    · exact Nat.lt_irrefl _ hj
    · have hlt := (pairwise_cons.mp (pairwise_append.mp hsorted).2.1).1 j hafter
      exact Nat.lt_asymm hj hlt

def savedFile (o : SaveOutcome) (entry : List UInt8) (old : Option (List UInt8)) :
    Option (List UInt8) :=
  if o.opened && o.kept then some (entry.take o.wrote) else old

theorem addDeviceConfig_taken {s : Wifi p} (o : SaveOutcome) (hlock : lockWifiGlobalLock s = some t)
    (hfree : freeSlot s = some i) : (addDeviceConfig s (some c) true o).1.configs =
        update s.configs i (p.setNetId (i : Nat) c) ∧
      ∀ j : p.Slot, (addDeviceConfig s (some c) true o).1.files (fileName j) =
        if j = i then savedFile o (p.setNetId (i : Nat) c) (s.files (fileName i))
        else s.files (fileName j) := by
  have hsame := sameStore_lock hlock
  have hfree' : freeSlot t = some i := (freeSlot_congr hsame.configs).trans hfree
  have hopen : ∀ u : Wifi p, u.configs = update t.configs i (p.setNetId (i : Nat) c) →
      u.configs = update s.configs i (p.setNetId (i : Nat) c) := by
    intro u hu
    rw [hu, hsame.configs]
  simp only [addDeviceConfig, hlock, hfree', savedFile]
  cases o.opened with
  | false =>
    refine ⟨hopen _ rfl, fun j => ?_⟩
    simp only [Bool.false_eq_true, if_false, Bool.false_and, Wifi.setConfig, hsame.files]
    split
    · rename_i hj
      rw [hj]
    · rfl
  | true =>
    simp only [if_true, Bool.true_and]
    cases o.kept with
    | false =>
      have hend := sameStore_finishAdd (t.setConfig i (p.setNetId (i : Nat) c)) i
        (decide (o.wrote = p.configSize))
      refine ⟨hopen _ hend.configs, fun j => ?_⟩
      simp only [Bool.false_eq_true, if_false]
      rw [hend.files, Wifi.setConfig, hsame.files]
      split
      · rename_i hj
        rw [hj]
      · rfl
    | true =>
      have hend := sameStore_finishAdd ((t.setConfig i (p.setNetId (i : Nat) c)).setFile i
        (some ((p.setNetId (i : Nat) c).take o.wrote))) i (decide (o.wrote = p.configSize))
      refine ⟨hopen _ hend.configs, fun j => ?_⟩
      simp only [if_true]
      rw [hend.files]
      split
      · rename_i hj
        rw [hj]
        exact setFile_self _ _ _
      · rename_i hj
        rw [setFile_of_ne _ hj, Wifi.setConfig, hsame.files]

theorem lock_eq_some {s : Wifi p} (h : lockWifiGlobalLock s = some t) :
    ∃ depth, s.globalLock = some depth ∧ t = { s with globalLock := some (depth + 1) } := by
  unfold lockWifiGlobalLock at h
  split at h
  · rename_i depth hdepth
    cases h
    exact ⟨depth, hdepth, rfl⟩
  · cases h

theorem addDeviceConfig_refused {s : Wifi p} (o : SaveOutcome)
    (h : lockWifiGlobalLock s = none ∨ freeSlot s = none) :
    (addDeviceConfig s (some c) true o).1 = s := by
  cases hlock : lockWifiGlobalLock s with
  | none => simp only [addDeviceConfig, hlock]
  | some t =>
    rcases h with hnone | hfull
    · rw [hlock] at hnone
      cases hnone
    · have hfull' : freeSlot t = none := (freeSlot_congr (sameStore_lock hlock).configs).trans hfull
      obtain ⟨depth, hdepth, rfl⟩ := lock_eq_some hlock
      simp only [addDeviceConfig, hlock, hfull']
      exact congrArg (Wifi.mk s.configs s.files) hdepth.symm

theorem step_add {config : Option (List UInt8)} {hasResult : Bool}
    (hstep : step s (.add config hasResult o) = some s') :
    s' = s ∨ ∃ c t i, config = some c ∧ hasResult = true ∧ c.length = p.configSize ∧
      lockWifiGlobalLock s.wifi = some t ∧ freeSlot s.wifi = some i ∧
      s' = { s with wifi := (addDeviceConfig s.wifi (some c) true o).1 }.noteAdd i
        (p.setNetId (i : Nat) c) o (addDeviceConfig s.wifi (some c) true o).2.1 := by
  have hlength : ∀ c ∈ config, c.length = p.configSize := by
    by_contra hno
    simp only [step, if_neg hno] at hstep
    cases hstep
  cases config with
  | none =>
    cases hstep
    exact .inl rfl
  | some c =>
    cases hasResult with
    | false =>
      simp only [step, if_pos hlength] at hstep
      cases hstep
      exact .inl rfl
    | true =>
      cases hlock : lockWifiGlobalLock s.wifi with
      | none =>
        simp only [step, if_pos hlength, hlock, addDeviceConfig_refused o (.inl hlock)] at hstep
        cases hstep
        exact .inl rfl
      | some t =>
        cases hfree : freeSlot s.wifi with
        | none =>
          simp only [step, if_pos hlength, hlock, hfree, addDeviceConfig_refused o
            (.inr hfree)] at hstep
          cases hstep
          exact .inl rfl
        | some i =>
          simp only [step, if_pos hlength, hlock, hfree] at hstep
          cases hstep
          exact .inr ⟨c, t, i, rfl, rfl, hlength c rfl, rfl, rfl, rfl⟩

theorem getDeviceConfigs_files (s : Wifi p) (hasArgs : Bool) (size : Nat)
    (o : p.Slot → LoadOutcome) : (getDeviceConfigs s hasArgs size o).1.files = s.files := by
  unfold getDeviceConfigs
  split
  · split
    · rfl
    · rename_i t hlock
      rw [(sameStore_unlockAndReturn _ _).files]
      exact (sameStore_lock hlock).files
  · rfl

def removed (s : Wifi p) (i : p.Slot) (deleted : Bool) : Wifi p :=
  if deleted then (s.setConfig i (emptyConfig p)).setFile i none
  else s.setConfig i (emptyConfig p)

theorem removeDevice_eq {s : Wifi p} (i : p.Slot) (deleted : Bool)
    (hlock : lockWifiGlobalLock s = some t) :
    removeDevice s (i : Nat) deleted = (removed s i deleted, .success) := by
  obtain ⟨depth, hdepth, rfl⟩ := lock_eq_some hlock
  have hs : s = { s with globalLock := some depth } := congrArg (Wifi.mk s.configs s.files) hdepth
  have hrange : (0 : Int) ≤ (i : Nat) ∧ ((i : Nat) : Int) < p.maxConfigSize :=
    ⟨Int.natCast_nonneg _, Int.ofNat_lt.mpr i.isLt⟩
  simp only [removeDevice, dif_pos hrange, hlock, Int.toNat_natCast, Fin.eta, removed]
  cases deleted with
  | false =>
    rw [hs]
    rfl
  | true =>
    rw [hs]
    rfl

theorem step_remove {networkId : Int} {deleted : Bool}
    (hstep : step s (.remove networkId deleted) = some s') : s' = s ∨ ∃ i, s' = { s with
      wifi := removed s.wifi i deleted
      added := update s.added i none
      saved := update s.saved i none } := by
  by_cases hrange : 0 ≤ networkId ∧ networkId < p.maxConfigSize
  · obtain ⟨n, rfl⟩ := Int.eq_ofNat_of_zero_le hrange.1
    have hn : n < p.maxConfigSize := Int.ofNat_lt.mp hrange.2
    cases hlock : lockWifiGlobalLock s.wifi with
    | none =>
      have hnone : removeDevice s.wifi n deleted = (s.wifi, .unknown) := by
        simp only [removeDevice, dif_pos hrange, hlock]
      simp only [step, hnone] at hstep
      rw [dif_neg fun hand => by cases hand.2] at hstep
      cases hstep
      exact .inl rfl
    | some =>
      have heq := removeDevice_eq ⟨n, hn⟩ deleted hlock
      simp only [step, heq] at hstep
      rw [dif_pos ⟨hrange, trivial⟩] at hstep
      cases hstep
      exact .inr ⟨⟨n, hn⟩, rfl⟩
  · have hnone : removeDevice s.wifi networkId deleted = (s.wifi, .invalidArgs) := by
      simp only [removeDevice, dif_neg hrange]
    simp only [step, hnone] at hstep
    rw [dif_neg fun hand => hrange hand.1] at hstep
    cases hstep
    exact .inl rfl

theorem removed_configs (s : Wifi p) (i : p.Slot) (deleted : Bool) :
    (removed s i deleted).configs = update s.configs i (emptyConfig p) := by
  cases deleted
  · rfl
  · rfl

theorem removed_files_of_ne (s : Wifi p) (hne : j ≠ i) (deleted : Bool) :
    (removed s i deleted).files (fileName j) = s.files (fileName j) := by
  cases deleted with
  | false => rfl
  | true => exact setFile_of_ne _ hne none

/-! The files of the saved networks. -/

/-- No file of a saved network was opened for writing, and every one of them holds
what was saved. -/
structure SavedIntact (s : Observed p) : Prop where
  overwritten : s.overwritten = []
  files : ∀ i c, s.saved i = some c → s.wifi.files (fileName i) = some c

/-- `AddDeviceConfig` is called when every saved network is in the table, or has a free
entry of the table before it. -/
def TableKnowsSaved (s : Observed p) : WifiDevice.Event p → Prop
  | .add (some _) true _ => ∀ i, s.saved i ≠ none → p.netId (s.wifi.configs i) = (i : Nat) ∨
        ∃ j < i, p.netId (s.wifi.configs j) ≠ (j : Nat)
  | _ => True

instance (s : Observed p) : (e : WifiDevice.Event p) → Decidable (TableKnowsSaved s e)
  | .add (some _) true _ => inferInstanceAs (Decidable (∀ _, _ → _))
  | .add none _ _ | .add (some _) false _ | .get .. | .remove .. | .restart => isTrue trivial

theorem TableKnowsSaved.free (h : TableKnowsSaved s (.add (some c) true o))
    (hfree : freeSlot s.wifi = some i) : s.saved i = none := by
  obtain ⟨hunused, hbefore⟩ := freeSlot_spec hfree
  by_contra hsaved
  rcases h i hsaved with hused | ⟨j, hj, hjfree⟩
  · exact hunused hused
  · exact hjfree (hbefore j hj)

theorem SavedIntact.add (h : SavedIntact s) (hlength : c.length = p.configSize)
    (hlock : lockWifiGlobalLock s.wifi = some t) (hfree : freeSlot s.wifi = some i)
    (hsaved : s.saved i = none) (code : WifiErrorCode) :
    SavedIntact ({ s with wifi := (addDeviceConfig s.wifi (some c) true o).1 }.noteAdd i
      (p.setNetId (i : Nat) c) o code) := by
  obtain ⟨-, hfiles⟩ := addDeviceConfig_taken (c := c) o hlock hfree
  refine ⟨?_, fun j d hd => ?_⟩
  · change (if o.opened = true ∧ s.saved i ≠ none then _ else s.overwritten) = []
    rw [if_neg fun hand => hand.2 hsaved]
    exact h.overwritten
  · change (addDeviceConfig s.wifi (some c) true o).1.files (fileName j) = some d
    change (if o.opened && o.kept then _ else s.saved) j = some d at hd
    rw [hfiles]
    unfold savedFile
    split at hd
    · rename_i hkept
      split
      · rename_i hj
        rw [hj, update_self] at hd
        split at hd
        · rename_i hwrote
          cases hd
          rw [hwrote, ← hlength, ← p.length_setNetId, take_length]
        · cases hd
      · rename_i hj
        rw [update_of_ne hj] at hd
        exact h.files j d hd
    · rename_i hkept
      split
      · rename_i hj
        rw [hj] at hd
        exact h.files i d hd
      · exact h.files j d hd

theorem step_savedIntact {e : WifiDevice.Event p} (h : SavedIntact s) (hok : TableKnowsSaved s e)
    (hstep : step s e = some s') : SavedIntact s' := by
  cases e with
  | add =>
    rcases step_add hstep with rfl | ⟨c, t, i, rfl, rfl, hlength, hlock, hfree, rfl⟩
    · exact h
    · exact h.add hlength hlock hfree (hok.free hfree) _
  | get hasArgs size o =>
    have hfiles := getDeviceConfigs_files s.wifi hasArgs size o
    have hkept : ∀ i c, s.saved i = some c →
        (getDeviceConfigs s.wifi hasArgs size o).1.files (fileName i) = some c := by
      intro i c hc
      rw [hfiles]
      exact h.files i c hc
    simp only [step] at hstep
    split at hstep
    · cases hstep
      exact ⟨h.overwritten, hkept⟩
    · cases hstep
      exact ⟨h.overwritten, hkept⟩
  | remove networkId deleted =>
    rcases step_remove hstep with rfl | ⟨i, rfl⟩
    · exact h
    · refine ⟨h.overwritten, fun j c hc => ?_⟩
      change update s.saved i none j = some c at hc
      by_cases hj : j = i
      · rw [hj, update_self] at hc
        cases hc
      · rw [update_of_ne hj] at hc
        exact (removed_files_of_ne s.wifi hj deleted).trans (h.files j c hc)
  | restart =>
    cases hstep
    exact ⟨h.overwritten, h.files⟩

def tenEntries : Platform where
  maxConfigSize := 10
  configSize := 2
  netId c := if c.headD 0 = 255 then -1 else (c.headD 0).toNat
  setNetId i c := match c with
    | [] => []
    | _ :: rest => (if i < 0 then 255 else UInt8.ofNat i.toNat) :: rest
  named := by decide
  length_setNetId i c := by cases c <;> rfl
  netId_setNetId i c hlength hmin hmax := by
    obtain ⟨b, rest, rfl⟩ := exists_cons_of_length_eq_add_one hlength
    change -1 ≤ i at hmin
    change i < 10 at hmax
    interval_cases i <;> rfl

def savedWhole : SaveOutcome := ⟨true, 2, true⟩

def addNetwork (b : UInt8) : WifiDevice.Event tenEntries := .add (some [0, b]) true savedWhole

def getNetworks : WifiDevice.Event tenEntries := .get true 10 fun _ => ⟨true, true, 2⟩

/-- In every state reached, no file of a saved network has been opened for writing,
and every one of them holds what was saved. -/
theorem reached_savedIntact {s : Observed p}
    (h : Reached step TableKnowsSaved (Observed.start p) s) : SavedIntact s := by
  refine h.invariant SavedIntact ⟨rfl, ?_⟩ fun _ _ _ => step_savedIntact
  rintro i c ⟨⟩

theorem reached_savedIntact_reloaded :
    ∃ s, Reached step TableKnowsSaved (Observed.start tenEntries) s ∧
      (finRange tenEntries.maxConfigSize).filterMap s.saved = [[0, 7], [1, 8]] ∧
      SavedIntact s :=
  exists_reached_and (fun _ => reached_savedIntact)
    [addNetwork 7, .restart, getNetworks, addNetwork 8] (by decide)

theorem restart_overwrites_first :
    ¬ ∀ s, Reached step anyStep (Observed.start tenEntries) s → SavedIntact s := by
  intro hall
  obtain ⟨s, hs, hslots, -⟩ := exists_reached step anyStep (.start tenEntries)
    (fun s => s.overwritten.map Fin.val = [0] ∧ s.wifi.files (fileName 0) = some [0, 8])
    [addNetwork 7, .restart, addNetwork 8] (by decide)
  rw [(hall s hs).overwritten] at hslots
  cases hslots

/-! The answers of `GetDeviceConfigs`. -/

/-- Every call of `GetDeviceConfigs` returned what had been added and not removed, as
far as there was room for it. -/
def GetsExact (s : Observed p) : Prop := ∀ g ∈ s.gets, g.returned = g.expected.take g.size

/-- The file system does what it is asked for, the device is not restarted, and
`GetDeviceConfigs` is called when the first entry has its file or no entry has. -/
def ScanComplete (s : Observed p) : WifiDevice.Event p → Prop
  | .add _ _ o => o.opened = true ∧ o.wrote = p.configSize ∧ o.kept = true
  | .remove _ deleted => deleted = true
  | .get _ _ o =>
    (∀ i : p.Slot, ∀ file ∈ s.wifi.files (fileName i),
      (o i).stat = true ∧ (o i).opened = true ∧ file.length ≤ (o i).read) ∧
    (s.wifi.files (fileName 0) ≠ none ∨ ∀ i : p.Slot, s.wifi.files (fileName i) = none)
  | .restart => False

instance (s : Observed p) : (e : WifiDevice.Event p) → Decidable (ScanComplete s e)
  | .add .. => inferInstanceAs (Decidable (_ ∧ _ ∧ _))
  | .remove _ deleted => inferInstanceAs (Decidable (deleted = true))
  | .get .. => inferInstanceAs (Decidable (_ ∧ _))
  | .restart => isFalse id

structure TableInv (s : Observed p) : Prop where
  lock : ∃ depth, s.wifi.globalLock = some depth
  held : ∀ i c, s.added i = some c → s.wifi.configs i = c ∧
    s.wifi.files (fileName i) = some c ∧ p.netId c = (i : Nat)
  free : ∀ i, s.added i = none → s.wifi.configs i = emptyConfig p ∧ s.wifi.files (fileName i) = none
  gets : GetsExact s

theorem netId_emptyConfig (p : Platform) : p.netId (emptyConfig p) = wifiConfigInvalid := by
  apply p.netId_setNetId
  · exact length_replicate
  · exact le_refl _
  · change (-1 : Int) < p.maxConfigSize
    omega

theorem netId_entry (i : p.Slot) (h : c.length = p.configSize) :
    p.netId (p.setNetId (i : Nat) c) = (i : Nat) := by
  apply p.netId_setNetId _ _ h
  · change (-1 : Int) ≤ (i : Nat)
    omega
  · exact Int.ofNat_lt.mpr i.isLt

theorem memcpy_self (c : List UInt8) (len : Nat) : memcpy c c len = c := take_append_drop len c

theorem loadLoop_same {files : Path → Option (List UInt8)} (o : p.Slot → LoadOutcome)
    (is : List p.Slot) {configs : p.Slot → List UInt8}
    (h : ∀ (i : p.Slot) file, files (fileName i) = some file → configs i = file) :
    (loadLoop files o is configs).1 = configs := by
  induction is with
  | nil => rfl
  | cons i is ih =>
    rw [loadLoop]
    split
    · rfl
    · rename_i file hfile
      have hupdate : update configs i
          (memcpy (configs i) file (min (o i).read file.length)) = configs := by
        rw [h i file hfile, memcpy_self, ← h i file hfile, update_eq_self]
      split
      · split
        · rw [hupdate]
          split
          · exact ih
          · rfl
        · rfl
      · rfl

theorem loadLoop_end {files : Path → Option (List UInt8)} {o : p.Slot → LoadOutcome}
    (is : List p.Slot) (configs : p.Slot → List UInt8)
    (h : ∀ i : p.Slot, ∀ file ∈ files (fileName i),
      (o i).stat = true ∧ (o i).opened = true ∧ file.length ≤ (o i).read) :
    ∃ k, (loadLoop files o is configs).2 = some k ∧
      (k = p.maxConfigSize ∨ ∃ i ∈ is, (i : Nat) = k ∧ files (fileName i) = none) := by
  induction is generalizing configs with
  | nil => exact ⟨_, rfl, .inl rfl⟩
  | cons i is ih =>
    rw [loadLoop]
    split
    · rename_i hmissing
      exact ⟨i, rfl, .inr ⟨i, mem_cons_self, rfl, hmissing⟩⟩
    · rename_i file hfile
      obtain ⟨hstat, hopened, hread⟩ := h i file hfile
      rw [if_pos hstat, if_pos hopened]
      rw [if_pos hread]
      obtain ⟨k, hk, hend⟩ := ih (update configs i
        (memcpy (configs i) file (min (o i).read file.length)))
      refine ⟨k, hk, hend.imp id ?_⟩
      rintro ⟨j, hj, hrest⟩
      exact ⟨j, mem_cons_of_mem _ hj, hrest⟩

theorem getDeviceConfigs_eq {s : Wifi p} (o : p.Slot → LoadOutcome)
    (hlock : s.globalLock = some depth) (hsize : size ≠ 0) :
    (getDeviceConfigs s true size o).1 = { s with
        configs := (loadLoop s.files o (finRange p.maxConfigSize) s.configs).1 } ∧
      (getDeviceConfigs s true size o).2.2 =
        copied p size (loadLoop s.files o (finRange p.maxConfigSize) s.configs) := by
  have hargs : (true && decide (size ≠ 0)) = true := by simp [hsize]
  simp only [getDeviceConfigs, if_pos hargs, lockWifiGlobalLock, hlock]
  exact ⟨rfl, trivial⟩

theorem TableInv.listed_eq (h : TableInv s) :
    listed p s.wifi.configs = (finRange p.maxConfigSize).filterMap s.added := by
  apply filterMap_congr
  intro i _
  cases hadded : s.added i with
  | none => rw [(h.free i hadded).1, if_pos (netId_emptyConfig p)]
  | some c =>
    obtain ⟨hconfig, -, hid⟩ := h.held i c hadded
    rw [hconfig, if_neg]
    rw [hid]
    change ((i : Nat) : Int) ≠ -1
    omega

theorem TableInv.loaded (h : TableInv s) (i : p.Slot) (file : List UInt8)
    (hfile : s.wifi.files (fileName i) = some file) : s.wifi.configs i = file := by
  cases hadded : s.added i with
  | none =>
    rw [(h.free i hadded).2] at hfile
    cases hfile
  | some c =>
    obtain ⟨hconfig, hc, -⟩ := h.held i c hadded
    rw [hc] at hfile
    cases hfile
    exact hconfig

theorem TableInv.copied_eq (h : TableInv s) (size : Nat) {o : p.Slot → LoadOutcome}
    (hok : ∀ i : p.Slot, ∀ file ∈ s.wifi.files (fileName i),
      (o i).stat = true ∧ (o i).opened = true ∧ file.length ≤ (o i).read)
    (hfirst : s.wifi.files (fileName 0) ≠ none ∨ ∀ i : p.Slot, s.wifi.files (fileName i) = none) :
    copied p size (loadLoop s.wifi.files o (finRange p.maxConfigSize) s.wifi.configs) =
      ((finRange p.maxConfigSize).filterMap s.added).take size := by
  obtain ⟨k, hk, hend⟩ := loadLoop_end (finRange p.maxConfigSize) s.wifi.configs hok
  have hsame := loadLoop_same o (finRange p.maxConfigSize) h.loaded
  have hr : loadLoop s.wifi.files o (finRange p.maxConfigSize) s.wifi.configs =
      (s.wifi.configs, some k) := Prod.ext hsame hk
  rw [hr, ← h.listed_eq]
  cases k with
  | succ => rfl
  | zero =>
    -- the scan stops at once, and then nothing is in the table
    have hnothing : listed p s.wifi.configs = [] := by
      rw [h.listed_eq, filterMap_eq_nil_iff]
      intro i _
      have hmissing : s.wifi.files (fileName i) = none := by
        rcases hfirst with hthere | hnone
        · rcases hend with hzero | ⟨j, -, hj, hmissing⟩
          · exact absurd i.isLt (by omega)
          · rw [hj] at hmissing
            exact absurd hmissing hthere
        · exact hnone i
      cases hadded : s.added i with
      | none => rfl
      | some c =>
        rw [(h.held i c hadded).2.1] at hmissing
        cases hmissing
    rw [hnothing, take_nil]
    rfl

theorem addDeviceConfig_complete {s : Wifi p} (hlock : s.globalLock = some depth)
    (hfree : freeSlot s = some i) (hopened : o.opened = true) (hwrote : o.wrote = p.configSize) :
    (addDeviceConfig s (some c) true o).1.globalLock = some depth ∧
      (addDeviceConfig s (some c) true o).2.1 = .success := by
  have hfree' : freeSlot { s with globalLock := some (depth + 1) } = some i := hfree
  simp only [addDeviceConfig, lockWifiGlobalLock, hlock, hfree', hopened, if_true, hwrote,
    decide_true, finishAdd, returnNetId]
  cases o.kept with
  | false | true => exact ⟨rfl, rfl⟩

theorem TableInv.add (h : TableInv s) (hlength : c.length = p.configSize)
    (hlock : lockWifiGlobalLock s.wifi = some t) (hfree : freeSlot s.wifi = some i)
    (hok : ScanComplete s (.add (some c) true o)) :
    TableInv ({ s with wifi := (addDeviceConfig s.wifi (some c) true o).1 }.noteAdd i
      (p.setNetId (i : Nat) c) o (addDeviceConfig s.wifi (some c) true o).2.1) := by
  obtain ⟨hopened, hwrote, hkept⟩ := hok
  obtain ⟨depth, hdepth⟩ := h.lock
  obtain ⟨hlock', hcode⟩ := addDeviceConfig_complete (c := c) hdepth hfree hopened hwrote
  obtain ⟨hconfigs, hfiles⟩ := addDeviceConfig_taken (c := c) o hlock hfree
  have hentry : savedFile o (p.setNetId (i : Nat) c) (s.wifi.files (fileName i)) =
      some (p.setNetId (i : Nat) c) := by
    rw [savedFile, hopened, hkept, Bool.and_self, if_pos rfl, hwrote, ← hlength,
      ← p.length_setNetId, take_length]
  rw [hcode]
  refine ⟨⟨depth, hlock'⟩, fun j d hd => ?_, fun j hd => ?_, h.gets⟩
  · change update s.added i _ j = some d at hd
    change (addDeviceConfig s.wifi (some c) true o).1.configs j = d ∧
      (addDeviceConfig s.wifi (some c) true o).1.files (fileName j) = some d ∧ _
    rw [hconfigs, hfiles]
    by_cases hj : j = i
    · rw [hj, update_self] at hd
      cases hd
      rw [hj, update_self, if_pos rfl, hentry]
      exact ⟨rfl, rfl, netId_entry i hlength⟩
    · rw [update_of_ne hj] at hd
      rw [update_of_ne hj, if_neg hj]
      exact h.held j d hd
  · change update s.added i _ j = none at hd
    change (addDeviceConfig s.wifi (some c) true o).1.configs j = _ ∧
      (addDeviceConfig s.wifi (some c) true o).1.files (fileName j) = none
    rw [hconfigs, hfiles]
    by_cases hj : j = i
    · rw [hj, update_self] at hd
      cases hd
    · rw [update_of_ne hj] at hd
      rw [update_of_ne hj, if_neg hj]
      exact h.free j hd

theorem TableInv.remove (h : TableInv s) (i : p.Slot) : TableInv { s with
      wifi := removed s.wifi i true
      added := update s.added i none
      saved := update s.saved i none } := by
  refine ⟨h.lock, fun j d hd => ?_, fun j hd => ?_, h.gets⟩
  · change update s.added i none j = some d at hd
    by_cases hj : j = i
    · rw [hj, update_self] at hd
      cases hd
    · rw [update_of_ne hj] at hd
      rw [removed_configs, update_of_ne hj, removed_files_of_ne s.wifi hj]
      exact h.held j d hd
  · change update s.added i none j = none at hd
    by_cases hj : j = i
    · rw [hj, removed_configs, update_self]
      exact ⟨rfl, setFile_self _ _ _⟩
    · rw [update_of_ne hj] at hd
      rw [removed_configs, update_of_ne hj, removed_files_of_ne s.wifi hj]
      exact h.free j hd

theorem TableInv.get (h : TableInv s) {hasArgs : Bool} {o : p.Slot → LoadOutcome}
    (hok : ScanComplete s (.get hasArgs size o)) (hstep : step s (.get hasArgs size o) = some s') :
    TableInv s' := by
  simp only [step] at hstep
  split at hstep
  · rename_i hargs
    obtain ⟨hptr, hsize⟩ := Bool.and_eq_true_iff.mp hargs
    obtain ⟨depth, hdepth⟩ := h.lock
    obtain ⟨hwifi, hresult⟩ := getDeviceConfigs_eq o hdepth (of_decide_eq_true hsize)
    rw [loadLoop_same o _ h.loaded] at hwifi
    rw [h.copied_eq size hok.1 hok.2] at hresult
    rw [hptr, hwifi, hresult] at hstep
    cases hstep
    refine { h with gets := fun g hg => ?_ }
    rcases mem_cons.mp hg with rfl | hg
    · rfl
    · exact h.gets g hg
  · rename_i hargs
    have hsame : (getDeviceConfigs s.wifi hasArgs size o).1 = s.wifi := by
      rw [getDeviceConfigs, if_neg hargs]
    rw [hsame] at hstep
    cases hstep
    exact h

theorem step_tableInv {e : WifiDevice.Event p} (h : TableInv s) (hok : ScanComplete s e)
    (hstep : step s e = some s') : TableInv s' := by
  cases e with
  | add =>
    rcases step_add hstep with rfl | ⟨c, t, i, rfl, rfl, hlength, hlock, hfree, rfl⟩
    · exact h
    · exact h.add hlength hlock hfree hok
  | get => exact h.get hok hstep
  | remove networkId deleted =>
    have hdeleted : deleted = true := hok
    rw [hdeleted] at hstep
    rcases step_remove hstep with rfl | ⟨i, rfl⟩
    · exact h
    · exact h.remove i
  | restart => exact hok.elim

theorem tableInv_start (p : Platform) : TableInv (Observed.start p) := by
  refine ⟨⟨0, rfl⟩, ?_, fun i _ => ⟨rfl, rfl⟩, ?_⟩
  · rintro i c ⟨⟩
  · rintro g ⟨⟩

/-- In every state reached, every call of `GetDeviceConfigs` returned exactly the
networks that were added with success and not removed. -/
theorem reached_getsExact {s : Observed p}
    (h : Reached step ScanComplete (Observed.start p) s) : GetsExact s :=
  (h.invariant TableInv (tableInv_start p) fun _ _ _ => step_tableInv).gets

theorem reached_getsExact_removed : ∃ s, Reached step ScanComplete (Observed.start tenEntries) s ∧
      s.gets.map Got.returned = [[[0, 7], [2, 9]], []] ∧ GetsExact s :=
  exists_reached_and (fun _ => reached_getsExact)
    [getNetworks, addNetwork 7, addNetwork 8, addNetwork 9, .remove 1 true, getNetworks]
    (by decide)

theorem first_removed_hides_rest :
    ¬ ∀ s, Reached step anyStep (Observed.start tenEntries) s → GetsExact s := by
  intro hall
  obtain ⟨s, hs, hmem⟩ := exists_reached step anyStep (.start tenEntries)
    (fun s => ⟨10, [], [[1, 8]]⟩ ∈ s.gets)
    [addNetwork 7, addNetwork 8, .remove 0 true, getNetworks] (by decide)
  have hexact := hall s hs _ hmem
  cases hexact

end BekenSoc.WifiDeviceConfigs
