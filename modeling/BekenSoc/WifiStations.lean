import BekenSoc.WifiListeners
import Mathlib.Data.Fintype.Card

namespace BekenSoc.WifiStations

open Function WifiListeners List

abbrev macLen : Nat := 6

abbrev Mac := Fin macLen → UInt8

def sameMac (mac1 mac2 : Mac) : Bool := (finRange macLen).all fun i => decide (mac1 i = mac2 i)

def addSta (allocated : Bool) (value : Mac) (staInfo : List Mac) : List Mac :=
  if allocated then value :: staInfo else staInfo

def rmSta (value : Mac) : List Mac → List Mac
  | [] => []
  | mac :: rest => if sameMac mac value then rest else mac :: rmSta value rest

structure StationInfo where
  macAddress : Mac
  ipAddress : Nat

def getApInfo : List Mac → Nat → List StationInfo
  | [], _ => []
  | mac :: rest, room => ⟨mac, 0x0100007f⟩ :: if room ≤ 1 then [] else getApInfo rest (room - 1)

structure WifiEvent where
  onHotspotStaJoin : Bool
  onHotspotStaLeave : Bool

inductive StaEvent
  | connected (mac : Mac)
  | disconnected (mac : Mac)
  deriving DecidableEq

def dispatchAPConnectEvent (allocated : Bool) (msg : StaEvent) (hosEvent : WifiEvent)
    (staInfo : List Mac) : List Mac :=
  match msg with
  | .connected mac => if hosEvent.onHotspotStaJoin then addSta allocated mac staInfo else staInfo
  | .disconnected mac => if hosEvent.onHotspotStaLeave then rmSta mac staInfo else staInfo

section Table

variable {n : Nat} (wifiEvent : Nat → WifiEvent) (events : Fin n → Option Nat)

def staInfoAfter (staInfo : List Mac) (msg : StaEvent) : List Mac :=
  bkWifiEventCb (fun event => dispatchAPConnectEvent true msg (wifiEvent event)) events staInfo

def joins : Nat :=
  (finRange n).countP fun i => (events i).any fun event => (wifiEvent event).onHotspotStaJoin

def leaves : Nat :=
  (finRange n).countP fun i => (events i).any fun event => (wifiEvent event).onHotspotStaLeave

end Table

def connectedAfter (connected : Mac → Bool) : StaEvent → Mac → Bool
  | .connected mac => update connected mac true
  | .disconnected mac => update connected mac false

/-- `GetApInfo` with enough room returns the connected stations, each of them once. -/
def ListsConnected (staInfo : List Mac) (connected : Mac → Bool) : Prop :=
  ∀ room, staInfo.length ≤ room → ((getApInfo staInfo room).map StationInfo.macAddress).Nodup ∧
      ∀ mac, mac ∈ (getApInfo staInfo room).map StationInfo.macAddress ↔ connected mac = true

/-- A station that connects was not connected and is added by exactly one listener; one that
disconnects is removed by some listener. -/
def ListedOnce (joins leaves : Nat) (connected : Mac → Bool) : StaEvent → Prop
  | .connected mac => if connected mac then joins = 0 else joins = 1
  | .disconnected mac => connected mac = true → leaves ≠ 0

theorem sameMac_iff {mac1 mac2 : Mac} : sameMac mac1 mac2 = true ↔ mac1 = mac2 := by
  simp only [sameMac, all_eq_true, mem_finRange, forall_const, decide_eq_true_eq]
  exact funext_iff.symm

theorem rmSta_eq_erase (value : Mac) (staInfo : List Mac) :
    rmSta value staInfo = staInfo.erase value := by
  induction staInfo with
  | nil => rfl
  | cons mac rest ih =>
    rw [rmSta]
    split
    · rename_i h
      rw [sameMac_iff.mp h, erase_cons_head]
    · rename_i h
      rw [sameMac_iff] at h
      rw [erase_cons_tail (by simpa using h), ih]

theorem getApInfo_macs (staInfo : List Mac) {room : Nat} (h : staInfo.length ≤ room) :
    (getApInfo staInfo room).map StationInfo.macAddress = staInfo := by
  induction staInfo generalizing room with
  | nil => rfl
  | cons mac rest ih =>
    rw [length_cons] at h
    rw [getApInfo, map_cons]
    split
    · rename_i hroom
      have hrest : rest = [] := length_eq_zero_iff.mp (by omega)
      rw [hrest]
      rfl
    · rw [ih (by omega)]

theorem listsConnected_iff {staInfo : List Mac} {connected : Mac → Bool} :
    ListsConnected staInfo connected ↔
      staInfo.Nodup ∧ ∀ mac, mac ∈ staInfo ↔ connected mac = true := by
  constructor
  · intro h
    have hroom := h staInfo.length (le_refl _)
    rw [getApInfo_macs staInfo (le_refl _)] at hroom
    exact hroom
  · intro h room hroom
    rw [getApInfo_macs staInfo hroom]
    exact h

theorem foldl_entries {n : Nat} {State : Type} (events : Fin n → Option Nat)
    (has : Nat → Bool) (update : State → State) (is : List (Fin n)) (s : State) :
    is.foldl (fun s i => (events i).elim s fun event => if has event then update s else s) s =
      update^[is.countP fun i => (events i).any has] s := by
  induction is generalizing s with
  | nil => rfl
  | cons i is ih =>
    rw [foldl_cons, ih, countP_cons]
    cases hi : events i with
    | none => rfl
    | some event =>
      cases hhas : has event with
      | false => simp [hhas]
      | true =>
        simp only [hhas, Option.elim_some, if_true, Option.any_some]
        exact (Function.iterate_succ_apply _ _ _).symm

theorem iterate_cons (mac : Mac) (k : Nat) (staInfo : List Mac) :
    (mac :: ·)^[k] staInfo = replicate k mac ++ staInfo := by
  induction k with
  | zero => rfl
  | succ k ih =>
    rw [Function.iterate_succ_apply', ih]
    rfl

section Steps

variable {n : Nat} {wifiEvent : Nat → WifiEvent} {events : Fin n → Option Nat}
  {staInfo : List Mac} {connected : Mac → Bool}

theorem staInfoAfter_connected (mac : Mac) :
    staInfoAfter wifiEvent events staInfo (.connected mac) =
      replicate (joins wifiEvent events) mac ++ staInfo := by
  rw [← iterate_cons]
  exact foldl_entries events (fun event => (wifiEvent event).onHotspotStaJoin) (mac :: ·) _ _

theorem staInfoAfter_disconnected (mac : Mac) :
    staInfoAfter wifiEvent events staInfo (.disconnected mac) =
      (rmSta mac)^[leaves wifiEvent events] staInfo :=
  foldl_entries events (fun event => (wifiEvent event).onHotspotStaLeave) (rmSta mac) _ _

theorem iterate_rmSta {mac : Mac} {k : Nat} (hk : k ≠ 0) (h : staInfo.Nodup) :
    (rmSta mac)^[k] staInfo = staInfo.erase mac := by
  induction k with
  | zero => exact absurd rfl hk
  | succ k ih =>
    rw [Function.iterate_succ_apply']
    rcases eq_or_ne k 0 with rfl | hk
    · exact rmSta_eq_erase mac staInfo
    · rw [ih hk, rmSta_eq_erase, erase_of_not_mem h.not_mem_erase]

section

variable (h : ListsConnected staInfo connected)
include h

theorem listsConnected_add_iff (mac : Mac) (k : Nat) :
    ListsConnected (replicate k mac ++ staInfo) (update connected mac true) ↔
      if connected mac then k = 0 else k = 1 := by
  obtain ⟨hnodup, hmem⟩ := listsConnected_iff.mp h
  rw [listsConnected_iff]
  constructor
  · rintro ⟨hnodup', hmem'⟩
    have hat : mac ∈ replicate k mac ++ staInfo := by rw [hmem', update_self]
    obtain ⟨hreplicate, -, hdisjoint⟩ := nodup_append.mp hnodup'
    have hle : k ≤ 1 := nodup_replicate.mp hreplicate
    split
    · rename_i hconnected
      by_contra hk
      have hmac : mac ∈ replicate k mac := mem_replicate.mpr ⟨hk, rfl⟩
      exact hdisjoint mac hmac mac ((hmem mac).mpr hconnected) rfl
    · rename_i hconnected
      rcases mem_append.mp hat with hnew | hold
      · have hk := (mem_replicate.mp hnew).1
        omega
      · exact absurd ((hmem mac).mp hold) hconnected
  · split
    · rename_i hconnected
      rintro rfl
      refine ⟨hnodup, fun other => ?_⟩
      rcases eq_or_ne other mac with rfl | hne
      · rw [update_self]
        exact iff_of_true ((hmem other).mpr hconnected) rfl
      · rw [update_of_ne hne]
        exact hmem other
    · rename_i hconnected
      rintro rfl
      refine ⟨nodup_cons.mpr ⟨fun hold => hconnected ((hmem mac).mp hold), hnodup⟩, ?_⟩
      intro other
      rcases eq_or_ne other mac with rfl | hne
      · rw [update_self]
        exact iff_of_true mem_cons_self rfl
      · rw [update_of_ne hne, ← hmem other]
        exact mem_cons.trans (or_iff_right hne)

theorem listsConnected_remove_iff (mac : Mac) (k : Nat) :
    ListsConnected ((rmSta mac)^[k] staInfo) (update connected mac false) ↔
      (connected mac = true → k ≠ 0) := by
  obtain ⟨hnodup, hmem⟩ := listsConnected_iff.mp h
  rw [listsConnected_iff]
  constructor
  · rintro ⟨-, hmem'⟩ hconnected rfl
    have hnot := (hmem' mac).mp ((hmem mac).mpr hconnected)
    rw [update_self] at hnot
    cases hnot
  · intro hk
    have herase : (rmSta mac)^[k] staInfo = staInfo.erase mac := by
      cases hconnected : connected mac with
      | true => exact iterate_rmSta (hk hconnected) hnodup
      | false =>
        have hout : mac ∉ staInfo := by
          rw [hmem, hconnected]
          exact Bool.false_ne_true
        rw [erase_of_not_mem hout]
        refine Function.iterate_fixed ?_ k
        rw [rmSta_eq_erase, erase_of_not_mem hout]
    rw [herase]
    refine ⟨hnodup.erase mac, fun other => ?_⟩
    rw [hnodup.mem_erase_iff]
    rcases eq_or_ne other mac with rfl | hne
    · rw [update_self]
      simp
    · rw [update_of_ne hne, ← hmem other]
      exact and_iff_right hne

theorem listsConnected_after_iff (msg : StaEvent) :
    ListsConnected (staInfoAfter wifiEvent events staInfo msg) (connectedAfter connected msg) ↔
      ListedOnce (joins wifiEvent events) (leaves wifiEvent events) connected msg := by
  cases msg with
  | connected mac =>
    rw [staInfoAfter_connected]
    exact listsConnected_add_iff h mac _
  | disconnected mac =>
    rw [staInfoAfter_disconnected]
    exact listsConnected_remove_iff h mac _

end

end Steps

section Runs

variable {n : Nat} (wifiEvent : Nat → WifiEvent) (events : Fin n → Option Nat)

def staInfoOf (msgs : List StaEvent) : List Mac := msgs.foldl (staInfoAfter wifiEvent events) []

def connectedOf (msgs : List StaEvent) : Mac → Bool := msgs.foldl connectedAfter fun _ => false

theorem listsConnected_nil : ListsConnected (staInfoOf wifiEvent events []) (connectedOf []) :=
  listsConnected_iff.mpr ⟨nodup_nil, by simp [staInfoOf, connectedOf]⟩

/-- The list is right all along a sequence of station events if and only if each event
lists its station once. -/
theorem listsConnected_run_iff (msgs : List StaEvent) : (∀ past, past <+: msgs →
      ListsConnected (staInfoOf wifiEvent events past) (connectedOf past)) ↔
    ∀ past msg, past ++ [msg] <+: msgs →
      ListedOnce (joins wifiEvent events) (leaves wifiEvent events) (connectedOf past) msg := by
  have hstep : ∀ past msg, ListsConnected (staInfoOf wifiEvent events past) (connectedOf past) →
      (ListsConnected (staInfoOf wifiEvent events (past ++ [msg])) (connectedOf (past ++ [msg])) ↔
        ListedOnce (joins wifiEvent events) (leaves wifiEvent events) (connectedOf past) msg) := by
    intro past msg h
    rw [staInfoOf, connectedOf, foldl_append, foldl_append]
    exact listsConnected_after_iff h msg
  constructor
  · intro hall past msg hpast
    have hbefore : past <+: msgs := (prefix_append past [msg]).trans hpast
    exact (hstep past msg (hall past hbefore)).mp (hall _ hpast)
  · intro hall past
    -- The invariant is carried from the empty sequence on, one event at a time.
    induction past using reverseRecOn with
    | nil =>
      intro _
      exact listsConnected_nil wifiEvent events
    | append_singleton past msg ih =>
      intro hpast
      have hbefore : past <+: msgs := (prefix_append past [msg]).trans hpast
      exact (hstep past msg (ih hbefore)).mpr (hall past msg hpast)

end Runs

def station (last : UInt8) : Mac := fun i => if (i : Nat) = 5 then last else 0

-- Two listeners that both want to know of new stations: one station is listed twice.
theorem two_join_callbacks_list_twice :
    ¬ ∀ (wifiEvent : Nat → WifiEvent) (events : Fin 2 → Option Nat) (msgs : List StaEvent),
      (∃ i, events i ≠ none) →
      ListsConnected (staInfoOf wifiEvent events msgs) (connectedOf msgs) := by
  intro hall
  have hlists := hall (fun _ => ⟨true, true⟩) (fun i => some i) [.connected (station 1)]
    ⟨0, by simp⟩
  have hnodup := (listsConnected_iff.mp hlists).1
  exact absurd hnodup (by decide)

end BekenSoc.WifiStations
