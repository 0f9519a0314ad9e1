import BekenSoc.WifiDevice

/-!
The calls of the Wi-Fi service that take its two locks (`wifi_device.c`,
`wifi_device_util.c` and `wifi_hotspot.c`), as one task makes them.

Both locks are recursive mutexes.  Their depth is how often the calling task holds
them: `osMutexAcquire` waits until it gets the lock, and `osMutexRelease` fails on a
lock that the task does not hold.
-/

namespace BekenSoc.WifiService

open CRuntime
open WifiDevice hiding addDeviceConfig getDeviceConfigs removeDevice

inductive HotspotStatus
  | active
  | notActive
  deriving DecidableEq

/-- The state of the service.  An entry of `g_wifiEvents` is a pointer to a `WifiEvent`.
`strayUnlocks` is not in the code: it counts the releases of a lock that was not
held. -/
structure Service (p : Platform) (n : Nat) where
  wifi : Wifi p
  eventLock : Option Nat
  events : Fin n → Option Nat
  apStatus : HotspotStatus
  apCfgFlag : Nat
  strayUnlocks : Nat

variable {p : Platform} {n : Nat}

def Service.boot (p : Platform) (n : Nat) (files : HalFile.Path → Option (List UInt8)) :
    Service p n :=
  ⟨Wifi.boot p files, some 0, fun _ => none, .notActive, 0, 0⟩

structure Balanced (s s' : Service p n) : Prop where
  globalLock : s'.wifi.globalLock = s.wifi.globalLock
  eventLock : s'.eventLock = s.eventLock
  strayUnlocks : s'.strayUnlocks = s.strayUnlocks

theorem Balanced.refl (s : Service p n) : Balanced s s := ⟨rfl, rfl, rfl⟩

theorem Balanced.trans {s s' s'' : Service p n} (h : Balanced s s') (h' : Balanced s' s'') :
    Balanced s s'' :=
  ⟨h'.globalLock.trans h.globalLock, h'.eventLock.trans h.eventLock,
    h'.strayUnlocks.trans h.strayUnlocks⟩

/-- What is registered with `RegisterWifiEvent`: the callback `OnHotspotStateChanged` of
a `WifiEvent`, if it has one.  It may call the service, and gives back what it takes. -/
structure Callbacks (p : Platform) (n : Nat) where
  onHotspotStateChanged : Nat → Option (HotspotStatus → Service p n → Service p n)
  balanced : ∀ event callback state s, onHotspotStateChanged event = some callback →
    Balanced s (callback state s)

def lockGlobal (s : Service p n) : Option (Service p n) :=
  (lockWifiGlobalLock s.wifi).map fun wifi => { s with wifi := wifi }

def unlockGlobal (s : Service p n) : Service p n × Bool :=
  match s.wifi.globalLock with
  | some (depth + 1) => ({ s with wifi := { s.wifi with globalLock := some depth } }, true)
  | some 0 => ({ s with strayUnlocks := s.strayUnlocks + 1 }, false)
  | none => (s, false)

def lockEvent (s : Service p n) : Option (Service p n) :=
  match s.eventLock with
  | some depth => some { s with eventLock := some (depth + 1) }
  | none => none

def unlockEvent (s : Service p n) : Service p n × Bool :=
  match s.eventLock with
  | some (depth + 1) => ({ s with eventLock := some depth }, true)
  | some 0 => ({ s with strayUnlocks := s.strayUnlocks + 1 }, false)
  | none => (s, false)

def returnUnlocked (u : Service p n × Bool) (code : WifiErrorCode) : Service p n × WifiErrorCode :=
  (u.1, if u.2 then code else .unknown)

/-- `AddDeviceConfig` fails with the lock free only when its second release fails. -/
def strayUnlock (r : Wifi p × WifiErrorCode × Option p.Slot) : Bool :=
  decide (r.2.1 = .unknown) && decide (r.1.globalLock = some 0)

def addDeviceConfig (s : Service p n) (config : Option (List UInt8)) (hasResult : Bool)
    (o : SaveOutcome) : Service p n × WifiErrorCode :=
  let r := WifiDevice.addDeviceConfig s.wifi config hasResult o
  ({ s with wifi := r.1, strayUnlocks := s.strayUnlocks + (strayUnlock r).toNat }, r.2.1)

def getDeviceConfigs (s : Service p n) (hasArgs : Bool) (size : Nat)
    (o : p.Slot → LoadOutcome) : Service p n × WifiErrorCode :=
  let r := WifiDevice.getDeviceConfigs s.wifi hasArgs size o
  ({ s with wifi := r.1 }, r.2.1)

def removeDevice (s : Service p n) (networkId : Int) (deleted : Bool) :
    Service p n × WifiErrorCode :=
  let r := WifiDevice.removeDevice s.wifi networkId deleted
  ({ s with wifi := r.1 }, r.2)

/-- `ConnectTo`.  `copied` is the outcome of `memcpy_s`, and `link k` says whether the
link is up at look `k` of the wait; `strcpy` never returns a null pointer. -/
def connectTo (s : Service p n) (networkId : Int) (copied : Bool) (link : Nat → Bool) :
    Service p n × WifiErrorCode :=
  if h : 0 ≤ networkId ∧ networkId < p.maxConfigSize then
    let i : p.Slot := ⟨networkId.toNat, slot_lt h⟩
    match lockGlobal s with
    | none => (s, .unknown)
    | some s =>
      if p.netId (s.wifi.configs i) ≠ networkId then
        returnUnlocked (unlockGlobal s) .notAvailable
      else
        let u := unlockGlobal s
        if u.2 && copied then
          match lockEvent u.1 with
          | none => (u.1, .unknown)
          | some s =>
            returnUnlocked (unlockEvent s)
              (if (List.range 15).any link then .success else .notAvailable)
        else (u.1, .unknown)
  else (s, .invalidArgs)

inductive EventSlot (n : Nat)
  | registered
  | empty (i : Fin n)
  | full

def findEventSlot (events : Fin n → Option Nat) (event : Nat) : List (Fin n) → EventSlot n
  | [] => .full
  | i :: is =>
    if events i = some event then .registered
    else if events i = none then .empty i
    else findEventSlot events event is

def registerWifiEvent (s : Service p n) (event : Option Nat) : Service p n × WifiErrorCode :=
  match event, lockEvent s with
  | none, _ => (s, .invalidArgs)
  | some _, none => (s, .unknown)
  | some event, some s =>
    match findEventSlot s.events event (List.finRange n) with
    | .registered => (s, .invalidArgs)
    | .full => returnUnlocked (unlockEvent s) .busy
    | .empty i =>
      returnUnlocked
        (unlockEvent { s with events := Function.update s.events i (some event) }) .success

def unRegisterWifiEvent (s : Service p n) (event : Option Nat) : Service p n × WifiErrorCode :=
  match event, lockEvent s with
  | none, _ => (s, .invalidArgs)
  | some _, none => (s, .unknown)
  | some event, some s =>
    match (List.finRange n).find? fun i => decide (s.events i = some event) with
    | some i =>
      returnUnlocked (unlockEvent { s with events := Function.update s.events i none }) .success
    | none => returnUnlocked (unlockEvent s) .unknown

def dispatchApStartEvent (callbacks : Callbacks p n) (state : HotspotStatus) :
    List (Fin n) → Service p n → Service p n
  | [], s => s
  | i :: is, s =>
    match (s.events i).bind callbacks.onHotspotStateChanged with
    | none => dispatchApStartEvent callbacks state is s
    | some callback => dispatchApStartEvent callbacks state is (callback state s)

def enableHotspot (callbacks : Callbacks p n) (s : Service p n) : Service p n × WifiErrorCode :=
  match lockGlobal s with
  | none => (s, .unknown)
  | some s =>
    if s.apStatus = .active then returnUnlocked (unlockGlobal s) .busy
    else if s.apCfgFlag ≠ 1 then (s, .notAvailable)
    else
      returnUnlocked (unlockGlobal (dispatchApStartEvent callbacks .active (List.finRange n)
        { s with apStatus := .active })) .success

def disableHotspot (callbacks : Callbacks p n) (s : Service p n) : Service p n × WifiErrorCode :=
  match lockGlobal s with
  | none => (s, .unknown)
  | some s =>
    if s.apStatus = .notActive then returnUnlocked (unlockGlobal s) .notStarted
    else
      let s := dispatchApStartEvent callbacks .notActive (List.finRange n) s
      returnUnlocked (unlockGlobal { s with apStatus := .notActive }) .success

def setHotspotConfig (s : Service p n) (hasConfig : Bool) : Service p n × WifiErrorCode :=
  match hasConfig, lockGlobal s with
  | false, _ => (s, .invalidArgs)
  | true, none => (s, .unknown)
  | true, some s => returnUnlocked (unlockGlobal { s with apCfgFlag := 1 }) .success

inductive Call (p : Platform)
  | addDeviceConfig (config : Option (List UInt8)) (hasResult : Bool) (o : SaveOutcome)
  | getDeviceConfigs (hasArgs : Bool) (size : Nat) (o : p.Slot → LoadOutcome)
  | removeDevice (networkId : Int) (deleted : Bool)
  | connectTo (networkId : Int) (copied : Bool) (link : Nat → Bool)
  | registerWifiEvent (event : Option Nat)
  | unRegisterWifiEvent (event : Option Nat)
  | enableHotspot
  | disableHotspot
  | setHotspotConfig (hasConfig : Bool)

def call (callbacks : Callbacks p n) (s : Service p n) : Call p → Service p n × WifiErrorCode
  | .addDeviceConfig config hasResult o => addDeviceConfig s config hasResult o
  | .getDeviceConfigs hasArgs size o => getDeviceConfigs s hasArgs size o
  | .removeDevice networkId deleted => removeDevice s networkId deleted
  | .connectTo networkId copied link => connectTo s networkId copied link
  | .registerWifiEvent event => registerWifiEvent s event
  | .unRegisterWifiEvent event => unRegisterWifiEvent s event
  | .enableHotspot => enableHotspot callbacks s
  | .disableHotspot => disableHotspot callbacks s
  | .setHotspotConfig hasConfig => setHotspotConfig s hasConfig

end BekenSoc.WifiService
