import BekenSoc.HalFile

/-!
The saved networks of the Wi-Fi service (`wifi_device.c`): the table in RAM, and one
file for each of its entries.

The layout of a configuration is not in this repository.  A platform gives the size of
the table and of a configuration, and the field `netId` of a configuration.
-/

namespace BekenSoc.WifiDevice

open Function
open CRuntime
open HalFile (Path)

def wifiConfigInvalid : Int := -1

structure Platform where
  maxConfigSize : Nat
  configSize : Nat
  netId : List UInt8 → Int
  setNetId : Int → List UInt8 → List UInt8
  /-- The names have two digits. -/
  named : maxConfigSize ≤ 100
  length_setNetId : ∀ i c, (setNetId i c).length = c.length
  netId_setNetId : ∀ i c, c.length = configSize → wifiConfigInvalid ≤ i →
    i < maxConfigSize → netId (setNetId i c) = i

abbrev Platform.Slot (p : Platform) : Type := Fin p.maxConfigSize

inductive WifiErrorCode
  | success
  | invalidArgs
  | busy
  | notAvailable
  | notStarted
  | unknown
  deriving DecidableEq

def fileName (i : Nat) : Path := "ApInfo".toList ++ [Nat.digitChar (i / 10), Nat.digitChar (i % 10)]

/-- `g_wifiConfigs`, the files of the file system, and how often the global lock is
held, or `none` when there is no lock. -/
structure Wifi (p : Platform) where
  configs : p.Slot → List UInt8
  files : Path → Option (List UInt8)
  globalLock : Option Nat

variable {p : Platform}

def emptyConfig (p : Platform) : List UInt8 :=
  p.setNetId wifiConfigInvalid (List.replicate p.configSize 0)

def Wifi.boot (p : Platform) (files : Path → Option (List UInt8)) : Wifi p :=
  ⟨fun _ => emptyConfig p, files, some 0⟩

def Wifi.setConfig (s : Wifi p) (i : p.Slot) (config : List UInt8) : Wifi p :=
  { s with configs := update s.configs i config }

def Wifi.setFile (s : Wifi p) (i : p.Slot) (file : Option (List UInt8)) : Wifi p :=
  { s with files := update s.files (fileName i) file }

def lockWifiGlobalLock (s : Wifi p) : Option (Wifi p) :=
  match s.globalLock with
  | some depth => some { s with globalLock := some (depth + 1) }
  | none => none

def unlockWifiGlobalLock (s : Wifi p) : Option (Wifi p) :=
  match s.globalLock with
  | some (depth + 1) => some { s with globalLock := some depth }
  | _ => none

def unlockAndReturn (s : Wifi p) (code : WifiErrorCode) : Wifi p × WifiErrorCode :=
  match unlockWifiGlobalLock s with
  | some s' => (s', code)
  | none => (s, .unknown)

/-- What the file system does in `AddDeviceConfig`: whether the file is opened, how
many bytes are written, and whether they are in the file after the close. -/
structure SaveOutcome where
  opened : Bool
  wrote : Nat
  kept : Bool

def freeSlot (s : Wifi p) : Option p.Slot :=
  (List.finRange p.maxConfigSize).find? fun i => decide (p.netId (s.configs i) ≠ (i : Nat))

def returnNetId (s : Wifi p) (i : p.Slot) : Wifi p × WifiErrorCode × Option p.Slot :=
  match unlockWifiGlobalLock s with
  | some s' => (s', .success, some i)
  | none => (s, .unknown, none)

/-- `AddDeviceConfig` after the write; a short write releases the lock twice. -/
def finishAdd (s : Wifi p) (i : p.Slot) (complete : Bool) :
    Wifi p × WifiErrorCode × Option p.Slot :=
  if complete then returnNetId s i
  else
    match unlockWifiGlobalLock s with
    | some s' => returnNetId s' i
    | none => (s, .unknown, none)

def addDeviceConfig (s : Wifi p) (config : Option (List UInt8)) (hasResult : Bool)
    (o : SaveOutcome) : Wifi p × WifiErrorCode × Option p.Slot :=
  match config, hasResult, lockWifiGlobalLock s with
  | some config, true, some s =>
    match freeSlot s with
    | none =>
      let r := unlockAndReturn s .busy
      (r.1, r.2, none)
    | some i =>
      let entry := p.setNetId (i : Nat) config
      let s := s.setConfig i entry
      if o.opened then
        let s := if o.kept then s.setFile i (some (entry.take o.wrote)) else s
        finishAdd s i (decide (o.wrote = p.configSize))
      else (s, .unknown, none)
  | some _, true, none => (s, .unknown, none)
  | _, _, _ => (s, .invalidArgs, none)

structure LoadOutcome where
  stat : Bool
  opened : Bool
  read : Nat

def loadLoop (files : Path → Option (List UInt8)) (o : p.Slot → LoadOutcome) :
    List p.Slot → (p.Slot → List UInt8) → (p.Slot → List UInt8) × Option Nat
  | [], configs => (configs, some p.maxConfigSize)
  | i :: is, configs =>
    match files (fileName i) with
    | none => (configs, some i)
    | some file =>
      if (o i).stat then
        if (o i).opened then
          let configs := update configs i (memcpy (configs i) file (min (o i).read file.length))
          if file.length ≤ (o i).read then loadLoop files o is configs
          else (configs, none)
        else (configs, none)
      else (configs, some i)

def listed (p : Platform) (configs : p.Slot → List UInt8) : List (List UInt8) :=
  (List.finRange p.maxConfigSize).filterMap fun i =>
    if p.netId (configs i) = wifiConfigInvalid then none else some (configs i)

def copied (p : Platform) (size : Nat) : (p.Slot → List UInt8) × Option Nat → List (List UInt8)
  | (_, none) => []
  | (_, some 0) => []
  | (configs, some (_ + 1)) => (listed p configs).take size

def getDeviceConfigs (s : Wifi p) (hasArgs : Bool) (size : Nat) (o : p.Slot → LoadOutcome) :
    Wifi p × WifiErrorCode × List (List UInt8) :=
  if hasArgs && decide (size ≠ 0) then
    match lockWifiGlobalLock s with
    | none => (s, .unknown, [])
    | some s =>
      let r := loadLoop s.files o (List.finRange p.maxConfigSize) s.configs
      let result := copied p size r
      let u := unlockAndReturn { s with configs := r.1 }
        (if result = [] then .notAvailable else .success)
      (u.1, u.2, result)
  else (s, .invalidArgs, [])

theorem slot_lt {networkId : Int} (h : 0 ≤ networkId ∧ networkId < p.maxConfigSize) :
    networkId.toNat < p.maxConfigSize := by
  omega

def removeDevice (s : Wifi p) (networkId : Int) (deleted : Bool) : Wifi p × WifiErrorCode :=
  if h : 0 ≤ networkId ∧ networkId < p.maxConfigSize then
    let i : p.Slot := ⟨networkId.toNat, slot_lt h⟩
    match lockWifiGlobalLock s with
    | none => (s, .unknown)
    | some s =>
      let s := s.setConfig i (emptyConfig p)
      let s := if deleted then s.setFile i none else s
      unlockAndReturn s .success
  else (s, .invalidArgs)

structure Got where
  size : Nat
  returned : List (List UInt8)
  expected : List (List UInt8)
  deriving DecidableEq

/-- The service, and what an observer notes: the networks that were added with success
and not removed, those of them whose file was written, the calls of
`GetDeviceConfigs`, and the entries whose file was opened for writing while it was
that of a saved network. -/
structure Observed (p : Platform) where
  wifi : Wifi p
  added : p.Slot → Option (List UInt8)
  saved : p.Slot → Option (List UInt8)
  gets : List Got
  overwritten : List p.Slot

def Observed.start (p : Platform) : Observed p :=
  ⟨Wifi.boot p fun _ => none, fun _ => none, fun _ => none, [], []⟩

def Observed.noteAdd (s : Observed p) (i : p.Slot) (entry : List UInt8) (o : SaveOutcome)
    (code : WifiErrorCode) : Observed p :=
  { s with
    added := if code = .success then update s.added i (some entry) else s.added
    saved :=
      if o.opened && o.kept then
        update s.saved i (if o.wrote = p.configSize then some entry else none)
      else s.saved
    overwritten :=
      if o.opened = true ∧ s.saved i ≠ none then i :: s.overwritten else s.overwritten }

inductive Event (p : Platform)
  | add (config : Option (List UInt8)) (hasResult : Bool) (o : SaveOutcome)
  | get (hasArgs : Bool) (size : Nat) (o : p.Slot → LoadOutcome)
  | remove (networkId : Int) (deleted : Bool)
  | restart

def step (s : Observed p) : Event p → Option (Observed p)
  | .add config hasResult o =>
    if ∀ c ∈ config, c.length = p.configSize then
      let r := addDeviceConfig s.wifi config hasResult o
      let s' := { s with wifi := r.1 }
      match config, hasResult, lockWifiGlobalLock s.wifi, freeSlot s.wifi with
      | some c, true, some _, some i => some (s'.noteAdd i (p.setNetId (i : Nat) c) o r.2.1)
      | _, _, _, _ => some s'
    else none
  | .get hasArgs size o =>
    let r := getDeviceConfigs s.wifi hasArgs size o
    let s' := { s with wifi := r.1 }
    if hasArgs && decide (size ≠ 0) then
      let expected := (List.finRange p.maxConfigSize).filterMap s.added
      some { s' with gets := ⟨size, r.2.2, expected⟩ :: s.gets }
    else some s'
  | .remove networkId deleted =>
    let r := removeDevice s.wifi networkId deleted
    let s' := { s with wifi := r.1 }
    if h : (0 ≤ networkId ∧ networkId < p.maxConfigSize) ∧ r.2 = .success then
      let i : p.Slot := ⟨networkId.toNat, by omega⟩
      some { s' with
        added := update s.added i none, saved := update s.saved i none }
    else some s'
  | .restart => some { s with wifi := Wifi.boot p s.wifi.files }

end BekenSoc.WifiDevice
