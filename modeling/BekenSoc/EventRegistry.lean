import BekenSoc.KeyedNodes

/-!
The registry of event callbacks (`bk_event/event.c`).

The event task keeps a list of module nodes.  A module node has the callbacks for all
events of the module, and a list of event nodes with the callbacks for one event each.
-/

namespace BekenSoc.EventRegistry

open KeyedNodes

inductive EventRet
  | ok
  | noMem
  | modOrId
  | cbExist
  | noCb
  deriving DecidableEq

def eventIdAll : Int := -1

def eventModCount : Int := 3

structure CbNode where
  eventCb : Nat
  eventCbArg : Nat
  deriving DecidableEq

structure EventNode where
  eventId : Int
  cbList : List CbNode
  deriving DecidableEq

structure EventModuleNode where
  eventModuleId : Int
  eventNodeList : List EventNode
  cbList : List CbNode
  deriving DecidableEq

structure RegisterInfo where
  eventModuleId : Int
  eventId : Int
  eventCb : Nat
  eventCbArg : Nat
  deriving DecidableEq

structure EventInfo where
  eventModuleId : Int
  eventId : Int
  eventData : Nat
  deriving DecidableEq

structure Allocs where
  moduleNode : Bool
  eventNode : Bool
  cbNode : Bool
  deriving DecidableEq

structure Result where
  live : Nat
  ret : EventRet
  deriving DecidableEq

def Result.freed (r : Result) : Result := { r with live := r.live - 1 }

def eventIsInvalid (eventModule eventId : Int) : Bool :=
  decide (eventModCount ≤ eventModule) || decide (eventModule < 0) ||
    (decide (eventId ≠ eventIdAll) && decide (eventId < 0))

def registerCbToCbList (cbList : List CbNode) (regInfo : RegisterInfo) (allocs : Allocs)
    (live : Nat) : List CbNode × Result :=
  if cbList.any fun cbNode => decide (cbNode.eventCb = regInfo.eventCb) then
    (cbList, ⟨live, .cbExist⟩)
  else if allocs.cbNode then
    (cbList ++ [⟨regInfo.eventCb, regInfo.eventCbArg⟩], ⟨live + 1, .ok⟩)
  else (cbList, ⟨live, .noMem⟩)

def newEventNode (regInfo : RegisterInfo) (allocs : Allocs) (live : Nat) :
    Option EventNode × Result :=
  if allocs.eventNode then
    let r := registerCbToCbList [] regInfo allocs (live + 1)
    if r.2.ret = .ok then (some ⟨regInfo.eventId, r.1⟩, r.2) else (none, r.2.freed)
  else (none, ⟨live, .noMem⟩)

def registerCbToEventNodeList (eventNodeList : List EventNode) (regInfo : RegisterInfo)
    (allocs : Allocs) (live : Nat) : List EventNode × Result :=
  visit EventNode.eventId regInfo.eventId (fun eventNode =>
      let r := registerCbToCbList eventNode.cbList regInfo allocs live
      (some { eventNode with cbList := r.1 }, r.2))
    (newEventNode regInfo allocs live) eventNodeList

def registerCbToModuleNode (moduleNode : EventModuleNode) (regInfo : RegisterInfo)
    (allocs : Allocs) (live : Nat) : EventModuleNode × Result :=
  if regInfo.eventId = eventIdAll then
    let r := registerCbToCbList moduleNode.cbList regInfo allocs live
    ({ moduleNode with cbList := r.1 }, r.2)
  else
    let r := registerCbToEventNodeList moduleNode.eventNodeList regInfo allocs live
    ({ moduleNode with eventNodeList := r.1 }, r.2)

def newModuleNode (regInfo : RegisterInfo) (allocs : Allocs) (live : Nat) :
    Option EventModuleNode × Result :=
  if allocs.moduleNode then
    let r := registerCbToModuleNode ⟨regInfo.eventModuleId, [], []⟩ regInfo allocs (live + 1)
    if r.2.ret = .ok then (some r.1, r.2) else (none, r.2.freed)
  else (none, ⟨live, .noMem⟩)

def registerCb (moduleList : List EventModuleNode) (regInfo : RegisterInfo)
    (allocs : Allocs) (live : Nat) : List EventModuleNode × Result :=
  visit EventModuleNode.eventModuleId regInfo.eventModuleId (fun moduleNode =>
      let r := registerCbToModuleNode moduleNode regInfo allocs live
      (some r.1, r.2))
    (newModuleNode regInfo allocs live) moduleList

def unregisterCbFromCbList (cbList : List CbNode) (unregInfo : RegisterInfo) (live : Nat) :
    List CbNode × Result :=
  visit CbNode.eventCb unregInfo.eventCb (fun _ => (none, ⟨live - 1, .ok⟩))
    (none, ⟨live, .noCb⟩) cbList

def unregisterCbFromEventNode (eventNode : EventNode) (unregInfo : RegisterInfo)
    (live : Nat) : Option EventNode × Result :=
  let r := unregisterCbFromCbList eventNode.cbList unregInfo live
  if r.1.isEmpty then (none, r.2.freed) else (some { eventNode with cbList := r.1 }, r.2)

def unregisterCbFromEventNodeList (eventNodeList : List EventNode) (unregInfo : RegisterInfo)
    (live : Nat) : List EventNode × Result :=
  visit EventNode.eventId unregInfo.eventId
    (fun eventNode => unregisterCbFromEventNode eventNode unregInfo live)
    (none, ⟨live, .noCb⟩) eventNodeList

def unregisterCbFromModuleNode (moduleNode : EventModuleNode) (unregInfo : RegisterInfo)
    (live : Nat) : EventModuleNode × Result :=
  if unregInfo.eventId = eventIdAll then
    let r := unregisterCbFromCbList moduleNode.cbList unregInfo live
    ({ moduleNode with cbList := r.1 }, r.2)
  else
    let r := unregisterCbFromEventNodeList moduleNode.eventNodeList unregInfo live
    ({ moduleNode with eventNodeList := r.1 }, r.2)

def unregisterCbFromModule (moduleNode : EventModuleNode) (unregInfo : RegisterInfo)
    (live : Nat) : Option EventModuleNode × Result :=
  let r := unregisterCbFromModuleNode moduleNode unregInfo live
  if r.1.cbList.isEmpty && r.1.eventNodeList.isEmpty then (none, r.2.freed)
  else (some r.1, r.2)

def unregisterCb (moduleList : List EventModuleNode) (unregInfo : RegisterInfo) (live : Nat) :
    List EventModuleNode × Result :=
  visit EventModuleNode.eventModuleId unregInfo.eventModuleId
    (fun moduleNode => unregisterCbFromModule moduleNode unregInfo live)
    (none, ⟨live, .noCb⟩) moduleList

structure CbCall where
  node : CbNode
  info : EventInfo
  deriving DecidableEq

def eventPostToCbList (cbList : List CbNode) (eventInfo : EventInfo) : List CbCall :=
  cbList.map fun cbNode => ⟨cbNode, eventInfo⟩

def eventPostToModule (moduleNode : EventModuleNode) (eventInfo : EventInfo) : List CbCall :=
  eventPostToCbList moduleNode.cbList eventInfo ++
    match nodeAt EventNode.eventId eventInfo.eventId moduleNode.eventNodeList with
    | some eventNode => eventPostToCbList eventNode.cbList eventInfo
    | none => []

def eventPost (moduleList : List EventModuleNode) (eventInfo : EventInfo) :
    EventRet × List CbCall :=
  if eventIsInvalid eventInfo.eventModuleId eventInfo.eventId then (.modOrId, [])
  else
    match nodeAt EventModuleNode.eventModuleId eventInfo.eventModuleId moduleList with
    | some moduleNode => (.ok, eventPostToModule moduleNode eventInfo)
    | none => (.ok, [])

structure Registry where
  moduleList : List EventModuleNode
  live : Nat
  deriving DecidableEq

def Registry.init : Registry := ⟨[], 0⟩

inductive EventMsg
  | register (info : RegisterInfo) (allocs : Allocs)
  | unregister (info : RegisterInfo)
  | post (info : EventInfo)
  deriving DecidableEq

structure Output where
  ret : EventRet
  calls : List CbCall
  deriving DecidableEq

def eventTaskHandleMsg (s : Registry) : EventMsg → Registry × Output
  | .register info allocs =>
    let r := registerCb s.moduleList info allocs s.live
    (⟨r.1, r.2.live⟩, ⟨r.2.ret, []⟩)
  | .unregister info =>
    let r := unregisterCb s.moduleList info s.live
    (⟨r.1, r.2.live⟩, ⟨r.2.ret, []⟩)
  | .post info =>
    let r := eventPost s.moduleList info
    (s, ⟨r.1, r.2⟩)

def EventMsg.isInvalid : EventMsg → Bool
  | .register info _ => eventIsInvalid info.eventModuleId info.eventId
  | .unregister info => eventIsInvalid info.eventModuleId info.eventId
  | .post info => eventIsInvalid info.eventModuleId info.eventId

def eventCall (s : Registry) (msg : EventMsg) : Registry × Output :=
  if msg.isInvalid then (s, ⟨.modOrId, []⟩) else eventTaskHandleMsg s msg

end BekenSoc.EventRegistry
