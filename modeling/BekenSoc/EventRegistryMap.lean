import BekenSoc.EventRegistry
import BekenSoc.GuardedRuns

namespace BekenSoc.EventRegistryMap

open KeyedNodes GuardedRuns EventRegistry List Option

variable {info : RegisterInfo} {cbs : List CbNode} {node : EventModuleNode}

abbrev CallbackMap := Int → Int → List CbNode

def CallbackMap.set (map : CallbackMap) (eventModule eventId : Int) (cbs : List CbNode) :
    CallbackMap :=
  fun m id => if m = eventModule ∧ id = eventId then cbs else map m id

variable {map : CallbackMap}

def hasCb (cbs : List CbNode) (cb : Nat) : Bool :=
  cbs.any fun cbNode => decide (cbNode.eventCb = cb)

def addCb (cbs : List CbNode) (info : RegisterInfo) (granted : Bool) : List CbNode × EventRet :=
  if hasCb cbs info.eventCb then (cbs, .cbExist)
  else if granted then (cbs ++ [⟨info.eventCb, info.eventCbArg⟩], .ok)
  else (cbs, .noMem)

def dropCb (cbs : List CbNode) (info : RegisterInfo) : List CbNode × EventRet :=
  if hasCb cbs info.eventCb then
    (cbs.eraseP fun cbNode => decide (cbNode.eventCb = info.eventCb), .ok)
  else (cbs, .noCb)

def moduleGranted (id : Int) (cbs : List CbNode) (allocs : Allocs) : Bool :=
  allocs.cbNode && (decide (id = eventIdAll) || !cbs.isEmpty || allocs.eventNode)

section Abstract

open Classical

noncomputable def CallbackMap.granted (map : CallbackMap) (info : RegisterInfo)
    (allocs : Allocs) : Bool :=
  moduleGranted info.eventId (map info.eventModuleId info.eventId) allocs &&
    (decide (∃ id, map info.eventModuleId id ≠ []) || allocs.moduleNode)

theorem CallbackMap.granted_of_exists (h : ∃ id, map info.eventModuleId id ≠ []) (allocs : Allocs) :
    map.granted info allocs =
      moduleGranted info.eventId (map info.eventModuleId info.eventId) allocs := by
  rw [CallbackMap.granted, decide_eq_true h, Bool.true_or, Bool.and_true]

theorem CallbackMap.granted_of_not_exists (h : ¬ ∃ id, map info.eventModuleId id ≠ [])
    (allocs : Allocs) : map.granted info allocs =
      (moduleGranted info.eventId (map info.eventModuleId info.eventId) allocs &&
        allocs.moduleNode) := by
  rw [CallbackMap.granted, decide_eq_false h, Bool.false_or]

noncomputable def CallbackMap.handle (map : CallbackMap) : EventMsg → CallbackMap × Output
  | .register info allocs =>
    let r := addCb (map info.eventModuleId info.eventId) info (map.granted info allocs)
    (map.set info.eventModuleId info.eventId r.1, ⟨r.2, []⟩)
  | .unregister info =>
    let r := dropCb (map info.eventModuleId info.eventId) info
    (map.set info.eventModuleId info.eventId r.1, ⟨r.2, []⟩)
  | .post info =>
    let cbs := map info.eventModuleId eventIdAll ++
      if info.eventId = eventIdAll then [] else map info.eventModuleId info.eventId
    (map, ⟨.ok, cbs.map fun cbNode => ⟨cbNode, info⟩⟩)

/-- The purpose of the event task, for one call of its API. -/
noncomputable def CallbackMap.call (map : CallbackMap) (msg : EventMsg) : CallbackMap × Output :=
  if msg.isInvalid then (map, ⟨.modOrId, []⟩) else map.handle msg

end Abstract

def eventCbs (id : Int) (eventNodeList : List EventNode) : List CbNode :=
  ((nodeAt EventNode.eventId id eventNodeList).map EventNode.cbList).getD []

def moduleCbs (id : Int) (moduleNode : EventModuleNode) : List CbNode :=
  if id = eventIdAll then moduleNode.cbList else eventCbs id moduleNode.eventNodeList

def callbacks (moduleList : List EventModuleNode) : CallbackMap := fun m id =>
  ((nodeAt EventModuleNode.eventModuleId m moduleList).map (moduleCbs id)).getD []

def Distinct (cbs : List CbNode) : Prop := (cbs.map CbNode.eventCb).Nodup

structure EventsOk (eventNodeList : List EventNode) : Prop where
  ids : (eventNodeList.map EventNode.eventId).Nodup
  used : ∀ eventNode ∈ eventNodeList, eventNode.cbList ≠ []
  distinct : ∀ eventNode ∈ eventNodeList, Distinct eventNode.cbList
  single : ∀ eventNode ∈ eventNodeList, eventNode.eventId ≠ eventIdAll

structure ModuleOk (moduleNode : EventModuleNode) : Prop where
  events : EventsOk moduleNode.eventNodeList
  distinct : Distinct moduleNode.cbList

structure RegistryOk (moduleList : List EventModuleNode) : Prop where
  ids : (moduleList.map EventModuleNode.eventModuleId).Nodup
  modules : ∀ moduleNode ∈ moduleList, ModuleOk moduleNode
  used : ∀ moduleNode ∈ moduleList, moduleNode.cbList ≠ [] ∨ moduleNode.eventNodeList ≠ []

/-! Lists of callbacks. -/

theorem hasCb_iff {cb : Nat} : hasCb cbs cb = true ↔ cb ∈ cbs.map CbNode.eventCb := by
  simp only [hasCb, List.any_eq_true, decide_eq_true_eq, List.mem_map]

theorem Distinct.addCb (h : Distinct cbs) (info : RegisterInfo) (granted : Bool) :
    Distinct (addCb cbs info granted).1 := by
  unfold EventRegistryMap.addCb
  split
  · exact h
  · rename_i hnew
    split
    · rw [hasCb_iff] at hnew
      unfold Distinct
      rw [map_append]
      exact nodup_append.mpr ⟨h, nodup_singleton _, by simpa using hnew⟩
    · exact h

theorem Distinct.dropCb (h : Distinct cbs) (info : RegisterInfo) :
    Distinct (dropCb cbs info).1 := by
  unfold EventRegistryMap.dropCb
  split
  · exact h.sublist (eraseP_sublist.map _)
  · exact h

/-- The list and the return value are those of the change `x`. -/
def Agrees (r : List CbNode × Result) (x : List CbNode × EventRet) : Prop :=
  r.1 = x.1 ∧ r.2.ret = x.2

theorem registerCbToCbList_agrees (cbs : List CbNode) (info : RegisterInfo) (allocs : Allocs)
    (live : Nat) :
    Agrees (registerCbToCbList cbs info allocs live) (addCb cbs info allocs.cbNode) := by
  unfold registerCbToCbList addCb hasCb
  split
  · exact ⟨rfl, rfl⟩
  · split
    · exact ⟨rfl, rfl⟩
    · exact ⟨rfl, rfl⟩

theorem unregisterCbFromCbList_agrees (cbs : List CbNode) (info : RegisterInfo) (live : Nat) :
    Agrees (unregisterCbFromCbList cbs info live) (dropCb cbs info) := by
  unfold Agrees unregisterCbFromCbList dropCb
  rw [visit_unlink, visit_result, change]
  split
  · rename_i hcb
    rw [hasCb_iff] at hcb
    cases hnode : nodeAt CbNode.eventCb info.eventCb cbs with
    | none => exact absurd hcb (nodeAt_eq_none.mp hnode)
    | some => exact ⟨rfl, rfl⟩
  · rename_i hcb
    rw [hasCb_iff] at hcb
    rw [nodeAt_eq_none.mpr hcb]
    refine ⟨eraseP_of_forall_not fun a ha => ?_, rfl⟩
    intro heq
    exact hcb (List.mem_map.mpr ⟨a, ha, of_decide_eq_true heq⟩)

theorem addCb_of_ne_nil (h : cbs ≠ []) (info : RegisterInfo) (granted : Bool) :
    (addCb cbs info granted).1 ≠ [] := by
  unfold addCb
  split
  · exact h
  · split
    · simp
    · exact h

/-! Event nodes. -/

section Events

variable {nodes : List EventNode} {id : Int} {x : List CbNode × EventRet}

/-- The change `x` of the callbacks for an event is made. -/
structure EventsChanged (nodes : List EventNode) (r : List EventNode × Result) (id : Int)
    (x : List CbNode × EventRet) : Prop where
  ok : EventsOk r.1
  self : eventCbs id r.1 = x.1
  other : ∀ id', id' ≠ id → eventCbs id' r.1 = eventCbs id' nodes
  ret : r.2.ret = x.2

theorem EventsOk.visited (h : EventsOk nodes) (hid : id ≠ eventIdAll)
    {found : EventNode → Option EventNode × Result} {missing : Option EventNode × Result}
    (hfound : ∀ e e', (found e).1 = some e' → e'.eventId = e.eventId)
    (hmissing : ∀ e, missing.1 = some e → e.eventId = id)
    (hnew : ∀ e, (change EventNode.eventId id found missing nodes).1 = some e →
      e.cbList ≠ [] ∧ Distinct e.cbList)
    (hcbs : ((change EventNode.eventId id found missing nodes).1.map
      EventNode.cbList).getD [] = x.1)
    (hret : (change EventNode.eventId id found missing nodes).2.ret = x.2) :
    EventsChanged nodes (visit EventNode.eventId id found missing nodes) id x := by
  refine ⟨⟨nodup_visit hfound hmissing h.ids, ?_, ?_, ?_⟩, ?_, ?_, by rw [visit_result, hret]⟩
  · intro e he
    rcases mem_visit he with he | he
    · exact h.used e he
    · exact (hnew e he).1
  · intro e he
    rcases mem_visit he with he | he
    · exact h.distinct e he
    · exact (hnew e he).2
  · intro e he
    rcases mem_visit he with he | he
    · exact h.single e he
    · rw [change_key hfound hmissing he]
      exact hid
  · rw [eventCbs, nodeAt_visit_self hfound hmissing h.ids, hcbs]
  · intro id' hne
    rw [eventCbs, nodeAt_visit_of_ne hfound hmissing hne, eventCbs]

theorem eventCbs_of_some {e : EventNode} (h : nodeAt EventNode.eventId id nodes = some e) :
    eventCbs id nodes = e.cbList := by
  rw [eventCbs, h]
  rfl

theorem eventCbs_of_none (h : nodeAt EventNode.eventId id nodes = none) :
    eventCbs id nodes = [] := by
  rw [eventCbs, h]
  rfl

def eventGranted (cbs : List CbNode) (allocs : Allocs) : Bool :=
  allocs.cbNode && (!cbs.isEmpty || allocs.eventNode)

theorem eventGranted_of_ne_nil (h : cbs ≠ []) (allocs : Allocs) :
    eventGranted cbs allocs = allocs.cbNode := by
  cases cbs with
  | nil => exact absurd rfl h
  | cons => exact Bool.and_true _

theorem newEventNode_eq (info : RegisterInfo) (allocs : Allocs) (live : Nat) :
    (newEventNode info allocs live).1 = (if eventGranted [] allocs then
        some ⟨info.eventId, [⟨info.eventCb, info.eventCbArg⟩]⟩ else none) ∧
    (newEventNode info allocs live).2.ret = (addCb [] info (eventGranted [] allocs)).2 := by
  obtain ⟨moduleNode, eventNode, cbNode⟩ := allocs
  cases eventNode with
  | false | true =>
    cases cbNode with
    | false | true => exact ⟨rfl, rfl⟩

theorem registerCbToEventNodeList_changed (h : EventsOk nodes) (info : RegisterInfo)
    (allocs : Allocs) (live : Nat) (hid : info.eventId ≠ eventIdAll) :
    EventsChanged nodes (registerCbToEventNodeList nodes info allocs live) info.eventId
      (addCb (eventCbs info.eventId nodes) info
        (eventGranted (eventCbs info.eventId nodes) allocs)) := by
  obtain ⟨hnode, hret⟩ := newEventNode_eq info allocs live
  have hmissing : ∀ e, (newEventNode info allocs live).1 = some e →
      e = ⟨info.eventId, [⟨info.eventCb, info.eventCbArg⟩]⟩ := by
    intro e he
    rw [hnode] at he
    split at he
    · exact (Option.some.inj he).symm
    · cases he
  unfold registerCbToEventNodeList
  cases hat : nodeAt EventNode.eventId info.eventId nodes with
  | none =>
    rw [eventCbs_of_none hat]
    refine h.visited hid ?_ ?_ ?_ ?_ ?_
    · intro e e' he
      cases he
      rfl
    · intro e he
      rw [hmissing e he]
    · intro e he
      rw [change, hat] at he
      rw [hmissing e he]
      exact ⟨by simp, nodup_singleton _⟩
    · rw [change, hat, elim_none, hnode]
      cases eventGranted [] allocs with
      | false | true => rfl
    · rw [change, hat]
      exact hret
  | some eventNode =>
    have hmem := nodeAt_mem hat
    have hused := h.used eventNode hmem
    obtain ⟨hlist, hret'⟩ := registerCbToCbList_agrees eventNode.cbList info allocs live
    rw [eventCbs_of_some hat, eventGranted_of_ne_nil hused]
    refine h.visited hid ?_ ?_ ?_ ?_ ?_
    · intro e e' he
      cases he
      rfl
    · intro e he
      rw [hmissing e he]
    · intro e he
      rw [change, hat] at he
      cases he
      rw [hlist]
      exact ⟨addCb_of_ne_nil hused info _, (h.distinct eventNode hmem).addCb info _⟩
    · rw [change, hat]
      exact hlist
    · rw [change, hat]
      exact hret'

theorem unregisterCbFromEventNode_eq (eventNode : EventNode) (info : RegisterInfo) (live : Nat) :
    (unregisterCbFromEventNode eventNode info live).1 =
      (if (dropCb eventNode.cbList info).1 = [] then none
        else some { eventNode with cbList := (dropCb eventNode.cbList info).1 }) ∧
    (unregisterCbFromEventNode eventNode info live).2.ret = (dropCb eventNode.cbList info).2 := by
  obtain ⟨hlist, hret⟩ := unregisterCbFromCbList_agrees eventNode.cbList info live
  unfold unregisterCbFromEventNode
  simp only [hlist, ← hret, List.isEmpty_iff]
  split
  · exact ⟨rfl, rfl⟩
  · exact ⟨rfl, rfl⟩

theorem unregisterCbFromEventNodeList_changed (h : EventsOk nodes) (info : RegisterInfo)
    (live : Nat) (hid : info.eventId ≠ eventIdAll) :
    EventsChanged nodes (unregisterCbFromEventNodeList nodes info live) info.eventId
      (dropCb (eventCbs info.eventId nodes) info) := by
  have hfound : ∀ e e', (unregisterCbFromEventNode e info live).1 = some e' →
      (dropCb e.cbList info).1 ≠ [] ∧ e' = { e with cbList := (dropCb e.cbList info).1 } := by
    intro e e' he
    rw [(unregisterCbFromEventNode_eq e info live).1] at he
    split at he
    · cases he
    · rename_i hne
      exact ⟨hne, (Option.some.inj he).symm⟩
  have hkey : ∀ e e', (unregisterCbFromEventNode e info live).1 = some e' →
      e'.eventId = e.eventId := by
    intro e e' he
    rw [(hfound e e' he).2]
  unfold unregisterCbFromEventNodeList
  cases hat : nodeAt EventNode.eventId info.eventId nodes with
  | none =>
    rw [eventCbs_of_none hat]
    refine h.visited hid hkey ?_ ?_ ?_ ?_
    · intro e he
      cases he
    · intro e he
      rw [change, hat] at he
      cases he
    · rw [change, hat]
      rfl
    · rw [change, hat]
      rfl
  | some eventNode =>
    obtain ⟨hnode, hret⟩ := unregisterCbFromEventNode_eq eventNode info live
    rw [eventCbs_of_some hat]
    refine h.visited hid hkey ?_ ?_ ?_ ?_
    · intro e he
      cases he
    · intro e he
      rw [change, hat] at he
      obtain ⟨hne, rfl⟩ := hfound eventNode e he
      exact ⟨hne, (h.distinct eventNode (nodeAt_mem hat)).dropCb info⟩
    · rw [change, hat, elim_some, hnode]
      split
      · rename_i hnil
        exact hnil.symm
      · rfl
    · rw [change, hat]
      exact hret

end Events

/-! Module nodes. -/

section Modules

variable {node : EventModuleNode} {id : Int} {x : List CbNode × EventRet}

structure ModuleChanged (node : EventModuleNode) (r : EventModuleNode × Result) (id : Int)
    (x : List CbNode × EventRet) : Prop where
  key : r.1.eventModuleId = node.eventModuleId
  ok : ModuleOk r.1
  view : ∀ id', moduleCbs id' r.1 = if id' = id then x.1 else moduleCbs id' node
  ret : r.2.ret = x.2

theorem moduleCbs_all (node : EventModuleNode) : moduleCbs eventIdAll node = node.cbList :=
  if_pos rfl

theorem moduleCbs_single (h : id ≠ eventIdAll) (node : EventModuleNode) :
    moduleCbs id node = eventCbs id node.eventNodeList :=
  if_neg h

section

variable (h : ModuleOk node)
include h

theorem ModuleOk.setCbList {r : List CbNode × Result} (hagrees : Agrees r x) (hx : Distinct x.1) :
    ModuleChanged node ({ node with cbList := r.1 }, r.2) eventIdAll x := by
  refine ⟨rfl, ⟨h.events, hagrees.1 ▸ hx⟩, fun id' => ?_, hagrees.2⟩
  split
  · rename_i hid
    rw [hid, moduleCbs_all]
    exact hagrees.1
  · rename_i hid
    rw [moduleCbs_single hid, moduleCbs_single hid]

theorem ModuleOk.setEvents (hid : id ≠ eventIdAll) {r : List EventNode × Result}
    (hnodes : EventsChanged node.eventNodeList r id x) :
    ModuleChanged node ({ node with eventNodeList := r.1 }, r.2) id x := by
  refine ⟨rfl, ⟨hnodes.ok, h.distinct⟩, fun id' => ?_, hnodes.ret⟩
  split
  · rename_i heq
    rw [heq, moduleCbs_single hid]
    exact hnodes.self
  · rename_i hne
    unfold moduleCbs
    split
    · rfl
    · exact hnodes.other id' hne

theorem ModuleOk.used_iff :
    (node.cbList ≠ [] ∨ node.eventNodeList ≠ []) ↔ ∃ id, moduleCbs id node ≠ [] := by
  constructor
  · rintro (hcbs | hevents)
    · refine ⟨eventIdAll, ?_⟩
      exact hcbs
    · obtain ⟨e, rest, heq⟩ := exists_cons_of_ne_nil hevents
      have he : e ∈ node.eventNodeList := by simp [heq]
      refine ⟨e.eventId, ?_⟩
      rw [moduleCbs_single (h.events.single e he), eventCbs_of_some (nodeAt_of_mem h.events.ids he)]
      exact h.events.used e he
  · rintro ⟨id, hid⟩
    by_contra hempty
    obtain ⟨hcbs, hevents⟩ := not_or.mp hempty
    apply hid
    rw [moduleCbs, not_not.mp hcbs, not_not.mp hevents]
    exact ite_self _

theorem registerCbToModuleNode_changed (info : RegisterInfo) (allocs : Allocs) (live : Nat) :
    ModuleChanged node (registerCbToModuleNode node info allocs live) info.eventId
      (addCb (moduleCbs info.eventId node) info
        (moduleGranted info.eventId (moduleCbs info.eventId node) allocs)) := by
  unfold registerCbToModuleNode
  by_cases hid : info.eventId = eventIdAll
  · have hgranted : ∀ cbs, moduleGranted info.eventId cbs allocs = allocs.cbNode := by
      intro cbs
      rw [moduleGranted, decide_eq_true hid, Bool.true_or, Bool.true_or, Bool.and_true]
    rw [if_pos hid, hgranted, hid, moduleCbs_all]
    exact h.setCbList (registerCbToCbList_agrees ..) (h.distinct.addCb info _)
  · have hgranted : ∀ cbs, moduleGranted info.eventId cbs allocs = eventGranted cbs allocs := by
      intro cbs
      rw [moduleGranted, decide_eq_false hid, Bool.false_or, eventGranted]
    rw [if_neg hid, hgranted, moduleCbs_single hid]
    exact h.setEvents hid (registerCbToEventNodeList_changed h.events info allocs live hid)

theorem unregisterCbFromModuleNode_changed (info : RegisterInfo) (live : Nat) :
    ModuleChanged node (unregisterCbFromModuleNode node info live) info.eventId
      (dropCb (moduleCbs info.eventId node) info) := by
  unfold unregisterCbFromModuleNode
  by_cases hid : info.eventId = eventIdAll
  · rw [if_pos hid, hid, moduleCbs_all]
    exact h.setCbList (unregisterCbFromCbList_agrees ..) (h.distinct.dropCb info)
  · rw [if_neg hid, moduleCbs_single hid]
    exact h.setEvents hid (unregisterCbFromEventNodeList_changed h.events info live hid)

end

end Modules

/-! The registry. -/

section Registry

variable {modules : List EventModuleNode} {m id : Int} {x : List CbNode × EventRet}

theorem callbacks_of_some (h : nodeAt EventModuleNode.eventModuleId m modules = some node) :
    callbacks modules m id = moduleCbs id node := by
  rw [callbacks, h]
  rfl

theorem callbacks_of_none (h : nodeAt EventModuleNode.eventModuleId m modules = none) :
    callbacks modules m id = [] := by
  rw [callbacks, h]
  rfl

section

variable (h : RegistryOk modules)
include h

structure RegistryChanged (modules : List EventModuleNode) (r : List EventModuleNode × Result)
    (m id : Int) (x : List CbNode × EventRet) : Prop where
  ok : RegistryOk r.1
  view : callbacks r.1 = (callbacks modules : CallbackMap).set m id x.1
  ret : r.2.ret = x.2

theorem RegistryOk.visited {found : EventModuleNode → Option EventModuleNode × Result}
    {missing : Option EventModuleNode × Result}
    (hfound : ∀ n n', (found n).1 = some n' → n'.eventModuleId = n.eventModuleId)
    (hmissing : ∀ n, missing.1 = some n → n.eventModuleId = m)
    (hnew : ∀ n, (change EventModuleNode.eventModuleId m found missing modules).1 = some n →
      ModuleOk n ∧ ∃ id, moduleCbs id n ≠ [])
    (hview : ∀ id', ((change EventModuleNode.eventModuleId m found missing modules).1.map
      (moduleCbs id')).getD [] = if id' = id then x.1 else callbacks modules m id')
    (hret : (change EventModuleNode.eventModuleId m found missing modules).2.ret = x.2) :
    RegistryChanged modules (visit EventModuleNode.eventModuleId m found missing modules) m id
      x := by
  refine ⟨?_, ?_, by rw [visit_result, hret]⟩
  · refine ⟨nodup_visit hfound hmissing h.ids, ?_, ?_⟩
    · intro n hn
      rcases mem_visit hn with hn | hn
      · exact h.modules n hn
      · exact (hnew n hn).1
    · intro n hn
      rcases mem_visit hn with hn | hn
      · exact h.used n hn
      · exact (hnew n hn).1.used_iff.mpr (hnew n hn).2
  · funext m' id'
    rw [CallbackMap.set]
    rcases eq_or_ne m' m with rfl | hm
    · rw [callbacks, nodeAt_visit_self hfound hmissing h.ids, hview id']
      simp only [true_and]
    · rw [if_neg (fun heq => hm heq.1), callbacks, nodeAt_visit_of_ne hfound hmissing hm, callbacks]

theorem RegistryOk.exists_callback_iff :
    (∃ id, callbacks modules m id ≠ []) ↔
      nodeAt EventModuleNode.eventModuleId m modules ≠ none := by
  cases hat : nodeAt EventModuleNode.eventModuleId m modules with
  | none => simp [callbacks_of_none hat]
  | some node =>
    have hmem := nodeAt_mem hat
    obtain ⟨id, hid⟩ := (h.modules node hmem).used_iff.mp (h.used node hmem)
    refine iff_of_true ⟨id, ?_⟩ (by simp)
    rw [callbacks_of_some hat]
    exact hid

theorem RegistryOk.granted_of_some (allocs : Allocs)
    (hat : nodeAt EventModuleNode.eventModuleId info.eventModuleId modules = some node) :
    (callbacks modules : CallbackMap).granted info allocs =
      moduleGranted info.eventId (moduleCbs info.eventId node) allocs := by
  have hexists := (h.exists_callback_iff (m := info.eventModuleId)).mpr (by simp [hat])
  rw [CallbackMap.granted_of_exists hexists, callbacks_of_some hat]

theorem RegistryOk.granted_of_none (allocs : Allocs)
    (hat : nodeAt EventModuleNode.eventModuleId info.eventModuleId modules = none) :
    (callbacks modules : CallbackMap).granted info allocs =
      (moduleGranted info.eventId [] allocs && allocs.moduleNode) := by
  have hnone := mt (h.exists_callback_iff (m := info.eventModuleId)).mp (by simp [hat])
  rw [CallbackMap.granted_of_not_exists hnone, callbacks_of_none hat]

end

theorem moduleOk_empty (m : Int) : ModuleOk ⟨m, [], []⟩ :=
  ⟨⟨nodup_nil, by simp, by simp, by simp⟩, nodup_nil⟩

theorem moduleCbs_empty (m id : Int) : moduleCbs id ⟨m, [], []⟩ = [] := ite_self _

theorem addCb_nil (info : RegisterInfo) (granted : Bool) : addCb [] info granted =
      if granted then ([⟨info.eventCb, info.eventCbArg⟩], .ok) else ([], .noMem) := rfl

theorem newModuleNode_cases (info : RegisterInfo) (allocs : Allocs) (live : Nat) :
    (newModuleNode info allocs live).2.ret =
        (addCb [] info (moduleGranted info.eventId [] allocs && allocs.moduleNode)).2 ∧
      ((newModuleNode info allocs live).1 = none ∧
          (moduleGranted info.eventId [] allocs && allocs.moduleNode) = false ∨
        ∃ r, (newModuleNode info allocs live).1 = some r.1 ∧
          (moduleGranted info.eventId [] allocs && allocs.moduleNode) = true ∧
          ModuleChanged ⟨info.eventModuleId, [], []⟩ r info.eventId (addCb [] info true)) := by
  have hchanged := registerCbToModuleNode_changed (moduleOk_empty info.eventModuleId)
    info allocs (live + 1)
  rw [moduleCbs_empty] at hchanged
  have hret := hchanged.ret
  unfold newModuleNode
  cases hmodule : allocs.moduleNode with
  | false => simp [addCb_nil]
  | true =>
    cases hgranted : moduleGranted info.eventId [] allocs with
    | false =>
      rw [hgranted, addCb_nil] at hret
      simp [hret, addCb_nil, Result.freed]
    | true =>
      rw [hgranted] at hchanged
      rw [hgranted, addCb_nil] at hret
      simp only [hret, if_true, Bool.and_self]
      exact ⟨rfl, .inr ⟨_, rfl, trivial, hchanged⟩⟩

theorem registerCb_refines (h : RegistryOk modules) (info : RegisterInfo) (allocs : Allocs)
    (live : Nat) : RegistryChanged modules (registerCb modules info allocs live)
      info.eventModuleId info.eventId
      (addCb (callbacks modules info.eventModuleId info.eventId) info
        ((callbacks modules : CallbackMap).granted info allocs)) := by
  obtain ⟨hret, hcases⟩ := newModuleNode_cases info allocs live
  have hmissing : ∀ n, (newModuleNode info allocs live).1 = some n →
      n.eventModuleId = info.eventModuleId := by
    intro n hn
    rcases hcases with ⟨hnone, -⟩ | ⟨node, hsome, -, hchanged⟩
    · rw [hnone] at hn
      cases hn
    · rw [hsome] at hn
      cases hn
      exact hchanged.key
  -- A node that is found keeps its key whatever it holds.
  have hkey : ∀ n n', (some (registerCbToModuleNode n info allocs live).1 :
      Option EventModuleNode) = some n' → n'.eventModuleId = n.eventModuleId := by
    intro n n' hn
    cases hn
    unfold registerCbToModuleNode
    split
    · rfl
    · rfl
  unfold registerCb
  cases hat : nodeAt EventModuleNode.eventModuleId info.eventModuleId modules with
  | none =>
    rw [callbacks_of_none hat, h.granted_of_none allocs hat]
    refine h.visited hkey hmissing ?_ ?_ ?_
    · intro n hn
      rw [change, hat] at hn
      rcases hcases with ⟨hnone, -⟩ | ⟨node, hsome, -, hchanged⟩
      · rw [elim_none, hnone] at hn
        cases hn
      · rw [elim_none, hsome] at hn
        cases hn
        refine ⟨hchanged.ok, info.eventId, ?_⟩
        rw [hchanged.view, if_pos rfl]
        exact cons_ne_nil _ _
    · intro id'
      rw [change, hat, elim_none, callbacks_of_none hat, addCb_nil]
      rcases hcases with ⟨hnone, hfail⟩ | ⟨node, hsome, hgranted, hchanged⟩
      · rw [hnone, hfail]
        exact (ite_self _).symm
      · rw [hsome, hgranted, if_pos rfl]
        refine (hchanged.view id').trans ?_
        rw [moduleCbs_empty]
        rfl
    · rw [change, hat]
      exact hret
  | some node =>
    have hok := h.modules node (nodeAt_mem hat)
    have hchanged := registerCbToModuleNode_changed hok info allocs live
    rw [callbacks_of_some hat, h.granted_of_some allocs hat]
    refine h.visited hkey hmissing ?_ ?_ ?_
    · intro n hn
      rw [change, hat] at hn
      cases hn
      refine ⟨hchanged.ok, ?_⟩
      obtain ⟨id, hid⟩ := hok.used_iff.mp (h.used node (nodeAt_mem hat))
      refine ⟨id, ?_⟩
      rw [hchanged.view]
      split
      · rename_i heq
        rw [heq] at hid
        exact addCb_of_ne_nil hid info _
      · exact hid
    · intro id'
      rw [change, hat, callbacks_of_some hat]
      exact hchanged.view id'
    · rw [change, hat]
      exact hchanged.ret

theorem unregisterCbFromModule_cases (h : ModuleOk node) (info : RegisterInfo) (live : Nat) :
    ∃ r, ModuleChanged node r info.eventId (dropCb (moduleCbs info.eventId node) info) ∧
      (unregisterCbFromModule node info live).2.ret = r.2.ret ∧
      ((unregisterCbFromModule node info live).1 = none ∧ (∀ id, moduleCbs id r.1 = []) ∨
        (unregisterCbFromModule node info live).1 = some r.1 ∧ ∃ id, moduleCbs id r.1 ≠ []) := by
  have hchanged := unregisterCbFromModuleNode_changed h info live
  unfold unregisterCbFromModule
  dsimp only
  split
  · rename_i hempty
    rw [Bool.and_eq_true_iff, List.isEmpty_iff, List.isEmpty_iff] at hempty
    refine ⟨_, hchanged, rfl, .inl ⟨rfl, ?_⟩⟩
    by_contra hid
    rcases hchanged.ok.used_iff.mpr (not_forall.mp hid) with hne | hne
    · exact hne hempty.1
    · exact hne hempty.2
  · rename_i hempty
    rw [Bool.and_eq_true_iff, List.isEmpty_iff, List.isEmpty_iff, not_and_or] at hempty
    exact ⟨_, hchanged, rfl, .inr ⟨rfl, hchanged.ok.used_iff.mp hempty⟩⟩

theorem unregisterCb_refines (h : RegistryOk modules) (info : RegisterInfo) (live : Nat) :
    RegistryChanged modules (unregisterCb modules info live) info.eventModuleId info.eventId
      (dropCb (callbacks modules info.eventModuleId info.eventId) info) := by
  have hkey : ∀ n n', (unregisterCbFromModule n info live).1 = some n' →
      n'.eventModuleId = n.eventModuleId := by
    intro n n' hn
    unfold unregisterCbFromModule at hn
    dsimp only at hn
    split at hn
    · cases hn
    · cases hn
      unfold unregisterCbFromModuleNode
      split
      · rfl
      · rfl
  have hmissing : ∀ n : EventModuleNode, (none : Option EventModuleNode) = some n →
      n.eventModuleId = info.eventModuleId := by
    intro n hn
    cases hn
  unfold unregisterCb
  cases hat : nodeAt EventModuleNode.eventModuleId info.eventModuleId modules with
  | none =>
    rw [callbacks_of_none hat]
    refine h.visited hkey hmissing ?_ ?_ ?_
    · intro n hn
      rw [change, hat] at hn
      cases hn
    · intro id'
      rw [change, hat, callbacks_of_none hat]
      exact (ite_self _).symm
    · rw [change, hat]
      rfl
  | some node =>
    obtain ⟨r, hchanged, hret, hcases⟩ :=
      unregisterCbFromModule_cases (h.modules node (nodeAt_mem hat)) info live
    rw [callbacks_of_some hat]
    refine h.visited hkey hmissing ?_ ?_ ?_
    · intro n hn
      rw [change, hat, elim_some] at hn
      rcases hcases with ⟨hnone, -⟩ | ⟨hsome, hused⟩
      · rw [hnone] at hn
        cases hn
      · rw [hsome] at hn
        cases hn
        exact ⟨hchanged.ok, hused⟩
    · intro id'
      rw [change, hat, elim_some, callbacks_of_some hat, ← hchanged.view]
      rcases hcases with ⟨hnone, hempty⟩ | ⟨hsome, -⟩
      · rw [hnone, hempty]
        rfl
      · rw [hsome]
        rfl
    · rw [change, hat]
      exact hret.trans hchanged.ret

theorem eventPost_refines (h : RegistryOk modules) (info : EventInfo)
    (hvalid : eventIsInvalid info.eventModuleId info.eventId = false) :
    eventPost modules info = (.ok, (callbacks modules info.eventModuleId eventIdAll ++
      if info.eventId = eventIdAll then []
      else callbacks modules info.eventModuleId info.eventId).map
        fun cbNode => ⟨cbNode, info⟩) := by
  unfold eventPost
  rw [hvalid]
  cases hat : nodeAt EventModuleNode.eventModuleId info.eventModuleId modules with
  | none =>
    simp only [Bool.false_eq_true, if_false, callbacks_of_none hat, ite_self]
    rfl
  | some node =>
    have hevents := (h.modules node (nodeAt_mem hat)).events
    simp only [Bool.false_eq_true, if_false, callbacks_of_some hat, moduleCbs_all,
      eventPostToModule, map_append, eventPostToCbList]
    cases hevent : nodeAt EventNode.eventId info.eventId node.eventNodeList with
    | none =>
      by_cases hid : info.eventId = eventIdAll
      · rw [if_pos hid]
        rfl
      · rw [if_neg hid, moduleCbs_single hid, eventCbs_of_none hevent]
        rfl
    | some eventNode =>
      have hid : info.eventId ≠ eventIdAll := by
        rw [← nodeAt_key hevent]
        exact hevents.single eventNode (nodeAt_mem hevent)
      rw [if_neg hid, moduleCbs_single hid, eventCbs_of_some hevent]

theorem RegistryOk.distinct (h : RegistryOk modules) (m id : Int) :
    Distinct (callbacks modules m id) := by
  cases hat : nodeAt EventModuleNode.eventModuleId m modules with
  | none =>
    rw [callbacks_of_none hat]
    exact nodup_nil
  | some node =>
    have hok := h.modules node (nodeAt_mem hat)
    rw [callbacks_of_some hat, moduleCbs]
    split
    · exact hok.distinct
    · cases hevent : nodeAt EventNode.eventId id node.eventNodeList with
      | none =>
        rw [eventCbs_of_none hevent]
        exact nodup_nil
      | some eventNode =>
        rw [eventCbs_of_some hevent]
        exact hok.events.distinct eventNode (nodeAt_mem hevent)

end Registry

theorem registryOk_nil : RegistryOk [] := ⟨nodup_nil, by simp, by simp⟩

def Stands (s : Registry) (map : CallbackMap) : Prop :=
  RegistryOk s.moduleList ∧ callbacks s.moduleList = map

theorem eventCall_stands {s : Registry} (msg : EventMsg) (h : Stands s map) :
    Stands (eventCall s msg).1 (map.call msg).1 ∧ (eventCall s msg).2 = (map.call msg).2 := by
  obtain ⟨hok, rfl⟩ := h
  rw [eventCall, CallbackMap.call]
  cases hvalid : msg.isInvalid with
  | true => exact ⟨⟨hok, rfl⟩, rfl⟩
  | false =>
    cases msg with
    | register info allocs =>
      obtain ⟨hok', hview, hret⟩ := registerCb_refines hok info allocs s.live
      exact ⟨⟨hok', hview⟩, congrArg (Output.mk · []) hret⟩
    | unregister info =>
      obtain ⟨hok', hview, hret⟩ := unregisterCb_refines hok info s.live
      exact ⟨⟨hok', hview⟩, congrArg (Output.mk · []) hret⟩
    | post info =>
      have hpost := eventPost_refines hok info hvalid
      refine ⟨⟨hok, rfl⟩, ?_⟩
      show (⟨(eventPost s.moduleList info).1, (eventPost s.moduleList info).2⟩ : Output) = _
      rw [hpost]
      rfl

/-- After any calls of the API, with any allocations failing: there is no empty node, no
callback is registered twice for one event, and the return values and calls of callbacks
are those of the map. -/
theorem runOutputs_eventCall (msgs : List EventMsg) :
    RegistryOk (runOutputs eventCall Registry.init msgs).1.moduleList ∧ (∀ m id, Distinct
        (callbacks (runOutputs eventCall Registry.init msgs).1.moduleList m id)) ∧
      callbacks (runOutputs eventCall Registry.init msgs).1.moduleList =
        (runOutputs CallbackMap.call (fun _ _ => []) msgs).1 ∧
      (runOutputs eventCall Registry.init msgs).2 =
        (runOutputs CallbackMap.call (fun _ _ => []) msgs).2 := by
  have hinit : Stands .init fun _ _ => [] := ⟨registryOk_nil, rfl⟩
  obtain ⟨⟨hok, hmap⟩, hout⟩ :=
    runOutputs_simulation (fun _ _ msg h => eventCall_stands msg h) hinit msgs
  exact ⟨hok, hok.distinct, hmap, hout⟩

-- A callback for all events of a module comes before the one for the event, and the module
-- node that lost its memory leaves nothing behind.
example : (runOutputs eventCall Registry.init
      [.register ⟨1, 7, 10, 0⟩ ⟨true, true, true⟩, .register ⟨1, -1, 20, 5⟩ ⟨false, false, true⟩,
        .register ⟨2, 7, 10, 0⟩ ⟨true, true, false⟩, .post ⟨1, 7, 0⟩]).2.map Output.calls =
      [[], [], [], [⟨⟨20, 5⟩, ⟨1, 7, 0⟩⟩, ⟨⟨10, 0⟩, ⟨1, 7, 0⟩⟩]] := by
  decide

end BekenSoc.EventRegistryMap
