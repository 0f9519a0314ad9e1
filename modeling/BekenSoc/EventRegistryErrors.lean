import BekenSoc.EventRegistryMap

namespace BekenSoc.EventRegistryErrors

open KeyedNodes GuardedRuns EventRegistry EventRegistryMap

variable {α : Type} {x : α} {live : Nat} {nodes : List EventNode} {node : EventModuleNode}
  {modules : List EventModuleNode}

/-- Unless it returns `BK_OK`, the operation has changed neither `x` nor the number of nodes
that are allocated. -/
def Keeps (x : α) (live : Nat) (r : α × Result) : Prop := r.2.ret ≠ .ok → r.1 = x ∧ r.2.live = live

theorem Keeps.map {β : Type} {r : α × Result} (f : α → β) (h : Keeps x live r) :
    Keeps (f x) live (f r.1, r.2) :=
  fun herr => ⟨congrArg f (h herr).1, (h herr).2⟩

theorem Keeps.unlessNew {β : Type} {r : α × Result} {node : Option β} (h : Keeps x (live + 1) r) :
    Keeps none live (if r.2.ret = .ok then (node, r.2) else (none, r.2.freed)) := by
  split
  · rename_i hok
    exact fun herr => absurd hok herr
  · rename_i herr
    refine fun _ => ⟨rfl, ?_⟩
    exact congrArg (· - 1) (h herr).2

theorem keeps_visit {κ : Type} [DecidableEq κ] {key : α → κ} {k : κ} {nodes : List α}
    {found : α → Option α × Result} {missing : Option α × Result}
    (hfound : ∀ a, nodeAt key k nodes = some a → Keeps (some a) live (found a))
    (hmissing : Keeps none live missing) : Keeps nodes live (visit key k found missing nodes) := by
  induction nodes with
  | nil => exact hmissing.map Option.toList
  | cons a nodes ih =>
    rw [visit]
    split
    · rename_i hkey
      exact (hfound a (nodeAt_cons_self hkey)).map fun b => b.toList ++ nodes
    · rename_i hkey
      rw [nodeAt_cons_of_ne hkey] at hfound
      exact (ih hfound).map (a :: ·)

section Register

variable (info : RegisterInfo) (allocs : Allocs)

theorem keeps_registerCbToCbList (cbs : List CbNode) (live : Nat) :
    Keeps cbs live (registerCbToCbList cbs info allocs live) := by
  rw [registerCbToCbList]
  split
  · exact fun _ => ⟨rfl, rfl⟩
  · split
    · exact fun herr => absurd rfl herr
    · exact fun _ => ⟨rfl, rfl⟩

theorem keeps_registerCbToEventNodeList (nodes : List EventNode) (live : Nat) :
    Keeps nodes live (registerCbToEventNodeList nodes info allocs live) := by
  refine keeps_visit (fun eventNode _ => ?_) ?_
  · exact (keeps_registerCbToCbList info allocs eventNode.cbList live).map
      fun cbs => some { eventNode with cbList := cbs }
  · rw [newEventNode]
    split
    · exact (keeps_registerCbToCbList info allocs [] (live + 1)).unlessNew
    · exact fun _ => ⟨rfl, rfl⟩

theorem keeps_registerCbToModuleNode (node : EventModuleNode) (live : Nat) :
    Keeps node live (registerCbToModuleNode node info allocs live) := by
  rw [registerCbToModuleNode]
  split
  · exact (keeps_registerCbToCbList info allocs node.cbList live).map
      fun cbs => { node with cbList := cbs }
  · exact (keeps_registerCbToEventNodeList info allocs node.eventNodeList live).map
      fun nodes => { node with eventNodeList := nodes }

theorem keeps_registerCb (modules : List EventModuleNode) (live : Nat) :
    Keeps modules live (registerCb modules info allocs live) := by
  refine keeps_visit (fun node _ => ?_) ?_
  · exact (keeps_registerCbToModuleNode info allocs node live).map some
  · rw [newModuleNode]
    split
    · exact (keeps_registerCbToModuleNode info allocs _ (live + 1)).unlessNew
    · exact fun _ => ⟨rfl, rfl⟩

end Register

section Unregister

variable (info : RegisterInfo)

theorem keeps_unregisterCbFromCbList (cbs : List CbNode) (live : Nat) :
    Keeps cbs live (unregisterCbFromCbList cbs info live) := by
  refine keeps_visit (fun _ _ herr => absurd rfl herr) ?_
  exact fun _ => ⟨rfl, rfl⟩

theorem keeps_unregisterCbFromEventNodeList (h : EventsOk nodes) (live : Nat) :
    Keeps nodes live (unregisterCbFromEventNodeList nodes info live) := by
  refine keeps_visit (fun eventNode hat => ?_) fun _ => ⟨rfl, rfl⟩
  have hcbs := keeps_unregisterCbFromCbList info eventNode.cbList live
  rw [unregisterCbFromEventNode]
  split
  · rename_i hempty
    intro herr
    rw [(hcbs herr).1, List.isEmpty_iff] at hempty
    exact absurd hempty (h.used eventNode (nodeAt_mem hat))
  · exact hcbs.map fun cbs => some { eventNode with cbList := cbs }

theorem keeps_unregisterCbFromModuleNode (h : ModuleOk node) (live : Nat) :
    Keeps node live (unregisterCbFromModuleNode node info live) := by
  rw [unregisterCbFromModuleNode]
  split
  · exact (keeps_unregisterCbFromCbList info node.cbList live).map
      fun cbs => { node with cbList := cbs }
  · exact (keeps_unregisterCbFromEventNodeList info h.events live).map
      fun nodes => { node with eventNodeList := nodes }

theorem keeps_unregisterCb (h : RegistryOk modules) (live : Nat) :
    Keeps modules live (unregisterCb modules info live) := by
  refine keeps_visit (fun node hat => ?_) fun _ => ⟨rfl, rfl⟩
  have hmem := nodeAt_mem hat
  have hnode := keeps_unregisterCbFromModuleNode info (h.modules node hmem) live
  rw [unregisterCbFromModule]
  split
  · rename_i hempty
    intro herr
    rw [(hnode herr).1, Bool.and_eq_true, List.isEmpty_iff, List.isEmpty_iff] at hempty
    exact absurd hempty (not_and_or.mpr (h.used node hmem))
  · exact hnode.map some

end Unregister

/-- What makes a call fail: a registration meets its callback or lacks memory for one of its
nodes, a removal does not meet its callback. -/
def Fails (map : CallbackMap) : EventMsg → Prop
  | .register info allocs =>
    hasCb (map info.eventModuleId info.eventId) info.eventCb = true ∨
      map.granted info allocs = false
  | .unregister info => hasCb (map info.eventModuleId info.eventId) info.eventCb = false
  | .post _ => False

/-- After any calls, a call that has to fail returns an error, and a call that returns an
error leaves the registry, with all its nodes, as it was. -/
theorem eventCall_error (msgs : List EventMsg) (msg : EventMsg) :
    let s := (runOutputs eventCall Registry.init msgs).1
    (Fails (callbacks s.moduleList) msg → (eventCall s msg).2.ret ≠ .ok) ∧
      ((eventCall s msg).2.ret ≠ .ok → (eventCall s msg).1 = s) := by
  intro s
  have hok : RegistryOk s.moduleList := (runOutputs_eventCall msgs).1
  have hcall := (eventCall_stands msg ⟨hok, rfl⟩).2
  constructor
  · intro hfails
    rw [hcall, CallbackMap.call]
    split
    · exact fun hret => by cases hret
    · cases msg with
      | register =>
        simp only [CallbackMap.handle, addCb]
        split
        · exact fun hret => by cases hret
        · rename_i hnew
          rw [hfails.resolve_left hnew]
          exact fun hret => by cases hret
      | unregister info =>
        simp only [CallbackMap.handle, dropCb]
        rw [show hasCb _ info.eventCb = false from hfails]
        exact fun hret => by cases hret
      | post => cases hfails
  · rw [eventCall]
    split
    · exact fun _ => rfl
    · intro herr
      cases msg with
      | register info allocs =>
        obtain ⟨hlist, hlive⟩ := keeps_registerCb info allocs s.moduleList s.live herr
        exact congrArg₂ Registry.mk hlist hlive
      | unregister info =>
        obtain ⟨hlist, hlive⟩ := keeps_unregisterCb info hok s.live herr
        exact congrArg₂ Registry.mk hlist hlive
      | post => rfl

-- The memory runs out at the callback node, after a module node and an event node.
example : eventCall Registry.init (.register ⟨2, 7, 10, 0⟩ ⟨true, true, false⟩) =
      (Registry.init, ⟨.noMem, []⟩) := by
  decide

end BekenSoc.EventRegistryErrors
