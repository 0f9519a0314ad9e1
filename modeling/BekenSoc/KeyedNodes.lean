import Mathlib.Data.List.Nodup

/-!
Lists of nodes with a key, in which a node is created when its key is first used and
unlinked when it is no longer needed.

`visit` is the loop that all operations on such a list share: it goes to the first node
with the key, and appends a node when there is none.
-/

namespace BekenSoc.KeyedNodes

open List

variable {α β κ : Type*} [DecidableEq κ]

def nodeAt (key : α → κ) (k : κ) (nodes : List α) : Option α :=
  nodes.find? fun a => decide (key a = k)

def visit (key : α → κ) (k : κ) (found : α → Option α × β) (missing : Option α × β) :
    List α → List α × β
  | [] => (missing.1.toList, missing.2)
  | a :: nodes =>
    if key a = k then ((found a).1.toList ++ nodes, (found a).2)
    else (a :: (visit key k found missing nodes).1, (visit key k found missing nodes).2)

def change (key : α → κ) (k : κ) (found : α → Option α × β) (missing : Option α × β)
    (nodes : List α) : Option α × β :=
  (nodeAt key k nodes).elim missing found

section Lookup

variable {key : α → κ} {k k' : κ} {a : α} {nodes : List α}

theorem nodeAt_cons_self (h : key a = k) : nodeAt key k (a :: nodes) = some a :=
  List.find?_cons_of_pos (decide_eq_true h)

theorem nodeAt_cons_of_ne (h : key a ≠ k) : nodeAt key k (a :: nodes) = nodeAt key k nodes :=
  List.find?_cons_of_neg (by simpa using h)

theorem nodeAt_mem (h : nodeAt key k nodes = some a) : a ∈ nodes := List.mem_of_find?_eq_some h

theorem nodeAt_key (h : nodeAt key k nodes = some a) : key a = k := by
  have hfound := List.find?_some h
  exact of_decide_eq_true hfound

theorem nodeAt_eq_none : nodeAt key k nodes = none ↔ k ∉ nodes.map key := by
  simp only [nodeAt, List.find?_eq_none, decide_eq_true_eq, mem_map, not_exists, not_and]

theorem nodeAt_of_mem (hnodup : (nodes.map key).Nodup) (h : a ∈ nodes) :
    nodeAt key (key a) nodes = some a := by
  induction nodes with
  | nil => cases h
  | cons b nodes ih =>
    obtain ⟨hb, hnodes⟩ := nodup_cons.mp hnodup
    rcases mem_cons.mp h with rfl | h
    · exact nodeAt_cons_self rfl
    · have hne : key b ≠ key a := fun heq => hb (heq ▸ mem_map_of_mem h)
      rw [nodeAt_cons_of_ne hne]
      exact ih hnodes h

end Lookup

section Visit

variable {key : α → κ} {k : κ} {found : α → Option α × β} {missing : Option α × β} {nodes : List α}

theorem visit_result : (visit key k found missing nodes).2 =
    (change key k found missing nodes).2 := by
  induction nodes with
  | nil => rfl
  | cons a nodes ih =>
    rw [visit, change]
    split
    · rename_i h
      rw [nodeAt_cons_self h]
      rfl
    · rename_i h
      rw [nodeAt_cons_of_ne h]
      exact ih

theorem visit_unlink (r r' : β) : (visit key k (fun _ => (none, r)) (none, r') nodes).1 =
      nodes.eraseP fun a => decide (key a = k) := by
  induction nodes with
  | nil => rfl
  | cons a nodes ih =>
    rw [visit]
    split
    · rename_i h
      rw [eraseP_cons_of_pos (by simpa using h)]
      rfl
    · rename_i h
      rw [eraseP_cons_of_neg (by simpa using h), ih]

theorem mem_visit {a : α} (h : a ∈ (visit key k found missing nodes).1) :
    a ∈ nodes ∨ (change key k found missing nodes).1 = some a := by
  induction nodes with
  | nil => exact .inr (Option.mem_toList.mp h)
  | cons b nodes ih =>
    rw [visit] at h
    rw [change]
    split at h
    · rename_i hb
      rw [nodeAt_cons_self hb]
      rcases mem_append.mp h with h | h
      · exact .inr (Option.mem_toList.mp h)
      · exact .inl (mem_cons_of_mem b h)
    · rename_i hb
      rw [nodeAt_cons_of_ne hb]
      rcases mem_cons.mp h with rfl | h
      · exact .inl mem_cons_self
      · rcases ih h with h | h
        · exact .inl (mem_cons_of_mem b h)
        · exact .inr h

variable (hfound : ∀ a a', (found a).1 = some a' → key a' = key a)
  (hmissing : ∀ a, missing.1 = some a → key a = k)
include hfound hmissing

theorem change_key {a : α} (h : (change key k found missing nodes).1 = some a) : key a = k := by
  unfold change at h
  cases hnode : nodeAt key k nodes with
  | none =>
    rw [hnode] at h
    exact hmissing a h
  | some b =>
    rw [hnode] at h
    exact (hfound b a h).trans (nodeAt_key hnode)

theorem nodeAt_visit_of_ne {k' : κ} (hk : k' ≠ k) :
    nodeAt key k' (visit key k found missing nodes).1 = nodeAt key k' nodes := by
  induction nodes with
  | nil =>
    refine nodeAt_eq_none.mpr fun hmem => ?_
    obtain ⟨a, ha, hak⟩ := mem_map.mp hmem
    exact hk (hak.symm.trans (hmissing a (Option.mem_toList.mp ha)))
  | cons a nodes ih =>
    rw [visit]
    split
    · rename_i ha
      rw [nodeAt_cons_of_ne (fun h => hk (h.symm.trans ha))]
      cases hnew : (found a).1 with
      | none => rfl
      | some b =>
        have hb : key b ≠ k' := fun h => hk (h.symm.trans ((hfound a b hnew).trans ha))
        exact nodeAt_cons_of_ne hb
    · by_cases ha : key a = k'
      · rw [nodeAt_cons_self ha, nodeAt_cons_self ha]
      · rw [nodeAt_cons_of_ne ha, nodeAt_cons_of_ne ha]
        exact ih

theorem visit_keys_sub {k' : κ} (h : k' ∈ (visit key k found missing nodes).1.map key) :
    k' ∈ nodes.map key ∨ k' = k := by
  obtain ⟨a, ha, rfl⟩ := mem_map.mp h
  rcases mem_visit ha with ha | ha
  · exact .inl (mem_map_of_mem ha)
  · exact .inr (change_key hfound hmissing ha)

theorem nodup_visit (hnodup : (nodes.map key).Nodup) :
    ((visit key k found missing nodes).1.map key).Nodup := by
  induction nodes with
  | nil =>
    rw [visit]
    cases missing.1 with
    | none => exact nodup_nil
    | some => exact nodup_singleton _
  | cons a nodes ih =>
    obtain ⟨ha, hnodes⟩ := nodup_cons.mp hnodup
    rw [visit]
    split
    · cases hnew : (found a).1 with
      | none => exact hnodes
      | some b =>
        refine nodup_cons.mpr ⟨?_, hnodes⟩
        rw [hfound a b hnew]
        exact ha
    · rename_i hk
      refine nodup_cons.mpr ⟨fun hmem => ?_, ih hnodes⟩
      rcases visit_keys_sub hfound hmissing hmem with hmem | heq
      · exact ha hmem
      · exact hk heq

theorem nodeAt_visit_self (hnodup : (nodes.map key).Nodup) :
    nodeAt key k (visit key k found missing nodes).1 = (change key k found missing nodes).1 := by
  induction nodes with
  | nil =>
    rw [visit]
    show nodeAt key k missing.1.toList = missing.1
    cases hnew : missing.1 with
    | none => rfl
    | some a => exact nodeAt_cons_self (hmissing a hnew)
  | cons a nodes ih =>
    obtain ⟨ha, hnodes⟩ := nodup_cons.mp hnodup
    rw [visit, change]
    split
    · rename_i hk
      rw [nodeAt_cons_self hk]
      show nodeAt key k ((found a).1.toList ++ nodes) = (found a).1
      cases hnew : (found a).1 with
      | none => exact nodeAt_eq_none.mpr (hk ▸ ha)
      | some b => exact nodeAt_cons_self ((hfound a b hnew).trans hk)
    · rename_i hk
      rw [nodeAt_cons_of_ne hk, nodeAt_cons_of_ne hk]
      exact ih hnodes

end Visit

end BekenSoc.KeyedNodes
