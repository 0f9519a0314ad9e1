import Mathlib.Data.List.Range

/-!
Queues in arrays whose read and write index wrap around.

Equal indices mean an empty queue where one slot stays unused, and an empty or a
full one where the elements are counted beside the ring.
-/

namespace BekenSoc.RingBuffers

open List Nat

structure RingBuffer (α : Type*) where
  slots : Nat → α
  outIdx : Nat
  inIdx : Nat

namespace RingBuffer

variable {α : Type*} {n : Nat} {r : RingBuffer α} {list : List α} {x : α}

def put (n : Nat) (r : RingBuffer α) (x : α) : RingBuffer α :=
  { r with slots := Function.update r.slots r.inIdx x, inIdx := (r.inIdx + 1) % n }

def front (r : RingBuffer α) : α := r.slots r.outIdx

def advance (n : Nat) (r : RingBuffer α) : RingBuffer α := { r with outIdx := (r.outIdx + 1) % n }

def window (n : Nat) (r : RingBuffer α) (k : Nat) : List α :=
  (range k).map fun i => r.slots ((r.outIdx + i) % n)

def count (n : Nat) (r : RingBuffer α) : Nat := (r.inIdx + n - r.outIdx) % n

def contents (n : Nat) (r : RingBuffer α) : List α := r.window n (r.count n)

def freeItems (n : Nat) (r : RingBuffer α) : Nat :=
  if r.inIdx < r.outIdx then r.outIdx - r.inIdx else n - r.inIdx + r.outIdx

structure Holds (n : Nat) (r : RingBuffer α) (list : List α) : Prop where
  out_lt : r.outIdx < n
  in_eq : r.inIdx = (r.outIdx + list.length) % n
  fits : list.length ≤ n
  window_eq : r.window n list.length = list

theorem add_mod_eq {a k : Nat} (ha : a < n) (hk : k ≤ n) :
    (a + k) % n = if a + k < n then a + k else a + k - n := by
  split
  · exact mod_eq_of_lt ‹_›
  · rw [mod_eq_sub_mod (by omega), mod_eq_of_lt (by omega)]

theorem add_mod_ne {a i k : Nat} (ha : a < n) (hi : i < k) (hk : k < n) :
    (a + i) % n ≠ (a + k) % n := by
  rw [add_mod_eq ha (by omega), add_mod_eq ha (by omega)]
  split <;> split <;> omega

theorem window_succ (n : Nat) (r : RingBuffer α) (k : Nat) :
    r.window n (k + 1) = r.window n k ++ [r.slots ((r.outIdx + k) % n)] := by
  simp [window, range_succ]

theorem window_advance (hout : r.outIdx < n) (k : Nat) :
    r.window n (k + 1) = r.front :: (r.advance n).window n k := by
  have hshift : ∀ i, (r.outIdx + (i + 1)) % n = ((r.outIdx + 1) % n + i) % n := by
    intro i
    rw [mod_add_mod, Nat.add_assoc, Nat.add_comm 1 i]
  simp only [window, range_succ_eq_map, map_cons, map_map]
  congr 1
  · rw [Nat.add_zero, mod_eq_of_lt hout, front]
  · apply map_congr_left
    intro i _
    exact congrArg r.slots (hshift i)

theorem Holds.empty (hn : 0 < n) (slots : Nat → α) : (RingBuffer.mk slots 0 0).Holds n [] :=
  ⟨hn, (zero_mod n).symm, Nat.zero_le n, rfl⟩

theorem Holds.put (h : r.Holds n list) (hlen : list.length < n) (x : α) :
    (r.put n x).Holds n (list ++ [x]) := by
  have hrest : (r.put n x).window n list.length = r.window n list.length := by
    apply map_congr_left
    intro i hi
    have hne := add_mod_ne h.out_lt (mem_range.mp hi) hlen
    rw [← h.in_eq] at hne
    exact Function.update_of_ne hne _ _
  have hnew : (r.put n x).slots ((r.outIdx + list.length) % n) = x := by
    rw [← h.in_eq]
    exact Function.update_self ..
  constructor
  · exact h.out_lt
  · change (r.inIdx + 1) % n = (r.outIdx + (list ++ [x]).length) % n
    rw [h.in_eq, mod_add_mod, length_append, length_singleton, Nat.add_assoc]
  · rw [length_append, length_singleton]
    exact hlen
  · rw [length_append, length_singleton, window_succ, hrest, h.window_eq]
    exact congrArg (fun y => list ++ [y]) hnew

theorem Holds.front (h : r.Holds n (x :: list)) : r.front = x := by
  have hwindow := h.window_eq
  rw [length_cons, window_advance h.out_lt] at hwindow
  exact (List.cons.inj hwindow).1

theorem Holds.advance (h : r.Holds n (x :: list)) : (r.advance n).Holds n list := by
  have hfits := h.fits
  have hin := h.in_eq
  have hwindow := h.window_eq
  rw [length_cons] at hfits hin hwindow
  rw [window_advance h.out_lt] at hwindow
  constructor
  · exact mod_lt _ (Nat.lt_of_le_of_lt (Nat.zero_le _) h.out_lt)
  · change r.inIdx = ((r.outIdx + 1) % n + list.length) % n
    rw [hin, mod_add_mod, Nat.add_assoc, Nat.add_comm 1]
  · omega
  · exact (List.cons.inj hwindow).2

variable (h : r.Holds n list)
include h

theorem Holds.in_eq_ite :
    r.inIdx = if r.outIdx + list.length < n then r.outIdx + list.length
      else r.outIdx + list.length - n := by
  rw [h.in_eq, add_mod_eq h.out_lt h.fits]

theorem Holds.empty_iff (hlen : list.length < n) : r.outIdx = r.inIdx ↔ list = [] := by
  have hout := h.out_lt
  have hin := h.in_eq_ite
  rw [← length_eq_zero_iff]
  split at hin <;> omega

theorem Holds.count_eq (hlen : list.length < n) : r.count n = list.length := by
  have hout := h.out_lt
  have hin := h.in_eq_ite
  rw [count]
  split at hin
  · rw [mod_eq_sub_mod (by omega), mod_eq_of_lt (by omega)]
    omega
  · rw [mod_eq_of_lt (by omega)]
    omega

theorem Holds.contents_eq (hlen : list.length < n) : r.contents n = list := by
  rw [contents, h.count_eq hlen, h.window_eq]

theorem Holds.freeItems_eq (hlen : list.length < n) : r.freeItems n = n - list.length := by
  have hout := h.out_lt
  have hin := h.in_eq_ite
  rw [freeItems]
  split <;> split at hin <;> omega

end RingBuffer

end BekenSoc.RingBuffers
