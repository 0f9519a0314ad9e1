import Mathlib.Data.List.Sort

/-!
Singly linked lists in a memory of cells, seen through their link function.

`Chain next head l` follows `next` from `head` through exactly the cells of `l`
and ends at the null pointer.  The lemmas say how a chain reacts to a change of
links, and how cells are kept in the order of a key.
-/

namespace BekenSoc.LinkedChain

open List

variable {Ptr : Type*}
variable {next : Ptr → Option Ptr} {head : Option Ptr} {p q : Ptr} {l : List Ptr}

def Chain (next : Ptr → Option Ptr) : Option Ptr → List Ptr → Prop
  | head, [] => head = none
  | head, p :: l => head = some p ∧ Chain next (next p) l

@[simp] theorem chain_nil : Chain next head [] ↔ head = none := Iff.rfl

@[simp] theorem chain_cons : Chain next head (p :: l) ↔ head = some p ∧ Chain next (next p) l :=
  Iff.rfl

theorem chain_none_iff : Chain next none l ↔ l = [] := by
  cases l <;> simp

theorem Chain.head_eq (h : Chain next head l) : head = l.head? := by
  cases l with
  | nil => exact h
  | cons => exact h.1

theorem Chain.congr {next' : Ptr → Option Ptr} (h : Chain next head l)
    (hagree : ∀ p ∈ l, next' p = next p) : Chain next' head l := by
  induction l generalizing head with
  | nil => exact h
  | cons p l ih =>
    refine ⟨h.1, ?_⟩
    rw [hagree p (by simp)]
    exact ih h.2 fun q hq => hagree q (by simp [hq])

theorem Chain.unique {l' : List Ptr} (h : Chain next head l) (h' : Chain next head l') :
    l = l' := by
  induction l generalizing head l' with
  | nil =>
    rw [chain_nil] at h
    subst h
    exact (chain_none_iff.mp h').symm
  | cons p l ih =>
    cases l' with
    | nil => simp [h.1] at h'
    | cons q =>
      have hpq : p = q := Option.some.inj (h.1.symm.trans h'.1)
      subst hpq
      rw [ih h.2 h'.2]

theorem Chain.suffix {pre post : List Ptr} (h : Chain next head (pre ++ post)) :
    ∃ mid, Chain next mid post := by
  induction pre generalizing head with
  | nil => exact ⟨head, h⟩
  | cons p pre ih => exact ih h.2

theorem Chain.nodup (h : Chain next head l) : l.Nodup := by
  induction l generalizing head with
  | nil => exact nodup_nil
  | cons p l ih =>
    refine nodup_cons.mpr ⟨?_, ih h.2⟩
    intro hp
    obtain ⟨pre, post, rfl⟩ := append_of_mem hp
    obtain ⟨mid, hmid⟩ := h.2.suffix
    have hsame : pre ++ p :: post = post := Chain.unique h.2 hmid.2
    have hlength := congrArg length hsame
    simp at hlength
    omega

section KeyOrder

variable (key : Ptr → Nat)

def insertByKey (p : Ptr) (l : List Ptr) : List Ptr := l.orderedInsert (fun a b => key a < key b) p

@[simp] theorem insertByKey_nil (p : Ptr) : insertByKey key p [] = [p] := rfl

theorem insertByKey_cons_of_lt (h : key p < key q) : insertByKey key p (q :: l) = p :: q :: l :=
  orderedInsert_cons_of_le _ l h

theorem insertByKey_cons_of_le (h : key q ≤ key p) :
    insertByKey key p (q :: l) = q :: insertByKey key p l :=
  orderedInsert_of_not_le _ l (Nat.not_lt.mpr h)

theorem insertByKey_perm (p : Ptr) (l : List Ptr) : (insertByKey key p l).Perm (p :: l) :=
  perm_orderedInsert _ p l

@[simp] theorem mem_insertByKey : q ∈ insertByKey key p l ↔ q = p ∨ q ∈ l := mem_orderedInsert _

@[simp] theorem length_insertByKey (p : Ptr) (l : List Ptr) :
    (insertByKey key p l).length = l.length + 1 :=
  orderedInsert_length _ l p

def KeySorted (l : List Ptr) : Prop := l.Pairwise fun a b => key a ≤ key b

theorem KeySorted.insertByKey (p : Ptr) (h : KeySorted key l) :
    KeySorted key (insertByKey key p l) := by
  induction l with
  | nil => exact pairwise_singleton _ p
  | cons q l ih =>
    have htail : KeySorted key l := (pairwise_cons.mp h).2
    have hq : ∀ r ∈ l, key q ≤ key r := (pairwise_cons.mp h).1
    by_cases hpq : key p < key q
    · rw [insertByKey_cons_of_lt key hpq]
      refine pairwise_cons.mpr ⟨?_, h⟩
      intro r hr
      rcases mem_cons.mp hr with rfl | hr
      · exact Nat.le_of_lt hpq
      · exact Nat.le_trans (Nat.le_of_lt hpq) (hq r hr)
    · have hqp : key q ≤ key p := Nat.not_lt.mp hpq
      rw [insertByKey_cons_of_le key hqp]
      refine pairwise_cons.mpr ⟨?_, ih htail⟩
      intro r hr
      rcases (mem_insertByKey key).mp hr with rfl | hr
      · exact hqp
      · exact hq r hr

theorem insertByKey_split (p : Ptr) (h : KeySorted key l) :
    ∃ earlier later, l = earlier ++ later ∧ insertByKey key p l = earlier ++ p :: later ∧
      (∀ q ∈ earlier, key q ≤ key p) ∧ ∀ q ∈ later, key p < key q := by
  induction l with
  | nil => exact ⟨[], [], rfl, rfl, by simp, by simp⟩
  | cons q l ih =>
    have hq : ∀ r ∈ l, key q ≤ key r := (pairwise_cons.mp h).1
    by_cases hpq : key p < key q
    · refine ⟨[], q :: l, rfl, insertByKey_cons_of_lt key hpq, by simp, fun r hr => ?_⟩
      rcases mem_cons.mp hr with rfl | hr
      · exact hpq
      · exact Nat.lt_of_lt_of_le hpq (hq r hr)
    · obtain ⟨earlier, later, rfl, hins, hle, hlt⟩ := ih (pairwise_cons.mp h).2
      have hqp : key q ≤ key p := Nat.not_lt.mp hpq
      exact ⟨q :: earlier, later, rfl, by rw [insertByKey_cons_of_le key hqp, hins]; rfl,
        forall_mem_cons.mpr ⟨hqp, hle⟩, hlt⟩

theorem KeySorted.congr {key key' : Ptr → Nat} (h : KeySorted key l)
    (hagree : ∀ p ∈ l, key' p = key p) : KeySorted key' l :=
  List.Pairwise.imp_of_mem (fun {a b} ha hb hab => by rw [hagree a ha, hagree b hb]; exact hab) h

end KeyOrder

end BekenSoc.LinkedChain
