import Mathlib.Data.List.GetD
import BekenSoc.CRuntime

/-!
The byte queue of `bk_fifo.h`, with indices that run freely on 32 bits, and the list that it holds.

A put and a get run with disabled interrupts.
-/

namespace BekenSoc.BkFifo

open CRuntime List

def kfifoSize : Nat := 128

structure Kfifo where
  inIdx : Nat
  outIdx : Nat
  buffer : Nat → UInt8

def kfifoInit (buffer : Nat → UInt8) : Kfifo := ⟨0, 0, buffer⟩

def kfifoAlloc : Kfifo := kfifoInit fun _ => 0

def slot (i : Nat) : Nat := i &&& (kfifoSize - 1)

def copyTo (mem : Nat → UInt8) (dst : Nat) (src : List UInt8) (len : Nat) : Nat → UInt8 :=
  fun a => if dst ≤ a ∧ a < dst + len then src.getD (a - dst) 0 else mem a

def copyFrom (mem : Nat → UInt8) (src len : Nat) : List UInt8 :=
  (range len).map fun i => mem (src + i)

def kfifoPut (f : Kfifo) (bytes : List UInt8) : Kfifo × Nat :=
  let len := min bytes.length (addU32 (subU32 kfifoSize f.inIdx) f.outIdx)
  let l := min len (kfifoSize - slot f.inIdx)
  let first := copyTo f.buffer (slot f.inIdx) bytes l
  ({ f with
      buffer := copyTo first 0 (bytes.drop l) (len - l)
      inIdx := addU32 f.inIdx len }, len)

def kfifoDataSize (f : Kfifo) : Nat := subU32 f.inIdx f.outIdx

def kfifoUnused (f : Kfifo) : Nat := subU32 kfifoSize (subU32 f.inIdx f.outIdx)

def kfifoGet (f : Kfifo) (len : Nat) : Kfifo × List UInt8 :=
  let len := min len (subU32 f.inIdx f.outIdx)
  let l := min len (kfifoSize - slot f.outIdx)
  let data := copyFrom f.buffer (slot f.outIdx) l ++ copyFrom f.buffer 0 (len - l)
  let out := addU32 f.outIdx len
  if out = f.inIdx then ({ f with inIdx := 0, outIdx := 0 }, data)
  else ({ f with outIdx := out }, data)

structure Holds (f : Kfifo) (list : List UInt8) : Prop where
  out_lt : f.outIdx < 2 ^ 32
  in_eq : f.inIdx = (f.outIdx + list.length) % 2 ^ 32
  fits : list.length ≤ kfifoSize
  bytes : ∀ i < list.length, f.buffer ((f.outIdx + i) % kfifoSize) = list.getD i 0

variable {f : Kfifo} {list : List UInt8}

theorem slot_eq (i : Nat) : slot i = i % 128 := Nat.and_two_pow_sub_one_eq_mod i 7

theorem holds_init (buffer : Nat → UInt8) : Holds (kfifoInit buffer) [] :=
  ⟨Nat.two_pow_pos 32, rfl, Nat.zero_le _, fun _ hi => absurd hi (Nat.not_lt_zero _)⟩

theorem Holds.dataSize (h : Holds f list) : kfifoDataSize f = list.length := by
  have hin := h.in_eq
  have hfits : list.length ≤ 128 := h.fits
  unfold kfifoDataSize subU32
  omega

theorem Holds.unused (h : Holds f list) : kfifoUnused f = 128 - list.length := by
  have hsize := h.dataSize
  have hfits : list.length ≤ 128 := h.fits
  unfold kfifoDataSize at hsize
  unfold kfifoUnused kfifoSize
  rw [hsize]
  unfold subU32
  omega

theorem Holds.place (h : Holds f list) :
    addU32 (subU32 kfifoSize f.inIdx) f.outIdx = 128 - list.length := by
  have hin := h.in_eq
  have hfits : list.length ≤ 128 := h.fits
  unfold addU32 subU32 kfifoSize
  omega

theorem copyTo_wrapped (mem : Nat → UInt8) (bytes : List UInt8) {start n a : Nat}
    (hstart : start < 128) (hn : n ≤ 128) (ha : a < 128) :
    copyTo (copyTo mem start bytes (min n (128 - start))) 0 (bytes.drop (min n (128 - start)))
        (n - min n (128 - start)) a =
      if (a + 128 - start) % 128 < n then bytes.getD ((a + 128 - start) % 128) 0 else mem a := by
  unfold copyTo
  by_cases hsecond : a < n - min n (128 - start)
  · have hindex : (a + 128 - start) % 128 = min n (128 - start) + a := by omega
    rw [if_pos ⟨Nat.zero_le a, by omega⟩, hindex, if_pos (by omega), getD_eq_getElem?_getD,
      getD_eq_getElem?_getD, List.getElem?_drop, Nat.sub_zero]
  · rw [if_neg (by omega)]
    by_cases hfirst : start ≤ a ∧ a < start + min n (128 - start)
    · have hindex : (a + 128 - start) % 128 = a - start := by omega
      rw [if_pos hfirst, hindex, if_pos (by omega)]
    · rw [if_neg hfirst, if_neg (by omega)]

theorem Holds.put (h : Holds f list) (bytes : List UInt8) :
    Holds (kfifoPut f bytes).1 (list ++ bytes.take (128 - list.length)) ∧
      (kfifoPut f bytes).2 = (bytes.take (128 - list.length)).length := by
  have hout := h.out_lt
  have hin := h.in_eq
  have hfits : list.length ≤ 128 := h.fits
  have hlen : (bytes.take (128 - list.length)).length = min bytes.length (128 - list.length) := by
    rw [length_take, Nat.min_comm]
  unfold kfifoPut
  rw [h.place, slot_eq, kfifoSize]
  refine ⟨⟨hout, ?_, ?_, ?_⟩, hlen.symm⟩
  · rw [length_append, hlen]
    change addU32 f.inIdx (min bytes.length (128 - list.length)) =
      (f.outIdx + (list.length + min bytes.length (128 - list.length))) % 2 ^ 32
    unfold addU32
    omega
  · rw [length_append, kfifoSize]
    omega
  · intro i hi
    rw [length_append] at hi
    change copyTo _ 0 _ _ ((f.outIdx + i) % 128) = _
    rw [copyTo_wrapped _ _ (Nat.mod_lt _ (by decide)) (by omega) (Nat.mod_lt _ (by decide))]
    by_cases hold : i < list.length
    · rw [if_neg (by omega), getD_append _ _ _ _ hold]
      exact h.bytes i hold
    · have hindex : ((f.outIdx + i) % 128 + 128 - f.inIdx % 128) % 128 = i - list.length := by omega
      have htake : i - list.length < 128 - list.length := by omega
      rw [hindex, if_pos (by omega), getD_append_right _ _ _ _ (Nat.le_of_not_lt hold),
        getD_eq_getElem?_getD, getD_eq_getElem?_getD, List.getElem?_take_of_lt htake]

theorem copyFrom_wrapped (mem : Nat → UInt8) {start n : Nat} (hstart : start < 128) (hn : n ≤ 128) :
    copyFrom mem start (min n (128 - start)) ++ copyFrom mem 0 (n - min n (128 - start)) =
      (range n).map fun i => mem ((start + i) % 128) := by
  apply ext_getElem?
  intro i
  have hlength : (copyFrom mem start (min n (128 - start))).length = min n (128 - start) := by
    rw [copyFrom, length_map, length_range]
  by_cases hfirst : i < min n (128 - start)
  · have hindex : (start + i) % 128 = start + i := by omega
    rw [List.getElem?_append_left (hlength.symm ▸ hfirst), copyFrom, List.getElem?_map,
      List.getElem?_map, List.getElem?_range hfirst, List.getElem?_range (by omega),
      Option.map_some, Option.map_some, hindex]
  · rw [List.getElem?_append_right (hlength.symm ▸ Nat.le_of_not_lt hfirst), hlength, copyFrom,
      List.getElem?_map, List.getElem?_map]
    by_cases hsecond : i < n
    · have hindex : (start + i) % 128 = 0 + (i - min n (128 - start)) := by omega
      rw [List.getElem?_range (by omega), List.getElem?_range hsecond, Option.map_some,
        Option.map_some, hindex]
    · rw [List.getElem?_eq_none (by rw [length_range]; omega),
        List.getElem?_eq_none (by rw [length_range]; omega)]
      rfl

theorem Holds.take_eq (h : Holds f list) {n : Nat} (hn : n ≤ list.length) :
    ((range n).map fun i => f.buffer ((f.outIdx % 128 + i) % 128)) = list.take n := by
  apply ext_getElem?
  intro i
  rw [List.getElem?_map]
  by_cases hi : i < n
  · have hindex : (f.outIdx % 128 + i) % 128 = (f.outIdx + i) % 128 := by omega
    have hbyte : f.buffer ((f.outIdx + i) % 128) = list.getD i 0 := h.bytes i (by omega)
    rw [List.getElem?_range hi, Option.map_some, hindex, hbyte, List.getElem?_take_of_lt hi,
      getD_eq_getElem _ _ (by omega), List.getElem?_eq_getElem (by omega)]
  · rw [List.getElem?_eq_none (by rw [length_range]; omega),
      List.getElem?_eq_none (by rw [length_take]; omega)]
    rfl

theorem Holds.get (h : Holds f list) (n : Nat) :
    Holds (kfifoGet f n).1 (list.drop n) ∧ (kfifoGet f n).2 = list.take n := by
  have hin := h.in_eq
  have hfits : list.length ≤ 128 := h.fits
  have hsize : subU32 f.inIdx f.outIdx = list.length := h.dataSize
  have hdata : copyFrom f.buffer (slot f.outIdx) (min (min n list.length)
      (kfifoSize - slot f.outIdx)) ++ copyFrom f.buffer 0 (min n list.length -
      min (min n list.length) (kfifoSize - slot f.outIdx)) = list.take n := by
    rw [slot_eq, kfifoSize, copyFrom_wrapped _ (Nat.mod_lt _ (by decide)) (by omega),
      h.take_eq (Nat.min_le_right _ _), ← take_eq_take_min]
  unfold kfifoGet
  dsimp only
  rw [hsize, hdata]
  split
  · rename_i hempty
    unfold addU32 at hempty
    have hall : list.drop n = [] := by
      rw [drop_eq_nil_iff]
      omega
    rw [hall]
    exact ⟨holds_init f.buffer, rfl⟩
  · rename_i hmore
    unfold addU32 at hmore
    have hlt : n < list.length := by
      apply Nat.lt_of_not_le
      intro hle
      apply hmore
      rw [Nat.min_eq_right hle, hin]
    rw [Nat.min_eq_left (Nat.le_of_lt hlt)]
    refine ⟨⟨Nat.mod_lt _ (by decide), ?_, ?_, ?_⟩, rfl⟩
    · rw [length_drop]
      change f.inIdx = (addU32 f.outIdx n + (list.length - n)) % 2 ^ 32
      unfold addU32
      omega
    · rw [length_drop, kfifoSize]
      omega
    · intro i hi
      rw [length_drop] at hi
      have hindex : (addU32 f.outIdx n + i) % 128 = (f.outIdx + (n + i)) % 128 := by
        unfold addU32
        omega
      change f.buffer ((addU32 f.outIdx n + i) % 128) = _
      rw [hindex, getD_eq_getElem?_getD, List.getElem?_drop]
      exact h.bytes (n + i) (by omega)

end BekenSoc.BkFifo
