import BekenSoc.ShellLogCalls

/-!
The packets of `shell_trace_out` and `shell_spy_out`.

The bytes between the two sync characters are escaped.  The room for them is a 16-bit sum,
and what does not fit is dropped.
-/

namespace BekenSoc.ShellLinkPackets

open CRuntime ShellLog ShellLogLengths ShellLogCalls List

variable {bufLen cnt len tag : Nat} {mem : Nat → UInt8} {data body : List UInt8}
  {parts : List (List UInt8)} {s : Shell}

def hexModChar : UInt8 := 0xFF

def linkBytes (bufLen : Nat) : List UInt8 → Nat → List UInt8
  | [], _ => []
  | b :: rest, cnt =>
    if b = hexSyncChar ∨ b = hexEscChar then
      if cnt + 1 < bufLen then
        hexEscChar :: (b ^^^ hexModChar) :: linkBytes bufLen rest (cnt + 2)
      else linkBytes bufLen rest cnt
    else if cnt < bufLen then b :: linkBytes bufLen rest (cnt + 1)
    else linkBytes bufLen rest cnt

def writeAt (mem : Nat → UInt8) (pos : Nat) (bytes : List UInt8) : Nat → UInt8 :=
  fun i => if i < pos then mem i else bytes.getD (i - pos) (mem i)

def appendPart (bufLen : Nat) (buf : (Nat → UInt8) × Nat) (data : List UInt8) :
    (Nat → UInt8) × Nat :=
  (writeAt buf.1 buf.2 (linkBytes (subU16 bufLen buf.2) data 0), appendLink bufLen buf.2 data)

def packet (bufLen : Nat) (mem : Nat → UInt8) (parts : List (List UInt8)) : List UInt8 :=
  let buf := parts.foldl (appendPart bufLen) (writeAt mem 0 [hexSyncChar], 1)
  (range (addU16 buf.2 1)).map (writeAt buf.1 buf.2 [hexSyncChar])

def linkOut (s : Shell) (mem : Nat → UInt8) (bufLen : Nat) (parts : List (List UInt8)) :
    Option (Nat × List UInt8) :=
  (allocLogBlk s bufLen).2.map fun tag => (tag, packet bufLen mem parts)

def traceParts (traceId argNum time : Nat) (args : List Nat) : List (List UInt8) :=
  bytesOf 2 traceId :: bytesOf 4 time :: (args.take (min argNum maxTraceArgs)).map (bytesOf 4)

def shellTraceOut (s : Shell) (mem : Nat → UInt8) (traceId argNum time : Nat)
    (args : List Nat) : Option (Nat × List UInt8) :=
  linkOut s mem (LogCall.trace traceId argNum time args).requestLen
    (traceParts traceId argNum time args)

def shellSpyOut (s : Shell) (mem : Nat → UInt8) (spyId time : Nat) (data : List UInt8) :
    Option (Nat × List UInt8) :=
  linkOut s mem (LogCall.spy spyId time data).requestLen [bytesOf 2 spyId, bytesOf 4 time, data]

def unescape : List UInt8 → List UInt8
  | [] => []
  | [b] => if b = hexEscChar then [] else [b]
  | b :: c :: rest =>
    if b = hexEscChar then (c ^^^ hexModChar) :: unescape rest else b :: unescape (c :: rest)

def Exact (out : Option (Nat × List UInt8)) (payload : List UInt8) : Prop :=
  ∀ tag bytes, out = some (tag, bytes) → ∃ p body, poolOf (getQueueId tag) = some p ∧
    bytes.length ≤ blkLen p ∧ bytes = hexSyncChar :: body ++ [hexSyncChar] ∧
    hexSyncChar ∉ body ∧ unescape body = payload

def escape (data : List UInt8) : List UInt8 :=
  data.flatMap fun b =>
    if b = hexSyncChar ∨ b = hexEscChar then [hexEscChar, b ^^^ hexModChar] else [b]

theorem escape_cons (b : UInt8) (data : List UInt8) : escape (b :: data) =
    if b = hexSyncChar ∨ b = hexEscChar then hexEscChar :: (b ^^^ hexModChar) :: escape data
    else b :: escape data := by
  rw [escape, flatMap_cons]
  split <;> rfl

theorem escape_append (data rest : List UInt8) :
    escape (data ++ rest) = escape data ++ escape rest :=
  flatMap_append

theorem length_escape_le (data : List UInt8) : (escape data).length ≤ 2 * data.length := by
  induction data with
  | nil => exact Nat.le_refl 0
  | cons =>
    rw [escape_cons]
    split <;> simp only [length_cons] <;> omega

theorem sync_not_mem_escape (data : List UInt8) : hexSyncChar ∉ escape data := by
  induction data with
  | nil => exact not_mem_nil
  | cons b data ih =>
    rw [escape_cons]
    split
    · rename_i hspecial
      rcases hspecial with rfl | rfl <;>
        exact not_mem_cons_of_ne_of_not_mem (by decide)
          (not_mem_cons_of_ne_of_not_mem (by decide) ih)
    · rename_i hplain
      exact not_mem_cons_of_ne_of_not_mem (fun heq => hplain (.inl heq.symm)) ih

theorem unescape_cons {b : UInt8} (hb : b ≠ hexEscChar) (rest : List UInt8) :
    unescape (b :: rest) = b :: unescape rest := by
  cases rest <;> simp [unescape, hb]

theorem unescape_escape (data : List UInt8) : unescape (escape data) = data := by
  induction data with
  | nil => rfl
  | cons b data ih =>
    rw [escape_cons]
    split
    · rw [unescape, if_pos rfl, ih, UInt8.xor_assoc, UInt8.xor_self, UInt8.xor_zero]
    · rename_i hplain
      rw [unescape_cons (fun heq => hplain (.inr heq)), ih]

theorem length_unescape_le (body : List UInt8) : (unescape body).length ≤ body.length := by
  fun_induction unescape body <;> simp only [length_cons, length_nil] at * <;> omega

theorem linkBytes_eq_escape (h : cnt + 2 * data.length ≤ bufLen) :
    linkBytes bufLen data cnt = escape data := by
  induction data generalizing cnt with
  | nil => rfl
  | cons b data ih =>
    rw [length_cons] at h
    rw [linkBytes, escape_cons, if_pos (by omega : cnt + 1 < bufLen),
      if_pos (by omega : cnt < bufLen), ih (by omega), ih (by omega)]

theorem length_linkBytes (bufLen : Nat) (data : List UInt8) (cnt : Nat) :
    cnt + (linkBytes bufLen data cnt).length = appendLinkDataByte.loop bufLen data cnt := by
  induction data generalizing cnt with
  | nil => rfl
  | cons b data ih =>
    rw [linkBytes, appendLinkDataByte.loop]
    split
    · split
      · rw [← ih, length_cons, length_cons]
        omega
      · exact ih cnt
    · split
      · rw [← ih, length_cons]
        omega
      · exact ih cnt

theorem range_writeAt (mem : Nat → UInt8) (pos : Nat) (bytes : List UInt8) :
    (range (pos + bytes.length)).map (writeAt mem pos bytes) = (range pos).map mem ++ bytes := by
  refine ext_getElem (by simp) fun i hi _ => ?_
  rw [length_map, length_range] at hi
  rw [getElem_map, getElem_range, writeAt]
  split
  · rename_i hlt
    rw [getElem_append_left (by simpa using hlt), getElem_map, getElem_range]
  · rename_i hge
    have hidx : i - pos < bytes.length := by omega
    rw [getElem_append_right (by simpa using hge)]
    simp [List.getElem?_eq_getElem hidx]

theorem foldl_appendPart (mem : Nat → UInt8) (hbuf : bufLen < 2 ^ 16)
    (hroom : len + 2 * parts.flatten.length ≤ bufLen) :
    let buf := parts.foldl (appendPart bufLen) (mem, len)
    (range buf.2).map buf.1 = (range len).map mem ++ escape parts.flatten := by
  induction parts generalizing mem len with
  | nil => simp [escape]
  | cons data parts ih =>
    rw [flatten_cons, length_append] at hroom
    have hsub := subU16_of_le (by omega : len ≤ bufLen) hbuf
    have hlink : linkBytes (bufLen - len) data 0 = escape data := linkBytes_eq_escape (by omega)
    have hlen : appendLink bufLen len data = len + (escape data).length := by
      have hcount := length_linkBytes (bufLen - len) data 0
      have hle := length_escape_le data
      rw [hlink, Nat.zero_add] at hcount
      rw [appendLink, hsub, appendLinkDataByte, ← hcount, addU16]
      omega
    have hle := length_escape_le data
    have hrest := ih (writeAt mem len (escape data))
      (by omega : len + (escape data).length + 2 * parts.flatten.length ≤ bufLen)
    rw [range_writeAt, append_assoc, ← escape_append] at hrest
    rw [foldl_cons, appendPart, hsub, hlink, hlen]
    exact hrest

theorem packet_eq (hbuf : bufLen < 2 ^ 16) (hroom : 2 * parts.flatten.length + 2 ≤ bufLen) :
    packet bufLen mem parts = hexSyncChar :: escape parts.flatten ++ [hexSyncChar] := by
  have hparts := foldl_appendPart (writeAt mem 0 [hexSyncChar]) hbuf
    (by omega : 1 + 2 * parts.flatten.length ≤ bufLen)
  have hle := length_escape_le parts.flatten
  have hlen := congrArg length hparts
  simp only [length_append, length_map, length_range] at hlen
  have hadd : addU16 (parts.foldl (appendPart bufLen) (writeAt mem 0 [hexSyncChar], 1)).2 1 =
      (parts.foldl (appendPart bufLen) (writeAt mem 0 [hexSyncChar], 1)).2 +
        [hexSyncChar].length := by
    rw [addU16, hlen, length_singleton]
    omega
  rw [packet, hadd, range_writeAt, hparts]
  rfl

theorem linkOut_exact (hbuf : bufLen < 2 ^ 16) (hroom : 2 * parts.flatten.length + 2 ≤ bufLen) :
    Exact (linkOut s mem bufLen parts) parts.flatten := by
  intro tag bytes hout
  obtain ⟨tag, halloc, hpair⟩ := Option.map_eq_some_iff.mp hout
  cases hpair
  obtain ⟨p, hpool, hreq⟩ := allocLogBlk_le halloc
  have hle := length_escape_le parts.flatten
  rw [packet_eq hbuf hroom]
  refine ⟨p, _, hpool, ?_, rfl, sync_not_mem_escape _, unescape_escape _⟩
  rw [length_append, length_cons, length_singleton]
  omega

theorem linkOut_not_exact (hlong : 136 ≤ parts.flatten.length)
    (hout : linkOut s mem bufLen parts ≠ none) :
    ¬ Exact (linkOut s mem bufLen parts) parts.flatten := by
  intro hexact
  obtain ⟨⟨tag, bytes⟩, hsome⟩ := Option.ne_none_iff_exists'.mp hout
  obtain ⟨p, body, -, hlen, rfl, -, hbody⟩ := hexact tag bytes hsome
  have hle := length_unescape_le body
  have hblk : blkLen p ≤ 136 := by cases p <;> decide
  rw [length_append, length_cons] at hlen
  rw [hbody] at hle
  omega

theorem allocFrom_eq_none (logLen : Nat) (ps : List Pool) (freeQueue : Pool → FreeQueue) :
    (allocFrom logLen ps freeQueue).2 = none ↔
      ∀ p ∈ ps, logLen ≤ blkLen p → (freeQueue p).freeBlkNum = 0 := by
  induction ps generalizing freeQueue with
  | nil => simp [allocFrom]
  | cons p ps ih =>
    rw [forall_mem_cons, allocFrom]
    split
    · rename_i hsmall
      rw [ih, and_iff_right fun hle => absurd hsmall (Nat.not_lt.mpr hle)]
    · rename_i hfits
      split
      · rename_i hfree
        refine iff_of_false (Option.some_ne_none _) fun hnone => ?_
        exact absurd (hnone.1 (Nat.not_lt.mp hfits)) (Nat.ne_of_gt hfree)
      · rename_i hempty
        rw [ih, and_iff_right fun _ => Nat.eq_zero_of_not_pos hempty]
        -- the queue only counts the miss
        refine forall₂_congr fun q _ => ?_
        by_cases hq : q = p
        · rw [hq, Function.update_self]
        · rw [Function.update_of_ne hq]

theorem linkOut_eq_none : linkOut s mem bufLen parts = none ↔
    ∀ p, bufLen ≤ blkLen p → (s.freeQueue p).freeBlkNum = 0 := by
  have hall : ∀ p, p ∈ pools := by
    intro p
    cases p <;> decide
  have hfrom := allocFrom_eq_none bufLen pools s.freeQueue
  simp only [hall, true_imp_iff] at hfrom
  rw [linkOut, Option.map_eq_none_iff, ← hfrom, allocLogBlk]
  split
  · rename_i hnone
    simp [hnone]
  · rename_i hsome
    simp [hsome]

theorem trace_room (traceId argNum time : Nat) (args : List Nat) :
    2 * (traceParts traceId argNum time args).flatten.length + 2 ≤
      (LogCall.trace traceId argNum time args).requestLen := by
  have hargs := LogCall.length_flatten_map_bytesOf (args.take (min argNum maxTraceArgs))
  have hmax : min argNum maxTraceArgs ≤ 10 := Nat.min_le_right _ _
  rw [length_take] at hargs
  rw [traceParts, LogCall.requestLen, flatten_cons, flatten_cons, length_append,
    length_append, hargs, length_bytesOf, length_bytesOf]
  omega

theorem length_spyParts (spyId time : Nat) (data : List UInt8) :
    [bytesOf 2 spyId, bytesOf 4 time, data].flatten.length = data.length + 6 := by
  simp [length_bytesOf]
  omega

/-- A trace is always emitted exactly.  Data of a spy are emitted exactly if the 16-bit length
of their block does not wrap, or if no pool with blocks of that length has a free one. -/
theorem out_exact_iff (s : Shell) (mem : Nat → UInt8) (id time argNum : Nat) (args : List Nat)
    (data : List UInt8) :
    Exact (shellTraceOut s mem id argNum time args) (traceParts id argNum time args).flatten ∧
      (Exact (shellSpyOut s mem id time data) [bytesOf 2 id, bytesOf 4 time, data].flatten ↔
        data.length < 32761 ∨ ∀ p, (LogCall.spy id time data).requestLen ≤ blkLen p →
          (s.freeQueue p).freeBlkNum = 0) := by
  have hlen := length_spyParts id time data
  refine ⟨linkOut_exact (Nat.mod_lt _ (by decide)) (trace_room id argNum time args), ?_⟩
  constructor
  · intro hexact
    by_contra hno
    obtain ⟨hlong, hout⟩ := not_or.mp hno
    exact linkOut_not_exact (by omega) (mt linkOut_eq_none.mp hout) hexact
  · rintro (hshort | hnone)
    · apply linkOut_exact (Nat.mod_lt _ (by decide))
      omega
    · rw [shellSpyOut, linkOut_eq_none.mpr hnone]
      rintro tag bytes ⟨⟩

-- Of 32768 bytes seven are emitted: the length of the block wraps to 14.
theorem wrapped_spy_drops_data :
    ¬ ∀ (s : Shell) (mem : Nat → UInt8) (id time : Nat) (data : List UInt8),
      data.length < 2 ^ 16 → Exact (shellSpyOut s mem id time data)
        [bytesOf 2 id, bytesOf 4 time, data].flatten := by
  intro hall
  have hlen : (replicate 32768 (0 : UInt8)).length = 32768 := length_replicate
  generalize replicate 32768 (0 : UInt8) = data at hlen
  refine linkOut_not_exact ?_ ?_ (hall Shell.start (fun _ => 0) 0 0 data (by omega))
  · rw [length_spyParts]
    omega
  · have hreq : (LogCall.spy 0 0 data).requestLen = 14 := by
      rw [LogCall.requestLen, hlen]
      decide
    obtain ⟨q, -, halloc⟩ := allocLogBlk_start (by decide : 14 ≤ blkLen .buf3)
    rw [hreq, linkOut, halloc]
    exact Option.some_ne_none _

end BekenSoc.ShellLinkPackets
