import BekenSoc.ShellLog

namespace BekenSoc.ShellLogLengths

open CRuntime ShellLog List

def modNameLen : Nat := 4

def maxTraceArgs : Nat := 10

def shellRspBufLen : Nat := 200

def hexSyncChar : UInt8 := 0xFE

def hexEscChar : UInt8 := 0xFD

def objectLen : Buffer → Nat
  | .log p _ => blkLen p
  | .rspBuff => shellRspBufLen
  | .faultStr => 28
  | .cmdOvfStr => 23

def strlen (s : List UInt8) : Nat := (s.takeWhile fun b => b ≠ 0).length

def appendLinkDataByte (bufLen : Nat) (data : List UInt8) : Nat :=
  loop data 0
where
  loop : List UInt8 → Nat → Nat
    | [], cnt => cnt
    | b :: rest, cnt =>
      if b = hexSyncChar ∨ b = hexEscChar then
        if cnt + 1 < bufLen then loop rest (cnt + 2) else loop rest cnt
      else if cnt < bufLen then loop rest (cnt + 1)
      else loop rest cnt

def appendLink (bufLen len : Nat) (data : List UInt8) : Nat :=
  addU16 len (appendLinkDataByte (subU16 bufLen len) data)

def linkedLen (bufLen : Nat) (parts : List (List UInt8)) : Nat :=
  addU16 (parts.foldl (appendLink bufLen) 1) 1

def bytesOf (count x : Nat) : List UInt8 := (leBytes count x).map UInt8.ofNat

inductive LogCall
  /-- `shell_log_out_port`, with the result of `vsnprintf`; `addsCr` says that the log ends
  with a line feed and no carriage return before it -/
  | text (modName : Option (List UInt8)) (formatted : Int) (addsCr : Bool)
  /-- `shell_trace_out`, with the time that it reads -/
  | trace (traceId argNum time : Nat) (args : List Nat)
  /-- `shell_spy_out`, with the time that it reads -/
  | spy (spyId time : Nat) (data : List UInt8)
  /-- `shell_log_raw_data` -/
  | raw (data : List UInt8)
  deriving DecidableEq

namespace LogCall

def valid : LogCall → Bool
  | .text .. => true
  | .trace .. => true
  | .spy _ _ data => decide (data.length < 2 ^ 16)
  | .raw data => decide (0 < data.length ∧ data.length < 2 ^ 16)

def requestLen : LogCall → Nat
  | .text none formatted _ => ((formatted + 1) % 65536).toNat
  | .text (some _) formatted _ => addU16 ((formatted + 1) % 65536).toNat (modNameLen + 2)
  | .trace _ argNum _ _ => ((2 + (min argNum maxTraceArgs + 1) * 4) * 2 + 2) % 2 ^ 16
  | .spy _ _ data => ((2 + 4 + data.length) * 2 + 2) % 2 ^ 16
  | .raw data => data.length

def prefixLen : Option (List UInt8) → Nat
  | none => 0
  | some modName => strlen (modName.take modNameLen) + 1

def addCr (addsCr : Bool) (logLen : Nat) : Nat :=
  if logLen ≠ 0 ∧ addsCr = true then addU16 logLen 1 else logLen

def pushLen (c : LogCall) : Nat :=
  match c with
  | .text modName formatted addsCr => addCr addsCr ((prefixLen modName + formatted) % 65536).toNat
  | .trace traceId argNum time args =>
    linkedLen c.requestLen
      (bytesOf 2 traceId :: bytesOf 4 time :: (args.take (min argNum maxTraceArgs)).map (bytesOf 4))
  | .spy spyId time data => linkedLen c.requestLen [bytesOf 2 spyId, bytesOf 4 time, data]
  | .raw data => data.length

end LogCall

def responseLen (rspBuff : List UInt8) : Nat :=
  min (strlen (rspBuff.take (shellRspBufLen - 4))) (shellRspBufLen - 4) + 3

theorem responseLen_le (rspBuff : List UInt8) : responseLen rspBuff ≤ shellRspBufLen := by
  have hle := Nat.min_le_right (strlen (rspBuff.take (shellRspBufLen - 4))) (shellRspBufLen - 4)
  rw [responseLen]
  change _ ≤ 196 at hle
  change _ ≤ 200
  omega

inductive Shape
  | text (named : Bool) (formatted : Int)
  | trace
  | spy (dataLen : Nat)
  | raw
  | response
  | faultHint
  | cmdHint

def LogCall.shape : LogCall → Shape
  | .text modName formatted _ => .text modName.isSome formatted
  | .trace .. => .trace
  | .spy _ _ data => .spy data.length
  | .raw _ => .raw

def Shape.Fits : Shape → Prop
  | .text false formatted => formatted % 65536 ≠ 65535
  | .text true formatted => formatted % 65536 < 65529 ∨ formatted % 65536 = 65535
  | .spy dataLen => dataLen ∉ [32761, 32781, 32793, 32829]
  | .cmdHint => False
  | .trace | .raw | .response | .faultHint => True

section Link

variable {bufLen len cnt : Nat} {data : List UInt8} {parts : List (List UInt8)}

theorem length_leBytes (count x : Nat) : (leBytes count x).length = count := by
  induction count generalizing x with
  | zero => rfl
  | succ count ih => rw [leBytes, length_cons, ih]

theorem length_bytesOf (count x : Nat) : (bytesOf count x).length = count := by
  rw [bytesOf, length_map, length_leBytes]

theorem loop_bounds (bufLen : Nat) (data : List UInt8) (cnt : Nat) (hcnt : cnt ≤ bufLen) :
    appendLinkDataByte.loop bufLen data cnt ≤ bufLen ∧
      appendLinkDataByte.loop bufLen data cnt ≤ cnt + 2 * data.length ∧
      min (cnt + data.length) (bufLen - 1) ≤ appendLinkDataByte.loop bufLen data cnt := by
  induction data generalizing cnt with
  | nil =>
    rw [appendLinkDataByte.loop, length_nil]
    omega
  | cons b rest ih =>
    rw [appendLinkDataByte.loop, length_cons]
    split
    · split
      · have hrest := ih (cnt + 2) (by omega)
        omega
      · have hrest := ih cnt hcnt
        omega
    · split
      · have hrest := ih (cnt + 1) (by omega)
        omega
      · have hrest := ih cnt hcnt
        omega

theorem loop_replicate (bufLen n cnt : Nat) (hcnt : cnt ≤ bufLen) :
    appendLinkDataByte.loop bufLen (replicate n 0) cnt = min (cnt + n) bufLen := by
  induction n generalizing cnt with
  | zero =>
    rw [replicate_zero, appendLinkDataByte.loop]
    omega
  | succ n ih =>
    rw [replicate_succ, appendLinkDataByte.loop, if_neg (by decide)]
    split
    · rw [ih (cnt + 1) (by omega)]
      omega
    · rw [ih cnt hcnt]
      omega

theorem appendLinkDataByte_bounds (bufLen : Nat) (data : List UInt8) :
    appendLinkDataByte bufLen data ≤ bufLen ∧ appendLinkDataByte bufLen data ≤ 2 * data.length ∧
      min data.length (bufLen - 1) ≤ appendLinkDataByte bufLen data := by
  have hbounds := loop_bounds bufLen data 0 (Nat.zero_le bufLen)
  rw [Nat.zero_add, Nat.zero_add] at hbounds
  exact hbounds

theorem appendLinkDataByte_replicate (bufLen n : Nat) :
    appendLinkDataByte bufLen (replicate n 0) = min n bufLen := by
  rw [appendLinkDataByte, loop_replicate bufLen n 0 (Nat.zero_le bufLen), Nat.zero_add]

theorem subU16_of_le (hlen : len ≤ bufLen) (hbuf : bufLen < 2 ^ 16) :
    subU16 bufLen len = bufLen - len := by
  rw [subU16]
  omega

theorem appendLink_bounds (hlen : len ≤ bufLen) (hbuf : bufLen < 2 ^ 16) (data : List UInt8) :
    appendLink bufLen len data ≤ bufLen ∧ appendLink bufLen len data ≤ len + 2 * data.length := by
  have hbounds := appendLinkDataByte_bounds (bufLen - len) data
  rw [appendLink, subU16_of_le hlen hbuf, addU16]
  omega

theorem foldl_appendLink_bounds (parts : List (List UInt8)) (hlen : len ≤ bufLen)
    (hbuf : bufLen < 2 ^ 16) : parts.foldl (appendLink bufLen) len ≤ bufLen ∧
      parts.foldl (appendLink bufLen) len ≤ len + 2 * parts.flatten.length := by
  induction parts generalizing len with
  | nil => exact ⟨hlen, Nat.le_add_right _ _⟩
  | cons data parts ih =>
    have hfirst := appendLink_bounds hlen hbuf data
    have hrest := ih hfirst.1
    rw [foldl_cons, flatten_cons, length_append]
    omega

theorem linkedLen_bounds (parts : List (List UInt8)) (hpos : 0 < bufLen) (hbuf : bufLen < 2 ^ 16) :
    linkedLen bufLen parts ≤ bufLen + 1 ∧
      linkedLen bufLen parts ≤ 2 * parts.flatten.length + 2 := by
  have hone : 1 ≤ bufLen := hpos
  have hbounds := foldl_appendLink_bounds parts hone hbuf
  have hmod := Nat.mod_le (parts.foldl (appendLink bufLen) 1 + 1) (2 ^ 16)
  rw [linkedLen, addU16]
  omega

theorem subU16_zero (hpos : 0 < len) (hlen : len < 2 ^ 16) : subU16 0 len = 2 ^ 16 - len := by
  rw [subU16]
  omega

theorem appendLink_zero_bounds (data : List UInt8) (hpos : 0 < len)
    (hlen : len + 2 * data.length < 2 ^ 16) : len + data.length ≤ appendLink 0 len data ∧
      appendLink 0 len data ≤ len + 2 * data.length := by
  have hbounds := appendLinkDataByte_bounds (2 ^ 16 - len) data
  rw [appendLink, subU16_zero hpos (by omega), addU16]
  omega

theorem appendLink_zero_full (data : List UInt8) (hpos : 0 < len) (hlen : len < 2 ^ 16)
    (hfull : 2 ^ 16 ≤ len + data.length + 1) :
    appendLink 0 len data = 65535 ∨ appendLink 0 len data = 0 := by
  have hbounds := appendLinkDataByte_bounds (2 ^ 16 - len) data
  rw [appendLink, subU16_zero hpos hlen, addU16]
  omega

theorem linkedLen_zero_le (spyId time : Nat) (hdata : data.length = 65529) :
    linkedLen 0 [bytesOf 2 spyId, bytesOf 4 time, data] ≤ 1 := by
  have hidLen := length_bytesOf 2 spyId
  have htimeLen := length_bytesOf 4 time
  have hid := appendLink_zero_bounds (bytesOf 2 spyId) Nat.one_pos (by omega)
  rw [linkedLen, foldl_cons, foldl_cons, foldl_cons, foldl_nil, addU16]
  generalize appendLink 0 1 (bytesOf 2 spyId) = afterId at hid ⊢
  have hidPos : 0 < afterId := by omega
  have htime := appendLink_zero_bounds (bytesOf 4 time) hidPos (by omega)
  generalize appendLink 0 afterId (bytesOf 4 time) = afterTime at htime ⊢
  have htimePos : 0 < afterTime := by omega
  have hfull := appendLink_zero_full data htimePos (by omega) (by omega)
  omega

end Link

namespace LogCall

theorem strlen_take_le (s : List UInt8) (n : Nat) : strlen (s.take n) ≤ n := by
  have hle := (takeWhile_sublist (l := s.take n) fun b => decide (b ≠ 0)).length_le
  rw [length_take] at hle
  rw [strlen]
  omega

theorem addCr_cases (addsCr : Bool) (logLen : Nat) :
    addCr addsCr logLen = logLen ∨ addCr addsCr logLen = (logLen + 1) % 2 ^ 16 := by
  rw [addCr]
  split
  · exact .inr rfl
  · exact .inl rfl

theorem text_fits {modName : Option (List UInt8)} {formatted : Int} {addsCr : Bool} {p : Pool}
    (hfits : (Shape.text modName.isSome formatted).Fits)
    (hreq : (text modName formatted addsCr).requestLen ≤ blkLen p) :
    (text modName formatted addsCr).pushLen ≤ blkLen p := by
  rw [pushLen]
  have hcases := addCr_cases addsCr ((prefixLen modName + formatted) % 65536).toNat
  cases modName with
  | none =>
    change formatted % 65536 ≠ 65535 at hfits
    simp only [requestLen, prefixLen] at hreq hcases ⊢
    omega
  | some modName =>
    have hname := strlen_take_le modName modNameLen
    change formatted % 65536 < 65529 ∨ formatted % 65536 = 65535 at hfits
    simp only [requestLen, prefixLen, addU16, modNameLen] at hname hreq hcases ⊢
    omega

theorem length_flatten_map_bytesOf (args : List Nat) :
    (args.map (bytesOf 4)).flatten.length = args.length * 4 := by
  induction args with
  | nil => rfl
  | cons x args ih =>
    rw [map_cons, flatten_cons, length_append, ih, length_bytesOf, length_cons]
    omega

theorem trace_fits {traceId argNum time : Nat} {args : List Nat} {p : Pool}
    (hreq : (trace traceId argNum time args).requestLen ≤ blkLen p) :
    (trace traceId argNum time args).pushLen ≤ blkLen p := by
  have hargs := length_flatten_map_bytesOf (args.take (min argNum maxTraceArgs))
  have hbuf : (trace traceId argNum time args).requestLen =
      (2 + (min argNum maxTraceArgs + 1) * 4) * 2 + 2 := by
    apply Nat.mod_eq_of_lt
    rw [maxTraceArgs]
    omega
  have hmax : min argNum maxTraceArgs ≤ 10 := Nat.min_le_right argNum maxTraceArgs
  have hpos : 0 < (trace traceId argNum time args).requestLen := by omega
  have hbounds := linkedLen_bounds (bytesOf 2 traceId :: bytesOf 4 time ::
      (args.take (min argNum maxTraceArgs)).map (bytesOf 4)) hpos (by omega)
  rw [flatten_cons, flatten_cons, length_append, length_append,
    length_bytesOf, length_bytesOf, hargs, length_take] at hbounds
  change linkedLen _ _ ≤ _
  omega

theorem spy_fits {spyId time : Nat} {data : List UInt8} {p : Pool}
    (hlt : data.length < 2 ^ 16) (hfits : (Shape.spy data.length).Fits)
    (hreq : (spy spyId time data).requestLen ≤ blkLen p) :
    (spy spyId time data).pushLen ≤ blkLen p := by
  have hbuf : (spy spyId time data).requestLen = (data.length * 2 + 14) % 2 ^ 16 := by
    rw [requestLen]
    congr 1
    omega
  change data.length ∉ [32761, 32781, 32793, 32829] at hfits
  simp only [mem_cons, not_mem_nil, or_false, not_or] at hfits
  change linkedLen (spy spyId time data).requestLen [bytesOf 2 spyId, bytesOf 4 time, data] ≤ _
  rcases Nat.eq_zero_or_pos (spy spyId time data).requestLen with hzero | hpos
  · -- the request is 0 for two lengths, and one of them does not fit
    have hlen : data.length = 65529 := by omega
    have hle := linkedLen_zero_le spyId time hlen
    have hblk : 1 ≤ blkLen p := by cases p <;> decide
    rw [hzero]
    omega
  · have hbounds := linkedLen_bounds [bytesOf 2 spyId, bytesOf 4 time, data] hpos (by omega)
    have hparts : [bytesOf 2 spyId, bytesOf 4 time, data].flatten.length = data.length + 6 := by
      simp [length_bytesOf]
      omega
    rw [hparts] at hbounds
    rcases Nat.lt_or_ge (data.length * 2 + 14) (2 ^ 16) with hsmall | hlarge
    · omega
    · cases p <;> simp only [blkLen] at hreq ⊢ <;> omega

theorem pushLen_le {c : LogCall} {p : Pool} (hvalid : c.valid = true) (hfits : c.shape.Fits)
    (hreq : c.requestLen ≤ blkLen p) : c.pushLen ≤ blkLen p := by
  cases c with
  | text => exact text_fits hfits hreq
  | trace => exact trace_fits hreq
  | spy => exact spy_fits (of_decide_eq_true hvalid) hfits hreq
  | raw => exact hreq

theorem pushLen_spy_replicate (n : Nat) : (spy 0 0 (replicate n 0)).pushLen =
      linkedLen (((2 + 4 + n) * 2 + 2) % 2 ^ 16) [replicate 2 0, replicate 4 0, replicate n 0] := by
  change linkedLen (((2 + 4 + (replicate n 0).length) * 2 + 2) % 2 ^ 16) _ = _
  rw [length_replicate]
  rfl

theorem appendLink_replicate (bufLen len n : Nat) :
    appendLink bufLen len (replicate n 0) = addU16 len (min n (subU16 bufLen len)) := by
  rw [appendLink, appendLinkDataByte_replicate]

theorem exists_unfit_spy {n : Nat} (hn : n ∈ [32761, 32781, 32793, 32829]) :
    ∃ c : LogCall, c.valid = true ∧ c.shape = .spy n ∧
      ∃ p, c.requestLen ≤ blkLen p ∧ blkLen p < c.pushLen := by
  refine ⟨.spy 0 0 (replicate n 0), ?_, ?_, ?_⟩
  · rw [valid, length_replicate]
    simp only [mem_cons, not_mem_nil, or_false] at hn
    rcases hn with rfl | rfl | rfl | rfl <;> decide
  · rw [shape, length_replicate]
  · rw [pushLen_spy_replicate, linkedLen, foldl_cons, foldl_cons, foldl_cons,
      foldl_nil, appendLink_replicate, appendLink_replicate, appendLink_replicate,
      requestLen, length_replicate]
    simp only [mem_cons, not_mem_nil, or_false] at hn
    rcases hn with rfl | rfl | rfl | rfl
    · exact ⟨.buf3, by decide, by decide⟩
    · exact ⟨.buf3, by decide, by decide⟩
    · exact ⟨.buf2, by decide, by decide⟩
    · exact ⟨.buf1, by decide, by decide⟩

theorem exists_unfit_text {named : Bool} {formatted : Int}
    (h : ¬(Shape.text named formatted).Fits) :
    ∃ c : LogCall, c.valid = true ∧ c.shape = .text named formatted ∧
      ∃ p, c.requestLen ≤ blkLen p ∧ blkLen p < c.pushLen := by
  cases named with
  | false =>
    change ¬formatted % 65536 ≠ 65535 at h
    refine ⟨.text none formatted false, rfl, rfl, .buf3, ?_⟩
    simp only [requestLen, pushLen, prefixLen, addCr, blkLen, Bool.false_eq_true, and_false,
      if_false]
    omega
  | true =>
    change ¬(formatted % 65536 < 65529 ∨ formatted % 65536 = 65535) at h
    have hlen : strlen ([].take modNameLen) = 0 := rfl
    refine ⟨.text (some []) formatted false, rfl, rfl, .buf3, ?_⟩
    simp only [requestLen, pushLen, prefixLen, addCr, addU16, blkLen, modNameLen,
      Bool.false_eq_true, and_false, if_false] at hlen ⊢
    rw [hlen]
    omega

end LogCall

end BekenSoc.ShellLogLengths
