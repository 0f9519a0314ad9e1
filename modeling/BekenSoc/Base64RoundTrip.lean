import Mathlib.Tactic.IntervalCases
import BekenSoc.BufEnv

namespace BekenSoc.Base64

open List BufEnv

def sextets (a b c : UInt8) : List UInt8 :=
  [a >>> 2, ((a &&& 0x03) <<< 4) ||| (b >>> 4), ((b &&& 0x0f) <<< 2) ||| (c >>> 6), c &&& 0x3f]

def block (a b c : UInt8) : List UInt8 := (sextets a b c).map tableAt

/-- The encoding without its line feeds. -/
def encodeBlocks : List UInt8 → List UInt8
  | a :: b :: c :: rest => block a b c ++ encodeBlocks rest
  | [a, b] => (block a b 0).take 3 ++ [equalsSign]
  | [a] => (block a 0 0).take 2 ++ [equalsSign, equalsSign]
  | [] => []

section Block

variable {a b c x : UInt8}

theorem eq_of_getLsbD {x y : UInt8} (h : ∀ i < 8, x.toBitVec.getLsbD i = y.toBitVec.getLsbD i) :
    x = y :=
  UInt8.eq_of_toBitVec_eq (BitVec.eq_of_getLsbD_eq h)

theorem first_byte (a b : UInt8) :
    ((a >>> 2) <<< 2) ||| ((((a &&& 0x03) <<< 4) ||| (b >>> 4)) >>> 4) = a := by
  refine eq_of_getLsbD fun i hi => ?_
  interval_cases i <;> simp

theorem second_byte (a b c : UInt8) : ((((a &&& 0x03) <<< 4) ||| (b >>> 4)) <<< 4) |||
    ((((b &&& 0x0f) <<< 2) ||| (c >>> 6)) >>> 2) = b := by
  refine eq_of_getLsbD fun i hi => ?_
  interval_cases i <;> simp

theorem third_byte (b c : UInt8) :
    ((((b &&& 0x0f) <<< 2) ||| (c >>> 6)) <<< 6) ||| (c &&& 0x3f) = c := by
  refine eq_of_getLsbD fun i hi => ?_
  interval_cases i <;> simp

theorem and_of_mem_sextets (h : x ∈ sextets a b c) : x &&& 0x3f = x := by
  simp only [sextets, mem_cons, not_mem_nil, or_false] at h
  refine eq_of_getLsbD fun i hi => ?_
  rcases h with rfl | rfl | rfl | rfl <;> interval_cases i <;> simp

theorem tableAt_of_lt : ∀ n < 64, dtable (tableAt (UInt8.ofNat n)) = UInt8.ofNat n ∧
    dtable (tableAt (UInt8.ofNat n)) ≠ 0x80 ∧ tableAt (UInt8.ofNat n) ≠ equalsSign := by
  decide +kernel

theorem tableAt_of_mem (h : x ∈ sextets a b c) : dtable (tableAt x) = x ∧
    dtable (tableAt x) ≠ 0x80 ∧ tableAt x ≠ equalsSign := by
  have hlt : x.toNat < 64 := by
    rw [← and_of_mem_sextets h, UInt8.toNat_and]
    exact Nat.lt_succ_of_le Nat.and_le_right
  have hx := tableAt_of_lt x.toNat hlt
  rw [UInt8.ofNat_toNat] at hx
  exact hx

theorem coded_block_append {t : List UInt8} (h : t ⊆ block a b c) (l : List UInt8) :
    coded (t ++ l) = t ++ coded l := by
  rw [coded, filter_append]
  refine congrArg (· ++ _) (filter_eq_self.mpr fun y hy => ?_)
  obtain ⟨x, hx, rfl⟩ := mem_map.mp (h hy)
  simpa using (tableAt_of_mem hx).2.1

theorem dtable_sextets (a b c : UInt8) : dtable (tableAt (a >>> 2)) = a >>> 2 ∧
    dtable (tableAt (((a &&& 0x03) <<< 4) ||| (b >>> 4))) = ((a &&& 0x03) <<< 4) ||| (b >>> 4) ∧
    dtable (tableAt (((b &&& 0x0f) <<< 2) ||| (c >>> 6))) = ((b &&& 0x0f) <<< 2) ||| (c >>> 6) ∧
    dtable (tableAt (c &&& 0x3f)) = c &&& 0x3f := by
  have hd : ∀ x ∈ sextets a b c, dtable (tableAt x) = x := fun _ hx => (tableAt_of_mem hx).1
  simpa only [sextets, mem_cons, not_mem_nil, or_false, forall_eq_or_imp, forall_eq] using hd

theorem decodeBlocks_block_append (a b c : UInt8) (l : List UInt8) :
    decodeBlocks (block a b c ++ l) = a :: b :: c :: decodeBlocks l := by
  have hd := dtable_sextets a b c
  simp only [block, sextets, map_cons, map_nil, cons_append, nil_append, decodeBlocks, hd,
    first_byte, second_byte, third_byte]

theorem fillBytes_block (a b c : UInt8) : fillBytes (block a b c) = 0 := by
  have hne : ∀ x ∈ sextets a b c, tableAt x ≠ equalsSign :=
    fun _ hx => (tableAt_of_mem hx).2.2
  simp only [sextets, mem_cons, not_mem_nil, or_false, forall_eq_or_imp, forall_eq] at hne
  simp [fillBytes, block, sextets, hne]

theorem fillBytes_block_append {l : List UInt8} (h : 4 ≤ l.length) :
    fillBytes (block a b c ++ l) = fillBytes l := by
  have hget : ∀ k, (block a b c ++ l).getD (k + 4) 0 = l.getD k 0 := fun _ => rfl
  have hlen : (block a b c ++ l).length = l.length + 4 := rfl
  rw [fillBytes, fillBytes, hlen, show l.length + 4 - 2 = l.length - 2 + 4 by omega,
    show l.length + 4 - 1 = l.length - 1 + 4 by omega, hget, hget,
    if_neg (show ¬ l.length + 4 < 4 by omega), if_neg (Nat.not_lt.mpr h)]

end Block

theorem coded_encode (buf : List UInt8) (lineLen : Nat) :
    coded (base64Encode buf lineLen) = encodeBlocks buf := by
  induction buf, lineLen using base64Encode.induct with
  | case1 a b c rest lineLen ih ih' =>
    have hencode : base64Encode (a :: b :: c :: rest) lineLen = block a b c ++
        if 72 ≤ lineLen + 4 then lineFeed :: base64Encode rest 0
          else base64Encode rest (lineLen + 4) := rfl
    rw [hencode, coded_block_append (Subset.refl _), encodeBlocks]
    split
    · exact congrArg _ ih
    · exact congrArg _ ih'
  | case2 a b lineLen =>
    have hencode : base64Encode [a, b] lineLen =
        (block a b 0).take 3 ++ [equalsSign, lineFeed] := by
      simp [base64Encode, block, sextets]
    rw [hencode, coded_block_append (take_subset 3 _)]
    rfl
  | case3 a lineLen =>
    have hencode : base64Encode [a] lineLen =
        (block a 0 0).take 2 ++ [equalsSign, equalsSign, lineFeed] := by
      simp [base64Encode, block, sextets]
    rw [hencode, coded_block_append (take_subset 2 _)]
    rfl
  | case4 lineLen h =>
    rw [base64Encode, if_pos h]
    rfl
  | case5 lineLen h =>
    rw [base64Encode, if_neg h]
    rfl

theorem length_encodeBlocks (buf : List UInt8) :
    (encodeBlocks buf).length = (buf.length + 2) / 3 * 4 := by
  induction buf using encodeBlocks.induct with
  | case1 a b c rest ih =>
    rw [encodeBlocks, length_append, ih, length_cons, length_cons, length_cons]
    simp only [block, sextets, map_cons, map_nil, length_cons, length_nil]
    omega
  | case2 | case3 | case4 => simp [encodeBlocks, block, sextets]

theorem decodeBlocks_encodeBlocks (buf : List UInt8) :
    buf <+: decodeBlocks (encodeBlocks buf) ∧ (decodeBlocks (encodeBlocks buf)).length =
      buf.length + fillBytes (encodeBlocks buf) := by
  induction buf using encodeBlocks.induct with
  | case1 a b c rest ih =>
    have hfill : fillBytes (block a b c ++ encodeBlocks rest) = fillBytes (encodeBlocks rest) := by
      cases rest with
      | nil => exact (congrArg _ (append_nil _)).trans (fillBytes_block a b c)
      | cons x rest =>
        refine fillBytes_block_append ?_
        rw [length_encodeBlocks, length_cons]
        omega
    rw [encodeBlocks, decodeBlocks_block_append, hfill]
    refine ⟨(prefix_append_right_inj [a, b, c]).mpr ih.1, ?_⟩
    simp only [length_cons, ih.2]
    omega
  | case2 a b =>
    have hd := dtable_sextets a b 0
    have hmem : ((b &&& 0x0f) <<< 2) ||| ((0 : UInt8) >>> 6) ∈ sextets a b 0 := by simp [sextets]
    have hthird : tableAt ((b &&& 0x0f) <<< 2) ≠ equalsSign := by
      simpa using (tableAt_of_mem hmem).2.2
    simp only [encodeBlocks, block, sextets, map_cons, map_nil, take_succ_cons, take_zero,
      cons_append, nil_append, decodeBlocks, hd, first_byte, second_byte]
    exact ⟨prefix_append [a, b] _, by simp [fillBytes, hthird]⟩
  | case3 a =>
    have hd := dtable_sextets a 0 0
    simp only [encodeBlocks, block, sextets, map_cons, map_nil, take_succ_cons, take_zero,
      cons_append, nil_append, decodeBlocks, hd, first_byte]
    exact ⟨prefix_append [a] _, rfl⟩
  | case4 => exact ⟨prefix_rfl, rfl⟩

theorem length_base64Encode (buf : List UInt8) {lineLen : Nat} (hmod : lineLen % 4 = 0)
    (hlt : lineLen < 72) : (base64Encode buf lineLen).length =
      (buf.length + 2) / 3 * 4 + (lineLen + (buf.length + 2) / 3 * 4 + 71) / 72 := by
  induction buf, lineLen using base64Encode.induct with
  | case1 a b c rest lineLen ih ih' =>
    simp only [base64Encode, length_cons]
    split
    · rw [length_cons, ih rfl (by decide)]
      omega
    · rw [ih' (by omega) (by omega)]
      omega
  | case2 a b lineLen | case3 a lineLen =>
    simp only [base64Encode, length_cons, length_nil]
    omega
  | case4 lineLen h =>
    rw [base64Encode, if_pos h]
    simp only [length_cons, length_nil]
    omega
  | case5 lineLen h =>
    rw [base64Encode, if_neg h]
    simp only [length_nil]
    omega

theorem decode_encode (buf : List UInt8) : decode (base64Encode buf 0) = some buf := by
  obtain ⟨hstart, hlen⟩ := decodeBlocks_encodeBlocks buf
  rw [decode, coded_encode, length_encodeBlocks, if_neg (by omega)]
  simp only [hlen, Nat.add_sub_cancel, ← prefix_iff_eq_take.mp hstart]

/-- The encoding fits and is decoded, and a buffer is read back with its length. -/
theorem buffer_round_trip {buf : List UInt8} (hne : buf ≠ []) (hlen : buf.length < 2 ^ 29)
    (key : String) (s : EnvState) :
    (base64Encode buf 0).length + 1 ≤ base64CalcEncodeLength buf.length ∧
      decode (base64Encode buf 0) = some buf ∧
      ∃ s', bkGetBufEnv (fun _ => true) key buf.length
        (bkSetBufEnv (fun _ => true) (some key) (some buf) .efNoErr s).1 =
          some (s', .efNoErr, buf) := by
  have hpos : 0 < buf.length := length_pos_iff.mpr hne
  have hlength := @length_base64Encode buf 0 rfl (by decide)
  refine ⟨?_, decode_encode buf, ?_⟩
  · have hquad : buf.length * 4 % 2 ^ 32 = buf.length * 4 := Nat.mod_eq_of_lt (by omega)
    have henc : (buf.length * 4 / 3 + 4) % 2 ^ 32 = buf.length * 4 / 3 + 4 :=
      Nat.mod_eq_of_lt (by omega)
    simp only [base64CalcEncodeLength, hquad, henc]
    rw [Nat.mod_eq_of_lt (by omega)]
    omega
  · have hstored : (base64Encode buf 0).length ≠ 0 := by omega
    simp [bkSetBufEnv, bkGetBufEnv, osZalloc, base64Decode, base64CalcDecodeLength, hne, hstored,
      decode_encode]

theorem buffer_round_trip_two : ∃ s', bkGetBufEnv (fun _ => true) "a" 2
      (bkSetBufEnv (fun _ => true) (some "a") (some [1, 2]) .efNoErr ⟨fun _ => none, .init⟩).1 =
        some (s', .efNoErr, [1, 2]) :=
  (@buffer_round_trip [1, 2] (by decide) (by decide) "a" ⟨fun _ => none, .init⟩).2.2

theorem length_decodeBlocks : ∀ text, (decodeBlocks text).length = text.length / 4 * 3
  | _ :: _ :: _ :: _ :: rest => by
    have hrest := length_decodeBlocks rest
    simp only [decodeBlocks, length_cons]
    omega
  | [] | [_] | [_, _] | [_, _, _] => by simp [decodeBlocks]

/-- The bytes that `base64_decode` writes to `out`, with those that it takes back. -/
def written (src : List UInt8) : Nat :=
  if (coded src).length % 4 ≠ 0 then 0 else (decodeBlocks (coded src)).length

theorem coded_of_get {granted : Nat → Bool} {key : String} {len : Int} {s s' : EnvState}
    {efValue out : List UInt8} (hvalue : s.values key = some efValue)
    (hget : bkGetBufEnv granted key len s = some (s', .efNoErr, out)) :
    (coded efValue).length % 4 = 0 := by
  by_contra hbad
  have hdecode : ∀ h, (base64Decode granted efValue h).1 = none := by
    intro h
    rw [base64Decode]
    split
    · rfl
    · exact if_pos hbad
  simp only [bkGetBufEnv, hvalue] at hget
  split at hget
  · cases hget
  · split at hget
    · cases hget
    · split at hget
      · cases hget
      · rename_i hsome
        cases (hdecode _).symm.trans (congrArg Prod.fst hsome)

end BekenSoc.Base64
