import BekenSoc.HalFileBounds

/-!
What is read back: the bytes of a stored file, and of an open one.

The test of `HalFileRead` adds the length to the position, and the sum may wrap.
-/

namespace BekenSoc.HalFileReads

open CRuntime GuardedRuns HalFile HalFileBounds List

theorem length_encodeByte_le (b : UInt8) : (encodeByte b).length ≤ 2 := by
  rw [encodeByte]
  split
  · exact Nat.le_refl 2
  · split
    · exact Nat.le_refl 2
    · exact Nat.le_succ 1

theorem length_fileEncode_le (bytes : List UInt8) :
    (fileEncode bytes).length ≤ 2 * bytes.length := by
  induction bytes with
  | nil => exact Nat.le_refl 0
  | cons b bytes ih =>
    have hb := length_encodeByte_le b
    rw [fileEncode, flatMap_cons, length_append, length_cons]
    rw [fileEncode] at ih
    omega

theorem fileLoad_fileSave (s : Hal) (key : Path) (value buffer : List UInt8) (len : Nat) :
    fileLoad (fileSave s key value len .stored) key buffer =
      ((value.take len).length, memcpy buffer (value.take len) (value.take len).length) := by
  have hstore : (fileSave s key value len .stored).store key =
      some (magicChar :: fileEncode (value.take len)) := by
    rw [fileSave, ← saved_eq]
    exact Function.update_self ..
  rw [fileLoad, hstore]
  simp only [if_pos, fileDecode_fileEncode]

/-- The coding of a file has no terminator, at most doubles the length and is undone by the
decoder, so that a file that was saved is loaded as it was. -/
theorem coding_round_trip (bytes : List UInt8) :
    (∀ b ∈ fileEncode bytes, b ≠ 0) ∧ (fileEncode bytes).length ≤ 2 * bytes.length ∧
      fileDecode (fileEncode bytes) = (bytes.length, bytes) ∧
      ∀ (s : Hal) (key : Path) (buffer : List UInt8),
        fileLoad (fileSave s key bytes bytes.length .stored) key buffer =
          (bytes.length, bytes ++ buffer.drop bytes.length) := by
  refine ⟨fileEncode_ne_zero bytes, length_fileEncode_le bytes, fileDecode_fileEncode bytes, ?_⟩
  intro s key buffer
  rw [fileLoad_fileSave, take_length, memcpy, take_length]

/-- A read returns as many bytes as there are, up to `len`, copies them from the position on,
and advances it; the copy stays in the content. -/
structure ReadsExactly (s : Hal) (fd : Int) (i : Fin maxFileCnt) (len : Nat) : Prop where
  value : (halFileRead s fd true len).2.1 = (min len ((s.infos i).len - (s.infos i).offset) : Nat)
  copied : (halFileRead s fd true len).2.2 =
    (((s.infos i).content.take (s.infos i).len).drop (s.infos i).offset).take len
  offset : ((halFileRead s fd true len).1.infos i).offset =
    (s.infos i).offset + min len ((s.infos i).len - (s.infos i).offset)
  inside : (s.infos i).offset + readLen (s.infos i) len ≤ (s.infos i).len

variable {s : Hal} {fd : Int} {i : Fin maxFileCnt} {len : Nat}

theorem readLen_eq {info : FileInfo} (hle : info.offset ≤ info.len) (hlen : info.len < 2 ^ 32)
    (hsum : info.offset + len < 2 ^ 32) : readLen info len = min len (info.len - info.offset) := by
  rw [readLen, addU32_of_lt hsum, subU32_of_le hle hlen]
  split <;> omega

theorem readLen_wrapped {info : FileInfo} (hle : info.offset ≤ info.len)
    (hlen : info.len < 2 ^ 32) (hlt : len < 2 ^ 32) (hsum : 2 ^ 32 ≤ info.offset + len) :
    readLen info len = len ∧ info.len < info.offset + len := by
  have hwrap : addU32 info.offset len = info.offset + len - 2 ^ 32 := by
    rw [addU32, Nat.mod_eq_sub_mod hsum, Nat.mod_eq_of_lt (by omega)]
  rw [readLen, hwrap]
  exact ⟨if_neg (by omega), by omega⟩

theorem toInt32_eq_iff {n : Nat} (h : n < 2 ^ 32) : toInt32 n = (n : Int) ↔ n < 2 ^ 31 := by
  rw [toInt32, Int.bmod_def]
  omega

theorem readsExactly_of_fits (hi : fileGetInfo s fd = some i)
    (hle : (s.infos i).offset ≤ (s.infos i).len) (hlen : (s.infos i).len < 2 ^ 32)
    (hsum : (s.infos i).offset + len < 2 ^ 32)
    (hsmall : min len ((s.infos i).len - (s.infos i).offset) < 2 ^ 31) :
    ReadsExactly s fd i len := by
  have hread := readLen_eq hle hlen hsum
  have hbytes : (((s.infos i).content.take (s.infos i).len).drop (s.infos i).offset).take len =
      ((s.infos i).content.drop (s.infos i).offset).take (readLen (s.infos i) len) := by
    rw [hread, drop_take, take_take]
  by_cases hzero : readLen (s.infos i) len = 0
  · have hrun : halFileRead s fd true len = (s, 0, []) := by
      simp only [halFileRead, hi, if_pos, hzero]
    rw [hzero] at hread hbytes
    constructor
    · rw [hrun, ← hread]
      rfl
    · rw [hrun, hbytes]
      rfl
    · rw [hrun, ← hread]
      rfl
    · rw [hzero]
      exact hle
  · have hrun : halFileRead s fd true len = (s.setInfo i
            { s.infos i with offset := addU32 (s.infos i).offset (readLen (s.infos i) len) },
          toInt32 (readLen (s.infos i) len),
          ((s.infos i).content.drop (s.infos i).offset).take (readLen (s.infos i) len)) := by
      simp only [halFileRead, hi, if_pos, if_neg hzero]
    constructor
    · rw [← hread] at hsmall
      have hvalue := (toInt32_eq_iff (Nat.lt_trans hsmall (by omega))).mpr hsmall
      rw [hrun, ← hread, hvalue]
    · rw [hrun, hbytes]
    · rw [hrun, hread, addU32_of_lt (by omega), Hal.setInfo]
      simp only [Function.update_self]
    · omega

/-- A read of an open file is exact, exactly if the position and the length have a sum of 32
bits and the result is not negative as an `int`. -/
theorem readsExactly_iff (hi : fileGetInfo s fd = some i)
    (hle : (s.infos i).offset ≤ (s.infos i).len) (hlen : (s.infos i).len < 2 ^ 32)
    (hlt : len < 2 ^ 32) : ReadsExactly s fd i len ↔ (s.infos i).offset + len < 2 ^ 32 ∧
      min len ((s.infos i).len - (s.infos i).offset) < 2 ^ 31 := by
  refine ⟨fun h => ?_, fun h => readsExactly_of_fits hi hle hlen h.1 h.2⟩
  have hsum : (s.infos i).offset + len < 2 ^ 32 := by
    by_contra hwrap
    have hcopy := readLen_wrapped hle hlen hlt (Nat.not_lt.mp hwrap)
    have hinside := h.inside
    omega
  refine ⟨hsum, ?_⟩
  by_contra hbig
  have hread := readLen_eq hle hlen hsum
  have hvalue := h.value
  have hpos : readLen (s.infos i) len ≠ 0 := by omega
  rw [← hread] at hvalue hbig
  simp only [halFileRead, hi, if_pos, if_neg hpos] at hvalue
  have hword : readLen (s.infos i) len < 2 ^ 32 := by omega
  exact hbig ((toInt32_eq_iff hword).mp hvalue)

def openThree : List HalFile.Event :=
  [.openFile "a".toList ⟨true, false, false, false⟩ true true, .write 1 (some [7, 8, 9]) 3,
   .seek 1 1 .set]

theorem readsExactly_iff_three :
    ∃ s, Reached step anyStep (Hal.init fun _ => none) s ∧ (s.infos 0).len = 3 ∧
      ReadsExactly s 1 0 5 := by
  obtain ⟨s, hs, hi, hoffset, hlen⟩ := exists_reached step anyStep (Hal.init fun _ => none)
    (fun s => fileGetInfo s 1 = some 0 ∧ (s.infos 0).offset = 1 ∧ (s.infos 0).len = 3)
    openThree (by decide)
  refine ⟨s, hs, hlen, (readsExactly_iff hi ?_ ?_ ?_).mpr ?_⟩ <;> omega

-- The sum of position and length is 0, and the copy runs through the whole address space.
theorem read_length_wraps :
    ∃ s, Reached step anyStep (Hal.init fun _ => none) s ∧ fileGetInfo s 1 = some 0 ∧
      (s.infos 0).offset = 1 ∧ (s.infos 0).len = 3 ∧
      (halFileRead s 1 true (2 ^ 32 - 1)).2.1 = -1 ∧ ¬ ReadsExactly s 1 0 (2 ^ 32 - 1) := by
  obtain ⟨s, hs, hi, hoffset, hlen, hvalue⟩ := exists_reached step anyStep (Hal.init fun _ => none)
    (fun s => fileGetInfo s 1 = some 0 ∧ (s.infos 0).offset = 1 ∧ (s.infos 0).len = 3 ∧
      (halFileRead s 1 true (2 ^ 32 - 1)).2.1 = -1)
    openThree (by decide)
  refine ⟨s, hs, hi, hoffset, hlen, hvalue, fun h => ?_⟩
  have hexact := h.value
  omega

end BekenSoc.HalFileReads
