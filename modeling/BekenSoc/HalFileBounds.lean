import BekenSoc.GuardedRuns
import BekenSoc.HalFile
import Mathlib.Data.List.TakeWhile

namespace BekenSoc.HalFileBounds

open Function CRuntime GuardedRuns HalFile List

variable {fd : Int} {info : FileInfo} {store : Store} {len : Nat}

def DescriptorsFit (s : Hal) : Prop :=
  ∀ i, (s.infos i).fd ≠ invalidFd →
    (s.infos i).offset ≤ (s.infos i).len ∧ (s.infos i).len ≤ (s.infos i).cap

/-- A write on a short file, while the file opened last is a long one, ends within the
short buffer. -/
def WriteFits (s : Hal) : HalFile.Event → Prop
  | .write fd (some _) len => ∀ i, fileGetInfo s fd = some i → s.longFileFg = true →
      isLongFile (s.infos i).fileName = true ∨ (s.infos i).offset + len ≤ maxFileLength
  | _ => True

instance (s : Hal) : (e : HalFile.Event) → Decidable (WriteFits s e)
  | .write _ (some _) _ => inferInstanceAs (Decidable (∀ _, _ → _ → _))
  | .write _ none _ | .openFile .. | .close .. | .read .. | .seek .. | .delete ..
  | .stat .. => isTrue trivial

def StoreFits (store : Store) : Prop :=
  ∀ path value, store path = some (magicChar :: value) →
    (fileDecode value).1 ≤ bufferSize (isLongFile path)

structure InfoFits (info : FileInfo) : Prop where
  offset : info.offset ≤ info.len
  len : info.len ≤ info.cap
  cap : info.cap = bufferSize (isLongFile info.fileName)

structure HalInv (s : Hal) : Prop where
  infos : ∀ i, (s.infos i).fd ≠ invalidFd → InfoFits (s.infos i)
  store : StoreFits s.store

/-! The coding of a stored file. -/

theorem decodeLoop_cons_of_ne {b : UInt8} (h : b ≠ escChar2) (rest : List UInt8) :
    decodeLoop (b :: rest) = (b :: (decodeLoop rest).1, (decodeLoop rest).2) := by
  cases rest with
  | nil => simp only [decodeLoop, if_neg h]
  | cons => rw [decodeLoop, if_neg h]

theorem decodeLoop_encodeByte (b : UInt8) (rest : List UInt8) :
    decodeLoop (encodeByte b ++ rest) = (b :: (decodeLoop rest).1, (decodeLoop rest).2) := by
  unfold encodeByte
  split
  · rename_i hb
    rw [hb]
    rfl
  · split
    · rename_i hb
      rw [hb]
      rfl
    · rename_i hb
      exact decodeLoop_cons_of_ne hb rest

theorem decodeLoop_fileEncode (bytes : List UInt8) :
    decodeLoop (fileEncode bytes) = (bytes, true) := by
  induction bytes with
  | nil => rfl
  | cons b bytes ih =>
    rw [fileEncode, flatMap_cons, decodeLoop_encodeByte]
    rw [fileEncode] at ih
    rw [ih]

theorem fileDecode_fileEncode (bytes : List UInt8) :
    fileDecode (fileEncode bytes) = (bytes.length, bytes) := by
  rw [fileDecode, decodeLoop_fileEncode]
  rfl

theorem encodeByte_ne_zero (b : UInt8) : ∀ x ∈ encodeByte b, x ≠ 0 := by
  intro x hx
  unfold encodeByte at hx
  split at hx
  · rcases mem_pair.mp hx with rfl | rfl
    · decide
    · decide
  · rename_i hzero
    split at hx
    · rcases mem_pair.mp hx with rfl | rfl
      · decide
      · decide
    · rw [mem_singleton.mp hx]
      exact hzero

theorem fileEncode_ne_zero (bytes : List UInt8) : ∀ x ∈ fileEncode bytes, x ≠ 0 := by
  intro x hx
  obtain ⟨b, -, hb⟩ := mem_flatMap.mp hx
  exact encodeByte_ne_zero b x hb

theorem saved_eq (bytes : List UInt8) : saved bytes = magicChar :: fileEncode bytes := by
  refine takeWhile_eq_self_iff.mpr ?_
  intro x hx
  rcases mem_cons.mp hx with rfl | hx
  · rfl
  · exact decide_eq_true (fileEncode_ne_zero bytes x hx)

section Steps

variable {s : Hal}

theorem bufferSize_cases (longFile : Bool) :
    bufferSize longFile = 1024 ∨ bufferSize longFile = 3072 := by
  cases longFile
  · exact .inl rfl
  · exact .inr rfl

theorem bufferSize_le (longFile : Bool) : bufferSize false ≤ bufferSize longFile := by
  cases longFile
  · exact le_refl _
  · exact (by decide : 1024 ≤ 3072)

theorem fileGetInfo_fd {i : Fin maxFileCnt} (h : fileGetInfo s fd = some i) :
    (s.infos i).fd ≠ invalidFd := by
  unfold fileGetInfo at h
  split at h
  · rename_i hrange
    dsimp only at h
    obtain ⟨hfd, rfl⟩ := Option.ite_some_none_eq_some.mp h
    rw [hfd]
    intro hinvalid
    rw [hinvalid] at hrange
    exact absurd hrange.1 (by decide)
  · cases h

theorem HalInv.getInfo (h : HalInv s) {i : Fin maxFileCnt} (hi : fileGetInfo s fd = some i) :
    InfoFits (s.infos i) :=
  h.infos i (fileGetInfo_fd hi)

theorem HalInv.setInfo (h : HalInv s) {i : Fin maxFileCnt}
    (hinfo : info.fd ≠ invalidFd → InfoFits info) : HalInv (s.setInfo i info) := by
  refine ⟨fun j => ?_, h.store⟩
  by_cases hj : j = i
  · rw [hj]
    simp only [Hal.setInfo, update_self]
    exact hinfo
  · simp only [Hal.setInfo, update_of_ne hj]
    exact h.infos j

theorem HalInv.setStore (h : HalInv s) (hstore : StoreFits store) :
    HalInv { s with store := store } :=
  ⟨h.infos, hstore⟩

theorem fileLoad_le (h : StoreFits s.store) (path : Path) (buffer : List UInt8) :
    (fileLoad s path buffer).1 ≤ bufferSize (isLongFile path) := by
  unfold fileLoad
  split
  · rename_i b value hvalue
    split
    · rename_i hb
      rw [hb] at hvalue
      exact h path value hvalue
    · exact Nat.zero_le _
  · exact Nat.zero_le _

theorem HalInv.halFileOpen (h : HalInv s) (path : Path) (oflag : OFlag)
    (contentOk nameOk : Bool) : HalInv (halFileOpen s path oflag contentOk nameOk).1 := by
  unfold HalFile.halFileOpen
  split
  · exact h
  · split
    · exact h
    · split
      · exact h
      · split
        · exact h
        · have hflag : HalInv { s with longFileFg := isLongFile path } := ⟨h.infos, h.store⟩
          dsimp only
          split
          · refine hflag.setInfo fun _ => ⟨?_, ?_, rfl⟩
            · dsimp only
              split
              · exact le_refl _
              · exact Nat.zero_le _
            · dsimp only
              split
              · exact Nat.zero_le _
              · exact fileLoad_le hflag.store path _
          · exact hflag

theorem StoreFits.save (h : StoreFits store) {path : Path} {bytes : List UInt8}
    (hbytes : bytes.length ≤ bufferSize (isLongFile path)) :
    StoreFits (update store path (some (saved bytes))) := by
  intro key value hvalue
  by_cases hkey : key = path
  · rw [hkey, update_self, saved_eq] at hvalue
    cases hvalue
    rw [fileDecode_fileEncode, hkey]
    exact hbytes
  · rw [update_of_ne hkey] at hvalue
    exact h key value hvalue

theorem StoreFits.remove (h : StoreFits store) (path : Path) :
    StoreFits (update store path none) := by
  intro key value hvalue
  by_cases hkey : key = path
  · rw [hkey, update_self] at hvalue
    cases hvalue
  · rw [update_of_ne hkey] at hvalue
    exact h key value hvalue

theorem HalInv.halFileClose (h : HalInv s) (fd : Int) (result : SaveResult) :
    HalInv (halFileClose s fd result).1 := by
  unfold HalFile.halFileClose
  split
  · exact h
  · rename_i i hi
    obtain ⟨-, hlen, hcap⟩ := h.getInfo hi
    have hsave : HalInv (fileSave s (s.infos i).fileName (s.infos i).content
        (s.infos i).len result) := by
      unfold fileSave
      split
      · exact h
      · split
        · exact h
        · exact h.setStore (h.store.remove _)
      · refine h.setStore (h.store.save ?_)
        rw [length_take]
        omega
    exact hsave.setInfo fun hopen => absurd rfl hopen

theorem addU32_of_lt {a b : Nat} (h : a + b < 2 ^ 32) : addU32 a b = a + b := Nat.mod_eq_of_lt h

theorem subU32_of_le {a b : Nat} (h : b ≤ a) (ha : a < 2 ^ 32) : subU32 a b = a - b := by
  unfold subU32
  omega

theorem InfoFits.len_lt (h : InfoFits info) : info.len < 2 ^ 32 := by
  have hlen := h.len
  rw [h.cap] at hlen
  rcases bufferSize_cases (isLongFile info.fileName) with hsize | hsize
  · omega
  · omega

theorem readLen_fits (h : InfoFits info) (len : Nat) :
    addU32 info.offset (readLen info len) ≤ info.len := by
  unfold readLen
  split
  · rw [subU32_of_le h.offset h.len_lt, addU32_of_lt]
    · exact (Nat.add_sub_cancel' h.offset).le
    · rw [Nat.add_sub_cancel' h.offset]
      exact h.len_lt
  · rename_i hle
    exact Nat.le_of_not_lt hle

theorem HalInv.halFileRead (h : HalInv s) (fd : Int) (hasBuf : Bool) (len : Nat) :
    HalInv (halFileRead s fd hasBuf len).1 := by
  unfold HalFile.halFileRead
  split
  · exact h
  · rename_i i hi
    have hinfo := h.getInfo hi
    split
    · dsimp only
      split
      · exact h
      · exact h.setInfo fun _ => ⟨readLen_fits hinfo len, hinfo.len, hinfo.cap⟩
    · exact h

theorem writeLen_ends (h : InfoFits info) {longFileFg : Bool}
    (hends : info.offset + writeLen longFileFg info len < 2 ^ 32) :
    addU32 info.offset (writeLen longFileFg info len) =
      min (info.offset + len) (bufferSize longFileFg) := by
  have hsize := bufferSize_cases longFileFg
  have hoffset := lt_of_le_of_lt h.offset h.len_lt
  rw [addU32_of_lt hends]
  unfold writeLen at hends ⊢
  split at hends
  · rename_i hover
    rw [if_pos hover]
    have hle : info.offset ≤ bufferSize longFileFg := by
      by_contra hgt
      unfold subU32 at hends
      omega
    rw [subU32_of_le hle (by omega)]
    unfold addU32 at hover
    omega
  · rename_i hfits
    rw [if_neg hfits]
    rw [addU32_of_lt hends] at hfits
    omega

theorem InfoFits.written (h : InfoFits info) (buf : List UInt8)
    (hend : addU32 info.offset len ≤ info.cap) : InfoFits (info.written buf len) := by
  refine ⟨?_, ?_, h.cap⟩
  · unfold FileInfo.written
    dsimp only
    split
    · exact le_refl _
    · rename_i hle
      exact Nat.le_of_not_lt hle
  · unfold FileInfo.written
    dsimp only
    split
    · exact hend
    · exact h.len

section

variable (h : HalInv s)
include h

theorem HalInv.halFileWrite {buf : Option (List UInt8)}
    (hends : buf = none ∨ CopyEnds s fd fun info => writeLen s.longFileFg info len)
    (hok : WriteFits s (.write fd buf len)) : HalInv (halFileWrite s fd buf len).1 := by
  unfold HalFile.halFileWrite
  split
  · rename_i i bytes hi
    have hinfo := h.getInfo hi
    dsimp only
    split
    · exact h
    · refine h.setInfo fun _ => hinfo.written bytes ?_
      rcases hends with hnone | hends
      · cases hnone
      · rw [writeLen_ends hinfo (hends i hi), hinfo.cap]
        cases hflag : s.longFileFg with
        | false => exact le_trans (Nat.min_le_right _ _) (bufferSize_le _)
        | true =>
          rcases hok i hi hflag with hlong | hshort
          · rw [hlong]
            exact Nat.min_le_right _ _
          · exact le_trans (Nat.min_le_left _ _) (le_trans hshort (bufferSize_le _))
  · exact h

theorem HalInv.seekTo {i : Fin maxFileCnt} (hi : InfoFits (s.infos i)) (target : Int) :
    HalInv (seekTo s i target).1 := by
  unfold HalFile.seekTo
  split
  · exact h
  · split
    · exact h
    · refine h.setInfo fun _ => ⟨?_, hi.len, hi.cap⟩
      dsimp only
      omega

theorem HalInv.halFileSeek (fd : Int) (offset : Int) (whence : Whence) :
    HalInv (halFileSeek s fd offset whence).1 := by
  unfold HalFile.halFileSeek
  split
  · exact h
  · rename_i i hi
    have hinfo := h.getInfo hi
    split
    · exact h.seekTo hinfo _
    · exact h.seekTo hinfo _
    · exact h.seekTo hinfo _
    · exact h

theorem HalInv.halFileDelete (path : Path) (done : Bool) :
    HalInv (halFileDelete s path done).1 := by
  unfold HalFile.halFileDelete
  split
  · split
    · exact h.setStore (h.store.remove path)
    · exact h
  · exact h

theorem HalInv.halFileStat (path : Path) (hasPtr contentOk nameOk : Bool) (result : SaveResult) :
    HalInv (halFileStat s path hasPtr contentOk nameOk result).1 := by
  have hopen := h.halFileOpen path .rdonly contentOk nameOk
  unfold HalFile.halFileStat
  split
  · dsimp only
    split
    · exact hopen
    · split
      · exact hopen.halFileClose _ result
      · exact hopen.halFileClose _ result
  · exact h

theorem step_halInv {s' : Hal} {e : HalFile.Event} (hok : WriteFits s e)
    (hstep : step s e = some s') : HalInv s' := by
  cases e with
  | openFile path oflag contentOk nameOk =>
    cases hstep
    exact h.halFileOpen path oflag contentOk nameOk
  | close fd result =>
    cases hstep
    exact h.halFileClose fd result
  | read fd hasBuf len =>
    obtain ⟨-, rfl⟩ := Option.ite_some_none_eq_some.mp hstep
    exact h.halFileRead fd hasBuf len
  | write =>
    obtain ⟨hreturns, rfl⟩ := Option.ite_some_none_eq_some.mp hstep
    exact h.halFileWrite hreturns.2 hok
  | seek fd offset whence =>
    cases hstep
    exact h.halFileSeek fd offset whence
  | delete path done =>
    cases hstep
    exact h.halFileDelete path done
  | stat path hasPtr contentOk nameOk result =>
    cases hstep
    exact h.halFileStat path hasPtr contentOk nameOk result

end

theorem reached_halInv (hstore : StoreFits store) (h : Reached step WriteFits (Hal.init store) s) :
    HalInv s := by
  refine h.invariant HalInv ⟨fun i hopen => ?_, hstore⟩ fun _ _ _ hinv => step_halInv hinv
  exact absurd rfl hopen

end Steps

/-- In every state reached, every open descriptor has its position within its length,
and its length within its buffer. -/
theorem reached_descriptorsFit {store : Store} {s : Hal} (hstore : StoreFits store)
    (h : Reached step WriteFits (Hal.init store) s) : DescriptorsFit s := by
  intro i hopen
  obtain ⟨hoffset, hlen, -⟩ := (reached_halInv hstore h).infos i hopen
  exact ⟨hoffset, hlen⟩

def creating : OFlag := { OFlag.rdonly with creat := true }

def appending : OFlag := { OFlag.rdonly with append := true }

def storedFile : Store := update (fun _ => none) "a".toList (some (saved [1, 0, 2]))

theorem storeFits_storedFile : StoreFits storedFile := by
  have hempty : StoreFits fun _ => none := fun path value hvalue => by cases hvalue
  exact hempty.save (by decide)

theorem reached_descriptorsFit_two_files : ∃ s, Reached step WriteFits (Hal.init storedFile) s ∧
      (((s.infos 0).offset, (s.infos 0).len) = (503, 503) ∧
        ((s.infos 1).offset, (s.infos 1).len) = (1900, 2000)) ∧ DescriptorsFit s :=
  exists_reached_and (fun _ => reached_descriptorsFit storeFits_storedFile)
    [.openFile "a".toList appending true true, .openFile "config.cfg".toList creating true true,
      .write 1 (some (replicate 500 0)) 500, .write 2 (some (replicate 2000 7)) 2000,
      .seek 2 (-200) .cur, .read 2 true 100] (by decide)

theorem long_limit_on_short_buffer :
    ¬ ∀ s, Reached step anyStep (Hal.init fun _ => none) s → DescriptorsFit s := by
  intro hall
  obtain ⟨s, hs, hfd, hlen, hcap⟩ := exists_reached step anyStep (Hal.init fun _ => none)
    (fun s => (s.infos 0).fd = 1 ∧ (s.infos 0).len = 2000 ∧ (s.infos 0).cap = 1024)
    [.openFile "a".toList creating true true, .openFile "config.cfg".toList creating true true,
      .write 1 (some (replicate 2000 0)) 2000] (by decide)
  have hbound := (hall s hs 0 (by rw [hfd]; decide)).2
  omega

end BekenSoc.HalFileBounds
