import BekenSoc.HalFileSessions

namespace BekenSoc.HalFileLooks

open Function CRuntime GuardedRuns HalFile HalFileBounds HalFileSessions List

variable {value : List UInt8}

def LookOnly (_ : Hal) : HalFile.Event → Prop
  | .openFile _ oflag _ _ => oflag.creat = false ∧ oflag.trunc = false
  | .close .. | .read .. | .seek .. | .stat .. => True
  | .write .. | .delete .. => False

instance (s : Hal) : (e : HalFile.Event) → Decidable (LookOnly s e)
  | .openFile .. => inferInstanceAs (Decidable (_ ∧ _))
  | .close .. | .read .. | .seek .. | .stat .. => isTrue trivial
  | .write .. | .delete .. => isFalse id

def decoded : List UInt8 → List UInt8
  | [] => []
  | b :: value => if b = magicChar then (decodeLoop value).1 else []

def Loads : List UInt8 → Prop
  | [] => False
  | b :: value => b = magicChar ∧ (decodeLoop value).2 = true

def CStrings (store : Store) : Prop := ∀ path value, store path = some value → 0 ∉ value

def AllLoad (store : Store) : Prop :=
  ∀ path value, path.length ≤ maxFileNameLen → store path = some value →
    Loads value ∧ (decoded value).length ≤ bufferSize (isLongFile path)

def Untouched (store : Store) (s : Hal) : Prop :=
  s.store = store ∧ ∀ i, (s.infos i).fd ≠ invalidFd → (s.infos i).content.length ≤ (s.infos i).cap

/-! The decoder and the encoder, in the other order. -/

theorem encodeByte_of_ne {b : UInt8} (hzero : b ≠ 0) (hesc : b ≠ escChar2) :
    encodeByte b = [b] := by
  have hfirst : b ≠ escChar1 := hzero
  rw [encodeByte, if_neg hfirst, if_neg hesc]

theorem fileEncode_decodeLoop (hzero : 0 ∉ value) (hok : (decodeLoop value).2 = true) :
    fileEncode (decodeLoop value).1 = value := by
  induction value using decodeLoop.induct with
  | case1 => rfl
  | case2 => simp [decodeLoop] at hok
  | case3 b hb =>
    have hb0 : b ≠ 0 := fun h => hzero (by simp [h])
    simp only [decodeLoop, if_neg hb, fileEncode, flatMap_cons, flatMap_nil,
      encodeByte_of_ne hb0 hb, append_nil]
  | case4 rest ih =>
    simp only [decodeLoop, if_true] at hok ⊢
    have hrest := ih (fun h => hzero (by simp [h])) hok
    rw [fileEncode] at hrest ⊢
    rw [flatMap_cons, hrest]
    rfl
  | case5 rest hne ih =>
    simp only [decodeLoop, if_true, if_neg hne] at hok ⊢
    have hrest := ih (fun h => hzero (by simp [h])) hok
    rw [fileEncode] at hrest ⊢
    rw [flatMap_cons, hrest]
    rfl
  | case6 r rest hne hne' => simp [decodeLoop, hne, hne'] at hok
  | case7 b r rest hb ih =>
    have hb0 : b ≠ 0 := fun h => hzero (by simp [h])
    simp only [decodeLoop, if_neg hb] at hok ⊢
    have hrest := ih (fun h => hzero (mem_cons_of_mem b h)) hok
    rw [fileEncode] at hrest ⊢
    rw [flatMap_cons, hrest, encodeByte_of_ne hb0 hb]
    rfl

theorem saved_contentOf (hzero : 0 ∉ value) (hloads : Loads value) :
    saved (contentOf value) = value := by
  cases value with
  | nil => exact absurd hloads id
  | cons b value =>
    obtain ⟨rfl, hok⟩ := hloads
    have hvalue : 0 ∉ value := fun h => hzero (mem_cons_of_mem _ h)
    rw [saved_eq, contentOf, if_pos rfl, fileDecode]
    simp only [hok, if_true, take_length]
    rw [fileEncode_decodeLoop hvalue hok]

theorem contentOf_of_not_loads (h : ¬ Loads value) : contentOf value = [] := by
  cases value with
  | nil => rfl
  | cons b value =>
    rw [contentOf]
    split
    · rename_i hb
      have hfail : (decodeLoop value).2 = false := by
        rw [← Bool.not_eq_true]
        exact fun hok => h ⟨hb, hok⟩
      rw [fileDecode]
      simp only [hfail, Bool.false_eq_true, if_false, take_zero]
    · rfl

theorem saved_contentOf_ne (h : ¬ Loads value) : saved (contentOf value) ≠ value := by
  rw [contentOf_of_not_loads h]
  rintro rfl
  apply h
  exact ⟨rfl, rfl⟩

theorem length_memcpy {α : Type*} (dst src : List α) :
    (memcpy dst src src.length).length = max dst.length src.length := by
  simp only [memcpy, take_length, length_append, length_drop]
  omega

theorem length_fileLoad {s : Hal} {path : Path} (h : s.store path = some value)
    (buffer : List UInt8) :
    (fileLoad s path buffer).2.length = max buffer.length (decoded value).length := by
  cases value with
  | nil =>
    rw [fileLoad, h]
    exact (Nat.max_zero _).symm
  | cons =>
    simp only [fileLoad, h, decoded]
    split
    · exact length_memcpy _ _
    · exact (Nat.max_zero _).symm

section Calls

variable {s s' : Hal} {store : Store}

structure Looks (info : FileInfo) (value : List UInt8) : Prop where
  copy : info.content.take info.len = contentOf value
  room : info.cap = bufferSize (isLongFile info.fileName)
  length : info.content.length = max info.cap (decoded value).length

theorem halFileOpen_looks (s : Hal) (path : Path) {oflag : OFlag} (contentOk nameOk : Bool)
    (hcreat : oflag.creat = false) (htrunc : oflag.trunc = false) :
    (∃ longFileFg, halFileOpen s path oflag contentOk nameOk =
      ({ s with longFileFg := longFileFg }, fileErrGeneral)) ∨
    ∃ (i : Fin maxFileCnt) (info : FileInfo) (longFileFg : Bool) (value : List UInt8),
      path.length ≤ maxFileNameLen ∧ s.store path = some value ∧ info.fileName = path ∧
      info.fd = (i : Int) + 1 ∧ Looks info value ∧ halFileOpen s path oflag contentOk nameOk =
        ({ s with longFileFg := longFileFg }.setInfo i info, (i : Int) + 1) := by
  unfold halFileOpen
  split
  · exact .inl ⟨_, rfl⟩
  · rename_i i hi
    split
    · exact .inl ⟨_, rfl⟩
    · rename_i hlen
      split
      · exact .inl ⟨_, rfl⟩
      · rename_i hfound
        split
        · exact .inl ⟨_, rfl⟩
        · dsimp only
          split
          · rw [hcreat] at hfound
            have hexists : fileExist s path = true := by simpa using hfound
            obtain ⟨value, hvalue⟩ := Option.isSome_iff_exists.mp hexists
            refine .inr ⟨i, _, _, value, Nat.not_lt.mp hlen, hvalue, rfl, rfl, ?_, rfl⟩
            rw [htrunc]
            refine ⟨?_, rfl, ?_⟩
            · exact fileLoad_content (s := { s with longFileFg := isLongFile path }) hvalue _
            · refine (length_fileLoad (s := { s with longFileFg := isLongFile path }) hvalue
                _).trans ?_
              rw [length_replicate]
          · exact .inl ⟨_, rfl⟩

structure LookInv (store : Store) (s : Hal) : Prop where
  same : s.store = store
  infos : ∀ i, (s.infos i).fd ≠ invalidFd → ∃ value, (s.infos i).fileName.length ≤ maxFileNameLen ∧
      store (s.infos i).fileName = some value ∧ Looks (s.infos i) value

theorem lookInv_init (store : Store) : LookInv store (Hal.init store) :=
  ⟨rfl, fun _ h => absurd rfl h⟩

section

variable (h : LookInv store s)
include h

theorem LookInv.setInfo {i : Fin maxFileCnt} {info : FileInfo}
    (hinfo : info.fd ≠ invalidFd → ∃ value, info.fileName.length ≤ maxFileNameLen ∧
      store info.fileName = some value ∧ Looks info value) : LookInv store (s.setInfo i info) := by
  refine ⟨h.same, fun j hj => ?_⟩
  rcases eq_or_ne j i with rfl | hne
  · simp only [Hal.setInfo, update_self] at hj ⊢
    exact hinfo hj
  · simp only [Hal.setInfo, update_of_ne hne] at hj ⊢
    exact h.infos j hj

theorem LookInv.setFlag (longFileFg : Bool) : LookInv store { s with longFileFg := longFileFg } :=
  ⟨h.same, h.infos⟩

theorem LookInv.repositioned (hmove : Repositioned s s') : LookInv store s' := by
  rcases hmove with rfl | ⟨i, offset, rfl⟩
  · exact h
  · apply h.setInfo
    intro hopen
    obtain ⟨value, hlen, hvalue, hlooks⟩ := h.infos i hopen
    exact ⟨value, hlen, hvalue, hlooks.copy, hlooks.room, hlooks.length⟩

theorem LookInv.halFileOpen (path : Path) {oflag : OFlag} (contentOk nameOk : Bool)
    (hcreat : oflag.creat = false) (htrunc : oflag.trunc = false) :
    LookInv store (halFileOpen s path oflag contentOk nameOk).1 := by
  rcases halFileOpen_looks s path contentOk nameOk hcreat htrunc with
    ⟨longFileFg, heq⟩ | ⟨i, info, longFileFg, value, hlen, hvalue, rfl, -, hlooks, heq⟩
  · rw [heq]
    exact h.setFlag longFileFg
  · rw [heq]
    apply (h.setFlag longFileFg).setInfo
    intro _
    exact ⟨value, hlen, h.same ▸ hvalue, hlooks⟩

theorem LookInv.halFileClose (hstrings : CStrings store) (hload : AllLoad store) (fd : Int)
    (result : SaveResult) : LookInv store (halFileClose s fd result).1 := by
  unfold HalFile.halFileClose
  split
  · exact h
  · rename_i i hget
    obtain ⟨value, hlen, hvalue, hlooks⟩ := h.infos i (fileGetInfo_fd hget)
    have hsame : fileSave s (s.infos i).fileName (s.infos i).content (s.infos i).len result =
        s := by
      rw [← h.same] at hvalue
      have hzero : 0 ∉ value := hstrings _ _ (h.same ▸ hvalue)
      have hloads : Loads value := (hload _ _ hlen (h.same ▸ hvalue)).1
      rw [← saved_contentOf hzero hloads, ← hlooks.copy] at hvalue
      cases result with
      | refused => rfl
      | envFull => exact if_pos hvalue
      | stored =>
        show { s with store := update s.store _ _ } = s
        rw [← hvalue, update_eq_self]
    dsimp only
    rw [hsame]
    apply h.setInfo
    intro hopen
    exact absurd rfl hopen

theorem LookInv.halFileStat (hstrings : CStrings store) (hload : AllLoad store) (path : Path)
    (hasPtr contentOk nameOk : Bool) (result : SaveResult) :
    LookInv store (halFileStat s path hasPtr contentOk nameOk result).1 := by
  have hopened := h.halFileOpen path contentOk nameOk (show OFlag.rdonly.creat = false from rfl) rfl
  unfold HalFile.halFileStat
  split
  · dsimp only
    split
    · exact hopened
    · split
      · exact hopened.halFileClose hstrings hload _ result
      · exact hopened.halFileClose hstrings hload _ result
  · exact h

theorem LookInv.step {e : HalFile.Event} (hstrings : CStrings store) (hload : AllLoad store)
    (hlook : LookOnly s e) (hstep : step s e = some s') : LookInv store s' := by
  cases e with
  | openFile path oflag contentOk nameOk =>
    cases hstep
    exact h.halFileOpen path contentOk nameOk hlook.1 hlook.2
  | close fd result =>
    cases hstep
    exact h.halFileClose hstrings hload fd result
  | read fd hasBuf len =>
    obtain ⟨-, rfl⟩ := Option.ite_some_none_eq_some.mp hstep
    exact h.repositioned (repositioned_read s fd hasBuf len)
  | write => exact absurd hlook id
  | seek fd offset whence =>
    cases hstep
    exact h.repositioned (repositioned_seek s fd offset whence)
  | delete => exact absurd hlook id
  | stat path hasPtr contentOk nameOk result =>
    cases hstep
    exact h.halFileStat hstrings hload path hasPtr contentOk nameOk result

theorem LookInv.untouched (hload : AllLoad store) : Untouched store s := by
  refine ⟨h.same, fun i hopen => ?_⟩
  obtain ⟨value, hlen, hvalue, hlooks⟩ := h.infos i hopen
  rw [hlooks.length, hlooks.room]
  exact max_le (le_refl _) (hload _ _ hlen hvalue).2

end

end Calls

section Converse

variable {store : Store} {path : Path} {value : List UInt8}

theorem halFileOpen_init (hlen : path.length ≤ maxFileNameLen) (hvalue : store path = some value) :
    ∃ i info longFileFg, info.fileName = path ∧ Looks info value ∧
      info.fd = ((i : Fin maxFileCnt) : Int) + 1 ∧
      halFileOpen (Hal.init store) path .rdonly true true =
        ({ Hal.init store with longFileFg := longFileFg }.setInfo i info, (i : Int) + 1) := by
  rcases halFileOpen_looks (Hal.init store) path true true
      (show OFlag.rdonly.creat = false from rfl) rfl with
    ⟨longFileFg, heq⟩ | ⟨i, info, longFileFg, found, -, hfound, hname, hfd, hlooks, heq⟩
  · exfalso
    have hslot : freeSlot (Hal.init store) = some ⟨0, by decide⟩ := rfl
    have hexists : fileExist (Hal.init store) path = true := by
      refine Option.isSome_iff_exists.mpr ⟨value, ?_⟩
      exact hvalue
    have hret := congrArg Prod.snd heq
    simp only [halFileOpen, hslot, if_neg (Nat.not_lt.mpr hlen), hexists, OFlag.rdonly,
      Bool.not_true, Bool.and_false, Bool.false_and, Bool.false_eq_true, if_false,
      Bool.and_self, if_true, fileErrGeneral] at hret
    omega
  · have hsame : found = value := Option.some.inj (hfound.symm.trans hvalue)
    exact ⟨i, info, longFileFg, hname, hsame ▸ hlooks, hfd, heq⟩

theorem stat_init_store (hlen : path.length ≤ maxFileNameLen) (hvalue : store path = some value) :
    (halFileStat (Hal.init store) path true true true .stored).1.store path =
      some (saved (contentOf value)) := by
  obtain ⟨i, info, longFileFg, hname, hlooks, hfd, heq⟩ := halFileOpen_init hlen hvalue
  have hget := fileGetInfo_setInfo { Hal.init store with longFileFg := longFileFg } i hfd
  have hpos : ¬ (i : Int) + 1 ≤ 0 := by omega
  rw [halFileStat, if_pos rfl, heq]
  simp only [hpos, if_false, hget, halFileClose]
  simp only [Hal.setInfo, update_self, fileSave, hname, hlooks.copy]

end Converse

/-- Whoever only looks leaves the store as it is, and stays within the buffers, exactly if
every file that can be opened loads. -/
theorem reached_untouched_iff (store : Store) (hstrings : CStrings store) :
    (∀ s, Reached step LookOnly (Hal.init store) s → Untouched store s) ↔ AllLoad store := by
  constructor
  · intro hall path value hlen hvalue
    constructor
    · by_contra hloads
      have hreached : Reached step LookOnly (Hal.init store) _ :=
        Reached.start.step (.stat path true true true .stored) trivial rfl
      have hsame := congrFun (hall _ hreached).1 path
      rw [stat_init_store hlen hvalue, hvalue] at hsame
      exact saved_contentOf_ne hloads (Option.some.inj hsame)
    · obtain ⟨i, info, longFileFg, hname, hlooks, hfd, heq⟩ := halFileOpen_init hlen hvalue
      have hreached : Reached step LookOnly (Hal.init store) _ :=
        Reached.start.step (.openFile path .rdonly true true) ⟨rfl, rfl⟩ rfl
      have hfits := (hall _ hreached).2 i
      rw [heq] at hfits
      simp only [Hal.setInfo, update_self] at hfits
      have hle := hfits (by rw [hfd, invalidFd]; omega)
      rw [hlooks.length, hlooks.room, hname] at hle
      exact (le_max_right _ _).trans hle
  · intro hload s hreached
    have hinv : LookInv store s := hreached.invariant (LookInv store) (lookInv_init store)
      fun _ _ _ h hlook hstep => h.step hstrings hload hlook hstep
    exact hinv.untouched hload

theorem update_none_eq_some {key path : Path} {stored : List UInt8}
    (h : update (fun _ => none) key (some stored) path = some value) :
    path = key ∧ value = stored := by
  rcases eq_or_ne path key with rfl | hne
  · rw [update_self] at h
    exact ⟨rfl, (Option.some.inj h).symm⟩
  · rw [update_of_ne hne] at h
    cases h

theorem reached_untouched_storedFile : CStrings storedFile ∧
      ∀ s, Reached step LookOnly (Hal.init storedFile) s → Untouched storedFile s := by
  have hstrings : CStrings storedFile := by
    intro path value hvalue
    obtain ⟨-, rfl⟩ := update_none_eq_some hvalue
    decide
  refine ⟨hstrings, (reached_untouched_iff storedFile hstrings).mpr ?_⟩
  intro path value _ hvalue
  obtain ⟨rfl, rfl⟩ := update_none_eq_some hvalue
  constructor
  · exact ⟨rfl, rfl⟩
  · decide

def foreignFile : Store := update (fun _ => none) "a".toList (some [0x68, 0x69])

-- `HalFileStat` on that file replaces its value by a lone magic character.
theorem stat_replaces_foreign_value : ¬ ∀ store, CStrings store →
      ∀ s, Reached step LookOnly (Hal.init store) s → s.store = store := by
  intro hall
  have hstrings : CStrings foreignFile := by
    intro path value hvalue
    obtain ⟨-, rfl⟩ := update_none_eq_some hvalue
    decide
  obtain ⟨s, hreached, hend⟩ := exists_reached step LookOnly (Hal.init foreignFile)
    (fun s => s.store "a".toList = some [magicChar])
    [.stat "a".toList true true true .stored] (by decide)
  have hsame := congrFun (hall foreignFile hstrings s hreached) "a".toList
  rw [hend] at hsame
  exact absurd hsame (by decide)

end BekenSoc.HalFileLooks
