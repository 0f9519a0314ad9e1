import BekenSoc.HalFileBounds

namespace BekenSoc.HalFileSessions

open Function CRuntime GuardedRuns HalFile HalFileBounds Option

variable {path : Path} {info : FileInfo} {fd : Int}

def contentOf : List UInt8 → List UInt8
  | [] => []
  | b :: value => if b = magicChar then (fileDecode value).2.take (fileDecode value).1 else []

def storedContent (s : Hal) (path : Path) : Option (List UInt8) := (s.store path).map contentOf

def openedSlot (s : Hal) : HalFile.Event → Option (Fin maxFileCnt)
  | .openFile path oflag contentOk nameOk =>
    if (halFileOpen s path oflag contentOk nameOk).2 = fileErrGeneral then none
    else freeSlot s
  | _ => none

def loadsStored (s : Hal) : HalFile.Event → Bool
  | .openFile path oflag _ _ => !oflag.trunc && fileExist s path
  | _ => false

def writtenSlot (s : Hal) : HalFile.Event → Option (Fin maxFileCnt)
  | .write fd (some _) len =>
    match fileGetInfo s fd with
    | none => none
    | some i => if writeLen s.longFileFg (s.infos i) len = 0 then none else some i
  | _ => none

def closedSlot (s : Hal) : HalFile.Event → Option (Fin maxFileCnt)
  | .close fd _ => fileGetInfo s fd
  | _ => none

def closes (s : Hal) (flag : Fin maxFileCnt → Bool) (path : Path) (e : HalFile.Event) : Bool :=
  match closedSlot s e with
  | none => false
  | some i => decide ((s.infos i).fileName = path) && flag i

def deletes (path : Path) : HalFile.Event → Bool
  | .delete key _ => decide (key = path)
  | _ => false

/-- The files and an observer.  For every descriptor the observer knows whether its session
has written (`wrote`), whether it has done so since a writing session of the file was last
closed (`wroteSince`), and whether the copy is as it was loaded, with the stored content
unchanged since (`asStored`).  For every file it knows whether a writing session has been
closed (`settled`), and what the last close that follows a write, or the last deletion, has
left (`left`). -/
structure Observed where
  hal : Hal
  wrote : Fin maxFileCnt → Bool
  wroteSince : Fin maxFileCnt → Bool
  asStored : Fin maxFileCnt → Bool
  settled : Path → Bool
  left : Path → Option (List UInt8)

def Observed.init (store : Store) : Observed where
  hal := Hal.init store
  wrote _ := false
  wroteSince _ := false
  asStored _ := false
  settled _ := false
  left _ := none

def Observed.after (r : Observed) (e : HalFile.Event) (s : Hal) : Observed where
  hal := s
  wrote i :=
    if openedSlot r.hal e = some i then false
    else if writtenSlot r.hal e = some i then true
    else r.wrote i
  wroteSince i :=
    if openedSlot r.hal e = some i then false
    else if writtenSlot r.hal e = some i then true
    else r.wroteSince i && !closes r.hal r.wrote (r.hal.infos i).fileName e
  asStored i :=
    if openedSlot r.hal e = some i then loadsStored r.hal e
    else if writtenSlot r.hal e = some i then false
    else r.asStored i && decide (storedContent s (r.hal.infos i).fileName =
      storedContent r.hal (r.hal.infos i).fileName)
  settled path := r.settled path || closes r.hal r.wrote path e
  left path :=
    if closes r.hal r.wroteSince path e || deletes path e then storedContent s path
    else r.left path

def observe (r : Observed) (e : HalFile.Event) : Option Observed := (step r.hal e).map (r.after e)

/-- Once a writing session of a file has been closed, the file holds what the last close
that follows a write, or the last deletion, has left. -/
def ContentKept (r : Observed) : Prop :=
  ∀ path, r.settled path = true → storedContent r.hal path = r.left path

/-- A descriptor of a file on which a writing session has been closed is closed only if it
has written since, or if its copy and the file are as they were when it was opened.  In the
second case, and in `HalFileStat`, the environment is not found full: it could be only for a
value that was not saved by these functions, and that is then deleted. -/
def ClosesCurrent (r : Observed) : HalFile.Event → Prop
  | .close fd result => ∀ i, fileGetInfo r.hal fd = some i →
      r.settled (r.hal.infos i).fileName = true →
      r.wroteSince i = true ∨ r.asStored i = true ∧ result ≠ .envFull
  | .stat path _ _ _ result => r.settled path = true → result ≠ .envFull
  | _ => True

instance (r : Observed) : (e : HalFile.Event) → Decidable (ClosesCurrent r e)
  | .close .. => inferInstanceAs (Decidable (∀ _, _ → _ → _))
  | .stat .. => inferInstanceAs (Decidable (_ → _))
  | .openFile .. | .read .. | .write .. | .seek .. | .delete .. => isTrue trivial

theorem contentOf_saved (bytes : List UInt8) : contentOf (saved bytes) = bytes := by
  rw [saved_eq, contentOf, if_pos rfl, fileDecode_fileEncode]
  exact List.take_length

theorem fileDecode_le (value : List UInt8) :
    (fileDecode value).1 ≤ (fileDecode value).2.length := by
  unfold fileDecode
  dsimp only
  split
  · exact le_refl _
  · exact Nat.zero_le _

theorem fileLoad_content {s : Hal} {value : List UInt8} (h : s.store path = some value)
    (buffer : List UInt8) :
    (fileLoad s path buffer).2.take (fileLoad s path buffer).1 = contentOf value := by
  cases value with
  | nil =>
    rw [fileLoad, h]
    rfl
  | cons b value =>
    simp only [fileLoad, h, contentOf]
    split
    · have hle := fileDecode_le value
      rw [memcpy, List.take_length, List.take_append_of_le_length hle]
    · rfl

section Calls

variable {s s' : Hal}

theorem storedContent_of_exists (h : fileExist s path = true) :
    ∃ value, s.store path = some value ∧ storedContent s path = some (contentOf value) := by
  obtain ⟨value, hvalue⟩ := isSome_iff_exists.mp h
  refine ⟨value, hvalue, ?_⟩
  rw [storedContent, hvalue]
  rfl

structure Opened (s : Hal) (path : Path) (oflag : OFlag) (i : Fin maxFileCnt)
    (info : FileInfo) : Prop where
  free : freeSlot s = some i
  fileName : info.fileName = path
  fd : info.fd = i + 1
  found : oflag.creat = false → fileExist s path = true
  loaded : oflag.trunc = false → fileExist s path = true →
    storedContent s path = some (info.content.take info.len)

theorem halFileOpen_cases (s : Hal) (path : Path) (oflag : OFlag) (contentOk nameOk : Bool) :
    (∃ longFileFg, halFileOpen s path oflag contentOk nameOk =
      ({ s with longFileFg := longFileFg }, fileErrGeneral)) ∨
    ∃ i info longFileFg, Opened s path oflag i info ∧ halFileOpen s path oflag contentOk nameOk =
        ({ s with longFileFg := longFileFg }.setInfo i info, (i : Int) + 1) := by
  unfold halFileOpen
  split
  · exact .inl ⟨_, rfl⟩
  · rename_i i hi
    split
    · exact .inl ⟨_, rfl⟩
    · split
      · exact .inl ⟨_, rfl⟩
      · rename_i hfound
        split
        · exact .inl ⟨_, rfl⟩
        · dsimp only
          split
          · refine .inr ⟨i, _, _, ⟨hi, rfl, rfl, ?_, ?_⟩, rfl⟩
            · intro hcreat
              simpa [hcreat] using hfound
            · intro htrunc hexists
              obtain ⟨value, hvalue, hcontent⟩ := storedContent_of_exists hexists
              rw [hcontent, htrunc]
              refine congrArg some (Eq.symm ?_)
              exact fileLoad_content (s := { s with longFileFg := isLongFile path }) hvalue _
          · exact .inl ⟨_, rfl⟩

theorem fileGetInfo_setInfo (s : Hal) (i : Fin maxFileCnt) (h : info.fd = i + 1) :
    fileGetInfo (s.setInfo i info) (i + 1) = some i := by
  have hi := i.isLt
  have hnat : ((i : Int) + 1).toNat = i + 1 := by omega
  unfold fileGetInfo
  simp only [hnat]
  rw [dif_pos ⟨Nat.succ_pos _, hi⟩]
  simp only [Nat.add_sub_cancel, Hal.setInfo, Fin.eta, update_self, h, if_true]

theorem storedContent_fileSave (s : Hal) (key : Path) (bytes : List UInt8) (len : Nat)
    {result : SaveResult} (hfull : result = .envFull → path ≠ key) :
    storedContent (fileSave s key bytes len result) path =
      if result = .stored ∧ path = key then some (bytes.take len) else storedContent s path := by
  cases result with
  | refused => rfl
  | envFull =>
    simp only [fileSave, reduceCtorEq, false_and, if_false]
    split
    · rfl
    · exact congrArg (Option.map contentOf) (update_of_ne (hfull rfl) _ _)
  | stored =>
    simp only [storedContent, fileSave, true_and]
    split
    · rename_i hkey
      rw [hkey, update_self, map_some, contentOf_saved]
    · rename_i hkey
      rw [update_of_ne hkey]

theorem storedContent_close {i : Fin maxFileCnt} (h : fileGetInfo s fd = some i)
    {result : SaveResult} (hfull : result = .envFull → path ≠ (s.infos i).fileName) :
    storedContent (halFileClose s fd result).1 path =
      if result = .stored ∧ path = (s.infos i).fileName then
        some ((s.infos i).content.take (s.infos i).len) else storedContent s path := by
  rw [halFileClose, h]
  exact storedContent_fileSave s _ _ _ hfull

theorem halFileClose_infos {i : Fin maxFileCnt} (h : fileGetInfo s fd = some i)
    (result : SaveResult) : (halFileClose s fd result).1.infos =
      update s.infos i { s.infos i with fd := invalidFd } := by
  have hsave : (fileSave s (s.infos i).fileName (s.infos i).content (s.infos i).len result).infos =
      s.infos := by
    unfold fileSave
    split
    · rfl
    · split <;> rfl
    · rfl
  rw [halFileClose, h]
  exact congrArg (update · i _) hsave

theorem halFileStat_keeps (s : Hal) (path : Path) (hasPtr contentOk nameOk : Bool)
    (result : SaveResult) : (∀ key, (result = .envFull → key ≠ path) →
      storedContent (halFileStat s path hasPtr contentOk nameOk result).1 key =
        storedContent s key) ∧
    ∀ j, ((halFileStat s path hasPtr contentOk nameOk result).1.infos j).fd ≠ invalidFd →
      (halFileStat s path hasPtr contentOk nameOk result).1.infos j = s.infos j := by
  unfold halFileStat
  split
  · rcases halFileOpen_cases s path .rdonly contentOk nameOk with
      ⟨longFileFg, heq⟩ | ⟨i, info, longFileFg, hopened, heq⟩
    · rw [heq]
      exact ⟨fun _ _ => rfl, fun _ _ => rfl⟩
    · have hget := fileGetInfo_setInfo { s with longFileFg := longFileFg } i hopened.fd
      have hpos : ¬ (i : Int) + 1 ≤ 0 := by omega
      rw [heq]
      simp only [hpos, if_false, hget]
      constructor
      · intro key hfull
        have hname : ({ s with longFileFg := longFileFg }.setInfo i info).infos i = info :=
          update_self ..
        rw [storedContent_close hget (by rwa [hname, hopened.fileName])]
        split
        · rename_i hkey
          rw [hname] at hkey ⊢
          rw [hkey.2, hopened.fileName, hopened.loaded rfl (hopened.found rfl)]
        · rfl
      · intro j hj
        rw [halFileClose_infos hget] at hj ⊢
        rcases eq_or_ne j i with rfl | hne
        · rw [update_self] at hj
          exact absurd rfl hj
        · rw [update_of_ne hne]
          exact update_of_ne hne _ _
  · exact ⟨fun _ _ => rfl, fun _ _ => rfl⟩

end Calls

section Steps

variable {s s' : Hal} {e : HalFile.Event}

structure SameCopy (info info' : FileInfo) : Prop where
  fd : info'.fd = info.fd
  fileName : info'.fileName = info.fileName
  content : info'.content = info.content
  len : info'.len = info.len

theorem SameCopy.of_eq {info' : FileInfo} (h : info' = info) : SameCopy info info' := by
  rw [h]
  exact ⟨rfl, rfl, rfl, rfl⟩

theorem SameCopy.setInfo {i : Fin maxFileCnt} (h : SameCopy (s.infos i) info) (j : Fin maxFileCnt) :
    SameCopy (s.infos j) ((s.setInfo i info).infos j) := by
  rcases eq_or_ne j i with rfl | hne
  · simp only [Hal.setInfo, update_self]
    exact h
  · exact .of_eq (update_of_ne hne _ _)

def Repositioned (s s' : Hal) : Prop :=
  s' = s ∨ ∃ i offset, s' = s.setInfo i { s.infos i with offset := offset }

theorem Repositioned.sameCopy (h : Repositioned s s') (j : Fin maxFileCnt) :
    SameCopy (s.infos j) (s'.infos j) := by
  rcases h with rfl | ⟨i, offset, rfl⟩
  · exact .of_eq rfl
  · apply SameCopy.setInfo
    exact ⟨rfl, rfl, rfl, rfl⟩

theorem Repositioned.storedContent (h : Repositioned s s') (path : Path) :
    storedContent s' path = storedContent s path := by
  rcases h with rfl | ⟨i, offset, rfl⟩
  · rfl
  · rfl

theorem repositioned_read (s : Hal) (fd : Int) (hasBuf : Bool) (len : Nat) :
    Repositioned s (halFileRead s fd hasBuf len).1 := by
  unfold halFileRead
  split
  · exact .inl rfl
  · split
    · dsimp only
      split
      · exact .inl rfl
      · exact .inr ⟨_, _, rfl⟩
    · exact .inl rfl

theorem repositioned_seekTo (s : Hal) (i : Fin maxFileCnt) (target : Int) :
    Repositioned s (seekTo s i target).1 := by
  unfold seekTo
  split
  · exact .inl rfl
  · split
    · exact .inl rfl
    · exact .inr ⟨_, _, rfl⟩

theorem repositioned_seek (s : Hal) (fd offset : Int) (whence : Whence) :
    Repositioned s (halFileSeek s fd offset whence).1 := by
  unfold halFileSeek
  split
  · exact .inl rfl
  · split
    · apply repositioned_seekTo
    · apply repositioned_seekTo
    · apply repositioned_seekTo
    · exact .inl rfl

theorem halFileWrite_infos {buf : Option (List UInt8)} {len : Nat} {j : Fin maxFileCnt}
    (h : writtenSlot s (.write fd buf len) ≠ some j) :
    (halFileWrite s fd buf len).1.infos j = s.infos j := by
  unfold halFileWrite
  split
  · rename_i i bytes hi
    simp only [writtenSlot, hi] at h
    dsimp only
    split
    · rfl
    · rename_i hlen
      rw [if_neg hlen] at h
      exact update_of_ne (fun heq => h (congrArg some heq.symm)) _ _
  · rfl

theorem step_sameCopy (hstep : step s e = some s') {j : Fin maxFileCnt}
    (hopened : openedSlot s e ≠ some j) (hwritten : writtenSlot s e ≠ some j)
    (hopen : (s'.infos j).fd ≠ invalidFd) : SameCopy (s.infos j) (s'.infos j) := by
  cases e with
  | openFile path oflag contentOk nameOk =>
    cases hstep
    simp only [openedSlot] at hopened
    rcases halFileOpen_cases s path oflag contentOk nameOk with
      ⟨longFileFg, heq⟩ | ⟨i, info, longFileFg, hnew, heq⟩
    · rw [heq]
      exact .of_eq rfl
    · rw [heq] at hopened ⊢
      have hfd : ¬ (i : Int) + 1 = fileErrGeneral := by
        unfold fileErrGeneral
        omega
      rw [if_neg hfd, hnew.free] at hopened
      exact .of_eq (update_of_ne (fun hj => hopened (congrArg some hj.symm)) _ _)
  | close fd =>
    cases hstep
    cases hget : fileGetInfo s fd with
    | none =>
      rw [halFileClose, hget]
      exact .of_eq rfl
    | some i =>
      rw [halFileClose_infos hget] at hopen ⊢
      rcases eq_or_ne j i with rfl | hne
      · rw [update_self] at hopen
        exact absurd rfl hopen
      · exact .of_eq (update_of_ne hne _ _)
  | read fd hasBuf len =>
    obtain ⟨-, rfl⟩ := ite_some_none_eq_some.mp hstep
    exact (repositioned_read s fd hasBuf len).sameCopy j
  | write =>
    obtain ⟨-, rfl⟩ := ite_some_none_eq_some.mp hstep
    exact .of_eq (halFileWrite_infos hwritten)
  | seek fd offset whence =>
    cases hstep
    exact (repositioned_seek s fd offset whence).sameCopy j
  | delete =>
    cases hstep
    unfold halFileDelete
    split
    · split
      · exact .of_eq rfl
      · exact .of_eq rfl
    · exact .of_eq rfl
  | stat path hasPtr contentOk nameOk result =>
    cases hstep
    exact .of_eq ((halFileStat_keeps s path hasPtr contentOk nameOk result).2 j hopen)

theorem step_opened (hstep : step s e = some s') {j : Fin maxFileCnt}
    (hopened : openedSlot s e = some j) (hloads : loadsStored s e = true) :
    storedContent s' (s'.infos j).fileName = some ((s'.infos j).content.take (s'.infos j).len) := by
  unfold openedSlot at hopened
  split at hopened
  · rename_i path oflag contentOk nameOk
    cases hstep
    obtain ⟨htrunc, hexists⟩ := Bool.and_eq_true_iff.mp hloads
    rcases halFileOpen_cases s path oflag contentOk nameOk with
      ⟨longFileFg, heq⟩ | ⟨i, info, longFileFg, hnew, heq⟩
    · rw [heq] at hopened
      cases hopened
    · rw [heq] at hopened ⊢
      split at hopened
      · cases hopened
      · rw [hnew.free] at hopened
        cases hopened
        simp only [Hal.setInfo, update_self]
        rw [hnew.fileName]
        apply hnew.loaded _ hexists
        rw [← Bool.not_eq_true']
        exact htrunc
  · cases hopened

theorem step_content (hstep : step s e = some s') (path : Path) :
    storedContent s' path = storedContent s path ∨ deletes path e = true ∨
      (∃ fd i result, e = .close fd result ∧ fileGetInfo s fd = some i ∧
        (s.infos i).fileName = path ∧ (result ≠ .envFull →
          storedContent s' path = some ((s.infos i).content.take (s.infos i).len))) ∨
      ∃ hasPtr contentOk nameOk, e = .stat path hasPtr contentOk nameOk .envFull := by
  cases e with
  | openFile key oflag contentOk nameOk =>
    cases hstep
    left
    rcases halFileOpen_cases s key oflag contentOk nameOk with
      ⟨longFileFg, heq⟩ | ⟨i, info, longFileFg, hnew, heq⟩
    · rw [heq]
      rfl
    · rw [heq]
      rfl
  | close fd result =>
    cases hstep
    cases hget : fileGetInfo s fd with
    | none =>
      left
      rw [halFileClose, hget]
    | some i =>
      by_cases hfull : result = .envFull ∧ path = (s.infos i).fileName
      · exact .inr (.inr (.inl ⟨fd, i, result, rfl, hget, hfull.2.symm, fun h => absurd hfull.1 h⟩))
      · rw [storedContent_close hget fun hres hkey => hfull ⟨hres, hkey⟩]
        split
        · rename_i hkey
          exact .inr (.inr (.inl ⟨fd, i, result, rfl, hget, hkey.2.symm, fun _ => rfl⟩))
        · exact .inl rfl
  | read =>
    obtain ⟨-, rfl⟩ := ite_some_none_eq_some.mp hstep
    left
    unfold halFileRead
    split
    · rfl
    · split
      · dsimp only
        split <;> rfl
      · rfl
  | write =>
    obtain ⟨-, rfl⟩ := ite_some_none_eq_some.mp hstep
    left
    unfold halFileWrite
    split
    · dsimp only
      split <;> rfl
    · rfl
  | seek fd offset whence =>
    cases hstep
    exact .inl ((repositioned_seek s fd offset whence).storedContent path)
  | delete key =>
    cases hstep
    rcases eq_or_ne path key with rfl | hne
    · exact .inr (.inl (decide_eq_true rfl))
    · left
      unfold halFileDelete
      split
      · split
        · simp only [storedContent, update_of_ne hne]
        · rfl
      · rfl
  | stat key hasPtr contentOk nameOk result =>
    cases hstep
    by_cases hfull : result = .envFull ∧ path = key
    · obtain ⟨rfl, rfl⟩ := hfull
      exact .inr (.inr (.inr ⟨hasPtr, contentOk, nameOk, rfl⟩))
    · left
      apply (halFileStat_keeps s key hasPtr contentOk nameOk result).1
      exact fun hres hkey => hfull ⟨hres, hkey⟩

theorem closes_eq_true {flag : Fin maxFileCnt → Bool} (h : closes s flag path e = true) :
    ∃ i, closedSlot s e = some i ∧ (s.infos i).fileName = path ∧ flag i = true := by
  unfold closes at h
  split at h
  · cases h
  · rename_i i hi
    obtain ⟨hname, hflag⟩ := Bool.and_eq_true_iff.mp h
    exact ⟨i, hi, of_decide_eq_true hname, hflag⟩

theorem closes_of_closedSlot {flag : Fin maxFileCnt → Bool} {i : Fin maxFileCnt}
    (hi : closedSlot s e = some i) (hflag : flag i = true) :
    closes s flag (s.infos i).fileName e = true := by
  rw [closes, hi]
  simp only [decide_true, hflag, Bool.and_self]

theorem closedSlot_open {i : Fin maxFileCnt} (h : closedSlot s e = some i) :
    (s.infos i).fd ≠ invalidFd := by
  unfold closedSlot at h
  split at h
  · exact fileGetInfo_fd h
  · cases h

end Steps

structure SessionInv (r : Observed) : Prop where
  copies : ∀ i, (r.hal.infos i).fd ≠ invalidFd → r.asStored i = true →
    storedContent r.hal (r.hal.infos i).fileName =
      some ((r.hal.infos i).content.take (r.hal.infos i).len)
  unsettled : ∀ i, (r.hal.infos i).fd ≠ invalidFd → r.wrote i = true →
    r.settled (r.hal.infos i).fileName = false → r.wroteSince i = true
  kept : ContentKept r

section Observer

variable {r : Observed} {e : HalFile.Event} {s : Hal}

section

variable (h : SessionInv r)
include h

theorem SessionInv.copies_after (hstep : step r.hal e = some s) (i : Fin maxFileCnt)
    (hopen : (s.infos i).fd ≠ invalidFd) (hstored : (r.after e s).asStored i = true) :
    storedContent s (s.infos i).fileName =
      some ((s.infos i).content.take (s.infos i).len) := by
  simp only [Observed.after] at hstored
  split at hstored
  · rename_i hopened
    exact step_opened hstep hopened hstored
  · rename_i hopened
    split at hstored
    · cases hstored
    · rename_i hwritten
      obtain ⟨hold, hsame⟩ := Bool.and_eq_true_iff.mp hstored
      have hcopy := step_sameCopy hstep hopened hwritten hopen
      rw [hcopy.fileName, hcopy.content, hcopy.len, of_decide_eq_true hsame]
      rw [hcopy.fd] at hopen
      exact h.copies i hopen hold

theorem SessionInv.unsettled_after (hstep : step r.hal e = some s) (i : Fin maxFileCnt)
    (hopen : (s.infos i).fd ≠ invalidFd) (hwrote : (r.after e s).wrote i = true)
    (hunsettled : (r.after e s).settled (s.infos i).fileName = false) :
    (r.after e s).wroteSince i = true := by
  simp only [Observed.after] at hwrote hunsettled ⊢
  split at hwrote
  · cases hwrote
  · rename_i hopened
    rw [if_neg hopened]
    split at hwrote
    · rename_i hwritten
      rw [if_pos hwritten]
    · rename_i hwritten
      rw [if_neg hwritten]
      have hcopy := step_sameCopy hstep hopened hwritten hopen
      rw [hcopy.fileName] at hunsettled
      rw [hcopy.fd] at hopen
      obtain ⟨hold, hcloses⟩ := Bool.or_eq_false_iff.mp hunsettled
      rw [h.unsettled i hopen hwrote hold, hcloses]
      rfl

theorem SessionInv.settled_or_closes (hsettled : (r.after e s).settled path = true) :
    r.settled path = true ∨ closes r.hal r.wroteSince path e = true := by
  rcases Bool.or_eq_true_iff.mp hsettled with hold | hcloses
  · exact .inl hold
  · obtain ⟨i, hi, rfl, hwrote⟩ := closes_eq_true hcloses
    cases hold : r.settled (r.hal.infos i).fileName with
    | true => exact .inl rfl
    | false =>
      right
      apply closes_of_closedSlot hi
      exact h.unsettled i (closedSlot_open hi) hwrote hold

theorem SessionInv.kept_after (hok : ClosesCurrent r e) (hstep : step r.hal e = some s) :
    ContentKept (r.after e s) := by
  intro path hsettled
  show storedContent s path = if _ then storedContent s path else r.left path
  split
  · rfl
  · rename_i hleft
    rw [Bool.or_eq_true_iff, not_or] at hleft
    have hold := (h.settled_or_closes hsettled).resolve_right hleft.1
    rw [← h.kept path hold]
    rcases step_content hstep path with hkeeps | hdeletes |
      ⟨fd, i, result, rfl, hget, rfl, hcopy⟩ | ⟨hasPtr, contentOk, nameOk, rfl⟩
    · exact hkeeps
    · exact absurd hdeletes hleft.2
    · rcases hok i hget hold with hsince | ⟨hstored, hresult⟩
      · exact absurd (closes_of_closedSlot (e := .close fd result) hget hsince) hleft.1
      · rw [hcopy hresult, h.copies i (fileGetInfo_fd hget) hstored]
    · exact absurd rfl (hok hold)

theorem SessionInv.observe {r' : Observed} (hok : ClosesCurrent r e)
    (hstep : observe r e = some r') : SessionInv r' := by
  obtain ⟨s, hs, rfl⟩ := map_eq_some_iff.mp hstep
  exact ⟨h.copies_after hs, h.unsettled_after hs, h.kept_after hok hs⟩

end

end Observer

theorem sessionInv_init (store : Store) : SessionInv (Observed.init store) := ⟨nofun, nofun, nofun⟩

/-- As long as no outdated copy is closed, a file on which a writing session has been closed
holds what the last close after a write, or the last deletion, has left. -/
theorem reached_contentKept (store : Store) {r : Observed}
    (h : Reached observe ClosesCurrent (Observed.init store) r) : ContentKept r := by
  have hinv : SessionInv r := h.invariant SessionInv (sessionInv_init store)
    fun _ _ _ hr hok hstep => hr.observe hok hstep
  exact hinv.kept

-- The second descriptor writes and is closed, the first writes after that, and a third
-- only looks at the file, as `HalFileStat` does.
theorem reached_contentKept_overlapping :
    ∃ r, Reached observe ClosesCurrent (Observed.init storedFile) r ∧
      (r.settled "a".toList = true ∧ storedContent r.hal "a".toList = some [7, 0, 2]) ∧
      ContentKept r :=
  exists_reached_and (fun _ => reached_contentKept storedFile)
    [.openFile "a".toList .rdonly true true, .openFile "a".toList .rdonly true true,
      .write 2 (some [9]) 1, .close 2 .stored, .write 1 (some [7]) 1, .close 1 .stored,
      .openFile "a".toList .rdonly true true, .stat "a".toList true true true .stored,
      .read 1 true 3, .close 1 .stored] (by decide)

-- The first descriptor has only read, and its close puts back what the second one, closed
-- before it, has replaced.
theorem close_puts_older_content_back :
    ¬ ∀ store r, Reached observe anyStep (Observed.init store) r → ContentKept r := by
  intro hall
  obtain ⟨r, hreached, hsettled, hcontent, hleft⟩ := exists_reached observe anyStep
    (Observed.init storedFile) (fun r => r.settled "a".toList = true ∧
      storedContent r.hal "a".toList = some [1, 0, 2] ∧ r.left "a".toList = some [9, 0, 2])
    [.openFile "a".toList .rdonly true true, .openFile "a".toList .rdonly true true,
      .read 1 true 3, .write 2 (some [9]) 1, .close 2 .stored, .close 1 .stored] (by decide)
  have hkept := hall storedFile r hreached "a".toList hsettled
  rw [hcontent, hleft] at hkept
  exact absurd hkept (by decide)

end BekenSoc.HalFileSessions
