import BekenSoc.CRuntime
import Mathlib.Data.List.Infix

/-!
The file interface over the key-value store of the flash (`hal_file.c`).

An open file is a buffer in RAM that is filled from the store when it is opened, and
stored as a whole when it is closed.
-/

namespace BekenSoc.HalFile

open CRuntime

abbrev Path := List Char

abbrev maxFileCnt : Nat := 32
def maxFileNameLen : Nat := 63
def maxFileLength : Nat := 1024
def maxFileTimerLength : Nat := 3072

def invalidFd : Int := -1
def fileErrGeneral : Int := -1

def escChar1 : UInt8 := 0
def escChar2 : UInt8 := 0xDB
def repChar1 : UInt8 := 0xDC
def repChar2 : UInt8 := 0xDD
def magicChar : UInt8 := 0x26

def encodeByte (b : UInt8) : List UInt8 :=
  if b = escChar1 then [escChar2, repChar1]
  else if b = escChar2 then [escChar2, repChar2]
  else [b]

def fileEncode (bufIn : List UInt8) : List UInt8 := bufIn.flatMap encodeByte

def decodeLoop : List UInt8 → List UInt8 × Bool
  | [] => ([], true)
  | [b] => if b = escChar2 then ([], false) else ([b], true)
  | b :: r :: rest =>
    if b = escChar2 then
      if r = repChar1 then (escChar1 :: (decodeLoop rest).1, (decodeLoop rest).2)
      else if r = repChar2 then (escChar2 :: (decodeLoop rest).1, (decodeLoop rest).2)
      else ([], false)
    else (b :: (decodeLoop (r :: rest)).1, (decodeLoop (r :: rest)).2)

def fileDecode (bufIn : List UInt8) : Nat × List UInt8 :=
  let r := decodeLoop bufIn
  (if r.2 then r.1.length else 0, r.1)

abbrev Store := Path → Option (List UInt8)

/-- `struct file_info`.  `cap` is not in the code: it is the size that `content` was
allocated with. -/
structure FileInfo where
  fileName : Path
  fd : Int
  content : List UInt8
  len : Nat
  offset : Nat
  cap : Nat

def FileInfo.closed : FileInfo := ⟨[], invalidFd, [], 0, 0, 0⟩

structure Hal where
  infos : Fin maxFileCnt → FileInfo
  longFileFg : Bool
  store : Store

def Hal.init (store : Store) : Hal := ⟨fun _ => .closed, false, store⟩

def Hal.setInfo (s : Hal) (i : Fin maxFileCnt) (info : FileInfo) : Hal :=
  { s with infos := Function.update s.infos i info }

structure OFlag where
  creat : Bool
  excl : Bool
  trunc : Bool
  append : Bool
  deriving DecidableEq

def OFlag.rdonly : OFlag := ⟨false, false, false, false⟩

inductive Whence
  | set
  | cur
  | fromEnd
  | other
  deriving DecidableEq

def fileExist (s : Hal) (key : Path) : Bool := (s.store key).isSome

def fileLoad (s : Hal) (key : Path) (buffer : List UInt8) : Nat × List UInt8 :=
  match s.store key with
  | some (b :: value) =>
    if b = magicChar then
      let r := fileDecode value
      (r.1, memcpy buffer r.2 r.2.length)
    else (0, buffer)
  | _ => (0, buffer)

def saved (value : List UInt8) : List UInt8 :=
  (magicChar :: fileEncode value).takeWhile fun b => decide (b ≠ 0)

/-- How `ef_set_and_save_env` ends in `file_save`.  The store is the cache of the environment,
which `ef_get_env` reads; it has the new value even if it cannot be written to the flash. -/
inductive SaveResult
  /-- there is no memory for the encoding, or the environment does not take the name -/
  | refused
  /-- `EF_ENV_FULL`: an old value that differs has been deleted by then -/
  | envFull
  | stored
  deriving DecidableEq

def fileSave (s : Hal) (key : Path) (value : List UInt8) (len : Nat) : SaveResult → Hal
  | .refused => s
  | .envFull =>
    if s.store key = some (saved (value.take len)) then s
    else { s with store := Function.update s.store key none }
  | .stored => { s with store := Function.update s.store key (some (saved (value.take len))) }

def fileGetInfo (s : Hal) (fd : Int) : Option (Fin maxFileCnt) :=
  if h : 0 < fd.toNat ∧ fd.toNat ≤ maxFileCnt then
    let i : Fin maxFileCnt := ⟨fd.toNat - 1, by omega⟩
    if (s.infos i).fd = fd then some i else none
  else none

def freeSlot (s : Hal) : Option (Fin maxFileCnt) :=
  (List.finRange maxFileCnt).find? fun i => decide ((s.infos i).fd = invalidFd)

def isLongFile (path : Path) : Bool :=
  decide ("config.cfg".toList <:+: path) || decide ("config_bak.cfg".toList <:+: path) ||
    decide ("timer.cfg".toList <:+: path) || decide ("hilink_timer".toList <:+: path) ||
    decide ("hilink_running".toList <:+: path)

def bufferSize (longFile : Bool) : Nat := if longFile then maxFileTimerLength else maxFileLength

def halFileOpen (s : Hal) (path : Path) (oflag : OFlag) (contentOk nameOk : Bool) : Hal × Int :=
  match freeSlot s with
  | none => (s, fileErrGeneral)
  | some i =>
    if maxFileNameLen < path.length then (s, fileErrGeneral)
    else if !oflag.creat && !fileExist s path then (s, fileErrGeneral)
    else if oflag.excl && fileExist s path then (s, fileErrGeneral)
    else
      let s' := { s with longFileFg := isLongFile path }
      let size := bufferSize s'.longFileFg
      if contentOk && nameOk then
        let buffer := List.replicate size 0
        let loaded := if oflag.trunc then (0, buffer) else fileLoad s' path buffer
        let offset := if oflag.append then loaded.1 else 0
        (s'.setInfo i ⟨path, i + 1, loaded.2, loaded.1, offset, size⟩, i + 1)
      else (s', fileErrGeneral)

def halFileClose (s : Hal) (fd : Int) (result : SaveResult) : Hal × Int :=
  match fileGetInfo s fd with
  | none => (s, fileErrGeneral)
  | some i =>
    let info := s.infos i
    ((fileSave s info.fileName info.content info.len result).setInfo i
      { info with fd := invalidFd }, 0)

def toInt32 (x : Int) : Int := x.bmod (2 ^ 32)

def readLen (info : FileInfo) (len : Nat) : Nat :=
  if info.len < addU32 info.offset len then subU32 info.len info.offset else len

def halFileRead (s : Hal) (fd : Int) (hasBuf : Bool) (len : Nat) : Hal × Int × List UInt8 :=
  match fileGetInfo s fd with
  | none => (s, fileErrGeneral, [])
  | some i =>
    if hasBuf then
      let info := s.infos i
      let len := readLen info len
      if len = 0 then (s, 0, [])
      else
        (s.setInfo i { info with offset := addU32 info.offset len }, toInt32 len,
          (info.content.drop info.offset).take len)
    else (s, fileErrGeneral, [])

def writeLen (longFileFg : Bool) (info : FileInfo) (len : Nat) : Nat :=
  if bufferSize longFileFg < addU32 info.offset len then
    subU32 (bufferSize longFileFg) info.offset
  else len

/-- The descriptor after `HalFileWrite` has copied `len` bytes.  A copy past the end
of `content` makes the list longer; what it destroys there is not in the model. -/
def FileInfo.written (info : FileInfo) (buf : List UInt8) (len : Nat) : FileInfo :=
  let offset := addU32 info.offset len
  { info with
    content := info.content.take info.offset ++ memcpy (info.content.drop info.offset) buf len
    offset := offset
    len := if info.len < offset then offset else info.len }

def halFileWrite (s : Hal) (fd : Int) (buf : Option (List UInt8)) (len : Nat) : Hal × Int :=
  match fileGetInfo s fd, buf with
  | some i, some buf =>
    let len := writeLen s.longFileFg (s.infos i) len
    if len = 0 then (s, 0)
    else (s.setInfo i ((s.infos i).written buf len), toInt32 len)
  | _, _ => (s, fileErrGeneral)

def seekTo (s : Hal) (i : Fin maxFileCnt) (target : Int) : Hal × Int :=
  if target < 0 then (s, fileErrGeneral)
  else if ((s.infos i).len : Int) < target then (s, fileErrGeneral)
  else (s.setInfo i { s.infos i with offset := target.toNat }, target)

def halFileSeek (s : Hal) (fd : Int) (offset : Int) (whence : Whence) : Hal × Int :=
  match fileGetInfo s fd with
  | none => (s, fileErrGeneral)
  | some i =>
    match whence with
    | .set => seekTo s i (toInt32 (0 + offset))
    | .cur => seekTo s i (toInt32 (toInt32 (s.infos i).offset + offset))
    | .fromEnd => seekTo s i (toInt32 (toInt32 (s.infos i).len + offset))
    | .other => (s, fileErrGeneral)

def halFileDelete (s : Hal) (path : Path) (done : Bool) : Hal × Int :=
  if fileExist s path then
    (if done then { s with store := Function.update s.store path none } else s, 0)
  else (s, fileErrGeneral)

def halFileStat (s : Hal) (path : Path) (hasPtr contentOk nameOk : Bool) (result : SaveResult) :
    Hal × Int × Option Nat :=
  if hasPtr then
    let r := halFileOpen s path .rdonly contentOk nameOk
    if r.2 ≤ 0 then (r.1, fileErrGeneral, none)
    else
      match fileGetInfo r.1 r.2 with
      | none => ((halFileClose r.1 r.2 result).1, fileErrGeneral, none)
      | some i => ((halFileClose r.1 r.2 result).1, 0, some (r.1.infos i).len)
  else (s, fileErrGeneral, none)

inductive Event
  | openFile (path : Path) (oflag : OFlag) (contentOk nameOk : Bool)
  | close (fd : Int) (result : SaveResult)
  | read (fd : Int) (hasBuf : Bool) (len : Nat)
  | write (fd : Int) (buf : Option (List UInt8)) (len : Nat)
  | seek (fd : Int) (offset : Int) (whence : Whence)
  | delete (path : Path) (done : Bool)
  | stat (path : Path) (hasPtr contentOk nameOk : Bool) (result : SaveResult)
  deriving DecidableEq

def CopyEnds (s : Hal) (fd : Int) (len : FileInfo → Nat) : Prop :=
  ∀ i, fileGetInfo s fd = some i → (s.infos i).offset + len (s.infos i) < 2 ^ 32

instance (s : Hal) (fd : Int) (len : FileInfo → Nat) : Decidable (CopyEnds s fd len) :=
  inferInstanceAs (Decidable (∀ _, _ → _))

def step (s : Hal) : Event → Option Hal
  | .openFile path oflag contentOk nameOk => some (halFileOpen s path oflag contentOk nameOk).1
  | .close fd result => some (halFileClose s fd result).1
  | .read fd hasBuf len =>
    if len < 2 ^ 32 ∧ (hasBuf = false ∨ CopyEnds s fd fun info => readLen info len) then
      some (halFileRead s fd hasBuf len).1
    else none
  | .write fd buf len =>
    if len < 2 ^ 32 ∧ (buf = none ∨ CopyEnds s fd fun info => writeLen s.longFileFg info len) then
      some (halFileWrite s fd buf len).1
    else none
  | .seek fd offset whence => some (halFileSeek s fd offset whence).1
  | .delete path done => some (halFileDelete s path done).1
  | .stat path hasPtr contentOk nameOk result =>
    some (halFileStat s path hasPtr contentOk nameOk result).1

end BekenSoc.HalFile
