import BekenSoc.CRuntime

/-!
The modules whose log is off, in `printf.c`, and the command of `cli_main.c` that lists them.

The table has room for 20 names; the list is written without a look at the length of the
buffer.
-/

namespace BekenSoc.ModuleLogs

open CRuntime List

structure ModTag where
  modName : List UInt8
  disabled : Bool
  deriving DecidableEq

def modTagCount : Nat := 20

def modNameLen : Nat := 14

def shellRspBufLen : Nat := 200

def initialTags : List ModTag := replicate modTagCount ⟨[], false⟩

def ModTag.matches (modName : List UInt8) (t : ModTag) : Bool :=
  t.disabled && strncmpEq modNameLen t.modName modName

def findSlot (modName : List UInt8) : Nat → Nat → List ModTag → Option Nat
  | _, j, [] => some j
  | i, j, t :: rest =>
    if t.disabled then
      if t.matches modName then none else findSlot modName (i + 1) j rest
    else findSlot modName (i + 1) i rest

def bkDisableModPrintf (tags : List ModTag) (modName : List UInt8) (disable : Bool) : List ModTag :=
  if disable then
    match findSlot modName 0 modTagCount tags with
    | none => tags
    | some j => tags.set j ⟨modName.take modNameLen, true⟩
  else tags.map fun t => if t.matches modName then { t with disabled := false } else t

def getDisableMod : Nat → List ModTag → Nat × Option (List UInt8)
  | idx, [] => (idx, none)
  | idx, t :: rest => if t.disabled then (idx + 1, some t.modName) else getDisableMod (idx + 1) rest

def bkGetDisableMod (tags : List ModTag) (idx : Nat) : Nat × Option (List UInt8) :=
  getDisableMod idx (tags.drop idx)

def text (str : String) : List UInt8 := str.toList.map fun c => c.toNat.toUInt8

def listLoop (tags : List ModTag) : Nat → Nat → List UInt8 → List UInt8
  | 0, _, out => out
  | fuel + 1, i, out =>
    match bkGetDisableMod tags i with
    | (_, none) => out
    | (i, some modName) =>
      listLoop tags fuel i (if out = [] then text "disabled mod list:\r\n" ++ modName ++ text "\r\n"
         else out ++ modName ++ text "\r\n")

def listDisabled (tags : List ModTag) : List UInt8 :=
  listLoop tags (tags.length + 1) 0 (text "Usage: modlog tag_name on/off\r\n")

def strcasecmpEq (s t : List UInt8) : Bool :=
  let lower := fun b : UInt8 => if 0x41 ≤ b ∧ b ≤ 0x5a then b + 0x20 else b
  s.map lower == t.map lower

def cliLogDisable (tags : List ModTag) (argv : List (List UInt8)) : List ModTag × List UInt8 :=
  match argv with
  | _ :: modName :: mode :: _ =>
    (if strcasecmpEq mode (text "on") then bkDisableModPrintf tags modName false
     else if strcasecmpEq mode (text "off") then bkDisableModPrintf tags modName true
     else tags, [])
  | _ => (tags, listDisabled tags)

def written (tags : List ModTag) : Nat := (cliLogDisable tags [text "modlog"]).2.length + 1

def runCalls (history : List (List UInt8 × Bool)) : List ModTag :=
  history.foldl (fun tags call => bkDisableModPrintf tags call.1 call.2) initialTags

def disabledCount (tags : List ModTag) : Nat := tags.countP ModTag.disabled

variable {tags : List ModTag} {modName : List UInt8}

def entries (tags : List ModTag) : List UInt8 :=
  tags.flatMap fun t => if t.disabled then t.modName ++ text "\r\n" else []

theorem getDisableMod_cases (idx : Nat) (tags : List ModTag) :
    (getDisableMod idx tags).2 = none ∧ entries tags = [] ∨
      ∃ n modName, getDisableMod idx tags = (idx + n + 1, some modName) ∧
        entries tags = modName ++ text "\r\n" ++ entries (tags.drop (n + 1)) := by
  induction tags generalizing idx with
  | nil => exact .inl ⟨rfl, rfl⟩
  | cons t rest ih =>
    rw [getDisableMod, entries, flatMap_cons]
    by_cases ht : t.disabled
    · rw [if_pos ht, if_pos ht]
      exact .inr ⟨0, t.modName, rfl, rfl⟩
    · rw [if_neg ht, if_neg ht, nil_append]
      refine (ih (idx + 1)).imp_right ?_
      rintro ⟨n, modName, hnext, hrest⟩
      exact ⟨n + 1, modName, by rw [hnext, Nat.add_assoc idx 1 n, Nat.add_comm 1 n], hrest⟩

theorem listLoop_eq {fuel i : Nat} {out : List UInt8} (hfuel : tags.length < i + fuel)
    (hout : out ≠ []) : listLoop tags fuel i out = out ++ entries (tags.drop i) := by
  induction fuel generalizing i out with
  | zero =>
    rw [drop_eq_nil_of_le (by omega)]
    exact (append_nil out).symm
  | succ fuel ih =>
    rw [listLoop, bkGetDisableMod]
    rcases getDisableMod_cases i (tags.drop i) with ⟨hnone, hentries⟩ | ⟨n, modName, hnext, hrest⟩
    · rw [hentries, append_nil]
      split
      · rfl
      · rename_i hsome
        rw [hsome] at hnone
        cases hnone
    · rw [hnext]
      dsimp only
      rw [if_neg hout, ih (by omega) (by simp [hout]), hrest, drop_drop]
      simp only [append_assoc, Nat.add_assoc]

theorem written_eq (tags : List ModTag) : written tags = 32 + (entries tags).length := by
  have husage : (text "Usage: modlog tag_name on/off\r\n").length = 31 := by decide
  have hlist : (cliLogDisable tags [text "modlog"]).2 =
      text "Usage: modlog tag_name on/off\r\n" ++ entries tags :=
    listLoop_eq (i := 0) (by omega) (ne_nil_of_length_pos (by rw [husage]; decide))
  rw [written, hlist, length_append, husage]
  omega

structure TagsInv (tags : List ModTag) : Prop where
  length : tags.length = modTagCount
  names : ∀ t ∈ tags, t.modName.length ≤ modNameLen

theorem TagsInv.call (h : TagsInv tags) (modName : List UInt8) (disable : Bool) :
    TagsInv (bkDisableModPrintf tags modName disable) := by
  rw [bkDisableModPrintf]
  split
  · split
    · exact h
    · refine ⟨by rw [length_set, h.length], fun t ht => ?_⟩
      rcases mem_or_eq_of_mem_set ht with hold | rfl
      · exact h.names t hold
      · exact length_take_le _ _
  · refine ⟨by rw [length_map, h.length], fun t ht => ?_⟩
    obtain ⟨u, hu, rfl⟩ := mem_map.mp ht
    split <;> exact h.names u hu

theorem tagsInv_runCalls (history : List (List UInt8 × Bool)) : TagsInv (runCalls history) := by
  have hinit : TagsInv initialTags := by
    refine ⟨length_replicate, fun t ht => ?_⟩
    rw [eq_of_mem_replicate ht]
    exact Nat.zero_le _
  suffices hrun : ∀ tags, TagsInv tags →
      TagsInv (history.foldl (fun tags call => bkDisableModPrintf tags call.1 call.2) tags) from
    hrun _ hinit
  induction history with
  | nil => exact fun tags h => h
  | cons call history ih => exact fun tags h => ih _ (h.call call.1 call.2)

theorem length_entries_le (h : ∀ t ∈ tags, t.modName.length ≤ modNameLen) :
    (entries tags).length ≤ 16 * disabledCount tags := by
  induction tags with
  | nil => exact Nat.zero_le _
  | cons t rest ih =>
    have hrest := ih fun u hu => h u (mem_cons_of_mem t hu)
    have ht := h t (mem_cons_self ..)
    have hline : (text "\r\n").length = 2 := by decide
    rw [modNameLen] at ht
    rw [entries] at hrest ⊢
    rw [flatMap_cons, length_append, disabledCount, countP_cons]
    rw [disabledCount] at hrest
    split
    · rw [length_append, hline]
      omega
    · rw [length_nil]
      omega

def longNames (m : Nat) : List (List UInt8 × Bool) :=
  (range m).map fun i => ((i + 1).toUInt8 :: replicate 13 0x78, true)

theorem written_longNames : ∀ m < 21, disabledCount (runCalls (longNames m)) = m ∧
    written (runCalls (longNames m)) = 32 + 16 * m := by
  decide +kernel

/-- With up to `m` modules off the list fits a buffer after every history, exactly if the buffer
has the usage, `m` lines of 16 bytes and a terminator. -/
theorem listing_fits_iff {m : Nat} (hm : m ≤ modTagCount) (xWriteBufferLen : Nat) :
    (∀ history, disabledCount (runCalls history) ≤ m →
        written (runCalls history) ≤ xWriteBufferLen) ↔ 32 + 16 * m ≤ xWriteBufferLen := by
  constructor
  · intro h
    rw [modTagCount] at hm
    obtain ⟨hcount, hwritten⟩ := written_longNames m (by omega)
    rw [← hwritten]
    exact h (longNames m) (Nat.le_of_eq hcount)
  · intro hroom history hcount
    have hlen := length_entries_le (tagsInv_runCalls history).names
    rw [written_eq]
    omega

theorem listing_fits_iff_ten : written (runCalls (longNames 10)) ≤ shellRspBufLen :=
  (listing_fits_iff (m := 10) (by decide) shellRspBufLen).mpr (by decide) _ (by decide +kernel)

-- Eleven long names take 208 bytes of the 200 that the shell gives to a command.
theorem listing_overruns_rsp : ¬ written (runCalls (longNames 11)) ≤ shellRspBufLen := by
  decide +kernel

end BekenSoc.ModuleLogs
