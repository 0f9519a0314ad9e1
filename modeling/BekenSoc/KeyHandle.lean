import Mathlib.Data.List.Induction
import BekenSoc.CRuntime
import BekenSoc.GuardedRuns

/-!
The key and the card detection of `key_handle.c`, for one sample of each pin in every scan.
-/

namespace BekenSoc.KeyHandle

open CRuntime GuardedRuns List

section Key

def keyShortupCounter : Nat := 3
def keyLongCounter : Nat := 80
def keyLongupCounter : Nat := 84
def keyHoldCounter : Nat := 110

inductive KeyVal
  | msgNoKey
  | msgKeyPlay
  deriving DecidableEq

/-- A message: the key value, alone or with one of the bits `KEY_LONG`, `KEY_HOLD` and
`KEY_LONG_UP`. -/
inductive KeyMsg
  | short (keyval : KeyVal)
  | long (keyval : KeyVal)
  | hold (keyval : KeyVal)
  | longUp (keyval : KeyVal)
  deriving DecidableEq

structure Key where
  backupKeyval : KeyVal
  keycount : Nat

def Key.init : Key := ⟨.msgNoKey, 0⟩

def keyDetectHandle (s : Key) (keyval : KeyVal) : Key × List KeyMsg :=
  if keyval = .msgNoKey then
    (⟨.msgNoKey, 0⟩, if keyShortupCounter ≤ s.keycount then
      [if keyLongCounter < s.keycount then .longUp s.backupKeyval else .short s.backupKeyval]
      else [])
  else
    let keycount := addU16 (if keyval ≠ s.backupKeyval then 0 else s.keycount) 1
    if keycount = keyLongCounter then (⟨keyval, keycount⟩, [.long keyval])
    else if keycount = keyHoldCounter then (⟨keyval, keyLongupCounter⟩, [.hold keyval])
    else (⟨keyval, keycount⟩, [])

def keyAfter (samples : List KeyVal) : Key :=
  samples.foldl (fun s keyval => (keyDetectHandle s keyval).1) .init

def pressMessages (s : Key) (n : Nat) : List KeyMsg :=
  (runOutputs keyDetectHandle s (replicate n .msgKeyPlay ++ [.msgNoKey])).2.flatten

def LawfulPress (msgs : List KeyMsg) : Prop :=
  msgs = [.short .msgKeyPlay] ∨
    ∃ k, msgs = .long .msgKeyPlay :: replicate k (.hold .msgKeyPlay) ++ [.longUp .msgKeyPlay]

theorem pressMessages_succ (s : Key) (n : Nat) : pressMessages s (n + 1) =
    (keyDetectHandle s .msgKeyPlay).2 ++ pressMessages (keyDetectHandle s .msgKeyPlay).1 n := by
  rw [pressMessages, replicate_succ, cons_append, runOutputs]
  rfl

theorem pressMessages_held {c : Nat} (hlong : keyLongCounter < c) (hhold : c < keyHoldCounter)
    (n : Nat) : ∃ k, pressMessages ⟨.msgKeyPlay, c⟩ n =
      replicate k (.hold .msgKeyPlay) ++ [.longUp .msgKeyPlay] := by
  simp only [keyLongCounter, keyHoldCounter] at hlong hhold
  induction n generalizing c with
  | zero =>
    refine ⟨0, ?_⟩
    simp [pressMessages, runOutputs, keyDetectHandle, keyShortupCounter, keyLongCounter, hlong,
      show 3 ≤ c by omega]
  | succ n ih =>
    rw [pressMessages_succ]
    have hnext : addU16 c 1 = c + 1 := Nat.mod_eq_of_lt (by omega)
    by_cases hc : c + 1 = 110
    · obtain ⟨k, hk⟩ := @ih keyLongupCounter (by decide) (by decide)
      refine ⟨k + 1, ?_⟩
      simp [keyDetectHandle, hnext, hc, keyLongCounter, keyHoldCounter, hk, replicate_succ]
    · obtain ⟨k, hk⟩ := ih (show 80 < c + 1 by omega) (by omega)
      refine ⟨k, ?_⟩
      simp [keyDetectHandle, hnext, hc, keyLongCounter, keyHoldCounter, hk,
        show c + 1 ≠ 80 by omega]

/-- A press from the count `c` on, by the count at its release. -/
theorem lawful_pressMessages_iff {c n : Nat} (hc : c < keyLongCounter)
    (hn : keyShortupCounter ≤ c + n) :
    LawfulPress (pressMessages ⟨.msgKeyPlay, c⟩ n) ↔ c + n ≠ keyLongCounter := by
  simp only [keyLongCounter, keyShortupCounter] at hc hn ⊢
  induction n generalizing c with
  | zero =>
    refine iff_of_true (.inl ?_) (by omega)
    simp [pressMessages, runOutputs, keyDetectHandle, keyShortupCounter, keyLongCounter,
      show 3 ≤ c by omega, show ¬ 80 < c by omega]
  | succ n ih =>
    rw [pressMessages_succ]
    have hnext : addU16 c 1 = c + 1 := Nat.mod_eq_of_lt (by omega)
    by_cases hlong : c + 1 = 80
    · have hstep : keyDetectHandle ⟨.msgKeyPlay, c⟩ .msgKeyPlay =
          (⟨.msgKeyPlay, 80⟩, [.long .msgKeyPlay]) := by
        simp [keyDetectHandle, hnext, hlong, keyLongCounter]
      rw [hstep]
      cases n with
      | zero =>
        refine iff_of_false ?_ (by omega)
        rintro (h | ⟨k, h⟩)
        · cases h
        · cases k <;> cases h
      | succ n =>
        obtain ⟨k, hk⟩ := @pressMessages_held 81 (by decide) (by decide) n
        exact iff_of_true (.inr ⟨k, by rw [pressMessages_succ]; exact congrArg _ hk⟩) (by omega)
    · have hstep : keyDetectHandle ⟨.msgKeyPlay, c⟩ .msgKeyPlay = (⟨.msgKeyPlay, c + 1⟩, []) := by
        simp [keyDetectHandle, hnext, hlong, keyLongCounter, keyHoldCounter,
          show c + 1 ≠ 110 by omega]
      rw [hstep, nil_append, ih (by omega) (by omega)]
      omega

/-- After any samples that end with the key released, a press of at least
`KEY_SHORTUP_COUNTER` samples sends one of the two sequences, unless it has exactly
`KEY_LONG_COUNTER` samples. -/
theorem press_lawful_iff (samples : List KeyVal)
    (hreleased : samples = [] ∨ samples.getLast? = some .msgNoKey) (n : Nat)
    (hn : keyShortupCounter ≤ n) :
    LawfulPress (pressMessages (keyAfter samples) n) ↔ n ≠ keyLongCounter := by
  have hstart : keyAfter samples = .init := by
    obtain rfl | hlast := hreleased
    · rfl
    · obtain ⟨before, rfl⟩ := getLast?_eq_some_iff.mp hlast
      rw [keyAfter, foldl_append]
      rfl
  obtain _ | n := n
  · cases hn
  have hfirst : keyDetectHandle .init .msgKeyPlay = (⟨.msgKeyPlay, 1⟩, []) := rfl
  rw [hstart, pressMessages_succ, hfirst, nil_append,
    lawful_pressMessages_iff (by decide) (by omega), Nat.add_comm]

theorem press_lawful_iff_ten : LawfulPress (pressMessages (keyAfter [.msgKeyPlay, .msgNoKey]) 10) :=
  (press_lawful_iff [.msgKeyPlay, .msgNoKey] (.inr rfl) 10 (by decide)).mpr (by decide)

-- the long message at the last sample, and the release finds the count not above it
theorem long_press_ends_short :
    pressMessages .init keyLongCounter = [.long .msgKeyPlay, .short .msgKeyPlay] := by
  decide

end Key

section Card

def sdDebounceCount : Nat := 50

inductive SdMsg
  | attach
  | detach
  deriving DecidableEq

structure Sd where
  sdOnline : Bool
  detectCnt : Nat

def Sd.init : Sd := ⟨false, 0⟩

def sdDetectHandle (s : Sd) (level : Bool) : Sd × Option SdMsg :=
  if level then
    if s.sdOnline then (⟨false, 0⟩, some .detach) else (s, none)
  else if s.sdOnline then (s, none)
  else if s.detectCnt < sdDebounceCount then (⟨false, addU16 s.detectCnt 1⟩, none)
  else (⟨true, s.detectCnt⟩, some .attach)

def sdAfter (samples : List Bool) : Sd :=
  samples.foldl (fun s level => (sdDetectHandle s level).1) .init

def sdMessages (s : Sd) (samples : List Bool) : List SdMsg :=
  (runOutputs sdDetectHandle s samples).2.filterMap id

def Alternate : SdMsg → List SdMsg → Prop
  | _, [] => True
  | .attach, m :: ms => m = .attach ∧ Alternate .detach ms
  | .detach, m :: ms => m = .detach ∧ Alternate .attach ms

/-- A card is attached only after more than `SD_DEBOUNCE_COUNT` low samples in a row. -/
def Debounced (samples : List Bool) : Prop :=
  ∀ before level after, samples = before ++ level :: after →
    (sdDetectHandle (sdAfter before) level).2 = some .attach →
    ∃ earlier, before ++ [level] = earlier ++ replicate (sdDebounceCount + 1) false

/-- A high sample comes while the card is attached, or before a low sample is counted. -/
def Steady (samples : List Bool) : Prop :=
  ∀ before after, samples = before ++ true :: after →
    (sdAfter before).sdOnline = true ∨ (sdAfter before).detectCnt = 0

theorem alternate_sdMessages (s : Sd) (samples : List Bool) :
    Alternate (if s.sdOnline then .detach else .attach) (sdMessages s samples) := by
  induction samples generalizing s with
  | nil => split <;> trivial
  | cons level samples ih =>
    have hnext := ih (sdDetectHandle s level).1
    simp only [sdMessages, runOutputs] at hnext ⊢
    obtain ⟨online, cnt⟩ := s
    cases level <;> cases online
    · by_cases hcnt : cnt < sdDebounceCount
      · simpa [sdDetectHandle, hcnt] using hnext
      · simpa [sdDetectHandle, hcnt, Alternate] using hnext
    · exact hnext
    · exact hnext
    · simpa [sdDetectHandle, Alternate] using hnext

theorem sdAfter_concat (samples : List Bool) (level : Bool) :
    sdAfter (samples ++ [level]) = (sdDetectHandle (sdAfter samples) level).1 := by
  rw [sdAfter, foldl_append]
  rfl

/-- While the card is detached, the samples that are counted are the last ones. -/
theorem Steady.counted {samples : List Bool} (h : Steady samples) :
    (sdAfter samples).detectCnt ≤ sdDebounceCount ∧ ((sdAfter samples).sdOnline = false →
      ∃ earlier, samples = earlier ++ replicate (sdAfter samples).detectCnt false) := by
  induction samples using reverseRecOn with
  | nil => exact ⟨by decide, fun _ => ⟨[], rfl⟩⟩
  | append_singleton samples level ih =>
    obtain ⟨hle, hcounted⟩ := ih fun before after heq => h before (after ++ [level]) (by simp [heq])
    have hhigh := h samples []
    rw [sdAfter_concat]
    revert hle hcounted hhigh
    generalize sdAfter samples = s
    obtain ⟨online, cnt⟩ := s
    cases level <;> cases online
    · intro hle hcounted _
      obtain ⟨earlier, heq⟩ := hcounted rfl
      by_cases hcnt : cnt < sdDebounceCount
      · have hnext : addU16 cnt 1 = cnt + 1 :=
          Nat.mod_eq_of_lt (Nat.lt_of_le_of_lt hcnt (by decide))
        refine ⟨?_, fun _ => ⟨earlier, ?_⟩⟩
        · simp only [sdDetectHandle, hcnt, hnext, Bool.false_eq_true, if_false, if_true]
          exact hcnt
        · simp [sdDetectHandle, hcnt, hnext, heq, replicate_succ']
      · simpa [sdDetectHandle, hcnt] using hle
    · exact fun hle _ _ => ⟨hle, nofun⟩
    · intro _ _ hhigh
      obtain honline | hzero := hhigh rfl
      · cases honline
      · replace hzero : cnt = 0 := hzero
        subst hzero
        exact ⟨by decide, fun _ => ⟨samples ++ [true], by simp [sdDetectHandle]⟩⟩
    · exact fun _ _ _ => ⟨Nat.zero_le _, fun _ => ⟨samples ++ [true], by simp [sdDetectHandle]⟩⟩

/-- For all samples the messages alternate, beginning with an attach; without a high sample
between the low ones that are counted, a card is attached only when it is debounced. -/
theorem sd_messages_lawful (samples : List Bool) :
    Alternate .attach (sdMessages .init samples) ∧ (Steady samples → Debounced samples) := by
  refine ⟨alternate_sdMessages .init samples, fun h before level after heq hattach => ?_⟩
  have hsteady : Steady before := fun first rest hbefore =>
    h first (rest ++ level :: after) (by simp [heq, hbefore])
  obtain ⟨hle, hcounted⟩ := hsteady.counted
  revert hle hcounted hattach
  generalize sdAfter before = s
  obtain ⟨online, cnt⟩ := s
  cases level <;> cases online
  · intro hattach hle hcounted
    obtain ⟨earlier, hbefore⟩ := hcounted rfl
    by_cases hcnt : cnt < sdDebounceCount
    · simp [sdDetectHandle, hcnt] at hattach
    · replace hle : cnt ≤ sdDebounceCount := hle
      replace hbefore : before = earlier ++ replicate cnt false := hbefore
      refine ⟨earlier, ?_⟩
      rw [hbefore, append_assoc, ← replicate_succ', Nat.le_antisymm hle (Nat.le_of_not_lt hcnt)]
  all_goals
    intro hattach
    cases hattach

theorem sd_messages_lawful_reattach :
    sdMessages .init (replicate 51 false ++ true :: replicate 51 false) =
      [.attach, .detach, .attach] ∧
    Debounced (replicate 51 false ++ true :: replicate 51 false) := by
  refine ⟨by decide +kernel, (sd_messages_lawful _).2 fun before after heq => ?_⟩
  have hlen := congrArg length heq
  have hget := congrArg (·[before.length]?) heq
  have htake := congrArg (take before.length) heq
  simp only [length_append, length_cons, length_replicate] at hlen
  simp only [getElem?_append_right (Nat.le_refl _), Nat.sub_self, getElem?_cons_zero] at hget
  rw [take_left] at htake
  rw [← htake]
  have hsteady : ∀ i < 103, (replicate 51 false ++ true :: replicate 51 false)[i]? = some true →
      (sdAfter (take i (replicate 51 false ++ true :: replicate 51 false))).sdOnline = true := by
    decide +kernel
  exact .inl (hsteady _ (by omega) hget)

-- fifty low samples, a high one, and the next low sample attaches the card
theorem bounce_attaches : ¬ Debounced (replicate 50 false ++ [true, false]) := by
  intro h
  obtain ⟨earlier, heq⟩ := h (replicate 50 false ++ [true]) false [] (by simp) (by decide +kernel)
  have hhigh := congrArg (fun l => l.reverse[1]?) heq
  simp [sdDebounceCount, replicate_succ] at hhigh

end Card

end BekenSoc.KeyHandle
