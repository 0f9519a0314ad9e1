import BekenSoc.AonRtcDriver
import BekenSoc.GuardedRuns

/-!
The 64-bit time of the always-on RTC: a 32-bit hardware counter, and a high word that
the upper-compare interrupt keeps (`bk_aon_rtc_get_current_tick` and
`aon_rtc_isr_handler`).

The counter counts on from 0 after it has reached the upper value, which the driver
sets to `AON_RTC_ROUND_TICK`; when it reaches that value the interrupt status is set.
A call reads the two words one after the other, in either order, and the interrupt
handler counts the high word and then clears the status.
-/

namespace BekenSoc.AonRtcClock

open AonRtcDriver CRuntime GuardedRuns

/-- A call of `bk_aon_rtc_get_current_tick` on its way.  `floor` is the largest value
that was returned before it began, and `counterAt` the tick at which it read the
counter. -/
structure Reading where
  floor : Nat
  high : Option Nat
  counterAt : Option Nat
  deriving DecidableEq

structure Read where
  floor : Nat
  value : Nat
  deriving DecidableEq

/-- `ticks` numbers the increments of the counter since its start, and `counted` says
that the interrupt handler has counted the high word and not cleared the status.
`last` is the largest value returned. -/
structure Clock (n : Nat) where
  ticks : Nat
  upperStatus : Bool
  highTick : Nat
  counted : Bool
  readers : Fin n → Option Reading
  reads : List Read
  last : Nat

variable {n : Nat}

def Clock.init (n : Nat) : Clock n := ⟨0, false, 0, false, fun _ => none, [], 0⟩

def Clock.wraps (s : Clock n) : Nat := s.ticks / 2 ^ 32

def tickOf (high counter : Nat) : Nat := addU64 (high * 2 ^ 32 % 2 ^ 64) counter

inductive Event (n : Nat)
  | count
  | wait (k : Nat)
  | isrCount
  | isrClear
  | call (i : Fin n)
  | readHigh (i : Fin n)
  | readCounter (i : Fin n)
  | ret (i : Fin n)
  deriving DecidableEq

def Clock.count (s : Clock n) : Clock n :=
  { s with
    ticks := s.ticks + 1
    upperStatus := s.upperStatus || decide ((s.ticks + 1) % 2 ^ 32 = roundTick) }

def Clock.wait (s : Clock n) (k : Nat) : Clock n :=
  { s with
    ticks := s.ticks + k
    upperStatus := s.upperStatus ||
      decide ((s.ticks + 1) / 2 ^ 32 < (s.ticks + k + 1) / 2 ^ 32) }

def Clock.setReader (s : Clock n) (i : Fin n) (r : Option Reading) : Clock n :=
  { s with readers := Function.update s.readers i r }

def step (s : Clock n) : Event n → Option (Clock n)
  | .count => some s.count
  | .wait k => some (s.wait k)
  | .isrCount =>
    if s.upperStatus = true ∧ s.counted = false then
      some { s with highTick := addU64 s.highTick 1, counted := true }
    else none
  | .isrClear => if s.counted then some { s with upperStatus := false, counted := false } else none
  | .call i =>
    match s.readers i with
    | none => some (s.setReader i (some ⟨s.last, none, none⟩))
    | some _ => none
  | .readHigh i =>
    match s.readers i with
    | some ⟨floor, none, counterAt⟩ =>
      some (s.setReader i (some ⟨floor, some s.highTick, counterAt⟩))
    | _ => none
  | .readCounter i =>
    match s.readers i with
    | some ⟨floor, high, none⟩ => some (s.setReader i (some ⟨floor, high, some s.ticks⟩))
    | _ => none
  | .ret i =>
    match s.readers i with
    | some ⟨floor, some high, some counterAt⟩ =>
      let value := tickOf high (counterAt % 2 ^ 32)
      some { s.setReader i none with
        reads := ⟨floor, value⟩ :: s.reads, last := max s.last value }
    | _ => none

/-- No call returns less than a call that had returned before it began. -/
def NeverBack (s : Clock n) : Prop := ∀ r ∈ s.reads, r.floor ≤ r.value

def Between : Option Reading → Prop
  | some ⟨_, some _, none⟩ => True
  | some ⟨_, none, some _⟩ => True
  | _ => False

instance : (r : Option Reading) → Decidable (Between r)
  | some ⟨_, some _, none⟩ | some ⟨_, none, some _⟩ => isTrue trivial
  | some ⟨_, none, none⟩ | some ⟨_, some _, some _⟩ | none => isFalse id

/-- A word is read only while the high word is the number of wraps, in the first
`2 ^ 64` ticks, and the counter does not wrap between the two words of a call. -/
def WrapsSettled (s : Clock n) : Event n → Prop
  | .count => (s.ticks + 1) / 2 ^ 32 = s.wraps ∨ ∀ i, ¬ Between (s.readers i)
  | .wait k => (s.ticks + k) / 2 ^ 32 = s.wraps ∨ ∀ i, ¬ Between (s.readers i)
  | .readHigh _ => s.highTick = s.wraps ∧ s.ticks < 2 ^ 64
  | .readCounter _ => s.highTick = s.wraps ∧ s.ticks < 2 ^ 64
  | _ => True

instance (s : Clock n) : (e : Event n) → Decidable (WrapsSettled s e)
  | .count | .wait _ => inferInstanceAs (Decidable (_ ∨ _))
  | .readHigh _ | .readCounter _ => inferInstanceAs (Decidable (_ ∧ _))
  | .isrCount | .isrClear | .call _ | .ret _ => isTrue trivial

theorem tickOf_div_mod {t : Nat} (h : t < 2 ^ 64) : tickOf (t / 2 ^ 32) (t % 2 ^ 32) = t := by
  unfold tickOf addU64
  omega

structure ReadingInv (s : Clock n) (r : Reading) : Prop where
  floor : r.floor ≤ s.ticks
  high : ∀ h, r.high = some h → r.counterAt = none → h = s.wraps
  counter : ∀ t, r.counterAt = some t → r.floor ≤ t ∧ t ≤ s.ticks ∧ t < 2 ^ 64
  counterFirst : ∀ t, r.counterAt = some t → r.high = none → t / 2 ^ 32 = s.wraps
  both : ∀ h t, r.high = some h → r.counterAt = some t → h = t / 2 ^ 32

structure ClockInv (s : Clock n) : Prop where
  last : s.last ≤ s.ticks
  readers : ∀ i r, s.readers i = some r → ReadingInv s r
  neverBack : NeverBack s

theorem ReadingInv.congr {s s' : Clock n} {r : Reading} (h : ReadingInv s r)
    (hticks : s'.ticks = s.ticks) : ReadingInv s' r := by
  have hwraps : s'.wraps = s.wraps := by rw [Clock.wraps, hticks, Clock.wraps]
  refine ⟨?_, ?_, ?_, ?_, h.both⟩
  · rw [hticks]
    exact h.floor
  · rw [hwraps]
    exact h.high
  · rw [hticks]
    exact h.counter
  · rw [hwraps]
    exact h.counterFirst

theorem ClockInv.later {s s' : Clock n} (h : ClockInv s) (hticks : s.ticks ≤ s'.ticks)
    (hreaders : s'.readers = s.readers) (hreads : s'.reads = s.reads) (hlast : s'.last = s.last)
    (hok : s'.wraps = s.wraps ∨ ∀ i, ¬ Between (s.readers i)) : ClockInv s' := by
  refine ⟨by rw [hlast]; exact h.last.trans hticks, ?_, ?_⟩
  · intro i r hr
    rw [hreaders] at hr
    have hinv := h.readers i r hr
    refine ⟨hinv.floor.trans hticks, ?_, ?_, ?_, hinv.both⟩
    · intro high hhigh hnone
      rcases hok with hsame | hno
      · rw [hsame]
        exact hinv.high high hhigh hnone
      · refine absurd ?_ (hno i)
        obtain ⟨floor, _, _⟩ := r
        cases hhigh
        cases hnone
        rw [hr]
        trivial
    · intro t ht
      obtain ⟨hfloor, hle, hlt⟩ := hinv.counter t ht
      exact ⟨hfloor, hle.trans hticks, hlt⟩
    · intro t ht hnone
      rcases hok with hsame | hno
      · rw [hsame]
        exact hinv.counterFirst t ht hnone
      · refine absurd ?_ (hno i)
        obtain ⟨floor, _, _⟩ := r
        cases ht
        cases hnone
        rw [hr]
        trivial
  · unfold NeverBack
    rw [hreads]
    exact h.neverBack

theorem setReader_self (s : Clock n) (i : Fin n) (r : Option Reading) :
    (s.setReader i r).readers i = r :=
  Function.update_self _ _ _

theorem setReader_of_ne (s : Clock n) {i j : Fin n} (hne : j ≠ i) (r : Option Reading) :
    (s.setReader i r).readers j = s.readers j :=
  Function.update_of_ne hne _ _

theorem ClockInv.setReader {s : Clock n} (h : ClockInv s) (i : Fin n) {r : Option Reading}
    (hr : ∀ r', r = some r' → ReadingInv s r') : ClockInv (s.setReader i r) := by
  refine { h with readers := ?_ }
  intro j r' hj
  refine ReadingInv.congr (s := s) ?_ rfl
  by_cases hji : j = i
  · rw [hji, setReader_self] at hj
    exact hr r' hj
  · rw [setReader_of_ne s hji] at hj
    exact h.readers j r' hj

theorem step_clockInv {s s' : Clock n} {e : Event n} (h : ClockInv s)
    (hok : WrapsSettled s e) (hstep : step s e = some s') : ClockInv s' := by
  cases e with
  | count =>
    cases hstep
    exact h.later (Nat.le_succ _) rfl rfl rfl hok
  | wait =>
    cases hstep
    exact h.later (Nat.le_add_right _ _) rfl rfl rfl hok
  | isrCount | isrClear =>
    obtain ⟨-, rfl⟩ := Option.ite_some_none_eq_some.mp hstep
    exact h.later (le_refl _) rfl rfl rfl (.inl rfl)
  | call i =>
    simp only [step] at hstep
    split at hstep
    · cases hstep
      refine h.setReader i ?_
      rintro r ⟨⟩
      exact ⟨h.last, nofun, nofun, nofun, nofun⟩
    · cases hstep
  | readHigh i =>
    simp only [step] at hstep
    split at hstep
    · rename_i floor counterAt hreader
      cases hstep
      have hinv := h.readers i _ hreader
      refine h.setReader i ?_
      rintro r ⟨⟩
      refine ⟨hinv.floor, ?_, hinv.counter, nofun, ?_⟩
      · rintro high ⟨⟩ -
        exact hok.1
      · rintro high t ⟨⟩ ht
        rw [hok.1]
        exact (hinv.counterFirst t ht rfl).symm
    · cases hstep
  | readCounter i =>
    simp only [step] at hstep
    split at hstep
    · rename_i floor high hreader
      cases hstep
      have hinv := h.readers i _ hreader
      refine h.setReader i ?_
      rintro r ⟨⟩
      refine ⟨hinv.floor, nofun, ?_, ?_, ?_⟩
      · rintro t ⟨⟩
        exact ⟨hinv.floor, le_refl _, hok.2⟩
      · rintro t ⟨⟩ -
        rfl
      · rintro high' t hhigh ⟨⟩
        exact hinv.high high' hhigh rfl
    · cases hstep
  | ret i =>
    simp only [step] at hstep
    split at hstep
    · rename_i floor high counterAt hreader
      cases hstep
      have hinv := h.readers i _ hreader
      obtain ⟨hfloor, hle, hlt⟩ := hinv.counter counterAt rfl
      have hvalue : tickOf high (counterAt % 2 ^ 32) = counterAt := by
        rw [hinv.both high counterAt rfl rfl]
        exact tickOf_div_mod hlt
      have hset := h.setReader i (r := none) nofun
      rw [hvalue]
      refine ⟨max_le h.last hle, ?_, ?_⟩
      · exact fun j r hj => (hset.readers j r hj).congr rfl
      · intro r hr
        rcases List.mem_cons.mp hr with rfl | hr
        · exact hfloor
        · exact h.neverBack r hr
    · cases hstep

theorem clockInv_init (n : Nat) : ClockInv (Clock.init n) := by
  refine ⟨le_refl _, ?_, ?_⟩
  · rintro i r ⟨⟩
  · rintro r ⟨⟩

/-- The values of successive calls never decrease. -/
theorem reached_neverBack {s : Clock n}
    (h : Reached step WrapsSettled (Clock.init n) s) : NeverBack s :=
  (h.invariant ClockInv (clockInv_init n) fun _ _ _ hinv hok hstep =>
    step_clockInv hinv hok hstep).neverBack

def wholeCall (i : Fin n) : List (Event n) := [.call i, .readHigh i, .readCounter i, .ret i]

theorem reached_neverBack_counted : ∃ s : Clock 1, Reached step WrapsSettled (Clock.init 1) s ∧
      s.reads = [⟨2 ^ 32 - 1, 2 ^ 32⟩, ⟨0, 2 ^ 32 - 1⟩] ∧ NeverBack s :=
  exists_reached_and (fun _ => reached_neverBack)
    ([.wait (2 ^ 32 - 1)] ++ wholeCall 0 ++ [.count, .isrCount, .isrClear] ++ wholeCall 0)
    (by decide)

theorem uncounted_wrap_goes_back :
    ¬ ∀ s : Clock 1, Reached step anyStep (Clock.init 1) s → NeverBack s := by
  intro hall
  obtain ⟨s, hs, hreads⟩ := exists_reached step anyStep (Clock.init 1)
    (fun s => s.reads = [⟨2 ^ 32 - 1, 0⟩, ⟨0, 2 ^ 32 - 1⟩])
    ([.wait (2 ^ 32 - 1)] ++ wholeCall 0 ++ [.count] ++ wholeCall 0) (by decide)
  have hback := hall s hs ⟨2 ^ 32 - 1, 0⟩ (by
    rw [hreads]
    exact List.mem_cons_self)
  exact absurd hback (by decide)

end BekenSoc.AonRtcClock
