import BekenSoc.CRuntime

/-!
The time of the calendar (`calendar_driver.c`), from two registers that count on while they are
read, and in single-precision arithmetic.
-/

namespace BekenSoc.Calendar

open Nat

def calendarClocksPerSecond : Nat := 32000

/-- The last place of a significand of 24 bits. -/
def ulp (x : Nat) : Nat := 2 ^ (log2 x - 23)

abbrev RoundsUp (x : Nat) : Prop :=
  ulp x < 2 * (x % ulp x) ∨ 2 * (x % ulp x) = ulp x ∧ x / ulp x % 2 = 1

/-- A number rounded to a significand of 24 bits, ties to even. -/
def roundFloat (x : Nat) : Nat :=
  if RoundsUp x then (x / ulp x + 1) * ulp x else x / ulp x * ulp x

/-- The clocks as a `uint32_t` times `31.25f`, as a `uint64_t`.  A product is counted in quarters
here, which leaves its rounding as it is. -/
def usOfClocks (clocks : Nat) : Nat := roundFloat (roundFloat (clocks % 2 ^ 32) * 125) / 4

section Registers

variable (clock : Nat → Nat)

/-- The second counter at read `i` of a register, when the clock is at `clock i`. -/
def secondCnt (i : Nat) : Nat := clock i / calendarClocksPerSecond % 2 ^ 32

def usCnt (i : Nat) : Nat := clock i % calendarClocksPerSecond

/-- The loop of `bk_calendar_get_time_us` from read `i` on, with fuel: the registers at its end,
and the number of its last read. -/
def readLoop : Nat → Nat → Nat → Nat → Option (Nat × Nat × Nat)
  | 0, _, _, _ => none
  | fuel + 1, i, preSeconds, preClocks =>
    if secondCnt clock i = preSeconds ∧ usCnt clock (i + 1) = preClocks then
      some (secondCnt clock i, usCnt clock (i + 1), i + 1)
    else readLoop fuel (i + 2) (secondCnt clock i) (usCnt clock (i + 1))

def bkCalendarGetTimeUs (fuel i : Nat) : Option (Nat × Nat) :=
  (readLoop clock fuel i 0 0).map fun r =>
    (usOfClocks (r.1 * calendarClocksPerSecond + r.2.1), r.2.2)

end Registers

def exactUs (clocks : Nat) : Nat := clocks * 125 / 4

/-- The clock runs, for less than `2 ^ 32` seconds. -/
structure Runs (clock : Nat → Nat) : Prop where
  mono : ∀ i j, i ≤ j → clock i ≤ clock j
  bound : ∀ i, clock i < 2 ^ 32 * calendarClocksPerSecond

/-- A second begins while the first two registers are read, and both read zero. -/
def ZeroTorn (clock : Nat → Nat) (i : Nat) : Prop :=
  secondCnt clock i = 0 ∧ usCnt clock (i + 1) = 0 ∧ clock i ≠ 0

/-- The rounding of a product in quarters leaves the number of whole ones. -/
abbrev KeepsUs (x : Nat) : Prop := ¬ RoundsUp x ∧ x % ulp x < 4

variable {clock : Nat → Nat}

theorem roundFloat_of_dvd {x : Nat} (h : x % ulp x = 0) : roundFloat x = x := by
  have hulp : 0 < ulp x := Nat.two_pow_pos _
  rw [roundFloat, if_neg (by omega)]
  exact Nat.div_mul_cancel (dvd_of_mod_eq_zero h)

theorem roundFloat_div_four (x : Nat) : roundFloat x / 4 = x / 4 ↔ KeepsUs x := by
  have hulp : ulp x = 1 ∨ ulp x = 2 ∨ ∃ v, 0 < v ∧ ulp x = 4 * v := by
    unfold ulp
    rcases log2 x - 23 with - | - | e
    · exact .inl rfl
    · exact .inr (.inl rfl)
    · exact .inr (.inr ⟨2 ^ e, Nat.two_pow_pos e, by rw [pow_add]; omega⟩)
  have hdiv := div_add_mod x (ulp x)
  have hlt : x % ulp x < ulp x := mod_lt _ (Nat.two_pow_pos _)
  unfold roundFloat KeepsUs RoundsUp
  generalize x / ulp x = q at *
  generalize x % ulp x = t at *
  generalize ulp x = u at *
  obtain rfl | rfl | ⟨v, hv, rfl⟩ := hulp
  · split <;> omega
  · split <;> omega
  · rw [mul_comm, Nat.mul_left_comm] at hdiv
    rw [Nat.add_mul, one_mul, Nat.mul_left_comm]
    split <;> omega

theorem roundFloat_le (x : Nat) : 4 * roundFloat x ≤ 5 * x := by
  by_cases hsmall : log2 x < 24
  · rw [roundFloat_of_dvd]
    · omega
    · rw [ulp, Nat.sub_eq_zero_of_le (by omega), pow_zero, mod_one]
  · have hx : x ≠ 0 := by
      rintro rfl
      exact hsmall (by decide)
    have hulp : ulp x * 2 ^ 23 ≤ x := by
      rw [ulp, ← pow_add, Nat.sub_add_cancel (by omega)]
      exact log2_self_le hx
    have hdiv := div_mul_le_self x (ulp x)
    have hround : roundFloat x ≤ x / ulp x * ulp x + ulp x := by
      rw [roundFloat, Nat.add_mul, one_mul]
      split <;> omega
    omega

/-- Clocks that a float holds give their microseconds exactly if their sum does not wrap and the
rounding of the product keeps them. -/
theorem usOfClocks_eq_iff {clocks : Nat} (h : clocks % ulp clocks = 0) :
    usOfClocks clocks = exactUs clocks ↔ clocks < 2 ^ 32 ∧ KeepsUs (clocks * 125) := by
  by_cases hwrap : clocks < 2 ^ 32
  · rw [usOfClocks, mod_eq_of_lt hwrap, roundFloat_of_dvd h, exactUs, roundFloat_div_four,
      and_iff_right hwrap]
  · refine iff_of_false ?_ fun hkept => hwrap hkept.1
    have hfirst := roundFloat_le (clocks % 2 ^ 32)
    have hsecond := roundFloat_le (roundFloat (clocks % 2 ^ 32) * 125)
    have hhalf : 2 * (clocks % 2 ^ 32) ≤ clocks := by omega
    rw [usOfClocks, exactUs]
    omega

section

variable (h : Runs clock)
include h

theorem clock_eq (i : Nat) :
    secondCnt clock i * calendarClocksPerSecond + usCnt clock i = clock i := by
  have hlt : clock i / calendarClocksPerSecond < 2 ^ 32 :=
    Nat.div_lt_of_lt_mul (Nat.mul_comm _ _ ▸ h.bound i)
  rw [secondCnt, usCnt, mod_eq_of_lt hlt, mul_comm]
  exact div_add_mod ..

theorem secondCnt_mono {i j : Nat} (hij : i ≤ j) : secondCnt clock i ≤ secondCnt clock j := by
  have hi := clock_eq h i
  have hj := clock_eq h j
  have hle := h.mono i j hij
  have hlt : usCnt clock j < calendarClocksPerSecond := mod_lt _ (by decide)
  simp only [calendarClocksPerSecond] at *
  omega

/-- The pair that ends the loop was there when the clocks were read the time before. -/
theorem readLoop_instant {fuel i seconds clocks last : Nat}
    (hrun : readLoop clock fuel (i + 2) (secondCnt clock i) (usCnt clock (i + 1)) =
      some (seconds, clocks, last)) :
    ∃ j, i ≤ j ∧ j ≤ last ∧ seconds * calendarClocksPerSecond + clocks = clock j := by
  induction fuel generalizing i with
  | zero => cases hrun
  | succ fuel ih =>
    rw [readLoop] at hrun
    split at hrun
    · rename_i hsame
      cases hrun
      refine ⟨i + 1, by omega, by omega, ?_⟩
      have hmid := secondCnt_mono h (show i ≤ i + 1 by omega)
      have hend := secondCnt_mono h (show i + 1 ≤ i + 2 by omega)
      have heq : secondCnt clock (i + 2) = secondCnt clock (i + 1) := by omega
      rw [heq, hsame.2]
      exact clock_eq h (i + 1)
    · obtain ⟨j, hj, hrest⟩ := ih hrun
      exact ⟨j, by omega, hrest⟩

/-- Two passes in one tick of the clock end the loop. -/
theorem readLoop_returns {k i : Nat} (hstill : clock (i + 2 * k) = clock (i + 2 * k + 3))
    (s c : Nat) : ∃ r, readLoop clock (k + 2) i s c = some r := by
  induction k generalizing i s c with
  | zero =>
    have hmid : ∀ j, i ≤ j → j ≤ i + 3 → clock j = clock i := by
      intro j hle hge
      have hfrom := h.mono i j hle
      have hto := h.mono j (i + 3) hge
      simp only [Nat.mul_zero, add_zero] at hstill
      omega
    rw [readLoop]
    split
    · exact ⟨_, rfl⟩
    · have hsame : secondCnt clock (i + 2) = secondCnt clock i ∧
          usCnt clock (i + 2 + 1) = usCnt clock (i + 1) := by
        simp only [secondCnt, usCnt]
        rw [hmid (i + 2), hmid (i + 2 + 1), hmid (i + 1)] <;> omega
      exact ⟨_, by rw [readLoop, if_pos hsame]⟩
  | succ k ih =>
    rw [readLoop]
    split
    · exact ⟨_, rfl⟩
    · exact ih (by rw [show i + 2 + 2 * k = i + 2 * (k + 1) by omega]; exact hstill) _ _

/-- Unless it is torn at zero, the result is the product for an instant of the call. -/
theorem time_instant {fuel i us last : Nat} (htorn : ¬ ZeroTorn clock i)
    (hget : bkCalendarGetTimeUs clock fuel i = some (us, last)) :
    ∃ j, i ≤ j ∧ j ≤ last ∧ us = usOfClocks (clock j) := by
  obtain ⟨⟨seconds, clocks, last'⟩, hloop, heq⟩ := Option.map_eq_some_iff.mp hget
  cases heq
  cases fuel with
  | zero => cases hloop
  | succ fuel =>
    rw [readLoop] at hloop
    split at hloop
    · rename_i hzero
      have hnot : clock i = 0 := by
        by_contra hne
        exact htorn ⟨hzero.1, hzero.2, hne⟩
      cases hloop
      refine ⟨i, Nat.le_refl i, le_succ i, ?_⟩
      simp only [hzero.1, hzero.2, hnot, Nat.zero_mul, add_zero]
    · obtain ⟨j, hle, hge, hclock⟩ := readLoop_instant h hloop
      exact ⟨j, hle, hge, by rw [hclock]⟩

end

theorem time_torn {fuel i us last : Nat} (htorn : ZeroTorn clock i)
    (hget : bkCalendarGetTimeUs clock fuel i = some (us, last)) : us = 0 := by
  obtain ⟨hseconds, hclocks, -⟩ := htorn
  cases fuel with
  | zero => cases hget
  | succ fuel =>
    rw [bkCalendarGetTimeUs, readLoop, if_pos ⟨hseconds, hclocks⟩, hseconds, hclocks] at hget
    cases hget
    simp only [Nat.zero_mul]
    decide

theorem exactUs_mono (h : Runs clock) {i j : Nat} (hij : i ≤ j) :
    exactUs (clock i) ≤ exactUs (clock j) :=
  Nat.div_le_div_right (mul_le_mul_right 125 (h.mono i j hij))

end BekenSoc.Calendar
