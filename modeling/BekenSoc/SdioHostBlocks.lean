import BekenSoc.SdioHostWaits

namespace BekenSoc.SdioHostBlocks

open CRuntime
open GuardedRuns
open SdioHost
open SdioHostWaits (System WriteCall writeEnd)
open SignalGates

def waitWriteEnd (s : Host) (report : Option Nat) : HostErr × Host :=
  let pended : Host := { s with tx := s.tx.arm.pend }
  let after : Host :=
    match report with
    | none => pended
    | some wrStatus => sdioHostIsr pended { writeEnd with wrStatus }
  if after.tx.waiting then
    (.kTimeoutErr, { after with tx := after.tx.expire.disarm })
  else (.bkOk, after)

def writeLoop (dataSize : Nat) (report : Nat → Option Nat) :
    (fuel : Nat) → Host → (index waits : Nat) → HostErr → Option (HostErr × Host)
  | 0, _, _, _, _ => none
  | fuel + 1, s, index, waits, errorState =>
    if index < dataSize then
      let index := addU32 index 4
      if index % sdioBlockSize = 0 ∨ index = dataSize then
        let result := waitWriteEnd s (report waits)
        writeLoop dataSize report fuel result.2 index (waits + 1) result.1
      else writeLoop dataSize report fuel s index waits errorState
    else some (errorState, s)

def bkSdioHostWriteFifo (fuel : Nat) (s : Host) (null : Bool) (dataSize : Nat)
    (report : Nat → Option Nat) : Option (HostErr × Host) :=
  if null then some (.nullParam, s)
  else if s.isInit then writeLoop dataSize report fuel s 0 0 .bkOk
  else some (.notInit, s)

def Returns (s : Host) (null : Bool) (dataSize : Nat) (report : Nat → Option Nat)
    (err : HostErr) : Prop :=
  ∃ fuel s', bkSdioHostWriteFifo fuel s null dataSize report = some (err, s')

def blocks (dataSize : Nat) : Nat := (dataSize + 511) / 512

def words (dataSize : Nat) : Nat := (dataSize + 3) / 4

def waitsIn (dataSize n : Nat) : Nat :=
  n / 128 + if 4 * n = dataSize ∧ dataSize % 512 ≠ 0 then 1 else 0

def waits (dataSize : Nat) : Nat := waitsIn dataSize (words dataSize)

def waitResult (report : Option Nat) : HostErr :=
  if report.isSome then .bkOk else .kTimeoutErr

def latest (report : Nat → Option Nat) : Nat → HostErr
  | 0 => .bkOk
  | n + 1 => waitResult (report n)

def Ends (dataSize : Nat) : Prop := dataSize ≤ 2 ^ 32 - 4

def LastMissing (dataSize : Nat) (report : Nat → Option Nat) : Prop :=
  0 < waits dataSize ∧ report (waits dataSize - 1) = none

def AllAcknowledged (dataSize : Nat) (report : Nat → Option Nat) : Prop :=
  ∀ k < blocks dataSize, report k = some wrStatusOk

variable {s : Host} {dataSize n : Nat} {report : Nat → Option Nat}

theorem waitWriteEnd_of_quiet (hs : s.tx.Quiet) (r : Option Nat) :
    waitWriteEnd s r = (waitResult r, s) := by
  obtain ⟨isInit, irqCmdMsg, ⟨⟨token, waiting⟩, armed⟩, rx⟩ := s
  obtain ⟨harmed, htoken, hwaiting⟩ := hs
  dsimp only at harmed htoken hwaiting
  subst harmed htoken hwaiting
  cases r <;> rfl

theorem waitsIn_succ (hn : 4 * n < dataSize) : waitsIn dataSize (n + 1) = waitsIn dataSize n +
      if 4 * (n + 1) % sdioBlockSize = 0 ∨ 4 * (n + 1) = dataSize then 1 else 0 := by
  unfold waitsIn sdioBlockSize
  have hbefore : ¬ (4 * n = dataSize ∧ dataSize % 512 ≠ 0) := by omega
  rw [if_neg hbefore]
  split <;> split <;> omega

theorem writeLoop_eq (hs : s.tx.Quiet) (hends : Ends dataSize) (fuel : Nat)
    (hn : n ≤ words dataSize) : writeLoop dataSize report fuel s (4 * n) (waitsIn dataSize n)
        (latest report (waitsIn dataSize n)) =
      if words dataSize - n < fuel then some (latest report (waits dataSize), s) else none := by
  unfold Ends at hends
  induction fuel generalizing n with
  | zero => rw [if_neg (Nat.not_lt_zero _)]; rfl
  | succ fuel ih =>
    rw [writeLoop]
    by_cases hmore : 4 * n < dataSize
    · have hn' : n + 1 ≤ words dataSize := by
        unfold words
        omega
      have hindex : addU32 (4 * n) 4 = 4 * (n + 1) := by
        unfold addU32
        omega
      have hfuel : (words dataSize - n < fuel + 1) ↔ (words dataSize - (n + 1) < fuel) := by omega
      rw [if_pos hmore, hindex]
      simp only [hfuel]
      rw [← ih hn', waitsIn_succ hmore]
      split
      · rw [waitWriteEnd_of_quiet hs]
        rfl
      · rfl
    · have hend : n = words dataSize := by
        unfold words at hn ⊢
        omega
      rw [if_neg hmore, hend, if_pos (by omega)]
      rfl

theorem writeLoop_never {w index : Nat} {err : HostErr} (hnot : ¬ Ends dataSize) (fuel : Nat)
    (hindex : index % 4 = 0 ∧ index < 2 ^ 32) :
    writeLoop dataSize report fuel s index w err = none := by
  unfold Ends at hnot
  induction fuel generalizing s index w err with
  | zero => rfl
  | succ fuel ih =>
    have hnext : addU32 index 4 % 4 = 0 ∧ addU32 index 4 < 2 ^ 32 := by
      unfold addU32
      omega
    rw [writeLoop, if_pos (by omega)]
    dsimp only
    split
    · exact ih hnext
    · exact ih hnext

theorem latest_eq_bkOk_iff (k : Nat) :
    latest report k = .bkOk ↔ ¬ (0 < k ∧ report (k - 1) = none) := by
  cases k with
  | zero => simp [latest]
  | succ k => cases h : report k <;> simp [latest, waitResult, h]

theorem waitsIn_zero : waitsIn dataSize 0 = 0 := by
  rw [waitsIn, if_neg (by omega)]

theorem bkSdioHostWriteFifo_eq (hs : s.tx.Quiet) (hinit : s.isInit = true)
    (hends : Ends dataSize) (fuel : Nat) : bkSdioHostWriteFifo fuel s false dataSize report =
      if words dataSize < fuel then some (latest report (waits dataSize), s) else none := by
  have hloop : writeLoop dataSize report fuel s (4 * 0) (waitsIn dataSize 0)
      (latest report (waitsIn dataSize 0)) = _ := writeLoop_eq hs hends fuel (Nat.zero_le _)
  rw [waitsIn_zero, Nat.sub_zero] at hloop
  rw [bkSdioHostWriteFifo, if_neg Bool.false_ne_true, if_pos hinit]
  exact hloop

theorem bkSdioHostWriteFifo_never (hinit : s.isInit = true) (hends : ¬ Ends dataSize)
    (fuel : Nat) : bkSdioHostWriteFifo fuel s false dataSize report = none := by
  rw [bkSdioHostWriteFifo, if_neg Bool.false_ne_true, if_pos hinit]
  exact writeLoop_never hends fuel ⟨rfl, Nat.two_pow_pos 32⟩

theorem returns_bkOk_iff (hs : s.tx.Quiet) (null : Bool) : Returns s null dataSize report .bkOk ↔
      null = false ∧ s.isInit = true ∧ Ends dataSize ∧ ¬ LastMissing dataSize report := by
  constructor
  · rintro ⟨fuel, s', hret⟩
    cases null with
    | true => simp [bkSdioHostWriteFifo] at hret
    | false =>
      cases hinit : s.isInit with
      | false => simp [bkSdioHostWriteFifo, hinit] at hret
      | true =>
        by_cases hends : Ends dataSize
        · rw [bkSdioHostWriteFifo_eq hs hinit hends] at hret
          split at hret
          · have hlatest := congrArg Prod.fst (Option.some.inj hret)
            exact ⟨rfl, rfl, hends, (latest_eq_bkOk_iff _).mp hlatest⟩
          · cases hret
        · rw [bkSdioHostWriteFifo_never hinit hends] at hret
          cases hret
  · rintro ⟨rfl, hinit, hends, hlast⟩
    refine ⟨words dataSize + 1, s, ?_⟩
    rw [bkSdioHostWriteFifo_eq hs hinit hends, if_pos (Nat.lt_succ_self _),
      (latest_eq_bkOk_iff _).mpr hlast]

section Runs

open SdioHostWaits (step initial Event)

variable {t : System} {c : WriteCall} {base : Nat} {err err' : HostErr}
  {s' : Host}

def callAt (dataSize base n : Nat) (err : HostErr) : WriteCall :=
  ⟨dataSize, 4 * n, err, decide (128 ≤ n), n, base⟩

/-- The transfer starts with the last word of the first block, so a shorter one is not reported. -/
def ReportsStarted (dataSize : Nat) (report : Nat → Option Nat) : Prop :=
  dataSize < sdioBlockSize → report 0 = none

theorem reached_word (hends : Ends dataSize) (hmore : 4 * n < dataSize)
    (ht : Reached step anyStep initial
      { t with writer := .loop (callAt dataSize base n err) }) :
    Reached step anyStep initial
      { t with writer := .started (callAt dataSize base (n + 1) err) } := by
  unfold Ends at hends
  refine ht.trans_runGuarded [.writer, .writer] ?_
  have hindex : addU32 (4 * n) 4 = 4 * (n + 1) := by
    unfold addU32
    omega
  have hstart : (decide (128 ≤ n) || 4 * (n + 1) == 0x200) = decide (128 ≤ n + 1) := by
    rw [Bool.eq_iff_iff]
    simp only [Bool.or_eq_true, decide_eq_true_eq, beq_iff_eq]
    omega
  simp [runGuarded, anyStep, step, SdioHostWaits.writerStep, callAt, hmore, hindex, hstart,
    sdioBlockSize]

-- the steps that arm, pend, and go on or give up make the wait of the function
theorem reached_wait (hwait : c.index % sdioBlockSize = 0 ∨ c.index = c.dataSize) (r : Option Nat)
    {block : Nat} (hreaches : r.isSome = true → c.reaches block = true)
    (ht : Reached step anyStep initial { t with writer := .started c }) :
    ∃ tx, Reached step anyStep initial { t with
      host := (waitWriteEnd t.host r).2
      writer := .loop { c with errorState := (waitWriteEnd t.host r).1 }
      tx } := by
  have hpended : Reached step anyStep initial { t with
      host := { t.host with tx := t.host.tx.arm.pend }, writer := .pended c, tx := t.tx.await } :=
    ht.trans_runGuarded [.writer, .writer]
      (by simp [runGuarded, anyStep, step, SdioHostWaits.writerStep, hwait])
  -- the interrupt, if there is one, comes while the call pends
  obtain ⟨after, tx, hafter, heq⟩ : ∃ after tx, Reached step anyStep initial
      { t with host := after, writer := .pended c, tx } ∧ waitWriteEnd t.host r =
        if after.tx.waiting then (.kTimeoutErr, { after with tx := after.tx.expire.disarm })
        else (.bkOk, after) := by
    cases r with
    | none => exact ⟨_, _, hpended, rfl⟩
    | some wrStatus =>
      refine ⟨_, _, hpended.step (.irq { writeEnd with wrStatus } block) trivial (if_pos ?_), rfl⟩
      simp [SdioHostWaits.possible, SdioHostWaits.writeReaches, reportsWrite, reportsRead,
        writeEnd, IntStatus.none, hreaches]
  rw [heq]
  split
  · rename_i hwaiting
    have hfailed := hafter.step Event.writerExpire trivial (if_pos hwaiting)
    exact ⟨_, hfailed.step .writer trivial rfl⟩
  · rename_i hwaiting
    exact ⟨_, hafter.step Event.writer trivial (if_neg hwaiting)⟩

theorem reaches_of_reported (hstarted : ReportsStarted dataSize report) (hmore : 4 * n < dataSize)
    (hwait : 4 * (n + 1) % sdioBlockSize = 0 ∨ 4 * (n + 1) = dataSize)
    (hreport : (report (waitsIn dataSize n)).isSome = true) :
    (callAt dataSize base (n + 1) err).reaches (base + waitsIn dataSize n + 1) = true := by
  have hwaits : waitsIn dataSize n = n / 128 := by
    rw [waitsIn, if_neg (by omega), Nat.add_zero]
  unfold ReportsStarted at hstarted
  unfold sdioBlockSize at hwait hstarted
  have hfirst : 128 ≤ n + 1 := by
    by_contra hless
    have hzero : waitsIn dataSize n = 0 := by omega
    rw [hzero, hstarted (by omega)] at hreport
    cases hreport
  have hblock : (base + waitsIn dataSize n + 1 - base - 1) * 128 < n + 1 := by omega
  simp [WriteCall.reaches, callAt, hfirst, hblock]

theorem reached_writeLoop (hends : Ends dataSize) (hstarted : ReportsStarted dataSize report)
    (fuel : Nat) (hloop : writeLoop dataSize report fuel t.host (4 * n) (waitsIn dataSize n) err =
      some (err', s'))
    (ht : Reached step anyStep initial { t with writer := .loop (callAt dataSize base n err) }) :
    ∃ tx, Reached step anyStep initial { t with
      host := s', writer := .idle, tx, returns := t.returns ++ [⟨dataSize, err'⟩] } := by
  induction fuel generalizing n t err with
  | zero => cases hloop
  | succ fuel ih =>
    rw [writeLoop] at hloop
    by_cases hmore : 4 * n < dataSize
    · have hindex : addU32 (4 * n) 4 = 4 * (n + 1) := by
        unfold Ends at hends
        unfold addU32
        omega
      have hcount := waitsIn_succ hmore
      have hword := reached_word hends hmore ht
      rw [if_pos hmore, hindex] at hloop
      by_cases hwait : 4 * (n + 1) % sdioBlockSize = 0 ∨ 4 * (n + 1) = dataSize
      · rw [if_pos hwait] at hloop hcount
        obtain ⟨tx, hnext⟩ := reached_wait hwait (report (waitsIn dataSize n))
          (reaches_of_reported hstarted hmore hwait) hword
        exact ih (t := { t with host := (waitWriteEnd t.host _).2, tx }) (hcount ▸ hloop) hnext
      · rw [if_neg hwait] at hloop hcount
        exact ih (hcount ▸ hloop) (hword.step .writer trivial (if_neg hwait))
    · rw [if_neg hmore] at hloop
      cases hloop
      exact ⟨_, ht.step .writer trivial (if_neg hmore)⟩

/-- What the call returns as one function is returned at the end of a run of its steps. -/
theorem reached_writeFifo {fuel : Nat} (ht : Reached step anyStep initial t)
    (hidle : t.writer = .idle) (hinit : t.host.isInit = true)
    (hstarted : ReportsStarted dataSize report)
    (hret : bkSdioHostWriteFifo fuel t.host false dataSize report = some (err, s')) :
    ∃ tx, Reached step anyStep initial { t with
      host := s', tx, returns := t.returns ++ [⟨dataSize, err⟩] } := by
  have hends : Ends dataSize := by
    by_contra hnever
    rw [bkSdioHostWriteFifo_never hinit hnever] at hret
    cases hret
  have hsize : dataSize < 2 ^ 32 := by
    unfold Ends at hends
    omega
  rw [bkSdioHostWriteFifo, if_neg Bool.false_ne_true, if_pos hinit] at hret
  have hcall := ht.step (Event.write dataSize) trivial (if_pos ⟨hidle, hsize⟩)
  have hrun := reached_writeLoop (n := 0) hends hstarted fuel
    (by rw [waitsIn_zero]; exact hret) hcall
  rw [← hidle] at hrun
  exact hrun

end Runs

end BekenSoc.SdioHostBlocks
