import BekenSoc.Base64
import BekenSoc.GuardedRuns

/-!
Buffers in the environment of the flash (`bk_ef.c`), and the memory blocks that they and the
base64 functions allocate.
-/

namespace BekenSoc.BufEnv

open GuardedRuns Base64

inductive EfErrCode
  | efNoErr
  | efEraseErr
  | efWriteErr
  | efEnvNameErr
  | efEnvNameExist
  | efEnvFull
  | efEnvInitFailed
  deriving DecidableEq

structure Heap where
  allocs : Nat
  live : List Nat
  badFree : Bool
  deriving DecidableEq

def Heap.init : Heap := ⟨0, [], false⟩

def osZalloc (granted : Nat → Bool) (h : Heap) : Option Nat × Heap :=
  if granted h.allocs then (some h.allocs, ⟨h.allocs + 1, h.allocs :: h.live, h.badFree⟩)
  else (none, { h with allocs := h.allocs + 1 })

def osFree (block : Nat) (h : Heap) : Heap :=
  if block ∈ h.live then { h with live := h.live.erase block } else { h with badFree := true }

variable (granted : Nat → Bool)

def base64CalcDecodeLength (src : List UInt8) (h : Heap) : Nat × Heap :=
  match osZalloc granted h with
  | (none, h) => (0, h)
  | (some _, h) => (calcDecodeLength src, h)

def base64Decode (src : List UInt8) (h : Heap) : Option (List UInt8) × Heap :=
  match osZalloc granted h with
  | (none, h) => (none, h)
  | (some _, h) => (decode src, h)

structure EnvState where
  values : String → Option (List UInt8)
  heap : Heap

def bkSetBufEnv (key : Option String) (buf : Option (List UInt8)) (stored : EfErrCode)
    (s : EnvState) : EnvState × EfErrCode :=
  match key, buf with
  | some key, some buf =>
    if buf.length = 0 then (s, .efEnvInitFailed)
    else
      match osZalloc granted s.heap with
      | (none, h) => ({ s with heap := h }, .efEnvInitFailed)
      | (some efValue, h) =>
        let values := if stored = .efNoErr then
          Function.update s.values key (some (base64Encode buf 0)) else s.values
        (⟨values, osFree efValue h⟩, stored)
  | _, _ => (s, .efEnvInitFailed)

def bkGetBufEnv (key : String) (len : Int) (s : EnvState) :
    Option (EnvState × EfErrCode × List UInt8) :=
  match s.values key with
  | none => some (s, .efEnvNameErr, [])
  | some efValue =>
    if efValue.length = 0 then some (s, .efEnvInitFailed, [])
    else
      let h := (base64CalcDecodeLength granted efValue s.heap).2
      match osZalloc granted h with
      | (none, h) => some ({ s with heap := h }, .efEnvInitFailed, [])
      | (some outPtr, h) =>
        match base64Decode granted efValue h with
        | (none, h) => some ({ s with heap := osFree outPtr h }, .efEnvInitFailed, [])
        | (some out, h) =>
          -- BK_ASSERT(len == out_len)
          if out.length ≠ 0 ∧ len ≠ out.length then none
          else some ({ s with heap := osFree outPtr h }, .efNoErr, out)

inductive EnvCall
  | setBufEnv (key : Option String) (buf : Option (List UInt8)) (stored : EfErrCode)
  | getBufEnv (key : String) (len : Int)

def envStep (s : EnvState) : EnvCall → Option EnvState
  | .setBufEnv key buf stored => some (bkSetBufEnv granted key buf stored s).1
  | .getBufEnv key len => (bkGetBufEnv granted key len s).map Prod.fst

def leavesTable (s : EnvState) : EnvCall → Bool
  | .setBufEnv .. => false
  | .getBufEnv key _ =>
    (s.values key).any fun efValue => efValue.length ≠ 0 &&
      (granted s.heap.allocs || (granted (s.heap.allocs + 1) && granted (s.heap.allocs + 2)))

def Balanced (h h' : Heap) : Prop := h'.live = h.live ∧ h'.badFree = h.badFree

variable {granted} {s s' : EnvState} {h : Heap}

theorem osZalloc_granted (hgrant : granted h.allocs = true) : osZalloc granted h =
    (some h.allocs, ⟨h.allocs + 1, h.allocs :: h.live, h.badFree⟩) :=
  if_pos hgrant

theorem osZalloc_refused (hrefused : granted h.allocs = false) : osZalloc granted h =
    (none, { h with allocs := h.allocs + 1 }) :=
  if_neg (by simp [hrefused])

theorem balanced_setBufEnv (key : Option String) (buf : Option (List UInt8))
    (stored : EfErrCode) (s : EnvState) :
    Balanced s.heap (bkSetBufEnv granted key buf stored s).1.heap := by
  rw [bkSetBufEnv.eq_def]
  split
  · split
    · exact ⟨rfl, rfl⟩
    · cases hgrant : granted s.heap.allocs with
      | false => simp [osZalloc, hgrant, Balanced]
      | true => simp [osZalloc, hgrant, osFree, Balanced]
  · exact ⟨rfl, rfl⟩

theorem osFree_head (allocs block : Nat) (live : List Nat) (bad : Bool) :
    osFree block ⟨allocs, block :: live, bad⟩ = ⟨allocs, live, bad⟩ := by
  simp [osFree]

theorem osFree_second {block other : Nat} (hne : other ≠ block) (allocs : Nat) (live : List Nat)
    (bad : Bool) :
    osFree block ⟨allocs, other :: block :: live, bad⟩ = ⟨allocs, other :: live, bad⟩ := by
  simp [osFree, hne]

theorem getBufEnv_live {key : String} {len : Int} {r : EfErrCode × List UInt8}
    (hrun : bkGetBufEnv granted key len s = some (s', r)) :
    ∃ tables, s'.heap.live = tables ++ s.heap.live ∧ s'.heap.badFree = s.heap.badFree ∧
      (tables = [] ↔ leavesTable granted s (.getBufEnv key len) = false) := by
  rw [bkGetBufEnv.eq_def] at hrun
  rw [leavesTable]
  cases hvalue : s.values key with
  | none =>
    rw [hvalue] at hrun
    cases hrun
    exact ⟨[], rfl, rfl, by simp⟩
  | some efValue =>
    rw [hvalue] at hrun
    by_cases hempty : efValue.length = 0
    · simp only [if_pos hempty] at hrun
      cases hrun
      obtain rfl := List.length_eq_zero_iff.mp hempty
      exact ⟨[], rfl, rfl, by simp⟩
    · obtain ⟨first, hfirst, hcalc⟩ : ∃ first : List Nat,
          (first = [] ↔ granted s.heap.allocs = false) ∧
          (base64CalcDecodeLength granted efValue s.heap).2 =
            ⟨s.heap.allocs + 1, first ++ s.heap.live, s.heap.badFree⟩ := by
        cases hgrant : granted s.heap.allocs with
        | false => exact ⟨[], by simp, by simp [base64CalcDecodeLength, osZalloc, hgrant]⟩
        | true =>
          exact ⟨[s.heap.allocs], by simp, by simp [base64CalcDecodeLength, osZalloc, hgrant]⟩
      simp only [if_neg hempty, hcalc] at hrun
      simp only [Option.any_some, ne_eq, hempty, not_false_eq_true, decide_true, Bool.true_and,
        Bool.or_eq_false_iff]
      cases hout : granted (s.heap.allocs + 1) with
      | false =>
        rw [osZalloc_refused hout] at hrun
        cases hrun
        exact ⟨first, rfl, rfl, by simp [hfirst]⟩
      | true =>
        rw [osZalloc_granted hout] at hrun
        dsimp only at hrun
        cases htable : granted (s.heap.allocs + 2) with
        | false =>
          rw [base64Decode, osZalloc_refused htable] at hrun
          dsimp only at hrun
          rw [osFree_head] at hrun
          cases hrun
          exact ⟨first, rfl, rfl, by simp [hfirst]⟩
        | true =>
          have hne : s.heap.allocs + 1 + 1 ≠ s.heap.allocs + 1 := by omega
          refine ⟨(s.heap.allocs + 2) :: first, ?_⟩
          rw [base64Decode, osZalloc_granted htable] at hrun
          cases hdecode : decode efValue with
          | none =>
            simp only [hdecode, osFree_second hne] at hrun
            cases hrun
            exact ⟨rfl, rfl, by simp⟩
          | some =>
            simp only [hdecode, osFree_second hne] at hrun
            split at hrun
            · cases hrun
            · cases hrun
              exact ⟨rfl, rfl, by simp⟩

/-- A call frees every block that it allocates, and no other, exactly if it leaves no table of the
decoder behind. -/
theorem envStep_balanced_iff {c : EnvCall} (hstep : envStep granted s c = some s') :
    Balanced s.heap s'.heap ↔ leavesTable granted s c = false := by
  cases c with
  | setBufEnv key buf stored =>
    cases hstep
    exact iff_of_true (balanced_setBufEnv key buf stored s) rfl
  | getBufEnv =>
    obtain ⟨⟨t, r⟩, hrun, rfl⟩ := Option.map_eq_some_iff.mp hstep
    obtain ⟨tables, hlive, hbad, hiff⟩ := getBufEnv_live hrun
    rw [← hiff, Balanced, hlive, and_iff_left hbad]
    exact List.append_left_eq_self

def storedState (value : List UInt8) : EnvState := ⟨fun _ => some value, .init⟩

-- The block for the encoding of three bytes is given back.
theorem envStep_balanced_iff_set : ∃ s', envStep (fun _ => true) (storedState [65])
      (.setBufEnv (some "key") (some [1, 2, 3]) .efNoErr) = some s' ∧ s'.heap.allocs = 1 ∧
    Balanced (storedState [65]).heap s'.heap := by
  obtain ⟨s', hstep, hallocs⟩ : ∃ s', envStep (fun _ => true) (storedState [65])
      (.setBufEnv (some "key") (some [1, 2, 3]) .efNoErr) = some s' ∧ s'.heap.allocs = 1 :=
    ⟨_, rfl, by decide⟩
  exact ⟨s', hstep, hallocs, (envStep_balanced_iff hstep).mpr rfl⟩

-- Three bytes are read back, and two tables stay allocated.
theorem decode_tables_leak :
    ¬ ∀ (granted : Nat → Bool) (values : String → Option (List UInt8)) (s s' : EnvState)
      (c : EnvCall), Reached (envStep granted) anyStep ⟨values, .init⟩ s →
        envStep granted s c = some s' → Balanced s.heap s'.heap := by
  intro hall
  have hstep : envStep (fun _ => true) (storedState [65, 65, 65, 65]) (.getBufEnv "key" 3) =
      some ⟨fun _ => some [65, 65, 65, 65], ⟨3, [2, 0], false⟩⟩ := rfl
  have hbalanced := hall _ _ _ _ _ Reached.start hstep
  exact absurd hbalanced.1 (List.cons_ne_nil _ _)

end BekenSoc.BufEnv
