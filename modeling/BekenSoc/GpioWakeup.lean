import BekenSoc.BitMasks
import BekenSoc.ByteFlags
import BekenSoc.CRuntime
import BekenSoc.GuardedRuns

/-!
The dynamic wake-up sources of `gpio_driver_base.c`: a table of GPIO ids and a mask with one bit
for each GPIO, which the interrupt handler reads.
-/

namespace BekenSoc.GpioWakeup

open Function List
open BitMasks
open ByteFlags (loopIndex loopIndex_spec of_loopIndex_ge)
open GuardedRuns

variable {i id intType : Nat}

def gpioNum : Nat := 48

def wakeupSourceMaxCnt : Nat := 4

def idleId : Nat := gpioNum

def gpioIntTypeMax : Nat := 4

inductive GpioErr
  | ok
  | fail
  | chanId
  | invalidIntType
  deriving DecidableEq, Repr

structure WakeSource where
  id : Nat
  intType : Nat
  deriving DecidableEq

structure Gpio where
  table : Nat → WakeSource
  /-- `s_gpio_is_setted_wake_status` -/
  wakeStatus : BitVec 64
  wakeupGpioId : Nat
  /-- `s_gpio_isr[gpio_id]` is not `NULL` -/
  hasIsr : Nat → Bool
  inputEn : Nat → Bool
  intEn : Nat → Bool

variable {s t : Gpio}

section Driver

def bkGpioRegisterWakeupSource (s : Gpio) (gpioId intType : Nat) : GpioErr × Gpio :=
  if gpioNum ≤ gpioId then (.chanId, s)
  else if gpioIntTypeMax ≤ intType then (.invalidIntType, s)
  else
    let same := loopIndex wakeupSourceMaxCnt fun i => (s.table i).id == gpioId
    if same < wakeupSourceMaxCnt then
      (.ok, { s with table := update s.table same ⟨(s.table same).id, intType⟩ })
    else
      let idle := loopIndex wakeupSourceMaxCnt fun i => (s.table i).id == idleId
      if idle < wakeupSourceMaxCnt then
        (.ok, { s with
          table := update s.table idle ⟨gpioId, intType⟩
          wakeStatus := setBit s.wakeStatus gpioId })
      else (.fail, s)

/-- The bit that is cleared is the one of the id the entry holds by then, the idle id. -/
def bkGpioUnregisterWakeupSource (s : Gpio) (gpioId : Nat) : GpioErr × Gpio :=
  if gpioNum ≤ gpioId then (.chanId, s)
  else
    let same := loopIndex wakeupSourceMaxCnt fun i => (s.table i).id == gpioId
    if same < wakeupSourceMaxCnt then
      let table := update s.table same ⟨idleId, gpioIntTypeMax⟩
      (.ok, { s with
        table := table
        wakeStatus := clearBit s.wakeStatus (table same).id
        inputEn := update s.inputEn gpioId false
        intEn := update s.intEn gpioId false })
    else (.fail, s)

inductive IsrCall
  | wakeupDefaultIsr (gpioId : Nat)
  | isr (gpioId : Nat)
  deriving DecidableEq

def bkGpioSetWakeupGpioId (s : Gpio) (gpioId : Nat) : Gpio :=
  if s.wakeupGpioId = gpioNum then
    { s with wakeupGpioId := gpioId, intEn := update s.intEn gpioId false }
  else s

def gpioIsrRound (deepsleep : Bool) (s : Gpio) (gpioId : Nat) : Gpio × List IsrCall :=
  let s' := if deepsleep then bkGpioSetWakeupGpioId s gpioId else s
  (s', (if s'.wakeStatus.getLsbD gpioId then [.wakeupDefaultIsr gpioId] else []) ++
    if s'.hasIsr gpioId then [.isr gpioId] else [])

def gpioIsrLoop (deepsleep : Bool) (triggered : Nat → Bool) : Gpio → List Nat → Gpio × List IsrCall
  | s, [] => (s, [])
  | s, gpioId :: rest =>
    if triggered gpioId then
      let round := gpioIsrRound deepsleep s gpioId
      let r := gpioIsrLoop deepsleep triggered round.1 rest
      (r.1, round.2 ++ r.2)
    else gpioIsrLoop deepsleep triggered s rest

def gpioIsr (s : Gpio) (deepsleep : Bool) (triggered : Nat → Bool) : Gpio × List IsrCall :=
  gpioIsrLoop deepsleep triggered s (range gpioNum)

end Driver

section Runs

inductive WakeCall
  | register (gpioId intType : Nat)
  | unregister (gpioId : Nat)

def call (s : Gpio) : WakeCall → GpioErr × Gpio
  | .register gpioId intType => bkGpioRegisterWakeupSource s gpioId intType
  | .unregister gpioId => bkGpioUnregisterWakeupSource s gpioId

def wakeStep (s : Gpio) (c : WakeCall) : Option Gpio := some (call s c).2

structure Start (s : Gpio) : Prop where
  table : ∀ i < wakeupSourceMaxCnt, (s.table i).id = idleId
  wakeStatus : s.wakeStatus = 0#64

def Registered (s : Gpio) (gpioId : Nat) : Prop :=
  gpioId < gpioNum ∧ ∃ i < wakeupSourceMaxCnt, (s.table i).id = gpioId

instance (s : Gpio) (gpioId : Nat) : Decidable (Registered s gpioId) :=
  inferInstanceAs (Decidable (_ ∧ _))

def UniqueIds (s : Gpio) : Prop :=
  ∀ i < wakeupSourceMaxCnt, ∀ j < wakeupSourceMaxCnt,
    (s.table i).id = (s.table j).id → (s.table i).id < gpioNum → i = j

def Agree (s : Gpio) : Prop := ∀ bit, s.wakeStatus.getLsbD bit = true ↔ Registered s bit

def WakesOnlyRegistered (s : Gpio) : Prop :=
  ∀ deepsleep triggered gpioId,
    .wakeupDefaultIsr gpioId ∈ (gpioIsr s deepsleep triggered).2 → Registered s gpioId

def KeepsSources (s : Gpio) : WakeCall → Prop
  | .register _ _ => True
  | .unregister gpioId => ¬ Registered s gpioId

instance (s : Gpio) (c : WakeCall) : Decidable (KeepsSources s c) :=
  match c with
  | .register _ _ => isTrue trivial
  | .unregister gpioId => inferInstanceAs (Decidable (¬ Registered s gpioId))

end Runs

section Table

variable {s : Gpio} {gpioId : Nat}

theorem loopIndex_id_spec {n : Nat} {table : Nat → WakeSource}
    (h : loopIndex n (fun i => (table i).id == id) < n) :
    (table (loopIndex n fun i => (table i).id == id)).id = id :=
  beq_iff_eq.mp (loopIndex_spec h).1

theorem id_ne_of_loopIndex {n : Nat} {table : Nat → WakeSource}
    (h : ¬ loopIndex n (fun i => (table i).id == id) < n) : ∀ i < n, (table i).id ≠ id := by
  intro i hi
  exact beq_eq_false_iff_ne.mp (of_loopIndex_ge (Nat.le_of_not_lt h) hi)

theorem register_cases (s : Gpio) (gpioId intType : Nat) :
    (call s (.register gpioId intType)).2 = s ∨ (∃ i, (call s (.register gpioId intType)).2 =
        { s with table := update s.table i ⟨(s.table i).id, intType⟩ }) ∨
      ∃ i < wakeupSourceMaxCnt, gpioId < gpioNum ∧ (s.table i).id = idleId ∧
        (∀ j < wakeupSourceMaxCnt, (s.table j).id ≠ gpioId) ∧
        (call s (.register gpioId intType)).2 = { s with
            table := update s.table i ⟨gpioId, intType⟩
            wakeStatus := setBit s.wakeStatus gpioId } := by
  dsimp only [call, bkGpioRegisterWakeupSource]
  split
  · exact .inl rfl
  · rename_i hid
    split
    · exact .inl rfl
    · split
      · exact .inr (.inl ⟨_, rfl⟩)
      · rename_i hnew
        split
        · rename_i hidle
          exact .inr (.inr ⟨_, hidle, Nat.lt_of_not_le hid, loopIndex_id_spec hidle,
            id_ne_of_loopIndex hnew, rfl⟩)
        · exact .inl rfl

theorem unregister_cases (s : Gpio) (gpioId : Nat) :
    (¬ Registered s gpioId ∧ (call s (.unregister gpioId)).2 = s) ∨
      ∃ i < wakeupSourceMaxCnt, gpioId < gpioNum ∧ (s.table i).id = gpioId ∧
        (call s (.unregister gpioId)).2 = { s with
            table := update s.table i ⟨idleId, gpioIntTypeMax⟩
            wakeStatus := clearBit s.wakeStatus idleId
            inputEn := update s.inputEn gpioId false
            intEn := update s.intEn gpioId false } := by
  dsimp only [call, bkGpioUnregisterWakeupSource]
  split
  · rename_i hid
    exact .inl ⟨fun h => absurd h.1 (Nat.not_lt.mpr hid), rfl⟩
  · rename_i hid
    split
    · rename_i hfound
      refine .inr ⟨_, hfound, Nat.lt_of_not_le hid, loopIndex_id_spec hfound, ?_⟩
      rw [update_self]
    · rename_i hnone
      refine .inl ⟨?_, rfl⟩
      rintro ⟨-, i, hi, heq⟩
      exact id_ne_of_loopIndex hnone i hi heq

theorem registered_congr (h : ∀ i, (t.table i).id = (s.table i).id) (gpioId : Nat) :
    Registered t gpioId ↔ Registered s gpioId := by
  simp only [Registered, h]

theorem UniqueIds.congr (hunique : UniqueIds s) (h : ∀ i, (t.table i).id = (s.table i).id) :
    UniqueIds t := by
  intro i hi j hj
  rw [h i, h j]
  exact hunique i hi j hj

theorem update_intType_id (table : Nat → WakeSource) (i intType j : Nat) :
    (update table i ⟨(table i).id, intType⟩ j).id = (table j).id := by
  by_cases h : j = i
  · rw [h, update_self]
  · rw [update_of_ne h]

theorem UniqueIds.add (hunique : UniqueIds s)
    (hnew : ∀ j < wakeupSourceMaxCnt, (s.table j).id ≠ gpioId)
    (ht : t.table = update s.table i ⟨gpioId, intType⟩) : UniqueIds t := by
  intro j hj k hk heq hlt
  rw [ht] at heq hlt
  by_cases hji : j = i <;> by_cases hki : k = i
  · rw [hji, hki]
  · rw [hji, update_self, update_of_ne hki] at heq
    exact absurd heq.symm (hnew k hk)
  · rw [hki, update_self, update_of_ne hji] at heq
    exact absurd heq (hnew j hj)
  · rw [update_of_ne hji, update_of_ne hki] at heq
    rw [update_of_ne hji] at hlt
    exact hunique j hj k hk heq hlt

theorem UniqueIds.remove (hunique : UniqueIds s)
    (ht : t.table = update s.table i ⟨idleId, intType⟩) : UniqueIds t := by
  intro j hj k hk heq hlt
  rw [ht] at heq hlt
  by_cases hji : j = i
  · rw [hji, update_self] at hlt
    exact absurd hlt (Nat.lt_irrefl _)
  · rw [update_of_ne hji] at hlt heq
    by_cases hki : k = i
    · rw [hki, update_self] at heq
      exact absurd (heq ▸ hlt) (Nat.lt_irrefl _)
    · rw [update_of_ne hki] at heq
      exact hunique j hj k hk heq hlt

theorem UniqueIds.call (hunique : UniqueIds s) (c : WakeCall) : UniqueIds (call s c).2 := by
  cases c with
  | register gpioId intType =>
    obtain h | ⟨i, h⟩ | ⟨i, -, -, -, hnew, h⟩ := register_cases s gpioId intType
    · rw [h]
      exact hunique
    · rw [h]
      exact hunique.congr (update_intType_id s.table i intType)
    · rw [h]
      exact hunique.add hnew rfl
  | unregister gpioId =>
    obtain ⟨-, h⟩ | ⟨i, -, -, -, h⟩ := unregister_cases s gpioId
    · rw [h]
      exact hunique
    · rw [h]
      exact hunique.remove rfl

theorem registered_add_iff (hi : i < wakeupSourceMaxCnt) (hid : gpioId < gpioNum)
    (hidle : (s.table i).id = idleId) (ht : t.table = update s.table i ⟨gpioId, intType⟩)
    (bit : Nat) : Registered t bit ↔ Registered s bit ∨ bit = gpioId := by
  constructor
  · rintro ⟨hbit, j, hj, heq⟩
    rw [ht] at heq
    by_cases hji : j = i
    · rw [hji, update_self] at heq
      exact .inr heq.symm
    · rw [update_of_ne hji] at heq
      exact .inl ⟨hbit, j, hj, heq⟩
  · rintro (⟨hbit, j, hj, heq⟩ | rfl)
    · refine ⟨hbit, j, hj, ?_⟩
      have hji : j ≠ i := by
        rintro rfl
        rw [hidle] at heq
        exact absurd (heq ▸ hbit) (Nat.lt_irrefl _)
      rw [ht, update_of_ne hji, heq]
    · exact ⟨hid, i, hi, by rw [ht, update_self]⟩

theorem not_registered_remove (hunique : UniqueIds s) (hi : i < wakeupSourceMaxCnt)
    (hid : gpioId < gpioNum) (hat : (s.table i).id = gpioId)
    (ht : t.table = update s.table i ⟨idleId, intType⟩) : ¬ Registered t gpioId := by
  rintro ⟨-, j, hj, heq⟩
  rw [ht] at heq
  by_cases hji : j = i
  · rw [hji, update_self] at heq
    exact absurd (heq ▸ hid) (Nat.lt_irrefl _)
  · rw [update_of_ne hji] at heq
    exact hji (hunique j hj i hi (heq.trans hat.symm) (heq ▸ hid))

end Table

section Mask

variable {s : Gpio}

theorem agree_register (h : Agree s) (gpioId intType : Nat) :
    Agree (call s (.register gpioId intType)).2 := by
  obtain hsame | ⟨i, hsame⟩ | ⟨i, hi, hid, hidle, -, hadd⟩ := register_cases s gpioId intType
  · rw [hsame]
    exact h
  · intro bit
    rw [hsame, registered_congr (update_intType_id s.table i intType)]
    exact h bit
  · intro bit
    have hwidth : gpioId < 64 := Nat.lt_trans hid (by decide)
    rw [hadd, registered_add_iff hi hid hidle rfl, getLsbD_setBit _ hwidth, Bool.or_eq_true,
      decide_eq_true_iff, h bit]

theorem not_agree_unregister (hunique : UniqueIds s) (h : Agree s) {gpioId : Nat}
    (hreg : Registered s gpioId) : ¬ Agree (call s (.unregister gpioId)).2 := by
  obtain ⟨hnot, -⟩ | ⟨i, hi, hid, hat, hcall⟩ := unregister_cases s gpioId
  · exact absurd hreg hnot
  · intro hagree
    have hset : (call s (.unregister gpioId)).2.wakeStatus.getLsbD gpioId = true := by
      rw [hcall, getLsbD_clearBit, (h gpioId).mpr hreg,
        decide_eq_false (Nat.ne_of_lt hid : gpioId ≠ idleId)]
      rfl
    have hstill := (hagree gpioId).mp hset
    rw [hcall] at hstill
    exact not_registered_remove hunique hi hid hat rfl hstill

theorem agree_call_iff (hunique : UniqueIds s) (h : Agree s) (c : WakeCall) :
    Agree (call s c).2 ↔ KeepsSources s c := by
  cases c with
  | register gpioId intType => exact ⟨fun _ => trivial, fun _ => agree_register h gpioId intType⟩
  | unregister gpioId =>
    constructor
    · intro hagree hreg
      exact not_agree_unregister hunique h hreg hagree
    · intro hnot
      obtain ⟨-, hsame⟩ | ⟨i, hi, hid, hat, -⟩ := unregister_cases s gpioId
      · rw [hsame]
        exact h
      · exact absurd ⟨hid, i, hi, hat⟩ hnot

theorem bkGpioSetWakeupGpioId_wakeStatus (s : Gpio) (gpioId : Nat) :
    (bkGpioSetWakeupGpioId s gpioId).wakeStatus = s.wakeStatus := by
  unfold bkGpioSetWakeupGpioId
  split <;> rfl

theorem gpioIsrRound_wakeStatus (deepsleep : Bool) (s : Gpio) (gpioId : Nat) :
    (gpioIsrRound deepsleep s gpioId).1.wakeStatus = s.wakeStatus := by
  cases deepsleep with
  | false => rfl
  | true => exact bkGpioSetWakeupGpioId_wakeStatus s gpioId

theorem of_mem_gpioIsrRound {deepsleep : Bool} {gpioId : Nat}
    (h : .wakeupDefaultIsr id ∈ (gpioIsrRound deepsleep s gpioId).2) :
    s.wakeStatus.getLsbD id = true := by
  have hstatus := gpioIsrRound_wakeStatus deepsleep s gpioId
  dsimp only [gpioIsrRound] at h hstatus
  rw [hstatus, mem_append, mem_ite_nil_right, mem_ite_nil_right] at h
  obtain ⟨hbit, hmem⟩ | ⟨-, hmem⟩ := h
  · cases mem_singleton.mp hmem
    exact hbit
  · cases mem_singleton.mp hmem

theorem of_mem_gpioIsrLoop {deepsleep : Bool} {triggered : Nat → Bool} (ids : List Nat)
    (h : .wakeupDefaultIsr id ∈ (gpioIsrLoop deepsleep triggered s ids).2) :
    s.wakeStatus.getLsbD id = true := by
  induction ids generalizing s with
  | nil => cases h
  | cons gpioId rest ih =>
    rw [gpioIsrLoop] at h
    split at h
    · obtain h | h := mem_append.mp h
      · exact of_mem_gpioIsrRound h
      · rw [← gpioIsrRound_wakeStatus deepsleep s gpioId]
        exact ih h
    · exact ih h

theorem Agree.wakesOnlyRegistered (h : Agree s) : WakesOnlyRegistered s :=
  fun _ _ gpioId hmem => (h gpioId).mp (of_mem_gpioIsrLoop _ hmem)

theorem Start.uniqueIds (h : Start s) : UniqueIds s := by
  intro i hi j _ _ hlt
  rw [h.table i hi] at hlt
  exact absurd hlt (Nat.lt_irrefl _)

theorem Start.agree (h : Start s) : Agree s := by
  intro bit
  rw [h.wakeStatus, BitVec.getLsbD_zero]
  refine ⟨nofun, ?_⟩
  rintro ⟨hbit, i, hi, heq⟩
  rw [h.table i hi] at heq
  exact absurd (heq ▸ hbit) (Nat.lt_irrefl _)

theorem uniqueIds_of_reached {s₀ : Gpio} {ok : Gpio → WakeCall → Prop} (h₀ : Start s₀)
    (h : Reached wakeStep ok s₀ s) : UniqueIds s := by
  refine h.invariant UniqueIds h₀.uniqueIds ?_
  intro s c s' hunique _ hstep
  obtain rfl := Option.some.inj hstep
  exact hunique.call c

theorem agree_of_reached {s₀ : Gpio} (h₀ : Start s₀) (h : Reached wakeStep KeepsSources s₀ s) :
    Agree s := by
  have hboth : UniqueIds s ∧ Agree s := by
    refine h.invariant (fun s => UniqueIds s ∧ Agree s) ⟨h₀.uniqueIds, h₀.agree⟩ ?_
    rintro s c s' ⟨hunique, hagree⟩ hok hstep
    obtain rfl := Option.some.inj hstep
    exact ⟨hunique.call c, (agree_call_iff hunique hagree c).mpr hok⟩
  exact hboth.2

/-- Each GPIO has at most one entry in every run.  The mask agrees with the table, and the handler
wakes only for registered GPIOs, in every run that unregisters no registered GPIO; a call that
does breaks the agreement. -/
theorem wake_sources_agree {s₀ : Gpio} (h₀ : Start s₀) (h : Reached wakeStep anyStep s₀ s) :
    UniqueIds s ∧ (Reached wakeStep KeepsSources s₀ s → Agree s ∧ WakesOnlyRegistered s) ∧
      (Agree s → ∀ c, Agree (call s c).2 ↔ KeepsSources s c) := by
  have hunique := uniqueIds_of_reached h₀ h
  refine ⟨hunique, ?_, fun hagree c => agree_call_iff hunique hagree c⟩
  intro hkept
  have hagree := agree_of_reached h₀ hkept
  exact ⟨hagree, hagree.wakesOnlyRegistered⟩

def empty : Gpio where
  table := fun _ => ⟨idleId, 0⟩
  wakeStatus := 0#64
  wakeupGpioId := gpioNum
  hasIsr := fun _ => false
  inputEn := fun _ => false
  intEn := fun _ => false

theorem start_empty : Start empty := ⟨fun _ _ => rfl, rfl⟩

theorem wake_sources_agree_two :
    ∃ s, Reached wakeStep KeepsSources empty s ∧ Registered s 7 ∧ Registered s 9 ∧
      UniqueIds s ∧ Agree s := by
  obtain ⟨s, hkept, hseven, hnine⟩ := exists_reached wakeStep KeepsSources empty
    (fun s => Registered s 7 ∧ Registered s 9)
    [.register 7 0, .register 9 3, .unregister 8, .register 7 2] (by decide)
  have h := wake_sources_agree start_empty (hkept.mono fun _ _ _ => trivial)
  exact ⟨s, hkept, hseven, hnine, h.1, (h.2.1 hkept).1⟩

theorem wake_bit_left_set :
    ∃ s, Reached wakeStep anyStep empty s ∧ ¬ Registered s 7 ∧ s.wakeStatus.getLsbD 7 = true ∧
      .wakeupDefaultIsr 7 ∈ (gpioIsr s false (fun id => id == 7)).2 :=
  exists_reached _ _ _ _ [.register 7 0, .unregister 7] (by decide)

end Mask

end BekenSoc.GpioWakeup
