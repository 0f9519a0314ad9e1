import BekenSoc.UartReads

/-!
`IoTUartRead` of `hal_iot_uart.c` over `bk_uart_read_bytes`.

The call of the driver does not wait.  With the software FIFO its result is the one of any call
that the receive interrupts interleave with; without it the bytes come from the hardware FIFO.
-/

namespace BekenSoc.IotUart

open GuardedRuns
open RtosEvents (losTimeout)
open UartDriver
open UartReads

def bkUartMax : Nat := 2

def socUartIdNumPerUnit : Nat := 2

def iotFailure : Int := -1

def bekenNoWait : Nat := 0

def bkErrUartNotInit : Int := -0x2400 - 1

def bkErrUartInvalidId : Int := -0x2400 - 2

def bkErrUartIdNotInit : Int := -0x2400 - 6

def toInt (n : Nat) : Int := if n < 0x80000000 then n else n - 0x100000000

structure Driver where
  isInit : Bool
  idInit : Nat → Bool
  swFifoEnabled : Nat → Bool

def checkId (d : Driver) (id : Nat) : Int :=
  if d.isInit = false then bkErrUartNotInit
  else if id ≥ socUartIdNumPerUnit then bkErrUartInvalidId
  else if d.idInit id = false then bkErrUartIdNotInit
  else 0

def readRxFifo : Nat → List UInt8 → List UInt8
  | 0, _ => []
  | _, [] => []
  | actualBytesToRead + 1, rxData :: rxFifo => rxData :: readRxFifo actualBytesToRead rxFifo

inductive ReadsBytes (d : Driver) (id size : Nat) : Int → List UInt8 → Prop
  | refused : checkId d id ≠ 0 → ReadsBytes d id size (checkId d id) []
  | software {s : Uart} {r : Return} : checkId d id = 0 → d.swFifoEnabled id = true →
      Reached UartDriver.step anyStep initial s → r ∈ s.returns → r.call = ⟨size, bekenNoWait⟩ →
      ReadsBytes d id size r.value r.data
  | hardware {rxFifo : List UInt8} : checkId d id = 0 → d.swFifoEnabled id = false →
      ReadsBytes d id size (readRxFifo size rxFifo).length (readRxFifo size rxFifo)

def passesChecks (inited : Nat → Bool) (id : Nat) (dataNull : Bool) (dataLen : Nat) : Bool :=
  if id ≥ bkUartMax then false
  else if dataNull || dataLen == 0 then false
  else inited id

def iotUartRead (inited : Nat → Bool) (id : Nat) (dataNull : Bool) (dataLen : Nat) (ret : Int)
    (taken : List UInt8) : Int × List UInt8 :=
  if passesChecks inited id dataNull dataLen = false then (iotFailure, [])
  else if ret ≠ 0 then (iotFailure, taken)
  else (toInt dataLen, taken)

def Faithful (out : Int × List UInt8) : Prop :=
  (0 ≤ out.1 → out.1 = out.2.length) ∧ (out.1 < 0 → out.2 = [])

theorem toInt_neg_iff {n : Nat} (hn : n < 2 ^ 32) : toInt n < 0 ↔ 2 ^ 31 ≤ n := by
  unfold toInt
  split <;> omega

theorem passesChecks_pos {inited : Nat → Bool} {id dataLen : Nat} {dataNull : Bool}
    (h : passesChecks inited id dataNull dataLen = true) : 0 < dataLen := by
  apply Nat.pos_of_ne_zero
  rintro rfl
  simp [passesChecks] at h

theorem faithful_failure_iff (taken : List UInt8) : Faithful (iotFailure, taken) ↔ taken = [] := by
  have hneg : iotFailure < 0 := by decide
  constructor
  · rintro ⟨-, hfailed⟩
    exact hfailed hneg
  · intro hnone
    exact ⟨fun h => absurd hneg (Int.not_lt.mpr h), fun _ => hnone⟩

theorem faithful_length_iff {dataLen : Nat} (hpos : 0 < dataLen) (hlen : dataLen < 2 ^ 32) :
    Faithful (toInt dataLen, []) ↔ 2 ^ 31 ≤ dataLen := by
  rw [← toInt_neg_iff hlen]
  constructor
  · rintro ⟨hcount, -⟩
    apply Int.lt_of_not_ge
    intro hge
    have hzero : toInt dataLen = 0 := hcount hge
    unfold toInt at hzero
    split at hzero <;> omega
  · intro hneg
    exact ⟨fun h => absurd hneg (Int.not_lt.mpr h), fun _ => rfl⟩

theorem ReadsBytes.counted {d : Driver} {id size : Nat} {ret : Int} {taken : List UInt8}
    (h : ReadsBytes d id size ret taken) :
    checkId d id ≠ 0 ∧ ret ≠ 0 ∧ taken = [] ∨ checkId d id = 0 ∧ ret = taken.length := by
  cases h with
  | refused hcheck => exact .inl ⟨hcheck, hcheck, rfl⟩
  | software hcheck _ hreached hmem hcall =>
    refine .inr ⟨hcheck, ?_⟩
    obtain ⟨contents, hdelivers⟩ := delivers_of_reached hreached
    rcases hdelivers.counted _ hmem with hvalue | ⟨-, -, htimeout⟩
    · exact hvalue
    · -- a wait without ticks does not expire
      rw [hcall] at htimeout
      have hzero : losTimeout bekenNoWait = 0 := by decide
      exact absurd hzero htimeout
  | hardware hcheck => exact .inr ⟨hcheck, rfl⟩

/-- The result is right only for the calls that are refused, and for a length that is returned as
a negative number. -/
theorem iotUartRead_faithful_iff (d : Driver) (inited : Nat → Bool) (id : Nat) (dataNull : Bool)
    (dataLen : Nat) (ret : Int) (taken : List UInt8) (hlen : dataLen < 2 ^ 32)
    (hread : ReadsBytes d id dataLen ret taken) :
    Faithful (iotUartRead inited id dataNull dataLen ret taken) ↔
      passesChecks inited id dataNull dataLen = false ∨ checkId d id ≠ 0 ∨
        taken = [] ∧ 2 ^ 31 ≤ dataLen := by
  unfold iotUartRead
  split
  · rename_i hrefused
    exact ⟨fun _ => .inl hrefused, fun _ => (faithful_failure_iff []).mpr rfl⟩
  · rename_i hpasses
    have hpos := passesChecks_pos (eq_true_of_ne_false hpasses)
    rcases hread.counted with ⟨hcheck, hret, hnone⟩ | ⟨hcheck, hret⟩
    · rw [if_pos hret, hnone, faithful_failure_iff]
      exact ⟨fun _ => .inr (.inl hcheck), fun _ => rfl⟩
    · rw [or_iff_right hpasses, or_iff_right (not_not.mpr hcheck)]
      by_cases hnone : taken = []
      · have hzero : ret = 0 := by rw [hret, hnone]; rfl
        rw [if_neg (not_not.mpr hzero), hnone, faithful_length_iff hpos hlen]
        exact ⟨fun hbig => ⟨rfl, hbig⟩, fun h => h.2⟩
      · have hsome : ret ≠ 0 := by
          rw [hret]
          exact Int.natCast_ne_zero.mpr fun h => hnone (List.eq_nil_of_length_eq_zero h)
        rw [if_pos hsome, faithful_failure_iff]
        exact ⟨fun h => absurd h hnone, fun h => h.1⟩

def bothInit : Driver := ⟨true, fun _ => true, fun _ => true⟩

theorem readsBytes_of_run (size : Nat) (ret : Int) (taken : List UInt8)
    (events : List Event) (hrun : (runGuarded UartDriver.step anyStep initial events).any
      (fun s => decide (⟨⟨size, bekenNoWait⟩, ret, taken⟩ ∈ s.returns)) = true) :
    ReadsBytes bothInit 0 size ret taken := by
  obtain ⟨s, hs, hmem⟩ := exists_reached UartDriver.step anyStep initial
    (fun s => ⟨⟨size, bekenNoWait⟩, ret, taken⟩ ∈ s.returns) events hrun
  exact .software (by decide) rfl hs hmem rfl

-- The length `2 ^ 31` is returned as a negative number.
theorem iotUartRead_faithful_negative : ReadsBytes bothInit 0 (2 ^ 31) 0 [] ∧
    Faithful (iotUartRead (fun _ => true) 0 false (2 ^ 31) 0 []) := by
  have hread := readsBytes_of_run (2 ^ 31) 0 [] [.call ⟨2 ^ 31, 0⟩, .read, .read, .read, .read]
    (by decide)
  refine ⟨hread, (iotUartRead_faithful_iff _ _ _ _ _ _ _ (by decide) hread).mpr ?_⟩
  exact .inr (.inr ⟨rfl, Nat.le_refl _⟩)

theorem iotUartRead_inverted : (∃ ret taken, ReadsBytes bothInit 0 4 ret taken ∧
      iotUartRead (fun _ => true) 0 false 4 ret taken = (iotFailure, [7])) ∧
    ∃ ret taken, ReadsBytes bothInit 0 4 ret taken ∧
      iotUartRead (fun _ => true) 0 false 4 ret taken = (4, []) := by
  constructor
  · exact ⟨1, [7], readsBytes_of_run 4 1 [7]
      [.receive 7, .isr true false, .call ⟨4, 0⟩, .read, .read, .read] (by decide), by decide⟩
  · exact ⟨0, [], readsBytes_of_run 4 0 []
      [.call ⟨4, 0⟩, .read, .read, .read, .read] (by decide), by decide⟩

end BekenSoc.IotUart
