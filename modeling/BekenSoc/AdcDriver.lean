import BekenSoc.RtosEvents

/-!
The reads of `adc_driver.c`: callers of `bk_adc_read`, the interrupt that collects the samples and
the converter that takes them.

A step of a caller ends where another task or the interrupt can come between.  The converter takes
samples while it is enabled; a sample that a full fifo loses is one that is not taken.
-/

namespace BekenSoc.AdcDriver

open CRuntime RtosEvents

inductive Mode
  | sleep
  | singleStep
  | softwareControl
  | continuous
  deriving DecidableEq, Repr

structure Config where
  /-- `CONFIG_ADC_BUF_SIZE`, kept in an `uint16_t` -/
  size : Nat
  size_lt : size < 2 ^ 16
  mode : Mode
  /-- `CONFIG_SARADC_RANGE_DIVIDE` -/
  rangeDivide : Bool

inductive Ret
  | ok (data : UInt16)
  | errNotInit
  | errBusy
  | errGetReadSema
  /-- the value of a single step, returned in the place of an error code -/
  | code (value : UInt16)
  deriving DecidableEq

/-- Where a caller is in `bk_adc_read`; `since` is the number of samples taken before the call. -/
inductive Pc
  | idle
  | entered (since timeout : Nat)
  | waiting (since timeout : Nat)
  | summing (since i sum : Nat)
  | returned (since : Nat) (ret : Ret)
  deriving DecidableEq

structure Adc (Caller : Type) where
  /-- the bit `adc_en` -/
  enabled : Bool
  fifo : List UInt16
  /-- `s_adc_buf.buf` and `s_adc_buf.sample_cnt` -/
  buf : List UInt16
  sampleCnt : Nat
  /-- the count of `adc_read_sema` -/
  token : Bool
  pc : Caller → Pc
  /-- every sample that the converter has taken, in the order of time -/
  taken : List UInt16

section Functions

variable {Caller : Type}

/-- `adc_read_fifo`: the buffer and `sample_cnt` after the loop, `none` if the loop does not end.
Only in continuous mode is a sample read that the buffer has no room for. -/
def adcReadFifo (config : Config) : List UInt16 → List UInt16 → Nat → Option (List UInt16 × Nat)
  | [], buf, sampleCnt => some (buf, sampleCnt)
  | v :: fifo, buf, sampleCnt =>
    if sampleCnt < config.size then adcReadFifo config fifo (buf.set sampleCnt v) (sampleCnt + 1)
    else if config.mode = .continuous then adcReadFifo config fifo buf sampleCnt
    else none

def bkAdcStop (s : Adc Caller) : Adc Caller :=
  if s.enabled then { s with sampleCnt := 0, enabled := false, fifo := [] } else s

def adcIsr (config : Config) (s : Adc Caller) : Option (Adc Caller) :=
  match adcReadFifo config s.fifo s.buf s.sampleCnt with
  | none => none
  | some (buf, sampleCnt) =>
    let s := { s with fifo := [], buf := buf, sampleCnt := sampleCnt }
    if config.size ≤ sampleCnt then some (bkAdcStop { s with token := true }) else some s

def readValue (config : Config) (sum : Nat) : UInt16 :=
  let mean := sum / config.size
  UInt16.ofNat (if config.rangeDivide then mean >>> 1 else mean)

end Functions

inductive Event (Caller : Type)
  /-- the converter takes a sample -/
  | sample (v : UInt16)
  | isr
  | enter (c : Caller) (timeout : Nat)
  /-- `adc_block_read` up to the semaphore, with the bit `adc_busy` and the value of a single
  step -/
  | start (c : Caller) (busy : Bool) (value : UInt16)
  | take (c : Caller)
  | timeOut (c : Caller)
  /-- one turn of the loop over the buffer, or its end -/
  | add (c : Caller)
  | leave (c : Caller)

section Steps

variable {Caller : Type} [DecidableEq Caller]

def setPc (s : Adc Caller) (c : Caller) (pc : Pc) : Adc Caller :=
  { s with pc := Function.update s.pc c pc }

def step (config : Config) (s : Adc Caller) : Event Caller → Option (Adc Caller)
  | .sample v =>
    if s.enabled then some { s with fifo := s.fifo ++ [v], taken := s.taken ++ [v] } else none
  | .isr => adcIsr config s
  | .enter c timeout =>
    if s.pc c = .idle then
      if config.size = 0 then some (setPc s c (.returned s.taken.length .errNotInit))
      else some (setPc s c (.entered s.taken.length timeout))
    else none
  | .start c busy value =>
    match s.pc c with
    | .entered since timeout =>
      if busy then some (setPc s c (.returned since .errBusy))
      else if config.mode = .singleStep then
        if value = 0 then some (setPc { s with enabled := true } c (.summing since 0 0))
        else some (setPc { s with enabled := true } c (.returned since (.code value)))
      else some (setPc { s with enabled := true } c (.waiting since timeout))
    | _ => none
  | .take c =>
    match s.pc c, s.token with
    | .waiting since _, true => some (setPc { s with token := false } c (.summing since 0 0))
    | _, _ => none
  | .timeOut c =>
    match s.pc c, s.token with
    | .waiting since timeout, false =>
      if timeout = bekenWaitForever then none
      else some (setPc s c (.returned since .errGetReadSema))
    | _, _ => none
  | .add c =>
    match s.pc c with
    | .summing since i sum =>
      if i < config.size then
        some (setPc s c (.summing since (i + 1) (addU32 sum (s.buf.getD i 0).toNat)))
      else some (setPc s c (.returned since (.ok (readValue config sum))))
    | _ => none
  | .leave c =>
    match s.pc c with
    | .returned _ _ => some (setPc s c .idle)
    | _ => none

end Steps

def initial (Caller : Type) (config : Config) : Adc Caller where
  enabled := false
  fifo := []
  buf := List.replicate config.size 0
  sampleCnt := 0
  token := false
  pc := fun _ => .idle
  taken := []

end BekenSoc.AdcDriver
