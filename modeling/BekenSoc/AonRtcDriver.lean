import Mathlib.Data.List.FinRange
import BekenSoc.CRuntime

/-!
The alarm list of the always-on RTC driver (`aon_rtc_driver.c`), one unit.

Alarm nodes live in a static pool of eight; `next` and the list head are
pointers into it.  A function that returns an `Option` gives `none` when the
code never returns: a failed `BK_ASSERT` stops the chip (the firmware is built
with `CONFIG_DEBUG_FIRMWARE`), and a walk over more cells than the pool has is a
walk around a cycle.
-/

namespace BekenSoc.AonRtcDriver

open CRuntime

def maxAlarmCnt : Nat := 8

def precisionTick : Nat := 32

def alarmNameMaxLen : Nat := 7

def alarmLoopForever : Nat := 0xffffffff

def roundTick : Nat := 0xffffffff

def aonRtcIdMax : Nat := 1

abbrev NodePtr := Fin maxAlarmCnt

structure AlarmInfo where
  name : List UInt8
  periodTick : Nat
  periodCnt : Nat
  callback : Option Nat
  param : Nat

structure AlarmNode where
  next : Option NodePtr
  name : List UInt8
  periodTick : Nat
  periodCnt : Nat
  callback : Option Nat
  cbParam : Nat
  startTick : Nat
  expiredTick : Nat
  deriving DecidableEq

def AlarmNode.zero : AlarmNode := ⟨none, [], 0, 0, none, 0, 0, 0⟩

/-- `s_aon_rtc`, `s_aon_rtc_nodes_p` and `s_high_tick` of the unit, with the two
hardware registers that the driver writes.  `busyBits i` is bit `i` of
`busy_bits`. -/
structure AonRtc where
  nodes : NodePtr → AlarmNode
  busyBits : NodePtr → Bool
  alarmHead : Option NodePtr
  alarmNodeCnt : Nat
  highTick : Nat
  tickVal : Nat
  tickIntEn : Bool

def AonRtc.init : AonRtc := ⟨fun _ => .zero, fun _ => false, none, 0, 0, 0, false⟩

abbrev Callbacks := Nat → List UInt8 → Nat → AonRtc → Option AonRtc

def AonRtc.modifyNode (s : AonRtc) (p : NodePtr) (f : AlarmNode → AlarmNode) : AonRtc :=
  { s with nodes := Function.update s.nodes p (f (s.nodes p)) }

def bkAonRtcGetCurrentTick (s : AonRtc) (counter : Nat) : Nat :=
  addU64 (s.highTick * 2 ^ 32 % 2 ^ 64) counter

def aonRtcRequestNode (s : AonRtc) : Option (NodePtr × AonRtc) :=
  match (List.finRange maxAlarmCnt).find? fun i => !s.busyBits i with
  | some i => some (i, { s with busyBits := Function.update s.busyBits i true })
  | none => none

/-- The `os_memset` of the release clears `sizeof(alarm_info_t)` bytes of the
larger `alarm_node_t`: it stops before `cb_param_p`. -/
def aonRtcReleaseNode (s : AonRtc) (p : NodePtr) : AonRtc :=
  { s with busyBits := Function.update s.busyBits p false }.modifyNode p fun n =>
      { n with next := none, name := [], periodTick := 0, periodCnt := 0, callback := none }

def nameRegistered (s : AonRtc) (name : List UInt8) : Nat → Option NodePtr → Option Bool
  | _, none => some false
  | 0, some _ => none
  | fuel + 1, some p =>
    if strncmpEq alarmNameMaxLen (s.nodes p).name name then some true
    else nameRegistered s name fuel (s.nodes p).next

def AonRtc.setNext (s : AonRtc) (p : NodePtr) (q : Option NodePtr) : AonRtc :=
  s.modifyNode p fun n => { n with next := q }

def AonRtc.setHead (s : AonRtc) (q : Option NodePtr) : AonRtc := { s with alarmHead := q }

def AonRtc.incCnt (s : AonRtc) : AonRtc := { s with alarmNodeCnt := addU32 s.alarmNodeCnt 1 }

def AonRtc.decCnt (s : AonRtc) : AonRtc := { s with alarmNodeCnt := subU32 s.alarmNodeCnt 1 }

def insertLoop (s : AonRtc) (nodeP : NodePtr) : Nat → NodePtr → Option NodePtr → Option AonRtc
  | _, cur, none => some (s.setNext cur (some nodeP)).incCnt
  | 0, _, some _ => none
  | fuel + 1, cur, some next =>
    if (s.nodes cur).expiredTick ≤ (s.nodes nodeP).expiredTick then
      if (s.nodes next).expiredTick ≤ (s.nodes nodeP).expiredTick then
        insertLoop s nodeP fuel next (s.nodes next).next
      else
        some ((s.setNext nodeP (some next)).setNext cur (some nodeP)).incCnt
    else
      some ((s.setNext nodeP (some cur)).setHead (some nodeP)).incCnt

def alarmInsertNode (s : AonRtc) (nodeP : NodePtr) : Option (AonRtc × Bool) :=
  match nameRegistered s (s.nodes nodeP).name maxAlarmCnt s.alarmHead with
  | none => none
  | some true => some (s, false)
  | some false =>
    match s.alarmHead with
    | none => some ((s.setHead (some nodeP)).incCnt, true)
    | some cur =>
      match (s.nodes cur).next with
      | none =>
        if (s.nodes cur).expiredTick ≤ (s.nodes nodeP).expiredTick then
          some ((s.setNext cur (some nodeP)).incCnt, true)
        else
          some (((s.setNext nodeP (some cur)).setHead (some nodeP)).incCnt, true)
      | some next =>
        match insertLoop s nodeP maxAlarmCnt cur (some next) with
        | none => none
        | some s' => some (s', true)

/-- The loop of `alarm_remove_node`; `previous` is `none` at the first node.
The fuel is what `BK_ASSERT(node_cnt <= AON_RTC_MAX_ALARM_CNT)` leaves. -/
def removeLoop (s : AonRtc) (name : List UInt8) :
    Nat → Option NodePtr → Option NodePtr → Option (AonRtc × Option NodePtr)
  | _, _, none => some (s, none)
  | 0, _, some _ => none
  | fuel + 1, previous, some cur =>
    if strncmpEq alarmNameMaxLen (s.nodes cur).name name then
      match previous with
      | none => some (aonRtcReleaseNode (s.setHead (s.nodes cur).next).decCnt cur, some cur)
      | some prev =>
        some (aonRtcReleaseNode (s.setNext prev (s.nodes cur).next).decCnt cur, some cur)
    else removeLoop s name fuel (some cur) (s.nodes cur).next

def alarmRemoveNode (s : AonRtc) (name : List UInt8) : Option (AonRtc × Option NodePtr) :=
  removeLoop s name maxAlarmCnt none s.alarmHead

def AlarmNode.rearm (n : AlarmNode) : AlarmNode :=
  { n with expiredTick := addU64 n.expiredTick n.periodTick }

def AlarmNode.countDown (n : AlarmNode) : AlarmNode :=
  if n.periodCnt = alarmLoopForever then n
  else { n with periodCnt := subU32 n.periodCnt 1 }

/-- The body of the expiry loop after the callback; `next` is the successor that
was saved before the callback ran.  The flag is false when the loop returns. -/
def expireNode (s : AonRtc) (cur : NodePtr) (next : Option NodePtr) : Option (AonRtc × Bool) :=
  if (s.nodes cur).periodCnt = 1 then
    let s := s.modifyNode cur fun n => { n with periodCnt := 0 }
    let s := (s.setHead (s.nodes cur).next).decCnt
    some (aonRtcReleaseNode s cur, true)
  else
    let s := s.modifyNode cur AlarmNode.countDown
    match next with
    | some _ =>
      let s := s.setHead (s.nodes cur).next
      let s := ((s.modifyNode cur AlarmNode.rearm).setNext cur none).decCnt
      alarmInsertNode s cur
    | none => some (s.modifyNode cur AlarmNode.rearm, true)

def runCallback (callbacks : Callbacks) (s : AonRtc) (cur : NodePtr) : Option AonRtc :=
  match (s.nodes cur).callback with
  | some cb => callbacks cb (s.nodes cur).name (s.nodes cur).cbParam s
  | none => some s

def updateLoop (callbacks : Callbacks) (counter : Nat → Nat) :
    Nat → Nat → Option NodePtr → AonRtc → Option AonRtc
  | _, _, none, s => some s
  | 0, _, some _, _ => none
  | fuel + 1, n, some cur, s =>
    if (s.nodes cur).expiredTick ≤ addU64 (bkAonRtcGetCurrentTick s (counter n)) precisionTick then
      match runCallback callbacks s cur with
      | none => none
      | some s1 =>
        match expireNode s1 cur (s.nodes cur).next with
        | none => none
        | some (s2, false) => some s2
        | some (s2, true) => updateLoop callbacks counter fuel (n + 1) (s.nodes cur).next s2
    else some s

def alarmUpdateExpeiredNodes (callbacks : Callbacks) (counter : Nat → Nat)
    (s : AonRtc) : Option AonRtc :=
  updateLoop callbacks counter maxAlarmCnt 0 s.alarmHead s

def aonRtcSetTick (s : AonRtc) (val : Nat) : AonRtc := { s with tickVal := val % 2 ^ 32 }

def resetTick (s : AonRtc) (counter : Nat) : Option AonRtc :=
  match s.alarmHead with
  | some head =>
    if addU64 (bkAonRtcGetCurrentTick s counter) 1 < (s.nodes head).expiredTick
    then some (aonRtcSetTick s (s.nodes head).expiredTick)
    else none
  | none => some (aonRtcSetTick s roundTick)

def tickIsr (callbacks : Callbacks) (counter : Nat → Nat) (s : AonRtc) : Option AonRtc :=
  match alarmUpdateExpeiredNodes callbacks counter s with
  | none => none
  | some s1 => resetTick s1 (counter maxAlarmCnt)

def aonRtcIsrHandler (callbacks : Callbacks) (tickStatus upperStatus : Bool)
    (counter : Nat → Nat) (s : AonRtc) : Option AonRtc :=
  match if tickStatus then tickIsr callbacks counter s else some s with
  | none => none
  | some s1 =>
    if upperStatus then some { s1 with highTick := addU64 s1.highTick 1 }
    else some s1

def AlarmInfo.toNode (info : AlarmInfo) (startTick : Nat) : AlarmNode where
  next := none
  name := (List.range alarmNameMaxLen).map (fun i => info.name.getD i 0) ++ [0]
  periodTick := info.periodTick
  periodCnt := info.periodCnt
  callback := info.callback
  cbParam := info.param
  startTick := startTick
  expiredTick := addU64 startTick info.periodTick

def bkAlarmRegister (id : Nat) (info : Option AlarmInfo) (counter : Nat → Nat)
    (s : AonRtc) : Option (AonRtc × BkErr) :=
  if aonRtcIdMax ≤ id then some (s, .errParam) else
  match info with
  | none => some (s, .errParam)
  | some info =>
    if info.periodTick < precisionTick then some (s, .fail)
    else if maxAlarmCnt ≤ s.alarmNodeCnt then some (s, .fail)
    else
      match aonRtcRequestNode s with
      | none => some (s, .errNoMem)
      | some (nodeP, s1) =>
        -- BK_ASSERT(alarm_info_p->period_cnt)
        if info.periodCnt = 0 then none
        else
          let start := bkAonRtcGetCurrentTick s1 (counter 0)
          let s2 := s1.modifyNode nodeP fun _ => info.toNode start
          match alarmInsertNode s2 nodeP with
          | none => none
          | some (s3, false) => some (aonRtcReleaseNode s3 nodeP, .fail)
          | some (s3, true) =>
            let armed :=
              if s3.alarmHead = some nodeP then resetTick s3 (counter 1)
              else some s3
            match armed with
            | none => none
            | some s4 => some ({ s4 with tickIntEn := true }, .ok)

def bkAlarmUnregister (id : Nat) (name : List UInt8) (counter : Nat)
    (s : AonRtc) : Option (AonRtc × BkErr) :=
  if aonRtcIdMax ≤ id then some (s, .errParam) else
  match alarmRemoveNode s name with
  | none => none
  | some (s1, removed) =>
    if s.alarmHead = removed then
      match resetTick s1 counter with
      | none => none
      | some s2 => some (s2, .ok)
    else some (s1, .ok)

end BekenSoc.AonRtcDriver
