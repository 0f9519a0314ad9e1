import Mathlib.Data.List.Induction
import BekenSoc.GuardedRuns

/-!
The GATT server of the BLE adapter (`ohos_bt_hal.c`).

A service is converted into the attribute table of the stack, with implicit declarations and
configuration descriptors.  The callbacks of its characteristics are stored in an array of two
for each service, and a write finds its callback from the index in the table.
-/

namespace BekenSoc.GattServer

open Function GuardedRuns List

def maxServerNum : Nat := 5

inductive AttrType
  | service
  | char
  | charValue
  | charClientConfig
  | other
  deriving DecidableEq

inductive UuidType
  | bit16
  | bit32
  | bit128
  | other
  deriving DecidableEq

structure Properties where
  read : Bool
  writeNoRsp : Bool
  write : Bool
  notify : Bool
  indicate : Bool
  deriving DecidableEq

structure OperateFunc where
  read : Option Nat
  write : Option Nat
  indicate : Option Nat
  deriving DecidableEq

structure GattAttr where
  attrType : AttrType
  permRead : Bool
  permWrite : Bool
  uuidType : UuidType
  uuid : List UInt8
  properties : Properties
  func : OperateFunc
  deriving DecidableEq

structure AttmDesc where
  uuid : List UInt8
  perm : Properties
  extPerm : Option UuidType
  maxSize : Option Nat
  deriving DecidableEq

def uuidLen : UuidType → Nat
  | .bit16 => 2
  | .bit32 => 4
  | .bit128 => 16
  | .other => 0

def bleConvertAttr2BK (a : GattAttr) : AttmDesc :=
  let uuid := a.uuid.take (uuidLen a.uuidType)
  match a.attrType with
  | .service => ⟨uuid, ⟨a.permRead, false, a.permWrite, false, false⟩, none, some 0⟩
  | .char | .charValue | .charClientConfig => ⟨uuid, a.properties, some a.uuidType, some 200⟩
  | .other => ⟨uuid, ⟨false, false, false, false, false⟩, none, none⟩

inductive Entry
  | service (desc : AttmDesc)
  | charDecl
  | value (desc : AttmDesc) (char : GattAttr)
  | clientCfg
  | other (desc : AttmDesc)
  deriving DecidableEq

def GattAttr.signals (a : GattAttr) : Bool := a.properties.notify || a.properties.indicate

variable {a c : GattAttr}

def attDeclPrimaryService : List UInt8 := [0x00, 0x28] ++ replicate 14 0

def attrNumTotal (attrList : List GattAttr) : Nat :=
  attrList.foldl (fun n a => (n + (match a.attrType with
    | .service => 1
    | .char | .charClientConfig | .charValue => 2
    | .other => 0) + a.signals.toNat) % 256) 0

structure Filled where
  attDb : List Entry
  attrIdx : Nat
  opFuncCb : Int → OperateFunc

def funcPlace (row : Nat) (idx : Int) : Int := 2 * row + idx

def fillAttr (svcCnt : Nat) (f : Filled) (a : GattAttr) : Filled :=
  match a.attrType with
  | .service =>
    { f with attDb := f.attDb ++ [.service { bleConvertAttr2BK a with
        uuid := attDeclPrimaryService.take (uuidLen a.uuidType) }] }
  | .char =>
    { attDb := f.attDb ++ .charDecl :: .value (bleConvertAttr2BK a) a ::
        if a.signals then [.clientCfg] else []
      attrIdx := f.attrIdx + 1
      opFuncCb := update f.opFuncCb (funcPlace svcCnt f.attrIdx) a.func }
  | _ => { f with attDb := f.attDb ++ [.other (bleConvertAttr2BK a)] }

/-- A service of the stack, which reports its `prf_task_id` and the index in its table. -/
structure Service where
  prfId : Nat
  attrs : List GattAttr
  attDb : List Entry
  /-- not in the code: `EnableBtStack` has not been called since -/
  current : Bool

structure BtHal where
  svcCnt : Nat
  opFuncCb : Int → OperateFunc
  services : List Service
  requestWriteCb : Option Nat

def BtHal.init : BtHal := ⟨0, fun _ => ⟨none, none, none⟩, [], none⟩

def bleGattsStartServiceEx (attrs : List GattAttr) (created : Bool) (s : BtHal) : BtHal :=
  if maxServerNum ≤ s.svcCnt then s
  else
    let filled := attrs.foldl (fillAttr s.svcCnt) ⟨[], 0, s.opFuncCb⟩
    if created then
      { s with opFuncCb := filled.opFuncCb, svcCnt := s.svcCnt + 1,
               services := s.services ++
                 [⟨s.svcCnt, attrs, filled.attDb.take (attrNumTotal attrs), true⟩] }
    else { s with opFuncCb := filled.opFuncCb }

def bleWriteEvent (s : BtHal) (prfId attIdx : Nat) : Option Nat × Option Nat :=
  ((s.opFuncCb (funcPlace prfId (attIdx / 2 - 1 : Int))).write, s.requestWriteCb)

inductive GattEvent
  | enableBtStack
  | startService (attrs : List GattAttr) (created : Bool)
  | registerCallbacks (requestWriteCb : Option Nat)

def gattStep (s : BtHal) : GattEvent → Option BtHal
  | .enableBtStack =>
    some { s with svcCnt := 0, services := s.services.map fun svc => { svc with current := false } }
  | .startService attrs created =>
    -- the number of attributes is an `unsigned char`
    if attrs.length < 256 then some (bleGattsStartServiceEx attrs created s) else none
  | .registerCallbacks requestWriteCb => some { s with requestWriteCb := requestWriteCb }

def characteristics (attrs : List GattAttr) : List GattAttr :=
  attrs.filter fun a => decide (a.attrType = .char)

structure IsService (attrs : List GattAttr) : Prop where
  shape : ∃ svc chars, attrs = svc :: chars ∧ svc.attrType = .service ∧
    ∀ c ∈ chars, c.attrType = .char
  room : (characteristics attrs).length ≤ 2

section SecondPass

variable {svcCnt : Nat} {attrs : List GattAttr} {f : Filled} {place : Int}

theorem fillAttr_of_char (svcCnt : Nat) (f : Filled) (h : a.attrType = .char) :
    (fillAttr svcCnt f a).attrIdx = f.attrIdx + 1 ∧ (fillAttr svcCnt f a).opFuncCb =
      update f.opFuncCb (funcPlace svcCnt f.attrIdx) a.func := by
  simp [fillAttr, h]

theorem fillAttr_of_not_char (svcCnt : Nat) (f : Filled) (h : a.attrType ≠ .char) :
    (fillAttr svcCnt f a).attrIdx = f.attrIdx ∧
      (fillAttr svcCnt f a).opFuncCb = f.opFuncCb := by
  rw [fillAttr]
  split
  · exact ⟨rfl, rfl⟩
  · rename_i hchar
    exact absurd hchar h
  · exact ⟨rfl, rfl⟩

theorem foldl_fillAttr_before (attrs : List GattAttr) (h : place < funcPlace svcCnt f.attrIdx) :
    (attrs.foldl (fillAttr svcCnt) f).opFuncCb place = f.opFuncCb place := by
  induction attrs generalizing f with
  | nil => rfl
  | cons a attrs ih =>
    rw [foldl_cons]
    by_cases hchar : a.attrType = .char
    · obtain ⟨hidx, hfuncs⟩ := fillAttr_of_char svcCnt f hchar
      rw [ih, hfuncs, update_of_ne (by omega)]
      rw [hidx]
      unfold funcPlace at *
      omega
    · obtain ⟨hidx, hfuncs⟩ := fillAttr_of_not_char svcCnt f hchar
      rw [ih, hfuncs]
      rw [hidx]
      exact h

theorem foldl_fillAttr_stores (svcCnt : Nat) (f : Filled) {i : Nat}
    (hc : (characteristics attrs)[i]? = some c) :
    (attrs.foldl (fillAttr svcCnt) f).opFuncCb (funcPlace svcCnt (f.attrIdx + i)) = c.func := by
  induction attrs generalizing f i with
  | nil => cases hc
  | cons a attrs ih =>
    rw [foldl_cons]
    by_cases hchar : a.attrType = .char
    · obtain ⟨hidx, hfuncs⟩ := fillAttr_of_char svcCnt f hchar
      rw [characteristics, filter_cons_of_pos (by simpa using hchar)] at hc
      cases i with
      | zero =>
        cases hc
        rw [foldl_fillAttr_before, hfuncs]
        · exact (congrArg _ (by simp)).trans (update_self _ _ _)
        · rw [hidx]
          unfold funcPlace
          omega
      | succ =>
        rw [← ih (fillAttr svcCnt f a) hc, hidx]
        refine congrArg _ (congrArg _ ?_)
        push_cast
        omega
    · rw [characteristics, filter_cons_of_neg (by simpa using hchar)] at hc
      rw [← ih (fillAttr svcCnt f a) hc, (fillAttr_of_not_char svcCnt f hchar).1]

def entries (a : GattAttr) : List Entry := (fillAttr 0 ⟨[], 0, fun _ => a.func⟩ a).attDb

theorem foldl_fillAttr_attDb (attrs : List GattAttr) (f : Filled) :
    (attrs.foldl (fillAttr svcCnt) f).attDb = f.attDb ++ attrs.flatMap entries := by
  induction attrs generalizing f with
  | nil => simp
  | cons a attrs ih =>
    have hstep : (fillAttr svcCnt f a).attDb = f.attDb ++ entries a := by
      rw [entries, fillAttr, fillAttr]
      cases a.attrType <;> rfl
    rw [foldl_cons, ih, hstep, flatMap_cons, append_assoc]

theorem entries_service (h : a.attrType = .service) : ∃ desc, entries a = [.service desc] := by
  simp [entries, fillAttr, h]

theorem entries_char (h : a.attrType = .char) :
    entries a = .charDecl :: .value (bleConvertAttr2BK a) a ::
      if a.signals then [.clientCfg] else [] := by
  simp [entries, fillAttr, h]

theorem value_of_entries_append {desc : AttmDesc} {rest : List Entry} {k : Nat}
    (h : a.attrType = .char) (hk : (entries a ++ rest)[k]? = some (.value desc c)) :
    k = 1 ∧ a = c ∨
      ∃ j, k = j + 2 + a.signals.toNat ∧ rest[j]? = some (.value desc c) := by
  rw [entries_char h] at hk
  obtain _ | _ | k := k
  · cases hk
  · cases hk
    exact .inl ⟨rfl, rfl⟩
  · right
    cases hsignals : a.signals with
    | false => exact ⟨k, rfl, by simpa [hsignals] using hk⟩
    | true =>
      obtain _ | k := k
      · simp [hsignals] at hk
      · exact ⟨k, rfl, by simpa [hsignals] using hk⟩

theorem valueIdx_eq {k : Nat} {desc : AttmDesc} (h : IsService attrs)
    (hk : (attrs.flatMap entries)[k]? = some (.value desc c)) :
    ∃ i : Nat, (characteristics attrs)[i]? = some c ∧ (k / 2 - 1 : Int) = i := by
  obtain ⟨svc, chars, rfl, hsvc, hchars⟩ := h.shape
  have hfilter : characteristics (svc :: chars) = chars := by
    rw [characteristics, filter_cons_of_neg (by simp [hsvc]), filter_eq_self]
    simpa using hchars
  have hroom := h.room
  rw [hfilter] at hroom ⊢
  obtain ⟨d, hd⟩ := entries_service hsvc
  rw [flatMap_cons, hd] at hk
  obtain _ | k := k
  · cases hk
  replace hk : (chars.flatMap entries)[k]? = some (.value desc c) := hk
  obtain _ | ⟨a, chars⟩ := chars
  · cases hk
  rw [flatMap_cons] at hk
  obtain ⟨rfl, rfl⟩ | ⟨j, rfl, hj⟩ := value_of_entries_append (hchars a (by simp)) hk
  · exact ⟨0, rfl, rfl⟩
  obtain _ | ⟨b, chars⟩ := chars
  · cases hj
  rw [flatMap_cons] at hj
  obtain ⟨rfl, rfl⟩ | ⟨j, rfl, hrest⟩ := value_of_entries_append (hchars b (by simp)) hj
  · -- the value is at 4, or at 5 behind a descriptor of the first one
    refine ⟨1, rfl, ?_⟩
    have := a.signals.toNat_le
    omega
  · have hnil : chars = [] := by simpa using hroom
    rw [hnil] at hrest
    cases hrest

end SecondPass

structure Serves (s : BtHal) (svc : Service) : Prop where
  prfId : svc.prfId < s.svcCnt
  table : svc.attDb = (svc.attrs.flatMap entries).take (attrNumTotal svc.attrs)
  funcs : ∀ i : Nat, i < 2 → ∀ c, (characteristics svc.attrs)[i]? = some c →
    s.opFuncCb (funcPlace svc.prfId i) = c.func

def Registered (s : BtHal) : Prop := ∀ svc ∈ s.services, svc.current = true → Serves s svc

theorem Registered.startService {s : BtHal} (hs : Registered s) (attrs : List GattAttr)
    (created : Bool) : Registered (bleGattsStartServiceEx attrs created s) := by
  let filled := attrs.foldl (fillAttr s.svcCnt) ⟨[], 0, s.opFuncCb⟩
  -- what is written into the array is behind the rows of the services before
  have hkept : ∀ svc ∈ s.services, svc.current = true → ∀ i : Nat, i < 2 →
      filled.opFuncCb (funcPlace svc.prfId i) = s.opFuncCb (funcPlace svc.prfId i) := by
    intro svc hsvc hcurrent i hi
    have hrow := (hs svc hsvc hcurrent).prfId
    refine foldl_fillAttr_before attrs ?_
    simp only [funcPlace]
    omega
  unfold bleGattsStartServiceEx
  split
  · exact hs
  cases created with
  | false =>
    intro svc hsvc hcurrent
    have hserves := hs svc hsvc hcurrent
    refine { hserves with funcs := fun i hi c hc => ?_ }
    exact (hkept svc hsvc hcurrent i hi).trans (hserves.funcs i hi c hc)
  | true =>
    refine forall_mem_append.mpr ⟨?_, forall_mem_singleton.mpr fun _ => ?_⟩
    · intro svc hsvc hcurrent
      have hserves := hs svc hsvc hcurrent
      refine ⟨Nat.lt_succ_of_lt hserves.prfId, hserves.table, fun i hi c hc => ?_⟩
      exact (hkept svc hsvc hcurrent i hi).trans (hserves.funcs i hi c hc)
    · refine ⟨Nat.lt_succ_self _, congrArg _ (foldl_fillAttr_attDb attrs _), fun i _ c hc => ?_⟩
      have hstored := foldl_fillAttr_stores s.svcCnt ⟨[], 0, s.opFuncCb⟩ hc
      simpa using hstored

theorem reached_registered {s : BtHal} (h : Reached gattStep anyStep BtHal.init s) :
    Registered s := by
  refine h.invariant Registered nofun ?_
  rintro s event s' hs - hstep
  cases event with
  | enableBtStack =>
    cases hstep
    intro svc hsvc
    obtain ⟨_, -, rfl⟩ := mem_map.mp hsvc
    exact nofun
  | startService attrs created =>
    obtain ⟨-, rfl⟩ := Option.ite_some_none_eq_some.mp hstep
    exact hs.startService attrs created
  | registerCallbacks =>
    cases hstep
    exact fun svc hsvc hcurrent => { hs svc hsvc hcurrent with }

/-- In every run, a write to a characteristic of a service calls the write callback of that
characteristic, if the stack was not enabled again after the service was registered. -/
theorem writeEvent_calls_own {s : BtHal} {svc : Service} {k : Nat} {desc : AttmDesc} {c : GattAttr}
    (hs : Reached gattStep anyStep BtHal.init s) (hsvc : svc ∈ s.services)
    (hcurrent : svc.current = true) (hattrs : IsService svc.attrs)
    (hvalue : svc.attDb[k]? = some (.value desc c)) :
    bleWriteEvent s svc.prfId k = (c.func.write, s.requestWriteCb) := by
  have hserves := reached_registered hs svc hsvc hcurrent
  rw [hserves.table, List.getElem?_take] at hvalue
  obtain ⟨i, hc, hi⟩ := valueIdx_eq hattrs (Option.ite_none_right_eq_some.mp hvalue).2
  have hlt := (List.getElem?_eq_some_iff.mp hc).1
  rw [bleWriteEvent, hi, hserves.funcs i (Nat.lt_of_lt_of_le hlt hattrs.room) c hc]

def primary : GattAttr :=
  ⟨.service, true, false, .bit16, [0x12, 0x18], ⟨true, false, false, false, false⟩,
    ⟨none, none, none⟩⟩

/-- A characteristic with the write callback `write`. -/
def report (write : Nat) : GattAttr :=
  ⟨.char, true, true, .bit16, [0x4d, 0x2a], ⟨true, false, true, true, false⟩,
    ⟨none, some write, none⟩⟩

theorem isService_reports : IsService [primary, report 1, report 2] :=
  ⟨⟨primary, [report 1, report 2], rfl, rfl, by decide⟩, by decide⟩

theorem writeEvent_calls_own_second : ∃ s svc, Reached gattStep anyStep BtHal.init s ∧
    svc ∈ s.services ∧ svc.current = true ∧ bleWriteEvent s svc.prfId 5 = (some 2, none) := by
  have hs : Reached gattStep anyStep BtHal.init
      (bleGattsStartServiceEx [primary, report 1, report 2] true BtHal.init) :=
    .step (.startService [primary, report 1, report 2] true) .start trivial rfl
  have hsvc := mem_singleton_self (⟨0, [primary, report 1, report 2],
    [primary, report 1, report 2].flatMap entries, true⟩ : Service)
  have hvalue : ([primary, report 1, report 2].flatMap entries)[5]? =
      some (.value (bleConvertAttr2BK (report 2)) (report 2)) := by decide
  exact ⟨_, _, hs, hsvc, rfl, writeEvent_calls_own hs hsvc rfl isService_reports hvalue⟩

-- After `EnableBtStack` the callbacks of the next service, not even created, take the row.
theorem enable_again_loses_callbacks : ∃ s svc, Reached gattStep anyStep BtHal.init s ∧
    svc ∈ s.services ∧ IsService svc.attrs ∧
    svc.attDb[2]? = some (.value (bleConvertAttr2BK (report 1)) (report 1)) ∧
    bleWriteEvent s svc.prfId 2 = (some 3, none) := by
  obtain ⟨s, hs, svc, hsvc, hattrs, hrest⟩ := exists_reached gattStep anyStep BtHal.init
    (fun s => ∃ svc ∈ s.services, svc.attrs = [primary, report 1, report 2] ∧
      svc.attDb[2]? = some (Entry.value (bleConvertAttr2BK (report 1)) (report 1)) ∧
      bleWriteEvent s svc.prfId 2 = (some 3, none))
    [.startService [primary, report 1, report 2] true, .enableBtStack,
      .startService [primary, report 3] false] (by decide)
  exact ⟨s, svc, hs, hsvc, hattrs ▸ isService_reports, hrest⟩

section Passes

def attrCount (attrList : List GattAttr) : Nat :=
  attrList.foldl (fun n a => n + (match a.attrType with
    | .service => 1
    | .char | .charClientConfig | .charValue => 2
    | .other => 0) + a.signals.toNat) 0

/-- The passes agree, and they stay inside their counters and arrays: `ohos_att_db` has an entry
for each one counted, and `g_ohos_Op_Func_cb` two callbacks for a service. -/
structure PassesAgree (svcCnt : Nat) (opFuncCb : Int → OperateFunc) (attrs : List GattAttr) :
    Prop where
  attrNum : attrs.length < 256
  total : attrCount attrs < 256
  written : attrNumTotal attrs = (attrs.foldl (fillAttr svcCnt) ⟨[], 0, opFuncCb⟩).attDb.length
  callbacks : (attrs.foldl (fillAttr svcCnt) ⟨[], 0, opFuncCb⟩).attrIdx ≤ 2

def isDescriptor (a : GattAttr) : Bool :=
  decide (a.attrType = .charValue ∨ a.attrType = .charClientConfig)

def signalsUnwritten (a : GattAttr) : Bool := a.signals && decide (a.attrType ≠ .char)

def isOther (a : GattAttr) : Bool := decide (a.attrType = .other)

theorem foldl_count_mod (attrs : List GattAttr) (count : GattAttr → Nat) (n : Nat) :
    attrs.foldl (fun n a => (n + count a + a.signals.toNat) % 256) (n % 256) =
      attrs.foldl (fun n a => n + count a + a.signals.toNat) n % 256 := by
  induction attrs generalizing n with
  | nil => rfl
  | cons a attrs ih =>
    rw [foldl_cons, foldl_cons, ← ih]
    congr 1
    omega

theorem attrCount_written (attrs : List GattAttr) :
    attrCount attrs + attrs.countP isOther = (attrs.flatMap entries).length +
      (attrs.countP isDescriptor + attrs.countP signalsUnwritten) := by
  induction attrs using reverseRecOn with
  | nil => rfl
  | append_singleton attrs a ih =>
    have hcount : attrCount (attrs ++ [a]) + attrs.countP isOther =
        attrCount attrs + attrs.countP isOther + attrCount [a] := by
      simp only [attrCount, foldl_append, foldl_cons, foldl_nil]
      omega
    have hone : attrCount [a] + [a].countP isOther = (entries a).length +
        ([a].countP isDescriptor + [a].countP signalsUnwritten) := by
      cases htype : a.attrType <;> cases hsig : a.signals <;>
        simp [attrCount, entries, fillAttr, isOther, isDescriptor, signalsUnwritten, htype, hsig]
    simp only [countP_append, flatMap_append, length_append, flatMap_singleton]
    omega

theorem foldl_fillAttr_attrIdx (svcCnt : Nat) (attrs : List GattAttr) (f : Filled) :
    (attrs.foldl (fillAttr svcCnt) f).attrIdx = f.attrIdx + (characteristics attrs).length := by
  induction attrs generalizing f with
  | nil => rfl
  | cons a attrs ih =>
    rw [foldl_cons, ih]
    simp only [characteristics, filter_cons, decide_eq_true_eq]
    split
    · rename_i hchar
      rw [(fillAttr_of_char svcCnt f hchar).1, length_cons]
      omega
    · rename_i hchar
      rw [(fillAttr_of_not_char svcCnt f hchar).1]

theorem length_le_flatMap_entries (attrs : List GattAttr) :
    attrs.length ≤ (attrs.flatMap entries).length := by
  induction attrs with
  | nil => exact Nat.le_refl 0
  | cons a attrs ih =>
    have hone : 1 ≤ (entries a).length := by
      cases htype : a.attrType <;> simp [entries, fillAttr, htype]
    rw [flatMap_cons, length_append, length_cons]
    omega

/-- The passes agree exactly for fewer than 256 entries and at most two characteristics, if as many
entries are counted and not written as are written and not counted. -/
theorem passesAgree_iff (svcCnt : Nat) (opFuncCb : Int → OperateFunc) (attrs : List GattAttr) :
    PassesAgree svcCnt opFuncCb attrs ↔ attrCount attrs < 256 ∧ (characteristics attrs).length ≤ 2 ∧
        attrs.countP isDescriptor + attrs.countP signalsUnwritten = attrs.countP isOther := by
  have hmod : attrNumTotal attrs = attrCount attrs % 256 := foldl_count_mod attrs _ 0
  have hdb : (attrs.foldl (fillAttr svcCnt) ⟨[], 0, opFuncCb⟩).attDb.length =
      (attrs.flatMap entries).length := by
    rw [foldl_fillAttr_attDb]
    rfl
  have hidx : (attrs.foldl (fillAttr svcCnt) ⟨[], 0, opFuncCb⟩).attrIdx =
      (characteristics attrs).length :=
    (foldl_fillAttr_attrIdx svcCnt attrs _).trans (Nat.zero_add _)
  have hcount := attrCount_written attrs
  constructor
  · intro h
    have hwritten := h.written
    rw [hmod, hdb, Nat.mod_eq_of_lt h.total] at hwritten
    have hcallbacks := h.callbacks
    exact ⟨h.total, by omega, by omega⟩
  · rintro ⟨htotal, hchars, hequal⟩
    have hlen := length_le_flatMap_entries attrs
    refine ⟨by omega, htotal, ?_, by omega⟩
    rw [hmod, hdb, Nat.mod_eq_of_lt htotal]
    omega

-- a service and a user description: one entry is allocated and two are written
theorem description_written_outside :
    let properties : Properties := ⟨true, false, false, false, false⟩
    let attrs : List GattAttr :=
      [⟨.service, true, false, .bit16, [0x12, 0x18], properties, ⟨none, none, none⟩⟩,
        ⟨.other, true, false, .bit16, [0x01, 0x29], properties, ⟨none, none, none⟩⟩]
    attrNumTotal attrs = 1 ∧
      (attrs.foldl (fillAttr 0) ⟨[], 0, BtHal.init.opFuncCb⟩).attDb.length = 2 := by
  decide

end Passes

end BekenSoc.GattServer
