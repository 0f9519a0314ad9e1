import Mathlib.Data.Fintype.Card
import BekenSoc.GuardedRuns
import BekenSoc.SpinLock

namespace BekenSoc.SpinLockRuns

open Function CRuntime DualCore GuardedRuns SpinLock

variable {k : Core} {l : LockId} {c : Cpu} {s : SpinState}

def between : Pc → Option LockId
  | .setOwner l => some l
  | .atomicClear l => some l
  | _ => none

def extra : Pc → Nat
  | .readLocked .acquire _ => 1
  | .readOwner .acquire _ => 1
  | .atomicSet _ => 1
  | .pop => 1
  | _ => 0

def placeOk (holds : Finset LockId) : Pc → Prop
  | .atomicSet l => l ∉ holds
  | .setOwner l => l ∈ holds
  | .clearOwner l => l ∈ holds
  | .atomicClear l => l ∈ holds
  | _ => True

structure CoreInv (k : Core) : Prop where
  nest : k.nestCnt = k.holds.card + extra k.pc
  nested : 0 < k.nestCnt → intsDisabled k.mstatus ∧ k.intFlag = k.outside
  unnested : k.nestCnt = 0 → k.mstatus = k.outside
  place : placeOk k.holds k.pc

structure LockInv (core : Cpu → Core) (l : LockId) (w : Spinlock) : Prop where
  locked_iff : w.locked = true ↔ ∃ c, l ∈ (core c).holds
  exclusive : ∀ c, l ∈ (core c).holds → l ∉ (core c.other).holds
  owner_iff : ∀ c, w.ownerCpu = some c ↔ l ∈ (core c).holds ∧ between (core c).pc ≠ some l

structure SpinInv (s : SpinState) : Prop where
  core : ∀ c, CoreInv (s.core c)
  lock : ∀ l, LockInv s.core l (s.locks l)

theorem intsDisabled_archIntLock (mstatus : BitVec 32) : intsDisabled (archIntLock mstatus).2 := by
  show (mstatus &&& ~~~mstatusMie) &&& mstatusMie = 0#32
  rw [BitVec.and_assoc, BitVec.and_comm (~~~mstatusMie)]
  simp

theorem CoreInv.push_cnt (h : CoreInv k) (hpc : extra k.pc = 0) :
    (pushDisableIntFlag k).nestCnt = k.nestCnt + 1 := by
  have hcard : k.holds.card ≤ 2 ^ 29 := by
    have hle := Finset.card_le_univ k.holds
    rwa [Fintype.card_fin] at hle
  have hnest := h.nest
  simp only [pushDisableIntFlag, addU32]
  omega

theorem CoreInv.push (h : CoreInv k) (hpc : extra k.pc = 0) :
    CoreInv { pushDisableIntFlag k with pc := .readLocked .acquire l } := by
  have hcnt := h.push_cnt hpc
  have hnest := h.nest
  constructor
  · show (pushDisableIntFlag k).nestCnt = k.holds.card + 1
    omega
  · intro _
    refine ⟨intsDisabled_archIntLock k.mstatus, ?_⟩
    show (if k.nestCnt = 0 then k.mstatus else k.intFlag) = k.outside
    split
    · rename_i hzero
      exact h.unnested hzero
    · rename_i hpos
      exact (h.nested (Nat.pos_of_ne_zero hpos)).2
  · intro hzero
    have hnew := hcnt.symm.trans hzero
    omega
  · exact trivial

theorem popIntFlag_last (hone : k.nestCnt = 1) :
    popIntFlag k = { k with nestCnt := 0, mstatus := k.intFlag } := by
  simp [popIntFlag, hone]

theorem popIntFlag_more {m : Nat} (hmore : k.nestCnt = m + 2) :
    popIntFlag k = { k with nestCnt := m + 1 } := by
  simp [popIntFlag, hmore]

theorem CoreInv.pop (h : CoreInv k) (hpc : k.pc = .pop) :
    CoreInv { popIntFlag k with pc := .idle } := by
  have hnest : k.nestCnt = k.holds.card + 1 := by
    rw [h.nest, hpc]
    rfl
  obtain ⟨hoff, hflag⟩ := h.nested (hnest ▸ Nat.succ_pos _)
  cases hcard : k.holds.card with
  | zero =>
    rw [popIntFlag_last (hnest.trans (by rw [hcard]))]
    exact ⟨hcard.symm, nofun, fun _ => hflag, trivial⟩
  | succ =>
    rw [popIntFlag_more (hnest.trans (by rw [hcard]))]
    exact ⟨hcard.symm, fun _ => ⟨hoff, hflag⟩, nofun, trivial⟩

theorem popIntFlag_holds (k : Core) : (popIntFlag k).holds = k.holds := by
  simp only [popIntFlag]
  split
  · rfl
  · split <;> rfl

theorem CoreInv.move (h : CoreInv k) {pc : Pc} {holds : Finset LockId}
    (hcnt : holds.card + extra pc = k.holds.card + extra k.pc) (hplace : placeOk holds pc) :
    CoreInv { k with pc := pc, holds := holds } :=
  ⟨h.nest.trans hcnt.symm, h.nested, h.unnested, hplace⟩

theorem LockInv.move {core : Cpu → Core} {w : Spinlock} (h : LockInv core l w)
    (hholds : l ∈ k.holds ↔ l ∈ (core c).holds)
    (hbetween : between k.pc = some l ↔ between (core c).pc = some l) :
    LockInv (update core c k) l w := by
  have hsame : ∀ d, l ∈ (update core c k d).holds ↔ l ∈ (core d).holds := by
    intro d
    rcases eq_or_ne d c with rfl | hd
    · rw [update_self]
      exact hholds
    · rw [update_of_ne hd]
  have hline : ∀ d, between (update core c k d).pc = some l ↔ between (core d).pc = some l := by
    intro d
    rcases eq_or_ne d c with rfl | hd
    · rw [update_self]
      exact hbetween
    · rw [update_of_ne hd]
  constructor
  · rw [h.locked_iff]
    exact exists_congr fun d => (hsame d).symm
  · intro d
    rw [hsame d, hsame d.other]
    exact h.exclusive d
  · intro d
    rw [hsame d, ne_eq, hline d]
    exact h.owner_iff d

section

variable (h : SpinInv s)
include h

theorem SpinInv.setCore {locks : LockId → Spinlock} (hcore : CoreInv k)
    (hlock : ∀ l, LockInv (update s.core c k) l (locks l)) :
    SpinInv ⟨locks, update s.core c k⟩ := by
  refine ⟨?_, hlock⟩
  intro d
  show CoreInv (update s.core c k d)
  rcases eq_or_ne d c with rfl | hd
  · rw [update_self]
    exact hcore
  · rw [update_of_ne hd]
    exact h.core d

theorem SpinInv.local_step (hcore : CoreInv k) (hholds : k.holds = (s.core c).holds)
    (hnew : between k.pc = none) (hold : between (s.core c).pc = none) :
    SpinInv (s.setCore c k) := by
  apply h.setCore hcore
  intro l
  apply (h.lock l).move
  · rw [hholds]
  · rw [hnew, hold]

theorem SpinInv.lock_step {w : Spinlock} (hcore : CoreInv k)
    (hlock : LockInv (update s.core c k) l w)
    (hholds : ∀ m, m ≠ l → (m ∈ k.holds ↔ m ∈ (s.core c).holds))
    (hbetween : ∀ m, m ≠ l → (between k.pc = some m ↔ between (s.core c).pc = some m)) :
    SpinInv ((s.setLock l w).setCore c k) := by
  apply h.setCore hcore
  intro m
  show LockInv (update s.core c k) m (update s.locks l w m)
  rcases eq_or_ne m l with rfl | hm
  · rw [update_self]
    exact hlock
  · rw [update_of_ne hm]
    exact (h.lock m).move (hholds m hm) (hbetween m hm)

theorem SpinInv.not_mem_of_unlocked (hfree : (s.locks l).locked = false) (c : Cpu) :
    l ∉ (s.core c).holds := by
  intro hmem
  have hlocked := (h.lock l).locked_iff.mpr ⟨c, hmem⟩
  rw [hfree] at hlocked
  cases hlocked

theorem SpinInv.owner_iff_mem (hpc : between (s.core c).pc = none) :
    (s.locks l).ownerCpu = some c ↔ l ∈ (s.core c).holds := by
  rw [(h.lock l).owner_iff c, hpc]
  simp

end

theorem CoreInv.afterOwner (h : CoreInv k) {caller : Caller} {owner : Bool}
    (hpc : k.pc = .readLocked caller l ∨ k.pc = .readOwner caller l)
    (howner : owner = true ↔ l ∈ k.holds) :
    CoreInv { k with pc := .afterOwner l caller owner } := by
  have hextra : extra k.pc = extra (.readLocked caller l) := by
    rcases hpc with hpc | hpc
    · rw [hpc]
    · rw [hpc]
      cases caller <;> rfl
  refine h.move ?_ ?_
  · rw [hextra]
    cases caller <;> cases owner <;> rfl
  · cases caller with
    | acquire =>
      cases owner with
      | true => exact trivial
      | false => exact fun hmem => Bool.false_ne_true (howner.mpr hmem)
    | release =>
      cases owner with
      | true => exact howner.mp rfl
      | false => exact trivial

theorem between_afterOwner (l : LockId) (caller : Caller) (owner : Bool) :
    between (.afterOwner l caller owner) = none := by
  cases caller <;> cases owner <;> rfl

section

variable (h : SpinInv s)
include h

theorem atomicSet_inv (hpc : (s.core c).pc = .atomicSet l) (hfree : (s.locks l).locked = false) :
    SpinInv ((s.setLock l { s.locks l with locked := true }).setCore c
      { s.core c with pc := .setOwner l, holds := insert l (s.core c).holds }) := by
  have hnone := h.not_mem_of_unlocked hfree
  refine h.lock_step ?_ ⟨?_, ?_, ?_⟩ ?_ ?_
  · refine (h.core c).move ?_ (Finset.mem_insert_self l _)
    rw [Finset.card_insert_of_notMem (hnone c), hpc]
    rfl
  · refine iff_of_true rfl ⟨c, ?_⟩
    rw [update_self]
    exact Finset.mem_insert_self l _
  · intro d hd
    rcases eq_or_ne d c with rfl | hne
    · rw [update_other]
      exact hnone d.other
    · rw [update_of_ne hne] at hd
      exact absurd hd (hnone d)
  · intro d
    have howner : (s.locks l).ownerCpu ≠ some d := fun hsome =>
      hnone d (((h.lock l).owner_iff d).mp hsome).1
    refine iff_of_false howner ?_
    rintro ⟨hmem, hline⟩
    rcases eq_or_ne d c with rfl | hne
    · rw [update_self] at hline
      exact hline rfl
    · rw [update_of_ne hne] at hmem
      exact hnone d hmem
  · intro m hm
    exact ⟨fun hmem => Finset.mem_of_mem_insert_of_ne hmem hm, Finset.mem_insert_of_mem⟩
  · intro m hm
    rw [hpc]
    exact iff_of_false (fun hsome => hm (Option.some.inj hsome).symm) nofun

theorem SpinInv.write_owner {pc : Pc} {owner : Option Cpu} (hmem : l ∈ (s.core c).holds)
    (hplace : placeOk (s.core c).holds pc) (hextra : extra pc = extra (s.core c).pc)
    (howner : owner = some c ↔ between pc ≠ some l) (hothers : owner ≠ some c.other)
    (hbetween : ∀ m, m ≠ l → (between pc = some m ↔ between (s.core c).pc = some m)) :
    SpinInv ((s.setLock l { s.locks l with ownerCpu := owner }).setCore c
      { s.core c with pc := pc }) := by
  have hholds : ∀ d, (update s.core c { s.core c with pc := pc } d).holds = (s.core d).holds := by
    intro d
    rcases eq_or_ne d c with rfl | hd
    · rw [update_self]
    · rw [update_of_ne hd]
  refine h.lock_step ((h.core c).move (by rw [hextra]) hplace) ⟨?_, ?_, ?_⟩ ?_ hbetween
  · simp only [hholds]
    exact (h.lock l).locked_iff
  · simp only [hholds]
    exact (h.lock l).exclusive
  · intro d
    rw [hholds]
    rcases eq_or_ne d c with rfl | hd
    · rw [update_self]
      exact howner.trans (and_iff_right hmem).symm
    · rw [eq_other_of_ne hd]
      exact iff_of_false hothers fun hboth => (h.lock l).exclusive c hmem hboth.1
  · intro m _
    exact Iff.rfl

theorem atomicClear_inv (hpc : (s.core c).pc = .atomicClear l) :
    SpinInv ((s.setLock l { s.locks l with locked := false }).setCore c
      { s.core c with pc := .pop, holds := (s.core c).holds.erase l }) := by
  have hmem : l ∈ (s.core c).holds := by
    have hplace := (h.core c).place
    rwa [hpc] at hplace
  have hnone : ∀ d, l ∉ (update s.core c { s.core c with
      pc := .pop, holds := (s.core c).holds.erase l } d).holds := by
    intro d
    rcases eq_or_ne d c with rfl | hd
    · rw [update_self]
      exact Finset.notMem_erase l _
    · rw [eq_other_of_ne hd, update_other]
      exact (h.lock l).exclusive c hmem
  have howner : ∀ d, (s.locks l).ownerCpu ≠ some d := by
    intro d hsome
    obtain ⟨hd, hline⟩ := ((h.lock l).owner_iff d).mp hsome
    rcases eq_or_ne d c with rfl | hne
    · rw [hpc] at hline
      exact hline rfl
    · rw [eq_other_of_ne hne] at hd
      exact (h.lock l).exclusive c hmem hd
  refine h.lock_step ?_ ⟨?_, ?_, ?_⟩ ?_ ?_
  · refine (h.core c).move ?_ trivial
    have hcard := Finset.card_erase_add_one hmem
    rw [hpc]
    exact hcard
  · exact iff_of_false Bool.false_ne_true fun ⟨d, hd⟩ => hnone d hd
  · intro d hd
    exact absurd hd (hnone d)
  · intro d
    exact iff_of_false (howner d) fun hboth => hnone d hboth.1
  · intro m hm
    exact Finset.mem_erase.trans (and_iff_right hm)
  · intro m hm
    rw [hpc]
    exact iff_of_false nofun fun hsome => hm (Option.some.inj hsome).symm

theorem runStep_inv {s' : SpinState} (hstep : runStep s c = some s') : SpinInv s' := by
  have hcore := h.core c
  simp only [runStep] at hstep
  split at hstep
  · cases hstep
  · rename_i l hpc
    cases hstep
    exact h.local_step (hcore.push (by rw [hpc]; rfl)) rfl rfl (by rw [hpc]; rfl)
  · rename_i caller l hpc
    split at hstep
    · cases hstep
      refine h.local_step (hcore.move ?_ trivial) rfl rfl (by rw [hpc]; rfl)
      rw [hpc]
      cases caller <;> rfl
    · rename_i hfree
      cases hstep
      have hnone := h.not_mem_of_unlocked (Bool.eq_false_of_not_eq_true hfree) c
      refine h.local_step (hcore.afterOwner (.inl hpc) ?_) rfl
        (between_afterOwner l caller false) (by rw [hpc]; rfl)
      exact iff_of_false Bool.false_ne_true hnone
  · rename_i caller l hpc
    cases hstep
    have hline : between (s.core c).pc = none := by
      rw [hpc]
      rfl
    refine h.local_step (hcore.afterOwner (.inr hpc) ?_) rfl (between_afterOwner l caller _) hline
    rw [decide_eq_true_iff]
    exact h.owner_iff_mem hline
  · rename_i l hpc
    split at hstep
    · cases hstep
      exact h
    · rename_i hfree
      cases hstep
      exact atomicSet_inv h hpc (Bool.eq_false_of_not_eq_true hfree)
  · rename_i l hpc
    cases hstep
    have hmem : l ∈ (s.core c).holds := by
      have hplace := hcore.place
      rwa [hpc] at hplace
    refine h.write_owner hmem trivial (by rw [hpc]; rfl) (iff_of_true rfl nofun) ?_ ?_
    · exact fun hsome => other_ne c (Option.some.inj hsome).symm
    · intro m hm
      rw [hpc]
      exact iff_of_false nofun fun hsome => hm (Option.some.inj hsome).symm
  · rename_i l hpc
    cases hstep
    have hmem : l ∈ (s.core c).holds := by
      have hplace := hcore.place
      rwa [hpc] at hplace
    refine h.write_owner hmem hmem (by rw [hpc]; rfl)
      (iff_of_false nofun fun hne => hne rfl) nofun ?_
    intro m hm
    rw [hpc]
    exact iff_of_false (fun hsome => hm (Option.some.inj hsome).symm) nofun
  · rename_i l hpc
    cases hstep
    exact atomicClear_inv h hpc
  · rename_i hpc
    cases hstep
    exact h.local_step (hcore.pop hpc) (popIntFlag_holds _) rfl (by rw [hpc]; rfl)

end

theorem spinStep_inv {s' : SpinState} (e : SpinEvent) (h : SpinInv s)
    (hstep : spinStep s e = some s') : SpinInv s' := by
  cases e with
  | acquire c | release c =>
    obtain ⟨hpc, rfl⟩ := Option.ite_some_none_eq_some.mp hstep
    refine h.local_step ((h.core c).move ?_ trivial) rfl rfl (by rw [hpc]; rfl)
    rw [hpc]
    rfl
  | run => exact runStep_inv h hstep
  | setMstatus c =>
    simp only [spinStep] at hstep
    split at hstep
    · rename_i hidle
      obtain ⟨hpc, hempty⟩ := hidle
      cases hstep
      have hcore := h.core c
      have hzero : (s.core c).nestCnt = 0 := by
        rw [hcore.nest, hpc, hempty]
        rfl
      refine h.local_step ⟨hcore.nest, ?_, fun _ => rfl, hcore.place⟩ rfl
        (by rw [hpc]; rfl) (by rw [hpc]; rfl)
      intro hpos
      simp only [hzero] at hpos
      cases hpos
    · cases hstep

theorem start_inv (mstatus : Cpu → BitVec 32) : SpinInv (SpinState.start mstatus) := by
  constructor
  · intro c
    exact ⟨rfl, nofun, fun _ => rfl, trivial⟩
  · intro l
    refine ⟨iff_of_false Bool.false_ne_true ?_, ?_, ?_⟩
    · rintro ⟨c, hc⟩
      exact Finset.notMem_empty l hc
    · intro c hc
      exact absurd hc (Finset.notMem_empty l)
    · intro c
      exact iff_of_false nofun fun hboth => Finset.notMem_empty l hboth.1

theorem SpinInv.intsRestored (h : SpinInv s) : IntsRestored s := by
  intro c
  have hcore := h.core c
  constructor
  · intro hholds
    have hpos := Finset.card_pos.mpr hholds
    exact (hcore.nested (by rw [hcore.nest]; omega)).1
  · intro hpc hempty
    apply hcore.unnested
    rw [hcore.nest, hpc, hempty]
    rfl

/-- In every run no lock is held by both CPUs, and `mstatus` is restored with the last release. -/
theorem reached_exclusive_intsRestored {mstatus : Cpu → BitVec 32} {s : SpinState}
    (h : Reached spinStep anyStep (SpinState.start mstatus) s) : Exclusive s ∧ IntsRestored s := by
  have hinv : SpinInv s := h.invariant SpinInv (start_inv mstatus)
    fun _ e _ hinv _ hstep => spinStep_inv e hinv hstep
  refine ⟨?_, hinv.intsRestored⟩
  intro l hmaster
  exact (hinv.lock l).exclusive .master hmaster

-- The master has acquired two locks, released the first one and tried to acquire the second
-- one again, while the slave has got the first one and spins on the second one.
theorem reached_exclusive_intsRestored_crossed :
    ∃ s, Reached spinStep anyStep (SpinState.start fun _ => mstatusMie) s ∧
      ((s.core .master).holds.card = 1 ∧ (s.core .slave).holds.card = 1) ∧
      Exclusive s ∧ IntsRestored s :=
  exists_reached_and (fun _ => reached_exclusive_intsRestored)
    (let first : LockId := ⟨0, by decide⟩
     let second : LockId := ⟨1, by decide⟩
     [.acquire .master first, .run .master, .run .master, .run .master, .run .master,
      .acquire .master second, .run .master, .run .master, .run .master, .run .master,
      .acquire .slave first, .run .slave, .run .slave, .run .slave, .run .slave,
      .release .master first, .run .master, .run .master, .run .master, .run .master, .run .master,
      .run .slave, .run .slave,
      .acquire .slave second, .run .slave, .run .slave, .run .slave, .run .slave,
      .acquire .master second, .run .master, .run .master, .run .master, .run .master])
    (by decide)

end BekenSoc.SpinLockRuns
