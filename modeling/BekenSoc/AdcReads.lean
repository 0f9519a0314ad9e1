import Mathlib.Data.Fintype.Basic
import BekenSoc.AdcDriver

namespace BekenSoc.AdcReads

open AdcDriver CRuntime GuardedRuns RtosEvents List

section Average

def total : List UInt16 → Nat
  | [] => 0
  | v :: samples => v.toNat + total samples

def average (config : Config) (samples : List UInt16) : Nat :=
  let mean := total samples / samples.length
  if config.rangeDivide then mean / 2 else mean

theorem total_le (samples : List UInt16) : total samples ≤ samples.length * (2 ^ 16 - 1) := by
  induction samples with
  | nil => exact Nat.le_refl 0
  | cons v =>
    have hv := v.toNat_lt
    rw [total, length_cons]
    omega

theorem total_append (samples samples' : List UInt16) :
    total (samples ++ samples') = total samples + total samples' := by
  induction samples with
  | nil => exact (Nat.zero_add _).symm
  | cons v samples ih => rw [cons_append, total, total, ih, Nat.add_assoc]

theorem total_take_succ {buf : List UInt16} {i : Nat} (h : i < buf.length) :
    total (buf.take (i + 1)) = total (buf.take i) + (buf.getD i 0).toNat := by
  rw [take_add_one, total_append, getD_eq_getElem?_getD, List.getElem?_eq_getElem h]
  rfl

theorem addU32_total {config : Config} {buf : List UInt16} {i : Nat} (hi : i < config.size)
    (hlen : buf.length = config.size) :
    addU32 (total (buf.take i)) (buf.getD i 0).toNat = total (buf.take (i + 1)) := by
  have hsize := config.size_lt
  have hle := total_le (buf.take (i + 1))
  rw [length_take] at hle
  rw [addU32, ← total_take_succ (hlen ▸ hi), Nat.mod_eq_of_lt (by omega)]

theorem readValue_total {config : Config} {samples : List UInt16}
    (hlen : samples.length = config.size) :
    (readValue config (total samples)).toNat = average config samples := by
  have hle := total_le samples
  have hmean : total samples / config.size < 2 ^ 16 := by
    rw [hlen] at hle
    have hdiv := Nat.div_le_of_le_mul hle
    omega
  rw [readValue, average, hlen]
  split
  · exact Nat.mod_eq_of_lt (lt_of_le_of_lt (Nat.div_le_self _ _) hmean)
  · exact Nat.mod_eq_of_lt hmean

end Average

section Fifo

variable {Caller : Type} {config : Config}

theorem adcReadFifo_spec {fifo buf buf' : List UInt16} {n n' : Nat}
    (h : adcReadFifo config fifo buf n = some (buf', n')) (hlen : buf.length = config.size)
    (hn : n ≤ config.size) : buf'.length = config.size ∧ n' = min config.size (n + fifo.length) ∧
      buf'.take n' = (buf.take n ++ fifo).take config.size := by
  induction fifo generalizing buf n with
  | nil =>
    obtain ⟨rfl, rfl⟩ := Prod.mk.inj (Option.some.inj h)
    refine ⟨hlen, (min_eq_right hn).symm, ?_⟩
    rw [append_nil, take_take, min_eq_right hn]
  | cons v fifo ih =>
    rw [adcReadFifo] at h
    split at h
    · rename_i hlt
      obtain ⟨hlen', hcnt, htake⟩ := ih h (by rw [length_set]; exact hlen) hlt
      have hset : (buf.set n v).take (n + 1) = buf.take n ++ [v] := by
        rw [take_add_one, take_set_of_le (le_refl n), List.getElem?_set_self (hlen ▸ hlt)]
        rfl
      refine ⟨hlen', ?_, ?_⟩
      · rw [length_cons]
        omega
      · rw [htake, hset, append_assoc]
        rfl
    · rename_i hfull
      split at h
      · obtain ⟨hlen', hcnt, htake⟩ := ih h hlen hn
        have heq : n = config.size := le_antisymm hn (Nat.le_of_not_lt hfull)
        have hbuf : (buf.take n).length = config.size := by rw [length_take, hlen, heq, min_self]
        refine ⟨hlen', ?_, ?_⟩
        · omega
        · rw [htake, take_left' hbuf, take_left' hbuf]
      · cases h

end Fifo

section Guard

variable {Caller : Type}

/-- A call starts with the converter stopped, no completion left over and no other call going on. -/
def Clean (s : Adc Caller) : Event Caller → Prop
  | .enter _ _ => (∀ d, s.pc d = .idle) ∧ s.enabled = false ∧ s.token = false
  | _ => True

instance [Fintype Caller] (s : Adc Caller) (e : Event Caller) : Decidable (Clean s e) :=
  match e with
  | .enter .. => inferInstanceAs (Decidable ((∀ _, _) ∧ _ ∧ _))
  | .sample .. | .isr | .start .. | .take .. | .timeOut .. | .add .. | .leave .. => isTrue trivial

/-- The value of a call that returned `BK_OK` is the average of the configured number of samples,
all taken after the call started. -/
def Averaged (config : Config) (s : Adc Caller) (c : Caller) : Prop :=
  ∀ since data, s.pc c = .returned since (.ok data) → since + config.size ≤ s.taken.length ∧
      data.toNat = average config ((s.taken.drop since).take config.size)

end Guard

section Invariant

variable {Caller : Type} {config : Config} {s s' : Adc Caller}

def Filled (config : Config) (s : Adc Caller) (since : Nat) : Prop :=
  since + config.size ≤ s.taken.length ∧ s.buf = (s.taken.drop since).take config.size

def CallOk (config : Config) (s : Adc Caller) : Pc → Prop
  | .idle => True
  | .entered since _ =>
    0 < config.size ∧ s.enabled = false ∧ s.token = false ∧ s.taken.length = since
  | .waiting since _ =>
    0 < config.size ∧ (s.token = false ∧ s.enabled = true ∧ since ≤ s.taken.length ∧
          s.buf.take s.sampleCnt ++ s.fifo = s.taken.drop since ∨
        s.token = true ∧ s.enabled = false ∧ Filled config s since)
  | .summing since i sum =>
    0 < config.size ∧ s.token = false ∧ s.enabled = false ∧ Filled config s since ∧
      i ≤ config.size ∧ sum = total (s.buf.take i)
  | .returned since (.ok data) =>
    since + config.size ≤ s.taken.length ∧
      data.toNat = average config ((s.taken.drop since).take config.size)
  | .returned _ _ => True

structure Sound (config : Config) (s : Adc Caller) : Prop where
  len : s.buf.length = config.size
  cnt : s.sampleCnt ≤ config.size
  off : s.enabled = false → s.fifo = [] ∧ s.sampleCnt = 0
  one : ∀ c d, s.pc c ≠ .idle → s.pc d ≠ .idle → c = d
  calls : ∀ c, CallOk config s (s.pc c)

theorem sound_initial : Sound config (initial Caller config) where
  len := length_replicate
  cnt := Nat.zero_le _
  off := fun _ => ⟨rfl, rfl⟩
  one := fun _ _ h => absurd rfl h
  calls := fun _ => trivial

theorem returned_append {since : Nat} {data : UInt16} (v : UInt16)
    (h : since + config.size ≤ s.taken.length ∧
      data.toNat = average config ((s.taken.drop since).take config.size)) :
    since + config.size ≤ (s.taken ++ [v]).length ∧
      data.toNat = average config (((s.taken ++ [v]).drop since).take config.size) := by
  obtain ⟨hlen, hdata⟩ := h
  refine ⟨le_trans hlen (by rw [length_append]; exact Nat.le_add_right _ _), ?_⟩
  rw [drop_append_of_le_length (by omega), take_append_of_le_length (by rw [length_drop]; omega)]
  exact hdata

theorem Sound.sample (h : Sound config s) (hen : s.enabled = true) (v : UInt16) :
    Sound config { s with fifo := s.fifo ++ [v], taken := s.taken ++ [v] } where
  len := h.len
  cnt := h.cnt
  off := fun hoff => absurd (hen.symm.trans hoff) nofun
  one := h.one
  calls := by
    intro c
    have hc := h.calls c
    revert hc
    cases s.pc c with
    | idle => exact fun _ => trivial
    | entered => exact fun hc => absurd (hen.symm.trans hc.2.1) nofun
    | waiting =>
      rintro ⟨hsize, ⟨htoken, -, hsince, hbuf⟩ | ⟨-, hoff, -⟩⟩
      · refine ⟨hsize, .inl ⟨htoken, hen, ?_, ?_⟩⟩
        · rw [length_append]
          exact Nat.le_add_right_of_le hsince
        · rw [← append_assoc, hbuf, drop_append_of_le_length hsince]
      · exact absurd (hen.symm.trans hoff) nofun
    | summing => exact fun hc => absurd (hen.symm.trans hc.2.2.1) nofun
    | returned since ret =>
      cases ret with
      | ok => exact returned_append v
      | errNotInit | errBusy | errGetReadSema | code => exact fun _ => trivial

theorem adcIsr_off (h : Sound config s) (hsize : 0 < config.size) (hoff : s.enabled = false) :
    adcIsr config s = some s := by
  obtain ⟨hfifo, hcnt⟩ := h.off hoff
  rw [adcIsr, hfifo, adcReadFifo]
  dsimp only
  rw [if_neg (by omega), ← hfifo]

theorem adcIsr_on (h : Sound config s) (hen : s.enabled = true) (hs : adcIsr config s = some s') :
    s'.buf.length = config.size ∧ s'.fifo = [] ∧ s'.pc = s.pc ∧ s'.taken = s.taken ∧
      ((s'.token = s.token ∧ s'.enabled = true ∧ s'.sampleCnt < config.size ∧
          s'.buf.take s'.sampleCnt = s.buf.take s.sampleCnt ++ s.fifo) ∨
        (s'.token = true ∧ s'.enabled = false ∧ s'.sampleCnt = 0 ∧
          config.size ≤ (s.buf.take s.sampleCnt ++ s.fifo).length ∧
          s'.buf = (s.buf.take s.sampleCnt ++ s.fifo).take config.size)) := by
  rw [adcIsr] at hs
  cases hread : adcReadFifo config s.fifo s.buf s.sampleCnt with
  | none => rw [hread] at hs; cases hs
  | some =>
    obtain ⟨hlen, hn, htake⟩ := adcReadFifo_spec hread h.len h.cnt
    have hold : (s.buf.take s.sampleCnt ++ s.fifo).length = s.sampleCnt + s.fifo.length := by
      rw [length_append, length_take, h.len, min_eq_left h.cnt]
    rw [hread] at hs
    dsimp only at hs
    split at hs
    · rename_i hfull
      obtain rfl := Option.some.inj hs
      rw [bkAdcStop, if_pos hen]
      refine ⟨hlen, rfl, rfl, rfl, .inr ⟨rfl, rfl, rfl, by omega, ?_⟩⟩
      rw [← htake]
      exact (take_of_length_le (hlen.le.trans hfull)).symm
    · obtain rfl := Option.some.inj hs
      refine ⟨hlen, rfl, rfl, rfl, .inl ⟨rfl, hen, by dsimp only; omega, ?_⟩⟩
      rw [htake, take_of_length_le (by omega)]

theorem Sound.isr (h : Sound config s) (hs : adcIsr config s = some s') : Sound config s' := by
  cases hen : s.enabled with
  | false =>
    by_cases hsize : 0 < config.size
    · rw [adcIsr_off h hsize hen] at hs
      exact Option.some.inj hs ▸ h
    · -- without a buffer every call returned at once
      obtain ⟨hfifo, hcnt⟩ := h.off hen
      rw [adcIsr, hfifo, adcReadFifo] at hs
      dsimp only at hs
      rw [if_pos (by omega), bkAdcStop, if_neg (by rw [hen]; decide)] at hs
      obtain rfl := Option.some.inj hs
      refine ⟨h.len, h.cnt, fun _ => ⟨rfl, hcnt⟩, h.one, fun c => ?_⟩
      have hc := h.calls c
      revert hc
      cases s.pc c with
      | idle => exact fun _ => trivial
      | entered | waiting | summing => exact fun hc => absurd hc.1 hsize
      | returned since ret => cases ret <;> exact id
  | true =>
    obtain ⟨hlen, hfifo, hpc, htaken, hcase⟩ := adcIsr_on h hen hs
    have hcalls : ∀ c, CallOk config s' (s.pc c) := by
      intro c
      have hc := h.calls c
      revert hc
      cases s.pc c with
      | idle => exact fun _ => trivial
      | entered => exact fun hc => absurd (hen.symm.trans hc.2.1) nofun
      | waiting =>
        rintro ⟨hsize, ⟨htoken, -, hsince, hbuf⟩ | ⟨-, hoff, -⟩⟩
        · refine ⟨hsize, ?_⟩
          rw [Filled, htaken]
          rw [hbuf] at hcase
          obtain ⟨htoken', hen', -, hbuf'⟩ | ⟨htoken', hoff', -, hlen', hbuf'⟩ := hcase
          · exact .inl ⟨htoken'.trans htoken, hen', hsince, by
              rw [hbuf', hfifo, append_nil]⟩
          · rw [length_drop] at hlen'
            exact .inr ⟨htoken', hoff', by omega, hbuf'⟩
        · exact absurd (hen.symm.trans hoff) nofun
      | summing => exact fun hc => absurd (hen.symm.trans hc.2.2.1) nofun
      | returned since ret =>
        cases ret with
        | ok =>
          rw [CallOk, CallOk, htaken]
          exact id
        | errNotInit | errBusy | errGetReadSema | code => exact fun _ => trivial
    refine ⟨hlen, ?_, fun hoff => ⟨hfifo, ?_⟩, hpc ▸ h.one, hpc ▸ hcalls⟩
    · obtain ⟨-, -, hcnt, -⟩ | ⟨-, -, hcnt, -⟩ := hcase <;> omega
    · obtain ⟨-, hen', -, -⟩ | ⟨-, -, hcnt, -⟩ := hcase
      · exact absurd (hen'.symm.trans hoff) nofun
      · exact hcnt

theorem Sound.move [DecidableEq Caller] (h : Sound config s) {c : Caller} {pc : Pc}
    (hothers : ∀ d, d ≠ c → s.pc d = .idle) (enabled token : Bool)
    (hoff : enabled = false → s.fifo = [] ∧ s.sampleCnt = 0)
    (hpc : CallOk config { s with enabled := enabled, token := token } pc) :
    Sound config (setPc { s with enabled := enabled, token := token } c pc) where
  len := h.len
  cnt := h.cnt
  off := hoff
  one := by
    have hidle : ∀ d, (setPc { s with enabled := enabled, token := token } c pc).pc d ≠ .idle →
        d = c := by
      intro d hd
      by_contra hne
      refine hd ?_
      dsimp only [setPc]
      rw [Function.update_of_ne hne, hothers d hne]
    intro d e hd he
    rw [hidle d hd, hidle e he]
  calls := by
    intro d
    dsimp only [setPc]
    by_cases hd : d = c
    · rw [hd, Function.update_self]
      revert hpc
      cases pc with
      | returned since ret => cases ret <;> exact id
      | _ => exact id
    · rw [Function.update_of_ne hd, hothers d hd]
      trivial

theorem Sound.others (h : Sound config s) {c : Caller} (hc : s.pc c ≠ .idle) :
    ∀ d, d ≠ c → s.pc d = .idle := by
  intro d hd
  by_contra hne
  exact hd (h.one d c hne hc)

theorem Sound.step [DecidableEq Caller] {e : Event Caller} (hmode : config.mode ≠ .singleStep)
    (h : Sound config s) (hok : Clean s e) (hs : step config s e = some s') : Sound config s' := by
  cases e with
  | sample v =>
    obtain ⟨hen, rfl⟩ := Option.ite_some_none_eq_some.mp hs
    exact h.sample hen v
  | isr => exact h.isr hs
  | enter =>
    obtain ⟨hidle, hoff, htoken⟩ := hok
    rw [AdcDriver.step] at hs
    split at hs
    · split at hs
      · obtain rfl := Option.some.inj hs
        exact h.move (fun d _ => hidle d) s.enabled s.token h.off trivial
      · rename_i hsize
        obtain rfl := Option.some.inj hs
        exact h.move (fun d _ => hidle d) s.enabled s.token h.off
          ⟨Nat.pos_of_ne_zero hsize, hoff, htoken, rfl⟩
    · cases hs
  | start c =>
    have hc := h.calls c
    rw [AdcDriver.step] at hs
    split at hs
    · rename_i since timeout hpc
      have hothers := h.others (c := c) (by rw [hpc]; exact nofun)
      rw [hpc] at hc
      obtain ⟨hsize, hoff, htoken, hsince⟩ := hc
      split at hs
      · obtain rfl := Option.some.inj hs
        exact h.move hothers s.enabled s.token h.off trivial
      · obtain rfl := Option.some.inj hs
        obtain ⟨hfifo, hcnt⟩ := h.off hoff
        refine h.move hothers true s.token nofun ⟨hsize, .inl ⟨htoken, rfl, hsince.ge, ?_⟩⟩
        rw [hfifo, hcnt, ← hsince, drop_length]
        rfl
    · cases hs
  | take c =>
    have hc := h.calls c
    rw [AdcDriver.step] at hs
    split at hs
    · rename_i since timeout hpc htoken
      have hothers := h.others (c := c) (by rw [hpc]; exact nofun)
      rw [hpc] at hc
      obtain ⟨hsize, ⟨hnone, -⟩ | ⟨-, hoff, hfilled⟩⟩ := hc
      · exact absurd (hnone.symm.trans htoken) nofun
      · obtain rfl := Option.some.inj hs
        exact h.move hothers s.enabled false h.off ⟨hsize, rfl, hoff, hfilled, Nat.zero_le _, rfl⟩
    · cases hs
  | timeOut c =>
    rw [AdcDriver.step] at hs
    split at hs
    · rename_i since timeout hpc htoken
      have hothers := h.others (c := c) (by rw [hpc]; exact nofun)
      split at hs
      · cases hs
      · obtain rfl := Option.some.inj hs
        exact h.move hothers s.enabled s.token h.off trivial
    · cases hs
  | add c =>
    have hc := h.calls c
    rw [AdcDriver.step] at hs
    split at hs
    · rename_i since i sum hpc
      have hothers := h.others (c := c) (by rw [hpc]; exact nofun)
      rw [hpc] at hc
      obtain ⟨hsize, htoken, hoff, hfilled, hi, rfl⟩ := hc
      split at hs
      · rename_i hlt
        obtain rfl := Option.some.inj hs
        exact h.move hothers s.enabled s.token h.off
          ⟨hsize, htoken, hoff, hfilled, hlt, addU32_total hlt h.len⟩
      · obtain rfl := Option.some.inj hs
        refine h.move hothers s.enabled s.token h.off ⟨hfilled.1, ?_⟩
        rw [take_of_length_le (by rw [h.len]; omega), readValue_total h.len, hfilled.2]
    · cases hs
  | leave c =>
    rw [AdcDriver.step] at hs
    split at hs
    · rename_i since ret hpc
      obtain rfl := Option.some.inj hs
      exact h.move (h.others (c := c) (by rw [hpc]; exact nofun)) s.enabled s.token h.off trivial
    · cases hs

end Invariant

section Runs

/-- In a mode that collects samples by interrupt, every call of a run in which each call starts
clean returns with `BK_OK` the average of samples that were taken after it started. -/
theorem averaged_of_clean {Caller : Type} [DecidableEq Caller] {config : Config} {s : Adc Caller}
    (hmode : config.mode ≠ .singleStep)
    (h : Reached (step config) Clean (initial Caller config) s) (c : Caller) :
    Averaged config s c := by
  have hsound : Sound config s :=
    h.invariant (Sound config) sound_initial fun _ _ _ hs hok hstep => hs.step hmode hok hstep
  intro since data hpc
  have hc := hsound.calls c
  rw [hpc] at hc
  exact hc

def continuousConfig : Config := ⟨32, by decide, .continuous, true⟩

theorem averaged_of_clean_one :
    ∃ s, Reached (step continuousConfig) Clean (initial (Fin 1) continuousConfig) s ∧
      s.pc 0 = .returned 0 (.ok 5) ∧ Averaged continuousConfig s 0 :=
  exists_reached_and (fun _ h => averaged_of_clean (by decide) h 0)
    ([.enter 0 1000, .start 0 false 0] ++ replicate 32 (.sample 10) ++ [.isr, .take 0] ++
      replicate 33 (.add 0)) (by decide +kernel)

theorem stale_completion :
    ∃ s, Reached (step continuousConfig) anyStep (initial (Fin 1) continuousConfig) s ∧
      s.pc 0 = .returned 32 (.ok 5) ∧ s.taken.length = 32 ∧ ¬ Averaged continuousConfig s 0 := by
  obtain ⟨s, hreached, hpc, htaken⟩ := exists_reached (step continuousConfig) anyStep
    (initial (Fin 1) continuousConfig)
    (fun s => s.pc 0 = .returned 32 (.ok 5) ∧ s.taken.length = 32)
    ([.enter 0 1000, .start 0 false 0, .timeOut 0, .leave 0] ++
      replicate 32 (.sample 10) ++ [.isr, .enter 0 1000, .start 0 false 0, .take 0] ++
      replicate 33 (.add 0)) (by decide +kernel)
  refine ⟨s, hreached, hpc, htaken, fun haveraged => ?_⟩
  have hlen := (haveraged 32 5 hpc).1
  rw [htaken] at hlen
  exact absurd hlen (by decide)

end Runs

end BekenSoc.AdcReads
