import BekenSoc.CRuntime
import BekenSoc.GuardedRuns

/-!
The console of `cli_main.c`: `get_input` gathers a line, completes the name of a command, and
takes the frames of the register tool, which begin with three bytes and a length.
-/

namespace BekenSoc.ConsoleInput

open CRuntime GuardedRuns

structure Cli where
  configKeyvalue : Bool
  /-- the names of the registered commands -/
  commands : List (List UInt8)

def Cli.inbufSize (cli : Cli) : Nat := if cli.configKeyvalue then 1024 else 128

/-- The input buffer and the position `bp`.  `frame` has the bytes that are left of a frame, and
its length with the first four; `reach` is one more than the last place that was written. -/
structure Console where
  inbuf : Nat → UInt8
  bp : Nat
  frame : Option (Nat × Nat)
  reach : Nat

def initial : Console := ⟨fun _ => 0, 0, none, 0⟩

variable (cli : Cli)

def Console.write (s : Console) (p : Nat) (b : UInt8) : Console :=
  { s with inbuf := Function.update s.inbuf p b, reach := max s.reach (p + 1) }

def Console.fill (s : Console) (p n : Nat) (bytes : Nat → UInt8) : Console :=
  { s with inbuf := fun q => if p ≤ q ∧ q < p + n then bytes (q - p) else s.inbuf q
           reach := if n = 0 then s.reach else max s.reach (p + n) }

def Console.line (s : Console) : List UInt8 := (List.range s.bp).map s.inbuf

def candidates (s : Console) : List (List UInt8) :=
  cli.commands.filter fun name => strncmpEq s.bp s.line name

def Console.complete (s : Console) (fm : List UInt8) (n bp : Nat) : Console :=
  let s := { s.fill s.bp n fun i => fm.getD (s.bp + i) 0 with bp := bp }
  { s.write bp 0x20 with bp := bp + 1 }.write (bp + 1) 0

def tabComplete (s : Console) : Console :=
  match candidates cli s with
  | [fm] =>
    if addU32 s.bp (subU32 fm.length s.bp) < cli.inbufSize then
      s.complete fm (subU32 fm.length s.bp) (addU32 s.bp (subU32 fm.length s.bp))
    else s
  | _ => s

def endFrame (s : Console) (len : Nat) : Console :=
  { s.fill 0 len fun _ => 0 with bp := 0, frame := none }

def atFrame (s : Console) : Bool :=
  s.inbuf 0 == 0x01 && s.inbuf 1 == 0xe0 && s.inbuf 2 == 0xfc && s.bp == 3

def startFrame (s : Console) (ch : UInt8) : Console :=
  let s := { s with bp := s.bp + 1 }
  if cli.inbufSize ≤ ch.toNat then { s with bp := 0 }
  else if ch = 0 then endFrame s 4
  else { s with frame := some (ch.toNat, (4 + ch.toNat) % 2 ^ 8) }

def frameChar (s : Console) (left len : Nat) (ch : UInt8) : Console :=
  let s := { s.write s.bp ch with bp := s.bp + 1 }
  if left = 1 then endFrame s len else { s with frame := some (left - 1, len) }

def lineChar (s : Console) (b : UInt8) : Console :=
  if b = 0x01 ∧ s.bp = 0 ∨ b = 0xe0 ∧ s.bp = 1 ∨ b = 0xfc ∧ s.bp = 2 then
    { s with bp := s.bp + 1 }
  else if atFrame s then startFrame cli s b
  else if b = 0x0a then s
  else if b = 0x0d then { s.write s.bp 0 with bp := 0 }
  else if b = 0x08 ∨ b = 0x7f then { s with bp := s.bp - 1 }
  else if b = 0x09 then tabComplete cli (s.write s.bp 0)
  else if cli.inbufSize ≤ s.bp + 1 then { s with bp := 0 }
  else { s with bp := s.bp + 1 }

def step (s : Console) (e : Option UInt8) : Option Console :=
  match s.frame, e with
  | none, none => some s
  | none, some b => some (lineChar cli (s.write s.bp b) b)
  | some (_, len), none => some (endFrame s len)
  | some (left, len), some ch => some (frameChar s left len ch)

structure Inside (s : Console) : Prop where
  reach : s.reach ≤ cli.inbufSize
  bp : s.bp < cli.inbufSize

/-- The only command to complete a line to has room with a space and a terminator, or is
refused, and is not shorter than the line. -/
def CompletionFits (s : Console) : Prop :=
  (candidates cli s).length = 1 → ∀ fm ∈ candidates cli s, cli.inbufSize ≤ fm.length % 2 ^ 32 ∨
      s.bp ≤ fm.length % 2 ^ 32 ∧ fm.length % 2 ^ 32 + 1 < cli.inbufSize

def FrameFits (b : UInt8) : Prop := cli.inbufSize ≤ b.toNat ∨ b.toNat + 4 ≤ cli.inbufSize

def Fits (s : Console) (e : Option UInt8) : Prop :=
  s.frame = none → ∀ b ∈ e, (atFrame s = true → FrameFits cli b) ∧ (b = 0x09 → CompletionFits cli s)

instance (s : Console) : Decidable (CompletionFits cli s) :=
  inferInstanceAs (Decidable (_ → ∀ _ ∈ _, _))

instance (b : UInt8) : Decidable (FrameFits cli b) := inferInstanceAs (Decidable (_ ∨ _))

instance (s : Console) (e : Option UInt8) : Decidable (Fits cli s e) :=
  inferInstanceAs (Decidable (_ → ∀ _ ∈ _, _))

structure ConsoleInv (s : Console) : Prop extends Inside cli s where
  frame : ∀ left len, s.frame = some (left, len) →
    0 < left ∧ s.bp + left ≤ cli.inbufSize ∧ len ≤ cli.inbufSize

variable {cli} {s s' : Console} {e : Option UInt8} {b : UInt8}

section

variable (h : Inside cli s)
include h

theorem Inside.write {p : Nat} (hp : p < cli.inbufSize) (b : UInt8) : Inside cli (s.write p b) :=
  ⟨Nat.max_le.mpr ⟨h.reach, hp⟩, h.bp⟩

theorem Inside.fill {p n : Nat} (hp : p + n ≤ cli.inbufSize) (bytes : Nat → UInt8) :
    Inside cli (s.fill p n bytes) := by
  refine ⟨?_, h.bp⟩
  rw [Console.fill]
  dsimp only
  split
  · exact h.reach
  · exact Nat.max_le.mpr ⟨h.reach, hp⟩

theorem Inside.setBp {bp : Nat} (hbp : bp < cli.inbufSize) : Inside cli { s with bp := bp } :=
  ⟨h.reach, hbp⟩

theorem ConsoleInv.of_none (hnone : s.frame = none) : ConsoleInv cli s :=
  ⟨h, fun _ _ hsome => absurd (hnone.symm.trans hsome) (Option.some_ne_none _).symm⟩

theorem ConsoleInv.endFrame {len : Nat} (bp : Nat) (hlen : len ≤ cli.inbufSize) :
    ConsoleInv cli (endFrame { s with bp := bp } len) := by
  have hclear := h.fill (p := 0) (n := len) (by omega) fun _ => 0
  exact ⟨⟨hclear.reach, Nat.lt_of_le_of_lt (Nat.zero_le _) h.bp⟩, nofun⟩

theorem Inside.complete (fm : List UInt8) {n bp : Nat} (hn : s.bp + n ≤ cli.inbufSize)
    (hbp : bp + 1 < cli.inbufSize) : Inside cli (s.complete fm n bp) := by
  have hlt := Nat.lt_of_succ_lt hbp
  have hspace := ((h.fill hn fun i => fm.getD (s.bp + i) 0).setBp hlt).write hlt 0x20
  exact (hspace.setBp hbp).write hbp 0

end

theorem Cli.inbufSize_bounds (cli : Cli) : 4 ≤ cli.inbufSize ∧ cli.inbufSize < 2 ^ 32 := by
  rw [Cli.inbufSize]
  split <;> decide

theorem Inside.tabComplete (h : Inside cli s) (hfits : CompletionFits cli s) :
    Inside cli (tabComplete cli s) := by
  have hbp := h.bp
  have hsize := cli.inbufSize_bounds
  rw [ConsoleInput.tabComplete]
  split
  · rename_i fm hone
    have hend : addU32 s.bp (subU32 fm.length s.bp) = fm.length % 2 ^ 32 := by
      rw [addU32, subU32]
      omega
    rw [hend]
    split
    · obtain ⟨hle, hroom⟩ : s.bp ≤ fm.length % 2 ^ 32 ∧ fm.length % 2 ^ 32 + 1 < cli.inbufSize := by
        rw [CompletionFits, hone] at hfits
        have := hfits rfl fm (List.mem_singleton_self fm)
        omega
      have hn : s.bp + subU32 fm.length s.bp ≤ cli.inbufSize := by
        rw [subU32]
        omega
      exact h.complete fm hn hroom
    · exact h
  · exact h

theorem candidates_write (s : Console) (b : UInt8) :
    candidates cli (s.write s.bp b) = candidates cli s := by
  have hline : (s.write s.bp b).line = s.line := by
    apply List.map_congr_left
    intro i hi
    exact Function.update_of_ne (Nat.ne_of_lt (List.mem_range.mp hi)) _ _
  rw [candidates, hline]
  rfl

theorem atFrame_write (s : Console) (b : UInt8) : atFrame (s.write s.bp b) = atFrame s := by
  by_cases hbp : s.bp = 3
  · simp [atFrame, Console.write, hbp]
  · simp [atFrame, Console.write, beq_false_of_ne hbp]

theorem ConsoleInv.startFrame (h : Inside cli s) (hnone : s.frame = none)
    (hframe : atFrame s = true) (hfits : FrameFits cli b) :
    ConsoleInv cli (startFrame cli s b) := by
  rw [FrameFits] at hfits
  have hbp : s.bp = 3 := by
    rw [atFrame, Bool.and_eq_true, beq_iff_eq] at hframe
    exact hframe.2
  have hlt := h.bp
  rw [ConsoleInput.startFrame]
  dsimp only
  split
  · exact .of_none (h.setBp (by omega)) hnone
  · split
    · exact .endFrame h _ (by omega)
    · rename_i hzero
      have hpos : b.toNat ≠ 0 := fun h0 => hzero (UInt8.toNat_inj.mp h0)
      have hlen := Nat.mod_le (4 + b.toNat) (2 ^ 8)
      rw [hbp]
      refine ⟨⟨h.reach, by dsimp only; omega⟩, fun left len hsome => ?_⟩
      cases hsome
      exact ⟨by omega, by dsimp only; omega, by omega⟩

theorem frame_tabComplete (s : Console) : (tabComplete cli s).frame = s.frame := by
  have hcomplete : ∀ fm n bp, (s.complete fm n bp).frame = s.frame := fun _ _ _ => rfl
  rw [tabComplete]
  split
  · rw [apply_ite Console.frame, hcomplete, ite_self]
  · rfl

theorem ConsoleInv.lineChar (h : Inside cli s) (hnone : s.frame = none)
    (hframe : atFrame s = true → FrameFits cli b) (htab : b = 0x09 → CompletionFits cli s) :
    ConsoleInv cli (lineChar cli s b) := by
  have hbp := h.bp
  have hsize := cli.inbufSize_bounds
  have hmove : ∀ bp < cli.inbufSize, ConsoleInv cli { s with bp := bp } :=
    fun bp hlt => .of_none (h.setBp hlt) hnone
  rw [ConsoleInput.lineChar]
  split
  · exact hmove _ (by omega)
  split
  · exact .startFrame h hnone ‹_› (hframe ‹_›)
  split
  · exact .of_none h hnone
  split
  · exact .of_none ((h.write hbp 0).setBp (by omega)) hnone
  split
  · exact hmove _ (by omega)
  split
  · refine .of_none ((h.write hbp 0).tabComplete ?_) ((frame_tabComplete _).trans hnone)
    rw [CompletionFits, candidates_write]
    exact htab ‹_›
  split
  · exact hmove 0 (by omega)
  · exact hmove _ (by omega)

theorem ConsoleInv.step (h : ConsoleInv cli s) (hfits : Fits cli s e)
    (hstep : step cli s e = some s') : ConsoleInv cli s' := by
  have hbp := h.bp
  unfold ConsoleInput.step at hstep
  split at hstep
  · cases hstep
    exact h
  · rename_i b hnone
    cases hstep
    obtain ⟨hframe, htab⟩ := hfits hnone b rfl
    refine .lineChar (h.toInside.write hbp b) hnone ?_ ?_
    · rw [atFrame_write]
      exact hframe
    · rw [CompletionFits, candidates_write]
      exact htab
  · rename_i left len hsome
    cases hstep
    exact .endFrame h.toInside s.bp (h.frame left len hsome).2.2
  · rename_i left len ch hsome
    cases hstep
    obtain ⟨hleft, hroom, hlen⟩ := h.frame left len hsome
    have hwrite := h.toInside.write hbp ch
    rw [frameChar]
    dsimp only
    split
    · exact .endFrame hwrite _ hlen
    · refine ⟨⟨hwrite.reach, by dsimp only; omega⟩, fun left' len' hsome' => ?_⟩
      cases hsome'
      exact ⟨by omega, by dsimp only; omega, hlen⟩

theorem consoleInv_initial : ConsoleInv cli initial :=
  .of_none ⟨Nat.zero_le _, Nat.lt_of_lt_of_le (by decide) cli.inbufSize_bounds.1⟩ rfl

/-- The console writes inside the buffer and keeps its position there, if the frames and the
completed names fit. -/
theorem console_inside (h : Reached (step cli) (Fits cli) initial s) : Inside cli s :=
  (h.invariant (ConsoleInv cli) consoleInv_initial fun _ _ _ hinv => hinv.step).toInside

theorem console_inside_help :
    let cli : Cli := ⟨false, [[0x68, 0x65, 0x6c, 0x70], [0x70, 0x73]]⟩
    ∃ s, Reached (step cli) (Fits cli) initial s ∧ s.bp = 5 ∧ Inside cli s :=
  exists_reached_and (fun _ => console_inside) [some 0x68, some 0x09] (by decide +kernel)

-- A name of 127 characters is completed with its terminator behind the buffer, and a frame of
-- 125 bytes is cleared with one byte behind it.
theorem completion_and_frame_leave :
    let cli : Cli := ⟨false, [List.replicate 127 0x78]⟩
    (∃ s, Reached (step cli) anyStep initial s ∧ s.bp = cli.inbufSize ∧
      s.reach = cli.inbufSize + 1) ∧
    ∃ s, Reached (step cli) anyStep initial s ∧ s.bp = 0 ∧ s.reach = cli.inbufSize + 1 :=
  ⟨exists_reached _ _ _ _ [some 0x78, some 0x09] (by decide +kernel),
    exists_reached _ _ _ _ [some 0x01, some 0xe0, some 0xfc, some 125, none] (by decide)⟩

end BekenSoc.ConsoleInput
