import BekenSoc.CRuntime

/-!
The command lines of `cli_main.c`.

`handle_input` and `handle_shell_input` split a line in place with the same loop.  They differ in
the number of characters after which the loop stops: the one may stop before the terminator,
and then does not make the checks at the end of the line.
-/

namespace BekenSoc.CommandLines

open CRuntime List Option

abbrev Arg := Nat × List UInt8

/-- The state of the loop at the index `i`.  `arg` is the argument that it is in, and `argv`
has those before; the character before the index is the last one of `arg`, if it has one. -/
structure Stat where
  i : Nat
  inQuote : Bool
  limQ : Bool
  isD : Nat
  argv : List Arg
  arg : Option Arg
  deriving DecidableEq

def Stat.init : Stat := ⟨0, false, false, 0, [], none⟩

def Stat.args (s : Stat) : List Arg := s.argv ++ s.arg.toList

def Stat.cut (s : Stat) : Stat := { s with argv := s.args, arg := none }

def Stat.keep (s : Stat) (b : UInt8) : Stat :=
  { s with arg := s.arg.map fun a => (a.1, a.2 ++ [b]) }

def Stat.escaped (s : Stat) : Bool := s.arg.any fun a => a.2.getLast? == some 0x5c

def Stat.unescape (s : Stat) (b : UInt8) : Stat :=
  { s with arg := s.arg.map fun a => (a.1, a.2.dropLast ++ [b]) }

def Stat.next (s : Stat) : Stat := { s with i := s.i + 1 }

def stepChar (s : Stat) (b : UInt8) : Option Stat :=
  if b = 0x22 then
    if s.escaped then some (s.unescape b)
    else
      match s.inQuote, s.arg with
      | false, some _ => some (s.keep b).next
      | true, none => none
      | false, none => some { s with i := s.i + 1, inQuote := true, arg := some (s.i + 1, []) }
      | true, some _ => some { s.cut.next with inQuote := false }
  else if b = 0x20 then
    if s.escaped then some (s.unescape b)
    else if s.inQuote then some (s.keep b).next
    else some s.cut.next
  else if b = 0x3d then
    match s.args with
    | [] => none
    | [_] => some { s.cut.next with isD := 1 }
    | _ => some (s.keep b).next
  else if b = 0x2c then
    if s.isD = 1 ∧ s.args.length = 1 then none
    else if s.inQuote = false ∧ s.arg.isSome then some { s.cut.next with limQ := true }
    else some (s.keep b).next
  else
    match s.arg with
    | some _ => some (s.keep b).next
    | none =>
      some { s.next with arg := some (s.i, [b]), limQ := false,
                         isD := if s.isD = 1 then 2 else s.isD }

def Stat.endsWell (s : Stat) : Bool := !(s.args.isEmpty || s.isD == 1 || s.limQ || s.inQuote)

def scan (limit : Nat) (s : Stat) : List UInt8 → Option Stat
  | [] => if s.endsWell then some s else none
  | b :: rest =>
    match stepChar s b with
    | none => none
    | some s =>
      if s.i < limit then scan limit s rest
      else some { s with arg := s.arg.map fun a => (a.1, a.2 ++ rest) }

def lookupCommand (commands : List (List UInt8)) (name : List UInt8) : Option (List UInt8) :=
  let len := if 0x2e ∈ name then (name.takeWhile (· ≠ 0x2e)).length else 0
  commands.find? fun c => if len ≠ 0 then strncmpEq len c name else decide (c = name)

def dispatch (commands : List (List UInt8)) (s : Stat) :
    Nat × Option (List UInt8 × List (List UInt8)) :=
  if s.inQuote then (2, none)
  else
    match s.args.map Prod.snd with
    | [] => (0, none)
    | name :: args =>
      match lookupCommand commands name with
      | none => (1, none)
      | some c => (0, some (c, name :: args))

def handle (commands : List (List UInt8)) (limit : Nat) (line : List UInt8) :
    Nat × Option (List UInt8 × List (List UInt8)) :=
  if line = [] then (0, none)
  else ((scan limit .init line).map (dispatch commands)).getD (2, none)

def handleShellInput (commands : List (List UInt8)) (line : List UInt8) :=
  handle commands line.length line

def handleInput (commands : List (List UInt8)) (inbufSize : Nat) (line : List UInt8) :=
  handle commands inbufSize line

def feed (s : Stat) (line : List UInt8) : Option Stat := line.foldlM stepChar s

variable {s s' : Stat} {b : UInt8} {line rest : List UInt8} {limit : Nat}

theorem stepChar_cases (h : stepChar s b = some s') :
    s'.i = s.i + 1 ∧ s'.argv = s.args ∧ s'.arg = none ∨
    s'.i = s.i + 1 ∧ s'.argv = s.argv ∧ s'.arg = (s.keep b).arg ∨
    s'.i = s.i ∧ s'.argv = s.argv ∧ s'.arg = (s.unescape b).arg ∧ s.escaped = true ∨
    s'.i = s.i + 1 ∧ s'.argv = s.argv ∧ s.arg = none ∧
      ∃ a, s'.arg = some a ∧ s.i ≤ a.1 ∧ a.1 + a.2.length = s.i + 1 := by
  simp only [stepChar] at h
  repeat' split at h
  all_goals cases h
  all_goals simp_all [Stat.cut, Stat.next, Stat.keep, Stat.unescape]

theorem stepChar_i (h : stepChar s b = some s') : s'.i = s.i ∨ s'.i = s.i + 1 := by
  rcases stepChar_cases h with ⟨hi, -⟩ | ⟨hi, -⟩ | ⟨hi, -⟩ | ⟨hi, -⟩ <;> omega

theorem scan_of_lt (h : s.i + line.length < limit) :
    scan limit s line = (feed s line).bind fun s => if s.endsWell then some s else none := by
  induction line generalizing s with
  | nil => rfl
  | cons b rest ih =>
    rw [length_cons] at h
    rw [scan, feed, foldlM_cons]
    cases hstep : stepChar s b with
    | none => rfl
    | some s' =>
      have hi := stepChar_i hstep
      change (if s'.i < limit then _ else _) = (feed s' rest).bind _
      rw [if_pos (by omega), ih (by omega)]

theorem feed_i_le (h : feed s line = some s') : s'.i ≤ s.i + line.length := by
  induction line generalizing s with
  | nil =>
    cases h
    exact Nat.le_refl _
  | cons b rest ih =>
    obtain ⟨t, hstep, hrest⟩ := bind_eq_some_iff.mp h
    have hi := stepChar_i hstep
    have hle := ih hrest
    rw [length_cons]
    omega

theorem scan_eq (h : s.i + line.length = limit) (hne : line ≠ []) :
    scan limit s line = (feed s line).bind fun s =>
      if s.i < limit then if s.endsWell then some s else none else some s := by
  induction line generalizing s with
  | nil => exact absurd rfl hne
  | cons b rest ih =>
    rw [length_cons] at h
    rw [scan, feed, foldlM_cons]
    cases hstep : stepChar s b with
    | none => rfl
    | some s' =>
      change (if s'.i < limit then _ else _) = (feed s' rest).bind _
      rcases stepChar_i hstep with hi | hi
      · rw [if_pos (by omega), scan_of_lt (by omega)]
        refine Option.bind_congr fun t ht => ?_
        have hle := feed_i_le ht
        exact (if_pos (by omega)).symm
      · obtain _ | ⟨c, rest⟩ := rest
        · have hend : ¬ s'.i < limit := by
            rw [length_nil] at h
            omega
          simp [hend, feed]
        · rw [length_cons] at h
          rw [if_pos (by omega), ih (by rw [length_cons]; omega) (cons_ne_nil c rest)]

theorem dispatch_ret_ne (commands : List (List UInt8)) (h : s.inQuote = false) :
    (dispatch commands s).1 ≠ 2 := by
  rw [dispatch, h, if_neg Bool.false_ne_true]
  split
  · decide
  · split <;> exact fun hret => by cases hret

/-- The checks at the end of the line pass, or it ends in quotes. -/
def Settled (s : Stat) : Prop := s.inQuote = true ∨ s.args ≠ [] ∧ s.isD ≠ 1 ∧ s.limQ = false

theorem endsWell_iff : s.endsWell = true ∨ s.inQuote = true ↔ Settled s := by
  cases hquote : s.inQuote <;> simp [Stat.endsWell, Settled, hquote, and_assoc]

/-- The functions agree exactly if no line end that only one of them checks fails the checks. -/
theorem agree_iff (commands : List (List UInt8)) {inbufSize : Nat}
    (hfits : line.length < inbufSize) (hne : line ≠ []) :
    handleShellInput commands line = handleInput commands inbufSize line ↔
      ∀ s, feed .init line = some s → s.i = line.length → Settled s := by
  have hlong := scan_of_lt (s := .init) (by simpa [Stat.init] using hfits)
  have hexact := scan_eq (s := .init) (Nat.zero_add line.length) hne
  rw [handleShellInput, handleInput, handle, handle, if_neg hne, if_neg hne, hlong, hexact]
  cases hfeed : feed .init line with
  | none => simp
  | some s =>
    have hle := feed_i_le hfeed
    rw [Stat.init, Nat.zero_add] at hle
    simp only [bind_some, some.injEq, forall_eq', ← endsWell_iff]
    rcases Nat.lt_or_eq_of_le hle with hlt | heq
    · simp [hlt, Nat.ne_of_lt hlt]
    cases hend : s.endsWell with
    | true => simp [heq]
    | false =>
      cases hquote : s.inQuote with
      | true => simp [heq, dispatch, hquote]
      | false =>
        refine iff_of_false (fun hsame => dispatch_ret_ne commands hquote ?_) (by simp [heq])
        simpa [heq] using congrArg Prod.fst hsame

theorem feed_invariant {P : Stat → Prop}
    (hstep : ∀ s b s', b ∈ line → P s → stepChar s b = some s' → P s') (hs : P s)
    (hfeed : feed s line = some s') : P s' := by
  induction line generalizing s with
  | nil =>
    cases hfeed
    exact hs
  | cons b rest ih =>
    obtain ⟨t, ht, hrest⟩ := bind_eq_some_iff.mp hfeed
    refine ih (fun s c s' hc => hstep s c s' (mem_cons_of_mem b hc)) ?_ hrest
    exact hstep s b t mem_cons_self hs ht

theorem feed_append (s : Stat) (line rest : List UInt8) :
    feed s (line ++ rest) = (feed s line).bind (feed · rest) :=
  foldlM_append

def Plain (b : UInt8) : Prop := b ≠ 0x20 ∧ b ≠ 0x22 ∧ b ≠ 0x3d ∧ b ≠ 0x2c

/-- In an argument without quotes the flags of the separators before it are clear. -/
theorem stepChar_inArg (h : stepChar s b = some s') (hs : s.arg.isSome = true → Settled s) :
    s'.arg.isSome = true → Settled s' := by
  simp only [stepChar] at h
  repeat' split at h
  all_goals cases h
  all_goals simp_all [Settled, Stat.args, Stat.cut, Stat.next, Stat.keep, Stat.unescape]

theorem stepChar_plain (h : stepChar s b = some s') (hb : Plain b) : s'.arg.isSome = true := by
  obtain ⟨hblank, hquote, heq, hcomma⟩ := hb
  rw [stepChar, if_neg hquote, if_neg hblank, if_neg heq, if_neg hcomma] at h
  split at h <;> cases h <;> simp_all [Stat.keep, Stat.next]

theorem stepChar_blank (h : stepChar s 0x20 = some s') (hs : Settled s) : Settled s' := by
  rw [stepChar, if_neg (by decide), if_pos rfl] at h
  split at h
  · cases h
    simpa [Settled, Stat.args, Stat.unescape] using hs
  · split at h <;> cases h <;>
      simpa [Settled, Stat.args, Stat.cut, Stat.next, Stat.keep] using hs

theorem settled_of_plain_end {pre blanks : List UInt8} (hb : Plain b)
    (hblanks : ∀ c ∈ blanks, c = 0x20) (h : feed .init (pre ++ b :: blanks) = some s) :
    Settled s := by
  rw [feed_append] at h
  obtain ⟨t, hpre, hrest⟩ := bind_eq_some_iff.mp h
  obtain ⟨u, hu, hend⟩ := bind_eq_some_iff.mp hrest
  have hword : t.arg.isSome = true → Settled t :=
    feed_invariant (P := fun s => s.arg.isSome = true → Settled s)
      (fun _ _ _ _ hs hstep => stepChar_inArg hstep hs) (fun hnone => by cases hnone) hpre
  refine feed_invariant (fun s c s' hc hs hstep => ?_)
    (stepChar_inArg hu hword (stepChar_plain hu hb)) hend
  rw [hblanks c hc] at hstep
  exact stepChar_blank hstep hs

/-- Without separators their flags stay clear, and any other character than a blank begins or
continues an argument. -/
theorem stepChar_separate (h : stepChar s b = some s') (hcomma : b ≠ 0x2c) (heq : b ≠ 0x3d)
    (hs : s.isD = 0 ∧ s.limQ = false) : (s'.isD = 0 ∧ s'.limQ = false) ∧
      (b ≠ 0x20 ∨ s.args ≠ [] → s'.args ≠ []) := by
  simp only [stepChar, if_neg hcomma, if_neg heq] at h
  cases harg : s.arg <;> repeat' split at h
  all_goals cases h
  all_goals simp_all [Stat.args, Stat.cut, Stat.next, Stat.keep, Stat.unescape, Stat.escaped]

theorem settled_of_separate (hcomma : 0x2c ∉ line) (heq : 0x3d ∉ line)
    (hother : ∃ b ∈ line, b ≠ 0x20) (h : feed .init line = some s) : Settled s := by
  obtain ⟨b, hb, hblank⟩ := hother
  obtain ⟨pre, post, rfl⟩ := append_of_mem hb
  rw [feed_append] at h
  obtain ⟨t, hpre, hrest⟩ := bind_eq_some_iff.mp h
  obtain ⟨u, hu, hend⟩ := bind_eq_some_iff.mp hrest
  have hne : ∀ c ∈ pre ++ b :: post, c ≠ 0x2c ∧ c ≠ 0x3d := fun c hc =>
    ⟨fun h => hcomma (h ▸ hc), fun h => heq (h ▸ hc)⟩
  have ht : t.isD = 0 ∧ t.limQ = false := by
    refine feed_invariant (P := fun s => s.isD = 0 ∧ s.limQ = false) ?_ ⟨rfl, rfl⟩ hpre
    intro s c s' hc hs hstep
    have hc := hne c (mem_append_left _ hc)
    exact (stepChar_separate hstep hc.1 hc.2 hs).1
  have hbne := hne b hb
  obtain ⟨hclear, hargs⟩ := stepChar_separate hu hbne.1 hbne.2 ht
  obtain ⟨⟨hisD, hlimQ⟩, hargs⟩ : (s.isD = 0 ∧ s.limQ = false) ∧ s.args ≠ [] := by
    refine feed_invariant (P := fun s => (s.isD = 0 ∧ s.limQ = false) ∧ s.args ≠ []) ?_
      ⟨hclear, hargs (.inl hblank)⟩ hend
    rintro s c s' hc ⟨hs, hargs⟩ hstep
    have hc := hne c (mem_append_right _ (mem_cons_of_mem b hc))
    obtain ⟨hclear, hkept⟩ := stepChar_separate hstep hc.1 hc.2 hs
    exact ⟨hclear, hkept (.inr hargs)⟩
  exact .inr ⟨hargs, by omega, hlimQ⟩

theorem feed_blanks (h : ∀ c ∈ line, c = 0x20) (i : Nat) :
    feed { Stat.init with i := i } line = some { Stat.init with i := i + line.length } := by
  induction line generalizing i with
  | nil => rfl
  | cons b rest ih =>
    obtain ⟨rfl, hrest⟩ := forall_mem_cons.mp h
    rw [length_cons, Nat.add_comm rest.length, ← Nat.add_assoc, ← ih hrest]
    rfl

end BekenSoc.CommandLines
