import BekenSoc.CommandLines

namespace BekenSoc.CommandForward

open CommandLines List Option

structure Forward where
  mem : Nat → UInt8
  buf : List UInt8

def put (base : Nat) (f : Forward) (b : UInt8) : Forward :=
  ⟨Function.update f.mem (base + f.buf.length) b, f.buf ++ [b]⟩

def cstring (mem : Nat → UInt8) (p : Nat) : Nat → List UInt8
  | 0 => []
  | size + 1 => if mem p = 0 then [] else mem p :: cstring mem (p + 1) size

def copyArg (base : Nat) (quoted : Bool) : Nat → Nat → Forward → Forward
  | 0, _, f => f
  | len + 1, p, f =>
    let f := if quoted ∧ f.mem p = 0x22 then put base f 0x5c else f
    copyArg base quoted len (p + 1) (put base f (f.mem p))

def forwardArg (size base : Nat) (f : Forward) (p : Nat) : Forward :=
  let strLen := (cstring f.mem p size).length
  if 0x20 ∈ cstring f.mem p size then
    put base (copyArg base true strLen p (put base f 0x22)) 0x22
  else put base (copyArg base false strLen p f) 0x20

def cliCpu1Command (size : Nat) (mem : Nat → UInt8) : List Nat → List UInt8
  | [] => []
  | base :: rest => (rest.foldl (forwardArg size base) ⟨mem, []⟩).buf ++ [0x0d, 0x0a]

def shellArgs (line : List UInt8) : Option (List (List UInt8)) :=
  if line = [] then some []
  else (scan line.length .init line).bind fun s =>
    if s.inQuote then none else some (s.args.map Prod.snd)

def encodeArg (str : List UInt8) : List UInt8 :=
  if 0x20 ∈ str then
    0x22 :: str.flatMap (fun b => if b = 0x22 then [0x5c, b] else [b]) ++ [0x22]
  else str ++ [0x20]

def plain (str : List UInt8) : Bool :=
  !str.isEmpty && str.all fun b => b ≠ 0x22 && b ≠ 0x5c && b ≠ 0x3d && b ≠ 0x2c

def StandsAt (mem : Nat → UInt8) : Nat → List UInt8 → Prop
  | p, [] => mem p = 0
  | p, b :: rest => mem p = b ∧ b ≠ 0 ∧ StandsAt mem (p + 1) rest

def Holds (size : Nat) (mem : Nat → UInt8) (args : List Arg) : Prop :=
  ∀ a ∈ args, a.2.length < size ∧ StandsAt mem a.1 a.2

variable {s s' : Stat} {b : UInt8} {str line : List UInt8} {args : List Arg} {f : Forward}
  {mem : Nat → UInt8} {base p size : Nat}

section Places

def Before (a a' : Arg) : Prop := a.1 + a.2.length < a'.1

def Spaced (s : Stat) : Prop :=
  s.args.Pairwise Before ∧ (∀ a ∈ s.argv, a.1 + a.2.length < s.i) ∧
    ∀ a, s.arg = some a → a.1 + a.2.length ≤ s.i

theorem Spaced.arg_before (h : Spaced s) {a : Arg} (ha : s.arg = some a) :
    s.argv.Pairwise Before ∧ ∀ x ∈ s.argv, Before x a := by
  have hargs := h.1
  rw [Stat.args, ha, pairwise_append] at hargs
  exact ⟨hargs.1, fun x hx => hargs.2.2 x hx a (mem_singleton_self a)⟩

theorem Spaced.grow (h : Spaced s) {g : List UInt8 → List UInt8} (hi : s.i ≤ s'.i)
    (hargv : s'.argv = s.argv) (harg : s'.arg = s.arg.map fun a => (a.1, g a.2))
    (hlen : ∀ a, s.arg = some a → a.1 + (g a.2).length ≤ s'.i) : Spaced s' := by
  have hbefore : ∀ x ∈ s'.argv, x.1 + x.2.length < s'.i := by
    rw [hargv]
    exact fun x hx => Nat.lt_of_lt_of_le (h.2.1 x hx) hi
  cases ha : s.arg with
  | none =>
    rw [ha] at harg
    refine ⟨?_, hbefore, fun a hsome => by rw [harg] at hsome; cases hsome⟩
    have hargs := h.1
    rw [Stat.args, ha] at hargs
    rw [Stat.args, harg, hargv]
    exact hargs
  | some a =>
    rw [ha] at harg
    obtain ⟨hpair, hlast⟩ := h.arg_before ha
    refine ⟨?_, hbefore, fun x hx => ?_⟩
    · rw [Stat.args, harg, hargv]
      refine pairwise_append.mpr ⟨hpair, pairwise_singleton _ _, fun x hx y hy => ?_⟩
      rw [mem_singleton.mp hy]
      exact hlast x hx
    · rw [harg] at hx
      cases hx
      exact hlen a ha

theorem Spaced.step (h : Spaced s) (hstep : stepChar s b = some s') : Spaced s' := by
  rcases stepChar_cases hstep with ⟨hi, hargv, harg⟩ | ⟨hi, hargv, harg⟩ |
    ⟨hi, hargv, harg, hesc⟩ | ⟨hi, hargv, hnone, a, harg, hfrom, hto⟩
  · refine ⟨?_, ?_, fun a ha => by rw [harg] at ha; cases ha⟩
    · rw [Stat.args, harg, hargv]
      simpa using h.1
    · intro a ha
      rw [hargv, Stat.args, mem_append, mem_toList] at ha
      rcases ha with ha | ha
      · have := h.2.1 a ha
        omega
      · have := h.2.2 a ha
        omega
  · refine h.grow (g := fun str => str ++ [b]) (by omega) hargv harg fun a ha => ?_
    have := h.2.2 a ha
    rw [length_append, length_singleton]
    omega
  · refine h.grow (g := fun str => str.dropLast ++ [b]) (by omega) hargv harg fun a ha => ?_
    have := h.2.2 a ha
    have hpos : 0 < a.2.length := by
      apply length_pos_iff.mpr
      rintro hnil
      simp [Stat.escaped, ha, hnil] at hesc
    rw [length_append, length_singleton, length_dropLast]
    omega
  · have hargs := h.1
    rw [Stat.args, hnone, toList_none, append_nil] at hargs
    refine ⟨?_, fun x hx => ?_, fun x hx => ?_⟩
    · rw [Stat.args, harg, hargv]
      refine pairwise_append.mpr ⟨hargs, pairwise_singleton _ _, fun x hx y hy => ?_⟩
      have := h.2.1 x hx
      rw [mem_singleton.mp hy, Before]
      omega
    · have := h.2.1 x (hargv ▸ hx)
      omega
    · rw [harg] at hx
      cases hx
      omega

end Places

section Copies

def Unwritten (base : Nat) (mem : Nat → UInt8) (f : Forward) : Prop :=
  ∀ q, base + f.buf.length ≤ q → f.mem q = mem q

theorem Unwritten.put (h : Unwritten base mem f) (b : UInt8) :
    Unwritten base mem (put base f b) := by
  intro q hq
  rw [CommandForward.put, length_append, length_singleton] at hq
  exact (Function.update_of_ne (by omega) _ _).trans (h q (by omega))

theorem cstring_eq (h : Unwritten base mem f) (hp : base + f.buf.length ≤ p)
    (hstr : StandsAt mem p str) (hsize : str.length < size) : cstring f.mem p size = str := by
  induction str generalizing p size with
  | nil =>
    obtain _ | size := size
    · cases hsize
    · exact if_pos ((h p hp).trans hstr)
  | cons b str ih =>
    obtain ⟨hb, hne, hrest⟩ := hstr
    obtain _ | size := size
    · cases hsize
    · rw [cstring, h p hp, hb, if_neg hne, ih (by omega) hrest (Nat.lt_of_succ_lt_succ hsize)]

theorem copyArg_eq (quoted : Bool) (h : Unwritten base mem f) (hp : base + f.buf.length ≤ p)
    (hstr : StandsAt mem p str) (hquote : 0x22 ∉ str) :
    (copyArg base quoted str.length p f).buf = f.buf ++ str ∧
      Unwritten base mem (copyArg base quoted str.length p f) := by
  induction str generalizing p f with
  | nil => exact ⟨(append_nil _).symm, h⟩
  | cons b str ih =>
    obtain ⟨hb, -, hrest⟩ := hstr
    obtain ⟨hne, hquote⟩ := not_or.mp (mt mem_cons.mpr hquote)
    have hread : f.mem p = b := (h p hp).trans hb
    have hplain : ¬ (quoted ∧ b = 0x22) := fun hboth => hne hboth.2.symm
    rw [length_cons, copyArg, hread, if_neg hplain, hread]
    have hcopied := ih (h.put b) (by simp [put]; omega) hrest hquote
    rw [show (put base f b).buf = f.buf ++ [b] from rfl, append_assoc] at hcopied
    exact hcopied

def quotedCount (args : List Arg) : Nat := args.countP fun a => decide (0x20 ∈ a.2)

abbrev Ordinary (b : UInt8) : Prop := b ≠ 0x22 ∧ b ≠ 0x5c ∧ b ≠ 0x3d ∧ b ≠ 0x2c

theorem plain_iff : plain str = true ↔ str ≠ [] ∧ ∀ b ∈ str, Ordinary b := by
  simp [plain, and_assoc]

theorem encodeArg_plain (h : plain str = true) :
    encodeArg str = if 0x20 ∈ str then 0x22 :: str ++ [0x22] else str ++ [0x20] := by
  have hcopy : str.flatMap (fun b => if b = 0x22 then [0x5c, b] else [b]) = str := by
    have hplain := (plain_iff.mp h).2
    clear h
    induction str with
    | nil => rfl
    | cons b str ih =>
      rw [flatMap_cons, if_neg (hplain b (mem_cons_self ..)).1,
        ih fun c hc => hplain c (mem_cons_of_mem b hc)]
      rfl
  rw [encodeArg, hcopy]

theorem forwardArg_eq {a : Arg} (h : Unwritten base mem f)
    (hroom : base + f.buf.length + quotedCount [a] ≤ a.1) (hholds : Holds size mem [a])
    (hplain : plain a.2 = true) : (forwardArg size base f a.1).buf = f.buf ++ encodeArg a.2 ∧
      Unwritten base mem (forwardArg size base f a.1) := by
  obtain ⟨hsize, hstr⟩ := hholds a (mem_singleton_self a)
  have hquote : 0x22 ∉ a.2 := fun hmem => ((plain_iff.mp hplain).2 _ hmem).1 rfl
  rw [forwardArg, cstring_eq h (by omega) hstr hsize, encodeArg_plain hplain]
  split
  · rename_i hspace
    have hone : quotedCount [a] = 1 := by simp [quotedCount, hspace]
    have hcopy := copyArg_eq true (h.put 0x22) (by simp [put]; omega) hstr hquote
    refine ⟨?_, hcopy.2.put 0x22⟩
    rw [put, hcopy.1, put]
    simp
  · have hcopy := copyArg_eq false h (by omega) hstr hquote
    refine ⟨?_, hcopy.2.put 0x20⟩
    rw [put, hcopy.1, append_assoc]

theorem length_encodeArg {a : Arg} (h : plain a.2 = true) :
    (encodeArg a.2).length = a.2.length + 1 + quotedCount [a] := by
  rw [encodeArg_plain h]
  by_cases hspace : 0x20 ∈ a.2 <;> simp [quotedCount, hspace]

theorem foldl_forwardArg (h : Unwritten base mem f) (hspaced : args.Pairwise Before)
    (hroom : ∀ a ∈ args.head?, base + f.buf.length + quotedCount args ≤ a.1)
    (hholds : Holds size mem args) (hplain : ∀ a ∈ args, plain a.2 = true) :
    ((args.map Prod.fst).foldl (forwardArg size base) f).buf =
      f.buf ++ (args.map Prod.snd).flatMap encodeArg := by
  induction args generalizing f with
  | nil => exact (append_nil _).symm
  | cons a args ih =>
    have hroom := hroom a rfl
    have hcount : quotedCount (a :: args) = quotedCount [a] + quotedCount args := by
      simp [quotedCount, countP_cons, Nat.add_comm]
    obtain ⟨hbuf, hunwritten⟩ := forwardArg_eq h (by omega)
      (fun x hx => hholds x (by simp_all)) (hplain a (mem_cons_self ..))
    have hlen := length_encodeArg (hplain a (mem_cons_self ..))
    rw [map_cons, foldl_cons, ih hunwritten (pairwise_cons.mp hspaced).2,
      hbuf, map_cons, flatMap_cons, append_assoc]
    · intro x hx
      have hbefore := (pairwise_cons.mp hspaced).1 x (List.mem_of_mem_head? hx)
      rw [hbuf, length_append]
      rw [Before] at hbefore
      omega
    · exact fun x hx => hholds x (mem_cons_of_mem a hx)
    · exact fun x hx => hplain x (mem_cons_of_mem a hx)

end Copies

section Words

/-- Between two arguments, the characters of `line` cut off `strs`. -/
def Cuts (s : Stat) (line : List UInt8) (strs : List (List UInt8)) : Prop :=
  ∃ s', feed s line = some s' ∧ s'.arg = none ∧ s'.inQuote = false ∧
    s'.i = s.i + line.length ∧ s'.argv.map Prod.snd = s.argv.map Prod.snd ++ strs

theorem stepChar_word {a : Arg} (ha : s.arg = some a) (hb : Ordinary b)
    (hspace : b = 0x20 → s.inQuote = true) (hesc : s.escaped = false) :
    stepChar s b = some (s.keep b).next := by
  obtain ⟨h22, -, h3d, h2c⟩ := hb
  rw [stepChar, if_neg h22, hesc, if_neg h3d, if_neg h2c, ha]
  by_cases h20 : b = 0x20
  · simp [h20, hspace h20]
  · simp [h20]

theorem feed_word {u : List UInt8} (ha : s.arg = some (p, u)) (hstr : ∀ b ∈ str, Ordinary b)
    (hspace : 0x20 ∈ str → s.inQuote = true) (hesc : s.escaped = false) :
    ∃ s', feed s str = some s' ∧ s'.arg = some (p, u ++ str) ∧ s'.escaped = false ∧
      s'.inQuote = s.inQuote ∧ s'.i = s.i + str.length ∧ s'.argv = s.argv := by
  induction str generalizing s u with
  | nil => exact ⟨s, rfl, by rw [ha, append_nil], hesc, rfl, rfl, rfl⟩
  | cons b str ih =>
    have hb := hstr b (mem_cons_self ..)
    have hstep := stepChar_word ha hb (fun h20 => hspace (h20 ▸ mem_cons_self ..)) hesc
    have harg : (s.keep b).next.arg = some (p, u ++ [b]) := by simp [Stat.keep, Stat.next, ha]
    obtain ⟨s', hfeed, harg', hesc', hquote, hi, hargv⟩ := ih harg
      (fun c hc => hstr c (mem_cons_of_mem b hc))
      (fun h20 => hspace (mem_cons_of_mem b h20)) (by simp [Stat.escaped, harg, hb.2.1])
    refine ⟨s', ?_, by rw [harg', append_assoc]; rfl, hesc', hquote, ?_, hargv⟩
    · rw [feed, foldlM_cons, hstep]
      exact hfeed
    · rw [hi]
      exact Nat.add_right_comm s.i 1 str.length

theorem feed_enclosed {t : Stat} {u : List UInt8} {c d : UInt8} (hopen : stepChar s c = some t)
    (harg : t.arg = some (p, u)) (hargv : t.argv = s.argv) (hi : t.i = s.i + 1)
    (hesc : t.escaped = false) (hstr : ∀ b ∈ str, Ordinary b)
    (hspace : 0x20 ∈ str → t.inQuote = true)
    (hclose : ∀ s : Stat, s.arg.isSome → s.escaped = false → s.inQuote = t.inQuote →
      stepChar s d = some { s.cut.next with inQuote := false }) :
    Cuts s (c :: str ++ [d]) [u ++ str] := by
  obtain ⟨r, hword, harg', hesc', hquote, hi', hargv'⟩ := feed_word harg hstr hspace hesc
  have hlast := hclose r (by rw [harg']; rfl) hesc' hquote
  refine ⟨{ r.cut.next with inQuote := false }, ?_, rfl, rfl, ?_, ?_⟩
  · rw [cons_append, feed, foldlM_cons, hopen]
    change feed t (str ++ [d]) = _
    rw [feed_append, hword]
    exact (bind_pure _).trans hlast
  · change r.i + 1 = _
    rw [length_append, length_cons, length_singleton]
    omega
  · change r.args.map Prod.snd = _
    rw [Stat.args, harg', hargv', hargv]
    simp

theorem feed_encodeArg (harg : s.arg = none) (hquote : s.inQuote = false)
    (hplain : plain str = true) : Cuts s (encodeArg str) [str] := by
  obtain ⟨hne, hstr⟩ := plain_iff.mp hplain
  rw [encodeArg_plain hplain]
  split
  · refine feed_enclosed (t := { s with i := s.i + 1, inQuote := true, arg := some (s.i + 1, []) })
      ?_ rfl rfl rfl rfl hstr (fun _ => rfl) ?_
    · simp [stepChar, Stat.escaped, harg, hquote]
    · intro r hr hesc hin
      obtain ⟨a, ha⟩ := isSome_iff_exists.mp hr
      simp [stepChar, hesc, ha, hin]
  · rename_i hspace
    obtain _ | ⟨b, rest⟩ := str
    · exact absurd rfl hne
    have hb := hstr b (mem_cons_self ..)
    obtain ⟨h20, hspace⟩ := not_or.mp (mt mem_cons.mpr hspace)
    refine feed_enclosed
      (t := { s.next with arg := some (s.i, [b]), limQ := false,
                          isD := if s.isD = 1 then 2 else s.isD })
      ?_ rfl rfl rfl (by simp [Stat.escaped, hb]) (fun c hc => hstr c (mem_cons_of_mem b hc))
      (fun hmem => absurd hmem hspace) ?_
    · simp only [stepChar, hb, Ne.symm h20, harg, if_false]
    · intro r hr hesc hin
      simp [stepChar, hesc, hin, hquote, Stat.next, Stat.cut]

theorem feed_encodeArgs {strs : List (List UInt8)} (harg : s.arg = none)
    (hquote : s.inQuote = false) (hplain : ∀ str ∈ strs, plain str = true) :
    Cuts s (strs.flatMap encodeArg) strs := by
  induction strs generalizing s with
  | nil => exact ⟨s, rfl, harg, hquote, rfl, (append_nil _).symm⟩
  | cons str strs ih =>
    obtain ⟨t, hfirst, harg', hquote', hi, hargv⟩ :=
      feed_encodeArg harg hquote (hplain str (mem_cons_self ..))
    obtain ⟨s', hrest, harg'', hquote'', hi', hargv'⟩ :=
      ih harg' hquote' fun x hx => hplain x (mem_cons_of_mem str hx)
    refine ⟨s', ?_, harg'', hquote'', ?_, ?_⟩
    · rw [flatMap_cons, feed_append, hfirst]
      exact hrest
    · rw [flatMap_cons, length_append]
      omega
    · rw [hargv', hargv, append_assoc, singleton_append]

theorem shellArgs_encodeArgs {strs : List (List UInt8)} (hplain : ∀ str ∈ strs, plain str = true) :
    shellArgs (strs.flatMap encodeArg) = some strs := by
  obtain ⟨s, hfeed, harg, hquote, hi, hargv⟩ := feed_encodeArgs (s := .init) rfl rfl hplain
  rw [shellArgs]
  split
  · rename_i hnil
    rw [hnil] at hfeed
    cases hfeed
    exact congrArg some hargv
  · rename_i hne
    have hlast : ¬ s.i < (strs.flatMap encodeArg).length := by
      rw [hi]
      exact Nat.not_lt.mpr (Nat.le_add_left _ _)
    rw [scan_eq (Nat.zero_add _) hne, hfeed]
    simp only [bind_some, if_neg hlast, hquote, Bool.false_eq_true, if_false, Stat.args,
      harg, toList_none, append_nil]
    exact congrArg some hargv

end Words

theorem spaced_of_scan (h : scan line.length .init line = some s) : s.args.Pairwise Before := by
  have hne : line ≠ [] := by
    rintro rfl
    cases h
  rw [scan_eq (Nat.zero_add _) hne] at h
  obtain ⟨t, hfeed, hend⟩ := bind_eq_some_iff.mp h
  have hinit : Spaced .init := ⟨.nil, nofun, nofun⟩
  have hspaced := feed_invariant (fun _ _ _ _ hs hstep => hs.step hstep) hinit hfeed
  repeat' split at hend
  all_goals cases hend
  all_goals exact hspaced.1

end BekenSoc.CommandForward
