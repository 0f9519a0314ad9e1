import Mathlib.Data.List.Basic

/-!
The conversions of `conv_utf8.c` between GB2312 and UTF-8.  A string is a list of bytes without
its terminator, and memory is there.
-/

namespace BekenSoc.Utf8Conv

open List

/-- A read of the input string, a write of the allocated buffer, and the final `memcpy` of so many
bytes of the buffer over the string. -/
inductive Access
  | read (i : Nat)
  | write (i : Nat) (byte : UInt8)
  | copyBack (n : Nat)
  deriving DecidableEq

/-- The string has `len` bytes and a terminator, the buffer `size` bytes. -/
def Access.inside (len size : Nat) : Access → Prop
  | .read i => i ≤ len
  | .write i _ => i < size
  | .copyBack n => n ≤ size ∧ n ≤ len + 1

def Inside (len size : Nat) (accesses : List Access) : Prop := ∀ a ∈ accesses, a.inside len size

def isGb2312 (hi low : UInt8) : Bool :=
  !(decide (hi < 0xB0) || decide (hi > 0xF7)) && !(decide (low < 0xA1) || decide (low > 0xFE))

def gbCode (hi low : UInt8) : Nat :=
  (hi.toNat <<< 8) + low.toNat - 0xB0A1 - (hi.toNat - 0xB0) * (0xA1 + 0x01)

section ConvUtf8

variable (table : Nat → UInt8 × UInt8 × UInt8)

/-- The loop of `conv_utf8` at `ptr`, where `rest` is left.  `conv_utf8_for_gb2312` looks at two
bytes before it decides. -/
def convLoop : List UInt8 → Nat → Nat → List Access
  | [], ptr, out => [.read ptr, .write out 0]
  | [c], ptr, out => .read ptr :: .read (ptr + 1) :: .write out c :: convLoop [] (ptr + 1) (out + 1)
  | c :: d :: rest, ptr, out =>
    .read ptr :: .read (ptr + 1) ::
      if isGb2312 c d then
        let utf8 := table (gbCode c d)
        .write out utf8.1 :: .write (out + 1) utf8.2.1 :: .write (out + 2) utf8.2.2 ::
          convLoop rest (ptr + 2) (out + 3)
      else .write out c :: convLoop (d :: rest) (ptr + 1) (out + 1)

def convUtf8 (input : List UInt8) : List Access := convLoop table input 0 0

end ConvUtf8

/-- What `conv_utf8` allocates for `len` bytes. -/
def convSize (len : Nat) : Nat := len / 2 * 3 + 1

/-- The bytes that are copied one by one. -/
def singles : List UInt8 → Nat
  | [] => 0
  | [_] => 1
  | c :: d :: rest => if isGb2312 c d then singles rest else singles (d :: rest) + 1

def getUtf8ByteNumForWord (firstCh : UInt8) : Nat :=
  ((range 8).takeWhile fun k => firstCh.toNat.testBit (7 - k)).length

def byteCount (nbyte : Nat) : Nat := if 2 ≤ nbyte ∧ nbyte ≤ 6 then nbyte else 1

/-- The bytes written for a character of `nbyte` bytes. -/
def gbBytes (nbyte : Nat) : Nat := if nbyte = 0 then 1 else if nbyte = 2 ∨ nbyte = 3 then 2 else 0

section Utf8ToGb2312

variable (searchCodeTable : UInt16 → UInt16)

/-- The body of the loop of `Utf8ToGb2312` at a character `c`, with the bytes behind it. -/
def gbChar (c d e : UInt8) (i j : Nat) : List Access :=
  match getUtf8ByteNumForWord c with
  | 0 => [.read i, .write j c]
  | 2 => [.read i, .write j c, .read (i + 1), .write (j + 1) d]
  | 3 =>
    let high := (c &&& 0x0F) <<< 4 ||| (d >>> 2 &&& 0x0F)
    let low := ((d &&& 0x03) <<< 6) + (e &&& 0x3F)
    let gbKey := searchCodeTable (high.toUInt16 <<< 8 ||| low.toUInt16)
    [.read i, .read (i + 1), .write (j + 1) high, .read (i + 2), .write j low,
      .write j (gbKey >>> 8).toUInt8, .write (j + 1) gbKey.toUInt8]
  | _ => [.read i]

/-- The loop of `Utf8ToGb2312` at index `i`, with `skip` bytes of a character to pass over. -/
def gbLoop : List UInt8 → Nat → Nat → Nat → List Access
  | [], _, _, j => [.write j 0, .copyBack (j + 1)]
  | _ :: rest, skip + 1, i, j => gbLoop rest skip (i + 1) j
  | c :: rest, 0, i, j =>
    gbChar searchCodeTable c (rest.getD 0 0) (rest.getD 1 0) i j ++
      gbLoop rest (byteCount (getUtf8ByteNumForWord c) - 1) (i + 1)
        (j + gbBytes (getUtf8ByteNumForWord c))

def utf8ToGb2312 (utf8 : List UInt8) : List Access :=
  if utf8.length = 0 then [] else gbLoop searchCodeTable utf8 0 0 0

end Utf8ToGb2312

def gbLength : List UInt8 → Nat → Nat
  | [], _ => 0
  | _ :: rest, skip + 1 => gbLength rest skip
  | c :: rest, 0 => gbBytes (getUtf8ByteNumForWord c) +
      gbLength rest (byteCount (getUtf8ByteNumForWord c) - 1)

/-- The last byte is the first one of a character of three. -/
def endsInLead : List UInt8 → Nat → Bool
  | [], _ => false
  | _ :: rest, skip + 1 => endsInLead rest skip
  | c :: rest, 0 => decide (getUtf8ByteNumForWord c = 3) && rest.isEmpty ||
      endsInLead rest (byteCount (getUtf8ByteNumForWord c) - 1)

variable {len size : Nat}

@[simp] theorem inside_nil : Inside len size [] := by simp [Inside]

@[simp] theorem inside_cons {a : Access} {l : List Access} :
    Inside len size (a :: l) ↔ a.inside len size ∧ Inside len size l := forall_mem_cons

@[simp] theorem inside_append {l l' : List Access} :
    Inside len size (l ++ l') ↔ Inside len size l ∧ Inside len size l' := forall_mem_append

-- the pairs are half of the bytes that are not copied one by one, and take three bytes each
theorem inside_convLoop (table : Nat → UInt8 × UInt8 × UInt8) {rest : List UInt8}
    {ptr out : Nat} (hptr : ptr + rest.length = len) :
    singles rest ≤ rest.length ∧ singles rest % 2 = rest.length % 2 ∧
      (Inside len size (convLoop table rest ptr out) ↔
        out + (rest.length - singles rest) / 2 * 3 + singles rest < size) := by
  induction rest using singles.induct generalizing ptr out with
  | case1 => simpa [convLoop, singles, Access.inside] using fun _ => Nat.le_of_eq hptr
  | case2 c =>
    simp only [length_singleton] at hptr
    simp only [convLoop, singles, Access.inside, inside_cons, inside_nil, and_true,
      length_singleton, true_and]
    omega
  | case3 c d rest hgb ih =>
    simp only [convLoop, singles, if_pos hgb, inside_cons, Access.inside, length_cons] at *
    obtain ⟨hle, hmod, hiff⟩ := @ih (ptr + 2) (out + 3) (by omega)
    rw [hiff]
    omega
  | case4 c d rest hgb ih =>
    simp only [convLoop, singles, if_neg hgb, inside_cons, Access.inside, length_cons] at *
    obtain ⟨hle, hmod, hiff⟩ := @ih (ptr + 1) (out + 1) (by omega)
    rw [hiff]
    omega

theorem inside_gbChar (searchCodeTable : UInt16 → UInt16) (c d e : UInt8) {i j : Nat}
    (hi : i < len) : Inside len size (gbChar searchCodeTable c d e i j) ↔
      (gbBytes (getUtf8ByteNumForWord c) = 0 ∨ j + gbBytes (getUtf8ByteNumForWord c) ≤ size) ∧
      (getUtf8ByteNumForWord c = 3 → i + 2 ≤ len) := by
  unfold gbChar
  split
  · rename_i hnbyte
    simp only [hnbyte, inside_cons, inside_nil, and_true, Access.inside,
      show gbBytes 0 = 1 from rfl]
    omega
  · rename_i hnbyte
    simp only [hnbyte, inside_cons, inside_nil, and_true, Access.inside,
      show gbBytes 2 = 2 from rfl]
    omega
  · rename_i hnbyte
    simp only [hnbyte, inside_cons, inside_nil, and_true, Access.inside,
      show gbBytes 3 = 2 from rfl, true_implies]
    omega
  · rename_i hzero htwo hthree
    have hnone : gbBytes (getUtf8ByteNumForWord c) = 0 := by
      rw [gbBytes, if_neg hzero, if_neg (not_or.mpr ⟨htwo, hthree⟩)]
    simp only [hnone, inside_cons, inside_nil, and_true, Access.inside, true_or, true_and]
    exact iff_of_true (Nat.le_of_lt hi) fun h => (hthree h).elim

theorem inside_gbLoop (searchCodeTable : UInt16 → UInt16) {rest : List UInt8} {skip i j : Nat}
    (hi : i + rest.length = len) (hsize : size ≤ len) :
    Inside len size (gbLoop searchCodeTable rest skip i j) ↔
      j + gbLength rest skip < size ∧ endsInLead rest skip = false := by
  induction rest generalizing skip i j with
  | nil =>
    simp only [gbLoop, gbLength, endsInLead, inside_cons, inside_nil, and_true, Access.inside]
    omega
  | cons c rest ih =>
    rw [length_cons] at hi
    cases skip with
    | succ skip => exact ih (by omega)
    | zero =>
      have hempty : rest.isEmpty = decide (rest.length = 0) := by cases rest <;> rfl
      rw [gbLoop, inside_append, ih (by omega), inside_gbChar _ _ _ _ (by omega), gbLength,
        endsInLead, hempty]
      simp only [Bool.or_eq_false_iff, Bool.and_eq_false_iff, decide_eq_false_iff_not]
      constructor
      · rintro ⟨⟨-, hlead⟩, hlt, hend⟩
        exact ⟨by omega, by omega, hend⟩
      · rintro ⟨hlt, hlead, hend⟩
        exact ⟨⟨by omega, by omega⟩, by omega, hend⟩

/-- `conv_utf8` stays in its memory unless exactly one byte is copied by itself, and
`Utf8ToGb2312` if its output is shorter than its input, which does not end after the first byte
of three. -/
theorem conversions_inside_iff (table : Nat → UInt8 × UInt8 × UInt8)
    (searchCodeTable : UInt16 → UInt16) (input : List UInt8) :
    (Inside input.length (convSize input.length) (convUtf8 table input) ↔ singles input ≠ 1) ∧
      (Inside input.length input.length (utf8ToGb2312 searchCodeTable input) ↔
        input = [] ∨ gbLength input 0 < input.length ∧ endsInLead input 0 = false) := by
  constructor
  · obtain ⟨hle, hmod, hiff⟩ :=
      @inside_convLoop input.length (convSize input.length) table input 0 0 (Nat.zero_add _)
    rw [convUtf8, hiff, convSize]
    omega
  · rw [utf8ToGb2312]
    split
    · rename_i hnil
      simpa using .inl (length_eq_zero_iff.mp hnil)
    · rename_i hne
      rw [inside_gbLoop searchCodeTable (Nat.zero_add _) (Nat.le_refl _), Nat.zero_add,
        ← length_eq_zero_iff]
      exact (or_iff_right hne).symm

-- one letter: its copy in GB2312 leaves no room for the terminator in either buffer
theorem letter_leaves_buffer : convSize 1 = 1 ∧
    convUtf8 (fun _ => (0, 0, 0)) [0x61] = [.read 0, .read 1, .write 0 0x61, .read 1, .write 1 0] ∧
    utf8ToGb2312 id [0x61] = [.read 0, .write 0 0x61, .write 1 0, .copyBack 2] := by
  decide

end BekenSoc.Utf8Conv
