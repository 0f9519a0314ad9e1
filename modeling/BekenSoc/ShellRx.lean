import Mathlib.Data.List.Basic

/-!
The input of the shell: `rx_ind_process` of `shell_task.c`.

Text lines and frames of the BK_REG tool share one command buffer.  A read may bring several
bytes; those behind the byte that completes a command are not looked at.
-/

namespace BekenSoc.ShellRx

open List

def shellCmdBufLen : Nat := 140

inductive BkregState
  | wait01
  | waitE0
  | waitFC
  deriving DecidableEq

/-- `cmd_line_buf`, with the bytes of `cmd_buff` up to `cmd_data_len`.  The BK_REG state is
read only when no command is in progress, and the count of the bytes left only in a frame,
where the length byte sets it. -/
inductive CmdLine
  | invalid (bkregState : BkregState)
  | text (cmd : List UInt8)
  | bkreg (cmd : List UInt8) (leftByte : Nat)
  deriving DecidableEq

def CmdLine.init : CmdLine := .invalid .wait01

inductive Command
  /-- `handle_shell_input` -/
  | shellInput (text : List UInt8)
  /-- `bkreg_run_command` -/
  | bkregRun (cmd : List UInt8)
  deriving DecidableEq

def store (cmd : List UInt8) (b : UInt8) : List UInt8 :=
  if cmd.length < shellCmdBufLen then cmd ++ [b] else cmd

def rxByte (s : CmdLine) (b : UInt8) : CmdLine × Bool :=
  match s with
  | .invalid bkregState =>
    if 0x20 ≤ b ∧ b < 0x7f then (.text [b], false)
    else
      match bkregState with
      | .wait01 => (.invalid (if b = 0x01 then .waitE0 else .wait01), false)
      | .waitE0 =>
        (.invalid (if b = 0xE0 then .waitFC else if b = 0x01 then .waitE0 else .wait01), false)
      | .waitFC =>
        if b = 0xFC then (.bkreg [0x01, 0xE0, 0xFC] 0, false)
        else (.invalid (if b = 0x01 then .waitE0 else .wait01), false)
  | .text cmd =>
    if b = 0x08 then (.text cmd.dropLast, false)
    else if b = 0x0a ∨ b = 0x0d then (.text (cmd.take (shellCmdBufLen - 1)), true)
    else if 0x20 ≤ b then (.text (store cmd b), false)
    else (.text cmd, false)
  | .bkreg cmd leftByte =>
    let leftByte := if cmd.length = 3 then (b.toNat + 1) % 256 else leftByte
    if cmd.length = 3 ∧ shellCmdBufLen ≤ leftByte + 3 then (.bkreg [] leftByte, true)
    else
      let left := (leftByte + 255) % 256
      (.bkreg (store cmd b) left, decide (left = 0))

def CmdLine.commands : CmdLine → List Command
  | .invalid _ => []
  | .text cmd => if 0 < cmd.length then [.shellInput cmd] else []
  | .bkreg cmd _ => if 3 < cmd.length then [.bkregRun cmd] else []

def rxRead (s : CmdLine) : List UInt8 → CmdLine × List Command
  | [] => (s, [])
  | b :: rest =>
    if (rxByte s b).2 then (.init, (rxByte s b).1.commands) else rxRead (rxByte s b).1 rest

def rxReads (s : CmdLine) : List (List UInt8) → CmdLine × List Command
  | [] => (s, [])
  | read :: rest =>
    ((rxReads (rxRead s read).1 rest).1, (rxRead s read).2 ++ (rxReads (rxRead s read).1 rest).2)

def rxStream (s : CmdLine) (bytes : List UInt8) : CmdLine × List Command :=
  rxReads s (bytes.map fun b => [b])

/-- No byte stands behind one that completes a command in the same read. -/
def lossless (s : CmdLine) : List UInt8 → Bool
  | [] => true
  | b :: rest => if (rxByte s b).2 then rest.isEmpty else lossless (rxByte s b).1 rest

def losslessReads (s : CmdLine) : List (List UInt8) → Bool
  | [] => true
  | read :: rest => lossless s read && losslessReads (rxRead s read).1 rest

variable {s : CmdLine} {b : UInt8} {bytes payload cmd : List UInt8} {reads : List (List UInt8)}

theorem rxReads_append (s : CmdLine) (reads rest : List (List UInt8)) :
    rxReads s (reads ++ rest) = ((rxReads (rxReads s reads).1 rest).1,
      (rxReads s reads).2 ++ (rxReads (rxReads s reads).1 rest).2) := by
  induction reads generalizing s with
  | nil => rfl
  | cons read reads ih => simp only [cons_append, rxReads, ih, append_assoc]

theorem rxStream_append (s : CmdLine) (bytes rest : List UInt8) :
    rxStream s (bytes ++ rest) = ((rxStream (rxStream s bytes).1 rest).1,
      (rxStream s bytes).2 ++ (rxStream (rxStream s bytes).1 rest).2) := by
  rw [rxStream, map_append, rxReads_append]
  rfl

theorem rxStream_cons_of_done (rest : List UInt8) (h : (rxByte s b).2 = true) :
    rxStream s (b :: rest) = ((rxStream .init rest).1,
      (rxByte s b).1.commands ++ (rxStream .init rest).2) := by
  simp [rxStream, rxReads, rxRead, h]

theorem rxStream_cons_of_not_done (rest : List UInt8) (h : (rxByte s b).2 = false) :
    rxStream s (b :: rest) = rxStream (rxByte s b).1 rest := by
  simp [rxStream, rxReads, rxRead, h]

theorem rxRead_of_lossless (h : lossless s bytes = true) : rxRead s bytes = rxStream s bytes := by
  induction bytes generalizing s with
  | nil => rfl
  | cons b rest ih =>
    cases hdone : (rxByte s b).2 with
    | true =>
      rw [lossless, if_pos hdone, List.isEmpty_iff] at h
      rw [rxStream_cons_of_done rest hdone, rxRead, if_pos hdone, h]
      simp [rxStream, rxReads]
    | false =>
      simp only [lossless, hdone, Bool.false_eq_true, if_false] at h
      rw [rxStream_cons_of_not_done rest hdone, rxRead, hdone, ← ih h]
      rfl

theorem rxReads_of_lossless (h : losslessReads s reads = true) :
    rxReads s reads = rxStream s reads.flatten := by
  induction reads generalizing s with
  | nil => rfl
  | cons read reads ih =>
    rw [losslessReads, Bool.and_eq_true] at h
    rw [flatten_cons, rxStream_append, rxReads, ih h.2, rxRead_of_lossless h.1]

section Frames

def frameHeader (len : UInt8) : List UInt8 := [0x01, 0xE0, 0xFC, len]

theorem rxStream_header (bkregState : BkregState) (bytes : List UInt8) :
    rxStream (.invalid bkregState) (0x01 :: 0xE0 :: 0xFC :: bytes) =
      rxStream (.bkreg [0x01, 0xE0, 0xFC] 0) bytes := by
  rw [rxStream_cons_of_not_done _ (by cases bkregState <;> rfl)]
  have hfirst : (rxByte (.invalid bkregState) 0x01).1 = .invalid .waitE0 := by
    cases bkregState <;> rfl
  rw [hfirst, rxStream_cons_of_not_done _ rfl, rxStream_cons_of_not_done _ rfl]
  rfl

theorem rxStream_payload (bytes : List UInt8) (hne : payload ≠ []) (hcmd : 3 < cmd.length)
    (hroom : cmd.length + payload.length ≤ shellCmdBufLen) :
    rxStream (.bkreg cmd payload.length) (payload ++ bytes) =
      ((rxStream .init bytes).1, .bkregRun (cmd ++ payload) :: (rxStream .init bytes).2) := by
  rw [shellCmdBufLen] at hroom
  induction payload generalizing cmd with
  | nil => exact absurd rfl hne
  | cons b rest ih =>
    rw [length_cons] at hroom
    have hleft : (rest.length + 1 + 255) % 256 = rest.length := by omega
    have hstore : store cmd b = cmd ++ [b] := if_pos (by rw [shellCmdBufLen]; omega)
    have hbyte : rxByte (.bkreg cmd (b :: rest).length) b =
        (.bkreg (cmd ++ [b]) rest.length, decide (rest.length = 0)) := by
      have hfour : cmd.length ≠ 3 := by omega
      simp only [rxByte, hfour, if_false, false_and, length_cons, hleft, hstore]
    have hlonger : 3 < (cmd ++ [b]).length := by
      rw [length_append]
      omega
    rw [cons_append]
    cases rest with
    | nil =>
      rw [rxStream_cons_of_done _ (by rw [hbyte]; rfl), hbyte]
      simp only [CmdLine.commands, if_pos hlonger, nil_append, singleton_append]
    | cons c rest =>
      have hfits : (cmd ++ [b]).length + (c :: rest).length ≤ 140 := by
        rw [length_append, length_singleton]
        omega
      rw [rxStream_cons_of_not_done _ (by rw [hbyte]; rfl), hbyte,
        ih (cons_ne_nil c rest) hlonger hfits, append_assoc, singleton_append]

theorem rxStream_length (len : UInt8) (bytes : List UInt8) (hpayload : payload.length = len.toNat)
    (hlen : len ≠ 136 ∧ len ≠ 255) :
    rxStream (.bkreg [0x01, 0xE0, 0xFC] 0) (len :: payload ++ bytes) =
      if 4 + len.toNat ≤ shellCmdBufLen then ((rxStream .init bytes).1,
          .bkregRun (frameHeader len ++ payload) :: (rxStream .init bytes).2)
      else rxStream .init (payload ++ bytes) := by
  have hlt := len.toNat_lt
  have h136 : len.toNat ≠ 136 := fun heq => hlen.1 (UInt8.toNat_inj.mp heq)
  have h255 : len.toNat ≠ 255 := fun heq => hlen.2 (UInt8.toNat_inj.mp heq)
  have hleft : (len.toNat + 1) % 256 = len.toNat + 1 := by omega
  rw [shellCmdBufLen, cons_append]
  split
  · rename_i hfits
    have hbyte : rxByte (.bkreg [0x01, 0xE0, 0xFC] 0) len =
        (.bkreg (frameHeader len) payload.length, decide (payload.length = 0)) := by
      have hroom : ¬ (140 ≤ len.toNat + 1 + 3) := by omega
      have hcount : (len.toNat + 1 + 255) % 256 = payload.length := by omega
      simp [rxByte, shellCmdBufLen, store, frameHeader, hleft, hroom, hcount]
    cases payload with
    | nil =>
      rw [rxStream_cons_of_done _ (by rw [hbyte]; rfl), hbyte]
      rfl
    | cons b payload =>
      rw [rxStream_cons_of_not_done _ (by rw [hbyte]; rfl), hbyte]
      exact rxStream_payload bytes (cons_ne_nil b payload) (Nat.lt_succ_self 3)
        (by rw [hpayload]; exact hfits)
  · rename_i hlarge
    have hbyte : rxByte (.bkreg [0x01, 0xE0, 0xFC] 0) len = (.bkreg [] (len.toNat + 1), true) := by
      have hroom : 140 ≤ len.toNat + 1 + 3 := by omega
      simp [rxByte, shellCmdBufLen, hleft, hroom]
    rw [rxStream_cons_of_done _ (by rw [hbyte]), hbyte]
    rfl

/-- A frame that starts when no command is in progress is passed once and whole if it fits,
and otherwise the parser starts again behind its length byte. -/
theorem frame_passed_once (pre post : List UInt8) (len : UInt8) {bkregState : BkregState}
    (hreads : losslessReads .init reads = true)
    (hstream : reads.flatten = pre ++ frameHeader len ++ payload ++ post)
    (hpayload : payload.length = len.toNat)
    (hidle : (rxStream .init pre).1 = .invalid bkregState) (hlen : len ≠ 136 ∧ len ≠ 255) :
    (rxReads .init reads).2 = (rxStream .init pre).2 ++
      if 4 + len.toNat ≤ shellCmdBufLen then
        .bkregRun (frameHeader len ++ payload) :: (rxStream .init post).2
      else (rxStream .init (payload ++ post)).2 := by
  have hframe := rxStream_length len post hpayload hlen
  rw [rxReads_of_lossless hreads, hstream, append_assoc, append_assoc, rxStream_append, hidle]
  change _ ++ (rxStream _ (0x01 :: 0xE0 :: 0xFC :: (len :: payload ++ post))).2 = _
  rw [rxStream_header, hframe]
  split <;> rfl

-- A frame with one byte, in two reads behind a start of another header.
theorem frame_passed_once_split : (rxReads .init [[0x01, 0x01, 0xE0], [0xFC, 0x01, 0x22]]).2 =
      [.bkregRun [0x01, 0xE0, 0xFC, 0x01, 0x22]] :=
  frame_passed_once [0x01] [] 0x01 (by decide) rfl rfl rfl (by decide)

-- The frame takes exactly the buffer, and is discarded.
theorem full_frame_discarded :
    ¬ ∀ (reads : List (List UInt8)) (pre post payload : List UInt8) (len : UInt8)
      (bkregState : BkregState), reads.flatten = pre ++ frameHeader len ++ payload ++ post →
      payload.length = len.toNat → (rxStream .init pre).1 = .invalid bkregState →
      (rxReads .init reads).2 = (rxStream .init pre).2 ++
        if 4 + len.toNat ≤ shellCmdBufLen then
          .bkregRun (frameHeader len ++ payload) :: (rxStream .init post).2
        else (rxStream .init (payload ++ post)).2 := by
  intro hall
  have hout := hall ((frameHeader 136 ++ replicate 136 0).map fun b => [b]) [] []
    (replicate 136 0) 136 .wait01 (by decide +kernel) length_replicate rfl
  revert hout
  decide +kernel

end Frames

section Editing

/-- A terminal.  Of its characters only the printable ones and the backspace are known: they
append to the row before the cursor and take its last character. -/
structure Terminal (Screen : Type) where
  put : Screen → UInt8 → Screen
  Shows : Screen → List UInt8 → Prop
  printed : ∀ screen row b, Shows screen row → 0x20 ≤ b → b ≠ 0x7f →
    Shows (put screen b) (row ++ [b])
  erased : ∀ screen row, Shows screen row → Shows (put screen 0x08) row.dropLast

structure Uart (Screen : Type) where
  line : CmdLine
  needBackspace : Bool
  shown : Screen

def echoChar (cmdDataLen : Nat) (needBackspace : Bool) (b : UInt8) : List UInt8 :=
  if b = 0x08 ∨ b = 0x7f then
    if 0 < cmdDataLen ∨ needBackspace then [0x08, 0x20, 0x08] else []
  else if b = 0x0d ∨ b = 0x0a then [0x0d, 0x0a, 0x23]
  else [b]

def echo (line : CmdLine) (done needBackspace : Bool) (b : UInt8) : List UInt8 :=
  match line with
  | .bkreg _ _ => []
  | .invalid bkregState => if bkregState = .wait01 then echoChar 0 needBackspace b else []
  | .text cmd => if done then [b, 0x0d, 0x0a] else echoChar cmd.length needBackspace b

def CmdLine.emptiedBy (b : UInt8) : CmdLine → Bool
  | .text [_] => decide (b = 0x08)
  | _ => false

variable {Screen : Type} (term : Terminal Screen)

def uartByte (s : Uart Screen) (b : UInt8) : Uart Screen × List Command :=
  let needBackspace := s.needBackspace || s.line.emptiedBy b
  let (line, done) := rxByte s.line b
  let shown := (echo line done needBackspace b).foldl term.put s.shown
  (if done then ⟨.init, false, shown⟩ else ⟨line, needBackspace, shown⟩,
    if done then line.commands else [])

inductive Input
  | char (b : UInt8)
  | pause

/-- The editor that the line should have.  The buffer keeps a byte for the terminator. -/
def editorKey (line : List UInt8) (b : UInt8) : List UInt8 :=
  if b = 0x08 ∨ b = 0x7f then line.dropLast
  else if 0x20 ≤ b ∧ line.length < shellCmdBufLen - 1 then line ++ [b]
  else line

def Matches (s : Uart Screen) (line : List UInt8) : Prop :=
  term.Shows s.shown (0x23 :: line) ∧
    ∀ b, b = 0x0a ∨ b = 0x0d → (uartByte term s b).2 = (CmdLine.text line).commands

def MatchesUntilEnd (s : Uart Screen) (line : List UInt8) : List Input → Prop
  | [] => Matches term s line
  | .pause :: rest => MatchesUntilEnd { s with needBackspace := false } line rest
  | .char b :: rest => Matches term s line ∧
      (b = 0x0a ∨ b = 0x0d ∨ MatchesUntilEnd (uartByte term s b).1 (editorKey line b) rest)

/-- A key that is handled: a backspace, but no second one on an emptied line in the same call,
or a printable character for which there is room. -/
def KeyOk (line : List UInt8) (needBackspace : Bool) (b : UInt8) : Prop :=
  b = 0x08 ∧ (line = [] → needBackspace = false) ∨
    0x20 ≤ b ∧ b ≠ 0x7f ∧ line.length < shellCmdBufLen - 1

def KeysOk (line : List UInt8) (needBackspace : Bool) : List Input → Prop
  | [] => True
  | .pause :: rest => KeysOk line false rest
  | .char b :: rest => b = 0x0a ∨ b = 0x0d ∨ KeyOk line needBackspace b ∧
      KeysOk (editorKey line b) (needBackspace || (CmdLine.text line).emptiedBy b) rest

structure Edits (s : Uart Screen) (line : List UInt8) (needBackspace : Bool) : Prop where
  text : s.line = .text line
  room : line.length < shellCmdBufLen
  shown : term.Shows s.shown (0x23 :: line)
  flag : s.needBackspace = needBackspace

variable {term} {u : Uart Screen} {line : List UInt8} {needBackspace : Bool} {keys : List Input}

theorem Edits.matches (h : Edits term u line needBackspace) : Matches term u line := by
  refine ⟨h.shown, fun b hb => ?_⟩
  have hbyte : rxByte (.text line) b = (.text line, true) := by
    have hback : b ≠ 0x08 := by rcases hb with rfl | rfl <;> decide
    rw [rxByte, if_neg hback, if_pos hb, take_of_length_le (Nat.le_sub_one_of_lt h.room)]
  simp [uartByte, h.text, hbyte]

theorem MatchesUntilEnd.matches (h : MatchesUntilEnd term u line keys) : Matches term u line := by
  induction keys generalizing u with
  | nil => exact h
  | cons key rest ih =>
    cases key with
    | pause =>
      have hpaused : Matches term { u with needBackspace := false } line := ih h
      exact hpaused
    | char => exact h.1

theorem uartByte_text (h : u.line = .text line)
    (hbyte : rxByte (.text line) b = (.text cmd, false)) :
    (uartByte term u b).1 = ⟨.text cmd, u.needBackspace || (CmdLine.text line).emptiedBy b,
      (echoChar cmd.length (u.needBackspace || (CmdLine.text line).emptiedBy b) b).foldl term.put
        u.shown⟩ := by
  simp [uartByte, h, hbyte, echo]

theorem Terminal.erase {screen : Screen} {row : List UInt8} (h : term.Shows screen row) :
    term.Shows ([0x08, 0x20, 0x08].foldl term.put screen) row.dropLast := by
  have hblank := term.printed _ _ 0x20 (term.erased _ _ h) (by decide) (by decide)
  have hback := term.erased _ _ hblank
  rw [dropLast_concat] at hback
  exact hback

theorem Edits.backspace (h : Edits term u line needBackspace)
    (hempty : line = [] → needBackspace = false) :
    Edits term (uartByte term u 0x08).1 (editorKey line 0x08)
      (needBackspace || (CmdLine.text line).emptiedBy 0x08) := by
  have hbyte : rxByte (.text line) 0x08 = (.text line.dropLast, false) := rfl
  have hshown := h.shown
  rw [uartByte_text h.text hbyte, h.flag]
  refine ⟨rfl, ?_, ?_, rfl⟩
  · exact Nat.lt_of_le_of_lt (dropLast_sublist line).length_le h.room
  · match line, hempty with
    | [], hempty =>
      rw [hempty rfl]
      exact hshown
    | [_], _ =>
      simp only [CmdLine.emptiedBy, decide_true, Bool.or_true]
      exact Terminal.erase hshown
    | _ :: _ :: _, _ => exact Terminal.erase hshown

theorem ne_of_printable {c : UInt8} (h : 0x20 ≤ b) (hc : c < 0x20) : b ≠ c := by
  rintro rfl
  exact absurd hc (UInt8.not_lt.mpr h)

theorem echoChar_printed (hprint : 0x20 ≤ b) (hdel : b ≠ 0x7f) (cmdDataLen : Nat) (flag : Bool) :
    echoChar cmdDataLen flag b = [b] := by
  have h08 : b ≠ 0x08 := ne_of_printable hprint (by decide)
  have h0a : b ≠ 0x0a := ne_of_printable hprint (by decide)
  have h0d : b ≠ 0x0d := ne_of_printable hprint (by decide)
  simp [echoChar, h08, h0a, h0d, hdel]

section

variable (h : Edits term u line needBackspace)
include h

theorem Edits.printed (hprint : 0x20 ≤ b) (hdel : b ≠ 0x7f) :
    (uartByte term u b).1 = ⟨.text (line ++ [b]),
      needBackspace || (CmdLine.text line).emptiedBy b, term.put u.shown b⟩ := by
  have h08 : b ≠ 0x08 := ne_of_printable hprint (by decide)
  have h0a : b ≠ 0x0a := ne_of_printable hprint (by decide)
  have h0d : b ≠ 0x0d := ne_of_printable hprint (by decide)
  have hbyte : rxByte (.text line) b = (.text (line ++ [b]), false) := by
    simp [rxByte, h08, h0a, h0d, hprint, store, h.room]
  rw [uartByte_text h.text hbyte, echoChar_printed hprint hdel, h.flag]
  rfl

theorem Edits.key (hok : KeyOk line needBackspace b) :
    Edits term (uartByte term u b).1 (editorKey line b)
      (needBackspace || (CmdLine.text line).emptiedBy b) := by
  obtain ⟨rfl, hempty⟩ | ⟨hprint, hdel, hlt⟩ := hok
  · exact h.backspace hempty
  · have hback : b ≠ 0x08 := ne_of_printable hprint (by decide)
    rw [h.printed hprint hdel, editorKey, if_neg (by simp [hback, hdel]), if_pos ⟨hprint, hlt⟩]
    refine ⟨rfl, ?_, term.printed _ _ b h.shown hprint hdel, rfl⟩
    rw [length_append, length_singleton]
    exact Nat.add_lt_of_lt_sub hlt

theorem Edits.matchesUntilEnd (hok : KeysOk line needBackspace keys) :
    MatchesUntilEnd term u line keys := by
  induction keys generalizing u line needBackspace with
  | nil => exact h.matches
  | cons key rest ih =>
    cases key with
    | pause => exact ih { h with flag := rfl } hok
    | char b => exact ⟨h.matches, hok.imp_right (Or.imp_right fun hkey => ih (h.key hkey.1) hkey.2)⟩

end

/-- A terminal that shows every other control character. -/
def rawTerminal : Terminal (List UInt8) where
  put row b := if b = 0x08 then row.dropLast else row ++ [b]
  Shows screen row := screen = row
  printed screen row b hshows hprint _ := by
    rw [if_neg (ne_of_printable hprint (by decide)), hshows]
  erased screen row hshows := by rw [if_pos rfl, hshows]

theorem text_commands_inj {line' : List UInt8}
    (h : (CmdLine.text line).commands = (CmdLine.text line').commands) : line = line' := by
  cases line <;> cases line' <;> simp_all [CmdLine.commands]

theorem Edits.not_matches {u : Uart (List UInt8)} (h : Edits rawTerminal u line needBackspace)
    (hend : ¬ (b = 0x0a ∨ b = 0x0d)) (hbad : ¬ KeyOk line needBackspace b) :
    ¬ Matches rawTerminal (uartByte rawTerminal u b).1 (editorKey line b) := by
  rintro ⟨hshown, hpassed⟩
  have hrow : u.shown = 0x23 :: line := h.shown
  by_cases hdel : b = 0x7f
  · -- DEL is stored
    subst hdel
    have hroom := h.room
    rw [shellCmdBufLen] at hroom
    have hbyte : rxByte (.text line) 0x7f = (.text (line ++ [0x7f]), false) := by
      simp [rxByte, store, h.room]
    have hline := hpassed 0x0a (.inl rfl)
    rw [uartByte_text h.text hbyte] at hline
    have hlen := congrArg length (text_commands_inj hline)
    simp [shellCmdBufLen, editorKey] at hlen
    omega
  by_cases hback : b = 0x08
  · subst hback
    refine hbad (.inl ⟨rfl, fun hline => ?_⟩)
    subst hline
    rw [uartByte_text h.text rfl, h.flag, hrow] at hshown
    cases needBackspace with
    | true => cases hshown
    | false => rfl
  have hput : rawTerminal.put u.shown b = 0x23 :: (line ++ [b]) := by
    rw [hrow]
    exact if_neg hback
  by_cases hprint : 0x20 ≤ b
  · have hfull : ¬ line.length < shellCmdBufLen - 1 := fun hlt => hbad (.inr ⟨hprint, hdel, hlt⟩)
    rw [h.printed hprint hdel, hput, editorKey, if_neg (by simp [hback, hdel]),
      if_neg (by simp [hfull])] at hshown
    exact absurd (cons_inj_right _ |>.mp hshown) (by simp)
  · -- another control character is echoed
    have hbyte : rxByte (.text line) b = (.text line, false) := by
      rw [rxByte, if_neg hback, if_neg hend, if_neg hprint]
    have hecho : ∀ flag, echoChar line.length flag b = [b] := by
      simp [echoChar, hback, hdel, or_comm, hend]
    rw [uartByte_text h.text hbyte, hecho, foldl_cons, foldl_nil, hput, editorKey,
      if_neg (by simp [hback, hdel]), if_neg (by simp [hprint])] at hshown
    exact absurd (cons_inj_right _ |>.mp hshown) (by simp)

theorem Edits.keysOk {u : Uart (List UInt8)} (h : Edits rawTerminal u line needBackspace)
    (hmatch : MatchesUntilEnd rawTerminal u line keys) : KeysOk line needBackspace keys := by
  induction keys generalizing u line needBackspace with
  | nil => trivial
  | cons key rest ih =>
    cases key with
    | pause => exact ih (u := { u with needBackspace := false }) { h with flag := rfl } hmatch
    | char b =>
      rw [KeysOk, ← or_assoc]
      rw [MatchesUntilEnd, ← or_assoc] at hmatch
      refine or_iff_not_imp_left.mpr fun hend => ?_
      have hrest := hmatch.2.resolve_left hend
      have hok : KeyOk line needBackspace b := by
        by_contra hbad
        exact h.not_matches hend hbad hrest.matches
      exact ⟨hok, ih (h.key hok) hrest⟩

theorem edits_first (bkregState : BkregState) {first : UInt8} (hfirst : 0x20 ≤ first ∧ first < 0x7f)
    {screen : Screen} (hscreen : term.Shows screen [0x23]) :
    Edits term (uartByte term ⟨.invalid bkregState, false, screen⟩ first).1 [first] false := by
  have hbyte : rxByte (.invalid bkregState) first = (.text [first], false) := if_pos hfirst
  have hdel : first ≠ 0x7f := UInt8.ne_of_lt hfirst.2
  refine ⟨?_, Nat.one_lt_succ_succ 138, ?_, ?_⟩
  · simp [uartByte, hbyte]
  · simpa [uartByte, hbyte, echo, echoChar_printed hfirst.1 hdel] using
      term.printed _ _ first hscreen hfirst.1 hdel
  · simp [uartByte, hbyte, CmdLine.emptiedBy]

end Editing

end BekenSoc.ShellRx
