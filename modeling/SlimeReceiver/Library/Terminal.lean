import SlimeReceiver.Library.LineEditor
import Mathlib.Data.BitVec
import Mathlib.Data.List.GetD
import Mathlib.Logic.Function.Basic
import Mathlib.Tactic.IntervalCases

/-! # A terminal

One line of a terminal of unbounded width, with the control sequences a line editor echoes: the cursor goes left and
right by a number of columns, and a position is saved and restored.

* **`Terminal.step`**, **`Terminal.run`** — the bytes it receives.
* **`Terminal.Shows`** — a text is on the line, the cursor in it, and nothing else.
* **`shows_insert`**, **`shows_erase`**, **`shows_left`**, **`shows_right`** — what a line editor echoes. -/

namespace SlimeReceiver

open Function (update update_self update_of_ne)

/-- `isprint`. -/
def isPrint (byte : BitVec 8) : Bool := decide (0x20 ≤ byte) && decide (byte ≤ 0x7e)

/-- Where in a control sequence the terminal is. -/
inductive TerminalMode
  | text
  /-- After ESC. -/
  | escape
  /-- After ESC [ and the digits of a parameter. -/
  | control (parameter : ℕ)
  deriving DecidableEq

/-- The line the cursor is in. -/
structure Terminal where
  cells : ℕ → BitVec 8
  column : ℕ
  saved : ℕ
  mode : TerminalMode

namespace Terminal

/-- An empty line. -/
def blank : Terminal := ⟨fun _ => 0x20, 0, 0, .text⟩

/-- The end of a control sequence: `C` and `D` move the cursor, `s` saves its position and `u` restores it. -/
def control (t : Terminal) (parameter : ℕ) (final : BitVec 8) : Terminal :=
  if final = 0x43 then { t with column := t.column + max 1 parameter }
  else if final = 0x44 then { t with column := t.column - max 1 parameter }
  else if final = 0x73 then { t with saved := t.column }
  else if final = 0x75 then { t with column := t.saved }
  else t

/-- A byte that is not part of a control sequence. -/
def write (t : Terminal) (byte : BitVec 8) : Terminal :=
  if byte = 0x08 then { t with column := t.column - 1 }
  else if byte = 0x0d then { t with column := 0 }
  else if byte = 0x0a then { t with cells := fun _ => 0x20 }
  else if isPrint byte then { t with cells := update t.cells t.column byte, column := t.column + 1 }
  else t

/-- A byte. -/
def step (t : Terminal) (byte : BitVec 8) : Terminal :=
  match t.mode with
  | .text => if byte = 0x1b then { t with mode := .escape } else t.write byte
  | .escape => { t with mode := if byte = 0x5b then .control 0 else .text }
  | .control parameter =>
    if 0x30 ≤ byte ∧ byte ≤ 0x39 then { t with mode := .control (10 * parameter + (byte.toNat - 0x30)) }
    else { t.control parameter byte with mode := .text }

def run (t : Terminal) (bytes : List (BitVec 8)) : Terminal := bytes.foldl step t

/-- The text is on the line, the cursor after so many characters of it, and the rest of the line is empty. -/
structure Shows (t : Terminal) (text : List (BitVec 8)) (cursor : ℕ) : Prop where
  mode : t.mode = .text
  column : t.column = cursor
  cells : ∀ i, t.cells i = text.getD i 0x20

theorem shows_blank : blank.Shows [] 0 := ⟨rfl, rfl, fun _ => rfl⟩

variable {t : Terminal} {bytes bytes' text : List (BitVec 8)} {cursor : ℕ}

theorem run_append (t : Terminal) (bytes bytes' : List (BitVec 8)) :
    t.run (bytes ++ bytes') = (t.run bytes).run bytes' :=
  List.foldl_append

/-! ## Texts -/

/-- A text written into the cells from a column on. -/
def overwrite (cells : ℕ → BitVec 8) (column : ℕ) : List (BitVec 8) → ℕ → BitVec 8
  | [] => cells
  | byte :: bytes => overwrite (update cells column byte) (column + 1) bytes

theorem overwrite_before (cells : ℕ → BitVec 8) (bytes : List (BitVec 8)) {column i : ℕ} (h : i < column) :
    overwrite cells column bytes i = cells i := by
  induction bytes generalizing cells column with
  | nil => rfl
  | cons byte bytes ih => rw [overwrite, ih _ (Nat.lt_succ_of_lt h), update_of_ne h.ne]

theorem overwrite_after (cells : ℕ → BitVec 8) (bytes : List (BitVec 8)) (column k : ℕ) :
    overwrite cells column bytes (column + k) = bytes.getD k (cells (column + k)) := by
  induction bytes generalizing cells column k with
  | nil => rfl
  | cons byte bytes ih =>
    rw [overwrite]
    cases k with
    | zero =>
      show overwrite (update cells column byte) (column + 1) bytes column = byte
      rw [overwrite_before _ _ column.lt_add_one, update_self]
    | succ k =>
      have hplace : column + (k + 1) = column + 1 + k := by omega
      rw [hplace, ih, List.getD_cons_succ, update_of_ne (by omega)]

/-- A printable character. -/
theorem step_print (hmode : t.mode = .text) {byte : BitVec 8} (hbyte : isPrint byte = true) :
    t.step byte = { t with cells := update t.cells t.column byte, column := t.column + 1 } := by
  have hbounds : 0x20 ≤ byte ∧ byte ≤ 0x7e := by
    rwa [isPrint, Bool.and_eq_true, decide_eq_true_eq, decide_eq_true_eq] at hbyte
  have hne : ∀ x : BitVec 8, x < 0x20 → byte ≠ x := fun x hx h => by
    rw [h] at hbounds
    exact absurd hbounds.1 (BitVec.not_le.mpr hx)
  obtain ⟨cells, column, saved, mode⟩ := t
  obtain rfl : mode = .text := hmode
  rw [step]
  dsimp only
  rw [if_neg (hne 0x1b (by decide)), write, if_neg (hne 0x08 (by decide)), if_neg (hne 0x0d (by decide)),
    if_neg (hne 0x0a (by decide)), if_pos hbyte]

theorem run_print (hmode : t.mode = .text) (hbytes : ∀ b ∈ bytes, isPrint b = true) :
    t.run bytes = { t with cells := overwrite t.cells t.column bytes, column := t.column + bytes.length } := by
  induction bytes generalizing t with
  | nil => rfl
  | cons byte bytes ih =>
    have hrest := ih (t := { t with cells := update t.cells t.column byte, column := t.column + 1 }) hmode
      fun b hb => hbytes b (List.mem_cons_of_mem _ hb)
    rw [run, List.foldl_cons, step_print hmode (hbytes byte List.mem_cons_self), ← run, hrest]
    simp only [overwrite, List.length_cons, Nat.add_assoc, Nat.add_comm 1]

/-! ## Control sequences -/

/-- ESC [ and a final byte. -/
def sequence (final : BitVec 8) : List (BitVec 8) := [0x1b, 0x5b, final]

theorem run_bell (hmode : t.mode = .text) : t.run [0x07] = t := by
  obtain ⟨cells, column, saved, mode⟩ := t
  obtain rfl : mode = .text := hmode
  rfl

theorem run_backspace (hmode : t.mode = .text) : t.run [0x08] = { t with column := t.column - 1 } := by
  obtain ⟨cells, column, saved, mode⟩ := t
  obtain rfl : mode = .text := hmode
  rfl

theorem run_newline (hmode : t.mode = .text) : t.run [0x0d, 0x0a] = { t with cells := fun _ => 0x20, column := 0 } := by
  obtain ⟨cells, column, saved, mode⟩ := t
  obtain rfl : mode = .text := hmode
  rfl

theorem run_save (hmode : t.mode = .text) : t.run (sequence 0x73) = { t with saved := t.column } := by
  obtain ⟨cells, column, saved, mode⟩ := t
  obtain rfl : mode = .text := hmode
  rfl

theorem run_restore (hmode : t.mode = .text) : t.run (sequence 0x75) = { t with column := t.saved } := by
  obtain ⟨cells, column, saved, mode⟩ := t
  obtain rfl : mode = .text := hmode
  rfl

/-- A text between the two is written, and the cursor stays. -/
theorem run_saved_print (hmode : t.mode = .text) (hbytes : ∀ b ∈ bytes, isPrint b = true) :
    t.run (sequence 0x73 ++ bytes ++ sequence 0x75) =
      { t with cells := overwrite t.cells t.column bytes, saved := t.column } := by
  rw [run_append, run_append, run_save hmode, run_print (by exact hmode) hbytes, run_restore (by exact hmode)]

/-- A digit of a number. -/
def digit (n : ℕ) : BitVec 8 := 0x30 + BitVec.ofNat 8 n

theorem run_digit {parameter d : ℕ} (hmode : t.mode = .control parameter) (hd : d < 10) :
    t.run (digit d :: bytes) = run { t with mode := .control (10 * parameter + d) } bytes := by
  have hstep : t.step (digit d) = { t with mode := .control (10 * parameter + d) } := by
    obtain ⟨cells, column, saved, mode⟩ := t
    obtain rfl : mode = .control parameter := hmode
    interval_cases d <;> rfl
  rw [run, List.foldl_cons, hstep, run]

/-- The digits of a number below a thousand, without leading zeros. -/
def digits (n : ℕ) : List (BitVec 8) :=
  if 100 ≤ n then [digit (n / 100), digit (n % 100 / 10), digit (n % 100 % 10)]
  else if 10 ≤ n then [digit (n / 10), digit (n % 10)]
  else [digit n]

theorem run_digits {n : ℕ} (hmode : t.mode = .control 0) (hn : n < 1000) :
    t.run (digits n) = { t with mode := .control n } := by
  unfold digits
  split
  case isTrue hhundred =>
    have hvalue : 10 * (10 * (10 * 0 + n / 100) + n % 100 / 10) + n % 100 % 10 = n := by omega
    rw [run_digit hmode (by omega), run_digit rfl (by omega), run_digit rfl (by omega), hvalue]
    rfl
  case isFalse =>
    split
    case isTrue hten =>
      have hvalue : 10 * (10 * 0 + n / 10) + n % 10 = n := by omega
      rw [run_digit hmode (by omega), run_digit rfl (by omega), hvalue]
      rfl
    case isFalse =>
      have hvalue : 10 * 0 + n = n := by omega
      rw [run_digit hmode (by omega), hvalue]
      rfl

/-- The cursor goes right by a number of columns. -/
theorem run_right {n : ℕ} (hmode : t.mode = .text) (hn : n < 1000) (hpos : 0 < n) :
    t.run ([0x1b, 0x5b] ++ digits n ++ [0x43]) = { t with column := t.column + n } := by
  obtain ⟨cells, column, saved, mode⟩ := t
  obtain rfl : mode = .text := hmode
  have hstart : run ⟨cells, column, saved, .text⟩ [0x1b, 0x5b] = ⟨cells, column, saved, .control 0⟩ := rfl
  rw [run_append, run_append, hstart, run_digits rfl hn]
  show (⟨cells, column + max 1 n, saved, .text⟩ : Terminal) = ⟨cells, column + n, saved, .text⟩
  rw [max_eq_right hpos]

/-- The cursor goes left by a number of columns. -/
theorem run_left {n : ℕ} (hmode : t.mode = .text) (hn : n < 1000) (hpos : 0 < n) :
    t.run ([0x1b, 0x5b] ++ digits n ++ [0x44]) = { t with column := t.column - n } := by
  obtain ⟨cells, column, saved, mode⟩ := t
  obtain rfl : mode = .text := hmode
  have hstart : run ⟨cells, column, saved, .text⟩ [0x1b, 0x5b] = ⟨cells, column, saved, .control 0⟩ := rfl
  rw [run_append, run_append, hstart, run_digits rfl hn]
  show (⟨cells, column - max 1 n, saved, .text⟩ : Terminal) = ⟨cells, column - n, saved, .text⟩
  rw [max_eq_right hpos]

/-! ## Editing -/

section Editing

variable {l r : List (BitVec 8)}

/-- A text written over the end of another one that is not longer. -/
theorem overwrite_text {cells : ℕ → BitVec 8} {old : List (BitVec 8)} (hcells : ∀ i, cells i = (l ++ old).getD i 0x20)
    (bytes : List (BitVec 8)) (hlength : old.length ≤ bytes.length) (i : ℕ) :
    overwrite cells l.length bytes i = (l ++ bytes).getD i 0x20 := by
  rcases Nat.lt_or_ge i l.length with hbefore | hafter
  · rw [overwrite_before _ _ hbefore, hcells, List.getD_append _ _ _ _ hbefore, List.getD_append _ _ _ _ hbefore]
  · obtain ⟨k, rfl⟩ := Nat.exists_eq_add_of_le hafter
    rw [overwrite_after, hcells, List.getD_append_right _ _ _ _ hafter, List.getD_append_right _ _ _ _ hafter,
      Nat.add_sub_cancel_left]
    rcases Nat.lt_or_ge k bytes.length with hinside | hbeyond
    · rw [List.getD_eq_getElem _ _ hinside, List.getD_eq_getElem _ _ hinside]
    · rw [List.getD_eq_default _ _ hbeyond, List.getD_eq_default _ _ hbeyond,
        List.getD_eq_default _ _ (hlength.trans hbeyond)]

/-- A blank at the end is not seen. -/
theorem getD_append_blank (text : List (BitVec 8)) (i : ℕ) : (text ++ [0x20]).getD i 0x20 = text.getD i 0x20 := by
  rcases Nat.lt_or_ge i text.length with hinside | hbeyond
  · rw [List.getD_append _ _ _ _ hinside]
  · rw [List.getD_append_right _ _ _ _ hbeyond, List.getD_eq_default _ _ hbeyond]
    cases i - text.length with
    | zero => rfl
    | succ k => rfl

/-- A character is echoed, and what follows it is written again. -/
theorem shows_insert (h : t.Shows (l ++ r) l.length) {byte : BitVec 8} (hbyte : isPrint byte = true)
    (hright : ∀ b ∈ r, isPrint b = true) :
    (t.run (byte :: if r = [] then [] else sequence 0x73 ++ r ++ sequence 0x75)).Shows (l ++ [byte] ++ r)
      (l.length + 1) := by
  obtain ⟨hmode, hcolumn, hcells⟩ := h
  have hover := overwrite_text hcells (byte :: r) (Nat.le_succ _)
  rw [run, List.foldl_cons, step_print hmode hbyte, ← run, List.append_assoc l, List.singleton_append]
  split
  case isTrue hnone =>
    subst hnone
    refine ⟨hmode, ?_, fun i => ?_⟩
    · rw [← hcolumn]
      rfl
    · rw [← hover, ← hcolumn]
      rfl
  case isFalse =>
    rw [run_saved_print (by exact hmode) hright]
    refine ⟨hmode, ?_, fun i => ?_⟩
    · rw [← hcolumn]
    · rw [← hover, ← hcolumn]
      rfl

/-- What follows the cursor is written again, with a blank over the last character. -/
theorem shows_erase {x : BitVec 8} (hmode : t.mode = .text) (hcolumn : t.column = l.length)
    (hcells : ∀ i, t.cells i = (l ++ x :: r).getD i 0x20) (hright : ∀ b ∈ r, isPrint b = true) :
    (t.run (if r = [] then [0x20, 0x08] else sequence 0x73 ++ (r ++ [0x20]) ++ sequence 0x75)).Shows (l ++ r)
      l.length := by
  have hover := overwrite_text hcells (r ++ [0x20]) (by rw [List.length_append]; exact le_refl _)
  have hblank : isPrint 0x20 = true := by decide
  have hcells' : ∀ i, overwrite t.cells l.length (r ++ [0x20]) i = (l ++ r).getD i 0x20 := fun i => by
    rw [hover, ← List.append_assoc, getD_append_blank]
  split
  case isTrue hnone =>
    subst hnone
    rw [show ([0x20, 0x08] : List (BitVec 8)) = [0x20] ++ [0x08] from rfl, run_append,
      run_print hmode fun b hb => List.mem_singleton.mp hb ▸ hblank, run_backspace (by exact hmode)]
    refine ⟨hmode, ?_, fun i => ?_⟩
    · rw [← hcolumn]
      rfl
    · rw [← hcells', ← hcolumn]
      rfl
  case isFalse =>
    have hprint : ∀ b ∈ r ++ [0x20], isPrint b = true := by
      intro b hb
      rcases List.mem_append.mp hb with hb | hb
      · exact hright b hb
      · exact List.mem_singleton.mp hb ▸ hblank
    rw [run_saved_print hmode hprint]
    refine ⟨hmode, hcolumn, fun i => ?_⟩
    rw [← hcells', ← hcolumn]

/-- What moves the cursor. -/
def moves (final : BitVec 8) (count : ℕ) : List (BitVec 8) :=
  if count = 0 then [] else [0x1b, 0x5b] ++ digits count ++ [final]

theorem shows_right (h : t.Shows text cursor) (count : ℕ) (hcount : count < 1000) :
    (t.run (moves 0x43 count)).Shows text (cursor + count) := by
  obtain ⟨hmode, hcolumn, hcells⟩ := h
  unfold moves
  split
  case isTrue hzero =>
    subst hzero
    exact ⟨hmode, hcolumn, hcells⟩
  case isFalse hsome =>
    rw [run_right hmode hcount (Nat.pos_of_ne_zero hsome)]
    exact ⟨hmode, congrArg (· + count) hcolumn, hcells⟩

theorem shows_left (h : t.Shows text cursor) (count : ℕ) (hcount : count < 1000) :
    (t.run (moves 0x44 count)).Shows text (cursor - count) := by
  obtain ⟨hmode, hcolumn, hcells⟩ := h
  unfold moves
  split
  case isTrue hzero =>
    subst hzero
    exact ⟨hmode, hcolumn, hcells⟩
  case isFalse hsome =>
    rw [run_left hmode hcount (Nat.pos_of_ne_zero hsome)]
    exact ⟨hmode, congrArg (· - count) hcolumn, hcells⟩

theorem shows_newline (h : t.Shows text cursor) : (t.run [0x0d, 0x0a]).Shows [] 0 := by
  rw [run_newline h.mode]
  exact ⟨h.mode, rfl, fun _ => rfl⟩

theorem shows_bell (h : t.Shows text cursor) : (t.run [0x07]).Shows text cursor := by
  rwa [run_bell h.mode]

end Editing

end Terminal

end SlimeReceiver
