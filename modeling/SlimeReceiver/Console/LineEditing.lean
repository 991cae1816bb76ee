import SlimeReceiver.Console.LineInput
import SlimeReceiver.Library.Bytes

/-! # The line editor refines an editor on two texts

What is typed is edited as a text to the left of the cursor and a text to the right of it, and an escape sequence is
read as a whole once it is complete. The line editor of the console does the same in its array, and echoes what a
terminal needs to show it.

* **`EditorModel`** — the editor, the line that is too long, and the escape sequence so far.
* **`Holds`**, **`Edited`** — the array holds the texts, and what an editing function must do.
* **`Refines`**, **`inputByte_refines`** — a byte. -/

namespace SlimeReceiver

open Function (update update_self update_of_ne)

namespace Console

/-! ## The editor -/

/-- The bytes of a number. -/
def isDigit (byte : BitVec 8) : Bool := decide (0x30 ≤ byte) && decide (byte ≤ 0x39)

/-- The value of digits. -/
def decimal (digits : List (BitVec 8)) : ℕ := digits.foldl (fun n byte => 10 * n + (byte.toNat - 0x30)) 0

/-- The first parameter of a control sequence, up to 999: the digits before the first semicolon. -/
def keyNumber (body : List (BitVec 8)) : ℕ := min 999 (decimal ((body.takeWhile (· ≠ 0x3b)).filter isDigit))

/-- The key a complete sequence stands for, with its parameter. -/
def pressKey (final : BitVec 8) (number : ℕ) (e : LineEditor (BitVec 8)) : LineEditor (BitVec 8) :=
  if final = 0x44 then e.moveLeft (if number = 0 then 1 else number)
  else if final = 0x43 then e.moveRight (if number = 0 then 1 else number)
  else if final = 0x48 then e.home
  else if final = 0x46 then e.goEnd
  else if final = 0x7e then
    if number = 3 then e.delete
    else if number = 1 ∨ number = 7 then e.home
    else if number = 4 ∨ number = 8 then e.goEnd
    else e
  else e

/-- The last byte of a sequence; other bytes end it without effect. -/
def endKey (final : BitVec 8) (number : ℕ) (e : LineEditor (BitVec 8)) : LineEditor (BitVec 8) :=
  if 0x40 ≤ final ∧ final ≤ 0x7e then pressKey final number e else e

/-- The editor, and the bytes of an escape sequence after ESC. -/
structure EditorModel where
  editor : LineEditor (BitVec 8)
  overflow : Bool
  /-- The last byte was a carriage return. -/
  afterCr : Bool
  escape : Option (List (BitVec 8))

namespace EditorModel

/-- An empty line. -/
def empty : EditorModel := ⟨LineEditor.empty, false, false, none⟩

variable (m : EditorModel)

/-- A byte of an escape sequence. -/
def escapeByte (body : List (BitVec 8)) (byte : BitVec 8) : EditorModel :=
  match body with
  | [] => { m with escape := if byte = 0x5b ∨ byte = 0x4f then some [byte] else none }
  | first :: parameters =>
    if first = 0x5b then
      if 0x20 ≤ byte ∧ byte ≤ 0x3f then { m with escape := some (first :: (parameters ++ [byte])) }
      else { m with editor := endKey byte (keyNumber parameters) m.editor, escape := none }
    else
      if 0x20 ≤ byte ∧ byte ≤ 0x2f then { m with escape := some (first :: (parameters ++ [byte])) }
      else { m with editor := endKey byte 0 m.editor, escape := none }

/-- A byte outside a sequence. -/
def plainByte (byte : BitVec 8) : EditorModel :=
  if byte = 0x1b then { m with escape := some [] }
  else if byte = 0x08 ∨ byte = 0x7f then { m with editor := m.editor.backspace }
  else if isPrint byte = false then m
  else if m.editor.text.length < consoleLineMaxLen - 1 then { m with editor := m.editor.insert byte }
  else { m with overflow := true }

/-- A byte that does not end the line. -/
def typed (byte : BitVec 8) : EditorModel :=
  if m.overflow then m
  else
    match m.escape with
    | some body => m.escapeByte body byte
    | none => m.plainByte byte

/-- The editor after a byte, and the line that is submitted: a carriage return, a line feed or both end a line, and a
line that was too long is not submitted. -/
def byte (byte : BitVec 8) : EditorModel × Option (List (BitVec 8)) :=
  if byte = 0x0a ∧ m.afterCr = true then ({ m with afterCr := false }, none)
  else if byte = 0x0d ∨ byte = 0x0a then
    ({ empty with afterCr := byte == 0x0d }, if m.overflow then none else some m.editor.text)
  else ({ m with afterCr := false }.typed byte, none)

end EditorModel

/-! ## The array -/

section Array

variable {line : ℕ → BitVec 8} {text : List (BitVec 8)}

/-- The array begins with the text. -/
def HasText (line : ℕ → BitVec 8) (text : List (BitVec 8)) : Prop := ∀ i, i < text.length → text[i]? = some (line i)

theorem readLine_eq (hline : HasText line text) {n start : ℕ} (hn : start + n = text.length)
    (hroom : text.length ≤ consoleLineMaxLen) : readLine line n start = some (text.drop start) := by
  induction n generalizing start with
  | zero => rw [readLine, List.drop_eq_nil_of_le (by omega)]
  | succ n ih =>
    have hinside : start < text.length := by omega
    have hat : lineAt line start = some text[start] := by
      rw [lineAt, if_pos (by omega), ← hline start hinside, List.getElem?_eq_getElem hinside]
    rw [readLine, hat, Option.bind_some, ih (by omega), Option.map_some, ← List.drop_eq_getElem_cons hinside]

theorem moveUp_eq {cursor i : ℕ} (hi : i < consoleLineMaxLen) (line : ℕ → BitVec 8) :
    moveUp cursor i line = some fun k => if cursor < k ∧ k ≤ i then line (k - 1) else line k := by
  induction i generalizing line with
  | zero =>
    refine congrArg some (funext fun k => ?_)
    rw [if_neg (by omega)]
  | succ i ih =>
    rw [moveUp]
    split
    case isTrue hcursor =>
      have hget : lineAt line i = some (line i) := if_pos (by omega)
      have hset : setLine line (i + 1) (line i) = some (update line (i + 1) (line i)) := if_pos hi
      rw [hget, Option.bind_some, hset, Option.bind_some, ih (by omega)]
      refine congrArg some (funext fun k => ?_)
      by_cases hlast : k = i + 1
      · subst hlast
        rw [if_neg (by omega), update_self, if_pos ⟨hcursor, le_refl _⟩, Nat.add_sub_cancel]
      · rw [update_of_ne hlast]
        by_cases hmoved : cursor < k ∧ k ≤ i
        · rw [if_pos hmoved, if_pos (by omega), update_of_ne (by omega)]
        · rw [if_neg hmoved, if_neg (by omega)]
    case isFalse hcursor =>
      refine congrArg some (funext fun k => ?_)
      rw [if_neg (by omega)]

theorem moveDown_eq {n i : ℕ} (hn : i + n < consoleLineMaxLen) (line : ℕ → BitVec 8) :
    moveDown n i line = some fun k => if i ≤ k ∧ k < i + n then line (k + 1) else line k := by
  induction n generalizing i line with
  | zero =>
    refine congrArg some (funext fun k => ?_)
    rw [if_neg (by omega)]
  | succ n ih =>
    have hget : lineAt line (i + 1) = some (line (i + 1)) := if_pos (by omega)
    have hset : setLine line i (line (i + 1)) = some (update line i (line (i + 1))) := if_pos (by omega)
    rw [moveDown, hget, Option.bind_some, hset, Option.bind_some, ih (by omega)]
    refine congrArg some (funext fun k => ?_)
    by_cases hfirst : k = i
    · subst hfirst
      rw [if_neg (by omega), update_self, if_pos (by omega)]
    · by_cases hmoved : i + 1 ≤ k ∧ k < i + 1 + n
      · rw [if_pos hmoved, update_of_ne (by omega), if_pos (by omega)]
      · rw [if_neg hmoved, update_of_ne hfirst, if_neg (by omega)]

/-- A character put into the gap. -/
theorem HasText.insert {l r : List (BitVec 8)} (h : HasText line (l ++ r)) (byte : BitVec 8) :
    HasText (update (fun k => if l.length < k ∧ k ≤ l.length + r.length then line (k - 1) else line k) l.length byte)
      (l ++ [byte] ++ r) := by
  intro i hi
  rw [List.length_append, List.length_append, List.length_singleton] at hi
  rw [List.append_assoc, List.singleton_append]
  rcases Nat.lt_trichotomy i l.length with hbefore | rfl | hafter
  · have hold := h i (by rw [List.length_append]; omega)
    rw [List.getElem?_append_left hbefore] at hold ⊢
    rw [update_of_ne hbefore.ne, if_neg (by omega), hold]
  · rw [update_self, List.getElem?_append_right (le_refl _), Nat.sub_self, List.getElem?_cons_zero]
  · have hold := h (i - 1) (by rw [List.length_append]; omega)
    have hplace : i - l.length = i - 1 - l.length + 1 := by omega
    rw [List.getElem?_append_right (by omega)] at hold ⊢
    rw [update_of_ne hafter.ne', if_pos (by omega), hplace, List.getElem?_cons_succ, hold]

/-- The gap of a character that was taken away is closed. -/
theorem HasText.remove {l r : List (BitVec 8)} {x : BitVec 8} (h : HasText line (l ++ x :: r)) :
    HasText (fun k => if l.length ≤ k ∧ k < l.length + r.length then line (k + 1) else line k) (l ++ r) := by
  intro i hi
  rw [List.length_append] at hi
  have hlength : (l ++ x :: r).length = l.length + r.length + 1 := by
    rw [List.length_append, List.length_cons, Nat.add_assoc]
  show (l ++ r)[i]? = some (if l.length ≤ i ∧ i < l.length + r.length then line (i + 1) else line i)
  rcases Nat.lt_or_ge i l.length with hbefore | hafter
  · have hold := h i (by omega)
    rw [List.getElem?_append_left hbefore] at hold ⊢
    rw [if_neg (by omega), hold]
  · have hold := h (i + 1) (by omega)
    have hplace : i + 1 - l.length = i - l.length + 1 := by omega
    rw [List.getElem?_append_right (by omega), hplace, List.getElem?_cons_succ] at hold
    rw [List.getElem?_append_right hafter, if_pos ⟨hafter, hi⟩, hold]

end Array

/-! ## The editing functions -/

/-- The array and the counters hold the line of an editor. -/
structure Holds (s : LineInput) (e : LineEditor (BitVec 8)) : Prop where
  cursor : s.cursor = e.left.length
  tail : s.tail = e.right.length
  line : HasText s.line (e.left ++ e.right)
  room : e.left.length + e.right.length ≤ consoleLineMaxLen - 1
  print : ∀ b ∈ e.left ++ e.right, isPrint b = true

/-- What a function that edits a line must do: it ends, it holds the line that was edited, it changes nothing else,
and a terminal that shows the old line shows the new one. -/
def Edited (s : LineInput) (e e' : LineEditor (BitVec 8)) (r : Option (LineInput × List (BitVec 8))) : Prop :=
  ∃ s' echo, r = some (s', echo) ∧ Holds s' e' ∧
    s' = { s with cursor := s'.cursor, tail := s'.tail, line := s'.line } ∧
    ∀ t : Terminal, t.Shows e.text e.cursor → (t.run echo).Shows e'.text e'.cursor

section Functions

variable {s : LineInput} {e : LineEditor (BitVec 8)} {byte : BitVec 8}

theorem Holds.readTail (h : Holds s e) : readLine s.line s.tail s.cursor = some e.right := by
  have hroom := h.room
  have hlength : (e.left ++ e.right).length = e.left.length + e.right.length := List.length_append
  rw [h.cursor, h.tail, readLine_eq h.line hlength.symm (by rw [hlength]; exact hroom.trans (Nat.sub_le _ _)),
    List.drop_left]

theorem Holds.readAll (h : Holds s e) : readLine s.line (s.cursor + s.tail) 0 = some e.text := by
  have hroom := h.room
  have hlength : (e.left ++ e.right).length = e.left.length + e.right.length := List.length_append
  rw [h.cursor, h.tail, readLine_eq h.line (by rw [hlength, Nat.zero_add])
    (by rw [hlength]; exact hroom.trans (Nat.sub_le _ _)), List.drop_zero, LineEditor.text]

/-- The cursor of the terminal is at most at the end of the line. -/
theorem Holds.bounds (h : Holds s e) : s.cursor + s.tail ≤ consoleLineMaxLen - 1 := by
  rw [h.cursor, h.tail]
  exact h.room

/-- Only the counters and the array matter. -/
theorem Holds.congr (h : Holds s e) {s' : LineInput} (hcursor : s'.cursor = s.cursor) (htail : s'.tail = s.tail)
    (hline : s'.line = s.line) : Holds s' e where
  cursor := hcursor.trans h.cursor
  tail := htail.trans h.tail
  line := hline ▸ h.line
  room := h.room
  print := h.print

theorem insertChar_edited (h : Holds s e) (hroom : e.text.length < consoleLineMaxLen - 1)
    (hbyte : isPrint byte = true) : Edited s e (e.insert byte) (s.insertChar byte) := by
  have hlength : (e.left ++ e.right).length = e.left.length + e.right.length := List.length_append
  have hcount : s.cursor + s.tail = e.left.length + e.right.length := by rw [h.cursor, h.tail]
  rw [LineEditor.text, hlength] at hroom
  have hmax : consoleLineMaxLen - 1 < consoleLineMaxLen := by decide
  set moved : ℕ → BitVec 8 := fun k =>
    if e.left.length < k ∧ k ≤ e.left.length + e.right.length then s.line (k - 1) else s.line k with hmoved
  have hmove : moveUp s.cursor (s.cursor + s.tail) s.line = some moved := by
    rw [moveUp_eq (by omega), hcount, h.cursor]
  have hset : setLine moved s.cursor byte = some (update moved e.left.length byte) := by
    rw [setLine, if_pos (by rw [h.cursor]; omega), h.cursor]
  set s' : LineInput := { s with line := update moved e.left.length byte, cursor := s.cursor + 1 } with hs'
  have hholds : Holds s' (e.insert byte) :=
    { cursor := by rw [hs', LineEditor.insert, List.length_append, List.length_singleton, ← h.cursor]
      tail := h.tail
      line := h.line.insert byte
      room := by
        show (e.left ++ [byte]).length + e.right.length ≤ consoleLineMaxLen - 1
        rw [List.length_append, List.length_singleton]
        omega
      print := by
        intro b hb
        rcases List.mem_append.mp hb with hb | hb
        · rcases List.mem_append.mp hb with hb | hb
          · exact h.print b (List.mem_append_left _ hb)
          · exact List.mem_singleton.mp hb ▸ hbyte
        · exact h.print b (List.mem_append_right _ hb) }
  have hecho : s.insertChar byte =
      some (s', byte :: if e.right = [] then [] else saveCursor ++ e.right ++ restoreCursor) := by
    unfold LineInput.insertChar
    dsimp only
    rw [if_neg (by omega), hmove, Option.bind_some, hset, Option.bind_some]
    by_cases hnone : e.right = []
    · rw [if_pos hnone, if_neg]
      rw [h.tail, hnone]
      exact fun hne => hne rfl
    · have htail : s.tail ≠ 0 := by
        rw [h.tail]
        exact fun hzero => hnone (List.eq_nil_of_length_eq_zero hzero)
      rw [if_neg hnone, if_pos htail]
      exact congrArg (Option.map _) hholds.readTail
  refine ⟨s', _, hecho, hholds, rfl, fun t ht => ?_⟩
  have hshown := Terminal.shows_insert ht hbyte fun b hb => h.print b (List.mem_append_right _ hb)
  rw [LineEditor.cursor, LineEditor.insert, List.length_append]
  exact hshown

/-- The line is full. -/
theorem insertChar_full (h : Holds s e) (hroom : ¬e.text.length < consoleLineMaxLen - 1) (hfits : s.overflow = false) :
    s.insertChar byte = some ({ s with overflow := true }, [0x07]) := by
  have hlength : (e.left ++ e.right).length = e.left.length + e.right.length := List.length_append
  have hcount : s.cursor + s.tail = e.left.length + e.right.length := by rw [h.cursor, h.tail]
  rw [LineEditor.text, hlength] at hroom
  unfold LineInput.insertChar
  dsimp only
  rw [if_pos (by omega), hfits]
  rfl

theorem echoRemoved_eq (h : Holds s e) :
    s.echoRemoved =
      some (if e.right = [] then [0x20, 0x08] else saveCursor ++ (e.right ++ [0x20]) ++ restoreCursor) := by
  unfold LineInput.echoRemoved
  rw [h.readTail]
  by_cases hnone : e.right = []
  · rw [if_pos hnone, if_pos (by rw [h.tail, hnone]; rfl)]
  · have htail : s.tail ≠ 0 := by
      rw [h.tail]
      exact fun hzero => hnone (List.eq_nil_of_length_eq_zero hzero)
    rw [if_neg hnone, if_neg htail]
    rfl

/-- A character is taken out of the array. -/
theorem Holds.remove {l r : List (BitVec 8)} {x : BitVec 8} (hline : HasText s.line (l ++ x :: r))
    (hroom : l.length + r.length + 1 ≤ consoleLineMaxLen - 1) (hprint : ∀ b ∈ l ++ x :: r, isPrint b = true)
    {n start : ℕ} (hn : n = r.length) (hstart : start = l.length) : ∃ line, moveDown n start s.line = some line ∧
      ∀ s' : LineInput, s'.cursor = l.length → s'.tail = r.length → s'.line = line → Holds s' ⟨l, r⟩ := by
  have hmax : consoleLineMaxLen - 1 < consoleLineMaxLen := by decide
  subst hn hstart
  have hfits : l.length + r.length ≤ consoleLineMaxLen - 1 := by omega
  refine ⟨_, moveDown_eq (by omega) s.line, fun s' hcursor htail hs' => ?_⟩
  refine ⟨hcursor, htail, hs' ▸ hline.remove, hfits, fun b hb => hprint b ?_⟩
  rcases List.mem_append.mp hb with hb | hb
  · exact List.mem_append_left _ hb
  · exact List.mem_append_right _ (List.mem_cons_of_mem _ hb)

theorem backspace_edited (h : Holds s e) : Edited s e e.backspace s.backspace := by
  obtain ⟨left, right⟩ := e
  rcases List.eq_nil_or_concat' left with rfl | ⟨l, x, rfl⟩
  · have hstart : s.cursor = 0 := h.cursor
    refine ⟨s, [], ?_, h, rfl, fun t ht => ht⟩
    rw [LineInput.backspace, if_pos hstart]
  · have hcursor : s.cursor = l.length + 1 := by rw [h.cursor, List.length_append, List.length_singleton]
    have htail : s.tail = right.length := h.tail
    have hback : LineEditor.backspace ⟨l ++ [x], right⟩ = ⟨l, right⟩ := by
      rw [LineEditor.backspace, List.dropLast_concat]
    have htext : l ++ [x] ++ right = l ++ x :: right := by rw [List.append_assoc, List.singleton_append]
    have hroom : (l ++ [x]).length + right.length ≤ consoleLineMaxLen - 1 := h.room
    rw [List.length_append, List.length_singleton] at hroom
    have hbefore : s.cursor - 1 = l.length := by omega
    have hcount : s.cursor + s.tail - 1 - (s.cursor - 1) = right.length := by omega
    obtain ⟨line, hline, hremoved⟩ := Holds.remove (htext ▸ h.line) (by omega) (htext ▸ h.print) hcount hbefore
    have hholds := hremoved { s with line, cursor := s.cursor - 1 } hbefore htail rfl
    refine ⟨{ s with line, cursor := s.cursor - 1 }, 0x08 ::
      if right = [] then [0x20, 0x08] else saveCursor ++ (right ++ [0x20]) ++ restoreCursor, ?_, hback ▸ hholds, rfl,
      fun t ht => ?_⟩
    · unfold LineInput.backspace
      dsimp only
      rw [if_neg (by omega), hline, Option.bind_some, echoRemoved_eq hholds, Option.map_some]
    · obtain ⟨hmode, hcolumn, hcells⟩ := ht
      rw [hback, ← List.singleton_append, Terminal.run_append, Terminal.run_backspace hmode]
      refine Terminal.shows_erase (x := x) (by exact hmode) ?_ (fun i => ?_) fun b hb =>
        h.print b (List.mem_append_right _ hb)
      · show t.column - 1 = l.length
        rw [hcolumn, LineEditor.cursor, List.length_append, List.length_singleton, Nat.add_sub_cancel]
      · rw [← htext]
        exact hcells i

theorem delete_edited (h : Holds s e) : Edited s e e.delete s.delete := by
  obtain ⟨left, right⟩ := e
  cases right with
  | nil =>
    have hend : s.tail = 0 := h.tail
    refine ⟨s, [], ?_, h, rfl, fun t ht => ht⟩
    rw [LineInput.delete, if_pos hend]
  | cons x r =>
    have hcursor : s.cursor = left.length := h.cursor
    have htail : s.tail = r.length + 1 := h.tail
    have hroom : left.length + (r.length + 1) ≤ consoleLineMaxLen - 1 := h.room
    have hcount : s.cursor + s.tail - 1 - s.cursor = r.length := by omega
    have hrest : s.tail - 1 = r.length := by omega
    obtain ⟨line, hline, hremoved⟩ := Holds.remove h.line hroom h.print hcount hcursor
    have hholds := hremoved { s with line, tail := s.tail - 1 } hcursor hrest rfl
    refine ⟨{ s with line, tail := s.tail - 1 }, echoCursor 0x43 1 ++ 0x08 ::
      if r = [] then [0x20, 0x08] else saveCursor ++ (r ++ [0x20]) ++ restoreCursor, ?_, hholds, rfl, fun t ht => ?_⟩
    · unfold LineInput.delete
      dsimp only
      rw [if_neg (by omega), hline, Option.bind_some, echoRemoved_eq hholds, Option.map_some]
    · have hright := Terminal.shows_right ht 1 (by decide)
      rw [← List.singleton_append, Terminal.run_append, Terminal.run_append]
      obtain ⟨hmode, hcolumn, hcells⟩ := hright
      have hback := Terminal.run_backspace hmode
      rw [show echoCursor 0x43 1 = Terminal.moves 0x43 1 from rfl, hback]
      refine Terminal.shows_erase (x := x) (by exact hmode) ?_ hcells fun b hb =>
        h.print b (List.mem_append_right _ (List.mem_cons_of_mem _ hb))
      show Terminal.column _ - 1 = left.length
      rw [hcolumn, Nat.add_sub_cancel, LineEditor.cursor]

/-- The cursor is moved. -/
theorem Holds.move (h : Holds s e) {e' : LineEditor (BitVec 8)} (htext : e'.text = e.text) {s' : LineInput}
    (hcursor : s'.cursor = e'.left.length) (htail : s'.tail = e'.right.length) (hline : s'.line = s.line) :
    Holds s' e' where
  cursor := hcursor
  tail := htail
  line := by
    rw [← LineEditor.text, htext, hline]
    exact h.line
  room := by
    have hlength := congrArg List.length htext
    rw [LineEditor.text, LineEditor.text, List.length_append, List.length_append] at hlength
    exact hlength ▸ h.room
  print := by
    rw [← LineEditor.text, htext]
    exact h.print

theorem moveHome_edited (h : Holds s e) : Edited s e e.home (some s.moveHome) := by
  have hmax : consoleLineMaxLen - 1 < 1000 := by decide
  have hbounds := h.bounds
  refine ⟨_, _, rfl, h.move e.text_home rfl ?_ rfl, rfl, fun t ht => ?_⟩
  · show s.tail + s.cursor = (e.left ++ e.right).length
    rw [List.length_append, h.cursor, h.tail, Nat.add_comm]
  · have hcount : e.cursor = s.cursor := h.cursor.symm
    have hshown := Terminal.shows_left ht s.cursor (by omega)
    rw [hcount, Nat.sub_self] at hshown
    exact hshown

theorem moveEnd_edited (h : Holds s e) : Edited s e e.goEnd (some s.moveEnd) := by
  have hmax : consoleLineMaxLen - 1 < 1000 := by decide
  have hbounds := h.bounds
  refine ⟨_, _, rfl, h.move e.text_goEnd ?_ rfl rfl, rfl, fun t ht => ?_⟩
  · show s.cursor + s.tail = (e.left ++ e.right).length
    rw [List.length_append, h.cursor, h.tail]
  · have hcount : e.cursor + s.tail = e.goEnd.cursor := by
      rw [LineEditor.cursor_goEnd, LineEditor.text, List.length_append, h.tail, LineEditor.cursor]
    have hshown := Terminal.shows_right ht s.tail (by omega)
    rw [hcount] at hshown
    rw [e.text_goEnd]
    exact hshown

theorem moveLeft_edited (h : Holds s e) (count : ℕ) :
    Edited s e (e.moveLeft count) (some
      ({ s with cursor := s.cursor - min count s.cursor, tail := s.tail + min count s.cursor },
        echoCursor 0x44 (min count s.cursor))) := by
  have hmax : consoleLineMaxLen - 1 < 1000 := by decide
  have hbounds := h.bounds
  have hcursor := h.cursor
  have htail := h.tail
  refine ⟨_, _, rfl, h.move (e.text_moveLeft count) ?_ ?_ rfl, rfl, fun t ht => ?_⟩
  · show s.cursor - min count s.cursor = (e.left.take (e.left.length - count)).length
    rw [List.length_take]
    omega
  · show s.tail + min count s.cursor = (e.left.drop (e.left.length - count) ++ e.right).length
    rw [List.length_append, List.length_drop]
    omega
  · have hshown := Terminal.shows_left ht (min count s.cursor) (by omega)
    have hplace : e.cursor - min count s.cursor = e.cursor - count := by
      rw [LineEditor.cursor]
      omega
    rw [hplace] at hshown
    rw [e.text_moveLeft, e.cursor_moveLeft]
    exact hshown

theorem moveRight_edited (h : Holds s e) (count : ℕ) :
    Edited s e (e.moveRight count) (some
      ({ s with cursor := s.cursor + min count s.tail, tail := s.tail - min count s.tail },
        echoCursor 0x43 (min count s.tail))) := by
  have hmax : consoleLineMaxLen - 1 < 1000 := by decide
  have hbounds := h.bounds
  have hcursor := h.cursor
  have htail := h.tail
  refine ⟨_, _, rfl, h.move (e.text_moveRight count) ?_ ?_ rfl, rfl, fun t ht => ?_⟩
  · show s.cursor + min count s.tail = (e.left ++ e.right.take count).length
    rw [List.length_append, List.length_take]
    omega
  · show s.tail - min count s.tail = (e.right.drop count).length
    rw [List.length_drop]
    omega
  · have hshown := Terminal.shows_right ht (min count s.tail) (by omega)
    rw [htail] at hshown
    rw [e.text_moveRight, e.cursor_moveRight, htail]
    exact hshown

/-- Nothing is edited. -/
theorem Holds.unedited (h : Holds s e) : Edited s e e (some (s, [])) := ⟨s, [], rfl, h, rfl, fun _ ht => ht⟩

theorem applyEscape_edited (h : Holds s e) (hvalue : s.escapeValue ≠ 0 → s.escapeHasValue = true)
    (final : BitVec 8) : Edited s e (pressKey final s.escapeValue e) (s.applyEscape final) := by
  have hcount : (if s.escapeHasValue && s.escapeValue != 0 then s.escapeValue else 1) =
      if s.escapeValue = 0 then 1 else s.escapeValue := by
    by_cases hzero : s.escapeValue = 0
    · rw [hzero, Bool.and_comm]
      rfl
    · rw [if_neg hzero, if_pos]
      rw [hvalue hzero, Bool.true_and, bne_iff_ne]
      exact hzero
  unfold LineInput.applyEscape pressKey
  rw [hcount]
  dsimp only
  split
  case isTrue => exact moveLeft_edited h _
  case isFalse =>
  split
  case isTrue => exact moveRight_edited h _
  case isFalse =>
  split
  case isTrue => exact moveHome_edited h
  case isFalse =>
  split
  case isTrue => exact moveEnd_edited h
  case isFalse =>
  split
  case isFalse => exact h.unedited
  case isTrue =>
  split
  case isTrue => exact delete_edited h
  case isFalse =>
  split
  case isTrue => exact moveHome_edited h
  case isFalse =>
  split
  case isTrue => exact moveEnd_edited h
  case isFalse => exact h.unedited

/-- The last byte of a sequence. -/
theorem endEscape_edited (h : Holds s e) (hvalue : s.escapeValue ≠ 0 → s.escapeHasValue = true) (byte : BitVec 8) :
    ∃ s' echo, s.endEscape byte = some (s', echo) ∧ Holds s' (endKey byte s.escapeValue e) ∧
      s'.overflow = s.overflow ∧ s'.lastWasCr = s.lastWasCr ∧ s'.escapeState = .none ∧
      ∀ t : Terminal, t.Shows e.text e.cursor →
        (t.run echo).Shows (endKey byte s.escapeValue e).text (endKey byte s.escapeValue e).cursor := by
  have hpressed : Edited s e (endKey byte s.escapeValue e)
      (if 0x40 ≤ byte ∧ byte ≤ 0x7e then s.applyEscape byte else some (s, [])) := by
    unfold endKey
    split
    case isTrue => exact applyEscape_edited h hvalue byte
    case isFalse => exact h.unedited
  obtain ⟨s', echo, hresult, hholds, hrest, hshows⟩ := hpressed
  refine ⟨{ s' with escapeState := .none }, echo, ?_, hholds.congr rfl rfl rfl, ?_, ?_, rfl, hshows⟩
  · rw [LineInput.endEscape, hresult]
    rfl
  · rw [hrest]
  · rw [hrest]

end Functions

/-! ## Escape sequences -/

section Escape

variable {body : List (BitVec 8)} {byte : BitVec 8}

theorem keyNumber_append_of_mem (h : (0x3b : BitVec 8) ∈ body) : keyNumber (body ++ [byte]) = keyNumber body := by
  have hshort : ¬(body.takeWhile (· ≠ 0x3b)).length = body.length := by
    intro hall
    have hsame := (List.takeWhile_prefix (l := body) (· ≠ 0x3b)).eq_of_length hall
    rw [← hsame] at h
    have hother : decide ((0x3b : BitVec 8) ≠ 0x3b) = true :=
      List.all_eq_true.mp (List.all_takeWhile (p := fun b : BitVec 8 => decide (b ≠ 0x3b)) (l := body)) _ h
    exact absurd hother (by decide)
  rw [keyNumber, keyNumber, List.takeWhile_append, if_neg hshort]

theorem keyNumber_append (h : (0x3b : BitVec 8) ∉ body) :
    keyNumber (body ++ [byte]) =
      if isDigit byte = true then min 999 (10 * keyNumber body + (byte.toNat - 0x30)) else keyNumber body := by
  have hbefore : ∀ rest, (body ++ rest).takeWhile (· ≠ 0x3b) = body ++ rest.takeWhile (· ≠ 0x3b) := fun rest =>
    List.takeWhile_append_of_pos fun b hb => decide_eq_true fun hsame => h (hsame ▸ hb)
  have hall : body.takeWhile (· ≠ 0x3b) = body := by
    have hnil := hbefore []
    rwa [List.append_nil, List.takeWhile_nil, List.append_nil] at hnil
  have hlast : ([byte].takeWhile (· ≠ 0x3b)).filter isDigit = [byte].filter isDigit := by
    by_cases hend : byte = 0x3b
    · subst hend
      rfl
    · exact congrArg _ (List.takeWhile_cons_of_pos (decide_eq_true hend))
  rw [keyNumber, hbefore, List.filter_append, hlast, keyNumber, hall]
  split
  case isFalse hother =>
    rw [List.filter_cons_of_neg hother, List.filter_nil, List.append_nil]
  case isTrue hdigit =>
    rw [List.filter_cons_of_pos hdigit, List.filter_nil, decimal, List.foldl_append, List.foldl_cons, List.foldl_nil,
      ← decimal]
    omega

/-- The automaton of the escape sequences, after the bytes of one. -/
def EscapeHolds (s : LineInput) : Option (List (BitVec 8)) → Prop
  | none => s.escapeState = .none
  | some [] => s.escapeState = .start ∧ s.escapeValue = 0
  | some (first :: body) =>
    (first = 0x5b ∧ s.escapeState = .csi ∧ s.escapeIgnoreValue = decide ((0x3b : BitVec 8) ∈ body) ∧
      s.escapeValue = keyNumber body ∧ (s.escapeValue ≠ 0 → s.escapeHasValue = true)) ∨
    (first = 0x4f ∧ s.escapeState = .ss3 ∧ s.escapeValue = 0)

/-- A byte that is no digit and no semicolon says nothing. -/
theorem EscapeHolds.skip {s : LineInput} (h : EscapeHolds s (some (0x5b :: body))) (hdigit : ¬isDigit byte = true)
    (hend : byte ≠ 0x3b) : EscapeHolds s (some (0x5b :: (body ++ [byte]))) := by
  obtain ⟨-, hstate, hignore, hnumber, hhas⟩ | ⟨hfirst, -⟩ := h
  case inr => exact absurd hfirst (by decide)
  refine Or.inl ⟨rfl, hstate, ?_, ?_, hhas⟩
  · rw [hignore]
    refine decide_eq_decide.mpr ?_
    rw [List.mem_append, List.mem_singleton, or_iff_left hend.symm]
  · by_cases hsemicolon : (0x3b : BitVec 8) ∈ body
    · rw [keyNumber_append_of_mem hsemicolon, hnumber]
    · rw [keyNumber_append hsemicolon, if_neg hdigit, hnumber]

/-- The line editor is in the state of the editor. -/
structure Refines (s : LineInput) (m : EditorModel) : Prop where
  holds : Holds s m.editor
  overflow : s.overflow = m.overflow
  lastWasCr : s.lastWasCr = m.afterCr
  escape : EscapeHolds s m.escape

/-- What a byte must do: the line editor ends in the state of the editor, and so does a terminal that gets the echo. -/
def Follows (m m' : EditorModel) (r : Option (LineInput × List (BitVec 8))) : Prop :=
  ∃ s' echo, r = some (s', echo) ∧ Refines s' m' ∧
    ∀ t : Terminal, t.Shows m.editor.text m.editor.cursor → (t.run echo).Shows m'.editor.text m'.editor.cursor

variable {s : LineInput} {m : EditorModel}

/-- The state of the automaton changes, and nothing is echoed. -/
theorem Refines.follows (h : Refines s m) {s' : LineInput} {escape : Option (List (BitVec 8))}
    (hs' : s' = { s with
      escapeState := s'.escapeState, escapeHasValue := s'.escapeHasValue, escapeIgnoreValue := s'.escapeIgnoreValue,
      escapeValue := s'.escapeValue })
    (hescape : EscapeHolds s' escape) : Follows m { m with escape } (some (s', [])) := by
  refine ⟨s', [], rfl, ⟨h.holds.congr ?_ ?_ ?_, ?_, ?_, hescape⟩, fun _ ht => ht⟩
  · rw [hs']
  · rw [hs']
  · rw [hs']
  · rw [hs']
    exact h.overflow
  · rw [hs']
    exact h.lastWasCr

theorem endEscape_follows (h : Refines s m) {number : ℕ} (hnumber : s.escapeValue = number)
    (hvalue : s.escapeValue ≠ 0 → s.escapeHasValue = true) (byte : BitVec 8) :
    Follows m { m with editor := endKey byte number m.editor, escape := none } (s.endEscape byte) := by
  obtain ⟨s', echo, hresult, hholds, hoverflow, hcr, hstate, hshows⟩ := endEscape_edited h.holds hvalue byte
  rw [hnumber] at hholds hshows
  exact ⟨s', echo, hresult, ⟨hholds, hoverflow.trans h.overflow, hcr.trans h.lastWasCr, hstate⟩, hshows⟩

/-- A parameter byte of a control sequence. -/
theorem escapeHolds_parameter (hbody : EscapeHolds s (some (0x5b :: body))) (hcsi : s.escapeState = .csi)
    (hrange : 0x30 ≤ byte ∧ byte ≤ 0x3f) : ∃ s' : LineInput,
      s.handleEscape byte = some (s', []) ∧ EscapeHolds s' (some (0x5b :: (body ++ [byte]))) ∧
      s' = { s with
        escapeState := s'.escapeState, escapeHasValue := s'.escapeHasValue, escapeIgnoreValue := s'.escapeIgnoreValue,
        escapeValue := s'.escapeValue } := by
  have hskip : ¬isDigit byte = true → byte ≠ 0x3b → EscapeHolds s (some (0x5b :: (body ++ [byte]))) := hbody.skip
  obtain ⟨-, -, hignore, hnumber, hhas⟩ | ⟨hfirst, -⟩ := hbody
  case inr => exact absurd hfirst (by decide)
  unfold LineInput.handleEscape
  rw [hcsi]
  dsimp only
  rw [if_pos hrange]
  by_cases hdigit : 0x30 ≤ byte ∧ byte ≤ 0x39
  · have hisDigit : isDigit byte = true := by rw [isDigit, decide_eq_true hdigit.1, decide_eq_true hdigit.2]; rfl
    have hmem : (0x3b : BitVec 8) ∈ body ++ [byte] ↔ (0x3b : BitVec 8) ∈ body := by
      rw [List.mem_append, List.mem_singleton, or_iff_left]
      rintro rfl
      exact absurd hdigit.2 (by decide)
    rw [if_pos hdigit]
    by_cases hsemicolon : (0x3b : BitVec 8) ∈ body
    · rw [hignore, decide_eq_true hsemicolon]
      refine ⟨s, rfl, Or.inl ⟨rfl, hcsi, ?_, ?_, hhas⟩, rfl⟩
      · exact hignore.trans (decide_eq_decide.mpr hmem.symm)
      · rw [keyNumber_append_of_mem hsemicolon, hnumber]
    · rw [hignore, decide_eq_false hsemicolon]
      refine ⟨_, rfl, Or.inl ⟨rfl, rfl, ?_, ?_, fun _ => rfl⟩, rfl⟩
      · exact (decide_eq_false (mt hmem.mp hsemicolon)).symm
      · rw [keyNumber_append hsemicolon, if_pos hisDigit, ← hnumber]
        show (if s.escapeValue < 999 then _ else _) = _
        have hmax : s.escapeValue ≤ 999 := by rw [hnumber]; exact min_le_left _ _
        split <;> omega
  · have hnotDigit : ¬isDigit byte = true := by
      rw [isDigit, Bool.and_eq_true, decide_eq_true_eq, decide_eq_true_eq]
      exact hdigit
    rw [if_neg hdigit]
    split
    case isTrue hend =>
      have hsame : keyNumber (body ++ [byte]) = keyNumber body := by
        by_cases hsemicolon : (0x3b : BitVec 8) ∈ body
        · exact keyNumber_append_of_mem hsemicolon
        · rw [keyNumber_append hsemicolon, if_neg hnotDigit]
      refine ⟨_, rfl, Or.inl ⟨rfl, rfl, ?_, hnumber.trans hsame.symm, hhas⟩, rfl⟩
      exact (decide_eq_true (List.mem_append_right _ (List.mem_singleton.mpr hend.symm))).symm
    case isFalse hend => exact ⟨s, rfl, hskip hnotDigit hend, rfl⟩

theorem handleEscape_follows (h : Refines s m) {body : List (BitVec 8)} (hbody : m.escape = some body)
    (byte : BitVec 8) : Follows m (m.escapeByte body byte) (s.handleEscape byte) := by
  have hescape := h.escape
  rw [hbody] at hescape
  cases body with
  | nil =>
    obtain ⟨hstate, hvalue⟩ : s.escapeState = .start ∧ s.escapeValue = 0 := hescape
    unfold LineInput.handleEscape EditorModel.escapeByte
    rw [hstate]
    dsimp only
    by_cases hcsi : byte = 0x5b
    · rw [if_pos hcsi, if_pos (Or.inl hcsi)]
      refine h.follows rfl (Or.inl ⟨hcsi, rfl, rfl, rfl, fun hne => absurd rfl hne⟩)
    · rw [if_neg hcsi]
      by_cases hss3 : byte = 0x4f
      · rw [if_pos hss3, if_pos (Or.inr hss3)]
        exact h.follows rfl (Or.inr ⟨hss3, rfl, hvalue⟩)
      · rw [if_neg hss3, if_neg (not_or.mpr ⟨hcsi, hss3⟩)]
        exact h.follows rfl rfl
  | cons first body =>
    rcases hescape with ⟨rfl, hstate, hignore, hnumber, hhas⟩ | ⟨rfl, hstate, hvalue⟩
    · have hholds : EscapeHolds s (some (0x5b :: body)) := Or.inl ⟨rfl, hstate, hignore, hnumber, hhas⟩
      rw [EditorModel.escapeByte, if_pos rfl]
      by_cases hparameter : 0x30 ≤ byte ∧ byte ≤ 0x3f
      · obtain ⟨s', hresult, hafter, hrest⟩ := escapeHolds_parameter hholds hstate hparameter
        have hbetween : (0x20 : BitVec 8) ≤ byte ∧ byte ≤ 0x3f :=
          ⟨BitVec.le_trans (by decide) hparameter.1, hparameter.2⟩
        rw [if_pos hbetween, hresult]
        exact h.follows hrest hafter
      · unfold LineInput.handleEscape
        rw [hstate]
        dsimp only
        rw [if_neg hparameter]
        by_cases hbetween : 0x20 ≤ byte ∧ byte ≤ 0x2f
        · have hwide : (0x20 : BitVec 8) ≤ byte ∧ byte ≤ 0x3f :=
            ⟨hbetween.1, BitVec.le_trans hbetween.2 (by decide)⟩
          have hdigit : ¬isDigit byte = true := by
            rw [isDigit, Bool.and_eq_true, decide_eq_true_eq, decide_eq_true_eq]
            exact fun hrange => hparameter ⟨hrange.1, hwide.2⟩
          have hend : byte ≠ 0x3b := by
            rintro rfl
            exact absurd hbetween.2 (by decide)
          rw [if_pos hbetween, if_pos hwide]
          exact h.follows rfl (hholds.skip hdigit hend)
        · have hwide : ¬((0x20 : BitVec 8) ≤ byte ∧ byte ≤ 0x3f) := by bv_omega
          rw [if_neg hbetween, if_neg hwide]
          exact endEscape_follows h hnumber hhas byte
    · have hother : ¬((0x4f : BitVec 8) = 0x5b) := by decide
      rw [EditorModel.escapeByte, if_neg hother]
      unfold LineInput.handleEscape
      rw [hstate]
      dsimp only
      split
      case isTrue => exact h.follows rfl (Or.inr ⟨rfl, hstate, hvalue⟩)
      case isFalse => exact endEscape_follows h hvalue (fun hne => absurd hvalue hne) byte

/-- A byte outside an escape sequence. -/
theorem plainByte_follows (h : Refines s m) (hnone : m.escape = none) (hfits : s.overflow = false) (byte : BitVec 8) :
    Follows m (m.plainByte byte) (s.plainByte byte) := by
  have hstate : s.escapeState = .none := by
    have hescape := h.escape
    rwa [hnone] at hescape
  have hedit : ∀ {e : LineEditor (BitVec 8)} {r : Option (LineInput × List (BitVec 8))}, Edited s m.editor e r →
      Follows m { m with editor := e } r := by
    rintro e r ⟨s', echo, hresult, hholds, hrest, hshows⟩
    refine ⟨s', echo, hresult, ⟨hholds, ?_, ?_, ?_⟩, hshows⟩
    · rw [hrest]
      exact h.overflow
    · rw [hrest]
      exact h.lastWasCr
    · rw [hrest]
      show EscapeHolds _ m.escape
      rw [hnone]
      exact hstate
  unfold LineInput.plainByte EditorModel.plainByte
  split
  case isTrue => exact h.follows rfl ⟨rfl, rfl⟩
  case isFalse =>
  split
  case isTrue => exact hedit (backspace_edited h.holds)
  case isFalse =>
  have hunchanged : Follows m m (some (s, [])) := hedit h.holds.unedited
  by_cases htab : byte = 0x09
  · have hunseen : isPrint byte = false := by rw [htab]; rfl
    rw [if_pos htab, if_pos hunseen]
    exact hunchanged
  · rw [if_neg htab]
    cases hprint : isPrint byte with
    | false => exact hunchanged
    | true =>
      rw [if_pos rfl, if_neg (by decide)]
      split
      case isTrue hroom => exact hedit (insertChar_edited h.holds hroom hprint)
      case isFalse hroom =>
        rw [insertChar_full h.holds hroom hfits]
        exact ⟨_, _, rfl, ⟨h.holds.congr rfl rfl rfl, rfl, h.lastWasCr, h.escape⟩, fun t ht => Terminal.shows_bell ht⟩

end Escape

/-! ## A byte -/

section Byte

variable {s : LineInput} {m : EditorModel}

theorem finishLine_eq (h : Refines s m) (full : Bool) : ∃ echo,
    s.finishLine full = some (s.reset, echo, if m.overflow then none else some m.editor.text) ∧
    ∀ t : Terminal, t.Shows m.editor.text m.editor.cursor → (t.run echo).Shows [] 0 := by
  rw [LineInput.finishLine, h.overflow]
  cases m.overflow with
  | true => exact ⟨_, rfl, fun t ht => Terminal.shows_newline ht⟩
  | false =>
    have hroom : s.cursor + s.tail < consoleLineMaxLen := Nat.lt_of_le_of_lt h.holds.bounds (by decide)
    dsimp only
    rw [if_neg (by decide), h.holds.readAll, Option.bind_some, if_pos hroom]
    refine ⟨_, rfl, fun t ht => ?_⟩
    rw [Terminal.run_append]
    cases full with
    | true => exact Terminal.shows_newline (Terminal.shows_bell ht)
    | false => exact Terminal.shows_newline ht

theorem reset_refines (s : LineInput) : Refines s.reset EditorModel.empty where
  holds := ⟨rfl, rfl, fun i hi => absurd hi (Nat.not_lt_zero i), Nat.zero_le _, fun _ hb => absurd hb List.not_mem_nil⟩
  overflow := rfl
  lastWasCr := rfl
  escape := rfl

/-- A byte that does not end the line. -/
theorem typed_follows (h : Refines s m) (byte : BitVec 8) :
    Follows m (m.typed byte) (if s.overflow then some (s, [])
      else if s.escapeState ≠ .none then s.handleEscape byte else s.plainByte byte) := by
  have hescape := h.escape
  unfold EditorModel.typed
  rw [h.overflow]
  cases hoverflow : m.overflow with
  | true => exact ⟨s, [], rfl, h, fun t ht => ht⟩
  | false =>
    rw [if_neg (by decide), if_neg (by decide)]
    cases hbody : m.escape with
    | none =>
      have hstate : ¬s.escapeState ≠ .none := by
        rw [hbody] at hescape
        exact not_not.mpr hescape
      rw [if_neg hstate]
      exact plainByte_follows h hbody (h.overflow.trans hoverflow) byte
    | some body =>
      have hstate : s.escapeState ≠ .none := by
        rw [hbody] at hescape
        cases body with
        | nil => rw [hescape.1]; decide
        | cons first rest =>
          rcases hescape with ⟨-, hcsi, -⟩ | ⟨-, hss3, -⟩
          · rw [hcsi]; decide
          · rw [hss3]; decide
      rw [if_pos hstate]
      exact handleEscape_follows h hbody byte

/-- **A byte.** No access is out of range, the line is the one of the editor, the same line is submitted, and a
terminal that shows the line goes on showing it. -/
theorem inputByte_refines (h : Refines s m) (full : Bool) (byte : BitVec 8) : ∃ s' echo,
    s.inputByte full byte = some (s', echo, (m.byte byte).2) ∧ Refines s' (m.byte byte).1 ∧
    ∀ t : Terminal, t.Shows m.editor.text m.editor.cursor →
      (t.run echo).Shows (m.byte byte).1.editor.text (m.byte byte).1.editor.cursor := by
  unfold LineInput.inputByte EditorModel.byte
  rw [h.lastWasCr]
  split
  case isTrue =>
    exact ⟨_, _, rfl, ⟨h.holds.congr rfl rfl rfl, h.overflow, rfl, h.escape⟩, fun t ht => ht⟩
  case isFalse =>
  split
  case isTrue =>
    obtain ⟨echo, hfinish, hshows⟩ := finishLine_eq h full
    have hreset := reset_refines s
    rw [hfinish]
    exact ⟨_, _, rfl, ⟨hreset.holds.congr rfl rfl rfl, rfl, rfl, hreset.escape⟩, hshows⟩
  case isFalse =>
    have hplain : Refines { s with lastWasCr := false } { m with afterCr := false } :=
      ⟨h.holds.congr rfl rfl rfl, h.overflow, rfl, h.escape⟩
    obtain ⟨s', echo, hresult, hrefines, hshows⟩ := typed_follows hplain byte
    refine ⟨s', echo, ?_, hrefines, hshows⟩
    dsimp only
    split
    case isTrue hoverflow =>
      rw [if_pos hoverflow] at hresult
      obtain ⟨rfl, rfl⟩ := Prod.mk.inj (Option.some.inj hresult)
      rfl
    case isFalse hoverflow =>
      rw [if_neg hoverflow] at hresult
      rw [hresult]
      rfl

end Byte

end Console

end SlimeReceiver
