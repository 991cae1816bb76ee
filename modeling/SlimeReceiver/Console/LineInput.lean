import SlimeReceiver.Library.Terminal

/-! # The input of the console

The line editor of `console.c`: a line in an array, with the number of characters before the cursor and the number
after it, and the bytes it echoes. An access outside the array ends the model.

* **`LineInput`** — the line, and where in an escape sequence the input is.
* **`insertChar`**, **`backspace`**, **`delete`**, **`applyEscape`** — the editing functions, with what they echo.
* **`inputByte`** — a byte that was received.
* **`ConsoleEcho`** — the ring the echo waits in. -/

namespace SlimeReceiver

open Function (update)

namespace Console

/-- `CONSOLE_LINE_MAX_LEN`: the default of its option, which no configuration of the repository changes. -/
def consoleLineMaxLen : ℕ := 128

/-- `CONSOLE_ECHO_BUFFER_SIZE`. -/
def consoleEchoBufferSize : ℕ := 512

/-- `enum console_escape_state`. -/
inductive EscapeState
  | none
  | start
  | csi
  | ss3
  deriving DecidableEq

/-- The fields of `struct console_input_state` the line editor uses. -/
structure LineInput where
  overflow : Bool
  lastWasCr : Bool
  escapeState : EscapeState
  escapeHasValue : Bool
  escapeIgnoreValue : Bool
  escapeValue : ℕ
  cursor : ℕ
  tail : ℕ
  line : ℕ → BitVec 8

/-! ## The array -/

/-- A read of `line`. -/
def lineAt (line : ℕ → BitVec 8) (i : ℕ) : Option (BitVec 8) := if i < consoleLineMaxLen then some (line i) else none

/-- A write to `line`. -/
def setLine (line : ℕ → BitVec 8) (i : ℕ) (byte : BitVec 8) : Option (ℕ → BitVec 8) :=
  if i < consoleLineMaxLen then some (update line i byte) else none

/-- A number of characters from an index on. -/
def readLine (line : ℕ → BitVec 8) : ℕ → ℕ → Option (List (BitVec 8))
  | 0, _ => some []
  | n + 1, i => (lineAt line i).bind fun byte => (readLine line n (i + 1)).map (byte :: ·)

/-- The loop of `console_insert_char_locked`: from `i` down to the cursor, every character moves up. -/
def moveUp (cursor : ℕ) : ℕ → (ℕ → BitVec 8) → Option (ℕ → BitVec 8)
  | 0, line => some line
  | i + 1, line =>
    if cursor < i + 1 then
      (lineAt line i).bind fun byte => (setLine line (i + 1) byte).bind (moveUp cursor i)
    else some line

/-- The loop of `console_backspace_locked` and of `console_delete_locked`: from `i` on, a number of characters move
down. -/
def moveDown : ℕ → ℕ → (ℕ → BitVec 8) → Option (ℕ → BitVec 8)
  | 0, _, line => some line
  | n + 1, i, line => (lineAt line (i + 1)).bind fun byte => (setLine line i byte).bind (moveDown n (i + 1))

/-! ## The echo of the functions -/

/-- `"\r\n"`. -/
def newLine : List (BitVec 8) := [0x0d, 0x0a]

/-- `'0' + n` as a byte. -/
def echoDigit (n : ℕ) : BitVec 8 := 0x30 + BitVec.ofNat 8 n

/-- `console_echo_cursor_locked`. -/
def echoCursor (direction : BitVec 8) (count : ℕ) : List (BitVec 8) :=
  if count = 0 then []
  else
    [0x1b, 0x5b] ++
    (if 100 ≤ count then [echoDigit (count / 100), echoDigit (count % 100 / 10), echoDigit (count % 100 % 10)]
    else if 10 ≤ count then [echoDigit (count / 10), echoDigit (count % 10)]
    else [echoDigit count]) ++ [direction]

/-- `"\x1b[s"`. -/
def saveCursor : List (BitVec 8) := [0x1b, 0x5b, 0x73]

/-- `"\x1b[u"`. -/
def restoreCursor : List (BitVec 8) := [0x1b, 0x5b, 0x75]

namespace LineInput

variable (s : LineInput)

/-- `console_reset_line_locked`. -/
def reset : LineInput :=
  { s with
    overflow := false, lastWasCr := false, escapeState := .none, escapeHasValue := false, escapeIgnoreValue := false,
    escapeValue := 0, cursor := 0, tail := 0 }

/-! ## Editing -/

/-- `console_insert_char_locked`. -/
def insertChar (byte : BitVec 8) : Option (LineInput × List (BitVec 8)) :=
  let length := s.cursor + s.tail
  if consoleLineMaxLen - 1 ≤ length then
    if !s.overflow then some ({ s with overflow := true }, [0x07]) else some (s, [])
  else
    (moveUp s.cursor length s.line).bind fun line =>
    (setLine line s.cursor byte).bind fun line =>
    let s := { s with line, cursor := s.cursor + 1 }
    if s.tail ≠ 0 then
      (readLine s.line s.tail s.cursor).map fun text => (s, byte :: (saveCursor ++ text ++ restoreCursor))
    else some (s, [byte])

/-- What is echoed after a character was taken away. -/
def echoRemoved : Option (List (BitVec 8)) :=
  if s.tail = 0 then some [0x20, 0x08]
  else (readLine s.line s.tail s.cursor).map fun text => saveCursor ++ (text ++ [0x20]) ++ restoreCursor

/-- `console_backspace_locked`. -/
def backspace : Option (LineInput × List (BitVec 8)) :=
  if s.cursor = 0 then some (s, [])
  else
    let length := s.cursor + s.tail
    let cursor := s.cursor - 1
    (moveDown (length - 1 - cursor) cursor s.line).bind fun line =>
    let s := { s with line, cursor }
    s.echoRemoved.map fun echo => (s, 0x08 :: echo)

/-- `console_delete_locked`. -/
def delete : Option (LineInput × List (BitVec 8)) :=
  if s.tail = 0 then some (s, [])
  else
    let length := s.cursor + s.tail
    (moveDown (length - 1 - s.cursor) s.cursor s.line).bind fun line =>
    let s := { s with line, tail := s.tail - 1 }
    s.echoRemoved.map fun echo => (s, echoCursor 0x43 1 ++ 0x08 :: echo)

/-- `console_move_home_locked`. -/
def moveHome : LineInput × List (BitVec 8) :=
  ({ s with tail := s.tail + s.cursor, cursor := 0 }, echoCursor 0x44 s.cursor)

/-- `console_move_end_locked`. -/
def moveEnd : LineInput × List (BitVec 8) :=
  ({ s with cursor := s.cursor + s.tail, tail := 0 }, echoCursor 0x43 s.tail)

/-! ## Escape sequences -/

/-- `console_apply_escape_locked`. -/
def applyEscape (final : BitVec 8) : Option (LineInput × List (BitVec 8)) :=
  let count := if s.escapeHasValue && s.escapeValue != 0 then s.escapeValue else 1
  if final = 0x44 then
    let count := min count s.cursor
    some ({ s with cursor := s.cursor - count, tail := s.tail + count }, echoCursor 0x44 count)
  else if final = 0x43 then
    let count := min count s.tail
    some ({ s with cursor := s.cursor + count, tail := s.tail - count }, echoCursor 0x43 count)
  else if final = 0x48 then some s.moveHome
  else if final = 0x46 then some s.moveEnd
  else if final = 0x7e then
    if s.escapeValue = 3 then s.delete
    else if s.escapeValue = 1 ∨ s.escapeValue = 7 then some s.moveHome
    else if s.escapeValue = 4 ∨ s.escapeValue = 8 then some s.moveEnd
    else some (s, [])
  else some (s, [])

/-- The end of a sequence, or what ends it otherwise. -/
def endEscape (byte : BitVec 8) : Option (LineInput × List (BitVec 8)) :=
  (if 0x40 ≤ byte ∧ byte ≤ 0x7e then s.applyEscape byte else some (s, [])).map fun (s, echo) =>
    ({ s with escapeState := .none }, echo)

/-- `console_handle_escape_locked`; it is only called inside a sequence. -/
def handleEscape (byte : BitVec 8) : Option (LineInput × List (BitVec 8)) :=
  match s.escapeState with
  | .start =>
    if byte = 0x5b then
      some ({ s with escapeState := .csi, escapeHasValue := false, escapeIgnoreValue := false, escapeValue := 0 }, [])
    else if byte = 0x4f then some ({ s with escapeState := .ss3 }, [])
    else some ({ s with escapeState := .none }, [])
  | .csi =>
    if 0x30 ≤ byte ∧ byte ≤ 0x3f then
      if 0x30 ≤ byte ∧ byte ≤ 0x39 then
        if !s.escapeIgnoreValue then
          some ({ s with
            escapeHasValue := true
            escapeValue := if s.escapeValue < 999 then min 999 (s.escapeValue * 10 + (byte.toNat - 0x30))
              else s.escapeValue }, [])
        else some (s, [])
      else if byte = 0x3b then some ({ s with escapeIgnoreValue := true }, [])
      else some (s, [])
    else if 0x20 ≤ byte ∧ byte ≤ 0x2f then some (s, [])
    else s.endEscape byte
  | .ss3 =>
    if 0x20 ≤ byte ∧ byte ≤ 0x2f then some (s, [])
    else s.endEscape byte
  | .none => some (s, [])

/-! ## A byte -/

/-- `console_finish_line_locked`: what is left, what is echoed and the line that is put into the queue. -/
def finishLine (full : Bool) : Option (LineInput × List (BitVec 8) × Option (List (BitVec 8))) :=
  if s.overflow then some (s.reset, newLine, none)
  else
    let length := s.cursor + s.tail
    (readLine s.line length 0).bind fun text =>
    -- the terminating zero of the message
    if length < consoleLineMaxLen then some (s.reset, (if full then [0x07] else []) ++ newLine, some text) else none

/-- The bytes that are not part of an escape sequence. -/
def plainByte (byte : BitVec 8) : Option (LineInput × List (BitVec 8)) :=
  if byte = 0x1b then
    some ({ s with
      escapeState := .start, escapeHasValue := false, escapeIgnoreValue := false, escapeValue := 0 }, [])
  else if byte = 0x08 ∨ byte = 0x7f then s.backspace
  else if byte = 0x09 then some (s, [])
  else if isPrint byte then s.insertChar byte
  else some (s, [])

/-- `console_input_byte_locked`; `full` says that the queue has no room for a line. -/
def inputByte (full : Bool) (byte : BitVec 8) : Option (LineInput × List (BitVec 8) × Option (List (BitVec 8))) :=
  if byte = 0x0a ∧ s.lastWasCr = true then some ({ s with lastWasCr := false }, [], none)
  else if byte = 0x0d ∨ byte = 0x0a then
    (s.finishLine full).map fun (s, echo, line) => ({ s with lastWasCr := byte == 0x0d }, echo, line)
  else
    let s := { s with lastWasCr := false }
    if s.overflow then some (s, [], none)
    else
      (if s.escapeState ≠ .none then s.handleEscape byte else s.plainByte byte).map fun (s, echo) => (s, echo, none)

end LineInput

/-! ## The echo buffer -/

/-- `echo`, `echo_head` and `echo_tail`. -/
structure ConsoleEcho where
  echo : ℕ → BitVec 8
  head : ℕ
  tail : ℕ

/-- `console_echo_put_locked`, and whether the byte was dropped; an index outside the array ends the model. -/
def ConsoleEcho.put (r : ConsoleEcho) (byte : BitVec 8) : Option (ConsoleEcho × Bool) :=
  let next := (r.head + 1) % consoleEchoBufferSize
  if next = r.tail then some (r, true)
  else if r.head < consoleEchoBufferSize then some ({ r with echo := update r.echo r.head byte, head := next }, false)
  else none

/-- One pass of `console_echo_flush`, with the number of bytes the driver takes: what is sent. -/
def ConsoleEcho.flush (r : ConsoleEcho) (taken : ℕ) : Option (ConsoleEcho × List (BitVec 8)) :=
  if r.head = r.tail then some (r, [])
  else
    let contiguous := if r.tail < r.head then r.head - r.tail else consoleEchoBufferSize - r.tail
    let sent := min taken contiguous
    if r.tail + contiguous ≤ consoleEchoBufferSize then
      some
        ({ r with tail := (r.tail + sent) % consoleEchoBufferSize }, (List.range sent).map fun k => r.echo (r.tail + k))
    else none

end Console

end SlimeReceiver
