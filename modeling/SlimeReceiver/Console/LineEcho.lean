import SlimeReceiver.Console.LineEditing
import SlimeReceiver.Library.RingQueue

/-! # What the terminal shows is the line

While the console is open, bytes arrive and the driver takes the echo out of the ring, in any order. The line in the
array is the line of the editor on two texts all the time, and unless the ring was full at some time, a terminal that
gets everything that was echoed shows it.

* **`splitLines`**, **`typeLine`**, **`submittedLine`** — the lines of the bytes, and what is typed in each.
* **`ConsoleOp`**, **`ConsoleRun.step`** — one opening of the console.
* **`EditorModel.run_editor`** — the editor, byte by byte, types the lines.
* **`RunHolds`**, **`RunHolds.step`** — the invariant.
* **`line_editor_refines`** — every run. -/

namespace SlimeReceiver

namespace Console

/-! ## Lines -/

/-- The lines that were ended, and what follows them: a carriage return, a line feed, or the two in this order end a
line. -/
def splitLines : List (BitVec 8) → List (List (BitVec 8)) × List (BitVec 8)
  | [] => ([], [])
  | [byte] => if byte = 0x0d ∨ byte = 0x0a then ([[]], []) else ([], [byte])
  | byte :: next :: bytes =>
    if byte = 0x0d ∧ next = 0x0a then ([] :: (splitLines bytes).1, (splitLines bytes).2)
    else if byte = 0x0d ∨ byte = 0x0a then ([] :: (splitLines (next :: bytes)).1, (splitLines (next :: bytes)).2)
    else
      match splitLines (next :: bytes) with
      | ([], rest) => ([], byte :: rest)
      | (line :: ended, rest) => ((byte :: line) :: ended, rest)

/-- A line is typed. -/
def typeLine (bytes : List (BitVec 8)) : EditorModel := bytes.foldl EditorModel.typed .empty

namespace EditorModel

/-- The line that is submitted at its end: none if it was too long. -/
def submitted (m : EditorModel) : Option (List (BitVec 8)) := if m.overflow then none else some m.editor.text

/-- The editor after a byte, with the lines that were submitted. -/
def next : EditorModel × List (List (BitVec 8)) → BitVec 8 → EditorModel × List (List (BitVec 8))
  | (m, lines), byte => ((m.byte byte).1, lines ++ (m.byte byte).2.toList)

def run (bytes : List (BitVec 8)) : EditorModel × List (List (BitVec 8)) := bytes.foldl next (empty, [])

end EditorModel

/-- What a line that was typed submits. -/
def submittedLine (bytes : List (BitVec 8)) : Option (List (BitVec 8)) := (typeLine bytes).submitted

namespace EditorModel

variable (m : EditorModel)

theorem typed_afterCr (byte : BitVec 8) : (m.typed byte).afterCr = m.afterCr := by
  unfold typed escapeByte plainByte
  repeat' split
  all_goals rfl

/-- A byte that is no line end is typed. -/
theorem byte_typed {byte : BitVec 8} (hbyte : ¬(byte = 0x0d ∨ byte = 0x0a)) :
    m.byte byte = ({ m with afterCr := false }.typed byte, none) := by
  have hfeed : ¬(byte = 0x0a ∧ m.afterCr = true) := fun h => hbyte (Or.inr h.1)
  rw [EditorModel.byte, if_neg hfeed, if_neg hbyte]

/-- A line end. -/
theorem byte_end {byte : BitVec 8} (hend : byte = 0x0d ∨ byte = 0x0a) (hcr : m.afterCr = false) :
    m.byte byte = ({ empty with afterCr := byte == 0x0d }, m.submitted) := by
  have hnot : ¬(byte = 0x0a ∧ m.afterCr = true) := by
    rw [hcr]
    exact fun h => absurd h.2 (by decide)
  rw [EditorModel.byte, if_neg hnot, if_pos hend, submitted]

/-- After a carriage return, only a line feed is different. -/
theorem byte_afterCr {byte : BitVec 8} (hbyte : byte ≠ 0x0a) (afterCr : Bool) :
    { m with afterCr }.byte byte = m.byte byte := by
  simp only [EditorModel.byte, hbyte, false_and, if_false]

/-- The editor after lines, when some of the first one was typed already, and the lines that were submitted. -/
def typeLines : List (List (BitVec 8)) × List (BitVec 8) → EditorModel × List (List (BitVec 8))
  | ([], rest) => (rest.foldl typed m, [])
  | (line :: ended, rest) =>
    (typeLine rest, (line.foldl typed m).submitted.toList ++ ended.filterMap submittedLine)

theorem typeLines_empty (lines : List (List (BitVec 8)) × List (BitVec 8)) :
    empty.typeLines lines = (typeLine lines.2, lines.1.filterMap submittedLine) := by
  obtain ⟨ended, rest⟩ := lines
  cases ended with
  | nil => rfl
  | cons line ended =>
    show (typeLine rest, (submittedLine line).toList ++ ended.filterMap submittedLine) = _
    cases hline : submittedLine line with
    | none => rw [List.filterMap_cons_none hline]; rfl
    | some text => rw [List.filterMap_cons_some hline]; rfl

/-- A line that ends here. -/
theorem typeLines_end (lines : List (List (BitVec 8)) × List (BitVec 8)) :
    m.typeLines ([] :: lines.1, lines.2) =
      ((empty.typeLines lines).1, m.submitted.toList ++ (empty.typeLines lines).2) := by
  rw [typeLines_empty]
  rfl

/-- The editor, byte by byte, types the lines. -/
theorem foldl_next (bytes : List (BitVec 8)) (hcr : m.afterCr = false) (lines : List (List (BitVec 8))) :
    (bytes.foldl next (m, lines)).1.editor = (m.typeLines (splitLines bytes)).1.editor ∧
      (bytes.foldl next (m, lines)).2 = lines ++ (m.typeLines (splitLines bytes)).2 := by
  have hsame : { m with afterCr := false } = m := by rw [← hcr]
  fun_induction splitLines bytes generalizing m lines
  case case1 => exact ⟨rfl, (List.append_nil _).symm⟩
  case case2 byte hend =>
    rw [List.foldl_cons, next, m.byte_end hend hcr]
    exact ⟨rfl, congrArg (lines ++ ·) (List.append_nil _).symm⟩
  case case3 byte hbyte =>
    rw [List.foldl_cons, next, m.byte_typed hbyte, hsame]
    exact ⟨rfl, rfl⟩
  case case4 byte following bytes hpair ih =>
    -- the line feed after the carriage return does nothing
    obtain ⟨rfl, rfl⟩ := hpair
    rw [List.foldl_cons, next, m.byte_end (Or.inl rfl) hcr, typeLines_end]
    obtain ⟨heditor, hlines⟩ := ih empty rfl (lines ++ m.submitted.toList) rfl
    rw [List.append_assoc] at hlines
    have hfeed : next ({ empty with afterCr := true }, lines ++ m.submitted.toList) 0x0a =
        (empty, lines ++ m.submitted.toList) := congrArg (Prod.mk empty) (List.append_nil _)
    rw [List.foldl_cons]
    show (bytes.foldl next (next ({ empty with afterCr := true }, _) _)).1.editor = _ ∧
      (bytes.foldl next (next ({ empty with afterCr := true }, _) _)).2 = _
    rw [hfeed]
    exact ⟨heditor, hlines⟩
  case case5 byte following bytes hpair hend ih =>
    rw [List.foldl_cons, next, m.byte_end hend hcr, typeLines_end]
    obtain ⟨heditor, hlines⟩ := ih empty rfl (lines ++ m.submitted.toList) rfl
    rw [List.append_assoc] at hlines
    have hnext : next ({ empty with afterCr := byte == 0x0d }, lines ++ m.submitted.toList) following =
        next (empty, lines ++ m.submitted.toList) following := by
      by_cases hfeed : following = 0x0a
      · have hcr : (byte == 0x0d) = false := beq_eq_false_iff_ne.mpr fun hreturn => hpair ⟨hreturn, hfeed⟩
        rw [hcr]
        rfl
      · rw [next, next, byte_afterCr _ hfeed]
    rw [List.foldl_cons, hnext]
    exact ⟨heditor, hlines⟩
  case case6 byte following bytes hpair hbyte rest hsplit ih =>
    have hrest := (m.typed_afterCr byte).trans hcr
    obtain ⟨heditor, hlines⟩ := ih (m.typed byte) hrest lines (by rw [← hrest])
    rw [List.foldl_cons, next, m.byte_typed hbyte, hsame, Option.toList_none, List.append_nil]
    rw [hsplit] at heditor hlines
    exact ⟨heditor, hlines⟩
  case case7 byte following bytes hpair hbyte line ended rest hsplit ih =>
    have hrest := (m.typed_afterCr byte).trans hcr
    obtain ⟨heditor, hlines⟩ := ih (m.typed byte) hrest lines (by rw [← hrest])
    rw [List.foldl_cons, next, m.byte_typed hbyte, hsame, Option.toList_none, List.append_nil]
    rw [hsplit] at heditor hlines
    exact ⟨heditor, hlines⟩

/-- The editor of the last line, and the lines before it. -/
theorem run_eq (bytes : List (BitVec 8)) :
    (run bytes).1.editor = (typeLine (splitLines bytes).2).editor ∧
      (run bytes).2 = (splitLines bytes).1.filterMap submittedLine := by
  have hlines := empty.foldl_next bytes rfl []
  rw [typeLines_empty] at hlines
  exact hlines

end EditorModel

/-! ## An opening -/

/-- A byte arrives, with room in the line queue or not; or the driver takes as much of the echo as it can, up to a
number of bytes. -/
inductive ConsoleOp
  | byte (full : Bool) (byte : BitVec 8)
  | flush (taken : ℕ)

/-- The line editor and its echo, with what happened in the opening. -/
structure ConsoleRun where
  input : LineInput
  echo : ConsoleEcho
  /-- The bytes the driver took. -/
  sent : List (BitVec 8)
  /-- Some echo found the ring full. -/
  dropped : Bool
  /-- The lines that were put into the queue. -/
  submitted : List (List (BitVec 8))

/-- `console_serial_start`: what was in the arrays stays there. -/
def ConsoleRun.opened (input : LineInput) (echo : ℕ → BitVec 8) : ConsoleRun :=
  ⟨input.reset, ⟨echo, 0, 0⟩, [], false, []⟩

/-- Bytes that are echoed, and whether one of them was dropped. -/
def ConsoleEcho.putAll (r : ConsoleEcho) : List (BitVec 8) → Option (ConsoleEcho × Bool)
  | [] => some (r, false)
  | byte :: bytes => (r.put byte).bind fun (r, dropped) => (r.putAll bytes).map fun (r, more) => (r, dropped || more)

def ConsoleRun.step (w : ConsoleRun) : ConsoleOp → Option ConsoleRun
  | .byte full byte =>
    (w.input.inputByte full byte).bind fun (input, echoed, line) =>
      (w.echo.putAll echoed).map fun (echo, dropped) =>
        { w with input, echo, dropped := w.dropped || dropped, submitted := w.submitted ++ line.toList }
  | .flush taken => (w.echo.flush taken).map fun (echo, sent) => { w with echo, sent := w.sent ++ sent }

def ConsoleRun.run (w : ConsoleRun) (ops : List ConsoleOp) : Option ConsoleRun := ops.foldlM ConsoleRun.step w

/-- The bytes that arrive. -/
def received (ops : List ConsoleOp) : List (BitVec 8) :=
  ops.filterMap fun op =>
    match op with
    | .byte _ byte => some byte
    | .flush _ => none

/-- The bytes that wait in the ring. -/
def ConsoleEcho.pending (r : ConsoleEcho) : List (BitVec 8) :=
  (List.range ((r.head + consoleEchoBufferSize - r.tail) % consoleEchoBufferSize)).map fun k =>
    r.echo ((r.tail + k) % consoleEchoBufferSize)

/-! ## The ring -/

section Ring

variable {r : ConsoleEcho} {items : List (BitVec 8)}

/-- The ring holds bytes. -/
def ConsoleEcho.HoldsEcho (r : ConsoleEcho) (items : List (BitVec 8)) : Prop :=
  Queued consoleEchoBufferSize r.echo r.tail r.head items

theorem HoldsEcho.pending_eq (h : r.HoldsEcho items) : r.pending = items := by
  have hcount : (r.head + consoleEchoBufferSize - r.tail) % consoleEchoBufferSize = items.length := by
    have hhead := h.write_eq
    have hroom := h.room
    have htail := h.read_lt
    unfold consoleEchoBufferSize at hhead hroom htail ⊢
    omega
  rw [ConsoleEcho.pending, hcount]
  refine List.ext_getElem (by rw [List.length_map, List.length_range]) fun k hk hk' => ?_
  rw [List.getElem_map, List.getElem_range]
  exact h.slot_eq k hk'

theorem HoldsEcho.put (h : r.HoldsEcho items) (byte : BitVec 8) : ∃ r' dropped items',
    r.put byte = some (r', dropped) ∧ r'.HoldsEcho items' ∧ (dropped = false → items' = items ++ [byte]) := by
  have hnext := ringNext_eq_mod h.write_lt
  unfold ConsoleEcho.put
  rw [← hnext]
  dsimp only
  split
  case isTrue => exact ⟨r, true, items, rfl, h, fun hkept => absurd hkept (by decide)⟩
  case isFalse hroom =>
    rw [if_pos h.write_lt]
    exact ⟨_, false, _, rfl, h.push hroom byte, fun _ => rfl⟩

theorem HoldsEcho.putAll (h : r.HoldsEcho items) (bytes : List (BitVec 8)) : ∃ r' dropped items',
    r.putAll bytes = some (r', dropped) ∧ r'.HoldsEcho items' ∧ (dropped = false → items' = items ++ bytes) := by
  induction bytes generalizing r items with
  | nil => exact ⟨r, false, items, rfl, h, fun _ => (List.append_nil _).symm⟩
  | cons byte bytes ih =>
    obtain ⟨r₁, dropped, items₁, hput, h₁, hkept⟩ := HoldsEcho.put h byte
    obtain ⟨r₂, more, items₂, hrest, h₂, hmore⟩ := ih h₁
    refine ⟨r₂, dropped || more, items₂, ?_, h₂, fun hnone => ?_⟩
    · rw [ConsoleEcho.putAll, hput, Option.bind_some]
      dsimp only
      rw [hrest]
      rfl
    · obtain ⟨hfirst, hrest⟩ := Bool.or_eq_false_iff.mp hnone
      rw [hmore hrest, hkept hfirst, List.append_assoc, List.singleton_append]

theorem HoldsEcho.flush (h : r.HoldsEcho items) (taken : ℕ) : ∃ r' sent rest,
    r.flush taken = some (r', sent) ∧ r'.HoldsEcho rest ∧ sent ++ rest = items := by
  unfold ConsoleEcho.flush
  split
  case isTrue => exact ⟨r, [], items, rfl, h, rfl⟩
  case isFalse hne =>
    dsimp only
    generalize hcontiguous : (if r.tail < r.head then r.head - r.tail else consoleEchoBufferSize - r.tail) = contiguous
    have hbounds : contiguous ≤ items.length ∧ r.tail + contiguous ≤ consoleEchoBufferSize := by
      have hhead := h.write_eq
      have hroom := h.room
      have htail := h.read_lt
      unfold consoleEchoBufferSize at hhead hroom htail hcontiguous ⊢
      split at hcontiguous <;> omega
    rw [if_pos hbounds.2]
    have hsent : min taken contiguous ≤ items.length := (min_le_right _ _).trans hbounds.1
    refine ⟨_, _, _, rfl, h.drop hsent, ?_⟩
    rw [h.contiguous hsent ((Nat.add_le_add_left (min_le_right _ _) _).trans hbounds.2), List.take_append_drop]

end Ring

/-! ## Every run -/

/-- The state of an opening, against the editor and the lines it submitted. -/
structure RunHolds (w : ConsoleRun) (m : EditorModel) (lines : List (List (BitVec 8))) : Prop where
  refines : Refines w.input m
  submitted : w.submitted = lines
  echo : ∃ items, w.echo.HoldsEcho items ∧
    (w.dropped = false → (Terminal.blank.run (w.sent ++ items)).Shows m.editor.text m.editor.cursor)

theorem RunHolds.opened (input : LineInput) (slots : ℕ → BitVec 8) :
    RunHolds (ConsoleRun.opened input slots) .empty [] where
  refines := reset_refines input
  submitted := rfl
  echo := ⟨[], Queued.nil (n := consoleEchoBufferSize) (i := 0) (by decide), fun _ => Terminal.shows_blank⟩

theorem RunHolds.step {w : ConsoleRun} {m : EditorModel} {lines : List (List (BitVec 8))} (h : RunHolds w m lines)
    (op : ConsoleOp) : ∃ w', w.step op = some w' ∧
      match op with
      | .byte _ byte => RunHolds w' (m.byte byte).1 (lines ++ (m.byte byte).2.toList)
      | .flush _ => RunHolds w' m lines := by
  obtain ⟨hrefines, hsubmitted, items, hitems, hshown⟩ := h
  cases op with
  | byte full byte =>
    obtain ⟨input, echoed, hinput, hnext, hshows⟩ := inputByte_refines hrefines full byte
    obtain ⟨echo, dropped, items', hput, hitems', hkept⟩ := HoldsEcho.putAll hitems echoed
    refine ⟨{ w with
      input, echo, dropped := w.dropped || dropped, submitted := w.submitted ++ (m.byte byte).2.toList }, ?_, hnext,
      congrArg (· ++ _) hsubmitted, items', hitems', fun hnone => ?_⟩
    · rw [ConsoleRun.step, hinput, Option.bind_some]
      dsimp only
      rw [hput]
      rfl
    · obtain ⟨hbefore, hnow⟩ := Bool.or_eq_false_iff.mp hnone
      rw [hkept hnow, ← List.append_assoc, Terminal.run_append]
      exact hshows _ (hshown hbefore)
  | flush taken =>
    obtain ⟨echo, sent, rest, hflush, hrest, hsplit⟩ := HoldsEcho.flush hitems taken
    refine ⟨{ w with echo, sent := w.sent ++ sent }, ?_, hrefines, hsubmitted, rest, hrest, fun hnone => ?_⟩
    · rw [ConsoleRun.step, hflush]
      rfl
    · rw [List.append_assoc, hsplit]
      exact hshown hnone

theorem RunHolds.run {w : ConsoleRun} {m : EditorModel} {lines : List (List (BitVec 8))} (h : RunHolds w m lines)
    (ops : List ConsoleOp) : ∃ w', w.run ops = some w' ∧
      RunHolds w' ((received ops).foldl EditorModel.next (m, lines)).1
        ((received ops).foldl EditorModel.next (m, lines)).2 := by
  induction ops generalizing w m lines with
  | nil => exact ⟨w, rfl, h⟩
  | cons op ops ih =>
    obtain ⟨w₁, hstep, h₁⟩ := h.step op
    have hrun : w.run (op :: ops) = w₁.run ops := by
      rw [ConsoleRun.run, List.foldlM_cons, hstep]
      rfl
    rw [hrun]
    cases op with
    | byte full byte => exact ih h₁
    | flush taken => exact ih h₁

/-- **The line editor.** Whatever bytes arrive in an opening and whenever the driver takes the echo, no access to an
array is out of range; the line and the cursor are those of the editor on two texts, which types what follows the last
line end; every line that was ended was submitted once, with its text, unless it was too long; and a terminal that gets
the echo shows the line with the cursor in it, unless some of the echo was dropped. -/
theorem line_editor_refines (input : LineInput) (slots : ℕ → BitVec 8) (ops : List ConsoleOp) :
    ∃ w, (ConsoleRun.opened input slots).run ops = some w ∧
      w.input.cursor + w.input.tail ≤ consoleLineMaxLen - 1 ∧
      let (ended, current) := splitLines (received ops)
      let editor := (typeLine current).editor
      w.input.cursor = editor.left.length ∧
      readLine w.input.line (w.input.cursor + w.input.tail) 0 = some (editor.left ++ editor.right) ∧
      w.submitted = ended.filterMap submittedLine ∧
      (w.dropped = false →
        (Terminal.blank.run (w.sent ++ w.echo.pending)).Shows (editor.left ++ editor.right) w.input.cursor) := by
  obtain ⟨w, hrun, hrefines, hsubmitted, items, hitems, hshown⟩ := (RunHolds.opened input slots).run ops
  obtain ⟨heditor, hlines⟩ := EditorModel.run_eq (received ops)
  have hbounds := hrefines.holds.bounds
  have hcursor := hrefines.holds.cursor
  have htext := hrefines.holds.readAll
  rw [← EditorModel.run] at hsubmitted hshown hcursor htext
  rw [heditor] at hshown hcursor htext
  refine ⟨w, hrun, hbounds, hcursor, htext, hsubmitted.trans hlines, fun hkept => ?_⟩
  rw [HoldsEcho.pending_eq hitems, hcursor]
  exact hshown hkept

end Console

end SlimeReceiver
