import SlimeReceiver.Console.LineEcho
import SlimeReceiver.Library.EpochQueue

/-! # Which lines the console thread runs

Bytes, lines and the message the thread has taken are in three places: what the driver has not handed over, the line
queue, and the stack of the thread. Closing the port empties the first one, and a stop all of them, the last by means of
the epoch.

* **`ConsoleWorld`**, **`ConsoleStep`** — the port, the interrupt handler, the queue and the thread, step by step.
* **`TypedSoFar`** — the line is what was typed since the last line end.
* **`ConsoleWorld.Valid`**, **`Valid.step`** — what every step keeps.
* **`lines_admitted`** — every run. -/

namespace SlimeReceiver

namespace Console

/-- `CONSOLE_LINE_QUEUE_DEPTH`. -/
def consoleLineQueueDepth : ℕ := 4

/-- `CONSOLE_INPUT_DRAIN_MAX`. -/
def consoleInputDrainMax : ℕ := 4096

/-- A byte, and the opening in which the driver got it. -/
structure ReceivedByte where
  byte : BitVec 8
  opening : Option ℕ

/-- A line that was completed, with the bytes that were typed, and the number of lines that were in the queue. -/
structure ConsoleLine where
  text : List (BitVec 8)
  bytes : List ReceivedByte
  waiting : ℕ

/-- Where `console_serial_start` is. -/
inductive StartPhase
  | idle
  /-- In `console_input_install`, before `device_is_ready`. -/
  | installing
  /-- Before `uart_irq_callback_user_data_set`. -/
  | connecting
  /-- Before `initialized` is set. -/
  | connected
  /-- Before the lock is taken to open the port. -/
  | opening
  deriving DecidableEq

/-- The console. -/
structure ConsoleWorld where
  initialized : Bool
  active : Bool
  threadStarted : Bool
  starting : StartPhase
  /-- The bytes in the driver. -/
  unread : List ReceivedByte
  input : LineInput
  /-- The epoch, the line queue and the message the thread has taken. -/
  lines : EpochQueue ConsoleLine 32
  /-- How many times the port was opened. -/
  openings : ℕ
  /-- The bytes of the line that is typed. -/
  typed : List ReceivedByte

inductive ConsoleStep
  /-- The driver gets a byte. -/
  | receive (byte : BitVec 8)
  /-- The interrupt handler reads a byte. -/
  | irq
  /-- A step of `console_serial_start`; `ok` says that what it asks for succeeds. -/
  | start (ok : Bool)
  /-- `console_serial_close`. -/
  | close
  /-- `console_serial_stop`. -/
  | stop
  /-- The thread takes a line. -/
  | dequeue
  /-- `console_line_is_current`. -/
  | check

namespace ConsoleWorld

/-- The console after boot. -/
def boot : ConsoleWorld where
  initialized := false
  active := false
  threadStarted := false
  starting := .idle
  unread := []
  input := ⟨false, false, .none, false, false, 0, 0, 0, fun _ => 0⟩
  lines := .empty
  openings := 0
  typed := []

variable (w : ConsoleWorld)

/-- `console_drain_uart_locked`. -/
def drainUart : ConsoleWorld := { w with unread := w.unread.drop consoleInputDrainMax }

/-- `console_reset_line_locked`. -/
def resetLine : ConsoleWorld := { w with input := w.input.reset, typed := [] }

/-- The driver gets a byte; it holds no more than are drained. -/
def receive (byte : BitVec 8) : ConsoleWorld :=
  if w.unread.length < consoleInputDrainMax then
    { w with unread := w.unread ++ [⟨byte, if w.active then some w.openings else none⟩] }
  else w

/-- `console_input_byte_locked`, with the line that is put into the queue. -/
def inputByte (b : ReceivedByte) : Option ConsoleWorld :=
  let full := decide (¬w.lines.queue.length < consoleLineQueueDepth)
  (w.input.inputByte full b.byte).map fun (input, _, line) =>
    { w with
      input
      typed := if b.byte = 0x0d ∨ b.byte = 0x0a then [] else w.typed ++ [b]
      lines :=
        match line with
        | none => w.lines
        | some text => w.lines.put consoleLineQueueDepth ⟨text, w.typed, w.lines.queue.length⟩ }

/-- The loop of `console_uart_irq`, once. -/
def irq : Option ConsoleWorld :=
  match w.unread with
  | [] => some w
  | b :: unread =>
    let w := { w with unread }
    if w.initialized && w.active then w.inputByte b else some w

/-- `console_serial_start` with the lock, after `console_input_install`. -/
def openPort : ConsoleWorld :=
  if w.active then w
  else { w.drainUart.resetLine with active := true, openings := w.openings + 1, threadStarted := true }

/-- A step of `console_serial_start`. -/
def start (ok : Bool) : ConsoleWorld :=
  match w.starting with
  | .idle => { w with starting := if w.initialized then .opening else .installing }
  | .installing => if ok then { w.drainUart with starting := .connecting } else { w with starting := .idle }
  | .connecting => { w with starting := if ok then .connected else .idle }
  | .connected => { w with initialized := true, starting := .opening }
  | .opening => { w.openPort with starting := .idle }

/-- `console_close_input_locked`. -/
def closeInput : ConsoleWorld :=
  let w := { w with active := false }.resetLine
  if w.initialized then w.drainUart else w

/-- `console_serial_stop`. -/
def stop : ConsoleWorld := { w.closeInput with lines := w.lines.invalidate }

def step : ConsoleStep → Option ConsoleWorld
  | .receive byte => some (w.receive byte)
  | .irq => w.irq
  | .start ok => some (w.start ok)
  | .close => some w.closeInput
  | .stop => some w.stop
  | .dequeue => some (if w.threadStarted then { w with lines := w.lines.take } else w)
  | .check => some (if w.threadStarted then { w with lines := w.lines.check } else w)

def run (steps : List ConsoleStep) : Option ConsoleWorld := steps.foldlM step w

end ConsoleWorld

/-! ## The line -/

/-- The editor has what was typed since the last line end. -/
structure TypedSoFar (m : EditorModel) (bytes : List (BitVec 8)) : Prop where
  typed : { m with afterCr := false } = typeLine bytes
  afterCr : m.afterCr = true → bytes = []

/-- The line that a byte ends is the one that was typed. -/
theorem TypedSoFar.byte {m : EditorModel} {bytes : List (BitVec 8)} (h : TypedSoFar m bytes) (byte : BitVec 8) :
    TypedSoFar (m.byte byte).1 (if byte = 0x0d ∨ byte = 0x0a then [] else bytes ++ [byte]) ∧
      ∀ text, (m.byte byte).2 = some text → submittedLine bytes = some text := by
  obtain ⟨htyped, hcr⟩ := h
  by_cases hend : byte = 0x0d ∨ byte = 0x0a
  · rw [if_pos hend]
    cases hafter : m.afterCr with
    | false =>
      rw [m.byte_end hend hafter]
      refine ⟨⟨rfl, fun _ => rfl⟩, fun text htext => ?_⟩
      rw [submittedLine, ← htyped]
      exact htext
    | true =>
      obtain rfl := hcr hafter
      rcases hend with rfl | rfl
      · have hsame : m.byte 0x0d = { m with afterCr := false }.byte 0x0d :=
          (m.byte_afterCr (by decide) false).symm
        rw [hsame, htyped]
        refine ⟨⟨rfl, fun _ => rfl⟩, fun text htext => htext⟩
      · have hskip : m.byte 0x0a = ({ m with afterCr := false }, none) := by
          rw [EditorModel.byte, if_pos ⟨rfl, hafter⟩]
        rw [hskip]
        exact ⟨⟨htyped, fun _ => rfl⟩, by rintro text ⟨⟩⟩
  · have hafter : ((typeLine bytes).typed byte).afterCr = false := by
      rw [EditorModel.typed_afterCr, ← htyped]
    have hnext : typeLine (bytes ++ [byte]) = (typeLine bytes).typed byte := List.foldl_append
    rw [if_neg hend, m.byte_typed hend, htyped]
    refine ⟨⟨?_, fun htrue => ?_⟩, by rintro text ⟨⟩⟩
    · rw [hnext, ← hafter]
    · exact absurd (hafter.symm.trans htrue) (by decide)

/-! ## Every step -/

namespace ConsoleWorld

variable {w : ConsoleWorld}

/-- What holds of the console at any time. -/
structure Valid (w : ConsoleWorld) : Prop where
  lines : w.lines.Valid consoleLineQueueDepth
  room : w.unread.length ≤ consoleInputDrainMax
  active : w.active = true → w.initialized = true ∧ w.threadStarted = true
  opening : w.starting = .opening → w.initialized = true
  /-- While the port is open, what the driver holds came in this opening. -/
  unread : w.active = true → ∀ b ∈ w.unread, b.opening = some w.openings
  typed : ∀ b ∈ w.typed, b.opening = some w.openings
  closed : w.active = false → w.typed = []
  input : ∃ m, Refines w.input m ∧ TypedSoFar m (w.typed.map ReceivedByte.byte)
  /-- Every line was typed in one opening, and dropped only by a full queue. -/
  puts : ∀ p ∈ w.lines.puts, (∃ opening, ∀ b ∈ p.item.bytes, b.opening = some opening) ∧
    submittedLine (p.item.bytes.map ReceivedByte.byte) = some p.item.text ∧
    (p.queued = true ↔ p.item.waiting < consoleLineQueueDepth)
  started : w.threadStarted = false → w.lines.puts = []

theorem reset_input (input : LineInput) : ∃ m, Refines input.reset m ∧ TypedSoFar m [] :=
  ⟨.empty, reset_refines input, rfl, fun _ => rfl⟩

theorem Valid.boot : boot.Valid where
  lines := .empty
  room := Nat.zero_le _
  active h := nomatch h
  opening h := nomatch h
  unread h := nomatch h
  typed _ hb := absurd hb List.not_mem_nil
  closed _ := rfl
  input := reset_input ConsoleWorld.boot.input
  puts _ hp := absurd hp List.not_mem_nil
  started _ := rfl

theorem Valid.receive (h : w.Valid) (byte : BitVec 8) : (w.receive byte).Valid := by
  unfold ConsoleWorld.receive
  split
  case isFalse => exact h
  case isTrue hroom =>
    refine { h with room := ?_, unread := fun hactive b hb => ?_ }
    · rw [List.length_append]
      exact hroom
    · rcases List.mem_append.mp hb with hb | hb
      · exact h.unread hactive b hb
      · rw [List.mem_singleton.mp hb]
        exact if_pos hactive

/-- The driver is empty after it was drained. -/
theorem drainUart_unread (h : w.Valid) : w.drainUart.unread = [] := List.drop_eq_nil_of_le h.room

theorem Valid.drainUart (h : w.Valid) : w.drainUart.Valid := by
  have hempty := drainUart_unread h
  refine { h with room := ?_, unread := fun _ b hb => ?_ }
  · rw [hempty]
    exact Nat.zero_le _
  · rw [hempty] at hb
    exact absurd hb List.not_mem_nil

theorem Valid.inputByte (h : w.Valid) (hactive : w.active = true) {b : ReceivedByte}
    (hb : b.opening = some w.openings) : ∃ w', w.inputByte b = some w' ∧ w'.Valid := by
  obtain ⟨m, hrefines, htyped⟩ := h.input
  obtain ⟨input, echo, hinput, hnext, -⟩ :=
    inputByte_refines hrefines (decide (¬w.lines.queue.length < consoleLineQueueDepth)) b.byte
  obtain ⟨htyped', hsubmitted⟩ := htyped.byte b.byte
  set typed := if b.byte = 0x0d ∨ b.byte = 0x0a then [] else w.typed ++ [b] with htypedDef
  have hbytes : typed.map ReceivedByte.byte =
      if b.byte = 0x0d ∨ b.byte = 0x0a then [] else w.typed.map ReceivedByte.byte ++ [b.byte] := by
    rw [htypedDef, apply_ite (List.map ReceivedByte.byte), List.map_append]
    rfl
  have htags : ∀ x ∈ typed, x.opening = some w.openings := by
    intro x hx
    rw [htypedDef] at hx
    split at hx
    case isTrue => exact absurd hx List.not_mem_nil
    case isFalse =>
      rcases List.mem_append.mp hx with hx | hx
      · exact h.typed x hx
      · exact List.mem_singleton.mp hx ▸ hb
  have hinput' : ∃ m, Refines input m ∧ TypedSoFar m (typed.map ReceivedByte.byte) := by
    rw [hbytes]
    exact ⟨_, hnext, htyped'⟩
  have hclosed : w.active = false → typed = [] := fun hfalse => absurd (hactive.symm.trans hfalse) (by decide)
  have hstarted : w.threadStarted = true := (h.active hactive).2
  have hresult : w.inputByte b = some { w with
      input, typed
      lines :=
        match (m.byte b.byte).2 with
        | none => w.lines
        | some text => w.lines.put consoleLineQueueDepth ⟨text, w.typed, w.lines.queue.length⟩ } := by
    rw [ConsoleWorld.inputByte, hinput]
    rfl
  refine ⟨_, hresult, ?_⟩
  cases hline : (m.byte b.byte).2 with
  | none => exact { h with typed := htags, closed := hclosed, input := hinput' }
  | some text =>
    refine { h with
      lines := h.lines.put _, typed := htags, closed := hclosed, input := hinput', puts := ?_, started := ?_ }
    · intro p hp
      rcases List.mem_append.mp hp with hp | hp
      · exact h.puts p hp
      · rw [List.mem_singleton.mp hp]
        exact ⟨⟨w.openings, h.typed⟩, hsubmitted text hline, decide_eq_true_iff⟩
    · exact fun hfalse => absurd (hstarted.symm.trans hfalse) (by decide)

theorem Valid.irq (h : w.Valid) : ∃ w', w.irq = some w' ∧ w'.Valid := by
  unfold ConsoleWorld.irq
  split
  case h_1 => exact ⟨w, rfl, h⟩
  case h_2 b unread hunread =>
    have hroom : unread.length ≤ consoleInputDrainMax := by
      have hlength := h.room
      rw [hunread, List.length_cons] at hlength
      exact Nat.le_of_succ_le hlength
    have hrest : ({ w with unread } : ConsoleWorld).Valid :=
      { h with
        room := hroom
        unread := fun hactive x hx => h.unread hactive x (hunread ▸ List.mem_cons_of_mem _ hx) }
    dsimp only
    split
    case isTrue hready =>
      have hactive : w.active = true := (Bool.and_eq_true_iff.mp hready).2
      exact hrest.inputByte hactive (h.unread hactive b (hunread ▸ List.mem_cons_self))
    case isFalse => exact ⟨_, rfl, hrest⟩

theorem Valid.openPort (h : w.Valid) (hinitialized : w.initialized = true) : w.openPort.Valid := by
  unfold ConsoleWorld.openPort
  split
  case isTrue => exact h
  case isFalse =>
    have hempty := drainUart_unread h
    refine { h.drainUart with
      active := fun _ => ⟨hinitialized, rfl⟩, unread := fun _ b hb => ?_,
      typed := fun b hb => absurd hb List.not_mem_nil, closed := fun _ => rfl, input := reset_input w.input,
      started := fun hfalse => nomatch hfalse }
    have hb' : b ∈ w.drainUart.unread := hb
    rw [hempty] at hb'
    exact absurd hb' List.not_mem_nil

theorem Valid.closeInput (h : w.Valid) : w.closeInput.Valid := by
  have hclosed : ({ w with active := false } : ConsoleWorld).resetLine.Valid :=
    { h with
      active := fun hactive => nomatch hactive
      unread := fun hactive => nomatch hactive
      typed := fun _ hb => absurd hb List.not_mem_nil
      closed := fun _ => rfl
      input := reset_input w.input }
  unfold ConsoleWorld.closeInput
  dsimp only
  split
  case isTrue => exact hclosed.drainUart
  case isFalse => exact hclosed

theorem Valid.start (h : w.Valid) (ok : Bool) : (w.start ok).Valid := by
  have hidle : ({ w with starting := .idle } : ConsoleWorld).Valid := { h with opening := fun hphase => nomatch hphase }
  unfold ConsoleWorld.start
  cases hphase : w.starting with
  | idle =>
    refine { h with opening := fun hopening => ?_ }
    by_contra hnot
    rw [if_neg hnot] at hopening
    exact nomatch hopening
  | installing =>
    cases ok with
    | false => exact hidle
    | true => exact { h.drainUart with opening := fun hopening => nomatch hopening }
  | connecting =>
    cases ok with
    | false => exact hidle
    | true => exact { h with opening := fun hopening => nomatch hopening }
  | connected =>
    exact { h with active := fun hactive => ⟨rfl, (h.active hactive).2⟩, opening := fun _ => rfl }
  | opening => exact { h.openPort (h.opening hphase) with opening := fun hopening => nomatch hopening }

theorem Valid.stop (h : w.Valid) : w.stop.Valid := by
  have hlines : w.closeInput.lines = w.lines := by
    unfold ConsoleWorld.closeInput
    dsimp only
    split <;> rfl
  have hvalid := h.closeInput.lines
  exact { h.closeInput with
    lines := (hlines ▸ hvalid).invalidate
    puts := h.puts
    started := fun hfalse => (congrArg EpochQueue.puts hlines).symm.trans (h.closeInput.started hfalse) }

/-- Only the thread changes the queue. -/
theorem Valid.withLines (h : w.Valid) {lines : EpochQueue ConsoleLine 32} (hlines : lines.Valid consoleLineQueueDepth)
    (hputs : lines.puts = w.lines.puts) : ({ w with lines } : ConsoleWorld).Valid :=
  { h with lines := hlines, puts := hputs ▸ h.puts, started := fun hfalse => hputs.trans (h.started hfalse) }

theorem Valid.step (h : w.Valid) (step : ConsoleStep) : ∃ w', w.step step = some w' ∧ w'.Valid := by
  cases step with
  | receive byte => exact ⟨_, rfl, h.receive byte⟩
  | irq => exact h.irq
  | start ok => exact ⟨_, rfl, h.start ok⟩
  | close => exact ⟨_, rfl, h.closeInput⟩
  | stop => exact ⟨_, rfl, h.stop⟩
  | dequeue =>
    refine ⟨_, rfl, ?_⟩
    split
    case isTrue => exact h.withLines h.lines.take w.lines.take_puts.1
    case isFalse => exact h
  | check =>
    refine ⟨_, rfl, ?_⟩
    split
    case isTrue => exact h.withLines h.lines.check w.lines.check_puts.1
    case isFalse => exact h

theorem Valid.run (h : w.Valid) (steps : List ConsoleStep) : ∃ w', w.run steps = some w' ∧ w'.Valid := by
  induction steps generalizing w with
  | nil => exact ⟨w, rfl, h⟩
  | cons step steps ih =>
    obtain ⟨w₁, hstep, h₁⟩ := h.step step
    obtain ⟨w', hrun, h'⟩ := ih h₁
    refine ⟨w', ?_, h'⟩
    rw [ConsoleWorld.run, List.foldlM_cons, hstep]
    exact hrun

/-! ## The thread -/

/-- The thread checks the message it has taken, and takes the next one, so many times. -/
def threadSteps : ℕ → List ConsoleStep
  | 0 => [.check]
  | n + 1 => .check :: .dequeue :: threadSteps n

theorem run_threadSteps (hstarted : w.threadStarted = true) (n : ℕ) :
    w.run (threadSteps n) = some { w with lines := w.lines.drain n } := by
  induction n generalizing w with
  | zero =>
    show some (if w.threadStarted then _ else w) = _
    rw [if_pos hstarted]
    rfl
  | succ n ih =>
    show ((some (if w.threadStarted then _ else w)).bind fun w₁ : ConsoleWorld =>
      (some (if w₁.threadStarted then { w₁ with lines := w₁.lines.take } else w₁)).bind fun w₂ =>
        w₂.run (threadSteps n)) = _
    rw [Option.bind_some, Option.bind_some, if_pos hstarted, if_pos (by exact hstarted)]
    exact ih hstarted

end ConsoleWorld

/-! ## Every run -/

/-- **Admission.** However bytes, openings, closings, stops and the steps of the thread follow each other: a line that
is admitted consists of bytes of one opening; lines are admitted in the order in which they were completed, none twice;
a line that was put into the queue is not lost unless a stop follows, and the thread admits it when it goes on; a line
is left out only by a queue with four older ones; and no line is admitted after a stop that followed it, unless a
multiple of `2 ^ 32` stops did. -/
theorem lines_admitted (steps : List ConsoleStep) : ∃ w, ConsoleWorld.boot.run steps = some w ∧
    (∀ a ∈ w.lines.admitted, ∃ p, w.lines.puts[a.id]? = some p ∧ p.queued = true ∧
      (∃ opening, ∀ b ∈ p.item.bytes, b.opening = some opening) ∧
      submittedLine (p.item.bytes.map ReceivedByte.byte) = some p.item.text ∧
      p.invalidations ≤ a.invalidations ∧ 2 ^ 32 ∣ a.invalidations - p.invalidations) ∧
    (w.lines.admitted.map EpochAdmission.id).Pairwise (· < ·) ∧
    (∀ id p, w.lines.puts[id]? = some p → p.queued = true → p.invalidations = w.lines.invalidations →
      id ∈ w.lines.admitted.map EpochAdmission.id ++ w.lines.pending.map EpochMessage.id ∧
      ∃ w', w.run (ConsoleWorld.threadSteps w.lines.queue.length) = some w' ∧
        id ∈ w'.lines.admitted.map EpochAdmission.id) ∧
    w.lines.queue.length ≤ consoleLineQueueDepth ∧
    ∀ p ∈ w.lines.puts, p.queued = false → consoleLineQueueDepth ≤ p.item.waiting := by
  obtain ⟨w, hrun, h⟩ := ConsoleWorld.Valid.boot.run steps
  refine ⟨w, hrun, fun a ha => ?_, ?_, fun id p hp hqueued hnow => ⟨?_, ?_⟩, h.lines.length, fun p hp hdropped => ?_⟩
  · obtain ⟨p, hp, hqueued, hpast, hcount⟩ := h.lines.admitted a ha
    obtain ⟨hopening, htext, -⟩ := h.puts p (List.mem_of_getElem? hp)
    exact ⟨p, hp, hqueued, hopening, htext, hpast, hcount⟩
  · exact (List.pairwise_append.mp h.lines.order).1
  · exact h.lines.kept id p hp hqueued hnow
  · have hstarted : w.threadStarted = true := by
      by_contra hnot
      have hnone := h.started (Bool.eq_false_iff.mpr hnot)
      rw [hnone, List.getElem?_nil] at hp
      exact nomatch hp
    exact ⟨_, ConsoleWorld.run_threadSteps hstarted _, h.lines.drained_admitted (le_refl _) hp hqueued hnow⟩
  · obtain ⟨-, -, hroom⟩ := h.puts p hp
    by_contra hnot
    exact absurd (hroom.mpr (Nat.lt_of_not_le hnot)) (by rw [hdropped]; decide)

/-! ## The epoch comes back -/

/-- A number of stops, while the thread holds a message. -/
theorem run_stops (w : ConsoleWorld) (n : ℕ) : ∃ w', w.run (List.replicate n .stop) = some w' ∧
    w'.threadStarted = w.threadStarted ∧ w'.lines.held = w.lines.held ∧ w'.lines.puts = w.lines.puts ∧
    w'.lines.admitted = w.lines.admitted ∧ w'.lines.epoch = w.lines.epoch + BitVec.ofNat 32 n ∧
    w'.lines.invalidations = w.lines.invalidations + n := by
  induction n generalizing w with
  | zero => exact ⟨w, rfl, rfl, rfl, rfl, rfl, (BitVec.add_zero _).symm, rfl⟩
  | succ n ih =>
    obtain ⟨w', hrun, hstarted, hheld, hputs, hadmitted, hepoch, hcount⟩ := ih w.stop
    have hsame : w.stop.threadStarted = w.threadStarted := by
      unfold ConsoleWorld.stop ConsoleWorld.closeInput
      dsimp only
      split <;> rfl
    refine ⟨w', ?_, hstarted.trans hsame, hheld, hputs, hadmitted, ?_, ?_⟩
    · rw [ConsoleWorld.run, List.replicate_succ, List.foldlM_cons]
      exact hrun
    · rw [hepoch]
      show w.lines.epoch + 1 + BitVec.ofNat 32 n = w.lines.epoch + BitVec.ofNat 32 (n + 1)
      rw [BitVec.ofNat_add, BitVec.add_assoc, BitVec.add_comm 1]
      rfl
    · rw [hcount]
      show w.lines.invalidations + 1 + n = w.lines.invalidations + (n + 1)
      omega

/-- The message that is held is admitted when the epoch has come back. -/
theorem admitted_after_stops {w : ConsoleWorld} (hstarted : w.threadStarted = true)
    {m : EpochMessage ConsoleLine 32} (hheld : w.lines.held = some m) (hcurrent : m.epoch = w.lines.epoch) {n : ℕ}
    (hn : BitVec.ofNat 32 n = 0) : ∃ w', w.run (List.replicate n .stop ++ [.check]) = some w' ∧
      w'.lines.puts = w.lines.puts ∧ (⟨m.id, w.lines.invalidations + n⟩ : EpochAdmission) ∈ w'.lines.admitted := by
  obtain ⟨w₁, hrun, hstarted₁, hheld₁, hputs, hadmitted, hepoch, hcount⟩ := run_stops w n
  have hsame : m.epoch = w₁.lines.epoch := by
    rw [hepoch, hn, hcurrent]
    exact (BitVec.add_zero _).symm
  have hchecked : w₁.lines.check =
      { w₁.lines with held := none, admitted := w₁.lines.admitted ++ [⟨m.id, w₁.lines.invalidations⟩] } := by
    unfold EpochQueue.check
    rw [hheld₁, hheld]
    dsimp only
    rw [if_pos hsame]
  have hadmit : w₁.run [.check] = some { w₁ with lines := w₁.lines.check } := by
    show some (if w₁.threadStarted then _ else w₁) = _
    rw [if_pos (hstarted₁.trans hstarted)]
  refine ⟨{ w₁ with lines := w₁.lines.check }, ?_, w₁.lines.check_puts.1.trans hputs, ?_⟩
  · rw [ConsoleWorld.run, List.foldlM_append, ← ConsoleWorld.run, hrun]
    exact hadmit
  · show _ ∈ w₁.lines.check.admitted
    rw [hchecked, ← hcount]
    exact List.mem_append_right _ List.mem_cons_self

/-- The port is opened, an empty line arrives and the thread takes it; after some stops it checks it. -/
def staleSteps (n : ℕ) : List ConsoleStep :=
  [.start true, .start true, .start true, .start true, .start true, .receive 0x0d, .irq, .dequeue] ++
    (List.replicate n .stop ++ [.check])

theorem run_staleSteps {n : ℕ} (hn : BitVec.ofNat 32 n = 0) : ∃ w, ConsoleWorld.boot.run (staleSteps n) = some w ∧
    w.lines.puts = [⟨⟨[], [], 0⟩, 0, true⟩] ∧ (⟨0, n⟩ : EpochAdmission) ∈ w.lines.admitted := by
  obtain ⟨w, hrun, hstarted, hheld, hputs, hepoch, hcount⟩ : ∃ w : ConsoleWorld,
      ConsoleWorld.boot.run [.start true, .start true, .start true, .start true, .start true, .receive 0x0d, .irq,
        .dequeue] = some w ∧ w.threadStarted = true ∧ w.lines.held = some ⟨0, ⟨[], [], 0⟩, 0⟩ ∧
      w.lines.puts = [⟨⟨[], [], 0⟩, 0, true⟩] ∧ w.lines.epoch = 0 ∧ w.lines.invalidations = 0 :=
    ⟨_, rfl, rfl, rfl, rfl, rfl, rfl⟩
  obtain ⟨w', hstops, hputs', hadmitted⟩ := admitted_after_stops hstarted hheld hepoch.symm hn
  rw [hcount, Nat.zero_add] at hadmitted
  refine ⟨w', ?_, hputs'.trans hputs, hadmitted⟩
  rw [ConsoleWorld.run, staleSteps, List.foldlM_append, ← ConsoleWorld.run, hrun]
  exact hstops

/-- A line that the thread has taken is admitted after `2 ^ 32` stops. -/
theorem stale_line_admitted : ¬∀ steps w, ConsoleWorld.boot.run steps = some w → ∀ a ∈ w.lines.admitted, ∀ p,
    w.lines.puts[a.id]? = some p → p.invalidations = a.invalidations := by
  intro hclaim
  have hround : BitVec.ofNat 32 (2 ^ 32) = 0 := by decide
  obtain ⟨w, hrun, hputs, hadmitted⟩ := run_staleSteps hround
  have hsame := hclaim _ w hrun _ hadmitted ⟨⟨[], [], 0⟩, 0, true⟩ (by rw [hputs]; rfl)
  exact absurd hsame (by decide)

end Console

end SlimeReceiver
