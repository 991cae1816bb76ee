import SlimeReceiver.Library.EventSystem
import Mathlib.Data.BitVec
import Mathlib.Logic.Function.Basic

/-! # The LED

`led.c`: the requests of `set_led`, one per priority, and the thread that shows the one of the highest priority. A
step is a critical section under `led_state_lock`, an operation of the semaphore, or what the thread does between
two of them.

* **`Pattern`**, **`animate`** — the patterns, and one step of each.
* **`selectOf`** — the selection among the requests.
* **`Snapshot`**, **`Point`** — where the thread is.
* **`ledSystem`** — any interleaving of requests with the thread. -/

namespace SlimeReceiver

namespace Led

open Function (update)

/-! ## Patterns -/

/-- `enum sys_led_pattern`. -/
inductive Pattern
  | offForce
  | off
  | on
  | short
  | long
  | flash
  | oneshotPoweron
  | oneshotPoweroff
  | oneshotProgress
  | oneshotComplete
  | onPersist
  | longPersist
  | pulsePersist
  | activePersist
  | errorA
  | errorB
  | errorC
  | errorD
  deriving DecidableEq

/-- `pattern <= SYS_LED_PATTERN_OFF`. -/
def Pattern.dark : Pattern → Bool
  | .offForce | .off => true
  | _ => false

/-- `enum sys_led_color`. -/
inductive Color
  | default
  | success
  | error
  | charging
  | pairing
  deriving DecidableEq

/-- The arguments of `led_pin_set`. -/
structure Frame where
  color : Color
  brightnessPptt : ℤ
  valuePptt : ℤ
  deriving DecidableEq

/-- What one step of a pattern does: the next `led_pattern_state`, the frame, how long the thread waits, and the
pattern that replaces a one-shot that is over. -/
structure Animation where
  patternState : ℕ
  frame : Option Frame
  waitMs : Option ℕ
  finish : Option Pattern
  deriving DecidableEq

/-- `value * 10000` for a condition. -/
def full (lit : Bool) : ℤ := if lit then 10000 else 0

/-- A pattern with `period` states that waits `waitMs`. -/
def cyclic (period : ℕ) (color : Color) (brightness : ℤ) (lit : ℕ → Bool) (waitMs : ℕ → ℕ) (state : ℕ) : Animation :=
  let next := (state + 1) % period
  ⟨next, some ⟨color, brightness, full (lit next)⟩, some (waitMs next), none⟩

/-- A one-shot that flashes until its state is `last`. -/
def flashes (last : ℕ) (color : Color) (state : ℕ) : Animation :=
  let next := state + 1
  ⟨next, some ⟨color, 10000, full (next % 2 = 0)⟩, if next = last then none else some 200,
    if next = last then some .off else none⟩

/-- The brightness of a pulse. -/
def pulseValue (state : ℕ) : ℤ :=
  let value : ℤ := if 500 < state then 1000 - state else state
  if value < 200 then value * 30
  else if value < 300 then (value - 200) * 20 + 6000
  else if value < 400 then (value - 300) * 15 + 8000
  else (value - 400) * 5 + 9500

/-- The `switch` of `led_thread`. -/
def animate (pattern : Pattern) (state : ℕ) : Animation :=
  match pattern with
  | .on => ⟨state, some ⟨.default, 10000, 10000⟩, none, none⟩
  | .short => cyclic 2 .pairing 10000 (· == 1) (fun next => if next = 1 then 100 else 900) state
  | .long => cyclic 2 .default 10000 (· == 1) (fun _ => 500) state
  | .flash => cyclic 2 .default 10000 (· == 1) (fun _ => 200) state
  | .oneshotPoweron => flashes 7 .default state
  | .oneshotPoweroff =>
    let next := state + 1
    ⟨next, some (if 0 < state then ⟨.default, (202 - (next : ℤ)) * 50, full (next ≠ 202)⟩ else ⟨.default, 10000, 0⟩),
      if next = 202 then none else if next = 1 then some 250 else some 5,
      if next = 202 then some .offForce else none⟩
  | .oneshotProgress => flashes 5 .success state
  | .oneshotComplete => flashes 9 .success state
  | .onPersist => ⟨state, some ⟨.success, 2000, 10000⟩, none, none⟩
  | .longPersist => cyclic 2 .charging 2000 (· == 1) (fun _ => 500) state
  | .pulsePersist =>
    let next := (state + 1) % 1000
    ⟨next, some ⟨.charging, 10000, pulseValue next⟩, some 5, none⟩
  | .activePersist => cyclic 2 .default 10000 (· == 0) (fun next => if next = 0 then 300 else 9700) state
  | .errorA => cyclic 10 .error 10000 (fun next => decide (next < 4) && next % 2 == 1) (fun _ => 500) state
  | .errorB => cyclic 10 .error 10000 (fun next => decide (next < 6) && next % 2 == 1) (fun _ => 500) state
  | .errorC => cyclic 10 .error 10000 (fun next => decide (next < 8) && next % 2 == 1) (fun _ => 500) state
  | .errorD => cyclic 2 .error 10000 (· == 1) (fun _ => 500) state
  | .off | .offForce => ⟨state, none, none, none⟩

/-- Only the one-shots end. -/
theorem finish_oneshot {pattern finish : Pattern} {state : ℕ} (h : (animate pattern state).finish = some finish) :
    pattern.dark = false ∧ pattern ≠ finish ∧ (animate pattern state).waitMs = none := by
  cases pattern with
  | oneshotPoweron | oneshotProgress | oneshotComplete =>
    simp only [animate, flashes] at h ⊢
    split at h
    case isTrue hlast =>
      obtain rfl := Option.some.inj h
      exact ⟨rfl, by decide, if_pos hlast⟩
    case isFalse => cases h
  | oneshotPoweroff =>
    simp only [animate] at h ⊢
    split at h
    case isTrue hlast =>
      obtain rfl := Option.some.inj h
      exact ⟨rfl, by decide, if_pos hlast⟩
    case isFalse => cases h
  | _ => cases h

/-! ## The selection -/

/-- `SYS_LED_PATTERN_DEPTH`. -/
def depth : ℕ := 5

/-- The pattern of the first priority whose request is not `OFF`, and that priority. -/
def selectOf (patterns : ℕ → Pattern) : Pattern × ℕ :=
  match (List.range depth).find? (fun i => patterns i ≠ .off) with
  | some priority => (patterns priority, priority)
  | none => (.off, depth)

/-! ## The thread -/

/-- The local copy of the selection; `epoch` is the number of the selection, which `generation` counts modulo
`2 ^ 32`. -/
structure Snapshot where
  pattern : Pattern
  priority : ℕ
  generation : BitVec 32
  epoch : ℕ
  deriving DecidableEq

/-- What `led_thread` does next. -/
inductive Point
  /-- Takes a snapshot. -/
  | top
  /-- Compares the snapshot with the generation shown. -/
  | snapped (sn : Snapshot)
  /-- Acknowledges a black frame that was applied or was not. -/
  | acking (sn : Snapshot) (applied : Bool)
  /-- Draws. -/
  | drawing (sn : Snapshot)
  /-- Ends a one-shot. -/
  | finishing (sn : Snapshot) (finish : Pattern)
  /-- Gives the semaphore after that. -/
  | giving (sn : Snapshot)
  /-- Discards a notification. -/
  | draining (sn : Snapshot) (waitMs : Option ℕ)
  /-- Compares the snapshot with the generation once more. -/
  | checking (sn : Snapshot) (waitMs : Option ℕ)
  /-- Waits for the semaphore, without a timeout if there is none. -/
  | waiting (sn : Snapshot) (waitMs : Option ℕ)
  deriving DecidableEq

/-! ## The state -/

/-- The state; `owed` counts the callers that have yet to give the semaphore, and `epoch`, `activeEpoch` and
`offEpoch` are the numbers behind the generations. -/
structure State where
  patterns : ℕ → Pattern
  currentPattern : Pattern
  currentPriority : ℕ
  generation : BitVec 32
  offGeneration : BitVec 32
  semaphore : Bool
  owed : ℕ
  point : Point
  activeGeneration : BitVec 32
  patternState : ℕ
  epoch : ℕ
  activeEpoch : ℕ
  offEpoch : ℕ

def State.init : State where
  patterns := fun _ => .off
  currentPattern := .off
  currentPriority := depth
  generation := 1
  offGeneration := 0
  semaphore := false
  owed := 0
  point := .top
  activeGeneration := 0
  patternState := 0
  epoch := 1
  activeEpoch := 0
  offEpoch := 0

/-- What is visible. -/
inductive Event
  /-- `set_led` returns from its critical section. -/
  | requested (generation : BitVec 32) (waitForOff : Bool)
  /-- A caller looks whether the black frame of its generation was applied, or another selection made. -/
  | polled (applied superseded : Bool)
  /-- A black frame for selection `shown`, while `current` is the selection. -/
  | blackFrame (shown current : ℕ) (applied : Bool)
  /-- `led_pin_init`. -/
  | lit
  /-- `led_pin_set`. -/
  | drawn (frame : Option Frame)
  deriving DecidableEq

namespace State

/-- The selection, as the thread copies it. -/
def now (s : State) : Snapshot := ⟨s.currentPattern, s.currentPriority, s.generation, s.epoch⟩

/-- `led_select_locked`; the caller gives the semaphore if the selection has changed. -/
def selectLocked (pattern : Pattern) (priority : ℕ) (s : State) : State × Bool :=
  let patterns := update s.patterns priority pattern
  let selected := selectOf patterns
  if selected = (s.currentPattern, s.currentPriority) then ({ s with patterns := patterns }, false)
  else
    ({ s with
      patterns := patterns
      currentPattern := selected.1
      currentPriority := selected.2
      generation := s.generation + 1
      epoch := s.epoch + 1 }, true)

/-- The critical section of `set_led`. -/
def setLed (pattern : Pattern) (priority : ℕ) (s : State) : State × List Event :=
  let selected := s.selectLocked pattern priority
  ({ selected.1 with owed := if selected.2 then s.owed + 1 else s.owed },
    [Event.requested selected.1.generation (decide (pattern = .offForce ∧ selected.1.currentPattern = .offForce ∧
      selected.1.currentPriority = priority))])

/-- `led_thread` compares the snapshot with the generation shown; `applied` is the result of the hardware. -/
def refresh (sn : Snapshot) (applied : Bool) (s : State) : State × List Event :=
  if s.activeGeneration = sn.generation then ({ s with point := .drawing sn }, [])
  else
    let shown := { s with
      activeGeneration := sn.generation
      activeEpoch := sn.epoch
      patternState := 0 }
    if sn.pattern.dark then ({ shown with point := .acking sn applied }, [Event.blackFrame sn.epoch s.epoch applied])
    else ({ shown with point := .drawing sn }, [Event.lit])

/-- The acknowledgement of a black frame. -/
def acknowledge (sn : Snapshot) (applied : Bool) (s : State) : State :=
  if applied = true ∧ sn.generation = s.generation then
    { s with
      offGeneration := sn.generation
      offEpoch := sn.epoch
      point := .drawing sn }
  else { s with point := .drawing sn }

/-- A step of the pattern. -/
def draw (sn : Snapshot) (s : State) : State × List Event :=
  let animation := animate sn.pattern s.patternState
  ({ s with
    patternState := animation.patternState
    point := match animation.finish with
      | some finish => .finishing sn finish
      | none => .draining sn animation.waitMs }, [Event.drawn animation.frame])

/-- `led_finish_oneshot`; a one-shot that is over does not wait. -/
def finishOneshot (sn : Snapshot) (finish : Pattern) (s : State) : State :=
  if sn.generation = s.generation ∧ sn.priority = s.currentPriority then
    let selected := s.selectLocked finish sn.priority
    { selected.1 with point := if selected.2 then .giving sn else .draining sn none }
  else { s with point := .draining sn none }

/-- One step of `led_thread`: `applied` is the result of the hardware, `expired` says that a wait has timed out. -/
def work (applied expired : Bool) (s : State) : Option (State × List Event) :=
  match s.point with
  | .top => some ({ s with point := .snapped s.now }, [])
  | .snapped sn => some (s.refresh sn applied)
  | .acking sn applied => some (s.acknowledge sn applied, [])
  | .drawing sn => some (s.draw sn)
  | .finishing sn finish => some (s.finishOneshot sn finish, [])
  | .giving sn => some ({ s with semaphore := true, point := .draining sn none }, [])
  | .draining sn waitMs => some ({ s with semaphore := false, point := .checking sn waitMs }, [])
  | .checking sn waitMs =>
    some ({ s with point := if sn.generation = s.generation then .waiting sn waitMs else .top }, [])
  | .waiting _ waitMs =>
    if s.semaphore then some ({ s with semaphore := false, point := .top }, [])
    else if waitMs.isSome && expired then some ({ s with point := .top }, [])
    else none

end State

/-! ## The system -/

/-- A step. -/
inductive Input
  /-- The critical section of `set_led`. -/
  | setLed (pattern : Pattern) (priority : ℕ)
  /-- A caller gives the semaphore. -/
  | give
  /-- A caller that waits for the black frame of `generation` looks. -/
  | poll (generation : BitVec 32)
  /-- The thread. -/
  | work (applied expired : Bool)
  deriving DecidableEq

def State.step (s : State) : Input → Option (State × List Event)
  | .setLed pattern priority => if priority < depth then some (s.setLed pattern priority) else none
  | .give => if s.owed = 0 then none else some ({ s with owed := s.owed - 1, semaphore := true }, [])
  | .poll generation =>
    some (s, [Event.polled (decide (s.offGeneration = generation)) (decide (s.generation ≠ generation))])
  | .work applied expired => s.work applied expired

/-- Any interleaving of requests with the thread. -/
def ledSystem : EventSystem State Input Event := ⟨.init, State.step⟩

end Led

end SlimeReceiver
