import Mathlib.Data.List.Basic
import Mathlib.Tactic.Common
import SlimeReceiver.Library.EventSystem

/-! # The button

`button_pressed` and `button_thread` of `system.c`. The interrupt is one step; the thread takes one step for
every access to what they share, and time passes in between. Uptimes are natural numbers, as none of them lies
in the future.

* **`ButtonState`**, **`buttonSystem`** — the variables, and where the thread is.
* **`Presses`** — the presses, told from the edges alone.
* **`ButtonLaw`** — what the actions of the button promise.
* **`CopyCurrent`** — the thread's copy of the start of a press is up to date when it matters.
* **`button_actions`** — the promise is kept as long as it is. -/

namespace SlimeReceiver

namespace Button

/-! ## The code -/

/-- Where `button_thread` is in its loop. -/
inductive Poll
  | asleep
  /-- Before the check of `press_time` at the top. -/
  | checking
  /-- About to copy `press_time`. -/
  | starting
  /-- Before the second look at `press_time`. -/
  | holding
  /-- Before `button_read`. -/
  | looking
  /-- The button is down; before the comparison of the hold time. -/
  | deciding
  /-- Before the check of `last_press_duration`. -/
  | releasing
  /-- Before its copy to `press_duration`. -/
  | taking
  | zeroing (pressDuration : ℕ)
  | acting (pressDuration : ℕ)
  /-- Before the check for a finished sequence. -/
  | sequencing
  | returned
deriving DecidableEq

/-- The static variables, the locals of the thread, the level of the pin and the uptime. -/
structure ButtonState where
  pin : Bool
  uptime : ℕ
  pressTime : ℕ
  lastPressDuration : ℕ
  buttonHeldFromInit : Bool
  poll : Poll
  numPresses : ℕ
  lastPress : ℕ
  pressStartTime : ℕ
  longPress10sHandled : Bool
  longPress5sTriggered : Bool
  /-- `SYS_STATUS_BUTTON_PRESSED`. -/
  pressedStatus : Bool
deriving DecidableEq

/-- At boot; the button may be down already. -/
def ButtonState.boot (pin buttonHeldFromInit : Bool) : ButtonState where
  pin := pin
  uptime := 0
  pressTime := 0
  lastPressDuration := 0
  buttonHeldFromInit := buttonHeldFromInit
  poll := .asleep
  numPresses := 0
  lastPress := 0
  pressStartTime := 0
  longPress10sHandled := false
  longPress5sTriggered := false
  pressedStatus := false

/-- The visible events. -/
inductive ButtonEvent
  /-- The interrupt found the button down or up. -/
  | edge (pressed : Bool) (time : ℕ)
  /-- The thread begins another turn of its loop. -/
  | polled
  /-- `sys_enter_dfu`. -/
  | dfu (time : ℕ)
  /-- `esb_clear`, for a press of this duration. -/
  | cleared (pressDuration : ℕ)
  /-- A press of this duration counts towards the sequence. -/
  | counted (pressDuration : ℕ)
  /-- A press of this duration ends the sequence. -/
  | dropped (pressDuration : ℕ)
  /-- The sequence of so many presses is acted on. -/
  | completed (numPresses : ℕ)
deriving DecidableEq

/-- `button_pressed`, for the level `button_read` returns. -/
def buttonPressed (pressed : Bool) (s : ButtonState) : ButtonState :=
  let s := if !pressed ∧ s.buttonHeldFromInit then { s with buttonHeldFromInit := false } else s
  if s.pressTime ≠ 0 ∧ pressed then s
  else { s with
    lastPressDuration := if s.pressTime ≠ 0 ∧ !pressed ∧ 50 < s.uptime - s.pressTime then s.uptime - s.pressTime
      else s.lastPressDuration
    pressTime := if pressed then s.uptime else 0 }

/-- What `button_thread` does about a press of a certain duration, with what it reports. -/
def act (pressDuration : ℕ) (s : ButtonState) : ButtonState × ButtonEvent :=
  let handled := { s with
    pressStartTime := 0
    pressedStatus := false
    longPress10sHandled := false
    poll := .sequencing }
  if 5000 ≤ pressDuration ∧ pressDuration < 10000 ∧ !s.longPress5sTriggered then
    ({ handled with
      longPress5sTriggered := true
      numPresses := 0
      lastPress := 0 }, .cleared pressDuration)
  else if pressDuration < 5000 then
    ({ handled with
      numPresses := s.numPresses + 1
      lastPress := s.uptime }, .counted pressDuration)
  else
    ({ handled with
      numPresses := 0
      lastPress := 0 }, .dropped pressDuration)

/-- The next access of `button_thread`. -/
def threadStep (s : ButtonState) : Option (ButtonState × List ButtonEvent) :=
  match s.poll with
  | .asleep => some ({ s with poll := .checking }, [.polled])
  | .checking => some ({ s with
      poll := if s.pressTime ≠ 0 ∧ s.pressStartTime = 0 then .starting else .holding }, [])
  | .starting => some ({ s with
      pressStartTime := s.pressTime
      longPress10sHandled := false
      longPress5sTriggered := false
      pressedStatus := true
      poll := .holding }, [])
  | .holding => some ({ s with poll := if s.pressTime ≠ 0 then .looking else .releasing }, [])
  | .looking => some ({ s with poll := if s.pin then .deciding else .releasing }, [])
  | .deciding =>
    if 10000 ≤ s.uptime - s.pressStartTime ∧ !s.longPress10sHandled then
      some ({ s with
        longPress10sHandled := true
        poll := .returned }, [.dfu s.uptime])
    else some ({ s with poll := .releasing }, [])
  | .releasing => some ({ s with
      poll := if 50 < s.lastPressDuration ∧ s.pressStartTime ≠ 0 then .taking else .sequencing }, [])
  | .taking => some ({ s with poll := .zeroing s.lastPressDuration }, [])
  | .zeroing pressDuration => some ({ s with
      lastPressDuration := 0
      poll := .acting pressDuration }, [])
  | .acting pressDuration => some ((act pressDuration s).1, [(act pressDuration s).2])
  | .sequencing =>
    if s.lastPress ≠ 0 ∧ 1000 < s.uptime - s.lastPress ∧ 0 < s.numPresses then
      some ({ s with
        numPresses := 0
        lastPress := 0
        poll := .asleep }, [.completed s.numPresses])
    else some ({ s with poll := .asleep }, [])
  | .returned => none

/-- The steps. -/
inductive ButtonOp
  | elapse (ms : ℕ)
  /-- The pin changes, or is disturbed, and the interrupt runs. -/
  | edge (pressed : Bool)
  | thread

def buttonStep (s : ButtonState) : ButtonOp → Option (ButtonState × List ButtonEvent)
  | .elapse ms => some ({ s with uptime := s.uptime + ms }, [])
  | .edge pressed => some (buttonPressed pressed { s with pin := pressed }, [.edge pressed s.uptime])
  | .thread => threadStep s

/-- The button as a system. -/
def buttonSystem (pin buttonHeldFromInit : Bool) : EventSystem ButtonState ButtonOp ButtonEvent where
  init := .boot pin buttonHeldFromInit
  step := buttonStep

/-! ## The promise -/

/-- When the button went down, if it is down, and the press-to-release times of the presses before, oldest
first. -/
structure Presses where
  start : Option ℕ
  durations : List ℕ

/-- The presses after one more event. A repeated edge changes nothing about a press. -/
def pressesAfter (p : Presses) : ButtonEvent → Presses
  | .edge true time => { p with start := some (p.start.getD time) }
  | .edge false time => ⟨none, p.durations ++ (p.start.map (time - ·)).toList⟩
  | _ => p

def presses (trace : List ButtonEvent) : Presses := trace.foldl pressesAfter ⟨none, []⟩

/-- The durations the thread has acted on. -/
def handled (trace : List ButtonEvent) : List ℕ :=
  trace.filterMap fun
    | .cleared d | .counted d | .dropped d => some d
    | _ => none

def countedAfter (n : ℕ) : ButtonEvent → ℕ
  | .counted _ => n + 1
  | .cleared _ | .dropped _ | .completed _ => 0
  | _ => n

/-- How many presses the current sequence has counted. -/
def countedPresses (trace : List ButtonEvent) : ℕ := trace.foldl countedAfter 0

def levelStep (level : Bool) : ButtonEvent → Bool
  | .edge pressed _ => pressed
  | _ => level

/-- The level the edges leave the button at. -/
def levelAfter (pin : Bool) (trace : List ButtonEvent) : Bool := trace.foldl levelStep pin

/-- The button was up when some turn of the loop began, and was not pressed again. -/
def PolledUp (pin : Bool) (trace : List ButtonEvent) : Prop :=
  ∃ earlier later, trace = earlier ++ ButtonEvent.polled :: later ∧ levelAfter pin earlier = false ∧
    ∀ time, .edge true time ∉ later

/-- What a single action promises. -/
def Deserved (earlier : List ButtonEvent) : ButtonEvent → Prop
  | .dfu time => ∃ start, (presses earlier).start = some start ∧ start + 10000 ≤ time
  | .cleared d => 5000 ≤ d ∧ d < 10000
  | .counted d => d < 5000
  | .completed n => n = countedPresses earlier
  | _ => True

/-- The promise of the button: DFU only after ten seconds of holding, every press handled at most once and
with its own duration, and an idle thread after a turn of the loop that found the button up. -/
structure ButtonLaw (pin : Bool) (trace : List ButtonEvent) (s : ButtonState) : Prop where
  deserved : EachAfter Deserved trace
  handled : (handled trace).Sublist (presses trace).durations
  idle : s.poll = .asleep → PolledUp pin trace → s.pressStartTime = 0 ∧ s.pressedStatus = false

/-! ## When the thread's copy is current -/

/-- The thread is about to forget the press it copied. -/
def Poll.Digesting : Poll → Prop
  | .zeroing _ | .acting _ => True
  | _ => False

instance : DecidablePred Poll.Digesting := fun
  | .zeroing _ | .acting _ => .isTrue trivial
  | .asleep | .checking | .starting | .holding | .looking | .deciding | .releasing | .taking | .sequencing
  | .returned => .isFalse id

/-- A step that leaves the thread's copy of a press current where it matters: when the comparison with ten
seconds succeeds the copy is the start of the press that is on; a press is not released while the thread is
about to copy it, and not within the 50 ms of the debouncing once it is copied and no longer duration waits
for the thread; and the interrupt repeats no press that it did not record. -/
def CopyCurrent (s : ButtonState) : ButtonOp → Prop
  | .elapse _ => True
  | .edge true => s.pin = true → s.pressTime ≠ 0
  | .edge false => s.poll ≠ .starting ∧ (s.pressTime = 0 ∨ 50 < s.uptime - s.pressTime ∨ s.pressStartTime = 0 ∨
    50 < s.lastPressDuration ∨ s.poll.Digesting)
  | .thread => s.poll = .deciding → 10000 ≤ s.uptime - s.pressStartTime →
    s.pressTime ≠ 0 ∧ s.pressStartTime = s.pressTime

instance (s : ButtonState) (op : ButtonOp) : Decidable (CopyCurrent s op) :=
  match op with
  | .elapse _ => .isTrue trivial
  | .edge true => inferInstanceAs (Decidable (_ → _))
  | .edge false => inferInstanceAs (Decidable (_ ∧ _))
  | .thread => inferInstanceAs (Decidable (_ → _ → _ ∧ _))

/-! ## The invariant -/

/-- The duration the thread has taken. -/
def Poll.taken : Poll → List ℕ
  | .zeroing d | .acting d => [d]
  | _ => []

/-- Whatever duration is recorded is about to be zeroed. -/
def Poll.zeroes : Poll → Bool
  | .zeroing _ => true
  | _ => false

/-- The durations the thread may still act on. -/
def ButtonState.pending (s : ButtonState) : List ℕ :=
  s.poll.taken ++ if s.poll.zeroes || s.lastPressDuration == 0 then [] else [s.lastPressDuration]

/-- What holds after every step. -/
structure ButtonInvariant (pin : Bool) (trace : List ButtonEvent) (s : ButtonState) : Prop where
  deserved : EachAfter Deserved trace
  handled : (handled trace ++ s.pending).Sublist (presses trace).durations
  start : s.pressTime ≠ 0 → (presses trace).start = some s.pressTime
  up : s.pin = false → (presses trace).start = none
  recorded : s.pin = false → s.pressTime = 0
  level : levelAfter pin trace = s.pin
  counted : s.numPresses = countedPresses trace
  status : s.pressedStatus = true ↔ s.pressStartTime ≠ 0
  starting : s.poll = .starting → s.pressTime ≠ 0
  taking : s.poll = .taking → 50 < s.lastPressDuration
  copy : s.pressStartTime ≠ 0 → s.pressTime = s.pressStartTime ∨ 50 < s.lastPressDuration ∨ s.poll.Digesting
  polled : PolledUp pin trace → s.pin = false ∧ (s.poll = .sequencing ∨ s.poll = .asleep → s.pressStartTime = 0)

section Histories

variable (pin : Bool) (trace : List ButtonEvent) (e : ButtonEvent)

@[simp] theorem presses_concat : presses (trace ++ [e]) = pressesAfter (presses trace) e := by
  rw [presses, List.foldl_concat]
  rfl

@[simp] theorem countedPresses_concat : countedPresses (trace ++ [e]) = countedAfter (countedPresses trace) e := by
  rw [countedPresses, List.foldl_concat]
  rfl

@[simp] theorem levelAfter_concat : levelAfter pin (trace ++ [e]) = levelStep (levelAfter pin trace) e := by
  rw [levelAfter, List.foldl_concat]
  rfl

/-- A turn found the button up before the last event, or begins with it. -/
theorem polledUp_concat : PolledUp pin (trace ++ [e]) ↔
    (e = .polled ∧ levelAfter pin trace = false) ∨ (PolledUp pin trace ∧ ∀ time, e ≠ .edge true time) := by
  constructor
  · rintro ⟨earlier, later, heq, hup, hlater⟩
    rcases List.eq_nil_or_concat later with rfl | ⟨later', e', rfl⟩
    · obtain ⟨rfl, hlast⟩ := List.append_inj' heq rfl
      exact .inl ⟨by simpa using hlast, hup⟩
    · rw [List.concat_eq_append, ← List.cons_append, ← List.append_assoc] at heq
      obtain ⟨rfl, hlast⟩ := List.append_inj' heq rfl
      obtain rfl : e = e' := by simpa using hlast
      refine .inr ⟨⟨earlier, later', rfl, hup, fun time hmem => hlater time ?_⟩, fun time he => hlater time ?_⟩
      · rw [List.concat_eq_append]
        exact List.mem_append_left _ hmem
      · rw [List.concat_eq_append, he]
        exact List.mem_append_right _ List.mem_cons_self
  · rintro (⟨rfl, hup⟩ | ⟨⟨earlier, later, rfl, hup, hlater⟩, he⟩)
    · exact ⟨trace, [], rfl, hup, by simp⟩
    · refine ⟨earlier, later ++ [e], by rw [List.append_assoc, List.cons_append], hup, fun time hmem => ?_⟩
      rcases List.mem_append.mp hmem with hmem | hmem
      · exact hlater time hmem
      · exact he time (List.mem_singleton.mp hmem).symm

end Histories

variable {pin : Bool} {trace : List ButtonEvent} {s : ButtonState}

theorem buttonInvariant_boot (pin buttonHeldFromInit : Bool) :
    ButtonInvariant pin [] (.boot pin buttonHeldFromInit) where
  deserved := eachAfter_nil
  handled := .slnil
  start := fun h => absurd rfl h
  up := fun _ => rfl
  recorded := fun _ => rfl
  level := rfl
  counted := rfl
  status := by simp [ButtonState.boot]
  starting := by simp [ButtonState.boot]
  taking := by simp [ButtonState.boot]
  copy := fun h => absurd rfl h
  polled := by
    rintro ⟨earlier, later, heq, -⟩
    simp at heq

namespace ButtonInvariant

theorem buttonPressed_true (s : ButtonState) :
    buttonPressed true s = if s.pressTime ≠ 0 then s else { s with pressTime := s.uptime } := by
  by_cases hpressed : s.pressTime = 0 <;> simp [buttonPressed, hpressed]

theorem buttonPressed_false (s : ButtonState) : buttonPressed false s = { s with
    buttonHeldFromInit := false
    lastPressDuration := if s.pressTime ≠ 0 ∧ 50 < s.uptime - s.pressTime then s.uptime - s.pressTime
      else s.lastPressDuration
    pressTime := 0 } := by
  cases hheld : s.buttonHeldFromInit <;> simp [buttonPressed, hheld]

/-- A press edge. -/
theorem press (hi : ButtonInvariant pin trace s) (hrecorded : s.pin = true → s.pressTime ≠ 0) :
    ButtonInvariant pin (trace ++ [ButtonEvent.edge true s.uptime]) (buttonPressed true { s with pin := true }) := by
  have hdeserved : EachAfter Deserved (trace ++ [ButtonEvent.edge true s.uptime]) :=
    eachAfter_snoc.mpr ⟨hi.deserved, trivial⟩
  have hhandled : Button.handled (trace ++ [ButtonEvent.edge true s.uptime]) = Button.handled trace := by
    simp [Button.handled]
  have hpolled : ¬PolledUp pin (trace ++ [ButtonEvent.edge true s.uptime]) := by
    rw [polledUp_concat]
    rintro (⟨heq, -⟩ | ⟨-, hne⟩)
    · cases heq
    · exact hne _ rfl
  rw [buttonPressed_true]
  by_cases hpressed : s.pressTime = 0
  · have hup : s.pin = false := by
      cases hpin : s.pin with
      | false => rfl
      | true => exact absurd hpressed (hrecorded hpin)
    rw [if_neg (not_not.mpr hpressed)]
    exact {
      deserved := hdeserved
      handled := by
        rw [hhandled, presses_concat]
        exact hi.handled
      start := fun _ => by rw [presses_concat, pressesAfter, hi.up hup]; rfl
      up := nofun
      recorded := nofun
      level := by rw [levelAfter_concat]; rfl
      counted := by rw [countedPresses_concat]; exact hi.counted
      status := hi.status
      starting := fun hstarting => absurd hpressed (hi.starting hstarting)
      taking := hi.taking
      copy := fun hcopied => .inr ((hi.copy hcopied).resolve_left fun heq => hcopied (heq ▸ hpressed))
      polled := fun h => absurd h hpolled }
  · rw [if_pos hpressed]
    exact {
      deserved := hdeserved
      handled := by
        rw [hhandled, presses_concat]
        exact hi.handled
      start := fun _ => by rw [presses_concat, pressesAfter, hi.start hpressed]; rfl
      up := nofun
      recorded := nofun
      level := by rw [levelAfter_concat]; rfl
      counted := by rw [countedPresses_concat]; exact hi.counted
      status := hi.status
      starting := hi.starting
      taking := hi.taking
      copy := hi.copy
      polled := fun h => absurd h hpolled }

/-- What the thread has taken is among the durations of the presses. -/
theorem taken (hi : ButtonInvariant pin trace s) :
    (Button.handled trace ++ s.poll.taken).Sublist (presses trace).durations := by
  have hhandled := hi.handled
  rw [ButtonState.pending, ← List.append_assoc] at hhandled
  exact (List.sublist_append_left _ _).trans hhandled

/-- A release edge. -/
theorem release (hi : ButtonInvariant pin trace s) (hcopying : s.poll ≠ .starting)
    (hseen : s.pressTime = 0 ∨ 50 < s.uptime - s.pressTime ∨ s.pressStartTime = 0 ∨ 50 < s.lastPressDuration ∨
      s.poll.Digesting) :
    ButtonInvariant pin (trace ++ [ButtonEvent.edge false s.uptime]) (buttonPressed false { s with pin := false }) := by
  rw [buttonPressed_false]
  have hkept : 50 < s.lastPressDuration →
      50 < if s.pressTime ≠ 0 ∧ 50 < s.uptime - s.pressTime then s.uptime - s.pressTime
        else s.lastPressDuration := by
    intro hlast
    split
    case isTrue hlong => exact hlong.2
    case isFalse => exact hlast
  exact {
    deserved := eachAfter_snoc.mpr ⟨hi.deserved, trivial⟩
    handled := by
      have hsame : Button.handled (trace ++ [ButtonEvent.edge false s.uptime]) = Button.handled trace := by
        simp [Button.handled]
      rw [hsame, presses_concat, pressesAfter]
      by_cases hlong : s.pressTime ≠ 0 ∧ 50 < s.uptime - s.pressTime
      · rw [hi.start hlong.1]
        have hunread : ∀ b : Bool, (if b then ([] : List ℕ) else [s.uptime - s.pressTime]).Sublist
            [s.uptime - s.pressTime] := fun b => by cases b <;> simp
        have happend := hi.taken.append (hunread (s.poll.zeroes || s.uptime - s.pressTime == 0))
        rw [List.append_assoc] at happend
        simp only [ButtonState.pending, if_pos hlong]
        exact happend
      · simp only [ButtonState.pending, if_neg hlong]
        exact hi.handled.trans (List.sublist_append_left _ _)
    start := fun h => absurd rfl h
    up := fun _ => by rw [presses_concat]; rfl
    recorded := fun _ => rfl
    level := by rw [levelAfter_concat]; rfl
    counted := by rw [countedPresses_concat]; exact hi.counted
    status := hi.status
    starting := fun h => absurd h hcopying
    taking := fun h => hkept (hi.taking h)
    copy := by
      intro hcopied
      rcases hi.copy hcopied with heq | hlast | hdigesting
      · have hrecorded : s.pressTime ≠ 0 := fun h => hcopied (heq ▸ h)
        rcases hseen with hnone | hlong | hnone | hlast | hdigesting
        · exact absurd hnone hrecorded
        · refine .inr (.inl ?_)
          simp only [if_pos (And.intro hrecorded hlong)]
          exact hlong
        · exact absurd hnone hcopied
        · exact .inr (.inl (hkept hlast))
        · exact .inr (.inr hdigesting)
      · exact .inr (.inl (hkept hlast))
      · exact .inr (.inr hdigesting)
    polled := by
      rw [polledUp_concat]
      rintro (⟨heq, -⟩ | ⟨hpolled, -⟩)
      · cases heq
      · exact ⟨rfl, (hi.polled hpolled).2⟩ }

/-- Time passes. -/
theorem elapse (hi : ButtonInvariant pin trace s) (ms : ℕ) :
    ButtonInvariant pin trace { s with uptime := s.uptime + ms } where
  __ := hi

/-- The thread has no press in hand. -/
theorem notDigesting {poll : Poll} (h : poll.taken = []) : poll.zeroes = false ∧ ¬poll.Digesting := by
  cases poll <;> first | exact ⟨rfl, id⟩ | cases h

/-- The thread moves on without an effect. -/
theorem move {poll : Poll} (hi : ButtonInvariant pin trace s) (hold : s.poll.taken = []) (hnew : poll.taken = [])
    (hstarting : poll = .starting → s.pressTime ≠ 0) (htaking : poll = .taking → 50 < s.lastPressDuration)
    (hidle : poll = .sequencing ∨ poll = .asleep → PolledUp pin trace → s.pressStartTime = 0) :
    ButtonInvariant pin trace { s with poll := poll } where
  __ := hi
  handled := by
    have hhandled := hi.handled
    rw [ButtonState.pending, hold, (notDigesting hold).1] at hhandled
    simpa only [ButtonState.pending, hnew, (notDigesting hnew).1] using hhandled
  starting := hstarting
  taking := htaking
  copy := fun hcopied => (hi.copy hcopied).imp_right fun h => .inl (h.resolve_right (notDigesting hold).2)
  polled := fun hpolled => ⟨(hi.polled hpolled).1, fun h => hidle h hpolled⟩

/-- The thread begins another turn of its loop. -/
theorem wake (hi : ButtonInvariant pin trace s) (hpoll : s.poll = .asleep) :
    ButtonInvariant pin (trace ++ [ButtonEvent.polled]) { s with poll := .checking } := by
  have hmoved : ButtonInvariant pin trace { s with poll := .checking } :=
    hi.move (by rw [hpoll]; rfl) rfl nofun nofun (by simp)
  exact { hmoved with
    deserved := eachAfter_snoc.mpr ⟨hi.deserved, trivial⟩
    handled := by
      have hsame : Button.handled (trace ++ [ButtonEvent.polled]) = Button.handled trace := by simp [Button.handled]
      rw [hsame, presses_concat]
      exact hmoved.handled
    start := fun h => by rw [presses_concat]; exact hi.start h
    up := fun h => by rw [presses_concat]; exact hi.up h
    level := by rw [levelAfter_concat]; exact hi.level
    counted := by rw [countedPresses_concat]; exact hi.counted
    polled := by
      rw [polledUp_concat]
      rintro (⟨-, hup⟩ | ⟨hpolled, -⟩)
      · exact ⟨hi.level ▸ hup, by simp⟩
      · exact ⟨(hi.polled hpolled).1, by simp⟩ }

/-- The thread copies the start of a press. -/
theorem begin (hi : ButtonInvariant pin trace s) (hpoll : s.poll = .starting) :
    ButtonInvariant pin trace { s with
      pressStartTime := s.pressTime
      longPress10sHandled := false
      longPress5sTriggered := false
      pressedStatus := true
      poll := .holding } := by
  have hpressed := hi.starting hpoll
  have hmoved : ButtonInvariant pin trace { s with poll := .holding } :=
    hi.move (by rw [hpoll]; rfl) rfl nofun nofun (by simp)
  exact { hmoved with
    status := ⟨fun _ => hpressed, fun _ => rfl⟩
    copy := fun _ => .inl rfl
    polled := fun hpolled => ⟨(hi.polled hpolled).1, by simp⟩ }

/-- The thread takes a duration. -/
theorem take (hi : ButtonInvariant pin trace s) (hpoll : s.poll = .taking) :
    ButtonInvariant pin trace { s with poll := .zeroing s.lastPressDuration } where
  __ := hi
  handled := by
    have hlast := hi.taking hpoll
    have hhandled := hi.handled
    have hne : (s.lastPressDuration == 0) = false := by
      rw [beq_eq_false_iff_ne]
      omega
    rw [ButtonState.pending, hpoll, hne] at hhandled
    exact hhandled
  starting := nofun
  taking := nofun
  copy := fun _ => .inr (.inr trivial)
  polled := fun hpolled => ⟨(hi.polled hpolled).1, by simp⟩

/-- The thread zeroes the variable. -/
theorem zero {d : ℕ} (hi : ButtonInvariant pin trace s) (hpoll : s.poll = .zeroing d) :
    ButtonInvariant pin trace { s with
      lastPressDuration := 0
      poll := .acting d } where
  __ := hi
  handled := by
    have hhandled := hi.handled
    rw [ButtonState.pending, hpoll] at hhandled
    exact hhandled
  starting := nofun
  taking := nofun
  copy := fun _ => .inr (.inr trivial)
  polled := fun hpolled => ⟨(hi.polled hpolled).1, by simp⟩

/-- The thread has acted on a duration in one of the three ways. -/
theorem acted {d n last : ℕ} {triggered : Bool} {e : ButtonEvent} (hi : ButtonInvariant pin trace s)
    (hpoll : s.poll = .acting d) (he : e = .cleared d ∨ e = .counted d ∨ e = .dropped d)
    (hdeserved : Deserved trace e) (hn : n = countedAfter s.numPresses e) :
    ButtonInvariant pin (trace ++ [e]) { s with
      pressStartTime := 0
      pressedStatus := false
      longPress10sHandled := false
      poll := .sequencing
      longPress5sTriggered := triggered
      numPresses := n
      lastPress := last } := by
  have hsame : pressesAfter (presses trace) e = presses trace := by rcases he with rfl | rfl | rfl <;> rfl
  have hlevel : levelStep (levelAfter pin trace) e = levelAfter pin trace := by
    rcases he with rfl | rfl | rfl <;> rfl
  have hhandled : Button.handled (trace ++ [e]) = Button.handled trace ++ [d] := by
    rcases he with rfl | rfl | rfl <;> simp [Button.handled]
  exact {
    deserved := eachAfter_snoc.mpr ⟨hi.deserved, hdeserved⟩
    handled := by
      have hold := hi.handled
      rw [ButtonState.pending, hpoll] at hold
      rw [hhandled, presses_concat, hsame, List.append_assoc]
      exact hold
    start := fun h => by rw [presses_concat, hsame]; exact hi.start h
    up := fun h => by rw [presses_concat, hsame]; exact hi.up h
    recorded := hi.recorded
    level := by rw [levelAfter_concat, hlevel]; exact hi.level
    counted := by rw [countedPresses_concat, ← hi.counted]; exact hn
    status := by simp
    starting := nofun
    taking := nofun
    copy := fun h => absurd rfl h
    polled := by
      rw [polledUp_concat]
      rintro (⟨rfl, -⟩ | ⟨hpolled, -⟩)
      · simp at he
      · exact ⟨(hi.polled hpolled).1, fun _ => rfl⟩ }

/-- The thread acts on a duration. -/
theorem act {d : ℕ} (hi : ButtonInvariant pin trace s) (hpoll : s.poll = .acting d) :
    ButtonInvariant pin (trace ++ [(Button.act d s).2]) (Button.act d s).1 := by
  rw [Button.act]
  split
  case isTrue hlong => exact hi.acted hpoll (.inl rfl) ⟨hlong.1, hlong.2.1⟩ rfl
  case isFalse =>
    split
    case isTrue hshort => exact hi.acted hpoll (.inr (.inl rfl)) hshort rfl
    case isFalse => exact hi.acted hpoll (.inr (.inr rfl)) trivial rfl

/-- An event of the thread that is no press, no turn and no handled duration. -/
theorem report {e : ButtonEvent} {n last : ℕ} {reported : Bool} {poll : Poll} (hi : ButtonInvariant pin trace s)
    (he : (∃ time, e = .dfu time) ∨ ∃ m, e = .completed m) (hdeserved : Deserved trace e)
    (hn : n = countedAfter s.numPresses e) (hold : s.poll.taken = []) (hnew : poll = .returned ∨ poll = .asleep)
    (hidle : poll = .asleep → PolledUp pin trace → s.pressStartTime = 0) :
    ButtonInvariant pin (trace ++ [e]) { s with
      numPresses := n
      lastPress := last
      longPress10sHandled := reported
      poll := poll } := by
  have hmoved : ButtonInvariant pin trace { s with poll := poll } := by
    refine hi.move hold ?_ ?_ ?_ ?_
    · rcases hnew with rfl | rfl <;> rfl
    · rcases hnew with rfl | rfl <;> nofun
    · rcases hnew with rfl | rfl <;> nofun
    · rintro (rfl | rfl)
      · simp at hnew
      · exact hidle rfl
  have hsame : pressesAfter (presses trace) e = presses trace := by rcases he with ⟨_, rfl⟩ | ⟨_, rfl⟩ <;> rfl
  have hlevel : levelStep (levelAfter pin trace) e = levelAfter pin trace := by
    rcases he with ⟨_, rfl⟩ | ⟨_, rfl⟩ <;> rfl
  have hhandled : Button.handled (trace ++ [e]) = Button.handled trace := by
    rcases he with ⟨_, rfl⟩ | ⟨_, rfl⟩ <;> simp [Button.handled]
  exact { hmoved with
    deserved := eachAfter_snoc.mpr ⟨hi.deserved, hdeserved⟩
    handled := by rw [hhandled, presses_concat, hsame]; exact hmoved.handled
    start := fun h => by rw [presses_concat, hsame]; exact hi.start h
    up := fun h => by rw [presses_concat, hsame]; exact hi.up h
    level := by rw [levelAfter_concat, hlevel]; exact hi.level
    counted := by rw [countedPresses_concat, ← hi.counted]; exact hn
    polled := by
      rw [polledUp_concat]
      rintro (⟨rfl, -⟩ | ⟨hpolled, -⟩)
      · simp at he
      · exact hmoved.polled hpolled }

/-- Every step of the thread. -/
theorem thread {s' : ButtonState} {es : List ButtonEvent} (hi : ButtonInvariant pin trace s)
    (hcurrent : CopyCurrent s .thread) (htaken : threadStep s = some (s', es)) :
    ButtonInvariant pin (trace ++ es) s' := by
  rw [threadStep] at htaken
  cases hpoll : s.poll with
  | asleep =>
    simp only [hpoll] at htaken
    obtain ⟨rfl, rfl⟩ := Prod.mk.inj (Option.some.inj htaken)
    exact hi.wake hpoll
  | checking =>
    simp only [hpoll] at htaken
    obtain ⟨rfl, rfl⟩ := Prod.mk.inj (Option.some.inj htaken)
    rw [List.append_nil]
    split
    case isTrue hpressed => exact hi.move (by rw [hpoll]; rfl) rfl (fun _ => hpressed.1) nofun (by simp)
    case isFalse => exact hi.move (by rw [hpoll]; rfl) rfl nofun nofun (by simp)
  | starting =>
    simp only [hpoll] at htaken
    obtain ⟨rfl, rfl⟩ := Prod.mk.inj (Option.some.inj htaken)
    rw [List.append_nil]
    exact hi.begin hpoll
  | holding =>
    simp only [hpoll] at htaken
    obtain ⟨rfl, rfl⟩ := Prod.mk.inj (Option.some.inj htaken)
    rw [List.append_nil]
    split <;> exact hi.move (by rw [hpoll]; rfl) rfl nofun nofun (by simp)
  | looking =>
    simp only [hpoll] at htaken
    obtain ⟨rfl, rfl⟩ := Prod.mk.inj (Option.some.inj htaken)
    rw [List.append_nil]
    split <;> exact hi.move (by rw [hpoll]; rfl) rfl nofun nofun (by simp)
  | deciding =>
    simp only [hpoll] at htaken
    split at htaken
    case isTrue hheld =>
      obtain ⟨rfl, rfl⟩ := Prod.mk.inj (Option.some.inj htaken)
      obtain ⟨hpressed, hcopy⟩ := hcurrent hpoll hheld.1
      refine hi.report (.inl ⟨_, rfl⟩) ⟨s.pressTime, hi.start hpressed, ?_⟩ rfl (by rw [hpoll]; rfl) (.inl rfl) nofun
      have hlong := hheld.1
      omega
    case isFalse =>
      obtain ⟨rfl, rfl⟩ := Prod.mk.inj (Option.some.inj htaken)
      rw [List.append_nil]
      exact hi.move (by rw [hpoll]; rfl) rfl nofun nofun (by simp)
  | releasing =>
    simp only [hpoll] at htaken
    obtain ⟨rfl, rfl⟩ := Prod.mk.inj (Option.some.inj htaken)
    rw [List.append_nil]
    split
    case isTrue hlong => exact hi.move (by rw [hpoll]; rfl) rfl nofun (fun _ => hlong.1) (by simp)
    case isFalse hnone =>
      refine hi.move (by rw [hpoll]; rfl) rfl nofun nofun fun _ hpolled => ?_
      -- a copied press that was released has left its duration
      by_contra hcopied
      rcases hi.copy hcopied with heq | hlast | hdigesting
      · exact hcopied (heq ▸ hi.recorded (hi.polled hpolled).1)
      · exact hnone ⟨hlast, hcopied⟩
      · rw [hpoll] at hdigesting
        exact hdigesting
  | taking =>
    simp only [hpoll] at htaken
    obtain ⟨rfl, rfl⟩ := Prod.mk.inj (Option.some.inj htaken)
    rw [List.append_nil]
    exact hi.take hpoll
  | zeroing d =>
    simp only [hpoll] at htaken
    obtain ⟨rfl, rfl⟩ := Prod.mk.inj (Option.some.inj htaken)
    rw [List.append_nil]
    exact hi.zero hpoll
  | acting d =>
    simp only [hpoll] at htaken
    obtain ⟨rfl, rfl⟩ := Prod.mk.inj (Option.some.inj htaken)
    exact hi.act hpoll
  | sequencing =>
    simp only [hpoll] at htaken
    have hidle : PolledUp pin trace → s.pressStartTime = 0 := fun hpolled => (hi.polled hpolled).2 (.inl hpoll)
    split at htaken
    case isTrue =>
      obtain ⟨rfl, rfl⟩ := Prod.mk.inj (Option.some.inj htaken)
      exact hi.report (.inr ⟨_, rfl⟩) hi.counted rfl (by rw [hpoll]; rfl) (.inr rfl) fun _ => hidle
    case isFalse =>
      obtain ⟨rfl, rfl⟩ := Prod.mk.inj (Option.some.inj htaken)
      rw [List.append_nil]
      exact hi.move (by rw [hpoll]; rfl) rfl nofun nofun fun _ => hidle
  | returned =>
    simp only [hpoll] at htaken
    cases htaken

end ButtonInvariant

/-! ## The law -/

/-- Every step that leaves the thread's copy current keeps the invariant. -/
theorem buttonInvariant_step {op : ButtonOp} {s' : ButtonState} {es : List ButtonEvent}
    (hi : ButtonInvariant pin trace s) (hcurrent : CopyCurrent s op) (htaken : buttonStep s op = some (s', es)) :
    ButtonInvariant pin (trace ++ es) s' := by
  cases op with
  | elapse ms =>
    obtain ⟨rfl, rfl⟩ := Prod.mk.inj (Option.some.inj htaken)
    rw [List.append_nil]
    exact hi.elapse ms
  | edge pressed =>
    obtain ⟨rfl, rfl⟩ := Prod.mk.inj (Option.some.inj htaken)
    cases pressed with
    | true => exact hi.press hcurrent
    | false => exact hi.release hcurrent.1 hcurrent.2
  | thread => exact hi.thread hcurrent htaken

/-- **The actions of the button.** In every run in which the thread's copy of the start of a press is current
where it matters, `sys_enter_dfu` comes only after ten seconds without a release, every press is handled at
most once and with its own duration, and a turn of the loop that finds the button up ends with the thread
idle. -/
theorem button_actions (pin buttonHeldFromInit : Bool) (trace : List ButtonEvent) (s : ButtonState)
    (h : (buttonSystem pin buttonHeldFromInit).RunWhere CopyCurrent trace s) : ButtonLaw pin trace s := by
  have hi : ButtonInvariant pin trace s :=
    h.history_invariant (buttonInvariant_boot pin buttonHeldFromInit)
      fun trace s op s' es hi hcurrent htaken => buttonInvariant_step hi hcurrent htaken
  exact {
    deserved := hi.deserved
    handled := (List.sublist_append_left _ _).trans hi.handled
    idle := by
      intro hasleep hpolled
      have hstart := (hi.polled hpolled).2 (.inr hasleep)
      refine ⟨hstart, ?_⟩
      rw [← Bool.not_eq_true, hi.status, hstart]
      exact not_not.mpr rfl }

/-- So many steps of the thread. -/
def threadSteps (n : ℕ) : List ButtonOp := List.replicate n ButtonOp.thread

/-- A press of six seconds, released before the next turn of the loop. -/
def sixSeconds : List ButtonOp :=
  [ButtonOp.elapse 100, .edge true] ++ threadSteps 8 ++ [ButtonOp.elapse 6000, .edge false] ++ threadSteps 9

theorem button_actions_six_seconds : ∃ trace s, (buttonSystem false false).RunWhere CopyCurrent trace s ∧
    ButtonLaw false trace s ∧ .cleared 6000 ∈ trace := by
  obtain ⟨trace, s, hrun, htest⟩ :=
    ((buttonSystem false false).restrict fun s op => decide (CopyCurrent s op)).exists_run_of_replay sixSeconds
      (fun trace _ => decide (.cleared 6000 ∈ trace)) (by decide +kernel)
  have hwhere : (buttonSystem false false).RunWhere CopyCurrent trace s :=
    EventSystem.runWhere_of_restrict (fun s op hallowed => of_decide_eq_true hallowed) hrun
  exact ⟨trace, s, hwhere, button_actions false false trace s hwhere, of_decide_eq_true htest⟩

/-- A bounce of 30 ms that the thread sees, and a press twenty seconds later. -/
def bounceThenPress : List ButtonOp :=
  [ButtonOp.elapse 100, .edge true] ++ threadSteps 3 ++ [ButtonOp.elapse 30, .edge false] ++ threadSteps 3 ++
    [ButtonOp.elapse 20000, .edge true, .elapse 10] ++ threadSteps 5

/-- The press enters DFU at once: its start is taken to be that of the bounce. -/
theorem button_actions_bounce : ∃ trace s, (buttonSystem false false).Run trace s ∧ ¬ButtonLaw false trace s := by
  obtain ⟨trace, s, hrun, htest⟩ := (buttonSystem false false).exists_run_of_replay bounceThenPress
    (fun trace _ => decide (trace = [.edge true 100, .polled, .edge false 130, .edge true 20130, .polled,
      .dfu 20140])) (by decide +kernel)
  rw [of_decide_eq_true htest] at hrun
  refine ⟨_, s, hrun, fun hlaw => ?_⟩
  have hdfu : Deserved [.edge true 100, .polled, .edge false 130, .edge true 20130, .polled] (.dfu 20140) :=
    hlaw.deserved _ _ [] rfl
  obtain ⟨start, hstart, hheld⟩ := hdfu
  obtain rfl : 20130 = start := Option.some.inj hstart
  omega

end Button

end SlimeReceiver
