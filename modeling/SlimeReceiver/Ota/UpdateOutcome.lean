import Mathlib.Data.List.TakeWhile
import SlimeReceiver.Ota.UpdateProcedure

/-! # What comes out of an update

Every turn uses up some of what is left of the timeouts, so `do_update` comes to an end; what it knows of its
trackers decides how. It raises when the last tracker fails during gap-fill, where `min` is asked for the minimum
of nothing.

* **`Procedure.turnsLeft`** — an upper bound for the turns to come.
* **`Targets`**, **`Transferring`**, **`Knows`** — what is known at each point.
* **`Reported`** — the update reports a result; **`Admitted`** — the turns after which it does. -/

namespace SlimeReceiver.Ota

open Function (update)

/-! ## What a phase leaves as it is -/

/-- What is read does not change how long it is waited. -/
theorem StatusWait.notes_deadline (expected : List (BitVec 8)) (statuses : List StatusReport) (w : StatusWait) :
    (statuses.foldl (StatusWait.note expected) w).deadline = w.deadline := by
  induction statuses generalizing w with
  | nil => rfl
  | cons status rest ih =>
    rw [List.foldl_cons, ih, StatusWait.note]
    split <;> rfl

namespace Procedure

variable {u : UpdateArgs} {p : Procedure} {t : Turn}

@[simp] theorem pass_point (time : ℕ) (p : Procedure) : (p.pass time).point = p.point := rfl

@[simp] theorem pass_now (time : ℕ) (p : Procedure) : (p.pass time).now = p.now + time := rfl

@[simp] theorem pass_activeIds (time : ℕ) (p : Procedure) : (p.pass time).activeIds = p.activeIds := rfl

@[simp] theorem pass_startTime (time : ℕ) (p : Procedure) : (p.pass time).startTime = p.startTime := rfl

@[simp] theorem pass_overallTimeout (time : ℕ) (p : Procedure) :
    (p.pass time).overallTimeout = p.overallTimeout := rfl

@[simp] theorem pass_nextSeqToSend (time : ℕ) (p : Procedure) :
    (p.pass time).nextSeqToSend = p.nextSeqToSend := rfl

@[simp] theorem pass_attempt (time : ℕ) (p : Procedure) : (p.pass time).attempt = p.attempt := rfl

@[simp] theorem raise_point (error : UpdateError) (p : Procedure) : (p.raise error).point = .raised error := rfl

/-- The variables of the loops that the reports do not touch. -/
structure SameClock (p q : Procedure) : Prop where
  now : q.now = p.now
  startTime : q.startTime = p.startTime
  overallTimeout : q.overallTimeout = p.overallTimeout
  attempt : q.attempt = p.attempt

theorem SameClock.refl (p : Procedure) : SameClock p p := ⟨rfl, rfl, rfl, rfl⟩

/-- A burst moves the cursor only. -/
theorem sendBurst_clock (left : ℕ) (p : Procedure) : SameClock p (p.sendBurst u left).1 := by
  induction left generalizing p with
  | zero => exact .refl p
  | succ left ih =>
    rw [sendBurst]
    split
    case isTrue => exact .refl p
    case isFalse =>
      split
      case isTrue =>
        obtain ⟨hnow, hstart, hoverall, hattempt⟩ := ih { p with nextSeqToSend := p.nextSeqToSend + 1 }
        exact ⟨hnow, hstart, hoverall, hattempt⟩
      case isFalse => exact ⟨rfl, rfl, rfl, rfl⟩

theorem noteStreaming_clock (statuses : List StatusReport) (p : Procedure) :
    SameClock p (p.noteStreaming statuses) := by
  induction statuses generalizing p with
  | nil => exact .refl p
  | cons status rest ih =>
    rw [noteStreaming]
    split
    case isTrue =>
      split
      case isTrue =>
        split
        case isTrue => exact ⟨rfl, rfl, rfl, rfl⟩
        case isFalse =>
          obtain ⟨hnow, hstart, hoverall, hattempt⟩ :=
            ih { p with activeIds := p.activeIds.erase status.trackerId }
          exact ⟨hnow, hstart, hoverall, hattempt⟩
      case isFalse =>
        obtain ⟨hnow, hstart, hoverall, hattempt⟩ := ih { p with
          trackerNextSeq := update p.trackerNextSeq status.trackerId status.nextSeq
          warmup := false }
        exact ⟨hnow, hstart, hoverall, hattempt⟩
    case isFalse => exact ih p

/-- The streaming phase is left in the middle of its reports only with a result. -/
theorem noteStreaming_point (statuses : List StatusReport) (p : Procedure) :
    (p.noteStreaming statuses).point = p.point ∨ (p.noteStreaming statuses).point = .returned false := by
  induction statuses generalizing p with
  | nil => exact .inl rfl
  | cons status rest ih =>
    rw [noteStreaming]
    split
    case isTrue =>
      split
      case isTrue =>
        split
        case isTrue => exact .inr rfl
        case isFalse => exact ih { p with activeIds := p.activeIds.erase status.trackerId }
      case isFalse =>
        exact ih { p with
          trackerNextSeq := update p.trackerNextSeq status.trackerId status.nextSeq
          warmup := false }
    case isFalse => exact ih p

/-- A burst goes on or raises. -/
theorem sendBurst_point (left : ℕ) (p : Procedure) :
    (p.sendBurst u left).1.point = p.point ∨ (p.sendBurst u left).1.point = .raised .encoding := by
  induction left generalizing p with
  | zero => exact .inl rfl
  | succ left ih =>
    rw [sendBurst]
    split
    case isTrue => exact .inl rfl
    case isFalse =>
      split
      case isTrue => exact ih { p with nextSeqToSend := p.nextSeqToSend + 1 }
      case isFalse => exact .inr rfl

/-- The reports of gap-fill change the trackers only. -/
structure SamePoint (p q : Procedure) : Prop extends SameClock p q where
  point : q.point = p.point
  nextSeqToSend : q.nextSeqToSend = p.nextSeqToSend

theorem noteGapFill_same (p : Procedure) (status : StatusReport) : SamePoint p (p.noteGapFill status) := by
  unfold noteGapFill
  split
  case isTrue => split <;> exact ⟨⟨rfl, rfl, rfl, rfl⟩, rfl, rfl⟩
  case isFalse => exact ⟨.refl p, rfl, rfl⟩

theorem noteGapFills_same (statuses : List StatusReport) (p : Procedure) :
    SamePoint p (statuses.foldl noteGapFill p) := by
  induction statuses generalizing p with
  | nil => exact ⟨.refl p, rfl, rfl⟩
  | cons status rest ih =>
    have hhead : SamePoint p (p.noteGapFill status) := noteGapFill_same p status
    have hrest := ih (p.noteGapFill status)
    exact
      { now := hrest.now.trans hhead.now
        startTime := hrest.startTime.trans hhead.startTime
        overallTimeout := hrest.overallTimeout.trans hhead.overallTimeout
        attempt := hrest.attempt.trans hhead.attempt
        point := hrest.point.trans hhead.point
        nextSeqToSend := hrest.nextSeqToSend.trans hhead.nextSeqToSend }

/-! ## It comes to an end -/

/-- The turns the loops of step 2 may take in one attempt. -/
def attemptTurns (p : Procedure) : ℕ := p.overallTimeout - p.now + 15002

/-- An upper bound for the turns to come: the milliseconds left of each timeout. -/
def turnsLeft (p : Procedure) : ℕ :=
  match p.point with
  | .called => 870016
  | .waiting .ready w => w.deadline - p.now + 855015
  | .streaming => (maxAttempts - p.attempt) * p.attemptTurns + p.attemptTurns + 45002
  | .gapFill _ _ gapTimeout => (maxAttempts - p.attempt) * p.attemptTurns + (gapTimeout - p.now) + 45003
  | .waiting .verified w => w.deadline - p.now + 15002
  | .waiting .activated w => w.deadline - p.now + 1
  | .returned _ | .raised _ => 0

theorem turnsLeft_raise (error : UpdateError) (p : Procedure) : (p.raise error).turnsLeft = 0 := rfl

theorem turnsLeft_of_raised {error : UpdateError} (h : p.point = .raised error) : p.turnsLeft = 0 := by
  rw [turnsLeft, h]

theorem turnsLeft_of_returned {success : Bool} (h : p.point = .returned success) : p.turnsLeft = 0 := by
  rw [turnsLeft, h]

theorem turnsLeft_of_streaming (h : p.point = .streaming) :
    p.turnsLeft = (maxAttempts - p.attempt) * p.attemptTurns + p.attemptTurns + 45002 := by
  rw [turnsLeft, h]

theorem turnsLeft_of_gapFill {stallCount gapTimeout : ℕ} {prevMinSeq : ℤ}
    (h : p.point = .gapFill stallCount prevMinSeq gapTimeout) :
    p.turnsLeft = (maxAttempts - p.attempt) * p.attemptTurns + (gapTimeout - p.now) + 45003 := by
  rw [turnsLeft, h]

/-- Steps 3 and 4 are all that is left. -/
theorem finishTransfer_turns (t : Turn) (p : Procedure) : (p.finishTransfer t).1.turnsLeft ≤ 45002 := by
  unfold finishTransfer
  split
  case isTrue => exact Nat.zero_le _
  case isFalse =>
    show _ + Awaited.verified.timeout - _ + 15002 ≤ 45002
    rw [Nat.add_sub_cancel_left]
    exact Nat.le_refl _

theorem nextAttempt_turns (t : Turn) (p : Procedure) :
    (p.nextAttempt t).1.turnsLeft ≤ (maxAttempts - p.attempt) * p.attemptTurns + p.attemptTurns + 45002 := by
  unfold nextAttempt
  split
  case isTrue => exact Nat.le_refl _
  case isFalse =>
    have hfinish := finishTransfer_turns t p
    omega

/-- An attempt that begins again is one of those that were left. -/
theorem nextAttempt_again_turns {q : Procedure} (t : Turn) (hattempt : q.attempt = p.attempt + 1)
    (hclock : q.attemptTurns = p.attemptTurns) :
    (q.nextAttempt t).1.turnsLeft ≤ (maxAttempts - p.attempt) * p.attemptTurns + 45002 := by
  unfold nextAttempt
  split
  case isTrue h =>
    have hleft : maxAttempts - p.attempt = maxAttempts - q.attempt + 1 := by
      have hless : q.attempt < maxAttempts := h.1
      omega
    show (maxAttempts - q.attempt) * q.attemptTurns + q.attemptTurns + 45002 ≤ _
    rw [hleft, hclock, Nat.add_one_mul]
  case isFalse =>
    have hfinish := finishTransfer_turns t q
    omega

theorem sendBegins_turns (u : UpdateArgs) (t : Turn) (p : Procedure) : (p.sendBegins u t).1.turnsLeft < 870016 := by
  simp only [sendBegins]
  split
  case isTrue =>
    show _ + Awaited.ready.timeout - _ + 855015 < 870016
    rw [Nat.add_sub_cancel_left]
    decide
  case isFalse => exact Nat.zero_lt_succ _

/-- A clock that has moved on leaves fewer turns. -/
theorem attemptTurns_le {q : Procedure} (hnow : p.now ≤ q.now) (hoverall : q.overallTimeout = p.overallTimeout) :
    q.attemptTurns ≤ p.attemptTurns := by
  unfold attemptTurns
  omega

theorem afterWait_turns (u : UpdateArgs) (w : StatusWait) (t : Turn) (awaited : Awaited)
    (h : p.point = .waiting awaited w) : (p.afterWait u w t awaited).1.turnsLeft < p.turnsLeft := by
  cases awaited with
  | ready =>
    have hbound : 855015 ≤ p.turnsLeft := by
      rw [turnsLeft, h]
      exact Nat.le_add_left _ _
    simp only [afterWait]
    split
    case isTrue => exact lt_of_lt_of_le (Nat.zero_lt_succ _) hbound
    case isFalse =>
      refine lt_of_le_of_lt (nextAttempt_turns _ _) (lt_of_lt_of_le ?_ hbound)
      -- five more attempts of two minutes each, with gap-fill
      show (maxAttempts - 0) * (p.now + t.early + 120000 - (p.now + (t.early + t.late)) + 15002) +
        (p.now + t.early + 120000 - (p.now + (t.early + t.late)) + 15002) + 45002 < 855015
      have hattempts : maxAttempts - 0 = 5 := rfl
      rw [hattempts]
      omega
  | verified =>
    have hbound : 15002 ≤ p.turnsLeft := by
      rw [turnsLeft, h]
      exact Nat.le_add_left _ _
    simp only [afterWait]
    split
    case isTrue => exact lt_of_lt_of_le (Nat.zero_lt_succ _) hbound
    case isFalse =>
      refine lt_of_lt_of_le ?_ hbound
      show _ + Awaited.activated.timeout - _ + 1 < 15002
      rw [Nat.add_sub_cancel_left]
      decide
  | activated =>
    rw [turnsLeft, turnsLeft, h]
    exact Nat.zero_lt_succ _

theorem waitTurn_turns (u : UpdateArgs) (w : StatusWait) (t : Turn) (awaited : Awaited)
    (h : p.point = .waiting awaited w) : (p.waitTurn u awaited w t).1.turnsLeft < p.turnsLeft := by
  simp only [waitTurn]
  split
  case isTrue hpending =>
    have hdeadline : (if w.nextResend ≤ p.now then { w with nextResend := p.now + t.early + resendInterval }
        else w).deadline = w.deadline := by
      split <;> rfl
    rw [turnsLeft, turnsLeft, h]
    cases awaited <;> simp only [pass_now, StatusWait.notes_deadline, hdeadline] <;> omega
  case isFalse => exact afterWait_turns u w t awaited h

theorem streamTurn_turns (u : UpdateArgs) (t : Turn) (h : p.point = .streaming) :
    (p.streamTurn u t).1.turnsLeft < p.turnsLeft := by
  have hleft := turnsLeft_of_streaming h
  -- whatever is read, the clock has moved on
  have hnoted : ∀ time (q : Procedure), 0 < time → p.now < p.overallTimeout → SameClock p q → q.point = .streaming →
      ((q.pass time).noteStreaming t.statuses).turnsLeft < p.turnsLeft := by
    intro time q htime hnow hclock hpoint
    have hnote := noteStreaming_clock t.statuses (q.pass time)
    rcases noteStreaming_point t.statuses (q.pass time) with hsame | hreturned
    · have hturns : ((q.pass time).noteStreaming t.statuses).attemptTurns < p.attemptTurns := by
        unfold attemptTurns
        rw [hnote.now, hnote.overallTimeout, pass_now, pass_overallTimeout, hclock.now, hclock.overallTimeout]
        omega
      rw [turnsLeft_of_streaming (hsame.trans hpoint), hleft, hnote.attempt, pass_attempt, hclock.attempt]
      have hmul := Nat.mul_le_mul_left (maxAttempts - p.attempt) hturns.le
      omega
    · rw [turnsLeft_of_returned hreturned, hleft]
      exact Nat.zero_lt_succ _
  unfold streamTurn
  split
  case isTrue hbusy =>
    split
    case h_1 =>
      rw [turnsLeft_raise, hleft]
      exact Nat.zero_lt_succ _
    case h_2 minConsumed _ =>
      split
      case isTrue => exact hnoted _ p (by omega) hbusy.2 (.refl p) h
      case isFalse =>
        dsimp only
        split
        case h_1 hraised =>
          rw [turnsLeft_of_raised hraised, hleft]
          exact Nat.zero_lt_succ _
        case h_2 hnotraised =>
          refine hnoted _ _ (by split <;> omega) hbusy.2 (sendBurst_clock _ p) ?_
          exact ((sendBurst_point _ p).resolve_right fun hraised => hnotraised _ hraised).trans h
  case isFalse =>
    have hturns : (p.pass (t.early + t.late)).attemptTurns ≤ p.attemptTurns := attemptTurns_le (Nat.le_add_right _ _) rfl
    rw [hleft]
    show (maxAttempts - p.attempt) * (p.pass (t.early + t.late)).attemptTurns +
      (p.now + 15000 - (p.now + (t.early + t.late))) + 45003 < _
    have hmul := Nat.mul_le_mul_left (maxAttempts - p.attempt) hturns
    have hattempt : 15002 ≤ p.attemptTurns := Nat.le_add_left _ _
    omega

theorem gapTurn_turns (u : UpdateArgs) (t : Turn) {stallCount gapTimeout : ℕ} {prevMinSeq : ℤ}
    (h : p.point = .gapFill stallCount prevMinSeq gapTimeout) :
    (p.gapTurn u stallCount prevMinSeq gapTimeout t).1.turnsLeft < p.turnsLeft := by
  have hleft := turnsLeft_of_gapFill h
  have hfinish : ∀ q : Procedure, (q.finishTransfer t).1.turnsLeft < p.turnsLeft := by
    intro q
    have hturns := finishTransfer_turns t q
    omega
  unfold gapTurn
  split
  case isTrue hnow =>
    split
    case h_1 =>
      rw [turnsLeft_raise, hleft]
      exact Nat.zero_lt_succ _
    case h_2 =>
      split
      case isTrue => exact hfinish _
      case isFalse =>
        have hsame := noteGapFills_same t.statuses (p.pass (t.early + 200 + t.late))
        generalize t.statuses.foldl noteGapFill (p.pass (t.early + 200 + t.late)) = q at hsame
        have hqnow : q.now = p.now + (t.early + 200 + t.late) := hsame.now
        have hturns : q.attemptTurns ≤ p.attemptTurns := attemptTurns_le (by omega) hsame.overallTimeout
        have hmul : (maxAttempts - q.attempt) * q.attemptTurns ≤ (maxAttempts - p.attempt) * p.attemptTurns := by
          rw [show q.attempt = p.attempt from hsame.attempt]
          exact Nat.mul_le_mul_left _ hturns
        have hwaits : ∀ stallCount prevMinSeq,
            turnsLeft { q with point := .gapFill stallCount prevMinSeq gapTimeout } < p.turnsLeft := by
          intro stallCount prevMinSeq
          show (maxAttempts - q.attempt) * q.attemptTurns + (gapTimeout - q.now) + 45003 < _
          omega
        simp only [checkStall]
        split
        case h_1 =>
          rw [turnsLeft_raise, hleft]
          exact Nat.zero_lt_succ _
        case h_2 =>
          split
          case isTrue => exact hfinish q
          case isFalse =>
            split
            case isTrue =>
              split
              case isTrue =>
                refine lt_of_le_of_lt (nextAttempt_again_turns (p := q) t rfl rfl) ?_
                omega
              case isFalse => exact hwaits _ _
            case isFalse => exact hwaits _ _
  case isFalse => exact hfinish _

/-- Every turn uses up some of the time. -/
theorem turn_turns {p' : Procedure} {es : List HostEvent} (h : p.turn u t = some (p', es)) :
    p'.turnsLeft < p.turnsLeft := by
  unfold turn at h
  split at h
  case h_1 hpoint =>
    obtain rfl : (p.sendBegins u t).1 = p' := congrArg Prod.fst (Option.some.inj h)
    rw [show p.turnsLeft = 870016 by rw [turnsLeft, hpoint]]
    exact sendBegins_turns u t p
  case h_2 awaited w hpoint =>
    obtain rfl : (p.waitTurn u awaited w t).1 = p' := congrArg Prod.fst (Option.some.inj h)
    exact waitTurn_turns u w t awaited hpoint
  case h_3 hpoint =>
    obtain rfl : (p.streamTurn u t).1 = p' := congrArg Prod.fst (Option.some.inj h)
    exact streamTurn_turns u t hpoint
  case h_4 stallCount prevMinSeq gapTimeout hpoint =>
    obtain rfl : (p.gapTurn u stallCount prevMinSeq gapTimeout t).1 = p' := congrArg Prod.fst (Option.some.inj h)
    exact gapTurn_turns u t hpoint
  case h_5 => cases h
  case h_6 => cases h

end Procedure

/-- No run of `do_update` is longer than its timeouts allow. -/
theorem exec_turns {u : UpdateArgs} {turns : List Turn} {p : Procedure} {es : List HostEvent}
    (h : (doUpdate u).exec .init turns = some (p, es)) : turns.length ≤ 870016 := by
  have hlength : turns.length + p.turnsLeft ≤ Procedure.init.turnsLeft :=
    EventSystem.exec_length_le (P := fun _ _ => True) (fun _ _ _ _ _ _ _ => trivial)
      (fun _ p t p' es _ hstep => Procedure.turn_turns hstep) trivial h
  exact (Nat.le_add_right _ _).trans hlength

/-! ## What is known of the trackers -/

/-- A terminal status other than COMPLETE. -/
def isFailure (status : BitVec 8) : Bool := isTerminal status && status != 0x06

/-- BEGIN fits its fields, whichever tracker it is for. -/
def Encodable (u : UpdateArgs) : Prop := ∀ id ∈ u.trackerIds, (sendBegin u id).isSome = true

/-- Where BEGIN fits its fields, DATA does. -/
theorem Encodable.data {u : UpdateArgs} (h : Encodable u) {id seq : ℕ} (hid : id ∈ u.trackerIds)
    (hseq : seq < u.totalPackets) (data : List (BitVec 8)) : (sendData id seq data).isSome = true := by
  have hbegin := h id hid
  unfold sendBegin at hbegin
  unfold sendData
  split at hbegin
  case isTrue hfits =>
    rw [if_pos ⟨hfits.1, by omega⟩]
    rfl
  case isFalse => cases hbegin

variable {u : UpdateArgs} {trace es : List HostEvent} {p q : Procedure} {t : Turn}

/-- The trackers being updated, in any phase from the streaming on. -/
structure Targets (u : UpdateArgs) (trace : List HostEvent) (activeIds : List ℕ) : Prop where
  listed : ∀ id ∈ activeIds, id ∈ u.trackerIds
  nodup : activeIds.Nodup
  ready : ∃ readyIds, .ready readyIds ∈ trace ∧ ∀ id ∈ activeIds, id ∈ readyIds
  /-- A tracker that has failed is not updated any more. -/
  failed : ∀ status, .status false status ∈ trace → isFailure status.status = true → status.trackerId ∉ activeIds

namespace Targets

variable {activeIds : List ℕ}

/-- What is not a STATUS does not matter. -/
theorem quiet (h : Targets u trace activeIds) (hes : ∀ status, .status false status ∉ es) :
    Targets u (trace ++ es) activeIds := by
  refine { h with ready := ?_, failed := ?_ }
  · obtain ⟨readyIds, hready, hactive⟩ := h.ready
    exact ⟨readyIds, List.mem_append_left _ hready, hactive⟩
  · intro status hstatus hfailure
    exact h.failed status ((List.mem_append.mp hstatus).resolve_right (hes status)) hfailure

/-- A tracker that does not fail goes on. -/
theorem keep (h : Targets u trace activeIds) {status : StatusReport}
    (hstatus : status.trackerId ∈ activeIds → isTerminal status.status = false) :
    Targets u (trace ++ [.status false status]) activeIds := by
  refine { h with ready := ?_, failed := ?_ }
  · obtain ⟨readyIds, hready, hactive⟩ := h.ready
    exact ⟨readyIds, List.mem_append_left _ hready, hactive⟩
  · intro other hother hfailure hactive
    rcases List.mem_append.mp hother with hearlier | hlast
    · exact h.failed other hearlier hfailure hactive
    · obtain rfl : other = status := (HostEvent.status.inj (List.mem_singleton.mp hlast)).2
      rw [isFailure, hstatus hactive] at hfailure
      cases hfailure

/-- A tracker with a terminal status is taken out. -/
theorem remove (h : Targets u trace activeIds) (status : StatusReport) :
    Targets u (trace ++ [.status false status]) (activeIds.erase status.trackerId) where
  listed id hid := h.listed id (List.mem_of_mem_erase hid)
  nodup := h.nodup.erase _
  ready := by
    obtain ⟨readyIds, hready, hactive⟩ := h.ready
    exact ⟨readyIds, List.mem_append_left _ hready, fun id hid => hactive id (List.mem_of_mem_erase hid)⟩
  failed := by
    intro other hother hfailure hactive
    rcases List.mem_append.mp hother with hearlier | hlast
    · exact h.failed other hearlier hfailure (List.mem_of_mem_erase hactive)
    · obtain rfl : other = status := (HostEvent.status.inj (List.mem_singleton.mp hlast)).2
      exact h.nodup.not_mem_erase hactive

end Targets

/-- The loops of step 2. -/
structure Transferring (u : UpdateArgs) (trace : List HostEvent) (p : Procedure) : Prop
    extends Targets u trace p.activeIds where
  active : p.activeIds ≠ []
  started : p.startTime ≤ p.now
  overall : p.startTime + 120000 ≤ p.overallTimeout
  /-- Nothing has been read yet when no time has passed. -/
  unread : p.now = p.startTime → ∀ id, p.trackerNextSeq id = 0

/-- A tracker whose image was verified, and which has not failed before. -/
structure Verified (u : UpdateArgs) (trace : List HostEvent) (id : ℕ) : Prop where
  ready : ∃ readyIds, .ready readyIds ∈ trace ∧ id ∈ readyIds
  notFailed : ∀ status, .status false status ∈ trace → isFailure status.status = true → status.trackerId ≠ id
  verified : ∃ status, .status true status ∈ trace ∧ status.trackerId = id ∧ status.status = 0x03

/-- What is known at each point. -/
def Knows (u : UpdateArgs) (trace : List HostEvent) (p : Procedure) : Prop :=
  match p.point with
  | .called | .waiting .ready _ => ∀ status, .status false status ∉ trace
  | .streaming => Transferring u trace p
  | .gapFill _ _ gapTimeout => Transferring u trace p ∧ p.startTime + 15000 ≤ gapTimeout
  | .waiting .verified w => Targets u trace p.activeIds ∧
      ∀ id status, w.results id = some status → .status true status ∈ trace ∧ status.trackerId = id
  | .waiting .activated _ => ∀ id ∈ p.verifiedIds, Verified u trace id
  | .returned success => success = true → ∃ id, Verified u trace id
  | .raised _ => False

/-- What is not a STATUS of step 2 does not matter. -/
theorem Verified.quiet {id : ℕ} (h : Verified u trace id) (hes : ∀ status, .status false status ∉ es) :
    Verified u (trace ++ es) id where
  ready := by
    obtain ⟨readyIds, hready, hid⟩ := h.ready
    exact ⟨readyIds, List.mem_append_left _ hready, hid⟩
  notFailed status hstatus hfailure :=
    h.notFailed status ((List.mem_append.mp hstatus).resolve_right (hes status)) hfailure
  verified := by
    obtain ⟨status, hstatus, hid⟩ := h.verified
    exact ⟨status, List.mem_append_left _ hstatus, hid⟩

namespace Procedure

theorem minConsumed_isSome (h : p.activeIds ≠ []) : ∃ minConsumed, p.minConsumed = some minConsumed := by
  cases hmin : p.minConsumed with
  | none =>
    rw [minConsumed, List.min?_eq_none_iff, List.map_eq_nil_iff] at hmin
    exact absurd hmin h
  | some minConsumed => exact ⟨minConsumed, rfl⟩

/-- The minimum is what one of the trackers has reported. -/
theorem minConsumed_mem {minConsumed : ℕ} (h : p.minConsumed = some minConsumed) :
    ∃ id ∈ p.activeIds, p.trackerNextSeq id = minConsumed :=
  List.mem_map.mp (List.min?_mem h)

/-! ### The ends of the phases -/

theorem sendBegins_knows (hsend : Encodable u) (hquiet : ∀ status, .status false status ∉ trace) :
    Knows u (trace ++ (p.sendBegins u t).2) (p.sendBegins u t).1 := by
  have hall : (u.trackerIds.takeWhile fun id => (sendBegin u id).isSome) = u.trackerIds :=
    List.takeWhile_eq_self_iff.mpr hsend
  simp only [sendBegins, hall, if_true]
  intro status hstatus
  obtain ⟨id, _, hcommand⟩ := List.mem_map.mp ((List.mem_append.mp hstatus).resolve_left (hquiet status))
  cases hcommand

theorem finishTransfer_knows (h : Targets u trace p.activeIds) (hclock : p.startTime < p.now) :
    Knows u (trace ++ (p.finishTransfer t).2) (p.finishTransfer t).1 := by
  unfold finishTransfer
  rw [if_neg hclock.ne']
  refine ⟨h.quiet fun status hstatus => ?_, fun id status hresult => by cases hresult⟩
  obtain ⟨id, _, hcommand⟩ := List.mem_map.mp hstatus
  cases hcommand

theorem nextAttempt_knows (h : Transferring u trace p) (hclock : p.attempt < maxAttempts ∨ p.startTime < p.now) :
    Knows u (trace ++ (p.nextAttempt t).2) (p.nextAttempt t).1 := by
  unfold nextAttempt
  split
  case isTrue =>
    rw [List.append_nil]
    show Transferring u trace { p with point := .streaming }
    exact { h with }
  case isFalse hover =>
    refine finishTransfer_knows h.toTargets ?_
    have hoverall := h.overall
    rcases hclock with hattempt | hclock
    · have hlate : ¬ p.now < p.overallTimeout := fun hnow => hover ⟨hattempt, hnow⟩
      omega
    · exact hclock

theorem afterReady_knows (w : StatusWait) (hnodup : u.trackerIds.Nodup)
    (hquiet : ∀ status, .status false status ∉ trace) :
    Knows u (trace ++ (p.afterWait u w t .ready).2) (p.afterWait u w t .ready).1 := by
  simp only [afterWait]
  split
  case isTrue => exact fun hsuccess => by cases hsuccess
  case isFalse hready =>
    rw [← List.singleton_append, ← List.append_assoc]
    refine nextAttempt_knows ?_ (.inl (show 0 < maxAttempts by decide))
    exact
      { listed := fun id hid => (List.mem_filter.mp hid).1
        nodup := hnodup.filter _
        ready := ⟨_, List.mem_append_right _ (List.mem_singleton_self _), fun id hid => hid⟩
        failed := by
          intro status hstatus
          rcases List.mem_append.mp hstatus with hearlier | hlast
          · exact absurd hearlier (hquiet status)
          · cases List.mem_singleton.mp hlast
        active := hready
        started := by
          show p.now ≤ p.now + _
          omega
        overall := by
          show p.now + 120000 ≤ p.now + t.early + 120000
          omega
        unread := fun _ _ => rfl }

theorem afterVerified_knows (w : StatusWait) (h : Targets u trace p.activeIds)
    (hresults : ∀ id status, w.results id = some status → .status true status ∈ trace ∧ status.trackerId = id) :
    Knows u (trace ++ (p.afterWait u w t .verified).2) (p.afterWait u w t .verified).1 := by
  simp only [afterWait]
  split
  case isTrue => exact fun hsuccess => by cases hsuccess
  case isFalse =>
    refine fun id hid => Verified.quiet ?_ fun status hstatus => ?_
    · obtain ⟨hactive, hverified⟩ := List.mem_filter.mp hid
      obtain ⟨status, hresult, hok⟩ := (Option.any_eq_true _ _).mp hverified
      obtain ⟨hread, hsame⟩ := hresults id status hresult
      obtain ⟨readyIds, hready, hids⟩ := h.ready
      exact
        { ready := ⟨readyIds, hready, hids id hactive⟩
          notFailed := fun other hother hfailure heq => h.failed other hother hfailure (heq ▸ hactive)
          verified := ⟨status, hread, hsame, of_decide_eq_true hok⟩ }
    · obtain ⟨id, _, hcommand⟩ := List.mem_map.mp hstatus
      cases hcommand

theorem afterActivated_knows (w : StatusWait) (h : ∀ id ∈ p.verifiedIds, Verified u trace id) :
    Knows u (trace ++ (p.afterWait u w t .activated).2) (p.afterWait u w t .activated).1 := by
  intro hsuccess
  obtain ⟨id, hid, _⟩ := List.any_eq_true.mp hsuccess
  exact ⟨id, (h id hid).quiet fun status hstatus => by cases List.mem_singleton.mp hstatus⟩

/-! ### The loops -/

/-- A result is a STATUS that was read. -/
theorem notes_results (expected : List (BitVec 8)) (statuses : List StatusReport) (w : StatusWait) {id : ℕ}
    {status : StatusReport}
    (h : (statuses.foldl (StatusWait.note expected) w).results id = some status) :
    w.results id = some status ∨ status ∈ statuses ∧ status.trackerId = id := by
  induction statuses generalizing w with
  | nil => exact .inl h
  | cons first rest ih =>
    rcases ih _ h with hnoted | ⟨hrest, hid⟩
    · unfold StatusWait.note at hnoted
      split at hnoted
      case isTrue =>
        change update w.results first.trackerId (some first) id = some status at hnoted
        by_cases hid : id = first.trackerId
        · subst hid
          rw [Function.update_self] at hnoted
          obtain rfl := Option.some.inj hnoted
          exact .inr ⟨List.mem_cons_self, rfl⟩
        · rw [Function.update_of_ne hid] at hnoted
          exact .inl hnoted
      case isFalse => exact .inl hnoted
    · exact .inr ⟨List.mem_cons_of_mem _ hrest, hid⟩

theorem waitTurn_knows (w : StatusWait) (awaited : Awaited) (hnodup : u.trackerIds.Nodup) (h : Knows u trace p)
    (hpoint : p.point = .waiting awaited w) :
    Knows u (trace ++ (p.waitTurn u awaited w t).2) (p.waitTurn u awaited w t).1 := by
  have hresend : ∀ status, .status false status ∉
      (if w.nextResend ≤ p.now then w.pending.map (awaited.command ·) else []) ++
        if awaited = .verified then t.statuses.map (HostEvent.status true) else [] := by
    intro status hstatus
    rcases List.mem_append.mp hstatus with hresend | hread
    · split at hresend
      case isTrue =>
        obtain ⟨id, _, hcommand⟩ := List.mem_map.mp hresend
        cases awaited <;> cases hcommand
      case isFalse => cases hresend
    · split at hread
      case isTrue =>
        obtain ⟨_, _, hread⟩ := List.mem_map.mp hread
        cases hread
      case isFalse => cases hread
  simp only [Knows, hpoint] at h
  simp only [waitTurn]
  split
  case isTrue =>
    cases awaited with
    | ready =>
      intro status hstatus
      exact hresend status ((List.mem_append.mp hstatus).resolve_left (h status))
    | verified =>
      refine ⟨h.1.quiet hresend, fun id status hresult => ?_⟩
      rcases notes_results _ _ _ hresult with hearlier | ⟨hread, hid⟩
      · have hresult : w.results id = some status := by
          split at hearlier <;> exact hearlier
        exact ⟨List.mem_append_left _ (h.2 id status hresult).1, (h.2 id status hresult).2⟩
      · exact ⟨List.mem_append_right _ (List.mem_append_right _ (List.mem_map_of_mem hread)), hid⟩
    | activated => exact fun id hid => (h id hid).quiet hresend
  case isFalse =>
    cases awaited with
    | ready => exact afterReady_knows w hnodup h
    | verified => exact afterVerified_knows w h.1 h.2
    | activated => exact afterActivated_knows w h

/-- While something is read the clock moves on. -/
structure Reading (u : UpdateArgs) (trace : List HostEvent) (p : Procedure) : Prop
    extends Targets u trace p.activeIds where
  active : p.activeIds ≠ []
  started : p.startTime < p.now
  overall : p.startTime + 120000 ≤ p.overallTimeout

theorem Reading.transferring (h : Reading u trace p) : Transferring u trace p :=
  { h with
    started := h.started.le
    unread := fun hnow => absurd hnow h.started.ne' }

/-- Time passes while the reports come in. -/
theorem Reading.of_transferring {time : ℕ} (h : Transferring u trace p) (htime : 0 < time) :
    Reading u trace (p.pass time) :=
  { h with
    started := by
      have hstarted := h.started
      rw [pass_startTime, pass_now]
      omega }

theorem noteStreaming_knows (statuses : List StatusReport) (h : Reading u trace p) (hpoint : p.point = .streaming) :
    Knows u (trace ++ statuses.map (HostEvent.status false)) (p.noteStreaming statuses) := by
  induction statuses generalizing trace p with
  | nil =>
    rw [List.map_nil, List.append_nil]
    simp only [noteStreaming, Knows, hpoint]
    exact h.transferring
  | cons status rest ih =>
    rw [List.map_cons, ← List.singleton_append, ← List.append_assoc, noteStreaming]
    split
    case isTrue =>
      split
      case isTrue =>
        split
        case isTrue => exact fun hsuccess => by cases hsuccess
        case isFalse hleft =>
          refine ih (p := { p with activeIds := p.activeIds.erase status.trackerId }) ?_ hpoint
          exact { h with toTargets := h.toTargets.remove status, active := hleft }
      case isFalse hterminal =>
        refine ih (p := { p with
          trackerNextSeq := update p.trackerNextSeq status.trackerId status.nextSeq
          warmup := false }) ?_ hpoint
        exact { h with toTargets := h.toTargets.keep fun _ => Bool.eq_false_iff.mpr hterminal }
    case isFalse habsent =>
      refine ih ?_ hpoint
      exact { h with toTargets := h.toTargets.keep fun hactive => absurd hactive habsent }

/-- A burst leaves the trackers as they are, and sends nothing but DATA. -/
theorem sendBurst_reads (hsend : Encodable u) (left : ℕ) {p : Procedure} (hactive : p.activeIds ≠ [])
    (hlisted : ∀ id ∈ p.activeIds, id ∈ u.trackerIds) :
    (p.sendBurst u left).1.point = p.point ∧ (p.sendBurst u left).1.activeIds = p.activeIds ∧
      (p.sendBurst u left).1.trackerNextSeq = p.trackerNextSeq ∧
      ∀ verifying status, .status verifying status ∉ (p.sendBurst u left).2 := by
  induction left generalizing p with
  | zero => exact ⟨rfl, rfl, rfl, fun _ _ hmem => by cases hmem⟩
  | succ left ih =>
    rw [sendBurst]
    split
    case isTrue => exact ⟨rfl, rfl, rfl, fun _ _ hmem => by cases hmem⟩
    case isFalse hleft =>
      have hhead : p.activeIds.headD 0 ∈ p.activeIds := by
        cases hids : p.activeIds with
        | nil => exact absurd hids hactive
        | cons id rest => exact List.mem_cons_self
      have hseq : p.nextSeqToSend < u.totalPackets := Nat.lt_of_not_le fun hle => hleft (.inl hle)
      rw [if_pos (hsend.data (hlisted _ hhead) hseq _)]
      obtain ⟨hpoint, hids, hnext, hquiet⟩ := ih (p := { p with nextSeqToSend := p.nextSeqToSend + 1 }) hactive hlisted
      refine ⟨hpoint, hids, hnext, fun verifying status hmem => ?_⟩
      rcases List.mem_cons.mp hmem with hdata | hrest
      · cases hdata
      · exact hquiet verifying status hrest

theorem streamTurn_knows (hsend : Encodable u) (h : Knows u trace p) (hpoint : p.point = .streaming) :
    Knows u (trace ++ (p.streamTurn u t).2) (p.streamTurn u t).1 := by
  simp only [Knows, hpoint] at h
  unfold streamTurn
  split
  case isTrue =>
    obtain ⟨minConsumed, hmin⟩ := minConsumed_isSome h.active
    simp only [hmin]
    split
    case isTrue => exact noteStreaming_knows _ (.of_transferring h (by omega)) hpoint
    case isFalse =>
      obtain ⟨hburst, hids, hnext, hquiet⟩ :=
        sendBurst_reads hsend (p.burstCount (p.nextSeqToSend - minConsumed)) h.active h.listed
      have hclock := sendBurst_clock (u := u) (p.burstCount (p.nextSeqToSend - minConsumed)) p
      generalize p.sendBurst u (p.burstCount (p.nextSeqToSend - minConsumed)) = burst at hburst hids hnext hquiet hclock
      have hsent : Transferring u (trace ++ burst.2) burst.1 :=
        { toTargets := hids ▸ h.toTargets.quiet (hquiet false)
          active := hids ▸ h.active
          started := by
            rw [hclock.startTime, hclock.now]
            exact h.started
          overall := by
            rw [hclock.startTime, hclock.overallTimeout]
            exact h.overall
          unread := by
            rw [hclock.startTime, hclock.now, hnext]
            exact h.unread }
      rw [hpoint] at hburst
      simp only [hburst]
      rw [← List.append_assoc]
      exact noteStreaming_knows _ (.of_transferring hsent (by split <;> omega)) hburst
  case isFalse =>
    rw [List.append_nil]
    have hstarted := h.started
    refine ⟨{ h with started := ?_, unread := ?_ }, ?_⟩
    · show p.startTime ≤ p.now + _
      omega
    · intro hnow
      change p.now + _ = p.startTime at hnow
      exact h.unread (by omega)
    · show p.startTime + 15000 ≤ p.now + 15000
      omega

/-- The trackers after the reports of a pass of gap-fill. -/
theorem noteGapFills_targets (statuses : List StatusReport) (h : Targets u trace p.activeIds) :
    Targets u (trace ++ statuses.map (HostEvent.status false)) (statuses.foldl noteGapFill p).activeIds := by
  induction statuses generalizing trace p with
  | nil =>
    rw [List.map_nil, List.append_nil]
    exact h
  | cons status rest ih =>
    rw [List.map_cons, ← List.singleton_append, ← List.append_assoc, List.foldl_cons]
    refine ih ?_
    unfold noteGapFill
    split
    case isTrue =>
      split
      case isTrue => exact h.remove status
      case isFalse hterminal => exact h.keep fun _ => Bool.eq_false_iff.mpr hterminal
    case isFalse habsent => exact h.keep fun hactive => absurd hactive habsent

/-- A tracker that reports nothing terminal stays. -/
theorem noteGapFills_stays {statuses : List StatusReport} {id : ℕ}
    (hgoing : ∀ status ∈ statuses, status.trackerId = id → isTerminal status.status = false) (hid : id ∈ p.activeIds) :
    id ∈ (statuses.foldl noteGapFill p).activeIds := by
  induction statuses generalizing p with
  | nil => exact hid
  | cons status rest ih =>
    refine ih (fun other hother => hgoing other (List.mem_cons_of_mem _ hother)) ?_
    unfold noteGapFill
    split
    case isTrue =>
      split
      case isTrue hterminal =>
        have hne : id ≠ status.trackerId := by
          rintro rfl
          rw [hgoing status List.mem_cons_self rfl] at hterminal
          cases hterminal
        exact (List.mem_erase_of_ne hne).mpr hid
      case isFalse => exact hid
    case isFalse => exact hid

theorem checkStall_knows {stallCount gapTimeout : ℕ} {prevMinSeq : ℤ} (h : Reading u trace p)
    (hgap : p.startTime + 15000 ≤ gapTimeout) :
    Knows u (trace ++ (p.checkStall u stallCount prevMinSeq gapTimeout t).2)
      (p.checkStall u stallCount prevMinSeq gapTimeout t).1 := by
  obtain ⟨minConsumed, hmin⟩ := minConsumed_isSome h.active
  simp only [checkStall, hmin]
  split
  case isTrue => exact finishTransfer_knows h.toTargets h.started
  case isFalse =>
    split
    case isTrue =>
      split
      case isTrue => exact nextAttempt_knows { h.transferring with } (.inr h.started)
      case isFalse =>
        rw [List.append_nil]
        exact ⟨{ h.transferring with }, hgap⟩
    case isFalse =>
      rw [List.append_nil]
      exact ⟨{ h.transferring with }, hgap⟩

/-! ## The result -/

/-- Gap-fill is not over yet. -/
def filling (p : Procedure) : Bool :=
  match p.point with
  | .gapFill _ _ _ => true
  | _ => false

/-- The turn reads reports during gap-fill. -/
def polls (u : UpdateArgs) (p : Procedure) : Bool :=
  match p.point with
  | .gapFill _ _ gapTimeout => decide (p.now < gapTimeout) && p.minConsumed.all fun minConsumed =>
      decide (minConsumed < u.totalPackets)
  | _ => false

end Procedure

/-- The turns after which `do_update` goes on as it should. -/
structure Admitted (u : UpdateArgs) (p : Procedure) (t : Turn) : Prop where
  /-- A poll of gap-fill leaves a tracker that has not failed. -/
  left : p.polls u = true → ∃ id ∈ p.activeIds, ∀ status ∈ t.statuses,
    status.trackerId = id → isTerminal status.status = false
  /-- The transfer of nothing takes some time. -/
  elapsed : p.filling = true → u.firmware.data = [] → p.startTime < p.now + t.early

namespace Procedure

/-- As long as no time has passed, all packets of a real image are missing. -/
theorem lt_of_finished {minConsumed : ℕ} (h : Transferring u trace p) (hadmitted : Admitted u p t)
    (hfilling : p.filling = true) (hmin : p.minConsumed = some minConsumed) (hall : u.totalPackets ≤ minConsumed) :
    p.startTime < p.now + t.early := by
  have hstarted := h.started
  by_cases hdata : u.firmware.data = []
  · exact hadmitted.elapsed hfilling hdata
  · have hpackets : 0 < u.totalPackets := by
      have hlength : 0 < u.imageSize := List.length_pos_iff.mpr hdata
      have hpayload : 0 < otaDataMaxPayload := by decide
      exact Nat.div_pos (by omega) hpayload
    have hnow : p.now ≠ p.startTime := by
      intro hnow
      obtain ⟨id, _, hid⟩ := minConsumed_mem hmin
      have hzero := h.unread hnow id
      omega
    omega

theorem gapTurn_knows {stallCount gapTimeout : ℕ} {prevMinSeq : ℤ} (hadmitted : Admitted u p t) (h : Knows u trace p)
    (hpoint : p.point = .gapFill stallCount prevMinSeq gapTimeout) :
    Knows u (trace ++ (p.gapTurn u stallCount prevMinSeq gapTimeout t).2)
      (p.gapTurn u stallCount prevMinSeq gapTimeout t).1 := by
  have hfilling : p.filling = true := by rw [filling, hpoint]
  simp only [Knows, hpoint] at h
  obtain ⟨h, hgap⟩ := h
  have hstarted := h.started
  obtain ⟨minConsumed, hmin⟩ := minConsumed_isSome h.active
  simp only [gapTurn, hmin]
  split
  case isTrue hnow =>
    split
    case isTrue hall => exact finishTransfer_knows h.toTargets (lt_of_finished h hadmitted hfilling hmin hall)
    case isFalse hmissing =>
      have hpolls : p.polls u = true := by
        rw [polls, hpoint, hmin]
        exact Bool.and_eq_true_iff.mpr ⟨decide_eq_true hnow, decide_eq_true (Nat.lt_of_not_le hmissing)⟩
      obtain ⟨id, hid, hgoing⟩ := hadmitted.left hpolls
      have hstays := noteGapFills_stays (p := p.pass (t.early + 200 + t.late)) hgoing hid
      have hsame := noteGapFills_same t.statuses (p.pass (t.early + 200 + t.late))
      have htargets := noteGapFills_targets (p := p.pass (t.early + 200 + t.late)) t.statuses h.toTargets
      have hread : Reading u (trace ++ t.statuses.map (HostEvent.status false))
          (t.statuses.foldl noteGapFill (p.pass (t.early + 200 + t.late))) :=
        { toTargets := htargets
          active := List.ne_nil_of_mem hstays
          started := by
            rw [hsame.startTime, hsame.now, pass_startTime, pass_now]
            omega
          overall := by
            rw [hsame.startTime, hsame.overallTimeout]
            exact h.overall }
      rw [← List.append_assoc]
      exact checkStall_knows hread (by rw [hsame.startTime]; exact hgap)
  case isFalse =>
    refine finishTransfer_knows h.toTargets ?_
    rw [pass_startTime, pass_now]
    omega

theorem turn_knows {p' : Procedure} (hsend : Encodable u) (hnodup : u.trackerIds.Nodup) (hadmitted : Admitted u p t)
    (h : Knows u trace p) (hturn : p.turn u t = some (p', es)) : Knows u (trace ++ es) p' := by
  unfold turn at hturn
  split at hturn
  case h_1 hpoint =>
    obtain ⟨rfl, rfl⟩ := Prod.mk.inj (Option.some.inj hturn)
    simp only [Knows, hpoint] at h
    exact sendBegins_knows hsend h
  case h_2 awaited w hpoint =>
    obtain ⟨rfl, rfl⟩ := Prod.mk.inj (Option.some.inj hturn)
    exact waitTurn_knows w awaited hnodup h hpoint
  case h_3 hpoint =>
    obtain ⟨rfl, rfl⟩ := Prod.mk.inj (Option.some.inj hturn)
    exact streamTurn_knows hsend h hpoint
  case h_4 stallCount prevMinSeq gapTimeout hpoint =>
    obtain ⟨rfl, rfl⟩ := Prod.mk.inj (Option.some.inj hturn)
    exact gapTurn_knows hadmitted h hpoint
  case h_5 => cases hturn
  case h_6 => cases hturn

end Procedure

/-- A run of admitted turns knows its trackers. -/
theorem knows_of_run (hsend : Encodable u) (hnodup : u.trackerIds.Nodup)
    (h : (doUpdate u).RunWhere (Admitted u) trace p) : Knows u trace p := by
  have hstart : Knows u [] Procedure.init := by
    intro status hstatus
    cases hstatus
  refine h.history_invariant (P := Knows u) hstart ?_
  intro trace p t p' es hknows hadmitted hturn
  exact Procedure.turn_knows hsend hnodup hadmitted hknows hturn

/-- Every tracker the streaming phase began with has reported a failure since. -/
def AllFailed (trace : List HostEvent) : Prop :=
  ∀ readyIds, .ready readyIds ∈ trace → ∀ id ∈ readyIds, ∃ verifying status,
    .status verifying status ∈ trace ∧ status.trackerId = id ∧ isFailure status.status = true

/-- No tracker reports VERIFY_OK and a failure during the verification. -/
def Consistent (trace : List HostEvent) : Prop :=
  ∀ ok failure, .status true ok ∈ trace → .status true failure ∈ trace → ok.trackerId = failure.trackerId →
    ok.status = 0x03 → isFailure failure.status = false

/-- `do_update` raises nothing, returns False when all trackers have failed, and otherwise goes on until it
returns. -/
structure Reported (u : UpdateArgs) (trace : List HostEvent) (p : Procedure) : Prop where
  notRaised : ∀ error, p.point ≠ .raised error
  failed : AllFailed trace → ∀ success, p.point = .returned success → success = false
  goesOn : (∀ success, p.point ≠ .returned success) → ∀ t, (p.turn u t).isSome = true

/-- An update of distinct trackers whose BEGIN can be sent reports its result within its timeouts, as long as
gap-fill is left a tracker that has not failed. -/
theorem update_reports (hsend : Encodable u) (hnodup : u.trackerIds.Nodup) :
    (∀ trace p, (doUpdate u).RunWhere (Admitted u) trace p → Consistent trace → Reported u trace p) ∧
      ∀ turns p es, (doUpdate u).exec .init turns = some (p, es) → turns.length ≤ 870016 := by
  refine ⟨fun trace p hrun hconsistent => ?_, fun turns p es hexec => exec_turns hexec⟩
  have hknows := knows_of_run hsend hnodup hrun
  refine { notRaised := ?_, failed := ?_, goesOn := ?_ }
  · intro error hpoint
    simp only [Knows, hpoint] at hknows
  · intro hall success hpoint
    simp only [Knows, hpoint] at hknows
    by_contra hsuccess
    obtain ⟨id, hid⟩ := hknows (Bool.eq_true_of_not_eq_false hsuccess)
    obtain ⟨readyIds, hready, hlisted⟩ := hid.ready
    obtain ⟨verifying, status, hread, hsame, hfailure⟩ := hall readyIds hready id hlisted
    cases verifying with
    | false => exact hid.notFailed status hread hfailure hsame
    | true =>
      obtain ⟨ok, hok, hokid, hverified⟩ := hid.verified
      rw [hconsistent ok status hok hread (hokid.trans hsame.symm) hverified] at hfailure
      cases hfailure
  · intro hreturned t
    unfold Procedure.turn
    split
    case h_5 success hpoint => exact absurd hpoint (hreturned success)
    case h_6 error hpoint => simp only [Knows, hpoint] at hknows
    all_goals rfl

/-! ## Runs -/

/-- A STATUS of a tracker. -/
def statusFrom (trackerId : ℕ) (status : BitVec 8) (nextSeq : ℕ) : OtaReport :=
  ⟨[0xF4, .ofNat 8 trackerId, status] ++ be16Bytes (.ofNat 16 nextSeq) ++ List.replicate 11 0, rfl⟩

/-- A turn in time. -/
def turnWith (reports : List OtaReport) : Turn := ⟨0, 0, reports⟩

/-- Two packets for tracker 3. -/
def twoPackets : UpdateArgs := ⟨[3], ⟨List.replicate 100 0xAB, 0x1000, 0⟩, []⟩

instance (u : UpdateArgs) (p : Procedure) (t : Turn) : Decidable (Admitted u p t) :=
  decidable_of_iff ((p.polls u = true → ∃ id ∈ p.activeIds, ∀ status ∈ t.statuses,
      status.trackerId = id → isTerminal status.status = false) ∧
    (p.filling = true → u.firmware.data = [] → p.startTime < p.now + t.early))
    ⟨fun h => ⟨h.1, h.2⟩, fun h => ⟨h.left, h.elapsed⟩⟩

/-- The result, if there is one. -/
def Point.result : Point → Option (Except UpdateError Bool)
  | .returned success => some (.ok success)
  | .raised error => some (.error error)
  | _ => none

theorem Point.of_result {point : Point} {result : Except UpdateError Bool} (h : point.result = some result) :
    (∃ success, result = .ok success ∧ point = .returned success) ∨
      ∃ error, result = .error error ∧ point = .raised error := by
  cases point with
  | returned success => exact .inl ⟨success, (Option.some.inj h).symm, rfl⟩
  | raised error => exact .inr ⟨error, (Option.some.inj h).symm, rfl⟩
  | called => cases h
  | waiting awaited w => cases h
  | streaming => cases h
  | gapFill stallCount prevMinSeq gapTimeout => cases h

/-- An update that succeeds. -/
theorem update_reports_success :
    (Encodable twoPackets ∧ twoPackets.trackerIds.Nodup) ∧ ∃ trace p,
      (doUpdate twoPackets).RunWhere (Admitted twoPackets) trace p ∧ p.point = .returned true ∧
        Reported twoPackets trace p := by
  have hsend : Encodable twoPackets := by
    unfold Encodable
    decide +kernel
  have hnodup : twoPackets.trackerIds.Nodup := by decide
  let updates : EventSystem Procedure Turn HostEvent :=
    (doUpdate twoPackets).restrict fun p t => decide (Admitted twoPackets p t)
  obtain ⟨trace, p, hrun, htest⟩ := updates.exists_run_of_replay
    [turnWith [], turnWith [statusFrom 3 0x01 0], turnWith [], turnWith [statusFrom 3 0x02 2], turnWith [], turnWith [],
      turnWith [statusFrom 3 0x03 2], turnWith [], turnWith [statusFrom 3 0x06 2], turnWith []]
    (fun trace p => decide (p.point.result = some (.ok true)) && decide (trace = [.sentBegin 3, .ready [3],
      .sentData 3 0, .sentData 3 1, .status false ⟨3, 0x02, 2⟩, .sentVerify 3, .status true ⟨3, 0x03, 2⟩,
      .sentActivate 3, .sentAbort])) (by decide +kernel)
  obtain ⟨hpoint, htrace⟩ := Bool.and_eq_true_iff.mp htest
  have hwhere : (doUpdate twoPackets).RunWhere (Admitted twoPackets) trace p :=
    EventSystem.runWhere_of_restrict (fun p t => of_decide_eq_true) hrun
  have hconsistent : Consistent trace := by
    rw [of_decide_eq_true htrace]
    intro ok failure hok hfailure
    simp at hok hfailure
    subst hfailure
    exact fun _ _ => rfl
  refine ⟨⟨hsend, hnodup⟩, trace, p, hwhere, ?_, (update_reports hsend hnodup).1 trace p hwhere hconsistent⟩
  rcases Point.of_result (of_decide_eq_true hpoint) with ⟨success, hsuccess, hend⟩ | ⟨error, herror, _⟩
  · rw [hend, Except.ok.inj hsuccess]
  · cases herror

/-- The last tracker reports a failure while gap-fill waits for it: `min` is asked for the minimum of nothing. -/
theorem last_failure_raises : ¬ ∀ trace p, (doUpdate twoPackets).Run trace p → Reported twoPackets trace p := by
  intro hall
  obtain ⟨trace, p, hrun, htest⟩ := (doUpdate twoPackets).exists_run_of_replay
    [turnWith [], turnWith [statusFrom 3 0x01 0], turnWith [], turnWith [], turnWith [], turnWith [statusFrom 3 0x12 1]]
    (fun _ p => decide (p.point.result = some (.error .emptyMin))) (by decide +kernel)
  rcases Point.of_result (of_decide_eq_true htest) with ⟨success, hsuccess, _⟩ | ⟨error, _, hend⟩
  · cases hsuccess
  · exact (hall trace p hrun).notRaised error hend

end SlimeReceiver.Ota
