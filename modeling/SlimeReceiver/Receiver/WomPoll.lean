import SlimeReceiver.Library.EventSystem
import SlimeReceiver.Link.Wom

/-! # The WOM poll

`remote_wom_poll` of `rcv_cmd.c`, which the delayed work runs until every tracker of a WOM command is reported.
The poll takes one step for every tracker; between its steps anything may happen to the receiver.

* **`WomPoll`**, **`womPollStep`**, **`womPollSystem`** — a command with its masks, and where the poll is.
* **`remoteWomBegin`** — what starts a command.
* **`Armed`** — a command that is started and not yet polled.
* **`wom_poll_reports_once`** — one result for every tracker, then one summary. -/

namespace SlimeReceiver

open Receiver (womRequestValid targetAll)

/-! ## The code -/

/-- `REMOTE_HID_CONFIRM_TIMEOUT_MS`. -/
def remoteHidConfirmTimeoutMs : ℕ := 5000
/-- `ETIMEDOUT` of the firmware's C library. -/
def etimedout : BitVec 16 := 116

/-- The statuses a summary has. -/
inductive WomStatus
  | ok
  | enoent
  deriving DecidableEq, Repr

/-- The local variables of `remote_wom_poll`, about to look at tracker `id`. -/
structure PollPass where
  expected : TrackerMask
  confirmed : TrackerMask
  expired : Bool
  id : ℕ

/-- The static variables of a remote command, with the receiver, the uptime, the delayed work and the poll it
runs. -/
structure WomPoll where
  receiver : Receiver
  now : ℕ
  pending : Bool
  /-- `remote_hid_job` is `REMOTE_HID_JOB_WOM_COMMAND`. -/
  womJob : Bool
  expected : TrackerMask
  confirmed : TrackerMask
  failed : TrackerMask
  token : BitVec 16
  console : Bool
  deadline : ℕ
  scheduled : Bool
  pass : Option PollPass

/-- The visible events. -/
inductive WomPollEvent
  /-- `remote_wom_result`, to the console or the host. -/
  | result (console : Bool) (id : ℕ) (minutes error : BitVec 16)
  | summary (console : Bool) (status : WomStatus) (token : BitVec 16) (confirmed failed : TrackerMask)
  /-- A poll has returned; when it began the deadline had or had not passed. -/
  | polled (expired : Bool)
  /-- `remote_hid_finish` of another command. -/
  | confirmTimeout
  deriving DecidableEq

/-- The steps. -/
inductive WomPollOp
  /-- Something happened to the receiver. -/
  | other (receiver : Receiver)
  | elapse (ms : ℕ)
  /-- The delayed work runs. -/
  | start
  /-- The poll looks at the next tracker. -/
  | visit
  /-- The poll has looked at every tracker. -/
  | finish

/-- `remote_wom_begin` with the job it submits, up to the first schedule of the delayed work; `none` where it is
refused or no tracker is addressed by its number. -/
def remoteWomBegin (target : ℕ) (minutes : BitVec 16) (console : Bool) (scanStart : ℕ) (s : WomPoll) : Option WomPoll :=
  if !womRequestValid target minutes then none
  else if s.pending then none
  else
    let (receiver, mask, token) := s.receiver.womRequest target minutes scanStart
    if target ≠ targetAll ∧ mask = 0 then none
    else some { s with
      receiver := receiver
      pending := true
      womJob := true
      expected := mask
      confirmed := 0
      failed := 0
      token := token
      console := console
      deadline := s.now + remoteHidConfirmTimeoutMs
      scheduled := true }

/-- A pass of the loop of `remote_wom_poll`. -/
def visitTracker (s : WomPoll) (pass : PollPass) : WomPoll × List WomPollEvent :=
  let next := { pass with id := pass.id + 1 }
  if !hasBit pass.expected pass.id || hasBit (pass.confirmed ||| s.failed) pass.id then
    ({ s with pass := some next }, [])
  else
    let (receiver, result) := s.receiver.womResult pass.id s.token
    let s := { s with receiver := receiver }
    match (if result.isNone && pass.expired then some (0, etimedout) else result) with
    | none => ({ s with pass := some next }, [])
    | some (minutes, error) =>
      if error ≠ 0 then
        ({ s with failed := setBit s.failed pass.id, pass := some next }, [.result s.console pass.id minutes error])
      else
        ({ s with pass := some { next with confirmed := setBit pass.confirmed pass.id } },
          [.result s.console pass.id minutes error])

/-- `remote_wom_poll` after its loop. -/
def finishPoll (s : WomPoll) (pass : PollPass) : WomPoll × List WomPollEvent :=
  let s := { s with confirmed := pass.confirmed, pass := none }
  if pass.confirmed ||| s.failed ≠ pass.expected then ({ s with scheduled := true }, [.polled pass.expired])
  else
    let status := if s.failed ≠ 0 ∨ pass.expected = 0 then WomStatus.enoent else WomStatus.ok
    ({ s with receiver := s.receiver.womCancel pass.expected s.token, womJob := false, pending := false },
      [.summary s.console status s.token pass.confirmed s.failed, .polled pass.expired])

/-- One step. -/
def womPollStep (s : WomPoll) : WomPollOp → Option (WomPoll × List WomPollEvent)
  | .other receiver => some ({ s with receiver := receiver }, [])
  | .elapse ms => some ({ s with now := s.now + ms }, [])
  | .start =>
    if s.scheduled ∧ s.pass.isNone then
      let s := { s with scheduled := false }
      if !s.pending then some (s, [])
      else if s.womJob then some ({ s with pass := some ⟨s.expected, s.confirmed, decide (s.deadline ≤ s.now), 0⟩ }, [])
      else some ({ s with pending := false }, [.confirmTimeout])
    else none
  | .visit =>
    match s.pass with
    | some pass => if pass.id < maxTrackers then some (visitTracker s pass) else none
    | none => none
  | .finish =>
    match s.pass with
    | some pass => if pass.id < maxTrackers then none else some (finishPoll s pass)
    | none => none

/-- The steps from a state on. -/
def womPollSystem (start : WomPoll) : EventSystem WomPoll WomPollOp WomPollEvent where
  init := start
  step := womPollStep

/-! ## Histories -/

/-- The results, in order. -/
def womResults (trace : List WomPollEvent) : List (ℕ × BitVec 16) :=
  trace.filterMap fun e => match e with
    | .result _ id _ error => some (id, error)
    | _ => none

/-- The trackers with a result, in order. -/
def reportedTrackers (trace : List WomPollEvent) : List ℕ := (womResults trace).map Prod.fst

/-- A summary: its status, token and masks. -/
structure WomSummary where
  status : WomStatus
  token : BitVec 16
  confirmed : TrackerMask
  failed : TrackerMask

/-- The summaries, in order. -/
def womSummaries (trace : List WomPollEvent) : List WomSummary :=
  trace.filterMap fun e => match e with
    | .summary _ status token confirmed failed => some ⟨status, token, confirmed, failed⟩
    | _ => none

/-- A WOM command for the trackers of a mask has started and is not yet polled. -/
structure Armed (mask : TrackerMask) (s : WomPoll) : Prop where
  pending : s.pending = true
  womJob : s.womJob = true
  expected : s.expected = mask
  confirmed : s.confirmed = 0
  failed : s.failed = 0
  scheduled : s.scheduled = true
  pass : s.pass = none
  members : ∀ id, hasBit mask id = true → id < maxTrackers

/-- A started command is armed for the trackers it was sent to. -/
theorem armed_of_begin {target : ℕ} {minutes : BitVec 16} {console : Bool} {scanStart : ℕ} {s s' : WomPoll}
    (hpass : s.pass = none) (h : remoteWomBegin target minutes console scanStart s = some s') :
    Armed s'.expected s' := by
  have hmembers : ∀ id, hasBit (s.receiver.womRequest target minutes scanStart).2.1 id = true → id < maxTrackers := by
    intro id hid
    unfold Receiver.womRequest at hid
    split at hid
    · exact absurd hid (by simp)
    · split at hid
      · exact absurd hid (by simp)
      · dsimp only at hid
        rw [Receiver.womTargets, hasBit_maskBelow (by decide), Bool.and_eq_true, decide_eq_true_eq] at hid
        exact hid.1
  unfold remoteWomBegin at h
  split at h
  case isTrue => cases h
  case isFalse =>
    split at h
    case isTrue => cases h
    case isFalse =>
      split at h
      case h_1 receiver mask token heq =>
        rw [heq] at hmembers
        split at h
        case isTrue => cases h
        case isFalse =>
          obtain rfl := Option.some.inj h
          exact ⟨rfl, rfl, rfl, rfl, rfl, rfl, hpass, hmembers⟩

/-! ## The invariant -/

/-- The trackers confirmed so far: the poll's own mask while it runs. -/
def WomPoll.confirmedSoFar (s : WomPoll) : TrackerMask :=
  match s.pass with
  | some pass => pass.confirmed
  | none => s.confirmed

/-- What the results of a command say. -/
structure ResultsOk (mask confirmed failed : TrackerMask) (results : List (ℕ × BitVec 16)) : Prop where
  once : (results.map Prod.fst).Nodup
  member : ∀ id error, (id, error) ∈ results → hasBit mask id = true
  confirmed_iff : ∀ id, hasBit confirmed id = true ↔ (id, 0) ∈ results
  failed_iff : ∀ id, hasBit failed id = true ↔ ∃ error, error ≠ 0 ∧ (id, error) ∈ results

/-- A summary tells the results. -/
def SummaryOk (mask : TrackerMask) (token : BitVec 16) (results : List (ℕ × BitVec 16)) (summary : WomSummary) : Prop :=
  ResultsOk mask summary.confirmed summary.failed results ∧ summary.confirmed ||| summary.failed = mask ∧
    summary.token = token ∧ (summary.status = .ok ↔ summary.failed = 0 ∧ mask ≠ 0)

/-- What holds after every step. -/
structure PollInvariant (mask : TrackerMask) (token : BitVec 16) (trace : List WomPollEvent) (s : WomPoll) : Prop where
  expected : s.expected = mask
  token_eq : s.token = token
  results : ResultsOk mask s.confirmedSoFar s.failed (womResults trace)
  pass : ∀ pass, s.pass = some pass → pass.expected = mask ∧ s.pending = true ∧ (pass.expired = true →
    ∀ id, id < pass.id → hasBit mask id = true → id ∈ reportedTrackers trace)
  open_ : s.pending = true → s.womJob = true ∧ womSummaries trace = [] ∧ (s.scheduled = true ∨ s.pass.isSome) ∧
    .polled true ∉ trace
  closed : s.pending = false → s.pass = none ∧
    ∃ summary, womSummaries trace = [summary] ∧ SummaryOk mask token (womResults trace) summary

section Results

variable {mask confirmed failed : TrackerMask} {results : List (ℕ × BitVec 16)} {id : ℕ} {error : BitVec 16}

/-- The trackers with a result are those confirmed or failed. -/
theorem ResultsOk.mem_iff (h : ResultsOk mask confirmed failed results) (id : ℕ) :
    id ∈ results.map Prod.fst ↔ hasBit (confirmed ||| failed) id = true := by
  rw [hasBit_or, Bool.or_eq_true, h.confirmed_iff, h.failed_iff, List.mem_map]
  constructor
  · rintro ⟨⟨_, error⟩, hmem, rfl⟩
    by_cases hzero : error = 0
    · subst hzero
      exact .inl hmem
    · exact .inr ⟨error, hzero, hmem⟩
  · rintro (hmem | ⟨error, -, hmem⟩)
    · exact ⟨_, hmem, rfl⟩
    · exact ⟨_, hmem, rfl⟩

/-- A tracker is not both confirmed and failed. -/
theorem ResultsOk.disjoint (h : ResultsOk mask confirmed failed results) : confirmed &&& failed = 0 := by
  refine mask_eq_zero_iff.mpr fun id => ?_
  rw [hasBit_and, Bool.and_eq_false_iff, ← Bool.not_eq_true, ← Bool.not_eq_true, h.confirmed_iff, h.failed_iff]
  by_contra hboth
  push Not at hboth
  obtain ⟨hconfirmed, error, hne, hfailed⟩ := hboth
  exact hne (congrArg Prod.snd (List.inj_on_of_nodup_map h.once hfailed hconfirmed rfl))

/-- A result of a tracker that has none. -/
theorem ResultsOk.report (h : ResultsOk mask confirmed failed results) (hid : hasBit mask id = true)
    (hnew : hasBit (confirmed ||| failed) id = false) (error : BitVec 16) :
    ResultsOk mask (if error = 0 then setBit confirmed id else confirmed)
      (if error = 0 then failed else setBit failed id) (results ++ [(id, error)]) := by
  have hfresh : id ∉ results.map Prod.fst := by
    rw [h.mem_iff, hnew]
    exact Bool.false_ne_true
  have hlt : id < 32 := lt_of_hasBit hid
  constructor
  · rw [List.map_append, List.nodup_append]
    refine ⟨h.once, List.nodup_singleton _, ?_⟩
    rintro a ha b hb rfl
    obtain rfl : a = id := List.mem_singleton.mp hb
    exact hfresh ha
  · intro id' error' hmem
    rcases List.mem_append.mp hmem with hold | hlast
    · exact h.member _ _ hold
    · obtain ⟨rfl, -⟩ := Prod.mk.inj (List.mem_singleton.mp hlast)
      exact hid
  · intro id'
    rw [List.mem_append, List.mem_singleton, Prod.mk.injEq, ← h.confirmed_iff]
    by_cases hzero : error = 0
    · rw [if_pos hzero, hasBit_setBit, decide_eq_true hlt, Bool.true_and, Bool.or_eq_true, decide_eq_true_eq]
      constructor
      · rintro (hold | rfl)
        · exact .inl hold
        · exact .inr ⟨rfl, hzero.symm⟩
      · rintro (hold | ⟨rfl, -⟩)
        · exact .inl hold
        · exact .inr rfl
    · rw [if_neg hzero]
      exact ⟨.inl, fun hor => hor.resolve_right fun hlast => hzero hlast.2.symm⟩
  · intro id'
    by_cases hzero : error = 0
    · rw [if_pos hzero, h.failed_iff]
      constructor
      · rintro ⟨error', hne, hmem⟩
        exact ⟨error', hne, List.mem_append_left _ hmem⟩
      · rintro ⟨error', hne, hmem⟩
        rcases List.mem_append.mp hmem with hold | hlast
        · exact ⟨error', hne, hold⟩
        · exact absurd ((Prod.mk.inj (List.mem_singleton.mp hlast)).2.trans hzero) hne
    · rw [if_neg hzero, hasBit_setBit, decide_eq_true hlt, Bool.true_and, Bool.or_eq_true, decide_eq_true_eq,
        h.failed_iff]
      constructor
      · rintro (⟨error', hne, hmem⟩ | rfl)
        · exact ⟨error', hne, List.mem_append_left _ hmem⟩
        · exact ⟨error, hzero, List.mem_append_right _ (List.mem_singleton.mpr rfl)⟩
      · rintro ⟨error', hne, hmem⟩
        rcases List.mem_append.mp hmem with hold | hlast
        · exact .inl ⟨error', hne, hold⟩
        · exact .inr (Prod.mk.inj (List.mem_singleton.mp hlast)).1.symm

end Results

section Steps

variable {mask : TrackerMask} {token : BitVec 16} {trace : List WomPollEvent} {s s' : WomPoll}
  {es : List WomPollEvent} {pass : PollPass}

theorem womResults_append (trace es : List WomPollEvent) :
    womResults (trace ++ es) = womResults trace ++ womResults es := List.filterMap_append

theorem womSummaries_append (trace es : List WomPollEvent) :
    womSummaries (trace ++ es) = womSummaries trace ++ womSummaries es := List.filterMap_append

theorem Armed.invariant (h : Armed mask s) : PollInvariant mask s.token [] s where
  expected := h.expected
  token_eq := rfl
  results := by
    have hconfirmed : s.confirmedSoFar = 0 := by rw [WomPoll.confirmedSoFar, h.pass]; exact h.confirmed
    have hempty : ∀ id, hasBit (0 : TrackerMask) id = false := hasBit_zero
    rw [hconfirmed, h.failed]
    refine ⟨List.nodup_nil, fun _ _ hmem => (by cases hmem), fun id => ?_, fun id => ?_⟩
    · rw [hempty]
      exact ⟨fun hbit => (by cases hbit), fun hmem => (by cases hmem)⟩
    · rw [hempty]
      exact ⟨fun hbit => (by cases hbit), fun ⟨_, _, hmem⟩ => (by cases hmem)⟩
  pass := fun _ hpass => by
    rw [h.pass] at hpass
    cases hpass
  open_ := fun _ => ⟨h.womJob, rfl, .inl h.scheduled, fun hmem => by cases hmem⟩
  closed := fun hclosed => by
    rw [h.pending] at hclosed
    cases hclosed

/-- A change of what the poll does not look at. -/
theorem PollInvariant.frame (h : PollInvariant mask token trace s) (receiver : Receiver) (now : ℕ) :
    PollInvariant mask token (trace ++ []) { s with receiver := receiver, now := now } := by
  rw [List.append_nil]
  exact ⟨h.expected, h.token_eq, h.results, h.pass, h.open_, h.closed⟩

/-- The poll passes over a tracker that is not expected, has its result, or has none yet before the deadline. -/
theorem PollInvariant.skip (h : PollInvariant mask token trace s) (hpass : s.pass = some pass) (receiver : Receiver)
    (hskip : pass.expired = true → hasBit mask pass.id = true → pass.id ∈ reportedTrackers trace) :
    PollInvariant mask token (trace ++ [])
      { s with receiver := receiver, pass := some { pass with id := pass.id + 1 } } := by
  obtain ⟨hexpected, hpending, hdone⟩ := h.pass pass hpass
  obtain ⟨hjob, hsummaries, -, hpolled⟩ := h.open_ hpending
  have hresults := h.results
  rw [WomPoll.confirmedSoFar, hpass] at hresults
  rw [List.append_nil]
  refine ⟨h.expected, h.token_eq, hresults, ?_, fun _ => ⟨hjob, hsummaries, .inr rfl, hpolled⟩, fun hclosed => ?_⟩
  · intro pass' heq
    obtain rfl := Option.some.inj heq
    refine ⟨hexpected, hpending, fun hexpired id hid hmember => ?_⟩
    rcases Nat.lt_succ_iff_lt_or_eq.mp hid with hbefore | rfl
    · exact hdone hexpired id hbefore hmember
    · exact hskip hexpired hmember
  · rw [show s.pending = false from hclosed] at hpending
    cases hpending

/-- The poll reports a tracker. -/
theorem PollInvariant.report (h : PollInvariant mask token trace s) (hpass : s.pass = some pass) (receiver : Receiver)
    {minutes error : BitVec 16} {confirmed failed : TrackerMask} (hmember : hasBit mask pass.id = true)
    (hnew : hasBit (pass.confirmed ||| s.failed) pass.id = false)
    (hconfirmed : confirmed = if error = 0 then setBit pass.confirmed pass.id else pass.confirmed)
    (hfailed : failed = if error = 0 then s.failed else setBit s.failed pass.id) :
    PollInvariant mask token (trace ++ [WomPollEvent.result s.console pass.id minutes error])
      { s with
        receiver := receiver
        failed := failed
        pass := some { pass with
          confirmed := confirmed
          id := pass.id + 1 } } := by
  obtain ⟨hexpected, hpending, hdone⟩ := h.pass pass hpass
  obtain ⟨hjob, hsummaries, -, hpolled⟩ := h.open_ hpending
  have hresults := h.results
  rw [WomPoll.confirmedSoFar, hpass] at hresults
  have hnext := hresults.report hmember hnew error
  rw [← hconfirmed, ← hfailed] at hnext
  have happend : womResults (trace ++ [WomPollEvent.result s.console pass.id minutes error]) =
      womResults trace ++ [(pass.id, error)] := womResults_append _ _
  refine ⟨h.expected, h.token_eq, by rw [happend]; exact hnext, ?_, fun _ => ⟨hjob, ?_, .inr rfl, ?_⟩,
    fun hclosed => ?_⟩
  · intro pass' heq
    obtain rfl := Option.some.inj heq
    refine ⟨hexpected, hpending, fun hexpired id hid hmask => ?_⟩
    rw [reportedTrackers, happend, List.map_append, List.mem_append]
    rcases Nat.lt_succ_iff_lt_or_eq.mp hid with hbefore | rfl
    · exact .inl (hdone hexpired id hbefore hmask)
    · exact .inr (List.mem_singleton.mpr rfl)
  · rw [womSummaries_append, hsummaries]
    rfl
  · intro hmem
    rcases List.mem_append.mp hmem with hold | hlast
    · exact hpolled hold
    · cases List.mem_singleton.mp hlast
  · rw [show s.pending = false from hclosed] at hpending
    cases hpending

/-- A visit of the poll. -/
theorem PollInvariant.visit (h : PollInvariant mask token trace s) (hpass : s.pass = some pass) :
    PollInvariant mask token (trace ++ (visitTracker s pass).2) (visitTracker s pass).1 := by
  obtain ⟨hexpected, -, -⟩ := h.pass pass hpass
  have hresults := h.results
  rw [WomPoll.confirmedSoFar, hpass] at hresults
  unfold visitTracker
  dsimp only
  split
  case isTrue hpassed =>
    refine h.skip hpass s.receiver fun _ hmember => ?_
    rw [Bool.or_eq_true, Bool.not_eq_true', hexpected, hmember] at hpassed
    rw [reportedTrackers, hresults.mem_iff]
    exact hpassed.resolve_left fun hfalse => (by cases hfalse)
  case isFalse hopen =>
    rw [Bool.or_eq_true, not_or, Bool.not_eq_true', Bool.not_eq_false, Bool.not_eq_true, hexpected] at hopen
    obtain ⟨hmember, hnew⟩ := hopen
    split
    case h_1 hnone =>
      refine h.skip hpass _ fun hexpired _ => ?_
      rw [hexpired] at hnone
      cases hresult : (s.receiver.womResult pass.id s.token).2 with
      | none =>
        rw [hresult] at hnone
        cases hnone
      | some _ =>
        rw [hresult] at hnone
        cases hnone
    case h_2 minutes error _ =>
      split
      case isTrue hne => exact h.report hpass _ hmember hnew (if_neg hne).symm (if_neg hne).symm
      case isFalse hzero =>
        rw [not_not] at hzero
        exact h.report hpass _ hmember hnew (if_pos hzero).symm (if_pos hzero).symm

/-- The summary is sent. -/
theorem PollInvariant.close (h : PollInvariant mask token trace s) (hpass : s.pass = some pass)
    (hall : pass.confirmed ||| s.failed = mask) {status : WomStatus}
    (hstatus : status = .ok ↔ s.failed = 0 ∧ mask ≠ 0) (receiver : Receiver) :
    PollInvariant mask token
      (trace ++ [WomPollEvent.summary s.console status s.token pass.confirmed s.failed, .polled pass.expired])
      { s with
        receiver := receiver
        womJob := false
        pending := false
        confirmed := pass.confirmed
        pass := none } := by
  obtain ⟨-, hpending, -⟩ := h.pass pass hpass
  obtain ⟨-, hsummaries, -, -⟩ := h.open_ hpending
  have hresults := h.results
  rw [WomPoll.confirmedSoFar, hpass] at hresults
  have happend : womResults (trace ++ [WomPollEvent.summary s.console status s.token pass.confirmed s.failed,
      .polled pass.expired]) = womResults trace := (womResults_append _ _).trans (List.append_nil _)
  refine ⟨h.expected, h.token_eq, by rw [happend]; exact hresults, fun _ hnone => (by cases hnone),
    fun hopen => (by cases hopen), fun _ => ⟨rfl, ⟨status, s.token, pass.confirmed, s.failed⟩, ?_, ?_⟩⟩
  · rw [womSummaries_append, hsummaries]
    rfl
  · rw [happend]
    exact ⟨hresults, hall, h.token_eq, hstatus⟩

/-- The end of a poll. -/
theorem PollInvariant.finish (h : PollInvariant mask token trace s) (hpass : s.pass = some pass)
    (hid : maxTrackers ≤ pass.id) (hmembers : ∀ id, hasBit mask id = true → id < maxTrackers) :
    PollInvariant mask token (trace ++ (finishPoll s pass).2) (finishPoll s pass).1 := by
  obtain ⟨hexpected, hpending, hdone⟩ := h.pass pass hpass
  obtain ⟨hjob, hsummaries, -, hpolled⟩ := h.open_ hpending
  have hresults := h.results
  rw [WomPoll.confirmedSoFar, hpass] at hresults
  unfold finishPoll
  dsimp only
  split
  case isTrue hmissing =>
    have happend : womResults (trace ++ [WomPollEvent.polled pass.expired]) = womResults trace :=
      (womResults_append _ _).trans (List.append_nil _)
    refine ⟨h.expected, h.token_eq, by rw [happend]; exact hresults, fun _ hnone => (by cases hnone),
      fun _ => ⟨hjob, ?_, .inl rfl, fun hmem => ?_⟩, fun hclosed => ?_⟩
    · exact (womSummaries_append _ _).trans ((List.append_nil _).trans hsummaries)
    · rcases List.mem_append.mp hmem with hold | hlast
      · exact hpolled hold
      · -- a poll after the deadline has a result for every tracker
        have hexpired : pass.expired = true := (WomPollEvent.polled.inj (List.mem_singleton.mp hlast)).symm
        refine hmissing (hexpected ▸ mask_ext fun id => ?_)
        rw [Bool.eq_iff_iff, ← hresults.mem_iff]
        constructor
        · intro hreported
          obtain ⟨⟨_, error⟩, hmem, rfl⟩ := List.mem_map.mp hreported
          exact hresults.member _ _ hmem
        · exact fun hmember => hdone hexpired id (Nat.lt_of_lt_of_le (hmembers id hmember) hid) hmember
    · rw [show s.pending = false from hclosed] at hpending
      cases hpending
  case isFalse hall =>
    rw [not_not, hexpected] at hall
    refine h.close hpass hall ?_ _
    rw [hexpected]
    split
    case isTrue hbad =>
      refine ⟨fun hstatus => (by cases hstatus), fun hgood => ?_⟩
      exact absurd hgood.2 (not_not.mpr (hbad.resolve_left (not_not.mpr hgood.1)))
    case isFalse hgood =>
      rw [not_or, not_not] at hgood
      exact ⟨fun _ => hgood, fun _ => rfl⟩

/-- A step of a command. -/
theorem PollInvariant.step (h : PollInvariant mask token trace s)
    (hmembers : ∀ id, hasBit mask id = true → id < maxTrackers) {op : WomPollOp}
    (hstep : womPollStep s op = some (s', es)) : PollInvariant mask token (trace ++ es) s' := by
  cases op with
  | other receiver =>
    obtain ⟨rfl, rfl⟩ := Prod.mk.inj (Option.some.inj hstep)
    exact h.frame receiver s.now
  | elapse ms =>
    obtain ⟨rfl, rfl⟩ := Prod.mk.inj (Option.some.inj hstep)
    exact h.frame s.receiver (s.now + ms)
  | start =>
    simp only [womPollStep] at hstep
    split at hstep
    case isFalse => cases hstep
    case isTrue hready =>
      have hnone : s.pass = none := Option.isNone_iff_eq_none.mp hready.2
      cases hpending : s.pending with
      | false =>
        rw [hpending] at hstep
        obtain ⟨rfl, rfl⟩ := Prod.mk.inj (Option.some.inj hstep)
        rw [List.append_nil]
        refine ⟨h.expected, h.token_eq, h.results, fun pass heq => ?_, fun hopen => (by cases hopen),
          fun _ => h.closed hpending⟩
        cases hnone.symm.trans heq
      | true =>
        obtain ⟨hjob, hsummaries, -, hpolled⟩ := h.open_ hpending
        rw [hpending, hjob] at hstep
        obtain ⟨rfl, rfl⟩ := Prod.mk.inj (Option.some.inj hstep)
        have hresults := h.results
        rw [WomPoll.confirmedSoFar, hnone] at hresults
        rw [List.append_nil]
        refine ⟨h.expected, h.token_eq, hresults, fun pass heq => ?_, fun _ => ⟨rfl, hsummaries, .inr rfl, hpolled⟩,
          fun hclosed => (by cases hclosed)⟩
        obtain rfl := Option.some.inj heq
        exact ⟨h.expected, rfl, fun _ id hid => absurd hid (Nat.not_lt_zero id)⟩
  | visit =>
    simp only [womPollStep] at hstep
    split at hstep
    case h_1 pass hpass =>
      split at hstep
      case isTrue =>
        obtain ⟨rfl, rfl⟩ := Prod.mk.inj (Option.some.inj hstep)
        exact h.visit hpass
      case isFalse => cases hstep
    case h_2 => cases hstep
  | finish =>
    simp only [womPollStep] at hstep
    split at hstep
    case h_1 pass hpass =>
      split at hstep
      case isTrue => cases hstep
      case isFalse hid =>
        obtain ⟨rfl, rfl⟩ := Prod.mk.inj (Option.some.inj hstep)
        exact h.finish hpass (not_lt.mp hid) hmembers
    case h_2 => cases hstep

end Steps

section Runs

variable {mask : TrackerMask} {start s : WomPoll} {trace : List WomPollEvent}

theorem poll_invariant (harmed : Armed mask start) (h : (womPollSystem start).Run trace s) :
    PollInvariant mask start.token trace s := by
  induction h with
  | start => exact harmed.invariant
  | snoc _ _ htaken ih => exact ih.step harmed.members htaken

/-- However the trackers answer and whenever the poll runs: a tracker has at most one result and no other tracker has
any; when the summary is sent every tracker has one, and the summary tells them; the summary is sent once, at the
latest by a poll that begins after the deadline; and until then the poll runs or is scheduled. -/
theorem wom_poll_reports_once (harmed : Armed mask start) (h : (womPollSystem start).Run trace s) :
    (reportedTrackers trace).Nodup ∧ (∀ id ∈ reportedTrackers trace, hasBit mask id = true) ∧
    (womSummaries trace).length ≤ 1 ∧
    (∀ summary ∈ womSummaries trace,
      (∀ id, hasBit mask id = true → (reportedTrackers trace).count id = 1) ∧
      (∀ id, hasBit summary.confirmed id = true ↔ (id, 0) ∈ womResults trace) ∧
      summary.confirmed &&& summary.failed = 0 ∧ summary.confirmed ||| summary.failed = mask ∧
      summary.token = start.token ∧ (summary.status = .ok ↔ summary.failed = 0 ∧ mask ≠ 0)) ∧
    (.polled true ∈ trace → (womSummaries trace).length = 1) ∧
    (womSummaries trace = [] → s.scheduled = true ∨ s.pass.isSome) := by
  have hinv := poll_invariant harmed h
  have hmember : ∀ id ∈ reportedTrackers trace, hasBit mask id = true := by
    intro id hid
    obtain ⟨⟨_, error⟩, hmem, rfl⟩ := List.mem_map.mp hid
    exact hinv.results.member _ _ hmem
  cases hpending : s.pending with
  | true =>
    obtain ⟨-, hnone, hscheduled, hpolled⟩ := hinv.open_ hpending
    refine ⟨hinv.results.once, hmember, by rw [hnone]; exact Nat.zero_le 1, ?_, fun hmem => absurd hmem hpolled,
      fun _ => hscheduled⟩
    rw [hnone]
    exact fun _ hmem => (by cases hmem)
  | false =>
    obtain ⟨-, summary, hone, hresults, hunion, htoken, hstatus⟩ := hinv.closed hpending
    refine ⟨hinv.results.once, hmember, by rw [hone]; exact Nat.le_refl 1, ?_, fun _ => by rw [hone]; rfl, ?_⟩
    · rw [hone]
      intro summary' hmem
      obtain rfl := List.mem_singleton.mp hmem
      refine ⟨fun id hid => ?_, hresults.confirmed_iff, hresults.disjoint, hunion, htoken, hstatus⟩
      refine List.count_eq_one_of_mem hinv.results.once ?_
      rw [reportedTrackers, hresults.mem_iff, hunion]
      exact hid
    · rw [hone]
      exact fun hempty => (by cases hempty)

end Runs

/-- Trackers 0 and 1 are asked to sleep after 30 minutes. -/
def askedTwo : WomPoll where
  receiver := Receiver.init.issueWom 3 30
  now := 0
  pending := true
  womJob := true
  expected := 3
  confirmed := 0
  failed := 0
  token := 1
  console := false
  deadline := remoteHidConfirmTimeoutMs
  scheduled := true
  pass := none

/-- The receiver once tracker 0 has confirmed. -/
def confirmedZero : Receiver :=
  let r := Receiver.init.issueWom 3 30
  { r with wom := Function.update r.wom 0 { r.wom 0 with womComplete := true } }

/-- A poll from its start to its end. -/
def wholePoll : List WomPollOp := .start :: (List.replicate 16 WomPollOp.visit ++ [WomPollOp.finish])

/-- Tracker 0 confirms, tracker 1 does not answer. -/
theorem wom_poll_reports_once_two : ∃ trace s, (womPollSystem askedTwo).Run trace s ∧
    trace = [.result false 0 30 0, .polled false, .result false 1 0 etimedout, .summary false .enoent 1 1 2,
      .polled true] ∧ (reportedTrackers trace).Nodup ∧ (womSummaries trace).length = 1 := by
  have harmed : Armed 3 askedTwo := by
    refine ⟨rfl, rfl, rfl, rfl, rfl, rfl, rfl, fun id hid => ?_⟩
    by_contra hlarge
    have hlt : id < 32 := lt_of_hasBit hid
    have hnone : ∀ id : Fin 32, ¬ id.val < maxTrackers → hasBit (3 : TrackerMask) id.val = false := by decide
    rw [hnone ⟨id, hlt⟩ hlarge] at hid
    cases hid
  obtain ⟨trace, s, hrun, htest⟩ := (womPollSystem askedTwo).exists_run_of_replay
    (.other confirmedZero :: wholePoll ++ .elapse 5000 :: wholePoll)
    (fun trace _ => decide (trace = [.result false 0 30 0, .polled false, .result false 1 0 etimedout,
      .summary false .enoent 1 1 2, .polled true])) (by decide +kernel)
  have htrace := of_decide_eq_true htest
  obtain ⟨honce, -, -, -, hexpired, -⟩ := wom_poll_reports_once harmed hrun
  refine ⟨trace, s, hrun, htrace, honce, hexpired ?_⟩
  rw [htrace]
  decide

end SlimeReceiver
