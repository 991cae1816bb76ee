import SlimeReceiver.Collect.Calibration
import SlimeReceiver.Collect.Reorder

/-! # A capture of several trackers

`collect_hid` of `data_collect_hid.py` with `--batch`: every report goes to the state of its tracker, which is made when
the tracker is first heard of, and every two seconds a line of status is printed about all of them.

* **`CaptureState`**, **`acceptRaw`**, **`finalize`** — a `_CollectorState`.
* **`Capture`**, **`step`**, **`run`** — the loop.
* **`conserved`** — what the reorderer accepted is written or waits.
* **`StateHolds`**, **`StateHolds.acceptRaw`** — a tracker's state.
* **`TicksSafe`** — the trackers the detailed status line is about have been there for a tick.
* **`batch_capture`** — every sequence of reports. -/

namespace SlimeReceiver

open Function (update update_self update_of_ne)

namespace BatchCapture

open Calibration (SensorMetadata CalibrationData)
open Reorder (Sample SampleReorder ReorderEvent Settled)

/-! ## The state of a tracker -/

/-- `data_mode`. -/
inductive DataMode
  | raw
  | gyrQuat
  deriving DecidableEq

/-- A parsed sample but its sequence number: the mode tells whether the dictionary has `gyro` or `gyr_quat`, and the
other values are read from the payload. -/
structure SampleBody where
  mode : DataMode
  payload : List (BitVec 8)
  deriving DecidableEq

/-- A line of the CSV file. -/
structure CsvLine where
  sample : Sample SampleBody
  discontinuity : Bool

/-- How an iteration of the loop ends. -/
inductive Outcome
  /-- Nothing ends; a sample was accepted or not. -/
  | goesOn (accepted : Bool)
  /-- The duration is over, or the user stops the capture. -/
  | ended
  /-- The `ValueError` of `ensure_csv`. -/
  | refused
  /-- Any other exception. -/
  | crashed
  deriving DecidableEq

/-- The fields of a `_CollectorState`; the CSV file is what was written to it. -/
structure CaptureState where
  metadata : SensorMetadata
  cal : CalibrationData
  firstSampleTime : Option ℤ
  frameCount : ℕ
  sampleCount : ℕ
  reorder : SampleReorder SampleBody (List (BitVec 8))
  metaWritten : Bool
  rawSeen : Bool
  csvOpen : Bool
  csv : List CsvLine
  dataMode : DataMode
  /-- The attribute `last_status_samples`, which `__init__` does not set. -/
  lastStatusSamples : Option ℕ
  /-- What the reorderer did. -/
  trace : List (ReorderEvent SampleBody (List (BitVec 8)))

namespace CaptureState

/-- `__init__`. -/
def init : CaptureState where
  metadata := ⟨false, 0⟩
  cal := .init
  firstSampleTime := none
  frameCount := 0
  sampleCount := 0
  reorder := .init
  metaWritten := false
  rawSeen := false
  csvOpen := false
  csv := []
  dataMode := .raw
  lastStatusSamples := none
  trace := []

variable (s : CaptureState)

/-- `_open_csv`: the file is empty but for its header. -/
def openCsv (mode : DataMode) : CaptureState := { s with csvOpen := true, csv := [], dataMode := mode }

/-- `ensure_csv`; `none` is its `ValueError`. -/
def ensureCsv (mode : DataMode) : Option CaptureState :=
  if mode ≠ s.dataMode ∧ (s.sampleCount ≠ 0 ∨ s.reorder.positions ≠ []) then none
  else if !s.csvOpen then some (s.openCsv mode)
  else if mode = .gyrQuat ∧ s.dataMode = .raw then some (s.openCsv .gyrQuat)
  else some s

/-- `_write_sample`: `None` has no `write`, and `_csv_line` looks up what the mode asks for. -/
def writeSample (sample : Sample SampleBody) (discontinuity : Bool) : Option CaptureState :=
  if s.csvOpen = true ∧ sample.body.mode = s.dataMode then
    some { s with csv := s.csv ++ [⟨sample, discontinuity⟩], sampleCount := s.sampleCount + 1 }
  else none

/-- What the reorderer hands to `_write_sample`. -/
def writeAll : CaptureState → List (ReorderEvent SampleBody (List (BitVec 8))) → Option CaptureState
  | s, [] => some s
  | s, .emitted _ sample discontinuity :: events =>
    (s.writeSample sample discontinuity).bind fun s => writeAll s events
  | s, _ :: events => writeAll s events

/-- What a call of the reorderer leaves, with the samples it hands to `_write_sample`. -/
def reordered (result : SampleReorder SampleBody (List (BitVec 8)) × List (ReorderEvent SampleBody (List (BitVec 8)))) :
    Option CaptureState :=
  { s with reorder := result.1, trace := s.trace ++ result.2 }.writeAll result.2

/-- Whether `push` kept a sample. -/
def accepted (events : List (ReorderEvent SampleBody (List (BitVec 8)))) : Bool :=
  events.any fun event =>
    match event with
    | .retained .. => true
    | _ => false

/-- `parse_raw_imu` and `parse_raw_imu_quat`, which ask for 42 and 46 bytes. -/
def parseRawImu (mode : DataMode) (payload : List (BitVec 8)) : Option (Sample SampleBody) :=
  if payload.length < (if mode = .gyrQuat then 46 else 42) then none
  else some ⟨be16 (payload.getD 2 0) (payload.getD 3 0), ⟨mode, payload⟩⟩

/-- `accept_raw`, with the exception it ends in. -/
def acceptRaw (payload : List (BitVec 8)) (mode : DataMode) (now : ℤ) : CaptureState × Outcome :=
  match parseRawImu mode payload with
  | none => (s, .goesOn false)
  | some sample =>
    match s.ensureCsv mode with
    | none => (s, .refused)
    | some s =>
      let s := { s with
        metaWritten := s.metaWritten || s.metadata.received
        firstSampleTime := s.firstSampleTime.orElse fun _ => some now
        rawSeen := s.rawSeen || s.firstSampleTime.isNone }
      match Reorder.push sample payload false s.reorder with
      | none => (s, .crashed)
      | some result =>
        match s.reordered result with
        | none => (s, .crashed)
        | some s => (s, .goesOn (accepted result.2))

/-- `write_metadata`, if there is any, and `finalize`. -/
def finalize : Option CaptureState :=
  (Reorder.finish s.reorder).bind fun result =>
    (s.reordered result).map fun s => { s with
      csvOpen := false
      metaWritten := s.metaWritten || s.metadata.received }

/-- A packet of the tracker. -/
def receive (pktType : ℕ) (payload : List (BitVec 8)) (now : ℤ) : CaptureState × Outcome :=
  let s := { s with frameCount := s.frameCount + 1 }
  if pktType = 0x12 then
    let metadata := s.metadata.parse payload
    ({ s with metadata, metaWritten := s.metaWritten || s.csvOpen }, .goesOn false)
  else if pktType = 0x14 then ({ s with cal := s.cal.parse payload }, .goesOn false)
  else if pktType = 0x10 then s.acceptRaw payload .raw now
  else if pktType = 0x13 then s.acceptRaw payload .gyrQuat now
  else (s, .goesOn false)

/-- `sample_count + len(reorder_buf)`. -/
def arrivals : ℕ := s.sampleCount + s.reorder.positions.length

end CaptureState

/-! ## The loop -/

/-- The variables of `collect_hid`; times are in nanoseconds. -/
structure Capture where
  duration : Option ℤ
  firstSampleTime : Option ℤ
  lastStatus : ℤ
  statusTicks : ℕ
  states : ℕ → Option CaptureState

/-- What an iteration reads: a report, and the time before it is taken in and after. -/
structure CaptureInput where
  report : List (BitVec 8)
  now : ℤ
  later : ℤ

namespace Capture

/-- The start of a capture. -/
def start (duration : Option ℤ) (startTime : ℤ) : Capture := ⟨duration, none, startTime, 0, fun _ => none⟩

/-- The length of the packet in a report, by its type. -/
def esbLen (pktType : ℕ) : Option ℕ :=
  if pktType = 0x10 then some 48
  else if pktType = 0x13 then some 52
  else if pktType = 0x11 then some 16
  else if pktType = 0x12 ∨ pktType = 0x14 then some 52
  else none

/-- The packet of a report of a tracker: its type, the tracker, and its bytes. -/
def packet (report : List (BitVec 8)) : Option (ℕ × ℕ × List (BitVec 8)) :=
  if report.length < 2 then none
  else
    let pktType := (report.getD 0 0).toNat
    (esbLen pktType).bind fun len =>
      if report.length < len then none
      else
        let payload := report.take len
        let trackerId := (payload.getD 1 0).toNat
        if trackerId ≤ 15 then some (pktType, trackerId, payload) else none

variable (w : Capture)

/-- `get_state`. -/
def getState (trackerId : ℕ) : CaptureState := (w.states trackerId).getD .init

/-- Two seconds are over. -/
def statusDue (now : ℤ) : Bool := decide (2000000000 ≤ now - w.lastStatus)

/-- The detailed status line is about every tracker, and asks for its `last_status_samples`. -/
def detailFails : Bool :=
  (w.statusTicks + 1) % 5 == 0 && (List.range 16).any fun tracker =>
    match w.states tracker with
    | some s => s.lastStatusSamples.isNone
    | none => false

/-- The status of every two seconds. -/
def status (now : ℤ) : Capture × Outcome :=
  if w.statusDue now then
    if w.detailFails then ({ w with statusTicks := w.statusTicks + 1 }, .crashed)
    else
      ({ w with
        statusTicks := w.statusTicks + 1
        lastStatus := now
        states := fun tracker => (w.states tracker).map fun s => { s with lastStatusSamples := some s.arrivals } },
        .goesOn false)
  else (w, .goesOn false)

/-- The duration is over. -/
def durationOver (now : ℤ) : Bool :=
  match w.duration, w.firstSampleTime with
  | some duration, some first => duration != 0 && first != 0 && decide (duration ≤ now - first)
  | _, _ => false

/-- `first_sample_time` is the time of the first sample that any tracker's reorderer keeps. -/
def timed (accepted : Bool) (now : ℤ) : Capture :=
  if accepted ∧ w.firstSampleTime = none then { w with firstSampleTime := some now } else w

/-- The rest of an iteration. -/
def finishIteration (now : ℤ) : Capture × Outcome :=
  match w.status now with
  | (w, .goesOn _) => (w, if w.durationOver now then .ended else .goesOn false)
  | r => r

/-- An iteration of the loop. -/
def step (i : CaptureInput) : Capture × Outcome :=
  match packet i.report with
  | none => (w, .goesOn false)
  | some (pktType, trackerId, payload) =>
    let (s, outcome) := (w.getState trackerId).receive pktType payload i.now
    let w := { w with states := update w.states trackerId (some s) }
    match outcome with
    | .goesOn accepted => (w.timed accepted i.now).finishIteration i.later
    | outcome => (w, outcome)

/-- The loop; the capture ends when the user stops it after the last report. -/
def run : Capture → List CaptureInput → Capture × Outcome
  | w, [] => (w, .ended)
  | w, i :: rest =>
    match w.step i with
    | (w, .goesOn _) => run w rest
    | r => r

end Capture

/-! ## What the reorderer accepts -/

section Conserved

variable {α β : Type}

/-- The samples that were accepted, with their positions. -/
def kept (trace : List (ReorderEvent α β)) : List (ℤ × Sample α) :=
  trace.filterMap fun
    | .retained position sample _ => some (position, sample)
    | _ => none

/-- The samples that were handed on. -/
def handedOn (trace : List (ReorderEvent α β)) : List (ℤ × Sample α) :=
  trace.filterMap fun
    | .emitted position sample _ => some (position, sample)
    | _ => none

/-- What the epochs of a history hold together. -/
theorem flatMap_epochs {γ : Type} (f : Reorder.Epoch α β → List γ) (g : ReorderEvent α β → Option γ)
    (hempty : f .empty = []) (hopened : g .opened = none) (hrefused : ∀ p x b, g (.refused p x b) = none)
    (hretain : ∀ e p x b, f (e.retain p x b) = f e ++ (g (.retained p x b)).toList)
    (hemit : ∀ e p x d, f (e.emit p x d) = f e ++ (g (.emitted p x d)).toList)
    (trace : List (ReorderEvent α β)) (epochs : List (Reorder.Epoch α β)) :
    ((trace.foldl Reorder.epochsAfter epochs).flatMap f).Perm (epochs.flatMap f ++ trace.filterMap g) := by
  -- a sample that is added to the newest epoch
  have hnewest : ∀ (epochs : List (Reorder.Epoch α β)) (e' : Reorder.Epoch α β) (x : List γ),
      f e' = f (epochs.headD .empty) ++ x → ((e' :: epochs.tail).flatMap f).Perm (epochs.flatMap f ++ x) := by
    intro epochs e' x he'
    cases epochs with
    | nil =>
      rw [List.headD_nil, hempty, List.nil_append] at he'
      rw [List.flatMap_cons, he', List.tail_nil, List.flatMap_nil, List.append_nil, List.nil_append]
    | cons e older =>
      rw [List.headD_cons] at he'
      rw [List.tail_cons, List.flatMap_cons, List.flatMap_cons, he', List.append_assoc, List.append_assoc]
      exact List.perm_append_comm.append_left _
  induction trace generalizing epochs with
  | nil => rw [List.filterMap_nil, List.append_nil]; exact List.Perm.refl _
  | cons event trace ih =>
    have hone : ((Reorder.epochsAfter epochs event).flatMap f).Perm (epochs.flatMap f ++ (g event).toList) := by
      cases event with
      | opened =>
        rw [Reorder.epochsAfter, List.flatMap_cons, hempty, hopened, List.nil_append, Option.toList_none,
          List.append_nil]
      | retained p x b => exact hnewest _ _ _ (hretain _ p x b)
      | refused p x b =>
        rw [Reorder.epochsAfter, hrefused, Option.toList_none, List.append_nil]
      | emitted p x d => exact hnewest _ _ _ (hemit _ p x d)
    have hcons : (event :: trace).filterMap g = (g event).toList ++ trace.filterMap g := by
      cases hevent : g event with
      | none => rw [List.filterMap_cons_none hevent]; rfl
      | some x => rw [List.filterMap_cons_some hevent]; rfl
    rw [hcons, ← List.append_assoc]
    exact (ih (Reorder.epochsAfter epochs event)).trans (hone.append_right _)

variable {trace : List (ReorderEvent α β)} {r : SampleReorder α β}

/-- What was accepted was handed on or waits in the heap. -/
theorem conserved (h : Settled trace r) : (kept trace).Perm (handedOn trace ++ r.waiting) := by
  have hkept := flatMap_epochs (fun e : Reorder.Epoch α β => e.retained.map fun x => (x.1, x.2.1))
    (fun event => match event with
      | .retained position sample _ => some (position, sample)
      | _ => none)
    rfl rfl (fun _ _ _ => rfl) (fun _ _ _ _ => List.map_append) (fun _ _ _ _ => (List.append_nil _).symm) trace []
  have hhanded := flatMap_epochs (fun e : Reorder.Epoch α β => e.emitted.map fun x => (x.1, x.2.1))
    (fun event => match event with
      | .emitted position sample _ => some (position, sample)
      | _ => none)
    rfl rfl (fun _ _ _ => rfl) (fun _ _ _ _ => (List.append_nil _).symm) (fun _ _ _ _ => List.map_append) trace []
  rw [List.flatMap_nil, List.nil_append] at hkept hhanded
  refine hkept.symm.trans (List.Perm.trans ?_ (hhanded.append_right _))
  rcases h.follows with ⟨hnone, rfl⟩ | ⟨e, older, mark, h, c, l, ho⟩
  · rw [Reorder.epochs] at hnone
    rw [hnone]
    exact List.Perm.refl _
  · have hepochs := ho.epochs
    rw [Reorder.epochs] at hepochs
    rw [hepochs, List.flatMap_cons, List.flatMap_cons]
    have hcurrent := ho.tracks.perm
    have holder : (older.flatMap fun e => e.retained.map fun x => (x.1, x.2.1)).Perm
        (older.flatMap fun e => e.emitted.map fun x => (x.1, x.2.1)) :=
      List.Perm.flatMap_left _ fun o ho' => (ho.complete o ho').perm.symm
    refine (hcurrent.append holder).trans ?_
    rw [List.append_assoc, List.append_assoc]
    exact List.perm_append_comm.append_left _

/-- What an epoch retained was accepted. -/
theorem kept_of_epochs {e : Reorder.Epoch α β} {older : List (Reorder.Epoch α β)}
    (hepochs : Reorder.epochs trace = e :: older) {x : ℤ × Sample α × β} (hx : x ∈ e.retained) :
    (x.1, x.2.1) ∈ kept trace := by
  have hkept := flatMap_epochs (fun e : Reorder.Epoch α β => e.retained.map fun x => (x.1, x.2.1))
    (fun event => match event with
      | .retained position sample _ => some (position, sample)
      | _ => none)
    rfl rfl (fun _ _ _ => rfl) (fun _ _ _ _ => List.map_append) (fun _ _ _ _ => (List.append_nil _).symm) trace []
  rw [List.flatMap_nil, List.nil_append] at hkept
  refine hkept.mem_iff.mp (List.mem_flatMap.mpr ⟨e, ?_, List.mem_map_of_mem hx⟩)
  rw [Reorder.epochs] at hepochs
  exact hepochs ▸ List.mem_cons_self

/-- Something was accepted once `push` was called. -/
theorem kept_push_ne_nil {x : Sample α} {b : β} {r' : SampleReorder α β} {events : List (ReorderEvent α β)}
    (hanswered : Reorder.answered events = [(x, b)]) (h' : Settled (trace ++ events) r') :
    kept (trace ++ events) ≠ [] := by
  have hmem : (x, b) ∈ Reorder.answered events := hanswered ▸ List.mem_cons_self
  obtain ⟨event, hevent, hanswer⟩ := List.mem_filterMap.mp hmem
  obtain ⟨before, after, rfl⟩ := List.append_of_mem hevent
  cases event with
  | opened => exact nomatch hanswer
  | emitted p y d => exact nomatch hanswer
  | retained p y c =>
    have hkept : (p, y) ∈ kept (trace ++ (before ++ .retained p y c :: after)) :=
      List.mem_filterMap.mpr ⟨_, List.mem_append_right _ hevent, rfl⟩
    exact List.ne_nil_of_mem hkept
  | refused p y c =>
    have hjustified := h'.justified (trace ++ before) (.refused p y c) after (by rw [List.append_assoc])
    obtain ⟨-, e, older, hepochs, sample, hretained⟩ := hjustified
    have hkept := kept_of_epochs hepochs hretained
    have hall : kept (trace ++ (before ++ .refused p y c :: after)) =
        kept (trace ++ before) ++ kept (.refused p y c :: after) := by
      rw [← List.append_assoc]
      exact List.filterMap_append
    rw [hall]
    exact List.append_ne_nil_of_left_ne_nil (List.ne_nil_of_mem hkept) _

end Conserved

/-! ## The state of a tracker -/

section State

variable {s : CaptureState}

/-- The lines of what is handed on. -/
def csvLines (events : List (ReorderEvent SampleBody (List (BitVec 8)))) : List CsvLine :=
  events.filterMap fun
    | .emitted _ sample discontinuity => some ⟨sample, discontinuity⟩
    | _ => none

theorem csvLines_sample (events : List (ReorderEvent SampleBody (List (BitVec 8)))) :
    (csvLines events).map CsvLine.sample = (handedOn events).map Prod.snd := by
  rw [csvLines, handedOn, List.map_filterMap, List.map_filterMap]
  refine List.filterMap_congr fun event _ => ?_
  cases event <;> rfl

/-- Samples of the file's mode are written. -/
theorem writeAll_eq (events : List (ReorderEvent SampleBody (List (BitVec 8)))) (s : CaptureState)
    (hopen : s.csvOpen = true) (hmodes : ∀ x ∈ handedOn events, x.2.body.mode = s.dataMode) :
    s.writeAll events = some { s with
      csv := s.csv ++ csvLines events, sampleCount := s.sampleCount + (csvLines events).length } := by
  induction events generalizing s with
  | nil =>
    show some s = some { s with csv := s.csv ++ [], sampleCount := s.sampleCount + 0 }
    rw [List.append_nil]
    rfl
  | cons event events ih =>
    cases event with
    | emitted p x d =>
      have hmode : x.body.mode = s.dataMode := hmodes (p, x) List.mem_cons_self
      rw [CaptureState.writeAll, CaptureState.writeSample, if_pos ⟨hopen, hmode⟩, Option.bind_some,
        ih { s with csv := s.csv ++ [⟨x, d⟩], sampleCount := s.sampleCount + 1 } hopen fun y hy =>
          hmodes y (List.mem_cons_of_mem _ hy)]
      have hlines : csvLines (.emitted p x d :: events) = ⟨x, d⟩ :: csvLines events := rfl
      rw [hlines, List.length_cons, Nat.add_assoc, Nat.add_comm 1, List.append_assoc, List.singleton_append]
    | opened => exact ih s hopen hmodes
    | retained p x b => exact ih s hopen hmodes
    | refused p x b => exact ih s hopen hmodes

/-- What holds of a tracker's state. -/
structure StateHolds (s : CaptureState) : Prop where
  settled : Settled s.trace s.reorder
  csv : s.csv.map CsvLine.sample = (handedOn s.trace).map Prod.snd
  count : s.sampleCount = s.csv.length
  /-- The file is open once something was accepted, and not before. -/
  opened : s.trace = [] ∧ s.csvOpen = false ∨ kept s.trace ≠ [] ∧ s.csvOpen = true
  /-- All samples have the mode of the file. -/
  modes : ∀ x ∈ kept s.trace, x.2.body.mode = s.dataMode

theorem StateHolds.init : StateHolds .init where
  settled := Reorder.settled_init
  csv := rfl
  count := rfl
  opened := Or.inl ⟨rfl, rfl⟩
  modes _ hx := absurd hx List.not_mem_nil

/-- What was handed on had been accepted. -/
theorem mem_kept_of_handedOn {trace : List (ReorderEvent SampleBody (List (BitVec 8)))}
    {r : SampleReorder SampleBody (List (BitVec 8))} (h : Settled trace r) {x : ℤ × Sample SampleBody}
    (hx : x ∈ handedOn trace) : x ∈ kept trace :=
  (conserved h).mem_iff.mpr (List.mem_append_left _ hx)

/-- Where nothing waits and nothing was written, nothing was accepted. -/
theorem StateHolds.busy (h : StateHolds s) (hkept : kept s.trace ≠ []) :
    s.sampleCount ≠ 0 ∨ s.reorder.positions ≠ [] := by
  by_contra hidle
  rw [not_or, not_not, not_not] at hidle
  have hcsv : s.csv = [] := List.eq_nil_of_length_eq_zero (h.count.symm.trans hidle.1)
  have hhanded : handedOn s.trace = [] := by
    have hlines := h.csv
    rw [hcsv] at hlines
    exact List.map_eq_nil_iff.mp hlines.symm
  have hperm := conserved h.settled
  rw [hhanded, SampleReorder.waiting, hidle.2] at hperm
  exact hkept hperm.eq_nil

/-- The file of a tracker is open in the mode of its samples. -/
structure Ready (s : CaptureState) : Prop where
  settled : Settled s.trace s.reorder
  csv : s.csv.map CsvLine.sample = (handedOn s.trace).map Prod.snd
  count : s.sampleCount = s.csv.length
  opened : s.csvOpen = true
  modes : ∀ x ∈ kept s.trace, x.2.body.mode = s.dataMode

/-- What does not concern the samples does not matter. -/
theorem StateHolds.congr (h : StateHolds s) {s' : CaptureState} (htrace : s'.trace = s.trace)
    (hreorder : s'.reorder = s.reorder) (hcsv : s'.csv = s.csv) (hcount : s'.sampleCount = s.sampleCount)
    (hopen : s'.csvOpen = s.csvOpen) (hmode : s'.dataMode = s.dataMode) : StateHolds s' where
  settled := by rw [htrace, hreorder]; exact h.settled
  csv := by rw [hcsv, htrace]; exact h.csv
  count := by rw [hcount, hcsv]; exact h.count
  opened := by rw [htrace, hopen]; exact h.opened
  modes := by rw [htrace, hmode]; exact h.modes

theorem Ready.congr (h : Ready s) {s' : CaptureState} (htrace : s'.trace = s.trace)
    (hreorder : s'.reorder = s.reorder) (hcsv : s'.csv = s.csv) (hcount : s'.sampleCount = s.sampleCount)
    (hopen : s'.csvOpen = s.csvOpen) (hmode : s'.dataMode = s.dataMode) : Ready s' where
  settled := by rw [htrace, hreorder]; exact h.settled
  csv := by rw [hcsv, htrace]; exact h.csv
  count := by rw [hcount, hcsv]; exact h.count
  opened := hopen.trans h.opened
  modes := by rw [htrace, hmode]; exact h.modes

/-- `ensure_csv` refuses a sample, or the file is open in its mode. -/
theorem StateHolds.ensureCsv (h : StateHolds s) (mode : DataMode) :
    s.ensureCsv mode = none ∨ ∃ s', s.ensureCsv mode = some s' ∧ Ready s' ∧ mode = s'.dataMode ∧
      s'.lastStatusSamples = s.lastStatusSamples := by
  unfold CaptureState.ensureCsv
  rcases h.opened with ⟨htrace, hclosed⟩ | ⟨hkept, hopen⟩
  · split
    case isTrue => exact Or.inl rfl
    case isFalse =>
      rw [hclosed, if_pos (by decide)]
      have hcsv : s.csv = [] := by
        have hlines := h.csv
        rw [htrace] at hlines
        exact List.map_eq_nil_iff.mp hlines
      refine Or.inr ⟨_, rfl, ⟨h.settled, ?_, ?_, rfl, ?_⟩, rfl, rfl⟩
      · show [] = (handedOn s.trace).map Prod.snd
        rw [htrace]
        rfl
      · show s.sampleCount = 0
        rw [h.count, hcsv, List.length_nil]
      · intro x hx
        have hnone : x ∈ kept s.trace := hx
        rw [htrace] at hnone
        exact absurd hnone List.not_mem_nil
  · by_cases hmode : mode = s.dataMode
    · have hsame : ¬(mode ≠ s.dataMode ∧ (s.sampleCount ≠ 0 ∨ s.reorder.positions ≠ [])) := fun hbad => hbad.1 hmode
      have hkeep : ¬(mode = .gyrQuat ∧ s.dataMode = .raw) := by
        rintro ⟨hquat, hraw⟩
        exact nomatch hquat.symm.trans (hmode.trans hraw)
      rw [if_neg hsame, hopen, if_neg (by decide), if_neg hkeep]
      exact Or.inr ⟨s, rfl, ⟨h.settled, h.csv, h.count, hopen, h.modes⟩, hmode, rfl⟩
    · rw [if_pos ⟨hmode, h.busy hkept⟩]
      exact Or.inl rfl

/-- A call of the reorderer when the file is open. -/
theorem Ready.reordered (h : Ready s) {r : SampleReorder SampleBody (List (BitVec 8))}
    {events : List (ReorderEvent SampleBody (List (BitVec 8)))} (hsettled : Settled (s.trace ++ events) r)
    (hmodes : ∀ x ∈ kept (s.trace ++ events), x.2.body.mode = s.dataMode) :
    ∃ s', s.reordered (r, events) = some s' ∧ Ready s' ∧ s'.trace = s.trace ++ events ∧ s'.reorder = r ∧
      s'.lastStatusSamples = s.lastStatusSamples := by
  have hall : handedOn (s.trace ++ events) = handedOn s.trace ++ handedOn events := List.filterMap_append
  have hhanded : ∀ x ∈ handedOn events, x.2.body.mode = s.dataMode := by
    intro x hx
    exact hmodes x (mem_kept_of_handedOn hsettled (hall ▸ List.mem_append_right _ hx))
  refine ⟨_, writeAll_eq events _ h.opened hhanded, ⟨hsettled, ?_, ?_, h.opened, hmodes⟩, rfl, rfl, rfl⟩
  · show (s.csv ++ csvLines events).map CsvLine.sample = (handedOn (s.trace ++ events)).map Prod.snd
    rw [List.map_append, h.csv, csvLines_sample, hall, List.map_append]
  · show s.sampleCount + (csvLines events).length = (s.csv ++ csvLines events).length
    rw [List.length_append, h.count]

/-- What `push` keeps besides is the sample it was called with. -/
theorem kept_push {trace events : List (ReorderEvent SampleBody (List (BitVec 8)))} {x : Sample SampleBody}
    {b : List (BitVec 8)} (hanswered : Reorder.answered events = [(x, b)]) {y : ℤ × Sample SampleBody}
    (hy : y ∈ kept (trace ++ events)) : y ∈ kept trace ∨ y.2 = x := by
  have hall : kept (trace ++ events) = kept trace ++ kept events := List.filterMap_append
  rw [hall] at hy
  refine (List.mem_append.mp hy).imp_right fun hnew => ?_
  obtain ⟨event, hevent, hkept⟩ := List.mem_filterMap.mp hnew
  cases event with
  | opened => exact nomatch hkept
  | refused p z c => exact nomatch hkept
  | emitted p z d => exact nomatch hkept
  | retained p z c =>
    have hmem : (z, c) ∈ Reorder.answered events := List.mem_filterMap.mpr ⟨_, hevent, rfl⟩
    rw [hanswered] at hmem
    rw [← Option.some.inj hkept]
    exact (Prod.mk.inj (List.mem_singleton.mp hmem)).1

/-- `push` writes what it hands on, and then something was accepted. -/
theorem Ready.push (h : Ready s) {sample : Sample SampleBody} (payload : List (BitVec 8))
    (hmode : sample.body.mode = s.dataMode) :
    ∃ result s', Reorder.push sample payload false s.reorder = some result ∧ s.reordered result = some s' ∧
      StateHolds s' ∧ s'.lastStatusSamples = s.lastStatusSamples := by
  obtain ⟨r, events, hpush, hanswered, hsettled⟩ := h.settled.push sample payload false
  have hmodes : ∀ x ∈ kept (s.trace ++ events), x.2.body.mode = s.dataMode := by
    intro x hx
    rcases kept_push hanswered hx with hold | hnew
    · exact h.modes x hold
    · rw [hnew, hmode]
  obtain ⟨s', hreordered, hready, htrace, -, hlast⟩ := h.reordered hsettled hmodes
  have hkept : kept s'.trace ≠ [] := by
    rw [htrace]
    exact kept_push_ne_nil hanswered hsettled
  exact ⟨_, s', hpush, hreordered, ⟨hready.settled, hready.csv, hready.count, Or.inr ⟨hkept, hready.opened⟩,
    hready.modes⟩, hlast⟩

theorem parseRawImu_mode {mode : DataMode} {payload : List (BitVec 8)} {sample : Sample SampleBody}
    (h : CaptureState.parseRawImu mode payload = some sample) : sample.body.mode = mode := by
  unfold CaptureState.parseRawImu at h
  generalize (if mode = .gyrQuat then 46 else 42) = bound at h
  split at h
  case isTrue => exact nomatch h
  case isFalse => rw [← Option.some.inj h]

/-- A sample is taken, or refused because of its mode. -/
theorem StateHolds.acceptRaw (h : StateHolds s) (payload : List (BitVec 8)) (mode : DataMode) (now : ℤ) :
    ∃ s' outcome, s.acceptRaw payload mode now = (s', outcome) ∧ StateHolds s' ∧ outcome ≠ .crashed ∧
      s'.lastStatusSamples = s.lastStatusSamples := by
  unfold CaptureState.acceptRaw
  cases hsample : CaptureState.parseRawImu mode payload with
  | none => exact ⟨s, _, rfl, h, (nomatch ·), rfl⟩
  | some sample =>
    rcases h.ensureCsv mode with hrefused | ⟨s₁, hensured, hready, hmode, hlast⟩
    · simp only [hrefused]
      exact ⟨s, _, rfl, h, (nomatch ·), rfl⟩
    · simp only [hensured]
      have hready₂ : Ready { s₁ with
          metaWritten := s₁.metaWritten || s₁.metadata.received
          firstSampleTime := s₁.firstSampleTime.orElse fun _ => some now
          rawSeen := s₁.rawSeen || s₁.firstSampleTime.isNone } := hready.congr rfl rfl rfl rfl rfl rfl
      obtain ⟨result, s', hpush, hreordered, hholds, hlast'⟩ :=
        hready₂.push payload ((parseRawImu_mode hsample).trans hmode)
      simp only [hpush, hreordered]
      exact ⟨s', _, rfl, hholds, (nomatch ·), hlast'.trans hlast⟩

/-- A packet leaves a tracker's state in order. -/
theorem StateHolds.receive (h : StateHolds s) (pktType : ℕ) (payload : List (BitVec 8)) (now : ℤ) :
    ∃ s' outcome, s.receive pktType payload now = (s', outcome) ∧ StateHolds s' ∧ outcome ≠ .crashed ∧
      s'.lastStatusSamples = s.lastStatusSamples := by
  have hcounted : StateHolds { s with frameCount := s.frameCount + 1 } := h.congr rfl rfl rfl rfl rfl rfl
  unfold CaptureState.receive
  split
  case isTrue => exact ⟨_, _, rfl, h.congr rfl rfl rfl rfl rfl rfl, (nomatch ·), rfl⟩
  case isFalse =>
    split
    case isTrue => exact ⟨_, _, rfl, h.congr rfl rfl rfl rfl rfl rfl, (nomatch ·), rfl⟩
    case isFalse =>
      split
      case isTrue => exact hcounted.acceptRaw payload .raw now
      case isFalse =>
        split
        case isTrue => exact hcounted.acceptRaw payload .gyrQuat now
        case isFalse => exact ⟨_, _, rfl, hcounted, (nomatch ·), rfl⟩

/-- When the capture ends, the file holds what was accepted. -/
theorem StateHolds.finalize (h : StateHolds s) :
    ∃ s', s.finalize = some s' ∧ (s'.csv.map CsvLine.sample).Perm ((kept s.trace).map Prod.snd) := by
  obtain ⟨r, events, hfinish, hemitted, hsettled, hempty, -⟩ := h.settled.finish
  have hquiet : kept events = [] := by
    refine List.filterMap_eq_nil_iff.mpr fun event hevent => ?_
    obtain ⟨p, x, d, rfl⟩ := hemitted event hevent
    rfl
  have hkept : kept (s.trace ++ events) = kept s.trace := by
    have hall : kept (s.trace ++ events) = kept s.trace ++ kept events := List.filterMap_append
    rw [hall, hquiet, List.append_nil]
  have hperm : (kept s.trace).Perm (handedOn (s.trace ++ events)) := by
    have hconserved := conserved hsettled
    rw [hkept, SampleReorder.waiting, hempty, List.filterMap_nil, List.append_nil] at hconserved
    exact hconserved
  unfold CaptureState.finalize
  rw [hfinish, Option.bind_some]
  rcases h.opened with ⟨htrace, -⟩ | ⟨-, hopen⟩
  · -- nothing was ever accepted
    have hnone : events = [] := by
      cases hevents : events with
      | nil => rfl
      | cons event rest =>
        obtain ⟨p, x, d, rfl⟩ := hemitted event (hevents ▸ List.mem_cons_self)
        rw [htrace, hevents] at hperm
        exact absurd hperm.nil_eq.symm (List.cons_ne_nil _ _)
    rw [hnone]
    refine ⟨_, rfl, ?_⟩
    show (s.csv.map CsvLine.sample).Perm _
    rw [h.csv, htrace]
    exact List.Perm.refl _
  · have hready : Ready s := ⟨h.settled, h.csv, h.count, hopen, h.modes⟩
    obtain ⟨s', hreordered, hready', htrace, -⟩ := hready.reordered hsettled (hkept ▸ h.modes)
    rw [hreordered]
    refine ⟨_, rfl, ?_⟩
    show (s'.csv.map CsvLine.sample).Perm _
    rw [hready'.csv, htrace]
    exact (hperm.map Prod.snd).symm

end State

/-! ## The loop -/

section Loop

variable {w : Capture}

/-- The states of all trackers are in order. -/
def StatesHold (w : Capture) : Prop := ∀ tracker s, w.states tracker = some s → StateHolds s

theorem StatesHold.getState (h : StatesHold w) (tracker : ℕ) : StateHolds (w.getState tracker) := by
  unfold Capture.getState
  cases hs : w.states tracker with
  | none => exact StateHolds.init
  | some s => exact h tracker s hs

/-- The trackers the detailed status line is about have been there for a tick. -/
theorem detailFails_eq_false
    (h : (w.statusTicks + 1) % 5 = 0 → ∀ tracker s, w.states tracker = some s → s.lastStatusSamples ≠ none) :
    w.detailFails = false := by
  refine Bool.eq_false_iff.mpr fun hfails => ?_
  obtain ⟨htick, hany⟩ := Bool.and_eq_true_iff.mp hfails
  obtain ⟨tracker, -, hunset⟩ := List.any_eq_true.mp hany
  cases hs : w.states tracker with
  | none =>
    rw [hs] at hunset
    exact nomatch hunset
  | some s =>
    rw [hs] at hunset
    exact h (eq_of_beq htick) tracker s hs (Option.isNone_iff_eq_none.mp hunset)

/-- The status is about the samples and does not touch them. -/
theorem StatesHold.status (h : StatesHold w) (now : ℤ) : StatesHold (w.status now).1 := by
  unfold Capture.status
  split
  case isTrue =>
    split
    case isTrue => exact h
    case isFalse =>
      intro tracker s hs
      obtain ⟨s₀, hs₀, rfl⟩ := Option.map_eq_some_iff.mp hs
      exact (h tracker s₀ hs₀).congr rfl rfl rfl rfl rfl rfl
  case isFalse => exact h

theorem status_goesOn {now : ℤ} (h : w.statusDue now = true → w.detailFails = false) :
    (w.status now).2 = .goesOn false := by
  unfold Capture.status
  split
  case isTrue hdue => rw [h hdue, if_neg (by decide)]
  case isFalse => rfl

theorem StatesHold.finishIteration (h : StatesHold w) (now : ℤ) : StatesHold (w.finishIteration now).1 := by
  have hstatus := h.status now
  unfold Capture.finishIteration
  split
  case h_1 heq =>
    rw [heq] at hstatus
    exact hstatus
  case h_2 => exact hstatus

theorem finishIteration_ne_crashed {now : ℤ} (h : w.statusDue now = true → w.detailFails = false) :
    (w.finishIteration now).2 ≠ .crashed := by
  unfold Capture.finishIteration
  split
  case h_1 w' _ _ =>
    show (if w'.durationOver now then Outcome.ended else .goesOn false) ≠ .crashed
    cases w'.durationOver now with
    | true => exact nofun
    | false => exact nofun
  case h_2 hother => exact (hother (w.status now).1 false (Prod.ext rfl (status_goesOn h))).elim

/-- When the first sample was taken changes neither the states nor the ticks. -/
theorem timed_same (accepted : Bool) (now : ℤ) : (w.timed accepted now).states = w.states ∧
    (w.timed accepted now).statusTicks = w.statusTicks ∧ (w.timed accepted now).lastStatus = w.lastStatus := by
  unfold Capture.timed
  split
  case isTrue => exact ⟨rfl, rfl, rfl⟩
  case isFalse => exact ⟨rfl, rfl, rfl⟩

/-- When a status with details is due, every tracker that was heard of, with the one this report is from, was there at
an earlier status. -/
def TickSafe (w : Capture) (i : CaptureInput) : Prop :=
  ∀ pktType trackerId payload, Capture.packet i.report = some (pktType, trackerId, payload) →
    w.statusDue i.later = true → (w.statusTicks + 1) % 5 = 0 →
    (w.states trackerId).isSome ∧ ∀ tracker s, w.states tracker = some s → s.lastStatusSamples ≠ none

/-- The reports of a capture are all so. -/
def TicksSafe : Capture → List CaptureInput → Prop
  | _, [] => True
  | w, i :: rest => TickSafe w i ∧ TicksSafe (w.step i).1 rest

theorem StatesHold.step (h : StatesHold w) (i : CaptureInput) :
    StatesHold (w.step i).1 ∧ (TickSafe w i → (w.step i).2 ≠ .crashed) := by
  unfold Capture.step
  cases hpacket : Capture.packet i.report with
  | none => exact ⟨h, fun _ => nofun⟩
  | some packet =>
    obtain ⟨pktType, trackerId, payload⟩ := packet
    obtain ⟨s', outcome, hreceive, hholds, hgood, hlast⟩ := (h.getState trackerId).receive pktType payload i.now
    have hstates : ∀ tracker s, update w.states trackerId (some s') tracker = some s →
        tracker = trackerId ∧ s = s' ∨ w.states tracker = some s := by
      intro tracker s hs
      by_cases heq : tracker = trackerId
      · rw [heq, update_self] at hs
        exact Or.inl ⟨heq, (Option.some.inj hs).symm⟩
      · rw [update_of_ne heq] at hs
        exact Or.inr hs
    have hupdated : StatesHold { w with states := update w.states trackerId (some s') } := by
      intro tracker s hs
      rcases hstates tracker s hs with ⟨-, rfl⟩ | hold
      · exact hholds
      · exact h tracker s hold
    simp only [hreceive]
    cases outcome with
    | ended => exact ⟨hupdated, fun _ => nofun⟩
    | refused => exact ⟨hupdated, fun _ => nofun⟩
    | crashed => exact absurd rfl hgood
    | goesOn accepted =>
      obtain ⟨htimed, hticks, hlastStatus⟩ :=
        @timed_same { w with states := update w.states trackerId (some s') } accepted i.now
      have hholds' : StatesHold
          (Capture.timed { w with states := update w.states trackerId (some s') } accepted i.now) :=
        fun tracker s hs => hupdated tracker s (htimed ▸ hs)
      refine ⟨hholds'.finishIteration i.later, fun hsafe => finishIteration_ne_crashed fun hdue => ?_⟩
      refine detailFails_eq_false fun htick tracker s hs => ?_
      unfold Capture.statusDue at hdue
      rw [hlastStatus] at hdue
      rw [hticks] at htick
      rw [htimed] at hs
      obtain ⟨hknown, hset⟩ := hsafe pktType trackerId payload hpacket hdue htick
      rcases hstates tracker s hs with ⟨-, rfl⟩ | hold
      · obtain ⟨s₀, hs₀⟩ := Option.isSome_iff_exists.mp hknown
        have hget : w.getState trackerId = s₀ := by rw [Capture.getState, hs₀, Option.getD_some]
        rw [hlast, hget]
        exact hset trackerId s₀ hs₀
      · exact hset tracker s hold

/-- A capture leaves all states in order, and nothing ends it but what is meant to. -/
theorem StatesHold.run (h : StatesHold w) (inputs : List CaptureInput) :
    StatesHold (w.run inputs).1 ∧ (TicksSafe w inputs → (w.run inputs).2 ≠ .crashed) := by
  induction inputs generalizing w with
  | nil => exact ⟨h, fun _ => nofun⟩
  | cons i rest ih =>
    obtain ⟨hholds, hsafe⟩ := h.step i
    unfold Capture.run
    split
    case h_1 w' accepted heq =>
      rw [heq] at hholds
      obtain ⟨hrest, hgood⟩ := ih hholds
      refine ⟨hrest, fun hticks => hgood ?_⟩
      have hlater := hticks.2
      rw [heq] at hlater
      exact hlater
    case h_2 => exact ⟨hholds, fun hticks => hsafe hticks.1⟩

/-- Whatever is reported, a capture ends as it is meant to if the detailed status lines are about trackers that have
been there for a tick, and all that a tracker's reorderer accepted is then in the tracker's file. -/
theorem batch_capture (duration : Option ℤ) (startTime : ℤ) (inputs : List CaptureInput) :
    (TicksSafe (.start duration startTime) inputs →
      ((Capture.start duration startTime).run inputs).2 ≠ .crashed) ∧
    ∀ tracker s, ((Capture.start duration startTime).run inputs).1.states tracker = some s →
      ∃ s', s.finalize = some s' ∧ (s'.csv.map CsvLine.sample).Perm ((kept s.trace).map Prod.snd) := by
  have hstart : StatesHold (.start duration startTime) := fun _ _ hs => nomatch hs
  obtain ⟨hholds, hgood⟩ := hstart.run inputs
  exact ⟨hgood, fun tracker s hs => (hholds tracker s hs).finalize⟩

/-- A report of a tracker that is no sample. -/
def otherReport (tracker : BitVec 8) : List (BitVec 8) := 0x11 :: tracker :: List.replicate 14 0

/-- A tracker that is there from the start. -/
theorem early_tracker_goes_on :
    ((Capture.start none 0).run [⟨otherReport 0, 2000000000, 2000000000⟩, ⟨otherReport 0, 4000000000, 4000000000⟩,
      ⟨otherReport 0, 6000000000, 6000000000⟩, ⟨otherReport 0, 8000000000, 8000000000⟩,
      ⟨otherReport 0, 10000000000, 10000000000⟩]).2 ≠ .crashed := by
  refine (batch_capture none 0 _).1 ⟨fun _ _ _ _ _ htick => absurd htick (by decide),
    fun _ _ _ _ _ htick => absurd htick (by decide +kernel), fun _ _ _ _ _ htick => absurd htick (by decide +kernel),
    fun _ _ _ _ _ htick => absurd htick (by decide +kernel), fun pktType trackerId payload hpacket _ _ => ?_, trivial⟩
  have hfrom : some (0x11, 0, otherReport 0) = some (pktType, trackerId, payload) := hpacket
  obtain ⟨-, rfl, -⟩ := Prod.mk.inj (Option.some.inj hfrom)
  refine ⟨by decide +kernel, fun tracker s hs => ?_⟩
  obtain ⟨s₀, -, rfl⟩ := Option.map_eq_some_iff.mp hs
  exact nofun

/-- One tracker is there from the start; another is first heard of with the report that brings the fifth status. -/
theorem late_tracker_crashes :
    ((Capture.start none 0).run [⟨otherReport 0, 2000000000, 2000000000⟩, ⟨otherReport 0, 4000000000, 4000000000⟩,
      ⟨otherReport 0, 6000000000, 6000000000⟩, ⟨otherReport 0, 8000000000, 8000000000⟩,
      ⟨otherReport 1, 10000000000, 10000000000⟩]).2 = .crashed := by
  decide +kernel

end Loop

end BatchCapture

end SlimeReceiver
