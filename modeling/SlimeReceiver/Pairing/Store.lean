import SlimeReceiver.Events.Cache
import SlimeReceiver.Pairing.RosterFormat
import SlimeReceiver.Receiver.Scheduler

/-! # The pairing store

The roster in RAM and in flash under `esb_add_pair`, `esb_pop_pair`, `esb_clear` and
`tracker_store_restore`, with everything else the receiver does in between.

* **`StoreWorld`**, **`storeStep`**, **`storeSystem`** — receiver, flash and pairing generations.
* **`receiverStep_roster`** — only roster operations touch the roster.
* **`pairing_store_consistent`** — RAM and flash agree, failures change nothing, ids stay. -/

namespace SlimeReceiver

open Function (update update_self update_of_ne)

/-! ## The system -/

/-- The receiver with its flash and the pairing generations of the tracker events. -/
structure StoreWorld where
  receiver : Receiver
  flash : Flash
  pairingGenerations : ℕ → BitVec 32

/-- What changes the roster, and everything else. -/
inductive StoreOp
  | addPair (addr : ℕ) (written : Bool)
  | popPair (written : Bool)
  | clear (written : Bool)
  /-- `tracker_store_restore`; the reads of the keys in `fault` fail. -/
  | restore (fault : ℕ → Bool) (written : Bool)
  | other (op : ReceiverOp)

/-- Why a call fails. -/
inductive StoreFailure
  | store (err : StoreError)
  | load (err : LoadError)
  deriving DecidableEq, Repr

/-- The visible events. -/
inductive StoreEvent
  /-- A call returned, with an id where it assigns one. -/
  | returned (result : Except StoreFailure ℕ)
  /-- The tracker with this id left the roster. -/
  | removed (id : ℕ)

/-- A receiver operation that changes the roster. -/
def ReceiverOp.ChangesRoster : ReceiverOp → Bool
  | .addPair _ _ | .popPair _ | .clear _ | .restoreStore _ _ => true
  | _ => false

/-- `tracker_events_pairing_invalidate` for the slots that were reset. -/
def invalidatePairings (ids : List ℕ) (generations : ℕ → BitVec 32) : ℕ → BitVec 32 :=
  fun id => if id ∈ ids then Events.nextGeneration (generations id) else generations id

/-- The storage after the save of `esb_add_pair`. -/
def addPairFlash (addr : ℕ) (written : Bool) (t : Tdma) (flash : Flash) : Flash :=
  if !trackerRosterAddressValid addr || !t.roster.storeReady then flash
  else
    match (List.range t.roster.storedTrackers).find? fun i => t.roster.storedTrackerAddr i == addr with
    | some _ => flash
    | none =>
      if t.roster.storedTrackers < maxTrackers then
        (rosterSave (t.roster.storedTrackers + 1)
          (update t.roster.storedTrackerAddr t.roster.storedTrackers addr) written flash).2
      else flash

/-- The storage after the save of `esb_pop_pair`. -/
def popPairFlash (written : Bool) (t : Tdma) (flash : Flash) : Flash :=
  if !t.roster.storeReady || t.roster.storedTrackers == 0 then flash
  else (rosterSave (t.roster.storedTrackers - 1)
    (update t.roster.storedTrackerAddr (t.roster.storedTrackers - 1) 0) written flash).2

/-- The storage after the save of `esb_clear`. -/
def clearFlash (written : Bool) (flash : Flash) : Flash := (rosterSave 0 (fun _ => 0) written flash).2

/-- The trackers a step of the receiver forgot. -/
def resetIds (es : List ReceiverEvent) : List ℕ := Receiver.forgottenIds (es.filterMap schedulerPart)

namespace StoreWorld

/-- A step of the receiver in the world: slots that are reset lose their pairing generation. -/
def run (op : ReceiverOp) (flash : Flash) (report : List ℕ → List StoreEvent) (w : StoreWorld) :
    Option (StoreWorld × List StoreEvent) :=
  (receiverStep w.receiver op).map fun q =>
    ({ receiver := q.1
       flash := flash
       pairingGenerations := invalidatePairings (resetIds q.2) w.pairingGenerations },
      report (resetIds q.2))

end StoreWorld

/-- The result of a call of the store. -/
def storeResult {α : Type} (id : α → ℕ) : Except StoreError α → Except StoreFailure ℕ
  | .ok a => .ok (id a)
  | .error err => .error (.store err)

/-- One step of the world. A restored store is not restored again. -/
def storeStep (w : StoreWorld) : StoreOp → Option (StoreWorld × List StoreEvent)
  | .addPair addr written =>
    w.run (.addPair addr written) (addPairFlash addr written w.receiver.tdma w.flash) fun _ =>
      [.returned (storeResult (fun id => id) (w.receiver.tdma.esbAddPair addr written).1)]
  | .popPair written =>
    w.run (.popPair written) (popPairFlash written w.receiver.tdma w.flash) fun ids =>
      ids.map StoreEvent.removed ++
        [StoreEvent.returned (storeResult (fun _ => 0) (w.receiver.tdma.esbPopPair written).1)]
  | .clear written =>
    w.run (.clear written) (clearFlash written w.flash) fun ids =>
      ids.map StoreEvent.removed ++
        [StoreEvent.returned (storeResult (fun _ => 0) (w.receiver.tdma.esbClear written).1)]
  | .restore fault written =>
    if !w.receiver.storeFree then none
    else if w.receiver.tdma.roster.storeReady then some (w, [.returned (.ok 0)])
    else
      match trackerRosterLoad fault written w.flash ⟨0, fun _ => 0⟩ with
      | (.error err, _, flash) => some ({ w with flash := flash }, [.returned (.error (.load err))])
      | (.ok (), out, flash) =>
        w.run (.restoreStore out.count out.addresses) flash fun _ => [.returned (.ok 0)]
  | .other op => if op.ChangesRoster then none else w.run op w.flash fun _ => []

/-- The world from the reset of the receiver, with what the flash has then. -/
def storeSystem (flash : Flash) : EventSystem StoreWorld StoreOp StoreEvent where
  init := { receiver := .init, flash := flash, pairingGenerations := fun _ => 0 }
  step := storeStep

/-! ## Who touches the roster -/

section RosterFrames

variable {t t' : Tdma} {r r' : Receiver} {op : ReceiverOp}

/-- A scheduler operation that changes the roster. -/
def TdmaOp.ChangesRoster : TdmaOp → Bool
  | .addPair _ _ | .popPair _ | .clear _ | .restoreStore _ _ => true
  | _ => false

theorem recalculatePass_roster (forced diagnosticsReset : Bool) (modes : Tdma.RecalculateModes) (t : Tdma) :
    (t.recalculatePass forced diagnosticsReset modes).1.roster = t.roster := by
  have hdecided := t.decided_roster forced diagnosticsReset modes
  have hresult := Tdma.recalculatePass_result forced diagnosticsReset modes t
  generalize t.recalculatePass forced diagnosticsReset modes = q at hresult ⊢
  generalize t.decided forced diagnosticsReset modes = d at hresult hdecided
  cases hresult with
  | empty => exact hdecided
  | unchanged => rw [Tdma.returnUnchanged_roster, hdecided]
  | wait | again => exact hdecided
  | publish => rw [Tdma.publish_roster, hdecided]

theorem tdmaStep_roster {top : TdmaOp} {tes : List TdmaEvent} (h : tdmaStep t top = some (t', tes))
    (htop : top.ChangesRoster = false) : t'.roster = t.roster := by
  cases tdmaStep_rel h with
  | advance | stutter | readClock | callRecalculate | lossTick | autoLossInvalidate | resetLossStats => rfl
  | observe => rw [Tdma.tdmaShadowObserve_roster]
  | update readAt => exact Tdma.merged_roster (stamp readAt) t
  | pass => exact recalculatePass_roster _ _ _ _
  | addPair | popPair | clear | restoreStore => cases htop

theorem stepTdma_roster {top : TdmaOp} {es : List ReceiverEvent} (h : r.stepTdma top = some (r', es))
    (htop : top.ChangesRoster = false) : r'.tdma.roster = r.tdma.roster := by
  obtain ⟨⟨t, tes⟩, hstep, heq⟩ := Option.map_eq_some_iff.mp h
  obtain ⟨rfl, -⟩ := Prod.mk.inj heq
  exact tdmaStep_roster hstep htop

theorem observe_roster (onOwnPipe : Bool) (trackerId : ℕ) (evidence : ShadowEvidence) (r : Receiver) :
    (r.observe onOwnPipe trackerId evidence).tdma.roster = r.tdma.roster := by
  unfold Receiver.observe
  split
  · exact Tdma.tdmaShadowObserve_roster ..
  · rfl

/-- The other steps of the receiver leave the roster alone. -/
theorem receiverStep_roster {es : List ReceiverEvent} (h : receiverStep r op = some (r', es))
    (hop : op.ChangesRoster = false) : r'.tdma.roster = r.tdma.roster := by
  cases op with
  | addPair | popPair | clear | restoreStore => cases hop
  | advance | update | resetLossStats => exact stepTdma_roster h rfl
  | readClock | callRecalculate =>
    simp only [receiverStep] at h
    split at h
    · exact stepTdma_roster h rfl
    · cases h
  | pass collecting =>
    obtain ⟨⟨t, tes⟩, hstep, heq⟩ := Option.map_eq_some_iff.mp h
    have hroster := tdmaStep_roster hstep rfl
    dsimp only at heq
    split at heq <;> obtain ⟨rfl, -⟩ := Prod.mk.inj heq <;> exact hroster
  | lossTick env =>
    simp only [receiverStep] at h
    split at h
    · obtain ⟨⟨t, tes⟩, hstep, heq⟩ := Option.map_eq_some_iff.mp h
      have hroster := tdmaStep_roster hstep rfl
      dsimp only at heq
      split at heq <;> obtain ⟨rfl, -⟩ := Prod.mk.inj heq <;> exact hroster
    · cases h
  | data trackerId seq onOwnPipe isStatus =>
    have hnext : r' = (r.receiveData trackerId seq onOwnPipe isStatus).1 :=
      (congrArg Prod.fst (Option.some.inj h)).symm
    rw [hnext]
    unfold Receiver.receiveData
    split
    · rw [Receiver.forwardData_tdma, observe_roster, Receiver.checkPacketSequence_tdma]
    · rfl
  | ackPing env p =>
    obtain ⟨rfl, -⟩ := Prod.mk.inj (Option.some.inj h)
    rw [Receiver.ackPing_eq]
  | ping p =>
    have hnext : r' = (r.receivePing p).observe (p.crcValid && p.onOwnPipe) p.trackerId .ping :=
      (congrArg Prod.fst (Option.some.inj h)).symm
    rw [hnext, observe_roster, Receiver.receivePing_eq]
  | womResult id token =>
    obtain ⟨rfl, -⟩ := Prod.mk.inj (Option.some.inj h)
    rw [Receiver.womResult_eq]
  | resetAllStats | autoLossFence | autoLossInvalidate | rxDiscontinuity | womCancel =>
    obtain ⟨rfl, -⟩ := Prod.mk.inj (Option.some.inj h)
    rfl
  | testOn trackerId | testOff trackerId =>
    obtain ⟨rfl, -⟩ := Prod.mk.inj (Option.some.inj h)
    simp only [Receiver.sendTestOn, Receiver.sendTestOff]
    split <;> rfl
  | clearOtaAbort trackerId =>
    simp only [receiverStep] at h
    split at h <;> obtain ⟨rfl, -⟩ := Prod.mk.inj (Option.some.inj h)
    · unfold Receiver.clearRemoteOtaAbort
      split <;> rfl
    · rfl
  | remoteCommand | publishFlag | sensCommand =>
    simp only [receiverStep] at h
    split at h <;> obtain ⟨rfl, -⟩ := Prod.mk.inj (Option.some.inj h) <;> rfl
  | womRequest target minutes scanStart =>
    simp only [receiverStep] at h
    split at h
    · obtain ⟨rfl, -⟩ := Prod.mk.inj (Option.some.inj h)
      unfold Receiver.womRequest
      split_ifs <;> rfl
    · cases h
  | allGuard | allRelease =>
    simp only [receiverStep] at h
    split at h
    · obtain ⟨rfl, -⟩ := Prod.mk.inj (Option.some.inj h)
      rfl
    · cases h
  | allToken | reconcileRead =>
    simp only [receiverStep] at h
    split at h
    · obtain ⟨rfl, -⟩ := Prod.mk.inj (Option.some.inj h)
      rfl
    · cases h
  | allScan =>
    simp only [receiverStep] at h
    split at h
    · split at h
      · obtain ⟨rfl, -⟩ := Prod.mk.inj (Option.some.inj h)
        rfl
      · cases h
    · cases h
  | allPublish =>
    simp only [receiverStep] at h
    split at h
    case h_1 command token mask _ =>
      have hnext : r' = (r.stepAllPublish command token mask).1 :=
        (congrArg Prod.fst (Option.some.inj h)).symm
      rw [hnext]
      unfold Receiver.stepAllPublish
      split
      · dsimp only
        rw [Receiver.publishAll_eq]
        split <;> rfl
      · rfl
    case h_2 => cases h
  | noteLayout =>
    simp only [receiverStep] at h
    split at h
    · obtain ⟨rfl, -⟩ := Prod.mk.inj (Option.some.inj h)
      rw [Receiver.testAllNoteLayout_eq]
    · cases h
  | updateEffective =>
    simp only [receiverStep] at h
    split at h
    · obtain ⟨rfl, -⟩ := Prod.mk.inj (Option.some.inj h)
      rw [Receiver.testAllUpdateEffective_eq]
    · cases h
  | reconcile now =>
    simp only [receiverStep] at h
    split at h
    · split at h <;> obtain ⟨rfl, -⟩ := Prod.mk.inj (Option.some.inj h) <;> rfl
    · cases h
  | reconcilePublish =>
    simp only [receiverStep] at h
    split at h
    · obtain ⟨rfl, -⟩ := Prod.mk.inj (Option.some.inj h)
      rw [Receiver.testAllReconcile_eq]
    · cases h

end RosterFrames

/-! ## The operations on the roster -/

/-- What is in RAM is what was saved last. -/
structure StoreConsistent (w : StoreWorld) : Prop where
  saved : w.flash trackerRosterKey =
    some (rosterRecord w.receiver.tdma.roster.storedTrackers w.receiver.tdma.roster.storedTrackerAddr)
  valid : rosterValid w.receiver.tdma.roster.storedTrackers w.receiver.tdma.roster.storedTrackerAddr = true
  empty : ∀ i, w.receiver.tdma.roster.storedTrackers ≤ i → w.receiver.tdma.roster.storedTrackerAddr i = 0

section RosterCalls

variable {t t' : Tdma} {addr : ℕ} {written : Bool} {flash : Flash}

theorem trackerRosterSave_eq_ok {count : ℕ} {addresses : ℕ → ℕ} :
    trackerRosterSave count addresses written = .ok () ↔ rosterValid count addresses = true ∧ written = true := by
  unfold trackerRosterSave
  cases rosterValid count addresses <;> cases written <;> simp

/-- An address already stored keeps its id. -/
theorem find_stored (hvalid : rosterValid t.roster.storedTrackers t.roster.storedTrackerAddr = true) {i : ℕ}
    (hi : i < t.roster.storedTrackers) : ((List.range t.roster.storedTrackers).find? fun j =>
      t.roster.storedTrackerAddr j == t.roster.storedTrackerAddr i) = some i := by
  rw [List.find?_range_eq_some]
  refine ⟨by simp, List.mem_range.mpr hi, fun j hj => ?_⟩
  rw [Bool.not_eq_true', beq_eq_false_iff_ne]
  exact fun hsame => (rosterValid_iff.mp hvalid).2.2 i hi j hj hsame.symm

/-- `esb_add_pair` of an address: an id it has, an error that changes nothing, or the next id and a save. -/
theorem esbAddPair_result (addr : ℕ) (written : Bool) (t : Tdma) (flash : Flash) :
    (∃ i, i < t.roster.storedTrackers ∧ t.roster.storedTrackerAddr i = addr ∧
        t.esbAddPair addr written = (.ok i, t) ∧ addPairFlash addr written t flash = flash) ∨
      (∃ err, t.esbAddPair addr written = (.error err, t) ∧ addPairFlash addr written t flash = flash) ∨
      ∃ t', t.esbAddPair addr written = (.ok t.roster.storedTrackers, t') ∧ t.roster.storeReady = true ∧
        t'.roster.storeReady = true ∧ t'.roster.storedTrackers = t.roster.storedTrackers + 1 ∧
        t'.roster.storedTrackerAddr = update t.roster.storedTrackerAddr t.roster.storedTrackers addr ∧
        rosterValid t'.roster.storedTrackers t'.roster.storedTrackerAddr = true ∧
        addPairFlash addr written t flash = update flash trackerRosterKey
          (some (rosterRecord t'.roster.storedTrackers t'.roster.storedTrackerAddr)) := by
  unfold Tdma.esbAddPair addPairFlash
  by_cases haddr : trackerRosterAddressValid addr = true
  · by_cases hready : t.roster.storeReady = true
    · rw [haddr, hready]
      simp only [Bool.not_true, Bool.false_eq_true, if_false, Bool.or_self]
      cases hfind : (List.range t.roster.storedTrackers).find? fun i => t.roster.storedTrackerAddr i == addr with
      | some i =>
        refine .inl ⟨i, List.mem_range.mp (List.mem_of_find?_eq_some hfind), ?_, rfl, rfl⟩
        exact eq_of_beq (List.find?_some (p := fun i => t.roster.storedTrackerAddr i == addr) hfind)
      | none =>
        dsimp only
        by_cases hroom : t.roster.storedTrackers < maxTrackers
        · rw [dif_pos hroom, if_pos hroom]
          cases hsave : trackerRosterSave (t.roster.storedTrackers + 1)
              (update t.roster.storedTrackerAddr t.roster.storedTrackers addr) written with
          | error err => exact .inr (.inl ⟨err, rfl, by rw [rosterSave, hsave]⟩)
          | ok =>
            obtain ⟨hvalid, -⟩ := trackerRosterSave_eq_ok.mp hsave
            exact .inr (.inr ⟨_, rfl, trivial, hready, rfl, rfl, hvalid, by rw [rosterSave, hsave]⟩)
        · rw [dif_neg hroom, if_neg hroom]
          exact .inr (.inl ⟨_, rfl, rfl⟩)
    · rw [Bool.not_eq_true] at hready
      rw [haddr, hready]
      exact .inr (.inl ⟨_, rfl, rfl⟩)
  · rw [Bool.not_eq_true] at haddr
    rw [haddr]
    exact .inr (.inl ⟨_, rfl, rfl⟩)

/-- `esb_pop_pair`: nothing changes, or the last tracker leaves and the rest is saved. -/
theorem esbPopPair_result (written : Bool) (t : Tdma) (flash : Flash) :
    (∃ result, t.esbPopPair written = (result, t) ∧ popPairFlash written t flash = flash) ∨
      ∃ t', t.esbPopPair written = (.ok (), t') ∧ t.roster.storeReady = true ∧ t'.roster.storeReady = true ∧
        t.roster.storedTrackers = t'.roster.storedTrackers + 1 ∧
        t'.roster.storedTrackerAddr = update t.roster.storedTrackerAddr t'.roster.storedTrackers 0 ∧
        rosterValid t'.roster.storedTrackers t'.roster.storedTrackerAddr = true ∧
        popPairFlash written t flash = update flash trackerRosterKey
          (some (rosterRecord t'.roster.storedTrackers t'.roster.storedTrackerAddr)) := by
  unfold Tdma.esbPopPair popPairFlash
  by_cases hready : t.roster.storeReady = true
  · rw [hready]
    by_cases hempty : t.roster.storedTrackers = 0
    · rw [if_neg (by decide), if_pos hempty, hempty]
      exact .inl ⟨_, rfl, rfl⟩
    · have hflash : ¬ ((!true || t.roster.storedTrackers == 0) = true) := by simpa using hempty
      rw [if_neg (by decide), if_neg hempty, if_neg hflash]
      dsimp only
      cases hsave : trackerRosterSave (t.roster.storedTrackers - 1)
          (update t.roster.storedTrackerAddr (t.roster.storedTrackers - 1) 0) written with
      | error err => exact .inl ⟨_, rfl, by rw [rosterSave, hsave]⟩
      | ok =>
        obtain ⟨hvalid, -⟩ := trackerRosterSave_eq_ok.mp hsave
        refine .inr ⟨_, rfl, rfl, ?_, ?_, ?_, ?_, ?_⟩
        · show (Tdma.trackerSlotReset _ _).roster.storeReady = true
          rw [Tdma.trackerSlotReset_roster]
          exact hready
        · show _ = (Tdma.trackerSlotReset _ _).roster.storedTrackers + 1
          rw [Tdma.trackerSlotReset_roster]
          show _ = t.roster.storedTrackers - 1 + 1
          omega
        all_goals simp only [Tdma.trackerSlotReset_roster, Tdma.withoutLast]
        · exact hvalid
        · rw [rosterSave, hsave]
  · rw [Bool.not_eq_true] at hready
    rw [hready]
    exact .inl ⟨_, rfl, rfl⟩

theorem cleared_roster (t : Tdma) : t.cleared.roster.storedTrackers = 0 ∧
    t.cleared.roster.storedTrackerAddr = (fun _ => 0) ∧ t.cleared.roster.storeReady = true := by
  unfold Tdma.cleared
  dsimp only
  rw [forBelow_frame Tdma.roster fun s i _ => Tdma.trackerSlotReset_roster i s]
  exact ⟨rfl, rfl, rfl⟩

/-- `esb_clear`: nothing changes, or the empty roster is saved. -/
theorem esbClear_result (written : Bool) (t : Tdma) (flash : Flash) :
    (∃ err, t.esbClear written = (.error err, t) ∧ clearFlash written flash = flash) ∨
      t.esbClear written = (.ok (), { t.cleared with storeTask := .recalculate true false }) ∧
        clearFlash written flash = update flash trackerRosterKey (some (rosterRecord 0 fun _ => 0)) := by
  unfold Tdma.esbClear clearFlash
  cases hsave : trackerRosterSave 0 (fun _ => 0) written with
  | error err => exact .inl ⟨err, rfl, by rw [rosterSave, hsave]⟩
  | ok => exact .inr ⟨rfl, by rw [rosterSave, hsave]⟩

end RosterCalls

/-! ## Steps of the world -/

section WorldSteps

variable {w w' : StoreWorld} {es : List StoreEvent}

/-- What a successful step of the receiver does to the world. -/
theorem StoreWorld.run_eq {op : ReceiverOp} {flash : Flash} {report : List ℕ → List StoreEvent}
    (h : w.run op flash report = some (w', es)) : ∃ r res, receiverStep w.receiver op = some (r, res) ∧
      w' = ⟨r, flash, invalidatePairings (resetIds res) w.pairingGenerations⟩ ∧ es = report (resetIds res) := by
  obtain ⟨⟨r, res⟩, hstep, heq⟩ := Option.map_eq_some_iff.mp h
  obtain ⟨rfl, rfl⟩ := Prod.mk.inj heq
  exact ⟨r, res, hstep, rfl, rfl⟩

theorem invalidatePairings_nil (generations : ℕ → BitVec 32) : invalidatePairings [] generations = generations := by
  funext id
  exact if_neg (List.not_mem_nil)

/-- A step of the receiver whose scheduler does nothing. -/
theorem stepRoster_same {r r' : Receiver} {top : TdmaOp} {res : List ReceiverEvent}
    (h : r.stepRoster top = some (r', res)) (hsame : tdmaStep r.tdma top = some (r.tdma, [])) :
    r' = r ∧ res = [] := by
  rw [Receiver.stepRoster, hsame] at h
  obtain ⟨rfl, rfl⟩ := Prod.mk.inj (Option.some.inj h)
  exact ⟨rfl, rfl⟩

theorem resetIds_scheduler (tes : List TdmaEvent) :
    resetIds (tes.map .scheduler) = Receiver.forgottenIds tes := by
  rw [resetIds, schedulerPart_map]

theorem stepRoster_tdma {r r' : Receiver} {top : TdmaOp} {res : List ReceiverEvent}
    (h : r.stepRoster top = some (r', res)) :
    ∃ tes, tdmaStep r.tdma top = some (r'.tdma, tes) ∧ resetIds res = Receiver.forgottenIds tes := by
  obtain ⟨⟨t, tes⟩, hstep, heq⟩ := Option.map_eq_some_iff.mp h
  obtain ⟨rfl, rfl⟩ := Prod.mk.inj heq
  exact ⟨tes, by rw [Receiver.resetSlots_tdma]; exact hstep, resetIds_scheduler tes⟩

theorem tdmaStep_idle {t : Tdma} (h : t.storeTask = .idle) (addr : ℕ) (written : Bool) :
    tdmaStep t (.addPair addr written) = some ((t.esbAddPair addr written).2,
      if (t.esbAddPair addr written).2.roster.storedTrackers ≠ t.roster.storedTrackers then
        [.forgotten t.roster.storedTrackers] else []) ∧
    tdmaStep t (.popPair written) = some ((t.esbPopPair written).2,
      if (t.esbPopPair written).2.roster.storedTrackers ≠ t.roster.storedTrackers then
        [.forgotten (t.roster.storedTrackers - 1)] else []) ∧
    tdmaStep t (.clear written) = some ((t.esbClear written).2,
      if (t.esbClear written).2.storeTask = .recalculate true false then
        (List.range maxTrackers).map .forgotten else []) := by
  unfold tdmaStep
  rw [h]
  exact ⟨rfl, rfl, rfl⟩

theorem storeTask_of_storeFree {r : Receiver} (h : r.storeFree = true) : r.tdma.storeTask = .idle :=
  (of_decide_eq_true h).1

/-- The step of `esb_add_pair`. -/
theorem addPair_step {addr : ℕ} {written : Bool} (h : storeStep w (.addPair addr written) = some (w', es)) :
    (∃ i, i < w.receiver.tdma.roster.storedTrackers ∧ w.receiver.tdma.roster.storedTrackerAddr i = addr ∧
        w' = w ∧ es = [.returned (.ok i)]) ∨
      (∃ err, w' = w ∧ es = [.returned (.error (.store err))]) ∨
      w.receiver.tdma.roster.storeReady = true ∧ w'.receiver.tdma.roster.storeReady = true ∧
        es = [.returned (.ok w.receiver.tdma.roster.storedTrackers)] ∧
        w'.receiver.tdma.roster.storedTrackers = w.receiver.tdma.roster.storedTrackers + 1 ∧
        w'.receiver.tdma.roster.storedTrackerAddr = update w.receiver.tdma.roster.storedTrackerAddr
          w.receiver.tdma.roster.storedTrackers addr ∧
        rosterValid w'.receiver.tdma.roster.storedTrackers w'.receiver.tdma.roster.storedTrackerAddr = true ∧
        w'.flash = update w.flash trackerRosterKey (some (rosterRecord
          w'.receiver.tdma.roster.storedTrackers w'.receiver.tdma.roster.storedTrackerAddr)) := by
  simp only [storeStep] at h
  obtain ⟨r, res, hstep, rfl, rfl⟩ := StoreWorld.run_eq h
  simp only [receiverStep] at hstep
  split at hstep
  case isFalse => cases hstep
  case isTrue hfree =>
    have htask := storeTask_of_storeFree hfree
    have htdma := (tdmaStep_idle htask addr written).1
    rcases esbAddPair_result addr written w.receiver.tdma w.flash with
      ⟨i, hi, haddr, hcall, hflash⟩ | ⟨err, hcall, hflash⟩ |
      ⟨t', hcall, hready, hready', hcount, haddr, hvalid, hflash⟩
    · rw [hcall, if_neg (by simp)] at htdma
      obtain ⟨rfl, rfl⟩ := stepRoster_same hstep htdma
      refine .inl ⟨i, hi, haddr, ?_, by rw [hcall]; rfl⟩
      rw [hflash]
      exact congrArg (StoreWorld.mk _ _) (invalidatePairings_nil _)
    · rw [hcall, if_neg (by simp)] at htdma
      obtain ⟨rfl, rfl⟩ := stepRoster_same hstep htdma
      refine .inr (.inl ⟨err, ?_, by rw [hcall]; rfl⟩)
      rw [hflash]
      exact congrArg (StoreWorld.mk _ _) (invalidatePairings_nil _)
    · obtain ⟨tes, htaken, -⟩ := stepRoster_tdma hstep
      rw [hcall] at htdma
      obtain ⟨hnext, -⟩ := Prod.mk.inj (Option.some.inj (htaken.symm.trans htdma))
      refine .inr (.inr ⟨hready, ?_, by rw [hcall]; rfl, ?_, ?_, ?_, ?_⟩)
      all_goals simp only [hnext]
      · exact hready'
      · exact hcount
      · exact haddr
      · exact hvalid
      · exact hflash

/-- The step of `esb_pop_pair`. -/
theorem popPair_step {written : Bool} (h : storeStep w (.popPair written) = some (w', es)) :
    w' = w ∨ (∃ result, .returned (.ok result) ∈ es) ∧ (∀ failure, .returned (.error failure) ∉ es) ∧
      .removed w'.receiver.tdma.roster.storedTrackers ∈ es ∧ w.receiver.tdma.roster.storeReady = true ∧
        w'.receiver.tdma.roster.storeReady = true ∧
        w.receiver.tdma.roster.storedTrackers = w'.receiver.tdma.roster.storedTrackers + 1 ∧
        w'.receiver.tdma.roster.storedTrackerAddr = update w.receiver.tdma.roster.storedTrackerAddr
          w'.receiver.tdma.roster.storedTrackers 0 ∧
        rosterValid w'.receiver.tdma.roster.storedTrackers w'.receiver.tdma.roster.storedTrackerAddr = true ∧
        w'.flash = update w.flash trackerRosterKey (some (rosterRecord
          w'.receiver.tdma.roster.storedTrackers w'.receiver.tdma.roster.storedTrackerAddr)) := by
  simp only [storeStep] at h
  obtain ⟨r, res, hstep, rfl, rfl⟩ := StoreWorld.run_eq h
  simp only [receiverStep] at hstep
  split at hstep
  case isFalse => cases hstep
  case isTrue hfree =>
    have htask := storeTask_of_storeFree hfree
    have htdma := (tdmaStep_idle htask 0 written).2.1
    rcases esbPopPair_result written w.receiver.tdma w.flash with
      ⟨result, hcall, hflash⟩ | ⟨t', hcall, hready, hready', hcount, haddr, hvalid, hflash⟩
    · rw [hcall, if_neg (by simp)] at htdma
      obtain ⟨rfl, rfl⟩ := stepRoster_same hstep htdma
      left
      rw [hflash]
      exact congrArg (StoreWorld.mk _ _) (invalidatePairings_nil _)
    · obtain ⟨tes, htaken, hids⟩ := stepRoster_tdma hstep
      rw [hcall, if_pos (by simp only []; omega)] at htdma
      obtain ⟨hnext, htes⟩ := Prod.mk.inj (Option.some.inj (htaken.symm.trans htdma))
      have hremoved : resetIds res = [t'.roster.storedTrackers] := by
        rw [hids, htes, hcount]
        rfl
      right
      simp only [hnext, hremoved, hcall, storeResult]
      refine ⟨⟨0, by simp⟩, by simp, by simp, hready, hready', hcount, haddr, hvalid, hflash⟩

/-- The step of `esb_clear`. -/
theorem clear_step {written : Bool} (h : storeStep w (.clear written) = some (w', es)) :
    w' = w ∨ (∀ failure, .returned (.error failure) ∉ es) ∧
      (∀ i < maxTrackers, .removed i ∈ es) ∧ w'.receiver.tdma.roster.storedTrackers = 0 ∧
        w'.receiver.tdma.roster.storedTrackerAddr = (fun _ => 0) ∧
        w'.flash = update w.flash trackerRosterKey (some (rosterRecord 0 fun _ => 0)) := by
  simp only [storeStep] at h
  obtain ⟨r, res, hstep, rfl, rfl⟩ := StoreWorld.run_eq h
  simp only [receiverStep] at hstep
  split at hstep
  case isFalse => cases hstep
  case isTrue hfree =>
    have htask := storeTask_of_storeFree hfree
    have htdma := (tdmaStep_idle htask 0 written).2.2
    obtain ⟨⟨r₁, res₁⟩, hroster, heq⟩ := Option.map_eq_some_iff.mp hstep
    rcases esbClear_result written w.receiver.tdma w.flash with ⟨err, hcall, hflash⟩ | ⟨hcall, hflash⟩
    · rw [hcall, if_neg (by rw [htask]; exact fun hbusy => by cases hbusy)] at htdma
      obtain ⟨rfl, rfl⟩ := stepRoster_same hroster htdma
      rw [if_pos htask] at heq
      obtain ⟨rfl, rfl⟩ := Prod.mk.inj heq
      left
      rw [hflash]
      exact congrArg (StoreWorld.mk _ _) (invalidatePairings_nil _)
    · obtain ⟨tes, htaken, hids⟩ := stepRoster_tdma hroster
      rw [hcall, if_pos rfl] at htdma
      obtain ⟨hnext, htes⟩ := Prod.mk.inj (Option.some.inj (htaken.symm.trans htdma))
      have hbusy : r₁.tdma.storeTask ≠ .idle := by
        rw [hnext]
        exact fun hidle => by cases hidle
      rw [if_neg hbusy] at heq
      obtain ⟨rfl, rfl⟩ := Prod.mk.inj heq
      obtain ⟨hcount, haddr, -⟩ := cleared_roster w.receiver.tdma
      have hsame : r₁.clearPolicy.tdma = r₁.tdma := rfl
      have hremoved : resetIds (.policyCleared :: res₁) = List.range maxTrackers := by
        show resetIds res₁ = _
        rw [hids, htes]
        rfl
      right
      simp only [hsame, hnext, hremoved, hcall, storeResult]
      refine ⟨by simp, fun i hi => ?_, hcount, haddr, hflash⟩
      exact List.mem_append_left _ (List.mem_map.mpr ⟨i, List.mem_range.mpr hi, rfl⟩)

/-- The step of `tracker_store_restore`. -/
theorem restore_step {fault : ℕ → Bool} {written : Bool}
    (h : storeStep w (.restore fault written) = some (w', es)) :
    w' = w ∨ w.receiver.tdma.roster.storeReady = false ∧ es = [.returned (.ok 0)] ∧ StoreConsistent w' := by
  simp only [storeStep] at h
  split at h
  · cases h
  rename_i hbusy
  have hfree : w.receiver.storeFree = true := by simpa using hbusy
  split at h
  · exact .inl (Prod.mk.inj (Option.some.inj h)).1.symm
  rename_i hready
  rw [Bool.not_eq_true] at hready
  split at h
  case h_1 err out flash hload =>
    obtain ⟨-, rfl⟩ := load_error hload
    exact .inl (Prod.mk.inj (Option.some.inj h)).1.symm
  case h_2 out flash hload =>
    obtain ⟨r, res, hstep, rfl, rfl⟩ := StoreWorld.run_eq h
    have hloaded : flash trackerRosterKey = some (rosterRecord out.count out.addresses) ∧
        rosterValid out.count out.addresses = true ∧ ∀ i, out.count ≤ i → out.addresses i = 0 := by
      cases hread : sysReadChecked fault w.flash trackerRosterKey with
      | record bytes =>
        obtain ⟨hbytes, hvalid, hzero, rfl⟩ := (load_of_record hread).mp hload
        refine ⟨?_, hvalid, hzero⟩
        rw [← hbytes]
        unfold sysReadChecked at hread
        split at hread
        · cases hread
        split at hread
        · cases hread
        · rename_i hflash
          rw [hflash, ReadResult.record.inj hread]
      | missing =>
        obtain ⟨hlegacy, -, rfl⟩ := (load_of_missing hread).mp hload
        exact ⟨update_self _ _ _, hlegacy.2.2.2, hlegacy.2.2.1⟩
      | failed =>
        simp only [trackerRosterLoad, hread] at hload
        cases hload
    obtain ⟨hflash, hvalid, hzero⟩ := hloaded
    have hcount : out.count ≤ maxTrackers := (rosterValid_iff.mp hvalid).1
    simp only [receiverStep, hfree, if_true] at hstep
    obtain ⟨⟨t, tes⟩, htdma, heq⟩ := Option.map_eq_some_iff.mp hstep
    obtain ⟨rfl, rfl⟩ := Prod.mk.inj heq
    simp only [tdmaStep, storeTask_of_storeFree hfree, Tdma.trackerStoreRestore, hready, Bool.false_eq_true,
      if_false, dif_pos hcount] at htdma
    obtain ⟨rfl, -⟩ := Prod.mk.inj (Option.some.inj htdma)
    exact .inr ⟨hready, rfl, hflash, hvalid, hzero⟩

end WorldSteps

/-! ## Consistency -/

section Consistency

variable {flash : Flash} {w w' : StoreWorld} {op : StoreOp} {es trace : List StoreEvent}

/-- A step whose receiver keeps its roster keeps the agreement of RAM and flash. -/
theorem StoreConsistent.of_eq (h : StoreConsistent w)
    (hroster : w'.receiver.tdma.roster = w.receiver.tdma.roster) (hflash : w'.flash = w.flash) :
    StoreConsistent w' := by
  constructor
  · rw [hroster, hflash]
    exact h.saved
  · rw [hroster]
    exact h.valid
  · rw [hroster]
    exact h.empty

theorem other_step {rop : ReceiverOp} (h : storeStep w (.other rop) = some (w', es)) :
    w'.receiver.tdma.roster = w.receiver.tdma.roster ∧ w'.flash = w.flash ∧ es = [] := by
  simp only [storeStep] at h
  split at h
  · cases h
  rename_i hop
  obtain ⟨r, res, hstep, rfl, rfl⟩ := StoreWorld.run_eq h
  exact ⟨receiverStep_roster hstep (by simpa using hop), rfl, rfl⟩

/-- One step keeps the agreement. -/
theorem storeConsistent_step (h : w.receiver.tdma.roster.storeReady = true → StoreConsistent w)
    (hstep : storeStep w op = some (w', es)) :
    w'.receiver.tdma.roster.storeReady = true → StoreConsistent w' := by
  intro hready'
  cases op with
  | addPair addr written =>
    rcases addPair_step hstep with ⟨i, -, -, rfl, -⟩ | ⟨err, rfl, -⟩ |
      ⟨hready, -, -, hcount, haddr, hvalid, hflash⟩
    · exact h hready'
    · exact h hready'
    · refine ⟨by rw [hflash, update_self], hvalid, fun i hi => ?_⟩
      rw [hcount] at hi
      rw [haddr, update_of_ne (by omega)]
      exact (h hready).empty i (by omega)
  | popPair written =>
    rcases popPair_step hstep with rfl | ⟨-, -, -, hready, -, hcount, haddr, hvalid, hflash⟩
    · exact h hready'
    · refine ⟨by rw [hflash, update_self], hvalid, fun i hi => ?_⟩
      rw [haddr]
      rcases hi.eq_or_lt with rfl | hlt
      · rw [update_self]
      · rw [update_of_ne (by omega)]
        exact (h hready).empty i (by omega)
  | clear written =>
    rcases clear_step hstep with rfl | ⟨-, -, hcount, haddr, hflash⟩
    · exact h hready'
    · refine ⟨by rw [hflash, update_self, hcount, haddr], ?_, fun i _ => by rw [haddr]⟩
      rw [hcount, haddr]
      rfl
  | restore fault written =>
    rcases restore_step hstep with rfl | ⟨-, -, hconsistent⟩
    · exact h hready'
    · exact hconsistent
  | other rop =>
    obtain ⟨hroster, hflash, -⟩ := other_step hstep
    rw [hroster] at hready'
    exact (h hready').of_eq hroster hflash

theorem storeConsistent_run (h : (storeSystem flash).Run trace w) :
    w.receiver.tdma.roster.storeReady = true → StoreConsistent w :=
  h.invariant (P := fun w => w.receiver.tdma.roster.storeReady = true → StoreConsistent w)
    (fun hready => by cases hready) fun _ _ _ _ hw _ htaken => storeConsistent_step hw htaken

/-- A call that fails changes nothing at all. -/
theorem failed_step (h : storeStep w op = some (w', es)) {failure : StoreFailure}
    (hfailed : .returned (.error failure) ∈ es) : w' = w := by
  cases op with
  | addPair addr written =>
    rcases addPair_step h with ⟨i, -, -, hsame, -⟩ | ⟨err, hsame, -⟩ | ⟨-, -, hes, -⟩
    · exact hsame
    · exact hsame
    · rw [hes] at hfailed
      simp at hfailed
  | popPair written =>
    rcases popPair_step h with hsame | ⟨-, hok, -⟩
    · exact hsame
    · exact absurd hfailed (hok failure)
  | clear written =>
    rcases clear_step h with hsame | ⟨hok, -⟩
    · exact hsame
    · exact absurd hfailed (hok failure)
  | restore fault written =>
    rcases restore_step h with hsame | ⟨-, hes, -⟩
    · exact hsame
    · rw [hes] at hfailed
      simp at hfailed
  | other rop =>
    rw [(other_step h).2.2] at hfailed
    cases hfailed

/-- A step keeps the id of an address it does not remove. -/
theorem kept_step (hready : w.receiver.tdma.roster.storeReady = true) (h : storeStep w op = some (w', es)) {i : ℕ}
    (hi : i < w.receiver.tdma.roster.storedTrackers) (hkept : .removed i ∉ es) :
    w'.receiver.tdma.roster.storeReady = true ∧ i < w'.receiver.tdma.roster.storedTrackers ∧
      w'.receiver.tdma.roster.storedTrackerAddr i = w.receiver.tdma.roster.storedTrackerAddr i := by
  cases op with
  | addPair addr written =>
    rcases addPair_step h with ⟨j, -, -, rfl, -⟩ | ⟨err, rfl, -⟩ | ⟨-, hready', -, hcount, haddr, -, -⟩
    · exact ⟨hready, hi, rfl⟩
    · exact ⟨hready, hi, rfl⟩
    · exact ⟨hready', by omega, by rw [haddr, update_of_ne (by omega)]⟩
  | popPair written =>
    rcases popPair_step h with rfl | ⟨-, -, hremoved, -, hready', hcount, haddr, -, -⟩
    · exact ⟨hready, hi, rfl⟩
    · have hne : i ≠ w'.receiver.tdma.roster.storedTrackers := by
        rintro rfl
        exact hkept hremoved
      exact ⟨hready', by omega, by rw [haddr, update_of_ne hne]⟩
  | clear written =>
    rcases clear_step h with rfl | ⟨-, hremoved, -⟩
    · exact ⟨hready, hi, rfl⟩
    · exact absurd (hremoved i (hi.trans_le w.receiver.tdma.roster.stored_le)) hkept
  | restore fault written =>
    rcases restore_step h with rfl | ⟨hnot, -⟩
    · exact ⟨hready, hi, rfl⟩
    · exact absurd (hready.symm.trans hnot) (by decide)
  | other rop =>
    obtain ⟨hroster, -⟩ := other_step h
    rw [hroster]
    exact ⟨hready, hi, rfl⟩

/-- Adding an address that is stored changes nothing and returns its id. -/
theorem addPair_stored (hconsistent : StoreConsistent w) {i : ℕ} {written : Bool}
    (hi : i < w.receiver.tdma.roster.storedTrackers) (hready : w.receiver.tdma.roster.storeReady = true)
    (h : storeStep w (.addPair (w.receiver.tdma.roster.storedTrackerAddr i) written) = some (w', es)) :
    w' = w ∧ es = [.returned (.ok i)] := by
  have hcall : w.receiver.tdma.esbAddPair (w.receiver.tdma.roster.storedTrackerAddr i) written =
      (.ok i, w.receiver.tdma) := by
    unfold Tdma.esbAddPair
    rw [(rosterValid_iff.mp hconsistent.valid).2.1 i hi, hready, if_neg (by decide), if_neg (by decide),
      find_stored hconsistent.valid hi]
  have hes : es = [.returned (storeResult (fun id => id) (w.receiver.tdma.esbAddPair
      (w.receiver.tdma.roster.storedTrackerAddr i) written).1)] := by
    simp only [storeStep] at h
    obtain ⟨r, res, -, -, hes⟩ := StoreWorld.run_eq h
    exact hes
  rw [hcall] at hes
  refine ⟨?_, hes⟩
  rcases addPair_step h with ⟨j, -, -, hsame, -⟩ | ⟨err, hsame, -⟩ | ⟨-, -, hes', -⟩
  · exact hsame
  · exact hsame
  · rw [hes] at hes'
    simp only [storeResult, List.cons.injEq, StoreEvent.returned.injEq, Except.ok.injEq, and_true] at hes'
    omega

end Consistency

/-- The roster in RAM is the one saved last, valid and zero behind its last address; a call that fails changes
nothing; an address that is stored is added without a change; and an address keeps its id until it is removed. -/
theorem pairing_store_consistent (flash : Flash) {trace : List StoreEvent} {w : StoreWorld}
    (h : (storeSystem flash).Run trace w) :
    (w.receiver.tdma.roster.storeReady = true → StoreConsistent w) ∧
    (∀ op w' es failure, storeStep w op = some (w', es) → .returned (.error failure) ∈ es → w' = w) ∧
    (w.receiver.tdma.roster.storeReady = true → ∀ i, i < w.receiver.tdma.roster.storedTrackers →
      (∀ written w' es, storeStep w (.addPair (w.receiver.tdma.roster.storedTrackerAddr i) written) = some (w', es) →
        w' = w ∧ es = [.returned (.ok i)]) ∧
      ∀ later w', ((storeSystem flash).startingAt w).Run later w' → .removed i ∉ later →
        i < w'.receiver.tdma.roster.storedTrackers ∧
          w'.receiver.tdma.roster.storedTrackerAddr i = w.receiver.tdma.roster.storedTrackerAddr i) := by
  refine ⟨storeConsistent_run h, fun op w' es failure hstep hfailed => failed_step hstep hfailed,
    fun hready i hi => ⟨fun written w' es => addPair_stored (storeConsistent_run h hready) hi hready, ?_⟩⟩
  intro later w' hlater hkept
  have hall : .removed i ∉ later → w'.receiver.tdma.roster.storeReady = true ∧
      i < w'.receiver.tdma.roster.storedTrackers ∧
        w'.receiver.tdma.roster.storedTrackerAddr i = w.receiver.tdma.roster.storedTrackerAddr i := by
    clear hkept
    induction hlater with
    | start => exact fun _ => ⟨hready, hi, rfl⟩
    | snoc _ _ htaken ih =>
      intro hkept
      rw [List.mem_append, not_or] at hkept
      obtain ⟨hready₁, hi₁, haddr₁⟩ := ih hkept.1
      obtain ⟨hready₂, hi₂, haddr₂⟩ := kept_step hready₁ htaken hi₁ hkept.2
      exact ⟨hready₂, hi₂, haddr₂.trans haddr₁⟩
  exact (hall hkept).2

/-- Two trackers are paired on an empty flash after a write that failed, and the second is removed again. -/
theorem pairing_store_consistent_two : ∃ trace w, (storeSystem fun _ => none).Run trace w ∧
    w.receiver.tdma.roster.storedTrackers = 1 ∧ StoreConsistent w := by
  obtain ⟨trace, w, hrun, htest⟩ := (storeSystem fun _ => none).exists_run_of_replay
    [.restore (fun _ => false) true, .addPair 0x1234 false, .addPair 0x1234 true, .addPair 0x5678 true,
      .popPair true]
    (fun _ w => decide (w.receiver.tdma.roster.storedTrackers = 1 ∧ w.receiver.tdma.roster.storeReady = true))
    (by decide +kernel)
  obtain ⟨hcount, hready⟩ := of_decide_eq_true htest
  exact ⟨trace, w, hrun, hcount, (pairing_store_consistent _ hrun).1 hready⟩

end SlimeReceiver
