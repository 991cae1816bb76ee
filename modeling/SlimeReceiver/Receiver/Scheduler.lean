import SlimeReceiver.Receiver.Steps

/-! # The scheduler inside the receiver

What a step of the receiver does to the scheduler is a step of the scheduler's own system, so that
every result about `tdmaSystem` holds of the receiver.

* **`schedulerPart`** — the events that concern the scheduler.
* **`schedulerProjection`** — the scheduler as a component. -/

namespace SlimeReceiver

open Receiver

/-- The event of the scheduler in an event of the receiver. -/
def schedulerPart : ReceiverEvent → Option TdmaEvent
  | .scheduler e => some e
  | _ => none

/-- The scheduler's share of the events of a step. -/
@[simp] theorem schedulerPart_map (es : List TdmaEvent) :
    (es.map ReceiverEvent.scheduler).filterMap schedulerPart = es := by
  rw [List.filterMap_map]
  exact List.filterMap_some

/-- Events outside the scheduler have no share in it. -/
theorem schedulerPart_eq_nil {es : List ReceiverEvent} (h : ∀ e ∈ es, schedulerPart e = none) :
    es.filterMap schedulerPart = [] := List.filterMap_eq_nil_iff.mpr h

theorem schedulerPart_fenced : [ReceiverEvent.fenced].filterMap schedulerPart = [] := rfl

namespace Receiver

variable {r r' : Receiver} {op : ReceiverOp} {es : List ReceiverEvent}

/-- A step leaves the scheduler alone or takes one of its steps. -/
def SchedulerStep (r r' : Receiver) (es : List ReceiverEvent) : Prop :=
  (r'.tdma = r.tdma ∧ es.filterMap schedulerPart = []) ∨
    ∃ op, tdmaStep r.tdma op = some (r'.tdma, es.filterMap schedulerPart)

theorem resetSlots_tdma (ids : List ℕ) (r : Receiver) :
    (ids.foldl (fun r id => r.resetSlot id) r).tdma = r.tdma := by
  induction ids generalizing r with
  | nil => rfl
  | cons id ids ih => exact ih (r.resetSlot id)

/-- An observation is the scheduler's own step. -/
theorem schedulerStep_observe (onOwnPipe : Bool) (trackerId : ℕ) (evidence : ShadowEvidence)
    (htdma : r'.tdma = (r.observe onOwnPipe trackerId evidence).tdma)
    (hes : es.filterMap schedulerPart = (r.observeEvents onOwnPipe trackerId).filterMap schedulerPart) :
    SchedulerStep r r' es := by
  unfold observe at htdma
  unfold observeEvents eventIf at hes
  cases onOwnPipe with
  | false => exact .inl ⟨htdma, by rw [hes]; rfl⟩
  | true =>
    refine .inr ⟨.observe trackerId evidence, ?_⟩
    rw [htdma, hes]
    simp only [tdmaStep, if_true, true_and]
    split <;> rfl

theorem sequenceEvent_schedulerPart (trackerId : ℕ) (seq : BitVec 8) (r : Receiver) :
    schedulerPart (r.sequenceEvent trackerId seq) = none := by
  unfold sequenceEvent packetEvent
  split <;> rfl

theorem forwardData_tdma (trackerId : ℕ) (result : SequenceResult) (isStatus : Bool) (r : Receiver) :
    (r.forwardData trackerId result isStatus).tdma = r.tdma := by
  unfold forwardData
  split
  · rfl
  · simp only []
    split <;> split <;> rfl

theorem graceEvents_schedulerPart (c : Prop) [Decidable c] (trackerId now : ℕ) :
    (eventIf c (.graceArmed trackerId now)).filterMap schedulerPart = [] := by
  refine schedulerPart_eq_nil fun e he => ?_
  rw [(mem_eventIf.mp he).2]
  rfl

theorem observe_tdma (onOwnPipe : Bool) (trackerId : ℕ) (evidence : ShadowEvidence) {r r₁ : Receiver}
    (h : r₁.tdma = r.tdma) : (r₁.observe onOwnPipe trackerId evidence).tdma =
      (r.observe onOwnPipe trackerId evidence).tdma := by
  unfold observe
  split <;> simp only [h]

theorem pingEvents_schedulerPart (p : PingPacket) (r : Receiver) :
    (r.pingEvents p).filterMap schedulerPart = [] := by
  refine schedulerPart_eq_nil fun e he => ?_
  rcases of_mem_pingEvents he with rfl | rfl | rfl | rfl <;> rfl

theorem reconcileEvents_schedulerPart (now : ℕ) (enabled : Bool) (r : Receiver) :
    (r.reconcileEvents now enabled).filterMap schedulerPart = [] := by
  refine schedulerPart_eq_nil fun e he => ?_
  rcases of_mem_reconcileEvents he with ⟨i, rfl⟩ | ⟨i, rfl⟩ <;> rfl

theorem noteLayoutEvents_schedulerPart (oldMask newMask : TrackerMask) (now : ℕ) (r : Receiver) :
    (r.noteLayoutEvents oldMask newMask now).filterMap schedulerPart = [] := by
  refine schedulerPart_eq_nil fun e he => ?_
  rcases of_mem_noteLayoutEvents he with ⟨i, rfl⟩ | ⟨i, rfl⟩ <;> rfl

theorem updateEffectiveEvents_schedulerPart (activeCount now : ℕ) (r : Receiver) :
    (r.updateEffectiveEvents activeCount now).filterMap schedulerPart = [] := by
  refine schedulerPart_eq_nil fun e he => ?_
  rcases of_mem_updateEffectiveEvents he with ⟨i, rfl⟩ | ⟨i, rfl⟩ <;> rfl

theorem publishAllEvents_schedulerPart (command : AllCommand) (mask : TrackerMask) (r : Receiver) :
    (r.publishAllEvents command mask).filterMap schedulerPart = [] := by
  refine schedulerPart_eq_nil fun e he => ?_
  rcases of_mem_publishAllEvents he with rfl | ⟨rfl, -⟩ | ⟨i, rfl⟩ | ⟨i, rfl⟩ <;> rfl

/-- The publication of an all-target command invalidates the loss evidence or leaves it. -/
theorem schedulerStep_publishAll (command : AllCommand) (mask : TrackerMask) (r : Receiver) :
    SchedulerStep r { r.publishAll command mask with broadcastTask := .idle }
      (r.publishAllEvents command mask) := by
  unfold SchedulerStep
  rw [publishAllEvents_schedulerPart]
  cases command with
  | on tps => exact .inr ⟨.autoLossInvalidate, rfl⟩
  | off => exact .inl ⟨rfl, rfl⟩

/-- **The scheduler at a step of the receiver.** -/
theorem schedulerStep (h : ReceiverRel r op r' es) : SchedulerStep r r' es := by
  cases h with
  | stutter | commandQueued | clearOtaAbort | allGuard | allToken | allScan | allAbort | allRelease
  | reconcile | reconcileRead | womRequest | womCancel | testTargeted | autoLossFence =>
    exact .inl ⟨rfl, rfl⟩
  | plain _ top t tes _ hstep | roster _ top t tes _ hstep =>
    refine .inr ⟨top, ?_⟩
    simpa only [schedulerPart_map, resetSlots_tdma] using hstep
  | lossTick env t tes hstep =>
    refine .inr ⟨.lossTick (r.tickInput env), ?_⟩
    simpa only [schedulerPart_map] using hstep
  | lossTickRebase env t tes hstep =>
    refine .inr ⟨.lossTick (r.tickInput env), ?_⟩
    rw [List.filterMap_append, schedulerPart_map, schedulerPart_fenced, List.append_nil]
    exact hstep
  | pass collecting t tes hstep =>
    refine .inr ⟨.pass ⟨r.testAll.enabled, collecting⟩, ?_⟩
    simpa only [schedulerPart_map] using hstep
  | passPublished collecting t tes p hstep =>
    refine .inr ⟨.pass ⟨r.testAll.enabled, collecting⟩, ?_⟩
    rw [List.filterMap_append, schedulerPart_map, schedulerPart_fenced, List.append_nil]
    exact hstep
  | clear written t tes hstep =>
    refine .inr ⟨.clear written, ?_⟩
    rw [List.filterMap_cons_none rfl, schedulerPart_map]
    simpa [clearPolicy, testAllInvalidate, resetSlots_tdma] using hstep
  | resetAllStats | autoLossInvalidate | rxDiscontinuity => exact .inr ⟨.autoLossInvalidate, rfl⟩
  | data trackerId seq onOwnPipe isStatus =>
    refine schedulerStep_observe onOwnPipe trackerId .data ?_ ?_
    · rw [forwardData_tdma]
      exact observe_tdma _ _ _ (checkPacketSequence_tdma _ _ _)
    · rw [List.filterMap_cons_none (sequenceEvent_schedulerPart trackerId seq r),
        List.filterMap_append, graceEvents_schedulerPart, List.append_nil]
  | ackPing env p =>
    refine .inl ⟨by rw [ackPing_eq], ?_⟩
    cases (r.ackPing env p).2 <;> rfl
  | ping p =>
    refine schedulerStep_observe (p.crcValid && p.onOwnPipe) p.trackerId .ping ?_ ?_
    · exact observe_tdma _ _ _ (by rw [receivePing_eq])
    · rw [List.filterMap_append, pingEvents_schedulerPart, List.append_nil]
  | womResult id token =>
    refine .inl ⟨by rw [womResult_eq], ?_⟩
    cases (r.womResult id token).2 <;> rfl
  | allPublish command _ mask => exact schedulerStep_publishAll command mask r
  | noteLayout =>
    exact .inl ⟨by rw [testAllNoteLayout_eq], noteLayoutEvents_schedulerPart _ _ _ _⟩
  | updateEffective =>
    exact .inl ⟨by rw [testAllUpdateEffective_eq], updateEffectiveEvents_schedulerPart _ _ _⟩
  | reconcilePublish =>
    exact .inl ⟨by rw [testAllReconcile_eq], reconcileEvents_schedulerPart _ _ _⟩

/-- The scheduler as a component of the receiver. -/
def schedulerProjection : EventSystem.Projection receiverSystem tdmaSystem where
  state := Receiver.tdma
  event := schedulerPart
  init := rfl
  step _ _ _ _ h := schedulerStep (receiverStep_rel h)

end Receiver

end SlimeReceiver
