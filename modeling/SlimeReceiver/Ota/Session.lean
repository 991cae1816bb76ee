import SlimeReceiver.Ota.Relay

/-! # Sessions

A session lasts while it has targets.

* **`SessionInvariant`** — what every critical section leaves behind.
* **`removeTarget_ended`**, **`cancelEach_targets`**, **`noteStatus_session`** — a critical section that
  removes the last target says so. -/

namespace SlimeReceiver.Ota

open Function (update)

/-! ## The session -/

/-- `ota_relay.active`, the targets and the participating trackers agree. -/
structure SessionInvariant (r : Relay) : Prop where
  active : r.active = true ↔ r.targets ≠ []
  nodup : r.targets.Nodup
  few : r.targets.length ≤ otaMaxParallel
  participating : ∀ id, id ∈ r.targets ↔ (r.tracker id).participating = true
  bounded : ∀ id ∈ r.targets, id < maxTrackers

section Sections

variable {r r' : Relay} {id : ℕ} {now : BitVec 32} {report : HidReport}

/-- Nothing else of the relay matters. -/
theorem SessionInvariant.frame (h : SessionInvariant r) (hactive : r'.active = r.active)
    (htargets : r'.targets = r.targets)
    (hparticipating : ∀ id, (r'.tracker id).participating = (r.tracker id).participating) :
    SessionInvariant r' where
  active := by
    rw [hactive, htargets]
    exact h.active
  nodup := htargets ▸ h.nodup
  few := htargets ▸ h.few
  participating id := by
    rw [htargets, hparticipating]
    exact h.participating id
  bounded := htargets ▸ h.bounded

/-- A tracker is changed otherwise. -/
theorem participating_update {tracker : ℕ → OtaPerTracker} {t : OtaPerTracker}
    (h : t.participating = (tracker id).participating) (other : ℕ) :
    (update tracker id t other).participating = (tracker other).participating := by
  by_cases hsame : other = id
  · rw [hsame, Function.update_self, h]
  · rw [Function.update_of_ne hsame]

theorem sessionInvariant_init : SessionInvariant .init where
  active := ⟨fun h => (by cases h), fun h => absurd rfl h⟩
  nodup := .nil
  few := Nat.zero_le _
  participating id := ⟨fun h => (by cases h), fun h => (by cases h)⟩
  bounded id h := by cases h

/-- What a removal does, if it does anything. -/
theorem removeTarget_of_participating (h : SessionInvariant r)
    (hin : (r.tracker id).participating = true) :
    (r.removeTarget id).1.targets = r.targets.filter (fun target => target != id) ∧
      (r.removeTarget id).1.active = (if r.targets.filter (fun target => target != id) = [] then false
        else r.active) ∧
      (r.removeTarget id).1.tracker = update r.tracker id { r.tracker id with participating := false } ∧
      (r.removeTarget id).2 = (r.targets.filter fun target => target != id).isEmpty := by
  have hbounded := h.bounded id ((h.participating id).mpr hin)
  unfold Relay.removeTarget
  rw [if_neg fun hout => hout.elim (fun hle => absurd hbounded (not_lt.mpr hle))
    fun hfalse => Bool.false_ne_true (hfalse.symm.trans hin)]
  exact ⟨rfl, rfl, rfl, rfl⟩

theorem removeTarget_of_not (hout : (r.tracker id).participating = false) :
    r.removeTarget id = (r, false) := by
  unfold Relay.removeTarget
  rw [if_pos (.inr hout)]

theorem SessionInvariant.removeTarget (h : SessionInvariant r) (id : ℕ) :
    SessionInvariant (r.removeTarget id).1 := by
  by_cases hin : (r.tracker id).participating = true
  · obtain ⟨htargets, hactive, htracker, -⟩ := removeTarget_of_participating h hin
    refine ⟨?_, ?_, ?_, fun other => ?_, fun other hother => ?_⟩
    · rw [hactive, htargets]
      by_cases hempty : r.targets.filter (fun target => target != id) = []
      · rw [if_pos hempty]
        exact ⟨fun hfalse => (by cases hfalse), fun hsome => absurd hempty hsome⟩
      · rw [if_neg hempty]
        refine ⟨fun _ => hempty, fun _ => h.active.mpr fun hnone => hempty ?_⟩
        rw [hnone]
        rfl
    · rw [htargets]
      exact h.nodup.filter _
    · rw [htargets]
      exact (List.length_filter_le _ _).trans h.few
    · rw [htargets, htracker, List.mem_filter, bne_iff_ne]
      by_cases hsame : other = id
      · rw [hsame, Function.update_self]
        exact ⟨fun hmem => absurd rfl hmem.2, fun hfalse => (by cases hfalse)⟩
      · rw [Function.update_of_ne hsame, h.participating]
        exact ⟨fun hmem => hmem.1, fun hpart => ⟨hpart, hsame⟩⟩
    · rw [htargets] at hother
      exact h.bounded other (List.mem_filter.mp hother).1
  · rw [removeTarget_of_not (Bool.eq_false_iff.mpr hin)]
    exact h

/-- A removal reports the end of a session. -/
theorem removeTarget_ended (h : SessionInvariant r) (id : ℕ) (hsome : r.targets ≠ []) :
    (r.removeTarget id).2 = (r.removeTarget id).1.targets.isEmpty := by
  by_cases hin : (r.tracker id).participating = true
  · obtain ⟨htargets, -, -, hended⟩ := removeTarget_of_participating h hin
    rw [htargets, hended]
  · rw [removeTarget_of_not (Bool.eq_false_iff.mpr hin)]
    exact (Bool.eq_false_iff.mpr fun hempty => hsome (List.isEmpty_iff.mp hempty)).symm

theorem SessionInvariant.queueAbort (h : SessionInvariant r) (id : ℕ) (now : BitVec 32) :
    SessionInvariant (r.queueAbort id now) := h.frame rfl rfl fun _ => rfl

theorem SessionInvariant.cancelTarget (h : SessionInvariant r) (id : ℕ) (now : BitVec 32) :
    SessionInvariant (r.cancelTarget id now).1 := (h.queueAbort id now).removeTarget id

/-- The session after a reset. -/
theorem SessionInvariant.resetSession (h : SessionInvariant r) : SessionInvariant r.resetSession where
  active := ⟨fun hfalse => (by cases hfalse), fun hsome => absurd rfl hsome⟩
  nodup := .nil
  few := Nat.zero_le _
  participating id := by
    refine ⟨fun hmem => (by cases hmem), fun hpart => ?_⟩
    replace hpart : (if id < maxTrackers then _ else r.tracker id : OtaPerTracker).participating = true :=
      hpart
    split at hpart
    case isTrue => cases hpart
    case isFalse hbounded => exact absurd (h.bounded id ((h.participating id).mpr hpart)) hbounded
  bounded id hmem := by cases hmem

theorem SessionInvariant.forgetTracker (h : SessionInvariant r) (id : ℕ) :
    SessionInvariant (r.forgetTracker id).1 := by
  have hremoved := h.removeTarget id
  refine hremoved.frame rfl rfl (participating_update ?_)
  -- the tracker is no target any more
  by_cases hin : (r.tracker id).participating = true
  · obtain ⟨-, -, htracker, -⟩ := removeTarget_of_participating h hin
    rw [htracker, Function.update_self]
    rfl
  · rw [removeTarget_of_not (Bool.eq_false_iff.mpr hin), Bool.eq_false_iff.mpr hin]
    rfl

theorem SessionInvariant.cancelEach (h : SessionInvariant r) (now : BitVec 32) (ids : List ℕ)
    (ended : Bool) : SessionInvariant (Relay.cancelEach now ids (r, ended)).1 := by
  induction ids generalizing r ended with
  | nil => exact h
  | cons id ids ih => exact ih (h.cancelTarget id now) _

theorem SessionInvariant.cancelAll (h : SessionInvariant r) (now : BitVec 32) :
    SessionInvariant (r.cancelAllTargets now).1 := (h.cancelEach now _ _).resetSession

/-- A session is cancelled target by target, and the last of them ends it. -/
theorem cancelEach_targets (h : SessionInvariant r) (now : BitVec 32) (ended : Bool)
    (hsome : r.targets ≠ []) : (Relay.cancelEach now r.targets (r, ended)).2 = true := by
  -- the removal of the first target leaves the others
  induction htargets : r.targets generalizing r ended with
  | nil => exact absurd htargets hsome
  | cons id ids ih =>
    have hin : ((r.queueAbort id now).tracker id).participating = true :=
      (h.participating id).mp (htargets ▸ List.mem_cons_self)
    have hnodup : id ∉ ids ∧ ids.Nodup := List.nodup_cons.mp (htargets ▸ h.nodup)
    have hfilter : r.targets.filter (fun target => target != id) = ids := by
      rw [htargets, List.filter_cons_of_neg (by simp), List.filter_eq_self]
      exact fun other hother => bne_iff_ne.mpr fun hsame => hnodup.1 (hsame ▸ hother)
    obtain ⟨hleft, -, -, hended⟩ := removeTarget_of_participating (h.queueAbort id now) hin
    have hleft' : (r.cancelTarget id now).1.targets = ids := hleft.trans hfilter
    have hended' : (r.cancelTarget id now).2 = ids.isEmpty := hended.trans (congrArg _ hfilter)
    rw [Relay.cancelEach]
    cases ids with
    | nil => exact hended'
    | cons id' ids =>
      have hrest := ih (h.cancelTarget id now) (r.cancelTarget id now).2
        (hleft' ▸ List.cons_ne_nil _ _) hleft'
      exact hrest

theorem SessionInvariant.openSession (h : SessionInvariant r) (report : HidReport) :
    SessionInvariant (r.openSession report) := by
  unfold Relay.openSession
  split
  case isTrue => exact h
  case isFalse => exact h.resetSession.frame rfl rfl fun _ => rfl

/-- What a BEGIN that is accepted makes of the relay. -/
theorem admitTarget_admitted {first acquired : Bool}
    (hadmission : r.admitTarget report now acquired = .admitted first r') :
    ((r.tracker report.trackerId).participating = true ∨ r.targets.length < otaMaxParallel) ∧
      (r.active = true ∨ acquired = true) ∧ first = !r.active ∧
      r' = (r.openSession report).enlist report now := by
  simp only [Relay.admitTarget] at hadmission
  split at hadmission
  case isTrue => cases hadmission
  case isFalse hroom =>
    split at hadmission
    case isTrue => cases hadmission
    case isFalse hradio =>
      obtain ⟨rfl, rfl⟩ := Admission.admitted.inj hadmission
      refine ⟨?_, ?_, rfl, rfl⟩
      · by_contra hnot
        rw [not_or, not_lt, Bool.not_eq_true] at hnot
        exact hroom hnot
      · by_contra hnot
        rw [not_or, Bool.not_eq_true, Bool.not_eq_true] at hnot
        exact hradio hnot

/-- There is room in the session that is opened. -/
theorem openSession_room (report : HidReport)
    (hroom : (r.tracker report.trackerId).participating = true ∨ r.targets.length < otaMaxParallel) :
    ((r.openSession report).tracker report.trackerId).participating = true ∨
      (r.openSession report).targets.length < otaMaxParallel := by
  unfold Relay.openSession
  split
  case isTrue => exact hroom
  case isFalse => exact .inr (Nat.zero_lt_succ 3)

theorem SessionInvariant.enlist (h : SessionInvariant r) (now : BitVec 32) (hid : report.trackerId < maxTrackers)
    (hroom : (r.tracker report.trackerId).participating = true ∨ r.targets.length < otaMaxParallel) :
    SessionInvariant (r.enlist report now) := by
  have hmember : ∀ other, ((r.enlist report now).tracker other).participating = true ↔
      other = report.trackerId ∨ (r.tracker other).participating = true := by
    intro other
    show (update r.tracker report.trackerId _ other).participating = true ↔ _
    by_cases hsame : other = report.trackerId
    · rw [hsame, Function.update_self]
      exact ⟨fun _ => .inl rfl, fun _ => rfl⟩
    · rw [Function.update_of_ne hsame]
      exact ⟨.inr, fun hin => hin.resolve_left hsame⟩
  by_cases hin : (r.tracker report.trackerId).participating = true
  · have htargets : (r.enlist report now).targets = r.targets := if_pos hin
    have hmem := (h.participating _).mpr hin
    refine ⟨?_, htargets ▸ h.nodup, htargets ▸ h.few, fun other => ?_, htargets ▸ h.bounded⟩
    · rw [htargets]
      exact ⟨fun _ => List.ne_nil_of_mem hmem, fun _ => rfl⟩
    · rw [htargets, hmember, h.participating]
      exact ⟨.inr, fun hor => hor.elim (fun hsame => hsame ▸ hin) id⟩
  · have htargets : (r.enlist report now).targets = r.targets ++ [report.trackerId] := if_neg hin
    have hnew : report.trackerId ∉ r.targets := fun hmem => hin ((h.participating _).mp hmem)
    refine ⟨?_, ?_, ?_, fun other => ?_, fun other hother => ?_⟩
    · rw [htargets]
      exact ⟨fun _ => List.concat_ne_nil _ _, fun _ => rfl⟩
    · rw [htargets, List.nodup_append_comm, List.singleton_append, List.nodup_cons]
      exact ⟨hnew, h.nodup⟩
    · rw [htargets, List.length_append]
      exact hroom.resolve_left hin
    · rw [htargets, hmember, List.mem_append, List.mem_singleton, h.participating]
      exact Or.comm
    · rw [htargets, List.mem_append, List.mem_singleton] at hother
      exact hother.elim (h.bounded other) fun hsame => hsame ▸ hid

theorem SessionInvariant.acceptData (h : SessionInvariant r) (report : HidReport) :
    SessionInvariant (r.acceptData report) := by
  unfold Relay.acceptData
  split
  case isTrue => exact h.frame rfl rfl fun _ => rfl
  case isFalse => exact h

theorem SessionInvariant.queueCommand (h : SessionInvariant r) (verify : Bool) (report : HidReport)
    (now : BitVec 32) : SessionInvariant (r.queueCommand verify report now) := by
  simp only [Relay.queueCommand]
  split
  case isTrue => exact h.frame rfl rfl (participating_update rfl)
  case isFalse => exact h

theorem SessionInvariant.expireAbort (h : SessionInvariant r) (id : ℕ) (now : BitVec 32) :
    SessionInvariant (r.expireAbort id now) := h.frame rfl rfl fun _ => rfl

theorem SessionInvariant.fillData (h : SessionInvariant r) (id : ℕ) (seq : Option (BitVec 16)) :
    SessionInvariant (r.fillData id seq).1 := by
  cases seq with
  | none => exact h
  | some seq => exact h.frame rfl rfl (participating_update rfl)

theorem SessionInvariant.fillTarget (h : SessionInvariant r) (id : ℕ) (now : BitVec 32)
    (seq : Option (BitVec 16)) : SessionInvariant (r.fillTarget id now seq).1 := by
  simp only [Relay.fillTarget]
  split
  case isTrue => exact h.fillData id seq
  case isFalse =>
    split
    case isTrue => exact h.frame rfl rfl (participating_update rfl)
    case isFalse =>
      split
      case isTrue => exact h.fillData id seq
      case isFalse => exact h.frame rfl rfl (participating_update rfl)

theorem SessionInvariant.fillAck (h : SessionInvariant r) (id : ℕ) (now stamp : BitVec 32)
    (rx : Option (List (BitVec 8))) : SessionInvariant (r.fillAck id now stamp rx).1 := by
  simp only [Relay.fillAck]
  split
  case isTrue => exact h
  case isFalse =>
    split
    case isTrue => exact h
    case isFalse =>
      split
      case isTrue => exact (h.expireAbort id now).fillTarget id now _
      case isFalse => exact h.expireAbort id now

/-- An ACK changes the trackers and the tombstones only. -/
theorem fillAck_frame (id : ℕ) (now stamp : BitVec 32) (rx : Option (List (BitVec 8))) :
    ∃ tracker abortValid, (r.fillAck id now stamp rx).1 =
      { r with tracker := tracker, abortValid := abortValid } := by
  have hdata : ∀ (r : Relay) seq, ∃ tracker, (r.fillData id seq).1 = { r with tracker := tracker } := by
    intro r seq
    cases seq with
    | none => exact ⟨_, rfl⟩
    | some seq => exact ⟨_, rfl⟩
  have htarget : ∀ (r : Relay) seq, ∃ tracker, (r.fillTarget id now seq).1 = { r with tracker := tracker } := by
    intro r seq
    simp only [Relay.fillTarget]
    split
    case isTrue => exact hdata r seq
    case isFalse =>
      split
      case isTrue => exact ⟨_, rfl⟩
      case isFalse =>
        split
        case isTrue => exact hdata r seq
        case isFalse => exact ⟨_, rfl⟩
  simp only [Relay.fillAck]
  split
  case isTrue => exact ⟨_, _, rfl⟩
  case isFalse =>
    split
    case isTrue => exact ⟨_, _, rfl⟩
    case isFalse =>
      split
      case isTrue =>
        obtain ⟨tracker, htracker⟩ := htarget (r.expireAbort id now) (statusSeq rx)
        exact ⟨tracker, _, htracker⟩
      case isFalse => exact ⟨_, _, rfl⟩

/-- A terminal STATUS removes its tracker, any other one leaves the session alone. -/
theorem noteStatus_session (h : SessionInvariant r) (packet : List (BitVec 8)) (uptime : ℤ) :
    SessionInvariant (r.noteStatus packet uptime).1 ∧ (r.targets ≠ [] →
      (r.noteStatus packet uptime).2.2 = (r.noteStatus packet uptime).1.targets.isEmpty) := by
  simp only [Relay.noteStatus]
  have hnoted := fun t (ht : t.participating = (r.tracker (packet.getD 1 0).toNat).participating) =>
    show SessionInvariant { r with tracker := update r.tracker (packet.getD 1 0).toNat t } from
      h.frame rfl rfl (participating_update ht)
  split
  case isTrue =>
    refine ⟨SessionInvariant.removeTarget ?_ _, fun hsome => ?_⟩
    · exact hnoted _ rfl
    · apply removeTarget_ended (hnoted _ ?_)
      · exact hsome
      · rfl
  case isFalse =>
    exact ⟨hnoted _ rfl, fun hsome =>
      (Bool.eq_false_iff.mpr fun hempty => hsome (List.isEmpty_iff.mp hempty)).symm⟩

end Sections

end SlimeReceiver.Ota
