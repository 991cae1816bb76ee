import SlimeReceiver.Ota.HostUpdate
import SlimeReceiver.Ota.Ring

/-! # Steps of the host and of the receiver

* **`underWay`** — the DATA reports the relay has not dealt with.
* **`act_cases`**, **`read_reads`** — what a step of the host does to its window.
* **`otaStep_targets`**, **`otaStep_forwarded`**, **`otaStep_data`** — what a step of the receiver does to its
  targets, to the reports for the host and to the DATA reports. -/

namespace SlimeReceiver.Ota

open Function (update)

/-! ## DATA under way -/

/-- A DATA report a thread has to deal with. -/
def Micro.dataReport : Micro → Option HidReport
  | .data report => some report
  | _ => none

/-- The DATA reports a thread has to deal with. -/
def pendingData (micros : List Micro) : List HidReport := micros.filterMap Micro.dataReport

@[simp] theorem pendingData_nil : pendingData [] = [] := rfl

@[simp] theorem pendingData_append (first rest : List Micro) :
    pendingData (first ++ rest) = pendingData first ++ pendingData rest := List.filterMap_append

@[simp] theorem pendingData_data (report : HidReport) (rest : List Micro) :
    pendingData (.data report :: rest) = report :: pendingData rest := rfl

/-- Nothing else is a DATA report. -/
theorem pendingData_cons {micro : Micro} (rest : List Micro) (h : ∀ report, micro ≠ .data report) :
    pendingData (micro :: rest) = pendingData rest := by
  cases micro with
  | data report => exact absurd rfl (h report)
  | _ => rfl

/-- A DATA report or a STATUS: a call begins with it. -/
def Micro.brought : Micro → Bool
  | .data _ | .status _ => true
  | _ => false

theorem pendingData_eq_nil {micros : List Micro} (h : ∀ report, .data report ∉ micros) :
    pendingData micros = [] := by
  refine List.filterMap_eq_nil_iff.mpr fun micro hmicro => ?_
  cases micro with
  | data report => exact absurd hmicro (h report)
  | _ => rfl

/-- The DATA reports on the link or with the HID thread. -/
def underWay (s : UpdateWorld) : List HidReport :=
  pendingData (s.receiver.threads hidThread ++ s.outbox.flatMap relayMicros)

/-- Their sequence numbers. -/
def seqsUnderWay (s : UpdateWorld) : List ℕ := (underWay s).map fun report => report.seq.toNat

/-! ## Reports -/

section Reports

/-- What the relay makes of a DATA report. -/
theorem sendData_spec {trackerId seq : ℕ} {data : List (BitVec 8)} {report : HidReport}
    (h : sendData trackerId seq data = some report) (hid : trackerId < maxTrackers) :
    report.dataSeq = some seq ∧ relayMicros report = [.data report] ∧ report.seq.toNat = seq ∧
      report.len = reportSize := by
  unfold sendData at h
  split at h
  case isFalse => cases h
  case isTrue hpacked =>
    obtain rfl := Option.some.inj h
    have hseq : HidReport.seq (writeReport ([0xF3, BitVec.ofNat 8 trackerId] ++ be16Bytes (.ofNat 16 seq) ++
        data.take otaDataMaxPayload)) = .ofNat 16 seq := be16_be16Bytes _
    have hnumber : (BitVec.ofNat 16 seq).toNat = seq := by
      rw [BitVec.toNat_ofNat, Nat.mod_eq_of_lt hpacked.2]
    have hdirect : ((BitVec.ofNat 8 trackerId).toNat) ≠ receiverOtaId := by
      rw [BitVec.toNat_ofNat, Nat.mod_eq_of_lt hpacked.1]
      exact ne_of_lt (hid.trans (by decide))
    refine ⟨?_, ?_, (congrArg BitVec.toNat hseq).trans hnumber, rfl⟩
    · rw [HidReport.dataSeq, hseq, hnumber]
      exact if_pos rfl
    · exact if_neg hdirect

/-- Any other report brings no DATA. -/
theorem quiet_of_type {report : HidReport} (h : report.data 0 ≠ 0xF3) :
    report.dataSeq = none ∧ pendingData (relayMicros report) = [] := by
  refine ⟨if_neg h, pendingData_eq_nil fun other hmem => ?_⟩
  unfold relayMicros hidMicros abortMicros at hmem
  simp only [if_neg h] at hmem
  split_ifs at hmem <;> simp at hmem

/-- A BEGIN is no DATA. -/
theorem sendBegin_type {u : UpdateArgs} {trackerId : ℕ} {report : HidReport}
    (h : sendBegin u trackerId = some report) : report.data 0 ≠ 0xF3 := by
  unfold sendBegin at h
  split at h
  case isFalse => cases h
  case isTrue =>
    obtain rfl := Option.some.inj h
    show (0xF2 : BitVec 8) ≠ 0xF3
    decide

theorem sendCommand_type (verify : Bool) (trackerId : ℕ) : (sendCommand verify trackerId).data 0 ≠ 0xF3 := by
  cases verify with
  | false => exact show (0xF6 : BitVec 8) ≠ 0xF3 by decide
  | true => exact show (0xF5 : BitVec 8) ≠ 0xF3 by decide

theorem sendAbort_type : sendAbort.data 0 ≠ 0xF3 := by decide

end Reports

/-! ## Steps of the host -/

section Hosts

variable {u : UpdateArgs} {h h' : Host} {a : HostAct} {reports : List HidReport}

/-- A step that neither reads nor sends DATA, and begins no burst. -/
structure Quiet (h h' : Host) (reports : List HidReport) : Prop where
  streamed : h'.phase.streamed = h.phase.streamed
  burst : h'.phase.burst ≤ h.phase.burst
  ready : h'.readyStatuses = h.readyStatuses
  active : h'.activeIds = h.activeIds
  view : h'.trackerNextSeq = h.trackerNextSeq
  next : h'.nextSeqToSend = h.nextSeqToSend
  type : ∀ report ∈ reports, report.data 0 ≠ 0xF3

/-- The host starts to stream. -/
structure Starts (u : UpdateArgs) (h h' : Host) : Prop where
  notYet : h.phase.streamed = false
  some : h.readyIds u ≠ []
  phase : h'.phase = .streaming 0
  ready : h'.readyStatuses = h.readyStatuses
  active : h'.activeIds = h.readyIds u
  view : h'.trackerNextSeq = fun _ => 0
  next : h'.nextSeqToSend = 0

/-- The host goes on to another place. -/
theorem quiet_phase (p : Phase) (hstreamed : p.streamed = h.phase.streamed) (hburst : p.burst ≤ h.phase.burst)
    (htype : ∀ report ∈ reports, report.data 0 ≠ 0xF3) : Quiet h { h with phase := p } reports :=
  ⟨hstreamed, hburst, rfl, rfl, rfl, rfl, htype⟩

/-- What the host does by itself. -/
theorem act_cases (htaken : h.act u a = some (h', reports)) :
    Quiet h h' reports ∨
    (a = .start ∧ Starts u h h' ∧ reports = []) ∨
    (h.phase = .streaming 0 ∧ h.nextSeqToSend < u.totalPackets ∧ h.inFlight < maxInFlight ∧ reports = [] ∧
      h' = { h with phase := .streaming h.burstCount }) ∨
    ∃ left report, h.phase = .streaming (left + 1) ∧ h.nextSeqToSend < u.totalPackets ∧ reports = [report] ∧
      sendData (h.activeIds.headD 0) h.nextSeqToSend (u.chunk h.nextSeqToSend) = some report ∧
      h' = { h with
        phase := .streaming left
        nextSeqToSend := h.nextSeqToSend + 1 } := by
  have hnone : ∀ report ∈ ([] : List HidReport), report.data 0 ≠ 0xF3 := fun report hreport => by cases hreport
  unfold Host.act at htaken
  split at htaken
  case h_1 id rest hphase =>
    obtain ⟨report, hreport, heq⟩ := Option.map_eq_some_iff.mp htaken
    obtain ⟨rfl, rfl⟩ := Prod.mk.inj heq
    exact .inl (quiet_phase _ (hphase ▸ rfl) (hphase ▸ le_rfl)
      (List.forall_mem_singleton.mpr (sendBegin_type hreport)))
  case h_2 hphase =>
    obtain ⟨rfl, rfl⟩ := Prod.mk.inj (Option.some.inj htaken)
    exact .inl (quiet_phase _ (hphase ▸ rfl) (hphase ▸ le_rfl) hnone)
  case h_3 pending hphase =>
    obtain ⟨rfl, rfl⟩ := Prod.mk.inj (Option.some.inj htaken)
    refine .inl ⟨rfl, le_rfl, rfl, rfl, rfl, rfl, fun report hreport => ?_⟩
    obtain ⟨id, -, hsent⟩ := List.mem_filterMap.mp hreport
    exact sendBegin_type hsent
  case h_4 pending hphase =>
    unfold Host.start at htaken
    split at htaken
    case isTrue =>
      obtain ⟨rfl, rfl⟩ := Prod.mk.inj (Option.some.inj htaken)
      exact .inl (quiet_phase _ (hphase ▸ rfl) (hphase ▸ le_rfl) (List.forall_mem_singleton.mpr sendAbort_type))
    case isFalse hsome =>
      obtain ⟨rfl, rfl⟩ := Prod.mk.inj (Option.some.inj htaken)
      exact .inr (.inl ⟨rfl, ⟨hphase ▸ rfl, hsome, rfl, rfl, rfl, rfl, rfl⟩, rfl⟩)
  case h_5 =>
    obtain ⟨rfl, rfl⟩ := Prod.mk.inj (Option.some.inj htaken)
    exact .inl ⟨rfl, le_rfl, rfl, rfl, rfl, rfl, hnone⟩
  case h_6 hphase =>
    split at htaken
    case isFalse => cases htaken
    case isTrue hgoes =>
      obtain ⟨rfl, rfl⟩ := Prod.mk.inj (Option.some.inj htaken)
      exact .inr (.inr (.inl ⟨hphase, hgoes.1, hgoes.2.2, rfl, rfl⟩))
  case h_7 left hphase =>
    split at htaken
    case isTrue =>
      obtain ⟨rfl, rfl⟩ := Prod.mk.inj (Option.some.inj htaken)
      exact .inl (quiet_phase _ (hphase ▸ rfl) (hphase ▸ Nat.zero_le _) hnone)
    case isFalse hgoes =>
      obtain ⟨report, hreport, heq⟩ := Option.map_eq_some_iff.mp htaken
      obtain ⟨rfl, rfl⟩ := Prod.mk.inj heq
      exact .inr (.inr (.inr ⟨left, report, hphase, not_le.mp fun hall => hgoes (.inl hall), rfl, hreport, rfl⟩))
  case h_8 hphase =>
    split at htaken
    case isFalse => cases htaken
    case isTrue =>
      obtain ⟨rfl, rfl⟩ := Prod.mk.inj (Option.some.inj htaken)
      exact .inl (quiet_phase _ (hphase ▸ rfl) (hphase ▸ le_rfl) hnone)
  case h_9 hphase =>
    split at htaken
    case isFalse => cases htaken
    case isTrue hstalled =>
      obtain ⟨rfl, rfl⟩ := Prod.mk.inj (Option.some.inj htaken)
      -- nothing is in flight, so the host goes on where it was
      have hsame : h.minConsumed = h.nextSeqToSend := by
        have hempty := hstalled.2
        rw [Host.inFlight] at hempty
        omega
      refine .inl ⟨?_, ?_, rfl, rfl, rfl, hsame, hnone⟩
      · rw [hphase]
        split <;> rfl
      · rw [hphase]
        split <;> exact le_rfl
  case h_10 hphase =>
    obtain ⟨rfl, rfl⟩ := Prod.mk.inj (Option.some.inj htaken)
    exact .inl (quiet_phase _ (hphase ▸ rfl) (hphase ▸ le_rfl) hnone)
  case h_11 verify id hphase =>
    split at htaken
    case isFalse => cases htaken
    case isTrue =>
      obtain ⟨rfl, rfl⟩ := Prod.mk.inj (Option.some.inj htaken)
      exact .inl ⟨rfl, le_rfl, rfl, rfl, rfl, rfl, List.forall_mem_singleton.mpr (sendCommand_type verify id)⟩
  case h_12 hphase =>
    obtain ⟨rfl, rfl⟩ := Prod.mk.inj (Option.some.inj htaken)
    exact .inl (quiet_phase _ (hphase ▸ rfl) (hphase ▸ le_rfl) (List.forall_mem_singleton.mpr sendAbort_type))
  case h_13 => cases htaken

/-- A burst stays within the window of the host. -/
theorem burst_le {id : ℕ} (hid : id ∈ h.activeIds) (hroom : h.inFlight < maxInFlight) :
    h.nextSeqToSend + h.burstCount ≤ h.trackerNextSeq id + maxInFlight := by
  have hmin : h.minConsumed ≤ h.trackerNextSeq id := by
    unfold Host.minConsumed
    cases hleast : (h.activeIds.map h.trackerNextSeq).min? with
    | none => exact Nat.zero_le _
    | some least => exact (List.min?_eq_some_iff.mp hleast).2 _ (List.mem_map_of_mem hid)
  unfold Host.burstCount
  unfold Host.inFlight at hroom ⊢
  omega

/-- What reading a report does. -/
structure Reads (report : List (BitVec 8)) (h h' : Host) : Prop where
  streamed : h'.phase.streamed = h.phase.streamed
  burst : h'.phase.burst = h.phase.burst
  next : h'.nextSeqToSend = h.nextSeqToSend
  ready : ∀ id, h'.readyStatuses id = h.readyStatuses id ∨ ∃ status, parseStatus report = some status ∧
    status.trackerId = id
  active : ∀ id ∈ h'.activeIds, id ∈ h.activeIds
  left : ∀ id ∈ h.activeIds, id ∈ h'.activeIds ∨ ∃ status, parseStatus report = some status ∧
    status.trackerId = id ∧ isTerminal status.status = true
  view : ∀ id, h'.trackerNextSeq id = h.trackerNextSeq id ∨ ∃ status, parseStatus report = some status ∧
    status.trackerId = id ∧ h'.trackerNextSeq id = status.nextSeq

theorem Reads.refl (report : List (BitVec 8)) (h : Host) : Reads report h h :=
  ⟨rfl, rfl, rfl, fun _ => .inl rfl, fun _ hid => hid, fun _ hid => .inl hid, fun _ => .inl rfl⟩

/-- A STATUS read during the transfer. -/
theorem reads_note {report : List (BitVec 8)} {status : StatusReport} (hparse : parseStatus report = some status)
    (hstreamed : h.phase.streamed = true) (hburst : h.phase.burst = 0) : Reads report h (h.note status) := by
  unfold Host.note
  split
  case isFalse => exact .refl report h
  case isTrue =>
    split
    case isTrue hterminal =>
      refine ⟨?_, ?_, rfl, fun _ => .inl rfl, fun id hid => List.mem_of_mem_erase hid, fun id hid => ?_,
        fun _ => .inl rfl⟩
      · by_cases hlast : h.activeIds.erase status.trackerId = []
        · simp only [if_pos hlast]
          exact hstreamed.symm
        · simp only [if_neg hlast]
      · by_cases hlast : h.activeIds.erase status.trackerId = []
        · simp only [if_pos hlast]
          exact hburst.symm
        · simp only [if_neg hlast]
      · by_cases hsame : id = status.trackerId
        · exact .inr ⟨status, hparse, hsame.symm, hterminal⟩
        · exact .inl ((List.mem_erase_of_ne hsame).mpr hid)
    case isFalse =>
      refine ⟨rfl, rfl, rfl, fun _ => .inl rfl, fun _ hid => hid, fun _ hid => .inl hid, fun id => ?_⟩
      by_cases hsame : id = status.trackerId
      · refine .inr ⟨status, hparse, hsame.symm, ?_⟩
        rw [hsame]
        exact Function.update_self ..
      · exact .inl (Function.update_of_ne hsame _ _)

theorem read_reads {report : List (BitVec 8)} (htaken : h.read report = some h') : Reads report h h' := by
  unfold Host.read at htaken
  split at htaken
  case h_5 =>
    obtain rfl := Option.some.inj htaken
    exact .refl report h
  case h_6 pending status hphase hparse =>
    split at htaken
    case isFalse =>
      obtain rfl := Option.some.inj htaken
      exact .refl report h
    case isTrue =>
      obtain rfl := Option.some.inj htaken
      refine ⟨hphase ▸ rfl, hphase ▸ rfl, rfl, fun id => ?_, fun _ hid => hid, fun _ hid => .inl hid,
        fun _ => .inl rfl⟩
      by_cases hsame : id = status.trackerId
      · exact .inr ⟨status, hparse, hsame.symm⟩
      · exact .inl (Function.update_of_ne hsame _ _)
  case h_7 status hphase hparse =>
    obtain rfl := Option.some.inj htaken
    exact reads_note hparse (hphase ▸ rfl) (hphase ▸ rfl)
  case h_8 status hphase hparse =>
    obtain rfl := Option.some.inj htaken
    exact reads_note hparse (hphase ▸ rfl) (hphase ▸ rfl)
  case h_9 =>
    obtain rfl := Option.some.inj htaken
    exact .refl report h
  all_goals cases htaken

end Hosts



/-! ## Steps of the receiver -/

section Receivers

variable {r r' : Relay} {s s' : OtaWorld} {thread : ℕ} {env : MicroEnvironment} {micro : Micro} {op : OtaOp}
  {es : List OtaEvent}

/-- No target is new, and the targets have the `next_seq` they had. -/
def TargetsKept (r r' : Relay) : Prop :=
  ∀ id ∈ r'.targets, id ∈ r.targets ∧ (r'.tracker id).nextSeq = (r.tracker id).nextSeq

theorem TargetsKept.trans {r'' : Relay} (h : TargetsKept r r') (h' : TargetsKept r' r'') : TargetsKept r r'' :=
  fun id hid => ⟨(h id (h' id hid).1).1, (h' id hid).2.trans (h id (h' id hid).1).2⟩

/-- Nothing else of the relay matters. -/
theorem targetsKept_of_eq (htargets : r'.targets = r.targets)
    (hnext : ∀ id, (r'.tracker id).nextSeq = (r.tracker id).nextSeq) : TargetsKept r r' :=
  fun id hid => ⟨htargets ▸ hid, hnext id⟩

/-- A tracker is changed otherwise. -/
theorem nextSeq_update {tracker : ℕ → OtaPerTracker} {id : ℕ} {t : OtaPerTracker}
    (h : t.nextSeq = (tracker id).nextSeq) (other : ℕ) :
    (update tracker id t other).nextSeq = (tracker other).nextSeq := by
  by_cases hsame : other = id
  · rw [hsame, Function.update_self, h]
  · rw [Function.update_of_ne hsame]

theorem targetsKept_removeTarget (id : ℕ) (r : Relay) : TargetsKept r (r.removeTarget id).1 := by
  unfold Relay.removeTarget
  split
  case isTrue => exact targetsKept_of_eq rfl fun _ => rfl
  case isFalse =>
    refine fun other hother => ⟨(List.mem_filter.mp hother).1, ?_⟩
    apply nextSeq_update
    rfl

/-- The slowest target, or a ring without any data. -/
theorem ringSeqMin_cases (r : Relay) :
    r.ringSeqMin = r.ringHead ∨ ∃ id ∈ r.targets, r.ringSeqMin = (r.tracker id).nextSeq.toNat := by
  have hfold : ∀ (ids : List ℕ) (least : ℕ), ids.foldl (fun least id =>
      if (r.tracker id).nextSeq.toNat < least then (r.tracker id).nextSeq.toNat else least) least = least ∨
      ∃ id ∈ ids, ids.foldl (fun least id =>
        if (r.tracker id).nextSeq.toNat < least then (r.tracker id).nextSeq.toNat else least) least =
        (r.tracker id).nextSeq.toNat := by
    intro ids
    induction ids with
    | nil => exact fun least => .inl rfl
    | cons id ids ih =>
      intro least
      rw [List.foldl_cons]
      rcases ih (if (r.tracker id).nextSeq.toNat < least then (r.tracker id).nextSeq.toNat else least)
        with hsame | ⟨other, hother, heq⟩
      · rw [hsame]
        split
        case isTrue => exact .inr ⟨id, List.mem_cons_self, rfl⟩
        case isFalse => exact .inl rfl
      · exact .inr ⟨other, List.mem_cons_of_mem _ hother, heq⟩
  exact hfold r.targets r.ringHead

/-- The tracker that is removed is no target. -/
theorem removeTarget_notMem (h : SessionInvariant r) (id : ℕ) : id ∉ (r.removeTarget id).1.targets := by
  by_cases hin : (r.tracker id).participating = true
  · rw [(removeTarget_of_participating h hin).1]
    exact fun hmem => absurd rfl (bne_iff_ne.mp (List.mem_filter.mp hmem).2)
  · rw [removeTarget_of_not (Bool.eq_false_iff.mpr hin)]
    exact fun hmem => hin ((h.participating id).mp hmem)

/-- A STATUS as the host will read it. -/
def packetStatus (packet : List (BitVec 8)) : StatusReport where
  trackerId := (packet.getD 1 0).toNat
  status := packet.getD 2 0
  nextSeq := if 5 ≤ packet.length then (be16 (packet.getD 3 0) (packet.getD 4 0)).toNat else 0

theorem parseStatus_statusReport (packet : List (BitVec 8)) (count targets : ℕ) :
    parseStatus (statusReport packet count targets) = some (packetStatus packet) := by
  unfold parseStatus
  rw [if_pos ⟨by simp [statusReport, be16Bytes, le32Bytes], rfl⟩]
  refine congrArg some (congrArg (StatusReport.mk _ _) ?_)
  refine (congrArg BitVec.toNat (be16_be16Bytes _)).trans ?_
  exact apply_ite BitVec.toNat ..

/-- A STATUS is reported as it was received, and a terminal one leaves the session without its tracker. -/
theorem noteStatus_report {packet report : List (BitVec 8)} {uptime : ℤ} (h : SessionInvariant r)
    (hreport : (r.noteStatus packet uptime).2.1 = some report) :
    parseStatus report = some (packetStatus packet) ∧ (isTerminal (packetStatus packet).status = true →
      (packetStatus packet).trackerId ∉ (r.noteStatus packet uptime).1.targets) := by
  simp only [Relay.noteStatus] at hreport ⊢
  constructor
  · split at hreport
    case isTrue =>
      obtain rfl := Option.some.inj hreport
      exact parseStatus_statusReport ..
    case isFalse => cases hreport
  · intro hterminal
    rw [if_pos (show isTerminal (packet.getD 2 0) = true from hterminal)]
    show (packet.getD 1 0).toNat ∉ _
    apply removeTarget_notMem
    refine h.frame rfl rfl fun other => ?_
    apply participating_update
    rfl

theorem targetsKept_noteStatus (packet : List (BitVec 8)) (uptime : ℤ) :
    TargetsKept r (r.noteStatus packet uptime).1 := by
  simp only [Relay.noteStatus]
  have hnoted : ∀ t : OtaPerTracker, t.nextSeq = (r.tracker (packet.getD 1 0).toNat).nextSeq →
      TargetsKept r { r with tracker := update r.tracker (packet.getD 1 0).toNat t } :=
    fun t ht => targetsKept_of_eq rfl (nextSeq_update ht)
  split
  case isTrue =>
    refine TargetsKept.trans (hnoted _ ?_) (targetsKept_removeTarget _ _)
    rfl
  case isFalse =>
    apply hnoted
    rfl

/-- Only the STATUS of a tracker changes what it is known to need. -/
theorem fillAck_nextSeq {id : ℕ} {now stamp : BitVec 32} {rx : Option (List (BitVec 8))} {other : ℕ}
    (h : other ≠ id ∨ statusSeq rx = none) :
    ((r.fillAck id now stamp rx).1.tracker other).nextSeq = (r.tracker other).nextSeq := by
  have hdata : ∀ r : Relay, ((r.fillData id (statusSeq rx)).1.tracker other).nextSeq =
      (r.tracker other).nextSeq := by
    intro r
    cases hseq : statusSeq rx with
    | none => rfl
    | some seq =>
      refine congrArg OtaPerTracker.nextSeq (Function.update_of_ne (h.resolve_right fun hnone => ?_) _ _)
      rw [hseq] at hnone
      cases hnone
  have htarget : ∀ r : Relay, ((r.fillTarget id now (statusSeq rx)).1.tracker other).nextSeq =
      (r.tracker other).nextSeq := by
    intro r
    simp only [Relay.fillTarget]
    split
    case isTrue => exact hdata r
    case isFalse =>
      split
      case isTrue =>
        apply nextSeq_update
        rfl
      case isFalse =>
        split
        case isTrue => exact hdata r
        case isFalse =>
          apply nextSeq_update
          rfl
  simp only [Relay.fillAck]
  split
  case isTrue => rfl
  case isFalse =>
    split
    case isTrue => rfl
    case isFalse =>
      split
      case isTrue => exact htarget (r.expireAbort id now)
      case isFalse => rfl

/-- A BEGIN makes its tracker a target that needs everything, and makes no other one. -/
theorem enlist_targets (report : HidReport) (now : BitVec 32) :
    ∀ id ∈ ((r.openSession report).enlist report now).targets,
      (id = report.trackerId ∧ (((r.openSession report).enlist report now).tracker id).nextSeq = 0) ∨
      (id ∈ r.targets ∧ (((r.openSession report).enlist report now).tracker id).nextSeq =
        (r.tracker id).nextSeq) := by
  intro id hid
  by_cases hsame : id = report.trackerId
  · subst hsame
    refine .inl ⟨rfl, ?_⟩
    simp only [Relay.enlist, Function.update_self]
    rfl
  · have hopened : id ∈ (r.openSession report).targets := by
      simp only [Relay.enlist] at hid
      split at hid
      case isTrue => exact hid
      case isFalse => exact (List.mem_append.mp hid).resolve_right fun h => hsame (List.mem_singleton.mp h)
    have hactive : r.active = true := by
      by_contra hnot
      rw [Relay.openSession, if_neg hnot] at hopened
      cases hopened
    rw [Relay.openSession, if_pos hactive] at hopened ⊢
    exact .inr ⟨hopened, congrArg OtaPerTracker.nextSeq (Function.update_of_ne hsame _ _)⟩

variable (s thread env micro) in
/-- No entry of a call leads to a DATA report or a STATUS. -/
theorem runMicro_brought : ∀ m ∈ (s.runMicro thread env micro).2.1, m.brought = false := by
  have hsends : ∀ (ids : List ℕ) (flag : BitVec 8), ∀ m ∈ ids.map fun id => Micro.send id flag,
      m.brought = false := by
    intro ids flag m hm
    obtain ⟨id, -, rfl⟩ := List.mem_map.mp hm
    rfl
  have hend : ∀ ended, ∀ m ∈ OtaWorld.endMicros ended, m.brought = false := by
    intro ended m hm
    cases ended with
    | false => cases hm
    | true => exact List.mem_singleton.mp hm ▸ rfl
  have hprelude : ∀ {report}, Prelude report micro →
      ∀ m ∈ (s.runMicro thread env micro).2.1, m.brought = false := by
    intro report hprelude
    have hstep := (runMicro_prelude s thread env hprelude).2.2
    generalize (s.runMicro thread env micro).2 = next at hstep ⊢
    cases hstep with
    | ended => exact fun m hm => by cases hm
    | goesOn next _ hnext => cases hnext <;> exact List.forall_mem_singleton.mpr rfl
    | locks acquired => exact List.forall_mem_singleton.mpr rfl
  cases micro with
  | admission report => exact hprelude .admission
  | claim report => exact hprelude .claim
  | checkActive report => exact hprelude .checkActive
  | checkAbort report i => exact hprelude (.checkAbort i)
  | lock report acquired =>
    rcases runLock_cases s thread report acquired env.now
      with hrun | ⟨-, hrun⟩ | ⟨first, -, hrun⟩
    · rw [OtaWorld.runMicro, hrun]
      cases acquired <;> simp [Micro.brought]
    · rw [OtaWorld.runMicro, hrun]
      exact List.forall_mem_singleton.mpr rfl
    · rw [OtaWorld.runMicro, hrun]
      cases acquired <;> cases first <;> simp [Micro.brought]
  | suppress | unsuppress => exact hsends _ _
  | release | send _ _ | data _ | queue _ _ => exact fun m hm => by cases hm
  | cancel id => exact List.forall_mem_cons.mpr ⟨rfl, hend _⟩
  | cancelAll =>
    intro m hm
    rcases List.mem_append.mp hm with hm | hm
    · exact (List.mem_append.mp hm).elim (hsends _ _ m) (hend _ m)
    · exact List.mem_singleton.mp hm ▸ rfl
  | forget id => exact hend _
  | status packet => exact hend _

variable (s thread env micro) in
/-- An entry of a call keeps the targets, or is a BEGIN that is accepted. -/
theorem runMicro_targets (h : SessionInvariant s.relay) :
    TargetsKept s.relay (s.runMicro thread env micro).1.relay ∨
    ∃ report acquired first relay, micro = .lock report acquired ∧
      s.relay.admitTarget report env.now acquired = .admitted first relay ∧
      (s.runMicro thread env micro).1.relay = (s.relay.openSession report).enlist report env.now := by
  have hsame : TargetsKept s.relay s.relay := targetsKept_of_eq rfl fun _ => rfl
  have hprelude : ∀ {report}, Prelude report micro →
      TargetsKept s.relay (s.runMicro thread env micro).1.relay := by
    intro report hprelude
    obtain ⟨⟨i, now, hrelay⟩, -, -⟩ := runMicro_prelude s thread env hprelude
    rcases hrelay with hrelay | hrelay
    · rw [hrelay]
      exact hsame
    · rw [hrelay]
      exact targetsKept_of_eq rfl fun _ => rfl
  cases micro with
  | admission report => exact .inl (hprelude .admission)
  | claim report => exact .inl (hprelude .claim)
  | checkActive report => exact .inl (hprelude .checkActive)
  | checkAbort report i => exact .inl (hprelude (.checkAbort i))
  | lock report acquired =>
    rcases runLock_cases s thread report acquired env.now
      with hrun | ⟨-, hrun⟩ | ⟨first, hadmission, hrun⟩
    · rw [OtaWorld.runMicro, hrun]
      exact .inl hsame
    · rw [OtaWorld.runMicro, hrun]
      exact .inl hsame
    · rw [OtaWorld.runMicro, hrun]
      exact .inr ⟨report, acquired, first, _, rfl, hadmission, rfl⟩
  | suppress | unsuppress | release | send _ _ => exact .inl (targetsKept_of_eq rfl fun _ => rfl)
  | data report =>
    left
    show TargetsKept s.relay (s.relay.acceptData report)
    unfold Relay.acceptData
    split
    case isTrue => exact targetsKept_of_eq rfl fun _ => rfl
    case isFalse => exact hsame
  | queue verify report =>
    left
    show TargetsKept s.relay (s.relay.queueCommand verify report env.now)
    simp only [Relay.queueCommand]
    split
    case isTrue =>
      refine targetsKept_of_eq rfl fun other => ?_
      apply nextSeq_update
      rfl
    case isFalse => exact hsame
  | cancel id => exact .inl (targetsKept_removeTarget id (s.relay.queueAbort id env.now))
  | cancelAll => exact .inl fun id hid => by cases hid
  | forget id =>
    left
    intro other hother
    have hne : other ≠ id := fun hsame => removeTarget_notMem h id (hsame ▸ hother)
    obtain ⟨htarget, hnext⟩ := targetsKept_removeTarget id s.relay other hother
    exact ⟨htarget, (congrArg OtaPerTracker.nextSeq (Function.update_of_ne hne _ _)).trans hnext⟩
  | status packet => exact .inl (targetsKept_noteStatus packet env.uptime)

/-- A PING is no STATUS. -/
theorem pong_nextSeq (s : OtaWorld) (ping : PingContext) (id : ℕ) :
    ((s.pong ping).1.relay.tracker id).nextSeq = (s.relay.tracker id).nextSeq := by
  simp only [OtaWorld.pong]
  split
  case isTrue => rfl
  case isFalse =>
    split
    case isTrue => rfl
    case isFalse =>
      split
      case isTrue => rfl
      case isFalse =>
        split
        case isTrue => exact fillAck_nextSeq (r := s.relay.expireAbort ping.id ping.now) (.inr rfl)
        case isFalse => rfl

/-- The reports of a step come from a STATUS. -/
theorem otaStep_forwarded (hsession : SessionInvariant s.relay) (htaken : otaStep s op = some (s', es))
    {report : List (BitVec 8)} (hreport : report ∈ es.filterMap OtaEvent.report) :
    ∃ t env packet rest, op = .run t env ∧ s.threads t = .status packet :: rest ∧
      parseStatus report = some (packetStatus packet) ∧
      (s.relay.noteStatus packet env.uptime).2.1 = some report ∧
      (isTerminal (packetStatus packet).status = true → (packetStatus packet).trackerId ∉ s'.relay.targets) := by
  obtain ⟨e, he, hforwarded⟩ := List.mem_filterMap.mp hreport
  obtain rfl : e = .forwarded report := by
    cases e <;> first | exact congrArg OtaEvent.forwarded (Option.some.inj hforwarded) | cases hforwarded
  have hfinish : ∀ t rest, .forwarded report ∉ OtaWorld.finishEvents t rest := by
    intro t rest hmem
    obtain ⟨_, heq⟩ := finishEvents_finished t rest _ hmem
    cases heq
  rcases otaStep_cases htaken with ⟨t, call, -, -, -, rfl⟩ | ⟨t, env, micro, rest, rfl, hthread, rfl, rfl⟩ |
    ⟨-, -, -, -, hevents⟩
  · rcases List.mem_cons.mp he with heq | hmem
    · cases heq
    · exact absurd hmem (hfinish t _)
  · replace he := (List.mem_append.mp he).resolve_right (hfinish t _)
    cases micro with
    | status packet =>
      have hnoted : (s.relay.noteStatus packet env.uptime).2.1 = some report := by
        rcases List.mem_append.mp he with hmem | hmem
        · obtain ⟨report', hsome, heq⟩ := List.mem_map.mp hmem
          obtain rfl := OtaEvent.forwarded.inj heq
          exact Option.mem_toList.mp hsome
        · obtain ⟨heq, -⟩ := mem_endEvents hmem
          cases heq
      obtain ⟨hparse, hleft⟩ := noteStatus_report hsession hnoted
      exact ⟨t, env, packet, rest, rfl, hthread, hparse, hnoted, hleft⟩
    | _ => cases runMicro_events he
  · rcases hevents _ he with ⟨id, ack, heq⟩ | ⟨id, command, heq⟩ | ⟨id, heq⟩ <;> cases heq

/-- A target after a step was one before, or its BEGIN is accepted in the step. -/
theorem otaStep_targets (hsession : SessionInvariant s.relay) (htaken : otaStep s op = some (s', es)) :
    ∀ id ∈ s'.relay.targets,
      (∃ t env report acquired rest first relay, op = .run t env ∧
        s.threads t = .lock report acquired :: rest ∧ id = report.trackerId ∧
        s.relay.admitTarget report env.now acquired = .admitted first relay ∧
        (s'.relay.tracker id).nextSeq = 0) ∨
      (id ∈ s.relay.targets ∧ ((s'.relay.tracker id).nextSeq = (s.relay.tracker id).nextSeq ∨
        ∃ now stamp packet, op = .ack id now stamp packet ∧
          s'.relay = (s.relay.fillAck id now stamp (some packet)).1)) := by
  intro id hid
  cases op with
  | run t env =>
    rcases otaStep_cases htaken with ⟨_, _, hop, -⟩ | ⟨t', env', micro, rest, hop, hthread, rfl, -⟩ | ⟨hnot, -⟩
    · cases hop
    · obtain ⟨rfl, rfl⟩ := OtaOp.run.inj hop
      rcases runMicro_targets s t env micro hsession
        with hkept | ⟨report, acquired, first, relay, rfl, hadmission, hrelay⟩
      · exact .inr ⟨(hkept id hid).1, .inl (hkept id hid).2⟩
      · show _ ∨ _ ∧ (((s.runMicro t env _).1.relay.tracker id).nextSeq = _ ∨ _)
        replace hid : id ∈ (s.runMicro t env (.lock report acquired)).1.relay.targets := hid
        rw [hrelay] at hid ⊢
        rcases enlist_targets report env.now id hid with ⟨hself, hzero⟩ | ⟨hold, hsame⟩
        · exact .inl ⟨t, env, report, acquired, rest, first, relay, rfl, hthread, hself, hadmission,
            hrelay ▸ hzero⟩
        · exact .inr ⟨hold, .inl hsame⟩
    · exact absurd rfl (hnot t env)
  | ack other now stamp packet =>
    obtain ⟨rfl, -⟩ := Prod.mk.inj (Option.some.inj htaken)
    obtain ⟨tracker, abortValid, hframe⟩ := fillAck_frame (r := s.relay) other now stamp (some packet)
    have htarget : id ∈ s.relay.targets := by
      replace hid : id ∈ (s.relay.fillAck other now stamp (some packet)).1.targets := hid
      rw [hframe] at hid
      exact hid
    refine .inr ⟨htarget, ?_⟩
    by_cases hsame : id = other
    · subst hsame
      exact .inr ⟨now, stamp, packet, rfl, rfl⟩
    · exact .inl (fillAck_nextSeq (.inl hsame))
  | pong ping =>
    have heq := Option.some.inj htaken
    obtain ⟨⟨tracker, abortValid, hframe⟩, -, -⟩ := pong_frame heq
    refine .inr ⟨by rwa [hframe] at hid, .inl ?_⟩
    rw [← pong_nextSeq s ping id, heq]
  | call t call =>
    simp only [otaStep] at htaken
    split at htaken
    case isTrue =>
      obtain ⟨rfl, -⟩ := Prod.mk.inj (Option.some.inj htaken)
      exact .inr ⟨hid, .inl rfl⟩
    case isFalse => cases htaken
  | remote _ _ | stored _ | radio _ | fault =>
    obtain ⟨rfl, -⟩ := Prod.mk.inj (Option.some.inj htaken)
    exact .inr ⟨hid, .inl rfl⟩

/-- A call that is not the host's brings no DATA. -/
theorem start_pendingData (call : Call) (h : ∀ report, call ≠ .hid report) : pendingData call.start = [] := by
  refine pendingData_eq_nil fun report hmem => ?_
  cases call with
  | hid other => exact h other rfl
  | consoleAbort id | consoleInfo id | forget id | status packet =>
    simp only [Call.start, abortMicros] at hmem
    split_ifs at hmem <;> simp at hmem

/-- A call with a STATUS is one of a tracker. -/
theorem start_status {call : Call} {packet : List (BitVec 8)} (h : .status packet ∈ call.start) :
    (packet.getD 1 0).toNat < maxTrackers := by
  cases call with
  | hid report =>
    simp only [Call.start, hidMicros, abortMicros] at h
    split_ifs at h <;> simp at h
  | consoleAbort id | consoleInfo id | forget id =>
    simp only [Call.start, abortMicros] at h
    split_ifs at h <;> simp at h
  | status other =>
    simp only [Call.start] at h
    split at h
    case isTrue => cases h
    case isFalse hbound =>
      obtain rfl := Micro.status.inj (List.mem_singleton.mp h)
      exact not_le.mp fun hle => hbound (.inr hle)

/-- A step of the receiver deals with a DATA report, or leaves them and `ring_head` alone. -/
theorem otaStep_data (hown : op.byHost = false) (htaken : otaStep s op = some (s', es)) :
    (∃ t env report rest, op = .run t env ∧ s.threads t = .data report :: rest ∧
      s'.relay = s.relay.acceptData report ∧ s'.threads = update s.threads t rest) ∨
    (s.dataEvents op = [] ∧ (s'.relay.ringHead ≤ s.relay.ringHead ∧ s'.relay.ring = s.relay.ring) ∧
      ∀ t, pendingData (s'.threads t) = pendingData (s.threads t)) := by
  by_cases hdata : ∃ t env report rest, op = .run t env ∧ s.threads t = .data report :: rest
  · obtain ⟨t, env, report, rest, rfl, hthread⟩ := hdata
    simp only [otaStep, hthread] at htaken
    obtain ⟨rfl, -⟩ := Prod.mk.inj (Option.some.inj htaken)
    exact .inl ⟨t, env, report, rest, rfl, hthread, rfl, rfl⟩
  refine .inr ⟨?_, ?_, fun t => ?_⟩
  · cases op with
    | run t env =>
      simp only [OtaWorld.dataEvents]
      split
      case h_1 report rest hthread => exact absurd ⟨t, env, report, rest, rfl, hthread⟩ hdata
      case h_2 => rfl
    | _ => rfl
  · rcases otaStep_ring htaken with ⟨t, env, report, rest, rfl, hthread, -⟩ |
      ⟨t, env, report, acquired, first, rest, -, -, -, hrelay, -⟩ | ⟨hkept, -⟩
    · exact absurd ⟨t, env, report, rest, rfl, hthread⟩ hdata
    · rw [hrelay]
      refine ⟨?_, openSession_ring s.relay report⟩
      show (s.relay.openSession report).ringHead ≤ _
      unfold Relay.openSession
      split
      case isTrue => exact le_rfl
      case isFalse => exact Nat.zero_le _
    · refine ⟨?_, hkept.ring⟩
      rcases hkept.head with hsame | ⟨hzero, -⟩
      · exact hsame.le
      · exact hzero ▸ Nat.zero_le _
  · rcases otaStep_cases htaken with ⟨t', call, rfl, hidle, rfl, -⟩ | ⟨t', env, micro, rest, rfl, hthread, rfl, -⟩ |
      ⟨-, -, hthreads, -⟩
    · by_cases hsame : t = t'
      · subst hsame
        simp only [Function.update_self, hidle]
        refine start_pendingData call fun report hcall => ?_
        rw [hcall] at hown
        cases hown
      · simp only [Function.update_of_ne hsame]
    · by_cases hsame : t = t'
      · subst hsame
        simp only [Function.update_self, hthread]
        rw [pendingData_append, pendingData_cons rest fun report hmicro =>
          hdata ⟨t, env, report, rest, rfl, hmicro ▸ hthread⟩, pendingData_eq_nil fun report hmem => ?_]
        · rfl
        · exact Bool.false_ne_true (runMicro_brought s t env micro _ hmem).symm
      · simp only [Function.update_of_ne hsame]
    · rw [hthreads]

/-- The STATUS packets a thread has to deal with are those of trackers. -/
theorem reachable_status (hreach : otaSystem.Reachable s) :
    ∀ t packet, .status packet ∈ s.threads t → (packet.getD 1 0).toNat < maxTrackers := by
  refine hreach.invariant (P := fun s => ∀ t packet, .status packet ∈ s.threads t →
    (packet.getD 1 0).toNat < maxTrackers) (fun t packet hmem => by cases hmem)
    fun s op s' es hbound htaken t packet hmem => ?_
  rcases otaStep_cases htaken with ⟨t', call, -, -, rfl, -⟩ | ⟨t', env, micro, rest, -, hthread, rfl, -⟩ |
    ⟨-, -, hthreads, -⟩
  · by_cases hsame : t = t'
    · subst hsame
      simp only [Function.update_self] at hmem
      exact start_status hmem
    · simp only [Function.update_of_ne hsame] at hmem
      exact hbound t packet hmem
  · by_cases hsame : t = t'
    · subst hsame
      simp only [Function.update_self] at hmem
      rcases List.mem_append.mp hmem with hnew | hrest
      · exact absurd (runMicro_brought s t env micro _ hnew) (by simp [Micro.brought])
      · exact hbound t packet (hthread ▸ List.mem_cons_of_mem _ hrest)
    · simp only [Function.update_of_ne hsame] at hmem
      exact hbound t packet hmem
  · rw [hthreads] at hmem
    exact hbound t packet hmem

end Receivers

end SlimeReceiver.Ota
