import SlimeReceiver.Ota.Ring

/-! # DATA of the current session

A session starts with an empty window but not with an empty ring: its slots keep what was written for
earlier sessions, and the number stored in a slot does not tell one session from another.

* **`sessionReports`** — the reports accepted since the first BEGIN of the session.
* **`RingMatches`** — what these have left in the ring.
* **`acked_data_law`** — a packet sent to a tracker is one of the session exactly when its slot has been
  written in the session. -/

namespace SlimeReceiver.Ota

open Function (update)
open Relay

/-! ## The reports of a session -/

/-- One more event in a session. -/
def sessionReports.note (reports : List (BitVec 16 × List (BitVec 8))) :
    OtaEvent → List (BitVec 16 × List (BitVec 8))
  | .begun _ _ true => []
  | .dataAccepted seq payload => (seq, payload) :: reports
  | _ => reports

/-- The DATA reports accepted since the session was started, the newest first. -/
def sessionReports (trace : List OtaEvent) : List (BitVec 16 × List (BitVec 8)) :=
  trace.foldl sessionReports.note []

/-- The payload of the last report of the session with a number. -/
def lastPayload (seq : BitVec 16) (trace : List OtaEvent) : Option (List (BitVec 8)) :=
  ((sessionReports trace).find? fun report => report.1 == seq).map Prod.snd

/-- Some report of the session went to the slot of a number. -/
def SlotWritten (seq : BitVec 16) (trace : List OtaEvent) : Prop :=
  ∃ report ∈ sessionReports trace, ringIndex report.1 = ringIndex seq

/-- The packet of a report, as it is sent to a tracker. -/
def dataPacket (id : ℕ) (seq : BitVec 16) (payload : List (BitVec 8)) : List (BitVec 8) :=
  [esbOtaDataType, BitVec.ofNat 8 id] ++ be16Bytes seq ++ payload

/-- A slot has the packet of the newest report that went to it. -/
def RingMatches (reports : List (BitVec 16 × List (BitVec 8))) (ring : ℕ → OtaTxEntry) : Prop :=
  ∀ slot seq payload, reports.find? (fun report => ringIndex report.1 == slot) = some (seq, payload) →
    (ring slot).seq = seq ∧
      (ring slot).data.take (ring slot).length = [esbOtaDataType, 0] ++ be16Bytes seq ++ payload

section Reports

variable {reports : List (BitVec 16 × List (BitVec 8))} {ring : ℕ → OtaTxEntry} {seq : BitVec 16}
  {payload : List (BitVec 8)} {slot : ℕ}

/-- What is sent of an entry that was just written. -/
theorem dataEntry_take (report : HidReport) (old : OtaTxEntry) :
    (dataEntry report old).data.take (dataEntry report old).length =
      [esbOtaDataType, 0] ++ be16Bytes report.seq ++ report.payload := by
  have hlength : (dataEntry report old).length =
      ([esbOtaDataType, 0, report.data 2, report.data 3] ++ report.payload).length := by
    rw [List.length_append, HidReport.payload, List.length_map, List.length_range]
    rfl
  have hbytes : be16Bytes report.seq = [report.data 2, report.data 3] := be16Bytes_be16 _ _
  rw [hlength, hbytes]
  exact List.take_left

theorem ringMatches_nil (ring : ℕ → OtaTxEntry) : RingMatches [] ring := by
  intro slot seq payload hfind
  rw [List.find?_nil] at hfind
  cases hfind

theorem RingMatches.accept (h : RingMatches reports ring) (report : HidReport) :
    RingMatches ((report.seq, report.payload) :: reports)
      (update ring (ringIndex report.seq) (dataEntry report (ring (ringIndex report.seq)))) := by
  intro slot seq payload hfind
  by_cases hslot : ringIndex report.seq = slot
  · rw [List.find?_cons_of_pos (by simpa using hslot)] at hfind
    obtain ⟨rfl, rfl⟩ := Prod.mk.inj (Option.some.inj hfind)
    rw [← hslot, Function.update_self]
    exact ⟨dataEntry_seq _, dataEntry_take report _⟩
  · rw [List.find?_cons_of_neg (by simpa using hslot)] at hfind
    rw [Function.update_of_ne (Ne.symm hslot)]
    exact h slot seq payload hfind

/-- The newest report of a slot is the newest one with its number. -/
theorem find_newest
    (h : reports.find? (fun report => ringIndex report.1 == ringIndex seq) = some (seq, payload)) :
    reports.find? (fun report => report.1 == seq) = some (seq, payload) := by
  induction reports with
  | nil => cases h
  | cons report reports ih =>
    by_cases hslot : ringIndex report.1 = ringIndex seq
    · rw [List.find?_cons_of_pos (by simpa using hslot)] at h
      obtain rfl := Option.some.inj h
      exact List.find?_cons_of_pos (by simp)
    · rw [List.find?_cons_of_neg (by simpa using hslot)] at h
      have hother : report.1 ≠ seq := fun hsame => hslot (hsame ▸ rfl)
      rw [List.find?_cons_of_neg (by simpa using hother)]
      exact ih h

end Reports

/-! ## ACKs -/

section Acks

variable {r : Relay} {id : ℕ} {now stamp : BitVec 32} {rx : Option (List (BitVec 8))} {seq : BitVec 16}
  {bytes : List (BitVec 8)}

/-- A packet is sent from the slot that has its number. -/
theorem fillAck_data (h : (r.fillAck id now stamp rx).2 = some (.data seq bytes)) :
    r.Holds seq ∧ seq.toNat < r.ringHead ∧
      bytes = ((r.ring (ringIndex seq)).data.take (r.ring (ringIndex seq)).length).set 1 (BitVec.ofNat 8 id) := by
  have hdata : ∀ (r : Relay) asked, (r.fillData id asked).2 = some (.data seq bytes) →
      r.Holds seq ∧ seq.toNat < r.ringHead ∧
        bytes = ((r.ring (ringIndex seq)).data.take (r.ring (ringIndex seq)).length).set 1
          (BitVec.ofNat 8 id) := by
    intro r asked hfill
    cases asked with
    | none => cases hfill
    | some asked =>
      simp only [Relay.fillData] at hfill
      split at hfill
      case isFalse => cases hfill
      case isTrue hhas =>
        obtain ⟨rfl, rfl⟩ := Ack.data.inj (Option.some.inj hfill)
        rw [Relay.hasData, Bool.and_eq_true, decide_eq_true_eq, beq_iff_eq] at hhas
        exact ⟨hhas.2, hhas.1, rfl⟩
  simp only [Relay.fillAck] at h
  split at h
  case isTrue => cases h
  split at h
  case isTrue => cases h
  split at h
  case isFalse => cases h
  case isTrue =>
    simp only [Relay.fillTarget] at h
    split at h
    case isTrue => exact hdata (r.expireAbort id now) _ h
    split at h
    case isTrue => cases h
    split at h
    case isTrue => exact hdata (r.expireAbort id now) _ h
    case isFalse => cases h

/-- Without a STATUS no packet is sent. -/
theorem fillAck_none : (r.fillAck id now stamp none).2 ≠ some (.data seq bytes) := by
  intro h
  have hdata : ∀ r : Relay, (r.fillData id (statusSeq none)).2 = none := fun _ => rfl
  simp only [Relay.fillAck] at h
  split at h
  case isTrue => cases h
  split at h
  case isTrue => cases h
  split at h
  case isFalse => cases h
  case isTrue =>
    simp only [Relay.fillTarget] at h
    split at h
    case isTrue =>
      rw [hdata] at h
      cases h
    split at h
    case isTrue => cases h
    split at h
    case isTrue =>
      rw [hdata] at h
      cases h
    case isFalse => cases h

/-- An answer to a PING carries no firmware. -/
theorem pong_no_data {s : OtaWorld} {ping : PingContext} {other : ℕ} :
    .acked other (.data seq bytes) ∉ (s.pong ping).2 := by
  intro h
  simp only [OtaWorld.pong] at h
  split at h
  case isTrue => cases h
  split at h
  case isTrue => cases List.mem_singleton.mp h
  split at h
  case isTrue => cases List.mem_singleton.mp h
  split at h
  case isFalse => cases List.mem_singleton.mp h
  case isTrue =>
    split at h
    case h_2 => cases List.mem_singleton.mp h
    case h_1 ack hack =>
      obtain ⟨-, rfl⟩ := OtaEvent.acked.inj (List.mem_singleton.mp h)
      exact fillAck_none hack

/-- What a tracker gets from the slot of a packet: the packet of the session, if the slot was written in
the session. -/
theorem ack_iff {trace : List OtaEvent} (hmatches : RingMatches (sessionReports trace) r.ring)
    (h : (r.fillAck id now stamp rx).2 = some (.data seq bytes)) :
    (∃ payload, lastPayload seq trace = some payload ∧ bytes = dataPacket id seq payload) ↔
      SlotWritten seq trace := by
  obtain ⟨hheld, -, hbytes⟩ := fillAck_data h
  constructor
  · rintro ⟨payload, hlast, -⟩
    obtain ⟨report, hfind, -⟩ := Option.map_eq_some_iff.mp hlast
    have hsame : report.1 = seq := by simpa using List.find?_some hfind
    exact ⟨report, List.mem_of_find?_eq_some hfind, by rw [hsame]⟩
  · rintro ⟨report, hmem, hslot⟩
    have hsome : ((sessionReports trace).find? fun report => ringIndex report.1 == ringIndex seq).isSome :=
      List.find?_isSome.mpr ⟨report, hmem, by simpa using hslot⟩
    obtain ⟨⟨newest, payload⟩, hnewest⟩ := Option.isSome_iff_exists.mp hsome
    obtain ⟨hseq, htake⟩ := hmatches _ _ _ hnewest
    -- the slot has the number that is asked for
    obtain rfl : newest = seq := hseq.symm.trans hheld
    refine ⟨payload, ?_, ?_⟩
    · rw [lastPayload, find_newest hnewest]
      rfl
    · rw [hbytes, htake]
      rfl

end Acks

/-! ## Runs -/

/-- A packet sent to a tracker is that of the last report of the session with its number, exactly when some
report of the session went to its slot. -/
def DataLaw (earlier : List OtaEvent) : OtaEvent → Prop
  | .acked id (.data seq bytes) =>
    (∃ payload, lastPayload seq earlier = some payload ∧ bytes = dataPacket id seq payload) ↔
      SlotWritten seq earlier
  | _ => True

section Runs

variable {trace es : List OtaEvent} {s s' : OtaWorld} {op : OtaOp}

theorem sessionReports_append (trace : List OtaEvent)
    (hes : ∀ e ∈ es, (∀ seq payload, e ≠ .dataAccepted seq payload) ∧ ∀ t id first, e ≠ .begun t id first) :
    sessionReports (trace ++ es) = sessionReports trace := by
  rw [sessionReports, List.foldl_append]
  refine foldl_eq_self (fun e he reports => ?_) _
  cases e with
  | dataAccepted seq payload => exact absurd rfl ((hes _ he).1 seq payload)
  | begun t id first => exact absurd rfl ((hes _ he).2 t id first)
  | _ => rfl

theorem sessionReports_finish (trace : List OtaEvent) (t : ℕ) (rest : List Micro) :
    sessionReports (trace ++ OtaWorld.finishEvents t rest) = sessionReports trace := by
  refine sessionReports_append trace fun e he => ?_
  obtain ⟨_, rfl⟩ := finishEvents_finished t rest e he
  exact ⟨fun _ _ => OtaEvent.noConfusion, fun _ _ _ => OtaEvent.noConfusion⟩

/-- The ring has the reports of the session, step by step. -/
theorem ringMatches_step (h : RingMatches (sessionReports trace) s.relay.ring)
    (htaken : otaStep s op = some (s', es)) : RingMatches (sessionReports (trace ++ es)) s'.relay.ring := by
  rcases otaStep_ring htaken with ⟨t, env, report, rest, -, -, haccepts, hrelay, rfl⟩ |
    ⟨t, env, report, acquired, first, rest, -, -, hadmission, hrelay, ⟨rest', rfl⟩⟩ | ⟨hkept, hquiet⟩
  · rw [← List.singleton_append, ← List.append_assoc, sessionReports_finish, hrelay, acceptData_ring haccepts,
      sessionReports, List.foldl_append]
    exact h.accept report
  · have hring : s'.relay.ring = s.relay.ring := by
      rw [hrelay]
      exact openSession_ring s.relay report
    rw [← List.singleton_append, ← List.append_assoc, sessionReports_finish, hring, sessionReports,
      List.foldl_append]
    cases first with
    | true => exact ringMatches_nil _
    | false => exact h
  · rw [sessionReports_append trace hquiet, hkept.ring]
    exact h

/-- The answers of a step obey the law. -/
theorem dataLaw_step (h : RingMatches (sessionReports trace) s.relay.ring) (hlaw : EachAfter DataLaw trace)
    (htaken : otaStep s op = some (s', es)) : EachAfter DataLaw (trace ++ es) := by
  cases op with
  | ack id now stamp packet =>
    obtain ⟨rfl, rfl⟩ := Prod.mk.inj (Option.some.inj htaken)
    cases hack : (s.answer id now stamp (some packet)).2 with
    | none =>
      rw [Option.map_none, Option.toList_none, List.append_nil]
      exact hlaw
    | some ack =>
      rw [Option.map_some, Option.toList_some]
      refine eachAfter_snoc.mpr ⟨hlaw, ?_⟩
      cases ack with
      | data seq bytes => exact ack_iff h hack
      | _ => exact trivial
  | pong ping =>
    have hpong : s.pong ping = (s', es) := Option.some.inj htaken
    obtain rfl : (s.pong ping).2 = es := by rw [hpong]
    refine hlaw.append fun earlier e he => ?_
    cases e with
    | acked id ack =>
      cases ack with
      | data seq bytes => exact absurd he pong_no_data
      | _ => exact trivial
    | _ => exact trivial
  | _ =>
    refine hlaw.append fun earlier e he => ?_
    cases e with
    | acked id ack =>
      rcases otaStep_answer htaken he (.inl ⟨_, _, rfl⟩) with ⟨_, _, _, _, heq⟩ | ⟨_, heq⟩
      · cases heq
      · cases heq
    | _ => exact trivial

end Runs

/-- In every run a packet sent to a tracker has the length and payload of the last report accepted with its
number since the first BEGIN of the session exactly when a report of the session went to its slot. -/
theorem acked_data_law {trace : List OtaEvent} {s : OtaWorld} (h : otaSystem.Run trace s) :
    EachAfter DataLaw trace := by
  have hrun : RingMatches (sessionReports trace) s.relay.ring ∧ EachAfter DataLaw trace := by
    induction h with
    | start => exact ⟨ringMatches_nil _, eachAfter_nil⟩
    | snoc _ _ htaken ih => exact ⟨ringMatches_step ih.1 htaken, dataLaw_step ih.1 ih.2 htaken⟩
  exact hrun.2

/-- A STATUS of tracker 0. -/
def statusOf (status : BitVec 8) (seq : BitVec 16) : List (BitVec 8) := [0x21, 0, status] ++ be16Bytes seq

/-- Tracker 0 asks for packet 0 after packet 0 has been sent by the host. -/
def orderedSession : List OtaOp :=
  [OtaOp.stored 1, .call 0 (.hid beginReport)] ++ List.replicate 22 (OtaOp.run 0 quietMoment) ++
    [.call 0 (.hid (dataReport 0 7)), .run 0 quietMoment, .call 1 (.status (statusOf 0x02 0)),
      .run 1 quietMoment, .ack 0 0 0 (statusOf 0x02 0)]

/-- The packet is sent. -/
theorem acked_data_law_ordered : ∃ trace s, otaSystem.Run trace s ∧
    .acked 0 (.data 0 [0x20, 0, 0, 0, 7]) ∈ trace ∧ EachAfter DataLaw trace := by
  obtain ⟨trace, s, hrun, htest⟩ := otaSystem.exists_run_of_replay orderedSession
    (fun trace _ => decide (.acked 0 (.data 0 [0x20, 0, 0, 0, 7]) ∈ trace)) (by decide +kernel)
  exact ⟨trace, s, hrun, of_decide_eq_true htest, acked_data_law hrun⟩

/-- The first session has sent packet 0 when its tracker gives up. In the second session packet 1 comes
first, and tracker 0 asks for packet 0. -/
def secondSession : List OtaOp :=
  [OtaOp.stored 1, .call 0 (.hid beginReport)] ++ List.replicate 22 (OtaOp.run 0 quietMoment) ++
    [OtaOp.call 0 (.hid (dataReport 0 7)), .run 0 quietMoment, .call 1 (.status (statusOf 0x15 0))] ++
    List.replicate 3 (OtaOp.run 1 quietMoment) ++
    [OtaOp.call 0 (.hid beginReport)] ++ List.replicate 22 (OtaOp.run 0 quietMoment) ++
    [.call 0 (.hid (dataReport 1 8)), .run 0 quietMoment, .call 1 (.status (statusOf 0x02 0)),
      .run 1 quietMoment, .ack 0 0 0 (statusOf 0x02 0)]

/-- It gets the firmware of the first session. -/
theorem acked_data_stale : ∃ earlier s,
    otaSystem.Run (earlier ++ [.acked 0 (.data 0 [0x20, 0, 0, 0, 7])]) s ∧
    sessionReports earlier = [(1, [8])] ∧ lastPayload 0 earlier = none := by
  obtain ⟨trace, s, hrun, htest⟩ := otaSystem.exists_run_of_replay secondSession
    (fun trace _ => decide (trace.getLast? = some (.acked 0 (.data 0 [0x20, 0, 0, 0, 7])) ∧
      sessionReports trace.dropLast = [(1, [8])] ∧ lastPayload 0 trace.dropLast = none)) (by decide +kernel)
  obtain ⟨hlast, hreports, hnone⟩ := of_decide_eq_true htest
  obtain ⟨earlier, rfl⟩ := List.getLast?_eq_some_iff.mp hlast
  rw [List.dropLast_concat] at hreports hnone
  exact ⟨earlier, s, hrun, hreports, hnone⟩

end SlimeReceiver.Ota
