import Mathlib.Data.List.Nodup
import Mathlib.Data.List.Perm.Subperm
import SlimeReceiver.Ota.SessionLaw

/-! # The ring of DATA packets

`ring[seq & OTA_TX_RING_MASK]` stores the packet `seq`. A report is accepted while `ring_head` is less than
`OTA_TX_RING_SIZE` ahead of the slowest target, whatever the number of its own packet is.

* **`Live`** — a packet some target still needs.
* **`slotMate`** — the number in the window of the slowest target that has the slot of a packet.
* **`accepted_data_keeps`** — when an accepted report keeps the packets that are needed. -/

namespace SlimeReceiver.Ota

open Function (update)

namespace Relay

/-- The ring has a packet. -/
def Holds (r : Relay) (seq : BitVec 16) : Prop := (r.ring (ringIndex seq)).seq = seq

/-- The ring has a packet that the slowest target has not got yet. -/
def Live (r : Relay) (seq : BitVec 16) : Prop :=
  r.Holds seq ∧ r.ringSeqMin ≤ seq.toNat ∧ seq.toNat < r.ringHead

/-- Of the `OTA_TX_RING_SIZE` numbers from `ring_seq_min_locked` on, the one with the slot of a packet. -/
def slotMate (r : Relay) (seq : BitVec 16) : ℕ :=
  r.ringSeqMin + (seq.toNat + (otaTxRingSize - r.ringSeqMin % otaTxRingSize)) % otaTxRingSize

/-- A packet is the one of its slot in the window, or there is none. -/
def SlotFree (r : Relay) (seq : BitVec 16) : Prop :=
  r.slotMate seq = seq.toNat ∨ r.ringHead ≤ r.slotMate seq ∨
    (r.ring (ringIndex seq)).seq.toNat ≠ r.slotMate seq

end Relay

open Relay

section Slots

variable {r : Relay} {seq other : BitVec 16} {report : HidReport}

theorem ringIndex_lt (seq : BitVec 16) : ringIndex seq < otaTxRingSize := Nat.mod_lt _ (by decide)

/-- The slowest target is not ahead of the ring. -/
theorem ringSeqMin_le (r : Relay) : r.ringSeqMin ≤ r.ringHead := by
  have hfold : ∀ (ids : List ℕ) (least : ℕ), ids.foldl (fun least id =>
      if (r.tracker id).nextSeq.toNat < least then (r.tracker id).nextSeq.toNat else least) least ≤ least := by
    intro ids
    induction ids with
    | nil => exact fun least => le_rfl
    | cons id ids ih =>
      intro least
      rw [List.foldl_cons]
      refine (ih _).trans ?_
      split
      case isTrue hless => exact hless.le
      case isFalse => exact le_rfl
  exact hfold r.targets r.ringHead

/-- A packet of the window is determined by its slot. -/
theorem slotMate_unique (hmin : r.ringSeqMin ≤ other.toNat)
    (hwindow : other.toNat < r.ringSeqMin + otaTxRingSize) (hslot : ringIndex other = ringIndex seq) :
    r.slotMate seq = other.toNat := by
  unfold Relay.slotMate
  simp only [ringIndex, otaTxRingSize] at *
  omega

theorem slotMate_mod (r : Relay) (seq : BitVec 16) :
    r.slotMate seq % otaTxRingSize = ringIndex seq ∧ r.ringSeqMin ≤ r.slotMate seq := by
  unfold Relay.slotMate
  simp only [ringIndex, otaTxRingSize]
  omega

/-- Two live packets have different slots. -/
theorem live_injective (hseq : r.Live seq) (hother : r.Live other) (hslot : ringIndex seq = ringIndex other) :
    seq = other := by
  rw [← hseq.1, ← hother.1, hslot]

/-- There is a slot for each live packet. -/
theorem live_length (packets : List (BitVec 16)) (hnodup : packets.Nodup) (hlive : ∀ seq ∈ packets, r.Live seq) :
    packets.length ≤ otaTxRingSize := by
  have hslots : (packets.map ringIndex).Nodup := hnodup.map_on fun seq hseq other hother =>
    live_injective (hlive seq hseq) (hlive other hother)
  have hsubset : packets.map ringIndex ⊆ List.range otaTxRingSize := by
    intro slot hslot
    obtain ⟨seq, -, rfl⟩ := List.mem_map.mp hslot
    exact List.mem_range.mpr (ringIndex_lt seq)
  calc packets.length = (packets.map ringIndex).length := List.length_map _ |>.symm
    _ ≤ (List.range otaTxRingSize).length := (List.subperm_of_subset hslots hsubset).length_le
    _ = otaTxRingSize := List.length_range

/-- The entry of a report has its number. -/
theorem dataEntry_seq (old : OtaTxEntry) : (dataEntry report old).seq = report.seq := rfl

/-- An accepted report writes its slot. -/
theorem acceptData_ring (haccepts : r.accepts report = true) : (r.acceptData report).ring =
    update r.ring (ringIndex report.seq) (dataEntry report (r.ring (ringIndex report.seq))) := by
  rw [Relay.acceptData, if_pos haccepts]

/-- What is in the ring after an accepted report. -/
theorem holds_acceptData (haccepts : r.accepts report = true) : (r.acceptData report).Holds seq ↔
    if ringIndex seq = ringIndex report.seq then seq = report.seq else r.Holds seq := by
  rw [Relay.Holds, acceptData_ring haccepts]
  by_cases hslot : ringIndex seq = ringIndex report.seq
  · rw [if_pos hslot, hslot, Function.update_self, dataEntry_seq]
    exact eq_comm
  · rw [if_neg hslot, Function.update_of_ne hslot]
    rfl

/-- A report that is accepted finds the ring less than full. -/
theorem ringCount_of_accepts (haccepts : r.accepts report = true) :
    r.active = true ∧ r.ringHead < r.ringSeqMin + otaTxRingSize := by
  rw [Relay.accepts, Bool.and_eq_true, Bool.and_eq_true, decide_eq_true_eq, decide_eq_true_eq] at haccepts
  have hcount : r.ringHead - r.ringSeqMin < otaTxRingSize := haccepts.2
  exact ⟨haccepts.1.1, by omega⟩

/-- An accepted report keeps the live packets exactly when its slot is free. -/
theorem acceptData_keeps (haccepts : r.accepts report = true) :
    (∀ seq, r.Live seq → (r.acceptData report).Holds seq) ↔ r.SlotFree report.seq := by
  have hcount := (ringCount_of_accepts haccepts).2
  constructor
  · intro hkeeps
    by_contra hnot
    rw [Relay.SlotFree, not_or, not_or, not_le, ne_eq, not_not] at hnot
    obtain ⟨hother, hhead, hheld⟩ := hnot
    -- the packet that is overwritten
    have hslot : ringIndex (r.ring (ringIndex report.seq)).seq = ringIndex report.seq := by
      rw [ringIndex, hheld, (slotMate_mod r report.seq).1]
    have hlive : r.Live (r.ring (ringIndex report.seq)).seq := by
      refine ⟨?_, ?_, ?_⟩
      · rw [Relay.Holds, hslot]
      · rw [hheld]
        exact (slotMate_mod r report.seq).2
      · rw [hheld]
        exact hhead
    have hkept := (holds_acceptData haccepts).mp (hkeeps _ hlive)
    rw [if_pos hslot] at hkept
    exact hother (by rw [← hheld, hkept])
  · intro hfree seq hlive
    refine (holds_acceptData haccepts).mpr ?_
    split
    case isFalse => exact hlive.1
    case isTrue hslot =>
      have hmate : r.slotMate report.seq = seq.toNat :=
        slotMate_unique hlive.2.1 (hlive.2.2.trans hcount) hslot
      rcases hfree with hsame | hhead | hheld
      · exact BitVec.eq_of_toNat_eq (hmate.symm.trans hsame)
      · exact absurd hlive.2.2 (not_lt.mpr (hmate ▸ hhead))
      · refine absurd ?_ hheld
        rw [← hslot, hlive.1, hmate]

end Slots

/-! ## Steps -/

/-- Only an accepted DATA report writes the ring, and `ring_head` goes back to 0 otherwise. -/
structure RingKept (r r' : Relay) : Prop where
  ring : r'.ring = r.ring
  head : r'.ringHead = r.ringHead ∨ r'.ringHead = 0 ∧ r'.targets = []

section Frames

variable {r : Relay} {s s' : OtaWorld} {thread : ℕ} {env : MicroEnvironment} {micro : Micro} {op : OtaOp}
  {es : List OtaEvent}

theorem removeTarget_ring (id : ℕ) (r : Relay) : RingKept r (r.removeTarget id).1 := by
  unfold Relay.removeTarget
  split
  case isTrue => exact ⟨rfl, .inl rfl⟩
  case isFalse =>
    refine ⟨rfl, ?_⟩
    by_cases hnone : r.targets.filter (fun target => target != id) = []
    · exact .inr ⟨if_pos hnone, hnone⟩
    · exact .inl (if_neg hnone)

theorem cancelEach_ring (now : BitVec 32) (ids : List ℕ) (ended : Bool) :
    (Relay.cancelEach now ids (r, ended)).1.ring = r.ring := by
  induction ids generalizing r ended with
  | nil => rfl
  | cons id ids ih => exact (ih _).trans (removeTarget_ring id (r.queueAbort id now)).ring

theorem noteStatus_ring (packet : List (BitVec 8)) (uptime : ℤ) :
    RingKept r (r.noteStatus packet uptime).1 := by
  simp only [Relay.noteStatus]
  split
  case isTrue => exact ⟨(removeTarget_ring _ _).ring, (removeTarget_ring _ _).head⟩
  case isFalse => exact ⟨rfl, .inl rfl⟩

theorem openSession_ring (r : Relay) (report : HidReport) : (r.openSession report).ring = r.ring := by
  unfold Relay.openSession
  split
  case isTrue => rfl
  case isFalse => rfl

variable (s thread env micro) in
/-- An entry writes the ring, opens a session or leaves the packets alone. -/
theorem runMicro_ring : (∃ report, micro = .data report ∧ s.relay.accepts report = true) ∨
    (∃ report acquired first, micro = .lock report acquired ∧
      s.relay.admitTarget report env.now acquired =
        .admitted first ((s.relay.openSession report).enlist report env.now)) ∨
    (RingKept s.relay (s.runMicro thread env micro).1.relay ∧
      ∀ e ∈ (s.runMicro thread env micro).2.2, (∀ seq payload, e ≠ .dataAccepted seq payload) ∧
        ∀ t id first, e ≠ .begun t id first) := by
  by_cases hdata : ∃ report, micro = .data report ∧ s.relay.accepts report = true
  · exact .inl hdata
  by_cases hlock : ∃ report acquired first, micro = .lock report acquired ∧
      s.relay.admitTarget report env.now acquired =
        .admitted first ((s.relay.openSession report).enlist report env.now)
  · exact .inr (.inl hlock)
  refine .inr (.inr ⟨?_, fun e he => ?_⟩)
  · have hprelude : ∀ {report}, Prelude report micro →
        RingKept s.relay (s.runMicro thread env micro).1.relay := by
      intro report hprelude
      obtain ⟨⟨i, now, hrelay⟩, -, -⟩ := runMicro_prelude s thread env hprelude
      rcases hrelay with hsame | hexpired
      · rw [hsame]
        exact ⟨rfl, .inl rfl⟩
      · rw [hexpired]
        exact ⟨rfl, .inl rfl⟩
    cases micro with
    | admission report => exact hprelude .admission
    | claim report => exact hprelude .claim
    | checkActive report => exact hprelude .checkActive
    | checkAbort report i => exact hprelude (.checkAbort i)
    | lock report acquired =>
      rcases runLock_cases s thread report acquired env.now
        with hrun | ⟨-, hrun⟩ | ⟨first, hadmission, -⟩
      · rw [OtaWorld.runMicro, hrun]
        exact ⟨rfl, .inl rfl⟩
      · rw [OtaWorld.runMicro, hrun]
        exact ⟨rfl, .inl rfl⟩
      · exact absurd ⟨report, acquired, first, rfl, hadmission⟩ hlock
    | suppress | unsuppress | release | send _ _ => exact ⟨rfl, .inl rfl⟩
    | data report =>
      have hsame : s.relay.acceptData report = s.relay := if_neg fun haccepts => hdata ⟨report, rfl, haccepts⟩
      show RingKept s.relay (s.relay.acceptData report)
      rw [hsame]
      exact ⟨rfl, .inl rfl⟩
    | queue verify report =>
      show RingKept s.relay (s.relay.queueCommand verify report env.now)
      simp only [Relay.queueCommand]
      split
      case isTrue => exact ⟨rfl, .inl rfl⟩
      case isFalse => exact ⟨rfl, .inl rfl⟩
    | cancel id =>
      have hremoved := removeTarget_ring id (s.relay.queueAbort id env.now)
      exact ⟨hremoved.ring, hremoved.head⟩
    | cancelAll => exact ⟨cancelEach_ring env.now s.relay.targets false, .inr ⟨rfl, rfl⟩⟩
    | forget id =>
      have hremoved := removeTarget_ring id s.relay
      exact ⟨hremoved.ring, hremoved.head⟩
    | status packet => exact noteStatus_ring packet env.uptime
  · cases runMicro_events he with
    | dataAccepted report haccepts => exact absurd ⟨report, rfl, haccepts⟩ hdata
    | begun report acquired first hadmission => exact absurd ⟨report, acquired, first, rfl, hadmission⟩ hlock
    | _ => exact ⟨fun _ _ => OtaEvent.noConfusion, fun _ _ _ => OtaEvent.noConfusion⟩

theorem finishEvents_finished (t : ℕ) (rest : List Micro) :
    ∀ e ∈ OtaWorld.finishEvents t rest, ∃ t, e = .finished t := by
  intro e he
  unfold OtaWorld.finishEvents at he
  split at he
  case isTrue => exact ⟨t, List.mem_singleton.mp he⟩
  case isFalse => cases he

/-- A step accepts a DATA report, accepts a BEGIN, or leaves the packets alone. -/
theorem otaStep_ring (htaken : otaStep s op = some (s', es)) :
    (∃ t env report rest, op = .run t env ∧ s.threads t = .data report :: rest ∧
      s.relay.accepts report = true ∧ s'.relay = s.relay.acceptData report ∧
      es = .dataAccepted report.seq report.payload :: OtaWorld.finishEvents t rest) ∨
    (∃ t env report acquired first rest, op = .run t env ∧ s.threads t = .lock report acquired :: rest ∧
      s.relay.admitTarget report env.now acquired =
        .admitted first ((s.relay.openSession report).enlist report env.now) ∧
      s'.relay = (s.relay.openSession report).enlist report env.now ∧
      ∃ rest, es = .begun t report.trackerId first :: OtaWorld.finishEvents t rest) ∨
    (RingKept s.relay s'.relay ∧ ∀ e ∈ es, (∀ seq payload, e ≠ .dataAccepted seq payload) ∧
      ∀ t id first, e ≠ .begun t id first) := by
  have hfinish : ∀ t rest, ∀ e ∈ OtaWorld.finishEvents t rest, (∀ seq payload, e ≠ .dataAccepted seq payload) ∧
      ∀ t id first, e ≠ .begun t id first := by
    intro t rest e he
    obtain ⟨_, rfl⟩ := finishEvents_finished t rest e he
    exact ⟨fun _ _ => OtaEvent.noConfusion, fun _ _ _ => OtaEvent.noConfusion⟩
  rcases otaStep_cases htaken with ⟨t, call, -, -, rfl, rfl⟩ | ⟨t, env, micro, rest, rfl, hthread, rfl, rfl⟩ |
    ⟨-, ⟨tracker, abortValid, hrelay⟩, -, -, hevents⟩
  · refine .inr (.inr ⟨⟨rfl, .inl rfl⟩, List.forall_mem_cons.mpr ⟨?_, hfinish t call.start⟩⟩)
    exact ⟨fun _ _ => OtaEvent.noConfusion, fun _ _ _ => OtaEvent.noConfusion⟩
  · rcases runMicro_ring s t env micro
      with ⟨report, rfl, haccepts⟩ | ⟨report, acquired, first, rfl, hadmission⟩ | ⟨hkept, hquiet⟩
    · refine .inl ⟨t, env, report, rest, rfl, hthread, haccepts, rfl, ?_⟩
      simp only [OtaWorld.runMicro, if_pos haccepts]
      rfl
    · refine .inr (.inl ⟨t, env, report, acquired, first, rest, rfl, hthread, hadmission, ?_, ?_⟩)
      · simp only [OtaWorld.runMicro, OtaWorld.runLock, hadmission]
      · simp only [OtaWorld.runMicro, OtaWorld.runLock, hadmission]
        exact ⟨_, rfl⟩
    · exact .inr (.inr ⟨hkept, fun e he => (List.mem_append.mp he).elim (hquiet e) (hfinish t _ e)⟩)
  · refine .inr (.inr ⟨?_, fun e he => ?_⟩)
    · rw [hrelay]
      exact ⟨rfl, .inl rfl⟩
    · rcases hevents e he with ⟨id, ack, rfl⟩ | ⟨id, command, rfl⟩ | ⟨id, rfl⟩
      · exact ⟨fun _ _ => OtaEvent.noConfusion, fun _ _ _ => OtaEvent.noConfusion⟩
      · exact ⟨fun _ _ => OtaEvent.noConfusion, fun _ _ _ => OtaEvent.noConfusion⟩
      · exact ⟨fun _ _ => OtaEvent.noConfusion, fun _ _ _ => OtaEvent.noConfusion⟩

end Frames

/-! ## Runs -/

/-- A report is accepted by a step of the thread that brings it. -/
theorem step_dataAccepted {s s' : OtaWorld} {op : OtaOp} {es : List OtaEvent} {seq : BitVec 16}
    {payload : List (BitVec 8)} (htaken : otaStep s op = some (s', es))
    (haccepted : .dataAccepted seq payload ∈ es) :
    ∃ report, s.relay.accepts report = true ∧ report.seq = seq ∧ s'.relay = s.relay.acceptData report := by
  rcases otaStep_ring htaken with ⟨t, env, report, rest, -, -, haccepts, hrelay, rfl⟩ |
    ⟨t, env, report, acquired, first, rest, -, -, -, -, ⟨rest', rfl⟩⟩ | ⟨-, hquiet⟩
  · rcases List.mem_cons.mp haccepted with heq | hend
    · exact ⟨report, haccepts, (OtaEvent.dataAccepted.inj heq).1.symm, hrelay⟩
    · obtain ⟨_, heq⟩ := finishEvents_finished _ _ _ hend
      cases heq
  · rcases List.mem_cons.mp haccepted with heq | hend
    · cases heq
    · obtain ⟨_, heq⟩ := finishEvents_finished _ _ _ hend
      cases heq
  · exact absurd rfl ((hquiet _ haccepted).1 seq payload)

/-- A DATA report that is accepted in this step finds its slot free. -/
def FindsSlotFree (s : OtaWorld) (op : OtaOp) : Prop :=
  ∀ t env report rest, op = .run t env → s.threads t = .data report :: rest →
    s.relay.accepts report = true → s.relay.SlotFree report.seq

/-- Some target still needs a packet, and the next report is well behaved. -/
def NeededThroughout (seq : BitVec 16) (s : OtaWorld) (op : OtaOp) : Prop :=
  s.relay.ringSeqMin ≤ seq.toNat ∧ seq.toNat < s.relay.ringHead ∧ FindsSlotFree s op

/-- A packet stays in the ring while it is needed and every report finds its slot free. -/
theorem holds_while_needed {s s' : OtaWorld} {seq : BitVec 16} {trace : List OtaEvent}
    (hrun : (otaSystem.startingAt s).RunWhere (NeededThroughout seq) trace s') (h : s.relay.Holds seq) :
    s'.relay.Holds seq := by
  refine hrun.invariant (P := fun s => s.relay.Holds seq) h fun s op s' es hheld hok htaken => ?_
  obtain ⟨hmin, hhead, hfree⟩ := hok
  rcases otaStep_ring htaken with ⟨t, env, report, rest, rfl, hthread, haccepts, hrelay, -⟩ |
    ⟨t, env, report, acquired, first, rest, -, -, -, hrelay, -⟩ | ⟨hkept, -⟩
  · rw [hrelay]
    exact (acceptData_keeps haccepts).mpr (hfree t env report rest rfl hthread haccepts) seq
      ⟨hheld, hmin, hhead⟩
  · rw [hrelay, Relay.Holds]
    show ((s.relay.openSession report).ring (ringIndex seq)).seq = seq
    rw [openSession_ring]
    exact hheld
  · rw [Relay.Holds, hkept.ring]
    exact hheld

/-- From every state on: the live packets fit into the ring; a DATA report that is accepted keeps all of
them exactly when its slot is free; and a packet stays in the ring for as long as it is needed and every
report finds its slot free. -/
theorem accepted_data_keeps (s : OtaWorld) :
    (∀ packets : List (BitVec 16), packets.Nodup → (∀ seq ∈ packets, s.relay.Live seq) →
      packets.length ≤ otaTxRingSize) ∧
    (∀ op s' es seq payload, otaSystem.step s op = some (s', es) → .dataAccepted seq payload ∈ es →
      ((∀ other, s.relay.Live other → s'.relay.Holds other) ↔ s.relay.SlotFree seq)) ∧
    ∀ seq trace s', (otaSystem.startingAt s).RunWhere (NeededThroughout seq) trace s' →
      s.relay.Holds seq → s'.relay.Holds seq := by
  refine ⟨live_length, fun op s' es seq payload htaken haccepted => ?_, fun _ _ _ => holds_while_needed⟩
  obtain ⟨report, haccepts, rfl, hrelay⟩ := step_dataAccepted htaken haccepted
  rw [hrelay]
  exact acceptData_keeps haccepts

/-- A DATA report with one byte of firmware. -/
def dataReport (seq : BitVec 16) (byte : BitVec 8) : HidReport where
  data := fun k => if k = 0 then 0xF3 else if k = 2 then (be16Bytes seq).getD 0 0
    else if k = 3 then (be16Bytes seq).getD 1 0 else if k = 4 then byte else 0
  len := 5

/-- An update of tracker 0 up to its first two DATA reports. -/
def twoReports (first second : BitVec 16) : List OtaOp :=
  [OtaOp.stored 1, .call 0 (.hid beginReport)] ++ List.replicate 22 (OtaOp.run 0 quietMoment) ++
    [.call 0 (.hid (dataReport first 7)), .run 0 quietMoment, .call 0 (.hid (dataReport second 8))]

/-- Packet 128 is accepted while tracker 0 still needs packet 0, and overwrites it. -/
theorem needed_data_destroyed : ∃ s op s' es, otaSystem.Reachable s ∧
    otaSystem.step s op = some (s', es) ∧ .dataAccepted 128 [8] ∈ es ∧
    s.relay.Live 0 ∧ ¬ s'.relay.Holds 0 := by
  obtain ⟨s, s', es, hreach, htaken, htest⟩ := otaSystem.exists_step_of_replay (twoReports 0 128)
    (.run 0 quietMoment) (fun s s' es => decide (.dataAccepted 128 [8] ∈ es ∧
      ((s.relay.ring (ringIndex 0)).seq = 0 ∧ s.relay.ringSeqMin ≤ 0 ∧ 0 < s.relay.ringHead) ∧
      (s'.relay.ring (ringIndex 0)).seq ≠ 0)) (by decide +kernel)
  obtain ⟨haccepted, hlive, hgone⟩ := of_decide_eq_true htest
  exact ⟨s, _, s', es, hreach, htaken, haccepted, hlive, hgone⟩

end SlimeReceiver.Ota
