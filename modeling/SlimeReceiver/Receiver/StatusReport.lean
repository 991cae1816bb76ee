import SlimeReceiver.Receiver.Accounting
import SlimeReceiver.Receiver.Composite

/-! # The loss statistics in status packets

A forwarded status packet carries the packets received and estimated as lost since the status packet
before it. The counters are two bytes wide, the fields of the packet one.

* **`PacketEffect`** — everything a packet can do to the slots, whichever path it takes.
* **`statusSystem`** — packets as they arrive, and what else touches the slots.
* **`sinceStatus`** — what a history says about the interval since the last status packet.
* **`status_report`** — what a status packet says about that interval, and exactly when it is true. -/

namespace SlimeReceiver

open Receiver

/-! ## What a packet can do -/

/-- A packet of tracker `id` with room for the fields in front of the statistics. -/
def OwnPacket (id : ℕ) (pkt : List (BitVec 8)) : Prop :=
  ∃ type tracker a b rest, pkt = type :: tracker :: a :: b :: rest ∧ BitVec.toNat tracker = id

/-- The outcomes of a packet, by what they do to the slots. -/
inductive PacketEffect (r : Receiver) (out : Received) : Prop
  | quiet : out.receiver = r → out.call = none → out.hid = [] → PacketEffect r out
  | dropped (call : SequenceCall) : out.call = some call →
      (r.checkPacketSequence call.trackerId call.sequence).2.dropped = true →
      out.receiver.sequence = (r.checkPacketSequence call.trackerId call.sequence).1.sequence →
      out.hid = [] → PacketEffect r out
  | forwarded (call : SequenceCall) (rssi : BitVec 8) (pkts : List (List (BitVec 8))) (q : Receiver) :
      out.call = some call →
      (r.checkPacketSequence call.trackerId call.sequence).2.dropped = false →
      q.sequence = (r.checkPacketSequence call.trackerId call.sequence).1.sequence →
      (out.receiver, out.hid) = forwardPackets call.trackerId rssi pkts q →
      (∀ pkt ∈ pkts, OwnPacket call.trackerId pkt) → PacketEffect r out

theorem sequence_observe (onOwnPipe : Bool) (id : ℕ) (evidence : ShadowEvidence) (r : Receiver) :
    (r.observe onOwnPipe id evidence).sequence = r.sequence := by
  unfold Receiver.observe
  split <;> rfl

theorem sequence_noteRestart (id : ℕ) (result : SequenceResult) (r : Receiver) :
    (r.noteRestart id result).sequence = r.sequence := by
  unfold Receiver.noteRestart
  split <;> rfl

/-- A rebuilt record is a packet of its tracker. -/
theorem ownPacket_standardPacket (subType tracker : BitVec 8) (body : List (BitVec 8)) :
    OwnPacket tracker.toNat (standardPacket subType tracker body) := by
  have hlen : 16 ≤ (standardPacket subType tracker body).length := by
    rw [standardPacket, List.rightpad]
    simp
    omega
  have hfront : standardPacket subType tracker body =
      subType :: tracker :: (standardPacket subType tracker body).drop 2 := rfl
  generalize (standardPacket subType tracker body).drop 2 = rest at hfront
  rw [hfront] at hlen ⊢
  obtain - | ⟨a, - | ⟨b, rest⟩⟩ := rest
  case cons.cons => exact ⟨_, _, a, b, rest, rfl, rfl⟩
  all_goals exact absurd hlen (by simp)

/-- Whatever the bytes, the forwarding loop forwards packets of the tracker. -/
theorem forwardRecords_packets {tracker : BitVec 8} {payload : RxPayload} {remaining pos : ℕ}
    {r : Receiver} {q : Receiver × List HidPacket}
    (h : forwardRecords tracker payload remaining pos r = some q) :
    ∃ pkts, q = forwardPackets tracker.toNat payload.rssi pkts r ∧
      ∀ pkt ∈ pkts, OwnPacket tracker.toNat pkt := by
  induction remaining generalizing pos r q with
  | zero =>
    obtain rfl := Option.some.inj h
    exact ⟨[], rfl, nofun⟩
  | succ remaining ih =>
    have hstop : some (r, []) = some q → ∃ pkts,
        q = forwardPackets tracker.toNat payload.rssi pkts r ∧
          ∀ pkt ∈ pkts, OwnPacket tracker.toNat pkt := by
      intro hq
      obtain rfl := Option.some.inj hq
      exact ⟨[], rfl, nofun⟩
    rw [forwardRecords] at h
    split at h
    case isTrue => exact hstop h
    case isFalse =>
      obtain ⟨subType, -, h⟩ := Option.bind_eq_some_iff.mp h
      split at h
      case h_1 => exact hstop h
      case h_2 =>
        split at h
        case isTrue => exact hstop h
        case isFalse =>
          obtain ⟨body, -, h⟩ := Option.bind_eq_some_iff.mp h
          obtain ⟨rest, hrest, rfl⟩ := Option.map_eq_some_iff.mp h
          obtain ⟨pkts, rfl, hown⟩ := ih hrest
          refine ⟨standardPacket subType tracker body :: pkts, rfl, ?_⟩
          rintro pkt (_ | ⟨_, hpkt⟩)
          · exact ownPacket_standardPacket subType tracker body
          · exact hown pkt hpkt

/-- The composite path. -/
theorem receiveComposite_effect {payload : RxPayload} {r : Receiver} {out : Received}
    (h : receiveComposite payload r = some out) : PacketEffect r out := by
  have hnothing : some (Received.nothing r) = some out → PacketEffect r out := by
    intro hout
    obtain rfl := Option.some.inj hout
    exact .quiet rfl rfl rfl
  unfold receiveComposite at h
  split at h
  case isTrue => exact hnothing h
  case isFalse =>
    obtain ⟨type, -, h⟩ := Option.bind_eq_some_iff.mp h
    split at h
    case isTrue => exact hnothing h
    case isFalse =>
      obtain ⟨tracker, -, h⟩ := Option.bind_eq_some_iff.mp h
      obtain ⟨subCount, -, h⟩ := Option.bind_eq_some_iff.mp h
      split at h
      case isTrue => exact hnothing h
      case isFalse =>
        obtain ⟨validated, -, h⟩ := Option.bind_eq_some_iff.mp h
        split at h
        case h_1 => exact hnothing h
        case h_2 =>
          split at h
          case isTrue =>
            obtain rfl := Option.some.inj h
            exact .quiet rfl rfl rfl
          case isFalse =>
            obtain ⟨seq, -, h⟩ := Option.bind_eq_some_iff.mp h
            simp only [] at h
            split at h
            case isTrue hdropped =>
              obtain rfl := Option.some.inj h
              exact .dropped ⟨tracker.toNat, seq⟩ rfl hdropped (sequence_observe ..) rfl
            case isFalse haccepted =>
              obtain ⟨q, hq, rfl⟩ := Option.map_eq_some_iff.mp h
              obtain ⟨pkts, hpkts, hown⟩ := forwardRecords_packets hq
              refine .forwarded ⟨tracker.toNat, seq⟩ payload.rssi pkts _ rfl
                (by simpa using haccepted) ?_ hpkts hown
              rw [sequence_noteRestart, sequence_observe]

/-- The forwarded bytes of a plain packet are a packet of its tracker. -/
theorem ownPacket_readBytes {data pkt : List (BitVec 8)} {tracker : BitVec 8}
    (htracker : data[1]? = some tracker) (hpkt : readBytes data 0 16 = some pkt) :
    OwnPacket tracker.toNat pkt := by
  have hlen : 16 ≤ data.length := by
    by_contra hshort
    rw [readBytes, if_neg (by omega)] at hpkt
    cases hpkt
  rw [readBytes_of_le (by omega)] at hpkt
  obtain rfl := Option.some.inj hpkt
  match data, hlen with
  | type :: byte :: a :: b :: rest, _ =>
    obtain rfl : byte = tracker := Option.some.inj htracker
    exact ⟨type, byte, a, b, _, rfl, rfl⟩

/-- The plain path. -/
theorem receivePlain_effect {payload : RxPayload} {r : Receiver} {out : Received}
    (h : receivePlain payload r = some out) : PacketEffect r out := by
  have hnothing : some (Received.nothing r) = some out → PacketEffect r out := by
    intro hout
    obtain rfl := Option.some.inj hout
    exact .quiet rfl rfl rfl
  obtain ⟨type, htype, h⟩ := Option.bind_eq_some_iff.mp h
  split at h
  case isTrue => exact hnothing h
  case isFalse =>
    obtain ⟨tracker, htracker, h⟩ := Option.bind_eq_some_iff.mp h
    split at h
    case isTrue => exact hnothing h
    case isFalse =>
      obtain ⟨seq, hseq, h⟩ := Option.bind_eq_some_iff.mp h
      simp only [] at h
      split at h
      case isTrue hdropped =>
        obtain rfl := Option.some.inj h
        exact .dropped ⟨tracker.toNat, seq⟩ rfl hdropped (sequence_observe ..) rfl
      case isFalse haccepted =>
        obtain ⟨pkt, hpkt, rfl⟩ := Option.map_eq_some_iff.mp h
        refine .forwarded ⟨tracker.toNat, seq⟩ payload.rssi [pkt] _ rfl
          (by simpa using haccepted) ?_ rfl ?_
        · rw [sequence_noteRestart, sequence_observe]
        · rintro pkt' (_ | ⟨_, hnil⟩)
          · exact ownPacket_readBytes htracker hpkt
          · cases hnil

/-- **Every packet**, whichever path it takes. -/
theorem receivePacket_effect {payload : RxPayload} {r : Receiver} {out : Received}
    (h : receivePacket payload r = some out) : PacketEffect r out := by
  unfold receivePacket at h
  simp only [] at h
  split at h
  case isTrue =>
    obtain rfl := Option.some.inj h
    exact .quiet rfl rfl rfl
  case isFalse =>
    obtain ⟨type, -, h⟩ := Option.bind_eq_some_iff.mp h
    split at h
    case isTrue =>
      unfold receiveEvent at h
      split at h
      · obtain rfl := Option.some.inj h
        exact .quiet rfl rfl rfl
      · obtain ⟨tracker, -, rfl⟩ := Option.map_eq_some_iff.mp h
        split <;> exact .quiet rfl rfl rfl
    case isFalse =>
      split at h
      case isTrue => exact receiveComposite_effect h
      case isFalse =>
        split at h
        case isTrue => exact receivePlain_effect h
        case isFalse =>
          obtain rfl := Option.some.inj h
          exact .quiet rfl rfl rfl

/-! ## Histories -/

/-- What happens to the slots of the receiver. -/
inductive StatusOp
  /-- A packet is received. -/
  | receive (payload : RxPayload)
  /-- A PING shows a restart of a tracker. -/
  | pingRestart (trackerId : ℕ)
  | discontinuity
  | resetAllStats
  /-- `tracker_slot_reset`. -/
  | resetSlot (trackerId : ℕ)
  /-- Whatever leaves the slots alone. -/
  | elsewhere (r : Receiver)

inductive StatusEvent
  /-- A packet of the tracker is accepted; so many are estimated as lost before it. -/
  | accepted (trackerId lost : ℕ)
  /-- A status packet is forwarded with these bytes 4 and 5. -/
  | reported (trackerId : ℕ) (received lost : BitVec 8)
  /-- The statistics of the tracker start over. -/
  | cleared (trackerId : ℕ)
  deriving DecidableEq

/-- What a packet handed to `hid_write_packet_n` reports. -/
def HidPacket.report (pkt : HidPacket) : Option StatusEvent :=
  match pkt.bytes with
  | type :: tracker :: _ :: _ :: received :: lost :: _ =>
    if type = 3 then some (.reported tracker.toNat received lost) else none
  | _ => none

/-- What a call of `check_packet_sequence` reports. -/
def SequenceCall.events (call : SequenceCall) (r : Receiver) : List StatusEvent :=
  if (r.checkPacketSequence call.trackerId call.sequence).2.dropped then []
  else [.accepted call.trackerId (r.estimatedLost call.trackerId call.sequence)]

/-- What a received packet reports. -/
def Received.statusEvents (out : Received) (r : Receiver) : List StatusEvent :=
  out.call.elim [] (·.events r) ++ out.hid.filterMap (·.report)

/-- One step on the slots. -/
def statusStep (r : Receiver) : StatusOp → Option (Receiver × List StatusEvent)
  | .receive payload => (receivePacket payload r).map fun out => (out.receiver, out.statusEvents r)
  | .pingRestart trackerId => some (r.reanchorSequence trackerId, [])
  | .discontinuity => some (r.esbRxDiscontinuity, [])
  | .resetAllStats => some (r.resetAllStats, (List.range maxTrackers).map .cleared)
  | .resetSlot trackerId => some (r.resetSlot trackerId, [.cleared trackerId])
  | .elsewhere r' => some ({ r' with sequence := r.sequence }, [])

/-- The slots from reset on. -/
def statusSystem : EventSystem Receiver StatusOp StatusEvent where
  init := .init
  step := statusStep

/-- How an event changes the packets received and lost since the last status packet. -/
def StatusEvent.follow (id : ℕ) (since : ℕ × ℕ) : StatusEvent → ℕ × ℕ
  | accepted trackerId lost => if trackerId = id then (since.1 + 1, since.2 + lost) else since
  | reported trackerId _ _ => if trackerId = id then (0, 0) else since
  | cleared trackerId => if trackerId = id then (0, 0) else since

/-- The packets of tracker `id` received and lost since its last status packet. -/
def sinceStatus (id : ℕ) (trace : List StatusEvent) : ℕ × ℕ := trace.foldl (StatusEvent.follow id) (0, 0)

/-- A status packet says what its two bytes keep of the interval behind it. -/
def Reports (earlier : List StatusEvent) : StatusEvent → Prop
  | .reported id received lost => received = BitVec.ofNat 8 (sinceStatus id earlier).1 ∧
      lost = BitVec.ofNat 8 (sinceStatus id earlier).2
  | .accepted .. | .cleared _ => True

/-- The slots agree with the history, and every report in it with what came before. -/
structure StatusInvariant (trace : List StatusEvent) (sequence : ℕ → SequenceSlot) : Prop where
  received : ∀ id, (sequence id).stats.statusReceived = BitVec.ofNat 16 (sinceStatus id trace).1
  lost : ∀ id, (sequence id).stats.statusLost = BitVec.ofNat 16 (sinceStatus id trace).2
  reports : EachAfter Reports trace

/-! ## Every step keeps the agreement -/

theorem sinceStatus_concat (id : ℕ) (trace : List StatusEvent) (e : StatusEvent) :
    sinceStatus id (trace ++ [e]) = e.follow id (sinceStatus id trace) := by
  rw [sinceStatus, List.foldl_append]
  rfl

/-- Trackers whose statistics start over. -/
theorem sinceStatus_cleared (id : ℕ) (trace : List StatusEvent) (ids : List ℕ) :
    sinceStatus id (trace ++ ids.map StatusEvent.cleared) = if id ∈ ids then (0, 0) else sinceStatus id trace := by
  induction ids generalizing trace with
  | nil => simp
  | cons j ids ih =>
    have hcons : trace ++ (j :: ids).map StatusEvent.cleared =
        (trace ++ [StatusEvent.cleared j]) ++ ids.map StatusEvent.cleared := by
      simp
    rw [hcons, ih, sinceStatus_concat, StatusEvent.follow]
    by_cases hj : id = j
    · simp [hj]
    · simp [hj, Ne.symm hj]

theorem received_of_accepted {result : SequenceResult} (h : result.dropped = false) :
    result.received = 1 := by
  cases result with
  | normal | gap | restart => rfl
  | outOfOrder | duplicate => cases h

theorem received_of_dropped {result : SequenceResult} (h : result.dropped = true) :
    result.received = 0 ∧ result ≠ .gap := by
  cases result with
  | normal | gap | restart => cases h
  | outOfOrder | duplicate => exact ⟨rfl, nofun⟩

/-- A call leaves the slots of other trackers alone. -/
theorem sequence_checkPacketSequence_of_ne {id j : ℕ} (hj : j ≠ id) (seq : BitVec 8) (r : Receiver) :
    (r.checkPacketSequence id seq).1.sequence j = r.sequence j := by
  have houtcome := checkPacketSequence_classification id seq r
  generalize r.checkPacketSequence id seq = outcome at houtcome ⊢
  cases houtcome with
  | accepted slot gaps =>
    unfold Receiver.decisionAccept
    split
    · exact Function.update_of_ne hj ..
    · exact (Function.update_of_ne hj ..).trans (Function.update_of_ne hj ..)
  | restarted | dropped => exact Function.update_of_ne hj ..

namespace StatusInvariant

variable {trace : List StatusEvent} {sequence sequence' : ℕ → SequenceSlot}

theorem quiet (h : StatusInvariant trace sequence)
    (hreceived : ∀ id, (sequence' id).stats.statusReceived = (sequence id).stats.statusReceived)
    (hlost : ∀ id, (sequence' id).stats.statusLost = (sequence id).stats.statusLost) :
    StatusInvariant trace sequence' where
  received id := (hreceived id).trans (h.received id)
  lost id := (hlost id).trans (h.lost id)
  reports := h.reports

/-- An accepted packet. -/
theorem accept {id lost : ℕ} (h : StatusInvariant trace sequence)
    (hslot : (sequence id).stats.Counts (sequence' id).stats 1 lost)
    (hother : ∀ j, j ≠ id → sequence' j = sequence j) :
    StatusInvariant (trace ++ [StatusEvent.accepted id lost]) sequence' where
  received j := by
    rw [sinceStatus_concat, StatusEvent.follow]
    by_cases hj : id = j
    · subst hj
      rw [if_pos rfl, hslot.statusReceived, h.received, BitVec.ofNat_add]
    · rw [if_neg hj, hother j (Ne.symm hj), h.received]
  lost j := by
    rw [sinceStatus_concat, StatusEvent.follow]
    by_cases hj : id = j
    · subst hj
      rw [if_pos rfl, hslot.statusLost, h.lost, BitVec.ofNat_add]
    · rw [if_neg hj, hother j (Ne.symm hj), h.lost]
  reports := eachAfter_snoc.mpr ⟨h.reports, trivial⟩

/-- The counters of a tracker start over, with an event that says so. -/
theorem restart {id : ℕ} {e : StatusEvent} (h : StatusInvariant trace sequence)
    (hevent : ∀ j since, e.follow j since = if id = j then (0, 0) else since)
    (hreport : Reports trace e)
    (hslot : (sequence' id).stats.statusReceived = 0 ∧ (sequence' id).stats.statusLost = 0)
    (hother : ∀ j, j ≠ id → sequence' j = sequence j) :
    StatusInvariant (trace ++ [e]) sequence' where
  received j := by
    rw [sinceStatus_concat, hevent]
    by_cases hj : id = j
    · subst hj
      rw [if_pos rfl, hslot.1]
      rfl
    · rw [if_neg hj, hother j (Ne.symm hj), h.received]
  lost j := by
    rw [sinceStatus_concat, hevent]
    by_cases hj : id = j
    · subst hj
      rw [if_pos rfl, hslot.2]
      rfl
    · rw [if_neg hj, hother j (Ne.symm hj), h.lost]
  reports := eachAfter_snoc.mpr ⟨h.reports, hreport⟩

/-- A call of `check_packet_sequence`. -/
theorem call {r : Receiver} (h : StatusInvariant trace r.sequence) (call : SequenceCall) :
    StatusInvariant (trace ++ call.events r)
      (r.checkPacketSequence call.trackerId call.sequence).1.sequence := by
  have heffect := checkPacketSequence_effect call.trackerId call.sequence r
  have hother := fun j (hj : j ≠ call.trackerId) =>
    sequence_checkPacketSequence_of_ne hj call.sequence r
  unfold SequenceCall.events
  cases hdropped : (r.checkPacketSequence call.trackerId call.sequence).2.dropped with
  | false =>
    have hcounts := heffect.counts
    rw [received_of_accepted hdropped] at hcounts
    exact h.accept hcounts hother
  | true =>
    obtain ⟨hreceived, hgap⟩ := received_of_dropped hdropped
    have hcounts := heffect.counts
    rw [hreceived, estimatedLost, if_neg hgap] at hcounts
    rw [if_pos rfl, List.append_nil]
    refine h.quiet (fun j => ?_) fun j => ?_
    · by_cases hj : j = call.trackerId
      · rw [hj, hcounts.statusReceived]
        exact BitVec.add_zero _
      · rw [hother j hj]
    · by_cases hj : j = call.trackerId
      · rw [hj, hcounts.statusLost]
        exact BitVec.add_zero _
      · rw [hother j hj]

/-- A packet on its way to the host. -/
theorem fill {id : ℕ} (rssi : BitVec 8) {pkt : List (BitVec 8)} {r : Receiver}
    (h : StatusInvariant trace r.sequence) (hown : OwnPacket id pkt) :
    StatusInvariant (trace ++ (HidPacket.report ⟨(r.fillStatus id pkt).2, rssi⟩).toList)
      (r.fillStatus id pkt).1.sequence := by
  obtain ⟨type, tracker, a, b, rest, rfl, rfl⟩ := hown
  by_cases hstatus : type = 3
  · subst hstatus
    have hreset : (r.forwardStatus tracker.toNat).sequence tracker.toNat =
        { r.sequence tracker.toNat with stats := { (r.sequence tracker.toNat).stats with
          statusReceived := 0
          statusLost := 0 } } := sequence_withSequence ..
    -- The bytes are the counters, which then start over.
    refine h.restart (fun j since => rfl) ⟨?_, ?_⟩ ?_ fun j hj => Function.update_of_ne hj ..
    · rw [h.received]
      exact BitVec.setWidth_ofNat_of_le (by decide) _
    · rw [h.lost]
      exact BitVec.setWidth_ofNat_of_le (by decide) _
    · rw [show (r.fillStatus tracker.toNat (3 :: tracker :: a :: b :: rest)).1 =
        r.forwardStatus tracker.toNat from rfl, hreset]
      exact ⟨rfl, rfl⟩
  · have hfill : r.fillStatus tracker.toNat (type :: tracker :: a :: b :: rest) =
        (r, type :: tracker :: a :: b :: rest) :=
      if_neg fun hhead => hstatus (Option.some.inj hhead)
    have hreport : HidPacket.report ⟨type :: tracker :: a :: b :: rest, rssi⟩ = none := by
      unfold HidPacket.report
      split
      case h_1 heq =>
        obtain ⟨rfl, -⟩ := List.cons.inj heq
        exact if_neg hstatus
      case h_2 => rfl
    rw [hfill, hreport, Option.toList_none, List.append_nil]
    exact h

/-- Packets on their way to the host. -/
theorem forward {id : ℕ} {rssi : BitVec 8} {pkts : List (List (BitVec 8))} {r : Receiver}
    (h : StatusInvariant trace r.sequence) (hown : ∀ pkt ∈ pkts, OwnPacket id pkt) :
    StatusInvariant (trace ++ (forwardPackets id rssi pkts r).2.filterMap (·.report))
      (forwardPackets id rssi pkts r).1.sequence := by
  induction pkts generalizing trace r with
  | nil => simpa [forwardPackets] using h
  | cons pkt pkts ih =>
    have hfirst := h.fill rssi (hown pkt List.mem_cons_self)
    have hrest := ih hfirst fun pkt' hpkt' => hown pkt' (List.mem_cons_of_mem _ hpkt')
    rw [forwardPackets]
    simp only []
    cases hreport : HidPacket.report ⟨(r.fillStatus id pkt).2, rssi⟩ with
    | none =>
      rw [hreport, Option.toList_none, List.append_nil] at hrest
      rwa [List.filterMap_cons_none hreport]
    | some e =>
      rw [hreport, Option.toList_some, List.append_assoc] at hrest
      rwa [List.filterMap_cons_some hreport]

/-- The statistics of a list of trackers start over. -/
theorem clearAll {ids : List ℕ} (h : StatusInvariant trace sequence)
    (hslot : ∀ j, j ∈ ids →
      (sequence' j).stats.statusReceived = 0 ∧ (sequence' j).stats.statusLost = 0)
    (hother : ∀ j, j ∉ ids → (sequence' j).stats = (sequence j).stats) :
    StatusInvariant (trace ++ ids.map StatusEvent.cleared) sequence' where
  received j := by
    rw [sinceStatus_cleared]
    by_cases hj : j ∈ ids
    · rw [if_pos hj, (hslot j hj).1]
      rfl
    · rw [if_neg hj, hother j hj, h.received]
  lost j := by
    rw [sinceStatus_cleared]
    by_cases hj : j ∈ ids
    · rw [if_pos hj, (hslot j hj).2]
      rfl
    · rw [if_neg hj, hother j hj, h.lost]
  reports := by
    refine h.reports.append fun earlier e he => ?_
    obtain ⟨j, -, rfl⟩ := List.mem_map.mp he
    trivial

/-- A received packet. -/
theorem receive {payload : RxPayload} {r : Receiver} {out : Received}
    (h : StatusInvariant trace r.sequence) (hout : receivePacket payload r = some out) :
    StatusInvariant (trace ++ out.statusEvents r) out.receiver.sequence := by
  unfold Received.statusEvents
  cases receivePacket_effect hout with
  | quiet hreceiver hcall hhid => simpa [hreceiver, hcall, hhid] using h
  | dropped call hcall hdropped hsequence hhid =>
    rw [hcall, hhid, hsequence, List.filterMap_nil, List.append_nil]
    exact h.call call
  | forwarded call rssi pkts q hcall haccepted hsequence hforward hown =>
    obtain ⟨hreceiver, hhid⟩ := Prod.mk.inj hforward
    have hcalled := h.call call
    rw [← hsequence] at hcalled
    rw [hcall, hreceiver, hhid, ← List.append_assoc]
    exact hcalled.forward hown

end StatusInvariant

/-- A re-anchored sequence leaves the statistics alone but for the restarts. -/
theorem reanchorSequence_frame {β : Type*} {trackerId : ℕ} {r : Receiver} (get : PacketStats → β)
    (hget : ∀ stats n, get { stats with restartEvents := n } = get stats) (id : ℕ) :
    get ((r.reanchorSequence trackerId).sequence id).stats = get (r.sequence id).stats := by
  rw [reanchorSequence, sequence_fenceTracker]
  by_cases hid : id = trackerId
  · subst hid
    rw [sequence_withSequence]
    exact hget _ _
  · exact congrArg (fun slot : SequenceSlot => get slot.stats) (Function.update_of_ne hid ..)

/-- **Every run keeps the agreement.** -/
theorem statusSystem_invariant {trace : List StatusEvent} {s : Receiver}
    (h : statusSystem.Run trace s) : StatusInvariant trace s.sequence := by
  refine h.history_invariant (P := fun trace s => StatusInvariant trace s.sequence) ?_ ?_
  · exact ⟨fun _ => rfl, fun _ => rfl, eachAfter_nil⟩
  · intro trace s op s' es hs _ htaken
    cases op with
    | receive payload =>
      obtain ⟨out, hout, heq⟩ := Option.map_eq_some_iff.mp htaken
      obtain ⟨rfl, rfl⟩ := Prod.mk.inj heq
      exact hs.receive hout
    | pingRestart trackerId =>
      obtain ⟨rfl, rfl⟩ := Prod.mk.inj (Option.some.inj htaken)
      rw [List.append_nil]
      exact hs.quiet (reanchorSequence_frame (·.statusReceived) fun _ _ => rfl)
        (reanchorSequence_frame (·.statusLost) fun _ _ => rfl)
    | discontinuity =>
      obtain ⟨rfl, rfl⟩ := Prod.mk.inj (Option.some.inj htaken)
      rw [List.append_nil]
      exact hs.quiet (discontinuity_frame (·.stats.statusReceived) (fun _ => rfl) s)
        (discontinuity_frame (·.stats.statusLost) (fun _ => rfl) s)
    | resetAllStats =>
      obtain ⟨rfl, rfl⟩ := Prod.mk.inj (Option.some.inj htaken)
      refine hs.clearAll (fun j hj => ?_) fun j hj => ?_
      · have hzero : (s.resetAllStats.sequence j).stats = .zero :=
          congrArg SequenceSlot.stats (eachBelow_of_lt (List.mem_range.mp hj) _ _)
        rw [hzero]
        exact ⟨rfl, rfl⟩
      · have hsame : s.resetAllStats.sequence j = s.sequence j :=
          eachBelow_of_le (not_lt.mp fun hlt => hj (List.mem_range.mpr hlt))
            (fun _ (slot : SequenceSlot) => { slot with stats := .zero }) s.sequence
        rw [hsame]
    | resetSlot trackerId =>
      obtain ⟨rfl, rfl⟩ := Prod.mk.inj (Option.some.inj htaken)
      have hzero : (s.resetSlot trackerId).sequence trackerId = .zero := Function.update_self ..
      refine hs.restart (fun j since => rfl) trivial ?_ fun j hj => Function.update_of_ne hj ..
      rw [hzero]
      exact ⟨rfl, rfl⟩
    | elsewhere r' =>
      obtain ⟨rfl, rfl⟩ := Prod.mk.inj (Option.some.inj htaken)
      rw [List.append_nil]
      exact hs

/-! ## What a status packet says -/

/-- The fields are right when they hold the numbers, saturated at 255. -/
def Faithful (since : ℕ × ℕ) (received lost : BitVec 8) : Prop :=
  received.toNat = min since.1 255 ∧ lost.toNat = min since.2 255

/-- A byte keeps a number up to saturation: it fits, or what is left of it is 255. -/
def KeptByByte (n : ℕ) : Prop := n ≤ 255 ∨ n % 256 = 255

theorem toNat_ofNat_eq_min_iff (n : ℕ) : (BitVec.ofNat 8 n).toNat = min n 255 ↔ KeptByByte n := by
  rw [BitVec.toNat_ofNat, KeptByByte]
  omega

/-- **What a status packet says about the interval behind it.** In every history, whichever path a
forwarded status packet takes, its two bytes are the packets received and estimated as lost since
the status packet of the tracker before it, modulo 256. They are those numbers saturated at 255
exactly when either number fits a byte or leaves 255. -/
theorem status_report {trace : List StatusEvent} {s : Receiver} (h : statusSystem.Run trace s)
    (earlier later : List StatusEvent) (id : ℕ) (received lost : BitVec 8)
    (htrace : trace = earlier ++ .reported id received lost :: later) :
    (received = BitVec.ofNat 8 (sinceStatus id earlier).1 ∧
      lost = BitVec.ofNat 8 (sinceStatus id earlier).2) ∧
    (Faithful (sinceStatus id earlier) received lost ↔
      KeptByByte (sinceStatus id earlier).1 ∧ KeptByByte (sinceStatus id earlier).2) := by
  have hreports : Reports earlier (.reported id received lost) :=
    (statusSystem_invariant h).reports earlier _ later htrace
  refine ⟨hreports, ?_⟩
  rw [Faithful, hreports.1, hreports.2, toNat_ofNat_eq_min_iff, toNat_ofNat_eq_min_iff]

/-- A plain packet of tracker 0. -/
def plainPacket (type seq : BitVec 8) : StatusOp :=
  .receive ⟨type :: List.replicate 15 0 ++ [seq], 2, 0⟩

/-- A receiver that stores one tracker. -/
def storingOne : Receiver := { Receiver.init with tdma := { Tdma.init with
  roster := { Tdma.init.roster with
    storedTrackers := 1
    stored_le := one_le_maxTrackers } } }

/-- Five packets with 256 numbers missing between them, the last one a status packet: it reports that
nothing was lost. -/
theorem status_report_truncated : ∃ trace s earlier,
    statusSystem.Run trace s ∧ trace = earlier ++ [.reported 0 5 0] ∧
      sinceStatus 0 earlier = (5, 256) ∧ ¬Faithful (sinceStatus 0 earlier) 5 0 := by
  obtain ⟨trace, s, hrun, htrace⟩ := statusSystem.exists_run_of_replay
    [.elsewhere storingOne, plainPacket 0 0, plainPacket 0 80, plainPacket 0 160, plainPacket 0 240,
      plainPacket 3 4]
    (fun trace _ => trace = [.accepted 0 0, .accepted 0 79, .accepted 0 79, .accepted 0 79,
      .accepted 0 19, .reported 0 5 0]) (by decide +kernel)
  refine ⟨trace, s, [.accepted 0 0, .accepted 0 79, .accepted 0 79, .accepted 0 79, .accepted 0 19],
    hrun, of_decide_eq_true htrace, rfl, ?_⟩
  rintro ⟨-, hlost⟩
  exact absurd hlost (by decide)

/-- Two packets with one number missing between them, the second one a status packet. -/
theorem status_report_gap : ∃ trace s earlier,
    statusSystem.Run trace s ∧ trace = earlier ++ [.reported 0 2 1] ∧
      Faithful (sinceStatus 0 earlier) 2 1 := by
  obtain ⟨trace, s, hrun, htrace⟩ := statusSystem.exists_run_of_replay
    [.elsewhere storingOne, plainPacket 0 0, plainPacket 3 2]
    (fun trace _ => trace = [.accepted 0 0, .accepted 0 1, .reported 0 2 1]) (by decide +kernel)
  refine ⟨trace, s, [.accepted 0 0, .accepted 0 1], hrun, of_decide_eq_true htrace, ?_⟩
  exact (status_report hrun [.accepted 0 0, .accepted 0 1] [] 0 2 1
    (of_decide_eq_true htrace)).2.mpr ⟨.inl (by decide), .inl (by decide)⟩

end SlimeReceiver
