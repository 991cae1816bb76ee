import SlimeReceiver.Events.Protocol
import SlimeReceiver.Receiver.Machine

/-! # Data packets, byte by byte

How `event_handler` takes data packets apart: `esb_receive_composite` and the case for 17-byte
packets. A byte is read with its index checked, so that a result `some` says that every index read
lies below the length of the packet.

* **`RxPayload`**, **`HidPacket`**, **`Received`** — what comes in and what is handed on.
* **`scanRecords`**, **`validateComposite`** — the pass that runs before any side effect.
* **`fillStatus`**, **`forwardRecords`** — the pass that forwards.
* **`receiveComposite`**, **`receivePlain`**, **`receivePacket`** — the packet paths. -/

namespace SlimeReceiver

open Events (compositeBodyLength CompositeScan slice trackerEventEsbType trackerEventEsbLen
  trackerEventBodyLen trackerEventDecodeBody esbCompositeType)

/-- What is used of a received `struct esb_payload`; `length` is the length of `data`. -/
structure RxPayload where
  data : List (BitVec 8)
  pipe : ℕ
  rssi : BitVec 8

/-- A call of `hid_write_packet_n`. -/
structure HidPacket where
  bytes : List (BitVec 8)
  rssi : BitVec 8
  deriving DecidableEq, Repr

/-- A call of `check_packet_sequence`. -/
structure SequenceCall where
  trackerId : ℕ
  sequence : BitVec 8
  deriving DecidableEq, Repr

/-- What receiving a packet does: the receiver afterwards and the calls of `check_packet_sequence`,
`hid_write_packet_n` and `tracker_events_receive`. -/
structure Received where
  receiver : Receiver
  call : Option SequenceCall
  hid : List HidPacket
  events : List (List (BitVec 8))

/-- A packet that is dropped without any effect. -/
def Received.nothing (r : Receiver) : Received := ⟨r, none, [], []⟩

/-- The `len` bytes from `pos` on; `none` is a read at or past the length. -/
def readBytes (data : List (BitVec 8)) (pos len : ℕ) : Option (List (BitVec 8)) :=
  if pos + len ≤ data.length then some (slice data pos len) else none

/-- `payload->pipe == 1 + (tracker_id % 7)`. -/
def RxPayload.onOwnPipe (payload : RxPayload) (trackerId : ℕ) : Bool :=
  payload.pipe == 1 + trackerId % 7

/-! ## Before any side effect -/

/-- The validating loop of `esb_receive_composite` with `remaining` records to go. The inner `none`
is `valid == false`. -/
def scanRecords (tracker : BitVec 8) (data : List (BitVec 8)) (frameEnd : ℕ) :
    ℕ → CompositeScan → Option (Option CompositeScan)
  | 0, s => some (some s)
  | remaining + 1, s =>
    if s.scan ≥ frameEnd then some none
    else data[s.scan]?.bind fun type =>
      match compositeBodyLength type with
      -- An unknown legacy tail stops parsing and preserves the known records before it.
      | none => some (some { s with
          scan := s.scan + 1
          unknownTail := true })
      | some bodyLen =>
        if s.scan + 1 + bodyLen > frameEnd then some none
        else if type = trackerEventEsbType then
          -- A reachable event must be a valid, exact final record.
          if remaining = 0 then
            (readBytes data (s.scan + 1) bodyLen).bind fun body =>
              if (trackerEventDecodeBody tracker body).isSome then
                some (some { s with
                  scan := s.scan + 1 + bodyLen
                  eventPos := s.scan + 1 })
              else some none
          else some none
        else scanRecords tracker data frameEnd remaining { s with scan := s.scan + 1 + bodyLen }

/-- The part of `esb_receive_composite` before the sequence byte is read: the frames passed to
`tracker_events_receive` and the `sub_count` that is left; the inner `none` drops the packet. -/
def validateComposite (tracker subCount : BitVec 8) (data : List (BitVec 8)) :
    Option (Option (List (List (BitVec 8)) × ℕ)) :=
  if subCount = 0 then some none
  else (scanRecords tracker data (data.length - 1) subCount.toNat ⟨3, 0, false⟩).bind fun scanned =>
    match scanned with
    | none => some none
    | some s =>
      if s.unknownTail = false ∧ s.scan ≠ data.length - 1 then some none
      else if s.eventPos ≠ 0 then
        (readBytes data s.eventPos trackerEventBodyLen).map fun body =>
          some ([trackerEventEsbType :: tracker :: body], subCount.toNat - 1)
      else some (some ([], subCount.toNat))

/-! ## Forwarding -/

/-- Bytes 4 to 7 of a forwarded status packet. -/
def PacketStats.statusBytes (stats : PacketStats) : List (BitVec 8) :=
  [stats.statusReceived.setWidth 8, stats.statusLost.setWidth 8, 0, 0]

namespace Receiver

/-- A status packet (type 3) takes the loss statistics along. -/
def fillStatus (trackerId : ℕ) (pkt : List (BitVec 8)) (r : Receiver) :
    Receiver × List (BitVec 8) :=
  if pkt.head? = some 3 then
    (r.forwardStatus trackerId,
      pkt.take 4 ++ (r.sequence trackerId).stats.statusBytes ++ pkt.drop 8)
  else (r, pkt)

/-- A restart seen by the packet path arms the grace of the test-all policy. -/
def noteRestart (trackerId : ℕ) (result : SequenceResult) (r : Receiver) : Receiver :=
  if result = .restart ∧ r.testAll.stateValid then r.armGrace trackerId r.tdma.uptime else r

end Receiver

/-- A record rebuilt as a standard 16-byte packet. -/
def standardPacket (subType tracker : BitVec 8) (body : List (BitVec 8)) : List (BitVec 8) :=
  (subType :: tracker :: body).rightpad 16 0

/-- The forwarding loop of `esb_receive_composite` with `remaining` records to go. -/
def forwardRecords (tracker : BitVec 8) (payload : RxPayload) :
    ℕ → ℕ → Receiver → Option (Receiver × List HidPacket)
  | 0, _, r => some (r, [])
  | remaining + 1, pos, r =>
    if pos ≥ payload.data.length - 1 then some (r, [])
    else payload.data[pos]?.bind fun subType =>
      match compositeBodyLength subType with
      | none => some (r, [])
      | some subLen =>
        if pos + 1 + subLen > payload.data.length - 1 then some (r, [])
        else (readBytes payload.data (pos + 1) (min subLen 14)).bind fun body =>
          let filled := r.fillStatus tracker.toNat (standardPacket subType tracker body)
          (forwardRecords tracker payload remaining (pos + 1 + subLen) filled.1).map fun rest =>
            (rest.1, ⟨filled.2, payload.rssi⟩ :: rest.2)

/-- A duplicate or an out-of-order packet is not forwarded. -/
def Receiver.SequenceResult.dropped (result : Receiver.SequenceResult) : Bool :=
  result = .duplicate ∨ result = .outOfOrder

/-- The pose part of `esb_receive_composite`, with `subCount` records to forward. -/
def receiveRecords (tracker : BitVec 8) (subCount : ℕ) (events : List (List (BitVec 8)))
    (payload : RxPayload) (r : Receiver) : Option Received :=
  payload.data[payload.data.length - 1]?.bind fun receivedSequence =>
    let call : SequenceCall := ⟨tracker.toNat, receivedSequence⟩
    let checked := r.checkPacketSequence tracker.toNat receivedSequence
    let observed := checked.1.observe (payload.onOwnPipe tracker.toNat) tracker.toNat .data
    if checked.2.dropped then some ⟨observed, call, [], events⟩
    else
      (forwardRecords tracker payload subCount 3
        (observed.noteRestart tracker.toNat checked.2)).map fun q => ⟨q.1, call, q.2, events⟩

/-- The tracker is stored. -/
def Receiver.stores (trackerId : ℕ) (r : Receiver) : Bool :=
  decide (trackerId < r.tdma.roster.storedTrackers ∧ trackerId < maxTrackers)

/-- `esb_receive_composite`. -/
def receiveComposite (payload : RxPayload) (r : Receiver) : Option Received :=
  if payload.data.length < 5 then some (.nothing r)
  else payload.data[0]?.bind fun type =>
    if type ≠ esbCompositeType then some (.nothing r)
    else payload.data[1]?.bind fun tracker => payload.data[2]?.bind fun subCount =>
      if !r.stores tracker.toNat then some (.nothing r)
      else (validateComposite tracker subCount payload.data).bind fun validated =>
        match validated with
        | none => some (.nothing r)
        | some (events, subCount) =>
          -- Event retries have their own sequence and are not pose evidence.
          if events ≠ [] ∧ subCount = 0 then some ⟨r, none, [], events⟩
          else receiveRecords tracker subCount events payload r

/-- The case of `event_handler` for packets of 17 bytes. -/
def receivePlain (payload : RxPayload) (r : Receiver) : Option Received :=
  payload.data[0]?.bind fun type =>
    if type > 223 then some (.nothing r)
    else payload.data[1]?.bind fun tracker =>
      if !r.stores tracker.toNat then some (.nothing r)
      else payload.data[16]?.bind fun receivedSequence =>
        let call : SequenceCall := ⟨tracker.toNat, receivedSequence⟩
        let checked := r.checkPacketSequence tracker.toNat receivedSequence
        let observed := checked.1.observe (payload.onOwnPipe tracker.toNat) tracker.toNat .data
        if checked.2.dropped then some ⟨observed, call, [], []⟩
        else (readBytes payload.data 0 16).map fun pkt =>
          let filled := (observed.noteRestart tracker.toNat checked.2).fillStatus tracker.toNat pkt
          ⟨filled.1, call, [⟨filled.2, payload.rssi⟩], []⟩

/-- The case of `event_handler` for private events, which never enter the pose sequence. -/
def receiveEvent (payload : RxPayload) (r : Receiver) : Option Received :=
  if payload.data.length ≠ trackerEventEsbLen then some (.nothing r)
  else payload.data[1]?.map fun tracker =>
    if r.stores tracker.toNat then ⟨r, none, [], [payload.data]⟩ else .nothing r

/-- The dispatch of `event_handler` to the data paths. Discovery has a checksum byte, not a packet
type; the other packets carry no data. -/
def receivePacket (payload : RxPayload) (r : Receiver) : Option Received :=
  let discovery := payload.pipe = 0 ∧ payload.data.length = 8
  if payload.data.length = 0 then some (.nothing r)
  else payload.data[0]?.bind fun type =>
    if ¬discovery ∧ type = trackerEventEsbType then receiveEvent payload r
    else if ¬discovery ∧ type = esbCompositeType then receiveComposite payload r
    else if payload.data.length = 17 then receivePlain payload r
    else some (.nothing r)

end SlimeReceiver
