import Mathlib.Data.BitVec
import Mathlib.Tactic.Common

/-! # The tracker event protocol

`connection/tracker_event_protocol.h`: the event a tracker reports, which combinations of its fields
are valid, and the frames it travels in. A byte string is a list of bytes, and a fallible decoder
returns `none` where the source returns `false`.

* **`TrackerEvent`**, **`trackerEventValid`** — the event and its validity.
* **`trackerEventEncode`**, **`trackerEventDecode`** — the 17-byte ESB frame.
* **`trackerEventDecodeBody`** — the 15 bytes of it that a composite packet carries.
* **`trackerEventEncodeHid`** — the 16-byte record for the host.
* **`compositeEventPacket`** — the frame `esb_receive_composite` takes out of a composite packet. -/

namespace SlimeReceiver.Events

/-! ## Constants -/

def trackerEventEsbType : BitVec 8 := 0xE0
def trackerEventVersion : BitVec 8 := 1
def trackerEventMagic0 : BitVec 8 := 0x43
def trackerEventMagic1 : BitVec 8 := 0x45

/-- `TRACKER_EVENT_MAX_TRACKERS`. -/
def maxEventTrackers : ℕ := 16

/-- `TRACKER_EVENT_KIND_MASK`: a kind without `CAL_EVENT_ORIGIN_AUTO`. -/
def trackerEventKindMask : BitVec 8 := 0x7F

/-- `RCV_HID_OP_TRACKER_EVENT`. -/
def hidOpTrackerEvent : BitVec 8 := 225

/-- `RCV_HID_OP_TRACKER_OBSERVATION`. -/
def hidOpTrackerObservation : BitVec 8 := 226

/-! Values of `event`. -/

def calEventAccepted : BitVec 8 := 1
def calEventBegin : BitVec 8 := 2
def calEventStep : BitVec 8 := 3
def calEventEnd : BitVec 8 := 4
def calEventRejected : BitVec 8 := 5
def calEventState : BitVec 8 := 6
def calEventNotice : BitVec 8 := 7

/-! Values of `outcome`. -/

def calOutcomeNone : BitVec 8 := 0
def calOutcomeSuccess : BitVec 8 := 1
def calOutcomeFailed : BitVec 8 := 2
def calOutcomeCancelled : BitVec 8 := 3
def calOutcomeSkipped : BitVec 8 := 4
def calOutcomeUnknown : BitVec 8 := 5

/-! Values of `kind` other than calibrations. -/

def kindTrackerRest : BitVec 8 := 0x20
def kindFusionRest : BitVec 8 := 0x21
def kindPower : BitVec 8 := 0x30
def kindButton : BitVec 8 := 0x31

/-! Values of `phase` and `detail` that code other than the validity test uses. -/

def calPhaseStorage : BitVec 8 := 18
def trackerRestUnknown : BitVec 8 := 2
def fusionRestUnknown : BitVec 8 := 2
def powerWillWom : BitVec 8 := 1
def powerWillShutdown : BitVec 8 := 2
def powerBoot : BitVec 8 := 3
def powerWake : BitVec 8 := 4
def powerWillReboot : BitVec 8 := 5
def powerWomCancelled : BitVec 8 := 6
def powerWatchdogReset : BitVec 8 := 7
def powerReasonUnknown : BitVec 8 := 0
def powerWomForced : BitVec 8 := 2
def calReasonPowerDown : BitVec 8 := 16
def calReasonReset : BitVec 8 := 17
def calReasonTransportSilence : BitVec 8 := 30
def calReasonSessionChanged : BitVec 8 := 31

/-! ## Events -/

/-- `struct tracker_event`. -/
structure TrackerEvent where
  nonce : BitVec 32
  eventSeq : BitVec 16
  operationId : BitVec 16
  trackerId : BitVec 8
  kind : BitVec 8
  event : BitVec 8
  outcome : BitVec 8
  phase : BitVec 8
  detail : BitVec 8
  deriving DecidableEq, Repr

/-- `tracker_event_is_calibration`. -/
def trackerEventIsCalibration (kind : BitVec 8) : Bool :=
  decide (1 ≤ kind &&& trackerEventKindMask ∧ kind &&& trackerEventKindMask ≤ 7)

/-- `tracker_event_kind_filter`. -/
def trackerEventKindFilter (kind : BitVec 8) : BitVec 8 :=
  if trackerEventIsCalibration kind then 1
  else if kind = kindTrackerRest then 2
  else if kind = kindFusionRest then 4
  else if kind = kindPower then 8
  else if kind = kindButton then 16
  else 0

/-- The calibration part of `tracker_event_valid`. -/
def calibrationValid (e : TrackerEvent) : Bool :=
  if e.operationId = 0 then false
  else if e.event = calEventAccepted ∨ e.event = calEventBegin ∨ e.event = calEventStep then
    e.outcome == calOutcomeNone
  else if e.event = calEventEnd then
    decide (calOutcomeSuccess ≤ e.outcome ∧ e.outcome ≤ calOutcomeSkipped)
  else if e.event = calEventRejected then e.outcome == calOutcomeFailed
  else false

/-- The test of a power notice in `tracker_event_valid`. -/
def powerValid (e : TrackerEvent) : Bool :=
  decide (e.event = calEventNotice ∧
    ((e.phase = powerWillWom ∨ e.phase = powerWomCancelled) ∧ e.detail ≤ powerWomForced ∨
      e.phase ≠ powerWomCancelled ∧ powerWillShutdown ≤ e.phase ∧ e.phase ≤ powerWatchdogReset ∧
        e.detail = powerReasonUnknown))

/-- `tracker_event_valid`. -/
def trackerEventValid (e : TrackerEvent) : Bool :=
  if e.nonce = 0 ∨ e.trackerId ≥ 16 then false
  else if trackerEventIsCalibration e.kind then calibrationValid e
  else if e.operationId ≠ 0 ∨ e.outcome ≠ 0 then false
  else if e.kind = kindTrackerRest then
    decide (e.event = calEventState ∧ e.phase ≤ 2 ∧ e.detail ≤ 4)
  else if e.kind = kindFusionRest then
    decide (e.event = calEventState ∧ e.phase ≤ 3 ∧ e.detail ≤ 2)
  else if e.kind = kindPower then powerValid e
  else if e.kind = kindButton then
    decide (e.event = calEventNotice ∧ e.phase = 1 ∧ e.detail ≠ 0)
  else false

/-! ## Frames -/

/-- `tracker_event_get16`. -/
def trackerEventGet16 (low high : BitVec 8) : BitVec 16 :=
  low.setWidth 16 ||| high.setWidth 16 <<< 8

/-- `tracker_event_get32`. -/
def trackerEventGet32 (p₀ p₁ p₂ p₃ : BitVec 8) : BitVec 32 :=
  (trackerEventGet16 p₀ p₁).setWidth 32 ||| (trackerEventGet16 p₂ p₃).setWidth 32 <<< 16

/-- `tracker_event_put16`. -/
def trackerEventPut16 (x : BitVec 16) : List (BitVec 8) := [x.setWidth 8, (x >>> 8).setWidth 8]

/-- `tracker_event_put32`. -/
def trackerEventPut32 (x : BitVec 32) : List (BitVec 8) :=
  trackerEventPut16 (x.setWidth 16) ++ trackerEventPut16 ((x >>> 16).setWidth 16)

/-- The bytes `tracker_event_encode` writes. -/
def eventFrame (e : TrackerEvent) : List (BitVec 8) :=
  [trackerEventEsbType, e.trackerId, trackerEventVersion, e.event ||| e.outcome <<< 4] ++
    trackerEventPut32 e.nonce ++ trackerEventPut16 e.eventSeq ++ trackerEventPut16 e.operationId ++
    [e.kind, e.phase, e.detail, trackerEventMagic0, trackerEventMagic1]

/-- `tracker_event_encode`. -/
def trackerEventEncode (e : TrackerEvent) : Option (List (BitVec 8)) :=
  if trackerEventValid e then some (eventFrame e) else none

/-- `TRACKER_EVENT_ESB_LEN`. -/
def trackerEventEsbLen : ℕ := 17

/-- Byte `i` of a packet. -/
def byteAt (p : List (BitVec 8)) (i : ℕ) : BitVec 8 := p.getD i 0

/-- The fields `tracker_event_decode` reads. -/
def eventFields (p : List (BitVec 8)) : TrackerEvent where
  trackerId := byteAt p 1
  nonce := trackerEventGet32 (byteAt p 4) (byteAt p 5) (byteAt p 6) (byteAt p 7)
  eventSeq := trackerEventGet16 (byteAt p 8) (byteAt p 9)
  operationId := trackerEventGet16 (byteAt p 10) (byteAt p 11)
  kind := byteAt p 12
  event := byteAt p 3 &&& 15
  outcome := byteAt p 3 >>> 4
  phase := byteAt p 13
  detail := byteAt p 14

/-- `tracker_event_decode`. -/
def trackerEventDecode (p : List (BitVec 8)) : Option TrackerEvent :=
  if p.length ≠ trackerEventEsbLen ∨ byteAt p 0 ≠ trackerEventEsbType ∨
      byteAt p 2 ≠ trackerEventVersion ∨ byteAt p 15 ≠ trackerEventMagic0 ∨
      byteAt p 16 ≠ trackerEventMagic1 then none
  else if trackerEventValid (eventFields p) then some (eventFields p)
  else none

/-- `TRACKER_EVENT_BODY_LEN`. -/
def trackerEventBodyLen : ℕ := 15

/-- `tracker_event_decode_body`. -/
def trackerEventDecodeBody (tracker : BitVec 8) (body : List (BitVec 8)) : Option TrackerEvent :=
  if body.length ≠ trackerEventBodyLen then none
  else trackerEventDecode (trackerEventEsbType :: tracker :: body)

/-- `tracker_event_encode_hid`. -/
def trackerEventEncodeHid (e : TrackerEvent) (opcode : BitVec 8) : List (BitVec 8) :=
  [251, 0, opcode, e.event ||| e.outcome <<< 4, e.trackerId] ++ trackerEventPut32 e.nonce ++
    trackerEventPut16 e.eventSeq ++ trackerEventPut16 e.operationId ++ [e.kind, e.phase, e.detail]

/-! ## Composite packets -/

/-- `composite_body_length`; `none` is the source's `-1`. -/
def compositeBodyLength (type : BitVec 8) : Option ℕ :=
  if type = 0 then some 13
  else if type = 1 then some 14
  else if type = 2 then some 13
  else if type = 3 then some 2
  else if type = 4 then some 14
  else if type = 5 then some 8
  else if type = trackerEventEsbType then some trackerEventBodyLen
  else none

/-- What the validating loop of `esb_receive_composite` has found. -/
structure CompositeScan where
  scan : ℕ
  eventPos : ℕ
  unknownTail : Bool

/-- Bytes `pos .. pos + len` of a packet. -/
def slice (data : List (BitVec 8)) (pos len : ℕ) : List (BitVec 8) := (data.drop pos).take len

/-- The validating loop of `esb_receive_composite` with `remaining` records to go; `none` is
`valid == false`. -/
def compositeScanRecords (tracker : BitVec 8) (data : List (BitVec 8)) (frameEnd : ℕ) :
    ℕ → CompositeScan → Option CompositeScan
  | 0, s => some s
  | remaining + 1, s =>
    if s.scan ≥ frameEnd then none
    else
      let type := byteAt data s.scan
      match compositeBodyLength type with
      -- An unknown legacy tail stops parsing and preserves the prefix.
      | none => some { s with
          scan := s.scan + 1
          unknownTail := true }
      | some bodyLen =>
        if s.scan + 1 + bodyLen > frameEnd then none
        else if type = trackerEventEsbType then
          -- A reachable event must be a valid, exact final record.
          if remaining = 0 ∧ (trackerEventDecodeBody tracker (slice data (s.scan + 1) bodyLen)).isSome then
            some { s with
              scan := s.scan + 1 + bodyLen
              eventPos := s.scan + 1 }
          else none
        else compositeScanRecords tracker data frameEnd remaining { s with scan := s.scan + 1 + bodyLen }

/-- `ESB_COMPOSITE_TYPE`. -/
def esbCompositeType : BitVec 8 := 0xFE

/-- The frame `esb_receive_composite` passes to `tracker_events_receive`, if any. -/
def compositeEventPacket (storedTrackers : ℕ) (data : List (BitVec 8)) : Option (List (BitVec 8)) :=
  let trackerId := byteAt data 1
  let subCount := (byteAt data 2).toNat
  if data.length < 5 ∨ byteAt data 0 ≠ esbCompositeType then none
  else if trackerId.toNat ≥ storedTrackers ∨ trackerId.toNat ≥ maxEventTrackers then none
  else if subCount = 0 then none
  else
    (compositeScanRecords trackerId data (data.length - 1) subCount ⟨3, 0, false⟩).bind fun s =>
      if s.unknownTail = false ∧ s.scan ≠ data.length - 1 then none
      else if s.eventPos = 0 then none
      else some (trackerEventEsbType :: trackerId :: slice data s.eventPos trackerEventBodyLen)

end SlimeReceiver.Events
