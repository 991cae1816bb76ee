import SlimeReceiver.Link.TestAll

/-! # The WOM transaction

Wake-on-motion commands are confirmed in two phases: the PONG that carries the request, and a later
PING with its result.

* **`womRequest`**, **`womResult`**, **`womCancel`** — the calls of the console and HID threads.
* **`remoteWomReceive`** — a result or error that arrived with a PING.
* **`scanActiveMask`** — the trackers heard since the start of a scan. -/

namespace SlimeReceiver

open Function (update)

/-- A fresh transaction. -/
def WomSlot.start (token minutes : BitVec 16) : WomSlot := { WomSlot.zero with
  womToken := token
  womMinutes := minutes }

/-- A displaced transaction ends as cancelled. -/
def WomSlot.displace (slot : WomSlot) : WomSlot :=
  { slot with
    womMinutes := 0
    womError := ecanceled
    womComplete := true }

namespace Receiver

/-- Tracker `i` is stored with an address. -/
def isStored (r : Receiver) (i : ℕ) : Bool :=
  decide (i < r.tdma.roster.storedTrackers) && r.tdma.roster.storedTrackerAddr i != 0

/-- Tracker `i` is stored and sent a packet since `scanStart`. -/
def isActiveSince (scanStart : ℕ) (r : Receiver) (i : ℕ) : Bool :=
  r.isStored i && decide (scanStart ≤ (r.sequence i).stats.lastPacketTime)

/-- `esb_scan_active_mask`. -/
def scanActiveMask (scanStart : ℕ) (r : Receiver) : TrackerMask :=
  maskBelow 32 maxTrackers (r.isActiveSince scanStart)

/-! ## Requests -/

/-- `target_id == 0xff`. -/
def targetAll : ℕ := 0xff

/-- The trackers a WOM request goes to. -/
def womTargets (target scanStart : ℕ) (r : Receiver) : TrackerMask :=
  maskBelow 32 maxTrackers fun i =>
    (target == i && r.isStored i) || (target == targetAll && r.isActiveSince scanStart i)

/-- `if (++wom_next_token == 0) wom_next_token = 1`. -/
def nextWomToken (token : BitVec 16) : BitVec 16 := if token + 1 = 0 then 1 else token + 1

/-- `minutes` and `target_id` are legal. -/
def womRequestValid (target : ℕ) (minutes : BitVec 16) : Bool :=
  (decide (minutes ≤ womTimeoutMaxMinutes) || minutes == womTimeoutClear || minutes == womEnter) &&
    (target == targetAll || decide (target < maxTrackers))

/-- The critical section of `esb_send_remote_wom_command` when some tracker is addressed. -/
def issueWom (mask : TrackerMask) (minutes : BitVec 16) (r : Receiver) : Receiver :=
  let token := nextWomToken r.womNextToken
  { r with
    womNextToken := token
    wom := eachBelow maxTrackers
      (fun i slot => if hasBit mask i then WomSlot.start token minutes else slot) r.wom
    command := eachBelow maxTrackers
      (fun i slot => if hasBit mask i then
        { slot with trackerRemoteCommand := pongFlagWomControl } else slot) r.command }

/-- `esb_send_remote_wom_command`: the state, the mask it returns and the token. A request to all
trackers slept since `scanStart`. -/
def womRequest (target : ℕ) (minutes : BitVec 16) (scanStart : ℕ) (r : Receiver) :
    Receiver × TrackerMask × BitVec 16 :=
  if !womRequestValid target minutes then (r, 0, 0)
  else if r.womTargets target scanStart = 0 then (r, 0, 0)
  else
    (r.issueWom (r.womTargets target scanStart) minutes, r.womTargets target scanStart,
      nextWomToken r.womNextToken)

/-! ## Results -/

/-- `matches && !wom_complete && tracker_remote_command != ESB_PONG_FLAG_WOM_CONTROL`. -/
def womDisplaced (id : ℕ) (token : BitVec 16) (r : Receiver) : Bool :=
  (r.wom id).womToken == token && !(r.wom id).womComplete &&
    (r.command id).trackerRemoteCommand != pongFlagWomControl

/-- `esb_get_remote_wom_result`: minutes and error of a completed transaction. -/
def womResult (id : ℕ) (token : BitVec 16) (r : Receiver) :
    Receiver × Option (BitVec 16 × BitVec 16) :=
  if id ≥ maxTrackers ∨ token = 0 then (r, none)
  else
    let slot := if r.womDisplaced id token then (r.wom id).displace else r.wom id
    ({ r with wom := update r.wom id slot },
      if slot.womToken = token ∧ slot.womComplete = true then some (slot.womMinutes, slot.womError)
      else none)

/-- One iteration of `esb_cancel_remote_wom_command` cancels. -/
def womCancels (mask : TrackerMask) (token : BitVec 16) (r : Receiver) (i : ℕ) : Bool :=
  hasBit mask i && token != 0 && (r.wom i).womToken == token

/-- `esb_cancel_remote_wom_command`. -/
def womCancel (mask : TrackerMask) (token : BitVec 16) (r : Receiver) : Receiver :=
  { r with
    command := eachBelow maxTrackers (fun i slot =>
      if r.womCancels mask token i && slot.trackerRemoteCommand == pongFlagWomControl then
        { slot with trackerRemoteCommand := pongFlagNormal } else slot) r.command
    wom := eachBelow maxTrackers
      (fun i slot => if r.womCancels mask token i then WomSlot.zero else slot) r.wom }

/-! ## Replies -/

/-- `success`: the result value is legal for what was requested. -/
def womSuccess (flag : BitVec 8) (minutes value : BitVec 16) : Bool :=
  flag == pingFlagWomResult &&
    (if minutes = womEnter then value == womEnter
    else if minutes = womTimeoutClear then value == 0
    else decide (1 ≤ value ∧ value ≤ womTimeoutMaxMinutes) && (minutes == 0 || minutes == value))

/-- `failure`. -/
def womFailure (flag : BitVec 8) (value : BitVec 16) : Bool :=
  flag == pingFlagWomError && value != 0

/-- The reply belongs to the pending transaction: it was advertised, and this is a later PING. -/
def womReplyMatches (id : ℕ) (token : BitVec 16) (counter : BitVec 8) (r : Receiver) : Bool :=
  (r.command id).trackerRemoteCommand == pongFlagWomControl && token != 0 &&
    token == (r.wom id).womToken && !(r.wom id).womComplete && (r.wom id).womAdvertised &&
    counter != (r.wom id).womFirstPingCounter

/-- `remote_wom_receive`. -/
def remoteWomReceive (id : ℕ) (flag : BitVec 8) (value token : BitVec 16) (counter : BitVec 8)
    (r : Receiver) : Receiver :=
  let success := womSuccess flag (r.wom id).womMinutes value
  if (flag = pingFlagWomResult ∨ flag = pingFlagWomError) ∧
      r.womReplyMatches id token counter = true ∧ (success || womFailure flag value) = true then
    { r with
      wom := update r.wom id { r.wom id with
        womMinutes := if success then value else 0
        womError := if womFailure flag value then value else 0
        womComplete := true }
      command := update r.command id { r.command id with trackerRemoteCommand := pongFlagNormal } }
  else r

/-! ## What the transaction leaves alone -/

section Frames

variable (r : Receiver)

theorem womResult_eq (id : ℕ) (token : BitVec 16) : (r.womResult id token).1 = { r with
    wom := (r.womResult id token).1.wom } := by
  unfold womResult
  split <;> rfl

theorem remoteWomReceive_eq (id : ℕ) (flag : BitVec 8) (value token : BitVec 16)
    (counter : BitVec 8) : r.remoteWomReceive id flag value token counter = { r with
      wom := (r.remoteWomReceive id flag value token counter).wom
      command := (r.remoteWomReceive id flag value token counter).command } := by
  unfold remoteWomReceive
  simp only []
  split <;> rfl

end Frames

end Receiver

end SlimeReceiver
