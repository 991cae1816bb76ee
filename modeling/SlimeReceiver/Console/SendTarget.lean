import SlimeReceiver.Console.Send
import SlimeReceiver.Library.Bytes
import SlimeReceiver.Receiver.Machine
import SlimeReceiver.Receiver.RemoteCommands
import SlimeReceiver.Receiver.WomPoll

/-! # The target of a send command

What the functions of `rcv_cmd.c` that the console calls do to the slots of the trackers. An all-target command
scans for a second first; whatever happens to the receiver meanwhile is a parameter, and so are the data collection
commands, which the console does not send.

* **`SensSlot`**, **`RemoteState`** — the slots.
* **`runCall`** — a call of the console.
* **`Unchanged`** — only one tracker is touched.
* **`send_touches_target`** — a number stands for one tracker exactly if it is not 255. -/

namespace SlimeReceiver

open Function (update)
open Receiver (targetAll)

namespace Console

/-! ## The slots -/

/-- The sensitivity fields of a slot. -/
structure SensSlot where
  pendingSensData : BitVec 16 × BitVec 16 × BitVec 16
  pendingSensAutoAxis : BitVec 8
  pendingSensAutoRevolutions : BitVec 16
  deriving DecidableEq

def SensSlot.zero : SensSlot := ⟨(0, 0, 0), 0, 0⟩

/-- The receiver with the remote command of the host, and the sensitivities. -/
structure RemoteState where
  poll : WomPoll
  sens : ℕ → SensSlot

namespace RemoteState

/-- The receiver. -/
def receiver (s : RemoteState) : Receiver := s.poll.receiver

/-- Something happens to the receiver. -/
def onReceiver (f : Receiver → Receiver) (s : RemoteState) : RemoteState :=
  { s with poll := { s.poll with receiver := f s.poll.receiver } }

/-- `esb_scan_active_mask` for a scan that began in this state. -/
def activeIn (s scanned : RemoteState) : TrackerMask :=
  scanned.receiver.scanActiveMask s.receiver.tdma.uptime

end RemoteState

/-! ## Flags -/

/-- `rcv_hid_opcode_is_pong_flag`. -/
def opcodeIsPongFlag (op : BitVec 8) : Bool :=
  decide (0x01 ≤ op ∧ op ≤ 0x28) || decide (0x30 ≤ op ∧ op ≤ 0x33)

/-- The flags of the data collection. -/
def isCollectFlag (flag : BitVec 8) : Bool := flag ∈ [0x22, 0x23, 0x34, (0x35 : BitVec 8)]

/-- `esb_send_remote_command`. -/
def sendCommand (id : ℕ) (flag : BitVec 8) (s : RemoteState) : RemoteState :=
  if Revocation.refusedFlag flag = true ∨ maxTrackers ≤ id then s
  else s.onReceiver (Receiver.sendRemoteCommandArg id flag 0)

/-- `esb_publish_flag_mask`. -/
def publishFlagMask (flag : BitVec 8) (mask : TrackerMask) (r : Receiver) : Receiver :=
  { r with
    command := eachBelow maxTrackers
      (fun i slot => if hasBit mask i then { slot with trackerRemoteCommand := flag } else slot) r.command }

/-- `esb_send_remote_command_all`. -/
def sendCommandAll (during : Receiver → Receiver) (flag : BitVec 8) (s : RemoteState) : RemoteState :=
  if Revocation.refusedFlag flag then s
  else
    let scanned := s.onReceiver during
    scanned.onReceiver (publishFlagMask flag (s.activeIn scanned))

/-- `rcv_cmd_remote_flag`. -/
def remoteFlag (collect : ℕ → BitVec 8 → RemoteState → RemoteState) (during : Receiver → Receiver) (targetId : ℕ)
    (flag : BitVec 8) (s : RemoteState) : RemoteState :=
  if opcodeIsPongFlag flag = false then s
  else if isCollectFlag flag then collect targetId flag s
  else if flag = pongFlagSetChannel ∨ flag = pongFlagClearChannel ∨ flag = pongFlagWomControl ∨
      flag = pongFlagTestModeOn ∨ flag = pongFlagTestModeOff then s
  else if targetId = targetAll then sendCommandAll during flag s
  else if maxTrackers ≤ targetId then s
  else sendCommand targetId flag s

/-! ## Sensitivities -/

/-- `esb_send_remote_command_sens`, with the values in hundredths. -/
def sendSens (id : ℕ) (values : BitVec 16 × BitVec 16 × BitVec 16) (s : RemoteState) : RemoteState :=
  if maxTrackers ≤ id then s
  else
    { s.onReceiver (Receiver.setCommandFlag id pongFlagSensSet) with
      sens := update s.sens id { s.sens id with pendingSensData := values } }

/-- The loop over the stored trackers in `rcv_cmd_remote_sens_set`. -/
def sendSensAll (values : BitVec 16 × BitVec 16 × BitVec 16) (s : RemoteState) : RemoteState :=
  let count := min s.receiver.tdma.roster.storedTrackers maxTrackers
  { s.onReceiver (fun r => { r with
      command := eachBelow count (fun _ slot => { slot with trackerRemoteCommand := pongFlagSensSet }) r.command }) with
    sens := eachBelow count (fun _ slot => { slot with pendingSensData := values }) s.sens }

/-- `rcv_cmd_remote_sens_set`. -/
def remoteSensSet (targetId : ℕ) (values : BitVec 16 × BitVec 16 × BitVec 16) (s : RemoteState) : RemoteState :=
  if targetId = targetAll then sendSensAll values s else sendSens targetId values s

/-- The tracker is active for `esb_send_remote_command_sens_auto`. -/
def sensAutoActive (id : ℕ) (r : Receiver) : Bool :=
  let last := (r.sequence id).stats.lastPacketTime
  r.isStored id && decide (0 < last) && decide (last ≤ r.tdma.uptime) && decide (r.tdma.uptime - last ≤ pingTimeoutMs)

/-- A slot with the parameters of a sensitivity calibration. -/
def SensSlot.withAuto (axis : BitVec 8) (revolutions : BitVec 16) (slot : SensSlot) : SensSlot :=
  { slot with
    pendingSensAutoAxis := axis
    pendingSensAutoRevolutions := revolutions }

/-- `esb_send_remote_command_sens_auto`. -/
def sendSensAuto (id : ℕ) (axis : BitVec 8) (revolutions : BitVec 16) (s : RemoteState) : RemoteState :=
  if maxTrackers ≤ id ∨ sensAutoActive id s.receiver = false then s
  else
    { s.onReceiver (Receiver.setCommandFlag id pongFlagSensAuto) with
      sens := update s.sens id ((s.sens id).withAuto axis revolutions) }

/-- `esb_send_remote_command_sens_auto_all`. -/
def sendSensAutoAll (during : Receiver → Receiver) (axis : BitVec 8) (revolutions : BitVec 16) (s : RemoteState) :
    RemoteState :=
  let scanned := s.onReceiver during
  let mask := s.activeIn scanned
  { scanned.onReceiver (publishFlagMask pongFlagSensAuto mask) with
    sens := eachBelow maxTrackers
      (fun i slot => if hasBit mask i then slot.withAuto axis revolutions else slot) scanned.sens }

/-- `rcv_cmd_remote_sens_auto`. -/
def remoteSensAuto (during : Receiver → Receiver) (targetId : ℕ) (axis : BitVec 8) (revolutions : BitVec 16)
    (s : RemoteState) : RemoteState :=
  if 2 < axis then s
  else if targetId = targetAll then sendSensAutoAll during axis revolutions s
  else sendSensAuto targetId axis revolutions s

/-! ## Test mode -/

/-- `esb_send_remote_command_test_on_all` and `esb_send_remote_command_test_off_all`. -/
def sendTestAll (during : Receiver → Receiver) (command : AllCommand) (s : RemoteState) : RemoteState :=
  let guarded := s.onReceiver fun r => { r with testAll := { r.testAll with
    broadcasting := true
    generation := r.testAll.generation + 1 } }
  let scanned := guarded.onReceiver during
  if scanned.receiver.testAll.generation ≠ guarded.receiver.testAll.generation then
    scanned.onReceiver fun r => { r with testAll := { r.testAll with broadcasting := false } }
  else scanned.onReceiver (Receiver.publishAll command (guarded.activeIn scanned))

/-- `rcv_cmd_remote_test_on`. -/
def remoteTestOn (during : Receiver → Receiver) (targetId : ℕ) (tps : BitVec 16) (s : RemoteState) : RemoteState :=
  if 1000 < tps then s
  else if targetId = targetAll then sendTestAll during (.on tps) s
  else s.onReceiver (Receiver.sendTestOn targetId tps)

/-- `rcv_cmd_remote_test_off`. -/
def remoteTestOff (during : Receiver → Receiver) (targetId : ℕ) (s : RemoteState) : RemoteState :=
  if targetId = targetAll then sendTestAll during .off s
  else s.onReceiver (Receiver.sendTestOff targetId)

/-! ## Wake on motion -/

/-- `rcv_cmd_remote_wom_command`, with the job it submits for all trackers. -/
def remoteWomCommand (during : Receiver → Receiver) (targetId : ℕ) (minutes : BitVec 16) (s : RemoteState) :
    RemoteState :=
  let scanned := if targetId = targetAll then s.onReceiver during else s
  { s with poll := (remoteWomBegin targetId minutes true s.receiver.tdma.uptime scanned.poll).getD s.poll }

/-! ## A call -/

section

variable {F : Type*} (collect : ℕ → BitVec 8 → RemoteState → RemoteState) (centi : F → BitVec 16)

/-- A call of the console; `centi` is the conversion `(int16_t)(x * 100.0f)`. The channel commands, which are for
all trackers, do not touch the slots here. -/
def runCall (during : Receiver → Receiver) (call : RemoteCall F) (s : RemoteState) : RemoteState :=
  match call with
  | .flag targetId flag => remoteFlag collect during targetId flag s
  | .sensSet targetId x y z => remoteSensSet targetId (centi x, centi y, centi z) s
  | .sensAuto targetId axis revolutions => remoteSensAuto during targetId axis revolutions s
  | .testOn targetId tps => remoteTestOn during targetId tps s
  | .testOff targetId => remoteTestOff during targetId s
  | .wom targetId minutes => remoteWomCommand during targetId minutes s
  | .channelAll _ | .channelClearAll => s

end

/-- Of the slots only that of tracker `n` is touched. -/
def Unchanged (n : ℕ) (s s' : RemoteState) : Prop :=
  ∀ id, id < maxTrackers → id ≠ n → s'.receiver.command id = s.receiver.command id ∧
    s'.receiver.testAll.readyAfterMs id = s.receiver.testAll.readyAfterMs id ∧
    s'.receiver.wom id = s.receiver.wom id ∧ s'.sens id = s.sens id

/-! ## One target -/

section Frames

variable {n : ℕ} {s : RemoteState} {during : Receiver → Receiver}

theorem Unchanged.refl (n : ℕ) (s : RemoteState) : Unchanged n s s := fun _ _ _ => ⟨rfl, rfl, rfl, rfl⟩

/-- A change of the receiver that keeps to one slot. -/
theorem unchanged_onReceiver {f : Receiver → Receiver}
    (h : ∀ id, id ≠ n → (f s.receiver).command id = s.receiver.command id ∧
      (f s.receiver).testAll.readyAfterMs id = s.receiver.testAll.readyAfterMs id ∧
      (f s.receiver).wom id = s.receiver.wom id) : Unchanged n s (s.onReceiver f) :=
  fun id _ hne => ⟨(h id hne).1, (h id hne).2.1, (h id hne).2.2, rfl⟩

/-- The stores of a command with its sensitivity. -/
theorem unchanged_setFlag (flag : BitVec 8) (slot : SensSlot) :
    Unchanged n s { s.onReceiver (Receiver.setCommandFlag n flag) with sens := update s.sens n slot } :=
  fun _ _ hne => ⟨Function.update_of_ne hne _ _, rfl, rfl, Function.update_of_ne hne _ _⟩

theorem unchanged_remoteFlag {collect : ℕ → BitVec 8 → RemoteState → RemoteState} {flag : BitVec 8}
    (hn : n ≠ targetAll) (hflag : isCollectFlag flag = false) :
    Unchanged n s (remoteFlag collect during n flag s) := by
  unfold remoteFlag
  split
  case isTrue => exact .refl n s
  case isFalse =>
    rw [if_neg (Bool.eq_false_iff.mp hflag)]
    split
    case isTrue => exact .refl n s
    case isFalse =>
      split
      case isTrue => exact .refl n s
      case isFalse =>
        unfold sendCommand
        split
        case isTrue => exact .refl n s
        case isFalse => exact unchanged_onReceiver fun _ hne => ⟨Function.update_of_ne hne _ _, rfl, rfl⟩

theorem unchanged_remoteSensSet (values : BitVec 16 × BitVec 16 × BitVec 16) (hn : n ≠ targetAll) :
    Unchanged n s (remoteSensSet n values s) := by
  unfold remoteSensSet sendSens
  rw [if_neg hn]
  split
  case isTrue => exact .refl n s
  case isFalse => exact unchanged_setFlag _ _

theorem unchanged_remoteSensAuto (axis : BitVec 8) (revolutions : BitVec 16) (hn : n ≠ targetAll) :
    Unchanged n s (remoteSensAuto during n axis revolutions s) := by
  unfold remoteSensAuto sendSensAuto
  rw [if_neg hn]
  split
  case isTrue => exact .refl n s
  case isFalse =>
    split
    case isTrue => exact .refl n s
    case isFalse => exact unchanged_setFlag _ _

/-- A targeted test command replaces the policy for all, but of the slots it touches one. -/
theorem unchanged_sendTest (tps : BitVec 16) (flag : BitVec 8) :
    Unchanged n s (s.onReceiver (Receiver.sendTest n tps flag)) :=
  unchanged_onReceiver fun _ hne => ⟨Function.update_of_ne hne _ _, rfl, rfl⟩

theorem unchanged_remoteTestOn (tps : BitVec 16) (hn : n ≠ targetAll) :
    Unchanged n s (remoteTestOn during n tps s) := by
  unfold remoteTestOn Receiver.sendTestOn
  rw [if_neg hn]
  split
  case isTrue => exact .refl n s
  case isFalse =>
    by_cases hrange : n ≥ maxTrackers
    · simp only [if_pos hrange]
      exact .refl n s
    · simp only [if_neg hrange]
      exact unchanged_sendTest _ _

theorem unchanged_remoteTestOff (hn : n ≠ targetAll) : Unchanged n s (remoteTestOff during n s) := by
  unfold remoteTestOff Receiver.sendTestOff
  rw [if_neg hn]
  by_cases hrange : n ≥ maxTrackers
  · simp only [if_pos hrange]
    exact .refl n s
  · simp only [if_neg hrange]
    exact unchanged_sendTest _ _

/-- A request for one tracker finds no other. -/
theorem hasBit_womTargets {r : Receiver} {scanStart id : ℕ} (hn : n ≠ targetAll)
    (h : hasBit (r.womTargets n scanStart) id = true) : id = n := by
  rw [Receiver.womTargets, hasBit_maskBelow (by decide), Bool.and_eq_true, Bool.or_eq_true, Bool.and_eq_true,
    Bool.and_eq_true, beq_iff_eq, beq_iff_eq] at h
  rcases h.2 with ⟨hid, _⟩ | ⟨hall, _⟩
  · exact hid.symm
  · exact absurd hall hn

theorem womRequest_frame {r : Receiver} {scanStart id : ℕ} (minutes : BitVec 16) (hn : n ≠ targetAll) (hne : id ≠ n) :
    (r.womRequest n minutes scanStart).1.command id = r.command id ∧
      (r.womRequest n minutes scanStart).1.testAll = r.testAll ∧
      (r.womRequest n minutes scanStart).1.wom id = r.wom id := by
  have hbit : ¬ hasBit (r.womTargets n scanStart) id = true := fun hbit => hne (hasBit_womTargets hn hbit)
  unfold Receiver.womRequest
  split
  case isTrue => exact ⟨rfl, rfl, rfl⟩
  case isFalse =>
    split
    case isTrue => exact ⟨rfl, rfl, rfl⟩
    case isFalse =>
      refine ⟨?_, rfl, ?_⟩
      · simp only [Receiver.issueWom, eachBelow, if_neg hbit, ite_self]
      · simp only [Receiver.issueWom, eachBelow, if_neg hbit, ite_self]

/-- What `remote_wom_begin` leaves of the receiver is what the request leaves of it. -/
theorem remoteWomBegin_receiver {minutes : BitVec 16} {console : Bool} {scanStart : ℕ} {w w' : WomPoll}
    (h : remoteWomBegin n minutes console scanStart w = some w') :
    w'.receiver = (w.receiver.womRequest n minutes scanStart).1 := by
  unfold remoteWomBegin at h
  split at h
  case isTrue => cases h
  case isFalse =>
    split at h
    case isTrue => cases h
    case isFalse =>
      split at h
      case h_1 receiver mask token heq =>
        split at h
        case isTrue => cases h
        case isFalse =>
          obtain rfl := Option.some.inj h
          rw [heq]

theorem unchanged_remoteWomCommand (minutes : BitVec 16) (hn : n ≠ targetAll) :
    Unchanged n s (remoteWomCommand during n minutes s) := by
  simp only [remoteWomCommand, if_neg hn]
  cases hbegin : remoteWomBegin n minutes true s.receiver.tdma.uptime s.poll with
  | none => exact .refl n s
  | some w =>
    intro id _ hne
    obtain ⟨hcommand, htest, hwom⟩ : (s.receiver.womRequest n minutes s.receiver.tdma.uptime).1.command id =
        s.receiver.command id ∧ _ ∧ _ := womRequest_frame minutes hn hne
    have hreceiver : w.receiver = _ := remoteWomBegin_receiver hbegin
    refine ⟨?_, ?_, ?_, rfl⟩
    · show w.receiver.command id = _
      rw [hreceiver]
      exact hcommand
    · show w.receiver.testAll.readyAfterMs id = _
      rw [hreceiver]
      exact congrArg (fun testAll => testAll.readyAfterMs id) htest
    · show w.receiver.wom id = _
      rw [hreceiver]
      exact hwom

end Frames

/-! ## What the console asks for -/

/-- A flag without a function of its own. -/
def plainFlag (flag : BitVec 8) : Bool :=
  opcodeIsPongFlag flag && !isCollectFlag flag && !Revocation.refusedFlag flag && flag != pongFlagTestModeOn &&
    flag != pongFlagTestModeOff && flag != pongFlagNormal

/-- The calls for a target, with arguments within their bounds. -/
def ProperCall {F : Type*} (n : ℕ) : RemoteCall F → Prop
  | .flag targetId flag => targetId = n ∧ plainFlag flag = true
  | .sensSet targetId _ _ _ => targetId = n
  | .sensAuto targetId axis _ => targetId = n ∧ axis ≤ 2
  | .testOn targetId tps => targetId = n ∧ tps ≤ 1000
  | .testOff targetId => targetId = n
  | .wom targetId minutes => targetId = n ∧
      (minutes ≤ womTimeoutMaxMinutes ∨ minutes = womTimeoutClear ∨ minutes = womEnter)
  | .channelAll _ | .channelClearAll => False

section Proper

variable {F : Type*} {strtof : List Char → Option F} {n : ℕ} {arg3 arg4 arg5 : Option String}

theorem onOff_eq_some {on off flag : BitVec 8} {word : String} (h : onOff on off word = some flag) :
    flag = on ∨ flag = off := by
  unfold onOff at h
  split at h
  case h_1 => exact .inl (Option.some.inj h).symm
  case h_2 => exact .inr (Option.some.inj h).symm
  case h_3 => cases h

/-- Both flags of a switch are plain. -/
theorem onOff_plain {on off flag : BitVec 8} {word : Option String} (hon : plainFlag on = true)
    (hoff : plainFlag off = true) (h : word.bind (onOff on off) = some flag) : plainFlag flag = true := by
  obtain ⟨_, _, hflag⟩ := Option.bind_eq_some_iff.mp h
  rcases onOff_eq_some hflag with rfl | rfl
  · exact hon
  · exact hoff

theorem calibrateFlag_plain {flag : BitVec 8} (h : calibrateFlag arg3 arg4 arg5 = some flag) :
    plainFlag flag = true := by
  unfold calibrateFlag at h
  split at h
  case isTrue => cases h
  case isFalse =>
    split at h
    case h_1 => cases h; decide
    case h_2 => cases h; decide
    case h_3 => cases h

theorem magFlag_plain {flag : BitVec 8} (h : magFlag arg3 arg4 = some flag) : plainFlag flag = true := by
  unfold magFlag at h
  split at h
  case h_1 => cases h
  case h_2 => cases h; decide
  case h_3 => cases h; decide
  case h_4 => cases h; decide
  case h_5 => cases h; decide
  case h_6 => cases h; decide
  case h_7 => exact onOff_plain (by decide) (by decide) h
  case h_8 => exact onOff_plain (by decide) (by decide) h
  case h_9 => cases h

theorem dfuFlag_plain {flag : BitVec 8} (h : dfuFlag arg3 = some flag) : plainFlag flag = true := by
  unfold dfuFlag at h
  split at h
  case h_1 => cases h; decide
  case h_2 => cases h; decide
  case h_3 => cases h

theorem tcalFlag_plain {flag : BitVec 8} (h : tcalFlag arg3 arg4 arg5 = some flag) : plainFlag flag = true := by
  unfold tcalFlag at h
  split at h
  case h_1 => cases h
  case h_2 =>
    split at h
    case isTrue => cases h; decide
    case isFalse => cases h
  case h_3 => cases h; decide
  case h_4 => cases h; decide
  case h_5 => exact onOff_plain (by decide) (by decide) h
  case h_6 => cases h; decide
  case h_7 => exact onOff_plain (by decide) (by decide) h
  case h_8 => cases h

/-- The flags of a table of commands. -/
theorem lookup_plain {table : List (String × BitVec 8)} (htable : ∀ entry ∈ table, plainFlag entry.2 = true)
    {word : String} {flag : BitVec 8} (h : List.lookup word table = some flag) : plainFlag flag = true := by
  induction table with
  | nil => cases h
  | cons entry table ih =>
    rw [List.lookup_cons] at h
    split at h
    · obtain rfl := Option.some.inj h
      exact htable entry List.mem_cons_self
    · exact ih (fun other hother => htable other (List.mem_cons_of_mem _ hother)) h

/-- A number within its bounds fits. -/
theorem ofInt_toNat {v bound : ℤ} (hnonneg : 0 ≤ v) (hle : v ≤ bound) (hbound : bound < 65536) :
    (BitVec.ofInt 16 v).toNat = v.toNat := by
  rw [BitVec.toNat_ofInt]
  omega

theorem axisOf_le {word : String} {axis : BitVec 8} (h : axisOf word = some axis) : axis ≤ 2 := by
  unfold axisOf at h
  split at h
  case h_1 => cases h; decide
  case h_2 => cases h; decide
  case h_3 => cases h; decide
  case h_4 => cases h

theorem tpsOf_le {tps : BitVec 16} (h : tpsOf arg4 = some tps) : tps ≤ 1000 := by
  unfold tpsOf at h
  split at h
  case h_1 => cases h; decide
  case h_2 => cases h; decide
  case h_3 =>
    obtain ⟨v, hv, rfl⟩ := Option.map_eq_some_iff.mp h
    obtain ⟨-, hnonneg, hle⟩ := parseLongBounded_spec hv
    rw [BitVec.le_def, ofInt_toNat hnonneg hle (by decide)]
    show v.toNat ≤ 1000
    omega

theorem minutesOf_valid {minutes : BitVec 16} (h : minutesOf arg4 = some minutes) :
    minutes ≤ womTimeoutMaxMinutes ∨ minutes = womTimeoutClear ∨ minutes = womEnter := by
  unfold minutesOf at h
  split at h
  case h_1 => cases h; decide
  case h_2 =>
    split at h
    case isTrue => cases h
    case isFalse =>
      obtain ⟨v, hv, rfl⟩ := Option.map_eq_some_iff.mp h
      obtain ⟨-, hnonneg, hle⟩ := parseLongBounded_spec hv
      split
      case isTrue => exact .inr (.inl rfl)
      case isFalse =>
        refine .inl ?_
        rw [BitVec.le_def, ofInt_toNat hnonneg hle (by decide)]
        show v.toNat ≤ 35791
        omega

theorem sensCall_proper {call : RemoteCall F} (h : sensCall strtof n arg3 arg4 arg5 = some call) :
    ProperCall n call := by
  unfold sensCall at h
  split at h
  case h_1 => cases h
  case h_2 =>
    cases h
    exact ⟨rfl, by decide⟩
  case h_3 =>
    split at h
    case h_1 axis revolutions haxis _ =>
      cases h
      obtain ⟨_, _, hword⟩ := Option.bind_eq_some_iff.mp haxis
      exact ⟨rfl, axisOf_le hword⟩
    case h_2 => cases h
  case h_4 =>
    split at h
    case h_1 =>
      cases h
      rfl
    case h_2 => cases h

theorem testCall_proper {call : RemoteCall F} (h : testCall n arg3 arg4 = some call) : ProperCall n call := by
  unfold testCall at h
  split at h
  case h_1 => cases h
  case h_2 =>
    obtain ⟨tps, htps, rfl⟩ := Option.map_eq_some_iff.mp h
    exact ⟨rfl, tpsOf_le htps⟩
  case h_3 =>
    cases h
    rfl
  case h_4 => cases h

theorem womCall_proper {call : RemoteCall F} (h : womCall n arg3 arg4 arg5 = some call) : ProperCall n call := by
  unfold womCall at h
  split at h
  case isTrue => cases h
  case isFalse =>
    split at h
    case h_1 =>
      split at h
      case isTrue =>
        cases h
        exact ⟨rfl, .inr (.inr rfl)⟩
      case isFalse => cases h
    case h_2 =>
      obtain ⟨minutes, hminutes, rfl⟩ := Option.map_eq_some_iff.mp h
      exact ⟨rfl, minutesOf_valid hminutes⟩
    case h_3 => cases h

/-- A command for one target is a proper call for it. -/
theorem commandCall_proper {arg2 : String} {call : RemoteCall F}
    (h : commandCall strtof false n arg2 arg3 arg4 arg5 = some call) : ProperCall n call := by
  unfold commandCall at h
  split at h
  case h_1 => exact womCall_proper h
  case h_2 =>
    obtain ⟨flag, hflag, rfl⟩ := Option.map_eq_some_iff.mp h
    exact ⟨rfl, calibrateFlag_plain hflag⟩
  case h_3 =>
    split at h
    case isTrue =>
      cases h
      exact ⟨rfl, by decide⟩
    case isFalse => cases h
  case h_4 =>
    obtain ⟨flag, hflag, rfl⟩ := Option.map_eq_some_iff.mp h
    exact ⟨rfl, magFlag_plain hflag⟩
  case h_5 =>
    obtain ⟨flag, hflag, rfl⟩ := Option.map_eq_some_iff.mp h
    exact ⟨rfl, dfuFlag_plain hflag⟩
  case h_6 => split at h <;> cases h
  case h_7 => cases h
  case h_8 => exact sensCall_proper h
  case h_9 =>
    obtain ⟨flag, hflag, rfl⟩ := Option.map_eq_some_iff.mp h
    obtain ⟨word, _, hword⟩ := Option.bind_eq_some_iff.mp hflag
    exact ⟨rfl, lookup_plain (by decide) hword⟩
  case h_10 =>
    obtain ⟨flag, hflag, rfl⟩ := Option.map_eq_some_iff.mp h
    exact ⟨rfl, tcalFlag_plain hflag⟩
  case h_11 =>
    obtain ⟨flag, hflag, rfl⟩ := Option.map_eq_some_iff.mp h
    exact ⟨rfl, onOff_plain (by decide) (by decide) hflag⟩
  case h_12 => exact testCall_proper h
  case h_13 =>
    obtain ⟨flag, hflag, rfl⟩ := Option.map_eq_some_iff.mp h
    exact ⟨rfl, lookup_plain (by decide) hflag⟩

end Proper

/-! ## The broadcast -/

/-- A receiver with one tracker, which has just been heard. -/
def oneTracker : RemoteState where
  poll :=
    { receiver := { Receiver.init with tdma := { Tdma.init with roster := ⟨1, fun _ => 1, true, one_le_maxTrackers⟩ } }
      now := 0
      pending := false
      womJob := false
      expected := 0
      confirmed := 0
      failed := 0
      token := 0
      console := false
      deadline := 0
      scheduled := false
      pass := none }
  sens := fun _ => .zero

section Broadcast

variable {F : Type*} {collect : ℕ → BitVec 8 → RemoteState → RemoteState} {centi : F → BitVec 16}

/-- A command that is queued for the tracker changes its slot. -/
theorem changed_of_command {s' : RemoteState} {flag : BitVec 8} (hflag : flag ≠ pongFlagNormal)
    (h : (s'.receiver.command 0).trackerRemoteCommand = flag) : ¬ Unchanged targetAll oneTracker s' := by
  intro hunchanged
  obtain ⟨hcommand, _⟩ := hunchanged 0 (by decide) (by decide)
  rw [hcommand] at h
  exact hflag h.symm

/-- The scan finds the tracker. -/
theorem active_oneTracker : hasBit (oneTracker.activeIn oneTracker) 0 = true := by decide +kernel

theorem publishFlagMask_command {flag : BitVec 8} {mask : TrackerMask} {r : Receiver} (hmask : hasBit mask 0 = true) :
    ((publishFlagMask flag mask r).command 0).trackerRemoteCommand = flag := by
  have hslot : (publishFlagMask flag mask r).command 0 = { r.command 0 with trackerRemoteCommand := flag } := by
    simp only [publishFlagMask, eachBelow_of_lt (show 0 < maxTrackers by decide), if_pos hmask]
  rw [hslot]

theorem broadcast_flag {flag : BitVec 8} (hplain : plainFlag flag = true) :
    ¬ Unchanged targetAll oneTracker (remoteFlag collect id targetAll flag oneTracker) := by
  simp only [plainFlag, Bool.and_eq_true, Bool.not_eq_true', bne_iff_ne, Revocation.refusedFlag, Bool.or_eq_false_iff,
    beq_eq_false_iff_ne] at hplain
  obtain ⟨⟨⟨⟨⟨hpong, hcollect⟩, hrefused⟩, htestOn⟩, htestOff⟩, hnormal⟩ := hplain
  refine changed_of_command hnormal ?_
  have hspecial : ¬ (flag = pongFlagSetChannel ∨ flag = pongFlagClearChannel ∨ flag = pongFlagWomControl ∨
      flag = pongFlagTestModeOn ∨ flag = pongFlagTestModeOff) := by
    rintro (h | h | h | h | h)
    · exact hrefused.1.1.1.1 h
    · exact hrefused.1.1.1.2 h
    · exact hrefused.1.1.2 h
    · exact htestOn h
    · exact htestOff h
  have hsend : Revocation.refusedFlag flag = false := by
    simp only [Revocation.refusedFlag, Bool.or_eq_false_iff, beq_eq_false_iff_ne]
    exact hrefused
  unfold remoteFlag sendCommandAll
  rw [if_neg (by rw [hpong]; decide), if_neg (Bool.eq_false_iff.mp hcollect), if_neg hspecial,
    if_pos rfl, if_neg (Bool.eq_false_iff.mp hsend)]
  exact publishFlagMask_command active_oneTracker

theorem broadcast_sensSet (values : BitVec 16 × BitVec 16 × BitVec 16) :
    ¬ Unchanged targetAll oneTracker (remoteSensSet targetAll values oneTracker) :=
  changed_of_command (by decide : pongFlagSensSet ≠ pongFlagNormal) rfl

theorem broadcast_sensAuto {axis : BitVec 8} (revolutions : BitVec 16) (haxis : axis ≤ 2) :
    ¬ Unchanged targetAll oneTracker (remoteSensAuto id targetAll axis revolutions oneTracker) := by
  refine changed_of_command (by decide : pongFlagSensAuto ≠ pongFlagNormal) ?_
  unfold remoteSensAuto
  rw [if_neg (by rw [BitVec.not_lt]; exact haxis), if_pos rfl]
  exact publishFlagMask_command active_oneTracker

/-- An idle slot without a grace takes the flag of an all-target command. -/
theorem publishAll_command {command : AllCommand} {mask : TrackerMask} {r : Receiver} (hmask : hasBit mask 0 = true)
    (hidle : (r.command 0).trackerRemoteCommand = pongFlagNormal)
    (hready : Receiver.withheld r.tdma.uptime (Receiver.clearExpired r.tdma.uptime (r.testAll.readyAfterMs 0)) = false) :
    ((r.publishAll command mask).command 0).trackerRemoteCommand = command.flag := by
  have hcommand : (r.installPolicy command).command = r.command := by cases command <;> rfl
  have hgrace : (r.installPolicy command).testAll.readyAfterMs = r.testAll.readyAfterMs := by cases command <;> rfl
  have hlt : 0 < maxTrackers := by decide
  simp only [Receiver.publishAll, Receiver.publishTestFlagMask, eachBelow_of_lt hlt, hcommand, hgrace, hmask, hidle,
    hready, beq_self_eq_true, Bool.not_false, Bool.and_self, if_true]

theorem broadcast_test (command : AllCommand) :
    ¬ Unchanged targetAll oneTracker (sendTestAll id command oneTracker) := by
  have hflag : command.flag ≠ pongFlagNormal := by
    cases command with
    | on tps => exact (by decide : pongFlagTestModeOn ≠ pongFlagNormal)
    | off => decide
  exact changed_of_command hflag (publishAll_command (by decide +kernel) rfl (by decide +kernel))

theorem broadcast_wom {minutes : BitVec 16}
    (hminutes : minutes ≤ womTimeoutMaxMinutes ∨ minutes = womTimeoutClear ∨ minutes = womEnter) :
    ¬ Unchanged targetAll oneTracker (remoteWomCommand id targetAll minutes oneTracker) := by
  refine changed_of_command (by decide : pongFlagWomControl ≠ pongFlagNormal) ?_
  have hvalid : Receiver.womRequestValid targetAll minutes = true := by
    simp only [Receiver.womRequestValid, Bool.and_eq_true, Bool.or_eq_true, decide_eq_true_eq, beq_iff_eq]
    exact ⟨or_assoc.mpr hminutes, .inl trivial⟩
  have htargets : hasBit (oneTracker.receiver.womTargets targetAll 0) 0 = true := by decide +kernel
  have hsome : oneTracker.receiver.womTargets targetAll 0 ≠ 0 := by
    intro hzero
    rw [hzero] at htargets
    exact absurd htargets (by decide)
  have hrequest : oneTracker.receiver.womRequest targetAll minutes 0 =
      (oneTracker.receiver.issueWom (oneTracker.receiver.womTargets targetAll 0) minutes,
        oneTracker.receiver.womTargets targetAll 0, Receiver.nextWomToken oneTracker.receiver.womNextToken) := by
    unfold Receiver.womRequest
    rw [hvalid, if_neg (by decide), if_neg hsome]
  cases hbegin : remoteWomBegin targetAll minutes true 0 oneTracker.poll with
  | none =>
    unfold remoteWomBegin at hbegin
    rw [hvalid, if_neg (by decide), if_neg (by decide)] at hbegin
    split at hbegin
    case h_1 =>
      split at hbegin
      case isTrue hempty => exact absurd rfl hempty.1
      case isFalse => cases hbegin
  | some w =>
    have hreceiver := remoteWomBegin_receiver hbegin
    have hstate : (remoteWomCommand id targetAll minutes oneTracker).receiver = w.receiver :=
      congrArg (fun w : Option WomPoll => (w.getD oneTracker.poll).receiver) hbegin
    rw [hstate, hreceiver]
    show ((oneTracker.receiver.womRequest targetAll minutes 0).1.command 0).trackerRemoteCommand = _
    rw [hrequest]
    simp only [Receiver.issueWom, eachBelow_of_lt (show 0 < maxTrackers by decide), if_pos htargets]

/-- A proper call for a target other than the broadcast touches no other slot. -/
theorem unchanged_of_proper {n : ℕ} {call : RemoteCall F} (during : Receiver → Receiver) (s : RemoteState)
    (hproper : ProperCall n call) (hn : n ≠ targetAll) : Unchanged n s (runCall collect centi during call s) := by
  cases call with
  | flag targetId flag =>
    obtain ⟨rfl, hplain⟩ := hproper
    simp only [plainFlag, Bool.and_eq_true, Bool.not_eq_true'] at hplain
    exact unchanged_remoteFlag hn hplain.1.1.1.1.2
  | sensSet targetId x y z =>
    obtain rfl := hproper
    exact unchanged_remoteSensSet _ hn
  | sensAuto targetId axis revolutions =>
    obtain ⟨rfl, _⟩ := hproper
    exact unchanged_remoteSensAuto _ _ hn
  | testOn targetId tps =>
    obtain ⟨rfl, _⟩ := hproper
    exact unchanged_remoteTestOn _ hn
  | testOff targetId =>
    obtain rfl := hproper
    exact unchanged_remoteTestOff hn
  | wom targetId minutes =>
    obtain ⟨rfl, _⟩ := hproper
    exact unchanged_remoteWomCommand _ hn
  | channelAll channel => exact hproper.elim
  | channelClearAll => exact hproper.elim

/-- A proper call for 255 is a broadcast. -/
theorem broadcast_of_proper {call : RemoteCall F} (hproper : ProperCall targetAll call) :
    ¬ Unchanged targetAll oneTracker (runCall collect centi id call oneTracker) := by
  cases call with
  | flag targetId flag =>
    obtain ⟨rfl, hplain⟩ := hproper
    exact broadcast_flag hplain
  | sensSet targetId x y z =>
    obtain rfl := hproper
    exact broadcast_sensSet _
  | sensAuto targetId axis revolutions =>
    obtain ⟨rfl, haxis⟩ := hproper
    exact broadcast_sensAuto _ haxis
  | testOn targetId tps =>
    obtain ⟨rfl, htps⟩ := hproper
    show ¬ Unchanged targetAll oneTracker (remoteTestOn id targetAll tps oneTracker)
    unfold remoteTestOn
    rw [if_neg (BitVec.not_lt.mpr htps), if_pos rfl]
    exact broadcast_test _
  | testOff targetId =>
    obtain rfl := hproper
    exact broadcast_test _
  | wom targetId minutes =>
    obtain ⟨rfl, hminutes⟩ := hproper
    exact broadcast_wom hminutes
  | channelAll channel => exact hproper.elim
  | channelClearAll => exact hproper.elim

end Broadcast

/-- A call for a number is a proper call for it. -/
theorem consoleHandleSend_proper {F : Type*} {strtof : List Char → Option F} {arg : String}
    {arg2 arg3 arg4 arg5 : Option String} {call : RemoteCall F} {n : ℕ}
    (harg : parseLongBounded arg 0 255 = some (n : ℤ))
    (hcall : consoleHandleSend strtof (some arg) arg2 arg3 arg4 arg5 = some call) : ProperCall n call := by
  have hnumber : arg ≠ "all" := by
    rintro rfl
    exact absurd harg (by
      rw [show parseLongBounded "all" 0 255 = none by decide]
      exact fun h => by cases h)
  cases arg2 with
  | none => cases hcall
  | some arg2 =>
    have htarget : targetOf arg = some n := by
      rw [targetOf, if_neg hnumber, harg]
      rfl
    simp only [consoleHandleSend, htarget, beq_eq_false_iff_ne.mpr hnumber] at hcall
    exact commandCall_proper hcall

/-- A command for a number leaves the slots of all other trackers alone, whatever the state and whatever happens
meanwhile, unless the number is that of the broadcast. -/
theorem send_touches_target {F : Type*} {strtof : List Char → Option F}
    {collect : ℕ → BitVec 8 → RemoteState → RemoteState} {centi : F → BitVec 16} {arg : String}
    {arg2 arg3 arg4 arg5 : Option String} {call : RemoteCall F} {n : ℕ}
    (harg : parseLongBounded arg 0 255 = some (n : ℤ))
    (hcall : consoleHandleSend strtof (some arg) arg2 arg3 arg4 arg5 = some call) :
    (∀ during s, Unchanged n s (runCall collect centi during call s)) ↔ n ≠ 255 := by
  have hproper := consoleHandleSend_proper harg hcall
  constructor
  · rintro hall rfl
    exact broadcast_of_proper hproper (hall id oneTracker)
  · intro hn during s
    exact unchanged_of_proper during s hproper hn

/-- `send 3 shutdown`, with one tracker. -/
theorem send_3_shutdown : Unchanged 3 oneTracker
    (runCall (fun _ _ s => s) (fun _ : Unit => 0) id (.flag 3 pongFlagShutdown) oneTracker) := by
  have harg : parseLongBounded "3" 0 255 = some ((3 : ℕ) : ℤ) := by decide
  have hcall : consoleHandleSend (fun _ => (none : Option Unit)) (some "3") (some "shutdown") none none none =
      some (.flag 3 pongFlagShutdown) := by decide
  exact (send_touches_target harg hcall).mpr (by decide) id oneTracker

/-- `send 255 shutdown` shuts tracker 0 down. -/
theorem send_255_shutdown : ¬ ∀ arg arg2 (n : ℕ) call, parseLongBounded arg 0 255 = some (n : ℤ) →
    consoleHandleSend (fun _ => (none : Option Unit)) (some arg) (some arg2) none none none = some call →
      ∀ during s, Unchanged n s (runCall (fun _ _ s => s) (fun _ => 0) during call s) := by
  intro hall
  have hshutdown : consoleHandleSend (fun _ => (none : Option Unit)) (some "255") (some "shutdown") none none none =
      some (.flag targetAll pongFlagShutdown) := by decide
  have hparse : parseLongBounded "255" 0 255 = some ((255 : ℕ) : ℤ) := by decide
  have hbroadcast : ¬ Unchanged targetAll oneTracker
      (remoteFlag (fun _ _ s => s) id targetAll pongFlagShutdown oneTracker) := broadcast_flag (by decide)
  exact hbroadcast (hall "255" "shutdown" 255 _ hparse hshutdown id oneTracker)

end Console

end SlimeReceiver
