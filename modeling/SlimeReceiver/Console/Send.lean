import SlimeReceiver.Library.NumberText
import SlimeReceiver.Link.Wom

/-! # The send command of the console

`console_handle_send` of `console_send.c`: the words of a line, and the function of `rcv_cmd.c` they lead to. How
`strtof` reads a sensitivity is a parameter.

* **`RemoteCall`** — what is called.
* **`parseLongBounded`** — the numbers on a line.
* **`consoleHandleSend`** — the command. -/

namespace SlimeReceiver

open Receiver (targetAll)
open NumberText (isSpace strtol)

namespace Console

/-! ## The calls -/

/-- The calls of `console_handle_send`; sensitivities are of type `F`. -/
inductive RemoteCall (F : Type*)
  /-- `rcv_cmd_remote_flag`. -/
  | flag (targetId : ℕ) (pongFlag : BitVec 8)
  /-- `rcv_cmd_remote_sens_set`. -/
  | sensSet (targetId : ℕ) (x y z : F)
  /-- `rcv_cmd_remote_sens_auto`. -/
  | sensAuto (targetId : ℕ) (axis : BitVec 8) (revolutions : BitVec 16)
  /-- `rcv_cmd_remote_test_on`. -/
  | testOn (targetId : ℕ) (tps : BitVec 16)
  /-- `rcv_cmd_remote_test_off`. -/
  | testOff (targetId : ℕ)
  /-- `rcv_cmd_remote_wom_command`. -/
  | wom (targetId : ℕ) (minutes : BitVec 16)
  /-- `rcv_cmd_tracker_channel_all`. -/
  | channelAll (channel : BitVec 8)
  /-- `rcv_cmd_tracker_channel_clear_all`. -/
  | channelClearAll
  deriving DecidableEq

/-! ## Numbers -/

/-- `LONG_MIN` and `LONG_MAX`. -/
def inLong (v : ℤ) : Prop := -2 ^ 31 ≤ v ∧ v < 2 ^ 31

instance (v : ℤ) : Decidable (inLong v) := inferInstanceAs (Decidable (_ ∧ _))

/-- `parse_long_bounded`. -/
def parseLongBounded (str : String) (minimum maximum : ℤ) : Option ℤ :=
  match str.toList with
  | [] => none
  | c :: cs =>
    if isSpace c then none
    else match strtol (c :: cs) with
      | some (parsed, []) => if inLong parsed ∧ minimum ≤ parsed ∧ parsed ≤ maximum then some parsed else none
      | _ => none

/-- A number of the console is the value of its text. -/
theorem parseLongBounded_spec {str : String} {minimum maximum v : ℤ}
    (h : parseLongBounded str minimum maximum = some v) :
    NumberText.IsInt str.toList v ∧ minimum ≤ v ∧ v ≤ maximum := by
  unfold parseLongBounded at h
  split at h
  case h_1 => cases h
  case h_2 c cs hstr =>
    split at h
    case isTrue => cases h
    case isFalse hspace =>
      split at h
      case h_1 parsed hparsed =>
        split at h
        case isTrue hbounds =>
          obtain rfl := Option.some.inj h
          rw [hstr]
          exact ⟨NumberText.isInt_of_strtol (Bool.eq_false_iff.mpr hspace) hparsed, hbounds.2.1, hbounds.2.2⟩
        case isFalse => cases h
      case h_2 => cases h

/-! ## The flags -/

/-- `ESB_PONG_FLAG_CALIBRATE`. -/
def pongFlagCalibrate : BitVec 8 := 0x02
/-- `ESB_PONG_FLAG_CALIBRATE_ACC`. -/
def pongFlagCalibrateAcc : BitVec 8 := 0x03
/-- `ESB_PONG_FLAG_MEOW`. -/
def pongFlagMeow : BitVec 8 := 0x04
/-- `ESB_PONG_FLAG_SCAN`. -/
def pongFlagScan : BitVec 8 := 0x05
/-- `ESB_PONG_FLAG_MAG_CLEAR`. -/
def pongFlagMagClear : BitVec 8 := 0x06
/-- `ESB_PONG_FLAG_REBOOT`. -/
def pongFlagReboot : BitVec 8 := 0x07
/-- `ESB_PONG_FLAG_CLEAR`. -/
def pongFlagClear : BitVec 8 := 0x08
/-- `ESB_PONG_FLAG_DFU`. -/
def pongFlagDfu : BitVec 8 := 0x09
/-- `ESB_PONG_FLAG_SENS_RESET`. -/
def pongFlagSensReset : BitVec 8 := 0x0D
/-- `ESB_PONG_FLAG_RESET_ZRO`. -/
def pongFlagResetZro : BitVec 8 := 0x0E
/-- `ESB_PONG_FLAG_RESET_ACC`. -/
def pongFlagResetAcc : BitVec 8 := 0x0F
/-- `ESB_PONG_FLAG_RESET_BAT`. -/
def pongFlagResetBat : BitVec 8 := 0x10
/-- `ESB_PONG_FLAG_PING`. -/
def pongFlagPing : BitVec 8 := 0x11
/-- `ESB_PONG_FLAG_RESET_TCAL`. -/
def pongFlagResetTcal : BitVec 8 := 0x12
/-- `ESB_PONG_FLAG_TCAL_AUTO_ON`. -/
def pongFlagTcalAutoOn : BitVec 8 := 0x13
/-- `ESB_PONG_FLAG_TCAL_AUTO_OFF`. -/
def pongFlagTcalAutoOff : BitVec 8 := 0x14
/-- `ESB_PONG_FLAG_FUSION_RESET`. -/
def pongFlagFusionReset : BitVec 8 := 0x15
/-- `ESB_PONG_FLAG_TCAL_BOOT_ON`. -/
def pongFlagTcalBootOn : BitVec 8 := 0x16
/-- `ESB_PONG_FLAG_TCAL_BOOT_OFF`. -/
def pongFlagTcalBootOff : BitVec 8 := 0x17
/-- `ESB_PONG_FLAG_MAG_CAL`. -/
def pongFlagMagCal : BitVec 8 := 0x18
/-- `ESB_PONG_FLAG_MAG_ON`. -/
def pongFlagMagOn : BitVec 8 := 0x19
/-- `ESB_PONG_FLAG_MAG_OFF`. -/
def pongFlagMagOff : BitVec 8 := 0x1A
/-- `ESB_PONG_FLAG_TCAL_ON`. -/
def pongFlagTcalOn : BitVec 8 := 0x1B
/-- `ESB_PONG_FLAG_TCAL_OFF`. -/
def pongFlagTcalOff : BitVec 8 := 0x1C
/-- `ESB_PONG_FLAG_TDMA_ON`. -/
def pongFlagTdmaOn : BitVec 8 := 0x1D
/-- `ESB_PONG_FLAG_TDMA_OFF`. -/
def pongFlagTdmaOff : BitVec 8 := 0x1E
/-- `ESB_PONG_FLAG_DFU_OTA`. -/
def pongFlagDfuOta : BitVec 8 := 0x21
/-- `ESB_PONG_FLAG_MAG_AUTO_ON`. -/
def pongFlagMagAutoOn : BitVec 8 := 0x25
/-- `ESB_PONG_FLAG_MAG_AUTO_OFF`. -/
def pongFlagMagAutoOff : BitVec 8 := 0x26
/-- `ESB_PONG_FLAG_TCAL_HEATED_START`. -/
def pongFlagTcalHeatedStart : BitVec 8 := 0x27

/-- Commands without arguments; further words are ignored. -/
def plainCommands : List (String × BitVec 8) :=
  [("shutdown", pongFlagShutdown), ("meow", pongFlagMeow), ("scan", pongFlagScan), ("reboot", pongFlagReboot),
    ("clear", pongFlagClear), ("fusion", pongFlagFusionReset), ("ping", pongFlagPing)]

/-- The subcommands of `reset`. -/
def resetCommands : List (String × BitVec 8) :=
  [("zro", pongFlagResetZro), ("acc", pongFlagResetAcc), ("bat", pongFlagResetBat), ("mag", pongFlagMagClear),
    ("tcal", pongFlagResetTcal), ("fusion", pongFlagFusionReset)]

/-- `on` and `off`. -/
def onOff (on off : BitVec 8) : String → Option (BitVec 8)
  | "on" => some on
  | "off" => some off
  | _ => none

/-- `mag`, from its first argument on. -/
def magFlag (arg3 arg4 : Option String) : Option (BitVec 8) :=
  match arg3 with
  | none => none
  | some "on" => some pongFlagMagOn
  | some "off" => some pongFlagMagOff
  | some "clear" => some pongFlagMagClear
  | some "cal" | some "calibrate" => some pongFlagMagCal
  | some "auto" | some "online" => arg4.bind (onOff pongFlagMagAutoOn pongFlagMagAutoOff)
  | some _ => none

/-- `tcal`, from its first argument on. -/
def tcalFlag (arg3 arg4 arg5 : Option String) : Option (BitVec 8) :=
  match arg3 with
  | none => none
  | some "heat" => if arg4 = some "start" ∧ arg5 = none then some pongFlagTcalHeatedStart else none
  | some "on" => some pongFlagTcalOn
  | some "off" => some pongFlagTcalOff
  | some "auto" => arg4.bind (onOff pongFlagTcalAutoOn pongFlagTcalAutoOff)
  | some "clear" => some pongFlagResetTcal
  | some "boot" => arg4.bind (onOff pongFlagTcalBootOn pongFlagTcalBootOff)
  | some _ => none

/-- `dfu`, from its first argument on. -/
def dfuFlag : Option String → Option (BitVec 8)
  | some "ota" => some pongFlagDfuOta
  | none => some pongFlagDfu
  | some _ => none

/-- `calibrate`, from its first argument on. -/
def calibrateFlag (arg3 arg4 arg5 : Option String) : Option (BitVec 8) :=
  if arg4 ≠ none ∨ arg5 ≠ none then none
  else match arg3 with
    | none => some pongFlagCalibrate
    | some "acc" => some pongFlagCalibrateAcc
    | some _ => none

/-! ## The command -/

/-- The axis of a sensitivity calibration. -/
def axisOf : String → Option (BitVec 8)
  | "x" => some 0
  | "y" => some 1
  | "z" => some 2
  | _ => none

/-- `SENS_AUTO_MAX_REVOLUTIONS`. -/
def sensAutoMaxRevolutions : ℤ := 100

/-- The optional number of revolutions. -/
def revolutionsOf : Option String → Option (BitVec 16)
  | none | some "" => some 0
  | some arg5 => (parseLongBounded arg5 1 sensAutoMaxRevolutions).map (BitVec.ofInt 16)

/-- The optional test rate. -/
def tpsOf : Option String → Option (BitVec 16)
  | none | some "" => some 0
  | some arg4 => (parseLongBounded arg4 0 1000).map (BitVec.ofInt 16)

/-- The optional WOM timeout; 0 restores the default of the firmware. -/
def minutesOf : Option String → Option (BitVec 16)
  | none => some 0
  | some arg4 =>
    if (arg4.toList.head?).all (fun c => decide (c < '0' ∨ '9' < c)) then none
    else (parseLongBounded arg4 0 35791).map fun minutes =>
      if minutes = 0 then womTimeoutClear else BitVec.ofInt 16 minutes

section

variable {F : Type*} (strtof : List Char → Option F)

/-- The loop of `strtok`: the first three words between the commas. -/
def sensValues (arg3 : String) : Option (List F) :=
  (((arg3.toList.splitOn ',').filter (· ≠ [])).take 3).mapM strtof

/-- `sens`, from its first argument on. -/
def sensCall (targetId : ℕ) (arg3 arg4 arg5 : Option String) : Option (RemoteCall F) :=
  match arg3 with
  | none => none
  | some "reset" => some (.flag targetId pongFlagSensReset)
  | some "auto" =>
    match arg4.bind axisOf, revolutionsOf arg5 with
    | some axis, some revolutions => some (.sensAuto targetId axis revolutions)
    | _, _ => none
  | some arg3 =>
    match sensValues strtof arg3 with
    | some [x, y, z] => some (.sensSet targetId x y z)
    | _ => none

/-- `test`, from its first argument on. -/
def testCall (targetId : ℕ) (arg3 arg4 : Option String) : Option (RemoteCall F) :=
  match arg3 with
  | none => none
  | some "on" => (tpsOf arg4).map (.testOn targetId)
  | some "off" => some (.testOff targetId)
  | some _ => none

/-- `wom`, from its first argument on. -/
def womCall (targetId : ℕ) (arg3 arg4 arg5 : Option String) : Option (RemoteCall F) :=
  if arg5 ≠ none then none
  else match arg3 with
    | some "enter" => if arg4 = none then some (.wom targetId womEnter) else none
    | some "timeout" => (minutesOf arg4).map (.wom targetId)
    | _ => none

/-- The target: `all` or a number. -/
def targetOf (arg : String) : Option ℕ :=
  if arg = "all" then some targetAll else (parseLongBounded arg 0 255).map Int.toNat

/-- The command for a target. -/
def commandCall (targetAll : Bool) (targetId : ℕ) (arg2 : String) (arg3 arg4 arg5 : Option String) :
    Option (RemoteCall F) :=
  match arg2 with
  | "wom" => womCall targetId arg3 arg4 arg5
  | "calibrate" => (calibrateFlag arg3 arg4 arg5).map (.flag targetId)
  | "6-side" =>
    if arg3 = none ∧ arg4 = none ∧ arg5 = none then some (.flag targetId pongFlagCalibrateAcc) else none
  | "mag" => (magFlag arg3 arg4).map (.flag targetId)
  | "dfu" => (dfuFlag arg3).map (.flag targetId)
  | "channel" =>
    match arg3.bind (parseLongBounded · 0 100) with
    | some channel => if targetAll then some (.channelAll (BitVec.ofInt 8 channel)) else none
    | none => none
  | "clearchannel" => if targetAll then some .channelClearAll else none
  | "sens" => sensCall strtof targetId arg3 arg4 arg5
  | "reset" => (arg3.bind fun sub => List.lookup sub resetCommands).map (.flag targetId)
  | "tcal" => (tcalFlag arg3 arg4 arg5).map (.flag targetId)
  | "tdma" => (arg3.bind (onOff pongFlagTdmaOn pongFlagTdmaOff)).map (.flag targetId)
  | "test" => testCall targetId arg3 arg4
  | _ => (List.lookup arg2 plainCommands).map (.flag targetId)

/-- `console_handle_send`; `none` where the usage or an error is printed. -/
def consoleHandleSend (arg arg2 arg3 arg4 arg5 : Option String) : Option (RemoteCall F) :=
  match arg, arg2 with
  | some arg, some arg2 =>
    match targetOf arg with
    | some targetId => commandCall strtof (arg == "all") targetId arg2 arg3 arg4 arg5
    | none => none
  | _, _ => none

end

end Console

end SlimeReceiver
