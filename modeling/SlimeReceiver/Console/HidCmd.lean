import SlimeReceiver.Console.SendTarget
import SlimeReceiver.Library.Bytes
import SlimeReceiver.Library.PythonInt
import SlimeReceiver.Library.SignificantDigits

/-! # The send command of the host program

`build_send` of `hid_cmd.py` makes an opcode and its arguments of the words, `HidCmdClient.command` puts them into a
report, and `rcv_cmd_process_hid` of `rcv_cmd.c` reads the report; opcodes that are no remote commands are left out.
How the libraries read a number with a fraction, and the digits of other scripts, are parameters.

* **`FloatNumber`**, **`scaleSens`**, **`hundredth`** — sensitivities.
* **`buildSend`** — the words.
* **`commandReport`** — the report.
* **`rcvCmdProcessHid`** — what is requested. -/

namespace SlimeReceiver

open NumberText (pyInt)
open Receiver (targetAll)

namespace Console

/-! ## Sensitivities -/

/-- A floating-point number, with a value when it is finite. -/
inductive FloatNumber
  | finite (v : ℚ)
  | infinite
  | nan
  deriving DecidableEq

/-- `scale_sens`, which raises for what `round` does not take and for what 16 bits do not hold. -/
def scaleSens : FloatNumber → Option ℤ
  | .finite v =>
    let iv := roundEven (roundBits 53 (v * 100))
    if iv < -32768 ∨ 32767 < iv then none else some iv
  | _ => none

/-- `xi / 100.0f`. -/
def hundredth (xi : BitVec 16) : FloatNumber := .finite (roundBits 24 (xi.toInt / 100))

/-! ## The words -/

/-- `PONG_FLAG`. -/
def pongFlagTable : List (String × BitVec 8) :=
  [("shutdown", 0x01), ("calibrate", 0x02), ("calibrate-acc", 0x03), ("meow", 0x04), ("scan", 0x05),
    ("mag-clear", 0x06), ("reboot", 0x07), ("clear", 0x08), ("dfu", 0x09), ("sens-set", 0x0C), ("sens-reset", 0x0D),
    ("reset-zro", 0x0E), ("reset-acc", 0x0F), ("reset-bat", 0x10), ("ping", 0x11), ("reset-tcal", 0x12),
    ("tcal-auto-on", 0x13), ("tcal-auto-off", 0x14), ("fusion", 0x15), ("fusion-reset", 0x15), ("tcal-boot-on", 0x16),
    ("tcal-boot-off", 0x17), ("mag-cal", 0x18), ("mag-on", 0x19), ("mag-off", 0x1A), ("tcal-on", 0x1B),
    ("tcal-off", 0x1C), ("tdma-on", 0x1D), ("tdma-off", 0x1E), ("test-on", 0x1F), ("test-off", 0x20),
    ("dfu-ota", 0x21), ("collect-on", 0x22), ("collect-off", 0x23), ("sens-auto", 0x24), ("mag-auto-on", 0x25),
    ("mag-auto-off", 0x26), ("tcal-heat-start", 0x27), ("wom", 0x28), ("ota-query-info", 0x30), ("ota-abort", 0x31),
    ("ota-suppress", 0x32), ("ota-unsuppress", 0x33)]

/-- `PONG_FLAG[key]`; every key of the program is in the table. -/
def flagOf (key : String) : BitVec 8 := (List.lookup key pongFlagTable).getD 0

/-- `on` and `off`, as a key. -/
def onOffKey (on off : String) : List String → Option String
  | "on" :: _ => some on
  | "off" :: _ => some off
  | _ => none

/-- `calibrate`. -/
def calibrateKey : List String → Option String
  | [] => some "calibrate"
  | ["acc"] => some "calibrate-acc"
  | _ => none

/-- `6-side`. -/
def sixSideKey : List String → Option String
  | [] => some "calibrate-acc"
  | _ => none

/-- `mag`. -/
def magKey : List String → Option String
  | [] => none
  | sub :: more =>
    match sub with
    | "on" => some "mag-on"
    | "off" => some "mag-off"
    | "clear" => some "mag-clear"
    | "cal" | "calibrate" => some "mag-cal"
    | "auto" | "online" => onOffKey "mag-auto-on" "mag-auto-off" more
    | _ => none

/-- The keys of `reset`. -/
def resetKeys : List (String × String) :=
  [("zro", "reset-zro"), ("acc", "reset-acc"), ("bat", "reset-bat"), ("mag", "mag-clear"), ("tcal", "reset-tcal"),
    ("fusion", "fusion-reset")]

/-- `reset`. -/
def resetKey : List String → Option String
  | [] => none
  | sub :: _ => List.lookup sub resetKeys

/-- `tcal`. -/
def tcalKey : List String → Option String
  | [] => none
  | sub :: more =>
    match sub with
    | "heat" => if more = ["start"] then some "tcal-heat-start" else none
    | "on" => some "tcal-on"
    | "off" => some "tcal-off"
    | "reset" => some "reset-tcal"
    | "auto" => onOffKey "tcal-auto-on" "tcal-auto-off" more
    | "boot" => onOffKey "tcal-boot-on" "tcal-boot-off" more
    | _ => none

/-- `dfu`. -/
def dfuKey : List String → Option String
  | "ota" :: _ => some "dfu-ota"
  | [] => some "dfu"
  | _ => none

/-- The other keys of the table are commands of their own. -/
def flatKey (cmd : String) (rest : List String) : Option String :=
  if (List.lookup cmd pongFlagTable).isNone then none
  else if cmd = "tcal-heat-start" ∧ rest ≠ [] then none
  else some cmd

/-- `struct.pack("<H", v)`, which raises for what 16 bits do not hold. -/
def packU16 (v : ℤ) : Option (List (BitVec 8)) :=
  if 0 ≤ v ∧ v < 65536 then some (be16Bytes (BitVec.ofInt 16 v)).reverse else none

/-- `struct.pack("<h", v)` for a number that fits. -/
def packI16 (v : ℤ) : List (BitVec 8) := (be16Bytes (BitVec.ofInt 16 v)).reverse

/-- An opcode and its arguments. -/
abbrev HidRequest : Type := ℤ × List (BitVec 8)

section BuildSend

variable (toAscii : List Char → List Char) (pyFloat : List Char → Option FloatNumber)

/-- `parse_target`. -/
def parseTarget (s : String) : Option (BitVec 8) :=
  if s = "all" then some 0xFF
  else (pyInt toAscii true s.toList).bind fun tid => if tid < 0 ∨ 255 < tid then none else some (BitVec.ofInt 8 tid)

/-- `isascii` and `isdecimal`. -/
def isAsciiDecimal (s : String) : Bool := !s.toList.isEmpty && s.toList.all Char.isDigit

/-- `wom`. -/
def womArgs (tid : BitVec 8) : List String → Option HidRequest
  | ["enter"] => (packU16 womEnter.toNat).map fun bytes => (0x28, tid :: bytes)
  | ["timeout"] => (packU16 0).map fun bytes => (0x28, tid :: bytes)
  | ["timeout", word] =>
    if isAsciiDecimal word then
      (pyInt toAscii false word.toList).bind fun minutes =>
        if minutes < 0 ∨ 35791 < minutes then none
        else (packU16 (if minutes = 0 then womTimeoutClear.toNat else minutes)).map fun bytes => (0x28, tid :: bytes)
    else none
  | _ => none

/-- `sens auto`. -/
def sensAutoArgs (tid : BitVec 8) : List String → Option HidRequest
  | [] => none
  | word :: more =>
    (axisOf word).bind fun axis =>
      (match more with
        | [] => some 0
        | rev :: _ => pyInt toAscii false rev.toList).bind fun rev =>
          (packU16 rev).map fun bytes => ((flagOf "sens-auto").toNat, tid :: axis :: bytes)

/-- `sens`. -/
def sensArgs (tid : BitVec 8) : List String → Option HidRequest
  | [] => none
  | sub :: more =>
    match sub with
    | "reset" => some ((flagOf "sens-reset").toNat, [tid])
    | "auto" => sensAutoArgs toAscii tid more
    | sub =>
      match (sub.toList.splitOn ',').mapM fun part => (pyFloat part).bind scaleSens with
      | some [xi, yi, zi] => some ((flagOf "sens-set").toNat, tid :: (packI16 xi ++ packI16 yi ++ packI16 zi))
      | _ => none

/-- `channel`. -/
def channelArgs (tid : BitVec 8) : List String → Option HidRequest
  | [] => none
  | word :: _ =>
    if tid ≠ 0xFF then none
    else (pyInt toAscii false word.toList).bind fun ch =>
      if ch < 1 ∨ 100 < ch then none else some (218, [BitVec.ofInt 8 ch])

/-- `raw`. -/
def rawArgs (tid : BitVec 8) : List String → Option HidRequest
  | [] => none
  | word :: _ => (pyInt toAscii true word.toList).map fun opcode => (opcode, [tid])

/-- The rest of `build_send`, once the target is read. -/
def buildCommand (tid : BitVec 8) (cmd : String) (rest : List String) : Option HidRequest :=
  let key (k : Option String) : Option HidRequest := k.map fun k => ((flagOf k).toNat, [tid])
  match cmd with
  | "wom" => womArgs toAscii tid rest
  | "calibrate" => key (calibrateKey rest)
  | "6-side" => key (sixSideKey rest)
  | "mag" => key (magKey rest)
  | "sens" => sensArgs toAscii pyFloat tid rest
  | "reset" => key (resetKey rest)
  | "tcal" => key (tcalKey rest)
  | "tdma" => key (onOffKey "tdma-on" "tdma-off" rest)
  | "test" => key (onOffKey "test-on" "test-off" rest)
  | "dfu" => key (dfuKey rest)
  | "channel" => channelArgs toAscii tid rest
  | "clearchannel" => if tid ≠ 0xFF then none else some (219, [])
  | "raw" => rawArgs toAscii tid rest
  | cmd => if cmd = "sens-auto" ∧ rest ≠ [] then sensAutoArgs toAscii tid rest else key (flatKey cmd rest)

/-- `build_send`. -/
def buildSend (target : String) : List String → Option HidRequest
  | [] => none
  | cmd :: rest => (parseTarget toAscii target).bind fun tid => buildCommand toAscii pyFloat tid cmd rest

end BuildSend

/-! ## The report -/

/-- The report of `HidCmdClient.command`, which raises for an opcode that is no byte. -/
def commandReport (seq : BitVec 8) (request : HidRequest) : Option (List (BitVec 8)) :=
  if 0 ≤ request.1 ∧ request.1 < 256 then
    some ((254 :: seq :: BitVec.ofInt 8 request.1 :: 0 :: request.2.take 12) ++
      List.replicate (60 - (request.2.take 12).length) 0)
  else none

/-- The remote commands in `rcv_cmd_process_hid`, with the reserved byte and the arguments. -/
def pongCall (reserved opcode : BitVec 8) (args : List (BitVec 8)) : Option (RemoteCall FloatNumber) :=
  let targetId := if 1 ≤ args.length then (args.getD 0 0).toNat else targetAll
  let le16 (i : ℕ) : BitVec 16 := be16 (args.getD (i + 1) 0) (args.getD i 0)
  if opcode = pongFlagWomControl then
    if 3 ≤ args.length ∧ reserved = 0 ∧ ∀ b ∈ args.drop 3, b = 0 then some (.wom targetId (le16 1)) else none
  else if opcode = pongFlagSensSet then
    if args.length < 7 then none
    else some (.sensSet targetId (hundredth (le16 1)) (hundredth (le16 3)) (hundredth (le16 5)))
  else if opcode = pongFlagSensAuto then
    if args.length < 4 then none else some (.sensAuto targetId (args.getD 1 0) (le16 2))
  else if opcode = pongFlagTestModeOn then
    if args.length = 2 then none else some (.testOn targetId (if 3 ≤ args.length then le16 1 else 0))
  else if opcode = pongFlagTestModeOff then some (.testOff targetId)
  else if opcode = pongFlagSetChannel ∨ opcode = pongFlagClearChannel then none
  else some (.flag targetId opcode)

/-- `rcv_cmd_process_hid`, for the commands that concern trackers. -/
def rcvCmdProcessHid (buf : List (BitVec 8)) : Option (RemoteCall FloatNumber) :=
  if buf.length < 4 ∨ buf.getD 0 0 ≠ 254 then none
  else
    let opcode := buf.getD 2 0
    let args := (buf.drop 4).take 12
    if opcode = 224 then none
    else if opcodeIsPongFlag opcode then pongCall (buf.getD 3 0) opcode args
    else if opcode = 218 then some (.channelAll (if 1 ≤ args.length then args.getD 0 0 else 0))
    else if opcode = 219 then some .channelClearAll
    else none

/-- What a request becomes; the receiver copies the first 16 bytes of a report. -/
def reported (seq : BitVec 8) (request : HidRequest) : Option (RemoteCall FloatNumber) :=
  (commandReport seq request).bind fun report => rcvCmdProcessHid (report.take 16)

/-- What the host program asks for with the words. -/
def hidCall (toAscii : List Char → List Char) (pyFloat : List Char → Option FloatNumber) (seq : BitVec 8)
    (target : String) (tokens : List String) : Option (RemoteCall FloatNumber) :=
  (buildSend toAscii pyFloat target tokens).bind (reported seq)

/-- What the console asks for with them. -/
def consoleCall (strtof : List Char → Option FloatNumber) (target : String) (tokens : List String) :
    Option (RemoteCall FloatNumber) :=
  consoleHandleSend strtof (some target) tokens[0]? tokens[1]? tokens[2]? tokens[3]?

end Console

end SlimeReceiver
