import SlimeReceiver.Console.HidCmd

/-! # Both front ends of the remote commands

* **`SameRequest`** — the same command for the same trackers, with sensitivities that agree to a hundredth.
* **`TestRate`** — `test on` with a rate. -/

namespace SlimeReceiver

open NumberText (pyInt)
open Receiver (targetAll)

namespace Console

/-! ## The report -/

section Report

variable {seq tid : BitVec 8}

/-- The arguments are filled up with zeros. -/
theorem reported_eq (op : BitVec 8) {args : List (BitVec 8)} (hlength : args.length ≤ 12) :
    reported seq (op.toNat, args) =
      rcvCmdProcessHid (254 :: seq :: op :: 0 :: (args ++ List.replicate (12 - args.length) 0)) := by
  have hrange : 0 ≤ (op.toNat : ℤ) ∧ (op.toNat : ℤ) < 256 := by
    have hlt := op.isLt
    omega
  have hop : BitVec.ofInt 8 op.toNat = op := by
    rw [BitVec.ofInt_natCast, BitVec.ofNat_toNat, BitVec.setWidth_eq]
  have hargs : args.take 12 = args := List.take_of_length_le hlength
  have hzeros : List.replicate (60 - args.length) (0 : BitVec 8) =
      List.replicate (12 - args.length) 0 ++ List.replicate 48 0 := by
    rw [← List.replicate_add]
    congr 1
    omega
  rw [reported, commandReport, if_pos hrange, Option.bind_some]
  show rcvCmdProcessHid (List.take 16 ((254 :: seq :: BitVec.ofInt 8 op.toNat :: 0 :: args.take 12) ++
    List.replicate (60 - (args.take 12).length) 0)) = _
  rw [hop, hargs, hzeros, ← List.append_assoc]
  refine congrArg rcvCmdProcessHid (List.take_left' ?_)
  rw [List.length_append, List.length_replicate]
  show args.length + 1 + 1 + 1 + 1 + (12 - args.length) = 16
  omega

/-- Flags that `rcv_cmd_process_hid` hands on as they are. -/
def sentAsFlag (op : BitVec 8) : Bool :=
  opcodeIsPongFlag op && op ∉ [pongFlagWomControl, pongFlagSensSet, pongFlagSensAuto, pongFlagTestModeOn,
    pongFlagTestModeOff, pongFlagSetChannel, pongFlagClearChannel]

theorem reported_flag {op : BitVec 8} (hop : sentAsFlag op = true) :
    reported seq (op.toNat, [tid]) = some (.flag tid.toNat op) := by
  obtain ⟨hpong, hother⟩ := Bool.and_eq_true_iff.mp hop
  have hne : ∀ special ∈ [pongFlagWomControl, pongFlagSensSet, pongFlagSensAuto, pongFlagTestModeOn,
      pongFlagTestModeOff, pongFlagSetChannel, pongFlagClearChannel], op ≠ special := by
    rintro special hspecial rfl
    exact of_decide_eq_true hother hspecial
  have hevents : op ≠ 224 := by
    rintro rfl
    exact absurd hpong (by decide)
  have hone : [tid].length ≤ 12 := by simp
  rw [reported_eq op hone]
  show (if op = 224 then none else if opcodeIsPongFlag op then pongCall 0 op (tid :: List.replicate 11 0) else _) = _
  rw [if_neg hevents, if_pos hpong]
  unfold pongCall
  rw [if_neg (hne _ (by decide)), if_neg (hne _ (by decide)), if_neg (hne _ (by decide)), if_neg (hne _ (by decide)),
    if_neg (hne _ (by decide)), if_neg (not_or.mpr ⟨hne _ (by decide), hne _ (by decide)⟩)]
  rfl

end Report

/-! ## Keys and flags -/

/-- The key stands for the flag. -/
def KeyOf (key : String) (flag : BitVec 8) : Prop := flagOf key = flag ∧ sentAsFlag flag = true

instance (key : String) (flag : BitVec 8) : Decidable (KeyOf key flag) := inferInstanceAs (Decidable (_ ∧ _))

section Keys

variable {rest : List String} {key : String} {flag : BitVec 8}

theorem keyOf_of {k : String} {f : BitVec 8} (h : KeyOf k f) (hkey : some k = some key) (hflag : some f = some flag) :
    KeyOf key flag :=
  Option.some.inj hkey ▸ Option.some.inj hflag ▸ h

theorem onOffKey_agrees {onKey offKey : String} {on off : BitVec 8} (hon : KeyOf onKey on) (hoff : KeyOf offKey off)
    (hkey : onOffKey onKey offKey rest = some key) (hflag : rest[0]?.bind (onOff on off) = some flag) :
    KeyOf key flag := by
  unfold onOffKey at hkey
  split at hkey
  case h_1 => exact keyOf_of hon hkey hflag
  case h_2 => exact keyOf_of hoff hkey hflag
  case h_3 => cases hkey

theorem calibrateKey_agrees (hkey : calibrateKey rest = some key)
    (hflag : calibrateFlag rest[0]? rest[1]? rest[2]? = some flag) : KeyOf key flag := by
  unfold calibrateKey at hkey
  split at hkey
  case h_1 => exact keyOf_of (by decide +kernel) hkey hflag
  case h_2 => exact keyOf_of (by decide +kernel) hkey hflag
  case h_3 => cases hkey

theorem magKey_agrees (hkey : magKey rest = some key) (hflag : magFlag rest[0]? rest[1]? = some flag) :
    KeyOf key flag := by
  cases rest with
  | nil => cases hkey
  | cons sub more =>
    simp only [magKey] at hkey
    split at hkey
    case h_1 => exact keyOf_of (by decide +kernel) hkey hflag
    case h_2 => exact keyOf_of (by decide +kernel) hkey hflag
    case h_3 => exact keyOf_of (by decide +kernel) hkey hflag
    case h_4 => exact keyOf_of (by decide +kernel) hkey hflag
    case h_5 => exact keyOf_of (by decide +kernel) hkey hflag
    case h_6 => exact onOffKey_agrees (by decide +kernel) (by decide +kernel) hkey hflag
    case h_7 => exact onOffKey_agrees (by decide +kernel) (by decide +kernel) hkey hflag
    case h_8 => cases hkey

theorem tcalKey_agrees (hkey : tcalKey rest = some key)
    (hflag : tcalFlag rest[0]? rest[1]? rest[2]? = some flag) : KeyOf key flag := by
  cases rest with
  | nil => cases hkey
  | cons sub more =>
    simp only [tcalKey] at hkey
    split at hkey
    case h_1 =>
      split at hkey
      case isTrue hstart =>
        rw [hstart] at hflag
        exact keyOf_of (by decide +kernel) hkey hflag
      case isFalse => cases hkey
    case h_2 => exact keyOf_of (by decide +kernel) hkey hflag
    case h_3 => exact keyOf_of (by decide +kernel) hkey hflag
    case h_4 => cases hflag
    case h_5 => exact onOffKey_agrees (by decide +kernel) (by decide +kernel) hkey hflag
    case h_6 => exact onOffKey_agrees (by decide +kernel) (by decide +kernel) hkey hflag
    case h_7 => cases hkey

theorem dfuKey_agrees (hkey : dfuKey rest = some key) (hflag : dfuFlag rest[0]? = some flag) : KeyOf key flag := by
  unfold dfuKey at hkey
  split at hkey
  case h_1 => exact keyOf_of (by decide +kernel) hkey hflag
  case h_2 => exact keyOf_of (by decide +kernel) hkey hflag
  case h_3 => cases hkey

/-- Tables with the same words, whose entries belong together. -/
theorem lookup_agrees {keys : List (String × String)} {flags : List (String × BitVec 8)} {word : String}
    (htables : List.Forall₂ (fun k f => k.1 = f.1 ∧ KeyOf k.2 f.2) keys flags) (hkey : List.lookup word keys = some key)
    (hflag : List.lookup word flags = some flag) : KeyOf key flag := by
  induction htables with
  | nil => cases hkey
  | cons hentry _ ih =>
    rw [List.lookup_cons] at hkey hflag
    rw [hentry.1] at hkey
    split at hflag
    case h_1 heq =>
      rw [heq] at hkey
      exact keyOf_of hentry.2 hkey hflag
    case h_2 heq =>
      rw [heq] at hkey
      exact ih hkey hflag

theorem resetKey_agrees (hkey : resetKey rest = some key)
    (hflag : (rest[0]?.bind fun sub => List.lookup sub resetCommands) = some flag) : KeyOf key flag := by
  cases rest with
  | nil => cases hkey
  | cons sub more =>
    have htables : List.Forall₂ (fun k f => k.1 = f.1 ∧ KeyOf k.2 f.2) resetKeys resetCommands := by
      unfold resetKeys resetCommands
      decide +kernel
    exact lookup_agrees htables hkey hflag

/-- The commands without arguments have the flags of the table. -/
theorem flatKey_agrees {cmd : String} (hkey : flatKey cmd rest = some key)
    (hflag : List.lookup cmd plainCommands = some flag) : KeyOf key flag := by
  have hcmd : key = cmd := by
    unfold flatKey at hkey
    split at hkey
    case isTrue => cases hkey
    case isFalse =>
      split at hkey
      case isTrue => cases hkey
      case isFalse => exact (Option.some.inj hkey).symm
  have hall : ∀ entry ∈ plainCommands, KeyOf entry.1 entry.2 := by decide +kernel
  rw [hcmd]
  obtain ⟨before, after, htable, -⟩ := List.lookup_eq_some_iff.mp hflag
  refine hall (cmd, flag) ?_
  rw [htable]
  exact List.mem_append_right _ List.mem_cons_self

end Keys

/-! ## Numbers -/

/-- Text of ASCII characters is left as it is. -/
def KeepsAscii (toAscii : List Char → List Char) : Prop := ∀ cs, (∀ c ∈ cs, c.toNat < 128) → toAscii cs = cs

section Numbers

variable {toAscii : List Char → List Char} (hascii : KeepsAscii toAscii)

include hascii

/-- A number that both front ends read is one number. -/
theorem pyInt_agrees {anyBase : Bool} {word : String} {v w minimum maximum : ℤ}
    (hpy : pyInt toAscii anyBase word.toList = some v) (hc : parseLongBounded word minimum maximum = some w) : v = w :=
  NumberText.pyInt_of_isInt hascii (parseLongBounded_spec hc).1 hpy

theorem parseTarget_agrees {target : String} {tid : BitVec 8} {n : ℕ} (htid : parseTarget toAscii target = some tid)
    (hn : targetOf target = some n) : tid.toNat = n := by
  unfold parseTarget at htid
  unfold targetOf at hn
  split at htid
  case isTrue hall =>
    rw [if_pos hall] at hn
    rw [← Option.some.inj htid, ← Option.some.inj hn]
    rfl
  case isFalse hall =>
    rw [if_neg hall] at hn
    obtain ⟨v, hv, htid⟩ := Option.bind_eq_some_iff.mp htid
    obtain ⟨w, hw, rfl⟩ := Option.map_eq_some_iff.mp hn
    obtain rfl := pyInt_agrees hascii hv hw
    split at htid
    case isTrue => cases htid
    case isFalse hrange =>
      rw [← Option.some.inj htid, BitVec.toNat_ofInt]
      omega

end Numbers

/-! ## Requests -/

/-- Values that agree to a hundredth. -/
def Near (x y : FloatNumber) : Prop := ∃ a b, x = .finite a ∧ y = .finite b ∧ |a - b| ≤ 1 / 100

/-- The same command, with sensitivities that agree to a hundredth. -/
inductive SameRequest : RemoteCall FloatNumber → RemoteCall FloatNumber → Prop
  | same (call : RemoteCall FloatNumber) : SameRequest call call
  | sensSet {n : ℕ} {x y z x' y' z' : FloatNumber} (hx : Near x x') (hy : Near y y') (hz : Near z z') :
    SameRequest (.sensSet n x y z) (.sensSet n x' y' z')

/-- `test on` with a rate other than 0. -/
def TestRate (tokens : List String) : Prop :=
  tokens[0]? = some "test" ∧ tokens[1]? = some "on" ∧ tpsOf tokens[2]? ≠ some 0

/-- How the libraries read a number with a fraction: `float` reads no empty text, and a number below 512 is read with an
error of half a unit in the last of its 53 bits, or of the 24 that `strtof` gives it. -/
structure ReadsNumbers (number : List Char → Option ℚ) (strtof pyFloat : List Char → Option FloatNumber) : Prop where
  pyFloat_nil : pyFloat [] = none
  pyFloat_near : ∀ cs v, pyFloat cs = some (.finite v) → |v| < 512 → ∃ t, number cs = some t ∧ |v - t| ≤ 1 / 2 ^ 45
  strtof_near : ∀ cs t x, number cs = some t → strtof cs = some x → |t| < 512 →
    ∃ a, x = .finite a ∧ |a - t| ≤ 1 / 2 ^ 16

section Sensitivities

variable {number : List Char → Option ℚ} {strtof pyFloat : List Char → Option FloatNumber}

/-- A sensitivity comes out of the report as the console reads it, up to a hundredth. -/
theorem sens_near (hreads : ReadsNumbers number strtof pyFloat) {cs : List Char} {xi : ℤ} {x : FloatNumber}
    (hpy : (pyFloat cs).bind scaleSens = some xi) (hc : strtof cs = some x) :
    Near (hundredth (BitVec.ofInt 16 xi)) x := by
  obtain ⟨v, hv, hscale⟩ := Option.bind_eq_some_iff.mp hpy
  cases v with
  | infinite => cases hscale
  | nan => cases hscale
  | finite v =>
    simp only [scaleSens] at hscale
    split at hscale
    case isTrue => cases hscale
    case isFalse hrange =>
      obtain rfl := Option.some.inj hscale
      generalize hr : roundBits 53 (v * 100) = r at hrange ⊢
      generalize hiv : roundEven r = iv at hrange ⊢
      obtain ⟨hlow, hhigh⟩ := not_or.mp hrange
      have hlow' : (-32768 : ℚ) ≤ iv := by exact_mod_cast Int.not_lt.mp hlow
      have hhigh' : (iv : ℚ) ≤ 32767 := by exact_mod_cast Int.not_lt.mp hhigh
      have hround := abs_le.mp (hiv ▸ abs_roundEven_sub_le r)
      have hproduct := abs_le.mp (hr ▸ abs_roundBits_sub_le 53 (v * 100))
      -- the product is within the range of 16 bits, so the sensitivity is small
      have hsmall : |v * 100| ≤ 32770 := by
        rcases abs_cases (v * 100) with ⟨habs, -⟩ | ⟨habs, -⟩ <;> rw [habs] at hproduct ⊢ <;> linarith
      have hv512 : |v| < 512 := by
        rw [abs_mul] at hsmall
        norm_num at hsmall
        linarith
      obtain ⟨t, ht, hvt⟩ := hreads.pyFloat_near cs v hv hv512
      have hvt' := abs_le.mp hvt
      have ht512 : |t| < 512 := by
        have hbound := abs_le.mp hsmall
        rw [abs_lt]
        constructor <;> linarith
      obtain ⟨a, hx, hat⟩ := hreads.strtof_near cs t x ht hc ht512
      have hat' := abs_le.mp hat
      have hint : (BitVec.ofInt 16 iv).toInt = iv := by
        rw [BitVec.toInt_ofInt]
        exact Int.bmod_eq_of_le (by omega) (by omega)
      have hquotient := abs_le.mp (abs_roundBits_sub_le 24 ((iv : ℚ) / 100))
      have hhundredth : |(iv : ℚ) / 100| ≤ 328 := by
        rw [abs_le]
        constructor <;> linarith
      refine ⟨roundBits 24 (iv / 100), a, by rw [hundredth, hint], hx, ?_⟩
      rw [abs_le]
      constructor <;> linarith

end Sensitivities

/-! ## Arguments -/

section Arguments

variable {toAscii : List Char → List Char} {seq tid : BitVec 8} {rest : List String} {request : HidRequest}

theorem reported_wom (x : BitVec 16) :
    reported seq (0x28, tid :: (be16Bytes x).reverse) = some (.wom tid.toNat x) := by
  have hlength : (tid :: (be16Bytes x).reverse).length ≤ 12 := by simp [be16Bytes]
  refine (reported_eq pongFlagWomControl hlength).trans ?_
  show some (RemoteCall.wom tid.toNat (be16 ((x >>> 8).setWidth 8) (x.setWidth 8))) = _
  rw [be16_be16Bytes]

theorem reported_sensAuto (axis : BitVec 8) (x : BitVec 16) :
    reported seq ((flagOf "sens-auto").toNat, tid :: axis :: (be16Bytes x).reverse) =
      some (.sensAuto tid.toNat axis x) := by
  have hlength : (tid :: axis :: (be16Bytes x).reverse).length ≤ 12 := by simp [be16Bytes]
  refine (reported_eq pongFlagSensAuto hlength).trans ?_
  show some (RemoteCall.sensAuto tid.toNat axis (be16 ((x >>> 8).setWidth 8) (x.setWidth 8))) = _
  rw [be16_be16Bytes]

theorem reported_sensSet (xi yi zi : ℤ) :
    reported seq ((flagOf "sens-set").toNat, tid :: (packI16 xi ++ packI16 yi ++ packI16 zi)) =
      some (.sensSet tid.toNat (hundredth (BitVec.ofInt 16 xi)) (hundredth (BitVec.ofInt 16 yi))
        (hundredth (BitVec.ofInt 16 zi))) := by
  have hlength : (tid :: (packI16 xi ++ packI16 yi ++ packI16 zi)).length ≤ 12 := by simp [packI16, be16Bytes]
  refine (reported_eq pongFlagSensSet hlength).trans ?_
  have hread (v : ℤ) : be16 ((BitVec.ofInt 16 v >>> 8).setWidth 8) ((BitVec.ofInt 16 v).setWidth 8) =
      BitVec.ofInt 16 v := be16_be16Bytes _
  rw [← hread xi, ← hread yi, ← hread zi]
  rfl

theorem reported_testOn : reported seq ((flagOf "test-on").toNat, [tid]) = some (.testOn tid.toNat 0) := by
  have hzero : be16 0 0 = 0 := by decide
  refine (reported_eq pongFlagTestModeOn (by simp)).trans ?_
  show some (RemoteCall.testOn tid.toNat (be16 0 0)) = _
  rw [hzero]

theorem reported_testOff : reported seq ((flagOf "test-off").toNat, [tid]) = some (.testOff tid.toNat) :=
  (reported_eq pongFlagTestModeOff (by simp)).trans rfl

theorem reported_channel (ch : BitVec 8) : reported seq (218, [ch]) = some (.channelAll ch) :=
  (reported_eq 218 (by simp)).trans rfl

theorem reported_clearChannel : reported seq (219, []) = some .channelClearAll :=
  (reported_eq 219 (by simp)).trans rfl

theorem packU16_eq {v : ℤ} {bytes : List (BitVec 8)} (h : packU16 v = some bytes) :
    bytes = (be16Bytes (BitVec.ofInt 16 v)).reverse := by
  unfold packU16 at h
  split at h
  case isTrue => exact (Option.some.inj h).symm
  case isFalse => cases h

variable (hascii : KeepsAscii toAscii)

include hascii

theorem wom_agrees {call : RemoteCall FloatNumber} (hbuild : womArgs toAscii tid rest = some request)
    (hcall : womCall tid.toNat rest[0]? rest[1]? rest[2]? = some call) : reported seq request = some call := by
  unfold womArgs at hbuild
  split at hbuild
  case h_1 =>
    obtain ⟨bytes, hbytes, rfl⟩ := Option.map_eq_some_iff.mp hbuild
    obtain rfl : RemoteCall.wom tid.toNat womEnter = call := Option.some.inj hcall
    rw [packU16_eq hbytes, reported_wom]
    rfl
  case h_2 =>
    obtain ⟨bytes, hbytes, rfl⟩ := Option.map_eq_some_iff.mp hbuild
    obtain rfl : RemoteCall.wom tid.toNat 0 = call := Option.some.inj hcall
    rw [packU16_eq hbytes, reported_wom]
    rfl
  case h_3 word =>
    split at hbuild
    case isFalse => cases hbuild
    case isTrue =>
      obtain ⟨v, hv, hbuild⟩ := Option.bind_eq_some_iff.mp hbuild
      have hwom : (minutesOf (some word)).map (RemoteCall.wom tid.toNat) = some call := hcall
      obtain ⟨minutes, hminutes, rfl⟩ := Option.map_eq_some_iff.mp hwom
      unfold minutesOf at hminutes
      simp only at hminutes
      split at hminutes
      case isTrue => cases hminutes
      case isFalse =>
        obtain ⟨w, hw, rfl⟩ := Option.map_eq_some_iff.mp hminutes
        obtain rfl := pyInt_agrees hascii hv hw
        split at hbuild
        case isTrue => cases hbuild
        case isFalse =>
          obtain ⟨bytes, hbytes, rfl⟩ := Option.map_eq_some_iff.mp hbuild
          rw [packU16_eq hbytes, reported_wom]
          split
          case isTrue => rfl
          case isFalse => rfl
  case h_4 => cases hbuild

theorem pyInt_nil : pyInt toAscii false [] = none := by
  have hempty : toAscii [] = [] := hascii [] fun c hc => absurd hc List.not_mem_nil
  rw [pyInt, hempty]
  rfl

theorem sensAuto_agrees {axis : BitVec 8} {revolutions : BitVec 16}
    (hbuild : sensAutoArgs toAscii tid rest = some request) (haxis : rest[0]?.bind axisOf = some axis)
    (hrevolutions : revolutionsOf rest[1]? = some revolutions) :
    reported seq request = some (.sensAuto tid.toNat axis revolutions) := by
  cases rest with
  | nil => cases hbuild
  | cons word more =>
    obtain ⟨axis', haxis', hbuild⟩ := Option.bind_eq_some_iff.mp hbuild
    obtain rfl : axis' = axis := Option.some.inj (haxis'.symm.trans haxis)
    obtain ⟨v, hv, hbuild⟩ := Option.bind_eq_some_iff.mp hbuild
    obtain ⟨bytes, hbytes, rfl⟩ := Option.map_eq_some_iff.mp hbuild
    rw [packU16_eq hbytes, reported_sensAuto]
    cases more with
    | nil =>
      obtain rfl : 0 = v := Option.some.inj hv
      obtain rfl : 0 = revolutions := Option.some.inj hrevolutions
      rfl
    | cons rev more =>
      have hpy : pyInt toAscii false rev.toList = some v := hv
      have hc : revolutionsOf (some rev) = some revolutions := hrevolutions
      unfold revolutionsOf at hc
      split at hc
      case h_1 heq => cases heq
      case h_2 heq =>
        obtain rfl := Option.some.inj heq
        exact nomatch (pyInt_nil hascii).symm.trans hpy
      case h_3 heq =>
        obtain rfl := Option.some.inj heq
        obtain ⟨w, hw, rfl⟩ := Option.map_eq_some_iff.mp hc
        obtain rfl := pyInt_agrees hascii hpy hw
        rfl

theorem channel_agrees {channel : ℤ} (hbuild : channelArgs toAscii tid rest = some request)
    (hchannel : rest[0]?.bind (parseLongBounded · 0 100) = some channel) :
    reported seq request = some (.channelAll (BitVec.ofInt 8 channel)) := by
  cases rest with
  | nil => cases hbuild
  | cons word more =>
    simp only [channelArgs] at hbuild
    split at hbuild
    case isTrue => cases hbuild
    case isFalse =>
      obtain ⟨v, hv, hbuild⟩ := Option.bind_eq_some_iff.mp hbuild
      obtain rfl := pyInt_agrees hascii hv hchannel
      split at hbuild
      case isTrue => cases hbuild
      case isFalse =>
        rw [← Option.some.inj hbuild]
        exact reported_channel _

omit hascii

/-- The values of a list that has them. -/
theorem forall₂_of_mapM {α β : Type*} {f : α → Option β} {l : List α} {values : List β} (h : l.mapM f = some values) :
    List.Forall₂ (fun a b => f a = some b) l values := by
  induction l generalizing values with
  | nil =>
    obtain rfl : [] = values := Option.some.inj h
    exact List.Forall₂.nil
  | cons a l ih =>
    rw [List.mapM_cons] at h
    obtain ⟨b, hb, h⟩ := Option.bind_eq_some_iff.mp h
    obtain ⟨bs, hbs, h⟩ := Option.bind_eq_some_iff.mp h
    obtain rfl : b :: bs = values := Option.some.inj h
    exact List.Forall₂.cons hb (ih hbs)

/-- Three words between two commas are the words of the console. -/
theorem sens_agrees {number : List Char → Option ℚ} {strtof pyFloat : List Char → Option FloatNumber}
    (hreads : ReadsNumbers number strtof pyFloat) {parts : List (List Char)} {xi yi zi : ℤ} {x y z : FloatNumber}
    (hpy : (parts.mapM fun part => (pyFloat part).bind scaleSens) = some [xi, yi, zi])
    (hc : ((parts.filter (· ≠ [])).take 3).mapM strtof = some [x, y, z]) :
    Near (hundredth (BitVec.ofInt 16 xi)) x ∧ Near (hundredth (BitVec.ofInt 16 yi)) y ∧
      Near (hundredth (BitVec.ofInt 16 zi)) z := by
  rcases forall₂_of_mapM hpy with _ | ⟨hp, _ | ⟨hq, _ | ⟨hr, _ | _⟩⟩⟩
  rename_i p q r
  have hword (cs : List Char) (v : ℤ) (hcs : (pyFloat cs).bind scaleSens = some v) : cs ≠ [] := by
    rintro rfl
    rw [hreads.pyFloat_nil] at hcs
    cases hcs
  have hfilter : [p, q, r].filter (· ≠ []) = [p, q, r] := by
    refine List.filter_eq_self.mpr fun cs hcs => decide_eq_true ?_
    rcases List.mem_cons.mp hcs with rfl | hcs
    · exact hword _ _ hp
    · rcases List.mem_cons.mp hcs with rfl | hcs
      · exact hword _ _ hq
      · exact hword _ _ (List.mem_singleton.mp hcs ▸ hr)
  rw [hfilter] at hc
  rcases forall₂_of_mapM hc with _ | ⟨hp', _ | ⟨hq', _ | ⟨hr', _⟩⟩⟩
  exact ⟨sens_near hreads hp hp', sens_near hreads hq hq', sens_near hreads hr hr'⟩

end Arguments

/-! ## The commands -/

section Commands

variable {toAscii : List Char → List Char} {number : List Char → Option ℚ}
  {strtof pyFloat : List Char → Option FloatNumber} {seq tid : BitVec 8} {cmd : String} {rest : List String}
  {request : HidRequest} {call : RemoteCall FloatNumber}

theorem flags_agree {keys : Option String} {flags : Option (BitVec 8)}
    (hkeys : keys.map (fun k => (((flagOf k).toNat : ℤ), [tid])) = some (request : HidRequest))
    (hflags : flags.map (RemoteCall.flag tid.toNat) = some call)
    (hagree : ∀ key flag, keys = some key → flags = some flag → KeyOf key flag) : reported seq request = some call := by
  obtain ⟨key, hkey, rfl⟩ := Option.map_eq_some_iff.mp hkeys
  obtain ⟨flag, hflag, rfl⟩ := Option.map_eq_some_iff.mp hflags
  obtain ⟨rfl, hsent⟩ := hagree key flag hkey hflag
  exact reported_flag hsent

/-- `sens` with its word `auto`. -/
theorem sensCall_auto {n : ℕ} {arg4 arg5 : Option String} : sensCall strtof n (some "auto") arg4 arg5 =
    (arg4.bind axisOf).bind fun axis => (revolutionsOf arg5).map (RemoteCall.sensAuto n axis) := by
  unfold sensCall
  cases arg4.bind axisOf with
  | none => rfl
  | some axis => cases revolutionsOf arg5 <;> rfl

/-- The words of `sens` are read the same. -/
theorem sensCall_agrees (hascii : KeepsAscii toAscii) (hreads : ReadsNumbers number strtof pyFloat)
    (hbuild : sensArgs toAscii pyFloat tid rest = some request)
    (hcall : sensCall strtof tid.toNat rest[0]? rest[1]? rest[2]? = some call) :
    ∃ h, reported seq request = some h ∧ SameRequest h call := by
  cases rest with
  | nil => cases hbuild
  | cons sub more =>
    simp only [sensArgs] at hbuild
    split at hbuild
    case h_1 =>
      obtain rfl : (((flagOf "sens-reset").toNat : ℤ), [tid]) = request := Option.some.inj hbuild
      obtain rfl : RemoteCall.flag tid.toNat pongFlagSensReset = call := Option.some.inj hcall
      have hsent : sentAsFlag (flagOf "sens-reset") = true := by decide +kernel
      exact ⟨_, reported_flag hsent, .same _⟩
    case h_2 =>
      obtain ⟨axis, haxis, hauto⟩ := Option.bind_eq_some_iff.mp (sensCall_auto.symm.trans hcall)
      obtain ⟨revolutions, hrevolutions, rfl⟩ := Option.map_eq_some_iff.mp hauto
      exact ⟨_, sensAuto_agrees hascii hbuild haxis hrevolutions, .same _⟩
    case h_3 hreset hauto =>
      unfold sensCall at hcall
      split at hcall
      case h_1 heq => cases heq
      case h_2 heq => exact absurd (Option.some.inj heq) hreset
      case h_3 heq => exact absurd (Option.some.inj heq) hauto
      case h_4 heq =>
        obtain rfl := Option.some.inj heq
        split at hcall
        case h_2 => cases hcall
        case h_1 hvalues =>
          cases hcall
          split at hbuild
          case h_2 => cases hbuild
          case h_1 xi yi zi hscaled =>
            cases hbuild
            obtain ⟨hx, hy, hz⟩ := sens_agrees hreads hscaled hvalues
            exact ⟨_, reported_sensSet xi yi zi, .sensSet hx hy hz⟩

/-- The host program leaves the rate of `test on` out. -/
theorem test_agrees (hbuild : (onOffKey "test-on" "test-off" rest).map (fun k => (((flagOf k).toNat : ℤ), [tid])) =
      some (request : HidRequest))
    (hcall : testCall tid.toNat rest[0]? rest[1]? = some call) :
    ∃ h, reported seq request = some h ∧ (SameRequest h call ↔ ¬TestRate ("test" :: rest)) := by
  unfold onOffKey at hbuild
  split at hbuild
  case h_1 more =>
    cases hbuild
    have hon : (tpsOf more[0]?).map (RemoteCall.testOn (F := FloatNumber) tid.toNat) = some call := hcall
    obtain ⟨tps, htps, rfl⟩ := Option.map_eq_some_iff.mp hon
    refine ⟨_, reported_testOn, ?_⟩
    constructor
    · rintro hagrees ⟨-, -, hrate⟩
      cases hagrees
      exact hrate htps
    · intro hrate
      have hzero : tps = 0 := by
        by_contra hne
        refine hrate ⟨rfl, rfl, fun hnone => hne ?_⟩
        exact Option.some.inj (htps.symm.trans hnone)
      rw [hzero]
      exact .same _
  case h_2 more =>
    cases hbuild
    obtain rfl : RemoteCall.testOff tid.toNat = call := Option.some.inj hcall
    refine ⟨_, reported_testOff, fun _ hrate => ?_, fun _ => .same _⟩
    have hword : "off" = "on" := Option.some.inj hrate.2.1
    exact absurd hword (by decide)
  case h_3 => cases hbuild

/-- The commands without arguments are keys of the table. -/
theorem buildCommand_plain {flag : BitVec 8} (hword : (cmd, flag) ∈ plainCommands) :
    buildCommand toAscii pyFloat tid cmd rest =
      (flatKey cmd rest).map (fun k => (((flagOf k).toNat : ℤ), [tid])) := by
  have hcmd : cmd ∈ plainCommands.map Prod.fst := List.mem_map_of_mem hword
  simp only [plainCommands, List.map_cons, List.map_nil, List.mem_cons, List.not_mem_nil, or_false] at hcmd
  rcases hcmd with rfl | rfl | rfl | rfl | rfl | rfl | rfl <;> rfl

theorem not_test_of_plain {flag : BitVec 8} (hword : (cmd, flag) ∈ plainCommands) : cmd ≠ "test" := by
  rintro rfl
  have hwords : "test" ∉ plainCommands.map Prod.fst := by decide +kernel
  exact hwords (List.mem_map_of_mem hword)

/-- Everything but a test rate is read the same. -/
theorem command_agrees (hascii : KeepsAscii toAscii) (hreads : ReadsNumbers number strtof pyFloat) {all : Bool}
    (hbuild : buildCommand toAscii pyFloat tid cmd rest = some request)
    (hcall : commandCall strtof all tid.toNat cmd rest[0]? rest[1]? rest[2]? = some call) :
    ∃ h, reported seq request = some h ∧ (SameRequest h call ↔ ¬TestRate (cmd :: rest)) := by
  -- any command but `test`
  have hsame : cmd ≠ "test" → (∃ h, reported seq request = some h ∧ SameRequest h call) →
      ∃ h, reported seq request = some h ∧ (SameRequest h call ↔ ¬TestRate (cmd :: rest)) := by
    rintro hcmd ⟨h, hreported, hagrees⟩
    exact ⟨h, hreported, fun _ htest => hcmd (Option.some.inj htest.1), fun _ => hagrees⟩
  unfold commandCall at hcall
  split at hcall
  case h_1 => exact hsame (by decide) ⟨_, wom_agrees hascii hbuild hcall, .same _⟩
  case h_2 => exact hsame (by decide) ⟨_, flags_agree hbuild hcall fun _ _ => calibrateKey_agrees, .same _⟩
  case h_3 =>
    split at hcall
    case isFalse => cases hcall
    case isTrue =>
      obtain rfl : RemoteCall.flag tid.toNat pongFlagCalibrateAcc = call := Option.some.inj hcall
      have hkey : (sixSideKey rest).map (fun k => (((flagOf k).toNat : ℤ), [tid])) = some request := hbuild
      unfold sixSideKey at hkey
      split at hkey
      case h_1 =>
        have hflags : (some pongFlagCalibrateAcc).map (RemoteCall.flag (F := FloatNumber) tid.toNat) =
          some (.flag tid.toNat pongFlagCalibrateAcc) := rfl
        refine hsame (by decide) ⟨_, flags_agree hkey hflags fun key flag hkey hflag => ?_, .same _⟩
        exact keyOf_of (by decide +kernel) hkey hflag
      case h_2 => cases hkey
  case h_4 => exact hsame (by decide) ⟨_, flags_agree hbuild hcall fun _ _ => magKey_agrees, .same _⟩
  case h_5 => exact hsame (by decide) ⟨_, flags_agree hbuild hcall fun _ _ => dfuKey_agrees, .same _⟩
  case h_6 =>
    split at hcall
    case h_1 channel hchannel =>
      split at hcall
      case isTrue =>
        cases hcall
        exact hsame (by decide) ⟨_, channel_agrees hascii hbuild hchannel, .same _⟩
      case isFalse => cases hcall
    case h_2 => cases hcall
  case h_7 =>
    split at hcall
    case isTrue =>
      cases hcall
      have hclear : (if tid ≠ 0xFF then none else some ((219 : ℤ), ([] : List (BitVec 8)))) = some request := hbuild
      split at hclear
      case isTrue => cases hclear
      case isFalse =>
        cases hclear
        exact hsame (by decide) ⟨_, reported_clearChannel, .same _⟩
    case isFalse => cases hcall
  case h_8 => exact hsame (by decide) (sensCall_agrees hascii hreads hbuild hcall)
  case h_9 => exact hsame (by decide) ⟨_, flags_agree hbuild hcall fun _ _ => resetKey_agrees, .same _⟩
  case h_10 => exact hsame (by decide) ⟨_, flags_agree hbuild hcall fun _ _ => tcalKey_agrees, .same _⟩
  case h_11 =>
    exact hsame (by decide) ⟨_, flags_agree hbuild hcall fun _ _ =>
      onOffKey_agrees (by decide +kernel) (by decide +kernel), .same _⟩
  case h_12 => exact test_agrees hbuild hcall
  case h_13 =>
    obtain ⟨flag, hflag, rfl⟩ := Option.map_eq_some_iff.mp hcall
    obtain ⟨before, after, htable, -⟩ := List.lookup_eq_some_iff.mp hflag
    have hword : (cmd, flag) ∈ plainCommands := htable ▸ List.mem_append_right _ List.mem_cons_self
    rw [buildCommand_plain hword] at hbuild
    exact hsame (not_test_of_plain hword) ⟨_, flags_agree hbuild hcall fun _ _ => flatKey_agrees, .same _⟩

variable {target : String} {tokens : List String} {h : RemoteCall FloatNumber}

/-- A command and its words on the console. -/
theorem consoleCall_cons : consoleCall strtof target (cmd :: rest) = (targetOf target).bind fun targetId =>
    commandCall strtof (target == "all") targetId cmd rest[0]? rest[1]? rest[2]? := by
  show consoleHandleSend strtof (some target) (some cmd) rest[0]? rest[1]? rest[2]? = _
  simp only [consoleHandleSend]
  cases targetOf target <;> rfl

/-- The requests agree exactly if there is no test rate. -/
theorem calls_agree (hascii : KeepsAscii toAscii) (hreads : ReadsNumbers number strtof pyFloat)
    (hhid : hidCall toAscii pyFloat seq target tokens = some h)
    (hconsole : consoleCall strtof target tokens = some call) :
    SameRequest h call ↔ ¬TestRate tokens := by
  cases tokens with
  | nil => cases hhid
  | cons cmd rest =>
    obtain ⟨request, hrequest, hreported⟩ := Option.bind_eq_some_iff.mp hhid
    obtain ⟨tid, htid, hbuild⟩ := Option.bind_eq_some_iff.mp hrequest
    obtain ⟨n, hn, hcommand⟩ := Option.bind_eq_some_iff.mp (consoleCall_cons.symm.trans hconsole)
    obtain rfl := parseTarget_agrees hascii htid hn
    have hagree : ∃ h', reported seq request = some h' ∧ (SameRequest h' call ↔ ¬TestRate (cmd :: rest)) :=
      command_agrees hascii hreads hbuild hcommand
    obtain ⟨h', hreported', hiff⟩ := hagree
    obtain rfl : h' = h := Option.some.inj (hreported'.symm.trans hreported)
    exact hiff

/-- Sensitivities come from a command of two words and more. -/
theorem sens_words {targetAll : Bool} {targetId n : ℕ} {arg3 arg4 arg5 : Option String} {x y z : FloatNumber}
    (hcall : commandCall strtof targetAll targetId cmd arg3 arg4 arg5 = some (.sensSet n x y z)) :
    cmd = "sens" ∧ ∃ word, arg3 = some word ∧ word ≠ "auto" := by
  have hflag {flags : Option (BitVec 8)} {f : ℕ} (hmap : flags.map (RemoteCall.flag f) = some (.sensSet n x y z)) :
      False := by
    obtain ⟨_, _, heq⟩ := Option.map_eq_some_iff.mp hmap
    cases heq
  unfold commandCall at hcall
  split at hcall
  case h_1 =>
    unfold womCall at hcall
    split at hcall
    case isTrue => cases hcall
    case isFalse =>
      split at hcall
      case h_1 => split at hcall <;> cases hcall
      case h_2 =>
        obtain ⟨_, _, heq⟩ := Option.map_eq_some_iff.mp hcall
        cases heq
      case h_3 => cases hcall
  case h_2 => exact (hflag hcall).elim
  case h_3 => split at hcall <;> cases hcall
  case h_4 => exact (hflag hcall).elim
  case h_5 => exact (hflag hcall).elim
  case h_6 =>
    split at hcall
    case h_1 => split at hcall <;> cases hcall
    case h_2 => cases hcall
  case h_7 => split at hcall <;> cases hcall
  case h_8 =>
    refine ⟨rfl, ?_⟩
    cases arg3 with
    | none => cases hcall
    | some word =>
      refine ⟨word, rfl, ?_⟩
      rintro rfl
      obtain ⟨_, _, hauto⟩ := Option.bind_eq_some_iff.mp (sensCall_auto.symm.trans hcall)
      obtain ⟨_, _, heq⟩ := Option.map_eq_some_iff.mp hauto
      cases heq
  case h_9 => exact (hflag hcall).elim
  case h_10 => exact (hflag hcall).elim
  case h_11 => exact (hflag hcall).elim
  case h_12 =>
    unfold testCall at hcall
    split at hcall
    case h_1 => cases hcall
    case h_2 =>
      obtain ⟨_, _, heq⟩ := Option.map_eq_some_iff.mp hcall
      cases heq
    case h_3 => cases hcall
    case h_4 => cases hcall
  case h_13 => exact (hflag hcall).elim

/-- The words after the sensitivities do not count. -/
theorem sens_tail {word : String} (hword : word ≠ "auto") (more more' : List String) :
    hidCall toAscii pyFloat seq target ("sens" :: word :: more) =
        hidCall toAscii pyFloat seq target ("sens" :: word :: more') ∧
      consoleCall strtof target ("sens" :: word :: more) = consoleCall strtof target ("sens" :: word :: more') := by
  have hargs (tid : BitVec 8) :
      sensArgs toAscii pyFloat tid (word :: more) = sensArgs toAscii pyFloat tid (word :: more') := by
    simp only [sensArgs]
    split
    case h_1 => rfl
    case h_2 => exact absurd rfl hword
    case h_3 => rfl
  have hcall (n : ℕ) (arg4 arg5 arg4' arg5' : Option String) :
      sensCall strtof n (some word) arg4 arg5 = sensCall strtof n (some word) arg4' arg5' := by
    by_cases hreset : word = "reset"
    · rw [hreset]
      rfl
    · unfold sensCall
      split
      case h_1 heq => cases heq
      case h_2 heq => exact absurd (Option.some.inj heq) hreset
      case h_3 heq => exact absurd (Option.some.inj heq) hword
      case h_4 heq =>
        obtain rfl := Option.some.inj heq
        rfl
  constructor
  · show ((parseTarget toAscii target).bind fun tid =>
        sensArgs toAscii pyFloat tid (word :: more)).bind (reported seq) =
      ((parseTarget toAscii target).bind fun tid => sensArgs toAscii pyFloat tid (word :: more')).bind (reported seq)
    simp only [hargs]
  · rw [consoleCall_cons, consoleCall_cons]
    cases targetOf target with
    | none => rfl
    | some n => exact hcall n _ _ _ _

/-- A command with sensitivities has the words for them. -/
theorem tokens_of_sensSet {n : ℕ} {x y z : FloatNumber}
    (hconsole : consoleCall strtof target tokens = some (.sensSet n x y z)) :
    ∃ word more, tokens = "sens" :: word :: more ∧ word ≠ "auto" := by
  cases tokens with
  | nil => cases hconsole
  | cons cmd rest =>
    obtain ⟨_, -, hcommand⟩ := Option.bind_eq_some_iff.mp (consoleCall_cons.symm.trans hconsole)
    obtain ⟨rfl, word, hword, hauto⟩ := sens_words hcommand
    cases rest with
    | nil => cases hword
    | cons first more =>
      obtain rfl : first = word := Option.some.inj hword
      exact ⟨first, more, rfl, hauto⟩

/-- A rate that counts is among the first words. -/
theorem TestRate.of_take {k : ℕ} (hrate : TestRate (tokens.take k)) : TestRate tokens := by
  have hword {i : ℕ} {word : String} (h : (tokens.take k)[i]? = some word) : tokens[i]? = some word := by
    rw [List.getElem?_take] at h
    split at h
    case isTrue => exact h
    case isFalse => cases h
  refine ⟨hword hrate.1, hword hrate.2.1, fun hzero => hrate.2.2 ?_⟩
  rw [List.getElem?_take]
  split
  case isTrue => exact hzero
  case isFalse => rfl

/-- The words of a command with sensitivities decide alone, so any two lengths of it that are accepted agree. -/
theorem sens_take {word : String} {more : List String} (hauto : word ≠ "auto") {k : ℕ} {h' : RemoteCall FloatNumber}
    (hhid : hidCall toAscii pyFloat seq target (("sens" :: word :: more).take k) = some h') :
    hidCall toAscii pyFloat seq target (("sens" :: word :: more).take k) =
        hidCall toAscii pyFloat seq target ("sens" :: word :: more) ∧
      consoleCall strtof target (("sens" :: word :: more).take k) =
        consoleCall strtof target ("sens" :: word :: more) := by
  match k with
  | 0 => cases hhid
  | 1 =>
    obtain ⟨request, hrequest, -⟩ := Option.bind_eq_some_iff.mp hhid
    obtain ⟨_, -, hbuild⟩ := Option.bind_eq_some_iff.mp hrequest
    cases hbuild
  | k + 2 => exact sens_tail hauto (more.take k) more

/-- Both front ends ask for the same, and a word that one of them does not heed is not heeded by the other, exactly if
there is no test rate. -/
theorem front_ends_agree (hascii : KeepsAscii toAscii) (hreads : ReadsNumbers number strtof pyFloat)
    (hhid : hidCall toAscii pyFloat seq target tokens = some h)
    (hconsole : consoleCall strtof target tokens = some call) :
    (SameRequest h call ∧ ∀ k h' call', hidCall toAscii pyFloat seq target (tokens.take k) = some h' →
      consoleCall strtof target (tokens.take k) = some call' → (h' = h ↔ call' = call)) ↔ ¬TestRate tokens := by
  refine ⟨fun hagree => (calls_agree hascii hreads hhid hconsole).mp hagree.1, fun hrate => ?_⟩
  have hsame : SameRequest h call := (calls_agree hascii hreads hhid hconsole).mpr hrate
  refine ⟨hsame, fun k h' call' hhid' hconsole' => ?_⟩
  have hsame' : SameRequest h' call' :=
    (calls_agree hascii hreads hhid' hconsole').mpr fun hrate' => hrate hrate'.of_take
  -- both lengths of a command with sensitivities are the same command
  have hsens : (∃ word more, tokens = "sens" :: word :: more ∧ word ≠ "auto") → (h' = h ↔ call' = call) := by
    rintro ⟨word, more, rfl, hauto⟩
    obtain ⟨hhidEq, hconsoleEq⟩ := @sens_take _ strtof _ _ _ _ _ hauto _ _ hhid'
    have hh : h' = h := Option.some.inj (hhid'.symm.trans (hhidEq.trans hhid))
    have hc : call' = call := Option.some.inj (hconsole'.symm.trans (hconsoleEq.trans hconsole))
    exact ⟨fun _ => hc, fun _ => hh⟩
  cases hsame with
  | sensSet => exact hsens (tokens_of_sensSet hconsole)
  | same =>
    cases hsame' with
    | same => exact Iff.rfl
    | sensSet =>
      obtain ⟨word, more, htake, hauto⟩ := tokens_of_sensSet hconsole'
      refine hsens ⟨word, more ++ tokens.drop k, ?_, hauto⟩
      calc tokens = tokens.take k ++ tokens.drop k := (List.take_append_drop k tokens).symm
        _ = "sens" :: word :: (more ++ tokens.drop k) := by rw [htake]; rfl

end Commands

/-- A number written with digits, an optional sign and an optional point. -/
def readDecimal (cs : List Char) : Option ℚ :=
  let (negative, rest) := NumberText.splitSign cs
  let whole := rest.takeWhile Char.isDigit
  let places := (rest.dropWhile Char.isDigit).drop 1
  if whole ≠ [] ∧ places.all Char.isDigit ∧ (rest.dropWhile Char.isDigit).head?.all (· == '.') then
    some (NumberText.signed negative (NumberText.digitsValue (whole ++ places)) / 10 ^ places.length)
  else none

/-- A reading of the numbers that need no rounding. -/
theorem readsNumbers_readDecimal : ReadsNumbers readDecimal (fun cs => (readDecimal cs).map .finite)
    fun cs => (readDecimal cs).map .finite where
  pyFloat_nil := rfl
  pyFloat_near cs v hv _ := by
    obtain ⟨t, ht, heq⟩ := Option.map_eq_some_iff.mp hv
    obtain rfl : t = v := FloatNumber.finite.inj heq
    refine ⟨t, ht, ?_⟩
    rw [sub_self, abs_zero]
    positivity
  strtof_near cs t x ht hx _ := by
    rw [ht] at hx
    refine ⟨t, (Option.some.inj hx).symm, ?_⟩
    rw [sub_self, abs_zero]
    positivity

/-- `send 3 sens 1.5,-0.25,2`. -/
theorem front_ends_agree_sens : ∃ h call,
    hidCall id (fun cs => (readDecimal cs).map .finite) 1 "3" ["sens", "1.5,-0.25,2"] = some h ∧
      consoleCall (fun cs => (readDecimal cs).map .finite) "3" ["sens", "1.5,-0.25,2"] = some call ∧
        SameRequest h call := by
  have hhid : hidCall id (fun cs => (readDecimal cs).map .finite) 1 "3" ["sens", "1.5,-0.25,2"] =
      some (.sensSet 3 (.finite (3 / 2)) (.finite (-1 / 4)) (.finite 2)) := by decide +kernel
  have hconsole : consoleCall (fun cs => (readDecimal cs).map .finite) "3" ["sens", "1.5,-0.25,2"] =
      some (.sensSet 3 (.finite (3 / 2)) (.finite (-1 / 4)) (.finite 2)) := by decide +kernel
  have hrate : ¬TestRate ["sens", "1.5,-0.25,2"] := by
    rintro ⟨hword, -⟩
    exact absurd (Option.some.inj hword) (by decide)
  exact ⟨_, _, hhid, hconsole,
    ((front_ends_agree (fun _ _ => rfl) readsNumbers_readDecimal hhid hconsole).mpr hrate).1⟩

/-- `send 0 test on 200`: the host program asks for the default rate. -/
theorem test_rate_dropped : ∃ h call,
    hidCall id (fun _ => none) 1 "0" ["test", "on", "200"] = some h ∧
      consoleCall (fun _ => none) "0" ["test", "on", "200"] = some call ∧ ¬SameRequest h call := by
  refine ⟨.testOn 0 0, .testOn 0 200, by decide +kernel, by decide +kernel, ?_⟩
  rintro ⟨⟩

end Console

end SlimeReceiver
