import SlimeReceiver.Library.Bytes
import SlimeReceiver.Link.PongCommand
import SlimeReceiver.Link.TestAll

/-! # The bytes of a PONG

The radio interrupt builds a PONG in a buffer that still has the reply before it.

* **`MetadataSlot`**, **`PongSlot`**, **`PongSources`** — what a PONG is made of.
* **`promote`** — a pending metadata request becomes the active one.
* **`pongArguments`**, **`pongReply`** — the bytes of each command, and the reply.
* **`pong_bytes_determined`** — when the reply says nothing about the buffer. -/

namespace SlimeReceiver

open Receiver

/-! ## Sources -/

/-- The metadata requests of a tracker; no mask stands for no request. -/
structure MetadataSlot where
  activeMask : BitVec 8
  activeChunk : BitVec 8
  activeToken : BitVec 16
  pendingMask : BitVec 8
  pendingChunk : BitVec 8
  pendingToken : BitVec 16
  deriving DecidableEq, Repr

/-- The static zeros. -/
def MetadataSlot.zero : MetadataSlot := ⟨0, 0, 0, 0, 0, 0⟩

/-- There is a request. -/
def MetadataSlot.waiting (m : MetadataSlot) : Bool := m.activeMask != 0 || m.pendingMask != 0

/-- What the interrupt does to the requests of a tracker with a given pending command. -/
def MetadataSlot.promote (command : BitVec 8) (m : MetadataSlot) : MetadataSlot :=
  if command = pongFlagNormal ∧ m.activeMask = 0 ∧ m.pendingMask ≠ 0 then
    { m with
      activeMask := m.pendingMask
      activeChunk := m.pendingChunk
      activeToken := m.pendingToken
      pendingMask := 0 }
  else m

/-- What a PONG reads of `tracker_slots[id]`. -/
structure PongSlot where
  trackerRemoteCommand : BitVec 8
  pendingCmdArg : BitVec 8
  trackerTestOnTps : BitVec 16
  /-- `pending_sens_data`. -/
  sens₀ : BitVec 16
  sens₁ : BitVec 16
  sens₂ : BitVec 16
  pendingSensAutoAxis : BitVec 8
  pendingSensAutoRevolutions : BitVec 16
  womMinutes : BitVec 16
  womToken : BitVec 16
  womAdvertised : Bool
  metadata : MetadataSlot
  tdmaConfigPacked : BitVec 32

/-- What a PONG depends on, the PING apart. -/
structure PongSources where
  slot : PongSlot
  migration : MigrationCommand
  collectShutdown : Bool
  otaSuppress : Bool
  otaAborting : Bool
  pendingChannel : BitVec 8
  /-- The channel `esb_get_rf_channel` reports. -/
  rfChannel : Option (BitVec 32)
  rxTicks : BitVec 32
  /-- What `esb_ota_relay_fill_ack` puts in the place of the PONG of a target. -/
  relayAck : Option (List (BitVec 8))

/-- The overrides. -/
def PongSources.environment (st : PongSources) : PongEnvironment where
  migration := st.migration
  metadataWaiting := st.slot.metadata.waiting
  collectShutdown := st.collectShutdown
  otaSuppress := st.otaSuppress
  otaAborting := st.otaAborting
  otaReplaces := st.relayAck.isSome
  channelKnown := st.rfChannel.any fun channel => decide (channel.toNat ≤ 100)

/-! ## The reply -/

/-- `ESB_PING_TYPE`. -/
def esbPingType : BitVec 8 := 0xF0

/-- `ESB_PONG_TYPE`. -/
def pongType : BitVec 8 := 0xF1

/-- `ESB_CHANNEL_CONFIRM_VERSION`. -/
def esbChannelConfirmVersion : BitVec 8 := 1

/-- `esb_rf_channel_decode`. -/
def esbRfChannelDecode (stored : BitVec 8) : BitVec 8 :=
  if stored = 128 then 0
  else if stored = 0xFF ∨ stored = 0 ∨ 100 < stored.toNat then 0xFF
  else stored

/-- The PING branch answers a packet. -/
def ValidPing (ping : List (BitVec 8)) : Prop :=
  ping.length = 13 ∧ ping.getD 0 0 = esbPingType ∧ (ping.getD 1 0).toNat < maxTrackers ∧
    ping.getD 12 0 = crc8Ccitt 0x07 (ping.take 12)

instance (ping : List (BitVec 8)) : Decidable (ValidPing ping) := inferInstanceAs (Decidable (_ ∧ _))

/-- `channel_confirm`. -/
def channelProbe (ping : List (BitVec 8)) : Bool := ping.getD 7 0 &&& 0x80 != 0

/-- `cmd`. -/
def pongCommand (ping : List (BitVec 8)) (st : PongSources) : BitVec 8 :=
  if channelProbe ping then pongFlagChannelConfirm
  else overridePong st.slot.trackerRemoteCommand st.environment st.slot.womAdvertised
    (ping.getD 7 0 &&& pingCommandMask)

/-- `data[3..6]`. -/
def pongTime (command : BitVec 8) (st : PongSources) : List (BitVec 8) :=
  if command = pongFlagSensSet then be16Bytes st.slot.sens₀ ++ be16Bytes st.slot.sens₁
  else if command = pongFlagSensAuto then
    [st.slot.pendingSensAutoAxis] ++ be16Bytes st.slot.pendingSensAutoRevolutions ++ [0]
  else be32Bytes st.rxTicks

/-- What is written from `data[8]` on; nothing is answered to a probe on an unknown channel. -/
def pongArguments (command : BitVec 8) (st : PongSources) : Option (List (BitVec 8)) :=
  if command = pongFlagSensSet then some (be16Bytes st.slot.sens₂ ++ [0, 0])
  else if command = pongFlagSensAuto then some [0, 0, 0, 0]
  else if command = pongFlagSetChannel then
    some (be32Bytes ((esbRfChannelDecode st.pendingChannel).setWidth 32))
  else if command = pongFlagWomControl then
    some (be16Bytes st.slot.womMinutes ++ be16Bytes st.slot.womToken)
  -- the branch leaves `data[11]` alone
  else if command = pongFlagTestModeOn then some (be16Bytes st.slot.trackerTestOnTps ++ [0])
  else if command = pongFlagMetadataRequest then
    let active := st.slot.metadata.promote st.slot.trackerRemoteCommand
    some ([active.activeMask, active.activeChunk] ++ be16Bytes active.activeToken)
  else if command = pongFlagDataCollectBatchOn then some [st.slot.pendingCmdArg, 0, 0, 0]
  else if command = pongFlagChannelConfirm then
    st.rfChannel.bind fun channel => if 100 < channel.toNat then none
      else some [channel.setWidth 8, esbChannelConfirmVersion, 0, 0]
  else if command = pongFlagNormal then some (be32Bytes st.slot.tdmaConfigPacked)
  else some [0, 0, 0, 0]

/-- The buffer of a PONG, its checksum apart. -/
def pongFields (ping : List (BitVec 8)) (command : BitVec 8) (time arguments : List (BitVec 8))
    (buffer : ℕ → BitVec 8) : ℕ → BitVec 8 :=
  writeBytes (writeBytes (writeBytes (writeBytes buffer
    0 [pongType, ping.getD 1 0, ping.getD 2 0]) 7 [command]) 3 time) 8 arguments

/-- The `ESB_PONG_LEN` bytes of a buffer with their checksum. -/
def pongPacket (fields : ℕ → BitVec 8) : List (BitVec 8) :=
  (List.range 12).map fields ++ [crc8Ccitt 0x07 ((List.range 12).map fields)]

/-- The PING branch of `esb_ack_handler_cb`, with what the buffer has before. -/
def pongReply (ping : List (BitVec 8)) (st : PongSources) (buffer : ℕ → BitVec 8) :
    Option (List (BitVec 8)) :=
  if ValidPing ping then
    (pongArguments (pongCommand ping st) st).map fun arguments =>
      let pong := pongPacket (pongFields ping (pongCommand ping st) (pongTime (pongCommand ping st) st)
        arguments buffer)
      if channelProbe ping || st.otaAborting then pong else st.relayAck.getD pong
  else none

/-! ## What the reply says about the buffer -/

/-- A PING is answered with `TEST_MODE_ON`. -/
def SendsTestOn (ping : List (BitVec 8)) (st : PongSources) : Prop :=
  channelProbe ping = false ∧ st.slot.trackerRemoteCommand = pongFlagTestModeOn ∧
    st.migration = .none ∧ st.collectShutdown = false ∧ st.otaAborting = false ∧ st.relayAck = none

section Replies

variable {ping : List (BitVec 8)} {st : PongSources} {command : BitVec 8} {arguments : List (BitVec 8)}

theorem pongTime_length (command : BitVec 8) (st : PongSources) : (pongTime command st).length = 4 := by
  unfold pongTime
  split_ifs <;> rfl

/-- Every command but `TEST_MODE_ON` writes four bytes. -/
theorem pongArguments_length (hcommand : command ≠ pongFlagTestModeOn)
    (h : pongArguments command st = some arguments) : arguments.length = 4 := by
  unfold pongArguments at h
  split at h
  case isTrue => exact Option.some.inj h ▸ rfl
  split at h
  case isTrue => exact Option.some.inj h ▸ rfl
  split at h
  case isTrue => exact Option.some.inj h ▸ rfl
  split at h
  case isTrue => exact Option.some.inj h ▸ rfl
  split at h
  case isTrue => exact Option.some.inj h ▸ rfl
  split at h
  case isTrue => exact Option.some.inj h ▸ rfl
  split at h
  case isTrue =>
    obtain ⟨channel, -, hchannel⟩ := Option.bind_eq_some_iff.mp h
    split at hchannel
    case isTrue => cases hchannel
    case isFalse => exact Option.some.inj hchannel ▸ rfl
  split at h
  case isTrue => exact Option.some.inj h ▸ rfl
  case isFalse => exact Option.some.inj h ▸ rfl

theorem pongArguments_testOn (st : PongSources) : pongArguments pongFlagTestModeOn st =
    some (be16Bytes st.slot.trackerTestOnTps ++ [0]) := by
  unfold pongArguments
  rw [if_neg (by decide), if_neg (by decide), if_neg (by decide), if_neg (by decide), if_pos rfl]

/-- Four argument bytes fill the PONG. -/
theorem pongPacket_eq (time : List (BitVec 8)) (htime : time.length = 4) (harguments : arguments.length = 4)
    (buffer buffer' : ℕ → BitVec 8) : pongPacket (pongFields ping command time arguments buffer) =
      pongPacket (pongFields ping command time arguments buffer') := by
  have hfields : (List.range 12).map (pongFields ping command time arguments buffer) =
      (List.range 12).map (pongFields ping command time arguments buffer') := by
    refine List.map_congr_left fun k hk => ?_
    rw [List.mem_range] at hk
    -- the four writes cover the packet
    refine writeBytes_congr ?_
    by_cases harg : 8 ≤ k
    · exact .inl ⟨harg, by omega⟩
    refine .inr (writeBytes_congr ?_)
    by_cases htick : 3 ≤ k ∧ k < 7
    · exact .inl ⟨htick.1, by omega⟩
    refine .inr (writeBytes_congr ?_)
    by_cases hflag : k = 7
    · exact .inl ⟨by omega, by rw [List.length_singleton]; omega⟩
    refine .inr (writeBytes_congr (.inl ⟨Nat.zero_le _, ?_⟩))
    show k < 0 + 3
    omega
  rw [pongPacket, pongPacket, hfields]

/-- `TEST_MODE_ON` passes on the byte of the reply before. -/
theorem pongPacket_testOn {time : List (BitVec 8)} (htime : time.length = 4) (tps : BitVec 16)
    (buffer : ℕ → BitVec 8) :
    (pongPacket (pongFields ping command time (be16Bytes tps ++ [0]) buffer)).getD 11 0 = buffer 11 := by
  show pongFields ping command time (be16Bytes tps ++ [0]) buffer 11 = buffer 11
  unfold pongFields
  rw [writeBytes_outside (by simp [be16Bytes]), writeBytes_outside (by omega), writeBytes_outside (by simp),
    writeBytes_outside (by simp)]

/-- The command is `TEST_MODE_ON` when it is pending and nothing overrides it. -/
theorem pongCommand_testOn : pongCommand ping st = pongFlagTestModeOn ↔ channelProbe ping = false ∧
    st.slot.trackerRemoteCommand = pongFlagTestModeOn ∧ st.migration = .none ∧ st.collectShutdown = false ∧
      st.otaAborting = false := by
  unfold pongCommand
  cases channelProbe ping with
  | true => simp [pongFlagChannelConfirm, pongFlagTestModeOn]
  | false =>
    rw [if_neg Bool.false_ne_true, overridePong_eq_testModeOn]
    exact ⟨fun h => ⟨rfl, h⟩, fun h => h.2⟩

/-- The reply, once its argument bytes are known. -/
theorem pongReply_eq (hvalid : ValidPing ping) (harguments : pongArguments (pongCommand ping st) st = some arguments)
    (buffer : ℕ → BitVec 8) : pongReply ping st buffer =
      some (if channelProbe ping || st.otaAborting then
          pongPacket (pongFields ping (pongCommand ping st) (pongTime (pongCommand ping st) st) arguments buffer)
        else st.relayAck.getD (pongPacket
          (pongFields ping (pongCommand ping st) (pongTime (pongCommand ping st) st) arguments buffer))) := by
  rw [pongReply, if_pos hvalid, harguments, Option.map_some]

/-- A reply that is `TEST_MODE_ON` has a byte of the buffer. -/
theorem pongReply_testOn (hvalid : ValidPing ping) (hsends : SendsTestOn ping st) (buffer : ℕ → BitVec 8) :
    ∃ reply, pongReply ping st buffer = some reply ∧ reply.getD 11 0 = buffer 11 := by
  obtain ⟨hprobe, hpending, hmigration, hshutdown, haborting, hrelay⟩ := hsends
  have hcommand : pongCommand ping st = pongFlagTestModeOn :=
    pongCommand_testOn.mpr ⟨hprobe, hpending, hmigration, hshutdown, haborting⟩
  have harguments : pongArguments (pongCommand ping st) st = some (be16Bytes st.slot.trackerTestOnTps ++ [0]) := by
    rw [hcommand, pongArguments_testOn]
  refine ⟨_, pongReply_eq hvalid harguments buffer, ?_⟩
  rw [hprobe, haborting, if_neg (by decide), hrelay, Option.getD_none]
  exact pongPacket_testOn (pongTime_length _ _) _ _

end Replies

/-- The reply to a PING is the same whatever the buffer has, exactly when it is not a `TEST_MODE_ON`. -/
theorem pong_bytes_determined (ping : List (BitVec 8)) (st : PongSources) (hvalid : ValidPing ping) :
    (∀ buffer buffer', pongReply ping st buffer = pongReply ping st buffer') ↔ ¬ SendsTestOn ping st := by
  constructor
  · intro hsame hsends
    obtain ⟨reply, hreply, hbyte⟩ := pongReply_testOn hvalid hsends fun _ => 0
    obtain ⟨reply', hreply', hbyte'⟩ := pongReply_testOn hvalid hsends fun _ => 1
    have hequal := Option.some.inj (hreply.symm.trans ((hsame _ _).trans hreply'))
    rw [hequal, hbyte'] at hbyte
    exact absurd hbyte (by decide)
  · intro hnot buffer buffer'
    cases harguments : pongArguments (pongCommand ping st) st with
    | none => rw [pongReply, pongReply, harguments, Option.map_none, Option.map_none]
    | some arguments =>
      rw [pongReply_eq hvalid harguments, pongReply_eq hvalid harguments]
      refine congrArg some ?_
      by_cases htest : pongCommand ping st = pongFlagTestModeOn
      · -- the relay has replaced the PONG
        obtain ⟨hprobe, hpending, hmigration, hshutdown, haborting⟩ := pongCommand_testOn.mp htest
        obtain ⟨ack, hack⟩ := Option.ne_none_iff_exists'.mp fun hnone =>
          hnot ⟨hprobe, hpending, hmigration, hshutdown, haborting, hnone⟩
        rw [hprobe, haborting, if_neg (by decide), if_neg (by decide), hack, Option.getD_some, Option.getD_some]
      · rw [pongPacket_eq _ (pongTime_length _ _) (pongArguments_length htest harguments) buffer buffer']

/-- A tracker with a command slot and nothing else pending. -/
def PongSources.ofCommand (slot : CommandSlot) : PongSources where
  slot := ⟨slot.trackerRemoteCommand, slot.pendingCmdArg, slot.trackerTestOnTps, 0, 0, 0, 0, 0, 0, 0, false,
    .zero, 0⟩
  migration := .none
  collectShutdown := false
  otaSuppress := false
  otaAborting := false
  pendingChannel := 0
  rfChannel := some 42
  rxTicks := 0
  relayAck := none

/-- The PING of tracker 3 with counter 7. -/
def pingThree : List (BitVec 8) := [0xF0, 3, 7, 0, 0, 0, 0, 0, 0, 0, 0, 0, 0x9F]

theorem validPing_three : ValidPing pingThree := by
  refine ⟨rfl, rfl, by decide, ?_⟩
  exact (crc8Ccitt_of_test (by decide +kernel)).symm

/-- A targeted `TEST_MODE_OFF` is answered with the same bytes from a buffer of zeros and from one of ones. -/
theorem pong_bytes_determined_test_off :
    pongReply pingThree (.ofCommand ((Receiver.init.sendTestOff 3).command 3)) (fun _ => 0) =
      pongReply pingThree (.ofCommand ((Receiver.init.sendTestOff 3).command 3)) (fun _ => 1) := by
  refine (pong_bytes_determined pingThree _ validPing_three).mpr (fun hsends => ?_) _ _
  have hpending := hsends.2.1
  revert hpending
  decide +kernel

/-- After a targeted `TEST_MODE_ON` the reply ends with a byte of the reply before. -/
theorem test_on_leaks_buffer : ValidPing pingThree ∧ ∃ first second,
    pongReply pingThree (.ofCommand ((Receiver.init.sendTestOn 3 200).command 3)) (fun _ => 0) = some first ∧
    pongReply pingThree (.ofCommand ((Receiver.init.sendTestOn 3 200).command 3)) (fun _ => 1) = some second ∧
    first ≠ second:= by
  have hsends : SendsTestOn pingThree (.ofCommand ((Receiver.init.sendTestOn 3 200).command 3)) :=
    ⟨by decide, by decide +kernel, rfl, rfl, rfl, rfl⟩
  obtain ⟨first, hfirst, hbyte⟩ := pongReply_testOn validPing_three hsends fun _ => 0
  obtain ⟨second, hsecond, hbyte'⟩ := pongReply_testOn validPing_three hsends fun _ => 1
  refine ⟨validPing_three, first, second, hfirst, hsecond, ?_⟩
  rintro rfl
  rw [hbyte] at hbyte'
  exact absurd hbyte' (by decide)

end SlimeReceiver
