import SlimeReceiver.Link.Ping

/-! # The command of a PONG

`selectPongCommand` without the receiver around it.

* **`overridePong`** — from the pending command down the overrides. -/

namespace SlimeReceiver

open Receiver

/-- The command of a PONG for a pending command. -/
def overridePong (pending : BitVec 8) (env : PongEnvironment) (womAdvertised : Bool)
    (ackFlag : BitVec 8) : BitVec 8 :=
  let withMetadata :=
    if pending = pongFlagNormal ∧ env.metadataWaiting then pongFlagMetadataRequest else pending
  let migrated := match env.migration with
    | .none => withMetadata
    | .setChannel => pongFlagSetChannel
    | .clearChannel => pongFlagClearChannel
  let collected := if env.collectShutdown then pongFlagShutdown else migrated
  let suppressed :=
    if collected = pongFlagNormal ∧ env.otaSuppress then pongFlagOtaSuppress else collected
  let aborted := if env.otaAborting then pongFlagOtaAbort else suppressed
  if aborted = pongFlagWomControl ∧ womAdvertised = false ∧ ackFlag ≠ pongFlagNormal then
    pongFlagNormal
  else aborted

/-- It is the command `ack_handler` selects. -/
theorem selectPongCommand_eq (env : PongEnvironment) (p : PingPacket) (r : Receiver) :
    r.selectPongCommand env p = overridePong (r.command p.trackerId).trackerRemoteCommand env
      (r.wom p.trackerId).womAdvertised p.ackFlag := rfl

section Overrides

variable {pending : BitVec 8} {env : PongEnvironment} {womAdvertised : Bool} {ackFlag : BitVec 8}

/-- Only an abort that is pending, or is the pending command, is answered with an abort. -/
theorem overridePong_eq_abort (h : overridePong pending env womAdvertised ackFlag = pongFlagOtaAbort) :
    env.otaAborting = true ∨ pending = pongFlagOtaAbort := by
  by_contra hout
  obtain ⟨haborting, hpending⟩ := not_or.mp hout
  rw [Bool.not_eq_true] at haborting
  unfold overridePong at h
  simp only [haborting, Bool.false_eq_true, if_false] at h
  revert h
  split_ifs <;> cases env.migration <;> simp_all [pongFlagOtaAbort, pongFlagNormal, pongFlagShutdown,
    pongFlagSetChannel, pongFlagClearChannel, pongFlagMetadataRequest, pongFlagOtaSuppress]

/-- Only a pending command is answered with `TEST_MODE_ON`, when nothing overrides it. -/
theorem overridePong_eq_testModeOn : overridePong pending env womAdvertised ackFlag = pongFlagTestModeOn ↔
    pending = pongFlagTestModeOn ∧ env.migration = .none ∧ env.collectShutdown = false ∧
      env.otaAborting = false := by
  constructor
  · intro h
    unfold overridePong at h
    cases hmigration : env.migration <;> cases hshutdown : env.collectShutdown <;>
      cases haborting : env.otaAborting <;> simp only [hmigration, hshutdown, haborting] at h <;>
      revert h <;> split_ifs <;>
      simp_all [pongFlagNormal, pongFlagTestModeOn, pongFlagMetadataRequest, pongFlagOtaSuppress,
        pongFlagSetChannel, pongFlagClearChannel, pongFlagShutdown, pongFlagOtaAbort]
  · rintro ⟨rfl, hmigration, hshutdown, haborting⟩
    unfold overridePong
    simp [hmigration, hshutdown, haborting, pongFlagNormal, pongFlagTestModeOn, pongFlagWomControl]

end Overrides

end SlimeReceiver
