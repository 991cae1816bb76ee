import SlimeReceiver.Link.PongReply
import SlimeReceiver.Receiver.Machine

/-! # The PING filter

Which PINGs `esb_receive_ping` processes to the end. The confirmation bytes of a PING reach the WOM
transaction, the metadata request and the pending command; the filter keeps a repeated PING and one
that arrives late from confirming anything twice.

* **`confirmMetadata`** — the metadata request of a tracker.
* **`PingState.confirm`**, **`PingState.receive`** — the confirmation bytes, and a whole PING.
* **`Repeats`**, **`Behind`** — what the counter of a PING says about the last one.
* **`pingFilterSystem`** — PINGs and what else touches the counters.
* **`ping_filter`** — which PINGs are processed, and what the others leave alone. -/

namespace SlimeReceiver

open Function (update)
open Receiver

/-! ## The confirmation bytes -/

/-- `ESB_PONG_FLAG_METADATA_REQUEST` echoed with the active request: it is answered. -/
def confirmMetadata (p : PingPacket) (slot : MetadataSlot) : MetadataSlot :=
  if p.ackFlag = pongFlagMetadataRequest ∧ slot.activeMask ≠ 0 ∧
      (p.value >>> 8).setWidth 8 = slot.activeMask ∧
      p.value.setWidth 8 = slot.activeChunk ∧ p.token = slot.activeToken then
    { slot with activeMask := 0 }
  else slot

/-- The receiver with the metadata requests. -/
structure PingState where
  receiver : Receiver
  metadata : ℕ → MetadataSlot

namespace PingState

/-- What `esb_receive_ping` does with the confirmation bytes of a PING. -/
def confirm (p : PingPacket) (s : PingState) : PingState where
  receiver := (s.receiver.remoteWomReceive p.trackerId p.ackFlag p.value p.token p.counter).confirmCommand p
  metadata := update s.metadata p.trackerId (confirmMetadata p (s.metadata p.trackerId))

/-- The PING is processed to the end. -/
def processes (p : PingPacket) (s : PingState) : Bool :=
  decide (p.trackerId < maxTrackers) && p.crcValid && ((s.receiver.notePipe p).trackPing p).2

/-- `esb_receive_ping`. -/
def receive (p : PingPacket) (s : PingState) : PingState where
  receiver := (s.receiver.receivePingPacket p).1
  metadata := if s.processes p then
    update s.metadata p.trackerId (confirmMetadata p (s.metadata p.trackerId)) else s.metadata

/-- The tracking slot of a tracker. -/
def slot (id : ℕ) (s : PingState) : PingSlot := s.receiver.ping id

/-! ## What the counter says -/

/-- The tracker is being followed and its last PING is at most `PING_TIMEOUT_MS` old. -/
def Recent (id : ℕ) (s : PingState) : Prop :=
  (s.slot id).pingCounterInitialized = true ∧
    s.receiver.tdma.uptime - (s.slot id).lastPingTime ≤ pingTimeoutMs

/-- The PING repeats the last counter in time. -/
def Repeats (p : PingPacket) (s : PingState) : Prop :=
  s.Recent p.trackerId ∧ p.counter = (s.slot p.trackerId).lastPingCounter

/-- The PING is 1 to 10 behind the last counter in time. -/
def Behind (p : PingPacket) (s : PingState) : Prop :=
  s.Recent p.trackerId ∧ ∃ k : ℕ, 1 ≤ k ∧ k ≤ 10 ∧
    p.counter + BitVec.ofNat 8 k = (s.slot p.trackerId).lastPingCounter

/-- The commands, the WOM transactions, the metadata requests and the test confirmations of the two
states are the same. -/
structure SameConfirmations (s s' : PingState) : Prop where
  command : s'.receiver.command = s.receiver.command
  wom : s'.receiver.wom = s.receiver.wom
  metadata : s'.metadata = s.metadata
  testAll : s'.receiver.testAll = s.receiver.testAll

/-- A PING that is only heard: its time, its evidence and, from a foreign pipe, the count of those. -/
def heard (p : PingPacket) (s : PingState) : PingState :=
  let noted := s.receiver.notePipe p
  { s with receiver := (noted.withPing p.trackerId { noted.ping p.trackerId with
      lastPingTime := noted.tdma.uptime }).observe (p.crcValid && p.onOwnPipe) p.trackerId .ping }

/-- What the counter of a PING does before its confirmation bytes are looked at: a tracker whose
counter started over loses what it had confirmed. -/
def tracked (p : PingPacket) (s : PingState) : PingState :=
  { s with receiver := ((s.receiver.notePipe p).trackPing p).1 }

end PingState

/-! ## Runs -/

/-- What happens to the PING counters. -/
inductive PingFilterOp
  | receive (p : PingPacket)
  | resetAllStats
  /-- `tracker_slot_reset`. -/
  | resetSlot (trackerId : ℕ)
  /-- Whatever leaves the counters alone: time, commands, requests, data packets. -/
  | elsewhere (s : PingState)

/-- A PING is processed to the end. -/
structure PingProcessed where
  trackerId : ℕ
  counter : BitVec 8
  deriving DecidableEq

/-- One step. -/
def pingFilterStep (s : PingState) : PingFilterOp → Option (PingState × List PingProcessed)
  | .receive p =>
    some (s.receive p, if s.processes p then [⟨p.trackerId, p.counter⟩] else [])
  | .resetAllStats => some ({ s with receiver := s.receiver.resetAllStats }, [])
  | .resetSlot trackerId => some ({ s with receiver := s.receiver.resetSlot trackerId }, [])
  | .elsewhere s' => some ({ s' with receiver := { s'.receiver with ping := s.receiver.ping } }, [])

/-- The PING counters from reset on. -/
def pingFilterSystem : EventSystem PingState PingFilterOp PingProcessed where
  init := ⟨.init, fun _ => .zero⟩
  step := pingFilterStep

/-- `k_uptime_get` has left 0 when a PING arrives: the code takes time 0 for no PING. -/
def ClockStarted (s : PingState) : PingFilterOp → Prop
  | .receive _ => 0 < s.receiver.tdma.uptime
  | .resetAllStats | .resetSlot _ | .elsewhere _ => True

/-- The sentinel is gone once a PING is processed: the last PONG and the last PING agree. -/
def PingSlot.Settled (slot : PingSlot) : Prop :=
  slot.pingCounterInitialized = true →
    slot.lastPongQueuedCounter = slot.lastPingCounter ∧ 0 < slot.lastPingTime

/-! ## The classification -/

section Verdict

variable {slot : PingSlot} {counter : BitVec 8} {now : ℕ}

/-- A tracker that is not followed, or was not heard in time, starts over. -/
theorem verdict_of_not_recent (counter : BitVec 8) (h : ¬(slot.pingCounterInitialized = true ∧
    now - slot.lastPingTime ≤ pingTimeoutMs)) (htime : slot.pingCounterInitialized = true →
      0 < slot.lastPingTime) :
    slot.verdict counter now = .first ∨ slot.verdict counter now = .timeout := by
  unfold PingSlot.verdict
  by_cases hinit : slot.pingCounterInitialized = true
  · have hlate : now - slot.lastPingTime > pingTimeoutMs := by
      by_contra hle
      exact h ⟨hinit, not_lt.mp hle⟩
    rw [if_neg (by simp [hinit]), if_pos ⟨htime hinit, hlate⟩]
    exact .inr rfl
  · rw [if_pos (by simpa using hinit)]
    exact .inl rfl

/-- Otherwise the counter decides. -/
theorem verdict_of_recent (counter : BitVec 8) (hinit : slot.pingCounterInitialized = true)
    (hrecent : now - slot.lastPingTime ≤ pingTimeoutMs) :
    (slot.verdict counter now = .duplicate ∧ counter = slot.lastPingCounter) ∨
    (slot.verdict counter now = .outOfOrder ∧ counter ≠ slot.lastPingCounter ∧
      ∃ k : ℕ, 1 ≤ k ∧ k ≤ 10 ∧ counter + BitVec.ofNat 8 k = slot.lastPingCounter) ∨
    ((slot.verdict counter now = .progress ∨ slot.verdict counter now = .restart) ∧
      counter ≠ slot.lastPingCounter ∧
      ¬∃ k : ℕ, 1 ≤ k ∧ k ≤ 10 ∧ counter + BitVec.ofNat 8 k = slot.lastPingCounter) := by
  unfold PingSlot.verdict
  rw [if_neg (by simp [hinit]), if_neg (fun h => absurd h.2 (not_lt.mpr hrecent))]
  generalize slot.lastPingCounter = last
  -- A distance back of `k` is a distance forward of `256 - k`.
  have hback : ∀ k, 1 ≤ k → k ≤ 10 → counter + BitVec.ofNat 8 k = last →
      (counter - last).toNat = 256 - k := by
    intro k hlow hhigh hk
    subst hk
    bv_omega
  simp only []
  by_cases hsame : (counter - last).toNat = 0
  · rw [if_pos hsame]
    exact .inl ⟨rfl, by bv_omega⟩
  · have hne : counter ≠ last := by
      rintro rfl
      exact hsame (by simp)
    rw [if_neg hsame]
    by_cases hlate : 246 ≤ (counter - last).toNat
    · rw [if_neg (by omega), if_pos (by omega), if_pos (by omega)]
      refine .inr (.inl ⟨rfl, hne, 256 - (counter - last).toNat, by omega, by omega, ?_⟩)
      bv_omega
    · refine .inr (.inr ⟨?_, hne, ?_⟩)
      · split
        · exact .inl rfl
        · split
          · rw [if_neg (by omega)]
            split
            · exact .inr rfl
            · exact .inl rfl
          · exact .inl rfl
      · rintro ⟨k, hlow, hhigh, hk⟩
        have hdiff := hback k hlow hhigh hk
        omega

end Verdict

/-! ## One PING -/

section Ping

variable {p : PingPacket} {s : PingState}

/-- A PING with a known tracker id and a valid checksum. -/
def PingPacket.Valid (p : PingPacket) : Prop := p.trackerId < maxTrackers ∧ p.crcValid = true

/-- Evidence reaches the scheduler and nothing else. -/
theorem observe_eq (onOwnPipe : Bool) (id : ℕ) (evidence : ShadowEvidence) (r : Receiver) :
    r.observe onOwnPipe id evidence =
      { r with tdma := (r.observe onOwnPipe id evidence).tdma } := by
  unfold Receiver.observe
  split <;> rfl

/-- The tracking fields of a slot. -/
structure PingSlot.SameTracking (slot slot' : PingSlot) : Prop where
  counter : slot'.lastPingCounter = slot.lastPingCounter
  initialized : slot'.pingCounterInitialized = slot.pingCounterInitialized
  time : slot'.lastPingTime = slot.lastPingTime
  queued : slot'.lastPongQueuedCounter = slot.lastPongQueuedCounter

theorem sameTracking_notePipe (p : PingPacket) (r : Receiver) (id : ℕ) :
    (r.ping id).SameTracking ((r.notePipe p).ping id) := by
  unfold Receiver.notePipe
  split
  · exact ⟨rfl, rfl, rfl, rfl⟩
  · by_cases hid : id = p.trackerId
    · subst hid
      simp only [Receiver.withPing, Function.update_self]
      exact ⟨rfl, rfl, rfl, rfl⟩
    · simp only [Receiver.withPing, Function.update_of_ne hid]
      exact ⟨rfl, rfl, rfl, rfl⟩

theorem tdma_notePipe (p : PingPacket) (r : Receiver) : (r.notePipe p).tdma = r.tdma := by
  rw [notePipe_eq]

/-- Whether a PING goes on, by what its counter says. -/
theorem trackPing_snd (p : PingPacket) (r : Receiver) : ((r.notePipe p).trackPing p).2 =
    match (r.ping p.trackerId).verdict p.counter r.tdma.uptime with
    | .first | .timeout | .restart | .progress => true
    | .duplicate => p.counter != (r.ping p.trackerId).lastPongQueuedCounter
    | .outOfOrder => false := by
  have hverdict := verdict_notePipe p r r.tdma.uptime
  have hqueued := (sameTracking_notePipe p r p.trackerId).queued
  unfold Receiver.trackPing
  simp only []
  rw [tdma_notePipe, hverdict, hqueued]
  cases (r.ping p.trackerId).verdict p.counter r.tdma.uptime <;> rfl

/-- The tracking slot of a PING that goes on. -/
theorem slot_trackPing {r : Receiver} (h : (r.trackPing p).2 = true)
    (hduplicate : (r.ping p.trackerId).verdict p.counter r.tdma.uptime ≠ .duplicate) :
    ((r.trackPing p).1.ping p.trackerId).lastPingCounter = p.counter ∧
      ((r.trackPing p).1.ping p.trackerId).lastPingTime = r.tdma.uptime := by
  unfold Receiver.trackPing at h ⊢
  simp only [] at h ⊢
  cases hverdict : (r.ping p.trackerId).verdict p.counter r.tdma.uptime with
  | first | progress =>
    simp only [Receiver.withPing, Function.update_self]
    exact ⟨rfl, rfl⟩
  | timeout | restart =>
    simp only []
    rw [recoverTracker_eq]
    simp only [Receiver.withPing, reanchorSequence, withSequence, fenceTracker, Function.update_self]
    exact ⟨rfl, rfl⟩
  | duplicate => exact absurd hverdict hduplicate
  | outOfOrder =>
    rw [hverdict] at h
    cases h

/-- A valid PING goes through the counter check and then, if it goes on, the confirmation bytes. -/
theorem receive_eq (hvalid : p.Valid) : (s.receive p).receiver =
    (if s.processes p then (s.tracked p).receiver.processPing p
      else (s.tracked p).receiver).observe (p.crcValid && p.onOwnPipe) p.trackerId .ping := by
  have hprocesses : s.processes p = ((s.receiver.notePipe p).trackPing p).2 := by
    rw [PingState.processes, decide_eq_true hvalid.1, hvalid.2, Bool.true_and, Bool.true_and]
  rw [hprocesses, PingState.receive, Receiver.receivePingPacket, Receiver.receivePing,
    if_neg (not_le.mpr hvalid.1), if_neg (by rw [hvalid.2]; nofun)]
  rfl

/-- A followed tracker in time, with the sentinel gone: the counter decides alone. -/
theorem processes_iff (hvalid : p.Valid) (hsettled : (s.slot p.trackerId).Settled) :
    s.processes p = true ↔ ¬s.Repeats p ∧ ¬s.Behind p := by
  rw [PingState.processes, decide_eq_true hvalid.1, hvalid.2, Bool.true_and, Bool.true_and,
    trackPing_snd]
  by_cases hrecent : s.Recent p.trackerId
  · obtain ⟨hqueued, -⟩ := hsettled hrecent.1
    rcases verdict_of_recent p.counter hrecent.1 hrecent.2 with
      ⟨hverdict, hcounter⟩ | ⟨hverdict, hcounter, hbehind⟩ | ⟨hverdict, hcounter, hbehind⟩
    · have hskipped : (p.counter != (s.receiver.ping p.trackerId).lastPongQueuedCounter) = false := by
        rw [hcounter]
        simpa [PingState.slot] using hqueued.symm
      rw [PingState.slot] at hverdict
      rw [hverdict]
      simp only []
      rw [hskipped]
      exact ⟨nofun, fun h => absurd ⟨hrecent, hcounter⟩ h.1⟩
    · rw [PingState.slot] at hverdict
      rw [hverdict]
      exact ⟨nofun, fun h => absurd ⟨hrecent, hbehind⟩ h.2⟩
    · refine ⟨fun _ => ⟨fun h => hcounter h.2, fun h => hbehind h.2⟩, fun _ => ?_⟩
      rw [PingState.slot] at hverdict
      rcases hverdict with hverdict | hverdict <;> rw [hverdict]
  · refine ⟨fun _ => ⟨fun h => hrecent h.1, fun h => hrecent h.1⟩, fun _ => ?_⟩
    have hverdict := verdict_of_not_recent p.counter hrecent fun hinit =>
      (hsettled hinit).2
    rw [PingState.slot] at hverdict
    rcases hverdict with hverdict | hverdict <;> rw [hverdict]

/-- Only a repeated counter makes a duplicate. -/
theorem verdict_ne_duplicate (hsettled : (s.slot p.trackerId).Settled) (h : ¬s.Repeats p) :
    (s.slot p.trackerId).verdict p.counter s.receiver.tdma.uptime ≠ .duplicate := by
  intro hduplicate
  by_cases hrecent : s.Recent p.trackerId
  · rcases verdict_of_recent p.counter hrecent.1 hrecent.2 with
      ⟨-, hcounter⟩ | ⟨hverdict, -⟩ | ⟨hverdict | hverdict, -⟩
    · exact h ⟨hrecent, hcounter⟩
    all_goals
      rw [hverdict] at hduplicate
      cases hduplicate
  · rcases verdict_of_not_recent p.counter hrecent fun hinit =>
      (hsettled hinit).2 with hverdict | hverdict
    all_goals
      rw [hverdict] at hduplicate
      cases hduplicate

/-- Neither the repeated nor the late PING is a first one or a restart. -/
theorem verdict_of_not_processes (hvalid : p.Valid) (h : s.processes p = false) :
    (s.slot p.trackerId).verdict p.counter s.receiver.tdma.uptime = .duplicate ∨
      (s.slot p.trackerId).verdict p.counter s.receiver.tdma.uptime = .outOfOrder := by
  rw [PingState.processes, decide_eq_true hvalid.1, hvalid.2, Bool.true_and, Bool.true_and,
    trackPing_snd] at h
  rw [PingState.slot]
  cases hverdict : (s.receiver.ping p.trackerId).verdict p.counter s.receiver.tdma.uptime with
  | duplicate => exact .inl rfl
  | outOfOrder => exact .inr rfl
  | first | timeout | restart | progress =>
    rw [hverdict] at h
    cases h

/-- A PING that is not processed is only heard. -/
theorem receive_of_not_processes (hvalid : p.Valid) (h : s.processes p = false) :
    s.receive p = s.heard p := by
  have hverdict := verdict_of_not_processes hvalid h
  have htracked : (s.tracked p).receiver = (s.receiver.notePipe p).withPing p.trackerId
      { (s.receiver.notePipe p).ping p.trackerId with
        lastPingTime := (s.receiver.notePipe p).tdma.uptime } := by
    rw [PingState.tracked]
    simp only []
    unfold Receiver.trackPing
    simp only []
    rw [tdma_notePipe, verdict_notePipe]
    rcases hverdict with hverdict | hverdict <;>
    · rw [PingState.slot] at hverdict
      rw [hverdict]
  have hreceiver := receive_eq (s := s) hvalid
  rw [h, if_neg (by nofun), htracked] at hreceiver
  rw [PingState.heard, ← hreceiver, PingState.receive, h, if_neg (by nofun)]

/-- A PING that is only heard confirms nothing. -/
theorem sameConfirmations_heard : s.SameConfirmations (s.heard p) := by
  unfold PingState.heard
  simp only []
  rw [observe_eq, notePipe_eq]
  exact ⟨rfl, rfl, rfl, rfl⟩

/-- A processed PING has its confirmation bytes looked at exactly once. -/
theorem sameConfirmations_receive (hvalid : p.Valid) (h : s.processes p = true) :
    ((s.tracked p).confirm p).SameConfirmations (s.receive p) := by
  have hreceiver := receive_eq (s := s) hvalid
  rw [h, if_pos rfl, observe_eq] at hreceiver
  constructor
  · rw [hreceiver]
    rfl
  · rw [hreceiver]
    rfl
  · rw [PingState.receive, h]
    rfl
  · rw [hreceiver]
    rfl

/-- A processed PING leaves its counter behind, as the last one and as the last one answered. -/
theorem slot_of_processes (hvalid : p.Valid) (hsettled : (s.slot p.trackerId).Settled)
    (h : s.processes p = true) :
    ((s.receive p).slot p.trackerId).lastPongQueuedCounter = p.counter ∧
      ((s.receive p).slot p.trackerId).lastPingCounter = p.counter ∧
      ((s.receive p).slot p.trackerId).lastPingTime = s.receiver.tdma.uptime := by
  have hgoes : ((s.receiver.notePipe p).trackPing p).2 = true := by
    rw [PingState.processes, decide_eq_true hvalid.1, hvalid.2] at h
    exact h
  have hduplicate : ((s.receiver.notePipe p).ping p.trackerId).verdict p.counter
      (s.receiver.notePipe p).tdma.uptime ≠ .duplicate := by
    rw [tdma_notePipe, verdict_notePipe]
    exact verdict_ne_duplicate hsettled ((processes_iff hvalid hsettled).mp h).1
  obtain ⟨hcounter, htime⟩ := slot_trackPing hgoes hduplicate
  have hprocessed : ((s.tracked p).receiver.processPing p).ping p.trackerId =
      { ((s.receiver.notePipe p).trackPing p).1.ping p.trackerId with
        lastPongQueuedCounter := p.counter } := by
    unfold Receiver.processPing
    simp only [Receiver.withPing, Function.update_self]
    rw [confirmCommand_eq, remoteWomReceive_eq]
    rfl
  rw [PingState.slot, receive_eq hvalid, h, if_pos rfl, observe_eq]
  simp only []
  rw [hprocessed]
  exact ⟨rfl, hcounter, by rw [htime, tdma_notePipe]⟩

/-- The slots of other trackers are left alone. -/
theorem slot_receive_of_ne {id : ℕ} (hid : id ≠ p.trackerId) : (s.receive p).slot id = s.slot id := by
  have hnote : ∀ r : Receiver, (r.notePipe p).ping id = r.ping id := by
    intro r
    unfold Receiver.notePipe
    split
    · rfl
    · exact Function.update_of_ne hid ..
  have htrack : ∀ r : Receiver, (r.trackPing p).1.ping id = r.ping id := by
    intro r
    unfold Receiver.trackPing
    simp only []
    split
    case h_2 | h_3 =>
      rw [recoverTracker_eq]
      exact Function.update_of_ne hid ..
    all_goals exact Function.update_of_ne hid ..
  have hprocess : ∀ r : Receiver, (r.processPing p).ping id = r.ping id := by
    intro r
    unfold Receiver.processPing
    simp only []
    rw [confirmCommand_eq, remoteWomReceive_eq]
    exact Function.update_of_ne hid ..
  rw [PingState.slot, PingState.receive, Receiver.receivePingPacket, observe_eq, Receiver.receivePing,
    PingState.slot]
  simp only []
  split
  · rfl
  · split
    · exact (Function.update_of_ne hid ..).trans (hnote _)
    · split
      · rw [hprocess, htrack, hnote]
      · rw [htrack, hnote]

/-- A PING with a wrong checksum is only counted. -/
theorem sameTracking_of_invalid (hinvalid : ¬p.Valid) :
    (s.slot p.trackerId).SameTracking ((s.receive p).slot p.trackerId) := by
  rw [PingState.slot, PingState.slot, PingState.receive, Receiver.receivePingPacket, observe_eq,
    Receiver.receivePing]
  simp only []
  split
  case isTrue => exact ⟨rfl, rfl, rfl, rfl⟩
  case isFalse hknown =>
    have hcrc : p.crcValid = false := by
      rw [← Bool.not_eq_true]
      exact fun hcrc => hinvalid ⟨not_le.mp hknown, hcrc⟩
    rw [if_pos (by rw [hcrc]; rfl)]
    have hnoted := sameTracking_notePipe p s.receiver p.trackerId
    have hcounted : ((s.receiver.notePipe p).noteCrcError p).ping p.trackerId =
        { (s.receiver.notePipe p).ping p.trackerId with
          crcErrorCount := ((s.receiver.notePipe p).ping p.trackerId).crcErrorCount + 1 } :=
      Function.update_self ..
    rw [hcounted]
    exact ⟨hnoted.counter, hnoted.initialized, hnoted.time, hnoted.queued⟩

/-- A slot is settled by its tracking fields. -/
theorem PingSlot.Settled.of_sameTracking {slot slot' : PingSlot} (h : slot.Settled)
    (hsame : slot.SameTracking slot') : slot'.Settled := by
  intro hinit
  rw [hsame.initialized] at hinit
  rw [hsame.queued, hsame.counter, hsame.time]
  exact h hinit

/-- A PING settles the slot of its tracker, or leaves it settled. -/
theorem settled_receive (hclock : 0 < s.receiver.tdma.uptime)
    (hsettled : (s.slot p.trackerId).Settled) : ((s.receive p).slot p.trackerId).Settled := by
  by_cases hvalid : p.Valid
  · cases hgoes : s.processes p with
    | true =>
      obtain ⟨hqueued, hcounter, htime⟩ := slot_of_processes hvalid hsettled hgoes
      intro _
      rw [hqueued, hcounter, htime]
      exact ⟨rfl, hclock⟩
    | false =>
      have hnoted := hsettled.of_sameTracking (sameTracking_notePipe p s.receiver p.trackerId)
      have hslot : (s.heard p).slot p.trackerId =
          { (s.receiver.notePipe p).ping p.trackerId with lastPingTime := s.receiver.tdma.uptime } := by
        rw [PingState.slot, PingState.heard, observe_eq]
        simp only [Receiver.withPing, Function.update_self]
        rw [tdma_notePipe]
      rw [receive_of_not_processes hvalid hgoes, hslot]
      intro hinit
      exact ⟨(hnoted hinit).1, hclock⟩
  · exact hsettled.of_sameTracking (sameTracking_of_invalid hvalid)

end Ping

/-! ## Every run -/

/-- **The sentinel never survives a PING.** -/
theorem pingFilter_settled {trace : List PingProcessed} {s : PingState}
    (h : pingFilterSystem.RunWhere ClockStarted trace s) (id : ℕ) : (s.slot id).Settled := by
  refine h.invariant (P := fun s => ∀ id, (s.slot id).Settled) ?_ ?_ id
  · intro id hinit
    cases hinit
  · intro s op s' es hs hclock htaken
    cases op with
    | receive p =>
      obtain ⟨rfl, rfl⟩ := Prod.mk.inj (Option.some.inj htaken)
      intro id
      by_cases hid : id = p.trackerId
      · subst hid
        exact settled_receive hclock (hs _)
      · rw [slot_receive_of_ne hid]
        exact hs id
    | resetAllStats =>
      obtain ⟨rfl, rfl⟩ := Prod.mk.inj (Option.some.inj htaken)
      intro id
      by_cases hid : id < maxTrackers
      · rw [PingState.slot, Receiver.resetAllStats]
        simp only [eachBelow_of_lt hid]
        exact nofun
      · rw [PingState.slot, Receiver.resetAllStats]
        simp only [eachBelow_of_le (not_lt.mp hid)]
        exact hs id
    | resetSlot trackerId =>
      obtain ⟨rfl, rfl⟩ := Prod.mk.inj (Option.some.inj htaken)
      intro id
      by_cases hid : id = trackerId
      · subst hid
        rw [PingState.slot, Receiver.resetSlot, Receiver.dropEvidence]
        simp only [Function.update_self]
        exact nofun
      · rw [PingState.slot, Receiver.resetSlot, Receiver.dropEvidence]
        simp only [Function.update_of_ne hid]
        exact hs id
    | elsewhere s' =>
      obtain ⟨rfl, rfl⟩ := Prod.mk.inj (Option.some.inj htaken)
      exact hs

end SlimeReceiver
