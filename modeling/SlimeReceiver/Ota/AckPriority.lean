import SlimeReceiver.Ota.AbortFence

/-! # What an ACK of the relay carries

A tombstone, a pending command and the next DATA packet compete for one ACK. The relay measures the ten
seconds of a tombstone and of a command by a 32-bit tick counter; here they are measured by the clock
itself, beside the relay.

* **`ClockedRelay`** — the relay and the clock, with the tombstones and commands as they were asked for.
* **`TombstoneMove`**, **`CommandMove`** — what a step does to the tombstone and the command of a tracker.
* **`AckLaw`** — what an ACK has to carry; **`InTime`** — the 32-bit readings suffice for it.
* **`ack_priority`** — the law holds of an ACK exactly when they do. -/

namespace SlimeReceiver.Ota

open Function (update)
open OtaWorld

/-! ## The clock -/

/-- Ten seconds at 32768 Hz. -/
def tenSeconds : ℕ := 327680

/-- The relay in time. -/
structure ClockedRelay where
  world : OtaWorld
  /-- The ticks since reset. -/
  clock : ℕ
  /-- When the tombstone of a tracker expires; none when there is none, or a BEGIN has taken it back. -/
  tombstone : ℕ → Option ℕ
  /-- The command a tracker has yet to confirm, and when it was queued. -/
  command : ℕ → Option (List (BitVec 8) × ℕ)

/-- The steps. -/
inductive ClockedOp
  | tick (ticks : ℕ)
  /-- A step of the relay at the current time; an answer to a PING reads the clock again after a delay. -/
  | step (op : OtaOp) (delay : ℕ)
  /-- `esb_ota_relay_abort_pending`: the PING branch and the other users of the radio operation look at a
  tombstone. -/
  | look (id : ℕ)

/-- A step reads the current time. -/
def OtaOp.ReadsAt (clock delay : ℕ) : OtaOp → Prop
  | .run _ env => env.now = stamp clock
  | .ack _ now _ _ => now = stamp clock
  | .pong ping => ping.now = stamp clock ∧ ping.later = stamp (clock + delay)
  | _ => True

instance (clock delay : ℕ) : (op : OtaOp) → Decidable (op.ReadsAt clock delay)
  | .run _ env => inferInstanceAs (Decidable (env.now = stamp clock))
  | .ack _ now _ _ => inferInstanceAs (Decidable (now = stamp clock))
  | .pong ping =>
    inferInstanceAs (Decidable (ping.now = stamp clock ∧ ping.later = stamp (clock + delay)))
  | .call _ _ | .remote _ _ | .stored _ | .radio _ | .fault => inferInstanceAs (Decidable True)

namespace ClockedRelay

/-- The tombstones after an entry of a call: an abort sets those of its targets, an accepted BEGIN and an
unpairing take theirs back. -/
def noteTombstone (c : ClockedRelay) : Micro → ℕ → Option ℕ
  | .cancel id => update c.tombstone id (some (c.clock + tenSeconds))
  | .cancelAll => fun id =>
    if id ∈ c.world.relay.targets then some (c.clock + tenSeconds) else c.tombstone id
  | .lock report acquired =>
    match c.world.relay.admitTarget report (stamp c.clock) acquired with
    | .admitted _ _ => update c.tombstone report.trackerId none
    | _ => c.tombstone
  | .forget id => update c.tombstone id none
  | _ => c.tombstone

/-- The commands after an entry of a call: BEGIN, VERIFY and ACTIVATE queue one, the STATUS that confirms it
and the end of a session take it back. -/
def noteCommand (c : ClockedRelay) : Micro → ℕ → Option (List (BitVec 8) × ℕ)
  | .lock report acquired =>
    match c.world.relay.admitTarget report (stamp c.clock) acquired with
    | .admitted first _ =>
      update (if first then fun _ => none else c.command) report.trackerId (some (report.beginPacket, c.clock))
    | _ => c.command
  | .queue verify report =>
    if c.world.relay.active = true ∧ report.trackerId < maxTrackers ∧
        (c.world.relay.tracker report.trackerId).participating = true then
      update c.command report.trackerId (some (report.commandPacket verify, c.clock))
    else c.command
  | .cancelAll => fun _ => none
  | .forget id => update c.command id none
  | .status packet =>
    if (c.command (packet.getD 1 0).toNat).any
        (fun queued => confirms (queued.1.getD 0 0) (packet.getD 2 0)) = true then
      update c.command (packet.getD 1 0).toNat none
    else c.command
  | _ => c.command

/-- The entry a step takes. -/
def entry (c : ClockedRelay) : OtaOp → Option Micro
  | .run thread _ => (c.world.threads thread).head?
  | _ => none

/-- What a step leaves. -/
def after (c : ClockedRelay) (op : OtaOp) (delay : ℕ) (world : OtaWorld) : ClockedRelay where
  world := world
  clock := c.clock + delay
  tombstone := ((c.entry op).map c.noteTombstone).getD c.tombstone
  command := ((c.entry op).map c.noteCommand).getD c.command

/-- A look at a tombstone. -/
def look (c : ClockedRelay) (id : ℕ) : ClockedRelay :=
  { c with world := { c.world with relay := c.world.relay.expireAbort id (stamp c.clock) } }

end ClockedRelay

/-- One step. -/
def clockedStep (c : ClockedRelay) : ClockedOp → Option (ClockedRelay × List OtaEvent)
  | .tick ticks => some ({ c with clock := c.clock + ticks }, [])
  | .step op delay =>
    if op.ReadsAt c.clock delay then
      (otaStep c.world op).map fun next => (c.after op delay next.1, next.2)
    else none
  | .look id => some (c.look id, [])

/-- The relay in time, from its reset. -/
def clockedRelay : EventSystem ClockedRelay ClockedOp OtaEvent where
  init := ⟨.init, 0, fun _ => none, fun _ => none⟩
  step := clockedStep

/-! ## Tombstones -/

/-- What a step does to the tombstone of a tracker. -/
inductive TombstoneMove (clock id : ℕ) (r r' : Relay) (due due' : Option ℕ) : Prop
  | kept : r'.abortValid id = r.abortValid id → r'.abortExpiryTicks id = r.abortExpiryTicks id →
      due' = due → TombstoneMove clock id r r' due due'
  | looked : r'.abortValid id = r.abortPending id (stamp clock) →
      r'.abortExpiryTicks id = r.abortExpiryTicks id → due' = due → TombstoneMove clock id r r' due due'
  | set : r'.abortValid id = true → r'.abortExpiryTicks id = stamp clock + tenSecondsTicks →
      due' = some (clock + tenSeconds) → TombstoneMove clock id r r' due due'
  | cleared : r'.abortValid id = false → due' = none → TombstoneMove clock id r r' due due'

/-- The flag of a tombstone stays set while its time runs, and its expiry is read from that time. -/
structure TombstoneKept (clock id : ℕ) (r : Relay) (due : Option ℕ) : Prop where
  set : r.abortValid id = true →
    ∃ expiry, due = some expiry ∧ r.abortExpiryTicks id = stamp expiry ∧ expiry ≤ clock + tenSeconds
  clear : r.abortValid id = false → ∀ expiry, due = some expiry → expiry ≤ clock

section Tombstones

variable {clock id : ℕ} {r r' : Relay} {due due' : Option ℕ}

theorem TombstoneKept.mono (h : TombstoneKept clock id r due) {later : ℕ} (hlater : clock ≤ later) :
    TombstoneKept later id r due where
  set hset := by
    obtain ⟨expiry, hdue, hticks, hbound⟩ := h.set hset
    exact ⟨expiry, hdue, hticks, by omega⟩
  clear hclear expiry hdue := (h.clear hclear expiry hdue).trans hlater

/-- The signed distance calls an expired tombstone pending again in the second half of its range. -/
theorem TombstoneKept.pending_iff (h : TombstoneKept clock id r due) {expiry : ℕ} (hdue : due = some expiry) :
    r.abortPending id (stamp clock) = true ↔
      r.abortValid id = true ∧ (clock < expiry ∨ 2 ^ 31 < (clock - expiry) % 2 ^ 32) := by
  rw [Relay.abortPending, Bool.and_eq_true, decide_eq_true_eq]
  refine and_congr_right fun hvalid => ?_
  obtain ⟨expiry', hdue', hticks, hbound⟩ := h.set hvalid
  obtain rfl : expiry = expiry' := Option.some.inj (hdue.symm.trans hdue')
  unfold tenSeconds at hbound
  rw [hticks, signedDistance_stamp_eq_bmod, Int.bmod_def]
  split <;> omega

/-- A tombstone whose time runs is pending. -/
theorem TombstoneKept.pending (h : TombstoneKept clock id r due) {expiry : ℕ} (hdue : due = some expiry)
    (hrunning : clock < expiry) : r.abortPending id (stamp clock) = true := by
  refine (h.pending_iff hdue).mpr ⟨?_, .inl hrunning⟩
  by_contra hvalid
  have hover := h.clear (Bool.eq_false_iff.mpr hvalid) expiry hdue
  omega

/-- A tombstone that is set but not pending is over. -/
theorem TombstoneKept.of_not_pending (h : TombstoneKept clock id r due)
    (hpending : r.abortPending id (stamp clock) = false) {expiry : ℕ} (hdue : due = some expiry) :
    expiry ≤ clock := by
  by_contra hrunning
  rw [h.pending hdue (Nat.lt_of_not_le hrunning)] at hpending
  cases hpending

/-- Only the tombstones matter. -/
theorem TombstoneMove.congr (h : TombstoneMove clock id r r' due due') {r'' : Relay}
    (hvalid : r''.abortValid = r'.abortValid) (hticks : r''.abortExpiryTicks = r'.abortExpiryTicks) :
    TombstoneMove clock id r r'' due due' := by
  cases h with
  | kept hvalid' hticks' hdue =>
    exact .kept ((congrFun hvalid id).trans hvalid') ((congrFun hticks id).trans hticks') hdue
  | looked hvalid' hticks' hdue =>
    exact .looked ((congrFun hvalid id).trans hvalid') ((congrFun hticks id).trans hticks') hdue
  | set hvalid' hticks' hdue =>
    exact .set ((congrFun hvalid id).trans hvalid') ((congrFun hticks id).trans hticks') hdue
  | cleared hvalid' hdue => exact .cleared ((congrFun hvalid id).trans hvalid') hdue

theorem TombstoneKept.move (h : TombstoneKept clock id r due)
    (hmove : TombstoneMove clock id r r' due due') : TombstoneKept clock id r' due' := by
  cases hmove with
  | kept hvalid hticks hdue =>
    subst hdue
    exact ⟨fun hset => hticks ▸ h.set (hvalid ▸ hset), fun hclear => h.clear (hvalid ▸ hclear)⟩
  | looked hvalid hticks hdue =>
    subst hdue
    refine ⟨fun hset => ?_, fun hclear expiry hdue => ?_⟩
    · rw [hvalid, Relay.abortPending, Bool.and_eq_true] at hset
      exact hticks ▸ h.set hset.1
    · exact h.of_not_pending (hvalid ▸ hclear) hdue
  | set hvalid hticks hdue =>
    refine ⟨fun _ => ⟨clock + tenSeconds, hdue, ?_, le_rfl⟩, fun hclear => ?_⟩
    · rw [hticks, stamp_add]
      rfl
    · rw [hvalid] at hclear
      cases hclear
  | cleared hvalid hdue =>
    refine ⟨fun hset => ?_, fun _ expiry hsome => ?_⟩
    · rw [hvalid] at hset
      cases hset
    · rw [hdue] at hsome
      cases hsome

end Tombstones

/-! ## Commands -/

/-- The pending command of a tracker: its type, its packet and when it was queued. -/
def OtaPerTracker.pending (t : OtaPerTracker) : BitVec 8 × List (BitVec 8) × BitVec 32 :=
  (t.pendingCmdType, t.pendingCmdData, t.pendingCmdSetTicks)

/-- What a step does to the command of a tracker. -/
inductive CommandMove (clock : ℕ) (t t' : OtaPerTracker) (queued queued' : Option (List (BitVec 8) × ℕ)) :
    Prop
  | kept : t'.pending = t.pending → queued' = queued → CommandMove clock t t' queued queued'
  /-- Ten seconds are over. -/
  | lapsed : t'.pendingCmdType = 0 → queued' = queued →
      tenSecondsTicks < stamp clock - t.pendingCmdSetTicks → CommandMove clock t t' queued queued'
  | dropped : t'.pendingCmdType = 0 → queued' = none → CommandMove clock t t' queued queued'
  | queued (packet : List (BitVec 8)) : packet.getD 0 0 ≠ 0 →
      t'.pending = (packet.getD 0 0, packet, stamp clock) → queued' = some (packet, clock) →
      CommandMove clock t t' queued queued'

/-- A command that is pending is the one queued last, and no command is pending only when that one is
confirmed or its ten seconds are over. -/
structure CommandKept (clock : ℕ) (t : OtaPerTracker) (queued : Option (List (BitVec 8) × ℕ)) : Prop where
  set : t.pendingCmdType ≠ 0 → ∃ since, queued = some (t.pendingCmdData, since) ∧
    t.pendingCmdType = t.pendingCmdData.getD 0 0 ∧ t.pendingCmdSetTicks = stamp since ∧ since ≤ clock
  clear : t.pendingCmdType = 0 → ∀ packet since, queued = some (packet, since) → since + tenSeconds < clock

section Commands

variable {clock since : ℕ} {t t' : OtaPerTracker} {queued queued' : Option (List (BitVec 8) × ℕ)}

/-- The time since a command, as the relay reads it. -/
theorem lapsed_iff (h : since ≤ clock) :
    tenSecondsTicks < stamp clock - stamp since ↔ tenSeconds < (clock - since) % 2 ^ 32 := by
  have helapsed := elapsed_stamp clock since
  have hlt : tenSecondsTicks < stamp clock - stamp since ↔ tenSeconds < elapsed (stamp clock) (stamp since) :=
    BitVec.lt_def
  rw [hlt]
  omega

theorem CommandKept.mono (h : CommandKept clock t queued) {later : ℕ} (hlater : clock ≤ later) :
    CommandKept later t queued where
  set hset := by
    obtain ⟨since, hqueued, htype, hticks, hsince⟩ := h.set hset
    exact ⟨since, hqueued, htype, hticks, hsince.trans hlater⟩
  clear hclear packet since hqueued := (h.clear hclear packet since hqueued).trans_le hlater

/-- Only these fields matter. -/
theorem CommandKept.congr (h : CommandKept clock t queued) (hpending : t'.pending = t.pending) :
    CommandKept clock t' queued := by
  obtain ⟨htype, hdata, hticks⟩ : t'.pendingCmdType = t.pendingCmdType ∧
      t'.pendingCmdData = t.pendingCmdData ∧ t'.pendingCmdSetTicks = t.pendingCmdSetTicks := by
    simpa [OtaPerTracker.pending] using hpending
  refine ⟨fun hset => ?_, fun hclear => h.clear (htype ▸ hclear)⟩
  rw [htype, hdata, hticks]
  exact h.set (htype ▸ hset)

theorem CommandKept.move (h : CommandKept clock t queued) (hmove : CommandMove clock t t' queued queued') :
    CommandKept clock t' queued' := by
  cases hmove with
  | kept hpending hqueued =>
    subst hqueued
    exact h.congr hpending
  | lapsed htype hqueued hlapsed =>
    subst hqueued
    refine ⟨fun hset => absurd htype hset, fun _ packet since hsome => ?_⟩
    by_cases hset : t.pendingCmdType = 0
    · exact h.clear hset packet since hsome
    · obtain ⟨since', hsome', -, hticks, hsince⟩ := h.set hset
      obtain ⟨-, rfl⟩ := Prod.mk.inj (Option.some.inj (hsome.symm.trans hsome'))
      rw [hticks, lapsed_iff hsince] at hlapsed
      omega
  | dropped htype hqueued =>
    refine ⟨fun hset => absurd htype hset, fun _ packet since hsome => ?_⟩
    rw [hqueued] at hsome
    cases hsome
  | queued packet hpacket hpending hqueued =>
    obtain ⟨htype, hdata, hticks⟩ : t'.pendingCmdType = packet.getD 0 0 ∧ t'.pendingCmdData = packet ∧
        t'.pendingCmdSetTicks = stamp clock := by
      simpa only [OtaPerTracker.pending, Prod.mk.injEq] using hpending
    refine ⟨fun _ => ⟨clock, ?_, ?_, hticks, le_rfl⟩, fun hclear => absurd (htype ▸ hclear) hpacket⟩
    · rw [hqueued, hdata]
    · rw [htype, hdata]

/-- Without a new command none becomes pending. -/
theorem CommandMove.stays (h : CommandMove clock t t' queued queued') (hkept : CommandKept clock t queued)
    (hnone : t.pendingCmdType = 0) (hsame : queued' = queued) : t'.pendingCmdType = 0 := by
  cases h with
  | kept hpending _ => exact (Prod.mk.inj hpending).1.trans hnone
  | lapsed htype _ _ => exact htype
  | dropped htype _ => exact htype
  | queued packet _ _ hqueued =>
    have hover := hkept.clear hnone packet clock (hsame.symm.trans hqueued)
    omega

end Commands

/-! ## One ACK -/

section Acks

/-- DATA goes before a command that waits for it. -/
def Relay.Defers (id : ℕ) (seq : Option (BitVec 16)) (r : Relay) : Prop :=
  (r.tracker id).pendingCmdType ≠ esbOtaBeginType ∧ seq.any (fun seq => r.hasData seq) = true

/-- The answers to a participant. -/
inductive TargetAnswer (id : ℕ) (now : BitVec 32) (seq : Option (BitVec 16)) (r : Relay) :
    Relay × Option Ack → Prop
  | data : ((r.tracker id).pendingCmdType = 0 ∨ (r.tracker id).pendingCmdType ≠ 0 ∧
        ¬ tenSecondsTicks < now - (r.tracker id).pendingCmdSetTicks ∧ r.Defers id seq) →
      TargetAnswer id now seq r (r.fillData id seq)
  | lapsed : (r.tracker id).pendingCmdType ≠ 0 → tenSecondsTicks < now - (r.tracker id).pendingCmdSetTicks →
      TargetAnswer id now seq r
        ({ r with tracker := update r.tracker id { r.tracker id with pendingCmdType := 0 } }, none)
  | command : (r.tracker id).pendingCmdType ≠ 0 →
      ¬ tenSecondsTicks < now - (r.tracker id).pendingCmdSetTicks → ¬ r.Defers id seq →
      TargetAnswer id now seq r
        ({ r with tracker := update r.tracker id { r.tracker id with
            pendingCmdSendCount := (r.tracker id).pendingCmdSendCount + 1 } },
          some (.command (r.tracker id).pendingCmdData))

/-- An answer to a participant leaves the tombstones alone. -/
theorem TargetAnswer.tombstones {id : ℕ} {now : BitVec 32} {seq : Option (BitVec 16)} {r : Relay}
    {filled : Relay × Option Ack} (h : TargetAnswer id now seq r filled) :
    filled.1.abortValid = r.abortValid ∧ filled.1.abortExpiryTicks = r.abortExpiryTicks := by
  cases h with
  | data => cases seq <;> exact ⟨rfl, rfl⟩
  | lapsed | command => exact ⟨rfl, rfl⟩

theorem fillTarget_answer (id : ℕ) (now : BitVec 32) (seq : Option (BitVec 16)) (r : Relay) :
    TargetAnswer id now seq r (r.fillTarget id now seq) := by
  simp only [Relay.fillTarget]
  split
  case isTrue hnone => exact .data (.inl hnone)
  case isFalse hsome =>
    split
    case isTrue hlapsed => exact .lapsed hsome hlapsed
    case isFalse hrunning =>
      split
      case isTrue hdefers => exact .data (.inr ⟨hsome, hrunning, hdefers⟩)
      case isFalse hsends => exact .command hsome hrunning hsends

/-- The answers to a tracker. -/
inductive Answer (id : ℕ) (now stampTicks : BitVec 32) (rx : Option (List (BitVec 8))) (r : Relay) :
    Relay × Option Ack → Prop
  | unknown : maxTrackers ≤ id → Answer id now stampTicks rx r (r, none)
  | abort : id < maxTrackers → r.abortPending id now = true →
      Answer id now stampTicks rx r (r, some (.abort (abortPong id stampTicks)))
  | target {filled : Relay × Option Ack} : id < maxTrackers → r.abortPending id now = false →
      r.active = true ∧ (r.tracker id).participating = true →
      TargetAnswer id now (statusSeq rx) (r.expireAbort id now) filled →
      Answer id now stampTicks rx r filled
  | other : id < maxTrackers → r.abortPending id now = false →
      ¬ (r.active = true ∧ (r.tracker id).participating = true) →
      Answer id now stampTicks rx r (r.expireAbort id now, none)

theorem fillAck_answer (id : ℕ) (now stampTicks : BitVec 32) (rx : Option (List (BitVec 8))) (r : Relay) :
    Answer id now stampTicks rx r (r.fillAck id now stampTicks rx) := by
  simp only [Relay.fillAck]
  split
  case isTrue hunknown => exact .unknown hunknown
  case isFalse hknown =>
    rw [Nat.not_le] at hknown
    split
    case isTrue hpending => exact .abort hknown hpending
    case isFalse hpending =>
      rw [Bool.not_eq_true] at hpending
      split
      case isTrue hserved => exact .target hknown hpending hserved (fillTarget_answer _ _ _ _)
      case isFalse hserved => exact .other hknown hpending hserved

end Acks

/-! ## The law -/

namespace ClockedRelay

variable (c : ClockedRelay) (id : ℕ) (rx : Option (List (BitVec 8)))

/-- The ten seconds of a tombstone run. -/
def Aborting : Prop := ∃ expiry, c.tombstone id = some expiry ∧ c.clock < expiry

/-- A participant of an active session. -/
def Serves : Prop := c.world.relay.active = true ∧ (c.world.relay.tracker id).participating = true

/-- The ten seconds of a command run. -/
def InForce (packet : List (BitVec 8)) : Prop :=
  ∃ since, c.command id = some (packet, since) ∧ c.clock ≤ since + tenSeconds

/-- What an ACK has to carry, and leaves behind. -/
structure AckLaw (filled : Relay × Option Ack) : Prop where
  abort : (∃ bytes, filled.2 = some (.abort bytes)) ↔ id < maxTrackers ∧ c.Aborting id
  pong : ∀ bytes, filled.2 = some (.abort bytes) → bytes.getD 0 0 = esbPongType ∧
    bytes.getD 1 0 = BitVec.ofNat 8 id ∧ bytes.getD 7 0 = esbPongFlagOtaAbort
  served : filled.2 ≠ none → ¬ c.Aborting id → id < maxTrackers ∧ c.Serves id
  begin : id < maxTrackers → ¬ c.Aborting id → c.Serves id → ∀ packet, c.InForce id packet →
    packet.getD 0 0 = esbOtaBeginType → filled.2 = some (.command packet)
  command : ∀ packet, filled.2 = some (.command packet) → c.InForce id packet
  /-- DATA goes before VERIFY and ACTIVATE. -/
  deferred : ∀ packet seq, filled.2 = some (.command packet) → packet.getD 0 0 ≠ esbOtaBeginType →
    statusSeq rx = some seq → c.world.relay.hasData seq = false
  /-- Once a command is over only the ACK that drops it comes between a STATUS and its DATA. -/
  resumes : id < maxTrackers → ¬ c.Aborting id → c.Serves id → (∀ packet, ¬ c.InForce id packet) →
    ∀ seq, statusSeq rx = some seq → c.world.relay.hasData seq = true →
      (∃ bytes, filled.2 = some (.data seq bytes)) ∨
        (c.world.relay.tracker id).pendingCmdType ≠ 0 ∧ (filled.1.tracker id).pendingCmdType = 0

/-- The tick counter tells whether a tombstone and a command are over: no tombstone that is still set is
looked at in the second half of its range after the expiry, and no command is about to be sent in the ten
seconds after a whole range. -/
structure InTime : Prop where
  tombstone : id < maxTrackers → c.world.relay.abortValid id = true → ∀ expiry, c.tombstone id = some expiry →
    expiry ≤ c.clock → (c.clock - expiry) % 2 ^ 32 ≤ 2 ^ 31
  command : id < maxTrackers → ¬ c.Aborting id → c.Serves id → (c.world.relay.tracker id).pendingCmdType ≠ 0 →
    ¬ c.world.relay.Defers id (statusSeq rx) → ∀ packet since, c.command id = some (packet, since) →
      since + tenSeconds < c.clock → tenSeconds < (c.clock - since) % 2 ^ 32

end ClockedRelay

section Law

variable {c : ClockedRelay} {id : ℕ} {rx : Option (List (BitVec 8))} {stampTicks : BitVec 32}

open ClockedRelay

/-- DATA answers a STATUS whose packet is there, and nothing else. -/
theorem fillData_answer (id : ℕ) (seq : Option (BitVec 16)) (r : Relay) :
    ((r.fillData id seq).2 = none ∧ ∀ s, seq = some s → r.hasData s = false) ∨
      ∃ s bytes, seq = some s ∧ r.hasData s = true ∧ (r.fillData id seq).2 = some (.data s bytes) := by
  cases seq with
  | none => exact .inl ⟨rfl, fun s hs => by cases hs⟩
  | some seq =>
    cases hdata : r.hasData seq with
    | false =>
      exact .inl ⟨if_neg (Bool.eq_false_iff.mp hdata), fun s hs => Option.some.inj hs ▸ hdata⟩
    | true => exact .inr ⟨seq, _, rfl, hdata, if_pos hdata⟩

/-- A command that is pending and not yet over is in force, if its age is read in time. -/
theorem inForce_of_running (hcommand : CommandKept c.clock (c.world.relay.tracker id) (c.command id))
    (hsome : (c.world.relay.tracker id).pendingCmdType ≠ 0)
    (hrunning : ¬ tenSecondsTicks < stamp c.clock - (c.world.relay.tracker id).pendingCmdSetTicks)
    (hintime : ∀ packet since, c.command id = some (packet, since) → since + tenSeconds < c.clock →
      tenSeconds < (c.clock - since) % 2 ^ 32) :
    c.InForce id (c.world.relay.tracker id).pendingCmdData := by
  obtain ⟨since, hqueued, -, hticks, hsince⟩ := hcommand.set hsome
  rw [hticks, lapsed_iff hsince] at hrunning
  refine ⟨since, hqueued, ?_⟩
  by_contra hover
  exact hrunning (hintime _ since hqueued (Nat.lt_of_not_le hover))

/-- A command that is over is not in force. -/
theorem not_inForce_of_lapsed (hcommand : CommandKept c.clock (c.world.relay.tracker id) (c.command id))
    (hlapsed : (c.world.relay.tracker id).pendingCmdType = 0 ∨
      tenSecondsTicks < stamp c.clock - (c.world.relay.tracker id).pendingCmdSetTicks)
    (packet : List (BitVec 8)) : ¬ c.InForce id packet := by
  rintro ⟨since, hqueued, hrunning⟩
  by_cases hnone : (c.world.relay.tracker id).pendingCmdType = 0
  · have hover := hcommand.clear hnone packet since hqueued
    omega
  · obtain ⟨since', hqueued', -, hticks, hsince⟩ := hcommand.set hnone
    obtain ⟨-, rfl⟩ := Prod.mk.inj (Option.some.inj (hqueued.symm.trans hqueued'))
    have hmod := hlapsed.resolve_left hnone
    rw [hticks, lapsed_iff hsince] at hmod
    omega

/-- In time, a tombstone is pending while its ten seconds run. -/
theorem pending_iff_aborting (h : TombstoneKept c.clock id c.world.relay (c.tombstone id))
    (hintime : c.world.relay.abortValid id = true → ∀ expiry, c.tombstone id = some expiry →
      expiry ≤ c.clock → (c.clock - expiry) % 2 ^ 32 ≤ 2 ^ 31) :
    c.world.relay.abortPending id (stamp c.clock) = true ↔ c.Aborting id := by
  constructor
  · intro hpending
    have hvalid : c.world.relay.abortValid id = true := by
      rw [Relay.abortPending, Bool.and_eq_true] at hpending
      exact hpending.1
    obtain ⟨expiry, hdue, -, -⟩ := h.set hvalid
    refine ⟨expiry, hdue, ?_⟩
    by_contra hover
    have hlate := ((h.pending_iff hdue).mp hpending).2.resolve_left hover
    have hearly := hintime hvalid expiry hdue (Nat.le_of_not_lt hover)
    omega
  · rintro ⟨expiry, hdue, hrunning⟩
    exact h.pending hdue hrunning

/-- A BEGIN in force is pending, it is not over, and it waits for nothing. -/
theorem begin_pending (hcommand : CommandKept c.clock (c.world.relay.tracker id) (c.command id))
    {packet : List (BitVec 8)} (hforce : c.InForce id packet) (hhead : packet.getD 0 0 = esbOtaBeginType) :
    (c.world.relay.tracker id).pendingCmdType = esbOtaBeginType ∧
      (c.world.relay.tracker id).pendingCmdData = packet ∧
      ¬ tenSecondsTicks < stamp c.clock - (c.world.relay.tracker id).pendingCmdSetTicks := by
  have hrunning := fun hlapsed => not_inForce_of_lapsed hcommand hlapsed packet hforce
  rw [imp_false, not_or] at hrunning
  obtain ⟨since, hqueued, -⟩ := hforce
  obtain ⟨since', hqueued', htype, -, -⟩ := hcommand.set hrunning.1
  obtain ⟨hpacket, -⟩ := Prod.mk.inj (Option.some.inj (hqueued.symm.trans hqueued'))
  exact ⟨htype.trans (hpacket ▸ hhead), hpacket.symm, hrunning.2⟩

/-- An ACK without a command keeps the law if it does not withhold what is due. -/
theorem ackLaw_of_data {filled : Relay × Option Ack} (haborting : id < maxTrackers → ¬ c.Aborting id)
    (hdata : ∀ ack, filled.2 = some ack → id < maxTrackers ∧ c.Serves id ∧ ∃ seq bytes, ack = .data seq bytes)
    (hbegin : id < maxTrackers → c.Serves id → ∀ packet, c.InForce id packet →
      packet.getD 0 0 ≠ esbOtaBeginType)
    (hresumes : id < maxTrackers → c.Serves id → ∀ seq, statusSeq rx = some seq →
      c.world.relay.hasData seq = true → (∃ bytes, filled.2 = some (.data seq bytes)) ∨
        (c.world.relay.tracker id).pendingCmdType ≠ 0 ∧ (filled.1.tracker id).pendingCmdType = 0) :
    c.AckLaw id rx filled where
  abort := by
    refine ⟨fun ⟨bytes, hbytes⟩ => ?_, fun h => absurd h.2 (haborting h.1)⟩
    obtain ⟨-, -, seq, data, heq⟩ := hdata _ hbytes
    cases heq
  pong bytes hbytes := by
    obtain ⟨-, -, seq, data, heq⟩ := hdata _ hbytes
    cases heq
  served hsome _ := by
    obtain ⟨ack, hack⟩ := Option.ne_none_iff_exists'.mp hsome
    exact ⟨(hdata ack hack).1, (hdata ack hack).2.1⟩
  begin hid _ hserved packet hforce hhead := absurd hhead (hbegin hid hserved packet hforce)
  command packet hpacket := by
    obtain ⟨-, -, seq, data, heq⟩ := hdata _ hpacket
    cases heq
  deferred packet seq hpacket := by
    obtain ⟨-, -, seq, data, heq⟩ := hdata _ hpacket
    cases heq
  resumes hid _ hserved _ := hresumes hid hserved

/-- The answer to a participant without a tombstone. -/
theorem targetAnswer_law {filled : Relay × Option Ack} (hid : id < maxTrackers)
    (hcommand : CommandKept c.clock (c.world.relay.tracker id) (c.command id))
    (haborting : ¬ c.Aborting id) (hserved : c.Serves id) (hintime : c.InTime id rx)
    (hanswer : TargetAnswer id (stamp c.clock) (statusSeq rx)
      (c.world.relay.expireAbort id (stamp c.clock)) filled) : c.AckLaw id rx filled := by
  cases hanswer with
  | data hwhen =>
    have hanswer := fillData_answer id (statusSeq rx) (c.world.relay.expireAbort id (stamp c.clock))
    refine ackLaw_of_data (fun _ => haborting) (fun ack hack => ⟨hid, hserved, ?_⟩)
      (fun _ _ packet hforce hhead => ?_) fun _ _ seq hseq hdata => .inl ?_
    · rcases hanswer with ⟨hnone, -⟩ | ⟨seq, bytes, -, -, hsome⟩
      · rw [hnone] at hack
        cases hack
      · exact ⟨seq, bytes, Option.some.inj (hack.symm.trans hsome)⟩
    · obtain ⟨htype, -, -⟩ := begin_pending hcommand hforce hhead
      rcases hwhen with hnone | ⟨-, -, hdefers, -⟩
      · exact absurd (htype.symm.trans hnone) (by decide)
      · exact hdefers htype
    · rcases hanswer with ⟨-, hmissing⟩ | ⟨seq', bytes, hseq', -, hsome⟩
      · exact Bool.noConfusion (hdata.symm.trans (hmissing seq hseq))
      · obtain rfl : seq = seq' := Option.some.inj (hseq.symm.trans hseq')
        exact ⟨bytes, hsome⟩
  | lapsed hsome hlapsed =>
    refine ackLaw_of_data (fun _ => haborting) (fun ack hack => by cases hack) (fun _ _ packet hforce => ?_)
      fun _ _ seq hseq hdata => .inr ⟨hsome, ?_⟩
    · exact absurd hforce (not_inForce_of_lapsed hcommand (.inr hlapsed) packet)
    · exact congrArg OtaPerTracker.pendingCmdType (Function.update_self id _ c.world.relay.tracker)
  | command hsome hrunning hsends =>
    have hforce := inForce_of_running hcommand hsome hrunning fun packet since =>
      hintime.command hid haborting hserved hsome hsends packet since
    obtain ⟨since, -, htype, -, -⟩ := hcommand.set hsome
    refine
      { abort := ⟨fun ⟨bytes, hbytes⟩ => (by cases hbytes), fun h => absurd h.2 haborting⟩
        pong := fun bytes hbytes => (by cases hbytes)
        served := fun _ _ => ⟨hid, hserved⟩
        begin := fun _ _ _ packet hpacket hhead => ?_
        command := fun packet hpacket => ?_
        deferred := fun packet seq hpacket hhead hseq => ?_
        resumes := fun _ _ _ hover => absurd hforce (hover _) }
    · rw [← (begin_pending hcommand hpacket hhead).2.1]
      rfl
    · obtain rfl := Ack.command.inj (Option.some.inj hpacket)
      exact hforce
    · obtain rfl := Ack.command.inj (Option.some.inj hpacket)
      rw [← Bool.not_eq_true]
      intro hdata
      exact hsends ⟨htype ▸ hhead, by rw [hseq]; exact hdata⟩

/-- An ACK whose readings are in time keeps the law. -/
theorem ackLaw_of_inTime (htombstone : TombstoneKept c.clock id c.world.relay (c.tombstone id))
    (hcommand : id < maxTrackers → CommandKept c.clock (c.world.relay.tracker id) (c.command id))
    (hintime : c.InTime id rx) : c.AckLaw id rx (c.world.relay.fillAck id (stamp c.clock) stampTicks rx) := by
  have haborts : id < maxTrackers →
      (c.world.relay.abortPending id (stamp c.clock) = true ↔ c.Aborting id) := fun hid =>
    pending_iff_aborting htombstone (hintime.tombstone hid)
  have hanswer := fillAck_answer id (stamp c.clock) stampTicks rx c.world.relay
  generalize c.world.relay.fillAck id (stamp c.clock) stampTicks rx = filled at hanswer
  cases hanswer with
  | unknown hunknown =>
    have hnot : ¬ id < maxTrackers := Nat.not_lt.mpr hunknown
    exact ackLaw_of_data (fun hid => absurd hid hnot) (fun ack hack => by cases hack)
      (fun hid => absurd hid hnot) fun hid => absurd hid hnot
  | abort hid hpending =>
    have haborting := (haborts hid).mp hpending
    refine
      { abort := ⟨fun _ => ⟨hid, haborting⟩, fun _ => ⟨_, rfl⟩⟩
        pong := fun bytes hbytes => ?_
        served := fun _ hnot => absurd haborting hnot
        begin := fun _ hnot => absurd haborting hnot
        command := fun packet h => (by cases h)
        deferred := fun packet seq h => (by cases h)
        resumes := fun _ hnot => absurd haborting hnot }
    obtain rfl := Ack.abort.inj (Option.some.inj hbytes)
    exact ⟨rfl, rfl, rfl⟩
  | target hid hpending hserved hanswer =>
    have haborting := fun h => Bool.eq_false_iff.mp hpending ((haborts hid).mpr h)
    exact targetAnswer_law hid (hcommand hid) haborting hserved hintime hanswer
  | other hid hpending hserved =>
    have haborting := fun h => Bool.eq_false_iff.mp hpending ((haborts hid).mpr h)
    exact ackLaw_of_data (fun _ => haborting) (fun ack hack => by cases hack) (fun _ h => absurd h hserved)
      fun _ h => absurd h hserved

/-- An ACK that keeps the law has been filled in time. -/
theorem inTime_of_ackLaw (htombstone : TombstoneKept c.clock id c.world.relay (c.tombstone id))
    (hcommand : id < maxTrackers → CommandKept c.clock (c.world.relay.tracker id) (c.command id))
    (hlaw : c.AckLaw id rx (c.world.relay.fillAck id (stamp c.clock) stampTicks rx)) : c.InTime id rx := by
  have hanswer := fillAck_answer id (stamp c.clock) stampTicks rx c.world.relay
  generalize c.world.relay.fillAck id (stamp c.clock) stampTicks rx = filled at hanswer hlaw
  constructor
  · intro hid hvalid expiry hdue hover
    by_contra hlate
    have hpending := (htombstone.pending_iff hdue).mpr ⟨hvalid, .inr (Nat.lt_of_not_le hlate)⟩
    cases hanswer with
    | unknown hunknown => exact absurd hid (Nat.not_lt.mpr hunknown)
    | abort =>
      obtain ⟨-, expiry', hdue', hrunning⟩ := hlaw.abort.mp ⟨_, rfl⟩
      obtain rfl := Option.some.inj (hdue.symm.trans hdue')
      exact absurd hrunning (Nat.not_lt.mpr hover)
    | target _ hnot | other _ hnot => exact Bool.noConfusion (hpending.symm.trans hnot)
  · intro hid haborting hserved hsome hsends packet since hqueued hover
    by_contra hearly
    obtain ⟨since', hqueued', -, hticks, hsince⟩ := (hcommand hid).set hsome
    obtain ⟨-, rfl⟩ := Prod.mk.inj (Option.some.inj (hqueued.symm.trans hqueued'))
    have hrunning : ¬ tenSecondsTicks < stamp c.clock - (c.world.relay.tracker id).pendingCmdSetTicks := by
      rwa [hticks, lapsed_iff hsince]
    cases hanswer with
    | unknown hunknown => exact absurd hid (Nat.not_lt.mpr hunknown)
    | abort => exact absurd (hlaw.abort.mp ⟨_, rfl⟩).2 haborting
    | other _ _ hnot => exact absurd hserved hnot
    | target _ _ _ hanswer =>
      cases hanswer with
      | data hwhen =>
        rcases hwhen with hnone | ⟨-, -, hdefers⟩
        · exact absurd hnone hsome
        · exact absurd hdefers hsends
      | lapsed _ hlapsed => exact absurd hlapsed hrunning
      | command =>
        obtain ⟨since', hqueued', hforce⟩ := hlaw.command _ rfl
        obtain ⟨-, rfl⟩ := Prod.mk.inj (Option.some.inj (hqueued.symm.trans hqueued'))
        omega

end Law

/-! ## One step -/

section Moves

variable {clock id : ℕ} {r : Relay} {due : Option ℕ}

theorem pending_update {tracker : ℕ → OtaPerTracker} {t : OtaPerTracker} {other : ℕ}
    (h : t.pending = (tracker other).pending) (id : ℕ) :
    (update tracker other t id).pending = (tracker id).pending := by
  by_cases hsame : id = other
  · rw [hsame, Function.update_self, h]
  · rw [Function.update_of_ne hsame]

theorem removeTarget_pending (other id : ℕ) (r : Relay) :
    ((r.removeTarget other).1.tracker id).pending = (r.tracker id).pending := by
  unfold Relay.removeTarget
  split
  case isTrue => rfl
  case isFalse => exact pending_update (by rfl) id

theorem removeTarget_expiry (other : ℕ) (r : Relay) :
    (r.removeTarget other).1.abortExpiryTicks = r.abortExpiryTicks := by
  unfold Relay.removeTarget
  split
  case isTrue => rfl
  case isFalse => rfl

theorem resetSession_pending (hid : id < maxTrackers) (r : Relay) :
    (r.resetSession.tracker id).pendingCmdType = 0 :=
  (congrArg OtaPerTracker.pendingCmdType (if_pos hid)).trans rfl

/-- An abort sets the tombstone of its target. -/
theorem cancelTarget_tombstone (other : ℕ) (now : BitVec 32) (r : Relay) :
    (r.cancelTarget other now).1.abortValid = update r.abortValid other true ∧
      (r.cancelTarget other now).1.abortExpiryTicks =
        update r.abortExpiryTicks other (now + tenSecondsTicks) :=
  ⟨removeTarget_abortValid other _, removeTarget_expiry other _⟩

/-- The abort of a session sets those of its targets. -/
theorem cancelEach_tombstone (id : ℕ) (now : BitVec 32) (ids : List ℕ) (r : Relay) (ended : Bool) :
    (Relay.cancelEach now ids (r, ended)).1.abortValid id = (decide (id ∈ ids) || r.abortValid id) ∧
      (Relay.cancelEach now ids (r, ended)).1.abortExpiryTicks id =
        if id ∈ ids then now + tenSecondsTicks else r.abortExpiryTicks id := by
  induction ids generalizing r ended with
  | nil => exact ⟨rfl, rfl⟩
  | cons other ids ih =>
    obtain ⟨hvalid, hticks⟩ := cancelTarget_tombstone other now r
    obtain ⟨ihvalid, ihticks⟩ := ih (r.cancelTarget other now).1 (r.cancelTarget other now).2
    rw [Relay.cancelEach, ihvalid, ihticks, hvalid, hticks]
    by_cases hsame : id = other
    · simp [hsame]
    · simp [hsame]

/-- A look at a tombstone. -/
theorem expireAbort_move (other : ℕ) :
    TombstoneMove clock id r (r.expireAbort other (stamp clock)) due due := by
  by_cases hsame : id = other
  · subst hsame
    exact .looked (Function.update_self id _ r.abortValid) rfl rfl
  · exact .kept (Function.update_of_ne hsame _ r.abortValid) rfl rfl

/-- The look of a suppression, or of the end of one. -/
theorem expire_move (others : Bool) (s : OtaWorld) :
    TombstoneMove clock id s.relay (s.expire (stamp clock) others).relay due due := by
  by_cases hlooks : s.looksAt others id = true
  · exact .looked (if_pos hlooks) rfl rfl
  · exact .kept (if_neg hlooks) rfl rfl

theorem openSession_expiry (r : Relay) (report : HidReport) :
    (r.openSession report).abortExpiryTicks = r.abortExpiryTicks := by
  unfold Relay.openSession
  split
  case isTrue => rfl
  case isFalse => rfl

variable (thread : ℕ) {env : MicroEnvironment}

/-- What an entry of a call does to a tombstone. -/
theorem runMicro_tombstone (c : ClockedRelay) (id : ℕ) (henv : env.now = stamp c.clock) (micro : Micro) :
    TombstoneMove c.clock id c.world.relay (c.world.runMicro thread env micro).1.relay (c.tombstone id)
      (c.noteTombstone micro id) := by
  cases micro with
  | admission report | claim report | checkActive report =>
    simp only [runMicro]
    split <;> exact .kept rfl rfl rfl
  | checkAbort report i =>
    simp only [runMicro, henv]
    split
    case isTrue => exact expireAbort_move i
    case isFalse => split <;> exact expireAbort_move i
  | lock report acquired =>
    simp only [runMicro, runLock, henv, ClockedRelay.noteTombstone]
    cases hadmission : c.world.relay.admitTarget report (stamp c.clock) acquired with
    | full | needsRadio => exact .kept rfl rfl rfl
    | admitted first relay =>
      obtain ⟨-, -, -, rfl⟩ := admitTarget_admitted hadmission
      by_cases hsame : id = report.trackerId
      · subst hsame
        exact .cleared (Function.update_self _ _ _) (Function.update_self _ _ _)
      · refine .kept ?_ ?_ (Function.update_of_ne hsame _ _)
        · exact (Function.update_of_ne hsame _ _).trans (by rw [openSession_abortValid])
        · exact (Function.update_of_ne hsame _ _).trans (by rw [openSession_expiry])
  | suppress | unsuppress =>
    simp only [runMicro, henv]
    exact expire_move _ _
  | release | send => exact .kept rfl rfl rfl
  | data report =>
    simp only [runMicro, Relay.acceptData]
    split <;> exact .kept rfl rfl rfl
  | queue verify report =>
    simp only [runMicro, Relay.queueCommand]
    split <;> exact .kept rfl rfl rfl
  | cancel other =>
    obtain ⟨hvalid, hticks⟩ := cancelTarget_tombstone other env.now c.world.relay
    simp only [runMicro, ClockedRelay.noteTombstone]
    by_cases hsame : id = other
    · subst hsame
      refine .set ?_ ?_ (Function.update_self _ _ _)
      · rw [hvalid, Function.update_self]
      · rw [hticks, Function.update_self, henv]
    · refine .kept ?_ ?_ (Function.update_of_ne hsame _ _)
      · rw [hvalid, Function.update_of_ne hsame]
      · rw [hticks, Function.update_of_ne hsame]
  | cancelAll =>
    obtain ⟨hvalid, hticks⟩ := cancelEach_tombstone id env.now c.world.relay.targets c.world.relay false
    by_cases htarget : id ∈ c.world.relay.targets
    · refine .set (hvalid.trans ?_) (hticks.trans ?_) (if_pos htarget)
      · rw [decide_eq_true htarget, Bool.true_or]
      · rw [if_pos htarget, henv]
    · refine .kept (hvalid.trans ?_) (hticks.trans (if_neg htarget)) (if_neg htarget)
      rw [decide_eq_false htarget, Bool.false_or]
  | forget other =>
    by_cases hsame : id = other
    · subst hsame
      exact .cleared (Function.update_self _ _ _) (Function.update_self _ _ _)
    · refine .kept ?_ ?_ (Function.update_of_ne hsame _ _)
      · exact (Function.update_of_ne hsame _ _).trans (by rw [removeTarget_abortValid])
      · exact (Function.update_of_ne hsame _ _).trans (by rw [removeTarget_expiry])
  | status packet =>
    simp only [runMicro, Relay.noteStatus]
    split
    case isTrue => exact .kept (by rw [removeTarget_abortValid]) (by rw [removeTarget_expiry]) rfl
    case isFalse => exact .kept rfl rfl rfl

/-- The packets of commands start with their types. -/
theorem commandPacket_head (verify : Bool) (report : HidReport) :
    (report.commandPacket verify).getD 0 0 ≠ 0 := by
  intro heq
  cases verify <;> cases heq

theorem enlist_pending (report : HidReport) (now : BitVec 32) (r : Relay) :
    ((r.enlist report now).tracker report.trackerId).pending =
      (report.beginPacket.getD 0 0, report.beginPacket, now) :=
  congrArg OtaPerTracker.pending (Function.update_self report.trackerId _ r.tracker)

theorem enlist_tracker (report : HidReport) (now : BitVec 32) (r : Relay) (hother : id ≠ report.trackerId) :
    (r.enlist report now).tracker id = r.tracker id := Function.update_of_ne hother _ _

theorem forgetTracker_self (id : ℕ) (r : Relay) : (r.forgetTracker id).1.tracker id = .zero :=
  Function.update_self id _ _

theorem forgetTracker_pending {other : ℕ} (hother : id ≠ other) (r : Relay) :
    ((r.forgetTracker other).1.tracker id).pending = (r.tracker id).pending := by
  have htracker : (r.forgetTracker other).1.tracker id = (r.removeTarget other).1.tracker id :=
    Function.update_of_ne hother _ _
  rw [htracker, removeTarget_pending]

/-- The first BEGIN of a session takes the commands of an earlier one back. -/
theorem openSession_move (hid : id < maxTrackers) (report : HidReport) (r : Relay)
    (command : ℕ → Option (List (BitVec 8) × ℕ)) :
    CommandMove clock (r.tracker id) ((r.openSession report).tracker id) (command id)
      ((if !r.active then fun _ => none else command) id) := by
  unfold Relay.openSession
  cases r.active with
  | true => exact .kept rfl rfl
  | false => exact .dropped (resetSession_pending hid r) rfl

/-- A STATUS takes back the command it confirms. -/
theorem noteStatus_pending (packet : List (BitVec 8)) (uptime : ℤ) (id : ℕ) (r : Relay) :
    ((r.noteStatus packet uptime).1.tracker id).pending =
      if id = (packet.getD 1 0).toNat ∧ confirms (r.tracker id).pendingCmdType (packet.getD 2 0) = true then
        (0, (r.tracker id).pendingCmdData, (r.tracker id).pendingCmdSetTicks)
      else (r.tracker id).pending := by
  have hremoved : ∀ (terminal : Bool) (noted : Relay) (other : ℕ),
      ((if terminal then noted.removeTarget other else (noted, false)).1.tracker id).pending =
        (noted.tracker id).pending := by
    intro terminal noted other
    cases terminal with
    | true => exact removeTarget_pending other id noted
    | false => rfl
  simp only [Relay.noteStatus]
  rw [hremoved]
  dsimp only
  by_cases hsame : id = (packet.getD 1 0).toNat
  · subst hsame
    rw [Function.update_self]
    cases confirms (r.tracker (packet.getD 1 0).toNat).pendingCmdType (packet.getD 2 0) with
    | true => simp only [OtaPerTracker.pending, and_self, if_true]
    | false => simp only [OtaPerTracker.pending, Bool.false_eq_true, and_false, if_false]
  · rw [Function.update_of_ne hsame, if_neg fun h => hsame h.1]

/-- No STATUS confirms nothing. -/
theorem confirms_zero (status : BitVec 8) : confirms 0 status = false := rfl

/-- What an entry of a call does to the command of a tracker. -/
theorem runMicro_command (c : ClockedRelay) (hid : id < maxTrackers)
    (hkept : CommandKept c.clock (c.world.relay.tracker id) (c.command id))
    (henv : env.now = stamp c.clock) (micro : Micro) :
    CommandMove c.clock (c.world.relay.tracker id) ((c.world.runMicro thread env micro).1.relay.tracker id)
      (c.command id) (c.noteCommand micro id) := by
  cases micro with
  | admission report | claim report | checkActive report =>
    simp only [runMicro]
    split <;> exact .kept rfl rfl
  | checkAbort report i =>
    simp only [runMicro]
    split
    case isTrue => exact .kept rfl rfl
    case isFalse => split <;> exact .kept rfl rfl
  | lock report acquired =>
    simp only [runMicro, runLock, henv, ClockedRelay.noteCommand]
    cases hadmission : c.world.relay.admitTarget report (stamp c.clock) acquired with
    | full | needsRadio => exact .kept rfl rfl
    | admitted first relay =>
      obtain ⟨-, -, rfl, rfl⟩ := admitTarget_admitted hadmission
      by_cases hsame : id = report.trackerId
      · subst hsame
        refine .queued report.beginPacket (fun heq => ?_) (enlist_pending _ _ _) (Function.update_self _ _ _)
        cases heq
      · dsimp only
        rw [Function.update_of_ne hsame, enlist_tracker _ _ _ hsame]
        exact openSession_move hid report c.world.relay c.command
  | suppress | unsuppress | release | send => exact .kept rfl rfl
  | data report =>
    simp only [runMicro, Relay.acceptData]
    split <;> exact .kept rfl rfl
  | queue verify report =>
    simp only [runMicro, Relay.queueCommand, ClockedRelay.noteCommand]
    split
    case isFalse => exact .kept rfl rfl
    case isTrue =>
      by_cases hsame : id = report.trackerId
      · subst hsame
        refine .queued (report.commandPacket verify) (commandPacket_head verify report) ?_
          (Function.update_self _ _ _)
        show (update c.world.relay.tracker report.trackerId _ report.trackerId).pending = _
        rw [Function.update_self, henv]
        rfl
      · refine .kept ?_ (Function.update_of_ne hsame _ _)
        show (update c.world.relay.tracker report.trackerId _ id).pending = _
        rw [Function.update_of_ne hsame]
  | cancel other =>
    exact .kept (removeTarget_pending other id _) rfl
  | cancelAll => exact .dropped (resetSession_pending hid _) rfl
  | forget other =>
    by_cases hsame : id = other
    · subst hsame
      exact .dropped (congrArg OtaPerTracker.pendingCmdType (forgetTracker_self id _))
        (Function.update_self _ _ _)
    · exact .kept (forgetTracker_pending hsame _) (Function.update_of_ne hsame _ _)
  | status packet =>
    have hpending := noteStatus_pending packet env.uptime id c.world.relay
    simp only [runMicro, ClockedRelay.noteCommand]
    by_cases hsame : id = (packet.getD 1 0).toNat
    · subst hsame
      by_cases hnone : (c.world.relay.tracker (packet.getD 1 0).toNat).pendingCmdType = 0
      · rw [hnone, confirms_zero, if_neg fun h => Bool.false_ne_true h.2] at hpending
        split
        case isTrue => exact .dropped ((Prod.mk.inj hpending).1.trans hnone) (Function.update_self _ _ _)
        case isFalse => exact .kept hpending rfl
      · obtain ⟨since, hqueued, htype, -, -⟩ := hkept.set hnone
        rw [htype] at hpending
        rw [hqueued, Option.any_some]
        split
        case isTrue hconfirms =>
          rw [if_pos ⟨rfl, hconfirms⟩] at hpending
          exact .dropped (Prod.mk.inj hpending).1 (Function.update_self _ _ _)
        case isFalse hconfirms =>
          rw [if_neg fun h => hconfirms h.2] at hpending
          exact .kept hpending hqueued
    · rw [if_neg fun h => hsame h.1] at hpending
      refine .kept hpending ?_
      split
      case isTrue => exact Function.update_of_ne hsame _ _
      case isFalse => rfl

theorem fillData_pending (id other : ℕ) (seq : Option (BitVec 16)) (r : Relay) :
    ((r.fillData other seq).1.tracker id).pending = (r.tracker id).pending := by
  cases seq with
  | none => rfl
  | some seq => exact pending_update (by rfl) id

/-- What an ACK does to the command of a tracker. -/
theorem fillAck_command (id other : ℕ) (stampTicks : BitVec 32) (rx : Option (List (BitVec 8))) (r : Relay)
    (queued : Option (List (BitVec 8) × ℕ)) :
    CommandMove clock (r.tracker id) ((r.fillAck other (stamp clock) stampTicks rx).1.tracker id) queued
      queued := by
  have hanswer := fillAck_answer other (stamp clock) stampTicks rx r
  generalize r.fillAck other (stamp clock) stampTicks rx = filled at hanswer
  cases hanswer with
  | unknown | abort | other => exact .kept rfl rfl
  | target _ _ _ hanswer =>
    cases hanswer with
    | data => exact .kept (fillData_pending id other _ _) rfl
    | command => exact .kept (pending_update (by rfl) id) rfl
    | lapsed hsome hlapsed =>
      by_cases hsame : id = other
      · subst hsame
        refine .lapsed ?_ rfl hlapsed
        exact congrArg OtaPerTracker.pendingCmdType (Function.update_self id _ r.tracker)
      · exact .kept (congrArg OtaPerTracker.pending (Function.update_of_ne hsame _ r.tracker)) rfl

/-- What an ACK does to a tombstone. -/
theorem fillAck_tombstone (id other : ℕ) (stampTicks : BitVec 32) (rx : Option (List (BitVec 8))) (r : Relay)
    (due : Option ℕ) :
    TombstoneMove clock id r (r.fillAck other (stamp clock) stampTicks rx).1 due due := by
  have hanswer := fillAck_answer other (stamp clock) stampTicks rx r
  generalize r.fillAck other (stamp clock) stampTicks rx = filled at hanswer
  cases hanswer with
  | unknown | abort => exact .kept rfl rfl rfl
  | other => exact expireAbort_move other
  | target _ _ _ hanswer =>
    obtain ⟨hvalid, hticks⟩ := hanswer.tombstones
    exact (expireAbort_move other).congr hvalid hticks

/-- What the answer to a PING does to a tombstone and a command. -/
theorem pong_kept {s : OtaWorld} {ping : PingContext} {delay : ℕ} (hnow : ping.now = stamp clock)
    (hlater : ping.later = stamp (clock + delay)) (hkept : TombstoneKept clock id s.relay due)
    (queued : Option (List (BitVec 8) × ℕ)) :
    TombstoneKept (clock + delay) id (s.pong ping).1.relay due ∧
      CommandMove (clock + delay) (s.relay.tracker id) ((s.pong ping).1.relay.tracker id) queued queued := by
  have hlook : TombstoneKept clock id (s.relay.expireAbort ping.id (stamp clock)) due :=
    hkept.move (expireAbort_move ping.id)
  have hsame := hkept.mono (Nat.le_add_right clock delay)
  have hlooked := hlook.mono (Nat.le_add_right clock delay)
  simp only [OtaWorld.pong, hnow, hlater]
  split
  case isTrue => exact ⟨hsame, .kept rfl rfl⟩
  split
  case isTrue => exact ⟨hsame, .kept rfl rfl⟩
  split
  case isTrue => exact ⟨hlooked, .kept rfl rfl⟩
  split
  case isFalse => exact ⟨hlooked, .kept rfl rfl⟩
  case isTrue =>
    exact ⟨hlooked.move (fillAck_tombstone _ _ _ _ _ _),
      fillAck_command id ping.id ping.stamp none (s.relay.expireAbort ping.id (stamp clock)) queued⟩

end Moves

section Steps

variable {c c' : ClockedRelay} {op : ClockedOp} {es : List OtaEvent} {id : ℕ}

/-- The relay keeps the tombstones and the commands as they were asked for. -/
structure ClockedInvariant (c : ClockedRelay) : Prop where
  tombstone : ∀ id, TombstoneKept c.clock id c.world.relay (c.tombstone id)
  command : ∀ id < maxTrackers, CommandKept c.clock (c.world.relay.tracker id) (c.command id)

/-- What a step does, tracker by tracker. -/
structure StepKept (id : ℕ) (c c' : ClockedRelay) : Prop where
  clock : c.clock ≤ c'.clock
  tombstone : TombstoneKept c'.clock id c'.world.relay (c'.tombstone id)
  command : id < maxTrackers → ∃ time, c.clock ≤ time ∧ time ≤ c'.clock ∧
    CommandMove time (c.world.relay.tracker id) (c'.world.relay.tracker id) (c.command id) (c'.command id)

theorem ClockedInvariant.step (h : ClockedInvariant c) (htaken : clockedStep c op = some (c', es)) (id : ℕ) :
    StepKept id c c' := by
  cases op with
  | tick ticks =>
    obtain ⟨rfl, rfl⟩ := Prod.mk.inj (Option.some.inj htaken)
    have hlater := Nat.le_add_right c.clock ticks
    exact ⟨hlater, (h.tombstone id).mono hlater, fun _ => ⟨c.clock, le_rfl, hlater, .kept rfl rfl⟩⟩
  | look other =>
    obtain ⟨rfl, rfl⟩ := Prod.mk.inj (Option.some.inj htaken)
    exact ⟨le_rfl, (h.tombstone id).move (expireAbort_move other),
      fun _ => ⟨c.clock, le_rfl, le_rfl, .kept rfl rfl⟩⟩
  | step op delay =>
    have hlater := Nat.le_add_right c.clock delay
    simp only [clockedStep] at htaken
    split at htaken
    case isFalse => cases htaken
    case isTrue hreads =>
      obtain ⟨⟨world, es'⟩, hstep, heq⟩ := Option.map_eq_some_iff.mp htaken
      obtain ⟨rfl, rfl⟩ := Prod.mk.inj heq
      cases op with
      | run thread env =>
        simp only [otaStep] at hstep
        cases hthread : c.world.threads thread with
        | nil =>
          rw [hthread] at hstep
          cases hstep
        | cons micro rest =>
          rw [hthread] at hstep
          obtain ⟨rfl, rfl⟩ := Prod.mk.inj (Option.some.inj hstep)
          have hentry : c.entry (.run thread env) = some micro := congrArg List.head? hthread
          refine ⟨hlater, ?_, fun hid => ⟨c.clock, le_rfl, hlater, ?_⟩⟩
          · have hmove := (h.tombstone id).move (runMicro_tombstone thread c id hreads micro)
            simp only [ClockedRelay.after, hentry]
            exact hmove.mono hlater
          · simp only [ClockedRelay.after, hentry]
            exact runMicro_command thread c hid (h.command id hid) hreads micro
      | ack other now stampTicks packet =>
        obtain ⟨rfl, rfl⟩ := Prod.mk.inj (Option.some.inj hstep)
        obtain rfl : now = stamp c.clock := hreads
        exact ⟨hlater, ((h.tombstone id).move (fillAck_tombstone _ _ _ _ _ _)).mono hlater,
          fun _ => ⟨c.clock, le_rfl, hlater, fillAck_command _ _ _ _ _ _⟩⟩
      | pong ping =>
        obtain ⟨rfl, rfl⟩ := Prod.mk.inj (Option.some.inj hstep)
        obtain ⟨htombstone, hcommand⟩ := pong_kept hreads.1 hreads.2 (h.tombstone id) (c.command id)
        exact ⟨hlater, htombstone, fun _ => ⟨c.clock + delay, hlater, le_rfl, hcommand⟩⟩
      | call thread call =>
        simp only [otaStep] at hstep
        split at hstep
        case isFalse => cases hstep
        case isTrue =>
          obtain ⟨rfl, rfl⟩ := Prod.mk.inj (Option.some.inj hstep)
          exact ⟨hlater, (h.tombstone id).mono hlater, fun _ => ⟨c.clock, le_rfl, hlater, .kept rfl rfl⟩⟩
      | remote | stored | radio | fault =>
        obtain ⟨rfl, rfl⟩ := Prod.mk.inj (Option.some.inj hstep)
        exact ⟨hlater, (h.tombstone id).mono hlater, fun _ => ⟨c.clock, le_rfl, hlater, .kept rfl rfl⟩⟩

theorem clocked_invariant {trace : List OtaEvent} (h : clockedRelay.Run trace c) : ClockedInvariant c := by
  refine h.invariant ⟨fun id => ?_, fun id _ => ?_⟩ fun c op c' es hc _ htaken => ?_
  · exact ⟨fun hset => (by cases hset), fun _ expiry hdue => (by cases hdue)⟩
  · exact ⟨fun hset => absurd rfl hset, fun _ packet since hqueued => (by cases hqueued)⟩
  · refine ⟨fun id => (hc.step htaken id).tombstone, fun id hid => ?_⟩
    obtain ⟨time, hfrom, hto, hmove⟩ := (hc.step htaken id).command hid
    exact (((hc.command id hid).mono hfrom).move hmove).mono hto

end Steps

/-- Tracker 0 of two stored ones is to be updated, and 9 s pass. -/
def begunNineSecondsAgo : List ClockedOp :=
  [ClockedOp.step (.stored 2) 0, .step (.call 0 (.hid beginReport)) 0] ++
    List.replicate 23 (ClockedOp.step (.run 0 quietMoment) 0) ++ [ClockedOp.tick 294912]

/-- An update of tracker 0 is aborted, and more than 18 hours pass without a packet from it. -/
def abortedHoursAgo : List ClockedOp :=
  [.step (.call 0 (.consoleAbort 0)) 0, .step (.run 0 quietMoment) 0, .tick (327680 + 2 ^ 31 + 1)]

end SlimeReceiver.Ota
