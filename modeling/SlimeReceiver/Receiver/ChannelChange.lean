import Mathlib.Data.List.Basic
import Mathlib.Logic.Function.Basic
import Mathlib.Tactic.Common
import SlimeReceiver.Library.EventSystem

/-! # Channel changes

A request to move all trackers to another channel: `channel_change_begin` for HID requests, console commands
and the automatic channel, `channel_change_poll` in the ESB thread, and the completion the host is told. Every
party takes one step for each access to what they share. Both callbacks are registered at boot. HID commands
run in the cooperative system work queue, so nothing happens between the release of the mutex and the answer.

* **`ChannelState`**, **`channelSystem`** — the variables, and where the parties are.
* **`admittedHid`**, **`hidResults`**, **`started`**, **`completions`** — the HID requests, told from the
  events.
* **`ChannelInvariant`** — who owns the radio, the mutex and the registration.
* **`channel_completions`** — each request answered `STARTED` is completed once, with its own result. -/

namespace SlimeReceiver

open Function (update update_self update_of_ne)

namespace ChannelChange

/-! ## The code -/

/-- `RCV_HID_OP_TRACKER_CH_ALL` and `RCV_HID_OP_TRACKER_CH_CLR`. -/
def opTrackerChAll : BitVec 8 := 218
def opTrackerChClr : BitVec 8 := 219

/-- `CHANNEL_CHANGE_ANNOUNCE_MS`. -/
def channelChangeAnnounceMs : ℕ := 3000

/-- `ESB_RF_CHANNEL_DEFAULT` and `ESB_RF_CHANNEL_ZERO_ENC`. -/
def rfChannelDefault : BitVec 8 := 0xFF
def rfChannelZeroEnc : BitVec 8 := 128

/-- `esb_rf_channel_encode`. -/
def rfChannelEncode (channel : BitVec 8) : BitVec 8 := if channel = 0 then rfChannelZeroEnc else channel

/-- The statuses `RCV_HID_ST_*` these commands answer. -/
inductive HidStatus
  | ok
  | einval
  | ebusy
  | enoent
  | started
deriving DecidableEq

/-- Who asks for a channel change. -/
inductive Caller
  | hid
  | console (thread : ℕ)
  | automatic
deriving DecidableEq

/-- A request; without a channel it clears the channel. The console and the automatic channel have no `seq`. -/
structure ChannelRequest where
  seq : BitVec 8
  channel : Option (BitVec 8)
deriving DecidableEq

/-- A HID request as the host knows it. -/
structure HidRequest where
  seq : BitVec 8
  opcode : BitVec 8
deriving DecidableEq

def ChannelRequest.opcode (r : ChannelRequest) : BitVec 8 :=
  if r.channel.isSome then opTrackerChAll else opTrackerChClr

def ChannelRequest.hid (r : ChannelRequest) : HidRequest := ⟨r.seq, r.opcode⟩

/-- The value `channel_change_begin` stores. -/
def ChannelRequest.encoded (r : ChannelRequest) : BitVec 8 := r.channel.elim rfChannelDefault rfChannelEncode

/-- The range checks of `esb_set_all_trackers_channel` and `esb_auto_channel_request`. -/
def admissible (c : Caller) (r : ChannelRequest) : Bool :=
  match c, r.channel with
  | .automatic, some channel => channel.toNat ≤ 88 && channel.toNat % 2 == 0
  | .automatic, none => false
  | _, some channel => channel.toNat ≤ 100
  | _, none => true

/-- Where a caller is. -/
inductive Place
  | idle
  /-- A HID request, before `channel_completion_lock`. -/
  | locking (r : ChannelRequest)
  /-- Before the range check and the check of `esb_radio_fault`. -/
  | entering (r : ChannelRequest)
  /-- Before the exchange of `radio_operation_busy`. -/
  | claiming (r : ChannelRequest)
  /-- The radio is claimed; before the checks for other sessions. -/
  | checking (r : ChannelRequest)
  /-- Before the section with interrupts locked. -/
  | storing (r : ChannelRequest)
  /-- An automatic change is out of date. -/
  | releasing (r : ChannelRequest)
  /-- In `arm_ch_hid_completion`. -/
  | armingSeq (r : ChannelRequest)
  | armingOpcode (r : ChannelRequest)
  | armingPending (r : ChannelRequest)
  /-- Before the release of the mutex. -/
  | answering (r : ChannelRequest) (status : HidStatus)
deriving DecidableEq

/-- Where the ESB thread is; `looked` is when it looked at `channel_change_pending`. -/
inductive EsbPlace
  | idle
  /-- Before the check of the timeout. -/
  | timed (looked : ℕ)
  | clearing (looked : ℕ)
  /-- Before `channel_apply`. -/
  | applying (looked : ℕ)
  /-- In `on_tracker_channel_done`, before the mutex. -/
  | completing (looked : ℕ) (success : Bool)
  | reporting (looked : ℕ) (success : Bool)
  | unlocking (looked : ℕ)
  /-- Before `esb_radio_operation_end`. -/
  | ending (looked : ℕ)
deriving DecidableEq

/-- Who holds the radio. -/
inductive Owner
  | caller (c : Caller)
  | migration
  /-- A scan, an OTA session, a collection or a command for the receiver's channel alone. -/
  | other
deriving DecidableEq

/-- Who holds `channel_completion_lock`. -/
inductive Holder
  | hid
  | esb
deriving DecidableEq

/-- What started a migration. -/
inductive Origin
  | hid (request : HidRequest)
  | console
  | automatic
deriving DecidableEq

/-- What `channel_apply` leads to. -/
inductive ApplyResult
  | ok
  | error
  /-- The rollback fails as well. -/
  | fault
deriving DecidableEq

/-- The shared variables and the parties. `radio_operation_busy` is kept with its owner; `origin` is what the
pending migration was started by. -/
structure ChannelState where
  uptime : ℕ
  esbRadioFault : Bool
  radioOperationBusy : Option Owner
  channelChangePending : Bool
  pendingChannel : BitVec 8
  channelChangeTimeout : ℕ
  origin : Origin
  chHidPending : Bool
  chHidSeq : BitVec 8
  chHidOpcode : BitVec 8
  channelCompletionLock : Option Holder
  places : Caller → Place
  esb : EsbPlace

/-- At boot. -/
def ChannelState.boot : ChannelState where
  uptime := 0
  esbRadioFault := false
  radioOperationBusy := none
  channelChangePending := false
  pendingChannel := 0
  channelChangeTimeout := 0
  origin := .console
  chHidPending := false
  chHidSeq := 0
  chHidOpcode := 0
  channelCompletionLock := none
  places _ := .idle
  esb := .idle

/-- The steps. -/
inductive ChannelOp
  | elapse (ms : ℕ)
  /-- An unsafe teardown of the radio. -/
  | fault
  | otherBegin
  | otherEnd
  | request (c : Caller) (r : ChannelRequest)
  /-- The caller goes on; `granted` is what the checks of the rest of the receiver say. -/
  | call (c : Caller) (granted : Bool)
  /-- The ESB thread goes on; `result` is what `channel_apply` leads to. -/
  | poll (result : ApplyResult)

/-- The visible events. -/
inductive ChannelEvent
  /-- A migration is pending. -/
  | admitted (origin : Origin) (time : ℕ)
  /-- `channel_apply` of a migration has returned. -/
  | applied (origin : Origin) (success : Bool)
  /-- A HID request is answered. -/
  | answered (request : HidRequest) (status : HidStatus)
  /-- The completion of a HID request is sent. -/
  | completed (request : HidRequest) (status : HidStatus)
  /-- `channel_change_poll` returns; it had looked at `channel_change_pending` at `looked`. -/
  | polled (looked : ℕ)
deriving DecidableEq

/-- Where a caller begins: only a HID request takes the mutex. -/
def requested (c : Caller) (r : ChannelRequest) : Place :=
  match c with
  | .hid => .locking r
  | _ => .entering r

/-- Where a caller goes on when it is refused: only a HID request is answered. -/
def refused (c : Caller) (r : ChannelRequest) (status : HidStatus) : Place :=
  match c with
  | .hid => .answering r status
  | _ => .idle

/-- Where a caller goes on when its migration is pending: only a HID request is registered for the completion. -/
def admittedTo (c : Caller) (r : ChannelRequest) : Place :=
  match c with
  | .hid => .armingSeq r
  | _ => .idle

namespace ChannelState

def withPlace (c : Caller) (place : Place) (s : ChannelState) : ChannelState :=
  { s with places := update s.places c place }

/-- A caller is refused. -/
def refuse (c : Caller) (r : ChannelRequest) (status : HidStatus) (s : ChannelState) : ChannelState :=
  s.withPlace c (refused c r status)

/-- `esb_radio_operation_end`. -/
def radioOperationEnd (s : ChannelState) : ChannelState :=
  { s with radioOperationBusy := if s.esbRadioFault then s.radioOperationBusy else none }

end ChannelState

/-- What a migration is started by. -/
def Origin.of (c : Caller) (r : ChannelRequest) : Origin :=
  match c with
  | .hid => .hid r.hid
  | .console _ => .console
  | .automatic => .automatic

abbrev Stepped := Option (ChannelState × List ChannelEvent)

/-- The next access of a caller: the HID command around `channel_change_begin`, or that function alone. -/
def callStep (c : Caller) (granted : Bool) (s : ChannelState) : Stepped :=
  match s.places c with
  | .idle => none
  | .locking r =>
    if s.channelCompletionLock = none then
      some ({ s with channelCompletionLock := some .hid }.withPlace c (.entering r), [])
    else none
  | .entering r =>
    if !admissible c r || s.esbRadioFault then some (s.refuse c r .einval, [])
    else some (s.withPlace c (.claiming r), [])
  | .claiming r =>
    if s.radioOperationBusy = none then
      some ({ s with radioOperationBusy := some (.caller c) }.withPlace c (.checking r), [])
    else some (s.refuse c r .ebusy, [])
  | .checking r =>
    if granted then some (s.withPlace c (.storing r), [])
    else some ({ s with radioOperationBusy := none }.refuse c r .ebusy, [])
  | .storing r =>
    if c = .automatic ∧ !granted then some (s.withPlace c (.releasing r), [])
    else
      some ({ s with
          radioOperationBusy := some .migration
          pendingChannel := r.encoded
          channelChangeTimeout := s.uptime + channelChangeAnnounceMs
          origin := .of c r
          channelChangePending := true }.withPlace c (admittedTo c r),
        [.admitted (.of c r) s.uptime])
  | .releasing r => some (s.radioOperationEnd.refuse c r .ebusy, [])
  | .armingSeq r => some ({ s with chHidSeq := r.seq }.withPlace c (.armingOpcode r), [])
  | .armingOpcode r => some ({ s with chHidOpcode := r.opcode }.withPlace c (.armingPending r), [])
  | .armingPending r => some ({ s with chHidPending := true }.withPlace c (.answering r .started), [])
  | .answering r status =>
    some ({ s with channelCompletionLock := none }.withPlace c .idle, [.answered r.hid status])

/-- The status `on_tracker_channel_done` reports. -/
def doneStatus (success : Bool) : HidStatus := if success then .ok else .enoent

/-- The next access of `channel_change_poll`. -/
def pollStep (result : ApplyResult) (s : ChannelState) : Stepped :=
  match s.esb with
  | .idle =>
    if s.channelChangePending then some ({ s with esb := .timed s.uptime }, [])
    else some (s, [.polled s.uptime])
  | .timed looked =>
    if s.uptime < s.channelChangeTimeout then some ({ s with esb := .idle }, [.polled looked])
    else some ({ s with esb := .clearing looked }, [])
  | .clearing looked => some ({ s with
      channelChangePending := false
      esb := .applying looked }, [])
  | .applying looked =>
    some ({ s with
        esbRadioFault := s.esbRadioFault || result == .fault
        esb := .completing looked (result == .ok) },
      [.applied s.origin (result == .ok)])
  | .completing looked success =>
    if s.channelCompletionLock = none then
      some ({ s with
        channelCompletionLock := some .esb
        esb := .reporting looked success }, [])
    else none
  | .reporting looked success =>
    if s.chHidPending then
      some ({ s with
          chHidPending := false
          esb := .unlocking looked },
        [.completed ⟨s.chHidSeq, s.chHidOpcode⟩ (doneStatus success)])
    else some ({ s with esb := .unlocking looked }, [])
  | .unlocking looked => some ({ s with
      channelCompletionLock := none
      esb := .ending looked }, [])
  | .ending looked => some ({ s.radioOperationEnd with esb := .idle }, [.polled looked])

/-- One step. -/
def channelStep (s : ChannelState) : ChannelOp → Stepped
  | .elapse ms => some ({ s with uptime := s.uptime + ms }, [])
  | .fault => some ({ s with esbRadioFault := true }, [])
  | .otherBegin =>
    if s.radioOperationBusy = none then some ({ s with radioOperationBusy := some .other }, []) else none
  | .otherEnd => if s.radioOperationBusy = some .other then some (s.radioOperationEnd, []) else none
  | .request c r =>
    if s.places c = .idle then
      some (s.withPlace c (requested c r), [])
    else none
  | .call c granted => callStep c granted s
  | .poll result => pollStep result s

/-- Channel changes as a system. -/
def channelSystem : EventSystem ChannelState ChannelOp ChannelEvent where
  init := .boot
  step := channelStep

/-! ## The requests of the host -/

/-- The HID requests whose migration was admitted, with the time. -/
def admittedHid (trace : List ChannelEvent) : List (HidRequest × ℕ) :=
  trace.filterMap fun
    | .admitted (.hid request) time => some (request, time)
    | _ => none

/-- The results of their migrations. -/
def hidResults (trace : List ChannelEvent) : List (HidRequest × Bool) :=
  trace.filterMap fun
    | .applied (.hid request) success => some (request, success)
    | _ => none

/-- The requests answered `STARTED`. -/
def started (trace : List ChannelEvent) : List HidRequest :=
  trace.filterMap fun
    | .answered request .started => some request
    | _ => none

/-- The completions sent. -/
def completions (trace : List ChannelEvent) : List (HidRequest × HidStatus) :=
  trace.filterMap fun
    | .completed request status => some (request, status)
    | _ => none

/-- The completion a result leads to. -/
def completionOf (r : HidRequest × Bool) : HidRequest × HidStatus := (r.1, doneStatus r.2)

/-- When `channel_change_poll` returns, every HID request whose announcement was over when it looked is
completed. -/
def Prompt (earlier : List ChannelEvent) : ChannelEvent → Prop
  | .polled looked => ((admittedHid earlier).filter fun a => a.2 + channelChangeAnnounceMs ≤ looked).length ≤
    (completions earlier).length
  | _ => True

/-- The requests whose migration was admitted are those answered `STARTED`, but for one still to be answered;
one after the other they get a result, and every result is sent as the completion of its request, but for the
newest. -/
structure ChannelLaw (trace : List ChannelEvent) : Prop where
  answered : ∃ rest, (admittedHid trace).map Prod.fst = started trace ++ rest ∧ rest.length ≤ 1
  applied : ∃ rest, (admittedHid trace).map Prod.fst = (hidResults trace).map Prod.fst ++ rest ∧ rest.length ≤ 1
  completed : ∃ rest, (hidResults trace).map completionOf = completions trace ++ rest ∧ rest.length ≤ 1
  later : (completions trace).length ≤ (started trace).length
  prompt : EachAfter Prompt trace

/-! ## The invariant -/

def Origin.request : Origin → Option HidRequest
  | .hid request => some request
  | _ => none

namespace Place

/-- The caller holds the radio. -/
def owns : Place → Bool
  | .checking _ | .storing _ | .releasing _ => true
  | _ => false

/-- A place outside the HID command around `channel_change_begin`. -/
def plain : Place → Bool
  | .idle | .entering _ | .claiming _ | .checking _ | .storing _ | .releasing _ => true
  | _ => false

/-- A HID request holds the mutex. -/
def locks : Place → Bool
  | .idle | .locking _ => false
  | _ => true

/-- The migration is admitted and the request not answered. -/
def unanswered : Place → Option HidRequest
  | .armingSeq r | .armingOpcode r | .armingPending r | .answering r .started => some r.hid
  | _ => none

/-- The request is about to be registered for its completion. -/
def arms : Place → Bool
  | .armingSeq _ | .armingOpcode _ | .armingPending _ => true
  | _ => false

/-- What has been stored for the registration. -/
def Stored (seq opcode : BitVec 8) : Place → Prop
  | .armingOpcode r => seq = r.seq
  | .armingPending r => seq = r.seq ∧ opcode = r.opcode
  | _ => True

/-- Two places that differ in nothing the ESB thread could notice. -/
structure Alike (seq opcode : BitVec 8) (p p' : Place) : Prop where
  locks : p'.locks = p.locks
  unanswered : p'.unanswered = p.unanswered
  arms : p'.arms = p.arms
  stored : p'.Stored seq opcode

end Place

namespace EsbPlace

/-- Before `channel_change_pending` is cleared. -/
def early : EsbPlace → Bool
  | .timed _ | .clearing _ => true
  | _ => false

/-- The result that is not reported yet. -/
def result : EsbPlace → Option Bool
  | .completing _ success | .reporting _ success => some success
  | _ => none

def applies : EsbPlace → Bool
  | .applying _ => true
  | _ => false

/-- The ESB thread holds the mutex. -/
def locks : EsbPlace → Bool
  | .reporting .. | .unlocking _ => true
  | _ => false

def looked : EsbPlace → Option ℕ
  | .idle => none
  | .timed t | .clearing t | .applying t | .completing t _ | .reporting t _ | .unlocking t | .ending t => some t

end EsbPlace

namespace ChannelState

/-- A migration is pending or being applied. -/
def unapplied (s : ChannelState) : Bool := s.channelChangePending || s.esb.applies

/-- A migration whose end is not reported yet. -/
def Open (s : ChannelState) : Prop := s.unapplied = true ∨ s.esb.result.isSome = true

/-- The request whose migration has no result yet. -/
def ahead (s : ChannelState) : List HidRequest := if s.unapplied then s.origin.request.toList else []

/-- The result that is still to be reported. -/
def unreported (s : ChannelState) : List (HidRequest × HidStatus) :=
  match s.esb.result, s.origin.request with
  | some success, some request => [completionOf (request, success)]
  | _, _ => []

end ChannelState

/-- What holds after every step. -/
structure ChannelInvariant (trace : List ChannelEvent) (s : ChannelState) : Prop where
  plain : ∀ c, c ≠ .hid → (s.places c).plain = true
  owns : ∀ c, (s.places c).owns = true → s.radioOperationBusy = some (.caller c)
  migrating : s.channelChangePending = true ∨ s.esb ≠ .idle → s.radioOperationBusy = some .migration
  early : s.esb.early = true → s.channelChangePending = true
  late : s.esb ≠ .idle → s.esb.early = false → s.channelChangePending = false
  hidLock : (s.places .hid).locks = true ↔ s.channelCompletionLock = some .hid
  esbLock : s.esb.locks = true ↔ s.channelCompletionLock = some .esb
  unanswered : ∀ r, (s.places .hid).unanswered = some r → s.origin = .hid r ∧ s.Open
  armed : s.chHidPending = true → s.origin = .hid ⟨s.chHidSeq, s.chHidOpcode⟩ ∧ s.Open ∧
    (s.places .hid).arms = false
  opened : ∀ r, s.origin = .hid r → s.Open → s.chHidPending = true ∨ (s.places .hid).arms = true
  stored : (s.places .hid).Stored s.chHidSeq s.chHidOpcode
  looked : ∀ t, s.esb.looked = some t → t ≤ s.uptime
  admitted : (admittedHid trace).map Prod.fst = (hidResults trace).map Prod.fst ++ s.ahead
  results : (hidResults trace).map completionOf = completions trace ++ s.unreported
  answered : (admittedHid trace).map Prod.fst = started trace ++ (s.places .hid).unanswered.toList
  deadline : ∀ r, s.origin = .hid r → s.Open →
    ∃ l t, admittedHid trace = l ++ [(r, t)] ∧ s.channelChangeTimeout = t + channelChangeAnnounceMs
  prompt : EachAfter Prompt trace

variable {trace : List ChannelEvent} {s s' : ChannelState} {c : Caller} {r : ChannelRequest} {place : Place}

theorem channelInvariant_boot : ChannelInvariant [] .boot where
  plain := fun _ _ => rfl
  owns := by simp [ChannelState.boot, Place.owns]
  migrating := by simp [ChannelState.boot]
  early := by simp [ChannelState.boot, EsbPlace.early]
  late := by simp [ChannelState.boot]
  hidLock := by simp [ChannelState.boot, Place.locks]
  esbLock := by simp [ChannelState.boot, EsbPlace.locks]
  unanswered := by simp [ChannelState.boot, Place.unanswered]
  armed := by simp [ChannelState.boot]
  opened := by simp [ChannelState.boot]
  stored := trivial
  looked := by simp [ChannelState.boot, EsbPlace.looked]
  admitted := rfl
  results := rfl
  answered := rfl
  deadline := by simp [ChannelState.boot]
  prompt := eachAfter_nil

namespace ChannelInvariant

/-- The callers move on, and nobody else could notice. -/
theorem move {places : Caller → Place} (hi : ChannelInvariant trace s)
    (hplain : ∀ c, c ≠ .hid → (places c).plain = true)
    (howns : ∀ c, (places c).owns = true → s.radioOperationBusy = some (.caller c))
    (halike : (s.places .hid).Alike s.chHidSeq s.chHidOpcode (places .hid)) :
    ChannelInvariant trace { s with places := places } where
  __ := hi
  plain := hplain
  owns := howns
  hidLock := by
    simp only [halike.locks]
    exact hi.hidLock
  unanswered := by
    simp only [halike.unanswered]
    exact hi.unanswered
  armed := by
    simp only [halike.arms]
    exact hi.armed
  opened := by
    simp only [halike.arms]
    exact hi.opened
  stored := halike.stored
  answered := by
    simp only [halike.unanswered]
    exact hi.answered

/-- What holds of every caller but one, and of the place that one moves to, holds of all places. -/
theorem forall_update {P : Caller → Place → Prop} (hplace : P c place) (hother : ∀ c', c' ≠ c → P c' (s.places c')) :
    ∀ c', P c' (update s.places c place c') := by
  intro c'
  by_cases hc : c' = c
  · subst hc
    rw [update_self]
    exact hplace
  · rw [update_of_ne hc]
    exact hother c' hc

/-- One caller moves on, and nobody else could notice. -/
theorem moveOne (hi : ChannelInvariant trace s) (hplain : c ≠ .hid → place.plain = true)
    (howns : place.owns = true → s.radioOperationBusy = some (.caller c))
    (halike : c = .hid → (s.places .hid).Alike s.chHidSeq s.chHidOpcode place) :
    ChannelInvariant trace (s.withPlace c place) := by
  refine hi.move (forall_update (P := fun c p => c ≠ .hid → p.plain = true) hplain fun c' _ => hi.plain c')
    (forall_update (P := fun c p => p.owns = true → s.radioOperationBusy = some (.caller c)) howns
      fun c' _ => hi.owns c') ?_
  exact forall_update (P := fun c p => c = .hid → (s.places .hid).Alike s.chHidSeq s.chHidOpcode p) halike
    (by
      rintro c' - rfl
      exact ⟨rfl, rfl, rfl, hi.stored⟩) .hid rfl

/-- A caller without the radio is refused. -/
theorem refuse {status : HidStatus} (hi : ChannelInvariant trace s) (hstatus : status ≠ .started)
    (hplace : (s.places c).locks = true ∧ (s.places c).unanswered = none ∧ (s.places c).arms = false) :
    ChannelInvariant trace (s.refuse c r status) := by
  obtain ⟨hlocks, hunanswered, harms⟩ := hplace
  refine hi.moveOne ?_ ?_ ?_
  · cases c <;> first | exact fun _ => rfl | exact fun h => absurd rfl h
  · cases c <;> nofun
  · rintro rfl
    exact {
      locks := hlocks.symm
      unanswered := by
        rw [hunanswered]
        cases status <;> first | rfl | exact absurd rfl hstatus
      arms := harms.symm
      stored := trivial }

/-- Somebody takes or gives back the radio while no migration needs it. -/
theorem setBusy {busy : Option Owner} (hi : ChannelInvariant trace s)
    (hclosed : s.channelChangePending = false ∧ s.esb = .idle)
    (howns : ∀ c, (s.places c).owns = true → busy = some (.caller c)) :
    ChannelInvariant trace { s with radioOperationBusy := busy } where
  __ := hi
  owns := howns
  migrating := by
    rintro (hpending | hesb)
    · rw [hclosed.1] at hpending
      cases hpending
    · exact absurd hclosed.2 hesb

/-- Nothing is open while the radio is not the migration's. -/
theorem closed_of_busy (hi : ChannelInvariant trace s) (hbusy : s.radioOperationBusy ≠ some .migration) :
    s.channelChangePending = false ∧ s.esb = .idle := by
  by_contra hopen
  refine hbusy (hi.migrating ?_)
  cases hpending : s.channelChangePending with
  | true => exact .inl rfl
  | false => exact .inr fun hidle => hopen ⟨hpending, hidle⟩

theorem not_open_of_closed (hclosed : s.channelChangePending = false ∧ s.esb = .idle) : ¬s.Open := by
  simp [ChannelState.Open, ChannelState.unapplied, hclosed.1, hclosed.2, EsbPlace.applies, EsbPlace.result]

/-- At most one caller holds the radio. -/
theorem owner_unique (hi : ChannelInvariant trace s) {c' : Caller} (howns : (s.places c).owns = true)
    (howns' : (s.places c').owns = true) : c' = c := by
  have hsame := (hi.owns c howns).symm.trans (hi.owns c' howns')
  exact (Owner.caller.inj (Option.some.inj hsame)).symm

/-- A caller that holds the radio gives it back and is refused. -/
theorem giveBack {busy : Option Owner} {status : HidStatus} (hi : ChannelInvariant trace s)
    (hstatus : status ≠ .started) (howns : (s.places c).owns = true)
    (hplace : (s.places c).locks = true ∧ (s.places c).unanswered = none ∧ (s.places c).arms = false) :
    ChannelInvariant trace ({ s with radioOperationBusy := busy }.refuse c r status) := by
  have hclosed := hi.closed_of_busy (by rw [hi.owns c howns]; nofun)
  have hrefused := hi.refuse (r := r) hstatus hplace
  refine hrefused.setBusy hclosed fun c' howns' => ?_
  have hnobody : ∀ c', (update s.places c (refused c r status) c').owns = false := by
    refine forall_update (P := fun _ p => p.owns = false) (by cases c <;> rfl) fun c' hc => ?_
    rw [← Bool.not_eq_true]
    exact fun h => hc (hi.owner_unique howns h)
  exact absurd howns' (Bool.eq_false_iff.mp (hnobody c'))

/-- A migration is admitted. -/
theorem admission (hi : ChannelInvariant trace s) (hpoint : s.places c = .storing r) :
    ChannelInvariant (trace ++ [ChannelEvent.admitted (.of c r) s.uptime]) ({ s with
        radioOperationBusy := some .migration
        pendingChannel := r.encoded
        channelChangeTimeout := s.uptime + channelChangeAnnounceMs
        origin := .of c r
        channelChangePending := true }.withPlace c (admittedTo c r)) := by
  have howns : (s.places c).owns = true := by rw [hpoint]; rfl
  have hclosed := hi.closed_of_busy (by rw [hi.owns c howns]; nofun)
  have hnotOpen := not_open_of_closed hclosed
  have hnotPending : s.chHidPending ≠ true := fun h => hnotOpen (hi.armed h).2.1
  have hnobody : ∀ c', (update s.places c (admittedTo c r) c').owns = false := by
    refine forall_update (P := fun _ p => p.owns = false) (by cases c <;> rfl) fun c' hc => ?_
    rw [← Bool.not_eq_true]
    exact fun h => hc (hi.owner_unique howns h)
  -- what the migration of a HID request adds, and the one of another caller does not
  have hnew : (Origin.of c r).request = (update s.places c (admittedTo c r) .hid).unanswered ∧
      (s.places .hid).unanswered = none ∧
      ((update s.places c (admittedTo c r) .hid).locks = (s.places .hid).locks) ∧
      ((Origin.of c r).request.isSome = true → (update s.places c (admittedTo c r) .hid).arms = true) ∧
      (update s.places c (admittedTo c r) .hid).Stored s.chHidSeq s.chHidOpcode := by
    have hanswered : (s.places .hid).unanswered = none :=
      Option.eq_none_iff_forall_ne_some.mpr fun r' h => hnotOpen (hi.unanswered r' h).2
    cases c with
    | hid =>
      rw [update_self]
      exact ⟨rfl, hanswered, by rw [hpoint]; rfl, fun _ => rfl, trivial⟩
    | console thread =>
      rw [update_of_ne (by nofun)]
      exact ⟨hanswered.symm, hanswered, rfl, nofun, hi.stored⟩
    | automatic =>
      rw [update_of_ne (by nofun)]
      exact ⟨hanswered.symm, hanswered, rfl, nofun, hi.stored⟩
  obtain ⟨hrequest, hanswered, hlocks, harms, hstored⟩ := hnew
  have hlist : admittedHid (trace ++ [ChannelEvent.admitted (.of c r) s.uptime]) =
      admittedHid trace ++ ((Origin.of c r).request.map (·, s.uptime)).toList := by
    rw [admittedHid, List.filterMap_append]
    cases c <;> rfl
  have hresults : hidResults (trace ++ [ChannelEvent.admitted (.of c r) s.uptime]) = hidResults trace := by
    simp [hidResults]
  have hcompletions : completions (trace ++ [ChannelEvent.admitted (.of c r) s.uptime]) = completions trace := by
    simp [completions]
  have hstarted : started (trace ++ [ChannelEvent.admitted (.of c r) s.uptime]) = started trace := by simp [started]
  have hahead : s.ahead = [] := by simp [ChannelState.ahead, ChannelState.unapplied, hclosed, EsbPlace.applies]
  have hunreported : s.unreported = [] := by simp [ChannelState.unreported, hclosed, EsbPlace.result]
  have hmap : (((Origin.of c r).request.map (·, s.uptime)).toList).map Prod.fst = (Origin.of c r).request.toList := by
    cases (Origin.of c r).request <;> rfl
  exact {
    plain := forall_update (P := fun c p => c ≠ .hid → p.plain = true)
      (by cases c <;> first | exact fun _ => rfl | exact fun h => absurd rfl h) fun c' _ => hi.plain c'
    owns := fun c' h => absurd h (Bool.eq_false_iff.mp (hnobody c'))
    migrating := fun _ => rfl
    early := fun _ => rfl
    late := fun h => absurd hclosed.2 h
    hidLock := by
      refine Iff.trans (Eq.to_iff ?_) hi.hidLock
      exact congrArg (· = true) hlocks
    esbLock := hi.esbLock
    unanswered := by
      intro r' h
      have hunanswered : (update s.places c (admittedTo c r) .hid).unanswered = some r' := h
      rw [← hrequest] at hunanswered
      refine ⟨?_, .inl rfl⟩
      cases c <;> first | exact congrArg Origin.hid (Option.some.inj hunanswered) | cases hunanswered
    armed := fun h => absurd h hnotPending
    opened := by
      intro r' horigin _
      have horigin : Origin.of c r = .hid r' := horigin
      exact .inr (harms (by rw [horigin]; rfl))
    stored := hstored
    looked := hi.looked
    admitted := by
      have hadmitted := hi.admitted
      rw [hahead, List.append_nil] at hadmitted
      rw [hlist, hresults, List.map_append, hadmitted, hmap]
      rfl
    results := by
      have hold := hi.results
      rw [hunreported] at hold
      rw [hresults, hcompletions, hold]
      have hresult : s.esb.result = none := by rw [hclosed.2]; rfl
      simp [ChannelState.unreported, ChannelState.withPlace, hresult]
    answered := by
      have hold := hi.answered
      rw [hanswered] at hold
      rw [hlist, hstarted, List.map_append, hold, hmap, hrequest]
      simp [ChannelState.withPlace]
    deadline := by
      intro r' horigin _
      have horigin : Origin.of c r = .hid r' := horigin
      refine ⟨admittedHid trace, s.uptime, ?_, rfl⟩
      rw [hlist, horigin]
      rfl
    prompt := eachAfter_snoc.mpr ⟨hi.prompt, trivial⟩ }

/-- A HID request takes the mutex. -/
theorem lock (hi : ChannelInvariant trace s) (hpoint : s.places .hid = .locking r)
    (hfree : s.channelCompletionLock = none) :
    ChannelInvariant trace ({ s with channelCompletionLock := some .hid }.withPlace .hid (.entering r)) := by
  have hesb : s.esb.locks ≠ true := fun h => by
    rw [hi.esbLock.mp h] at hfree
    cases hfree
  have hunanswered : (s.places .hid).unanswered = none := by rw [hpoint]; rfl
  exact { hi with
    plain := forall_update (P := fun c p => c ≠ .hid → p.plain = true) (fun _ => rfl) fun c' _ => hi.plain c'
    owns := forall_update (P := fun c p => p.owns = true → s.radioOperationBusy = some (.caller c)) nofun
      fun c' _ => hi.owns c'
    hidLock := ⟨fun _ => rfl, fun _ => by simp [ChannelState.withPlace, Place.locks]⟩
    esbLock := ⟨fun h => absurd h hesb, nofun⟩
    unanswered := by simp [ChannelState.withPlace, Place.unanswered]
    armed := fun h => ⟨(hi.armed h).1, (hi.armed h).2.1, by simp [ChannelState.withPlace, Place.arms]⟩
    opened := by
      intro r' horigin hopen
      refine .inl ((hi.opened r' horigin hopen).resolve_right ?_)
      rw [hpoint]
      nofun
    stored := by simp [ChannelState.withPlace, Place.Stored]
    answered := by
      rw [hi.answered, hunanswered]
      simp [ChannelState.withPlace, Place.unanswered] }

/-- A HID request goes on with its registration. -/
theorem arm (seq opcode : BitVec 8) (hi : ChannelInvariant trace s) (hplain : place.owns = false)
    (harms : (s.places .hid).arms = true) (hplace : (s.places .hid).Alike seq opcode place) :
    ChannelInvariant trace ({ s with
        chHidSeq := seq
        chHidOpcode := opcode }.withPlace .hid place) := by
  have hnotPending : s.chHidPending ≠ true := fun h => by
    rw [(hi.armed h).2.2] at harms
    cases harms
  have hnew : update s.places .hid place .hid = place := update_self ..
  exact { hi with
    plain := forall_update (P := fun c p => c ≠ .hid → p.plain = true) (fun h => absurd rfl h)
      fun c' _ => hi.plain c'
    owns := forall_update (P := fun c p => p.owns = true → s.radioOperationBusy = some (.caller c))
      (fun h => absurd h (Bool.eq_false_iff.mp hplain)) fun c' _ => hi.owns c'
    hidLock := by
      simp only [ChannelState.withPlace, hnew, hplace.locks]
      exact hi.hidLock
    unanswered := by
      simp only [ChannelState.withPlace, hnew, hplace.unanswered]
      exact hi.unanswered
    armed := fun h => absurd h hnotPending
    opened := fun r' horigin hopen => .inr (by
      simp only [ChannelState.withPlace, hnew, hplace.arms]
      exact harms)
    stored := by
      simp only [ChannelState.withPlace, hnew]
      exact hplace.stored
    answered := by
      simp only [ChannelState.withPlace, hnew, hplace.unanswered]
      exact hi.answered }

/-- A HID request is registered for its completion. -/
theorem register (hi : ChannelInvariant trace s) (hpoint : s.places .hid = .armingPending r) :
    ChannelInvariant trace ({ s with chHidPending := true }.withPlace .hid (.answering r .started)) := by
  have hnew : update s.places .hid (.answering r .started) .hid = .answering r .started := update_self ..
  have hunanswered : (s.places .hid).unanswered = some r.hid := by rw [hpoint]; rfl
  have hstored := hi.stored
  rw [hpoint] at hstored
  exact { hi with
    plain := forall_update (P := fun c p => c ≠ .hid → p.plain = true) (fun h => absurd rfl h)
      fun c' _ => hi.plain c'
    owns := forall_update (P := fun c p => p.owns = true → s.radioOperationBusy = some (.caller c)) nofun
      fun c' _ => hi.owns c'
    hidLock := by
      have hold := hi.hidLock
      rw [hpoint] at hold
      simp only [ChannelState.withPlace, hnew]
      exact hold
    unanswered := by
      simp only [ChannelState.withPlace, hnew]
      intro r' h
      obtain rfl : r.hid = r' := Option.some.inj h
      exact hi.unanswered _ hunanswered
    armed := by
      intro _
      obtain ⟨horigin, hopen⟩ := hi.unanswered _ hunanswered
      refine ⟨horigin.trans ?_, hopen, by simp only [ChannelState.withPlace, hnew]; rfl⟩
      simp only [ChannelState.withPlace, hstored.1, hstored.2]
      rfl
    opened := fun _ _ _ => .inl rfl
    stored := by
      simp only [ChannelState.withPlace, hnew]
      trivial
    answered := by
      have hold := hi.answered
      rw [hunanswered] at hold
      simp only [ChannelState.withPlace, hnew]
      exact hold }

/-- A HID request releases the mutex and is answered. -/
theorem answer {status : HidStatus} (hi : ChannelInvariant trace s) (hpoint : s.places .hid = .answering r status) :
    ChannelInvariant (trace ++ [ChannelEvent.answered r.hid status])
      ({ s with channelCompletionLock := none }.withPlace .hid .idle) := by
  have hnew : update s.places .hid .idle .hid = .idle := update_self ..
  have hlocked : s.channelCompletionLock = some .hid := hi.hidLock.mp (by rw [hpoint]; rfl)
  have hesb : s.esb.locks ≠ true := fun h => by
    rw [hi.esbLock.mp h] at hlocked
    cases hlocked
  have hadmitted : admittedHid (trace ++ [ChannelEvent.answered r.hid status]) = admittedHid trace := by
    simp [admittedHid]
  have hresults : hidResults (trace ++ [ChannelEvent.answered r.hid status]) = hidResults trace := by simp [hidResults]
  have hcompletions : completions (trace ++ [ChannelEvent.answered r.hid status]) = completions trace := by
    simp [completions]
  have hstarted : started (trace ++ [ChannelEvent.answered r.hid status]) =
      started trace ++ (s.places .hid).unanswered.toList := by
    rw [hpoint, started, List.filterMap_append]
    cases status <;> rfl
  exact { hi with
    plain := forall_update (P := fun c p => c ≠ .hid → p.plain = true) (fun h => absurd rfl h)
      fun c' _ => hi.plain c'
    owns := forall_update (P := fun c p => p.owns = true → s.radioOperationBusy = some (.caller c)) nofun
      fun c' _ => hi.owns c'
    hidLock := by
      simp only [ChannelState.withPlace, hnew]
      exact ⟨nofun, nofun⟩
    esbLock := ⟨fun h => absurd h hesb, nofun⟩
    unanswered := by
      simp only [ChannelState.withPlace, hnew]
      nofun
    armed := fun h => ⟨(hi.armed h).1, (hi.armed h).2.1, by simp only [ChannelState.withPlace, hnew]; rfl⟩
    opened := by
      intro r' horigin hopen
      refine .inl ((hi.opened r' horigin hopen).resolve_right ?_)
      rw [hpoint]
      nofun
    stored := by
      simp only [ChannelState.withPlace, hnew]
      trivial
    admitted := by
      rw [hadmitted, hresults]
      exact hi.admitted
    results := by
      rw [hresults, hcompletions]
      exact hi.results
    answered := by
      rw [hadmitted, hstarted, hi.answered]
      simp only [ChannelState.withPlace, hnew, Place.unanswered, Option.toList_none, List.append_nil]
    deadline := by
      rw [hadmitted]
      exact hi.deadline
    prompt := eachAfter_snoc.mpr ⟨hi.prompt, trivial⟩ }

/-- Every step of a caller. -/
theorem call {granted : Bool} {es : List ChannelEvent} (hi : ChannelInvariant trace s)
    (htaken : callStep c granted s = some (s', es)) : ChannelInvariant (trace ++ es) s' := by
  have hhid : (s.places c).plain = false → c = .hid := fun h => by
    by_contra hc
    rw [hi.plain c hc] at h
    cases h
  rw [callStep] at htaken
  cases hpoint : s.places c with
  | idle =>
    simp only [hpoint] at htaken
    cases htaken
  | locking r =>
    obtain rfl := hhid (by rw [hpoint]; rfl)
    simp only [hpoint] at htaken
    split at htaken
    case isTrue hfree =>
      obtain ⟨rfl, rfl⟩ := Prod.mk.inj (Option.some.inj htaken)
      rw [List.append_nil]
      exact hi.lock hpoint hfree
    case isFalse => cases htaken
  | entering r =>
    simp only [hpoint] at htaken
    have hplace : (s.places c).locks = true ∧ (s.places c).unanswered = none ∧ (s.places c).arms = false := by
      rw [hpoint]
      exact ⟨rfl, rfl, rfl⟩
    split at htaken
    case isTrue =>
      obtain ⟨rfl, rfl⟩ := Prod.mk.inj (Option.some.inj htaken)
      rw [List.append_nil]
      exact hi.refuse (by nofun) hplace
    case isFalse =>
      obtain ⟨rfl, rfl⟩ := Prod.mk.inj (Option.some.inj htaken)
      rw [List.append_nil]
      refine hi.moveOne (fun _ => rfl) nofun ?_
      rintro rfl
      exact ⟨hplace.1.symm, hplace.2.1.symm, hplace.2.2.symm, trivial⟩
  | claiming r =>
    simp only [hpoint] at htaken
    have hplace : (s.places c).locks = true ∧ (s.places c).unanswered = none ∧ (s.places c).arms = false := by
      rw [hpoint]
      exact ⟨rfl, rfl, rfl⟩
    split at htaken
    case isTrue hfree =>
      obtain ⟨rfl, rfl⟩ := Prod.mk.inj (Option.some.inj htaken)
      rw [List.append_nil]
      have hclaimed : ChannelInvariant trace { s with radioOperationBusy := some (.caller c) } :=
        hi.setBusy (hi.closed_of_busy (by rw [hfree]; nofun)) fun c' h => by
          rw [hi.owns c' h] at hfree
          cases hfree
      refine hclaimed.moveOne (fun _ => rfl) (fun _ => rfl) ?_
      rintro rfl
      exact ⟨hplace.1.symm, hplace.2.1.symm, hplace.2.2.symm, trivial⟩
    case isFalse =>
      obtain ⟨rfl, rfl⟩ := Prod.mk.inj (Option.some.inj htaken)
      rw [List.append_nil]
      exact hi.refuse (by nofun) hplace
  | checking r =>
    simp only [hpoint] at htaken
    have hplace : (s.places c).locks = true ∧ (s.places c).unanswered = none ∧ (s.places c).arms = false := by
      rw [hpoint]
      exact ⟨rfl, rfl, rfl⟩
    have howns : (s.places c).owns = true := by rw [hpoint]; rfl
    split at htaken
    case isTrue =>
      obtain ⟨rfl, rfl⟩ := Prod.mk.inj (Option.some.inj htaken)
      rw [List.append_nil]
      refine hi.moveOne (fun _ => rfl) (fun _ => hi.owns c howns) ?_
      rintro rfl
      exact ⟨hplace.1.symm, hplace.2.1.symm, hplace.2.2.symm, trivial⟩
    case isFalse =>
      obtain ⟨rfl, rfl⟩ := Prod.mk.inj (Option.some.inj htaken)
      rw [List.append_nil]
      exact hi.giveBack (by nofun) howns hplace
  | storing r =>
    simp only [hpoint] at htaken
    have howns : (s.places c).owns = true := by rw [hpoint]; rfl
    split at htaken
    case isTrue hautomatic =>
      obtain ⟨rfl, rfl⟩ := Prod.mk.inj (Option.some.inj htaken)
      rw [List.append_nil]
      refine hi.moveOne (fun _ => rfl) (fun _ => hi.owns c howns) ?_
      rintro rfl
      cases hautomatic.1
    case isFalse =>
      obtain ⟨rfl, rfl⟩ := Prod.mk.inj (Option.some.inj htaken)
      exact hi.admission hpoint
  | releasing r =>
    simp only [hpoint] at htaken
    obtain ⟨rfl, rfl⟩ := Prod.mk.inj (Option.some.inj htaken)
    rw [List.append_nil]
    exact hi.giveBack (by nofun) (by rw [hpoint]; rfl) (by rw [hpoint]; exact ⟨rfl, rfl, rfl⟩)
  | armingSeq r =>
    obtain rfl := hhid (by rw [hpoint]; rfl)
    simp only [hpoint] at htaken
    obtain ⟨rfl, rfl⟩ := Prod.mk.inj (Option.some.inj htaken)
    rw [List.append_nil]
    exact hi.arm r.seq s.chHidOpcode rfl (by rw [hpoint]; rfl)
      (by rw [hpoint]; exact ⟨rfl, rfl, rfl, rfl⟩)
  | armingOpcode r =>
    obtain rfl := hhid (by rw [hpoint]; rfl)
    simp only [hpoint] at htaken
    obtain ⟨rfl, rfl⟩ := Prod.mk.inj (Option.some.inj htaken)
    rw [List.append_nil]
    have hseq := hi.stored
    rw [hpoint] at hseq
    exact hi.arm s.chHidSeq r.opcode rfl (by rw [hpoint]; rfl)
      (by rw [hpoint]; exact ⟨rfl, rfl, rfl, hseq, rfl⟩)
  | armingPending r =>
    obtain rfl := hhid (by rw [hpoint]; rfl)
    simp only [hpoint] at htaken
    obtain ⟨rfl, rfl⟩ := Prod.mk.inj (Option.some.inj htaken)
    rw [List.append_nil]
    exact hi.register hpoint
  | answering r status =>
    obtain rfl := hhid (by rw [hpoint]; rfl)
    simp only [hpoint] at htaken
    obtain ⟨rfl, rfl⟩ := Prod.mk.inj (Option.some.inj htaken)
    exact hi.answer hpoint

/-! ### The ESB thread -/

theorem admitted_length (hi : ChannelInvariant trace s) :
    (admittedHid trace).length = (completions trace).length + s.unreported.length + s.ahead.length := by
  have hadmitted := congrArg List.length hi.admitted
  have hresults := congrArg List.length hi.results
  simp only [List.length_map, List.length_append] at hadmitted hresults
  omega

/-- Every request that was admitted is completed while no migration is open. -/
theorem all_completed (hi : ChannelInvariant trace s) (hclosed : ¬s.Open) :
    (admittedHid trace).length = (completions trace).length := by
  have hlength := hi.admitted_length
  rw [ChannelState.Open, not_or] at hclosed
  have hahead : s.ahead = [] := if_neg hclosed.1
  have hunreported : s.unreported = [] := by
    rw [ChannelState.unreported, Option.not_isSome_iff_eq_none.mp hclosed.2]
  rw [hahead, hunreported] at hlength
  exact hlength

/-- When the poll returns, what was due is completed. -/
theorem prompt_polled {looked : ℕ} (hi : ChannelInvariant trace s)
    (h : (admittedHid trace).length = (completions trace).length ∨
      (s.esb = .timed looked ∧ s.uptime < s.channelChangeTimeout)) : Prompt trace (.polled looked) := by
  rw [Prompt]
  rcases h with hall | ⟨hesb, hearly⟩
  · exact hall ▸ List.length_filter_le _ _
  have hpending : s.channelChangePending = true := hi.early (by rw [hesb]; rfl)
  have hopen : s.Open := .inl (by rw [ChannelState.unapplied, hpending, Bool.true_or])
  have hlooked := hi.looked looked (by rw [hesb]; rfl)
  have hlength := hi.admitted_length
  have hunreported : s.unreported = [] := by rw [ChannelState.unreported, hesb]; rfl
  rw [hunreported, List.length_nil, Nat.add_zero] at hlength
  cases horigin : s.origin with
  | hid request =>
    -- the newest one is still being announced
    obtain ⟨l, time, hadmitted, htimeout⟩ := hi.deadline request horigin hopen
    have hone : s.ahead.length ≤ 1 := by
      rw [ChannelState.ahead, horigin]
      split <;> simp [Origin.request]
    rw [hadmitted, List.length_append, List.length_singleton] at hlength
    have hlate : ¬time + channelChangeAnnounceMs ≤ looked := by omega
    rw [hadmitted, List.filter_append, List.filter_singleton]
    simp only [hlate, decide_false, Bool.cond_false, List.append_nil]
    exact Nat.le_trans (List.length_filter_le _ _) (by omega)
  | console | automatic =>
    have hahead : s.ahead = [] := by
      rw [ChannelState.ahead, horigin]
      split <;> rfl
    rw [hahead, List.length_nil, Nat.add_zero] at hlength
    exact hlength ▸ List.length_filter_le _ _

/-- The poll returns and nothing else changes for the requests. -/
theorem polled {looked : ℕ} (hi : ChannelInvariant trace s) (hprompt : Prompt trace (.polled looked)) :
    ChannelInvariant (trace ++ [ChannelEvent.polled looked]) s := by
  have hadmitted : admittedHid (trace ++ [ChannelEvent.polled looked]) = admittedHid trace := by simp [admittedHid]
  have hresults : hidResults (trace ++ [ChannelEvent.polled looked]) = hidResults trace := by simp [hidResults]
  have hcompletions : completions (trace ++ [ChannelEvent.polled looked]) = completions trace := by simp [completions]
  have hstarted : started (trace ++ [ChannelEvent.polled looked]) = started trace := by simp [started]
  exact { hi with
    admitted := by rw [hadmitted, hresults]; exact hi.admitted
    results := by rw [hresults, hcompletions]; exact hi.results
    answered := by rw [hadmitted, hstarted]; exact hi.answered
    deadline := by rw [hadmitted]; exact hi.deadline
    prompt := eachAfter_snoc.mpr ⟨hi.prompt, hprompt⟩ }

/-- The ESB thread goes on with a migration that is pending. -/
theorem early_step {esb : EsbPlace} (hi : ChannelInvariant trace s) (hpending : s.channelChangePending = true)
    (hold : s.esb = .idle ∨ s.esb.early = true) (hnew : esb = .idle ∨ esb.early = true)
    (hlooked : ∀ t, esb.looked = some t → t ≤ s.uptime) : ChannelInvariant trace { s with esb := esb } := by
  have hplain : ∀ e : EsbPlace, e = .idle ∨ e.early = true → e.applies = false ∧ e.result = none ∧ e.locks = false := by
    rintro e (rfl | he)
    · exact ⟨rfl, rfl, rfl⟩
    · cases e <;> first | exact ⟨rfl, rfl, rfl⟩ | cases he
  obtain ⟨happlies, hresult, hlocks⟩ := hplain _ hold
  obtain ⟨happlies', hresult', hlocks'⟩ := hplain _ hnew
  have hunapplied : ({ s with esb := esb } : ChannelState).unapplied = s.unapplied := by
    simp only [ChannelState.unapplied, happlies, happlies']
  have hopen : ({ s with esb := esb } : ChannelState).Open ↔ s.Open := by
    simp only [ChannelState.Open, hunapplied, hresult, hresult']
  exact { hi with
    migrating := fun _ => hi.migrating (.inl hpending)
    early := fun _ => hpending
    late := by
      intro hbusy hlate
      rcases hnew with hidle | hearly
      · exact absurd hidle hbusy
      · rw [hearly] at hlate
        cases hlate
    esbLock := by
      simp only [hlocks']
      rw [← hlocks]
      exact hi.esbLock
    unanswered := fun r h => ⟨(hi.unanswered r h).1, hopen.mpr (hi.unanswered r h).2⟩
    armed := fun h => ⟨(hi.armed h).1, hopen.mpr (hi.armed h).2.1, (hi.armed h).2.2⟩
    opened := fun r horigin h => hi.opened r horigin (hopen.mp h)
    looked := hlooked
    admitted := by
      rw [hi.admitted]
      simp only [ChannelState.ahead, hunapplied]
    results := by
      rw [hi.results]
      simp only [ChannelState.unreported, hresult, hresult']
    deadline := fun r horigin h => hi.deadline r horigin (hopen.mp h) }

/-- The ESB thread clears `channel_change_pending`. -/
theorem clear {looked : ℕ} (hi : ChannelInvariant trace s) (hesb : s.esb = .clearing looked) :
    ChannelInvariant trace { s with
      channelChangePending := false
      esb := .applying looked } := by
  have hpending : s.channelChangePending = true := hi.early (by rw [hesb]; rfl)
  have hunapplied : s.unapplied = true := by rw [ChannelState.unapplied, hpending, Bool.true_or]
  have hunreported : s.unreported = [] := by rw [ChannelState.unreported, hesb]; rfl
  exact { hi with
    migrating := fun _ => hi.migrating (.inl hpending)
    early := nofun
    late := fun _ _ => rfl
    esbLock := by
      have hold := hi.esbLock
      rw [hesb] at hold
      exact hold
    unanswered := fun r h => ⟨(hi.unanswered r h).1, .inl rfl⟩
    armed := fun h => ⟨(hi.armed h).1, .inl rfl, (hi.armed h).2.2⟩
    opened := fun r horigin _ => hi.opened r horigin (.inl hunapplied)
    looked := fun t h => hi.looked t (by rw [hesb]; exact h)
    admitted := by
      rw [hi.admitted, ChannelState.ahead, hunapplied]
      rfl
    results := by
      rw [hi.results, hunreported]
      rfl
    deadline := fun r horigin _ => hi.deadline r horigin (.inl hunapplied) }

/-- `channel_apply` returns. -/
theorem apply {looked : ℕ} {fault success : Bool} (hi : ChannelInvariant trace s) (hesb : s.esb = .applying looked) :
    ChannelInvariant (trace ++ [ChannelEvent.applied s.origin success]) { s with
      esbRadioFault := fault
      esb := .completing looked success } := by
  have hpending : s.channelChangePending = false := hi.late (by rw [hesb]; nofun) (by rw [hesb]; rfl)
  have hunapplied : s.unapplied = true := by rw [ChannelState.unapplied, hesb, Bool.or_eq_true]; exact .inr rfl
  have hunreported : s.unreported = [] := by rw [ChannelState.unreported, hesb]; rfl
  have hahead : s.ahead = s.origin.request.toList := if_pos hunapplied
  have hadmitted : admittedHid (trace ++ [ChannelEvent.applied s.origin success]) = admittedHid trace := by
    simp [admittedHid]
  have hcompletions : completions (trace ++ [ChannelEvent.applied s.origin success]) = completions trace := by
    simp [completions]
  have hstarted : started (trace ++ [ChannelEvent.applied s.origin success]) = started trace := by simp [started]
  have hresults : hidResults (trace ++ [ChannelEvent.applied s.origin success]) =
      hidResults trace ++ (s.origin.request.map (·, success)).toList := by
    rw [hidResults, List.filterMap_append]
    cases s.origin <;> rfl
  have hopen : s.Open := .inl hunapplied
  exact { hi with
    migrating := fun _ => hi.migrating (.inr (by rw [hesb]; nofun))
    early := nofun
    late := fun _ _ => hpending
    esbLock := by
      have hold := hi.esbLock
      rw [hesb] at hold
      exact hold
    unanswered := fun r h => ⟨(hi.unanswered r h).1, .inr rfl⟩
    armed := fun h => ⟨(hi.armed h).1, .inr rfl, (hi.armed h).2.2⟩
    opened := fun r horigin _ => hi.opened r horigin hopen
    looked := fun t h => hi.looked t (by rw [hesb]; exact h)
    admitted := by
      have hnone : ({ s with
          esbRadioFault := fault
          esb := .completing looked success } : ChannelState).ahead = [] := by
        simp [ChannelState.ahead, ChannelState.unapplied, hpending, EsbPlace.applies]
      rw [hadmitted, hresults, hi.admitted, hahead, hnone, List.append_nil, List.map_append]
      cases s.origin <;> rfl
    results := by
      rw [hresults, hcompletions, List.map_append, hi.results, hunreported, List.append_nil]
      simp only [ChannelState.unreported, EsbPlace.result]
      cases s.origin <;> rfl
    answered := by
      rw [hadmitted, hstarted]
      exact hi.answered
    deadline := by
      rw [hadmitted]
      exact fun r horigin _ => hi.deadline r horigin hopen
    prompt := eachAfter_snoc.mpr ⟨hi.prompt, trivial⟩ }

/-- The ESB thread takes the mutex. -/
theorem takeLock {looked : ℕ} {success : Bool} (hi : ChannelInvariant trace s)
    (hesb : s.esb = .completing looked success) (hfree : s.channelCompletionLock = none) :
    ChannelInvariant trace { s with
      channelCompletionLock := some .esb
      esb := .reporting looked success } := by
  have hhid : (s.places .hid).locks ≠ true := fun h => by
    rw [hi.hidLock.mp h] at hfree
    cases hfree
  have hsame : ({ s with
      channelCompletionLock := some .esb
      esb := .reporting looked success } : ChannelState).unapplied = s.unapplied := by
    simp only [ChannelState.unapplied, hesb]
    rfl
  have hopen : s.Open := .inr (by rw [hesb]; rfl)
  exact { hi with
    migrating := fun _ => hi.migrating (.inr (by rw [hesb]; nofun))
    early := nofun
    late := fun _ _ => hi.late (by rw [hesb]; nofun) (by rw [hesb]; rfl)
    hidLock := ⟨fun h => absurd h hhid, nofun⟩
    esbLock := ⟨fun _ => rfl, fun _ => rfl⟩
    unanswered := fun r h => ⟨(hi.unanswered r h).1, .inr rfl⟩
    armed := fun h => ⟨(hi.armed h).1, .inr rfl, (hi.armed h).2.2⟩
    opened := fun r horigin _ => hi.opened r horigin hopen
    looked := fun t h => hi.looked t (by rw [hesb]; exact h)
    admitted := by
      rw [hi.admitted]
      simp only [ChannelState.ahead, hsame]
    results := by
      rw [hi.results]
      simp only [ChannelState.unreported, hesb]
      rfl
    deadline := fun r horigin _ => hi.deadline r horigin hopen }

/-- The result is reported, to a HID request if one is registered. -/
theorem report {looked : ℕ} {success : Bool} (hi : ChannelInvariant trace s)
    (hesb : s.esb = .reporting looked success) : ChannelInvariant
      (trace ++ if s.chHidPending then [.completed ⟨s.chHidSeq, s.chHidOpcode⟩ (doneStatus success)] else [])
      { s with
        chHidPending := false
        esb := .unlocking looked } := by
  have hpending : s.channelChangePending = false := hi.late (by rw [hesb]; nofun) (by rw [hesb]; rfl)
  have hlocked : s.channelCompletionLock = some .esb := hi.esbLock.mp (by rw [hesb]; rfl)
  have hopen : s.Open := .inr (by rw [hesb]; rfl)
  have hhid : (s.places .hid).locks ≠ true := fun h => by
    rw [hi.hidLock.mp h] at hlocked
    cases hlocked
  have hplace : (s.places .hid).unanswered = none ∧ (s.places .hid).arms = false := by
    cases hpoint : s.places .hid <;> first | exact ⟨rfl, rfl⟩ | exact absurd (by rw [hpoint]; rfl) hhid
  have hclosed : ¬({ s with
      chHidPending := false
      esb := .unlocking looked } : ChannelState).Open := by
    simp [ChannelState.Open, ChannelState.unapplied, hpending, EsbPlace.applies, EsbPlace.result]
  -- a HID request that is not registered does not exist
  have hreported : completions (trace ++ if s.chHidPending then
      [.completed ⟨s.chHidSeq, s.chHidOpcode⟩ (doneStatus success)] else []) =
      completions trace ++ s.unreported := by
    rw [completions, List.filterMap_append, ChannelState.unreported, hesb]
    simp only [EsbPlace.result]
    cases harmed : s.chHidPending with
    | true =>
      rw [(hi.armed harmed).1]
      rfl
    | false =>
      have hother : s.origin.request = none := by
        cases horigin : s.origin with
        | hid request =>
          rcases hi.opened request horigin hopen with h | h
          · rw [harmed] at h
            cases h
          · rw [hplace.2] at h
            cases h
        | console | automatic => rfl
      rw [hother]
      rfl
  generalize hes : (if s.chHidPending then
      [ChannelEvent.completed ⟨s.chHidSeq, s.chHidOpcode⟩ (doneStatus success)] else []) = es at hreported ⊢
  have hevents : es = [] ∨ es = [.completed ⟨s.chHidSeq, s.chHidOpcode⟩ (doneStatus success)] := by
    rw [← hes]
    split
    · exact .inr rfl
    · exact .inl rfl
  have hadmitted : admittedHid (trace ++ es) = admittedHid trace := by
    rcases hevents with rfl | rfl <;> simp [admittedHid]
  have hresults : hidResults (trace ++ es) = hidResults trace := by
    rcases hevents with rfl | rfl <;> simp [hidResults]
  have hstarted : started (trace ++ es) = started trace := by
    rcases hevents with rfl | rfl <;> simp [started]
  exact { hi with
    migrating := fun _ => hi.migrating (.inr (by rw [hesb]; nofun))
    early := nofun
    late := fun _ _ => hpending
    esbLock := ⟨fun _ => hlocked, fun _ => rfl⟩
    unanswered := by
      intro r h
      rw [hplace.1] at h
      cases h
    armed := nofun
    opened := fun r _ h => absurd h hclosed
    looked := fun t h => hi.looked t (by rw [hesb]; exact h)
    admitted := by
      have hahead : s.ahead = [] := by simp [ChannelState.ahead, ChannelState.unapplied, hpending, hesb, EsbPlace.applies]
      have hahead' : ({ s with
          chHidPending := false
          esb := .unlocking looked } : ChannelState).ahead = [] := by
        simp [ChannelState.ahead, ChannelState.unapplied, hpending, EsbPlace.applies]
      rw [hadmitted, hresults, hi.admitted, hahead, hahead']
    results := by
      rw [hresults, hreported, hi.results]
      simp [ChannelState.unreported, EsbPlace.result]
    answered := by
      rw [hadmitted, hstarted]
      exact hi.answered
    deadline := fun r _ h => absurd h hclosed
    prompt := by
      rcases hevents with rfl | rfl
      · rw [List.append_nil]
        exact hi.prompt
      · exact eachAfter_snoc.mpr ⟨hi.prompt, trivial⟩ }

/-- What is left of a poll after the report. -/
theorem closed_of_reported {looked : ℕ} (hi : ChannelInvariant trace s)
    (hesb : s.esb = .unlocking looked ∨ s.esb = .ending looked) :
    s.channelChangePending = false ∧ s.ahead = [] ∧ s.unreported = [] ∧ ¬s.Open := by
  have hpending : s.channelChangePending = false := by
    rcases hesb with hesb | hesb <;> exact hi.late (by rw [hesb]; nofun) (by rw [hesb]; rfl)
  rcases hesb with hesb | hesb <;>
    simp [ChannelState.ahead, ChannelState.unreported, ChannelState.Open, ChannelState.unapplied, hpending, hesb,
      EsbPlace.applies, EsbPlace.result]

/-- The ESB thread releases the mutex. -/
theorem unlock {looked : ℕ} (hi : ChannelInvariant trace s) (hesb : s.esb = .unlocking looked) :
    ChannelInvariant trace { s with
      channelCompletionLock := none
      esb := .ending looked } := by
  obtain ⟨hpending, hahead, hunreported, hclosed⟩ := hi.closed_of_reported (.inl hesb)
  have hlocked : s.channelCompletionLock = some .esb := hi.esbLock.mp (by rw [hesb]; rfl)
  have hhid : (s.places .hid).locks ≠ true := fun h => by
    rw [hi.hidLock.mp h] at hlocked
    cases hlocked
  have hclosed' : ¬({ s with
      channelCompletionLock := none
      esb := .ending looked } : ChannelState).Open := by
    simp [ChannelState.Open, ChannelState.unapplied, hpending, EsbPlace.applies, EsbPlace.result]
  exact { hi with
    migrating := fun _ => hi.migrating (.inr (by rw [hesb]; nofun))
    early := nofun
    late := fun _ _ => hpending
    hidLock := ⟨fun h => absurd h hhid, nofun⟩
    esbLock := ⟨nofun, nofun⟩
    unanswered := fun r h => absurd (hi.unanswered r h).2 hclosed
    armed := fun h => absurd (hi.armed h).2.1 hclosed
    opened := fun r _ h => absurd h hclosed'
    looked := fun t h => hi.looked t (by rw [hesb]; exact h)
    admitted := by
      rw [hi.admitted, hahead]
      simp [ChannelState.ahead, ChannelState.unapplied, hpending, EsbPlace.applies]
    results := by
      rw [hi.results, hunreported]
      simp [ChannelState.unreported, EsbPlace.result]
    deadline := fun r _ h => absurd h hclosed' }

/-- The migration gives the radio back. -/
theorem finish {looked : ℕ} {busy : Option Owner} (hi : ChannelInvariant trace s) (hesb : s.esb = .ending looked) :
    ChannelInvariant (trace ++ [ChannelEvent.polled looked]) { s with
      radioOperationBusy := busy
      esb := .idle } := by
  obtain ⟨hpending, hahead, hunreported, hclosed⟩ := hi.closed_of_reported (.inr hesb)
  have hbusy : s.radioOperationBusy = some .migration := hi.migrating (.inr (by rw [hesb]; nofun))
  have hnobody : ∀ c, (s.places c).owns ≠ true := fun c h => by
    rw [hi.owns c h] at hbusy
    cases hbusy
  have hclosed' : ¬({ s with
      radioOperationBusy := busy
      esb := .idle } : ChannelState).Open := not_open_of_closed ⟨hpending, rfl⟩
  have hprompt : Prompt trace (.polled looked) := hi.prompt_polled (.inl (hi.all_completed hclosed))
  have hpolled := hi.polled hprompt
  exact { hpolled with
    owns := fun c h => absurd h (hnobody c)
    migrating := by
      rintro (h | h)
      · rw [hpending] at h
        cases h
      · exact absurd rfl h
    early := nofun
    late := fun h => absurd rfl h
    esbLock := by
      have hold := hi.esbLock
      rw [hesb] at hold
      exact hold
    unanswered := fun r h => absurd (hi.unanswered r h).2 hclosed
    armed := fun h => absurd (hi.armed h).2.1 hclosed
    opened := fun r _ h => absurd h hclosed'
    looked := nofun
    admitted := by
      rw [hpolled.admitted, hahead]
      simp [ChannelState.ahead, ChannelState.unapplied, hpending, EsbPlace.applies]
    results := by
      rw [hpolled.results, hunreported]
      simp [ChannelState.unreported, EsbPlace.result]
    deadline := fun r _ h => absurd h hclosed' }

/-- Every step of the ESB thread. -/
theorem poll {result : ApplyResult} {es : List ChannelEvent} (hi : ChannelInvariant trace s)
    (htaken : pollStep result s = some (s', es)) : ChannelInvariant (trace ++ es) s' := by
  rw [pollStep] at htaken
  cases hesb : s.esb with
  | idle =>
    simp only [hesb] at htaken
    split at htaken
    case isTrue hpending =>
      obtain ⟨rfl, rfl⟩ := Prod.mk.inj (Option.some.inj htaken)
      rw [List.append_nil]
      exact hi.early_step hpending (.inl hesb) (.inr rfl) fun t h => Nat.le_of_eq (Option.some.inj h).symm
    case isFalse hpending =>
      obtain ⟨rfl, rfl⟩ := Prod.mk.inj (Option.some.inj htaken)
      have hclosed : ¬s.Open := not_open_of_closed ⟨Bool.eq_false_iff.mpr hpending, hesb⟩
      exact hi.polled (hi.prompt_polled (.inl (hi.all_completed hclosed)))
  | timed looked =>
    simp only [hesb] at htaken
    have hpending : s.channelChangePending = true := hi.early (by rw [hesb]; rfl)
    have hearly : s.esb = .idle ∨ s.esb.early = true := .inr (by rw [hesb]; rfl)
    split at htaken
    case isTrue hannouncing =>
      obtain ⟨rfl, rfl⟩ := Prod.mk.inj (Option.some.inj htaken)
      have hpolled := hi.polled (hi.prompt_polled (.inr ⟨hesb, hannouncing⟩))
      exact hpolled.early_step hpending hearly (.inl rfl) nofun
    case isFalse =>
      obtain ⟨rfl, rfl⟩ := Prod.mk.inj (Option.some.inj htaken)
      rw [List.append_nil]
      exact hi.early_step hpending hearly (.inr rfl) fun t h => hi.looked t (by rw [hesb]; exact h)
  | clearing looked =>
    simp only [hesb] at htaken
    obtain ⟨rfl, rfl⟩ := Prod.mk.inj (Option.some.inj htaken)
    rw [List.append_nil]
    exact hi.clear hesb
  | applying looked =>
    simp only [hesb] at htaken
    obtain ⟨rfl, rfl⟩ := Prod.mk.inj (Option.some.inj htaken)
    exact hi.apply hesb
  | completing looked success =>
    simp only [hesb] at htaken
    split at htaken
    case isTrue hfree =>
      obtain ⟨rfl, rfl⟩ := Prod.mk.inj (Option.some.inj htaken)
      rw [List.append_nil]
      exact hi.takeLock hesb hfree
    case isFalse => cases htaken
  | reporting looked success =>
    simp only [hesb] at htaken
    have hreport := hi.report hesb
    split at htaken
    case isTrue harmed =>
      obtain ⟨rfl, rfl⟩ := Prod.mk.inj (Option.some.inj htaken)
      rw [if_pos harmed] at hreport
      exact hreport
    case isFalse harmed =>
      obtain ⟨rfl, rfl⟩ := Prod.mk.inj (Option.some.inj htaken)
      rw [if_neg harmed] at hreport
      have hsame : { s with esb := .unlocking looked } = ({ s with
          chHidPending := false
          esb := .unlocking looked } : ChannelState) := by
        rw [← Bool.eq_false_iff.mpr harmed]
      rw [hsame]
      exact hreport
  | unlocking looked =>
    simp only [hesb] at htaken
    obtain ⟨rfl, rfl⟩ := Prod.mk.inj (Option.some.inj htaken)
    rw [List.append_nil]
    exact hi.unlock hesb
  | ending looked =>
    simp only [hesb] at htaken
    obtain ⟨rfl, rfl⟩ := Prod.mk.inj (Option.some.inj htaken)
    exact hi.finish hesb

/-- Every step keeps the invariant. -/
theorem step {op : ChannelOp} {es : List ChannelEvent} (hi : ChannelInvariant trace s)
    (htaken : channelStep s op = some (s', es)) : ChannelInvariant (trace ++ es) s' := by
  cases op with
  | elapse ms =>
    obtain ⟨rfl, rfl⟩ := Prod.mk.inj (Option.some.inj htaken)
    rw [List.append_nil]
    exact { hi with looked := fun t h => Nat.le_trans (hi.looked t h) (Nat.le_add_right _ _) }
  | fault =>
    obtain ⟨rfl, rfl⟩ := Prod.mk.inj (Option.some.inj htaken)
    rw [List.append_nil]
    exact { hi with }
  | otherBegin =>
    simp only [channelStep] at htaken
    split at htaken
    case isTrue hfree =>
      obtain ⟨rfl, rfl⟩ := Prod.mk.inj (Option.some.inj htaken)
      rw [List.append_nil]
      refine hi.setBusy (hi.closed_of_busy (by rw [hfree]; nofun)) fun c h => ?_
      rw [hi.owns c h] at hfree
      cases hfree
    case isFalse => cases htaken
  | otherEnd =>
    simp only [channelStep] at htaken
    split at htaken
    case isTrue hother =>
      obtain ⟨rfl, rfl⟩ := Prod.mk.inj (Option.some.inj htaken)
      rw [List.append_nil]
      refine hi.setBusy (hi.closed_of_busy (by rw [hother]; nofun)) fun c h => ?_
      rw [hi.owns c h] at hother
      cases hother
    case isFalse => cases htaken
  | request c r =>
    simp only [channelStep] at htaken
    split at htaken
    case isTrue hidle =>
      obtain ⟨rfl, rfl⟩ := Prod.mk.inj (Option.some.inj htaken)
      rw [List.append_nil]
      refine hi.moveOne ?_ ?_ ?_
      · cases c <;> first | exact fun _ => rfl | exact fun h => absurd rfl h
      · cases c <;> nofun
      · rintro rfl
        rw [hidle]
        exact ⟨rfl, rfl, rfl, trivial⟩
    case isFalse => cases htaken
  | call c granted => exact hi.call htaken
  | poll result => exact hi.poll htaken

/-- What the host sees. -/
theorem law (hi : ChannelInvariant trace s) : ChannelLaw trace := by
  have hahead : s.ahead.length ≤ 1 := by
    rw [ChannelState.ahead]
    split
    · cases s.origin.request <;> simp
    · exact Nat.zero_le _
  have hunreported : s.unreported.length ≤ 1 := by
    rw [ChannelState.unreported]
    split
    · exact Nat.le_refl _
    · exact Nat.zero_le _
  have hunanswered : (s.places .hid).unanswered.toList.length ≤ 1 := by
    cases (s.places .hid).unanswered <;> simp
  refine ⟨⟨_, hi.answered, hunanswered⟩, ⟨_, hi.admitted, hahead⟩, ⟨_, hi.results, hunreported⟩, ?_, hi.prompt⟩
  have hlength := hi.admitted_length
  have hanswered := congrArg List.length hi.answered
  rw [List.length_map, List.length_append] at hanswered
  cases hplace : (s.places .hid).unanswered with
  | none =>
    rw [hplace, Option.toList_none, List.length_nil] at hanswered
    omega
  | some request =>
    -- the unanswered request is the one that is open
    obtain ⟨horigin, hopen⟩ := hi.unanswered request hplace
    have hopen : 0 < s.unreported.length + s.ahead.length := by
      rcases hopen with hunapplied | hresult
      · rw [ChannelState.ahead, if_pos hunapplied, horigin]
        exact Nat.succ_pos _
      · obtain ⟨success, hsuccess⟩ := Option.isSome_iff_exists.mp hresult
        rw [ChannelState.unreported, hsuccess, horigin]
        exact Nat.add_pos_left Nat.one_pos _
    rw [hplace, Option.toList_some, List.length_singleton] at hanswered
    omega

end ChannelInvariant

/-- **Channel completions.** In every interleaving of HID requests, console commands, automatic changes, other
users of the radio and the ESB thread, the requests answered `STARTED` are those whose migration was admitted,
one after the other, and the completions are theirs, in this order and with the results of their own
migrations. A completion never precedes its answer, and when `channel_change_poll` returns, every request
whose announcement was over when it looked is completed. -/
theorem channel_completions (trace : List ChannelEvent) (s : ChannelState) (h : channelSystem.Run trace s) :
    ChannelLaw trace := by
  have hi : ChannelInvariant trace s :=
    h.history_invariant channelInvariant_boot fun trace s op s' es hi _ htaken => hi.step htaken
  exact hi.law

/-- A HID request that is started, a console command that finds the radio busy, and the completion. -/
def startedThenBusy : List ChannelOp :=
  [ChannelOp.request .hid ⟨7, some 25⟩] ++ List.replicate 5 (ChannelOp.call .hid true) ++
    [ChannelOp.request (.console 0) ⟨0, none⟩] ++ List.replicate 2 (ChannelOp.call (.console 0) true) ++
    List.replicate 4 (ChannelOp.call .hid true) ++ [ChannelOp.elapse 3000] ++ List.replicate 8 (ChannelOp.poll .error)

theorem channel_completions_busy : ∃ trace s, channelSystem.Run trace s ∧ ChannelLaw trace ∧
    completions trace = [(⟨7, opTrackerChAll⟩, .enoent)] := by
  obtain ⟨trace, s, hrun, htest⟩ := channelSystem.exists_run_of_replay startedThenBusy
    (fun trace _ => decide (completions trace = [(⟨7, opTrackerChAll⟩, .enoent)])) (by decide +kernel)
  exact ⟨trace, s, hrun, channel_completions trace s hrun, of_decide_eq_true htest⟩

end ChannelChange

end SlimeReceiver
