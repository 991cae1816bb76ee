import SlimeReceiver.Library.EventSystem
import SlimeReceiver.Events.Cache

/-! # The event cache of a tracker as a system

A tracker's cache under receptions, silence checks, pairing cleanups and delivered rest states in
any order and with any times. What the critical sections do to the entries is reported.

* **`CacheEvent`**, **`cacheStep`**, **`cacheSystem`** — the system.
* **`SessionRel`** — everything `processSession` can do, in five cases, and
  `processSession_rel`.
* **`ReceiveRel`** — the same for `processRx`, around the pairing and the session of the event. -/

namespace SlimeReceiver.Events

/-! ## The system -/

/-- What a history records of a cache. -/
inductive CacheEvent
  /-- The cache was cleared for another pairing. -/
  | wiped
  /-- The session `nonce` was left. -/
  | sessionLeft (nonce : BitVec 32) (time : ℕ)
  | sessionEntered (nonce : BitVec 32)
  /-- The entry was reported as ended by a session change. -/
  | observed (slot : CacheSlot)
  /-- A heartbeat of the entry. -/
  | refreshed (slot : CacheSlot) (time : ℕ)
  /-- An accepted event went into the entry. -/
  | stored (slot : CacheSlot) (e : TrackerEvent) (order : BitVec 32) (time : ℕ)
  /-- The entry was reported as silent. -/
  | silenced (slot : CacheSlot) (reason : BitVec 8)
  deriving DecidableEq, Repr

/-- The critical sections that work on a cache. -/
inductive CacheOp
  | receive (sub : Subscription) (generation : BitVec 32) (rx : RxEvent)
  | cleanup (generation : BitVec 32)
  | silence (sub : Subscription) (generation : BitVec 32) (tracker : BitVec 8) (now : BitVec 32)
      (slot : CacheSlot)
  | commit (sub : Subscription) (out : Delivery)

namespace TrackerCache

/-- What `store` reports. -/
def storeEvents (rx : RxEvent) (slot : Option CacheSlot) (order : BitVec 32) (c : TrackerCache) :
    List CacheEvent :=
  if c.stores rx slot order then [.stored (c.targetOf rx slot) rx.event order rx.receivedAt] else []

/-- What `accept` reports. -/
def acceptEvents (rx : RxEvent) (slot : Option CacheSlot) (c : TrackerCache) : List CacheEvent :=
  let checked := c.unseen rx.event.eventSeq rx.stamp
  if checked.2 then
    let order := checked.1.window.orderOf rx.event.eventSeq
    if checked.1.outdated rx.event slot order then []
    else (checked.1.withNotice rx.event order rx.stamp).storeEvents rx slot order
  else []

/-- What `processSession` reports. -/
def sessionEvents (rx : RxEvent) (c : TrackerCache) : List CacheEvent :=
  let slot := c.lookup rx.event
  if c.isHeartbeat rx.event slot then slot.toList.map fun slot => .refreshed slot rx.receivedAt
  else c.acceptEvents rx slot

/-- What a change of session reports. -/
def changeEvents (rx : RxEvent) (c : TrackerCache) : List CacheEvent :=
  (if c.nonce = 0 then []
    else c.outstandingSlots.map CacheEvent.observed ++ [CacheEvent.sessionLeft c.nonce rx.receivedAt]) ++
    [.sessionEntered rx.event.nonce]

/-- What `resetPairing` reports. -/
def pairingEvents (generation : BitVec 32) (c : TrackerCache) : List CacheEvent :=
  if c.pairingGeneration = generation then [] else [.wiped]

/-- What `processRx` reports. -/
def rxEvents (generation : BitVec 32) (rx : RxEvent) (c : TrackerCache) : List CacheEvent :=
  if rx.pairingGeneration ≠ generation then []
  else
    let current := c.resetPairing generation
    c.pairingEvents generation ++
      if current.nonce = rx.event.nonce then current.sessionEvents rx
      else if current.retires rx then []
      else current.changeEvents rx ++ (current.enterSession rx).sessionEvents rx

/-- What `silenceStep` reports. -/
def silenceEvents (generation now : BitVec 32) (slot : CacheSlot) (c : TrackerCache) :
    List CacheEvent :=
  if c.pairingGeneration ≠ generation then []
  else if c.silent now slot then [.silenced slot (c.reasonFor now slot).1]
  else []

end TrackerCache

open TrackerCache

/-- One critical section. Only valid events are queued. -/
def cacheStep (c : TrackerCache) : CacheOp → Option (TrackerCache × List CacheEvent)
  | .receive sub generation rx =>
    if trackerEventValid rx.event then
      some ((c.processRx sub generation rx).1, c.rxEvents generation rx)
    else none
  | .cleanup generation => some (c.resetPairing generation, c.pairingEvents generation)
  | .silence sub generation tracker now slot =>
    some ((c.silenceStep sub generation tracker now slot).1, c.silenceEvents generation now slot)
  | .commit sub out => some (c.commitRest sub out, [])

/-- The cache of a tracker, from its static zeros. -/
def cacheSystem : EventSystem TrackerCache CacheOp CacheEvent where
  init := .zero
  step := cacheStep

/-! ## What a reception can do -/

section Receive

variable {c : TrackerCache}

/-- What an event does within its session. -/
inductive SessionRel (rx : RxEvent) (c : TrackerCache) :
    TrackerCache → List Delivery → List CacheEvent → Prop
  | heartbeat (slot : CacheSlot) (hslot : c.lookup rx.event = some slot)
      (hused : (c.entry slot).used = true) (hsame : (c.entry slot).event = rx.event) :
      SessionRel rx c (c.refresh rx slot).1 (c.refresh rx slot).2 [.refreshed slot rx.receivedAt]
  | duplicate (hseen : (c.unseen rx.event.eventSeq rx.stamp).2 = false) : SessionRel rx c c [] []
  | outdated (hfresh : (c.unseen rx.event.eventSeq rx.stamp).2 = true)
      (hstate : rx.event.isState = true) :
      SessionRel rx c (c.unseen rx.event.eventSeq rx.stamp).1 [] []
  | passed (current : TrackerCache) (order : BitVec 32)
      (hfresh : (c.unseen rx.event.eventSeq rx.stamp).2 = true)
      (hcurrent : current =
        (c.unseen rx.event.eventSeq rx.stamp).1.withNotice rx.event order rx.stamp)
      (horder : order = (c.unseen rx.event.eventSeq rx.stamp).1.window.orderOf rx.event.eventSeq)
      (hkept : current.stores rx (c.lookup rx.event) order = false) :
      SessionRel rx c current [rx.delivery hidOpTrackerEvent 0] []
  | stored (current : TrackerCache) (order : BitVec 32)
      (hfresh : (c.unseen rx.event.eventSeq rx.stamp).2 = true)
      (hcurrent : current =
        (c.unseen rx.event.eventSeq rx.stamp).1.withNotice rx.event order rx.stamp)
      (horder : order = (c.unseen rx.event.eventSeq rx.stamp).1.window.orderOf rx.event.eventSeq)
      (hnew : c.isHeartbeat rx.event (c.lookup rx.event) = false)
      (hstores : current.stores rx (c.lookup rx.event) order = true) :
      SessionRel rx c (current.store rx (c.lookup rx.event) order).1
        (current.store rx (c.lookup rx.event) order).2
        [.stored (current.targetOf rx (c.lookup rx.event)) rx.event order rx.receivedAt]

/-- A number that is not new changes nothing. -/
theorem unseen_of_seen {seq : BitVec 16} {now : BitVec 32} (h : (c.unseen seq now).2 = false) :
    (c.unseen seq now).1 = c := by
  unfold unseen at h ⊢
  split at h
  case isTrue => cases h
  case isFalse hquiet =>
    rw [if_neg hquiet]
    split at h
    case isTrue => cases h
    case isFalse hnewer =>
      rw [if_neg hnewer]
      split at h
      case isTrue hcovered => rw [if_pos hcovered]
      case isFalse => cases h

theorem processSession_rel (rx : RxEvent) (c : TrackerCache) :
    SessionRel rx c (c.processSession rx).1 (c.processSession rx).2 (c.sessionEvents rx) := by
  unfold processSession sessionEvents
  simp only []
  by_cases hheart : c.isHeartbeat rx.event (c.lookup rx.event) = true
  · rw [if_pos hheart, if_pos hheart]
    cases hslot : c.lookup rx.event with
    | none =>
      rw [hslot] at hheart
      cases hheart
    | some slot =>
      rw [hslot, isHeartbeat, Bool.and_eq_true, beq_iff_eq] at hheart
      exact .heartbeat slot hslot hheart.1 hheart.2
  · rw [if_neg hheart, if_neg hheart]
    unfold accept acceptEvents
    simp only []
    cases hfresh : (c.unseen rx.event.eventSeq rx.stamp).2 with
    | false =>
      rw [if_neg Bool.false_ne_true, if_neg Bool.false_ne_true, unseen_of_seen hfresh]
      exact .duplicate hfresh
    | true =>
      rw [if_pos rfl, if_pos rfl]
      split
      case isTrue houtdated =>
        rw [TrackerCache.outdated, Bool.and_eq_true] at houtdated
        exact .outdated hfresh houtdated.1
      case isFalse =>
        unfold storeEvents
        split
        case isTrue hstores =>
          exact .stored _ _ hfresh rfl rfl (Bool.eq_false_of_not_eq_true hheart) hstores
        case isFalse hstores =>
          rw [store, if_neg hstores]
          exact .passed _ _ hfresh rfl rfl (Bool.eq_false_of_not_eq_true hstores)

/-- What a received event does to the cache of its tracker. -/
inductive ReceiveRel (sub : Subscription) (generation : BitVec 32) (rx : RxEvent) (c : TrackerCache) :
    TrackerCache → List Delivery → List CacheEvent → Prop
  | unpaired (h : rx.pairingGeneration ≠ generation) : ReceiveRel sub generation rx c c [] []
  | retired (hpaired : rx.pairingGeneration = generation)
      (hnonce : (c.resetPairing generation).nonce ≠ rx.event.nonce)
      (hretired : (c.resetPairing generation).retires rx = true) :
      ReceiveRel sub generation rx c (c.resetPairing generation) [] (c.pairingEvents generation)
  | session {c' : TrackerCache} {out : List Delivery} {log : List CacheEvent}
      (hpaired : rx.pairingGeneration = generation)
      (hnonce : (c.resetPairing generation).nonce = rx.event.nonce)
      (h : SessionRel rx (c.resetPairing generation) c' out log) :
      ReceiveRel sub generation rx c c' out (c.pairingEvents generation ++ log)
  | change {c' : TrackerCache} {out : List Delivery} {log : List CacheEvent}
      (hpaired : rx.pairingGeneration = generation)
      (hnonce : (c.resetPairing generation).nonce ≠ rx.event.nonce)
      (hretired : (c.resetPairing generation).retires rx = false)
      (h : SessionRel rx ((c.resetPairing generation).enterSession rx) c' out log) :
      ReceiveRel sub generation rx c c' ((c.resetPairing generation).sessionObservations sub rx ++ out)
        (c.pairingEvents generation ++ ((c.resetPairing generation).changeEvents rx ++ log))

theorem processRx_rel (sub : Subscription) (generation : BitVec 32) (rx : RxEvent)
    (c : TrackerCache) : ReceiveRel sub generation rx c (c.processRx sub generation rx).1
      (c.processRx sub generation rx).2 (c.rxEvents generation rx) := by
  unfold processRx rxEvents
  by_cases hpaired : rx.pairingGeneration = generation
  · rw [if_neg (not_not.mpr hpaired), if_neg (not_not.mpr hpaired)]
    simp only []
    by_cases hnonce : (c.resetPairing generation).nonce = rx.event.nonce
    · rw [if_pos hnonce, if_pos hnonce]
      exact .session hpaired hnonce (processSession_rel rx _)
    · rw [if_neg hnonce, if_neg hnonce]
      cases hretired : (c.resetPairing generation).retires rx with
      | true =>
        rw [if_pos rfl, if_pos rfl, List.append_nil]
        exact .retired hpaired hnonce hretired
      | false =>
        rw [if_neg Bool.false_ne_true, if_neg Bool.false_ne_true]
        exact .change hpaired hnonce hretired (processSession_rel rx _)
  · rw [if_pos hpaired, if_pos hpaired]
    exact .unpaired hpaired

/-- A reception the system takes is one of a valid event. -/
theorem cacheStep_receive {sub : Subscription} {generation : BitVec 32} {rx : RxEvent}
    {c' : TrackerCache} {log : List CacheEvent}
    (h : cacheStep c (.receive sub generation rx) = some (c', log)) :
    trackerEventValid rx.event = true ∧ ∃ out, ReceiveRel sub generation rx c c' out log := by
  have htaken : (if trackerEventValid rx.event = true then
    some ((c.processRx sub generation rx).1, c.rxEvents generation rx) else none) = some (c', log) := h
  split at htaken
  case isTrue hvalid =>
    obtain ⟨rfl, rfl⟩ := Prod.mk.inj (Option.some.inj htaken)
    exact ⟨hvalid, _, processRx_rel sub generation rx c⟩
  case isFalse => cases htaken

end Receive

/-! ## What entries and notices leave alone -/

section Frame

variable (c : TrackerCache)

@[simp] theorem withEntry_window (slot : CacheSlot) (cache : EventCache) :
    (c.withEntry slot cache).window = c.window := by cases slot <;> rfl

@[simp] theorem withEntry_power (slot : CacheSlot) (cache : EventCache) :
    (c.withEntry slot cache).power = c.power := by cases slot <;> rfl

@[simp] theorem withNotice_window (e : TrackerEvent) (order now : BitVec 32) :
    (c.withNotice e order now).window = c.window := by
  unfold withNotice
  split <;> rfl

@[simp] theorem withNotice_entry (e : TrackerEvent) (order now : BitVec 32) (slot : CacheSlot) :
    (c.withNotice e order now).entry slot = c.entry slot := by
  unfold withNotice
  split <;> cases slot <;> rfl

@[simp] theorem withEvidence_entry (e : TrackerEvent) (order now : BitVec 32) (slot : CacheSlot) :
    (c.withEvidence e order now).entry slot = c.entry slot := by
  cases slot <;> rfl

@[simp] theorem unseen_entry (seq : BitVec 16) (now : BitVec 32) (slot : CacheSlot) :
    (c.unseen seq now).1.entry slot = c.entry slot := by
  unfold unseen
  split
  · cases slot <;> rfl
  · split
    · cases slot <;> rfl
    · split <;> cases slot <;> rfl

@[simp] theorem withEntry_entry_self (slot : CacheSlot) (cache : EventCache) :
    (c.withEntry slot cache).entry slot = cache := by
  cases slot <;> simp [withEntry, entry]

theorem withEntry_entry_of_ne {slot other : CacheSlot} (h : other ≠ slot) (cache : EventCache) :
    (c.withEntry slot cache).entry other = c.entry other := by
  cases slot with
  | operation i =>
    cases other with
    | operation j =>
      have hne : j ≠ i := fun hij => h (hij ▸ rfl)
      simp only [withEntry, entry, Function.update_of_ne hne]
    | rest => rfl
  | rest fusion =>
    cases other with
    | operation => rfl
    | rest fusion' =>
      have hne : fusion' ≠ fusion := fun heq => h (heq ▸ rfl)
      simp only [withEntry, entry, Function.update_of_ne hne]

end Frame

/-- The pairing and the sessions of a cache. -/
structure SameSession (c c' : TrackerCache) : Prop where
  pairing_eq : c'.pairingGeneration = c.pairingGeneration
  nonce_eq : c'.nonce = c.nonce
  retiredNonce_eq : c'.retiredNonce = c.retiredNonce
  retiredAt_eq : c'.retiredAt = c.retiredAt

namespace SameSession

variable {c c' c'' : TrackerCache}

theorem refl (c : TrackerCache) : SameSession c c := ⟨rfl, rfl, rfl, rfl⟩

theorem trans (h : SameSession c c') (h' : SameSession c' c'') : SameSession c c'' :=
  ⟨h'.pairing_eq.trans h.pairing_eq, h'.nonce_eq.trans h.nonce_eq,
    h'.retiredNonce_eq.trans h.retiredNonce_eq, h'.retiredAt_eq.trans h.retiredAt_eq⟩

theorem withEntry (c : TrackerCache) (slot : CacheSlot) (cache : EventCache) :
    SameSession c (c.withEntry slot cache) := by
  cases slot <;> exact ⟨rfl, rfl, rfl, rfl⟩

theorem withEvidence (c : TrackerCache) (e : TrackerEvent) (order now : BitVec 32) :
    SameSession c (c.withEvidence e order now) := ⟨rfl, rfl, rfl, rfl⟩

theorem withNotice (c : TrackerCache) (e : TrackerEvent) (order now : BitVec 32) :
    SameSession c (c.withNotice e order now) := by
  unfold TrackerCache.withNotice
  split <;> exact ⟨rfl, rfl, rfl, rfl⟩

theorem unseen (c : TrackerCache) (seq : BitVec 16) (now : BitVec 32) :
    SameSession c (c.unseen seq now).1 := by
  unfold TrackerCache.unseen
  split
  · exact ⟨rfl, rfl, rfl, rfl⟩
  · split
    · exact ⟨rfl, rfl, rfl, rfl⟩
    · split <;> exact ⟨rfl, rfl, rfl, rfl⟩

end SameSession

/-- Within its session an event leaves the session alone. -/
theorem SessionRel.sameSession {rx : RxEvent} {c c' : TrackerCache} {out : List Delivery}
    {log : List CacheEvent} (h : SessionRel rx c c' out log) : SameSession c c' := by
  cases h with
  | heartbeat slot =>
    unfold refresh
    simp only []
    have hnoted : SameSession c (if trackerEventIsCalibration rx.event.kind = true then
        c.withEvidence rx.event (c.entry slot).order rx.stamp else c) := by
      split
      · exact .withEvidence _ _ _ _
      · exact .refl c
    split
    · exact hnoted.trans (.withEntry _ _ _)
    · exact hnoted.trans (.withEntry _ _ _)
  | duplicate => exact .refl c
  | outdated => exact .unseen _ _ _
  | passed current order _ hcurrent =>
    rw [hcurrent]
    exact (SameSession.unseen _ _ _).trans (.withNotice _ _ _ _)
  | stored current order _ hcurrent _ _ hstores =>
    have hchecked : SameSession c current := by
      rw [hcurrent]
      exact (SameSession.unseen _ _ _).trans (.withNotice _ _ _ _)
    rw [store, if_pos hstores]
    simp only []
    refine hchecked.trans (SameSession.trans ?_ (.withEntry _ _ _))
    split
    · exact .refl _
    · exact .withEvidence _ _ _ _

/-- Silence checks leave the session alone. -/
theorem silenceStep_sameSession (sub : Subscription) (generation : BitVec 32) (tracker : BitVec 8)
    (now : BitVec 32) (slot : CacheSlot) (c : TrackerCache) :
    SameSession c (c.silenceStep sub generation tracker now slot).1 := by
  unfold silenceStep
  split
  · exact .refl c
  · split
    · cases slot <;> exact ⟨rfl, rfl, rfl, rfl⟩
    · split <;> exact .refl c

/-- So does the end of a delivery. -/
theorem commitRest_sameSession (sub : Subscription) (out : Delivery) (c : TrackerCache) :
    SameSession c (c.commitRest sub out) := by
  unfold commitRest
  simp only []
  split
  · exact .withEntry _ _ _
  · exact .refl c

end SlimeReceiver.Events
