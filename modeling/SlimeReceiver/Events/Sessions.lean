import SlimeReceiver.Events.Codec
import SlimeReceiver.Events.CacheSystem

/-! # The boot sessions of a tracker

A tracker names each boot by a nonce. The cache remembers the session that was left last, and when,
and drops delayed packets of that session for `trackerEventTtlMs`. Only one session is remembered,
so a packet of an earlier one opens it again.

* **`lastLeft`** — the session a history left last.
* **`Retired`** — the cache remembers that session, and is in another one.
* **`session_retirement`** — delayed packets of it have no effect, and what a change of session
  reports of the session it leaves. -/

namespace SlimeReceiver.Events

open TrackerCache

/-! ## The session that was left last -/

/-- How an event moves the session that was left last. -/
def CacheEvent.leave (last : Option (BitVec 32 × ℕ)) : CacheEvent → Option (BitVec 32 × ℕ)
  | .sessionLeft nonce time => some (nonce, time)
  | .wiped => none
  | _ => last

/-- The session a history left last on its pairing generation, and when. -/
def lastLeft (trace : List CacheEvent) : Option (BitVec 32 × ℕ) := trace.foldl CacheEvent.leave none

theorem lastLeft_append (trace log : List CacheEvent) :
    lastLeft (trace ++ log) = log.foldl CacheEvent.leave (lastLeft trace) := by
  rw [lastLeft, List.foldl_append]
  rfl

/-- The cache remembers the session that was left last, and is in another one. -/
def Retired (last : Option (BitVec 32 × ℕ)) (c : TrackerCache) : Prop :=
  ∀ nonce time, last = some (nonce, time) →
    c.retiredNonce = nonce ∧ c.retiredAt = stamp time ∧ c.nonce ≠ nonce ∧ c.nonce ≠ 0

namespace Retired

variable {last : Option (BitVec 32 × ℕ)} {c c' : TrackerCache}

theorem none : Retired .none c := fun _ _ h => by cases h

theorem same (h : Retired last c) (hsame : SameSession c c') : Retired last c' := by
  intro nonce time hlast
  obtain ⟨hnonce, hat, hne, hzero⟩ := h nonce time hlast
  exact ⟨hsame.retiredNonce_eq.trans hnonce, hsame.retiredAt_eq.trans hat,
    hsame.nonce_eq ▸ hne, hsame.nonce_eq ▸ hzero⟩

/-- A cache outside every session has none to remember. -/
theorem eq_none (h : Retired last c) (hzero : c.nonce = 0) : last = .none := by
  cases last with
  | none => rfl
  | some left => exact absurd hzero (h left.1 left.2 rfl).2.2.2

theorem resetPairing (h : Retired last c) (generation : BitVec 32) :
    Retired ((c.pairingEvents generation).foldl CacheEvent.leave last)
      (c.resetPairing generation) := by
  unfold pairingEvents TrackerCache.resetPairing
  split
  case isTrue => exact h
  case isFalse => exact none

/-- A change of session leaves the one the cache was in. -/
theorem enterSession (h : Retired last c) {rx : RxEvent} (hvalid : rx.event.nonce ≠ 0)
    (hnonce : c.nonce ≠ rx.event.nonce) :
    Retired ((c.changeEvents rx).foldl CacheEvent.leave last) (c.enterSession rx) := by
  unfold changeEvents
  by_cases hzero : c.nonce = 0
  · rw [if_pos hzero, h.eq_none hzero]
    exact none
  · rw [if_neg hzero]
    intro nonce time hlast
    simp only [List.foldl_append, List.foldl_cons, List.foldl_nil, CacheEvent.leave] at hlast
    obtain ⟨rfl, rfl⟩ := Prod.mk.inj (Option.some.inj hlast)
    exact ⟨if_neg hzero, if_neg hzero, hnonce.symm, hvalid⟩

end Retired

/-- Within a session none is left. -/
theorem SessionRel.leave {rx : RxEvent} {c c' : TrackerCache} {out : List Delivery}
    {log : List CacheEvent} (h : SessionRel rx c c' out log) (last : Option (BitVec 32 × ℕ)) :
    log.foldl CacheEvent.leave last = last := by
  cases h <;> rfl

/-- At the end of every run the cache remembers the session the history left last. -/
theorem retired_of_run {trace : List CacheEvent} {c : TrackerCache}
    (h : cacheSystem.Run trace c) : Retired (lastLeft trace) c := by
  refine h.history_invariant (P := fun trace c => Retired (lastLeft trace) c) .none
    fun trace c op c' log hc _ hstep => ?_
  rw [lastLeft_append]
  cases op with
  | receive sub generation rx =>
    obtain ⟨hvalid, out, hrel⟩ := cacheStep_receive hstep
    have hpaired := hc.resetPairing generation
    cases hrel with
    | unpaired => exact hc
    | retired => exact hpaired
    | session _ _ hsession =>
      rw [List.foldl_append, hsession.leave]
      exact hpaired.same hsession.sameSession
    | change _ hnonce _ hsession =>
      rw [List.foldl_append, List.foldl_append, hsession.leave]
      exact (hpaired.enterSession (trackerEventValid_iff.mp hvalid).1 hnonce).same
        hsession.sameSession
  | cleanup generation =>
    obtain ⟨rfl, rfl⟩ := Prod.mk.inj (Option.some.inj hstep)
    exact hc.resetPairing generation
  | silence sub generation tracker now slot =>
    obtain ⟨rfl, rfl⟩ := Prod.mk.inj (Option.some.inj hstep)
    have hkept : (c.silenceEvents generation now slot).foldl CacheEvent.leave (lastLeft trace) =
        lastLeft trace := by
      unfold silenceEvents
      split
      · rfl
      · split <;> rfl
    rw [hkept]
    exact hc.same (silenceStep_sameSession _ _ _ _ _ _)
  | commit sub out =>
    obtain ⟨rfl, rfl⟩ := Prod.mk.inj (Option.some.inj hstep)
    exact hc.same (commitRest_sameSession _ _ _)

/-- The event changes which session was left last. -/
def CacheEvent.changesLeft : CacheEvent → Bool
  | .sessionLeft .. | .wiped => true
  | _ => false

theorem lastLeft_since {earlier since : List CacheEvent} {nonce : BitVec 32} {time : ℕ}
    (hsince : ∀ e ∈ since, e.changesLeft = false) :
    lastLeft (earlier ++ .sessionLeft nonce time :: since) = some (nonce, time) := by
  rw [lastLeft_append, List.foldl_cons]
  refine foldl_eq_self (fun e he last => ?_) _
  cases e with
  | sessionLeft => cases hsince _ he
  | wiped => cases hsince _ he
  | _ => rfl

/-! ## What has no effect -/

section Reception

variable {sub : Subscription} {rx : RxEvent} {c : TrackerCache}

theorem resetPairing_self (c : TrackerCache) : c.resetPairing c.pairingGeneration = c := if_pos rfl

/-- A delayed packet of the session that was left last has no effect. -/
theorem processRx_of_retires (hnonce : c.nonce ≠ rx.event.nonce) (hretired : c.retires rx = true) :
    c.processRx sub c.pairingGeneration rx = (c, []) := by
  unfold processRx
  split
  case isTrue => rfl
  case isFalse =>
    simp only [resetPairing_self]
    rw [if_neg hnonce, if_pos hretired]

theorem Retired.processRx {nonce : BitVec 32} {time : ℕ} (h : Retired (some (nonce, time)) c)
    (hnonce : rx.event.nonce = nonce) (hlow : time ≤ rx.receivedAt)
    (hhigh : rx.receivedAt < time + trackerEventTtlMs) :
    c.processRx sub c.pairingGeneration rx = (c, []) := by
  obtain ⟨hretired, hat, hne, -⟩ := h nonce time rfl
  refine processRx_of_retires (hnonce ▸ hne) ?_
  have helapsed : elapsed rx.stamp c.retiredAt < trackerEventTtlMs := by
    have hle : elapsed (stamp rx.receivedAt) (stamp time) ≤ rx.receivedAt - time :=
      elapsed_stamp_le hlow
    rw [hat, RxEvent.stamp]
    omega
  rw [retires, hretired, hnonce, beq_self_eq_true, decide_eq_true helapsed, Bool.true_and]

end Reception

/-! ## What a change of session reports -/

section Change

variable {sub : Subscription} {rx : RxEvent} {c : TrackerCache}

/-- The entries are listed once each. -/
theorem allSlots_nodup : allSlots.Nodup := by decide

theorem mem_outstandingSlots {slot : CacheSlot} :
    slot ∈ c.outstandingSlots ↔ slot ∈ allSlots ∧ (c.entry slot).outstanding slot = true :=
  List.mem_filter

theorem outstandingSlots_nodup (c : TrackerCache) : c.outstandingSlots.Nodup :=
  allSlots_nodup.filter _

/-- A new session starts without entries. -/
@[simp] theorem enterSession_entry (rx : RxEvent) (c : TrackerCache) (slot : CacheSlot) :
    (c.enterSession rx).entry slot = .zero := by
  cases slot <;> rfl

/-- The first event of a session is no heartbeat, so it puts out at most itself. -/
theorem SessionRel.out_of_entered {c' : TrackerCache} {out : List Delivery} {log : List CacheEvent}
    (h : SessionRel rx (c.enterSession rx) c' out log) :
    ∀ d ∈ out, d.opcode = hidOpTrackerEvent ∧ d.event = rx.event := by
  intro d hd
  cases h with
  | heartbeat slot _ hused =>
    rw [enterSession_entry] at hused
    cases hused
  | duplicate => cases hd
  | outdated => cases hd
  | passed =>
    rw [List.mem_singleton.mp hd]
    exact ⟨rfl, rfl⟩
  | stored current order _ _ _ _ hstores =>
    rw [store, if_pos hstores] at hd
    rw [List.mem_singleton.mp hd]
    exact ⟨rfl, rfl⟩

/-- A change of session reports every outstanding entry of the session it leaves once, and then at
most the event that opened the new one. -/
theorem processRx_of_change (sub : Subscription)
    (hpaired : rx.pairingGeneration = c.pairingGeneration) (hzero : c.nonce ≠ 0)
    (hnonce : c.nonce ≠ rx.event.nonce) (hretired : c.retires rx = false) :
    ∃ out, (c.processRx sub c.pairingGeneration rx).2 =
        (c.outstandingSlots.map fun slot =>
          observation sub (c.entry slot) calReasonSessionChanged rx.stamp) ++ out ∧
      ∀ d ∈ out, d.opcode = hidOpTrackerEvent ∧ d.event = rx.event := by
  have hobserved : c.sessionObservations sub rx = c.outstandingSlots.map fun slot =>
      observation sub (c.entry slot) calReasonSessionChanged rx.stamp := if_neg hzero
  refine ⟨((c.enterSession rx).processSession rx).2, ?_,
    (processSession_rel rx (c.enterSession rx)).out_of_entered⟩
  unfold processRx
  rw [if_neg (not_not.mpr hpaired)]
  simp only [resetPairing_self]
  rw [if_neg hnonce, hretired, if_neg Bool.false_ne_true, hobserved]

/-- A stale entry is not reported as silent. -/
theorem silenceEvents_of_stale {generation now : BitVec 32} {slot : CacheSlot}
    (hstale : (c.entry slot).stale = true) : c.silenceEvents generation now slot = [] := by
  have hsilent : c.silent now slot = false := by simp [silent, hstale]
  unfold silenceEvents
  rw [hsilent, if_neg Bool.false_ne_true]
  split <;> rfl

end Change

/-- **Session retirement.** A packet of the session that was left last, received less than
`trackerEventTtlMs` later, has no effect. A change of session reports each running operation and each
rest state that is not stale once, and besides these at most the event that opened the new session;
and an entry that is stale is not reported as silent. -/
theorem session_retirement {trace : List CacheEvent} {c : TrackerCache}
    (h : cacheSystem.Run trace c) :
    (∀ earlier since nonce time, trace = earlier ++ .sessionLeft nonce time :: since →
      (∀ e ∈ since, e.changesLeft = false) → ∀ sub rx, rx.event.nonce = nonce →
        time ≤ rx.receivedAt → rx.receivedAt < time + trackerEventTtlMs →
        c.processRx sub c.pairingGeneration rx = (c, [])) ∧
    (∀ sub rx, rx.pairingGeneration = c.pairingGeneration → c.nonce ≠ 0 →
      c.nonce ≠ rx.event.nonce → c.retires rx = false →
      ∃ (slots : List CacheSlot) (out : List Delivery), (c.processRx sub c.pairingGeneration rx).2 =
          (slots.map fun slot => observation sub (c.entry slot) calReasonSessionChanged rx.stamp) ++
            out ∧
        slots.Nodup ∧
        (∀ slot, slot ∈ slots ↔ slot ∈ allSlots ∧ (c.entry slot).outstanding slot = true) ∧
        ∀ d ∈ out, d.opcode = hidOpTrackerEvent ∧ d.event = rx.event) ∧
    ∀ generation now slot, (c.entry slot).stale = true →
      c.silenceEvents generation now slot = [] := by
  refine ⟨?_, ?_, fun generation now slot => silenceEvents_of_stale⟩
  · intro earlier since nonce time htrace hsince sub rx hnonce hlow hhigh
    have hretired := retired_of_run h
    rw [htrace, lastLeft_since hsince] at hretired
    exact hretired.processRx hnonce hlow hhigh
  · intro sub rx hpaired hzero hnonce hretired
    obtain ⟨out, hout, hothers⟩ := processRx_of_change sub hpaired hzero hnonce hretired
    exact ⟨c.outstandingSlots, out, hout, outstandingSlots_nodup c,
      fun slot => mem_outstandingSlots, hothers⟩

/-- A click of the button in a session of tracker 0. -/
def buttonClick (nonce : BitVec 32) (seq : BitVec 16) : TrackerEvent where
  nonce := nonce
  eventSeq := seq
  operationId := 0
  trackerId := 0
  kind := kindButton
  event := calEventNotice
  outcome := calOutcomeNone
  phase := 1
  detail := 1

/-- The event received at a time, on pairing generation 0 and without a subscription. -/
def TrackerEvent.received (time : ℕ) (e : TrackerEvent) : RxEvent := ⟨e, time, 0, 0⟩

/-- A tracker that boots twice, and a click of the first boot that arrives late. -/
theorem session_retirement_lateClick : ∃ trace c, cacheSystem.Run trace c ∧
    c.processRx .init c.pairingGeneration ((buttonClick 1 2).received 14999) = (c, []) := by
  obtain ⟨trace, c, hrun, htest⟩ := cacheSystem.exists_run_of_replay
    [.receive .init 0 ((buttonClick 1 1).received 0), .receive .init 0 ((buttonClick 2 1).received 1)]
    (fun trace _ => decide (trace =
      [.sessionEntered 1, .sessionLeft 1 1, .sessionEntered 2])) (by decide +kernel)
  have htrace := of_decide_eq_true htest
  refine ⟨trace, c, hrun, (session_retirement hrun).1 [.sessionEntered 1] [.sessionEntered 2] 1 1
    htrace ?_ _ _ rfl ?_ ?_⟩
  · decide
  · decide
  · decide

/-- **Only one session is remembered.** A tracker that booted three times is taken back to its first
session by a click that arrives two milliseconds after that session was left, and the receiver
delivers the click. -/
theorem session_retirement_forgets : ∃ trace c earlier since,
    cacheSystem.Run trace c ∧ trace = earlier ++ .sessionLeft 1 1 :: since ∧ .wiped ∉ since ∧
      c.nonce = 3 ∧ (c.processRx .init c.pairingGeneration ((buttonClick 1 2).received 3)).1.nonce = 1 ∧
      (c.processRx .init c.pairingGeneration ((buttonClick 1 2).received 3)).2 ≠ [] := by
  obtain ⟨trace, c, hrun, htest⟩ := cacheSystem.exists_run_of_replay
    [.receive .init 0 ((buttonClick 1 1).received 0), .receive .init 0 ((buttonClick 2 1).received 1),
      .receive .init 0 ((buttonClick 3 1).received 2)]
    (fun trace c => decide (trace = [.sessionEntered 1, .sessionLeft 1 1, .sessionEntered 2,
        .sessionLeft 2 2, .sessionEntered 3] ∧ c.nonce = 3 ∧
      (c.processRx .init c.pairingGeneration ((buttonClick 1 2).received 3)).1.nonce = 1 ∧
      (c.processRx .init c.pairingGeneration ((buttonClick 1 2).received 3)).2 ≠ [])) (by decide +kernel)
  obtain ⟨htrace, hnow, hback, hout⟩ := of_decide_eq_true htest
  exact ⟨trace, c, [.sessionEntered 1], [.sessionEntered 2, .sessionLeft 2 2, .sessionEntered 3],
    hrun, htrace, by decide, hnow, hback, hout⟩

end SlimeReceiver.Events
