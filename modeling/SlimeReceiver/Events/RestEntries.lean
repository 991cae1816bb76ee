import SlimeReceiver.Events.Outcomes
import SlimeReceiver.Events.Service

/-! # Rest entries and their receipts

Each tracker has two rest entries, and `deliver` commits a receipt to the one its event belongs to.

* **`RestSlot`**, **`TrackerEvent.restSlot`** — the entry a rest state belongs to.
* **`RestWell`** — a rest entry holds a state that belongs to it.
* **`Keeps`** — nothing a receipt depends on has changed.
* **`RestMove`** — what a received event does to a rest entry, in three cases, and
  `ReceiveRel.rest`. -/

namespace SlimeReceiver.Events

open TrackerCache

/-- A tracker, and which of its two rest entries. -/
abbrev RestSlot := BitVec 8 × Bool

/-- The rest entry a state event belongs to. -/
def TrackerEvent.restSlot (e : TrackerEvent) : Option RestSlot :=
  if e.isState && e.outcome == calOutcomeNone then some (e.trackerId, e.kind == kindFusionRest)
  else none

/-- `deliver` commits a receipt for the events that belong to a rest entry. -/
theorem commits_iff {out : Delivery} : Service.commits out = true ↔ ∃ slot, out.event.restSlot = some slot := by
  unfold TrackerEvent.restSlot Service.commits
  cases out.event.isState && out.event.outcome == calOutcomeNone <;> simp

/-! ## Valid states -/

section Valid

variable {e : TrackerEvent}

/-- A valid state belongs to a rest entry and ends nothing. -/
theorem restSlot_of_state (hvalid : trackerEventValid e = true) (hstate : e.isState = true) :
    e.restSlot = some (e.trackerId, e.kind == kindFusionRest) ∧ e.isTerminal = false := by
  obtain ⟨-, -, hgrammar⟩ := trackerEventValid_iff.mp hvalid
  have hevent : e.event = calEventState := beq_iff_eq.mp hstate
  have houtcome : e.outcome = calOutcomeNone := by
    cases hgrammar with
    | ended _ _ hended =>
      rw [hevent] at hended
      cases hended
    | rejected _ _ hrejected =>
      rw [hevent] at hrejected
      cases hrejected
    | progress _ _ _ houtcome | trackerRest _ _ _ houtcome | fusionRest _ _ _ houtcome
    | wom _ _ _ houtcome | power _ _ _ houtcome | button _ _ _ houtcome => exact houtcome
  constructor
  · rw [TrackerEvent.restSlot, hstate, houtcome]
    rfl
  · rw [TrackerEvent.isTerminal, hevent]
    rfl

theorem isState_of_restSlot {slot : RestSlot} (h : e.restSlot = some slot) : e.isState = true := by
  unfold TrackerEvent.restSlot at h
  split at h
  case isTrue hboth => exact (Bool.and_eq_true _ _ ▸ hboth).1
  case isFalse => cases h

theorem restSlot_eq {slot : RestSlot} (h : e.restSlot = some slot) :
    slot = (e.trackerId, e.kind == kindFusionRest) := by
  unfold TrackerEvent.restSlot at h
  split at h
  case isTrue => exact (Option.some.inj h).symm
  case isFalse => cases h

/-- An observation belongs to no rest entry, as its outcome is unknown. -/
theorem observation_restSlot (sub : Subscription) (cache : EventCache) (reason : BitVec 8)
    (now : BitVec 32) : (observation sub cache reason now).event.restSlot = none := by
  have houtcome : (observation sub cache reason now).event.outcome = calOutcomeUnknown := by
    unfold observation
    simp only []
    split <;> rfl
  rw [TrackerEvent.restSlot, houtcome]
  exact if_neg (by simp [calOutcomeUnknown, calOutcomeNone])

end Valid

/-! ## Entries -/

/-- A rest entry in use holds a state that belongs to it. -/
def RestWell (slot : RestSlot) (cache : EventCache) : Prop :=
  cache.used = true → cache.event.restSlot = some slot ∧ cache.terminal = false

/-- Nothing a receipt depends on has changed. -/
structure Keeps (cache cache' : EventCache) : Prop where
  used : cache'.used = cache.used
  event : cache'.event = cache.event
  version : cache'.version = cache.version
  notified : cache'.notifiedGeneration = cache.notifiedGeneration
  terminal : cache'.terminal = cache.terminal

theorem Keeps.refl (cache : EventCache) : Keeps cache cache := ⟨rfl, rfl, rfl, rfl, rfl⟩

theorem Keeps.of_eq {cache cache' : EventCache} (h : cache' = cache) : Keeps cache cache' :=
  h ▸ .refl cache

theorem Keeps.restWell {cache cache' : EventCache} {slot : RestSlot} (h : Keeps cache cache')
    (hwell : RestWell slot cache) : RestWell slot cache' := by
  intro hused
  rw [h.event, h.terminal]
  exact hwell (h.used ▸ hused)

/-- An entry without a state and without a receipt. -/
structure Vacant (cache : EventCache) : Prop where
  used : cache.used = false
  notified : cache.notifiedGeneration = 0

theorem vacant_zero : Vacant .zero := ⟨rfl, rfl⟩

theorem Vacant.restWell {cache : EventCache} (h : Vacant cache) (slot : RestSlot) :
    RestWell slot cache := fun hused => absurd (h.used.symm.trans hused) Bool.false_ne_true

theorem Vacant.keeps {cache cache' : EventCache} (h : Vacant cache) (hkeeps : Keeps cache cache') :
    Vacant cache' := ⟨hkeeps.used.trans h.used, hkeeps.notified.trans h.notified⟩

/-- The event of a history renews the receipt of a rest entry, stale or not: a new state is stored, or
a heartbeat ends the staleness. -/
def CacheEvent.renews (fusion stale : Bool) : CacheEvent → Bool
  | .stored (.rest other) _ _ _ => other == fusion
  | .refreshed (.rest other) _ => stale && other == fusion
  | _ => false

/-- What a received event does to a rest entry: with what it delivers for the entry and what it
reports of it. -/
inductive RestMove (slot : RestSlot) (cache cache' : EventCache) (out : List Delivery)
    (log : List CacheEvent) : Prop
  | kept (hkeeps : Keeps cache cache') (hout : ∀ d ∈ out, d.event.restSlot ≠ some slot)
      (hlog : ∀ e ∈ log, e.renews slot.2 cache.stale = false)
  | freed (hvacant : Vacant cache') (hout : ∀ d ∈ out, d.event.restSlot ≠ some slot)
  | renewed (hnotified : cache'.notifiedGeneration = 0) (hcurrent : cache'.stale = false)
      (hwell : RestWell slot cache')
      (hout : ∀ d ∈ out, d.event.restSlot = some slot →
        cache'.version = d.cacheVersion ∧ cache'.event = d.event)
      (hlog : ∃ e ∈ log, e.renews slot.2 cache.stale = true)

section Receive

variable {rx : RxEvent} {c c' : TrackerCache} {out : List Delivery} {log : List CacheEvent} {fusion : Bool}

/-- The entry of a state, and no other event, is a rest entry. -/
theorem lookup_rest_iff : c.lookup rx.event = some (.rest fusion) ↔
    rx.event.isState = true ∧ (rx.event.kind == kindFusionRest) = fusion := by
  unfold lookup
  cases hstate : rx.event.isState with
  | true => simp
  | false => simp

theorem targetOf_rest_iff {current : TrackerCache} :
    current.targetOf rx (c.lookup rx.event) = .rest fusion ↔ c.lookup rx.event = some (.rest fusion) := by
  cases hfound : c.lookup rx.event with
  | none => simp [targetOf]
  | some slot => simp [targetOf]

theorem renews_of_ne {slot : CacheSlot} (h : slot ≠ .rest fusion) (stale : Bool) (e : TrackerEvent)
    (order : BitVec 32) (time : ℕ) : (CacheEvent.refreshed slot time).renews fusion stale = false ∧
      (CacheEvent.stored slot e order time).renews fusion stale = false := by
  cases slot with
  | operation => exact ⟨rfl, rfl⟩
  | rest other =>
    have hne : (other == fusion) = false := beq_false_of_ne fun heq => h (congrArg CacheSlot.rest heq)
    rw [CacheEvent.renews, CacheEvent.renews, hne, Bool.and_false]
    exact ⟨rfl, rfl⟩

/-- An event that belongs to another entry, or to none. -/
theorem SessionRel.rest_other (h : SessionRel rx c c' out log)
    (hother : c.lookup rx.event ≠ some (.rest fusion)) :
    RestMove (rx.event.trackerId, fusion) (c.rest fusion) (c'.rest fusion) out log := by
  have hout : ∀ d ∈ out, d.event.restSlot ≠ some (rx.event.trackerId, fusion) := by
    intro d hd hbelongs
    rw [h.deliveries.2 d hd] at hbelongs
    have hkind := congrArg Prod.snd (restSlot_eq hbelongs)
    exact hother (lookup_rest_iff.mpr ⟨isState_of_restSlot hbelongs, hkind.symm⟩)
  cases h with
  | heartbeat slot hslot =>
    have hne : slot ≠ .rest fusion := fun heq => hother (heq ▸ hslot)
    refine .kept (.of_eq (refresh_entry_of_ne rx c (Ne.symm hne))) hout fun e he => ?_
    rw [List.mem_singleton.mp he]
    exact (renews_of_ne hne _ rx.event 0 _).1
  | duplicate => exact .kept (.refl _) hout fun e he => absurd he List.not_mem_nil
  | outdated => exact .kept (.of_eq (unseen_entry _ _ _ (.rest fusion))) hout fun e he => absurd he List.not_mem_nil
  | passed current _ _ hcurrent =>
    refine .kept (.of_eq ?_) hout fun e he => absurd he List.not_mem_nil
    show c'.entry (.rest fusion) = c.entry (.rest fusion)
    rw [hcurrent, withNotice_entry, unseen_entry]
  | stored current order _ hcurrent _ _ hstores =>
    have hne : current.targetOf rx (c.lookup rx.event) ≠ .rest fusion := fun heq =>
      hother (targetOf_rest_iff.mp heq)
    refine .kept (.of_eq ?_) hout fun e he => ?_
    · refine (store_entry_of_ne hstores (Ne.symm hne)).trans ?_
      rw [hcurrent, withNotice_entry, unseen_entry]
      rfl
    · rw [List.mem_singleton.mp he]
      exact (renews_of_ne hne _ _ _ _).2

/-- A heartbeat of the entry. -/
theorem restMove_refresh_self (hvalid : trackerEventValid rx.event = true)
    (hfound : c.lookup rx.event = some (.rest fusion)) (hsame : (c.rest fusion).event = rx.event)
    (hwell : RestWell (rx.event.trackerId, fusion) (c.rest fusion)) :
    RestMove (rx.event.trackerId, fusion) (c.rest fusion) ((c.refresh rx (.rest fusion)).1.rest fusion)
      (c.refresh rx (.rest fusion)).2 [.refreshed (.rest fusion) rx.receivedAt] := by
  obtain ⟨hstate, hkind⟩ := lookup_rest_iff.mp hfound
  obtain ⟨hbelongs, -⟩ := restSlot_of_state hvalid hstate
  have hself : ∀ c cache, (TrackerCache.withEntry (.rest fusion) cache c).entry (.rest fusion) = cache :=
    fun c cache => withEntry_entry_self c (.rest fusion) cache
  unfold refresh
  simp only []
  cases hstale : (c.rest fusion).stale with
  | true =>
    rw [if_pos (by rw [hstate, Bool.and_true]; exact hstale)]
    set noted := if trackerEventIsCalibration rx.event.kind = true then
      c.withEvidence rx.event (c.entry (.rest fusion)).order rx.stamp else c
    have hentry := hself noted { c.entry (.rest fusion) with
      lastRx := rx.stamp
      stale := false
      notifiedGeneration := 0 }
    rw [show (noted.withEntry (.rest fusion) _).rest fusion = _ from hentry]
    refine .renewed rfl rfl hwell (fun d hd _ => ?_) ⟨_, List.mem_singleton_self _, ?_⟩
    · rw [List.mem_singleton.mp hd]
      exact ⟨rfl, hsame⟩
    · rw [CacheEvent.renews, hstale, beq_self_eq_true]
      rfl
  | false =>
    rw [if_neg (by
      rw [show (c.entry (.rest fusion)).stale = false from hstale]
      exact Bool.false_ne_true)]
    set noted := if trackerEventIsCalibration rx.event.kind = true then
      c.withEvidence rx.event (c.entry (.rest fusion)).order rx.stamp else c
    have hentry := hself noted { c.entry (.rest fusion) with
      lastRx := rx.stamp
      stale := false }
    rw [show (noted.withEntry (.rest fusion) _).rest fusion = _ from hentry]
    refine .kept ⟨rfl, rfl, rfl, rfl, rfl⟩ (fun d hd => absurd hd List.not_mem_nil) fun e he => ?_
    rw [List.mem_singleton.mp he, CacheEvent.renews, hstale, Bool.false_and]

/-- A state that is neither a heartbeat nor outdated is stored. -/
theorem stores_state {current : TrackerCache} {order : BitVec 32} (hfound : c.lookup rx.event = some (.rest fusion))
    (hfresh : current.outdated rx.event (some (.rest fusion)) order = false)
    (hrunning : (current.rest fusion).used = true → (current.rest fusion).terminal = false) :
    current.stores rx (some (.rest fusion)) order = true := by
  obtain ⟨hstate, -⟩ := lookup_rest_iff.mp hfound
  rw [outdated, hstate, Option.any_some, Bool.true_and] at hfresh
  rw [stores, TrackerEvent.isCached, hstate, Bool.true_or, Bool.true_and, startsEntry]
  show (!(current.rest fusion).used || _) = true
  cases hused : (current.rest fusion).used with
  | false => rfl
  | true =>
    have hnewer : ¬(order - (current.rest fusion).order).toInt ≤ 0 := by
      have hboth : ((current.rest fusion).used && decide ((order - (current.rest fusion).order).toInt ≤ 0)) = false :=
        hfresh
      rw [hused, Bool.true_and] at hboth
      exact of_decide_eq_false hboth
    show (decide (0 < (order - (current.rest fusion).order).toInt) &&
      (!(current.rest fusion).terminal || rx.event.isTerminal)) = true
    rw [hrunning hused, decide_eq_true (not_le.mp hnewer)]
    rfl

/-- An event of the entry within its session. -/
theorem processSession_rest_self (hvalid : trackerEventValid rx.event = true)
    (hfound : c.lookup rx.event = some (.rest fusion))
    (hwell : RestWell (rx.event.trackerId, fusion) (c.rest fusion)) :
    RestMove (rx.event.trackerId, fusion) (c.rest fusion) ((c.processSession rx).1.rest fusion)
      (c.processSession rx).2 (c.sessionEvents rx) := by
  unfold processSession sessionEvents
  simp only [hfound]
  by_cases hheart : c.isHeartbeat rx.event (some (.rest fusion)) = true
  · rw [if_pos hheart, if_pos hheart]
    rw [isHeartbeat, Bool.and_eq_true, beq_iff_eq] at hheart
    exact restMove_refresh_self hvalid hfound hheart.2 hwell
  · rw [if_neg hheart, if_neg hheart]
    unfold accept acceptEvents
    simp only []
    have hseen : (c.unseen rx.event.eventSeq rx.stamp).1.rest fusion = c.rest fusion :=
      unseen_entry c _ _ (.rest fusion)
    cases hfresh : (c.unseen rx.event.eventSeq rx.stamp).2 with
    | false =>
      rw [if_neg Bool.false_ne_true, if_neg Bool.false_ne_true]
      exact .kept (.of_eq hseen) (fun d hd => absurd hd List.not_mem_nil) fun e he => absurd he List.not_mem_nil
    | true =>
      rw [if_pos rfl, if_pos rfl]
      set order := (c.unseen rx.event.eventSeq rx.stamp).1.window.orderOf rx.event.eventSeq
      split
      case isTrue =>
        exact .kept (.of_eq hseen) (fun d hd => absurd hd List.not_mem_nil) fun e he => absurd he List.not_mem_nil
      case isFalse houtdated =>
        set current := (c.unseen rx.event.eventSeq rx.stamp).1.withNotice rx.event order rx.stamp with hcurrent
        have hentry : current.rest fusion = c.rest fusion := by
          show current.entry (.rest fusion) = c.entry (.rest fusion)
          rw [hcurrent, withNotice_entry, unseen_entry]
        have hstores : current.stores rx (some (.rest fusion)) order = true := by
          refine stores_state hfound ?_ fun hused => ?_
          · have hsame : current.outdated rx.event (some (.rest fusion)) order =
                (c.unseen rx.event.eventSeq rx.stamp).1.outdated rx.event (some (.rest fusion)) order := by
              rw [outdated, outdated, Option.any_some, Option.any_some, hcurrent, withNotice_entry]
            rw [hsame]
            exact Bool.eq_false_of_not_eq_true houtdated
          · rw [hentry] at hused ⊢
            exact (hwell hused).2
        obtain ⟨hbelongs, hterminal⟩ := restSlot_of_state hvalid (lookup_rest hfound)
        obtain ⟨-, hkind⟩ := lookup_rest_iff.mp hfound
        rw [store, storeEvents, if_pos hstores, if_pos hstores]
        simp only []
        have hself : ∀ c cache, (TrackerCache.withEntry (.rest fusion) cache c).entry (.rest fusion) = cache :=
          fun c cache => withEntry_entry_self c (.rest fusion) cache
        rw [show current.targetOf rx (some (.rest fusion)) = .rest fusion from rfl]
        rw [show (TrackerCache.withEntry (.rest fusion) _ _).rest fusion = _ from hself _ _]
        refine .renewed rfl rfl (fun _ => ⟨?_, hterminal⟩) (fun d hd _ => ?_) ⟨_, List.mem_singleton_self _, ?_⟩
        · rw [show (freshEntry rx order _ _).event = rx.event from rfl, hbelongs, hkind]
        · rw [List.mem_singleton.mp hd]
          exact ⟨rfl, rfl⟩
        · exact beq_self_eq_true fusion

theorem pairingEvents_renews (generation : BitVec 32) (stale : Bool) :
    ∀ e ∈ c.pairingEvents generation, e.renews fusion stale = false := by
  unfold pairingEvents
  split <;> simp [CacheEvent.renews]

/-- What renews an entry that is not stale renews a stale one as well. -/
theorem CacheEvent.renews_of_fresh {e : CacheEvent} (stale : Bool) (h : e.renews fusion false = true) :
    e.renews fusion stale = true := by
  cases e with
  | refreshed slot => cases slot <;> cases h
  | stored slot => cases slot <;> exact h
  | _ => cases h

/-- Entries of another pairing are freed. -/
theorem resetPairing_rest (generation : BitVec 32) (c : TrackerCache) (fusion : Bool) :
    c.resetPairing generation = c ∨ (c.resetPairing generation).rest fusion = .zero := by
  unfold TrackerCache.resetPairing
  split
  · exact .inl rfl
  · exact .inr rfl

namespace RestMove

variable {slot : RestSlot} {cache cache' : EventCache} {first : List CacheEvent}

theorem prepend (h : RestMove slot cache cache' out log)
    (hquiet : ∀ e ∈ first, e.renews slot.2 cache.stale = false) :
    RestMove slot cache cache' out (first ++ log) := by
  cases h with
  | kept hkeeps hout hlog => exact .kept hkeeps hout (List.forall_mem_append.mpr ⟨hquiet, hlog⟩)
  | freed hvacant hout => exact .freed hvacant hout
  | renewed hnotified hcurrent hwell hout hlog =>
    obtain ⟨e, he, hrenews⟩ := hlog
    exact .renewed hnotified hcurrent hwell hout ⟨e, List.mem_append_right first he, hrenews⟩

/-- The entry was freed before. -/
theorem after_free (h : RestMove slot .zero cache' out log) {observed : List Delivery}
    (hobserved : ∀ d ∈ observed, d.event.restSlot = none) :
    RestMove slot cache cache' (observed ++ out) (first ++ log) := by
  have hothers : ∀ d ∈ observed, d.event.restSlot ≠ some slot := fun d hd hbelongs => by
    rw [hobserved d hd] at hbelongs
    cases hbelongs
  cases h with
  | kept hkeeps hout => exact .freed (vacant_zero.keeps hkeeps) (List.forall_mem_append.mpr ⟨hothers, hout⟩)
  | freed hvacant hout => exact .freed hvacant (List.forall_mem_append.mpr ⟨hothers, hout⟩)
  | renewed hnotified hcurrent hwell hout hlog =>
    obtain ⟨e, he, hrenews⟩ := hlog
    refine .renewed hnotified hcurrent hwell (fun d hd hbelongs => ?_)
      ⟨e, List.mem_append_right first he, CacheEvent.renews_of_fresh _ hrenews⟩
    rcases List.mem_append.mp hd with hd | hd
    · exact absurd hbelongs (hothers d hd)
    · exact hout d hd hbelongs

end RestMove

/-- What a received event does to a rest entry of its tracker. -/
theorem processRx_rest (sub : Subscription) (generation : BitVec 32) (hvalid : trackerEventValid rx.event = true)
    (hwell : RestWell (rx.event.trackerId, fusion) (c.rest fusion)) :
    RestMove (rx.event.trackerId, fusion) (c.rest fusion) ((c.processRx sub generation rx).1.rest fusion)
      (c.processRx sub generation rx).2 (c.rxEvents generation rx) := by
  have hsession : ∀ c : TrackerCache, RestWell (rx.event.trackerId, fusion) (c.rest fusion) →
      RestMove (rx.event.trackerId, fusion) (c.rest fusion) ((c.processSession rx).1.rest fusion)
        (c.processSession rx).2 (c.sessionEvents rx) := by
    intro c hwell
    by_cases hfound : c.lookup rx.event = some (.rest fusion)
    · exact processSession_rest_self hvalid hfound hwell
    · exact (processSession_rel rx c).rest_other hfound
  have hnonce : rx.event.nonce ≠ 0 := (trackerEventValid_iff.mp hvalid).1
  unfold processRx rxEvents
  by_cases hpaired : rx.pairingGeneration = generation
  · rw [if_neg (not_not.mpr hpaired), if_neg (not_not.mpr hpaired)]
    simp only []
    by_cases hsame : (c.resetPairing generation).nonce = rx.event.nonce
    · rw [if_pos hsame, if_pos hsame]
      rw [resetPairing_of_nonce (hsame ▸ hnonce)]
      exact (hsession c hwell).prepend (pairingEvents_renews generation _)
    · rw [if_neg hsame, if_neg hsame]
      split
      case isTrue =>
        rw [List.append_nil]
        rcases resetPairing_rest generation c fusion with hkept | hzero
        · rw [hkept]
          exact .kept (.refl _) (fun d hd => absurd hd List.not_mem_nil) (pairingEvents_renews generation _)
        · rw [hzero]
          exact .freed vacant_zero fun d hd => absurd hd List.not_mem_nil
      case isFalse =>
        rw [← List.append_assoc]
        refine (hsession ((c.resetPairing generation).enterSession rx) (vacant_zero.restWell _)).after_free ?_
        intro d hd
        unfold sessionObservations at hd
        split at hd
        · cases hd
        · obtain ⟨slot, -, rfl⟩ := List.mem_map.mp hd
          exact observation_restSlot _ _ _ _
  · rw [if_pos hpaired, if_pos hpaired]
    exact .kept (.refl _) (fun d hd => absurd hd List.not_mem_nil) fun e he => absurd he List.not_mem_nil

end Receive

/-! ## Checks and receipts -/

/-- The delivery of the content of a rest entry. -/
def EventCache.snapshot (generation : BitVec 32) (cache : EventCache) : Delivery where
  event := cache.event
  generation := generation
  receivedAt := cache.lastRx
  cacheVersion := cache.version
  opcode := hidOpTrackerObservation

section Check

variable {sub : Subscription} {generation now : BitVec 32} {tracker : BitVec 8} {c : TrackerCache} {fusion : Bool}

/-- A check of an entry does at most mark it stale. -/
theorem silenceStep_rest (sub : Subscription) (generation : BitVec 32) (tracker : BitVec 8) (now : BitVec 32)
    (slot : CacheSlot) (c : TrackerCache) (fusion : Bool) :
    Keeps (c.rest fusion) ((c.silenceStep sub generation tracker now slot).1.rest fusion) := by
  rcases silenceStep_cases sub generation tracker now slot c with ⟨-, -, hstate, -⟩ | ⟨hstate, -⟩
  · rw [hstate]
    by_cases hslot : CacheSlot.rest fusion = slot
    · subst hslot
      rw [show (TrackerCache.withEntry (.rest fusion) _ _).rest fusion = _ from
        withEntry_entry_self _ (.rest fusion) _]
      exact ⟨rfl, rfl, rfl, rfl, rfl⟩
    · exact .of_eq ((withEntry_entry_of_ne _ hslot _).trans (entry_power _ _ _))
  · exact .of_eq (congrArg (fun c => c.rest fusion) hstate)

/-- What a check delivers for a rest entry is the content of the entry it checks, which the subscription
has not been told. -/
theorem silenceStep_snapshot {slot : CacheSlot} {d : Delivery × Bool} {other : RestSlot}
    (hd : d ∈ (c.silenceStep sub generation tracker now slot).2) (hbelongs : d.1.event.restSlot = some other) :
    ∃ fusion, slot = .rest fusion ∧ d.1 = (c.rest fusion).snapshot sub.subscriptionGeneration ∧
      (c.silenceStep sub generation tracker now slot).1 = c ∧ c.unnotified sub tracker now slot = true := by
  unfold silenceStep at hd ⊢
  split at hd
  case isTrue => cases hd
  case isFalse hpaired =>
    rw [if_neg hpaired]
    split at hd
    case isTrue =>
      obtain rfl := Option.mem_some_iff.mp hd
      rw [observation_restSlot] at hbelongs
      cases hbelongs
    case isFalse hsilent =>
      rw [if_neg hsilent]
      split at hd
      case isFalse => cases hd
      case isTrue hunnotified =>
        obtain rfl := Option.mem_some_iff.mp hd
        cases slot with
        | operation => cases hunnotified
        | rest fusion => exact ⟨fusion, rfl, rfl, by rw [if_pos hunnotified], hunnotified⟩

/-- A current rest state that the subscription has not been told is delivered. -/
theorem silenceStep_of_unnotified (hpaired : c.pairingGeneration = generation)
    (hsilent : c.silent now (.rest fusion) = false) (h : c.unnotified sub tracker now (.rest fusion) = true) :
    c.silenceStep sub generation tracker now (.rest fusion) =
      (c, some ((c.rest fusion).snapshot sub.subscriptionGeneration, false)) := by
  unfold silenceStep
  rw [if_neg (not_not.mpr hpaired), hsilent, if_neg Bool.false_ne_true, if_pos h]
  rfl

/-- The receipt is committed to the entry of the delivered event. -/
theorem commitRest_rest (sub : Subscription) (out : Delivery) (c : TrackerCache) (fusion : Bool) :
    (c.commitRest sub out).rest fusion = c.rest fusion ∨
      (fusion = (out.event.kind == kindFusionRest) ∧ (c.rest fusion).version = out.cacheVersion ∧
        out.generation = sub.subscriptionGeneration ∧ (c.rest fusion).event = out.event ∧
        (c.commitRest sub out).rest fusion = { c.rest fusion with notifiedGeneration := out.generation }) := by
  unfold commitRest
  simp only []
  split
  case isFalse => exact .inl rfl
  case isTrue hcurrent =>
    obtain ⟨-, -, hversion, hgeneration, hevent⟩ := hcurrent
    by_cases hfusion : fusion = (out.event.kind == kindFusionRest)
    · subst hfusion
      exact .inr ⟨rfl, hversion, hgeneration, hevent, withEntry_entry_self c (.rest _) _⟩
    · left
      exact withEntry_entry_of_ne c (fun h => hfusion (CacheSlot.rest.inj h)) _

/-- A receipt for the current content of an entry is committed if the subscription is still the same. -/
theorem commitRest_current {out : Delivery} (hused : (c.rest fusion).used = true)
    (hcurrent : (c.rest fusion).stale = false) (hversion : (c.rest fusion).version = out.cacheVersion)
    (hgeneration : out.generation = sub.subscriptionGeneration) (hevent : (c.rest fusion).event = out.event)
    (hfusion : fusion = (out.event.kind == kindFusionRest)) :
    ((c.commitRest sub out).rest fusion).notifiedGeneration = out.generation := by
  subst hfusion
  unfold commitRest
  rw [if_pos ⟨hused, hcurrent, hversion, hgeneration, hevent⟩]
  exact congrArg EventCache.notifiedGeneration (withEntry_entry_self c (.rest _) _)

end Check

end SlimeReceiver.Events
