import SlimeReceiver.Events.Entries
import SlimeReceiver.Events.Sessions

/-! # Outcomes of operations

* **`CacheOp.deliveries`** — what a critical section delivers.
* **`StoredWell`** — what a history stores: valid events, those of operations in the eight entries.
* **`held_terminal`** — a stored terminal event stays until its entry is freed.
* **`operation_outcome`** — finished operations stay finished, running ones only move forward,
  every entry that goes stale is reported once, and a reception delivers at most `opCount + 3`
  records. -/

namespace SlimeReceiver.Events

open TrackerCache

/-- What a critical section delivers. -/
def CacheOp.deliveries (c : TrackerCache) : CacheOp → List Delivery
  | .receive sub generation rx =>
    if trackerEventValid rx.event then (c.processRx sub generation rx).2 else []
  | .silence sub generation tracker now slot =>
    (c.silenceStep sub generation tracker now slot).2.toList.map Prod.fst
  | .cleanup _ | .commit .. => []

/-! ## What a history stores -/

/-- A stored event is valid, and that of an operation is in an entry for operations. -/
def StoredWell (trace : List CacheEvent) : Prop :=
  ∀ slot e order time, .stored slot e order time ∈ trace → trackerEventValid e = true ∧
    (e.isState = false → ∃ i < opCount, slot = .operation i)

section StoredWell

variable {rx : RxEvent} {c c' : TrackerCache} {out : List Delivery} {log trace : List CacheEvent}

theorem SessionRel.storedWell (hvalid : trackerEventValid rx.event = true)
    (h : SessionRel rx c c' out log) : StoredWell log := by
  intro slot e order time hmem
  cases h with
  | heartbeat => simp at hmem
  | duplicate => cases hmem
  | outdated => cases hmem
  | passed => cases hmem
  | stored current _ _ hcurrent =>
    simp only [List.mem_singleton, CacheEvent.stored.injEq] at hmem
    obtain ⟨rfl, rfl, rfl, rfl⟩ := hmem
    have hentries : ∀ slot, current.entry slot = c.entry slot := fun slot => by
      rw [hcurrent, withNotice_entry, unseen_entry]
    refine ⟨hvalid, fun hnot => ?_⟩
    rcases targetOf_cases rx c hentries with ⟨hstate, -⟩ | ⟨i, -, htarget, hi, -⟩ | ⟨-, htarget, -⟩
    · exact absurd (hnot.symm.trans hstate) Bool.false_ne_true
    · exact ⟨i, hi, htarget⟩
    · exact ⟨_, (allocateOperation_spec rx.stamp c).1, htarget⟩

theorem StoredWell.append (h : StoredWell trace) (hlog : StoredWell log) :
    StoredWell (trace ++ log) := by
  intro slot e order time hmem
  rcases List.mem_append.mp hmem with hold | hnew
  · exact h slot e order time hold
  · exact hlog slot e order time hnew

theorem storedWell_of_none (h : ∀ slot e order time, .stored slot e order time ∉ log) :
    StoredWell log := fun slot e order time hmem => absurd hmem (h slot e order time)

theorem storedWell_pairing (generation : BitVec 32) : StoredWell (c.pairingEvents generation) := by
  refine storedWell_of_none fun slot e order time => ?_
  unfold pairingEvents
  split <;> simp

theorem storedWell_change : StoredWell (c.changeEvents rx) := by
  refine storedWell_of_none fun slot e order time => ?_
  unfold changeEvents
  split <;> simp

/-- What a run stores is as it should be. -/
theorem storedWell_of_run (h : cacheSystem.Run trace c) : StoredWell trace := by
  refine h.history_invariant (P := fun trace _ => StoredWell trace) (fun _ _ _ _ hmem => by cases hmem)
    fun trace c op c' log hwell _ hstep => hwell.append ?_
  cases op with
  | receive sub generation rx =>
    obtain ⟨hvalid, out, hrel⟩ := cacheStep_receive hstep
    cases hrel with
    | unpaired => exact storedWell_of_none fun _ _ _ _ hmem => by cases hmem
    | retired => exact storedWell_pairing generation
    | session _ _ hsession => exact (storedWell_pairing generation).append (hsession.storedWell hvalid)
    | change _ _ _ hsession =>
      exact (storedWell_pairing generation).append
        (storedWell_change.append (hsession.storedWell hvalid))
  | cleanup generation =>
    obtain ⟨rfl, rfl⟩ := Prod.mk.inj (Option.some.inj hstep)
    exact storedWell_pairing generation
  | silence sub generation tracker now slot =>
    obtain ⟨rfl, rfl⟩ := Prod.mk.inj (Option.some.inj hstep)
    refine storedWell_of_none fun slot' e order time => ?_
    unfold silenceEvents
    split
    · simp
    · split <;> simp
  | commit sub out =>
    obtain ⟨rfl, rfl⟩ := Prod.mk.inj (Option.some.inj hstep)
    exact storedWell_of_none fun _ _ _ _ hmem => by cases hmem

/-- What an entry holds has been stored in it. -/
theorem held_mem {slot : CacheSlot} {content : Holding} (h : held slot trace = some content) :
    ∃ order time, .stored slot content.event order time ∈ trace := by
  induction trace using List.reverseRecOn generalizing content with
  | nil => cases h
  | append_singleton trace e ih =>
    rw [held_concat] at h
    -- a heartbeat and a report of silence keep the event
    have hkept : ∀ content', held slot trace = some content' → content'.event = content.event →
        ∃ order time, .stored slot content.event order time ∈ trace ++ [e] := by
      intro content' hheld hevent
      obtain ⟨order, time, hmem⟩ := ih hheld
      exact ⟨order, time, List.mem_append_left _ (hevent ▸ hmem)⟩
    cases e with
    | wiped => cases h
    | sessionEntered => cases h
    | sessionLeft => exact hkept content h rfl
    | observed => exact hkept content h rfl
    | stored other e order time =>
      rw [CacheEvent.hold] at h
      split at h
      case isTrue hother =>
        obtain rfl := Option.some.inj h
        exact ⟨order, time, by simp [hother]⟩
      case isFalse => exact hkept content h rfl
    | refreshed other time =>
      rw [CacheEvent.hold] at h
      split at h
      case isTrue =>
        obtain ⟨content', hheld, rfl⟩ := Option.map_eq_some_iff.mp h
        exact hkept content' hheld rfl
      case isFalse => exact hkept content h rfl
    | silenced other reason =>
      rw [CacheEvent.hold] at h
      split at h
      case isTrue =>
        obtain ⟨content', hheld, rfl⟩ := Option.map_eq_some_iff.mp h
        exact hkept content' hheld rfl
      case isFalse => exact hkept content h rfl

end StoredWell

/-! ## Finished operations -/

/-- The event frees an entry of the operation of `e`: the session or the pairing ends, or another
operation gets the entry. -/
def CacheEvent.frees (slot : CacheSlot) (e : TrackerEvent) : CacheEvent → Bool
  | .wiped | .sessionEntered _ => true
  | .stored other e' _ _ => other == slot && !e'.sameOperation e
  | _ => false

/-- A stored terminal event stays until its entry is freed. -/
theorem held_terminal {earlier since : List CacheEvent} {slot : CacheSlot} {e : TrackerEvent}
    {order : BitVec 32} {time : ℕ} (hend : e.isTerminal = true)
    (hlawful : EachAfter StoreLaw (earlier ++ .stored slot e order time :: since))
    (hsince : ∀ ev ∈ since, ev.frees slot e = false) :
    ∃ content, held slot (earlier ++ .stored slot e order time :: since) = some content ∧
      content.event.sameOperation e = true ∧ content.event.isTerminal = true := by
  -- on what has happened since; the store law carries the step
  induction since using List.reverseRecOn with
  | nil =>
    refine ⟨⟨e, order, time, false⟩, ?_, sameOperation_iff.mpr ⟨rfl, rfl⟩, hend⟩
    rw [held_concat, CacheEvent.hold, if_pos rfl]
  | append_singleton since ev ih =>
    have hsplit : earlier ++ .stored slot e order time :: (since ++ [ev]) =
        (earlier ++ .stored slot e order time :: since) ++ [ev] := by simp
    rw [hsplit, eachAfter_snoc] at hlawful
    obtain ⟨content, hheld, hsame, hterminal⟩ := ih hlawful.1 fun ev' hev' =>
      hsince ev' (List.mem_append_left _ hev')
    have hfrees := hsince ev (by simp)
    rw [hsplit, held_concat, hheld]
    cases ev with
    | wiped => cases hfrees
    | sessionEntered => cases hfrees
    | sessionLeft => exact ⟨content, rfl, hsame, hterminal⟩
    | observed => exact ⟨content, rfl, hsame, hterminal⟩
    | stored other e' order' time' =>
      rw [CacheEvent.hold]
      by_cases hother : other = slot
      · rw [if_pos hother]
        have hsame' : e'.sameOperation e = true := by
          simpa [CacheEvent.frees, hother] using hfrees
        refine ⟨_, rfl, hsame', ?_⟩
        obtain ⟨hid, hkind⟩ := sameOperation_iff.mp hsame
        obtain ⟨hid', hkind'⟩ := sameOperation_iff.mp hsame'
        have hlaw := (hlawful.2 content (hother ▸ hheld)).1
          (sameOperation_iff.mpr ⟨hid.trans hid'.symm, hkind.trans hkind'.symm⟩)
        exact hlaw.2 hterminal
      · rw [if_neg hother]
        exact ⟨content, rfl, hsame, hterminal⟩
    | refreshed other time' =>
      rw [CacheEvent.hold]
      split
      · exact ⟨_, rfl, hsame, hterminal⟩
      · exact ⟨content, rfl, hsame, hterminal⟩
    | silenced other reason =>
      rw [CacheEvent.hold]
      split
      · exact ⟨_, rfl, hsame, hterminal⟩
      · exact ⟨content, rfl, hsame, hterminal⟩

/-- A valid event is one of a calibration and no rest state, or another one that ends nothing. -/
theorem EventGrammar.calibration_or {e : TrackerEvent} (h : EventGrammar e) :
    (trackerEventIsCalibration e.kind = true ∧ e.isState = false) ∨
      (trackerEventIsCalibration e.kind = false ∧ e.isTerminal = false) := by
  unfold TrackerEvent.isState TrackerEvent.isTerminal
  cases h with
  | progress hkind _ hevent =>
    refine .inl ⟨hkind, ?_⟩
    rcases hevent with hevent | hevent | hevent <;> rw [hevent] <;> decide
  | ended hkind _ hevent => exact .inl ⟨hkind, by rw [hevent]; decide⟩
  | rejected hkind _ hevent => exact .inl ⟨hkind, by rw [hevent]; decide⟩
  | trackerRest hkind _ hevent => exact .inr ⟨by rw [hkind]; decide, by rw [hevent]; decide⟩
  | fusionRest hkind _ hevent => exact .inr ⟨by rw [hkind]; decide, by rw [hevent]; decide⟩
  | wom hkind _ hevent => exact .inr ⟨by rw [hkind]; decide, by rw [hevent]; decide⟩
  | power hkind _ hevent => exact .inr ⟨by rw [hkind]; decide, by rw [hevent]; decide⟩
  | button hkind _ hevent => exact .inr ⟨by rw [hkind]; decide, by rw [hevent]; decide⟩

/-- No valid event has an unknown outcome. -/
theorem outcome_ne_unknown {e : TrackerEvent} (hvalid : trackerEventValid e = true) :
    e.outcome ≠ calOutcomeUnknown := by
  obtain ⟨-, -, hgrammar⟩ := trackerEventValid_iff.mp hvalid
  intro hunknown
  have hnone : e.outcome ≠ calOutcomeNone := by
    rw [hunknown]
    decide
  cases hgrammar with
  | ended _ _ _ houtcome =>
    rw [hunknown] at houtcome
    exact absurd houtcome (by decide)
  | rejected _ _ _ houtcome =>
    rw [hunknown] at houtcome
    exact absurd houtcome (by decide)
  | progress _ _ _ houtcome => exact hnone houtcome
  | trackerRest _ _ _ houtcome => exact hnone houtcome
  | fusionRest _ _ _ houtcome => exact hnone houtcome
  | wom _ _ _ houtcome => exact hnone houtcome
  | power _ _ _ houtcome => exact hnone houtcome
  | button _ _ _ houtcome => exact hnone houtcome

section Outcome

variable {trace : List CacheEvent} {c : TrackerCache} {e : TrackerEvent}

/-- The only entry of a finished operation is the one that holds its terminal event. -/
theorem entry_of_finished (h : cacheSystem.Run trace c) {i : ℕ} (hi : i < opCount)
    {content : Holding} (hheld : held (.operation i) trace = some content)
    (hsame : content.event.sameOperation e = true) (hend : content.event.isTerminal = true)
    {other : CacheSlot} (hused : (c.entry other).used = true)
    (hother : (c.entry other).event.sameOperation e = true) : other = .operation i := by
  have hentries := entries_of_run h
  have hwell := storedWell_of_run h
  obtain ⟨content', hheld', hevent', -⟩ := (hentries.holds other).exists_of_used hused
  obtain ⟨order, time, hmem⟩ := held_mem hheld
  obtain ⟨order', time', hmem'⟩ := held_mem hheld'
  obtain ⟨hid, hkind⟩ := sameOperation_iff.mp hsame
  obtain ⟨hid', hkind'⟩ := sameOperation_iff.mp hother
  rw [hevent'] at hid' hkind'
  -- both events are of a calibration, so the other one is in an entry for operations too
  have hcalibration : trackerEventIsCalibration content.event.kind = true := by
    rcases (trackerEventValid_iff.mp (hwell _ _ _ _ hmem).1).2.2.calibration_or with hcal | hnot
    · exact hcal.1
    · exact absurd (hnot.2.symm.trans hend) Bool.false_ne_true
  have hnostate : content'.event.isState = false := by
    rcases (trackerEventValid_iff.mp (hwell _ _ _ _ hmem').1).2.2.calibration_or with hcal | hnot
    · exact hcal.2
    · rw [hkind', ← hkind, hcalibration] at hnot
      cases hnot.1
  obtain ⟨j, hj, rfl⟩ := (hwell _ _ _ _ hmem').2 hnostate
  have hholds := hentries.holds (.operation i)
  rw [hheld] at hholds
  cases hholds with
  | holding _ husedi heventi =>
    have hij : j = i := by
      refine hentries.distinct j hj i hi hused husedi (sameOperation_iff.mpr ?_)
      rw [show (c.operations j).event = content'.event from hevent',
        show (c.operations i).event = content.event from heventi]
      exact ⟨hid'.trans hid.symm, hkind'.trans hkind.symm⟩
    rw [hij]

/-- An observation is about the operation of its entry. -/
theorem observation_operation (sub : Subscription) (cache : EventCache) (reason : BitVec 8)
    (now : BitVec 32) : (observation sub cache reason now).event.sameOperation cache.event = true := by
  rw [sameOperation_iff]
  unfold observation
  simp only []
  split <;> exact ⟨rfl, rfl⟩

/-- Within a session an event delivers at most itself. -/
theorem SessionRel.deliveries {rx : RxEvent} {c' : TrackerCache} {out : List Delivery}
    {log : List CacheEvent} (h : SessionRel rx c c' out log) :
    out.length ≤ 1 ∧ ∀ d ∈ out, d.event = rx.event := by
  cases h with
  | heartbeat slot =>
    unfold refresh
    simp only []
    split
    · refine ⟨le_refl 1, fun d hd => ?_⟩
      rw [List.mem_singleton.mp hd]
      rfl
    · exact ⟨Nat.zero_le 1, fun d hd => by cases hd⟩
  | duplicate => exact ⟨Nat.zero_le 1, fun d hd => by cases hd⟩
  | outdated => exact ⟨Nat.zero_le 1, fun d hd => by cases hd⟩
  | passed =>
    refine ⟨le_refl 1, fun d hd => ?_⟩
    rw [List.mem_singleton.mp hd]
    rfl
  | stored current order _ _ _ _ hstores =>
    rw [store, if_pos hstores]
    refine ⟨le_refl 1, fun d hd => ?_⟩
    rw [List.mem_singleton.mp hd]
    rfl

/-- A cache in a session has not just been cleared for another pairing. -/
theorem resetPairing_of_nonce {generation : BitVec 32}
    (h : (c.resetPairing generation).nonce ≠ 0) : c.resetPairing generation = c := by
  unfold TrackerCache.resetPairing at h ⊢
  split at h
  case isTrue hsame => rw [if_pos hsame]
  case isFalse => exact absurd rfl h

/-- A received event delivers the observations of the session it ends, if it ends one, and then at
most itself. -/
theorem ReceiveRel.deliveries {sub : Subscription} {generation : BitVec 32} {rx : RxEvent}
    {c' : TrackerCache} {out : List Delivery} {log : List CacheEvent}
    (h : ReceiveRel sub generation rx c c' out log) : ∃ first rest, out = first ++ rest ∧
      (first = [] ∨ first = c.outstandingSlots.map fun slot =>
        observation sub (c.entry slot) calReasonSessionChanged rx.stamp) ∧
      rest.length ≤ 1 ∧ ∀ d ∈ rest, d.event = rx.event := by
  cases h with
  | unpaired => exact ⟨[], [], rfl, .inl rfl, Nat.zero_le 1, fun d hd => by cases hd⟩
  | retired => exact ⟨[], [], rfl, .inl rfl, Nat.zero_le 1, fun d hd => by cases hd⟩
  | session _ _ hsession => exact ⟨[], out, rfl, .inl rfl, hsession.deliveries⟩
  | @change _ out _ _ _ _ hsession =>
    refine ⟨_, out, rfl, ?_, hsession.deliveries⟩
    unfold sessionObservations
    split
    case isTrue => exact .inl rfl
    case isFalse hzero =>
      rw [resetPairing_of_nonce hzero]
      exact .inr rfl

theorem processRx_deliveries (sub : Subscription) (generation : BitVec 32) (rx : RxEvent)
    (c : TrackerCache) : ∃ first rest, (c.processRx sub generation rx).2 = first ++ rest ∧
      (first = [] ∨ first = c.outstandingSlots.map fun slot =>
        observation sub (c.entry slot) calReasonSessionChanged rx.stamp) ∧
      rest.length ≤ 1 ∧ ∀ d ∈ rest, d.event = rx.event :=
  (processRx_rel sub generation rx c).deliveries

/-- A reception delivers at most `opCount + 3` records. -/
theorem processRx_length (sub : Subscription) (generation : BitVec 32) (rx : RxEvent)
    (c : TrackerCache) : (c.processRx sub generation rx).2.length ≤ opCount + 3 := by
  obtain ⟨first, rest, hout, hfirst, hrest, -⟩ := processRx_deliveries sub generation rx c
  have hslots : c.outstandingSlots.length ≤ opCount + 2 :=
    (List.length_filter_le _ allSlots).trans (by decide)
  have hobserved : first.length ≤ opCount + 2 := by
    rcases hfirst with rfl | rfl
    · exact Nat.zero_le _
    · rw [List.length_map]
      exact hslots
  rw [hout, List.length_append]
  omega

/-- Whatever is delivered with an unknown outcome is about an entry in use, and about no finished
operation. -/
theorem unknown_delivery {op : CacheOp} {d : Delivery}
    (hd : d ∈ op.deliveries c) (hunknown : d.event.outcome = calOutcomeUnknown) :
    ∃ slot, (c.entry slot).used = true ∧ d.event.sameOperation (c.entry slot).event = true ∧
      ∀ i, slot = .operation i → (c.entry slot).terminal = false := by
  cases op with
  | receive sub generation rx =>
    simp only [CacheOp.deliveries] at hd
    split at hd
    case isFalse => cases hd
    case isTrue hvalid =>
      obtain ⟨first, rest, hout, hfirst, -, hrest⟩ := processRx_deliveries sub generation rx c
      rw [hout] at hd
      rcases List.mem_append.mp hd with hobserved | hself
      · rcases hfirst with rfl | rfl
        · cases hobserved
        · obtain ⟨slot, hslot, rfl⟩ := List.mem_map.mp hobserved
          obtain ⟨-, houtstanding⟩ := mem_outstandingSlots.mp hslot
          refine ⟨slot, ?_, observation_operation _ _ _ _, fun i hi => ?_⟩
          · cases slot <;> exact (Bool.and_eq_true_iff.mp houtstanding).1
          · subst hi
            exact (Bool.not_eq_true' _).mp (Bool.and_eq_true_iff.mp houtstanding).2
      · -- the event itself is valid
        rw [hrest d hself] at hunknown
        exact absurd hunknown (outcome_ne_unknown hvalid)
  | silence sub generation tracker now slot =>
    simp only [CacheOp.deliveries, List.mem_map, Option.mem_toList] at hd
    obtain ⟨delivered, hdelivered, rfl⟩ := hd
    rcases silenceStep_cases sub generation tracker now slot c with
      ⟨-, hsilent, -, hout, -⟩ | ⟨-, -, hrest⟩
    · obtain ⟨hused, hterminal, -⟩ := used_of_silent hsilent
      rw [hout] at hdelivered
      obtain rfl := Option.mem_some_iff.mp hdelivered
      exact ⟨slot, hused, observation_operation _ _ _ _, fun _ _ => hterminal⟩
    · obtain ⟨hevent, hused, fusion, rfl⟩ := hrest delivered hdelivered
      exact ⟨_, hused, hevent ▸ sameOperation_iff.mpr ⟨rfl, rfl⟩, fun i hi => by cases hi⟩
  | cleanup => cases hd
  | commit => cases hd

/-! ## Stale entries -/

theorem SessionRel.stale {rx : RxEvent} {c' : TrackerCache} {out : List Delivery}
    {log : List CacheEvent} (h : SessionRel rx c c' out log) {slot : CacheSlot}
    (hstale : (c'.entry slot).stale = true) : (c.entry slot).stale = true := by
  cases h with
  | heartbeat other =>
    by_cases hslot : slot = other
    · rw [hslot, (refresh_entry_self rx c other).2.2.2.2.1] at hstale
      cases hstale
    · rwa [refresh_entry_of_ne rx c hslot] at hstale
  | duplicate => exact hstale
  | outdated => rwa [unseen_entry] at hstale
  | passed _ _ _ hcurrent => rwa [hcurrent, withNotice_entry, unseen_entry] at hstale
  | stored current order _ hcurrent _ _ hstores =>
    by_cases hslot : slot = current.targetOf rx (c.lookup rx.event)
    · obtain ⟨first, version, hself⟩ := store_entry_self hstores
      rw [hslot, hself] at hstale
      cases hstale
    · rwa [store_entry_of_ne hstores hslot, hcurrent, withNotice_entry, unseen_entry] at hstale

theorem resetPairing_stale {generation : BitVec 32} {slot : CacheSlot}
    (h : ((c.resetPairing generation).entry slot).stale = true) : (c.entry slot).stale = true := by
  unfold TrackerCache.resetPairing at h
  split at h
  case isTrue => exact h
  case isFalse => cases slot <;> cases h

/-- An entry goes stale in a silence check of it, which delivers one observation. -/
theorem stale_observed {op : CacheOp} {c' : TrackerCache} {log : List CacheEvent} {slot : CacheSlot}
    (h : cacheStep c op = some (c', log)) (hfresh : (c.entry slot).stale = false)
    (hstale : (c'.entry slot).stale = true) : ∃ sub generation tracker now reason,
      op = .silence sub generation tracker now slot ∧
        op.deliveries c = [observation sub { c.entry slot with stale := true } reason now] := by
  have hkept : (c.entry slot).stale ≠ true := fun h => Bool.false_ne_true (hfresh.symm.trans h)
  cases op with
  | receive sub generation rx =>
    obtain ⟨-, out, hrel⟩ := cacheStep_receive h
    exfalso
    cases hrel with
    | unpaired => exact hkept hstale
    | retired => exact hkept (resetPairing_stale hstale)
    | session _ _ hsession => exact hkept (resetPairing_stale (hsession.stale hstale))
    | change _ _ _ hsession =>
      have hentered := hsession.stale hstale
      rw [enterSession_entry] at hentered
      cases hentered
  | cleanup generation =>
    obtain ⟨rfl, rfl⟩ := Prod.mk.inj (Option.some.inj h)
    exact absurd (resetPairing_stale hstale) hkept
  | silence sub generation tracker now other =>
    obtain ⟨rfl, rfl⟩ := Prod.mk.inj (Option.some.inj h)
    rcases silenceStep_cases sub generation tracker now other c with
      ⟨-, -, hstate, hout, -⟩ | ⟨hstate, -⟩
    · by_cases hslot : slot = other
      · refine ⟨sub, generation, tracker, now, (c.reasonFor now other).1, by rw [hslot], ?_⟩
        rw [CacheOp.deliveries, hout, hslot]
        rfl
      · rw [hstate, withEntry_entry_of_ne _ hslot, entry_power] at hstale
        exact absurd hstale hkept
    · rw [hstate] at hstale
      exact absurd hstale hkept
  | commit sub out =>
    obtain ⟨rfl, rfl⟩ := Prod.mk.inj (Option.some.inj h)
    exfalso
    unfold commitRest at hstale
    simp only [] at hstale
    split at hstale
    case isFalse => exact hkept hstale
    case isTrue =>
      by_cases hslot : slot = .rest (out.event.kind == kindFusionRest)
      · rw [hslot, withEntry_entry_self] at hstale
        exact hkept (hslot ▸ hstale)
      · rw [withEntry_entry_of_ne _ hslot] at hstale
        exact hkept hstale

/-! ## The law -/

/-- **Outcomes of operations.** A stored terminal event is final until its entry is freed: no entry
holds the operation as running, and no critical section delivers an unknown outcome of it. Events are
stored over older ones of their operation only, never over a terminal one unless they are terminal
themselves, and over other operations only if all entries are in use and, if the entry is running, none
is finished. An entry goes stale in a silence check that delivers one observation of it, and a reception
delivers at most `opCount + 3` records. -/
theorem operation_outcome (h : cacheSystem.Run trace c) :
    (∀ earlier since slot e order time, trace = earlier ++ .stored slot e order time :: since →
      e.isTerminal = true → (∀ ev ∈ since, ev.frees slot e = false) →
      (∀ other, (c.entry other).used = true → (c.entry other).event.sameOperation e = true →
        (c.entry other).terminal = true) ∧
      ∀ (op : CacheOp), ∀ d ∈ op.deliveries c, d.event.outcome = calOutcomeUnknown →
        d.event.sameOperation e = false) ∧
    EachAfter StoreLaw trace ∧ (∀ slot, Holds (c.entry slot) (held slot trace)) ∧
    (∀ op c' log slot, cacheStep c op = some (c', log) → (c.entry slot).stale = false →
      (c'.entry slot).stale = true → ∃ sub generation tracker now reason,
        op = .silence sub generation tracker now slot ∧
          op.deliveries c = [observation sub { c.entry slot with stale := true } reason now]) ∧
    ∀ sub generation rx, (c.processRx sub generation rx).2.length ≤ opCount + 3 := by
  have hentries := entries_of_run h
  refine ⟨?_, hentries.lawful, hentries.holds, fun op c' log slot => stale_observed,
    fun sub generation rx => processRx_length sub generation rx c⟩
  intro earlier since slot e order time htrace hend hsince
  have hwell := storedWell_of_run h slot e order time (htrace ▸ by simp)
  obtain ⟨content, hheld, hsame, hterminal⟩ := held_terminal hend (htrace ▸ hentries.lawful) hsince
  rw [← htrace] at hheld
  obtain ⟨i, hi, rfl⟩ := hwell.2 (by
    rcases (trackerEventValid_iff.mp hwell.1).2.2.calibration_or with hcal | hnot
    · exact hcal.2
    · exact absurd (hnot.2.symm.trans hend) Bool.false_ne_true)
  have hfinished : (c.entry (.operation i)).terminal = true := by
    have hholds := hentries.holds (.operation i)
    rw [hheld] at hholds
    cases hholds with
    | holding _ _ _ _ _ _ hends => exact hends.trans hterminal
  have honly : ∀ other, (c.entry other).used = true →
      (c.entry other).event.sameOperation e = true → other = .operation i := fun other hused hother =>
    entry_of_finished h hi hheld hsame hterminal hused hother
  constructor
  · intro other hused hother
    rw [honly other hused hother]
    exact hfinished
  · intro op d hd hunknown
    obtain ⟨other, hused, habout, hrunning⟩ := unknown_delivery hd hunknown
    refine Bool.eq_false_iff.mpr fun hd' => ?_
    obtain ⟨hid, hkind⟩ := sameOperation_iff.mp habout
    obtain ⟨hid', hkind'⟩ := sameOperation_iff.mp hd'
    have hother := honly other hused
      (sameOperation_iff.mpr ⟨hid.symm.trans hid', hkind.symm.trans hkind'⟩)
    have hnot := hrunning i hother
    rw [hother] at hnot
    exact absurd (hnot.symm.trans hfinished) Bool.false_ne_true

end Outcome

/-- An event of an operation of the first session of tracker 0. -/
def calibration (event outcome : BitVec 8) (seq operation : BitVec 16) : TrackerEvent where
  nonce := 1
  eventSeq := seq
  operationId := operation
  trackerId := 0
  kind := 1
  event := event
  outcome := outcome
  phase := 1
  detail := 0

/-- The end of operation 1. -/
def firstEnd (seq : BitVec 16) : TrackerEvent := calibration calEventEnd calOutcomeSuccess seq 1

/-- After its end, a late step of operation 1 leaves it finished. -/
theorem operation_outcome_lateStep : ∃ trace c, cacheSystem.Run trace c ∧
    (c.entry (.operation 0)).terminal = true := by
  obtain ⟨trace, c, hrun, htest⟩ := cacheSystem.exists_run_of_replay
    [.receive .init 0 ((firstEnd 20).received 0),
      .receive .init 0 ((calibration calEventStep 0 19 1).received 1)]
    (fun trace c => decide (trace =
        [.sessionEntered 1, .stored (.operation 0) (firstEnd 20) 65536 0] ∧
      (c.entry (.operation 0)).used = true ∧
      (c.entry (.operation 0)).event.sameOperation (firstEnd 20) = true)) (by decide +kernel)
  obtain ⟨htrace, hused, hsame⟩ := of_decide_eq_true htest
  exact ⟨trace, c, hrun, ((operation_outcome hrun).1 [.sessionEntered 1] [] (.operation 0)
    (firstEnd 20) 65536 0 htrace (by decide) (by simp)).1 _ hused hsame⟩

/-- **Two ways a finished operation is held as running.** The end of operation 1 is evicted by the
eighth other operation, and a late step makes it a running one again; and an end that arrives after a
step with a later number is delivered but not stored. In both cases the silence check then reports the
operation as ended with an unknown outcome. -/
theorem operation_outcome_not_final :
    (∃ trace c since, cacheSystem.Run trace c ∧
      trace = .sessionEntered 1 :: .stored (.operation 0) (firstEnd 20) 65536 0 :: since ∧
      (∀ ev ∈ since, ev.changesLeft = false) ∧
      (c.entry (.operation 1)).used = true ∧ (c.entry (.operation 1)).terminal = false ∧
      (c.entry (.operation 1)).event.sameOperation (firstEnd 20) = true ∧
      ∃ d ∈ (CacheOp.silence .init 0 0 10009 (.operation 1)).deliveries c,
        d.event.outcome = calOutcomeUnknown ∧ d.event.sameOperation (firstEnd 20) = true) ∧
    ∃ c c' log, cacheSystem.Reachable c ∧
      cacheStep c (.receive .init 0 ((firstEnd 3).received 1)) = some (c', log) ∧
      ((CacheOp.receive .init 0 ((firstEnd 3).received 1)).deliveries c).map Delivery.event =
        [firstEnd 3] ∧
      (c'.entry (.operation 0)).used = true ∧ (c'.entry (.operation 0)).terminal = false ∧
      (c'.entry (.operation 0)).event.sameOperation (firstEnd 3) = true ∧
      ∃ d ∈ (CacheOp.silence .init 0 0 10000 (.operation 0)).deliveries c',
        d.event.outcome = calOutcomeUnknown ∧ d.event.sameOperation (firstEnd 3) = true := by
  constructor
  · obtain ⟨trace, c, hrun, htest⟩ := cacheSystem.exists_run_of_replay
      (.receive .init 0 ((firstEnd 20).received 0) ::
        (([2, 3, 4, 5, 6, 7, 8, 9] : List ℕ).map fun k => .receive .init 0
          ((calibration calEventBegin 0 (BitVec.ofNat 16 (19 + k)) (BitVec.ofNat 16 k)).received (k - 1))) ++
        [.receive .init 0 ((calibration calEventStep 0 10 1).received 9)])
      (fun trace c => decide (trace =
          .sessionEntered 1 :: .stored (.operation 0) (firstEnd 20) 65536 0 :: trace.drop 2 ∧
        (∀ ev ∈ trace.drop 2, ev.changesLeft = false) ∧
        (c.entry (.operation 1)).used = true ∧ (c.entry (.operation 1)).terminal = false ∧
        (c.entry (.operation 1)).event.sameOperation (firstEnd 20) = true ∧
        ∃ d ∈ (CacheOp.silence .init 0 0 10009 (.operation 1)).deliveries c,
          d.event.outcome = calOutcomeUnknown ∧ d.event.sameOperation (firstEnd 20) = true))
      (by decide +kernel)
    exact ⟨trace, c, trace.drop 2, hrun, of_decide_eq_true htest⟩
  · obtain ⟨c, c', log, hreach, hstep, htest⟩ := cacheSystem.exists_step_of_replay
      [.receive .init 0 ((calibration calEventStep 0 5 1).received 0)]
      (.receive .init 0 ((firstEnd 3).received 1))
      (fun c c' _ => decide (
        ((CacheOp.receive .init 0 ((firstEnd 3).received 1)).deliveries c).map Delivery.event =
          [firstEnd 3] ∧
        (c'.entry (.operation 0)).used = true ∧ (c'.entry (.operation 0)).terminal = false ∧
        (c'.entry (.operation 0)).event.sameOperation (firstEnd 3) = true ∧
        ∃ d ∈ (CacheOp.silence .init 0 0 10000 (.operation 0)).deliveries c',
          d.event.outcome = calOutcomeUnknown ∧ d.event.sameOperation (firstEnd 3) = true))
      (by decide +kernel)
    exact ⟨c, c', log, hreach, hstep, of_decide_eq_true htest⟩

end SlimeReceiver.Events
