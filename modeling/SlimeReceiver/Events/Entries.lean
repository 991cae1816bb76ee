import SlimeReceiver.Events.Codec
import SlimeReceiver.Events.CacheSystem

/-! # The entries of a cache, read off its history

* **`allocateOperation_spec`**, **`findOperation_some`**, **`findOperation_none`** — where an event
  goes.
* **`Holding`**, **`held`** — what the history put into an entry last.
* **`StoreLaw`** — what an event may be stored over.
* **`Entries`** — the cache and its history agree: the invariant of all runs, `entries_of_run`. -/

namespace SlimeReceiver.Events

open TrackerCache

/-- The events belong to one operation. -/
def TrackerEvent.sameOperation (e e' : TrackerEvent) : Bool :=
  e.operationId == e'.operationId && e.kind == e'.kind

theorem sameOperation_iff {e e' : TrackerEvent} : e.sameOperation e' = true ↔
    e.operationId = e'.operationId ∧ e.kind = e'.kind := by
  rw [TrackerEvent.sameOperation, Bool.and_eq_true, beq_iff_eq, beq_iff_eq]

/-! ## Where an event goes -/

section Allocation

variable {now : BitVec 32} {operations : ℕ → EventCache}

theorem terminal_of_not_evicts {op oldest : EventCache} (h : evictsBefore now op oldest = false)
    (hold : oldest.terminal = false) : op.terminal = false := by
  cases hop : op.terminal with
  | false => rfl
  | true => simp [evictsBefore, hop, hold] at h

theorem terminal_of_evicts {op oldest : EventCache} (h : evictsBefore now op oldest = true)
    (hop : op.terminal = false) : oldest.terminal = false := by
  cases hold : oldest.terminal with
  | false => rfl
  | true => simp [evictsBefore, hop, hold] at h

/-- The loop of `allocate_operation` past a first entry in use: it ends at a free entry, or at one of
those it has seen, all of them in use, and at a running one only if all of them run. -/
theorem allocateFrom_some (slots : List ℕ) (j : ℕ) (hj : (operations j).used = true) :
    allocateFrom now operations (some j) slots ∈ j :: slots ∧
    ((operations (allocateFrom now operations (some j) slots)).used = true →
      (∀ i ∈ j :: slots, (operations i).used = true) ∧
      ((operations (allocateFrom now operations (some j) slots)).terminal = false →
        ∀ i ∈ j :: slots, (operations i).terminal = false)) := by
  -- the candidate `j` stands for all entries before `slots`
  induction slots generalizing j with
  | nil =>
    rw [allocateFrom, Option.getD_some]
    refine ⟨List.mem_singleton_self j, fun _ => ⟨List.forall_mem_singleton.mpr hj, fun hrunning => ?_⟩⟩
    exact List.forall_mem_singleton.mpr hrunning
  | cons i rest ih =>
    rw [allocateFrom]
    by_cases hfree : (operations i).used = false
    · rw [hfree, Bool.not_false, if_pos rfl]
      refine ⟨by simp, fun hused => ?_⟩
      exact absurd (hfree.symm.trans hused) Bool.false_ne_true
    · have hi : (operations i).used = true := Bool.eq_true_of_not_eq_false hfree
      rw [hi, Bool.not_true, if_neg Bool.false_ne_true]
      cases hevicts : evictsBefore now (operations i) (operations j) with
      | true =>
        rw [if_pos rfl]
        obtain ⟨hmem, hspec⟩ := ih i hi
        refine ⟨List.mem_cons_of_mem _ hmem, fun hused => ?_⟩
        obtain ⟨hall, hterminal⟩ := hspec hused
        refine ⟨List.forall_mem_cons.mpr ⟨hj, hall⟩, fun hrunning => ?_⟩
        have hrest := hterminal hrunning
        exact List.forall_mem_cons.mpr
          ⟨terminal_of_evicts hevicts (hrest i List.mem_cons_self), hrest⟩
      | false =>
        rw [if_neg Bool.false_ne_true]
        obtain ⟨hmem, hspec⟩ := ih j hj
        constructor
        · rcases List.mem_cons.mp hmem with hself | hrest
          · rw [hself]
            exact List.mem_cons_self
          · exact List.mem_cons_of_mem _ (List.mem_cons_of_mem _ hrest)
        · intro hused
          obtain ⟨hall, hterminal⟩ := hspec hused
          obtain ⟨-, hrest⟩ := List.forall_mem_cons.mp hall
          refine ⟨List.forall_mem_cons.mpr ⟨hj, List.forall_mem_cons.mpr ⟨hi, hrest⟩⟩,
            fun hrunning => ?_⟩
          obtain ⟨hfirst, hlater⟩ := List.forall_mem_cons.mp (hterminal hrunning)
          exact List.forall_mem_cons.mpr ⟨hfirst,
            List.forall_mem_cons.mpr ⟨terminal_of_not_evicts hevicts hfirst, hlater⟩⟩

/-- A new operation gets a free entry; if there is none, a finished one; and if there is none of
these either, a running one. -/
theorem allocateOperation_spec (now : BitVec 32) (c : TrackerCache) :
    c.allocateOperation now < opCount ∧
    ((c.operations (c.allocateOperation now)).used = true →
      (∀ i < opCount, (c.operations i).used = true) ∧
      ((c.operations (c.allocateOperation now)).terminal = false →
        ∀ i < opCount, (c.operations i).terminal = false)) := by
  have hrange : List.range opCount = 0 :: [1, 2, 3, 4, 5, 6, 7] := rfl
  unfold allocateOperation
  simp only [← List.mem_range]
  rw [hrange, allocateFrom]
  by_cases hfree : (c.operations 0).used = false
  · rw [hfree, Bool.not_false, if_pos rfl]
    refine ⟨List.mem_cons_self, fun hused => ?_⟩
    exact absurd (hfree.symm.trans hused) Bool.false_ne_true
  · have hused : (c.operations 0).used = true := Bool.eq_true_of_not_eq_false hfree
    rw [hused, Bool.not_true, if_neg Bool.false_ne_true]
    exact allocateFrom_some _ 0 hused

variable {c : TrackerCache} {e : TrackerEvent}

theorem findOperation_some {i : ℕ} (h : c.findOperation e = some i) :
    i < opCount ∧ (c.operations i).used = true ∧ (c.operations i).event.sameOperation e = true := by
  have hfound := List.find?_some h
  rw [Bool.and_assoc, Bool.and_eq_true] at hfound
  exact ⟨List.mem_range.mp (List.mem_of_find?_eq_some h), hfound.1, hfound.2⟩

theorem findOperation_none (h : c.findOperation e = none) {i : ℕ} (hi : i < opCount)
    (hused : (c.operations i).used = true) : (c.operations i).event.sameOperation e = false := by
  have hother := List.find?_eq_none.mp h i (List.mem_range.mpr hi)
  rw [hused, Bool.true_and, ← TrackerEvent.sameOperation] at hother
  exact Bool.eq_false_of_not_eq_true hother

end Allocation

/-! ## What the history put into an entry -/

/-- The content of an entry: its newest event, the order of that, when the entry was last refreshed,
and whether it has been reported as silent since. -/
structure Holding where
  event : TrackerEvent
  order : BitVec 32
  refreshed : ℕ
  stale : Bool
  deriving DecidableEq, Repr

/-- What an event of the history makes of the content of an entry. -/
def CacheEvent.hold (slot : CacheSlot) (holding : Option Holding) : CacheEvent → Option Holding
  | .wiped | .sessionEntered _ => none
  | .stored other e order time => if other = slot then some ⟨e, order, time, false⟩ else holding
  | .refreshed other time =>
    if other = slot then holding.map fun h =>
      { h with
        refreshed := time
        stale := false }
    else holding
  | .silenced other _ =>
    if other = slot then holding.map fun h => { h with stale := true } else holding
  | .sessionLeft .. | .observed _ => holding

/-- The content of an entry after a history. -/
def held (slot : CacheSlot) (trace : List CacheEvent) : Option Holding :=
  trace.foldl (CacheEvent.hold slot) none

theorem held_append (slot : CacheSlot) (trace log : List CacheEvent) :
    held slot (trace ++ log) = log.foldl (CacheEvent.hold slot) (held slot trace) := by
  rw [held, List.foldl_append]
  rfl

theorem held_concat (slot : CacheSlot) (trace : List CacheEvent) (e : CacheEvent) :
    held slot (trace ++ [e]) = e.hold slot (held slot trace) := held_append slot trace [e]

/-- The entry has the content. -/
inductive Holds (cache : EventCache) : Option Holding → Prop
  | free (hfree : cache.used = false) : Holds cache none
  | holding (h : Holding) (hused : cache.used = true) (hevent : cache.event = h.event)
      (horder : cache.order = h.order) (hlast : cache.lastRx = stamp h.refreshed)
      (hstale : cache.stale = h.stale) (hterminal : cache.terminal = h.event.isTerminal) :
      Holds cache (some h)

namespace Holds

variable {cache : EventCache} {holding : Option Holding}

theorem exists_of_used (h : Holds cache holding) (hused : cache.used = true) :
    ∃ content, holding = some content ∧ cache.event = content.event ∧
      cache.order = content.order ∧ cache.lastRx = stamp content.refreshed ∧
      cache.stale = content.stale ∧ cache.terminal = content.event.isTerminal := by
  cases h with
  | free hfree => exact absurd (hfree.symm.trans hused) Bool.false_ne_true
  | holding content _ hevent horder hlast hstale hterminal =>
    exact ⟨content, rfl, hevent, horder, hlast, hstale, hterminal⟩

/-- A heartbeat. -/
theorem refresh (h : Holds cache holding) (hused : cache.used = true) {cache' : EventCache}
    {time : ℕ} (hcache : cache'.used = cache.used ∧ cache'.event = cache.event ∧
      cache'.order = cache.order ∧ cache'.lastRx = stamp time ∧ cache'.stale = false ∧
      cache'.terminal = cache.terminal) :
    Holds cache' (holding.map fun content =>
      { content with
        refreshed := time
        stale := false }) := by
  obtain ⟨content, rfl, hevent, horder, -, -, hterminal⟩ := h.exists_of_used hused
  obtain ⟨hu, he, ho, hl, hs, ht⟩ := hcache
  exact .holding _ (hu.trans hused) (he.trans hevent) (ho.trans horder) hl hs (ht.trans hterminal)

/-- A report of silence. -/
theorem silence (h : Holds cache holding) (hused : cache.used = true) :
    Holds { cache with stale := true } (holding.map fun content => { content with stale := true }) := by
  obtain ⟨content, rfl, hevent, horder, hlast, -, hterminal⟩ := h.exists_of_used hused
  exact .holding _ hused hevent horder hlast rfl hterminal

end Holds

/-! ## The invariant -/

/-- An event goes into an entry: over an older event of its own operation, and not over a terminal one
unless it is terminal itself; or over another operation if all entries are in use, and over a running
one only if no entry is finished. -/
def StoreLaw (earlier : List CacheEvent) : CacheEvent → Prop
  | .stored slot e order _ => ∀ h, held slot earlier = some h →
      (h.event.sameOperation e = true → 0 < (order - h.order).toInt ∧
        (h.event.isTerminal = true → e.isTerminal = true)) ∧
      (h.event.sameOperation e = false → ∀ i, slot = .operation i → ∀ j < opCount, ∃ h',
        held (.operation j) earlier = some h' ∧
          (h.event.isTerminal = false → h'.event.isTerminal = false))
  | _ => True

/-- Each operation has one entry. -/
def DistinctOperations (c : TrackerCache) : Prop :=
  ∀ i < opCount, ∀ j < opCount, (c.operations i).used = true → (c.operations j).used = true →
    (c.operations i).event.sameOperation (c.operations j).event = true → i = j

/-- The cache and its history agree. -/
structure Entries (trace : List CacheEvent) (c : TrackerCache) : Prop where
  holds : ∀ slot, Holds (c.entry slot) (held slot trace)
  distinct : DistinctOperations c
  lawful : EachAfter StoreLaw trace

namespace Entries

variable {trace : List CacheEvent} {c c' : TrackerCache}

theorem start : Entries [] .zero where
  holds slot := .free (by cases slot <;> rfl)
  distinct := fun i _ _ _ hused => by cases hused
  lawful := eachAfter_nil

/-- Nothing is said about the entries. -/
theorem same (h : Entries trace c) (hentries : ∀ slot, c'.entry slot = c.entry slot) :
    Entries trace c' where
  holds slot := hentries slot ▸ h.holds slot
  distinct := by
    have hoperations : c'.operations = c.operations := funext fun i => hentries (.operation i)
    unfold DistinctOperations
    rw [hoperations]
    exact h.distinct
  lawful := h.lawful

/-- Events that change no entry. -/
theorem quiet (h : Entries trace c) {log : List CacheEvent}
    (hlog : ∀ e ∈ log, ∀ slot holding, e.hold slot holding = holding)
    (hlaw : ∀ earlier, ∀ e ∈ log, StoreLaw earlier e) : Entries (trace ++ log) c where
  holds slot := by
    rw [held_append, foldl_eq_self (fun e he => hlog e he slot)]
    exact h.holds slot
  distinct := h.distinct
  lawful := h.lawful.append hlaw

/-- All entries are freed. -/
theorem freed (h : Entries trace c) {e : CacheEvent} (he : ∀ slot holding, e.hold slot holding = none)
    (hlaw : ∀ earlier, StoreLaw earlier e) (hzero : ∀ slot, (c'.entry slot).used = false) :
    Entries (trace ++ [e]) c' where
  holds slot := by
    rw [held_concat, he]
    exact .free (hzero slot)
  distinct := fun i _ _ _ hused => absurd ((hzero (.operation i)).symm.trans hused) Bool.false_ne_true
  lawful := eachAfter_snoc.mpr ⟨h.lawful, hlaw _⟩

theorem resetPairing (h : Entries trace c) (generation : BitVec 32) :
    Entries (trace ++ c.pairingEvents generation) (c.resetPairing generation) := by
  unfold pairingEvents TrackerCache.resetPairing
  split
  case isTrue =>
    rw [List.append_nil]
    exact h
  case isFalse =>
    exact h.freed (fun _ _ => rfl) (fun _ => trivial) fun slot => by cases slot <;> rfl

theorem enterSession (h : Entries trace c) (rx : RxEvent) :
    Entries (trace ++ c.changeEvents rx) (c.enterSession rx) := by
  have hleft : Entries (trace ++ if c.nonce = 0 then []
      else c.outstandingSlots.map CacheEvent.observed ++ [CacheEvent.sessionLeft c.nonce rx.receivedAt]) c := by
    refine h.quiet (fun e he slot holding => ?_) fun earlier e he => ?_
    all_goals
      split at he
      · cases he
      · rcases List.mem_append.mp he with hobserved | hlast
        · obtain ⟨other, -, rfl⟩ := List.mem_map.mp hobserved
          trivial
        · rw [List.mem_singleton.mp hlast]
          trivial
  rw [changeEvents, ← List.append_assoc]
  exact hleft.freed (fun _ _ => rfl) (fun _ => trivial) fun slot => by cases slot <;> rfl

/-- A step that changes one entry, with one event about it. -/
theorem one (h : Entries trace c) {slot : CacheSlot} {e : CacheEvent}
    (hothers : ∀ other ≠ slot, c'.entry other = c.entry other)
    (hquiet : ∀ other ≠ slot, ∀ holding, e.hold other holding = holding)
    (hself : Holds (c'.entry slot) (e.hold slot (held slot trace)))
    (hdistinct : DistinctOperations c') (hlaw : StoreLaw trace e) : Entries (trace ++ [e]) c' where
  holds other := by
    rw [held_concat]
    by_cases hslot : other = slot
    · rw [hslot]
      exact hself
    · rw [hothers other hslot, hquiet other hslot]
      exact h.holds other
  distinct := hdistinct
  lawful := eachAfter_snoc.mpr ⟨h.lawful, hlaw⟩

end Entries

/-- Entries stay distinct if each keeps its operation. -/
theorem DistinctOperations.keep {c c' : TrackerCache} (h : DistinctOperations c)
    (hkeep : ∀ i, (c'.operations i).used = (c.operations i).used ∧
      (c'.operations i).event = (c.operations i).event) : DistinctOperations c' := by
  intro i hi j hj hused hused' hsame
  rw [(hkeep i).1] at hused
  rw [(hkeep j).1] at hused'
  rw [(hkeep i).2, (hkeep j).2] at hsame
  exact h i hi j hj hused hused' hsame

/-! ## Within a session -/

section Session

variable {rx : RxEvent} {c : TrackerCache} {slot other : CacheSlot}

variable (rx c) in
theorem refresh_entry_of_ne (h : other ≠ slot) :
    (c.refresh rx slot).1.entry other = c.entry other := by
  have hnoted : (if trackerEventIsCalibration rx.event.kind = true then
      c.withEvidence rx.event (c.entry slot).order rx.stamp else c).entry other = c.entry other := by
    split
    · exact withEvidence_entry _ _ _ _ _
    · rfl
  unfold refresh
  simp only []
  split <;> rw [withEntry_entry_of_ne _ h, hnoted]

variable (rx c slot) in
/-- A heartbeat keeps the event of its entry. -/
theorem refresh_entry_self : ((c.refresh rx slot).1.entry slot).used = (c.entry slot).used ∧
    ((c.refresh rx slot).1.entry slot).event = (c.entry slot).event ∧
    ((c.refresh rx slot).1.entry slot).order = (c.entry slot).order ∧
    ((c.refresh rx slot).1.entry slot).lastRx = rx.stamp ∧
    ((c.refresh rx slot).1.entry slot).stale = false ∧
    ((c.refresh rx slot).1.entry slot).terminal = (c.entry slot).terminal := by
  unfold refresh
  simp only []
  split <;> (rw [withEntry_entry_self]; exact ⟨rfl, rfl, rfl, rfl, rfl, rfl⟩)

variable {found : Option CacheSlot} {order : BitVec 32}

theorem store_entry_of_ne (hstores : c.stores rx found order = true)
    (h : other ≠ c.targetOf rx found) : (c.store rx found order).1.entry other = c.entry other := by
  rw [store, if_pos hstores]
  simp only []
  rw [withEntry_entry_of_ne _ h]
  split
  · rfl
  · exact withEvidence_entry _ _ _ _ _

theorem store_entry_self (hstores : c.stores rx found order = true) :
    ∃ firstOrder version, (c.store rx found order).1.entry (c.targetOf rx found) =
      freshEntry rx order firstOrder version := by
  rw [store, if_pos hstores]
  exact ⟨_, _, withEntry_entry_self _ _ _⟩

/-- An event that finds an entry belongs to its operation. -/
theorem lookup_sameOperation {i : ℕ} (h : c.lookup rx.event = some (.operation i)) :
    rx.event.isState = false ∧ i < opCount ∧ (c.operations i).used = true ∧
      (c.operations i).event.sameOperation rx.event = true := by
  unfold lookup at h
  cases hstate : rx.event.isState with
  | true =>
    rw [hstate, if_pos rfl] at h
    cases h
  | false =>
    rw [hstate, if_neg Bool.false_ne_true] at h
    obtain ⟨j, hfound, hj⟩ := Option.map_eq_some_iff.mp h
    obtain rfl : j = i := by simpa using hj
    exact ⟨rfl, findOperation_some hfound⟩

theorem lookup_rest {fusion : Bool} (h : c.lookup rx.event = some (.rest fusion)) :
    rx.event.isState = true := by
  unfold lookup at h
  split at h
  case isTrue hstate => exact hstate
  case isFalse =>
    obtain ⟨j, -, hj⟩ := Option.map_eq_some_iff.mp h
    cases hj

theorem lookup_none (h : c.lookup rx.event = none) : c.findOperation rx.event = none := by
  unfold lookup at h
  split at h
  · cases h
  · exact Option.map_eq_none_iff.mp h

/-- An event goes to an entry of its operation, or to an allocated one if it has none. -/
theorem targetOf_cases (rx : RxEvent) (c : TrackerCache) {current : TrackerCache}
    (hcurrent : ∀ slot, current.entry slot = c.entry slot) :
    (rx.event.isState = true ∧ ∃ fusion, current.targetOf rx (c.lookup rx.event) = .rest fusion) ∨
    (∃ i, c.lookup rx.event = some (.operation i) ∧
      current.targetOf rx (c.lookup rx.event) = .operation i ∧ i < opCount ∧
      (c.operations i).used = true ∧ (c.operations i).event.sameOperation rx.event = true) ∨
    (c.lookup rx.event = none ∧
      current.targetOf rx (c.lookup rx.event) = .operation (c.allocateOperation rx.stamp) ∧
      ∀ j < opCount, (c.operations j).used = true →
        (c.operations j).event.sameOperation rx.event = false) := by
  have hoperations : current.operations = c.operations := funext fun i => hcurrent (.operation i)
  cases hfound : c.lookup rx.event with
  | none =>
    right; right
    refine ⟨rfl, ?_, fun j hj hused => findOperation_none (lookup_none hfound) hj hused⟩
    rw [targetOf, Option.getD_none, allocateOperation, allocateOperation, hoperations]
  | some slot =>
    cases slot with
    | rest fusion => exact .inl ⟨lookup_rest hfound, fusion, rfl⟩
    | operation i =>
      obtain ⟨-, hi, hused, hsame⟩ := lookup_sameOperation hfound
      exact .inr (.inl ⟨i, rfl, rfl, hi, hused, hsame⟩)

/-- The entries stay distinct when an event is stored. -/
theorem DistinctOperations.store {current : TrackerCache} (h : DistinctOperations c)
    (hcurrent : ∀ slot, current.entry slot = c.entry slot) {order : BitVec 32}
    (hstores : current.stores rx (c.lookup rx.event) order = true) :
    DistinctOperations (current.store rx (c.lookup rx.event) order).1 := by
  set c' := (current.store rx (c.lookup rx.event) order).1 with hc'
  obtain ⟨first, version, hself⟩ := store_entry_self hstores
  have hothers : ∀ other ≠ current.targetOf rx (c.lookup rx.event), c'.entry other = c.entry other :=
    fun other hother => (store_entry_of_ne hstores hother).trans (hcurrent other)
  rcases targetOf_cases rx c hcurrent with ⟨-, fusion, htarget⟩ | hoperation
  · refine h.keep fun i => ?_
    have hkept : c'.operations i = c.operations i :=
      hothers (.operation i) (by rw [htarget]; simp)
    rw [hkept]
    exact ⟨rfl, rfl⟩
  · -- no entry but `k` belongs to the operation of the event
    obtain ⟨k, htarget, hforeign⟩ : ∃ k, current.targetOf rx (c.lookup rx.event) = .operation k ∧
        ∀ j < opCount, j ≠ k → (c.operations j).used = true →
          (c.operations j).event.sameOperation rx.event = false := by
      rcases hoperation with ⟨i, -, htarget, hi, hused, hsame⟩ | ⟨-, htarget, hforeign⟩
      · refine ⟨i, htarget, fun j hj hne hused' => Bool.eq_false_iff.mpr fun hsame' => hne ?_⟩
        refine h j hj i hi hused' hused (sameOperation_iff.mpr ?_)
        obtain ⟨hid, hkind⟩ := sameOperation_iff.mp hsame
        obtain ⟨hid', hkind'⟩ := sameOperation_iff.mp hsame'
        exact ⟨hid'.trans hid.symm, hkind'.trans hkind.symm⟩
      · exact ⟨_, htarget, fun j hj _ => hforeign j hj⟩
    rw [htarget] at hself hothers
    have hk : (c'.operations k).event = rx.event := by
      show (c'.entry (.operation k)).event = rx.event
      rw [hself]
      rfl
    have hkept : ∀ j, j ≠ k → c'.operations j = c.operations j := fun j hj =>
      hothers (.operation j) (by simpa using hj)
    intro i hi j hj hused hused' hsame
    by_cases hik : i = k
    · by_cases hjk : j = k
      · exact hik.trans hjk.symm
      · rw [hkept j hjk] at hused' hsame
        rw [hik, hk] at hsame
        have hno := hforeign j hj hjk hused'
        obtain ⟨hid, hkind⟩ := sameOperation_iff.mp hsame
        exact absurd (sameOperation_iff.mpr ⟨hid.symm, hkind.symm⟩)
          (Bool.eq_false_iff.mp hno)
    · rw [hkept i hik] at hused hsame
      by_cases hjk : j = k
      · rw [hjk, hk] at hsame
        exact absurd hsame (Bool.eq_false_iff.mp (hforeign i hi hik hused))
      · rw [hkept j hjk] at hused' hsame
        exact h i hi j hj hused hused' hsame

namespace Entries

variable {trace log : List CacheEvent} {c' current : TrackerCache} {out : List Delivery}

/-- What is stored obeys the law. -/
theorem storeLaw (h : Entries trace c) (hcurrent : ∀ slot, current.entry slot = c.entry slot)
    {order : BitVec 32} (hstores : current.stores rx (c.lookup rx.event) order = true) :
    StoreLaw trace
      (.stored (current.targetOf rx (c.lookup rx.event)) rx.event order rx.receivedAt) := by
  intro content hheld
  have hholds := h.holds (current.targetOf rx (c.lookup rx.event))
  rw [hheld, ← hcurrent] at hholds
  cases hholds with
  | holding _ hused hevent horder _ _ hterminal =>
    constructor
    · intro hsame
      -- an event without an entry would have been given one of another operation
      have hfound : (c.lookup rx.event).isNone = false := by
        cases hlookup : c.lookup rx.event with
        | some => rfl
        | none =>
          rw [hlookup] at hevent hused
          rcases targetOf_cases rx c hcurrent with ⟨-, fusion, htarget⟩ | ⟨i, hsome, -⟩ |
            ⟨-, htarget, hforeign⟩
          · rw [hlookup, targetOf, Option.getD_none] at htarget
            cases htarget
          · rw [hlookup] at hsome
            cases hsome
          · rw [hlookup] at htarget
            rw [htarget, hcurrent] at hevent hused
            have hno := hforeign _ (allocateOperation_spec rx.stamp c).1 hused
            rw [show (c.operations _).event = content.event from hevent] at hno
            exact absurd hsame (Bool.eq_false_iff.mp hno)
      rw [stores, startsEntry, hfound, hused, Bool.not_true, Bool.or_false, Bool.false_or,
        Bool.and_eq_true, Bool.and_eq_true, decide_eq_true_eq, horder, hterminal] at hstores
      refine ⟨hstores.2.1, fun hfinished => ?_⟩
      simpa [hfinished] using hstores.2.2
    · intro hdifferent i hslot j hj
      rcases targetOf_cases rx c hcurrent with ⟨-, fusion, htarget⟩ | ⟨i', -, htarget, -, -, hsame⟩ |
        ⟨-, htarget, -⟩
      · rw [htarget] at hslot
        cases hslot
      · rw [htarget, hcurrent] at hevent
        rw [show (c.operations i').event = content.event from hevent, hdifferent] at hsame
        cases hsame
      · obtain ⟨-, hspec⟩ := allocateOperation_spec rx.stamp c
        rw [htarget, hcurrent] at hused hterminal
        obtain ⟨hall, hrunning⟩ := hspec hused
        obtain ⟨other, hother, -, -, -, -, hends⟩ := (h.holds (.operation j)).exists_of_used (hall j hj)
        refine ⟨other, hother, fun hnot => hends.symm.trans (hrunning ?_ j hj)⟩
        exact (show (c.operations _).terminal = content.event.isTerminal from hterminal).trans hnot

/-- An event within the session. -/
theorem session (h : Entries trace c) (hrel : SessionRel rx c c' out log) :
    Entries (trace ++ log) c' := by
  cases hrel with
  | heartbeat slot _ hused =>
    refine h.one (fun other (hother : other ≠ slot) => refresh_entry_of_ne rx c hother)
      (fun other hother holding => if_neg (Ne.symm hother)) ?_ ?_ trivial
    · rw [CacheEvent.hold, if_pos rfl]
      exact (h.holds slot).refresh hused (refresh_entry_self rx c slot)
    · refine h.distinct.keep fun i => ?_
      by_cases hslot : CacheSlot.operation i = slot
      · rw [← hslot]
        have hself := refresh_entry_self rx c (.operation i)
        exact ⟨hself.1, hself.2.1⟩
      · have hkept := refresh_entry_of_ne rx c hslot
        exact ⟨congrArg EventCache.used hkept, congrArg EventCache.event hkept⟩
  | duplicate =>
    rw [List.append_nil]
    exact h
  | outdated =>
    rw [List.append_nil]
    exact h.same fun slot => unseen_entry _ _ _ _
  | passed _ _ _ hcurrent =>
    rw [List.append_nil]
    refine h.same fun slot => ?_
    rw [hcurrent, withNotice_entry, unseen_entry]
  | stored current order _ hcurrent _ _ hstores =>
    have hentries : ∀ slot, current.entry slot = c.entry slot := fun slot => by
      rw [hcurrent, withNotice_entry, unseen_entry]
    refine h.one (fun other hother => (store_entry_of_ne hstores hother).trans (hentries other))
      (fun other hother holding => if_neg (Ne.symm hother)) ?_ (h.distinct.store hentries hstores)
      (h.storeLaw hentries hstores)
    obtain ⟨first, version, hself⟩ := store_entry_self hstores
    rw [CacheEvent.hold, if_pos rfl, hself]
    exact .holding _ rfl rfl rfl rfl rfl rfl

end Entries

end Session

/-! ## Over a run -/

section Silence

variable {c : TrackerCache} {sub : Subscription} {generation now : BitVec 32} {tracker : BitVec 8}
  {slot : CacheSlot}

/-- A silence check reports the entry and marks it stale, or leaves the cache alone. -/
theorem silenceStep_cases (sub : Subscription) (generation : BitVec 32) (tracker : BitVec 8)
    (now : BitVec 32) (slot : CacheSlot) (c : TrackerCache) :
    (c.pairingGeneration = generation ∧ c.silent now slot = true ∧
      (c.silenceStep sub generation tracker now slot).1 =
        ({ c with power := (c.reasonFor now slot).2 } : TrackerCache).withEntry slot
          { c.entry slot with stale := true } ∧
      (c.silenceStep sub generation tracker now slot).2 = some (observation sub
        { c.entry slot with stale := true } (c.reasonFor now slot).1 now, true) ∧
      c.silenceEvents generation now slot = [.silenced slot (c.reasonFor now slot).1]) ∨
    ((c.silenceStep sub generation tracker now slot).1 = c ∧
      c.silenceEvents generation now slot = [] ∧
      ∀ d ∈ (c.silenceStep sub generation tracker now slot).2,
        d.1.event = (c.entry slot).event ∧ (c.entry slot).used = true ∧ ∃ fusion, slot = .rest fusion) := by
  unfold silenceStep silenceEvents
  by_cases hpaired : c.pairingGeneration = generation
  · rw [if_neg (not_not.mpr hpaired), if_neg (not_not.mpr hpaired)]
    cases hsilent : c.silent now slot with
    | true =>
      rw [if_pos rfl, if_pos rfl]
      exact .inl ⟨hpaired, rfl, rfl, rfl, rfl⟩
    | false =>
      rw [if_neg Bool.false_ne_true, if_neg Bool.false_ne_true]
      right
      split
      case isTrue hunnotified =>
        refine ⟨rfl, rfl, fun d hd => ?_⟩
        obtain rfl := Option.mem_some_iff.mp hd
        cases slot with
        | operation => cases hunnotified
        | rest fusion =>
          simp only [unnotified, Bool.and_eq_true] at hunnotified
          exact ⟨rfl, hunnotified.1.1.1, fusion, rfl⟩
      case isFalse => exact ⟨rfl, rfl, fun d hd => by cases hd⟩
  · rw [if_pos hpaired, if_pos hpaired]
    exact .inr ⟨rfl, rfl, fun d hd => by cases hd⟩

theorem used_of_silent (h : c.silent now slot = true) : (c.entry slot).used = true ∧
    (c.entry slot).terminal = false ∧ (c.entry slot).stale = false ∧
    slot.timeout ≤ elapsed now (c.entry slot).lastRx := by
  simp only [silent, Bool.and_eq_true, Bool.not_eq_true', decide_eq_true_eq] at h
  exact ⟨h.1.1.1, h.1.1.2, h.1.2, h.2⟩

/-- The power intent is no entry. -/
@[simp] theorem entry_power (c : TrackerCache) (p : PowerIntent) (slot : CacheSlot) :
    ({ c with power := p } : TrackerCache).entry slot = c.entry slot := by
  cases slot <;> rfl

end Silence

namespace Entries

variable {trace : List CacheEvent} {c : TrackerCache}

theorem silence (h : Entries trace c) (sub : Subscription) (generation : BitVec 32)
    (tracker : BitVec 8) (now : BitVec 32) (slot : CacheSlot) :
    Entries (trace ++ c.silenceEvents generation now slot)
      (c.silenceStep sub generation tracker now slot).1 := by
  rcases silenceStep_cases sub generation tracker now slot c with
    ⟨-, hsilent, hstate, -, hlog⟩ | ⟨hstate, hlog, -⟩
  · obtain ⟨hused, -⟩ := used_of_silent hsilent
    rw [hstate, hlog]
    have hothers : ∀ other ≠ slot,
        (({ c with power := (c.reasonFor now slot).2 } : TrackerCache).withEntry slot
          { c.entry slot with stale := true }).entry other = c.entry other := fun other hother => by
      rw [withEntry_entry_of_ne _ hother, entry_power]
    refine h.one hothers (fun other hother holding => if_neg (Ne.symm hother)) ?_ ?_ trivial
    · rw [withEntry_entry_self, CacheEvent.hold, if_pos rfl]
      exact (h.holds slot).silence hused
    · refine h.distinct.keep fun i => ?_
      by_cases hslot : CacheSlot.operation i = slot
      · rw [← hslot]
        simp [TrackerCache.withEntry, entry]
      · have hkept := hothers _ hslot
        exact ⟨congrArg EventCache.used hkept, congrArg EventCache.event hkept⟩
  · rw [hstate, hlog, List.append_nil]
    exact h

theorem commit (h : Entries trace c) (sub : Subscription) (out : Delivery) :
    Entries trace (c.commitRest sub out) := by
  unfold commitRest
  simp only []
  split
  case isFalse => exact h
  case isTrue =>
    set slot : CacheSlot := .rest (out.event.kind == kindFusionRest) with hslot
    refine ⟨fun other => ?_, h.distinct.keep fun i => ⟨rfl, rfl⟩, h.lawful⟩
    by_cases hother : other = slot
    · have hholds := h.holds slot
      rw [hother, withEntry_entry_self]
      cases hheld : held slot trace with
      | none =>
        rw [hheld] at hholds
        cases hholds with
        | free hfree => exact .free hfree
      | some content =>
        rw [hheld] at hholds
        cases hholds with
        | holding _ hused hevent horder hlast hstale hterminal =>
          exact .holding _ hused hevent horder hlast hstale hterminal
    · rw [withEntry_entry_of_ne _ hother]
      exact h.holds other

end Entries

/-- **The cache of a tracker agrees with its history**, at the end of every run. -/
theorem entries_of_run {trace : List CacheEvent} {c : TrackerCache}
    (h : cacheSystem.Run trace c) : Entries trace c := by
  refine h.history_invariant (P := Entries) .start fun trace c op c' log hc _ hstep => ?_
  cases op with
  | receive sub generation rx =>
    obtain ⟨-, out, hrel⟩ := cacheStep_receive hstep
    cases hrel with
    | unpaired =>
      rw [List.append_nil]
      exact hc
    | retired => exact hc.resetPairing generation
    | session _ _ hsession =>
      rw [← List.append_assoc]
      exact (hc.resetPairing generation).session hsession
    | change _ _ _ hsession =>
      rw [← List.append_assoc, ← List.append_assoc]
      exact ((hc.resetPairing generation).enterSession rx).session hsession
  | cleanup generation =>
    obtain ⟨rfl, rfl⟩ := Prod.mk.inj (Option.some.inj hstep)
    exact hc.resetPairing generation
  | silence sub generation tracker now slot =>
    obtain ⟨rfl, rfl⟩ := Prod.mk.inj (Option.some.inj hstep)
    exact hc.silence sub generation tracker now slot
  | commit sub out =>
    obtain ⟨rfl, rfl⟩ := Prod.mk.inj (Option.some.inj hstep)
    rw [List.append_nil]
    exact hc.commit sub out

end SlimeReceiver.Events
