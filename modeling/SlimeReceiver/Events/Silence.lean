import SlimeReceiver.Events.Entries
import SlimeReceiver.Events.Sessions
import SlimeReceiver.Events.Service

/-! # Reports of silence

* **`trackerProjection`** — the cache of a tracker as a component of the service, and
  `cacheHistory`, its history.
* **`clock_le_uptime`** — the uptime `tracker_events_process` was given is in the past.
* **`FreshlyExamined`** — no entry is examined that was refreshed after that uptime was read.
* **`no_false_silence`** — then entries are reported as silent only after their timeout. -/

namespace SlimeReceiver.Events

open TrackerCache

/-! ## The cache of a tracker -/

/-- What an event says about the cache of a tracker. -/
def ServiceEvent.cacheOf (tracker : BitVec 8) : ServiceEvent → Option CacheEvent
  | .cache other _ e => if other = tracker then some e else none
  | _ => none

/-- The history of the cache of a tracker. -/
def cacheHistory (tracker : BitVec 8) (trace : List ServiceEvent) : List CacheEvent :=
  trace.filterMap (ServiceEvent.cacheOf tracker)

section Projection

variable {tracker : BitVec 8}

theorem filterMap_cache_self (time : ℕ) (log : List CacheEvent) :
    (log.map (ServiceEvent.cache tracker time)).filterMap (ServiceEvent.cacheOf tracker) = log := by
  induction log with
  | nil => rfl
  | cons e log ih =>
    have he : ServiceEvent.cacheOf tracker (.cache tracker time e) = some e := if_pos rfl
    rw [List.map_cons, List.filterMap_cons_some he, ih]

theorem filterMap_cache_of_ne {other : BitVec 8} (h : other ≠ tracker) (time : ℕ)
    (log : List CacheEvent) :
    (log.map (ServiceEvent.cache other time)).filterMap (ServiceEvent.cacheOf tracker) = [] := by
  rw [List.filterMap_eq_nil_iff]
  intro e he
  obtain ⟨e', -, rfl⟩ := List.mem_map.mp he
  exact if_neg h

/-- A critical section on the cache of one tracker. -/
theorem projection_step {s s' : Service} {other : BitVec 8} (op : CacheOp) {c : TrackerCache}
    {log : List CacheEvent} {es : List ServiceEvent}
    (hstep : cacheStep (s.trackers other) op = some (c, log))
    (hstate : s'.trackers = Function.update s.trackers other c)
    (hself : other = tracker → es.filterMap (ServiceEvent.cacheOf tracker) = log)
    (hothers : other ≠ tracker → es.filterMap (ServiceEvent.cacheOf tracker) = []) :
    (s'.trackers tracker = s.trackers tracker ∧ es.filterMap (ServiceEvent.cacheOf tracker) = []) ∨
      ∃ op', cacheStep (s.trackers tracker) op' =
        some (s'.trackers tracker, es.filterMap (ServiceEvent.cacheOf tracker)) := by
  by_cases h : other = tracker
  · subst h
    refine .inr ⟨op, ?_⟩
    rw [hstate, Function.update_self, hself rfl]
    exact hstep
  · left
    rw [hstate, Function.update_of_ne (Ne.symm h)]
    exact ⟨rfl, hothers h⟩

theorem receive_trackers (packet : List (BitVec 8)) (now : ℕ) (s : Service) :
    (s.receive packet now).trackers = s.trackers := by
  unfold Service.receive
  split
  · rfl
  · split <;> rfl

theorem examinedEvents_cacheOf (other : BitVec 8) (slot : CacheSlot) (now : ℕ) (s : Service) :
    (s.examinedEvents other slot now).filterMap (ServiceEvent.cacheOf tracker) = [] := by
  unfold Service.examinedEvents
  split <;> rfl

/-- What the owner does to the cache of a tracker. -/
theorem ownerStep_projection (s : Service) :
    (s.ownerStep.1.trackers tracker = s.trackers tracker ∧
      s.ownerStep.2.filterMap (ServiceEvent.cacheOf tracker) = []) ∨
    ∃ op, cacheStep (s.trackers tracker) op =
      some (s.ownerStep.1.trackers tracker, s.ownerStep.2.filterMap (ServiceEvent.cacheOf tracker)) := by
  unfold Service.ownerStep
  split
  case h_1 => exact .inl ⟨rfl, rfl⟩
  case h_2 =>
    split
    · exact .inl ⟨rfl, rfl⟩
    · split <;> exact .inl ⟨rfl, rfl⟩
  case h_3 now i rx hvalid howner =>
    exact projection_step (.receive s.subscription (s.pairingGenerations rx.event.trackerId) rx)
      (if_pos hvalid) rfl (fun h => h ▸ filterMap_cache_self _ _) fun h => filterMap_cache_of_ne h _ _
  case h_4 => exact .inl ⟨rfl, rfl⟩
  case h_5 now other slot rest howner =>
    refine projection_step
      (.silence s.subscription (s.pairingGenerations other) other (stamp now) slot) rfl rfl
      (fun h => ?_) fun h => ?_
    · rw [List.filterMap_append, examinedEvents_cacheOf, List.nil_append, h]
      exact filterMap_cache_self _ _
    · rw [List.filterMap_append, examinedEvents_cacheOf, List.nil_append]
      exact filterMap_cache_of_ne h _ _
  case h_6 stage out rest next howner =>
    unfold Service.deliverStep
    split
    · split <;> exact .inl ⟨rfl, rfl⟩
    · split <;> exact .inl ⟨rfl, rfl⟩
    · split <;> exact .inl ⟨rfl, rfl⟩
    · exact .inl ⟨rfl, rfl⟩
    · exact projection_step (.commit s.subscription out) rfl rfl (fun _ => rfl) fun _ => rfl

/-- What the sender does to it: nothing. -/
theorem senderStep_projection {s s' : Service} {es : List ServiceEvent}
    (h : s.senderStep = some (s', es)) : s'.trackers tracker = s.trackers tracker ∧
      es.filterMap (ServiceEvent.cacheOf tracker) = [] := by
  unfold Service.senderStep at h
  split at h
  case h_3 =>
    split at h
    all_goals
      obtain ⟨rfl, rfl⟩ := Prod.mk.inj (Option.some.inj h)
      exact ⟨rfl, rfl⟩
  case h_4 => cases h
  all_goals
    obtain ⟨rfl, rfl⟩ := Prod.mk.inj (Option.some.inj h)
    exact ⟨rfl, rfl⟩

theorem submit_projection {s s' : Service} {accepted : Bool} {es : List ServiceEvent}
    (h : s.submit accepted = some (s', es)) : s'.trackers tracker = s.trackers tracker ∧
      es.filterMap (ServiceEvent.cacheOf tracker) = [] := by
  unfold Service.submit at h
  split at h
  case h_2 => cases h
  case h_1 =>
    split at h
    all_goals
      obtain ⟨rfl, rfl⟩ := Prod.mk.inj (Option.some.inj h)
      exact ⟨rfl, rfl⟩

theorem controlEvents_cacheOf (action : BitVec 8) (now : ℕ) :
    (Service.controlEvents action now).filterMap (ServiceEvent.cacheOf tracker) = [] := by
  unfold Service.controlEvents
  split <;> split <;> rfl

variable (tracker) in
/-- The cache of a tracker is a component of the service. -/
def trackerProjection : EventSystem.Projection serviceSystem cacheSystem where
  state s := s.trackers tracker
  event := ServiceEvent.cacheOf tracker
  init := rfl
  step s op s' es hstep := by
    have htaken : s.step op = some (s', es) := hstep
    cases op with
    | tick ms =>
      obtain ⟨rfl, rfl⟩ := Prod.mk.inj (Option.some.inj htaken)
      exact .inl ⟨rfl, rfl⟩
    | receive packet now =>
      simp only [Service.step] at htaken
      split at htaken
      case isTrue =>
        obtain ⟨rfl, rfl⟩ := Prod.mk.inj (Option.some.inj htaken)
        exact .inl ⟨congrFun (receive_trackers packet now s) tracker, rfl⟩
      case isFalse => cases htaken
    | control args generation now =>
      simp only [Service.step] at htaken
      split at htaken
      case isTrue =>
        split at htaken
        case h_1 =>
          obtain ⟨rfl, rfl⟩ := Prod.mk.inj (Option.some.inj htaken)
          exact .inl ⟨rfl, rfl⟩
        case h_2 =>
          obtain ⟨rfl, rfl⟩ := Prod.mk.inj (Option.some.inj htaken)
          exact .inl ⟨rfl, controlEvents_cacheOf _ _⟩
      case isFalse => cases htaken
    | usbReset =>
      obtain ⟨rfl, rfl⟩ := Prod.mk.inj (Option.some.inj htaken)
      exact .inl ⟨rfl, rfl⟩
    | pairingInvalidate mask =>
      obtain ⟨rfl, rfl⟩ := Prod.mk.inj (Option.some.inj htaken)
      exact .inl ⟨rfl, rfl⟩
    | pairingCleanup other =>
      obtain ⟨rfl, rfl⟩ := Prod.mk.inj (Option.some.inj htaken)
      exact projection_step (.cleanup (s.pairingGenerations other)) rfl rfl
        (fun h => h ▸ filterMap_cache_self _ _) fun h => filterMap_cache_of_ne h _ _
    | owner =>
      obtain ⟨rfl, rfl⟩ := Prod.mk.inj (Option.some.inj htaken)
      exact ownerStep_projection s
    | claim priority =>
      obtain ⟨fifo, -, hs⟩ := Option.map_eq_some_iff.mp htaken
      obtain ⟨rfl, rfl⟩ := Prod.mk.inj hs
      exact .inl ⟨rfl, rfl⟩
    | publish ticket data =>
      simp only [Service.step] at htaken
      split at htaken
      case isTrue =>
        obtain ⟨rfl, rfl⟩ := Prod.mk.inj (Option.some.inj htaken)
        exact .inl ⟨rfl, rfl⟩
      case isFalse => cases htaken
    | sender => exact .inl (senderStep_projection htaken)
    | submit accepted => exact .inl (submit_projection htaken)

end Projection

/-- A run of the service is one of the cache of each tracker. -/
theorem cache_run {trace : List ServiceEvent} {s : Service} (h : serviceSystem.Run trace s)
    (tracker : BitVec 8) : cacheSystem.Run (cacheHistory tracker trace) (s.trackers tracker) :=
  (trackerProjection tracker).run h

/-! ## The uptime of a call -/

/-- The uptime a continuation was given. -/
def Continuation.clock : Continuation → ℕ
  | .drain now _ | .check now _ => now

/-- The uptime `tracker_events_process` was given. -/
def Owner.clock : Owner → ℕ
  | .idle => 0
  | .draining now _ | .processing now _ _ | .checking now _ => now
  | .delivering _ _ _ next => next.clock

theorem clock_deliverAll (rest : List Delivery) (next : Continuation) :
    (Owner.deliverAll rest next).clock = next.clock := by
  cases rest with
  | nil => cases next <;> rfl
  | cons => rfl

/-- Going on keeps the uptime of the call, or reads it. -/
theorem ownerStep_clock (s : Service) : s.ownerStep.1.uptime = s.uptime ∧
    (s.ownerStep.1.owner.clock ≤ s.owner.clock ∨ s.ownerStep.1.owner.clock = s.uptime) := by
  unfold Service.ownerStep
  split
  case h_1 howner => exact ⟨rfl, .inr rfl⟩
  case h_2 howner =>
    rw [howner]
    split
    · exact ⟨rfl, .inl (le_refl _)⟩
    · split <;> exact ⟨rfl, .inl (le_refl _)⟩
  case h_3 howner =>
    rw [howner]
    exact ⟨rfl, .inl (clock_deliverAll _ _).le⟩
  case h_4 => exact ⟨rfl, .inl (Nat.zero_le _)⟩
  case h_5 howner =>
    rw [howner]
    exact ⟨rfl, .inl (clock_deliverAll _ _).le⟩
  case h_6 howner =>
    rw [howner]
    unfold Service.deliverStep
    split
    · split
      · exact ⟨rfl, .inl (clock_deliverAll _ _).le⟩
      · exact ⟨rfl, .inl (le_refl _)⟩
    · split
      · exact ⟨rfl, .inl (le_refl _)⟩
      · exact ⟨rfl, .inl (clock_deliverAll _ _).le⟩
    · split
      · exact ⟨rfl, .inl (clock_deliverAll _ _).le⟩
      · exact ⟨rfl, .inl (le_refl _)⟩
    · refine ⟨rfl, .inl ?_⟩
      simp only []
      split
      · exact le_refl _
      · exact (clock_deliverAll _ _).le
    · exact ⟨rfl, .inl (clock_deliverAll _ _).le⟩

/-! ## The law -/

/-- A running operation or a current rest state is examined only if it was last refreshed by an event
received no later than the uptime `tracker_events_process` was given. -/
def FreshlyExamined (earlier : List ServiceEvent) : ServiceEvent → Prop
  | .examined tracker slot now => ∀ content, held slot (cacheHistory tracker earlier) = some content →
      content.event.isTerminal = false → content.stale = false → content.refreshed ≤ now
  | _ => True

/-- An entry is reported as silent only after its timeout. -/
def NoFalseSilence (earlier : List ServiceEvent) : ServiceEvent → Prop
  | .cache tracker time (.silenced slot _) => ∃ content,
      held slot (cacheHistory tracker earlier) = some content ∧
        content.refreshed + slot.timeout ≤ time
  | _ => True

/-- The event is a report of silence. -/
def CacheEvent.isSilence : CacheEvent → Bool
  | .silenced .. => true
  | _ => false

def ServiceEvent.isSilence : ServiceEvent → Bool
  | .cache _ _ e => e.isSilence
  | _ => false

theorem noFalseSilence_of_not {earlier : List ServiceEvent} {e : ServiceEvent}
    (h : e.isSilence = false) : NoFalseSilence earlier e := by
  cases e with
  | cache tracker time e =>
    cases e with
    | silenced => cases h
    | _ => trivial
  | _ => trivial

theorem pairingEvents_isSilence (generation : BitVec 32) (c : TrackerCache) :
    ∀ e ∈ c.pairingEvents generation, e.isSilence = false := by
  unfold pairingEvents
  split <;> simp [CacheEvent.isSilence]

/-- A received event is no report of silence. -/
theorem ReceiveRel.isSilence {sub : Subscription} {generation : BitVec 32} {rx : RxEvent}
    {c c' : TrackerCache} {out : List Delivery} {log : List CacheEvent}
    (h : ReceiveRel sub generation rx c c' out log) : ∀ e ∈ log, e.isSilence = false := by
  have hsession : ∀ {c c' : TrackerCache} {out log}, SessionRel rx c c' out log →
      ∀ e ∈ log, e.isSilence = false := by
    intro c c' out log hrel
    cases hrel <;> simp [CacheEvent.isSilence]
  have hchange : ∀ e ∈ (c.resetPairing generation).changeEvents rx, e.isSilence = false := by
    unfold changeEvents
    split <;> simp [CacheEvent.isSilence, or_imp, forall_and]
  cases h with
  | unpaired => simp
  | retired => exact pairingEvents_isSilence _ _
  | session _ _ hrel =>
    exact List.forall_mem_append.mpr ⟨pairingEvents_isSilence _ _, hsession hrel⟩
  | change _ _ _ hrel =>
    exact List.forall_mem_append.mpr ⟨pairingEvents_isSilence _ _,
      List.forall_mem_append.mpr ⟨hchange, hsession hrel⟩⟩

theorem controlEvents_isSilence (action : BitVec 8) (now : ℕ) :
    ∀ e ∈ Service.controlEvents action now, e.isSilence = false := by
  unfold Service.controlEvents
  split <;> split <;> simp [ServiceEvent.isSilence]

theorem map_cache_isSilence {log : List CacheEvent} (h : ∀ e ∈ log, e.isSilence = false)
    (tracker : BitVec 8) (time : ℕ) :
    ∀ e ∈ log.map (ServiceEvent.cache tracker time), e.isSilence = false := by
  intro e he
  obtain ⟨e', he', rfl⟩ := List.mem_map.mp he
  exact h e' he'

/-- The other contexts leave the owner alone and report no silence. -/
theorem step_other {s s' : Service} {op : ServiceOp} {es : List ServiceEvent}
    (h : s.step op = some (s', es)) (hop : op ≠ .owner) : s'.owner = s.owner ∧
      s.uptime ≤ s'.uptime ∧ ∀ e ∈ es, e.isSilence = false := by
  cases op with
  | tick ms =>
    obtain ⟨rfl, rfl⟩ := Prod.mk.inj (Option.some.inj h)
    exact ⟨rfl, Nat.le_add_right _ _, by simp⟩
  | receive packet now =>
    simp only [Service.step] at h
    split at h
    case isFalse => cases h
    case isTrue =>
      obtain ⟨rfl, rfl⟩ := Prod.mk.inj (Option.some.inj h)
      unfold Service.receive
      split
      · exact ⟨rfl, le_refl _, by simp⟩
      · split <;> exact ⟨rfl, le_refl _, by simp⟩
  | control args generation now =>
    simp only [Service.step] at h
    split at h
    case isFalse => cases h
    case isTrue =>
      split at h
      all_goals obtain ⟨rfl, rfl⟩ := Prod.mk.inj (Option.some.inj h)
      · exact ⟨rfl, le_refl _, by simp⟩
      · exact ⟨rfl, le_refl _, controlEvents_isSilence _ _⟩
  | usbReset =>
    obtain ⟨rfl, rfl⟩ := Prod.mk.inj (Option.some.inj h)
    exact ⟨rfl, le_refl _, by simp [ServiceEvent.isSilence]⟩
  | pairingInvalidate mask =>
    obtain ⟨rfl, rfl⟩ := Prod.mk.inj (Option.some.inj h)
    exact ⟨rfl, le_refl _, by simp [ServiceEvent.isSilence]⟩
  | pairingCleanup tracker =>
    obtain ⟨rfl, rfl⟩ := Prod.mk.inj (Option.some.inj h)
    exact ⟨rfl, le_refl _, map_cache_isSilence (pairingEvents_isSilence _ _) _ _⟩
  | owner => exact absurd rfl hop
  | claim priority =>
    obtain ⟨fifo, -, hs⟩ := Option.map_eq_some_iff.mp h
    obtain ⟨rfl, rfl⟩ := Prod.mk.inj hs
    exact ⟨rfl, le_refl _, by simp⟩
  | publish ticket data =>
    simp only [Service.step] at h
    split at h
    case isFalse => cases h
    case isTrue =>
      obtain ⟨rfl, rfl⟩ := Prod.mk.inj (Option.some.inj h)
      exact ⟨rfl, le_refl _, by simp⟩
  | sender =>
    have htaken : s.senderStep = some (s', es) := h
    unfold Service.senderStep at htaken
    split at htaken
    case h_3 =>
      split at htaken
      all_goals
        obtain ⟨rfl, rfl⟩ := Prod.mk.inj (Option.some.inj htaken)
        exact ⟨rfl, le_refl _, by simp [ServiceEvent.isSilence]⟩
    case h_4 => cases htaken
    all_goals
      obtain ⟨rfl, rfl⟩ := Prod.mk.inj (Option.some.inj htaken)
      exact ⟨rfl, le_refl _, by simp⟩
  | submit accepted =>
    have htaken : s.submit accepted = some (s', es) := h
    unfold Service.submit at htaken
    split at htaken
    case h_2 => cases htaken
    case h_1 =>
      split at htaken
      all_goals
        obtain ⟨rfl, rfl⟩ := Prod.mk.inj (Option.some.inj htaken)
        exact ⟨rfl, le_refl _, by simp [ServiceEvent.isSilence]⟩

/-- The uptime a call was given has passed. -/
theorem clock_le_uptime {trace : List ServiceEvent} {s : Service}
    (h : serviceSystem.Run trace s) : s.owner.clock ≤ s.uptime := by
  refine h.invariant (P := fun s => s.owner.clock ≤ s.uptime) (le_refl _) fun s op s' es hs _ hstep => ?_
  have htaken : s.step op = some (s', es) := hstep
  by_cases hop : op = .owner
  · subst hop
    have hgo : s.ownerStep = (s', es) := Option.some.inj htaken
    have hs' : s' = s.ownerStep.1 := congrArg Prod.fst hgo.symm
    rw [hs']
    obtain ⟨huptime, hkept | hread⟩ := ownerStep_clock s
    · rw [huptime]
      exact hkept.trans hs
    · rw [huptime, hread]
  · obtain ⟨howner, huptime, -⟩ := step_other htaken hop
    rw [howner]
    exact hs.trans huptime

/-- A check reports silence only after the timeout, if the entry was refreshed before the uptime of
the call. -/
theorem silent_after_timeout {log : List CacheEvent} {c : TrackerCache} (h : Entries log c)
    {now : ℕ} {slot : CacheSlot} (hsilent : c.silent (stamp now) slot = true)
    (hfresh : ∀ content, held slot log = some content → content.event.isTerminal = false →
      content.stale = false → content.refreshed ≤ now) :
    ∃ content, held slot log = some content ∧ content.refreshed + slot.timeout ≤ now := by
  obtain ⟨hused, hrunning, hcurrent, htimeout⟩ := used_of_silent hsilent
  obtain ⟨content, hheld, -, -, hlast, hstale, hterminal⟩ := (h.holds slot).exists_of_used hused
  have hbefore : content.refreshed ≤ now :=
    hfresh content hheld (hterminal.symm.trans hrunning) (hstale.symm.trans hcurrent)
  -- the unsigned difference is the true time, or less
  have helapsed : elapsed (stamp now) (c.entry slot).lastRx ≤ now - content.refreshed := by
    rw [hlast]
    exact elapsed_stamp_le hbefore
  exact ⟨content, hheld, by omega⟩

/-- Going on, the owner reports silence only in a check. -/
theorem ownerStep_silence (s : Service) :
    (∀ e ∈ s.ownerStep.2, e.isSilence = false) ∨
    ∃ now tracker slot rest, s.owner = .checking now ((tracker, slot) :: rest) ∧
      (s.trackers tracker).silent (stamp now) slot = true ∧ ∃ reason, s.ownerStep.2 =
        [.examined tracker slot now, .cache tracker s.uptime (.silenced slot reason)] := by
  unfold Service.ownerStep
  split
  case h_1 => exact .inl (by simp)
  case h_2 =>
    split
    · exact .inl (by simp)
    · split <;> exact .inl (by simp)
  case h_3 rx hvalid howner =>
    exact .inl (map_cache_isSilence (processRx_rel s.subscription _ rx _).isSilence _ _)
  case h_4 => exact .inl (by simp)
  case h_5 now tracker slot rest howner =>
    rcases silenceStep_cases s.subscription (s.pairingGenerations tracker) tracker (stamp now) slot
      (s.trackers tracker) with ⟨hpaired, hsilent, -, -, hlog⟩ | ⟨-, hlog, -⟩
    · refine .inr ⟨now, tracker, slot, rest, howner, hsilent,
        ((s.trackers tracker).reasonFor (stamp now) slot).1, ?_⟩
      simp only []
      rw [hlog, Service.examinedEvents, if_pos hpaired]
      rfl
    · left
      simp only []
      rw [hlog, Service.examinedEvents]
      split <;> simp [ServiceEvent.isSilence]
  case h_6 stage out rest next howner =>
    left
    unfold Service.deliverStep
    split
    · split <;> simp
    · split <;> simp [ServiceEvent.isSilence]
    · split <;> simp
    · simp [ServiceEvent.isSilence]
    · simp

/-- **No false silence.** If no running operation and no current rest state is examined that was
refreshed after the uptime of the call was read, then entries are reported as silent only when at
least their timeout has passed since they were last refreshed. -/
theorem no_false_silence {trace : List ServiceEvent} {s : Service}
    (h : serviceSystem.Run trace s) (hfresh : EachAfter FreshlyExamined trace) :
    EachAfter NoFalseSilence trace := by
  -- on the run; the entries agree with their histories all along
  induction h with
  | start => exact eachAfter_nil
  | @snoc trace s op s' es hrun _ hstep ih =>
    have hlaw := ih hfresh.of_append
    have htaken : s.step op = some (s', es) := hstep
    by_cases hop : op = .owner
    · subst hop
      have hgo : s.ownerStep = (s', es) := Option.some.inj htaken
      have hes : es = s.ownerStep.2 := congrArg Prod.snd hgo.symm
      rw [hes] at hfresh ⊢
      rcases ownerStep_silence s with hquiet | ⟨now, tracker, slot, rest, howner, hsilent, reason, hlog⟩
      · exact hlaw.append fun earlier e he => noFalseSilence_of_not (hquiet e he)
      · rw [hlog] at hfresh ⊢
        have hsplit : trace ++ [ServiceEvent.examined tracker slot now,
            .cache tracker s.uptime (.silenced slot reason)] =
            (trace ++ [ServiceEvent.examined tracker slot now]) ++
              [.cache tracker s.uptime (.silenced slot reason)] := by simp
        have hexamined : FreshlyExamined trace (.examined tracker slot now) :=
          hfresh trace (.examined tracker slot now) _ rfl
        obtain ⟨content, hheld, htimeout⟩ :=
          silent_after_timeout (entries_of_run (cache_run hrun tracker)) hsilent hexamined
        have hclock : now ≤ s.uptime := by
          have hle := clock_le_uptime hrun
          rwa [howner] at hle
        have hsame : cacheHistory tracker (trace ++ [ServiceEvent.examined tracker slot now]) =
            cacheHistory tracker trace := by
          rw [cacheHistory, List.filterMap_append]
          exact List.append_nil _
        rw [hsplit]
        refine eachAfter_snoc.mpr ⟨eachAfter_snoc.mpr ⟨hlaw, trivial⟩, content, ?_, by omega⟩
        rw [hsame]
        exact hheld
    · obtain ⟨-, -, hquiet⟩ := step_other htaken hop
      exact hlaw.append fun earlier e he => noFalseSilence_of_not (hquiet e he)

/-- The first step of an operation. -/
def firstStep : TrackerEvent where
  nonce := 1
  eventSeq := 1
  operationId := 1
  trackerId := 0
  kind := 1
  event := calEventStep
  outcome := calOutcomeNone
  phase := 1
  detail := 0

/-- A step received at 0 is reported as silent by a call at 10000. -/
theorem no_false_silence_timeout : ∃ trace s, serviceSystem.Run trace s ∧
    .cache 0 10000 (.silenced (.operation 0) calReasonTransportSilence) ∈ trace ∧
      EachAfter NoFalseSilence trace := by
  obtain ⟨trace, s, hrun, htest⟩ := serviceSystem.exists_run_of_replay
    [.receive (eventFrame firstStep) 0, .tick 10000, .owner, .owner, .owner, .owner, .owner, .owner]
    (fun trace _ => decide (trace = [.cache 0 10000 (.sessionEntered 1),
      .cache 0 10000 (.stored (.operation 0) firstStep 65536 0), .examined 0 (.operation 0) 10000,
      .cache 0 10000 (.silenced (.operation 0) calReasonTransportSilence)])) (by decide +kernel)
  have htrace := of_decide_eq_true htest
  refine ⟨trace, s, hrun, by rw [htrace]; simp, no_false_silence hrun ?_⟩
  have hexamined : FreshlyExamined [.cache 0 10000 (.sessionEntered 1),
      .cache 0 10000 (.stored (.operation 0) firstStep 65536 0)]
      (.examined 0 (.operation 0) 10000) := by
    intro content hheld _ _
    have hcontent : content = ⟨firstStep, 65536, 0, false⟩ := (Option.some.inj hheld).symm
    rw [hcontent]
    exact Nat.zero_le _
  have hcached : EachAfter FreshlyExamined [.cache 0 10000 (.sessionEntered 1),
      .cache 0 10000 (.stored (.operation 0) firstStep 65536 0)] :=
    eachAfter_nil.append fun _ e he => by
      simp only [List.mem_cons, List.not_mem_nil, or_false] at he
      rcases he with rfl | rfl <;> trivial
  have hchecked := eachAfter_snoc.mpr ⟨hcached, hexamined⟩
  have hlast : FreshlyExamined [.cache 0 10000 (.sessionEntered 1),
      .cache 0 10000 (.stored (.operation 0) firstStep 65536 0), .examined 0 (.operation 0) 10000]
      (.cache 0 10000 (.silenced (.operation 0) calReasonTransportSilence)) := trivial
  rw [htrace]
  exact eachAfter_snoc.mpr ⟨hchecked, hlast⟩

/-- **An event that arrives while the queue is drained.** `tracker_events_process(0)` takes a step
received at 1 out of the queue and reports it as silent at once. -/
theorem false_silence_of_late_event : ∃ trace s earlier content, serviceSystem.Run trace s ∧
    trace = earlier ++ [.cache 0 1 (.silenced (.operation 0) calReasonTransportSilence)] ∧
      held (.operation 0) (cacheHistory 0 earlier) = some content ∧ content.refreshed = 1 ∧
      ¬ EachAfter NoFalseSilence trace := by
  obtain ⟨trace, s, hrun, htest⟩ := serviceSystem.exists_run_of_replay
    [.owner, .tick 1, .receive (eventFrame firstStep) 1, .owner, .owner, .owner, .owner, .owner]
    (fun trace _ => decide (trace = [.cache 0 1 (.sessionEntered 1),
      .cache 0 1 (.stored (.operation 0) firstStep 65536 1), .examined 0 (.operation 0) 0,
      .cache 0 1 (.silenced (.operation 0) calReasonTransportSilence)])) (by decide +kernel)
  have htrace := of_decide_eq_true htest
  refine ⟨trace, s, [.cache 0 1 (.sessionEntered 1),
    .cache 0 1 (.stored (.operation 0) firstStep 65536 1), .examined 0 (.operation 0) 0],
    ⟨firstStep, 65536, 1, false⟩, hrun, htrace, rfl, rfl, fun hlaw => ?_⟩
  rw [htrace] at hlaw
  obtain ⟨content, hheld, htimeout⟩ := hlaw [.cache 0 1 (.sessionEntered 1),
    .cache 0 1 (.stored (.operation 0) firstStep 65536 1), .examined 0 (.operation 0) 0] _ [] rfl
  have hcontent : content = ⟨firstStep, 65536, 1, false⟩ := (Option.some.inj hheld).symm
  rw [hcontent] at htimeout
  exact absurd htimeout (by decide)

end SlimeReceiver.Events
