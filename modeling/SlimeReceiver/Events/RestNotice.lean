import SlimeReceiver.Events.Lease
import SlimeReceiver.Events.RestEntries
import SlimeReceiver.Events.Silence
import SlimeReceiver.Library.History

/-! # Notification of rest snapshots

The event service again, with another record of its steps: what `deliver` was handed for the rest
entries, and what became of it.

* **`NoticeEvent`**, **`noticeSystem`** — the system.
* **`Receipted`** — a delivery of the content of a rest entry was accepted by the FIFO.
* **`Settled`** — what an accepted delivery has brought about.
* **`Notified`** — receipts and history agree: the invariant of a run.
* **`rest_snapshot_notified`** — a snapshot is handed out until it is accepted, and then no more until
  it is renewed. -/

namespace SlimeReceiver.Events

open TrackerCache Service

/-! ## The system -/

/-- What a history records of the rest snapshots. -/
inductive NoticeEvent
  /-- The subscription generation was replaced. -/
  | retired
  /-- `tracker_events_process` was called. -/
  | called
  /-- The call returned. -/
  | returned
  /-- The call examined an entry. -/
  | visited (tracker : BitVec 8) (slot : CacheSlot)
  /-- A new rest state went into the entry. -/
  | stored (slot : RestSlot)
  /-- A heartbeat ended the staleness of the entry. -/
  | revived (slot : RestSlot)
  /-- A rest state was handed to `deliver`. -/
  | offered (out : Delivery)
  /-- It passed the check of `deliver`. -/
  | admitted (out : Delivery)
  /-- The FIFO accepted it. -/
  | accepted (out : Delivery)
  deriving DecidableEq

namespace NoticeEvent

/-- The event renews the content of a rest entry. -/
def renews (slot : RestSlot) : NoticeEvent → Bool
  | .stored other | .revived other => other == slot
  | _ => false

end NoticeEvent

/-- What an event of the history of a cache says about its rest entries. -/
def CacheEvent.renewal (tracker : BitVec 8) (c : TrackerCache) : CacheEvent → Option NoticeEvent
  | .stored (.rest fusion) _ _ _ => some (.stored (tracker, fusion))
  | .refreshed (.rest fusion) _ => if (c.rest fusion).stale then some (.revived (tracker, fusion)) else none
  | _ => none

/-- The rest states among the deliveries. -/
def offers (outs : List Delivery) : List NoticeEvent := (outs.filter commits).map NoticeEvent.offered

/-- The generation was replaced, or not. -/
def ServiceEvent.notice : ServiceEvent → Option NoticeEvent
  | .retired => some .retired
  | _ => none

namespace Service

/-- A rest entry. -/
def restAt (slot : RestSlot) (s : Service) : EventCache := (s.trackers slot.1).rest slot.2

/-- What the next piece of `tracker_events_process` does for the rest entries. -/
def ownerNotices (s : Service) : List NoticeEvent :=
  match s.owner with
  | .idle => [.called]
  | .draining _ _ => []
  | .processing _ _ ⟨rx, _⟩ =>
    let c := s.trackers rx.event.trackerId
    let generation := s.pairingGenerations rx.event.trackerId
    (c.rxEvents generation rx).filterMap (CacheEvent.renewal rx.event.trackerId c) ++
      offers (c.processRx s.subscription generation rx).2
  | .checking _ [] => [.returned]
  | .checking now ((tracker, slot) :: _) =>
    NoticeEvent.visited tracker slot :: offers (((s.trackers tracker).silenceStep s.subscription
      (s.pairingGenerations tracker) tracker (stamp now) slot).2.toList.map Prod.fst)
  | .delivering (.sampled now) out _ _ =>
    if s.subscription.hidValid (recordOf out).data out.generation (stamp now) then [.admitted out] else []
  | .delivering (.claimed _) out _ _ => [.accepted out]
  | .delivering _ _ _ _ => []

/-- What a step that reports `log` does for the rest entries. -/
def notices (s : Service) (log : List ServiceEvent) : ServiceOp → List NoticeEvent
  | .owner => log.filterMap ServiceEvent.notice ++ s.ownerNotices
  | _ => log.filterMap ServiceEvent.notice

end Service

/-- The event service, with the record of its rest snapshots. -/
def noticeSystem : EventSystem Service ServiceOp NoticeEvent where
  init := .init
  step s op := (s.step op).map fun r => (r.1, s.notices r.2 op)

/-! ## The generation -/

section Generation

variable {trace es : List NoticeEvent} {s s' : Service} {op : ServiceOp}

theorem noticeSystem_step (h : noticeSystem.step s op = some (s', es)) :
    ∃ log, s.step op = some (s', log) ∧ es = s.notices log op := by
  obtain ⟨⟨s₁, log⟩, hstep, heq⟩ := Option.map_eq_some_iff.mp h
  obtain ⟨rfl, rfl⟩ := Prod.mk.inj heq
  exact ⟨log, hstep, rfl⟩

theorem count_notice (log : List ServiceEvent) :
    (log.filterMap ServiceEvent.notice).count .retired = retirements log := by
  induction log with
  | nil => rfl
  | cons e log ih =>
    rw [retirements, List.count_cons, ← retirements, ← ih]
    cases e with
    | retired => exact List.count_cons_self
    | _ => rfl

/-- What the owner does for the rest entries replaces no generation. -/
theorem retired_not_mem_ownerNotices (s : Service) : .retired ∉ s.ownerNotices := by
  have hoffers : ∀ outs, NoticeEvent.retired ∉ offers outs := by
    intro outs h
    obtain ⟨out, -, hout⟩ := List.mem_map.mp h
    cases hout
  unfold ownerNotices
  split
  case h_3 rx _ _ =>
    simp only [List.mem_append, not_or]
    refine ⟨fun h => ?_, hoffers _⟩
    obtain ⟨e, -, he⟩ := List.mem_filterMap.mp h
    unfold CacheEvent.renewal at he
    split at he
    · cases he
    · split at he <;> cases he
    · cases he
  case h_5 => exact fun h => hoffers _ ((List.mem_cons.mp h).resolve_left (by simp))
  case h_6 => split <;> simp
  all_goals simp

/-- A run with its two records. -/
theorem exists_service_run (h : noticeSystem.Run trace s) :
    ∃ log, serviceSystem.Run log s ∧ retirements log = trace.count .retired := by
  induction h with
  | start => exact ⟨[], .start, rfl⟩
  | @snoc trace s op s' es _ _ hstep ih =>
    obtain ⟨log, hrun, hcount⟩ := ih
    obtain ⟨log', htaken, rfl⟩ := noticeSystem_step hstep
    refine ⟨log ++ log', .snoc hrun trivial htaken, ?_⟩
    have hnotices : (s.notices log' op).count .retired = retirements log' := by
      unfold notices
      split
      · rw [List.count_append, count_notice, List.count_eq_zero.mpr (retired_not_mem_ownerNotices s), Nat.add_zero]
      · exact count_notice log'
    rw [retirements_append, hcount, List.count_append, hnotices]

/-- The owner replaces no generation. -/
theorem ownerStep_notice (s : Service) : s.ownerStep.2.filterMap ServiceEvent.notice = [] := by
  have hcache : ∀ (tracker : BitVec 8) (time : ℕ) (log : List CacheEvent),
      (log.map (ServiceEvent.cache tracker time)).filterMap ServiceEvent.notice = [] := by
    intro tracker time log
    refine List.filterMap_eq_nil_iff.mpr fun e he => ?_
    obtain ⟨e', -, rfl⟩ := List.mem_map.mp he
    rfl
  unfold ownerStep
  split
  case h_2 =>
    split
    · rfl
    · split <;> rfl
  case h_3 => exact hcache _ _ _
  case h_5 =>
    simp only []
    rw [List.filterMap_append, hcache, examinedEvents]
    split <;> rfl
  case h_6 =>
    unfold deliverStep
    split
    · split <;> rfl
    · split <;> rfl
    · split <;> rfl
    · rfl
    · rfl
  all_goals rfl

/-- The generation of the subscription is the number of its replacements. -/
theorem generation_of_notices (h : noticeSystem.Run trace s) :
    s.subscription.subscriptionGeneration = generationAfter (trace.count .retired) := by
  obtain ⟨log, hrun, hcount⟩ := exists_service_run h
  rw [(custody_of_run hrun).generation, hcount]

end Generation

/-! ## What is known of the receipts -/

/-- A delivery of the content of the entry passed the check of `deliver` under a generation and was
accepted by the FIFO, and the entry has not been renewed since. -/
def Receipted (trace : List NoticeEvent) (slot : RestSlot) (cache : EventCache) (generation : BitVec 32) :
    Prop :=
  ∃ before out between since, trace = before ++ NoticeEvent.admitted out :: (between ++ .accepted out :: since) ∧
    out.event.restSlot = some slot ∧ out.cacheVersion = cache.version ∧ out.event = cache.event ∧
    out.generation = generation ∧ generationAfter (before.count .retired) = generation ∧
    ∀ e ∈ between ++ since, e.renews slot = false

/-- The owner has put the delivery into the FIFO and not committed its receipt yet. -/
def Owner.holds (out : Delivery) : Owner → Prop
  | .delivering .written other _ _ => other = out
  | _ => False

/-- What an accepted delivery has brought about, as long as its entry is not renewed and its generation
is not replaced: its receipt, if the entry still has a content. -/
def Settled (trace : List NoticeEvent) (s : Service) : Prop :=
  ∀ slot before out since, trace = before ++ NoticeEvent.accepted out :: since →
    out.event.restSlot = some slot → out.generation = s.subscription.subscriptionGeneration →
    .retired ∉ since → (∀ e ∈ since, e.renews slot = false) →
    (s.restAt slot).used = false ∨ (s.restAt slot).notifiedGeneration = out.generation ∨ s.owner.holds out

/-- The receipts agree with the history. -/
structure Receipts (trace : List NoticeEvent) (s : Service) : Prop where
  well : ∀ slot, RestWell slot (s.restAt slot)
  receipt : ∀ slot, (s.restAt slot).notifiedGeneration = 0 ∨
    Receipted trace slot (s.restAt slot) (s.restAt slot).notifiedGeneration
  settled : Settled trace s

/-- What a step does to a rest entry. -/
inductive EntryStep (es : List NoticeEvent) (slot : RestSlot) (cache cache' : EventCache) : Prop
  | kept (hkeeps : Keeps cache cache') (hes : ∀ e ∈ es, e.renews slot = false)
  | freed (hvacant : Vacant cache')
  | renewed (hnotified : cache'.notifiedGeneration = 0) (hwell : RestWell slot cache')
      (hes : ∃ e ∈ es, e.renews slot = true)

section Receipts

variable {trace es : List NoticeEvent} {s s' : Service} {slot : RestSlot} {cache cache' : EventCache}

/-- An event of a history that is not among the newest ones. -/
theorem split_earlier {ε : Type*} {trace es before since : List ε} {e : ε}
    (h : trace ++ es = before ++ e :: since) (he : e ∉ es) :
    ∃ between, trace = before ++ e :: between ∧ since = between ++ es := by
  rcases List.append_eq_append_iff.mp h with ⟨c, -, hes⟩ | ⟨c, htrace, htail⟩
  · exact absurd (hes ▸ List.mem_append_right c List.mem_cons_self) he
  · cases c with
    | nil => exact absurd ((show e :: since = es from htail) ▸ List.mem_cons_self) he
    | cons x c =>
      obtain ⟨rfl, rfl⟩ := List.cons.inj htail
      exact ⟨c, htrace, rfl⟩

theorem Receipted.carry {generation : BitVec 32} (h : Receipted trace slot cache generation)
    (hkeeps : Keeps cache cache') (hes : ∀ e ∈ es, e.renews slot = false) :
    Receipted (trace ++ es) slot cache' generation := by
  obtain ⟨before, out, between, since, rfl, hslot, hversion, hevent, hgeneration, hbefore, hquiet⟩ := h
  refine ⟨before, out, between, since ++ es, by simp, hslot, ?_, ?_, hgeneration, hbefore, ?_⟩
  · rw [hkeeps.version]
    exact hversion
  · rw [hkeeps.event]
    exact hevent
  · rw [← List.append_assoc]
    exact List.forall_mem_append.mpr ⟨hquiet, hes⟩

/-- A step that puts nothing into the FIFO. -/
theorem Receipts.carry (h : Receipts trace s)
    (hentries : ∀ slot, EntryStep es slot (s.restAt slot) (s'.restAt slot))
    (hgeneration : .retired ∉ es → s'.subscription.subscriptionGeneration = s.subscription.subscriptionGeneration)
    (hnone : ∀ out, .accepted out ∉ es) (hholds : ∀ out, s.owner.holds out → s'.owner.holds out) :
    Receipts (trace ++ es) s' where
  well slot := by
    cases hentries slot with
    | kept hkeeps => exact hkeeps.restWell (h.well slot)
    | freed hvacant => exact hvacant.restWell slot
    | renewed _ hwell => exact hwell
  receipt slot := by
    cases hentries slot with
    | kept hkeeps hes =>
      rw [hkeeps.notified]
      exact (h.receipt slot).imp_right fun hreceipted => hreceipted.carry hkeeps hes
    | freed hvacant => exact .inl hvacant.notified
    | renewed hnotified => exact .inl hnotified
  settled := by
    intro slot before out since htrace hslot hcurrent hretired hrenews
    obtain ⟨earlier, hearlier, rfl⟩ := split_earlier htrace (hnone out)
    have hkept : s'.subscription.subscriptionGeneration = s.subscription.subscriptionGeneration :=
      hgeneration fun hmem => hretired (List.mem_append_right _ hmem)
    have hbefore := h.settled slot before out earlier hearlier hslot (hcurrent.trans hkept)
      (fun hmem => hretired (List.mem_append_left _ hmem)) fun e he => hrenews e (List.mem_append_left _ he)
    cases hentries slot with
    | kept hkeeps =>
      rw [hkeeps.used, hkeeps.notified]
      exact hbefore.imp_right fun hdone => hdone.imp_right (hholds out)
    | freed hvacant => exact .inl hvacant.used
    | renewed _ _ hes =>
      obtain ⟨e, he, hrenew⟩ := hes
      rw [hrenews e (List.mem_append_right _ he)] at hrenew
      cases hrenew

/-- A delivery is put into the FIFO. -/
theorem Receipts.accept (h : Receipts trace s) {out : Delivery} (hrest : ∀ slot, s'.restAt slot = s.restAt slot)
    (hsub : s'.subscription = s.subscription) (hbefore : ∀ out, ¬s.owner.holds out)
    (hholds : ∀ slot, out.event.restSlot = some slot → s'.owner.holds out) :
    Receipts (trace ++ [NoticeEvent.accepted out]) s' where
  well slot := hrest slot ▸ h.well slot
  receipt slot := by
    rw [hrest]
    exact (h.receipt slot).imp_right fun hreceipted =>
      hreceipted.carry (.refl _) (List.forall_mem_singleton.mpr rfl)
  settled := by
    intro slot before other since htrace hslot hcurrent hretired hrenews
    rcases List.eq_nil_or_concat since with rfl | ⟨earlier, last, rfl⟩
    · obtain ⟨-, hlast⟩ := List.append_inj' htrace rfl
      obtain rfl : out = other := by simpa using hlast
      exact .inr (.inr (hholds slot hslot))
    · rw [List.concat_eq_append, ← List.cons_append, ← List.append_assoc] at htrace
      obtain ⟨hearlier, -⟩ := List.append_inj' htrace rfl
      rw [hsub] at hcurrent
      rw [List.concat_eq_append] at hretired hrenews
      have hdone := h.settled slot before other earlier hearlier hslot hcurrent
        (fun hmem => hretired (List.mem_append_left _ hmem)) fun e he => hrenews e (List.mem_append_left _ he)
      rw [hrest]
      rcases hdone with hunused | hnotified | hheld
      · exact .inl hunused
      · exact .inr (.inl hnotified)
      · exact absurd hheld (hbefore other)

end Receipts

/-! ## What is known of the owner -/

/-- The content of the entry a delivery belongs to, if it still has one, is what is delivered. -/
def Matches (s : Service) (d : Delivery) : Prop :=
  ∀ slot, d.event.restSlot = some slot → (s.restAt slot).used = true →
    (s.restAt slot).version = d.cacheVersion ∧ (s.restAt slot).event = d.event ∧ (s.restAt slot).stale = false

/-- The way of a delivery so far. -/
def StageKnows (trace : List NoticeEvent) (out : Delivery) : DeliverStage → Prop
  | .start | .sampled _ => True
  | .admitted | .claimed _ => ∃ before between, trace = before ++ NoticeEvent.admitted out :: between ∧
      generationAfter (before.count .retired) = out.generation ∧ ∀ slot, ∀ e ∈ between, e.renews slot = false
  | .written => (∃ slot, out.event.restSlot = some slot) ∧ ∃ before between since,
      trace = before ++ NoticeEvent.admitted out :: (between ++ .accepted out :: since) ∧
      generationAfter (before.count .retired) = out.generation ∧
      ∀ slot, ∀ e ∈ between ++ since, e.renews slot = false

/-- What is known of the deliveries of the owner. -/
def OwnerKnows (trace : List NoticeEvent) (s : Service) : Prop :=
  match s.owner with
  | .delivering stage out rest _ => (∀ d ∈ out :: rest, Matches s d) ∧ StageKnows trace out stage
  | _ => True

theorem StageKnows.carry {trace es : List NoticeEvent} {out : Delivery} {stage : DeliverStage}
    (h : StageKnows trace out stage) (hes : ∀ slot, ∀ e ∈ es, e.renews slot = false) :
    StageKnows (trace ++ es) out stage := by
  have hway : ∀ {between : List NoticeEvent}, (∀ slot, ∀ e ∈ between, e.renews slot = false) →
      ∀ slot, ∀ e ∈ between ++ es, e.renews slot = false := fun hquiet slot =>
    List.forall_mem_append.mpr ⟨hquiet slot, hes slot⟩
  cases stage with
  | start => trivial
  | sampled => trivial
  | admitted | claimed =>
    obtain ⟨before, between, rfl, hbefore, hquiet⟩ := h
    exact ⟨before, between ++ es, by simp, hbefore, hway hquiet⟩
  | written =>
    obtain ⟨hslot, before, between, since, rfl, hbefore, hquiet⟩ := h
    refine ⟨hslot, before, between, since ++ es, by simp, hbefore, ?_⟩
    rw [← List.append_assoc]
    exact hway hquiet

/-! ### The way through the entries -/

/-- The entries the current call will examine after the deliveries. -/
def Continuation.remaining : Continuation → List (BitVec 8 × CacheSlot)
  | .drain _ _ => allChecks
  | .check _ rest => rest

/-- The entries the current call has not examined yet. -/
def Owner.remaining : Owner → List (BitVec 8 × CacheSlot)
  | .idle => []
  | .draining _ _ | .processing _ _ _ => allChecks
  | .checking _ rest => rest
  | .delivering _ _ _ next => next.remaining

/-- A call is going on. -/
def Owner.underway : Owner → Prop
  | .idle => False
  | _ => True

/-- The entries examined since the last call began. -/
def NoticeEvent.reach (entries : List (BitVec 8 × CacheSlot)) : NoticeEvent → List (BitVec 8 × CacheSlot)
  | .called => []
  | .visited tracker slot => entries ++ [(tracker, slot)]
  | _ => entries

/-- The entries the current call has examined, in this order. -/
def reached (trace : List NoticeEvent) : List (BitVec 8 × CacheSlot) := trace.foldl NoticeEvent.reach []

theorem reached_append (trace es : List NoticeEvent) :
    reached (trace ++ es) = es.foldl NoticeEvent.reach (reached trace) := List.foldl_append

@[simp] theorem remaining_deliverAll (rest : List Delivery) (next : Continuation) :
    (Owner.deliverAll rest next).remaining = next.remaining := by
  cases rest with
  | nil => cases next <;> rfl
  | cons => rfl

theorem ownerKnows_deliverAll {trace : List NoticeEvent} {s : Service} {rest : List Delivery} {next : Continuation}
    (howner : s.owner = .deliverAll rest next) (hrest : ∀ d ∈ rest, Matches s d) : OwnerKnows trace s := by
  unfold OwnerKnows
  rw [howner]
  cases rest with
  | nil => cases next <;> trivial
  | cons out rest => exact ⟨hrest, trivial⟩

/-! ## The laws -/

/-- A call examines all entries before it returns. A rest state is handed to `deliver` again, after one
of the same entry and the same generation was accepted, only if the entry was renewed in between. -/
def NoticeLaw (earlier : List NoticeEvent) : NoticeEvent → Prop
  | .returned => reached earlier = allChecks
  | .offered out => ∀ slot before told since, out.event.restSlot = some slot →
      earlier = before ++ NoticeEvent.accepted told :: since → told.event.restSlot = some slot →
      told.generation = out.generation → .retired ∉ since → ∃ e ∈ since, e.renews slot = true
  | _ => True

/-- Receipts, deliveries and calls agree with the history. -/
structure Notified (trace : List NoticeEvent) (s : Service) : Prop where
  receipts : Receipts trace s
  owner : OwnerKnows trace s
  visits : s.owner.underway → reached trace ++ s.owner.remaining = allChecks
  lawful : EachAfter NoticeLaw trace

/-! ## Steps of the owner -/

section Owner

variable {trace es : List NoticeEvent} {s s' : Service} {stage : DeliverStage} {out : Delivery}
  {rest : List Delivery} {next : Continuation}

/-- A step that changes no rest entry and puts nothing into the FIFO. -/
theorem Notified.moves (h : Notified trace s) (hrest : ∀ slot, s'.restAt slot = s.restAt slot)
    (hsub : s'.subscription = s.subscription) (hbefore : ∀ out, ¬s.owner.holds out)
    (hes : ∀ e ∈ es, (∀ slot, e.renews slot = false) ∧ ∀ out, e ≠ .accepted out)
    (howner : OwnerKnows (trace ++ es) s')
    (hvisits : s'.owner.underway → reached (trace ++ es) ++ s'.owner.remaining = allChecks)
    (hlawful : EachAfter NoticeLaw (trace ++ es)) : Notified (trace ++ es) s' where
  receipts := by
    refine h.receipts.carry (fun slot => .kept (.of_eq (hrest slot)) fun e he => (hes e he).1 slot)
      (fun _ => congrArg Subscription.subscriptionGeneration hsub) (fun out hmem => ?_) fun out hheld => ?_
    · exact (hes _ hmem).2 out rfl
    · exact absurd hheld (hbefore out)
  owner := howner
  visits := hvisits
  lawful := hlawful

theorem matches_of_rest (hrest : ∀ slot, s'.restAt slot = s.restAt slot) {d : Delivery} (h : Matches s d) :
    Matches s' d := by
  intro slot hslot
  rw [hrest]
  exact h slot hslot

/-- The deliveries the owner knows of. -/
theorem Notified.delivering (h : Notified trace s) (howner : s.owner = .delivering stage out rest next) :
    (∀ d ∈ out :: rest, Matches s d) ∧ StageKnows trace out stage ∧
      reached trace ++ next.remaining = allChecks := by
  have hknows := h.owner
  have hvisits := h.visits
  rw [OwnerKnows, howner] at hknows
  rw [howner] at hvisits
  exact ⟨hknows.1, hknows.2, hvisits trivial⟩

theorem Notified.started (h : Notified trace s) (howner : s.owner = .idle) :
    Notified (trace ++ s.ownerNotices) s.ownerStep.1 := by
  unfold ownerNotices ownerStep
  simp only [howner]
  refine h.moves (fun _ => rfl) rfl (fun out hheld => ?_) (by simp [NoticeEvent.renews]) trivial (fun _ => ?_)
    (eachAfter_snoc.mpr ⟨h.lawful, trivial⟩)
  · rw [howner] at hheld
    exact hheld
  · rw [reached_append]
    rfl

theorem Notified.drained (h : Notified trace s) {now i : ℕ} (howner : s.owner = .draining now i) :
    Notified (trace ++ s.ownerNotices) s.ownerStep.1 := by
  have hbefore : ∀ out, ¬s.owner.holds out := by
    rw [howner]
    exact fun _ => id
  have hvisits := h.visits
  rw [howner] at hvisits
  unfold ownerNotices ownerStep
  simp only [howner]
  have hquiet : ∀ e ∈ ([] : List NoticeEvent), (∀ slot, e.renews slot = false) ∧ ∀ out, e ≠ .accepted out :=
    fun e he => absurd he List.not_mem_nil
  rw [List.append_nil]
  have hgo : ∀ s' : Service, s'.trackers = s.trackers → s'.subscription = s.subscription →
      OwnerKnows trace s' → s'.owner.remaining = allChecks → Notified trace s' := by
    intro s' htrackers hsub hknows hremaining
    have hmoved : Notified (trace ++ []) s' := by
      refine h.moves (fun slot => by rw [restAt, htrackers]; rfl) hsub hbefore hquiet ?_ (fun _ => ?_) ?_
      · rwa [List.append_nil]
      · rw [hremaining, List.append_nil]
        exact hvisits trivial
      · rw [List.append_nil]
        exact h.lawful
    rwa [List.append_nil] at hmoved
  split
  · exact hgo _ rfl rfl trivial rfl
  · split
    · exact hgo _ rfl rfl trivial rfl
    · exact hgo _ rfl rfl trivial rfl

/-! ### Receptions -/

theorem restAt_of_update {tracker : BitVec 8} {c : TrackerCache}
    (h : s'.trackers = Function.update s.trackers tracker c) (slot : RestSlot) :
    (slot.1 = tracker ∧ s'.restAt slot = c.rest slot.2) ∨ (slot.1 ≠ tracker ∧ s'.restAt slot = s.restAt slot) := by
  unfold restAt
  rw [h]
  by_cases htracker : slot.1 = tracker
  · rw [htracker, Function.update_self]
    exact .inl ⟨rfl, rfl⟩
  · rw [Function.update_of_ne htracker]
    exact .inr ⟨htracker, rfl⟩

theorem renewal_iff {tracker : BitVec 8} {c : TrackerCache} {e : CacheEvent} {slot : RestSlot} :
    (∃ n, e.renewal tracker c = some n ∧ n.renews slot = true) ↔
      tracker = slot.1 ∧ e.renews slot.2 (c.rest slot.2).stale = true := by
  obtain ⟨other, fusion⟩ := slot
  cases e with
  | stored entry =>
    cases entry with
    | operation => simp [CacheEvent.renewal, CacheEvent.renews]
    | rest f => simp [CacheEvent.renewal, CacheEvent.renews, NoticeEvent.renews]
  | refreshed entry =>
    cases entry with
    | operation => simp [CacheEvent.renewal, CacheEvent.renews]
    | rest f =>
      simp only [CacheEvent.renewal, CacheEvent.renews, Bool.and_eq_true, beq_iff_eq]
      constructor
      · rintro ⟨n, hn, hrenews⟩
        split at hn
        case isFalse => cases hn
        case isTrue hstale =>
          obtain rfl := Option.some.inj hn
          obtain ⟨rfl, rfl⟩ := Prod.mk.inj (beq_iff_eq.mp hrenews)
          exact ⟨rfl, hstale, rfl⟩
      · rintro ⟨rfl, hstale, rfl⟩
        exact ⟨_, if_pos hstale, beq_self_eq_true _⟩
  | _ => simp [CacheEvent.renewal, CacheEvent.renews]

theorem renewal_shape {tracker : BitVec 8} {c : TrackerCache} {e : CacheEvent} {n : NoticeEvent}
    (h : e.renewal tracker c = some n) : ∃ slot, n = .stored slot ∨ n = .revived slot := by
  unfold CacheEvent.renewal at h
  split at h
  · exact ⟨_, .inl (Option.some.inj h).symm⟩
  · split at h
    · exact ⟨_, .inr (Option.some.inj h).symm⟩
    · cases h
  · cases h

theorem mem_offers {outs : List Delivery} {e : NoticeEvent} (h : e ∈ offers outs) :
    ∃ out ∈ outs, e = .offered out := by
  obtain ⟨out, hout, rfl⟩ := List.mem_map.mp h
  exact ⟨out, (List.mem_filter.mp hout).1, rfl⟩

/-- New events that obey the law where they stand. -/
theorem eachAfter_append {ε : Type*} {Q : List ε → ε → Prop} {trace es : List ε} (h : EachAfter Q trace)
    (hes : ∀ before e since, es = before ++ e :: since → Q (trace ++ before) e) : EachAfter Q (trace ++ es) := by
  induction es generalizing trace with
  | nil => rwa [List.append_nil]
  | cons e es ih =>
    rw [← List.singleton_append, ← List.append_assoc]
    have hfirst := hes [] e es rfl
    rw [List.append_nil] at hfirst
    refine ih (eachAfter_snoc.mpr ⟨h, hfirst⟩) fun before e' since heq => ?_
    rw [List.append_assoc, List.singleton_append]
    exact hes (e :: before) e' since (by rw [heq, List.cons_append])

/-- What a reception delivers for a rest entry is for one of its tracker. -/
theorem tracker_of_processRx {sub : Subscription} {generation : BitVec 32} {rx : RxEvent} {c : TrackerCache}
    {d : Delivery} {slot : RestSlot} (hd : d ∈ (c.processRx sub generation rx).2)
    (hslot : d.event.restSlot = some slot) : slot.1 = rx.event.trackerId := by
  obtain ⟨first, later, hout, hfirst, -, hlater⟩ := processRx_deliveries sub generation rx c
  rw [hout] at hd
  rcases List.mem_append.mp hd with hd | hd
  · rcases hfirst with rfl | rfl
    · cases hd
    · obtain ⟨entry, -, rfl⟩ := List.mem_map.mp hd
      rw [observation_restSlot] at hslot
      cases hslot
  · rw [hlater d hd] at hslot
    rw [restSlot_eq hslot]

theorem Notified.processed (h : Notified trace s) {now i : ℕ} {rx : RxEvent}
    {hvalid : trackerEventValid rx.event = true} (howner : s.owner = .processing now i ⟨rx, hvalid⟩) :
    Notified (trace ++ s.ownerNotices) s.ownerStep.1 := by
  have hvisits := h.visits
  rw [howner] at hvisits
  unfold ownerNotices ownerStep
  simp only [howner]
  set c := s.trackers rx.event.trackerId with hc
  set generation := s.pairingGenerations rx.event.trackerId
  set renewals := (c.rxEvents generation rx).filterMap (CacheEvent.renewal rx.event.trackerId c)
  set outs := (c.processRx s.subscription generation rx).2
  have hmove : ∀ fusion, RestMove (rx.event.trackerId, fusion) (c.rest fusion)
      ((c.processRx s.subscription generation rx).1.rest fusion) outs (c.rxEvents generation rx) := fun fusion =>
    processRx_rest _ _ hvalid (h.receipts.well (rx.event.trackerId, fusion))
  have hrenewal : ∀ slot : RestSlot, (∃ n ∈ renewals, n.renews slot = true) ↔
      rx.event.trackerId = slot.1 ∧ ∃ e ∈ c.rxEvents generation rx, e.renews slot.2 (c.rest slot.2).stale = true := by
    intro slot
    constructor
    · rintro ⟨n, hn, hrenews⟩
      obtain ⟨e, he, heq⟩ := List.mem_filterMap.mp hn
      obtain ⟨htracker, hrenews⟩ := renewal_iff.mp ⟨n, heq, hrenews⟩
      exact ⟨htracker, e, he, hrenews⟩
    · rintro ⟨htracker, e, he, hrenews⟩
      obtain ⟨n, heq, hrenews⟩ := renewal_iff.mpr ⟨htracker, hrenews⟩
      exact ⟨n, List.mem_filterMap.mpr ⟨e, he, heq⟩, hrenews⟩
  -- a delivery for a rest entry comes with the renewal of that entry
  have hrenewed : ∀ d ∈ outs, ∀ slot, d.event.restSlot = some slot → slot.1 = rx.event.trackerId ∧
      (∃ n ∈ renewals, n.renews slot = true) ∧
      ((c.processRx s.subscription generation rx).1.rest slot.2).version = d.cacheVersion ∧
      ((c.processRx s.subscription generation rx).1.rest slot.2).event = d.event ∧
      ((c.processRx s.subscription generation rx).1.rest slot.2).stale = false := by
    intro d hd slot hslot
    obtain ⟨other, fusion⟩ := slot
    obtain rfl : other = rx.event.trackerId := tracker_of_processRx hd hslot
    cases hmove fusion with
    | kept _ hout => exact absurd hslot (hout d hd)
    | freed _ hout => exact absurd hslot (hout d hd)
    | renewed _ hcurrent _ hout hlog =>
      obtain ⟨hversion, hevent⟩ := hout d hd hslot
      exact ⟨rfl, (hrenewal _).mpr ⟨rfl, hlog⟩, hversion, hevent, hcurrent⟩
  have hquiet : ∀ e ∈ renewals ++ offers outs, (∀ out, e ≠ .accepted out) ∧
      (∀ visits, e.reach visits = visits) ∧ e ≠ .retired := by
    intro e he
    rcases List.mem_append.mp he with he | he
    · obtain ⟨e', -, heq⟩ := List.mem_filterMap.mp he
      obtain ⟨slot, rfl | rfl⟩ := renewal_shape heq
      · exact ⟨by simp, fun _ => rfl, by simp⟩
      · exact ⟨by simp, fun _ => rfl, by simp⟩
    · obtain ⟨d, -, rfl⟩ := mem_offers he
      exact ⟨by simp, fun _ => rfl, by simp⟩
  have hstep : ∀ s' : Service, s'.trackers = Function.update s.trackers rx.event.trackerId
        (c.processRx s.subscription generation rx).1 → s'.subscription = s.subscription →
      s'.owner = .deliverAll outs (.drain now (i + 1)) → Notified (trace ++ (renewals ++ offers outs)) s' := by
    intro s' htrackers hsub howner'
    have hentry := restAt_of_update htrackers
    refine ⟨?_, ?_, fun _ => ?_, ?_⟩
    · refine h.receipts.carry (fun slot => ?_) (fun _ => congrArg Subscription.subscriptionGeneration hsub)
        (fun out hmem => (hquiet _ hmem).1 out rfl) fun out hheld => ?_
      · rcases hentry slot with ⟨htracker, hrest⟩ | ⟨htracker, hrest⟩
        · obtain ⟨other, fusion⟩ := slot
          obtain rfl : other = rx.event.trackerId := htracker
          rw [hrest]
          cases hmove fusion with
          | kept hkeeps _ hlog =>
            refine .kept hkeeps fun e he => ?_
            rcases List.mem_append.mp he with he | he
            · rw [← Bool.not_eq_true]
              intro hrenews
              obtain ⟨-, e', he', hrenews'⟩ := (hrenewal _).mp ⟨e, he, hrenews⟩
              exact absurd (hlog e' he') (by simpa using hrenews')
            · obtain ⟨d, -, rfl⟩ := mem_offers he
              rfl
          | freed hvacant => exact .freed hvacant
          | renewed hnotified _ hwell _ hlog =>
            obtain ⟨n, hn, hrenews⟩ := (hrenewal (rx.event.trackerId, fusion)).mpr ⟨rfl, hlog⟩
            exact .renewed hnotified hwell ⟨n, List.mem_append_left _ hn, hrenews⟩
        · refine .kept (.of_eq hrest) fun e he => ?_
          rcases List.mem_append.mp he with he | he
          · rw [← Bool.not_eq_true]
            exact fun hrenews => htracker ((hrenewal slot).mp ⟨e, he, hrenews⟩).1.symm
          · obtain ⟨d, -, rfl⟩ := mem_offers he
            rfl
      · rw [howner] at hheld
        exact absurd hheld id
    · refine ownerKnows_deliverAll howner' fun d hd slot hslot _ => ?_
      obtain ⟨htracker, -, hcontent⟩ := hrenewed d hd slot hslot
      rcases hentry slot with ⟨-, hrest⟩ | ⟨hne, -⟩
      · rw [hrest]
        exact hcontent
      · exact absurd htracker hne
    · rw [reached_append, foldl_eq_self fun e he => (hquiet e he).2.1, howner', remaining_deliverAll]
      exact hvisits trivial
    · refine eachAfter_append h.lawful fun before e since heq => ?_
      have he : e ∈ renewals ++ offers outs := heq ▸ List.mem_append_right _ List.mem_cons_self
      rcases List.mem_append.mp he with hrenews | hoffered
      · obtain ⟨e', -, heq'⟩ := List.mem_filterMap.mp hrenews
        obtain ⟨slot, rfl | rfl⟩ := renewal_shape heq'
        · trivial
        · trivial
      · obtain ⟨d, hd, rfl⟩ := mem_offers hoffered
        intro slot earlier told between hslot hsplit _ _ _
        obtain ⟨-, ⟨n, hn, hrenews⟩, -⟩ := hrenewed d hd slot hslot
        have hold : NoticeEvent.accepted told ∉ before := fun hmem =>
          (hquiet _ (heq ▸ List.mem_append_left _ hmem)).1 told rfl
        obtain ⟨middle, -, rfl⟩ := split_earlier hsplit hold
        -- all renewals stand before the deliveries
        have hbefore : n ∈ before := by
          rcases List.append_eq_append_iff.mp heq with ⟨c, rfl, -⟩ | ⟨c, hrenewals, htail⟩
          · exact List.mem_append_left c hn
          · cases c with
            | nil => rwa [hrenewals, List.append_nil] at hn
            | cons x c =>
              obtain ⟨rfl, -⟩ := List.cons.inj htail
              have hmem : NoticeEvent.offered d ∈ renewals := hrenewals ▸ List.mem_append_right _ List.mem_cons_self
              obtain ⟨e', -, heq'⟩ := List.mem_filterMap.mp hmem
              obtain ⟨other, hstored | hrevived⟩ := renewal_shape heq'
              · cases hstored
              · cases hrevived
        exact ⟨n, List.mem_append_right _ hbefore, hrenews⟩
  exact hstep _ rfl rfl rfl

/-! ### Checks -/

theorem Notified.returned (h : Notified trace s) {now : ℕ} (howner : s.owner = .checking now []) :
    Notified (trace ++ s.ownerNotices) s.ownerStep.1 := by
  have hvisits := h.visits
  rw [howner] at hvisits
  unfold ownerNotices ownerStep
  simp only [howner]
  refine h.moves (fun _ => rfl) rfl (fun out hheld => ?_) (by simp [NoticeEvent.renews]) trivial
    (fun hunderway => absurd hunderway id) (eachAfter_snoc.mpr ⟨h.lawful, ?_⟩)
  · rw [howner] at hheld
    exact hheld
  · have hall := hvisits trivial
    rwa [Owner.remaining, List.append_nil] at hall

theorem Notified.examined (h : Notified trace s) {now : ℕ} {tracker : BitVec 8} {entry : CacheSlot}
    {later : List (BitVec 8 × CacheSlot)} (howner : s.owner = .checking now ((tracker, entry) :: later)) :
    Notified (trace ++ s.ownerNotices) s.ownerStep.1 := by
  have hvisits := h.visits
  rw [howner] at hvisits
  have hbefore : ∀ out, ¬s.owner.holds out := by
    rw [howner]
    exact fun _ => id
  unfold ownerNotices ownerStep
  simp only [howner]
  set c := s.trackers tracker with hc
  set checked := c.silenceStep s.subscription (s.pairingGenerations tracker) tracker (stamp now) entry
    with hchecked
  set outs := checked.2.toList.map Prod.fst with houts
  -- what is delivered for a rest entry is what the entry holds
  have hsnapshot : ∀ d ∈ outs, ∀ slot, d.event.restSlot = some slot → slot.1 = tracker ∧
      d = (c.rest slot.2).snapshot s.subscription.subscriptionGeneration ∧ checked.1 = c ∧
      c.unnotified s.subscription tracker (stamp now) (.rest slot.2) = true := by
    intro d hd slot hslot
    obtain ⟨d', hd', rfl⟩ := List.mem_map.mp hd
    obtain ⟨fusion, rfl, hsnapshot, hsame, hunnotified⟩ :=
      silenceStep_snapshot (Option.mem_toList.mp hd') hslot
    have hused : (c.rest fusion).used = true := by
      simp only [unnotified, Bool.and_eq_true] at hunnotified
      exact hunnotified.1.1.1
    have hbelongs : d'.1.event.restSlot = some (tracker, fusion) := by
      rw [hsnapshot]
      exact (h.receipts.well (tracker, fusion) hused).1
    obtain rfl := Option.some.inj (hslot.symm.trans hbelongs)
    exact ⟨rfl, hsnapshot, hsame, hunnotified⟩
  have hquiet : ∀ e ∈ NoticeEvent.visited tracker entry :: offers outs,
      (∀ slot, e.renews slot = false) ∧ (∀ out, e ≠ .accepted out) := by
    intro e he
    rcases List.mem_cons.mp he with rfl | he
    · exact ⟨fun _ => rfl, by simp⟩
    · obtain ⟨d, -, rfl⟩ := mem_offers he
      exact ⟨fun _ => rfl, by simp⟩
  have hstep : ∀ s' : Service, s'.trackers = Function.update s.trackers tracker checked.1 →
      s'.subscription = s.subscription → s'.owner = .deliverAll outs (.check now later) →
      Notified (trace ++ NoticeEvent.visited tracker entry :: offers outs) s' := by
    intro s' htrackers hsub howner'
    have hentry := restAt_of_update htrackers
    refine ⟨?_, ?_, fun _ => ?_, ?_⟩
    · refine h.receipts.carry (fun slot => .kept ?_ fun e he => (hquiet e he).1 slot)
        (fun _ => congrArg Subscription.subscriptionGeneration hsub) (fun out hmem => (hquiet _ hmem).2 out rfl)
        fun out hheld => absurd hheld (hbefore out)
      rcases hentry slot with ⟨htracker, hrest⟩ | ⟨-, hrest⟩
      · obtain ⟨other, fusion⟩ := slot
        obtain rfl : other = tracker := htracker
        rw [hrest]
        exact silenceStep_rest _ _ _ _ _ _ fusion
      · exact .of_eq hrest
    · refine ownerKnows_deliverAll howner' fun d hd slot hslot _ => ?_
      obtain ⟨htracker, hsnapshot, hsame, hunnotified⟩ := hsnapshot d hd slot hslot
      simp only [unnotified, Bool.and_eq_true, Bool.not_eq_true'] at hunnotified
      rcases hentry slot with ⟨-, hrest⟩ | ⟨hne, -⟩
      · rw [hrest, hsame, hsnapshot]
        exact ⟨rfl, rfl, hunnotified.1.1.2⟩
      · exact absurd htracker hne
    · have hoffers : ∀ e ∈ offers outs, ∀ visits, e.reach visits = visits := by
        intro e he visits
        obtain ⟨d, -, rfl⟩ := mem_offers he
        rfl
      rw [reached_append, List.foldl_cons, foldl_eq_self hoffers, howner', remaining_deliverAll]
      rw [NoticeEvent.reach, Continuation.remaining, List.append_assoc, List.singleton_append]
      exact hvisits trivial
    · refine eachAfter_append h.lawful fun before e since heq => ?_
      have he : e ∈ NoticeEvent.visited tracker entry :: offers outs :=
        heq ▸ List.mem_append_right _ List.mem_cons_self
      rcases List.mem_cons.mp he with rfl | hoffered
      · trivial
      · obtain ⟨d, hd, rfl⟩ := mem_offers hoffered
        intro slot earlier told between hslot hsplit htold hsame hretired
        obtain ⟨htracker, hsnapshot, -, hunnotified⟩ := hsnapshot d hd slot hslot
        simp only [unnotified, Bool.and_eq_true, bne_iff_ne] at hunnotified
        have hold : NoticeEvent.accepted told ∉ before := fun hmem =>
          (hquiet _ (heq ▸ List.mem_append_left _ hmem)).2 told rfl
        obtain ⟨middle, hmiddle, rfl⟩ := split_earlier hsplit hold
        have hgeneration : told.generation = s.subscription.subscriptionGeneration := by
          rw [hsame, hsnapshot]
          rfl
        have hrest : s.restAt slot = c.rest slot.2 := by
          rw [restAt, htracker]
        -- otherwise the accepted delivery would have its receipt
        by_contra hnone
        push Not at hnone
        have hsettled := h.receipts.settled slot earlier told middle hmiddle htold hgeneration
          (fun hmem => hretired (List.mem_append_left _ hmem))
          fun e he => Bool.eq_false_of_not_eq_true (hnone e (List.mem_append_left _ he))
        rw [hrest] at hsettled
        rcases hsettled with hunused | hnotified | hheld
        · exact absurd (hunused.symm.trans hunnotified.1.1.1) Bool.false_ne_true
        · exact hunnotified.2 (hnotified.trans hgeneration)
        · exact hbefore told hheld
  exact hstep _ rfl rfl rfl

/-! ### Deliveries -/

/-- A step of `deliver` that changes no cache and puts nothing into the FIFO. -/
theorem Notified.onward (h : Notified trace s) (howner : s.owner = .delivering stage out rest next)
    (htrackers : s'.trackers = s.trackers) (hsub : s'.subscription = s.subscription)
    (hstage : stage ≠ .written) (hes : ∀ e ∈ es, ∃ d, e = .admitted d)
    (hnext : s'.owner = .deliverAll rest next ∨
      ∃ stage', s'.owner = .delivering stage' out rest next ∧ StageKnows (trace ++ es) out stage') :
    Notified (trace ++ es) s' := by
  obtain ⟨hmatches, -, hvisits⟩ := h.delivering howner
  have hrest : ∀ slot, s'.restAt slot = s.restAt slot := fun slot => by rw [restAt, htrackers]; rfl
  have hquiet : ∀ e ∈ es, (∀ slot, e.renews slot = false) ∧ ∀ out, e ≠ .accepted out := by
    intro e he
    obtain ⟨d, rfl⟩ := hes e he
    exact ⟨fun _ => rfl, by simp⟩
  have hreached : reached (trace ++ es) = reached trace := by
    rw [reached_append]
    refine foldl_eq_self (fun e he visits => ?_) _
    obtain ⟨d, rfl⟩ := hes e he
    rfl
  have hbefore : ∀ out, ¬s.owner.holds out := by
    rw [howner]
    cases stage with
    | written => exact absurd rfl hstage
    | _ => exact fun _ => id
  refine h.moves hrest hsub hbefore hquiet ?_ (fun _ => ?_) (h.lawful.append fun earlier e he => ?_)
  · rcases hnext with howner' | ⟨stage', howner', hknows⟩
    · exact ownerKnows_deliverAll howner' fun d hd =>
        matches_of_rest hrest (hmatches d (List.mem_cons_of_mem out hd))
    · unfold OwnerKnows
      rw [howner']
      exact ⟨fun d hd => matches_of_rest hrest (hmatches d hd), hknows⟩
  · rw [hreached]
    rcases hnext with howner' | ⟨stage', howner', -⟩
    · rw [howner', remaining_deliverAll]
      exact hvisits
    · rw [howner']
      exact hvisits
  · obtain ⟨d, rfl⟩ := hes e he
    trivial

/-- The FIFO accepts a record. -/
theorem Notified.accepts (h : Notified trace s) {ticket : ℕ}
    (howner : s.owner = .delivering (.claimed ticket) out rest next) :
    Notified (trace ++ [NoticeEvent.accepted out]) s.ownerStep.1 := by
  obtain ⟨hmatches, ⟨before, between, rfl, hbefore, hquiet⟩, hvisits⟩ := h.delivering howner
  have hfree : ∀ out, ¬s.owner.holds out := by
    rw [howner]
    exact fun _ => id
  unfold ownerStep
  simp only [howner, deliverStep]
  refine ⟨h.receipts.accept (fun _ => rfl) rfl hfree fun slot hslot => ?_, ?_, fun _ => ?_,
    eachAfter_snoc.mpr ⟨h.lawful, trivial⟩⟩
  · simp only [if_pos (commits_iff.mpr ⟨slot, hslot⟩)]
    rfl
  · by_cases hcommits : commits out = true
    · simp only [if_pos hcommits]
      refine ⟨hmatches, commits_iff.mp hcommits, before, between, [], by simp, hbefore, fun slot => ?_⟩
      rw [List.append_nil]
      exact hquiet slot
    · simp only [if_neg hcommits]
      exact ownerKnows_deliverAll rfl fun d hd => hmatches d (List.mem_cons_of_mem out hd)
  · rw [reached_append]
    split
    · exact hvisits
    · rw [remaining_deliverAll]
      exact hvisits

/-- The receipt is committed, if the content of the entry and the subscription are still the same. -/
theorem Notified.commit (h : Notified trace s) (howner : s.owner = .delivering .written out rest next) :
    Notified trace s.ownerStep.1 := by
  obtain ⟨hmatches, ⟨⟨owned, howned⟩, before, between, since, htrace, hbefore, hquiet⟩, hvisits⟩ :=
    h.delivering howner
  obtain rfl := restSlot_eq howned
  unfold ownerStep
  simp only [howner, deliverStep]
  -- the entry of the delivery gets the receipt, or nothing changes
  have hstep : ∀ s' : Service, s'.trackers = Function.update s.trackers out.event.trackerId
        ((s.trackers out.event.trackerId).commitRest s.subscription out) → s'.subscription = s.subscription →
      s'.owner = .deliverAll rest next → Notified trace s' := by
    intro s' htrackers hsub howner'
    have hentry : ∀ slot, s'.restAt slot = s.restAt slot ∨
        (out.event.restSlot = some slot ∧ (s.restAt slot).version = out.cacheVersion ∧
          out.generation = s.subscription.subscriptionGeneration ∧ (s.restAt slot).event = out.event ∧
          s'.restAt slot = { s.restAt slot with notifiedGeneration := out.generation }) := by
      intro slot
      rcases restAt_of_update htrackers slot with ⟨htracker, hrest⟩ | ⟨-, hrest⟩
      · obtain ⟨other, fusion⟩ := slot
        obtain rfl : other = out.event.trackerId := htracker
        rw [hrest]
        rcases commitRest_rest s.subscription out (s.trackers out.event.trackerId) fusion with hsame |
          ⟨hfusion, hversion, hgeneration, hevent, hcommit⟩
        · exact .inl hsame
        · exact .inr ⟨by rw [hfusion]; exact howned, hversion, hgeneration, hevent, hcommit⟩
      · exact .inl hrest
    have hfields : ∀ slot, (s'.restAt slot).used = (s.restAt slot).used ∧
        (s'.restAt slot).version = (s.restAt slot).version ∧ (s'.restAt slot).event = (s.restAt slot).event ∧
        (s'.restAt slot).stale = (s.restAt slot).stale ∧ (s'.restAt slot).terminal = (s.restAt slot).terminal := by
      intro slot
      rcases hentry slot with hrest | ⟨-, -, -, -, hrest⟩
      · rw [hrest]
        exact ⟨rfl, rfl, rfl, rfl, rfl⟩
      · rw [hrest]
        exact ⟨rfl, rfl, rfl, rfl, rfl⟩
    refine ⟨⟨fun slot hused => ?_, fun slot => ?_, ?_⟩, ?_, fun _ => ?_, h.lawful⟩
    · obtain ⟨husedEq, -, heventEq, -, hterminalEq⟩ := hfields slot
      rw [heventEq, hterminalEq]
      exact h.receipts.well slot (husedEq ▸ hused)
    · rcases hentry slot with hrest | ⟨hslot, hversion, -, hevent, hrest⟩
      · rw [hrest]
        exact h.receipts.receipt slot
      · rw [hrest]
        exact .inr ⟨before, out, between, since, htrace, hslot, hversion.symm, hevent.symm, rfl, hbefore, hquiet slot⟩
    · intro slot earlier told later hsplit hslot hcurrent hretired hrenews
      rw [hsub] at hcurrent
      obtain ⟨husedEq, -⟩ := hfields slot
      rw [husedEq]
      rcases h.receipts.settled slot earlier told later hsplit hslot hcurrent hretired hrenews with
        hunused | hnotified | hheld
      · exact .inl hunused
      · rcases hentry slot with hrest | ⟨-, -, hgeneration, -, hrest⟩
        · rw [hrest]
          exact .inr (.inl hnotified)
        · rw [hrest]
          exact .inr (.inl (hgeneration.trans hcurrent.symm))
      · rw [howner] at hheld
        obtain rfl : out = told := hheld
        cases hused : (s.restAt slot).used with
        | false => exact .inl rfl
        | true =>
          obtain ⟨hversion, hevent, hstale⟩ := hmatches out List.mem_cons_self slot hslot hused
          obtain rfl := restSlot_eq hslot
          right; left
          rcases restAt_of_update htrackers (out.event.trackerId, out.event.kind == kindFusionRest) with
            ⟨-, hrest⟩ | ⟨hne, -⟩
          · rw [hrest]
            exact commitRest_current hused hstale hversion hcurrent hevent rfl
          · exact absurd rfl hne
    · refine ownerKnows_deliverAll howner' fun d hd slot hslot hused => ?_
      obtain ⟨husedEq, hversionEq, heventEq, hstaleEq, -⟩ := hfields slot
      rw [hversionEq, heventEq, hstaleEq]
      exact hmatches d (List.mem_cons_of_mem out hd) slot hslot (husedEq ▸ hused)
    · rw [howner', remaining_deliverAll]
      exact hvisits
  exact hstep _ rfl rfl rfl

/-- The next piece of `deliver`. -/
theorem Notified.delivered (h : Notified trace s)
    (hgeneration : s.subscription.subscriptionGeneration = generationAfter (trace.count .retired))
    (howner : s.owner = .delivering stage out rest next) :
    Notified (trace ++ s.ownerNotices) s.ownerStep.1 := by
  have hnone : ∀ e ∈ ([] : List NoticeEvent), ∃ d, e = .admitted d := fun e he => absurd he List.not_mem_nil
  cases stage with
  | start =>
    unfold ownerNotices ownerStep
    simp only [howner, deliverStep]
    split
    · exact h.onward howner rfl rfl (by simp) hnone (.inl rfl)
    · exact h.onward howner rfl rfl (by simp) hnone (.inr ⟨_, rfl, trivial⟩)
  | sampled now =>
    unfold ownerNotices ownerStep
    simp only [howner, deliverStep]
    split
    case isTrue hvalid =>
      obtain ⟨hsame, -⟩ := hidValid_iff hvalid
      refine h.onward howner rfl rfl (by simp) (by simp) (.inr ⟨.admitted, rfl, trace, [], rfl, ?_, by simp⟩)
      exact hgeneration.symm.trans hsame.symm
    case isFalse => exact h.onward howner rfl rfl (by simp) hnone (.inl rfl)
  | admitted =>
    obtain ⟨-, hknows, -⟩ := h.delivering howner
    have hclaimed : StageKnows (trace ++ []) out (.claimed s.fifo.writePos) := by
      rw [List.append_nil]
      exact hknows
    unfold ownerNotices ownerStep
    simp only [howner, deliverStep]
    split
    · exact h.onward howner rfl rfl (by simp) hnone (.inl rfl)
    · exact h.onward howner rfl rfl (by simp) hnone
        (.inr ⟨.claimed _, rfl, hclaimed⟩)
  | claimed ticket =>
    have hnotices : s.ownerNotices = [.accepted out] := by
      unfold ownerNotices
      rw [howner]
    rw [hnotices]
    exact h.accepts howner
  | written =>
    have hnotices : s.ownerNotices = [] := by
      unfold ownerNotices
      rw [howner]
    rw [hnotices, List.append_nil]
    exact h.commit howner

/-- The owner goes on. -/
theorem Notified.owner_goes_on (h : Notified trace s)
    (hgeneration : s.subscription.subscriptionGeneration = generationAfter (trace.count .retired)) :
    Notified (trace ++ s.ownerNotices) s.ownerStep.1 := by
  cases howner : s.owner with
  | idle => exact h.started howner
  | draining => exact h.drained howner
  | processing now i received =>
    obtain ⟨rx, hvalid⟩ := received
    exact h.processed howner
  | checking now entries =>
    cases entries with
    | nil => exact h.returned howner
    | cons entry later => exact h.examined howner
  | delivering => exact h.delivered hgeneration howner

end Owner

/-! ## Steps of the other contexts -/

section Others

variable {trace es : List NoticeEvent} {s s' : Service} {op : ServiceOp} {log : List ServiceEvent}

/-- The other contexts leave a rest entry alone or clear it for another pairing. -/
theorem restAt_other (hstep : s.step op = some (s', log)) (hop : op ≠ .owner) (slot : RestSlot) :
    s'.restAt slot = s.restAt slot ∨ s'.restAt slot = .zero := by
  have hkept : s'.trackers slot.1 = s.trackers slot.1 → s'.restAt slot = s.restAt slot := by
    intro htrackers
    rw [restAt, htrackers]
    rfl
  cases op with
  | tick ms =>
    obtain ⟨rfl, -⟩ := Prod.mk.inj (Option.some.inj hstep)
    exact .inl rfl
  | receive packet now =>
    simp only [Service.step] at hstep
    split at hstep
    case isTrue =>
      obtain ⟨rfl, -⟩ := Prod.mk.inj (Option.some.inj hstep)
      exact .inl (hkept (congrFun (receive_trackers packet now s) slot.1))
    case isFalse => cases hstep
  | control args generation now =>
    simp only [Service.step] at hstep
    split at hstep
    case isTrue =>
      split at hstep
      all_goals
        obtain ⟨rfl, -⟩ := Prod.mk.inj (Option.some.inj hstep)
        exact .inl rfl
    case isFalse => cases hstep
  | usbReset =>
    obtain ⟨rfl, -⟩ := Prod.mk.inj (Option.some.inj hstep)
    exact .inl rfl
  | pairingInvalidate mask =>
    obtain ⟨rfl, -⟩ := Prod.mk.inj (Option.some.inj hstep)
    exact .inl rfl
  | pairingCleanup tracker =>
    obtain ⟨rfl, -⟩ := Prod.mk.inj (Option.some.inj hstep)
    have hupdate : (s.withTracker tracker ((s.trackers tracker).resetPairing
      (s.pairingGenerations tracker))).trackers = Function.update s.trackers tracker _ := rfl
    rcases restAt_of_update hupdate slot with ⟨htracker, hrest⟩ | ⟨-, hrest⟩
    · rw [hrest, restAt, htracker]
      rcases resetPairing_rest (s.pairingGenerations tracker) (s.trackers tracker) slot.2 with
        hsame | hzero
      · exact .inl (congrArg (fun c => c.rest slot.2) hsame)
      · exact .inr hzero
    · exact .inl hrest
  | owner => exact absurd rfl hop
  | claim priority =>
    obtain ⟨fifo, -, hs⟩ := Option.map_eq_some_iff.mp hstep
    obtain ⟨rfl, -⟩ := Prod.mk.inj hs
    exact .inl rfl
  | publish ticket data =>
    simp only [Service.step] at hstep
    split at hstep
    case isTrue =>
      obtain ⟨rfl, -⟩ := Prod.mk.inj (Option.some.inj hstep)
      exact .inl rfl
    case isFalse => cases hstep
  | sender => exact .inl (hkept (senderStep_projection hstep).1)
  | submit accepted => exact .inl (hkept (submit_projection hstep).1)

/-- What a context other than the owner does is known not to matter, or clears entries. -/
theorem Notified.aside (h : Notified trace s) (howner : s'.owner = s.owner)
    (hrest : ∀ slot, s'.restAt slot = s.restAt slot ∨ s'.restAt slot = .zero)
    (hgeneration : .retired ∉ es → s'.subscription.subscriptionGeneration = s.subscription.subscriptionGeneration)
    (hes : ∀ e ∈ es, e = .retired) : Notified (trace ++ es) s' where
  receipts := by
    refine h.receipts.carry (fun slot => ?_) hgeneration (fun out hmem => ?_) fun out hheld => howner ▸ hheld
    · rcases hrest slot with hsame | hzero
      · refine .kept (.of_eq hsame) fun e he => ?_
        rw [hes e he]
        rfl
      · rw [hzero]
        exact .freed vacant_zero
    · cases hes _ hmem
  owner := by
    have hknows := h.owner
    unfold OwnerKnows at hknows ⊢
    rw [howner]
    cases hplace : s.owner with
    | delivering stage out rest next =>
      rw [hplace] at hknows
      refine ⟨fun d hd slot hslot hused => ?_, hknows.2.carry fun slot e he => ?_⟩
      · rcases hrest slot with hsame | hzero
        · rw [hsame] at hused ⊢
          exact hknows.1 d hd slot hslot hused
        · rw [hzero] at hused
          cases hused
      · rw [hes e he]
        rfl
    | _ => trivial
  visits hunderway := by
    have hreached : reached (trace ++ es) = reached trace := by
      rw [reached_append]
      refine foldl_eq_self (fun e he visits => ?_) _
      rw [hes e he]
      rfl
    rw [hreached, howner]
    exact h.visits (howner ▸ hunderway)
  lawful := h.lawful.append fun earlier e he => by
    rw [hes e he]
    trivial

end Others

/-! ## Runs -/

section Runs

variable {trace : List NoticeEvent} {s : Service}

theorem Notified.init : Notified [] Service.init where
  receipts := by
    refine ⟨fun slot hused => ?_, fun slot => .inl rfl, fun slot before out since htrace => ?_⟩
    · cases hused
    · exact absurd htrace.symm (by simp)
  owner := trivial
  visits hunderway := absurd hunderway id
  lawful := eachAfter_nil

/-- Receipts and history agree at the end of every run. -/
theorem notified_of_run (h : noticeSystem.Run trace s) : Notified trace s := by
  -- on the run; the generation at both ends of a step is read off the history
  induction h with
  | start => exact .init
  | @snoc trace s op s' es hrun hok hstep ih =>
    obtain ⟨log, htaken, rfl⟩ := noticeSystem_step hstep
    have hgeneration := generation_of_notices hrun
    have hgeneration' := generation_of_notices (hrun.snoc hok hstep)
    by_cases hop : op = .owner
    · subst hop
      have hgo : s.ownerStep = (s', log) := Option.some.inj htaken
      have hs' : s' = s.ownerStep.1 := congrArg Prod.fst hgo.symm
      have hlog : log = s.ownerStep.2 := congrArg Prod.snd hgo.symm
      rw [notices, hlog, ownerStep_notice, List.nil_append, hs']
      exact ih.owner_goes_on hgeneration
    · obtain ⟨howner, -, -⟩ := step_other htaken hop
      have hnotices : s.notices log op = log.filterMap ServiceEvent.notice := by
        cases op with
        | owner => exact absurd rfl hop
        | _ => rfl
      rw [hnotices] at hgeneration' ⊢
      refine ih.aside howner (restAt_other htaken hop) (fun hretired => ?_) fun e he => ?_
      · rw [hgeneration', hgeneration, List.count_append, List.count_eq_zero.mpr hretired, Nat.add_zero]
      · obtain ⟨e', -, he'⟩ := List.mem_filterMap.mp he
        cases e' with
        | retired => exact (Option.some.inj he').symm
        | _ => cases he'

/-- A delivery of the content of a rest entry was accepted by the FIFO under the current generation:
since it passed the check of `deliver` the entry has not been renewed, and the generation has not been
replaced, or gone through full cycles of its `2 ^ 32 - 1` values. -/
def Told (trace : List NoticeEvent) (slot : RestSlot) (s : Service) : Prop :=
  ∃ before out between since, trace = before ++ NoticeEvent.admitted out :: (between ++ .accepted out :: since) ∧
    out.event.restSlot = some slot ∧ out.cacheVersion = (s.restAt slot).version ∧
    out.event = (s.restAt slot).event ∧ out.generation = s.subscription.subscriptionGeneration ∧
    (∀ e ∈ between ++ since, e.renews slot = false) ∧ 2 ^ 32 - 1 ∣ (between ++ since).count .retired

/-- A current rest snapshot that the subscription asks for. -/
structure Due (now : ℕ) (slot : RestSlot) (s : Service) : Prop where
  paired : (s.trackers slot.1).pairingGeneration = s.pairingGenerations slot.1
  used : (s.restAt slot).used = true
  current : (s.restAt slot).stale = false
  heard : elapsed (stamp now) (s.restAt slot).lastRx < restStaleMs
  asked : s.subscription.matchesRecord slot.1 (s.restAt slot).event.kind (stamp now) = true

theorem Due.silent {now : ℕ} {slot : RestSlot} (h : Due now slot s) :
    (s.trackers slot.1).silent (stamp now) (.rest slot.2) = false := by
  have hheard : decide (restStaleMs ≤ elapsed (stamp now) (s.restAt slot).lastRx) = false :=
    decide_eq_false (not_le.mpr h.heard)
  show (_ && _ && _ && decide (restStaleMs ≤ elapsed (stamp now) (s.restAt slot).lastRx)) = false
  rw [hheard, Bool.and_false]

theorem Due.unnotified {now : ℕ} {slot : RestSlot} (h : Due now slot s)
    (hnot : (s.restAt slot).notifiedGeneration ≠ s.subscription.subscriptionGeneration) :
    (s.trackers slot.1).unnotified s.subscription slot.1 (stamp now) (.rest slot.2) = true := by
  show ((s.restAt slot).used && !(s.restAt slot).stale &&
    s.subscription.matchesRecord slot.1 (s.restAt slot).event.kind (stamp now) &&
    (s.restAt slot).notifiedGeneration != s.subscription.subscriptionGeneration) = true
  rw [h.used, h.current, h.asked, bne_iff_ne.mpr hnot]
  rfl

/-- A receipt for the current generation tells of an accepted delivery. -/
theorem told_of_receipt (h : noticeSystem.Run trace s) {slot : RestSlot}
    (hnotified : (s.restAt slot).notifiedGeneration = s.subscription.subscriptionGeneration) :
    Told trace slot s := by
  have hgeneration := generation_of_notices h
  have hpositive : s.subscription.subscriptionGeneration ≠ 0 := fun hzero => by
    have hvalue := generationAfter_toNat (trace.count .retired)
    rw [← hgeneration, hzero] at hvalue
    exact absurd hvalue (Nat.succ_ne_zero _).symm
  rcases (notified_of_run h).receipts.receipt slot with hzero | hreceipted
  · exact absurd (hnotified.symm.trans hzero) hpositive
  · obtain ⟨before, out, between, since, rfl, hslot, hversion, hevent, hsame, hbefore, hquiet⟩ := hreceipted
    refine ⟨before, out, between, since, rfl, hslot, hversion, hevent, hsame.trans hnotified, hquiet, ?_⟩
    -- the generation has come back to what it was when the delivery passed the check
    have hback := congrArg BitVec.toNat ((hbefore.trans hnotified).trans hgeneration)
    rw [generationAfter_toNat, generationAfter_toNat] at hback
    simp only [List.count_append, List.count_cons, beq_iff_eq, reduceCtorEq, if_false, Nat.add_zero] at hback ⊢
    omega

/-- **Rest snapshots.** However the contexts interleave: a call of `tracker_events_process` examines all
entries before it returns; a rest state is not handed to `deliver` again, after one of the same entry and
generation was accepted by the FIFO, unless it was stored anew or had been stale in between; a receipt
for the current generation tells of an accepted delivery of the current version; and a call that
examines the entry of a current snapshot without such a delivery hands it to `deliver`. -/
theorem rest_snapshot_notified (h : noticeSystem.Run trace s) : EachAfter NoticeLaw trace ∧
    (∀ slot, (s.restAt slot).notifiedGeneration = s.subscription.subscriptionGeneration → Told trace slot s) ∧
    ∀ now slot rest, s.owner = .checking now ((slot.1, .rest slot.2) :: rest) → Due now slot s →
      ¬Told trace slot s → ∃ s', noticeSystem.step s .owner = some (s', [.visited slot.1 (.rest slot.2),
          .offered ((s.restAt slot).snapshot s.subscription.subscriptionGeneration)]) ∧
        s'.owner = .delivering .start ((s.restAt slot).snapshot s.subscription.subscriptionGeneration) []
          (.check now rest) := by
  refine ⟨(notified_of_run h).lawful, fun slot hnotified => told_of_receipt h hnotified, ?_⟩
  intro now slot rest howner hdue hnot
  have hchecked := silenceStep_of_unnotified hdue.paired hdue.silent
    (hdue.unnotified fun hnotified => hnot (told_of_receipt h hnotified))
  have hcommits : commits ((s.restAt slot).snapshot s.subscription.subscriptionGeneration) = true :=
    commits_iff.mpr ⟨slot, ((notified_of_run h).receipts.well slot hdue.used).1⟩
  refine ⟨s.ownerStep.1, ?_, ?_⟩
  · have hnotices : s.ownerNotices = [.visited slot.1 (.rest slot.2),
        .offered ((s.restAt slot).snapshot s.subscription.subscriptionGeneration)] := by
      unfold ownerNotices
      simp only [howner]
      rw [hchecked]
      exact congrArg _ (congrArg _ (List.filter_cons_of_pos hcommits))
    show some (s.ownerStep.1, s.notices s.ownerStep.2 .owner) = _
    rw [notices, ownerStep_notice, List.nil_append, hnotices]
  · unfold ownerStep
    simp only [howner]
    rw [hchecked]
    rfl

/-! ## Concrete runs -/

/-- The owner is about to examine a rest entry. -/
def Owner.facing (now : ℕ) (slot : RestSlot) : Owner → Bool
  | .checking now' ((tracker, .rest fusion) :: _) => now' == now && (tracker, fusion) == slot
  | _ => false

theorem Owner.checking_of_facing {now : ℕ} {slot : RestSlot} {owner : Owner} (h : owner.facing now slot = true) :
    ∃ rest, owner = .checking now ((slot.1, .rest slot.2) :: rest) := by
  unfold facing at h
  split at h
  case h_2 => cases h
  case h_1 now' tracker fusion rest =>
    rw [Bool.and_eq_true, beq_iff_eq, beq_iff_eq] at h
    obtain ⟨rfl, rfl⟩ := h
    exact ⟨rest, rfl⟩

/-- Tracker 0 is at rest. -/
def atRest : TrackerEvent where
  nonce := 1
  eventSeq := 1
  operationId := 0
  trackerId := 0
  kind := kindTrackerRest
  event := calEventState
  outcome := calOutcomeNone
  phase := 1
  detail := 0

/-- The state is delivered and has its receipt. -/
def restTold : List ServiceOp :=
  [ServiceOp.control [1, 1, 255, 31] 1 0, .receive (eventFrame atRest) 0] ++ List.replicate 8 ServiceOp.owner

/-- The host subscribes after the state was received. -/
def restDue : List ServiceOp :=
  [ServiceOp.receive (eventFrame atRest) 0] ++ List.replicate 5 ServiceOp.owner ++
    [ServiceOp.control [1, 1, 255, 31] 1 0] ++ List.replicate 8 ServiceOp.owner

/-- What is reported until the entry is examined. -/
def restDueHistory : List NoticeEvent :=
  [NoticeEvent.called, .stored (0, false), .offered ⟨atRest, 0, 0, 1, hidOpTrackerEvent⟩, .retired] ++
    (List.range opCount).map fun i => NoticeEvent.visited 0 (.operation i)

/-- The first of these runs ends with a receipt, and in the second the snapshot is handed out. -/
theorem rest_snapshot_notified_examples :
    (∃ trace s, noticeSystem.Run trace s ∧ Told trace (0, false) s) ∧
    ∃ trace s s', noticeSystem.Run trace s ∧ Due 0 (0, false) s ∧ noticeSystem.step s .owner =
      some (s', [.visited 0 (.rest false), .offered ⟨atRest, 2, 0, 1, hidOpTrackerObservation⟩]) := by
  constructor
  · obtain ⟨trace, s, hrun, htest⟩ := noticeSystem.exists_run_of_replay restTold
      (fun _ s => decide ((s.restAt (0, false)).notifiedGeneration = s.subscription.subscriptionGeneration))
      (by decide +kernel)
    exact ⟨trace, s, hrun, (rest_snapshot_notified hrun).2.1 (0, false) (of_decide_eq_true htest)⟩
  · obtain ⟨trace, s, hrun, htest⟩ := noticeSystem.exists_run_of_replay restDue
      (fun trace s => s.owner.facing 0 (0, false) && decide (
        ((s.trackers 0).pairingGeneration = s.pairingGenerations 0 ∧ (s.restAt (0, false)).used = true ∧
          (s.restAt (0, false)).stale = false ∧ elapsed (stamp 0) (s.restAt (0, false)).lastRx < restStaleMs ∧
          s.subscription.matchesRecord 0 (s.restAt (0, false)).event.kind (stamp 0) = true) ∧
        (s.restAt (0, false)).snapshot s.subscription.subscriptionGeneration =
          ⟨atRest, 2, 0, 1, hidOpTrackerObservation⟩ ∧
        trace = restDueHistory))
      (by decide +kernel)
    rw [Bool.and_eq_true, decide_eq_true_eq] at htest
    obtain ⟨hfacing, ⟨hpaired, hused, hcurrent, hheard, hasked⟩, hsnapshot, htrace⟩ := htest
    obtain ⟨rest, howner⟩ := Owner.checking_of_facing hfacing
    have hdue : Due 0 (0, false) s := ⟨hpaired, hused, hcurrent, hheard, hasked⟩
    have hnot : ¬Told trace (0, false) s := by
      rintro ⟨before, out, between, since, hsplit, -⟩
      have hmem : NoticeEvent.accepted out ∈ trace := by
        rw [hsplit]
        simp
      rw [htrace, restDueHistory] at hmem
      simp at hmem
    obtain ⟨s', hstep, -⟩ := (rest_snapshot_notified hrun).2.2 0 (0, false) rest howner hdue hnot
    rw [hsnapshot] at hstep
    exact ⟨trace, s, s', hrun, hdue, hstep⟩

/-- A single offer: after one of the same version and generation was accepted, none is made again. -/
def OfferedOnce (earlier : List NoticeEvent) : NoticeEvent → Prop
  | .offered out => ∀ slot before told since, out.event.restSlot = some slot →
      earlier = before ++ NoticeEvent.accepted told :: since → told.event.restSlot = some slot →
      told.cacheVersion = out.cacheVersion → told.generation = out.generation → .retired ∉ since →
      .stored slot ∈ since
  | _ => True

/-- The state is delivered, goes stale, and is heard of again. -/
def restRevived : List ServiceOp :=
  [ServiceOp.control [1, 1, 255, 31] 1 0, .receive (eventFrame atRest) 0] ++ List.replicate 170 ServiceOp.owner ++
    [ServiceOp.tick 14999, .control [1, 2, 255, 31] 1 14999, .tick 1] ++ List.replicate 167 ServiceOp.owner ++
    [ServiceOp.receive (eventFrame atRest) 15000] ++ List.replicate 3 ServiceOp.owner

/-- **A snapshot that was stale is handed out again**, under the version and the generation under which
it had been accepted. -/
theorem rest_snapshot_offered_again : ∃ trace s, noticeSystem.Run trace s ∧ ¬EachAfter OfferedOnce trace := by
  obtain ⟨trace, s, hrun, htest⟩ := noticeSystem.exists_run_of_replay restRevived
    (fun trace _ => decide (trace = (trace.take 5 ++ NoticeEvent.accepted ⟨atRest, 2, 0, 1, hidOpTrackerEvent⟩ ::
        (trace.drop 6).dropLast) ++ [.offered ⟨atRest, 2, 15000, 1, hidOpTrackerObservation⟩] ∧
      .retired ∉ (trace.drop 6).dropLast ∧ .stored (0, false) ∉ (trace.drop 6).dropLast)) (by decide +kernel)
  obtain ⟨htrace, hretired, hstored⟩ := of_decide_eq_true htest
  refine ⟨trace, s, hrun, fun hlaw => hstored ?_⟩
  exact hlaw _ _ [] htrace (0, false) _ _ _ rfl rfl rfl rfl rfl hretired

end Runs

end SlimeReceiver.Events
