import Mathlib.Logic.Function.Iterate
import SlimeReceiver.Events.Sessions
import SlimeReceiver.Events.Service

/-! # Records of a report and the subscription

An event record passes three checks in two contexts on its way to the host, with a queue between them,
while four operations can replace the generation under which it was queued.

* **`generationAfter`** — the generation is the number of its replacements, modulo `2 ^ 32 - 1`.
* **`SoundCheck`** — what the last check of a record established.
* **`Custody`** — where the records are and what is known of them: the invariant of a run.
* **`lease_safety`** — every event record of a report was last checked soundly. -/

namespace SlimeReceiver.Events

open Service

/-! ## Generations -/

/-- The generation after a number of replacements. -/
def generationAfter (n : ℕ) : BitVec 32 := nextGeneration^[n] 1

theorem generationAfter_succ (n : ℕ) :
    generationAfter (n + 1) = nextGeneration (generationAfter n) :=
  Function.iterate_succ_apply' nextGeneration n 1

theorem nextGeneration_toNat (v : BitVec 32) :
    (nextGeneration v).toNat = if v.toNat + 1 = 2 ^ 32 then 1 else v.toNat + 1 := by
  have hsum : (v + 1).toNat = (v.toNat + 1) % 2 ^ 32 := BitVec.toNat_add v 1
  have hlt := v.isLt
  unfold nextGeneration
  by_cases hwrap : v.toNat + 1 = 2 ^ 32
  · rw [hwrap, Nat.mod_self] at hsum
    rw [if_pos (BitVec.eq_of_toNat_eq hsum), if_pos hwrap]
    rfl
  · rw [Nat.mod_eq_of_lt (by omega)] at hsum
    have hne : v + 1 ≠ 0 := fun hzero => by
      rw [hzero] at hsum
      exact absurd hsum (Nat.succ_ne_zero _).symm
    rw [if_neg hne, if_neg hwrap, hsum]

/-- The generations from 1 on, without 0. -/
theorem generationAfter_toNat (n : ℕ) : (generationAfter n).toNat = n % (2 ^ 32 - 1) + 1 := by
  induction n with
  | zero => rfl
  | succ n ih =>
    rw [generationAfter_succ, nextGeneration_toNat, ih]
    split <;> omega

/-- How often the generation was replaced. -/
def retirements (trace : List ServiceEvent) : ℕ := trace.count .retired

theorem retirements_append (trace es : List ServiceEvent) :
    retirements (trace ++ es) = retirements trace + retirements es :=
  List.count_append

/-- If a generation comes back, it was not replaced or a full cycle of generations was used. -/
theorem not_retired {earlier since : List ServiceEvent}
    (h : generationAfter (retirements (earlier ++ since)) = generationAfter (retirements earlier))
    (hfew : retirements since < 2 ^ 32 - 1) : .retired ∉ since := by
  have hvalue := congrArg BitVec.toNat h
  rw [generationAfter_toNat, generationAfter_toNat, retirements_append] at hvalue
  have hnone : retirements since = 0 := by omega
  exact List.count_eq_zero.mp hnone

/-! ## Leases -/

/-- The lease starts anew. -/
def followLease (t : ℕ) : ServiceEvent → ℕ
  | .leased now => now
  | _ => t

/-- When the lease was last started or renewed. -/
def lastLease (trace : List ServiceEvent) : ℕ := trace.foldl followLease 0

theorem lastLease_append (trace es : List ServiceEvent) :
    lastLease (trace ++ es) = es.foldl followLease (lastLease trace) :=
  List.foldl_append

/-! ## Checks -/

namespace ServiceEvent

/-- The event is a recheck of the record with a ticket. -/
def rechecks (t : ℕ) : ServiceEvent → Bool
  | .checked ticket _ _ _ _ => ticket == t
  | _ => false

/-- The event is one of the sender. -/
def ofSender : ServiceEvent → Bool
  | .checked .. => true
  | .submitted _ => true
  | _ => false

/-- The event is one of the owner of the caches, or of the cleanup after a pairing. -/
def ofOwner : ServiceEvent → Bool
  | .cache .. => true
  | .examined .. => true
  | .admitted _ => true
  | .queued .. => true
  | _ => false

theorem not_ofSender_of_ofOwner {e : ServiceEvent} (h : e.ofOwner = true) : e.ofSender = false := by
  cases e with
  | checked => cases h
  | submitted => cases h
  | _ => rfl

theorem rechecks_of_not_ofSender {e : ServiceEvent} (h : e.ofSender = false) (t : ℕ) :
    e.rechecks t = false := by
  cases e with
  | checked => cases h
  | _ => rfl

end ServiceEvent

/-- What a check that was passed establishes: the record had been admitted and queued, its generation
is the current one, the lease has not expired and the subscription asks for the record. If the
generation was current at an earlier moment, it has not been replaced since. -/
structure SoundCheck (before : List ServiceEvent) (t : ℕ) (record : HidRecord) (sub : Subscription)
    (now : ℕ) : Prop where
  admitted : .admitted record ∈ before
  queued : .queued t record ∈ before
  generation : record.subscriptionGeneration = sub.subscriptionGeneration
  current : sub.subscriptionGeneration = generationAfter (retirements before)
  subscribed : sub.subscribed = true
  lease : elapsed (stamp now) (stamp (lastLease before)) < leaseMs
  filter : sub.subscriptionFilter = 255 ∨ sub.subscriptionFilter = byteAt record.data 4
  mask : sub.subscriptionMask &&& trackerEventKindFilter (byteAt record.data 13) ≠ 0
  fresh : ∀ earlier since, before = earlier ++ since →
    generationAfter (retirements earlier) = record.subscriptionGeneration →
    retirements since < 2 ^ 32 - 1 → .retired ∉ since

/-- The last check of the record with a ticket was passed. -/
def LastChecked (trace : List ServiceEvent) (t : ℕ) (record : HidRecord) : Prop :=
  ∃ before sub now after, trace = before ++ ServiceEvent.checked t record sub now true :: after ∧
    (∀ e ∈ after, e.rechecks t = false) ∧ SoundCheck before t record sub now

/-- Every event record of a report was last checked soundly. -/
def SubmitLaw (earlier : List ServiceEvent) : ServiceEvent → Prop
  | .submitted report => ∀ t record, some (t, record) ∈ report →
      record.subscriptionGeneration ≠ 0 → LastChecked earlier t record
  | _ => True

theorem LastChecked.append {trace es : List ServiceEvent} {t : ℕ} {record : HidRecord}
    (h : LastChecked trace t record) (hes : ∀ e ∈ es, e.rechecks t = false) :
    LastChecked (trace ++ es) t record := by
  obtain ⟨before, sub, now, after, rfl, hafter, hsound⟩ := h
  refine ⟨before, sub, now, after ++ es, by simp, fun e he => ?_, hsound⟩
  rcases List.mem_append.mp he with he | he
  · exact hafter e he
  · exact hes e he

theorem submitLaw_of_not_ofSender {earlier : List ServiceEvent} {e : ServiceEvent}
    (h : e.ofSender = false) : SubmitLaw earlier e := by
  cases e with
  | submitted => cases h
  | _ => trivial

/-- What `tracker_events_hid_valid` tests. -/
theorem hidValid_iff {record : List (BitVec 8)} {generation now : BitVec 32} {s : Subscription}
    (h : s.hidValid record generation now = true) : generation = s.subscriptionGeneration ∧
      s.subscribed = true ∧ elapsed now s.leaseStarted < leaseMs ∧
      (s.subscriptionFilter = 255 ∨ s.subscriptionFilter = byteAt record 4) ∧
      s.subscriptionMask &&& trackerEventKindFilter (byteAt record 13) ≠ 0 := by
  simp only [Subscription.hidValid, Subscription.matchesRecord, Subscription.leaseActive,
    Bool.and_eq_true, Bool.or_eq_true, beq_iff_eq, bne_iff_ne, decide_eq_true_eq] at h
  exact ⟨h.1.2, h.2.1.1.1, h.2.1.1.2, h.2.1.2, h.2.2⟩

/-! ## Custody of the records -/

/-- The records of the batch that are still to be rechecked, from the `n`-th on. -/
def Pending (fifo : HidFifo) (n : ℕ) (batch : List (ℕ × HidRecord)) : Prop :=
  ∀ k t record, batch[k]? = some (t, record) →
    t = fifo.readPos + (n + k) ∧ fifo.slotAt t = some (.published record)

/-- The records of the batch that were rechecked. -/
def Rechecked (trace : List ServiceEvent) (fifo : HidFifo) (done : List (Option (ℕ × HidRecord))) :
    Prop :=
  ∀ k entry, done[k]? = some entry →
    (∃ record, fifo.slotAt (fifo.readPos + k) = some (.published record)) ∧
    ∀ t record, entry = some (t, record) → t = fifo.readPos + k ∧
      (record.subscriptionGeneration ≠ 0 → LastChecked trace t record)

/-- What is known of the records the sender has copied. -/
def SenderHolds (trace : List ServiceEvent) (fifo : HidFifo) : Sender → Prop
  | .idle => True
  | .peeked batch => Pending fifo 0 batch
  | .checking _ done rest => Rechecked trace fifo done ∧ Pending fifo done.length rest

/-- What is known of the record `deliver` is working on. -/
def OwnerHolds (trace : List ServiceEvent) (fifo : HidFifo) : Owner → Prop
  | .delivering .admitted out _ _ => .admitted (recordOf out) ∈ trace
  | .delivering (.claimed ticket) out _ _ =>
      .admitted (recordOf out) ∈ trace ∧ fifo.slotAt ticket = some (.claimed true)
  | _ => True

/-- Where the event records are, and what is known of them. -/
structure Custody (trace : List ServiceEvent) (s : Service) : Prop where
  generation : s.subscription.subscriptionGeneration = generationAfter (retirements trace)
  lease : s.subscription.leaseStarted = stamp (lastLease trace)
  slots : ∀ t record, s.fifo.slotAt t = some (.published record) →
    record.subscriptionGeneration ≠ 0 → .admitted record ∈ trace ∧ .queued t record ∈ trace
  owner : OwnerHolds trace s.fifo s.owner
  sender : SenderHolds trace s.fifo s.sender
  lawful : EachAfter SubmitLaw trace

/-! ## Steps of the other contexts -/

/-- The ring still holds the records it held, at the same tickets. -/
structure KeepsSlots (fifo fifo' : HidFifo) : Prop where
  readPos : fifo'.readPos = fifo.readPos
  published : ∀ t record, fifo.slotAt t = some (.published record) →
    fifo'.slotAt t = some (.published record)

section Steps

variable {trace es : List ServiceEvent} {fifo fifo' : HidFifo} {s s' : Service}

theorem KeepsSlots.refl (fifo : HidFifo) : KeepsSlots fifo fifo := ⟨rfl, fun _ _ h => h⟩

theorem HidFifo.slotAt_writePos (f : HidFifo) : f.slotAt f.writePos = none := by
  have hpast : ¬f.writePos < f.readPos := by
    rw [writePos]
    omega
  rw [slotAt, if_neg hpast]
  exact List.getElem?_eq_none (by rw [writePos]; omega)

theorem ne_writePos {t : ℕ} {slot : FifoSlot} (h : fifo.slotAt t = some slot) :
    t ≠ fifo.writePos := by
  rintro rfl
  rw [fifo.slotAt_writePos] at h
  cases h

theorem keepsSlots_claim {owner priority : Bool} (h : fifo.claim owner priority = some fifo') :
    KeepsSlots fifo fifo' := by
  obtain ⟨hread, -, hothers⟩ := HidFifo.slotAt_claim h
  exact ⟨hread, fun t record hslot => (hothers t (ne_writePos hslot)).trans hslot⟩

theorem keepsSlots_publish {ticket : ℕ} {owner : Bool}
    (h : fifo.slotAt ticket = some (.claimed owner)) (record : HidRecord) :
    KeepsSlots fifo (fifo.publish ticket record) := by
  obtain ⟨-, hothers⟩ := HidFifo.slotAt_publish h record
  refine ⟨rfl, fun t record' hslot => ?_⟩
  have hne : t ≠ ticket := by
    rintro rfl
    rw [hslot] at h
    cases h
  exact (hothers t hne).trans hslot

/-- What the sender has copied is not touched by the other contexts. -/
theorem SenderHolds.mono {sender : Sender} (h : SenderHolds trace fifo sender)
    (hkept : KeepsSlots fifo fifo') (hes : ∀ e ∈ es, e.ofSender = false) :
    SenderHolds (trace ++ es) fifo' sender := by
  have hpending : ∀ {n batch}, Pending fifo n batch → Pending fifo' n batch := by
    intro n batch hbatch k t record hk
    obtain ⟨ht, hslot⟩ := hbatch k t record hk
    rw [hkept.readPos]
    exact ⟨ht, hkept.published t record hslot⟩
  cases sender with
  | idle => trivial
  | peeked batch => exact hpending h
  | checking now done rest =>
    refine ⟨fun k entry hk => ?_, hpending h.2⟩
    obtain ⟨⟨record, hslot⟩, hentry⟩ := h.1 k entry hk
    rw [hkept.readPos]
    refine ⟨⟨record, hkept.published _ _ hslot⟩, fun t record' heq => ?_⟩
    obtain ⟨ht, hchecked⟩ := hentry t record' heq
    exact ⟨ht, fun hgen => (hchecked hgen).append fun e he =>
      ServiceEvent.rechecks_of_not_ofSender (hes e he) t⟩

/-- A step of a context other than the sender. -/
theorem Custody.other (h : Custody trace s)
    (hgeneration : s'.subscription.subscriptionGeneration = generationAfter (retirements (trace ++ es)))
    (hlease : s'.subscription.leaseStarted = stamp (lastLease (trace ++ es)))
    (hkept : KeepsSlots s.fifo s'.fifo)
    (hnew : ∀ t record, s'.fifo.slotAt t = some (.published record) →
      record.subscriptionGeneration ≠ 0 → s.fifo.slotAt t = some (.published record) ∨
        (.admitted record ∈ trace ++ es ∧ .queued t record ∈ trace ++ es))
    (howner : OwnerHolds (trace ++ es) s'.fifo s'.owner) (hsender : s'.sender = s.sender)
    (hes : ∀ e ∈ es, e.ofSender = false) : Custody (trace ++ es) s' where
  generation := hgeneration
  lease := hlease
  slots t record hslot hgen := by
    rcases hnew t record hslot hgen with hold | hboth
    · obtain ⟨hadmitted, hqueued⟩ := h.slots t record hold hgen
      exact ⟨List.mem_append_left es hadmitted, List.mem_append_left es hqueued⟩
    · exact hboth
  owner := howner
  sender := by
    rw [hsender]
    exact h.sender.mono hkept hes
  lawful := h.lawful.append fun _ e he => submitLaw_of_not_ofSender (hes e he)

/-- What the owner has admitted and claimed stays so. -/
theorem OwnerHolds.mono {owner : Owner} (h : OwnerHolds trace fifo owner)
    (hclaimed : ∀ t, fifo.slotAt t = some (.claimed true) → fifo'.slotAt t = some (.claimed true)) :
    OwnerHolds (trace ++ es) fifo' owner := by
  cases owner with
  | delivering stage out rest next =>
    cases stage with
    | admitted => exact List.mem_append_left es h
    | claimed ticket => exact ⟨List.mem_append_left es h.1, hclaimed ticket h.2⟩
    | _ => trivial
  | _ => trivial

/-- A step that leaves the owner, the ring and the sender alone. -/
theorem Custody.aside (h : Custody trace s)
    (hgeneration : s'.subscription.subscriptionGeneration = generationAfter (retirements (trace ++ es)))
    (hlease : s'.subscription.leaseStarted = stamp (lastLease (trace ++ es)))
    (hplace : s'.fifo = s.fifo ∧ s'.owner = s.owner ∧ s'.sender = s.sender)
    (hes : ∀ e ∈ es, e.ofSender = false) : Custody (trace ++ es) s' := by
  obtain ⟨hfifo, howner, hsender⟩ := hplace
  refine h.other hgeneration hlease ?_ ?_ ?_ hsender hes
  · rw [hfifo]
    exact .refl _
  · rw [hfifo]
    exact fun _ _ hslot _ => .inl hslot
  · rw [hfifo, howner]
    exact h.owner.mono fun _ hslot => hslot

/-- The owner does not touch the subscription. -/
theorem Custody.subscription_append (h : Custody trace s) (hes : ∀ e ∈ es, e.ofOwner = true) :
    s.subscription.subscriptionGeneration = generationAfter (retirements (trace ++ es)) ∧
      s.subscription.leaseStarted = stamp (lastLease (trace ++ es)) := by
  have hnone : retirements es = 0 := List.count_eq_zero.mpr fun hmem => by
    cases hes _ hmem
  have hlease : es.foldl followLease (lastLease trace) = lastLease trace := by
    refine foldl_eq_self (fun e he t => ?_) _
    have howner := hes e he
    cases e with
    | leased => cases howner
    | _ => rfl
  rw [retirements_append, hnone, lastLease_append, hlease]
  exact ⟨h.generation, h.lease⟩

/-- A step that leaves the subscription, the owner, the ring and the sender alone. -/
theorem Custody.apart (h : Custody trace s) (hsub : s'.subscription = s.subscription)
    (hplace : s'.fifo = s.fifo ∧ s'.owner = s.owner ∧ s'.sender = s.sender)
    (hes : ∀ e ∈ es, e.ofOwner = true) : Custody (trace ++ es) s' := by
  obtain ⟨hgeneration, hlease⟩ := h.subscription_append hes
  rw [← hsub] at hgeneration hlease
  exact h.aside hgeneration hlease hplace fun e he => ServiceEvent.not_ofSender_of_ofOwner (hes e he)

/-- What a granted request does, and what it reports. -/
theorem granted_cases (action filter mask : BitVec 8) (now : ℕ) (sub : Subscription) :
    ((sub.granted action filter mask (stamp now)).subscriptionGeneration =
        nextGeneration sub.subscriptionGeneration ∧
      (sub.granted action filter mask (stamp now)).leaseStarted = stamp now ∧
      controlEvents action now = [.retired, .leased now]) ∨
    ((sub.granted action filter mask (stamp now)).subscriptionGeneration =
        sub.subscriptionGeneration ∧
      (sub.granted action filter mask (stamp now)).leaseStarted = stamp now ∧
      controlEvents action now = [.leased now]) ∨
    ((sub.granted action filter mask (stamp now)).subscriptionGeneration =
        nextGeneration sub.subscriptionGeneration ∧
      (sub.granted action filter mask (stamp now)).leaseStarted = sub.leaseStarted ∧
      controlEvents action now = [.retired]) ∨
    (sub.granted action filter mask (stamp now) = sub ∧ controlEvents action now = []) := by
  unfold Subscription.granted controlEvents
  by_cases hsubscribe : action = 1
  · rw [if_pos hsubscribe, if_pos (.inl hsubscribe), if_pos (.inl hsubscribe)]
    exact .inl ⟨rfl, rfl, rfl⟩
  by_cases hrenew : action = 2
  · subst hrenew
    exact .inr (.inl ⟨rfl, rfl, rfl⟩)
  by_cases hunsubscribe : action = 3
  · subst hunsubscribe
    exact .inr (.inr (.inl ⟨rfl, rfl, rfl⟩))
  · rw [if_neg hsubscribe, if_neg hrenew, if_neg hunsubscribe,
      if_neg (not_or.mpr ⟨hsubscribe, hunsubscribe⟩), if_neg (not_or.mpr ⟨hsubscribe, hrenew⟩)]
    exact .inr (.inr (.inr ⟨rfl, rfl⟩))

/-- A request that is granted. -/
theorem Custody.granted (h : Custody trace s) (action filter mask : BitVec 8) (now : ℕ) :
    Custody (trace ++ controlEvents action now)
      { s with subscription := s.subscription.granted action filter mask (stamp now) } := by
  have hnext := generationAfter_succ (retirements trace)
  rw [← h.generation] at hnext
  rcases granted_cases action filter mask now s.subscription with ⟨hgeneration, hlease, hes⟩ |
    ⟨hgeneration, hlease, hes⟩ | ⟨hgeneration, hlease, hes⟩ | ⟨hsame, hes⟩
  all_goals rw [hes]
  · refine h.aside ?_ ?_ ⟨rfl, rfl, rfl⟩ (by simp [ServiceEvent.ofSender])
    · rw [retirements_append]
      exact hgeneration.trans hnext.symm
    · rw [lastLease_append]
      exact hlease
  · refine h.aside ?_ ?_ ⟨rfl, rfl, rfl⟩ (by simp [ServiceEvent.ofSender])
    · rw [retirements_append]
      exact hgeneration.trans h.generation
    · rw [lastLease_append]
      exact hlease
  · refine h.aside ?_ ?_ ⟨rfl, rfl, rfl⟩ (by simp [ServiceEvent.ofSender])
    · rw [retirements_append]
      exact hgeneration.trans hnext.symm
    · rw [lastLease_append]
      exact hlease.trans h.lease
  · exact h.apart hsame ⟨rfl, rfl, rfl⟩ (by simp)

/-- The generation is replaced and the lease is left alone. -/
theorem Custody.retired (h : Custody trace s)
    (hgeneration : s'.subscription.subscriptionGeneration =
      nextGeneration s.subscription.subscriptionGeneration)
    (hlease : s'.subscription.leaseStarted = s.subscription.leaseStarted)
    (hplace : s'.fifo = s.fifo ∧ s'.owner = s.owner ∧ s'.sender = s.sender) :
    Custody (trace ++ [ServiceEvent.retired]) s' := by
  refine h.aside ?_ ?_ hplace (by simp [ServiceEvent.ofSender])
  · rw [hgeneration, h.generation, retirements_append]
    exact (generationAfter_succ _).symm
  · rw [hlease, h.lease, lastLease_append]
    rfl

/-- Another producer claims a slot. -/
theorem Custody.claim (h : Custody trace s) {priority : Bool}
    (hclaim : s.fifo.claim false priority = some fifo') :
    Custody (trace ++ []) { s with fifo := fifo' } := by
  obtain ⟨-, hself, hothers⟩ := HidFifo.slotAt_claim hclaim
  obtain ⟨hgeneration, hlease⟩ := h.subscription_append (List.forall_mem_nil _)
  refine h.other hgeneration hlease (keepsSlots_claim hclaim) (fun t record hslot _ => ?_) ?_ rfl
    (by simp)
  · by_cases hnew : t = s.fifo.writePos
    · rw [hnew] at hslot
      cases hself.symm.trans hslot
    · exact .inl ((hothers t hnew).symm.trans hslot)
  · exact h.owner.mono fun t hslot => (hothers t (ne_writePos hslot)).trans hslot

/-- Another producer publishes its record. -/
theorem Custody.publish (h : Custody trace s) {ticket : ℕ}
    (hslot : s.fifo.slotAt ticket = some (.claimed false)) (data : List (BitVec 8)) :
    Custody (trace ++ []) { s with fifo := s.fifo.publish ticket ⟨data, 0⟩ } := by
  obtain ⟨hself, hothers⟩ := HidFifo.slotAt_publish hslot ⟨data, 0⟩
  obtain ⟨hgeneration, hlease⟩ := h.subscription_append (List.forall_mem_nil _)
  refine h.other hgeneration hlease (keepsSlots_publish hslot _) (fun t record hrecord hgen => ?_) ?_
    rfl (by simp)
  · by_cases hsame : t = ticket
    · -- the records of other producers have generation 0
      rw [hsame] at hrecord
      have hrecord' := FifoSlot.published.inj (Option.some.inj (hself.symm.trans hrecord))
      exact absurd (congrArg HidRecord.subscriptionGeneration hrecord').symm hgen
    · exact .inl ((hothers t hsame).symm.trans hrecord)
  · refine h.owner.mono fun t hclaimed => ?_
    have hne : t ≠ ticket := by
      rintro rfl
      cases hslot.symm.trans hclaimed
    exact (hothers t hne).trans hclaimed

/-! ### The owner -/

theorem ownerHolds_deliverAll (rest : List Delivery) (next : Continuation) :
    OwnerHolds trace fifo (.deliverAll rest next) := by
  cases rest with
  | nil => cases next <;> trivial
  | cons => trivial

/-- The owner goes on without touching the ring. -/
theorem Custody.owner_step (h : Custody trace s) (hsub : s'.subscription = s.subscription)
    (hplace : s'.fifo = s.fifo ∧ s'.sender = s.sender) (howner : OwnerHolds (trace ++ es) s.fifo s'.owner)
    (hes : ∀ e ∈ es, e.ofOwner = true) : Custody (trace ++ es) s' := by
  obtain ⟨hfifo, hsender⟩ := hplace
  obtain ⟨hgeneration, hlease⟩ := h.subscription_append hes
  rw [← hsub] at hgeneration hlease
  refine h.other hgeneration hlease ?_ ?_ (hfifo ▸ howner) hsender
    fun e he => ServiceEvent.not_ofSender_of_ofOwner (hes e he)
  · rw [hfifo]
    exact .refl _
  · rw [hfifo]
    exact fun _ _ hslot _ => .inl hslot

theorem ofOwner_cache (l : List CacheEvent) (tracker : BitVec 8) (time : ℕ) :
    ∀ e ∈ l.map (ServiceEvent.cache tracker time), e.ofOwner = true := by
  intro e he
  obtain ⟨-, -, rfl⟩ := List.mem_map.mp he
  rfl

/-- The owner claims a slot for the record it has admitted. -/
theorem Custody.claim_record (h : Custody trace s) {priority : Bool} {out : Delivery}
    {rest : List Delivery} {next : Continuation}
    (hclaim : s.fifo.claim true priority = some fifo')
    (howner : s.owner = .delivering .admitted out rest next) :
    Custody (trace ++ []) { s with
      fifo := fifo'
      owner := .delivering (.claimed s.fifo.writePos) out rest next } := by
  obtain ⟨-, hself, hothers⟩ := HidFifo.slotAt_claim hclaim
  obtain ⟨hgeneration, hlease⟩ := h.subscription_append (List.forall_mem_nil _)
  have hadmitted : .admitted (recordOf out) ∈ trace := by
    have hholds := h.owner
    rw [howner] at hholds
    exact hholds
  refine h.other hgeneration hlease (keepsSlots_claim hclaim) (fun t record hslot _ => ?_)
    ⟨List.mem_append_left _ hadmitted, hself⟩ rfl (by simp)
  by_cases hnew : t = s.fifo.writePos
  · rw [hnew] at hslot
    cases hself.symm.trans hslot
  · exact .inl ((hothers t hnew).symm.trans hslot)

/-- The owner publishes the record in the slot it has claimed. -/
theorem Custody.publish_record (h : Custody trace s) {ticket : ℕ} {out : Delivery}
    {rest : List Delivery} {next : Continuation} {owner : Owner}
    (howner : s.owner = .delivering (.claimed ticket) out rest next)
    (hfree : ∀ trace fifo, OwnerHolds trace fifo owner) :
    Custody (trace ++ [ServiceEvent.queued ticket (recordOf out)]) { s with
      fifo := s.fifo.publish ticket (recordOf out)
      owner := owner } := by
  have hholds := h.owner
  rw [howner] at hholds
  obtain ⟨hadmitted, hslot⟩ := hholds
  obtain ⟨hself, hothers⟩ := HidFifo.slotAt_publish hslot (recordOf out)
  have hes : ∀ e ∈ [ServiceEvent.queued ticket (recordOf out)], e.ofOwner = true := by
    simp [ServiceEvent.ofOwner]
  obtain ⟨hgeneration, hlease⟩ := h.subscription_append hes
  refine h.other hgeneration hlease (keepsSlots_publish hslot _) (fun t record hrecord _ => ?_)
    (hfree _ _) rfl fun e he => ServiceEvent.not_ofSender_of_ofOwner (hes e he)
  by_cases hsame : t = ticket
  · rw [hsame] at hrecord ⊢
    have hrecord' := FifoSlot.published.inj (Option.some.inj (hself.symm.trans hrecord))
    rw [← hrecord']
    exact .inr ⟨List.mem_append_left _ hadmitted,
      List.mem_append_right _ (List.mem_singleton.mpr rfl)⟩
  · exact .inl ((hothers t hsame).symm.trans hrecord)

/-- A piece of `deliver`. -/
theorem Custody.deliver (h : Custody trace s) {stage : DeliverStage} {out : Delivery}
    {rest : List Delivery} {next : Continuation} (howner : s.owner = .delivering stage out rest next) :
    Custody (trace ++ (s.deliverStep stage out rest next).2) (s.deliverStep stage out rest next).1 := by
  cases stage with
  | start =>
    simp only [deliverStep]
    split
    · exact h.owner_step rfl ⟨rfl, rfl⟩ (ownerHolds_deliverAll _ _) (by simp)
    · exact h.owner_step rfl ⟨rfl, rfl⟩ trivial (by simp)
  | sampled now =>
    simp only [deliverStep]
    split
    · exact h.owner_step rfl ⟨rfl, rfl⟩ (by simp [OwnerHolds]) (by simp [ServiceEvent.ofOwner])
    · exact h.owner_step rfl ⟨rfl, rfl⟩ (ownerHolds_deliverAll _ _) (by simp)
  | admitted =>
    simp only [deliverStep]
    split
    · exact h.owner_step rfl ⟨rfl, rfl⟩ (ownerHolds_deliverAll _ _) (by simp)
    · rename_i fifo hclaim
      exact h.claim_record hclaim howner
  | claimed ticket =>
    simp only [deliverStep]
    split
    · exact h.publish_record howner fun _ _ => trivial
    · exact h.publish_record howner fun _ _ => ownerHolds_deliverAll _ _
  | written =>
    simp only [deliverStep]
    exact h.owner_step rfl ⟨rfl, rfl⟩ (ownerHolds_deliverAll _ _) (by simp)

/-- A piece of `tracker_events_process`. -/
theorem Custody.owner_goes_on (h : Custody trace s) :
    Custody (trace ++ s.ownerStep.2) s.ownerStep.1 := by
  unfold Service.ownerStep
  split
  case h_1 => exact h.owner_step rfl ⟨rfl, rfl⟩ trivial (by simp)
  case h_2 =>
    split
    · exact h.owner_step rfl ⟨rfl, rfl⟩ trivial (by simp)
    · split <;> exact h.owner_step rfl ⟨rfl, rfl⟩ trivial (by simp)
  case h_3 =>
    exact h.owner_step rfl ⟨rfl, rfl⟩ (ownerHolds_deliverAll _ _) (ofOwner_cache _ _ _)
  case h_4 => exact h.owner_step rfl ⟨rfl, rfl⟩ trivial (by simp)
  case h_5 now tracker slot rest howner =>
    refine h.owner_step rfl ⟨rfl, rfl⟩ (ownerHolds_deliverAll _ _) fun e he => ?_
    rcases List.mem_append.mp he with he | he
    · unfold examinedEvents at he
      split at he
      · rw [List.mem_singleton.mp he]
        rfl
      · cases he
    · exact ofOwner_cache _ _ _ e he
  case h_6 stage out rest next howner => exact h.deliver howner

/-! ### The sender -/

/-- A step of the sender that leaves the ring alone. -/
theorem Custody.sender_step (h : Custody trace s) {sender : Sender}
    (hnone : retirements es = 0) (hlease : ∀ t, es.foldl followLease t = t)
    (hsender : SenderHolds (trace ++ es) s.fifo sender)
    (hes : ∀ earlier e, e ∈ es → SubmitLaw earlier e) :
    Custody (trace ++ es) { s with sender := sender } where
  generation := by
    rw [retirements_append, hnone]
    exact h.generation
  lease := by
    rw [lastLease_append, hlease]
    exact h.lease
  slots t record hslot hgen := by
    obtain ⟨hadmitted, hqueued⟩ := h.slots t record hslot hgen
    exact ⟨List.mem_append_left es hadmitted, List.mem_append_left es hqueued⟩
  owner := h.owner.mono fun _ hslot => hslot
  sender := hsender
  lawful := h.lawful.append hes

/-- A check that is passed is sound. -/
theorem Custody.soundCheck (h : Custody trace s) {t now : ℕ} {record : HidRecord}
    (hslot : s.fifo.slotAt t = some (.published record)) (hgen : record.subscriptionGeneration ≠ 0)
    (hvalid : s.subscription.hidValid record.data record.subscriptionGeneration (stamp now) = true) :
    SoundCheck trace t record s.subscription now := by
  obtain ⟨hgeneration, hsubscribed, hlease, hfilter, hmask⟩ := hidValid_iff hvalid
  obtain ⟨hadmitted, hqueued⟩ := h.slots t record hslot hgen
  refine ⟨hadmitted, hqueued, hgeneration, h.generation, hsubscribed, h.lease ▸ hlease, hfilter, hmask,
    fun earlier since htrace hthen hfew => ?_⟩
  have hback : generationAfter (retirements (earlier ++ since)) =
      generationAfter (retirements earlier) := by
    rw [← htrace, hthen, hgeneration]
    exact h.generation.symm
  exact not_retired hback hfew

/-- The next record of the batch was rechecked. -/
theorem Rechecked.snoc {done : List (Option (ℕ × HidRecord))} {t : ℕ} {record : HidRecord}
    {entry : Option (ℕ × HidRecord)} (h : Rechecked trace fifo done)
    (ht : t = fifo.readPos + done.length) (hslot : fifo.slotAt t = some (.published record))
    (hes : ∀ e ∈ es, ∀ k < done.length, e.rechecks (fifo.readPos + k) = false)
    (hentry : ∀ t' record', entry = some (t', record') → t' = t ∧
      (record'.subscriptionGeneration ≠ 0 → LastChecked (trace ++ es) t' record')) :
    Rechecked (trace ++ es) fifo (done ++ [entry]) := by
  intro k entry' hk
  rw [List.getElem?_append] at hk
  split at hk
  case isTrue hold =>
    obtain ⟨hpublished, hbefore⟩ := h k entry' hk
    refine ⟨hpublished, fun t' record' heq => ?_⟩
    obtain ⟨ht', hchecked⟩ := hbefore t' record' heq
    exact ⟨ht', fun hgen => (hchecked hgen).append fun e he => ht' ▸ hes e he k hold⟩
  case isFalse hnew =>
    have hlast : k - done.length = 0 := by
      have hinside := (List.getElem?_eq_some_iff.mp hk).1
      rw [List.length_singleton] at hinside
      omega
    have hplace : k = done.length := by omega
    rw [hlast] at hk
    obtain rfl : entry = entry' := Option.some.inj hk
    subst hplace
    refine ⟨⟨record, ht ▸ hslot⟩, fun t' record' heq => ?_⟩
    obtain ⟨ht', hchecked⟩ := hentry t' record' heq
    exact ⟨ht'.trans ht, hchecked⟩

theorem Pending.tail {n t : ℕ} {record : HidRecord} {rest : List (ℕ × HidRecord)}
    (h : Pending fifo n ((t, record) :: rest)) : Pending fifo (n + 1) rest := by
  intro k t' record' hk
  obtain ⟨ht, hslot⟩ := h (k + 1) t' record' hk
  exact ⟨by omega, hslot⟩

/-- A piece of `send_report` before the submission. -/
theorem Custody.sender_goes_on (h : Custody trace s) (hstep : s.senderStep = some (s', es)) :
    Custody (trace ++ es) s' := by
  have hholds := h.sender
  unfold Service.senderStep at hstep
  split at hstep
  case h_1 hsender =>
    obtain ⟨rfl, rfl⟩ := Prod.mk.inj (Option.some.inj hstep)
    refine h.sender_step rfl (fun _ => rfl) (fun k t record hk => ?_) (by simp)
    obtain ⟨ht, hslot⟩ := HidFifo.slotAt_peekBatch hk
    exact ⟨by omega, hslot⟩
  case h_2 batch hsender =>
    obtain ⟨rfl, rfl⟩ := Prod.mk.inj (Option.some.inj hstep)
    rw [hsender] at hholds
    refine h.sender_step rfl (fun _ => rfl) ⟨?_, hholds⟩ (by simp)
    intro k entry hk
    cases hk
  case h_3 now done t record rest hsender =>
    rw [hsender] at hholds
    obtain ⟨hdone, hpending⟩ := hholds
    obtain ⟨ht, hslot⟩ := hpending 0 t record rfl
    have hlength : ∀ entry, (done ++ [entry]).length = done.length + 1 := fun entry => by simp
    split at hstep
    case isTrue hordinary =>
      obtain ⟨rfl, rfl⟩ := Prod.mk.inj (Option.some.inj hstep)
      refine h.sender_step rfl (fun _ => rfl) ⟨?_, ?_⟩ (by simp)
      · refine hdone.snoc ht hslot (by simp) fun t' record' heq => ?_
        obtain ⟨rfl, rfl⟩ := Prod.mk.inj (Option.some.inj heq)
        exact ⟨rfl, fun hgen => absurd hordinary hgen⟩
      · rw [hlength]
        exact hpending.tail
    case isFalse hgen =>
      obtain ⟨rfl, rfl⟩ := Prod.mk.inj (Option.some.inj hstep)
      refine h.sender_step rfl (fun _ => rfl) ⟨?_, ?_⟩ (by simp [SubmitLaw])
      · refine hdone.snoc ht hslot (fun e he k hk => ?_) fun t' record' heq => ?_
        · -- the ticket is past those of the records before
          rw [List.mem_singleton.mp he]
          show (t == s.fifo.readPos + k) = false
          exact beq_false_of_ne (by omega)
        · split at heq
          case isFalse => cases heq
          case isTrue hvalid =>
            obtain ⟨rfl, rfl⟩ := Prod.mk.inj (Option.some.inj heq)
            refine ⟨rfl, fun _ => ⟨trace, s.subscription, now, [], ?_, by simp,
              h.soundCheck hslot hgen hvalid⟩⟩
            rw [hvalid]
      · rw [hlength]
        exact hpending.tail
  case h_4 => cases hstep

/-- The report is handed over, or refused. -/
theorem Custody.submission (h : Custody trace s) {accepted : Bool}
    (hstep : s.submit accepted = some (s', es)) : Custody (trace ++ es) s' := by
  have hholds := h.sender
  unfold Service.submit at hstep
  split at hstep
  case h_2 => cases hstep
  case h_1 now done hsender =>
    rw [hsender] at hholds
    obtain ⟨hdone, -⟩ := hholds
    split at hstep
    case isFalse =>
      obtain ⟨rfl, rfl⟩ := Prod.mk.inj (Option.some.inj hstep)
      exact h.sender_step rfl (fun _ => rfl) trivial (by simp)
    case isTrue =>
      obtain ⟨rfl, rfl⟩ := Prod.mk.inj (Option.some.inj hstep)
      have hlawful : EachAfter SubmitLaw (trace ++ [ServiceEvent.submitted done]) := by
        refine eachAfter_snoc.mpr ⟨h.lawful, fun t record hmem hgen => ?_⟩
        obtain ⟨k, hk⟩ := List.getElem?_of_mem hmem
        exact ((hdone k _ hk).2 t record rfl).2 hgen
      have hconsumed : ∀ t slot, (s.fifo.consume done.length).slotAt t = some slot →
          s.fifo.slotAt t = some slot := by
        intro t slot hslot
        rw [HidFifo.slotAt_consume] at hslot
        split at hslot
        · cases hslot
        · exact hslot
      refine ⟨?_, ?_, fun t record hslot hgen => ?_, ?_, trivial, hlawful⟩
      · rw [retirements_append]
        exact h.generation
      · rw [lastLease_append]
        exact h.lease
      · obtain ⟨hadmitted, hqueued⟩ := h.slots t record (hconsumed t _ hslot) hgen
        exact ⟨List.mem_append_left _ hadmitted, List.mem_append_left _ hqueued⟩
      · refine h.owner.mono fun t hclaimed => ?_
        -- the records of the report are published, so a claimed slot is behind them
        have hbehind : ¬t < s.fifo.readPos + done.length := by
          intro hinside
          have hle := HidFifo.readPos_le_of_slotAt hclaimed
          obtain ⟨k, rfl⟩ := Nat.exists_eq_add_of_le hle
          have hk : k < done.length := by omega
          obtain ⟨⟨record, hpublished⟩, -⟩ := hdone k done[k] (List.getElem?_eq_getElem hk)
          cases hpublished.symm.trans hclaimed
        rw [HidFifo.slotAt_consume, if_neg hbehind]
        exact hclaimed

end Steps

/-! ## Runs -/

section Runs

variable {trace es : List ServiceEvent} {s s' : Service}

/-- A granted request has the effect of its action. -/
theorem control_granted {args answer : List (BitVec 8)} {generation now : BitVec 32}
    {sub granted : Subscription} (h : sub.control args generation now = .ok (granted, answer)) :
    granted = sub.granted (byteAt args 1) (byteAt args 2) (byteAt args 3) now := by
  unfold Subscription.control at h
  simp only [] at h
  split at h
  · cases h
  split at h
  · cases h
  split at h
  · cases h
  split at h
  · cases h
  split at h
  · cases h
  split at h
  · cases h
  · exact (Prod.mk.inj (Except.ok.inj h)).1.symm

theorem Custody.init : Custody [] Service.init where
  generation := rfl
  lease := rfl
  slots t record hslot := by
    unfold HidFifo.slotAt at hslot
    split at hslot <;> cases hslot
  owner := trivial
  sender := trivial
  lawful := eachAfter_nil

/-- Custody is kept by every step. -/
theorem Custody.step {op : ServiceOp} (h : Custody trace s) (hstep : s.step op = some (s', es)) :
    Custody (trace ++ es) s' := by
  cases op with
  | tick ms =>
    obtain ⟨rfl, rfl⟩ := Prod.mk.inj (Option.some.inj hstep)
    exact h.apart rfl ⟨rfl, rfl, rfl⟩ (by simp)
  | receive packet now =>
    simp only [Service.step] at hstep
    split at hstep
    case isFalse => cases hstep
    case isTrue =>
      obtain ⟨rfl, rfl⟩ := Prod.mk.inj (Option.some.inj hstep)
      unfold Service.receive
      split
      · exact h.apart rfl ⟨rfl, rfl, rfl⟩ (by simp)
      · split <;> exact h.apart rfl ⟨rfl, rfl, rfl⟩ (by simp)
  | control args generation now =>
    simp only [Service.step] at hstep
    split at hstep
    case isFalse => cases hstep
    case isTrue =>
      split at hstep
      all_goals obtain ⟨rfl, rfl⟩ := Prod.mk.inj (Option.some.inj hstep)
      case h_1 => exact h.apart rfl ⟨rfl, rfl, rfl⟩ (by simp)
      case h_2 granted answer hcontrol =>
        rw [control_granted hcontrol]
        exact h.granted _ _ _ _
  | usbReset =>
    obtain ⟨rfl, rfl⟩ := Prod.mk.inj (Option.some.inj hstep)
    exact h.retired rfl rfl ⟨rfl, rfl, rfl⟩
  | pairingInvalidate mask =>
    obtain ⟨rfl, rfl⟩ := Prod.mk.inj (Option.some.inj hstep)
    exact h.retired rfl rfl ⟨rfl, rfl, rfl⟩
  | pairingCleanup tracker =>
    obtain ⟨rfl, rfl⟩ := Prod.mk.inj (Option.some.inj hstep)
    exact h.apart rfl ⟨rfl, rfl, rfl⟩ (ofOwner_cache _ _ _)
  | owner =>
    have hgo : s.ownerStep = (s', es) := Option.some.inj hstep
    have hkept := h.owner_goes_on
    rw [hgo] at hkept
    exact hkept
  | claim priority =>
    obtain ⟨fifo, hclaim, hs⟩ := Option.map_eq_some_iff.mp hstep
    obtain ⟨rfl, rfl⟩ := Prod.mk.inj hs
    exact h.claim hclaim
  | publish ticket data =>
    simp only [Service.step] at hstep
    split at hstep
    case isFalse => cases hstep
    case isTrue hslot =>
      obtain ⟨rfl, rfl⟩ := Prod.mk.inj (Option.some.inj hstep)
      exact h.publish hslot data
  | sender => exact h.sender_goes_on hstep
  | submit accepted => exact h.submission hstep

/-- Custody holds at the end of every run. -/
theorem custody_of_run (h : serviceSystem.Run trace s) : Custody trace s :=
  h.history_invariant (P := Custody) .init fun _ _ _ _ _ hs _ hstep => hs.step hstep

/-- **Leases and generations.** However the contexts interleave: an event record of a submitted report
was last checked soundly, so that its generation had not been replaced since it was queued; and a
request that is refused changes nothing. -/
theorem lease_safety (h : serviceSystem.Run trace s) : EachAfter SubmitLaw trace ∧
    (s.subscription.subscriptionGeneration = generationAfter (retirements trace) ∧
      s.subscription.leaseStarted = stamp (lastLease trace)) ∧
    ∀ args generation now e s' es, s.subscription.control args generation (stamp now) = .error e →
      serviceSystem.step s (.control args generation now) = some (s', es) → s' = s ∧ es = [] := by
  have hcustody := custody_of_run h
  refine ⟨hcustody.lawful, ⟨hcustody.generation, hcustody.lease⟩,
    fun args generation now e s' es herror hstep => ?_⟩
  have htaken : s.step (.control args generation now) = some (s', es) := hstep
  simp only [Service.step, herror] at htaken
  split at htaken
  case isFalse => cases htaken
  case isTrue =>
    obtain ⟨rfl, rfl⟩ := Prod.mk.inj (Option.some.inj htaken)
    exact ⟨rfl, rfl⟩

end Runs

/-- The record of a click, under the second generation. -/
def clickRecord : HidRecord := ⟨trackerEventEncodeHid (buttonClick 1 1) hidOpTrackerEvent, 2⟩

/-- The subscription to everything, from time 0. -/
def subscribedToAll : Subscription := ⟨1, 2, 0, 255, 31, true⟩

/-- The host subscribes, and a click is delivered, queued and rechecked. -/
def clickRechecked : List ServiceOp :=
  [.control [1, 1, 255, 31] 1 0, .receive (eventFrame (buttonClick 1 1)) 0, .owner, .owner, .owner,
    .owner, .owner, .owner, .owner, .sender, .sender, .sender]

/-- What that reports. -/
def clickHistory : List ServiceEvent :=
  [.retired, .leased 0, .cache 0 0 (.sessionEntered 1), .admitted clickRecord, .queued 0 clickRecord,
    .checked 0 clickRecord subscribedToAll 0 true]

/-- A click is sent. -/
theorem lease_safety_click : ∃ trace s, serviceSystem.Run trace s ∧
    trace = clickHistory ++ [.submitted [some (0, clickRecord)]] ∧
      LastChecked clickHistory 0 clickRecord := by
  obtain ⟨trace, s, hrun, htest⟩ := serviceSystem.exists_run_of_replay
    (clickRechecked ++ [ServiceOp.submit true])
    (fun trace _ => decide (trace = clickHistory ++ [ServiceEvent.submitted [some (0, clickRecord)]]))
    (by decide +kernel)
  have htrace := of_decide_eq_true htest
  exact ⟨trace, s, hrun, htrace, (lease_safety hrun).1 clickHistory _ [] htrace 0 clickRecord
    (List.mem_singleton.mpr rfl) (by decide)⟩

/-- **An unsubscription between the last check and the submission.** The record of an earlier
generation is submitted although the host has no subscription any more. -/
theorem submitted_after_unsubscribe : ∃ trace s, serviceSystem.Run trace s ∧
    trace = clickHistory ++ [.retired, .submitted [some (0, clickRecord)]] ∧
      s.subscription.subscribed = false ∧
      clickRecord.subscriptionGeneration ≠ s.subscription.subscriptionGeneration := by
  obtain ⟨trace, s, hrun, htest⟩ := serviceSystem.exists_run_of_replay
    (clickRechecked ++ [ServiceOp.control [1, 3, 255, 0] 1 0, .submit true])
    (fun trace s => decide (trace = clickHistory ++ [ServiceEvent.retired, .submitted [some (0, clickRecord)]] ∧
      s.subscription.subscribed = false ∧
      clickRecord.subscriptionGeneration ≠ s.subscription.subscriptionGeneration))
    (by decide +kernel)
  exact ⟨trace, s, hrun, of_decide_eq_true htest⟩

end SlimeReceiver.Events
