import Mathlib.Data.BitVec
import Mathlib.Data.List.Pairwise
import Mathlib.Tactic.Common

/-! # A queue that can be invalidated

One side puts items into a bounded queue; the other takes one out, and admits it later. To invalidate everything that
was put in, the queue is emptied, and an epoch is increased that every item carries: an item that was taken but not yet
admitted is refused when its epoch is not the current one. The epoch has `w` bits, so it comes back after `2 ^ w`
invalidations.

* **`EpochQueue`** — the queue, with a history of what was put in and admitted.
* **`put`**, **`take`**, **`check`**, **`invalidate`** — its operations.
* **`EpochQueue.Valid`** — what all of them keep: items are admitted in the order they were put in, none twice, none is
  lost, and none is admitted that was invalidated unless the epoch came back.
* **`drained_admitted`** — everything that was put in is admitted once it is taken. -/

namespace SlimeReceiver

universe u

/-- An item with its epoch, and its number in the history. -/
structure EpochMessage (α : Type u) (w : ℕ) where
  epoch : BitVec w
  item : α
  id : ℕ

/-- An item that was put in: after how many invalidations, and whether the queue had room for it. -/
structure EpochPut (α : Type u) where
  item : α
  invalidations : ℕ
  queued : Bool

/-- An item that was admitted, after how many invalidations. -/
structure EpochAdmission where
  id : ℕ
  invalidations : ℕ

/-- A queue, the item that was taken out of it, and the epoch. -/
structure EpochQueue (α : Type u) (w : ℕ) where
  epoch : BitVec w
  queue : List (EpochMessage α w)
  held : Option (EpochMessage α w)
  invalidations : ℕ
  puts : List (EpochPut α)
  admitted : List EpochAdmission

namespace EpochQueue

variable {α : Type u} {w depth : ℕ} {q : EpochQueue α w}

def empty : EpochQueue α w := ⟨0, [], none, 0, [], []⟩

/-- An item is put in; a full queue takes nothing. -/
def put (depth : ℕ) (q : EpochQueue α w) (item : α) : EpochQueue α w :=
  { q with
    queue := if q.queue.length < depth then q.queue ++ [⟨q.epoch, item, q.puts.length⟩] else q.queue
    puts := q.puts ++ [⟨item, q.invalidations, decide (q.queue.length < depth)⟩] }

/-- The oldest item is taken out, when none is held. -/
def take (q : EpochQueue α w) : EpochQueue α w :=
  match q.held, q.queue with
  | none, m :: rest => { q with held := some m, queue := rest }
  | _, _ => q

/-- The item that is held is admitted if its epoch is the current one. -/
def check (q : EpochQueue α w) : EpochQueue α w :=
  match q.held with
  | none => q
  | some m =>
    { q with
      held := none
      admitted := if m.epoch = q.epoch then q.admitted ++ [⟨m.id, q.invalidations⟩] else q.admitted }

/-- The queue is emptied, and the epoch increased. -/
def invalidate (q : EpochQueue α w) : EpochQueue α w :=
  { q with epoch := q.epoch + 1, queue := [], invalidations := q.invalidations + 1 }

/-- The items that can still be admitted, in their order. -/
def pending (q : EpochQueue α w) : List (EpochMessage α w) := q.held.toList ++ q.queue

/-- What holds of the queue at any time. -/
structure Valid (depth : ℕ) (q : EpochQueue α w) : Prop where
  epoch : q.epoch = BitVec.ofNat w q.invalidations
  length : q.queue.length ≤ depth
  /-- Admitted first, then held, then queued: in the order they were put in. -/
  order : (q.admitted.map EpochAdmission.id ++ q.pending.map EpochMessage.id).Pairwise (· < ·)
  past : ∀ p ∈ q.puts, p.invalidations ≤ q.invalidations
  queued : ∀ m ∈ q.queue, q.puts[m.id]? = some ⟨m.item, q.invalidations, true⟩
  source : ∀ m ∈ q.pending, ∃ n, q.puts[m.id]? = some ⟨m.item, n, true⟩ ∧ m.epoch = BitVec.ofNat w n
  admitted : ∀ a ∈ q.admitted, ∃ p, q.puts[a.id]? = some p ∧ p.queued = true ∧ p.invalidations ≤ a.invalidations ∧
    2 ^ w ∣ a.invalidations - p.invalidations
  /-- Nothing is lost but by an invalidation. -/
  kept : ∀ id p, q.puts[id]? = some p → p.queued = true → p.invalidations = q.invalidations →
    id ∈ q.admitted.map EpochAdmission.id ++ q.pending.map EpochMessage.id

theorem Valid.empty : (empty : EpochQueue α w).Valid depth where
  epoch := rfl
  length := Nat.zero_le _
  order := List.Pairwise.nil
  past _ hp := absurd hp List.not_mem_nil
  queued _ hm := absurd hm List.not_mem_nil
  source _ hm := absurd hm List.not_mem_nil
  admitted _ ha := absurd ha List.not_mem_nil
  kept _ _ hp := nomatch hp

/-- Every number in use is one of the history. -/
theorem Valid.id_lt (h : q.Valid depth) {id : ℕ}
    (hid : id ∈ q.admitted.map EpochAdmission.id ++ q.pending.map EpochMessage.id) : id < q.puts.length := by
  rcases List.mem_append.mp hid with hid | hid
  · obtain ⟨a, ha, rfl⟩ := List.mem_map.mp hid
    obtain ⟨p, hp, -⟩ := h.admitted a ha
    exact (List.getElem?_eq_some_iff.mp hp).1
  · obtain ⟨m, hm, rfl⟩ := List.mem_map.mp hid
    obtain ⟨n, hp, -⟩ := h.source m hm
    exact (List.getElem?_eq_some_iff.mp hp).1

theorem Valid.put (h : q.Valid depth) (item : α) : (q.put depth item).Valid depth := by
  have hold : ∀ {id : ℕ} {p : EpochPut α}, q.puts[id]? = some p → (q.put depth item).puts[id]? = some p := by
    intro id p hp
    exact (List.getElem?_append_left (List.getElem?_eq_some_iff.mp hp).1).trans hp
  have hpast : ∀ p ∈ (q.put depth item).puts, p.invalidations ≤ q.invalidations := by
    intro p hp
    rcases List.mem_append.mp hp with hp | hp
    · exact h.past p hp
    · exact List.mem_singleton.mp hp ▸ le_refl _
  have hadmitted : ∀ a ∈ q.admitted, ∃ p, (q.put depth item).puts[a.id]? = some p ∧ p.queued = true ∧
      p.invalidations ≤ a.invalidations ∧ 2 ^ w ∣ a.invalidations - p.invalidations := by
    intro a ha
    obtain ⟨p, hp, hrest⟩ := h.admitted a ha
    exact ⟨p, hold hp, hrest⟩
  -- an item of the history is an old one or the new one
  have hcases : ∀ {id : ℕ} {p : EpochPut α}, (q.put depth item).puts[id]? = some p →
      q.puts[id]? = some p ∨ id = q.puts.length ∧ p = ⟨item, q.invalidations, decide (q.queue.length < depth)⟩ := by
    intro id p hp
    rcases Nat.lt_trichotomy id q.puts.length with hlt | rfl | hgt
    · exact Or.inl ((List.getElem?_append_left hlt).symm.trans hp)
    · have hnew : (q.put depth item).puts[q.puts.length]? = _ := List.getElem?_concat_length
      exact Or.inr ⟨rfl, (Option.some.inj (hnew.symm.trans hp)).symm⟩
    · have hlength : (q.put depth item).puts.length = q.puts.length + 1 := List.length_append
      have hnone := List.getElem?_eq_none (l := (q.put depth item).puts) (by omega : _ ≤ id)
      exact nomatch hnone.symm.trans hp
  by_cases hroom : q.queue.length < depth
  case pos =>
    have hqueue : (q.put depth item).queue = q.queue ++ [⟨q.epoch, item, q.puts.length⟩] := if_pos hroom
    have hpending : (q.put depth item).pending = q.pending ++ [⟨q.epoch, item, q.puts.length⟩] := by
      rw [pending, hqueue, ← List.append_assoc]
      rfl
    have hids : (q.put depth item).admitted.map EpochAdmission.id ++
        (q.put depth item).pending.map EpochMessage.id =
          q.admitted.map EpochAdmission.id ++ q.pending.map EpochMessage.id ++ [q.puts.length] := by
      rw [hpending, List.map_append, ← List.append_assoc]
      rfl
    have hnew : (q.put depth item).puts[q.puts.length]? = some ⟨item, q.invalidations, true⟩ := by
      rw [EpochQueue.put, decide_eq_true hroom]
      exact List.getElem?_concat_length
    refine ⟨h.epoch, ?_, ?_, hpast, ?_, ?_, hadmitted, ?_⟩
    · rw [hqueue, List.length_append]
      exact hroom
    · rw [hids, List.pairwise_append]
      refine ⟨h.order, List.pairwise_singleton _ _, fun id hid last hlast => ?_⟩
      exact List.mem_singleton.mp hlast ▸ h.id_lt hid
    · intro m hm
      rcases List.mem_append.mp (hqueue ▸ hm) with hm | hm
      · exact hold (h.queued m hm)
      · exact List.mem_singleton.mp hm ▸ hnew
    · intro m hm
      rcases List.mem_append.mp (hpending ▸ hm) with hm | hm
      · obtain ⟨n, hp, hepoch⟩ := h.source m hm
        exact ⟨n, hold hp, hepoch⟩
      · obtain rfl := List.mem_singleton.mp hm
        exact ⟨q.invalidations, hnew, h.epoch⟩
    · intro id p hp hqueued hnow
      rw [hids]
      rcases hcases hp with hp | ⟨rfl, -⟩
      · exact List.mem_append_left _ (h.kept id p hp hqueued hnow)
      · exact List.mem_append_right _ List.mem_cons_self
  case neg =>
    have hqueue : (q.put depth item).queue = q.queue := if_neg hroom
    have hpending : (q.put depth item).pending = q.pending := congrArg (q.held.toList ++ ·) hqueue
    refine ⟨h.epoch, hqueue ▸ h.length, hpending ▸ h.order, hpast, ?_, ?_, hadmitted, ?_⟩
    · intro m hm
      exact hold (h.queued m (hqueue ▸ hm))
    · intro m hm
      obtain ⟨n, hp, hepoch⟩ := h.source m (hpending ▸ hm)
      exact ⟨n, hold hp, hepoch⟩
    · intro id p hp hqueued hnow
      rw [hpending]
      rcases hcases hp with hp | ⟨-, rfl⟩
      · exact h.kept id p hp hqueued hnow
      · exact absurd (of_decide_eq_true hqueued) hroom

theorem Valid.take (h : q.Valid depth) : q.take.Valid depth := by
  unfold EpochQueue.take
  split
  case h_2 => exact h
  case h_1 m rest hheld hqueue =>
    have hpending : ({ q with held := some m, queue := rest } : EpochQueue α w).pending = q.pending := by
      rw [pending, pending, hheld, hqueue]
      rfl
    have hlength := h.length
    rw [hqueue, List.length_cons] at hlength
    refine ⟨h.epoch, Nat.le_of_succ_le hlength, hpending ▸ h.order, h.past, fun m hm => ?_, hpending ▸ h.source,
      h.admitted, hpending ▸ h.kept⟩
    exact h.queued m (hqueue ▸ List.mem_cons_of_mem _ hm)

/-- Epochs are equal only a multiple of `2 ^ w` invalidations apart. -/
theorem dvd_of_ofNat_eq {n n' : ℕ} (hle : n ≤ n') (h : BitVec.ofNat w n = BitVec.ofNat w n') : 2 ^ w ∣ n' - n := by
  have hmod := congrArg BitVec.toNat h
  rw [BitVec.toNat_ofNat, BitVec.toNat_ofNat] at hmod
  exact (Nat.modEq_iff_dvd' hle).mp hmod

theorem Valid.check (h : q.Valid depth) : q.check.Valid depth := by
  unfold EpochQueue.check
  split
  case h_1 => exact h
  case h_2 m hheld =>
    have hbefore : q.pending = m :: q.queue := by
      rw [pending, hheld]
      rfl
    obtain ⟨n, hput, hepoch⟩ := h.source m (hbefore ▸ List.mem_cons_self)
    have hids : q.admitted.map EpochAdmission.id ++ q.pending.map EpochMessage.id =
        q.admitted.map EpochAdmission.id ++ [m.id] ++ q.queue.map EpochMessage.id := by
      rw [hbefore, List.map_cons, List.append_assoc]
      rfl
    have horder := h.order
    have hkept := h.kept
    rw [hids] at horder
    simp only [hids] at hkept
    have hsource : ∀ m ∈ q.queue, ∃ n, q.puts[m.id]? = some ⟨m.item, n, true⟩ ∧ m.epoch = BitVec.ofNat w n :=
      fun m hm => h.source m (hbefore ▸ List.mem_cons_of_mem _ hm)
    split
    case isTrue hcurrent =>
      have hids' : (q.admitted ++ [(⟨m.id, q.invalidations⟩ : EpochAdmission)]).map EpochAdmission.id =
          q.admitted.map EpochAdmission.id ++ [m.id] := List.map_append
      refine ⟨h.epoch, h.length, ?_, h.past, h.queued, hsource, ?_, ?_⟩
      · show ((q.admitted ++ [(⟨m.id, q.invalidations⟩ : EpochAdmission)]).map EpochAdmission.id ++ _).Pairwise _
        rw [hids']
        exact horder
      · intro a ha
        rcases List.mem_append.mp ha with ha | ha
        · exact h.admitted a ha
        · obtain rfl := List.mem_singleton.mp ha
          have hpast : n ≤ q.invalidations := h.past _ (List.mem_of_getElem? hput)
          have hsame : BitVec.ofNat w n = BitVec.ofNat w q.invalidations := hepoch.symm.trans (hcurrent.trans h.epoch)
          exact ⟨⟨m.item, n, true⟩, hput, rfl, hpast, dvd_of_ofNat_eq hpast hsame⟩
      · show ∀ id p, _ → _ → _ →
          id ∈ (q.admitted ++ [(⟨m.id, q.invalidations⟩ : EpochAdmission)]).map EpochAdmission.id ++ _
        rw [hids']
        exact hkept
    case isFalse hold =>
      refine ⟨h.epoch, h.length, ?_, h.past, h.queued, hsource, h.admitted, fun id p hp hqueued hnow => ?_⟩
      · refine horder.sublist ?_
        rw [List.append_assoc]
        exact List.Sublist.append_left (List.sublist_append_right _ _) _
      · have hid := hkept id p hp hqueued hnow
        have hne : id ≠ m.id := by
          rintro rfl
          obtain rfl := Option.some.inj (hput.symm.trans hp)
          obtain rfl : n = q.invalidations := hnow
          exact hold (hepoch.trans h.epoch.symm)
        rcases List.mem_append.mp hid with hid | hid
        · rcases List.mem_append.mp hid with hid | hid
          · exact List.mem_append_left _ hid
          · exact absurd (List.mem_singleton.mp hid) hne
        · exact List.mem_append_right _ hid

theorem Valid.invalidate (h : q.Valid depth) : q.invalidate.Valid depth := by
  have hpending : q.invalidate.pending = q.held.toList := List.append_nil _
  have hheld : ∀ m ∈ q.held.toList, m ∈ q.pending := fun m hm => List.mem_append_left _ hm
  refine ⟨?_, Nat.zero_le _, ?_, fun p hp => Nat.le_succ_of_le (h.past p hp), fun m hm => absurd hm List.not_mem_nil,
    fun m hm => h.source m (hheld m (hpending ▸ hm)), h.admitted, fun id p hp _ hnow => ?_⟩
  · show q.epoch + 1 = BitVec.ofNat w (q.invalidations + 1)
    rw [h.epoch, BitVec.ofNat_add]
    rfl
  · rw [hpending]
    refine h.order.sublist (List.Sublist.append_left (List.Sublist.map _ ?_) _)
    exact List.sublist_append_left _ _
  · have hpast := h.past p (List.mem_of_getElem? hp)
    have hnext : p.invalidations = q.invalidations + 1 := hnow
    omega

/-! ## Progress -/

/-- The item that is held is checked, and the next one is taken and checked, so many times. -/
def drain (q : EpochQueue α w) : ℕ → EpochQueue α w
  | 0 => q.check
  | n + 1 => q.check.take.drain n

theorem check_held (q : EpochQueue α w) : q.check.held = none := by
  unfold check
  split
  case h_1 hheld => exact hheld
  case h_2 => rfl

theorem check_queue (q : EpochQueue α w) : q.check.queue = q.queue := by
  unfold check
  split <;> rfl

theorem take_queue (hheld : q.held = none) : q.take.queue = q.queue.tail := by
  unfold take
  rw [hheld]
  cases hqueue : q.queue with
  | nil => exact hqueue
  | cons m rest => rfl

theorem take_puts (q : EpochQueue α w) : q.take.puts = q.puts ∧ q.take.invalidations = q.invalidations := by
  unfold take
  split
  · exact ⟨rfl, rfl⟩
  · exact ⟨rfl, rfl⟩

theorem check_puts (q : EpochQueue α w) : q.check.puts = q.puts ∧ q.check.invalidations = q.invalidations := by
  unfold check
  split
  · exact ⟨rfl, rfl⟩
  · exact ⟨rfl, rfl⟩

theorem drain_spec (q : EpochQueue α w) (n : ℕ) (hn : q.queue.length ≤ n) :
    (q.drain n).pending = [] ∧ (q.drain n).puts = q.puts ∧ (q.drain n).invalidations = q.invalidations := by
  induction n generalizing q with
  | zero =>
    have hempty : q.queue = [] := List.eq_nil_of_length_eq_zero (Nat.le_zero.mp hn)
    refine ⟨?_, q.check_puts.1, q.check_puts.2⟩
    show q.check.held.toList ++ q.check.queue = []
    rw [check_held, check_queue, hempty]
    rfl
  | succ n ih =>
    have hqueue : q.check.take.queue = q.queue.tail := by rw [take_queue q.check_held, check_queue]
    obtain ⟨hpending, hputs, hcount⟩ := ih q.check.take (by rw [hqueue, List.length_tail]; omega)
    refine ⟨hpending, hputs.trans ?_, hcount.trans ?_⟩
    · rw [q.check.take_puts.1, q.check_puts.1]
    · rw [q.check.take_puts.2, q.check_puts.2]

theorem Valid.drain (h : q.Valid depth) (n : ℕ) : (q.drain n).Valid depth := by
  induction n generalizing q with
  | zero => exact h.check
  | succ n ih => exact ih h.check.take

/-- What was put into the queue and not invalidated is admitted once the queue is drained. -/
theorem Valid.drained_admitted (h : q.Valid depth) {n : ℕ} (hn : q.queue.length ≤ n) {id : ℕ} {p : EpochPut α}
    (hp : q.puts[id]? = some p) (hqueued : p.queued = true) (hnow : p.invalidations = q.invalidations) :
    id ∈ (q.drain n).admitted.map EpochAdmission.id := by
  obtain ⟨hpending, hputs, hcount⟩ := q.drain_spec n hn
  have hkept := (h.drain n).kept id p (hputs ▸ hp) hqueued (hnow.trans hcount.symm)
  rwa [hpending, List.map_nil, List.append_nil] at hkept

end EpochQueue

end SlimeReceiver
