import Mathlib.Algebra.Order.Group.Nat
import Mathlib.Data.List.GetD
import SlimeReceiver.Library.RingBuffer

/-! # A queue in a ring

A ring of `n` slots with a read and a write index holds the items between the two; one slot always
stays free, so that equal indices mean an empty queue.

* **`ringNext`** — the index after an index.
* **`Queued`** — the items a ring holds, oldest first.
* **`Queued.push`**, **`Queued.pop`**, **`Queued.keepHead`** — what the moves of the indices do.
* **`Queued.drop`**, **`Queued.contiguous`** — several items given back, and read without a wrap. -/

namespace SlimeReceiver

open Function (update update_self update_of_ne)

universe u

/-- The index after `i` in a ring of `n` slots. -/
def ringNext (n i : ℕ) : ℕ := if n ≤ i + 1 then 0 else i + 1

/-- The ring holds `items` from its read index on. -/
structure Queued {α : Type u} (n : ℕ) (slots : ℕ → α) (read write : ℕ) (items : List α) : Prop where
  read_lt : read < n
  write_eq : write = (read + items.length) % n
  room : items.length < n
  slot_eq : ∀ k (hk : k < items.length), slots ((read + k) % n) = items.get ⟨k, hk⟩

variable {α : Type u} {n read write : ℕ} {slots : ℕ → α} {items rest : List α} {x : α}

theorem ringNext_eq_mod {i : ℕ} (hi : i < n) : ringNext n i = (i + 1) % n := by
  unfold ringNext
  split
  case isTrue hwrap =>
    have hlast : i + 1 = n := by omega
    rw [hlast, Nat.mod_self]
  case isFalse hinside => rw [Nat.mod_eq_of_lt (by omega)]

theorem ringNext_lt {i : ℕ} (hi : i < n) : ringNext n i < n := by
  unfold ringNext
  split <;> omega

/-- Less than a lap apart, indices are different. -/
theorem add_mod_ne {j k : ℕ} (base : ℕ) (hj : j < n) (hk : k < n) (hne : j ≠ k) : (base + j) % n ≠ (base + k) % n := by
  rcases Nat.lt_or_gt_of_ne hne with hlt | hlt
  · have hback : base + j = base + k - (k - j) := by omega
    rw [hback]
    exact mod_ne_mod_sub (by omega) (by omega) (by omega)
  · have hback : base + k = base + j - (j - k) := by omega
    rw [hback]
    exact (mod_ne_mod_sub (by omega) (by omega) (by omega)).symm

theorem Queued.nil {i : ℕ} (hi : i < n) : Queued n slots i i [] where
  read_lt := hi
  write_eq := by rw [List.length_nil, Nat.add_zero, Nat.mod_eq_of_lt hi]
  room := Nat.zero_lt_of_lt hi
  slot_eq k hk := absurd hk (Nat.not_lt_zero k)

theorem Queued.write_lt (h : Queued n slots read write items) : write < n := by
  rw [h.write_eq]
  exact Nat.mod_lt _ (Nat.zero_lt_of_lt h.read_lt)

/-- Equal indices mean an empty queue. -/
theorem Queued.read_eq_write_iff (h : Queued n slots read write items) : read = write ↔ items = [] := by
  constructor
  · intro hsame
    by_contra hne
    have hpos := List.length_pos_iff.mpr hne
    refine add_mod_ne read (Nat.zero_lt_of_lt h.read_lt) h.room (Nat.ne_of_lt hpos) ?_
    rw [Nat.add_zero, Nat.mod_eq_of_lt h.read_lt, ← h.write_eq]
    exact hsame
  · intro hempty
    have hwrite := h.write_eq
    rw [hempty, List.length_nil, Nat.add_zero, Nat.mod_eq_of_lt h.read_lt] at hwrite
    exact hwrite.symm

/-- The oldest item is in the slot that is read. -/
theorem Queued.head (h : Queued n slots read write (x :: rest)) : slots read = x := by
  have hslot := h.slot_eq 0 (Nat.succ_pos _)
  rw [Nat.add_zero, Nat.mod_eq_of_lt h.read_lt] at hslot
  exact hslot

/-- An item is put into the free slot. -/
theorem Queued.push (h : Queued n slots read write items) (hroom : ringNext n write ≠ read) (x : α) :
    Queued n (update slots write x) read (ringNext n write) (items ++ [x]) := by
  have hnext : ringNext n write = (read + (items.length + 1)) % n := by
    rw [ringNext_eq_mod h.write_lt, h.write_eq, Nat.mod_add_mod, Nat.add_assoc]
  have hfull : items.length + 1 < n := by
    by_contra hle
    have hlap : items.length + 1 = n := by
      have hlt := h.room
      omega
    refine hroom ?_
    rw [hnext, hlap, Nat.add_mod_right, Nat.mod_eq_of_lt h.read_lt]
  have hlength : (items ++ [x]).length = items.length + 1 := List.length_append
  refine ⟨h.read_lt, hlength ▸ hnext, hlength ▸ hfull, fun k hk => ?_⟩
  rw [List.get_eq_getElem]
  by_cases hlast : k = items.length
  · subst hlast
    rw [← h.write_eq, update_self, List.getElem_concat_length rfl]
  · have hk' : k < items.length := by omega
    have hne : (read + k) % n ≠ write := by
      rw [h.write_eq]
      exact add_mod_ne _ (by omega) h.room hlast
    rw [update_of_ne hne, List.getElem_append_left hk']
    exact h.slot_eq k hk'

/-- The oldest item is given back. -/
theorem Queued.pop (h : Queued n slots read write (x :: rest)) :
    Queued n slots (ringNext n read) write rest := by
  have hnext := ringNext_eq_mod h.read_lt
  have hshift : ∀ k, ((read + 1) % n + k) % n = (read + (k + 1)) % n := by
    intro k
    rw [Nat.mod_add_mod, Nat.add_assoc, Nat.add_comm 1 k]
  have hroom := h.room
  rw [List.length_cons] at hroom
  refine ⟨ringNext_lt h.read_lt, ?_, by omega, fun k hk => ?_⟩
  · rw [hnext, hshift, h.write_eq, List.length_cons]
  · rw [hnext, hshift]
    exact h.slot_eq (k + 1) (Nat.succ_lt_succ hk)

/-- There is room for one more item. -/
theorem Queued.next_ne_read (h : Queued n slots read write items) (hroom : items.length + 1 < n) :
    ringNext n write ≠ read := by
  intro hsame
  have hzero : (read + 0) % n = read := Nat.mod_eq_of_lt h.read_lt
  rw [ringNext_eq_mod h.write_lt, h.write_eq, Nat.mod_add_mod, Nat.add_assoc] at hsame
  exact add_mod_ne read hroom (Nat.zero_lt_of_lt hroom) (Nat.succ_ne_zero _) (hsame.trans hzero.symm)

/-- The oldest items are given back. -/
theorem Queued.drop (h : Queued n slots read write items) {k : ℕ} (hk : k ≤ items.length) :
    Queued n slots ((read + k) % n) write (items.drop k) := by
  have hlength : (items.drop k).length = items.length - k := List.length_drop
  refine ⟨Nat.mod_lt _ (Nat.zero_lt_of_lt h.read_lt), ?_, ?_, fun j hj => ?_⟩
  · rw [hlength, Nat.mod_add_mod, h.write_eq, Nat.add_assoc, Nat.add_sub_cancel' hk]
  · exact hlength ▸ Nat.lt_of_le_of_lt (Nat.sub_le _ _) h.room
  · rw [Nat.mod_add_mod, Nat.add_assoc, h.slot_eq (k + j) (by omega), List.get_eq_getElem, List.get_eq_getElem,
      List.getElem_drop]

/-- The oldest items, read up to the end of the slots at most. -/
theorem Queued.contiguous (h : Queued n slots read write items) {k : ℕ} (hk : k ≤ items.length) (hend : read + k ≤ n) :
    (List.range k).map (fun i => slots (read + i)) = items.take k := by
  refine List.ext_getElem (by simpa using hk) fun i hi hi' => ?_
  rw [List.length_map, List.length_range] at hi
  have hslot := h.slot_eq i (by omega)
  rw [Nat.mod_eq_of_lt (by omega)] at hslot
  rw [List.getElem_map, List.getElem_range, List.getElem_take, hslot, List.get_eq_getElem]

/-- All items but the oldest are given up. -/
theorem Queued.keepHead (h : Queued n slots read write (x :: rest)) (hn : 1 < n) :
    Queued n slots read (ringNext n read) [x] := by
  refine ⟨h.read_lt, by rw [ringNext_eq_mod h.read_lt, List.length_singleton], hn, fun k hk => ?_⟩
  rw [List.length_singleton, Nat.lt_one_iff] at hk
  subst hk
  exact h.slot_eq 0 (Nat.succ_pos _)

end SlimeReceiver
