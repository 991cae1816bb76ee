import Mathlib.Data.List.Nodup
import Mathlib.Data.List.Perm.Subperm
import Mathlib.Logic.Function.Basic

/-! # The newest items in a ring

A ring of `n` slots keeps the newest `n` items pushed into it, in an order that depends on the cursor.

* **`RingHolds`** — which item is in which slot.
* **`RingHolds.push`** — pushing an item.
* **`RingHolds.perm`** — a full ring read from its first slot to its last gives the newest items, in
  some order. -/

namespace SlimeReceiver

open Function (update)

universe u

variable {α : Type u} {n count cursor : ℕ} {slots : ℕ → α} {items : List α}

/-- A ring of `n` slots holds the newest of `items`, which are listed from the newest on. -/
structure RingHolds (n : ℕ) (slots : ℕ → α) (count cursor : ℕ) (items : List α) : Prop where
  cursor_eq : cursor = items.length % n
  count_eq : count = min n items.length
  slot_eq : ∀ k x, k < n → items[k]? = some x → slots ((items.length - 1 - k) % n) = x

theorem RingHolds.nil (n : ℕ) (slots : ℕ → α) : RingHolds n slots 0 0 [] where
  cursor_eq := (Nat.zero_mod n).symm
  count_eq := (Nat.min_zero n).symm
  slot_eq k x _ hx := by cases hx

/-- Items pushed less than `n` steps apart are in different slots. -/
theorem mod_ne_mod_sub {m d : ℕ} (hd : 0 < d) (hn : d < n) (hm : d ≤ m) : (m - d) % n ≠ m % n := by
  intro hsame
  have hzero := Nat.sub_mod_eq_zero_of_mod_eq hsame.symm
  rw [Nat.sub_sub_self hm, Nat.mod_eq_of_lt hn] at hzero
  omega

/-- An item pushed at the cursor. -/
theorem RingHolds.push (h : RingHolds n slots count cursor items) (x : α) :
    RingHolds n (update slots cursor x) (if count < n then count + 1 else count)
      ((cursor + 1) % n) (x :: items) where
  cursor_eq := by
    rw [h.cursor_eq, List.length_cons, Nat.mod_add_mod]
  count_eq := by
    rw [h.count_eq, List.length_cons]
    split <;> omega
  slot_eq k y hk hy := by
    cases k with
    | zero =>
      have hplace : (x :: items).length - 1 - 0 = items.length := rfl
      rw [hplace, ← h.cursor_eq, Function.update_self]
      exact Option.some.inj hy
    | succ k =>
      rw [List.getElem?_cons_succ] at hy
      have hinside := (List.getElem?_eq_some_iff.mp hy).1
      have hplace : (x :: items).length - 1 - (k + 1) = items.length - (k + 1) := rfl
      have hother : (items.length - (k + 1)) % n ≠ cursor := by
        rw [h.cursor_eq]
        exact mod_ne_mod_sub (Nat.succ_pos k) hk hinside
      rw [hplace, Function.update_of_ne hother, Nat.sub_add_eq, Nat.sub_right_comm]
      exact h.slot_eq k y (by omega) hy

/-- The slots of a full ring hold the newest items. -/
theorem RingHolds.perm (h : RingHolds n slots count cursor items) (hfull : n ≤ items.length) :
    ((List.range n).map slots).Perm (items.take n) := by
  rcases Nat.eq_zero_or_pos n with rfl | hn
  · exact .nil
  have hindex : ((List.range n).map fun k => (items.length - 1 - k) % n).Perm (List.range n) := by
    have hnodup : ((List.range n).map fun k => (items.length - 1 - k) % n).Nodup := by
      refine List.nodup_range.map_on fun a ha b hb hab => ?_
      rw [List.mem_range] at ha hb
      by_contra hne
      rcases Nat.lt_or_gt_of_ne hne with hlt | hlt
      · have hback : items.length - 1 - b = items.length - 1 - a - (b - a) := by omega
        exact mod_ne_mod_sub (by omega) (by omega) (by omega) (hback ▸ hab.symm)
      · have hback : items.length - 1 - a = items.length - 1 - b - (a - b) := by omega
        exact mod_ne_mod_sub (by omega) (by omega) (by omega) (hback ▸ hab)
    refine (hnodup.subperm fun k hk => ?_).perm_of_length_le (by simp)
    obtain ⟨a, -, rfl⟩ := List.mem_map.mp hk
    exact List.mem_range.mpr (Nat.mod_lt _ hn)
  have htake : items.take n =
      (List.range n).map fun k => slots ((items.length - 1 - k) % n) := by
    refine List.ext_getElem? fun k => ?_
    rw [List.getElem?_take, List.getElem?_map]
    by_cases hk : k < n
    · rw [if_pos hk, List.getElem?_range hk]
      obtain ⟨x, hx⟩ : ∃ x, items[k]? = some x := ⟨_, List.getElem?_eq_getElem (Nat.lt_of_lt_of_le hk hfull)⟩
      rw [hx, Option.map_some, h.slot_eq k x hk hx]
    · rw [if_neg hk, List.getElem?_eq_none (by simpa using hk)]
      rfl
  rw [htake]
  have hslots := (hindex.map slots).symm
  rwa [List.map_map] at hslots

end SlimeReceiver
