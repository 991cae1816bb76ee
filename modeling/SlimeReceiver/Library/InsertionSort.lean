import Mathlib.Data.List.Sort
import Mathlib.Logic.Function.Basic

/-! # Sorting an array in place

An array is a function of the index. The order is given by a test `before`, as a program has it.

* **`shiftInto`** — a key moves down past the entries it comes before; **`sortPasses`** — one pass for each entry.
* **`entries_sortPasses`** — the passes are an insertion sort from the end; **`sortPasses_perm`** and
  **`sortPasses_pairwise`** — the array is a permutation in order.
* **`pickFirst`** — a linear scan for the first in the order, and **`pickFirst_eq_head`**. -/

namespace SlimeReceiver

open Function (update update_self update_of_ne)

universe u

variable {α : Type u} (before : α → α → Bool)

/-! ## The loops -/

/-- The inner loop: the entries below `j` that come after the key move up, and the key takes the place that is left. -/
def shiftInto (key : α) : ℕ → (ℕ → α) → ℕ → α
  | 0, array => update array 0 key
  | j + 1, array =>
    if before key (array j) then shiftInto key j (update array (j + 1) (array j)) else update array (j + 1) key

/-- The outer loop: after `i` passes the entries up to `i` are in order. -/
def sortPasses : ℕ → (ℕ → α) → ℕ → α
  | 0, array => array
  | i + 1, array => shiftInto before (sortPasses i array (i + 1)) (i + 1) (sortPasses i array)

/-- The first entries, the last of them in front. -/
def entriesDown (array : ℕ → α) : ℕ → List α
  | 0 => []
  | n + 1 => array n :: entriesDown array n

/-- The first in the order so far. -/
def pickFirst (best : Option α) (x : α) : Option α :=
  match best with
  | none => some x
  | some b => if before x b then some x else some b

/-! ## The array -/

section Array

variable {before} {array : ℕ → α} {key x : α}

theorem entriesDown_succ (array : ℕ → α) (n : ℕ) : entriesDown array (n + 1) = array n :: entriesDown array n := rfl

theorem entriesDown_eq (array : ℕ → α) (n : ℕ) : entriesDown array n = ((List.range n).map array).reverse := by
  induction n with
  | zero => rfl
  | succ n ih => rw [entriesDown, ih, List.range_succ, List.map_append, List.reverse_append]; rfl

/-- What lies beyond the entries does not matter. -/
theorem entriesDown_update {i n : ℕ} (h : n ≤ i) (x : α) : entriesDown (update array i x) n = entriesDown array n := by
  induction n with
  | zero => rfl
  | succ n ih => rw [entriesDown, entriesDown, ih (Nat.le_of_succ_le h), update_of_ne (Nat.ne_of_lt h)]

theorem shiftInto_above {i j : ℕ} (h : j < i) : shiftInto before key j array i = array i := by
  induction j generalizing array with
  | zero => exact update_of_ne h.ne' _ _
  | succ j ih =>
    rw [shiftInto]
    split
    · rw [ih (Nat.lt_of_succ_lt h), update_of_ne h.ne']
    · exact update_of_ne h.ne' _ _

theorem sortPasses_above {i k : ℕ} (h : i < k) : sortPasses before i array k = array k := by
  induction i with
  | zero => rfl
  | succ i ih => rw [sortPasses, shiftInto_above h, ih (Nat.lt_of_succ_lt h)]

/-- The inner loop inserts the key in order. -/
theorem entries_shiftInto (key : α) (j : ℕ) (array : ℕ → α) : entriesDown (shiftInto before key j array) (j + 1) =
    (entriesDown array j).orderedInsert (fun x y => ¬before x y = true) key := by
  induction j generalizing array with
  | zero => rw [shiftInto, entriesDown_succ, update_self]; rfl
  | succ j ih =>
    rw [entriesDown_succ, entriesDown_succ array, List.orderedInsert_cons, shiftInto]
    by_cases hbefore : before key (array j) = true
    · rw [if_pos hbefore, if_neg (not_not.mpr hbefore), shiftInto_above (Nat.lt_succ_self j), update_self, ih,
        entriesDown_update (Nat.le_succ j)]
    · rw [if_neg hbefore, if_pos hbefore, update_self, entriesDown_update (le_refl _), entriesDown_succ]

/-- **The passes are an insertion sort.** -/
theorem entries_sortPasses (before : α → α → Bool) (i : ℕ) (array : ℕ → α) :
    entriesDown (sortPasses before i array) (i + 1) = (entriesDown array (i + 1)).insertionSort fun x y => ¬before x y = true := by
  induction i with
  | zero => rfl
  | succ i ih =>
    rw [sortPasses, entries_shiftInto, ih, sortPasses_above (Nat.lt_succ_self i), entriesDown_succ array (i + 1),
      List.insertionSort_cons]

theorem sortPasses_perm (before : α → α → Bool) (i : ℕ) (array : ℕ → α) :
    ((List.range (i + 1)).map (sortPasses before i array)).Perm ((List.range (i + 1)).map array) := by
  have hsort := entries_sortPasses before i array
  rw [entriesDown_eq, entriesDown_eq] at hsort
  refine (List.reverse_perm _).symm.trans ?_
  rw [hsort]
  exact (List.perm_insertionSort _ _).trans (List.reverse_perm _)

end Array

/-! ## The order -/

section Order

variable {before} [IsStrictTotalOrder α fun x y => before x y = true]

theorem not_before_self (x : α) : ¬before x x = true := irrefl_of (fun x y => before x y = true) x

theorem before_or_before {x y : α} (h : x ≠ y) : before x y = true ∨ before y x = true := by
  rcases trichotomous_of (fun x y => before x y = true) x y with hxy | hxy | hyx
  · exact Or.inl hxy
  · exact absurd hxy h
  · exact Or.inr hyx

theorem before_asymm {x y : α} (h : before x y = true) : ¬before y x = true := fun hyx =>
  not_before_self x (trans_of (fun x y => before x y = true) h hyx)

theorem not_before_trans {x y z : α} (hxy : ¬before x y = true) (hyz : ¬before y z = true) : ¬before x z = true := by
  intro hxz
  by_cases h : x = y
  · exact hyz (h ▸ hxz)
  · have hyx := (before_or_before h).resolve_left hxy
    exact hyz (trans_of (fun x y => before x y = true) hyx hxz)

/-- The sorted array goes up in the order. -/
theorem sortPasses_pairwise {i : ℕ} {array : ℕ → α} (hnodup : ((List.range (i + 1)).map array).Nodup) :
    ((List.range (i + 1)).map (sortPasses before i array)).Pairwise fun x y => before x y = true := by
  have hsort := entries_sortPasses before i array
  have : Std.Total fun x y : α => ¬before x y = true := ⟨fun x y => by
    by_cases h : before x y = true
    · exact Or.inr (before_asymm h)
    · exact Or.inl h⟩
  have : IsTrans α fun x y : α => ¬before x y = true := ⟨fun _ _ _ => not_before_trans⟩
  have hdown := List.pairwise_insertionSort (fun x y : α => ¬before x y = true) (entriesDown array (i + 1))
  rw [← hsort, entriesDown_eq, List.pairwise_reverse] at hdown
  have hdistinct := (sortPasses_perm before i array).nodup_iff.mpr hnodup
  refine (hdown.and hdistinct).imp fun ⟨hnot, hne⟩ => (before_or_before hne).resolve_right hnot

/-- The scan finds an entry that nothing comes before. -/
theorem foldl_pickFirst_some (l : List α) (b : α) : ∃ m, l.foldl (pickFirst before) (some b) = some m ∧
    m ∈ b :: l ∧ ∀ x ∈ b :: l, ¬before x m = true := by
  induction l generalizing b with
  | nil =>
    refine ⟨b, rfl, List.mem_singleton_self b, fun x hx => ?_⟩
    rw [List.mem_singleton.mp hx]
    exact not_before_self b
  | cons a l ih =>
    rw [List.foldl_cons]
    by_cases hbefore : before a b = true
    · -- the new entry takes the place of the best one, which it comes before
      obtain ⟨m, hm, hmem, hfirst⟩ := ih a
      rw [pickFirst, if_pos hbefore]
      refine ⟨m, hm, List.mem_cons_of_mem _ hmem, fun x hx => ?_⟩
      rcases List.mem_cons.mp hx with rfl | hx
      · exact fun h => hfirst a List.mem_cons_self (trans_of (fun x y => before x y = true) hbefore h)
      · exact hfirst x hx
    · obtain ⟨m, hm, hmem, hfirst⟩ := ih b
      rw [pickFirst, if_neg hbefore]
      refine ⟨m, hm, ?_, fun x hx => ?_⟩
      · rcases List.mem_cons.mp hmem with rfl | hmem
        · exact List.mem_cons_self
        · exact List.mem_cons_of_mem _ (List.mem_cons_of_mem _ hmem)
      · rcases List.mem_cons.mp hx with rfl | hx
        · exact hfirst x List.mem_cons_self
        · rcases List.mem_cons.mp hx with rfl | hx
          · exact not_before_trans hbefore (hfirst b List.mem_cons_self)
          · exact hfirst x (List.mem_cons_of_mem _ hx)

/-- **The scan finds the head of the list in order.** -/
theorem pickFirst_eq_head {l s : List α} (hperm : s.Perm l) (hsorted : s.Pairwise fun x y => before x y = true) :
    l.foldl (pickFirst before) none = s.head? := by
  cases l with
  | nil => rw [hperm.eq_nil]; rfl
  | cons b l =>
    obtain ⟨m, hm, hmem, hfirst⟩ : ∃ m, l.foldl (pickFirst before) (some b) = some m ∧ m ∈ b :: l ∧
        ∀ x ∈ b :: l, ¬before x m = true := foldl_pickFirst_some l b
    rw [List.foldl_cons, pickFirst, hm]
    cases s with
    | nil => exact absurd hperm.symm.eq_nil (List.cons_ne_nil b l)
    | cons h t =>
      rcases List.mem_cons.mp (hperm.mem_iff.mpr hmem) with rfl | hlater
      · rfl
      · exact absurd ((List.pairwise_cons.mp hsorted).1 m hlater) (hfirst h (hperm.mem_iff.mp List.mem_cons_self))

end Order

end SlimeReceiver
