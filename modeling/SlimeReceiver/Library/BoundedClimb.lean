import Mathlib.Data.List.Sort
import Mathlib.Data.Int.Order.Basic
import Mathlib.Tactic.Common

/-! # Climbing lists of integers

A list that goes up from a starting point, by at most `d` at a time: what a priority queue of
positions holds when no position is pushed further than `d` beyond the highest one.

* **`Climbs d a l`** — `l` climbs from `a` in steps of at most `d`; **`summit a l`** — where it ends.
* **`Climbs.insert`**, **`Climbs.summit_insert`** — a position pushed into the queue.
* **`Climbs.length_le`** — a climb is no longer than it is high. -/

namespace SlimeReceiver

/-- The list climbs from `a`, by at most `d` at a time. -/
def Climbs (d : ℤ) : ℤ → List ℤ → Prop
  | _, [] => True
  | a, b :: l => a < b ∧ b ≤ a + d ∧ Climbs d b l

/-- Where a climb from `a` ends. -/
def summit : ℤ → List ℤ → ℤ
  | a, [] => a
  | _, b :: l => summit b l

@[simp] theorem climbs_nil (d a : ℤ) : Climbs d a [] := trivial

@[simp] theorem summit_nil (a : ℤ) : summit a [] = a := rfl

@[simp] theorem summit_cons (a b : ℤ) (l : List ℤ) : summit a (b :: l) = summit b l := rfl

variable {d a x p : ℤ} {l : List ℤ}

namespace Climbs

/-- Everything lies above the start. -/
theorem lt_of_mem (h : Climbs d a l) (hp : p ∈ l) : a < p := by
  induction l generalizing a with
  | nil => cases hp
  | cons b l ih =>
    obtain ⟨hab, -, hl⟩ := h
    rcases List.mem_cons.mp hp with rfl | hp
    · exact hab
    · exact hab.trans (ih hl hp)

/-- The summit is not below the start. -/
theorem le_summit (h : Climbs d a l) : a ≤ summit a l := by
  induction l generalizing a with
  | nil => exact le_rfl
  | cons b l ih => exact h.1.le.trans (ih h.2.2)

/-- The list goes strictly up. -/
theorem pairwise (h : Climbs d a l) : l.Pairwise (· < ·) := by
  induction l generalizing a with
  | nil => exact .nil
  | cons b l ih => exact .cons (fun p hp => h.2.2.lt_of_mem hp) (ih h.2.2)

/-- A climb is no longer than it is high. -/
theorem length_le (h : Climbs d a l) : (l.length : ℤ) ≤ summit a l - a := by
  induction l generalizing a with
  | nil => simp
  | cons b l ih =>
    have hrest := ih h.2.2
    have hstep := h.1
    rw [summit_cons, List.length_cons]
    push_cast
    omega

/-- A new position, at most `d` beyond the summit. -/
theorem insert (h : Climbs d a l) (hlow : a < x) (hhigh : x ≤ summit a l + d) (hnew : x ∉ l) :
    Climbs d a (l.orderedInsert (· ≤ ·) x) := by
  induction l generalizing a with
  | nil => exact ⟨hlow, hhigh, trivial⟩
  | cons b l ih =>
    obtain ⟨hab, hstep, hl⟩ := h
    rw [List.orderedInsert_cons]
    split
    case isTrue hle =>
      have hlt : x < b := lt_of_le_of_ne hle fun heq => hnew (heq ▸ List.mem_cons_self)
      exact ⟨hlow, by omega, hlt, by omega, hl⟩
    case isFalse hle =>
      exact ⟨hab, hstep, ih hl (not_le.mp hle) hhigh fun hmem => hnew (List.mem_cons_of_mem _ hmem)⟩

/-- A new position raises the summit to itself, or not at all. -/
theorem summit_insert (h : Climbs d a l) (hlow : a < x) :
    summit a (l.orderedInsert (· ≤ ·) x) = max (summit a l) x := by
  induction l generalizing a with
  | nil => exact (max_eq_right hlow.le).symm
  | cons b l ih =>
    rw [List.orderedInsert_cons, summit_cons]
    split
    case isTrue hle => exact (max_eq_left (hle.trans h.2.2.le_summit)).symm
    case isFalse hle => exact ih h.2.2 (not_le.mp hle)

end Climbs

end SlimeReceiver
