import Mathlib.Logic.Function.Basic
import SlimeReceiver.Library.CountedLoop

/-! # NOR flash

A flash memory is a function from word numbers to words. Erasing sets every bit of a range, programming a
word clears bits only.

* **`eraseWords`**, **`programWord`** — the two operations.
* **`copyWords`** — words programmed one after the other from another range.
* **`copyWords_erased`** — onto an erased range this is a copy. -/

namespace SlimeReceiver

open Function (update update_self update_of_ne)

variable {w : ℕ}

/-- The words from `start` on are erased. -/
def eraseWords (start len : ℕ) (flash : ℕ → BitVec w) : ℕ → BitVec w := fun a =>
  if start ≤ a ∧ a < start + len then BitVec.allOnes w else flash a

/-- A word is programmed: no bit of it is set. -/
def programWord (a : ℕ) (value : BitVec w) (flash : ℕ → BitVec w) : ℕ → BitVec w :=
  update flash a (flash a &&& value)

/-- Words are programmed in ascending order from another range. -/
def copyWords (dst src len : ℕ) (flash : ℕ → BitVec w) : ℕ → BitVec w :=
  forBelow len (fun flash k => programWord (dst + k) (flash (src + k)) flash) flash

section Words

variable {start len dst src a : ℕ} {flash : ℕ → BitVec w}

theorem eraseWords_of_mem (hle : start ≤ a) (hlt : a < start + len) :
    eraseWords start len flash a = BitVec.allOnes w := if_pos ⟨hle, hlt⟩

theorem eraseWords_of_not_mem (h : a < start ∨ start + len ≤ a) : eraseWords start len flash a = flash a :=
  if_neg fun hmem => h.elim (not_lt.mpr hmem.1) (not_le.mpr hmem.2)

/-- A word outside both ranges, or in the source, is left alone; a word of the target keeps the bits both have. -/
theorem copyWords_apply (hdisjoint : src + len ≤ dst ∨ dst + len ≤ src) (a : ℕ) :
    copyWords dst src len flash a =
      if dst ≤ a ∧ a < dst + len then flash a &&& flash (src + (a - dst)) else flash a := by
  refine forBelow_invariant (P := fun k (r : ℕ → BitVec w) => ∀ a, r a =
      if dst ≤ a ∧ a < dst + k then flash a &&& flash (src + (a - dst)) else flash a)
    (fun a => (if_neg fun hmem => not_lt.mpr hmem.1 hmem.2).symm) (fun k r hk hr a => ?_) a
  rw [programWord]
  by_cases ha : a = dst + k
  · subst ha
    rw [update_self, hr, hr, if_neg (by omega), if_neg (by omega), if_pos (by omega), Nat.add_sub_cancel_left]
  · rw [update_of_ne ha, hr]
    by_cases hmem : dst ≤ a ∧ a < dst + k
    · rw [if_pos hmem, if_pos (by omega)]
    · rw [if_neg hmem, if_neg (by omega)]

/-- Copying into an erased range. -/
theorem copyWords_erased {page : ℕ} (hlen : len ≤ page)
    (hdisjoint : src + len ≤ dst ∨ dst + page ≤ src) {k : ℕ} (hk : k < len) :
    copyWords dst src len (eraseWords dst page flash) (dst + k) = flash (src + k) := by
  rw [copyWords_apply (by omega), if_pos (by omega), eraseWords_of_mem (by omega) (by omega),
    Nat.add_sub_cancel_left, eraseWords_of_not_mem (by omega), BitVec.allOnes_and]

/-- It changes nothing outside the erased range. -/
theorem copyWords_eraseWords_of_not_mem {page : ℕ} (hlen : len ≤ page)
    (hdisjoint : src + len ≤ dst ∨ dst + page ≤ src) (h : a < dst ∨ dst + page ≤ a) :
    copyWords dst src len (eraseWords dst page flash) a = flash a := by
  rw [copyWords_apply (by omega), if_neg (by omega), eraseWords_of_not_mem h]

end Words

end SlimeReceiver
