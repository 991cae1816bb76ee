import Mathlib.Data.Nat.Count
import Mathlib.Tactic.Common
import SlimeReceiver.Library.CountedLoop

/-! # Machine words as sets of small indices

A `BitVec w` used as a set: bit `i` says whether `i` is a member. The lemmas describe each
operation by what it does to one bit, so that a proof about a mask is a proof about one index.

* **`hasBit`**, **`bit i`**, **`setBit`**, **`clearBit`**, **`lowBits n`** (`& BIT(i)`, `BIT(i)`,
  `|=`, `&= ~`, `BIT(n) - 1`), each with its bit lemma.
* **`maskBelow n p`** — the mask a loop collects that sets bit `i` when `p i`.
* **`rankBelow m n`** — how many members lie below `n`; a strictly monotone numbering of the
  members. -/

namespace SlimeReceiver

variable {w : ℕ}

/-- Whether index `i` is a member: `m & BIT(i)`. -/
def hasBit (m : BitVec w) (i : ℕ) : Bool := m.getLsbD i

/-- The word with only bit `i` set. -/
def bit (w i : ℕ) : BitVec w := BitVec.twoPow w i

/-- Add index `i` to the mask. -/
def setBit (m : BitVec w) (i : ℕ) : BitVec w := m ||| bit w i

/-- Remove index `i` from the mask. -/
def clearBit (m : BitVec w) (i : ℕ) : BitVec w := m &&& ~~~bit w i

/-- The word whose members are exactly the indices below `n`, built as `BIT(n) - 1`. -/
def lowBits (w n : ℕ) : BitVec w := if n > 0 then bit w n - 1#w else 0

@[simp] theorem hasBit_zero (i : ℕ) : hasBit 0#w i = false := by simp [hasBit]

@[simp] theorem hasBit_bit (i j : ℕ) :
    hasBit (bit w i) j = (decide (i < w) && decide (i = j)) := BitVec.getLsbD_twoPow i j

@[simp] theorem hasBit_and (m m' : BitVec w) (i : ℕ) :
    hasBit (m &&& m') i = (hasBit m i && hasBit m' i) := BitVec.getLsbD_and

theorem hasBit_or (m m' : BitVec w) (i : ℕ) :
    hasBit (m ||| m') i = (hasBit m i || hasBit m' i) := BitVec.getLsbD_or

@[simp] theorem hasBit_setBit (m : BitVec w) (i j : ℕ) :
    hasBit (setBit m i) j = (hasBit m j || (decide (i < w) && decide (i = j))) := by
  rw [setBit, hasBit, BitVec.getLsbD_or]
  exact congrArg _ (hasBit_bit i j)

/-- Membership in the part of `m` that is not in `m'`. -/
@[simp] theorem hasBit_and_not (m m' : BitVec w) (i : ℕ) :
    hasBit (m &&& ~~~m') i = (hasBit m i && !hasBit m' i) := by
  simp only [hasBit, BitVec.getLsbD_and, BitVec.getLsbD_not]
  by_cases hi : i < w
  · rw [decide_eq_true hi, Bool.true_and]
  · rw [BitVec.getLsbD_of_ge m i (not_lt.mp hi), Bool.false_and, Bool.false_and]

@[simp] theorem hasBit_clearBit (m : BitVec w) (i j : ℕ) :
    hasBit (clearBit m i) j = (hasBit m j && !decide (i = j)) := by
  rw [clearBit, hasBit_and_not, hasBit_bit]
  by_cases hj : j < w
  · by_cases hij : i = j <;> simp [hij, hj]
  · rw [hasBit, BitVec.getLsbD_of_ge m j (not_lt.mp hj), Bool.false_and, Bool.false_and]

@[simp] theorem hasBit_lowBits {n : ℕ} (hn : n < w) (j : ℕ) :
    hasBit (lowBits w n) j = decide (j < n) := by
  have hword : lowBits w n = BitVec.ofNat w (2 ^ n - 1) := by
    have hpow : 2 ^ n < 2 ^ w := Nat.pow_lt_pow_right (by decide) hn
    have hpos : 0 < 2 ^ n := Nat.two_pow_pos n
    rcases Nat.eq_zero_or_pos n with rfl | hn0
    · simp [lowBits]
    · rw [lowBits, if_pos hn0]
      apply BitVec.eq_of_toNat_eq
      have hone : 1 % 2 ^ w = 1 := Nat.mod_eq_of_lt (by omega)
      simp only [bit, BitVec.toNat_sub, BitVec.toNat_twoPow, BitVec.toNat_ofNat, hone,
        Nat.mod_eq_of_lt hpow]
      rw [show 2 ^ w - 1 + 2 ^ n = 2 ^ n - 1 + 2 ^ w by omega, Nat.add_mod_right]
  rw [hword, hasBit, BitVec.getLsbD_ofNat, Nat.testBit_two_pow_sub_one]
  by_cases hj : j < n
  · simp [hj, hj.trans hn]
  · simp [hj]

/-- The full word has every index below the width. -/
@[simp] theorem hasBit_allOnes (j : ℕ) : hasBit (BitVec.allOnes w) j = decide (j < w) :=
  BitVec.getLsbD_allOnes

/-- Only indices below the width are members. -/
theorem lt_of_hasBit {m : BitVec w} {j : ℕ} (h : hasBit m j = true) : j < w :=
  BitVec.lt_of_getLsbD h

/-- Two masks with the same members are equal. -/
theorem mask_ext {m m' : BitVec w} (h : ∀ j, hasBit m j = hasBit m' j) : m = m' :=
  BitVec.eq_of_getLsbD_eq fun j _ => h j

/-- A mask is empty exactly when it has no member. -/
theorem mask_eq_zero_iff {m : BitVec w} : m = 0#w ↔ ∀ j, hasBit m j = false := by
  constructor
  · rintro rfl j
    exact hasBit_zero j
  · intro h
    exact mask_ext fun j => by rw [h j, hasBit_zero]

/-- A mask with a member is not empty. -/
theorem mask_ne_zero_of_mem {m : BitVec w} {j : ℕ} (h : hasBit m j = true) : m ≠ 0#w := by
  intro hm
  rw [mask_eq_zero_iff.mp hm j] at h
  exact Bool.false_ne_true h

/-- A nonempty mask has a member. -/
theorem exists_mem_of_mask_ne_zero {m : BitVec w} (h : m ≠ 0#w) : ∃ j, hasBit m j = true := by
  by_contra hnone
  push Not at hnone
  exact h (mask_eq_zero_iff.mpr fun j => by simpa using hnone j)

/-! ## Collecting a mask -/

/-- The mask with bit `i` set for every `i < n` with `p i`, collected by a loop. -/
def maskBelow (w n : ℕ) (p : ℕ → Bool) : BitVec w :=
  forBelow n (fun m i => if p i then setBit m i else m) 0#w

@[simp] theorem hasBit_maskBelow {n : ℕ} (hn : n ≤ w) (p : ℕ → Bool) (j : ℕ) :
    hasBit (maskBelow w n p) j = (decide (j < n) && p j) := by
  refine forBelow_invariant (P := fun n m => hasBit m j = (decide (j < n) && p j)) (by simp) ?_
  intro i m hi hm
  have hw : i < w := hi.trans_le hn
  rcases eq_or_ne i j with rfl | hij
  · cases hp : p i <;> simp [hp, hm, hw]
  · have hlt : j < i + 1 ↔ j < i := by omega
    cases hp : p i <;> simp [hm, hij, hlt]

/-! ## Numbering the members -/

/-- How many members of the mask lie below `n`. -/
def rankBelow (m : BitVec w) (n : ℕ) : ℕ := Nat.count (fun j => hasBit m j = true) n

@[simp] theorem rankBelow_zero (m : BitVec w) : rankBelow m 0 = 0 := Nat.count_zero _

theorem rankBelow_succ (m : BitVec w) (n : ℕ) :
    rankBelow m (n + 1) = rankBelow m n + if hasBit m n = true then 1 else 0 :=
  Nat.count_succ _ n

theorem rankBelow_le (m : BitVec w) (n : ℕ) : rankBelow m n ≤ n := Nat.count_le _

/-- Members are numbered strictly upwards. -/
theorem rankBelow_lt {m : BitVec w} {i j : ℕ} (hi : hasBit m i = true) (hij : i < j) :
    rankBelow m i < rankBelow m j := Nat.count_strict_mono hi hij

/-- No two members get the same number. -/
theorem rankBelow_injective {m : BitVec w} {i j : ℕ} (hi : hasBit m i = true)
    (hj : hasBit m j = true) (h : rankBelow m i = rankBelow m j) : i = j :=
  Nat.count_injective hi hj h

/-- Past the last member the number of members below does not grow. -/
theorem rankBelow_eq_of_none {m : BitVec w} {k n : ℕ} (hkn : k ≤ n)
    (hnone : ∀ j, k ≤ j → hasBit m j = false) : rankBelow m n = rankBelow m k := by
  induction n, hkn using Nat.le_induction with
  | base => rfl
  | succ n hn ih => simp [rankBelow_succ, hnone n hn, ih]

/-- Counting members is positive exactly when there is one in range. -/
theorem rankBelow_pos_iff {m : BitVec w} {n : ℕ} :
    0 < rankBelow m n ↔ ∃ j < n, hasBit m j = true := by
  constructor
  · intro h
    by_contra hnone
    push Not at hnone
    induction n with
    | zero => simp at h
    | succ n ih =>
      have hn : hasBit m n = false := by simpa using hnone n (by omega)
      exact ih (by simpa [rankBelow_succ, hn] using h) fun j hj => hnone j (by omega)
  · rintro ⟨j, hj, hm⟩
    exact (Nat.zero_le _).trans_lt (rankBelow_lt hm hj)

/-- Every number below the count of members is the number of some member. -/
theorem exists_rankBelow_eq {m : BitVec w} {n k : ℕ} (hk : k < rankBelow m n) :
    ∃ j < n, hasBit m j = true ∧ rankBelow m j = k := by
  induction n with
  | zero => simp at hk
  | succ n ih =>
    rcases lt_or_ge k (rankBelow m n) with hlt | hge
    · obtain ⟨j, hj, hmem, hrank⟩ := ih hlt
      exact ⟨j, hj.trans n.lt_succ_self, hmem, hrank⟩
    · -- the last step of the count is the member with number `k`
      rw [rankBelow_succ] at hk
      have hn : hasBit m n = true := by
        by_contra hnone
        rw [if_neg hnone] at hk
        omega
      rw [if_pos hn] at hk
      exact ⟨n, n.lt_succ_self, hn, by omega⟩

/-- The number of members of a mask. -/
def popcount (m : BitVec w) : ℕ := rankBelow m w

/-- Counting up to a bound above all members counts them all. -/
theorem popcount_eq_rankBelow {m : BitVec w} {n : ℕ} (hn : n ≤ w)
    (hbound : ∀ j, hasBit m j = true → j < n) : popcount m = rankBelow m n := by
  refine rankBelow_eq_of_none hn fun j hj => ?_
  by_contra hmem
  exact absurd (hbound j (by simpa using hmem)) (not_lt.mpr hj)

end SlimeReceiver
