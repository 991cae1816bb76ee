import Mathlib.Data.BitVec
import Mathlib.Algebra.Order.Ring.Int

/-! # The range of a signed type

* **`FitsSigned`** — an integer is a value of the signed type of some width.
* **`toInt_ofInt_of_fits`** — the cast to the type keeps such a value.
* **`SignedInt`** — the values of the type, and **`checked`** — an operation whose result must be one.
* **`isSome_foldlM_iff`** — a sequence of operations that may fail. -/

namespace SlimeReceiver

/-- The integer is a value of the signed type of width `w`. -/
def FitsSigned (w : ℕ) (x : ℤ) : Prop := -2 ^ (w - 1) ≤ x ∧ x < 2 ^ (w - 1)

instance (w : ℕ) (x : ℤ) : Decidable (FitsSigned w x) := inferInstanceAs (Decidable (_ ∧ _))

theorem fitsSigned_toInt {w : ℕ} (x : BitVec w) : FitsSigned w x.toInt := ⟨BitVec.le_toInt x, BitVec.toInt_lt⟩

theorem toInt_ofInt_of_fits {w : ℕ} {x : ℤ} (hw : 0 < w) (h : FitsSigned w x) : (BitVec.ofInt w x).toInt = x := by
  obtain ⟨w, rfl⟩ := Nat.exists_eq_succ_of_ne_zero hw.ne'
  obtain ⟨hlo, hhi⟩ := h
  rw [Nat.succ_sub_one] at hlo hhi
  rw [BitVec.toInt_ofInt]
  refine Int.bmod_eq_of_le ?_ ?_ <;> rw [pow_succ] <;> push_cast <;> omega

/-- The values of the signed type of width `w`. -/
structure SignedInt (w : ℕ) where
  val : ℤ
  fits : FitsSigned w val
  deriving DecidableEq

/-- The result of an operation on the type; `none` if it overflows. -/
def checked (w : ℕ) (x : ℤ) : Option (SignedInt w) := if h : FitsSigned w x then some ⟨x, h⟩ else none

section Checked

variable {w : ℕ} {x : ℤ}

theorem checked_of_fits (h : FitsSigned w x) : checked w x = some ⟨x, h⟩ := dif_pos h

theorem checked_of_not_fits (h : ¬FitsSigned w x) : checked w x = none := dif_neg h

theorem isSome_checked : (checked w x).isSome = true ↔ FitsSigned w x := by
  by_cases h : FitsSigned w x
  · rw [checked_of_fits h]
    exact ⟨fun _ => h, fun _ => rfl⟩
  · rw [checked_of_not_fits h]
    exact ⟨fun hf => absurd hf Bool.false_ne_true, fun hfits => absurd hfits h⟩

/-- Going on with the result of an operation. -/
theorem isSome_checked_bind {α : Type*} {f : SignedInt w → Option α} :
    ((checked w x).bind f).isSome = true ↔ ∃ h : FitsSigned w x, (f ⟨x, h⟩).isSome = true := by
  by_cases h : FitsSigned w x
  · rw [checked_of_fits h, Option.bind_some]
    exact ⟨fun hf => ⟨h, hf⟩, fun ⟨_, hf⟩ => hf⟩
  · rw [checked_of_not_fits h]
    exact ⟨fun hf => absurd hf Bool.false_ne_true, fun ⟨hfits, _⟩ => absurd hfits h⟩

end Checked

/-- A sequence of steps is defined, if every one is where the steps before it lead. -/
theorem isSome_foldlM_iff {σ α : Type*} (f : σ → α → Option σ) (l : List α) (s : σ) :
    (l.foldlM f s).isSome = true ↔
      ∀ before a after t, l = before ++ a :: after → before.foldlM f s = some t → (f t a).isSome = true := by
  induction l generalizing s with
  | nil =>
    refine ⟨fun _ before a after t hl => ?_, fun _ => rfl⟩
    exact absurd hl.symm (List.append_ne_nil_of_right_ne_nil _ (List.cons_ne_nil _ _))
  | cons a l ih =>
    rw [List.foldlM_cons]
    constructor
    · intro h before b after t hl hbefore
      obtain ⟨t', ht'⟩ := Option.isSome_iff_exists.mp h
      obtain ⟨s', hs', hrest⟩ := Option.bind_eq_some_iff.mp ht'
      rcases before with _ | ⟨c, before⟩
      · obtain ⟨rfl, rfl⟩ := List.cons.inj hl
        obtain rfl := Option.some.inj hbefore
        rw [hs', Option.isSome_some]
      · obtain ⟨rfl, htail⟩ := List.cons.inj hl
        rw [List.foldlM_cons, hs'] at hbefore
        exact (ih s').mp (Option.isSome_of_eq_some hrest) before b after t htail hbefore
    · intro h
      obtain ⟨s', hs'⟩ := Option.isSome_iff_exists.mp (h [] a l s rfl rfl)
      rw [hs']
      refine (ih s').mpr fun before b after t hl hbefore => h (a :: before) b after t (congrArg _ hl) ?_
      rw [List.foldlM_cons, hs']
      exact hbefore

end SlimeReceiver
