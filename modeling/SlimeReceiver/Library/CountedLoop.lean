import Mathlib.Order.Nat

/-! # Counted loops

`forBelow n body s` is the loop `for (i = 0; i < n; i++) s = body(s, i)`. Two rules cover its
uses: an invariant indexed by the counter, and the *pointwise* rule for loops in which iteration
`i` reads and writes only component `i` of the state. `eachBelow n f a` is the loop that replaces
entry `i` of an array by `f i` of it, in closed form. -/

namespace SlimeReceiver

universe u v

variable {σ : Type u} {β : Type v}

/-- Run `body` for the counter values `0, …, n - 1` in order. -/
def forBelow : ℕ → (σ → ℕ → σ) → σ → σ
  | 0, _, s => s
  | n + 1, body, s => body (forBelow n body s) n

@[simp] theorem forBelow_zero (body : σ → ℕ → σ) (s : σ) : forBelow 0 body s = s := rfl

theorem forBelow_succ (n : ℕ) (body : σ → ℕ → σ) (s : σ) :
    forBelow (n + 1) body s = body (forBelow n body s) n := rfl

/-- **Loop invariant.** What holds before the first iteration and is moved from counter `i` to
`i + 1` by the body holds with counter `n` after the loop. -/
theorem forBelow_invariant {n : ℕ} {body : σ → ℕ → σ} {s : σ} {P : ℕ → σ → Prop} (hstart : P 0 s)
    (hbody : ∀ i s, i < n → P i s → P (i + 1) (body s i)) : P n (forBelow n body s) := by
  induction n with
  | zero => exact hstart
  | succ n ih =>
    exact hbody n _ n.lt_succ_self (ih fun i s hi => hbody i s (hi.trans n.lt_succ_self))

/-- **Pointwise rule.** When iteration `i` turns component `i` into `f i` of it and leaves every
other component alone, the loop does so for all components below `n` and no others. -/
theorem forBelow_pointwise {n : ℕ} {body : σ → ℕ → σ} (get : σ → ℕ → β) (f : ℕ → β → β)
    (hself : ∀ s i, i < n → get (body s i) i = f i (get s i))
    (hother : ∀ s i j, i < n → j ≠ i → get (body s i) j = get s j) (s : σ) (j : ℕ) :
    get (forBelow n body s) j = if j < n then f j (get s j) else get s j := by
  induction n with
  | zero => simp
  | succ n ih =>
    have ih' := ih (fun s i hi => hself s i (hi.trans n.lt_succ_self))
      fun s i k hi => hother s i k (hi.trans n.lt_succ_self)
    rw [forBelow_succ]
    rcases lt_trichotomy j n with hlt | rfl | hgt
    · rw [hother _ _ _ n.lt_succ_self hlt.ne, ih', if_pos hlt, if_pos (hlt.trans n.lt_succ_self)]
    · rw [hself _ _ j.lt_succ_self, ih', if_neg (lt_irrefl j), if_pos j.lt_succ_self]
    · rw [hother _ _ _ n.lt_succ_self hgt.ne', ih', if_neg (not_lt.mpr hgt.le),
        if_neg (not_lt.mpr (Nat.succ_le_of_lt hgt))]

/-- A quantity no iteration changes is unchanged by the loop. -/
theorem forBelow_frame {n : ℕ} {body : σ → ℕ → σ} (get : σ → β)
    (hbody : ∀ s i, i < n → get (body s i) = get s) (s : σ) : get (forBelow n body s) = get s :=
  forBelow_invariant (P := fun _ s' => get s' = get s) rfl
    fun i s' hi hs' => (hbody s' i hi).trans hs'

/-! ## Loops over an array -/

/-- The array with entry `i` replaced by `f i (a i)` for every `i < n`. -/
def eachBelow (n : ℕ) (f : ℕ → β → β) (a : ℕ → β) : ℕ → β := fun i => if i < n then f i (a i) else a i

theorem eachBelow_of_lt {n i : ℕ} (h : i < n) (f : ℕ → β → β) (a : ℕ → β) :
    eachBelow n f a i = f i (a i) := if_pos h

theorem eachBelow_of_le {n i : ℕ} (h : n ≤ i) (f : ℕ → β → β) (a : ℕ → β) :
    eachBelow n f a i = a i := if_neg (not_lt.mpr h)

/-- A field no replacement touches is left alone. -/
theorem eachBelow_frame {γ : Type*} {n : ℕ} {f : ℕ → β → β} (get : β → γ)
    (hf : ∀ i b, get (f i b) = get b) (a : ℕ → β) (i : ℕ) :
    get (eachBelow n f a i) = get (a i) := by
  unfold eachBelow
  split
  · exact hf i _
  · rfl

/-- The closed form is what the loop computes. -/
theorem forBelow_update_eq_eachBelow (n : ℕ) (f : ℕ → β → β) (a : ℕ → β) :
    forBelow n (fun a i => Function.update a i (f i (a i))) a = eachBelow n f a := by
  funext j
  refine forBelow_pointwise (fun a i => a i) f ?_ ?_ a j
  · intro s i _
    exact Function.update_self i _ s
  · intro s i k _ hki
    exact Function.update_of_ne hki _ s

end SlimeReceiver
