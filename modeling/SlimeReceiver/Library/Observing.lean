import Mathlib.Data.List.Basic

/-! # Programs that observe their environment

A program with a state of its own, which reads its environment one observation after the other. A script is what it
is going to observe; it returns nothing where the script ends before it does. What holds at every return, whatever
is observed, is told from the end of the program to its beginning.

* **`Observing σ ο α`** — the programs, a monad.
* **`repeatUntil`** — a loop without a bound of its own.
* **`wlp p Q s`** — whenever `p` returns from the state `s`, `Q` holds of its result and its state. -/

namespace SlimeReceiver

universe u

/-- A program with states in `σ` that observes values in `ο`. -/
def Observing (σ ο α : Type u) : Type u :=
  σ → List ο → Option (α × σ × List ο)

namespace Observing

variable {σ ο α β γ : Type u}

instance : Monad (Observing σ ο) where
  pure a := fun s script => some (a, s, script)
  bind p f := fun s script => (p s script).bind fun r => f r.1 r.2.1 r.2.2

/-- The state. -/
def state : Observing σ ο σ := fun s script => some (s, s, script)

/-- The state is changed. -/
def change (f : σ → σ) : Observing σ ο PUnit := fun s script => some (.unit, f s, script)

/-- The next observation, noted in the state. -/
def observe (note : ο → σ → σ) : Observing σ ο ο := fun s script =>
  match script with
  | [] => none
  | o :: script => some (o, note o s, script)

/-- At most `n` passes through a loop, until one of them ends it. -/
def attempts (body : Observing σ ο (Option α)) : ℕ → Observing σ ο α
  | 0 => fun _ _ => none
  | n + 1 => do
    match ← body with
    | some a => pure a
    | none => attempts body n

/-- A loop every pass of which observes something: it cannot pass more often than there are observations. -/
def repeatUntil (body : Observing σ ο (Option α)) : Observing σ ο α := fun s script =>
  attempts body (script.length + 1) s script

/-! ## Weakest liberal preconditions -/

/-- Whenever `p` returns from `s`, `Q` holds. -/
def wlp (p : Observing σ ο α) (Q : α → σ → Prop) (s : σ) : Prop :=
  ∀ script a s' rest, p s script = some (a, s', rest) → Q a s'

variable {Q : α → σ → Prop} {s : σ}

theorem wlp_pure {a : α} : wlp (pure a : Observing σ ο α) Q s ↔ Q a s := by
  constructor
  · intro h
    exact h [] a s [] rfl
  · rintro h script b s' rest hreturn
    obtain ⟨rfl, hstate⟩ := Prod.mk.inj (Option.some.inj hreturn)
    obtain ⟨rfl, -⟩ := Prod.mk.inj hstate
    exact h

theorem wlp_pure_bind {a : β} {f : β → Observing σ ο α} : wlp (pure a >>= f) Q s ↔ wlp (f a) Q s := Iff.rfl

theorem wlp_bind_assoc {p : Observing σ ο β} {f : β → Observing σ ο γ} {g : γ → Observing σ ο α} :
    wlp (p >>= f >>= g) Q s ↔ wlp (p >>= fun a => f a >>= g) Q s := by
  have hassoc : p >>= f >>= g = p >>= fun a => f a >>= g := by
    funext s script
    exact Option.bind_assoc _ _ _
  rw [hassoc]

theorem wlp_change_bind {g : σ → σ} {f : PUnit → Observing σ ο α} :
    wlp (change g >>= f) Q s ↔ wlp (f .unit) Q (g s) := Iff.rfl

theorem wlp_state_bind {f : σ → Observing σ ο α} : wlp (state >>= f) Q s ↔ wlp (f s) Q s := Iff.rfl

/-- Nothing is known of an observation. -/
theorem wlp_observe_bind {note : ο → σ → σ} {f : ο → Observing σ ο α} :
    wlp (observe note >>= f) Q s ↔ ∀ o, wlp (f o) Q (note o s) := by
  constructor
  · intro h o script a s' rest hreturn
    exact h (o :: script) a s' rest hreturn
  · intro h script a s' rest hreturn
    cases script with
    | nil => cases hreturn
    | cons o script => exact h o script a s' rest hreturn

/-- A call is replaced by what is known of its return. -/
theorem wlp_call {p : Observing σ ο β} {R : β → σ → Prop} {f : β → Observing σ ο α} (hcall : wlp p R s)
    (hrest : ∀ b s', R b s' → wlp (f b) Q s') : wlp (p >>= f) Q s := by
  intro script a s₂ rest hreturn
  obtain ⟨⟨b, s', script'⟩, hp, hf⟩ := Option.bind_eq_some_iff.mp hreturn
  exact hrest b s' (hcall script b s' script' hp) script' a s₂ rest hf

theorem wlp.mono {p : Observing σ ο α} {R : α → σ → Prop} (h : wlp p R s) (himp : ∀ a s', R a s' → Q a s') :
    wlp p Q s :=
  fun script a s' rest hreturn => himp a s' (h script a s' rest hreturn)

/-- A loop keeps what its passes keep. -/
theorem wlp_repeatUntil {body : Observing σ ο (Option α)} {I : σ → Prop} (hstart : I s)
    (hbody : ∀ s, I s → wlp body (fun r s' => match r with
      | some a => Q a s'
      | none => I s') s) : wlp (repeatUntil body) Q s := by
  have hattempts : ∀ n s, I s → wlp (attempts body n) Q s := by
    intro n
    induction n with
    | zero =>
      intro s _ script a s' rest hreturn
      cases hreturn
    | succ n ih =>
      intro s hs
      refine wlp_call (hbody s hs) fun r s' hr => ?_
      cases r with
      | some a => exact wlp_pure.mpr hr
      | none => exact ih s' hr
  exact fun script a s' rest hreturn => hattempts (script.length + 1) s hstart script a s' rest hreturn

end Observing

end SlimeReceiver
