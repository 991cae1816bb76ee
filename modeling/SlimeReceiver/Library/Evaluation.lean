import Mathlib.Data.Int.Basic
import Mathlib.Data.List.GetD
import SlimeReceiver.Library.EventSystem

/-! # Long replays

A replay by evaluation keeps what it has not looked at as an expression, and over hundreds of steps these
grow beyond bounds. The functions here hand a value on in evaluated form; each of them is the plain
application, so they are hints and nothing more.

* **`evalNat`**, **`evalInt`**, **`evalWord`**, **`evalList`** — values.
* **`evalTable n f`** — the first `n` values of a function.
* **`EventSystem.replay`** — a replay in portions, with the state evaluated after each of them. -/

namespace SlimeReceiver

universe u v w

variable {α : Type u} {β : Type v}

/-! ## Values -/

/-- Hand on a number. -/
def evalNat (n : ℕ) (k : ℕ → β) : β :=
  match n with
  | 0 => k 0
  | m + 1 => k (m + 1)

@[simp] theorem evalNat_eq (n : ℕ) (k : ℕ → β) : evalNat n k = k n := by
  cases n <;> rfl

/-- Hand on an integer. -/
def evalInt (z : ℤ) (k : ℤ → β) : β :=
  match z with
  | .ofNat n => evalNat n fun n => k (.ofNat n)
  | .negSucc n => evalNat n fun n => k (.negSucc n)

@[simp] theorem evalInt_eq (z : ℤ) (k : ℤ → β) : evalInt z k = k z := by
  cases z <;> rw [evalInt, evalNat_eq]

/-- Hand on a word. -/
def evalWord {n : ℕ} (b : BitVec n) (k : BitVec n → β) : β := evalNat b.toNat fun m => k (.ofNat n m)

@[simp] theorem evalWord_eq {n : ℕ} (b : BitVec n) (k : BitVec n → β) : evalWord b k = k b := by
  rw [evalWord, evalNat_eq, BitVec.ofNat_toNat, BitVec.setWidth_eq]

/-- Hand on a list, each entry evaluated by `eval`. -/
def evalList (eval : α → (α → β) → β) : List α → (List α → β) → β
  | [], k => k []
  | a :: as, k => eval a fun a => evalList eval as fun as => k (a :: as)

theorem evalList_eq {eval : α → (α → β) → β} (h : ∀ a k, eval a k = k a) (as : List α)
    (k : List α → β) : evalList eval as k = k as := by
  induction as generalizing k with
  | nil => rfl
  | cons a as ih => rw [evalList, h, ih]

/-- Hand on a function, its first `n` values evaluated by `eval`. -/
def evalTable (n : ℕ) (eval : α → (α → β) → β) (f : ℕ → α) (k : (ℕ → α) → β) : β :=
  evalList eval ((List.range n).map f) fun table => k fun i => table.getD i (f i)

theorem evalTable_eq {n : ℕ} {eval : α → (α → β) → β} (h : ∀ a k, eval a k = k a) (f : ℕ → α)
    (k : (ℕ → α) → β) : evalTable n eval f k = k f := by
  rw [evalTable, evalList_eq h]
  refine congrArg k (funext fun i => ?_)
  by_cases hi : i < ((List.range n).map f).length
  · rw [List.getD_eq_getElem _ _ hi, List.getElem_map, List.getElem_range]
  · exact List.getD_eq_default _ _ (not_lt.mp hi)

/-! ## Replay in portions -/

namespace EventSystem

variable {σ : Type u} {ι : Type v} {ε : Type w} (sys : EventSystem σ ι ε)

/-- Replay of a list of portions, with the state evaluated by `eval` after each; whether the last state
passes a test. -/
def replay (eval : σ → (σ → Bool) → Bool) (test : σ → Bool) : σ → List (List ι) → Bool
  | s, [] => test s
  | s, is :: rest => (sys.exec s is).any fun r => eval r.1 fun s => replay eval test s rest

variable {sys} {eval : σ → (σ → Bool) → Bool} {test : σ → Bool} {trace : List ε} {s : σ}

/-- What a replay in portions reaches from the end of a run is again the end of a run. -/
theorem Run.replay {portions : List (List ι)} (heval : ∀ s k, eval s k = k s) (h : sys.Run trace s)
    (hreplay : sys.replay eval test s portions = true) :
    ∃ trace' s', sys.Run trace' s' ∧ test s' = true := by
  induction portions generalizing trace s with
  | nil => exact ⟨trace, s, h, hreplay⟩
  | cons is rest ih =>
    rw [EventSystem.replay, Option.any_eq_true] at hreplay
    obtain ⟨⟨s', es⟩, hexec, hrest⟩ := hreplay
    rw [heval] at hrest
    exact ih (h.exec hexec) hrest

end EventSystem

end SlimeReceiver
