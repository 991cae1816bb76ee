import Mathlib.Data.List.Defs
import Mathlib.Data.List.DropRight

/-! # Counting over a history

* **`origin p trace`** — the history up to its newest event that satisfies `p`; **`gainSince`**,
  what a count has gained since then.
* **`Cumulative`**, **`GrowsWithin`** — counts that never fall, and counts that no step lets grow
  by more than another.
* **`split_cases`** — two events of one history.
* **`Mark`**, **`intervals`** — packets in a stream with cuts, and the intervals between
  neighbours that no cut separates. -/

namespace SlimeReceiver

universe u v

/-- Two events of one history: the same one, or one before the other. -/
theorem split_cases {α : Type u} {a a' s s' : List α} {x x' : α} (h : a ++ x :: s = a' ++ x' :: s') :
    (a = a' ∧ x = x' ∧ s = s') ∨ (∃ c, a' = a ++ x :: c ∧ s = c ++ x' :: s') ∨
      ∃ c, a = a' ++ x' :: c ∧ s' = c ++ x :: s := by
  rcases List.append_eq_append_iff.mp h with ⟨c, ha', htail⟩ | ⟨c, ha, htail⟩
  · cases c with
    | nil =>
      obtain ⟨rfl, rfl⟩ := List.cons.inj htail
      exact .inl ⟨by simpa using ha'.symm, rfl, rfl⟩
    | cons y c =>
      obtain ⟨rfl, rfl⟩ := List.cons.inj htail
      exact .inr (.inl ⟨c, ha', rfl⟩)
  · cases c with
    | nil =>
      obtain ⟨rfl, rfl⟩ := List.cons.inj htail
      exact .inl ⟨by simpa using ha, rfl, rfl⟩
    | cons y c =>
      obtain ⟨rfl, rfl⟩ := List.cons.inj htail
      exact .inr (.inr ⟨c, ha, rfl⟩)

section Gains

variable {ε : Type u} {p : ε → Bool} {f g : List ε → ℕ} {trace : List ε} {e : ε}

/-- The history up to and including its newest event that satisfies `p`. -/
def origin (p : ε → Bool) (trace : List ε) : List ε := trace.rdropWhile fun e => !p e

/-- What a count has gained since the newest event that satisfies `p`. -/
def gainSince (p : ε → Bool) (f : List ε → ℕ) (trace : List ε) : ℕ := f trace - f (origin p trace)

/-- A count no event lowers. -/
def Cumulative (f : List ε → ℕ) : Prop := ∀ trace e, f trace ≤ f (trace ++ [e])

/-- No event lets `f` grow by more than it lets `g` grow. -/
def GrowsWithin (f g : List ε → ℕ) : Prop :=
  ∀ trace e, f (trace ++ [e]) + g trace ≤ g (trace ++ [e]) + f trace

theorem origin_of_pos (h : p e = true) : origin p (trace ++ [e]) = trace ++ [e] :=
  List.rdropWhile_concat_neg _ _ _ (by simp [h])

theorem origin_of_neg (h : p e = false) : origin p (trace ++ [e]) = origin p trace :=
  List.rdropWhile_concat_pos _ _ _ (by simp [h])

/-- A cumulative count never falls as the history goes on. -/
theorem Cumulative.le_append (hf : Cumulative f) (trace later : List ε) :
    f trace ≤ f (trace ++ later) := by
  induction later using List.reverseRecOn with
  | nil => rw [List.append_nil]
  | append_singleton later e ih =>
    rw [← List.append_assoc]
    exact ih.trans (hf _ e)

theorem Cumulative.le_origin (hf : Cumulative f) : f (origin p trace) ≤ f trace := by
  obtain ⟨later, hlater⟩ := List.rdropWhile_prefix (fun e => !p e) (l := trace)
  calc f (origin p trace) ≤ f (origin p trace ++ later) := hf.le_append _ later
    _ = f trace := congrArg f hlater

/-- The gain starts over at an event that satisfies `p`. -/
theorem gainSince_of_pos (h : p e = true) : gainSince p f (trace ++ [e]) = 0 := by
  rw [gainSince, origin_of_pos h, Nat.sub_self]

/-- The gain grows with the count at every other event. -/
theorem gainSince_of_neg (hf : Cumulative f) (h : p e = false) {n : ℕ}
    (hn : f (trace ++ [e]) = f trace + n) :
    gainSince p f (trace ++ [e]) = gainSince p f trace + n := by
  have hle : f (origin p trace) ≤ f trace := hf.le_origin
  rw [gainSince, gainSince, origin_of_neg h, hn]
  omega

/-- Over any stretch of the history the one count grows by at most as much as the other. -/
theorem GrowsWithin.append (hfg : GrowsWithin f g) (trace later : List ε) :
    f (trace ++ later) + g trace ≤ g (trace ++ later) + f trace := by
  induction later using List.reverseRecOn with
  | nil =>
    rw [List.append_nil]
    omega
  | append_singleton later e ih =>
    have hlast := hfg (trace ++ later) e
    rw [← List.append_assoc]
    omega

end Gains

/-! ## Marked streams -/

/-- What happens in a stream of packets. -/
inductive Mark (α : Type v)
  | packet (a : α)
  /-- A packet that does not continue what came before it. -/
  | start (a : α)
  | cut
  deriving DecidableEq, Repr

namespace Mark

variable {α : Type v}

/-- Where the next interval starts. -/
def anchor : Mark α → Option α
  | packet a | start a => some a
  | cut => none

/-- The endpoints of the interval between two neighbouring marks. -/
def interval : Mark α × Mark α → Option (α × α)
  | (m, packet b) => m.anchor.map (·, b)
  | _ => none

end Mark

section Intervals

variable {α : Type v}

/-- The intervals between neighbouring packets, oldest first. -/
def intervals (marks : List (Mark α)) : List (α × α) :=
  marks.consecutivePairs.filterMap Mark.interval

/-- Where the interval of the next packet starts, if it has one. -/
def lastAnchor (marks : List (Mark α)) : Option α := marks.getLast?.bind Mark.anchor

@[simp] theorem intervals_nil : intervals ([] : List (Mark α)) = [] := rfl

@[simp] theorem lastAnchor_nil : lastAnchor ([] : List (Mark α)) = none := rfl

@[simp] theorem lastAnchor_concat (marks : List (Mark α)) (m : Mark α) :
    lastAnchor (marks ++ [m]) = m.anchor := by
  rw [lastAnchor, List.getLast?_concat]
  rfl

/-- An appended element forms one more pair, with the last one before it. -/
theorem consecutivePairs_concat (l : List α) (b : α) : (l ++ [b]).consecutivePairs =
    l.consecutivePairs ++ (l.getLast?.map (·, b)).toList := by
  induction l with
  | nil => rfl
  | cons a l ih =>
    cases l with
    | nil => rfl
    | cons a' l =>
      have hlast : (a :: a' :: l).getLast? = (a' :: l).getLast? := List.getLast?_cons_cons
      rw [hlast]
      simpa [List.consecutivePairs] using ih

/-- A packet closes the interval from the last anchor. -/
theorem intervals_packet (marks : List (Mark α)) (b : α) : intervals (marks ++ [.packet b]) =
    intervals marks ++ ((lastAnchor marks).map (·, b)).toList := by
  rw [intervals, consecutivePairs_concat, List.filterMap_append, intervals, lastAnchor]
  cases marks.getLast? with
  | none => rfl
  | some m => cases m <;> rfl

/-- Any other mark closes none. -/
theorem intervals_of_not_packet {marks : List (Mark α)} {m : Mark α} (h : ∀ b, m ≠ .packet b) :
    intervals (marks ++ [m]) = intervals marks := by
  rw [intervals, consecutivePairs_concat, List.filterMap_append, intervals]
  cases m with
  | packet b => exact absurd rfl (h b)
  | start | cut => cases marks.getLast? <;> simp [Mark.interval]

/-! Streams read off a history, one event at a time. -/

variable {ε : Type u} {mark : ε → Option (Mark α)} {e : ε} (trace : List ε)

theorem lastAnchor_filterMap {m : Mark α} (h : mark e = some m) :
    lastAnchor ((trace ++ [e]).filterMap mark) = m.anchor := by
  rw [List.filterMap_append, List.filterMap_cons_some h, List.filterMap_nil, lastAnchor_concat]

theorem filterMap_concat_of_none (h : mark e = none) :
    (trace ++ [e]).filterMap mark = trace.filterMap mark := by
  rw [List.filterMap_append, List.filterMap_cons_none h, List.filterMap_nil, List.append_nil]

theorem intervals_filterMap_packet {b : α} (h : mark e = some (.packet b)) :
    intervals ((trace ++ [e]).filterMap mark) = intervals (trace.filterMap mark) ++
      ((lastAnchor (trace.filterMap mark)).map (·, b)).toList := by
  rw [List.filterMap_append, List.filterMap_cons_some h, List.filterMap_nil, intervals_packet]

theorem intervals_filterMap_of_not_packet (h : ∀ b, mark e ≠ some (.packet b)) :
    intervals ((trace ++ [e]).filterMap mark) = intervals (trace.filterMap mark) := by
  cases hmark : mark e with
  | none => rw [filterMap_concat_of_none trace hmark]
  | some m =>
    rw [List.filterMap_append, List.filterMap_cons_some hmark, List.filterMap_nil]
    exact intervals_of_not_packet fun b hb => h b (hb ▸ hmark)

end Intervals

end SlimeReceiver
