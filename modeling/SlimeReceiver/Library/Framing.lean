import Mathlib.Tactic.Common

/-! # Decoding a stream that arrives in pieces

Items are encoded one after the other. A scanner takes the whole items off the front of a buffer and leaves the
rest; it is run after every piece that arrives.

* **`wholeIn`**, **`partialIn`** — the items that lie within the first elements of the stream, and what follows them.
* **`Scans`** — a scanner takes all whole items and leaves the beginning of the next.
* **`feed_eq`** — however the stream is cut into pieces, the items are those that lie within what has arrived. -/

namespace SlimeReceiver

universe u v

variable {α : Type u} {β : Type v} (encode : α → List β)

/-- The items whose encodings lie within the first `n` elements. -/
def wholeIn : List α → ℕ → List α
  | [], _ => []
  | x :: xs, n => if (encode x).length ≤ n then x :: wholeIn xs (n - (encode x).length) else []

/-- What follows them within the first `n` elements. -/
def partialIn : List α → ℕ → List β
  | [], _ => []
  | x :: xs, n => if (encode x).length ≤ n then partialIn xs (n - (encode x).length) else (encode x).take n

/-- The beginning of the encoding of one of some items, or nothing. -/
def Begins (valid : α → Prop) (part : List β) : Prop :=
  part = [] ∨ ∃ x, valid x ∧ part <+: encode x ∧ part.length < (encode x).length

/-- The scanner takes the whole items off and leaves the beginning of the next one. -/
def Scans (valid : α → Prop) (scan : List β → List α × List β) : Prop :=
  ∀ xs part, (∀ x ∈ xs, valid x) → Begins encode valid part → scan (xs.flatMap encode ++ part) = (xs, part)

/-- The scanner is run after every piece. -/
def feed (scan : List β → List α × List β) (buffer : List β) : List (List β) → List α × List β
  | [] => ([], buffer)
  | piece :: pieces =>
    let first := scan (buffer ++ piece)
    let rest := feed scan first.2 pieces
    (first.1 ++ rest.1, rest.2)

variable {encode} {valid : α → Prop} {scan : List β → List α × List β} {xs : List α} {n m : ℕ}

/-- The elements that have arrived are the whole items and the part of the next. -/
theorem take_eq_whole_append (xs : List α) (n : ℕ) :
    (xs.flatMap encode).take n = (wholeIn encode xs n).flatMap encode ++ partialIn encode xs n := by
  induction xs generalizing n with
  | nil => simp [wholeIn, partialIn]
  | cons x xs ih =>
    rw [List.flatMap_cons, List.take_append, wholeIn, partialIn]
    split
    case isTrue hwhole =>
      rw [List.take_of_length_le hwhole, ih, List.flatMap_cons, List.append_assoc]
    case isFalse hpart =>
      have hrest : n - (encode x).length = 0 := by omega
      rw [hrest, List.take_zero, List.append_nil, List.flatMap_nil, List.nil_append]

theorem mem_of_mem_wholeIn {x : α} (h : x ∈ wholeIn encode xs n) : x ∈ xs := by
  induction xs generalizing n with
  | nil => exact h
  | cons y xs ih =>
    rw [wholeIn] at h
    split at h
    case isTrue =>
      rcases List.mem_cons.mp h with rfl | hrest
      · exact List.mem_cons_self
      · exact List.mem_cons_of_mem _ (ih hrest)
    case isFalse => cases h

/-- What follows the whole items is the beginning of an item. -/
theorem begins_partialIn (hvalid : ∀ x ∈ xs, valid x) (n : ℕ) : Begins encode valid (partialIn encode xs n) := by
  induction xs generalizing n with
  | nil => exact .inl rfl
  | cons x xs ih =>
    rw [partialIn]
    split
    case isTrue => exact ih (fun y hy => hvalid y (List.mem_cons_of_mem _ hy)) _
    case isFalse hpart =>
      refine .inr ⟨x, hvalid x List.mem_cons_self, List.take_prefix _ _, ?_⟩
      rw [List.length_take]
      omega

variable (encode) in
/-- The elements that arrive next make the part of the next item into further items and a part. -/
theorem partialIn_append (xs : List α) (n m : ℕ) : ∃ new,
    partialIn encode xs n ++ ((xs.flatMap encode).drop n).take m = new.flatMap encode ++ partialIn encode xs (n + m) ∧
      wholeIn encode xs (n + m) = wholeIn encode xs n ++ new := by
  induction xs generalizing n with
  | nil => exact ⟨[], by simp [partialIn], rfl⟩
  | cons x xs ih =>
    by_cases hwhole : (encode x).length ≤ n
    · obtain ⟨new, hpart, hitems⟩ := ih (n - (encode x).length)
      have hsum : n + m - (encode x).length = n - (encode x).length + m := by omega
      refine ⟨new, ?_, ?_⟩
      · rw [partialIn, if_pos hwhole, partialIn, if_pos (Nat.le_add_right_of_le hwhole), hsum, List.flatMap_cons,
          List.drop_append, List.drop_eq_nil_of_le hwhole, List.nil_append]
        exact hpart
      · rw [wholeIn, if_pos (Nat.le_add_right_of_le hwhole), wholeIn, if_pos hwhole, hsum, hitems]
        rfl
    · -- the first item is not whole yet: all that has arrived is in the buffer
      refine ⟨wholeIn encode (x :: xs) (n + m), ?_, by rw [wholeIn, wholeIn, if_neg hwhole]; rfl⟩
      have hbuffer : partialIn encode (x :: xs) n = ((x :: xs).flatMap encode).take n := by
        rw [take_eq_whole_append, wholeIn, if_neg hwhole]
        rfl
      rw [hbuffer, ← take_eq_whole_append, List.take_add]

/-- A stream that ends with its last item has only whole items. -/
theorem wholeIn_of_length_le (h : (xs.flatMap encode).length ≤ n) : wholeIn encode xs n = xs := by
  induction xs generalizing n with
  | nil => rfl
  | cons x xs ih =>
    rw [List.flatMap_cons, List.length_append] at h
    rw [wholeIn, if_pos (by omega), ih (by omega)]

/-- What the scanner makes of the pieces from a point of the stream on. -/
theorem feed_from (hscan : Scans encode valid scan) (hvalid : ∀ x ∈ xs, valid x) (pieces : List (List β))
    (hstream : pieces.flatten <+: (xs.flatMap encode).drop n) :
    (feed scan (partialIn encode xs n) pieces).2 = partialIn encode xs (n + pieces.flatten.length) ∧
      wholeIn encode xs (n + pieces.flatten.length) =
        wholeIn encode xs n ++ (feed scan (partialIn encode xs n) pieces).1 := by
  induction pieces generalizing n with
  | nil => exact ⟨rfl, (List.append_nil _).symm⟩
  | cons piece pieces ih =>
    rw [List.flatten_cons] at hstream
    obtain ⟨rest, hrest⟩ := hstream
    rw [List.append_assoc] at hrest
    have hpiece : ((xs.flatMap encode).drop n).take piece.length = piece := by
      rw [← hrest, List.take_left]
    have hnext : pieces.flatten <+: (xs.flatMap encode).drop (n + piece.length) := by
      rw [← List.drop_drop, ← hrest, List.drop_left]
      exact List.prefix_append _ _
    obtain ⟨new, hpart, hitems⟩ := partialIn_append encode xs n piece.length
    rw [hpiece] at hpart
    have hnew : ∀ x ∈ new, valid x := fun x hx =>
      hvalid x (mem_of_mem_wholeIn (hitems ▸ List.mem_append_right _ hx))
    have hfirst : scan (partialIn encode xs n ++ piece) = (new, partialIn encode xs (n + piece.length)) := by
      rw [hpart]
      exact hscan _ _ hnew (begins_partialIn hvalid _)
    obtain ⟨hbuffer, hwhole⟩ := ih hnext
    have hlength : n + (piece :: pieces).flatten.length = n + piece.length + pieces.flatten.length := by
      rw [List.flatten_cons, List.length_append, Nat.add_assoc]
    rw [hlength, feed, hfirst]
    exact ⟨hbuffer, by rw [hwhole, hitems, List.append_assoc]⟩

/-- However a stream is cut, the items found are those that lie within what has arrived. -/
theorem feed_eq (hscan : Scans encode valid scan) (hvalid : ∀ x ∈ xs, valid x) {pieces : List (List β)}
    (hstream : pieces.flatten <+: xs.flatMap encode) (hne : ∀ x ∈ xs, encode x ≠ []) :
    (feed scan [] pieces).1 = wholeIn encode xs pieces.flatten.length := by
  have hstart : partialIn encode xs 0 = [] ∧ wholeIn encode xs 0 = [] := by
    cases xs with
    | nil => exact ⟨rfl, rfl⟩
    | cons x xs =>
      have hlong : ¬ (encode x).length ≤ 0 := fun hle => hne x List.mem_cons_self (List.length_eq_zero_iff.mp
        (Nat.le_zero.mp hle))
      rw [partialIn, wholeIn, if_neg hlong, if_neg hlong]
      exact ⟨rfl, rfl⟩
  have hfrom := (feed_from (n := 0) hscan hvalid pieces hstream).2
  rw [Nat.zero_add, hstart.1, hstart.2, List.nil_append] at hfrom
  exact hfrom.symm

end SlimeReceiver
