import Mathlib.Data.List.TakeDrop
import Mathlib.Data.List.TakeWhile

/-! # Numbers as text

How the standard libraries of C and Python read a number, for ASCII text. They take different texts for numbers,
but a text both take for one has one value.

* **`digitsValue`**, **`signed`** — a run of digits, and an optional sign before it.
* **`strtol`** — `strtol` in base 10.
* **`IsInt cs v`** — the text is an optional sign and digits, with the value `v`. -/

namespace SlimeReceiver

namespace NumberText

/-- `isspace` in the C locale. -/
def isSpace (c : Char) : Bool := c ∈ [' ', '\t', '\n', '\u000b', '\u000c', '\r']

/-- The value of a run of digits. -/
def digitsValue (digits : List Char) : ℕ := digits.foldl (fun n c => 10 * n + (c.toNat - 48)) 0

/-- An optional sign, and what follows it. -/
def splitSign : List Char → Bool × List Char
  | '-' :: cs => (true, cs)
  | '+' :: cs => (false, cs)
  | cs => (false, cs)

/-- A number with its sign. -/
def signed (negative : Bool) (n : ℕ) : ℤ := if negative then -n else n

/-- `strtol` in base 10, before it is limited to `long`: the value and what is left of the text, or nothing when
there is no number. -/
def strtol (cs : List Char) : Option (ℤ × List Char) :=
  let (negative, rest) := splitSign (cs.dropWhile isSpace)
  let digits := rest.takeWhile Char.isDigit
  if digits = [] then none
  else some (signed negative (digitsValue digits), rest.dropWhile Char.isDigit)

/-- The text is an optional sign and digits. -/
structure IsInt (cs : List Char) (v : ℤ) : Prop where
  nonempty : (splitSign cs).2 ≠ []
  digits : ∀ c ∈ (splitSign cs).2, c.isDigit = true
  value : v = signed (splitSign cs).1 (digitsValue (splitSign cs).2)

/-- The value of a text is determined. -/
theorem IsInt.unique {cs : List Char} {v w : ℤ} (hv : IsInt cs v) (hw : IsInt cs w) : v = w :=
  hv.value.trans hw.value.symm

/-- A text `strtol` reads to its end, without a space before it, is a number. -/
theorem isInt_of_strtol {c : Char} {cs : List Char} {v : ℤ} (hspace : isSpace c = false)
    (h : strtol (c :: cs) = some (v, [])) : IsInt (c :: cs) v := by
  have hdrop : (c :: cs).dropWhile isSpace = c :: cs := by
    rw [List.dropWhile_cons, hspace]
    rfl
  simp only [strtol, hdrop] at h
  split at h
  case isTrue => cases h
  case isFalse hdigits =>
    obtain ⟨hvalue, hrest⟩ := Prod.mk.inj (Option.some.inj h)
    have hall : ∀ d ∈ (splitSign (c :: cs)).2, d.isDigit = true := List.dropWhile_eq_nil_iff.mp hrest
    have hwhole : (splitSign (c :: cs)).2.takeWhile Char.isDigit = (splitSign (c :: cs)).2 :=
      List.takeWhile_eq_self_iff.mpr hall
    exact
      { nonempty := hwhole ▸ hdigits
        digits := hall
        value := by rw [← hvalue, hwhole] }

end NumberText

end SlimeReceiver
