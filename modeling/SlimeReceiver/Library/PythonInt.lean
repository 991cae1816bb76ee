import SlimeReceiver.Library.NumberText
import Mathlib.Tactic.Common

/-! # Integers of Python

`int(s)` and `int(s, 0)`: spaces around the number, a sign, single underscores between digits, and for base 0 a prefix
that tells the base. What a text with other than ASCII characters is turned into first is a parameter. The limit on the
number of digits is left out.

* **`pyInt`** — the value of a text.
* **`pyInt_of_isInt`** — a sign and decimal digits are read as what they say. -/

namespace SlimeReceiver

namespace NumberText

/-- The value of a digit. -/
def digitOf (c : Char) : Option ℕ :=
  if c.isDigit then some (c.toNat - 48)
  else if 'a' ≤ c ∧ c ≤ 'z' then some (c.toNat - 87)
  else if 'A' ≤ c ∧ c ≤ 'Z' then some (c.toNat - 55)
  else none

/-- A digit of a base. -/
def digitIn (base : ℕ) (c : Char) : Option ℕ := (digitOf c).filter (· < base)

/-- Digits with single underscores between them. -/
def pyDigits (base : ℕ) (cs : List Char) : Option ℕ :=
  if [] ∈ cs.splitOn '_' then none
  else (cs.filter (· ≠ '_')).foldlM (fun n c => (digitIn base c).map (base * n + ·)) 0

/-- The base a prefix tells. -/
def prefixBase (c : Char) : Option ℕ :=
  if c = 'x' ∨ c = 'X' then some 16
  else if c = 'o' ∨ c = 'O' then some 8
  else if c = 'b' ∨ c = 'B' then some 2
  else none

/-- What follows the sign for base 0; an underscore may follow the prefix, and a decimal number but zero does not begin
with 0. -/
def pyLiteral : List Char → Option ℕ
  | '0' :: c :: cs =>
    match prefixBase c with
    | some base => pyDigits base (if cs.head? = some '_' then cs.tail else cs)
    | none => (pyDigits 10 ('0' :: c :: cs)).filter (· = 0)
  | cs => pyDigits 10 cs

/-- Without the spaces around it. -/
def strip (cs : List Char) : List Char := ((cs.dropWhile isSpace).reverse.dropWhile isSpace).reverse

/-- `int(s)`, and `int(s, 0)` where the base is read from a prefix. -/
def pyInt (toAscii : List Char → List Char) (anyBase : Bool) (cs : List Char) : Option ℤ :=
  let (negative, digits) := splitSign (strip (toAscii cs))
  (if anyBase then pyLiteral digits else pyDigits 10 digits).map (signed negative)

section Decimal

variable {cs : List Char}

theorem digit_range {c : Char} (hc : c.isDigit = true) : 48 ≤ c.toNat ∧ c.toNat ≤ 57 :=
  Char.isDigit_iff_toNat.mp hc

theorem foldlM_digits (hdigits : ∀ c ∈ cs, c.isDigit = true) (n : ℕ) :
    cs.foldlM (fun n c => (digitIn 10 c).map (10 * n + ·)) n =
      some (cs.foldl (fun n c => 10 * n + (c.toNat - 48)) n) := by
  induction cs generalizing n with
  | nil => rfl
  | cons c cs ih =>
    have hc : c.isDigit = true := hdigits c List.mem_cons_self
    have hlt : c.toNat - 48 < 10 := by
      have hrange := digit_range hc
      omega
    have hdigit : digitIn 10 c = some (c.toNat - 48) := by
      rw [digitIn, digitOf, if_pos hc, Option.filter_some, decide_eq_true hlt, if_pos rfl]
    rw [List.foldlM_cons, hdigit, List.foldl_cons]
    exact ih (fun d hd => hdigits d (List.mem_cons_of_mem _ hd)) _

/-- A run of decimal digits has no underscores. -/
theorem pyDigits_digits (hne : cs ≠ []) (hdigits : ∀ c ∈ cs, c.isDigit = true) :
    pyDigits 10 cs = some (digitsValue cs) := by
  have hplain : ∀ c ∈ cs, c ≠ '_' := by
    rintro c hc rfl
    exact nomatch hdigits _ hc
  have hsplit : cs.splitOn '_' = [cs] := List.splitOn_eq_singleton fun hmem => hplain _ hmem rfl
  have hwhole : [] ∉ cs.splitOn '_' := by
    rw [hsplit, List.mem_singleton]
    exact hne.symm
  have hfilter : cs.filter (· ≠ '_') = cs :=
    List.filter_eq_self.mpr fun c hc => decide_eq_true (hplain c hc)
  rw [pyDigits, if_neg hwhole, hfilter, foldlM_digits hdigits]
  rfl

theorem prefixBase_digit {c : Char} (hc : c.isDigit = true) : prefixBase c = none := by
  have hrange := digit_range hc
  have hne : ∀ d : Char, 57 < d.toNat → c ≠ d := by
    rintro d hd rfl
    omega
  rw [prefixBase, if_neg (not_or.mpr ⟨hne _ (by decide), hne _ (by decide)⟩),
    if_neg (not_or.mpr ⟨hne _ (by decide), hne _ (by decide)⟩),
    if_neg (not_or.mpr ⟨hne _ (by decide), hne _ (by decide)⟩)]

/-- For base 0 digits are decimal, or not read. -/
theorem pyLiteral_digits {n : ℕ} (hne : cs ≠ []) (hdigits : ∀ c ∈ cs, c.isDigit = true)
    (h : pyLiteral cs = some n) : n = digitsValue cs := by
  have hvalue := pyDigits_digits hne hdigits
  unfold pyLiteral at h
  split at h
  case h_1 c rest =>
    rw [prefixBase_digit (hdigits c (List.mem_cons_of_mem _ List.mem_cons_self)), hvalue] at h
    exact (Option.some.inj (Option.eq_some_of_filter_eq_some h)).symm
  case h_2 =>
    rw [hvalue] at h
    exact (Option.some.inj h).symm

theorem mem_splitSign {c : Char} (hc : c ∈ cs) : c ∈ (splitSign cs).2 ∨ c = '-' ∨ c = '+' := by
  unfold splitSign
  split
  case h_1 => exact (List.mem_cons.mp hc).elim (fun h => .inr (.inl h)) .inl
  case h_2 => exact (List.mem_cons.mp hc).elim (fun h => .inr (.inr h)) .inl
  case h_3 => exact .inl hc

/-- The characters of a number. -/
theorem IsInt.char {v : ℤ} (h : IsInt cs v) {c : Char} (hc : c ∈ cs) : isSpace c = false ∧ c.toNat < 128 := by
  rcases mem_splitSign hc with hdigit | rfl | rfl
  · have hrange := digit_range (h.digits c hdigit)
    refine ⟨?_, by omega⟩
    refine decide_eq_false fun hspace => ?_
    have hall : [' ', '\t', '\n', '\u000b', '\u000c', '\r'].all (fun d => decide (d.toNat < 48)) = true := by decide
    have hlt : c.toNat < 48 := of_decide_eq_true (List.all_eq_true.mp hall c hspace)
    omega
  · decide
  · decide

/-- A sign and decimal digits are read as what they say. -/
theorem pyInt_of_isInt {toAscii : List Char → List Char} (hascii : ∀ cs, (∀ c ∈ cs, c.toNat < 128) → toAscii cs = cs)
    {anyBase : Bool} {v w : ℤ} (h : IsInt cs v) (hint : pyInt toAscii anyBase cs = some w) : w = v := by
  have hstrip : strip (toAscii cs) = cs := by
    rw [hascii cs fun c hc => (h.char hc).2]
    have hfront : cs.dropWhile isSpace = cs := List.dropWhile_eq_self_iff.mpr fun hlength =>
      Bool.eq_false_iff.mp (h.char (List.getElem_mem hlength)).1
    have hback : cs.reverse.dropWhile isSpace = cs.reverse := List.dropWhile_eq_self_iff.mpr fun hlength =>
      Bool.eq_false_iff.mp (h.char (List.mem_reverse.mp (List.getElem_mem hlength))).1
    rw [strip, hfront, hback, List.reverse_reverse]
  simp only [pyInt, hstrip] at hint
  obtain ⟨n, hn, rfl⟩ := Option.map_eq_some_iff.mp hint
  rw [h.value]
  refine congrArg _ ?_
  split at hn
  case isTrue => exact pyLiteral_digits h.nonempty h.digits hn
  case isFalse =>
    rw [pyDigits_digits h.nonempty h.digits] at hn
    exact (Option.some.inj hn).symm

end Decimal

end NumberText

end SlimeReceiver
