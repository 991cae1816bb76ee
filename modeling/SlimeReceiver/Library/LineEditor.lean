import Mathlib.Data.List.Basic
import Mathlib.Tactic.Common

/-! # Editing a line

A line with a cursor is the text to the left of the cursor and the text to the right of it.

* **`LineEditor`** — the line, with the operations of a line editor.
* **`LineEditor.text`**, **`LineEditor.cursor`** — what is seen of it, and what every operation does to it. -/

namespace SlimeReceiver

universe u

/-- A line with a cursor. -/
structure LineEditor (α : Type u) where
  left : List α
  right : List α
  deriving DecidableEq

namespace LineEditor

variable {α : Type u} (e : LineEditor α)

def empty : LineEditor α := ⟨[], []⟩

/-- The whole line. -/
def text : List α := e.left ++ e.right

/-- The number of characters before the cursor. -/
def cursor : ℕ := e.left.length

/-- A character is typed. -/
def insert (x : α) : LineEditor α := ⟨e.left ++ [x], e.right⟩

/-- The character before the cursor is taken away. -/
def backspace : LineEditor α := ⟨e.left.dropLast, e.right⟩

/-- The character after the cursor is taken away. -/
def delete : LineEditor α := ⟨e.left, e.right.tail⟩

/-- The cursor goes left, as far as it can. -/
def moveLeft (count : ℕ) : LineEditor α :=
  ⟨e.left.take (e.left.length - count), e.left.drop (e.left.length - count) ++ e.right⟩

/-- The cursor goes right, as far as it can. -/
def moveRight (count : ℕ) : LineEditor α := ⟨e.left ++ e.right.take count, e.right.drop count⟩

def home : LineEditor α := ⟨[], e.left ++ e.right⟩

def goEnd : LineEditor α := ⟨e.left ++ e.right, []⟩

@[simp] theorem text_moveLeft (count : ℕ) : (e.moveLeft count).text = e.text := by
  rw [text, moveLeft, ← List.append_assoc, List.take_append_drop, text]

@[simp] theorem text_moveRight (count : ℕ) : (e.moveRight count).text = e.text := by
  rw [text, moveRight, List.append_assoc, List.take_append_drop, text]

@[simp] theorem text_home : e.home.text = e.text := rfl

@[simp] theorem text_goEnd : e.goEnd.text = e.text := List.append_nil _

@[simp] theorem cursor_moveLeft (count : ℕ) : (e.moveLeft count).cursor = e.cursor - count := by
  rw [cursor, moveLeft, List.length_take, cursor]
  exact Nat.min_eq_left (Nat.sub_le _ _)

@[simp] theorem cursor_moveRight (count : ℕ) : (e.moveRight count).cursor = e.cursor + min count e.right.length := by
  rw [cursor, moveRight, List.length_append, List.length_take, cursor]

@[simp] theorem cursor_home : e.home.cursor = 0 := rfl

@[simp] theorem cursor_goEnd : e.goEnd.cursor = e.text.length := rfl

end LineEditor

end SlimeReceiver
