import LoxTokens.Text.Basic

/-!
# Cursors

A cursor stands between two characters of a source.  It knows the text after it, its own position
as an offset in bytes and as a line, and the position at which the span that is being read started.

* `Cursor.mark` starts a new span at the position of the cursor.
* `Cursor.advance` moves over one character, and `Cursor.advanceBy` over several.
* `rest_advanceBy`, `current_advanceBy` and `line_advanceBy` say where a cursor stands afterwards.
-/

set_option autoImplicit false

namespace LoxTokens

/-- A position in a source, and the position where the current span starts. -/
structure Cursor where
  /-- The text after the cursor. -/
  rest : Text
  /-- The offset in bytes at which the current span starts. -/
  start : Nat := 0
  /-- The offset in bytes of the cursor. -/
  current : Nat := 0
  /-- The line on which the current span starts. -/
  startLine : Nat := 1
  /-- The line of the cursor. -/
  line : Nat := 1
  deriving DecidableEq, Repr

namespace Cursor

/-- The cursor in front of a source. -/
def ofText (source : Text) : Cursor := { rest := source }

/-- Starts a new span at the position of the cursor. -/
def mark (c : Cursor) : Cursor := { c with start := c.current, startLine := c.line }

/-- Moves over the next character, if there is one. -/
def advance (c : Cursor) : Cursor :=
  match c.rest with
  | [] => c
  | x :: rest =>
    { c with
      rest := rest
      current := c.current + x.utf8Size
      line := if x = '\n' then c.line + 1 else c.line }

/-- Moves over the next `n` characters, or over all of them if there are fewer. -/
def advanceBy : Nat → Cursor → Cursor
  | 0, c => c
  | n + 1, c => advanceBy n c.advance

/-! ## Where a cursor stands -/

theorem rest_mark (c : Cursor) : c.mark.rest = c.rest := rfl

theorem rest_advance (c : Cursor) : c.advance.rest = c.rest.tail := by
  unfold advance; split <;> simp [*]

theorem start_advance (c : Cursor) : c.advance.start = c.start := by
  unfold advance; split <;> rfl

theorem startLine_advance (c : Cursor) : c.advance.startLine = c.startLine := by
  unfold advance; split <;> rfl

theorem current_advance (c : Cursor) :
    c.advance.current = c.current + Text.byteLength (c.rest.take 1) := by
  unfold advance; split <;> simp [*]

theorem line_advance (c : Cursor) :
    c.advance.line = c.line + Text.newlines (c.rest.take 1) := by
  unfold advance
  split
  · simp [*]
  · next h => simp only [h, List.take_succ_cons, List.take_zero, Text.newlines_cons]; split <;> simp

theorem start_advanceBy (n : Nat) (c : Cursor) : (c.advanceBy n).start = c.start := by
  induction n generalizing c with
  | zero => rfl
  | succ n ih => rw [advanceBy, ih, start_advance]

theorem startLine_advanceBy (n : Nat) (c : Cursor) :
    (c.advanceBy n).startLine = c.startLine := by
  induction n generalizing c with
  | zero => rfl
  | succ n ih => rw [advanceBy, ih, startLine_advance]

/-- Moving over `n` characters drops them from the text after the cursor. -/
theorem rest_advanceBy (n : Nat) (c : Cursor) : (c.advanceBy n).rest = c.rest.drop n := by
  induction n generalizing c with
  | zero => rfl
  | succ n ih => rw [advanceBy, ih, rest_advance, List.drop_tail]

/-- The offset grows by the bytes of the characters that the cursor moves over. -/
theorem current_advanceBy (n : Nat) (c : Cursor) :
    (c.advanceBy n).current = c.current + Text.byteLength (c.rest.take n) := by
  induction n generalizing c with
  | zero => simp [advanceBy]
  | succ n ih =>
    rw [advanceBy, ih, current_advance, rest_advance]
    cases c.rest <;> simp [Nat.add_assoc]

/-- The line grows by the line feeds that the cursor moves over. -/
theorem line_advanceBy (n : Nat) (c : Cursor) :
    (c.advanceBy n).line = c.line + Text.newlines (c.rest.take n) := by
  induction n generalizing c with
  | zero => simp [advanceBy]
  | succ n ih =>
    rw [advanceBy, ih, line_advance, rest_advance]
    cases c.rest with
    | nil => simp
    | cons x rest => simp [Text.newlines_cons]; omega

end Cursor
end LoxTokens
