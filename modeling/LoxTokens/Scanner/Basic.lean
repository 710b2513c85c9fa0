import LoxTokens.Scanner.Cursor
import LoxTokens.Span

/-!
# The scanner

A scanner goes through a source and gives one item at a time: the tokens and the errors in source
order, then one end-of-file token, and nothing after that.

* `Scanner.next` reads spans until one of them makes an item.
* `Scanner.items` is all that is still to come, and `Scanner.tokenize` the same as two lists.
* `tokenize` scans a whole source.
-/

set_option autoImplicit false

namespace LoxTokens

/-- A scan in progress. -/
structure Scanner where
  options : Options
  cursor : Cursor
  /-- Whether the end-of-file token has been given. -/
  finished : Bool := false
  deriving DecidableEq, Repr

namespace Scanner

/-- The scanner in front of a source. -/
def ofText (o : Options) (source : Text) : Scanner := ⟨o, Cursor.ofText source, false⟩

/-- The next item, if there is one, and the scanner after it. -/
def next (s : Scanner) : Option Item × Scanner :=
  let c := s.cursor.mark
  match _hrest : c.rest with
  | [] =>
    if s.finished then (none, { s with cursor := c })
    else (some (.token (Token.endOfFile c.line)), { s with cursor := c, finished := true })
  | x :: rest =>
    let span := Span.first x rest
    let s' := { s with cursor := c.advanceBy span.text.length }
    match span.item? s.options c.startLine with
    | some i => (some i, s')
    | none => next s'
  termination_by s.cursor.rest.length
  decreasing_by
    have hpos := List.length_pos_iff.2 (Span.text_first_ne_nil x rest)
    have hlen : s.cursor.rest.length = rest.length + 1 := by
      rw [← Cursor.rest_mark, _hrest, List.length_cons]
    simp only [Cursor.rest_advanceBy, Cursor.rest_mark, List.length_drop]
    omega

/-- What is left to do: the characters to read and the end-of-file token. -/
def remaining (s : Scanner) : Nat := s.cursor.rest.length + if s.finished then 0 else 1

/-- Each item leaves less to do. -/
theorem remaining_next {s s' : Scanner} {i : Item} (h : s.next = (some i, s')) :
    s'.remaining < s.remaining := by
  fun_induction next s with
  | case1 s c hrest hf => simp at h
  | case2 s c hrest hf =>
    cases h
    simp [remaining, hf, c, Cursor.rest_mark]
  | case3 s c x rest hrest span s₁ i' hi =>
    rw [← (Prod.mk.inj h).2]
    have hpos := List.length_pos_iff.2 (Span.text_first_ne_nil x rest)
    have hlen : s.cursor.rest.length = rest.length + 1 := by
      rw [← Cursor.rest_mark, hrest, List.length_cons]
    simp only [remaining, s₁, Cursor.rest_advanceBy, c, Cursor.rest_mark, List.length_drop, span]
    omega
  | case4 s c x rest hrest span s₁ hi ih =>
    refine Nat.lt_of_lt_of_le (ih h) ?_
    simp only [remaining, s₁, Cursor.rest_advanceBy, c, Cursor.rest_mark, List.length_drop]
    omega

/-- All items that are still to come. -/
def items (s : Scanner) : List Item :=
  match _hnext : s.next with
  | (none, _) => []
  | (some i, s') => i :: items s'
  termination_by s.remaining
  decreasing_by exact remaining_next _hnext

/-- The tokens and the errors that are still to come. -/
def tokenize (s : Scanner) : Scan := Scan.ofItems s.items

end Scanner

/-- The tokens and the errors of a source. -/
def tokenize (o : Options) (source : Text) : Scan := (Scanner.ofText o source).tokenize

end LoxTokens
