import LoxTokens.Text.Basic

/-!
# Control sequences of a terminal

A text that somebody else has written may hold control characters and control sequences, with
which it could colour, move or erase what a terminal shows.  `Terminal.visible` leaves them out.

The sequences are those of ECMA-48.  ESC starts one.  What follows decides whether it is a short
escape sequence, a control sequence, which ends with a letter, or one of the strings, which end with
a control character of their own.  CAN and SUB break off any of them, and another ESC starts anew.
Inside the first two kinds, white space is shown, and so is the text after it, until a control
character takes up the sequence again.

* `Terminal.Sequence.next` follows a sequence over one character.
* `Terminal.State.step` says of a character whether it is shown.
* `visible_sublist` says that nothing is added or moved, and `visible_eq_self` that a text without
  control characters is shown as it is.
-/

set_option autoImplicit false

namespace LoxTokens
namespace Terminal

/-- Whether a character is a control character that only moves on: tab, line feed, form feed or
carriage return. -/
def isLayout (c : Char) : Bool := c = '\t' || c = '\n' || c = '\x0c' || c = '\r'

/-- Whether a character is one of the other control characters of ASCII. -/
def isControl (c : Char) : Bool := c.toNat < 0x20 && !isLayout c || c = '\x7f'

/-- Whether the code of a character lies in a range. -/
def within (lo hi : Nat) (c : Char) : Bool := lo ≤ c.toNat && c.toNat ≤ hi

/-- How far a sequence has been read. -/
inductive Sequence
  /-- After ESC. -/
  | escape
  /-- In an escape sequence, before its final character. -/
  | intermediate
  /-- In a control sequence. -/
  | control
  /-- At the start of a device control string. -/
  | device
  /-- In the parameters of a device control string. -/
  | deviceParameters
  /-- After the parameters of a device control string. -/
  | deviceIntermediate
  /-- In the text of a device control string, or in another string for the terminal. -/
  | string
  /-- In a command for the operating system. -/
  | command
  deriving DecidableEq, Repr

namespace Sequence

/-- Whether white space inside the sequence is shown.  In strings it is part of the string. -/
def showsLayout : Sequence → Bool
  | escape | intermediate | control => true
  | _ => false

/-- What a character other than ESC, CAN and SUB makes of a sequence; `none` if it ends it.  The
byte `9C` ends a string even within the encoding of a character. -/
def next (s : Sequence) (c : Char) : Option Sequence :=
  match s with
  | escape =>
    if c = '[' then some control
    else if c = ']' then some command
    else if c = 'P' then some device
    else if c = 'X' || c = '^' || c = '_' then some string
    else if within 0x20 0x2f c then some intermediate
    else if within 0x30 0x7e c then none
    else some escape
  | intermediate => if within 0x30 0x7e c then none else some intermediate
  | control => if within 0x40 0x7e c then none else some control
  | device =>
    if within 0x20 0x2f c then some deviceIntermediate
    else if within 0x30 0x3f c then some deviceParameters
    else if within 0x40 0x7e c then some string
    else some device
  | deviceParameters =>
    if within 0x20 0x2f c then some deviceIntermediate
    else if within 0x3c 0x7e c then some string
    else some deviceParameters
  | deviceIntermediate => if within 0x30 0x7e c then some string else some deviceIntermediate
  | string => if (String.utf8EncodeChar c).contains 0x9c then none else some string
  | command => if c = '\x07' then none else some command

end Sequence

/-- What happens to the characters that come. -/
inductive State
  /-- They are shown.  A control character takes up the sequence that white space has interrupted,
  if there is one. -/
  | shown (interrupted : Option Sequence)
  /-- They belong to a sequence. -/
  | hidden (s : Sequence)
  deriving DecidableEq, Repr

/-- Whether a character is shown, and what happens to those after it. -/
def State.step (state : State) (c : Char) : Bool × State :=
  if c = '\x1b' then (false, hidden .escape)
  else if c = '\x18' || c = '\x1a' then (false, shown none)
  else match state with
    | shown interrupted =>
      if isControl c then (false, (interrupted.map hidden).getD (shown none))
      else (true, shown (if c.toNat < 0x80 then interrupted else none))
    | hidden s =>
      if s.showsLayout && isLayout c then (true, shown (some s))
      else (false, ((s.next c).map hidden).getD (shown none))

/-- The characters of a text that are shown, from a given state on. -/
def visibleFrom (state : State) : Text → Text
  | [] => []
  | c :: t =>
    if (state.step c).1 then c :: visibleFrom (state.step c).2 t
    else visibleFrom (state.step c).2 t

/-- A text without control characters and control sequences. -/
def visible (t : Text) : Text := visibleFrom (.shown none) t

/-! ## What is left of a text -/

theorem visibleFrom_sublist (state : State) (t : Text) : (visibleFrom state t).Sublist t := by
  induction t generalizing state with
  | nil => exact List.Sublist.refl _
  | cons c t ih =>
    rw [visibleFrom]
    split
    · exact (ih _).cons_cons c
    · exact (ih _).cons c

/-- Nothing is added, and nothing is moved. -/
theorem visible_sublist (t : Text) : (visible t).Sublist t := visibleFrom_sublist _ t

theorem step_shown_none {c : Char} (h : isControl c = false) :
    (State.shown none).step c = (true, .shown none) := by
  have hesc : c ≠ '\x1b' := by rintro rfl; exact absurd h (by decide)
  have hcan : c ≠ '\x18' := by rintro rfl; exact absurd h (by decide)
  have hsub : c ≠ '\x1a' := by rintro rfl; exact absurd h (by decide)
  simp [State.step, hesc, hcan, hsub, h]

/-- A text without control characters is shown as it is. -/
theorem visible_eq_self {t : Text} (h : ∀ c ∈ t, isControl c = false) : visible t = t := by
  rw [visible]
  induction t with
  | nil => rfl
  | cons c t ih =>
    rw [visibleFrom, step_shown_none (h c List.mem_cons_self)]
    simpa using ih fun d hd ↦ h d (List.mem_cons_of_mem c hd)

end Terminal
end LoxTokens
