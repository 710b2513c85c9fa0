import LoxTokens.Text.Basic

/-!
# Blank text

A text is blank if each of its characters has the Unicode property `White_Space`.  The prompt skips
blank lines.  The property is wider than what separates tokens: a no-break space makes a line blank
no less than a tab does, but between two tokens it is an unexpected character.

* `isBlankChar` decides the property, from the table `Blank.ranges`.
* `isBlank` asks it of a whole text.
-/

set_option autoImplicit false

namespace LoxTokens

/-- The code points with the property `White_Space`, as inclusive ranges. -/
def Blank.ranges : List (Nat × Nat) :=
  [(0x9, 0xd), (0x20, 0x20), (0x85, 0x85), (0xa0, 0xa0), (0x1680, 0x1680), (0x2000, 0x200a),
   (0x2028, 0x2029), (0x202f, 0x202f), (0x205f, 0x205f), (0x3000, 0x3000)]

/-- Whether a character has the property `White_Space`. -/
def isBlankChar (c : Char) : Bool :=
  Blank.ranges.any fun r ↦ r.1 ≤ c.toNat && c.toNat ≤ r.2

/-- Whether a text holds nothing but white space. -/
def isBlank (t : Text) : Bool := t.all isBlankChar

end LoxTokens
