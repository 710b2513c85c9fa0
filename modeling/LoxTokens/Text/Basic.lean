/-!
# Texts

A source, a lexeme, a message and a whole line of output are all a `Text`: a list of Unicode
characters.

* `Text.newlines` counts the line ends of a text, which is what line numbers are made of.
* `Text.lower` maps the ASCII capitals of a text to small letters and leaves everything else alone.
* `Text.byteLength` is the length of a text in UTF-8, the unit of the scanner's offsets.
* `Text.ofNat`, `Text.ofInt` and `Text.ofHex` write numbers.
-/

set_option autoImplicit false

namespace LoxTokens

/-- A sequence of Unicode characters. -/
abbrev Text := List Char

namespace Text

/-- The number of line feeds in a text. -/
def newlines (t : Text) : Nat := t.count '\n'

/-- The text with each ASCII capital made small.  Letters outside ASCII stay as they are. -/
def lower (t : Text) : Text := t.map Char.toLower

/-- The text with each small ASCII letter made a capital.  Letters outside ASCII stay as they
are. -/
def upper (t : Text) : Text := t.map Char.toUpper

/-- The number of bytes that a text takes in UTF-8. -/
def byteLength : Text → Nat
  | [] => 0
  | c :: t => c.utf8Size + byteLength t

/-- A natural number in decimal, without leading zeros. -/
def ofNat (n : Nat) : Text := Nat.toDigits 10 n

/-- An integer in decimal, with a minus sign if it is negative. -/
def ofInt : Int → Text
  | .ofNat n => ofNat n
  | .negSucc n => '-' :: ofNat (n + 1)

/-- A natural number in hexadecimal, with small letters and without leading zeros. -/
def ofHex (n : Nat) : Text := Nat.toDigits 16 n

/-- The part of a text before its first line feed. -/
def firstLine (t : Text) : Text := t.takeWhile (· != '\n')

/-! ## Line feeds, letter case and bytes, character by character -/

@[simp] theorem newlines_nil : newlines [] = 0 := rfl

theorem newlines_cons (c : Char) (t : Text) :
    newlines (c :: t) = newlines t + if c = '\n' then 1 else 0 := by
  simp [newlines, List.count_cons]

@[simp] theorem newlines_append (s t : Text) : newlines (s ++ t) = newlines s + newlines t :=
  List.count_append

theorem newlines_eq_zero_iff {t : Text} : newlines t = 0 ↔ '\n' ∉ t := List.count_eq_zero

/-- A capital and its small letter are 32 apart. -/
theorem toNat_toLower {c : Char} (h : 'A' ≤ c ∧ c ≤ 'Z') : c.toLower.toNat = c.toNat + 32 := by
  have hval : c.toLower.val = c.val + 32 := congrArg Char.val (dif_pos h)
  have hupper : c.val.toNat ≤ 90 := UInt32.le_iff_toNat_le.1 h.2
  rw [Char.toNat, hval, UInt32.toNat_add]
  exact Nat.mod_eq_of_lt (Nat.lt_of_le_of_lt (Nat.add_le_add_right hupper 32) (by decide))

@[simp] theorem lower_append (s t : Text) : lower (s ++ t) = lower s ++ lower t := List.map_append

@[simp] theorem byteLength_nil : byteLength [] = 0 := rfl

@[simp] theorem byteLength_cons (c : Char) (t : Text) :
    byteLength (c :: t) = c.utf8Size + byteLength t := rfl

@[simp] theorem byteLength_append (s t : Text) :
    byteLength (s ++ t) = byteLength s + byteLength t := by
  induction s with
  | nil => simp
  | cons c s ih => simp [ih, Nat.add_assoc]

end Text
end LoxTokens
