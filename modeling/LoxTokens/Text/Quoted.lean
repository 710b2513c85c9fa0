import LoxTokens.Text.Unprintable

/-!
# Quoted text

A text between double quotes, with every character that would break the line or hide on the page
written as an escape.  NUL, tab, line feed, carriage return, the double quote and the backslash
have two-character escapes; any other unprintable character is written `\u{…}` with its code point
in hexadecimal; all else stands for itself.

* `Quoted.escape` is the escaped form of one character.
* `Quoted.encode` is the quoted form of a text.
-/

set_option autoImplicit false

namespace LoxTokens
namespace Quoted

/-- The letter that stands for a character after a backslash, if it has one. -/
def letter? : Char → Option Char
  | '\x00' => some '0'
  | '\t' => some 't'
  | '\n' => some 'n'
  | '\r' => some 'r'
  | '"' => some '"'
  | '\\' => some '\\'
  | _ => none

/-- The escape that names a character by its code point. -/
def codePoint (c : Char) : Text := ['\\', 'u', '{'] ++ Text.ofHex c.toNat ++ ['}']

/-- How a character is written inside quotes. -/
def escape (c : Char) : Text :=
  match letter? c with
  | some l => ['\\', l]
  | none => if isUnprintable c then codePoint c else [c]

/-- A text between quotes, each of its characters escaped where it has to be. -/
def encode (t : Text) : Text := '"' :: t.flatMap escape ++ ['"']

end Quoted
end LoxTokens
