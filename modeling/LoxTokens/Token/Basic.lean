import LoxTokens.Number.Basic
import LoxTokens.Text.Quoted
import LoxTokens.Token.Keyword
import LoxTokens.Token.Punct

/-!
# Tokens

A token has a kind, which carries the value of a literal, the lexeme that was read and the line on
which it starts.  The lexeme of a string token is the text between its quotes.

* `TokenKind.text` and `Token.text` are the displayed forms, such as `NUMBER(INTEGER(7))` and
  `NUMBER(INTEGER(7))(007) line 3`.
* `Token.sameValue` compares tokens with floating-point numbers taken as numbers.
-/

set_option autoImplicit false

namespace LoxTokens

/-- What a token is. -/
inductive TokenKind
  | punct (p : Punct)
  | identifier
  | string (text : Text)
  | number (value : Number)
  | keyword (k : Keyword)
  | endOfFile
  deriving DecidableEq, Repr

namespace TokenKind

/-- The name of a kind, without the value that it carries. -/
def name : TokenKind → Text
  | punct p => p.name
  | identifier => "IDENTIFIER".toList
  | string _ => "STRING".toList
  | number _ => "NUMBER".toList
  | keyword _ => "KEYWORD".toList
  | endOfFile => "EOF".toList

/-- The displayed form of the value that a kind carries, if it carries one. -/
def valueText? : TokenKind → Option Text
  | string t => some (Quoted.encode t)
  | number n => some n.text
  | keyword k => some k.capitals
  | _ => none

/-- The displayed form of a kind: its name, and its value in parentheses. -/
def text (k : TokenKind) : Text :=
  match k.valueText? with
  | some v => k.name ++ '(' :: v ++ [')']
  | none => k.name

/-- Whether the kind is that of a keyword. -/
def isKeyword : TokenKind → Bool
  | keyword _ => true
  | _ => false

/-- Equality of kinds and their values, where floating-point numbers are compared as numbers. -/
def sameValue : TokenKind → TokenKind → Bool
  | number m, number n => m.sameValue n
  | k, l => k = l

end TokenKind

/-- A piece of the source with a meaning. -/
structure Token where
  kind : TokenKind
  lexeme : Text
  line : Nat
  deriving DecidableEq, Repr

namespace Token

/-- The displayed form of a token: its kind, its lexeme as it was read, and its line. -/
def text (t : Token) : Text :=
  t.kind.text ++ '(' :: t.lexeme ++ ") line ".toList ++ Text.ofNat t.line

/-- Whether the token is the one that ends every scan. -/
def isEndOfFile (t : Token) : Bool := t.kind = .endOfFile

/-- The token that ends a scan on the given line. -/
def endOfFile (line : Nat) : Token := ⟨.endOfFile, [], line⟩

/-- Equality of tokens, where floating-point numbers are compared as numbers. -/
def sameValue (t u : Token) : Bool :=
  t.kind.sameValue u.kind && t.lexeme = u.lexeme && t.line = u.line

end Token
end LoxTokens
