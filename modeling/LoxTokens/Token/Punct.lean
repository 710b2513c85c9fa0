import LoxTokens.Text.Basic

/-!
# Punctuation

The nineteen brackets, separators and operators.  Fifteen of them are one character long; the other
four are `!`, `=`, `<` and `>` with an equals sign behind, and are preferred to the shorter ones.

* `Punct.text` is the spelling and `Punct.name` the name under which a token displays it.
* `Punct.first?` is the longest punctuation at the front of a text.
-/

set_option autoImplicit false

namespace LoxTokens

/-- A bracket, separator or operator. -/
inductive Punct
  | leftParen | rightParen | leftBrace | rightBrace
  | comma | dot | minus | plus | semicolon | slash | star
  | bang | bangEqual | equal | equalEqual
  | greater | greaterEqual | less | lessEqual
  deriving DecidableEq, Repr

namespace Punct

/-- All punctuation. -/
def all : List Punct :=
  [leftParen, rightParen, leftBrace, rightBrace, comma, dot, minus, plus, semicolon, slash, star,
   bang, bangEqual, equal, equalEqual, greater, greaterEqual, less, lessEqual]

theorem mem_all (p : Punct) : p ∈ all := by cases p <;> decide

/-- The spelling. -/
def text : Punct → Text
  | leftParen => ['(']
  | rightParen => [')']
  | leftBrace => ['{']
  | rightBrace => ['}']
  | comma => [',']
  | dot => ['.']
  | minus => ['-']
  | plus => ['+']
  | semicolon => [';']
  | slash => ['/']
  | star => ['*']
  | bang => ['!']
  | bangEqual => ['!', '=']
  | equal => ['=']
  | equalEqual => ['=', '=']
  | greater => ['>']
  | greaterEqual => ['>', '=']
  | less => ['<']
  | lessEqual => ['<', '=']

/-- The name in a displayed token. -/
def name : Punct → Text
  | leftParen => "LEFT_PAREN".toList
  | rightParen => "RIGHT_PAREN".toList
  | leftBrace => "LEFT_BRACE".toList
  | rightBrace => "RIGHT_BRACE".toList
  | comma => "COMMA".toList
  | dot => "DOT".toList
  | minus => "MINUS".toList
  | plus => "PLUS".toList
  | semicolon => "SEMICOLON".toList
  | slash => "SLASH".toList
  | star => "STAR".toList
  | bang => "BANG".toList
  | bangEqual => "BANG_EQUAL".toList
  | equal => "EQUAL".toList
  | equalEqual => "EQUAL_EQUAL".toList
  | greater => "GREATER".toList
  | greaterEqual => "GREATER_EQUAL".toList
  | less => "LESS".toList
  | lessEqual => "LESS_EQUAL".toList

/-- The punctuation that consists of one character. -/
def single? : Char → Option Punct
  | '(' => some leftParen
  | ')' => some rightParen
  | '{' => some leftBrace
  | '}' => some rightBrace
  | ',' => some comma
  | '.' => some dot
  | '-' => some minus
  | '+' => some plus
  | ';' => some semicolon
  | '/' => some slash
  | '*' => some star
  | '!' => some bang
  | '=' => some equal
  | '>' => some greater
  | '<' => some less
  | _ => none

/-- The punctuation that consists of a character and an equals sign. -/
def withEqual? : Char → Option Punct
  | '!' => some bangEqual
  | '=' => some equalEqual
  | '>' => some greaterEqual
  | '<' => some lessEqual
  | _ => none

/-- The longest punctuation at the front of the text `c :: rest`. -/
def first? (c : Char) (rest : Text) : Option Punct :=
  if rest.head? = some '=' then withEqual? c <|> single? c else single? c

end Punct
end LoxTokens
