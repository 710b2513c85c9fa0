/-!
# Scanner options

Two decisions that a scan leaves to its caller: what becomes of the literal `""`, and whether
reserved words have to be written in small letters.  The default, an empty string token and small
letters only, is the usual reading of Lox.
-/

set_option autoImplicit false

namespace LoxTokens

/-- What becomes of the literal `""`. -/
inductive EmptyStrings
  /-- It is a string token with empty text. -/
  | emit
  /-- It is dropped without a token. -/
  | suppress
  deriving DecidableEq, Repr, Inhabited

/-- How a word is compared with the reserved words. -/
inductive KeywordCase
  /-- Letter for letter. -/
  | exact
  /-- Up to the case of ASCII letters. -/
  | insensitive
  deriving DecidableEq, Repr, Inhabited

/-- The options of a scan. -/
structure Options where
  emptyStrings : EmptyStrings := .emit
  keywordCase : KeywordCase := .exact
  deriving DecidableEq, Repr, Inhabited

namespace Options

/-- The usual reading of Lox. -/
def default : Options := {}

/-- The options with another treatment of empty strings. -/
def withEmptyStrings (o : Options) (e : EmptyStrings) : Options := { o with emptyStrings := e }

/-- The options with another comparison of reserved words. -/
def withKeywordCase (o : Options) (k : KeywordCase) : Options := { o with keywordCase := k }

end Options
end LoxTokens
