import LoxTokens.Options
import LoxTokens.Text.Basic

/-!
# Keywords

The fifteen reserved words of the language.  There is no reserved word for the absent value.

The words are written out three times, for three uses, and the tables are shown to agree.

* `Keyword.text` is the spelling of a keyword, in small letters.
* `Keyword.capitals` is the way in which a keyword is displayed, in capitals.
* `Keyword.reserved` is the table in which a word is looked up, and `Keyword.ofText?` looks it up.
* `Keyword.lookup_reserved_eq_some_iff` — the table holds the spellings, and no other words.
* `Keyword.capitals_eq_upper` — the capitals are those of the spelling.
-/

set_option autoImplicit false

namespace LoxTokens

/-- A reserved word. -/
inductive Keyword
  | andKw | classKw | elseKw | falseKw | forKw | funKw | ifKw | orKw
  | printKw | returnKw | superKw | thisKw | trueKw | varKw | whileKw
  deriving DecidableEq, Repr

namespace Keyword

/-- The keywords in alphabetical order. -/
def all : List Keyword :=
  [andKw, classKw, elseKw, falseKw, forKw, funKw, ifKw, orKw,
   printKw, returnKw, superKw, thisKw, trueKw, varKw, whileKw]

theorem mem_all (k : Keyword) : k ∈ all := by cases k <;> decide

/-- The spelling of a keyword. -/
def text : Keyword → Text
  | andKw => "and".toList
  | classKw => "class".toList
  | elseKw => "else".toList
  | falseKw => "false".toList
  | forKw => "for".toList
  | funKw => "fun".toList
  | ifKw => "if".toList
  | orKw => "or".toList
  | printKw => "print".toList
  | returnKw => "return".toList
  | superKw => "super".toList
  | thisKw => "this".toList
  | trueKw => "true".toList
  | varKw => "var".toList
  | whileKw => "while".toList

/-- The name under which a keyword is displayed. -/
def capitals : Keyword → Text
  | andKw => "AND".toList
  | classKw => "CLASS".toList
  | elseKw => "ELSE".toList
  | falseKw => "FALSE".toList
  | forKw => "FOR".toList
  | funKw => "FUN".toList
  | ifKw => "IF".toList
  | orKw => "OR".toList
  | printKw => "PRINT".toList
  | returnKw => "RETURN".toList
  | superKw => "SUPER".toList
  | thisKw => "THIS".toList
  | trueKw => "TRUE".toList
  | varKw => "VAR".toList
  | whileKw => "WHILE".toList

/-- The reserved words, each with the keyword that it is read as. -/
def reserved : List (Text × Keyword) :=
  [("and".toList, andKw), ("class".toList, classKw), ("else".toList, elseKw),
   ("false".toList, falseKw), ("for".toList, forKw), ("fun".toList, funKw),
   ("if".toList, ifKw), ("or".toList, orKw), ("print".toList, printKw),
   ("return".toList, returnKw), ("super".toList, superKw), ("this".toList, thisKw),
   ("true".toList, trueKw), ("var".toList, varKw), ("while".toList, whileKw)]

/-- The keyword that a word is read as, if it is reserved.  In any case of letters it is the word in
small letters that is looked up. -/
def ofText? (keywordCase : KeywordCase) (word : Text) : Option Keyword :=
  match keywordCase with
  | .exact => reserved.lookup word
  | .insensitive => reserved.lookup word.lower

/-- No two keywords are spelled alike. -/
theorem text_inj {k l : Keyword} (h : k.text = l.text) : k = l := by
  have hall : ∀ k ∈ all, ∀ l ∈ all, k.text = l.text → k = l := by decide
  exact hall k (mem_all k) l (mem_all l) h

/-! ## The three tables -/

theorem reserved_eq_map : reserved = all.map fun k ↦ (k.text, k) := by decide

/-- A keyword stands in the table under its spelling only. -/
theorem mem_reserved_iff {k : Keyword} {w : Text} : (w, k) ∈ reserved ↔ w = k.text := by
  rw [reserved_eq_map, List.mem_map]
  constructor
  · rintro ⟨l, -, hl⟩
    cases hl
    rfl
  · rintro rfl
    exact ⟨k, mem_all k, rfl⟩

theorem lookup_reserved_eq_some_iff {k : Keyword} {w : Text} :
    reserved.lookup w = some k ↔ w = k.text := by
  constructor
  · intro h
    obtain ⟨before, after, htable, -⟩ := List.lookup_eq_some_iff.1 h
    exact mem_reserved_iff.1 (htable ▸ List.mem_append_right before List.mem_cons_self)
  · rintro rfl
    cases k <;> decide

theorem capitals_eq_upper (k : Keyword) : k.capitals = k.text.upper := by cases k <;> decide

end Keyword
end LoxTokens
