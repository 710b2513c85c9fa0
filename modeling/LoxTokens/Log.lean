import LoxTokens.Item

/-!
# The log

A scan can be watched through a log.  Each `Record` has a level, and a `Threshold` lets through the
records that are no more verbose than it.

* `Record.ofItem?` is the record of an item; the end-of-file token has none.
* `Record.ofItems` is the log of a scan: one record per item, in order, and the two counts at the
  end.
* `Threshold.ofSetting` chooses the threshold.
* `Record.text` is the line that a record takes in the log.
-/

set_option autoImplicit false

namespace LoxTokens

/-- How verbose a record is, from the least to the most. -/
inductive Level
  | error
  | warn
  | info
  | debug
  | trace
  deriving DecidableEq, Repr

namespace Level

/-- All levels, from the least to the most verbose. -/
def all : List Level := [error, warn, info, debug, trace]

/-- The place of a level among all levels. -/
def rank : Level → Nat
  | error => 0
  | warn => 1
  | info => 2
  | debug => 3
  | trace => 4

/-- The name of a level. -/
def name : Level → Text
  | error => "error".toList
  | warn => "warn".toList
  | info => "info".toList
  | debug => "debug".toList
  | trace => "trace".toList

/-- The name of a level in a log line: capitals, flush right in five columns. -/
def label (l : Level) : Text := List.replicate (5 - l.name.length) ' ' ++ l.name.upper

end Level

/-- The most verbose level that is let through, or nothing at all. -/
structure Threshold where
  level? : Option Level
  deriving DecidableEq, Repr

namespace Threshold

/-- Whether records of a level are let through. -/
def passes (t : Threshold) (l : Level) : Bool :=
  match t.level? with
  | none => false
  | some top => l.rank ≤ top.rank

/-- The threshold that a word names.  The empty word means errors only, and a word that names no
level nothing at all, such as `off`.

Settings that do more than to name a level are outside this description: directives for parts of the
program, by name, with or without a level, and levels that are given as numbers. -/
def ofWord (word : Text) : Threshold :=
  if word = [] then ⟨some .error⟩ else ⟨Level.all.find? fun l ↦ l.name = word.lower⟩

/-- The threshold of a program: what its setting says if there is one, and otherwise debug if the
program is to be verbose, and warnings if not. -/
def ofSetting (setting : Option Text) (verbose : Bool) : Threshold :=
  match setting with
  | some word => ofWord word
  | none => ⟨some (if verbose then .debug else .warn)⟩

end Threshold

/-- What is worth recording. -/
inductive Record
  /-- The program starts with the given options. -/
  | starting (o : Options)
  /-- A token was scanned. -/
  | scanned (t : Token)
  /-- An error was found. -/
  | failed (e : LexError)
  /-- A scan is over, with that many tokens and errors. -/
  | finished (tokens errors : Nat)
  deriving DecidableEq, Repr

namespace Record

/-- Single tokens are for tracing only. -/
def level : Record → Level
  | scanned _ => .trace
  | _ => .debug

/-- The name of a treatment of empty strings. -/
def emptyStringsText : EmptyStrings → Text
  | .emit => "Emit".toList
  | .suppress => "Suppress".toList

/-- The name of a comparison of reserved words. -/
def keywordCaseText : KeywordCase → Text
  | .exact => "Exact".toList
  | .insensitive => "Insensitive".toList

/-- The wording of a record. -/
def message : Record → Text
  | starting o =>
    "starting options=Options \x7b empty_strings: ".toList ++ emptyStringsText o.emptyStrings ++
      ", keyword_case: ".toList ++ keywordCaseText o.keywordCase ++ " \x7d".toList
  | scanned t => "scanned token token=".toList ++ t.text
  | failed e => "lexical error error=".toList ++ e.text
  | finished tokens errors =>
    "scan finished tokens=".toList ++ Text.ofNat tokens ++ " errors=".toList ++ Text.ofNat errors

/-- A record as it stands in the log: the time at which it was made, its level and its message.

This is the line where colours are turned off.  Otherwise it also holds the escape sequences that
colour its parts. -/
def text (time : Text) (r : Record) : Text := time ++ ' ' :: r.level.label ++ ' ' :: r.message

/-- The record of an item.  The end-of-file token is not worth one. -/
def ofItem? : Item → Option Record
  | .token t => if t.isEndOfFile then none else some (scanned t)
  | .error e => some (failed e)

/-- The records of a scan, in order. -/
def ofItems (items : List Item) : List Record :=
  let scan := Scan.ofItems items
  items.filterMap ofItem? ++ [finished scan.tokens.length scan.errors.length]

end Record
end LoxTokens
