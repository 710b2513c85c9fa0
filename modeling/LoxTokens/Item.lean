import LoxTokens.LexError
import LoxTokens.Token.Basic

/-!
# Items and scans

A scan goes through the source once and meets tokens and errors in turn: its `Item`s.  The result of
a `Scan` is the same sequence taken apart into the list of tokens and the list of errors.
-/

set_option autoImplicit false

namespace LoxTokens

/-- What a scan meets next. -/
inductive Item
  | token (t : Token)
  | error (e : LexError)
  deriving DecidableEq, Repr

namespace Item

/-- The token, if the item is one. -/
def token? : Item → Option Token
  | token t => some t
  | error _ => none

/-- The error, if the item is one. -/
def error? : Item → Option LexError
  | token _ => none
  | error e => some e

theorem token?_eq_some_iff {i : Item} {t : Token} : i.token? = some t ↔ i = .token t := by
  cases i <;> simp [token?]

theorem error?_eq_some_iff {i : Item} {e : LexError} : i.error? = some e ↔ i = .error e := by
  cases i <;> simp [error?]

/-- The line that an item names. -/
def line : Item → Nat
  | token t => t.line
  | error e => e.line

end Item

/-- The tokens and the errors of a source, each in source order. -/
structure Scan where
  tokens : List Token
  errors : List LexError
  deriving DecidableEq, Repr

namespace Scan

/-- Takes a sequence of items apart. -/
def ofItems (items : List Item) : Scan := ⟨items.filterMap Item.token?, items.filterMap Item.error?⟩

@[simp] theorem ofItems_nil : ofItems [] = ⟨[], []⟩ := rfl

@[simp] theorem ofItems_token (t : Token) (items : List Item) :
    ofItems (.token t :: items) =
      ⟨t :: (ofItems items).tokens, (ofItems items).errors⟩ := rfl

@[simp] theorem ofItems_error (e : LexError) (items : List Item) :
    ofItems (.error e :: items) =
      ⟨(ofItems items).tokens, e :: (ofItems items).errors⟩ := rfl

theorem ofItems_append (xs ys : List Item) :
    ofItems (xs ++ ys) =
      ⟨(ofItems xs).tokens ++ (ofItems ys).tokens, (ofItems xs).errors ++ (ofItems ys).errors⟩ := by
  simp [ofItems]

theorem mem_tokens_ofItems {t : Token} {items : List Item} :
    t ∈ (ofItems items).tokens ↔ .token t ∈ items := by
  simp [ofItems, Item.token?_eq_some_iff]

theorem mem_errors_ofItems {e : LexError} {items : List Item} :
    e ∈ (ofItems items).errors ↔ .error e ∈ items := by
  simp [ofItems, Item.error?_eq_some_iff]

theorem ofItems_map_token (ts : List Token) : ofItems (ts.map Item.token) = ⟨ts, []⟩ := by
  induction ts with
  | nil => rfl
  | cons t ts ih => rw [List.map_cons, ofItems_token, ih]

end Scan
end LoxTokens
