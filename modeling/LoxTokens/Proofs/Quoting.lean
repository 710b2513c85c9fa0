import LoxTokens.Text.Quoted
import Mathlib.Tactic.IntervalCases

/-!
# Reading quoted text

A quoted text can be read back, and the reader finds its end without looking at what comes behind.

* `Quoted.decode t` — the text whose quoted form stands at the front of `t`, and what follows it.
* `decodeFrom_escape` — one escaped character is read as that character, from which
  `decode_encode` follows for whole texts.
-/

set_option autoImplicit false

namespace LoxTokens
namespace Quoted

/-! ## The reader -/

/-- The character that a letter stands for after a backslash, if it stands for one. -/
def ofLetter? : Char → Option Char
  | '0' => some '\x00'
  | 't' => some '\t'
  | 'n' => some '\n'
  | 'r' => some '\r'
  | '"' => some '"'
  | '\\' => some '\\'
  | _ => none

/-- The value of a hexadecimal digit, if the character is one. -/
def hexValue? (d : Char) : Option Nat :=
  if '0' ≤ d ∧ d ≤ '9' then some (d.toNat - '0'.toNat)
  else if 'a' ≤ d ∧ d ≤ 'f' then some (d.toNat - 'a'.toNat + 10)
  else none

/-- Puts a character in front of what was read. -/
def consRead (c : Char) (read : Option (Text × Text)) : Option (Text × Text) :=
  read.map fun p ↦ (c :: p.1, p.2)

/-- Reads up to the closing quote.  Inside the braces of an escape, the first argument is the code
point that has been read so far. -/
def decodeFrom : Option Nat → Text → Option (Text × Text)
  | none, '"' :: t => some ([], t)
  | none, '\\' :: 'u' :: '{' :: t => decodeFrom (some 0) t
  | none, '\\' :: l :: t => (ofLetter? l).bind fun c ↦ consRead c (decodeFrom none t)
  | none, c :: t => consRead c (decodeFrom none t)
  | some n, '}' :: t => consRead (Char.ofNat n) (decodeFrom none t)
  | some n, d :: t => (hexValue? d).bind fun v ↦ decodeFrom (some (16 * n + v)) t
  | _, [] => none

/-- The text whose quoted form stands at the front, and the text behind the closing quote. -/
def decode : Text → Option (Text × Text)
  | '"' :: t => decodeFrom none t
  | _ => none

/-! ## Escapes -/

theorem decodeFrom_digitChar {d : Nat} (hd : d < 16) (n : Nat) (t : Text) :
    decodeFrom (some n) (d.digitChar :: t) = decodeFrom (some (16 * n + d)) t := by
  have hbrace : d.digitChar ≠ '}' := by interval_cases d <;> decide
  have hvalue : hexValue? d.digitChar = some d := by interval_cases d <;> decide
  rw [decodeFrom, hvalue, Option.bind_some]
  exact hbrace

/-- A number in hexadecimal is read as that number. -/
theorem decodeFrom_ofHex (n : Nat) (t : Text) :
    decodeFrom (some 0) (Text.ofHex n ++ t) = decodeFrom (some n) t := by
  induction n using Nat.strongRecOn generalizing t with
  | ind n ih =>
    rw [Text.ofHex, Nat.toDigits_eq_if (by decide)]
    split
    · next hn => rw [List.singleton_append, decodeFrom_digitChar hn, Nat.mul_zero, Nat.zero_add]
    · next hn =>
      have hlast := ih (n / 16) (by omega) ((n % 16).digitChar :: t)
      rw [Text.ofHex, decodeFrom_digitChar (by omega), Nat.div_add_mod] at hlast
      rw [List.append_assoc, List.singleton_append, hlast]

theorem decodeFrom_codePoint (c : Char) (t : Text) :
    decodeFrom none (codePoint c ++ t) = consRead c (decodeFrom none t) := by
  have hopen : codePoint c ++ t = '\\' :: 'u' :: '{' :: (Text.ofHex c.toNat ++ '}' :: t) := by
    simp [codePoint]
  rw [hopen, decodeFrom, decodeFrom_ofHex, decodeFrom, Char.ofNat_toNat]

/-- **An escaped character is read as that character.** -/
theorem decodeFrom_escape (c : Char) (t : Text) :
    decodeFrom none (escape c ++ t) = consRead c (decodeFrom none t) := by
  cases hl : letter? c with
  | some l =>
    rw [escape, hl]
    unfold letter? at hl
    split at hl <;> cases hl <;> rfl
  | none =>
    have hquote : c ≠ '"' := by rintro rfl; cases hl
    have hbackslash : c ≠ '\\' := by rintro rfl; cases hl
    rw [escape, hl]
    dsimp only
    split
    · exact decodeFrom_codePoint c t
    · rw [List.singleton_append, decodeFrom] <;> simp [hquote, hbackslash]

theorem decodeFrom_flatMap_escape (s t : Text) :
    decodeFrom none (s.flatMap escape ++ '"' :: t) = some (s, t) := by
  induction s with
  | nil => rfl
  | cons c s ih =>
    rw [List.flatMap_cons, List.append_assoc, decodeFrom_escape, ih]
    rfl

/-- **Quoted text can be read back, whatever follows it.** -/
theorem decode_encode (s t : Text) : decode (encode s ++ t) = some (s, t) := by
  rw [encode, List.append_assoc, List.cons_append, decode]
  exact decodeFrom_flatMap_escape s t

end Quoted
end LoxTokens
