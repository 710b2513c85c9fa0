import LoxTokens.Proofs.Quoting
import LoxTokens.Token.Basic
import Mathlib.Data.List.Basic

/-!
# Strings in displayed form

A string token is displayed as `STRING("…")`, and its lexeme follows as it was read: the same text
once more, this time with its backslashes and line feeds raw.  What stands between the outer quotes
can be told from all of that.

* `Quoted.escapesNext` — whether a text ends in a backslash that escapes what comes next.
* `Quoted.Enclosed` — the texts that can stand between quotes: each quote in them is escaped, the
  closing quote is not, and all of it is printable.  `Enclosed.append` puts such texts together, and
  `enclosed_escape` says that an escaped character is one.
* `TokenKind.decodeString` — the reader of the displayed form, which other text may follow.
* `displayed_strings` — the displayed form of a string tells the string.
-/

set_option autoImplicit false

namespace LoxTokens
namespace Quoted

/-! ## Between the quotes -/

/-- Whether a text ends in a backslash that escapes the character behind it.  A backslash that is
escaped itself does not. -/
def escapesNext (t : Text) : Bool := t.foldl (fun escaped c ↦ !escaped && c = '\\') false

/-- Whether a character may stand raw in a line of output. -/
def IsPrinted (c : Char) : Prop := c ∉ ['\x00', '\t', '\n', '\r'] ∧ isUnprintable c = false

/-- A text that can stand between quotes. -/
structure Enclosed (s : Text) : Prop where
  /-- Each quote stands behind a backslash that escapes it. -/
  quote_escaped : ∀ a b, s = a ++ '"' :: b → escapesNext a = true
  /-- A quote put behind the text is not escaped. -/
  escapesNext_eq : escapesNext s = false
  /-- No character is a line feed, a carriage return, a tab, NUL or without a glyph. -/
  printed : ∀ c ∈ s, IsPrinted c

theorem escapesNext_append {s : Text} (hs : escapesNext s = false) (t : Text) :
    escapesNext (s ++ t) = escapesNext t := by
  rw [escapesNext] at hs
  rw [escapesNext, List.foldl_append, hs, escapesNext]

theorem escapesNext_of_notMem {s : Text} (h : '\\' ∉ s) : escapesNext s = false := by
  induction s with
  | nil => rfl
  | cons c s ih =>
    have hc : escapesNext [c] = false := by simp [escapesNext, (List.ne_of_not_mem_cons h).symm]
    rw [← List.singleton_append, escapesNext_append hc, ih (List.not_mem_of_not_mem_cons h)]

theorem enclosed_nil : Enclosed [] where
  quote_escaped a b h := absurd h (by simp)
  escapesNext_eq := rfl
  printed := by simp

/-- A quote in two texts in a row is a quote in one of them, and the first text leaves the second
one alone. -/
theorem Enclosed.append {s t : Text} (hs : Enclosed s) (ht : Enclosed t) : Enclosed (s ++ t) where
  quote_escaped a b h := by
    rcases List.append_eq_append_iff.1 h with ⟨a', rfl, htail⟩ | ⟨c, hfront, htail⟩
    · rw [escapesNext_append hs.escapesNext_eq]
      exact ht.quote_escaped a' b htail
    · cases c with
      | nil => exact absurd (ht.quote_escaped [] b htail.symm) (by decide)
      | cons d c =>
        obtain ⟨rfl, -⟩ := List.cons.inj htail
        exact hs.quote_escaped a c hfront
  escapesNext_eq := by rw [escapesNext_append hs.escapesNext_eq, ht.escapesNext_eq]
  printed := List.forall_mem_append.2 ⟨hs.printed, ht.printed⟩

/-! ## Escapes -/

theorem isPrinted_of_ascii {c : Char} (hspace : ' ' ≤ c) (htilde : c ≤ '~') : IsPrinted c := by
  have hlower : 0x20 ≤ c.toNat := hspace
  have hupper : c.toNat ≤ 0x7e := htilde
  refine ⟨fun h ↦ ?_, isUnprintable_eq_false_of_ascii hlower hupper⟩
  simp only [List.mem_cons, List.not_mem_nil, or_false] at h
  rcases h with rfl | rfl | rfl | rfl <;> exact absurd hlower (by decide)

/-- Text without quotes and backslashes needs no escapes. -/
theorem enclosed_of_notMem {s : Text} (hquote : '"' ∉ s) (hbackslash : '\\' ∉ s)
    (hprinted : ∀ c ∈ s, IsPrinted c) : Enclosed s where
  quote_escaped a _ h := absurd (h ▸ List.mem_append_right a List.mem_cons_self) hquote
  escapesNext_eq := escapesNext_of_notMem hbackslash
  printed := hprinted

/-- A backslash takes the character behind it along, be it a quote or another backslash. -/
theorem enclosed_pair {l : Char} (hl : IsPrinted l) : Enclosed ['\\', l] where
  quote_escaped a _ h := by
    match a with
    | [] => cases h
    | [c] => cases h; rfl
    | c :: d :: a => simp at h
  escapesNext_eq := rfl
  printed := by
    have hbackslash : IsPrinted '\\' := isPrinted_of_ascii (by decide) (by decide)
    simp [hbackslash, hl]

/-- Whether a character of ASCII stands for itself between quotes. -/
def isPlain (c : Char) : Bool := ' ' ≤ c && c ≤ '~' && c ≠ '"' && c ≠ '\\'

theorem isPlain_of_mem_ofHex {c : Char} {n : Nat} (h : c ∈ Text.ofHex n) : isPlain c = true := by
  have hdigit : ∀ d < 16, isPlain d.digitChar = true := by decide
  induction n using Nat.strongRecOn with
  | ind n ih =>
    rw [Text.ofHex, Nat.toDigits_eq_if (by decide)] at h
    split at h
    · next hn =>
      rw [List.mem_singleton.1 h]
      exact hdigit n hn
    · next hn =>
      rcases List.mem_append.1 h with hfront | hlast
      · exact ih (n / 16) (by omega) hfront
      · rw [List.mem_singleton.1 hlast]
        exact hdigit (n % 16) (by omega)

theorem enclosed_of_isPlain {s : Text} (h : ∀ c ∈ s, isPlain c = true) : Enclosed s := by
  refine enclosed_of_notMem (fun hquote ↦ ?_) (fun hbackslash ↦ ?_) fun c hc ↦ ?_
  · exact absurd (h _ hquote) (by decide)
  · exact absurd (h _ hbackslash) (by decide)
  · have hplain := h c hc
    simp only [isPlain, Bool.and_eq_true, decide_eq_true_eq] at hplain
    exact isPrinted_of_ascii hplain.1.1.1 hplain.1.1.2

theorem enclosed_codePoint (c : Char) : Enclosed (codePoint c) := by
  have hopen : Enclosed ['\\', 'u'] := enclosed_pair (isPrinted_of_ascii (by decide) (by decide))
  have hbraces : ∀ x ∈ '{' :: Text.ofHex c.toNat ++ ['}'], isPlain x = true := by
    intro x hx
    simp only [List.cons_append, List.mem_cons, List.mem_append, List.not_mem_nil, or_false] at hx
    rcases hx with rfl | hx | rfl
    · decide
    · exact isPlain_of_mem_ofHex hx
    · decide
  exact hopen.append (enclosed_of_isPlain hbraces)

theorem isPrinted_of_letter?_eq_none {c : Char} (hletter : letter? c = none)
    (hprintable : isUnprintable c = false) : IsPrinted c := by
  refine ⟨fun h ↦ ?_, hprintable⟩
  simp only [List.mem_cons, List.not_mem_nil, or_false] at h
  rcases h with rfl | rfl | rfl | rfl <;> cases hletter

/-- **An escaped character can stand between quotes.** -/
theorem enclosed_escape (c : Char) : Enclosed (escape c) := by
  cases hl : letter? c with
  | some l =>
    have hprinted : IsPrinted l := by
      unfold letter? at hl
      split at hl <;> cases hl <;> exact isPrinted_of_ascii (by decide) (by decide)
    rw [escape, hl]
    exact enclosed_pair hprinted
  | none =>
    have hne : ∀ d, letter? d ≠ none → d ∉ [c] := fun d hd hc ↦
      hd ((List.mem_singleton.1 hc).symm ▸ hl)
    rw [escape, hl]
    dsimp only
    split
    · exact enclosed_codePoint c
    · next hprintable =>
      have hprinted : IsPrinted c :=
        isPrinted_of_letter?_eq_none hl (Bool.not_eq_true _ ▸ hprintable)
      exact enclosed_of_notMem (hne '"' (by decide)) (hne '\\' (by decide))
        (by simpa using hprinted)

theorem enclosed_flatMap_escape (t : Text) : Enclosed (t.flatMap escape) := by
  induction t with
  | nil => exact enclosed_nil
  | cons c t ih =>
    rw [List.flatMap_cons]
    exact (enclosed_escape c).append ih

end Quoted

/-! ## The displayed form -/

namespace TokenKind

/-- Reads the displayed form of a string that stands at the front.  Gives the string, and the text
behind the closing parenthesis. -/
def decodeString (t : Text) : Option (Text × Text) := do
  let t ← "STRING(".toList.isPrefixOf? t
  let (s, t) ← Quoted.decode t
  let t ← [')'].isPrefixOf? t
  return (s, t)

theorem text_string (s : Text) :
    (string s).text = "STRING(".toList ++ (Quoted.encode s ++ [')']) := by
  have hdisplay : ∀ w : Text, "STRING".toList ++ '(' :: w ++ [')'] =
      "STRING(".toList ++ (w ++ [')']) := by simp
  exact hdisplay _

theorem decodeString_text_append (s t : Text) :
    decodeString ((string s).text ++ t) = some (s, t) := by
  have hprefix : ∀ p u : Text, p.isPrefixOf? (p ++ u) = some u := fun _ _ ↦
    List.isPrefixOf?_eq_some_iff_append_eq.2 rfl
  rw [text_string, List.append_assoc, List.append_assoc, decodeString, hprefix]
  simp only [Option.bind_eq_bind, Option.bind_some, Quoted.decode_encode, hprefix]
  rfl

end TokenKind

/-- **The displayed form of a string tells the string.**  Between its outer quotes there is no quote
that is not escaped, and nothing that breaks the line or has no glyph.  The reader takes it off
whatever follows, such as the rest of a displayed token, and so no string is displayed like another
one, even if what follows could make up for the difference. -/
theorem displayed_strings (s : Text) :
    (∃ body, (TokenKind.string s).text = "STRING(\"".toList ++ body ++ "\")".toList ∧
      Quoted.Enclosed body) ∧
    (∀ t, TokenKind.decodeString ((TokenKind.string s).text ++ t) = some (s, t)) ∧
    (∀ lexeme line, TokenKind.decodeString (Token.text ⟨.string s, lexeme, line⟩) =
      some (s, '(' :: lexeme ++ ") line ".toList ++ Text.ofNat line)) ∧
    ∀ s' t t', (TokenKind.string s).text ++ t = (TokenKind.string s').text ++ t' ↔
      s = s' ∧ t = t' := by
  have hdecode := TokenKind.decodeString_text_append
  refine ⟨⟨s.flatMap Quoted.escape, ?_, Quoted.enclosed_flatMap_escape s⟩, hdecode s,
    fun lexeme line ↦ ?_, fun s' t t' ↦ ⟨fun h ↦ ?_, ?_⟩⟩
  · simp [TokenKind.text_string, Quoted.encode]
  · rw [Token.text, List.append_assoc, List.append_assoc, hdecode, List.append_assoc]
  · have hread := congrArg TokenKind.decodeString h
    simpa only [hdecode, Option.some.injEq, Prod.mk.injEq] using hread
  · rintro ⟨rfl, rfl⟩
    rfl

/-- The string spells the escape of an accent, and the accent itself is displayed by that escape. -/
theorem displayed_strings_spelled_escape :
    let spelled := "\\u\x7b301\x7d".toList
    (TokenKind.string ['\u0301']).text = "STRING(\"\\u\x7b301\x7d\")".toList ∧
    (TokenKind.string spelled).text = "STRING(\"\\\\u\x7b301\x7d\")".toList ∧
    TokenKind.decodeString (Token.text ⟨.string spelled, spelled, 1⟩) =
      some (spelled, '(' :: spelled ++ ") line 1".toList) ∧
    (TokenKind.string spelled).text ≠ (TokenKind.string ['\u0301']).text := by
  intro spelled
  refine ⟨by decide +kernel, by decide +kernel, (displayed_strings spelled).2.2.1 spelled 1, ?_⟩
  intro h
  have hsame := ((displayed_strings spelled).2.2.2 ['\u0301'] [] []).1 (congrArg (· ++ []) h)
  exact absurd hsame.1 (by decide)

end LoxTokens
