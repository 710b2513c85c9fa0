import LoxTokens.Proofs.LongestMatch

/-!
# Token texts

A token text is a text that makes one token when it stands alone: a bracket or an operator, a word,
a number that is in range, or a string.  This is the format that tokens are printed in, so that a
list of token texts is what can be written down and scanned again.

* `TokenText` — the five classes, with their conditions as fields.
* `TokenText.token o line w` — the token that `w` makes where it starts on the given line.  Its kind
  and its lexeme depend on `w` and the treatment of keywords only.
* `TokenText.toSpan` — the span that the scanner should read `w` as.  `toSpan_fits_iff` says what
  must not follow `w` for that, one line for each class.
* `exists_toSpan` — every token that a scan gives comes from a token text.
-/

set_option autoImplicit false

namespace LoxTokens

/-- The text starts with a character of the class. -/
def Text.StartsWith (p : Char → Bool) (t : Text) : Prop := ∃ c t', t = c :: t' ∧ p c = true

/-- A text that makes one token when it stands alone. -/
inductive TokenText
  | punct (p : Punct)
  | word (w : Text) (hw : w ∈ Lexical.words)
  | integer (ds : Text) (hds : ds ∈ Lexical.digits) (hbound : Decimal.ofDigits ds < 2 ^ 63)
  | fraction (whole part : Text) (hwhole : whole ∈ Lexical.digits) (hpart : part ∈ Lexical.digits)
  /-- The body of a string is any text without a quote. -/
  | string (body : Text) (hbody : '"' ∉ body)

namespace TokenText

/-- The characters of a token text. -/
def text : TokenText → Text
  | punct p => p.text
  | word w _ => w
  | integer ds _ _ => ds
  | fraction whole part _ _ => whole ++ '.' :: part
  | string body _ => '"' :: body ++ ['"']

/-- The lexeme of the token: the text, but without the quotes of a string. -/
def lexeme : TokenText → Text
  | string body _ => body
  | w => w.text

/-- The kind of the token. -/
def kind (o : Options) : TokenText → TokenKind
  | punct p => .punct p
  | word w _ => Span.wordKind o w
  | integer ds _ _ => .number (.integer (Int64.ofNat (Decimal.ofDigits ds)))
  | fraction whole part _ _ => .number (Number.ofParts whole part)
  | string body _ => .string body

/-- The token, where the text starts on the given line. -/
def token (o : Options) (line : Nat) (w : TokenText) : Token := ⟨w.kind o, w.lexeme, line⟩

/-- Whether the options let the token through: only the empty string can be dropped. -/
def IsShown (o : Options) : TokenText → Prop
  | string body _ => o.emptyStrings = .suppress → body ≠ []
  | _ => True

theorem isShown_emit (keywordCase : KeywordCase) (w : TokenText) :
    w.IsShown ⟨.emit, keywordCase⟩ := by
  cases w with
  | string body hbody => exact fun h ↦ nomatch h
  | _ => trivial

/-- The text as a span of a source. -/
def toSpan : TokenText → Span
  | punct p => .punct p
  | word w _ => .word w
  | integer ds _ _ => .digits ds
  | fraction whole part _ _ => .fraction whole part
  | string body _ => .quoted body

@[simp] theorem text_toSpan (w : TokenText) : w.toSpan.text = w.text := by cases w <;> rfl

/-! ## Where a token text is read as it is -/

/-- A token text is read as it is unless what follows makes it longer, or a comment out of it. -/
theorem toSpan_fits_iff {w : TokenText} {after : Text} : w.toSpan.Fits after ↔
    match w with
    | punct p => p.Closed after
    | word _ _ => after.Stops isWordPart
    | integer _ _ _ =>
      after.Stops Char.isDigit ∧ ∀ t : Text, after = '.' :: t → t.Stops Char.isDigit
    | fraction _ _ _ _ => after.Stops Char.isDigit
    | string _ _ => True := by
  cases w with
  | punct p =>
    constructor
    · rintro ⟨⟩
      assumption
    · exact Span.Fits.punct
  | word w hw =>
    constructor
    · rintro ⟨⟩
      assumption
    · exact Span.Fits.word (Lexical.mem_words.1 hw)
  | integer ds hds hbound =>
    constructor
    · rintro ⟨⟩
      exact ⟨‹_›, ‹_›⟩
    · rintro ⟨hafter, hpoint⟩
      exact Span.Fits.digits (Lexical.mem_digits.1 hds) hafter hpoint
  | fraction whole part hwhole hpart =>
    constructor
    · rintro ⟨⟩
      assumption
    · exact Span.Fits.fraction (Lexical.mem_digits.1 hwhole) (Lexical.mem_digits.1 hpart)
  | string body hbody => exact iff_of_true (Span.Fits.quoted hbody) trivial

theorem fits_nil (w : TokenText) : w.toSpan.Fits [] := by
  rw [toSpan_fits_iff]
  cases w with
  | punct p => exact fun _ _ h ↦ nomatch h
  | word w hw => exact Text.stops_nil _
  | integer ds hds hbound => exact ⟨Text.stops_nil _, fun _ h ↦ nomatch h⟩
  | fraction whole part hwhole hpart => exact Text.stops_nil _
  | string body hbody => trivial

theorem text_ne_nil (w : TokenText) : w.text ≠ [] := by
  rw [← text_toSpan]
  exact w.fits_nil.text_ne_nil

/-- Different token texts are spelled differently, so that the spelling alone decides the kind. -/
theorem text_injective : Function.Injective text := by
  intro v w h
  rw [← text_toSpan, ← text_toSpan] at h
  have hspan : v.toSpan = w.toSpan := v.fits_nil.eq_of_text_eq w.fits_nil h
  cases v <;> cases w <;> cases hspan <;> rfl

/-! ## Token texts and tokens -/

/-- The token of a token text stands for that text. -/
theorem source_token (o : Options) (line : Nat) (w : TokenText) :
    (w.token o line).source = w.text := by
  cases w with
  | word w hw =>
    rcases Span.wordKind_cases o w with ⟨k, -, hk⟩ | ⟨-, hk⟩ <;>
      rw [token, kind, hk] <;> rfl
  | _ => rfl

theorem item?_toSpan {o : Options} {w : TokenText} (h : w.IsShown o) (line : Nat) :
    w.toSpan.item? o line = some (.token (w.token o line)) := by
  cases w with
  | integer ds hds hbound =>
    have hvalue : Decimal.ofDigits ds < Number.integerBound := hbound
    rw [toSpan, Span.item?_digits (Lexical.mem_digits.1 hds), if_pos hvalue]
    rfl
  | string body hbody =>
    have hshown : ¬ (body = [] ∧ o.emptyStrings = .suppress) := fun hempty ↦ h hempty.2 hempty.1
    exact if_neg hshown
  | _ => rfl

/-- **Every token is that of a token text.** -/
theorem exists_toSpan {o : Options} {line : Nat} {s : Span} {after : Text} {t : Token}
    (h : s.Fits after) (hi : s.item? o line = some (.token t)) :
    ∃ w : TokenText, w.toSpan = s ∧ w.token o line = t ∧ w.IsShown o := by
  cases h with
  | separator hc => cases hi
  | comment hbody hafter => cases hi
  | @punct p _ hp =>
    cases hi
    exact ⟨.punct p, rfl, rfl, trivial⟩
  | quoted hbody =>
    rw [Span.item?] at hi
    split at hi
    · cases hi
    · next hshown =>
      cases hi
      exact ⟨.string _ hbody, rfl, rfl, fun hsuppress hempty ↦ hshown ⟨hempty, hsuppress⟩⟩
  | unclosed hbody => cases hi
  | digits hds hafter hpoint =>
    rw [Span.item?_digits hds] at hi
    split at hi
    · next hvalue =>
      cases hi
      exact ⟨.integer _ (Lexical.mem_digits.2 hds) hvalue, rfl, rfl, trivial⟩
    · cases hi
  | fraction hwhole hpart hafter =>
    cases hi
    exact ⟨.fraction _ _ (Lexical.mem_digits.2 hwhole) (Lexical.mem_digits.2 hpart), rfl, rfl,
      trivial⟩
  | word hw hafter =>
    cases hi
    exact ⟨.word _ (Lexical.mem_words.2 hw), rfl, rfl, trivial⟩
  | stray => cases hi

end TokenText
end LoxTokens
