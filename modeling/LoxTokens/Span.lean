import LoxTokens.Item

/-!
# Spans

A source is a sequence of spans without gaps between them: white space, comments, tokens, and the
pieces that are errors.  A `Span` says what a piece is and holds the characters that are not
determined by that, so that its text can be written down again.

* `Span.text` is the text of a span.
* `Span.first` reads the span at the front of a nonempty text, `text_first_isPrefix` says that its
  text does stand there and `text_first_ne_nil` that it is not empty.
* `spans` cuts a whole source into spans, and `flatMap_text_spans` says that nothing is lost.
* `Span.item?` is what a scan makes of a span: a token, an error, or nothing.

Where spans end does not depend on the options of the scan or on the line.
-/

set_option autoImplicit false

namespace LoxTokens

/-- Whether a character separates tokens: a space, a tab, a carriage return or a line feed. -/
def isSeparator (c : Char) : Bool := c = ' ' || c = '\t' || c = '\r' || c = '\n'

/-- Whether a character starts a word: an ASCII letter or an underscore. -/
def isWordStart (c : Char) : Bool := c.isAlpha || c = '_'

/-- Whether a character continues a word: what starts one, or an ASCII digit. -/
def isWordPart (c : Char) : Bool := isWordStart c || c.isDigit

/-- A piece of source. -/
inductive Span
  /-- One separating character. -/
  | separator (c : Char)
  /-- Two slashes and the rest of the line. -/
  | comment (body : Text)
  /-- A bracket, separator or operator. -/
  | punct (p : Punct)
  /-- A string literal, whose body stands between double quotes. -/
  | quoted (body : Text)
  /-- A double quote that is never closed, with all that follows it. -/
  | unclosed (body : Text)
  /-- A number literal without a point. -/
  | digits (ds : Text)
  /-- A number literal with digits on both sides of a point. -/
  | fraction (whole part : Text)
  /-- A word, reserved or not. -/
  | word (w : Text)
  /-- A character that starts none of the others. -/
  | stray (c : Char)
  deriving DecidableEq, Repr

namespace Span

/-- The characters of a span. -/
def text : Span → Text
  | separator c => [c]
  | comment body => '/' :: '/' :: body
  | punct p => p.text
  | quoted body => '"' :: body ++ ['"']
  | unclosed body => '"' :: body
  | digits ds => ds
  | fraction whole part => whole ++ '.' :: part
  | word w => w
  | stray c => [c]

/-! ## Reading a span -/

/-- The comment after two slashes: all up to the end of the line. -/
def readComment (rest : Text) : Span := comment (rest.takeWhile (· != '\n'))

/-- The string literal after its opening quote.  It ends at the next quote; there are no escapes. -/
def readQuoted (rest : Text) : Span :=
  let body := rest.takeWhile (· != '"')
  if body.length < rest.length then quoted body else unclosed body

/-- The number literal that starts with the given run of digits, which no digit follows.  A point
belongs to it only if a digit comes after the point. -/
def readNumber (whole : Text) : Text → Span
  | '.' :: d :: rest =>
    if d.isDigit then fraction whole (d :: rest.takeWhile Char.isDigit) else digits whole
  | _ => digits whole

/-- The span at the front of the text `c :: rest`. -/
def first (c : Char) (rest : Text) : Span :=
  if isSeparator c then separator c
  else if c = '/' ∧ rest.head? = some '/' then readComment rest.tail
  else if c = '"' then readQuoted rest
  else if c.isDigit then
    readNumber (c :: rest.takeWhile Char.isDigit) (rest.dropWhile Char.isDigit)
  else if isWordStart c then word (c :: rest.takeWhile isWordPart)
  else match Punct.first? c rest with
    | some p => punct p
    | none => stray c

theorem text_readNumber_ne_nil {whole : Text} (h : whole ≠ []) (rest : Text) :
    (readNumber whole rest).text ≠ [] := by
  unfold readNumber
  split
  · split <;> simp [text, h]
  · simpa [text] using h

/-- A span is never empty. -/
theorem text_first_ne_nil (c : Char) (rest : Text) : (first c rest).text ≠ [] := by
  unfold first
  split
  · simp [text]
  split
  · simp [readComment, text]
  split
  · simp only [readQuoted]; split <;> simp [text]
  split
  · exact text_readNumber_ne_nil (List.cons_ne_nil _ _) _
  split
  · simp [text]
  split
  · next p _ => cases p <;> simp [text, Punct.text]
  · simp [text]

theorem text_readComment_isPrefix (rest : Text) :
    (readComment rest).text <+: '/' :: '/' :: rest := by
  simp [readComment, text, List.takeWhile_prefix]

theorem text_readQuoted_isPrefix (rest : Text) : (readQuoted rest).text <+: '"' :: rest := by
  have hsplit := List.takeWhile_append_dropWhile (p := (· != '"')) (l := rest)
  simp only [readQuoted]
  split
  · next h =>
    cases hd : rest.dropWhile (· != '"') with
    | nil => rw [hd, List.append_nil] at hsplit; rw [hsplit] at h; omega
    | cons q after =>
      have hq : q = '"' := by
        have := List.head_dropWhile_not (· != '"') (l := rest) (by simp [hd])
        simpa [hd] using this
      refine ⟨after, ?_⟩
      rw [hd, hq] at hsplit
      simp [text, hsplit]
  · simp [text, List.takeWhile_prefix]

theorem text_readNumber_isPrefix (whole rest : Text) :
    (readNumber whole rest).text <+: whole ++ rest := by
  unfold readNumber
  split
  · split
    · simp [text, List.takeWhile_prefix]
    · simp [text]
  · simp [text]

theorem text_first?_isPrefix {c : Char} {rest : Text} {p : Punct}
    (h : Punct.first? c rest = some p) : p.text <+: c :: rest := by
  have hsingle : ∀ {p}, Punct.single? c = some p → p.text <+: c :: rest := by
    intro p hp
    unfold Punct.single? at hp
    split at hp <;> cases hp <;> exact ⟨rest, rfl⟩
  unfold Punct.first? at h
  split at h
  · next hr =>
    cases rest with
    | nil => simp at hr
    | cons e rest =>
      simp only [List.head?_cons, Option.some.injEq] at hr
      subst hr
      cases hw : Punct.withEqual? c with
      | none => rw [hw] at h; exact hsingle h
      | some q =>
        rw [hw] at h
        cases h
        unfold Punct.withEqual? at hw
        split at hw <;> cases hw <;> exact ⟨rest, rfl⟩
  · exact hsingle h

/-- The text of the first span stands at the front. -/
theorem text_first_isPrefix (c : Char) (rest : Text) : (first c rest).text <+: c :: rest := by
  unfold first
  split
  · exact ⟨rest, rfl⟩
  split
  · next h =>
    obtain ⟨rfl, hr⟩ := h
    cases rest with
    | nil => simp at hr
    | cons e rest =>
      simp only [List.head?_cons, Option.some.injEq] at hr
      subst hr
      exact text_readComment_isPrefix rest
  split
  · next h => subst h; exact text_readQuoted_isPrefix rest
  split
  · have := text_readNumber_isPrefix (c :: rest.takeWhile Char.isDigit)
      (rest.dropWhile Char.isDigit)
    rwa [List.cons_append, List.takeWhile_append_dropWhile] at this
  split
  · simp [text, List.takeWhile_prefix]
  split
  · next h => exact text_first?_isPrefix h
  · exact ⟨rest, rfl⟩

end Span

/-- The spans of a source, from its first character to its last. -/
def spans : Text → List Span
  | [] => []
  | c :: rest => Span.first c rest :: spans ((c :: rest).drop (Span.first c rest).text.length)
  termination_by source => source.length
  decreasing_by
    have := List.length_pos_iff.2 (Span.text_first_ne_nil c rest)
    simp only [List.length_drop, List.length_cons]
    omega

/-- The spans of a source put together are the source. -/
theorem flatMap_text_spans (source : Text) : (spans source).flatMap Span.text = source := by
  fun_induction spans source with
  | case1 => rfl
  | case2 c rest ih =>
    rw [List.flatMap_cons, ih]
    exact List.prefix_iff_eq_append.1 (Span.text_first_isPrefix c rest)

/-! ## What a scan makes of a span -/

namespace Span

/-- The token of the given kind that starts on the given line. -/
def tokenItem (line : Nat) (kind : TokenKind) (lexeme : Text) : Item := .token ⟨kind, lexeme, line⟩

/-- The kind of a word. -/
def wordKind (o : Options) (w : Text) : TokenKind :=
  match Keyword.ofText? o.keywordCase w with
  | some k => .keyword k
  | none => .identifier

/-- The item of a span that starts on the given line, if it has one.  A token is on the line where
its span starts, and an error on the line where its span ends. -/
def item? (o : Options) (line : Nat) (s : Span) : Option Item :=
  let failed (f : Fault) : Option Item := some (.error ⟨f, line + s.text.newlines⟩)
  match s with
  | separator _ | comment _ => none
  | punct p => some (tokenItem line (.punct p) p.text)
  | quoted body =>
    if body = [] ∧ o.emptyStrings = .suppress then none
    else some (tokenItem line (.string body) body)
  | unclosed _ => failed .unterminatedString
  | digits ds =>
    match Number.ofDigits? ds with
    | some n => some (tokenItem line (.number n) ds)
    | none => failed (.invalidNumber ds)
  | fraction whole part =>
    some (tokenItem line (.number (Number.ofParts whole part)) (whole ++ '.' :: part))
  | word w => some (tokenItem line (wordKind o w) w)
  | stray c => failed (.unexpectedCharacter c)

end Span
end LoxTokens
