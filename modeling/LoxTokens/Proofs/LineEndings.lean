import LoxTokens.Proofs.Respelling

/-!
# Line endings

A source can end its lines with a line feed, or with a carriage return and a line feed.  A carriage
return is white space between tokens, or it belongs to the text of a comment or of a string, and it
does not count as a line.

* `Text.crlf`, `Token.crlf` — a text and a token with a carriage return in front of each line feed.
* `tokenize_crlf` — the scan of a source with these line endings.
-/

set_option autoImplicit false

namespace LoxTokens

/-- The text with a carriage return in front of each line feed. -/
def Text.crlf (t : Text) : Text := t.flatMap fun c ↦ if c = '\n' then ['\r', '\n'] else [c]

/-- The token with a carriage return in front of each line feed of a string.  No other token can
have a line feed in its lexeme. -/
def Token.crlf (t : Token) : Token :=
  match t.kind with
  | .string s => ⟨.string s.crlf, s.crlf, t.line⟩
  | _ => t

theorem respells_crlf : Respells fun c ↦ if c = '\n' then ['\r', '\n'] else [c] where
  separator c hc := by
    split
    · next hfeed =>
      subst hfeed
      exact ⟨List.cons_ne_nil _ _, by simp [isSeparator], rfl⟩
    · simp [hc]
  other c hc := by
    have hfeed : c ≠ '\n' := by
      rintro rfl
      cases hc
    exact ⟨c, if_neg hfeed, .inl rfl⟩

theorem Text.crlf_eq_self {t : Text} (h : '\n' ∉ t) : t.crlf = t := by
  have hself : ∀ c ∈ t, (if c = '\n' then ['\r', '\n'] else [c]) = [c] := fun c hc ↦
    if_neg (ne_of_mem_of_not_mem hc h)
  rw [crlf, List.flatMap_congr hself, List.flatMap_singleton']

/-- Only a string has a line feed in it. -/
theorem TokenText.newline_notMem {w : TokenText} (hw : ∀ s hs, w ≠ .string s hs) :
    '\n' ∉ w.text := by
  intro hmem
  rw [← text_toSpan] at hmem
  rcases w.fits_nil.cases_of_newline_mem hmem with hs | ⟨_, hs⟩ | ⟨_, hs⟩ <;> cases w <;> cases hs
  exact hw _ _ rfl

theorem TokenText.mapText_crlf (o : Options) (line : Nat) (w : TokenText) :
    (w.token o line).mapText Text.crlf = (w.token o line).crlf := by
  have hself : (∀ s hs, w ≠ .string s hs) → w.text.crlf = w.text := fun hw ↦
    Text.crlf_eq_self (newline_notMem hw)
  cases w with
  | string body hbody => rfl
  | word w hw =>
    rw [text] at hself
    rcases Span.wordKind_cases o w with ⟨k, -, hk⟩ | ⟨-, hk⟩ <;>
      simp [token, kind, lexeme, text, hk, Token.mapText, TokenKind.mapText, Token.crlf, hself]
  | _ => exact congrArg (Token.mk _ · line) (hself (by simp))

theorem Token.mapText_crlf {o : Options} {source : Text} {t : Token}
    (ht : t ∈ (tokenize o source).tokens) : t.mapText Text.crlf = t.crlf := by
  obtain ⟨ts, line, htokens, hts⟩ := exists_tokens_eq o source
  rw [htokens, List.mem_append] at ht
  rcases ht with ht | ht
  · obtain ⟨w, line, rfl, -⟩ := hts t ht
    exact w.mapText_crlf o line
  · rw [List.mem_singleton.1 ht]
    rfl

/-- **Carriage returns.**  A carriage return in front of each line feed of a source makes no
difference to its errors, and none to its tokens but in the texts of strings. -/
theorem tokenize_crlf (o : Options) (source : Text) : tokenize o source.crlf =
    ⟨(tokenize o source).tokens.map Token.crlf, (tokenize o source).errors⟩ := by
  have hword : ∀ w : Text, IsWord w → Span.wordKind o w.crlf = Span.wordKind o w := by
    intro w hw
    rw [Text.crlf_eq_self (Text.notMem_of_class hw.forall_isWordPart (by decide))]
  have hscan := respells_crlf.tokenize_flatMap rfl hword source
  rw [← List.map_congr_left fun _ ht ↦ Token.mapText_crlf ht]
  exact hscan

end LoxTokens
