import LoxTokens.Proofs.TokenText

/-!
# Tokens with gaps

Token texts that are printed with gaps between them are scanned back, whatever the gaps are made of.
A gap is white space and comments; comments may look like code or strings, and strings like
comments.

* `IsWhite c` — `c` is one of the four characters of white space.
* `IsSpacing g` — `g` is white space and comments that are ended by a line feed; a scan passes over
  it and only counts its lines (`itemsFrom_spacing`).
* `IsLayout ps trail` — each token text of `ps` stands behind its gap, and `trail` comes last.
* `tokenize_laid` — the scan of a layout: the tokens of its texts, each on its line.
* `layout_roundtrip` — so printing and scanning gives the tokens back; and the tokens of any source,
  printed with spaces between them, are scanned with the same kinds and lexemes.
-/

set_option autoImplicit false

namespace LoxTokens

/-! ## Gaps -/

/-- A space, a tab, a carriage return or a line feed. -/
def IsWhite (c : Char) : Prop := c = ' ' ∨ c = '\t' ∨ c = '\r' ∨ c = '\n'

/-- The text starts with white space. -/
def Text.StartsWhite (t : Text) : Prop := ∃ c t', t = c :: t' ∧ IsWhite c

/-- White space, and comments with the line feeds that end them. -/
inductive IsSpacing : Text → Prop
  | nil : IsSpacing []
  | white {c : Char} {g : Text} (hc : IsWhite c) (hg : IsSpacing g) : IsSpacing (c :: g)
  | comment {body g : Text} (hbody : '\n' ∉ body) (hg : IsSpacing g) :
      IsSpacing ('/' :: '/' :: body ++ '\n' :: g)

/-- Spacing at the end of a source, where the last comment needs no line feed. -/
inductive IsFinalSpacing : Text → Prop
  | spacing {g : Text} (hg : IsSpacing g) : IsFinalSpacing g
  | comment {g body : Text} (hg : IsSpacing g) (hbody : '\n' ∉ body) :
      IsFinalSpacing (g ++ '/' :: '/' :: body)

theorem itemsFrom_separator {c : Char} (hc : isSeparator c = true) (o : Options) (line : Nat)
    (after : Text) : Span.itemsFrom o line (spans (c :: after)) =
      Span.itemsFrom o (line + Text.newlines [c]) (spans after) :=
  Span.itemsFrom_spans_of_fits (Span.Fits.separator hc) o line

/-- A comment has no line feed of its own. -/
theorem newlines_comment {body : Text} (hbody : '\n' ∉ body) :
    Text.newlines ('/' :: '/' :: body) = 0 :=
  Text.newlines_eq_zero_iff.2 (by simpa using hbody)

theorem itemsFrom_comment {body after : Text} (hbody : '\n' ∉ body)
    (hafter : after.Stops (· != '\n')) (o : Options) (line : Nat) :
    Span.itemsFrom o line (spans ('/' :: '/' :: body ++ after)) =
      Span.itemsFrom o line (spans after) := by
  have h := Span.itemsFrom_spans_of_fits (Span.Fits.comment hbody hafter) o line
  rw [Span.text, newlines_comment hbody] at h
  exact h

/-- **Spacing leaves no trace but its lines.** -/
theorem itemsFrom_spacing {g : Text} (hg : IsSpacing g) (o : Options) (line : Nat) (after : Text) :
    Span.itemsFrom o line (spans (g ++ after)) =
      Span.itemsFrom o (line + g.newlines) (spans after) := by
  induction hg generalizing line with
  | nil => rfl
  | @white c g hc hg ih =>
    rw [List.cons_append, itemsFrom_separator (isSeparator_iff.2 hc), ih, Nat.add_assoc,
      ← Text.newlines_append, List.singleton_append]
  | @comment body g hbody hg ih =>
    have hstop : Text.Stops (· != '\n') ('\n' :: (g ++ after)) := Text.stops_cons.2 rfl
    have hcomment := itemsFrom_comment hbody hstop o line
    have hfeed := itemsFrom_separator (c := '\n') rfl o line (g ++ after)
    rw [ih, Nat.add_assoc, ← Text.newlines_append] at hfeed
    rw [List.append_assoc, Text.newlines_append, newlines_comment hbody, Nat.zero_add]
    exact hcomment.trans hfeed

theorem itemsFrom_finalSpacing {g : Text} (hg : IsFinalSpacing g) (o : Options) (line : Nat) :
    Span.itemsFrom o line (spans g) = [] := by
  cases hg with
  | spacing hg =>
    have h := itemsFrom_spacing hg o line []
    rw [List.append_nil] at h
    rw [h, spans]
    rfl
  | @comment g body hg hbody =>
    have h := itemsFrom_comment hbody (Text.stops_nil _) o (line + g.newlines)
    rw [List.append_nil] at h
    rw [itemsFrom_spacing hg, h, spans]
    rfl

/-! ## Layouts -/

/-- A token text and the gap in front of it. -/
structure Placed where
  gap : Text
  word : TokenText

/-- Gaps and token texts in turn. -/
def laid (ps : List Placed) : Text := ps.flatMap fun p ↦ p.gap ++ p.word.text

/-- The gaps are such that token texts do not touch.  The first gap can be anything, and the one at
the end can be empty. -/
structure IsLayout (ps : List Placed) (trail : Text) : Prop where
  isSpacing : ∀ p ∈ ps, IsSpacing p.gap
  separated : ∀ p ∈ ps.tail, p.gap.StartsWhite
  isFinalSpacing : IsFinalSpacing trail
  trail_separated : ps ≠ [] → trail = [] ∨ trail.StartsWhite

namespace TokenText

/-- The end of the source and white space stop every token text. -/
theorem fits_of_separated {w : TokenText} {after : Text} (h : after = [] ∨ after.StartsWhite) :
    w.toSpan.Fits after := by
  rcases h with rfl | ⟨c, t, rfl, hc⟩
  · exact w.fits_nil
  obtain ⟨hword, -, hpoint, hslash, hequal⟩ := classes_of_isSeparator (isSeparator_iff.2 hc)
  refine w.fits_nil.of_nil hword hpoint (fun p _ hx ↦ ?_) (fun body hbody ↦ ?_)
    (fun body hbody ↦ ?_) t
  · rcases Punct.follower?_eq_some_iff.1 hx with ⟨-, rfl⟩ | ⟨-, rfl⟩
    · exact hslash rfl
    · exact hequal rfl
  · cases w <;> cases hbody
  · cases w <;> cases hbody

end TokenText

namespace IsLayout

variable {p : Placed} {ps : List Placed} {trail : Text}

theorem tail (h : IsLayout (p :: ps) trail) : IsLayout ps trail where
  isSpacing q hq := h.isSpacing q (List.mem_cons_of_mem _ hq)
  separated q hq := h.separated q (List.mem_of_mem_tail hq)
  isFinalSpacing := h.isFinalSpacing
  trail_separated _ := h.trail_separated (List.cons_ne_nil _ _)

/-- What comes behind the first token text stops it. -/
theorem separated_tail (h : IsLayout (p :: ps) trail) :
    laid ps ++ trail = [] ∨ (laid ps ++ trail).StartsWhite := by
  cases ps with
  | nil => exact h.trail_separated (List.cons_ne_nil _ _)
  | cons q ps =>
    obtain ⟨c, t, ht, hc⟩ := h.separated q List.mem_cons_self
    refine .inr ⟨c, t ++ q.word.text ++ laid ps ++ trail, ?_, hc⟩
    simp [laid, ht]

end IsLayout

/-- The tokens of a layout that starts on the given line. -/
def tokensFrom (o : Options) : Nat → List Placed → List Token
  | _, [] => []
  | line, p :: ps =>
    p.word.token o (line + p.gap.newlines) ::
      tokensFrom o (line + (p.gap ++ p.word.text).newlines) ps

/-- The items of a layout are its tokens. -/
theorem itemsFrom_laid {ps : List Placed} {trail : Text} (h : IsLayout ps trail) {o : Options}
    (hshown : ∀ p ∈ ps, p.word.IsShown o) (line : Nat) :
    Span.itemsFrom o line (spans (laid ps ++ trail)) = (tokensFrom o line ps).map Item.token := by
  induction ps generalizing line with
  | nil => exact itemsFrom_finalSpacing h.isFinalSpacing o line
  | cons p ps ih =>
    rw [List.forall_mem_cons] at hshown
    -- behind its gap the text is a span, since what comes next is white space or nothing
    have hfits : p.word.toSpan.Fits (laid ps ++ trail) :=
      TokenText.fits_of_separated h.separated_tail
    have hword := Span.itemsFrom_spans_of_fits hfits o (line + p.gap.newlines)
    rw [TokenText.item?_toSpan hshown.1, TokenText.text_toSpan, ih h.tail hshown.2, Nat.add_assoc,
      ← Text.newlines_append] at hword
    have hsplit : laid (p :: ps) ++ trail = p.gap ++ (p.word.text ++ (laid ps ++ trail)) := by
      simp [laid]
    rw [hsplit, itemsFrom_spacing (h.isSpacing p List.mem_cons_self), hword]
    rfl

/-- **The scan of a layout.** -/
theorem tokenize_laid {ps : List Placed} {trail : Text} (h : IsLayout ps trail) {o : Options}
    (hshown : ∀ p ∈ ps, p.word.IsShown o) : tokenize o (laid ps ++ trail) =
      ⟨tokensFrom o 1 ps ++ [Token.endOfFile (1 + (laid ps ++ trail).newlines)], []⟩ :=
  Scanner.tokenize_of_itemsFrom (itemsFrom_laid h hshown 1)

theorem length_tokensFrom (o : Options) (line : Nat) (ps : List Placed) :
    (tokensFrom o line ps).length = ps.length := by
  induction ps generalizing line with
  | nil => rfl
  | cons p ps ih => rw [tokensFrom, List.length_cons, List.length_cons, ih]

/-- Each token is on the line that the text in front of it gives. -/
theorem getElem?_tokensFrom (o : Options) (line : Nat) (before : List Placed) (p : Placed)
    (after : List Placed) : (tokensFrom o line (before ++ p :: after))[before.length]? =
      some (p.word.token o (line + (laid before ++ p.gap).newlines)) := by
  induction before generalizing line with
  | nil => rfl
  | cons q before ih =>
    rw [List.cons_append, tokensFrom, List.length_cons, List.getElem?_cons_succ, ih, Nat.add_assoc,
      ← Text.newlines_append, ← List.append_assoc]
    rfl

/-- Kinds and lexemes do not depend on where the tokens are. -/
theorem map_tokensFrom (o : Options) (line : Nat) (ps : List Placed) :
    (tokensFrom o line ps).map (fun t ↦ (t.kind, t.lexeme)) =
      (ps.map Placed.word).map fun w ↦ (w.kind o, w.lexeme) := by
  induction ps generalizing line with
  | nil => rfl
  | cons p ps ih =>
    rw [tokensFrom, List.map_cons, ih]
    rfl

/-! ## Single spaces -/

/-- Token texts with a space between them. -/
def spaced : List TokenText → List Placed
  | [] => []
  | w :: ws => ⟨[], w⟩ :: ws.map fun v ↦ ⟨[' '], v⟩

theorem map_word_spaced (ws : List TokenText) : (spaced ws).map Placed.word = ws := by
  cases ws with
  | nil => rfl
  | cons w ws =>
    rw [spaced, List.map_cons, List.map_map]
    exact congrArg (w :: ·) (List.map_id ws)

theorem isLayout_spaced (ws : List TokenText) : IsLayout (spaced ws) [] := by
  have hspace : IsSpacing [' '] := IsSpacing.white (.inl rfl) IsSpacing.nil
  cases ws with
  | nil =>
    exact ⟨by rintro _ ⟨⟩, by rintro _ ⟨⟩, IsFinalSpacing.spacing IsSpacing.nil, fun _ ↦ .inl rfl⟩
  | cons w ws =>
    refine ⟨?_, ?_, IsFinalSpacing.spacing IsSpacing.nil, fun _ ↦ .inl rfl⟩
    · refine List.forall_mem_cons.2 ⟨IsSpacing.nil, fun p hp ↦ ?_⟩
      obtain ⟨v, -, rfl⟩ := List.mem_map.1 hp
      exact hspace
    · intro p hp
      obtain ⟨v, -, rfl⟩ := List.mem_map.1 hp
      exact ⟨' ', [], rfl, .inl rfl⟩

theorem laid_spaced (ws : List TokenText) :
    laid (spaced ws) = [' '].intercalate (ws.map TokenText.text) := by
  induction ws with
  | nil => rfl
  | cons w ws ih =>
    cases ws with
    | nil => simp [spaced, laid]
    | cons v ws =>
      have hnext : laid (spaced (w :: v :: ws)) = w.text ++ ' ' :: laid (spaced (v :: ws)) := by
        simp [spaced, laid]
      simp only [hnext, ih, List.map_cons, List.intercalate_cons_cons, List.append_assoc,
        List.singleton_append]

/-! ## The tokens of a source -/

/-- Tokens that come from token texts, whatever their lines are. -/
theorem exists_tokenTexts {o : Options} {ts : List Token}
    (h : ∀ t ∈ ts, ∃ (w : TokenText) (line : Nat), w.token o line = t ∧ w.IsShown o) :
    ∃ ws : List TokenText, (∀ w ∈ ws, w.IsShown o) ∧
      ts.map Token.source = ws.map TokenText.text ∧
      ts.map (fun t ↦ (t.kind, t.lexeme)) = ws.map fun w ↦ (w.kind o, w.lexeme) := by
  induction ts with
  | nil => exact ⟨[], by rintro _ ⟨⟩, rfl, rfl⟩
  | cons t ts ih =>
    rw [List.forall_mem_cons] at h
    obtain ⟨⟨w, line, rfl, hw⟩, hts⟩ := h
    obtain ⟨ws, hws, hsources, hkinds⟩ := ih hts
    refine ⟨w :: ws, List.forall_mem_cons.2 ⟨hw, hws⟩, ?_, ?_⟩
    · rw [List.map_cons, List.map_cons, TokenText.source_token, hsources]
    · rw [List.map_cons, List.map_cons, hkinds]
      rfl

/-- The tokens of a source, before the end of the file, come from token texts. -/
theorem exists_tokens_eq (o : Options) (source : Text) : ∃ (ts : List Token) (line : Nat),
    (tokenize o source).tokens = ts ++ [Token.endOfFile line] ∧
    ∀ t ∈ ts, ∃ (w : TokenText) (line : Nat), w.token o line = t ∧ w.IsShown o := by
  refine ⟨_, _, Scanner.tokens_tokenize o source, fun t ht ↦ ?_⟩
  obtain ⟨i, hi, ht⟩ := List.mem_filterMap.1 ht
  cases i with
  | error e => cases ht
  | token t' =>
    obtain rfl : t' = t := Option.some.inj ht
    obtain ⟨s, after, line, hs, hitem⟩ := exists_fits_of_mem_itemsFrom (fitting_spans source) hi
    obtain ⟨w, -, hw, hshown⟩ := TokenText.exists_toSpan hs hitem
    exact ⟨w, line, hw, hshown⟩

/-- The sources of the tokens of a source, with spaces between them, give tokens of the same kinds,
also where empty strings are emitted that were dropped before. -/
theorem tokenize_spaced_sources {o o' : Options} (ho' : o' = o ∨ o' = o.withEmptyStrings .emit)
    (source : Text) :
    let scan := tokenize o' ([' '].intercalate
      ((tokenize o source).tokens.dropLast.map Token.source))
    scan.errors = [] ∧ scan.tokens.map (fun t ↦ (t.kind, t.lexeme)) =
      (tokenize o source).tokens.map fun t ↦ (t.kind, t.lexeme) := by
  obtain ⟨ts, line, htokens, hts⟩ := exists_tokens_eq o source
  obtain ⟨ws, hshown, hsources, hkinds⟩ := exists_tokenTexts hts
  have hkind : ∀ w : TokenText, w.kind o' = w.kind o := by
    rcases ho' with rfl | rfl
    · exact fun _ ↦ rfl
    · exact fun w ↦ by cases w <;> rfl
  have hshown' : ∀ p ∈ spaced ws, p.word.IsShown o' := by
    intro p hp
    rcases ho' with rfl | rfl
    · exact hshown _ (map_word_spaced ws ▸ List.mem_map_of_mem hp)
    · exact TokenText.isShown_emit o.keywordCase p.word
  have hscan := tokenize_laid (isLayout_spaced ws) hshown'
  rw [List.append_nil, laid_spaced] at hscan
  rw [htokens, List.dropLast_concat, hsources, hscan]
  refine ⟨rfl, ?_⟩
  rw [List.map_append, List.map_append, map_tokensFrom, map_word_spaced, hkinds]
  simp only [hkind]
  rfl

/-- **Printing and scanning gives the tokens back.**  A layout is scanned without an error as the
tokens of its texts, each on the line where it stands, and the end of the file; and the spelling of
a token text decides which it is.  In particular the tokens of a source, printed with spaces between
them, are scanned with the same kinds and lexemes; it does not matter then whether empty strings are
emitted. -/
theorem layout_roundtrip :
    Function.Injective TokenText.text ∧
    (∀ (ps : List Placed) (trail : Text), IsLayout ps trail → ∀ keywordCase : KeywordCase,
      let o : Options := ⟨.emit, keywordCase⟩
      let scan := tokenize o (laid ps ++ trail)
      scan.errors = [] ∧
      scan.tokens.length = ps.length + 1 ∧
      (∀ before p after, ps = before ++ p :: after → scan.tokens[before.length]? =
        some (p.word.token o (1 + (laid before ++ p.gap).newlines))) ∧
      scan.tokens[ps.length]? = some (Token.endOfFile (1 + (laid ps ++ trail).newlines))) ∧
    ∀ (o : Options) (source : Text), ∀ o' ∈ [o, o.withEmptyStrings .emit],
      let scan := tokenize o source
      let scan' := tokenize o' ([' '].intercalate (scan.tokens.dropLast.map Token.source))
      scan'.errors = [] ∧
      scan'.tokens.map (fun t ↦ (t.kind, t.lexeme)) =
        scan.tokens.map fun t ↦ (t.kind, t.lexeme) := by
  refine ⟨TokenText.text_injective, ?_, ?_⟩
  · intro ps trail h keywordCase o scan
    have hscan : scan = _ :=
      tokenize_laid h (o := o) fun p _ ↦ TokenText.isShown_emit keywordCase p.word
    rw [hscan]
    refine ⟨rfl, ?_, ?_, ?_⟩
    · rw [List.length_append, length_tokensFrom]
      rfl
    · rintro before p after rfl
      have hlength : before.length < (tokensFrom o 1 (before ++ p :: after)).length := by
        rw [length_tokensFrom, List.length_append, List.length_cons]
        omega
      rw [List.getElem?_append_left hlength, getElem?_tokensFrom]
    · rw [← length_tokensFrom o 1 ps, List.getElem?_concat_length]
  · intro o source o' ho'
    exact tokenize_spaced_sources (by simpa using ho') source

/-- Comments with quotes in them, around a string that looks like a comment; and an empty string
that was dropped once does not come back. -/
theorem layout_roundtrip_disguised :
    (∃ ps trail, IsLayout ps trail ∧ laid ps ++ trail = "//\"\nif\n\"//\" //\"".toList ∧
      (tokenize Options.default (laid ps ++ trail)).tokens[1]? =
        some ⟨.string ['/', '/'], ['/', '/'], 3⟩) ∧
    let o := Options.default.withEmptyStrings .suppress
    Options.default ∈ [o, o.withEmptyStrings .emit] ∧
      (tokenize Options.default ([' '].intercalate
        ((tokenize o ['"', '"', 'a']).tokens.dropLast.map Token.source))).errors = [] := by
  constructor
  · have hif : ['i', 'f'] ∈ Lexical.words :=
      Lexical.mem_words.2 ⟨'i', ['f'], rfl, rfl, List.forall_mem_singleton.2 rfl⟩
    have hlayout : IsLayout [⟨['/', '/', '"', '\n'], .word ['i', 'f'] hif⟩,
        ⟨['\n'], .string ['/', '/'] (by decide)⟩] [' ', '/', '/', '"'] := by
      have hfeed : IsSpacing ['\n'] := IsSpacing.white (.inr (.inr (.inr rfl))) IsSpacing.nil
      have hspace : IsSpacing [' '] := IsSpacing.white (.inl rfl) IsSpacing.nil
      have hcomment : IsSpacing ['/', '/', '"', '\n'] :=
        @IsSpacing.comment ['"'] [] (by decide) IsSpacing.nil
      exact ⟨by simp [hcomment, hfeed], by simp [Text.StartsWhite, IsWhite],
        @IsFinalSpacing.comment _ ['"'] hspace (by decide), fun _ ↦ .inr ⟨' ', _, rfl, .inl rfl⟩⟩
    have hscan := layout_roundtrip.2.1 _ _ hlayout .exact
    exact ⟨_, _, hlayout, rfl, hscan.2.2.1 [_] _ [] rfl⟩
  · intro o
    have ho : Options.default ∈ [o, o.withEmptyStrings .emit] := by decide
    exact ⟨ho, (layout_roundtrip.2.2 o _ _ ho).1⟩

end LoxTokens
