import LoxTokens.Proofs.Chunks
import LoxTokens.Proofs.Lookahead
import LoxTokens.Proofs.Restart

/-!
# Line breaks

Nothing but a string goes on behind the end of a line.  So a source can be taken apart behind any
line feed that is not in a string, and its parts can be scanned on their own.

* `Text.EndsLine t` — the text is empty or ends with a line feed.
* `spans_append` — the spans of two texts, the first of which ends a line and leaves no string open,
  are the spans of the one and the spans of the other.
* `Scan.shift d` — a scan of text that stands `d` lines further down.
* `tokenize_append` — the scan of the two texts together.
-/

set_option autoImplicit false

namespace LoxTokens

/-- The text is empty or ends with a line feed. -/
def Text.EndsLine (t : Text) : Prop := t = [] ∨ t.getLast? = some '\n'

namespace Text

theorem EndsLine.of_append {s t : Text} (h : (s ++ t).EndsLine) : t.EndsLine :=
  EndsWith.of_append h

/-- Behind a text that ends a line, more text cannot be seen from the front. -/
theorem looksLike_append {t : Text} (hne : t ≠ []) (h : t.EndsLine) (b : Text) :
    t.LooksLike (t ++ b) := by
  obtain ⟨c, t, rfl⟩ := List.exists_cons_of_ne_nil hne
  refine ⟨rfl, fun u u' hu hu' ↦ ?_⟩
  obtain ⟨rfl, rfl⟩ := List.cons.inj hu
  obtain ⟨-, rfl⟩ := List.cons.inj hu'
  -- a point does not end a line, so that something comes behind it
  cases t with
  | nil => simp [EndsLine] at h
  | cons d t => rfl

end Text

/-! ## Taking spans apart -/

namespace Span

/-- A span with a line feed in it is a line feed or a string. -/
theorem Fits.cases_of_newline_mem {s : Span} {after : Text} (h : s.Fits after)
    (hline : '\n' ∈ s.text) :
    s = .separator '\n' ∨ (∃ body, s = .quoted body) ∨ ∃ body, s = .unclosed body := by
  cases h with
  | separator hc => exact .inl (by rw [List.mem_singleton.1 hline])
  | comment hbody hafter => simp [text, hbody] at hline
  | @punct p _ hp => cases p <;> simp [text, Punct.text] at hline
  | quoted hbody => exact .inr (.inl ⟨_, rfl⟩)
  | unclosed hbody => exact .inr (.inr ⟨_, rfl⟩)
  | digits hds hafter hpoint => exact absurd hline (Text.newlines_eq_zero_iff.1 hds.newlines_eq)
  | fraction hwhole hpart hafter =>
    rcases List.mem_append.1 hline with hline | hline
    · exact absurd hline (Text.newlines_eq_zero_iff.1 hwhole.newlines_eq)
    rcases List.mem_cons.1 hline with hline | hline
    · exact absurd hline (by decide)
    · exact absurd hline (Text.newlines_eq_zero_iff.1 hpart.newlines_eq)
  | word hw hafter => exact absurd hline (Text.notMem_of_class hw.forall_isWordPart rfl)
  | stray hseparator hquote hdigit hword hpunct =>
    rw [← List.mem_singleton.1 hline] at hseparator
    cases hseparator

/-- Behind a text that ends a line, a span other than an open string is complete whatever comes. -/
theorem Fits.append {s : Span} {after : Text} (h : s.Fits after)
    (hend : (s.text ++ after).EndsLine) (hs : ∀ body, s ≠ .unclosed body) (b : Text) :
    s.Fits (after ++ b) := by
  by_cases hne : after = []
  · -- the span itself ends the line, so that it is the line feed, or a string with its quote
    subst hne
    rw [List.append_nil] at hend
    have hline : '\n' ∈ s.text :=
      List.mem_of_getLast? (hend.resolve_left h.text_ne_nil)
    rcases h.cases_of_newline_mem hline with rfl | ⟨body, rfl⟩ | ⟨body, rfl⟩
    · exact .separator rfl
    · cases h with
      | quoted hbody => exact .quoted hbody
    · exact absurd rfl (hs body)
  · exact h.congr (Text.looksLike_append hne hend.of_append b)

/-- An open string is reported. -/
theorem exists_unterminated_of_mem {body : Text} {ss : List Span} (h : unclosed body ∈ ss)
    (o : Options) (line : Nat) :
    ∃ l, .error ⟨.unterminatedString, l⟩ ∈ itemsFrom o line ss := by
  induction ss generalizing line with
  | nil => cases h
  | cons s ss ih =>
    rw [itemsFrom]
    rcases List.mem_cons.1 h with rfl | h
    · exact ⟨_, List.mem_append_left _ (List.mem_singleton_self _)⟩
    · obtain ⟨l, hl⟩ := ih h (line + s.text.newlines)
      exact ⟨l, List.mem_append_right _ hl⟩

end Span

/-- No string is left open in a source whose scan reports none. -/
theorem unclosed_notMem_spans {o : Options} {source : Text}
    (h : ∀ e ∈ (tokenize o source).errors, e.fault ≠ .unterminatedString) (body : Text) :
    Span.unclosed body ∉ spans source := by
  intro hmem
  obtain ⟨l, hl⟩ := Span.exists_unterminated_of_mem hmem o 1
  rw [Scanner.errors_tokenize] at h
  exact h _ (List.mem_filterMap.2 ⟨_, hl, rfl⟩) rfl

theorem fitting_append {ss : List Span} (h : Fitting ss)
    (hend : Text.EndsLine (ss.flatMap Span.text)) (hopen : ∀ body, .unclosed body ∉ ss) (b : Text) :
    Fitting (ss ++ spans b) := by
  induction h with
  | nil => exact fitting_spans b
  | @cons s ss hs hss ih =>
    rw [List.flatMap_cons] at hend
    rw [List.cons_append]
    have hopen' : ∀ body, .unclosed body ∉ ss := fun body h ↦ hopen body (List.mem_cons_of_mem s h)
    refine Fitting.cons ?_ (ih hend.of_append hopen')
    rw [List.flatMap_append, flatMap_text_spans]
    exact hs.append hend (fun body h ↦ hopen body (h ▸ List.mem_cons_self)) b

/-- **The spans of two texts.**  If the first text ends a line outside a string, it is read as if
nothing came behind it. -/
theorem spans_append {a : Text} (hend : a.EndsLine) (hopen : ∀ body, .unclosed body ∉ spans a)
    (b : Text) : spans (a ++ b) = spans a ++ spans b := by
  have hfitting : Fitting (spans a ++ spans b) := by
    refine fitting_append (fitting_spans a) ?_ hopen b
    rwa [flatMap_text_spans]
  have h := spans_of_fitting hfitting
  rwa [List.flatMap_append, flatMap_text_spans, flatMap_text_spans] at h

/-! ## Scans of two texts -/

/-- The same scan, of text that stands further down by the given number of lines. -/
def Scan.shift (d : Nat) (s : Scan) : Scan where
  tokens := s.tokens.map fun t ↦ { t with line := t.line + d }
  errors := s.errors.map fun e ↦ { e with line := e.line + d }

theorem ofItems_map_shift (d : Nat) (is : List Item) :
    Scan.ofItems (is.map (Item.shift d)) = (Scan.ofItems is).shift d := by
  induction is with
  | nil => rfl
  | cons i is ih =>
    cases i with
    | token t => rw [List.map_cons, Item.shift, Scan.ofItems_token, Scan.ofItems_token, ih]; rfl
    | error e => rw [List.map_cons, Item.shift, Scan.ofItems_error, Scan.ofItems_error, ih]; rfl

/-- The items of two texts whose spans are read one after the other. -/
theorem items_append {a b : Text} (h : spans (a ++ b) = spans a ++ spans b) (o : Options) :
    (Scanner.ofText o (a ++ b)).items = Span.itemsFrom o 1 (spans a) ++
      (Scanner.ofText o b).items.map (Item.shift a.newlines) := by
  have hlast : Item.token (Token.endOfFile (1 + (a ++ b).newlines)) =
      Item.shift a.newlines (.token (Token.endOfFile (1 + b.newlines))) := by
    rw [Text.newlines_append, Nat.add_comm a.newlines, ← Nat.add_assoc]
    rfl
  rw [Scanner.items_ofText, Scanner.items_ofText, h, Span.itemsFrom_append, flatMap_text_spans,
    Span.itemsFrom_add, hlast, List.map_append, List.append_assoc]
  rfl

/-- **A line feed outside a string separates.**  The scan of two texts, the first of which ends a
line and leaves no string open, is the scan of the first without its end of file, followed by the
scan of the second further down. -/
theorem tokenize_append (o : Options) {a : Text} (hend : a.EndsLine)
    (hclosed : ∀ e ∈ (tokenize o a).errors, e.fault ≠ .unterminatedString) (b : Text) :
    ∃ ts line, (tokenize o a).tokens = ts ++ [Token.endOfFile line] ∧
      tokenize o (a ++ b) =
        ⟨ts ++ ((tokenize o b).shift a.newlines).tokens,
          (tokenize o a).errors ++ ((tokenize o b).shift a.newlines).errors⟩ := by
  have hspans := spans_append hend (unclosed_notMem_spans hclosed) b
  have herrors : (tokenize o a).errors = (Scan.ofItems (Span.itemsFrom o 1 (spans a))).errors :=
    Scanner.errors_tokenize o a
  refine ⟨_, _, Scanner.tokens_tokenize o a, ?_⟩
  rw [herrors, tokenize, Scanner.tokenize, items_append hspans, Scan.ofItems_append,
    ofItems_map_shift]
  rfl

/-- A quote in a comment opens no string. -/
theorem tokenize_append_comment :
    let a : Text := ['1', '/', '/', '"', '\n']
    let b : Text := ['"', '\n', '"', '@']
    (∀ e ∈ (tokenize Options.default a).errors, e.fault ≠ .unterminatedString) ∧
      tokenize Options.default (a ++ b) =
        ⟨[⟨.number (.integer 1), ['1'], 1⟩, ⟨.string ['\n'], ['\n'], 2⟩, Token.endOfFile 3],
          [⟨.unexpectedCharacter '@', 3⟩]⟩ := by
  intro a b
  have hend : a.EndsLine := .inr rfl
  have hclosed : ∀ e ∈ (tokenize Options.default a).errors, e.fault ≠ .unterminatedString := by
    decide +kernel
  obtain ⟨ts, line, htokens, hscan⟩ := tokenize_append Options.default hend hclosed b
  have ha : (tokenize Options.default a).tokens =
      [⟨.number (.integer 1), ['1'], 1⟩] ++ [Token.endOfFile 2] := by decide +kernel
  have hts : ts = [⟨.number (.integer 1), ['1'], 1⟩] :=
    (List.append_inj_left' (ha.symm.trans htokens) rfl).symm
  refine ⟨hclosed, ?_⟩
  rw [hscan, hts]
  decide +kernel

end LoxTokens
