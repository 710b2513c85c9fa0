import LoxTokens.Proofs.Blanking
import LoxTokens.Proofs.Layout
import Mathlib.Data.List.Forall2

/-!
# Recovery from errors

A malformed piece of source acts on its neighbours like white space: if every piece that a scan
reports is made blank, the scan gives the same tokens on the same lines, and no error.

* `Fades c d` — `d` is `c` or a space in the place of `c`; `Fits.fades` says that a span which fits
  in front of a text also fits in front of what the text fades to.
* `itemsFrom_blanked` — what spans that are made blank give, by induction on the spans: an error
  becomes spacing, and the spans in front of it fit as before.
* `tokenize_blanked` — the scan of the blanked source.
-/

set_option autoImplicit false

namespace LoxTokens

/-! ## Texts that fade -/

/-- The character is the same, or a space in the place of anything but a line feed. -/
def Fades (c d : Char) : Prop := d = c ∨ c ≠ '\n' ∧ d = ' '

theorem fades_blankOut (c : Char) : Fades c (blankOut c) := by
  rw [blankOut]
  split
  · next h => exact .inl h.symm
  · next h => exact .inr ⟨h, rfl⟩

section

variable {t t' : Text}

theorem newlines_of_fades (h : List.Forall₂ Fades t t') : t'.newlines = t.newlines := by
  induction h with
  | nil => rfl
  | @cons c d t t' hcd h ih =>
    have hfeed : d = '\n' ↔ c = '\n' := by
      rcases hcd with rfl | ⟨hc, rfl⟩
      · rfl
      · exact iff_of_false (by decide) hc
    rw [Text.newlines_cons, Text.newlines_cons, ih]
    simp only [hfeed]

/-- A run that stops in front of a text also stops in front of what the text fades to. -/
theorem Text.Stops.fades {p : Char → Bool} (hp : ∀ c, c ≠ '\n' → p c = false → p ' ' = false)
    (h : t.Stops p) (hfades : List.Forall₂ Fades t t') : t'.Stops p := by
  cases hfades with
  | nil => exact h
  | cons hcd hrest =>
    have hstop := Text.stops_cons.1 h
    rcases hcd with rfl | ⟨hc, rfl⟩
    · exact Text.stops_cons.2 hstop
    · exact Text.stops_cons.2 (hp _ hc hstop)

/-- **A span that fits in front of a text fits in front of what the text fades to.** -/
theorem Span.Fits.fades {s : Span} (h : s.Fits t) (hfades : List.Forall₂ Fades t t') :
    s.Fits t' := by
  cases h with
  | separator hc => exact .separator hc
  | comment hbody hafter =>
    refine .comment hbody (hafter.fades (fun c hc hstop ↦ ?_) hfades)
    exact absurd (by simpa using hstop) hc
  | @punct p _ hp =>
    refine .punct fun x hx hhead ↦ ?_
    cases hfades with
    | nil => cases hhead
    | cons hcd hrest =>
      obtain rfl := Option.some.inj hhead
      rcases hcd with rfl | ⟨-, rfl⟩
      · exact hp _ hx rfl
      · simp [Punct.follower?_eq_some_iff] at hx
  | quoted hbody => exact .quoted hbody
  | unclosed hbody =>
    cases hfades
    exact .unclosed hbody
  | digits hds hafter hpoint =>
    refine .digits hds (hafter.fades (fun _ _ _ ↦ rfl) hfades) ?_
    rintro u rfl
    -- what faded is a space, so a point behind the digits is one that was there before
    cases hfades with
    | cons hcd hrest =>
      rcases hcd with rfl | ⟨-, hspace⟩
      · exact (hpoint _ rfl).fades (fun _ _ _ ↦ rfl) hrest
      · exact absurd hspace (by decide)
  | fraction hwhole hpart hafter =>
    exact .fraction hwhole hpart (hafter.fades (fun _ _ _ ↦ rfl) hfades)
  | word hw hafter => exact .word hw (hafter.fades (fun _ _ _ ↦ rfl) hfades)
  | stray hseparator hquote hdigit hword hpunct =>
    exact .stray hseparator hquote hdigit hword hpunct

end

/-! ## The scan of a blanked source -/

theorem Span.fades_blanked (s : Span) : List.Forall₂ Fades s.text s.blanked := by
  rw [blanked]
  split
  · exact List.forall₂_map_right_iff.2 (List.forall₂_same.2 fun c _ ↦ fades_blankOut c)
  · exact List.forall₂_same.2 fun _ _ ↦ .inl rfl

theorem fades_flatMap_blanked (ss : List Span) :
    List.Forall₂ Fades (ss.flatMap Span.text) (ss.flatMap Span.blanked) := by
  induction ss with
  | nil => exact List.Forall₂.nil
  | cons s ss ih => exact List.rel_append s.fades_blanked ih

theorem isSpacing_map_blankOut (t : Text) : IsSpacing (t.map blankOut) := by
  induction t with
  | nil => exact IsSpacing.nil
  | cons c t ih =>
    refine IsSpacing.white ?_ ih
    rw [blankOut]
    split
    · exact .inr (.inr (.inr rfl))
    · exact .inl rfl

/-- Blanked spans give the tokens of the spans. -/
theorem itemsFrom_blanked (o : Options) {ss : List Span} (h : Fitting ss) (line : Nat) :
    Span.itemsFrom o line (spans (ss.flatMap Span.blanked)) =
      ((Span.itemsFrom o line ss).filterMap Item.token?).map Item.token := by
  induction h generalizing line with
  | nil =>
    rw [List.flatMap_nil, spans]
    rfl
  | @cons s ss hs hss ih =>
    rw [List.flatMap_cons, Span.itemsFrom, List.filterMap_append, List.map_append, ← ih]
    by_cases hfault : s.isFault = true
    · -- blank text in the place of the error
      obtain ⟨e, hi⟩ := Span.isFault_iff.1 hfault
      have hlines := newlines_of_fades s.fades_blanked
      rw [Span.blanked, if_pos hfault] at hlines ⊢
      rw [itemsFrom_spacing (isSpacing_map_blankOut s.text), hlines, hi]
      rfl
    · rw [Span.blanked, if_neg hfault,
        Span.itemsFrom_spans_of_fits (hs.fades (fades_flatMap_blanked ss))]
      rcases hi : s.item? o line with _ | (t | e)
      · rfl
      · rfl
      · exact absurd (Span.isFault_iff.2 ⟨e, hi⟩) hfault


/-- **Recovery loses nothing.**  There is one way to make blank everything that a scan reports, and
the source that is left gives the same tokens and no error. -/
theorem tokenize_blanked (o : Options) (source : Text) : ∃ out,
    (∀ out', Blanked o 1 source (Scanner.ofText o source).items out' ↔ out' = out) ∧
    tokenize o out = ⟨(tokenize o source).tokens, []⟩ := by
  refine ⟨_, fun _ ↦ blanked_items_iff, ?_⟩
  have hlines := newlines_of_fades (fades_flatMap_blanked (spans source))
  rw [flatMap_text_spans] at hlines
  rw [Scanner.tokenize_of_itemsFrom (itemsFrom_blanked o (fitting_spans source) 1), hlines,
    Scanner.tokens_tokenize]

/-- A character that starts nothing between a point and a digit, an integer that is out of range,
and a string without an end. -/
theorem tokenize_blanked_three_errors :
    let o := Options.default
    let source := "1.@5 99999999999999999999 \"a\nb".toList
    let out := "1. 5 ".toList ++ List.replicate 23 ' ' ++ ['\n', ' ']
    (tokenize o source).errors.map LexError.fault = [.unexpectedCharacter '@',
      .invalidNumber "99999999999999999999".toList, .unterminatedString] ∧
    Blanked o 1 source (Scanner.ofText o source).items out ∧
    tokenize o out = ⟨(tokenize o source).tokens, []⟩ := by
  intro o source out
  have hblanked : Blanked o 1 source (Scanner.ofText o source).items out :=
    blanked_items_iff.2 (by decide +kernel)
  obtain ⟨out', hout, hscan⟩ := tokenize_blanked o source
  rw [← (hout out).1 hblanked] at hscan
  exact ⟨by decide +kernel, hblanked, hscan⟩

end LoxTokens
