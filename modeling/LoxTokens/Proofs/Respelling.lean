import LoxTokens.Proofs.LineBreak
import LoxTokens.Proofs.Layout

/-!
# Respelled sources

A source can be spelled differently without a change of what it means to a scan: with other letters
in its words, or with other white space.  If each character is respelled on its own, the scan of the
respelled source is the scan of the source with its texts respelled.

* `Respells f` — the spelling `f` makes white space with the same line feeds out of white space,
  letters out of letters, and leaves all other characters alone.
* `Respells.fits` — a span other than white space fits in front of a respelled text if it did so
  before.  For comments there is `itemsFrom_respelled_comment`, since the white space behind a
  comment can become part of it.
* `tokenize_flatMap` — the scan of a respelled source.
-/

set_option autoImplicit false

namespace LoxTokens

/-! ## Spellings -/

/-- Respells characters one by one, so that white space, letters and all else are kept apart. -/
structure Respells (f : Char → Text) : Prop where
  /-- White space becomes white space, as much of it as is liked, with the same line feeds. -/
  separator : ∀ c, isSeparator c = true →
    f c ≠ [] ∧ (∀ x ∈ f c, isSeparator x = true) ∧ (f c).newlines = Text.newlines [c]
  /-- Any other character stays, or is a letter and becomes one. -/
  other : ∀ c, isSeparator c = false →
    ∃ d, f c = [d] ∧ (d = c ∨ isWordStart c = true ∧ isWordStart d = true)

namespace Respells

variable {f : Char → Text} (h : Respells f)
include h

theorem eq_singleton {c : Char} (hc : isSeparator c = false) (hword : isWordStart c = false) :
    f c = [c] := by
  obtain ⟨d, hd, rfl | ⟨hc', -⟩⟩ := h.other c hc
  · exact hd
  · exact absurd (hword.symm.trans hc') Bool.false_ne_true

theorem flatMap_eq_self {t : Text} (ht : ∀ c ∈ t, isSeparator c = false ∧ isWordStart c = false) :
    t.flatMap f = t := by
  rw [List.flatMap_congr fun c hc ↦ h.eq_singleton (ht c hc).1 (ht c hc).2,
    List.flatMap_singleton']

theorem ne_nil (c : Char) : f c ≠ [] := by
  cases hc : isSeparator c with
  | true => exact (h.separator c hc).1
  | false =>
    obtain ⟨d, hd, -⟩ := h.other c hc
    simp [hd]

theorem flatMap_eq_nil_iff {t : Text} : t.flatMap f = [] ↔ t = [] := by
  cases t with
  | nil => exact iff_of_true rfl rfl
  | cons c t => simp [h.ne_nil c]

/-- Where a character other than white space and letters comes from. -/
theorem eq_of_mem {c x : Char} (hx : isSeparator x = false) (hword : isWordStart x = false)
    (hmem : x ∈ f c) : c = x := by
  cases hc : isSeparator c with
  | true => exact absurd (hx.symm.trans ((h.separator c hc).2.1 x hmem)) Bool.false_ne_true
  | false =>
    obtain ⟨d, hd, hcases⟩ := h.other c hc
    rw [hd, List.mem_singleton] at hmem
    subst hmem
    rcases hcases with hcases | ⟨-, hx'⟩
    · exact hcases.symm
    · exact absurd (hword.symm.trans hx') Bool.false_ne_true

theorem quote_notMem {t : Text} (ht : '"' ∉ t) : '"' ∉ t.flatMap f := by
  intro hmem
  obtain ⟨c, hc, hquote⟩ := List.mem_flatMap.1 hmem
  exact ht (h.eq_of_mem (by decide) (by decide) hquote ▸ hc)

theorem newlines_flatMap (t : Text) : Text.newlines (t.flatMap f) = t.newlines := by
  induction t with
  | nil => rfl
  | cons c t ih =>
    have hc : (f c).newlines = Text.newlines [c] := by
      cases hc : isSeparator c with
      | true => exact (h.separator c hc).2.2
      | false =>
        obtain ⟨d, hd, rfl | ⟨-, hword⟩⟩ := h.other c hc
        · rw [hd]
        · rw [hd, newlines_of_isSeparator (isSeparator_of_isWordStart hword),
            newlines_of_isSeparator hc]
    rw [List.flatMap_cons, Text.newlines_append, hc, ih, ← Text.newlines_append,
      List.singleton_append]

theorem newline_notMem {t : Text} (ht : '\n' ∉ t) : '\n' ∉ t.flatMap f := by
  rwa [← Text.newlines_eq_zero_iff, h.newlines_flatMap, Text.newlines_eq_zero_iff]

theorem isWord {w : Text} (hw : IsWord w) : IsWord (w.flatMap f) := by
  obtain ⟨c, w, rfl, hc, hrun⟩ := hw
  obtain ⟨d, hd, hcases⟩ := h.other c (isSeparator_of_isWordStart hc)
  refine ⟨d, w.flatMap f, by rw [List.flatMap_cons, hd]; rfl, ?_, fun x hx ↦ ?_⟩
  · rcases hcases with rfl | ⟨-, hd'⟩
    · exact hc
    · exact hd'
  · obtain ⟨e, he, hx⟩ := List.mem_flatMap.1 hx
    have hpart := hrun e he
    have hsep : isSeparator e = false := by
      rw [← Bool.not_eq_true]
      intro hsep
      rw [(classes_of_isSeparator hsep).1] at hpart
      cases hpart
    obtain ⟨d, hd, hcases⟩ := h.other e hsep
    rw [hd, List.mem_singleton] at hx
    subst hx
    rcases hcases with rfl | ⟨-, hx'⟩
    · exact hpart
    · rw [isWordPart, hx', Bool.true_or]

/-- A run of a class stops at a respelled text if it did so before, as long as the class does not
tell white space from white space, nor letters from letters. -/
theorem stops {p : Char → Bool} (hseparator : ∀ c, isSeparator c = true → p c = false)
    (hword : ∀ c d, isWordStart c = true → isWordStart d = true → p c = p d) {t : Text}
    (ht : t.Stops p) : Text.Stops p (t.flatMap f) := by
  cases t with
  | nil => exact Text.stops_nil p
  | cons c t =>
    rw [Text.stops_cons] at ht
    rw [List.flatMap_cons]
    cases hc : isSeparator c with
    | true =>
      obtain ⟨hne, hall, -⟩ := h.separator c hc
      obtain ⟨x, u, hx⟩ := List.exists_cons_of_ne_nil hne
      rw [hx, List.cons_append, Text.stops_cons]
      exact hseparator x (hall x (hx ▸ List.mem_cons_self))
    | false =>
      obtain ⟨d, hd, hcases⟩ := h.other c hc
      rw [hd, List.singleton_append, Text.stops_cons]
      rcases hcases with rfl | ⟨hc', hd'⟩
      · exact ht
      · rw [hword d c hd' hc', ht]

theorem stops_isDigit {t : Text} (ht : t.Stops Char.isDigit) :
    Text.Stops Char.isDigit (t.flatMap f) :=
  h.stops (fun _ hc ↦ (classes_of_isSeparator hc).2.1)
    (fun _ _ hc hd ↦ by rw [isDigit_of_isWordStart hc, isDigit_of_isWordStart hd]) ht

theorem stops_isWordPart {t : Text} (ht : t.Stops isWordPart) :
    Text.Stops isWordPart (t.flatMap f) :=
  h.stops (fun _ hc ↦ (classes_of_isSeparator hc).1)
    (fun _ _ hc hd ↦ by rw [isWordPart, isWordPart, hc, hd, Bool.true_or, Bool.true_or]) ht

/-- The characters that make a mark longer are neither white space nor letters. -/
theorem closed {p : Punct} {t : Text} (ht : p.Closed t) : p.Closed (t.flatMap f) := by
  intro x hx hhead
  have hx' : isSeparator x = false ∧ isWordStart x = false := by
    rcases Punct.follower?_eq_some_iff.1 hx with ⟨-, rfl⟩ | ⟨-, rfl⟩ <;> decide
  cases t with
  | nil => cases hhead
  | cons c t =>
    obtain ⟨d, u, hd⟩ := List.exists_cons_of_ne_nil (h.ne_nil c)
    rw [List.flatMap_cons, hd] at hhead
    cases hhead
    have hc : c = x := h.eq_of_mem hx'.1 hx'.2 (hd ▸ List.mem_cons_self)
    exact ht x hx (congrArg some hc)

/-- A point comes from a point. -/
theorem exists_eq_cons_of_point {t u : Text} (hu : t.flatMap f = '.' :: u) :
    ∃ t', t = '.' :: t' ∧ t'.flatMap f = u := by
  cases t with
  | nil => cases hu
  | cons c t =>
    obtain ⟨d, v, hd⟩ := List.exists_cons_of_ne_nil (h.ne_nil c)
    have hpoint : d = '.' := by
      rw [List.flatMap_cons, hd] at hu
      exact (List.cons.inj hu).1
    obtain rfl : c = '.' := h.eq_of_mem (by decide) (by decide) (hpoint ▸ hd ▸ List.mem_cons_self)
    have hself : f '.' = ['.'] := h.eq_singleton rfl rfl
    rw [List.flatMap_cons, hself] at hu
    exact ⟨t, rfl, (List.cons.inj hu).2⟩

end Respells

/-! ## Respelled spans and items -/

/-- The kind with the text of a string changed. -/
def TokenKind.mapText (F : Text → Text) : TokenKind → TokenKind
  | string s => string (F s)
  | k => k

/-- The token with its lexeme, and the text of a string, changed.  Its line stays. -/
def Token.mapText (F : Text → Text) (t : Token) : Token := ⟨t.kind.mapText F, F t.lexeme, t.line⟩

/-- The item with the texts of a token changed. -/
def Item.mapText (F : Text → Text) : Item → Item
  | token t => token (t.mapText F)
  | error e => error e

/-- The scan with the texts of its tokens changed.  Its errors stay. -/
def Scan.mapText (F : Text → Text) (s : Scan) : Scan := ⟨s.tokens.map (Token.mapText F), s.errors⟩

theorem Scan.ofItems_map_mapText (F : Text → Text) (is : List Item) :
    ofItems (is.map (Item.mapText F)) = (ofItems is).mapText F := by
  induction is with
  | nil => rfl
  | cons i is ih =>
    cases i with
    | token t => rw [List.map_cons, Item.mapText, ofItems_token, ofItems_token, ih]; rfl
    | error e => rw [List.map_cons, Item.mapText, ofItems_error, ofItems_error, ih]; rfl

namespace Span

/-- Whether the span is white space or a comment. -/
def isGap : Span → Bool
  | separator _ | comment _ => true
  | _ => false

/-- The span with the text in it respelled. -/
def respell (f : Char → Text) : Span → Span
  | quoted body => quoted (body.flatMap f)
  | unclosed body => unclosed (body.flatMap f)
  | word w => word (w.flatMap f)
  | s => s

end Span

theorem IsDigits.not_separator_not_letter {ds : Text} (h : IsDigits ds) :
    ∀ c ∈ ds, isSeparator c = false ∧ isWordStart c = false := by
  intro c hc
  refine ⟨isSeparator_of_isDigit (h.2 c hc), ?_⟩
  rw [← Bool.not_eq_true]
  intro hword
  exact absurd (h.2 c hc) (Bool.eq_false_iff.1 (isDigit_of_isWordStart hword))

theorem Punct.not_separator_not_letter (p : Punct) :
    ∀ c ∈ p.text, isSeparator c = false ∧ isWordStart c = false := by
  cases p <;> simp [text, isSeparator, isWordStart]

namespace Respells

variable {f : Char → Text} (h : Respells f) {s : Span} {after : Text}
include h

theorem fraction_eq_self {whole part : Text} (hwhole : IsDigits whole) (hpart : IsDigits part) :
    (whole ++ '.' :: part).flatMap f = whole ++ '.' :: part := by
  refine h.flatMap_eq_self fun c hc ↦ ?_
  rcases List.mem_append.1 hc with hc | hc
  · exact hwhole.not_separator_not_letter c hc
  rcases List.mem_cons.1 hc with rfl | hc
  · decide
  · exact hpart.not_separator_not_letter c hc

/-- A span that is no gap still fits when everything is respelled. -/
theorem fits (hs : s.Fits after) (hgap : s.isGap = false) :
    (s.respell f).Fits (after.flatMap f) := by
  cases hs with
  | separator hc => cases hgap
  | comment hbody hafter => cases hgap
  | punct hp => exact .punct (h.closed hp)
  | quoted hbody => exact .quoted (h.quote_notMem hbody)
  | unclosed hbody => exact .unclosed (h.quote_notMem hbody)
  | digits hds hafter hpoint =>
    refine .digits hds (h.stops_isDigit hafter) fun u hu ↦ ?_
    obtain ⟨t, rfl, rfl⟩ := h.exists_eq_cons_of_point hu
    exact h.stops_isDigit (hpoint t rfl)
  | fraction hwhole hpart hafter => exact .fraction hwhole hpart (h.stops_isDigit hafter)
  | word hw hafter => exact .word (h.isWord hw) (h.stops_isWordPart hafter)
  | stray hseparator hquote hdigit hword hpunct =>
    exact .stray hseparator hquote hdigit hword hpunct

theorem text_respell (hs : s.Fits after) (hgap : s.isGap = false) :
    (s.respell f).text = s.text.flatMap f := by
  have hquote : f '"' = ['"'] := h.eq_singleton rfl rfl
  cases hs with
  | separator hc => cases hgap
  | comment hbody hafter => cases hgap
  | @punct p _ hp => exact (h.flatMap_eq_self p.not_separator_not_letter).symm
  | quoted hbody => simp [Span.respell, Span.text, hquote]
  | unclosed hbody => simp [Span.respell, Span.text, hquote]
  | digits hds hafter hpoint => exact (h.flatMap_eq_self hds.not_separator_not_letter).symm
  | fraction hwhole hpart hafter => exact (h.fraction_eq_self hwhole hpart).symm
  | word hw hafter => rfl
  | stray hseparator hquote hdigit hword hpunct =>
    simp [Span.respell, Span.text, h.eq_singleton hseparator hword]

section

variable {o o' : Options} (hempty : o'.emptyStrings = o.emptyStrings)
  (hword : ∀ w, IsWord w → Span.wordKind o' (w.flatMap f) = Span.wordKind o w)
include hempty hword

/-- The item of a respelled span is the respelled item. -/
theorem item?_respell (hs : s.Fits after) (line : Nat) :
    (s.respell f).item? o' line = (s.item? o line).map (Item.mapText (·.flatMap f)) := by
  have htoken : ∀ (k : TokenKind) (w : Text), k.mapText (·.flatMap f) = k → w.flatMap f = w →
      some (Span.tokenItem line k w) =
        (some (Span.tokenItem line k w)).map (Item.mapText (·.flatMap f)) := by
    intro k w hk hw
    rw [Option.map_some, Span.tokenItem, Item.mapText, Token.mapText, hk, hw]
  cases hs with
  | separator hc => rfl
  | comment hbody hafter => rfl
  | @punct p _ hp => exact htoken _ _ rfl (h.flatMap_eq_self p.not_separator_not_letter)
  | @quoted body _ hbody =>
    rw [Span.respell, Span.item?, Span.item?, hempty]
    simp only [h.flatMap_eq_nil_iff]
    split <;> rfl
  | @unclosed body hbody =>
    have hlines : (Span.unclosed (body.flatMap f)).text.newlines =
        (Span.unclosed body).text.newlines := by
      rw [Span.text, Span.text, Text.newlines_cons, Text.newlines_cons, h.newlines_flatMap]
    rw [Span.respell, Span.item?, Span.item?, hlines]
    rfl
  | @digits ds _ hds hafter hpoint =>
    change (Span.digits ds).item? o' line = _
    rw [Span.item?_digits hds, Span.item?_digits hds]
    split
    · exact htoken _ _ rfl (h.flatMap_eq_self hds.not_separator_not_letter)
    · rfl
  | fraction hwhole hpart hafter => exact htoken _ _ rfl (h.fraction_eq_self hwhole hpart)
  | @word w _ hw hafter =>
    have hkind : (Span.wordKind o w).mapText (·.flatMap f) = Span.wordKind o w := by
      rcases Span.wordKind_cases o w with ⟨k, -, hk⟩ | ⟨-, hk⟩ <;> rw [hk] <;> rfl
    rw [Span.respell, Span.item?, Span.item?, hword w hw, Option.map_some, Span.tokenItem,
      Span.tokenItem, Item.mapText, Token.mapText, hkind]
  | stray hseparator hquote hdigit hword hpunct => rfl

end

end Respells

/-! ## Respelled sources -/

theorem isSpacing_of_forall {g : Text} (hg : ∀ c ∈ g, isSeparator c = true) : IsSpacing g := by
  induction g with
  | nil => exact IsSpacing.nil
  | cons c g ih =>
    rw [List.forall_mem_cons] at hg
    exact IsSpacing.white (isSeparator_iff.1 hg.1) (ih hg.2)

/-- White space without a line feed can be taken into the comment before it. -/
theorem itemsFrom_comment_spacing {body g after : Text} (hbody : '\n' ∉ body)
    (hg : ∀ c ∈ g, isSeparator c = true) (hg' : '\n' ∉ g) (hafter : after.Stops (· != '\n'))
    (o : Options) (line : Nat) :
    Span.itemsFrom o line (spans ('/' :: '/' :: body ++ (g ++ after))) =
      Span.itemsFrom o line (spans (g ++ after)) := by
  have hlonger : '\n' ∉ body ++ g := by simp [hbody, hg']
  have hcomment := itemsFrom_comment hlonger hafter o line
  rw [itemsFrom_spacing (isSpacing_of_forall hg), Text.newlines_eq_zero_iff.2 hg', Nat.add_zero,
    ← hcomment]
  simp

namespace Respells

variable {f : Char → Text} (h : Respells f)
include h

/-- What comes behind a comment is white space up to a line feed, or nothing. -/
theorem exists_append_of_stops {after : Text} (hafter : after.Stops (· != '\n')) :
    ∃ g t : Text, after.flatMap f = g ++ t ∧ (∀ c ∈ g, isSeparator c = true) ∧ '\n' ∉ g ∧
      t.Stops (· != '\n') := by
  cases after with
  | nil => exact ⟨[], [], rfl, by simp, by simp, Text.stops_nil _⟩
  | cons c after =>
    obtain rfl : c = '\n' := by simpa using Text.stops_cons.1 hafter
    obtain ⟨-, hall, hlines⟩ := h.separator '\n' rfl
    have hmem : '\n' ∈ f '\n' := by
      by_contra hnone
      rw [Text.newlines_eq_zero_iff.2 hnone] at hlines
      cases hlines
    obtain ⟨g, t, hsplit, hg⟩ := List.eq_append_cons_of_mem hmem
    refine ⟨g, '\n' :: t ++ after.flatMap f, by simp [hsplit], fun x hx ↦ hall x ?_, hg,
      Text.stops_cons.2 rfl⟩
    rw [hsplit]
    exact List.mem_append_left _ hx

/-- A respelled comment leaves no trace, like the comment. -/
theorem itemsFrom_respelled_comment {body after : Text} (hbody : '\n' ∉ body)
    (hafter : after.Stops (· != '\n')) (o : Options) (line : Nat) :
    Span.itemsFrom o line (spans (('/' :: '/' :: body ++ after).flatMap f)) =
      Span.itemsFrom o line (spans (after.flatMap f)) := by
  have hslash : f '/' = ['/'] := h.eq_singleton rfl rfl
  obtain ⟨g, t, hsplit, hg, hg', ht⟩ := h.exists_append_of_stops hafter
  have hcomment := itemsFrom_comment_spacing (h.newline_notMem hbody) hg hg' ht o line
  simpa [hslash, hsplit] using hcomment

variable {o o' : Options} (hempty : o'.emptyStrings = o.emptyStrings)
  (hword : ∀ w, IsWord w → Span.wordKind o' (w.flatMap f) = Span.wordKind o w)
include hempty hword

/-- One span more. -/
theorem itemsFrom_flatMap_of_fits {s : Span} {after : Text} (hs : s.Fits after) (line : Nat) :
    Span.itemsFrom o' line (spans ((s.text ++ after).flatMap f)) =
      (s.item? o line).toList.map (Item.mapText (·.flatMap f)) ++
        Span.itemsFrom o' (line + s.text.newlines) (spans (after.flatMap f)) := by
  cases hgap : s.isGap with
  | false =>
    have hitem := h.item?_respell hempty hword hs line
    have hspan := Span.itemsFrom_spans_of_fits (h.fits hs hgap) o' line
    rw [h.text_respell hs hgap, h.newlines_flatMap, hitem] at hspan
    rw [List.flatMap_append, hspan]
    cases s.item? o line <;> rfl
  | true =>
    cases hs with
    | @separator c _ hc =>
      obtain ⟨-, hall, hlines⟩ := h.separator c hc
      have hspacing := itemsFrom_spacing (isSpacing_of_forall hall) o' line (after.flatMap f)
      rw [hlines] at hspacing
      exact hspacing
    | comment hbody hafter =>
      rw [Span.text, newlines_comment hbody]
      exact h.itemsFrom_respelled_comment hbody hafter o' line
    | _ => cases hgap

theorem itemsFrom_flatMap {ss : List Span} (hss : Fitting ss) (line : Nat) :
    Span.itemsFrom o' line (spans ((ss.flatMap Span.text).flatMap f)) =
      (Span.itemsFrom o line ss).map (Item.mapText (·.flatMap f)) := by
  induction hss generalizing line with
  | nil =>
    rw [List.flatMap_nil, List.flatMap_nil, spans]
    rfl
  | cons hs hss ih =>
    rw [List.flatMap_cons, h.itemsFrom_flatMap_of_fits hempty hword hs, ih, Span.itemsFrom,
      List.map_append]

/-- **The scan of a respelled source** is the scan of the source with its texts respelled, if the
options are such that the respelled words are what the words are. -/
theorem tokenize_flatMap (source : Text) :
    tokenize o' (source.flatMap f) = (tokenize o source).mapText (·.flatMap f) := by
  have hitems := h.itemsFrom_flatMap hempty hword (fitting_spans source) 1
  rw [flatMap_text_spans] at hitems
  rw [tokenize, Scanner.tokenize, Scanner.items_ofText, hitems, h.newlines_flatMap, tokenize,
    Scanner.tokenize, Scanner.items_ofText, ← Scan.ofItems_map_mapText, List.map_append]
  rfl

end Respells

end LoxTokens
