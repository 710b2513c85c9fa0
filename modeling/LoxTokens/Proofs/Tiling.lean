import LoxTokens.Proofs.Run

/-!
# Items tile the source

A scan loses nothing.  Every item stands for a piece of the source, the pieces come in the order of
the items, and what lies between them is white space, comments and suppressed empty strings.

* `Item.Covers i w` — the text `w` is what the item `i` stands for: the lexeme of a token, with the
  quotes of a string put back, or the piece of source that an error is about.
* `Gap o g after` — the text `g` in front of `after` is one that no item stands for.
* `Tiled o source is` — the source is made of gaps and the texts of the items `is`, in turn.
* `tiled_items` — the source is tiled by the items of its scan.
-/

set_option autoImplicit false

namespace LoxTokens

/-! ## The text of an item -/

/-- The text that an item stands for.  An error names it, except for a string without an end, of
which only the opening quote is known and that no other quote follows. -/
def Item.Covers : Item → Text → Prop
  | .token t, w => w = t.source
  | .error ⟨.unexpectedCharacter c, _⟩, w => w = [c]
  | .error ⟨.invalidNumber ds, _⟩, w => w = ds ∧ IsDigits ds
  | .error ⟨.unterminatedString, _⟩, w => ∃ body, w = '"' :: body ∧ '"' ∉ body

/-- A text that gives no item, in front of the text that follows it. -/
inductive Gap (o : Options) : Text → Text → Prop
  | nil {after : Text} : Gap o [] after
  | separator {c : Char} {g after : Text} (hc : c = ' ' ∨ c = '\t' ∨ c = '\r' ∨ c = '\n')
      (hg : Gap o g after) : Gap o (c :: g) after
  /-- A comment goes to the end of its line, and leaves the line feed alone. -/
  | comment {body g after : Text} (hbody : '\n' ∉ body) (hend : ∀ x ∈ (g ++ after).head?, x = '\n')
      (hg : Gap o g after) : Gap o ('/' :: '/' :: body ++ g) after
  | emptyString {g after : Text} (ho : o.emptyStrings = .suppress) (hg : Gap o g after) :
      Gap o ('"' :: '"' :: g) after

/-- The text consists of the texts of the items, in their order, with gaps around them. -/
inductive Tiled (o : Options) : Text → List Item → Prop
  | gap {g : Text} (hg : Gap o g []) : Tiled o g []
  | item {g w after : Text} {i : Item} {is : List Item} (hg : Gap o g (w ++ after))
      (hw : i.Covers w) (hlast : ∀ line, i = .error ⟨.unterminatedString, line⟩ → after = [])
      (h : Tiled o after is) : Tiled o (g ++ w ++ after) (i :: is)

/-- A longer gap in front of tiles. -/
theorem Tiled.prepend {o : Options} {p source : Text} {is : List Item} (h : Tiled o source is)
    (hp : ∀ g after, g ++ after = source → Gap o g after → Gap o (p ++ g) after) :
    Tiled o (p ++ source) is := by
  cases h with
  | gap hg => exact Tiled.gap (hp _ _ (List.append_nil _) hg)
  | @item g w after i is hg hw hlast h =>
    have hg' := hp g (w ++ after) (List.append_assoc g w after).symm hg
    rw [← List.append_assoc, ← List.append_assoc]
    exact Tiled.item hg' hw hlast h

/-! ## What one span contributes -/

/-- What a span without an item can be, in front of the given text. -/
inductive Span.Silent (o : Options) : Span → Text → Prop
  | separator {c : Char} {after : Text} (hc : isSeparator c = true) : Silent o (separator c) after
  | comment {body after : Text} (hbody : '\n' ∉ body) (hafter : after.Stops (· != '\n')) :
      Silent o (comment body) after
  | emptyString {after : Text} (ho : o.emptyStrings = .suppress) : Silent o (quoted []) after

namespace Span.Fits

variable {o : Options} {line : Nat} {s : Span} {after : Text}

/-- A span with an item is the text of that item, and the last one if it is an open string. -/
theorem covers (h : s.Fits after) {i : Item} (hi : s.item? o line = some i) :
    i.Covers s.text ∧ ∀ l, i = .error ⟨.unterminatedString, l⟩ → after = [] := by
  cases h.yields hi with
  | token hkind hline hsource => exact ⟨hsource.symm, by rintro _ ⟨⟩⟩
  | stray => exact ⟨rfl, by rintro _ ⟨⟩⟩
  | digits hds => exact ⟨⟨rfl, hds⟩, by rintro _ ⟨⟩⟩
  | unclosed hbody => exact ⟨⟨_, rfl, hbody⟩, fun _ _ ↦ rfl⟩

/-- Only white space, comments and suppressed empty strings have no item. -/
theorem silent (h : s.Fits after) (hi : s.item? o line = none) : s.Silent o after := by
  cases h with
  | separator hc => exact Silent.separator hc
  | comment hbody hafter => exact Silent.comment hbody hafter
  | punct hp => cases hi
  | @quoted body _ hbody =>
    rw [item?] at hi
    split at hi
    · next hempty =>
      rw [hempty.1]
      exact Silent.emptyString hempty.2
    · cases hi
  | unclosed hbody => cases hi
  | digits hds hafter hpoint =>
    rw [item?_digits hds] at hi
    cases hi
  | fraction hwhole hpart hafter => cases hi
  | word hw hafter => cases hi
  | stray => cases hi

/-- A span without an item makes a gap longer. -/
theorem gap (h : s.Fits after) (hi : s.item? o line = none) {g t : Text} (ht : g ++ t = after)
    (hg : Gap o g t) : Gap o (s.text ++ g) t := by
  cases h.silent hi with
  | separator hc => exact Gap.separator (isSeparator_iff.1 hc) hg
  | comment hbody hafter =>
    refine Gap.comment hbody (fun x hx ↦ ?_) hg
    have hx' := hafter x (ht ▸ hx)
    simpa using hx'
  | emptyString ho => exact Gap.emptyString ho hg

end Span.Fits

/-- Spans that fit are tiled by their items. -/
theorem tiled_itemsFrom (o : Options) {ss : List Span} (h : Fitting ss) (line : Nat) :
    Tiled o (ss.flatMap Span.text) (Span.itemsFrom o line ss) := by
  induction h generalizing line with
  | nil => exact Tiled.gap Gap.nil
  | @cons s ss hs hss ih =>
    rw [List.flatMap_cons, Span.itemsFrom]
    have hrest := ih (line + s.text.newlines)
    cases hi : s.item? o line with
    | none => exact hrest.prepend fun g after hsplit hg ↦ hs.gap hi hsplit hg
    | some i =>
      obtain ⟨hcovers, hlast⟩ := hs.covers hi
      exact Tiled.item (g := []) Gap.nil hcovers hlast hrest

/-! ## The tiling of a source -/

/-- The lexeme of a token is part of its text. -/
theorem lexeme_isInfix_source (t : Token) : t.lexeme <:+: t.source := by
  rw [Token.source]
  split
  · exact ⟨['"'], ['"'], rfl⟩
  · exact List.infix_rfl

/-- Whatever tiles a text is cut out of it. -/
theorem Tiled.lexeme_isInfix {o : Options} {source : Text} {is : List Item}
    (h : Tiled o source is) {t : Token} (ht : .token t ∈ is) : t.lexeme <:+: source := by
  induction h with
  | gap hg => cases ht
  | @item g w after i is hg hw hlast h ih =>
    rcases List.mem_cons.1 ht with rfl | ht
    · have hw' : w = t.source := hw
      exact (lexeme_isInfix_source t).trans (hw' ▸ ⟨g, after, rfl⟩)
    · exact (ih ht).trans (List.suffix_append _ _).isInfix

/-- No span makes the end of the file. -/
theorem kind_ne_endOfFile_of_mem {o : Options} {ss : List Span} (h : Fitting ss) {line : Nat}
    {t : Token} (ht : .token t ∈ Span.itemsFrom o line ss) : t.kind ≠ .endOfFile := by
  obtain ⟨s, after, line', hs, hi⟩ := exists_fits_of_mem_itemsFrom h ht
  exact (hs.yields hi).kind_ne_endOfFile

/-- **A scan tiles its source.**  The source is what the items before the end of the file stand for,
in their order, with gaps around them, and every lexeme is a slice of it. -/
theorem tiled_items (o : Options) (source : Text) : ∃ is line,
    (Scanner.ofText o source).items = is ++ [.token (Token.endOfFile line)] ∧
    (∀ t, .token t ∈ is → t.kind ≠ .endOfFile) ∧
    Tiled o source is ∧
    ∀ t, .token t ∈ is → t.lexeme <:+: source := by
  have htiled := tiled_itemsFrom o (fitting_spans source) 1
  rw [flatMap_text_spans] at htiled
  exact ⟨_, _, Scanner.items_ofText o source,
    fun t ht ↦ kind_ne_endOfFile_of_mem (fitting_spans source) ht, htiled,
    fun t ht ↦ htiled.lexeme_isInfix ht⟩

end LoxTokens
