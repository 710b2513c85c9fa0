import LoxTokens.Proofs.Lines
import Mathlib.Data.List.Basic

/-!
# Blanking what a scan reports

A scan reports errors, and each error says what it is about: a character, the digits of a number, or
a quote that is never closed.  This is enough to find the pieces of source that are malformed and to
make them blank, without a look at the scanner.

* `Item.blank i w` — the text `w` of the item `i`, made blank if the item is an error.  Line feeds
  stay.
* `Blanked o line source is out` — the source consists of the texts of the items `is` with gaps
  around them, and `out` is the source with the texts of the errors made blank.
* `Span.blanked` — the text of a span, made blank if its item is an error.
* `blanked_itemsFrom` and `Blanked.eq` — the spans of a source made blank are such an `out`, and
  there is no other.  Together they are `blanked_items_iff`.
-/

set_option autoImplicit false

namespace LoxTokens

/-! ## Blanking a source -/

/-- A space, or a line feed in the place of a line feed. -/
def blankOut (c : Char) : Char := if c = '\n' then '\n' else ' '

/-- What is left of the text of an item when errors are made blank. -/
def Item.blank : Item → Text → Text
  | .token _, w => w
  | .error _, w => w.map blankOut

/-- The source, which starts on the given line, consists of the texts of the items up to the end of
the file with gaps around them, and `out` is the source with the errors made blank.  Each item
stands on the line that it names, which tells it from the same text in a comment. -/
inductive Blanked (o : Options) : Nat → Text → List Item → Text → Prop
  /-- Behind the last text there is a gap, and the end of the file. -/
  | last {line : Nat} {g : Text} (hg : Gap o g []) :
      Blanked o line g [.token (Token.endOfFile (line + g.newlines))] g
  /-- A text behind a gap, on the line of its item.  A string without an end takes all that is
  left. -/
  | item {line : Nat} {g w after out : Text} {i : Item} {is : List Item}
      (hg : Gap o g (w ++ after)) (hw : i.Covers w)
      (hline : i.line = line + g.newlines + if i.isLast then (w ++ after).newlines else 0)
      (hlast : ∀ l, i = .error ⟨.unterminatedString, l⟩ → after = [])
      (h : Blanked o (line + (g ++ w).newlines) after is out) :
      Blanked o line (g ++ w ++ after) (i :: is) (g ++ i.blank w ++ out)

/-! ## Blanking span by span -/

namespace Span

variable {o : Options} {line : Nat} {s : Span}

/-- Whether the item of a span is an error. -/
def isFault : Span → Bool
  | unclosed _ | stray _ => true
  | digits ds => Number.integerBound ≤ Decimal.ofDigits ds
  | _ => false

/-- Neither the options nor the line decide whether a span is an error. -/
theorem isFault_iff {o : Options} {line : Nat} {s : Span} :
    s.isFault = true ↔ ∃ e, s.item? o line = some (.error e) := by
  cases s with
  | quoted body =>
    refine iff_of_false Bool.false_ne_true ?_
    rintro ⟨e, h⟩
    rw [item?] at h
    split at h <;> cases h
  | digits ds =>
    rw [isFault, decide_eq_true_eq, item?]
    by_cases hv : Decimal.ofDigits ds < Number.integerBound
    · have hn : Number.ofDigits? ds = some _ := if_pos hv
      rw [hn]
      exact iff_of_false (Nat.not_le_of_lt hv) (by rintro ⟨_, ⟨⟩⟩)
    · have hn : Number.ofDigits? ds = none := if_neg hv
      rw [hn]
      exact iff_of_true (Nat.le_of_not_lt hv) ⟨_, rfl⟩
  | unclosed body => exact iff_of_true rfl ⟨_, rfl⟩
  | stray c => exact iff_of_true rfl ⟨_, rfl⟩
  | _ => exact iff_of_false Bool.false_ne_true (by rintro ⟨_, ⟨⟩⟩)

/-- The text of a span, made blank if it is an error. -/
def blanked (s : Span) : Text := if s.isFault then s.text.map blankOut else s.text

theorem blanked_of_item?_eq_none (h : s.item? o line = none) : s.blanked = s.text := by
  refine if_neg fun hfault ↦ ?_
  obtain ⟨e, he⟩ := isFault_iff.1 hfault
  exact nomatch h.symm.trans he

theorem blanked_of_item?_eq_some {i : Item} (h : s.item? o line = some i) :
    s.blanked = i.blank s.text := by
  cases i with
  | error e => exact if_pos (isFault_iff.2 ⟨e, h⟩)
  | token t =>
    refine if_neg fun hfault ↦ ?_
    obtain ⟨e, he⟩ := isFault_iff.1 hfault
    exact nomatch h.symm.trans he

end Span

/-- A longer gap in front. -/
theorem Blanked.prepend {o : Options} {line : Nat} {p source out : Text} {is : List Item}
    (h : Blanked o (line + p.newlines) source is out)
    (hp : ∀ g after, g ++ after = source → Gap o g after → Gap o (p ++ g) after) :
    Blanked o line (p ++ source) is (p ++ out) := by
  cases h with
  | last hg =>
    rw [Nat.add_assoc, ← Text.newlines_append]
    exact Blanked.last (hp _ _ (List.append_nil _) hg)
  | @item _ g w after out i is hg hw hline hlast h =>
    have hg' := hp g (w ++ after) (List.append_assoc g w after).symm hg
    rw [Nat.add_assoc line, ← Text.newlines_append] at hline h
    rw [← List.append_assoc] at h
    simp only [← List.append_assoc]
    exact Blanked.item hg' hw hline hlast h

/-- **The errors among spans can be made blank.** -/
theorem blanked_itemsFrom (o : Options) {ss : List Span} (h : Fitting ss) (line : Nat) :
    Blanked o line (ss.flatMap Span.text) (Span.itemsFrom o line ss ++
        [.token (Token.endOfFile (line + Text.newlines (ss.flatMap Span.text)))])
      (ss.flatMap Span.blanked) := by
  induction h generalizing line with
  | nil => exact Blanked.last Gap.nil
  | @cons s ss hs hss ih =>
    have hrest := ih (line + s.text.newlines)
    rw [Nat.add_assoc, ← Text.newlines_append] at hrest
    rw [List.flatMap_cons, List.flatMap_cons, Span.itemsFrom]
    cases hi : s.item? o line with
    | none =>
      rw [Span.blanked_of_item?_eq_none hi]
      exact hrest.prepend fun g after hsplit hg ↦ hs.gap hi hsplit hg
    | some i =>
      obtain ⟨hcovers, hlast⟩ := hs.covers hi
      rw [Span.blanked_of_item?_eq_some hi]
      exact Blanked.item (g := []) Gap.nil hcovers (hs.line_eq hi) hlast hrest

/-! ## The blanked source is unique

What remains is that a piece of source is the text of an item only where the scan finds the item.  A
gap is read as spans without items, and no item is found where such a span starts. -/

theorem Span.itemsFrom_eq_nil {o : Options} {ss : List Span}
    (h : ∀ s ∈ ss, ∀ line, s.item? o line = none) (line : Nat) : itemsFrom o line ss = [] := by
  induction ss generalizing line with
  | nil => rfl
  | cons s ss ih =>
    rw [List.forall_mem_cons] at h
    rw [itemsFrom, h.1, ih h.2]
    rfl

namespace Gap

variable {o : Options} {g after : Text}

theorem exists_spans (h : Gap o g after) : ∃ gs, spans (g ++ after) = gs ++ spans after ∧
    ∀ s ∈ gs, ∀ line, Span.item? o line s = none := by
  induction h with
  | nil => exact ⟨[], rfl, by rintro _ ⟨⟩⟩
  | @separator c g after hc hg ih =>
    obtain ⟨gs, hspans, hgs⟩ := ih
    refine ⟨.separator c :: gs, ?_, List.forall_mem_cons.2 ⟨fun _ ↦ rfl, hgs⟩⟩
    have hs : Span.Fits (.separator c) (g ++ after) := .separator (isSeparator_iff.2 hc)
    exact (spans_of_fits hs).trans (congrArg (_ :: ·) hspans)
  | @comment body g after hbody hend hg ih =>
    obtain ⟨gs, hspans, hgs⟩ := ih
    refine ⟨.comment body :: gs, ?_, List.forall_mem_cons.2 ⟨fun _ ↦ rfl, hgs⟩⟩
    have hs : Span.Fits (.comment body) (g ++ after) :=
      .comment hbody fun x hx ↦ by simp [hend x hx]
    rw [List.append_assoc]
    exact (spans_of_fits hs).trans (congrArg (_ :: ·) hspans)
  | @emptyString g after ho hg ih =>
    obtain ⟨gs, hspans, hgs⟩ := ih
    refine ⟨.quoted [] :: gs, ?_, List.forall_mem_cons.2 ⟨fun _ ↦ if_pos ⟨rfl, ho⟩, hgs⟩⟩
    have hs : Span.Fits (.quoted []) (g ++ after) := .quoted List.not_mem_nil
    exact (spans_of_fits hs).trans (congrArg (_ :: ·) hspans)

theorem flatMap_text_eq {gs : List Span} (h : spans (g ++ after) = gs ++ spans after) :
    gs.flatMap Span.text = g := by
  have htext := congrArg (List.flatMap Span.text) h
  rw [List.flatMap_append, flatMap_text_spans, flatMap_text_spans] at htext
  exact (List.append_cancel_right htext).symm

/-- A gap leaves no trace but its lines. -/
theorem itemsFrom_eq (h : Gap o g after) (line : Nat) : Span.itemsFrom o line (spans (g ++ after)) =
    Span.itemsFrom o (line + g.newlines) (spans after) := by
  obtain ⟨gs, hspans, hgs⟩ := h.exists_spans
  rw [hspans, Span.itemsFrom_append, Span.itemsFrom_eq_nil hgs, flatMap_text_eq hspans,
    List.nil_append]

/-- Nothing in a gap is made blank. -/
theorem flatMap_blanked (h : Gap o g after) :
    (spans (g ++ after)).flatMap Span.blanked = g ++ (spans after).flatMap Span.blanked := by
  obtain ⟨gs, hspans, hgs⟩ := h.exists_spans
  have hblanked : gs.flatMap Span.blanked = gs.flatMap Span.text :=
    List.flatMap_congr fun s hs ↦ Span.blanked_of_item?_eq_none (hgs s hs 1)
  rw [hspans, List.flatMap_append, hblanked, flatMap_text_eq hspans]

end Gap

namespace Item.Covers

variable {i : Item} {w w' : Text}

theorem head?_eq (h : i.Covers w) (h' : i.Covers w') : w.head? = w'.head? := by
  match i with
  | .token t => exact congrArg List.head? (h.trans h'.symm)
  | .error ⟨.unexpectedCharacter c, _⟩ => exact congrArg List.head? (h.trans h'.symm)
  | .error ⟨.invalidNumber ds, _⟩ => exact congrArg List.head? (h.1.trans h'.1.symm)
  | .error ⟨.unterminatedString, _⟩ =>
    obtain ⟨body, rfl, -⟩ := h
    obtain ⟨body', rfl, -⟩ := h'
    rfl

/-- At one place of a source an item stands for one text only. -/
theorem eq {after after' : Text} (h : i.Covers w) (h' : i.Covers w')
    (hlast : ∀ l, i = .error ⟨.unterminatedString, l⟩ → after = [])
    (hlast' : ∀ l, i = .error ⟨.unterminatedString, l⟩ → after' = [])
    (hsplit : w ++ after = w' ++ after') : w = w' := by
  match i with
  | .token t => exact h.trans h'.symm
  | .error ⟨.unexpectedCharacter c, _⟩ => exact h.trans h'.symm
  | .error ⟨.invalidNumber ds, _⟩ => exact h.1.trans h'.1.symm
  | .error ⟨.unterminatedString, l⟩ =>
    rwa [hlast l rfl, hlast' l rfl, List.append_nil, List.append_nil] at hsplit

end Item.Covers

namespace Span

variable {o : Options} {line : Nat} {s : Span} {w after after' : Text} {i : Item}

/-- The items behind a comment are on the lines behind it. -/
theorem line_lt_of_mem_itemsFrom (hafter : after.Stops (· != '\n'))
    (hi : i ∈ itemsFrom o line (spans after)) : line < i.line := by
  cases after with
  | nil =>
    rw [spans] at hi
    cases hi
  | cons c t =>
    obtain rfl : c = '\n' := by simpa using Text.stops_cons.1 hafter
    have hfeed : itemsFrom o line (spans ('\n' :: t)) = itemsFrom o (line + 1) (spans t) :=
      itemsFrom_spans_of_fits (s := separator '\n') (.separator rfl) o line
    rw [hfeed] at hi
    exact ((pairwise_line_itemsFrom o (fitting_spans t) (line + 1)).2 i hi).1

/-- A span that starts with a quote is a string, closed or not. -/
theorem Fits.of_quote (h : s.Fits after) {t : Text} (ht : s.text = '"' :: t) :
    ∃ body, '"' ∉ body ∧ (s = .quoted body ∨ s = .unclosed body) := by
  have hfirst : first '"' (t ++ after) = s := first_of_fits h (by rw [ht, List.cons_append])
  rw [first_quote, readQuoted] at hfirst
  have hbody : '"' ∉ (t ++ after).takeWhile (· != '"') := fun hx ↦ by
    simpa using List.mem_takeWhile_imp hx
  split at hfirst
  · exact ⟨_, hbody, .inl hfirst.symm⟩
  · exact ⟨_, hbody, .inr hfirst.symm⟩

/-- Where empty strings are suppressed, the quote that opens a string is followed by another
character. -/
theorem Fits.head?_ne_quote {behind : Text} (hs : s.Fits behind) (hitem : s.item? o line = some i)
    (ho : o.emptyStrings = .suppress) {t : Text} (ht : s.text = '"' :: t) (hw : i.Covers ('"' :: w))
    (hlast : ∀ l, i = .error ⟨.unterminatedString, l⟩ → after = []) :
    (w ++ after).head? ≠ some '"' := by
  intro hhead
  obtain ⟨body, hbody, rfl | rfl⟩ := hs.of_quote ht
  · have hne : body ≠ [] := by
      rintro rfl
      exact nomatch (if_pos ⟨rfl, ho⟩).symm.trans hitem
    obtain ⟨d, body, rfl⟩ := List.exists_cons_of_ne_nil hne
    cases hitem
    cases hw
    obtain rfl : d = '"' := Option.some.inj hhead
    exact hbody List.mem_cons_self
  · cases hitem
    obtain ⟨body', hw, hbody'⟩ := hw
    obtain ⟨-, rfl⟩ := List.cons.inj hw
    rw [hlast _ rfl, List.append_nil] at hhead
    exact hbody' (List.mem_of_head? hhead)

/-- Where a span without an item starts, there is no item of a span further on. -/
theorem Silent.not_covers (hs : s.Silent o after') (hsplit : w ++ after = s.text ++ after')
    (hw : i.Covers w) (hline : i.line = line + if i.isLast then (w ++ after).newlines else 0)
    (hlast : ∀ l, i = .error ⟨.unterminatedString, l⟩ → after = []) :
    i ∉ itemsFrom o (line + s.text.newlines) (spans after') := by
  intro hi
  -- the span that has the item starts with the same character
  obtain ⟨u, behind, l, hu, hitem⟩ := exists_fits_of_mem_itemsFrom (fitting_spans after') hi
  obtain ⟨c, t, hut⟩ := List.exists_cons_of_ne_nil hu.text_ne_nil
  have hhead := hw.head?_eq (hu.covers hitem).1
  rw [hut, List.head?_cons, List.head?_eq_some_iff] at hhead
  obtain ⟨w, rfl⟩ := hhead
  cases hs with
  | separator hc =>
    obtain ⟨rfl, -⟩ := List.cons.inj hsplit
    have hfirst : first c (t ++ behind) = u := first_of_fits hu (by rw [hut, List.cons_append])
    rw [first_of_isSeparator hc] at hfirst
    rw [← hfirst] at hitem
    cases hitem
  | comment hbody hafter =>
    -- the item stands on the line of the comment, but those to come are further down
    obtain ⟨rfl, -⟩ := List.cons.inj hsplit
    have hopen : i.isLast = false := by
      cases hu.yields hitem with
      | token hkind hline hsource => exact decide_eq_false hkind
      | stray => rfl
      | digits hds => rfl
      | unclosed hbody => cases hut
    have hbehind := line_lt_of_mem_itemsFrom hafter hi
    rw [hopen, if_neg Bool.false_ne_true] at hline
    omega
  | emptyString ho =>
    obtain ⟨rfl, hquote⟩ := List.cons.inj hsplit
    exact hu.head?_ne_quote hitem ho hut hw hlast (congrArg List.head? hquote)

/-- The text of the next item is the next span. -/
theorem exists_fits_of_covers {is : List Item} (hw : i.Covers w)
    (hline : i.line = line + if i.isLast then (w ++ after).newlines else 0)
    (hlast : ∀ l, i = .error ⟨.unterminatedString, l⟩ → after = [])
    (hitems : itemsFrom o line (spans (w ++ after)) = i :: is) :
    ∃ s : Span, s.Fits after ∧ s.text = w ∧ s.item? o line = some i := by
  cases hfront : w ++ after with
  | nil =>
    rw [hfront, spans] at hitems
    cases hitems
  | cons c rest =>
    obtain ⟨after', hsplit, hs⟩ := first_spec c rest
    rw [← hfront] at hsplit
    rw [hsplit, itemsFrom_spans_of_fits hs] at hitems
    cases hitem : (first c rest).item? o line with
    | none =>
      -- the item would be the first of those behind the span
      rw [hitem, Option.toList_none, List.nil_append] at hitems
      have hmem : i ∈ itemsFrom o (line + (first c rest).text.newlines) (spans after') :=
        hitems ▸ List.mem_cons_self
      exact absurd hmem ((hs.silent hitem).not_covers hsplit hw hline hlast)
    | some j =>
      rw [hitem] at hitems
      obtain rfl : j = i := (List.cons.inj hitems).1
      obtain ⟨hcovers, hlast'⟩ := hs.covers hitem
      have htext : w = (first c rest).text := hw.eq hcovers hlast hlast' hsplit
      rw [← htext] at hsplit
      rw [List.append_cancel_left hsplit]
      exact ⟨_, hs, htext.symm, hitem⟩

end Span

theorem Blanked.ne_nil {o : Options} {line : Nat} {source out : Text} {is : List Item}
    (h : Blanked o line source is out) : is ≠ [] := by
  cases h with
  | last => exact List.cons_ne_nil _ _
  | item => exact List.cons_ne_nil _ _

/-- **Nothing but the spans that are errors can be made blank.** -/
theorem Blanked.eq {o : Options} {line : Nat} {source out : Text} {is : List Item}
    (h : Blanked o line source is out) (his : is = Span.itemsFrom o line (spans source) ++
      [.token (Token.endOfFile (line + source.newlines))]) :
    out = (spans source).flatMap Span.blanked := by
  induction h with
  | last hg =>
    have hblanked := hg.flatMap_blanked
    rw [List.append_nil] at hblanked
    rw [hblanked, spans]
    exact (List.append_nil _).symm
  | @item line g w after out i is hg hw hline hlast h ih =>
    rw [List.append_assoc, hg.itemsFrom_eq] at his
    obtain ⟨-, hend⟩ | ⟨js, hitems, hjs⟩ := List.cons_eq_append_iff.1 his
    · exact absurd (List.cons.inj hend).2.symm h.ne_nil
    obtain ⟨s, hs, rfl, hitem⟩ := Span.exists_fits_of_covers hw hline hlast hitems
    rw [Span.itemsFrom_spans_of_fits hs, hitem] at hitems
    have hrest : js = Span.itemsFrom o (line + (g ++ s.text).newlines) (spans after) := by
      rw [Text.newlines_append, ← Nat.add_assoc]
      exact (List.cons.inj hitems).2.symm
    have hlines : line + (g ++ (s.text ++ after)).newlines =
        line + (g ++ s.text).newlines + after.newlines := by
      simp only [Text.newlines_append, Nat.add_assoc]
    rw [hrest, hlines] at hjs
    rw [List.append_assoc, List.append_assoc, hg.flatMap_blanked, spans_of_fits hs,
      List.flatMap_cons, Span.blanked_of_item?_eq_some hitem, ← ih hjs]

/-- **What is left of a source.**  There is one way to make blank everything that its scan
reports. -/
theorem blanked_items_iff {o : Options} {source out : Text} :
    Blanked o 1 source (Scanner.ofText o source).items out ↔
      out = (spans source).flatMap Span.blanked := by
  rw [Scanner.items_ofText]
  constructor
  · exact fun h ↦ h.eq rfl
  · rintro rfl
    have h := blanked_itemsFrom o (fitting_spans source) 1
    rwa [flatMap_text_spans] at h

end LoxTokens
