import LoxTokens.Proofs.Tiling

/-!
# Line numbers

The scanner counts lines twice: one counter runs along with the characters, the other keeps the line
on which a span starts, and some items name the one and some the other.  Both can be read off the
source, and so can the line of every item.

* `Item.isLast i` — the item is one that names the last line of the source, wherever it starts: the
  end of the file, or a string without an end.
* `Reading.line_eq` — the line of the item that a call of `next` gives.
* `pairwise_line_itemsFrom` — the lines of the items of spans never decrease.
* `line_items` — where the scanner stands around each item of a source, and which line the item
  names.
-/

set_option autoImplicit false

namespace LoxTokens

/-- Whether the item names the last line of the source instead of the one on which it starts. -/
def Item.isLast : Item → Bool
  | .token t => t.isEndOfFile
  | .error e => e.fault = .unterminatedString

/-! ## One item -/

section

variable {o : Options} {line : Nat} {s : Span} {w after : Text} {i : Item}

/-- The line of the item of a span is that of its first character, except for an open string, which
goes to the end of the source. -/
theorem Span.Fits.line_eq (h : s.Fits after) (hi : s.item? o line = some i) :
    i.line = line + if i.isLast then (s.text ++ after).newlines else 0 := by
  cases h.yields hi with
  | @token _ _ t hkind hline hsource =>
    have hlast : Item.isLast (.token t) = false := decide_eq_false hkind
    rw [hlast]
    exact hline
  | stray => rfl
  | digits hds => rfl
  | unclosed hbody =>
    rw [List.append_nil]
    rfl

theorem Reading.line_eq (h : Reading o line w after i) :
    i.line = line + if i.isLast then (w ++ after).newlines else 0 := by
  cases h with
  | span hfits hitem => exact hfits.line_eq hitem
  | endOfFile => rfl

theorem Reading.covers (h : Reading o line w after i) : i.Covers w := by
  cases h with
  | span hfits hitem => exact (hfits.covers hitem).1
  | endOfFile => rfl

/-- The line of an item is one of those that its span is on. -/
theorem Span.Yields.line_bounds (h : s.Yields line after i) :
    line ≤ i.line ∧ i.line ≤ line + s.text.newlines := by
  cases h with
  | token hkind hline hsource => exact ⟨hline.ge, hline.trans_le (Nat.le_add_right _ _)⟩
  | stray => exact ⟨Nat.le_refl _, Nat.le_add_right _ _⟩
  | digits hds => exact ⟨Nat.le_refl _, Nat.le_add_right _ _⟩
  | unclosed hbody => exact ⟨Nat.le_add_right _ _, Nat.le_refl _⟩

end

/-! ## The order of lines -/

/-- The lines of spans that follow each other are in order, between the line on which the first span
starts and the line on which the last one ends. -/
theorem pairwise_line_itemsFrom (o : Options) {ss : List Span} (h : Fitting ss) (line : Nat) :
    (Span.itemsFrom o line ss).Pairwise (fun i j ↦ i.line ≤ j.line) ∧
    ∀ i ∈ Span.itemsFrom o line ss,
      line ≤ i.line ∧ i.line ≤ line + Text.newlines (ss.flatMap Span.text) := by
  induction h generalizing line with
  | nil => exact ⟨List.Pairwise.nil, by rintro _ ⟨⟩⟩
  | @cons s ss hs hss ih =>
    obtain ⟨hpairwise, hbounds⟩ := ih (line + s.text.newlines)
    rw [Span.itemsFrom, List.flatMap_cons, Text.newlines_append, ← Nat.add_assoc]
    have hrest : ∀ i ∈ Span.itemsFrom o (line + s.text.newlines) ss, line ≤ i.line ∧
        i.line ≤ line + s.text.newlines + Text.newlines (ss.flatMap Span.text) := fun i hi ↦
      ⟨Nat.le_trans (Nat.le_add_right _ _) (hbounds i hi).1, (hbounds i hi).2⟩
    cases hi : s.item? o line with
    | none => exact ⟨hpairwise, hrest⟩
    | some i =>
      obtain ⟨hlower, hupper⟩ := (hs.yields hi).line_bounds
      refine ⟨List.Pairwise.cons ?_ hpairwise, List.forall_mem_cons.2 ⟨⟨hlower, ?_⟩, hrest⟩⟩
      · exact fun j hj ↦ Nat.le_trans hupper (hbounds j hj).1
      · exact Nat.le_trans hupper (Nat.le_add_right _ _)

/-- The lines of all items are in order. -/
theorem pairwise_line_items (o : Options) (source : Text) :
    (Scanner.ofText o source).items.Pairwise fun i j ↦ i.line ≤ j.line := by
  obtain ⟨hpairwise, hbounds⟩ := pairwise_line_itemsFrom o (fitting_spans source) 1
  rw [flatMap_text_spans] at hbounds
  rw [Scanner.items_ofText, List.pairwise_append]
  refine ⟨hpairwise, List.pairwise_singleton _ _, fun i hi j hj ↦ ?_⟩
  rw [List.mem_singleton.1 hj]
  exact (hbounds i hi).2

/-! ## The lines of a source -/

/-- **Line numbers are exact.**  The scanner that has just given an item stands behind the text of
that item, whose first character it remembers, and both of its counters are right.  The item names
the line of that character, or the last line of the source if it is the end of the file or a string
without an end.  So lines never decrease. -/
theorem line_items (o : Options) (source : Text) :
    (∀ n i, (Scanner.ofText o source).items[n]? = some i → ∃ before w after,
      source = before ++ w ++ after ∧
      i.Covers w ∧
      ((Scanner.ofText o source).skip (n + 1)).cursor =
        { start := before.byteLength
          current := (before ++ w).byteLength
          startLine := 1 + before.newlines
          line := 1 + (before ++ w).newlines
          rest := after } ∧
      i.line = 1 + if i.isLast then source.newlines else before.newlines) ∧
    (Scanner.ofText o source).items.Pairwise fun i j ↦ i.line ≤ j.line := by
  refine ⟨fun n i hi ↦ ?_, pairwise_line_items o source⟩
  obtain ⟨read, hstands, ho⟩ := Scanner.exists_standsIn_skip o source n
  obtain ⟨gap, w, hnext, -, hstart, hstartLine, hreading⟩ := hstands.next
  rw [Scanner.getElem?_items] at hi
  have hread := hreading i hi
  have hsource := hnext.source_eq
  have hcurrent := hnext.current_eq
  have hline := hnext.line_eq
  rw [Scanner.skip_succ]
  generalize ((Scanner.ofText o source).skip n).next.2.cursor = c at *
  refine ⟨read ++ gap, w, c.rest, hsource, hread.covers, ?_, ?_⟩
  · rw [← hstart, ← hcurrent, ← hstartLine, ← hline]
  · rw [hread.line_eq, Nat.add_assoc]
    split
    · rw [← Text.newlines_append, ← List.append_assoc, ← hsource]
    · rfl

end LoxTokens
