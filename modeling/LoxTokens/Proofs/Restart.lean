import LoxTokens.Proofs.Run

/-!
# Restarting a scan

A scanner remembers nothing but where it stands.  Whatever it has read so far, it goes on as a fresh
scanner would on the rest of the source, except that its lines go on as well.

* `Item.shift d i` — the item `d` lines further down.
* `itemsFrom_add` — spans that start further down give the same items further down.
* `items_skip_eq` — the items after any number of calls, as those of a fresh scanner.
-/

set_option autoImplicit false

namespace LoxTokens

/-- The same item, further down by the given number of lines. -/
def Item.shift (d : Nat) : Item → Item
  | .token t => .token { t with line := t.line + d }
  | .error e => .error { e with line := e.line + d }

namespace Span

/-- The line on which a span starts only moves its item. -/
theorem item?_add (o : Options) (s : Span) (line d : Nat) :
    s.item? o (line + d) = (s.item? o line).map (Item.shift d) := by
  -- an error is on the line where its span ends, which moves along
  have herror : ∀ (f : Fault) (n : Nat), some (Item.error ⟨f, line + d + n⟩) =
      (some (Item.error ⟨f, line + n⟩)).map (Item.shift d) := fun f n ↦ by
    rw [Nat.add_right_comm]
    rfl
  cases s with
  | separator c => rfl
  | comment body => rfl
  | punct p => rfl
  | quoted body =>
    rw [item?, item?]
    split <;> rfl
  | unclosed body => exact herror _ _
  | digits ds =>
    rw [item?, item?]
    cases Number.ofDigits? ds with
    | none => exact herror _ _
    | some n => rfl
  | fraction whole part => rfl
  | word w => rfl
  | stray c => exact herror _ _

theorem itemsFrom_add (o : Options) (ss : List Span) (line d : Nat) :
    itemsFrom o (line + d) ss = (itemsFrom o line ss).map (Item.shift d) := by
  induction ss generalizing line with
  | nil => rfl
  | cons s ss ih =>
    rw [itemsFrom, itemsFrom, item?_add, Nat.add_right_comm, ih, List.map_append]
    cases s.item? o line <;> rfl

end Span

namespace Scanner

/-- The end of the file is not among the items of the first calls. -/
theorem finished_skip {s : Scanner} (hf : s.finished = false) {n : Nat}
    (h : ∀ j < n, ∀ t, (s.skip j).next.1 = some (.token t) → t.kind ≠ .endOfFile) :
    (s.skip n).finished = false := by
  induction n with
  | zero => exact hf
  | succ n ih =>
    rw [skip_succ]
    exact finished_next (ih fun j hj ↦ h j (Nat.lt_succ_of_lt hj)) (h n (Nat.lt_succ_self n))

/-- What is to come from anywhere in a source is what a fresh scanner finds there. -/
theorem items_eq_map_shift {s : Scanner} (hf : s.finished = false) {n : Nat}
    (hline : s.cursor.line = 1 + n) :
    s.items = (ofText s.options s.cursor.rest).items.map (Item.shift n) := by
  rw [items_eq hf, items_ofText, hline, Span.itemsFrom_add, List.map_append, Nat.add_right_comm]
  rfl

end Scanner

/-- **A scanner has no hidden state.**  As long as the end of the file has not been given, what it
has left to read is the source from its offset on, and the items to come are those of a fresh
scanner in front of that text, further down by the lines before the offset. -/
theorem items_skip_eq (o : Options) (source : Text) (n : Nat)
    (h : ∀ j < n, ∀ t, ((Scanner.ofText o source).skip j).next.1 = some (.token t) →
      t.kind ≠ .endOfFile) :
    let s := (Scanner.ofText o source).skip n
    ∃ before, source = before ++ s.cursor.rest ∧ before.byteLength = s.cursor.current ∧
      s.items = (Scanner.ofText o source).items.drop n ∧
      s.items = (Scanner.ofText o s.cursor.rest).items.map (Item.shift (s.cursor.line - 1)) := by
  intro s
  obtain ⟨before, hstands, ho⟩ := Scanner.exists_standsIn_skip o source n
  have hf : s.finished = false := Scanner.finished_skip rfl h
  refine ⟨before, hstands.source_eq, hstands.current_eq.symm, Scanner.items_skip _ n, ?_⟩
  rw [hstands.line_eq, Nat.add_sub_cancel_left, ← ho]
  exact Scanner.items_eq_map_shift hf hstands.line_eq

/-- Behind a string over two lines and an unknown character. -/
theorem items_skip_eq_two_lines :
    let s := Scanner.ofText Options.default ['"', '\n', '"', '@', 'x']
    (∀ j < 2, ∀ t, (s.skip j).next.1 = some (.token t) → t.kind ≠ .endOfFile) ∧
    (s.skip 2).cursor.current = 4 ∧
    s.items.drop 2 = (Scanner.ofText Options.default ['x']).items.map (Item.shift 1) := by
  intro s
  have hstring : (s.skip 0).next.1 = some (.token ⟨.string ['\n'], ['\n'], 1⟩) := by decide +kernel
  have herror : (s.skip 1).next.1 = some (.error ⟨.unexpectedCharacter '@', 2⟩) := by decide +kernel
  have hcursor : (s.skip 2).cursor = ⟨['x'], 3, 4, 2, 2⟩ := by decide +kernel
  have h : ∀ j < 2, ∀ t, (s.skip j).next.1 = some (.token t) → t.kind ≠ .endOfFile := by
    rintro (_ | _ | j) hj t ht
    · rw [hstring] at ht
      cases ht
      decide
    · rw [herror] at ht
      cases ht
    · omega
  obtain ⟨before, -, -, hdrop, hitems⟩ := items_skip_eq Options.default _ 2 h
  rw [hdrop, hcursor] at hitems
  exact ⟨h, congrArg Cursor.current hcursor, hitems⟩

end LoxTokens
