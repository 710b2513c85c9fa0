import LoxTokens.Proofs.Tiling

/-!
# The life of a scanner

A scanner gives its items one after the other, then the end of the file, and nothing from then on.
Whoever stops asking may take all the rest at once, at any time.

A call of `next` is a loop, so that it has to be said first that calls come to an end.

* `Scanner.nextWithin n s` — the loop, cut off after `n` of its rounds.  By `nextWithin_eq` it is
  not cut off if there are more rounds than characters.
* `Scanner.calls n s` — what the first `n` calls give.
* `length_itemsFrom_le` — spans have no more items than characters.
* `calls_and_tokenize` — one list of items that says what all calls give, and what is left after
  any number of them.
-/

set_option autoImplicit false

namespace LoxTokens
namespace Scanner

/-! ## The rounds of a call -/

/-- What a call of `next` comes to, if it takes no more than the given number of rounds. -/
def nextWithin : Nat → Scanner → Option (Option Item × Scanner)
  | 0, _ => none
  | n + 1, s =>
    match s.round with
    | (some given, s') => some (given, s')
    | (none, s') => nextWithin n s'

/-- A round that does not end the call has read at least one character. -/
theorem length_rest_round {s s' : Scanner} (h : s.round = (none, s')) :
    s'.cursor.rest.length < s.cursor.rest.length := by
  rw [round] at h
  split at h
  · split at h <;> simp at h
  · next c rest hrest =>
    obtain ⟨after, hsplit, hfits⟩ := Span.first_spec c rest
    have hafter : s'.cursor.rest = after := by
      rw [← (Prod.mk.inj h).2]
      exact rest_past (hrest.trans hsplit)
    have hpos : 0 < (Span.first c rest).text.length := List.length_pos_iff.2 hfits.text_ne_nil
    rw [hafter, hrest, hsplit, List.length_append]
    omega

/-- **Calls come to an end.**  No call takes more rounds than there are characters left, and one
more. -/
theorem nextWithin_eq {s : Scanner} {n : Nat} (h : s.cursor.rest.length < n) :
    s.nextWithin n = some s.next := by
  induction n generalizing s with
  | zero => omega
  | succ n ih =>
    rw [nextWithin, next_eq_round]
    rcases hr : s.round with ⟨_ | given, s'⟩
    · have hlt := length_rest_round hr
      exact ih (by omega)
    · simp

/-! ## What calls give -/

/-- What the first `n` calls of `next` give. -/
def calls : Nat → Scanner → List (Option Item)
  | 0, _ => []
  | n + 1, s => s.next.1 :: calls n s.next.2

/-- Calls give the items that are to come, and then nothing. -/
theorem calls_eq (s : Scanner) (n : Nat) :
    s.calls n = (s.items.take n).map some ++ List.replicate (n - s.items.length) none := by
  induction n generalizing s with
  | zero => simp [calls]
  | succ n ih =>
    rcases hn : s.next with ⟨_ | i, s'⟩
    · obtain ⟨hrest, hf⟩ := finished_of_next_none hn
      rw [calls, hn, ih, items_of_finished hrest hf, items_of_next_none hn]
      simp [List.replicate_succ]
    · rw [calls, hn, ih, items_of_next_some hn]
      simp

/-- After `n` calls, the tokens and errors that are left are those among the items from number `n`
on. -/
theorem tokenize_skip (s : Scanner) (n : Nat) :
    (s.skip n).tokenize = Scan.ofItems (s.items.drop n) := by
  rw [tokenize, items_skip]

end Scanner

/-! ## A whole life -/

/-- Spans have no more items than characters. -/
theorem length_itemsFrom_le (o : Options) {ss : List Span} (h : Fitting ss) (line : Nat) :
    (Span.itemsFrom o line ss).length ≤ (ss.flatMap Span.text).length := by
  induction h generalizing line with
  | nil => simp [Span.itemsFrom]
  | @cons s ss hs hss ih =>
    have hrest := ih (line + s.text.newlines)
    have hpos : 0 < s.text.length := List.length_pos_iff.2 hs.text_ne_nil
    have hitem : (s.item? o line).toList.length ≤ 1 := by
      cases s.item? o line <;> simp
    rw [Span.itemsFrom, List.flatMap_cons, List.length_append, List.length_append]
    omega

/-- **The life of a scanner.**  There is one list of items, no longer than the source but for the
end of the file that closes it, which says all about every run.  Each call ends, the calls give the
items of the list in turn and then nothing, and whoever asks for the rest after some calls gets the
tokens and the errors of the rest of the list: with the end of the file as the last token and only
there, or nothing at all if it has been given before. -/
theorem calls_and_tokenize (o : Options) (source : Text) : ∃ is line,
    let items : List Item := is ++ [.token (Token.endOfFile line)]
    (∀ t, .token t ∈ is → t.kind ≠ .endOfFile) ∧
    is.length ≤ source.length ∧
    ∀ n,
      let s := (Scanner.ofText o source).skip n
      s.nextWithin (source.length + 1) = some s.next ∧
      (Scanner.ofText o source).calls n =
        (items.take n).map some ++ List.replicate (n - items.length) none ∧
      s.tokenize.tokens = (items.drop n).filterMap Item.token? ∧
      s.tokenize.errors = (items.drop n).filterMap Item.error? ∧
      (n ≤ is.length → ∃ ts, s.tokenize.tokens = ts ++ [Token.endOfFile line] ∧
        ∀ t ∈ ts, t.kind ≠ .endOfFile) ∧
      (is.length < n → s.tokenize = ⟨[], []⟩) := by
  have hitems := Scanner.items_ofText o source
  have hlength := length_itemsFrom_le o (fitting_spans source) 1
  have hkinds : ∀ t, .token t ∈ Span.itemsFrom o 1 (spans source) → t.kind ≠ .endOfFile :=
    fun t ht ↦ kind_ne_endOfFile_of_mem (fitting_spans source) ht
  rw [flatMap_text_spans] at hlength
  generalize Span.itemsFrom o 1 (spans source) = is at hitems hlength hkinds
  refine ⟨is, 1 + source.newlines, hkinds, hlength, fun n ↦ ?_⟩
  obtain ⟨before, hstands, -⟩ := Scanner.exists_standsIn_skip o source n
  have hrest : ((Scanner.ofText o source).skip n).cursor.rest.length ≤ source.length := by
    have hsource := congrArg List.length hstands.source_eq
    rw [List.length_append] at hsource
    omega
  have hleft := Scanner.tokenize_skip (Scanner.ofText o source) n
  have hcalls := Scanner.calls_eq (Scanner.ofText o source) n
  rw [hitems] at hleft hcalls
  refine ⟨Scanner.nextWithin_eq (by omega), hcalls, congrArg Scan.tokens hleft,
    congrArg Scan.errors hleft, fun hn ↦ ?_, fun hn ↦ ?_⟩
  · refine ⟨(is.drop n).filterMap Item.token?, ?_, fun t ht ↦ ?_⟩
    · rw [hleft, List.drop_append_of_le_length hn, Scan.ofItems_append]
      rfl
    · exact hkinds t (List.mem_of_mem_drop (Scan.mem_tokens_ofItems.1 ht))
  · have hall : (is ++ [Item.token (Token.endOfFile (1 + source.newlines))]).drop n = [] :=
      List.drop_eq_nil_of_le (by simp; omega)
    rw [hleft, hall, Scan.ofItems_nil]

end LoxTokens
