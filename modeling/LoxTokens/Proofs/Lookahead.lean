import LoxTokens.Proofs.Run

/-!
# How far a scan looks ahead

A scanner decides after a span what to make of it, and then never looks at it again.  What it reads
beyond the span is one character, or two if the first of them is a point behind digits.  So the
items that have been given do not change with anything that stands further on.

* `Text.LooksLike t t'` — a span cannot tell from its place whether `t` or `t'` follows it.
  `Fits.congr` says that it fits in front of both or of neither.
* `fitting_append_congr` — spans that were read in front of one text are read in front of every text
  that looks like it.
* `Scanner.exists_spans_skip` — a run of any length reads whole spans, and the items that it gives
  are the items of these spans.
* `items_take_congr` — two sources that agree up to two characters behind an item have the same
  items up to that item.
-/

set_option autoImplicit false

namespace LoxTokens

/-! ## What a span sees of the text behind it -/

namespace Text

/-- The two texts start with the same character; and if that is a point, the next one is the same as
well. -/
structure LooksLike (t t' : Text) : Prop where
  head?_eq : t.head? = t'.head?
  point : ∀ u u' : Text, t = '.' :: u → t' = '.' :: u' → u.head? = u'.head?

variable {t t' : Text}

theorem Stops.congr {p : Char → Bool} (h : t.Stops p) (hhead : t.head? = t'.head?) :
    t'.Stops p := by
  rw [Stops, ← hhead]
  exact h

/-- Two characters are all that counts. -/
theorem looksLike_of_take_eq (h : t.take 2 = t'.take 2) : t.LooksLike t' := by
  have hhead : t.head? = t'.head? := by
    simpa [List.head?_take] using congrArg List.head? h
  refine ⟨hhead, ?_⟩
  rintro u u' rfl rfl
  simpa [List.head?_take] using congrArg (fun v ↦ v.tail.head?) h

/-- What stands in front of both texts stands between the span and where they differ. -/
theorem LooksLike.append (h : t.LooksLike t') (s : Text) : (s ++ t).LooksLike (s ++ t') := by
  rcases s with _ | ⟨c, _ | ⟨d, s⟩⟩
  · exact h
  · refine ⟨rfl, fun u u' hu hu' ↦ ?_⟩
    obtain ⟨-, rfl⟩ := List.cons.inj hu
    obtain ⟨-, rfl⟩ := List.cons.inj hu'
    exact h.head?_eq
  · refine ⟨rfl, fun u u' hu hu' ↦ ?_⟩
    obtain ⟨-, rfl⟩ := List.cons.inj hu
    obtain ⟨-, rfl⟩ := List.cons.inj hu'
    rfl

/-- Two ways to cut a text at the same offset are the same. -/
theorem append_inj_of_byteLength_eq {s s' u u' : Text} (h : s ++ u = s' ++ u')
    (hlength : s.byteLength = s'.byteLength) : s = s' ∧ u = u' := by
  induction s generalizing s' with
  | nil =>
    cases s' with
    | nil => exact ⟨rfl, h⟩
    | cons c s' =>
      have hpos := c.utf8Size_pos
      rw [byteLength_nil, byteLength_cons] at hlength
      omega
  | cons c s ih =>
    cases s' with
    | nil =>
      have hpos := c.utf8Size_pos
      rw [byteLength_nil, byteLength_cons] at hlength
      omega
    | cons d s' =>
      obtain ⟨rfl, htail⟩ := List.cons.inj h
      obtain ⟨rfl, rfl⟩ := ih htail (Nat.add_left_cancel hlength)
      exact ⟨rfl, rfl⟩

end Text

/-- **A span that fits in front of a text fits in front of every text that looks like it.** -/
theorem Span.Fits.congr {s : Span} {t t' : Text} (h : s.Fits t) (ht : t.LooksLike t') :
    s.Fits t' := by
  cases h with
  | separator hc => exact .separator hc
  | comment hbody hafter => exact .comment hbody (hafter.congr ht.head?_eq)
  | punct hp =>
    refine .punct fun x hx ↦ ?_
    rw [← ht.head?_eq]
    exact hp x hx
  | quoted hbody => exact .quoted hbody
  | unclosed hbody =>
    obtain rfl := List.head?_eq_none_iff.1 ht.head?_eq.symm
    exact .unclosed hbody
  | digits hds hafter hpoint =>
    refine .digits hds (hafter.congr ht.head?_eq) ?_
    rintro u' rfl
    obtain ⟨u, rfl⟩ := List.head?_eq_some_iff.1 ht.head?_eq
    exact (hpoint u rfl).congr (ht.point u u' rfl rfl)
  | fraction hwhole hpart hafter => exact .fraction hwhole hpart (hafter.congr ht.head?_eq)
  | word hw hafter => exact .word hw (hafter.congr ht.head?_eq)
  | stray hseparator hquote hdigit hword hpunct =>
    exact .stray hseparator hquote hdigit hword hpunct

/-- **Reading on does not depend on what is further away.**  Spans that are read in front of a text
are read in front of every text that looks like it. -/
theorem fitting_append_congr {ss : List Span} {t t' : Text} (h : Fitting (ss ++ spans t))
    (ht : t.LooksLike t') : Fitting (ss ++ spans t') := by
  induction ss with
  | nil => exact fitting_spans t'
  | cons s ss ih =>
    rw [List.cons_append] at h ⊢
    cases h with
    | cons hs hss =>
      refine Fitting.cons ?_ (ih hss)
      rw [List.flatMap_append, flatMap_text_spans] at hs ⊢
      exact hs.congr (ht.append _)

/-! ## The spans of a run -/

/-- Whether the item is the end of the file. -/
def Item.isEndOfFile : Item → Bool
  | .token t => t.isEndOfFile
  | .error _ => false

theorem Span.Yields.isEndOfFile_eq {s : Span} {line : Nat} {after : Text} {i : Item}
    (h : s.Yields line after i) : i.isEndOfFile = false := by
  cases h with
  | token hkind hline hsource => exact decide_eq_false hkind
  | _ => rfl

namespace Scanner

/-- A call reads whole spans, and only the last of them has an item. -/
theorem exists_spans_next (s : Scanner) : ∃ ss,
    spans s.cursor.rest = ss ++ spans s.next.2.cursor.rest ∧
    s.next.2.options = s.options ∧
    s.next.2.cursor.line = s.cursor.line + Text.newlines (ss.flatMap Span.text) ∧
    Span.itemsFrom s.options s.cursor.line ss = s.next.1.toList.filter (!·.isEndOfFile) := by
  -- by induction on the rounds that are left: the call goes on until a round gives an item
  induction s using rounds_induction with
  | done s hrest =>
    have hn := next_of_rest_nil hrest
    refine ⟨[], ?_⟩
    rw [hn]
    split
    · exact ⟨by rw [Cursor.rest_mark, hrest, spans]; rfl, rfl, rfl, rfl⟩
    · exact ⟨by rw [Cursor.rest_mark, hrest, spans]; rfl, rfl, rfl, rfl⟩
  | round s w after hrest hw ih =>
    have hn := next_of_fits hrest hw
    cases hi : w.item? s.options s.cursor.line with
    | some i =>
      rw [hi] at hn
      refine ⟨[w], ?_⟩
      have hkept : [i].filter (!·.isEndOfFile) = [i] := by simp [(hw.yields hi).isEndOfFile_eq]
      rw [hn, rest_past hrest, line_past hrest, Span.itemsFrom, hi, Option.toList_some,
        List.flatMap_singleton]
      exact ⟨rfl, rfl, rfl, hkept.symm⟩
    | none =>
      rw [hi] at hn
      obtain ⟨ss, hss, ho, hline, hitems⟩ := ih
      refine ⟨w :: ss, ?_⟩
      rw [line_past hrest] at hline hitems
      rw [hn, ho, hline, hss, Span.itemsFrom, hi, List.flatMap_cons, Text.newlines_append,
        Nat.add_assoc]
      exact ⟨rfl, rfl, rfl, hitems⟩

/-- **A run reads whole spans, and gives the items of these spans.** -/
theorem exists_spans_skip (s : Scanner) (n : Nat) : ∃ ss,
    spans s.cursor.rest = ss ++ spans (s.skip n).cursor.rest ∧
    Span.itemsFrom s.options s.cursor.line ss = (s.items.take n).filter (!·.isEndOfFile) := by
  induction n generalizing s with
  | zero => exact ⟨[], rfl, rfl⟩
  | succ n ih =>
    obtain ⟨ss, hss, ho, hline, hitems⟩ := s.exists_spans_next
    obtain ⟨ts, hts, hitems'⟩ := ih s.next.2
    refine ⟨ss ++ ts, by rw [skip, hss, hts, List.append_assoc], ?_⟩
    rw [Span.itemsFrom_append, hitems, ← hline, ← ho, hitems', ← List.filter_append]
    rcases hn : s.next with ⟨_ | i, s'⟩
    · obtain ⟨hrest, hf⟩ := finished_of_next_none hn
      rw [items_of_next_none hn, items_of_finished hrest hf, List.take_nil, List.take_nil]
      rfl
    · rw [items_of_next_some hn]
      rfl

/-- The end of the file is among the items of every scan. -/
theorem exists_isEndOfFile (o : Options) (source : Text) :
    ∃ i ∈ (ofText o source).items, i.isEndOfFile = true := by
  rw [items_ofText]
  exact ⟨_, List.mem_append_right _ (List.mem_singleton_self _), rfl⟩

end Scanner

/-! ## Two sources with a common front -/

/-- The spans that have been read when a run stands at a position. -/
theorem exists_spans_of_current (o : Options) {source : Text} {k e : Nat}
    (hend : ((Scanner.ofText o source).skip k).cursor.current = Text.byteLength (source.take e)) :
    ∃ ss, ss.flatMap Span.text = source.take e ∧ Fitting (ss ++ spans (source.drop e)) ∧
      Span.itemsFrom o 1 ss =
        ((Scanner.ofText o source).items.take k).filter (!·.isEndOfFile) := by
  obtain ⟨ss, hss, hitems⟩ := (Scanner.ofText o source).exists_spans_skip k
  obtain ⟨before, hstands, -⟩ := Scanner.exists_standsIn_skip o source k
  generalize (Scanner.ofText o source).skip k = s at *
  have hsplit : source.take e ++ source.drop e = before ++ s.cursor.rest := by
    rw [List.take_append_drop, ← hstands.source_eq]
  obtain ⟨hbefore, hrest⟩ :=
    Text.append_inj_of_byteLength_eq hsplit (hend.symm.trans hstands.current_eq)
  have hspans : spans source = ss ++ spans (source.drop e) := by rw [hrest]; exact hss
  refine ⟨ss, ?_, hspans ▸ fitting_spans source, hitems⟩
  have htext := flatMap_text_spans source
  rw [hspans, List.flatMap_append, flatMap_text_spans] at htext
  exact List.append_cancel_right (htext.trans (List.take_append_drop e source).symm)

/-- A run that has not given the end of the file has given as many items as there were calls. -/
theorem length_items_take {o : Options} {source : Text} {k : Nat}
    (h : ∀ i ∈ (Scanner.ofText o source).items.take k, i.isEndOfFile = false) :
    ((Scanner.ofText o source).items.take k).length = k := by
  rw [List.length_take, Nat.min_eq_left]
  by_contra hlength
  obtain ⟨i, hi, hfile⟩ := Scanner.exists_isEndOfFile o source
  rw [List.take_of_length_le (Nat.le_of_not_le hlength)] at h
  rw [h i hi] at hfile
  cases hfile

/-- **Bounded lookahead.**  If two sources agree on their first `p` characters, and the first `k`
items of the one end two characters before that, the first `k` items of the other are the same. -/
theorem items_take_congr (o : Options) {source source' : Text} {p k e : Nat}
    (hagree : source.take p = source'.take p)
    (hfile : ∀ i ∈ (Scanner.ofText o source).items.take k, i.isEndOfFile = false)
    (hend : ((Scanner.ofText o source).skip k).cursor.current = Text.byteLength (source.take e))
    (hp : e + 2 ≤ p) :
    (Scanner.ofText o source').items.take k = (Scanner.ofText o source).items.take k := by
  obtain ⟨ss, htext, hfitting, hitems⟩ := exists_spans_of_current o hend
  have hfront : source.take e = source'.take e := by
    have h := congrArg (List.take e) hagree
    rwa [List.take_take, List.take_take, Nat.min_eq_left (by omega)] at h
  have hnext : (source.drop e).take 2 = (source'.drop e).take 2 := by
    have h := congrArg (fun t ↦ (t.drop e).take 2) hagree
    simpa only [List.drop_take, List.take_take, Nat.min_eq_left (show 2 ≤ p - e by omega)] using h
  -- so the spans that the run has read are also the first spans of the other source
  have hspans : spans source' = ss ++ spans (source'.drop e) := by
    have h := spans_of_fitting (fitting_append_congr hfitting (Text.looksLike_of_take_eq hnext))
    rwa [List.flatMap_append, flatMap_text_spans, htext, hfront, List.take_append_drop] at h
  have hgiven : Span.itemsFrom o 1 ss = (Scanner.ofText o source).items.take k := by
    rw [hitems, List.filter_eq_self]
    intro i hi
    rw [hfile i hi]
    rfl
  rw [Scanner.items_ofText o source', hspans, Span.itemsFrom_append, List.append_assoc, hgiven,
    List.take_left' (length_items_take hfile)]

/-- A string with a longer character, and an integer behind which a point and a letter decide. -/
theorem items_take_congr_point :
    let source := ['"', 'é', '"', '1', '.', 'a']
    let source' := ['"', 'é', '"', '1', '.', 'a', '"', '@']
    let s := Scanner.ofText Options.default source
    source.take 6 = source'.take 6 ∧ (∀ i ∈ s.items.take 2, i.isEndOfFile = false) ∧
      (s.skip 2).cursor.current = Text.byteLength (source.take 4) ∧
      (Scanner.ofText Options.default source').items.take 2 = s.items.take 2 := by
  intro source source' s
  have hagree : source.take 6 = source'.take 6 := rfl
  have hfile : ∀ i ∈ s.items.take 2, i.isEndOfFile = false := by decide +kernel
  have hend : (s.skip 2).cursor.current = Text.byteLength (source.take 4) := by decide +kernel
  exact ⟨hagree, hfile, hend, items_take_congr Options.default hagree hfile hend (by decide)⟩

/-- The character behind the point is needed. -/
example : (Scanner.ofText Options.default ['1', '.', 'a']).items.head? ≠
    (Scanner.ofText Options.default ['1', '.', '5']).items.head? := by decide +kernel

end LoxTokens
