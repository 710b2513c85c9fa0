import LoxTokens.Proofs.TokenText
import Mathlib.Data.List.Flatten

/-!
# Tokens without gaps

Token texts that are written one right after the other are sometimes read as they are, and sometimes
not: `a` and `1` become one word, and `/` and `/` a comment.  This file says exactly when.

* `TokenText.Joins ws` — the first text of the list becomes something else in front of the others.
  All but one of the ways look at the next text only; an integer also joins with a point if a digit
  comes behind the point.
* `fits_flatMap_iff` — if it does not join, the scanner reads it as it is.
* `sublist_source_itemsFrom` — the texts of the tokens of a scan are texts of its spans, in their
  order.
* `concatenation_iff` — a concatenation of token texts is scanned as those texts, if and only if
  nowhere in the list a text joins with the next ones.
-/

set_option autoImplicit false

namespace LoxTokens

namespace TokenText

/-- The first of the token texts becomes something else if the others follow it without a gap. -/
inductive Joins : List TokenText → Prop
  /-- A word goes on with a letter, a digit or an underscore. -/
  | word {w : Text} {hw : w ∈ Lexical.words} {v : TokenText} {ws : List TokenText}
      (hv : v.text.StartsWith isWordPart) : Joins (word w hw :: v :: ws)
  /-- A run of digits goes on with a digit. -/
  | integer {ds : Text} {hds : ds ∈ Lexical.digits} {hbound : Decimal.ofDigits ds < 2 ^ 63}
      {v : TokenText} {ws : List TokenText} (hv : v.text.StartsWith Char.isDigit) :
      Joins (integer ds hds hbound :: v :: ws)
  | fraction {whole part : Text} {hwhole : whole ∈ Lexical.digits} {hpart : part ∈ Lexical.digits}
      {v : TokenText} {ws : List TokenText} (hv : v.text.StartsWith Char.isDigit) :
      Joins (fraction whole part hwhole hpart :: v :: ws)
  /-- A run of digits goes on with a point and a digit. -/
  | point {ds : Text} {hds : ds ∈ Lexical.digits} {hbound : Decimal.ofDigits ds < 2 ^ 63}
      {v : TokenText} {ws : List TokenText} (hv : v.text.StartsWith Char.isDigit) :
      Joins (integer ds hds hbound :: punct .dot :: v :: ws)
  /-- A comparison, an assignment or a negation goes on with an equals sign. -/
  | equal {p : Punct} (hp : p = .bang ∨ p = .equal ∨ p = .less ∨ p = .greater) {v : TokenText}
      {ws : List TokenText} (hv : v.text.StartsWith (· = '=')) : Joins (punct p :: v :: ws)
  /-- Two slashes start a comment. -/
  | slash {ws : List TokenText} : Joins (punct .slash :: punct .slash :: ws)

/-! ## What joins -/

/-- A concatenation starts with its first text. -/
theorem flatMap_text_eq_cons {ws : List TokenText} {c : Char} {t : Text}
    (h : ws.flatMap text = c :: t) :
    ∃ v vs t', ws = v :: vs ∧ v.text = c :: t' ∧ t = t' ++ vs.flatMap text := by
  cases ws with
  | nil => cases h
  | cons v vs =>
    obtain ⟨d, t', ht'⟩ := List.exists_cons_of_ne_nil v.text_ne_nil
    rw [List.flatMap_cons, ht'] at h
    obtain ⟨rfl, rfl⟩ := List.cons.inj h
    exact ⟨v, vs, t', rfl, ht', rfl⟩

theorem stops_flatMap_iff {p : Char → Bool} {ws : List TokenText} :
    Text.Stops p (ws.flatMap text) ↔ ∀ v vs, ws = v :: vs → ¬ v.text.StartsWith p := by
  constructor
  · rintro h v vs rfl ⟨c, t, ht, hc⟩
    rw [List.flatMap_cons, ht] at h
    rw [Text.stops_cons.1 h] at hc
    cases hc
  · intro h
    cases hfront : ws.flatMap text with
    | nil => exact Text.stops_nil p
    | cons c t =>
      obtain ⟨v, vs, t', hws, ht', -⟩ := flatMap_text_eq_cons hfront
      exact Text.stops_cons.2 (Bool.eq_false_iff.2 fun hc ↦ h v vs hws ⟨c, t', ht', hc⟩)

/-- Only punctuation starts with a character of punctuation. -/
theorem exists_punct_of_text_eq_cons {v : TokenText} {c : Char} {t : Text} (h : v.text = c :: t)
    (hc : Punct.single? c ≠ none) : ∃ p, v = punct p ∧ p.text = c :: t := by
  obtain ⟨p, hp⟩ := Option.ne_none_iff_exists'.1 hc
  obtain ⟨-, -, hquote, hdigit, hword⟩ := Punct.classes_of_single? hp
  cases v with
  | punct q => exact ⟨q, rfl, h⟩
  | word w hw =>
    obtain ⟨d, w, rfl, hd, -⟩ := Lexical.mem_words.1 hw
    obtain ⟨rfl, -⟩ := List.cons.inj h
    rw [hd] at hword
    cases hword
  | integer ds hds hbound =>
    obtain ⟨d, ds, rfl, hd, -⟩ := (Lexical.mem_digits.1 hds).exists_cons
    obtain ⟨rfl, -⟩ := List.cons.inj h
    rw [hd] at hdigit
    cases hdigit
  | fraction whole part hwhole hpart =>
    obtain ⟨d, ds, rfl, hd, -⟩ := (Lexical.mem_digits.1 hwhole).exists_cons
    obtain ⟨rfl, -⟩ := List.cons.inj h
    rw [hd] at hdigit
    cases hdigit
  | string body hbody => exact absurd (List.cons.inj h).1.symm hquote

/-- Only the point starts with a point, and only the slash with a slash. -/
theorem eq_punct_of_text_eq_cons {p : Punct} (hp : p = .dot ∨ p = .slash) {c : Char}
    (hc : p.text = [c]) {v : TokenText} {t : Text} (h : v.text = c :: t) :
    v = punct p ∧ t = [] := by
  have hsingle : Punct.single? c ≠ none := by rcases hp with rfl | rfl <;> cases hc <;> decide
  obtain ⟨q, rfl, hq⟩ := exists_punct_of_text_eq_cons h hsingle
  rcases hp with rfl | rfl <;> cases hc <;> cases q <;> simp_all [Punct.text]

/-- **A token text that does not join is read as it is.** -/
theorem fits_flatMap_iff {w : TokenText} {ws : List TokenText} :
    w.toSpan.Fits (ws.flatMap text) ↔ ¬ Joins (w :: ws) := by
  rw [toSpan_fits_iff]
  constructor
  · intro h hjoins
    cases hjoins with
    | word hv => exact stops_flatMap_iff.1 h _ _ rfl hv
    | integer hv => exact stops_flatMap_iff.1 h.1 _ _ rfl hv
    | fraction hv => exact stops_flatMap_iff.1 h _ _ rfl hv
    | point hv => exact stops_flatMap_iff.1 (h.2 _ rfl) _ _ rfl hv
    | equal hp hv =>
      obtain ⟨c, t, ht, hc⟩ := hv
      obtain rfl : c = '=' := of_decide_eq_true hc
      refine h '=' (Punct.follower?_eq_some_iff.2 (.inr ⟨hp, rfl⟩)) ?_
      rw [List.flatMap_cons, ht]
      rfl
    | slash => exact h '/' rfl rfl
  · intro h
    -- in each class, what would continue the text is one of the ways to join
    cases w with
    | punct p =>
      intro x hx hhead
      obtain ⟨t, ht⟩ := List.head?_eq_some_iff.1 hhead
      obtain ⟨v, vs, t', rfl, ht', -⟩ := flatMap_text_eq_cons ht
      rcases Punct.follower?_eq_some_iff.1 hx with ⟨rfl, rfl⟩ | ⟨hp, rfl⟩
      · obtain ⟨rfl, -⟩ := eq_punct_of_text_eq_cons (.inr rfl) rfl ht'
        exact h Joins.slash
      · exact h (Joins.equal hp ⟨_, t', ht', rfl⟩)
    | word w hw => exact stops_flatMap_iff.2 fun v vs hws hv ↦ h (hws ▸ Joins.word hv)
    | integer ds hds hbound =>
      refine ⟨stops_flatMap_iff.2 fun v vs hws hv ↦ h (hws ▸ Joins.integer hv), fun t ht ↦ ?_⟩
      obtain ⟨v, vs, t', rfl, ht', rfl⟩ := flatMap_text_eq_cons ht
      obtain ⟨rfl, rfl⟩ := eq_punct_of_text_eq_cons (.inl rfl) rfl ht'
      exact stops_flatMap_iff.2 fun u us hus hu ↦ h (hus ▸ Joins.point hu)
    | fraction whole part hwhole hpart =>
      exact stops_flatMap_iff.2 fun v vs hws hv ↦ h (hws ▸ Joins.fraction hv)
    | string body hbody => trivial

/-! ## The spans of a concatenation -/

theorem flatMap_text_map_toSpan (ws : List TokenText) :
    (ws.map toSpan).flatMap Span.text = ws.flatMap text := by
  simp only [List.flatMap_map, text_toSpan]

/-- The texts are read one by one if no text joins with the ones behind it. -/
theorem fitting_map_toSpan_iff {ws : List TokenText} :
    Fitting (ws.map toSpan) ↔ ∀ i, ¬ Joins (ws.drop i) := by
  induction ws with
  | nil =>
    refine iff_of_true Fitting.nil fun i hjoins ↦ ?_
    rw [List.drop_nil] at hjoins
    cases hjoins
  | cons w ws ih =>
    constructor
    · intro h i
      cases h with
      | cons hs hss =>
        rw [flatMap_text_map_toSpan] at hs
        cases i with
        | zero => exact fits_flatMap_iff.1 hs
        | succ i => exact ih.1 hss i
    · intro h
      refine Fitting.cons ?_ (ih.2 fun i ↦ h (i + 1))
      rw [flatMap_text_map_toSpan]
      exact fits_flatMap_iff.2 (h 0)

/-- Token texts that are spans of a source give their tokens. -/
theorem itemsFrom_map_toSpan {o : Options} {ws : List TokenText} (h : ∀ w ∈ ws, w.IsShown o)
    (line : Nat) : ∃ ts : List Token, Span.itemsFrom o line (ws.map toSpan) = ts.map Item.token ∧
      ts.map Token.source = ws.map text := by
  induction ws generalizing line with
  | nil => exact ⟨[], rfl, rfl⟩
  | cons w ws ih =>
    rw [List.forall_mem_cons] at h
    obtain ⟨ts, hitems, hsources⟩ := ih h.2 (line + w.toSpan.text.newlines)
    refine ⟨w.token o line :: ts, ?_, ?_⟩
    · rw [List.map_cons, Span.itemsFrom, item?_toSpan h.1, hitems]
      rfl
    · rw [List.map_cons, List.map_cons, source_token, hsources]

end TokenText

/-! ## Reading a concatenation back -/

/-- The texts of the tokens are texts of spans, in their order. -/
theorem sublist_source_itemsFrom (o : Options) {ss : List Span} (h : Fitting ss) (line : Nat) :
    List.Sublist (((Span.itemsFrom o line ss).filterMap Item.token?).map Token.source)
      (ss.map Span.text) := by
  induction h generalizing line with
  | nil => exact List.Sublist.slnil
  | @cons s ss hs hss ih =>
    have hrest := ih (line + s.text.newlines)
    rw [Span.itemsFrom, List.filterMap_append, List.map_append, List.map_cons]
    cases hi : s.item? o line with
    | none => exact hrest.cons _
    | some i =>
      cases i with
      | token t =>
        change List.Sublist (t.source :: _) _
        rw [(hs.yields hi).source_eq]
        exact hrest.cons_cons s.text
      | error e => exact hrest.cons _

/-- A selection of nonempty texts that leaves out nothing of their concatenation is all of them. -/
theorem eq_of_sublist_of_flatten_eq {us vs : List Text} (h : us.Sublist vs) (hne : ∀ v ∈ vs, v ≠ [])
    (hflatten : us.flatten = vs.flatten) : us = vs := by
  induction h with
  | slnil => rfl
  | @cons us vs v h ih =>
    -- a text that is left out would be missing in the concatenation
    have hlength := h.flatten.length_le
    have hpos := List.length_pos_iff.2 (hne v List.mem_cons_self)
    rw [hflatten, List.flatten_cons, List.length_append] at hlength
    omega
  | @cons_cons us vs v h ih =>
    rw [List.flatten_cons, List.flatten_cons, List.append_cancel_left_eq] at hflatten
    rw [ih (fun v hv ↦ hne v (List.mem_cons_of_mem _ hv)) hflatten]

/-- Whatever is read in front of a text is also read on its own. -/
theorem Span.Fits.alone {s : Span} {after : Text} (h : s.Fits after) : s.Fits [] := by
  cases h with
  | separator hc => exact .separator hc
  | comment hbody hafter => exact .comment hbody (Text.stops_nil _)
  | punct hp => exact .punct fun _ _ h ↦ nomatch h
  | quoted hbody => exact .quoted hbody
  | unclosed hbody => exact .unclosed hbody
  | digits hds hafter hpoint => exact fits_digits_nil hds
  | fraction hwhole hpart hafter => exact .fraction hwhole hpart (Text.stops_nil _)
  | word hw hafter => exact .word hw (Text.stops_nil _)
  | stray hseparator hquote hdigit hword hpunct =>
    exact .stray hseparator hquote hdigit hword hpunct

/-- Spans are known by their texts. -/
theorem Fitting.eq_map_toSpan {ss : List Span} (h : Fitting ss) {ws : List TokenText}
    (htext : ss.map Span.text = ws.map TokenText.text) : ss = ws.map TokenText.toSpan := by
  induction h generalizing ws with
  | nil =>
    rw [List.map_eq_nil_iff.1 htext.symm]
    rfl
  | @cons s ss hs hss ih =>
    obtain ⟨w, ws, rfl, hw, hws⟩ := List.map_eq_cons_iff.1 htext.symm
    have hspan : s = w.toSpan :=
      hs.alone.eq_of_text_eq w.fits_nil ((w.text_toSpan.trans hw).symm)
    rw [List.map_cons, ← hspan, ← ih hws.symm]

/-- A source whose tokens stand for all of it consists of their texts. -/
theorem spans_eq_of_sources {o : Options} {ws : List TokenText} {ts : List Token} {line : Nat}
    (htokens : (tokenize o (ws.flatMap TokenText.text)).tokens = ts ++ [Token.endOfFile line])
    (hsources : ts.map Token.source = ws.map TokenText.text) :
    spans (ws.flatMap TokenText.text) = ws.map TokenText.toSpan := by
  have hfitting := fitting_spans (ws.flatMap TokenText.text)
  rw [Scanner.tokens_tokenize] at htokens
  -- the tokens stand for some of the spans, and the source is too long for a span without a token
  have hsublist := sublist_source_itemsFrom o hfitting 1
  rw [List.append_inj_left' htokens rfl, hsources] at hsublist
  have htexts : ws.map TokenText.text = (spans (ws.flatMap TokenText.text)).map Span.text := by
    refine eq_of_sublist_of_flatten_eq hsublist ?_ ?_
    · intro v hv
      obtain ⟨s, hs, rfl⟩ := List.mem_map.1 hv
      exact hfitting.text_ne_nil s hs
    · rw [← List.flatMap_def, ← List.flatMap_def, flatMap_text_spans]
  exact hfitting.eq_map_toSpan htexts.symm

/-- **When tokens need no gap.**  A concatenation of token texts is scanned as just those tokens,
without an error, if and only if nowhere in the list a text joins with the ones behind it. -/
theorem concatenation_iff (ws : List TokenText) (keywordCase : KeywordCase) :
    (∃ ts line, tokenize ⟨.emit, keywordCase⟩ (ws.flatMap TokenText.text) =
        ⟨ts ++ [Token.endOfFile line], []⟩ ∧ ts.map Token.source = ws.map TokenText.text) ↔
      ∀ i, ¬ TokenText.Joins (ws.drop i) := by
  rw [← TokenText.fitting_map_toSpan_iff]
  constructor
  · rintro ⟨ts, line, hscan, hsources⟩
    rw [← spans_eq_of_sources (congrArg Scan.tokens hscan) hsources]
    exact fitting_spans _
  · intro h
    obtain ⟨ts, hitems, hsources⟩ := TokenText.itemsFrom_map_toSpan
      (fun w _ ↦ TokenText.isShown_emit keywordCase w) 1
    rw [← spans_of_fitting h, TokenText.flatMap_text_map_toSpan] at hitems
    exact ⟨ts, _, Scanner.tokenize_of_itemsFrom hitems, hsources⟩

end LoxTokens
