import LoxTokens.Proofs.Lifecycle
import LoxTokens.Proofs.Reader

/-!
# Offsets and slices of a scan

A `Reader` finds its way by offsets, which count bytes, while it reads characters of one to four
bytes each and looks ahead of what it takes.  This file follows its offsets through every span,
every call and every sequence of operations.

* `HasRead.readItem` — a span is read as a whole, and gives its item.
* `Reader.Follows source r t` — the reader `r` has the place of the scanner `t` in the source.
  `Follows.round` and `Follows.next` say that rounds and calls of both give the same and keep it so.
* `Reader.Reachable o source r` — the reader `r` comes out of some sequence of operations;
  `Reachable.exists_follows` is the invariant of all of them.
* `Reader.InSource r source rest` and `Reader.HasString r source body` — the offsets of a reader fit
  its source, and its current span is a closed string.
* `inSource_of_reachable` — no sequence of operations leads to a slice that cannot be cut.
-/

set_option autoImplicit false

namespace LoxTokens

theorem Number.ofLiteral?_append {whole : Text} (h : '.' ∉ whole) (part : Text) :
    ofLiteral? true (whole ++ '.' :: part) = some (ofParts whole part) := by
  have hrun : ∀ x ∈ whole, (x != '.') = true := fun x hx ↦ bne_iff_ne.2 fun hp ↦ h (hp ▸ hx)
  have hstop : Text.Stops (· != '.') ('.' :: part) := Text.stops_cons.2 rfl
  rw [ofLiteral?, if_pos rfl, Text.takeWhile_run hrun hstop, Text.dropWhile_run hrun hstop]
  rfl

/-- A punctuation mark is one character or has an equals sign behind it.  In the first case there
may be a mark of the second kind with the same character. -/
theorem Punct.eq_of_text {p : Punct} {c : Char} {t : Text} (h : p.text = c :: t) :
    t = [] ∧ single? c = some p ∧ (withEqual? c ≠ none → p.follower? = some '=') ∨
      t = ['='] ∧ (single? c).isSome ∧ withEqual? c = some p := by
  cases p <;> cases h <;> decide

namespace Reader

variable {σ : Type} [Peekable σ (ℕ × Char)]

/-! ## Spans, by their first character -/

theorem readKind_quote (r : Reader σ) : r.readKind '"' = r.readString := by
  simp [readKind, isSeparator]

theorem readKind_of_isDigit {c : Char} (hc : c.isDigit = true) (r : Reader σ) :
    r.readKind c = r.readNumber.map fun (kind, r) ↦ (some kind, r) := by
  have hslash : c ≠ '/' := by rintro rfl; exact absurd hc (by decide)
  have hquote : c ≠ '"' := by rintro rfl; exact absurd hc (by decide)
  simp [readKind, isSeparator_of_isDigit hc, hslash, hquote, hc]

theorem readKind_of_isWordStart {c : Char} (hc : isWordStart c = true) (r : Reader σ) :
    r.readKind c = r.readWord.map fun (kind, r) ↦ (some (.ok kind), r) := by
  have hslash : c ≠ '/' := by rintro rfl; exact absurd hc (by decide)
  have hquote : c ≠ '"' := by rintro rfl; exact absurd hc (by decide)
  simp [readKind, isSeparator_of_isWordStart hc, hslash, hquote, isDigit_of_isWordStart hc, hc]

theorem readKind_of_others {c : Char} (hseparator : isSeparator c = false) (hslash : c ≠ '/')
    (hquote : c ≠ '"') (hdigit : c.isDigit = false) (hword : isWordStart c = false)
    (r : Reader σ) : r.readKind c = some (r.readMark c) := by
  simp [readKind, hseparator, hslash, hquote, hdigit, hword]

section

variable {source before : Text} {s : Scanner} {r : Reader σ} {w after : Text}

namespace HasRead

/-- Only a string has another lexeme than the text that was read. -/
theorem readItem_of_ok {c : Char} {kind : TokenKind} {r' : Reader σ}
    (hs : s.StandsIn source before) (hread : r.readKind c = some (some (.ok kind), r'))
    (h : r'.HasRead source s w after) (hkind : ∀ body, kind ≠ .string body) :
    r.readItem c = some (some (Span.tokenItem s.cursor.line kind w), r') := by
  have htoken : r'.token? kind = some ⟨kind, w, s.cursor.line⟩ := by
    cases kind with
    | string body => exact absurd rfl (hkind body)
    | _ => simp [token?, h.lexeme?_eq hs, h.startLine_eq]
  simp [Reader.readItem, hread, htoken, Span.tokenItem]

section

variable [LawfulPeekable σ]

theorem closeString_of_mem (body : Text) (h : r.HasRead source s w (body ++ '"' :: after))
    (hbody : '"' ∉ body) :
    ∃ r', r.closeString = some (some '"', r') ∧ r'.HasRead source s (w ++ body ++ ['"']) after := by
  obtain ⟨r₁, huntil, h₁⟩ := h.advanceUntil (· == '"')
    (fun x hx ↦ beq_false_of_ne fun hq ↦ hbody (hq ▸ hx)) (by simp)
  obtain ⟨r₂, hadvance, h₂⟩ := h₁.advance_cons
  exact ⟨r₂, by simp [closeString, huntil, hadvance], h₂⟩

theorem closeString_of_notMem (h : r.HasRead source s w after) (hafter : '"' ∉ after) :
    ∃ r', r.closeString = some (none, r') ∧ r'.HasRead source s (w ++ after) [] := by
  rw [← List.append_nil after] at h
  obtain ⟨r₁, huntil, h₁⟩ := h.advanceUntil (· == '"')
    (fun x hx ↦ beq_false_of_ne fun hq ↦ hafter (hq ▸ hx)) (by simp)
  obtain ⟨r₂, hadvance, h₂⟩ := h₁.advance_nil
  exact ⟨r₂, by simp [closeString, huntil, hadvance], h₂⟩

theorem readString_quoted {body : Text} (hs : s.StandsIn source before)
    (h : r.HasRead source s ['"'] (body ++ '"' :: after)) (hbody : '"' ∉ body) :
    ∃ r', r.readString = some (if body = [] ∧ s.options.emptyStrings = .suppress then none
        else some (.ok (.string body)), r') ∧
      r'.HasRead source s ('"' :: body ++ ['"']) after := by
  obtain ⟨r', hclose, hread⟩ := h.closeString_of_mem body hbody
  rw [List.singleton_append] at hread
  refine ⟨r', ?_, hread⟩
  simp only [readString, hclose, Option.bind_eq_bind, Option.bind_some, hread.slice?_body hs,
    hread.options_eq]
  split <;> rfl

theorem readString_unclosed {body : Text} (h : r.HasRead source s ['"'] body)
    (hbody : '"' ∉ body) :
    ∃ r', r.readString = some (some (.error ⟨.unterminatedString, r'.line⟩), r') ∧
      r'.HasRead source s ('"' :: body) [] := by
  obtain ⟨r', hclose, h'⟩ := h.closeString_of_notMem hbody
  exact ⟨r', by simp [readString, hclose], h'⟩

theorem atFraction_of_isDigit {d : Char} (h : r.HasRead source s w ('.' :: d :: after))
    (hd : d.isDigit = true) :
    ∃ r', r.atFraction = (true, r') ∧ r'.HasRead source s w ('.' :: d :: after) := by
  obtain ⟨r₁, hpeek₁, h₁⟩ := h.peek 0
  obtain ⟨r₂, hpeek₂, h₂⟩ := h₁.peek 1
  exact ⟨r₂, by simp [Reader.atFraction, hpeek₁, hpeek₂, hd], h₂⟩

theorem atFraction_of_stops (h : r.HasRead source s w after)
    (hpoint : ∀ t : Text, after = '.' :: t → t.Stops Char.isDigit) :
    ∃ r', r.atFraction = (false, r') ∧ r'.HasRead source s w after := by
  obtain ⟨r₁, hpeek₁, h₁⟩ := h.peek 0
  rw [← List.head?_eq_getElem?] at hpeek₁
  by_cases hhead : after.head? = some '.'
  · obtain ⟨t, rfl⟩ := List.head?_eq_some_iff.1 hhead
    obtain ⟨r₂, hpeek₂, h₂⟩ := h₁.peek 1
    have ht : t[0]?.any Char.isDigit = false := by
      have hstop := hpoint t rfl
      rw [← List.head?_eq_getElem?, Option.any_eq_false]
      simpa [Text.Stops] using hstop
    exact ⟨r₂, by simp [Reader.atFraction, hpeek₁, hpeek₂, ht], h₂⟩
  · exact ⟨r₁, by simp [Reader.atFraction, hpeek₁, hhead], h₁⟩

theorem readNumber_digits {d : Char} {ds : Text} (hs : s.StandsIn source before)
    (h : r.HasRead source s [d] (ds ++ after)) (hds : ∀ x ∈ ds, x.isDigit = true)
    (hafter : after.Stops Char.isDigit)
    (hpoint : ∀ t : Text, after = '.' :: t → t.Stops Char.isDigit) :
    ∃ r', r.readNumber = some (match Number.ofDigits? (d :: ds) with
        | some n => .ok (.number n)
        | none => .error ⟨.invalidNumber (d :: ds), r'.line⟩, r') ∧
      r'.HasRead source s (d :: ds) after := by
  obtain ⟨r₁, huntil, h₁⟩ := h.advanceUntil_not hds hafter
  obtain ⟨r₂, hfraction, h₂⟩ := h₁.atFraction_of_stops hpoint
  refine ⟨r₂, ?_, h₂⟩
  have hlexeme : r₂.lexeme? = some (d :: ds) := h₂.lexeme?_eq hs
  cases hn : Number.ofDigits? (d :: ds) <;>
    simp [readNumber, huntil, hfraction, hlexeme, Number.ofLiteral?, hn]

theorem readNumber_fraction {d : Char} {ds part : Text} (hs : s.StandsIn source before)
    (h : r.HasRead source s [d] (ds ++ '.' :: part ++ after)) (hwhole : IsDigits (d :: ds))
    (hpart : IsDigits part) (hafter : after.Stops Char.isDigit) :
    ∃ r', r.readNumber = some (.ok (.number (Number.ofParts (d :: ds) part)), r') ∧
      r'.HasRead source s (d :: ds ++ '.' :: part) after := by
  obtain ⟨e, es, rfl, he, -⟩ := hpart.exists_cons
  rw [List.append_assoc] at h
  obtain ⟨r₁, hrun, h₁⟩ := h.advanceUntil_not (fun x hx ↦ hwhole.2 x (List.mem_cons_of_mem d hx))
    (Text.stops_cons.2 rfl)
  obtain ⟨r₂, hfraction, h₂⟩ := h₁.atFraction_of_isDigit he
  obtain ⟨r₃, hpoint, h₃⟩ := h₂.advance_cons
  have hrest : r₃.HasRead source s ([d] ++ ds ++ ['.']) (e :: es ++ after) := h₃
  obtain ⟨r₄, hrun', h₄⟩ := hrest.advanceUntil_not hpart.2 hafter
  have hread : r₄.HasRead source s (d :: ds ++ '.' :: e :: es) after := by simpa using h₄
  have hnumber := Number.ofLiteral?_append (Text.notMem_of_class hwhole.2 rfl) (e :: es)
  rw [List.cons_append] at hnumber
  refine ⟨r₄, ?_, hread⟩
  simp [readNumber, hrun, hfraction, hpoint, hrun', hread.lexeme?_eq hs, hnumber]

theorem readWord {c : Char} {t : Text} (hs : s.StandsIn source before)
    (h : r.HasRead source s [c] (t ++ after)) (ht : ∀ x ∈ t, isWordPart x = true)
    (hafter : after.Stops isWordPart) :
    ∃ r', r.readWord = some (Span.wordKind s.options (c :: t), r') ∧
      r'.HasRead source s (c :: t) after := by
  obtain ⟨r₁, hrun, h₁⟩ := h.advanceUntil_not ht hafter
  have hlexeme : r₁.lexeme? = some (c :: t) := h₁.lexeme?_eq hs
  exact ⟨r₁, by simp [Reader.readWord, hrun, hlexeme, h₁.options_eq], h₁⟩

theorem readMark {p : Punct} {c : Char} {t : Text} (h : r.HasRead source s [c] (t ++ after))
    (htext : p.text = c :: t) (hp : p.Closed after) :
    ∃ r', r.readMark c = (some (.ok (.punct p)), r') ∧ r'.HasRead source s p.text after := by
  rw [htext]
  rcases Punct.eq_of_text htext with ⟨rfl, hsingle, hfollower⟩ | ⟨rfl, hsingle, hequal⟩
  · cases hw : Punct.withEqual? c with
    | none => exact ⟨r, by simp [Reader.readMark, hsingle, hw], h⟩
    | some q =>
      have hhead : after.head? ≠ some '=' := hp '=' (hfollower (by simp [hw]))
      obtain ⟨r₁, hif, h₁⟩ := h.advanceIf_of_ne hhead
      exact ⟨r₁, by simp [Reader.readMark, hsingle, hw, hif], h₁⟩
  · obtain ⟨q, hsingle⟩ := Option.isSome_iff_exists.1 hsingle
    obtain ⟨r₁, hif, h₁⟩ := h.advanceIf_cons
    exact ⟨r₁, by simp [Reader.readMark, hsingle, hequal, hif], h₁⟩

/-- A slash is read apart from the other marks, because it may start a comment. -/
theorem readPunct {p : Punct} {c : Char} {t : Text} (h : r.HasRead source s [c] (t ++ after))
    (htext : p.text = c :: t) (hp : p.Closed after) :
    ∃ r', r.readKind c = some (some (.ok (.punct p)), r') ∧ r'.HasRead source s p.text after := by
  by_cases hslash : c = '/'
  · obtain ⟨rfl, rfl, rfl⟩ : p = .slash ∧ c = '/' ∧ t = [] := by
      subst hslash
      cases p <;> cases htext
      exact ⟨rfl, rfl, rfl⟩
    obtain ⟨r₁, hif, h₁⟩ := h.advanceIf_of_ne (hp '/' rfl)
    exact ⟨r₁, by simp [readKind, isSeparator, hif], h₁⟩
  · obtain ⟨q, hsingle⟩ : ∃ q, Punct.single? c = some q := by
      rcases Punct.eq_of_text htext with ⟨-, hsingle, -⟩ | ⟨-, hsingle, -⟩
      · exact ⟨p, hsingle⟩
      · exact Option.isSome_iff_exists.1 hsingle
    obtain ⟨-, hseparator, hquote, hdigit, hword⟩ := Punct.classes_of_single? hsingle
    obtain ⟨r₁, hread, h₁⟩ := h.readMark htext hp
    exact ⟨r₁, by rw [readKind_of_others hseparator hslash hquote hdigit hword, hread], h₁⟩

/-- **A span is read as a whole**, and gives the item that it has at its place. -/
theorem readItem {span : Span} {c : Char} {t : Text} (hs : s.StandsIn source before)
    (h : r.HasRead source s [c] (t ++ after)) (htext : span.text = c :: t)
    (hfits : span.Fits after) :
    ∃ r', r.readItem c = some (span.item? s.options s.cursor.line, r') ∧
      r'.HasRead source s span.text after := by
  cases hfits with
  | separator hc =>
    cases htext
    exact ⟨r, by simp [Reader.readItem, readKind, hc, Span.item?], h⟩
  | @comment body _ hbody hafter =>
    cases htext
    obtain ⟨r₁, hif, h₁⟩ := h.advanceIf_cons
    obtain ⟨r₂, huntil, h₂⟩ := h₁.advanceUntil (· == '\n')
      (fun x hx ↦ beq_false_of_ne fun hn ↦ hbody (hn ▸ hx)) (by simpa [Text.Stops] using hafter)
    exact ⟨r₂, by simp [Reader.readItem, readKind, isSeparator, hif, huntil, Span.item?], h₂⟩
  | @punct p _ hp =>
    obtain ⟨r₁, hread, h₁⟩ := h.readPunct htext hp
    exact ⟨r₁, readItem_of_ok hs hread h₁ (by simp), h₁⟩
  | @quoted body _ hbody =>
    cases htext
    have hbefore : r.HasRead source s ['"'] (body ++ '"' :: after) := by simpa using h
    obtain ⟨r₁, hread, h₁⟩ := hbefore.readString_quoted hs hbody
    refine ⟨r₁, ?_, h₁⟩
    rw [Reader.readItem, readKind_quote, hread, Span.item?]
    split
    · rfl
    · simp [token?, Span.tokenItem, h₁.startLine_eq]
  | @unclosed body hbody =>
    cases htext
    rw [List.append_nil] at h
    obtain ⟨r₁, hread, h₁⟩ := h.readString_unclosed hbody
    refine ⟨r₁, ?_, h₁⟩
    rw [Reader.readItem, readKind_quote, hread, h₁.line_eq]
    rfl
  | @digits ds _ hds hafter hpoint =>
    obtain rfl : ds = c :: t := htext
    obtain ⟨hc, ht⟩ := List.forall_mem_cons.1 hds.2
    obtain ⟨r₁, hread, h₁⟩ := h.readNumber_digits hs ht hafter hpoint
    refine ⟨r₁, ?_, h₁⟩
    rw [Span.item?]
    cases hn : Number.ofDigits? (c :: t) with
    | none => simp [Reader.readItem, readKind_of_isDigit hc, hread, hn, h₁.line_eq, Span.text]
    | some n =>
      rw [hn] at hread
      exact readItem_of_ok hs (by rw [readKind_of_isDigit hc, hread]; rfl) h₁ (by simp)
  | @fraction whole part _ hwhole hpart hafter =>
    obtain ⟨d, ds, rfl, hd, -⟩ := hwhole.exists_cons
    cases htext
    obtain ⟨r₁, hread, h₁⟩ := h.readNumber_fraction hs hwhole hpart hafter
    exact ⟨r₁, readItem_of_ok hs (by rw [readKind_of_isDigit hd, hread]; rfl) h₁ (by simp), h₁⟩
  | @word w _ hw hafter =>
    obtain ⟨d, u, rfl, hc, hrun⟩ := hw
    cases htext
    obtain ⟨r₁, hread, h₁⟩ := h.readWord hs hrun hafter
    refine ⟨r₁, readItem_of_ok hs (by rw [readKind_of_isWordStart hc, hread]; rfl) h₁ ?_, h₁⟩
    rcases Span.wordKind_cases s.options (c :: t) with ⟨k, -, hk⟩ | ⟨-, hk⟩ <;> simp [hk]
  | @stray c _ hseparator hquote hdigit hword hpunct =>
    cases htext
    have hslash : c ≠ '/' := by rintro rfl; cases hpunct
    refine ⟨r, ?_, h⟩
    rw [Reader.readItem, readKind_of_others hseparator hslash hquote hdigit hword, Reader.readMark,
      hpunct, h.line_eq]
    rfl

end

end HasRead

/-! ## Rounds and calls -/

/-- The scanner with the place of the reader, if the text `rest` is still to be read. -/
def scanner (r : Reader σ) (rest : Text) : Scanner :=
  ⟨r.options, ⟨rest, r.start, r.current, r.startLine, r.line⟩, r.finished⟩

/-- After a span the scanner has the same place. -/
theorem HasRead.scanner_eq (h : r.HasRead source s w after) : r.scanner after = s.past w :=
  calc r.scanner after
    _ = ⟨s.options, ⟨after, s.cursor.current, s.cursor.current + w.byteLength, s.cursor.line,
          s.cursor.line + w.newlines⟩, s.finished⟩ := by
        rw [scanner, h.options_eq, h.start_eq, h.current_eq, h.startLine_eq, h.line_eq,
          h.finished_eq]
    _ = ⟨s.options, ⟨(s.past w).cursor.rest, (s.past w).cursor.start, (s.past w).cursor.current,
          (s.past w).cursor.startLine, (s.past w).cursor.line⟩, s.finished⟩ := by
        rw [Scanner.rest_past h.rest_eq, Scanner.start_past, Scanner.current_past h.rest_eq,
          Scanner.startLine_past, Scanner.line_past h.rest_eq]

/-- The reader stands where the scanner stands that has read the text `w` since `s`. -/
inductive Follows (source : Text) : Reader σ → Scanner → Prop
  | intro {r : Reader σ} {s : Scanner} {before w after : Text} (hs : s.StandsIn source before)
      (h : r.HasRead source s w after) : Follows source r (s.past w)

namespace Follows

variable {t : Scanner}

theorem scanner_eq (h : r.Follows source t) : r.scanner t.cursor.rest = t := by
  obtain @⟨s, before, w, after, hs, h⟩ := h
  rw [Scanner.rest_past h.rest_eq, h.scanner_eq]

variable [LawfulPeekable σ]

theorem ofText (o : Options) (source : Text) :
    (Reader.ofText o source : Reader σ).Follows source (Scanner.ofText o source) :=
  intro (Scanner.standsIn_ofText o source) (HasRead.ofText o source)

/-- A round of the reader is a round of the scanner. -/
theorem round (h : r.Follows source t) :
    ∃ r', r.round = some (t.round.1, r') ∧ r'.Follows source t.round.2 := by
  obtain @⟨s, before, w, after, hs, h⟩ := h
  have hrest := Scanner.rest_past h.rest_eq
  have hstands := hs.past h.rest_eq
  have hmark := h.mark
  generalize s.past w = t at hrest hstands hmark
  cases after with
  | nil =>
    obtain ⟨r₁, hadvance, h₁⟩ := hmark.advance_nil
    have hline : r₁.line = t.cursor.line := h₁.line_eq
    rw [Scanner.round, hrest]
    by_cases hf : t.finished = true
    · refine ⟨r₁, by simp [Reader.round, hadvance, h₁.finished_eq, hf], ?_⟩
      rw [if_pos hf]
      exact intro hstands h₁
    · refine ⟨{ r₁ with finished := true }, ?_, ?_⟩
      · simp [Reader.round, hadvance, h₁.finished_eq, hf, hline]
      · rw [if_neg hf]
        have hdone : Scanner.StandsIn source (before ++ w) { t with finished := true } :=
          ⟨hstands.source_eq, hstands.current_eq, hstands.line_eq⟩
        have hread : ({ r₁ with finished := true } : Reader σ).HasRead source
            { t with finished := true } [] [] := { h₁ with finished_eq := rfl }
        exact intro hdone hread
  | cons c rest =>
    obtain ⟨r₁, hadvance, h₁⟩ := hmark.advance_cons
    obtain ⟨after, hsplit, hfits⟩ := Span.first_spec c rest
    obtain ⟨d, u, htext⟩ := List.exists_cons_of_ne_nil hfits.text_ne_nil
    obtain ⟨rfl, hrun⟩ : c = d ∧ rest = u ++ after := by
      rw [htext] at hsplit
      exact List.cons.inj hsplit
    rw [hrun] at h₁
    obtain ⟨r₂, hread, h₂⟩ := h₁.readItem hstands htext hfits
    refine ⟨r₂, ?_, ?_⟩
    · simp [Reader.round, hadvance, hread, Scanner.round, hrest]
    · rw [Scanner.round, hrest]
      exact intro hstands h₂

theorem nextWithin {n : ℕ} {given : Option Item} {t' : Scanner} (h : r.Follows source t)
    (ht : t.nextWithin n = some (given, t')) :
    ∃ r', r.nextWithin n = some (given, r') ∧ r'.Follows source t' := by
  induction n generalizing r t with
  | zero => cases ht
  | succ n ih =>
    obtain ⟨r₁, hround, h₁⟩ := h.round
    rw [Scanner.nextWithin] at ht
    rcases hscanner : t.round with ⟨_ | given₁, t₁⟩
    · rw [hscanner] at ht hround h₁
      obtain ⟨r', hwithin, h'⟩ := ih h₁ ht
      exact ⟨r', by simp [Reader.nextWithin, hround, hwithin], h'⟩
    · rw [hscanner] at ht hround h₁
      obtain ⟨rfl, rfl⟩ := Prod.mk.inj (Option.some.inj ht)
      exact ⟨r₁, by simp [Reader.nextWithin, hround], h₁⟩

/-- **A call gives what it should.**  It comes to an end, every slice on the way can be cut, and the
item is the one that the scanner at the same place gives. -/
theorem next (h : r.Follows source t) :
    ∃ r', r.next = some (t.next.1, r') ∧ r'.Follows source t.next.2 := by
  have hlength : t.cursor.rest.length ≤ r.source.length := by
    obtain @⟨s, before, w, after, hs, h⟩ := h
    exact h.mark.length_rest_le
  exact h.nextWithin (Scanner.nextWithin_eq (Nat.lt_succ_of_le hlength))

end Follows

/-- The reader after `n` calls. -/
def skip : ℕ → Reader σ → Option (Reader σ)
  | 0, r => some r
  | n + 1, r => do
    let (_, r) ← r.next
    r.skip n

theorem Follows.skip [LawfulPeekable σ] {t : Scanner} (n : ℕ) (h : r.Follows source t) :
    ∃ r', r.skip n = some r' ∧ r'.Follows source (t.skip n) := by
  induction n generalizing r t with
  | zero => exact ⟨r, rfl, h⟩
  | succ n ih =>
    obtain ⟨r₁, hnext, h₁⟩ := h.next
    obtain ⟨r', hskip, h'⟩ := ih h₁
    exact ⟨r', by simp [Reader.skip, hnext, hskip], h'⟩

/-- **The same run.**  Every call on a source comes to an end, and leaves a reader with the place of
the scanner after as many calls. -/
theorem exists_skip_ofText [LawfulPeekable σ] (o : Options) (source : Text) (n : ℕ) :
    ∃ r' rest, (ofText o source : Reader σ).skip n = some r' ∧
      r'.scanner rest = (Scanner.ofText o source).skip n := by
  have h : (ofText o source : Reader σ).Follows source (Scanner.ofText o source) :=
    Follows.ofText o source
  obtain ⟨r', hskip, h'⟩ := h.skip n
  exact ⟨r', _, hskip, h'.scanner_eq⟩

/-! ## What can be reached -/

/-- The readers that come out of any sequence of operations on a source.  Between the operations of
one call of `next` stand readers that are reached by others. -/
inductive Reachable (o : Options) (source : Text) : Reader σ → Prop
  | ofText : Reachable o source (ofText o source)
  | mark {r : Reader σ} (h : Reachable o source r) : Reachable o source r.mark
  | peek {r : Reader σ} (n : ℕ) (h : Reachable o source r) : Reachable o source (r.peek n).2
  | advance {r : Reader σ} (h : Reachable o source r) : Reachable o source r.advance.2
  | advanceIf {r : Reader σ} (c : Char) (h : Reachable o source r) :
      Reachable o source (r.advanceIf c).2
  | advanceUntil {r r' : Reader σ} {stop : Char → Bool} (h : Reachable o source r)
      (hr : r.advanceUntil stop = some r') : Reachable o source r'
  | next {r r' : Reader σ} {given : Option Item} (h : Reachable o source r)
      (hr : r.next = some (given, r')) : Reachable o source r'

theorem Reachable.closeString {o : Options} {r' : Reader σ} {given : Option Char}
    (h : r.Reachable o source) (hr : r.closeString = some (given, r')) : r'.Reachable o source := by
  obtain ⟨r₁, huntil, hadvance⟩ := Option.bind_eq_some_iff.1 hr
  obtain rfl : r₁.advance.2 = r' := congrArg Prod.snd (Option.some.inj hadvance)
  exact (h.advanceUntil huntil).advance

/-- **The invariant of every run**: there is a place in the source where the current span starts,
and the reader has read some text since. -/
theorem Reachable.exists_follows [LawfulPeekable σ] {o : Options} (h : r.Reachable o source) :
    ∃ t, r.Follows source t := by
  induction h with
  | ofText => exact ⟨_, Follows.ofText o source⟩
  | mark _ ih =>
    obtain ⟨_, ⟨hs, hr⟩⟩ := ih
    exact ⟨_, .intro (hs.past hr.rest_eq) hr.mark⟩
  | peek n _ ih =>
    obtain ⟨_, ⟨hs, hr⟩⟩ := ih
    obtain ⟨r', hpeek, hr'⟩ := hr.peek n
    rw [hpeek]
    exact ⟨_, .intro hs hr'⟩
  | advance _ ih =>
    obtain ⟨_, @⟨s, before, w, after, hs, hr⟩⟩ := ih
    cases after with
    | nil =>
      obtain ⟨r', hadvance, hr'⟩ := hr.advance_nil
      rw [hadvance]
      exact ⟨_, .intro hs hr'⟩
    | cons c after =>
      obtain ⟨r', hadvance, hr'⟩ := hr.advance_cons
      rw [hadvance]
      exact ⟨_, .intro hs hr'⟩
  | advanceIf c _ ih =>
    obtain ⟨_, @⟨s, before, w, after, hs, hr⟩⟩ := ih
    by_cases hc : after.head? = some c
    · obtain ⟨after, rfl⟩ := List.head?_eq_some_iff.1 hc
      obtain ⟨r', hif, hr'⟩ := hr.advanceIf_cons
      rw [hif]
      exact ⟨_, .intro hs hr'⟩
    · obtain ⟨r', hif, hr'⟩ := hr.advanceIf_of_ne hc
      rw [hif]
      exact ⟨_, .intro hs hr'⟩
  | advanceUntil _ huntil ih =>
    obtain ⟨_, ⟨hs, hr⟩⟩ := ih
    obtain ⟨r₁, run, rest, huntil₁, hr₁⟩ := hr.exists_advanceUntil _
    obtain rfl := Option.some.inj (huntil₁.symm.trans huntil)
    exact ⟨_, .intro hs hr₁⟩
  | next _ hnext ih =>
    obtain ⟨_, hr⟩ := ih
    obtain ⟨r₁, hnext₁, hr₁⟩ := hr.next
    obtain ⟨-, rfl⟩ := Prod.mk.inj (Option.some.inj (hnext₁.symm.trans hnext))
    exact ⟨_, hr₁⟩

/-- The offsets of a reader are in order and on boundaries of the source, and the text behind the
last character that was taken is what is still to be read. -/
structure InSource (r : Reader σ) (source rest : Text) : Prop where
  start_le : r.start ≤ r.current
  current_le : r.current ≤ source.bytes.length
  isBoundary_start : source.bytes.IsBoundary r.start
  isBoundary_current : source.bytes.IsBoundary r.current
  slice_eq : source.bytes.slice? r.current source.bytes.length = some rest
  delivers : Peekable.Delivers r.iter (rest.indexed r.current)

/-- The current span of a reader is a closed string with the given body. -/
structure HasString (r : Reader σ) (source body : Text) : Prop where
  start_le : r.start + 1 ≤ r.current - 1
  isBoundary_start : source.bytes.IsBoundary (r.start + 1)
  isBoundary_end : source.bytes.IsBoundary (r.current - 1)
  quote_start : source.bytes[r.start]? = some 0x22
  quote_end : source.bytes[r.current - 1]? = some 0x22
  slice_eq : r.source.slice? (r.start + 1) (r.current - 1) = some body
  lexeme_eq : r.lexeme? = some ('"' :: body ++ ['"'])
  notMem : '"' ∉ body

omit [Peekable σ (ℕ × Char)] in
/-- The lexeme says what the body is. -/
theorem HasString.body_eq {body body' : Text} (h : r.HasString source body)
    (hlexeme : r.lexeme? = some ('"' :: body' ++ ['"'])) : body = body' := by
  have heq := Option.some.inj (h.lexeme_eq.symm.trans hlexeme)
  exact (List.cons.inj (List.append_cancel_right heq)).2

theorem HasRead.inSource (hs : s.StandsIn source before) (h : r.HasRead source s w after) :
    r.InSource source after := by
  have hlexeme := h.lexeme?_eq hs
  rw [lexeme?, h.source_eq] at hlexeme
  obtain ⟨hle, hstart, hcurrent⟩ := Bytes.of_slice?_eq_some hlexeme
  refine ⟨hle, hcurrent.1, hstart, hcurrent, ?_, h.delivers⟩
  have hslice := Text.slice?_bytes (before ++ w) after []
  rwa [List.append_nil, ← h.current_eq_byteLength hs, ← h.source_eq_bytes hs, h.source_eq,
    List.append_assoc, ← h.rest_eq, ← hs.source_eq, ← Text.length_bytes] at hslice

theorem Follows.inSource {t : Scanner} (h : r.Follows source t) :
    r.InSource source t.cursor.rest := by
  obtain @⟨s, before, w, after, hs, h⟩ := h
  rw [Scanner.rest_past h.rest_eq]
  exact h.inSource hs

theorem HasRead.hasString {body : Text} (hs : s.StandsIn source before)
    (h : r.HasRead source s ('"' :: body ++ ['"']) after) (hbody : '"' ∉ body) :
    r.HasString source body := by
  have hslice := h.slice?_body hs
  obtain ⟨hle, hstart, hend⟩ := Bytes.of_slice?_eq_some hslice
  rw [h.source_eq] at hstart hend
  have hsource : source.bytes = Text.bytes (before ++ ('"' :: body ++ ['"']) ++ after) :=
    h.source_eq.symm.trans (h.source_eq_bytes hs)
  have hlast : r.current - 1 = Text.byteLength (before ++ '"' :: body) := by
    rw [h.current_eq_byteLength hs, ← List.append_assoc, Text.byteLength_append_quote,
      Nat.add_sub_cancel]
  refine ⟨hle, hstart, hend, ?_, ?_, hslice, h.lexeme?_eq hs, hbody⟩
  · rw [hsource, h.start_eq_byteLength hs, List.append_assoc, List.append_assoc, List.cons_append]
    exact Text.getElem?_bytes_quote _ _
  · rw [hsource, hlast, ← List.append_assoc before, List.append_assoc _ ['"']]
    exact Text.getElem?_bytes_quote _ _

/-- Whatever closes a string behind its opening quote has its body in between. -/
theorem HasRead.exists_hasString [LawfulPeekable σ] {r' : Reader σ} {q : Char}
    (hs : s.StandsIn source before) (h : r.HasRead source s ['"'] after)
    (hclose : r.closeString = some (some q, r')) : ∃ body, r'.HasString source body := by
  by_cases hq : '"' ∈ after
  · obtain ⟨body, rest, rfl, hbody⟩ := List.eq_append_cons_of_mem hq
    obtain ⟨r₁, hclose₁, h₁⟩ := h.closeString_of_mem body hbody
    obtain ⟨-, rfl⟩ := Prod.mk.inj (Option.some.inj (hclose.symm.trans hclose₁))
    exact ⟨body, h₁.hasString hs hbody⟩
  · obtain ⟨r₁, hclose₁, -⟩ := h.closeString_of_notMem hq
    rw [hclose] at hclose₁
    cases hclose₁

/-- **Offsets and slices are safe.**  After any sequence of operations, the offsets of a reader are
boundaries of its source, and its iterator delivers what stands behind the second one.  No slice
that it cuts falls into a character, neither the lexeme of a span nor the body of a closed string,
and no loop goes on beyond the length of the source.  A call gives what the scanner with this place
gives. -/
theorem inSource_of_reachable [LawfulPeekable σ] {o : Options} (h : r.Reachable o source) :
    ∃ w rest, r.InSource source rest ∧ r.lexeme? = some w ∧
      (∀ stop, ∃ r', r.advanceUntil stop = some r') ∧
      (∀ r₁ q r₂, r.mark.advance = (some '"', r₁) → r₁.closeString = some (some q, r₂) →
        ∃ body, r₂.HasString source body) ∧
      ∃ r' rest', r.next = some ((r.scanner rest).next.1, r') ∧
        r'.scanner rest' = (r.scanner rest).next.2 ∧ r'.InSource source rest' := by
  obtain ⟨_, @⟨s, before, w, after, hs, hr⟩⟩ := h.exists_follows
  refine ⟨w, after, hr.inSource hs, hr.lexeme?_eq hs, fun stop ↦ ?_, fun r₁ q r₂ hopen hclose ↦ ?_,
    ?_⟩
  · obtain ⟨r', run, rest, huntil, -⟩ := hr.exists_advanceUntil stop
    exact ⟨r', huntil⟩
  · obtain ⟨rest, -, h₁⟩ := hr.mark.of_advance_some hopen
    exact h₁.exists_hasString (hs.past hr.rest_eq) hclose
  · obtain ⟨r', hnext, hr'⟩ := (Follows.intro hs hr).next
    rw [hr.scanner_eq]
    exact ⟨r', _, hnext, hr'.scanner_eq, hr'.inSource⟩

end

/-- A string that begins and ends with longer characters, and behind it the string without a
body. -/
theorem inSource_of_reachable_umlauts :
    let source : Text := ['"', 'é', 'a', 'ß', '"', '"', '"']
    let r : Reader (Queue (ℕ × Char)) := ofText Options.default source
    r.Reachable Options.default source ∧ ∃ r₁ r₂ r₃ r₄,
      r.mark.advance = (some '"', r₁) ∧ r₁.closeString = some (some '"', r₂) ∧
      r₂.HasString source ['é', 'a', 'ß'] ∧
      r₂.mark.advance = (some '"', r₃) ∧ r₃.closeString = some (some '"', r₄) ∧
      r₄.HasString source [] ∧ r₄.start = 7 ∧ r₄.current = 9 := by
  intro source r
  have hr : r.Reachable Options.default source := Reachable.ofText
  have hs := Scanner.standsIn_ofText Options.default source
  have h : r.HasRead source (Scanner.ofText Options.default source) [] source :=
    HasRead.ofText Options.default source
  -- the first string, behind the mark in front of the source
  obtain ⟨r₁, hopen₁, h₁⟩ := h.mark.advance_cons
  obtain ⟨r₂, hclose₂, h₂⟩ := h₁.closeString_of_mem ['é', 'a', 'ß'] (by decide)
  obtain ⟨-, -, -, -, -, hstring, -⟩ := inSource_of_reachable hr
  obtain ⟨body, hbody⟩ := hstring r₁ '"' r₂ hopen₁ hclose₂
  have hs₁ := hs.past h.rest_eq
  obtain rfl := hbody.body_eq (h₂.lexeme?_eq hs₁)
  -- the second one, behind a mark where the first one ends
  have hr₁ : r₁.Reachable Options.default source := by
    have hadvance := hr.mark.advance
    rwa [hopen₁] at hadvance
  have hr₂ := hr₁.closeString hclose₂
  obtain ⟨r₃, hopen₃, h₃⟩ := h₂.mark.advance_cons
  obtain ⟨r₄, hclose₄, h₄⟩ := h₃.closeString_of_mem [] (by decide)
  obtain ⟨-, -, -, -, -, hstring', -⟩ := inSource_of_reachable hr₂
  obtain ⟨body', hbody'⟩ := hstring' r₃ '"' r₄ hopen₃ hclose₄
  have hs₂ := hs₁.past h₂.rest_eq
  obtain rfl := hbody'.body_eq (h₄.lexeme?_eq hs₂)
  exact ⟨hr, r₁, r₂, r₃, r₄, hopen₁, hclose₂, hbody, hopen₃, hclose₄, hbody',
    h₄.start_eq_byteLength hs₂, h₄.current_eq_byteLength hs₂⟩

end Reader
end LoxTokens
