import LoxTokens.Proofs.Run
import Mathlib.Computability.Language

/-!
# Longest match

The scanner decides with one or two characters of lookahead what it reads, and never goes back.
This file says what a lexer does that knows nothing of that: it has six regular languages, and takes
the longest prefix of the input that is in one of them.  The two agree on every input.

* `Lexical.blanks`, `Lexical.comments`, `Lexical.punctuation`, `Lexical.strings`,
  `Lexical.numbers` and `Lexical.words` — the six languages, and `lexical`, their union.
* `IsLongest input w` — `w` is the longest nonempty prefix of `input` in the union.
* `Gives o line w i?` — what a text of the union gives: a token, an error or nothing.
* `Munch o line input w i?` — what the declarative lexer reads and gives, also where no prefix is in
  the union.
* `next_munch` — each round of `Scanner.next` reads and gives just that.
-/

set_option autoImplicit false

open Computability

namespace LoxTokens

/-! ## The six languages -/

namespace Lexical

/-- The texts that consist of one character of a class. -/
def oneOf (p : Char → Prop) : Language Char := {w | ∃ c, p c ∧ w = [c]}

/-- The language of one text. -/
def exactly (t : Text) : Language Char := {w | w = t}

/-- `[ \t\r\n]` -/
def blanks : Language Char := oneOf fun c ↦ c = ' ' ∨ c = '\t' ∨ c = '\r' ∨ c = '\n'

/-- `//[^\n]*` -/
def comments : Language Char := exactly ['/', '/'] * (oneOf (· ≠ '\n'))∗

/-- The nineteen brackets, separators and operators. -/
def punctuation : Language Char := {w | ∃ p : Punct, w = p.text}

/-- `"[^"]*"` -/
def strings : Language Char := exactly ['"'] * (oneOf (· ≠ '"'))∗ * exactly ['"']

/-- `[0-9]` -/
def IsDigit (c : Char) : Prop := '0' ≤ c ∧ c ≤ '9'

/-- `[A-Za-z_]` -/
def IsLetter (c : Char) : Prop := 'A' ≤ c ∧ c ≤ 'Z' ∨ 'a' ≤ c ∧ c ≤ 'z' ∨ c = '_'

/-- `[0-9]+` -/
def digits : Language Char := oneOf IsDigit * (oneOf IsDigit)∗

/-- `[0-9]+(\.[0-9]+)?` -/
def numbers : Language Char := digits * (1 + exactly ['.'] * digits)

/-- `[A-Za-z_][A-Za-z0-9_]*` -/
def words : Language Char := oneOf IsLetter * (oneOf fun c ↦ IsLetter c ∨ IsDigit c)∗

end Lexical

/-- The union of the six languages. -/
def lexical : Language Char :=
  Lexical.blanks + Lexical.comments + Lexical.punctuation + Lexical.strings + Lexical.numbers +
    Lexical.words

/-- The text is the longest nonempty prefix of the input in the union of the languages. -/
structure IsLongest (input w : Text) : Prop where
  mem : w ∈ lexical
  ne_nil : w ≠ []
  isPrefix : w <+: input
  longest : ∀ v ∈ lexical, v <+: input → v.length ≤ w.length

/-- Whether a word spells a keyword. -/
def Keyword.Spells (k : Keyword) (w : Text) : KeywordCase → Prop
  | .exact => k.text = w
  | .insensitive => k.text = w.lower

open Lexical in
/-- What a text of the union gives if it starts on the given line. -/
inductive Gives (o : Options) (line : Nat) : Text → Option Item → Prop
  | blank {w : Text} (hw : w ∈ blanks) : Gives o line w none
  | comment {w : Text} (hw : w ∈ comments) : Gives o line w none
  | punct (p : Punct) : Gives o line p.text (some (.token ⟨.punct p, p.text, line⟩))
  | string {body : Text} (hw : '"' :: body ++ ['"'] ∈ strings)
      (ho : o.emptyStrings = .emit ∨ body ≠ []) :
      Gives o line ('"' :: body ++ ['"']) (some (.token ⟨.string body, body, line⟩))
  | suppressed (ho : o.emptyStrings = .suppress) : Gives o line ['"', '"'] none
  | integer {w : Text} (hw : w ∈ digits) (hv : Decimal.ofDigits w < 2 ^ 63) :
      Gives o line w
        (some (.token ⟨.number (.integer (Int64.ofNat (Decimal.ofDigits w))), w, line⟩))
  | outOfRange {w : Text} (hw : w ∈ digits) (hv : 2 ^ 63 ≤ Decimal.ofDigits w) :
      Gives o line w (some (.error ⟨.invalidNumber w, line⟩))
  | fraction {m n : Text} (hm : m ∈ digits) (hn : n ∈ digits) :
      Gives o line (m ++ '.' :: n)
        (some (.token ⟨.number (Number.ofParts m n), m ++ '.' :: n, line⟩))
  | keyword {w : Text} {k : Keyword} (hw : w ∈ words) (hk : k.Spells w o.keywordCase) :
      Gives o line w (some (.token ⟨.keyword k, w, line⟩))
  | identifier {w : Text} (hw : w ∈ words) (hk : ∀ k : Keyword, ¬ k.Spells w o.keywordCase) :
      Gives o line w (some (.token ⟨.identifier, w, line⟩))

/-- What the declarative lexer reads from a nonempty input that starts on the given line, and what
it makes of it. -/
inductive Munch (o : Options) (line : Nat) (input : Text) : Text → Option Item → Prop
  | lexical {w : Text} {i? : Option Item} (hw : IsLongest input w) (hi : Gives o line w i?) :
      Munch o line input w i?
  | unclosed (hquote : input.head? = some '"') (hnone : ∀ v ∈ lexical, ¬ v <+: input) :
      Munch o line input input (some (.error ⟨.unterminatedString, line + input.newlines⟩))
  | stray {c : Char} (hhead : input.head? = some c) (hquote : c ≠ '"')
      (hnone : ∀ v ∈ lexical, ¬ v <+: input) :
      Munch o line input [c] (some (.error ⟨.unexpectedCharacter c, line⟩))

/-! ## Members of the languages -/

namespace Lexical

variable {p : Char → Prop} {w : Text}

theorem mem_kstar_oneOf : w ∈ (oneOf p)∗ ↔ ∀ x ∈ w, p x := by
  rw [Language.mem_kstar]
  constructor
  · rintro ⟨ws, rfl, hws⟩ x hx
    obtain ⟨v, hv, hxv⟩ := List.mem_flatten.1 hx
    obtain ⟨c, hc, rfl⟩ := hws v hv
    rwa [List.mem_singleton.1 hxv]
  · intro h
    refine ⟨w.map fun c ↦ [c], ?_, fun v hv ↦ ?_⟩
    · rw [← List.flatMap_def, List.flatMap_singleton']
    · obtain ⟨c, hc, rfl⟩ := List.mem_map.1 hv
      exact ⟨c, h c hc, rfl⟩

theorem mem_oneOf_mul {L : Language Char} :
    w ∈ oneOf p * L ↔ ∃ c v, p c ∧ v ∈ L ∧ w = c :: v := by
  rw [Language.mem_mul]
  constructor
  · rintro ⟨_, ⟨c, hc, rfl⟩, v, hv, rfl⟩
    exact ⟨c, v, hc, hv, rfl⟩
  · rintro ⟨c, v, hc, hv, rfl⟩
    exact ⟨[c], ⟨c, hc, rfl⟩, v, hv, rfl⟩

theorem mem_exactly_mul {t : Text} {L : Language Char} :
    w ∈ exactly t * L ↔ ∃ v ∈ L, w = t ++ v := by
  rw [Language.mem_mul]
  constructor
  · rintro ⟨_, rfl, v, hv, rfl⟩
    exact ⟨v, hv, rfl⟩
  · rintro ⟨v, hv, rfl⟩
    exact ⟨t, rfl, v, hv, rfl⟩

theorem mem_blanks : w ∈ blanks ↔ ∃ c, isSeparator c = true ∧ w = [c] :=
  exists_congr fun _ ↦ and_congr_left' isSeparator_iff.symm

theorem mem_comments : w ∈ comments ↔ ∃ body, '\n' ∉ body ∧ w = '/' :: '/' :: body := by
  rw [comments, mem_exactly_mul]
  simp only [mem_kstar_oneOf, List.forall_mem_ne']
  rfl

theorem mem_strings : w ∈ strings ↔ ∃ body, '"' ∉ body ∧ w = '"' :: body ++ ['"'] := by
  rw [strings, mul_assoc, mem_exactly_mul]
  simp only [Language.mem_mul, mem_kstar_oneOf, List.forall_mem_ne']
  constructor
  · rintro ⟨_, ⟨body, hbody, _, rfl, rfl⟩, rfl⟩
    exact ⟨body, hbody, rfl⟩
  · rintro ⟨body, hbody, rfl⟩
    exact ⟨_, ⟨body, hbody, _, rfl, rfl⟩, rfl⟩

theorem isDigit_iff {c : Char} : IsDigit c ↔ c.isDigit = true := by
  rw [Char.isDigit, Bool.and_eq_true, decide_eq_true_eq, decide_eq_true_eq]
  rfl

theorem isLetter_iff {c : Char} : IsLetter c ↔ isWordStart c = true := isWordStart_iff.symm

theorem mem_digits : w ∈ digits ↔ IsDigits w := by
  rw [digits, mem_oneOf_mul]
  simp only [mem_kstar_oneOf, isDigit_iff]
  constructor
  · rintro ⟨d, ds, hd, hds, rfl⟩
    exact ⟨List.cons_ne_nil _ _, List.forall_mem_cons.2 ⟨hd, hds⟩⟩
  · intro h
    obtain ⟨d, ds, rfl, hd, hds⟩ := h.exists_cons
    exact ⟨d, ds, hd, hds, rfl⟩

theorem mem_numbers :
    w ∈ numbers ↔ IsDigits w ∨ ∃ m n, IsDigits m ∧ IsDigits n ∧ w = m ++ '.' :: n := by
  rw [numbers, mul_add, mul_one, Language.mem_add, mem_digits, Language.mem_mul]
  simp only [mem_exactly_mul, mem_digits]
  constructor
  · rintro (h | ⟨m, hm, _, ⟨n, hn, rfl⟩, rfl⟩)
    · exact .inl h
    · exact .inr ⟨m, n, hm, hn, rfl⟩
  · rintro (h | ⟨m, n, hm, hn, rfl⟩)
    · exact .inl h
    · exact .inr ⟨m, hm, _, ⟨n, hn, rfl⟩, rfl⟩

theorem mem_words : w ∈ words ↔ IsWord w := by
  rw [words, mem_oneOf_mul]
  simp only [mem_kstar_oneOf, isLetter_iff, isDigit_iff]
  constructor
  · rintro ⟨c, v, hc, hv, rfl⟩
    exact ⟨c, v, rfl, hc, fun x hx ↦ by simpa [isWordPart] using hv x hx⟩
  · rintro ⟨c, v, rfl, hc, hv⟩
    exact ⟨c, v, hc, fun x hx ↦ by simpa [isWordPart] using hv x hx, rfl⟩

end Lexical

theorem mem_lexical {w : Text} : w ∈ lexical ↔ w ∈ Lexical.blanks ∨ w ∈ Lexical.comments ∨
    w ∈ Lexical.punctuation ∨ w ∈ Lexical.strings ∨ w ∈ Lexical.numbers ∨ w ∈ Lexical.words := by
  simp only [lexical, Language.mem_add, or_assoc]

/-! ## Languages and spans

A text of the union is the text of a span that is complete on its own, and the other way round. -/

namespace Span

/-- The span is of a kind that has a language.  The other kinds are what is left over. -/
def IsLexical : Span → Prop
  | unclosed _ | stray _ => False
  | _ => True

theorem Fits.text_mem_lexical {s : Span} {after : Text} (h : s.Fits after) (hs : s.IsLexical) :
    s.text ∈ lexical := by
  rw [mem_lexical]
  cases h with
  | separator hc => exact .inl (Lexical.mem_blanks.2 ⟨_, hc, rfl⟩)
  | comment hbody hafter => exact .inr (.inl (Lexical.mem_comments.2 ⟨_, hbody, rfl⟩))
  | punct hp => exact .inr (.inr (.inl ⟨_, rfl⟩))
  | quoted hbody => exact .inr (.inr (.inr (.inl (Lexical.mem_strings.2 ⟨_, hbody, rfl⟩))))
  | unclosed hbody => exact hs.elim
  | digits hds hafter hpoint =>
    exact .inr (.inr (.inr (.inr (.inl (Lexical.mem_numbers.2 (.inl hds))))))
  | fraction hwhole hpart hafter =>
    exact .inr (.inr (.inr (.inr (.inl
      (Lexical.mem_numbers.2 (.inr ⟨_, _, hwhole, hpart, rfl⟩))))))
  | word hw hafter => exact .inr (.inr (.inr (.inr (.inr (Lexical.mem_words.2 hw)))))
  | stray => exact hs.elim

theorem fits_digits_nil {ds : Text} (h : IsDigits ds) : (digits ds).Fits [] :=
  Fits.digits h (Text.stops_nil _) (by rintro _ ⟨⟩)

theorem exists_of_mem_lexical {w : Text} (h : w ∈ lexical) :
    ∃ s : Span, s.IsLexical ∧ s.Fits [] ∧ s.text = w := by
  rcases mem_lexical.1 h with h | h | h | h | h | h
  · obtain ⟨c, hc, rfl⟩ := Lexical.mem_blanks.1 h
    exact ⟨separator c, trivial, Fits.separator hc, rfl⟩
  · obtain ⟨body, hbody, rfl⟩ := Lexical.mem_comments.1 h
    exact ⟨comment body, trivial, Fits.comment hbody (Text.stops_nil _), rfl⟩
  · obtain ⟨p, rfl⟩ := h
    exact ⟨punct p, trivial, Fits.punct (fun _ _ h ↦ by cases h), rfl⟩
  · obtain ⟨body, hbody, rfl⟩ := Lexical.mem_strings.1 h
    exact ⟨quoted body, trivial, Fits.quoted hbody, rfl⟩
  · rcases Lexical.mem_numbers.1 h with h | ⟨m, n, hm, hn, rfl⟩
    · exact ⟨digits w, trivial, fits_digits_nil h, rfl⟩
    · exact ⟨fraction m n, trivial, Fits.fraction hm hn (Text.stops_nil _), rfl⟩
  · exact ⟨word w, trivial, Fits.word (Lexical.mem_words.1 h) (Text.stops_nil _), rfl⟩

/-- Spans that are complete on their own are told apart by their texts. -/
theorem Fits.eq_of_text_eq {s t : Span} (hs : s.Fits []) (ht : t.Fits []) (h : s.text = t.text) :
    s = t := by
  obtain ⟨c, rest, hsplit⟩ := List.exists_cons_of_ne_nil hs.text_ne_nil
  have hfirst : first c rest = s := first_of_fits hs (by rw [List.append_nil, hsplit])
  have hfirst' : first c rest = t := first_of_fits ht (by rw [List.append_nil, ← h, hsplit])
  exact hfirst.symm.trans hfirst'

/-! ## The reader finds the longest match -/

theorem length_le_text_readNumber (whole rest : Text) :
    whole.length ≤ (readNumber whole rest).text.length := by
  rw [readNumber.eq_def]
  split
  · split
    · simp [text]
    · exact Nat.le_refl _
  · exact Nat.le_refl _

theorem isLexical_readNumber (whole rest : Text) : (readNumber whole rest).IsLexical := by
  rw [readNumber.eq_def]
  split
  · split <;> trivial
  · trivial

/-- A punctuation mark at the front is read, or something longer that starts with it. -/
theorem length_le_first_of_punct {p : Punct} {c : Char} {rest t : Text}
    (hsplit : c :: rest = p.text ++ t) :
    p.text.length ≤ (first c rest).text.length ∧ (first c rest).IsLexical := by
  by_cases hp : p.Closed t
  · rw [first_of_closed hp hsplit]
    exact ⟨Nat.le_refl _, trivial⟩
  · have hlong : ∃ x u, p.follower? = some x ∧ t = x :: u := by
      simp only [Punct.Closed, not_forall, not_not] at hp
      obtain ⟨x, hx, hhead⟩ := hp
      exact ⟨x, t.tail, hx, List.eq_cons_of_mem_head? hhead⟩
    obtain ⟨x, u, hx, rfl⟩ := hlong
    cases p <;> cases hx <;> obtain ⟨rfl, rfl⟩ := List.cons.inj hsplit
    · rw [List.append_eq, List.nil_append, first_slash_slash]
      exact ⟨by simp [readComment, text, Punct.text], trivial⟩
    all_goals exact ⟨Nat.le_succ 1, trivial⟩

/-- **No text of the union that stands at the front is longer than the span that is read.** -/
theorem length_le_first {v : Text} (hv : v ∈ lexical) {c : Char} {rest : Text}
    (hfront : v <+: c :: rest) :
    v.length ≤ (first c rest).text.length ∧ (first c rest).IsLexical := by
  obtain ⟨s, hs, hfits, rfl⟩ := exists_of_mem_lexical hv
  obtain ⟨t, ht⟩ := hfront
  cases hfits with
  | separator hc =>
    obtain ⟨rfl, rfl⟩ := List.cons.inj ht
    rw [first_of_isSeparator hc]
    exact ⟨Nat.le_refl _, trivial⟩
  | @comment body _ hbody hafter =>
    obtain ⟨rfl, rfl⟩ := List.cons.inj ht
    have hrun : ∀ x ∈ body, (x != '\n') = true := fun x hx ↦ by
      simpa using ne_of_mem_of_not_mem hx hbody
    rw [List.append_eq, List.cons_append, first_slash_slash, readComment,
      List.takeWhile_append_of_pos hrun]
    exact ⟨by simp [text], trivial⟩
  | punct hp => exact length_le_first_of_punct ht.symm
  | @quoted body _ hbody =>
    rw [first_of_fits (Fits.quoted hbody) ht.symm]
    exact ⟨Nat.le_refl _, trivial⟩
  | unclosed hbody => exact hs.elim
  | digits hds hafter hpoint =>
    obtain ⟨d, ds, rfl, hd, hrun⟩ := hds.exists_cons
    obtain ⟨rfl, rfl⟩ := List.cons.inj ht
    rw [first_of_isDigit hd, List.append_eq, List.takeWhile_append_of_pos hrun]
    refine ⟨Nat.le_trans ?_ (length_le_text_readNumber _ _), isLexical_readNumber _ _⟩
    simp [text]
  | fraction hwhole hpart hafter =>
    obtain ⟨d, ds, rfl, hd, hrun⟩ := hwhole.exists_cons
    obtain ⟨e, es, rfl, he, hrun'⟩ := hpart.exists_cons
    simp only [text, List.cons_append, List.append_assoc, List.cons.injEq] at ht
    obtain ⟨rfl, rfl⟩ := ht
    have hstop : Text.Stops Char.isDigit ('.' :: e :: (es ++ t)) := Text.stops_cons.2 rfl
    rw [first_of_isDigit hd, Text.takeWhile_run hrun hstop, Text.dropWhile_run hrun hstop,
      readNumber, if_pos he, List.takeWhile_append_of_pos hrun']
    exact ⟨by simp [text], trivial⟩
  | word hw hafter =>
    obtain ⟨d, w, rfl, hd, hrun⟩ := hw
    obtain ⟨rfl, rfl⟩ := List.cons.inj ht
    rw [first_of_isWordStart hd, List.append_eq, List.takeWhile_append_of_pos hrun]
    exact ⟨by simp [text], trivial⟩
  | stray => exact hs.elim

end Span

/-! ## The outcome of a span -/

theorem Keyword.spells_iff {k : Keyword} {w : Text} {keywordCase : KeywordCase} :
    k.Spells w keywordCase ↔ ofText? keywordCase w = some k := by
  cases keywordCase <;> exact eq_comm.trans lookup_reserved_eq_some_iff.symm

namespace Span

variable {s : Span} {after : Text}

/-- The item of a span in one of the languages is the outcome of its text. -/
theorem Fits.gives (h : s.Fits after) (hs : s.IsLexical) (o : Options) (line : Nat) :
    Gives o line s.text (s.item? o line) := by
  cases h with
  | separator hc => exact Gives.blank (Lexical.mem_blanks.2 ⟨_, hc, rfl⟩)
  | comment hbody hafter => exact Gives.comment (Lexical.mem_comments.2 ⟨_, hbody, rfl⟩)
  | @punct p _ hp => exact Gives.punct p
  | @quoted body _ hbody =>
    rw [item?]
    split
    · next hempty =>
      rw [hempty.1]
      exact Gives.suppressed hempty.2
    · next hempty =>
      refine Gives.string (Lexical.mem_strings.2 ⟨_, hbody, rfl⟩) ?_
      cases ho : o.emptyStrings with
      | emit => exact .inl rfl
      | suppress => exact .inr fun hb ↦ hempty ⟨hb, ho⟩
  | unclosed hbody => exact hs.elim
  | digits hds hafter hpoint =>
    rw [item?_digits hds]
    split
    · next hv => exact Gives.integer (Lexical.mem_digits.2 hds) hv
    · next hv => exact Gives.outOfRange (Lexical.mem_digits.2 hds) (Nat.le_of_not_lt hv)
  | fraction hwhole hpart hafter =>
    exact Gives.fraction (Lexical.mem_digits.2 hwhole) (Lexical.mem_digits.2 hpart)
  | @word w _ hw hafter =>
    have hmem := Lexical.mem_words.2 hw
    rw [item?]
    rcases wordKind_cases o w with ⟨k, hk, hkind⟩ | ⟨hnone, hkind⟩
    · rw [hkind]
      exact Gives.keyword hmem (Keyword.spells_iff.2 hk)
    · rw [hkind]
      refine Gives.identifier hmem fun k hk ↦ ?_
      have hsome := hnone.symm.trans (Keyword.spells_iff.1 hk)
      cases hsome
  | stray => exact hs.elim

end Span

/-- An outcome is the item of a span that is complete on its own. -/
theorem Gives.exists_span {o : Options} {line : Nat} {w : Text} {out : Option Item}
    (h : Gives o line w out) : ∃ s : Span, s.Fits [] ∧ s.text = w ∧ s.item? o line = out := by
  cases h with
  | blank hw =>
    obtain ⟨c, hc, rfl⟩ := Lexical.mem_blanks.1 hw
    exact ⟨.separator c, .separator hc, rfl, rfl⟩
  | comment hw =>
    obtain ⟨body, hbody, rfl⟩ := Lexical.mem_comments.1 hw
    exact ⟨.comment body, .comment hbody (Text.stops_nil _), rfl, rfl⟩
  | punct p => exact ⟨.punct p, .punct (fun _ _ h ↦ by cases h), rfl, rfl⟩
  | @string body hw ho =>
    obtain ⟨body', hbody, heq⟩ := Lexical.mem_strings.1 hw
    obtain rfl : body = body' := by simpa using heq
    refine ⟨.quoted body, .quoted hbody, rfl, if_neg ?_⟩
    rintro ⟨hb, hsuppress⟩
    rcases ho with ho | ho
    · rw [ho] at hsuppress; cases hsuppress
    · exact ho hb
  | suppressed ho => exact ⟨.quoted [], .quoted (by simp), rfl, if_pos ⟨rfl, ho⟩⟩
  | integer hw hv =>
    have hds := Lexical.mem_digits.1 hw
    have hbound : Decimal.ofDigits w < Number.integerBound := hv
    exact ⟨.digits w, Span.fits_digits_nil hds, rfl, by rw [Span.item?_digits hds, if_pos hbound]⟩
  | outOfRange hw hv =>
    have hds := Lexical.mem_digits.1 hw
    have hbound : ¬ Decimal.ofDigits w < Number.integerBound := Nat.not_lt_of_le hv
    exact ⟨.digits w, Span.fits_digits_nil hds, rfl, by rw [Span.item?_digits hds, if_neg hbound]⟩
  | @fraction m n hm hn =>
    exact ⟨.fraction m n, .fraction (Lexical.mem_digits.1 hm) (Lexical.mem_digits.1 hn)
      (Text.stops_nil _), rfl, rfl⟩
  | @keyword _ k hw hk =>
    refine ⟨.word w, .word (Lexical.mem_words.1 hw) (Text.stops_nil _), rfl, ?_⟩
    rw [Span.item?, Span.wordKind, Keyword.spells_iff.1 hk]
    rfl
  | identifier hw hk =>
    refine ⟨.word w, .word (Lexical.mem_words.1 hw) (Text.stops_nil _), rfl, ?_⟩
    rcases Span.wordKind_cases o w with ⟨k, hk', -⟩ | ⟨-, hkind⟩
    · exact absurd (Keyword.spells_iff.2 hk') (hk k)
    · rw [Span.item?, hkind]
      rfl

/-! ## The scanner and the declarative lexer -/

section

variable {o : Options} {line : Nat} {input w w' : Text} {out out' : Option Item}

/-- The union of the languages decides what a text gives. -/
theorem Gives.unique (h : Gives o line w out) (h' : Gives o line w out') : out = out' := by
  obtain ⟨s, hs, rfl, rfl⟩ := h.exists_span
  obtain ⟨t, ht, htext, rfl⟩ := h'.exists_span
  rw [hs.eq_of_text_eq ht htext.symm]

theorem IsLongest.unique (h : IsLongest input w) (h' : IsLongest input w') : w = w' := by
  have hle := h'.longest w h.mem h.isPrefix
  have hge := h.longest w' h'.mem h'.isPrefix
  have hfront : w <+: w' := List.prefix_of_prefix_length_le h.isPrefix h'.isPrefix hle
  exact hfront.eq_of_length (Nat.le_antisymm hle hge)

/-- The declarative lexer has no choice. -/
theorem Munch.unique (h : Munch o line input w out) (h' : Munch o line input w' out') :
    w = w' ∧ out = out' := by
  cases h with
  | lexical hw hi =>
    cases h' with
    | lexical hw' hi' =>
      obtain rfl := hw.unique hw'
      exact ⟨rfl, hi.unique hi'⟩
    | unclosed hquote hnone => exact absurd hw.isPrefix (hnone w hw.mem)
    | stray hhead hquote hnone => exact absurd hw.isPrefix (hnone w hw.mem)
  | unclosed hquote hnone =>
    cases h' with
    | lexical hw' hi' => exact absurd hw'.isPrefix (hnone w' hw'.mem)
    | unclosed hquote' hnone' => exact ⟨rfl, rfl⟩
    | stray hhead hquote' hnone' =>
      rw [hquote, Option.some.injEq] at hhead
      exact absurd hhead.symm hquote'
  | stray hhead hquote hnone =>
    cases h' with
    | lexical hw' hi' => exact absurd hw'.isPrefix (hnone w' hw'.mem)
    | unclosed hquote' hnone' =>
      rw [hquote', Option.some.injEq] at hhead
      exact absurd hhead.symm hquote
    | stray hhead' hquote' hnone' =>
      rw [hhead, Option.some.injEq] at hhead'
      rw [hhead']
      exact ⟨rfl, rfl⟩

end

/-- The span that is read is what the declarative lexer reads. -/
theorem munch_first (o : Options) (line : Nat) (c : Char) (rest : Text) :
    Munch o line (c :: rest) (Span.first c rest).text ((Span.first c rest).item? o line) := by
  obtain ⟨after, hsplit, hfits⟩ := Span.first_spec c rest
  have hlongest : ∀ v ∈ lexical, v <+: c :: rest →
      v.length ≤ (Span.first c rest).text.length ∧ (Span.first c rest).IsLexical :=
    fun _ hv hfront ↦ Span.length_le_first hv hfront
  generalize Span.first c rest = s at hsplit hfits hlongest ⊢
  by_cases hs : s.IsLexical
  · exact Munch.lexical ⟨hfits.text_mem_lexical hs, hfits.text_ne_nil, ⟨after, hsplit.symm⟩,
      fun v hv hfront ↦ (hlongest v hv hfront).1⟩ (hfits.gives hs o line)
  have hnone : ∀ v ∈ lexical, ¬ v <+: c :: rest :=
    fun v hv hfront ↦ hs (hlongest v hv hfront).2
  cases hfits with
  | unclosed hbody =>
    rw [List.append_nil] at hsplit
    have hquote : (c :: rest).head? = some '"' := by rw [hsplit]; rfl
    have h : Munch o line (c :: rest) _ _ := Munch.unclosed hquote hnone
    rw [Span.item?, ← hsplit]
    exact h
  | @stray d _ hseparator hquote hdigit hword hpunct =>
    obtain ⟨rfl, rfl⟩ := List.cons.inj hsplit
    have h : Munch o line (c :: rest) _ _ := Munch.stray rfl hquote hnone
    rw [Span.item?, Span.text, newlines_of_isSeparator hseparator]
    exact h
  | _ => exact absurd trivial hs

/-- **The scanner is a longest-match lexer.**  Where a round of `next` starts with input left, it
reads what the declarative lexer reads there and nothing else, and gives what that gives; if that is
nothing, another round follows. -/
theorem next_munch {s : Scanner} (h : s.cursor.rest ≠ []) : ∃ w out,
    Munch s.options s.cursor.line s.cursor.rest w out ∧
    (∀ w' out', Munch s.options s.cursor.line s.cursor.rest w' out' → w' = w ∧ out' = out) ∧
    s.cursor.rest = w ++ (s.past w).cursor.rest ∧
    s.round = (out.map some, s.past w) ∧
    s.next = match out with
      | some i => (some i, s.past w)
      | none => (s.past w).next := by
  obtain ⟨c, rest, hrest⟩ := List.exists_cons_of_ne_nil h
  obtain ⟨after, hsplit, -⟩ := Span.first_spec c rest
  have hmunch := munch_first s.options s.cursor.line c rest
  rw [← hrest] at hmunch
  refine ⟨_, _, hmunch, fun w' out' h' ↦ h'.unique hmunch, ?_, Scanner.round_of_rest_cons hrest,
    Scanner.next_of_rest_cons hrest⟩
  rw [Scanner.rest_past (hrest.trans hsplit), ← hsplit, hrest]

/-- A point without a digit behind it is left to the next round. -/
theorem next_munch_trailing_point :
    let s := Scanner.ofText Options.default ['1', '2', '.', 'a']
    s.cursor.rest ≠ [] ∧ ∃ w out, Munch s.options 1 ['1', '2', '.', 'a'] w out ∧
      w = ['1', '2'] ∧ s.round = (out.map some, s.past w) ∧ s.next = match out with
        | some i => (some i, s.past w)
        | none => (s.past w).next := by
  intro s
  have hrest : s.cursor.rest ≠ [] := List.cons_ne_nil _ _
  obtain ⟨w, out, hmunch, hunique, -, hround, hnext⟩ := next_munch hrest
  have hfirst : Span.first '1' ['2', '.', 'a'] = .digits ['1', '2'] := by decide
  have hspan := munch_first s.options 1 '1' ['2', '.', 'a']
  rw [hfirst] at hspan
  exact ⟨hrest, w, out, hmunch, (hunique _ _ hspan).1.symm, hround, hnext⟩

end LoxTokens
