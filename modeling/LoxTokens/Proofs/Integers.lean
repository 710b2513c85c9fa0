import LoxTokens.Proofs.Layout
import LoxTokens.Proofs.Tiling
import Mathlib.Data.Nat.Digits.Defs

/-!
# Integer literals

A run of digits can be as long as it likes, but an integer has 64 bits.  A run whose value fits is
an integer with that value, however many zeros it starts with.  Any other run is one error, and the
scan goes on behind it; no value wraps around.

* `Text.decimalValue ds` — the number that the digits `ds` denote in decimal, digit by digit with
  its power of ten.  `ofDigits_eq_decimalValue` says that the scanner's value is this one.
* `Scanner.Resumes source before s` — the next call reads on from behind `before`.  By
  `Scanner.resumes_of_gap` it does so if nothing but a gap is left of `before`.
* `Scanner.AtDigits source before ds after s` — the scanner is about to read the run of digits `ds`.
* `number_of_mem_tokens` — the two ways in which a number is spelled.
* `integer_literals` — what a run of digits gives, wherever it stands.
-/

set_option autoImplicit false

namespace LoxTokens

/-! ## The value of a run of digits -/

/-- The number that a run of digits denotes in decimal. -/
def Text.decimalValue (ds : Text) : ℕ :=
  Nat.ofDigits 10 (ds.reverse.map fun c ↦ c.toNat - '0'.toNat)

theorem Text.decimalValue_concat (ds : Text) (c : Char) :
    decimalValue (ds ++ [c]) = c.toNat - '0'.toNat + 10 * decimalValue ds := by
  rw [decimalValue, decimalValue, List.reverse_concat, List.map_cons, Nat.ofDigits_cons]

/-- **The digits are added up one by one** to the value of the whole run. -/
theorem Decimal.ofDigits_eq_decimalValue (ds : Text) : ofDigits ds = ds.decimalValue := by
  -- on the reversed run, since each step of the sum looks at the last digit
  obtain ⟨rs, rfl⟩ := List.reverse_surjective ds
  induction rs with
  | nil => rfl
  | cons c rs ih =>
    rw [List.reverse_cons, Text.decimalValue_concat, ← ih, ofDigits, ofDigits,
      Nat.ofDigitChars_append, Nat.ofDigitChars_cons, Nat.ofDigitChars_nil, Nat.add_comm]

/-! ## Behind a gap -/

namespace Scanner

variable {source before after : Text} {s : Scanner} {o : Options}

/-- The next call reads on from behind `before`: it does what a scanner does that stands there. -/
def Resumes (source before : Text) (s : Scanner) : Prop :=
  ∃ s' : Scanner, s.next = s'.next ∧ s'.options = s.options ∧ s'.StandsIn source before

/-- A round without an item does not show. -/
theorem Resumes.of_silent {v : Span} (hrest : s.cursor.rest = v.text ++ after) (hv : v.Fits after)
    (hsilent : v.item? s.options s.cursor.line = none)
    (h : (s.past v.text).Resumes source before) : s.Resumes source before := by
  have hnext := next_of_fits hrest hv
  rw [hsilent] at hnext
  obtain ⟨s', hnext', ho, hs'⟩ := h
  exact ⟨s', hnext.trans hnext', ho, hs'⟩

/-- **A gap is read without a trace.** -/
theorem resumes_of_gap {g : Text} (hg : Gap s.options g after) (hs : s.StandsIn source before)
    (hrest : s.cursor.rest = g ++ after) : s.Resumes source (before ++ g) := by
  obtain ⟨o, ho⟩ : ∃ o, s.options = o := ⟨_, rfl⟩
  rw [ho] at hg
  -- the pieces of the gap are spans without an item
  induction hg generalizing s before with
  | nil =>
    rw [List.append_nil]
    exact ⟨s, rfl, rfl, hs⟩
  | @separator c g after hc hg ih =>
    have hseparator : isSeparator c = true := by rcases hc with rfl | rfl | rfl | rfl <;> rfl
    have hpast := ih (hs.past (w := [c]) hrest) (rest_past hrest) ho
    rw [List.append_assoc] at hpast
    exact Resumes.of_silent hrest (Span.Fits.separator hseparator) rfl hpast
  | @comment body g after hbody hend hg ih =>
    have hrest' : s.cursor.rest = (Span.comment body).text ++ (g ++ after) := by
      rw [hrest, List.append_assoc, Span.text]
    have hpast := ih (hs.past hrest') (rest_past hrest') ho
    rw [List.append_assoc] at hpast
    refine Resumes.of_silent hrest' (Span.Fits.comment hbody fun x hx ↦ ?_) rfl hpast
    rw [hend x hx]
    rfl
  | @emptyString g after hempty hg ih =>
    have hpast := ih (hs.past (w := ['"', '"']) hrest) (rest_past hrest) ho
    rw [List.append_assoc] at hpast
    refine Resumes.of_silent (v := .quoted []) hrest (Span.Fits.quoted (by simp)) ?_ hpast
    exact if_pos ⟨rfl, ho ▸ hempty⟩

/-- A call in front of a span with an item gives the item and stops behind the span. -/
theorem Resumes.next_of_fits (h : s.Resumes source before) {v : Span} (hv : v.Fits after)
    (hsource : source = before ++ (v.text ++ after)) {i : Item}
    (hi : v.item? s.options (1 + before.newlines) = some i) :
    s.next.1 = some i ∧ s.next.2.StandsIn source (before ++ v.text) ∧
      s.next.2.options = s.options := by
  obtain ⟨s', hnext, ho, hs'⟩ := h
  have hrest : s'.cursor.rest = v.text ++ after :=
    List.append_cancel_left (hs'.source_eq.symm.trans hsource)
  have hnext' := Scanner.next_of_fits hrest hv
  rw [ho, hs'.line_eq, hi] at hnext'
  rw [hnext, hnext']
  exact ⟨rfl, hs'.past hrest, ho⟩

end Scanner

/-! ## What a run of digits gives -/

/-- A number token is spelled as digits with a value that fits, or as digits around a point. -/
theorem number_of_mem_tokens {o : Options} {source : Text} {t : Token} {n : Number}
    (ht : t ∈ (tokenize o source).tokens) (hn : t.kind = .number n) :
    (IsDigits t.lexeme ∧ Decimal.ofDigits t.lexeme < 2 ^ 63 ∧
        n = .integer (Int64.ofNat (Decimal.ofDigits t.lexeme))) ∨
      ∃ whole part, IsDigits whole ∧ IsDigits part ∧ t.lexeme = whole ++ '.' :: part ∧
        n = Number.ofParts whole part := by
  obtain ⟨ts, line, htokens, hts⟩ := exists_tokens_eq o source
  rw [htokens] at ht
  rcases List.mem_append.1 ht with ht | ht
  · obtain ⟨w, line', rfl, -⟩ := hts t ht
    cases w with
    | integer ds hds hbound =>
      cases hn
      exact .inl ⟨Lexical.mem_digits.1 hds, hbound, rfl⟩
    | fraction whole part hwhole hpart =>
      cases hn
      exact .inr ⟨whole, part, Lexical.mem_digits.1 hwhole, Lexical.mem_digits.1 hpart, rfl, rfl⟩
    | word w hw =>
      rcases Span.wordKind_cases o w with ⟨k, -, hk⟩ | ⟨-, hk⟩ <;> cases hk.symm.trans hn
    | punct p => cases hn
    | string body hbody => cases hn
  · obtain rfl := List.mem_singleton.1 ht
    cases hn

/-- The scanner is about to read the run of digits `ds` behind `before`: what it has not read of
`before` is a gap, and no other digit follows the run. -/
structure Scanner.AtDigits (source before ds after : Text) (s : Scanner) : Prop where
  isDigits : IsDigits ds
  stops : after.Stops Char.isDigit
  exists_gap : ∃ front gap, s.StandsIn source front ∧ before = front ++ gap ∧
    s.cursor.rest = gap ++ (ds ++ after) ∧ Gap s.options gap (ds ++ after)

namespace Scanner.AtDigits

variable {source before ds after : Text} {s : Scanner}

theorem resumes (h : s.AtDigits source before ds after) :
    s.Resumes source before ∧ source = before ++ (ds ++ after) := by
  obtain ⟨front, gap, hs, rfl, hrest, hgap⟩ := h.exists_gap
  refine ⟨resumes_of_gap hgap hs hrest, ?_⟩
  rw [hs.source_eq, hrest, List.append_assoc]

/-- A run of digits that nothing continues is read as an integer literal. -/
theorem next_digits (h : s.AtDigits source before ds after)
    (hpoint : ∀ d t, after = '.' :: d :: t → d.isDigit = false) :
    s.next.1 = some (if Decimal.ofDigits ds < 2 ^ 63 then
        .token ⟨.number (.integer (Int64.ofNat (Decimal.ofDigits ds))), ds, 1 + before.newlines⟩
      else .error ⟨.invalidNumber ds, 1 + before.newlines⟩) ∧
    s.next.2.StandsIn source (before ++ ds) ∧ s.next.2.options = s.options := by
  have hpoint' : ∀ t : Text, after = '.' :: t → t.Stops Char.isDigit := by
    rintro (_ | ⟨d, t⟩) ht
    · exact Text.stops_nil _
    · exact Text.stops_cons.2 (hpoint d t ht)
  obtain ⟨hresumes, hsource⟩ := h.resumes
  exact hresumes.next_of_fits (Span.Fits.digits h.isDigits h.stops hpoint') hsource
    (Span.item?_digits h.isDigits _ _)

/-- A run of digits with a point and a digit behind it goes on to the end of the fraction. -/
theorem next_fraction {d : Char} {t : Text} (h : s.AtDigits source before ds ('.' :: d :: t))
    (hd : d.isDigit = true) : ∃ part t', d :: t = part ++ t' ∧ IsDigits part ∧
      Text.Stops Char.isDigit t' ∧
      s.next.1 = some (.token ⟨.number (Number.ofParts ds part), ds ++ '.' :: part,
        1 + before.newlines⟩) ∧
      s.next.2.StandsIn source (before ++ (ds ++ '.' :: part)) ∧
      s.next.2.options = s.options := by
  have hpart := isDigits_cons_takeWhile hd t
  have hstop := Text.stops_dropWhile Char.isDigit t
  have hsplit : d :: t = d :: t.takeWhile Char.isDigit ++ t.dropWhile Char.isDigit := by
    rw [List.cons_append, List.takeWhile_append_dropWhile]
  have htext : (Span.fraction ds (d :: t.takeWhile Char.isDigit)).text ++
      t.dropWhile Char.isDigit = ds ++ '.' :: d :: t := by
    rw [Span.text, List.append_assoc, List.cons_append, ← hsplit]
  obtain ⟨hresumes, hsource⟩ := h.resumes
  rw [← htext] at hsource
  exact ⟨_, _, hsplit, hpart, hstop,
    hresumes.next_of_fits (Span.Fits.fraction h.isDigits hpart hstop) hsource rfl⟩

end Scanner.AtDigits

/-- **Integer literals never wrap.**  Wherever the scanner gets to a run of digits, without a point
and a digit behind it, it gives the integer of that value if there is one, and otherwise the error
that names the run, and goes on behind the run.  With a point and a digit behind it the run makes no
error, and no integer that is scanned is negative. -/
theorem integer_literals :
    (∀ (source before ds after : Text) (s : Scanner), s.AtDigits source before ds after →
      ((∀ d t, after = '.' :: d :: t → d.isDigit = false) →
        (ds.decimalValue ≤ 2 ^ 63 - 1 → ∃ v : Int64, v.toInt = ds.decimalValue ∧
          s.next.1 = some (.token ⟨.number (.integer v), ds, 1 + before.newlines⟩)) ∧
        (2 ^ 63 - 1 < ds.decimalValue → ∃ f : Fault, f = .invalidNumber ds ∧
          f.message = "Integer literal '".toList ++ ds ++ "' is out of range.".toList ∧
          s.next.1 = some (.error ⟨f, 1 + before.newlines⟩)) ∧
        s.next.2.StandsIn source (before ++ ds) ∧ s.next.2.options = s.options) ∧
      ∀ d t, after = '.' :: d :: t → d.isDigit = true → ∃ part t' x, d :: t = part ++ t' ∧
        IsDigits part ∧ Text.Stops Char.isDigit t' ∧
        s.next.1 = some (.token ⟨.number (.float x), ds ++ '.' :: part, 1 + before.newlines⟩) ∧
        s.next.2.StandsIn source (before ++ (ds ++ '.' :: part)) ∧
        s.next.2.options = s.options) ∧
    ∀ (o : Options) (source : Text), ∀ t ∈ (tokenize o source).tokens, ∀ v : Int64,
      t.kind = .number (.integer v) → 0 ≤ v.toInt ∧ v.toInt = t.lexeme.decimalValue := by
  refine ⟨fun source before ds after s h ↦ ⟨fun hpoint ↦ ?_, ?_⟩, fun o source t ht v hv ↦ ?_⟩
  · obtain ⟨hnext, hstands, ho⟩ := h.next_digits hpoint
    rw [← Decimal.ofDigits_eq_decimalValue]
    refine ⟨fun hle ↦ ?_, fun hlt ↦ ?_, hstands, ho⟩
    · have hvalue : Decimal.ofDigits ds < 2 ^ 63 := by omega
      rw [if_pos hvalue] at hnext
      exact ⟨_, Int64.toInt_ofNat_of_lt hvalue, hnext⟩
    · have hvalue : ¬ Decimal.ofDigits ds < 2 ^ 63 := by omega
      rw [if_neg hvalue] at hnext
      exact ⟨_, rfl, rfl, hnext⟩
  · rintro d t rfl hd
    obtain ⟨part, t', hsplit, hpart, hstop, hnext, hstands, ho⟩ := h.next_fraction hd
    exact ⟨part, t', _, hsplit, hpart, hstop, hnext, hstands, ho⟩
  · obtain ⟨-, hbound, hinteger⟩ | ⟨whole, part, -, -, -, hfloat⟩ := number_of_mem_tokens ht hv
    · cases hinteger
      rw [Int64.toInt_ofNat_of_lt hbound, Decimal.ofDigits_eq_decimalValue]
      exact ⟨Int.natCast_nonneg _, rfl⟩
    · cases hfloat

/-- The largest integer, the first number that is none and a fraction of it, each with a zero in
front, behind a comment and a line feed. -/
theorem integer_literals_largest :
    let gap := ['/', '/', '1', '\n']
    let s (t : Text) := Scanner.ofText Options.default (gap ++ t)
    let largest := "09223372036854775807".toList
    let tooLarge := "09223372036854775808".toList
    (s (largest ++ ['.'])).AtDigits (gap ++ (largest ++ ['.'])) gap largest ['.'] ∧
    (∃ v : Int64, v.toInt = 2 ^ 63 - 1 ∧
      (s (largest ++ ['.'])).next.1 = some (.token ⟨.number (.integer v), largest, 2⟩)) ∧
    (s (tooLarge ++ ['.'])).next.1 = some (.error ⟨.invalidNumber tooLarge, 2⟩) ∧
    (∃ x, (s (tooLarge ++ ".5".toList)).next.1 =
      some (.token ⟨.number (.float x), tooLarge ++ ".5".toList, 2⟩)) ∧
    ∃ t ∈ (tokenize Options.default largest).tokens, ∃ v : Int64,
      t.kind = .number (.integer v) ∧ 0 ≤ v.toInt := by
  intro gap s largest tooLarge
  have hat : ∀ ds after : Text, IsDigits ds → after.Stops Char.isDigit →
      (s (ds ++ after)).AtDigits (gap ++ (ds ++ after)) gap ds after := fun ds after hds hafter ↦ by
    have hfeed : Gap Options.default ['\n'] (ds ++ after) :=
      Gap.separator (.inr (.inr (.inr rfl))) Gap.nil
    have hbody : '\n' ∉ ['1'] := by decide
    have hcomment : Gap Options.default gap (ds ++ after) :=
      Gap.comment hbody (by rintro _ ⟨⟩; rfl) hfeed
    exact ⟨hds, hafter, [], gap, Scanner.standsIn_ofText _ _, rfl, rfl, hcomment⟩
  have hlargest : IsDigits largest := by decide
  have htooLarge : IsDigits tooLarge := by decide
  have hinteger := hat largest ['.'] hlargest (Text.stops_cons.2 rfl)
  have hfault := hat tooLarge ['.'] htooLarge (Text.stops_cons.2 rfl)
  have hfraction := hat tooLarge ".5".toList htooLarge (Text.stops_cons.2 rfl)
  obtain ⟨v, hv, hnext⟩ :=
    ((integer_literals.1 _ _ _ _ _ hinteger).1 (by simp)).1 (by decide +kernel)
  obtain ⟨f, rfl, -, herror⟩ :=
    ((integer_literals.1 _ _ _ _ _ hfault).1 (by simp)).2.1 (by decide +kernel)
  obtain ⟨part, t', x, hsplit, hpart, -, hfloat, -⟩ :=
    (integer_literals.1 _ _ _ _ _ hfraction).2 '5' [] rfl rfl
  obtain ⟨d, ds, rfl, -, -⟩ := hpart.exists_cons
  obtain ⟨rfl, hnil⟩ := List.cons.inj hsplit
  obtain ⟨rfl, -⟩ := List.append_eq_nil_iff.1 hnil.symm
  have htoken : (⟨.number (.integer (Int64.ofNat 9223372036854775807)), largest, 1⟩ : Token) ∈
      (tokenize Options.default largest).tokens := by decide +kernel
  refine ⟨hinteger, ⟨v, hv.trans (by decide +kernel), hnext⟩, herror, ⟨x, hfloat⟩, _, htoken, _,
    rfl, (integer_literals.2 _ _ _ htoken _ rfl).1⟩

end LoxTokens
