import LoxTokens.Proofs.Integers
import LoxTokens.Proofs.Rounding

/-!
# Fraction literals

A number literal with a point denotes a rational number, and the scanner gives the binary64 number
that this number is rounded to.  Nothing but the rational number counts: not the length of the
literal, and not the zeros at its ends.

* `Decimal.value d` — the rational number that a decimal stands for, and `roundsTo_ofDecimal` says
  that `ofDecimal` rounds it.
* `literalValue whole part` — the rational number that a literal denotes, by the values of the two
  runs of digits.  `value_ofParts` says that the scanner reads that number.
* `tokenize_fraction` — a source that is one literal gives one token.
* `fraction_literals` — the token of a literal is its value correctly rounded.
-/

set_option autoImplicit false

namespace LoxTokens

/-! ## Decimals as rational numbers -/

/-- The rational number that a decimal stands for. -/
def Decimal.value (d : Decimal) : ℚ := d.coefficient * 10 ^ d.exponent

theorem Decimal.numerator_div_denominator (d : Decimal) :
    (d.numerator / d.denominator : ℚ) = d.value := by
  obtain ⟨c, e⟩ := d
  obtain ⟨n, rfl | rfl⟩ := e.eq_nat_or_neg
  · simp [numerator, denominator, value]
  · simp [numerator, denominator, value, div_eq_mul_inv]

theorem Decimal.value_nonneg (d : Decimal) : 0 ≤ d.value :=
  mul_nonneg (Nat.cast_nonneg _) (zpow_nonneg (by norm_num) _)

/-- **A decimal is rounded correctly.** -/
theorem Binary64.roundsTo_ofDecimal (d : Decimal) : RoundsTo d.value (ofDecimal d) := by
  rw [← d.numerator_div_denominator]
  exact roundsTo_ofRatio _ (Nat.pow_pos (by decide))

/-! ## What a literal denotes -/

/-- The rational number that the digits `whole`, a point and the digits `part` denote. -/
def literalValue (whole part : Text) : ℚ :=
  whole.decimalValue + part.decimalValue / 10 ^ part.length

theorem Text.decimalValue_append (s t : Text) :
    decimalValue (s ++ t) = decimalValue t + 10 ^ t.length * decimalValue s := by
  rw [decimalValue, List.reverse_append, List.map_append, Nat.ofDigits_append, List.length_map,
    List.length_reverse]
  rfl

theorem Text.decimalValue_replicate_zero (k : ℕ) : decimalValue (List.replicate k '0') = 0 := by
  rw [← Decimal.ofDigits_eq_decimalValue, Decimal.ofDigits, Nat.ofDigitChars_replicate_zero,
    Nat.mul_zero]

/-- **The scanner reads the number that the literal denotes.** -/
theorem Decimal.value_ofParts (whole part : Text) :
    (ofParts whole part).value = literalValue whole part := by
  have hpow : (10 : ℚ) ^ part.length ≠ 0 := by positivity
  rw [value, ofParts, ofDigits_eq_decimalValue, Text.decimalValue_append, literalValue, zpow_neg,
    zpow_natCast]
  push_cast
  field_simp
  ring

/-- The zeros at the two ends of a literal do not count. -/
theorem literalValue_padded (j k : ℕ) (whole part : Text) :
    literalValue (List.replicate j '0' ++ whole) (part ++ List.replicate k '0') =
      literalValue whole part := by
  have hpow : (10 : ℚ) ^ part.length ≠ 0 := by positivity
  rw [literalValue, literalValue, Text.decimalValue_append, Text.decimalValue_append,
    Text.decimalValue_replicate_zero, Text.decimalValue_replicate_zero, Nat.mul_zero, Nat.add_zero,
    Nat.zero_add, List.length_append, List.length_replicate]
  push_cast
  field_simp
  ring

theorem literalValue_nonneg (whole part : Text) : 0 ≤ literalValue whole part := by
  rw [← Decimal.value_ofParts]
  exact Decimal.value_nonneg _

theorem roundsTo_literalValue (whole part : Text) : Binary64.RoundsTo (literalValue whole part)
    (Binary64.ofDecimal (Decimal.ofParts whole part)) := by
  rw [← Decimal.value_ofParts]
  exact Binary64.roundsTo_ofDecimal _

/-! ## The token of a literal -/

theorem IsDigits.append {ds es : Text} (h : IsDigits ds) (hes : ∀ x ∈ es, x.isDigit = true) :
    IsDigits (ds ++ es) :=
  ⟨List.append_ne_nil_of_left_ne_nil h.1 _, List.forall_mem_append.2 ⟨h.2, hes⟩⟩

theorem IsDigits.prepend {ds es : Text} (h : IsDigits ds) (hes : ∀ x ∈ es, x.isDigit = true) :
    IsDigits (es ++ ds) :=
  ⟨List.append_ne_nil_of_right_ne_nil _ h.1, List.forall_mem_append.2 ⟨hes, h.2⟩⟩

theorem isDigit_of_mem_zeros {k : ℕ} : ∀ x ∈ List.replicate k '0', x.isDigit = true := fun x hx ↦ by
  rw [List.eq_of_mem_replicate hx]
  rfl

/-- A source that is one token text gives its token. -/
theorem TokenText.tokenize_text {w : TokenText} {o : Options} (hw : w.IsShown o) :
    tokenize o w.text = ⟨[w.token o 1, Token.endOfFile (1 + w.text.newlines)], []⟩ := by
  have hspans := spans_of_fits w.fits_nil
  rw [List.append_nil, text_toSpan, spans] at hspans
  have hitems : Span.itemsFrom o 1 (spans w.text) = [w.token o 1].map Item.token := by
    rw [hspans, Span.itemsFrom, item?_toSpan hw]
    rfl
  exact Scanner.tokenize_of_itemsFrom hitems

theorem tokenize_digits (o : Options) {ds : Text} (hds : IsDigits ds)
    (hbound : Decimal.ofDigits ds < 2 ^ 63) : tokenize o ds =
      ⟨[⟨.number (.integer (Int64.ofNat (Decimal.ofDigits ds))), ds, 1⟩, Token.endOfFile 1],
        []⟩ := by
  have hscan := TokenText.tokenize_text (o := o)
    (w := .integer ds (Lexical.mem_digits.2 hds) hbound) trivial
  rw [TokenText.text, hds.newlines_eq] at hscan
  exact hscan

theorem tokenize_fraction (o : Options) {m n : Text} (hm : IsDigits m) (hn : IsDigits n) :
    tokenize o (m ++ '.' :: n) =
      ⟨[⟨.number (Number.ofParts m n), m ++ '.' :: n, 1⟩, Token.endOfFile 1], []⟩ := by
  have hnewlines : Text.newlines (m ++ '.' :: n) = 0 := by
    rw [Text.newlines_append, hm.newlines_eq, Text.newlines_cons, hn.newlines_eq,
      if_neg (by decide)]
  have hscan := TokenText.tokenize_text (o := o)
    (w := .fraction m n (Lexical.mem_digits.2 hm) (Lexical.mem_digits.2 hn)) trivial
  rw [TokenText.text, hnewlines] at hscan
  exact hscan

/-! ## Correct rounding -/

/-- The order of the numbers without a sign, infinity included. -/
theorem Binary64.value_le_of_magnitude_le {x y : Binary64} (hx : x.isNegative = false)
    (hy : y.isNegative = false) (hnan : y.isNaN = false) (h : x.magnitude ≤ y.magnitude) :
    y.isInfinite = true ∨ x.isFinite = true ∧ y.isFinite = true ∧ x.value ≤ y.value := by
  rw [isNaN, decide_eq_false_iff_not, not_lt] at hnan
  rcases hnan.eq_or_lt with hinfinite | hfinite
  · left
    rw [isInfinite, hinfinite, decide_eq_true rfl]
  · right
    rw [value_of_isNegative_eq hx, value_of_isNegative_eq hy, isFinite, isFinite]
    exact ⟨decide_eq_true (h.trans_lt hfinite), decide_eq_true hfinite,
      strictMono_point.monotone h⟩

/-- **Fraction literals are correctly rounded.**  A source that is one literal with a point gives
one token and no error, and its number is the binary64 number nearest to what the literal denotes:
zero up to half of the smallest positive number, infinity from the middle behind the largest finite
number on, and never a NaN.  It depends on what the literal denotes only, and grows with it. -/
theorem fraction_literals (o : Options) {m n : Text} (hm : IsDigits m) (hn : IsDigits n) :
    ∃ x : Binary64,
      tokenize o (m ++ '.' :: n) =
        ⟨[⟨.number (.float x), m ++ '.' :: n, 1⟩, Token.endOfFile 1], []⟩ ∧
      Binary64.RoundsTo (literalValue m n) x ∧
      (literalValue m n ≤ 2 ^ (-1075 : ℤ) → x.bits = 0) ∧
      (2 ^ 1024 - 2 ^ 970 ≤ literalValue m n → x.bits = 0x7ff0000000000000) ∧
      x.isNaN = false ∧ x.isNegative = false ∧
      (∀ (o' : Options) (j k : ℕ),
        let padded := (List.replicate j '0' ++ m) ++ '.' :: (n ++ List.replicate k '0')
        tokenize o' padded = ⟨[⟨.number (.float x), padded, 1⟩, Token.endOfFile 1], []⟩) ∧
      ∀ (o' : Options) {m' n' : Text}, IsDigits m' → IsDigits n' → ∃ x' : Binary64,
        tokenize o' (m' ++ '.' :: n') =
          ⟨[⟨.number (.float x'), m' ++ '.' :: n', 1⟩, Token.endOfFile 1], []⟩ ∧
        (literalValue m n = literalValue m' n' → x = x') ∧
        (literalValue m n ≤ literalValue m' n' → x'.isInfinite = true ∨
          x.isFinite = true ∧ x'.isFinite = true ∧ x.value ≤ x'.value) := by
  obtain ⟨x, hx⟩ : ∃ x, x = Binary64.ofDecimal (Decimal.ofParts m n) := ⟨_, rfl⟩
  have h : Binary64.RoundsTo (literalValue m n) x := hx ▸ roundsTo_literalValue m n
  refine ⟨x, ?_, h, fun hsmall ↦ ?_, fun hlarge ↦ ?_, h.isNaN_eq (literalValue_nonneg m n),
    h.isNegative_eq, fun o' j k ↦ ?_, fun o' m' n' hm' hn' ↦ ?_⟩
  · rw [hx]
    exact tokenize_fraction o hm hn
  · have hpow : (2 : ℚ) ^ (-1075 : ℤ) = 1 / 2 ^ 1074 / 2 := by
      rw [zpow_neg, zpow_ofNat, pow_succ, one_div, mul_inv, ← div_eq_mul_inv]
    rw [hpow, le_div_iff₀ two_pos, mul_comm] at hsmall
    rw [h.eq_zero (literalValue_nonneg m n) hsmall]
    rfl
  · rw [h.eq_infinity hlarge]
    rfl
  · have hsame := roundsTo_literalValue (List.replicate j '0' ++ m) (n ++ List.replicate k '0')
    rw [literalValue_padded] at hsame
    rw [h.unique (literalValue_nonneg m n) hsame]
    exact tokenize_fraction o' (hm.prepend isDigit_of_mem_zeros) (hn.append isDigit_of_mem_zeros)
  · refine ⟨_, tokenize_fraction o' hm' hn', fun heq ↦ ?_, fun hle ↦ ?_⟩
    · rw [heq] at h
      exact h.unique (literalValue_nonneg m' n') (roundsTo_literalValue m' n')
    · have hy := roundsTo_literalValue m' n'
      exact Binary64.value_le_of_magnitude_le h.isNegative_eq hy.isNegative_eq
        (hy.isNaN_eq (literalValue_nonneg m' n')) (h.magnitude_le (literalValue_nonneg m n) hle hy)

/-- The middle of two numbers is rounded to the one with the even significand, zero to zero, and a
one with three hundred and nine zeros to infinity. -/
theorem fraction_literals_halfway :
    let m : Text := "9007199254740993".toList
    let large : Text := '1' :: List.replicate 309 '0'
    (IsDigits m ∧ IsDigits ['0'] ∧ IsDigits large) ∧
    Binary64.RoundsTo (2 ^ 53 + 1) ⟨0x4340000000000000⟩ ∧
    (tokenize {} (m ++ ".0".toList)).tokens =
      [⟨.number (.float ⟨0x4340000000000000⟩), m ++ ".0".toList, 1⟩, Token.endOfFile 1] ∧
    (tokenize {} "0.0".toList).tokens =
      [⟨.number (.float ⟨0⟩), "0.0".toList, 1⟩, Token.endOfFile 1] ∧
    (tokenize {} (large ++ ".0".toList)).tokens =
      [⟨.number (.float ⟨0x7ff0000000000000⟩), large ++ ".0".toList, 1⟩, Token.endOfFile 1] := by
  intro m large
  have hm : IsDigits m := by decide
  have hzero : IsDigits ['0'] := by decide
  have hone : IsDigits ['1'] := by decide
  have hzeros : ∀ x ∈ List.replicate 309 '0', x.isDigit = true := isDigit_of_mem_zeros
  have hlarge : IsDigits large := hone.append hzeros
  have hnone : Text.decimalValue ['0'] = 0 := rfl
  obtain ⟨x, hscan, hx, -⟩ := fraction_literals {} hm hzero
  obtain ⟨y, hscanZero, -, hsmall, -⟩ := fraction_literals {} hzero hzero
  obtain ⟨z, hscanLarge, -, -, hinfinite, -⟩ := fraction_literals {} hlarge hzero
  have hmiddle : literalValue m ['0'] = 2 ^ 53 + 1 := by
    have hdigits : Text.decimalValue m = 2 ^ 53 + 1 := by decide +kernel
    rw [literalValue, hdigits, hnone]
    norm_num
  have hnothing : literalValue ['0'] ['0'] ≤ 2 ^ (-1075 : ℤ) := by
    rw [literalValue, hnone, Nat.cast_zero, zero_div, add_zero]
    exact zpow_nonneg two_pos.le _
  have hbeyond : 2 ^ 1024 - 2 ^ 970 ≤ literalValue large ['0'] := by
    have hdigits : Text.decimalValue large = 10 ^ 309 := by decide +kernel
    have hpow : (2 : ℚ) ^ 1024 ≤ 10 ^ 309 := by
      have hnat : 2 ^ 1024 ≤ 10 ^ 309 := by decide +kernel
      exact_mod_cast hnat
    rw [literalValue, hdigits, hnone, Nat.cast_zero, zero_div, add_zero, Nat.cast_pow]
    exact (sub_le_self _ (by positivity)).trans hpow
  obtain ⟨bits⟩ := y
  obtain ⟨bits'⟩ := z
  obtain rfl : bits = 0 := hsmall hnothing
  obtain rfl : bits' = 0x7ff0000000000000 := hinfinite hbeyond
  have heven : Binary64.ofDecimal (Decimal.ofParts m ['0']) = ⟨0x4340000000000000⟩ := by
    decide +kernel
  obtain rfl := (hx.unique (literalValue_nonneg _ _) (roundsTo_literalValue _ _)).trans heven
  rw [hmiddle] at hx
  exact ⟨⟨hm, hzero, hlarge⟩, hx, congrArg Scan.tokens hscan, congrArg Scan.tokens hscanZero,
    congrArg Scan.tokens hscanLarge⟩

end LoxTokens
