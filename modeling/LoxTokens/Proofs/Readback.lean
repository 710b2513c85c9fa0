import LoxTokens.Proofs.Shortest

/-!
# Reading numbers back

The text in which a number is displayed is itself a literal, as long as it has no exponent, and
scanning it gives the number back.  With an exponent it is no literal, but it denotes a decimal that
rounds to the number.

* `IsPositional w q` and `IsScientific w q` — the two notations, with the number that they denote.
* `Decimal.text_spec` — a decimal is written so that its text denotes it, in the notation that its
  size calls for.
* `Binary64.range_iff` — the shortest decimal and the number itself are on the same side of the two
  bounds of the positional notation.
* `numbers_read_back` — number tokens are displayed so that they can be read back.
-/

set_option autoImplicit false

namespace LoxTokens

/-! ## Notations -/

/-- The text consists of digits around a point, and denotes the number. -/
def IsPositional (w : Text) (q : ℚ) : Prop :=
  ∃ whole part, IsDigits whole ∧ IsDigits part ∧ w = whole ++ '.' :: part ∧
    q = literalValue whole part

/-- The text consists of a digit, more digits behind a point if there are any, and a power of ten,
and denotes the number. -/
inductive IsScientific : Text → ℚ → Prop
  | digit {d : Char} (hd : d.isDigit = true) (n : ℤ) :
      IsScientific (d :: 'e' :: Text.ofInt n) (Text.decimalValue [d] * 10 ^ n)
  | fraction {d : Char} {ds : Text} (hd : d.isDigit = true) (hds : IsDigits ds) (n : ℤ) :
      IsScientific (d :: '.' :: ds ++ 'e' :: Text.ofInt n) (literalValue [d] ds * 10 ^ n)

theorem literalValue_eq (whole part : Text) : literalValue whole part =
    (whole ++ part).decimalValue * 10 ^ (-part.length : ℤ) := by
  rw [← Decimal.value_ofParts, Decimal.value, Decimal.ofParts, Decimal.ofDigits_eq_decimalValue]

theorem Text.isDigits_ofNat (n : ℕ) : IsDigits (ofNat n) :=
  ⟨Nat.toDigits_ne_nil, fun _ hx ↦ Nat.isDigit_of_mem_toDigits (by decide) (by decide) hx⟩

theorem Decimal.ofDigits_ofNat (n : ℕ) : ofDigits (Text.ofNat n) = n :=
  Nat.ofDigitChars_ten_toDigits

namespace Decimal

section

variable {ds : Text}

/-- **The positional notation** denotes the digits with the point in its place. -/
theorem isPositional_positional (hds : IsDigits ds) (point : ℤ) :
    IsPositional (positional ds point) (ds.decimalValue * 10 ^ (point - ds.length)) := by
  have hzero : IsDigits ['0'] := by decide
  have hnone : Text.decimalValue ['0'] = 0 := rfl
  rw [positional]
  split
  · next hle =>
    refine ⟨['0'], _, hzero, hds.prepend isDigit_of_mem_zeros, rfl, ?_⟩
    have hplaces : (-((List.replicate (-point).toNat '0' ++ ds).length : ℕ) : ℤ) =
        point - ds.length := by
      rw [List.length_append, List.length_replicate]
      omega
    rw [literalValue_eq, Text.decimalValue_append, Text.decimalValue_append, hnone,
      Text.decimalValue_replicate_zero, Nat.mul_zero, Nat.mul_zero, Nat.add_zero, hplaces]
  split
  · next hle =>
    refine ⟨_, ['0'], hds.append isDigit_of_mem_zeros, hzero, rfl, ?_⟩
    have hplaces : point - ds.length = (point.toNat - ds.length : ℕ) := by omega
    rw [literalValue, Text.decimalValue_append, Text.decimalValue_replicate_zero, hnone,
      List.length_replicate, Nat.cast_zero, zero_div, add_zero, Nat.zero_add, hplaces, zpow_natCast]
    push_cast
    ring
  · next hpos hlt =>
    have htake : IsDigits (ds.take point.toNat) :=
      ⟨List.ne_nil_of_length_pos (by rw [List.length_take]; omega),
        fun x hx ↦ hds.2 x (List.mem_of_mem_take hx)⟩
    have hdrop : IsDigits (ds.drop point.toNat) :=
      ⟨List.ne_nil_of_length_pos (by rw [List.length_drop]; omega),
        fun x hx ↦ hds.2 x (List.mem_of_mem_drop hx)⟩
    have hplaces : (-((ds.drop point.toNat).length : ℕ) : ℤ) = point - ds.length := by
      rw [List.length_drop]
      omega
    refine ⟨_, _, htake, hdrop, rfl, ?_⟩
    rw [literalValue_eq, List.take_append_drop, hplaces]

/-- **The notation with an exponent** denotes the digits with the point behind the first one. -/
theorem isScientific_scientific (hds : IsDigits ds) (n : ℤ) :
    IsScientific (scientific ds n) (ds.decimalValue * 10 ^ (n + 1 - ds.length)) := by
  obtain ⟨d, ds, rfl, hd, hrest⟩ := hds.exists_cons
  cases ds with
  | nil =>
    have hplace : n + 1 - ([d].length : ℕ) = n := by
      rw [List.length_singleton]
      omega
    rw [hplace]
    exact IsScientific.digit hd n
  | cons e es =>
    have hplace : n + 1 - ((d :: e :: es).length : ℕ) = -((e :: es).length : ℕ) + n := by
      rw [List.length_cons]
      omega
    have hvalue : (Text.decimalValue (d :: e :: es) : ℚ) *
        10 ^ (n + 1 - ((d :: e :: es).length : ℕ) : ℤ) = literalValue [d] (e :: es) * 10 ^ n := by
      rw [literalValue_eq, hplace, zpow_add₀ (by norm_num), mul_assoc]
      rfl
    rw [hvalue]
    exact IsScientific.fraction hd ⟨List.cons_ne_nil e es, hrest⟩ n

end

/-- Where the positional notation is used. -/
def InRange (q : ℚ) : Prop := 10 ^ (-4 : ℤ) ≤ q ∧ q < 10 ^ (16 : ℤ)

/-- The place of the point says whether the number is in the range. -/
theorem inRange_iff {d : Decimal} (h : d.coefficient ≠ 0) : InRange d.value ↔
    -4 < d.digits.length + d.exponent ∧ d.digits.length + d.exponent ≤ 16 := by
  obtain ⟨hlower, hupper⟩ := pow_le_and_lt_pow h
  have hpos : 0 < d.digits.length := List.length_pos_iff.2 Nat.toDigits_ne_nil
  rw [← pow_le_value_iff] at hlower
  rw [← value_lt_pow_iff] at hupper
  have hten : (1 : ℚ) < 10 := by norm_num
  constructor
  · rintro ⟨hsmall, hlarge⟩
    have hleft := (zpow_lt_zpow_iff_right₀ hten).1 (hsmall.trans_lt hupper)
    have hright := (zpow_lt_zpow_iff_right₀ hten).1 (hlower.trans_lt hlarge)
    omega
  · rintro ⟨hleft, hright⟩
    exact ⟨(zpow_le_zpow_right₀ hten.le (by omega)).trans hlower,
      hupper.trans_le (zpow_le_zpow_right₀ hten.le (by omega))⟩

/-- **A decimal is written so that its text denotes it**, in the notation that its size calls
for. -/
theorem text_spec {d : Decimal} (h : d.coefficient ≠ 0) :
    (InRange d.value → IsPositional d.text d.value) ∧
      (¬ InRange d.value → IsScientific d.text d.value) := by
  have hdigits : IsDigits d.digits := Text.isDigits_ofNat _
  have hcoefficient : d.digits.decimalValue = d.coefficient := by
    rw [← ofDigits_eq_decimalValue]
    exact ofDigits_ofNat _
  rw [inRange_iff h, text]
  refine ⟨fun hrange ↦ ?_, fun hrange ↦ ?_⟩
  · have hpositional := isPositional_positional hdigits (d.digits.length + d.exponent)
    rw [hcoefficient, add_sub_cancel_left] at hpositional
    rw [if_pos hrange]
    exact hpositional
  · have hscientific := isScientific_scientific hdigits (d.digits.length + d.exponent - 1)
    rw [hcoefficient, sub_add_cancel, add_sub_cancel_left] at hscientific
    rw [if_neg hrange]
    exact hscientific

end Decimal

namespace Binary64

/-! ## The bounds of the positional notation -/

theorem value_of_fields {x : Binary64} {p s : ℕ} (hsign : x.isNegative = false)
    (hp : x.significand = p) (hs : x.scale = s) : x.value = p * 2 ^ ((s : ℤ) - 1074) := by
  rw [value, hsign, hp, hs, if_neg Bool.false_ne_true, one_mul]

/-- The lower bound is not a binary64 number, and is rounded up. -/
theorem lower_le_value {x : Binary64} (h : RoundsTo (10 ^ (-4 : ℤ)) x) :
    10 ^ (-4 : ℤ) ≤ x.value := by
  have hbound : (10 : ℚ) ^ (-4 : ℤ) = Decimal.value ⟨1, -4⟩ := by simp [Decimal.value]
  have hbits : ofDecimal ⟨1, -4⟩ = ⟨0x3f1a36e2eb1c432d⟩ := by decide +kernel
  rw [hbound, ← ofDecimal_eq_iff, hbits] at h
  subst h
  rw [value_of_fields (p := 7378697629483821) (s := 1008) (by decide) (by decide) (by decide)]
  norm_num

/-- The upper bound is a binary64 number. -/
theorem value_eq_upper {x : Binary64} (h : RoundsTo (10 ^ (16 : ℤ)) x) :
    x.value = 10 ^ (16 : ℤ) := by
  have hbound : (10 : ℚ) ^ (16 : ℤ) = Decimal.value ⟨1, 16⟩ := by simp [Decimal.value]
  have hbits : ofDecimal ⟨1, 16⟩ = ⟨0x4341c37937e08000⟩ := by decide +kernel
  rw [hbound, ← ofDecimal_eq_iff, hbits] at h
  subst h
  rw [value_of_fields (p := 5000000000000000) (s := 1075) (by decide) (by decide) (by decide)]
  norm_num

/-- **The shortest decimal is on the same side of the bounds** as the number. -/
theorem range_iff {x : Binary64} (hsign : x.isNegative = false) (hx : x.isFinite = true)
    (hne : x.value ≠ 0) : Decimal.InRange x.shortest.value ↔ Decimal.InRange x.value := by
  obtain ⟨hshortest, -, top, ⟨hlower, hupper⟩, hlower', hupper'⟩ := shortest_spec hsign hx hne
  have hself := roundsTo_value hsign hx
  have hten : (1 : ℚ) < 10 := by norm_num
  have hnonneg : 0 ≤ x.value := by
    rw [value_of_isNegative_eq hsign]
    exact point_nonneg _
  rw [Decimal.InRange, Decimal.InRange]
  refine and_congr ⟨fun h ↦ ?_, fun h ↦ ?_⟩ ⟨fun h ↦ ?_, fun h ↦ ?_⟩
  · by_contra hlt
    rw [not_le] at hlt
    -- a bound between the two would be rounded to the number as well
    exact hlt.not_ge (lower_le_value (hself.between hnonneg hlt.le h hshortest))
  · have htop := (zpow_lt_zpow_iff_right₀ hten).1 (h.trans_lt hupper)
    exact (zpow_le_zpow_right₀ hten.le (by omega)).trans hlower'
  · by_contra hle
    rw [not_lt] at hle
    have htop := (zpow_lt_zpow_iff_right₀ hten).1 (hle.trans_lt hupper)
    exact h.not_ge ((zpow_le_zpow_right₀ hten.le (by omega)).trans hlower')
  · by_contra hle
    rw [not_lt] at hle
    exact h.ne (value_eq_upper (hself.between hnonneg h.le hle hshortest))

theorem text_eq {x : Binary64} (hsign : x.isNegative = false) (hx : x.isFinite = true)
    (hne : x.value ≠ 0) : x.text = x.shortest.text := by
  have hmagnitude : x.magnitude ≠ 0 := by
    intro hzero
    rw [value_of_isNegative_eq hsign, hzero, point_zero] at hne
    exact hne rfl
  rw [isFinite, decide_eq_true_eq] at hx
  rw [text, isNaN, decide_eq_false hx.not_gt, hsign, isInfinite, decide_eq_false hx.ne, isZero,
    decide_eq_false hmagnitude]
  rfl

/-- **A number is displayed as a shortest decimal that rounds to it.** -/
theorem exists_text {x : Binary64} (hsign : x.isNegative = false) (hx : x.isFinite = true) :
    ∃ d : Decimal, RoundsTo d.value x ∧
      (∀ d' : Decimal, RoundsTo d'.value x → d.significant ≤ d'.significant) ∧
      (x.value = 0 ∨ Decimal.InRange x.value → IsPositional x.text d.value) ∧
      (¬ (x.value = 0 ∨ Decimal.InRange x.value) → IsScientific x.text d.value) := by
  have hself := roundsTo_value hsign hx
  rcases eq_or_ne x.value 0 with hzero | hne
  · have hnone : Decimal.value ⟨0, 0⟩ = 0 := by rw [Decimal.value, Nat.cast_zero, zero_mul]
    rw [hzero] at hself
    refine ⟨⟨0, 0⟩, by rwa [hnone], fun d' _ ↦ Nat.zero_le _, fun _ ↦ ?_,
      fun h ↦ absurd (.inl hzero) h⟩
    obtain rfl := hself.eq_zero le_rfl (by rw [mul_zero]; positivity)
    refine ⟨['0'], ['0'], by decide, by decide, rfl, ?_⟩
    have hdigit : Text.decimalValue ['0'] = 0 := rfl
    rw [hnone, literalValue, hdigit, Nat.cast_zero, zero_div, add_zero]
  · obtain ⟨hshortest, hminimal, -⟩ := shortest_spec hsign hx hne
    have hcoefficient := mt Decimal.value_eq_zero_iff.2 (hshortest.ne_zero hne)
    obtain ⟨hpositional, hscientific⟩ := Decimal.text_spec hcoefficient
    rw [range_iff hsign hx hne] at hpositional hscientific
    rw [or_iff_right hne, text_eq hsign hx hne]
    exact ⟨_, hshortest, hminimal, hpositional, hscientific⟩

end Binary64

/-! ## Reading back -/

theorem TokenKind.text_integer (v : Int64) : (number (.integer v)).text =
    "NUMBER(INTEGER(".toList ++ Text.ofInt v.toInt ++ "))".toList := by
  have hdisplay : ∀ w : Text, "NUMBER(".toList ++ ("INTEGER(".toList ++ w ++ [')']) ++ [')'] =
      "NUMBER(INTEGER(".toList ++ w ++ "))".toList := by simp
  exact hdisplay _

theorem TokenKind.text_float (x : Binary64) : (number (.float x)).text =
    "NUMBER(FLOATING_POINT(".toList ++ x.text ++ "))".toList := by
  have hdisplay : ∀ w : Text,
      "NUMBER(".toList ++ ("FLOATING_POINT(".toList ++ w ++ [')']) ++ [')'] =
        "NUMBER(FLOATING_POINT(".toList ++ w ++ "))".toList := by simp
  exact hdisplay _

/-- An integer is displayed as digits that have its value. -/
theorem tokenize_integer (o : Options) {v : Int64} (hv : 0 ≤ v.toInt) :
    tokenize o (Text.ofInt v.toInt) =
      ⟨[⟨.number (.integer v), Text.ofInt v.toInt, 1⟩, Token.endOfFile 1], []⟩ := by
  obtain ⟨n, hn⟩ := Int.eq_ofNat_of_zero_le hv
  have hbound : n < 2 ^ 63 := by
    have hlt := v.toInt_lt
    omega
  have hvalue : Int64.ofNat n = v := by
    rw [← Int64.toInt_inj, Int64.toInt_ofNat_of_lt hbound, hn]
  have hdigits : IsDigits (Text.ofNat n) := Text.isDigits_ofNat n
  have hscan := tokenize_digits o hdigits (by rwa [Decimal.ofDigits_ofNat])
  rw [Decimal.ofDigits_ofNat, hvalue] at hscan
  rw [hn]
  exact hscan

/-- A literal of a number that rounds to `x` is scanned as `x`. -/
theorem tokenize_positional (o : Options) {w : Text} {q : ℚ} (hw : IsPositional w q) {x : Binary64}
    (hx : Binary64.RoundsTo q x) :
    tokenize o w = ⟨[⟨.number (.float x), w, 1⟩, Token.endOfFile 1], []⟩ := by
  obtain ⟨whole, part, hwhole, hpart, rfl, rfl⟩ := hw
  rw [hx.unique (literalValue_nonneg whole part) (roundsTo_literalValue whole part)]
  exact tokenize_fraction o hwhole hpart

/-- **Numbers are displayed so that they can be read back.**  What is displayed for the value of an
integer token, or of a finite floating-point token that is zero or in the range of the positional
notation, is scanned as one token with that value.  Outside that range it has an exponent, and the
decimal that it denotes rounds to the number.  No decimal with fewer significant digits does. -/
theorem numbers_read_back {o : Options} {source : Text} {t : Token}
    (ht : t ∈ (tokenize o source).tokens) :
    (∀ v : Int64, t.kind = .number (.integer v) → ∃ w : Text,
      t.kind.text = "NUMBER(INTEGER(".toList ++ w ++ "))".toList ∧
      ∀ o' : Options, tokenize o' w =
        ⟨[⟨.number (.integer v), w, 1⟩, Token.endOfFile 1], []⟩) ∧
    ∀ x : Binary64, t.kind = .number (.float x) → x.isFinite = true → ∃ (w : Text) (d : Decimal),
      t.kind.text = "NUMBER(FLOATING_POINT(".toList ++ w ++ "))".toList ∧
      Binary64.RoundsTo d.value x ∧
      (∀ d' : Decimal, Binary64.RoundsTo d'.value x → d.significant ≤ d'.significant) ∧
      (x.value = 0 ∨ 10 ^ (-4 : ℤ) ≤ x.value ∧ x.value < 10 ^ (16 : ℤ) →
        IsPositional w d.value ∧ ∀ o' : Options, tokenize o' w =
          ⟨[⟨.number (.float x), w, 1⟩, Token.endOfFile 1], []⟩) ∧
      (¬ (x.value = 0 ∨ 10 ^ (-4 : ℤ) ≤ x.value ∧ x.value < 10 ^ (16 : ℤ)) →
        IsScientific w d.value) := by
  constructor
  · intro v hv
    obtain ⟨-, hbound, hinteger⟩ | ⟨whole, part, -, -, -, hfloat⟩ := number_of_mem_tokens ht hv
    · have hnonneg : 0 ≤ v.toInt := by
        cases hinteger
        rw [Int64.toInt_ofNat_of_lt hbound]
        exact Int.natCast_nonneg _
      exact ⟨_, hv ▸ TokenKind.text_integer v, fun o' ↦ tokenize_integer o' hnonneg⟩
    · cases hfloat
  · intro x hkind hx
    have hsign : x.isNegative = false := by
      obtain ⟨-, -, hinteger⟩ | ⟨whole, part, -, -, -, hfloat⟩ := number_of_mem_tokens ht hkind
      · cases hinteger
      · cases hfloat
        exact (Binary64.roundsTo_ofDecimal _).isNegative_eq
    obtain ⟨d, hd, hminimal, hpositional, hscientific⟩ := Binary64.exists_text hsign hx
    exact ⟨x.text, d, hkind ▸ TokenKind.text_float x, hd, hminimal,
      fun h ↦ ⟨hpositional h, fun o' ↦ tokenize_positional o' (hpositional h) hd⟩, hscientific⟩

/-- A number in each notation, where the literal had more zeros than the number is displayed
with. -/
theorem numbers_read_back_notations :
    let tokens := (tokenize Options.default "007 0.10 0.000010".toList).tokens
    let integer : Token := ⟨.number (.integer 7), "007".toList, 1⟩
    let tenth : Token := ⟨.number (.float ⟨0x3fb999999999999a⟩), "0.10".toList, 1⟩
    let small : Token := ⟨.number (.float ⟨0x3ee4f8b588e368f1⟩), "0.000010".toList, 1⟩
    (integer ∈ tokens ∧ tenth ∈ tokens ∧ small ∈ tokens) ∧
    (tokenize {} ['7']).tokens = [⟨integer.kind, ['7'], 1⟩, Token.endOfFile 1] ∧
    (tokenize {} "0.1".toList).tokens = [⟨tenth.kind, "0.1".toList, 1⟩, Token.endOfFile 1] ∧
    ∃ d : Decimal, IsScientific "1e-5".toList d.value ∧
      Binary64.RoundsTo d.value ⟨0x3ee4f8b588e368f1⟩ := by
  intro tokens integer tenth small
  have hinteger : integer ∈ tokens := by decide +kernel
  have htenth : tenth ∈ tokens := by decide +kernel
  have hsmall : small ∈ tokens := by decide +kernel
  have hinner : ∀ {front back v w : Text}, front ++ v ++ back = front ++ w ++ back → v = w :=
    fun h ↦ List.append_cancel_left (List.append_cancel_right h)
  have hrange : 10 ^ (-4 : ℤ) ≤ Binary64.value ⟨0x3fb999999999999a⟩ ∧
      Binary64.value ⟨0x3fb999999999999a⟩ < 10 ^ (16 : ℤ) := by
    rw [Binary64.value_of_fields (p := 7205759403792794) (s := 1018) (by decide) (by decide)
      (by decide)]
    norm_num
  have hbelow : ¬ (Binary64.value ⟨0x3ee4f8b588e368f1⟩ = 0 ∨
      10 ^ (-4 : ℤ) ≤ Binary64.value ⟨0x3ee4f8b588e368f1⟩ ∧
        Binary64.value ⟨0x3ee4f8b588e368f1⟩ < 10 ^ (16 : ℤ)) := by
    rw [Binary64.value_of_fields (p := 5902958103587057) (s := 1005) (by decide) (by decide)
      (by decide)]
    norm_num
  obtain ⟨v, hv, hseven⟩ := (numbers_read_back hinteger).1 7 rfl
  obtain ⟨w, d', hw, -, -, hread, -⟩ := (numbers_read_back htenth).2 _ rfl (by decide)
  obtain ⟨u, d, hu, hd, -, -, hscientific⟩ := (numbers_read_back hsmall).2 _ rfl (by decide)
  have hv' : integer.kind.text = "NUMBER(INTEGER(".toList ++ ['7'] ++ "))".toList := by
    decide +kernel
  have hw' : tenth.kind.text =
      "NUMBER(FLOATING_POINT(".toList ++ "0.1".toList ++ "))".toList := by decide +kernel
  have hu' : small.kind.text =
      "NUMBER(FLOATING_POINT(".toList ++ "1e-5".toList ++ "))".toList := by decide +kernel
  obtain rfl := hinner (hv.symm.trans hv')
  obtain rfl := hinner (hw.symm.trans hw')
  obtain rfl := hinner (hu.symm.trans hu')
  exact ⟨⟨hinteger, htenth, hsmall⟩, congrArg Scan.tokens (hseven {}),
    congrArg Scan.tokens ((hread (.inr hrange)).2 {}), d, hscientific hbelow, hd⟩

end LoxTokens
