import LoxTokens.Proofs.Display
import LoxTokens.Proofs.Readback

/-!
# Different tokens are displayed differently

The lexeme of a token stands in its displayed form as it is, and may itself look like the end of a
token and the start of another.  No harm is done: the kind in front of it tells where it ends, and
the line is what comes behind the last space.  This does not need the lexeme to be one that a scan
gives to the kind.

* `Denotes w q` — the text of a number in one of the two notations; `Denotes.unique` says that it
  denotes one number.
* `Binary64.text_eq_text_iff` — only NaNs are written alike.  Two other numbers that are written
  alike would both be what the number in the text is rounded to.
* `Number.text_eq_text_iff` and `TokenKind.text_eq_text_iff` — the same for the value and the kind
  of a token.
* `displayed_eq_iff` — the same for tokens.
-/

set_option autoImplicit false

namespace LoxTokens

namespace Text

/-- A text without some character starts where that character comes last. -/
theorem append_cons_inj_of_last {c : Char} {s s' t t' : Text} (ht : c ∉ t) (ht' : c ∉ t')
    (h : s ++ c :: t = s' ++ c :: t') : s = s' ∧ t = t' := by
  have hreverse := congrArg List.reverse h
  simp only [List.reverse_append, List.reverse_cons, List.append_assoc, List.singleton_append]
    at hreverse
  obtain ⟨hafter, hbefore⟩ :=
    append_cons_inj (mt List.mem_reverse.1 ht) (mt List.mem_reverse.1 ht') hreverse
  exact ⟨List.reverse_injective hbefore, List.reverse_injective hafter⟩

theorem ofInt_injective : Function.Injective ofInt := by
  have hsign : ∀ m n, ofNat m ≠ '-' :: ofNat n := fun m n h ↦
    notMem_ofNat (c := '-') (by decide) m (h ▸ List.mem_cons_self)
  intro m n h
  cases m <;> cases n
  case ofNat.ofNat m n => rw [ofNat_injective h]
  case ofNat.negSucc m n => exact absurd h (hsign m (n + 1))
  case negSucc.ofNat m n => exact absurd h.symm (hsign n (m + 1))
  case negSucc.negSucc m n => rw [Nat.succ.inj (ofNat_injective (List.cons.inj h).2)]

end Text

/-! ## Notations -/

theorem IsDigits.notMem {ds : Text} (h : IsDigits ds) {c : Char} (hc : c.isDigit = false) :
    c ∉ ds :=
  Text.notMem_of_class h.2 hc

section

variable {w : Text} {q r : ℚ}

theorem IsPositional.unique (hq : IsPositional w q) (hr : IsPositional w r) : q = r := by
  obtain ⟨whole, part, hwhole, -, rfl, rfl⟩ := hq
  obtain ⟨whole', part', hwhole', -, hsplit, rfl⟩ := hr
  obtain ⟨rfl, rfl⟩ := Text.append_cons_inj (hwhole.notMem rfl) (hwhole'.notMem rfl) hsplit
  rfl

theorem IsScientific.unique (hq : IsScientific w q) (hr : IsScientific w r) : q = r := by
  generalize hw : w = v at hr
  cases hq with
  | digit hd n =>
    cases hr with
    | digit hd' n' =>
      simp only [List.cons.injEq, true_and] at hw
      obtain ⟨rfl, hn⟩ := hw
      rw [Text.ofInt_injective hn]
    | fraction hd' hds' n' => simp at hw
  | fraction hd hds n =>
    cases hr with
    | digit hd' n' => simp at hw
    | fraction hd' hds' n' =>
      simp only [List.cons_append, List.cons.injEq, true_and] at hw
      obtain ⟨rfl, htail⟩ := hw
      obtain ⟨rfl, hn⟩ := Text.append_cons_inj (hds.notMem rfl) (hds'.notMem rfl) htail
      rw [Text.ofInt_injective hn]

theorem IsPositional.notMem (h : IsPositional w q) : 'e' ∉ w := by
  obtain ⟨whole, part, hwhole, hpart, rfl, -⟩ := h
  simp [hwhole.notMem, hpart.notMem]

theorem IsScientific.mem (h : IsScientific w q) : 'e' ∈ w := by
  cases h <;> simp

/-- The text denotes the number, in one of the two notations. -/
def Denotes (w : Text) (q : ℚ) : Prop := IsPositional w q ∨ IsScientific w q

/-- **A text denotes one number only.** -/
theorem Denotes.unique (hq : Denotes w q) (hr : Denotes w r) : q = r := by
  rcases hq with hq | hq <;> rcases hr with hr | hr
  · exact hq.unique hr
  · exact absurd hr.mem hq.notMem
  · exact absurd hq.mem hr.notMem
  · exact hq.unique hr

/-- A text that denotes a number starts with a digit. -/
theorem Denotes.exists_cons (h : Denotes w q) : ∃ d t, w = d :: t ∧ d.isDigit = true := by
  rcases h with ⟨whole, part, hwhole, -, rfl, -⟩ | ⟨hd, n⟩ | ⟨hd, hds, n⟩
  · obtain ⟨d, ds, rfl, hd, -⟩ := hwhole.exists_cons
    exact ⟨d, _, rfl, hd⟩
  · exact ⟨_, _, rfl, hd⟩
  · exact ⟨_, _, rfl, hd⟩

end

/-! ## Floating-point numbers -/

namespace Binary64

variable {x y : Binary64}

theorem magnitude_abs (x : Binary64) : x.abs.magnitude = x.magnitude :=
  magnitude_ofMagnitude x.magnitude_lt

theorem isNegative_abs (x : Binary64) : x.abs.isNegative = false :=
  isNegative_ofMagnitude x.magnitude_lt

theorem isNaN_abs (x : Binary64) : x.abs.isNaN = x.isNaN := by rw [isNaN, magnitude_abs, ← isNaN]

/-- A number is its absolute value and its sign. -/
theorem eq_of_abs_eq (hsign : x.isNegative = y.isNegative) (habs : x.abs = y.abs) : x = y := by
  have hmagnitude : x.magnitude = y.magnitude := by
    rw [← magnitude_abs, habs, magnitude_abs]
  have hx := x.bits.toNat_lt
  have hy := y.bits.toNat_lt
  have hunit : signUnit = 2 ^ 63 := rfl
  rw [isNegative, isNegative, decide_eq_decide, hunit] at hsign
  rw [magnitude, magnitude, hunit] at hmagnitude
  have hbits : x.bits.toNat = y.bits.toNat := by omega
  exact congrArg mk (UInt64.toNat_inj.1 hbits)

/-- The sign is not looked at to find the shortest decimal. -/
theorem shortest_abs (x : Binary64) : x.abs.shortest = x.shortest := by
  have habs : x.abs.abs = x.abs := congrArg ofMagnitude x.magnitude_abs
  have hexact : x.abs.exact = x.exact := by
    rw [exact, exact, scale, scale, significand, significand, magnitude_abs]
  rw [shortest, shortest, hexact, habs]

/-- A number is written as its absolute value, behind a minus sign if it is negative. -/
theorem text_eq_text_abs (h : x.isNaN = false) :
    x.text = (if x.isNegative then ['-'] else []) ++ x.abs.text := by
  have hinfinite : x.abs.isInfinite = x.isInfinite := by
    rw [isInfinite, isInfinite, magnitude_abs]
  have hzero : x.abs.isZero = x.isZero := by rw [isZero, isZero, magnitude_abs]
  rw [text, text, isNaN_abs, h, hinfinite, hzero, shortest_abs, isNegative_abs]
  rfl

/-- What is written for a number without a sign. -/
theorem text_cases (hsign : x.isNegative = false) (hnan : x.isNaN = false) :
    x.text = "inf".toList ∧ x.magnitude = infinityBits ∨
      ∃ q, 0 ≤ q ∧ Denotes x.text q ∧ RoundsTo q x := by
  rw [isNaN, decide_eq_false_iff_not, not_lt] at hnan
  rcases hnan.lt_or_eq with hlt | heq
  · obtain ⟨d, hd, -, hpositional, hscientific⟩ := exists_text hsign (decide_eq_true hlt)
    refine .inr ⟨d.value, d.value_nonneg, ?_, hd⟩
    by_cases hrange : x.value = 0 ∨ Decimal.InRange x.value
    · exact .inl (hpositional hrange)
    · exact .inr (hscientific hrange)
  · refine .inl ⟨?_, heq⟩
    simp [text, isNaN, isInfinite, heq, hsign]

/-- The first character tells infinity and other numbers from what has a sign, and from NaN. -/
theorem exists_text_eq_cons (hsign : x.isNegative = false) (hnan : x.isNaN = false) :
    ∃ c t, x.text = c :: t ∧ (c = 'i' ∨ c.isDigit = true) := by
  rcases text_cases hsign hnan with ⟨hinf, -⟩ | ⟨q, -, hq, -⟩
  · exact ⟨'i', _, hinf, .inl rfl⟩
  · obtain ⟨d, t, htext, hd⟩ := hq.exists_cons
    exact ⟨d, t, htext, .inr hd⟩

theorem text_ne_cons (hsign : x.isNegative = false) (hnan : x.isNaN = false) {c : Char}
    (hi : c ≠ 'i') (hdigit : c.isDigit = false) (t : Text) : x.text ≠ c :: t := by
  obtain ⟨d, u, htext, hd⟩ := exists_text_eq_cons hsign hnan
  rw [htext]
  rintro ⟨⟩
  rcases hd with rfl | hd
  · exact hi rfl
  · exact Bool.false_ne_true (hdigit.symm.trans hd)

/-- Numbers without a sign that are written alike are the same. -/
theorem eq_of_text_eq (hx : x.isNegative = false) (hx' : x.isNaN = false)
    (hy : y.isNegative = false) (hy' : y.isNaN = false) (h : x.text = y.text) : x = y := by
  have hinf : ∀ q, ¬ Denotes "inf".toList q := fun q hq ↦ by
    obtain ⟨d, t, htext, hd⟩ := hq.exists_cons
    cases htext
    cases hd
  rcases text_cases hx hx' with ⟨hxinf, hxbits⟩ | ⟨q, hq, hxtext, hxq⟩ <;>
    rcases text_cases hy hy' with ⟨hyinf, hybits⟩ | ⟨r, hr, hytext, hyr⟩
  · exact eq_of_magnitude_eq hx hy (hxbits.trans hybits.symm)
  · rw [← h, hxinf] at hytext
    exact absurd hytext (hinf r)
  · rw [h, hyinf] at hxtext
    exact absurd hxtext (hinf q)
  · -- both are what the number in the text is rounded to
    rw [h] at hxtext
    obtain rfl := hxtext.unique hytext
    exact hxq.unique hq hyr

theorem isNaN_eq_true_iff : x.isNaN = true ↔ x.text = "NaN".toList := by
  refine ⟨fun h ↦ if_pos h, fun htext ↦ ?_⟩
  by_contra h
  rw [Bool.not_eq_true] at h
  rw [text_eq_text_abs h] at htext
  split at htext
  · cases htext
  · exact text_ne_cons x.isNegative_abs (x.isNaN_abs.trans h) (by decide) (by decide) _ htext

theorem isNegative_eq_true_iff (h : x.isNaN = false) :
    x.isNegative = true ↔ ∃ t, x.text = '-' :: t := by
  rw [text_eq_text_abs h]
  split
  · next hsign => exact iff_of_true hsign ⟨_, rfl⟩
  · next hsign =>
    refine iff_of_false hsign ?_
    rintro ⟨t, htext⟩
    exact text_ne_cons x.isNegative_abs (x.isNaN_abs.trans h) (by decide) (by decide) t htext

/-- **Only NaNs are written alike.** -/
theorem text_eq_text_iff : x.text = y.text ↔ x = y ∨ x.isNaN = true ∧ y.isNaN = true := by
  constructor
  · intro h
    cases hx : x.isNaN with
    | true =>
      rw [isNaN_eq_true_iff, h] at hx
      exact .inr ⟨rfl, isNaN_eq_true_iff.2 hx⟩
    | false =>
      have hy : y.isNaN = false := by
        rw [← Bool.not_eq_true, isNaN_eq_true_iff, ← h, ← isNaN_eq_true_iff, hx]
        exact Bool.false_ne_true
      have hsign : x.isNegative = y.isNegative := by
        rw [Bool.eq_iff_iff, isNegative_eq_true_iff hx, isNegative_eq_true_iff hy, h]
      rw [text_eq_text_abs hx, text_eq_text_abs hy, hsign] at h
      have habs : x.abs = y.abs := eq_of_text_eq x.isNegative_abs (x.isNaN_abs.trans hx)
        y.isNegative_abs (y.isNaN_abs.trans hy) (List.append_cancel_left h)
      exact .inl (eq_of_abs_eq hsign habs)
  · rintro (rfl | ⟨hx, hy⟩)
    · rfl
    · rw [isNaN_eq_true_iff.1 hx, isNaN_eq_true_iff.1 hy]

end Binary64

/-! ## Values, kinds and tokens -/

/-- Kinds with the same value, where all NaNs count as one. -/
inductive TokenKind.SameUpToNaN : TokenKind → TokenKind → Prop
  | refl (k : TokenKind) : SameUpToNaN k k
  | nan {x y : Binary64} (hx : x.isNaN = true) (hy : y.isNaN = true) :
      SameUpToNaN (number (.float x)) (number (.float y))

theorem Number.text_eq_text_iff {m n : Number} :
    m.text = n.text ↔ (TokenKind.number m).SameUpToNaN (.number n) := by
  constructor
  · intro h
    unfold text at h
    cases m <;> cases n
    case integer.integer v w =>
      have hvalue := Text.ofInt_injective (List.append_cancel_left (List.append_cancel_right h))
      rw [Int64.toInt_inj.1 hvalue]
      exact .refl _
    case integer.float v x => simp at h
    case float.integer x v => simp at h
    case float.float x y =>
      have hvalue : x.text = y.text := List.append_cancel_left (List.append_cancel_right h)
      rcases Binary64.text_eq_text_iff.1 hvalue with rfl | ⟨hx, hy⟩
      · exact .refl _
      · exact .nan hx hy
  · rintro (_ | ⟨hx, hy⟩)
    · rfl
    · have hvalue := Binary64.text_eq_text_iff.2 (.inr ⟨hx, hy⟩)
      exact congrArg (fun v ↦ "FLOATING_POINT(".toList ++ v ++ [')']) hvalue

theorem TokenKind.text_eq_text_iff {k l : TokenKind} : k.text = l.text ↔ k.SameUpToNaN l := by
  constructor
  · intro h
    obtain ⟨rfl | ⟨m, n, rfl, rfl⟩, -⟩ := text_append_inj (congrArg (· ++ ['(']) h)
    · exact .refl k
    · have hnumber : "NUMBER".toList ++ '(' :: m.text ++ [')'] =
          "NUMBER".toList ++ '(' :: n.text ++ [')'] := h
      have hvalue := List.append_cancel_left (List.append_cancel_right hnumber)
      exact Number.text_eq_text_iff.1 (List.cons.inj hvalue).2
  · rintro (_ | ⟨hx, hy⟩)
    · rfl
    · rw [text, valueText?, Number.text_eq_text_iff.2 (.nan hx hy)]
      rfl

/-- **Different tokens are displayed differently.**  Whatever their kinds, values, lexemes and lines
are, two tokens are displayed alike only if all of these are the same, where all NaNs count as one
value. -/
theorem displayed_eq_iff (t u : Token) : t.text = u.text ↔
    t.kind.SameUpToNaN u.kind ∧ t.lexeme = u.lexeme ∧ t.line = u.line := by
  constructor
  · intro h
    -- the line is behind the last space, and the kind in front of the parenthesis that it closes
    have hsplit : ∀ t : Token, t.text =
        (t.kind.text ++ '(' :: (t.lexeme ++ ") line".toList)) ++ ' ' :: Text.ofNat t.line := by
      intro t
      simp [Token.text]
    rw [hsplit, hsplit] at h
    obtain ⟨hfront, hline⟩ := Text.append_cons_inj_of_last (Text.notMem_ofNat (by decide) t.line)
      (Text.notMem_ofNat (by decide) u.line) h
    obtain ⟨-, hlexeme⟩ := TokenKind.text_append_inj hfront
    rw [hlexeme] at hfront
    exact ⟨TokenKind.text_eq_text_iff.1 (List.append_cancel_right hfront),
      List.append_cancel_right hlexeme, Text.ofNat_injective hline⟩
  · rintro ⟨hkind, hlexeme, hline⟩
    rw [Token.text, Token.text, TokenKind.text_eq_text_iff.2 hkind, hlexeme, hline]

/-- The two zeros are different values. -/
example : Token.text ⟨.number (.float ⟨0⟩), "0.0".toList, 1⟩ ≠
    Token.text ⟨.number (.float ⟨0x8000000000000000⟩), "0.0".toList, 1⟩ := by decide +kernel

end LoxTokens
