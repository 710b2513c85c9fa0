import LoxTokens.LexError
import LoxTokens.Proofs.Fits
import LoxTokens.Proofs.Quoting
import Mathlib.Tactic.TFAE

/-!
# Displayed forms, read from the front

The displayed form of a token is not made to be read: its lexeme stands in it as it is, with
parentheses and line feeds.  Still, what stands before the lexeme can be told from any text that
follows, and so can a displayed error.

* `IsPrefixCode P f` — the text `f a` of a thing with the property `P` tells the thing and where the
  text ends, whatever follows.  `IsPrefixCode.flatMap_inj` says that texts of such things in a row
  tell all of them.
* `TokenKind.text_append_inj` — the displayed form of a kind in front of the parenthesis that opens
  the lexeme; it tells the kind, but for the value of a number.
* `LexError.text_injective` — the displayed form of an error tells the error.
* `displayed_errors` — when two errors are displayed alike.
-/

set_option autoImplicit false

namespace LoxTokens

/-! ## Texts that tell where they end -/

/-- The text of a thing tells the thing and where the text ends, whatever follows it. -/
def IsPrefixCode {α : Type} (P : α → Prop) (f : α → Text) : Prop :=
  ∀ ⦃a b : α⦄ ⦃t u : Text⦄, P a → P b → f a ++ t = f b ++ u → a = b ∧ t = u

/-- Texts in a row tell the things one by one. -/
theorem IsPrefixCode.flatMap_inj {α : Type} {P : α → Prop} {f : α → Text} (h : IsPrefixCode P f)
    (hne : ∀ a, f a ≠ []) {as bs : List α} (has : ∀ a ∈ as, P a) (hbs : ∀ b ∈ bs, P b)
    (heq : as.flatMap f = bs.flatMap f) : as = bs := by
  induction as generalizing bs with
  | nil =>
    cases bs with
    | nil => rfl
    | cons b bs => exact absurd (List.append_eq_nil_iff.1 heq.symm).1 (hne b)
  | cons a as ih =>
    cases bs with
    | nil => exact absurd (List.append_eq_nil_iff.1 heq).1 (hne a)
    | cons b bs =>
      rw [List.forall_mem_cons] at has hbs
      obtain ⟨rfl, htail⟩ := h has.1 hbs.1 heq
      rw [ih has.2 hbs.2 htail]

namespace Text

/-- A text without some character ends where that character comes first. -/
theorem append_cons_inj {c : Char} {s s' t t' : Text} (hs : c ∉ s) (hs' : c ∉ s')
    (h : s ++ c :: t = s' ++ c :: t') : s = s' ∧ t = t' := by
  induction s generalizing s' with
  | nil =>
    cases s' with
    | nil => exact ⟨rfl, (List.cons.inj h).2⟩
    | cons d s' => exact absurd (List.cons.inj h).1 (List.ne_of_not_mem_cons hs')
  | cons d s ih =>
    cases s' with
    | nil => exact absurd (List.cons.inj h).1.symm (List.ne_of_not_mem_cons hs)
    | cons d' s' =>
      obtain ⟨rfl, htail⟩ := List.cons.inj h
      obtain ⟨rfl, rfl⟩ := ih (List.not_mem_of_not_mem_cons hs) (List.not_mem_of_not_mem_cons hs')
        htail
      exact ⟨rfl, rfl⟩

/-! ## Numbers -/

theorem ofNat_injective : Function.Injective ofNat := fun m n h ↦ by
  have hvalue := congrArg (Nat.ofDigitChars 10 · 0) h
  simpa only [ofNat, Nat.ofDigitChars_ten_toDigits] using hvalue

theorem notMem_ofNat {c : Char} (hc : c.isDigit = false) (n : Nat) : c ∉ ofNat n :=
  notMem_of_class (fun _ hx ↦ Nat.isDigit_of_mem_toDigits (by decide) (by decide) hx) hc

theorem notMem_ofInt {c : Char} (hc : c.isDigit = false) (hminus : c ≠ '-') (n : Int) :
    c ∉ ofInt n := by
  cases n with
  | ofNat n => exact notMem_ofNat hc n
  | negSucc n => exact List.not_mem_cons_of_ne_of_not_mem hminus (notMem_ofNat hc (n + 1))

end Text

namespace Decimal

variable {c : Char} {digits : Text}

theorem notMem_positional (hzero : c ≠ '0') (hpoint : c ≠ '.') (hdigits : c ∉ digits)
    (point : Int) : c ∉ positional digits point := by
  have htake : ∀ n, c ∉ digits.take n := fun n h ↦ hdigits (List.mem_of_mem_take h)
  have hdrop : ∀ n, c ∉ digits.drop n := fun n h ↦ hdigits (List.mem_of_mem_drop h)
  rw [positional]
  split
  · simp [hzero, hpoint, hdigits]
  split
  · simp [hzero, hpoint, hdigits]
  · simp [hpoint, htake, hdrop]

theorem notMem_scientific (hdigit : c.isDigit = false) (hother : c ∉ ['.', 'e', '-'])
    (hdigits : c ∉ digits) (exponent : Int) : c ∉ scientific digits exponent := by
  simp only [List.mem_cons, List.not_mem_nil, or_false, not_or] at hother
  have htake : c ∉ digits.take 1 := fun h ↦ hdigits (List.mem_of_mem_take h)
  have hdrop : c ∉ digits.drop 1 := fun h ↦ hdigits (List.mem_of_mem_drop h)
  have hexponent : c ∉ Text.ofInt exponent := Text.notMem_ofInt hdigit hother.2.2 exponent
  rw [scientific]
  split
  · simp [htake, hexponent, hother.2.1]
  · simp only [List.mem_append, List.mem_cons, not_or]
    exact ⟨⟨htake, hother.1, hdrop⟩, hother.2.1, hexponent⟩

/-- A decimal is written with digits, a point, an `e` and a minus sign. -/
theorem notMem_text (hdigit : c.isDigit = false) (hother : c ∉ ['.', 'e', '-']) (d : Decimal) :
    c ∉ d.text := by
  have hdigits : c ∉ d.digits := Text.notMem_ofNat hdigit d.coefficient
  have hzero : c ≠ '0' := by rintro rfl; cases hdigit
  rw [text]
  split
  · exact notMem_positional hzero (List.ne_of_not_mem_cons hother) hdigits _
  · exact notMem_scientific hdigit hother hdigits _

end Decimal

theorem Binary64.parenthesis_notMem_text (x : Binary64) : ')' ∉ x.text := by
  have hshortest : ')' ∉ x.shortest.text := Decimal.notMem_text (by decide) (by decide) _
  rw [text]
  split
  · decide
  · split <;> split <;> try split
    all_goals simp [hshortest]

/-- The displayed form of a number ends at its first closing parenthesis. -/
theorem Number.exists_text_eq (n : Number) : ∃ t, n.text = t ++ [')'] ∧ ')' ∉ t := by
  cases n with
  | integer v =>
    have hvalue : ')' ∉ Text.ofInt v.toInt := Text.notMem_ofInt (by decide) (by decide) _
    exact ⟨_, rfl, by simp [hvalue]⟩
  | float x =>
    have hvalue := x.parenthesis_notMem_text
    exact ⟨_, rfl, by simp [hvalue]⟩

/-! ## Kinds of tokens -/

theorem Keyword.capitals_inj {k l : Keyword} (h : k.capitals = l.capitals) : k = l := by
  have hall : ∀ k ∈ all, ∀ l ∈ all, k.capitals = l.capitals → k = l := by decide
  exact hall k (mem_all k) l (mem_all l) h

theorem Keyword.parenthesis_notMem_capitals (k : Keyword) : ')' ∉ k.capitals := by
  cases k <;> decide

namespace TokenKind

/-- The kind with some fixed value in place of the one that it carries. -/
def bare : TokenKind → TokenKind
  | string _ => string []
  | number _ => number (.integer 0)
  | keyword _ => keyword .andKw
  | k => k

/-- All kinds, up to the values that they carry. -/
def bares : List TokenKind :=
  Punct.all.map punct ++ [identifier, string [], number (.integer 0), keyword .andKw, endOfFile]

theorem bare_mem_bares (k : TokenKind) : k.bare ∈ bares := by
  cases k with
  | punct p => exact List.mem_append_left _ (List.mem_map_of_mem p.mem_all)
  | _ => simp [bares, bare]

@[simp] theorem name_bare (k : TokenKind) : k.bare.name = k.name := by cases k <;> rfl

/-- The name of a kind tells the kind, up to the value that it carries. -/
theorem bare_eq_of_name_eq {k l : TokenKind} (h : k.name = l.name) : k.bare = l.bare := by
  have hall : ∀ k ∈ bares, ∀ l ∈ bares, k.name = l.name → k = l := by decide
  exact hall _ k.bare_mem_bares _ l.bare_mem_bares (by simpa using h)

theorem parenthesis_notMem_name (k : TokenKind) : '(' ∉ k.name := by
  have hall : ∀ k ∈ bares, '(' ∉ k.name := by decide
  simpa using hall _ k.bare_mem_bares

/-- What stands behind the name and the first opening parenthesis, where the displayed form of the
kind is followed by another opening parenthesis and the given text. -/
def afterName (k : TokenKind) (t : Text) : Text :=
  match k.valueText? with
  | some v => v ++ ')' :: '(' :: t
  | none => t

theorem text_append (k : TokenKind) (t : Text) :
    k.text ++ '(' :: t = k.name ++ '(' :: k.afterName t := by
  unfold text afterName
  cases k.valueText? <;> simp

/-- **The displayed form of a kind in front of a parenthesis** tells where it ends, and which kind
it is.  Of a number it tells only that it is one, since all NaNs are written alike. -/
theorem text_append_inj {k l : TokenKind} {t u : Text}
    (h : k.text ++ '(' :: t = l.text ++ '(' :: u) :
    (k = l ∨ ∃ m n, k = number m ∧ l = number n) ∧ t = u := by
  rw [text_append, text_append] at h
  obtain ⟨hname, hafter⟩ :=
    Text.append_cons_inj k.parenthesis_notMem_name l.parenthesis_notMem_name h
  have hbare := bare_eq_of_name_eq hname
  cases k <;> cases l <;> cases hbare
  case punct.punct.refl => exact ⟨.inl rfl, hafter⟩
  case identifier.identifier.refl => exact ⟨.inl rfl, hafter⟩
  case endOfFile.endOfFile.refl => exact ⟨.inl rfl, hafter⟩
  case string.string.refl s s' =>
    have hdecode := congrArg Quoted.decode hafter
    simp only [afterName, valueText?, Quoted.decode_encode] at hdecode
    cases hdecode
    exact ⟨.inl rfl, rfl⟩
  case number.number.refl m n =>
    obtain ⟨v, hv, hvend⟩ := m.exists_text_eq
    obtain ⟨w, hw, hwend⟩ := n.exists_text_eq
    simp only [afterName, valueText?, hv, hw, List.append_assoc, List.singleton_append] at hafter
    obtain ⟨-, htail⟩ := Text.append_cons_inj hvend hwend hafter
    cases htail
    exact ⟨.inr ⟨m, n, rfl, rfl⟩, rfl⟩
  case keyword.keyword.refl k l =>
    simp only [afterName, valueText?] at hafter
    obtain ⟨hcapitals, htail⟩ := Text.append_cons_inj k.parenthesis_notMem_capitals
      l.parenthesis_notMem_capitals hafter
    cases htail
    exact ⟨.inl (congrArg keyword (Keyword.capitals_inj hcapitals)), rfl⟩

end TokenKind

/-! ## Errors -/

theorem Fault.message_injective : Function.Injective message := by
  intro f g h
  unfold message at h
  cases f <;> cases g <;> simp at h
  case unexpectedCharacter.unexpectedCharacter => rw [h]
  case unterminatedString.unterminatedString => rfl
  case invalidNumber.invalidNumber => rw [h]

/-- **The displayed form of an error tells the error.** -/
theorem LexError.text_injective : Function.Injective text := by
  rintro ⟨f, m⟩ ⟨g, n⟩ h
  unfold text at h
  have hline : Text.ofNat m ++ ']' :: (" Error: ".toList ++ f.message) =
      Text.ofNat n ++ ']' :: (" Error: ".toList ++ g.message) := by
    simpa using h
  obtain ⟨hnumber, hrest⟩ := Text.append_cons_inj (Text.notMem_ofNat (by decide) m)
    (Text.notMem_ofNat (by decide) n) hline
  rw [Text.ofNat_injective hnumber, Fault.message_injective (List.append_cancel_left hrest)]

/-- Faults of one kind are the same, but for the digits of numbers that are out of range. -/
theorem Fault.eq_iff_sameKind {f g : Fault} : f = g ↔ f.sameKind g = true ∧
    ∀ ds ds', f = .invalidNumber ds → g = .invalidNumber ds' → ds = ds' := by
  constructor
  · rintro rfl
    refine ⟨?_, fun ds ds' h h' ↦ Fault.invalidNumber.inj (h.symm.trans h')⟩
    cases f <;> simp [sameKind]
  · rintro ⟨hkind, hdigits⟩
    cases f <;> cases g <;> simp_all [sameKind]

/-- Equality of errors part by part: their kinds, their lines and their messages are the same.  The
digits of a number are not part of its kind, but the message names them. -/
def LexError.sameParts (e f : LexError) : Bool :=
  e.fault.sameKind f.fault && e.line = f.line && e.fault.message = f.fault.message

theorem LexError.sameParts_iff {e f : LexError} : e.sameParts f = true ↔ e = f := by
  constructor
  · intro h
    obtain ⟨a, m⟩ := e
    obtain ⟨b, n⟩ := f
    simp only [sameParts, Bool.and_eq_true, decide_eq_true_eq] at h
    obtain ⟨⟨-, rfl⟩, hmessage⟩ := h
    rw [Fault.message_injective hmessage]
  · rintro rfl
    have hkind : e.fault.sameKind e.fault = true := (Fault.eq_iff_sameKind.1 rfl).1
    simp [sameParts, hkind]

/-- **Errors are displayed faithfully.**  It comes to the same whether two errors are displayed
alike, are equal part by part, or are on one line, of one kind and about the same digits if they are
about numbers.  A failure of the input displays the error that it was made of, so it tells the error
as well. -/
theorem displayed_errors (e f : LexError) :
    [e.text = f.text,
      e.sameParts f = true,
      e = f,
      e.line = f.line ∧ e.fault.sameKind f.fault = true ∧
        ∀ ds ds', e.fault = .invalidNumber ds → f.fault = .invalidNumber ds' → ds = ds',
      e.toFailure.message = f.toFailure.message].TFAE ∧
    e.toFailure = ⟨.invalidData, e.text⟩ := by
  refine ⟨?_, rfl⟩
  tfae_have 1 ↔ 3 := LexError.text_injective.eq_iff
  tfae_have 2 ↔ 3 := LexError.sameParts_iff
  tfae_have 3 ↔ 4 := by
    rw [← Fault.eq_iff_sameKind, LexError.mk.injEq, and_comm]
  tfae_have 1 ↔ 5 := Iff.rfl
  tfae_finish

end LoxTokens
