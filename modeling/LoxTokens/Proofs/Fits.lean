import LoxTokens.Span
import Mathlib.Data.List.TakeWhile

/-!
# Spans in their place

`Span.first` commits to a kind of span after one character and then reads on until the span ends.
This file says once what that amounts to, without any reading: a span *fits* in front of a text if
it is well formed and the text does not continue it.

* `Text.Stops p after` — no character of the class `p` stands at the front of `after`; this is
  where a maximal run of the class ends.
* `Punct.Closed p after` — `after` does not make a longer operator or a comment out of `p`.
* `Span.Fits s after` — the span `s` is well formed and complete in front of `after`.
* `Span.Fits.of_nil` — in front of what a span fits that fits at the end of a source.
* `Span.first_spec` and `Span.first_of_fits` — the span that is read fits, and a span that fits is
  the one that is read.  So `Fits` is all there is to know about `Span.first`.
* `fitting_spans` and `spans_of_fitting` — every span of a source fits in front of the spans after
  it, and a list of spans that do so is the list of the spans of its text.
-/

set_option autoImplicit false

namespace LoxTokens

/-! ## Runs of characters -/

/-- The text does not start with a character of the class, so that a run of the class ends here. -/
def Text.Stops (p : Char → Bool) (after : Text) : Prop := ∀ x ∈ after.head?, p x = false

namespace Text

theorem stops_nil (p : Char → Bool) : Stops p [] := by simp [Stops]

theorem stops_cons {p : Char → Bool} {c : Char} {t : Text} : Stops p (c :: t) ↔ p c = false := by
  simp [Stops]

theorem stops_dropWhile (p : Char → Bool) (t : Text) : Stops p (t.dropWhile p) := by
  intro x hx
  have h := List.head?_dropWhile_not p t
  rw [Option.mem_def] at hx
  rwa [hx] at h

/-- A run of a class, in front of a text that does not continue it, is what `takeWhile` takes. -/
theorem takeWhile_run {p : Char → Bool} {run after : Text} (hrun : ∀ x ∈ run, p x = true)
    (hafter : Stops p after) : (run ++ after).takeWhile p = run := by
  rw [List.takeWhile_append_of_pos hrun]
  cases after with
  | nil => simp
  | cons x t => simp [stops_cons.1 hafter]

theorem dropWhile_run {p : Char → Bool} {run after : Text} (hrun : ∀ x ∈ run, p x = true)
    (hafter : Stops p after) : (run ++ after).dropWhile p = after := by
  rw [List.dropWhile_append_of_pos hrun]
  cases after with
  | nil => simp
  | cons x t => simp [stops_cons.1 hafter]

/-- A text of one class does not contain the characters of another. -/
theorem notMem_of_class {p : Char → Bool} {t : Text} (h : ∀ x ∈ t, p x = true) {c : Char}
    (hc : p c = false) : c ∉ t := fun hx ↦ by
  rw [h c hx] at hc
  cases hc

end Text

/-- A nonempty run of digits. -/
def IsDigits (t : Text) : Prop := t ≠ [] ∧ ∀ x ∈ t, x.isDigit = true

instance (t : Text) : Decidable (IsDigits t) :=
  decidable_of_iff (t ≠ [] ∧ t.all Char.isDigit = true) (and_congr_right' List.all_eq_true)

/-- A character that starts a word, and any number that continue it. -/
def IsWord (t : Text) : Prop :=
  ∃ c w, t = c :: w ∧ isWordStart c = true ∧ ∀ x ∈ w, isWordPart x = true

theorem IsDigits.exists_cons {t : Text} (h : IsDigits t) :
    ∃ d ds, t = d :: ds ∧ d.isDigit = true ∧ ∀ x ∈ ds, x.isDigit = true := by
  obtain ⟨d, ds, rfl⟩ := List.exists_cons_of_ne_nil h.1
  exact ⟨d, ds, rfl, h.2 d (by simp), fun x hx ↦ h.2 x (by simp [hx])⟩

theorem IsWord.forall_isWordPart {w : Text} (h : IsWord w) : ∀ x ∈ w, isWordPart x = true := by
  obtain ⟨c, w, rfl, hc, hrun⟩ := h
  refine List.forall_mem_cons.2 ⟨?_, hrun⟩
  rw [isWordPart, hc, Bool.true_or]

/-- A digit followed by the digits that come next is a run of digits. -/
theorem isDigits_cons_takeWhile {d : Char} (h : d.isDigit = true) (t : Text) :
    IsDigits (d :: t.takeWhile Char.isDigit) := by
  refine ⟨List.cons_ne_nil _ _, fun x hx ↦ ?_⟩
  rcases List.mem_cons.1 hx with rfl | hx
  · exact h
  · exact List.mem_takeWhile_imp hx

/-! ## Classes of characters

Each class is told apart from the others by the characters it excludes. -/

theorem isSeparator_iff {c : Char} :
    isSeparator c = true ↔ c = ' ' ∨ c = '\t' ∨ c = '\r' ∨ c = '\n' := by
  simp only [isSeparator, Bool.or_eq_true, decide_eq_true_eq, or_assoc]

theorem isSeparator_of_isDigit {c : Char} (h : c.isDigit = true) : isSeparator c = false := by
  rw [Bool.eq_false_iff]
  intro hc
  rcases isSeparator_iff.1 hc with rfl | rfl | rfl | rfl <;> exact absurd h (by decide)

theorem isSeparator_of_isWordStart {c : Char} (h : isWordStart c = true) :
    isSeparator c = false := by
  rw [Bool.eq_false_iff]
  intro hc
  rcases isSeparator_iff.1 hc with rfl | rfl | rfl | rfl <;> exact absurd h (by decide)

/-- A separator belongs to no run and makes nothing longer. -/
theorem classes_of_isSeparator {c : Char} (h : isSeparator c = true) :
    isWordPart c = false ∧ c.isDigit = false ∧ c ≠ '.' ∧ c ≠ '/' ∧ c ≠ '=' := by
  rcases isSeparator_iff.1 h with rfl | rfl | rfl | rfl <;> decide

/-- Words start with an ASCII letter or an underscore. -/
theorem isWordStart_iff {c : Char} :
    isWordStart c = true ↔ 'A' ≤ c ∧ c ≤ 'Z' ∨ 'a' ≤ c ∧ c ≤ 'z' ∨ c = '_' := by
  have h : isWordStart c = (decide ('A' ≤ c ∧ c ≤ 'Z') || (decide ('a' ≤ c) && decide (c ≤ 'z')) ||
    decide (c = '_')) := rfl
  rw [h]
  simp only [Bool.or_eq_true, Bool.and_eq_true, decide_eq_true_eq, or_assoc]

theorem isDigit_of_isWordStart {c : Char} (h : isWordStart c = true) : c.isDigit = false := by
  rw [Bool.eq_false_iff]
  intro hc
  have hd : 48 ≤ c.toNat ∧ c.toNat ≤ 57 := Char.isDigit_iff_toNat.1 hc
  rcases isWordStart_iff.1 h with ⟨hlower, -⟩ | ⟨hlower, -⟩ | rfl
  · have hcode : 65 ≤ c.toNat := UInt32.le_iff_toNat_le.1 hlower
    omega
  · have hcode : 97 ≤ c.toNat := UInt32.le_iff_toNat_le.1 hlower
    omega
  · exact absurd hc (by decide)

/-- A line feed is a separator. -/
theorem newlines_of_isSeparator {c : Char} (h : isSeparator c = false) : Text.newlines [c] = 0 :=
  Text.newlines_eq_zero_iff.2 fun hx ↦ by
    rw [← List.mem_singleton.1 hx] at h
    exact absurd h (by decide)

theorem IsDigits.newlines_eq {ds : Text} (h : IsDigits ds) : ds.newlines = 0 :=
  Text.newlines_eq_zero_iff.2 fun hx ↦ absurd (h.2 _ hx) (by decide)

/-! ## Punctuation -/

namespace Punct

/-- The character that, right after a punctuation mark, makes something longer out of it. -/
def follower? : Punct → Option Char
  | slash => some '/'
  | bang | equal | greater | less => some '='
  | _ => none

theorem follower?_eq_some_iff {p : Punct} {x : Char} : p.follower? = some x ↔
    p = slash ∧ x = '/' ∨ (p = bang ∨ p = equal ∨ p = less ∨ p = greater) ∧ x = '=' := by
  cases p <;> simp [follower?, eq_comm]

/-- The text does not make something longer out of a punctuation mark that stands before it. -/
def Closed (p : Punct) (after : Text) : Prop := ∀ x, p.follower? = some x → after.head? ≠ some x

/-- The characters of punctuation belong to no other class. -/
theorem classes_of_single? {c : Char} {p : Punct} (h : single? c = some p) :
    p.text = [c] ∧ isSeparator c = false ∧ c ≠ '"' ∧ c.isDigit = false ∧ isWordStart c = false := by
  rw [single?.eq_def] at h
  split at h <;> cases h <;> decide

/-- Only a slash can become a comment, and only what has a form with an equals sign that form. -/
theorem follower?_of_single? {c x : Char} {p : Punct} (h : single? c = some p)
    (hx : p.follower? = some x) : c = '/' ∧ x = '/' ∨ (withEqual? c).isSome = true ∧ x = '=' := by
  rw [single?.eq_def] at h
  split at h <;> cases h <;> cases hx <;> decide

/-- A form with an equals sign is complete, and belongs to a character that is a mark itself. -/
theorem withEqual?_spec {c : Char} {p : Punct} (h : withEqual? c = some p) :
    p.text = [c, '='] ∧ p.follower? = none ∧ single? c ≠ none := by
  rw [withEqual?.eq_def] at h
  split at h <;> cases h <;> decide

/-- The mark that `first?` finds stands at the front, and what follows does not continue it.  Two
slashes are no punctuation. -/
theorem first?_spec {c : Char} {rest : Text} {p : Punct}
    (hslash : ¬ (c = '/' ∧ rest.head? = some '/')) (h : first? c rest = some p) :
    ∃ after, c :: rest = p.text ++ after ∧ p.Closed after := by
  have hsingle : single? c = some p → (withEqual? c = none ∨ rest.head? ≠ some '=') →
      ∃ after, c :: rest = p.text ++ after ∧ p.Closed after := by
    intro hp hne
    refine ⟨rest, by rw [(classes_of_single? hp).1]; rfl, fun x hx hr ↦ ?_⟩
    rcases follower?_of_single? hp hx with ⟨hc, rfl⟩ | ⟨hw, rfl⟩
    · exact hslash ⟨hc, hr⟩
    · rcases hne with hne | hne
      · simp [hne] at hw
      · exact hne hr
  rw [first?] at h
  split at h
  · next hr =>
    cases hw : withEqual? c with
    | none => rw [hw] at h; exact hsingle h (.inl hw)
    | some q =>
      rw [hw] at h
      obtain rfl : q = p := Option.some.inj h
      obtain ⟨htext, hfollower, -⟩ := withEqual?_spec hw
      obtain ⟨after, rfl⟩ := List.head?_eq_some_iff.1 hr
      refine ⟨after, by rw [htext]; rfl, fun x hx ↦ ?_⟩
      rw [hfollower] at hx
      cases hx
  · next hr => exact hsingle h (.inr hr)

theorem single?_of_first? {c : Char} {rest : Text} (h : first? c rest = none) :
    single? c = none := by
  rw [first?] at h
  split at h
  · cases hw : withEqual? c with
    | none => rwa [hw] at h
    | some q => rw [hw] at h; cases h
  · exact h

theorem first?_of_single? {c : Char} (h : single? c = none) (rest : Text) :
    first? c rest = none := by
  have hw : withEqual? c = none := by
    cases hw : withEqual? c with
    | none => rfl
    | some q => exact absurd h (withEqual?_spec hw).2.2
  simp [first?, h, hw]

end Punct

/-! ## Fitting spans -/

namespace Span

/-- The span is well formed, and complete in front of the text that follows it. -/
inductive Fits : Span → Text → Prop
  | separator {c : Char} {after : Text} (hc : isSeparator c = true) : Fits (separator c) after
  | comment {body after : Text} (hbody : '\n' ∉ body) (hafter : after.Stops (· != '\n')) :
      Fits (comment body) after
  | punct {p : Punct} {after : Text} (hp : p.Closed after) : Fits (punct p) after
  | quoted {body after : Text} (hbody : '"' ∉ body) : Fits (quoted body) after
  /-- A string can be unclosed only at the end of the source. -/
  | unclosed {body : Text} (hbody : '"' ∉ body) : Fits (unclosed body) []
  /-- Neither a digit nor a point with a digit behind it follows an integer. -/
  | digits {ds after : Text} (hds : IsDigits ds) (hafter : after.Stops Char.isDigit)
      (hpoint : ∀ t : Text, after = '.' :: t → t.Stops Char.isDigit) : Fits (digits ds) after
  | fraction {whole part after : Text} (hwhole : IsDigits whole) (hpart : IsDigits part)
      (hafter : after.Stops Char.isDigit) : Fits (fraction whole part) after
  | word {w after : Text} (hw : IsWord w) (hafter : after.Stops isWordPart) : Fits (word w) after
  /-- A stray character belongs to no class. -/
  | stray {c : Char} {after : Text} (hseparator : isSeparator c = false) (hquote : c ≠ '"')
      (hdigit : c.isDigit = false) (hword : isWordStart c = false)
      (hpunct : Punct.single? c = none) : Fits (stray c) after

theorem Fits.text_ne_nil {s : Span} {after : Text} (h : s.Fits after) : s.text ≠ [] := by
  cases h with
  | @punct p _ hp => cases p <;> simp [text, Punct.text]
  | digits hds hafter hpoint => exact hds.1
  | fraction hwhole hpart hafter => simp [text]
  | word hw hafter => obtain ⟨c, w, rfl, -⟩ := hw; simp [text]
  | _ => simp [text]

/-- A span at the end of a source is complete in front of a character that belongs to no run and
does not make it longer. -/
theorem Fits.of_nil {s : Span} (h : s.Fits []) {c : Char} (hpart : isWordPart c = false)
    (hpoint : c ≠ '.') (hmark : ∀ p, s = .punct p → p.follower? ≠ some c)
    (hcomment : ∀ body, s = .comment body → c = '\n') (hopen : ∀ body, s ≠ .unclosed body)
    (t : Text) : s.Fits (c :: t) := by
  have hdigit : c.isDigit = false := (Bool.or_eq_false_iff.1 hpart).2
  cases h with
  | separator hc => exact .separator hc
  | @comment body _ hbody hafter =>
    obtain rfl := hcomment body rfl
    exact .comment hbody (Text.stops_cons.2 rfl)
  | @punct p _ hp =>
    refine .punct fun x hx hhead ↦ hmark p rfl ?_
    rw [hx, ← hhead]
    rfl
  | quoted hbody => exact .quoted hbody
  | @unclosed body hbody => exact absurd rfl (hopen body)
  | digits hds hafter _ =>
    refine .digits hds (Text.stops_cons.2 hdigit) fun u hu ↦ ?_
    exact absurd (List.cons.inj hu).1 hpoint
  | fraction hwhole hpart hafter => exact .fraction hwhole hpart (Text.stops_cons.2 hdigit)
  | word hw hafter => exact .word hw (Text.stops_cons.2 hpart)
  | stray hseparator hquote hdigit hword hpunct =>
    exact .stray hseparator hquote hdigit hword hpunct

/-! ### What is read, by the first character -/

theorem first_of_isSeparator {c : Char} (h : isSeparator c = true) (rest : Text) :
    first c rest = separator c := by
  rw [first, if_pos h]

theorem first_slash_slash (rest : Text) : first '/' ('/' :: rest) = readComment rest := by
  rw [first, if_neg (by decide), if_pos ⟨rfl, rfl⟩]
  rfl

theorem first_quote (rest : Text) : first '"' rest = readQuoted rest := by
  rw [first, if_neg (by decide), if_neg (fun h ↦ absurd h.1 (by decide)), if_pos rfl]

theorem first_of_isDigit {c : Char} (h : c.isDigit = true) (rest : Text) :
    first c rest =
      readNumber (c :: rest.takeWhile Char.isDigit) (rest.dropWhile Char.isDigit) := by
  have hslash : c ≠ '/' := by rintro rfl; exact absurd h (by decide)
  have hquote : c ≠ '"' := by rintro rfl; exact absurd h (by decide)
  rw [first, isSeparator_of_isDigit h, if_neg Bool.false_ne_true, if_neg (fun h ↦ hslash h.1),
    if_neg hquote, if_pos h]

theorem first_of_isWordStart {c : Char} (h : isWordStart c = true) (rest : Text) :
    first c rest = word (c :: rest.takeWhile isWordPart) := by
  have hslash : c ≠ '/' := by rintro rfl; exact absurd h (by decide)
  have hquote : c ≠ '"' := by rintro rfl; exact absurd h (by decide)
  rw [first, isSeparator_of_isWordStart h, if_neg Bool.false_ne_true, if_neg (fun h ↦ hslash h.1),
    if_neg hquote, isDigit_of_isWordStart h, if_neg Bool.false_ne_true, if_pos h]

/-- A character that is in none of the classes above is left to the table of punctuation. -/
theorem first_of_others {c : Char} {rest : Text} (hseparator : isSeparator c = false)
    (hcomment : ¬ (c = '/' ∧ rest.head? = some '/')) (hquote : c ≠ '"')
    (hdigit : c.isDigit = false) (hword : isWordStart c = false) :
    first c rest = (Punct.first? c rest).elim (stray c) punct := by
  rw [first, hseparator, if_neg Bool.false_ne_true, if_neg hcomment, if_neg hquote, hdigit,
    if_neg Bool.false_ne_true, hword, if_neg Bool.false_ne_true]
  cases Punct.first? c rest with
  | none => rfl
  | some p => rfl

/-! ### What is read fits -/

theorem readComment_spec (rest : Text) : ∃ after,
    '/' :: '/' :: rest = (readComment rest).text ++ after ∧ (readComment rest).Fits after := by
  refine ⟨rest.dropWhile (· != '\n'), by simp [readComment, text], ?_⟩
  refine Fits.comment (fun h ↦ ?_) (Text.stops_dropWhile _ _)
  simpa using List.mem_takeWhile_imp h

theorem readQuoted_spec (rest : Text) : ∃ after,
    '"' :: rest = (readQuoted rest).text ++ after ∧ (readQuoted rest).Fits after := by
  have hbody : '"' ∉ rest.takeWhile (· != '"') := fun h ↦ by
    simpa using List.mem_takeWhile_imp h
  have hsplit := List.takeWhile_append_dropWhile (p := (· != '"')) (l := rest)
  have hstop := Text.stops_dropWhile (· != '"') rest
  cases hd : rest.dropWhile (· != '"') with
  | nil =>
    rw [hd, List.append_nil] at hsplit
    have hread : readQuoted rest = unclosed rest := by simp [readQuoted, hsplit]
    rw [hread]
    exact ⟨[], by simp [text], Fits.unclosed (hsplit ▸ hbody)⟩
  | cons q after =>
    obtain rfl : q = '"' := by
      rw [hd] at hstop
      simpa using Text.stops_cons.1 hstop
    have hlen : (rest.takeWhile (· != '"')).length < rest.length := by
      have := congrArg List.length hsplit
      simp only [hd, List.length_append, List.length_cons] at this
      omega
    have hread : readQuoted rest = quoted (rest.takeWhile (· != '"')) := by
      rw [readQuoted]; exact if_pos hlen
    rw [hread]
    refine ⟨after, ?_, Fits.quoted hbody⟩
    rw [hd] at hsplit
    simp [text, hsplit]

theorem readNumber_spec {whole rest : Text} (hwhole : IsDigits whole)
    (hrest : rest.Stops Char.isDigit) : ∃ after,
      whole ++ rest = (readNumber whole rest).text ++ after ∧
        (readNumber whole rest).Fits after := by
  rw [readNumber.eq_def]
  split
  · next d t =>
    split
    · next hd =>
      refine ⟨t.dropWhile Char.isDigit, by simp [text], ?_⟩
      exact Fits.fraction hwhole (isDigits_cons_takeWhile hd t) (Text.stops_dropWhile _ _)
    · next hd =>
      refine ⟨'.' :: d :: t, rfl, Fits.digits hwhole hrest ?_⟩
      rintro _ ⟨⟩
      exact Text.stops_cons.2 (Bool.eq_false_iff.2 hd)
  · next hne =>
    refine ⟨rest, rfl, Fits.digits hwhole hrest ?_⟩
    rintro (_ | ⟨d, t⟩) rfl
    · exact Text.stops_nil _
    · exact absurd rfl (hne d t)

/-- **The span that is read fits.**  Its text stands at the front, and what follows does not
continue it. -/
theorem first_spec (c : Char) (rest : Text) :
    ∃ after, c :: rest = (first c rest).text ++ after ∧ (first c rest).Fits after := by
  by_cases hseparator : isSeparator c = true
  · rw [first_of_isSeparator hseparator]
    exact ⟨rest, rfl, Fits.separator hseparator⟩
  by_cases hcomment : c = '/' ∧ rest.head? = some '/'
  · obtain ⟨rfl, hr⟩ := hcomment
    obtain ⟨t, rfl⟩ := List.head?_eq_some_iff.1 hr
    rw [first_slash_slash]
    exact readComment_spec t
  by_cases hquote : c = '"'
  · subst hquote
    rw [first_quote]
    exact readQuoted_spec rest
  by_cases hdigit : c.isDigit = true
  · rw [first_of_isDigit hdigit]
    have h := readNumber_spec (isDigits_cons_takeWhile hdigit rest)
      (Text.stops_dropWhile Char.isDigit rest)
    rwa [List.cons_append, List.takeWhile_append_dropWhile] at h
  by_cases hword : isWordStart c = true
  · rw [first_of_isWordStart hword]
    refine ⟨rest.dropWhile isWordPart, by simp [text], ?_⟩
    exact Fits.word ⟨c, _, rfl, hword, fun x hx ↦ List.mem_takeWhile_imp hx⟩
      (Text.stops_dropWhile _ _)
  rw [Bool.not_eq_true] at hseparator hdigit hword
  rw [first_of_others hseparator hcomment hquote hdigit hword]
  cases hp : Punct.first? c rest with
  | some p =>
    obtain ⟨after, hsplit, hclosed⟩ := Punct.first?_spec hcomment hp
    exact ⟨after, hsplit, Fits.punct hclosed⟩
  | none =>
    refine ⟨rest, rfl, Fits.stray hseparator hquote hdigit hword ?_⟩
    exact Punct.single?_of_first? hp

/-! ### What fits is read -/

theorem first_of_closed {p : Punct} {c : Char} {rest after : Text} (hp : p.Closed after)
    (hs : c :: rest = p.text ++ after) : first c rest = punct p := by
  have hfollow : ∀ x, p.follower? = some x → after.head? ≠ some x := hp
  cases p <;> obtain ⟨rfl, rfl⟩ := List.cons.inj hs <;>
    simp_all [first, isSeparator, isWordStart, Punct.first?, Punct.single?, Punct.withEqual?,
      Punct.follower?]

/-- A number without a point and a digit behind it is read as it is. -/
theorem readNumber_of_stops {after : Text} (h : ∀ t : Text, after = '.' :: t → t.Stops Char.isDigit)
    (whole : Text) : readNumber whole after = digits whole := by
  rw [readNumber.eq_def]
  split
  · rw [if_neg]
    exact Bool.eq_false_iff.1 (Text.stops_cons.1 (h _ rfl))
  · rfl

/-- **A span that fits is the one that is read.** -/
theorem first_of_fits {s : Span} {c : Char} {rest after : Text} (h : s.Fits after)
    (hs : c :: rest = s.text ++ after) : first c rest = s := by
  cases h with
  | separator hc =>
    obtain ⟨rfl, rfl⟩ := List.cons.inj hs
    exact first_of_isSeparator hc _
  | @comment body _ hbody hafter =>
    simp only [text, List.cons_append, List.cons.injEq] at hs
    obtain ⟨rfl, rfl⟩ := hs
    have hrun : ∀ x ∈ body, (x != '\n') = true := fun x hx ↦ by
      simpa using ne_of_mem_of_not_mem hx hbody
    rw [first_slash_slash, readComment, Text.takeWhile_run hrun hafter]
  | punct hp => exact first_of_closed hp hs
  | @quoted body _ hbody =>
    simp only [text, List.cons_append, List.append_assoc, List.nil_append, List.cons.injEq] at hs
    obtain ⟨rfl, rfl⟩ := hs
    have hrun : ∀ x ∈ body, (x != '"') = true := fun x hx ↦ by
      simpa using ne_of_mem_of_not_mem hx hbody
    have hstop : Text.Stops (· != '"') ('"' :: after) := Text.stops_cons.2 rfl
    have htake := Text.takeWhile_run hrun hstop
    rw [first_quote, readQuoted, htake]
    exact if_pos (by simp)
  | @unclosed body hbody =>
    simp only [text, List.append_nil, List.cons.injEq] at hs
    obtain ⟨rfl, rfl⟩ := hs
    have hrun : ∀ x ∈ rest, (x != '"') = true := fun x hx ↦ by
      simpa using ne_of_mem_of_not_mem hx hbody
    have htake : rest.takeWhile (· != '"') = rest := List.takeWhile_eq_self_iff.2 hrun
    rw [first_quote, readQuoted, htake]
    exact if_neg (by simp)
  | digits hds hafter hpoint =>
    obtain ⟨d, ds, rfl, hd, hrun⟩ := hds.exists_cons
    simp only [text, List.cons_append, List.cons.injEq] at hs
    obtain ⟨rfl, rfl⟩ := hs
    rw [first_of_isDigit hd, Text.takeWhile_run hrun hafter, Text.dropWhile_run hrun hafter]
    exact readNumber_of_stops hpoint _
  | fraction hwhole hpart hafter =>
    obtain ⟨d, ds, rfl, hd, hrun⟩ := hwhole.exists_cons
    obtain ⟨e, es, rfl, he, hrun'⟩ := hpart.exists_cons
    simp only [text, List.cons_append, List.append_assoc, List.cons.injEq] at hs
    obtain ⟨rfl, rfl⟩ := hs
    have hstop : Text.Stops Char.isDigit ('.' :: e :: (es ++ after)) := Text.stops_cons.2 rfl
    rw [first_of_isDigit hd, Text.takeWhile_run hrun hstop, Text.dropWhile_run hrun hstop,
      readNumber, if_pos he, Text.takeWhile_run hrun' hafter]
  | word hw hafter =>
    obtain ⟨d, w, rfl, hd, hrun⟩ := hw
    simp only [text, List.cons_append, List.cons.injEq] at hs
    obtain ⟨rfl, rfl⟩ := hs
    rw [first_of_isWordStart hd, Text.takeWhile_run hrun hafter]
  | stray hseparator hquote hdigit hword hpunct =>
    obtain ⟨rfl, rfl⟩ := List.cons.inj hs
    have hslash : ¬ (c = '/' ∧ rest.head? = some '/') := by
      rintro ⟨rfl, -⟩
      cases hpunct
    rw [first_of_others hseparator hslash hquote hdigit hword, Punct.first?_of_single? hpunct]
    rfl

end Span

/-! ## The spans of a source -/

/-- Each span of the list fits in front of the spans after it. -/
inductive Fitting : List Span → Prop
  | nil : Fitting []
  | cons {s : Span} {ss : List Span} (hs : s.Fits (ss.flatMap Span.text)) (hss : Fitting ss) :
      Fitting (s :: ss)

theorem Fitting.text_ne_nil {ss : List Span} (h : Fitting ss) : ∀ s ∈ ss, s.text ≠ [] := by
  induction h with
  | nil => rintro _ ⟨⟩
  | cons hs hss ih => exact List.forall_mem_cons.2 ⟨hs.text_ne_nil, ih⟩

/-- An empty text has no spans. -/
theorem Fitting.eq_nil {ss : List Span} (h : Fitting ss) (hnil : ss.flatMap Span.text = []) :
    ss = [] := by
  cases h with
  | nil => rfl
  | cons hs hss =>
    rw [List.flatMap_cons, List.append_eq_nil_iff] at hnil
    exact absurd hnil.1 hs.text_ne_nil

/-- **Every span of a source fits where it stands.** -/
theorem fitting_spans (source : Text) : Fitting (spans source) := by
  fun_induction spans source with
  | case1 => exact Fitting.nil
  | case2 c rest ih =>
    refine Fitting.cons ?_ ih
    obtain ⟨after, hsplit, hfits⟩ := Span.first_spec c rest
    rw [flatMap_text_spans, hsplit, List.drop_left]
    exact hfits

/-- A span that fits in front of a text is the first span of the two together. -/
theorem spans_of_fits {s : Span} {after : Text} (h : s.Fits after) :
    spans (s.text ++ after) = s :: spans after := by
  obtain ⟨c, rest, hsplit⟩ := List.exists_cons_of_ne_nil h.text_ne_nil
  have hfront : c :: (rest ++ after) = s.text ++ after := by rw [hsplit, List.cons_append]
  have hfirst : Span.first c (rest ++ after) = s := Span.first_of_fits h hfront
  rw [← hfront, spans, hfirst, hfront, List.drop_left]

/-- **Spans that fit are the spans of their text.** -/
theorem spans_of_fitting {ss : List Span} (h : Fitting ss) : spans (ss.flatMap Span.text) = ss := by
  induction h with
  | nil => rw [List.flatMap_nil, spans]
  | cons hs hss ih => rw [List.flatMap_cons, spans_of_fits hs, ih]

end LoxTokens
