import LoxTokens.Proofs.Run

/-!
# Errors, character by character

Which characters of a source are reported is known without spans, from an automaton with four
states that reads one character at a time.

* `Mode` and `Mode.read` — the automaton: in code, after a slash, in a comment, in a string.
* `strays before t` — an error for each unknown character of `t` that is read in code, where
  `before` is the text in front of `t`.
* `Mode.Opens m t` — the invariant between two spans: the first character of `t` is read as it would
  be in code, though the automaton can be behind a slash or at the end of a comment.
* `errors_eq_predicted` — the errors of a scan, other than those about numbers, are the ones that
  the automaton predicts, whatever the options are.
-/

set_option autoImplicit false

namespace LoxTokens

/-! ## The automaton -/

/-- What a character is read as. -/
inductive Mode
  | code
  /-- Code, right behind a slash. -/
  | slash
  | comment
  | string
  deriving DecidableEq, Repr

namespace Mode

/-- The mode after one more character. -/
def read : Mode → Char → Mode
  | code, c => if c = '"' then string else if c = '/' then slash else code
  | slash, c => if c = '"' then string else if c = '/' then comment else code
  | comment, c => if c = '\n' then code else comment
  | string, c => if c = '"' then code else string

/-- The mode after more text. -/
def readAll (m : Mode) (t : Text) : Mode := t.foldl read m

/-- Whether characters count in the mode: in code, also behind a slash. -/
def isCode : Mode → Bool
  | code | slash => true
  | comment | string => false

theorem readAll_cons (m : Mode) (c : Char) (t : Text) :
    m.readAll (c :: t) = (m.read c).readAll t := rfl

theorem readAll_append (m : Mode) (s t : Text) : m.readAll (s ++ t) = (m.readAll s).readAll t :=
  List.foldl_append

end Mode

/-- The mode in which the character after the text is read. -/
def modeAfter (before : Text) : Mode := Mode.code.readAll before

/-- Whether a character can stand in code: the ASCII letters and digits, and a few others. -/
def isKnown (c : Char) : Bool :=
  c.isAlphanum || c ∈ ['_', '(', ')', '{', '}', ',', '.', '-', '+', ';', '*', '!', '=', '<', '>',
    '/', '"', ' ', '\t', '\r', '\n']

/-- The errors about unknown characters of a text, behind the text `before`: one for each unknown
character in code, on the line that the text in front of the character gives. -/
def strays : Text → Text → List LexError
  | _, [] => []
  | before, c :: rest =>
    if (modeAfter before).isCode && !isKnown c then
      ⟨.unexpectedCharacter c, 1 + before.newlines⟩ :: strays (before ++ [c]) rest
    else strays (before ++ [c]) rest

/-- All that the automaton predicts for a source: its unknown characters, and the string that is
open at the end. -/
def predicted (source : Text) : List LexError :=
  strays [] source ++
    if modeAfter source = .string then [⟨.unterminatedString, 1 + source.newlines⟩] else []

/-- Whether a fault is about a number. -/
def Fault.isInvalidNumber : Fault → Bool
  | invalidNumber _ => true
  | _ => false

/-- The errors among the items, without those about numbers. -/
def reported (is : List Item) : List LexError :=
  (is.filterMap Item.error?).filter fun e ↦ !e.fault.isInvalidNumber

/-! ## Runs of the automaton -/

theorem modeAfter_append (s t : Text) : modeAfter (s ++ t) = (modeAfter s).readAll t :=
  Mode.readAll_append Mode.code s t

namespace Mode

variable {m : Mode} {t : Text}

/-- A text that never leaves a mode. -/
theorem readAll_of_stays (h : ∀ x ∈ t, m.read x = m) : m.readAll t = m := by
  induction t with
  | nil => rfl
  | cons c t ih =>
    rw [readAll_cons, h c List.mem_cons_self]
    exact ih fun x hx ↦ h x (List.mem_cons_of_mem c hx)

theorem read_code {c : Char} (hquote : c ≠ '"') (hslash : c ≠ '/') : code.read c = code := by
  rw [read, if_neg hquote, if_neg hslash]

theorem read_comment {c : Char} (h : c ≠ '\n') : comment.read c = comment := if_neg h

theorem read_string {c : Char} (h : c ≠ '"') : string.read c = string := if_neg h

/-- In code, the automaton stays there over characters other than quotes and slashes. -/
theorem readAll_code_of_ordinary {t : Text} (hquote : '"' ∉ t) (hslash : '/' ∉ t) :
    code.readAll t = code :=
  readAll_of_stays fun _ hx ↦ read_code (ne_of_mem_of_not_mem hx hquote)
    (ne_of_mem_of_not_mem hx hslash)

theorem readAll_digits {ds : Text} (h : IsDigits ds) : code.readAll ds = code :=
  readAll_code_of_ordinary (Text.notMem_of_class h.2 rfl) (Text.notMem_of_class h.2 rfl)

theorem readAll_punct {p : Punct} (h : p ≠ .slash) : code.readAll p.text = code := by
  cases p <;> first | rfl | exact absurd rfl h

theorem stays_in_comment {body : Text} (h : '\n' ∉ body) :
    ∀ x ∈ body, comment.read x = comment :=
  fun _ hx ↦ read_comment (ne_of_mem_of_not_mem hx h)

theorem stays_in_string {body : Text} (h : '"' ∉ body) :
    ∀ x ∈ body, string.read x = string :=
  fun _ hx ↦ read_string (ne_of_mem_of_not_mem hx h)

theorem readAll_comment {body : Text} (h : '\n' ∉ body) :
    code.readAll ('/' :: '/' :: body) = comment :=
  readAll_of_stays (stays_in_comment h)

theorem readAll_string {body : Text} (h : '"' ∉ body) :
    code.readAll ('"' :: body) = string :=
  readAll_of_stays (stays_in_string h)

/-- The automaton is not in a string, and reads the first character of the text as in code. -/
structure Opens (m : Mode) (t : Text) : Prop where
  ne_string : m ≠ string
  read_eq : ∀ x ∈ t.head?, m.read x = code.read x

theorem opens_code (t : Text) : code.Opens t := ⟨by decide, fun _ _ ↦ rfl⟩

theorem opens_slash (h : t.head? ≠ some '/') : slash.Opens t := by
  refine ⟨by decide, fun x hx ↦ ?_⟩
  have hslash : x ≠ '/' := by rintro rfl; exact h hx
  rw [read, read, if_neg hslash, if_neg hslash]

theorem opens_comment (h : t.Stops (· != '\n')) : comment.Opens t := by
  refine ⟨by decide, fun x hx ↦ ?_⟩
  have hline : x = '\n' := by simpa using h x hx
  rw [hline]
  rfl

/-- Where the mode opens a text that is not empty, it might as well be code. -/
theorem Opens.readAll_eq {s : Text} (h : m.Opens (s ++ t)) (hs : s ≠ []) :
    m.readAll s = code.readAll s := by
  obtain ⟨c, s, rfl⟩ := List.exists_cons_of_ne_nil hs
  rw [readAll_cons, readAll_cons, h.read_eq c rfl]

/-- Only a line feed is read in a comment as in code. -/
theorem Opens.isCode {c : Char} (h : m.Opens (c :: t)) (hc : c ≠ '\n') : m.isCode = true := by
  have hread := h.read_eq c rfl
  cases m with
  | code => rfl
  | slash => rfl
  | comment =>
    rw [read_comment hc, read] at hread
    split at hread
    · cases hread
    split at hread <;> cases hread
  | string => exact absurd rfl h.ne_string

end Mode

/-! ## Stray characters -/

theorem strays_append (before s t : Text) :
    strays before (s ++ t) = strays before s ++ strays (before ++ s) t := by
  induction s generalizing before with
  | nil => rw [List.append_nil]; rfl
  | cons c s ih =>
    rw [List.cons_append, strays, strays, ih, List.append_assoc, List.singleton_append]
    split <;> rfl

/-- Known characters are never reported. -/
theorem strays_of_isKnown {t : Text} (h : ∀ x ∈ t, isKnown x = true) (before : Text) :
    strays before t = [] := by
  induction t generalizing before with
  | nil => rfl
  | cons c t ih =>
    rw [strays, h c List.mem_cons_self, Bool.not_true, Bool.and_false, if_neg Bool.false_ne_true]
    exact ih (fun x hx ↦ h x (List.mem_cons_of_mem c hx)) _

/-- Nothing is reported in a comment or a string. -/
theorem strays_of_stays {m : Mode} {before t : Text} (hm : modeAfter before = m)
    (hcode : m.isCode = false) (h : ∀ x ∈ t, m.read x = m) : strays before t = [] := by
  induction t generalizing before with
  | nil => rfl
  | cons c t ih =>
    rw [strays, hm, hcode, Bool.false_and, if_neg Bool.false_ne_true]
    refine ih ?_ fun x hx ↦ h x (List.mem_cons_of_mem c hx)
    rw [modeAfter_append, hm]
    exact h c List.mem_cons_self

/-- Known characters and then a comment or the body of a string. -/
theorem strays_of_isKnown_of_stays {m : Mode} {before s t : Text}
    (hs : s.all isKnown = true) (hm : modeAfter (before ++ s) = m) (hcode : m.isCode = false)
    (ht : ∀ x ∈ t, m.read x = m) : strays before (s ++ t) = [] := by
  rw [strays_append, strays_of_isKnown (List.all_eq_true.1 hs), strays_of_stays hm hcode ht]
  rfl

theorem mem_strays_cons {e : LexError} {before t : Text} {c : Char} :
    e ∈ strays before (c :: t) ↔
      ((modeAfter before).isCode = true ∧ isKnown c = false ∧
        e = ⟨.unexpectedCharacter c, 1 + before.newlines⟩) ∨ e ∈ strays (before ++ [c]) t := by
  rw [strays]
  split
  · next h =>
    rw [Bool.and_eq_true, Bool.not_eq_true'] at h
    simp [h.1, h.2]
  · next h =>
    rw [Bool.and_eq_true, Bool.not_eq_true'] at h
    refine ⟨.inr, ?_⟩
    rintro (⟨hcode, hknown, -⟩ | he)
    · exact absurd ⟨hcode, hknown⟩ h
    · exact he

/-- What is reported, by position. -/
theorem mem_strays_iff {e : LexError} {before t : Text} : e ∈ strays before t ↔
    ∃ s c u, t = s ++ c :: u ∧ (modeAfter (before ++ s)).isCode = true ∧ isKnown c = false ∧
      e = ⟨.unexpectedCharacter c, 1 + (before ++ s).newlines⟩ := by
  induction t generalizing before with
  | nil => simp [strays]
  | cons d t ih =>
    rw [mem_strays_cons, ih]
    constructor
    · rintro (⟨hcode, hknown, rfl⟩ | ⟨s, c, u, rfl, h⟩)
      · refine ⟨[], d, t, rfl, ?_⟩
        rw [List.append_nil]
        exact ⟨hcode, hknown, rfl⟩
      · refine ⟨d :: s, c, u, rfl, ?_⟩
        rwa [List.append_assoc, List.singleton_append] at h
    · rintro ⟨_ | ⟨_, s⟩, c, u, hsplit, h⟩
      · obtain ⟨rfl, rfl⟩ := List.cons.inj hsplit
        rw [List.append_nil] at h
        exact .inl h
      · obtain ⟨rfl, rfl⟩ := List.cons.inj hsplit
        refine .inr ⟨s, c, u, rfl, ?_⟩
        rwa [List.append_assoc, List.singleton_append]

/-! ## Known characters -/

theorem isKnown_of_isDigit {c : Char} (h : c.isDigit = true) : isKnown c = true := by
  rw [isKnown, Char.isAlphanum, h, Bool.or_true, Bool.true_or]

theorem isKnown_of_isWordStart {c : Char} (h : isWordStart c = true) : isKnown c = true := by
  rw [isWordStart, Bool.or_eq_true, decide_eq_true_eq] at h
  rcases h with h | rfl
  · rw [isKnown, Char.isAlphanum, h, Bool.true_or, Bool.true_or]
  · decide

theorem isKnown_of_isWordPart {c : Char} (h : isWordPart c = true) : isKnown c = true := by
  rw [isWordPart, Bool.or_eq_true] at h
  rcases h with h | h
  · exact isKnown_of_isWordStart h
  · exact isKnown_of_isDigit h

theorem isKnown_of_isSeparator {c : Char} (h : isSeparator c = true) : isKnown c = true := by
  rcases isSeparator_iff.1 h with rfl | rfl | rfl | rfl <;> decide

theorem isKnown_of_mem_punct {p : Punct} {c : Char} (h : c ∈ p.text) : isKnown c = true := by
  have hall : p.text.all isKnown = true := by cases p <;> decide
  exact List.all_eq_true.1 hall c h

/-- A character of no class is unknown. -/
theorem isKnown_eq_false {c : Char} (hseparator : isSeparator c = false) (hquote : c ≠ '"')
    (hdigit : c.isDigit = false) (hword : isWordStart c = false)
    (hpunct : Punct.single? c = none) : isKnown c = false := by
  have hletter : c.isAlpha = false := by
    rw [isWordStart, Bool.or_eq_false_iff] at hword
    exact hword.1
  rw [isKnown, Char.isAlphanum, hletter, hdigit, Bool.or_self, Bool.false_or,
    decide_eq_false_iff_not]
  intro hc
  simp only [List.mem_cons, List.not_mem_nil, or_false] at hc
  rcases hc with rfl | rfl | rfl | rfl | rfl | rfl | rfl | rfl | rfl | rfl | rfl | rfl | rfl | rfl |
    rfl | rfl | rfl | rfl | rfl | rfl | rfl
  all_goals first
    | exact absurd hpunct (by decide)
    | exact absurd hseparator (by decide)
    | exact absurd hword (by decide)
    | exact hquote rfl

/-! ## One span -/

theorem reported_append (is js : List Item) :
    reported (is ++ js) = reported is ++ reported js := by
  rw [reported, List.filterMap_append, List.filter_append]
  rfl

namespace Span

/-- Over a span that is not an open string, the automaton gets to where the next span opens. -/
theorem Fits.opens {s : Span} {after : Text} (h : s.Fits after)
    (hs : ∀ body, s ≠ .unclosed body) : (Mode.code.readAll s.text).Opens after := by
  cases h with
  | @separator c _ hc =>
    have hquote : c ≠ '"' := by rintro rfl; cases hc
    have hslash : c ≠ '/' := by rintro rfl; cases hc
    have hread : Mode.code.readAll [c] = .code := Mode.read_code hquote hslash
    rw [text, hread]
    exact Mode.opens_code after
  | comment hbody hafter =>
    rw [text, Mode.readAll_comment hbody]
    exact Mode.opens_comment hafter
  | @punct p _ hp =>
    by_cases hslash : p = .slash
    · rw [hslash]
      exact Mode.opens_slash (hp '/' (by rw [hslash]; rfl))
    · rw [text, Mode.readAll_punct hslash]
      exact Mode.opens_code after
  | quoted hbody =>
    rw [text, Mode.readAll_append, Mode.readAll_string hbody]
    exact Mode.opens_code after
  | unclosed hbody => exact absurd rfl (hs _)
  | digits hds hafter hpoint =>
    rw [text, Mode.readAll_digits hds]
    exact Mode.opens_code after
  | @fraction whole part _ hwhole hpart hafter =>
    rw [text, Mode.readAll_append, Mode.readAll_digits hwhole, Mode.readAll_cons,
      Mode.read_code (by decide) (by decide), Mode.readAll_digits hpart]
    exact Mode.opens_code after
  | word hw hafter =>
    have hpart := hw.forall_isWordPart
    rw [text, Mode.readAll_code_of_ordinary (Text.notMem_of_class hpart rfl)
      (Text.notMem_of_class hpart rfl)]
    exact Mode.opens_code after
  | @stray c _ hseparator hquote hdigit hword hpunct =>
    have hslash : c ≠ '/' := by rintro rfl; cases hpunct
    have hread : Mode.code.readAll [c] = .code := Mode.read_code hquote hslash
    rw [text, hread]
    exact Mode.opens_code after

/-- In a string with or without an end, nothing is reported. -/
theorem strays_string {before body : Text} (hquote : (modeAfter before).read '"' = .string)
    (hbody : '"' ∉ body) : strays before ('"' :: body) = [] := by
  refine strays_of_isKnown_of_stays (m := .string) (s := ['"']) (by decide) ?_ rfl
    (Mode.stays_in_string hbody)
  rw [modeAfter_append]
  exact hquote

/-- A stray character is the only span in which the automaton finds an unknown character. -/
theorem Fits.strays_eq {s : Span} {before after : Text} (h : s.Fits after)
    (hopens : (modeAfter before).Opens (s.text ++ after)) : strays before s.text =
      match s with
      | .stray c => [⟨.unexpectedCharacter c, 1 + before.newlines⟩]
      | _ => [] := by
  cases h with
  | separator hc =>
    exact strays_of_isKnown (List.forall_mem_singleton.2 (isKnown_of_isSeparator hc)) before
  | @comment body _ hbody hafter =>
    have hopens' : (modeAfter before).Opens (['/', '/'] ++ (body ++ after)) := hopens
    refine strays_of_isKnown_of_stays (m := .comment) (s := ['/', '/']) (by decide) ?_ rfl
      (Mode.stays_in_comment hbody)
    rw [modeAfter_append, hopens'.readAll_eq (List.cons_ne_nil _ _)]
    rfl
  | punct hp => exact strays_of_isKnown (fun _ hx ↦ isKnown_of_mem_punct hx) before
  | @quoted body _ hbody =>
    have hstart : strays before ('"' :: body) = [] := strays_string (hopens.read_eq _ rfl) hbody
    rw [text, strays_append, hstart]
    exact strays_of_isKnown (List.forall_mem_singleton.2 rfl) _
  | unclosed hbody => exact strays_string (hopens.read_eq _ rfl) hbody
  | digits hds hafter hpoint =>
    exact strays_of_isKnown (fun x hx ↦ isKnown_of_isDigit (hds.2 x hx)) before
  | @fraction whole part _ hwhole hpart hafter =>
    refine strays_of_isKnown (fun x hx ↦ ?_) before
    rcases List.mem_append.1 hx with hx | hx
    · exact isKnown_of_isDigit (hwhole.2 x hx)
    rcases List.mem_cons.1 hx with rfl | hx
    · decide
    · exact isKnown_of_isDigit (hpart.2 x hx)
  | word hw hafter =>
    exact strays_of_isKnown (fun x hx ↦ isKnown_of_isWordPart (hw.forall_isWordPart x hx)) before
  | @stray c _ hseparator hquote hdigit hword hpunct =>
    have hline : c ≠ '\n' := by rintro rfl; cases hseparator
    have hknown := isKnown_eq_false hseparator hquote hdigit hword hpunct
    rw [text, strays, hopens.isCode hline, hknown, Bool.not_false, Bool.and_true, if_pos rfl]
    rfl

/-- What a span other than an open string reports are the unknown characters of its text. -/
theorem Fits.reported_item? {s : Span} {before after : Text} (h : s.Fits after)
    (hs : ∀ body, s ≠ .unclosed body) (hopens : (modeAfter before).Opens (s.text ++ after))
    (o : Options) : reported (s.item? o (1 + before.newlines)).toList = strays before s.text := by
  rw [h.strays_eq hopens]
  cases h with
  | separator hc => rfl
  | comment hbody hafter => rfl
  | punct hp => rfl
  | quoted hbody =>
    rw [item?]
    split <;> rfl
  | unclosed hbody => exact absurd rfl (hs _)
  | digits hds hafter hpoint =>
    rw [item?_digits hds]
    split <;> rfl
  | fraction hwhole hpart hafter => rfl
  | word hw hafter => rfl
  | stray hseparator hquote hdigit hword hpunct =>
    rw [item?, text, newlines_of_isSeparator hseparator]
    rfl

/-- An open string goes to the end. -/
theorem Fits.unclosed_spec {body after : Text} (h : (Span.unclosed body).Fits after) :
    '"' ∉ body ∧ after = [] := by
  cases h with
  | unclosed hbody => exact ⟨hbody, rfl⟩

end Span

/-! ## All spans -/

/-- The automaton goes through spans and reports what they report. -/
theorem reported_itemsFrom (o : Options) {ss : List Span} (h : Fitting ss) {before : Text}
    (hopens : (modeAfter before).Opens (ss.flatMap Span.text)) :
    reported (Span.itemsFrom o (1 + before.newlines) ss) =
      strays before (ss.flatMap Span.text) ++
        if modeAfter (before ++ ss.flatMap Span.text) = .string then
          [⟨.unterminatedString, 1 + (before ++ ss.flatMap Span.text).newlines⟩] else [] := by
  induction h generalizing before with
  | nil =>
    rw [List.flatMap_nil, List.append_nil, if_neg hopens.ne_string]
    rfl
  | @cons s ss hs hss ih =>
    rw [List.flatMap_cons] at hopens
    have hmode : modeAfter (before ++ s.text) = Mode.code.readAll s.text := by
      rw [modeAfter_append, hopens.readAll_eq hs.text_ne_nil]
    rw [Span.itemsFrom, reported_append, List.flatMap_cons, strays_append,
      ← List.append_assoc before]
    by_cases hunclosed : ∃ body, s = .unclosed body
    · -- nothing follows an open string, so that the automaton ends in it
      obtain ⟨body, rfl⟩ := hunclosed
      obtain ⟨hbody, hend⟩ := hs.unclosed_spec
      obtain rfl := hss.eq_nil hend
      have hstring : modeAfter (before ++ '"' :: body) = .string :=
        hmode.trans (Mode.readAll_string hbody)
      have hstrays : strays before ('"' :: body) = [] :=
        Span.strays_string (hopens.read_eq _ rfl) hbody
      rw [List.flatMap_nil, List.append_nil, Span.text, if_pos hstring, hstrays,
        Text.newlines_append, ← Nat.add_assoc]
      rfl
    · have hs' : ∀ body, s ≠ .unclosed body := fun body h ↦ hunclosed ⟨body, h⟩
      have hnext : (modeAfter (before ++ s.text)).Opens (ss.flatMap Span.text) := by
        rw [hmode]
        exact hs.opens hs'
      rw [hs.reported_item? hs' hopens, List.append_assoc, ← ih hnext, Text.newlines_append,
        Nat.add_assoc]

/-- The error about an open string is at the end. -/
theorem Span.unclosed_of_yields {s : Span} {line l : Nat} {after : Text}
    (h : s.Yields line after (.error ⟨.unterminatedString, l⟩)) :
    after = [] ∧ l = line + s.text.newlines := by
  cases h with
  | unclosed hbody => exact ⟨rfl, rfl⟩

/-- No item comes behind an open string. -/
theorem eq_nil_of_itemsFrom {o : Options} {ss : List Span} (h : Fitting ss) {line l : Nat}
    {is is' : List Item}
    (hitems : Span.itemsFrom o line ss = is ++ .error ⟨.unterminatedString, l⟩ :: is') :
    is' = [] ∧ l = line + Text.newlines (ss.flatMap Span.text) := by
  induction h generalizing line is with
  | nil =>
    rw [Span.itemsFrom, eq_comm, List.append_eq_nil_iff] at hitems
    cases hitems.2
  | @cons s ss hs hss ih =>
    rw [Span.itemsFrom] at hitems
    rw [List.flatMap_cons, Text.newlines_append, ← Nat.add_assoc]
    cases hi : s.item? o line with
    | none =>
      rw [hi] at hitems
      exact ih hitems
    | some i =>
      rw [hi, Option.toList_some, List.singleton_append] at hitems
      cases is with
      | nil =>
        obtain ⟨rfl, rfl⟩ := List.cons.inj hitems
        obtain ⟨hend, hline⟩ := Span.unclosed_of_yields (hs.yields hi)
        rw [hend, hss.eq_nil hend]
        exact ⟨rfl, hline⟩
      | cons j is => exact ih (List.cons.inj hitems).2

/-! ## The errors of a source -/

section

variable {o : Options} {source : Text}

/-- Behind an open string there is only the end of the file. -/
theorem items_after_unterminated {is is' : List Item} {line : Nat}
    (h : (Scanner.ofText o source).items = is ++ .error ⟨.unterminatedString, line⟩ :: is') :
    is' = [.token (Token.endOfFile line)] := by
  rw [Scanner.items_ofText] at h
  rcases List.eq_nil_or_concat is' with rfl | ⟨js, j, rfl⟩
  · have hlast := List.append_inj_right' h rfl
    cases hlast
  · rw [List.concat_eq_append, ← List.cons_append, ← List.append_assoc] at h
    have hitems := List.append_inj_left' h rfl
    have hlast := List.append_inj_right' h rfl
    obtain ⟨rfl, hline⟩ := eq_nil_of_itemsFrom (fitting_spans source) hitems
    rw [flatMap_text_spans] at hline
    rw [hline, hlast]
    rfl

/-- An open string is the last error. -/
theorem errors_after_unterminated {es es' : List LexError} {e : LexError}
    (h : (tokenize o source).errors = es ++ e :: es') (he : e.fault = .unterminatedString) :
    es' = [] := by
  obtain ⟨is, js, hitems, -, hjs⟩ := List.filterMap_eq_append_iff.1 h
  obtain ⟨js, i, is', rfl, -, hi, his'⟩ := List.filterMap_eq_cons_iff.1 hjs
  obtain ⟨fault, line⟩ := e
  obtain rfl : fault = .unterminatedString := he
  obtain rfl : i = .error ⟨.unterminatedString, line⟩ := by
    cases i with
    | token t => cases hi
    | error e => cases hi; rfl
  rw [← List.append_assoc] at hitems
  rw [items_after_unterminated hitems] at his'
  exact his'.symm

theorem reported_items (o : Options) (source : Text) :
    reported (Scanner.ofText o source).items = predicted source := by
  have hopens : (modeAfter []).Opens ((spans source).flatMap Span.text) := Mode.opens_code _
  have h := reported_itemsFrom o (fitting_spans source) hopens
  rw [flatMap_text_spans, List.nil_append] at h
  rw [Scanner.items_ofText, reported_append]
  exact (List.append_nil _).trans h

end

/-- **The automaton predicts the errors.**  Apart from those about numbers, the errors of a scan are
one for each unknown character in code and one for a string that is open at the end, whatever the
options are.  An open string is the last error, and the end of the file follows it. -/
theorem errors_eq_predicted (o : Options) (source : Text) :
    ((tokenize o source).errors.filter fun e ↦ !e.fault.isInvalidNumber) = predicted source ∧
    (∀ c line, ⟨.unexpectedCharacter c, line⟩ ∈ (tokenize o source).errors ↔
      ∃ before after, source = before ++ c :: after ∧ (modeAfter before).isCode = true ∧
        isKnown c = false ∧ line = 1 + before.newlines) ∧
    (∀ es e es', (tokenize o source).errors = es ++ e :: es' → e.fault = .unterminatedString →
      es' = []) ∧
    (∀ is line is', (Scanner.ofText o source).items =
      is ++ .error ⟨.unterminatedString, line⟩ :: is' → is' = [.token (Token.endOfFile line)]) ∧
    ∀ o', ((tokenize o' source).errors.filter fun e ↦ !e.fault.isInvalidNumber) =
      (tokenize o source).errors.filter fun e ↦ !e.fault.isInvalidNumber := by
  refine ⟨reported_items o source, fun c line ↦ ?_, fun _ _ _ h he ↦ errors_after_unterminated h he,
    fun _ _ _ h ↦ items_after_unterminated h,
    fun o' ↦ (reported_items o' source).trans (reported_items o source).symm⟩
  have hmem : ⟨.unexpectedCharacter c, line⟩ ∈ (tokenize o source).errors ↔
      ⟨.unexpectedCharacter c, line⟩ ∈ reported (Scanner.ofText o source).items := by
    rw [reported, List.mem_filter]
    exact (and_iff_left rfl).symm
  rw [hmem, reported_items, predicted, List.mem_append, mem_strays_iff]
  constructor
  · rintro (⟨before, d, after, hsplit, hcode, hknown, he⟩ | he)
    · cases he
      exact ⟨before, after, hsplit, hcode, hknown, rfl⟩
    · split at he <;> simp at he
  · rintro ⟨before, after, hsplit, hcode, hknown, rfl⟩
    exact .inl ⟨before, c, after, hsplit, hcode, hknown, rfl⟩

end LoxTokens
