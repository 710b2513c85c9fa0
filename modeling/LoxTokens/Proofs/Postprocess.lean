import LoxTokens.Proofs.Run

/-!
# What the options of a scan do

The options are consulted in the middle of a scan, where a string or a word has just been read.  But
they might as well be left to whoever gets the tokens: the scan under any options is the default
scan with its tokens changed one by one, and the errors are the same.

* `Token.foldCase t` — the token, or a keyword in its place if it is an identifier that spells one
  up to the case of letters.  The keyword is searched for by its spelling, and `Keyword.find?_lower`
  says that the look-up of the scan finds the same one.
* `KeywordCase.apply` and `EmptyStrings.apply` — what each option makes of the tokens of a scan;
  they commute (`EmptyStrings.apply_comm`).
* `Scan.under o s` — the scan `s` with its tokens changed as the options say.  `ofItems_item?` is
  the scan of one span, from which that of all spans follows.
* `tokenize_eq_apply` — the scan of a source under any options.
-/

set_option autoImplicit false

namespace LoxTokens

/-! ## Changing tokens -/

/-- An identifier that in small letters is the spelling of a keyword is that keyword.  Other tokens,
and the lexemes and lines of all tokens, stay. -/
def Token.foldCase (t : Token) : Token :=
  match t.kind, Keyword.all.find? fun k ↦ k.text = t.lexeme.lower with
  | .identifier, some k => { t with kind := .keyword k }
  | _, _ => t

/-- Whether the token is the string without text. -/
def Token.isEmptyString (t : Token) : Bool := t.kind = .string []

/-- What a comparison of reserved words makes of tokens that were scanned letter for letter. -/
def KeywordCase.apply : KeywordCase → List Token → List Token
  | .exact, ts => ts
  | .insensitive, ts => ts.map Token.foldCase

/-- What a treatment of empty strings makes of tokens with all strings among them. -/
def EmptyStrings.apply : EmptyStrings → List Token → List Token
  | .emit, ts => ts
  | .suppress, ts => ts.filter (!·.isEmptyString)

/-- What options make of the tokens of the default scan. -/
def Options.apply (o : Options) (ts : List Token) : List Token :=
  o.emptyStrings.apply (o.keywordCase.apply ts)

/-- A default scan with its tokens changed.  Its errors stay. -/
def Scan.under (o : Options) (s : Scan) : Scan := ⟨o.apply s.tokens, s.errors⟩

theorem Token.foldCase_of_kind_ne {t : Token} (h : t.kind ≠ .identifier) : t.foldCase = t := by
  rw [foldCase]
  split
  · next hkind _ => exact absurd hkind h
  · rfl

theorem Token.isEmptyString_foldCase (t : Token) : t.foldCase.isEmptyString = t.isEmptyString := by
  rw [foldCase]
  split
  · next hkind _ => simp [isEmptyString, hkind]
  · rfl

/-- It does not matter which option comes first. -/
theorem EmptyStrings.apply_comm (e : EmptyStrings) (k : KeywordCase) (ts : List Token) :
    e.apply (k.apply ts) = k.apply (e.apply ts) := by
  cases e with
  | emit => rfl
  | suppress =>
    cases k with
    | exact => rfl
    | insensitive =>
      have hkept : (!·.isEmptyString) ∘ Token.foldCase = (!·.isEmptyString) := by
        funext t
        rw [Function.comp_apply, t.isEmptyString_foldCase]
      rw [apply, KeywordCase.apply, KeywordCase.apply, apply, List.filter_map, hkept]

theorem Options.apply_nil (o : Options) : o.apply [] = [] := by
  obtain ⟨e, k⟩ := o
  cases e <;> cases k <;> rfl

theorem Options.apply_append (o : Options) (ts us : List Token) :
    o.apply (ts ++ us) = o.apply ts ++ o.apply us := by
  obtain ⟨e, k⟩ := o
  cases e <;> cases k <;> simp [apply, EmptyStrings.apply, KeywordCase.apply]

/-- Options leave a token alone that is neither an identifier nor the empty string. -/
theorem Options.apply_singleton {t : Token} (hkind : t.kind ≠ .identifier)
    (hstring : t.isEmptyString = false) (o : Options) : o.apply [t] = [t] := by
  obtain ⟨e, k⟩ := o
  cases e <;> cases k <;>
    simp [apply, EmptyStrings.apply, KeywordCase.apply, Token.foldCase_of_kind_ne hkind, hstring]

/-! ## One span -/

/-- Reserved words have no capitals. -/
theorem Keyword.lower_text (k : Keyword) : k.text.lower = k.text := by cases k <;> decide

/-- The search by spelling finds every keyword. -/
theorem Keyword.find?_text_eq_some_iff {k : Keyword} {w : Text} :
    all.find? (fun k ↦ k.text = w) = some k ↔ k.text = w := by
  constructor
  · intro h
    simpa using List.find?_some h
  · intro h
    cases hf : all.find? (fun k ↦ k.text = w) with
    | none => exact absurd h (by simpa using List.find?_eq_none.1 hf k (mem_all k))
    | some l =>
      have hl : l.text = w := by simpa using List.find?_some hf
      rw [text_inj (hl.trans h.symm)]

/-- To look a word up in any case of letters is to search for its spelling in small letters. -/
theorem Keyword.find?_lower (w : Text) :
    all.find? (fun k ↦ k.text = w.lower) = ofText? .insensitive w :=
  Option.ext fun _ ↦
    find?_text_eq_some_iff.trans (eq_comm.trans lookup_reserved_eq_some_iff.symm)

/-- A word that is a keyword letter for letter is the same keyword up to the case of letters. -/
theorem Keyword.ofText?_insensitive {w : Text} {k : Keyword} (h : ofText? .exact w = some k) :
    ofText? .insensitive w = some k := by
  have htext : w = k.text := lookup_reserved_eq_some_iff.1 h
  exact lookup_reserved_eq_some_iff.2 (by rw [htext, lower_text])

/-- The token of a word, made from its token under the default options. -/
theorem foldCase_wordKind (e : EmptyStrings) (w : Text) (line : Nat) :
    Token.foldCase ⟨Span.wordKind Options.default w, w, line⟩ =
      ⟨Span.wordKind ⟨e, .insensitive⟩ w, w, line⟩ := by
  rcases Span.wordKind_cases Options.default w with ⟨k, hk, hkind⟩ | ⟨-, hkind⟩
  · have hfold : Keyword.ofText? .insensitive w = some k := Keyword.ofText?_insensitive hk
    rw [hkind, Token.foldCase_of_kind_ne (by simp), Span.wordKind, hfold]
  · -- what is left are the same two cases on both sides
    rw [hkind, Token.foldCase, Keyword.find?_lower, Span.wordKind]
    cases Keyword.ofText? .insensitive w <;> rfl

theorem Options.apply_string (o : Options) (body : Text) (line : Nat) :
    o.apply [⟨.string body, body, line⟩] =
      if body = [] ∧ o.emptyStrings = .suppress then [] else [⟨.string body, body, line⟩] := by
  obtain ⟨e, k⟩ := o
  by_cases hbody : body = [] <;> cases e <;> cases k <;>
    simp [apply, EmptyStrings.apply, KeywordCase.apply, Token.foldCase, Token.isEmptyString, hbody]

theorem Options.apply_word (o : Options) (w : Text) (line : Nat) :
    o.apply [⟨Span.wordKind Options.default w, w, line⟩] = [⟨Span.wordKind o w, w, line⟩] := by
  obtain ⟨e, k⟩ := o
  have hstring : ∀ o, Token.isEmptyString ⟨Span.wordKind o w, w, line⟩ = false := fun o ↦ by
    rcases Span.wordKind_cases o w with ⟨k, -, hkind⟩ | ⟨-, hkind⟩ <;> rw [hkind] <;> rfl
  have hcase : k.apply [⟨Span.wordKind Options.default w, w, line⟩] =
      [⟨Span.wordKind ⟨e, k⟩ w, w, line⟩] := by
    cases k with
    | exact => rfl
    | insensitive => exact congrArg (fun t ↦ [t]) (foldCase_wordKind e w line)
  rw [apply, hcase]
  cases e with
  | emit => rfl
  | suppress => simp [EmptyStrings.apply, hstring]

namespace Scan

variable (o : Options)

theorem under_nil : (ofItems []).under o = ofItems [] := by
  rw [ofItems_nil, under, o.apply_nil]

theorem under_error (e : LexError) : (ofItems [.error e]).under o = ofItems [.error e] := by
  rw [ofItems_error, ofItems_nil, under, o.apply_nil]

theorem under_token (t : Token) : (ofItems [.token t]).under o = ⟨o.apply [t], []⟩ := rfl

theorem under_append (is js : List Item) : (ofItems (is ++ js)).under o =
    ⟨((ofItems is).under o).tokens ++ ((ofItems js).under o).tokens,
      ((ofItems is).under o).errors ++ ((ofItems js).under o).errors⟩ := by
  rw [ofItems_append, under, o.apply_append]
  rfl

end Scan

/-- What the options make of one span. -/
theorem ofItems_item? (o : Options) (line : Nat) (s : Span) :
    Scan.ofItems (s.item? o line).toList =
      (Scan.ofItems (s.item? Options.default line).toList).under o := by
  have htoken : ∀ t : Token, t.kind ≠ .identifier → t.isEmptyString = false →
      Scan.ofItems [.token t] = (Scan.ofItems [.token t]).under o := fun t hkind hstring ↦ by
    rw [Scan.under_token, o.apply_singleton hkind hstring]
    rfl
  cases s with
  | separator c => exact (Scan.under_nil o).symm
  | comment body => exact (Scan.under_nil o).symm
  | punct p => exact htoken _ (by simp) rfl
  | quoted body =>
    have hdefault : (Span.quoted body).item? Options.default line =
        some (.token ⟨.string body, body, line⟩) := if_neg fun h ↦ nomatch h.2
    rw [hdefault, Option.toList_some, Scan.under_token, o.apply_string, Span.item?]
    split <;> rfl
  | unclosed body => exact (Scan.under_error o _).symm
  | digits ds =>
    rw [Span.item?, Span.item?]
    cases Number.ofDigits? ds with
    | none => exact (Scan.under_error o _).symm
    | some n => exact htoken _ (by simp) rfl
  | fraction whole part => exact htoken _ (by simp) rfl
  | word w =>
    have hword : (Span.word w).item? Options.default line =
        some (.token ⟨Span.wordKind Options.default w, w, line⟩) := rfl
    rw [hword, Option.toList_some, Scan.under_token, o.apply_word]
    rfl
  | stray c => exact (Scan.under_error o _).symm

/-- What the options make of spans that follow each other. -/
theorem ofItems_itemsFrom (o : Options) (line : Nat) (ss : List Span) :
    Scan.ofItems (Span.itemsFrom o line ss) =
      (Scan.ofItems (Span.itemsFrom Options.default line ss)).under o := by
  induction ss generalizing line with
  | nil => exact (Scan.under_nil o).symm
  | cons s ss ih =>
    rw [Span.itemsFrom, Span.itemsFrom, Scan.under_append, Scan.ofItems_append, ofItems_item?, ih]

/-! ## A whole source -/

theorem tokenize_eq_under (o : Options) (source : Text) :
    tokenize o source = (tokenize Options.default source).under o := by
  have hlast : o.apply [Token.endOfFile (1 + source.newlines)] =
      [Token.endOfFile (1 + source.newlines)] := o.apply_singleton (by simp [Token.endOfFile]) rfl
  rw [tokenize, Scanner.tokenize, Scanner.items_ofText, Scan.ofItems_append, ofItems_itemsFrom,
    tokenize, Scanner.tokenize, Scanner.items_ofText, Scan.under_append, Scan.under_token, hlast]
  rfl

/-- **Options only change tokens.**  Under any options, the scan of a source has the errors of the
default scan, and the tokens of the default scan with the keywords recognised and the empty strings
dropped that the options ask for.  It does not matter which of the two is done first. -/
theorem tokenize_eq_apply (o : Options) (source : Text) :
    let scan := tokenize Options.default source
    (tokenize o source).errors = scan.errors ∧
    (tokenize o source).tokens = o.emptyStrings.apply (o.keywordCase.apply scan.tokens) ∧
    ∀ (e : EmptyStrings) (k : KeywordCase) (ts : List Token),
      e.apply (k.apply ts) = k.apply (e.apply ts) := by
  intro scan
  rw [tokenize_eq_under o source]
  exact ⟨rfl, rfl, EmptyStrings.apply_comm⟩

end LoxTokens
