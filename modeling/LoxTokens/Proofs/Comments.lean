import LoxTokens.Proofs.LineBreak
import LoxTokens.Proofs.Layout

/-!
# Comments

A comment goes to the end of its line, and a scan passes over it.  So it can be taken out of a
source, whatever it says.  What stands in front of it may be cut anywhere: a number and a point, an
operator, and even another comment are read as they are read at the end of a source.  There are two
exceptions.  A string that is open takes the comment in, and a slash makes the comment start one
character earlier.

* `spans_append_of_last` — the spans of two texts, the second of which starts with no digit and does
  not continue the last span of the first.
* `itemsFrom_append_comment` — the items of a text with a comment behind it.
* `EndsInSlash o a` — the last character of the text is a slash and a token.
* `tokenize_comment` — the scan of a source with a comment in it.
* `comments_vanish_iff` — the two exceptions are all there are, and they are needed.
-/

set_option autoImplicit false

namespace LoxTokens

/-! ## What can stand behind the last span -/

namespace Span

/-- A span that is complete with more text behind it stays so, if no digit is added to a point. -/
theorem Fits.append_of_stops {s : Span} {after t : Text} (h : s.Fits after) (hne : after ≠ [])
    (ht : t.Stops Char.isDigit) : s.Fits (after ++ t) := by
  obtain ⟨c, u, rfl⟩ := List.exists_cons_of_ne_nil hne
  cases h with
  | separator hc => exact .separator hc
  | comment hbody hafter => exact .comment hbody (hafter.congr rfl)
  | punct hp => exact .punct hp
  | quoted hbody => exact .quoted hbody
  | digits hds hafter hpoint =>
    refine .digits hds (hafter.congr rfl) fun v hv ↦ ?_
    obtain ⟨rfl, rfl⟩ := List.cons.inj hv
    cases u with
    | nil => exact ht
    | cons d u => exact (hpoint _ rfl).congr rfl
  | fraction hwhole hpart hafter => exact .fraction hwhole hpart (hafter.congr rfl)
  | word hw hafter => exact .word hw (hafter.congr rfl)
  | stray hseparator hquote hdigit hword hpunct =>
    exact .stray hseparator hquote hdigit hword hpunct

end Span

/-- The last span stands at the end. -/
theorem Fitting.fits_of_getLast? {ss : List Span} (h : Fitting ss) {s : Span}
    (hs : ss.getLast? = some s) : s.Fits [] := by
  induction h with
  | nil => cases hs
  | @cons r ss hr hss ih =>
    cases ss with
    | nil =>
      obtain rfl : r = s := Option.some.inj hs
      exact hr
    | cons q ss => exact ih (by rwa [List.getLast?_cons_cons] at hs)

theorem fitting_append_of_last {ss : List Span} (h : Fitting ss) {t : Text}
    (ht : t.Stops Char.isDigit) (hlast : ∀ s, ss.getLast? = some s → s.Fits t) :
    Fitting (ss ++ spans t) := by
  induction h with
  | nil => exact fitting_spans t
  | @cons s ss hs hss ih =>
    rw [List.cons_append]
    cases hss with
    | nil =>
      refine Fitting.cons ?_ (fitting_spans t)
      rw [List.nil_append, flatMap_text_spans]
      exact hlast s rfl
    | @cons r ss hr hss =>
      refine Fitting.cons ?_ (ih fun q hq ↦ hlast q (by rwa [List.getLast?_cons_cons]))
      -- there is text between the span and the place where more is added
      have hne : (r :: ss).flatMap Span.text ≠ [] := fun hnil ↦
        hr.text_ne_nil (List.append_eq_nil_iff.1 hnil).1
      rw [List.flatMap_append, flatMap_text_spans]
      exact hs.append_of_stops hne ht

/-- **Spans at the end of a source.**  The spans of a text stay what they are with more text behind
them that the last of them does not take in. -/
theorem spans_append_of_last {a t : Text} (ht : t.Stops Char.isDigit)
    (hlast : ∀ s, (spans a).getLast? = some s → s.Fits t) :
    spans (a ++ t) = spans a ++ spans t := by
  have h := spans_of_fitting (fitting_append_of_last (fitting_spans a) ht hlast)
  rwa [List.flatMap_append, flatMap_text_spans, flatMap_text_spans] at h

theorem spans_text_of_fits_nil {s : Span} (h : s.Fits []) : spans s.text = [s] := by
  have hspans := spans_of_fits h
  rwa [List.append_nil, spans] at hspans

/-- The text of the last span can be replaced by any text that looks like it. -/
theorem spans_replace_last {a : Text} {ss : List Span} {s : Span} (ha : spans a = ss ++ [s])
    {t : Text} (ht : s.text.LooksLike t) :
    a = ss.flatMap Span.text ++ s.text ∧
      spans (ss.flatMap Span.text ++ t) = ss ++ spans t := by
  have htext : a = ss.flatMap Span.text ++ s.text := by
    rw [← flatMap_text_spans a, ha, List.flatMap_append, List.flatMap_singleton]
  have hs : s.Fits [] := (fitting_spans a).fits_of_getLast? (by rw [ha, List.getLast?_concat])
  have hfitting : Fitting (ss ++ spans s.text) := by
    rw [spans_text_of_fits_nil hs, ← ha]
    exact fitting_spans a
  have h := spans_of_fitting (fitting_append_congr hfitting ht)
  rw [List.flatMap_append, flatMap_text_spans] at h
  exact ⟨htext, h⟩

/-! ## Items before and behind a comment -/

section

variable {a b : Text} (hopen : ∀ s, .unclosed s ∉ spans a) (hb : b.Stops (· != '\n'))
include hopen hb

/-- At the end of a line, nothing that stands before is continued. -/
theorem itemsFrom_append_line (o : Options) (line : Nat) :
    Span.itemsFrom o line (spans (a ++ b)) =
      Span.itemsFrom o line (spans a) ++ Span.itemsFrom o (line + a.newlines) (spans b) := by
  cases b with
  | nil => rw [List.append_nil, spans, Span.itemsFrom, List.append_nil]
  | cons c t =>
    obtain rfl : c = '\n' := by simpa using Text.stops_cons.1 hb
    have hspans : spans (a ++ '\n' :: t) = spans a ++ spans ('\n' :: t) := by
      refine spans_append_of_last (Text.stops_cons.2 rfl) fun s hs ↦ ?_
      refine ((fitting_spans a).fits_of_getLast? hs).of_nil rfl (by decide) ?_ (fun _ _ ↦ rfl) ?_ t
      · rintro p -
        cases p <;> decide
      · rintro body rfl
        exact hopen body (List.mem_of_getLast? hs)
    rw [hspans, Span.itemsFrom_append, flatMap_text_spans]

/-- **Items around a comment.**  Unless a slash stands right before it, a comment ends what stands
before it just as the end of the line would. -/
theorem itemsFrom_append_comment (hslash : (spans a).getLast? ≠ some (.punct .slash)) {body : Text}
    (hbody : '\n' ∉ body) (o : Options) (line : Nat) :
    Span.itemsFrom o line (spans (a ++ ('/' :: '/' :: body ++ b))) =
      Span.itemsFrom o line (spans a) ++ Span.itemsFrom o (line + a.newlines) (spans b) := by
  by_cases hlast : ∃ c, (spans a).getLast? = some (.comment c)
  · -- the comment is the end of another one
    obtain ⟨c, hc⟩ := hlast
    obtain ⟨ss, hss⟩ := List.getLast?_eq_some_iff.1 hc
    have hnone : '\n' ∉ c := by
      cases (fitting_spans a).fits_of_getLast? hc with
      | comment hc' hafter => exact hc'
    have hlonger : '\n' ∉ c ++ '/' :: '/' :: body := by simp [hnone, hbody]
    have hlike : (Span.comment c).text.LooksLike ('/' :: '/' :: (c ++ '/' :: '/' :: body) ++ b) :=
      ⟨rfl, fun u u' hu ↦ absurd (List.cons.inj hu).1 (by decide)⟩
    obtain ⟨ha, hspans⟩ := spans_replace_last hss hlike
    have hsplit : a ++ ('/' :: '/' :: body ++ b) =
        ss.flatMap Span.text ++ ('/' :: '/' :: (c ++ '/' :: '/' :: body) ++ b) := by
      simp [ha, Span.text]
    have hlines : a.newlines = Text.newlines (ss.flatMap Span.text) := by
      rw [ha, Text.newlines_append, Span.text, newlines_comment hnone, Nat.add_zero]
    have hitems : Span.itemsFrom o line (ss ++ [.comment c]) = Span.itemsFrom o line ss := by
      rw [Span.itemsFrom_append]
      exact List.append_nil _
    rw [hsplit, hspans, Span.itemsFrom_append, itemsFrom_comment hlonger hb, hss, hitems, hlines]
  · have hspans : spans (a ++ ('/' :: '/' :: body ++ b)) =
        spans a ++ spans ('/' :: '/' :: body ++ b) := by
      refine spans_append_of_last (Text.stops_cons.2 rfl) fun s hs ↦ ?_
      refine ((fitting_spans a).fits_of_getLast? hs).of_nil rfl (by decide) ?_ ?_ ?_ _
      · rintro p rfl hp
        rcases Punct.follower?_eq_some_iff.1 hp with ⟨rfl, -⟩ | ⟨-, hx⟩
        · exact hslash hs
        · exact absurd hx (by decide)
      · rintro c rfl
        exact absurd ⟨c, hs⟩ hlast
      · rintro c rfl
        exact hopen c (List.mem_of_getLast? hs)
    rw [hspans, Span.itemsFrom_append, flatMap_text_spans, itemsFrom_comment hbody hb]

end

/-! ## A slash at the end -/

/-- The last character of the text is a slash, and the token for it is the last item but for the end
of the file. -/
def EndsInSlash (o : Options) (a : Text) : Prop := ∃ n t,
  ((Scanner.ofText o a).skip n).next.1 = some (.token t) ∧ t.kind = .punct .slash ∧
    ((Scanner.ofText o a).skip n).next.2.cursor.current = a.byteLength

theorem Span.eq_punct_of_item? {o : Options} {line : Nat} {s : Span} {t : Token} {p : Punct}
    (hs : s.item? o line = some (.token t)) (ht : t.kind = .punct p) : s = .punct p := by
  cases s with
  | punct q =>
    cases hs
    rw [TokenKind.punct.inj ht]
  | quoted body =>
    rw [item?] at hs
    split at hs <;> cases hs
    cases ht
  | digits ds =>
    rw [item?] at hs
    split at hs <;> cases hs
    cases ht
  | word w =>
    rcases wordKind_cases o w with ⟨k, -, hk⟩ | ⟨-, hk⟩ <;> rw [item?, hk] at hs <;> cases hs <;>
      cases ht
  | fraction whole part =>
    cases hs
    cases ht
  | _ => cases hs

namespace Scanner

/-- A call that reads the rest of a source and gives a slash has read the slash last. -/
theorem getLast?_spans_of_next {s : Scanner} {t : Token} (hnext : s.next.1 = some (.token t))
    (ht : t.kind = .punct .slash) (hend : s.next.2.cursor.rest = []) :
    (spans s.cursor.rest).getLast? = some (.punct .slash) := by
  induction s using rounds_induction with
  | done s hrest =>
    rw [next_of_rest_nil hrest] at hnext
    split at hnext <;> cases hnext
    cases ht
  | round s w after hrest hw ih =>
    have hn := next_of_fits hrest hw
    cases hi : w.item? s.options s.cursor.line with
    | some i =>
      rw [hi] at hn
      rw [hn] at hnext hend
      cases hnext
      rw [rest_past hrest] at hend
      rw [hend, spans, Span.eq_punct_of_item? hi ht]
      rfl
    | none =>
      rw [hi] at hn
      rw [hn] at hnext hend
      rw [List.getLast?_cons, ih hnext hend]
      rfl

/-- A slash that is the last span is given by some call, which reads the rest of the source. -/
theorem exists_next_of_getLast? (s : Scanner)
    (hlast : (spans s.cursor.rest).getLast? = some (.punct .slash)) :
    ∃ n t, (s.skip n).next.1 = some (.token t) ∧ t.kind = .punct .slash ∧
      (s.skip n).next.2.cursor.rest = [] := by
  induction s using rounds_induction with
  | done s hrest => cases hlast
  | round s w after hrest hw ih =>
    have hn := next_of_fits hrest hw
    cases hafter : (spans after).getLast? with
    | none =>
      have hnil := List.getLast?_eq_none_iff.1 hafter
      rw [hnil] at hlast
      cases hlast
      have hempty : after = [] := by
        rw [← flatMap_text_spans after, hnil]
        rfl
      refine ⟨0, _, congrArg Prod.fst hn, rfl, ?_⟩
      exact (congrArg (fun r ↦ r.2.cursor.rest) hn).trans ((rest_past hrest).trans hempty)
    | some r =>
      rw [List.getLast?_cons, hafter] at hlast
      obtain ⟨n, t, hcall⟩ := ih (hafter.trans hlast)
      cases hi : w.item? s.options s.cursor.line with
      | some i =>
        rw [hi] at hn
        refine ⟨n + 1, t, ?_⟩
        rw [skip, hn]
        exact hcall
      | none =>
        rw [hi] at hn
        refine ⟨n, t, ?_⟩
        cases n with
        | zero =>
          rw [skip, hn]
          exact hcall
        | succ n =>
          rw [skip, hn]
          exact hcall

end Scanner

theorem endsInSlash_iff {o : Options} {a : Text} :
    EndsInSlash o a ↔ (spans a).getLast? = some (.punct .slash) := by
  -- a call has read everything if and only if its offset is that of the end
  have hend : ∀ n, ((Scanner.ofText o a).skip n).next.2.cursor.current = a.byteLength ↔
      ((Scanner.ofText o a).skip n).next.2.cursor.rest = [] := by
    intro n
    rw [← Scanner.skip_succ]
    obtain ⟨before, hstands, -⟩ := Scanner.exists_standsIn_skip o a (n + 1)
    rw [hstands.current_eq]
    constructor
    · intro hlength
      have hsplit : before ++ ((Scanner.ofText o a).skip (n + 1)).cursor.rest = a ++ [] := by
        rw [List.append_nil, ← hstands.source_eq]
      exact (Text.append_inj_of_byteLength_eq hsplit hlength).2
    · intro hnil
      have hsource := hstands.source_eq
      rw [hnil, List.append_nil] at hsource
      rw [hsource]
  constructor
  · rintro ⟨n, t, hnext, ht, hcurrent⟩
    obtain ⟨ss, hss, -⟩ := (Scanner.ofText o a).exists_spans_skip n
    have hlast := Scanner.getLast?_spans_of_next hnext ht ((hend n).1 hcurrent)
    change spans a = _ at hss
    rw [hss, List.getLast?_append, hlast]
    rfl
  · intro hlast
    obtain ⟨n, t, hnext, ht, hrest⟩ := (Scanner.ofText o a).exists_next_of_getLast? hlast
    exact ⟨n, t, hnext, ht, (hend n).2 hrest⟩

/-! ## Scans of sources with a comment -/

/-- A comment leaves no trace, if the last span before it is neither an open string nor a slash. -/
theorem scan_append_comment (o : Options) {a body b : Text} (hopen : ∀ s, .unclosed s ∉ spans a)
    (hslash : (spans a).getLast? ≠ some (.punct .slash)) (hbody : '\n' ∉ body)
    (hb : b.Stops (· != '\n')) :
    tokenize o (a ++ ('/' :: '/' :: body ++ b)) = tokenize o (a ++ b) := by
  have hlines : Text.newlines (a ++ ('/' :: '/' :: body ++ b)) = Text.newlines (a ++ b) := by
    rw [Text.newlines_append, Text.newlines_append, newlines_comment hbody, Nat.zero_add,
      Text.newlines_append]
  rw [tokenize, Scanner.tokenize, Scanner.items_ofText,
    itemsFrom_append_comment hopen hb hslash hbody, hlines, ← itemsFrom_append_line hopen hb,
    ← Scanner.items_ofText]
  rfl

theorem Text.stops_of_lineEnd {b : Text} (h : b = [] ∨ b.head? = some '\n') :
    b.Stops (· != '\n') := by
  rcases h with rfl | h
  · exact stops_nil _
  · obtain ⟨t, rfl⟩ := List.head?_eq_some_iff.1 h
    exact stops_cons.2 rfl

/-- **Comments vanish.**  A comment at the end of a line can be taken out of a source, and the scan
gives the same tokens and the same errors, on the same lines; unless there is an open string before
it, or a slash that touches it. -/
theorem tokenize_comment (o : Options) {a body b : Text} (hbody : '\n' ∉ body)
    (hb : b = [] ∨ b.head? = some '\n')
    (hclosed : ∀ e ∈ (tokenize o a).errors, e.fault ≠ .unterminatedString)
    (hslash : ¬ EndsInSlash o a) :
    tokenize o (a ++ '/' :: '/' :: body ++ b) = tokenize o (a ++ b) := by
  rw [List.append_assoc]
  exact scan_append_comment o (unclosed_notMem_spans hclosed) (mt endsInSlash_iff.2 hslash) hbody
    (Text.stops_of_lineEnd hb)

/-- Behind a number and a point. -/
theorem tokenize_comment_point :
    let a : Text := ['"', '/', '\n', '"', '@', '1', '.']
    let body : Text := ['7', '"', '/', 'é']
    let b : Text := ['\n', '5']
    '\n' ∉ body ∧ b.head? = some '\n' ∧
    (∀ e ∈ (tokenize Options.default a).errors, e.fault ≠ .unterminatedString) ∧
    ¬ EndsInSlash Options.default a ∧
    tokenize Options.default (a ++ '/' :: '/' :: body ++ b) =
      ⟨[⟨.string ['/', '\n'], ['/', '\n'], 1⟩, ⟨.number (.integer 1), ['1'], 2⟩,
        ⟨.punct .dot, ['.'], 2⟩, ⟨.number (.integer 5), ['5'], 3⟩, Token.endOfFile 3],
        [⟨.unexpectedCharacter '@', 2⟩]⟩ := by
  intro a body b
  have hbody : '\n' ∉ body := by decide
  have hclosed : ∀ e ∈ (tokenize Options.default a).errors, e.fault ≠ .unterminatedString := by
    decide +kernel
  have hslash : ¬ EndsInSlash Options.default a := by
    rw [endsInSlash_iff]
    decide +kernel
  refine ⟨hbody, rfl, hclosed, hslash, ?_⟩
  rw [tokenize_comment Options.default hbody (.inr rfl) hclosed hslash]
  decide +kernel

/-! ## The two exceptions -/

/-- An open string is the last span. -/
theorem Fitting.exists_append_unclosed {ss : List Span} (h : Fitting ss) {o : Options}
    {line l : Nat} (herror : .error ⟨.unterminatedString, l⟩ ∈ Span.itemsFrom o line ss) :
    ∃ ts body, ss = ts ++ [.unclosed body] := by
  induction h generalizing line with
  | nil => cases herror
  | @cons s ss hs hss ih =>
    rw [Span.itemsFrom, List.mem_append, Option.mem_toList] at herror
    rcases herror with herror | herror
    · generalize hafter : ss.flatMap Span.text = after at hs
      cases hs.yields herror with
      | @unclosed body hbody =>
        rw [hss.eq_nil hafter]
        exact ⟨[], body, rfl⟩
    · obtain ⟨ts, body, rfl⟩ := ih herror
      exact ⟨s :: ts, body, rfl⟩

/-- A slash becomes a part of the comment behind it. -/
theorem tokenize_slash_comment_ne (o : Options) {a : Text}
    (hslash : (spans a).getLast? = some (.punct .slash)) :
    tokenize o (a ++ ['/', '/']) ≠ tokenize o a := by
  obtain ⟨ss, hss⟩ := List.getLast?_eq_some_iff.1 hslash
  have hlike : (Span.punct .slash).text.LooksLike ['/', '/', '/'] :=
    ⟨rfl, fun u u' hu ↦ absurd (List.cons.inj hu).1 (by decide)⟩
  obtain ⟨ha, hspans⟩ := spans_replace_last hss hlike
  have hsplit : a ++ ['/', '/'] = ss.flatMap Span.text ++ ['/', '/', '/'] := by
    simp [ha, Span.text, Punct.text]
  have hcomment : spans ['/', '/', '/'] = [.comment ['/']] := by decide +kernel
  intro h
  have htokens := congrArg Scan.tokens h
  rw [hsplit, Scanner.tokens_tokenize, Scanner.tokens_tokenize, hspans, hcomment, hss,
    Span.itemsFrom_append, Span.itemsFrom_append, List.filterMap_append,
    List.filterMap_append] at htokens
  cases List.append_cancel_left (List.append_inj_left' htokens rfl)

/-- An open string is closed by a quote in a comment. -/
theorem tokenize_open_comment_ne (o : Options) {a s : Text} {ss : List Span}
    (hss : spans a = ss ++ [.unclosed s]) :
    tokenize o (a ++ ['/', '/', '"']) ≠ tokenize o a := by
  have hquote : '"' ∉ s ++ ['/', '/'] := by
    cases (fitting_spans a).fits_of_getLast? (by rw [hss, List.getLast?_concat]) with
    | unclosed hs => simp [hs]
  have hlike : (Span.unclosed s).text.LooksLike (Span.quoted (s ++ ['/', '/'])).text :=
    ⟨rfl, fun u u' hu ↦ absurd (List.cons.inj hu).1 (by decide)⟩
  obtain ⟨ha, hspans⟩ := spans_replace_last hss hlike
  have hsplit : a ++ ['/', '/', '"'] =
      ss.flatMap Span.text ++ (Span.quoted (s ++ ['/', '/'])).text := by
    simp [ha, Span.text]
  have hstring : spans (Span.quoted (s ++ ['/', '/'])).text = [.quoted (s ++ ['/', '/'])] :=
    spans_text_of_fits_nil (.quoted hquote)
  intro h
  have herrors := congrArg Scan.errors h
  rw [hsplit, Scanner.errors_tokenize, Scanner.errors_tokenize, hspans, hstring, hss,
    Span.itemsFrom_append, Span.itemsFrom_append, List.filterMap_append,
    List.filterMap_append] at herrors
  have hlast := List.append_cancel_left herrors
  rw [Span.itemsFrom, Span.item?, if_neg (by simp)] at hlast
  cases hlast

/-- **There are no other exceptions, and these are needed.**  The comments behind a text vanish,
whatever they say and whatever lines follow, if and only if no string is open at its end and no
slash. -/
theorem comments_vanish_iff (o : Options) (a : Text) :
    (∀ body b : Text, '\n' ∉ body → b.Stops (· != '\n') →
      tokenize o (a ++ ('/' :: '/' :: body ++ b)) = tokenize o (a ++ b)) ↔
    (∀ e ∈ (tokenize o a).errors, e.fault ≠ .unterminatedString) ∧ ¬ EndsInSlash o a := by
  constructor
  · intro h
    refine ⟨fun e he hfault ↦ ?_, fun hslash ↦ ?_⟩
    · obtain ⟨fault, line⟩ := e
      obtain rfl : fault = .unterminatedString := hfault
      rw [Scanner.errors_tokenize] at he
      obtain ⟨i, hi, hie⟩ := List.mem_filterMap.1 he
      rw [Item.error?_eq_some_iff.1 hie] at hi
      obtain ⟨ss, s, hss⟩ := (fitting_spans a).exists_append_unclosed hi
      refine tokenize_open_comment_ne o hss ?_
      simpa using h ['"'] [] (by decide) (Text.stops_nil _)
    · refine tokenize_slash_comment_ne o (endsInSlash_iff.1 hslash) ?_
      simpa using h [] [] (by decide) (Text.stops_nil _)
  · rintro ⟨hclosed, hslash⟩ body b hbody hb
    exact scan_append_comment o (unclosed_notMem_spans hclosed) (mt endsInSlash_iff.2 hslash)
      hbody hb

end LoxTokens
