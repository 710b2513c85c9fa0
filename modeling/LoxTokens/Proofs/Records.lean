import LoxTokens.Command.Session
import LoxTokens.Proofs.Tiling
import Mathlib.Data.List.Basic

/-!
# The log of a scan

A scan sorts its items into two lists, and so loses the order of tokens and errors among each other.
The log keeps that order.  It is written while the scan goes on: a record about an item just before
the call that gives it ends, and one record with the two counts when there is nothing more to sort.

* `Scanner.observedNext` — a call of `next` with the records that it writes.  By `observedNext_eq`
  the end of the file gets none, and every other item gets one.
* `Scanner.observedTokenize` — a whole scan that goes from call to call, with the two lists and the
  log so far.  `observedTokenize_eq` says what it adds to them.
* `log_merges` — the log of a source: its records are the items of the source in order, and either
  list can be read off it.
-/

set_option autoImplicit false

namespace LoxTokens

/-- The record about an item that a span gives. -/
def Record.about : Item → Record
  | .token t => scanned t
  | .error e => failed e

/-- What the log says about an item, at the given time. -/
def Item.logLine (time : Text) : Item → Text
  | .token t => time ++ " TRACE scanned token token=".toList ++ t.text
  | .error e => time ++ " DEBUG lexical error error=".toList ++ e.text

namespace Scanner

/-! ## One call -/

/-- A call of `next`, and the records that it writes. -/
def observedNext (s : Scanner) : Option Item × List Record × Scanner :=
  match _hrest : s.cursor.rest with
  | [] =>
    if s.finished then (none, [], { s with cursor := s.cursor.mark })
    else
      (some (.token (Token.endOfFile s.cursor.line)), [],
        { s with cursor := s.cursor.mark, finished := true })
  | c :: rest =>
    let w := Span.first c rest
    match w.item? s.options s.cursor.line with
    | some i => (some i, [Record.about i], s.past w.text)
    | none => observedNext (s.past w.text)
  termination_by s.cursor.rest.length
  decreasing_by
    obtain ⟨after, hsplit, hfits⟩ := Span.first_spec c rest
    have hpos := List.length_pos_iff.2 hfits.text_ne_nil
    rw [rest_past (_hrest.trans hsplit), _hrest, hsplit, List.length_append]
    omega

/-- The item of a span is never the end of the file, so that the log is told about it. -/
theorem ofItem?_eq_about {o : Options} {w : Span} {line : Nat} {after : Text} {i : Item}
    (hw : w.Fits after) (hi : w.item? o line = some i) :
    Record.ofItem? i = some (Record.about i) := by
  cases i with
  | token t =>
    have hkind : t.isEndOfFile = false := decide_eq_false (hw.yields hi).kind_ne_endOfFile
    rw [Record.ofItem?, hkind]
    rfl
  | error e => rfl

/-- **What one call writes.**  Being observed changes nothing about a call, and it writes the record
of its item, if the item has one. -/
theorem observedNext_eq (s : Scanner) :
    s.observedNext = (s.next.1, (s.next.1.bind Record.ofItem?).toList, s.next.2) := by
  fun_induction observedNext s with
  | case1 s hrest hf => rw [next_of_rest_nil hrest, if_pos hf]; rfl
  | case2 s hrest hf => rw [next_of_rest_nil hrest, if_neg hf]; rfl
  | case3 s c rest hrest w i hi =>
    obtain ⟨after, -, hfits⟩ := Span.first_spec c rest
    rw [next_of_rest_cons hrest, hi, Option.bind_some, ofItem?_eq_about hfits hi]
    rfl
  | case4 s c rest hrest w hi ih =>
    rw [ih, next_of_rest_cons hrest, hi]

theorem next_of_observedNext {s s' : Scanner} {given : Option Item} {records : List Record}
    (h : s.observedNext = (given, records, s')) :
    s.next = (given, s') ∧ records = (given.bind Record.ofItem?).toList := by
  rw [observedNext_eq] at h
  obtain ⟨rfl, hrest⟩ := Prod.mk.inj h
  obtain ⟨rfl, rfl⟩ := Prod.mk.inj hrest
  exact ⟨rfl, rfl⟩

/-! ## A whole scan -/

/-- The rest of a scan, from the lists and the log so far. -/
def observedTokenize (s : Scanner) (found : Scan) (log : List Record) : Scan × List Record :=
  match _hnext : s.observedNext with
  | (none, records, _) =>
    (found, log ++ records ++ [.finished found.tokens.length found.errors.length])
  | (some (.token t), records, s') =>
    observedTokenize s' { found with tokens := found.tokens ++ [t] } (log ++ records)
  | (some (.error e), records, s') =>
    observedTokenize s' { found with errors := found.errors ++ [e] } (log ++ records)
  termination_by s.remaining
  decreasing_by
    all_goals exact remaining_next (next_of_observedNext _hnext).1

/-- **What a scan adds.**  The lists grow by the items to come, the log by their records, and the
last record counts the lists as they are then. -/
theorem observedTokenize_eq (s : Scanner) (found : Scan) (log : List Record) :
    let scan := Scan.ofItems s.items
    let all : Scan := ⟨found.tokens ++ scan.tokens, found.errors ++ scan.errors⟩
    s.observedTokenize found log = (all, log ++ s.items.filterMap Record.ofItem? ++
      [.finished all.tokens.length all.errors.length]) := by
  fun_induction observedTokenize s found log with
  | case1 s found log records s' hobserved =>
    obtain ⟨hnext, rfl⟩ := next_of_observedNext hobserved
    simp [items_of_next_none hnext]
  | case2 s found log t records s' hobserved ih =>
    obtain ⟨hnext, rfl⟩ := next_of_observedNext hobserved
    rw [ih, items_of_next_some hnext, Scan.ofItems_token, List.filterMap_cons]
    cases hrecord : Record.ofItem? (.token t) <;> simp [hrecord]
  | case3 s found log e records s' hobserved ih =>
    obtain ⟨hnext, rfl⟩ := next_of_observedNext hobserved
    rw [ih, items_of_next_some hnext, Scan.ofItems_error, List.filterMap_cons]
    simp [Record.ofItem?]

end Scanner

/-! ## The log of a source -/

/-- The records for tracing are those about tokens. -/
theorem filter_trace_map_about (is : List Item) :
    (is.map Record.about).filter (·.level = .trace) =
      (is.filterMap Item.token?).map Record.scanned := by
  induction is with
  | nil => rfl
  | cons i is ih =>
    cases i with
    | token t => exact congrArg (Record.scanned t :: ·) ih
    | error e => exact ih

theorem filter_debug_map_about (is : List Item) :
    (is.map Record.about).filter (·.level = .debug) =
      (is.filterMap Item.error?).map Record.failed := by
  induction is with
  | nil => rfl
  | cons i is ih =>
    cases i with
    | token t => exact ih
    | error e => exact congrArg (Record.failed e :: ·) ih

theorem text_about (time : Text) (i : Item) : (Record.about i).text time = i.logLine time := by
  have hjoin (label front t : Text) : time ++ ' ' :: label ++ ' ' :: (front ++ t) =
      time ++ (' ' :: label ++ ' ' :: front) ++ t := by simp
  have htrace : " TRACE scanned token token=".toList =
      ' ' :: Level.trace.label ++ ' ' :: "scanned token token=".toList := by decide
  have hdebug : " DEBUG lexical error error=".toList =
      ' ' :: Level.debug.label ++ ' ' :: "lexical error error=".toList := by decide
  cases i with
  | token t => rw [Item.logLine, htrace]; exact hjoin _ _ _
  | error e => rw [Item.logLine, hdebug]; exact hjoin _ _ _

/-- The last line of the log. -/
theorem text_finished (time : Text) (m n : Nat) : (Record.finished m n).text time =
    time ++ " DEBUG scan finished tokens=".toList ++ Text.ofNat m ++ " errors=".toList ++
      Text.ofNat n := by
  have hjoin (label front t u v : Text) : time ++ ' ' :: label ++ ' ' :: (front ++ t ++ u ++ v) =
      time ++ (' ' :: label ++ ' ' :: front) ++ t ++ u ++ v := by simp
  have hdebug : " DEBUG scan finished tokens=".toList =
      ' ' :: Level.debug.label ++ ' ' :: "scan finished tokens=".toList := by decide
  rw [hdebug]
  exact hjoin _ _ _ _ _

/-- The records of items that spans give are the records about them. -/
theorem filterMap_ofItem?_itemsFrom (o : Options) {ss : List Span} (h : Fitting ss) (line : Nat) :
    (Span.itemsFrom o line ss).filterMap Record.ofItem? =
      (Span.itemsFrom o line ss).map Record.about := by
  rw [← List.filterMap_eq_map]
  refine List.filterMap_congr fun i hi ↦ ?_
  obtain ⟨s, after, line', hs, hitem⟩ := exists_fits_of_mem_itemsFrom h hi
  exact Scanner.ofItem?_eq_about hs hitem

/-- The log of a source, by its spans. -/
theorem ofItems_items_ofText (o : Options) (source : Text) :
    Record.ofItems (Scanner.ofText o source).items =
      (Span.itemsFrom o 1 (spans source)).map Record.about ++
        [.finished (tokenize o source).tokens.length (tokenize o source).errors.length] := by
  have hcounted : Record.ofItems (Scanner.ofText o source).items =
      (Scanner.ofText o source).items.filterMap Record.ofItem? ++
        [.finished (tokenize o source).tokens.length (tokenize o source).errors.length] := rfl
  rw [hcounted, Scanner.items_ofText, List.filterMap_append,
    filterMap_ofItem?_itemsFrom o (fitting_spans source)]
  exact congrArg (· ++ _) (List.append_nil _)

theorem Session.flatMap_log (s : Session) (rs : List Record) :
    rs.flatMap s.log = (rs.filter (s.threshold.passes ·.level)).map Notice.record := by
  induction rs with
  | nil => rfl
  | cons r rs ih =>
    rw [List.flatMap_cons, ih, log, List.filter_cons]
    split <;> rfl

/-- The scan that writes the log gives the scan and the log of a source. -/
theorem observedTokenize_ofText (o : Options) (source : Text) :
    (Scanner.ofText o source).observedTokenize ⟨[], []⟩ [] =
      (tokenize o source, Record.ofItems (Scanner.ofText o source).items) :=
  Scanner.observedTokenize_eq _ _ _

/-- **The log of a scan merges its two results.**  Being logged does not change what a scan finds.
The log has one record for each item before the end of the file, in the order in which the items
stand in the source, and then one with the number of tokens and the number of errors.  What it says
about an item is how the item is displayed.  So the records for tracing are the tokens without the
last, the others are the errors and the counts, and a session shows those that it lets through
before it shows the errors. -/
theorem log_merges (o : Options) (source : Text) :
    let scan := tokenize o source
    let last := Record.finished scan.tokens.length scan.errors.length
    ∃ is log,
      (Scanner.ofText o source).observedTokenize ⟨[], []⟩ [] = (scan, log) ∧
      (Scanner.ofText o source).items =
        is ++ [.token (Token.endOfFile (1 + source.newlines))] ∧
      (∀ t, .token t ∈ is → t.kind ≠ .endOfFile) ∧
      Tiled o source is ∧
      log = is.map Record.about ++ [last] ∧
      (∀ time, log.map (Record.text time) = is.map (Item.logLine time) ++
        [time ++ " DEBUG scan finished tokens=".toList ++ Text.ofNat scan.tokens.length ++
          " errors=".toList ++ Text.ofNat scan.errors.length]) ∧
      log.filter (·.level = .trace) = scan.tokens.dropLast.map Record.scanned ∧
      log.filter (·.level = .debug) = scan.errors.map Record.failed ++ [last] ∧
      ∀ threshold : Threshold, ((Session.mk o threshold).scan source).stderr =
        (log.filter (threshold.passes ·.level)).map Notice.record ++
          scan.errors.map fun e ↦ Notice.line e.text := by
  intro scan last
  have htiled := tiled_itemsFrom o (fitting_spans source) 1
  have hkinds : ∀ t, .token t ∈ Span.itemsFrom o 1 (spans source) → t.kind ≠ .endOfFile :=
    fun t ht ↦ kind_ne_endOfFile_of_mem (fitting_spans source) ht
  have hlog := ofItems_items_ofText o source
  have hitems := Scanner.items_ofText o source
  have htokens := Scanner.tokens_tokenize o source
  have herrors := Scanner.errors_tokenize o source
  rw [flatMap_text_spans] at htiled
  generalize Span.itemsFrom o 1 (spans source) = is at htiled hkinds hlog hitems htokens herrors
  refine ⟨is, is.map Record.about ++ [last], ?_, hitems, hkinds, htiled, rfl, fun time ↦ ?_, ?_, ?_,
    fun threshold ↦ ?_⟩
  · rw [observedTokenize_ofText, hlog]
  · rw [List.map_append, List.map_map]
    exact congrArg₂ _ (List.map_congr_left fun i _ ↦ text_about time i)
      (congrArg (fun t ↦ [t]) (text_finished time _ _))
  · rw [List.filter_append, filter_trace_map_about, htokens, List.dropLast_concat]
    exact List.append_nil _
  · rw [List.filter_append, filter_debug_map_about, ← herrors]
    rfl
  · rw [← hlog]
    exact congrArg (· ++ _) (Session.flatMap_log ⟨o, threshold⟩ _)

end LoxTokens
