import LoxTokens.Proofs.Peekable
import LoxTokens.Proofs.Run
import LoxTokens.Proofs.Slices

/-!
# A scanner that counts bytes

The scanner of this library holds the text that is left to read.  This file has one that holds its
whole source as bytes instead, together with two offsets into it and an iterator over the characters
that is shared by everything it reads.  A lexeme is a slice of the source, and there may be none:
offsets can be in the wrong order, or fall into a character.

* `Reader` — such a scanner; `Reader.next` reads spans until one of them makes an item.  It fails if
  a slice cannot be cut or a loop goes on for too long.
* `HasRead r source s w after` — the reader `r` has read the text `w` since it stood where the
  scanner `s` stands, and has the text `after` before it.
* `HasRead.mark`, `HasRead.peek`, `HasRead.advance_cons`, `HasRead.advanceIf_cons` and
  `HasRead.advanceUntil` — what the operations on single characters and runs do to that.
* `HasRead.lexeme?_eq` and `HasRead.slice?_body` — the slices that can be cut then.
-/

set_option autoImplicit false

namespace LoxTokens

/-- The characters of a text, each with its offset, if the first one is at the offset `n`. -/
def Text.indexed : ℕ → Text → List (ℕ × Char)
  | _, [] => []
  | n, c :: t => (n, c) :: indexed (n + c.utf8Size) t

theorem Text.map_snd_indexed (n : ℕ) (t : Text) : (t.indexed n).map Prod.snd = t := by
  induction t generalizing n with
  | nil => rfl
  | cons c t ih => rw [indexed, List.map_cons, ih]

/-- The value of a number literal.  Only one with a fraction has a point. -/
def Number.ofLiteral? (fraction : Bool) (w : Text) : Option Number :=
  if fraction then
    some (ofParts (w.takeWhile (· != '.')) (w.dropWhile (· != '.')).tail)
  else ofDigits? w

/-- A scan in progress that knows its source as bytes, and its place in it by offsets. -/
structure Reader (σ : Type) where
  source : Bytes
  /-- The characters that are still to be read, with their offsets. -/
  iter : σ
  options : Options
  /-- The offset at which the current span starts. -/
  start : ℕ := 0
  /-- The offset behind the last character that was taken. -/
  current : ℕ := 0
  /-- The line on which the current span starts. -/
  startLine : ℕ := 1
  /-- The line behind the last character that was taken. -/
  line : ℕ := 1
  /-- Whether the end-of-file token has been given. -/
  finished : Bool := false

namespace Reader

variable {σ : Type} [Peekable σ (ℕ × Char)]

/-- The reader in front of a source. -/
def ofText (o : Options) (source : Text) : Reader σ :=
  { source := source.bytes, iter := Peekable.ofList (source.indexed 0), options := o }

/-- Starts a new span. -/
def mark (r : Reader σ) : Reader σ := { r with start := r.current, startLine := r.line }

/-- Takes the next character, if there is one. -/
def advance (r : Reader σ) : Option Char × Reader σ :=
  match Peekable.next r.iter with
  | (none, iter) => (none, { r with iter := iter })
  | (some (offset, c), iter) =>
    (some c, { r with
      iter := iter
      current := offset + c.utf8Size
      line := if c = '\n' then r.line + 1 else r.line })

/-- Shows the character behind the next `n` ones. -/
def peek (n : ℕ) (r : Reader σ) : Option Char × Reader σ :=
  let shown := Peekable.peek n r.iter
  (shown.1.map Prod.snd, { r with iter := shown.2 })

/-- Takes the next character if it is the given one. -/
def advanceIf (c : Char) (r : Reader σ) : Bool × Reader σ :=
  let (next, r) := r.peek 0
  if next = some c then (true, r.advance.2) else (false, r)

/-- Takes characters up to one at which to stop, if that takes no more than the given number of
rounds. -/
def advanceWithin (stop : Char → Bool) : ℕ → Reader σ → Option (Reader σ)
  | 0, _ => none
  | n + 1, r =>
    match r.peek 0 with
    | (none, r) => some r
    | (some c, r) => if stop c then some r else advanceWithin stop n r.advance.2

/-- Takes characters up to one at which to stop.  There is no result if that takes more rounds than
the source has bytes, and one. -/
def advanceUntil (stop : Char → Bool) (r : Reader σ) : Option (Reader σ) :=
  r.advanceWithin stop (r.source.length + 1)

/-- The text of the current span so far, if it can be cut out of the source. -/
def lexeme? (r : Reader σ) : Option Text := r.source.slice? r.start r.current

/-! ## Spans -/

/-- Takes the body of a string and the character behind it, which is its closing quote if there is
one. -/
def closeString (r : Reader σ) : Option (Option Char × Reader σ) := do
  let r ← r.advanceUntil (· == '"')
  return r.advance

/-- Reads a string behind its opening quote.  Its body is one byte away from either end. -/
def readString (r : Reader σ) : Option (Option (Except LexError TokenKind) × Reader σ) := do
  match ← r.closeString with
  | (none, r) => return (some (.error ⟨.unterminatedString, r.line⟩), r)
  | (some _, r) =>
    let body ← r.source.slice? (r.start + 1) (r.current - 1)
    if body = [] ∧ r.options.emptyStrings = .suppress then return (none, r)
    return (some (.ok (.string body)), r)

/-- Whether a point comes next with a digit behind it. -/
def atFraction (r : Reader σ) : Bool × Reader σ :=
  let (next, r) := r.peek 0
  if next = some '.' then
    let (second, r) := r.peek 1
    (second.any Char.isDigit, r)
  else (false, r)

/-- Reads a number behind its first digit. -/
def readNumber (r : Reader σ) : Option (Except LexError TokenKind × Reader σ) := do
  let r ← r.advanceUntil (!·.isDigit)
  let (fraction, r) := r.atFraction
  let r ← if fraction then r.advance.2.advanceUntil (!·.isDigit) else some r
  let w ← r.lexeme?
  match Number.ofLiteral? fraction w with
  | some n => return (.ok (.number n), r)
  | none => return (.error ⟨.invalidNumber w, r.line⟩, r)

/-- Reads a word behind its first character. -/
def readWord (r : Reader σ) : Option (TokenKind × Reader σ) := do
  let r ← r.advanceUntil (!isWordPart ·)
  let w ← r.lexeme?
  return (Span.wordKind r.options w, r)

/-- Reads on behind a character that is no letter, digit or quote and does not separate tokens. -/
def readMark (c : Char) (r : Reader σ) : Option (Except LexError TokenKind) × Reader σ :=
  match Punct.single? c, Punct.withEqual? c with
  | none, _ => (some (.error ⟨.unexpectedCharacter c, r.line⟩), r)
  | some p, none => (some (.ok (.punct p)), r)
  | some p, some q =>
    let (equal, r) := r.advanceIf '='
    (some (.ok (.punct (if equal then q else p))), r)

/-- Reads on behind the first character of a span, and says what kind of token the span is, if it
is one. -/
def readKind (c : Char) (r : Reader σ) : Option (Option (Except LexError TokenKind) × Reader σ) :=
  if isSeparator c then some (none, r)
  else if c = '/' then
    match r.advanceIf '/' with
    | (true, r) => do return (none, ← r.advanceUntil (· == '\n'))
    | (false, r) => some (some (.ok (.punct .slash)), r)
  else if c = '"' then r.readString
  else if c.isDigit then r.readNumber.map fun (kind, r) ↦ (some kind, r)
  else if isWordStart c then r.readWord.map fun (kind, r) ↦ (some (.ok kind), r)
  else some (r.readMark c)

/-- The token of the given kind.  The lexeme of a string is its body. -/
def token? (kind : TokenKind) (r : Reader σ) : Option Token :=
  match kind with
  | .string body => some ⟨kind, body, r.startLine⟩
  | _ => do return ⟨kind, ← r.lexeme?, r.startLine⟩

/-- Reads the span that starts with the character just taken, and gives its item if it has one. -/
def readItem (c : Char) (r : Reader σ) : Option (Option Item × Reader σ) := do
  match ← r.readKind c with
  | (none, r) => return (none, r)
  | (some (.error e), r) => return (some (.error e), r)
  | (some (.ok kind), r) => return (some (.token (← r.token? kind)), r)

/-- One round of a call of `next`: what the call gives, if it ends with this round, and the reader
after the round. -/
def round (r : Reader σ) : Option (Option (Option Item) × Reader σ) :=
  match r.mark.advance with
  | (none, r) =>
    if r.finished then some (some none, r)
    else some (some (some (.token (Token.endOfFile r.line))), { r with finished := true })
  | (some c, r) => do
    let (i, r) ← r.readItem c
    return (i.map some, r)

/-- What a call of `next` comes to, if it takes no more than the given number of rounds. -/
def nextWithin : ℕ → Reader σ → Option (Option Item × Reader σ)
  | 0, _ => none
  | n + 1, r => do
    match ← r.round with
    | (some given, r) => return (given, r)
    | (none, r) => nextWithin n r

/-- The next item, if there is one.  There is no result if a slice cannot be cut, or if the call
takes more rounds than the source has bytes, and one. -/
def next (r : Reader σ) : Option (Option Item × Reader σ) := r.nextWithin (r.source.length + 1)

/-! ## What a reader has read -/

/-- The reader has the source `source`, and has read the text `w` since it stood where the scanner
`s` stands.  The text `after` is still to be read. -/
structure HasRead (r : Reader σ) (source : Text) (s : Scanner) (w after : Text) : Prop where
  source_eq : r.source = source.bytes
  options_eq : r.options = s.options
  finished_eq : r.finished = s.finished
  start_eq : r.start = s.cursor.current
  current_eq : r.current = s.cursor.current + w.byteLength
  startLine_eq : r.startLine = s.cursor.line
  line_eq : r.line = s.cursor.line + w.newlines
  rest_eq : s.cursor.rest = w ++ after
  rest_isSuffix : s.cursor.rest <:+ source
  delivers : Peekable.Delivers r.iter (after.indexed r.current)

section

variable {source before : Text} {s : Scanner} {r : Reader σ} {w after : Text}

namespace HasRead

/-! ### Slices -/

section

variable (hs : s.StandsIn source before) (h : r.HasRead source s w after)
include hs h

theorem source_eq_bytes : r.source = Text.bytes (before ++ w ++ after) := by
  rw [h.source_eq, hs.source_eq, h.rest_eq, List.append_assoc]

theorem start_eq_byteLength : r.start = before.byteLength := h.start_eq.trans hs.current_eq

theorem current_eq_byteLength : r.current = Text.byteLength (before ++ w) := by
  rw [h.current_eq, hs.current_eq, Text.byteLength_append]

/-- What has been read since the mark can be cut out of the source. -/
theorem lexeme?_eq : r.lexeme? = some w := by
  rw [lexeme?, h.source_eq_bytes hs, h.start_eq_byteLength hs, h.current_eq_byteLength hs,
    Text.slice?_bytes]

end

/-- So can the body of a string, without the two quotes. -/
theorem slice?_body {body : Text} (hs : s.StandsIn source before)
    (h : r.HasRead source s ('"' :: body ++ ['"']) after) :
    r.source.slice? (r.start + 1) (r.current - 1) = some body := by
  have hsource : r.source = Text.bytes (before ++ ['"'] ++ body ++ '"' :: after) := by
    rw [h.source_eq_bytes hs]
    simp
  have hstart : r.start + 1 = Text.byteLength (before ++ ['"']) := by
    rw [h.start_eq_byteLength hs, Text.byteLength_append_quote]
  have hend : r.current - 1 = Text.byteLength (before ++ ['"'] ++ body) := by
    rw [h.current_eq_byteLength hs, ← List.append_assoc, Text.byteLength_append_quote,
      Nat.add_sub_cancel, List.append_assoc, List.singleton_append]
  rw [hsource, hstart, hend, Text.slice?_bytes]

/-- There is a byte for each character that is left. -/
theorem length_rest_le (h : r.HasRead source s w after) :
    s.cursor.rest.length ≤ r.source.length := by
  rw [h.source_eq]
  exact h.rest_isSuffix.length_le.trans source.length_le_length_bytes

/-! ### Operations -/

/-- A new span starts where the last one ends. -/
theorem mark (h : r.HasRead source s w after) :
    r.mark.HasRead source (s.past w) [] after where
  source_eq := h.source_eq
  options_eq := h.options_eq
  finished_eq := h.finished_eq
  start_eq := h.current_eq.trans (Scanner.current_past h.rest_eq).symm
  current_eq := h.current_eq.trans (Scanner.current_past h.rest_eq).symm
  startLine_eq := h.line_eq.trans (Scanner.line_past h.rest_eq).symm
  line_eq := h.line_eq.trans (Scanner.line_past h.rest_eq).symm
  rest_eq := Scanner.rest_past h.rest_eq
  rest_isSuffix := by
    rw [Scanner.rest_past h.rest_eq]
    exact (List.suffix_append w after).trans (h.rest_eq ▸ h.rest_isSuffix)
  delivers := h.delivers

theorem advance_cons {c : Char} (h : r.HasRead source s w (c :: after)) :
    ∃ r', r.advance = (some c, r') ∧ r'.HasRead source s (w ++ [c]) after := by
  obtain ⟨hgiven, hrest⟩ := h.delivers
  refine ⟨_, by rw [advance, ← Prod.eta (Peekable.next r.iter), hgiven], ?_⟩
  refine { h with current_eq := ?_, line_eq := ?_, rest_eq := ?_, delivers := hrest }
  · rw [Text.byteLength_append, ← Nat.add_assoc, ← h.current_eq]
    rfl
  · rw [Text.newlines_append, Text.newlines_cons, ← Nat.add_assoc, ← h.line_eq]
    split <;> simp [*]
  · rw [h.rest_eq, List.append_assoc, List.singleton_append]

variable [LawfulPeekable σ]

theorem ofText (o : Options) (source : Text) :
    (Reader.ofText o source : Reader σ).HasRead source (Scanner.ofText o source) [] source where
  source_eq := rfl
  options_eq := rfl
  finished_eq := rfl
  start_eq := rfl
  current_eq := rfl
  startLine_eq := rfl
  line_eq := rfl
  rest_eq := rfl
  rest_isSuffix := List.suffix_rfl
  delivers := LawfulPeekable.delivers_ofList _

theorem advance_nil (h : r.HasRead source s w []) :
    ∃ r', r.advance = (none, r') ∧ r'.HasRead source s w [] := by
  have hgiven : (Peekable.next r.iter).1 = none := h.delivers
  refine ⟨{ r with iter := (Peekable.next r.iter).2 }, ?_, ?_⟩
  · rw [advance, ← Prod.eta (Peekable.next r.iter), hgiven]
  · exact { h with delivers := LawfulPeekable.delivers_next_nil _ h.delivers }

/-- Only the next character can be taken. -/
theorem of_advance_some {c : Char} {r' : Reader σ} (h : r.HasRead source s w after)
    (hadvance : r.advance = (some c, r')) :
    ∃ rest, after = c :: rest ∧ r'.HasRead source s (w ++ [c]) rest := by
  cases after with
  | nil =>
    obtain ⟨r₁, hadvance₁, -⟩ := h.advance_nil
    rw [hadvance] at hadvance₁
    cases hadvance₁
  | cons d rest =>
    obtain ⟨r₁, hadvance₁, h₁⟩ := h.advance_cons
    obtain ⟨hchar, rfl⟩ := Prod.mk.inj (hadvance.symm.trans hadvance₁)
    obtain rfl : c = d := Option.some.inj hchar
    exact ⟨rest, rfl, h₁⟩

theorem peek (n : ℕ) (h : r.HasRead source s w after) :
    ∃ r', r.peek n = (after[n]?, r') ∧ r'.HasRead source s w after := by
  have hshown : (after.indexed r.current)[n]?.map Prod.snd = after[n]? := by
    rw [← List.getElem?_map, Text.map_snd_indexed]
  refine ⟨{ r with iter := (Peekable.peek n r.iter).2 }, ?_,
    { h with delivers := LawfulPeekable.delivers_peek n _ _ h.delivers }⟩
  rw [Reader.peek, LawfulPeekable.peek_fst n _ _ h.delivers, hshown]

theorem advanceIf_cons {c : Char} (h : r.HasRead source s w (c :: after)) :
    ∃ r', r.advanceIf c = (true, r') ∧ r'.HasRead source s (w ++ [c]) after := by
  obtain ⟨r₁, hpeek, h₁⟩ := h.peek 0
  obtain ⟨r₂, hadvance, h₂⟩ := h₁.advance_cons
  exact ⟨r₂, by simp [advanceIf, hpeek, hadvance], h₂⟩

theorem advanceIf_of_ne {c : Char} (h : r.HasRead source s w after) (hc : after.head? ≠ some c) :
    ∃ r', r.advanceIf c = (false, r') ∧ r'.HasRead source s w after := by
  obtain ⟨r₁, hpeek, h₁⟩ := h.peek 0
  refine ⟨r₁, ?_, h₁⟩
  rw [advanceIf, hpeek, ← List.head?_eq_getElem?]
  exact if_neg hc

theorem advanceWithin (stop : Char → Bool) {run rest : Text} {n : ℕ}
    (h : r.HasRead source s w (run ++ rest)) (hrun : ∀ x ∈ run, stop x = false)
    (hrest : ∀ x ∈ rest.head?, stop x = true) (hn : run.length < n) :
    ∃ r', r.advanceWithin stop n = some r' ∧ r'.HasRead source s (w ++ run) rest := by
  induction run generalizing r w n with
  | nil =>
    obtain ⟨n, rfl⟩ := Nat.exists_eq_succ_of_ne_zero (Nat.ne_zero_of_lt hn)
    obtain ⟨r₁, hpeek, h₁⟩ := h.peek 0
    refine ⟨r₁, ?_, by rwa [List.append_nil]⟩
    rw [Reader.advanceWithin, hpeek]
    cases rest with
    | nil => rfl
    | cons x rest => exact if_pos (hrest x rfl)
  | cons c run ih =>
    obtain ⟨n, rfl⟩ := Nat.exists_eq_succ_of_ne_zero (Nat.ne_zero_of_lt hn)
    obtain ⟨r₁, hpeek, h₁⟩ := h.peek 0
    obtain ⟨r₂, hadvance, h₂⟩ := h₁.advance_cons
    obtain ⟨hc, hrun⟩ := List.forall_mem_cons.1 hrun
    obtain ⟨r₃, hwithin, h₃⟩ := ih h₂ hrun (Nat.lt_of_succ_lt_succ hn)
    refine ⟨r₃, ?_, by rwa [List.append_assoc] at h₃⟩
    rw [Reader.advanceWithin, hpeek]
    simp [hc, hadvance, hwithin]

/-- A run of characters at none of which to stop is taken as a whole. -/
theorem advanceUntil (stop : Char → Bool) {run rest : Text}
    (h : r.HasRead source s w (run ++ rest)) (hrun : ∀ x ∈ run, stop x = false)
    (hrest : ∀ x ∈ rest.head?, stop x = true) :
    ∃ r', r.advanceUntil stop = some r' ∧ r'.HasRead source s (w ++ run) rest := by
  have hlength := h.length_rest_le
  rw [h.rest_eq, List.length_append, List.length_append] at hlength
  exact h.advanceWithin stop hrun hrest (by omega)

theorem advanceUntil_not {p : Char → Bool} {run rest : Text}
    (h : r.HasRead source s w (run ++ rest)) (hrun : ∀ x ∈ run, p x = true) (hrest : rest.Stops p) :
    ∃ r', r.advanceUntil (!p ·) = some r' ∧ r'.HasRead source s (w ++ run) rest :=
  h.advanceUntil (!p ·) (fun x hx ↦ by rw [hrun x hx]; rfl) (fun x hx ↦ by rw [hrest x hx]; rfl)

/-- There always is such a run, so that the loop comes to an end. -/
theorem exists_advanceUntil (stop : Char → Bool) (h : r.HasRead source s w after) :
    ∃ r' run rest, r.advanceUntil stop = some r' ∧ r'.HasRead source s (w ++ run) rest := by
  have hsplit := List.takeWhile_append_dropWhile (p := fun x ↦ !stop x) (l := after)
  have hrun : ∀ x ∈ after.takeWhile (fun x ↦ !stop x), stop x = false := fun x hx ↦ by
    simpa using List.mem_takeWhile_imp hx
  have hrest : ∀ x ∈ (after.dropWhile (fun x ↦ !stop x)).head?, stop x = true := fun x hx ↦ by
    simpa using Text.stops_dropWhile (fun x ↦ !stop x) after x hx
  rw [← hsplit] at h
  obtain ⟨r', huntil, h'⟩ := h.advanceUntil stop hrun hrest
  exact ⟨r', _, _, huntil, h'⟩

end HasRead
end

end Reader
end LoxTokens
