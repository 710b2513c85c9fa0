import Mathlib.Data.Nat.Notation

/-!
# Iterators that look ahead

An iterator that can be peeked at gives its elements one after the other, and shows any of those to
come before it is asked for.  What it keeps in a buffer for that must not be seen from outside.

* `Peekable` — the operations of such an iterator.
* `Peekable.Delivers s l` — the iterator `s` has exactly the elements `l` still to give.
* `LawfulPeekable` — what may be relied on: an iterator over a list delivers the list, peeking shows
  what will be delivered and changes nothing about it, and there is nothing behind the end.
* `Queue` — an iterator that reads ahead into a buffer, which is lawful.
-/

set_option autoImplicit false

namespace LoxTokens

/-- An iterator with states `σ` over elements `α`, which can be looked at before they are taken. -/
class Peekable (σ : Type) (α : outParam Type) where
  ofList : List α → σ
  /-- Takes the next element. -/
  next : σ → Option α × σ
  /-- Shows the element behind the next `n` ones, and takes none. -/
  peek : ℕ → σ → Option α × σ

/-- What the calls of `next` give in turn, up to the first one that gives nothing. -/
def Peekable.Delivers {σ α : Type} [Peekable σ α] : σ → List α → Prop
  | s, [] => (next s).1 = none
  | s, x :: l => (next s).1 = some x ∧ Delivers (next s).2 l

/-- An iterator that does what it says. -/
class LawfulPeekable (σ : Type) {α : outParam Type} [Peekable σ α] : Prop where
  delivers_ofList : ∀ l : List α, Peekable.Delivers (Peekable.ofList l : σ) l
  /-- After the end comes nothing, however often one asks. -/
  delivers_next_nil : ∀ s : σ, Peekable.Delivers s [] → Peekable.Delivers (Peekable.next s).2 []
  peek_fst : ∀ (n : ℕ) (s : σ) (l : List α), Peekable.Delivers s l →
    (Peekable.peek n s).1 = l[n]?
  delivers_peek : ∀ (n : ℕ) (s : σ) (l : List α), Peekable.Delivers s l →
    Peekable.Delivers (Peekable.peek n s).2 l

/-! ## A queue in front of a list -/

/-- An iterator over a list, from which some elements have been read ahead. -/
structure Queue (α : Type) where
  /-- What has been read but not given. -/
  ahead : List α
  /-- What has not been read. -/
  input : List α

namespace Queue

variable {α : Type}

/-- Reads ahead until there are `n` elements in the buffer, or nothing more to read. -/
def fill (n : ℕ) (q : Queue α) : Queue α :=
  ⟨q.ahead ++ q.input.take (n - q.ahead.length), q.input.drop (n - q.ahead.length)⟩

instance : Peekable (Queue α) α where
  ofList l := ⟨[], l⟩
  next q :=
    match q.ahead with
    | [] => (q.input.head?, { q with input := q.input.tail })
    | x :: ahead => (some x, { q with ahead := ahead })
  peek n q := ((q.fill (n + 1)).ahead[n]?, q.fill (n + 1))

/-- A queue delivers its buffer and then the rest of its list. -/
theorem delivers_iff {q : Queue α} {l : List α} :
    Peekable.Delivers q l ↔ q.ahead ++ q.input = l := by
  induction l generalizing q with
  | nil =>
    obtain ⟨_ | ⟨x, ahead⟩, input⟩ := q
    · simp [Peekable.Delivers, Peekable.next]
    · simp [Peekable.Delivers, Peekable.next]
  | cons y l ih =>
    rw [Peekable.Delivers, ih]
    obtain ⟨_ | ⟨x, ahead⟩, _ | ⟨z, input⟩⟩ := q <;> simp [Peekable.next]

/-- Reading ahead moves elements between the two lists. -/
theorem append_fill (n : ℕ) (q : Queue α) :
    (q.fill n).ahead ++ (q.fill n).input = q.ahead ++ q.input := by
  rw [fill, List.append_assoc, List.take_append_drop]

/-- The buffer then holds the first `n` of all elements to come. -/
theorem ahead_fill (n : ℕ) (q : Queue α) {i : ℕ} (hi : i < n) :
    (q.fill n).ahead[i]? = (q.ahead ++ q.input)[i]? := by
  rw [fill]
  rcases Nat.lt_or_ge i q.ahead.length with hahead | hinput
  · rw [List.getElem?_append_left hahead, List.getElem?_append_left hahead]
  · rw [List.getElem?_append_right hinput, List.getElem?_append_right hinput,
      List.getElem?_take_of_lt (Nat.sub_lt_sub_right hinput hi)]

instance : LawfulPeekable (Queue α) where
  delivers_ofList _ := delivers_iff.2 rfl
  delivers_next_nil q h := by
    obtain ⟨hahead, hinput⟩ := List.append_eq_nil_iff.1 (delivers_iff.1 h)
    rw [delivers_iff]
    simp [Peekable.next, hahead, hinput]
  peek_fst n q l h := by
    rw [← delivers_iff.1 h]
    exact ahead_fill (n + 1) q (Nat.lt_succ_self n)
  delivers_peek n q l h := by
    rw [delivers_iff] at h ⊢
    exact (append_fill (n + 1) q).trans h

end Queue
end LoxTokens
