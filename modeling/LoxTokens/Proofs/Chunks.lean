import LoxTokens.Text.Utf8
import Mathlib.Data.List.Basic

/-!
# Lines of texts and chunks of bytes

The prompt cuts its input behind each line feed before it decodes anything, so that it is bytes that
are cut.  No harm is done: the byte of a line feed stands for nothing else in UTF-8, and the chunks
of the bytes of a text are the bytes of its lines.

* `cutBehind x l` — the list `l`, cut behind each `x`; `cutBehind_induction` goes from one piece to
  the next.
* `cutBehind_append` — behind an `x`, what comes next is cut on its own.
* `Text.lines t` — the lines of a text, each with the line feed that ends it.
* `Text.chunks_bytes` — the chunks of the bytes of a text.
* `Bytes.chunks_append` — the chunks of two byte strings, the first of which ends a line.
-/

set_option autoImplicit false

namespace LoxTokens

/-! ## Cutting a list -/

section

variable {α : Type} [DecidableEq α] {x : α}

/-- The list cut behind each `x`.  Only the last piece may lack one, and no piece is empty. -/
def cutBehind (x : α) : List α → List (List α)
  | [] => []
  | y :: l =>
    match cutBehind x l with
    | [] => [[y]]
    | p :: ps => if y = x then [y] :: p :: ps else (y :: p) :: ps

theorem cutBehind_of_notMem {l : List α} (hne : l ≠ []) (h : x ∉ l) : cutBehind x l = [l] := by
  induction l with
  | nil => exact absurd rfl hne
  | cons y l ih =>
    rw [List.mem_cons, not_or] at h
    obtain ⟨hy, hl⟩ := h
    by_cases hnil : l = []
    · simp [hnil, cutBehind]
    · simp [cutBehind, ih hnil hl, Ne.symm hy]

/-- A list with an `x` in it is cut behind the first one. -/
theorem cutBehind_append_cons {l : List α} (h : x ∉ l) (t : List α) :
    cutBehind x (l ++ x :: t) = (l ++ [x]) :: cutBehind x t := by
  induction l with
  | nil =>
    rw [List.nil_append, cutBehind]
    cases cutBehind x t with
    | nil => simp
    | cons p ps => simp
  | cons y l ih =>
    rw [List.mem_cons, not_or] at h
    obtain ⟨hy, hl⟩ := h
    simp [cutBehind, ih hl, Ne.symm hy]

/-- **Induction on the pieces.**  Either the list is empty, or it is a single piece without an `x`,
or there is a piece that ends with the first `x`, and more behind it. -/
theorem cutBehind_induction {motive : List α → List (List α) → Prop} (nil : motive [] [])
    (last : ∀ l, l ≠ [] → x ∉ l → motive l [l])
    (piece : ∀ l t, x ∉ l → motive t (cutBehind x t) →
      motive (l ++ x :: t) ((l ++ [x]) :: cutBehind x t))
    (l : List α) : motive l (cutBehind x l) := by
  induction hn : l.length using Nat.strongRecOn generalizing l with
  | ind n ih =>
    by_cases hmem : x ∈ l
    · obtain ⟨a, t, rfl, ha⟩ := List.eq_append_cons_of_mem hmem
      rw [cutBehind_append_cons ha]
      rw [List.length_append, List.length_cons] at hn
      exact piece a t ha (ih t.length (by omega) t rfl)
    · by_cases hnil : l = []
      · rw [hnil]
        exact nil
      · rw [cutBehind_of_notMem hnil hmem]
        exact last l hnil hmem

/-- Only the last element of a piece can be an `x`. -/
theorem notMem_dropLast_of_mem_cutBehind {l p : List α} (hp : p ∈ cutBehind x l) :
    x ∉ p.dropLast := by
  induction l using cutBehind_induction (x := x) with
  | nil => cases hp
  | last l hne hx =>
    rw [List.mem_singleton.1 hp]
    exact fun h ↦ hx (List.dropLast_subset l h)
  | piece l t hx ih =>
    rcases List.mem_cons.1 hp with rfl | hp
    · rwa [List.dropLast_concat]
    · exact ih hp

/-- The list is empty or ends with `x`. -/
def EndsWith (x : α) (l : List α) : Prop := l = [] ∨ l.getLast? = some x

omit [DecidableEq α] in
theorem EndsWith.of_append {l t : List α} (h : EndsWith x (l ++ t)) : EndsWith x t := by
  by_cases ht : t = []
  · exact .inl ht
  · rcases h with h | h
    · exact absurd (List.append_eq_nil_iff.1 h).2 ht
    · rw [List.getLast?_append_of_ne_nil l ht] at h
      exact .inr h

/-- **Behind an `x`, what comes next is cut on its own.** -/
theorem cutBehind_append {l : List α} (h : EndsWith x l) (t : List α) :
    cutBehind x (l ++ t) = cutBehind x l ++ cutBehind x t := by
  induction l using cutBehind_induction (x := x) with
  | nil => rfl
  | last l hne hx =>
    have hmem : x ∈ l := List.mem_of_getLast? (h.resolve_left hne)
    exact absurd hmem hx
  | piece l t' hx ih =>
    have ht' : EndsWith x t' := by
      have hend : EndsWith x ((l ++ [x]) ++ t') := by simpa using h
      exact hend.of_append
    rw [List.append_assoc, List.cons_append, cutBehind_append_cons hx, ih ht', List.cons_append]

end

/-! ## Lines -/

/-- The lines of a text, each with the line feed that ends it.  The last line may lack one, and no
line is empty. -/
def Text.lines (t : Text) : List Text := cutBehind '\n' t

namespace Bytes

theorem chunks_eq_cutBehind (b : Bytes) : chunks b = cutBehind lineFeed b := by
  induction b with
  | nil => rfl
  | cons y b ih =>
    rw [chunks, ih, cutBehind]
    cases cutBehind lineFeed b <;> rfl

/-- The byte string is empty or ends with a line feed. -/
def EndsLine (b : Bytes) : Prop := EndsWith lineFeed b

theorem chunks_append {a : Bytes} (h : a.EndsLine) (b : Bytes) :
    chunks (a ++ b) = chunks a ++ chunks b := by
  rw [chunks_eq_cutBehind, chunks_eq_cutBehind, chunks_eq_cutBehind, cutBehind_append h]

/-- No other character has the byte of a line feed in its encoding. -/
theorem lineFeed_notMem_utf8EncodeChar {c : Char} (h : c ≠ '\n') :
    lineFeed ∉ String.utf8EncodeChar c := by
  have hcode : c.val.toNat ≠ 10 := fun hc ↦ h (Char.toNat_inj.1 hc)
  have hbyte : ∀ v, lineFeed = UInt8.ofNat v ↔ v % 256 = 10 := fun v ↦ by
    rw [← UInt8.toNat_inj, UInt8.toNat_ofNat', eq_comm]
    rfl
  unfold String.utf8EncodeChar
  dsimp only
  -- the one byte of an ASCII character is its code, and all other bytes are at least 128
  split_ifs
  all_goals
    simp only [List.mem_cons, List.not_mem_nil, or_false, hbyte]
    omega

theorem lineFeed_notMem_bytes {t : Text} (h : '\n' ∉ t) : lineFeed ∉ t.bytes := by
  intro hmem
  obtain ⟨c, hc, hbyte⟩ := List.mem_flatMap.1 hmem
  exact lineFeed_notMem_utf8EncodeChar (ne_of_mem_of_not_mem hc h) hbyte

end Bytes

namespace Text

theorem bytes_append (s t : Text) : bytes (s ++ t) = s.bytes ++ t.bytes := List.flatMap_append

theorem bytes_newline_cons (t : Text) : bytes ('\n' :: t) = Bytes.lineFeed :: t.bytes := rfl

theorem bytes_ne_nil {t : Text} (h : t ≠ []) : t.bytes ≠ [] := by
  intro hnil
  have hempty : t = [] := by
    have hdecode := Bytes.text?_bytes t
    rw [hnil] at hdecode
    exact (Option.some.inj hdecode).symm
  exact h hempty

theorem newline_notMem_dropLast {t l : Text} (h : l ∈ t.lines) : '\n' ∉ l.dropLast :=
  notMem_dropLast_of_mem_cutBehind h

/-- **The chunks of the bytes of a text** are the bytes of its lines. -/
theorem chunks_bytes (t : Text) : Bytes.chunks t.bytes = t.lines.map bytes := by
  rw [Bytes.chunks_eq_cutBehind, lines]
  induction t using cutBehind_induction (x := '\n') with
  | nil => rfl
  | last l hne hx =>
    exact cutBehind_of_notMem (bytes_ne_nil hne) (Bytes.lineFeed_notMem_bytes hx)
  | piece l t hx ih =>
    rw [bytes_append, bytes_newline_cons, cutBehind_append_cons (Bytes.lineFeed_notMem_bytes hx),
      ih, List.map_cons, bytes_append]
    rfl

end Text
end LoxTokens
