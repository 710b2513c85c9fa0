import LoxTokens.Proofs.Utf8

/-!
# Slices of a text as bytes

Offsets into a source count bytes, and most numbers are not the offset of a character.  A slice
between two offsets exists only if neither of them falls inside a character, and that can be seen
from the byte behind each offset alone.

* `Bytes.IsBoundary b n` — the byte behind the offset `n`, if there is one, does not continue a
  character.
* `Bytes.slice? b i j` — the text between two offsets, if both of them are boundaries.
* `Text.isBoundary_bytes_iff` — the boundaries of a text are the lengths of the texts at its front.
* `Text.slice?_bytes` — the slice between two places in a text is what stands between them.
-/

set_option autoImplicit false

namespace LoxTokens
namespace Bytes

instance (x : UInt8) : Decidable (IsTail x) := instDecidableAnd

/-- The offset is that of a character or of the end. -/
def IsBoundary (b : Bytes) (n : ℕ) : Prop := n ≤ b.length ∧ ∀ x ∈ b[n]?, ¬ IsTail x

instance (b : Bytes) (n : ℕ) : Decidable (IsBoundary b n) :=
  decidable_of_iff (n ≤ b.length ∧ b[n]?.all (fun x ↦ !decide (IsTail x)) = true) <| by
    rw [IsBoundary]
    cases b[n]? <;> simp

/-- The text between two offsets.  There is none if the offsets are in the wrong order or behind the
end, or if one of them falls inside a character. -/
def slice? (b : Bytes) (i j : ℕ) : Option Text :=
  if i ≤ j ∧ b.IsBoundary i ∧ b.IsBoundary j then text? ((b.take j).drop i) else none

theorem of_slice?_eq_some {b : Bytes} {i j : ℕ} {w : Text} (h : b.slice? i j = some w) :
    i ≤ j ∧ b.IsBoundary i ∧ b.IsBoundary j := by
  rw [slice?] at h
  split at h
  · assumption
  · cases h

/-! ## One character -/

/-- The first byte of a character starts it, and all others continue it. -/
theorem WellFormed.exists_cons {w : Bytes} (h : WellFormed w) :
    ∃ x tail, w = x :: tail ∧ ¬ IsTail x ∧ ∀ y ∈ tail, IsTail y := by
  have hhead {x : UInt8} (hx : x.toNat < 0x80 ∨ 0xc0 ≤ x.toNat) : ¬ IsTail x := fun htail ↦ by
    obtain ⟨hlower, hupper⟩ := htail
    omega
  cases h with
  | one hx => exact ⟨_, _, rfl, hhead (.inl hx), by simp⟩
  | two hx hy => exact ⟨_, _, rfl, hhead (.inr (by omega)), by simp [hy]⟩
  | three hx hy hz _ _ => exact ⟨_, _, rfl, hhead (.inr (by omega)), by simp [hy, hz]⟩
  | four hx hy hz hw _ _ => exact ⟨_, _, rfl, hhead (.inr (by omega)), by simp [hy, hz, hw]⟩

/-- A character has a boundary in front of it. -/
theorem isBoundary_zero (c : Char) (b : Bytes) :
    IsBoundary (String.utf8EncodeChar c ++ b) 0 := by
  obtain ⟨x, tail, hchar, hx, -⟩ := (wellFormed_utf8EncodeChar c).exists_cons
  rw [hchar]
  exact ⟨Nat.zero_le _, by rintro _ ⟨⟩; exact hx⟩

/-- A character has no boundary inside it. -/
theorem not_isBoundary_of_lt {c : Char} {b : Bytes} {n : ℕ} (hpos : 0 < n) (hn : n < c.utf8Size) :
    ¬ IsBoundary (String.utf8EncodeChar c ++ b) n := by
  rintro ⟨-, hboundary⟩
  obtain ⟨x, tail, hchar, -, htail⟩ := (wellFormed_utf8EncodeChar c).exists_cons
  rw [← String.length_utf8EncodeChar] at hn
  obtain ⟨m, rfl⟩ := Nat.exists_eq_succ_of_ne_zero (Nat.ne_zero_of_lt hpos)
  rw [List.getElem?_append_left hn] at hboundary
  rw [hchar, List.length_cons, Nat.succ_lt_succ_iff] at hn
  refine hboundary tail[m] ?_ (htail _ (List.getElem_mem hn))
  simp [hchar, hn]

/-- Offsets behind a byte string are offsets into what follows it. -/
theorem isBoundary_append_add {a b : Bytes} {n : ℕ} :
    IsBoundary (a ++ b) (a.length + n) ↔ IsBoundary b n := by
  rw [IsBoundary, IsBoundary, List.length_append, Nat.add_le_add_iff_left,
    List.getElem?_append_right (Nat.le_add_right _ _), Nat.add_sub_cancel_left]

end Bytes

namespace Text

theorem length_bytes (t : Text) : t.bytes.length = t.byteLength := by
  induction t with
  | nil => rfl
  | cons c t ih =>
    rw [byteLength_cons, ← ih, ← String.length_utf8EncodeChar]
    exact List.length_append

/-- No character takes less than a byte. -/
theorem length_le_length_bytes (t : Text) : t.length ≤ t.bytes.length := by
  rw [length_bytes]
  induction t with
  | nil => exact Nat.le_refl 0
  | cons c t ih =>
    have hpos := c.utf8Size_pos
    rw [List.length_cons, byteLength_cons]
    omega

/-- **The boundaries of a text** are the lengths of the texts at its front. -/
theorem isBoundary_bytes_iff {t : Text} {n : ℕ} :
    t.bytes.IsBoundary n ↔ ∃ s u, t = s ++ u ∧ byteLength s = n := by
  constructor
  · intro h
    -- by induction on the text: an offset is the first, inside the first character or behind it
    induction t generalizing n with
    | nil => exact ⟨[], [], rfl, (Nat.le_zero.1 h.1).symm⟩
    | cons c t ih =>
      rcases Nat.eq_zero_or_pos n with rfl | hpos
      · exact ⟨[], c :: t, rfl, rfl⟩
      rcases Nat.lt_or_ge n c.utf8Size with hlt | hge
      · exact absurd h (Bytes.not_isBoundary_of_lt hpos hlt)
      obtain ⟨m, rfl⟩ := Nat.exists_eq_add_of_le hge
      have hrest : Bytes.IsBoundary (String.utf8EncodeChar c ++ bytes t) (c.utf8Size + m) := h
      rw [← String.length_utf8EncodeChar, Bytes.isBoundary_append_add] at hrest
      obtain ⟨s, u, rfl, rfl⟩ := ih hrest
      exact ⟨c :: s, u, rfl, rfl⟩
  · rintro ⟨s, u, rfl, rfl⟩
    have hu : Bytes.IsBoundary (bytes u) 0 := by
      cases u with
      | nil => exact ⟨Nat.le_refl _, by rintro _ ⟨⟩⟩
      | cons c u => exact Bytes.isBoundary_zero c (bytes u)
    rw [bytes_append, ← length_bytes]
    exact Bytes.isBoundary_append_add.2 hu

/-- **What stands between two places** in a text is the slice between their offsets. -/
theorem slice?_bytes (s w u : Text) :
    Bytes.slice? (bytes (s ++ w ++ u)) (byteLength s) (byteLength (s ++ w)) = some w := by
  have hstart : Bytes.IsBoundary (bytes (s ++ w ++ u)) (byteLength s) :=
    isBoundary_bytes_iff.2 ⟨s, w ++ u, List.append_assoc s w u, rfl⟩
  have hend : Bytes.IsBoundary (bytes (s ++ w ++ u)) (byteLength (s ++ w)) :=
    isBoundary_bytes_iff.2 ⟨s ++ w, u, rfl, rfl⟩
  have hle : byteLength s ≤ byteLength (s ++ w) := by
    rw [byteLength_append]
    exact Nat.le_add_right _ _
  rw [Bytes.slice?, if_pos ⟨hle, hstart, hend⟩, bytes_append, ← length_bytes (s ++ w),
    List.take_left, bytes_append, ← length_bytes, List.drop_left, Bytes.text?_bytes]

/-- A quote is a single byte. -/
theorem getElem?_bytes_quote (s u : Text) : (bytes (s ++ '"' :: u))[byteLength s]? = some 0x22 := by
  rw [bytes_append, ← length_bytes, List.getElem?_append_right (Nat.le_refl _), Nat.sub_self]
  rfl

theorem byteLength_append_quote (s : Text) : byteLength (s ++ ['"']) = byteLength s + 1 :=
  byteLength_append s ['"']

end Text
end LoxTokens
