import LoxTokens.Proofs.Chunks

/-!
# Which bytes are texts

UTF-8 encodes a character in one to four bytes.  The table of the byte sequences that are the
encoding of a character also tells what can be wrong where none of them stands, and there is nothing
else that can be wrong with a byte string.

* `Bytes.WellFormed w` — the byte sequence `w` is in the table.  `wellFormed_iff` says that the
  table lists the encodings of the characters.
* `Bytes.IllFormed b` — what stands at the front of `b` is no character: a stray continuation byte,
  a character that is cut off, an encoding that is too long, a surrogate or a number that is too
  large.
* `forall_bytes_ne_iff` — a byte string is no text if and only if it is ill-formed behind some text.
-/

set_option autoImplicit false

namespace LoxTokens
namespace Bytes

/-! ## The table -/

/-- A byte that continues a character. -/
def IsTail (x : UInt8) : Prop := 0x80 ≤ x.toNat ∧ x.toNat < 0xc0

/-- The byte sequences that are characters, by the number of their bytes. -/
inductive WellFormed : Bytes → Prop
  | one {x : UInt8} (hx : x.toNat < 0x80) : WellFormed [x]
  | two {x y : UInt8} (hx : 0xc2 ≤ x.toNat ∧ x.toNat < 0xe0) (hy : IsTail y) : WellFormed [x, y]
  | three {x y z : UInt8} (hx : 0xe0 ≤ x.toNat ∧ x.toNat < 0xf0) (hy : IsTail y) (hz : IsTail z)
      (hlong : x.toNat = 0xe0 → 0xa0 ≤ y.toNat) (hsurrogate : x.toNat = 0xed → y.toNat < 0xa0) :
      WellFormed [x, y, z]
  | four {x y z w : UInt8} (hx : 0xf0 ≤ x.toNat ∧ x.toNat < 0xf5) (hy : IsTail y) (hz : IsTail z)
      (hw : IsTail w) (hlong : x.toNat = 0xf0 → 0x90 ≤ y.toNat)
      (hlarge : x.toNat = 0xf4 → y.toNat < 0x90) : WellFormed [x, y, z, w]

/-- The bytes start with a number of bytes that continue a character. -/
def HasTails : ℕ → Bytes → Prop
  | 0, _ => True
  | _ + 1, [] => False
  | n + 1, x :: b => IsTail x ∧ HasTails n b

/-- The number of bytes that must follow the first byte of a longer character. -/
def tails (x : UInt8) : ℕ := if x.toNat < 0xe0 then 1 else if x.toNat < 0xf0 then 2 else 3

/-- What can be wrong with the first bytes. -/
inductive IllFormed : Bytes → Prop
  /-- A character starts with a byte that can only continue one. -/
  | stray {x : UInt8} {b : Bytes} (hx : IsTail x) : IllFormed (x :: b)
  /-- A character ends too early. -/
  | truncated {x : UInt8} {b : Bytes} (hx : 0xc0 ≤ x.toNat) (hb : ¬ HasTails (tails x) b) :
      IllFormed (x :: b)
  /-- A character would fit in fewer bytes. -/
  | overlong {x y : UInt8} {b : Bytes} (hx : x.toNat = 0xc0 ∨ x.toNat = 0xc1 ∨
      x.toNat = 0xe0 ∧ y.toNat < 0xa0 ∨ x.toNat = 0xf0 ∧ y.toNat < 0x90) : IllFormed (x :: y :: b)
  /-- A number is that of a surrogate, which is no character. -/
  | surrogate {x y : UInt8} {b : Bytes} (hx : x.toNat = 0xed) (hy : 0xa0 ≤ y.toNat) :
      IllFormed (x :: y :: b)
  /-- A number is larger than those of characters. -/
  | tooLarge {x y : UInt8} {b : Bytes} (hx : 0xf5 ≤ x.toNat ∨ x.toNat = 0xf4 ∧ 0x90 ≤ y.toNat) :
      IllFormed (x :: y :: b)

/-! ## The table and the encoding -/

/-- Each number of a character belongs to one. -/
theorem exists_val_eq {v : ℕ} (h : v.isValidChar) : ∃ c : Char, c.val.toNat = v := by
  have hlt : v < 2 ^ 32 := by omega
  have hv : (UInt32.ofNat v).toNat = v := UInt32.toNat_ofNat_of_lt hlt
  have hvalid : (UInt32.ofNat v).toNat.isValidChar := by rwa [hv]
  exact ⟨⟨UInt32.ofNat v, hvalid⟩, hv⟩

/-- The bytes of the character with the number `v`, as numbers: six bits of `v` in each byte but the
first. -/
def codes (v : ℕ) : List ℕ :=
  if v < 0x80 then [v]
  else if v < 0x800 then [0xc0 + v / 64, 0x80 + v % 64]
  else if v < 0x10000 then [0xe0 + v / 4096, 0x80 + v / 64 % 64, 0x80 + v % 64]
  else [0xf0 + v / 262144, 0x80 + v / 4096 % 64, 0x80 + v / 64 % 64, 0x80 + v % 64]

theorem map_toNat_utf8EncodeChar (c : Char) :
    (String.utf8EncodeChar c).map UInt8.toNat = codes c.val.toNat := by
  obtain ⟨v, hv⟩ : ∃ v, v = c.val.toNat := ⟨_, rfl⟩
  have hvalid : v < 0xd800 ∨ 0xdfff < v ∧ v < 0x110000 := hv ▸ c.valid
  unfold String.utf8EncodeChar
  dsimp only
  rw [← hv, codes]
  split_ifs
  all_goals
    first
    | omega
    | simp only [List.map_cons, List.map_nil, List.cons.injEq, and_true, UInt8.toNat_ofNat']
      omega

theorem utf8EncodeChar_eq_iff {c : Char} {w : Bytes} :
    String.utf8EncodeChar c = w ↔ w.map UInt8.toNat = codes c.val.toNat := by
  rw [← map_toNat_utf8EncodeChar, eq_comm,
    (List.map_injective_iff.2 fun _ _ ↦ UInt8.toNat_inj.1).eq_iff]

/-- **What is in the table is a character.** -/
theorem WellFormed.exists_char {w : Bytes} (h : WellFormed w) :
    ∃ c : Char, String.utf8EncodeChar c = w := by
  cases h with
  | @one x hx =>
    obtain ⟨c, hc⟩ := exists_val_eq (v := x.toNat) (by omega)
    refine ⟨c, utf8EncodeChar_eq_iff.2 ?_⟩
    rw [hc, codes, if_pos hx]
    rfl
  | @two x y hx hy =>
    obtain ⟨hy, hy'⟩ := hy
    obtain ⟨c, hc⟩ := exists_val_eq (v := (x.toNat - 0xc0) * 64 + (y.toNat - 0x80)) (by omega)
    refine ⟨c, utf8EncodeChar_eq_iff.2 ?_⟩
    rw [hc, codes, if_neg (by omega), if_pos (by omega)]
    simp only [List.map_cons, List.map_nil, List.cons.injEq, and_true]
    omega
  | @three x y z hx hy hz hlong hsurrogate =>
    obtain ⟨hy, hy'⟩ := hy
    obtain ⟨hz, hz'⟩ := hz
    obtain ⟨c, hc⟩ := exists_val_eq
      (v := (x.toNat - 0xe0) * 4096 + (y.toNat - 0x80) * 64 + (z.toNat - 0x80)) (by omega)
    refine ⟨c, utf8EncodeChar_eq_iff.2 ?_⟩
    rw [hc, codes, if_neg (by omega), if_neg (by omega), if_pos (by omega)]
    simp only [List.map_cons, List.map_nil, List.cons.injEq, and_true]
    omega
  | @four x y z w hx hy hz hw hlong hlarge =>
    obtain ⟨hy, hy'⟩ := hy
    obtain ⟨hz, hz'⟩ := hz
    obtain ⟨hw, hw'⟩ := hw
    obtain ⟨c, hc⟩ := exists_val_eq (v := (x.toNat - 0xf0) * 262144 + (y.toNat - 0x80) * 4096 +
      (z.toNat - 0x80) * 64 + (w.toNat - 0x80)) (by omega)
    refine ⟨c, utf8EncodeChar_eq_iff.2 ?_⟩
    rw [hc, codes, if_neg (by omega), if_neg (by omega), if_neg (by omega)]
    simp only [List.map_cons, List.map_nil, List.cons.injEq, and_true]
    omega

/-- **Every character is in the table.** -/
theorem wellFormed_utf8EncodeChar (c : Char) : WellFormed (String.utf8EncodeChar c) := by
  have hmap := map_toNat_utf8EncodeChar c
  have hvalid : c.val.toNat < 0xd800 ∨ 0xdfff < c.val.toNat ∧ c.val.toNat < 0x110000 := c.valid
  generalize String.utf8EncodeChar c = w at hmap
  rw [codes] at hmap
  split at hmap
  · simp only [List.map_eq_cons_iff, List.map_eq_nil_iff] at hmap
    obtain ⟨x, _, rfl, hx, rfl⟩ := hmap
    exact .one (by omega)
  split at hmap
  · simp only [List.map_eq_cons_iff, List.map_eq_nil_iff] at hmap
    obtain ⟨x, _, rfl, hx, y, _, rfl, hy, rfl⟩ := hmap
    exact .two (by omega) ⟨by omega, by omega⟩
  split at hmap
  · simp only [List.map_eq_cons_iff, List.map_eq_nil_iff] at hmap
    obtain ⟨x, _, rfl, hx, y, _, rfl, hy, z, _, rfl, hz, rfl⟩ := hmap
    exact .three (by omega) ⟨by omega, by omega⟩ ⟨by omega, by omega⟩ (by omega) (by omega)
  · simp only [List.map_eq_cons_iff, List.map_eq_nil_iff] at hmap
    obtain ⟨x, _, rfl, hx, y, _, rfl, hy, z, _, rfl, hz, w, _, rfl, hw, rfl⟩ := hmap
    exact .four (by omega) ⟨by omega, by omega⟩ ⟨by omega, by omega⟩ ⟨by omega, by omega⟩
      (by omega) (by omega)

/-! ## What else there can be -/

theorem HasTails.exists_cons {n : ℕ} {b : Bytes} (h : HasTails (n + 1) b) :
    ∃ y b', b = y :: b' ∧ IsTail y ∧ HasTails n b' := by
  cases b with
  | nil => exact absurd h id
  | cons y b => exact ⟨y, b, rfl, h⟩

/-- **Nothing else can be wrong.** -/
theorem wellFormed_or_illFormed {b : Bytes} (hb : b ≠ []) :
    (∃ w rest, WellFormed w ∧ b = w ++ rest) ∨ IllFormed b := by
  obtain ⟨x, b, rfl⟩ := List.exists_cons_of_ne_nil hb
  rcases Nat.lt_or_ge x.toNat 0x80 with hone | hlong
  · exact .inl ⟨[x], b, .one hone, rfl⟩
  rcases Nat.lt_or_ge x.toNat 0xc0 with hstray | hlead
  · exact .inr (.stray ⟨hlong, hstray⟩)
  by_cases htails : HasTails (tails x) b
  swap
  · exact .inr (.truncated hlead htails)
  rw [tails] at htails
  -- enough bytes follow, by the number that the first byte asks for
  split at htails
  · next htwo =>
    obtain ⟨y, b, rfl, hy, -⟩ := htails.exists_cons
    rcases Nat.lt_or_ge x.toNat 0xc2 with hover | hlead
    · exact .inr (.overlong (by omega))
    · exact .inl ⟨[x, y], b, .two ⟨hlead, htwo⟩ hy, rfl⟩
  · next htwo =>
    split at htails
    · next hthree =>
      obtain ⟨y, b, rfl, hy, htails⟩ := htails.exists_cons
      obtain ⟨z, b, rfl, hz, -⟩ := htails.exists_cons
      by_cases hover : x.toNat = 0xe0 ∧ y.toNat < 0xa0
      · exact .inr (.overlong (by omega))
      by_cases hsurrogate : x.toNat = 0xed ∧ 0xa0 ≤ y.toNat
      · exact .inr (.surrogate hsurrogate.1 hsurrogate.2)
      · exact .inl ⟨[x, y, z], b, .three (by omega) hy hz (by omega) (by omega), rfl⟩
    · next hthree =>
      obtain ⟨y, b, rfl, hy, htails⟩ := htails.exists_cons
      obtain ⟨z, b, rfl, hz, htails⟩ := htails.exists_cons
      obtain ⟨w, b, rfl, hw, -⟩ := htails.exists_cons
      by_cases hover : x.toNat = 0xf0 ∧ y.toNat < 0x90
      · exact .inr (.overlong (by omega))
      by_cases hlarge : 0xf5 ≤ x.toNat ∨ x.toNat = 0xf4 ∧ 0x90 ≤ y.toNat
      · exact .inr (.tooLarge hlarge)
      · exact .inl ⟨[x, y, z, w], b, .four (by omega) hy hz hw (by omega) (by omega), rfl⟩

/-- Where a character stands, nothing is wrong. -/
theorem WellFormed.not_illFormed {w : Bytes} (h : WellFormed w) (rest : Bytes) :
    ¬ IllFormed (w ++ rest) := by
  intro hill
  cases h with
  | one hx =>
    cases hill with
    | stray hx' => exact absurd hx'.1 (by omega)
    | _ => omega
  | two hx hy =>
    cases hill with
    | stray hx' => exact absurd hx'.2 (by omega)
    | truncated hx' hb =>
      rw [tails, if_pos hx.2] at hb
      exact hb ⟨hy, trivial⟩
    | _ => omega
  | three hx hy hz hlong hsurrogate =>
    cases hill with
    | stray hx' => exact absurd hx'.2 (by omega)
    | truncated hx' hb =>
      rw [tails, if_neg (by omega), if_pos hx.2] at hb
      exact hb ⟨hy, hz, trivial⟩
    | _ => omega
  | four hx hy hz hw hlong hlarge =>
    cases hill with
    | stray hx' => exact absurd hx'.2 (by omega)
    | truncated hx' hb =>
      rw [tails, if_neg (by omega), if_neg (by omega)] at hb
      exact hb ⟨hy, hz, hw, trivial⟩
    | _ => omega

/-! ## The table and texts -/

/-- The table lists the encodings of the characters. -/
theorem wellFormed_iff {w : Bytes} : WellFormed w ↔ ∃ c : Char, String.utf8EncodeChar c = w := by
  refine ⟨WellFormed.exists_char, ?_⟩
  rintro ⟨c, rfl⟩
  exact wellFormed_utf8EncodeChar c

/-- **The encoding of a character tells where it ends,** whatever follows it. -/
theorem utf8EncodeChar_append_inj {c d : Char} {r s : Bytes}
    (h : String.utf8EncodeChar c ++ r = String.utf8EncodeChar d ++ s) : c = d ∧ r = s := by
  have hdecode := congrArg (fun b : Bytes ↦ b.toByteArray.utf8DecodeChar? 0) h
  simp only [List.toByteArray_append, ByteArray.utf8DecodeChar?_utf8EncodeChar_append] at hdecode
  obtain rfl := Option.some.inj hdecode
  exact ⟨rfl, List.append_cancel_left h⟩

/-- A text whose bytes start with a character starts with it. -/
theorem exists_cons_of_bytes_eq {t : Text} {c : Char} {b : Bytes}
    (h : t.bytes = String.utf8EncodeChar c ++ b) : ∃ t', t = c :: t' ∧ Text.bytes t' = b := by
  cases t with
  | nil =>
    have hnil : String.utf8EncodeChar c = [] := (List.append_eq_nil_iff.1 h.symm).1
    exact absurd hnil String.utf8EncodeChar_ne_nil
  | cons d t =>
    obtain ⟨rfl, rfl⟩ := utf8EncodeChar_append_inj h
    exact ⟨t, rfl, rfl⟩

/-- What is ill-formed at its front is no text. -/
theorem IllFormed.bytes_ne {bad : Bytes} (h : IllFormed bad) (t : Text) : t.bytes ≠ bad := by
  rintro rfl
  cases t with
  | nil => cases h
  | cons c t => exact (wellFormed_iff.2 ⟨c, rfl⟩).not_illFormed (Text.bytes t) h

/-- **A byte string is a text up to its end** or up to where it is ill-formed. -/
theorem exists_front (b : Bytes) : ∃ (front : Text) (bad : Bytes),
    b = front.bytes ++ bad ∧ (bad = [] ∨ IllFormed bad) := by
  induction hn : b.length using Nat.strongRecOn generalizing b with
  | ind n ih =>
    by_cases hb : b = []
    · exact ⟨[], [], hb, .inl rfl⟩
    rcases wellFormed_or_illFormed hb with ⟨w, rest, hw, rfl⟩ | hbad
    · obtain ⟨c, rfl⟩ := wellFormed_iff.1 hw
      have hlt : rest.length < n := by
        rw [← hn, List.length_append, String.length_utf8EncodeChar]
        exact Nat.lt_add_of_pos_left c.utf8Size_pos
      obtain ⟨front, bad, rfl, hbad⟩ := ih rest.length hlt rest rfl
      exact ⟨c :: front, bad, by simp [Text.bytes], hbad⟩
    · exact ⟨[], b, rfl, .inr hbad⟩

/-- **A byte string is no text if and only if it is ill-formed** behind some text. -/
theorem forall_bytes_ne_iff {b : Bytes} : (∀ t : Text, t.bytes ≠ b) ↔
    ∃ (front : Text) (bad : Bytes), b = front.bytes ++ bad ∧ IllFormed bad := by
  constructor
  · intro h
    obtain ⟨front, bad, hb, rfl | hbad⟩ := exists_front b
    · exact absurd (hb.trans (List.append_nil _)).symm (h front)
    · exact ⟨front, bad, hb, hbad⟩
  · rintro ⟨front, bad, rfl, hbad⟩
    induction front with
    | nil => exact hbad.bytes_ne
    | cons c front ih =>
      intro t ht
      obtain ⟨t', -, ht'⟩ := exists_cons_of_bytes_eq
        (ht.trans (List.append_assoc (String.utf8EncodeChar c) (Text.bytes front) bad))
      exact ih t' ht'

end Bytes
end LoxTokens
