import LoxTokens.Proofs.Postprocess
import Mathlib.Data.List.Forall2

/-!
# Looking up reserved words

A word is looked up in a table of reserved words, letter for letter or up to the case of ASCII
letters.  The table, the spellings of the keywords and the names under which they are displayed are
written out apart from each other, and so it has to be said that they agree.  Moreover the look-up
makes the word small first, and it has to be said what that amounts to on all words: those that hold
other characters, those that stop short of a reserved word or go on behind it, and those that only a
wider notion of case takes for a reserved word.

* `SameLetter c d` and `Text.SameLetters s t` — agreement up to the case of ASCII letters, character
  by character and without any folding.
* `Keyword.ofText?_exact_iff` and `Keyword.ofText?_insensitive_iff` — which words are found.
* `Keyword.eq_of_isPrefix` — no reserved word is the front of another.
* `keyword_lookup` — the look-up on all words.
-/

set_option autoImplicit false

namespace LoxTokens

/-! ## The case of letters -/

/-- The same character, or an ASCII capital and its small letter in either order. -/
def SameLetter (c d : Char) : Prop :=
  c = d ∨ c.isUpper = true ∧ d.toNat = c.toNat + 32 ∨ d.isUpper = true ∧ c.toNat = d.toNat + 32

/-- Two texts of one length that agree in each place up to the case of ASCII letters. -/
def Text.SameLetters (s t : Text) : Prop := List.Forall₂ SameLetter s t

theorem isUpper_iff_toNat {c : Char} : c.isUpper = true ↔ 65 ≤ c.toNat ∧ c.toNat ≤ 90 := by
  have h : c.isUpper = decide ('A' ≤ c ∧ c ≤ 'Z') := rfl
  rw [h, decide_eq_true_eq]
  exact and_congr UInt32.le_iff_toNat_le UInt32.le_iff_toNat_le

theorem isAlpha_iff_toNat {c : Char} : c.isAlpha = true ↔
    65 ≤ c.toNat ∧ c.toNat ≤ 90 ∨ 97 ≤ c.toNat ∧ c.toNat ≤ 122 := by
  have h : c.isAlpha = (c.isUpper || (decide ('a' ≤ c) && decide (c ≤ 'z'))) := rfl
  rw [h, Bool.or_eq_true, isUpper_iff_toNat, Bool.and_eq_true, decide_eq_true_eq,
    decide_eq_true_eq]
  exact or_congr_right (and_congr UInt32.le_iff_toNat_le UInt32.le_iff_toNat_le)

theorem toNat_toLower_cases (c : Char) :
    c.isUpper = true ∧ c.toLower.toNat = c.toNat + 32 ∨
      c.isUpper ≠ true ∧ c.toLower.toNat = c.toNat := by
  by_cases hc : c.isUpper = true
  · exact .inl ⟨hc, Text.toNat_toLower (of_decide_eq_true hc)⟩
  · exact .inr ⟨hc, congrArg Char.toNat (dif_neg (mt (decide_eq_true (p := _)) hc))⟩

theorem sameLetter_iff {c d : Char} : SameLetter c d ↔ c.toLower = d.toLower := by
  rw [SameLetter, ← Char.toNat_inj, ← Char.toNat_inj]
  have hc := toNat_toLower_cases c
  have hd := toNat_toLower_cases d
  simp only [isUpper_iff_toNat, ne_eq] at *
  omega

/-- To agree up to the case of letters is to be the same in small letters. -/
theorem Text.sameLetters_iff {s t : Text} : s.SameLetters t ↔ s.lower = t.lower := by
  have heq : List.Forall₂ (fun c d : Char ↦ c.toLower = d.toLower) s t ↔ s.lower = t.lower := by
    rw [lower, lower, ← List.forall₂_eq_eq_eq, List.forall₂_map_left_iff,
      List.forall₂_map_right_iff]
  rw [← heq, SameLetters]
  exact ⟨fun h ↦ h.imp fun _ _ ↦ sameLetter_iff.1, fun h ↦ h.imp fun _ _ ↦ sameLetter_iff.2⟩

namespace Keyword

/-! ## What is found -/

variable {keywordCase : KeywordCase} {w : Text} {k l : Keyword}

theorem ofText?_exact_iff : ofText? .exact w = some k ↔ w = k.text :=
  lookup_reserved_eq_some_iff

/-- A word is found in any case if it agrees with the reserved word up to the case of letters. -/
theorem ofText?_insensitive_iff : ofText? .insensitive w = some k ↔ w.SameLetters k.text := by
  rw [Text.sameLetters_iff, lower_text]
  exact lookup_reserved_eq_some_iff

/-- Whatever is found is a reserved word in small letters. -/
theorem lower_of_ofText? (h : ofText? keywordCase w = some k) : w.lower = k.text := by
  cases keywordCase with
  | exact => rw [ofText?_exact_iff.1 h, lower_text]
  | insensitive => rw [Text.sameLetters_iff.1 (ofText?_insensitive_iff.1 h), lower_text]

theorem isAlpha_of_mem_text {c : Char} (h : c ∈ k.text) : c.isAlpha = true := by
  have hall : k.text.all Char.isAlpha = true := by cases k <;> decide
  exact List.all_eq_true.1 hall c h

/-- A word that is found consists of ASCII letters. -/
theorem isAlpha_of_ofText? (h : ofText? keywordCase w = some k) :
    ∀ c ∈ w, c.isAlpha = true := by
  intro c hc
  have hmem : c.toLower ∈ k.text := lower_of_ofText? h ▸ List.mem_map_of_mem hc
  have hlower := isAlpha_iff_toNat.1 (isAlpha_of_mem_text hmem)
  have hcases := toNat_toLower_cases c
  rw [isUpper_iff_toNat] at hcases
  exact isAlpha_iff_toNat.2 (by omega)

/-- No reserved word is the front of another. -/
theorem eq_of_isPrefix (h : k.text <+: l.text) : k = l := by
  have hall : ∀ k ∈ all, ∀ l ∈ all, k.text <+: l.text → k = l := by decide
  exact hall k (mem_all k) l (mem_all l) h

/-- What stops short of a reserved word is not found. -/
theorem ofText?_of_append_sameLetters {e : Text} (he : e ≠ [])
    (h : Text.SameLetters (w ++ e) k.text) : ofText? keywordCase w = none := by
  rw [Text.sameLetters_iff, Text.lower_append, lower_text] at h
  refine Option.eq_none_iff_forall_ne_some.2 fun l hl ↦ he ?_
  rw [lower_of_ofText? hl] at h
  obtain rfl : l = k := eq_of_isPrefix ⟨e.lower, h⟩
  exact List.map_eq_nil_iff.1 (List.append_right_eq_self.1 h)

/-- What goes on behind a reserved word is not found. -/
theorem ofText?_append_of_sameLetters {e : Text} (he : e ≠ []) (h : w.SameLetters k.text) :
    ofText? keywordCase (w ++ e) = none := by
  rw [Text.sameLetters_iff, lower_text] at h
  refine Option.eq_none_iff_forall_ne_some.2 fun l hl ↦ he ?_
  have hl := lower_of_ofText? hl
  rw [Text.lower_append, h] at hl
  obtain rfl : k = l := eq_of_isPrefix ⟨e.lower, hl⟩
  exact List.map_eq_nil_iff.1 (List.append_right_eq_self.1 hl)

/-- A notion of case that goes beyond ASCII finds no more of what is found. -/
theorem ofText?_of_folded {fold : Char → Text} (hfold : ∀ c, c.toNat < 128 → fold c = [c.toLower])
    (h : w.flatMap fold = k.text) (hne : ¬ w.SameLetters k.text) :
    ofText? keywordCase w = none := by
  refine Option.eq_none_iff_forall_ne_some.2 fun l hl ↦ hne ?_
  have hlower : w.flatMap fold = w.lower := by
    rw [Text.lower, List.map_eq_flatMap]
    refine List.flatMap_congr fun c hc ↦ hfold c ?_
    have hletter := isAlpha_iff_toNat.1 (isAlpha_of_ofText? hl c hc)
    omega
  rw [Text.sameLetters_iff, lower_text, ← hlower, h]

theorem lower_capitals (k : Keyword) : k.capitals.lower = k.text := by cases k <;> decide

theorem capitals_ne_text (k l : Keyword) : k.capitals ≠ l.text := by
  have hall : ∀ k ∈ all, ∀ l ∈ all, k.capitals ≠ l.text := by decide
  exact hall k (mem_all k) l (mem_all l)

end Keyword

/-! ## The look-up on all words -/

/-- **The look-up is exact.**  The table of reserved words holds the spellings of the keywords and
nothing else, and a keyword is displayed by its spelling in capitals.  Letter for letter a word is
found if it is the reserved word, and in any case of letters if it has the same letters in the same
places.  So a word is not found, in either way, if it holds anything but ASCII letters, if it stops
short of a reserved word or goes on behind it, or if only a notion of case beyond that of ASCII
makes a reserved word of it.  What is found letter for letter is found in any case, and the case of
letters then makes no difference.  Capitals are found in this way only. -/
theorem keyword_lookup :
    (∀ w k, (w, k) ∈ Keyword.reserved ↔ w = k.text) ∧
    (∀ k : Keyword, k.capitals = k.text.upper) ∧
    (∀ w k, Keyword.ofText? .exact w = some k ↔ w = k.text) ∧
    (∀ w k, Keyword.ofText? .insensitive w = some k ↔ w.SameLetters k.text) ∧
    (∀ keywordCase w, (∃ c ∈ w, c.isAlpha = false) → Keyword.ofText? keywordCase w = none) ∧
    (∀ keywordCase w e (k : Keyword), e ≠ [] → Text.SameLetters (w ++ e) k.text →
      Keyword.ofText? keywordCase w = none) ∧
    (∀ keywordCase w e (k : Keyword), e ≠ [] → Text.SameLetters w k.text →
      Keyword.ofText? keywordCase (w ++ e) = none) ∧
    (∀ fold : Char → Text, (∀ c, c.toNat < 128 → fold c = [c.toLower]) →
      ∀ keywordCase w (k : Keyword), w.flatMap fold = k.text → ¬ w.SameLetters k.text →
        Keyword.ofText? keywordCase w = none) ∧
    (∀ w k, Keyword.ofText? .exact w = some k → Keyword.ofText? .insensitive w = some k) ∧
    (∀ w w' : Text, w.SameLetters w' →
      Keyword.ofText? .insensitive w = Keyword.ofText? .insensitive w') ∧
    ∀ k : Keyword, Keyword.ofText? .insensitive k.capitals = some k ∧
      Keyword.ofText? .exact k.capitals = none := by
  refine ⟨fun w k ↦ Keyword.mem_reserved_iff, Keyword.capitals_eq_upper,
    fun w k ↦ Keyword.ofText?_exact_iff, fun w k ↦ Keyword.ofText?_insensitive_iff, ?_,
    fun _ _ _ _ ↦ Keyword.ofText?_of_append_sameLetters,
    fun _ _ _ _ ↦ Keyword.ofText?_append_of_sameLetters,
    fun _ hfold _ _ _ ↦ Keyword.ofText?_of_folded hfold,
    fun _ _ ↦ Keyword.ofText?_insensitive, fun w w' h ↦ ?_, fun k ↦ ⟨?_, ?_⟩⟩
  · rintro keywordCase w ⟨c, hc, hother⟩
    refine Option.eq_none_iff_forall_ne_some.2 fun k hk ↦ ?_
    rw [Keyword.isAlpha_of_ofText? hk c hc] at hother
    cases hother
  · rw [Keyword.ofText?, Keyword.ofText?, Text.sameLetters_iff.1 h]
  · rw [Keyword.ofText?_insensitive_iff, Text.sameLetters_iff, Keyword.lower_capitals,
      Keyword.lower_text]
  · refine Option.eq_none_iff_forall_ne_some.2 fun l hl ↦ ?_
    exact k.capitals_ne_text l (Keyword.ofText?_exact_iff.1 hl)

/-- The long s is an `s` in a wider notion of case, but not the same letter. -/
theorem keyword_lookup_long_s :
    let fold : Char → Text := fun c ↦ if c = 'ſ' then ['s'] else [c.toLower]
    let w : Text := ['ſ', 'U', 'p', 'e', 'r']
    (∀ c, c.toNat < 128 → fold c = [c.toLower]) ∧ w.flatMap fold = Keyword.superKw.text ∧
      ¬ w.SameLetters Keyword.superKw.text ∧ Keyword.ofText? .insensitive w = none := by
  intro fold w
  have hfold : ∀ c, c.toNat < 128 → fold c = [c.toLower] := fun c hc ↦
    if_neg fun h ↦ absurd (h ▸ hc) (by decide)
  have htext : w.flatMap fold = Keyword.superKw.text := by decide
  have hne : ¬ w.SameLetters Keyword.superKw.text := by
    rw [Text.sameLetters_iff]
    decide
  obtain ⟨-, -, -, -, -, -, -, hwide, -⟩ := keyword_lookup
  exact ⟨hfold, htext, hne, hwide fold hfold .insensitive w .superKw htext hne⟩

end LoxTokens
