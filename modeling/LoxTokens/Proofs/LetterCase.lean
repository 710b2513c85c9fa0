import LoxTokens.Proofs.Respelling

/-!
# The case of letters

The case of ASCII letters matters in one place only, where a word is looked up among the keywords.
Small letters are a spelling of the source in the sense of `Respells`, so a scan that does not look
at the case of keywords can be had from an exact scan of the source in small letters.

* `tokenize_lower` — the two scans compared, and any two sources that differ in case only.

Letters beyond ASCII are left as they are, also those that fold to an ASCII letter: the Kelvin sign
is an error in either scan.
-/

set_option autoImplicit false

namespace LoxTokens

/-- A character is not changed, or it is an ASCII capital and becomes a small letter. -/
theorem toLower_cases (c : Char) :
    c.toLower = c ∨ isWordStart c = true ∧ isWordStart c.toLower = true := by
  by_cases hc : 'A' ≤ c ∧ c ≤ 'Z'
  · have hlower : 65 ≤ c.toNat := UInt32.le_iff_toNat_le.1 hc.1
    have hupper : c.toNat ≤ 90 := UInt32.le_iff_toNat_le.1 hc.2
    have hcode : c.toLower.val.toNat = c.toNat + 32 := Text.toNat_toLower hc
    refine .inr ⟨isWordStart_iff.2 (.inl hc), isWordStart_iff.2 (.inr (.inl ⟨?_, ?_⟩))⟩
    · exact UInt32.le_iff_toNat_le.2 (by rw [hcode]; exact Nat.add_le_add_right hlower 32)
    · exact UInt32.le_iff_toNat_le.2 (by rw [hcode]; exact Nat.add_le_add_right hupper 32)
  · exact .inl (dif_neg hc)

theorem respells_toLower : Respells fun c ↦ [c.toLower] where
  separator c hc := by
    have hself : c.toLower = c := by
      rcases isSeparator_iff.1 hc with rfl | rfl | rfl | rfl <;> rfl
    simp [hself, hc]
  other c _ := ⟨c.toLower, rfl, toLower_cases c⟩

theorem Text.flatMap_toLower : (fun t : Text ↦ t.flatMap fun c ↦ [c.toLower]) = lower :=
  funext fun _ ↦ List.map_eq_flatMap.symm

theorem TokenKind.eq_or_string_of_mapText_lower {k l : TokenKind}
    (h : k.mapText Text.lower = l.mapText Text.lower) :
    k = l ∨ ∃ s s' : Text, k = string s ∧ l = string s' ∧ s.lower = s'.lower := by
  cases k <;> cases l <;> simp_all [mapText]

/-- The exact look-up of a word in small letters is the look-up of the word in any. -/
theorem wordKind_lower (e : EmptyStrings) (w : Text) :
    Span.wordKind ⟨e, .exact⟩ (w.flatMap fun c ↦ [c.toLower]) =
      Span.wordKind ⟨e, .insensitive⟩ w := by
  rw [← List.map_eq_flatMap]
  rfl

/-- An exact scan of the source in small letters. -/
theorem tokenize_exact_lower (e : EmptyStrings) (source : Text) :
    tokenize ⟨e, .exact⟩ source.lower =
      (tokenize ⟨e, .insensitive⟩ source).mapText Text.lower := by
  have hempty : Options.emptyStrings ⟨e, .exact⟩ = Options.emptyStrings ⟨e, .insensitive⟩ := rfl
  have hscan := respells_toLower.tokenize_flatMap hempty (fun w _ ↦ wordKind_lower e w) source
  rwa [Text.flatMap_toLower, ← List.map_eq_flatMap] at hscan

/-- **Small letters instead of any.**  An exact scan of the source in small letters gives the tokens
of a scan that does not look at the case of keywords, with their texts in small letters, and the
same errors.  So two sources that differ in the case of ASCII letters only have the same kinds of
tokens, but for the texts of strings. -/
theorem tokenize_lower (e : EmptyStrings) (source : Text) :
    tokenize ⟨e, .exact⟩ source.lower =
      (tokenize ⟨e, .insensitive⟩ source).mapText Text.lower ∧
    ∀ source' : Text, source'.lower = source.lower →
      List.Forall₂ (fun t t' : Token ↦ t.kind = t'.kind ∨
          ∃ s s' : Text, t.kind = .string s ∧ t'.kind = .string s' ∧ s.lower = s'.lower)
        (tokenize ⟨e, .insensitive⟩ source).tokens (tokenize ⟨e, .insensitive⟩ source').tokens := by
  refine ⟨tokenize_exact_lower e source, fun source' hsource' ↦ ?_⟩
  have hscan : (tokenize ⟨e, .insensitive⟩ source).mapText Text.lower =
      (tokenize ⟨e, .insensitive⟩ source').mapText Text.lower := by
    rw [← tokenize_exact_lower, ← tokenize_exact_lower, hsource']
  have htokens : List.Forall₂ (fun t t' : Token ↦ t.mapText Text.lower = t'.mapText Text.lower)
      (tokenize ⟨e, .insensitive⟩ source).tokens (tokenize ⟨e, .insensitive⟩ source').tokens := by
    rw [← List.forall₂_map_right_iff, ← List.forall₂_map_left_iff, List.forall₂_eq_eq_eq]
    exact congrArg Scan.tokens hscan
  exact htokens.imp fun t t' h ↦ TokenKind.eq_or_string_of_mapText_lower (congrArg Token.kind h)

/-- The Kelvin sign has no small letter, and the letter with an accent is not changed either. -/
theorem tokenize_lower_kelvin :
    let source : Text := ['I', 'F', '"', 'É', 'A', '"', '\u212a']
    let source' : Text := ['i', 'F', '"', 'É', 'a', '"', '\u212a']
    source'.lower = source.lower ∧
    (tokenize ⟨.emit, .insensitive⟩ source).mapText Text.lower =
      ⟨[⟨.keyword .ifKw, ['i', 'f'], 1⟩, ⟨.string ['É', 'a'], ['É', 'a'], 1⟩, Token.endOfFile 1],
        [⟨.unexpectedCharacter '\u212a', 1⟩]⟩ ∧
    List.Forall₂ (fun t t' : Token ↦ t.kind = t'.kind ∨
        ∃ s s' : Text, t.kind = .string s ∧ t'.kind = .string s' ∧ s.lower = s'.lower)
      (tokenize ⟨.emit, .insensitive⟩ source).tokens
      (tokenize ⟨.emit, .insensitive⟩ source').tokens := by
  intro source source'
  have hcase : source'.lower = source.lower := by decide
  obtain ⟨hscan, hkinds⟩ := tokenize_lower .emit source
  refine ⟨hcase, ?_, hkinds source' hcase⟩
  rw [← hscan]
  decide +kernel

end LoxTokens
