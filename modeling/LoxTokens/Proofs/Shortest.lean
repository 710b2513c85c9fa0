import LoxTokens.Proofs.Fractions
import Mathlib.Data.Nat.Digits.Lemmas

/-!
# The shortest decimal

`Binary64.shortest` finds a decimal that rounds back to the number, and no decimal with fewer
significant digits does.

* `Decimal.significant d` — the number of digits without the zeros at the two ends.
  `significant_le_iff` says that it depends on the value only.
* `Binary64.value_exact` — the exact decimal of a number.
* `Binary64.exists_neighbour` — if any multiple of a power of ten rounds to the number, then one of
  the two around the exact value does.
* `Binary64.shortest_spec` — what the search finds.
-/

set_option autoImplicit false

namespace LoxTokens
namespace Decimal

/-! ## Significant digits -/

/-- The number of significant digits: those of the coefficient, without the zeros at its end. -/
def significant (d : Decimal) : ℕ := ((Nat.digits 10 d.coefficient).dropWhile (· = 0)).length

/-- A number is one that does not end in zero, followed by zeros. -/
theorem exists_eq_mul_pow {c : ℕ} (h : c ≠ 0) : ∃ m t, c = m * 10 ^ t ∧ m % 10 ≠ 0 ∧
    (Nat.digits 10 c).dropWhile (· = 0) = Nat.digits 10 m := by
  induction c using Nat.strongRecOn with
  | ind c ih =>
    have hdigits := Nat.digits_def' (b := 10) (by decide) (Nat.pos_of_ne_zero h)
    by_cases hzero : c % 10 = 0
    · obtain ⟨m, t, hm, hmod, hrest⟩ := ih (c / 10) (by omega) (by omega)
      refine ⟨m, t + 1, ?_, hmod, ?_⟩
      · rw [pow_succ, ← mul_assoc, ← hm]
        omega
      · rw [hdigits, List.dropWhile_cons_of_pos (by simpa using hzero), hrest]
    · refine ⟨c, 0, by rw [pow_zero, mul_one], hzero, ?_⟩
      rw [hdigits, List.dropWhile_cons_of_neg (by simpa using hzero)]

theorem value_eq_zero_iff {d : Decimal} : d.value = 0 ↔ d.coefficient = 0 := by
  rw [value, mul_eq_zero, Nat.cast_eq_zero, or_iff_left (zpow_ne_zero _ (by norm_num))]

/-- Zeros at the end can be counted in the exponent. -/
theorem natCast_mul_zpow_add (c n : ℕ) (e : ℤ) :
    (c : ℚ) * 10 ^ (e + n) = (c * 10 ^ n : ℕ) * 10 ^ e := by
  rw [zpow_add₀ (by norm_num), zpow_natCast]
  push_cast
  ring

theorem eq_of_mul_zpow_eq {c c' : ℕ} {e : ℤ} (h : (c : ℚ) * 10 ^ e = c' * 10 ^ e) : c = c' :=
  Nat.cast_injective (mul_right_cancel₀ (zpow_ne_zero _ (by norm_num)) h)

/-- **A number has as many significant digits as it takes to write it** as a natural number times a
power of ten. -/
theorem significant_le_iff {d : Decimal} {k : ℕ} :
    d.significant ≤ k ↔ ∃ (c : ℕ) (e : ℤ), c < 10 ^ k ∧ d.value = c * 10 ^ e := by
  rcases eq_or_ne d.coefficient 0 with hzero | hne
  · refine iff_of_true ?_ ⟨0, 0, by positivity, ?_⟩
    · simp [significant, hzero]
    · simp [value, hzero]
  · obtain ⟨m, t, hm, hmod, hdigits⟩ := exists_eq_mul_pow hne
    obtain ⟨f, hvalue⟩ : ∃ f : ℤ, d.value = m * 10 ^ f :=
      ⟨d.exponent + t, by rw [value, hm, natCast_mul_zpow_add]⟩
    rw [significant, hdigits, Nat.digits_length_le_iff (by decide)]
    constructor
    · exact fun hlt ↦ ⟨m, _, hlt, hvalue⟩
    · rintro ⟨c, e, hc, heq⟩
      rw [hvalue] at heq
      rcases lt_or_ge f e with hlt | hle
      · -- then `m` would end in zero
        obtain ⟨n, rfl⟩ : ∃ n : ℕ, e = f + (n + 1 : ℕ) := ⟨(e - f - 1).toNat, by omega⟩
        rw [natCast_mul_zpow_add] at heq
        have hm' := eq_of_mul_zpow_eq heq
        rw [pow_succ, ← mul_assoc] at hm'
        omega
      · obtain ⟨n, rfl⟩ : ∃ n : ℕ, f = e + n := ⟨(f - e).toNat, by omega⟩
        rw [natCast_mul_zpow_add] at heq
        calc m ≤ m * 10 ^ n := Nat.le_mul_of_pos_right _ (by positivity)
          _ = c := eq_of_mul_zpow_eq heq
          _ < 10 ^ k := hc

theorem significant_congr {d d' : Decimal} (h : d.value = d'.value) :
    d.significant = d'.significant := by
  refine eq_of_forall_ge_iff fun k ↦ ?_
  rw [significant_le_iff, significant_le_iff, h]

theorem significant_pos {d : Decimal} (h : d.value ≠ 0) : 0 < d.significant := by
  by_contra hle
  obtain ⟨c, e, hc, hvalue⟩ := significant_le_iff.1 (Nat.le_of_not_lt hle)
  obtain rfl : c = 0 := Nat.lt_one_iff.1 hc
  rw [hvalue, Nat.cast_zero, zero_mul] at h
  exact h rfl

/-! ## Trimming -/

/-- Trailing zeros do not change the value. -/
theorem value_trim (d : Decimal) : d.trim.value = d.value := by
  fun_induction trim d with
  | case1 d h ih =>
    have hten : d.coefficient = d.coefficient / 10 * 10 ^ 1 := by omega
    have hone := natCast_mul_zpow_add (d.coefficient / 10) 1 d.exponent
    rw [← hten] at hone
    rw [ih, value, value, ← hone]
    rfl
  | case2 d h => rfl

/-! ## Decimals with the same exponent, and places -/

theorem value_le_iff {c c' : ℕ} {e : ℤ} : value ⟨c, e⟩ ≤ value ⟨c', e⟩ ↔ c ≤ c' := by
  rw [value, value, mul_le_mul_iff_left₀ (zpow_pos (by norm_num) e), Nat.cast_le]

theorem value_add (c n : ℕ) (e : ℤ) : value ⟨c, e + n⟩ = value ⟨c * 10 ^ n, e⟩ :=
  natCast_mul_zpow_add c n e

theorem zpow_add_eq_value (n : ℕ) (e : ℤ) : (10 : ℚ) ^ (e + n) = value ⟨10 ^ n, e⟩ := by
  have h := natCast_mul_zpow_add 1 n e
  rwa [Nat.cast_one, one_mul, one_mul] at h

theorem pow_le_value_iff {d : Decimal} {n : ℕ} :
    10 ^ (d.exponent + n) ≤ d.value ↔ 10 ^ n ≤ d.coefficient := by
  rw [zpow_add_eq_value, value_le_iff]

theorem value_le_pow_iff {d : Decimal} {n : ℕ} :
    d.value ≤ 10 ^ (d.exponent + n) ↔ d.coefficient ≤ 10 ^ n := by
  rw [zpow_add_eq_value, value_le_iff]

theorem value_lt_pow_iff {d : Decimal} {n : ℕ} :
    d.value < 10 ^ (d.exponent + n) ↔ d.coefficient < 10 ^ n := by
  rw [← not_le, pow_le_value_iff, not_le]

/-- One more than the largest number with some digits is a power of ten, which has one. -/
theorem significant_le_succ {d : Decimal} {n : ℕ} (h : d.coefficient ≤ 10 ^ (n + 1)) :
    d.significant ≤ n + 1 := by
  rw [significant_le_iff]
  rcases h.lt_or_eq with hlt | heq
  · exact ⟨d.coefficient, d.exponent, hlt, rfl⟩
  · refine ⟨1, d.exponent + (n + 1 : ℕ), Nat.one_lt_pow (Nat.succ_ne_zero n) (by decide), ?_⟩
    rw [natCast_mul_zpow_add, one_mul, value, heq]

/-- The digits of a number say between which powers of ten it is. -/
theorem pow_le_and_lt_pow {d : Decimal} (h : d.coefficient ≠ 0) :
    10 ^ (d.digits.length - 1) ≤ d.coefficient ∧ d.coefficient < 10 ^ d.digits.length := by
  have hlength : ∀ k, 0 < k → (d.digits.length ≤ k ↔ d.coefficient < 10 ^ k) := fun k hk ↦
    Nat.length_toDigits_le_iff (by decide) hk
  have hpos : 0 < d.digits.length := List.length_pos_iff.2 Nat.toDigits_ne_nil
  refine ⟨?_, (hlength _ hpos).1 le_rfl⟩
  rcases Nat.eq_zero_or_pos (d.digits.length - 1) with hone | hmore
  · rw [hone]
    exact Nat.pos_of_ne_zero h
  · rw [← not_lt, ← hlength _ hmore]
    omega

end Decimal

namespace Binary64

/-! ## The exact decimal -/

/-- **The exact decimal is exact.** -/
theorem value_exact {x : Binary64} (h : x.isNegative = false) : x.exact.value = x.value := by
  rw [value, h, if_neg Bool.false_ne_true, one_mul, exact]
  generalize x.scale = s
  split
  · next hle =>
    obtain ⟨n, rfl⟩ := Nat.exists_eq_add_of_le hle
    simp [Decimal.value]
  · next hlt =>
    obtain ⟨n, hn⟩ := Nat.exists_eq_add_of_le (Nat.le_of_not_le hlt)
    have hplaces : 1074 - s = n := by omega
    have hexponent : (s : ℤ) - 1074 = -n := by omega
    have hten : (10 : ℚ) ^ n = 5 ^ n * 2 ^ n := by rw [← mul_pow]; norm_num
    rw [hplaces, hexponent, Decimal.value, zpow_neg, zpow_neg, zpow_natCast, zpow_natCast, hten,
      Nat.pow_eq]
    push_cast
    field_simp

theorem ofDecimal_eq_iff {d : Decimal} {x : Binary64} : ofDecimal d = x ↔ RoundsTo d.value x := by
  constructor
  · rintro rfl
    exact roundsTo_ofDecimal d
  · exact (roundsTo_ofDecimal d).unique d.value_nonneg

/-! ## Neighbours with fewer digits -/

/-- The decimal that is left when the last digits are dropped. -/
def below (d : Decimal) (drop : ℕ) : Decimal := ⟨d.coefficient / 10 ^ drop, d.exponent + drop⟩

/-- The next decimal with as many digits. -/
def above (d : Decimal) (drop : ℕ) : Decimal := ⟨d.coefficient / 10 ^ drop + 1, d.exponent + drop⟩

section

variable {d c : Decimal} {drop : ℕ} {hits : Decimal → Bool}

theorem neighbour?_eq_some (h : neighbour? d drop hits = some c) :
    hits c = true ∧ (c = below d drop ∨ c = above d drop) := by
  rw [neighbour?] at h
  split at h
  · next hbelow =>
    rw [Bool.and_eq_true] at hbelow
    obtain rfl := Option.some.inj h
    exact ⟨hbelow.1, .inl rfl⟩
  · split at h
    · next habove =>
      obtain rfl := Option.some.inj h
      exact ⟨habove, .inr rfl⟩
    · cases h

/-- No neighbour is left out. -/
theorem neighbour?_eq_none (h : neighbour? d drop hits = none) :
    hits (below d drop) = false ∧ hits (above d drop) = false := by
  rw [neighbour?] at h
  split at h
  · cases h
  · next hbelow =>
    split at h
    · cases h
    · next habove =>
      rw [Bool.not_eq_true] at habove
      have hexact : (!hits ⟨d.coefficient / Nat.pow 10 drop + 1, d.exponent + drop⟩) = true := by
        rw [habove]
        rfl
      rw [hexact, Bool.or_true, Bool.and_true, Bool.not_eq_true] at hbelow
      exact ⟨hbelow, habove⟩

/-- **If any decimal with few digits rounds to the number, then a neighbour of the exact value
does**, since the neighbours are nearer. -/
theorem exists_neighbour {x : Binary64} (hd : RoundsTo d.value x) {j : ℕ}
    (hj : RoundsTo (Decimal.value ⟨j, d.exponent + drop⟩) x) :
    RoundsTo (below d drop).value x ∨ RoundsTo (above d drop).value x := by
  have hbelow : (below d drop).value ≤ d.value := by
    rw [below, Decimal.value_add]
    exact Decimal.value_le_iff.2 (Nat.div_mul_le_self _ _)
  have habove : d.value ≤ (above d drop).value := by
    rw [above, Decimal.value_add]
    exact Decimal.value_le_iff.2
      ((Nat.div_lt_iff_lt_mul (by positivity)).1 (Nat.lt_succ_self _)).le
  rcases le_or_gt j (d.coefficient / 10 ^ drop) with hle | hlt
  · exact .inl (hj.between (Decimal.value_nonneg _) (Decimal.value_le_iff.2 hle) hbelow hd)
  · exact .inr (hd.between d.value_nonneg habove (Decimal.value_le_iff.2 hlt) hj)

end

/-! ## The search -/

/-- A search over the first numbers stops at the first success. -/
theorem exists_first_of_findSome? {α : Type} {f : ℕ → Option α} {size : ℕ} {a : α}
    (h : (List.range size).findSome? f = some a) :
    ∃ n < size, f n = some a ∧ ∀ m < n, f m = none := by
  obtain ⟨front, n, back, hrange, ha, hnone⟩ := List.findSome?_eq_some_iff.1 h
  have hsorted : (front ++ n :: back).Pairwise (· < ·) := hrange ▸ List.pairwise_lt_range
  have hmem : ∀ m, m ∈ front ++ n :: back ↔ m < size := fun m ↦ by rw [← hrange, List.mem_range]
  rw [List.pairwise_append, List.pairwise_cons] at hsorted
  obtain ⟨-, ⟨hback, -⟩, -⟩ := hsorted
  have hn : n < size := (hmem n).1 (by simp)
  refine ⟨n, hn, ha, fun m hm ↦ hnone m ?_⟩
  have hmrange := (hmem m).2 (hm.trans hn)
  simp only [List.mem_append, List.mem_cons] at hmrange
  rcases hmrange with hmem | rfl | hmem
  · exact hmem
  · exact absurd hm (Nat.lt_irrefl m)
  · exact absurd hm (hback m hmem).asymm

/-- What the search finds, before it is trimmed: the first number of digits with which a neighbour
of the exact decimal rounds to the number. -/
theorem exists_shortest {x : Binary64} (hsign : x.isNegative = false) (hx : x.isFinite = true) :
    ∃ n < x.exact.digits.length, ∃ c, x.shortest = c.trim ∧ RoundsTo c.value x ∧
      (c = below x.exact (x.exact.digits.length - (n + 1)) ∨
        c = above x.exact (x.exact.digits.length - (n + 1))) ∧
      ∀ m < n, ∀ j : ℕ, ¬ RoundsTo (Decimal.value
        ⟨j, x.exact.exponent + (x.exact.digits.length - (m + 1) : ℕ)⟩) x := by
  have habs : x.abs = x := ofMagnitude_magnitude hsign
  have hexact : RoundsTo x.exact.value x := value_exact hsign ▸ roundsTo_value hsign hx
  have hhits : ∀ c : Decimal, decide (ofDecimal c = x.abs) = true ↔ RoundsTo c.value x := fun c ↦ by
    rw [habs, decide_eq_true_eq, ofDecimal_eq_iff]
  have hmisses : ∀ {c : Decimal}, decide (ofDecimal c = x.abs) = false → ¬ RoundsTo c.value x :=
    fun h hc ↦ Bool.false_ne_true (h.symm.trans ((hhits _).2 hc))
  have hpos : 0 < x.exact.digits.length := List.length_pos_iff.2 Nat.toDigits_ne_nil
  rw [shortest]
  generalize hsize : x.exact.digits.length = size at hpos ⊢
  cases hfound : (List.range size).findSome? fun n ↦
      neighbour? x.exact (size - (n + 1)) fun c ↦ ofDecimal c = x.abs with
  | none =>
    -- but with all digits there is the exact decimal
    have hlast := List.findSome?_eq_none_iff.1 hfound (size - 1) (List.mem_range.2 (by omega))
    have hdrop : size - (size - 1 + 1) = 0 := by omega
    have hall : (below x.exact 0).value = x.exact.value := by simp [below, Decimal.value]
    rw [hdrop] at hlast
    exact absurd (hall ▸ hexact) (hmisses (neighbour?_eq_none hlast).1)
  | some c =>
    obtain ⟨n, hn, hc, hnone⟩ := exists_first_of_findSome? hfound
    obtain ⟨hhit, hcases⟩ := neighbour?_eq_some hc
    refine ⟨n, hn, c, rfl, (hhits c).1 hhit, hcases, fun m hm j hj ↦ ?_⟩
    obtain ⟨hbelow, habove⟩ := neighbour?_eq_none (hnone m hm)
    exact (exists_neighbour hexact hj).elim (hmisses hbelow) (hmisses habove)

/-- A neighbour with `n + 1` digits is between the powers of ten around the exact value. -/
theorem pow_le_neighbour {d c : Decimal} (hd : d.coefficient ≠ 0) {n : ℕ}
    (hn : n < d.digits.length) (hc : c = below d (d.digits.length - (n + 1)) ∨
      c = above d (d.digits.length - (n + 1))) :
    10 ^ n ≤ c.coefficient ∧ c.coefficient ≤ 10 ^ (n + 1) ∧
      c.exponent + n = d.exponent + (d.digits.length - 1 : ℕ) := by
  obtain ⟨hlower, hupper⟩ := Decimal.pow_le_and_lt_pow hd
  obtain ⟨drop, hdrop⟩ := Nat.exists_eq_add_of_lt hn
  have hlast : d.digits.length - 1 = n + drop := by omega
  have hall : d.digits.length = n + 1 + drop := by omega
  have hdropped : d.digits.length - (n + 1) = drop := by omega
  rw [hlast, pow_add, ← Nat.le_div_iff_mul_le (by positivity)] at hlower
  rw [hall, pow_add, ← Nat.div_lt_iff_lt_mul (by positivity)] at hupper
  have hplace : d.exponent + drop + n = d.exponent + (d.digits.length - 1 : ℕ) := by omega
  rw [hdropped] at hc
  rcases hc with rfl | rfl
  · exact ⟨hlower, hupper.le, hplace⟩
  · exact ⟨hlower.trans (Nat.le_succ _), hupper, hplace⟩

/-- A decimal with fewer digits that rounds to a number makes one in the place of its last digit,
as long as the number is not below all decimals with that place. -/
theorem exists_roundsTo_place {x : Binary64} {d : Decimal} (hd : RoundsTo d.value x) {v : ℚ}
    (hv : RoundsTo v x) {m : ℕ} {place : ℤ} (hplace : 10 ^ (place + m) ≤ v)
    (hm : d.significant ≤ m + 1) : ∃ j : ℕ, RoundsTo (Decimal.value ⟨j, place⟩) x := by
  obtain ⟨c, e, hc, hvalue⟩ := Decimal.significant_le_iff.1 hm
  rw [hvalue] at hd
  rcases le_or_gt place e with hle | hlt
  · obtain ⟨i, rfl⟩ : ∃ i : ℕ, e = place + i := ⟨(e - place).toNat, by omega⟩
    exact ⟨c * 10 ^ i, Decimal.value_add c i place ▸ hd⟩
  · -- the power of ten is between the two, and has the place
    have hpow : (c : ℚ) * 10 ^ e ≤ 10 ^ (place + m) :=
      calc Decimal.value ⟨c, e⟩ ≤ 10 ^ (e + (m + 1 : ℕ)) := Decimal.value_le_pow_iff.2 hc.le
        _ ≤ 10 ^ (place + m) := zpow_le_zpow_right₀ (by norm_num) (by omega)
    have hbetween := hd.between (Decimal.value_nonneg ⟨c, e⟩) hpow hplace hv
    exact ⟨10 ^ m, Decimal.zpow_add_eq_value m place ▸ hbetween⟩

/-- **The search finds a shortest decimal.**  It rounds to the number, no decimal with fewer
significant digits does, and it is between the same powers of ten as the number. -/
theorem shortest_spec {x : Binary64} (hsign : x.isNegative = false) (hx : x.isFinite = true)
    (hne : x.value ≠ 0) :
    RoundsTo x.shortest.value x ∧
    (∀ d : Decimal, RoundsTo d.value x → x.shortest.significant ≤ d.significant) ∧
    ∃ top : ℤ, (10 ^ top ≤ x.value ∧ x.value < 10 ^ (top + 1)) ∧
      10 ^ top ≤ x.shortest.value ∧ x.shortest.value ≤ 10 ^ (top + 1) := by
  obtain ⟨n, hn, c, hshortest, hc, hneighbour, hfewer⟩ := exists_shortest hsign hx
  have hvalue := value_exact hsign
  have hcoefficient : x.exact.coefficient ≠ 0 := by
    rwa [ne_eq, ← Decimal.value_eq_zero_iff, hvalue]
  have hexact : RoundsTo x.exact.value x := hvalue ▸ roundsTo_value hsign hx
  generalize x.exact = exact at *
  obtain ⟨hlower, hupper, hplace⟩ := pow_le_neighbour hcoefficient hn hneighbour
  obtain ⟨hsize, hsize'⟩ := Decimal.pow_le_and_lt_pow hcoefficient
  have htrim : x.shortest.value = c.value := by rw [hshortest, Decimal.value_trim]
  rw [htrim, Decimal.significant_congr htrim]
  refine ⟨hc, fun d hd ↦ ?_, c.exponent + n, ⟨?_, ?_⟩, ?_, ?_⟩
  · -- the search found no decimal with fewer digits
    refine (Decimal.significant_le_succ hupper).trans ?_
    by_contra hlt
    obtain ⟨m, hm⟩ := Nat.exists_eq_add_of_lt (Decimal.significant_pos (hd.ne_zero hne))
    rw [Nat.zero_add] at hm
    have hplace : exact.exponent + (exact.digits.length - (m + 1) : ℕ) + m =
        exact.exponent + (exact.digits.length - 1 : ℕ) := by omega
    obtain ⟨j, hj⟩ := exists_roundsTo_place hd hexact
      (hplace ▸ Decimal.pow_le_value_iff.2 hsize) hm.le
    exact hfewer m (by omega) j hj
  · rw [hplace, ← hvalue]
    exact Decimal.pow_le_value_iff.2 hsize
  · have hplace' : c.exponent + n + 1 = exact.exponent + exact.digits.length := by omega
    rw [hplace', ← hvalue]
    exact Decimal.value_lt_pow_iff.2 hsize'
  · exact Decimal.pow_le_value_iff.2 hlower
  · rw [add_assoc, ← Nat.cast_succ]
    exact Decimal.value_le_pow_iff.2 hupper

end Binary64
end LoxTokens
