import LoxTokens.Proofs.Grid
import Mathlib.Tactic.FieldSimp
import Mathlib.Tactic.Qify

/-!
# Correct rounding

Every nonnegative rational number is rounded to the nearest binary64 number, a half to the even
neighbour, and to infinity from the middle between the largest finite number and the next power of
two on.

* `Binary64.value` — the number that finite bits stand for.
* `Binary64.RoundsTo q x` — what it means that `x` is `q` rounded.  It compares `x` to all finite
  numbers, and says nothing about how `x` is found.
* `Binary64.roundsTo_iff` — the same by the grid of the binary64 numbers.
* `Binary64.RoundsTo.magnitude_le` — rounding is monotone, so that by `RoundsTo.unique` there is
  only one result, and by `RoundsTo.between` what is between two numbers that are rounded alike is
  rounded so too.
* `Binary64.roundsTo_ofRatio` — `ofRatio` rounds a quotient.
-/

set_option autoImplicit false

namespace LoxTokens
namespace Binary64

/-! ## What bits stand for -/

/-- Whether the number is neither infinite nor a NaN. -/
def isFinite (x : Binary64) : Bool := x.magnitude < infinityBits

/-- The number that finite bits stand for: the significand in its place, with a sign. -/
def value (x : Binary64) : ℚ :=
  (if x.isNegative then -1 else 1) * (x.significand * 2 ^ ((x.scale : ℤ) - 1074))

/-- The number `x` is `q` rounded to the nearest binary64 number without a sign. -/
structure RoundsTo (q : ℚ) (x : Binary64) : Prop where
  isNegative_eq : x.isNegative = false
  /-- What is no nearer to the largest finite number than to the next power of two is too large. -/
  overflow : 2 ^ 1024 - 2 ^ 970 ≤ q → x.isInfinite = true
  finite : q < 2 ^ 1024 - 2 ^ 970 → x.isFinite = true
  nearest : x.isFinite = true → ∀ y : Binary64, y.isFinite = true → |x.value - q| ≤ |y.value - q|
  even : x.isFinite = true → ∀ y : Binary64, y.isFinite = true → y.value ≠ x.value →
    |y.value - q| = |x.value - q| → x.significand % 2 = 0

/-! ## Bits and the grid -/

theorem toNat_bits_ofMagnitude {m : ℕ} (h : m < signUnit) : (ofMagnitude m).bits.toNat = m :=
  UInt64.toNat_ofNat_of_lt (Nat.lt_trans h (by decide))

theorem magnitude_ofMagnitude {m : ℕ} (h : m < signUnit) : (ofMagnitude m).magnitude = m := by
  rw [magnitude, toNat_bits_ofMagnitude h, Nat.mod_eq_of_lt h]

theorem isNegative_ofMagnitude {m : ℕ} (h : m < signUnit) :
    (ofMagnitude m).isNegative = false := by
  rw [isNegative, toNat_bits_ofMagnitude h, decide_eq_false_iff_not]
  exact Nat.not_le_of_lt h

theorem ofMagnitude_magnitude {x : Binary64} (h : x.isNegative = false) :
    ofMagnitude x.magnitude = x := by
  rw [isNegative, decide_eq_false_iff_not, Nat.not_le] at h
  rw [magnitude, Nat.mod_eq_of_lt h, ofMagnitude, UInt64.ofNat_toNat]

theorem magnitude_lt (x : Binary64) : x.magnitude < signUnit := Nat.mod_lt _ (by decide)

theorem infinityBits_lt : infinityBits < signUnit := by decide

theorem significand_mod_two (x : Binary64) : x.significand % 2 = x.magnitude % 2 := by
  have hunit : exponentUnit = 2 ^ 52 := rfl
  rw [significand, hunit]
  split <;> omega

theorem value_of_isNegative_eq {x : Binary64} (h : x.isNegative = false) :
    x.value = point x.magnitude := by
  have hplace : (2 : ℚ) ^ ((x.scale : ℤ) - 1074) = 2 ^ x.scale / 2 ^ 1074 := by
    rw [zpow_sub₀ two_ne_zero, zpow_natCast, zpow_ofNat]
  have hunits : pointUnits x.magnitude = x.significand * 2 ^ x.scale := rfl
  rw [value, h, if_neg Bool.false_ne_true, one_mul, point, hunits, hplace,
    Nat.cast_mul, Nat.cast_pow, Nat.cast_ofNat, mul_div_assoc]

/-! ## Where numbers become too large -/

/-- The power of two behind the largest finite number. -/
theorem point_infinityBits : point infinityBits = 2 ^ 1024 := by
  have hbits : infinityBits = 2046 * 2 ^ 52 + 2 ^ 52 := rfl
  have hunits : pointUnits infinityBits = 2 ^ 1024 * 2 ^ 1074 := by
    rw [hbits, pointUnits_eq (by decide) (.inr le_rfl), ← pow_add, ← pow_add]
  rw [point, hunits, Nat.cast_mul, Nat.cast_pow, Nat.cast_pow, Nat.cast_ofNat,
    mul_div_cancel_right₀ _ (pow_ne_zero _ two_ne_zero)]

/-- The largest finite number. -/
theorem point_infinityBits_sub_one : point (infinityBits - 1) = (2 ^ 53 - 1) * 2 ^ 971 := by
  have hbits : infinityBits - 1 = 2045 * 2 ^ 52 + (2 ^ 53 - 1) := rfl
  have hunits : pointUnits (infinityBits - 1) = (2 ^ 53 - 1) * 2 ^ 971 * 2 ^ 1074 := by
    rw [hbits, pointUnits_eq (by decide) (.inr (by decide)), mul_assoc, ← pow_add]
  have hodd : ((2 ^ 53 - 1 : ℕ) : ℚ) = 2 ^ 53 - 1 := by norm_num
  rw [point, hunits, Nat.cast_mul, Nat.cast_mul, Nat.cast_pow, Nat.cast_pow, Nat.cast_ofNat, hodd,
    mul_div_cancel_right₀ _ (pow_ne_zero _ two_ne_zero)]

/-- The middle between the two. -/
theorem middle_eq :
    point (infinityBits - 1) + point infinityBits = 2 * (2 ^ 1024 - 2 ^ 970) := by
  have hlarge : (2 : ℚ) ^ 1024 = 2 ^ 54 * 2 ^ 970 := pow_add 2 54 970
  have hplace : (2 : ℚ) ^ 971 = 2 * 2 ^ 970 := pow_succ' 2 970
  rw [point_infinityBits, point_infinityBits_sub_one, hplace, hlarge]
  generalize (2 : ℚ) ^ 970 = u
  ring

/-- **The nearest point is infinite** from the middle between the largest finite number and the next
power of two on. -/
theorem infinityBits_le_iff {q : ℚ} {k : ℕ} (hk : IsNearest point q k) :
    infinityBits ≤ k ↔ 2 ^ 1024 - 2 ^ 970 ≤ q := by
  have hlast : infinityBits - 1 < infinityBits := by decide
  have hmiddle : 2 ^ 1024 - 2 ^ 970 ≤ q ↔
      point (infinityBits - 1) + point infinityBits ≤ 2 * q := by
    rw [middle_eq, mul_le_mul_iff_right₀ two_pos]
  rw [hmiddle]
  constructor
  · intro hle
    have hpoint := strictMono_point.monotone hle
    have hmid := (abs_upper_sub_le_iff (strictMono_point (hlast.trans_le hle))).1
      (hk.le (infinityBits - 1))
    linarith
  · intro hq
    by_contra hlt
    rw [not_le] at hlt
    have hpoint := strictMono_point.monotone (Nat.le_sub_one_of_lt hlt)
    have hmid := (abs_lower_sub_le_iff (strictMono_point hlt)).1 (hk.le infinityBits)
    -- only the last finite number could be as near as infinity, but its bits are odd
    obtain rfl : k = infinityBits - 1 := strictMono_point.injective (by linarith)
    have htie : |point infinityBits - q| = |point (infinityBits - 1) - q| :=
      abs_eq_abs.2 (.inr (by linarith))
    exact absurd (hk.even infinityBits hlt.ne' htie) (by decide)

/-! ## Rounding and the grid -/

/-- Dropping binary places leaves a significand that the bits can hold. -/
theorem isNormal_div_pow (n : ℕ) : IsNormal (n.log2 - 52) (n / 2 ^ (n.log2 - 52)) := by
  constructor
  · rw [Nat.div_lt_iff_lt_mul (by positivity), ← pow_add]
    exact Nat.lt_log2_self.trans_le (Nat.pow_le_pow_right two_pos (by omega))
  · rcases Nat.eq_zero_or_pos (n.log2 - 52) with hs | hs
    · exact .inl hs
    · have hn : n ≠ 0 := by
        rintro rfl
        exact absurd hs (by decide)
      have hlog : 52 + (n.log2 - 52) = n.log2 := by omega
      rw [Nat.le_div_iff_mul_le (by positivity), ← pow_add, hlog]
      exact .inr (Nat.log2_self_le hn)

/-- A common unit: a quotient by `den` and the numbers with significands in the place `s` are
multiples of it. -/
theorem exists_unit {den : ℕ} (hden : 0 < den) (s : ℕ) : ∃ w : ℚ, 0 < w ∧
    (∀ num n : ℕ, (n : ℚ) = num * 2 ^ 1074 → (num / den : ℚ) = n * w) ∧
    ∀ c : ℕ, ((c * 2 ^ s : ℕ) : ℚ) / 2 ^ 1074 = (den * 2 ^ s * c : ℕ) * w := by
  refine ⟨1 / (den * 2 ^ 1074), by positivity, fun num n hn ↦ ?_, fun c ↦ ?_⟩
  · rw [hn]
    field_simp
  · push_cast
    field_simp

/-- **Rounding the significand rounds the number,** as long as the bits can hold the significand
that is left when the remainder is dropped. -/
theorem isNearest_roundHalfEven {num den s n d : ℕ} (hden : 0 < den)
    (hn : (n : ℚ) = num * 2 ^ 1074) (hd : d = den * 2 ^ s) (h : IsNormal s (n / d)) :
    IsNearest point (num / den) (s * 2 ^ 52 + roundHalfEven n d) := by
  obtain ⟨w, hw, hquotient, hplace⟩ := exists_unit hden s
  have hd0 : 0 < d := hd ▸ by positivity
  -- the quotient is between the significands `p` and `p + 1` in the place `s`
  obtain ⟨p, hp⟩ : ∃ p, p = n / d := ⟨_, rfl⟩
  obtain ⟨r, hr⟩ : ∃ r, r = n % d := ⟨_, rfl⟩
  obtain ⟨i, hi⟩ : ∃ i, i = s * 2 ^ 52 + p := ⟨_, rfl⟩
  have hdivision : n = d * p + r := by rw [hp, hr, Nat.div_add_mod]
  have hrd : r < d := hr ▸ Nat.mod_lt n hd0
  rw [← hp] at h
  have hq : (num / den : ℚ) = (d * p + r : ℕ) * w := by rw [hquotient num n hn, hdivision]
  have hlower : point i = (d * p : ℕ) * w := by
    rw [point, hi, h.pointUnits_eq.1, hplace, hd]
  have hupper : point (i + 1) = (d * p + d : ℕ) * w := by
    rw [point, hi, h.pointUnits_eq.2, hplace, hd, Nat.mul_succ]
  have hless : 2 * (num / den : ℚ) < point i + point (i + 1) ↔ 2 * r < d := by
    rw [hq, hlower, hupper, ← add_mul, ← mul_assoc, mul_lt_mul_iff_left₀ hw]
    norm_cast
    omega
  have hsame : 2 * (num / den : ℚ) = point i + point (i + 1) ↔ 2 * r = d := by
    rw [hq, hlower, hupper, ← add_mul, ← mul_assoc, mul_left_inj' hw.ne']
    norm_cast
    omega
  have hstep : (if 2 * r < d ∨ 2 * r = d ∧ i % 2 = 0 then i else i + 1) =
      s * 2 ^ 52 + roundHalfEven n d := by
    have heven : i % 2 = p % 2 := by omega
    rw [roundHalfEven, ← hp, ← hr, heven, hi]
    split <;> omega
  have hnearest := isNearest_of_bracket strictMono_point (q := num / den) (i := i)
    (by rw [hlower, hq]; gcongr; omega) (by rw [hupper, hq]; gcongr)
  simp only [hless, hsame, hstep] at hnearest
  exact hnearest

/-- **The nearest point to a quotient** is the one that `ofRatio` finds. -/
theorem exists_isNearest_ofRatio (num : ℕ) {den : ℕ} (hden : 0 < den) : ∃ k,
    IsNearest point (num / den) k ∧ ofRatio num den = ofMagnitude (min k infinityBits) := by
  have hcast : ∀ k, ((num * Nat.pow 2 k : ℕ) : ℚ) = num * 2 ^ k := fun k ↦ by
    rw [Nat.cast_mul, Nat.pow_eq]
    exact_mod_cast rfl
  obtain ⟨n, hn, hscaled⟩ : ∃ n : ℕ, n = num * Nat.pow 2 1074 ∧ (n : ℚ) = num * 2 ^ 1074 :=
    ⟨_, rfl, hcast 1074⟩
  obtain ⟨s, hs⟩ : ∃ s, s = (n / den).log2 - 52 := ⟨_, rfl⟩
  have hnormal : IsNormal s (n / (den * 2 ^ s)) := by
    rw [← Nat.div_div_eq_div_mul, hs]
    exact isNormal_div_pow _
  have hround : ofRatio num den =
      ofMagnitude (min (s * 2 ^ 52 + roundHalfEven n (den * 2 ^ s)) infinityBits) := by
    rw [hs, hn]
    rfl
  exact ⟨_, isNearest_roundHalfEven hden hscaled rfl hnormal, hround⟩

/-- Every nonnegative number has a nearest point. -/
theorem exists_isNearest {q : ℚ} (hq : 0 ≤ q) : ∃ k, IsNearest point q k := by
  obtain ⟨k, hk, -⟩ := exists_isNearest_ofRatio q.num.toNat q.den_pos
  have hnum : ((q.num.toNat : ℤ) : ℚ) = q.num := by
    rw [Int.toNat_of_nonneg (Rat.num_nonneg.2 hq)]
  rw [Int.cast_natCast] at hnum
  rw [hnum, Rat.num_div_den] at hk
  exact ⟨k, hk⟩

theorem point_zero : point 0 = 0 := by
  rw [point, pointUnits, Nat.zero_mod, Nat.zero_div, if_pos rfl, Nat.zero_add, Nat.zero_mul,
    Nat.cast_zero, zero_div]

theorem point_nonneg (m : ℕ) : 0 ≤ point m := point_zero.symm.le.trans
  (strictMono_point.monotone (Nat.zero_le m))

theorem value_eq_or (x : Binary64) :
    x.value = point x.magnitude ∨ x.value = -point x.magnitude := by
  cases h : x.isNegative with
  | false => exact .inl (value_of_isNegative_eq h)
  | true =>
    have habs : x.value = -(ofMagnitude x.magnitude).value := by
      rw [value, value, isNegative_ofMagnitude x.magnitude_lt, h, if_pos rfl,
        if_neg Bool.false_ne_true, one_mul, neg_one_mul, significand, significand, scale, scale,
        magnitude_ofMagnitude x.magnitude_lt]
    rw [habs, value_of_isNegative_eq (isNegative_ofMagnitude x.magnitude_lt),
      magnitude_ofMagnitude x.magnitude_lt]
    exact .inr rfl

theorem isFinite_ofMagnitude {m : ℕ} (h : m < infinityBits) : (ofMagnitude m).isFinite = true := by
  rw [isFinite, magnitude_ofMagnitude (h.trans infinityBits_lt), decide_eq_true_eq]
  exact h

theorem value_ofMagnitude {m : ℕ} (h : m < signUnit) : (ofMagnitude m).value = point m := by
  rw [value_of_isNegative_eq (isNegative_ofMagnitude h), magnitude_ofMagnitude h]

/-- Numbers with a sign are no nearer to a nonnegative number than the points. -/
theorem abs_sub_le_of_isNearest {q : ℚ} {k : ℕ} (hq : 0 ≤ q) (hk : IsNearest point q k)
    (y : Binary64) : |point k - q| ≤ |y.value - q| ∧
      (y.value ≠ point k → |y.value - q| = |point k - q| → k % 2 = 0) := by
  have hp := point_nonneg y.magnitude
  rcases y.value_eq_or with hy | hy <;> rw [hy]
  · refine ⟨hk.le _, fun hne heq ↦ hk.even y.magnitude ?_ heq⟩
    rintro rfl
    exact hne rfl
  · have hdistance : |-point y.magnitude - q| = point y.magnitude + q := by
      rw [← neg_add', abs_neg, abs_of_nonneg (add_nonneg hp hq)]
    have hzero : |point 0 - q| = q := by rw [point_zero, zero_sub, abs_neg, abs_of_nonneg hq]
    rw [hdistance]
    refine ⟨(hk.le 0).trans (by linarith), fun hne heq ↦ hk.even 0 ?_ ?_⟩
    -- as near as the nearest point, so that the number is zero
    all_goals have hle := hk.le 0
    · rintro rfl
      rw [point_zero] at hne
      exact hne (by linarith)
    · linarith

/-- The nearest point has the nearest number, or is infinite. -/
theorem roundsTo_of_isNearest {q : ℚ} {k : ℕ} (hq : 0 ≤ q) (hk : IsNearest point q k) :
    RoundsTo q (ofMagnitude (min k infinityBits)) := by
  have hbound : min k infinityBits < signUnit := (Nat.min_le_right ..).trans_lt infinityBits_lt
  have hmagnitude := magnitude_ofMagnitude hbound
  have hfinite : (ofMagnitude (min k infinityBits)).isFinite = true → min k infinityBits = k := by
    rw [isFinite, hmagnitude, decide_eq_true_eq, min_lt_iff]
    intro h
    exact Nat.min_eq_left (h.resolve_right (Nat.lt_irrefl _)).le
  refine ⟨isNegative_ofMagnitude hbound, fun h ↦ ?_, fun h ↦ ?_, fun h y _ ↦ ?_,
    fun h y _ ↦ ?_⟩
  · rw [isInfinite, hmagnitude, Nat.min_eq_right ((infinityBits_le_iff hk).2 h), decide_eq_true rfl]
  · have hlt : k < infinityBits := by
      rw [← not_le, infinityBits_le_iff hk, not_le]
      exact h
    rw [Nat.min_eq_left hlt.le]
    exact isFinite_ofMagnitude hlt
  · rw [value_ofMagnitude hbound, hfinite h]
    exact (abs_sub_le_of_isNearest hq hk y).1
  · rw [value_ofMagnitude hbound, significand_mod_two, hmagnitude, hfinite h]
    exact (abs_sub_le_of_isNearest hq hk y).2

/-- A finite number that `q` is rounded to is the nearest point. -/
theorem RoundsTo.isNearest {q : ℚ} {x : Binary64} (hq : 0 ≤ q) (h : RoundsTo q x)
    (hx : x.isFinite = true) : IsNearest point q x.magnitude := by
  obtain ⟨k, hk⟩ := exists_isNearest hq
  have hvalue := value_of_isNegative_eq h.isNegative_eq
  have hlt : k < infinityBits := by
    rw [← not_le, infinityBits_le_iff hk]
    intro hle
    have hinfinite := h.overflow hle
    rw [isInfinite, decide_eq_true_eq] at hinfinite
    rw [isFinite, decide_eq_true_eq, hinfinite] at hx
    exact Nat.lt_irrefl _ hx
  have hbits := value_ofMagnitude (hlt.trans infinityBits_lt)
  -- no point is nearer than the point with the number `k`, and that one is finite
  have hnearest : |point x.magnitude - q| = |point k - q| := by
    refine le_antisymm ?_ (hk.le _)
    rw [← hvalue, ← hbits]
    exact h.nearest hx _ (isFinite_ofMagnitude hlt)
  refine ⟨fun m ↦ hnearest.trans_le (hk.le m), fun m hm heq ↦ ?_⟩
  rcases eq_or_ne x.magnitude k with hxk | hxk
  · rw [← hxk] at hk
    exact hk.even m hm heq
  · rw [← significand_mod_two]
    refine h.even hx _ (isFinite_ofMagnitude hlt) ?_ ?_
    · rw [hvalue, hbits]
      exact strictMono_point.injective.ne hxk.symm
    · rw [hvalue, hbits]
      exact hnearest.symm

theorem RoundsTo.eq_infinity {q : ℚ} {x : Binary64} (hle : 2 ^ 1024 - 2 ^ 970 ≤ q)
    (h : RoundsTo q x) : x = ofMagnitude infinityBits := by
  have hinfinite := h.overflow hle
  rw [isInfinite, decide_eq_true_eq] at hinfinite
  rw [← hinfinite, ofMagnitude_magnitude h.isNegative_eq]

/-- **Rounding is rounding on the grid**, where all points from `2 ^ 1024` on count as infinity. -/
theorem roundsTo_iff {q : ℚ} {x : Binary64} (hq : 0 ≤ q) :
    RoundsTo q x ↔ ∃ k, IsNearest point q k ∧ x = ofMagnitude (min k infinityBits) := by
  constructor
  · intro h
    rcases lt_or_ge q (2 ^ 1024 - 2 ^ 970) with hlt | hle
    · have hfinite := h.finite hlt
      refine ⟨x.magnitude, h.isNearest hq hfinite, ?_⟩
      rw [isFinite, decide_eq_true_eq] at hfinite
      rw [Nat.min_eq_left hfinite.le, ofMagnitude_magnitude h.isNegative_eq]
    · obtain ⟨k, hk⟩ := exists_isNearest hq
      refine ⟨k, hk, ?_⟩
      rw [Nat.min_eq_right ((infinityBits_le_iff hk).2 hle), h.eq_infinity hle]
  · rintro ⟨k, hk, rfl⟩
    exact roundsTo_of_isNearest hq hk

/-! ## What rounding gives -/

/-- **Every nonnegative number can be rounded**, and a quotient is rounded by `ofRatio`. -/
theorem roundsTo_ofRatio (num : ℕ) {den : ℕ} (hden : 0 < den) :
    RoundsTo (num / den) (ofRatio num den) := by
  obtain ⟨k, hk, heq⟩ := exists_isNearest_ofRatio num hden
  rw [heq]
  exact roundsTo_of_isNearest (by positivity) hk

/-- **Rounding is monotone.** -/
theorem RoundsTo.magnitude_le {q r : ℚ} {x y : Binary64} (hq : 0 ≤ q) (hqr : q ≤ r)
    (hx : RoundsTo q x) (hy : RoundsTo r y) : x.magnitude ≤ y.magnitude := by
  obtain ⟨j, hj, rfl⟩ := (roundsTo_iff hq).1 hx
  obtain ⟨k, hk, rfl⟩ := (roundsTo_iff (hq.trans hqr)).1 hy
  have hbound : ∀ m, min m infinityBits < signUnit := fun m ↦
    (Nat.min_le_right ..).trans_lt infinityBits_lt
  rw [magnitude_ofMagnitude (hbound j), magnitude_ofMagnitude (hbound k)]
  exact min_le_min_right _ (hj.le_of_le strictMono_point hqr hk)

theorem eq_of_magnitude_eq {x y : Binary64} (hx : x.isNegative = false) (hy : y.isNegative = false)
    (h : x.magnitude = y.magnitude) : x = y := by
  rw [← ofMagnitude_magnitude hx, ← ofMagnitude_magnitude hy, h]

/-- A number is rounded to one number only. -/
theorem RoundsTo.unique {q : ℚ} {x y : Binary64} (hq : 0 ≤ q) (hx : RoundsTo q x)
    (hy : RoundsTo q y) : x = y :=
  eq_of_magnitude_eq hx.isNegative_eq hy.isNegative_eq
    (le_antisymm (hx.magnitude_le hq le_rfl hy) (hy.magnitude_le hq le_rfl hx))

/-- **What is between** two numbers that are rounded to `x` is rounded to `x`. -/
theorem RoundsTo.between {q r s : ℚ} {x : Binary64} (hq : 0 ≤ q) (hqr : q ≤ r) (hrs : r ≤ s)
    (hx : RoundsTo q x) (hx' : RoundsTo s x) : RoundsTo r x := by
  have hr := hq.trans hqr
  obtain ⟨k, hk⟩ := exists_isNearest hr
  have hy := roundsTo_of_isNearest hr hk
  obtain rfl := eq_of_magnitude_eq hx.isNegative_eq hy.isNegative_eq
    (le_antisymm (hx.magnitude_le hq hqr hy) (hy.magnitude_le hr hrs hx'))
  exact hy

/-- A finite number without a sign is rounded to itself. -/
theorem roundsTo_value {x : Binary64} (h : x.isNegative = false) (hx : x.isFinite = true) :
    RoundsTo x.value x := by
  rw [isFinite, decide_eq_true_eq] at hx
  rw [value_of_isNegative_eq h, roundsTo_iff (point_nonneg _)]
  refine ⟨x.magnitude, isNearest_self strictMono_point _, ?_⟩
  rw [Nat.min_eq_left hx.le, ofMagnitude_magnitude h]

/-- What is no nearer to the smallest positive number than to zero is rounded to zero. -/
theorem RoundsTo.eq_zero {q : ℚ} {x : Binary64} (hq : 0 ≤ q) (hle : 2 * q ≤ 1 / 2 ^ 1074)
    (h : RoundsTo q x) : x = ofMagnitude 0 := by
  have hone : point 1 = 1 / 2 ^ 1074 := by
    have hunits : pointUnits 1 = 1 := rfl
    rw [point, hunits, Nat.cast_one]
  have hzero : IsNearest point q 0 := by
    refine isNearest_lower strictMono_point ?_ ?_ fun _ ↦ rfl
    · rw [point_zero]
      exact hq
    · rw [point_zero, zero_add, zero_add, hone]
      exact hle
  exact h.unique hq (roundsTo_of_isNearest hq hzero)

/-- Zero is rounded to zero. -/
theorem RoundsTo.ne_zero {q : ℚ} {x : Binary64} (h : RoundsTo q x) (hx : x.value ≠ 0) : q ≠ 0 := by
  rintro rfl
  have hle : (2 : ℚ) * 0 ≤ 1 / 2 ^ 1074 := by
    rw [mul_zero]
    positivity
  rw [h.eq_zero le_rfl hle, value_ofMagnitude (by decide), point_zero] at hx
  exact hx rfl

/-- A rounded number is not a NaN. -/
theorem RoundsTo.isNaN_eq {q : ℚ} {x : Binary64} (hq : 0 ≤ q) (h : RoundsTo q x) :
    x.isNaN = false := by
  obtain ⟨k, -, rfl⟩ := (roundsTo_iff hq).1 h
  have hle := Nat.min_le_right k infinityBits
  rw [isNaN, magnitude_ofMagnitude (hle.trans_lt infinityBits_lt), decide_eq_false_iff_not, not_lt]
  exact hle

end Binary64
end LoxTokens
