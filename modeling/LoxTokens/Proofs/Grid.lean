import LoxTokens.Number.Binary64
import Mathlib.Algebra.Order.Field.Rat
import Mathlib.Order.Monotone.Basic
import Mathlib.Tactic.Linarith
import Mathlib.Tactic.NormNum
import Mathlib.Tactic.Positivity
import Mathlib.Tactic.Ring

/-!
# Nearest points of a grid

A number is rounded to the nearest point of a grid: an increasing sequence of numbers, counted from
zero.  If two points are equally near, the one with the even place is taken.

* `IsNearest g q k` — the point with number `k` is the one to which `q` is rounded.
* `IsNearest.le_of_le` — rounding is monotone, so that there is only one such point.
* `isNearest_of_bracket` — of the two neighbours of `q`, the sum decides.
* `Binary64.point m` — the grid of the binary64 numbers: the number that has the bits `m`, where the
  exponent may grow beyond what eleven bits can hold.  `pointUnits_eq` gives it by a significand and
  a place, and `strictMono_point` says that the bits grow with the number.
-/

set_option autoImplicit false

namespace LoxTokens

/-! ## Grids -/

/-- The point with number `k` is the nearest to `q`, and its number is even if another is as
near. -/
structure IsNearest (g : ℕ → ℚ) (q : ℚ) (k : ℕ) : Prop where
  le : ∀ m, |g k - q| ≤ |g m - q|
  even : ∀ m, m ≠ k → |g m - q| = |g k - q| → k % 2 = 0

/-- Of two numbers, the larger is the nearer one if and only if `q` is beyond their middle. -/
theorem abs_upper_sub_le_iff {a b q : ℚ} (h : a < b) : |b - q| ≤ |a - q| ↔ a + b ≤ 2 * q := by
  rw [← sq_le_sq]
  constructor
  · intro hsq
    by_contra hlt
    nlinarith
  · intro hmid
    nlinarith

theorem abs_lower_sub_le_iff {a b q : ℚ} (h : a < b) : |a - q| ≤ |b - q| ↔ 2 * q ≤ a + b := by
  have hmirrored := abs_upper_sub_le_iff (q := -q) (neg_lt_neg h)
  rw [neg_sub_neg, neg_sub_neg, abs_sub_comm q, abs_sub_comm q] at hmirrored
  rw [hmirrored, ← neg_add, mul_neg, neg_le_neg_iff, add_comm b]

section

variable {g : ℕ → ℚ} {q r : ℚ} {j k : ℕ}

/-- **Rounding is monotone.** -/
theorem IsNearest.le_of_le (hg : StrictMono g) (hqr : q ≤ r) (hj : IsNearest g q j)
    (hk : IsNearest g r k) : j ≤ k := by
  by_contra hlt
  rw [not_le] at hlt
  have hgkj := hg hlt
  have hbeyond := (abs_upper_sub_le_iff hgkj).1 (hj.le k)
  have hbelow := (abs_lower_sub_le_iff hgkj).1 (hk.le j)
  -- both lie in the middle of the two points, which are then as near, and not neighbours
  have hmiddle : g k + g j = 2 * q := by linarith
  obtain rfl : q = r := by linarith
  have hsame : |g k - q| = |g j - q| :=
    le_antisymm (hk.le j) (hj.le k)
  have hj2 := hj.even k hlt.ne hsame
  have hk2 := hk.even j hlt.ne' hsame.symm
  have hinner : g k < g (k + 1) := hg (Nat.lt_succ_self k)
  have hinner' : g (k + 1) < g j := hg (by omega)
  have hnearer := (abs_upper_sub_le_iff hinner').1 (hj.le (k + 1))
  linarith

theorem isNearest_lower (hg : StrictMono g) {i : ℕ} (hlower : g i ≤ q)
    (hmid : 2 * q ≤ g i + g (i + 1)) (heven : 2 * q = g i + g (i + 1) → i % 2 = 0) :
    IsNearest g q i := by
  refine ⟨fun m ↦ ?_, fun m hm heq ↦ ?_⟩
  · rcases lt_trichotomy m i with hm | rfl | hm
    · have hlt := hg hm
      exact (abs_upper_sub_le_iff hlt).2 (by linarith)
    · exact le_rfl
    · have hle := hg.monotone (Nat.succ_le_of_lt hm)
      exact (abs_lower_sub_le_iff (hg hm)).2 (by linarith)
  · rcases lt_or_gt_of_ne hm with hm | hm
    · have hlt := hg hm
      have hbelow := (abs_lower_sub_le_iff hlt).1 heq.le
      linarith
    · have hle := hg.monotone (Nat.succ_le_of_lt hm)
      have habove := (abs_upper_sub_le_iff (hg hm)).1 heq.le
      exact heven (by linarith)

theorem isNearest_upper (hg : StrictMono g) {i : ℕ} (hupper : q ≤ g (i + 1))
    (hmid : g i + g (i + 1) ≤ 2 * q) (hodd : 2 * q = g i + g (i + 1) → i % 2 = 1) :
    IsNearest g q (i + 1) := by
  refine ⟨fun m ↦ ?_, fun m hm heq ↦ ?_⟩
  · rcases lt_trichotomy m (i + 1) with hm | rfl | hm
    · have hle := hg.monotone (Nat.le_of_lt_succ hm)
      exact (abs_upper_sub_le_iff (hg hm)).2 (by linarith)
    · exact le_rfl
    · have hlt := hg hm
      exact (abs_lower_sub_le_iff hlt).2 (by linarith)
  · rcases lt_or_gt_of_ne hm with hm | hm
    · have hle := hg.monotone (Nat.le_of_lt_succ hm)
      have hbelow := (abs_lower_sub_le_iff (hg hm)).1 heq.le
      have hi := hodd (by linarith)
      omega
    · have hlt := hg hm
      have habove := (abs_upper_sub_le_iff hlt).1 heq.le
      linarith

/-- **The neighbours decide.**  The nearest point is one of the two around `q`, whichever is on the
same side of their middle, or the even one if `q` is in the middle. -/
theorem isNearest_of_bracket (hg : StrictMono g) {i : ℕ} (hlower : g i ≤ q)
    (hupper : q ≤ g (i + 1)) : IsNearest g q
      (if 2 * q < g i + g (i + 1) ∨ 2 * q = g i + g (i + 1) ∧ i % 2 = 0 then i else i + 1) := by
  split
  · next h =>
    have hmid : 2 * q ≤ g i + g (i + 1) := h.elim le_of_lt fun h ↦ h.1.le
    exact isNearest_lower hg hlower hmid fun heq ↦ (h.resolve_left heq.not_lt).2
  · next h =>
    rw [not_or, not_lt, not_and] at h
    exact isNearest_upper hg hupper h.1 fun heq ↦ Nat.mod_two_ne_zero.1 (h.2 heq)

/-- A point is nearest to itself. -/
theorem isNearest_self (hg : StrictMono g) (k : ℕ) : IsNearest g (g k) k := by
  refine ⟨fun m ↦ ?_, fun m hm heq ↦ ?_⟩
  · rw [sub_self, abs_zero]
    exact abs_nonneg _
  · rw [sub_self, abs_zero, abs_eq_zero, sub_eq_zero] at heq
    exact absurd (hg.injective heq) hm

end

/-! ## The grid of the binary64 numbers -/

namespace Binary64

/-- The number with the bits `m`, as a multiple of `2 ^ (-1074)`. -/
def pointUnits (m : ℕ) : ℕ :=
  (m % exponentUnit + if m / exponentUnit = 0 then 0 else exponentUnit) *
    2 ^ (m / exponentUnit - 1)

/-- The number with the bits `m`. -/
def point (m : ℕ) : ℚ := pointUnits m / 2 ^ 1074

/-- The significand `p` in the place `s` is one that the bits of a number can hold: it has no more
than fifty-three binary digits, and no fewer unless the place is the last. -/
def IsNormal (s p : ℕ) : Prop := p < 2 ^ 53 ∧ (s = 0 ∨ 2 ^ 52 ≤ p)

theorem exists_isNormal (m : ℕ) : ∃ s p, m = s * 2 ^ 52 + p ∧ IsNormal s p := by
  refine ⟨m / 2 ^ 52 - 1, m - (m / 2 ^ 52 - 1) * 2 ^ 52, ?_, ?_, ?_⟩ <;> omega

/-- The number with a given significand in a given place.  One more than the largest significand is
all right too, since it carries into the exponent. -/
theorem pointUnits_eq {s p : ℕ} (hp : p ≤ 2 ^ 53) (hs : s = 0 ∨ 2 ^ 52 ≤ p) :
    pointUnits (s * 2 ^ 52 + p) = p * 2 ^ s := by
  have hunit : exponentUnit = 2 ^ 52 := rfl
  rw [pointUnits, hunit]
  rcases Nat.lt_trichotomy p (2 ^ 52) with hlt | rfl | hgt
  · obtain rfl : s = 0 := by omega
    have hdiv : (0 * 2 ^ 52 + p) / 2 ^ 52 = 0 := by omega
    have hmod : (0 * 2 ^ 52 + p) % 2 ^ 52 = p := by omega
    rw [hdiv, hmod, if_pos rfl, Nat.add_zero]
  · have hdiv : (s * 2 ^ 52 + 2 ^ 52) / 2 ^ 52 = s + 1 := by omega
    have hmod : (s * 2 ^ 52 + 2 ^ 52) % 2 ^ 52 = 0 := by omega
    rw [hdiv, hmod, if_neg (Nat.succ_ne_zero s), Nat.zero_add, Nat.add_sub_cancel]
  · rcases Nat.lt_or_eq_of_le hp with hlt | rfl
    · have hdiv : (s * 2 ^ 52 + p) / 2 ^ 52 = s + 1 := by omega
      have hmod : (s * 2 ^ 52 + p) % 2 ^ 52 = p - 2 ^ 52 := by omega
      rw [hdiv, hmod, if_neg (Nat.succ_ne_zero s), Nat.sub_add_cancel hgt.le, Nat.add_sub_cancel]
    · have hdiv : (s * 2 ^ 52 + 2 ^ 53) / 2 ^ 52 = s + 2 := by omega
      have hmod : (s * 2 ^ 52 + 2 ^ 53) % 2 ^ 52 = 0 := by omega
      have hcarry : s + 2 - 1 = s + 1 := rfl
      rw [hdiv, hmod, if_neg (Nat.succ_ne_zero _), Nat.zero_add, hcarry]
      ring

theorem IsNormal.pointUnits_eq {s p : ℕ} (h : IsNormal s p) :
    pointUnits (s * 2 ^ 52 + p) = p * 2 ^ s ∧
      pointUnits (s * 2 ^ 52 + p + 1) = (p + 1) * 2 ^ s := by
  refine ⟨Binary64.pointUnits_eq h.1.le h.2, ?_⟩
  rw [Nat.add_assoc]
  exact Binary64.pointUnits_eq (Nat.succ_le_of_lt h.1) (h.2.imp_right Nat.le_succ_of_le)

/-- **The bits grow with the number.** -/
theorem strictMono_point : StrictMono point := by
  refine strictMono_nat_of_lt_succ fun m ↦ ?_
  obtain ⟨s, p, rfl, h⟩ := exists_isNormal m
  have hlt : p * 2 ^ s < (p + 1) * 2 ^ s :=
    Nat.mul_lt_mul_of_pos_right (Nat.lt_succ_self p) (by positivity)
  rw [point, point, h.pointUnits_eq.1, h.pointUnits_eq.2]
  exact div_lt_div_of_pos_right (by exact_mod_cast hlt) (by positivity)

end Binary64
end LoxTokens
