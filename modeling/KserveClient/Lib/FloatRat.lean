import KserveClient.Lib.BinaryFloat
import Mathlib.Algebra.Order.Field.Rat
import Mathlib.Algebra.Order.Field.Basic
import Mathlib.Algebra.Order.Ring.Abs
import Mathlib.Tactic.Positivity
import Mathlib.Tactic.FieldSimp
import Mathlib.Tactic.Push

/-!
# FloatRat — floating-point patterns as rational numbers

`x.toRat` is the rational number of a finite pattern.  Two formats are compared in units of the finer
one (`abs_toRat_le_iff`), and patterns are ordered as their values are (`mag_lt_mag_iff`).
`TowardZero x y` says that `y` is the best approximation of `x` from the side of zero.

* `towardZero_of_mag`: it is enough that `x` lies between the values of `y` and of the next pattern.
* `mag_truncate`: dropping the low bits of a significand leaves it between two such values.
-/

namespace BinaryFloat

variable {f g : Format}

/-! ### The order of the patterns -/

/-- A subnormal pattern, or the first normal one. -/
theorem mag_of_le {p : ℕ} (h : p ≤ 2 ^ f.mbits) : mag f p = p := by
  rcases Nat.lt_or_eq_of_le h with h | rfl
  · exact mag_of_lt h
  · have hfirst := mag_normal (f := f) (e := 0) (Nat.two_pow_pos f.mbits)
    simpa using hfirst

/-- `mag_normal`, or the first pattern of the next exponent. -/
theorem mag_normal_of_le {e s : ℕ} (hs : s ≤ 2 ^ f.mbits) :
    mag f ((e + 1) * 2 ^ f.mbits + s) = (2 ^ f.mbits + s) * 2 ^ e := by
  rcases Nat.lt_or_eq_of_le hs with hs | rfl
  · exact mag_normal hs
  · have hnext := mag_normal (f := f) (e := e + 1) (Nat.two_pow_pos f.mbits)
    rw [show (e + 1) * 2 ^ f.mbits + 2 ^ f.mbits = (e + 1 + 1) * 2 ^ f.mbits + 0 by ring, hnext, pow_succ]
    ring

theorem mag_lt_succ (p : ℕ) : mag f p < mag f (p + 1) := by
  rcases pattern_cases (f := f) p with hp | ⟨e, s, hs, rfl⟩
  · rw [mag_of_lt hp, mag_of_le (Nat.succ_le_of_lt hp)]
    exact Nat.lt_succ_self p
  · rw [mag_normal hs, Nat.add_assoc, mag_normal_of_le (Nat.succ_le_of_lt hs)]
    exact Nat.mul_lt_mul_of_pos_right (by omega) (Nat.two_pow_pos e)

/-- **Patterns are ordered as their values.** -/
theorem mag_strictMono (f : Format) : StrictMono (mag f) :=
  strictMono_nat_of_lt_succ mag_lt_succ

theorem mag_lt_mag_iff {p q : ℕ} : mag f p < mag f q ↔ p < q := (mag_strictMono f).lt_iff_lt

theorem mag_le_mag_iff {p q : ℕ} : mag f p ≤ mag f q ↔ p ≤ q := (mag_strictMono f).le_iff_le

/-- A significand `N` at the scale `a` loses its `k` low bits. -/
theorem mag_truncate {N k e a d : ℕ} (h : e + d = a + k) :
    N / 2 ^ k * 2 ^ e * 2 ^ d ≤ N * 2 ^ a ∧ N * 2 ^ a < (N / 2 ^ k + 1) * 2 ^ e * 2 ^ d := by
  have hscale : ∀ n : ℕ, n * 2 ^ e * 2 ^ d = n * 2 ^ k * 2 ^ a := by
    intro n
    rw [mul_assoc, ← pow_add, h, pow_add]
    ring
  constructor
  · rw [hscale]
    exact Nat.mul_le_mul_right _ (Nat.div_mul_le_self N (2 ^ k))
  · rw [hscale]
    refine Nat.mul_lt_mul_of_pos_right ?_ (Nat.two_pow_pos a)
    rw [Nat.mul_comm]
    exact Nat.lt_mul_div_succ N (Nat.two_pow_pos k)

namespace Value

/-! ### Rational values -/

/-- The number of a finite pattern. -/
def toRat (x : Value f) : ℚ := (if x.neg then -1 else 1) * ((mag f x.pat : ℚ) / 2 ^ f.unit)

theorem abs_toRat (x : Value f) : |x.toRat| = (mag f x.pat : ℚ) / 2 ^ f.unit := by
  have hnonneg : (0 : ℚ) ≤ (mag f x.pat : ℚ) / 2 ^ f.unit := by positivity
  unfold toRat
  rw [abs_mul, abs_of_nonneg hnonneg]
  by_cases hneg : x.neg
  · rw [if_pos hneg, abs_neg, abs_one, one_mul]
  · rw [if_neg hneg, abs_one, one_mul]

theorem natCast_le_abs_toRat {x : Value f} {n : ℕ} :
    (n : ℚ) ≤ |x.toRat| ↔ n * 2 ^ f.unit ≤ mag f x.pat := by
  rw [abs_toRat, le_div_iff₀ (by positivity)]
  exact_mod_cast Iff.rfl

/-- Comparing magnitudes in the unit of the finer format. -/
theorem abs_toRat_le_iff {x : Value f} {y : Value g} (h : g.unit ≤ f.unit) :
    |y.toRat| ≤ |x.toRat| ↔ mag g y.pat * 2 ^ (f.unit - g.unit) ≤ mag f x.pat := by
  have hunit : (2 : ℚ) ^ f.unit = 2 ^ (f.unit - g.unit) * 2 ^ g.unit := by
    rw [← pow_add, Nat.sub_add_cancel h]
  rw [abs_toRat, abs_toRat, hunit, div_le_div_iff₀ (by positivity) (by positivity), ← mul_assoc,
    mul_le_mul_iff_of_pos_right (by positivity)]
  exact_mod_cast Iff.rfl

def IsInfinite (x : Value f) : Prop := x.pat = f.infBits

/-- No number of the format has a greater magnitude. -/
def IsLargest (x : Value f) : Prop := x.IsFinite ∧ ∀ z : Value f, z.IsFinite → |z.toRat| ≤ |x.toRat|

/-- `y` has the sign of `x`, and the greatest magnitude of its format that does not exceed that of `x`. -/
structure TowardZero (x : Value f) (y : Value g) : Prop where
  finite : y.IsFinite
  sign : y.neg = x.neg
  le : |y.toRat| ≤ |x.toRat|
  greatest : ∀ z : Value g, z.IsFinite → |z.toRat| ≤ |x.toRat| → |z.toRat| ≤ |y.toRat|

/-- **Between two neighbours** the lower one is the best approximation from the side of zero. -/
theorem towardZero_of_mag {x : Value f} {y : Value g} (hunit : g.unit ≤ f.unit) (hfin : y.IsFinite)
    (hsign : y.neg = x.neg) (hle : mag g y.pat * 2 ^ (f.unit - g.unit) ≤ mag f x.pat)
    (hlt : mag f x.pat < mag g (y.pat + 1) * 2 ^ (f.unit - g.unit)) : TowardZero x y where
  finite := hfin
  sign := hsign
  le := (abs_toRat_le_iff hunit).mpr hle
  greatest z _ hz := by
    have hbelow := ((abs_toRat_le_iff hunit).mp hz).trans_lt hlt
    have hpat := mag_lt_mag_iff.mp (Nat.lt_of_mul_lt_mul_right hbelow)
    rw [abs_toRat_le_iff le_rfl, Nat.sub_self, pow_zero, Nat.mul_one, mag_le_mag_iff]
    exact Nat.le_of_lt_succ hpat

end Value

end BinaryFloat
