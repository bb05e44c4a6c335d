import KserveClient.Retry
import Mathlib.Algebra.Order.Floor.Ring

/-!
# KserveClient.Backoff — the backoff schedule

* `expDelay` is the exponential term under the cap, `spread` the interval that the jitter draws from.
  `backoffDelayMs_eq` writes the delay as the rounding of `spread` under the cap.
* The delay is a composition of monotone maps: the power, the cap, the clamp of the unit, the product
  with a factor that is not negative, the second clamp and `lround`.
* `backoffDelayMs_schedule` puts the bounds, the band and the monotonicity together.
-/

namespace KserveClient

/-! ### `std::clamp` and `std::lround` -/

section Rounding

variable {lo hi v w : ℚ}

theorem clamp_of_mem (hlo : lo ≤ v) (hhi : v ≤ hi) : clamp v lo hi = v := by
  unfold clamp
  rw [if_neg (not_lt.mpr hlo), if_neg (not_lt.mpr hhi)]

theorem clamp_of_le (h : v ≤ lo) (hlh : lo ≤ hi) : clamp v lo hi = lo := by
  rcases h.lt_or_eq with hlt | rfl
  · exact if_pos hlt
  · exact clamp_of_mem le_rfl hlh

theorem clamp_of_ge (h : hi ≤ v) (hlh : lo ≤ hi) : clamp v lo hi = hi := by
  rcases h.lt_or_eq with hlt | rfl
  · unfold clamp
    rw [if_neg (not_lt.mpr (hlh.trans h)), if_pos hlt]
  · exact clamp_of_mem hlh le_rfl

theorem clamp_eq_min (hlo : lo ≤ v) (hlh : lo ≤ hi) : clamp v lo hi = min v hi := by
  rcases le_total v hi with h | h
  · rw [clamp_of_mem hlo h, min_eq_left h]
  · rw [clamp_of_ge h hlh, min_eq_right h]

theorem clamp_mono (hlh : lo ≤ hi) (h : v ≤ w) : clamp v lo hi ≤ clamp w lo hi := by
  by_cases hv : v ≤ lo
  · rw [clamp_of_le hv hlh]
    by_cases hw : w ≤ lo
    · rw [clamp_of_le hw hlh]
    · rw [clamp_eq_min (le_of_not_ge hw) hlh]
      exact le_min (le_of_not_ge hw) hlh
  · have hlo := le_of_not_ge hv
    rw [clamp_eq_min hlo hlh, clamp_eq_min (hlo.trans h) hlh]
    exact min_le_min_right hi h

theorem le_clamp (hlh : lo ≤ hi) : lo ≤ clamp v lo hi := by
  calc lo = clamp (min v lo) lo hi := (clamp_of_le (min_le_right v lo) hlh).symm
    _ ≤ clamp v lo hi := clamp_mono hlh (min_le_left v lo)

theorem clamp_le (hlh : lo ≤ hi) : clamp v lo hi ≤ hi := by
  calc clamp v lo hi ≤ clamp (max v hi) lo hi := clamp_mono hlh (le_max_left v hi)
    _ = hi := clamp_of_ge (le_max_right v hi) hlh

theorem lround_intCast (n : ℤ) : lround n = n := by
  have hhalf : ∀ m : ℤ, ⌊(m : ℚ) + 1 / 2⌋ = m := by
    intro m
    rw [Int.floor_intCast_add]
    norm_num
  unfold lround
  split_ifs with h
  · exact hhalf n
  · rw [← Int.cast_neg, hhalf, neg_neg]

theorem lround_mono (h : v ≤ w) : lround v ≤ lround w := by
  unfold lround
  split_ifs with hv hw hw
  · exact Int.floor_le_floor (by linarith)
  · exact absurd (hv.trans h) hw
  · -- the two sides are separated by zero
    have hneg : 0 ≤ ⌊-v + 1 / 2⌋ := Int.floor_nonneg.mpr (by linarith)
    have hpos : 0 ≤ ⌊w + 1 / 2⌋ := Int.floor_nonneg.mpr (by linarith)
    omega
  · exact neg_le_neg (Int.floor_le_floor (by linarith))

end Rounding

/-! ### The schedule -/

section Schedule

variable {policy : RetryPolicy} {a b : ℤ} {u v : ℚ}

/-- The exponential term, under the cap. -/
def expDelay (policy : RetryPolicy) (attempt : ℤ) : ℤ :=
  min (policy.baseDelayMs * 2 ^ (attempt - 1).toNat) policy.maxDelayMs

/-- The exponential term with jitter, before the second cap. -/
def spread (policy : RetryPolicy) (attempt : ℤ) (randUnit : ℚ) : ℚ :=
  expDelay policy attempt * (1 - policy.jitter + clamp randUnit 0 1 * 2 * policy.jitter)

theorem backoffDelayMs_eq (ha : 1 ≤ a) :
    backoffDelayMs policy a u = lround (clamp (spread policy a u) 0 policy.maxDelayMs) := by
  unfold backoffDelayMs spread expDelay
  rw [if_neg (by omega)]
  push_cast
  rfl

theorem expDelay_mono (hbase : 0 < policy.baseDelayMs) (hab : a ≤ b) :
    expDelay policy a ≤ expDelay policy b := by
  have hpow : (2 : ℤ) ^ (a - 1).toNat ≤ 2 ^ (b - 1).toNat :=
    pow_le_pow_right₀ one_le_two (by omega)
  exact min_le_min_right _ (mul_le_mul_of_nonneg_left hpow hbase.le)

theorem expDelay_pos (hbase : 0 < policy.baseDelayMs) (hmax : 0 < policy.maxDelayMs) :
    0 < expDelay policy a :=
  lt_min (mul_pos hbase (pow_pos two_pos _)) hmax

theorem expDelay_le : expDelay policy a ≤ policy.maxDelayMs :=
  min_le_right _ _

variable (hbase : 0 < policy.baseDelayMs) (hmax : 0 < policy.maxDelayMs)
  (hj0 : 0 ≤ policy.jitter) (hj1 : policy.jitter ≤ 1)

include hj0 in
/-- The jitter factor lies in the band around `1`. -/
theorem factor_mem (u : ℚ) :
    1 - policy.jitter ≤ 1 - policy.jitter + clamp u 0 1 * 2 * policy.jitter ∧
    1 - policy.jitter + clamp u 0 1 * 2 * policy.jitter ≤ 1 + policy.jitter := by
  have h0 : 0 ≤ clamp u 0 1 * policy.jitter := mul_nonneg (le_clamp zero_le_one) hj0
  have h1 : clamp u 0 1 * policy.jitter ≤ 1 * policy.jitter :=
    mul_le_mul_of_nonneg_right (clamp_le zero_le_one) hj0
  constructor <;> linarith

include hbase hj0 hj1 in
theorem spread_le_attempt (hab : a ≤ b) : spread policy a u ≤ spread policy b u := by
  have hexp : (expDelay policy a : ℚ) ≤ expDelay policy b := by
    exact_mod_cast expDelay_mono hbase hab
  have hfactor := (factor_mem hj0 u).1
  exact mul_le_mul_of_nonneg_right hexp (by linarith)

include hbase hmax hj0 in
theorem spread_le_unit (huv : u ≤ v) : spread policy a u ≤ spread policy a v := by
  have hexp : (0 : ℚ) ≤ expDelay policy a := by exact_mod_cast (expDelay_pos hbase hmax).le
  have hunit : clamp u 0 1 * policy.jitter ≤ clamp v 0 1 * policy.jitter :=
    mul_le_mul_of_nonneg_right (clamp_mono zero_le_one huv) hj0
  exact mul_le_mul_of_nonneg_left (by linarith) hexp

include hbase hmax hj0 in
theorem spread_mem (a : ℤ) (u : ℚ) :
    (1 - policy.jitter) * expDelay policy a ≤ spread policy a u ∧
    spread policy a u ≤ (1 + policy.jitter) * expDelay policy a := by
  have hexp : (0 : ℚ) ≤ expDelay policy a := by exact_mod_cast (expDelay_pos hbase hmax).le
  obtain ⟨hlow, hhigh⟩ := factor_mem hj0 u
  unfold spread
  rw [mul_comm (1 - policy.jitter), mul_comm (1 + policy.jitter)]
  exact ⟨mul_le_mul_of_nonneg_left hlow hexp, mul_le_mul_of_nonneg_left hhigh hexp⟩

include hbase hmax hj0 hj1

/-- The second clamp only caps: the term with jitter is never negative. -/
theorem backoffDelayMs_eq_min (ha : 1 ≤ a) :
    backoffDelayMs policy a u = lround (min (spread policy a u) policy.maxDelayMs) := by
  have hexp : (0 : ℚ) ≤ expDelay policy a := by exact_mod_cast (expDelay_pos hbase hmax).le
  have hlow := (spread_mem hbase hmax hj0 a u).1
  have hnonneg : 0 ≤ (1 - policy.jitter) * expDelay policy a := mul_nonneg (by linarith) hexp
  rw [backoffDelayMs_eq ha, clamp_eq_min (hnonneg.trans hlow) (by exact_mod_cast hmax.le)]

theorem backoffDelayMs_mono_attempt (ha : 1 ≤ a) (hab : a ≤ b) :
    backoffDelayMs policy a u ≤ backoffDelayMs policy b u := by
  rw [backoffDelayMs_eq_min hbase hmax hj0 hj1 ha, backoffDelayMs_eq_min hbase hmax hj0 hj1 (ha.trans hab)]
  exact lround_mono (min_le_min_right _ (spread_le_attempt hbase hj0 hj1 hab))

theorem backoffDelayMs_mono_unit (ha : 1 ≤ a) (huv : u ≤ v) :
    backoffDelayMs policy a u ≤ backoffDelayMs policy a v := by
  rw [backoffDelayMs_eq_min hbase hmax hj0 hj1 ha, backoffDelayMs_eq_min hbase hmax hj0 hj1 ha]
  exact lround_mono (min_le_min_right _ (spread_le_unit hbase hmax hj0 huv))

omit hbase hj0 hj1 in
/-- The delay lies between `0` and the cap. -/
theorem backoffDelayMs_mem (ha : 1 ≤ a) :
    0 ≤ backoffDelayMs policy a u ∧ backoffDelayMs policy a u ≤ policy.maxDelayMs := by
  have hmaxq : (0 : ℚ) ≤ policy.maxDelayMs := by exact_mod_cast hmax.le
  rw [backoffDelayMs_eq ha]
  constructor
  · calc (0 : ℤ) = lround (0 : ℤ) := (lround_intCast 0).symm
      _ ≤ lround (clamp (spread policy a u) 0 policy.maxDelayMs) :=
        lround_mono (by exact_mod_cast le_clamp hmaxq)
  · calc lround (clamp (spread policy a u) 0 policy.maxDelayMs)
        ≤ lround (policy.maxDelayMs : ℚ) := lround_mono (clamp_le hmaxq)
      _ = policy.maxDelayMs := lround_intCast _

/-- The delay lies in the jitter band of the exponential term. -/
theorem backoffDelayMs_band (ha : 1 ≤ a) :
    lround ((1 - policy.jitter) * expDelay policy a) ≤ backoffDelayMs policy a u ∧
      backoffDelayMs policy a u
        ≤ lround (min ((1 + policy.jitter) * expDelay policy a) policy.maxDelayMs) := by
  have hexp : (0 : ℚ) ≤ expDelay policy a := by exact_mod_cast (expDelay_pos hbase hmax).le
  have hcap : (expDelay policy a : ℚ) ≤ policy.maxDelayMs := by exact_mod_cast expDelay_le
  obtain ⟨hlow, hhigh⟩ := spread_mem hbase hmax hj0 a u
  have hlow' : (1 - policy.jitter) * expDelay policy a ≤ policy.maxDelayMs := by
    calc (1 - policy.jitter) * expDelay policy a
        ≤ 1 * expDelay policy a := mul_le_mul_of_nonneg_right (by linarith) hexp
      _ ≤ policy.maxDelayMs := by rwa [one_mul]
  rw [backoffDelayMs_eq_min hbase hmax hj0 hj1 ha]
  exact ⟨lround_mono (le_min hlow hlow'), lround_mono (min_le_min_right _ hhigh)⟩

/-- The middle of the band is the exponential term. -/
theorem backoffDelayMs_middle (ha : 1 ≤ a) : backoffDelayMs policy a (1 / 2) = expDelay policy a := by
  have hcap : (expDelay policy a : ℚ) ≤ policy.maxDelayMs := by exact_mod_cast expDelay_le
  have hmid : spread policy a (1 / 2) = expDelay policy a := by
    unfold spread
    rw [clamp_of_mem (by norm_num) (by norm_num)]
    ring
  rw [backoffDelayMs_eq_min hbase hmax hj0 hj1 ha, hmid, min_eq_left hcap, lround_intCast]

omit hbase hmax hj0 hj1 in
/-- Only the clamped random unit counts. -/
theorem backoffDelayMs_clamp (ha : 1 ≤ a) (h : clamp u 0 1 = clamp v 0 1) :
    backoffDelayMs policy a u = backoffDelayMs policy a v := by
  rw [backoffDelayMs_eq ha, backoffDelayMs_eq ha]
  unfold spread
  rw [h]

/-- **The backoff schedule** is monotone in the attempt and in the random unit, lies between `0` and
the cap and inside the jitter band of the exponential term, is that term at the middle of the band, and
takes a unit outside `[0, 1]` for the nearest bound. -/
theorem backoffDelayMs_schedule (ha : 1 ≤ a) (hab : a ≤ b) (huv : u ≤ v) :
    backoffDelayMs policy a u ≤ backoffDelayMs policy b u ∧
    backoffDelayMs policy a u ≤ backoffDelayMs policy a v ∧
    0 ≤ backoffDelayMs policy a u ∧ backoffDelayMs policy a u ≤ policy.maxDelayMs ∧
    (lround ((1 - policy.jitter) * expDelay policy a) ≤ backoffDelayMs policy a u ∧
      backoffDelayMs policy a u
        ≤ lround (min ((1 + policy.jitter) * expDelay policy a) policy.maxDelayMs) ∧
      backoffDelayMs policy a (1 / 2) = expDelay policy a) ∧
    (u ≤ 0 → backoffDelayMs policy a u = backoffDelayMs policy a 0) ∧
    (1 ≤ u → backoffDelayMs policy a u = backoffDelayMs policy a 1) := by
  refine ⟨backoffDelayMs_mono_attempt hbase hmax hj0 hj1 ha hab,
    backoffDelayMs_mono_unit hbase hmax hj0 hj1 ha huv, (backoffDelayMs_mem hmax ha).1,
    (backoffDelayMs_mem hmax ha).2, ⟨?_, ?_, ?_⟩, fun hu => ?_, fun hu => ?_⟩
  · exact (backoffDelayMs_band hbase hmax hj0 hj1 ha).1
  · exact (backoffDelayMs_band hbase hmax hj0 hj1 ha).2
  · exact backoffDelayMs_middle hbase hmax hj0 hj1 ha
  · apply backoffDelayMs_clamp ha
    rw [clamp_of_le hu zero_le_one, clamp_of_le le_rfl zero_le_one]
  · apply backoffDelayMs_clamp ha
    rw [clamp_of_ge hu zero_le_one, clamp_of_ge le_rfl zero_le_one]

end Schedule

theorem backoffDelayMs_schedule_default :
    backoffDelayMs {} 2 (1 / 4) ≤ backoffDelayMs {} 5 (1 / 4) ∧
    backoffDelayMs {} 2 (1 / 4) ≤ backoffDelayMs {} 2 1 :=
  have h := @backoffDelayMs_schedule {} 2 5 (1 / 4) 1 (by decide) (by decide) (by norm_num)
    (by norm_num) (by decide) (by decide) (by norm_num)
  ⟨h.1, h.2.1⟩

end KserveClient
