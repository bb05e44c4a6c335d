import KserveClient.Half
import KserveClient.Lib.FloatRat

/-!
# KserveClient.HalfNarrowing — narrowing a `float` to a half, as numbers

`floatToHalf` is compared with rounding toward zero of the rational number of a pattern (`Narrowed`).

* `floatToHalf_towardZero`: below `65536` the half is the best approximation from the side of zero.
* `floatToHalf_isNaN_iff`: which patterns become NaNs.
* `floatToHalf_narrowed_iff`: only a number of at least `65536` that is no power of two is narrowed
  wrongly, to a NaN.
* `halfToFloat_exact`: widening keeps every number.
-/

namespace KserveClient

open BinaryFloat

/-- The half with the given bits. -/
def halfValue (h : UInt16) : Value binary16 := .ofBits binary16 h.toNat

/-- What rounding toward zero makes of `x`, past the largest half as well. -/
structure Narrowed (x : F32) (y : Value binary16) : Prop where
  small : x.IsFinite → |x.toRat| < 65536 → Value.TowardZero x y
  large : x.IsFinite → 65536 ≤ |x.toRat| → y.neg = x.neg ∧ (y.IsLargest ∨ y.IsInfinite)
  infinite : x.IsInfinite → y.neg = x.neg ∧ y.IsInfinite
  nan : y.IsNaN ↔ x.IsNaN

/-! ### The fields of the half -/

theorem narrowPat_lt {X m : ℕ} (hX : X < 2 ^ 8) (hm : m < 2 ^ 23) : narrowPat X m < 2 ^ 15 := by
  unfold narrowPat
  split_ifs with hlarge h0 hsmall hzero
  · omega
  · omega
  · omega
  · have hle := Nat.div_le_div_left (Nat.pow_le_pow_right (n := 2) (by omega) (by omega : 14 ≤ 126 - X))
      (by omega) (a := 2 ^ 23 + m)
    omega
  · omega

/-- **`floatToHalf` keeps the sign, and `narrowPat` is its pattern.** -/
theorem halfValue_floatToHalf (x : F32) :
    (halfValue (floatToHalf x)).neg = x.neg ∧
      (halfValue (floatToHalf x)).pat = narrowPat (x.pat / 2 ^ 23) (x.pat % 2 ^ 23) := by
  have hlt : x.pat < 2 ^ 31 := x.pat_lt.trans_eq (by decide)
  have hbits : x.toBits = (if x.neg then 2 ^ 31 else 0) + x.pat := rfl
  have hpat := narrowPat_lt (X := x.pat / 2 ^ 23) (m := x.pat % 2 ^ 23) (by omega) (by omega)
  have hfields := floatToHalf_fields x
  rw [hbits] at hfields
  show ((floatToHalf x).toNat / 2 ^ 15 % 2 == 1) = x.neg ∧ (floatToHalf x).toNat % 2 ^ 15 = _
  rw [hfields]
  by_cases hneg : x.neg
  · rw [if_pos hneg, hneg, show (2 ^ 31 + x.pat) / 2 ^ 31 = 1 by omega,
      show (2 ^ 31 + x.pat) / 2 ^ 23 % 2 ^ 8 = x.pat / 2 ^ 23 by omega,
      show (2 ^ 31 + x.pat) % 2 ^ 23 = x.pat % 2 ^ 23 by omega]
    refine ⟨?_, by omega⟩
    rw [beq_iff_eq]
    omega
  · rw [if_neg hneg, Bool.eq_false_iff.mpr hneg, Nat.zero_add, show x.pat / 2 ^ 31 = 0 by omega,
      show x.pat / 2 ^ 23 % 2 ^ 8 = x.pat / 2 ^ 23 by omega]
    refine ⟨?_, by omega⟩
    rw [beq_eq_false_iff_ne]
    omega

/-! ### Numbers below `65536` -/

/-- The value of a normal `float`. -/
theorem mag_float {X m : ℕ} (hX : 0 < X) (hm : m < 2 ^ 23) :
    mag binary32 (X * 2 ^ 23 + m) = (2 ^ 23 + m) * 2 ^ (X - 1) := by
  have hnormal := mag_normal (f := binary32) (e := X - 1) hm
  rwa [Nat.sub_add_cancel hX] at hnormal

/-- **Between two halves**: the number with fields `X` and `m`, in units of `2 ^ (-149)`. -/
theorem narrowPat_between {X m : ℕ} (hX : X < 143) (hm : m < 2 ^ 23) :
    mag binary16 (narrowPat X m) * 2 ^ 125 ≤ mag binary32 (X * 2 ^ 23 + m) ∧
      mag binary32 (X * 2 ^ 23 + m) < mag binary16 (narrowPat X m + 1) * 2 ^ 125 := by
  unfold narrowPat
  rw [if_neg (Nat.not_le.mpr hX)]
  by_cases hsub : X ≤ 112
  · rw [if_pos hsub]
    by_cases hzero : X < 102
    · -- below half of the smallest half
      have hsmall : mag binary32 (X * 2 ^ 23 + m) < 2 ^ (23 + 101) :=
        (lt_iff_mag_lt (f := binary32) (e := 101)).mp (show _ < (101 + 1) * 2 ^ 23 by omega)
      rw [if_pos hzero, mag_of_lt (f := binary16) (by decide), mag_of_lt (f := binary16) (by decide)]
      omega
    · rw [if_neg hzero]
      have hq : (2 ^ 23 + m) / 2 ^ (126 - X) < 2 ^ 10 := by
        have hpow : 2 ^ 14 ≤ 2 ^ (126 - X) := Nat.pow_le_pow_right (by omega) (by omega)
        rw [Nat.div_lt_iff_lt_mul (Nat.two_pow_pos _)]
        omega
      have hcut := mag_truncate (N := 2 ^ 23 + m) (k := 126 - X) (e := 0) (a := X - 1) (d := 125) (by omega)
      rw [pow_zero, Nat.mul_one, Nat.mul_one] at hcut
      rwa [mag_float (by omega) hm, mag_of_lt (f := binary16) hq, mag_of_le (f := binary16) hq]
  · rw [if_neg hsub]
    have hexp : X - 112 = X - 113 + 1 := by omega
    have hs : m / 2 ^ 13 < 2 ^ 10 := by omega
    have hq : (2 ^ 23 + m) / 2 ^ 13 = 2 ^ 10 + m / 2 ^ 13 := by omega
    have hcut := mag_truncate (N := 2 ^ 23 + m) (k := 13) (e := X - 113) (a := X - 1) (d := 125) (by omega)
    have hthis : mag binary16 ((X - 113 + 1) * 2 ^ 10 + m / 2 ^ 13)
        = (2 ^ 10 + m / 2 ^ 13) * 2 ^ (X - 113) := mag_normal hs
    have hnext : mag binary16 ((X - 113 + 1) * 2 ^ 10 + (m / 2 ^ 13 + 1))
        = (2 ^ 10 + (m / 2 ^ 13 + 1)) * 2 ^ (X - 113) := mag_normal_of_le hs
    rw [hq] at hcut
    rw [mag_float (by omega) hm, hexp, hthis, Nat.add_assoc, hnext]
    exact hcut

/-- Below `65536` the pattern stays among the numbers. -/
theorem narrowPat_finite {X m : ℕ} (hX : X < 143) (hm : m < 2 ^ 23) :
    narrowPat X m < binary16.infBits := by
  have hlt : mag binary32 (X * 2 ^ 23 + m) < 2 ^ (23 + 142) :=
    (lt_iff_mag_lt (f := binary32) (e := 142)).mp (show _ < (142 + 1) * 2 ^ 23 by omega)
  have hle := (narrowPat_between hX hm).1.trans_lt hlt
  rw [show 2 ^ (23 + 142) = 2 ^ (10 + 30) * 2 ^ 125 by norm_num] at hle
  exact lt_infBits_iff.mpr (Nat.lt_of_mul_lt_mul_right hle)

/-- The numbers of at least `65536` are those with an exponent field from 143 on. -/
theorem large_iff (x : F32) : 65536 ≤ |x.toRat| ↔ 143 ≤ x.pat / 2 ^ 23 := by
  have hcast := Value.natCast_le_abs_toRat (x := x) (n := 65536)
  have hmag : x.pat < (142 + 1) * 2 ^ 23 ↔ mag binary32 x.pat < 2 ^ (23 + 142) :=
    lt_iff_mag_lt (f := binary32)
  have hscale : 65536 * 2 ^ binary32.unit = 2 ^ (23 + 142) := by decide
  rw [hscale] at hcast
  rw [show (65536 : ℚ) = (65536 : ℕ) by norm_num, hcast]
  omega

/-- **Rounding toward zero below `65536`.** -/
theorem floatToHalf_towardZero {x : F32} (hx : |x.toRat| < 65536) :
    Value.TowardZero x (halfValue (floatToHalf x)) := by
  obtain ⟨hneg, hpat⟩ := halfValue_floatToHalf x
  have hm : x.pat % 2 ^ 23 < 2 ^ 23 := Nat.mod_lt _ (Nat.two_pow_pos 23)
  rw [← not_le, large_iff, not_le] at hx
  have hbetween := narrowPat_between hx hm
  rw [Nat.div_add_mod' x.pat (2 ^ 23), ← hpat] at hbetween
  refine Value.towardZero_of_mag (by decide) ?_ hneg hbetween.1 hbetween.2
  show (halfValue (floatToHalf x)).pat < _
  rw [hpat]
  exact narrowPat_finite hx hm

/-! ### Every pattern -/

/-- From `65536` on only the significand decides. -/
theorem floatToHalf_large {x : F32} (hX : 143 ≤ x.pat / 2 ^ 23) :
    (halfValue (floatToHalf x)).pat = binary16.infBits + (if x.pat % 2 ^ 23 = 0 then 0 else 2 ^ 9) := by
  rw [(halfValue_floatToHalf x).2, narrowPat, if_pos hX]
  rfl

/-- **Which patterns become NaNs**: the NaNs, and the large numbers that are no power of two. -/
theorem floatToHalf_isNaN_iff (x : F32) : (halfValue (floatToHalf x)).IsNaN ↔
    x.IsNaN ∨ (x.IsFinite ∧ 65536 ≤ |x.toRat| ∧ x.pat % 2 ^ 23 ≠ 0) := by
  have hlt : x.pat < 256 * 2 ^ 23 := x.pat_lt.trans_eq (by decide)
  have hfin : x.IsFinite ↔ x.pat < 255 * 2 ^ 23 := Iff.rfl
  have hnan : x.IsNaN ↔ 255 * 2 ^ 23 < x.pat := Iff.rfl
  rw [large_iff, hfin, hnan, Value.IsNaN]
  by_cases hX : 143 ≤ x.pat / 2 ^ 23
  · rw [floatToHalf_large hX]
    by_cases hm : x.pat % 2 ^ 23 = 0
    · rw [if_pos hm]
      omega
    · rw [if_neg hm]
      omega
  · have hpat := narrowPat_finite (Nat.not_le.mp hX) (Nat.mod_lt x.pat (Nat.two_pow_pos 23))
    rw [← (halfValue_floatToHalf x).2] at hpat
    omega

/-- **Rounding toward zero, except for large numbers that are no power of two**: these become NaNs. -/
theorem floatToHalf_narrowed_iff (x : F32) :
    Narrowed x (halfValue (floatToHalf x)) ↔
      ¬ (x.IsFinite ∧ 65536 ≤ |x.toRat| ∧ x.pat % 2 ^ 23 ≠ 0) := by
  have hneg := (halfValue_floatToHalf x).1
  constructor
  · intro hnarrowed hbad
    have hnan := hnarrowed.nan.mp ((floatToHalf_isNaN_iff x).mpr (.inr hbad))
    exact hbad.1.not_isNaN hnan
  · intro hgood
    refine ⟨fun _ hX => floatToHalf_towardZero hX, fun hx hX => ?_, fun hx => ?_, ?_⟩
    · have hm : x.pat % 2 ^ 23 = 0 := by
        by_contra hm
        exact hgood ⟨hx, hX, hm⟩
      have hpat := floatToHalf_large ((large_iff x).mp hX)
      rw [if_pos hm] at hpat
      exact ⟨hneg, .inr hpat⟩
    · have hx255 : x.pat = 255 * 2 ^ 23 := hx
      have hpat := floatToHalf_large (x := x) (by omega)
      rw [if_pos (by omega)] at hpat
      exact ⟨hneg, hpat⟩
    · rw [floatToHalf_isNaN_iff]
      exact or_iff_left hgood

/-- `65537` becomes a NaN. -/
theorem floatToHalf_overflow_nan :
    (Value.ofBits binary32 0x47800080).toRat = 65537 ∧
      floatToHalf (.ofBits binary32 0x47800080) = 0x7E00 ∧
      ¬ Narrowed (.ofBits binary32 0x47800080) (halfValue (floatToHalf (.ofBits binary32 0x47800080))) := by
  have hmag : mag binary32 0x47800080 = 65537 * 2 ^ 149 := by decide
  refine ⟨?_, by decide, fun h => ?_⟩
  · show (if (Value.ofBits binary32 0x47800080).neg then (-1 : ℚ) else 1)
      * ((mag binary32 0x47800080 : ℚ) / 2 ^ 149) = 65537
    rw [hmag, if_neg (by decide)]
    norm_num
  · have hnan := h.nan.mp (by decide)
    revert hnan
    decide

/-! ### Widening, as numbers -/

/-- The wide pattern has the same value, in units of `2 ^ (-149)`. -/
theorem mag_widePat {E M : ℕ} (hE : E < 31) (hM : M < 2 ^ 10) :
    mag binary32 (widePat E M) = mag binary16 (E * 2 ^ 10 + M) * 2 ^ 125 := by
  unfold widePat
  split_ifs with hsub hzero
  · rw [hsub, hzero, mag_of_lt (f := binary32) (by decide), mag_of_lt (f := binary16) (by decide),
      Nat.zero_mul, Nat.zero_add, Nat.zero_mul]
  · -- a subnormal half becomes a normal `float`
    obtain ⟨hlog, hlo, hhi⟩ := normal_significand hzero hM
    have hsig : 2 ^ 23 + (M * 2 ^ (10 - M.log2) - 2 ^ 10) * 2 ^ 13 = M * 2 ^ (10 - M.log2) * 2 ^ 13 := by
      omega
    have hexp : 10 - M.log2 + (13 + (103 + M.log2 - 1)) = 125 := by omega
    rw [mag_float (by omega) (by omega), hsig, hsub, Nat.zero_mul, Nat.zero_add,
      mag_of_lt (f := binary16) hM, ← hexp, pow_add, pow_add]
    ring
  · omega
  · obtain ⟨e, rfl⟩ := Nat.exists_eq_add_one_of_ne_zero hsub
    have hhalf : mag binary16 ((e + 1) * 2 ^ 10 + M) = (2 ^ 10 + M) * 2 ^ e := mag_normal hM
    have hexp : e + 1 + 112 - 1 = e + 112 := by omega
    rw [mag_float (by omega) (by omega), hhalf, hexp, pow_add]
    ring

/-- **`halfToFloat` is exact**: sign and kind stay, and a number keeps its value. -/
theorem halfToFloat_exact (h : UInt16) :
    (halfToFloat h).neg = (halfValue h).neg ∧
    ((halfToFloat h).IsInfinite ↔ (halfValue h).IsInfinite) ∧
    ((halfToFloat h).IsNaN ↔ (halfValue h).IsNaN) ∧
    ((halfToFloat h).IsFinite ↔ (halfValue h).IsFinite) ∧
    ((halfValue h).IsFinite → (halfToFloat h).toRat = (halfValue h).toRat) := by
  have hlt := h.toNat_lt
  have hW := widePat_lt (E := h.toNat / 2 ^ 10 % 2 ^ 5) (M := h.toNat % 2 ^ 10) (by omega) (by omega)
  have hneg : (halfToFloat h).neg = (halfValue h).neg := by
    rw [halfToFloat_fields]
    show ((_ : ℕ) / 2 ^ 31 % 2 == 1) = (h.toNat / 2 ^ 15 % 2 == 1)
    rw [Nat.mul_comm, Nat.mul_add_div (by omega), Nat.div_eq_of_lt hW, Nat.add_zero]
  have hpat : (halfToFloat h).pat = widePat (h.toNat / 2 ^ 10 % 2 ^ 5) (h.toNat % 2 ^ 10) := by
    rw [halfToFloat_fields]
    show (_ : ℕ) % 2 ^ 31 = _
    rw [Nat.mul_add_mod_self_right, Nat.mod_eq_of_lt hW]
  obtain ⟨hfin, hnan⟩ := halfToFloat_class h
  obtain ⟨hbelow, habove⟩ := widePat_inf (E := h.toNat / 2 ^ 10 % 2 ^ 5) (M := h.toNat % 2 ^ 10)
    (by omega) (by omega)
  refine ⟨hneg, ?_, hnan, hfin, ?_⟩
  · show (halfToFloat h).pat = 255 * 2 ^ 23 ↔ h.toNat % 2 ^ 15 = 31 * 2 ^ 10
    rw [hpat]
    omega
  · intro hfinite
    have hfields : (halfValue h).pat = h.toNat / 2 ^ 10 % 2 ^ 5 * 2 ^ 10 + h.toNat % 2 ^ 10 := by
      show h.toNat % 2 ^ 15 = _
      omega
    have hE : h.toNat / 2 ^ 10 % 2 ^ 5 < 31 := by
      have hp : h.toNat % 2 ^ 15 < 31 * 2 ^ 10 := hfinite
      omega
    have hunit : binary32.unit = binary16.unit + 125 := by decide
    rw [Value.toRat, Value.toRat, hneg, hpat, mag_widePat hE (by omega), ← hfields, hunit, pow_add,
      Nat.cast_mul, Nat.cast_pow, Nat.cast_ofNat, mul_div_mul_right _ _ (by positivity)]

end KserveClient
