import KserveClient.Scalar
import Mathlib.Data.Nat.Bitwise

/-!
# KserveClient.Half — half precision on bit patterns

`halfToFloat` and `floatToHalf` are the two bit-level conversions of the protocol helpers.  Each has a
lemma that reads it on the fields of the pattern (`halfToFloat_fields`, `floatToHalf_fields`), and
`floatToHalf_halfToFloat` says that narrowing undoes widening on every half that is not a NaN.
-/

namespace KserveClient

open BinaryFloat

/-- The normalising loop of `halfToFloat`: shifts `m` left until bit 10 is set, counting in `e`. -/
def normalise : ℕ → UInt32 → UInt32 → UInt32 × UInt32
  | 0, e, m => (e, m)
  | fuel + 1, e, m =>
    if m &&& 0x0400 = 0 then normalise fuel (e + 1) (m <<< 1) else (e, m)

/-- The bits `halfToFloat` assembles from the fields of a half (`sign` already in place).  A half has
ten significand bits, so ten rounds of the loop are enough. -/
def halfBits (sign exp mant : UInt32) : UInt32 :=
  if exp = 0 then
    if mant = 0 then sign
    else
      let (e, m) := normalise 10 0 mant
      sign ||| ((127 - 15 - e + 1) <<< 23) ||| ((m &&& 0x03FF) <<< 13)
  else if exp = 0x1F then sign ||| (0x7F800000 : UInt32) ||| (mant <<< 13)
  else sign ||| ((exp + (127 - 15)) <<< 23) ||| (mant <<< 13)

def halfToFloat (h : UInt16) : F32 :=
  let sign : UInt32 := UInt16.toUInt32 (h &&& 0x8000) <<< 16
  let exp : UInt32 := UInt16.toUInt32 (h &&& 0x7C00) >>> 10
  let mant : UInt32 := UInt16.toUInt32 (h &&& 0x03FF)
  .ofBits binary32 (halfBits sign exp mant).toNat

/-- The half `floatToHalf` assembles from the fields of a `float`, with the exponent rebiased. -/
def narrowBits (sign : UInt16) (exp : ℤ) (mant : UInt32) : UInt16 :=
  if 0x1F ≤ exp then
    -- overflow / inf / nan
    sign ||| 0x7C00 ||| (if mant ≠ 0 then 0x0200 else 0)
  else if exp ≤ 0 then
    if exp < -10 then sign -- underflow to zero
    else
      let m : UInt32 := (mant ||| 0x800000) >>> UInt32.ofNat (14 - exp).toNat
      (sign.toUInt32 ||| m).toUInt16
  else (sign.toUInt32 ||| (UInt32.ofNat exp.toNat <<< 10) ||| (mant >>> 13)).toUInt16

/-- Narrows a `float` to a half, rounding toward zero. -/
def floatToHalf (f : F32) : UInt16 :=
  let x : UInt32 := UInt32.ofNat f.toBits
  let sign : UInt16 := ((x >>> 16) &&& 0x8000).toUInt16
  let exp : ℤ := ((x >>> 23) &&& 0xFF).toNat - 127 + 15
  let mant : UInt32 := x &&& 0x7FFFFF
  narrowBits sign exp mant

/-! ### Bit fields of natural numbers -/

section Fields

/-- A masked field is the field in its place. -/
theorem and_mask (n a b : ℕ) : n &&& ((2 ^ b - 1) <<< a) = n / 2 ^ a % 2 ^ b * 2 ^ a := by
  rw [← Nat.shiftLeft_eq, ← Nat.shiftRight_eq_div_pow]
  refine Nat.eq_of_testBit_eq fun i => ?_
  simp only [Nat.testBit_and, Nat.testBit_shiftLeft, Nat.testBit_two_pow_sub_one,
    Nat.testBit_mod_two_pow, Nat.testBit_shiftRight]
  by_cases hi : a ≤ i
  · simp [hi, Bool.and_comm]
  · simp [hi]

/-- Fields that do not overlap are joined by addition. -/
theorem or_fields {a b i : ℕ} (hb : b < 2 ^ i) : a * 2 ^ i ||| b = a * 2 ^ i + b := by
  have h := Nat.shiftLeft_add_eq_or_of_lt hb a
  rw [Nat.shiftLeft_eq] at h
  exact h.symm

theorem and_bit_eq_zero_iff {n k : ℕ} (hn : n < 2 ^ (k + 1)) : n &&& 2 ^ k = 0 ↔ n < 2 ^ k := by
  have h := and_mask n k 1
  rw [show (2 ^ 1 - 1) <<< k = 2 ^ k by rw [Nat.shiftLeft_eq]; simp] at h
  have hq : n / 2 ^ k < 2 := by
    rw [Nat.div_lt_iff_lt_mul (Nat.two_pow_pos k)]
    rw [pow_succ] at hn
    omega
  rw [h, pow_one, Nat.mod_eq_of_lt hq, Nat.mul_eq_zero, Nat.div_eq_zero_iff]
  have := Nat.two_pow_pos k
  omega

end Fields

/-! ### Reading the conversions on the fields -/

theorem bit10_eq_zero_iff {m : UInt32} (hm : m.toNat < 2 ^ 11) :
    m &&& 0x0400 = 0 ↔ m.toNat < 2 ^ 10 := by
  rw [← and_bit_eq_zero_iff hm, ← UInt32.toNat_inj, UInt32.toNat_and]
  rfl

/-- The loop brings the leading bit to place 10. -/
theorem normalise_eq {fuel : ℕ} {e m : UInt32} {k : ℕ} (hk : k ≤ fuel)
    (hlo : 2 ^ 10 ≤ m.toNat * 2 ^ k) (hhi : m.toNat * 2 ^ k < 2 ^ 11) :
    normalise fuel e m = (e + UInt32.ofNat k, UInt32.ofNat (m.toNat * 2 ^ k)) := by
  induction fuel generalizing e m k with
  | zero =>
    have hk0 : k = 0 := by omega
    subst hk0
    simp [normalise]
  | succ fuel ih =>
    rw [normalise]
    cases k with
    | zero =>
      rw [if_neg (by rw [bit10_eq_zero_iff (by omega)]; omega)]
      simp
    | succ k =>
      have hle : m.toNat * 2 ≤ m.toNat * 2 ^ (k + 1) := by
        rw [pow_succ]
        exact Nat.mul_le_mul_left _ (by have := Nat.two_pow_pos k; omega)
      have hshift : (m <<< 1).toNat = m.toNat * 2 := by
        rw [UInt32.toNat_shiftLeft, Nat.shiftLeft_eq]
        show m.toNat * 2 ^ 1 % 2 ^ 32 = _
        omega
      have hstep : (m <<< 1).toNat * 2 ^ k = m.toNat * 2 ^ (k + 1) := by
        rw [hshift, pow_succ]
        ring
      have he : e + 1 + UInt32.ofNat k = e + UInt32.ofNat (k + 1) := by
        rw [UInt32.ofNat_add, UInt32.add_assoc, UInt32.add_comm 1]
        rfl
      rw [if_pos ((bit10_eq_zero_iff (by omega)).mpr (by omega)),
        ih (by omega) (hstep ▸ hlo) (hstep ▸ hhi), hstep, he]

/-- The unsigned `float` pattern of the half with exponent field `E` and significand `M`. -/
def widePat (E M : ℕ) : ℕ :=
  if E = 0 then
    if M = 0 then 0
    else (103 + M.log2) * 2 ^ 23 + (M * 2 ^ (10 - M.log2) - 2 ^ 10) * 2 ^ 13
  else if E = 31 then 255 * 2 ^ 23 + M * 2 ^ 13
  else (E + 112) * 2 ^ 23 + M * 2 ^ 13

/-- The unsigned half pattern of the `float` with exponent field `X` and significand `m`. -/
def narrowPat (X m : ℕ) : ℕ :=
  if 143 ≤ X then 31 * 2 ^ 10 + (if m = 0 then 0 else 2 ^ 9)
  else if X ≤ 112 then (if X < 102 then 0 else (2 ^ 23 + m) / 2 ^ (126 - X))
  else (X - 112) * 2 ^ 10 + m / 2 ^ 13

/-- The leading bit of a ten-bit significand is shifted to place 10. -/
theorem normal_significand {M : ℕ} (h0 : M ≠ 0) (hM : M < 2 ^ 10) :
    M.log2 < 10 ∧ 2 ^ 10 ≤ M * 2 ^ (10 - M.log2) ∧ M * 2 ^ (10 - M.log2) < 2 ^ 11 := by
  have hlog : M.log2 < 10 := (Nat.log2_lt h0).mpr hM
  refine ⟨hlog, ?_, ?_⟩
  · have := Nat.mul_le_mul_right (2 ^ (10 - M.log2)) (Nat.log2_self_le h0)
    rwa [← pow_add, Nat.add_sub_of_le (by omega)] at this
  · have := Nat.mul_lt_mul_of_pos_right (Nat.lt_log2_self (n := M)) (Nat.two_pow_pos (10 - M.log2))
    rwa [← pow_add, show M.log2 + 1 + (10 - M.log2) = 11 by omega] at this

theorem widePat_lt {E M : ℕ} (hE : E < 32) (hM : M < 2 ^ 10) : widePat E M < 2 ^ 31 := by
  unfold widePat
  split_ifs with h1 h2 h3
  · omega
  · obtain ⟨hlog, -, hhi⟩ := normal_significand h2 hM
    omega
  · omega
  · omega

/-- Only the exponent field 31 gives an infinity or a NaN. -/
theorem widePat_inf {E M : ℕ} (hE : E < 32) (hM : M < 2 ^ 10) :
    (widePat E M < 255 * 2 ^ 23 ↔ E < 31) ∧ (255 * 2 ^ 23 < widePat E M ↔ E = 31 ∧ 0 < M) := by
  unfold widePat
  split_ifs with h1 h2 h3
  · omega
  · obtain ⟨hlog, -, hhi⟩ := normal_significand h2 hM
    omega
  · omega
  · omega

theorem half_fields (h : UInt16) :
    (UInt16.toUInt32 (h &&& 0x8000) <<< 16).toNat = h.toNat / 2 ^ 15 * 2 ^ 31 ∧
    (UInt16.toUInt32 (h &&& 0x7C00) >>> 10).toNat = h.toNat / 2 ^ 10 % 2 ^ 5 ∧
    (UInt16.toUInt32 (h &&& 0x03FF)).toNat = h.toNat % 2 ^ 10 := by
  have hlt := h.toNat_lt
  have hs : (h &&& 0x8000).toNat = h.toNat / 2 ^ 15 % 2 ^ 1 * 2 ^ 15 :=
    (UInt16.toNat_and _ _).trans (and_mask h.toNat 15 1)
  have he : (h &&& 0x7C00).toNat = h.toNat / 2 ^ 10 % 2 ^ 5 * 2 ^ 10 :=
    (UInt16.toNat_and _ _).trans (and_mask h.toNat 10 5)
  have hm : (h &&& 0x03FF).toNat = h.toNat % 2 ^ 10 :=
    (UInt16.toNat_and _ _).trans (Nat.and_two_pow_sub_one_eq_mod h.toNat 10)
  refine ⟨?_, ?_, ?_⟩
  · rw [UInt32.toNat_shiftLeft, UInt16.toNat_toUInt32, hs, Nat.shiftLeft_eq]
    show _ * 2 ^ 16 % 2 ^ 32 = _
    omega
  · rw [UInt32.toNat_shiftRight, UInt16.toNat_toUInt32, he, Nat.shiftRight_eq_div_pow]
    show _ / 2 ^ 10 = _
    omega
  · rw [UInt16.toNat_toUInt32, hm]

/-- Three fields joined by `|`. -/
theorem or_three {a b c s X m : ℕ} (ha : a = s * 2 ^ 31) (hb : b = X * 2 ^ 23) (hc : c = m)
    (hX : X < 2 ^ 8) (hm : m < 2 ^ 23) : a ||| b ||| c = s * 2 ^ 31 + X * 2 ^ 23 + m := by
  have h1 : X * 2 ^ 23 < 2 ^ 31 := by omega
  have h2 : s * 2 ^ 31 + X * 2 ^ 23 = (s * 2 ^ 8 + X) * 2 ^ 23 := by ring
  rw [ha, hb, hc, or_fields h1, h2, or_fields hm]

theorem toNat_shift23 {x : UInt32} (h : x.toNat < 2 ^ 8) : (x <<< 23).toNat = x.toNat * 2 ^ 23 := by
  rw [UInt32.toNat_shiftLeft, Nat.shiftLeft_eq]
  show _ * 2 ^ 23 % 2 ^ 32 = _
  omega

theorem toNat_shift13 {x : UInt32} (h : x.toNat < 2 ^ 10) : (x <<< 13).toNat = x.toNat * 2 ^ 13 := by
  rw [UInt32.toNat_shiftLeft, Nat.shiftLeft_eq]
  show _ * 2 ^ 13 % 2 ^ 32 = _
  omega

theorem halfBits_fields {sign exp mant : UInt32} {s : ℕ} (hs : sign.toNat = s * 2 ^ 31)
    (hE : exp.toNat < 32) (hM : mant.toNat < 2 ^ 10) :
    (halfBits sign exp mant).toNat = s * 2 ^ 31 + widePat exp.toNat mant.toNat := by
  have hexp0 : exp = 0 ↔ exp.toNat = 0 := by rw [← UInt32.toNat_inj]; rfl
  have hexp31 : exp = 0x1F ↔ exp.toNat = 31 := by rw [← UInt32.toNat_inj]; rfl
  have hmant0 : mant = 0 ↔ mant.toNat = 0 := by rw [← UInt32.toNat_inj]; rfl
  have hmant := toNat_shift13 hM
  unfold halfBits widePat
  simp only [hexp0, hexp31, hmant0]
  split_ifs with h1 h2 h3
  · rw [hs, Nat.add_zero]
  · -- subnormal half: the loop normalises the significand
    obtain ⟨hlog, hlo, hhi⟩ := normal_significand h2 hM
    set k := 10 - mant.toNat.log2 with hk
    rw [normalise_eq (by omega) hlo hhi]
    simp only
    have hexp : (127 - 15 - (0 + UInt32.ofNat k) + 1 : UInt32).toNat = 113 - k := by
      have : (0 + UInt32.ofNat k).toNat = k := by
        rw [UInt32.zero_add, UInt32.toNat_ofNat']
        omega
      rw [UInt32.toNat_add, UInt32.toNat_sub, this]
      show ((2 ^ 32 - k + 112) % 2 ^ 32 + 1) % 2 ^ 32 = _
      omega
    have hlow : (UInt32.ofNat (mant.toNat * 2 ^ k) &&& 0x03FF).toNat
        = mant.toNat * 2 ^ k - 2 ^ 10 := by
      have h1 := Nat.and_two_pow_sub_one_eq_mod (mant.toNat * 2 ^ k) 10
      have h2 : (UInt32.ofNat (mant.toNat * 2 ^ k)).toNat = mant.toNat * 2 ^ k := by
        rw [UInt32.toNat_ofNat']
        omega
      rw [UInt32.toNat_and, h2]
      refine h1.trans ?_
      omega
    rw [UInt32.toNat_or, UInt32.toNat_or, or_three hs (toNat_shift23 (by omega))
      (toNat_shift13 (by omega)) (by omega) (by omega), hexp, hlow]
    omega
  · have h7 : (0x7F800000 : UInt32).toNat = 255 * 2 ^ 23 := rfl
    rw [UInt32.toNat_or, UInt32.toNat_or, or_three hs h7 hmant (by norm_num) (by omega)]
    omega
  · have hadd : (exp + (127 - 15)).toNat = exp.toNat + 112 := by
      rw [UInt32.toNat_add]
      show (exp.toNat + 112) % 2 ^ 32 = _
      omega
    rw [UInt32.toNat_or, UInt32.toNat_or, or_three hs (toNat_shift23 (by omega)) hmant
      (by omega) (by omega), hadd]
    omega

/-- **`halfToFloat` on fields.** -/
theorem halfToFloat_fields (h : UInt16) :
    halfToFloat h = .ofBits binary32 (h.toNat / 2 ^ 15 * 2 ^ 31 +
      widePat (h.toNat / 2 ^ 10 % 2 ^ 5) (h.toNat % 2 ^ 10)) := by
  obtain ⟨hs, he, hm⟩ := half_fields h
  have hb := halfBits_fields hs (by rw [he]; omega) (by rw [hm]; omega)
  rw [he, hm] at hb
  rw [← hb]
  rfl

section Narrow

variable {sign : UInt16} {exp : ℤ} {mant : UInt32} {s X : ℕ}

/-- Overflow, infinities and NaNs. -/
theorem narrowBits_large (hs : sign.toNat = s * 2 ^ 15) (hexp : 0x1F ≤ exp) :
    (narrowBits sign exp mant).toNat
      = s * 2 ^ 15 + (31 * 2 ^ 10 + (if mant.toNat = 0 then 0 else 2 ^ 9)) := by
  have hmant0 : mant = 0 ↔ mant.toNat = 0 := by rw [← UInt32.toNat_inj]; rfl
  have h7 : (0x7C00 : UInt16).toNat = 31 * 2 ^ 10 := rfl
  have hsum : s * 2 ^ 15 + 31 * 2 ^ 10 = (s * 2 ^ 5 + 31) * 2 ^ 10 := by ring
  unfold narrowBits
  rw [if_pos hexp, UInt16.toNat_or, UInt16.toNat_or, hs, h7, or_fields (by norm_num), hsum]
  by_cases h0 : mant.toNat = 0
  · rw [if_neg (by simpa [hmant0] using h0), if_pos h0]
    simp
    omega
  · rw [if_pos (by simpa [hmant0] using h0), if_neg h0]
    have h2 : (s * 2 ^ 5 + 31) * 2 ^ 10 ||| (0x0200 : UInt16).toNat = _ :=
      or_fields (show (0x0200 : UInt16).toNat < 2 ^ 10 by decide)
    have h9 : (0x0200 : UInt16).toNat = 2 ^ 9 := by decide
    rw [h2, h9]
    ring

/-- Subnormal halves: the significand with its leading bit is shifted down by at least 14 places. -/
theorem narrowBits_subnormal (hs : sign.toNat = s * 2 ^ 15) (hs2 : s < 2) (hexp : exp = (X : ℤ) - 112)
    (hlo : 102 ≤ X) (hhi : X ≤ 112) (hm : mant.toNat < 2 ^ 23) :
    (narrowBits sign exp mant).toNat = s * 2 ^ 15 + (2 ^ 23 + mant.toNat) / 2 ^ (126 - X) := by
  have hor : (mant ||| 0x800000).toNat = 2 ^ 23 + mant.toNat := by
    have := or_fields (a := 1) hm
    rw [UInt32.toNat_or, Nat.or_comm]
    simpa using this
  have hsh : (14 - exp).toNat = 126 - X := by omega
  have hshift : ((mant ||| 0x800000) >>> UInt32.ofNat (126 - X)).toNat
      = (2 ^ 23 + mant.toNat) / 2 ^ (126 - X) := by
    rw [UInt32.toNat_shiftRight, hor, Nat.shiftRight_eq_div_pow, UInt32.toNat_ofNat']
    congr 2
    omega
  have hsmall : (2 ^ 23 + mant.toNat) / 2 ^ (126 - X) < 2 ^ 10 := by
    rw [Nat.div_lt_iff_lt_mul (Nat.two_pow_pos _)]
    have : 2 ^ 14 ≤ 2 ^ (126 - X) := Nat.pow_le_pow_right (by norm_num) (by omega)
    omega
  unfold narrowBits
  rw [if_neg (by omega), if_pos (by omega), if_neg (by omega)]
  simp only [hsh]
  rw [UInt32.toNat_toUInt16, UInt32.toNat_or, UInt16.toNat_toUInt32, hshift, hs, or_fields (by omega)]
  omega

/-- Normal halves: the exponent is rebiased and the significand loses 13 bits. -/
theorem narrowBits_normal (hs : sign.toNat = s * 2 ^ 15) (hs2 : s < 2) (hexp : exp = (X : ℤ) - 112)
    (hlo : 112 < X) (hhi : X < 143) (hm : mant.toNat < 2 ^ 23) :
    (narrowBits sign exp mant).toNat = s * 2 ^ 15 + ((X - 112) * 2 ^ 10 + mant.toNat / 2 ^ 13) := by
  have hE : (UInt32.ofNat exp.toNat <<< 10).toNat = (X - 112) * 2 ^ 10 := by
    have hX : (UInt32.ofNat exp.toNat).toNat = X - 112 := by
      rw [UInt32.toNat_ofNat']
      omega
    rw [UInt32.toNat_shiftLeft, hX, Nat.shiftLeft_eq]
    show _ * 2 ^ 10 % 2 ^ 32 = _
    omega
  have hM : (mant >>> 13).toNat = mant.toNat / 2 ^ 13 := by
    rw [UInt32.toNat_shiftRight, Nat.shiftRight_eq_div_pow]
    rfl
  have hsum : s * 2 ^ 15 + (X - 112) * 2 ^ 10 = (s * 2 ^ 5 + (X - 112)) * 2 ^ 10 := by ring
  unfold narrowBits
  rw [if_neg (by omega), if_neg (by omega), UInt32.toNat_toUInt16, UInt32.toNat_or, UInt32.toNat_or,
    UInt16.toNat_toUInt32, hs, hE, hM, or_fields (by omega), hsum, or_fields (by omega)]
  omega

theorem narrowBits_fields (hs : sign.toNat = s * 2 ^ 15) (hs2 : s < 2) (hexp : exp = X - 112)
    (hm : mant.toNat < 2 ^ 23) :
    (narrowBits sign exp mant).toNat = s * 2 ^ 15 + narrowPat X mant.toNat := by
  unfold narrowPat
  split_ifs with hlarge hzero hsub htiny
  · rw [narrowBits_large hs (by omega), if_pos hzero]
  · rw [narrowBits_large hs (by omega), if_neg hzero]
  · unfold narrowBits
    rw [if_neg (by omega), if_pos (by omega), if_pos (by omega), hs, Nat.add_zero]
  · exact narrowBits_subnormal hs hs2 hexp (by omega) hsub hm
  · exact narrowBits_normal hs hs2 hexp (by omega) (by omega) hm

end Narrow

/-- **`floatToHalf` on fields.** -/
theorem floatToHalf_fields (f : F32) :
    (floatToHalf f).toNat = f.toBits / 2 ^ 31 * 2 ^ 15 +
      narrowPat (f.toBits / 2 ^ 23 % 2 ^ 8) (f.toBits % 2 ^ 23) := by
  have hlt : f.toBits < 2 ^ 32 := f.toBits_lt.trans_eq (by decide)
  have hx : (UInt32.ofNat f.toBits).toNat = f.toBits := by
    rw [UInt32.toNat_ofNat']
    omega
  have hs : ((UInt32.ofNat f.toBits >>> 16) &&& 0x8000).toUInt16.toNat
      = f.toBits / 2 ^ 31 * 2 ^ 15 := by
    have h := and_mask (f.toBits / 2 ^ 16) 15 1
    rw [UInt32.toNat_toUInt16, UInt32.toNat_and, UInt32.toNat_shiftRight, hx,
      Nat.shiftRight_eq_div_pow]
    refine (congrArg (· % 2 ^ 16) h).trans ?_
    show _ % 2 ^ 16 = _
    omega
  have he : ((UInt32.ofNat f.toBits >>> 23) &&& 0xFF).toNat = f.toBits / 2 ^ 23 % 2 ^ 8 := by
    rw [UInt32.toNat_and, UInt32.toNat_shiftRight, hx, Nat.shiftRight_eq_div_pow]
    exact Nat.and_two_pow_sub_one_eq_mod _ 8
  have hm : (UInt32.ofNat f.toBits &&& 0x7FFFFF).toNat = f.toBits % 2 ^ 23 := by
    rw [UInt32.toNat_and, hx]
    exact Nat.and_two_pow_sub_one_eq_mod _ 23
  have hexp : (((UInt32.ofNat f.toBits >>> 23) &&& 0xFF).toNat : ℤ) - 127 + 15
      = (f.toBits / 2 ^ 23 % 2 ^ 8 : ℕ) - 112 := by
    rw [he]
    omega
  rw [← hm]
  exact narrowBits_fields hs (by omega) hexp (by rw [hm]; omega)

/-- The fields of a half that is not a NaN survive widening and narrowing. -/
theorem narrowPat_widePat {E M : ℕ} (hE : E < 32) (hM : M < 2 ^ 10) (hn : E = 31 → M = 0) :
    narrowPat (widePat E M / 2 ^ 23) (widePat E M % 2 ^ 23) = E * 2 ^ 10 + M := by
  unfold widePat
  split_ifs with h1 h2 h3
  · subst h1 h2
    rfl
  · obtain ⟨hlog, hlo, hhi⟩ := normal_significand h2 hM
    set k := 10 - M.log2 with hk
    have hX : ((103 + M.log2) * 2 ^ 23 + (M * 2 ^ k - 2 ^ 10) * 2 ^ 13) / 2 ^ 23 = 103 + M.log2 := by
      omega
    have hm : ((103 + M.log2) * 2 ^ 23 + (M * 2 ^ k - 2 ^ 10) * 2 ^ 13) % 2 ^ 23
        = (M * 2 ^ k - 2 ^ 10) * 2 ^ 13 := by omega
    rw [hX, hm, narrowPat, if_neg (by omega), if_pos (by omega), if_neg (by omega)]
    -- the significand was shifted left by `k + 13` places in all
    have hsig : 2 ^ 23 + (M * 2 ^ k - 2 ^ 10) * 2 ^ 13 = M * 2 ^ (k + 13) := by
      rw [pow_add, ← Nat.mul_assoc]
      omega
    rw [hsig, show 126 - (103 + M.log2) = k + 13 by omega,
      Nat.mul_div_cancel _ (Nat.two_pow_pos _)]
    omega
  · have h0 := hn h3
    subst h3 h0
    rfl
  · have hX : ((E + 112) * 2 ^ 23 + M * 2 ^ 13) / 2 ^ 23 = E + 112 := by omega
    have hm : ((E + 112) * 2 ^ 23 + M * 2 ^ 13) % 2 ^ 23 = M * 2 ^ 13 := by omega
    rw [hX, hm, narrowPat, if_neg (by omega), if_neg (by omega)]
    omega

/-- A half-precision pattern that is a NaN. -/
def HalfIsNaN (h : UInt16) : Prop := (Value.ofBits binary16 h.toNat).IsNaN

/-- A half-precision pattern that is a number. -/
def HalfIsFinite (h : UInt16) : Prop := (Value.ofBits binary16 h.toNat).IsFinite

instance (h : UInt16) : Decidable (HalfIsNaN h) := inferInstanceAs (Decidable (Value.IsNaN _))

instance (h : UInt16) : Decidable (HalfIsFinite h) :=
  inferInstanceAs (Decidable (Value.IsFinite _))

/-- **Narrowing undoes widening** on every half that is not a NaN. -/
theorem floatToHalf_halfToFloat {h : UInt16} (hn : ¬ HalfIsNaN h) :
    floatToHalf (halfToFloat h) = h := by
  have hlt := h.toNat_lt
  have hW := widePat_lt (E := h.toNat / 2 ^ 10 % 2 ^ 5) (M := h.toNat % 2 ^ 10) (by omega) (by omega)
  have hbits := Value.toBits_ofBits (f := binary32) (n := h.toNat / 2 ^ 15 * 2 ^ 31 +
    widePat (h.toNat / 2 ^ 10 % 2 ^ 5) (h.toNat % 2 ^ 10))
    (lt_of_lt_of_eq (b := 2 ^ 32) (by omega) (by decide))
  have hnan : h.toNat / 2 ^ 10 % 2 ^ 5 = 31 → h.toNat % 2 ^ 10 = 0 := by
    intro h31
    by_contra h0
    refine hn (show 31744 < h.toNat % 2 ^ 15 from ?_)
    omega
  have hpat := narrowPat_widePat (by omega) (by omega) hnan
  rw [← UInt16.toNat_inj, floatToHalf_fields, halfToFloat_fields, hbits]
  generalize widePat (h.toNat / 2 ^ 10 % 2 ^ 5) (h.toNat % 2 ^ 10) = W at *
  rw [show (h.toNat / 2 ^ 15 * 2 ^ 31 + W) / 2 ^ 23 % 2 ^ 8 = W / 2 ^ 23 by omega,
    show (h.toNat / 2 ^ 15 * 2 ^ 31 + W) % 2 ^ 23 = W % 2 ^ 23 by omega, hpat]
  omega

theorem HalfIsFinite.not_isNaN {h : UInt16} (hf : HalfIsFinite h) : ¬ HalfIsNaN h :=
  Value.IsFinite.not_isNaN hf

/-- Widening turns numbers into numbers, and only NaNs into NaNs. -/
theorem halfToFloat_class (h : UInt16) :
    ((halfToFloat h).IsFinite ↔ HalfIsFinite h) ∧ ((halfToFloat h).IsNaN ↔ HalfIsNaN h) := by
  have hlt := h.toNat_lt
  have hW := widePat_lt (E := h.toNat / 2 ^ 10 % 2 ^ 5) (M := h.toNat % 2 ^ 10) (by omega) (by omega)
  obtain ⟨hfin, hnan⟩ := widePat_inf (E := h.toNat / 2 ^ 10 % 2 ^ 5) (M := h.toNat % 2 ^ 10)
    (by omega) (by omega)
  rw [halfToFloat_fields]
  show ((_ : ℕ) % 2 ^ 31 < 255 * 2 ^ 23 ↔ h.toNat % 2 ^ 15 < 31 * 2 ^ 10) ∧
    (255 * 2 ^ 23 < (_ : ℕ) % 2 ^ 31 ↔ 31 * 2 ^ 10 < h.toNat % 2 ^ 15)
  rw [Nat.mul_add_mod_self_right, Nat.mod_eq_of_lt hW, hfin, hnan]
  omega

example : (halfToFloat 0x0001).toBits = 0x33800000 := by decide

end KserveClient
