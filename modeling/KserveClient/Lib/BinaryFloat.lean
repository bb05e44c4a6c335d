import Mathlib.Algebra.Order.Ring.Nat
import Mathlib.Tactic.Ring
import Mathlib.Tactic.NormNum
import Mathlib.Tactic.Linarith

/-!
# BinaryFloat — binary interchange floating-point formats

A `Value f` is a sign and an unsigned pattern of the format `f` (exponent field over significand
field).  Below `infBits` a pattern is finite, at `infBits` infinite, above it a NaN.

`mag f p` is the value of the finite pattern `p` in units of the smallest positive number of `f`,
`2 ^ (- f.unit)`, a natural number: no rationals are needed to compare formats, since the unit of a
wider format divides the unit of a narrower one.  `nearest f k N` is the pattern nearest to
`N / 2 ^ k` units, ties to even.

* `nearest_mag`: rounding a number of the format gives back its pattern.
* `mag_nearest`: a number with at most `mbits + 1` significant bits is not rounded.
* `convert_convert`: narrowing undoes widening on everything but NaNs.
* `represents_ofInt`, `truncate_of_represents`: an integer that the format represents is converted
  exactly and recovered by truncation.
-/

namespace BinaryFloat

/-- Widths of the trailing significand and exponent fields. -/
structure Format where
  mbits : ℕ
  ebits : ℕ
  mbits_pos : 0 < mbits
  ebits_gt : 1 < ebits

def binary16 : Format := ⟨10, 5, by norm_num, by norm_num⟩
def binary32 : Format := ⟨23, 8, by norm_num, by norm_num⟩
def binary64 : Format := ⟨52, 11, by norm_num, by norm_num⟩

namespace Format

variable (f : Format)

/-- The pattern of infinity. -/
def infBits : ℕ := (2 ^ f.ebits - 1) * 2 ^ f.mbits

/-- The place of the sign bit: every unsigned pattern is below it. -/
def signUnit : ℕ := 2 ^ (f.ebits + f.mbits)

/-- The smallest positive number is `2 ^ (- unit)`. -/
def unit : ℕ := 2 ^ (f.ebits - 1) - 2 + f.mbits

theorem signUnit_eq : f.signUnit = f.infBits + 2 ^ f.mbits := by
  have h : 1 ≤ 2 ^ f.ebits := Nat.one_le_two_pow
  rw [signUnit, infBits, pow_add, Nat.sub_mul, one_mul]
  have : 2 ^ f.mbits ≤ 2 ^ f.ebits * 2 ^ f.mbits := Nat.le_mul_of_pos_left _ (by omega)
  omega

theorem infBits_lt : f.infBits < f.signUnit := by
  have : 0 < 2 ^ f.mbits := Nat.two_pow_pos _
  rw [signUnit_eq]
  omega

end Format

section Magnitude

variable (f : Format)

/-- The value of the unsigned finite pattern `p`, in units. -/
def mag (p : ℕ) : ℕ :=
  if p < 2 ^ f.mbits then p
  else (2 ^ f.mbits + p % 2 ^ f.mbits) * 2 ^ (p / 2 ^ f.mbits - 1)

/-- The pattern nearest to `N / 2 ^ k` units, ties to the even pattern (no upper limit). -/
def nearest (k N : ℕ) : ℕ :=
  let l := Nat.log2 (N / 2 ^ k) - f.mbits
  let sig := N / 2 ^ (k + l)
  let rem := N % 2 ^ (k + l)
  let p := l * 2 ^ f.mbits + sig
  if 2 ^ (k + l) < 2 * rem ∨ (2 * rem = 2 ^ (k + l) ∧ sig % 2 = 1) then p + 1 else p

variable {f}

theorem mag_of_lt {p : ℕ} (h : p < 2 ^ f.mbits) : mag f p = p := if_pos h

/-- The pattern with exponent field `e + 1` and significand `s`. -/
theorem mag_normal {e s : ℕ} (hs : s < 2 ^ f.mbits) :
    mag f ((e + 1) * 2 ^ f.mbits + s) = (2 ^ f.mbits + s) * 2 ^ e := by
  have hpos : 0 < 2 ^ f.mbits := Nat.two_pow_pos _
  have hdiv : ((e + 1) * 2 ^ f.mbits + s) / 2 ^ f.mbits = e + 1 := by
    rw [Nat.mul_comm, Nat.mul_add_div hpos, Nat.div_eq_of_lt hs, Nat.add_zero]
  have hmod : ((e + 1) * 2 ^ f.mbits + s) % 2 ^ f.mbits = s := by
    rw [Nat.mul_comm, Nat.mul_add_mod, Nat.mod_eq_of_lt hs]
  have hge : ¬ (e + 1) * 2 ^ f.mbits + s < 2 ^ f.mbits := by
    rw [Nat.add_mul]
    omega
  rw [mag, if_neg hge, hdiv, hmod, Nat.add_sub_cancel]

/-- Every pattern is subnormal or has the shape of `mag_normal`. -/
theorem pattern_cases (p : ℕ) :
    p < 2 ^ f.mbits ∨ ∃ e s, s < 2 ^ f.mbits ∧ p = (e + 1) * 2 ^ f.mbits + s := by
  have hpos : 0 < 2 ^ f.mbits := Nat.two_pow_pos _
  rcases Nat.lt_or_ge p (2 ^ f.mbits) with h | h
  · exact Or.inl h
  · have hq : 1 ≤ p / 2 ^ f.mbits := (Nat.le_div_iff_mul_le hpos).mpr (by simpa using h)
    refine Or.inr ⟨p / 2 ^ f.mbits - 1, p % 2 ^ f.mbits, Nat.mod_lt _ hpos, ?_⟩
    rw [Nat.sub_add_cancel hq, Nat.mul_comm, Nat.div_add_mod]

/-- Patterns below the exponent `e + 1` are the values below `2 ^ (mbits + e)`. -/
theorem lt_iff_mag_lt {p e : ℕ} : p < (e + 1) * 2 ^ f.mbits ↔ mag f p < 2 ^ (f.mbits + e) := by
  have hpos : 0 < 2 ^ f.mbits := Nat.two_pow_pos _
  rcases pattern_cases (f := f) p with h | ⟨e', s, hs, rfl⟩
  · rw [mag_of_lt h]
    have h1 : 2 ^ f.mbits ≤ (e + 1) * 2 ^ f.mbits := Nat.le_mul_of_pos_left _ (by omega)
    have h2 : 2 ^ f.mbits ≤ 2 ^ (f.mbits + e) := Nat.pow_le_pow_right (by norm_num) (by omega)
    exact ⟨fun _ => by omega, fun _ => by omega⟩
  · rw [mag_normal hs]
    constructor
    · intro hlt
      have hee : e' + 1 ≤ e := by
        by_contra hc
        have : (e + 1) * 2 ^ f.mbits ≤ (e' + 1) * 2 ^ f.mbits := Nat.mul_le_mul_right _ (by omega)
        omega
      calc (2 ^ f.mbits + s) * 2 ^ e' < (2 ^ f.mbits * 2) * 2 ^ e' :=
            Nat.mul_lt_mul_of_pos_right (by omega) (Nat.two_pow_pos _)
        _ = 2 ^ (f.mbits + (e' + 1)) := by rw [pow_add, pow_succ]; ring
        _ ≤ 2 ^ (f.mbits + e) := Nat.pow_le_pow_right (by norm_num) (by omega)
    · intro hlt
      have hee : e' < e := by
        by_contra hc
        have h1 : 2 ^ (f.mbits + e) ≤ 2 ^ (f.mbits + e') :=
          Nat.pow_le_pow_right (by norm_num) (by omega)
        have h2 : 2 ^ (f.mbits + e') ≤ (2 ^ f.mbits + s) * 2 ^ e' := by
          rw [pow_add]; exact Nat.mul_le_mul_right _ (by omega)
        omega
      calc (e' + 1) * 2 ^ f.mbits + s < (e' + 1) * 2 ^ f.mbits + 2 ^ f.mbits := by omega
        _ = (e' + 1 + 1) * 2 ^ f.mbits := by ring
        _ ≤ (e + 1) * 2 ^ f.mbits := Nat.mul_le_mul_right _ (by omega)

/-- The finite patterns are the values below one power of two. -/
theorem lt_infBits_iff {p : ℕ} :
    p < f.infBits ↔ mag f p < 2 ^ (f.mbits + (2 ^ f.ebits - 2)) := by
  have h2 : 2 ≤ 2 ^ f.ebits :=
    Nat.le_self_pow (by have := f.ebits_gt; omega) 2
  have he : 2 ^ f.ebits - 1 = (2 ^ f.ebits - 2) + 1 := by omega
  rw [Format.infBits, he]
  exact lt_iff_mag_lt

/-- **Rounding is exact on the numbers of the format.** -/
theorem nearest_mag (k p : ℕ) : nearest f k (mag f p * 2 ^ k) = p := by
  have hkpos : 0 < 2 ^ k := Nat.two_pow_pos _
  have hdiv : mag f p * 2 ^ k / 2 ^ k = mag f p := Nat.mul_div_cancel _ hkpos
  unfold nearest
  rw [hdiv]
  rcases pattern_cases (f := f) p with h | ⟨e, s, hs, rfl⟩
  · -- subnormal: no shift
    have hl : Nat.log2 (mag f p) - f.mbits = 0 := by
      rw [mag_of_lt h]
      rcases Nat.eq_zero_or_pos p with rfl | hp
      · simp
      · have := (Nat.log2_lt (by omega)).mpr h
        omega
    simp only [hl, Nat.add_zero, Nat.mul_mod_left, hdiv, Nat.zero_mul, Nat.zero_add]
    rw [if_neg (by omega), mag_of_lt h]
  · -- normal: the shift is the exponent field less one
    have hm := mag_normal (e := e) hs
    have hlog : Nat.log2 (mag f ((e + 1) * 2 ^ f.mbits + s)) = f.mbits + e := by
      have hpos : 0 < (2 ^ f.mbits + s) * 2 ^ e :=
        Nat.mul_pos (by have := Nat.two_pow_pos f.mbits; omega) (Nat.two_pow_pos _)
      rw [hm, Nat.log2_eq_iff (by omega)]
      constructor
      · rw [pow_add]
        exact Nat.mul_le_mul_right _ (by omega)
      · calc (2 ^ f.mbits + s) * 2 ^ e < (2 ^ f.mbits * 2) * 2 ^ e :=
              Nat.mul_lt_mul_of_pos_right (by omega) (Nat.two_pow_pos _)
          _ = 2 ^ (f.mbits + e + 1) := by rw [pow_add, pow_add]; ring
    have hprod : mag f ((e + 1) * 2 ^ f.mbits + s) * 2 ^ k
        = (2 ^ f.mbits + s) * 2 ^ (k + e) := by rw [hm, pow_add]; ring
    simp only [hlog, Nat.add_sub_cancel_left, hprod,
      Nat.mul_div_cancel _ (Nat.two_pow_pos (k + e)), Nat.mul_mod_left]
    rw [if_neg (by have := Nat.two_pow_pos (k + e); omega)]
    ring

/-- The pattern with the significand `c`, shifted up by `l` places. -/
theorem mag_shifted {l c : ℕ} (hlo : l = 0 ∨ 2 ^ f.mbits ≤ c) (hhi : c < 2 ^ (f.mbits + 1)) :
    mag f (l * 2 ^ f.mbits + c) = c * 2 ^ l := by
  rcases Nat.lt_or_ge c (2 ^ f.mbits) with hc | hc
  · obtain rfl : l = 0 := hlo.resolve_right (Nat.not_le.mpr hc)
    rw [Nat.zero_mul, Nat.zero_add, mag_of_lt hc, pow_zero, Nat.mul_one]
  · rw [pow_succ] at hhi
    have hp : l * 2 ^ f.mbits + c = (l + 1) * 2 ^ f.mbits + (c - 2 ^ f.mbits) := by
      rw [Nat.add_mul]
      omega
    rw [hp, mag_normal (by omega), Nat.add_sub_cancel' hc]

/-- **No rounding of short numbers**: at most `mbits + 1` significant bits are kept as they are. -/
theorem mag_nearest {a b : ℕ} (ha : a < 2 ^ (f.mbits + 1)) :
    mag f (nearest f 0 (a * 2 ^ b)) = a * 2 ^ b := by
  rcases Nat.eq_zero_or_pos a with rfl | hapos
  · have h := nearest_mag (f := f) 0 0
    rw [mag_of_lt (Nat.two_pow_pos _)] at h
    simp only [pow_zero, Nat.zero_mul] at h ⊢
    rw [h, mag_of_lt (Nat.two_pow_pos _)]
  set N := a * 2 ^ b with hN
  have hNpos : 0 < N := Nat.mul_pos hapos (Nat.two_pow_pos _)
  have hself := Nat.log2_self_le (n := N) (by omega)
  have hlt := Nat.lt_log2_self (n := N)
  unfold nearest
  simp only [pow_zero, Nat.div_one, Nat.zero_add]
  set l := N.log2 - f.mbits with hl
  -- the dropped bits are zero
  have hlb : l ≤ b := by
    have h1 : N < 2 ^ (f.mbits + 1 + b) := by
      rw [pow_add]; exact Nat.mul_lt_mul_of_pos_right ha (Nat.two_pow_pos _)
    have := (Nat.log2_lt (by omega : N ≠ 0)).mpr h1
    omega
  obtain ⟨c, hc⟩ : 2 ^ l ∣ N := Dvd.dvd.mul_left (pow_dvd_pow 2 hlb) a
  have hdiv : N / 2 ^ l = c := by rw [hc]; exact Nat.mul_div_cancel_left _ (Nat.two_pow_pos _)
  have hmod : N % 2 ^ l = 0 := by rw [hc]; exact Nat.mul_mod_right _ _
  have hhi : c < 2 ^ (f.mbits + 1) := by
    have h1 : 2 ^ l * c < 2 ^ l * 2 ^ (f.mbits + 1) := by
      rw [← hc, ← pow_add]
      exact hlt.trans_le (Nat.pow_le_pow_right (by norm_num) (by omega))
    exact Nat.lt_of_mul_lt_mul_left h1
  have hlo : l = 0 ∨ 2 ^ f.mbits ≤ c := by
    rcases Nat.eq_zero_or_pos l with h0 | hlpos
    · exact .inl h0
    · rw [show N.log2 = l + f.mbits by omega, pow_add, hc] at hself
      exact .inr (Nat.le_of_mul_le_mul_left hself (Nat.two_pow_pos _))
  rw [hdiv, hmod, if_neg (by have := Nat.two_pow_pos l; omega), mag_shifted hlo hhi, hc, Nat.mul_comm]

/-- Every finite value has at most `mbits + 1` significant bits. -/
theorem mag_eq_short (p : ℕ) : ∃ a b, a < 2 ^ (f.mbits + 1) ∧ mag f p = a * 2 ^ b := by
  have hpos : 0 < 2 ^ f.mbits := Nat.two_pow_pos _
  rcases pattern_cases (f := f) p with h | ⟨e, s, hs, rfl⟩
  · exact ⟨p, 0, by rw [pow_succ]; omega, by rw [mag_of_lt h]; simp⟩
  · exact ⟨2 ^ f.mbits + s, e, by rw [pow_succ]; omega, mag_normal hs⟩

end Magnitude

/-! ### Values -/

/-- A sign and an unsigned pattern. -/
@[ext] structure Value (f : Format) where
  neg : Bool
  pat : ℕ
  pat_lt : pat < f.signUnit
deriving DecidableEq

namespace Value

variable {f g : Format}

/-- The bit pattern as a number. -/
def toBits (x : Value f) : ℕ := (if x.neg then f.signUnit else 0) + x.pat

/-- The value with the bit pattern `n` (higher bits dropped). -/
def ofBits (f : Format) (n : ℕ) : Value f :=
  ⟨n / f.signUnit % 2 == 1, n % f.signUnit, Nat.mod_lt _ (Nat.two_pow_pos _)⟩

def IsNaN (x : Value f) : Prop := f.infBits < x.pat

def IsFinite (x : Value f) : Prop := x.pat < f.infBits

instance (x : Value f) : Decidable x.IsNaN := inferInstanceAs (Decidable (_ < _))

instance (x : Value f) : Decidable x.IsFinite := inferInstanceAs (Decidable (_ < _))

theorem IsFinite.not_isNaN {x : Value f} (h : x.IsFinite) : ¬ x.IsNaN := Nat.lt_asymm h

theorem toBits_lt (x : Value f) : x.toBits < 2 * f.signUnit := by
  have := x.pat_lt
  unfold toBits
  split_ifs <;> omega

theorem ofBits_toBits (x : Value f) : ofBits f x.toBits = x := by
  obtain ⟨neg, pat, hp⟩ := x
  have hpos : 0 < f.signUnit := Nat.two_pow_pos _
  cases neg
  · simp [ofBits, toBits, Nat.div_eq_of_lt hp, Nat.mod_eq_of_lt hp]
  · simp [ofBits, toBits, Nat.add_div_left _ hpos, Nat.div_eq_of_lt hp, Nat.mod_eq_of_lt hp]

theorem toBits_ofBits {n : ℕ} (h : n < 2 * f.signUnit) : (ofBits f n).toBits = n := by
  have hpos : 0 < f.signUnit := Nat.two_pow_pos _
  rcases Nat.lt_or_ge n f.signUnit with hn | hn
  · simp [ofBits, toBits, Nat.div_eq_of_lt hn, Nat.mod_eq_of_lt hn]
  · have hdiv : n / f.signUnit = 1 := by
      rw [Nat.div_eq_iff hpos]
      omega
    have hmod : n % f.signUnit = n - f.signUnit := by
      rw [Nat.mod_eq_sub_mod hn, Nat.mod_eq_of_lt (by omega)]
    simp only [ofBits, toBits, hdiv, hmod]
    simp
    omega

/-- The quiet NaN pattern of `g` for the NaN pattern `p` of `f`: leading payload bits are kept. -/
def quietPat (f g : Format) (p : ℕ) : ℕ :=
  g.infBits + 2 ^ (g.mbits - 1) +
    (p % 2 ^ f.mbits * 2 ^ (g.mbits - f.mbits) / 2 ^ (f.mbits - g.mbits)) % 2 ^ (g.mbits - 1)

/-- The unsigned pattern of `g` for the unsigned pattern `p` of `f`, rounding to nearest even. -/
def convertPat (f g : Format) (p : ℕ) : ℕ :=
  if f.infBits < p then quietPat f g p
  else if p = f.infBits then g.infBits
  else min (nearest g (f.unit - g.unit) (mag f p * 2 ^ (g.unit - f.unit))) g.infBits

theorem quietPat_lt (f g : Format) (p : ℕ) : quietPat f g p < g.signUnit := by
  have h1 := Nat.mod_lt (p % 2 ^ f.mbits * 2 ^ (g.mbits - f.mbits) / 2 ^ (f.mbits - g.mbits))
    (Nat.two_pow_pos (g.mbits - 1))
  have h2 : 2 ^ g.mbits = 2 ^ (g.mbits - 1) * 2 := by
    rw [← pow_succ, Nat.sub_add_cancel g.mbits_pos]
  rw [quietPat, g.signUnit_eq]
  omega

theorem convertPat_lt (f g : Format) (p : ℕ) : convertPat f g p < g.signUnit := by
  unfold convertPat
  split_ifs
  · exact quietPat_lt f g p
  · exact g.infBits_lt
  · exact lt_of_le_of_lt (min_le_right _ _) g.infBits_lt

/-- Conversion between formats. -/
def convert (g : Format) (x : Value f) : Value g :=
  ⟨x.neg, convertPat f g x.pat, convertPat_lt f g x.pat⟩

/-- The value nearest to the integer `i`. -/
def ofInt (g : Format) (i : ℤ) : Value g :=
  ⟨decide (i < 0), min (nearest g 0 (i.natAbs * 2 ^ g.unit)) g.infBits,
    lt_of_le_of_lt (min_le_right _ _) g.infBits_lt⟩

/-- The integer part of a finite value. -/
def truncate (x : Value f) : Option ℤ :=
  if x.pat < f.infBits then
    let n := mag f x.pat / 2 ^ f.unit
    some (if x.neg then -(n : ℤ) else n)
  else none

/-- `x` is exactly the integer `i`. -/
def Represents (x : Value f) (i : ℤ) : Prop :=
  x.IsFinite ∧ mag f x.pat = i.natAbs * 2 ^ f.unit ∧ (i ≠ 0 → x.neg = decide (i < 0))

end Value

/-! ### Widening and narrowing -/

/-- `g` is wide enough to hold every number of `f`. -/
structure Wider (f g : Format) : Prop where
  mbits_le : f.mbits ≤ g.mbits
  unit_le : f.unit ≤ g.unit
  range : f.mbits + (2 ^ f.ebits - 2) + (g.unit - f.unit) ≤ g.mbits + (2 ^ g.ebits - 2)

theorem wider_32_64 : Wider binary32 binary64 := ⟨by decide, by decide, by decide⟩

namespace Value

variable {f g : Format}

/-- The pattern of a number of `f` in a wider format has the same value. -/
theorem mag_widen (h : Wider f g) (p : ℕ) :
    mag g (nearest g 0 (mag f p * 2 ^ (g.unit - f.unit))) = mag f p * 2 ^ (g.unit - f.unit) := by
  obtain ⟨a, b, ha, hab⟩ := mag_eq_short (f := f) p
  have hlt : a < 2 ^ (g.mbits + 1) :=
    ha.trans_le (Nat.pow_le_pow_right (by norm_num) (by have := h.mbits_le; omega))
  rw [hab, mul_assoc, ← pow_add]
  exact mag_nearest hlt

theorem widen_lt_infBits (h : Wider f g) {p : ℕ} (hp : p < f.infBits) :
    nearest g 0 (mag f p * 2 ^ (g.unit - f.unit)) < g.infBits := by
  rw [lt_infBits_iff, mag_widen h]
  calc mag f p * 2 ^ (g.unit - f.unit)
      < 2 ^ (f.mbits + (2 ^ f.ebits - 2)) * 2 ^ (g.unit - f.unit) :=
        Nat.mul_lt_mul_of_pos_right (lt_infBits_iff.mp hp) (Nat.two_pow_pos _)
    _ = 2 ^ (f.mbits + (2 ^ f.ebits - 2) + (g.unit - f.unit)) := (pow_add _ _ _).symm
    _ ≤ 2 ^ (g.mbits + (2 ^ g.ebits - 2)) := Nat.pow_le_pow_right (by norm_num) h.range

theorem convertPat_widen (h : Wider f g) {p : ℕ} (hp : p < f.infBits) :
    convertPat f g p = nearest g 0 (mag f p * 2 ^ (g.unit - f.unit)) := by
  rw [convertPat, if_neg (by omega), if_neg (by omega), Nat.sub_eq_zero_of_le h.unit_le,
    min_eq_left (widen_lt_infBits h hp).le]

theorem isFinite_convert (h : Wider f g) {x : Value f} (hx : x.IsFinite) :
    (convert g x).IsFinite := by
  show convertPat f g x.pat < g.infBits
  rw [convertPat_widen h hx]
  exact widen_lt_infBits h hx

/-- Neither widening nor narrowing makes a number of an infinity or a NaN. -/
theorem not_isFinite_convert {x : Value f} (hx : ¬ x.IsFinite) : ¬ (convert g x).IsFinite := by
  show ¬ convertPat f g x.pat < g.infBits
  unfold IsFinite at hx
  unfold convertPat
  split_ifs with h1 h2
  · rw [quietPat]
    omega
  · omega
  · omega

/-- **Narrowing undoes widening** on everything but NaNs. -/
theorem convert_convert (h : Wider f g) {x : Value f} (hx : ¬ x.IsNaN) :
    convert f (convert g x) = x := by
  have hpat : convertPat g f (convertPat f g x.pat) = x.pat := by
    rcases Nat.lt_or_ge x.pat f.infBits with hp | hp
    · have hlt := widen_lt_infBits h hp
      rw [convertPat_widen h hp, convertPat, if_neg (by omega), if_neg (by omega), mag_widen h,
        Nat.sub_eq_zero_of_le h.unit_le, pow_zero, Nat.mul_one, nearest_mag, min_eq_left hp.le]
    · have heq : x.pat = f.infBits := by
        unfold IsNaN at hx
        omega
      rw [heq]
      simp [convertPat]
  exact Value.ext rfl hpat

/-! ### Integers -/

/-- An integer that some value of the format represents is converted exactly. -/
theorem represents_ofInt {x : Value f} {i : ℤ} (h : x.Represents i) :
    (ofInt f i).Represents i := by
  obtain ⟨hfin, hmag, -⟩ := h
  have hpat : (ofInt f i).pat = x.pat := by
    show min (nearest f 0 (i.natAbs * 2 ^ f.unit)) f.infBits = x.pat
    have hn := nearest_mag (f := f) 0 x.pat
    rw [pow_zero, Nat.mul_one] at hn
    rw [← hmag, hn, min_eq_left (le_of_lt hfin)]
  exact ⟨by rw [IsFinite, hpat]; exact hfin, by rw [hpat, hmag], fun _ => rfl⟩

/-- A value that is exactly an integer is truncated to it. -/
theorem truncate_of_represents {x : Value f} {i : ℤ} (h : x.Represents i) :
    x.truncate = some i := by
  obtain ⟨hfin, hmag, hneg⟩ := h
  have hdiv : mag f x.pat / 2 ^ f.unit = i.natAbs := by
    rw [hmag, Nat.mul_div_cancel _ (Nat.two_pow_pos _)]
  simp only [truncate, if_pos (show x.pat < f.infBits from hfin), hdiv, Option.some.injEq]
  rcases Int.lt_trichotomy i 0 with hi | rfl | hi
  · rw [hneg (by omega), if_pos (by simpa using hi)]
    omega
  · simp
  · rw [hneg (by omega), if_neg (by simp; omega)]
    omega

/-- Integers of at most `mbits + 1` bits are represented. -/
theorem represents_of_lt {i : ℤ} (hi : i.natAbs < 2 ^ (f.mbits + 1))
    (hrange : f.mbits + 1 + f.unit ≤ f.mbits + (2 ^ f.ebits - 2)) : (ofInt f i).Represents i := by
  have hm : mag f (nearest f 0 (i.natAbs * 2 ^ f.unit)) = i.natAbs * 2 ^ f.unit := mag_nearest hi
  have hlt : nearest f 0 (i.natAbs * 2 ^ f.unit) < f.infBits := by
    rw [lt_infBits_iff, hm]
    calc i.natAbs * 2 ^ f.unit < 2 ^ (f.mbits + 1) * 2 ^ f.unit :=
          Nat.mul_lt_mul_of_pos_right hi (Nat.two_pow_pos _)
      _ = 2 ^ (f.mbits + 1 + f.unit) := (pow_add _ _ _).symm
      _ ≤ 2 ^ (f.mbits + (2 ^ f.ebits - 2)) := Nat.pow_le_pow_right (by norm_num) hrange
  have hpat : (ofInt f i).pat = nearest f 0 (i.natAbs * 2 ^ f.unit) := min_eq_left hlt.le
  exact ⟨by rw [IsFinite, hpat]; exact hlt, by rw [hpat, hm], fun _ => rfl⟩

end Value

end BinaryFloat
