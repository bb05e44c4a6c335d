import KserveClient.Lib.Numeral
import KserveClient.Lib.BinaryFloat

/-!
# RealText — reading floating-point numbers from ASCII text

`readReal s` is what the C function `strtod` finds at the start of `s` in the C locale: leading white
space, an optional sign, and then a word for infinity or a NaN, a hexadecimal number behind `0x`, or a
decimal number, both with an optional point and exponent.  A number is returned as an exact fraction;
`nearestRatio f n d` is the pattern of the format `f` nearest to `n / d`.

* `readReal_pos`: the denominator of a fraction is positive.
* `nearestRatio_exact`: a fraction that is a number of the format is not rounded.
-/

namespace Numeral

/-- The number that stands at the start of a text, without its sign; `ratio n d` is `n / d`. -/
inductive Reading where
  | infinite
  | nan
  | ratio (n d : ℕ)
deriving DecidableEq

/-- `s` starts with the letters and digits of `w`, in any case. -/
def startsWord (w s : List UInt8) : Bool := (s.take w.length).map digitVal == w.map digitVal

/-- The digits before and behind an optional point, and what follows them. -/
def splitPoint (b : ℕ) (s : List UInt8) : List UInt8 × List UInt8 × List UInt8 :=
  let whole := s.takeWhile (isDigit b)
  match s.dropWhile (isDigit b) with
  | [] => (whole, [], [])
  | c :: t =>
    if c = 46 then (whole, t.takeWhile (isDigit b), t.dropWhile (isDigit b)) else (whole, [], c :: t)

/-- The exponent behind the letter `mark`; without digits there is none. -/
def readExponent (mark : UInt8) : List UInt8 → ℤ
  | [] => 0
  | c :: s =>
    if digitVal c = digitVal mark then
      let (neg, t) := splitSign s
      let n : ℤ := value 10 (t.takeWhile (isDigit 10))
      if neg then -n else n
    else 0

/-- Digits of base `b` with a point; the exponent behind `mark` counts powers of `radix`, of which a digit
is worth `shift`. -/
def readScaled (b : ℕ) (mark : UInt8) (radix shift : ℕ) (s : List UInt8) : Option Reading :=
  let (whole, frac, rest) := splitPoint b s
  let n := value b (whole ++ frac)
  let e := readExponent mark rest - shift * frac.length
  if whole ++ frac = [] then none
  else if 0 ≤ e then some (.ratio (n * radix ^ e.toNat) 1)
  else some (.ratio n (radix ^ (-e).toNat))

/-- `"0x"` and a hexadecimal number with a binary exponent. -/
def readHex (s : List UInt8) : Option Reading :=
  if startsWord [48, 120] s then readScaled 16 112 2 4 (s.drop 2) else none

/-- The number at the start of a text without blanks and sign. -/
def readUnsigned (s : List UInt8) : Option Reading :=
  if startsWord [105, 110, 102] s then some .infinite
  else if startsWord [110, 97, 110] s then some .nan
  else (readHex s).or (readScaled 10 101 10 1 s)

/-- Sign and value of the floating-point number at the start of `s`. -/
def readReal (s : List UInt8) : Option (Bool × Reading) :=
  let (neg, t) := splitSign (s.dropWhile isSpace)
  (readUnsigned t).map fun r => (neg, r)

theorem readScaled_pos {b : ℕ} {mark : UInt8} {radix shift n d : ℕ} {s : List UInt8} (hradix : 0 < radix)
    (h : readScaled b mark radix shift s = some (.ratio n d)) : 0 < d := by
  unfold readScaled at h
  dsimp only at h
  split_ifs at h with hnone hexp
  · cases h
    exact Nat.one_pos
  · cases h
    exact Nat.pow_pos hradix

theorem readUnsigned_pos {n d : ℕ} {s : List UInt8} (h : readUnsigned s = some (.ratio n d)) : 0 < d := by
  unfold readUnsigned at h
  by_cases hinf : startsWord [105, 110, 102] s
  · rw [if_pos hinf] at h
    cases h
  rw [if_neg hinf] at h
  by_cases hnan : startsWord [110, 97, 110] s
  · rw [if_pos hnan] at h
    cases h
  rw [if_neg hnan] at h
  rcases Option.or_eq_some_iff.mp h with hhex | ⟨-, hdecimal⟩
  · unfold readHex at hhex
    split_ifs at hhex
    exact readScaled_pos Nat.two_pos hhex
  · exact readScaled_pos Nat.ofNat_pos hdecimal

/-- A fraction that is read has a positive denominator. -/
theorem readReal_pos {neg : Bool} {n d : ℕ} {s : List UInt8}
    (h : readReal s = some (neg, .ratio n d)) : 0 < d := by
  obtain ⟨reading, hreading, heq⟩ := Option.map_eq_some_iff.mp h
  obtain ⟨-, rfl⟩ := Prod.mk.inj heq
  exact readUnsigned_pos hreading

end Numeral

namespace BinaryFloat

variable {f : Format}

/-- The pattern nearest to `n / d`, ties to even (no upper limit): one bit below the unit and one bit for
what is left of the division are enough to decide. -/
def nearestRatio (f : Format) (n d : ℕ) : ℕ :=
  let N := n * 2 ^ (f.unit + 1)
  nearest f 2 (2 * (N / d) + if d ∣ N then 0 else 1)

/-- **A number of the format is not rounded.** -/
theorem nearestRatio_exact {n d p : ℕ} (hd : 0 < d) (h : n * 2 ^ f.unit = mag f p * d) :
    nearestRatio f n d = p := by
  have hN : n * 2 ^ (f.unit + 1) = mag f p * 2 * d := by
    rw [pow_succ, ← Nat.mul_assoc, h]
    ring
  have hdvd : d ∣ n * 2 ^ (f.unit + 1) := by
    rw [hN]
    exact Nat.dvd_mul_left d _
  have hquot : n * 2 ^ (f.unit + 1) / d = mag f p * 2 := by rw [hN, Nat.mul_div_cancel _ hd]
  unfold nearestRatio
  dsimp only
  rw [hquot, if_pos hdvd, show 2 * (mag f p * 2) + 0 = mag f p * 2 ^ 2 by ring]
  exact nearest_mag 2 p

end BinaryFloat
