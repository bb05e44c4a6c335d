import Mathlib.Data.Nat.Digits.Defs
import Mathlib.Data.List.TakeWhile

/-!
# Numeral — reading and writing integers as ASCII text

`readInt b s` is what the C family `strtol` / `strtoul` reads at the start of `s` in base `b`: leading
white space, an optional sign, for base 16 an optional `0x`, then the longest run of digits.  It
returns the sign and the magnitude, or `none` when there is no digit; ranges are the caller's.
`toDecimal` writes a natural number in base 10.

`readInt_digits` is the reading of a plain digit run in any context that does not continue it,
`readInt_append` says when the context does not matter at all, and `value_toDecimal` is the round trip with
the writer.
-/

namespace Numeral

/-- White space of the C locale (`isspace`). -/
def isSpace (c : UInt8) : Bool := c == 32 || (9 ≤ c && c ≤ 13)

/-- The value of an alphanumeric character as a digit; every other character is out of range. -/
def digitVal (c : UInt8) : ℕ :=
  if 48 ≤ c ∧ c ≤ 57 then c.toNat - 48
  else if 97 ≤ c ∧ c ≤ 122 then c.toNat - 87
  else if 65 ≤ c ∧ c ≤ 90 then c.toNat - 55
  else 255

/-- `c` is a digit of base `b`. -/
def isDigit (b : ℕ) (c : UInt8) : Bool := digitVal c < b

/-- The number written by the digits `ds`, most significant first. -/
def value (b : ℕ) (ds : List UInt8) : ℕ := Nat.ofDigits b (ds.map digitVal).reverse

/-- Splits off an optional sign; `true` is a minus. -/
def splitSign : List UInt8 → Bool × List UInt8
  | [] => (false, [])
  | c :: s => if c = 45 then (true, s) else if c = 43 then (false, s) else (false, c :: s)

/-- Drops `0x` in base 16 when a digit follows it. -/
def dropHexMark (b : ℕ) : List UInt8 → List UInt8
  | c :: x :: d :: s =>
    if b = 16 ∧ c = 48 ∧ (x = 120 ∨ x = 88) ∧ isDigit 16 d then d :: s else c :: x :: d :: s
  | s => s

/-- Sign and magnitude of the integer at the start of `s` in base `b`. -/
def readInt (b : ℕ) (s : List UInt8) : Option (Bool × ℕ) :=
  let (neg, t) := splitSign (s.dropWhile isSpace)
  let ds := (dropHexMark b t).takeWhile (isDigit b)
  if ds = [] then none else some (neg, value b ds)

/-- The decimal text of `n`. -/
def toDecimal (n : ℕ) : List UInt8 :=
  if n = 0 then [48] else ((Nat.digits 10 n).map fun d => UInt8.ofNat (48 + d)).reverse

/-! ### Digits -/

theorem not_isSpace_of_isDigit {b : ℕ} {c : UInt8} (hb : b ≤ 255) (h : isDigit b c) :
    isSpace c = false := by
  by_contra hs
  simp only [Bool.not_eq_false, isSpace, Bool.or_eq_true, beq_iff_eq, Bool.and_eq_true,
    decide_eq_true_eq, UInt8.le_iff_toNat_le] at hs
  simp only [isDigit, digitVal, decide_eq_true_eq, UInt8.le_iff_toNat_le] at h
  rcases hs with rfl | hs
  · simp at h; omega
  · simp at hs h
    split_ifs at h <;> omega

theorem isDigit_ne {b : ℕ} {c : UInt8} (hb : b ≤ 255) (h : isDigit b c) : c ≠ 45 ∧ c ≠ 43 := by
  constructor <;> rintro rfl <;> simp [isDigit, digitVal] at h <;> omega

theorem value_lt {b : ℕ} (hb : 1 < b) {ds : List UInt8} (hds : ∀ d ∈ ds, isDigit b d) :
    value b ds < b ^ ds.length := by
  have hlen : (ds.map digitVal).reverse.length = ds.length := by simp
  rw [← hlen]
  apply Nat.ofDigits_lt_base_pow_length hb
  intro x hx
  rw [List.mem_reverse, List.mem_map] at hx
  obtain ⟨d, hd, rfl⟩ := hx
  simpa [isDigit] using hds d hd

theorem digitVal_ofNat : ∀ d < 10, digitVal (UInt8.ofNat (48 + d)) = d := by decide

/-! ### Reading a digit run -/

theorem takeWhile_run {p : UInt8 → Bool} {ds rest : List UInt8} (hds : ∀ d ∈ ds, p d)
    (hrest : ∀ c ∈ rest.head?, p c = false) : (ds ++ rest).takeWhile p = ds := by
  rw [List.takeWhile_append_of_pos hds]
  cases rest with
  | nil => simp
  | cons c rest => simp [hrest c (by simp)]

theorem dropWhile_run {p : UInt8 → Bool} {bs rest : List UInt8} (hbs : ∀ c ∈ bs, p c)
    (hrest : ∀ c ∈ rest.head?, p c = false) : (bs ++ rest).dropWhile p = rest := by
  rw [List.dropWhile_append_of_pos hbs]
  cases rest with
  | nil => rfl
  | cons c rest => simp [hrest c (by simp)]

/-- The hexadecimal mark needs an `x`, which a digit run does not contain. -/
theorem dropHexMark_run {b : ℕ} (hb : b ≤ 16) {ds rest : List UInt8} (hne : ds ≠ [])
    (hds : ∀ d ∈ ds, isDigit b d) (hrest : ∀ c ∈ rest.head?, c ≠ 120 ∧ c ≠ 88) :
    dropHexMark b (ds ++ rest) = ds ++ rest := by
  have hx : ∀ x : UInt8, isDigit b x → x ≠ 120 ∧ x ≠ 88 := by
    intro x hx
    constructor <;> rintro rfl <;> simp [isDigit, digitVal] at hx <;> omega
  obtain ⟨c, ds, rfl⟩ := List.exists_cons_of_ne_nil hne
  rcases h : ds ++ rest with _ | ⟨x, _ | ⟨d, s⟩⟩
  · simp [h, dropHexMark]
  · simp [h, dropHexMark]
  · rw [List.cons_append, h, dropHexMark, if_neg]
    rintro ⟨-, -, hx', -⟩
    have hxne : x ≠ 120 ∧ x ≠ 88 := by
      cases ds with
      | nil => exact hrest x (by rw [List.nil_append] at h; simp [h])
      | cons y ds =>
        obtain ⟨rfl, -⟩ := List.cons_eq_cons.mp h
        exact hx y (hds y (by simp))
    rcases hx' with rfl | rfl <;> simp at hxne

/-- **A digit run is read as its value**, whatever blanks stand before it and whatever follows it,
as long as that does not continue the number. -/
theorem readInt_digits {b : ℕ} (hb : b ≤ 16) {bs ds rest : List UInt8}
    (hbs : ∀ c ∈ bs, isSpace c) (hne : ds ≠ []) (hds : ∀ d ∈ ds, isDigit b d)
    (hrest : ∀ c ∈ rest.head?, isDigit b c = false ∧ c ≠ 120 ∧ c ≠ 88) :
    readInt b (bs ++ ds ++ rest) = some (false, value b ds) := by
  have hdrop : (bs ++ ds ++ rest).dropWhile isSpace = ds ++ rest := by
    rw [List.append_assoc]
    refine dropWhile_run hbs fun c hc => ?_
    obtain ⟨d, ds, rfl⟩ := List.exists_cons_of_ne_nil hne
    rw [List.cons_append, List.head?_cons, Option.mem_some] at hc
    exact not_isSpace_of_isDigit (by omega) (hds c (by simp [hc]))
  have hsign : splitSign (ds ++ rest) = (false, ds ++ rest) := by
    obtain ⟨d, ds, rfl⟩ := List.exists_cons_of_ne_nil hne
    have := isDigit_ne (by omega) (hds d (by simp))
    rw [List.cons_append, splitSign, if_neg this.1, if_neg this.2]
  unfold readInt
  rw [hdrop, hsign]
  simp only
  rw [dropHexMark_run hb hne hds fun c hc => (hrest c hc).2,
    takeWhile_run hds fun c hc => (hrest c hc).1, if_neg hne]

/-! ### Reading in context -/

/-- In bases other than 16 there is no mark. -/
theorem dropHexMark_of_ne {b : ℕ} (hb : b ≠ 16) (s : List UInt8) : dropHexMark b s = s := by
  unfold dropHexMark
  split
  · exact if_neg fun h => hb h.1
  · rfl

/-- Blanks at the start do not matter. -/
theorem readInt_blanks {b : ℕ} {bs : List UInt8} (hbs : ∀ c ∈ bs, isSpace c) (s : List UInt8) :
    readInt b (bs ++ s) = readInt b s := by
  have hdrop : (bs ++ s).dropWhile isSpace = s.dropWhile isSpace := List.dropWhile_append_of_pos hbs
  rw [readInt, hdrop, readInt]

theorem splitSign_append {s : List UInt8} (hs : s ≠ []) (t : List UInt8) :
    splitSign (s ++ t) = ((splitSign s).1, (splitSign s).2 ++ t) := by
  obtain ⟨c, s, rfl⟩ := List.exists_cons_of_ne_nil hs
  rw [List.cons_append, splitSign, splitSign]
  split_ifs <;> rfl

theorem takeWhile_append_stop {p : UInt8 → Bool} (s : List UInt8) {t : List UInt8}
    (ht : ∀ c ∈ t.head?, p c = false) : (s ++ t).takeWhile p = s.takeWhile p := by
  induction s with
  | nil =>
    cases t with
    | nil => rfl
    | cons c t => exact List.takeWhile_cons_of_neg (by rw [ht c rfl]; exact Bool.false_ne_true)
  | cons c s ih =>
    rw [List.cons_append]
    by_cases hc : p c = true
    · rw [List.takeWhile_cons_of_pos hc, List.takeWhile_cons_of_pos hc, ih]
    · rw [List.takeWhile_cons_of_neg hc, List.takeWhile_cons_of_neg hc]

/-- **The number at the start of a text that is not blank** does not depend on what follows, if that does
not go on with a digit. -/
theorem readInt_append {b : ℕ} (hb : b ≠ 16) {s rest : List UInt8} (hs : s.all isSpace = false)
    (hrest : ∀ c ∈ rest.head?, isDigit b c = false) : readInt b (s ++ rest) = readInt b s := by
  have hne : s.dropWhile isSpace ≠ [] := by
    rw [Ne, List.dropWhile_eq_nil_iff]
    intro hall
    rw [List.all_eq_true.mpr hall] at hs
    cases hs
  have hdrop : (s ++ rest).dropWhile isSpace = s.dropWhile isSpace ++ rest := by
    rw [List.dropWhile_append, if_neg]
    rwa [List.isEmpty_iff]
  unfold readInt
  rw [hdrop, splitSign_append hne]
  simp only [dropHexMark_of_ne hb]
  rw [takeWhile_append_stop _ hrest]

/-- Letters that have the same value are read alike. -/
theorem readInt_map {b : ℕ} (hb : b ≠ 16) {f : UInt8 → UInt8} (hspace : ∀ c, isSpace (f c) = isSpace c)
    (hsign : ∀ c, (f c = 45 ↔ c = 45) ∧ (f c = 43 ↔ c = 43)) (hdigit : ∀ c, digitVal (f c) = digitVal c)
    (s : List UInt8) : readInt b (s.map f) = readInt b s := by
  have hdrop : (s.map f).dropWhile isSpace = (s.dropWhile isSpace).map f := by
    rw [List.dropWhile_map]
    congr 2
    exact funext hspace
  have hsplit : ∀ t : List UInt8, splitSign (t.map f) = ((splitSign t).1, (splitSign t).2.map f) := by
    intro t
    cases t with
    | nil => rfl
    | cons c t =>
      rw [List.map_cons, splitSign, splitSign]
      simp only [(hsign c).1, (hsign c).2]
      split_ifs <;> rfl
  have htake : ∀ t : List UInt8, (t.map f).takeWhile (isDigit b) = (t.takeWhile (isDigit b)).map f := by
    intro t
    rw [List.takeWhile_map]
    congr 2
    funext c
    show isDigit b (f c) = isDigit b c
    rw [isDigit, hdigit, isDigit]
  have hvalue : ∀ ds : List UInt8, value b (ds.map f) = value b ds := by
    intro ds
    rw [value, List.map_map, value]
    congr 3
    exact funext hdigit
  unfold readInt
  rw [hdrop, hsplit]
  simp only [dropHexMark_of_ne hb, htake, List.map_eq_nil_iff, hvalue]

/-! ### Writing -/

theorem toDecimal_ne_nil (n : ℕ) : toDecimal n ≠ [] := by
  unfold toDecimal
  split_ifs with h
  · simp
  · simpa using Nat.digits_ne_nil_iff_ne_zero.mpr h

theorem isDigit_of_mem_toDecimal {n : ℕ} {c : UInt8} (h : c ∈ toDecimal n) : isDigit 10 c := by
  unfold toDecimal at h
  split_ifs at h with h0
  · rw [List.mem_singleton] at h
    subst h
    decide
  · rw [List.mem_reverse, List.mem_map] at h
    obtain ⟨d, hd, rfl⟩ := h
    have := Nat.digits_lt_base (by norm_num) hd
    rw [isDigit, digitVal_ofNat d this]
    simpa using this

theorem value_toDecimal (n : ℕ) : value 10 (toDecimal n) = n := by
  unfold toDecimal
  split_ifs with h0
  · subst h0
    rfl
  · have hmap : (Nat.digits 10 n).map (fun d => digitVal (UInt8.ofNat (48 + d))) = Nat.digits 10 n := by
      conv_rhs => rw [← List.map_id (Nat.digits 10 n)]
      exact List.map_congr_left fun d hd => digitVal_ofNat d (Nat.digits_lt_base (by norm_num) hd)
    rw [value, List.map_reverse, List.reverse_reverse, List.map_map]
    exact (congrArg (Nat.ofDigits 10) hmap).trans (Nat.ofDigits_digits 10 n)

end Numeral
