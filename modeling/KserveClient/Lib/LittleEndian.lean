import Mathlib.Algebra.Order.Group.Nat
import Mathlib.Data.List.TakeDrop
import Mathlib.Tactic.Ring
import Mathlib.Tactic.NormNum

/-!
# LittleEndian — fixed-width values as little-endian bytes

`Pod α` says that the values of `α` are laid out in `Pod.size α` bytes, every byte string of that
length being the layout of exactly one value: a trivially copyable type on a little-endian host.
The machine integers are instances through `Pod.ofWord`.

`elements α bytes` is the array of `α` that a buffer holds, and `layout xs` the buffer of an array;
`layout_elements` says that a buffer of whole elements is the layout of its array.
-/

namespace LittleEndian

/-- The `w` little-endian bytes of `n`. -/
def ofNat : ℕ → ℕ → List UInt8
  | 0, _ => []
  | w + 1, n => UInt8.ofNat (n % 256) :: ofNat w (n / 256)

/-- The number with the given little-endian bytes. -/
def toNat : List UInt8 → ℕ
  | [] => 0
  | b :: bs => b.toNat + 256 * toNat bs

@[simp] theorem length_ofNat (w n : ℕ) : (ofNat w n).length = w := by
  induction w generalizing n with
  | zero => rfl
  | succ w ih => simp [ofNat, ih]

theorem toNat_ofNat {w n : ℕ} (h : n < 256 ^ w) : toNat (ofNat w n) = n := by
  induction w generalizing n with
  | zero => simp at h; simp [ofNat, toNat, h]
  | succ w ih =>
    have hd : n / 256 < 256 ^ w := by rw [pow_succ] at h; omega
    rw [ofNat, toNat, ih hd]
    simp
    omega

theorem toNat_lt (bs : List UInt8) : toNat bs < 256 ^ bs.length := by
  induction bs with
  | nil => simp [toNat]
  | cons b bs ih =>
    have := b.toNat_lt
    rw [toNat, List.length_cons, pow_succ]
    omega

theorem ofNat_toNat (bs : List UInt8) : ofNat bs.length (toNat bs) = bs := by
  induction bs with
  | nil => rfl
  | cons b bs ih =>
    have hb := b.toNat_lt
    have h1 : (b.toNat + 256 * toNat bs) % 256 = b.toNat := by omega
    have h2 : (b.toNat + 256 * toNat bs) / 256 = toNat bs := by omega
    rw [List.length_cons, toNat, ofNat, h1, h2, ih, UInt8.ofNat_toNat]

/-- Values laid out in a fixed number of bytes, one value for each byte string of that length. -/
class Pod (α : Type) where
  size : ℕ
  toBytes : α → List UInt8
  ofBytes : List UInt8 → α
  size_pos : 0 < size
  length_toBytes : ∀ a, (toBytes a).length = size
  ofBytes_toBytes : ∀ a, ofBytes (toBytes a) = a
  toBytes_ofBytes : ∀ bs, bs.length = size → toBytes (ofBytes bs) = bs

/-- A type of `w`-byte words is laid out by its number. -/
@[reducible] def Pod.ofWord {α : Type} (w : ℕ) (hw : 0 < w) (num : α → ℕ) (mk : ℕ → α)
    (hnum : ∀ a, num a < 256 ^ w) (hmk : ∀ a, mk (num a) = a)
    (hnm : ∀ n < 256 ^ w, num (mk n) = n) : Pod α where
  size := w
  toBytes a := ofNat w (num a)
  ofBytes bs := mk (toNat bs)
  size_pos := hw
  length_toBytes a := length_ofNat w _
  ofBytes_toBytes a := by rw [toNat_ofNat (hnum a), hmk]
  toBytes_ofBytes bs hbs := by
    rw [hnm _ (hbs ▸ toNat_lt bs), ← hbs, ofNat_toNat]

instance : Pod UInt8 := .ofWord 1 (by norm_num) UInt8.toNat UInt8.ofNat
  (fun a => a.toNat_lt) (fun a => UInt8.ofNat_toNat) (fun _ h => UInt8.toNat_ofNat_of_lt h)

instance : Pod UInt16 := .ofWord 2 (by norm_num) UInt16.toNat UInt16.ofNat
  (fun a => a.toNat_lt) (fun a => UInt16.ofNat_toNat) (fun _ h => UInt16.toNat_ofNat_of_lt h)

instance : Pod UInt32 := .ofWord 4 (by norm_num) UInt32.toNat UInt32.ofNat
  (fun a => a.toNat_lt) (fun a => UInt32.ofNat_toNat) (fun _ h => UInt32.toNat_ofNat_of_lt h)

instance : Pod UInt64 := .ofWord 8 (by norm_num) UInt64.toNat UInt64.ofNat
  (fun a => a.toNat_lt) (fun a => UInt64.ofNat_toNat) (fun _ h => UInt64.toNat_ofNat_of_lt h)

instance : Pod Int8 := .ofWord 1 (by norm_num) (fun a => a.toUInt8.toNat)
  (fun n => (UInt8.ofNat n).toInt8) (fun a => a.toUInt8.toNat_lt)
  (fun a => by rw [UInt8.ofNat_toNat]; rfl) (fun _ h => UInt8.toNat_ofNat_of_lt h)

instance : Pod Int16 := .ofWord 2 (by norm_num) (fun a => a.toUInt16.toNat)
  (fun n => (UInt16.ofNat n).toInt16) (fun a => a.toUInt16.toNat_lt)
  (fun a => by rw [UInt16.ofNat_toNat]; rfl) (fun _ h => UInt16.toNat_ofNat_of_lt h)

instance : Pod Int32 := .ofWord 4 (by norm_num) (fun a => a.toUInt32.toNat)
  (fun n => (UInt32.ofNat n).toInt32) (fun a => a.toUInt32.toNat_lt)
  (fun a => by rw [UInt32.ofNat_toNat]; rfl) (fun _ h => UInt32.toNat_ofNat_of_lt h)

instance : Pod Int64 := .ofWord 8 (by norm_num) (fun a => a.toUInt64.toNat)
  (fun n => (UInt64.ofNat n).toInt64) (fun a => a.toUInt64.toNat_lt)
  (fun a => by rw [UInt64.ofNat_toNat]; rfl) (fun _ h => UInt64.toNat_ofNat_of_lt h)

/-! ### Arrays -/

section Arrays

variable (α : Type) [Pod α]

/-- The `i`-th element of the array of `α` held in `bytes`. -/
def element (bytes : List UInt8) (i : ℕ) : α :=
  Pod.ofBytes ((bytes.drop (i * Pod.size α)).take (Pod.size α))

/-- The array of `α` held in `bytes`. -/
def elements (bytes : List UInt8) : List α :=
  (List.range (bytes.length / Pod.size α)).map (element α bytes)

variable {α}

/-- The buffer of an array. -/
def layout (xs : List α) : List UInt8 := xs.flatMap Pod.toBytes

@[simp] theorem layout_nil : layout ([] : List α) = [] := rfl

@[simp] theorem layout_cons (x : α) (xs : List α) : layout (x :: xs) = Pod.toBytes x ++ layout xs :=
  rfl

@[simp] theorem layout_append (xs ys : List α) : layout (xs ++ ys) = layout xs ++ layout ys := by
  simp [layout]

@[simp] theorem length_layout (xs : List α) : (layout xs).length = xs.length * Pod.size α := by
  induction xs with
  | nil => simp
  | cons x xs ih =>
    simp only [layout_cons, List.length_append, Pod.length_toBytes, ih, List.length_cons]
    ring

theorem length_elements (bytes : List UInt8) :
    (elements α bytes).length = bytes.length / Pod.size α := by
  simp [elements]

theorem elements_append {b rest : List UInt8} (hb : b.length = Pod.size α) :
    elements α (b ++ rest) = Pod.ofBytes b :: elements α rest := by
  have hpos := Pod.size_pos (α := α)
  have hdiv : (b ++ rest).length / Pod.size α = rest.length / Pod.size α + 1 := by
    rw [List.length_append, hb, Nat.add_div_left _ hpos]
  unfold elements
  rw [hdiv, List.range_succ_eq_map, List.map_cons, List.map_map]
  congr 1
  · simp [element, ← hb]
  · refine List.map_congr_left fun i _ => ?_
    have hidx : (i + 1) * Pod.size α = b.length + i * Pod.size α := by rw [hb]; ring
    simp only [Function.comp_apply, Nat.succ_eq_add_one, element, hidx, ← List.drop_drop,
      List.drop_left]

/-- An array is read back from its buffer. -/
theorem elements_layout (xs : List α) : elements α (layout xs) = xs := by
  induction xs with
  | nil => simp [elements]
  | cons x xs ih => rw [layout_cons, elements_append (Pod.length_toBytes x), Pod.ofBytes_toBytes, ih]

/-- A buffer of whole elements is the layout of its array. -/
theorem layout_elements {bytes : List UInt8} (h : bytes.length % Pod.size α = 0) :
    layout (elements α bytes) = bytes := by
  have hpos := Pod.size_pos (α := α)
  induction hn : bytes.length / Pod.size α generalizing bytes with
  | zero =>
    have hlt : bytes.length < Pod.size α := by
      rcases Nat.div_eq_zero_iff.mp hn with h0 | h0
      · omega
      · exact h0
    rw [Nat.mod_eq_of_lt hlt] at h
    have hnil := List.eq_nil_of_length_eq_zero h
    subst hnil
    simp [elements]
  | succ n ih =>
    have hle : Pod.size α ≤ bytes.length := by
      by_contra hlt
      rw [Nat.div_eq_of_lt (by omega)] at hn
      omega
    have htake : (bytes.take (Pod.size α)).length = Pod.size α := by
      rw [List.length_take]; omega
    have hsplit : bytes = bytes.take (Pod.size α) ++ bytes.drop (Pod.size α) :=
      (List.take_append_drop _ _).symm
    have hlen : (bytes.drop (Pod.size α)).length = bytes.length - Pod.size α := List.length_drop
    rw [hsplit, elements_append htake, layout_cons, Pod.toBytes_ofBytes _ htake]
    congr 1
    apply ih
    · rw [hlen, ← Nat.mod_eq_sub_mod hle, h]
    · have hdiv := Nat.div_eq_sub_div hpos hle
      rw [hlen]
      omega

end Arrays

end LittleEndian
