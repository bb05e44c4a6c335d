import Mathlib.Algebra.Order.Ring.Int
import Mathlib.Tactic.NormNum

/-!
# MachineInt — fixed-width integer types and their conversions

`MachineInt α` gives the value `num : α → ℤ` of a fixed-width integer, its range `lo ≤ · < hi`, and
the conversion `wrap` from an integer (reduction modulo `2 ^ w`).  A conversion between two such types
is `wrap ∘ num`; it is undone by the conversion back whenever the range of the first type is inside
the range of the second (`wrap_num_wrap`).
-/

/-- A fixed-width integer type. -/
class MachineInt (α : Type) where
  num : α → ℤ
  wrap : ℤ → α
  lo : ℤ
  hi : ℤ
  wrap_num : ∀ a, wrap (num a) = a
  num_wrap : ∀ i, lo ≤ i → i < hi → num (wrap i) = i
  lo_le : ∀ a, lo ≤ num a
  lt_hi : ∀ a, num a < hi

namespace MachineInt

instance : MachineInt Int8 where
  num := Int8.toInt
  wrap := Int8.ofInt
  lo := -2 ^ 7
  hi := 2 ^ 7
  wrap_num := Int8.ofInt_toInt
  num_wrap _ := Int8.toInt_ofInt_of_le
  lo_le := Int8.le_toInt
  lt_hi := Int8.toInt_lt

instance : MachineInt Int16 where
  num := Int16.toInt
  wrap := Int16.ofInt
  lo := -2 ^ 15
  hi := 2 ^ 15
  wrap_num := Int16.ofInt_toInt
  num_wrap _ := Int16.toInt_ofInt_of_le
  lo_le := Int16.le_toInt
  lt_hi := Int16.toInt_lt

instance : MachineInt Int32 where
  num := Int32.toInt
  wrap := Int32.ofInt
  lo := -2 ^ 31
  hi := 2 ^ 31
  wrap_num := Int32.ofInt_toInt
  num_wrap _ := Int32.toInt_ofInt_of_le
  lo_le := Int32.le_toInt
  lt_hi := Int32.toInt_lt

instance : MachineInt Int64 where
  num := Int64.toInt
  wrap := Int64.ofInt
  lo := -2 ^ 63
  hi := 2 ^ 63
  wrap_num := Int64.ofInt_toInt
  num_wrap _ := Int64.toInt_ofInt_of_le
  lo_le := Int64.le_toInt
  lt_hi := Int64.toInt_lt

/-- Reduction of an integer already in range. -/
theorem toNat_emod_of_range {i m : ℤ} (h0 : 0 ≤ i) (h1 : i < m) : ((i % m).toNat : ℤ) = i := by
  rw [Int.emod_eq_of_lt h0 h1, Int.toNat_of_nonneg h0]

instance : MachineInt UInt8 where
  num a := a.toNat
  wrap i := UInt8.ofInt i
  lo := 0
  hi := 2 ^ 8
  wrap_num a := by
    have h := toNat_emod_of_range (i := a.toNat) (m := 2 ^ 8) (by omega) (by
      have := a.toNat_lt; omega)
    rw [UInt8.ofInt, Int.natCast_inj.mp h, UInt8.ofNat_toNat]
  num_wrap i h0 h1 := by
    have h := toNat_emod_of_range h0 h1
    rw [UInt8.ofInt, UInt8.toNat_ofNat_of_lt' (by rw [UInt8.size]; omega), h]
  lo_le _ := by omega
  lt_hi a := by have := a.toNat_lt; omega

instance : MachineInt UInt16 where
  num a := a.toNat
  wrap i := UInt16.ofInt i
  lo := 0
  hi := 2 ^ 16
  wrap_num a := by
    have h := toNat_emod_of_range (i := a.toNat) (m := 2 ^ 16) (by omega) (by
      have := a.toNat_lt; omega)
    rw [UInt16.ofInt, Int.natCast_inj.mp h, UInt16.ofNat_toNat]
  num_wrap i h0 h1 := by
    have h := toNat_emod_of_range h0 h1
    rw [UInt16.ofInt, UInt16.toNat_ofNat_of_lt' (by rw [UInt16.size]; omega), h]
  lo_le _ := by omega
  lt_hi a := by have := a.toNat_lt; omega

instance : MachineInt UInt32 where
  num a := a.toNat
  wrap i := UInt32.ofInt i
  lo := 0
  hi := 2 ^ 32
  wrap_num a := by
    have h := toNat_emod_of_range (i := a.toNat) (m := 2 ^ 32) (by omega) (by
      have := a.toNat_lt; omega)
    rw [UInt32.ofInt, Int.natCast_inj.mp h, UInt32.ofNat_toNat]
  num_wrap i h0 h1 := by
    have h := toNat_emod_of_range h0 h1
    rw [UInt32.ofInt, UInt32.toNat_ofNat_of_lt' (by rw [UInt32.size]; omega), h]
  lo_le _ := by omega
  lt_hi a := by have := a.toNat_lt; omega

instance : MachineInt UInt64 where
  num a := a.toNat
  wrap i := UInt64.ofInt i
  lo := 0
  hi := 2 ^ 64
  wrap_num a := by
    have h := toNat_emod_of_range (i := a.toNat) (m := 2 ^ 64) (by omega) (by
      have := a.toNat_lt; omega)
    rw [UInt64.ofInt, Int.natCast_inj.mp h, UInt64.ofNat_toNat]
  num_wrap i h0 h1 := by
    have h := toNat_emod_of_range h0 h1
    rw [UInt64.ofInt, UInt64.toNat_ofNat_of_lt' (by rw [UInt64.size]; omega), h]
  lo_le _ := by omega
  lt_hi a := by have := a.toNat_lt; omega

variable {α β : Type} [MachineInt α] [MachineInt β]

/-- Integer conversion: reduction modulo the width of the target. -/
def convert (β : Type) [MachineInt β] (a : α) : β := wrap (num a)

/-- The range of `α` lies inside the range of `β`. -/
def Fits (α β : Type) [MachineInt α] [MachineInt β] : Prop :=
  lo β ≤ lo α ∧ hi α ≤ hi β

instance : Decidable (Fits α β) := inferInstanceAs (Decidable (_ ∧ _))

theorem num_convert (h : Fits α β) (a : α) : num (convert β a) = num a :=
  num_wrap _ (h.1.trans (lo_le a)) ((lt_hi a).trans_le h.2)

/-- **Widening is undone by narrowing.** -/
theorem convert_convert (h : Fits α β) (a : α) : convert α (convert β a) = a := by
  rw [convert, num_convert h, wrap_num]

end MachineInt
