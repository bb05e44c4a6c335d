import KserveClient.Lib.BinaryFloat
import KserveClient.Lib.LittleEndian
import KserveClient.Lib.MachineInt
import KserveClient.Outcome

/-!
# KserveClient.Scalar — the arithmetic types of the client and `static_cast` between them

`float` and `double` are IEEE binary32 and binary64 values.  `StaticCast α β` is `static_cast<β>` from
an `α`: integers reduce modulo the width of the target, a floating value is truncated and is
undefined behaviour outside the range of the integer type, floating types round to nearest.
-/

namespace KserveClient

open BinaryFloat LittleEndian

/-- `float` -/
abbrev F32 := Value binary32

/-- `double` -/
abbrev F64 := Value binary64

theorem two_mul_signUnit_32 : 2 * binary32.signUnit = 256 ^ 4 := by decide

theorem two_mul_signUnit_64 : 2 * binary64.signUnit = 256 ^ 8 := by decide

instance : Pod F32 := .ofWord 4 (by decide) Value.toBits (Value.ofBits binary32)
  (fun a => a.toBits_lt.trans_eq two_mul_signUnit_32) Value.ofBits_toBits
  (fun _ h => Value.toBits_ofBits (h.trans_eq two_mul_signUnit_32.symm))

instance : Pod F64 := .ofWord 8 (by decide) Value.toBits (Value.ofBits binary64)
  (fun a => a.toBits_lt.trans_eq two_mul_signUnit_64) Value.ofBits_toBits
  (fun _ h => Value.toBits_ofBits (h.trans_eq two_mul_signUnit_64.symm))

/-- `static_cast<β>` of an `α`. -/
class StaticCast (α β : Type) where
  cast : α → Outcome β

section Casts

variable {α β : Type} [MachineInt α] [MachineInt β] {f : Format}

instance : StaticCast α β := ⟨fun a => .ok (MachineInt.convert β a)⟩

instance : StaticCast Bool β := ⟨fun b => .ok (MachineInt.wrap (if b then 1 else 0))⟩

instance : StaticCast (Value f) β where
  cast x :=
    match x.truncate with
    | some i =>
      if MachineInt.lo β ≤ i ∧ i < MachineInt.hi β then .ok (MachineInt.wrap i)
      else .undefined .conversion
    | none => .undefined .conversion

instance : StaticCast α (Value f) := ⟨fun a => .ok (.ofInt f (MachineInt.num a))⟩

instance : StaticCast Bool (Value f) := ⟨fun b => .ok (.ofInt f (if b then 1 else 0))⟩

instance : StaticCast (Value f) (Value f) := ⟨.ok⟩

instance : StaticCast F32 F64 := ⟨fun x => .ok (x.convert binary64)⟩

instance : StaticCast F64 F32 := ⟨fun x => .ok (x.convert binary32)⟩

/-- Narrowing after widening, for integer types. -/
theorem cast_convert (h : MachineInt.Fits α β) (a : α) :
    StaticCast.cast (MachineInt.convert β a) = Outcome.ok a :=
  congrArg Outcome.ok (MachineInt.convert_convert h a)

/-- Narrowing after widening, for `float` values that are not NaN. -/
theorem cast_widen {x : F32} (hx : ¬ x.IsNaN) :
    StaticCast.cast (x.convert binary64) = Outcome.ok x :=
  congrArg Outcome.ok (Value.convert_convert wider_32_64 hx)

/-- A floating value is cast to an integer or has no cast. -/
theorem cast_float_cases (x : Value f) :
    (∃ a : α, StaticCast.cast x = Outcome.ok a) ∨
      (StaticCast.cast x : Outcome α) = .undefined .conversion := by
  dsimp only [StaticCast.cast]
  cases x.truncate with
  | none => exact .inr rfl
  | some i =>
    dsimp only
    split_ifs
    · exact .inl ⟨_, rfl⟩
    · exact .inr rfl

/-- The cast of a floating value with the integer part `i`. -/
theorem cast_of_truncate {x : Value f} {i : ℤ} (h : x.truncate = some i) :
    (StaticCast.cast x : Outcome α) =
      if MachineInt.lo α ≤ i ∧ i < MachineInt.hi α then .ok (MachineInt.wrap i)
      else .undefined .conversion := by
  dsimp only [StaticCast.cast]
  rw [h]

/-- A floating value that is exactly a value of an integer type is cast to it. -/
theorem cast_of_represents {x : Value f} {a : α} (h : x.Represents (MachineInt.num a)) :
    StaticCast.cast x = Outcome.ok a := by
  rw [cast_of_truncate (Value.truncate_of_represents h),
    if_pos ⟨MachineInt.lo_le a, MachineInt.lt_hi a⟩, MachineInt.wrap_num]

end Casts

end KserveClient
