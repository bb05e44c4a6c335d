import KserveClient.Tensor

/-!
# KserveClient.IntegerRange — integers beyond the range of their datatype

A JSON value `Holds` an integer in any of the three number types of the library.  Each integer datatype
has a `range`; the conversions of its branch are exact inside, and throw nowhere (`KeepsRange`).

* `Datatype.keepsRange`: every integer datatype keeps its range.
* `decodeTensorData_inRange`: an array inside the range is decoded, and encodes back to the same numbers.
* `decodeTensorData_integers_iff`: exactly these arrays are treated as `KeepsIntegers` says.
-/

namespace KserveClient

open BinaryFloat LittleEndian Json

/-! ### Integers in a tree -/

/-- `j` is a number whose value is `i`. -/
def Json.Holds (i : ℤ) : Json → Prop
  | .integer k => MachineInt.num k = i
  | .unsigned n => MachineInt.num n = i
  | .float x => x.Represents i
  | _ => False

section Get

variable {α β : Type} [MachineInt α] [MachineInt β] {i : ℤ} {j : Json}

/-- Reading an integer as a `β`: reduced to the width of `β`, and for a `double` beyond it undefined. -/
theorem getNumber_holds (h : j.Holds i) :
    (getNumber j : Outcome β) = .ok (MachineInt.wrap i) ∨
      ¬ (MachineInt.lo β ≤ i ∧ i < MachineInt.hi β) ∧
        (getNumber j : Outcome β) = .undefined .conversion := by
  cases j with
  | integer k => exact .inl (congrArg (fun i => Outcome.ok (MachineInt.wrap i)) h)
  | unsigned n => exact .inl (congrArg (fun i => Outcome.ok (MachineInt.wrap i)) h)
  | float x =>
    have hcast : (getNumber (.float x) : Outcome β) =
        if MachineInt.lo β ≤ i ∧ i < MachineInt.hi β then .ok (MachineInt.wrap i)
        else .undefined .conversion := cast_of_truncate (Value.truncate_of_represents h)
    rw [hcast]
    by_cases hrange : MachineInt.lo β ≤ i ∧ i < MachineInt.hi β
    · exact .inl (if_pos hrange)
    · exact .inr ⟨hrange, if_neg hrange⟩
  | _ => exact absurd h id

/-- Reading a number does not depend on whether booleans are read as well. -/
theorem getArithmetic_holds (h : j.Holds i) : (getArithmetic j : Outcome β) = getNumber j := by
  cases j with
  | boolean b => exact absurd h id
  | _ => rfl

end Get

/-! ### The integer datatypes -/

/-- The numbers of an integer datatype: from the first bound on, and below the second. -/
def Datatype.range : Datatype → Option (ℤ × ℤ)
  | INT8 => some (-2 ^ 7, 2 ^ 7)
  | INT16 => some (-2 ^ 15, 2 ^ 15)
  | INT32 => some (-2 ^ 31, 2 ^ 31)
  | INT64 => some (-2 ^ 63, 2 ^ 63)
  | UINT8 => some (0, 2 ^ 8)
  | UINT16 => some (0, 2 ^ 16)
  | UINT32 => some (0, 2 ^ 32)
  | UINT64 => some (0, 2 ^ 64)
  | _ => none

/-- The branches of a datatype keep the numbers from `lo` to below `hi`, and throw on no number. -/
structure KeepsRange {α : Type} (write : Json → Outcome α) (read : α → Json) (lo hi : ℤ) : Prop where
  holds : ∀ i j, Json.Holds i j → lo ≤ i → i < hi → ∃ v, write j = .ok v ∧ (read v).Holds i
  no_throw : ∀ i j, Json.Holds i j → ∀ e, write j ≠ .throws e

theorem holds_int32 (v : Int32) : (toJson v).Holds (MachineInt.num v) :=
  MachineInt.num_convert (by decide) v

theorem holds_uint32 (v : UInt32) : (toJson v).Holds (MachineInt.num v) :=
  MachineInt.num_convert (by decide) v

section Branches

variable {α β : Type} [MachineInt α] [MachineInt β]

theorem narrow_wrap (hfits : MachineInt.Fits α β) (i : ℤ) (hlo : MachineInt.lo α ≤ i)
    (hhi : i < MachineInt.hi α) :
    MachineInt.convert α (MachineInt.wrap i : β) = MachineInt.wrap i := by
  unfold MachineInt.convert
  rw [MachineInt.num_wrap i (hfits.1.trans hlo) (hhi.trans_le hfits.2)]

variable [ToJson β] [Get β]

/-- A branch that reads a `β` and narrows it to the element type `α`. -/
theorem keepsRange_branch {wide : α → β} {narrow : β → α}
    (hfits : MachineInt.Fits α β) (hget : ∀ i j, Json.Holds i j → j.get β = getNumber j)
    (hnarrow : ∀ i, MachineInt.lo α ≤ i → i < MachineInt.hi α →
      narrow (MachineInt.wrap i) = MachineInt.wrap i)
    (hread : ∀ v, (toJson (wide v)).Holds (MachineInt.num v)) :
    KeepsRange (fun e => narrow <$> e.get β) (fun v => toJson (wide v))
      (MachineInt.lo α) (MachineInt.hi α) := by
  refine ⟨fun i j h hlo hhi => ?_, fun i j h e => ?_⟩
  · rw [hget i j h]
    rcases @getNumber_holds β _ i j h with hok | ⟨hout, -⟩
    · refine ⟨MachineInt.wrap i, ?_, ?_⟩
      · rw [hok, Outcome.map_ok, hnarrow i hlo hhi]
      · have hheld := hread (MachineInt.wrap i)
        rwa [MachineInt.num_wrap i hlo hhi] at hheld
    · exact absurd ⟨hfits.1.trans hlo, hhi.trans_le hfits.2⟩ hout
  · rw [hget i j h]
    rcases @getNumber_holds β _ i j h with hok | ⟨-, hundefined⟩
    · rw [hok]
      exact fun he => by cases he
    · rw [hundefined]
      exact fun he => by cases he

end Branches

section Widths

variable {α β : Type} [MachineInt α] [MachineInt β] [ToJson β] [Get β]

/-- A branch that goes through a wider type, in both directions. -/
theorem keepsRange_narrow (hfits : MachineInt.Fits α β)
    (hget : ∀ i j, Json.Holds i j → j.get β = getNumber j)
    (hread : ∀ v : β, (toJson v).Holds (MachineInt.num v)) :
    KeepsRange (fun e => MachineInt.convert α <$> e.get β) (fun v => toJson (MachineInt.convert β v))
      (MachineInt.lo α) (MachineInt.hi α) := by
  refine keepsRange_branch hfits hget (narrow_wrap hfits) fun v => ?_
  rw [← MachineInt.num_convert hfits v]
  exact hread _

/-- A branch that stores the number as it is read. -/
theorem keepsRange_exact (hget : ∀ i j, Json.Holds i j → j.get β = getNumber j)
    (hread : ∀ v : β, (toJson v).Holds (MachineInt.num v)) :
    KeepsRange (fun e => id <$> e.get β) (fun v : β => toJson (id v))
      (MachineInt.lo β) (MachineInt.hi β) :=
  keepsRange_branch ⟨le_rfl, le_rfl⟩ hget (fun _ _ _ => rfl) hread

end Widths

/-- **Every integer datatype keeps its range.** -/
theorem Datatype.keepsRange {d : Datatype} {lo hi : ℤ} (hd : d.range = some (lo, hi)) :
    KeepsRange d.codec.write d.codec.read lo hi := by
  cases d with
  | INT8 =>
    cases hd
    exact @keepsRange_narrow Int8 Int32 _ _ _ _ (by decide) (fun _ _ => getArithmetic_holds) holds_int32
  | INT16 =>
    cases hd
    exact @keepsRange_narrow Int16 Int32 _ _ _ _ (by decide) (fun _ _ => getArithmetic_holds) holds_int32
  | INT32 =>
    cases hd
    exact @keepsRange_exact Int32 _ _ _ (fun _ _ => getArithmetic_holds) holds_int32
  | INT64 =>
    cases hd
    exact @keepsRange_exact Int64 _ _ _ (fun _ _ _ => rfl) fun _ => rfl
  | UINT8 =>
    cases hd
    exact @keepsRange_narrow UInt8 UInt32 _ _ _ _ (by decide) (fun _ _ => getArithmetic_holds) holds_uint32
  | UINT16 =>
    cases hd
    exact @keepsRange_narrow UInt16 UInt32 _ _ _ _ (by decide) (fun _ _ => getArithmetic_holds) holds_uint32
  | UINT32 =>
    cases hd
    exact @keepsRange_exact UInt32 _ _ _ (fun _ _ => getArithmetic_holds) holds_uint32
  | UINT64 =>
    cases hd
    exact @keepsRange_exact UInt64 _ _ _ (fun _ _ _ => rfl) fun _ => rfl
  | _ => cases hd

/-! ### A whole array -/

section Arrays

variable {α : Type} {write : Json → Outcome α} {read : α → Json} {lo hi : ℤ} {values : List ℤ}
  {items : List Json}

/-- The elements that are written hold the numbers that were read. -/
theorem KeepsRange.mapM (hkeep : KeepsRange write read lo hi)
    (h : List.Forall₂ Json.Holds values items)
    (hin : ∀ i ∈ values, lo ≤ i ∧ i < hi) :
    ∃ vs, items.mapM write = .ok vs ∧
      List.Forall₂ Json.Holds values (vs.map read) := by
  induction h with
  | nil => exact ⟨[], rfl, .nil⟩
  | @cons i j values items hij _ ih =>
    obtain ⟨hlo, hhi⟩ := hin i List.mem_cons_self
    obtain ⟨v, hv, hread⟩ := hkeep.holds i j hij hlo hhi
    obtain ⟨vs, hvs, hall⟩ := ih fun k hk => hin k (List.mem_cons_of_mem _ hk)
    refine ⟨v :: vs, ?_, .cons hread hall⟩
    rw [List.mapM_cons, hv, Outcome.ok_bind, hvs]
    rfl

theorem holds_of_mem (h : List.Forall₂ Json.Holds values items) : ∀ j ∈ items, ∃ i, Json.Holds i j := by
  induction h with
  | nil => exact fun _ hj => absurd hj List.not_mem_nil
  | cons hij _ ih =>
    intro j hj
    rcases List.mem_cons.mp hj with rfl | hj
    · exact ⟨_, hij⟩
    · exact ih j hj

/-- No array of numbers makes the branch throw. -/
theorem KeepsRange.mapM_no_throw (hkeep : KeepsRange write read lo hi)
    (h : List.Forall₂ Json.Holds values items) :
    ¬ ∃ e, items.mapM write = .throws e := by
  intro hthrows
  obtain ⟨before, j, after, hsplit, -, e, he⟩ := Outcome.mapM_throws_iff.mp hthrows
  have hmem : j ∈ items := by
    rw [hsplit]
    exact List.mem_append_right _ List.mem_cons_self
  obtain ⟨i, hij⟩ := holds_of_mem h j hmem
  exact hkeep.no_throw i j hij e he

end Arrays

variable {d : Datatype} {lo hi : ℤ} {values : List ℤ} {items : List Json}

/-- **Inside the range nothing is lost**: the array is decoded, and encodes back to the same numbers. -/
theorem decodeTensorData_inRange (hd : d.range = some (lo, hi))
    (h : List.Forall₂ Json.Holds values items)
    (hin : ∀ i ∈ values, lo ≤ i ∧ i < hi) :
    ∃ bytes out, decodeTensorData (.array items) d.tag = .ok bytes ∧
      encodeTensorData bytes d.tag = .ok (.array out) ∧
      List.Forall₂ Json.Holds values out := by
  obtain ⟨vs, hvs, hout⟩ := (Datatype.keepsRange hd).mapM h hin
  refine ⟨layout vs, vs.map d.codec.read, ?_, ?_, hout⟩
  · rw [d.codec.decode_eq, hvs, Outcome.map_ok]
  · rw [d.codec.encode_eq, elements_layout, if_neg]
    rw [length_layout, Nat.mul_mod_left]
    exact not_not_intro rfl

/-- What a caller may expect of the array `items` of the integers `values`: whatever is decoded encodes
back to the same numbers, and an element outside the range makes the call throw. -/
def KeepsIntegers (d : Datatype) (lo hi : ℤ) (values : List ℤ) (items : List Json) : Prop :=
  (∀ bytes, decodeTensorData (.array items) d.tag = .ok bytes → ∃ out,
      encodeTensorData bytes d.tag = .ok (.array out) ∧
      List.Forall₂ Json.Holds values out) ∧
    ((∃ i ∈ values, ¬ (lo ≤ i ∧ i < hi)) → ∃ e, decodeTensorData (.array items) d.tag = .throws e)

/-- **The arrays whose integers are kept** are those inside the range of the datatype: no element outside
it makes `decodeTensorData` throw. -/
theorem decodeTensorData_integers_iff (d : Datatype) (lo hi : ℤ) (hd : d.range = some (lo, hi))
    (values : List ℤ) (items : List Json)
    (h : List.Forall₂ Json.Holds values items) :
    KeepsIntegers d lo hi values items ↔ ∀ i ∈ values, lo ≤ i ∧ i < hi := by
  constructor
  · intro hkeep i hi
    by_contra hout
    obtain ⟨e, he⟩ := hkeep.2 ⟨i, hi, hout⟩
    rw [d.codec.decode_eq] at he
    exact (Datatype.keepsRange hd).mapM_no_throw h (Outcome.map_throws_iff.mp ⟨e, he⟩)
  · intro hin
    obtain ⟨bytes, out, hdecode, hencode, hout⟩ := decodeTensorData_inRange hd h hin
    refine ⟨fun bytes' hbytes' => ?_, ?_⟩
    · rw [hdecode] at hbytes'
      cases hbytes'
      exact ⟨out, hencode, hout⟩
    · rintro ⟨i, hi, hnot⟩
      exact absurd (hin i hi) hnot

/-- Both ends of `INT8`. -/
theorem decodeTensorData_integers_ends :
    KeepsIntegers .INT8 (-2 ^ 7) (2 ^ 7) [-128, 127] [.integer (-128), .unsigned 127] ∧
      decodeTensorData (.array [.integer (-128), .unsigned 127]) (str "INT8") = .ok [0x80, 0x7F] := by
  refine ⟨?_, rfl⟩
  have hholds : List.Forall₂ Json.Holds [-128, 127] [.integer (-128), .unsigned 127] :=
    .cons (show MachineInt.num (-128 : Int64) = -128 from rfl)
      (.cons (show MachineInt.num (127 : UInt64) = 127 from rfl) .nil)
  apply (decodeTensorData_integers_iff .INT8 (-2 ^ 7) (2 ^ 7) rfl _ _ hholds).mpr
  intro i hi
  rcases List.mem_cons.mp hi with rfl | hi
  · decide
  · rw [List.mem_singleton.mp hi]
    decide

/-- `300` is stored in an `INT8` tensor as `44`. -/
theorem decodeTensorData_wraps :
    Json.Holds 300 (.unsigned 300) ∧
      decodeTensorData (.array [.unsigned 300]) (str "INT8") = .ok [44] ∧
      encodeTensorData [44] (str "INT8") = .ok (.array [.integer 44]) ∧
      ¬ KeepsIntegers .INT8 (-2 ^ 7) (2 ^ 7) [300] [.unsigned 300] := by
  refine ⟨rfl, rfl, rfl, fun hkeep => ?_⟩
  obtain ⟨e, he⟩ := hkeep.2 ⟨300, List.mem_singleton_self _, by decide⟩
  cases he

end KserveClient
