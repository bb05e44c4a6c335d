import KserveClient.Scalar
import Mathlib.Data.List.Pairwise

/-!
# KserveClient.Json — JSON values and the accessors the client uses

`Json` is the tree that `nlohmann::json` holds, with its three number types; an object keeps its
members sorted by key.  The accessors follow the library's documentation: which of them throw and
with which `type_error`, and that the `const` `operator[]` needs the key to be there.  The text
functions `dump` and `parse` are a parameter, `JsonLib`; `JsonLib.Documented` is what the library
promises about them.

* `get_toJson`: an arithmetic value put into a tree is read back.
* `reparsed`: the tree that comes back from the text of a tree.
-/

namespace KserveClient

open BinaryFloat

inductive Json where
  | null
  | boolean (b : Bool)
  | integer (i : Int64)
  | unsigned (n : UInt64)
  | float (x : F64)
  | string (s : Bytes)
  | array (items : List Json)
  | object (members : List (Bytes × Json))

namespace Json

/-! ### Comparing -/

mutual

def beq : Json → Json → Bool
  | .null, .null => true
  | .boolean a, .boolean b => a == b
  | .integer a, .integer b => a == b
  | .unsigned a, .unsigned b => a == b
  | .float a, .float b => decide (a = b)
  | .string a, .string b => a == b
  | .array as, .array bs => beqItems as bs
  | .object as, .object bs => beqMembers as bs
  | _, _ => false

def beqItems : List Json → List Json → Bool
  | [], [] => true
  | a :: as, b :: bs => beq a b && beqItems as bs
  | _, _ => false

def beqMembers : List (Bytes × Json) → List (Bytes × Json) → Bool
  | [], [] => true
  | (k, a) :: as, (l, b) :: bs => k == l && beq a b && beqMembers as bs
  | _, _ => false

end

mutual

theorem eq_of_beq : ∀ {a b : Json}, beq a b → a = b
  | .null, .null, _ => rfl
  | .boolean a, .boolean b, h => by simp_all [beq]
  | .integer a, .integer b, h => by simp_all [beq]
  | .unsigned a, .unsigned b, h => by simp_all [beq]
  | .float a, .float b, h => by simp_all [beq]
  | .string a, .string b, h => by simp_all [beq]
  | .array as, .array bs, h => by
    rw [beq] at h
    rw [eq_of_beqItems h]
  | .object as, .object bs, h => by
    rw [beq] at h
    rw [eq_of_beqMembers h]

theorem eq_of_beqItems : ∀ {as bs : List Json}, beqItems as bs → as = bs
  | [], [], _ => rfl
  | a :: as, b :: bs, h => by
    rw [beqItems, Bool.and_eq_true] at h
    rw [eq_of_beq h.1, eq_of_beqItems h.2]

theorem eq_of_beqMembers : ∀ {as bs : List (Bytes × Json)}, beqMembers as bs → as = bs
  | [], [], _ => rfl
  | (k, a) :: as, (l, b) :: bs, h => by
    rw [beqMembers, Bool.and_eq_true, Bool.and_eq_true, beq_iff_eq] at h
    rw [h.1.1, eq_of_beq h.1.2, eq_of_beqMembers h.2]

end

mutual

theorem beq_self : ∀ a : Json, beq a a
  | .null | .boolean _ | .integer _ | .unsigned _ | .float _ | .string _ => by simp [beq]
  | .array as => by
    rw [beq]
    exact beqItems_self as
  | .object as => by
    rw [beq]
    exact beqMembers_self as

theorem beqItems_self : ∀ as : List Json, beqItems as as
  | [] => rfl
  | a :: as => by rw [beqItems, beq_self a, beqItems_self as]; rfl

theorem beqMembers_self : ∀ as : List (Bytes × Json), beqMembers as as
  | [] => rfl
  | (k, a) :: as => by rw [beqMembers, beq_self a, beqMembers_self as, beq_self_eq_true]; rfl

end

instance : DecidableEq Json := fun a b =>
  decidable_of_iff (beq a b) ⟨eq_of_beq, fun h => h ▸ beq_self a⟩

/-! ### Putting values in -/

/-- The implicit conversion of a value to `nlohmann::json`. -/
class ToJson (α : Type) where
  toJson : α → Json

export ToJson (toJson)

instance : ToJson Bool := ⟨.boolean⟩
instance : ToJson Int32 := ⟨fun i => .integer (MachineInt.convert Int64 i)⟩
instance : ToJson Int64 := ⟨.integer⟩
instance : ToJson UInt32 := ⟨fun n => .unsigned (MachineInt.convert UInt64 n)⟩
instance : ToJson UInt64 := ⟨.unsigned⟩
instance : ToJson F32 := ⟨fun x => .float (x.convert binary64)⟩
instance : ToJson F64 := ⟨.float⟩
instance : ToJson Bytes := ⟨.string⟩
instance : ToJson (List Int64) := ⟨fun dims => .array (dims.map .integer)⟩

/-- The order of the keys of an object (`std::less<std::string>`). -/
def keyLt : Bytes → Bytes → Bool
  | _, [] => false
  | [], _ :: _ => true
  | a :: s, b :: t => a < b || (a == b && keyLt s t)

/-- Sets the member `key` of a sorted member list. -/
def insertMember (key : Bytes) (v : Json) : List (Bytes × Json) → List (Bytes × Json)
  | [] => [(key, v)]
  | (k, w) :: ms =>
    if key = k then (key, v) :: ms
    else if keyLt key k then (key, v) :: (k, w) :: ms
    else (k, w) :: insertMember key v ms

/-- `j[key] = v`, which turns a null into an object. -/
def assign (j : Json) (key : Bytes) (v : Json) : Outcome Json :=
  match j with
  | .null => .ok (.object (insertMember key v []))
  | .object members => .ok (.object (insertMember key v members))
  | _ => .throws (.jsonTypeError 305)

/-! ### Looking values up -/

def isArray : Json → Bool
  | .array _ => true
  | _ => false

/-- `j.contains(key)`: false on everything but an object. -/
def contains (j : Json) (key : Bytes) : Bool :=
  match j with
  | .object members => (members.lookup key).isSome
  | _ => false

/-- `j[key]` on a `const` value: the key must be there. -/
def subscript (j : Json) (key : Bytes) : Outcome Json :=
  match j with
  | .object members =>
    match members.lookup key with
    | some v => .ok v
    | none => .undefined .missingKey
  | _ => .throws (.jsonTypeError 305)

/-- The values a `for (const auto &e : j)` goes through. -/
def elements : Json → List Json
  | .null => []
  | .array items => items
  | .object members => members.map Prod.snd
  | j => [j]

/-- `j.get<α>()` -/
class Get (α : Type) where
  get : Json → Outcome α

/-- `get` for the number types of the library itself. -/
def getNumber {α : Type} [StaticCast Int64 α] [StaticCast UInt64 α] [StaticCast F64 α] :
    Json → Outcome α
  | .integer i => StaticCast.cast i
  | .unsigned n => StaticCast.cast n
  | .float x => StaticCast.cast x
  | _ => .throws (.jsonTypeError 302)

/-- `get` for every other arithmetic type, which takes a boolean too. -/
def getArithmetic {α : Type} [StaticCast Int64 α] [StaticCast UInt64 α] [StaticCast F64 α]
    [StaticCast Bool α] : Json → Outcome α
  | .boolean b => StaticCast.cast b
  | j => getNumber j

instance : Get Int64 := ⟨getNumber⟩
instance : Get UInt64 := ⟨getNumber⟩
instance : Get F64 := ⟨getNumber⟩
instance : Get Int32 := ⟨getArithmetic⟩
instance : Get UInt32 := ⟨getArithmetic⟩
instance : Get F32 := ⟨getArithmetic⟩

instance : Get Bytes where
  get
    | .string s => .ok s
    | _ => .throws (.jsonTypeError 302)

/-- `j.get<α>()` -/
def get (α : Type) [Get α] (j : Json) : Outcome α := Get.get j

/-- `j.value(key, default)` with a string default. -/
def value (j : Json) (key default : Bytes) : Outcome Bytes :=
  match j with
  | .object members =>
    match members.lookup key with
    | some v => v.get Bytes
    | none => .ok default
  | _ => .throws (.jsonTypeError 306)

/-! ### Reading back what was put in -/

section Reading

variable {α : Type} [MachineInt α]

@[simp] theorem get_string (s : Bytes) : (Json.string s).get Bytes = .ok s := rfl

@[simp] theorem get_integer (i : Int64) : (Json.integer i).get Int64 = .ok i :=
  congrArg Outcome.ok (MachineInt.wrap_num i)

theorem get_toJson_int32 (i : Int32) : (toJson i).get Int32 = .ok i :=
  cast_convert (by decide) i

theorem get_toJson_uint32 (n : UInt32) : (toJson n).get UInt32 = .ok n :=
  cast_convert (by decide) n

theorem get_toJson_int64 (i : Int64) : (toJson i).get Int64 = .ok i := get_integer i

theorem get_toJson_uint64 (n : UInt64) : (toJson n).get UInt64 = .ok n :=
  congrArg Outcome.ok (MachineInt.wrap_num n)

theorem get_toJson_f32 {x : F32} (hx : ¬ x.IsNaN) : (toJson x).get F32 = .ok x := cast_widen hx

theorem get_toJson_f64 (x : F64) : (toJson x).get F64 = .ok x := rfl

end Reading

/-! ### Text -/

mutual

/-- The tree that the text of a tree is parsed to: a non-negative integer comes back as unsigned,
and a number that is not finite is written as `null`. -/
def reparsed : Json → Json
  | .integer i => if i < 0 then .integer i else .unsigned (MachineInt.convert UInt64 i)
  | .float x => if x.IsFinite then .float x else .null
  | .array items => .array (reparsedItems items)
  | .object members => .object (reparsedMembers members)
  | j => j

def reparsedItems : List Json → List Json
  | [] => []
  | j :: js => reparsed j :: reparsedItems js

def reparsedMembers : List (Bytes × Json) → List (Bytes × Json)
  | [] => []
  | (key, j) :: ms => (key, reparsed j) :: reparsedMembers ms

end

end Json

/-- The text functions of the JSON library. -/
structure JsonLib where
  dump : Json → Outcome Bytes
  parse : Bytes → Outcome Json

/-- What the library documents: the text it writes is read back. -/
def JsonLib.Documented (lib : JsonLib) : Prop :=
  ∀ j text, lib.dump j = .ok text → lib.parse text = .ok j.reparsed

namespace Json

@[simp] theorem reparsedItems_eq (items : List Json) : reparsedItems items = items.map reparsed := by
  induction items with
  | nil => rw [reparsedItems, List.map_nil]
  | cons j js ih => rw [reparsedItems, ih, List.map_cons]

@[simp] theorem reparsedMembers_eq (members : List (Bytes × Json)) :
    reparsedMembers members = members.map fun m => (m.1, m.2.reparsed) := by
  induction members with
  | nil => rw [reparsedMembers, List.map_nil]
  | cons m ms ih =>
    obtain ⟨key, j⟩ := m
    rw [reparsedMembers, ih, List.map_cons]

@[simp] theorem reparsed_array (items : List Json) :
    (Json.array items).reparsed = .array (items.map reparsed) := by
  rw [reparsed, reparsedItems_eq]

@[simp] theorem reparsed_object (members : List (Bytes × Json)) :
    (Json.object members).reparsed = .object (members.map fun m => (m.1, m.2.reparsed)) := by
  rw [reparsed, reparsedMembers_eq]

@[simp] theorem reparsed_string (s : Bytes) : (Json.string s).reparsed = .string s := by
  rw [reparsed] <;> simp

@[simp] theorem reparsed_unsigned (n : UInt64) : (Json.unsigned n).reparsed = .unsigned n := by
  rw [reparsed] <;> simp

@[simp] theorem reparsed_boolean (b : Bool) : (Json.boolean b).reparsed = .boolean b := by
  rw [reparsed] <;> simp

/-- A member is found in the text where it was in the tree. -/
theorem lookup_reparsed (members : List (Bytes × Json)) (key : Bytes) :
    (members.map fun m => (m.1, m.2.reparsed)).lookup key = (members.lookup key).map reparsed := by
  induction members with
  | nil => rfl
  | cons m ms ih =>
    rw [List.map_cons, List.lookup_cons, List.lookup_cons]
    cases key == m.1 with
    | true => rfl
    | false => exact ih

/-- An integer is read back whatever number type it comes back as. -/
theorem getNumber_reparsed_integer {α : Type} [MachineInt α] (i : Int64) :
    getNumber (Json.integer i).reparsed = Outcome.ok (MachineInt.convert α i) := by
  rw [reparsed]
  split_ifs with h
  · rfl
  · have hpos : 0 ≤ i.toInt := by
      rw [Int64.lt_iff_toInt_lt] at h
      simpa using h
    have hnum : MachineInt.num (MachineInt.convert UInt64 i) = MachineInt.num i :=
      MachineInt.num_wrap _ hpos ((MachineInt.lt_hi i).trans (by decide))
    exact congrArg (Outcome.ok ∘ MachineInt.wrap) hnum

theorem getArithmetic_reparsed_integer {α : Type} [MachineInt α] (i : Int64) :
    getArithmetic (Json.integer i).reparsed = Outcome.ok (MachineInt.convert α i) := by
  rw [← getNumber_reparsed_integer, reparsed]
  split_ifs <;> rfl

theorem get_reparsed_int32 (i : Int32) : (toJson i).reparsed.get Int32 = .ok i :=
  (getArithmetic_reparsed_integer _).trans (cast_convert (by decide) i)

theorem get_reparsed_int64 (i : Int64) : (toJson i).reparsed.get Int64 = .ok i :=
  (getNumber_reparsed_integer i).trans (congrArg Outcome.ok (MachineInt.wrap_num i))

theorem get_reparsed_uint32 (n : UInt32) : (toJson n).reparsed.get UInt32 = .ok n :=
  (congrArg (fun j => j.get UInt32) (reparsed_unsigned _)).trans (get_toJson_uint32 n)

theorem get_reparsed_uint64 (n : UInt64) : (toJson n).reparsed.get UInt64 = .ok n :=
  (congrArg (fun j => j.get UInt64) (reparsed_unsigned n)).trans (get_toJson_uint64 n)

theorem reparsed_float {x : F64} (hx : x.IsFinite) : (Json.float x).reparsed = .float x := by
  rw [reparsed, if_pos hx]

/-- A number that is not finite is lost in the text. -/
theorem reparsed_float_not {x : F64} (hx : ¬ x.IsFinite) : (Json.float x).reparsed = .null := by
  rw [reparsed, if_neg hx]

theorem get_reparsed_f64 {x : F64} (hx : x.IsFinite) : (toJson x).reparsed.get F64 = .ok x :=
  congrArg (fun j => j.get F64) (reparsed_float hx)

theorem get_reparsed_f64_not {x : F64} (hx : ¬ x.IsFinite) :
    (toJson x).reparsed.get F64 = .throws (.jsonTypeError 302) :=
  congrArg (fun j => j.get F64) (reparsed_float_not hx)

theorem get_reparsed_f32 {x : F32} (hx : x.IsFinite) : (toJson x).reparsed.get F32 = .ok x :=
  (congrArg (fun j => j.get F32) (reparsed_float (Value.isFinite_convert wider_32_64 hx))).trans
    (get_toJson_f32 hx.not_isNaN)

theorem get_reparsed_f32_not {x : F32} (hx : ¬ x.IsFinite) :
    (toJson x).reparsed.get F32 = .throws (.jsonTypeError 302) :=
  congrArg (fun j => j.get F32) (reparsed_float_not (Value.not_isFinite_convert hx))

/-! ### Integers of either number type -/

/-- `j` is the number `i`, held as an integer of either sign. -/
def IsInt (i : ℤ) : Json → Prop
  | .integer k => MachineInt.num k = i
  | .unsigned n => MachineInt.num n = i
  | _ => False

theorem IsInt.get_int64 {i : ℤ} {j : Json} (h : IsInt i j) : j.get Int64 = .ok (Int64.ofInt i) := by
  cases j with
  | integer k => exact congrArg (fun i => Outcome.ok (Int64.ofInt i)) h
  | unsigned n => exact congrArg (fun i => Outcome.ok (Int64.ofInt i)) h
  | _ => exact absurd h id

theorem isInt_reparsed_integer (i : Int64) : IsInt i.toInt (Json.integer i).reparsed := by
  rw [reparsed]
  split_ifs with h
  · rfl
  · have hpos : 0 ≤ i.toInt := by
      rw [Int64.lt_iff_toInt_lt] at h
      simpa using h
    exact MachineInt.num_wrap _ hpos ((MachineInt.lt_hi i).trans (by decide))

end Json

/-- A library that knows the documents of a table only. -/
def JsonLib.ofTable (table : List (Json × Bytes)) : JsonLib where
  dump j :=
    match table.find? fun e => e.1 = j with
    | some e => .ok e.2
    | none => .throws (.jsonTypeError 316)
  parse text :=
    match table.find? fun e => e.2 = text with
    | some e => .ok e.1.reparsed
    | none => .throws .jsonParseError

@[simp] theorem JsonLib.dump_ofTable_self (j : Json) (text : Bytes) (table : List (Json × Bytes)) :
    (JsonLib.ofTable ((j, text) :: table)).dump j = .ok text := by
  simp [ofTable]

theorem JsonLib.dump_ofTable_of_ne {j : Json} {e : Json × Bytes} (h : e.1 ≠ j)
    (table : List (Json × Bytes)) :
    (JsonLib.ofTable (e :: table)).dump j = (JsonLib.ofTable table).dump j := by
  simp [ofTable, h]

theorem JsonLib.ofTable_documented {table : List (Json × Bytes)}
    (htable : table.Pairwise fun e e' => e.2 ≠ e'.2) : (JsonLib.ofTable table).Documented := by
  intro j text h
  simp only [ofTable] at h ⊢
  cases hj : table.find? fun e => e.1 = j with
  | none => rw [hj] at h; cases h
  | some e =>
    rw [hj] at h
    cases h
    have hej : e.1 = j := by simpa using List.find?_some hj
    cases ht : table.find? fun e' => e'.2 = e.2 with
    | none => simpa using List.find?_eq_none.mp ht e (List.mem_of_find?_eq_some hj)
    | some e' =>
      have htext : e'.2 = e.2 := by simpa using List.find?_some ht
      have heq : e' = e := by
        by_contra hne
        have : Std.Symm fun e e' : Json × Bytes => e.2 ≠ e'.2 := ⟨fun _ _ => Ne.symm⟩
        exact htable.forall (List.mem_of_find?_eq_some ht) (List.mem_of_find?_eq_some hj) hne htext
      simp only [heq, hej]

end KserveClient
