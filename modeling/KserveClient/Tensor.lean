import KserveClient.Half
import KserveClient.Json

/-!
# KserveClient.Tensor — tensor payloads as JSON arrays and as raw bytes

`encodeTensorData` and `decodeTensorData` are the two tables of the protocol helpers, one branch a
datatype tag.  A `Codec` states what the two branches of one tag do: the element type, the two element
projections, and that they cancel, in memory and through the text of a document.  `Datatype.codec`
is the codec of each tag, so the results below are proved once for all tags:

* `decodeTensorData_encodeTensorData`: decoding undoes encoding, NaNs apart;
* `decodeTensorData_reparsed_iff`: through the text, exactly the tensors without infinities and NaNs
  come back.
-/

namespace KserveClient

open BinaryFloat LittleEndian Json

/-- Reads a contiguous array of `α` and appends each element to a JSON array through `proj`. -/
def readArray {α β : Type} [Pod α] [ToJson β] (proj : α → β) (bytes : Bytes) : Outcome Json :=
  if bytes.length % Pod.size α ≠ 0 then
    throwRuntime (str "KServe input byte count is not a multiple of the datatype width")
  else .ok (.array ((LittleEndian.elements α bytes).map fun value => toJson (proj value)))

/-- Reads a JSON array element by element through `proj` and appends the bytes of each value. -/
def writeArray {α : Type} [Pod α] (proj : Json → Outcome α) (data : Json) : Outcome Bytes := do
  let values ← data.elements.mapM proj
  pure (layout values)

def datatypeByteWidth (datatype : Bytes) : ℕ :=
  if datatype = str "BOOL" ∨ datatype = str "INT8" ∨ datatype = str "UINT8" then 1
  else if datatype = str "FP16" ∨ datatype = str "BF16" ∨ datatype = str "INT16" ∨
    datatype = str "UINT16" then 2
  else if datatype = str "FP32" ∨ datatype = str "INT32" ∨ datatype = str "UINT32" then 4
  else if datatype = str "FP64" ∨ datatype = str "INT64" ∨ datatype = str "UINT64" then 8
  else 0 -- BYTES / unknown

def encodeTensorData (bytes datatype : Bytes) : Outcome Json :=
  if datatype = str "FP32" then readArray (fun v : F32 => v) bytes
  else if datatype = str "FP64" then readArray (fun v : F64 => v) bytes
  else if datatype = str "FP16" then readArray (fun v : UInt16 => halfToFloat v) bytes
  else if datatype = str "INT8" then readArray (fun v : Int8 => MachineInt.convert Int32 v) bytes
  else if datatype = str "INT16" then readArray (fun v : Int16 => MachineInt.convert Int32 v) bytes
  else if datatype = str "INT32" then readArray (fun v : Int32 => v) bytes
  else if datatype = str "INT64" then readArray (fun v : Int64 => v) bytes
  else if datatype = str "UINT8" ∨ datatype = str "BOOL" then
    readArray (fun v : UInt8 => MachineInt.convert UInt32 v) bytes
  else if datatype = str "UINT16" then
    readArray (fun v : UInt16 => MachineInt.convert UInt32 v) bytes
  else if datatype = str "UINT32" then readArray (fun v : UInt32 => v) bytes
  else if datatype = str "UINT64" then readArray (fun v : UInt64 => v) bytes
  else throwRuntime (str "unsupported KServe input datatype: " ++ datatype)

def decodeTensorData (data : Json) (datatype : Bytes) : Outcome Bytes :=
  if !data.isArray then throwRuntime (str "KServe output data is not a JSON array")
  else if datatype = str "FP32" then writeArray (fun e => e.get F32) data
  else if datatype = str "FP64" then writeArray (fun e => e.get F64) data
  else if datatype = str "FP16" then writeArray (fun e => floatToHalf <$> e.get F32) data
  else if datatype = str "INT8" then
    writeArray (fun e => MachineInt.convert Int8 <$> e.get Int32) data
  else if datatype = str "INT16" then
    writeArray (fun e => MachineInt.convert Int16 <$> e.get Int32) data
  else if datatype = str "INT32" then writeArray (fun e => e.get Int32) data
  else if datatype = str "INT64" then writeArray (fun e => e.get Int64) data
  else if datatype = str "UINT8" ∨ datatype = str "BOOL" then
    writeArray (fun e => MachineInt.convert UInt8 <$> e.get UInt32) data
  else if datatype = str "UINT16" then
    writeArray (fun e => MachineInt.convert UInt16 <$> e.get UInt32) data
  else if datatype = str "UINT32" then writeArray (fun e => e.get UInt32) data
  else if datatype = str "UINT64" then writeArray (fun e => e.get UInt64) data
  else throwRuntime (str "unsupported KServe output datatype: " ++ datatype)

/-! ### The supported datatypes -/

/-- The datatypes of the two tables. -/
inductive Datatype where
  | FP16 | FP32 | FP64
  | INT8 | INT16 | INT32 | INT64
  | UINT8 | UINT16 | UINT32 | UINT64
  | BOOL
deriving DecidableEq

namespace Datatype

def tag : Datatype → Bytes
  | FP16 => str "FP16"
  | FP32 => str "FP32"
  | FP64 => str "FP64"
  | INT8 => str "INT8"
  | INT16 => str "INT16"
  | INT32 => str "INT32"
  | INT64 => str "INT64"
  | UINT8 => str "UINT8"
  | UINT16 => str "UINT16"
  | UINT32 => str "UINT32"
  | UINT64 => str "UINT64"
  | BOOL => str "BOOL"

theorem tag_injective : Function.Injective tag := by
  intro a b h
  cases a <;> cases b <;> first | rfl | exact absurd h (by decide)

/-- No element of a floating-point tensor is a NaN. -/
def NoNaN (d : Datatype) (bytes : Bytes) : Prop :=
  match d with
  | FP16 => ∀ h ∈ LittleEndian.elements UInt16 bytes, ¬ HalfIsNaN h
  | FP32 => ∀ x ∈ LittleEndian.elements F32 bytes, ¬ x.IsNaN
  | FP64 => ∀ x ∈ LittleEndian.elements F64 bytes, ¬ x.IsNaN
  | _ => True

/-- No element of a floating-point tensor is a NaN or an infinity. -/
def AllFinite (d : Datatype) (bytes : Bytes) : Prop :=
  match d with
  | FP16 => ∀ h ∈ LittleEndian.elements UInt16 bytes, HalfIsFinite h
  | FP32 => ∀ x ∈ LittleEndian.elements F32 bytes, x.IsFinite
  | FP64 => ∀ x ∈ LittleEndian.elements F64 bytes, x.IsFinite
  | _ => True

end Datatype

/-! ### The codec of a datatype -/

/-- What the two tables do for the datatype `d`: the element type, the projections of an element to
and from JSON, and that they cancel. -/
structure Codec (d : Datatype) where
  Elem : Type
  [pod : Pod Elem]
  read : Elem → Json
  write : Json → Outcome Elem
  IsNaN : Elem → Prop
  IsFinite : Elem → Prop
  width : datatypeByteWidth d.tag = Pod.size Elem
  encode_eq : ∀ bytes, encodeTensorData bytes d.tag =
    if bytes.length % Pod.size Elem ≠ 0 then
      throwRuntime (str "KServe input byte count is not a multiple of the datatype width")
    else .ok (.array ((LittleEndian.elements Elem bytes).map read))
  decode_eq : ∀ items, decodeTensorData (.array items) d.tag = layout <$> items.mapM write
  noNaN_iff : ∀ bytes, d.NoNaN bytes ↔ ∀ v ∈ LittleEndian.elements Elem bytes, ¬ IsNaN v
  allFinite_iff : ∀ bytes, d.AllFinite bytes ↔ ∀ v ∈ LittleEndian.elements Elem bytes, IsFinite v
  write_read : ∀ v, ¬ IsNaN v → write (read v) = .ok v
  write_reparsed : ∀ v, IsFinite v → write (read v).reparsed = .ok v
  write_reparsed_not : ∀ v, ¬ IsFinite v → write (read v).reparsed = .throws (.jsonTypeError 302)

attribute [instance] Codec.pod

/-- The codec of an integer datatype. -/
def Codec.ofInt {d : Datatype} {α β : Type} [Pod α] [ToJson β] [Get β] (wide : α → β) (narrow : β → α)
    (width : datatypeByteWidth d.tag = Pod.size α)
    (encode_eq : ∀ bytes, encodeTensorData bytes d.tag = readArray wide bytes)
    (decode_eq : ∀ items, decodeTensorData (.array items) d.tag =
      layout <$> items.mapM fun e => narrow <$> e.get β)
    (noNaN : ∀ bytes, d.NoNaN bytes) (allFinite : ∀ bytes, d.AllFinite bytes)
    (narrow_wide : ∀ v, narrow (wide v) = v) (get_toJson : ∀ b : β, (toJson b).get β = .ok b)
    (get_reparsed : ∀ b : β, (toJson b).reparsed.get β = .ok b) : Codec d where
  Elem := α
  read v := toJson (wide v)
  write e := narrow <$> e.get β
  IsNaN _ := False
  IsFinite _ := True
  width := width
  encode_eq := encode_eq
  decode_eq := decode_eq
  noNaN_iff bytes := iff_of_true (noNaN bytes) (by simp)
  allFinite_iff bytes := iff_of_true (allFinite bytes) (by simp)
  write_read v _ := by rw [get_toJson, Outcome.map_ok, narrow_wide]
  write_reparsed v _ := by rw [get_reparsed, Outcome.map_ok, narrow_wide]
  write_reparsed_not v h := absurd trivial h

/-- The codec of an integer datatype that is stored as it is. -/
def Codec.ofIntExact {d : Datatype} {α : Type} [Pod α] [ToJson α] [Get α]
    (width : datatypeByteWidth d.tag = Pod.size α)
    (encode_eq : ∀ bytes, encodeTensorData bytes d.tag = readArray (fun v : α => v) bytes)
    (decode_eq : ∀ items, decodeTensorData (.array items) d.tag =
      layout <$> items.mapM fun e => e.get α)
    (noNaN : ∀ bytes, d.NoNaN bytes) (allFinite : ∀ bytes, d.AllFinite bytes)
    (get_toJson : ∀ v : α, (toJson v).get α = .ok v)
    (get_reparsed : ∀ v : α, (toJson v).reparsed.get α = .ok v) : Codec d :=
  .ofInt id id width encode_eq (fun items => by rw [decode_eq]; simp only [id_map]) noNaN allFinite
    (fun _ => rfl) get_toJson get_reparsed

/-- The codec of every supported datatype. -/
def Datatype.codec : (d : Datatype) → Codec d
  | FP16 => {
      Elem := UInt16
      read := fun v => toJson (halfToFloat v)
      write := fun e => floatToHalf <$> e.get F32
      IsNaN := HalfIsNaN
      IsFinite := HalfIsFinite
      width := rfl
      encode_eq := fun _ => rfl
      decode_eq := fun _ => rfl
      noNaN_iff := fun _ => Iff.rfl
      allFinite_iff := fun _ => Iff.rfl
      write_read := fun v hv => by
        rw [get_toJson_f32 (mt (halfToFloat_class v).2.mp hv), Outcome.map_ok, floatToHalf_halfToFloat hv]
      write_reparsed := fun v hv => by
        have hfin := (halfToFloat_class v).1.mpr hv
        rw [get_reparsed_f32 hfin, Outcome.map_ok, floatToHalf_halfToFloat hv.not_isNaN]
      write_reparsed_not := fun v hv => by
        rw [get_reparsed_f32_not (mt (halfToFloat_class v).1.mp hv)]
        rfl }
  | FP32 => {
      Elem := F32
      read := toJson
      write := fun e => e.get F32
      IsNaN := Value.IsNaN
      IsFinite := Value.IsFinite
      width := rfl
      encode_eq := fun _ => rfl
      decode_eq := fun _ => rfl
      noNaN_iff := fun _ => Iff.rfl
      allFinite_iff := fun _ => Iff.rfl
      write_read := fun _ => get_toJson_f32
      write_reparsed := fun _ => get_reparsed_f32
      write_reparsed_not := fun _ => get_reparsed_f32_not }
  | FP64 => {
      Elem := F64
      read := toJson
      write := fun e => e.get F64
      IsNaN := Value.IsNaN
      IsFinite := Value.IsFinite
      width := rfl
      encode_eq := fun _ => rfl
      decode_eq := fun _ => rfl
      noNaN_iff := fun _ => Iff.rfl
      allFinite_iff := fun _ => Iff.rfl
      write_read := fun v _ => get_toJson_f64 v
      write_reparsed := fun _ => get_reparsed_f64
      write_reparsed_not := fun _ => get_reparsed_f64_not }
  | INT8 => .ofInt (MachineInt.convert Int32) (MachineInt.convert Int8) rfl (fun _ => rfl)
      (fun _ => rfl) (fun _ => trivial) (fun _ => trivial)
      (MachineInt.convert_convert (by decide)) get_toJson_int32 get_reparsed_int32
  | INT16 => .ofInt (MachineInt.convert Int32) (MachineInt.convert Int16) rfl (fun _ => rfl)
      (fun _ => rfl) (fun _ => trivial) (fun _ => trivial)
      (MachineInt.convert_convert (by decide)) get_toJson_int32 get_reparsed_int32
  | INT32 => .ofIntExact rfl (fun _ => rfl) (fun _ => rfl) (fun _ => trivial) (fun _ => trivial)
      get_toJson_int32 get_reparsed_int32
  | INT64 => .ofIntExact rfl (fun _ => rfl) (fun _ => rfl) (fun _ => trivial) (fun _ => trivial)
      get_toJson_int64 get_reparsed_int64
  | UINT8 => .ofInt (MachineInt.convert UInt32) (MachineInt.convert UInt8) rfl (fun _ => rfl)
      (fun _ => rfl) (fun _ => trivial) (fun _ => trivial)
      (MachineInt.convert_convert (by decide)) get_toJson_uint32 get_reparsed_uint32
  | UINT16 => .ofInt (MachineInt.convert UInt32) (MachineInt.convert UInt16) rfl (fun _ => rfl)
      (fun _ => rfl) (fun _ => trivial) (fun _ => trivial)
      (MachineInt.convert_convert (by decide)) get_toJson_uint32 get_reparsed_uint32
  | UINT32 => .ofIntExact rfl (fun _ => rfl) (fun _ => rfl) (fun _ => trivial) (fun _ => trivial)
      get_toJson_uint32 get_reparsed_uint32
  | UINT64 => .ofIntExact rfl (fun _ => rfl) (fun _ => rfl) (fun _ => trivial) (fun _ => trivial)
      get_toJson_uint64 get_reparsed_uint64
  | BOOL => .ofInt (MachineInt.convert UInt32) (MachineInt.convert UInt8) rfl (fun _ => rfl)
      (fun _ => rfl) (fun _ => trivial) (fun _ => trivial)
      (MachineInt.convert_convert (by decide)) get_toJson_uint32 get_reparsed_uint32

/-! ### Encoding and decoding -/

variable {d : Datatype} {bytes : Bytes}

/-- The tags of `Datatype` are all that `encodeTensorData` supports. -/
theorem encodeTensorData_unsupported {datatype : Bytes} (h : ∀ d : Datatype, datatype ≠ d.tag) :
    encodeTensorData bytes datatype =
      throwRuntime (str "unsupported KServe input datatype: " ++ datatype) := by
  have h8 : ¬ (datatype = str "UINT8" ∨ datatype = str "BOOL") :=
    not_or.mpr ⟨h .UINT8, h .BOOL⟩
  unfold encodeTensorData
  refine (if_neg (h .FP32)).trans <| (if_neg (h .FP64)).trans <| (if_neg (h .FP16)).trans ?_
  refine (if_neg (h .INT8)).trans <| (if_neg (h .INT16)).trans <| (if_neg (h .INT32)).trans ?_
  refine (if_neg (h .INT64)).trans <| (if_neg h8).trans <| (if_neg (h .UINT16)).trans ?_
  exact (if_neg (h .UINT32)).trans (if_neg (h .UINT64))

theorem exists_tag_of_encodeTensorData {datatype : Bytes} {data : Json}
    (h : encodeTensorData bytes datatype = .ok data) : ∃ d : Datatype, datatype = d.tag := by
  by_contra hc
  rw [encodeTensorData_unsupported (not_exists.mp hc)] at h
  cases h

theorem encodeTensorData_of_dvd (h : bytes.length % datatypeByteWidth d.tag = 0) :
    encodeTensorData bytes d.tag =
      .ok (.array ((LittleEndian.elements d.codec.Elem bytes).map d.codec.read)) := by
  rw [d.codec.width] at h
  rw [d.codec.encode_eq, if_neg (by simpa using h)]

theorem encodeTensorData_of_not_dvd (h : bytes.length % datatypeByteWidth d.tag ≠ 0) :
    encodeTensorData bytes d.tag = throwRuntime
      (str "KServe input byte count is not a multiple of the datatype width") := by
  rw [d.codec.width] at h
  rw [d.codec.encode_eq, if_pos h]

theorem encodeTensorData_eq_ok {datatype : Bytes} {data : Json} :
    encodeTensorData bytes datatype = .ok data ↔
      ∃ d : Datatype, datatype = d.tag ∧ bytes.length % datatypeByteWidth d.tag = 0 ∧
        data = .array ((LittleEndian.elements d.codec.Elem bytes).map d.codec.read) := by
  constructor
  · intro h
    obtain ⟨d, rfl⟩ := exists_tag_of_encodeTensorData h
    by_cases hlen : bytes.length % datatypeByteWidth d.tag = 0
    · rw [encodeTensorData_of_dvd hlen] at h
      exact ⟨d, rfl, hlen, (Outcome.ok.inj h).symm⟩
    · rw [encodeTensorData_of_not_dvd hlen] at h
      cases h
  · rintro ⟨d, rfl, hlen, rfl⟩
    exact encodeTensorData_of_dvd hlen

theorem layout_elements_codec (h : bytes.length % datatypeByteWidth d.tag = 0) :
    layout (LittleEndian.elements d.codec.Elem bytes) = bytes :=
  layout_elements (d.codec.width ▸ h)

/-- Decoding what `read` produced, through any step `f` that `write` inverts. -/
theorem decodeTensorData_map {f : Json → Json} (h : bytes.length % datatypeByteWidth d.tag = 0)
    (hf : ∀ v ∈ LittleEndian.elements d.codec.Elem bytes, d.codec.write (f (d.codec.read v)) = .ok v) :
    decodeTensorData (.array ((LittleEndian.elements d.codec.Elem bytes).map
      fun v => f (d.codec.read v))) d.tag = .ok bytes := by
  have hm : (LittleEndian.elements d.codec.Elem bytes).mapM
      (d.codec.write ∘ fun v => f (d.codec.read v))
      = .ok ((LittleEndian.elements d.codec.Elem bytes).map id) := Outcome.mapM_ok hf
  rw [d.codec.decode_eq, List.mapM_map, hm, List.map_id, Outcome.map_ok, layout_elements_codec h]

/-- Through the text, exactly the tensors without infinities and NaNs come back. -/
theorem decodeTensorData_reparsed_iff (h : bytes.length % datatypeByteWidth d.tag = 0)
    {decoded : Bytes} :
    decodeTensorData (.array ((LittleEndian.elements d.codec.Elem bytes).map
      fun v => (d.codec.read v).reparsed)) d.tag = .ok decoded ↔
    d.AllFinite bytes ∧ decoded = bytes := by
  rw [d.codec.allFinite_iff]
  by_cases hfin : ∀ v ∈ LittleEndian.elements d.codec.Elem bytes, d.codec.IsFinite v
  · rw [decodeTensorData_map h fun v hv => d.codec.write_reparsed v (hfin v hv)]
    constructor
    · intro heq
      exact ⟨hfin, (Outcome.ok.inj heq).symm⟩
    · rintro ⟨-, rfl⟩
      rfl
  · refine iff_of_false ?_ fun hc => hfin hc.1
    push Not at hfin
    obtain ⟨v, hv, hinf⟩ := hfin
    rw [d.codec.decode_eq, List.mapM_map]
    intro heq
    obtain ⟨vs, hvs, -⟩ := Outcome.bind_eq_ok.mp heq
    refine Outcome.mapM_ne_ok hv (fun b hb => ?_) vs hvs
    rw [Function.comp_apply, d.codec.write_reparsed_not v hinf] at hb
    cases hb

/-- **`decodeTensorData` is the inverse of `encodeTensorData`**: encoding throws exactly when the
length is not a multiple of the width, and otherwise decoding the array gives the bytes back when
no element is a NaN. -/
theorem decodeTensorData_encodeTensorData (d : Datatype) (bytes : Bytes) :
    ((∃ e, encodeTensorData bytes d.tag = .throws e) ↔
      ¬ datatypeByteWidth d.tag ∣ bytes.length) ∧
    (datatypeByteWidth d.tag ∣ bytes.length → ∃ items,
      encodeTensorData bytes d.tag = .ok (.array items) ∧
      items.length = bytes.length / datatypeByteWidth d.tag ∧
      (d.NoNaN bytes → decodeTensorData (.array items) d.tag = .ok bytes)) := by
  rw [Nat.dvd_iff_mod_eq_zero]
  refine ⟨⟨fun ⟨e, he⟩ h => ?_, fun h => ⟨_, encodeTensorData_of_not_dvd h⟩⟩, fun h => ?_⟩
  · rw [encodeTensorData_of_dvd h] at he
    cases he
  · refine ⟨_, encodeTensorData_of_dvd h, ?_, fun hn => ?_⟩
    · rw [List.length_map, length_elements, d.codec.width]
    · exact decodeTensorData_map (f := id) h fun v hv =>
        d.codec.write_read v ((d.codec.noNaN_iff bytes).mp hn v hv)

/-- A subnormal half, a negative zero and an infinity. -/
theorem decodeTensorData_encodeTensorData_half :
    ∃ items, encodeTensorData [0x01, 0x00, 0x00, 0x80, 0x00, 0x7C] (str "FP16") = .ok (.array items) ∧
      items.length = 3 ∧
      decodeTensorData (.array items) (str "FP16") = .ok [0x01, 0x00, 0x00, 0x80, 0x00, 0x7C] := by
  obtain ⟨items, henc, hlen, hdec⟩ := (decodeTensorData_encodeTensorData .FP16
    [0x01, 0x00, 0x00, 0x80, 0x00, 0x7C]).2 (by decide)
  have hnan : ∀ h ∈ ([0x0001, 0x8000, 0x7C00] : List UInt16), ¬ HalfIsNaN h := by
    rw [List.forall_mem_cons, List.forall_mem_cons, List.forall_mem_singleton]
    refine ⟨?_, ?_, ?_⟩ <;> decide
  exact ⟨items, henc, hlen, hdec hnan⟩

end KserveClient
