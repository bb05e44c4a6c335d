import KserveClient.Tensor

/-!
# KserveClient.GrpcContents — typed tensor contents of the gRPC protocol

`encodeInput` files the elements of a payload into one of the repeated fields of an
`InferTensorContents`, and `contentsToBytes` reads the payload of a datatype back, from the field of
the datatype or, where that is empty, from the doubles of the legacy form.  The protocol's own side is
`typedContents` and `legacyContents`, the two forms of a list of values.

* `contentsToBytes_typed`, `contentsToBytes_legacy`: both forms are read as the bytes of the values.
* `contentsToBytes_encodeInput_iff`: what is sent is read back except for a non-empty `BOOL` tensor,
  which is filed under `uint_contents` and looked for in `bool_contents`.
-/

namespace KserveClient

open BinaryFloat LittleEndian

structure InferTensorContents where
  boolContents : List Bool := []
  intContents : List Int32 := []
  int64Contents : List Int64 := []
  uintContents : List UInt32 := []
  uint64Contents : List UInt64 := []
  fp32Contents : List F32 := []
  fp64Contents : List F64 := []
  bytesContents : List Bytes := []
deriving DecidableEq

/-- Reinterprets raw little-endian bytes as elements and adds each to the contents. -/
def fillContents {α : Type} [Pod α] (bytes : Bytes)
    (add : InferTensorContents → α → InferTensorContents) (contents : InferTensorContents) :
    Outcome InferTensorContents :=
  if bytes.length % Pod.size α ≠ 0 then
    throwRuntime (str "KServe gRPC input byte count is not a multiple of the datatype width")
  else .ok ((elements α bytes).foldl add contents)

def encodeInput (contents : InferTensorContents) (bytes datatype : Bytes) :
    Outcome InferTensorContents :=
  if datatype = str "FP32" then
    fillContents bytes (fun c (v : F32) => { c with fp32Contents := c.fp32Contents ++ [v] }) contents
  else if datatype = str "FP64" then
    fillContents bytes (fun c (v : F64) => { c with fp64Contents := c.fp64Contents ++ [v] }) contents
  else if datatype = str "INT8" then
    fillContents bytes (fun c (v : Int8) =>
      { c with intContents := c.intContents ++ [MachineInt.convert Int32 v] }) contents
  else if datatype = str "INT16" then
    fillContents bytes (fun c (v : Int16) =>
      { c with intContents := c.intContents ++ [MachineInt.convert Int32 v] }) contents
  else if datatype = str "INT32" then
    fillContents bytes (fun c (v : Int32) => { c with intContents := c.intContents ++ [v] }) contents
  else if datatype = str "INT64" then
    fillContents bytes (fun c (v : Int64) => { c with int64Contents := c.int64Contents ++ [v] })
      contents
  else if datatype = str "UINT8" ∨ datatype = str "BOOL" then
    fillContents bytes (fun c (v : UInt8) =>
      { c with uintContents := c.uintContents ++ [MachineInt.convert UInt32 v] }) contents
  else if datatype = str "UINT16" then
    fillContents bytes (fun c (v : UInt16) =>
      { c with uintContents := c.uintContents ++ [MachineInt.convert UInt32 v] }) contents
  else if datatype = str "UINT32" then
    fillContents bytes (fun c (v : UInt32) => { c with uintContents := c.uintContents ++ [v] })
      contents
  else if datatype = str "UINT64" then
    fillContents bytes (fun c (v : UInt64) => { c with uint64Contents := c.uint64Contents ++ [v] })
      contents
  else throwRuntime
    (str "unsupported KServe gRPC input datatype (use HTTP transport): " ++ datatype)

/-- Appends each element of a typed range as the raw bytes of an `α`. -/
def appendBytes (α : Type) {β : Type} [Pod α] [StaticCast β α] (out : Bytes) (range : List β) :
    Outcome Bytes := do
  let typed ← range.mapM fun value => (StaticCast.cast value : Outcome α)
  pure (out ++ layout typed)

def appendBytesOrFp64Fallback (α : Type) {β : Type} [Pod α] [StaticCast β α] [StaticCast F64 α]
    (out : Bytes) (range : List β) (fp64Fallback : List F64) : Outcome Bytes :=
  if 0 < range.length then appendBytes α out range else appendBytes α out fp64Fallback

def contentsToBytes (c : InferTensorContents) (datatype : Bytes) : Outcome Bytes :=
  let out : Bytes := []
  if datatype = str "FP32" then appendBytesOrFp64Fallback F32 out c.fp32Contents c.fp64Contents
  else if datatype = str "FP64" then appendBytes F64 out c.fp64Contents
  else if datatype = str "INT8" then appendBytesOrFp64Fallback Int8 out c.intContents c.fp64Contents
  else if datatype = str "INT16" then
    appendBytesOrFp64Fallback Int16 out c.intContents c.fp64Contents
  else if datatype = str "INT32" then
    appendBytesOrFp64Fallback Int32 out c.intContents c.fp64Contents
  else if datatype = str "INT64" then
    appendBytesOrFp64Fallback Int64 out c.int64Contents c.fp64Contents
  else if datatype = str "UINT8" then
    appendBytesOrFp64Fallback UInt8 out c.uintContents c.fp64Contents
  else if datatype = str "BOOL" then appendBytes UInt8 out c.boolContents
  else if datatype = str "UINT16" then
    appendBytesOrFp64Fallback UInt16 out c.uintContents c.fp64Contents
  else if datatype = str "UINT32" then
    appendBytesOrFp64Fallback UInt32 out c.uintContents c.fp64Contents
  else if datatype = str "UINT64" then
    appendBytesOrFp64Fallback UInt64 out c.uint64Contents c.fp64Contents
  else throwRuntime (str "unsupported KServe gRPC output datatype: " ++ datatype)

/-! ### The forms of a tensor -/

/-- The `double` of an integer. -/
def intToDouble {α : Type} [MachineInt α] (v : α) : F64 := .ofInt binary64 (MachineInt.num v)

namespace Datatype

/-- The typed form: the values in the message field of the datatype. -/
def typedContents : (d : Datatype) → List d.codec.Elem → InferTensorContents
  | FP32, vs => { fp32Contents := vs }
  | FP64, vs => { fp64Contents := vs }
  | INT8, vs => { intContents := vs.map (MachineInt.convert (α := Int8) Int32) }
  | INT16, vs => { intContents := vs.map (MachineInt.convert (α := Int16) Int32) }
  | INT32, vs => { intContents := vs }
  | INT64, vs => { int64Contents := vs }
  | UINT8, vs => { uintContents := vs.map (MachineInt.convert (α := UInt8) UInt32) }
  | UINT16, vs => { uintContents := vs.map (MachineInt.convert (α := UInt16) UInt32) }
  | UINT32, vs => { uintContents := vs }
  | UINT64, vs => { uint64Contents := vs }
  | BOOL, vs => { boolContents := vs.map fun v : UInt8 => v != 0 }
  | FP16, _ => {}

/-- An element widened to `double`, as the legacy servers do. -/
def toDouble : (d : Datatype) → d.codec.Elem → F64
  | FP32, v => v.convert binary64
  | FP64, v => v
  | INT8, v => intToDouble (α := Int8) v
  | INT16, v => intToDouble (α := Int16) v
  | INT32, v => intToDouble (α := Int32) v
  | INT64, v => intToDouble (α := Int64) v
  | UINT8, v => intToDouble (α := UInt8) v
  | UINT16, v => intToDouble (α := UInt16) v
  | UINT32, v => intToDouble (α := UInt32) v
  | UINT64, v => intToDouble (α := UInt64) v
  | BOOL, v => intToDouble (α := UInt8) v
  | FP16, v => (halfToFloat v).convert binary64

/-- The widening of `v` to `double` loses nothing: only 64-bit integers can be too long. -/
def WidensExactly : (d : Datatype) → d.codec.Elem → Prop
  | INT64, v => ∃ x : F64, x.Represents (MachineInt.num (α := Int64) v)
  | UINT64, v => ∃ x : F64, x.Represents (MachineInt.num (α := UInt64) v)
  | _, _ => True

/-- The legacy form: the values widened into the doubles. -/
def legacyContents (d : Datatype) (vs : List d.codec.Elem) : InferTensorContents :=
  { fp64Contents := vs.map d.toDouble }

end Datatype

section Fields

variable {α W : Type} [Pod α]

/-- Adding elements one by one to a field that starts empty. -/
theorem fillContents_eq {bytes : Bytes} {add : InferTensorContents → α → InferTensorContents}
    (put : List W → InferTensorContents) (toWire : α → W) (h0 : put [] = {})
    (hadd : ∀ ws v, add (put ws) v = put (ws ++ [toWire v]))
    (hlen : bytes.length % Pod.size α = 0) :
    fillContents bytes add {} = .ok (put ((elements α bytes).map toWire)) := by
  have hfold : ∀ (vs : List α) (ws : List W), vs.foldl add (put ws) = put (ws ++ vs.map toWire) := by
    intro vs
    induction vs with
    | nil => intro ws; simp
    | cons v vs ih =>
      intro ws
      rw [List.foldl_cons, hadd, ih, List.append_assoc, List.map_cons, List.singleton_append]
  rw [fillContents, if_neg (not_not.mpr hlen), ← h0, hfold, List.nil_append]

/-- The same for a field that holds the elements as they are. -/
theorem fillContents_self {bytes : Bytes} {add : InferTensorContents → α → InferTensorContents}
    (put : List α → InferTensorContents) (h0 : put [] = {})
    (hadd : ∀ ws v, add (put ws) v = put (ws ++ [v])) (hlen : bytes.length % Pod.size α = 0) :
    fillContents bytes add {} = .ok (put (elements α bytes)) := by
  rw [fillContents_eq put id h0 hadd hlen, List.map_id]

/-- A range whose elements are cast back to the values it was made of. -/
theorem appendBytes_map [StaticCast W α] {toWire : α → W} {vs : List α}
    (h : ∀ v ∈ vs, StaticCast.cast (toWire v) = Outcome.ok v) :
    appendBytes α [] (vs.map toWire) = .ok (layout vs) := by
  have hm : (vs.map toWire).mapM (fun w => (StaticCast.cast w : Outcome α)) = .ok (vs.map id) := by
    rw [List.mapM_map]
    exact Outcome.mapM_ok h
  rw [appendBytes, hm, List.map_id]
  rfl

/-- A range of elements that the cast leaves as they are. -/
theorem appendBytes_self [StaticCast α α] (h : ∀ v : α, StaticCast.cast v = Outcome.ok v)
    (vs : List α) : appendBytes α [] vs = .ok (layout vs) := by
  have hmap : appendBytes α [] (vs.map id) = .ok (layout vs) := appendBytes_map fun v _ => h v
  rwa [List.map_id] at hmap

theorem fallback_typed [StaticCast W α] [StaticCast F64 α] {toWire : α → W} {vs : List α}
    (h : ∀ v ∈ vs, StaticCast.cast (toWire v) = Outcome.ok v) :
    appendBytesOrFp64Fallback α [] (vs.map toWire) [] = .ok (layout vs) := by
  cases vs with
  | nil => rfl -- the fallback is taken, and finds nothing either
  | cons v vs => exact (if_pos (by simp)).trans (appendBytes_map h)

theorem fallback_self [StaticCast α α] [StaticCast F64 α]
    (h : ∀ v : α, StaticCast.cast v = Outcome.ok v) (vs : List α) :
    appendBytesOrFp64Fallback α [] vs [] = .ok (layout vs) := by
  cases vs with
  | nil => rfl
  | cons v vs => exact (if_pos (by simp)).trans (appendBytes_self h _)

theorem fallback_legacy [StaticCast W α] [StaticCast F64 α] {toDouble : α → F64} {vs : List α}
    (h : ∀ v ∈ vs, StaticCast.cast (toDouble v) = Outcome.ok v) :
    appendBytesOrFp64Fallback α [] ([] : List W) (vs.map toDouble) = .ok (layout vs) :=
  (if_neg (by simp)).trans (appendBytes_map h)

omit [Pod α] in
theorem cast_intToDouble [MachineInt α] {v : α} (h : ∃ x : F64, x.Represents (MachineInt.num v)) :
    StaticCast.cast (intToDouble v) = Outcome.ok v := by
  obtain ⟨x, hx⟩ := h
  exact cast_of_represents (Value.represents_ofInt hx)

omit [Pod α] in
/-- An integer of at most 32 bits is a `double`. -/
theorem widens_of_short [MachineInt α] (hlo : -2 ^ 32 ≤ MachineInt.lo α)
    (hhi : MachineInt.hi α ≤ 2 ^ 32) (v : α) : ∃ x : F64, x.Represents (MachineInt.num v) := by
  have h1 := MachineInt.lo_le v
  have h2 := MachineInt.lt_hi v
  have h3 : (MachineInt.num v).natAbs ≤ 2 ^ 32 := by omega
  have h4 : (MachineInt.num v).natAbs < 2 ^ (binary64.mbits + 1) :=
    h3.trans_lt (show 2 ^ 32 < 2 ^ 53 by norm_num)
  have h5 : binary64.mbits + 1 + binary64.unit ≤ binary64.mbits + (2 ^ binary64.ebits - 2) := by
    decide
  exact ⟨_, Value.represents_of_lt h4 h5⟩

end Fields

/-- **Sending**: the payload of a datatype goes into the field of the datatype. -/
theorem encodeInput_eq {d : Datatype} (hf : d ≠ .FP16) (hb : d ≠ .BOOL) {bytes : Bytes}
    (hlen : bytes.length % datatypeByteWidth d.tag = 0) :
    encodeInput {} bytes d.tag = .ok (d.typedContents (elements d.codec.Elem bytes)) := by
  rw [d.codec.width] at hlen
  cases d with
  | FP32 => exact fillContents_self (fun ws => { fp32Contents := ws }) rfl (fun _ _ => rfl) hlen
  | FP64 => exact fillContents_self (fun ws => { fp64Contents := ws }) rfl (fun _ _ => rfl) hlen
  | INT8 => exact fillContents_eq (fun ws => { intContents := ws }) _ rfl (fun _ _ => rfl) hlen
  | INT16 => exact fillContents_eq (fun ws => { intContents := ws }) _ rfl (fun _ _ => rfl) hlen
  | INT32 => exact fillContents_self (fun ws => { intContents := ws }) rfl (fun _ _ => rfl) hlen
  | INT64 => exact fillContents_self (fun ws => { int64Contents := ws }) rfl (fun _ _ => rfl) hlen
  | UINT8 => exact fillContents_eq (fun ws => { uintContents := ws }) _ rfl (fun _ _ => rfl) hlen
  | UINT16 => exact fillContents_eq (fun ws => { uintContents := ws }) _ rfl (fun _ _ => rfl) hlen
  | UINT32 => exact fillContents_self (fun ws => { uintContents := ws }) rfl (fun _ _ => rfl) hlen
  | UINT64 => exact fillContents_self (fun ws => { uint64Contents := ws }) rfl (fun _ _ => rfl) hlen
  | FP16 => exact absurd rfl hf
  | BOOL => exact absurd rfl hb

section Reading

variable {α : Type} [Pod α] [MachineInt α]

omit [Pod α] in
theorem cast_self (v : α) : StaticCast.cast v = Outcome.ok v :=
  congrArg Outcome.ok (MachineInt.wrap_num v)

/-- A field that holds integers of a wider type. -/
theorem fallback_wide {W : Type} [MachineInt W] (fits : MachineInt.Fits α W) (vs : List α) :
    appendBytesOrFp64Fallback α [] (vs.map (MachineInt.convert W)) [] = .ok (layout vs) :=
  fallback_typed fun v _ => cast_convert fits v

/-- Doubles that hold integers. -/
theorem fallback_ints {W : Type} [StaticCast W α] {vs : List α}
    (h : ∀ v ∈ vs, ∃ x : F64, x.Represents (MachineInt.num v)) :
    appendBytesOrFp64Fallback α [] ([] : List W) (vs.map intToDouble) = .ok (layout vs) :=
  fallback_legacy fun v hv => cast_intToDouble (h v hv)

theorem fallback_short {W : Type} [StaticCast W α] (hlo : -2 ^ 32 ≤ MachineInt.lo α)
    (hhi : MachineInt.hi α ≤ 2 ^ 32) (vs : List α) :
    appendBytesOrFp64Fallback α [] ([] : List W) (vs.map intToDouble) = .ok (layout vs) :=
  fallback_ints fun v _ => widens_of_short hlo hhi v

end Reading

/-- **The typed form** of a tensor is read as the bytes of its values. -/
theorem contentsToBytes_typed {d : Datatype} (hf : d ≠ .FP16) (hb : d ≠ .BOOL)
    {vs : List d.codec.Elem} (hnan : ∀ v ∈ vs, ¬ d.codec.IsNaN v) :
    contentsToBytes (d.typedContents vs) d.tag = .ok (layout vs) := by
  cases d with
  | FP32 => exact fallback_self (α := F32) (fun _ => rfl) vs
  | FP64 => exact appendBytes_self (α := F64) (fun _ => rfl) vs
  | INT8 => exact fallback_wide (α := Int8) (by decide) vs
  | INT16 => exact fallback_wide (α := Int16) (by decide) vs
  | INT32 => exact fallback_self (α := Int32) cast_self vs
  | INT64 => exact fallback_self (α := Int64) cast_self vs
  | UINT8 => exact fallback_wide (α := UInt8) (by decide) vs
  | UINT16 => exact fallback_wide (α := UInt16) (by decide) vs
  | UINT32 => exact fallback_self (α := UInt32) cast_self vs
  | UINT64 => exact fallback_self (α := UInt64) cast_self vs
  | FP16 => exact absurd rfl hf
  | BOOL => exact absurd rfl hb

/-- **The legacy form** of a tensor is read as the bytes of its values, where it is exact. -/
theorem contentsToBytes_legacy {d : Datatype} (hf : d ≠ .FP16) (hb : d ≠ .BOOL)
    {vs : List d.codec.Elem} (hnan : ∀ v ∈ vs, ¬ d.codec.IsNaN v)
    (hexact : ∀ v ∈ vs, d.WidensExactly v) :
    contentsToBytes (d.legacyContents vs) d.tag = .ok (layout vs) := by
  cases d with
  | FP32 => exact fallback_legacy (α := F32) (W := F32) fun v hv => cast_widen (hnan v hv)
  | FP64 => exact appendBytes_map (α := F64) (W := F64) fun _ _ => rfl
  | INT8 => exact fallback_short (α := Int8) (W := Int32) (by decide) (by decide) vs
  | INT16 => exact fallback_short (α := Int16) (W := Int32) (by decide) (by decide) vs
  | INT32 => exact fallback_short (α := Int32) (W := Int32) (by decide) (by decide) vs
  | INT64 => exact fallback_ints (α := Int64) (W := Int64) hexact
  | UINT8 => exact fallback_short (α := UInt8) (W := UInt32) (by decide) (by decide) vs
  | UINT16 => exact fallback_short (α := UInt16) (W := UInt32) (by decide) (by decide) vs
  | UINT32 => exact fallback_short (α := UInt32) (W := UInt32) (by decide) (by decide) vs
  | UINT64 => exact fallback_ints (α := UInt64) (W := UInt64) hexact
  | FP16 => exact absurd rfl hf
  | BOOL => exact absurd rfl hb

/-! ### The round trip -/

/-- A non-empty `BOOL` tensor is lost: it is not filed where it is looked for. -/
theorem contentsToBytes_encodeInput_bool (bytes : Bytes) : ∃ c,
    encodeInput {} bytes (Datatype.tag .BOOL) = .ok c ∧
    contentsToBytes c (Datatype.tag .BOOL) = .ok [] :=
  ⟨_, fillContents_eq (fun ws => { uintContents := ws }) _ rfl (fun _ _ => rfl) (Nat.mod_one _), rfl⟩

/-- **What `encodeInput` files, `contentsToBytes` reads back**, exactly when the datatype is not `BOOL`
or the tensor is empty. -/
theorem contentsToBytes_encodeInput_iff (d : Datatype) (hd : d ≠ .FP16) (bytes : Bytes)
    (hlen : datatypeByteWidth d.tag ∣ bytes.length) (hnan : d.NoNaN bytes) :
    (∃ c, encodeInput {} bytes d.tag = .ok c ∧ contentsToBytes c d.tag = .ok bytes) ↔
      d ≠ .BOOL ∨ bytes = [] := by
  by_cases hb : d = .BOOL
  · subst hb
    obtain ⟨c, henc, hdec⟩ := contentsToBytes_encodeInput_bool bytes
    refine ⟨fun ⟨c', henc', hdec'⟩ => Or.inr ?_, fun h => ⟨c, henc, ?_⟩⟩
    · rw [henc] at henc'
      cases henc'
      rw [hdec] at hdec'
      cases hdec'
      rfl
    · rw [hdec, h.resolve_left (by simp)]
  · refine iff_of_true ?_ (Or.inl hb)
    have hmod := Nat.mod_eq_zero_of_dvd hlen
    refine ⟨_, encodeInput_eq hd hb hmod, ?_⟩
    rw [contentsToBytes_typed hd hb ((d.codec.noNaN_iff bytes).mp hnan), layout_elements_codec hmod]

theorem contentsToBytes_encodeInput_iff_int16 :
    (∃ c, encodeInput {} [0xFF, 0xFF, 0x01, 0x00] (str "INT16") = .ok c ∧
      contentsToBytes c (str "INT16") = .ok [0xFF, 0xFF, 0x01, 0x00]) ↔
      Datatype.INT16 ≠ .BOOL ∨ [0xFF, 0xFF, 0x01, 0x00] = ([] : Bytes) :=
  contentsToBytes_encodeInput_iff .INT16 (by decide) _ (by decide) trivial

/-- The `BOOL` tensor `true`. -/
theorem contentsToBytes_encodeInput_true :
    ¬ ∃ c, encodeInput {} [1] (str "BOOL") = .ok c ∧ contentsToBytes c (str "BOOL") = .ok [1] := by
  rintro ⟨c, henc, hdec⟩
  have hc : encodeInput {} [1] (str "BOOL") = .ok { uintContents := [1] } := by decide
  rw [hc] at henc
  cases henc
  exact absurd hdec (by decide)

/-- Every tag but those of `Datatype` without `FP16` is refused. -/
theorem encodeInput_unsupported {bytes datatype : Bytes} {contents : InferTensorContents}
    (h : ∀ d : Datatype, d ≠ .FP16 → datatype ≠ d.tag) :
    encodeInput contents bytes datatype = throwRuntime
      (str "unsupported KServe gRPC input datatype (use HTTP transport): " ++ datatype) := by
  have h7 : ¬ (datatype = str "UINT8" ∨ datatype = str "BOOL") :=
    not_or.mpr ⟨h .UINT8 (by simp), h .BOOL (by simp)⟩
  unfold encodeInput
  refine (if_neg (h .FP32 (by simp))).trans <| (if_neg (h .FP64 (by simp))).trans ?_
  refine (if_neg (h .INT8 (by simp))).trans <| (if_neg (h .INT16 (by simp))).trans ?_
  refine (if_neg (h .INT32 (by simp))).trans <| (if_neg (h .INT64 (by simp))).trans ?_
  refine (if_neg h7).trans <| (if_neg (h .UINT16 (by simp))).trans ?_
  exact (if_neg (h .UINT32 (by simp))).trans (if_neg (h .UINT64 (by simp)))

end KserveClient
