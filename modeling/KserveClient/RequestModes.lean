import KserveClient.BinaryInference

/-!
# KserveClient.RequestModes — the JSON and the binary request carry the same tensors

The JSON text of a request carries an input exactly when none of its elements is an infinity or a NaN:
the library writes these as `null`, which no receiver can read as a number, and nothing stops `infer` from
sending them.

* `inferMessage_json`: when the JSON mode builds a request.
* `readJsonInputs_iff`: what a receiver reads from the text of that request.
* `inferMessage_modes_iff`: the two modes compared.
-/

namespace KserveClient

open Json HttpClient

/-! ### The JSON request -/

namespace InferInput

/-- The elements that the JSON mode writes. -/
def items (i : InferInput) : List Json :=
  match encodeTensorData i.bytes i.datatype with
  | .ok data => data.elements
  | _ => []

def jsonMembers (i : InferInput) : List (Bytes × Json) :=
  [(str "data", .array i.items), (str "datatype", .string i.datatype), (str "name", .string i.name),
    (str "shape", .array (i.shape.map .integer))]

def jsonNode (i : InferInput) : Json := .object i.jsonMembers

/-- The JSON mode takes the input. -/
def Encodable (i : InferInput) : Prop :=
  i.data.isSome ∧ ∃ d : Datatype, i.datatype = d.tag ∧ i.bytes.length % datatypeByteWidth d.tag = 0

/-- No element of the input is an infinity or a NaN. -/
def Finite (i : InferInput) : Prop := ∀ d : Datatype, i.datatype = d.tag → d.AllFinite i.bytes

end InferInput

section Building

variable {inputs : List InferInput} {outputNames : List Bytes}

theorem encodeTensorData_items {i : InferInput} {data : Json}
    (h : encodeTensorData i.bytes i.datatype = .ok data) : data = .array i.items := by
  obtain ⟨d, -, -, rfl⟩ := encodeTensorData_eq_ok.mp h
  rw [InferInput.items, h]
  rfl

theorem addInput_json {i : InferInput} {acc acc' : List Json × Bytes} :
    addInput false acc i = .ok acc' ↔ i.Encodable ∧ acc' = (acc.1 ++ [i.jsonNode], acc.2) := by
  obtain ⟨nodes, blob⟩ := acc
  by_cases hi : i.data.isSome
  · have hnode : addInput false (nodes, blob) i =
        (encodeTensorData i.bytes i.datatype >>= fun data => pure (nodes ++ [.object
          [(str "data", data), (str "datatype", .string i.datatype), (str "name", .string i.name),
            (str "shape", .array (i.shape.map .integer))]], blob)) := by
      obtain ⟨name, datatype, shape, data⟩ := i
      obtain ⟨bytes, rfl⟩ := Option.isSome_iff_exists.mp hi
      rfl
    rw [hnode]
    constructor
    · intro h
      obtain ⟨data, hdata, h⟩ := Outcome.bind_eq_ok.mp h
      obtain ⟨d, hd, hlen, -⟩ := encodeTensorData_eq_ok.mp hdata
      rw [encodeTensorData_items hdata] at h
      exact ⟨⟨hi, d, hd, hlen⟩, (Outcome.ok.inj h).symm⟩
    · rintro ⟨⟨-, d, hd, hlen⟩, rfl⟩
      have hdata := encodeTensorData_eq_ok.mpr ⟨d, hd, hlen, rfl⟩
      rw [encodeTensorData_items hdata] at hdata
      rw [hdata]
      rfl
  · rw [addInput_none hi]
    exact iff_of_false (fun h => by cases h) fun h => hi h.1.1

/-- **The JSON loop** returns when it takes every input. -/
theorem foldlM_addInput_json {acc acc' : List Json × Bytes} :
    inputs.foldlM (addInput false) acc = .ok acc' ↔
      (∀ i ∈ inputs, i.Encodable) ∧ acc' = (acc.1 ++ inputs.map InferInput.jsonNode, acc.2) := by
  induction inputs generalizing acc with
  | nil => simp [eq_comm]
  | cons i inputs ih =>
    rw [List.foldlM_cons, Outcome.bind_eq_ok, List.forall_mem_cons]
    constructor
    · rintro ⟨next, hstep, hrest⟩
      obtain ⟨hi, rfl⟩ := addInput_json.mp hstep
      obtain ⟨hinputs, rfl⟩ := ih.mp hrest
      exact ⟨⟨hi, hinputs⟩, by simp⟩
    · rintro ⟨⟨hi, hinputs⟩, rfl⟩
      exact ⟨_, addInput_json.mpr ⟨hi, rfl⟩, ih.mpr ⟨hinputs, by simp⟩⟩

/-- **The JSON mode builds a request** when it takes every input. -/
theorem inferMessage_json {lib : JsonLib} {message : InferMessage} :
    inferMessage lib false outputNames inputs = .ok message ↔
      (∀ i ∈ inputs, i.Encodable) ∧ ∃ text,
        lib.dump (requestDocument [] (inputs.map InferInput.jsonNode)) = .ok text ∧
        message = ⟨str "application/json", [], text⟩ := by
  rw [inferMessage, inferDocument_eq]
  constructor
  · intro h
    obtain ⟨document, hdocument, h⟩ := Outcome.bind_eq_ok.mp h
    obtain ⟨acc, hloop, rfl⟩ := Outcome.map_eq_ok.mp hdocument
    obtain ⟨hinputs, rfl⟩ := foldlM_addInput_json.mp hloop
    obtain ⟨text, hdump, h⟩ := Outcome.bind_eq_ok.mp h
    exact ⟨hinputs, text, hdump, (Outcome.ok.inj h).symm⟩
  · rintro ⟨hinputs, text, hdump, rfl⟩
    rw [foldlM_addInput_json.mpr ⟨hinputs, rfl⟩]
    simp only [Outcome.map_ok, Outcome.ok_bind, Bool.false_eq_true, if_false, List.nil_append, hdump]
    rfl

end Building

/-! ### Reading the request -/

/-- What a receiver reads from the text of a JSON request. -/
def readJsonInputs (lib : JsonLib) (text : Bytes) : Outcome (List InferOutput) := do
  let document ← lib.parse text
  let inputs ← document.subscript (str "inputs")
  inputs.elements.mapM decodeJsonOutput

/-- The same tensor, up to the bit patterns of NaN elements. -/
def InferOutput.SameUpToNaN (a b : InferOutput) : Prop :=
  a.name = b.name ∧ a.datatype = b.datatype ∧ a.shape = b.shape ∧
  (a.data = b.data ∨ ∃ d : Datatype, b.datatype = d.tag ∧ ∃ vs ws : List d.codec.Elem,
    a.data = LittleEndian.layout vs ∧ b.data = LittleEndian.layout ws ∧
    List.Forall₂ (fun v w => v = w ∨ d.codec.IsNaN v ∧ d.codec.IsNaN w) vs ws)

theorem InferOutput.SameUpToNaN.refl (a : InferOutput) : a.SameUpToNaN a :=
  ⟨rfl, rfl, rfl, .inl rfl⟩

/-- A node with inline data, as it is read. -/
theorem decodeJsonOutput_described {name datatype : Bytes} {shape : List Int64} {items : List Json}
    {node : Json} (h : BodyTensor.DescribedBy ⟨name, datatype, shape, .inline items⟩ node) :
    decodeJsonOutput node = BodyTensor.output ⟨name, datatype, shape, .inline items⟩ := by
  obtain ⟨members, rfl, hname, hdatatype, hshape, -, hdata⟩ := h
  simp only [decodeJsonOutput, value_of_textMember hname, value_of_textMember hdatatype,
    readShape_of_shapeMember hshape, inlineData_of_lookup hdata, Outcome.ok_bind, BodyTensor.output]
  cases decodeTensorData (.array items) datatype <;> rfl

theorem decodeJsonOutput_reparsed (i : InferInput) :
    decodeJsonOutput i.jsonNode.reparsed =
      (fun data => ⟨i.name, i.datatype, i.shape, data⟩) <$>
        decodeTensorData (.array (i.items.map reparsed)) i.datatype := by
  refine decodeJsonOutput_described (describedBy_reparsed rfl rfl rfl ⟨inlineNode_of_lookup rfl, ?_⟩)
  exact (lookup_reparsed _ _).trans (congrArg some (reparsed_array _))

/-- An input that the JSON mode takes is read back exactly when it is finite. -/
theorem decodeJsonOutput_iff {i : InferInput} (hi : i.Encodable) {out : InferOutput} :
    decodeJsonOutput i.jsonNode.reparsed = .ok out ↔ i.Finite ∧ out = i.tensor := by
  obtain ⟨-, d, hd, hlen⟩ := hi
  have hitems : i.items = (LittleEndian.elements d.codec.Elem i.bytes).map d.codec.read := by
    have h := encodeTensorData_items (encodeTensorData_eq_ok.mpr ⟨d, hd, hlen, rfl⟩)
    exact (Json.array.inj h).symm
  have hfinite : i.Finite ↔ d.AllFinite i.bytes := by
    constructor
    · exact fun h => h d hd
    · intro h d' hd'
      obtain rfl := Datatype.tag_injective (hd.symm.trans hd')
      exact h
  rw [decodeJsonOutput_reparsed, Outcome.map_eq_ok, hitems, List.map_map, hd, hfinite]
  constructor
  · rintro ⟨data, hdata, rfl⟩
    obtain ⟨hfin, rfl⟩ := (decodeTensorData_reparsed_iff hlen).mp hdata
    exact ⟨hfin, by rw [InferInput.tensor, hd]⟩
  · rintro ⟨hfin, rfl⟩
    exact ⟨i.bytes, (decodeTensorData_reparsed_iff hlen).mpr ⟨hfin, rfl⟩, by rw [InferInput.tensor, hd]⟩

/-- **The text of a request** is read back exactly when every input is finite. -/
theorem readJsonInputs_iff {lib : JsonLib} (hlib : lib.Documented) {inputs : List InferInput}
    (hinputs : ∀ i ∈ inputs, i.Encodable) {text : Bytes}
    (hdump : lib.dump (requestDocument [] (inputs.map InferInput.jsonNode)) = .ok text)
    {received : List InferOutput} :
    readJsonInputs lib text = .ok received ↔
      (∀ i ∈ inputs, i.Finite) ∧ received = inputs.map InferInput.tensor := by
  rw [readJsonInputs, hlib _ _ hdump, Outcome.ok_bind, inputs_reparsed, Outcome.ok_bind,
    Json.elements, List.map_map, List.mapM_map]
  by_cases hfin : ∀ i ∈ inputs, i.Finite
  · have hread : inputs.mapM (decodeJsonOutput ∘ reparsed ∘ InferInput.jsonNode) =
        .ok (inputs.map InferInput.tensor) :=
      Outcome.mapM_ok fun i hi => (decodeJsonOutput_iff (hinputs i hi)).mpr ⟨hfin i hi, rfl⟩
    rw [hread]
    constructor
    · intro h
      exact ⟨hfin, (Outcome.ok.inj h).symm⟩
    · rintro ⟨-, rfl⟩
      rfl
  · refine iff_of_false ?_ fun h => hfin h.1
    push Not at hfin
    obtain ⟨i, hi, hinf⟩ := hfin
    exact Outcome.mapM_ne_ok hi (fun out h => hinf ((decodeJsonOutput_iff (hinputs i hi)).mp h).1) _

/-! ### The two modes -/

/-- **When the modes agree.** The binary body carries the inputs as they are; the JSON text, once it is
sent, carries them up to NaN patterns exactly when none of them has an infinity or a NaN. -/
theorem inferMessage_modes_iff (lib : JsonLib) (hlib : lib.Documented) (outputNames : List Bytes)
    (inputs : List InferInput) (json : InferMessage)
    (hjson : inferMessage lib false outputNames inputs = .ok json) :
    (∀ binary, inferMessage lib true outputNames inputs = .ok binary →
      ∃ headerLen offset blob,
        binary.extraHeaders =
          str "Inference-Header-Content-Length: " ++ toText (headerLen : ℕ) ++ str "\r\n" ∧
        readBinaryInputs lib binary.body headerLen =
          .ok (inputs.map InferInput.tensor, offset, blob)) ∧
    ((∃ received, readJsonInputs lib json.body = .ok received ∧
      List.Forall₂ InferOutput.SameUpToNaN received (inputs.map InferInput.tensor)) ↔
      ∀ i ∈ inputs, i.Finite) := by
  obtain ⟨hinputs, text, htext, rfl⟩ := inferMessage_json.mp hjson
  constructor
  · intro binary hbinary
    obtain ⟨-, header, hheader, hsize, rfl⟩ := inferMessage_binary.mp hbinary
    exact ⟨header.length, _, _, rfl, readBinaryInputs_body hlib hheader (by omega)⟩
  · constructor
    · rintro ⟨received, hread, -⟩
      exact ((readJsonInputs_iff hlib hinputs htext).mp hread).1
    · intro hfin
      refine ⟨_, (readJsonInputs_iff hlib hinputs htext).mpr ⟨hfin, rfl⟩, ?_⟩
      exact List.forall₂_same.mpr fun out _ => .refl out

section Witness

/-- One and minus zero. -/
def finiteInput : InferInput := ⟨str "x", str "FP32", [2], some [0, 0, 0x80, 0x3F, 0, 0, 0, 0x80]⟩

def finiteText : Bytes := str
  "\x7b\"id\":\"kserve-client\",\"inputs\":[\x7b\"data\":[1.0,-0.0],\"datatype\":\"FP32\",\"name\":\"x\",\"shape\":[2]\x7d]\x7d"

def finiteLib : JsonLib := .ofTable [(requestDocument [] ([finiteInput].map InferInput.jsonNode), finiteText)]

theorem inferMessage_modes_iff_finite :
    ∃ received, readJsonInputs finiteLib finiteText = .ok received ∧
      List.Forall₂ InferOutput.SameUpToNaN received [finiteInput.tensor] := by
  have hencodable : ∀ i ∈ [finiteInput], i.Encodable := by
    rw [List.forall_mem_singleton]
    exact ⟨rfl, .FP32, rfl, rfl⟩
  have hdump : finiteLib.dump (requestDocument [] ([finiteInput].map InferInput.jsonNode)) =
      .ok finiteText := by
    rw [finiteLib, JsonLib.dump_ofTable_self]
  have hjson : inferMessage finiteLib false [] [finiteInput] =
      .ok ⟨str "application/json", [], finiteText⟩ :=
    inferMessage_json.mpr ⟨hencodable, finiteText, hdump, rfl⟩
  have hfinite : Datatype.AllFinite .FP32 [0, 0, 0x80, 0x3F, 0, 0, 0, 0x80] := by
    show ∀ x ∈ LittleEndian.elements F32 _, _
    decide
  refine (inferMessage_modes_iff finiteLib (JsonLib.ofTable_documented (List.pairwise_singleton ..)) []
    [finiteInput] _ hjson).2.mpr ?_
  rw [List.forall_mem_singleton]
  intro d hd
  obtain rfl : Datatype.FP32 = d := Datatype.tag_injective hd
  exact hfinite

end Witness

/-- Plus infinity. -/
def infinityInput : InferInput := ⟨str "x", str "FP32", [1], some [0, 0, 0x80, 0x7F]⟩

def infinityText : Bytes := str
  "\x7b\"id\":\"kserve-client\",\"inputs\":[\x7b\"data\":[null],\"datatype\":\"FP32\",\"name\":\"x\",\"shape\":[1]\x7d]\x7d"

def infinityHeader : Bytes := str
  "\x7b\"id\":\"kserve-client\",\"inputs\":[\x7b\"datatype\":\"FP32\",\"name\":\"x\",\"parameters\":\x7b\"binary_data_size\":4\x7d,\"shape\":[1]\x7d]\x7d"

def infinityLib : JsonLib :=
  .ofTable [(requestDocument [] ([infinityInput].map InferInput.jsonNode), infinityText),
    (requestDocument [] ([infinityInput].map InferInput.binaryNode), infinityHeader)]

/-- **The modes differ** on an infinity: both requests are built, and only the binary one is readable. -/
theorem inferMessage_infinity : infinityLib.Documented ∧
    inferMessage infinityLib false [] [infinityInput] =
      .ok ⟨str "application/json", [], infinityText⟩ ∧
    readJsonInputs infinityLib infinityText = .throws (.jsonTypeError 302) ∧
    inferMessage infinityLib true [] [infinityInput] = .ok ⟨str "application/octet-stream",
      str "Inference-Header-Content-Length: 112\r\n", infinityHeader ++ [0, 0, 0x80, 0x7F]⟩ ∧
    readBinaryInputs infinityLib (infinityHeader ++ [0, 0, 0x80, 0x7F]) 112 =
      .ok ([⟨str "x", str "FP32", [1], [0, 0, 0x80, 0x7F]⟩], 4, [0, 0, 0x80, 0x7F]) := by
  have hlib : infinityLib.Documented :=
    JsonLib.ofTable_documented (List.pairwise_pair.mpr (by decide +kernel))
  have htext : infinityLib.dump (requestDocument [] ([infinityInput].map InferInput.jsonNode)) =
      .ok infinityText := by
    rw [infinityLib, JsonLib.dump_ofTable_self]
  have hheader : infinityLib.dump (requestDocument [] ([infinityInput].map InferInput.binaryNode)) =
      .ok infinityHeader := by
    rw [infinityLib, JsonLib.dump_ofTable_of_ne (by decide +kernel), JsonLib.dump_ofTable_self]
  have hencodable : ∀ i ∈ [infinityInput], i.Encodable := by
    rw [List.forall_mem_singleton]
    exact ⟨rfl, .FP32, rfl, rfl⟩
  have hlength : infinityHeader.length = 112 := by decide +kernel
  refine ⟨hlib, inferMessage_json.mpr ⟨hencodable, _, htext, rfl⟩, ?_, ?_, ?_⟩
  · rw [readJsonInputs, hlib _ _ htext, Outcome.ok_bind, inputs_reparsed, Outcome.ok_bind,
      Json.elements, List.map_map, List.mapM_map]
    decide +kernel
  · refine inferMessage_binary.mpr ⟨by simp [infinityInput], _, hheader, ?_, ?_⟩
    · rw [hlength]
      decide
    · rw [hlength]
      rfl
  · rw [← hlength]
    exact readBinaryInputs_body hlib hheader (by decide)

end KserveClient
