import KserveClient.HttpClient
import Mathlib.Algebra.Order.BigOperators.Group.List

/-!
# KserveClient.BinaryInference — binary bodies are split and joined without loss

A `BodyTensor` is a tensor of a binary body: its bytes are in the blob, or it is inline in the header.
`DescribedBy` says what its node in the header holds, and `blobOf` is the blob of a list of tensors.

* `foldlM_decodeBinaryOutput`: the decoding loop from any offset.
* `infer_binary`: `infer` on a binary response.
* `inferRequest_binary`: the request of the binary mode, read back by the same helpers.
-/

namespace KserveClient

open Json

/-! ### Tensors of a binary body -/

/-- Where the data of a tensor is. -/
inductive Payload where
  | binary (bytes : Bytes)
  | inline (items : List Json)

structure BodyTensor where
  name : Bytes
  datatype : Bytes
  shape : List Int64
  payload : Payload

namespace BodyTensor

/-- The bytes of the tensor in the blob. -/
def segment (t : BodyTensor) : Bytes :=
  match t.payload with
  | .binary bytes => bytes
  | .inline _ => []

/-- The tensor as it is to be returned: its own bytes, or its own array decoded. -/
def output (t : BodyTensor) : Outcome InferOutput :=
  match t.payload with
  | .binary bytes => .ok ⟨t.name, t.datatype, t.shape, bytes⟩
  | .inline items =>
    (fun data => ⟨t.name, t.datatype, t.shape, data⟩) <$> decodeTensorData (.array items) t.datatype

end BodyTensor

/-- The blob of a list of tensors. -/
def blobOf (ts : List BodyTensor) : Bytes := ts.flatMap BodyTensor.segment

/-- A text member, with the value that its absence stands for. -/
def TextMember (members : List (Bytes × Json)) (key default s : Bytes) : Prop :=
  members.lookup key = some (.string s) ∨ members.lookup key = none ∧ s = default

def ShapeMember (members : List (Bytes × Json)) (shape : List Int64) : Prop :=
  (∃ dims, members.lookup (str "shape") = some (.array dims) ∧
    List.Forall₂ (fun j (i : Int64) => IsInt i.toInt j) dims shape) ∨
  members.lookup (str "shape") = none ∧ shape = []

def PayloadMembers (members : List (Bytes × Json)) : Payload → Prop
  | .binary bytes => BinaryNode members bytes.length
  | .inline items => InlineNode members ∧ members.lookup (str "data") = some (.array items)

/-- `node` is an object that describes `t`, other members being free. -/
def BodyTensor.DescribedBy (t : BodyTensor) (node : Json) : Prop :=
  ∃ members, node = .object members ∧ TextMember members (str "name") [] t.name ∧
    TextMember members (str "datatype") (str "FP32") t.datatype ∧ ShapeMember members t.shape ∧
    PayloadMembers members t.payload

/-! ### Reading a node -/

section Node

variable {members : List (Bytes × Json)}

theorem value_of_textMember {key default s : Bytes} (h : TextMember members key default s) :
    (Json.object members).value key default = .ok s := by
  rw [Json.value]
  rcases h with h | ⟨h, rfl⟩
  · rw [h]
    rfl
  · rw [h]

theorem readShape_of_shapeMember {shape : List Int64} (h : ShapeMember members shape) :
    HttpClient.readShape (.object members) = .ok shape := by
  rw [HttpClient.readShape]
  rcases h with ⟨dims, h, hdims⟩ | ⟨h, rfl⟩
  · rw [contains_object h, subscript_object h]
    refine Outcome.mapM_forall₂ (hdims.imp fun j i hi => ?_)
    rw [hi.get_int64, Int64.ofInt_toInt]
  · rw [Json.contains, h]
    rfl

theorem inlineData_of_lookup {items : List Json}
    (h : members.lookup (str "data") = some (.array items)) (datatype : Bytes) :
    HttpClient.inlineData (.object members) datatype = decodeTensorData (.array items) datatype := by
  rw [HttpClient.inlineData, contains_object h, subscript_object h]
  rfl

end Node

/-! ### The decoding loop -/

open HttpClient

variable {node : Json} {t : BodyTensor}

/-- **One round**: the tensor is read, and the offset moves over its segment. -/
theorem decodeBinaryOutput_described (h : t.DescribedBy node) (before rest : Bytes)
    (hsize : (before ++ t.segment ++ rest).length < maxSize) (outs : List InferOutput) :
    decodeBinaryOutput (before ++ t.segment ++ rest) (outs, before.length) node =
      (fun out => (outs ++ [out], (before ++ t.segment).length)) <$> t.output := by
  obtain ⟨members, rfl, hname, hdatatype, hshape, hpayload⟩ := h
  obtain ⟨name, datatype, shape, payload⟩ := t
  unfold decodeBinaryOutput
  simp only [value_of_textMember hname, value_of_textMember hdatatype,
    readShape_of_shapeMember hshape, Outcome.ok_bind]
  cases payload with
  | binary bytes =>
    simp only [BodyTensor.segment, List.length_append, maxSize] at hsize
    have hint : (Int64.ofInt bytes.length).toInt = bytes.length :=
      Int64.toInt_ofInt_of_le (by omega) (by omega)
    have hmod : (before.length + bytes.length) % sizeMod = before.length + bytes.length :=
      Nat.mod_eq_of_lt (by rw [sizeMod]; omega)
    rw [binaryDataSize_binary hpayload, Outcome.ok_bind, hint, if_pos (by omega), Int.toNat_natCast]
    simp only [BodyTensor.segment, sliceBlob_append, Outcome.ok_bind, hmod, BodyTensor.output,
      Outcome.map_ok, List.length_append]
    rfl
  | inline items =>
    rw [binaryDataSize_inline hpayload.1, Outcome.ok_bind, if_neg (by decide),
      inlineData_of_lookup hpayload.2]
    simp only [BodyTensor.segment, BodyTensor.output, List.append_nil]
    cases decodeTensorData (.array items) datatype <;> rfl

/-- **The loop**, from any offset on: the tensors in order, and the offset behind the last segment. -/
theorem foldlM_decodeBinaryOutput {nodes : List Json} {ts : List BodyTensor}
    (h : List.Forall₂ (fun node t => t.DescribedBy node) nodes ts) {before rest : Bytes}
    (hsize : (before ++ blobOf ts ++ rest).length < maxSize) (outs : List InferOutput) :
    nodes.foldlM (decodeBinaryOutput (before ++ blobOf ts ++ rest)) (outs, before.length) =
      (fun new => (outs ++ new, (before ++ blobOf ts).length)) <$> ts.mapM BodyTensor.output := by
  induction h generalizing before outs with
  | nil => simp [blobOf]
  | @cons node t nodes ts hnode _ ih =>
    have hblob : before ++ blobOf (t :: ts) ++ rest = before ++ t.segment ++ blobOf ts ++ rest := by
      simp [blobOf]
    have hlen : (before ++ blobOf (t :: ts)).length = (before ++ t.segment ++ blobOf ts).length := by
      simp [blobOf]
    rw [hblob] at hsize ⊢
    have hstep := decodeBinaryOutput_described hnode before (blobOf ts ++ rest)
      (by simpa using hsize) outs
    rw [← List.append_assoc] at hstep
    rw [List.foldlM_cons, hstep, List.mapM_cons, hlen]
    cases t.output with
    | ok out =>
      rw [Outcome.map_ok, Outcome.ok_bind, ih hsize, Outcome.ok_bind]
      cases ts.mapM BodyTensor.output <;> simp <;> rfl
    | _ => rfl

/-- The whole loop. -/
theorem decodeBinaryOutputs {nodes : List Json} {ts : List BodyTensor}
    (h : List.Forall₂ (fun node t => t.DescribedBy node) nodes ts)
    (hsize : (blobOf ts).length < maxSize) :
    nodes.foldlM (decodeBinaryOutput (blobOf ts)) ([], 0) =
      (fun outs => (outs, (blobOf ts).length)) <$> ts.mapM BodyTensor.output := by
  have hloop := foldlM_decodeBinaryOutput h
    (show ([] ++ blobOf ts ++ []).length < maxSize by simpa using hsize) []
  simpa only [List.nil_append, List.append_nil, List.length_nil] using hloop

/-- The loop over the first `k` nodes: where it stands in the blob. -/
theorem offset_of_take {nodes : List Json} {ts : List BodyTensor}
    (h : List.Forall₂ (fun node t => t.DescribedBy node) nodes ts)
    (hsize : (blobOf ts).length < maxSize) {k : ℕ} {outs : List InferOutput} {offset : ℕ}
    (hrun : (nodes.take k).foldlM (decodeBinaryOutput (blobOf ts)) ([], 0) = .ok (outs, offset)) :
    offset = (blobOf (ts.take k)).length ∧ offset ≤ (blobOf ts).length := by
  have hsplit : blobOf ts = [] ++ blobOf (ts.take k) ++ blobOf (ts.drop k) := by
    rw [List.nil_append, blobOf, blobOf, blobOf, ← List.flatMap_append, List.take_append_drop]
  have hloop := foldlM_decodeBinaryOutput (List.forall₂_take k h) (hsplit ▸ hsize) []
  rw [← hsplit, List.length_nil, hrun] at hloop
  have hoff : offset = (blobOf (ts.take k)).length := by
    cases hm : (ts.take k).mapM BodyTensor.output with
    | ok new =>
      rw [hm, Outcome.map_ok] at hloop
      cases hloop
      rfl
    | _ => rw [hm] at hloop; cases hloop
  have hle := congrArg List.length hsplit
  simp only [List.length_append, List.length_nil] at hle
  omega

theorem decodeInferResponse_binary {lib : JsonLib} {response : HttpResponse}
    {members : List (Bytes × Json)} {nodes : List Json} {ts : List BodyTensor} {text : Bytes}
    (hstatus : response.status = 200) (hbody : response.body = text ++ blobOf ts)
    (hlength : response.inferenceHeaderLength = text.length) (hsize : response.body.length < maxSize)
    (hparse : lib.parse text = .ok (.object members))
    (houtputs : members.lookup (str "outputs") = some (.array nodes))
    (hnodes : List.Forall₂ (fun node t => t.DescribedBy node) nodes ts) :
    decodeInferResponse lib response = ts.mapM BodyTensor.output := by
  have hsplit : splitBinaryBody lib response.body text.length = .ok (.object members, blobOf ts) := by
    rw [splitBinaryBody, if_neg (by rw [hbody]; simp), hbody, List.take_left, hparse, List.drop_left]
    rfl
  have hout : outputsOf (.object members) = .ok (.array nodes) := by
    rw [outputsOf, contains_object houtputs, subscript_object houtputs]
    rfl
  have hblob : (blobOf ts).length < maxSize := by
    rw [hbody, List.length_append] at hsize
    omega
  rw [decodeInferResponse, if_neg (by simp [hstatus]), hlength, if_pos (by omega), Int.toNat_natCast,
    hsplit, Outcome.ok_bind]
  simp only [hout, Outcome.ok_bind, Json.elements]
  rw [decodeBinaryOutputs hnodes hblob]
  cases ts.mapM BodyTensor.output <;> rfl

/-- **Binary responses are split without loss, overlap or shift**: `infer` returns one output for each
tensor, in order, with its own bytes or its own array decoded, and at every round of the loop the
offset is the sum of the sizes of the preceding binary tensors and lies inside the blob. -/
theorem infer_binary {σ : Type} (env : HttpEnv σ) (lib : JsonLib) (client : HttpClient)
    (kserveBinary : Option Bytes) (inputs : List InferInput) (st st' : HttpConnection × σ)
    (ep : Endpoint) (request : Bytes)
    (hrequest : client.inferRequest lib kserveBinary inputs = .ok (ep, request))
    (response : HttpResponse)
    (hsend : client.sendRequest env ep request st = (.ok response, st'))
    (hstatus : response.status = 200) (ts : List BodyTensor) (nodes : List Json)
    (hnodes : List.Forall₂ (fun node t => t.DescribedBy node) nodes ts)
    (members : List (Bytes × Json))
    (houtputs : members.lookup (str "outputs") = some (.array nodes)) (text : Bytes)
    (hparse : lib.parse text = .ok (.object members))
    (hbody : response.body = text ++ blobOf ts)
    (hlength : response.inferenceHeaderLength = text.length)
    (hsize : response.body.length < maxSize) :
    client.infer env lib kserveBinary inputs st = (ts.mapM BodyTensor.output, st') ∧
    ∀ k outs offset,
      (nodes.take k).foldlM (decodeBinaryOutput (blobOf ts)) ([], 0) = .ok (outs, offset) →
        offset = (blobOf (ts.take k)).length ∧ offset ≤ (blobOf ts).length := by
  have hblob : (blobOf ts).length < maxSize := by
    rw [hbody, List.length_append] at hsize
    omega
  refine ⟨?_, fun k outs offset hrun => offset_of_take hnodes hblob hrun⟩
  have hdecode := decodeInferResponse_binary hstatus hbody hlength hsize hparse houtputs hnodes
  simp only [HttpClient.infer, hrequest, Outcome.ok_andThen, hsend, Outcome.ok_bind, hdecode]

section Witness

/-- The header of a response with an inline tensor before a binary one. -/
def mixedHeader : Bytes := str
  "\x7b\"outputs\":[\x7b\"data\":[7],\"datatype\":\"UINT8\",\"name\":\"b\"\x7d,\x7b\"name\":\"a\",\"parameters\":\x7b\"binary_data_size\":2\x7d\x7d]\x7d"

def mixedInline : Json := .object [(str "data", .array [.unsigned 7]),
  (str "datatype", .string (str "UINT8")), (str "name", .string (str "b"))]

def mixedBinary : Json := .object [(str "name", .string (str "a")),
  (str "parameters", .object [(str "binary_data_size", .unsigned 2)])]

def mixedMembers : List (Bytes × Json) :=
  [(str "outputs", .array [mixedInline, mixedBinary])]

/-- A JSON library that knows the two documents of the exchange. -/
def mixedLib : JsonLib where
  dump _ := .ok (str "\x7b\"id\":\"kserve-client\",\"inputs\":[]\x7d")
  parse text := if text = mixedHeader then .ok (.object mixedMembers) else .throws .jsonParseError

def mixedRaw : Bytes :=
  str "HTTP/1.1 200 OK\r\nInference-Header-Content-Length: 105\r\nContent-Length: 107\r\n\r\n" ++
  mixedHeader ++ [1, 2]

def mixedClient : HttpClient := ⟨str "localhost:80", str "m", [], [], {}, []⟩

def mixedRequest : Bytes :=
  buildRequest (str "POST") ⟨str "localhost", 80, [], false⟩ (str "/v2/models/m/infer") []
    (str "application/json") [] (str "\x7b\"id\":\"kserve-client\",\"inputs\":[]\x7d")

def mixedIo : AttemptIo :=
  ⟨none, [mixedRequest.length], [.bytes ⟨mixedRaw, by decide +kernel, by decide +kernel⟩]⟩

/-- An inline tensor before a binary one, over a new connection. -/
theorem infer_binary_mixed :
    mixedClient.infer HttpEnv.scripted mixedLib none [] (⟨none, [], 0, false⟩, [mixedIo]) =
      (.ok [⟨str "b", str "UINT8", [], [7]⟩, ⟨str "a", str "FP32", [], [1, 2]⟩],
        ⟨some .plain, str "localhost", 80, false⟩, []) := by
  have hsend : mixedClient.sendRequest HttpEnv.scripted ⟨str "localhost", 80, [], false⟩ mixedRequest
      (⟨none, [], 0, false⟩, [mixedIo]) = (.ok ⟨200, mixedHeader ++ [1, 2], 105⟩,
        ⟨some .plain, str "localhost", 80, false⟩, []) :=
    sendRequest_first rfl (show roundTrip _ _ _ _ = (_, _, []) by decide +kernel) rfl
  have hinline : BodyTensor.DescribedBy ⟨str "b", str "UINT8", [], .inline [.unsigned 7]⟩ mixedInline :=
    ⟨_, rfl, .inl rfl, .inl rfl, .inr ⟨rfl, rfl⟩, inlineNode_of_lookup rfl, rfl⟩
  have hbinary : BodyTensor.DescribedBy ⟨str "a", str "FP32", [], .binary [1, 2]⟩ mixedBinary :=
    ⟨_, rfl, .inl rfl, .inr ⟨rfl, rfl⟩, .inr ⟨rfl, rfl⟩,
      [(str "binary_data_size", .unsigned 2)], .unsigned 2, rfl, rfl, rfl⟩
  exact (infer_binary HttpEnv.scripted mixedLib mixedClient none [] _ _ _ _ (by rfl) _ hsend rfl _ _
    (.cons hinline (.cons hbinary .nil)) mixedMembers rfl mixedHeader (by simp [mixedLib]) rfl rfl
    (by decide)).1

end Witness

/-! ### Requests -/

/-- The bytes of an input that has some. -/
def InferInput.bytes (i : InferInput) : Bytes := i.data.getD []

/-- The input as its receiver is to see it. -/
def InferInput.tensor (i : InferInput) : InferOutput := ⟨i.name, i.datatype, i.shape, i.bytes⟩

/-- The members of the node of a binary input. -/
def InferInput.binaryMembers (i : InferInput) : List (Bytes × Json) :=
  [(str "datatype", .string i.datatype), (str "name", .string i.name),
    (str "parameters", .object [(str "binary_data_size", .unsigned (UInt64.ofNat i.bytes.length))]),
    (str "shape", .array (i.shape.map .integer))]

def InferInput.binaryNode (i : InferInput) : Json := .object i.binaryMembers

/-- The node that asks for a binary output. -/
def binaryOutputNode (name : Bytes) : Json :=
  .object [(str "name", .string name), (str "parameters", .object [(str "binary_data", .boolean true)])]

/-- The request document, with the outputs it asks for in binary form. -/
def requestDocument (outputNames : List Bytes) (nodes : List Json) : Json :=
  .object ([(str "id", .string (str "kserve-client")), (str "inputs", .array nodes)] ++
    if outputNames = [] then [] else [(str "outputs", .array (outputNames.map binaryOutputNode))])

/-- What a receiver reads from a binary request body: the tensors, the offset at which the walk over the
nodes ends, and the blob. -/
def readBinaryInputs (lib : JsonLib) (body : Bytes) (headerLen : ℕ) :
    Outcome (List InferOutput × ℕ × Bytes) := do
  let (header, blob) ← splitBinaryBody lib body headerLen
  let inputs ← header.subscript (str "inputs")
  let (tensors, offset) ← inputs.elements.foldlM (decodeBinaryOutput blob) ([], 0)
  pure (tensors, offset, blob)

section Requests

variable {inputs : List InferInput} {outputNames : List Bytes}

/-- The document is the one around the nodes; only the binary mode asks for outputs. -/
theorem inferDocument_eq (binary : Bool) (outputNames : List Bytes) (inputs : List InferInput) :
    inferDocument binary outputNames inputs =
      (fun acc => (requestDocument (if binary then outputNames else []) acc.1, acc.2)) <$>
        inputs.foldlM (addInput binary) ([], []) := by
  have houtputs : outputNames.mapM requestBinaryOutput = .ok (outputNames.map binaryOutputNode) :=
    Outcome.mapM_ok fun _ _ => rfl
  unfold inferDocument
  cases inputs.foldlM (addInput binary) ([], []) with
  | ok acc =>
    cases binary with
    | false => rfl
    | true =>
      by_cases hnames : outputNames = []
      · rw [hnames]
        rfl
      · simp only [Outcome.ok_bind, Outcome.map_ok, houtputs, hnames, requestDocument, ne_eq,
          not_false_eq_true, and_self, if_true, if_false]
        rfl
  | _ => rfl

theorem addInput_binary {i : InferInput} (hi : i.data.isSome) (nodes : List Json) (blob : Bytes) :
    addInput true (nodes, blob) i =
      (fun blob => (nodes ++ [i.binaryNode], blob)) <$> appendBlob blob i.bytes := by
  obtain ⟨name, datatype, shape, data⟩ := i
  obtain ⟨bytes, rfl⟩ := Option.isSome_iff_exists.mp hi
  have hnode : appendBinaryInput name datatype shape bytes blob = (appendBlob blob bytes >>= fun blob =>
      pure (InferInput.binaryNode ⟨name, datatype, shape, some bytes⟩, blob)) := rfl
  simp only [addInput, if_true, hnode, InferInput.bytes, Option.getD_some]
  cases appendBlob blob bytes <;> rfl

theorem addInput_none {binary : Bool} {i : InferInput} (hi : ¬ i.data.isSome)
    (acc : List Json × Bytes) :
    addInput binary acc i = throwRuntime (str "KServe input '" ++ i.name ++ str "' has no data") := by
  obtain ⟨name, datatype, shape, data⟩ := i
  cases data with
  | some bytes => exact absurd rfl hi
  | none => rfl

/-- **The binary loop** returns when every input has data and everything fits. -/
theorem foldlM_addInput_binary {acc acc' : List Json × Bytes} (hacc : acc.2.length < maxSize) :
    inputs.foldlM (addInput true) acc = .ok acc' ↔
      (∀ i ∈ inputs, i.data.isSome) ∧ (acc.2 ++ inputs.flatMap InferInput.bytes).length < maxSize ∧
      acc' = (acc.1 ++ inputs.map InferInput.binaryNode, acc.2 ++ inputs.flatMap InferInput.bytes) := by
  induction inputs generalizing acc with
  | nil =>
    obtain ⟨nodes, blob⟩ := acc
    rw [List.flatMap_nil, List.map_nil, List.append_nil, List.append_nil]
    constructor
    · intro h
      exact ⟨by simp, hacc, (Outcome.ok.inj h).symm⟩
    · rintro ⟨-, -, rfl⟩
      rfl
  | cons i inputs ih =>
    obtain ⟨nodes, blob⟩ := acc
    rw [List.foldlM_cons, List.forall_mem_cons]
    by_cases hi : i.data.isSome
    · rw [addInput_binary hi]
      by_cases hsize : blob.length + i.bytes.length < maxSize
      · have happend : appendBlob blob i.bytes = .ok (blob ++ i.bytes) := if_pos hsize
        rw [happend, Outcome.map_ok, Outcome.ok_bind, ih (by simpa using hsize)]
        simp [hi]
      · have happend : appendBlob blob i.bytes = .throws .lengthError := if_neg hsize
        rw [happend]
        refine iff_of_false (fun h => by cases h) fun h => hsize ?_
        have hlen := h.2.1
        simp only [List.flatMap_cons, List.length_append] at hlen
        omega
    · rw [addInput_none hi]
      exact iff_of_false (fun h => by cases h) fun h => hi h.1.1

/-- **The binary mode builds a request** when every input has data and everything fits. -/
theorem inferMessage_binary {lib : JsonLib} {message : InferMessage} :
    inferMessage lib true outputNames inputs = .ok message ↔
      (∀ i ∈ inputs, i.data.isSome) ∧ ∃ header,
        lib.dump (requestDocument outputNames (inputs.map InferInput.binaryNode)) = .ok header ∧
        header.length + (inputs.flatMap InferInput.bytes).length < maxSize ∧
        message = ⟨str "application/octet-stream",
          str "Inference-Header-Content-Length: " ++ toText header.length ++ str "\r\n",
          header ++ inputs.flatMap InferInput.bytes⟩ := by
  rw [inferMessage, inferDocument_eq]
  constructor
  · intro h
    obtain ⟨document, hdocument, h⟩ := Outcome.bind_eq_ok.mp h
    obtain ⟨acc, hloop, rfl⟩ := Outcome.map_eq_ok.mp hdocument
    obtain ⟨hdata, -, rfl⟩ := (foldlM_addInput_binary (by decide)).mp hloop
    obtain ⟨header, hdump, h⟩ := Outcome.bind_eq_ok.mp h
    obtain ⟨body, happend, h⟩ := Outcome.bind_eq_ok.mp h
    simp only [appendBlob, List.nil_append] at happend
    split_ifs at happend with hsize
    cases happend
    cases h
    exact ⟨hdata, header, hdump, hsize, rfl⟩
  · rintro ⟨hdata, header, hdump, hsize, rfl⟩
    have hblob : (inputs.flatMap InferInput.bytes).length < maxSize := by omega
    have happend : appendBlob header (inputs.flatMap InferInput.bytes) =
        .ok (header ++ inputs.flatMap InferInput.bytes) := if_pos hsize
    rw [(foldlM_addInput_binary (by decide)).mpr ⟨hdata, by simpa using hblob, rfl⟩]
    simp only [Outcome.map_ok, Outcome.ok_bind, if_true, List.nil_append, hdump, happend]
    rfl

/-- What comes back from the text of an input's node, whatever else it holds, describes the input. -/
theorem describedBy_reparsed {i : InferInput} {members : List (Bytes × Json)} {payload : Payload}
    (hname : members.lookup (str "name") = some (.string i.name))
    (hdatatype : members.lookup (str "datatype") = some (.string i.datatype))
    (hshape : members.lookup (str "shape") = some (.array (i.shape.map .integer)))
    (hpayload : PayloadMembers (members.map fun m => (m.1, m.2.reparsed)) payload) :
    BodyTensor.DescribedBy ⟨i.name, i.datatype, i.shape, payload⟩ (Json.object members).reparsed := by
  refine ⟨_, reparsed_object _, .inl ?_, .inl ?_, .inl ⟨(i.shape.map .integer).map reparsed, ?_, ?_⟩,
    hpayload⟩
  · rw [lookup_reparsed, hname, Option.map_some, reparsed_string]
  · rw [lookup_reparsed, hdatatype, Option.map_some, reparsed_string]
  · rw [lookup_reparsed, hshape, Option.map_some, reparsed_array]
  · rw [List.map_map, List.forall₂_map_left_iff, List.forall₂_same]
    exact fun k _ => isInt_reparsed_integer k

theorem describedBy_binaryNode (i : InferInput) (hsize : i.bytes.length < maxSize) :
    BodyTensor.DescribedBy ⟨i.name, i.datatype, i.shape, .binary i.bytes⟩ i.binaryNode.reparsed := by
  refine describedBy_reparsed rfl rfl rfl
    ⟨[(str "binary_data_size", .unsigned (UInt64.ofNat i.bytes.length))],
      .unsigned (UInt64.ofNat i.bytes.length), ?_, rfl, ?_⟩
  · refine (lookup_reparsed _ _).trans (congrArg some ((reparsed_object _).trans ?_))
    exact congrArg (fun j => Json.object [(str "binary_data_size", j)]) (reparsed_unsigned _)
  · rw [maxSize] at hsize
    have hmod : i.bytes.length % 2 ^ 64 = i.bytes.length := Nat.mod_eq_of_lt (by omega)
    exact congrArg Nat.cast (UInt64.toNat_ofNat'.trans hmod)

/-- The nodes that come back from the text of a request. -/
theorem inputs_reparsed (outputNames : List Bytes) (nodes : List Json) :
    (requestDocument outputNames nodes).reparsed.subscript (str "inputs") =
      .ok (.array (nodes.map reparsed)) := by
  rw [requestDocument, reparsed_object]
  exact subscript_object ((lookup_reparsed _ _).trans (congrArg some (reparsed_array _)))

/-- **A binary body is read back**: the tensors in order, up to the end of the blob. -/
theorem readBinaryInputs_body {lib : JsonLib} (hlib : lib.Documented) {header : Bytes}
    (hdump : lib.dump (requestDocument outputNames (inputs.map InferInput.binaryNode)) = .ok header)
    (hsize : (inputs.flatMap InferInput.bytes).length < maxSize) :
    readBinaryInputs lib (header ++ inputs.flatMap InferInput.bytes) header.length =
      .ok (inputs.map InferInput.tensor, (inputs.flatMap InferInput.bytes).length,
        inputs.flatMap InferInput.bytes) := by
  let tensors : List BodyTensor :=
    inputs.map fun i => ⟨i.name, i.datatype, i.shape, .binary i.bytes⟩
  have hblob : blobOf tensors = inputs.flatMap InferInput.bytes := List.flatMap_map ..
  have hnodes : List.Forall₂ (fun node t => t.DescribedBy node)
      ((inputs.map InferInput.binaryNode).map reparsed) tensors := by
    rw [List.map_map, List.forall₂_map_left_iff, List.forall₂_map_right_iff, List.forall₂_same]
    intro i hi
    refine describedBy_binaryNode i (lt_of_le_of_lt ?_ hsize)
    rw [List.length_flatMap]
    exact List.le_sum_of_mem (List.mem_map_of_mem hi)
  have houtput : tensors.mapM BodyTensor.output = .ok (inputs.map InferInput.tensor) := by
    rw [List.mapM_map]
    exact Outcome.mapM_ok fun _ _ => rfl
  have hloop := decodeBinaryOutputs hnodes (hblob ▸ hsize)
  rw [hblob, houtput] at hloop
  rw [readBinaryInputs, splitBinaryBody, if_neg (by simp), List.take_left, List.drop_left,
    hlib _ _ hdump]
  simp only [Outcome.ok_bind, Outcome.pure_eq, inputs_reparsed, Json.elements, hloop, Outcome.map_ok]

/-- **Binary requests can be decoded back**: the announced header length and the content length are
those of the body, and the body read at the announced length is the list of inputs. -/
theorem inferRequest_binary (lib : JsonLib) (hlib : lib.Documented) (client : HttpClient)
    (kserveBinary : Option Bytes) (hbinary : binaryEnabled kserveBinary = true)
    (inputs : List InferInput) (hdata : ∀ i ∈ inputs, i.data.isSome) (ep : Endpoint)
    (hep : parseEndpoint client.endpoint 8080 = .ok ep) (header : Bytes)
    (hdump : lib.dump (requestDocument client.outputNames (inputs.map InferInput.binaryNode)) =
      .ok header)
    (hsize : header.length + (inputs.flatMap InferInput.bytes).length < maxSize) :
    let blob := inputs.flatMap InferInput.bytes
    (∃ head, client.inferRequest lib kserveBinary inputs = .ok (ep, head ++
      str "Inference-Header-Content-Length: " ++ toText header.length ++ str "\r\n" ++
      str "Content-Length: " ++ toText (header.length + (inputs.map (·.bytes.length)).sum) ++
      str "\r\n\r\n" ++ (header ++ blob))) ∧
    readBinaryInputs lib (header ++ blob) header.length =
      .ok (inputs.map InferInput.tensor, blob.length, blob) := by
  refine ⟨?_, readBinaryInputs_body hlib hdump (by omega)⟩
  have hlen : ((header ++ inputs.flatMap InferInput.bytes).length : ℤ) =
      header.length + ((inputs.map (·.bytes.length)).sum : ℕ) := by
    rw [List.length_append, List.length_flatMap, Nat.cast_add]
  have hmessage := inferMessage_binary.mpr ⟨hdata, header, hdump, hsize, rfl⟩
  obtain ⟨head, hhead⟩ := buildRequest_eq (str "POST") ep
    (ep.pathPrefix ++ inferPath client.modelName client.modelVersion) client.authToken
    (str "application/octet-stream") (str "Inference-Header-Content-Length: " ++
      toText header.length ++ str "\r\n") (header ++ inputs.flatMap InferInput.bytes)
  refine ⟨head, ?_⟩
  rw [inferRequest, hep, Outcome.ok_bind, hbinary, hmessage, Outcome.ok_bind, hhead, hlen]
  simp only [Outcome.pure_eq, List.append_assoc]

section Witness

/-- The header of a request with one input of two bytes. -/
def pairHeader : Bytes := str
  "\x7b\"id\":\"kserve-client\",\"inputs\":[\x7b\"datatype\":\"UINT8\",\"name\":\"x\",\"parameters\":\x7b\"binary_data_size\":2\x7d,\"shape\":[2]\x7d]\x7d"

def pairInput : InferInput := ⟨str "x", str "UINT8", [2], some [5, 6]⟩

def pairLib : JsonLib := .ofTable [(requestDocument [] [pairInput.binaryNode], pairHeader)]

theorem inferRequest_binary_pair :
    (∃ head, mixedClient.inferRequest pairLib (some (str "1")) [pairInput] =
      .ok (⟨str "localhost", 80, [], false⟩, head ++
        str "Inference-Header-Content-Length: " ++ toText 113 ++ str "\r\n" ++
        str "Content-Length: " ++ toText (113 + 2) ++ str "\r\n\r\n" ++ (pairHeader ++ [5, 6]))) ∧
    readBinaryInputs pairLib (pairHeader ++ [5, 6]) 113 =
      .ok ([⟨str "x", str "UINT8", [2], [5, 6]⟩], 2, [5, 6]) := by
  have hep : parseEndpoint mixedClient.endpoint 8080 = .ok ⟨str "localhost", 80, [], false⟩ := by
    decide +kernel
  have hlength : pairHeader.length = 113 := by decide +kernel
  have hdump : pairLib.dump (requestDocument [] [pairInput.binaryNode]) = .ok pairHeader := by
    rw [pairLib, JsonLib.dump_ofTable_self]
  have h := inferRequest_binary pairLib (JsonLib.ofTable_documented (List.pairwise_singleton ..)) mixedClient
    (some (str "1"))
    (by decide) [pairInput] (by simp [pairInput]) _ hep pairHeader hdump (by rw [hlength]; decide)
  rw [hlength] at h
  exact h

end Witness

end Requests

end KserveClient
