import KserveClient.GrpcContents
import KserveClient.Retry
import KserveClient.Types

/-!
# KserveClient.GrpcClient — inference over gRPC

`infer` builds a request, calls the stub under the retry loop and decodes the response.  The generated
stub, the sleeper and the random source are a parameter (`GrpcStub`), acting on a state of their own.

`OutputTensor` is a tensor as the server means it and `Encodes` says which responses carry a given list
of tensors: raw entries, typed contents or the legacy doubles.  `infer_eq` is the result on each of
them: the tensors, whatever the form.
-/

namespace KserveClient

open LittleEndian

/-! ### Messages -/

structure InferInputTensor where
  name : Bytes
  datatype : Bytes
  shape : List Int64
  contents : InferTensorContents := {}

structure ModelInferRequest where
  modelName : Bytes
  modelVersion : Bytes
  id : Bytes
  inputs : List InferInputTensor := []
  rawInputContents : List Bytes := []

structure InferOutputTensor where
  name : Bytes
  datatype : Bytes
  shape : List Int64
  contents : InferTensorContents := {}

structure ModelInferResponse where
  outputs : List InferOutputTensor := []
  rawOutputContents : List Bytes := []

structure GrpcStatus where
  errorCode : ℤ
  errorMessage : Bytes

def GrpcStatus.ok (s : GrpcStatus) : Bool := s.errorCode == 0

/-- The per-call settings: the deadline and the metadata. -/
structure ClientContext where
  deadlineMs : ℤ
  metadata : List (Bytes × Bytes)

/-- The generated stub and the two effects of the retry loop. -/
structure GrpcStub (σ : Type) where
  modelInfer : ClientContext → ModelInferRequest → σ → Outcome GrpcStatus × ModelInferResponse × σ
  sleep : ℤ → σ → σ
  jitter : σ → ℚ × σ

/-- `GrpcClient` -/
structure GrpcClient where
  modelName : Bytes
  modelVersion : Bytes
  timeoutMs : ℤ
  authToken : Bytes
  retryPolicy : RetryPolicy

/-! ### The client -/

/-- Raw payloads are sent unless `KSERVE_BINARY` is falsey. -/
def rawContentsEnabled (kserveBinary : Option Bytes) : Bool :=
  match kserveBinary with
  | none => true
  | some raw =>
    let value := toLower raw
    !(value == str "0" || value == str "false" || value == str "off" || value == str "no")

def prepareContext (timeoutMs : ℤ) (authToken : Bytes) : ClientContext where
  deadlineMs := timeoutMs
  metadata := if authToken ≠ [] then [(str "authorization", str "Bearer " ++ authToken)] else []

def throwStatus {α : Type} (what : Bytes) (status : GrpcStatus) : Outcome α :=
  throwRuntime (what ++ str ": " ++ toText status.errorCode ++ str " " ++ status.errorMessage)

section Calls

variable {σ : Type} (stub : GrpcStub σ) (client : GrpcClient)

/-- Wraps a unary stub call in the retry loop. -/
def retryGrpc {ρ : Type} (call : σ → Outcome GrpcStatus × ρ × σ) (response : ρ) (s : σ) :
    Outcome GrpcStatus × ρ × σ :=
  runWithRetry client.retryPolicy (fun (_, s) => call s)
    (fun status => !status.ok && isRetryableGrpcStatus status.errorCode)
    (fun ms (response, s) => (response, stub.sleep ms s))
    (fun (response, s) => let (u, s) := stub.jitter s; (u, response, s)) (response, s)

/-- One round of the loop over the inputs. -/
def GrpcClient.addInput (rawContents : Bool) (request : ModelInferRequest) (input : InferInput) :
    Outcome ModelInferRequest :=
  match input.data with
  | none => throwRuntime (str "KServe input '" ++ input.name ++ str "' has no data")
  | some data =>
    let node : InferInputTensor := ⟨input.name, input.datatype, input.shape, {}⟩
    if rawContents then
      pure { request with inputs := request.inputs ++ [node],
                          rawInputContents := request.rawInputContents ++ [data] }
    else do
      let contents ← encodeInput node.contents data input.datatype
      pure { request with inputs := request.inputs ++ [{ node with contents }] }

/-- The request of `infer`. -/
def GrpcClient.inferRequest (kserveBinary : Option Bytes) (inputs : List InferInput) :
    Outcome ModelInferRequest :=
  inputs.foldlM (GrpcClient.addInput (rawContentsEnabled kserveBinary))
    { modelName := client.modelName, modelVersion := client.modelVersion,
      id := str "kserve-grpc-client" }

/-- One round of the loop over the outputs. -/
def decodeOutput (response : ModelInferResponse) (output : InferOutputTensor) (i : ℕ) :
    Outcome InferOutput := do
  let hasRaw := 0 < response.rawOutputContents.length
  let datatype := if output.datatype = [] then str "FP32" else output.datatype
  let data ←
    if hasRaw ∧ i < response.rawOutputContents.length then
      pure (response.rawOutputContents.getD i [])
    else contentsToBytes output.contents datatype
  pure ⟨output.name, datatype, output.shape, data⟩

/-- The outputs of a response. -/
def decodeOutputs (response : ModelInferResponse) : Outcome (List InferOutput) :=
  response.outputs.zipIdx.mapM fun (output, i) => decodeOutput response output i

/-- The call of `infer`, with its retries. -/
def GrpcClient.callModelInfer (request : ModelInferRequest) (s : σ) :
    Outcome GrpcStatus × ModelInferResponse × σ :=
  retryGrpc stub client
    (stub.modelInfer (prepareContext client.timeoutMs client.authToken) request) {} s

def GrpcClient.infer (kserveBinary : Option Bytes) (inputs : List InferInput) (s : σ) :
    Outcome (List InferOutput) × σ :=
  (client.inferRequest kserveBinary inputs).andThen (fun request s =>
    let (status, response, s) := client.callModelInfer stub request s
    (do
      let status ← status
      if !status.ok then throwStatus (str "KServe gRPC inference failed") status
      else decodeOutputs response, s)) s

end Calls

/-! ### The tensors of a response -/

/-- An output tensor as the server means it: typed values, none of them a NaN. -/
structure OutputTensor where
  name : Bytes
  shape : List Int64
  type : Datatype
  values : List type.codec.Elem
  ne_fp16 : type ≠ .FP16
  ne_bool : type ≠ .BOOL
  noNaN : ∀ v ∈ values, ¬ type.codec.IsNaN v

namespace OutputTensor

/-- The little-endian bytes of the values. -/
def bytes (t : OutputTensor) : Bytes := layout t.values

/-- What the caller of `infer` is to get. -/
def output (t : OutputTensor) : InferOutput := ⟨t.name, t.type.tag, t.shape, t.bytes⟩

/-- `o` carries the name, the datatype and the shape of `t`. -/
structure DescribedBy (t : OutputTensor) (o : InferOutputTensor) : Prop where
  name : o.name = t.name
  datatype : o.datatype = t.type.tag
  shape : o.shape = t.shape

/-- `c` carries the values of `t`, in the field of the datatype or widened to doubles. -/
inductive CarriedBy (t : OutputTensor) : InferTensorContents → Prop
  | typed : CarriedBy t (t.type.typedContents t.values)
  | legacy (h : ∀ v ∈ t.values, t.type.WidensExactly v) :
      CarriedBy t (t.type.legacyContents t.values)

end OutputTensor

/-- The responses that carry the tensors `ts`. -/
inductive Encodes (ts : List OutputTensor) : ModelInferResponse → Prop
  /-- one raw entry an output -/
  | raw {outputs : List InferOutputTensor} (h : List.Forall₂ (fun o t => t.DescribedBy o) outputs ts) :
      Encodes ts ⟨outputs, ts.map OutputTensor.bytes⟩
  /-- typed contents, of either form for each output -/
  | contents {outputs : List InferOutputTensor}
      (h : List.Forall₂ (fun o t => t.DescribedBy o ∧ t.CarriedBy o.contents) outputs ts) :
      Encodes ts ⟨outputs, []⟩

theorem OutputTensor.CarriedBy.contentsToBytes_eq {t : OutputTensor} {c : InferTensorContents}
    (h : t.CarriedBy c) : contentsToBytes c t.type.tag = .ok t.bytes := by
  cases h with
  | typed => exact contentsToBytes_typed t.ne_fp16 t.ne_bool t.noNaN
  | legacy hexact => exact contentsToBytes_legacy t.ne_fp16 t.ne_bool t.noNaN hexact

theorem Datatype.tag_ne_nil (d : Datatype) : d.tag ≠ [] := by
  cases d <;> decide

/-- One output, once its data is known. -/
theorem decodeOutput_eq {response : ModelInferResponse} {o : InferOutputTensor} {t : OutputTensor}
    {i : ℕ} (h : t.DescribedBy o)
    (hdata : response.rawOutputContents[i]? = some t.bytes ∨
      response.rawOutputContents = [] ∧ contentsToBytes o.contents t.type.tag = .ok t.bytes) :
    decodeOutput response o i = .ok t.output := by
  have htag : (if o.datatype = [] then str "FP32" else o.datatype) = t.type.tag := by
    rw [if_neg (by rw [h.datatype]; exact t.type.tag_ne_nil), h.datatype]
  unfold decodeOutput
  simp only [htag, h.name, h.shape]
  rcases hdata with hraw | ⟨hnil, hc⟩
  · obtain ⟨hi, -⟩ := List.getElem?_eq_some_iff.mp hraw
    rw [if_pos ⟨by omega, hi⟩, List.getD_eq_getElem?_getD, hraw]
    rfl
  · rw [if_neg (by simp [hnil]), hc]
    rfl

theorem decodeOutputs_eq {ts : List OutputTensor} {response : ModelInferResponse}
    (h : Encodes ts response) : decodeOutputs response = .ok (ts.map OutputTensor.output) := by
  unfold decodeOutputs
  cases h with
  | raw h =>
    refine Outcome.mapM_zipIdx h 0 fun j o t hd hj => decodeOutput_eq hd (Or.inl ?_)
    rw [Nat.zero_add, List.getElem?_map, hj]
    rfl
  | contents h =>
    exact Outcome.mapM_zipIdx h 0 fun j o t hd _ =>
      decodeOutput_eq hd.1 (Or.inr ⟨rfl, hd.2.contentsToBytes_eq⟩)

/-- **The outputs of `infer` do not depend on the form of the response**: whenever the call succeeds
with a response that carries the tensors `ts`, those tensors are returned. -/
theorem infer_encodes {σ : Type} (stub : GrpcStub σ) (client : GrpcClient)
    (kserveBinary : Option Bytes) (inputs : List InferInput) (request : ModelInferRequest)
    (hrequest : client.inferRequest kserveBinary inputs = .ok request)
    (ts : List OutputTensor) (response : ModelInferResponse) (hencodes : Encodes ts response)
    (status : GrpcStatus) (hok : status.ok) (s s' : σ)
    (hcall : client.callModelInfer stub request s = (.ok status, response, s')) :
    client.infer stub kserveBinary inputs s = (.ok (ts.map OutputTensor.output), s') := by
  simp only [GrpcClient.infer, hrequest, Outcome.ok_andThen, hcall, Outcome.ok_bind, hok,
    Bool.not_true, Bool.false_eq_true, if_false, decodeOutputs_eq hencodes]

/-- A server that gives every call the same answer. -/
def GrpcStub.answering (status : GrpcStatus) (response : ModelInferResponse) : GrpcStub Unit where
  modelInfer _ _ _ := (.ok status, response, ())
  sleep _ s := s
  jitter s := (0, s)

theorem callModelInfer_answering {client : GrpcClient} {request : ModelInferRequest}
    {status : GrpcStatus} {response : ModelInferResponse} (hok : status.ok) :
    client.callModelInfer (.answering status response) request () = (.ok status, response, ()) :=
  runWithRetry_first (by simp [GrpcStub.answering, IsFinal, hok])

/-- An `INT64` tensor in the legacy form beside an empty `FP32` tensor in the typed form. -/
theorem infer_encodes_mixed :
    (GrpcClient.mk (str "m") [] 1000 [] {}).infer
      (.answering ⟨0, []⟩
        ⟨[⟨str "a", str "INT64", [1], Datatype.legacyContents .INT64 [(-3 : Int64)]⟩,
          ⟨str "b", str "FP32", [0], {}⟩], []⟩) none [] () =
    (.ok [⟨str "a", str "INT64", [1], [0xFD, 0xFF, 0xFF, 0xFF, 0xFF, 0xFF, 0xFF, 0xFF]⟩,
      ⟨str "b", str "FP32", [0], []⟩], ()) := by
  have hexact : ∃ x : F64, x.Represents (MachineInt.num (-3 : Int64)) := by
    refine ⟨_, BinaryFloat.Value.represents_of_lt (?_ : 3 < 2 ^ (BinaryFloat.binary64.mbits + 1)) ?_⟩
    · decide
    · decide
  let a : OutputTensor := ⟨str "a", [1], .INT64, [(-3 : Int64)], by simp, by simp, fun _ _ h => h⟩
  let b : OutputTensor := ⟨str "b", [0], .FP32, [], by simp, by simp, by simp⟩
  refine infer_encodes (.answering ⟨0, []⟩ _) ⟨str "m", [], 1000, [], {}⟩ none [] _ rfl [a, b] _
    (.contents (.cons ⟨⟨rfl, rfl, rfl⟩, .legacy ?_⟩ (.cons ⟨⟨rfl, rfl, rfl⟩, .typed⟩ .nil))) ⟨0, []⟩ rfl
    () () (callModelInfer_answering rfl)
  intro v hv
  rw [List.mem_singleton.mp hv]
  exact hexact

end KserveClient
