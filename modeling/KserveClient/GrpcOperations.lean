import KserveClient.GrpcClient

/-!
# KserveClient.GrpcOperations — metadata, probes and the model repository over gRPC

The further calls of the generated stub (`GrpcService`) and the operations made of them.  A model's version
goes into a request only when it is not empty, and an empty string field is its default.  The calls to the
model repository (`RepositoryService`) are there only when they are compiled in.
-/

namespace KserveClient

open Outcome

/-! ### Messages -/

structure ModelMetadataRequest where
  name : Bytes
  version : Bytes := []
deriving DecidableEq

structure TensorMetadata where
  name : Bytes
  datatype : Bytes
  shape : List Int64

structure ModelMetadataResponse where
  platform : Bytes := []
  inputs : List TensorMetadata := []
  outputs : List TensorMetadata := []

structure ModelReadyRequest where
  name : Bytes
  version : Bytes := []
deriving DecidableEq

/-- The calls of the stub; the answer to a probe is its one field. -/
structure GrpcService (σ : Type) extends GrpcStub σ where
  modelMetadata : ClientContext → ModelMetadataRequest → σ → Outcome GrpcStatus × ModelMetadataResponse × σ
  serverLive : ClientContext → σ → Outcome GrpcStatus × Bool × σ
  serverReady : ClientContext → σ → Outcome GrpcStatus × Bool × σ
  modelReady : ClientContext → ModelReadyRequest → σ → Outcome GrpcStatus × Bool × σ

structure RepositoryModelLoadRequest where
  modelName : Bytes
deriving DecidableEq

structure RepositoryModelUnloadRequest where
  modelName : Bytes
deriving DecidableEq

/-- One entry of the response to `RepositoryIndex`. -/
structure ModelIndex where
  name : Bytes
  version : Bytes
  state : Bytes
  reason : Bytes
deriving DecidableEq

/-- The calls of the model repository extension; two of the responses have no fields. -/
structure RepositoryService (σ : Type) extends GrpcService σ where
  repositoryIndex : ClientContext → σ → Outcome GrpcStatus × List ModelIndex × σ
  repositoryModelLoad : ClientContext → RepositoryModelLoadRequest → σ → Outcome GrpcStatus × Unit × σ
  repositoryModelUnload : ClientContext → RepositoryModelUnloadRequest → σ → Outcome GrpcStatus × Unit × σ

namespace GrpcClient

section Operations

variable {σ : Type} (stub : GrpcService σ) (client : GrpcClient)

/-- A call under the retry loop: its response, or what a status other than OK throws. -/
def unary {ρ : Type} (what : Bytes) (call : ClientContext → σ → Outcome GrpcStatus × ρ × σ) (response : ρ)
    (s : σ) : Outcome ρ × σ :=
  let (status, response, s) := retryGrpc stub.toGrpcStub client
    (call (prepareContext client.timeoutMs client.authToken)) response s
  (do
    let status ← status
    if !status.ok then throwStatus what status else pure response, s)

/-! ### Metadata -/

def metadataRequest : ModelMetadataRequest :=
  if client.modelVersion ≠ [] then { name := client.modelName, version := client.modelVersion }
  else { name := client.modelName }

def tensorSpec (tensor : TensorMetadata) : TensorSpec :=
  ⟨tensor.name, if tensor.datatype = [] then str "FP32" else tensor.datatype, tensor.shape⟩

def decodeMetadata (response : ModelMetadataResponse) : ModelMetadata :=
  ⟨response.inputs.map tensorSpec, response.outputs.map tensorSpec, response.platform⟩

def modelMetadata (s : σ) : Outcome ModelMetadata × σ :=
  let (response, s) := client.unary stub (str "KServe gRPC metadata fetch failed")
    (fun context => stub.modelMetadata context client.metadataRequest) {} s
  (decodeMetadata <$> response, s)

/-! ### Probes -/

def serverLive (s : σ) : Outcome Bool × σ :=
  client.unary stub (str "KServe gRPC ServerLive failed") stub.serverLive false s

def serverReady (s : σ) : Outcome Bool × σ :=
  client.unary stub (str "KServe gRPC ServerReady failed") stub.serverReady false s

def readyRequest : ModelReadyRequest :=
  if client.modelVersion ≠ [] then { name := client.modelName, version := client.modelVersion }
  else { name := client.modelName }

def modelReady (s : σ) : Outcome Bool × σ :=
  client.unary stub (str "KServe gRPC ModelReady failed")
    (fun context => stub.modelReady context client.readyRequest) false s

end Operations

/-! ### The model repository -/

section Repository

variable {σ : Type} (stub : RepositoryService σ) (client : GrpcClient)

/-- What the operations are without `KSERVE_CLIENT_PROTO_REPOSITORY`. -/
def repositoryMissing {α : Type} : Outcome α :=
  throwRuntime (str "model repository gRPC not compiled in (use OIP_REPOSITORY proto profile)")

def repositoryModel (model : ModelIndex) : RepositoryModel :=
  ⟨model.name, model.version, model.state, model.reason⟩

def repositoryIndex (withRepository : Bool) (s : σ) : Outcome (List RepositoryModel) × σ :=
  if withRepository then
    let (response, s) := client.unary stub.toGrpcService (str "KServe gRPC RepositoryIndex failed")
      stub.repositoryIndex [] s
    (List.map repositoryModel <$> response, s)
  else (repositoryMissing, s)

def loadModel (withRepository : Bool) (modelName : Bytes) (s : σ) : Outcome Unit × σ :=
  if withRepository then
    client.unary stub.toGrpcService (str "KServe gRPC RepositoryModelLoad failed")
      (fun context => stub.repositoryModelLoad context ⟨modelName⟩) () s
  else (repositoryMissing, s)

def unloadModel (withRepository : Bool) (modelName : Bytes) (s : σ) : Outcome Unit × σ :=
  if withRepository then
    client.unary stub.toGrpcService (str "KServe gRPC RepositoryModelUnload failed")
      (fun context => stub.repositoryModelUnload context ⟨modelName⟩) () s
  else (repositoryMissing, s)

end Repository

/-! ### What the requests carry -/

variable {σ : Type} {stub : GrpcService σ} {client : GrpcClient}

/-- A call that succeeds at once. -/
theorem unary_ok {ρ : Type} {what : Bytes} {call : ClientContext → σ → Outcome GrpcStatus × ρ × σ}
    {response response' : ρ} {status : GrpcStatus} {s s' : σ}
    (hcall : call (prepareContext client.timeoutMs client.authToken) s = (.ok status, response', s'))
    (hok : status.ok) : client.unary stub what call response s = (.ok response', s') := by
  have hretry : retryGrpc stub.toGrpcStub client (call (prepareContext client.timeoutMs client.authToken))
      response s = (.ok status, response', s') := by
    rw [retryGrpc, runWithRetry_first]
    · exact hcall
    · simp [hcall, IsFinal, hok]
  rw [unary]
  simp only [hretry, ok_bind, hok, Bool.not_true, Bool.false_eq_true, if_false]
  rfl

theorem metadataRequest_eq : client.metadataRequest = ⟨client.modelName, client.modelVersion⟩ := by
  rw [metadataRequest]
  by_cases hversion : client.modelVersion = []
  · rw [if_neg (not_not.mpr hversion), hversion]
  · rw [if_pos hversion]

theorem readyRequest_eq : client.readyRequest = ⟨client.modelName, client.modelVersion⟩ := by
  rw [readyRequest]
  by_cases hversion : client.modelVersion = []
  · rw [if_neg (not_not.mpr hversion), hversion]
  · rw [if_pos hversion]

/-- The request of `infer` carries the client's model and version. -/
theorem inferRequest_address {kserveBinary : Option Bytes} {inputs : List InferInput}
    {request : ModelInferRequest} (h : client.inferRequest kserveBinary inputs = .ok request) :
    request.modelName = client.modelName ∧ request.modelVersion = client.modelVersion := by
  refine foldlM_keeps (P := fun r : ModelInferRequest =>
    r.modelName = client.modelName ∧ r.modelVersion = client.modelVersion) ?_ h ⟨rfl, rfl⟩
  intro r input r' hstep hr
  rw [addInput] at hstep
  cases hdata : input.data with
  | none => rw [hdata] at hstep; cases hstep
  | some data =>
    rw [hdata] at hstep
    dsimp only at hstep
    split_ifs at hstep with hraw
    · cases hstep
      exact hr
    · obtain ⟨contents, -, hstep⟩ := bind_eq_ok.mp hstep
      cases hstep
      exact hr

end GrpcClient

end KserveClient
