import KserveClient.GrpcOperations
import KserveClient.MetadataReply

/-!
# KserveClient.Versions — the version that each operation talks about

`Repository` is what a server knows: metadata by model and version, and the version it takes for a request
without one.  An HTTP server is a function from the text of a request to its response; `ServesHttp` and
`ServesGrpc` say that a server answers metadata requests from its repository.  `HttpClient.modelMetadata`
asks for the model without its version, and every other operation names the version.

* `modelMetadata_versions_iff`: when both clients get the metadata of the version they are bound to.
-/

namespace KserveClient

open Json Outcome

/-! ### Repositories -/

structure Repository where
  find : Bytes → Bytes → Option ModelMetadata
  /-- the version that a request without one is answered for -/
  chosen : Bytes → Bytes

/-- The metadata for a model and a version, or no version. -/
def Repository.resolve (repo : Repository) (modelName modelVersion : Bytes) : Option ModelMetadata :=
  if modelVersion = [] then repo.find modelName (repo.chosen modelName)
  else repo.find modelName modelVersion

/-! ### HTTP -/

/-- The path of a model, with or without a version, that the paths of its operations start with. -/
def modelPath (modelName modelVersion : Bytes) : Bytes :=
  if modelVersion = [] then str "/v2/models/" ++ modelName
  else str "/v2/models/" ++ modelName ++ str "/versions/" ++ modelVersion

theorem inferPath_eq (modelName modelVersion : Bytes) :
    inferPath modelName modelVersion = modelPath modelName modelVersion ++ str "/infer" := by
  rw [inferPath, modelPath]
  split_ifs <;> rfl

theorem modelReadyPath_eq (modelName modelVersion : Bytes) :
    modelReadyPath modelName modelVersion = modelPath modelName modelVersion ++ str "/ready" := by
  rw [modelReadyPath, modelPath]
  split_ifs <;> rfl

/-- `node` describes a tensor. -/
def DescribesTensor (node : Json) (spec : TensorSpec) : Prop :=
  ∃ members, node = .object members ∧ members.lookup (str "name") = some (.string spec.name) ∧
    (members.lookup (str "datatype") = some (.string spec.datatype) ∨
      members.lookup (str "datatype") = none ∧ spec.datatype = str "FP32") ∧
    ((∃ dims, members.lookup (str "shape") = some (.array dims) ∧
        List.Forall₂ (fun dim i => IsInt i.toInt dim) dims spec.shape) ∨
      members.lookup (str "shape") = none ∧ spec.shape = [])

/-- `document` describes a model. -/
def DescribesMetadata (document : Json) (m : ModelMetadata) : Prop :=
  ∃ members inputs outputs, document = .object members ∧
    members.lookup (str "inputs") = some (.array inputs) ∧ List.Forall₂ DescribesTensor inputs m.inputs ∧
    members.lookup (str "outputs") = some (.array outputs) ∧
    List.Forall₂ DescribesTensor outputs m.outputs ∧
    (members.lookup (str "platform") = some (.string m.platform) ∨
      members.lookup (str "platform") = none ∧ m.platform = [])

/-- `response` is the answer to a metadata request that found `found`. -/
def Replies (lib : JsonLib) (found : Option ModelMetadata) (response : HttpResponse) : Prop :=
  match found with
  | some m => response.status = 200 ∧
      ∃ document, lib.parse response.body = .ok document ∧ DescribesMetadata document m
  | none => response.status = 404

theorem value_of_lookup {members : List (Bytes × Json)} {key default s : Bytes}
    (h : members.lookup key = some (.string s) ∨ members.lookup key = none ∧ s = default) :
    (Json.object members).value key default = .ok s := by
  rw [Json.value]
  rcases h with h | ⟨h, rfl⟩
  · rw [h]
    rfl
  · rw [h]

namespace HttpClient

/-- The request for the metadata of a version of the client's model. -/
def metadataText (client : HttpClient) (ep : Endpoint) (modelVersion : Bytes) : Bytes :=
  buildRequest (str "GET") ep (ep.pathPrefix ++ modelPath client.modelName modelVersion) client.authToken
    [] [] []

/-- **The request for metadata never names a version.** -/
theorem metadataRequest_eq {client : HttpClient} {ep : Endpoint}
    (h : parseEndpoint client.endpoint 8080 = .ok ep) :
    client.metadataRequest = .ok (ep, client.metadataText ep []) := by
  rw [metadataRequest, h, ok_bind, metadataText, modelPath, if_pos rfl, List.append_assoc]
  rfl

theorem tensorSpec_describes {node : Json} {spec : TensorSpec} (h : DescribesTensor node spec) :
    tensorSpec node = .ok spec := by
  obtain ⟨members, rfl, hname, hdatatype, hshape⟩ := h
  rw [tensorSpec_named hname, value_of_lookup hdatatype, ok_bind]
  rcases hshape with ⟨dims, hdims, hall⟩ | ⟨hnone, hnil⟩
  · have hmap : dims.mapM (fun dim => dim.get Int64) = .ok spec.shape :=
      mapM_forall₂ (hall.imp fun dim i hdim => by rw [hdim.get_int64, Int64.ofInt_toInt])
    rw [readShape_some hdims, Json.elements, hmap]
    rfl
  · rw [readShape_none hnone, ← hnil]
    rfl

/-- A response that describes a model is read as its metadata, and the names are those of its outputs. -/
theorem decodeMetadata_describes {lib : JsonLib} {response : HttpResponse} {m : ModelMetadata}
    (h : Replies lib (some m) response) (names : List Bytes) :
    decodeMetadata lib response names = (.ok m, m.outputs.map TensorSpec.name) := by
  obtain ⟨hstatus, document, hparse, members, inputs, outputs, rfl, hinputs, hinputs', houtputs, houtputs',
    hplatform⟩ := h
  have hin : inputs.mapM tensorSpec = .ok m.inputs :=
    mapM_forall₂ (hinputs'.imp fun _ _ => tensorSpec_describes)
  have hout : outputs.mapM tensorSpec = .ok m.outputs :=
    mapM_forall₂ (houtputs'.imp fun _ _ => tensorSpec_describes)
  rw [decodeMetadata, metadataInputs_object hstatus hparse hinputs houtputs (value_of_lookup hplatform),
    Json.elements, hin, map_ok, ok_andThen]
  simp only [Json.elements, readOutputs_ok hout, List.nil_append]
  rfl

/-- Only the metadata of the model that was found is read. -/
theorem decodeMetadata_replies {lib : JsonLib} {response : HttpResponse} {found : Option ModelMetadata}
    {m : ModelMetadata} (h : Replies lib found response) (names : List Bytes) :
    (decodeMetadata lib response names).1 = .ok m ↔ found = some m := by
  cases found with
  | none =>
    have hstatus : response.status ≠ 200 := by
      rw [show response.status = 404 from h]
      decide
    rw [decodeMetadata, metadataInputs, if_pos hstatus]
    exact iff_of_false (fun hok => by cases hok) fun hnone => by cases hnone
  | some m' =>
    rw [decodeMetadata_describes h]
    constructor
    · intro hok
      cases hok
      rfl
    · intro hfound
      cases hfound
      rfl

end HttpClient

/-- The server answers each metadata request for the client's model from its repository. -/
def ServesHttp (lib : JsonLib) (serve : Bytes → HttpResponse) (repo : Repository) (client : HttpClient)
    (ep : Endpoint) : Prop :=
  ∀ modelVersion, Replies lib (repo.resolve client.modelName modelVersion)
    (serve (client.metadataText ep modelVersion))

/-! ### gRPC -/

/-- The message describes a tensor, and an empty datatype stands for the default. -/
def CarriesTensor (tensor : TensorMetadata) (spec : TensorSpec) : Prop :=
  tensor.name = spec.name ∧ tensor.shape = spec.shape ∧
    (tensor.datatype = spec.datatype ∧ spec.datatype ≠ [] ∨
      tensor.datatype = [] ∧ spec.datatype = str "FP32")

structure CarriesMetadata (response : ModelMetadataResponse) (m : ModelMetadata) : Prop where
  platform : response.platform = m.platform
  inputs : List.Forall₂ CarriesTensor response.inputs m.inputs
  outputs : List.Forall₂ CarriesTensor response.outputs m.outputs

/-- The server answers each metadata request for `modelName` from its repository. -/
def ServesGrpc {τ : Type} (stub : GrpcService τ) (repo : Repository) (modelName : Bytes) : Prop :=
  ∀ context modelVersion s, ∃ status response s',
    stub.modelMetadata context ⟨modelName, modelVersion⟩ s = (.ok status, response, s') ∧
      match repo.resolve modelName modelVersion with
      | some m => status.ok ∧ CarriesMetadata response m
      | none => status.errorCode = 5

namespace GrpcClient

theorem tensorSpec_carries {tensor : TensorMetadata} {spec : TensorSpec} (h : CarriesTensor tensor spec) :
    tensorSpec tensor = spec := by
  obtain ⟨hname, hshape, ⟨hdatatype, hne⟩ | ⟨hdatatype, hdefault⟩⟩ := h
  · rw [tensorSpec, hname, hshape, hdatatype, if_neg hne]
  · rw [tensorSpec, hname, hshape, hdatatype, if_pos rfl, ← hdefault]

theorem map_tensorSpec_carries {tensors : List TensorMetadata} {specs : List TensorSpec}
    (h : List.Forall₂ CarriesTensor tensors specs) : tensors.map tensorSpec = specs := by
  induction h with
  | nil => rfl
  | cons htensor _ ih => rw [List.map_cons, tensorSpec_carries htensor, ih]

/-- **The gRPC client gets the metadata of its version.** -/
theorem modelMetadata_serves {τ : Type} {stub : GrpcService τ} {client : GrpcClient} {repo : Repository}
    (hstub : ServesGrpc stub repo client.modelName) {m : ModelMetadata}
    (hm : repo.resolve client.modelName client.modelVersion = some m) (s : τ) :
    (client.modelMetadata stub s).1 = .ok m := by
  obtain ⟨status, response, s', hcall, hreply⟩ :=
    hstub (prepareContext client.timeoutMs client.authToken) client.modelVersion s
  rw [hm] at hreply
  obtain ⟨hok, hcarries⟩ := hreply
  rw [← metadataRequest_eq] at hcall
  have hunary : client.unary stub (str "KServe gRPC metadata fetch failed")
      (fun context => stub.modelMetadata context client.metadataRequest) {} s = (.ok response, s') :=
    unary_ok hcall hok
  rw [modelMetadata, hunary]
  show Outcome.ok (decodeMetadata response) = .ok m
  rw [decodeMetadata, map_tensorSpec_carries hcarries.inputs, map_tensorSpec_carries hcarries.outputs,
    hcarries.platform]

end GrpcClient

/-! ### The two clients of a version -/

section Clients

variable {σ τ : Type} {env : HttpEnv σ} {lib : JsonLib} (client : HttpClient) (grpc : GrpcClient)
  {serve : Bytes → HttpResponse} {stub : GrpcService τ} {repo : Repository} {ep : Endpoint}

/-- **Metadata by version**: bound to one version of a model, both clients get that version's metadata, and
the HTTP client the names of its outputs, exactly if the version that the server chooses for requests
without one has the same metadata.  Inference and probes always name the version. -/
theorem modelMetadata_versions_iff (hversion : client.modelVersion ≠ [])
    (hname : grpc.modelName = client.modelName) (hsame : grpc.modelVersion = client.modelVersion)
    (hendpoint : parseEndpoint client.endpoint 8080 = .ok ep)
    (hserve : ServesHttp lib serve repo client ep) (hstub : ServesGrpc stub repo client.modelName)
    (st : HttpConnection × σ) (s : τ)
    (hanswer : ∀ ep text, client.metadataRequest = .ok (ep, text) →
      ∃ st', client.sendRequest env ep text st = (.ok (serve text), st'))
    {m : ModelMetadata} (hm : repo.find client.modelName client.modelVersion = some m) :
    ((client.modelMetadata env lib st).1 = .ok m ∧
      (client.modelMetadata env lib st).2.1 = m.outputs.map TensorSpec.name ∧
      (grpc.modelMetadata stub s).1 = .ok m ∧
      inferPath client.modelName client.modelVersion =
        modelPath client.modelName client.modelVersion ++ str "/infer" ∧
      modelReadyPath client.modelName client.modelVersion =
        modelPath client.modelName client.modelVersion ++ str "/ready" ∧
      (∀ kserveBinary inputs request, grpc.inferRequest kserveBinary inputs = .ok request →
        request.modelName = client.modelName ∧ request.modelVersion = client.modelVersion) ∧
      grpc.readyRequest = ⟨client.modelName, client.modelVersion⟩) ↔
    repo.find client.modelName (repo.chosen client.modelName) = some m := by
  have hrequest := HttpClient.metadataRequest_eq hendpoint
  have hanswered : client.Answered env client.metadataRequest st (serve (client.metadataText ep [])) := by
    obtain ⟨st', hsend⟩ := hanswer _ _ hrequest
    exact ⟨_, _, st', hrequest, hsend⟩
  obtain ⟨st', hrun⟩ := HttpClient.modelMetadata_answered lib hanswered
  have hreply := hserve []
  rw [Repository.resolve, if_pos rfl] at hreply
  rw [hrun]
  constructor
  · rintro ⟨hhttp, -⟩
    exact (HttpClient.decodeMetadata_replies hreply _).mp hhttp
  · intro hfound
    rw [hfound] at hreply
    rw [HttpClient.decodeMetadata_describes hreply]
    have hgrpc : repo.resolve grpc.modelName grpc.modelVersion = some m := by
      rw [Repository.resolve, hsame, if_neg hversion, hname, hm]
    refine ⟨rfl, rfl, GrpcClient.modelMetadata_serves (hname ▸ hstub) hgrpc s,
      inferPath_eq _ _, modelReadyPath_eq _ _, fun kserveBinary inputs request hrequest => ?_, ?_⟩
    · obtain ⟨hname', hversion'⟩ := GrpcClient.inferRequest_address hrequest
      exact ⟨hname'.trans hname, hversion'.trans hsame⟩
    · rw [GrpcClient.readyRequest_eq, hname, hsame]

end Clients

/-! ### A server with two versions -/

/-- A model whose only output is called `output`. -/
def oneOutput (output : Bytes) : ModelMetadata := ⟨[], [⟨output, str "FP32", []⟩], []⟩

/-- Version 1 has an output `a`, every other version an output `b`. -/
def versionOutput (modelVersion : Bytes) : Bytes := if modelVersion = str "1" then str "a" else str "b"

/-- The server chooses version 2. -/
def twoVersions : Repository where
  find _ modelVersion := some (oneOutput (versionOutput modelVersion))
  chosen _ := str "2"

def oneOutputDocument (output : Bytes) : Json := .object [(str "inputs", .array []),
  (str "outputs", .array [.object [(str "name", .string output)]])]

def oneOutputText (output : Bytes) : Bytes :=
  str "\x7b\"inputs\":[],\"outputs\":[\x7b\"name\":\"" ++ output ++ str "\"\x7d]\x7d"

def versionsLib : JsonLib := .ofTable [(oneOutputDocument (str "a"), oneOutputText (str "a")),
  (oneOutputDocument (str "b"), oneOutputText (str "b"))]

def versionsServe (text : Bytes) : HttpResponse :=
  if text = (HttpClient.sampleClient (str "1") []).metadataText HttpClient.sampleEndpoint (str "1") then
    ⟨200, oneOutputText (str "a"), -1⟩
  else ⟨200, oneOutputText (str "b"), -1⟩

def versionsStub : GrpcService Unit where
  modelInfer _ _ _ := (.ok ⟨0, []⟩, {}, ())
  sleep _ s := s
  jitter s := (0, s)
  modelMetadata _ request _ := (.ok ⟨0, []⟩,
    { outputs := [⟨versionOutput request.version, str "FP32", []⟩] }, ())
  serverLive _ _ := (.ok ⟨0, []⟩, true, ())
  serverReady _ _ := (.ok ⟨0, []⟩, true, ())
  modelReady _ _ _ := (.ok ⟨0, []⟩, true, ())

open HttpClient

theorem describes_oneOutput (output : Bytes) :
    DescribesMetadata (oneOutputDocument output) (oneOutput output) :=
  ⟨_, _, _, rfl, rfl, .nil, rfl, .cons ⟨_, rfl, rfl, .inr ⟨rfl, rfl⟩, .inr ⟨rfl, rfl⟩⟩ .nil, .inr ⟨rfl, rfl⟩⟩

theorem modelPath_injective (modelName : Bytes) : Function.Injective (modelPath modelName) := by
  intro v w h
  unfold modelPath at h
  split_ifs at h with hv hw hw
  · rw [hv, hw]
  · simp [str] at h
  · simp [str] at h
  · exact List.append_cancel_left h

theorem metadataText_injective (client : HttpClient) (ep : Endpoint) :
    Function.Injective (client.metadataText ep) := by
  intro v w h
  simp only [metadataText, buildRequest, List.append_assoc] at h
  refine modelPath_injective client.modelName ?_
  have htail := List.append_cancel_left (List.append_cancel_left (List.append_cancel_left h))
  exact List.append_cancel_right htail

theorem resolve_twoVersions (modelName modelVersion : Bytes) :
    twoVersions.resolve modelName modelVersion = some (oneOutput (versionOutput modelVersion)) := by
  rw [Repository.resolve]
  split_ifs with hnil
  · rw [hnil]
    rfl
  · rfl

theorem versionsServe_serves (modelVersion : Bytes) :
    ServesHttp versionsLib versionsServe twoVersions (sampleClient modelVersion []) sampleEndpoint := by
  intro version
  have hserve : versionsServe ((sampleClient modelVersion []).metadataText sampleEndpoint version) =
      if version = str "1" then ⟨200, oneOutputText (str "a"), -1⟩
      else ⟨200, oneOutputText (str "b"), -1⟩ :=
    if_congr (metadataText_injective (sampleClient (str "1") []) sampleEndpoint).eq_iff rfl rfl
  rw [resolve_twoVersions, hserve, versionOutput]
  split_ifs
  · exact ⟨rfl, _, rfl, describes_oneOutput (str "a")⟩
  · exact ⟨rfl, _, rfl, describes_oneOutput (str "b")⟩

theorem versionsStub_serves (modelName : Bytes) : ServesGrpc versionsStub twoVersions modelName := by
  intro context version s
  refine ⟨⟨0, []⟩, { outputs := [⟨versionOutput version, str "FP32", []⟩] }, (), rfl, ?_⟩
  rw [resolve_twoVersions]
  have hdatatype : str "FP32" ≠ [] := by decide
  exact ⟨rfl, rfl, .nil, .cons ⟨rfl, rfl, .inl ⟨rfl, hdatatype⟩⟩ .nil⟩

/-- The response for the version that the server chooses. -/
def chosenPiece : Piece :=
  ⟨str "HTTP/1.1 200 OK\r\nContent-Length: 38\r\n\r\n" ++ oneOutputText (str "b"), by decide +kernel,
    by decide +kernel⟩

theorem roundTrip_chosen : roundTrip ⟨none, [], 0, false⟩ sampleEndpoint sampleRequest
    (sampleIo sampleRequest chosenPiece) =
      (.ok ⟨200, oneOutputText (str "b"), -1⟩, ⟨some .plain, str "localhost", 80, false⟩, []) := by
  decide +kernel

/-- Whatever the version, the client gets the response for the chosen one. -/
theorem sendRequest_chosen (modelVersion : Bytes) (ep : Endpoint) (text : Bytes)
    (h : (sampleClient modelVersion []).metadataRequest = .ok (ep, text)) :
    ∃ st', (sampleClient modelVersion []).sendRequest HttpEnv.scripted ep text
      (⟨none, [], 0, false⟩, [sampleIo sampleRequest chosenPiece]) = (.ok (versionsServe text), st') := by
  rw [metadataRequest_sample] at h
  cases h
  have hserve : versionsServe sampleRequest = ⟨200, oneOutputText (str "b"), -1⟩ := by
    decide +kernel
  rw [hserve]
  exact ⟨_, sendRequest_first rfl roundTrip_chosen rfl⟩

/-- A client of version 2, the version that the server chooses. -/
theorem modelMetadata_versions_chosen :
    ((sampleClient (str "2") []).modelMetadata HttpEnv.scripted versionsLib
        (⟨none, [], 0, false⟩, [sampleIo sampleRequest chosenPiece])).1 = .ok (oneOutput (str "b")) ∧
      ((GrpcClient.mk (str "m") (str "2") 1000 [] {}).modelMetadata versionsStub ()).1 =
        .ok (oneOutput (str "b")) := by
  obtain ⟨hhttp, -, hgrpc, -⟩ := (modelMetadata_versions_iff (sampleClient (str "2") [])
    ⟨str "m", str "2", 1000, [], {}⟩ (by decide) rfl rfl rfl (versionsServe_serves (str "2"))
    (versionsStub_serves (str "m")) (⟨none, [], 0, false⟩, [sampleIo sampleRequest chosenPiece]) ()
    (sendRequest_chosen (str "2")) rfl).mpr rfl
  exact ⟨hhttp, hgrpc⟩

/-- A client of version 1 gets the metadata of version 2 over HTTP. -/
theorem modelMetadata_versions_other :
    twoVersions.find (str "m") (str "1") = some (oneOutput (str "a")) ∧
      ((sampleClient (str "1") []).modelMetadata HttpEnv.scripted versionsLib
        (⟨none, [], 0, false⟩, [sampleIo sampleRequest chosenPiece])).1 = .ok (oneOutput (str "b")) ∧
      ((GrpcClient.mk (str "m") (str "1") 1000 [] {}).modelMetadata versionsStub ()).1 =
        .ok (oneOutput (str "a")) ∧
      oneOutput (str "b") ≠ oneOutput (str "a") := by
  obtain ⟨st', hsend⟩ := sendRequest_chosen (str "1") sampleEndpoint sampleRequest rfl
  have hanswer : (sampleClient (str "1") []).Answered HttpEnv.scripted
      (sampleClient (str "1") []).metadataRequest
      (⟨none, [], 0, false⟩, [sampleIo sampleRequest chosenPiece]) (versionsServe sampleRequest) :=
    ⟨_, _, st', metadataRequest_sample _ _, hsend⟩
  obtain ⟨st'', hrun⟩ := modelMetadata_answered versionsLib hanswer
  have hreply : Replies versionsLib (some (oneOutput (str "b"))) (versionsServe sampleRequest) :=
    versionsServe_serves (str "1") []
  refine ⟨rfl, ?_, GrpcClient.modelMetadata_serves (versionsStub_serves (str "m")) rfl (), by decide⟩
  rw [hrun, decodeMetadata_describes hreply]

end KserveClient
