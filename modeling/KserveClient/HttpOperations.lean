import KserveClient.HttpClient

/-!
# KserveClient.HttpOperations — metadata, probes and the model repository over HTTP

Each operation builds a request, sends it under the retry loop and reads the response.  `modelMetadata`
also refills the client's output names, one by one in the loop that reads the outputs: `readOutputs`
carries them as a state.  `Answered` says which response the retry loop returns; what an operation ends in
is then what reading that response ends in (`modelMetadata_answered`, `infer_answered`,
`repositoryIndex_answered`).
-/

namespace KserveClient

open Json Outcome

/-! ### Paths -/

def serverLivePath : Bytes := str "/v2/health/live"

def serverReadyPath : Bytes := str "/v2/health/ready"

def modelReadyPath (modelName modelVersion : Bytes) : Bytes :=
  if modelVersion = [] then str "/v2/models/" ++ modelName ++ str "/ready"
  else str "/v2/models/" ++ modelName ++ str "/versions/" ++ modelVersion ++ str "/ready"

def repositoryIndexPath : Bytes := str "/v2/repository/index"

def repositoryModelLoadPath (modelName : Bytes) : Bytes :=
  str "/v2/repository/models/" ++ modelName ++ str "/load"

def repositoryModelUnloadPath (modelName : Bytes) : Bytes :=
  str "/v2/repository/models/" ++ modelName ++ str "/unload"

namespace HttpClient

section Operations

variable {σ : Type} (env : HttpEnv σ) (lib : JsonLib) (client : HttpClient)

/-! ### Metadata -/

/-- The endpoint and the request of `modelMetadata`. -/
def metadataRequest : Outcome (Endpoint × Bytes) := do
  let ep ← parseEndpoint client.endpoint 8080
  let path := ep.pathPrefix ++ str "/v2/models/" ++ client.modelName
  pure (ep, buildRequest (str "GET") ep path client.authToken [] [] [])

/-- One element of the inputs or the outputs. -/
def tensorSpec (node : Json) : Outcome TensorSpec := do
  let name ← node.subscript (str "name")
  let name ← name.get Bytes
  let datatype ← node.value (str "datatype") (str "FP32")
  let shape ← readShape node
  pure ⟨name, datatype, shape⟩

/-- `modelMetadata` up to the loop over the outputs: the platform, the inputs, and the outputs' document. -/
def metadataInputs (response : HttpResponse) : Outcome (Bytes × List TensorSpec × Json) := do
  if response.status ≠ 200 then
    throwRuntime (str "KServe metadata fetch failed: HTTP " ++ toText response.status)
  else do
    let json ← lib.parse response.body
    if !json.contains (str "inputs") || !json.contains (str "outputs") then
      throwRuntime (str "KServe metadata response missing inputs/outputs")
    else do
      let platform ← json.value (str "platform") []
      let inputs ← json.subscript (str "inputs")
      let inputs ← inputs.elements.mapM tensorSpec
      let outputs ← json.subscript (str "outputs")
      pure (platform, inputs, outputs)

/-- The loop over the outputs, with the outputs and the names read so far: the names stay in the client
however the loop ends. -/
def readOutputs : List Json → List TensorSpec → List Bytes → Outcome (List TensorSpec) × List Bytes
  | [], outputs, names => (.ok outputs, names)
  | node :: nodes, outputs, names =>
    (tensorSpec node).andThen (fun spec names =>
      (node.subscript (str "name") >>= fun name => name.get Bytes).andThen (fun name names =>
        readOutputs nodes (outputs ++ [spec]) (names ++ [name])) names) names

/-- The metadata in a response, and the client's output names after it. -/
def decodeMetadata (response : HttpResponse) (outputNames : List Bytes) :
    Outcome ModelMetadata × List Bytes :=
  (metadataInputs lib response).andThen (fun (platform, inputs, outputs) _ =>
    let (outputs, outputNames) := readOutputs outputs.elements [] []
    ((fun outputs => ⟨inputs, outputs, platform⟩) <$> outputs, outputNames)) outputNames

/-- The metadata, the client's output names, and the connection after the call. -/
def modelMetadata (st : HttpConnection × σ) :
    Outcome ModelMetadata × List Bytes × HttpConnection × σ :=
  client.metadataRequest.andThen (fun (ep, request) (outputNames, st) =>
    let (response, st) := client.sendRequest env ep request st
    let (metadata, outputNames) := response.andThen (decodeMetadata lib) outputNames
    (metadata, outputNames, st)) (client.outputNames, st)

/-! ### Probes -/

/-- The endpoint and the request of a probe. -/
def probeRequest (path : Bytes) : Outcome (Endpoint × Bytes) := do
  let ep ← parseEndpoint client.endpoint 8080
  pure (ep, buildRequest (str "GET") ep (ep.pathPrefix ++ path) client.authToken [] [] [])

def probe (path : Bytes) (st : HttpConnection × σ) : Outcome Bool × HttpConnection × σ :=
  (client.probeRequest path).andThen (fun (ep, request) st =>
    let (response, st) := client.sendRequest env ep request st
    ((fun response => response.status == 200) <$> response, st)) st

def serverLive (st : HttpConnection × σ) : Outcome Bool × HttpConnection × σ :=
  client.probe env serverLivePath st

def serverReady (st : HttpConnection × σ) : Outcome Bool × HttpConnection × σ :=
  client.probe env serverReadyPath st

def modelReady (st : HttpConnection × σ) : Outcome Bool × HttpConnection × σ :=
  client.probe env (modelReadyPath client.modelName client.modelVersion) st

/-! ### The model repository -/

/-- The endpoint and the request of a call to the model repository. -/
def repositoryRequest (path body : Bytes) : Outcome (Endpoint × Bytes) := do
  let ep ← parseEndpoint client.endpoint 8080
  pure (ep, buildRequest (str "POST") ep (ep.pathPrefix ++ path) client.authToken
    (str "application/json") [] body)

/-- The response of the model repository, when it is a success. -/
def repositoryResponse (response : HttpResponse) : Outcome HttpResponse :=
  if response.status ≠ 200 then
    throwRuntime (str "KServe repository request failed: HTTP " ++ toText response.status ++ str " " ++
      response.body)
  else pure response

def postRepository (path body : Bytes) (st : HttpConnection × σ) :
    Outcome HttpResponse × HttpConnection × σ :=
  (client.repositoryRequest path body).andThen (fun (ep, request) st =>
    let (response, st) := client.sendRequest env ep request st
    (response >>= repositoryResponse, st)) st

/-- One entry of the index. -/
def repositoryModel (entry : Json) : Outcome RepositoryModel := do
  let name ← entry.value (str "name") []
  let version ← entry.value (str "version") []
  let state ← entry.value (str "state") []
  let reason ← entry.value (str "reason") []
  pure ⟨name, version, state, reason⟩

def parseRepositoryIndex (body : Json) : Outcome (List RepositoryModel) :=
  if !body.isArray then throwRuntime (str "KServe repository index is not a JSON array")
  else body.elements.mapM repositoryModel

/-- The index in the response of the model repository. -/
def decodeRepositoryIndex (response : HttpResponse) : Outcome (List RepositoryModel) := do
  let response ← repositoryResponse response
  let body ← lib.parse response.body
  parseRepositoryIndex body

def repositoryIndex (st : HttpConnection × σ) : Outcome (List RepositoryModel) × HttpConnection × σ :=
  let (response, st) := client.postRepository env repositoryIndexPath (str "\x7b\x7d") st
  (response >>= fun response => lib.parse response.body >>= parseRepositoryIndex, st)

def loadModel (modelName : Bytes) (st : HttpConnection × σ) : Outcome Unit × HttpConnection × σ :=
  let (response, st) := client.postRepository env (repositoryModelLoadPath modelName)
    (str "\x7b\x7d") st
  ((fun _ => ()) <$> response, st)

def unloadModel (modelName : Bytes) (st : HttpConnection × σ) : Outcome Unit × HttpConnection × σ :=
  let (response, st) := client.postRepository env (repositoryModelUnloadPath modelName)
    (str "\x7b\x7d") st
  ((fun _ => ()) <$> response, st)

/-! ### Answers -/

/-- The request is built, and the retry loop returns `response` for it. -/
def Answered (request : Outcome (Endpoint × Bytes)) (st : HttpConnection × σ) (response : HttpResponse) :
    Prop :=
  ∃ ep text st', request = .ok (ep, text) ∧ client.sendRequest env ep text st = (.ok response, st')

variable {env client} {st : HttpConnection × σ} {response : HttpResponse}

theorem Answered.unique {request : Outcome (Endpoint × Bytes)} {response' : HttpResponse}
    (h : client.Answered env request st response) (h' : client.Answered env request st response') :
    response = response' := by
  obtain ⟨ep, text, _, rfl, hsend⟩ := h
  obtain ⟨_, _, _, hrequest, hsend'⟩ := h'
  cases hrequest
  rw [hsend] at hsend'
  cases hsend'
  rfl

theorem modelMetadata_answered (lib) (h : client.Answered env client.metadataRequest st response) :
    ∃ st', client.modelMetadata env lib st =
      ((decodeMetadata lib response client.outputNames).1,
        (decodeMetadata lib response client.outputNames).2, st') := by
  obtain ⟨ep, text, st', hrequest, hsend⟩ := h
  refine ⟨st', ?_⟩
  rw [modelMetadata, hrequest, ok_andThen]
  simp only [hsend, ok_andThen]

/-- A call without an answer does not return, and the names stay. -/
theorem modelMetadata_unanswered (lib)
    (h : ¬ ∃ response, client.Answered env client.metadataRequest st response) :
    (client.modelMetadata env lib st).2.1 = client.outputNames ∧
      ∀ metadata, (client.modelMetadata env lib st).1 ≠ .ok metadata := by
  rw [modelMetadata]
  cases hrequest : client.metadataRequest with
  | ok request =>
    rw [ok_andThen]
    cases hsend : (client.sendRequest env request.1 request.2 st).1 with
    | ok response => exact absurd ⟨response, _, _, _, hrequest, Prod.ext hsend rfl⟩ h
    | _ =>
      simp only [hsend]
      exact ⟨rfl, nofun⟩
  | _ => exact ⟨rfl, nofun⟩

theorem infer_answered {lib} {kserveBinary : Option Bytes} {inputs : List InferInput}
    (h : client.Answered env (client.inferRequest lib kserveBinary inputs) st response) :
    (client.infer env lib kserveBinary inputs st).1 = decodeInferResponse lib response := by
  obtain ⟨ep, text, st', hrequest, hsend⟩ := h
  rw [infer, hrequest, ok_andThen]
  simp only [hsend, ok_bind]

theorem repositoryIndex_answered (lib)
    (h : client.Answered env (client.repositoryRequest repositoryIndexPath (str "\x7b\x7d")) st response) :
    (client.repositoryIndex env lib st).1 = decodeRepositoryIndex lib response := by
  obtain ⟨ep, text, st', hrequest, hsend⟩ := h
  rw [repositoryIndex, postRepository, hrequest, ok_andThen]
  simp only [hsend, ok_bind]
  rfl

end Operations

/-! ### A sample client -/

def sampleEndpoint : Endpoint := ⟨str "localhost", 80, [], false⟩

/-- A client of the model `m`. -/
def sampleClient (modelVersion : Bytes) (outputNames : List Bytes) : HttpClient :=
  ⟨str "localhost:80", str "m", modelVersion, [], {}, outputNames⟩

/-- A connection is opened, takes the request in one call and delivers `piece`. -/
def sampleIo (request : Bytes) (piece : Piece) : AttemptIo :=
  ⟨none, [request.length], [.bytes piece]⟩

def sampleRequest : Bytes :=
  buildRequest (str "GET") sampleEndpoint (str "/v2/models/m") [] [] [] []

theorem metadataRequest_sample (modelVersion : Bytes) (outputNames : List Bytes) :
    (sampleClient modelVersion outputNames).metadataRequest = .ok (sampleEndpoint, sampleRequest) := rfl

end HttpClient

end KserveClient
