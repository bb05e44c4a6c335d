import KserveClient.BinaryTensor
import KserveClient.Retry
import KserveClient.Tensor
import KserveClient.Transport
import KserveClient.Types

/-!
# KserveClient.HttpClient — inference over HTTP

`infer` builds the request (`inferRequest`), sends it under the retry loop (`sendRequest`) and decodes the
response (`decodeInferResponse`).  The JSON library, the network, the sleeper and the random source are
parameters.
-/

namespace KserveClient

open Json

/-- What surrounds an HTTP client: the network in each attempt, the sleeper and the random source. -/
structure HttpEnv (σ : Type) where
  nextAttempt : σ → AttemptIo × σ
  sleep : ℤ → σ → σ
  jitter : σ → ℚ × σ

/-- The surroundings given by a list of attempts; behind its end nothing more is sent or received. -/
def HttpEnv.scripted : HttpEnv (List AttemptIo) where
  nextAttempt
    | [] => (⟨none, [], []⟩, [])
    | io :: ios => (io, ios)
  sleep _ s := s
  jitter s := (0, s)

/-- `HttpClient`, without its connection. -/
structure HttpClient where
  endpoint : Bytes
  modelName : Bytes
  modelVersion : Bytes
  authToken : Bytes
  retryPolicy : RetryPolicy
  outputNames : List Bytes := []

/-! ### Requests -/

def buildRequest (method : Bytes) (ep : Endpoint) (path authToken contentType extraHeaders body : Bytes) :
    Bytes :=
  method ++ str " " ++ path ++ str " HTTP/1.1\r\n" ++
  str "Host: " ++ ep.host ++ str "\r\n" ++
  str "Connection: keep-alive\r\n" ++
  (if contentType ≠ [] then str "Content-Type: " ++ contentType ++ str "\r\n" else []) ++
  (if authToken ≠ [] then str "Authorization: Bearer " ++ authToken ++ str "\r\n" else []) ++
  extraHeaders ++
  str "Content-Length: " ++ toText body.length ++ str "\r\n\r\n" ++ body

/-- The part of a request from its extra headers on. -/
theorem buildRequest_eq (method : Bytes) (ep : Endpoint)
    (path authToken contentType extraHeaders body : Bytes) :
    ∃ head, buildRequest method ep path authToken contentType extraHeaders body =
      head ++ extraHeaders ++ str "Content-Length: " ++ toText body.length ++ str "\r\n\r\n" ++ body :=
  ⟨_, rfl⟩

def inferPath (modelName modelVersion : Bytes) : Bytes :=
  if modelVersion = [] then str "/v2/models/" ++ modelName ++ str "/infer"
  else str "/v2/models/" ++ modelName ++ str "/versions/" ++ modelVersion ++ str "/infer"

/-- The binary extension is enabled by a truthy `KSERVE_BINARY`. -/
def binaryEnabled (kserveBinary : Option Bytes) : Bool :=
  match kserveBinary with
  | none => false
  | some raw =>
    let value := toLower raw
    value == str "1" || value == str "true" || value == str "on" || value == str "yes"

namespace HttpClient

/-- One round of the loop over the inputs: the nodes so far and the blob. -/
def addInput (binary : Bool) (acc : List Json × Bytes) (input : InferInput) :
    Outcome (List Json × Bytes) :=
  let (jsonInputs, blob) := acc
  match input.data with
  | none => throwRuntime (str "KServe input '" ++ input.name ++ str "' has no data")
  | some data =>
    if binary then do
      let (node, blob) ← appendBinaryInput input.name input.datatype input.shape data blob
      pure (jsonInputs ++ [node], blob)
    else do
      let node ← Json.null.assign (str "name") (toJson input.name)
      let node ← node.assign (str "datatype") (toJson input.datatype)
      let node ← node.assign (str "shape") (toJson input.shape)
      let encoded ← encodeTensorData data input.datatype
      let node ← node.assign (str "data") encoded
      pure (jsonInputs ++ [node], blob)

/-- The request document and the blob. -/
def inferDocument (binary : Bool) (outputNames : List Bytes) (inputs : List InferInput) :
    Outcome (Json × Bytes) := do
  let request ← Json.null.assign (str "id") (toJson (str "kserve-client"))
  let (jsonInputs, blob) ← inputs.foldlM (addInput binary) ([], [])
  let request ← request.assign (str "inputs") (.array jsonInputs)
  if binary ∧ outputNames ≠ [] then do
    let jsonOutputs ← outputNames.mapM requestBinaryOutput
    let request ← request.assign (str "outputs") (.array jsonOutputs)
    pure (request, blob)
  else pure (request, blob)

/-- Content type, extra headers and body of an inference request. -/
structure InferMessage where
  contentType : Bytes
  extraHeaders : Bytes
  body : Bytes

def inferMessage (lib : JsonLib) (binary : Bool) (outputNames : List Bytes)
    (inputs : List InferInput) : Outcome InferMessage := do
  let (request, blob) ← inferDocument binary outputNames inputs
  let body ← lib.dump request
  if binary then do
    let extraHeaders := str "Inference-Header-Content-Length" ++ str ": " ++ toText body.length ++
      str "\r\n"
    let body ← appendBlob body blob
    pure ⟨str "application/octet-stream", extraHeaders, body⟩
  else pure ⟨str "application/json", [], body⟩

/-- The endpoint and the complete request of `infer`. -/
def inferRequest (lib : JsonLib) (client : HttpClient) (kserveBinary : Option Bytes)
    (inputs : List InferInput) : Outcome (Endpoint × Bytes) := do
  let ep ← parseEndpoint client.endpoint 8080
  let path := ep.pathPrefix ++ inferPath client.modelName client.modelVersion
  let message ← inferMessage lib (binaryEnabled kserveBinary) client.outputNames inputs
  pure (ep, buildRequest (str "POST") ep path client.authToken message.contentType
    message.extraHeaders message.body)

/-! ### Responses -/

def readShape (node : Json) : Outcome (List Int64) :=
  if node.contains (str "shape") then do
    let dims ← node.subscript (str "shape")
    dims.elements.mapM fun dim => dim.get Int64
  else pure []

/-- The inline data of an output node, if it has any. -/
def inlineData (node : Json) (datatype : Bytes) : Outcome Bytes :=
  if node.contains (str "data") then do
    let data ← node.subscript (str "data")
    if data.isArray then decodeTensorData data datatype else pure []
  else pure []

/-- One round of the loop over the outputs of a binary response: the outputs so far and the offset. -/
def decodeBinaryOutput (blob : Bytes) (acc : List InferOutput × ℕ) (node : Json) :
    Outcome (List InferOutput × ℕ) := do
  let (outputs, offset) := acc
  let name ← node.value (str "name") []
  let datatype ← node.value (str "datatype") (str "FP32")
  let shape ← readShape node
  let size ← binaryDataSize node
  if 0 ≤ size.toInt then do
    let data ← sliceBlob blob offset size.toInt.toNat
    pure (outputs ++ [⟨name, datatype, shape, data⟩], (offset + size.toInt.toNat) % sizeMod)
  else do
    let data ← inlineData node datatype
    pure (outputs ++ [⟨name, datatype, shape, data⟩], offset)

/-- One round of the loop over the outputs of a JSON response. -/
def decodeJsonOutput (node : Json) : Outcome InferOutput := do
  let name ← node.value (str "name") []
  let datatype ← node.value (str "datatype") (str "FP32")
  let shape ← readShape node
  let data ← inlineData node datatype
  pure ⟨name, datatype, shape, data⟩

/-- The array of outputs in a document. -/
def outputsOf (document : Json) : Outcome Json :=
  if !document.contains (str "outputs") then
    throwRuntime (str "KServe response missing outputs")
  else do
    let outputs ← document.subscript (str "outputs")
    if !outputs.isArray then throwRuntime (str "KServe response missing outputs") else pure outputs

def decodeInferResponse (lib : JsonLib) (response : HttpResponse) : Outcome (List InferOutput) :=
  if response.status ≠ 200 then
    throwRuntime (str "KServe inference failed: HTTP " ++ toText response.status ++ str " " ++
      response.body)
  else if 0 ≤ response.inferenceHeaderLength then do
    let (header, blob) ← splitBinaryBody lib response.body response.inferenceHeaderLength.toNat
    let outputs ← outputsOf header
    let (decoded, _) ← outputs.elements.foldlM (decodeBinaryOutput blob) ([], 0)
    pure decoded
  else do
    let document ← lib.parse response.body
    let outputs ← outputsOf document
    outputs.elements.mapM decodeJsonOutput

/-! ### The operation -/

section Operation

variable {σ : Type} (env : HttpEnv σ) (lib : JsonLib) (client : HttpClient)

/-- Wraps a round trip in the retry loop: `withRetry` around `roundTrip`. -/
def sendRequest (ep : Endpoint) (request : Bytes) (st : HttpConnection × σ) :
    Outcome HttpResponse × HttpConnection × σ :=
  runWithRetry client.retryPolicy
    (fun (conn, s) =>
      let (io, s) := env.nextAttempt s
      let (result, conn, _) := roundTrip conn ep request io
      (result, conn, s))
    (fun r => isRetryableHttpStatus r.status)
    (fun ms (conn, s) => (conn, env.sleep ms s))
    (fun (conn, s) => let (u, s) := env.jitter s; (u, conn, s)) st

def infer (kserveBinary : Option Bytes) (inputs : List InferInput) (st : HttpConnection × σ) :
    Outcome (List InferOutput) × HttpConnection × σ :=
  (client.inferRequest lib kserveBinary inputs).andThen (fun (ep, request) st =>
    let (response, st) := client.sendRequest env ep request st
    (response >>= decodeInferResponse lib, st)) st

end Operation

/-- A first attempt with an answer that is not retryable is the only one. -/
theorem sendRequest_first {σ : Type} {env : HttpEnv σ} {client : HttpClient} {ep : Endpoint}
    {request : Bytes} {conn conn' : HttpConnection} {s s' : σ} {io : AttemptIo}
    {response : HttpResponse} {unread : List Recv} (hnext : env.nextAttempt s = (io, s'))
    (htrip : roundTrip conn ep request io = (.ok response, conn', unread))
    (hstatus : isRetryableHttpStatus response.status = false) :
    client.sendRequest env ep request (conn, s) = (.ok response, conn', s') := by
  rw [sendRequest, runWithRetry_first]
  · simp only [hnext, htrip]
  · simp only [hnext, htrip, IsFinal, hstatus]
    rfl

end HttpClient

end KserveClient
