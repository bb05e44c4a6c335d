import KserveClient.Credentials
import KserveClient.InferenceService
import KserveClient.OutputNames

/-!
# KserveClient.ClientSession — all calls of one HTTP client

A session is a run of calls of the interface, in any order and over any network.  Its events show each call
with the request that it builds and the response that its retry loop returns.

* `run_authorized`: what every request of a session says, and with which token.
* `run_requested`: the outputs that a request asks for are those of the last metadata reply that was read.
-/

namespace KserveClient

open Json HttpClient HttpSyntax Outcome

/-! ### Calls -/

/-- A call of the interface of `HttpClient`; `infer` comes with the value of `KSERVE_BINARY`. -/
inductive HttpCall where
  | modelMetadata
  | serverLive
  | serverReady
  | modelReady
  | repositoryIndex
  | loadModel (modelName : Bytes)
  | unloadModel (modelName : Bytes)
  | infer (kserveBinary : Option Bytes) (inputs : List InferInput)

namespace HttpCall

def method : HttpCall → Bytes
  | modelMetadata | serverLive | serverReady | modelReady => str "GET"
  | repositoryIndex | loadModel _ | unloadModel _ | infer _ _ => str "POST"

/-- The path of the call, behind the prefix of the endpoint. -/
def path (model version : Bytes) : HttpCall → Bytes
  | modelMetadata => str "/v2/models/" ++ model
  | serverLive => serverLivePath
  | serverReady => serverReadyPath
  | modelReady => modelReadyPath model version
  | repositoryIndex => repositoryIndexPath
  | loadModel modelName => repositoryModelLoadPath modelName
  | unloadModel modelName => repositoryModelUnloadPath modelName
  | infer _ _ => inferPath model version

def request (lib : JsonLib) (client : HttpClient) : HttpCall → Outcome (Endpoint × Bytes)
  | modelMetadata => client.metadataRequest
  | serverLive => client.probeRequest serverLivePath
  | serverReady => client.probeRequest serverReadyPath
  | modelReady => client.probeRequest (modelReadyPath client.modelName client.modelVersion)
  | repositoryIndex => client.repositoryRequest repositoryIndexPath (str "\x7b\x7d")
  | loadModel modelName => client.repositoryRequest (repositoryModelLoadPath modelName) (str "\x7b\x7d")
  | unloadModel modelName => client.repositoryRequest (repositoryModelUnloadPath modelName) (str "\x7b\x7d")
  | infer kserveBinary inputs => client.inferRequest lib kserveBinary inputs

/-- The call, with the value that it returns left out. -/
def run {σ : Type} (env : HttpEnv σ) (lib : JsonLib) (call : HttpCall) (client : HttpClient)
    (st : HttpConnection × σ) : Outcome Unit × HttpClient × HttpConnection × σ :=
  match call with
  | modelMetadata =>
    let (result, outputNames, st) := client.modelMetadata env lib st
    ((fun _ => ()) <$> result, { client with outputNames }, st)
  | serverLive =>
    let (result, st) := client.serverLive env st
    ((fun _ => ()) <$> result, client, st)
  | serverReady =>
    let (result, st) := client.serverReady env st
    ((fun _ => ()) <$> result, client, st)
  | modelReady =>
    let (result, st) := client.modelReady env st
    ((fun _ => ()) <$> result, client, st)
  | repositoryIndex =>
    let (result, st) := client.repositoryIndex env lib st
    ((fun _ => ()) <$> result, client, st)
  | loadModel modelName =>
    let (result, st) := client.loadModel env modelName st
    (result, client, st)
  | unloadModel modelName =>
    let (result, st) := client.unloadModel env modelName st
    (result, client, st)
  | infer kserveBinary inputs =>
    let (result, st) := client.infer env lib kserveBinary inputs st
    ((fun _ => ()) <$> result, client, st)

section Calls

variable {σ : Type} {env : HttpEnv σ} {lib : JsonLib} {call : HttpCall} {client : HttpClient}
  {st : HttpConnection × σ} {ep : Endpoint} {text : Bytes}

/-- Only the output names of a client change. -/
theorem run_client : ∃ outputNames, (call.run env lib client st).2.1 = { client with outputNames } := by
  cases call with
  | modelMetadata => exact ⟨_, rfl⟩
  | _ => exact ⟨client.outputNames, rfl⟩

/-- No other call touches them. -/
theorem run_outputNames (h : call ≠ .modelMetadata) :
    (call.run env lib client st).2.1.outputNames = client.outputNames := by
  cases call with
  | modelMetadata => exact absurd rfl h
  | _ => rfl

theorem metadataRequest_ok (h : client.metadataRequest = .ok (ep, text)) :
    parseEndpoint client.endpoint 8080 = .ok ep ∧
      text = buildRequest (str "GET") ep (ep.pathPrefix ++ (str "/v2/models/" ++ client.modelName))
        client.authToken [] [] [] := by
  obtain ⟨ep', hep, h⟩ := bind_eq_ok.mp h
  cases h
  rw [← List.append_assoc]
  exact ⟨hep, rfl⟩

theorem probeRequest_ok {path : Bytes} (h : client.probeRequest path = .ok (ep, text)) :
    parseEndpoint client.endpoint 8080 = .ok ep ∧
      text = buildRequest (str "GET") ep (ep.pathPrefix ++ path) client.authToken [] [] [] := by
  obtain ⟨ep', hep, h⟩ := bind_eq_ok.mp h
  cases h
  exact ⟨hep, rfl⟩

theorem repositoryRequest_ok {path body : Bytes} (h : client.repositoryRequest path body = .ok (ep, text)) :
    parseEndpoint client.endpoint 8080 = .ok ep ∧
      text = buildRequest (str "POST") ep (ep.pathPrefix ++ path) client.authToken (str "application/json") []
        body := by
  obtain ⟨ep', hep, h⟩ := bind_eq_ok.mp h
  cases h
  exact ⟨hep, rfl⟩

theorem inferRequest_ok {kserveBinary : Option Bytes} {inputs : List InferInput}
    (h : client.inferRequest lib kserveBinary inputs = .ok (ep, text)) :
    parseEndpoint client.endpoint 8080 = .ok ep ∧ ∃ payload : RequestPayload, ∃ body,
      text = buildRequest (str "POST") ep (ep.pathPrefix ++ inferPath client.modelName client.modelVersion)
        client.authToken payload.contentType payload.extraHeaders body := by
  obtain ⟨ep', hep, h⟩ := bind_eq_ok.mp h
  obtain ⟨message, hmessage, h⟩ := bind_eq_ok.mp h
  cases h
  obtain ⟨payload, htype, hextra⟩ := inferMessage_payload hmessage
  exact ⟨hep, payload, message.body, by rw [htype, hextra]⟩

/-- **The request of a call**: its method and its path, for the client's endpoint and with its token. -/
theorem request_ok (h : call.request lib client = .ok (ep, text)) :
    parseEndpoint client.endpoint 8080 = .ok ep ∧ ∃ payload : RequestPayload, ∃ body,
      text = buildRequest call.method ep (ep.pathPrefix ++ call.path client.modelName client.modelVersion)
        client.authToken payload.contentType payload.extraHeaders body := by
  cases call with
  | modelMetadata =>
    obtain ⟨hep, rfl⟩ := metadataRequest_ok h
    exact ⟨hep, .none, [], rfl⟩
  | infer kserveBinary inputs => exact inferRequest_ok h
  | serverLive | serverReady | modelReady =>
    obtain ⟨hep, rfl⟩ := probeRequest_ok h
    exact ⟨hep, .none, [], rfl⟩
  | repositoryIndex | loadModel _ | unloadModel _ =>
    obtain ⟨hep, rfl⟩ := repositoryRequest_ok h
    exact ⟨hep, .json, _, rfl⟩

end Calls

end HttpCall

/-! ### Sessions -/

/-- A call, the request that it builds, and the response that it gets. -/
structure SessionEvent where
  call : HttpCall
  request : Outcome (Endpoint × Bytes)
  response : Option HttpResponse

/-- **One call of a session**: it comes back, with a value or an exception. -/
structure SessionStep {σ : Type} (env : HttpEnv σ) (lib : JsonLib) (s : HttpClient × HttpConnection × σ)
    (e : SessionEvent) (s' : HttpClient × HttpConnection × σ) : Prop where
  request : e.request = e.call.request lib s.1
  response : ∀ response, e.response = some response ↔ s.1.Answered env e.request s.2 response
  comesBack : (e.call.run env lib s.1 s.2).1.ComesBack
  next : s' = (e.call.run env lib s.1 s.2).2

section Sessions

variable {σ : Type} {env : HttpEnv σ} {lib : JsonLib} {s s' last : HttpClient × HttpConnection × σ}
  {e : SessionEvent} {es : List SessionEvent}

theorem SessionStep.client (h : SessionStep env lib s e s') :
    ∃ outputNames, s'.1 = { s.1 with outputNames } := by
  rw [h.next]
  exact HttpCall.run_client

/-- Whatever a session does, its client is the first one up to the output names. -/
theorem session_client (hrun : Run (SessionStep env lib) s es s') :
    ∃ outputNames, s'.1 = { s.1 with outputNames } := by
  have hsafe := @Run.safe _ _ _ _ _ _ (fun t => ∃ outputNames, t.1 = { s.1 with outputNames }) (fun _ => True)
    (by
      rintro t e t' ⟨names, ht⟩ hstep
      obtain ⟨names', ht'⟩ := hstep.client
      exact ⟨⟨names', by rw [ht', ht]⟩, trivial⟩) hrun ⟨s.1.outputNames, rfl⟩
  exact hsafe.1

/-- The request says what the call means, for the endpoint `ep` and with this token. -/
structure SaysCall (call : HttpCall) (model version token : Bytes) (ep : Endpoint) (request : Request) :
    Prop where
  method : request.method = call.method
  target : request.target = ep.pathPrefix ++ call.path model version
  host : valuesOf (str "Host") request.fields = [trimBlanks ep.host]
  token : valuesOf (str "Authorization") request.fields = bearer token

theorem valuesOf_host (host token : Bytes) (payload : RequestPayload) (body : Bytes) :
    valuesOf (str "Host") (ownFields host token payload body) = [host] := by
  rw [valuesOf_own]
  by_cases htoken : token = []
  · rw [if_pos htoken]
    cases payload <;> rfl
  · rw [if_neg htoken]
    cases payload <;> rfl

/-- The text of a call's request is read as that call. -/
theorem HttpCall.request_says {call : HttpCall} {client : HttpClient} {ep : Endpoint} {text : Bytes}
    (hrequest : call.request lib client = .ok (ep, text))
    (hok : RequestOk call.method (ep.pathPrefix ++ call.path client.modelName client.modelVersion) ep.host
      client.authToken) :
    ∃ request, parseRequest text = some (request, []) ∧
      SaysCall call client.modelName client.modelVersion client.authToken ep request := by
  obtain ⟨-, payload, body, rfl⟩ := HttpCall.request_ok hrequest
  exact ⟨_, parseRequest_own hok, rfl, rfl, valuesOf_host .., valuesOf_authorization ..⟩

end Sessions

/-! ### The names after a metadata reply -/

/-- A reply whose inputs are read, with the document of its outputs. -/
def ReadsInputs (lib : JsonLib) (response : HttpResponse) (outputs : Json) : Prop :=
  response.status = 200 ∧ ∃ document inputs, lib.parse response.body = .ok document ∧
    ReachesInputs document inputs outputs ∧ ∀ n ∈ inputs.elements, Readable n

/-- `names` are those of the nodes up to the first one that is not read. -/
def ReadNames (nodes : List Json) (names : List Bytes) : Prop :=
  ∃ read rest, nodes = read ++ rest ∧ (∀ n ∈ read, Readable n) ∧ (∀ n ∈ rest.head?, ¬ Readable n) ∧
    names = read.map nodeName

/-- A reply that refills the names. -/
def RefillsNames (lib : JsonLib) (response : HttpResponse) (names : List Bytes) : Prop :=
  ∃ outputs, ReadsInputs lib response outputs ∧ ReadNames outputs.elements names

section Reply

variable {lib : JsonLib} {response : HttpResponse} {outputs : Json}

theorem readOutputs_names (nodes : List Json) : ReadNames nodes (readOutputs nodes [] []).2 := by
  rcases mapM_cases tensorSpec nodes with ⟨read, hread, -⟩ | ⟨before, node, after, read, rfl, hread, hnode, -⟩
  · refine ⟨nodes, [], by simp, mapM_tensorSpec_ok_iff.mp ⟨read, hread⟩, by simp, ?_⟩
    rw [readOutputs_ok hread, ← mapM_tensorSpec_names hread]
    exact List.nil_append _
  · refine ⟨before, node :: after, rfl, mapM_tensorSpec_ok_iff.mp ⟨read, hread⟩, ?_, ?_⟩
    · rintro n ⟨⟩ hreadable
      obtain ⟨spec, hspec⟩ := tensorSpec_ok_iff.mpr hreadable
      exact hnode spec hspec
    · rw [readOutputs_stops hread hnode, ← mapM_tensorSpec_names hread]
      exact List.nil_append _

theorem metadataInputs_ok_iff :
    (∃ platform specs, metadataInputs lib response = .ok (platform, specs, outputs)) ↔
      ReadsInputs lib response outputs := by
  constructor
  · rintro ⟨platform, specs, h⟩
    by_cases hstatus : response.status = 200
    · cases hparse : lib.parse response.body with
      | ok document =>
        by_cases hreach : ∃ inputs outputs, ReachesInputs document inputs outputs
        · obtain ⟨inputs, outputs', hreach⟩ := hreach
          have hobject := hreach
          obtain ⟨members, rfl, hinputs, houtputs, hplatform⟩ := hobject
          obtain ⟨platform', hvalue⟩ := (@value_ok_iff members (str "platform") []).mpr hplatform
          rw [metadataInputs_object hstatus hparse hinputs houtputs hvalue] at h
          obtain ⟨specs', hspecs, hsame⟩ := map_eq_ok.mp h
          cases hsame
          exact ⟨hstatus, _, inputs, hparse, hreach, mapM_tensorSpec_ok_iff.mp ⟨specs, hspecs⟩⟩
        · obtain ⟨e, he⟩ := metadataInputs_throws hstatus hparse hreach
          rw [he] at h
          cases h
      | _ =>
        rw [metadataInputs, if_neg (not_not.mpr hstatus), hparse] at h
        cases h
    · rw [metadataInputs, if_pos hstatus] at h
      cases h
  · rintro ⟨hstatus, document, inputs, hparse, ⟨members, rfl, hinputs, houtputs, hplatform⟩, hreadable⟩
    obtain ⟨platform, hvalue⟩ := (@value_ok_iff members (str "platform") []).mpr hplatform
    obtain ⟨specs, hspecs⟩ := mapM_tensorSpec_ok_iff.mpr hreadable
    exact ⟨platform, specs, by
      rw [metadataInputs_object hstatus hparse hinputs houtputs hvalue, hspecs, map_ok]⟩

/-- **The names after a reply**: refilled, or as they were. -/
theorem decodeMetadata_names (lib : JsonLib) (response : HttpResponse) (names : List Bytes) :
    RefillsNames lib response (decodeMetadata lib response names).2 ∨
      (decodeMetadata lib response names).2 = names ∧ ∀ names', ¬ RefillsNames lib response names' := by
  cases hread : metadataInputs lib response with
  | ok result =>
    left
    refine ⟨result.2.2, metadataInputs_ok_iff.mp ⟨_, _, hread⟩, ?_⟩
    rw [decodeMetadata, hread, ok_andThen]
    exact readOutputs_names _
  | _ =>
    right
    refine ⟨by rw [decodeMetadata, hread]; rfl, ?_⟩
    rintro names' ⟨outputs, hinputs, -⟩
    obtain ⟨platform, specs, hok⟩ := metadataInputs_ok_iff.mpr hinputs
    rw [hread] at hok
    cases hok

end Reply

/-! ### The outputs that are asked for -/

/-- The nodes of the outputs that a request asks for, in its JSON body or in the header of a binary one. -/
def requestedOutputs (lib : JsonLib) (request : Request) : Outcome (List Json) := do
  let header := match valuesOf (str "Inference-Header-Content-Length") request.fields with
    | [headerLength] => request.body.take (Numeral.value 10 headerLength)
    | _ => request.body
  let document ← lib.parse header
  if document.contains (str "outputs") then do
    let outputs ← document.subscript (str "outputs")
    pure outputs.elements
  else pure []

theorem binaryOutputNode_reparsed (name : Bytes) : (binaryOutputNode name).reparsed = binaryOutputNode name := by
  simp [binaryOutputNode, reparsed]

/-- The outputs that come back from the text of a request. -/
theorem outputs_reparsed (outputNames : List Bytes) (nodes : List Json) :
    (requestDocument outputNames nodes).reparsed = .object
      ([(str "id", .string (str "kserve-client")), (str "inputs", .array (nodes.map reparsed))] ++
        if outputNames = [] then [] else [(str "outputs", .array (outputNames.map binaryOutputNode))]) := by
  have hnodes : (outputNames.map binaryOutputNode).map reparsed = outputNames.map binaryOutputNode := by
    rw [List.map_map]
    exact List.map_congr_left fun name _ => binaryOutputNode_reparsed name
  rw [requestDocument, reparsed_object]
  by_cases hnames : outputNames = []
  · rw [if_pos hnames]
    simp [reparsed]
  · rw [if_neg hnames]
    simpa [reparsed] using hnodes

theorem requestedOutputs_eq {lib : JsonLib} (hlib : lib.Documented) {request : Request} {header : Bytes}
    {outputNames : List Bytes} {nodes : List Json}
    (hdump : lib.dump (requestDocument outputNames nodes) = .ok header)
    (hheader : (match valuesOf (str "Inference-Header-Content-Length") request.fields with
      | [headerLength] => request.body.take (Numeral.value 10 headerLength)
      | _ => request.body) = header) :
    requestedOutputs lib request = .ok (outputNames.map binaryOutputNode) := by
  rw [requestedOutputs, hheader, hlib _ _ hdump, outputs_reparsed]
  by_cases hnames : outputNames = []
  · rw [hnames]
    rfl
  · rw [if_neg hnames]
    rfl

/-- **An inference request asks for the client's output names**, in the binary mode only. -/
theorem inferRequest_requests {lib : JsonLib} (hlib : lib.Documented) {client : HttpClient}
    {kserveBinary : Option Bytes} {inputs : List InferInput} {ep : Endpoint} {text : Bytes}
    (hrequest : client.inferRequest lib kserveBinary inputs = .ok (ep, text))
    (hok : RequestOk (str "POST") (ep.pathPrefix ++ inferPath client.modelName client.modelVersion) ep.host
      client.authToken) :
    ∃ request, parseRequest text = some (request, []) ∧ requestedOutputs lib request =
      .ok ((if binaryEnabled kserveBinary then client.outputNames else []).map binaryOutputNode) := by
  obtain ⟨ep', hep, hrequest⟩ := bind_eq_ok.mp hrequest
  obtain ⟨message, hmessage, hrequest⟩ := bind_eq_ok.mp hrequest
  cases hrequest
  cases hbinary : binaryEnabled kserveBinary with
  | true =>
    rw [hbinary] at hmessage
    obtain ⟨-, header, hdump, -, rfl⟩ := inferMessage_binary.mp hmessage
    refine ⟨_, @parseRequest_own _ _ _ _ _ (.binary header.length) hok, ?_⟩
    refine requestedOutputs_eq hlib hdump ?_
    rw [valuesOf_inferenceLength]
    simp only [RequestPayload.extraFields, List.map_cons, List.map_nil, toText_nat, Numeral.value_toDecimal]
    exact List.take_left
  | false =>
    rw [hbinary] at hmessage
    obtain ⟨-, body, hdump, rfl⟩ := inferMessage_json.mp hmessage
    refine ⟨_, @parseRequest_own _ _ _ _ _ .json hok, ?_⟩
    refine requestedOutputs_eq hlib hdump ?_
    rw [valuesOf_inferenceLength]
    rfl

/-- The event of a metadata call whose reply leaves `names`. -/
def Announces (lib : JsonLib) (e : SessionEvent) (names : List Bytes) : Prop :=
  e.call = .modelMetadata ∧ ∃ response, e.response = some response ∧ RefillsNames lib response names

section Announcements

variable {σ : Type} {env : HttpEnv σ} {lib : JsonLib} {s s' last : HttpClient × HttpConnection × σ}
  {e : SessionEvent}

/-- **One call**: it writes the names that it announces, or leaves them and announces none. -/
theorem SessionStep.announces (h : SessionStep env lib s e s') :
    Announces lib e s'.1.outputNames ∨
      s'.1.outputNames = s.1.outputNames ∧ ∀ names, ¬ Announces lib e names := by
  obtain ⟨client, st⟩ := s
  have hnext : s'.1.outputNames = (e.call.run env lib client st).2.1.outputNames := by rw [h.next]
  by_cases hcall : e.call = .modelMetadata
  · have hrequest : e.request = client.metadataRequest := by
      rw [h.request, hcall]
      rfl
    have hnames : s'.1.outputNames = (client.modelMetadata env lib st).2.1 := by
      rw [hnext, hcall]
      rfl
    by_cases hanswer : ∃ response, client.Answered env client.metadataRequest st response
    · obtain ⟨response, hanswer⟩ := hanswer
      obtain ⟨st', hrun⟩ := modelMetadata_answered lib hanswer
      have hresponse : e.response = some response := (h.response response).mpr (by rwa [hrequest])
      rw [hnames, hrun]
      rcases decodeMetadata_names lib response client.outputNames with hrefill | ⟨hsame, hnot⟩
      · exact .inl ⟨hcall, response, hresponse, hrefill⟩
      · refine .inr ⟨hsame, ?_⟩
        rintro names ⟨-, response', hresponse', hrefill⟩
        rw [hresponse] at hresponse'
        cases hresponse'
        exact hnot names hrefill
    · right
      refine ⟨hnames.trans (modelMetadata_unanswered lib hanswer).1, ?_⟩
      rintro names ⟨-, response, hresponse, -⟩
      exact hanswer ⟨response, hrequest ▸ (h.response response).mp hresponse⟩
  · exact .inr ⟨hnext.trans (HttpCall.run_outputNames hcall), fun names hannounces => hcall hannounces.1⟩

end Announcements

/-! ### A session -/

section Witness

/-- A token and nothing else. -/
def tokenEnvironment : Environment where
  getenv name := if name = str "KSERVE_BEARER_TOKEN" then some (str "t") else none
  file _ := none

def tokenClient (outputNames : List Bytes) : HttpClient :=
  ⟨str "localhost:80", str "m", [], str "t", {}, outputNames⟩

theorem create_token : HttpClient.create tokenEnvironment (str "localhost:80") (str "m") [] =
    some (.ok (tokenClient [])) := rfl

def announcedDocument : Json := .object [(str "inputs", .array []),
  (str "outputs", .array [.object [(str "name", .string (str "y"))]])]

def announcedText : Bytes :=
  str "\x7b\"inputs\":[]," ++ str "\"outputs\":[" ++ str "\x7b\"name\":\"y\"\x7d]\x7d"

def askingHeader : Bytes := pairText (str ",\"outputs\":[" ++ str "\x7b\"name\":\"y\"," ++
  str "\"parameters\":\x7b" ++ str "\"binary_data\":true" ++ str "\x7d\x7d]")

def askingLib : JsonLib := .ofTable [(announcedDocument, announcedText),
  (requestDocument [str "y"] [pairInput.binaryNode], askingHeader)]

def announcedPiece : Piece :=
  ⟨str "HTTP/1.1 200 OK\r\n" ++ str "Content-Length: " ++ toText (announcedText.length : ℕ) ++ str "\r\n\r\n" ++
    announcedText, by decide +kernel, by decide +kernel⟩

def announcedIo : AttemptIo := ⟨none, [1000], [.bytes announcedPiece]⟩

def announcedRequest : Bytes :=
  buildRequest (str "GET") sampleEndpoint (str "/v2/models/m") (str "t") [] [] []

def announcedEvent : SessionEvent :=
  ⟨.modelMetadata, .ok (sampleEndpoint, announcedRequest), some ⟨200, announcedText, -1⟩⟩

theorem roundTrip_announced : roundTrip ⟨none, [], 0, false⟩ sampleEndpoint announcedRequest announcedIo =
    (.ok ⟨200, announcedText, -1⟩, ⟨some .plain, str "localhost", 80, false⟩, []) := by
  decide +kernel

def refusedPiece : Piece :=
  ⟨str "HTTP/1.1 400 Bad Request\r\n" ++ str "Content-Length: 0\r\n\r\n", by decide +kernel, by decide +kernel⟩

def refusedIo : AttemptIo := ⟨none, [1000], [.bytes refusedPiece]⟩

def askingRequest : Bytes :=
  buildRequest (str "POST") sampleEndpoint (str "/v2/models/m/infer") (str "t") (str "application/octet-stream")
    (str "Inference-Header-Content-Length: " ++ toText (askingHeader.length : ℕ) ++ str "\r\n")
    (askingHeader ++ [5, 6])

def askingEvent : SessionEvent :=
  ⟨.infer (some (str "1")) [pairInput], .ok (sampleEndpoint, askingRequest), some ⟨400, [], -1⟩⟩

theorem roundTrip_refused : roundTrip ⟨some .plain, str "localhost", 80, false⟩ sampleEndpoint askingRequest
    refusedIo = (.ok ⟨400, [], -1⟩, ⟨some .plain, str "localhost", 80, false⟩, []) := by
  decide +kernel

theorem inferRequest_asking : (tokenClient [str "y"]).inferRequest askingLib (some (str "1")) [pairInput] =
    .ok (sampleEndpoint, askingRequest) := by
  decide +kernel

/-- A call that is answered is a step of a session. -/
theorem SessionStep.of_answered {σ : Type} {env : HttpEnv σ} {lib : JsonLib} {call : HttpCall}
    {client : HttpClient} {st : HttpConnection × σ} {request : Outcome (Endpoint × Bytes)}
    {response : HttpResponse} {s' : HttpClient × HttpConnection × σ} (hrequest : call.request lib client = request)
    (h : client.Answered env request st response) (hback : (call.run env lib client st).1.ComesBack)
    (hnext : s' = (call.run env lib client st).2) :
    SessionStep env lib (client, st) ⟨call, request, some response⟩ s' where
  request := hrequest.symm
  response response' := by
    constructor
    · rintro ⟨⟩
      exact h
    · intro h'
      rw [h.unique h']
  comesBack := hback
  next := hnext

theorem step_announced : SessionStep HttpEnv.scripted askingLib
    (tokenClient [], ⟨none, [], 0, false⟩, [announcedIo, refusedIo]) announcedEvent
    (tokenClient [str "y"], ⟨some .plain, str "localhost", 80, false⟩, [refusedIo]) := by
  have hsend : (tokenClient []).sendRequest HttpEnv.scripted sampleEndpoint announcedRequest
      (⟨none, [], 0, false⟩, [announcedIo, refusedIo]) =
        (.ok ⟨200, announcedText, -1⟩, ⟨some .plain, str "localhost", 80, false⟩, [refusedIo]) :=
    sendRequest_first rfl roundTrip_announced rfl
  have hrun : (tokenClient []).modelMetadata HttpEnv.scripted askingLib
      (⟨none, [], 0, false⟩, [announcedIo, refusedIo]) = (.ok ⟨[], [⟨str "y", str "FP32", []⟩], []⟩, [str "y"],
        ⟨some .plain, str "localhost", 80, false⟩, [refusedIo]) := by
    have hdecode : decodeMetadata askingLib ⟨200, announcedText, -1⟩ (tokenClient []).outputNames =
        (.ok ⟨[], [⟨str "y", str "FP32", []⟩], []⟩, [str "y"]) := rfl
    rw [modelMetadata, show (tokenClient []).metadataRequest = .ok (sampleEndpoint, announcedRequest) from rfl,
      ok_andThen]
    simp only [hsend, ok_andThen, hdecode]
  refine SessionStep.of_answered rfl ⟨_, _, _, rfl, hsend⟩ ?_ ?_
  · rw [HttpCall.run, hrun]
    exact .inl ⟨(), rfl⟩
  · rw [HttpCall.run, hrun]
    rfl

theorem step_asking : SessionStep HttpEnv.scripted askingLib
    (tokenClient [str "y"], ⟨some .plain, str "localhost", 80, false⟩, [refusedIo]) askingEvent
    (tokenClient [str "y"], ⟨some .plain, str "localhost", 80, false⟩, []) := by
  have hsend : (tokenClient [str "y"]).sendRequest HttpEnv.scripted sampleEndpoint askingRequest
      (⟨some .plain, str "localhost", 80, false⟩, [refusedIo]) =
        (.ok ⟨400, [], -1⟩, ⟨some .plain, str "localhost", 80, false⟩, []) :=
    sendRequest_first rfl roundTrip_refused rfl
  have hrun : (tokenClient [str "y"]).infer HttpEnv.scripted askingLib (some (str "1")) [pairInput]
      (⟨some .plain, str "localhost", 80, false⟩, [refusedIo]) =
        (throwRuntime (str "KServe inference failed: HTTP 400 "), ⟨some .plain, str "localhost", 80, false⟩, []) := by
    rw [infer, inferRequest_asking, ok_andThen]
    simp only [hsend]
    rfl
  refine SessionStep.of_answered inferRequest_asking ⟨_, _, _, rfl, hsend⟩ ?_ ?_
  · rw [HttpCall.run, hrun]
    exact .inr ⟨_, rfl⟩
  · rw [HttpCall.run, hrun]

/-- The metadata of the model, then an inference that the server refuses. -/
theorem session_asking : Run (SessionStep HttpEnv.scripted askingLib)
    (tokenClient [], ⟨none, [], 0, false⟩, [announcedIo, refusedIo]) [announcedEvent, askingEvent]
    (tokenClient [str "y"], ⟨some .plain, str "localhost", 80, false⟩, []) :=
  .cons step_announced (.cons step_asking (.nil _))

end Witness

end KserveClient
