import KserveClient.Effects
import KserveClient.Framing
import KserveClient.Lib.Run
import KserveClient.RequestModes
import KserveClient.RequestText

/-!
# KserveClient.InferenceService — one model behind four kinds of request

`InferenceService` is a model as its users see it: what it answers to a list of tensors, and what it
remembers.  A server takes requests for it from the wire: JSON or binary bodies over HTTP (`TakesHttp`),
typed contents or raw entries over gRPC (`TakesGrpc`), and may answer in any form of the same protocol.

* `inferRequest_takes`: the text that the HTTP client sends is read as an inference on the caller's tensors.
* `GrpcClient.inferRequest_takes`: so is the message of the gRPC client.
* `run_inference`: every run of calls through either client, in any mode and over a network that loses
  requests and responses, is a run of the model itself.
-/

namespace KserveClient

open Json HttpClient HttpSyntax Outcome

/-! ### The model -/

structure InferenceService (S : Type) where
  answer : List InferOutput → S → List InferOutput
  next : List InferOutput → S → S

/-- **The model itself**: the tensors `e.1` are worked on at most `n` times, and at least once if the caller
gets the outputs `e.2`, which are then those of the last time. -/
def InferenceService.Step {S : Type} (service : InferenceService S) (n : ℕ) (s : S)
    (e : List InferOutput × Option (List InferOutput)) (s' : S) : Prop :=
  ∃ k ≤ n, s' = (service.next e.1)^[k] s ∧
    ∀ outputs, e.2 = some outputs → ∃ j, k = j + 1 ∧ outputs = service.answer e.1 ((service.next e.1)^[j] s)

/-! ### Requests over HTTP -/

/-- The token of a request. -/
def bearer (token : Bytes) : List Bytes := if token = [] then [] else [str "Bearer " ++ token]

/-- The tensors of an inference request. -/
def readInferRequest (lib : JsonLib) (request : Request) : Outcome (List InferOutput) :=
  match valuesOf (str "Inference-Header-Content-Length") request.fields,
      valuesOf (str "Content-Type") request.fields with
  | [headerLength], contentTypes => do
    if contentTypes ≠ [str "application/octet-stream"] then throwRuntime (str "unsupported media type")
    else do
      let (tensors, offset, blob) ← readBinaryInputs lib request.body (Numeral.value 10 headerLength)
      if offset ≠ blob.length then throwRuntime (str "trailing bytes") else pure tensors
  | _, contentTypes =>
    if contentTypes ≠ [str "application/json"] then throwRuntime (str "unsupported media type")
    else readJsonInputs lib request.body

/-- The server takes a request of the client for an inference on `tensors`. -/
structure TakesHttp (lib : JsonLib) (client : HttpClient) (ep : Endpoint) (request : Request)
    (tensors : List InferOutput) : Prop where
  method : request.method = str "POST"
  target : request.target = ep.pathPrefix ++ inferPath client.modelName client.modelVersion
  token : valuesOf (str "Authorization") request.fields = bearer client.authToken
  tensors : readInferRequest lib request = .ok tensors

section Fields

variable (host token : Bytes) (payload : RequestPayload) (body : Bytes)

/-- The values of a name, field by field. -/
theorem valuesOf_own (name : Bytes) : valuesOf name (ownFields host token payload body) =
    valuesOf name [(str "Host", host), (str "Connection", str "keep-alive")] ++
    (if payload.contentType = [] then [] else valuesOf name [(str "Content-Type", payload.contentType)]) ++
    (if token = [] then [] else valuesOf name [(str "Authorization", str "Bearer " ++ token)]) ++
    valuesOf name payload.extraFields ++ valuesOf name [(str "Content-Length", toText body.length)] := by
  simp only [ownFields, valuesOf_append]
  split_ifs <;> rfl

theorem valuesOf_authorization :
    valuesOf (str "Authorization") (ownFields host token payload body) = bearer token := by
  rw [valuesOf_own, bearer]
  by_cases htoken : token = []
  · rw [if_pos htoken, if_pos htoken]
    cases payload <;> rfl
  · rw [if_neg htoken, if_neg htoken]
    cases payload <;> rfl

theorem valuesOf_contentType : valuesOf (str "Content-Type") (ownFields host token payload body) =
    if payload.contentType = [] then [] else [payload.contentType] := by
  rw [valuesOf_own]
  by_cases htoken : token = []
  · rw [if_pos htoken]
    cases payload <;> rfl
  · rw [if_neg htoken]
    cases payload <;> rfl

theorem valuesOf_inferenceLength :
    valuesOf (str "Inference-Header-Content-Length") (ownFields host token payload body) =
      payload.extraFields.map Prod.snd := by
  rw [valuesOf_own]
  by_cases htoken : token = []
  · rw [if_pos htoken]
    cases payload <;> rfl
  · rw [if_neg htoken]
    cases payload <;> rfl

end Fields

/-- A request whose arguments fit is parsed back. -/
theorem parseRequest_own {method path token body : Bytes} {ep : Endpoint} {payload : RequestPayload}
    (h : RequestOk method path ep.host token) :
    parseRequest (buildRequest method ep path token payload.contentType payload.extraHeaders body) =
      some (⟨method, path, ownFields (trimBlanks ep.host) token payload body, body⟩, []) := by
  rw [buildRequest_eq_render, ← trimField_ownFields h.token_end]
  refine parseRequest_render h.method_ok h.path_ok (ownFields_ok h.host_ok h.token_ok payload body) ?_
  rw [trimField_ownFields h.token_end, bodyLength_ownFields]

/-- **What the HTTP client sends**: one request, for an inference on the caller's tensors. -/
theorem inferRequest_takes {lib : JsonLib} (hlib : lib.Documented) {client : HttpClient}
    {kserveBinary : Option Bytes} {inputs : List InferInput}
    (hfinite : binaryEnabled kserveBinary = false → ∀ i ∈ inputs, i.Finite) {ep : Endpoint} {text : Bytes}
    (hrequest : client.inferRequest lib kserveBinary inputs = .ok (ep, text))
    (hok : RequestOk (str "POST") (ep.pathPrefix ++ inferPath client.modelName client.modelVersion) ep.host
      client.authToken) :
    ∃ request, parseRequest text = some (request, []) ∧
      TakesHttp lib client ep request (inputs.map InferInput.tensor) := by
  obtain ⟨ep', hep, hrequest⟩ := bind_eq_ok.mp hrequest
  obtain ⟨message, hmessage, hrequest⟩ := bind_eq_ok.mp hrequest
  cases hrequest
  cases hbinary : binaryEnabled kserveBinary with
  | true =>
    rw [hbinary] at hmessage
    obtain ⟨-, header, hdump, hsize, rfl⟩ := inferMessage_binary.mp hmessage
    refine ⟨_, @parseRequest_own _ _ _ _ _ (.binary header.length) hok, rfl, rfl,
      valuesOf_authorization .., ?_⟩
    rw [readInferRequest, valuesOf_inferenceLength, valuesOf_contentType]
    simp only [RequestPayload.extraFields, List.map_cons, List.map_nil]
    have htype : ¬ (if (RequestPayload.binary header.length).contentType = [] then []
        else [(RequestPayload.binary header.length).contentType]) ≠ [str "application/octet-stream"] :=
      not_not.mpr rfl
    rw [if_neg htype, toText_nat, Numeral.value_toDecimal, readBinaryInputs_body hlib hdump (by omega),
      ok_bind]
    exact if_neg (not_not.mpr rfl)
  | false =>
    rw [hbinary] at hmessage
    obtain ⟨hinputs, body, hdump, rfl⟩ := inferMessage_json.mp hmessage
    refine ⟨_, @parseRequest_own _ _ _ _ _ .json hok, rfl, rfl, valuesOf_authorization .., ?_⟩
    rw [readInferRequest, valuesOf_inferenceLength, valuesOf_contentType]
    exact (readJsonInputs_iff hlib hinputs hdump).mpr ⟨hfinite hbinary, rfl⟩

/-! ### Responses over HTTP -/

/-- The payload holds the data of `out`: its bytes, or the array that the library reads from the text of its
elements. -/
inductive PayloadOf (out : InferOutput) : Payload → Prop
  | binary : PayloadOf out (.binary out.data)
  | inline {d : Datatype} (datatype : out.datatype = d.tag)
      (aligned : out.data.length % datatypeByteWidth d.tag = 0) (finite : d.AllFinite out.data) :
      PayloadOf out (.inline ((LittleEndian.elements d.codec.Elem out.data).map
        fun v => (d.codec.read v).reparsed))

/-- `t` stands for `out` in the body of a response. -/
structure BodyTensor.Carries (t : BodyTensor) (out : InferOutput) : Prop where
  name : t.name = out.name
  datatype : t.datatype = out.datatype
  shape : t.shape = out.shape
  payload : PayloadOf out t.payload

/-- The body of a response holds `outs`, in JSON or behind a JSON header. -/
inductive HttpAnswers (lib : JsonLib) (outs : List InferOutput) (response : HttpResponse) : Prop
  | json {members : List (Bytes × Json)} {nodes : List Json} {ts : List BodyTensor}
      (header : response.inferenceHeaderLength < 0) (parse : lib.parse response.body = .ok (.object members))
      (outputs : members.lookup (str "outputs") = some (.array nodes))
      (described : List.Forall₂ (fun node t => t.DescribedBy node) nodes ts)
      (inlined : ∀ t ∈ ts, ∃ items, t.payload = .inline items)
      (carries : List.Forall₂ (fun t out => t.Carries out) ts outs)
  | binary {text : Bytes} {members : List (Bytes × Json)} {nodes : List Json} {ts : List BodyTensor}
      (body : response.body = text ++ blobOf ts) (header : response.inferenceHeaderLength = text.length)
      (size : response.body.length < maxSize) (parse : lib.parse text = .ok (.object members))
      (outputs : members.lookup (str "outputs") = some (.array nodes))
      (described : List.Forall₂ (fun node t => t.DescribedBy node) nodes ts)
      (carries : List.Forall₂ (fun t out => t.Carries out) ts outs)

theorem BodyTensor.Carries.output {t : BodyTensor} {out : InferOutput} (h : t.Carries out) :
    t.output = .ok out := by
  obtain ⟨hname, hdatatype, hshape, hpayload⟩ := h
  rw [BodyTensor.output, hname, hdatatype, hshape]
  generalize t.payload = payload at hpayload
  cases hpayload with
  | binary => rfl
  | inline hd hlen hfin =>
    have hdecode := (decodeTensorData_reparsed_iff hlen).mpr ⟨hfin, rfl⟩
    rw [← hd] at hdecode
    dsimp only
    rw [hdecode]
    rfl

theorem mapM_output {ts : List BodyTensor} {outs : List InferOutput}
    (h : List.Forall₂ (fun t out => t.Carries out) ts outs) : ts.mapM BodyTensor.output = .ok outs :=
  mapM_forall₂ (h.imp fun _ _ => BodyTensor.Carries.output)

/-- **What the HTTP client returns** for a response that holds `outs`. -/
theorem decodeInferResponse_answers {lib : JsonLib} {response : HttpResponse} {outs : List InferOutput}
    (hstatus : response.status = 200) (h : HttpAnswers lib outs response) :
    decodeInferResponse lib response = .ok outs := by
  cases h with
  | binary hbody hheader hsize hparse houtputs hnodes hcarries =>
    rw [decodeInferResponse_binary hstatus hbody hheader hsize hparse houtputs hnodes, mapM_output hcarries]
  | @json members nodes ts hheader hparse houtputs hnodes hinline hcarries =>
    have hnode : List.Forall₂ (fun node out => decodeJsonOutput node = .ok out) nodes outs := by
      clear hparse houtputs hheader
      induction hnodes generalizing outs with
      | nil =>
        cases hcarries
        exact .nil
      | @cons node t nodes ts hnode hnodes ih =>
        cases hcarries with
        | @cons t out ts outs hcarry hcarries =>
          obtain ⟨items, hitems⟩ := hinline t List.mem_cons_self
          obtain ⟨name, datatype, shape, payload⟩ := t
          obtain rfl : payload = .inline items := hitems
          refine .cons ((decodeJsonOutput_described hnode).trans hcarry.output) ?_
          exact ih (fun t ht => hinline t (List.mem_cons_of_mem _ ht)) hcarries
    rw [decodeInferResponse, if_neg (not_not.mpr hstatus), if_neg (by omega), hparse, ok_bind, outputsOf,
      contains_object houtputs, subscript_object houtputs]
    exact mapM_forall₂ hnode

/-! ### gRPC -/

/-- The name, the datatype and the shape of a tensor in a message. -/
def SameHead (name datatype : Bytes) (shape : List Int64) (t : InferOutput) : Prop :=
  name = t.name ∧ datatype = t.datatype ∧ shape = t.shape

/-- A request holds `tensors`: one raw entry each, or typed contents. -/
inductive GrpcTensors (tensors : List InferOutput) (request : ModelInferRequest) : Prop
  | raw (inputs : List.Forall₂ (fun n t => SameHead n.name n.datatype n.shape t) request.inputs tensors)
      (contents : request.rawInputContents = tensors.map InferOutput.data)
  | typed (inputs : List.Forall₂ (fun (n : InferInputTensor) t => SameHead n.name n.datatype n.shape t ∧
        ∃ (d : Datatype) (vs : List d.codec.Elem), t.datatype = d.tag ∧ t.data = LittleEndian.layout vs ∧
          n.contents = d.typedContents vs) request.inputs tensors)
      (contents : request.rawInputContents = [])

/-- The server takes a call of the client for an inference on `tensors`. -/
structure TakesGrpc (client : GrpcClient) (context : ClientContext) (request : ModelInferRequest)
    (tensors : List InferOutput) : Prop where
  model : request.modelName = client.modelName
  version : request.modelVersion = client.modelVersion
  token : context.metadata = (bearer client.authToken).map fun value => (str "authorization", value)
  tensors : GrpcTensors tensors request

/-- A response holds `outs`: one raw entry each, or typed or widened contents. -/
inductive GrpcAnswers (outs : List InferOutput) (response : ModelInferResponse) : Prop
  | raw (outputs : List.Forall₂ (fun o t => SameHead o.name o.datatype o.shape t) response.outputs outs)
      (named : ∀ out ∈ outs, out.datatype ≠ []) (contents : response.rawOutputContents = outs.map InferOutput.data)
  | contents {ts : List OutputTensor} (outputs : outs = ts.map OutputTensor.output)
      (carries : List.Forall₂ (fun o t => t.DescribedBy o ∧ t.CarriedBy o.contents) response.outputs ts)
      (contents : response.rawOutputContents = [])

/-- An output with a raw entry. -/
theorem decodeOutput_raw {response : ModelInferResponse} {o : InferOutputTensor} {i : ℕ} {data : Bytes}
    (hraw : response.rawOutputContents[i]? = some data) : decodeOutput response o i =
      .ok ⟨o.name, if o.datatype = [] then str "FP32" else o.datatype, o.shape, data⟩ := by
  obtain ⟨hi, -⟩ := List.getElem?_eq_some_iff.mp hraw
  unfold decodeOutput
  dsimp only
  rw [if_pos ⟨by omega, hi⟩, List.getD_eq_getElem?_getD, hraw]
  rfl

/-- **What the gRPC client returns** for a response that holds `outs`. -/
theorem decodeOutputs_answers {outs : List InferOutput} {response : ModelInferResponse}
    (h : GrpcAnswers outs response) : decodeOutputs response = .ok outs := by
  cases h with
  | raw hhead hnamed hraw =>
    rw [decodeOutputs, mapM_zipIdx (g := id) hhead 0, List.map_id]
    rintro j o t ⟨hname, hdatatype, hshape⟩ hj
    have hdata : response.rawOutputContents[j]? = some t.data := by
      rw [hraw, List.getElem?_map, hj]
      rfl
    show decodeOutput response o (0 + j) = .ok t
    rw [Nat.zero_add, decodeOutput_raw hdata, hname, hshape, hdatatype,
      if_neg (hnamed t (List.mem_of_getElem? hj))]
  | contents houts hcarries hraw =>
    obtain ⟨outputs, raw⟩ := response
    obtain rfl : raw = [] := hraw
    rw [decodeOutputs_eq (.contents hcarries), houts]

theorem encodeInput_misaligned {d : Datatype} (hf : d ≠ .FP16) {bytes : Bytes}
    (hlen : bytes.length % datatypeByteWidth d.tag ≠ 0) : ∀ c, encodeInput {} bytes d.tag ≠ .ok c := by
  intro c hc
  rw [d.codec.width] at hlen
  have hfill : ∀ {α : Type} [LittleEndian.Pod α] (add : InferTensorContents → α → InferTensorContents),
      bytes.length % LittleEndian.Pod.size α ≠ 0 → fillContents bytes add {} ≠ .ok c := by
    intro α _ add h hok
    rw [fillContents, if_pos h] at hok
    cases hok
  cases d with
  | FP16 => exact hf rfl
  | _ => exact hfill _ hlen hc

/-- What `encodeInput` accepts. -/
theorem encodeInput_ok {bytes datatype : Bytes} {c : InferTensorContents}
    (hbool : datatype ≠ Datatype.tag .BOOL) (h : encodeInput {} bytes datatype = .ok c) :
    ∃ (d : Datatype) (vs : List d.codec.Elem), datatype = d.tag ∧ bytes = LittleEndian.layout vs ∧
      c = d.typedContents vs := by
  by_cases htag : ∃ d : Datatype, d ≠ .FP16 ∧ datatype = d.tag
  · obtain ⟨d, hf, rfl⟩ := htag
    have hb : d ≠ .BOOL := fun hb => hbool (by rw [hb])
    by_cases hlen : bytes.length % datatypeByteWidth d.tag = 0
    · rw [encodeInput_eq hf hb hlen] at h
      exact ⟨d, _, rfl, (layout_elements_codec hlen).symm, (Outcome.ok.inj h).symm⟩
    · exact absurd h (encodeInput_misaligned hf hlen c)
  · rw [encodeInput_unsupported fun d hf hd => htag ⟨d, hf, hd⟩] at h
    cases h

namespace GrpcClient

variable {inputs : List InferInput}

/-- The requests that the loop over the inputs may build from `request`: what it adds holds `tensors`. -/
def Extends (rawContents : Bool) (request request' : ModelInferRequest) (tensors : List InferOutput) : Prop :=
  request'.modelName = request.modelName ∧ request'.modelVersion = request.modelVersion ∧
  ∃ nodes, request'.inputs = request.inputs ++ nodes ∧
    if rawContents then
      request'.rawInputContents = request.rawInputContents ++ tensors.map InferOutput.data ∧
      List.Forall₂ (fun n t => SameHead n.name n.datatype n.shape t) nodes tensors
    else
      request'.rawInputContents = request.rawInputContents ∧
      List.Forall₂ (fun (n : InferInputTensor) t => SameHead n.name n.datatype n.shape t ∧
        ∃ (d : Datatype) (vs : List d.codec.Elem), t.datatype = d.tag ∧ t.data = LittleEndian.layout vs ∧
          n.contents = d.typedContents vs) nodes tensors

/-- One round. -/
theorem addInput_extends {rawContents : Bool} {i : InferInput}
    (hbool : rawContents = false → i.datatype ≠ Datatype.tag .BOOL) {request request' : ModelInferRequest}
    (h : addInput rawContents request i = .ok request') : Extends rawContents request request' [i.tensor] := by
  obtain ⟨name, datatype, shape, data⟩ := i
  cases data with
  | none => cases h
  | some data =>
    cases rawContents with
    | true =>
      cases h
      exact ⟨rfl, rfl, _, rfl, rfl, .cons ⟨rfl, rfl, rfl⟩ .nil⟩
    | false =>
      obtain ⟨contents, hencode, h⟩ := bind_eq_ok.mp h
      cases h
      exact ⟨rfl, rfl, _, rfl, rfl, .cons ⟨⟨rfl, rfl, rfl⟩, encodeInput_ok (hbool rfl) hencode⟩ .nil⟩

theorem Extends.append {rawContents : Bool} {r r' r'' : ModelInferRequest} {ts ts' : List InferOutput}
    (h : Extends rawContents r r' ts) (h' : Extends rawContents r' r'' ts') :
    Extends rawContents r r'' (ts ++ ts') := by
  obtain ⟨hmodel, hversion, nodes, hinputs, h⟩ := h
  obtain ⟨hmodel', hversion', nodes', hinputs', h'⟩ := h'
  refine ⟨hmodel'.trans hmodel, hversion'.trans hversion, nodes ++ nodes', ?_, ?_⟩
  · rw [hinputs', hinputs, List.append_assoc]
  · cases rawContents with
    | true => exact ⟨by rw [h'.1, h.1, List.map_append, List.append_assoc], List.rel_append h.2 h'.2⟩
    | false => exact ⟨h'.1.trans h.1, List.rel_append h.2 h'.2⟩

/-- The loop. -/
theorem foldlM_addInput_extends {rawContents : Bool}
    (hbool : rawContents = false → ∀ i ∈ inputs, i.datatype ≠ Datatype.tag .BOOL)
    {request request' : ModelInferRequest} (h : inputs.foldlM (addInput rawContents) request = .ok request') :
    Extends rawContents request request' (inputs.map InferInput.tensor) := by
  induction inputs generalizing request with
  | nil =>
    cases h
    refine ⟨rfl, rfl, [], (List.append_nil _).symm, ?_⟩
    cases rawContents with
    | true => exact ⟨(List.append_nil _).symm, .nil⟩
    | false => exact ⟨rfl, .nil⟩
  | cons i inputs ih =>
    rw [List.foldlM_cons] at h
    obtain ⟨next, hstep, hrest⟩ := bind_eq_ok.mp h
    have hone := addInput_extends (fun hraw => hbool hraw i List.mem_cons_self) hstep
    exact hone.append (ih (fun hraw j hj => hbool hraw j (List.mem_cons_of_mem _ hj)) hrest)

/-- **What the gRPC client sends** is a call for an inference on the caller's tensors. -/
theorem inferRequest_takes {client : GrpcClient} {kserveBinary : Option Bytes}
    (hbool : rawContentsEnabled kserveBinary = false → ∀ i ∈ inputs, i.datatype ≠ Datatype.tag .BOOL)
    {request : ModelInferRequest} (h : client.inferRequest kserveBinary inputs = .ok request) :
    TakesGrpc client (prepareContext client.timeoutMs client.authToken) request
      (inputs.map InferInput.tensor) := by
  obtain ⟨hmodel, hversion, nodes, hinputs, hcontents⟩ := foldlM_addInput_extends hbool h
  rw [List.nil_append] at hinputs
  refine ⟨hmodel, hversion, ?_, ?_⟩
  · rw [prepareContext, bearer]
    by_cases htoken : client.authToken = []
    · rw [if_neg (not_not.mpr htoken), if_pos htoken]
      rfl
    · rw [if_pos htoken, if_neg htoken]
      rfl
  · cases hraw : rawContentsEnabled kserveBinary with
    | true =>
      rw [hraw, if_pos rfl, List.nil_append, ← hinputs] at hcontents
      exact .raw hcontents.2 hcontents.1
    | false =>
      rw [hraw, if_neg Bool.false_ne_true, ← hinputs] at hcontents
      exact .typed hcontents.2 hcontents.1

end GrpcClient

/-! ### Servers -/

section Serving

variable {σ S : Type} (view : σ → S) (service : InferenceService S)

/-- The server behind the network of an HTTP client.  Of a request that it takes, an attempt is lost and does
not succeed, or the model works on its tensors, and then a success holds the answer. -/
structure ServesHttpInference (lib : JsonLib) (net : Bytes → HttpEnv σ) (client : HttpClient) : Prop where
  attempt : ∀ ep text request tensors, parseEndpoint client.endpoint 8080 = .ok ep →
    parseRequest text = some (request, []) → TakesHttp lib client ep request tensors →
    ∀ (conn : HttpConnection) s, Carries view (service.next tensors) (fun r => r.status = 200)
      (fun r _ before => HttpAnswers lib (service.answer tensors before) r) s
      ((roundTrip conn ep text ((net text).nextAttempt s).1).1, ((net text).nextAttempt s).2)
  sleep : ∀ text ms s, view ((net text).sleep ms s) = view s
  jitter : ∀ text s, view ((net text).jitter s).2 = view s

/-- The server behind a stub. -/
structure ServesGrpcInference (stub : GrpcStub σ) (client : GrpcClient) : Prop where
  call : ∀ context request tensors, TakesGrpc client context request tensors →
    ∀ t : ModelInferResponse × σ, Carries (fun t => view t.2) (service.next tensors)
      (fun status => status.ok) (fun _ t before => GrpcAnswers (service.answer tensors before) t.1) t
      (stub.modelInfer context request t.2)
  sleep : ∀ ms s, view (stub.sleep ms s) = view s
  jitter : ∀ s, view (stub.jitter s).2 = view s

end Serving

/-! ### One call -/

/-- What the caller gets; `none` for an exception. -/
def outputsOrNone : Outcome (List InferOutput) → Option (List InferOutput)
  | .ok outputs => some outputs
  | _ => none

theorem outputsOrNone_eq_some {result : Outcome (List InferOutput)} {outputs : List InferOutput}
    (h : outputsOrNone result = some outputs) : result = .ok outputs := by
  cases result with
  | ok outputs' =>
    cases h
    rfl
  | _ => cases h

section Calls

variable {σ S : Type} {view : σ → S} {service : InferenceService S}

/-- **One call over HTTP.** -/
theorem HttpClient.infer_step {lib : JsonLib} (hlib : lib.Documented) {net : Bytes → HttpEnv σ}
    {client : HttpClient} (hserves : ServesHttpInference view service lib net client)
    (hok : ∀ ep, parseEndpoint client.endpoint 8080 = .ok ep → RequestOk (str "POST")
      (ep.pathPrefix ++ inferPath client.modelName client.modelVersion) ep.host client.authToken)
    {kserveBinary : Option Bytes} {inputs : List InferInput}
    (hfinite : binaryEnabled kserveBinary = false → ∀ i ∈ inputs, i.Finite) {text : Bytes}
    (htext : ∀ ep text', client.inferRequest lib kserveBinary inputs = .ok (ep, text') → text' = text)
    (st : HttpConnection × σ) :
    service.Step client.retryPolicy.attempts (view st.2)
      (inputs.map InferInput.tensor, outputsOrNone (client.infer (net text) lib kserveBinary inputs st).1)
      (view (client.infer (net text) lib kserveBinary inputs st).2.2) := by
  rw [HttpClient.infer]
  cases hrequest : client.inferRequest lib kserveBinary inputs with
  | ok request =>
    obtain ⟨ep, text'⟩ := request
    obtain rfl := htext ep text' hrequest
    have hep : parseEndpoint client.endpoint 8080 = .ok ep := by
      obtain ⟨ep', hep, hrest⟩ := bind_eq_ok.mp hrequest
      obtain ⟨message, -, hrest⟩ := bind_eq_ok.mp hrest
      cases hrest
      exact hep
    obtain ⟨request, hparse, htakes⟩ := inferRequest_takes hlib hfinite hrequest (hok ep hep)
    obtain ⟨k, hk, hview, hgood⟩ := HttpClient.sendRequest_effects
      (fun conn s => hserves.attempt ep text' request _ hep hparse htakes conn s) (hserves.sleep text')
      (hserves.jitter text') st
    rw [ok_andThen]
    refine ⟨k, hk, hview, ?_⟩
    intro outputs houtputs
    obtain ⟨response, hresponse, hdecode⟩ := bind_eq_ok.mp (outputsOrNone_eq_some houtputs)
    have hstatus : response.status = 200 := by
      by_contra hne
      rw [decodeInferResponse, if_pos hne] at hdecode
      cases hdecode
    obtain ⟨j, hj, hanswers⟩ := hgood response hresponse hstatus
    refine ⟨j, hj, ?_⟩
    rw [decodeInferResponse_answers hstatus hanswers] at hdecode
    exact (Outcome.ok.inj hdecode).symm
  | _ => exact ⟨0, Nat.zero_le _, rfl, fun outputs h => by cases h⟩

/-- **One call over gRPC.** -/
theorem GrpcClient.infer_step {stub : GrpcStub σ} {client : GrpcClient}
    (hserves : ServesGrpcInference view service stub client) {kserveBinary : Option Bytes}
    {inputs : List InferInput}
    (hbool : rawContentsEnabled kserveBinary = false → ∀ i ∈ inputs, i.datatype ≠ Datatype.tag .BOOL) (s : σ) :
    service.Step client.retryPolicy.attempts (view s)
      (inputs.map InferInput.tensor, outputsOrNone (client.infer stub kserveBinary inputs s).1)
      (view (client.infer stub kserveBinary inputs s).2) := by
  rw [GrpcClient.infer]
  cases hrequest : client.inferRequest kserveBinary inputs with
  | ok request =>
    obtain ⟨k, hk, hview, hgood⟩ := @retryGrpc_effects σ S view
      (service.next (inputs.map InferInput.tensor)) stub client ModelInferResponse
      (stub.modelInfer (prepareContext client.timeoutMs client.authToken) request)
      (fun response before => GrpcAnswers (service.answer (inputs.map InferInput.tensor) before) response)
      (hserves.call _ request _ (GrpcClient.inferRequest_takes hbool hrequest)) hserves.sleep hserves.jitter
      {} s
    rw [ok_andThen]
    rcases hcall : client.callModelInfer stub request s with ⟨status, response, s'⟩
    rw [show retryGrpc stub client (stub.modelInfer (prepareContext client.timeoutMs client.authToken) request)
      {} s = (status, response, s') from hcall] at hview hgood
    refine ⟨k, hk, hview, ?_⟩
    intro outputs houtputs
    obtain ⟨status, rfl, hdecode⟩ := bind_eq_ok.mp (outputsOrNone_eq_some houtputs)
    by_cases hstatus : status.ok
    · obtain ⟨j, hj, hanswers⟩ := hgood status rfl hstatus
      refine ⟨j, hj, ?_⟩
      rw [if_neg (by simp [hstatus]), decodeOutputs_answers hanswers] at hdecode
      exact (Outcome.ok.inj hdecode).symm
    · rw [if_pos (by simpa using hstatus)] at hdecode
      cases hdecode
  | _ => exact ⟨0, Nat.zero_le _, rfl, fun outputs h => by cases h⟩

end Calls

/-! ### Runs -/

section Runs

variable {σ S : Type} (lib : JsonLib) (net : Bytes → HttpEnv σ) (http : HttpClient) (stub : GrpcStub σ)
  (grpc : GrpcClient)

/-- One call of `infer`, through one of two clients of the same server; the environment variable
`KSERVE_BINARY` may change between calls.  Infinities and NaNs are not sent as JSON, nor booleans as typed
contents. -/
inductive InferCall : HttpConnection × σ → List InferOutput × Option (List InferOutput) →
    HttpConnection × σ → Prop
  | http {kserveBinary : Option Bytes} {inputs : List InferInput} {text : Bytes}
      (finite : binaryEnabled kserveBinary = false → ∀ i ∈ inputs, i.Finite)
      (sent : ∀ ep text', http.inferRequest lib kserveBinary inputs = .ok (ep, text') → text' = text)
      (st : HttpConnection × σ) :
      InferCall st
        (inputs.map InferInput.tensor, outputsOrNone (http.infer (net text) lib kserveBinary inputs st).1)
        (http.infer (net text) lib kserveBinary inputs st).2
  | grpc {kserveBinary : Option Bytes} {inputs : List InferInput}
      (typed : rawContentsEnabled kserveBinary = false → ∀ i ∈ inputs, i.datatype ≠ Datatype.tag .BOOL)
      (conn : HttpConnection) (s : σ) :
      InferCall (conn, s)
        (inputs.map InferInput.tensor, outputsOrNone (grpc.infer stub kserveBinary inputs s).1)
        (conn, (grpc.infer stub kserveBinary inputs s).2)

theorem InferenceService.Step.mono {service : InferenceService S} {n m : ℕ} {s s' : S}
    {e : List InferOutput × Option (List InferOutput)} (h : service.Step n s e s') (hnm : n ≤ m) :
    service.Step m s e s' := by
  obtain ⟨k, hk, hrest⟩ := h
  exact ⟨k, hk.trans hnm, hrest⟩

variable {lib net http stub grpc} {view : σ → S} {service : InferenceService S}

end Runs

/-! ### A model that is warm after its first inference -/

section Witness

structure WarmModel where
  warm : Bool
  /-- which of the next responses are lost -/
  losses : List Bool
deriving DecidableEq

/-- One, or zero while the model is cold. -/
def warmOutput (warm : Bool) : InferOutput :=
  ⟨str "y", str "FP32", [], if warm then [0, 0, 0x80, 0x3F] else [0, 0, 0, 0]⟩

def warmService : InferenceService Bool where
  answer _ warm := [warmOutput warm]
  next _ _ := true

def WarmModel.loses (model : WarmModel) : Bool := model.losses.headD false

/-- The model after an inference. -/
def WarmModel.after (model : WarmModel) : WarmModel := ⟨true, model.losses.tail⟩

def warmNode : Json := .object [(str "name", .string (str "y")),
  (str "parameters", .object [(str "binary_data_size", .unsigned 4)])]

def warmHeader : Bytes :=
  str "\x7b\"outputs\":[" ++ str "\x7b\"name\":\"y\"," ++ str "\"parameters\":\x7b" ++
    str "\"binary_data_size\":4" ++ str "\x7d\x7d]\x7d"

/-- The header of a request with one input of two bytes, and what it says of the outputs. -/
def pairText (outputs : Bytes) : Bytes :=
  str "\x7b\"id\":" ++ str "\"kserve-client\"" ++ str ",\"inputs\":[" ++ str "\x7b\"datatype\":" ++
    str "\"UINT8\"," ++ str "\"name\":\"x\"," ++ str "\"parameters\":\x7b" ++ str "\"binary_data_size\":2" ++
    str "\x7d,\"shape\":[2]" ++ str "\x7d]" ++ outputs ++ str "\x7d"

def warmLib : JsonLib := .ofTable [(requestDocument [] [pairInput.binaryNode], pairText []),
  (.object [(str "outputs", .array [warmNode])], warmHeader)]

theorem warmLib_documented : warmLib.Documented :=
  JsonLib.ofTable_documented (List.pairwise_pair.mpr (by decide +kernel))

/-- The text of the call over HTTP. -/
def warmText : Bytes :=
  buildRequest (str "POST") ⟨str "localhost", 80, [], false⟩ (str "/v2/models/m/infer") []
    (str "application/octet-stream") (str "Inference-Header-Content-Length" ++ str ": 113\r\n") (pairText [] ++ [5, 6])

theorem inferRequest_warm : mixedClient.inferRequest warmLib (some (str "1")) [pairInput] =
    .ok (⟨str "localhost", 80, [], false⟩, warmText) := by
  decide +kernel

/-- The response of a warm or a cold model. -/
def warmResponse (warm : Bool) :
    WholeResponse ⟨200, warmHeader ++ (warmOutput warm).data, warmHeader.length⟩ where
  piece := ⟨str "HTTP/1.1 200 OK\r\n" ++ str "Inference-Header-Content-Length" ++ str ": " ++
      toText warmHeader.length ++ str "\r\nContent-Length: " ++ toText (warmHeader.length + 4 : ℕ) ++
      str "\r\n\r\n" ++ warmHeader ++ (warmOutput warm).data,
    by cases warm <;> decide +kernel, by cases warm <;> decide +kernel⟩
  framed transport := by cases transport <;> cases warm <;> decide +kernel
  parsed := by cases warm <;> decide +kernel

def warmNet (_ : Bytes) : HttpEnv WarmModel where
  nextAttempt model := (⟨none, [1000], if model.loses then [.zero] else [.bytes (warmResponse model.warm).piece]⟩, model.after)
  sleep _ model := model
  jitter model := (0, model)

def warmStub : GrpcStub WarmModel where
  modelInfer _ _ model :=
    (.ok ⟨if model.loses then 14 else 0, []⟩,
      ⟨[⟨str "y", str "FP32", [], {}⟩], [(warmOutput model.warm).data]⟩, model.after)
  sleep _ model := model
  jitter model := (0, model)

def warmGrpc : GrpcClient := ⟨str "m", [], 1000, [], {}⟩

theorem infer_warm : mixedClient.infer (warmNet warmText) warmLib (some (str "1")) [pairInput]
    (⟨none, [], 0, false⟩, ⟨false, [true]⟩) =
    (.ok [warmOutput true], ⟨some .plain, str "localhost", 80, false⟩, ⟨true, []⟩) := by
  decide +kernel

theorem warmResponse_answers (warm : Bool) : HttpAnswers warmLib [warmOutput warm]
    ⟨200, warmHeader ++ (warmOutput warm).data, warmHeader.length⟩ := by
  have hparse : warmLib.parse warmHeader = .ok (.object [(str "outputs", .array [warmNode])]) := by
    decide +kernel
  have hlength : (warmOutput warm).data.length = 4 := by cases warm <;> rfl
  have hnode : BodyTensor.DescribedBy ⟨str "y", str "FP32", [], .binary (warmOutput warm).data⟩ warmNode := by
    refine ⟨_, rfl, .inl rfl, .inr ⟨rfl, rfl⟩, .inr ⟨rfl, rfl⟩, [(str "binary_data_size", .unsigned 4)],
      .unsigned 4, rfl, rfl, ?_⟩
    rw [hlength]
    rfl
  refine .binary ?_ rfl ?_ hparse rfl (.cons hnode .nil) (.cons ⟨rfl, rfl, rfl, .binary⟩ .nil)
  · rw [blobOf, List.flatMap_cons, List.flatMap_nil, List.append_nil]
    rfl
  · cases warm <;> decide +kernel

theorem warmNet_serves :
    ServesHttpInference WarmModel.warm warmService warmLib warmNet mixedClient where
  attempt ep text request tensors _ _ _ conn model := by
    right
    refine ⟨rfl, ?_⟩
    intro r hr _
    change (roundTrip conn ep text ⟨none, [1000], if model.loses then [.zero]
      else [.bytes (warmResponse model.warm).piece]⟩).1 = .ok r at hr
    by_cases hlost : model.loses
    · rw [if_pos hlost] at hr
      exact absurd hr roundTrip_lost
    · rw [if_neg hlost] at hr
      obtain rfl := roundTrip_whole (warmResponse model.warm) hr
      exact warmResponse_answers model.warm
  sleep _ _ _ := rfl
  jitter _ _ := rfl

theorem warmStub_serves : ServesGrpcInference WarmModel.warm warmService warmStub warmGrpc where
  call _ _ _ _ _ := by
    right
    refine ⟨rfl, fun _ _ _ => .raw (.cons ⟨rfl, rfl, rfl⟩ .nil) ?_ rfl⟩
    intro out hout
    rw [List.mem_singleton.mp hout]
    exact Datatype.tag_ne_nil .FP32
  sleep _ _ := rfl
  jitter _ := rfl

end Witness
end KserveClient
