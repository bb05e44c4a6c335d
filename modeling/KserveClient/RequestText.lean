import KserveClient.HttpOperations
import KserveClient.Lib.HttpSyntax

/-!
# KserveClient.RequestText — one call, one request on the wire

`buildRequest` writes its arguments out as they are, and `resolveSecret` passes a token from the environment
through as it is.  `ownFields` are the fields that an operation means to send; the text says just that under
the grammar of HTTP/1.1 if the arguments fit into their places (`RequestOk`), and otherwise it does not.

* `buildRequest_eq_render`: the text is the request with these fields, written out.
* `buildRequest_parses_iff`: when it is parsed as that request, with nothing behind it.
-/

namespace KserveClient

open HttpSyntax

/-! ### Secrets -/

def trimTrailingWhitespace (value : Bytes) : Bytes :=
  value.rdropWhile fun c => c == 32 || c == 9 || c == 13 || c == 10

/-- The value of the environment, or else the contents of the file; `none` is a null pointer. -/
def resolveSecret (envValue fileContents : Option Bytes) : Bytes :=
  match envValue with
  | some (c :: value) => c :: value
  | _ =>
    match fileContents with
    | some contents => trimTrailingWhitespace contents
    | none => []

/-! ### What the operations pass -/

/-- The content type and the extra headers of an operation's request. -/
inductive RequestPayload where
  /-- metadata and probes -/
  | none
  /-- the model repository, and inference with JSON tensors -/
  | json
  /-- inference with binary tensors behind a JSON header -/
  | binary (headerLength : ℕ)

namespace RequestPayload

def contentType : RequestPayload → Bytes
  | none => []
  | json => str "application/json"
  | binary _ => str "application/octet-stream"

def extraHeaders : RequestPayload → Bytes
  | binary headerLength =>
    str "Inference-Header-Content-Length" ++ str ": " ++ toText headerLength ++ str "\r\n"
  | _ => []

/-- The field in the extra headers. -/
def extraFields : RequestPayload → List (Bytes × Bytes)
  | binary headerLength => [(str "Inference-Header-Content-Length", toText headerLength)]
  | _ => []

end RequestPayload

/-- Every inference request has one of these payloads. -/
theorem inferMessage_payload {lib : JsonLib} {binary : Bool} {outputNames : List Bytes}
    {inputs : List InferInput} {message : HttpClient.InferMessage}
    (h : HttpClient.inferMessage lib binary outputNames inputs = .ok message) :
    ∃ payload : RequestPayload, message.contentType = payload.contentType ∧
      message.extraHeaders = payload.extraHeaders := by
  obtain ⟨⟨request, blob⟩, -, h⟩ := Outcome.bind_eq_ok.mp h
  obtain ⟨text, -, h⟩ := Outcome.bind_eq_ok.mp h
  split_ifs at h with hbinary
  · obtain ⟨body, -, h⟩ := Outcome.bind_eq_ok.mp h
    cases h
    exact ⟨.binary text.length, rfl, rfl⟩
  · cases h
    exact ⟨.json, rfl, rfl⟩

/-- **The requests of the operations** are built with these payloads. -/
theorem request_payload {lib : JsonLib} {client : HttpClient} {ep : Endpoint} {text : Bytes}
    (h : client.metadataRequest = .ok (ep, text) ∨ (∃ path, client.probeRequest path = .ok (ep, text)) ∨
      (∃ path body, client.repositoryRequest path body = .ok (ep, text)) ∨
      ∃ kserveBinary inputs, client.inferRequest lib kserveBinary inputs = .ok (ep, text)) :
    ∃ method path body, ∃ payload : RequestPayload, text =
      buildRequest method ep path client.authToken payload.contentType payload.extraHeaders body := by
  rcases h with h | ⟨path, h⟩ | ⟨path, body, h⟩ | ⟨kserveBinary, inputs, h⟩
  · obtain ⟨ep', -, h⟩ := Outcome.bind_eq_ok.mp h
    cases h
    exact ⟨_, _, _, .none, rfl⟩
  · obtain ⟨ep', -, h⟩ := Outcome.bind_eq_ok.mp h
    cases h
    exact ⟨_, _, _, .none, rfl⟩
  · obtain ⟨ep', -, h⟩ := Outcome.bind_eq_ok.mp h
    cases h
    exact ⟨_, _, _, .json, rfl⟩
  · obtain ⟨ep', -, h⟩ := Outcome.bind_eq_ok.mp h
    obtain ⟨message, hmessage, h⟩ := Outcome.bind_eq_ok.mp h
    cases h
    obtain ⟨payload, htype, hextra⟩ := inferMessage_payload hmessage
    exact ⟨_, _, _, payload, by rw [htype, hextra]⟩

/-! ### The fields of a request -/

/-- The fields that an operation means to send. -/
def ownFields (host token : Bytes) (payload : RequestPayload) (body : Bytes) : List (Bytes × Bytes) :=
  [(str "Host", host), (str "Connection", str "keep-alive")] ++
  (if payload.contentType = [] then [] else [(str "Content-Type", payload.contentType)]) ++
  (if token = [] then [] else [(str "Authorization", str "Bearer " ++ token)]) ++
  payload.extraFields ++
  [(str "Content-Length", toText body.length)]

/-- A field line as `buildRequest` writes it, with the label in one literal. -/
theorem fieldText_label {name label : Bytes} (h : label = name ++ [58, 32]) (value : Bytes) :
    fieldText (name, value) ++ HttpSyntax.crlf = label ++ (value ++ str "\r\n") := by
  have hcrlf : str "\r\n" = HttpSyntax.crlf := rfl
  rw [h, fieldText, hcrlf, List.append_assoc, List.append_assoc]
  rfl

/-- **The text of a request** is its fields written out. -/
theorem buildRequest_eq_render (method path token body : Bytes) (ep : Endpoint) (payload : RequestPayload) :
    buildRequest method ep path token payload.contentType payload.extraHeaders body =
      render method path (ownFields ep.host token payload body) body := by
  have hline : ∀ rest, str " " ++ (path ++ (str " HTTP/1.1\r\n" ++ rest)) =
      32 :: (path ++ 32 :: (http11 ++ (HttpSyntax.crlf ++ rest))) := fun rest => rfl
  have hhost := fieldText_label (show str "Host: " = str "Host" ++ [58, 32] from rfl)
  have hconnection := fieldText_label (show str "Connection: " = str "Connection" ++ [58, 32] from rfl)
  have htype := fieldText_label (show str "Content-Type: " = str "Content-Type" ++ [58, 32] from rfl)
  have hauth := fieldText_label (show str "Authorization: " = str "Authorization" ++ [58, 32] from rfl)
  have hinference := fieldText_label (show str "Inference-Header-Content-Length" ++ str ": " =
    str "Inference-Header-Content-Length" ++ [58, 32] from rfl)
  have hlength := fieldText_label (show str "Content-Length: " = str "Content-Length" ++ [58, 32] from rfl)
  have hkeep : str "Connection: keep-alive\r\n" = str "Connection: " ++ (str "keep-alive" ++ str "\r\n") := rfl
  have hbearer : str "Authorization: Bearer " = str "Authorization: " ++ str "Bearer " := rfl
  have hend : str "\r\n\r\n" = str "\r\n" ++ HttpSyntax.crlf := rfl
  have hextra : payload.extraHeaders = payload.extraFields.flatMap fun f => fieldText f ++ HttpSyntax.crlf := by
    cases payload with
    | binary headerLength =>
      rw [RequestPayload.extraFields, List.flatMap_cons, List.flatMap_nil, List.append_nil, hinference,
        RequestPayload.extraHeaders, List.append_assoc]
    | _ => rfl
  have hoptional : ∀ (v line : Bytes) (f : Bytes × Bytes), fieldText f ++ HttpSyntax.crlf = line →
      ((if v = [] then [] else [f]).flatMap fun f => fieldText f ++ HttpSyntax.crlf) =
        if v ≠ [] then line else [] := by
    rintro v _ f rfl
    by_cases hv : v = []
    · rw [if_pos hv, if_neg (not_not.mpr hv), List.flatMap_nil]
    · rw [if_neg hv, if_pos hv, List.flatMap_cons, List.flatMap_nil, List.append_nil]
  rw [buildRequest, render, ownFields, hkeep, hbearer, hend, hextra]
  simp only [List.flatMap_append, hoptional _ _ _ (htype _), hoptional _ _ _ (hauth _), List.flatMap_cons,
    List.flatMap_nil, List.append_nil, List.nil_append, hhost, hconnection, hlength, List.append_assoc,
    List.cons_append, hline]

/-! ### Arguments that fit -/

/-- The arguments fit into their places: the method is a token, the path a request target, and host and token
are field text, the token without a blank at its end. -/
structure RequestOk (method path host token : Bytes) : Prop where
  method_ok : isToken method = true
  path_ok : isOriginForm path = true
  host_ok : host.all isFieldByte = true
  token_ok : token.all isFieldByte = true
  token_end : ∀ c ∈ token.getLast?, isBlank c = false

theorem digit_bytes {c : UInt8} (h : Numeral.isDigit 10 c = true) :
    isFieldByte c = true ∧ isBlank c = false := by
  have hrange : 48 ≤ c.toNat ∧ c.toNat ≤ 57 := by
    simp only [Numeral.isDigit, Numeral.digitVal, decide_eq_true_eq, UInt8.le_iff_toNat_le] at h
    simp at h
    split_ifs at h <;> omega
  have hne : ∀ d : UInt8, d.toNat < 48 ∨ 57 < d.toNat → c ≠ d := by
    rintro d hd rfl
    omega
  constructor
  · have hle : (32 : UInt8) ≤ c := by
      rw [UInt8.le_iff_toNat_le]
      exact le_trans (by decide) hrange.1
    have h127 : c ≠ 127 := hne 127 (.inr (by decide))
    simp [isFieldByte, hle, h127]
  · have h32 : c ≠ 32 := hne 32 (.inl (by decide))
    have h9 : c ≠ 9 := hne 9 (.inl (by decide))
    simp [isBlank, h32, h9]

theorem toText_nat (n : ℕ) : toText n = Numeral.toDecimal n := by
  rw [toText, if_neg (by omega), Int.natAbs_natCast]

theorem isFieldByte_toText (n : ℕ) : (toText n).all isFieldByte = true := by
  rw [toText_nat, List.all_eq_true]
  intro c hc
  exact (digit_bytes (Numeral.isDigit_of_mem_toDecimal hc)).1

theorem trimBlanks_toText (n : ℕ) : trimBlanks (toText n) = toText n := by
  rw [toText_nat]
  refine trimBlanks_eq_self (fun c hc => ?_) fun c hc => ?_
  · exact (digit_bytes (Numeral.isDigit_of_mem_toDecimal (List.mem_of_mem_head? hc))).2
  · exact (digit_bytes (Numeral.isDigit_of_mem_toDecimal (List.mem_of_mem_getLast? hc))).2

theorem trimBlanks_bearer {token : Bytes} (h : ∀ c ∈ token.getLast?, isBlank c = false) (hne : token ≠ []) :
    trimBlanks (str "Bearer " ++ token) = str "Bearer " ++ token := by
  refine trimBlanks_eq_self (fun c hc => ?_) fun c hc => h c ?_
  · obtain rfl : (66 : UInt8) = c := Option.some.inj hc
    rfl
  · rwa [List.getLast?_append, List.getLast?_eq_getLast_of_ne_nil hne, Option.some_or,
      ← List.getLast?_eq_getLast_of_ne_nil hne] at hc

/-- The own fields, as they are read back. -/
theorem trimField_ownFields {token : Bytes} (h : ∀ c ∈ token.getLast?, isBlank c = false)
    (host : Bytes) (payload : RequestPayload) (body : Bytes) :
    (ownFields host token payload body).map trimField = ownFields (trimBlanks host) token payload body := by
  have hconnection : trimBlanks (str "keep-alive") = str "keep-alive" := rfl
  have htype : trimBlanks payload.contentType = payload.contentType := by cases payload <;> rfl
  have hextra : payload.extraFields.map trimField = payload.extraFields := by
    cases payload with
    | binary headerLength =>
      rw [RequestPayload.extraFields, List.map_cons, List.map_nil, trimField, trimBlanks_toText]
    | _ => rfl
  have hauth : (if token = [] then [] else [(str "Authorization", str "Bearer " ++ token)]).map trimField =
      if token = [] then [] else [(str "Authorization", str "Bearer " ++ token)] := by
    by_cases htoken : token = []
    · rw [if_pos htoken, List.map_nil]
    · rw [if_neg htoken, List.map_cons, List.map_nil, trimField, trimBlanks_bearer h htoken]
  have hcontent : (if payload.contentType = [] then []
      else [(str "Content-Type", payload.contentType)]).map trimField =
      if payload.contentType = [] then [] else [(str "Content-Type", payload.contentType)] := by
    by_cases hempty : payload.contentType = []
    · rw [if_pos hempty, List.map_nil]
    · rw [if_neg hempty, List.map_cons, List.map_nil, trimField, htype]
  simp only [ownFields, List.map_append, hauth, hcontent, hextra, List.map_cons, List.map_nil, trimField,
    hconnection, trimBlanks_toText]

/-- No own field but the last announces a body. -/
theorem valuesOf_ownFields {name : Bytes}
    (hhost : sameName (str "Host") name = false) (hconnection : sameName (str "Connection") name = false)
    (htype : sameName (str "Content-Type") name = false) (hauth : sameName (str "Authorization") name = false)
    (hinference : sameName (str "Inference-Header-Content-Length") name = false)
    (host token : Bytes) (payload : RequestPayload) (body : Bytes) :
    valuesOf name (ownFields host token payload body) =
      valuesOf name [(str "Content-Length", toText body.length)] := by
  rw [ownFields, valuesOf_append, valuesOf_eq_nil, List.nil_append]
  intro f hf
  simp only [List.mem_append] at hf
  rcases hf with ((hf | hf) | hf) | hf
  · rcases List.mem_pair.mp hf with rfl | rfl
    · exact hhost
    · exact hconnection
  · split_ifs at hf
    · cases hf
    · rw [List.mem_singleton.mp hf]
      exact htype
  · split_ifs at hf
    · cases hf
    · rw [List.mem_singleton.mp hf]
      exact hauth
  · cases payload with
    | binary headerLength =>
      rw [List.mem_singleton.mp hf]
      exact hinference
    | _ => cases hf

theorem bodyLength_ownFields (host token : Bytes) (payload : RequestPayload) (body : Bytes) :
    bodyLength (ownFields host token payload body) = some body.length := by
  have hcoding : valuesOf transferEncoding (ownFields host token payload body) = [] := by
    rw [valuesOf_ownFields rfl rfl rfl rfl rfl]
    rfl
  have hlength : valuesOf contentLength (ownFields host token payload body) = [toText body.length] := by
    rw [valuesOf_ownFields rfl rfl rfl rfl rfl]
    rfl
  have hdigits : (toText body.length).all (Numeral.isDigit 10) = true := by
    rw [toText_nat, List.all_eq_true]
    exact fun c hc => Numeral.isDigit_of_mem_toDecimal hc
  have hne : (toText body.length).isEmpty = false := by
    rw [toText_nat, List.isEmpty_eq_false_iff]
    exact Numeral.toDecimal_ne_nil _
  rw [bodyLength, hcoding, hlength, if_neg (not_not.mpr rfl)]
  simp only [hdigits, hne, Bool.not_false, Bool.and_self, if_true]
  rw [toText_nat, Numeral.value_toDecimal]

theorem ownFields_ok {host token : Bytes} (hhost : host.all isFieldByte = true)
    (htoken : token.all isFieldByte = true) (payload : RequestPayload) (body : Bytes) :
    ∀ f ∈ ownFields host token payload body, FieldOk f := by
  intro f hf
  simp only [ownFields, List.mem_append] at hf
  rcases hf with (((hf | hf) | hf) | hf) | hf
  · rcases List.mem_pair.mp hf with rfl | rfl
    · exact ⟨rfl, hhost⟩
    · exact ⟨rfl, rfl⟩
  · split_ifs at hf
    · cases hf
    · rw [List.mem_singleton.mp hf]
      refine ⟨rfl, ?_⟩
      cases payload <;> rfl
  · split_ifs at hf
    · cases hf
    · rw [List.mem_singleton.mp hf]
      refine ⟨rfl, ?_⟩
      rw [List.all_append, htoken]
      rfl
  · cases payload with
    | binary headerLength =>
      rw [List.mem_singleton.mp hf]
      exact ⟨rfl, isFieldByte_toText headerLength⟩
    | _ => cases hf
  · rw [List.mem_singleton.mp hf]
    exact ⟨rfl, isFieldByte_toText body.length⟩

/-- **One call, one request**: the text that an operation sends is parsed as one request with its method, its
path, its own fields and its body, and with nothing behind it, exactly if the arguments fit. -/
theorem buildRequest_parses_iff (method path body : Bytes) (ep : Endpoint) (payload : RequestPayload)
    (envToken tokenFile : Option Bytes) :
    parseRequest (buildRequest method ep path (resolveSecret envToken tokenFile) payload.contentType
        payload.extraHeaders body) =
      some (⟨method, path, ownFields (trimBlanks ep.host) (resolveSecret envToken tokenFile) payload body,
        body⟩, []) ↔
    RequestOk method path ep.host (resolveSecret envToken tokenFile) := by
  generalize resolveSecret envToken tokenFile = token
  rw [buildRequest_eq_render]
  constructor
  · intro h
    obtain ⟨hmethod, htarget, hfields⟩ := parseRequest_sound h
    have hhost := hfields (str "Host", trimBlanks ep.host) (by simp [ownFields])
    have hhost' : ep.host.all isFieldByte = true := fieldBytes_trimBlanks.symm.trans hhost.1.2
    by_cases htoken : token = []
    · exact ⟨hmethod, htarget, hhost', by rw [htoken]; rfl, by simp [htoken]⟩
    · have hauth := hfields (str "Authorization", str "Bearer " ++ token) (by simp [ownFields, htoken])
      have hbytes := hauth.1.2
      rw [List.all_append, Bool.and_eq_true] at hbytes
      refine ⟨hmethod, htarget, hhost', hbytes.2, fun c hc => hauth.2 c ?_⟩
      rw [List.getLast?_append, Option.mem_def.mp hc]
      rfl
  · rintro ⟨hmethod, htarget, hhost, htoken, hend⟩
    have hfields := trimField_ownFields hend ep.host payload body
    rw [← hfields]
    refine parseRequest_render hmethod htarget (ownFields_ok hhost htoken payload body) ?_
    rw [hfields, bodyLength_ownFields]

/-- A token from the environment that ends the header section and starts another request. -/
def smugglingToken : Bytes :=
  str "t\r\nContent-Length: 0\r\n\r\nGET /v2/health/live HTTP/1.1\r\nX: y"

/-- The text of one metadata call is two requests, and the first one has another token. -/
theorem buildRequest_smuggled :
    ∃ text first second rest,
      HttpClient.metadataRequest ⟨str "localhost:80", str "m", [],
        resolveSecret (some smugglingToken) none, {}, []⟩ = .ok (HttpClient.sampleEndpoint, text) ∧
      parseRequest text = some (first, rest) ∧
      (str "Authorization", str "Bearer " ++ smugglingToken) ∉ first.fields ∧ rest ≠ [] ∧
      parseRequest rest = some (second, []) ∧ second.target = str "/v2/health/live" := by
  refine ⟨buildRequest (str "GET") HttpClient.sampleEndpoint (str "/v2/models/m") smugglingToken [] [] [],
    ⟨str "GET", str "/v2/models/m", [(str "Host", str "localhost"), (str "Connection", str "keep-alive"),
      (str "Authorization", str "Bearer t"), (str "Content-Length", str "0")], []⟩,
    ⟨str "GET", str "/v2/health/live", [(str "X", str "y"), (str "Content-Length", str "0")], []⟩,
    str "GET /v2/health/live HTTP/1.1\r\nX: y\r\nContent-Length: 0\r\n\r\n", rfl, ?_, ?_, ?_, ?_, rfl⟩ <;>
  decide +kernel

end KserveClient
