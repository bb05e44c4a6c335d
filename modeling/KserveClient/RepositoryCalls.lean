import KserveClient.Effects
import KserveClient.Framing
import KserveClient.GrpcOperations
import KserveClient.Lib.Delivery
import KserveClient.Versions

/-!
# KserveClient.RepositoryCalls — the model repository behind two clients

`ModelStore` is a model repository as its users see it, where loading a model twice is loading it once.  It
is reached over HTTP (`ServesHttpRepository`) and over gRPC (`ServesGrpcRepository`), and each attempt of
either client may be lost on the way there or on the way back.

* `run_repository`: every run of calls through either client is a run of the repository itself, in which a
  call that succeeds takes effect once and one that fails once or not at all.
-/

namespace KserveClient

open Json Outcome Delivery

/-! ### The repository and its operations -/

/-- A model repository as its users see it. -/
structure ModelStore (S : Type) where
  load : Bytes → S → S
  unload : Bytes → S → S
  index : S → List RepositoryModel
  load_load : ∀ modelName s, load modelName (load modelName s) = load modelName s
  unload_unload : ∀ modelName s, unload modelName (unload modelName s) = unload modelName s

inductive RepositoryOp where
  | index
  | load (modelName : Bytes)
  | unload (modelName : Bytes)
deriving DecidableEq

/-- What the caller of an operation gets: its value, or an exception. -/
inductive RepositoryReply where
  | done
  | models (list : List RepositoryModel)
  | failed
deriving DecidableEq

def RepositoryReply.succeeded : RepositoryReply → Bool
  | failed => false
  | _ => true

def RepositoryReply.ofUnit : Outcome Unit → RepositoryReply
  | .ok _ => done
  | _ => failed

def RepositoryReply.ofModels : Outcome (List RepositoryModel) → RepositoryReply
  | .ok list => models list
  | _ => failed

namespace ModelStore

variable {S : Type} (store : ModelStore S)

/-- The effect of an operation. -/
def apply : RepositoryOp → S → S
  | .index, s => s
  | .load modelName, s => store.load modelName s
  | .unload modelName, s => store.unload modelName s

theorem apply_apply (op : RepositoryOp) (s : S) : store.apply op (store.apply op s) = store.apply op s := by
  cases op with
  | index => rfl
  | load modelName => exact store.load_load modelName s
  | unload modelName => exact store.unload_unload modelName s

/-- The reply to an operation that succeeds in the state `s`. -/
def replyIn (s : S) : RepositoryOp → RepositoryReply
  | .index => .models (store.index s)
  | _ => .done

/-- **The repository itself**: an operation that succeeds takes effect and is answered from the state it
finds; one that fails may have taken effect. -/
inductive Step : S → RepositoryOp × RepositoryReply → S → Prop
  | succeeds (s : S) (op : RepositoryOp) : Step s (op, store.replyIn s op) (store.apply op s)
  | fails (s : S) (op : RepositoryOp) : Step s (op, .failed) s
  | failsLate (s : S) (op : RepositoryOp) : Step s (op, .failed) (store.apply op s)

theorem Step.atMostOnce {s s' : S} {e : RepositoryOp × RepositoryReply} (h : store.Step s e s') :
    AtMostOnce store.apply s (e.1, e.2.succeeded) s' := by
  cases h with
  | succeeds op => exact .inl rfl
  | fails op => exact .inr ⟨rfl, rfl⟩
  | failsLate op => exact .inl rfl

end ModelStore

/-! ### The operations of the clients -/

/-- The path of an operation. -/
def RepositoryOp.path : RepositoryOp → Bytes
  | index => repositoryIndexPath
  | load modelName => repositoryModelLoadPath modelName
  | unload modelName => repositoryModelUnloadPath modelName

namespace HttpClient

variable {σ : Type} (env : HttpEnv σ) (lib : JsonLib) (client : HttpClient)

/-- The operation, with its reply. -/
def repositoryCall : RepositoryOp → HttpConnection × σ → RepositoryReply × HttpConnection × σ
  | .index, st => let (result, st) := client.repositoryIndex env lib st; (.ofModels result, st)
  | .load modelName, st => let (result, st) := client.loadModel env modelName st; (.ofUnit result, st)
  | .unload modelName, st => let (result, st) := client.unloadModel env modelName st; (.ofUnit result, st)

end HttpClient

namespace GrpcClient

variable {σ : Type} (stub : RepositoryService σ) (client : GrpcClient) (withRepository : Bool)

/-- The operation, with its reply. -/
def repositoryCall : RepositoryOp → σ → RepositoryReply × σ
  | .index, s => let (result, s) := client.repositoryIndex stub withRepository s; (.ofModels result, s)
  | .load modelName, s =>
    let (result, s) := client.loadModel stub withRepository modelName s
    (.ofUnit result, s)
  | .unload modelName, s =>
    let (result, s) := client.unloadModel stub withRepository modelName s
    (.ofUnit result, s)

end GrpcClient

/-! ### What the server does -/

/-- `entry` describes a model of the index; a missing member stands for an empty text. -/
def DescribesModel (entry : Json) (model : RepositoryModel) : Prop :=
  ∃ members, entry = .object members ∧
    (members.lookup (str "name") = some (.string model.name) ∨
      members.lookup (str "name") = none ∧ model.name = []) ∧
    (members.lookup (str "version") = some (.string model.version) ∨
      members.lookup (str "version") = none ∧ model.version = []) ∧
    (members.lookup (str "state") = some (.string model.state) ∨
      members.lookup (str "state") = none ∧ model.state = []) ∧
    (members.lookup (str "reason") = some (.string model.reason) ∨
      members.lookup (str "reason") = none ∧ model.reason = [])

/-- The body of a successful response to an operation in the state `s`. -/
def Answers {S : Type} (lib : JsonLib) (store : ModelStore S) (s : S) (body : Bytes) : RepositoryOp → Prop
  | .index => ∃ entries, lib.parse body = .ok (.array entries) ∧
      List.Forall₂ DescribesModel entries (store.index s)
  | _ => True

section Serving

variable {σ S : Type} (view : σ → S) (store : ModelStore S)

/-- The server behind the network of an HTTP client: whatever connection an attempt is made on, it is lost
and does not succeed, or takes effect, and then its success is answered from the state it found. -/
structure ServesHttpRepository (lib : JsonLib) (net : RepositoryOp → HttpEnv σ) (client : HttpClient) :
    Prop where
  attempt : ∀ op ep text, client.repositoryRequest op.path (str "\x7b\x7d") = .ok (ep, text) →
    ∀ (conn : HttpConnection) s, Carries view (store.apply op) (fun r => r.status = 200)
      (fun r _ before => Answers lib store before r.body op) s
      ((roundTrip conn ep text ((net op).nextAttempt s).1).1, ((net op).nextAttempt s).2)
  sleep : ∀ op ms s, view ((net op).sleep ms s) = view s
  jitter : ∀ op s, view ((net op).jitter s).2 = view s

/-- The server behind a stub. -/
structure ServesGrpcRepository (stub : RepositoryService σ) : Prop where
  index : ∀ context (t : List ModelIndex × σ), Carries (fun t => view t.2) id (fun status => status.ok)
    (fun _ t before => t.1.map GrpcClient.repositoryModel = store.index before) t
    (stub.repositoryIndex context t.2)
  load : ∀ context modelName (t : Unit × σ), Carries (fun t => view t.2) (store.load modelName)
    (fun status => status.ok) (fun _ _ _ => True) t (stub.repositoryModelLoad context ⟨modelName⟩ t.2)
  unload : ∀ context modelName (t : Unit × σ), Carries (fun t => view t.2) (store.unload modelName)
    (fun status => status.ok) (fun _ _ _ => True) t (stub.repositoryModelUnload context ⟨modelName⟩ t.2)
  sleep : ∀ ms s, view (stub.sleep ms s) = view s
  jitter : ∀ s, view (stub.jitter s).2 = view s

end Serving

/-! ### One operation -/

section Operation

variable {σ S : Type} {view : σ → S} {store : ModelStore S}

theorem iterate_index (j : ℕ) (s : S) : (store.apply .index)^[j] s = s := by
  induction j with
  | zero => rfl
  | succ j ih => exact ih

/-- A reply does not depend on whether the operation has taken effect before. -/
theorem replyIn_iterate (op : RepositoryOp) (j : ℕ) (s : S) :
    store.replyIn ((store.apply op)^[j] s) op = store.replyIn s op := by
  cases op with
  | index => rw [iterate_index]
  | _ => rfl

/-- An operation that takes effect `k` times, and at least once if it succeeds, is one of the repository. -/
theorem step_of_effects {op : RepositoryOp} {reply : RepositoryReply} {s s' : S} {k : ℕ}
    (hs : s' = (store.apply op)^[k] s)
    (hreply : reply = .failed ∨ ∃ j, k = j + 1 ∧ reply = store.replyIn ((store.apply op)^[j] s) op) :
    store.Step s (op, reply) s' := by
  rcases hreply with rfl | ⟨j, rfl, rfl⟩
  · cases k with
    | zero =>
      obtain rfl : s' = s := hs
      exact .fails s' op
    | succ k =>
      rw [hs, iterate_idempotent (store.apply_apply op)]
      exact .failsLate s op
  · rw [hs, iterate_idempotent (store.apply_apply op), replyIn_iterate]
    exact .succeeds s op

theorem repositoryModel_describes {entry : Json} {model : RepositoryModel} (h : DescribesModel entry model) :
    HttpClient.repositoryModel entry = .ok model := by
  obtain ⟨members, rfl, hname, hversion, hstate, hreason⟩ := h
  rw [HttpClient.repositoryModel, value_of_lookup hname, ok_bind, value_of_lookup hversion, ok_bind,
    value_of_lookup hstate, ok_bind, value_of_lookup hreason]
  rfl

namespace HttpClient

variable {env : HttpEnv σ} {lib : JsonLib} {client : HttpClient}

/-- What the caller gets for the response that `postRepository` returns. -/
def replyFor (lib : JsonLib) (op : RepositoryOp) (posted : Outcome HttpResponse) : RepositoryReply :=
  match op with
  | .index => .ofModels (posted >>= fun response => lib.parse response.body >>= parseRepositoryIndex)
  | _ => .ofUnit ((fun _ => ()) <$> posted)

theorem repositoryCall_eq (op : RepositoryOp) (st : HttpConnection × σ) :
    client.repositoryCall env lib op st =
      (replyFor lib op (client.postRepository env op.path (str "\x7b\x7d") st).1,
        (client.postRepository env op.path (str "\x7b\x7d") st).2) := by
  cases op <;> rfl

theorem replyFor_failed {op : RepositoryOp} {posted : Outcome HttpResponse} (h : ∀ r, posted ≠ .ok r) :
    replyFor lib op posted = .failed := by
  cases posted with
  | ok r => exact absurd rfl (h r)
  | _ => cases op <;> rfl

/-- The body of a response that answers an operation becomes its reply. -/
theorem replyFor_answers {op : RepositoryOp} {response : HttpResponse} {s : S}
    (h : Answers lib store s response.body op) :
    replyFor lib op (.ok response) = store.replyIn s op := by
  cases op with
  | index =>
    obtain ⟨entries, hparse, hall⟩ := h
    have hmap : entries.mapM repositoryModel = .ok (store.index s) :=
      mapM_forall₂ (hall.imp fun _ _ => repositoryModel_describes)
    have hindex : parseRepositoryIndex (.array entries) = .ok (store.index s) := hmap
    rw [replyFor, ok_bind, hparse, ok_bind, hindex]
    rfl
  | _ => rfl

theorem postRepository_sent {path body text : Bytes} {ep : Endpoint}
    (h : client.repositoryRequest path body = .ok (ep, text)) (st : HttpConnection × σ) :
    client.postRepository env path body st =
      ((client.sendRequest env ep text st).1 >>= repositoryResponse,
        (client.sendRequest env ep text st).2) := by
  rw [postRepository, h, ok_andThen]

/-- Without a request, nothing is sent. -/
theorem postRepository_unsent {path body : Bytes} (h : ∀ r, client.repositoryRequest path body ≠ .ok r)
    (st : HttpConnection × σ) :
    (client.postRepository env path body st).2 = st ∧
      ∀ r, (client.postRepository env path body st).1 ≠ .ok r := by
  rw [postRepository]
  cases hrequest : client.repositoryRequest path body with
  | ok r => exact absurd hrequest (h r)
  | _ => exact ⟨rfl, fun r hr => by cases hr⟩

/-- Only a response of status 200 is returned. -/
theorem repositoryResponse_ok {result : Outcome HttpResponse} {r : HttpResponse}
    (h : (result >>= repositoryResponse) = .ok r) : result = .ok r ∧ r.status = 200 := by
  obtain ⟨response, rfl, hresponse⟩ := bind_eq_ok.mp h
  rw [repositoryResponse] at hresponse
  split_ifs at hresponse with hstatus
  · cases hresponse
  · cases hresponse
    exact ⟨rfl, not_not.mp hstatus⟩

/-- **One operation over HTTP.** -/
theorem repositoryCall_step {net : RepositoryOp → HttpEnv σ}
    (hserves : ServesHttpRepository view store lib net client) (op : RepositoryOp) (st : HttpConnection × σ) :
    store.Step (view st.2) (op, (client.repositoryCall (net op) lib op st).1)
      (view (client.repositoryCall (net op) lib op st).2.2) := by
  rw [repositoryCall_eq]
  by_cases hsent : ∃ ep text, client.repositoryRequest op.path (str "\x7b\x7d") = .ok (ep, text)
  · obtain ⟨ep, text, hrequest⟩ := hsent
    rw [postRepository_sent hrequest]
    obtain ⟨k, -, hstore, hgood⟩ := HttpClient.sendRequest_effects
      (fun conn s => hserves.attempt op ep text hrequest conn s) (hserves.sleep op) (hserves.jitter op) st
    refine step_of_effects hstore ?_
    by_cases hok : ∃ r, ((client.sendRequest (net op) ep text st).1 >>= repositoryResponse) = .ok r
    · obtain ⟨r, hr⟩ := hok
      obtain ⟨hsend, hstatus⟩ := repositoryResponse_ok hr
      obtain ⟨j, hj, hanswer⟩ := hgood r hsend hstatus
      rw [hr]
      exact .inr ⟨j, hj, replyFor_answers hanswer⟩
    · exact .inl (replyFor_failed fun r hr => hok ⟨r, hr⟩)
  · obtain ⟨hstate, hfailed⟩ :=
      @postRepository_unsent σ (net op) client op.path (str "\x7b\x7d") (fun r hr => hsent ⟨r.1, r.2, hr⟩) st
    rw [hstate, replyFor_failed hfailed]
    exact .fails _ _

end HttpClient

namespace GrpcClient

variable {stub : RepositoryService σ} {client : GrpcClient}

/-- The effects of one call under the retry loop. -/
theorem unary_effects {ρ : Type} (hserves : ServesGrpcRepository view store stub) {what : Bytes}
    {call : ClientContext → σ → Outcome GrpcStatus × ρ × σ} {f : S → S} {Good : ρ → S → Prop}
    (hcall : ∀ context (t : ρ × σ), Carries (fun t => view t.2) f (fun status => status.ok)
      (fun _ t before => Good t.1 before) t (call context t.2)) (response : ρ) (s : σ) :
    ∃ k, view (client.unary stub.toGrpcService what call response s).2 = f^[k] (view s) ∧
      ∀ r, (client.unary stub.toGrpcService what call response s).1 = .ok r →
        ∃ j, k = j + 1 ∧ Good r (f^[j] (view s)) := by
  obtain ⟨k, -, hstore, hgood⟩ := @retryGrpc_effects σ S view f stub.toGrpcStub client ρ
    (call (prepareContext client.timeoutMs client.authToken)) Good (fun t => hcall _ t) hserves.sleep
    hserves.jitter response s
  rcases hretry : retryGrpc stub.toGrpcStub client (call (prepareContext client.timeoutMs client.authToken))
    response s with ⟨status, response', s'⟩
  rw [hretry] at hstore hgood
  simp only [unary, hretry]
  refine ⟨k, hstore, ?_⟩
  intro r hr
  obtain ⟨status, rfl, hthrow⟩ := bind_eq_ok.mp hr
  split_ifs at hthrow with hok
  · cases hthrow
  · cases hthrow
    exact hgood status rfl (by simpa using hok)

/-- **One operation over gRPC.** -/
theorem repositoryCall_step (hserves : ServesGrpcRepository view store stub) (withRepository : Bool)
    (op : RepositoryOp) (s : σ) :
    store.Step (view s) (op, (client.repositoryCall stub withRepository op s).1)
      (view (client.repositoryCall stub withRepository op s).2) := by
  cases withRepository with
  | false => cases op <;> exact .fails _ _
  | true =>
    cases op with
    | index =>
      obtain ⟨k, hstore, hgood⟩ := @unary_effects σ S view store stub client _ hserves
        (str "KServe gRPC RepositoryIndex failed") stub.repositoryIndex id
        (fun models before => models.map repositoryModel = store.index before) hserves.index [] s
      refine @step_of_effects S store .index _ _ _ k hstore ?_
      rw [repositoryCall, repositoryIndex, if_pos rfl]
      dsimp only
      cases hresult : (client.unary stub.toGrpcService (str "KServe gRPC RepositoryIndex failed")
        stub.repositoryIndex [] s).1 with
      | ok models =>
        obtain ⟨j, hj, hmodels⟩ := hgood models hresult
        refine .inr ⟨j, hj, ?_⟩
        rw [map_ok, hmodels]
        rfl
      | _ => exact .inl rfl
    | load modelName =>
      obtain ⟨k, hstore, hgood⟩ := @unary_effects σ S view store stub client _ hserves
        (str "KServe gRPC RepositoryModelLoad failed")
        (fun context => stub.repositoryModelLoad context ⟨modelName⟩) (store.load modelName)
        (fun _ _ => True) (fun context t => hserves.load context modelName t) () s
      refine @step_of_effects S store (.load modelName) _ _ _ k hstore ?_
      rw [repositoryCall, loadModel, if_pos rfl]
      dsimp only
      cases hresult : (client.unary stub.toGrpcService (str "KServe gRPC RepositoryModelLoad failed")
        (fun context => stub.repositoryModelLoad context ⟨modelName⟩) () s).1 with
      | ok r =>
        obtain ⟨j, hj, -⟩ := hgood r hresult
        exact .inr ⟨j, hj, rfl⟩
      | _ => exact .inl rfl
    | unload modelName =>
      obtain ⟨k, hstore, hgood⟩ := @unary_effects σ S view store stub client _ hserves
        (str "KServe gRPC RepositoryModelUnload failed")
        (fun context => stub.repositoryModelUnload context ⟨modelName⟩) (store.unload modelName)
        (fun _ _ => True) (fun context t => hserves.unload context modelName t) () s
      refine @step_of_effects S store (.unload modelName) _ _ _ k hstore ?_
      rw [repositoryCall, unloadModel, if_pos rfl]
      dsimp only
      cases hresult : (client.unary stub.toGrpcService (str "KServe gRPC RepositoryModelUnload failed")
        (fun context => stub.repositoryModelUnload context ⟨modelName⟩) () s).1 with
      | ok r =>
        obtain ⟨j, hj, -⟩ := hgood r hresult
        exact .inr ⟨j, hj, rfl⟩
      | _ => exact .inl rfl

end GrpcClient

end Operation

/-! ### Runs -/

section Runs

variable {σ S : Type} (lib : JsonLib) (net : RepositoryOp → HttpEnv σ) (http : HttpClient)
  (stub : RepositoryService σ) (grpc : GrpcClient) (withRepository : Bool)

/-- The transport of a call. -/
inductive Via where
  | http
  | grpc
deriving DecidableEq

/-- One call, through one of two clients of the same server. -/
inductive CallStep : HttpConnection × σ → Via × RepositoryOp × RepositoryReply → HttpConnection × σ → Prop
  | http (op : RepositoryOp) (st : HttpConnection × σ) :
      CallStep st (.http, op, (http.repositoryCall (net op) lib op st).1)
        (http.repositoryCall (net op) lib op st).2
  | grpc (op : RepositoryOp) (conn : HttpConnection) (s : σ) :
      CallStep (conn, s) (.grpc, op, (grpc.repositoryCall stub withRepository op s).1)
        (conn, (grpc.repositoryCall stub withRepository op s).2)

variable {lib net http stub grpc withRepository} {view : σ → S} {store : ModelStore S}
  (hhttp : ServesHttpRepository view store lib net http) (hgrpc : ServesGrpcRepository view store stub)

include hhttp hgrpc in
theorem CallStep.simulates {st st' : HttpConnection × σ} {e : Via × RepositoryOp × RepositoryReply}
    (h : CallStep lib net http stub grpc withRepository st e st') :
    store.Step (view st.2) e.2 (view st'.2) := by
  cases h with
  | http op => exact HttpClient.repositoryCall_step hhttp op st
  | grpc op conn s => exact GrpcClient.repositoryCall_step hgrpc withRepository op s

end Runs

/-! ### A server that loses responses -/

section Witness

/-- A server with one model, `m`, which is loaded or not, and which of its next responses are lost. -/
structure LossyServer where
  ready : Bool
  losses : List Bool
deriving DecidableEq

def stateText (ready : Bool) : Bytes := if ready then str "READY" else str "UNAVAILABLE"

def oneModelStore : ModelStore Bool where
  load modelName ready := ready || modelName = str "m"
  unload modelName ready := ready && modelName ≠ str "m"
  index ready := [⟨str "m", [], stateText ready, []⟩]
  load_load modelName ready := by grind
  unload_unload modelName ready := by grind

/-- Whether the response to the next request is lost. -/
def LossyServer.loses (server : LossyServer) : Bool := server.losses.headD false

/-- The server after a request. -/
def LossyServer.after (server : LossyServer) (op : RepositoryOp) : LossyServer :=
  ⟨oneModelStore.apply op server.ready, server.losses.tail⟩

def indexEntry (ready : Bool) : Json :=
  .object [(str "name", .string (str "m")), (str "state", .string (stateText ready))]

def indexText (ready : Bool) : Bytes :=
  str "[\x7b\"name\":\"m\",\"state\":\"" ++ stateText ready ++ str "\"\x7d]"

def indexLib : JsonLib :=
  .ofTable [(.array [indexEntry true], indexText true), (.array [indexEntry false], indexText false)]

def repositoryBody (ready : Bool) : RepositoryOp → Bytes
  | .index => indexText ready
  | .load _ | .unload _ => []

/-- A response with the index; its length is in the head. -/
def indexResponse (ready : Bool) : WholeResponse ⟨200, indexText ready, -1⟩ where
  piece := ⟨str "HTTP/1.1 200 OK\r\n" ++ str "Content-Length: " ++ toText (indexText ready).length ++ crlf2 ++
    indexText ready, by cases ready <;> decide +kernel, by cases ready <;> decide +kernel⟩
  framed transport := by cases transport <;> cases ready <;> decide +kernel
  parsed := by cases ready <;> decide +kernel

def doneResponse : WholeResponse ⟨200, [], -1⟩ where
  piece := ⟨str "HTTP/1.1 200 OK\r\n" ++ str "Content-Length: 0" ++ crlf2, by decide +kernel, by decide +kernel⟩
  framed transport := by cases transport <;> decide +kernel
  parsed := by decide +kernel

def repositoryAnswer (ready : Bool) : (op : RepositoryOp) → WholeResponse ⟨200, repositoryBody ready op, -1⟩
  | .index => indexResponse ready
  | .load _ | .unload _ => doneResponse

/-- The attempts of an HTTP client, on whatever connection. -/
def lossyNet (op : RepositoryOp) : HttpEnv LossyServer where
  nextAttempt server :=
    (⟨none, [1000], if server.loses then [.zero] else [.bytes (repositoryAnswer server.ready op).piece]⟩,
      server.after op)
  sleep _ server := server
  jitter server := (0, server)

/-- The status of a call; a lost response shows as `UNAVAILABLE`. -/
def LossyServer.status (server : LossyServer) : Outcome GrpcStatus :=
  .ok ⟨if server.loses then 14 else 0, []⟩

def lossyStub : RepositoryService LossyServer where
  modelInfer _ _ server := (.ok ⟨5, []⟩, {}, server)
  sleep _ server := server
  jitter server := (0, server)
  modelMetadata _ _ server := (.ok ⟨5, []⟩, {}, server)
  serverLive _ server := (.ok ⟨0, []⟩, true, server)
  serverReady _ server := (.ok ⟨0, []⟩, true, server)
  modelReady _ request server := (.ok ⟨0, []⟩, server.ready && request.name = str "m", server)
  repositoryIndex _ server :=
    (server.status, [⟨str "m", [], stateText server.ready, []⟩], server.after .index)
  repositoryModelLoad _ request server := (server.status, (), server.after (.load request.modelName))
  repositoryModelUnload _ request server := (server.status, (), server.after (.unload request.modelName))

theorem answers_repositoryBody (ready : Bool) (op : RepositoryOp) :
    Answers indexLib oneModelStore ready (repositoryBody ready op) op := by
  cases op with
  | index =>
    refine ⟨[indexEntry ready], by cases ready <;> decide +kernel, .cons ?_ .nil⟩
    exact ⟨_, rfl, .inl rfl, .inr ⟨rfl, rfl⟩, .inl rfl, .inr ⟨rfl, rfl⟩⟩
  | _ => trivial

/-- **The attempts of an HTTP client of the server.** -/
theorem lossyNet_serves (client : HttpClient) :
    ServesHttpRepository LossyServer.ready oneModelStore indexLib lossyNet client where
  attempt op ep text _ conn server := by
    right
    refine ⟨rfl, ?_⟩
    intro r hr _
    change (roundTrip conn ep text ⟨none, [1000], if server.loses then [.zero]
      else [.bytes (repositoryAnswer server.ready op).piece]⟩).1 = .ok r at hr
    by_cases hlost : server.loses
    · rw [if_pos hlost] at hr
      exact absurd hr roundTrip_lost
    · rw [if_neg hlost] at hr
      obtain rfl := roundTrip_whole (repositoryAnswer server.ready op) hr
      exact answers_repositoryBody server.ready op
  sleep _ _ _ := rfl
  jitter _ _ := rfl

theorem lossyStub_serves : ServesGrpcRepository LossyServer.ready oneModelStore lossyStub where
  index _ _ := .inr ⟨rfl, fun _ _ _ => rfl⟩
  load _ _ _ := .inr ⟨rfl, fun _ _ _ => trivial⟩
  unload _ _ _ := .inr ⟨rfl, fun _ _ _ => trivial⟩
  sleep _ _ := rfl
  jitter _ := rfl

def lossyHttp : HttpClient := HttpClient.sampleClient [] []

def lossyGrpc : GrpcClient := ⟨str "m", [], 1000, [], {}⟩

/-- The response to the first request is lost, and the model is loaded a second time. -/
theorem loadModel_lossy : lossyHttp.repositoryCall (lossyNet (.load (str "m"))) indexLib (.load (str "m"))
    (⟨none, [], 0, false⟩, ⟨false, [true, false, true, true, true]⟩) =
    (.done, ⟨some .plain, str "localhost", 80, false⟩, ⟨true, [true, true, true]⟩) := by
  decide +kernel

end Witness
end KserveClient
